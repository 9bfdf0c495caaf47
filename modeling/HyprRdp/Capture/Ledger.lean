import HyprRdp.Capture.Frame

namespace HyprRdp

/-- What a processor remembers about the picture on the client: whether there
is one, the reference it compares with, and the rectangles still to send. -/
structure Ledger where
  shape : FrameShape
  sentFirstFrame : Bool
  pendingDamageRegions : List Region
  damageDetector : FrameDiffDamageDetector

def FrameProcessor.ledger (p : FrameProcessor) : Ledger :=
  ⟨p.shape, p.sentFirstFrame, p.pendingDamageRegions, p.damageDetector⟩

def WireFrame.surface : WireFrame → Nat
  | .avc420 surface _ | .avc444 surface _ _ _ | .clearcodec surface _ => surface

/-- The pixels that a frame gives a new value; a chroma subframe alone gives none. -/
def WireFrame.Paints : WireFrame → Nat → Nat → Prop
  | .avc420 _ regions, px, py => ∃ r ∈ regions, r.edges.Covers px py
  | .avc444 _ encoding stream1Regions _, px, py =>
    encoding ≠ .chroma ∧ ∃ r ∈ stream1Regions, r.edges.Covers px py
  | .clearcodec _ rectangles, px, py => ∃ e ∈ rectangles, e.Covers px py

instance (wire : WireFrame) (px py : Nat) : Decidable (wire.Paints px py) :=
  match wire with
  | .avc420 _ regions => inferInstanceAs (Decidable (∃ r ∈ regions, r.edges.Covers px py))
  | .avc444 _ encoding stream1Regions _ =>
    inferInstanceAs (Decidable (encoding ≠ .chroma ∧ ∃ r ∈ stream1Regions, r.edges.Covers px py))
  | .clearcodec _ rectangles => inferInstanceAs (Decidable (∃ e ∈ rectangles, e.Covers px py))

def Event.delivers : Event → Bool
  | .frame _ | .bitmap => true
  | .requested | .resize _ _ | .surface _ _ => false

def Call.deliveries (c : Call) : List Event := c.events.filter Event.delivers

namespace Ledger

def Visible (l : Ledger) (px py : Nat) : Prop := px < l.shape.width ∧ py < l.shape.height

def Holds (l : Ledger) (reference : Bytes) : Prop :=
  l.damageDetector.Holds l.shape.stride l.shape.height reference

def reset (l : Ledger) : Ledger :=
  { l with sentFirstFrame := false, damageDetector := l.damageDetector.invalidate }

def settle (l : Ledger) : Ledger := { l with pendingDamageRegions := [] }

def refuse (l : Ledger) : Ledger := { l with sentFirstFrame := true }

def compare (l : Ledger) (data : Bytes) (regions : List Region) : Ledger :=
  { l with
    damageDetector :=
      l.damageDetector.updateReferenceRegions data l.shape.width l.shape.height l.shape.stride regions }

def deliver (l : Ledger) (data : Bytes) (regions : List Region) : Ledger := (l.compare data regions).settle.refuse

def deliverBitmap (l : Ledger) (data : Bytes) : Ledger :=
  { l with
    sentFirstFrame := true
    damageDetector := l.damageDetector.updateReference data l.shape.height l.shape.stride
    pendingDamageRegions := [] }

/-- Nothing was sent without a reference, a reference fits the frame, and the
pending rectangles are inside it. -/
structure Sound (l : Ledger) : Prop where
  fresh : l.sentFirstFrame = false → l.damageDetector.referenceFrame = none
  usable : ∀ reference, l.damageDetector.referenceFrame = some reference → l.Holds reference
  within : ∀ r ∈ l.pendingDamageRegions, r.Within l.shape.width l.shape.height

/-- Regions of the frame that bring the client up to date with the data: all
of it without a reference, else at least the pending pixels that differ. -/
structure Due (l : Ledger) (data : Bytes) (regions : List Region) : Prop where
  within : ∀ r ∈ regions, r.Within l.shape.width l.shape.height
  whole : l.damageDetector.referenceFrame = none → ∀ px py, l.Visible px py → Covered regions px py
  changed : ∀ reference, l.Holds reference → ∀ px py, l.Visible px py → Covered l.pendingDamageRegions px py →
    ¬ data.SamePixel reference l.shape.stride px py → Covered regions px py

variable {l : Ledger} {data reference : Bytes} {regions : List Region}

theorem columns_small (l : Ledger) : l.shape.width < 2 ^ 31 := by
  have bound := l.shape.width_le
  omega

theorem rows_small (l : Ledger) : l.shape.height < 2 ^ 31 := by
  have bound := l.shape.height_le
  omega

theorem Visible.pixel {px py : Nat} (visible : l.Visible px py) : (px + 1) * 4 ≤ l.shape.stride := by
  have fits := l.shape.row_fits
  have column := visible.1
  omega

theorem full_due (data : Bytes) : l.Due data [.full l.shape.width l.shape.height] where
  within r member := by
    rw [List.mem_singleton.mp member]
    exact Region.full_within l.shape.width_pos l.shape.height_pos
  whole _ px py visible := by
    rw [Covered.cons, Region.covers_full]
    exact .inl visible
  changed _ _ px py visible _ _ := by
    rw [Covered.cons, Region.covers_full]
    exact .inl visible

theorem detect_due (sound : l.Sound) (long : l.shape.stride * l.shape.height ≤ data.len) {candidates : List Region}
    (wide : ∀ px py, l.Visible px py → Covered l.pendingDamageRegions px py → Covered candidates px py) :
    l.Due data (l.damageDetector.detect data l.shape.width l.shape.height l.shape.stride candidates) := by
  cases frame : l.damageDetector.referenceFrame with
  | none =>
    rw [FrameDiffDamageDetector.detect_none frame]
    exact full_due data
  | some reference =>
    have held := sound.usable reference frame
    obtain ⟨within, changed⟩ := FrameDiffDamageDetector.detect_holds l.columns_small l.rows_small held long candidates
    refine ⟨within, fun absent => ?_, fun other otherHeld px py visible pending differs => ?_⟩
    · rw [frame] at absent
      cases absent
    · cases Option.some.inj (frame.symm.trans otherHeld.frame)
      exact changed px py visible.1 visible.2 (wide px py visible pending) differs

theorem Sound.reset (sound : l.Sound) : l.reset.Sound where
  fresh _ := rfl
  usable reference frame := by cases frame
  within := sound.within

theorem Sound.settle (sound : l.Sound) : l.settle.Sound where
  fresh := sound.fresh
  usable := sound.usable
  within r member := by cases member

/-- The reference after a delivery: the data inside the regions, what it was elsewhere. -/
theorem compare_holds (long : l.shape.stride * l.shape.height ≤ data.len) (regions : List Region) :
    ∃ updated, (l.compare data regions).Holds updated ∧ ∀ px py, l.Visible px py →
      (Covered regions px py → updated.SamePixel data l.shape.stride px py) ∧
      ∀ before, l.Holds before → ¬ Covered regions px py → updated.SamePixel before l.shape.stride px py := by
  obtain ⟨updated, held, pixels⟩ := FrameDiffDamageDetector.updateReferenceRegions_holds l.columns_small l.rows_small
    l.shape.row_fits long regions (d := l.damageDetector)
  exact ⟨updated, held, fun px py visible => pixels px py visible.1 visible.2⟩

theorem Sound.deliver (long : l.shape.stride * l.shape.height ≤ data.len) (regions : List Region) :
    (l.deliver data regions).Sound := by
  obtain ⟨updated, held, _⟩ := compare_holds long regions
  refine ⟨fun never => (by cases never), fun reference frame => ?_, fun r member => by cases member⟩
  cases Option.some.inj (frame.symm.trans held.frame)
  exact held

theorem Sound.deliverBitmap (long : l.shape.stride * l.shape.height ≤ data.len) : (l.deliverBitmap data).Sound where
  fresh never := by cases never
  usable reference frame := by
    cases frame
    exact FrameDiffDamageDetector.updateReference_holds (d := l.damageDetector) long
  within r member := by cases member

theorem Sound.refuse (sound : l.Sound) : l.refuse.Sound where
  fresh never := by cases never
  usable := sound.usable
  within := sound.within

end Ledger

/-- A frame paints the regions it was delivered with. What an AVC444 frame
paints depends on its encoder, so here only its codec is known. -/
def WireFrame.Carries (wire : WireFrame) (l : Ledger) (codec : Option EgfxFrameCodec) (regions : List Region) : Prop :=
  match wire with
  | .avc444 .. => codec = some .avc444
  | wire => ∀ px py, wire.Paints px py ↔ l.Visible px py ∧ Covered regions px py

/-- All that one call can do to the ledger, with what it hands to the client. -/
inductive Ledger.Settled (data : Bytes) (displayOpen : Bool) (codec : Option EgfxFrameCodec) (l : Ledger) :
    List Event → Ledger → Prop
  | kept : Settled data displayOpen codec l [] l
  | nothing (sent : l.sentFirstFrame = true) (due : l.Due data []) : Settled data displayOpen codec l [] l.settle
  | frame {regions : List Region} {wire : WireFrame} (due : l.Due data regions)
    (carries : wire.Carries l codec regions) : Settled data displayOpen codec l [.frame wire] (l.deliver data regions)
  | bitmap : Settled data displayOpen codec l [.bitmap] (l.deliverBitmap data)
  | refused (closed : displayOpen = false) : Settled data displayOpen codec l [] l.refuse

theorem Ledger.Settled.sound {data : Bytes} {displayOpen : Bool} {codec : Option EgfxFrameCodec} {l t : Ledger}
    {deliveries : List Event} (long : l.shape.stride * l.shape.height ≤ data.len) (sound : l.Sound)
    (run : l.Settled data displayOpen codec deliveries t) : t.Sound := by
  cases run with
  | kept => exact sound
  | nothing => exact sound.settle
  | frame => exact .deliver long _
  | bitmap => exact .deliverBitmap long
  | refused => exact sound.refuse

theorem Ledger.Settled.shape {data : Bytes} {displayOpen : Bool} {codec : Option EgfxFrameCodec} {l t : Ledger}
    {deliveries : List Event} (run : l.Settled data displayOpen codec deliveries t) : t.shape = l.shape := by
  cases run with
  | kept => rfl
  | nothing => rfl
  | frame => rfl
  | bitmap => rfl
  | refused => rfl

namespace FrameProcessor

variable {p : FrameProcessor}

/-- Queued damage joins the pending rectangles, which stay inside the frame. -/
theorem queueDamage_pending (damage : List Region)
    (within : ∀ r ∈ p.pendingDamageRegions, r.Within p.shape.width p.shape.height) :
    (∀ r ∈ (p.queueDamage damage).pendingDamageRegions, r.Within p.shape.width p.shape.height) ∧
    ∀ px py, p.ledger.Visible px py → Covered p.pendingDamageRegions px py ∨ Covered damage px py →
      Covered (p.queueDamage damage).pendingDamageRegions px py := by
  have columns := p.ledger.columns_small
  have rows := p.ledger.rows_small
  unfold queueDamage
  dsimp only
  generalize p.pendingDamageRegions = pending at within
  induction damage generalizing pending with
  | nil => exact ⟨within, fun px py _ covered => covered.resolve_right (Covered.nil px py)⟩
  | cons region rest ih =>
    cases clamp : clampDamageRegion region p.shape.width p.shape.height with
    | none =>
      obtain ⟨inside, covers⟩ := ih pending within
      simp only [List.filterMap_cons, clamp]
      refine ⟨inside, fun px py visible covered => covers px py visible ?_⟩
      rw [Covered.cons] at covered
      rcases covered with old | here | later
      · exact .inl old
      · exact absurd here (clampDamageRegion_none columns rows clamp visible.1 visible.2)
      · exact .inr later
    | some clamped =>
      obtain ⟨one, sameCover⟩ := clampDamageRegion_some columns rows clamp
      obtain ⟨inside, covers⟩ := ih (mergeDamageRegion pending clamped)
        (mergeDamageRegion_within columns rows within one)
      simp only [List.filterMap_cons, clamp, List.foldl_cons]
      refine ⟨inside, fun px py visible covered => covers px py visible ?_⟩
      rw [Covered.cons] at covered
      rcases covered with old | here | later
      · exact .inl (mergeDamageRegion_covered columns rows within one (.inl old))
      · exact .inl (mergeDamageRegion_covered columns rows within one
          (.inr ((sameCover px py visible.1 visible.2).mpr here)))
      · exact .inr later

end FrameProcessor

end HyprRdp
