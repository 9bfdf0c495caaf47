import HyprRdp.Capture.Calls
import HyprRdp.Lib.Runs

namespace HyprRdp

/-- A damage list that names every pixel in which the frame differs from the one captured before. -/
def DamageCovers (shape : FrameShape) (damage : List Region) (frame : Bytes) : Option Bytes → Prop
  | none => True
  | some before => ∀ px < shape.width, ∀ py < shape.height,
      ¬ frame.SamePixel before shape.stride px py → Covered damage px py

instance (shape : FrameShape) (damage : List Region) (frame : Bytes) (before : Option Bytes) :
    Decidable (DamageCovers shape damage frame before) :=
  match before with
  | none => isTrue trivial
  | some before => inferInstanceAs (Decidable (∀ px < shape.width, ∀ py < shape.height,
      ¬ frame.SamePixel before shape.stride px py → Covered damage px py))

/-- The picture of the client after a delivery of the frame's data. -/
def Event.display (data : Bytes) (stride : Nat) (client : Bytes) : Event → Bytes
  | .frame wire => client.paint data stride wire.Paints
  | .bitmap => data
  | .requested | .resize _ _ | .surface _ _ => client

/-- A processor at work, with the last captured frame, the picture of its
client, and whether every call so far found the display channel open. -/
structure Session where
  processor : FrameProcessor
  fullFrameRequested : Bool
  captured : Option Bytes
  client : Bytes
  displayOpen : Bool

namespace Session

inductive Input
  | capture (frame : Bytes) (damage : List Region)
  | requestFullFrame
  | initialResize (size : Option (Nat × Nat))
  | process (env : Environment)

def start (processor : FrameProcessor) (client : Bytes) : Session := ⟨processor, false, none, client, true⟩

def next (s : Session) : Input → Option Session
  | .capture frame damage =>
    if s.processor.shape.stride * s.processor.shape.height ≤ frame.len ∧
        DamageCovers s.processor.shape damage frame s.captured then
      some { s with processor := s.processor.queueDamage damage, captured := some frame }
    else none
  | .requestFullFrame => some { s with fullFrameRequested := true }
  | .initialResize size => some { s with processor := { s.processor with pendingInitialResize := size } }
  | .process env =>
    match s.captured with
    | none => none
    | some data =>
      if env.avc444Enabled then none
      else
        let call := (Call.processAt ⟨s.processor, s.fullFrameRequested, []⟩ env data).1
        some
          { processor := call.processor
            fullFrameRequested := call.fullFrameRequested
            captured := s.captured
            client := call.deliveries.foldl (Event.display data s.processor.shape.stride) s.client
            displayOpen := s.displayOpen && env.bitmapAccepted }

end Session

/-- The runs of a session from its first state. -/
def Session.runs (first : Session) : StepSystem Session Session.Input := .ofFun first Session.next

namespace Ledger

variable {l t : Ledger} {captured data client : Bytes} {deliveries : List Event} {codec : Option EgfxFrameCodec}
  {displayOpen : Bool}

/-- Where the frame differs from the reference, the difference is pending. -/
def Tracks (l : Ledger) (captured : Bytes) : Prop :=
  ∀ reference, l.Holds reference → ∀ px py, l.Visible px py →
    ¬ captured.SamePixel reference l.shape.stride px py → Covered l.pendingDamageRegions px py

/-- The reference is the picture of the client. -/
def Mirrors (l : Ledger) (client : Bytes) : Prop :=
  ∀ reference, l.Holds reference → ∀ px py, l.Visible px py → reference.SamePixel client l.shape.stride px py

theorem not_holds (absent : l.damageDetector.referenceFrame = none) (reference : Bytes) : ¬ l.Holds reference := by
  intro held
  have frame := held.frame
  rw [absent] at frame
  cases frame

theorem Holds.unique {reference other : Bytes} (held : l.Holds reference) (same : l.Holds other) : reference = other :=
  Option.some.inj (held.frame.symm.trans same.frame)

theorem reset_tracks (l : Ledger) (captured : Bytes) : l.reset.Tracks captured :=
  fun reference held => absurd held (not_holds rfl reference)

theorem reset_mirrors (l : Ledger) (client : Bytes) : l.reset.Mirrors client :=
  fun reference held => absurd held (not_holds rfl reference)

/-- After a delivery of what is due nothing differs from the reference. -/
theorem Due.delivered {regions : List Region} (due : l.Due data regions)
    (long : l.shape.stride * l.shape.height ≤ data.len) (sound : l.Sound) (tracks : l.Tracks data) :
    (l.deliver data regions).Tracks data := by
  obtain ⟨updated, held, pixels⟩ := compare_holds long regions
  intro reference held' px py visible differs
  cases Holds.unique (l := l.compare data regions) held held'
  obtain ⟨set, kept⟩ := pixels px py visible
  by_cases covered : Covered regions px py
  · exact absurd (set covered).symm differs
  cases frame : l.damageDetector.referenceFrame with
  | none => exact absurd (due.whole frame px py visible) covered
  | some before =>
    have usable := sound.usable before frame
    have differed : ¬ data.SamePixel before l.shape.stride px py :=
      fun same => differs (same.trans (kept before usable covered).symm)
    have pending := tracks before usable px py visible differed
    exact absurd (due.changed before usable px py visible pending differed) covered

/-- A settlement leaves the frame it was made for in step with the reference. -/
theorem Settled.tracks (long : l.shape.stride * l.shape.height ≤ data.len) (sound : l.Sound) (tracks : l.Tracks data)
    (run : l.Settled data displayOpen codec deliveries t) : t.Tracks data := by
  cases run with
  | kept => exact tracks
  | refused => exact tracks
  | nothing _ due =>
    intro reference held px py visible differs
    have pending := tracks reference held px py visible differs
    exact absurd (due.changed reference held px py visible pending differs) (Covered.nil px py)
  | bitmap =>
    intro reference held px py visible differs
    cases held.frame
    exact absurd (Bytes.SamePixel.refl data _ px py) differs
  | frame due => exact due.delivered long sound tracks

/-- A settlement changes the reference and the picture of the client alike. -/
theorem Settled.mirrors (long : l.shape.stride * l.shape.height ≤ data.len) (sound : l.Sound) (mirrors : l.Mirrors client)
    (plain : codec ≠ some .avc444) (run : l.Settled data displayOpen codec deliveries t) :
    t.Mirrors (deliveries.foldl (Event.display data l.shape.stride) client) := by
  cases run with
  | kept => exact mirrors
  | refused => exact mirrors
  | nothing => exact mirrors
  | bitmap =>
    intro reference held px py _
    cases held.frame
    exact .refl data _ px py
  | @frame regions wire due carries =>
    obtain ⟨updated, held, pixels⟩ := compare_holds long regions
    intro reference held' px py visible
    cases Holds.unique (l := l.compare data regions) held held'
    obtain ⟨set, kept⟩ := pixels px py visible
    have paints : wire.Paints px py ↔ Covered regions px py := by
      cases wire with
      | avc444 => exact absurd carries plain
      | avc420 => exact (carries px py).trans (and_iff_right visible)
      | clearcodec => exact (carries px py).trans (and_iff_right visible)
    show updated.SamePixel (client.paint data l.shape.stride wire.Paints) l.shape.stride px py
    by_cases covered : Covered regions px py
    · exact (set covered).trans (Bytes.paint_inside visible.pixel (paints.mpr covered)).symm
    · have outside : ¬ wire.Paints px py := fun painted => covered (paints.mp painted)
      cases frame : l.damageDetector.referenceFrame with
      | none => exact absurd (due.whole frame px py visible) covered
      | some before =>
        have usable := sound.usable before frame
        have old := (kept before usable covered).trans (mirrors before usable px py visible)
        exact old.trans (Bytes.paint_outside visible.pixel outside).symm

/-- With an open display channel something was sent only if there is a reference. -/
theorem Settled.referenced (opened : displayOpen = true)
    (referenced : l.sentFirstFrame = true → l.damageDetector.referenceFrame ≠ none)
    (long : l.shape.stride * l.shape.height ≤ data.len) (run : l.Settled data displayOpen codec deliveries t) :
    t.sentFirstFrame = true → t.damageDetector.referenceFrame ≠ none := by
  cases run with
  | kept => exact referenced
  | nothing => exact referenced
  | refused closed => rw [opened] at closed; cases closed
  | bitmap => exact fun _ absent => by cases absent
  | @frame regions =>
    obtain ⟨updated, held, _⟩ := compare_holds long regions
    exact fun _ absent => absurd (held.frame.symm.trans absent) (by simp)

end Ledger

theorem FrameProcessor.Refreshed.tracks {p q : FrameProcessor} {env : Environment} {data : Bytes}
    (refreshed : p.Refreshed env q) (tracks : p.ledger.Tracks data) : q.ledger.Tracks data := by
  rcases refreshed.ledger with kept | reset
  · exact kept ▸ tracks
  · exact reset ▸ Ledger.reset_tracks _ _

/-- Announced damage keeps the captured frame in step with the reference. -/
theorem FrameProcessor.queueDamage_tracks {p : FrameProcessor} {damage : List Region} {frame : Bytes}
    {captured : Option Bytes} (sound : p.ledger.Sound) (tracks : ∀ old, captured = some old → p.ledger.Tracks old)
    (unread : captured = none → p.damageDetector.referenceFrame = none)
    (announced : DamageCovers p.shape damage frame captured) :
    (∀ r ∈ (p.queueDamage damage).pendingDamageRegions, r.Within p.shape.width p.shape.height) ∧
    (p.queueDamage damage).ledger.Tracks frame := by
  obtain ⟨within, covers⟩ := queueDamage_pending damage sound.within
  refine ⟨within, fun reference held px py visible differs => covers px py visible ?_⟩
  cases before : captured with
  | none => exact absurd held (Ledger.not_holds (unread before) reference)
  | some old =>
    rw [before] at announced
    by_cases moved : frame.SamePixel old p.shape.stride px py
    · have differed : ¬ old.SamePixel reference p.shape.stride px py := fun same => differs (moved.trans same)
      exact .inl (tracks old before reference held px py visible differed)
    · exact .inr (announced px visible.1 py visible.2 moved)

namespace Session

variable {s t : Session} {frame data client : Bytes}

structure Invariant (s : Session) : Prop where
  sound : s.processor.ledger.Sound
  mirrors : s.processor.ledger.Mirrors s.client
  tracks : ∀ frame, s.captured = some frame →
    s.processor.shape.stride * s.processor.shape.height ≤ frame.len ∧ s.processor.ledger.Tracks frame
  unread : s.captured = none → s.processor.damageDetector.referenceFrame = none
  plain : s.processor.egfxCodec ≠ some .avc444
  referenced : s.displayOpen = true → s.processor.sentFirstFrame = true →
    s.processor.damageDetector.referenceFrame ≠ none

theorem Invariant.capture (inv : s.Invariant) {damage : List Region}
    (long : s.processor.shape.stride * s.processor.shape.height ≤ frame.len)
    (announced : DamageCovers s.processor.shape damage frame s.captured) :
    ({ s with processor := s.processor.queueDamage damage, captured := some frame } : Session).Invariant := by
  obtain ⟨within, tracks⟩ := FrameProcessor.queueDamage_tracks inv.sound (fun old before => (inv.tracks old before).2)
    inv.unread announced
  refine ⟨⟨inv.sound.fresh, inv.sound.usable, within⟩, inv.mirrors, ?_, nofun, inv.plain, inv.referenced⟩
  intro same captured
  cases captured
  exact ⟨long, tracks⟩

theorem Invariant.process (inv : s.Invariant) (captured : s.captured = some data) {env : Environment}
    (disabled : env.avc444Enabled = false) (requested : Bool) {call : Call}
    (settles : (Call.mk s.processor s.fullFrameRequested []).Settles env data call) :
    (Session.mk call.processor requested s.captured
      (call.deliveries.foldl (Event.display data s.processor.shape.stride) s.client)
      (s.displayOpen && env.bitmapAccepted)).Invariant := by
  obtain ⟨p, refreshed, codec, deliveries, settled, same⟩ := settles.run
  obtain ⟨long, tracks⟩ := inv.tracks data captured
  have shape : p.ledger.shape = s.processor.shape := by
    rcases refreshed.ledger with kept | reset
    · exact congrArg Ledger.shape kept
    · exact congrArg Ledger.shape reset
  have plain : call.processor.egfxCodec ≠ some .avc444 := by
    intro chosen
    rcases refreshed.codec (codec.trans chosen) with before | enabled
    · exact inv.plain before
    · rw [disabled] at enabled
      cases enabled
  -- What holds of the ledger at the start of the call also holds after its checks.
  obtain ⟨sound, mirrors, tracks, referenced⟩ : p.ledger.Sound ∧ p.ledger.Mirrors s.client ∧ p.ledger.Tracks data ∧
      (s.displayOpen = true → p.sentFirstFrame = true → p.damageDetector.referenceFrame ≠ none) := by
    rcases refreshed.ledger with kept | reset
    · have sent : p.sentFirstFrame = s.processor.sentFirstFrame := congrArg Ledger.sentFirstFrame kept
      have detector : p.damageDetector = s.processor.damageDetector := congrArg Ledger.damageDetector kept
      rw [kept, sent, detector]
      exact ⟨inv.sound, inv.mirrors, tracks, inv.referenced⟩
    · have sent : p.sentFirstFrame = false := congrArg Ledger.sentFirstFrame reset
      rw [reset, sent]
      exact ⟨inv.sound.reset, Ledger.reset_mirrors _ _, Ledger.reset_tracks _ _, nofun⟩
  have longNow : p.ledger.shape.stride * p.ledger.shape.height ≤ data.len := by rw [shape]; exact long
  have kept : call.processor.ledger.shape = p.ledger.shape := settled.shape
  refine ⟨settled.sound longNow sound, ?_, ?_, ?_, plain, ?_⟩
  · have mirrored := settled.mirrors longNow sound mirrors plain
    rw [same, ← show p.ledger.shape.stride = s.processor.shape.stride from congrArg FrameShape.stride shape]
    exact mirrored
  · intro frame isFrame
    cases captured.symm.trans isFrame
    refine ⟨?_, settled.tracks longNow sound tracks⟩
    rw [show call.processor.shape = s.processor.shape from kept.trans shape]
    exact long
  · intro none
    rw [captured] at none
    cases none
  · intro opened
    obtain ⟨before, now⟩ := (Bool.and_eq_true _ _).mp opened
    exact settled.referenced now (referenced before) longNow

theorem Invariant.next (inv : s.Invariant) {input : Input} (step : s.next input = some t) : t.Invariant := by
  cases input with
  | capture frame damage =>
    obtain ⟨⟨long, announced⟩, same⟩ := Option.ite_none_right_eq_some.mp step
    cases same
    exact inv.capture long announced
  | requestFullFrame =>
    cases step
    exact ⟨inv.sound, inv.mirrors, inv.tracks, inv.unread, inv.plain, inv.referenced⟩
  | initialResize size =>
    cases step
    exact ⟨inv.sound, inv.mirrors, inv.tracks, inv.unread, inv.plain, inv.referenced⟩
  | process env =>
    unfold Session.next at step
    dsimp only at step
    cases captured : s.captured with
    | none =>
      rw [captured] at step
      cases step
    | some data =>
      rw [captured] at step
      obtain ⟨disabled, same⟩ := Option.ite_none_left_eq_some.mp step
      cases same
      have long := (inv.tracks data captured).1
      have settles := Call.processAt_settles (c := ⟨s.processor, s.fullFrameRequested, []⟩) env inv.sound long
      rw [← captured]
      exact inv.process captured (Bool.eq_false_iff.mpr disabled) _ settles

theorem start_invariant (shape : FrameShape) (egfxShared : Bool) (pixelFormat : PixelFormat) (quality : Nat)
    (rateControl : H264RateControl) (h264Backend : H264BackendPolicy) (client : Bytes) :
    (start (.new shape egfxShared pixelFormat quality rateControl h264Backend) client).Invariant where
  sound := ⟨fun _ => rfl, nofun, nofun⟩
  mirrors reference held := absurd held (Ledger.not_holds rfl reference)
  tracks := nofun
  unread _ := rfl
  plain := nofun
  referenced := nofun

/-- The reference is the picture of the client, and what the captured frame
adds to it is pending. -/
structure UpToDate (s : Session) : Prop where
  reference : ∃ reference, s.processor.ledger.Holds reference ∧ ∀ px py, s.processor.ledger.Visible px py →
    reference.SamePixel s.client s.processor.shape.stride px py
  pending : ∀ frame, s.captured = some frame → ∀ px py, s.processor.ledger.Visible px py →
    ¬ frame.SamePixel s.client s.processor.shape.stride px py → Covered s.processor.pendingDamageRegions px py

/-- No update is lost once the first frame was sent; the exception is a bitmap
that found the display channel closed and left no reference behind. -/
theorem no_lost_update {shape : FrameShape} {egfxShared : Bool} {pixelFormat : PixelFormat} {quality : Nat}
    {rateControl : H264RateControl} {h264Backend : H264BackendPolicy}
    (reach : (runs (start (.new shape egfxShared pixelFormat quality rateControl h264Backend) client)).Reach s)
    (sent : s.processor.sentFirstFrame = true)
    (usable : s.displayOpen = true ∨ s.processor.damageDetector.referenceFrame ≠ none) : s.UpToDate := by
  have inv : s.Invariant := by
    refine StepSystem.Inductive.reach ⟨fun s first => ?_, fun s input t inv step => inv.next step⟩ reach
    exact first ▸ start_invariant shape egfxShared pixelFormat quality rateControl h264Backend client
  have present : s.processor.damageDetector.referenceFrame ≠ none := by
    rcases usable with opened | present
    · exact inv.referenced opened sent
    · exact present
  obtain ⟨reference, frame⟩ := Option.ne_none_iff_exists'.mp present
  have held := inv.sound.usable reference frame
  refine ⟨⟨reference, held, inv.mirrors reference held⟩, fun captured isCaptured px py visible differs => ?_⟩
  have differed : ¬ captured.SamePixel reference s.processor.shape.stride px py :=
    fun same => differs (same.trans (inv.mirrors reference held px py visible))
  exact (inv.tracks captured isCaptured).2 reference held px py visible differed

theorem no_lost_update_avc420 : ∃ s : Session,
    (runs (start (.new FrameShape.onePixel true .bgrX32 23 .vbr .auto) (.zeros 4))).Reach s ∧
    s.processor.sentFirstFrame = true ∧ s.UpToDate := by
  have run : (runs (start (.new FrameShape.onePixel true .bgrX32 23 .vbr .auto) (.zeros 4))).Reach _ :=
    StepSystem.exec_reach
      [.capture ⟨4, fun _ => 1⟩ [⟨0, 0, 1, 1⟩], .process { Environment.avc420 with generation := 1 },
        .capture ⟨4, fun _ => 2⟩ [⟨0, 0, 1, 1⟩]] (.start rfl) rfl
  exact ⟨_, run, rfl, no_lost_update run rfl (.inl rfl)⟩

/-- A bitmap that finds the display channel closed counts as the first frame,
although nothing was sent and there is no reference. -/
theorem refused_bitmap_counts_as_sent : ∃ s : Session,
    (runs (start (.new FrameShape.onePixel false .bgrX32 23 .vbr .auto) (.zeros 4))).Reach s ∧
    s.processor.sentFirstFrame = true ∧ ¬ s.UpToDate := by
  have run : (runs (start (.new FrameShape.onePixel false .bgrX32 23 .vbr .auto) (.zeros 4))).Reach _ :=
    StepSystem.exec_reach
      [.capture ⟨4, fun _ => 1⟩ [], .process { Environment.idle with bitmapAccepted := false }] (.start rfl) rfl
  refine ⟨_, run, rfl, fun upToDate => ?_⟩
  obtain ⟨reference, held, _⟩ := upToDate.reference
  cases held.frame

end Session

end HyprRdp
