import HyprRdp.Capture.Display
import HyprRdp.Display.PixelExact

namespace HyprRdp

/-- What a client asks for a size with. -/
inductive SizeRequest
  | initial (client : DesktopSize)
  | layout (monitors : List MonitorLayoutEntry)
  deriving DecidableEq, Repr

namespace SizeRequest

/-- The decision that `request_initial_size_with` and `request_layout_with` start
from; the former clamps what its client asks for. -/
def decision (arith : Rounding) (inner : HyprDisplayInner) (source : Option (Nat × Nat)) :
    SizeRequest → Option ResizeDecision
  | initial client =>
    initialSizeResizeDecision arith inner.output.isSome inner.resolutionFixed inner.resolution
      (clampToH264SoftwareLimits arith client.width client.height) source
  | layout monitors =>
    displayControlResizeDecision arith monitors inner.output.isSome inner.resolutionFixed inner.resolution source

def AsksFor (size : Nat × Nat) : SizeRequest → Prop
  | initial client => (client.width, client.height) = size
  | layout monitors => headlessDisplayControlSize monitors = some size

end SizeRequest

theorem resizeTo_size {physicalOutput : Bool} {current size : Nat × Nat} {d : ResizeDecision}
    (decided : resizeTo physicalOutput current size = some d) :
    d.size = size ∧ size.1 ≠ 0 ∧ size.2 ≠ 0 := by
  obtain ⟨proper, same⟩ := Option.ite_none_left_eq_some.mp decided
  cases same
  exact ⟨rfl, fun zero => proper (.inl zero), fun zero => proper (.inr (.inl zero))⟩

@[simp] theorem resizeTo_current (physicalOutput : Bool) (size : Nat × Nat) :
    resizeTo physicalOutput size size = none := if_pos (.inr (.inr rfl))

/-- A size that an output of this kind keeps when it is asked for it. -/
structure SettledSize (physicalOutput : Bool) (source : Option (Nat × Nat)) (size : Nat × Nat) : Prop where
  encodable : EncodableSize size
  normal : physicalOutput = true → ∀ shown, source = some shown →
    normalizePresentationSize Rounding.exact size shown = size

theorem clamp_settledSize {width height : Nat} {source : Option (Nat × Nat)}
    (some : (clampToH264SoftwareLimits Rounding.exact width height).1 ≠ 0 ∧
      (clampToH264SoftwareLimits Rounding.exact width height).2 ≠ 0) :
    SettledSize false source (clampToH264SoftwareLimits Rounding.exact width height) := by
  obtain ⟨width_ge, height_ge⟩ := clamp_some some
  exact ⟨clamp_encodable width_ge height_ge, fun physical => absurd physical Bool.false_ne_true⟩

theorem normalize_settledSize {requested shown : Nat × Nat}
    (some : (normalizePresentationSize Rounding.exact requested shown).1 ≠ 0 ∧
      (normalizePresentationSize Rounding.exact requested shown).2 ≠ 0) :
    SettledSize true (.some shown) (normalizePresentationSize Rounding.exact requested shown) := by
  refine ⟨(normalize_encodable some).2.1, fun _ other same => ?_⟩
  cases same
  exact normalize_idempotent some

namespace SizeRequest

variable {inner : HyprDisplayInner} {source : Option (Nat × Nat)} {request : SizeRequest}

/-- Every decision is for a size that the output keeps. -/
theorem decision_settledSize {d : ResizeDecision} (decided : request.decision Rounding.exact inner source = some d) :
    SettledSize inner.output.isSome source d.size := by
  cases request with
  | initial client =>
    obtain ⟨_, decided⟩ := Option.ite_none_left_eq_some.mp decided
    split at decided
    · rename_i physical
      obtain ⟨shown, known, decided⟩ := Option.bind_eq_some_iff.mp decided
      obtain ⟨same, some⟩ := resizeTo_size decided
      rw [physical, known, same]
      exact normalize_settledSize some
    · rename_i managed
      obtain ⟨same, some⟩ := resizeTo_size decided
      rw [Bool.eq_false_of_not_eq_true managed, same]
      exact clamp_settledSize some
  | layout monitors =>
    obtain ⟨_, decided⟩ := Option.ite_none_left_eq_some.mp decided
    split at decided
    · rename_i physical
      obtain ⟨_, _, decided⟩ := Option.bind_eq_some_iff.mp decided
      obtain ⟨shown, known, decided⟩ := Option.bind_eq_some_iff.mp decided
      obtain ⟨same, some⟩ := resizeTo_size decided
      rw [physical, known, same]
      exact normalize_settledSize some
    · rename_i managed
      obtain ⟨_, _, decided⟩ := Option.bind_eq_some_iff.mp decided
      obtain ⟨same, some⟩ := resizeTo_size decided
      rw [Bool.eq_false_of_not_eq_true managed, same]
      exact clamp_settledSize some

/-- The layouts that a physical output takes ask for the size of their one monitor. -/
theorem physical_headless {monitors : List MonitorLayoutEntry} {size : Nat × Nat}
    (taken : physicalDisplayControlSize monitors = some size) : headlessDisplayControlSize monitors = some size := by
  rcases monitors with _ | ⟨monitor, _ | ⟨second, rest⟩⟩
  · simp [physicalDisplayControlSize] at taken
  · unfold physicalDisplayControlSize at taken
    obtain ⟨_, taken⟩ := Option.ite_none_left_eq_some.mp taken
    obtain ⟨_, taken⟩ := Option.ite_none_left_eq_some.mp taken
    obtain ⟨_, taken⟩ := Option.ite_none_left_eq_some.mp taken
    unfold headlessDisplayControlSize
    cases primary : monitor.isPrimary <;> simpa [primary] using taken
  · simp [physicalDisplayControlSize] at taken

/-- An output whose size is settled stays as it is when it is asked for that size. -/
theorem decision_none {size : Nat × Nat} (settled : SettledSize inner.output.isSome source size)
    (applied : inner.resolution = size) (asks : request.AsksFor size) :
    request.decision Rounding.exact inner source = none := by
  obtain ⟨encodable, normal⟩ := settled
  have clamped := @clamp_of_encodable Rounding.exact _ encodable
  cases request with
  | initial client =>
    have asked : (client.width, client.height) = size := asks
    rw [← asked] at clamped
    unfold decision initialSizeResizeDecision
    dsimp only at clamped ⊢
    rw [clamped, asked, applied]
    split
    · rfl
    split
    · rename_i physical
      cases source with
      | none => rfl
      | some shown =>
        rw [Option.bind_some, normal physical shown rfl, resizeTo_current]
    · exact resizeTo_current _ _
  | layout monitors =>
    have asked : headlessDisplayControlSize monitors = some size := asks
    unfold decision displayControlResizeDecision
    dsimp only
    rw [applied]
    split
    · rfl
    split
    · rename_i physical
      cases taken : physicalDisplayControlSize monitors with
      | none => rfl
      | some taking =>
        have same : taking = size := Option.some.inj ((physical_headless taken).symm.trans asked)
        cases source with
        | none => rfl
        | some shown =>
          rw [Option.bind_some, Option.bind_some, same, normal physical shown rfl, resizeTo_current]
    · rw [asked, Option.bind_some, clamped, resizeTo_current]

end SizeRequest

/-- The presentation sizes: what a request is normalized to, when that shows the
source pixel for pixel, and that a client which answers a resize with a request
for the new size is not answered with another resize. -/
theorem presentation_sizing (requested source : Nat × Nat) (width : requested.1 < 2 ^ 32)
    (height : requested.2 < 2 ^ 32) :
    let size := normalizePresentationSize Rounding.exact requested source
    (size = (0, 0) ↔ Degenerate requested source) ∧
      (¬ Degenerate requested source → EncodableSize size ∧ size.1 ≤ requested.1 ∧ size.2 ≤ requested.2) ∧
      normalizePresentationSize Rounding.exact size source = size ∧
      (EncodableSize source → source.1 < evened requested.1 → source.2 < evened requested.2 →
        FitsLimits (fittedSize requested source) →
        (¬ RoundsBelow requested source → CoversSource source size ∧
          ∀ shown presentation : Size, (shown.width, shown.height) = source →
            (presentation.width, presentation.height) = size →
            (PresentationGeometry.new shown presentation).visible.width = shown.width ∧
              (PresentationGeometry.new shown presentation).visible.height = shown.height) ∧
        (RoundsBelow requested source → size = (source.1 - 2, source.2))) ∧
      ∀ (inner : HyprDisplayInner) (output output' : Option (Nat × Nat)) (request answer : SizeRequest)
        (d : ResizeDecision), request.decision Rounding.exact inner output = some d →
        (inner.output.isSome → output' = output) → answer.AsksFor d.size →
        let applied := inner.applyPresentationState d.size
        answer.decision Rounding.exact applied output' = none ∧
          applied.reconcileResizeDecision (answer.decision Rounding.exact applied output') = none := by
  intro size
  refine ⟨⟨?_, normalize_degenerate⟩, ?_, ?_, ?_, ?_⟩
  · intro nothing
    by_contra proper
    exact (normalize_some proper width height).1 (congrArg Prod.fst nothing)
  · intro proper
    obtain ⟨_, encodable, fitted⟩ := normalize_encodable (normalize_some proper width height)
    exact ⟨encodable, fitted.width_le.trans (evened_le _), fitted.height_le.trans (evened_le _)⟩
  · by_cases degenerate : Degenerate requested source
    · have nothing : size = (0, 0) := normalize_degenerate degenerate
      rw [nothing]
      exact normalize_degenerate (.inl (by decide))
    · exact normalize_idempotent (normalize_some degenerate width height)
  · intro encodable wider higher limits
    obtain ⟨covered, rounded⟩ := @normalize_covers Rounding.exact _ _ encodable width height wider higher limits
    refine ⟨fun above => ⟨covered above, fun shown presentation isSource isSize => ?_⟩, rounded⟩
    have covers : CoversSource (shown.width, shown.height) (presentation.width, presentation.height) := by
      rw [isSource, isSize]
      exact covered above
    exact covers_unscaled covers
  · intro inner output output' request answer d decided same asks
    have settled := SizeRequest.decision_settledSize decided
    have kept : SettledSize inner.output.isSome output' d.size :=
      ⟨settled.encodable, fun physical shown known => settled.normal physical shown (same physical ▸ known)⟩
    have none : answer.decision Rounding.exact (inner.applyPresentationState d.size) output' = none :=
      SizeRequest.decision_none kept rfl asks
    refine ⟨none, ?_⟩
    rw [none]
    unfold HyprDisplayInner.reconcileResizeDecision
    exact if_neg fun unconfirmed => absurd unconfirmed.2 Bool.false_ne_true

theorem presentation_sizing_hidpi :
    CoversSource (1920, 1080) (normalizePresentationSize Rounding.exact (2560, 1440) (1920, 1080)) ∧
      (SizeRequest.initial ⟨1920, 1080⟩).decision Rounding.exact
        ((⟨1280, 720, (1280, 720), none, true, none, false, none, false, false, none⟩ :
          HyprDisplayInner).applyPresentationState (1920, 1080)) none = none := by
  obtain ⟨_, _, _, covers, converges⟩ := presentation_sizing (2560, 1440) (1920, 1080) (by decide) (by decide)
  have encodable : EncodableSize (1920, 1080) :=
    ⟨by decide, by decide, by decide, by decide, by decide, by decide⟩
  refine ⟨((covers encodable (by decide) (by decide) ⟨by decide, by decide⟩).1 (by decide)).1, ?_⟩
  have asked : (SizeRequest.layout [⟨true, (1920, 1080), none, none⟩]).decision Rounding.exact
      ⟨1280, 720, (1280, 720), none, true, none, false, none, false, false, none⟩ none =
      some ⟨.managedHeadlessOutput, 1920, 1080⟩ := by
    have clamped := @clamp_of_encodable Rounding.exact _ encodable
    unfold SizeRequest.decision displayControlResizeDecision
    simp [headlessDisplayControlSize, clamped, resizeTo]
  exact (converges _ none none _ (.initial ⟨1920, 1080⟩) _ asked (fun _ => rfl) rfl).1

/-- A laptop panel whose width is not a multiple of four: a request just beyond
it is fitted two pixels below it. -/
theorem panel_not_covered :
    ¬ ∀ requested source : Nat × Nat, requested.1 < 2 ^ 32 → requested.2 < 2 ^ 32 → source.1 < 2 ^ 32 →
      source.2 < 2 ^ 32 → EncodableSize source → source.1 < evened requested.1 → source.2 < evened requested.2 →
      FitsLimits (fittedSize requested source) →
      CoversSource source (normalizePresentationSize Rounding.exact requested source) := by
  intro always
  have encodable : EncodableSize (1366, 768) :=
    ⟨by decide, by decide, by decide, by decide, by decide, by decide⟩
  have limits : FitsLimits (fittedSize (1370, 770) (1366, 768)) := ⟨by decide, by decide⟩
  have covers := always (1370, 770) (1366, 768) (by decide) (by decide) (by decide) (by decide) encodable (by decide)
    (by decide) limits
  have rounded := (@normalize_covers Rounding.exact (1370, 770) (1366, 768) encodable (by decide) (by decide)
    (by decide) (by decide) limits).2 (by decide)
  rw [rounded] at covers
  exact absurd covers.width_ge (by decide)

end HyprRdp
