import HyprRdp.Lib.Rounding
import Mathlib.Tactic.GCongr
import Mathlib.Tactic.NormNum

namespace HyprRdp

def h264SoftwareMaxLongDimension : Nat := 3840

def h264SoftwareMaxShortDimension : Nat := 2160

def displaycontrolMaxPresentationArea : Nat := 3840 * 2400

/-- The even number at or below: `& !1`. -/
def evened (extent : Nat) : Nat := extent / 2 * 2

section Clamp

variable (arith : Rounding)

/-- The factor that brings a size within the encoder's limits, as the arithmetic rounds it. -/
def clampScale (long short : Nat) : ℚ :=
  let scaleByLong := arith.round ((h264SoftwareMaxLongDimension : ℚ) / long)
  let scaleByShort := arith.round ((h264SoftwareMaxShortDimension : ℚ) / short)
  min (min scaleByLong scaleByShort) 1

def scaledExtent (scale : ℚ) (extent : Nat) : Nat := evened (max ⌊arith.round (extent * scale)⌋₊ 2)

def clampToH264SoftwareLimits (width height : Nat) : Nat × Nat :=
  let width := evened width
  let height := evened height
  if width = 0 ∨ height = 0 then (width, height)
  else
    let long := max width height
    let short := min width height
    if long ≤ h264SoftwareMaxLongDimension ∧ short ≤ h264SoftwareMaxShortDimension then (width, height)
    else
      let scale := clampScale arith long short
      (scaledExtent arith scale width, scaledExtent arith scale height)

/-- Automatic requests are fitted to the source without changing their aspect ratio. -/
def normalizePresentationSize (requested source : Nat × Nat) : Nat × Nat :=
  let width := evened requested.1
  let height := evened requested.2
  if width = 0 ∨ height = 0 ∨ source.1 = 0 ∨ source.2 = 0 then (0, 0)
  else
    let fitW := evened (max source.1 2)
    let fitH := evened (max source.2 2)
    let fitted :=
      if width ≤ fitW ∨ height ≤ fitH then (width, height)
      else if width * fitH ≤ height * fitW then (fitW, height * fitW / width)
      else
        let padded := width * fitH / height
        (if 4 ≤ padded then padded / 4 * 4 else evened padded, fitH)
    clampToH264SoftwareLimits arith (fitted.1 % 2 ^ 32) (fitted.2 % 2 ^ 32)

def startupPresentationSize (physicalOutput resolutionFixed : Bool) (configuredResolution source : Nat × Nat) :
    Nat × Nat :=
  let requested := if physicalOutput && !resolutionFixed then source else configuredResolution
  if !physicalOutput then requested
  else if resolutionFixed then clampToH264SoftwareLimits arith requested.1 requested.2
  else normalizePresentationSize arith requested source

inductive ResizeTarget
  | managedHeadlessOutput | physicalPresentation
  deriving DecidableEq, Repr

structure ResizeDecision where
  target : ResizeTarget
  width : Nat
  height : Nat
  deriving DecidableEq, Repr

def ResizeDecision.size (d : ResizeDecision) : Nat × Nat := (d.width, d.height)

inductive MonitorOrientation
  | landscape | portrait | landscapeFlipped | portraitFlipped
  deriving DecidableEq, Repr

/-- An entry of a client's monitor layout. -/
structure MonitorLayoutEntry where
  isPrimary : Bool
  dimensions : Nat × Nat
  position : Option (Int × Int)
  orientation : Option MonitorOrientation
  deriving DecidableEq, Repr

/-- The size of the primary monitor, or of the first one. -/
def headlessDisplayControlSize (layout : List MonitorLayoutEntry) : Option (Nat × Nat) :=
  ((layout.find? (·.isPrimary)).or layout.head?).map (·.dimensions)

def physicalDisplayControlSize : List MonitorLayoutEntry → Option (Nat × Nat)
  | [monitor] =>
    if !monitor.isPrimary || monitor.position ≠ some (0, 0) then none
    else if monitor.orientation ∈ [some .portrait, some .landscapeFlipped, some .portraitFlipped] then none
    else if displaycontrolMaxPresentationArea < monitor.dimensions.1 * monitor.dimensions.2 then none
    else some monitor.dimensions
  | _ => none

/-- What is left to decide once the size is known. -/
def resizeTo (physicalOutput : Bool) (current size : Nat × Nat) : Option ResizeDecision :=
  if size.1 = 0 ∨ size.2 = 0 ∨ size = current then none
  else some ⟨if physicalOutput then .physicalPresentation else .managedHeadlessOutput, size.1, size.2⟩

def initialSizeResizeDecision (physicalOutput resolutionFixed : Bool) (current requested : Nat × Nat)
    (source : Option (Nat × Nat)) : Option ResizeDecision :=
  if resolutionFixed then none
  else if physicalOutput then
    source.bind fun source => resizeTo physicalOutput current (normalizePresentationSize arith requested source)
  else resizeTo physicalOutput current requested

def displayControlResizeDecision (layout : List MonitorLayoutEntry) (physicalOutput resolutionFixed : Bool)
    (current : Nat × Nat) (source : Option (Nat × Nat)) : Option ResizeDecision :=
  if resolutionFixed then none
  else if physicalOutput then
    (physicalDisplayControlSize layout).bind fun requested =>
      source.bind fun source => resizeTo physicalOutput current (normalizePresentationSize arith requested source)
  else
    (headlessDisplayControlSize layout).bind fun requested =>
      resizeTo physicalOutput current (clampToH264SoftwareLimits arith requested.1 requested.2)

end Clamp

/-- A size that the encoder takes; its extents are also well within `u16`. -/
structure FitsEncoder (size : Nat × Nat) : Prop where
  width_pos : 0 < size.1
  height_pos : 0 < size.2
  width_le : size.1 ≤ h264SoftwareMaxLongDimension
  height_le : size.2 ≤ h264SoftwareMaxLongDimension

variable {arith : Rounding}

theorem clampScale_le {long : Nat} (short : Nat) (pos : 0 < long) :
    clampScale arith long short * long ≤ 3840 * (1 + 1 / 2 ^ 53) := by
  have positive : (0 : ℚ) < long := by exact_mod_cast pos
  have bounded : clampScale arith long short ≤ 3840 / long * (1 + 1 / 2 ^ 53) := by
    have rounded := arith.round_le ((h264SoftwareMaxLongDimension : ℚ) / long) (by positivity)
    have least : clampScale arith long short ≤ arith.round ((h264SoftwareMaxLongDimension : ℚ) / long) :=
      (min_le_left _ _).trans (min_le_left _ _)
    exact least.trans rounded
  calc clampScale arith long short * long ≤ 3840 / long * (1 + 1 / 2 ^ 53) * long :=
        mul_le_mul_of_nonneg_right bounded positive.le
    _ = 3840 * (1 + 1 / 2 ^ 53) := by field_simp

theorem clampScale_nonneg (long short : Nat) : 0 ≤ clampScale arith long short := by
  have byLong := arith.round_nonneg ((h264SoftwareMaxLongDimension : ℚ) / long) (by positivity)
  have byShort := arith.round_nonneg ((h264SoftwareMaxShortDimension : ℚ) / short) (by positivity)
  exact le_min (le_min byLong byShort) zero_le_one

theorem scaledExtent_bounds {long extent : Nat} (short : Nat) (pos : 0 < long) (le : extent ≤ long) :
    0 < scaledExtent arith (clampScale arith long short) extent ∧
      scaledExtent arith (clampScale arith long short) extent ≤ h264SoftwareMaxLongDimension := by
  have nonneg := @clampScale_nonneg arith long short
  have product : (extent : ℚ) * clampScale arith long short ≤ 3840 * (1 + 1 / 2 ^ 53) := by
    have wider : (extent : ℚ) * clampScale arith long short ≤ clampScale arith long short * long := by
      rw [mul_comm]
      exact mul_le_mul_of_nonneg_left (by exact_mod_cast le) nonneg
    exact wider.trans (clampScale_le short pos)
  have rounded : arith.round (extent * clampScale arith long short) < 3841 := by
    have up := arith.round_le (extent * clampScale arith long short) (mul_nonneg (by positivity) nonneg)
    have scaled := mul_le_mul_of_nonneg_right product (by norm_num : (0 : ℚ) ≤ 1 + 1 / 2 ^ 53)
    have below : (3840 : ℚ) * (1 + 1 / 2 ^ 53) * (1 + 1 / 2 ^ 53) < 3841 := by norm_num
    exact (up.trans scaled).trans_lt below
  have floored : ⌊arith.round (extent * clampScale arith long short)⌋₊ ≤ 3840 :=
    Nat.lt_succ_iff.mp (Nat.floor_lt' (by decide) |>.mpr (by exact_mod_cast rounded))
  unfold scaledExtent evened h264SoftwareMaxLongDimension
  omega

/-- What the clamp makes of a size is within the limits, or has no area. -/
theorem clampToH264SoftwareLimits_bounds (width height : Nat) :
    let size := clampToH264SoftwareLimits arith width height
    size.1 = 0 ∨ size.2 = 0 ∨ FitsEncoder size := by
  dsimp only
  unfold clampToH264SoftwareLimits
  dsimp only
  split
  · rename_i zero
    exact zero.imp_right .inl
  · rename_i nonzero
    have pos : 0 < max (evened width) (evened height) := by omega
    split
    · rename_i within
      refine .inr (.inr ⟨?_, ?_, ?_, ?_⟩)
      all_goals dsimp only [h264SoftwareMaxLongDimension, h264SoftwareMaxShortDimension] at within ⊢; omega
    · have first := @scaledExtent_bounds arith _ _ (min (evened width) (evened height)) pos (le_max_left _ _)
      have second := @scaledExtent_bounds arith _ _ (min (evened width) (evened height)) pos (le_max_right _ _)
      exact .inr (.inr ⟨first.1, second.1, first.2, second.2⟩)

theorem normalizePresentationSize_bounds (requested source : Nat × Nat) :
    let size := normalizePresentationSize arith requested source
    size.1 = 0 ∨ size.2 = 0 ∨ FitsEncoder size := by
  dsimp only
  unfold normalizePresentationSize
  dsimp only
  split
  · exact .inl rfl
  · exact clampToH264SoftwareLimits_bounds _ _

theorem resizeTo_some {physicalOutput : Bool} {current size : Nat × Nat} {d : ResizeDecision}
    (bounds : size.1 = 0 ∨ size.2 = 0 ∨ FitsEncoder size) (decided : resizeTo physicalOutput current size = some d) :
    FitsEncoder d.size ∧ (d.target = .managedHeadlessOutput ↔ physicalOutput = false) := by
  obtain ⟨proper, same⟩ := Option.ite_none_left_eq_some.mp decided
  cases same
  refine ⟨(bounds.resolve_left fun zero => proper (.inl zero)).resolve_left fun zero => proper (.inr (.inl zero)), ?_⟩
  cases physicalOutput <;> simp

theorem initialSizeResizeDecision_some {physicalOutput resolutionFixed : Bool} {current requested : Nat × Nat}
    {source : Option (Nat × Nat)} {d : ResizeDecision}
    (bounds : requested.1 = 0 ∨ requested.2 = 0 ∨ FitsEncoder requested)
    (decided : initialSizeResizeDecision arith physicalOutput resolutionFixed current requested source = some d) :
    FitsEncoder d.size ∧ (d.target = .managedHeadlessOutput ↔ physicalOutput = false) := by
  obtain ⟨_, decided⟩ := Option.ite_none_left_eq_some.mp decided
  split at decided
  · obtain ⟨source, _, decided⟩ := Option.bind_eq_some_iff.mp decided
    exact resizeTo_some (normalizePresentationSize_bounds _ _) decided
  · exact resizeTo_some bounds decided

theorem displayControlResizeDecision_some {layout : List MonitorLayoutEntry} {physicalOutput resolutionFixed : Bool}
    {current : Nat × Nat} {source : Option (Nat × Nat)} {d : ResizeDecision}
    (decided : displayControlResizeDecision arith layout physicalOutput resolutionFixed current source = some d) :
    FitsEncoder d.size ∧ (d.target = .managedHeadlessOutput ↔ physicalOutput = false) := by
  obtain ⟨_, decided⟩ := Option.ite_none_left_eq_some.mp decided
  split at decided
  · obtain ⟨requested, _, decided⟩ := Option.bind_eq_some_iff.mp decided
    obtain ⟨source, _, decided⟩ := Option.bind_eq_some_iff.mp decided
    exact resizeTo_some (normalizePresentationSize_bounds _ _) decided
  · obtain ⟨requested, _, decided⟩ := Option.bind_eq_some_iff.mp decided
    exact resizeTo_some (clampToH264SoftwareLimits_bounds _ _) decided

theorem startupPresentationSize_bounds {physicalOutput resolutionFixed : Bool} {configured source : Nat × Nat}
    (bounds : configured.1 = 0 ∨ configured.2 = 0 ∨ FitsEncoder configured) :
    let size := startupPresentationSize arith physicalOutput resolutionFixed configured source
    size.1 = 0 ∨ size.2 = 0 ∨ FitsEncoder size := by
  dsimp only
  unfold startupPresentationSize
  dsimp only
  cases physicalOutput with
  | false => exact bounds
  | true =>
    rw [if_neg (by decide)]
    split
    · exact clampToH264SoftwareLimits_bounds _ _
    · exact normalizePresentationSize_bounds _ _

end HyprRdp
