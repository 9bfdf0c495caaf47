import HyprRdp.Display.Sizing
import HyprRdp.Display.Geometry

namespace HyprRdp

/-- The encoder takes the size as it is. -/
structure EncodableSize (size : Nat × Nat) : Prop where
  width_even : size.1 % 2 = 0
  height_even : size.2 % 2 = 0
  width_ge : 2 ≤ size.1
  height_ge : 2 ≤ size.2
  long_le : max size.1 size.2 ≤ h264SoftwareMaxLongDimension
  short_le : min size.1 size.2 ≤ h264SoftwareMaxShortDimension

theorem evened_le (extent : Nat) : evened extent ≤ extent := by
  unfold evened
  omega

theorem evened_even (extent : Nat) : evened extent % 2 = 0 := by
  unfold evened
  omega

theorem evened_of_even {extent : Nat} (even : extent % 2 = 0) : evened extent = extent := by
  unfold evened
  omega

theorem evened_mono {first second : Nat} (le : first ≤ second) : evened first ≤ evened second := by
  unfold evened
  omega

theorem evened_ge {extent : Nat} (ge : 2 ≤ extent) : 2 ≤ evened extent := by
  unfold evened
  omega

section Clamp

variable {arith : Rounding}

/-- An encodable size goes through the clamp unchanged, whatever the arithmetic. -/
theorem clamp_of_encodable {size : Nat × Nat} (encodable : EncodableSize size) :
    clampToH264SoftwareLimits arith size.1 size.2 = size := by
  obtain ⟨width_even, height_even, width_ge, height_ge, long_le, short_le⟩ := encodable
  unfold clampToH264SoftwareLimits
  dsimp only
  rw [evened_of_even width_even, evened_of_even height_even, if_neg (by omega), if_pos ⟨long_le, short_le⟩]

/-- A size that is within the limits once it is even is only made even. -/
theorem clamp_of_within {width height : Nat}
    (long_le : max (evened width) (evened height) ≤ h264SoftwareMaxLongDimension)
    (short_le : min (evened width) (evened height) ≤ h264SoftwareMaxShortDimension) :
    clampToH264SoftwareLimits arith width height = (evened width, evened height) := by
  unfold clampToH264SoftwareLimits
  dsimp only
  split
  · rfl
  · rw [if_pos ⟨long_le, short_le⟩]

theorem scaledExtent_le {scale : ℚ} {extent bound : Nat} (le : (extent : ℚ) * scale ≤ bound) :
    scaledExtent Rounding.exact scale extent ≤ max bound 2 := by
  have floored : ⌊Rounding.exact.round (extent * scale)⌋₊ ≤ bound := Nat.floor_le_of_le le
  have even := evened_le (max ⌊Rounding.exact.round (extent * scale)⌋₊ 2)
  unfold scaledExtent
  omega

theorem scaledExtent_even (scale : ℚ) (extent : Nat) : scaledExtent arith scale extent % 2 = 0 :=
  evened_even _

theorem scaledExtent_ge (scale : ℚ) (extent : Nat) : 2 ≤ scaledExtent arith scale extent :=
  evened_ge (le_max_right _ 2)

theorem scaledExtent_mono {scale : ℚ} (nonneg : 0 ≤ scale) {first second : Nat} (le : first ≤ second) :
    scaledExtent Rounding.exact scale first ≤ scaledExtent Rounding.exact scale second := by
  have product : (first : ℚ) * scale ≤ second * scale :=
    mul_le_mul_of_nonneg_right (by exact_mod_cast le) nonneg
  exact evened_mono (max_le_max_right 2 (Nat.floor_mono product))

theorem clampScale_le_one (long short : Nat) : clampScale arith long short ≤ 1 := min_le_right _ _

/-- In exact arithmetic the scale brings either side to its limit or below. -/
theorem clampScale_limits {long short : Nat} (long_pos : 0 < long) (short_pos : 0 < short) :
    (long : ℚ) * clampScale Rounding.exact long short ≤ h264SoftwareMaxLongDimension ∧
      (short : ℚ) * clampScale Rounding.exact long short ≤ h264SoftwareMaxShortDimension := by
  have longPositive : (0 : ℚ) < long := by exact_mod_cast long_pos
  have shortPositive : (0 : ℚ) < short := by exact_mod_cast short_pos
  have byLong : clampScale Rounding.exact long short ≤ (h264SoftwareMaxLongDimension : ℚ) / long :=
    (min_le_left _ _).trans (min_le_left _ _)
  have byShort : clampScale Rounding.exact long short ≤ (h264SoftwareMaxShortDimension : ℚ) / short :=
    (min_le_left _ _).trans (min_le_right _ _)
  constructor
  · rw [mul_comm]
    exact (le_div_iff₀ longPositive).mp byLong
  · rw [mul_comm]
    exact (le_div_iff₀ shortPositive).mp byShort

/-- What the clamp makes of a size that is not scaled, or of one that is. -/
theorem clamp_cases (width height : Nat) (width_ge : 2 ≤ width) (height_ge : 2 ≤ height) :
    (max (evened width) (evened height) ≤ h264SoftwareMaxLongDimension ∧
        min (evened width) (evened height) ≤ h264SoftwareMaxShortDimension ∧
        clampToH264SoftwareLimits arith width height = (evened width, evened height)) ∨
      ∃ scale, scale = clampScale arith (max (evened width) (evened height)) (min (evened width) (evened height)) ∧
        clampToH264SoftwareLimits arith width height =
          (scaledExtent arith scale (evened width), scaledExtent arith scale (evened height)) := by
  have width_even : 2 ≤ evened width := evened_ge width_ge
  have height_even : 2 ≤ evened height := evened_ge height_ge
  by_cases within : max (evened width) (evened height) ≤ h264SoftwareMaxLongDimension ∧
      min (evened width) (evened height) ≤ h264SoftwareMaxShortDimension
  · exact .inl ⟨within.1, within.2, clamp_of_within within.1 within.2⟩
  · refine .inr ⟨_, rfl, ?_⟩
    unfold clampToH264SoftwareLimits
    dsimp only
    rw [if_neg (by omega), if_neg within]

theorem clamp_le {width height : Nat} (width_ge : 2 ≤ width) (height_ge : 2 ≤ height) :
    (clampToH264SoftwareLimits Rounding.exact width height).1 ≤ width ∧
      (clampToH264SoftwareLimits Rounding.exact width height).2 ≤ height := by
  have even_width := evened_le width
  have even_height := evened_le height
  obtain ⟨_, _, same⟩ | ⟨scale, scaled, same⟩ := @clamp_cases Rounding.exact width height width_ge height_ge
  · rw [same]
    exact ⟨even_width, even_height⟩
  · have shrinks : ∀ extent : Nat, (extent : ℚ) * scale ≤ extent := by
      intro extent
      have le_one : scale ≤ 1 := scaled ▸ clampScale_le_one _ _
      exact mul_le_of_le_one_right (by positivity) le_one
    have first := scaledExtent_le (shrinks (evened width))
    have second := scaledExtent_le (shrinks (evened height))
    rw [same]
    dsimp only
    omega

theorem clamp_encodable {width height : Nat} (width_ge : 2 ≤ width) (height_ge : 2 ≤ height) :
    EncodableSize (clampToH264SoftwareLimits Rounding.exact width height) := by
  have width_pos : 2 ≤ evened width := evened_ge width_ge
  have height_pos : 2 ≤ evened height := evened_ge height_ge
  obtain ⟨long_le, short_le, same⟩ | ⟨scale, scaled, same⟩ :=
    @clamp_cases Rounding.exact width height width_ge height_ge
  · rw [same]
    exact ⟨evened_even _, evened_even _, width_pos, height_pos, long_le, short_le⟩
  · obtain ⟨long, short⟩ := @clampScale_limits (max (evened width) (evened height))
      (min (evened width) (evened height)) (by omega) (by omega)
    rw [← scaled] at long short
    have longest := scaledExtent_le long
    have shortest := scaledExtent_le short
    rw [same]
    have limits : max (scaledExtent Rounding.exact scale (evened width))
          (scaledExtent Rounding.exact scale (evened height)) ≤ h264SoftwareMaxLongDimension ∧
        min (scaledExtent Rounding.exact scale (evened width))
          (scaledExtent Rounding.exact scale (evened height)) ≤ h264SoftwareMaxShortDimension := by
      unfold h264SoftwareMaxLongDimension h264SoftwareMaxShortDimension at *
      rcases le_total (evened width) (evened height) with narrow | wide
      · rw [max_eq_right narrow] at longest
        rw [min_eq_left narrow] at shortest
        have wider := scaledExtent_mono (scaled ▸ clampScale_nonneg _ _) narrow
        omega
      · rw [max_eq_left wide] at longest
        rw [min_eq_right wide] at shortest
        have wider := scaledExtent_mono (scaled ▸ clampScale_nonneg _ _) wide
        omega
    exact ⟨scaledExtent_even _ _, scaledExtent_even _ _, scaledExtent_ge _ _, scaledExtent_ge _ _, limits.1, limits.2⟩

end Clamp

/-- What a width is rounded to that was made by the shape of a request. -/
def paddedWidth (padded : Nat) : Nat := if 4 ≤ padded then padded / 4 * 4 else evened padded

/-- The size of `normalize_presentation_size` to which the encoder's limits apply. -/
def fittedSize (requested source : Nat × Nat) : Nat × Nat :=
  let width := evened requested.1
  let height := evened requested.2
  let fitW := evened (max source.1 2)
  let fitH := evened (max source.2 2)
  if width ≤ fitW ∨ height ≤ fitH then (width, height)
  else if width * fitH ≤ height * fitW then (fitW, height * fitW / width)
  else (paddedWidth (width * fitH / height), fitH)

section Fit

variable {arith : Rounding} {requested source : Nat × Nat}

/-- No size can be made of the request, or of the source. -/
def Degenerate (requested source : Nat × Nat) : Prop :=
  requested.1 < 2 ∨ requested.2 < 2 ∨ source.1 = 0 ∨ source.2 = 0

theorem normalize_degenerate (degenerate : Degenerate requested source) :
    normalizePresentationSize arith requested source = (0, 0) := by
  unfold normalizePresentationSize
  dsimp only
  rw [if_pos]
  unfold evened
  rcases degenerate with narrow | low | noWidth | noHeight
  · exact .inl (by omega)
  · exact .inr (.inl (by omega))
  · exact .inr (.inr (.inl noWidth))
  · exact .inr (.inr (.inr noHeight))

theorem normalize_fitted (proper : ¬ Degenerate requested source) :
    normalizePresentationSize arith requested source =
      clampToH264SoftwareLimits arith ((fittedSize requested source).1 % 2 ^ 32)
        ((fittedSize requested source).2 % 2 ^ 32) := by
  have nonzero : ¬ (evened requested.1 = 0 ∨ evened requested.2 = 0 ∨ source.1 = 0 ∨ source.2 = 0) := by
    unfold Degenerate at proper
    unfold evened
    omega
  unfold normalizePresentationSize
  dsimp only
  rw [if_neg nonzero]
  rfl

theorem paddedWidth_le (padded : Nat) : paddedWidth padded ≤ padded := by
  unfold paddedWidth evened
  split <;> omega

theorem paddedWidth_ge {padded : Nat} (ge : 2 ≤ padded) : 2 ≤ paddedWidth padded := by
  unfold paddedWidth evened
  split <;> omega

/-- Each branch of the fit, with the guards that lead to it. -/
theorem fittedSize_cases (requested source : Nat × Nat) :
    let width := evened requested.1
    let height := evened requested.2
    let fitW := evened (max source.1 2)
    let fitH := evened (max source.2 2)
    ((width ≤ fitW ∨ height ≤ fitH) ∧ fittedSize requested source = (width, height)) ∨
      (fitW < width ∧ fitH < height ∧ width * fitH ≤ height * fitW ∧
        fittedSize requested source = (fitW, height * fitW / width)) ∨
      (fitW < width ∧ fitH < height ∧ height * fitW < width * fitH ∧
        fittedSize requested source = (paddedWidth (width * fitH / height), fitH)) := by
  dsimp only
  unfold fittedSize
  dsimp only
  split
  · rename_i within
    exact .inl ⟨within, rfl⟩
  · rename_i beyond
    obtain ⟨wider, higher⟩ := not_or.mp beyond
    split
    · rename_i taller
      exact .inr (.inl ⟨not_le.mp wider, not_le.mp higher, taller, rfl⟩)
    · rename_i flatter
      exact .inr (.inr ⟨not_le.mp wider, not_le.mp higher, not_le.mp flatter, rfl⟩)

/-- The fit only shrinks, and one side of what it leaves is no longer than the source's. -/
structure Fitted (requested source size : Nat × Nat) : Prop where
  width_ge : 2 ≤ size.1
  height_ge : 2 ≤ size.2
  width_le : size.1 ≤ evened requested.1
  height_le : size.2 ≤ evened requested.2
  touches : size.1 ≤ evened (max source.1 2) ∨ size.2 ≤ evened (max source.2 2)

theorem fittedSize_fitted (proper : ¬ Degenerate requested source) :
    Fitted requested source (fittedSize requested source) := by
  have width_ge : 2 ≤ evened requested.1 := evened_ge (not_lt.mp fun narrow => proper (.inl narrow))
  have height_ge : 2 ≤ evened requested.2 := evened_ge (not_lt.mp fun low => proper (.inr (.inl low)))
  have fitW_ge : 2 ≤ evened (max source.1 2) := evened_ge (le_max_right _ 2)
  have fitH_ge : 2 ≤ evened (max source.2 2) := evened_ge (le_max_right _ 2)
  obtain ⟨within, same⟩ | ⟨wider, higher, taller, same⟩ | ⟨wider, higher, flatter, same⟩ :=
    fittedSize_cases requested source
  · rw [same]
    exact ⟨width_ge, height_ge, le_rfl, le_rfl, within⟩
  · have least : evened (max source.2 2) ≤
        evened requested.2 * evened (max source.1 2) / evened requested.1 := by
      rw [Nat.le_div_iff_mul_le (by omega), Nat.mul_comm]
      exact taller
    have most : evened requested.2 * evened (max source.1 2) / evened requested.1 ≤ evened requested.2 := by
      apply Nat.div_le_of_le_mul
      rw [Nat.mul_comm]
      exact Nat.mul_le_mul_right _ wider.le
    rw [same]
    exact ⟨fitW_ge, fitH_ge.trans least, wider.le, most, .inl le_rfl⟩
  · have least : evened (max source.1 2) ≤
        evened requested.1 * evened (max source.2 2) / evened requested.2 := by
      rw [Nat.le_div_iff_mul_le (by omega), Nat.mul_comm]
      exact flatter.le
    have most : evened requested.1 * evened (max source.2 2) / evened requested.2 ≤ evened requested.1 := by
      apply Nat.div_le_of_le_mul
      rw [Nat.mul_comm]
      exact Nat.mul_le_mul_right _ higher.le
    rw [same]
    exact ⟨paddedWidth_ge (fitW_ge.trans least), fitH_ge, (paddedWidth_le _).trans most, higher.le, .inr le_rfl⟩

/-- A request of `u32` extents that is not degenerate: the fit is not truncated. -/
theorem normalize_eq (proper : ¬ Degenerate requested source) (width : requested.1 < 2 ^ 32)
    (height : requested.2 < 2 ^ 32) :
    normalizePresentationSize arith requested source =
      clampToH264SoftwareLimits arith (fittedSize requested source).1 (fittedSize requested source).2 := by
  have fitted := fittedSize_fitted proper
  have width_le := fitted.width_le.trans (evened_le requested.1)
  have height_le := fitted.height_le.trans (evened_le requested.2)
  rw [normalize_fitted proper, Nat.mod_eq_of_lt (by omega), Nat.mod_eq_of_lt (by omega)]

/-- A size that the encoder takes and of which one side is no longer than the source's is left alone. -/
theorem normalize_of_encodable {size : Nat × Nat} (encodable : EncodableSize size) (present : source.1 ≠ 0 ∧ source.2 ≠ 0)
    (touches : size.1 ≤ evened (max source.1 2) ∨ size.2 ≤ evened (max source.2 2)) :
    normalizePresentationSize arith size source = size := by
  have width_ge := encodable.width_ge
  have height_ge := encodable.height_ge
  have proper : ¬ Degenerate size source := by
    unfold Degenerate
    omega
  have unfitted : fittedSize size source = size := by
    obtain ⟨_, same⟩ | ⟨wider, higher, _⟩ | ⟨wider, higher, _⟩ := fittedSize_cases size source
    · rw [same, evened_of_even encodable.width_even, evened_of_even encodable.height_even]
    all_goals
      rw [evened_of_even encodable.width_even] at wider
      rw [evened_of_even encodable.height_even] at higher
      omega
  have width_le : size.1 ≤ h264SoftwareMaxLongDimension := (le_max_left _ _).trans encodable.long_le
  have height_le : size.2 ≤ h264SoftwareMaxLongDimension := (le_max_right _ _).trans encodable.long_le
  unfold h264SoftwareMaxLongDimension at width_le height_le
  rw [normalize_eq proper (by omega) (by omega), unfitted, clamp_of_encodable encodable]

theorem clamp_some {width height : Nat}
    (some : (clampToH264SoftwareLimits arith width height).1 ≠ 0 ∧ (clampToH264SoftwareLimits arith width height).2 ≠ 0) :
    2 ≤ width ∧ 2 ≤ height := by
  by_contra low
  have zero : evened width = 0 ∨ evened height = 0 := by
    unfold evened
    omega
  unfold clampToH264SoftwareLimits at some
  dsimp only at some
  rw [if_pos zero] at some
  omega

/-- What a size is normalized to, unless it is nothing: it can be encoded, and it touches the source. -/
theorem normalize_encodable (some : (normalizePresentationSize Rounding.exact requested source).1 ≠ 0 ∧
      (normalizePresentationSize Rounding.exact requested source).2 ≠ 0) :
    ¬ Degenerate requested source ∧ EncodableSize (normalizePresentationSize Rounding.exact requested source) ∧
      Fitted requested source (normalizePresentationSize Rounding.exact requested source) := by
  have proper : ¬ Degenerate requested source := by
    intro degenerate
    exact some.1 (congrArg Prod.fst (normalize_degenerate degenerate))
  have fitted := fittedSize_fitted proper
  rw [normalize_fitted proper] at some ⊢
  obtain ⟨width_ge, height_ge⟩ := clamp_some some
  obtain ⟨width_le, height_le⟩ := clamp_le width_ge height_ge
  have encodable := clamp_encodable width_ge height_ge
  have width_mod := Nat.mod_le (fittedSize requested source).1 (2 ^ 32)
  have height_mod := Nat.mod_le (fittedSize requested source).2 (2 ^ 32)
  refine ⟨proper, encodable, encodable.width_ge, encodable.height_ge, ?_, ?_, ?_⟩
  · exact (width_le.trans width_mod).trans fitted.width_le
  · exact (height_le.trans height_mod).trans fitted.height_le
  · exact fitted.touches.imp (width_le.trans width_mod).trans (height_le.trans height_mod).trans

theorem normalize_some (proper : ¬ Degenerate requested source) (width : requested.1 < 2 ^ 32)
    (height : requested.2 < 2 ^ 32) :
    (normalizePresentationSize Rounding.exact requested source).1 ≠ 0 ∧
      (normalizePresentationSize Rounding.exact requested source).2 ≠ 0 := by
  have fitted := fittedSize_fitted proper
  have encodable := clamp_encodable fitted.width_ge fitted.height_ge
  rw [normalize_eq proper width height]
  exact ⟨by linarith [encodable.width_ge], by linarith [encodable.height_ge]⟩

/-- Normalizing settles a size at once. -/
theorem normalize_idempotent (some : (normalizePresentationSize Rounding.exact requested source).1 ≠ 0 ∧
      (normalizePresentationSize Rounding.exact requested source).2 ≠ 0) :
    normalizePresentationSize Rounding.exact (normalizePresentationSize Rounding.exact requested source) source =
      normalizePresentationSize Rounding.exact requested source := by
  obtain ⟨proper, encodable, fitted⟩ := normalize_encodable some
  unfold Degenerate at proper
  exact normalize_of_encodable encodable ⟨by omega, by omega⟩ fitted.touches

end Fit

section Pixels

/-- The request is larger than the source both ways, and wider in shape. The
width that the shape calls for is rounded down to a multiple of four, which here
falls short of the source. -/
def RoundsBelow (requested source : Nat × Nat) : Prop :=
  evened requested.2 * source.1 < evened requested.1 * source.2 ∧ source.1 % 4 = 2 ∧ 6 ≤ source.1 ∧
    evened requested.1 * source.2 / evened requested.2 < source.1 + 2

instance (requested source : Nat × Nat) : Decidable (RoundsBelow requested source) :=
  inferInstanceAs (Decidable (_ ∧ _ ∧ _ ∧ _))

/-- At least the source in both dimensions, and the source itself in one. -/
structure CoversSource (source size : Nat × Nat) : Prop where
  width_ge : source.1 ≤ size.1
  height_ge : source.2 ≤ size.2
  meets : size.1 = source.1 ∨ size.2 = source.2

/-- The fitted size needs no scaling. -/
structure FitsLimits (size : Nat × Nat) : Prop where
  long_le : max (evened size.1) (evened size.2) ≤ h264SoftwareMaxLongDimension
  short_le : min (evened size.1) (evened size.2) ≤ h264SoftwareMaxShortDimension

/-- A request beyond an encodable source covers it, but for the rounding to four. -/
theorem normalize_covers {arith : Rounding} {requested source : Nat × Nat} (encodable : EncodableSize source)
    (width : requested.1 < 2 ^ 32) (height : requested.2 < 2 ^ 32) (wider : source.1 < evened requested.1)
    (higher : source.2 < evened requested.2) (limits : FitsLimits (fittedSize requested source)) :
    (¬ RoundsBelow requested source → CoversSource source (normalizePresentationSize arith requested source)) ∧
      (RoundsBelow requested source → normalizePresentationSize arith requested source = (source.1 - 2, source.2)) := by
  obtain ⟨width_even, height_even, width_ge, height_ge, _, _⟩ := encodable
  have proper : ¬ Degenerate requested source := by
    unfold Degenerate
    unfold evened at wider higher
    omega
  have branches := fittedSize_cases requested source
  rw [max_eq_left width_ge, max_eq_left height_ge, evened_of_even width_even, evened_of_even height_even] at branches
  rw [normalize_eq proper width height, clamp_of_within limits.long_le limits.short_le]
  unfold RoundsBelow
  obtain ⟨within, _⟩ | ⟨_, _, taller, same⟩ | ⟨_, _, flatter, same⟩ := branches
  · omega
  · have least : source.2 ≤ evened requested.2 * source.1 / evened requested.1 := by
      rw [Nat.le_div_iff_mul_le (by omega), Nat.mul_comm]
      exact taller
    rw [same]
    constructor
    · intro _
      refine ⟨(evened_of_even width_even).ge, ?_, .inl (evened_of_even width_even)⟩
      exact (evened_of_even height_even).ge.trans (evened_mono least)
    · intro below
      exact absurd below.1 (not_lt.mpr taller)
  · have least : source.1 ≤ evened requested.1 * source.2 / evened requested.2 := by
      rw [Nat.le_div_iff_mul_le (by omega), Nat.mul_comm]
      exact flatter.le
    rw [same]
    generalize evened requested.1 * source.2 / evened requested.2 = padded at least ⊢
    constructor
    · intro above
      refine ⟨?_, (evened_of_even height_even).ge, .inr (evened_of_even height_even)⟩
      -- only from six pixels on can the rounding to four pass an even width
      dsimp only
      unfold paddedWidth evened
      split <;> omega
    · intro below
      rw [Prod.mk.injEq]
      refine ⟨?_, evened_of_even height_even⟩
      unfold paddedWidth evened
      split <;> omega

/-- A presentation that covers the source shows it pixel for pixel. -/
theorem covers_unscaled {source presentation : Size}
    (covers : CoversSource (source.width, source.height) (presentation.width, presentation.height)) :
    (PresentationGeometry.new source presentation).visible.width = source.width ∧
      (PresentationGeometry.new source presentation).visible.height = source.height := by
  obtain ⟨width_ge, height_ge, meets⟩ := covers
  have width_pos := source.width_pos
  have height_pos := source.height_pos
  dsimp only [PresentationGeometry.new, visibleRect] at width_ge height_ge meets ⊢
  by_cases narrower : presentation.width * source.height < source.width * presentation.height
  · have sameWidth : presentation.width = source.width := by
      refine meets.resolve_right fun sameHeight => ?_
      rw [sameHeight] at narrower
      exact absurd (Nat.lt_of_mul_lt_mul_right narrower) (not_lt.mpr width_ge)
    rw [if_pos narrower]
    dsimp only
    rw [sameWidth, Nat.mul_div_cancel_left _ width_pos]
    exact ⟨rfl, by omega⟩
  · have sameHeight : presentation.height = source.height := by
      rcases meets with sameWidth | sameHeight
      · rw [sameWidth] at narrower
        exact le_antisymm (Nat.le_of_mul_le_mul_left (not_lt.mp narrower) width_pos) height_ge
      · exact sameHeight
    rw [if_neg narrower]
    dsimp only
    rw [sameHeight, Nat.mul_div_cancel_left _ height_pos]
    exact ⟨by omega, rfl⟩

end Pixels

end HyprRdp
