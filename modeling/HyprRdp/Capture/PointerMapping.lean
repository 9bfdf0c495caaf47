import HyprRdp.Capture.Scale

namespace HyprRdp

/-- The source pixels over which an output pixel is averaged, in the order of the loops. -/
def boxPixels (g : PresentationGeometry) (relX relY : Nat) : List (Nat × Nat) :=
  let sy0 := boxStart relY g.source.height g.visible.height
  let sy1 := boxStop relY g.source.height g.visible.height
  let sx0 := boxStart relX g.source.width g.visible.width
  let sx1 := boxStop relX g.source.width g.visible.width
  (List.range' sy0 (sy1 - sy0)).flatMap fun sy => (List.range' sx0 (sx1 - sx0)).map fun sx => (sx, sy)

/-- The average is taken over these pixels. -/
theorem boxAverage_boxPixels (data : Bytes) (stride : Nat) (g : PresentationGeometry) (relX relY channel : Nat) :
    let pixels := boxPixels g relX relY
    boxAverage data stride g relX relY channel =
      UInt8.ofNat ((pixels.foldl (fun sum p => (sum + (data.byte (p.2 * stride + p.1 * 4 + channel)).toNat) % 2 ^ 64) 0 +
        pixels.length / 2) % 2 ^ 64 / pixels.length) := by
  intro pixels
  have count : pixels.length =
      (boxStop relY g.source.height g.visible.height - boxStart relY g.source.height g.visible.height) *
        (boxStop relX g.source.width g.visible.width - boxStart relX g.source.width g.visible.width) := by
    simp only [pixels, boxPixels, List.length_flatMap, List.length_map, List.length_range', List.map_const',
      List.sum_replicate_nat]
  rw [count]
  simp only [pixels, boxPixels, List.foldl_flatMap, List.foldl_map]
  rfl

theorem mem_boxPixels {g : PresentationGeometry} {relX relY sx sy : Nat} :
    (sx, sy) ∈ boxPixels g relX relY ↔
      (boxStart relX g.source.width g.visible.width ≤ sx ∧ sx < boxStop relX g.source.width g.visible.width) ∧
        boxStart relY g.source.height g.visible.height ≤ sy ∧ sy < boxStop relY g.source.height g.visible.height := by
  simp only [boxPixels, List.mem_flatMap, List.mem_map, List.mem_range'_1, Prod.mk.injEq]
  constructor
  · rintro ⟨row, rowIn, column, columnIn, rfl, rfl⟩
    omega
  · intro inside
    exact ⟨sy, by omega, sx, by omega, rfl, rfl⟩

/-- Every extent is a `u32`. -/
def Size.InU32 (s : Size) : Prop := s.width < 2 ^ 32 ∧ s.height < 2 ^ 32

/-- The source column of a visible column. -/
def visibleToSource (extent source rel : Nat) : Nat :=
  if rel = extent - 1 then source - 1 else rel * source / extent

section Coordinate

variable {extent source rel : Nat}

theorem visibleToSource_inBox (positive : 0 < source) (inside : rel < extent) :
    boxStart rel source extent ≤ visibleToSource extent source rel ∧
      visibleToSource extent source rel < boxStop rel source extent := by
  have start : rel * source / extent < source :=
    (Nat.div_lt_iff_lt_mul (by omega)).mpr (by rw [Nat.mul_comm source]; exact Nat.mul_lt_mul_of_pos_right inside positive)
  unfold visibleToSource boxStop boxStart
  by_cases last : rel = extent - 1
  · -- The box of the last column reaches to the end of the source.
    have stop : (rel + 1) * source / extent = source := by
      rw [show rel + 1 = extent by omega]
      exact Nat.mul_div_cancel_left source (by omega)
    rw [if_pos last, stop]
    omega
  · rw [if_neg last]
    omega

theorem visibleToSource_lt (positive : 0 < source) (inside : rel < extent) : visibleToSource extent source rel < source := by
  have := (visibleToSource_inBox positive inside).2
  unfold boxStop at this
  omega

theorem visibleToSource_mono {later : Nat} (positive : 0 < source) (order : rel ≤ later) (inside : later < extent) :
    visibleToSource extent source rel ≤ visibleToSource extent source later := by
  have bound := visibleToSource_lt positive (order.trans_lt inside)
  unfold visibleToSource at *
  by_cases last : later = extent - 1
  · rw [if_pos last]
    omega
  · rw [if_neg last, if_neg (by omega)]
    exact Nat.div_le_div_right (Nat.mul_le_mul_right source order)

theorem visibleToSource_first (positive : 0 < extent) :
    visibleToSource extent source 0 = if extent = 1 then source - 1 else 0 := by
  unfold visibleToSource
  rw [Nat.zero_mul, Nat.zero_div]
  by_cases one : extent = 1
  · rw [if_pos one, if_pos (by omega)]
  · rw [if_neg one, if_neg (by omega)]

end Coordinate

namespace PresentationGeometry

/-- The point of the visible rectangle that is nearest to a coordinate, counted from its corner. -/
def nearestVisible (visible extent value : Nat) : Nat := max visible (min value (visible + extent - 1)) - visible

section Coordinate

variable {visible extent source value : Nat}

theorem nearestVisible_lt (positive : 0 < extent) (value : Nat) : nearestVisible visible extent value < extent := by
  unfold nearestVisible
  omega

theorem nearestVisible_inside (above : visible ≤ value) (below : value < visible + extent) :
    nearestVisible visible extent value = value - visible := by
  unfold nearestVisible
  omega

theorem nearestVisible_before (before : value ≤ visible) : nearestVisible visible extent value = 0 := by
  unfold nearestVisible
  omega

theorem nearestVisible_after (after : visible + extent ≤ value) : nearestVisible visible extent value = extent - 1 := by
  unfold nearestVisible
  omega

theorem nearestVisible_last (positive : 0 < extent) : nearestVisible visible extent (visible + extent - 1) = extent - 1 := by
  unfold nearestVisible
  omega

theorem nearestVisible_mono {later : Nat} (order : value ≤ later) :
    nearestVisible visible extent value ≤ nearestVisible visible extent later := by
  unfold nearestVisible
  omega

theorem mapCoordinate_eq (extentPos : 0 < extent) (sourcePos : 0 < source) (small : visible + extent < 2 ^ 32)
    (sourceSmall : source < 2 ^ 32) (value : Nat) :
    mapCoordinate visible extent source value = visibleToSource extent source (nearestVisible visible extent value) := by
  have far : min (visible + extent) (2 ^ 32 - 1) = visible + extent := by omega
  have inside := @nearestVisible_lt visible extent extentPos value
  have bound := visibleToSource_lt sourcePos inside
  unfold mapCoordinate
  dsimp only
  rw [far]
  unfold visibleToSource at *
  by_cases last : nearestVisible visible extent value = extent - 1
  · rw [if_pos last, if_pos]
    unfold nearestVisible at last
    omega
  · rw [if_neg last] at bound
    rw [if_neg last, if_neg]
    · have scaled := @scaleFloor_eq (nearestVisible visible extent value) source extent inside sourceSmall (by omega)
      unfold nearestVisible at *
      rw [scaled]
      omega
    · unfold nearestVisible at last
      omega

end Coordinate

variable {g : PresentationGeometry}

/-- The pointer mapping agrees with what is displayed. -/
theorem pointer_agrees_with_display (source : g.source.InU32) (presentation : g.presentation.InU32) :
    let map := g.mapPresentationPointToSource
    (∀ x y, (map x y).1 < g.source.width ∧ (map x y).2 < g.source.height) ∧
    (∀ x y, (x, y) ∈ g.visible.pixels → map x y ∈ boxPixels g (x - g.visible.x) (y - g.visible.y)) ∧
    (∀ x x' y y', (x ≤ x' → (map x y).1 ≤ (map x' y').1) ∧ (y ≤ y' → (map x y).2 ≤ (map x y').2)) ∧
    (∀ x y, (x < g.visible.x → (map x y).1 = (map g.visible.x y).1) ∧
      (g.visible.right ≤ x → (map x y).1 = (map (g.visible.right - 1) y).1) ∧
      (y < g.visible.y → (map x y).2 = (map x g.visible.y).2) ∧
      (g.visible.bottom ≤ y → (map x y).2 = (map x (g.visible.bottom - 1)).2)) ∧
    ∀ x y, (map g.visible.x y).1 = (if g.visible.width = 1 then g.source.width - 1 else 0) ∧
      (map (g.visible.right - 1) y).1 = g.source.width - 1 ∧
      (map x g.visible.y).2 = (if g.visible.height = 1 then g.source.height - 1 else 0) ∧
      (map x (g.visible.bottom - 1)).2 = g.source.height - 1 := by
  obtain ⟨sourceW, sourceH⟩ := source
  obtain ⟨presentationW, presentationH⟩ := presentation
  obtain ⟨visibleW, visibleH, farColumn, farRow⟩ := g.visible_inside
  have column := g.source.width_pos
  have row := g.source.height_pos
  have right : g.visible.right = g.visible.x + g.visible.width := by
    unfold Rect.right
    omega
  have bottom : g.visible.bottom = g.visible.y + g.visible.height := by
    unfold Rect.bottom
    omega
  have across := mapCoordinate_eq visibleW column (by omega : g.visible.x + g.visible.width < 2 ^ 32) sourceW
  have down := mapCoordinate_eq visibleH row (by omega : g.visible.y + g.visible.height < 2 ^ 32) sourceH
  intro map
  simp only [map, mapPresentationPointToSource, across, down, right, bottom]
  refine ⟨fun x y => ?_, fun x y visible => ?_, fun x x' y y' => ?_, fun x y => ?_, fun x y => ?_⟩
  · exact ⟨visibleToSource_lt column (nearestVisible_lt visibleW x), visibleToSource_lt row (nearestVisible_lt visibleH y)⟩
  · obtain ⟨fromLeft, toRight, fromTop, toBottom⟩ := Rect.mem_pixels.mp visible
    rw [right] at toRight
    rw [bottom] at toBottom
    rw [nearestVisible_inside fromLeft toRight, nearestVisible_inside fromTop toBottom, mem_boxPixels]
    exact ⟨visibleToSource_inBox column (by omega), visibleToSource_inBox row (by omega)⟩
  · exact ⟨fun order => visibleToSource_mono column (nearestVisible_mono order) (nearestVisible_lt visibleW x'),
      fun order => visibleToSource_mono row (nearestVisible_mono order) (nearestVisible_lt visibleH y')⟩
  · refine ⟨fun bar => ?_, fun bar => ?_, fun bar => ?_, fun bar => ?_⟩
    · rw [nearestVisible_before bar.le, nearestVisible_before (le_refl _)]
    · rw [nearestVisible_after bar, nearestVisible_last visibleW]
    · rw [nearestVisible_before bar.le, nearestVisible_before (le_refl _)]
    · rw [nearestVisible_after bar, nearestVisible_last visibleH]
  · rw [nearestVisible_before (le_refl _), nearestVisible_before (le_refl _), nearestVisible_last visibleW,
      nearestVisible_last visibleH]
    exact ⟨visibleToSource_first visibleW, if_pos rfl, visibleToSource_first visibleH, if_pos rfl⟩

/-- A source of three columns in a presentation of eight columns and two rows. -/
theorem pointer_agrees_with_display_once :
    let g := new ⟨3, 2, Nat.zero_lt_succ _, Nat.zero_lt_succ _⟩ ⟨8, 2, Nat.zero_lt_succ _, Nat.zero_lt_succ _⟩
    g.mapPresentationPointToSource 3 1 ∈ boxPixels g 1 1 :=
  (pointer_agrees_with_display ⟨by decide, by decide⟩ ⟨by decide, by decide⟩).2.1 3 1 (by decide)

end PresentationGeometry

end HyprRdp
