import HyprRdp.Lib.Raster
import HyprRdp.Lib.BoxScaling

namespace HyprRdp

/-- A frame size; `Size::new` is the only way to make one, so both extents are positive. -/
structure Size where
  width : Nat
  height : Nat
  width_pos : 0 < width
  height_pos : 0 < height
  deriving DecidableEq

def Size.new (width height : Nat) : Option Size :=
  if positive : 0 < width ∧ 0 < height then some ⟨width, height, positive.1, positive.2⟩ else none

structure Rect where
  x : Nat
  y : Nat
  width : Nat
  height : Nat
  deriving DecidableEq, Repr

namespace Rect

/-- The far edges saturate at the end of `u32`. -/
def right (r : Rect) : Nat := min (r.x + r.width) (2 ^ 32 - 1)

def bottom (r : Rect) : Nat := min (r.y + r.height) (2 ^ 32 - 1)

def asDamageTuple (r : Rect) : Option Region :=
  if r.x < 2 ^ 31 ∧ r.y < 2 ^ 31 ∧ r.width < 2 ^ 31 ∧ r.height < 2 ^ 31 then
    some ⟨r.x, r.y, r.width, r.height⟩
  else none

end Rect

/-- The largest centred rectangle of the source's shape inside the presentation. -/
def visibleRect (source presentation : Size) : Rect :=
  let (visibleW, visibleH) :=
    if presentation.width * source.height < source.width * presentation.height then
      (presentation.width, min (max (presentation.width * source.height / source.width) 1) presentation.height)
    else
      (min (max (presentation.height * source.width / source.height) 1) presentation.width, presentation.height)
  { x := (presentation.width - visibleW) / 2
    y := (presentation.height - visibleH) / 2
    width := visibleW
    height := visibleH }

/-- The fields are private in the source and set together, so the visible
rectangle is always the fitted one. -/
structure PresentationGeometry where
  source : Size
  presentation : Size
  visible : Rect
  fitted : visible = visibleRect source presentation

def scaleFloor (value numerator denominator : Nat) : Nat :=
  value * numerator % 2 ^ 64 / denominator % 2 ^ 32

def scaleCeil (value numerator denominator : Nat) : Nat :=
  min (min (value * numerator) (2 ^ 64 - 1) + (denominator - 1)) (2 ^ 64 - 1) / denominator % 2 ^ 32

namespace PresentationGeometry

def new (source presentation : Size) : PresentationGeometry :=
  ⟨source, presentation, visibleRect source presentation, rfl⟩

def isIdentity (g : PresentationGeometry) : Bool :=
  decide (g.source = g.presentation ∧ g.visible.x = 0 ∧ g.visible.y = 0 ∧
    g.visible.width = g.source.width ∧ g.visible.height = g.source.height)

def mapSourceRect (g : PresentationGeometry) (r : Region) : Option Rect :=
  match r.clip (saturatingAdd 64) g.source.width g.source.height with
  | none => none
  | some ⟨left, top, right, bottom⟩ =>
    let visible := g.visible
    let mappedLeft := visible.x + scaleFloor left visible.width g.source.width
    let mappedTop := visible.y + scaleFloor top visible.height g.source.height
    let mappedRight := visible.x + scaleCeil right visible.width g.source.width
    let mappedBottom := visible.y + scaleCeil bottom visible.height g.source.height
    let clampedLeft := max visible.x (min mappedLeft visible.right)
    let clampedTop := max visible.y (min mappedTop visible.bottom)
    let clampedRight := max visible.x (min mappedRight visible.right)
    let clampedBottom := max visible.y (min mappedBottom visible.bottom)
    if clampedRight ≤ clampedLeft ∨ clampedBottom ≤ clampedTop then none
    else
      some
        { x := clampedLeft
          y := clampedTop
          width := clampedRight - clampedLeft
          height := clampedBottom - clampedTop }

def mapSourceDamage (g : PresentationGeometry) (damageRegions : List Region) : List Region :=
  (damageRegions.filterMap g.mapSourceRect).filterMap Rect.asDamageTuple

/-- One coordinate of a presentation point: the last visible pixel stands for the last one of the source. -/
def mapCoordinate (visible extent source value : Nat) : Nat :=
  let last := min (visible + extent) (2 ^ 32 - 1) - 1
  let clamped := max visible (min value last)
  if clamped = last then source - 1 else min (scaleFloor (clamped - visible) source extent) (source - 1)

def mapPresentationPointToSource (g : PresentationGeometry) (x y : Nat) : Nat × Nat :=
  (mapCoordinate g.visible.x g.visible.width g.source.width x, mapCoordinate g.visible.y g.visible.height g.source.height y)

end PresentationGeometry

/-- Extents that fit in an `i32`; the sizes of real outputs do. -/
def Size.Moderate (s : Size) : Prop := s.width < 2 ^ 31 ∧ s.height < 2 ^ 31

theorem visibleRect_inside (source presentation : Size) :
    let v := visibleRect source presentation
    0 < v.width ∧ 0 < v.height ∧ v.x + v.width ≤ presentation.width ∧ v.y + v.height ≤ presentation.height := by
  have columns := presentation.width_pos
  have rows := presentation.height_pos
  dsimp only [visibleRect]
  split <;> dsimp only <;> omega

theorem scaleFloor_eq {value numerator denominator : Nat} (value_lt : value < denominator)
    (numerator_lt : numerator < 2 ^ 32) (denominator_lt : denominator < 2 ^ 32) :
    scaleFloor value numerator denominator = value * numerator / denominator := by
  have product : value * numerator < 2 ^ 32 * 2 ^ 32 :=
    Nat.mul_lt_mul'' (value_lt.trans denominator_lt) numerator_lt
  have quotient : value * numerator / denominator ≤ numerator :=
    Nat.div_le_of_le_mul (Nat.mul_le_mul_right numerator value_lt.le)
  have whole : value * numerator % 2 ^ 64 = value * numerator := Nat.mod_eq_of_lt (by omega)
  unfold scaleFloor
  rw [whole, Nat.mod_eq_of_lt (by omega)]

theorem scaleCeil_eq {value numerator denominator : Nat} (positive : 0 < denominator)
    (value_le : value ≤ denominator) (numerator_lt : numerator < 2 ^ 31) (denominator_lt : denominator < 2 ^ 31) :
    scaleCeil value numerator denominator = (value * numerator + (denominator - 1)) / denominator := by
  have product : value * numerator ≤ 2 ^ 31 * 2 ^ 31 :=
    Nat.mul_le_mul (value_le.trans denominator_lt.le) numerator_lt.le
  have quotient := BoxScaling.scaled_right_le (m := numerator) positive value_le
  unfold scaleCeil
  rw [Nat.min_eq_left (by omega), Nat.min_eq_left (by omega), Nat.mod_eq_of_lt (by omega)]

namespace PresentationGeometry

variable {g : PresentationGeometry}

/-- Edges in the source scaled to the visible rectangle, relative to its corner. -/
def scaledEdges (g : PresentationGeometry) (e : Edges) : Edges where
  left := e.left * g.visible.width / g.source.width
  top := e.top * g.visible.height / g.source.height
  right := (e.right * g.visible.width + (g.source.width - 1)) / g.source.width
  bottom := (e.bottom * g.visible.height + (g.source.height - 1)) / g.source.height

theorem visible_inside (g : PresentationGeometry) :
    0 < g.visible.width ∧ 0 < g.visible.height ∧ g.visible.x + g.visible.width ≤ g.presentation.width ∧
      g.visible.y + g.visible.height ≤ g.presentation.height := by
  rw [g.fitted]
  exact visibleRect_inside g.source g.presentation

theorem scaledEdges_inside {e : Edges} (inside : e.Inside g.source.width g.source.height) :
    (g.scaledEdges e).Inside g.visible.width g.visible.height where
  columns := BoxScaling.scaled_left_lt_right g.source.width_pos g.visible_inside.1 inside.columns
  rows := BoxScaling.scaled_left_lt_right g.source.height_pos g.visible_inside.2.1 inside.rows
  right_le := BoxScaling.scaled_right_le g.source.width_pos inside.right_le
  bottom_le := BoxScaling.scaled_right_le g.source.height_pos inside.bottom_le

/-- Saturation, truncation and the final clamps do not matter for sizes that fit in an `i32`. -/
theorem mapSourceRect_some (source : g.source.Moderate) (presentation : g.presentation.Moderate) {r : Region}
    {e : Edges} (clipped : r.clip (· + ·) g.source.width g.source.height = some e) :
    let s := g.scaledEdges e
    g.mapSourceRect r =
      some ⟨g.visible.x + s.left, g.visible.y + s.top, s.right - s.left, s.bottom - s.top⟩ := by
  intro s
  obtain ⟨columns, rows, right_le, bottom_le⟩ := Region.clip_inside clipped
  obtain ⟨acrossLt, downLt, acrossLe, downLe⟩ : s.Inside g.visible.width g.visible.height :=
    scaledEdges_inside (Region.clip_inside clipped)
  obtain ⟨visibleW, visibleH, visible_right, visible_bottom⟩ := g.visible_inside
  obtain ⟨sourceW, sourceH⟩ := source
  obtain ⟨presentationW, presentationH⟩ := presentation
  have smallW : g.visible.width < 2 ^ 31 := by omega
  have smallH : g.visible.height < 2 ^ 31 := by omega
  have leftEq : scaleFloor e.left g.visible.width g.source.width = s.left :=
    scaleFloor_eq (by omega) (by omega) (by omega)
  have topEq : scaleFloor e.top g.visible.height g.source.height = s.top :=
    scaleFloor_eq (by omega) (by omega) (by omega)
  have rightEq : scaleCeil e.right g.visible.width g.source.width = s.right :=
    scaleCeil_eq g.source.width_pos right_le smallW sourceW
  have bottomEq : scaleCeil e.bottom g.visible.height g.source.height = s.bottom :=
    scaleCeil_eq g.source.height_pos bottom_le smallH sourceH
  have farRight : g.visible.right = g.visible.x + g.visible.width := by
    unfold Rect.right
    omega
  have farBottom : g.visible.bottom = g.visible.y + g.visible.height := by
    unfold Rect.bottom
    omega
  unfold mapSourceRect
  rw [Region.clip_saturating_64 (by omega) (by omega), clipped]
  dsimp only
  rw [leftEq, topEq, rightEq, bottomEq, farRight, farBottom]
  have keep : ∀ base extent v : Nat, v ≤ extent → max base (min (base + v) (base + extent)) = base + v := by
    intro base extent v bound
    omega
  rw [keep _ _ _ (acrossLt.le.trans acrossLe), keep _ _ _ (downLt.le.trans downLe), keep _ _ _ acrossLe,
    keep _ _ _ downLe, if_neg (by omega)]
  simp only [Option.some.injEq, Rect.mk.injEq, true_and]
  omega

theorem mapSourceRect_none (source : g.source.Moderate) {r : Region}
    (clipped : r.clip (· + ·) g.source.width g.source.height = none) : g.mapSourceRect r = none := by
  obtain ⟨sourceW, sourceH⟩ := source
  unfold mapSourceRect
  rw [Region.clip_saturating_64 (by omega) (by omega), clipped]

/-- The mapped list holds, for every damage rectangle that has a pixel in the
source, its scaled edges: no mapped rectangle is dropped on the way to `i32`. -/
theorem mem_mapSourceDamage (source : g.source.Moderate) (presentation : g.presentation.Moderate)
    {damage : List Region} {m : Region} :
    m ∈ g.mapSourceDamage damage ↔ ∃ r ∈ damage, ∃ e, r.clip (· + ·) g.source.width g.source.height = some e ∧
      m = ⟨(g.visible.x + (g.scaledEdges e).left : Nat), (g.visible.y + (g.scaledEdges e).top : Nat),
        ((g.scaledEdges e).right - (g.scaledEdges e).left : Nat),
        ((g.scaledEdges e).bottom - (g.scaledEdges e).top : Nat)⟩ := by
  obtain ⟨visibleW, visibleH, visible_right, visible_bottom⟩ := g.visible_inside
  unfold mapSourceDamage
  simp only [List.mem_filterMap]
  constructor
  · rintro ⟨rect, ⟨r, member, run⟩, tuple⟩
    cases clipped : r.clip (· + ·) g.source.width g.source.height with
    | none =>
      rw [mapSourceRect_none source clipped] at run
      cases run
    | some e =>
      cases run.symm.trans (mapSourceRect_some source presentation clipped)
      obtain ⟨_, same⟩ := Option.ite_none_right_eq_some.mp tuple
      exact ⟨r, member, e, clipped, (Option.some.inj same).symm⟩
  · rintro ⟨r, member, e, clipped, rfl⟩
    refine ⟨_, ⟨r, member, mapSourceRect_some source presentation clipped⟩, ?_⟩
    obtain ⟨columns, rows, right_le, bottom_le⟩ := scaledEdges_inside (Region.clip_inside clipped)
    obtain ⟨presentationW, presentationH⟩ := presentation
    unfold Rect.asDamageTuple
    rw [if_pos (by dsimp only; omega)]

theorem mapSourceDamage_visible (source : g.source.Moderate) (presentation : g.presentation.Moderate)
    {damage : List Region} {m : Region} (member : m ∈ g.mapSourceDamage damage) :
    0 < m.w ∧ 0 < m.h ∧ (g.visible.x : Int) ≤ m.x ∧ m.x + m.w ≤ (g.visible.x + g.visible.width : Nat) ∧
      (g.visible.y : Int) ≤ m.y ∧ m.y + m.h ≤ (g.visible.y + g.visible.height : Nat) := by
  obtain ⟨r, _, e, clipped, rfl⟩ := (mem_mapSourceDamage source presentation).mp member
  obtain ⟨columns, rows, right_le, bottom_le⟩ := scaledEdges_inside (Region.clip_inside clipped)
  dsimp only
  omega

/-- A presentation pixel whose box in the source reaches into a damage
rectangle lies in a mapped rectangle. The box of column `i` starts at
`i * width / visible` and ends before the next one starts, one column on at least. -/
theorem mapSourceDamage_covers (source : g.source.Moderate) (presentation : g.presentation.Moderate)
    {damage : List Region} {sx sy i j : Nat} (column : sx < g.source.width) (row : sy < g.source.height)
    (damaged : Covered damage sx sy) (across : i * g.source.width / g.visible.width ≤ sx)
    (across_lt : sx < max ((i + 1) * g.source.width / g.visible.width) (i * g.source.width / g.visible.width + 1))
    (down : j * g.source.height / g.visible.height ≤ sy)
    (down_lt : sy < max ((j + 1) * g.source.height / g.visible.height) (j * g.source.height / g.visible.height + 1)) :
    Covered (g.mapSourceDamage damage) (g.visible.x + i) (g.visible.y + j) := by
  obtain ⟨r, member, covers⟩ := damaged
  obtain ⟨visibleW, visibleH, _⟩ := g.visible_inside
  cases clipped : r.clip (· + ·) g.source.width g.source.height with
  | none => exact absurd covers (Region.clip_none clipped column row)
  | some e =>
    obtain ⟨left, right, top, bottom⟩ := (Region.clip_covers clipped sx sy).mpr ⟨column, row, covers⟩
    have fromLeft : (g.scaledEdges e).left ≤ i :=
      BoxScaling.scaled_left_le g.source.width_pos visibleW left across_lt
    have toRight : i < (g.scaledEdges e).right :=
      BoxScaling.lt_scaled_right g.source.width_pos visibleW across right
    have fromTop : (g.scaledEdges e).top ≤ j :=
      BoxScaling.scaled_left_le g.source.height_pos visibleH top down_lt
    have toBottom : j < (g.scaledEdges e).bottom :=
      BoxScaling.lt_scaled_right g.source.height_pos visibleH down bottom
    refine ⟨_, (mem_mapSourceDamage source presentation).mpr ⟨r, member, e, clipped, rfl⟩, ?_⟩
    simp only [Region.Covers]
    omega

end PresentationGeometry

end HyprRdp
