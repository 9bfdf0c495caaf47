import HyprRdp.Lib.Raster
import Mathlib.Data.List.Induction
import Mathlib.Algebra.Ring.Int.Defs
import Mathlib.Algebra.Ring.Divisibility.Basic

/-- `Vec::swap_remove`: the last element takes the place of the one removed. -/
def List.swapRemove {α : Type*} (xs : List α) (i : Nat) : List α :=
  match xs.getLast? with
  | none => []
  | some last => (xs.set i last).dropLast

theorem List.mem_of_mem_swapRemove {α : Type*} {xs : List α} {i : Nat} {x : α} (member : x ∈ xs.swapRemove i) :
    x ∈ xs := by
  induction xs using List.reverseRecOn with
  | nil => cases member
  | append_singleton front last _ =>
    simp only [List.swapRemove, List.getLast?_append, List.getLast?_singleton, Option.some_or] at member
    rcases List.mem_or_eq_of_mem_set (List.dropLast_subset _ member) with old | same
    · exact old
    · exact List.mem_append_right front (List.mem_singleton.mpr same)

/-- Nothing else goes than the element at the index. -/
theorem List.mem_swapRemove_or {α : Type*} {xs : List α} {i : Nat} {x : α} (bound : i < xs.length) (member : x ∈ xs) :
    x ∈ xs.swapRemove i ∨ x = xs[i] := by
  induction xs using List.reverseRecOn with
  | nil => cases member
  | append_singleton front last _ =>
    simp only [List.swapRemove, List.getLast?_append, List.getLast?_singleton, Option.some_or]
    by_cases inner : i < front.length
    · rw [List.set_append_left _ _ inner, List.dropLast_concat, List.getElem_append_left inner]
      rcases List.mem_append.mp member with old | new
      · obtain ⟨j, atIndex, rfl⟩ := List.getElem_of_mem old
        by_cases same : j = i
        · subst same
          exact .inr rfl
        · refine .inl ?_
          rw [← List.getElem_set_ne (Ne.symm same) (by simpa using atIndex)]
          exact List.getElem_mem _
      · cases List.mem_singleton.mp new
        exact .inl (List.mem_iff_getElem.mpr ⟨i, by simpa using inner, List.getElem_set_self _⟩)
    · have end_ : i = front.length := by
        rw [List.length_append, List.length_singleton] at bound
        omega
      subst end_
      rw [List.set_append_right _ _ le_rfl, List.getElem_append_right le_rfl]
      simp only [Nat.sub_self, List.set_cons_zero, List.dropLast_concat, List.getElem_cons_zero]
      rcases List.mem_append.mp member with old | new
      · exact .inl old
      · exact .inr (List.mem_singleton.mp new)

/-- Appends an element that is not yet there. -/
def List.pushUnique {α : Type*} [DecidableEq α] (xs : List α) (x : α) : List α := if x ∈ xs then xs else xs ++ [x]

theorem List.Nodup.pushUnique {α : Type*} [DecidableEq α] {xs : List α} (distinct : xs.Nodup) (x : α) :
    (xs.pushUnique x).Nodup := by
  unfold List.pushUnique
  split
  · exact distinct
  · rename_i absent
    refine List.nodup_append.mpr ⟨distinct, List.pairwise_singleton _ x, fun a member b here same => ?_⟩
    cases List.mem_singleton.mp here
    exact absent (same ▸ member)

@[simp] theorem List.mem_pushUnique {α : Type*} [DecidableEq α] {xs : List α} {x y : α} :
    y ∈ xs.pushUnique x ↔ y ∈ xs ∨ y = x := by
  unfold List.pushUnique
  split
  · exact ⟨Or.inl, fun h => h.elim id fun same => same ▸ ‹_›⟩
  · simp

namespace Region

/-- Non-empty and inside the raster. -/
structure Within (r : Region) (width height : Nat) : Prop where
  left : 0 ≤ r.x
  top : 0 ≤ r.y
  columns : 0 < r.w
  rows : 0 < r.h
  right : r.x + r.w ≤ width
  bottom : r.y + r.h ≤ height

theorem toRegion_within {e : Edges} {width height : Nat} (inside : e.Inside width height) :
    e.toRegion.Within width height := by
  obtain ⟨columns, rows, right, bottom⟩ := inside
  constructor <;> (simp only [Edges.toRegion]; omega)

theorem Within.toEdges {r : Region} {width height : Nat} (within : r.Within width height) :
    r.toEdges.Inside width height ∧ r.toEdges.toRegion = r := by
  obtain ⟨left, top, columns, rows, right, bottom⟩ := within
  constructor
  · constructor <;> (simp only [Region.toEdges]; omega)
  · obtain ⟨x, y, w, h⟩ := r
    simp only [Edges.toRegion, Region.toEdges, Region.mk.injEq] at *
    omega

theorem Within.edges {r : Region} {width height : Nat} (within : r.Within width height) :
    (r.toEdges.left : Int) = r.x ∧ (r.toEdges.top : Int) = r.y ∧ (r.toEdges.right : Int) = r.x + r.w ∧
      (r.toEdges.bottom : Int) = r.y + r.h := by
  obtain ⟨left, top, columns, rows, right, bottom⟩ := within
  simp only [Region.toEdges]
  omega

theorem full_within {width height : Nat} (columns : 0 < width) (rows : 0 < height) :
    (full width height).Within width height := by
  constructor <;> (simp only [full]; omega)

/-- The bounding rectangle of two regions. -/
def union (a b : Region) : Region :=
  let left := min a.x b.x
  let top := min a.y b.y
  let right := max (saturatingAdd 32 a.x a.w) (saturatingAdd 32 b.x b.w)
  let bottom := max (saturatingAdd 32 a.y a.h) (saturatingAdd 32 b.y b.h)
  ⟨left, top, right - left, bottom - top⟩

/-- The corner and the extent are multiples of the given steps. -/
structure Aligned (across down : Int) (r : Region) : Prop where
  x : across ∣ r.x
  w : across ∣ r.w
  y : down ∣ r.y
  h : down ∣ r.h

variable {a b : Region} {width height : Nat}

theorem Within.saturating (columns : width < 2 ^ 31) (rows : height < 2 ^ 31) (within : a.Within width height) :
    saturatingAdd 32 a.x a.w = a.x + a.w ∧ saturatingAdd 32 a.y a.h = a.y + a.h := by
  obtain ⟨left, top, wide, tall, right, bottom⟩ := within
  unfold saturatingAdd
  omega

theorem Within.union (columns : width < 2 ^ 31) (rows : height < 2 ^ 31) (first : a.Within width height)
    (second : b.Within width height) : (a.union b).Within width height := by
  obtain ⟨aRight, aBottom⟩ := first.saturating columns rows
  obtain ⟨bRight, bBottom⟩ := second.saturating columns rows
  obtain ⟨left, top, wide, tall, right, bottom⟩ := first
  obtain ⟨left', top', wide', tall', right', bottom'⟩ := second
  constructor <;> (simp only [Region.union, aRight, aBottom, bRight, bBottom]; omega)

theorem Covers.union_left (columns : width < 2 ^ 31) (rows : height < 2 ^ 31) (first : a.Within width height)
    (second : b.Within width height) {px py : Nat} (covers : a.Covers px py) : (a.union b).Covers px py := by
  obtain ⟨aRight, aBottom⟩ := first.saturating columns rows
  obtain ⟨bRight, bBottom⟩ := second.saturating columns rows
  simp only [Covers, Region.union, aRight, aBottom, bRight, bBottom] at covers ⊢
  omega

theorem Covers.union_right (columns : width < 2 ^ 31) (rows : height < 2 ^ 31) (first : a.Within width height)
    (second : b.Within width height) {px py : Nat} (covers : b.Covers px py) : (a.union b).Covers px py := by
  obtain ⟨aRight, aBottom⟩ := first.saturating columns rows
  obtain ⟨bRight, bBottom⟩ := second.saturating columns rows
  simp only [Covers, Region.union, aRight, aBottom, bRight, bBottom] at covers ⊢
  omega

theorem Aligned.union {across down : Int} (columns : width < 2 ^ 31) (rows : height < 2 ^ 31)
    (first : a.Within width height) (second : b.Within width height) (aligned : a.Aligned across down)
    (aligned' : b.Aligned across down) : (a.union b).Aligned across down := by
  obtain ⟨aRight, aBottom⟩ := first.saturating columns rows
  obtain ⟨bRight, bBottom⟩ := second.saturating columns rows
  have minDvd : ∀ d x y : Int, d ∣ x → d ∣ y → d ∣ min x y := by
    intro d x y dx dy
    rcases min_choice x y with same | same <;> rwa [same]
  have maxDvd : ∀ d x y : Int, d ∣ x → d ∣ y → d ∣ max x y := by
    intro d x y dx dy
    rcases max_choice x y with same | same <;> rwa [same]
  have left := minDvd _ _ _ aligned.x aligned'.x
  have top := minDvd _ _ _ aligned.y aligned'.y
  have right := maxDvd _ _ _ (dvd_add aligned.x aligned.w) (dvd_add aligned'.x aligned'.w)
  have bottom := maxDvd _ _ _ (dvd_add aligned.y aligned.h) (dvd_add aligned'.y aligned'.h)
  constructor <;> simp only [Region.union, aRight, aBottom, bRight, bBottom]
  · exact left
  · exact dvd_sub right left
  · exact top
  · exact dvd_sub bottom top

/-- The merging loop: every region the new one should join is taken out of
the list and swallowed, then the result is appended. Each round passes an
element or removes one, so the length of the list bounds the rounds. -/
def mergeLoop (join : Region → Region → Bool) : Nat → List Region → Nat → Region → List Region
  | 0, regions, _, merged => regions ++ [merged]
  | fuel + 1, regions, index, merged =>
    match regions[index]? with
    | none => regions ++ [merged]
    | some region =>
      if join region merged then mergeLoop join fuel (regions.swapRemove index) index (region.union merged)
      else mergeLoop join fuel regions (index + 1) merged

def mergeInto (join : Region → Region → Bool) (regions : List Region) (region : Region) : List Region :=
  mergeLoop join regions.length regions 0 region

theorem mergeLoop_forall {good : Region → Prop} (closed : ∀ a b, good a → good b → good (a.union b))
    (join : Region → Region → Bool) (fuel : Nat) :
    ∀ (regions : List Region) (index : Nat) (merged : Region), (∀ r ∈ regions, good r) → good merged →
      ∀ r ∈ mergeLoop join fuel regions index merged, good r := by
  induction fuel with
  | zero =>
    intro regions index merged all one r member
    rcases List.mem_append.mp member with old | new
    · exact all r old
    · exact List.mem_singleton.mp new ▸ one
  | succ fuel ih =>
    intro regions index merged all one r member
    unfold mergeLoop at member
    split at member
    · rcases List.mem_append.mp member with old | new
      · exact all r old
      · exact List.mem_singleton.mp new ▸ one
    · rename_i region atIndex
      have inside := all region (List.mem_of_getElem? atIndex)
      split at member
      · exact ih _ _ _ (fun r old => all r (List.mem_of_mem_swapRemove old)) (closed region merged inside one) r member
      · exact ih _ _ _ all one r member

/-- Merging loses no pixel of the list nor of the new region. -/
theorem mergeLoop_covered (columns : width < 2 ^ 31) (rows : height < 2 ^ 31) (join : Region → Region → Bool) (fuel : Nat)
    {px py : Nat} :
    ∀ (regions : List Region) (index : Nat) (merged : Region), (∀ r ∈ regions, r.Within width height) →
      merged.Within width height → Covered regions px py ∨ merged.Covers px py →
      Covered (mergeLoop join fuel regions index merged) px py := by
  induction fuel with
  | zero =>
    intro regions index merged _ _ covered
    rw [mergeLoop, Covered.append, Covered.cons]
    exact covered.imp_right Or.inl
  | succ fuel ih =>
    intro regions index merged all one covered
    unfold mergeLoop
    split
    · rw [Covered.append, Covered.cons]
      exact covered.imp_right Or.inl
    · rename_i region atIndex
      have inside := all region (List.mem_of_getElem? atIndex)
      split
      · refine ih _ _ _ (fun r old => all r (List.mem_of_mem_swapRemove old)) (inside.union columns rows one) ?_
        rcases covered with ⟨r, member, covers⟩ | covers
        · obtain ⟨bound, value⟩ := List.getElem?_eq_some_iff.mp atIndex
          rcases List.mem_swapRemove_or bound member with kept | same
          · exact .inl ⟨r, kept, covers⟩
          · rw [same, value] at covers
            exact .inr (covers.union_left columns rows inside one)
        · exact .inr (covers.union_right columns rows inside one)
      · exact ih _ _ _ all one covered

theorem mergeInto_forall {good : Region → Prop} (closed : ∀ a b, good a → good b → good (a.union b))
    (join : Region → Region → Bool) {regions : List Region} {region : Region} (all : ∀ r ∈ regions, good r)
    (one : good region) : ∀ r ∈ mergeInto join regions region, good r :=
  mergeLoop_forall closed join _ _ _ _ all one

theorem mergeInto_covered (columns : width < 2 ^ 31) (rows : height < 2 ^ 31) (join : Region → Region → Bool)
    {regions : List Region} {region : Region} (all : ∀ r ∈ regions, r.Within width height)
    (one : region.Within width height) {px py : Nat} (covered : Covered regions px py ∨ region.Covers px py) :
    Covered (mergeInto join regions region) px py :=
  mergeLoop_covered columns rows join _ _ _ _ all one covered

end Region

namespace Edges

/-- A rectangle cut into tiles of the given side, row by row; the last ones may be smaller. -/
def tiles (size : Nat) (e : Edges) : List Edges :=
  (List.range' e.top ((e.bottom - e.top + (size - 1)) / size) size).flatMap fun top =>
    (List.range' e.left ((e.right - e.left + (size - 1)) / size) size).map fun left =>
      ⟨left, top, min (left + size) e.right, min (top + size) e.bottom⟩

/-- The starts of the tiles along one side. -/
theorem mem_tileStarts {size lo hi v : Nat} (positive : 0 < size) :
    v ∈ List.range' lo ((hi - lo + (size - 1)) / size) size ↔ ∃ k, v = lo + size * k ∧ v < hi := by
  rw [List.mem_range']
  constructor
  · rintro ⟨k, bound, rfl⟩
    have room := (Nat.le_div_iff_mul_le positive).mp bound
    rw [Nat.mul_comm, Nat.succ_eq_add_one, Nat.mul_add, Nat.mul_one] at room
    exact ⟨k, rfl, by omega⟩
  · rintro ⟨k, rfl, inside⟩
    refine ⟨k, (Nat.le_div_iff_mul_le positive).mpr ?_, rfl⟩
    rw [Nat.mul_comm, Nat.succ_eq_add_one, Nat.mul_add, Nat.mul_one]
    omega

theorem mem_tiles {size : Nat} {e t : Edges} (positive : 0 < size) : t ∈ e.tiles size ↔
    ∃ i j, t.left = e.left + size * i ∧ t.top = e.top + size * j ∧ t.left < e.right ∧ t.top < e.bottom ∧
      t.right = min (t.left + size) e.right ∧ t.bottom = min (t.top + size) e.bottom := by
  unfold tiles
  simp only [List.mem_flatMap, List.mem_map, mem_tileStarts positive]
  constructor
  · rintro ⟨top, ⟨j, rfl, below⟩, left, ⟨i, rfl, before⟩, rfl⟩
    exact ⟨i, j, rfl, rfl, before, below, rfl, rfl⟩
  · rintro ⟨i, j, left, top, before, below, right, bottom⟩
    refine ⟨t.top, ⟨j, top, below⟩, t.left, ⟨i, left, before⟩, ?_⟩
    rw [← right, ← bottom]

theorem tiles_inside {size : Nat} {e t : Edges} {width height : Nat} (positive : 0 < size)
    (inside : e.Inside width height) (member : t ∈ e.tiles size) : t.Inside width height := by
  obtain ⟨i, j, left, top, before, below, right, bottom⟩ := (mem_tiles positive).mp member
  obtain ⟨_, _, right_le, bottom_le⟩ := inside
  constructor <;> omega

/-- The tiles cover the pixels of the rectangle, and no others. -/
theorem tiles_covers {size : Nat} {e : Edges} (positive : 0 < size) {px py : Nat} :
    (∃ t ∈ e.tiles size, t.Covers px py) ↔ e.Covers px py := by
  simp only [mem_tiles positive, Covers]
  constructor
  · rintro ⟨t, ⟨i, j, left, top, before, below, right, bottom⟩, across, across_lt, down, down_lt⟩
    rw [right] at across_lt
    rw [bottom] at down_lt
    omega
  · rintro ⟨across, across_lt, down, down_lt⟩
    let left := e.left + size * ((px - e.left) / size)
    let top := e.top + size * ((py - e.top) / size)
    have column := Nat.div_add_mod (px - e.left) size
    have columnRest := Nat.mod_lt (px - e.left) positive
    have row := Nat.div_add_mod (py - e.top) size
    have rowRest := Nat.mod_lt (py - e.top) positive
    refine ⟨⟨left, top, min (left + size) e.right, min (top + size) e.bottom⟩, ⟨_, _, rfl, rfl, ?_, ?_, rfl, rfl⟩, ?_⟩
    · dsimp only [left]
      omega
    · dsimp only [top]
      omega
    · dsimp only [left, top]
      omega

/-- No tile is empty or larger than the tile side. -/
theorem tiles_size {size : Nat} {e t : Edges} (positive : 0 < size) (member : t ∈ e.tiles size) :
    (t.left < t.right ∧ t.right ≤ t.left + size) ∧ t.top < t.bottom ∧ t.bottom ≤ t.top + size := by
  obtain ⟨i, j, left, top, before, below, right, bottom⟩ := (mem_tiles positive).mp member
  omega

/-- No pixel is in both rectangles. -/
def Apart (a b : Edges) : Prop := ∀ px py, a.Covers px py → ¬ b.Covers px py

theorem tileStarts_apart {size : Nat} (positive : 0 < size) (lo count : Nat) :
    (List.range' lo count size).Pairwise fun a b => a + size ≤ b := by
  refine List.Pairwise.imp_of_mem (fun {a b} first second before => ?_) (@List.pairwise_lt_range' lo count size positive)
  obtain ⟨i, _, rfl⟩ := List.mem_range'.mp first
  obtain ⟨j, _, rfl⟩ := List.mem_range'.mp second
  have order : i < j := lt_of_mul_lt_mul_left (Nat.lt_of_add_lt_add_left before) (Nat.zero_le size)
  have step : size * (i + 1) ≤ size * j := Nat.mul_le_mul_left size order
  rw [Nat.mul_succ] at step
  omega

/-- The tiles do not overlap. -/
theorem tiles_apart {size : Nat} (positive : 0 < size) (e : Edges) : (e.tiles size).Pairwise Apart := by
  unfold tiles
  rw [List.pairwise_flatMap]
  constructor
  · intro top _
    rw [List.pairwise_map]
    refine (tileStarts_apart positive _ _).imp fun {a b} order px py first second => ?_
    unfold Covers at first second
    dsimp only at first second
    omega
  · refine (tileStarts_apart positive _ _).imp fun {a b} order s sMember t tMember px py first second => ?_
    obtain ⟨_, _, rfl⟩ := List.mem_map.mp sMember
    obtain ⟨_, _, rfl⟩ := List.mem_map.mp tMember
    unfold Covers at first second
    dsimp only at first second
    omega

/-- Tiles of an aligned region are aligned when the tile side is. -/
theorem tiles_aligned {across down : Int} {size : Nat} {r : Region} {t : Edges} {width height : Nat}
    (positive : 0 < size) (within : r.Within width height) (aligned : r.Aligned across down)
    (acrossSize : across ∣ size) (downSize : down ∣ size) (member : t ∈ r.toEdges.tiles size) :
    t.toRegion.Aligned across down := by
  obtain ⟨i, j, left, top, before, below, right, bottom⟩ := (mem_tiles positive).mp member
  obtain ⟨fromLeft, fromTop, wide, tall, _, _⟩ := within
  have leftEq : (t.left : Int) = r.x + size * i := by
    simp only [Region.toEdges] at left
    rw [left]
    push_cast
    omega
  have topEq : (t.top : Int) = r.y + size * j := by
    simp only [Region.toEdges] at top
    rw [top]
    push_cast
    omega
  have leftDvd : across ∣ (t.left : Int) := leftEq ▸ dvd_add aligned.x (dvd_mul_of_dvd_left acrossSize _)
  have topDvd : down ∣ (t.top : Int) := topEq ▸ dvd_add aligned.y (dvd_mul_of_dvd_left downSize _)
  have rightDvd : across ∣ (t.right : Int) := by
    rcases min_choice (t.left + size) r.toEdges.right with same | same
    · rw [right, same]
      push_cast
      exact dvd_add leftDvd acrossSize
    · have far : ((r.toEdges.right : Nat) : Int) = r.x + r.w := by
        simp only [Region.toEdges]
        omega
      rw [right, same, far]
      exact dvd_add aligned.x aligned.w
  have bottomDvd : down ∣ (t.bottom : Int) := by
    rcases min_choice (t.top + size) r.toEdges.bottom with same | same
    · rw [bottom, same]
      push_cast
      exact dvd_add topDvd downSize
    · have far : ((r.toEdges.bottom : Nat) : Int) = r.y + r.h := by
        simp only [Region.toEdges]
        omega
      rw [bottom, same, far]
      exact dvd_add aligned.y aligned.h
  exact ⟨leftDvd, dvd_sub rightDvd leftDvd, topDvd, dvd_sub bottomDvd topDvd⟩

end Edges

/-- The tiles of the candidates in which something changed, in order, each once. -/
def changedTiles (size : Nat) (changed : Edges → Bool) (candidates : List Edges) : List Region :=
  (candidates.flatMap (Edges.tiles size)).foldl
    (fun regions tile => if changed tile then regions.pushUnique tile.toRegion else regions) []

theorem mem_changedTiles {size : Nat} {changed : Edges → Bool} {candidates : List Edges} {r : Region} :
    r ∈ changedTiles size changed candidates ↔
      ∃ e ∈ candidates, ∃ t ∈ e.tiles size, changed t ∧ r = t.toRegion := by
  have loop : ∀ (tiles : List Edges) (regions : List Region),
      r ∈ tiles.foldl (fun regions tile => if changed tile then regions.pushUnique tile.toRegion else regions) regions ↔
      r ∈ regions ∨ ∃ t ∈ tiles, changed t ∧ r = t.toRegion := by
    intro tiles
    induction tiles with
    | nil => simp
    | cons tile tiles ih =>
      intro regions
      rw [List.foldl_cons, ih]
      split
      · rename_i change
        simp only [List.mem_pushUnique, List.mem_cons, exists_eq_or_imp, change, true_and, or_assoc]
      · rename_i same
        simp only [List.mem_cons, exists_eq_or_imp, same, Bool.false_eq_true, false_and, false_or]
  unfold changedTiles
  simp only [loop, List.not_mem_nil, false_or, List.mem_flatMap]
  constructor
  · rintro ⟨t, ⟨e, candidate, member⟩, change⟩
    exact ⟨e, candidate, t, member, change⟩
  · rintro ⟨e, candidate, t, member, change⟩
    exact ⟨t, ⟨e, candidate, member⟩, change⟩

/-- No tile is reported twice. -/
theorem changedTiles_nodup (size : Nat) (changed : Edges → Bool) (candidates : List Edges) :
    (changedTiles size changed candidates).Nodup := by
  unfold changedTiles
  suffices loop : ∀ (tiles : List Edges) (regions : List Region), regions.Nodup →
      (tiles.foldl (fun regions tile => if changed tile then regions.pushUnique tile.toRegion else regions) regions).Nodup from
    loop _ _ List.nodup_nil
  intro tiles
  induction tiles with
  | nil => exact fun _ distinct => distinct
  | cons tile tiles ih =>
    intro regions distinct
    rw [List.foldl_cons]
    split
    · exact ih _ (distinct.pushUnique _)
    · exact ih _ distinct
