import HyprRdp.Capture.Damage

namespace HyprRdp

section Bytes

variable {data reference : Bytes} {width height stride : Nat}

/-- A byte of a row of a rectangle belongs to one of its pixels. -/
theorem rowByte_pixel {row left wide i : Nat} (above : row * stride + left * 4 ≤ i)
    (below : i < row * stride + left * 4 + wide * 4) :
    ∃ px c, c < 4 ∧ left ≤ px ∧ px < left + wide ∧ i = row * stride + px * 4 + c :=
  ⟨left + (i - (row * stride + left * 4)) / 4, (i - (row * stride + left * 4)) % 4, by omega, by omega, by omega, by omega⟩

/-- A tile whose pixels are the same in both buffers counts as unchanged. -/
theorem frameTileChanged_of_same {tile : Region} (within : tile.Within width height) (fits : width * 4 ≤ stride)
    (longData : stride * height ≤ data.len) (longReference : stride * height ≤ reference.len)
    (same : ∀ px py, tile.Covers px py → data.SamePixel reference stride px py) :
    frameTileChanged data reference stride tile = false := by
  obtain ⟨left, top, wide, tall, right, bottom⟩ := within
  unfold frameTileChanged
  rw [if_neg (by omega), List.any_eq_false]
  intro row member
  have inside := List.mem_range.mp member
  have lines : (tile.y.toNat + row + 1) * stride ≤ stride * height := by
    rw [Nat.mul_comm stride height]
    exact Nat.mul_le_mul_right stride (by omega)
  rw [Nat.succ_mul] at lines
  simp only [Bool.or_eq_true, decide_eq_true_eq, not_or, List.any_eq_true, not_exists, not_and, bne_iff_ne, ne_eq, not_not]
  refine ⟨⟨by omega, by omega⟩, fun i run => ?_⟩
  have bounds := List.mem_range'_1.mp run
  obtain ⟨px, c, bound, fromLeft, toRight, rfl⟩ := @rowByte_pixel stride _ _ tile.w.toNat _ bounds.1 (by omega)
  refine same px (tile.y.toNat + row) ?_ c bound
  unfold Region.Covers
  omega

theorem copyRow_byte {start stop i : Nat} (outside : ¬ (start ≤ i ∧ i < stop)) :
    (copyRow data start stop reference).byte i = reference.byte i := by
  unfold copyRow
  split
  · exact if_neg outside
  · rfl

/-- The byte belongs to a pixel of the region. -/
def PixelByte (stride : Nat) (covers : Nat → Nat → Prop) (i : Nat) : Prop :=
  ∃ px py c, c < 4 ∧ covers px py ∧ i = py * stride + px * 4 + c

/-- Copying a region changes no byte but those of its pixels. -/
theorem copyReferenceRegion_byte (columns : width < 2 ^ 31) (rows : height < 2 ^ 31) {region : Region} {i : Nat}
    (outside : ¬ PixelByte stride region.Covers i) :
    (copyReferenceRegion data width height stride reference region).byte i = reference.byte i := by
  unfold copyReferenceRegion
  cases clamp : clampDamageRegion region width height with
  | none => rfl
  | some clamped =>
    obtain ⟨⟨left, top, wide, tall, right, bottom⟩, covers⟩ := clampDamageRegion_some columns rows clamp
    have copied : ∀ (lines : List Nat), (∀ row ∈ lines, row < clamped.h.toNat) → ∀ reference : Bytes,
        (lines.foldl (fun reference row => copyRow data ((clamped.y.toNat + row) * stride + clamped.x.toNat * 4)
          ((clamped.y.toNat + row) * stride + clamped.x.toNat * 4 + clamped.w.toNat * 4) reference) reference).byte i =
        reference.byte i := by
      intro lines
      induction lines with
      | nil => exact fun _ _ => rfl
      | cons row lines ih =>
        intro inside reference
        have here := inside row List.mem_cons_self
        rw [List.foldl_cons, ih fun row member => inside row (List.mem_cons_of_mem _ member)]
        refine copyRow_byte fun ⟨above, below⟩ => outside ?_
        obtain ⟨px, c, bound, fromLeft, toRight, same⟩ := rowByte_pixel above below
        refine ⟨px, clamped.y.toNat + row, c, bound, (covers px _ (by omega) (by omega)).mp ?_, same⟩
        unfold Region.Covers
        omega
    exact copied _ (fun row member => List.mem_range.mp member) reference

theorem copyReferenceRegions_byte (columns : width < 2 ^ 31) (rows : height < 2 ^ 31) (regions : List Region) {i : Nat}
    (outside : ¬ PixelByte stride (Covered regions) i) :
    (regions.foldl (copyReferenceRegion data width height stride) reference).byte i = reference.byte i := by
  induction regions generalizing reference with
  | nil => rfl
  | cons region regions ih =>
    have later : ¬ PixelByte stride (Covered regions) i := fun ⟨px, py, c, bound, covered, same⟩ =>
      outside ⟨px, py, c, bound, (Covered.cons region regions px py).mpr (.inr covered), same⟩
    have here : ¬ PixelByte stride region.Covers i := fun ⟨px, py, c, bound, covered, same⟩ =>
      outside ⟨px, py, c, bound, (Covered.cons region regions px py).mpr (.inl covered), same⟩
    rw [List.foldl_cons, ih later, copyReferenceRegion_byte columns rows here]

end Bytes

namespace FrameDiffDamageDetector

variable {d : FrameDiffDamageDetector} {data reference : Bytes} {width height stride : Nat}

theorem updateReferenceRegions_eq (holds : d.Holds stride height reference) (regions : List Region) :
    d.updateReferenceRegions data width height stride regions =
      { d with referenceFrame := some (regions.foldl (copyReferenceRegion data width height stride) reference) } := by
  have sameStride := holds.strideEq
  have long := holds.long
  unfold updateReferenceRegions
  rw [holds.frame]
  dsimp only
  rw [if_neg (by omega)]

/-- With a usable reference the detected regions are the changed tiles. -/
theorem mem_detect (holds : d.Holds stride height reference) (longData : stride * height ≤ data.len)
    (candidates : List Region) (r : Region) :
    r ∈ d.detect data width height stride candidates ↔
      ∃ c ∈ candidates, ∃ k, clampDamageRegion c width height = some k ∧
        ∃ t ∈ k.toEdges.tiles damageTileSize, frameTileChanged data reference stride t.toRegion = true ∧ r = t.toRegion := by
  have sameStride := holds.strideEq
  have long := holds.long
  unfold detect
  rw [holds.frame]
  dsimp only
  rw [if_neg (by omega), mem_changedTiles]
  constructor
  · rintro ⟨_, candidate, found⟩
    obtain ⟨k, isClamped, rfl⟩ := List.mem_map.mp candidate
    obtain ⟨c, member, clamp⟩ := List.mem_filterMap.mp isClamped
    exact ⟨c, member, k, clamp, found⟩
  · rintro ⟨c, member, k, clamp, found⟩
    exact ⟨_, List.mem_map_of_mem (List.mem_filterMap.mpr ⟨c, member, clamp⟩), found⟩

theorem detect_nodup (holds : d.Holds stride height reference) (longData : stride * height ≤ data.len)
    (candidates : List Region) : (d.detect data width height stride candidates).Nodup := by
  have sameStride := holds.strideEq
  have long := holds.long
  unfold detect
  rw [holds.frame]
  dsimp only
  rw [if_neg (by omega)]
  exact changedTiles_nodup _ _ _

/-- After the update the reference shows the data wherever the candidates reach. -/
theorem update_settles (columns : width < 2 ^ 31) (rows : height < 2 ^ 31) (holds : d.Holds stride height reference)
    (longData : stride * height ≤ data.len) (fits : width * 4 ≤ stride) (candidates : List Region) :
    let found := d.detect data width height stride candidates
    let after := found.foldl (copyReferenceRegion data width height stride) reference
    (d.updateReferenceRegions data width height stride found).Holds stride height after ∧
      ∀ px py, px < width → py < height → Covered candidates px py → data.SamePixel after stride px py := by
  intro found after
  have length : after.len = reference.len := copyReferenceRegions_len _
  refine ⟨?_, fun px py column row covered => ?_⟩
  · rw [updateReferenceRegions_eq holds]
    exact ⟨rfl, holds.strideEq, length.symm ▸ holds.long⟩
  · obtain ⟨set, kept⟩ := copyReferenceRegions_pixel columns rows fits longData found holds.long column row
    by_cases detected : Covered found px py
    · exact (set detected).symm
    · have same : data.SamePixel reference stride px py := by
        by_contra differs
        exact detected ((detect_holds columns rows holds longData candidates).2 px py column row covered differs)
      exact same.trans (kept detected).symm

/-- One clamped rectangle inside another. -/
def Contains (outer inner : Region) : Prop :=
  outer.x ≤ inner.x ∧ outer.y ≤ inner.y ∧ inner.x + inner.w ≤ outer.x + outer.w ∧ inner.y + inner.h ≤ outer.y + outer.h

/-- Detection finds every changed pixel of the candidates, in tiles that each hold one, and the update settles all of them. -/
theorem detect_exact (holds : d.Holds stride height reference) (longData : stride * height ≤ data.len)
    (fits : width * 4 ≤ stride) (columns : width ≤ 2 ^ 31 - 65) (rows : height ≤ 2 ^ 31 - 65) (candidates : List Region) :
    let found := d.detect data width height stride candidates
    let updated := d.updateReferenceRegions data width height stride found
    (∀ px py, px < width → py < height → Covered candidates px py → ¬ data.SamePixel reference stride px py →
      Covered found px py) ∧
    found.Nodup ∧
    (∀ r ∈ found, (r.w ≤ 64 ∧ r.h ≤ 64) ∧
      (∃ c ∈ candidates, ∃ k, clampDamageRegion c width height = some k ∧ Contains k r) ∧
      ∃ px py, r.Covers px py ∧ ¬ data.SamePixel reference stride px py) ∧
    updated.detect data width height stride candidates = [] ∧
    ∃ after, updated.Holds stride height after ∧ after.len = reference.len ∧
      ∀ i, ¬ PixelByte stride (Covered found) i → after.byte i = reference.byte i := by
  have columns' : width < 2 ^ 31 := by omega
  have rows' : height < 2 ^ 31 := by omega
  have size : 0 < damageTileSize := by decide
  intro found updated
  obtain ⟨_, finds⟩ := detect_holds columns' rows' holds longData candidates
  have mem := @mem_detect d data reference width height stride holds longData candidates
  have tileWithin {c k : Region} (clamp : clampDamageRegion c width height = some k) {t : Edges}
      (tile : t ∈ k.toEdges.tiles damageTileSize) : t.toRegion.Within width height :=
    Region.toRegion_within (Edges.tiles_inside size (clampDamageRegion_some columns' rows' clamp).1.toEdges.1 tile)
  obtain ⟨settled, same⟩ := update_settles columns' rows' holds longData fits candidates
  refine ⟨finds, detect_nodup holds longData candidates, fun r member => ?_, ?_, ?_⟩
  · obtain ⟨c, candidate, k, clamp, t, tile, changed, rfl⟩ := (mem r).mp member
    have within := (clampDamageRegion_some columns' rows' clamp).1
    obtain ⟨⟨_, wide⟩, _, tall⟩ := Edges.tiles_size size tile
    obtain ⟨i, j, left, top, before, below, right, bottom⟩ := (Edges.mem_tiles size).mp tile
    obtain ⟨fromLeft, fromTop, acrossPos, downPos, _, _⟩ := within
    refine ⟨?_, ⟨c, candidate, k, clamp, ?_⟩, ?_⟩
    · unfold Edges.toRegion
      dsimp only [damageTileSize] at *
      omega
    · unfold Contains Edges.toRegion
      simp only [Region.toEdges] at *
      omega
    · by_contra none
      have same : ∀ px py, t.toRegion.Covers px py → data.SamePixel reference stride px py := by
        intro px py covers
        by_contra differs
        exact none ⟨px, py, covers, differs⟩
      rw [frameTileChanged_of_same (tileWithin clamp tile) fits longData holds.long same] at changed
      cases changed
  · refine List.eq_nil_iff_forall_not_mem.mpr fun r member => ?_
    obtain ⟨c, candidate, k, clamp, t, tile, changed, rfl⟩ := (mem_detect settled longData candidates r).mp member
    obtain ⟨within, covers⟩ := clampDamageRegion_some columns' rows' clamp
    obtain ⟨inside, back⟩ := within.toEdges
    have tileSame : ∀ px py, t.toRegion.Covers px py →
        data.SamePixel (found.foldl (copyReferenceRegion data width height stride) reference) stride px py := by
      intro px py covered
      have inTile := (Region.covers_toRegion t px py).mp covered
      have inClamped := (Edges.tiles_covers size).mp ⟨t, tile, inTile⟩
      rw [← Region.covers_toRegion, back] at inClamped
      obtain ⟨_, _, _, _, right, bottom⟩ := tileWithin clamp tile
      have bounds := covered
      unfold Region.Covers at bounds
      exact same px py (by omega) (by omega) ⟨c, candidate, (covers px py (by omega) (by omega)).mp inClamped⟩
    rw [frameTileChanged_of_same (tileWithin clamp tile) fits longData settled.long tileSame] at changed
    cases changed
  · refine ⟨_, settled, copyReferenceRegions_len _, fun i outside => copyReferenceRegions_byte columns' rows' _ outside⟩

/-- One pixel changed in a frame of two columns and one row. -/
theorem detect_exact_once :
    let d : FrameDiffDamageDetector := ⟨some (.zeros 8), 8⟩
    let found := d.detect ((Bytes.zeros 8).set 5 1) 2 1 8 [.full 2 1]
    (d.updateReferenceRegions ((Bytes.zeros 8).set 5 1) 2 1 8 found).detect ((Bytes.zeros 8).set 5 1) 2 1 8 [.full 2 1] = [] :=
  (@detect_exact ⟨some (.zeros 8), 8⟩ ((Bytes.zeros 8).set 5 1) (.zeros 8) 2 1 8 ⟨rfl, rfl, by decide⟩ (by decide) (by decide)
    (by decide) (by decide) [.full 2 1]).2.2.2.1

end FrameDiffDamageDetector

end HyprRdp
