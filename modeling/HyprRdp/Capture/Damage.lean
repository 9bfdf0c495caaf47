import HyprRdp.Lib.RegionList

namespace HyprRdp

def damageTileSize : Nat := 64

def damageMergeDistance : Int := 16

/-- The reference is the last frame that was sent to the client, with its stride. -/
structure FrameDiffDamageDetector where
  referenceFrame : Option Bytes
  referenceStride : Nat

def clampDamageRegion (r : Region) (width height : Nat) : Option Region :=
  if width < 2 ^ 31 ∧ height < 2 ^ 31 then (r.clip (saturatingAdd 32) width height).map Edges.toRegion else none

def damageRegionsAreNear (mergeDistance : Int) (a b : Region) : Bool :=
  let aRight := saturatingAdd 32 a.x a.w
  let aBottom := saturatingAdd 32 a.y a.h
  let bRight := saturatingAdd 32 b.x b.w
  let bBottom := saturatingAdd 32 b.y b.h
  let gapX := if aRight ≤ b.x then b.x - aRight else saturatingAdd 32 a.x (-bRight)
  let gapY := if aBottom ≤ b.y then b.y - aBottom else saturatingAdd 32 a.y (-bBottom)
  decide (gapX ≤ mergeDistance ∧ gapY ≤ mergeDistance)

def mergeDamageRegion (pending : List Region) (region : Region) : List Region :=
  Region.mergeInto (damageRegionsAreNear damageMergeDistance) pending region

/-- Whether the bytes of a tile differ; a row that either buffer does not hold counts as changed. -/
def frameTileChanged (current reference : Bytes) (stride : Nat) (tile : Region) : Bool :=
  if tile.x < 0 ∨ tile.y < 0 ∨ tile.w ≤ 0 ∨ tile.h ≤ 0 then false
  else
    (List.range tile.h.toNat).any fun row =>
      let start := (tile.y.toNat + row) * stride + tile.x.toNat * 4
      let stop := start + tile.w.toNat * 4
      decide (current.len < stop) || decide (reference.len < stop) ||
        (List.range' start (stop - start)).any fun i => current.byte i != reference.byte i

def copyRow (data : Bytes) (start stop : Nat) (reference : Bytes) : Bytes :=
  if stop ≤ data.len ∧ stop ≤ reference.len then
    { reference with byte := fun i => if start ≤ i ∧ i < stop then data.byte i else reference.byte i }
  else reference

def copyReferenceRegion (data : Bytes) (width height stride : Nat) (reference : Bytes) (region : Region) : Bytes :=
  match clampDamageRegion region width height with
  | none => reference
  | some ⟨left, top, regionW, regionH⟩ =>
    (List.range regionH.toNat).foldl
      (fun reference row =>
        let start := (top.toNat + row) * stride + left.toNat * 4
        copyRow data start (start + regionW.toNat * 4) reference)
      reference

namespace FrameDiffDamageDetector

def new : FrameDiffDamageDetector := ⟨none, 0⟩

def invalidate (_ : FrameDiffDamageDetector) : FrameDiffDamageDetector := ⟨none, 0⟩

def updateReference (_ : FrameDiffDamageDetector) (data : Bytes) (height stride : Nat) : FrameDiffDamageDetector :=
  ⟨some { data with len := min (stride * height) data.len }, stride⟩

def updateReferenceRegions (d : FrameDiffDamageDetector) (data : Bytes) (width height stride : Nat)
    (regions : List Region) : FrameDiffDamageDetector :=
  let frameLen := stride * height
  match d.referenceFrame with
  | none => d.updateReference data height stride
  | some reference =>
    if d.referenceStride ≠ stride ∨ reference.len < frameLen then d.updateReference data height stride
    else { d with referenceFrame := some (regions.foldl (copyReferenceRegion data width height stride) reference) }

/-- The changed tiles of the candidates, or the whole frame when there is
nothing to compare with. -/
def detect (d : FrameDiffDamageDetector) (data : Bytes) (width height stride : Nat) (candidates : List Region) :
    List Region :=
  match d.referenceFrame with
  | none => [.full width height]
  | some reference =>
    let frameLen := stride * height
    if d.referenceStride ≠ stride ∨ reference.len < frameLen ∨ data.len < frameLen then [.full width height]
    else
      changedTiles damageTileSize (fun tile => frameTileChanged data reference stride tile.toRegion)
        ((candidates.filterMap fun r => clampDamageRegion r width height).map Region.toEdges)

end FrameDiffDamageDetector

section Clamping

variable {width height : Nat}

theorem clampDamageRegion_some (columns : width < 2 ^ 31) (rows : height < 2 ^ 31) {r clamped : Region}
    (run : clampDamageRegion r width height = some clamped) :
    clamped.Within width height ∧ ∀ px py, px < width → py < height → (clamped.Covers px py ↔ r.Covers px py) := by
  unfold clampDamageRegion at run
  rw [if_pos ⟨columns, rows⟩, Region.clip_saturating_32 columns rows] at run
  obtain ⟨e, clipped, rfl⟩ := Option.map_eq_some_iff.mp run
  refine ⟨Region.toRegion_within (Region.clip_inside clipped), fun px py column row => ?_⟩
  rw [Region.covers_toRegion, Region.clip_covers clipped]
  simp only [column, row, true_and]

theorem clampDamageRegion_none (columns : width < 2 ^ 31) (rows : height < 2 ^ 31) {r : Region}
    (run : clampDamageRegion r width height = none) {px py : Nat} (column : px < width) (row : py < height) :
    ¬ r.Covers px py := by
  unfold clampDamageRegion at run
  rw [if_pos ⟨columns, rows⟩, Region.clip_saturating_32 columns rows] at run
  exact Region.clip_none (Option.map_eq_none_iff.mp run) column row

end Clamping

/-- A pixel of a row that fits the stride lies in a byte run of another row's
pixels exactly when it is one of them. -/
theorem mem_rowBytes {stride px py c left wide row : Nat} (pixel : px * 4 + c < stride) (bound : c < 4)
    (fits : (left + wide) * 4 ≤ stride) :
    (row * stride + left * 4 ≤ py * stride + px * 4 + c ∧
      py * stride + px * 4 + c < row * stride + left * 4 + wide * 4) ↔
      py = row ∧ left ≤ px ∧ px < left + wide := by
  constructor
  · rintro ⟨above, below⟩
    have distance : py * stride + (px * 4 + c) =
        row * stride + (left * 4 + (py * stride + px * 4 + c - (row * stride + left * 4))) := by omega
    obtain ⟨rows, columns⟩ := offset_inj (by omega) (by omega) distance
    omega
  · rintro ⟨rfl, fromLeft, toRight⟩
    omega

section Merging

variable {width height : Nat} {pending : List Region} {region : Region}

theorem mergeDamageRegion_within (columns : width < 2 ^ 31) (rows : height < 2 ^ 31)
    (all : ∀ r ∈ pending, r.Within width height) (one : region.Within width height) :
    ∀ r ∈ mergeDamageRegion pending region, r.Within width height :=
  Region.mergeInto_forall (fun _ _ first second => first.union columns rows second) _ all one

theorem mergeDamageRegion_covered (columns : width < 2 ^ 31) (rows : height < 2 ^ 31)
    (all : ∀ r ∈ pending, r.Within width height) (one : region.Within width height) {px py : Nat}
    (covered : Covered pending px py ∨ region.Covers px py) : Covered (mergeDamageRegion pending region) px py :=
  Region.mergeInto_covered columns rows _ all one covered

end Merging

section Reference

variable {data reference : Bytes} {width height stride : Nat}

@[simp] theorem copyRow_len (start stop : Nat) : (copyRow data start stop reference).len = reference.len := by
  unfold copyRow
  split <;> rfl

/-- One row of a clamped region: its pixels become the data's, the others stay. -/
theorem copyRow_pixel (row py : Nat) {left wide px : Nat} (fits : (left + wide) * 4 ≤ stride)
    (longData : (row + 1) * stride ≤ data.len) (longReference : (row + 1) * stride ≤ reference.len)
    (pixel : (px + 1) * 4 ≤ stride) :
    let copied := copyRow data (row * stride + left * 4) (row * stride + left * 4 + wide * 4) reference
    (py = row ∧ left ≤ px ∧ px < left + wide → copied.SamePixel data stride px py) ∧
    (¬ (py = row ∧ left ≤ px ∧ px < left + wide) → copied.SamePixel reference stride px py) := by
  have next : (row + 1) * stride = row * stride + stride := Nat.succ_mul row stride
  unfold copyRow
  rw [if_pos (by omega)]
  constructor
  · intro inside c bound
    dsimp only
    rw [if_pos ((mem_rowBytes (by omega) bound fits).mpr inside)]
  · intro outside c bound
    dsimp only
    rw [if_neg fun bytes => outside ((mem_rowBytes (by omega) bound fits).mp bytes)]

theorem copyRows_len (data reference : Bytes) (start stop : Nat → Nat) (rows : List Nat) :
    (rows.foldl (fun reference row => copyRow data (start row) (stop row) reference) reference).len = reference.len :=
  foldl_keep (fun _ _ => copyRow_len _ _) rows reference

theorem copyReferenceRegions_len (regions : List Region) :
    (regions.foldl (copyReferenceRegion data width height stride) reference).len = reference.len := by
  refine foldl_keep (fun s region => ?_) regions reference
  unfold copyReferenceRegion
  split
  · rfl
  · exact copyRows_len _ _ _ _ _

theorem copyRows_pixel (top count py : Nat) {left wide px : Nat} (fits : (left + wide) * 4 ≤ stride)
    (longData : (top + count) * stride ≤ data.len) (longReference : (top + count) * stride ≤ reference.len)
    (pixel : (px + 1) * 4 ≤ stride) :
    let copied := (List.range count).foldl
      (fun reference row =>
        copyRow data ((top + row) * stride + left * 4) ((top + row) * stride + left * 4 + wide * 4) reference)
      reference
    ((top ≤ py ∧ py < top + count) ∧ left ≤ px ∧ px < left + wide → copied.SamePixel data stride px py) ∧
    (¬ ((top ≤ py ∧ py < top + count) ∧ left ≤ px ∧ px < left + wide) → copied.SamePixel reference stride px py) := by
  induction count with
  | zero => exact ⟨fun inside => by omega, fun _ => .refl _ _ _ _⟩
  | succ count ih =>
    have less : (top + count) * stride + stride = (top + (count + 1)) * stride := (Nat.succ_mul _ _).symm
    obtain ⟨reached, untouched⟩ := ih (by omega) (by omega)
    have length := copyRows_len data reference (fun row => (top + row) * stride + left * 4)
      (fun row => (top + row) * stride + left * 4 + wide * 4) (List.range count)
    rw [List.range_succ, List.foldl_append]
    simp only [List.foldl_cons, List.foldl_nil]
    generalize (List.range count).foldl _ reference = before at length reached untouched ⊢
    rw [← Nat.add_assoc] at longData longReference
    have last := copyRow_pixel (top + count) py fits longData (length.symm ▸ longReference) pixel
    refine ⟨fun inside => ?_, fun outside => ?_⟩
    · by_cases here : py = top + count
      · exact last.1 ⟨here, inside.2⟩
      · exact (last.2 (by omega)).trans (reached (by omega))
    · exact (last.2 (by omega)).trans (untouched (by omega))

/-- Copying a region makes its visible pixels equal to the data's and leaves the others. -/
theorem copyReferenceRegion_pixel (columns : width < 2 ^ 31) (rows : height < 2 ^ 31) (fits : width * 4 ≤ stride)
    (longData : stride * height ≤ data.len) (longReference : stride * height ≤ reference.len) (region : Region)
    {px py : Nat} (column : px < width) (row : py < height) :
    let copied := copyReferenceRegion data width height stride reference region
    (region.Covers px py → copied.SamePixel data stride px py) ∧
      (¬ region.Covers px py → copied.SamePixel reference stride px py) := by
  unfold copyReferenceRegion
  cases clamp : clampDamageRegion region width height with
  | none =>
    refine ⟨fun covers => ?_, fun _ => .refl _ _ _ _⟩
    exact absurd covers (clampDamageRegion_none columns rows clamp column row)
  | some clamped =>
    obtain ⟨⟨left, top, wide, tall, right, bottom⟩, covers⟩ := clampDamageRegion_some columns rows clamp
    have lines : (clamped.y.toNat + clamped.h.toNat) * stride ≤ stride * height := by
      rw [Nat.mul_comm stride height]
      exact Nat.mul_le_mul_right stride (by omega)
    have across : (clamped.x.toNat + clamped.w.toNat) * 4 ≤ stride := by omega
    have pixel : (px + 1) * 4 ≤ stride := by omega
    obtain ⟨reached, untouched⟩ := copyRows_pixel clamped.y.toNat clamped.h.toNat py across
      (lines.trans longData) (lines.trans longReference) pixel
    have inside := covers px py column row
    refine ⟨fun covered => reached ?_, fun outside => untouched ?_⟩
    · obtain ⟨fromLeft, toRight, fromTop, toBottom⟩ := inside.mpr covered
      omega
    · intro within
      refine outside (inside.mp ?_)
      unfold Region.Covers
      omega

theorem copyReferenceRegions_pixel (columns : width < 2 ^ 31) (rows : height < 2 ^ 31) (fits : width * 4 ≤ stride)
    (longData : stride * height ≤ data.len) (regions : List Region) (longReference : stride * height ≤ reference.len)
    {px py : Nat} (column : px < width) (row : py < height) :
    let copied := regions.foldl (copyReferenceRegion data width height stride) reference
    (Covered regions px py → copied.SamePixel data stride px py) ∧
      (¬ Covered regions px py → copied.SamePixel reference stride px py) := by
  induction regions generalizing reference with
  | nil => exact ⟨fun covered => absurd covered (Covered.nil px py), fun _ => .refl _ _ _ _⟩
  | cons region regions ih =>
    have length : (copyReferenceRegion data width height stride reference region).len = reference.len :=
      copyReferenceRegions_len [region]
    obtain ⟨set, kept⟩ := copyReferenceRegion_pixel columns rows fits longData longReference region column row
    obtain ⟨restSet, restKept⟩ := ih (length.symm ▸ longReference)
    refine ⟨fun covered => ?_, fun outside => ?_⟩
    · by_cases later : Covered regions px py
      · exact restSet later
      · have here := ((Covered.cons region regions px py).mp covered).resolve_right later
        exact (restKept later).trans (set here)
    · rw [Covered.cons, not_or] at outside
      exact (restKept outside.2).trans (kept outside.1)

end Reference

namespace FrameDiffDamageDetector

variable {d : FrameDiffDamageDetector} {data reference : Bytes} {width height stride : Nat}

/-- A reference that the detector will compare with: of the frame's stride and long enough. -/
structure Holds (d : FrameDiffDamageDetector) (stride height : Nat) (reference : Bytes) : Prop where
  frame : d.referenceFrame = some reference
  strideEq : d.referenceStride = stride
  long : stride * height ≤ reference.len

theorem updateReference_holds (longData : stride * height ≤ data.len) :
    (d.updateReference data height stride).Holds stride height { data with len := min (stride * height) data.len } :=
  ⟨rfl, rfl, by dsimp only; omega⟩

/-- After an update the reference shows the data inside the regions, and what
it showed before elsewhere; without a usable reference it is the whole frame. -/
theorem updateReferenceRegions_holds (columns : width < 2 ^ 31) (rows : height < 2 ^ 31) (fits : width * 4 ≤ stride)
    (longData : stride * height ≤ data.len) (regions : List Region) :
    ∃ updated, (d.updateReferenceRegions data width height stride regions).Holds stride height updated ∧
      ∀ px py, px < width → py < height →
        (Covered regions px py → updated.SamePixel data stride px py) ∧
        ∀ before, d.Holds stride height before → ¬ Covered regions px py → updated.SamePixel before stride px py := by
  unfold updateReferenceRegions
  cases frame : d.referenceFrame with
  | none =>
    refine ⟨_, updateReference_holds longData, fun px py _ _ => ⟨fun _ => .refl _ _ _ _, fun before holds => ?_⟩⟩
    exact absurd (frame.symm.trans holds.frame) (by simp)
  | some reference =>
    dsimp only
    by_cases unusable : d.referenceStride ≠ stride ∨ reference.len < stride * height
    · rw [if_pos unusable]
      refine ⟨_, updateReference_holds longData, fun px py _ _ => ⟨fun _ => .refl _ _ _ _, fun before holds => ?_⟩⟩
      cases Option.some.inj (frame.symm.trans holds.frame)
      have long := holds.long
      have sameStride := holds.strideEq
      omega
    · rw [if_neg unusable]
      rw [not_or, not_not, not_lt] at unusable
      obtain ⟨sameStride, long⟩ := unusable
      refine ⟨_, ⟨rfl, sameStride, (copyReferenceRegions_len regions).symm ▸ long⟩, fun px py column row => ?_⟩
      obtain ⟨set, kept⟩ := copyReferenceRegions_pixel columns rows fits longData regions long column row
      refine ⟨set, fun before holds outside => ?_⟩
      cases Option.some.inj (frame.symm.trans holds.frame)
      exact kept outside

/-- A tile that counts as unchanged shows the same pixels in both buffers. -/
theorem frameTileChanged_false {tile : Region} (within : tile.Within width height)
    (same : frameTileChanged data reference stride tile = false) {px py : Nat} (covers : tile.Covers px py) :
    data.SamePixel reference stride px py := by
  obtain ⟨left, top, wide, tall, right, bottom⟩ := within
  obtain ⟨fromLeft, toRight, fromTop, toBottom⟩ := covers
  unfold frameTileChanged at same
  rw [if_neg (by omega), List.any_eq_false] at same
  have rowSame := same (py - tile.y.toNat) (List.mem_range.mpr (by omega))
  simp only [Bool.or_eq_true, not_or, List.any_eq_true, not_exists, not_and, bne_iff_ne, ne_eq, not_not] at rowSame
  intro c bound
  have line : tile.y.toNat + (py - tile.y.toNat) = py := by omega
  rw [line] at rowSame
  exact rowSame.2 _ (List.mem_range'_1.mpr (by omega))

theorem detect_none (frame : d.referenceFrame = none) (data : Bytes) (width height stride : Nat)
    (candidates : List Region) : d.detect data width height stride candidates = [.full width height] := by
  unfold detect
  rw [frame]

/-- With a usable reference the detected regions are tiles of the frame that
cover every candidate pixel whose bytes differ from the reference. -/
theorem detect_holds (columns : width < 2 ^ 31) (rows : height < 2 ^ 31) (holds : d.Holds stride height reference)
    (longData : stride * height ≤ data.len) (candidates : List Region) :
    (∀ r ∈ d.detect data width height stride candidates, r.Within width height) ∧
    ∀ px py, px < width → py < height → Covered candidates px py → ¬ data.SamePixel reference stride px py →
      Covered (d.detect data width height stride candidates) px py := by
  have size : 0 < damageTileSize := by decide
  have usable : ¬ (d.referenceStride ≠ stride ∨ reference.len < stride * height ∨ data.len < stride * height) := by
    have sameStride := holds.strideEq
    have long := holds.long
    omega
  unfold detect
  rw [holds.frame]
  dsimp only
  rw [if_neg usable]
  constructor
  · intro r member
    obtain ⟨e, candidate, t, tile, _, rfl⟩ := mem_changedTiles.mp member
    obtain ⟨clamped, isClamped, rfl⟩ := List.mem_map.mp candidate
    obtain ⟨c, _, clamp⟩ := List.mem_filterMap.mp isClamped
    have inside := (clampDamageRegion_some columns rows clamp).1.toEdges.1
    exact Region.toRegion_within (Edges.tiles_inside size inside tile)
  · rintro px py column row ⟨c, candidate, covers⟩ differs
    cases clamp : clampDamageRegion c width height with
    | none => exact absurd covers (clampDamageRegion_none columns rows clamp column row)
    | some clamped =>
      obtain ⟨within, sameCover⟩ := clampDamageRegion_some columns rows clamp
      obtain ⟨inside, back⟩ := within.toEdges
      have edges : clamped.toEdges.Covers px py := by
        rw [← Region.covers_toRegion, back]
        exact (sameCover px py column row).mpr covers
      obtain ⟨t, tile, covered⟩ := (Edges.tiles_covers size).mpr edges
      have isCandidate : clamped.toEdges ∈
          (candidates.filterMap fun r => clampDamageRegion r width height).map Region.toEdges :=
        List.mem_map_of_mem (List.mem_filterMap.mpr ⟨c, candidate, clamp⟩)
      have change : frameTileChanged data reference stride t.toRegion = true := by
        by_contra same
        exact differs (frameTileChanged_false (Region.toRegion_within (Edges.tiles_inside size inside tile))
          (Bool.eq_false_iff.mpr same) ((Region.covers_toRegion t px py).mpr covered))
      exact ⟨t.toRegion, mem_changedTiles.mpr ⟨_, isCandidate, t, tile, change, rfl⟩,
        (Region.covers_toRegion t px py).mpr covered⟩

end FrameDiffDamageDetector

end HyprRdp
