import HyprRdp.Lib.Raster

namespace HyprRdp

structure Avc420Region where
  edges : Edges
  quantizationParameter : Nat
  quality : Nat
  deriving DecidableEq, Repr

def avc420RegionQuality (qp : Nat) : Nat := 100 - qp % 64

def avc420FullFrameRegion (width height qp : Nat) : Avc420Region :=
  ⟨⟨0, 0, width, height⟩, qp, avc420RegionQuality qp⟩

def damageRegionsToAvc420 (damageRegions : List Region) (width height qp : Nat) : List Avc420Region :=
  damageRegions.filterMap fun r =>
    (r.clip (saturatingAdd 32) width height).map fun edges => ⟨edges, qp, avc420RegionQuality qp⟩

/-- The regions on the wire cover the damage inside the frame, and nothing else. -/
theorem damageRegionsToAvc420_covers {width height : Nat} (columns : width < 2 ^ 31) (rows : height < 2 ^ 31)
    (damage : List Region) (qp : Nat) {px py : Nat} :
    (∃ r ∈ damageRegionsToAvc420 damage width height qp, r.edges.Covers px py) ↔
      px < width ∧ py < height ∧ Covered damage px py := by
  unfold damageRegionsToAvc420
  simp only [List.mem_filterMap, Region.clip_saturating_32 columns rows]
  constructor
  · rintro ⟨_, ⟨r, member, run⟩, covers⟩
    obtain ⟨e, clipped, rfl⟩ := Option.map_eq_some_iff.mp run
    obtain ⟨column, row, inside⟩ := (Region.clip_covers clipped px py).mp covers
    exact ⟨column, row, r, member, inside⟩
  · rintro ⟨column, row, r, member, inside⟩
    cases clipped : r.clip (· + ·) width height with
    | none => exact absurd inside (Region.clip_none clipped column row)
    | some e =>
      exact ⟨_, ⟨r, member, Option.map_eq_some_iff.mpr ⟨e, clipped, rfl⟩⟩,
        (Region.clip_covers clipped px py).mpr ⟨column, row, inside⟩⟩

end HyprRdp
