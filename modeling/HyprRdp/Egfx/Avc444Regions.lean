import HyprRdp.Egfx.Yuv420
import Mathlib.Algebra.Group.Basic

namespace HyprRdp

def detectYuv420Regions (width height : Nat) (p : Yuv420) (reference : Option Yuv420) (candidateRegions : List Region) :
    List Region :=
  match reference with
  | none => [.full width height]
  | some reference =>
    changedTiles 64 (yuv420TileChanged p reference) (candidateRegions.filterMap fun r => clampRegion r width height)

def regionsOverlapOrTouch (a b : Region) : Bool :=
  let aRight := saturatingAdd 32 a.x a.w
  let aBottom := saturatingAdd 32 a.y a.h
  let bRight := saturatingAdd 32 b.x b.w
  let bBottom := saturatingAdd 32 b.y b.h
  decide (a.x ≤ bRight ∧ b.x ≤ aRight ∧ a.y ≤ bBottom ∧ b.y ≤ aBottom)

def mergeRegion (regions : List Region) (region : Region) : List Region :=
  Region.mergeInto regionsOverlapOrTouch regions region

def alignRegion (width height : Nat) (xAlignment yAlignment : Int) (r : Region) : Option Region :=
  if r.w ≤ 0 ∨ r.h ≤ 0 then none
  else
    let left := alignDown (r.x.clampTo width) xAlignment
    let top := alignDown (r.y.clampTo height) yAlignment
    let right : Int := (alignUp ((saturatingAdd 32 r.x r.w).clampTo width) xAlignment).clampTo width
    let bottom : Int := (alignUp ((saturatingAdd 32 r.y r.h).clampTo height) yAlignment).clampTo height
    if left < right ∧ top < bottom then some ⟨left, top, right - left, bottom - top⟩ else none

def alignRegions (width height : Nat) (regions : List Region) (xAlignment yAlignment : Int) : List Region :=
  if width < 2 ^ 31 ∧ height < 2 ^ 31 then
    (regions.filterMap (alignRegion width height xAlignment yAlignment)).foldl mergeRegion []
  else []

def alignAvc444V2ProtocolRegions (width height : Nat) (regions : List Region) : List Region :=
  alignRegions width height regions 4 2

/-- The two places of the packed auxiliary picture that hold a region's chroma. -/
def avc444V2ChromaPackedCandidates (width height : Nat) (region : Region) : List Region :=
  match clampRegion region width height with
  | none => []
  | some e =>
    let packedLeft := e.left / 2
    let packedRight := (e.right + 1) / 2
    let packedWidth := packedRight - packedLeft
    if packedWidth = 0 then []
    else
      [⟨packedLeft, e.top, packedWidth, (e.bottom - e.top : Nat)⟩,
        ⟨(width / 2 + packedLeft : Nat), e.top, packedWidth, (e.bottom - e.top : Nat)⟩]

/-- The part of a packed rectangle in one half of the picture, in frame coordinates. -/
def packedSegmentToProtocol (width height : Nat) (e : Edges) (halfLeft halfRight : Nat) : Option Region :=
  let segmentLeft := max e.left halfLeft
  let segmentRight := min e.right halfRight
  if segmentRight ≤ segmentLeft then none
  else
    let packedLeft := segmentLeft - halfLeft
    let packedRight := segmentRight - halfLeft
    let protocolLeft := alignDown (packedLeft * 2 : Nat) 4
    let protocolTop := alignDown e.top 2
    let protocolRight : Int := (alignUp (packedRight * 2 : Nat) 4).clampTo width
    let protocolBottom : Int := (alignUp e.bottom 2).clampTo height
    if protocolLeft < protocolRight ∧ protocolTop < protocolBottom then
      some ⟨protocolLeft, protocolTop, protocolRight - protocolLeft, protocolBottom - protocolTop⟩
    else none

def avc444V2ChromaPackedRegionToProtocolRegions (width height : Nat) (region : Region) : List Region :=
  match clampRegion region width height with
  | none => []
  | some e =>
    let halfWidth := width / 2
    if halfWidth = 0 then []
    else
      ([(0, halfWidth), (halfWidth, width)].filterMap fun half =>
        packedSegmentToProtocol width height e half.1 half.2).foldl mergeRegion []

/-- The changed places of the packed auxiliary picture and the frame regions they belong to. -/
def detectAvc444V2ChromaRegions (width height : Nat) (p : Yuv420) (reference : Option Yuv420)
    (protocolCandidates : List Region) : List Region × List Region :=
  match reference with
  | none => ([.full width height], [.full width height])
  | some _ =>
    protocolCandidates.foldl
      (fun found candidate =>
        let packedCandidates := avc444V2ChromaPackedCandidates width height candidate
        let changed := detectYuv420Regions width height p reference packedCandidates
        changed.foldl
          (fun found region =>
            (found.1.pushUnique region,
              (avc444V2ChromaPackedRegionToProtocolRegions width height region).foldl List.pushUnique found.2))
          found)
      ([], [])

/-- The regions the encoder works with: inside the frame, on a grid of the given steps. -/
def OnGrid (across down : Int) (width height : Nat) (r : Region) : Prop :=
  r.Within width height ∧ r.Aligned across down

section Grid

variable {width height : Nat} {across down : Int}

theorem OnGrid.union (columns : width < 2 ^ 31) (rows : height < 2 ^ 31) {a b : Region}
    (first : OnGrid across down width height a) (second : OnGrid across down width height b) :
    OnGrid across down width height (a.union b) :=
  ⟨first.1.union columns rows second.1, .union columns rows first.1 second.1 first.2 second.2⟩

theorem full_onGrid (columns : 0 < width) (rows : 0 < height) (acrossWidth : across ∣ width) (downHeight : down ∣ height) :
    OnGrid across down width height (.full width height) :=
  ⟨Region.full_within columns rows, ⟨Int.dvd_zero _, acrossWidth, Int.dvd_zero _, downHeight⟩⟩

/-- Merging a list one region at a time keeps the grid and loses no pixel. -/
theorem foldl_mergeRegion (columns : width < 2 ^ 31) (rows : height < 2 ^ 31) {regions : List Region}
    (good : ∀ r ∈ regions, OnGrid across down width height r) :
    ∀ merged : List Region, (∀ r ∈ merged, OnGrid across down width height r) →
      (∀ r ∈ regions.foldl mergeRegion merged, OnGrid across down width height r) ∧
      ∀ px py, Covered merged px py ∨ Covered regions px py → Covered (regions.foldl mergeRegion merged) px py := by
  induction regions with
  | nil => exact fun merged all => ⟨all, fun px py covered => covered.resolve_right (Covered.nil px py)⟩
  | cons r regions ih =>
    intro merged all
    have one := good r List.mem_cons_self
    have next : ∀ r' ∈ mergeRegion merged r, OnGrid across down width height r' :=
      Region.mergeInto_forall (fun a b first second => first.union columns rows second) _ all one
    obtain ⟨grid, covers⟩ := ih (fun r member => good r (List.mem_cons_of_mem _ member)) _ next
    refine ⟨grid, fun px py covered => covers px py ?_⟩
    rw [Covered.cons, ← or_assoc] at covered
    refine covered.imp_left fun here => ?_
    exact Region.mergeInto_covered columns rows _ (fun r member => (all r member).1) one.1 here

/-- Both ends of an interval rounded outwards to the grid, within the frame. -/
theorem alignEnds {a : Int} (step : a = 2 ∨ a = 4) {bound : Nat} (small : bound < 2 ^ 31) (multiple : a ∣ bound)
    (lo hi : Int) :
    let start := alignDown (lo.clampTo bound) a
    let stop : Int := (alignUp (hi.clampTo bound) a).clampTo bound
    a ∣ start ∧ 0 ≤ start ∧ a ∣ stop ∧ stop ≤ bound ∧ ∀ v : Nat, v < bound → lo ≤ v → v < hi → start ≤ v ∧ v < stop := by
  intro start stop
  have below := Int.clampTo_le hi bound
  have value : stop = if (hi.clampTo bound : Int) % a = 0 then (hi.clampTo bound : Int)
      else (hi.clampTo bound : Int) + (a - (hi.clampTo bound : Int) % a) := by
    simp only [stop, alignUp]
    split <;> rename_i rest
    · unfold Int.clampTo at *
      omega
    · rcases step with rfl | rfl <;> (unfold saturatingAdd Int.clampTo at *; omega)
  have low : start = (lo.clampTo bound : Int) - (lo.clampTo bound : Int) % a := rfl
  rw [value, low]
  clear_value start stop
  unfold Int.clampTo at *
  rcases step with rfl | rfl
  · split <;> exact ⟨by omega, by omega, by omega, by omega, fun v inside above below => by omega⟩
  · split <;> exact ⟨by omega, by omega, by omega, by omega, fun v inside above below => by omega⟩

theorem alignRegion_some (columns : width < 2 ^ 31) (rows : height < 2 ^ 31) (fours : 4 ∣ (width : Int))
    (even : 2 ∣ (height : Int)) {r aligned : Region} (run : alignRegion width height 4 2 r = some aligned) :
    OnGrid 4 2 width height aligned ∧ ∀ px py, px < width → py < height → r.Covers px py → aligned.Covers px py := by
  obtain ⟨leftGrid, left, rightGrid, right, across⟩ := alignEnds (.inr rfl) columns fours r.x (r.x + r.w)
  obtain ⟨topGrid, top, bottomGrid, bottom, down⟩ := alignEnds (.inl rfl) rows even r.y (r.y + r.h)
  unfold alignRegion at run
  split at run
  · cases run
  · dsimp only at run
    rw [clampTo_saturatingAdd_32 columns, clampTo_saturatingAdd_32 rows] at run
    obtain ⟨nonempty, same⟩ := Option.ite_none_right_eq_some.mp run
    cases same
    refine ⟨⟨⟨left, top, Int.sub_pos_of_lt nonempty.1, Int.sub_pos_of_lt nonempty.2, ?_, ?_⟩,
      ⟨leftGrid, dvd_sub rightGrid leftGrid, topGrid, dvd_sub bottomGrid topGrid⟩⟩, ?_⟩
    · rw [add_sub_cancel]
      exact right
    · rw [add_sub_cancel]
      exact bottom
    · rintro px py column row ⟨fromLeft, toRight, fromTop, toBottom⟩
      have inColumns := across px column fromLeft toRight
      have inRows := down py row fromTop toBottom
      simp only [Region.Covers]
      omega

theorem alignRegion_none (columns : width < 2 ^ 31) (rows : height < 2 ^ 31) (fours : 4 ∣ (width : Int))
    (even : 2 ∣ (height : Int)) {r : Region} (run : alignRegion width height 4 2 r = none) {px py : Nat}
    (column : px < width) (row : py < height) : ¬ r.Covers px py := by
  obtain ⟨_, _, _, _, across⟩ := alignEnds (.inr rfl) columns fours r.x (r.x + r.w)
  obtain ⟨_, _, _, _, down⟩ := alignEnds (.inl rfl) rows even r.y (r.y + r.h)
  rintro ⟨fromLeft, toRight, fromTop, toBottom⟩
  have inColumns := across px column fromLeft toRight
  have inRows := down py row fromTop toBottom
  unfold alignRegion at run
  rw [if_neg (by omega)] at run
  dsimp only at run
  rw [clampTo_saturatingAdd_32 columns, clampTo_saturatingAdd_32 rows, if_pos ⟨by omega, by omega⟩] at run
  cases run

/-- The aligned candidates are on the grid and cover the damage. -/
theorem alignAvc444V2ProtocolRegions_good (columns : width < 2 ^ 31) (rows : height < 2 ^ 31)
    (fours : 4 ∣ (width : Int)) (even : 2 ∣ (height : Int)) (regions : List Region) :
    (∀ r ∈ alignAvc444V2ProtocolRegions width height regions, OnGrid 4 2 width height r) ∧
    ∀ px py, px < width → py < height → Covered regions px py →
      Covered (alignAvc444V2ProtocolRegions width height regions) px py := by
  unfold alignAvc444V2ProtocolRegions alignRegions
  rw [if_pos ⟨columns, rows⟩]
  have aligned : ∀ r ∈ regions.filterMap (alignRegion width height 4 2), OnGrid 4 2 width height r := by
    intro r member
    obtain ⟨original, _, run⟩ := List.mem_filterMap.mp member
    exact (alignRegion_some columns rows fours even run).1
  obtain ⟨grid, covers⟩ := foldl_mergeRegion columns rows aligned [] (by simp)
  refine ⟨grid, fun px py column row => ?_⟩
  rintro ⟨r, member, covered⟩
  refine covers px py (.inr ?_)
  cases run : alignRegion width height 4 2 r with
  | none => exact absurd covered (alignRegion_none columns rows fours even run column row)
  | some a =>
    exact ⟨a, List.mem_filterMap.mpr ⟨r, member, run⟩,
      (alignRegion_some columns rows fours even run).2 px py column row covered⟩

/-- With a reference the detected regions are on the candidates' grid and
inside them, and the samples they leave out are those of the reference. -/
theorem detectYuv420Regions_some (columns : width < 2 ^ 31) (rows : height < 2 ^ 31) (acrossSize : across ∣ 64)
    (downSize : down ∣ 64) (acrossEven : 2 ∣ across) (downEven : 2 ∣ down) (p reference : Yuv420)
    {candidates : List Region} (good : ∀ r ∈ candidates, OnGrid across down width height r) :
    let found := detectYuv420Regions width height p (some reference) candidates
    (∀ r ∈ found, OnGrid across down width height r ∧ ∃ c ∈ candidates, ∀ px py, r.Covers px py → c.Covers px py) ∧
    ∀ s : Sample, Covered candidates s.packed.1 s.packed.2 → ¬ Covered found s.packed.1 s.packed.2 →
      p.at s = reference.at s := by
  have size : 0 < 64 := by decide
  have clamped : ∀ r ∈ candidates, clampRegion r width height = some r.toEdges :=
    fun r member => clampRegion_within columns rows (good r member).1
  have mem : ∀ r : Region, r ∈ detectYuv420Regions width height p (some reference) candidates ↔
      ∃ c ∈ candidates, ∃ t ∈ c.toEdges.tiles 64, yuv420TileChanged p reference t ∧ r = t.toRegion := by
    intro r
    unfold detectYuv420Regions
    rw [mem_changedTiles]
    constructor
    · rintro ⟨e, member, t, tile, change⟩
      obtain ⟨c, candidate, run⟩ := List.mem_filterMap.mp member
      cases (clamped c candidate).symm.trans run
      exact ⟨c, candidate, t, tile, change⟩
    · rintro ⟨c, candidate, t, tile, change⟩
      exact ⟨_, List.mem_filterMap.mpr ⟨c, candidate, clamped c candidate⟩, t, tile, change⟩
  have onTile : ∀ c ∈ candidates, ∀ t ∈ c.toEdges.tiles 64, OnGrid across down width height t.toRegion := by
    intro c candidate t tile
    obtain ⟨within, aligned⟩ := good c candidate
    exact ⟨Region.toRegion_within (Edges.tiles_inside size within.toEdges.1 tile),
      Edges.tiles_aligned size within aligned acrossSize downSize tile⟩
  intro found
  constructor
  · intro r member
    obtain ⟨c, candidate, t, tile, _, rfl⟩ := (mem r).mp member
    refine ⟨onTile c candidate t tile, c, candidate, fun px py covers => ?_⟩
    rw [Region.covers_toRegion] at covers
    have inCandidate := (Edges.tiles_covers size).mp ⟨t, tile, covers⟩
    rwa [← Region.covers_toRegion, (good c candidate).1.toEdges.2] at inCandidate
  · rintro s ⟨c, candidate, covers⟩ outside
    have edges : c.toEdges.Covers s.packed.1 s.packed.2 := by
      rwa [← Region.covers_toRegion, (good c candidate).1.toEdges.2]
    obtain ⟨t, tile, inTile⟩ := (Edges.tiles_covers size).mpr edges
    obtain ⟨within, aligned⟩ := onTile c candidate t tile
    have left : 2 ∣ t.left := Int.natCast_dvd_natCast.mp (dvd_trans acrossEven aligned.x)
    have top : 2 ∣ t.top := Int.natCast_dvd_natCast.mp (dvd_trans downEven aligned.y)
    refine yuv420TileChanged_false left top ?_ inTile
    by_contra change
    exact outside ⟨t.toRegion, (mem _).mpr ⟨c, candidate, t, tile, by simpa using change, rfl⟩,
      (Region.covers_toRegion t _ _).mpr inTile⟩

end Grid

section Chroma

variable {width height : Nat}

theorem mem_foldl_pushUnique (xs : List Region) :
    ∀ (found : List Region) (r : Region), r ∈ xs.foldl List.pushUnique found ↔ r ∈ found ∨ r ∈ xs := by
  induction xs with
  | nil => simp
  | cons x xs ih =>
    intro found r
    rw [List.foldl_cons, ih, List.mem_pushUnique, List.mem_cons, or_assoc]

/-- The detection loop collects the changed tiles and the frame regions they stand for. -/
theorem mem_detectAvc444V2ChromaRegions (width height : Nat) (p reference : Yuv420) (candidates : List Region) (r : Region) :
    let changed := fun c => detectYuv420Regions width height p (some reference)
      (avc444V2ChromaPackedCandidates width height c)
    (r ∈ (detectAvc444V2ChromaRegions width height p (some reference) candidates).1 ↔
      ∃ c ∈ candidates, r ∈ changed c) ∧
    (r ∈ (detectAvc444V2ChromaRegions width height p (some reference) candidates).2 ↔
      ∃ c ∈ candidates, ∃ q ∈ changed c, r ∈ avc444V2ChromaPackedRegionToProtocolRegions width height q) := by
  intro changed
  have inner : ∀ (qs : List Region) (found : List Region × List Region),
      let after := qs.foldl
        (fun found region =>
          (found.1.pushUnique region,
            (avc444V2ChromaPackedRegionToProtocolRegions width height region).foldl List.pushUnique found.2))
        found
      (r ∈ after.1 ↔ r ∈ found.1 ∨ r ∈ qs) ∧
      (r ∈ after.2 ↔ r ∈ found.2 ∨ ∃ q ∈ qs, r ∈ avc444V2ChromaPackedRegionToProtocolRegions width height q) := by
    intro qs
    induction qs with
    | nil => simp
    | cons q qs ih =>
      intro found
      obtain ⟨first, second⟩ := ih (found.1.pushUnique q,
        (avc444V2ChromaPackedRegionToProtocolRegions width height q).foldl List.pushUnique found.2)
      rw [List.mem_pushUnique] at first
      rw [mem_foldl_pushUnique] at second
      simp only [List.foldl_cons, List.mem_cons, exists_eq_or_imp, ← or_assoc]
      exact ⟨first, second⟩
  have outer : ∀ (cs : List Region) (found : List Region × List Region),
      let after := cs.foldl
        (fun found candidate =>
          (changed candidate).foldl
            (fun found region =>
              (found.1.pushUnique region,
                (avc444V2ChromaPackedRegionToProtocolRegions width height region).foldl List.pushUnique found.2))
            found)
        found
      (r ∈ after.1 ↔ r ∈ found.1 ∨ ∃ c ∈ cs, r ∈ changed c) ∧
      (r ∈ after.2 ↔ r ∈ found.2 ∨
        ∃ c ∈ cs, ∃ q ∈ changed c, r ∈ avc444V2ChromaPackedRegionToProtocolRegions width height q) := by
    intro cs
    induction cs with
    | nil => simp
    | cons c cs ih =>
      intro found
      obtain ⟨first, second⟩ := ih ((changed c).foldl _ found)
      rw [(inner (changed c) found).1] at first
      rw [(inner (changed c) found).2] at second
      simp only [List.foldl_cons, List.mem_cons, exists_eq_or_imp, ← or_assoc]
      exact ⟨first, second⟩
  have loop := outer candidates ([], [])
  simp only [List.not_mem_nil, false_or] at loop
  exact loop

/-- The two packed places of a grid region, without the clamps. -/
theorem avc444V2ChromaPackedCandidates_eq (columns : width < 2 ^ 31) (rows : height < 2 ^ 31) {k : Region}
    (grid : OnGrid 4 2 width height k) : avc444V2ChromaPackedCandidates width height k =
      [⟨k.x / 2, k.y, k.w / 2, k.h⟩, ⟨(width / 2 : Nat) + k.x / 2, k.y, k.w / 2, k.h⟩] := by
  obtain ⟨⟨left, top, wide, tall, right, bottom⟩, x4, w4, y2, h2⟩ := grid
  unfold avc444V2ChromaPackedCandidates
  rw [clampRegion_within columns rows ⟨left, top, wide, tall, right, bottom⟩]
  dsimp only [Region.toEdges]
  rw [if_neg (by omega)]
  simp only [List.cons.injEq, Region.mk.injEq, and_true]
  omega

theorem packedCandidates_onGrid (columns : width < 2 ^ 31) (rows : height < 2 ^ 31) (fours : 4 ∣ (width : Int))
    {k : Region} (grid : OnGrid 4 2 width height k) :
    ∀ q ∈ avc444V2ChromaPackedCandidates width height k, OnGrid 2 2 width height q := by
  rw [avc444V2ChromaPackedCandidates_eq columns rows grid]
  obtain ⟨⟨left, top, wide, tall, right, bottom⟩, x4, w4, y2, h2⟩ := grid
  intro q member
  rw [List.mem_pair] at member
  rcases member with rfl | rfl
  · refine ⟨⟨?_, ?_, ?_, ?_, ?_, ?_⟩, ⟨?_, ?_, ?_, ?_⟩⟩ <;> dsimp only <;> omega
  · refine ⟨⟨?_, ?_, ?_, ?_, ?_, ?_⟩, ⟨?_, ?_, ?_, ?_⟩⟩ <;> dsimp only <;> omega

/-- A chroma sample lies in the packed places of a region exactly when its pixel lies in the region. -/
theorem packedCandidates_covers (columns : width < 2 ^ 31) (rows : height < 2 ^ 31) (fours : 4 ∣ (width : Int))
    {k : Region} (grid : OnGrid 4 2 width height k) {s : Sample} (chroma : s.role = .chroma)
    (inFrame : s.InFrame width height) :
    Covered (avc444V2ChromaPackedCandidates width height k) s.packed.1 s.packed.2 ↔
      k.Covers (s.origin width).1 (s.origin width).2 := by
  rw [avc444V2ChromaPackedCandidates_eq columns rows grid, Covered.cons, Covered.cons]
  obtain ⟨⟨left, top, wide, tall, right, bottom⟩, x4, w4, y2, h2⟩ := grid
  obtain ⟨role, channel, row, column⟩ := s
  cases chroma
  have nil : ∀ px py, Covered [] px py ↔ False := fun px py => iff_false_intro (Covered.nil px py)
  cases channel <;>
    simp only [Sample.InFrame, Sample.packed, Sample.origin, Sample.inRightHalf, Region.Covers, decide_eq_true_eq,
      nil, or_false] at inFrame ⊢ <;>
    split_ifs <;> omega

theorem packedSegmentToProtocol_inside (e : Edges) (halfLeft halfRight : Nat) (left : halfLeft ≤ e.left)
    (right : e.right ≤ halfRight) (wide : e.left < e.right) (tall : e.top < e.bottom)
    (evenLeft : 2 ∣ e.left - halfLeft) (evenRight : 2 ∣ e.right - halfLeft) (evenTop : 2 ∣ e.top)
    (evenBottom : 2 ∣ e.bottom) (room : 2 * (e.right - halfLeft) ≤ width) (bottom : e.bottom ≤ height) :
    packedSegmentToProtocol width height e halfLeft halfRight =
      some ⟨2 * (e.left - halfLeft : Nat), e.top, 2 * (e.right - e.left : Nat), (e.bottom - e.top : Nat)⟩ := by
  have start : max e.left halfLeft = e.left := Nat.max_eq_left left
  have stop : min e.right halfRight = e.right := Nat.min_eq_left right
  have lefts : alignDown (((e.left - halfLeft) * 2 : Nat) : Int) 4 = 2 * (e.left - halfLeft : Nat) := by
    unfold alignDown
    omega
  have tops : alignDown (e.top : Int) 2 = e.top := by
    unfold alignDown
    omega
  have rights : ((alignUp (((e.right - halfLeft) * 2 : Nat) : Int) 4).clampTo width : Int) =
      2 * (e.right - halfLeft : Nat) := by
    unfold alignUp Int.clampTo
    dsimp only
    rw [if_pos (by omega)]
    omega
  have bottoms : ((alignUp (e.bottom : Int) 2).clampTo height : Int) = e.bottom := by
    unfold alignUp Int.clampTo
    dsimp only
    rw [if_pos (by omega)]
    omega
  unfold packedSegmentToProtocol
  dsimp only
  rw [start, stop, if_neg (by omega), lefts, tops, rights, bottoms, if_pos (by omega)]
  simp only [Option.some.injEq, Region.mk.injEq, true_and]
  omega

theorem packedSegmentToProtocol_outside (e : Edges) (halfLeft halfRight : Nat)
    (apart : e.right ≤ halfLeft ∨ halfRight ≤ e.left) :
    packedSegmentToProtocol width height e halfLeft halfRight = none := by
  unfold packedSegmentToProtocol
  dsimp only
  rw [if_pos (by omega)]

/-- Where a tile of a packed place stands in the frame. -/
theorem avc444V2ChromaPackedRegionToProtocolRegions_eq (columns : width < 2 ^ 31) (rows : height < 2 ^ 31)
    (fours : 4 ∣ (width : Int)) {q : Region} (grid : OnGrid 2 2 width height q) :
    (q.x + q.w ≤ (width / 2 : Nat) → avc444V2ChromaPackedRegionToProtocolRegions width height q =
      [⟨2 * q.x, q.y, 2 * q.w, q.h⟩]) ∧
    ((width / 2 : Nat) ≤ q.x → avc444V2ChromaPackedRegionToProtocolRegions width height q =
      [⟨2 * (q.x - (width / 2 : Nat)), q.y, 2 * q.w, q.h⟩]) := by
  have clamped := clampRegion_within columns rows grid.1
  obtain ⟨edgeLeft, edgeTop, edgeRight, edgeBottom⟩ := grid.1.edges
  obtain ⟨⟨left, top, wide, tall, right, bottom⟩, x2, w2, y2, h2⟩ := grid
  have one : ∀ r : Region, [r].foldl mergeRegion [] = [r] := fun _ => rfl
  unfold avc444V2ChromaPackedRegionToProtocolRegions
  rw [clamped]
  generalize q.toEdges = e at edgeLeft edgeTop edgeRight edgeBottom
  dsimp only
  rw [if_neg (by omega)]
  constructor
  · intro inLeft
    have segment : packedSegmentToProtocol width height e 0 (width / 2) = _ :=
      packedSegmentToProtocol_inside e 0 (width / 2) (by omega) (by omega) (by omega) (by omega) (by omega) (by omega)
        (by omega) (by omega) (by omega) (by omega)
    have other : packedSegmentToProtocol width height e (width / 2) width = none :=
      packedSegmentToProtocol_outside e (width / 2) width (.inl (by omega))
    simp only [List.filterMap_cons, List.filterMap_nil, segment, other, one, List.cons.injEq, Region.mk.injEq, and_true]
    omega
  · intro inRight
    have segment : packedSegmentToProtocol width height e (width / 2) width = _ :=
      packedSegmentToProtocol_inside e (width / 2) width (by omega) (by omega) (by omega) (by omega) (by omega) (by omega)
        (by omega) (by omega) (by omega) (by omega)
    have other : packedSegmentToProtocol width height e 0 (width / 2) = none :=
      packedSegmentToProtocol_outside e 0 (width / 2) (.inr (by omega))
    simp only [List.filterMap_cons, List.filterMap_nil, segment, other, one, List.cons.injEq, Region.mk.injEq, and_true]
    omega

/-- What the frame regions of a changed tile are to the candidate it comes from. -/
theorem packedTile_protocol (columns : width < 2 ^ 31) (rows : height < 2 ^ 31) (fours : 4 ∣ (width : Int))
    {k q c : Region} (grid : OnGrid 4 2 width height k) (tileGrid : OnGrid 2 2 width height q)
    (place : c ∈ avc444V2ChromaPackedCandidates width height k)
    (inside : ∀ px py, q.Covers px py → c.Covers px py) :
    ∃ r, avc444V2ChromaPackedRegionToProtocolRegions width height q = [r] ∧ OnGrid 4 2 width height r ∧
      (∀ px py, r.Covers px py → k.Covers px py) ∧
      ∀ s : Sample, s.role = .chroma → s.InFrame width height → q.Covers s.packed.1 s.packed.2 →
        r.Covers (s.origin width).1 (s.origin width).2 := by
  obtain ⟨inLeft, inRight⟩ := avc444V2ChromaPackedRegionToProtocolRegions_eq columns rows fours tileGrid
  rw [avc444V2ChromaPackedCandidates_eq columns rows grid, List.mem_pair] at place
  obtain ⟨⟨left, top, wide, tall, right, bottom⟩, x2, w2, y2, h2⟩ := tileGrid
  obtain ⟨⟨left', top', wide', tall', right', bottom'⟩, x4, w4, y2', h2'⟩ := grid
  -- The corners of the tile are pixels of the place, which bounds its edges.
  have first := inside q.x.toNat q.y.toNat (by unfold Region.Covers; omega)
  have last := inside (q.x + q.w - 1).toNat (q.y + q.h - 1).toNat (by unfold Region.Covers; omega)
  rcases place with rfl | rfl
  · simp only [Region.Covers] at first last
    refine ⟨_, inLeft (by omega), ⟨⟨?_, ?_, ?_, ?_, ?_, ?_⟩, ⟨?_, ?_, ?_, ?_⟩⟩, ?_, ?_⟩
    any_goals (dsimp only; omega)
    · intro px py covers
      simp only [Region.Covers] at covers ⊢
      omega
    · rintro ⟨role, channel, row, column⟩ chroma inFrame covers
      cases chroma
      cases channel <;>
        simp only [Sample.InFrame, Sample.packed, Sample.origin, Sample.inRightHalf, Region.Covers,
          decide_eq_true_eq] at inFrame covers ⊢ <;>
        split_ifs <;> omega
  · simp only [Region.Covers] at first last
    refine ⟨_, inRight (by omega), ⟨⟨?_, ?_, ?_, ?_, ?_, ?_⟩, ⟨?_, ?_, ?_, ?_⟩⟩, ?_, ?_⟩
    any_goals (dsimp only; omega)
    · intro px py covers
      simp only [Region.Covers] at covers ⊢
      omega
    · rintro ⟨role, channel, row, column⟩ chroma inFrame covers
      cases chroma
      cases channel <;>
        simp only [Sample.InFrame, Sample.packed, Sample.origin, Sample.inRightHalf, Region.Covers,
          decide_eq_true_eq] at inFrame covers ⊢ <;>
        split_ifs <;> omega

/-- What chroma detection returns when there is a reference: the packed places
that changed, and frame regions that are inside the candidates and hold the
pixels of all changed samples. -/
theorem detectAvc444V2ChromaRegions_some (columns : width < 2 ^ 31) (rows : height < 2 ^ 31)
    (fours : 4 ∣ (width : Int)) (p reference : Yuv420) {candidates : List Region}
    (good : ∀ r ∈ candidates, OnGrid 4 2 width height r) {places protocol : List Region}
    (run : detectAvc444V2ChromaRegions width height p (some reference) candidates = (places, protocol)) :
    (∀ r ∈ places, OnGrid 2 2 width height r) ∧ (∀ r ∈ protocol, OnGrid 4 2 width height r) ∧
    (∀ px py, Covered protocol px py → Covered candidates px py) ∧
    ∀ s : Sample, s.role = .chroma → s.InFrame width height →
      (Covered places s.packed.1 s.packed.2 → Covered protocol (s.origin width).1 (s.origin width).2) ∧
      (Covered candidates (s.origin width).1 (s.origin width).2 → ¬ Covered places s.packed.1 s.packed.2 →
        p.at s = reference.at s) := by
  have mem := mem_detectAvc444V2ChromaRegions width height p reference candidates
  rw [run] at mem
  dsimp only at mem
  have found := fun c (candidate : c ∈ candidates) =>
    detectYuv420Regions_some columns rows (by decide : (2 : Int) ∣ 64) (by decide : (2 : Int) ∣ 64)
      (dvd_refl 2) (dvd_refl 2) p reference (packedCandidates_onGrid columns rows fours (good c candidate))
  have tile : ∀ c ∈ candidates, ∀ q ∈ detectYuv420Regions width height p (some reference)
      (avc444V2ChromaPackedCandidates width height c), ∃ r,
      avc444V2ChromaPackedRegionToProtocolRegions width height q = [r] ∧ OnGrid 4 2 width height r ∧
      (∀ px py, r.Covers px py → c.Covers px py) ∧
      ∀ s : Sample, s.role = .chroma → s.InFrame width height → q.Covers s.packed.1 s.packed.2 →
        r.Covers (s.origin width).1 (s.origin width).2 := by
    intro c candidate q member
    obtain ⟨tileGrid, place, isPlace, inside⟩ := (found c candidate).1 q member
    exact packedTile_protocol columns rows fours (good c candidate) tileGrid isPlace inside
  refine ⟨?_, ?_, ?_, ?_⟩
  · intro q member
    obtain ⟨c, candidate, changed⟩ := (mem q).1.mp member
    exact ((found c candidate).1 q changed).1
  · intro r member
    obtain ⟨c, candidate, q, changed, stands⟩ := (mem r).2.mp member
    obtain ⟨r', same, grid, _⟩ := tile c candidate q changed
    rw [same, List.mem_singleton] at stands
    exact stands ▸ grid
  · rintro px py ⟨r, member, covers⟩
    obtain ⟨c, candidate, q, changed, stands⟩ := (mem r).2.mp member
    obtain ⟨r', same, _, inside, _⟩ := tile c candidate q changed
    rw [same, List.mem_singleton] at stands
    exact ⟨c, candidate, inside px py (stands ▸ covers)⟩
  · intro s chroma inFrame
    constructor
    · rintro ⟨q, member, covers⟩
      obtain ⟨c, candidate, changed⟩ := (mem q).1.mp member
      obtain ⟨r, same, _, _, reaches⟩ := tile c candidate q changed
      refine ⟨r, (mem r).2.mpr ⟨c, candidate, q, changed, ?_⟩, reaches s chroma inFrame covers⟩
      rw [same]
      exact List.mem_singleton_self r
    · rintro ⟨c, candidate, covers⟩ outside
      have inPlaces := (packedCandidates_covers columns rows fours (good c candidate) chroma inFrame).mpr covers
      refine (found c candidate).2 s inPlaces ?_
      rintro ⟨q, changed, inTile⟩
      exact outside ⟨q, (mem q).1.mpr ⟨c, candidate, changed⟩, inTile⟩

/-- Copying the region into the reference copies the sample. -/
def Sample.CopiedBy (width height : Nat) (r : Region) (s : Sample) : Prop :=
  ∃ e, clampRegion r width height = some e ∧
    match s.channel with
    | .y => e.Covers s.column s.row
    | .u | .v => (halved e).Covers s.column s.row

theorem Sample.copiedBy_of_onGrid (columns : width < 2 ^ 31) (rows : height < 2 ^ 31) {r : Region}
    (grid : OnGrid 2 2 width height r) {s : Sample} (covers : r.Covers s.packed.1 s.packed.2) :
    s.CopiedBy width height r := by
  obtain ⟨within, aligned⟩ := grid
  have edges : r.toEdges.Covers s.packed.1 s.packed.2 := by
    rwa [← Region.covers_toRegion, within.toEdges.2]
  have left : 2 ∣ r.toEdges.left := by
    have := aligned.x
    have := within.left
    simp only [Region.toEdges]
    omega
  have top : 2 ∣ r.toEdges.top := by
    have := aligned.y
    have := within.top
    simp only [Region.toEdges]
    omega
  refine ⟨_, clampRegion_within columns rows within, ?_⟩
  obtain ⟨role, channel, row, column⟩ := s
  cases channel with
  | y => exact edges
  | u => exact (halved_covers left top _ _).mpr edges
  | v => exact (halved_covers left top _ _).mpr edges

theorem full_copies (columns : width < 2 ^ 31) (rows : height < 2 ^ 31) (even : 2 ∣ (width : Int)) (evenRows : 2 ∣ (height : Int))
    {s : Sample} (inFrame : s.InFrame width height) : s.CopiedBy width height (.full width height) :=
  Sample.copiedBy_of_onGrid columns rows
    (full_onGrid (Nat.zero_lt_of_lt inFrame.1) (Nat.zero_lt_of_lt inFrame.2) even evenRows)
    ((Region.covers_full _ _ _ _).mpr inFrame)

theorem full_inside (fours : 4 ∣ (width : Int)) (even : 2 ∣ (height : Int)) :
    let r := Region.full width height
    0 ≤ r.x ∧ 0 ≤ r.y ∧ r.x + r.w ≤ width ∧ r.y + r.h ≤ height ∧ r.Aligned 4 2 :=
  ⟨le_refl _, le_refl _, le_of_eq (zero_add _), le_of_eq (zero_add _), Int.dvd_zero _, fours, Int.dvd_zero _, even⟩

/-- Without a reference every sample counts as changed. -/
def DiffersFrom (reference : Option Yuv420) (p : Yuv420) (s : Sample) : Prop :=
  ∀ old, reference = some old → p.at s ≠ old.at s

/-- Chroma detection misses no change inside the candidates. -/
theorem chroma_changes_found (fours : width % 4 = 0) (even : height % 2 = 0) (p : Yuv420) (reference : Option Yuv420)
    (damage : List Region) :
    let candidates := alignAvc444V2ProtocolRegions width height damage
    let found := detectAvc444V2ChromaRegions width height p reference candidates
    let InCandidate := fun s : Sample => s.role = .chroma ∧ s.InFrame width height ∧
      Covered candidates (s.origin width).1 (s.origin width).2
    (∀ r ∈ found.2, 0 ≤ r.x ∧ 0 ≤ r.y ∧ r.x + r.w ≤ width ∧ r.y + r.h ≤ height ∧ r.Aligned 4 2) ∧
    (∀ s, InCandidate s → DiffersFrom reference p s →
      Covered found.2 (s.origin width).1 (s.origin width).2 ∧ ∃ r ∈ found.1, s.CopiedBy width height r) ∧
    ∃ updated, updateYuv420ReferenceRegions reference width height p found.1 = some updated ∧
      ∀ s, InCandidate s → updated.at s = p.at s := by
  have fours' : (4 : Int) ∣ width := by omega
  have even' : (2 : Int) ∣ height := by omega
  intro candidates found InCandidate
  by_cases small : width < 2 ^ 31 ∧ height < 2 ^ 31
  · obtain ⟨columns, rows⟩ := small
    cases reference with
    | none =>
      refine ⟨?_, ?_, p, rfl, fun _ _ => rfl⟩
      · intro r member
        cases List.mem_singleton.mp member
        exact full_inside fours' even'
      · rintro s ⟨_, inFrame, _⟩ _
        refine ⟨⟨_, List.mem_singleton_self _, ?_⟩, _, List.mem_singleton_self _, ?_⟩
        · exact (Region.covers_full _ _ _ _).mpr (Sample.origin_inFrame fours even inFrame)
        · exact full_copies columns rows (by omega) even' inFrame
    | some old =>
      have grid := (alignAvc444V2ProtocolRegions_good columns rows fours' even' damage).1
      obtain ⟨placesGrid, protocolGrid, _, samples⟩ :=
        detectAvc444V2ChromaRegions_some columns rows fours' p old grid (Prod.eta found).symm
      have inPlaces : ∀ s, InCandidate s → p.at s ≠ old.at s → Covered found.1 s.packed.1 s.packed.2 := by
        rintro s ⟨chroma, inFrame, inCandidate⟩ differs
        by_contra outside
        exact differs ((samples s chroma inFrame).2 inCandidate outside)
      refine ⟨?_, ?_, ?_⟩
      · intro r member
        obtain ⟨within, aligned⟩ := protocolGrid r member
        exact ⟨within.left, within.top, within.right, within.bottom, aligned⟩
      · intro s inCandidate differs
        have covered := inPlaces s inCandidate (differs old rfl)
        refine ⟨(samples s inCandidate.1 inCandidate.2.1).1 covered, ?_⟩
        obtain ⟨r, member, covers⟩ := covered
        exact ⟨r, member, Sample.copiedBy_of_onGrid columns rows (placesGrid r member) covers⟩
      · refine ⟨_, rfl, fun s inCandidate => ?_⟩
        obtain ⟨updated, same, value⟩ := updateYuv420ReferenceRegions_at p old columns rows placesGrid s
        cases same
        rw [value]
        by_cases covered : Covered found.1 s.packed.1 s.packed.2
        · rw [if_pos covered]
        · rw [if_neg covered]
          by_contra differs
          exact covered (inPlaces s inCandidate (Ne.symm differs))
  · have noCandidates : candidates = [] := if_neg small
    have outside : ∀ s, ¬ InCandidate s := by
      rintro s ⟨_, _, covered⟩
      rw [noCandidates] at covered
      exact Covered.nil _ _ covered
    refine ⟨fun r member => ?_, fun s inCandidate => absurd inCandidate (outside s), ?_⟩
    · cases reference with
      | none =>
        cases List.mem_singleton.mp member
        exact full_inside fours' even'
      | some old =>
        simp only [found, noCandidates, detectAvc444V2ChromaRegions, List.foldl_nil, List.not_mem_nil] at member
    · cases reference with
      | none => exact ⟨_, rfl, fun s inCandidate => absurd inCandidate (outside s)⟩
      | some old => exact ⟨_, rfl, fun s inCandidate => absurd inCandidate (outside s)⟩

/-- Four columns and two rows of which one chroma sample changed. -/
theorem chroma_changes_found_once :
    let p : Yuv420 := ⟨.filled 128, (Plane.filled 128).set 0 1 200, .filled 128⟩
    let old : Yuv420 := ⟨.filled 128, .filled 128, .filled 128⟩
    let found := detectAvc444V2ChromaRegions 4 2 p (some old) (alignAvc444V2ProtocolRegions 4 2 [⟨1, 1, 1, 1⟩])
    p.at ⟨.chroma, .u, 0, 1⟩ ≠ old.at ⟨.chroma, .u, 0, 1⟩ ∧ Covered found.2 0 1 :=
  have changes := @chroma_changes_found 4 2 rfl rfl
    ⟨.filled 128, (Plane.filled 128).set 0 1 200, .filled 128⟩ (some ⟨.filled 128, .filled 128, .filled 128⟩) [⟨1, 1, 1, 1⟩]
  ⟨by decide, (changes.2.1 ⟨.chroma, .u, 0, 1⟩ ⟨rfl, by unfold Sample.InFrame; decide, by decide⟩
    fun _ same => by cases same; decide).1⟩

end Chroma

end HyprRdp
