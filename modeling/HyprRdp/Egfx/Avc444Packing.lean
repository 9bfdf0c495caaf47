import HyprRdp.Egfx.Yuv420

namespace HyprRdp

/-- A block of the frame gets the averaged chroma of its block. -/
def spreadChroma (main : Plane) (out : Plane) (k : Nat × Nat) : Plane :=
  let (cx, cy) := k
  let row0 := cy * 2
  let row1 := row0 + 1
  let x := cx * 2
  [(row0, x), (row0, x + 1), (row1, x), (row1, x + 1)].foldl (fun out dst => out.set dst.1 dst.2 (main cy cx)) out

/-- The odd columns come from the luma plane of the auxiliary picture. -/
def placeOddColumn (aux : Yuv420) (chromaShift : Nat) (out : Plane) (k : Nat × Nat) : Plane :=
  let (cx, row) := k
  out.set row (cx * 2 + 1) (aux.y row (cx + chromaShift))

/-- The even columns of the odd rows come from its chroma planes, one by one. -/
def placeOddRow (aux : Yuv420) (quarterShift : Nat) (out : Plane) (k : Nat × Nat) : Plane :=
  let (qx, cy) := k
  let row := cy * 2 + 1
  let x := qx * 4
  (out.set row x (aux.u cy (qx + quarterShift))).set row (x + 2) (aux.v cy (qx + quarterShift))

def places (columns rows : Nat) : List (Nat × Nat) :=
  (List.range rows).flatMap fun y => (List.range columns).map fun x => (x, y)

/-- One of the two chroma planes. The auxiliary planes hold the first one in their left halves and the second one in their
right halves, which begin at `chromaShift` and `quarterShift`. -/
def combineChroma (width height : Nat) (main : Plane) (aux : Yuv420) (chromaShift quarterShift : Nat) : Plane :=
  let chromaW := width / 2
  let chromaH := height / 2
  let quarterW := width / 4
  (places quarterW chromaH).foldl (placeOddRow aux quarterShift)
    ((places chromaW height).foldl (placeOddColumn aux chromaShift)
      ((places chromaW chromaH).foldl (spreadChroma main) (.filled 0)))

def combineAvc444V2Planes (width height : Nat) (p : Avc444Planes) : Plane × Plane × Plane :=
  (p.main.y, combineChroma width height p.main.u p.aux 0 0,
    combineChroma width height p.main.v p.aux (width / 2) (width / 4))

section Unpacking

variable {width height row column : Nat}

theorem Plane.set_at (p : Plane) (row column r c : Nat) (v : UInt8) :
    p.set row column v r c = if r = row ∧ c = column then v else p r c := rfl

theorem mem_places {columns rows : Nat} (k : Nat × Nat) :
    k ∈ places columns rows ↔ k.1 < columns ∧ k.2 < rows := by
  obtain ⟨x, y⟩ := k
  simp only [places, List.mem_flatMap, List.mem_map, List.mem_range, Prod.mk.injEq]
  constructor
  · rintro ⟨_, inRows, _, inColumns, rfl, rfl⟩
    exact ⟨inColumns, inRows⟩
  · exact fun ⟨inColumns, inRows⟩ => ⟨y, inRows, x, inColumns, rfl, rfl⟩

theorem spreadChroma_at (main out : Plane) (k : Nat × Nat) : spreadChroma main out k row column =
    if column / 2 = k.1 ∧ row / 2 = k.2 then main (row / 2) (column / 2) else out row column := by
  obtain ⟨cx, cy⟩ := k
  simp only [spreadChroma, List.foldl_cons, List.foldl_nil, Plane.set_at]
  by_cases here : column / 2 = cx ∧ row / 2 = cy
  · rw [if_pos here, here.1, here.2]
    split_ifs <;> first | rfl | omega
  · rw [if_neg here]
    split_ifs <;> first | rfl | omega

theorem placeOddColumn_at (aux : Yuv420) (shift : Nat) (out : Plane) (k : Nat × Nat) :
    placeOddColumn aux shift out k row column =
      if column = k.1 * 2 + 1 ∧ row = k.2 then aux.y row (column / 2 + shift) else out row column := by
  obtain ⟨cx, y⟩ := k
  simp only [placeOddColumn, Plane.set_at]
  by_cases here : column = cx * 2 + 1 ∧ row = y
  · have half : column / 2 = cx := by omega
    rw [if_pos here, if_pos here.symm, half, here.2]
  · rw [if_neg here, if_neg fun there => here there.symm]

theorem placeOddRow_at (aux : Yuv420) (shift : Nat) (out : Plane) (k : Nat × Nat) :
    placeOddRow aux shift out k row column =
      if (column = k.1 * 4 ∨ column = k.1 * 4 + 2) ∧ row = k.2 * 2 + 1 then
        if column % 4 = 0 then aux.u (row / 2) (column / 4 + shift) else aux.v (row / 2) (column / 4 + shift)
      else out row column := by
  obtain ⟨qx, cy⟩ := k
  simp only [placeOddRow, Plane.set_at]
  by_cases here : (column = qx * 4 ∨ column = qx * 4 + 2) ∧ row = cy * 2 + 1
  · have quarter : column / 4 = qx := by omega
    have half : row / 2 = cy := by omega
    rw [if_pos here, quarter, half]
    split_ifs <;> first | rfl | omega
  · rw [if_neg here]
    split_ifs <;> first | rfl | omega

/-- Where each sample of the frame's chroma is found. -/
theorem combineChroma_at (fours : width % 4 = 0) (even : height % 2 = 0) (main : Plane) (aux : Yuv420)
    (chromaShift quarterShift : Nat) (inRow : row < height) (inColumn : column < width) :
    combineChroma width height main aux chromaShift quarterShift row column =
      if column % 2 = 1 then aux.y row (column / 2 + chromaShift)
      else if row % 2 = 1 then
        if column % 4 = 0 then aux.u (row / 2) (column / 4 + quarterShift) else aux.v (row / 2) (column / 4 + quarterShift)
      else main (row / 2) (column / 2) := by
  have spread := @foldl_written _ _ _ _ (fun out : Plane => out row column) _ _ _
    (fun out k => spreadChroma_at main out k) (places (width / 2) (height / 2)) (.filled 0)
  have oddColumns := @foldl_written _ _ _ _ (fun out : Plane => out row column) _ _ _
    (fun out k => placeOddColumn_at aux chromaShift out k) (places (width / 2) height)
    ((places (width / 2) (height / 2)).foldl (spreadChroma main) (.filled 0))
  have oddRows := @foldl_written _ _ _ _ (fun out : Plane => out row column) _ _ _
    (fun out k => placeOddRow_at aux quarterShift out k) (places (width / 4) (height / 2))
    ((places (width / 2) height).foldl (placeOddColumn aux chromaShift)
      ((places (width / 2) (height / 2)).foldl (spreadChroma main) (.filled 0)))
  have inBlocks : ∃ k ∈ places (width / 2) (height / 2), column / 2 = k.1 ∧ row / 2 = k.2 :=
    ⟨(column / 2, row / 2), (mem_places _).mpr ⟨by omega, by omega⟩, rfl, rfl⟩
  rw [if_pos inBlocks] at spread
  refine oddRows.trans ?_
  rw [oddColumns, spread]
  by_cases oddColumn : column % 2 = 1
  · rw [if_pos oddColumn, if_neg (by rintro ⟨k, _, which, _⟩; omega), if_pos]
    exact ⟨(column / 2, row), (mem_places _).mpr ⟨by omega, inRow⟩, by omega, rfl⟩
  · rw [if_neg oddColumn]
    by_cases oddRow : row % 2 = 1
    · rw [if_pos oddRow, if_pos]
      exact ⟨(column / 4, row / 2), (mem_places _).mpr ⟨by omega, by omega⟩, by omega, by omega⟩
    · rw [if_neg oddRow, if_neg (by rintro ⟨k, _, _, which⟩; omega), if_neg (by rintro ⟨k, _, which, _⟩; omega)]

end Unpacking

/-- The rectangle widened to multiples of four columns and two rows, within the frame. -/
def gridEdges (e : Edges) (width height : Nat) : Edges :=
  ⟨(alignDown e.left 4).toNat, (alignDown e.top 2).toNat, (alignUp e.right 4).clampTo width, (alignUp e.bottom 2).clampTo height⟩

/-- The pixel is in one of the regions, clamped and widened. -/
def InGrid (regions : List Region) (width height px py : Nat) : Prop :=
  ∃ e ∈ regions.filterMap fun r => clampRegion r width height, (gridEdges e width height).Covers px py

instance (regions : List Region) (width height px py : Nat) : Decidable (InGrid regions width height px py) :=
  inferInstanceAs (Decidable (∃ e ∈ _, _))

section Packing

variable {width height : Nat}

theorem clampRegion_inside {r : Region} {e : Edges} (run : clampRegion r width height = some e) :
    e.Inside width height ∧ width < 2 ^ 31 ∧ height < 2 ^ 31 := by
  obtain ⟨small, run⟩ := Option.ite_none_right_eq_some.mp run
  exact ⟨Region.clip_inside run, small⟩

/-- The widened rectangle consists of whole blocks. -/
theorem gridEdges_even (fours : width % 4 = 0) (even : height % 2 = 0) (columns : width < 2 ^ 31) (rows : height < 2 ^ 31)
    {e : Edges} (inside : e.Inside width height) :
    (gridEdges e width height).left % 2 = 0 ∧ (gridEdges e width height).top % 2 = 0 ∧
      (gridEdges e width height).right % 2 = 0 ∧ (gridEdges e width height).bottom % 2 = 0 ∧
      (gridEdges e width height).right ≤ width := by
  obtain ⟨_, _, right, bottom⟩ := inside
  have stop := Int.clampTo_le (alignUp (e.right : Int) 4) width
  have rights : ((alignUp (e.right : Int) 4).clampTo width) % 2 = 0 := by
    unfold alignUp saturatingAdd Int.clampTo
    dsimp only
    split <;> omega
  have bottoms : ((alignUp (e.bottom : Int) 2).clampTo height) % 2 = 0 := by
    unfold alignUp saturatingAdd Int.clampTo
    dsimp only
    split <;> omega
  unfold gridEdges alignDown
  exact ⟨by dsimp only; omega, by dsimp only; omega, rights, bottoms, stop⟩

/-- The blocks of a region inside the frame are blocks of the frame. -/
theorem convertedBlocks_inFrame {e : Edges} {k : Nat × Nat} (member : k ∈ convertedBlocks e width height) :
    k.1 < width / 2 ∧ k.2 < height / 2 := by
  unfold convertedBlocks at member
  simp only [List.mem_flatMap, List.mem_map, List.mem_range'_1] at member
  obtain ⟨cy, cyIn, cx, cxIn, rfl⟩ := member
  have right := Int.clampTo_le (alignUp (e.right : Int) 4) width
  have bottom := Int.clampTo_le (alignUp (e.bottom : Int) 2) height
  dsimp only
  omega

/-- No block is written beyond the end of a row or below the last row of a plane. -/
theorem convertBlock_outside (bgra : Bytes) (stride : Nat) (fours : width % 4 = 0) (even : height % 2 = 0) (p : Avc444Planes)
    {k : Nat × Nat} (inFrame : k.1 < width / 2 ∧ k.2 < height / 2) {s : Sample} (outside : ¬ s.InFrame width height) :
    (convertBlock bgra stride width p k).sample s = p.sample s := by
  obtain ⟨cx, cy⟩ := k
  obtain ⟨role, channel, row, column⟩ := s
  dsimp only at inFrame
  by_cases first : cx % 2 = 0 <;> cases role <;> cases channel <;> simp only [Sample.InFrame, Sample.packed] at outside <;>
    simp only [convertBlock, Avc444Planes.sample, Avc444Planes.subframe, Yuv420.plane, first, if_true, if_false, Plane.set_at] <;>
    split_ifs <;> first | rfl | omega

/-- The blocks that are converted for a region are those whose samples belong to the widened region. -/
theorem mem_convertedBlocks_grid (fours : width % 4 = 0) (even : height % 2 = 0) (columns : width < 2 ^ 31)
    (rows : height < 2 ^ 31) {e : Edges} (inside : e.Inside width height) (s : Sample) :
    s.block width ∈ convertedBlocks e width height ↔ (gridEdges e width height).Covers (s.origin width).1 (s.origin width).2 := by
  obtain ⟨left, top, right, bottom, _⟩ := gridEdges_even fours even columns rows inside
  have blocks : convertedBlocks e width height = (List.range' ((gridEdges e width height).top / 2)
      ((gridEdges e width height).bottom / 2 - (gridEdges e width height).top / 2)).flatMap fun cy =>
      (List.range' ((gridEdges e width height).left / 2)
        ((gridEdges e width height).right / 2 - (gridEdges e width height).left / 2)).map fun cx => (cx, cy) := rfl
  rw [blocks]
  generalize gridEdges e width height = g at *
  unfold Sample.block Edges.Covers
  generalize s.origin width = o
  simp only [List.mem_flatMap, List.mem_map, List.mem_range'_1, Prod.mk.injEq]
  constructor
  · rintro ⟨cy, cyIn, cx, cxIn, same, same'⟩
    omega
  · intro covers
    exact ⟨o.2 / 2, by omega, o.1 / 2, by omega, rfl, rfl⟩

/-- Any list of regions: exactly the samples of the clamped and widened regions are set. -/
theorem bgraToAvc444V2PlaneRegions_grid (bgra : Bytes) (stride : Nat) (fours : width % 4 = 0) (even : height % 2 = 0)
    (regions : List Region) (p : Avc444Planes) {s : Sample} (inFrame : s.InFrame width height) :
    (bgraToAvc444V2PlaneRegions width height bgra stride regions p).sample s =
      if InGrid regions width height (s.origin width).1 (s.origin width).2 then s.ofFrame bgra stride width else p.sample s := by
  unfold bgraToAvc444V2PlaneRegions
  induction regions generalizing p with
  | nil => rw [if_neg (by rintro ⟨_, member, _⟩; cases member), List.foldl_nil]
  | cons r regions ih =>
    rw [List.foldl_cons, ih]
    cases run : clampRegion r width height with
    | none =>
      have same : InGrid (r :: regions) width height (s.origin width).1 (s.origin width).2 ↔
          InGrid regions width height (s.origin width).1 (s.origin width).2 := by
        unfold InGrid
        rw [List.filterMap_cons, run]
      simp only [same]
    | some e =>
      obtain ⟨inside, columns, rows⟩ := clampRegion_inside run
      have valid : ∀ k ∈ convertedBlocks e width height, k.1 < width / 2 := fun k member => (convertedBlocks_inFrame member).1
      have split : InGrid (r :: regions) width height (s.origin width).1 (s.origin width).2 ↔
          (gridEdges e width height).Covers (s.origin width).1 (s.origin width).2 ∨
            InGrid regions width height (s.origin width).1 (s.origin width).2 := by
        unfold InGrid
        rw [List.filterMap_cons, run]
        simp only [List.mem_cons, exists_eq_or_imp]
      dsimp only
      rw [convertBlocks_sample bgra stride fours valid p inFrame]
      simp only [split, mem_convertedBlocks_grid fours even columns rows inside]
      split_ifs <;> first | rfl | tauto

theorem bgraToAvc444V2PlaneRegions_outside (bgra : Bytes) (stride : Nat) (fours : width % 4 = 0) (even : height % 2 = 0)
    (regions : List Region) (p : Avc444Planes) {s : Sample} (outside : ¬ s.InFrame width height) :
    (bgraToAvc444V2PlaneRegions width height bgra stride regions p).sample s = p.sample s := by
  refine @foldl_keep _ _ _ _ (fun p : Avc444Planes => p.sample s) (fun p r => ?_) regions p
  cases clampRegion r width height with
  | none => rfl
  | some e =>
    have blocks : ∀ (ks : List (Nat × Nat)) (p : Avc444Planes), (∀ k ∈ ks, k.1 < width / 2 ∧ k.2 < height / 2) →
        (ks.foldl (convertBlock bgra stride width) p).sample s = p.sample s := by
      intro ks
      induction ks with
      | nil => exact fun _ _ => rfl
      | cons k ks ih =>
        intro p inFrame
        rw [List.foldl_cons, ih _ fun k member => inFrame k (List.mem_cons_of_mem _ member)]
        exact convertBlock_outside bgra stride fours even p (inFrame k List.mem_cons_self) outside
    exact blocks _ p fun k => convertedBlocks_inFrame

/-- What the client sees of a frame: every pixel has its own colour, except that the pixels at an even column of an even row
have the averaged chroma of their block. -/
def unpackedPixel (bgra : Bytes) (stride px py : Nat) : UInt8 × UInt8 × UInt8 :=
  let pixel := fun x y => bgraPixelToYuv bgra stride x y
  if px % 2 = 0 ∧ py % 2 = 0 then
    ((pixel px py).1,
      avg4Floor (pixel px py).2.1 (pixel (px + 1) py).2.1 (pixel px (py + 1)).2.1 (pixel (px + 1) (py + 1)).2.1,
      avg4Floor (pixel px py).2.2 (pixel (px + 1) py).2.2 (pixel px (py + 1)).2.2 (pixel (px + 1) (py + 1)).2.2)
  else pixel px py

theorem ofFrame_chroma (bgra : Bytes) (stride : Nat) {s : Sample} {px py : Nat} (chroma : s.role = .chroma)
    (origin : s.origin width = (px, py)) : s.ofFrame bgra stride width =
      if s.inRightHalf width then (bgraPixelToYuv bgra stride px py).2.2 else (bgraPixelToYuv bgra stride px py).2.1 := by
  unfold Sample.ofFrame
  rw [origin, chroma]

/-- Where the chroma of a pixel is packed, if it is not at an even column of an even row. -/
def chromaSample (width px py : Nat) (second : Bool) : Sample :=
  if px % 2 = 1 then ⟨.chroma, .y, py, px / 2 + if second then width / 2 else 0⟩
  else ⟨.chroma, if px % 4 = 0 then .u else .v, py / 2, px / 4 + if second then width / 4 else 0⟩

theorem chromaSample_spec (fours : width % 4 = 0) {px py : Nat} (inColumn : px < width) (inRow : py < height)
    (own : ¬ (px % 2 = 0 ∧ py % 2 = 0)) (second : Bool) :
    (chromaSample width px py second).role = .chroma ∧ (chromaSample width px py second).InFrame width height ∧
      (chromaSample width px py second).origin width = (px, py) ∧
      (chromaSample width px py second).inRightHalf width = second := by
  unfold chromaSample
  by_cases oddColumn : px % 2 = 1
  · rw [if_pos oddColumn]
    cases second <;>
      simp only [Sample.InFrame, Sample.packed, Sample.origin, Sample.inRightHalf, Prod.mk.injEq, decide_eq_true_eq,
        decide_eq_false_iff_not, Bool.false_eq_true, if_false, if_true, true_and, and_true] <;>
      split_ifs <;> omega
  · rw [if_neg oddColumn]
    by_cases first : px % 4 = 0
    · rw [if_pos first]
      cases second <;>
        simp only [Sample.InFrame, Sample.packed, Sample.origin, Sample.inRightHalf, Prod.mk.injEq, decide_eq_true_eq,
          decide_eq_false_iff_not, Bool.false_eq_true, if_false, if_true, true_and] <;>
        split_ifs <;> omega
    · rw [if_neg first]
      cases second <;>
        simp only [Sample.InFrame, Sample.packed, Sample.origin, Sample.inRightHalf, Prod.mk.injEq, decide_eq_true_eq,
          decide_eq_false_iff_not, Bool.false_eq_true, if_false, if_true, true_and] <;>
        split_ifs <;> omega

/-- Unpacking looks for the chroma where it was packed. -/
theorem combineChroma_own (fours : width % 4 = 0) (even : height % 2 = 0) (q : Avc444Planes) (main : Plane) {px py : Nat}
    (inColumn : px < width) (inRow : py < height) (own : ¬ (px % 2 = 0 ∧ py % 2 = 0)) (second : Bool) :
    combineChroma width height main q.aux (if second then width / 2 else 0) (if second then width / 4 else 0) py px =
      q.sample (chromaSample width px py second) := by
  rw [combineChroma_at fours even _ _ _ _ inRow inColumn]
  unfold chromaSample
  by_cases oddColumn : px % 2 = 1
  · rw [if_pos oddColumn, if_pos oddColumn]
    rfl
  · rw [if_neg oddColumn, if_neg oddColumn, if_pos (by omega : py % 2 = 1)]
    by_cases first : px % 4 = 0
    · rw [if_pos first, if_pos first]
      rfl
    · rw [if_neg first, if_neg first]
      rfl

/-- Unpacking what was packed gives the pixels of the converted regions back, and every other sample is left alone. -/
theorem packing_faithful_and_local (bgra : Bytes) (stride : Nat) (fours : width % 4 = 0) (even : height % 2 = 0)
    (regions : List Region) (p : Avc444Planes) :
    (∀ px py, px < width → py < height → InGrid regions width height px py →
      let planes := combineAvc444V2Planes width height (bgraToAvc444V2PlaneRegions width height bgra stride regions p)
      (planes.1 py px, planes.2.1 py px, planes.2.2 py px) = unpackedPixel bgra stride px py) ∧
    ∀ s : Sample, (s.InFrame width height → ¬ InGrid regions width height (s.origin width).1 (s.origin width).2) →
      (bgraToAvc444V2PlaneRegions width height bgra stride regions p).sample s = p.sample s := by
  have sample := fun {s : Sample} => @bgraToAvc444V2PlaneRegions_grid width height bgra stride fours even regions p s
  refine ⟨fun px py inColumn inRow inGrid => ?_, fun s outside => ?_⟩
  · have found {s : Sample} (inFrame : s.InFrame width height) (origin : s.origin width = (px, py)) :
        (bgraToAvc444V2PlaneRegions width height bgra stride regions p).sample s = s.ofFrame bgra stride width := by
      rw [sample inFrame, origin, if_pos inGrid]
    have luma : (bgraToAvc444V2PlaneRegions width height bgra stride regions p).main.y py px = (bgraPixelToYuv bgra stride px py).1 :=
      @found ⟨.luma, .y, py, px⟩ ⟨inColumn, inRow⟩ rfl
    generalize bgraToAvc444V2PlaneRegions width height bgra stride regions p = q at *
    show (q.main.y py px, combineChroma width height q.main.u q.aux 0 0 py px,
      combineChroma width height q.main.v q.aux (width / 2) (width / 4) py px) = _
    rw [luma]
    unfold unpackedPixel
    by_cases averaged : px % 2 = 0 ∧ py % 2 = 0
    · have origin : (2 * (px / 2), 2 * (py / 2)) = (px, py) := Prod.ext (by omega) (by omega)
      have within : 2 * (px / 2) < width ∧ 2 * (py / 2) < height := by omega
      have first := @found ⟨.luma, .u, py / 2, px / 2⟩ within origin
      have second := @found ⟨.luma, .v, py / 2, px / 2⟩ within origin
      unfold Sample.ofFrame at first second
      rw [show Sample.origin ⟨.luma, .u, py / 2, px / 2⟩ width = (px, py) from origin] at first
      rw [show Sample.origin ⟨.luma, .v, py / 2, px / 2⟩ width = (px, py) from origin] at second
      rw [if_pos averaged, combineChroma_at fours even _ _ _ _ inRow inColumn, combineChroma_at fours even _ _ _ _ inRow inColumn,
        if_neg (by omega), if_neg (by omega), if_neg (by omega), if_neg (by omega)]
      exact Prod.ext rfl (Prod.ext first second)
    · rw [if_neg averaged]
      have chroma (main : Plane) (second : Bool) := combineChroma_own fours even q main inColumn inRow averaged second
      have value (second : Bool) : q.sample (chromaSample width px py second) =
          if second then (bgraPixelToYuv bgra stride px py).2.2 else (bgraPixelToYuv bgra stride px py).2.1 := by
        obtain ⟨role, inFrame, origin, half⟩ := chromaSample_spec fours inColumn inRow averaged second
        have isFound := (found inFrame origin).trans (ofFrame_chroma bgra stride role origin)
        rw [half] at isFound
        exact isFound
      exact Prod.ext rfl (Prod.ext ((chroma _ false).trans (value false)) ((chroma _ true).trans (value true)))
  · by_cases inFrame : s.InFrame width height
    · rw [sample inFrame, if_neg (outside inFrame)]
    · exact bgraToAvc444V2PlaneRegions_outside bgra stride fours even regions p inFrame

end Packing

/-- One region in the left half of a frame of eight columns and two rows. -/
theorem packing_faithful_and_local_once :
    let p := bgraToAvc444V2PlaneRegions 8 2 ⟨64, fun i => UInt8.ofNat (5 * i)⟩ 32 [⟨1, 0, 1, 1⟩] .initial
    let planes := combineAvc444V2Planes 8 2 p
    (planes.1 1 3, planes.2.1 1 3, planes.2.2 1 3) = unpackedPixel ⟨64, fun i => UInt8.ofNat (5 * i)⟩ 32 3 1 ∧
      p.sample ⟨.chroma, .y, 1, 2⟩ = 128 :=
  let packing := @packing_faithful_and_local 8 2 ⟨64, fun i => UInt8.ofNat (5 * i)⟩ 32 rfl rfl [⟨1, 0, 1, 1⟩] .initial
  ⟨packing.1 3 1 (by decide) (by decide) (by decide), packing.2 ⟨.chroma, .y, 1, 2⟩ fun _ => by decide⟩

end HyprRdp
