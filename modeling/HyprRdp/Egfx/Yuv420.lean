import HyprRdp.Lib.RegionList
import Mathlib.Tactic.SplitIfs

namespace HyprRdp

/-- One plane of samples by row and column; the source keeps it as a flat
vector in which the sample is at `row * width + column`. -/
def Plane := Nat → Nat → UInt8

def Plane.filled (v : UInt8) : Plane := fun _ _ => v

def Plane.set (p : Plane) (row column : Nat) (v : UInt8) : Plane :=
  fun r c => if r = row ∧ c = column then v else p r c

inductive Channel
  | y | u | v
  deriving DecidableEq, Repr

/-- A 4:2:0 picture: a luma plane and two chroma planes of half the extent. -/
structure Yuv420 where
  y : Plane
  u : Plane
  v : Plane

def Yuv420.plane (p : Yuv420) : Channel → Plane
  | .y => p.y
  | .u => p.u
  | .v => p.v

inductive Avc444SubframeRole
  | luma | chroma
  deriving DecidableEq, Repr

/-- The planes of the encoder: `y444`, `main_u`, `main_v` make the luma
subframe, `aux_y`, `aux_u`, `aux_v` the chroma subframe. -/
structure Avc444Planes where
  main : Yuv420
  aux : Yuv420

def Avc444Planes.subframe (p : Avc444Planes) : Avc444SubframeRole → Yuv420
  | .luma => p.main
  | .chroma => p.aux

def Avc444Planes.initial : Avc444Planes :=
  ⟨⟨.filled 0, .filled 128, .filled 128⟩, ⟨.filled 128, .filled 128, .filled 128⟩⟩

def clampByte (v : Int) : UInt8 := UInt8.ofNat (v.clampTo 255)

/-- The table entries are these multiples of the component; the shift rounds down. -/
def bgraComponentsToYuv (r g b : Int) : UInt8 × UInt8 × UInt8 :=
  (clampByte ((54 * r + 183 * g + 18 * b) / 256), clampByte ((-29 * r + -99 * g + 128 * b) / 256 + 128),
    clampByte ((128 * r + -116 * g + -12 * b) / 256 + 128))

def bgraPixelToYuv (bgra : Bytes) (stride x y : Nat) : UInt8 × UInt8 × UInt8 :=
  let offset := y * stride + x * 4
  bgraComponentsToYuv (bgra.byte (offset + 2)).toNat (bgra.byte (offset + 1)).toNat (bgra.byte offset).toNat

def avg4Floor (a b c d : UInt8) : UInt8 := UInt8.ofNat ((a.toNat + b.toNat + c.toNat + d.toNat) / 4)

/-- Converts the 2x2 block of pixels in block column `k.1` and block row `k.2`. -/
def convertBlock (bgra : Bytes) (stride width : Nat) (p : Avc444Planes) (k : Nat × Nat) : Avc444Planes :=
  let (cx, cy) := k
  let chromaW := width / 2
  let quarterW := width / 4
  let x := cx * 2
  let evenY := cy * 2
  let oddY := evenY + 1
  let (ya, ua, va) := bgraPixelToYuv bgra stride x evenY
  let (yb, ub, vb) := bgraPixelToYuv bgra stride (x + 1) evenY
  let (yc, uc, vc) := bgraPixelToYuv bgra stride x oddY
  let (yd, ud, vd) := bgraPixelToYuv bgra stride (x + 1) oddY
  let main : Yuv420 :=
    { y := (((p.main.y.set evenY x ya).set evenY (x + 1) yb).set oddY x yc).set oddY (x + 1) yd
      u := p.main.u.set cy cx (avg4Floor ua ub uc ud)
      v := p.main.v.set cy cx (avg4Floor va vb vc vd) }
  let auxY := (((p.aux.y.set evenY cx ub).set evenY (cx + chromaW) vb).set oddY cx ud).set oddY (cx + chromaW) vd
  let auxX := cx / 2
  let aux : Yuv420 :=
    { y := auxY
      u := if cx % 2 = 0 then (p.aux.u.set cy auxX uc).set cy (auxX + quarterW) vc else p.aux.u
      v := if cx % 2 = 0 then p.aux.v else (p.aux.v.set cy auxX uc).set cy (auxX + quarterW) vc }
  ⟨main, aux⟩

def alignDown (value alignment : Int) : Int := value - value % alignment

def alignUp (value alignment : Int) : Int :=
  let rem := value % alignment
  if rem = 0 then value else saturatingAdd 32 value (alignment - rem)

def clampRegion (r : Region) (width height : Nat) : Option Edges :=
  if width < 2 ^ 31 ∧ height < 2 ^ 31 then r.clip (saturatingAdd 32) width height else none

/-- The blocks of a clamped region, its columns widened to multiples of four. -/
def convertedBlocks (e : Edges) (width height : Nat) : List (Nat × Nat) :=
  let left := (alignDown e.left 4).toNat
  let top := (alignDown e.top 2).toNat
  let right := (alignUp e.right 4).clampTo width
  let bottom := (alignUp e.bottom 2).clampTo height
  (List.range' (top / 2) (bottom / 2 - top / 2)).flatMap fun cy =>
    (List.range' (left / 2) (right / 2 - left / 2)).map fun cx => (cx, cy)

def bgraToAvc444V2PlaneRegions (width height : Nat) (bgra : Bytes) (stride : Nat) (regions : List Region)
    (p : Avc444Planes) : Avc444Planes :=
  regions.foldl
    (fun p r =>
      match clampRegion r width height with
      | none => p
      | some e => (convertedBlocks e width height).foldl (convertBlock bgra stride width) p)
    p

def planeDiffers (a b : Plane) (e : Edges) : Bool :=
  (List.range' e.top (e.bottom - e.top)).any fun row =>
    (List.range' e.left (e.right - e.left)).any fun column => a row column != b row column

/-- The samples of the chroma planes that belong to a rectangle of the luma plane. -/
def halved (e : Edges) : Edges := ⟨e.left / 2, e.top / 2, (e.right + 1) / 2, (e.bottom + 1) / 2⟩

def yuv420TileChanged (p reference : Yuv420) (e : Edges) : Bool :=
  planeDiffers p.y reference.y e || planeDiffers p.u reference.u (halved e) || planeDiffers p.v reference.v (halved e)

def copyPlaneRegion (src dst : Plane) (e : Edges) : Plane :=
  fun row column => if e.Covers column row then src row column else dst row column

def copyYuv420Region (p reference : Yuv420) (e : Edges) : Yuv420 :=
  ⟨copyPlaneRegion p.y reference.y e, copyPlaneRegion p.u reference.u (halved e),
    copyPlaneRegion p.v reference.v (halved e)⟩

def updateYuv420ReferenceRegions (reference : Option Yuv420) (width height : Nat) (p : Yuv420)
    (regions : List Region) : Option Yuv420 :=
  match reference with
  | none => some p
  | some reference =>
    some (regions.foldl
      (fun reference r =>
        match clampRegion r width height with
        | none => reference
        | some e => copyYuv420Region p reference e)
      reference)

/-- One sample of the six planes. -/
structure Sample where
  role : Avc444SubframeRole
  channel : Channel
  row : Nat
  column : Nat
  deriving DecidableEq, Repr

def Avc444Planes.sample (p : Avc444Planes) (s : Sample) : UInt8 :=
  (p.subframe s.role).plane s.channel s.row s.column

namespace Sample

/-- The luma place of a sample in its own subframe. -/
def packed (s : Sample) : Nat × Nat :=
  match s.channel with
  | .y => (s.column, s.row)
  | .u | .v => (2 * s.column, 2 * s.row)

def InFrame (s : Sample) (width height : Nat) : Prop := s.packed.1 < width ∧ s.packed.2 < height

/-- Whether a sample of the chroma subframe lies in the right half, where the second chroma component is packed. -/
def inRightHalf (s : Sample) (width : Nat) : Bool :=
  match s.channel with
  | .y => decide (width / 2 ≤ s.column)
  | .u | .v => decide (width / 4 ≤ s.column)

/-- The pixel of the frame that a sample is taken from; for the averaged
samples, the first pixel of the block. -/
def origin (s : Sample) (width : Nat) : Nat × Nat :=
  match s.role, s.channel with
  | .luma, .y => (s.column, s.row)
  | .luma, .u | .luma, .v => (2 * s.column, 2 * s.row)
  | .chroma, .y => (2 * (s.column - if s.inRightHalf width then width / 2 else 0) + 1, s.row)
  | .chroma, .u => (4 * (s.column - if s.inRightHalf width then width / 4 else 0), 2 * s.row + 1)
  | .chroma, .v => (4 * (s.column - if s.inRightHalf width then width / 4 else 0) + 2, 2 * s.row + 1)

def block (s : Sample) (width : Nat) : Nat × Nat := ((s.origin width).1 / 2, (s.origin width).2 / 2)

/-- The value of the sample in the AVC444v2 planes of a frame. -/
def ofFrame (bgra : Bytes) (stride width : Nat) (s : Sample) : UInt8 :=
  let pixel := fun x y => bgraPixelToYuv bgra stride x y
  let (x, y) := s.origin width
  match s.role, s.channel with
  | .luma, .y => (pixel x y).1
  | .luma, .u => avg4Floor (pixel x y).2.1 (pixel (x + 1) y).2.1 (pixel x (y + 1)).2.1 (pixel (x + 1) (y + 1)).2.1
  | .luma, .v => avg4Floor (pixel x y).2.2 (pixel (x + 1) y).2.2 (pixel x (y + 1)).2.2 (pixel (x + 1) (y + 1)).2.2
  | .chroma, _ => if s.inRightHalf width then (pixel x y).2.2 else (pixel x y).2.1

end Sample

/-- Two columns of one row, as a conversion step writes them. -/
theorem Plane.set_pair (p : Plane) (f : Nat → Nat → UInt8) (row left right : Nat) {a b : UInt8}
    (first : a = f row left) (second : b = f row right) (r c : Nat) :
    ((p.set row left a).set row right b) r c = if r = row ∧ (c = left ∨ c = right) then f r c else p r c := by
  subst first second
  unfold Plane.set
  by_cases inRow : r = row
  · subst inRow
    by_cases isRight : c = right
    · subst isRight
      simp
    · by_cases isLeft : c = left
      · subst isLeft
        simp [isRight]
      · simp [isLeft, isRight]
  · simp [inRow]

theorem Plane.set_square (p : Plane) (f : Nat → Nat → UInt8) (row left right : Nat) {a b c d : UInt8}
    (first : a = f row left) (second : b = f row right) (third : c = f (row + 1) left)
    (fourth : d = f (row + 1) right) (i j : Nat) :
    ((((p.set row left a).set row right b).set (row + 1) left c).set (row + 1) right d) i j =
      if (i = row ∨ i = row + 1) ∧ (j = left ∨ j = right) then f i j else p i j := by
  rw [Plane.set_pair _ f _ _ _ third fourth, Plane.set_pair _ f _ _ _ first second]
  split_ifs <;> first | rfl | omega

section Conversion

variable (bgra : Bytes) (stride : Nat) {width height : Nat}

theorem convertBlock_sample (fours : width % 4 = 0) (p : Avc444Planes) {k : Nat × Nat} (valid : k.1 < width / 2)
    {s : Sample} (inFrame : s.InFrame width height) :
    (convertBlock bgra stride width p k).sample s =
      if s.block width = k then s.ofFrame bgra stride width else p.sample s := by
  obtain ⟨cx, cy⟩ := k
  obtain ⟨role, channel, row, column⟩ := s
  dsimp only [Sample.InFrame, Sample.packed] at valid inFrame
  simp only [convertBlock, Avc444Planes.sample, Avc444Planes.subframe, Yuv420.plane, Sample.block, Sample.origin,
    Sample.ofFrame, Sample.inRightHalf, Prod.mk.injEq]
  cases role with
  | luma =>
    cases channel with
    | y =>
      dsimp only
      rw [Plane.set_square p.main.y (fun r c => (bgraPixelToYuv bgra stride c r).1) (cy * 2) (cx * 2) (cx * 2 + 1)
        rfl rfl rfl rfl]
      split_ifs <;> first | rfl | omega
    | u =>
      dsimp only
      by_cases here : row = cy ∧ column = cx
      · obtain ⟨rfl, rfl⟩ := here
        simp [Plane.set, Nat.mul_comm 2]
      · have elsewhere : ¬ (2 * column / 2 = cx ∧ 2 * row / 2 = cy) := by omega
        simp only [Plane.set, here, elsewhere, if_false]
    | v =>
      dsimp only
      by_cases here : row = cy ∧ column = cx
      · obtain ⟨rfl, rfl⟩ := here
        simp [Plane.set, Nat.mul_comm 2]
      · have elsewhere : ¬ (2 * column / 2 = cx ∧ 2 * row / 2 = cy) := by omega
        simp only [Plane.set, here, elsewhere, if_false]
  | chroma =>
    cases channel with
    | y =>
      dsimp only at inFrame ⊢
      rw [Plane.set_square p.aux.y
        (fun r c => if width / 2 ≤ c then (bgraPixelToYuv bgra stride (2 * (c - width / 2) + 1) r).2.2
          else (bgraPixelToYuv bgra stride (2 * c + 1) r).2.1) (cy * 2) cx (cx + width / 2)
        (by rw [if_neg (by omega), Nat.mul_comm 2]) (by rw [if_pos (by omega), Nat.add_sub_cancel, Nat.mul_comm 2])
        (by rw [if_neg (by omega), Nat.mul_comm 2]) (by rw [if_pos (by omega), Nat.add_sub_cancel, Nat.mul_comm 2])]
      by_cases right : width / 2 ≤ column
      · simp only [right, decide_true, if_true]
        split_ifs <;> first | rfl | omega
      · simp only [right, decide_false, if_false, Bool.false_eq_true, Nat.sub_zero]
        split_ifs <;> first | rfl | omega
    | u =>
      dsimp only at inFrame ⊢
      by_cases even : cx % 2 = 0
      · have quarter : 4 * (cx / 2) = cx * 2 := by omega
        rw [if_pos even, Plane.set_pair p.aux.u
          (fun r c => if width / 4 ≤ c then (bgraPixelToYuv bgra stride (4 * (c - width / 4)) (2 * r + 1)).2.2
            else (bgraPixelToYuv bgra stride (4 * c) (2 * r + 1)).2.1) cy (cx / 2) (cx / 2 + width / 4)
          (by rw [if_neg (by omega), quarter, Nat.mul_comm 2])
          (by rw [if_pos (by omega), Nat.add_sub_cancel, quarter, Nat.mul_comm 2])]
        by_cases right : width / 4 ≤ column
        · simp only [right, decide_true, if_true]
          split_ifs <;> first | rfl | omega
        · simp only [right, decide_false, if_false, Bool.false_eq_true, Nat.sub_zero]
          split_ifs <;> first | rfl | omega
      · rw [if_neg even, if_neg]
        split_ifs <;> omega
    | v =>
      dsimp only at inFrame ⊢
      by_cases even : cx % 2 = 0
      · rw [if_pos even, if_neg]
        split_ifs <;> omega
      · have quarter : 4 * (cx / 2) + 2 = cx * 2 := by omega
        rw [if_neg even, Plane.set_pair p.aux.v
          (fun r c => if width / 4 ≤ c then (bgraPixelToYuv bgra stride (4 * (c - width / 4) + 2) (2 * r + 1)).2.2
            else (bgraPixelToYuv bgra stride (4 * c + 2) (2 * r + 1)).2.1) cy (cx / 2) (cx / 2 + width / 4)
          (by rw [if_neg (by omega), quarter, Nat.mul_comm 2])
          (by rw [if_pos (by omega), Nat.add_sub_cancel, quarter, Nat.mul_comm 2])]
        by_cases right : width / 4 ≤ column
        · simp only [right, decide_true, if_true]
          split_ifs <;> first | rfl | omega
        · simp only [right, decide_false, if_false, Bool.false_eq_true, Nat.sub_zero]
          split_ifs <;> first | rfl | omega

theorem convertBlocks_sample (fours : width % 4 = 0) {blocks : List (Nat × Nat)} (valid : ∀ k ∈ blocks, k.1 < width / 2)
    (p : Avc444Planes) {s : Sample} (inFrame : s.InFrame width height) :
    (blocks.foldl (convertBlock bgra stride width) p).sample s =
      if s.block width ∈ blocks then s.ofFrame bgra stride width else p.sample s := by
  induction blocks generalizing p with
  | nil => rfl
  | cons k blocks ih =>
    have first := convertBlock_sample bgra stride fours p (valid k List.mem_cons_self) inFrame
    rw [List.foldl_cons, ih (fun k member => valid k (List.mem_cons_of_mem _ member)), first]
    by_cases later : s.block width ∈ blocks
    · rw [if_pos later, if_pos (List.mem_cons_of_mem _ later)]
    · by_cases here : s.block width = k
      · rw [if_neg later, if_pos here, if_pos (here ▸ List.mem_cons_self)]
      · rw [if_neg later, if_neg here, if_neg (by simp [later, here])]

end Conversion

/-- The pixel a sample is taken from lies in the frame. -/
theorem Sample.origin_inFrame {width height : Nat} (fours : width % 4 = 0) (even : height % 2 = 0) {s : Sample}
    (inFrame : s.InFrame width height) : (s.origin width).1 < width ∧ (s.origin width).2 < height := by
  obtain ⟨role, channel, row, column⟩ := s
  cases role with
  | luma => cases channel <;> exact inFrame
  | chroma =>
    cases channel <;> simp only [InFrame, packed, origin, inRightHalf, decide_eq_true_eq] at inFrame ⊢ <;>
      split_ifs <;> omega

theorem clampRegion_within {r : Region} {width height : Nat} (columns : width < 2 ^ 31) (rows : height < 2 ^ 31)
    (within : r.Within width height) : clampRegion r width height = some r.toEdges := by
  obtain ⟨left, top, wide, tall, right, bottom⟩ := within
  have across : (r.x + r.w).clampTo width = (r.x + r.w).toNat := by
    unfold Int.clampTo
    omega
  have down : (r.y + r.h).clampTo height = (r.y + r.h).toNat := by
    unfold Int.clampTo
    omega
  have fromLeft : r.x.clampTo width = r.x.toNat := by
    unfold Int.clampTo
    omega
  have fromTop : r.y.clampTo height = r.y.toNat := by
    unfold Int.clampTo
    omega
  unfold clampRegion
  rw [if_pos ⟨columns, rows⟩, Region.clip_saturating_32 columns rows]
  unfold Region.clip
  rw [if_neg (by omega), across, down, fromLeft, fromTop, if_neg (by omega)]
  rfl

/-- The blocks of an aligned region are those whose samples it covers. -/
theorem mem_convertedBlocks {r : Region} {width height : Nat} (columns : width < 2 ^ 31) (rows : height < 2 ^ 31)
    (within : r.Within width height) (aligned : r.Aligned 4 2) (s : Sample) :
    s.block width ∈ convertedBlocks r.toEdges width height ↔ r.Covers (s.origin width).1 (s.origin width).2 := by
  obtain ⟨left, top, wide, tall, right, bottom⟩ := within
  obtain ⟨x4, w4, y2, h2⟩ := aligned
  unfold convertedBlocks Sample.block
  simp only [List.mem_flatMap, List.mem_map, List.mem_range'_1, Prod.mk.injEq, Region.Covers, Region.toEdges]
  generalize s.origin width = o
  have lefts : (alignDown (r.x.toNat : Int) 4).toNat = r.x.toNat := by
    unfold alignDown
    omega
  have tops : (alignDown (r.y.toNat : Int) 2).toNat = r.y.toNat := by
    unfold alignDown
    omega
  have rights : (alignUp ((r.x + r.w).toNat : Int) 4).clampTo width = (r.x + r.w).toNat := by
    unfold alignUp Int.clampTo
    dsimp only
    rw [if_pos (by omega)]
    omega
  have bottoms : (alignUp ((r.y + r.h).toNat : Int) 2).clampTo height = (r.y + r.h).toNat := by
    unfold alignUp Int.clampTo
    dsimp only
    rw [if_pos (by omega)]
    omega
  rw [lefts, tops, rights, bottoms]
  constructor
  · rintro ⟨cy, cyIn, cx, cxIn, same, same'⟩
    omega
  · intro covers
    exact ⟨o.2 / 2, by omega, o.1 / 2, by omega, rfl, rfl⟩

/-- Converting aligned regions sets exactly the samples whose pixel they cover. -/
theorem bgraToAvc444V2PlaneRegions_sample (bgra : Bytes) (stride : Nat) {width height : Nat} (columns : width < 2 ^ 31)
    (rows : height < 2 ^ 31) (fours : width % 4 = 0) {regions : List Region}
    (good : ∀ r ∈ regions, r.Within width height ∧ r.Aligned 4 2) (p : Avc444Planes) {s : Sample}
    (inFrame : s.InFrame width height) :
    (bgraToAvc444V2PlaneRegions width height bgra stride regions p).sample s =
      if Covered regions (s.origin width).1 (s.origin width).2 then s.ofFrame bgra stride width else p.sample s := by
  unfold bgraToAvc444V2PlaneRegions
  induction regions generalizing p with
  | nil => rw [if_neg (Covered.nil _ _), List.foldl_nil]
  | cons r regions ih =>
    obtain ⟨within, aligned⟩ := good r List.mem_cons_self
    have blocks := mem_convertedBlocks columns rows within aligned s
    have valid : ∀ k ∈ convertedBlocks r.toEdges width height, k.1 < width / 2 := by
      intro k member
      unfold convertedBlocks at member
      simp only [List.mem_flatMap, List.mem_map, List.mem_range'_1] at member
      obtain ⟨cy, _, cx, cxIn, rfl⟩ := member
      have bound := Int.clampTo_le (alignUp (r.toEdges.right : Int) 4) width
      dsimp only
      omega
    rw [List.foldl_cons, ih (fun r member => good r (List.mem_cons_of_mem _ member)), clampRegion_within columns rows within]
    dsimp only
    rw [convertBlocks_sample bgra stride fours valid p inFrame]
    simp only [Covered.cons, blocks]
    split_ifs <;> first | rfl | tauto

/-- What a sample's place in its own subframe holds. -/
def Yuv420.at (p : Yuv420) (s : Sample) : UInt8 := p.plane s.channel s.row s.column

theorem planeDiffers_false {a b : Plane} {e : Edges} (same : planeDiffers a b e = false) {row column : Nat}
    (covers : e.Covers column row) : a row column = b row column := by
  obtain ⟨fromLeft, toRight, fromTop, toBottom⟩ := covers
  unfold planeDiffers at same
  rw [List.any_eq_false] at same
  have rowSame := same row (List.mem_range'_1.mpr (by omega))
  rw [List.any_eq_true, not_exists] at rowSame
  have sampleSame := rowSame column
  simp only [List.mem_range'_1, bne_iff_ne, ne_eq, not_and, not_not] at sampleSame
  exact sampleSame (by omega)

theorem halved_covers {e : Edges} (left : 2 ∣ e.left) (top : 2 ∣ e.top) (column row : Nat) :
    (halved e).Covers column row ↔ e.Covers (2 * column) (2 * row) := by
  unfold halved Edges.Covers
  dsimp only
  omega

theorem yuv420TileChanged_false {p reference : Yuv420} {e : Edges} (left : 2 ∣ e.left) (top : 2 ∣ e.top)
    (same : yuv420TileChanged p reference e = false) {s : Sample} (covers : e.Covers s.packed.1 s.packed.2) :
    p.at s = reference.at s := by
  unfold yuv420TileChanged at same
  rw [Bool.or_eq_false_iff, Bool.or_eq_false_iff] at same
  obtain ⟨role, channel, row, column⟩ := s
  cases channel with
  | y => exact planeDiffers_false same.1.1 covers
  | u => exact planeDiffers_false same.1.2 ((halved_covers left top _ _).mpr covers)
  | v => exact planeDiffers_false same.2 ((halved_covers left top _ _).mpr covers)

theorem copyYuv420Region_at (p reference : Yuv420) {e : Edges} (left : 2 ∣ e.left) (top : 2 ∣ e.top) (s : Sample) :
    (copyYuv420Region p reference e).at s = if e.Covers s.packed.1 s.packed.2 then p.at s else reference.at s := by
  obtain ⟨role, channel, row, column⟩ := s
  cases channel with
  | y => rfl
  | u =>
    simp only [Yuv420.at, Yuv420.plane, copyYuv420Region, copyPlaneRegion, halved_covers left top]
    rfl
  | v =>
    simp only [Yuv420.at, Yuv420.plane, copyYuv420Region, copyPlaneRegion, halved_covers left top]
    rfl

/-- Updating an existing reference sets exactly the samples inside the regions. -/
theorem updateYuv420ReferenceRegions_at (p reference : Yuv420) {width height : Nat} (columns : width < 2 ^ 31)
    (rows : height < 2 ^ 31) {regions : List Region} (good : ∀ r ∈ regions, r.Within width height ∧ r.Aligned 2 2)
    (s : Sample) :
    ∃ updated, updateYuv420ReferenceRegions (some reference) width height p regions = some updated ∧
      updated.at s = if Covered regions s.packed.1 s.packed.2 then p.at s else reference.at s := by
  refine ⟨_, rfl, ?_⟩
  induction regions generalizing reference with
  | nil => rw [if_neg (Covered.nil _ _), List.foldl_nil]
  | cons r regions ih =>
    obtain ⟨within, aligned⟩ := good r List.mem_cons_self
    have left : 2 ∣ r.toEdges.left := by
      have := aligned.x
      have := within.left
      simp only [Region.toEdges]
      omega
    have top : 2 ∣ r.toEdges.top := by
      have := aligned.y
      have := within.top
      simp only [Region.toEdges]
      omega
    have covers : r.toEdges.Covers s.packed.1 s.packed.2 ↔ r.Covers s.packed.1 s.packed.2 := by
      rw [← Region.covers_toRegion, within.toEdges.2]
    rw [List.foldl_cons, ih _ fun r member => good r (List.mem_cons_of_mem _ member),
      clampRegion_within columns rows within]
    dsimp only
    rw [copyYuv420Region_at p reference left top s]
    simp only [Covered.cons, covers]
    split_ifs <;> first | rfl | tauto

end HyprRdp
