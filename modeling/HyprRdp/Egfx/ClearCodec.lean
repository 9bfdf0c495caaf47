import HyprRdp.Lib.RegionList
import HyprRdp.Capture.Scale
import Mathlib.Data.List.Sort
import Mathlib.Data.List.Dedup

namespace HyprRdp

/-- Joins a span to the last one when they touch; the spans come sorted by their left ends. -/
def mergeSpan (merged : List (Nat × Nat)) (span : Nat × Nat) : List (Nat × Nat) :=
  match merged.getLast? with
  | none => merged ++ [span]
  | some last =>
    if span.1 ≤ last.2 then merged.dropLast ++ [(last.1, max last.2 span.2)] else merged ++ [span]

def spanLe (a b : Nat × Nat) : Prop := a.1 < b.1 ∨ a.1 = b.1 ∧ a.2 ≤ b.2

instance : DecidableRel spanLe := fun _ _ => inferInstanceAs (Decidable (_ ∨ _))

/-- The horizontal spans of the rectangles that fill the band, sorted and joined. -/
def bandSpans (clipped : List Edges) (band : Nat × Nat) : List (Nat × Nat) :=
  let spans := (clipped.filter fun e => e.top ≤ band.1 ∧ band.2 ≤ e.bottom).map fun e => (e.left, e.right)
  (spans.insertionSort spanLe).foldl mergeSpan []

/-- The horizontal bands between neighbouring edges. The list is sorted, so
dropping equal neighbours drops all repetitions. -/
def bands (clipped : List Edges) : List (Nat × Nat) :=
  let ys := ((clipped.flatMap fun e => [e.top, e.bottom]).insertionSort (· ≤ ·)).dedup
  ys.zip ys.tail

def bandRectangles (clipped : List Edges) : List Edges :=
  (bands clipped).flatMap fun band =>
    (bandSpans clipped band).flatMap fun span => Edges.tiles 64 ⟨span.1, band.1, span.2, band.2⟩

structure ClearCodecInput where
  data : Bytes
  stride : Nat
  pixelFormat : PixelFormat
  rectangles : List Edges

def PixelFormat.clearCodecSupported : PixelFormat → Bool
  | .bgrA32 | .bgrX32 | .rgbA32 | .rgbX32 => true
  | .aRgb32 | .xRgb32 | .aBgr32 | .xBgr32 => false

def ClearCodecInput.new (data : Bytes) (width height stride : Nat) (damage : List Region)
    (pixelFormat : PixelFormat) : Except String ClearCodecInput :=
  if pixelFormat.clearCodecSupported = false then .error "unsupported ClearCodec input format"
  else if ¬ (0 < width ∧ 0 < height) then .error "empty ClearCodec frame"
  else if stride < width * 4 then .error "ClearCodec stride is too short"
  else
    match checkedMul 64 stride height with
    | none => .error "ClearCodec buffer length overflow"
    | some len =>
      if data.len < len then .error "ClearCodec buffer is too short"
      else
        let clipped := damage.filterMap fun r => r.clip (· + ·) width height
        .ok { data, stride, pixelFormat, rectangles := bandRectangles clipped }

/-- The point lies in one of the half-open spans. -/
def InSpans (spans : List (Nat × Nat)) (x : Nat) : Prop := ∃ s ∈ spans, s.1 ≤ x ∧ x < s.2

@[simp] theorem InSpans.nil (x : Nat) : ¬ InSpans [] x := by
  rintro ⟨s, member, _⟩
  cases member

theorem InSpans.append (xs ys : List (Nat × Nat)) (x : Nat) :
    InSpans (xs ++ ys) x ↔ InSpans xs x ∨ InSpans ys x := by
  unfold InSpans
  simp only [List.mem_append, or_and_right, exists_or]

theorem InSpans.singleton (s : Nat × Nat) (x : Nat) : InSpans [s] x ↔ s.1 ≤ x ∧ x < s.2 := by
  unfold InSpans
  simp only [List.mem_singleton, exists_eq_left]

theorem mergeSpan_inSpans {merged : List (Nat × Nat)} {span : Nat × Nat}
    (sorted : ∀ last ∈ merged.getLast?, last.1 ≤ span.1) (x : Nat) :
    InSpans (mergeSpan merged span) x ↔ InSpans merged x ∨ (span.1 ≤ x ∧ x < span.2) := by
  induction merged using List.reverseRecOn with
  | nil => simp only [mergeSpan, List.getLast?_nil, List.nil_append, InSpans.singleton, InSpans.nil, false_or]
  | append_singleton front last _ =>
    have order : last.1 ≤ span.1 := sorted last (by simp)
    simp only [mergeSpan, List.getLast?_append, List.getLast?_singleton, Option.some_or, List.dropLast_concat]
    split
    · simp only [InSpans.append, InSpans.singleton]
      constructor
      · rintro (before | ⟨fromLeft, toRight⟩)
        · exact .inl (.inl before)
        · by_cases old : x < last.2
          · exact .inl (.inr ⟨fromLeft, old⟩)
          · exact .inr (by omega)
      · rintro ((before | ⟨fromLeft, toRight⟩) | ⟨fromLeft, toRight⟩)
        · exact .inl before
        · exact .inr (by omega)
        · exact .inr (by omega)
    · simp only [InSpans.append, InSpans.singleton]

theorem mergeSpan_last {merged : List (Nat × Nat)} {span last : Nat × Nat}
    (sorted : ∀ last ∈ merged.getLast?, last.1 ≤ span.1) (atLast : last ∈ (mergeSpan merged span).getLast?) :
    last.1 ≤ span.1 := by
  unfold mergeSpan at atLast
  split at atLast
  · simp only [List.getLast?_append, List.getLast?_singleton, Option.some_or, Option.mem_some_iff] at atLast
    exact atLast ▸ le_rfl
  · rename_i old atOld
    split at atLast
    · simp only [List.getLast?_append, List.getLast?_singleton, Option.some_or, Option.mem_some_iff] at atLast
      exact atLast ▸ sorted old atOld
    · simp only [List.getLast?_append, List.getLast?_singleton, Option.some_or, Option.mem_some_iff] at atLast
      exact atLast ▸ le_rfl

/-- Joining sorted spans keeps the set of points they cover. -/
theorem mergeSpans_inSpans (spans : List (Nat × Nat)) (x : Nat) :
    ∀ merged : List (Nat × Nat), spans.Pairwise spanLe → (∀ last ∈ merged.getLast?, ∀ s ∈ spans, last.1 ≤ s.1) →
      (InSpans (spans.foldl mergeSpan merged) x ↔ InSpans merged x ∨ InSpans spans x) := by
  induction spans with
  | nil =>
    intro merged _ _
    simp only [List.foldl_nil, InSpans.nil, or_false]
  | cons span spans ih =>
    intro merged sorted above
    obtain ⟨first, rest⟩ := List.pairwise_cons.mp sorted
    have here : ∀ last ∈ merged.getLast?, last.1 ≤ span.1 := fun last atLast => above last atLast span List.mem_cons_self
    have next : ∀ last ∈ (mergeSpan merged span).getLast?, ∀ s ∈ spans, last.1 ≤ s.1 := by
      intro last atLast s member
      have order := first s member
      have before := mergeSpan_last here atLast
      unfold spanLe at order
      omega
    have split := InSpans.append [span] spans x
    rw [List.singleton_append, InSpans.singleton] at split
    rw [List.foldl_cons, ih _ rest next, mergeSpan_inSpans here, split, or_assoc]

instance : Std.Total spanLe where
  total a b := by
    unfold spanLe
    omega

instance : IsTrans (Nat × Nat) spanLe where
  trans a b c first second := by
    unfold spanLe at *
    omega

theorem bandSpans_inSpans (clipped : List Edges) (band : Nat × Nat) (x : Nat) :
    InSpans (bandSpans clipped band) x ↔
      ∃ e ∈ clipped, (e.top ≤ band.1 ∧ band.2 ≤ e.bottom) ∧ e.left ≤ x ∧ x < e.right := by
  unfold bandSpans
  dsimp only
  rw [mergeSpans_inSpans _ x [] (List.pairwise_insertionSort spanLe _) (by simp)]
  unfold InSpans
  simp only [List.not_mem_nil, false_and, exists_false, false_or, List.mem_insertionSort, List.mem_map,
    List.mem_filter, decide_eq_true_eq]
  constructor
  · rintro ⟨_, ⟨e, ⟨member, fills⟩, rfl⟩, inside⟩
    exact ⟨e, member, fills, inside⟩
  · rintro ⟨e, member, fills, inside⟩
    exact ⟨_, ⟨e, ⟨member, fills⟩, rfl⟩, inside⟩

/-- Between two values of a sorted list a point falls into one of its gaps. -/
theorem exists_band {ys : List Nat} (sorted : ys.Pairwise (· ≤ ·)) {lo hi y : Nat} (loMem : lo ∈ ys) (hiMem : hi ∈ ys)
    (above : lo ≤ y) (below : y < hi) :
    ∃ band ∈ ys.zip ys.tail, (lo ≤ band.1 ∧ band.2 ≤ hi) ∧ band.1 ≤ y ∧ y < band.2 := by
  induction ys generalizing lo with
  | nil => cases loMem
  | cons a rest ih =>
    obtain ⟨first, tailSorted⟩ := List.pairwise_cons.mp sorted
    cases rest with
    | nil =>
      cases List.mem_singleton.mp loMem
      cases List.mem_singleton.mp hiMem
      omega
    | cons c rest =>
      have next := first c List.mem_cons_self
      have later := (List.pairwise_cons.mp tailSorted).1
      have hiLater : hi ∈ c :: rest := by
        rcases List.mem_cons.mp hiMem with same | member
        · subst same
          rcases List.mem_cons.mp loMem with same' | member'
          · omega
          · have := first lo member'
            omega
        · exact member
      by_cases inFirst : y < c
      · have loFirst : lo = a := by
          rcases List.mem_cons.mp loMem with same | member
          · exact same
          · rcases List.mem_cons.mp member with same | deeper
            · omega
            · have := later lo deeper
              omega
        have hiAbove : c ≤ hi := by
          rcases List.mem_cons.mp hiLater with same | deeper
          · exact same ▸ le_rfl
          · exact later hi deeper
        exact ⟨(a, c), by simp, ⟨loFirst.le, hiAbove⟩, loFirst ▸ above, inFirst⟩
      · obtain ⟨lower, lowerMem, order⟩ : ∃ lower ∈ c :: rest, lo ≤ lower ∧ lower ≤ y := by
          rcases List.mem_cons.mp loMem with same | member
          · exact ⟨c, List.mem_cons_self, by omega, by omega⟩
          · exact ⟨lo, member, le_rfl, above⟩
        obtain ⟨band, member, ⟨fromLo, toHi⟩, inside⟩ := ih tailSorted lowerMem hiLater order.2
        exact ⟨band, List.mem_cons_of_mem _ member, ⟨order.1.trans fromLo, toHi⟩, inside⟩

/-- The band rectangles cover exactly the pixels of the clipped rectangles. -/
theorem bandRectangles_covers (clipped : List Edges) (px py : Nat) :
    (∃ t ∈ bandRectangles clipped, t.Covers px py) ↔ ∃ e ∈ clipped, e.Covers px py := by
  have size : 0 < 64 := by decide
  unfold bandRectangles
  simp only [List.mem_flatMap]
  constructor
  · rintro ⟨t, ⟨band, _, span, isSpan, tile⟩, covers⟩
    obtain ⟨fromLeft, toRight, fromTop, toBottom⟩ := (Edges.tiles_covers size).mp ⟨t, tile, covers⟩
    obtain ⟨e, member, fills, inside⟩ := (bandSpans_inSpans clipped band px).mp ⟨span, isSpan, fromLeft, toRight⟩
    refine ⟨e, member, inside.1, inside.2, fills.1.trans fromTop, ?_⟩
    dsimp only at toBottom
    omega
  · rintro ⟨e, member, fromLeft, toRight, fromTop, toBottom⟩
    let ys := ((clipped.flatMap fun e => [e.top, e.bottom]).insertionSort (· ≤ ·)).dedup
    have sorted : ys.Pairwise (· ≤ ·) :=
      List.Pairwise.sublist (List.dedup_sublist _) (List.pairwise_insertionSort (· ≤ ·) _)
    have topMem : e.top ∈ ys := by
      refine List.mem_dedup.mpr ((List.mem_insertionSort _).mpr (List.mem_flatMap.mpr ⟨e, member, by simp⟩))
    have bottomMem : e.bottom ∈ ys := by
      refine List.mem_dedup.mpr ((List.mem_insertionSort _).mpr (List.mem_flatMap.mpr ⟨e, member, by simp⟩))
    obtain ⟨band, isBand, fills, inBand⟩ := exists_band sorted topMem bottomMem fromTop toBottom
    obtain ⟨span, isSpan, inSpan⟩ := (bandSpans_inSpans clipped band px).mpr ⟨e, member, fills, fromLeft, toRight⟩
    obtain ⟨t, tile, covers⟩ := (Edges.tiles_covers (e := ⟨span.1, band.1, span.2, band.2⟩) size).mpr
      ⟨inSpan.1, inSpan.2, inBand.1, inBand.2⟩
    exact ⟨t, ⟨band, isBand, span, isSpan, tile⟩, covers⟩

theorem ClearCodecInput.new_ok {data : Bytes} {width height stride : Nat} {damage : List Region}
    {pixelFormat : PixelFormat} {input : ClearCodecInput}
    (run : ClearCodecInput.new data width height stride damage pixelFormat = .ok input) :
    width * 4 ≤ stride ∧ stride * height ≤ data.len ∧
      input = ⟨data, stride, pixelFormat, bandRectangles (damage.filterMap fun r => r.clip (· + ·) width height)⟩ := by
  unfold ClearCodecInput.new at run
  split at run
  · cases run
  split at run
  · cases run
  split at run
  · cases run
  rename_i wide
  split at run
  · cases run
  rename_i len product
  split at run
  · cases run
  rename_i long
  cases run
  cases checkedMul_eq_some product
  exact ⟨not_lt.mp wide, not_lt.mp long, rfl⟩

/-- The rectangles of an accepted input cover the damage inside the frame, and nothing else. -/
theorem ClearCodecInput.new_covers {data : Bytes} {width height stride : Nat} {damage : List Region}
    {pixelFormat : PixelFormat} {input : ClearCodecInput}
    (run : ClearCodecInput.new data width height stride damage pixelFormat = .ok input) (px py : Nat) :
    (∃ t ∈ input.rectangles, t.Covers px py) ↔ px < width ∧ py < height ∧ Covered damage px py := by
  obtain ⟨_, _, rfl⟩ := new_ok run
  rw [bandRectangles_covers]
  simp only [List.mem_filterMap]
  constructor
  · rintro ⟨e, ⟨r, member, clipped⟩, covers⟩
    obtain ⟨column, row, inside⟩ := (Region.clip_covers clipped px py).mp covers
    exact ⟨column, row, r, member, inside⟩
  · rintro ⟨column, row, r, member, inside⟩
    cases clipped : r.clip (· + ·) width height with
    | none => exact absurd inside (Region.clip_none clipped column row)
    | some e => exact ⟨e, ⟨r, member, clipped⟩, (Region.clip_covers clipped px py).mpr ⟨column, row, inside⟩⟩

end HyprRdp
