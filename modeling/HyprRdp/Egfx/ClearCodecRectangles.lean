import HyprRdp.Egfx.ClearCodec

namespace HyprRdp

/-- The scratch rectangles of a span in a band. Their ends are added up in 16 bits, with saturation. -/
def scratchRectangles (e : Edges) : List Edges :=
  (List.range' e.top ((e.bottom - e.top + 63) / 64) 64).flatMap fun y =>
    (List.range' e.left ((e.right - e.left + 63) / 64) 64).map fun x =>
      ⟨x, y, min e.right (min (x + 64) 65535), min e.bottom (min (y + 64) 65535)⟩

/-- Swaps the first and the third byte of every pixel. -/
def swapRedBlue : List UInt8 → List UInt8
  | r :: g :: b :: a :: rest => b :: g :: r :: a :: swapRedBlue rest
  | rest => rest

def ClearCodecInput.pixels (input : ClearCodecInput) (rect : Edges) : Option (List UInt8) := do
  let rowBytes := (rect.right - rect.left) * 4
  let rows ← (List.range' rect.top (rect.bottom - rect.top)).mapM fun y =>
    let start := y * input.stride + rect.left * 4
    input.data.slice start (start + rowBytes)
  match input.pixelFormat with
  | .rgbA32 | .rgbX32 => some (swapRedBlue rows.flatten)
  | _ => some rows.flatten

/-- The spans are sorted and do not touch. -/
def Separated (spans : List (Nat × Nat)) : Prop := spans.Pairwise fun a b => a.2 < b.1

theorem mergeSpan_separated {merged : List (Nat × Nat)} {span : Nat × Nat} (parts : Separated merged)
    (sorted : ∀ last ∈ merged.getLast?, last.1 ≤ span.1) : Separated (mergeSpan merged span) := by
  induction merged using List.reverseRecOn with
  | nil => exact List.pairwise_singleton _ _
  | append_singleton front last _ =>
    have order : last.1 ≤ span.1 := sorted last (by simp)
    obtain ⟨frontParts, _, before⟩ := List.pairwise_append.mp parts
    have beforeLast : ∀ a ∈ front, a.2 < last.1 := fun a member => before a member last List.mem_cons_self
    simp only [mergeSpan, List.getLast?_append, List.getLast?_singleton, Option.some_or, List.dropLast_concat]
    split
    · refine List.pairwise_append.mpr ⟨frontParts, List.pairwise_singleton _ _, fun a member b here => ?_⟩
      cases List.mem_singleton.mp here
      exact beforeLast a member
    · rename_i gap
      refine List.pairwise_append.mpr ⟨parts, List.pairwise_singleton _ _, fun a member b here => ?_⟩
      cases List.mem_singleton.mp here
      rcases List.mem_append.mp member with old | last'
      · have := beforeLast a old
        omega
      · cases List.mem_singleton.mp last'
        omega

theorem mergeSpans_separated (spans : List (Nat × Nat)) :
    ∀ merged : List (Nat × Nat), Separated merged → spans.Pairwise spanLe →
      (∀ last ∈ merged.getLast?, ∀ s ∈ spans, last.1 ≤ s.1) → Separated (spans.foldl mergeSpan merged) := by
  induction spans with
  | nil => exact fun _ parts _ _ => parts
  | cons span spans ih =>
    intro merged parts sorted above
    obtain ⟨first, rest⟩ := List.pairwise_cons.mp sorted
    have here : ∀ last ∈ merged.getLast?, last.1 ≤ span.1 := fun last atLast => above last atLast span List.mem_cons_self
    refine ih _ (mergeSpan_separated parts here) rest fun last atLast s member => ?_
    have before := mergeSpan_last here atLast
    have order := first s member
    unfold spanLe at order
    omega

theorem bandSpans_separated (clipped : List Edges) (band : Nat × Nat) : Separated (bandSpans clipped band) :=
  mergeSpans_separated _ [] List.Pairwise.nil (List.pairwise_insertionSort spanLe _) (by simp)

/-- The gaps of a sorted list come one after the other. -/
theorem gaps_ordered {ys : List Nat} (sorted : ys.Pairwise (· ≤ ·)) :
    (ys.zip ys.tail).Pairwise fun a b => a.2 ≤ b.1 := by
  induction ys with
  | nil => exact List.Pairwise.nil
  | cons y rest ih =>
    obtain ⟨_, restSorted⟩ := List.pairwise_cons.mp sorted
    cases rest with
    | nil => exact List.Pairwise.nil
    | cons next rest =>
      refine List.pairwise_cons.mpr ⟨fun gap member => ?_, ih restSorted⟩
      rcases List.mem_cons.mp (List.of_mem_zip member).1 with same | later
      · exact same.ge
      · exact (List.pairwise_cons.mp restSorted).1 _ later

theorem bands_ordered (clipped : List Edges) : (bands clipped).Pairwise fun a b => a.2 ≤ b.1 :=
  gaps_ordered (List.Pairwise.sublist (List.dedup_sublist _) (List.pairwise_insertionSort (· ≤ ·) _))

/-- The band rectangles do not overlap. -/
theorem bandRectangles_apart (clipped : List Edges) : (bandRectangles clipped).Pairwise Edges.Apart := by
  have size : 0 < 64 := by decide
  have inside {e t : Edges} (tile : t ∈ e.tiles 64) {px py : Nat} (covers : t.Covers px py) : e.Covers px py :=
    (Edges.tiles_covers size).mp ⟨t, tile, covers⟩
  unfold bandRectangles
  rw [List.pairwise_flatMap]
  constructor
  · intro band _
    rw [List.pairwise_flatMap]
    refine ⟨fun span _ => Edges.tiles_apart size _, ?_⟩
    refine (bandSpans_separated clipped band).imp fun {a b} gap s sTile t tTile px py first second => ?_
    obtain ⟨_, toRight, _⟩ := inside sTile first
    obtain ⟨fromLeft, _⟩ := inside tTile second
    dsimp only at toRight fromLeft
    omega
  · refine (bands_ordered clipped).imp fun {a b} order s sMember t tMember px py first second => ?_
    obtain ⟨_, _, sTile⟩ := List.mem_flatMap.mp sMember
    obtain ⟨_, _, tTile⟩ := List.mem_flatMap.mp tMember
    obtain ⟨_, _, _, toBottom⟩ := inside sTile first
    obtain ⟨_, _, fromTop, _⟩ := inside tTile second
    dsimp only at toBottom fromTop
    omega

/-- The ends of the rectangles never saturate. -/
theorem scratchRectangles_eq {e : Edges} (right : e.right ≤ 65535) (bottom : e.bottom ≤ 65535) :
    scratchRectangles e = e.tiles 64 := by
  unfold scratchRectangles Edges.tiles
  congr 1
  funext y
  congr 1
  funext x
  rw [Edges.mk.injEq]
  omega

theorem mergeSpan_le {bound : Nat} {merged : List (Nat × Nat)} {span : Nat × Nat} (all : ∀ s ∈ merged, s.2 ≤ bound)
    (one : span.2 ≤ bound) : ∀ s ∈ mergeSpan merged span, s.2 ≤ bound := by
  intro s member
  unfold mergeSpan at member
  split at member
  · rcases List.mem_append.mp member with old | last
    · exact all s old
    · exact List.mem_singleton.mp last ▸ one
  · rename_i last atLast
    have lastBound := all last (List.mem_of_getLast? atLast)
    split at member
    · rcases List.mem_append.mp member with old | joined
      · exact all s (List.dropLast_subset _ old)
      · cases List.mem_singleton.mp joined
        exact max_le lastBound one
    · rcases List.mem_append.mp member with old | new
      · exact all s old
      · exact List.mem_singleton.mp new ▸ one

theorem bandSpans_le {bound : Nat} {clipped : List Edges} (all : ∀ e ∈ clipped, e.right ≤ bound) (band : Nat × Nat) :
    ∀ span ∈ bandSpans clipped band, span.2 ≤ bound := by
  have loop : ∀ (spans merged : List (Nat × Nat)), (∀ s ∈ spans, s.2 ≤ bound) → (∀ s ∈ merged, s.2 ≤ bound) →
      ∀ s ∈ spans.foldl mergeSpan merged, s.2 ≤ bound := by
    intro spans
    induction spans with
    | nil => exact fun _ _ all => all
    | cons span spans ih =>
      intro merged later before
      exact ih _ (fun s member => later s (List.mem_cons_of_mem _ member))
        (mergeSpan_le before (later span List.mem_cons_self))
  refine loop _ [] (fun s member => ?_) (by simp)
  obtain ⟨e, isFilling, rfl⟩ := List.mem_map.mp ((List.mem_insertionSort _).mp member)
  exact all e (List.mem_filter.mp isFilling).1

theorem bands_le {bound : Nat} {clipped : List Edges} (all : ∀ e ∈ clipped, e.top ≤ bound ∧ e.bottom ≤ bound) :
    ∀ band ∈ bands clipped, band.2 ≤ bound := by
  intro band member
  have stop := List.mem_of_mem_tail (List.of_mem_zip member).2
  obtain ⟨e, isClipped, edge⟩ := List.mem_flatMap.mp ((List.mem_insertionSort _).mp (List.mem_dedup.mp stop))
  rcases List.mem_pair.mp edge with same | same
  · exact same ▸ (all e isClipped).1
  · exact same ▸ (all e isClipped).2

/-- The rectangles as the source adds them up. -/
def saturatingRectangles (clipped : List Edges) : List Edges :=
  (bands clipped).flatMap fun band =>
    (bandSpans clipped band).flatMap fun span => scratchRectangles ⟨span.1, band.1, span.2, band.2⟩

theorem saturatingRectangles_eq {clipped : List Edges} {width height : Nat} (columns : width < 2 ^ 16) (rows : height < 2 ^ 16)
    (inside : ∀ e ∈ clipped, e.Inside width height) : saturatingRectangles clipped = bandRectangles clipped := by
  have spans := fun band => bandSpans_le (fun e member => (inside e member).right_le) band
  have stops := bands_le fun e member => by
    obtain ⟨_, rows, _, bottom⟩ := inside e member
    exact ⟨rows.le.trans bottom, bottom⟩
  unfold saturatingRectangles bandRectangles
  refine List.flatMap_congr fun band isBand => List.flatMap_congr fun span isSpan => scratchRectangles_eq ?_ ?_
  · have := spans band span isSpan
    dsimp only
    omega
  · have := stops band isBand
    dsimp only
    omega

namespace ClearCodecInput

variable {data : Bytes} {width height stride : Nat} {damage : List Region} {pixelFormat : PixelFormat} {input : ClearCodecInput}

/-- The rows of a rectangle inside the frame are inside the buffer. -/
theorem pixels_some (wide : width * 4 ≤ input.stride) (long : input.stride * height ≤ input.data.len) {t : Edges}
    (inside : t.Inside width height) : ∃ bytes, input.pixels t = some bytes := by
  obtain ⟨columns, rows, right, bottom⟩ := inside
  have row : ∀ ys : List Nat, (∀ y ∈ ys, y < t.bottom) → ∃ rows, (ys.mapM fun y =>
      input.data.slice (y * input.stride + t.left * 4) (y * input.stride + t.left * 4 + (t.right - t.left) * 4)) = some rows := by
    intro ys
    induction ys with
    | nil => exact fun _ => ⟨[], rfl⟩
    | cons y ys ih =>
      intro above
      obtain ⟨rest, found⟩ := ih fun y member => above y (List.mem_cons_of_mem _ member)
      have here := above y List.mem_cons_self
      have lines : (y + 1) * input.stride ≤ height * input.stride := Nat.mul_le_mul_right _ (by omega)
      rw [Nat.succ_mul, Nat.mul_comm height] at lines
      have slice := @Bytes.slice_of_le input.data (y * input.stride + t.left * 4)
        (y * input.stride + t.left * 4 + (t.right - t.left) * 4) (by omega) (by omega)
      rw [List.mapM_cons, slice, found]
      exact ⟨_, rfl⟩
  obtain ⟨read, found⟩ := row (List.range' t.top (t.bottom - t.top)) fun y member => by
    have := List.mem_range'_1.mp member
    omega
  unfold pixels
  dsimp only
  rw [found]
  cases input.pixelFormat <;> exact ⟨_, rfl⟩

/-- The rectangles of an accepted input are an exact partition of the damage inside the frame. -/
theorem new_partition (columns : width < 2 ^ 16) (rows : height < 2 ^ 16)
    (run : ClearCodecInput.new data width height stride damage pixelFormat = .ok input) :
    input.rectangles = saturatingRectangles (damage.filterMap fun r => r.clip (· + ·) width height) ∧
    input.rectangles.Pairwise Edges.Apart ∧
    (∀ t ∈ input.rectangles, t.Inside width height ∧ t.right ≤ t.left + 64 ∧ t.bottom ≤ t.top + 64 ∧
      ∃ bytes, input.pixels t = some bytes) ∧
    ∀ px py, px < width → py < height →
      ((∃ t ∈ input.rectangles, t.Covers px py) ↔ ∃ r ∈ damage, 0 < r.w ∧ 0 < r.h ∧ r.Covers px py) := by
  have covers := new_covers run
  obtain ⟨wide, long, rfl⟩ := new_ok run
  have clipped : ∀ e ∈ damage.filterMap fun r => r.clip (· + ·) width height, e.Inside width height := by
    intro e member
    obtain ⟨r, _, clip⟩ := List.mem_filterMap.mp member
    exact Region.clip_inside clip
  refine ⟨(saturatingRectangles_eq columns rows clipped).symm, bandRectangles_apart _, fun t member => ?_, fun px py column row => ?_⟩
  · obtain ⟨band, _, spanMember⟩ := List.mem_flatMap.mp member
    obtain ⟨span, _, tile⟩ := List.mem_flatMap.mp spanMember
    obtain ⟨⟨across, acrossSize⟩, down, downSize⟩ := Edges.tiles_size (by decide) tile
    -- The last pixel of the rectangle is in the frame, which bounds its edges.
    have last := (covers (t.right - 1) (t.bottom - 1)).mp ⟨t, member, by unfold Edges.Covers; omega⟩
    have inside : t.Inside width height := ⟨across, down, by omega, by omega⟩
    exact ⟨inside, acrossSize, downSize, pixels_some wide long inside⟩
  · rw [covers]
    simp only [column, row, true_and]
    constructor
    · rintro ⟨r, member, covered⟩
      have size := covered
      unfold Region.Covers at size
      exact ⟨r, member, by omega, by omega, covered⟩
    · rintro ⟨r, member, _, _, covered⟩
      exact ⟨r, member, covered⟩

/-- Two overlapping rectangles that reach beyond a small frame. -/
theorem new_partition_once :
    let damage := [⟨-2, 0, 4, 2⟩, ⟨1, 1, 2147483647, 2147483647⟩]
    ∃ input, ClearCodecInput.new (.zeros 48) 4 3 16 damage .rgbA32 = .ok input ∧ input.rectangles.Pairwise Edges.Apart :=
  ⟨_, rfl, (@new_partition (.zeros 48) 4 3 16 [⟨-2, 0, 4, 2⟩, ⟨1, 1, 2147483647, 2147483647⟩] .rgbA32 _
    (by decide) (by decide) rfl).2.1⟩

end ClearCodecInput

end HyprRdp
