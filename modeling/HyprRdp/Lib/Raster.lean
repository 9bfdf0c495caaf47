import Mathlib.Data.List.Basic
import Mathlib.Algebra.Order.Ring.Nat

/-- A rectangle given by its corner and its extent, as signed integers; it may
lie partly or wholly off the raster. -/
structure Region where
  x : Int
  y : Int
  w : Int
  h : Int
  deriving DecidableEq, Repr

/-- A rectangle inside a raster given by its edges, the last two exclusive. -/
structure Edges where
  left : Nat
  top : Nat
  right : Nat
  bottom : Nat
  deriving DecidableEq, Repr

/-- Signed addition at the given width that stops at the ends of the range. -/
def saturatingAdd (bits : Nat) (a b : Int) : Int :=
  max (-2 ^ (bits - 1)) (min (a + b) (2 ^ (bits - 1) - 1))

def Int.clampTo (v : Int) (bound : Nat) : Nat := (max 0 (min v bound)).toNat

theorem Int.clampTo_le (v : Int) (bound : Nat) : v.clampTo bound ≤ bound := by
  unfold Int.clampTo
  omega

/-- Clamping hides the saturation: the ends of the range are outside the raster. -/
theorem clampTo_saturatingAdd_32 {bound : Nat} (small : bound < 2 ^ 31) (a b : Int) :
    (saturatingAdd 32 a b).clampTo bound = (a + b).clampTo bound := by
  unfold Int.clampTo saturatingAdd
  omega

theorem clampTo_saturatingAdd_64 {bound : Nat} (small : bound < 2 ^ 63) (a b : Int) :
    (saturatingAdd 64 a b).clampTo bound = (a + b).clampTo bound := by
  unfold Int.clampTo saturatingAdd
  omega

namespace Edges

def Covers (e : Edges) (px py : Nat) : Prop :=
  e.left ≤ px ∧ px < e.right ∧ e.top ≤ py ∧ py < e.bottom

instance (e : Edges) (px py : Nat) : Decidable (e.Covers px py) :=
  inferInstanceAs (Decidable (_ ∧ _ ∧ _ ∧ _))

/-- Non-empty and inside the raster. -/
structure Inside (e : Edges) (width height : Nat) : Prop where
  columns : e.left < e.right
  rows : e.top < e.bottom
  right_le : e.right ≤ width
  bottom_le : e.bottom ≤ height

def toRegion (e : Edges) : Region := ⟨e.left, e.top, e.right - e.left, e.bottom - e.top⟩

end Edges

namespace Region

def Covers (r : Region) (px py : Nat) : Prop :=
  r.x ≤ px ∧ (px : Int) < r.x + r.w ∧ r.y ≤ py ∧ (py : Int) < r.y + r.h

instance (r : Region) (px py : Nat) : Decidable (r.Covers px py) :=
  inferInstanceAs (Decidable (_ ∧ _ ∧ _ ∧ _))

@[simp] theorem covers_toRegion (e : Edges) (px py : Nat) : e.toRegion.Covers px py ↔ e.Covers px py := by
  simp only [Covers, Edges.Covers, Edges.toRegion]
  omega

/-- The edges of a region inside the raster. -/
def toEdges (r : Region) : Edges := ⟨r.x.toNat, r.y.toNat, (r.x + r.w).toNat, (r.y + r.h).toNat⟩

/-- The region from the origin to the far corner of the raster. -/
def full (width height : Nat) : Region := ⟨0, 0, width, height⟩

@[simp] theorem covers_full (width height px py : Nat) :
    (full width height).Covers px py ↔ px < width ∧ py < height := by
  simp only [Covers, full]
  omega

/-- Clamps the edges of a region to the raster and drops what is then empty.
The parameter is the addition that computes the far edges. -/
def clip (add : Int → Int → Int) (r : Region) (width height : Nat) : Option Edges :=
  if r.w ≤ 0 ∨ r.h ≤ 0 then none
  else
    let left := r.x.clampTo width
    let top := r.y.clampTo height
    let right := (add r.x r.w).clampTo width
    let bottom := (add r.y r.h).clampTo height
    if right ≤ left ∨ bottom ≤ top then none else some ⟨left, top, right, bottom⟩

theorem clip_congr {add other : Int → Int → Int} {width height : Nat}
    (columns : ∀ a b, (add a b).clampTo width = (other a b).clampTo width)
    (rows : ∀ a b, (add a b).clampTo height = (other a b).clampTo height) (r : Region) :
    r.clip add width height = r.clip other width height := by
  simp only [clip, columns, rows]

theorem clip_saturating_32 {width height : Nat} (columns : width < 2 ^ 31) (rows : height < 2 ^ 31) (r : Region) :
    r.clip (saturatingAdd 32) width height = r.clip (· + ·) width height :=
  clip_congr (clampTo_saturatingAdd_32 columns) (clampTo_saturatingAdd_32 rows) r

theorem clip_saturating_64 {width height : Nat} (columns : width < 2 ^ 63) (rows : height < 2 ^ 63) (r : Region) :
    r.clip (saturatingAdd 64) width height = r.clip (· + ·) width height :=
  clip_congr (clampTo_saturatingAdd_64 columns) (clampTo_saturatingAdd_64 rows) r

theorem clip_inside {add : Int → Int → Int} {r : Region} {width height : Nat} {e : Edges}
    (run : r.clip add width height = some e) : e.Inside width height := by
  have right := Int.clampTo_le (add r.x r.w) width
  have bottom := Int.clampTo_le (add r.y r.h) height
  unfold clip at run
  split at run
  · cases run
  · dsimp only at run
    split at run
    · cases run
    · cases run
      exact ⟨by dsimp only; omega, by dsimp only; omega, right, bottom⟩

/-- What is left of a region after clipping covers the pixels of the raster that the region covers. -/
theorem clip_covers {r : Region} {width height : Nat} {e : Edges} (run : r.clip (· + ·) width height = some e)
    (px py : Nat) : e.Covers px py ↔ px < width ∧ py < height ∧ r.Covers px py := by
  unfold clip at run
  split at run
  · cases run
  · dsimp only at run
    split at run
    · cases run
    · cases run
      simp only [Edges.Covers, Covers, Int.clampTo]
      omega

theorem clip_none {r : Region} {width height : Nat} (run : r.clip (· + ·) width height = none) {px py : Nat}
    (column : px < width) (row : py < height) : ¬ r.Covers px py := by
  unfold clip at run
  split at run
  · unfold Covers
    omega
  · dsimp only at run
    split at run
    · unfold Covers
      unfold Int.clampTo at *
      omega
    · cases run

end Region

/-- Some rectangle of the list covers the pixel. -/
def Covered (regions : List Region) (px py : Nat) : Prop := ∃ r ∈ regions, r.Covers px py

instance (regions : List Region) (px py : Nat) : Decidable (Covered regions px py) :=
  inferInstanceAs (Decidable (∃ r ∈ regions, r.Covers px py))

namespace Covered

@[simp] theorem nil (px py : Nat) : ¬ Covered [] px py := by
  rintro ⟨r, member, _⟩
  cases member

@[simp] theorem cons (r : Region) (regions : List Region) (px py : Nat) :
    Covered (r :: regions) px py ↔ r.Covers px py ∨ Covered regions px py := by
  unfold Covered
  simp only [List.mem_cons, exists_eq_or_imp]

theorem append (xs ys : List Region) (px py : Nat) :
    Covered (xs ++ ys) px py ↔ Covered xs px py ∨ Covered ys px py := by
  unfold Covered
  simp only [List.mem_append, or_and_right, exists_or]

end Covered

/-- A byte slice: its length and the bytes it holds. -/
structure Bytes where
  len : Nat
  byte : Nat → UInt8

namespace Bytes

def zeros (len : Nat) : Bytes := ⟨len, fun _ => 0⟩

def set (b : Bytes) (i : Nat) (v : UInt8) : Bytes :=
  { b with byte := fun j => if j = i then v else b.byte j }

/-- The bytes from `start` to `stop`, if the slice has them. -/
def slice (b : Bytes) (start stop : Nat) : Option (List UInt8) :=
  if start ≤ stop ∧ stop ≤ b.len then some ((List.range' start (stop - start)).map b.byte) else none

theorem slice_of_le {b : Bytes} {start stop : Nat} (order : start ≤ stop) (inside : stop ≤ b.len) :
    b.slice start stop = some ((List.range' start (stop - start)).map b.byte) :=
  if_pos ⟨order, inside⟩

/-- Two frames of one stride hold the same four bytes at a pixel. -/
def SamePixel (a b : Bytes) (stride px py : Nat) : Prop :=
  ∀ c < 4, a.byte (py * stride + px * 4 + c) = b.byte (py * stride + px * 4 + c)

instance (a b : Bytes) (stride px py : Nat) : Decidable (a.SamePixel b stride px py) :=
  inferInstanceAs (Decidable (∀ c < 4, _))

theorem SamePixel.refl (a : Bytes) (stride px py : Nat) : a.SamePixel a stride px py := fun _ _ => rfl

theorem SamePixel.symm {a b : Bytes} {stride px py : Nat} (h : a.SamePixel b stride px py) :
    b.SamePixel a stride px py := fun c bound => (h c bound).symm

theorem SamePixel.trans {a b d : Bytes} {stride px py : Nat} (first : a.SamePixel b stride px py)
    (second : b.SamePixel d stride px py) : a.SamePixel d stride px py :=
  fun c bound => (first c bound).trans (second c bound)

/-- The picture after the pixels at some places were taken over from another one. -/
def paint (old new : Bytes) (stride : Nat) (covers : Nat → Nat → Prop) [∀ px py, Decidable (covers px py)] : Bytes :=
  { old with byte := fun i => if covers (i % stride / 4) (i / stride) then new.byte i else old.byte i }

section Paint

variable {old new : Bytes} {stride px py : Nat} {covers : Nat → Nat → Prop} [∀ px py, Decidable (covers px py)]

theorem pixel_place {c : Nat} (py : Nat) (pixel : (px + 1) * 4 ≤ stride) (bound : c < 4) :
    (py * stride + px * 4 + c) % stride / 4 = px ∧ (py * stride + px * 4 + c) / stride = py := by
  have inside : px * 4 + c < stride := by omega
  have positive : 0 < stride := by omega
  rw [Nat.add_assoc, Nat.mul_comm py stride, Nat.mul_add_mod, Nat.mod_eq_of_lt inside,
    Nat.mul_add_div positive, Nat.div_eq_of_lt inside]
  omega

theorem paint_inside (pixel : (px + 1) * 4 ≤ stride) (covered : covers px py) :
    (old.paint new stride covers).SamePixel new stride px py := by
  intro c bound
  obtain ⟨column, row⟩ := pixel_place py pixel bound
  simp only [paint, column, row, if_pos covered]

theorem paint_outside (pixel : (px + 1) * 4 ≤ stride) (outside : ¬ covers px py) :
    (old.paint new stride covers).SamePixel old stride px py := by
  intro c bound
  obtain ⟨column, row⟩ := pixel_place py pixel bound
  simp only [paint, column, row, if_neg outside]

end Paint

end Bytes

/-- Rows do not overlap: an offset inside a row determines the row. -/
theorem offset_inj {stride row row' column column' : Nat} (inside : column < stride) (inside' : column' < stride)
    (same : row * stride + column = row' * stride + column') : row = row' ∧ column = column' := by
  have positive : 0 < stride := by omega
  have rows : row = row' := by
    have quotient := congrArg (· / stride) same
    simpa [Nat.mul_comm _ stride, Nat.mul_add_div positive, Nat.div_eq_of_lt inside,
      Nat.div_eq_of_lt inside'] using quotient
  subst rows
  exact ⟨rfl, by omega⟩

/-- A loop body that sets one view of the state and leaves the others: writing
a pixel, a block of samples, a row of a table. -/
structure Painting (σ κ β : Type*) where
  step : σ → κ → σ
  view : σ → κ → β
  value : κ → β
  valid : κ → Prop
  hit : ∀ s k, view (step s k) k = value k
  miss : ∀ s k k', valid k → valid k' → k ≠ k' → view (step s k') k = view s k

/-- After the loop the views it set have the values it gave them, the others are as before. -/
theorem Painting.foldl {σ κ β : Type*} [DecidableEq κ] (P : Painting σ κ β) {keys : List κ}
    (keysValid : ∀ k ∈ keys, P.valid k) (s : σ) {k : κ} (kValid : P.valid k) :
    P.view (keys.foldl P.step s) k = if k ∈ keys then P.value k else P.view s k := by
  induction keys generalizing s with
  | nil => rfl
  | cons key keys ih =>
    have rest := ih (fun k member => keysValid k (List.mem_cons_of_mem _ member)) (P.step s key)
    rw [List.foldl_cons, rest]
    by_cases later : k ∈ keys
    · simp only [later, if_true, List.mem_cons, or_true]
    by_cases same : k = key
    · subst same
      simp only [later, if_false, P.hit, List.mem_cons, or_false, if_true]
    · have untouched := P.miss s k key kValid (keysValid key List.mem_cons_self) same
      simp only [later, if_false, untouched, List.mem_cons, same, or_self]

/-- A loop whose steps keep an observation keeps it. -/
theorem foldl_keep {σ κ β : Type*} {step : σ → κ → σ} {view : σ → β} (keep : ∀ s k, view (step s k) = view s)
    (keys : List κ) (s : σ) : view (keys.foldl step s) = view s := by
  induction keys generalizing s with
  | nil => rfl
  | cons key keys ih => rw [List.foldl_cons, ih, keep]

/-- A loop whose steps either write one value or keep what is seen. -/
theorem foldl_written {σ κ β : Type*} {step : σ → κ → σ} {view : σ → β} {hits : κ → Prop} [DecidablePred hits] {value : β}
    (write : ∀ s k, view (step s k) = if hits k then value else view s) (keys : List κ) (s : σ) :
    view (keys.foldl step s) = if ∃ k ∈ keys, hits k then value else view s := by
  induction keys generalizing s with
  | nil => simp
  | cons key keys ih =>
    rw [List.foldl_cons, ih, write]
    simp only [List.mem_cons, exists_eq_or_imp]
    by_cases here : hits key
    · simp [here]
    · simp [here]
