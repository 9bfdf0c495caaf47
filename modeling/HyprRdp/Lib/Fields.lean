import Mathlib.Data.List.DropRight
import Mathlib.Data.List.Infix

/-! Parts of a text: what stands around a separator, and what is left without
the white space at both ends. -/

namespace Fields

/-- The characters that are white space by Unicode. -/
def isWhitespace (c : Char) : Bool :=
  (9 ≤ c.toNat && c.toNat ≤ 13) || c.toNat = 0x20 || c.toNat = 0x85 || c.toNat = 0xA0 || c.toNat = 0x1680 ||
    (0x2000 ≤ c.toNat && c.toNat ≤ 0x200A) || c.toNat = 0x2028 || c.toNat = 0x2029 || c.toNat = 0x202F ||
    c.toNat = 0x205F || c.toNat = 0x3000

def trim (text : List Char) : List Char := (text.dropWhile isWhitespace).rdropWhile isWhitespace

/-- Neither end is white space. -/
def Trimmed (text : List Char) : Prop :=
  (∀ c ∈ text.head?, isWhitespace c = false) ∧ ∀ c ∈ text.getLast?, isWhitespace c = false

variable {β : Type*} [DecidableEq β]

/-- What stands before and after the first occurrence of a separator. -/
def splitOnce (sep : List β) : List β → Option (List β × List β)
  | [] => if sep = [] then some ([], []) else none
  | b :: rest =>
    if sep.isPrefixOf (b :: rest) then some ([], (b :: rest).drop sep.length)
    else (splitOnce sep rest).map fun parts => (b :: parts.1, parts.2)

/-- At most so many fields; the last one takes what is left. -/
def splitn (sep : List β) : Nat → List β → List (List β)
  | 0, _ => []
  | 1, text => [text]
  | n + 2, text =>
    match splitOnce sep text with
    | none => [text]
    | some (before, rest) => before :: splitn sep (n + 1) rest

theorem splitOnce_first {first : β} {more before : List β} (free : first ∉ before) (rest : List β) :
    splitOnce (first :: more) (before ++ (first :: more) ++ rest) = some (before, rest) := by
  induction before with
  | nil =>
    have here : (first :: more).isPrefixOf (first :: (more ++ rest)) = true :=
      List.isPrefixOf_iff_prefix.mpr (List.prefix_append (first :: more) rest)
    rw [List.nil_append, List.cons_append, splitOnce, if_pos here]
    simp
  | cons b before ih =>
    have later : ¬ (first :: more).isPrefixOf (b :: (before ++ (first :: more) ++ rest)) = true := by
      intro here
      exact List.ne_of_not_mem_cons free (List.cons_prefix_cons.mp (List.isPrefixOf_iff_prefix.mp here)).1
    rw [List.cons_append, List.cons_append, splitOnce, if_neg later, ih (List.not_mem_of_not_mem_cons free)]
    rfl

theorem trim_trimmed {text : List Char} (ends : Trimmed text) : trim text = text := by
  have front : text.dropWhile isWhitespace = text := by
    cases text with
    | nil => rfl
    | cons c rest => rw [List.dropWhile_cons_of_neg (by rw [ends.1 c rfl]; exact Bool.false_ne_true)]
  rw [trim, front, List.rdropWhile_eq_self_iff]
  intro some blank
  have last := ends.2 _ (List.getLast?_eq_some_getLast some)
  exact Bool.false_ne_true (last.symm.trans blank)

end Fields
