import Mathlib.Data.List.Basic

/-! Decimal numerals as unsigned machine integers are read from them: a plus sign may stand before the digits, and the number
must be in range. -/

namespace Numerals

def push (bound n : Nat) (c : Char) : Option Nat :=
  if c.isDigit ∧ 10 * n + (c.toNat - '0'.toNat) < bound then some (10 * n + (c.toNat - '0'.toNat)) else none

def parse (bound : Nat) (text : List Char) : Option Nat :=
  match text with
  | [] | ['+'] | ['-'] => none
  | '+' :: digits => digits.foldlM (push bound) 0
  | digits => digits.foldlM (push bound) 0

/-- A text that stands for a number. -/
def Numeral (text : List Char) (n : Nat) : Prop :=
  ∃ digits, (text = digits ∨ text = '+' :: digits) ∧ digits ≠ [] ∧ (∀ c ∈ digits, c.isDigit = true) ∧
    Nat.ofDigitChars 10 digits 0 = n

theorem push_eq_some {bound n m : Nat} {c : Char} :
    push bound n c = some m ↔ c.isDigit = true ∧ 10 * n + (c.toNat - '0'.toNat) = m ∧ m < bound := by
  unfold push
  rw [Option.ite_none_right_eq_some, Option.some.injEq]
  constructor
  · rintro ⟨⟨digit, below⟩, rfl⟩
    exact ⟨digit, rfl, below⟩
  · rintro ⟨digit, rfl, below⟩
    exact ⟨⟨digit, below⟩, rfl⟩

theorem le_ofDigitChars (digits : List Char) (start : Nat) : start ≤ Nat.ofDigitChars 10 digits start := by
  induction digits generalizing start with
  | nil => exact Nat.le_of_eq Nat.ofDigitChars_nil.symm
  | cons c digits ih =>
    rw [Nat.ofDigitChars_cons]
    exact Nat.le_trans (by omega) (ih _)

/-- No number on the way is greater than the last one, so only that one has to be in range. -/
theorem foldlM_push {bound : Nat} {digits : List Char} {start n : Nat} :
    digits.foldlM (push bound) start = some n ↔
      (∀ c ∈ digits, c.isDigit = true) ∧ Nat.ofDigitChars 10 digits start = n ∧ (digits ≠ [] → n < bound) := by
  induction digits generalizing start with
  | nil => simp
  | cons c digits ih =>
    rw [List.foldlM_cons, Option.bind_eq_bind, Option.bind_eq_some_iff, Nat.ofDigitChars_cons]
    constructor
    · rintro ⟨m, pushed, rest⟩
      obtain ⟨digit, rfl, below⟩ := push_eq_some.mp pushed
      obtain ⟨all, value, inside⟩ := ih.mp rest
      refine ⟨List.forall_mem_cons.mpr ⟨digit, all⟩, value, fun _ => ?_⟩
      by_cases last : digits = []
      · subst last
        rw [← value, Nat.ofDigitChars_nil]
        exact below
      · exact inside last
    · rintro ⟨all, value, inside⟩
      obtain ⟨digit, all⟩ := List.forall_mem_cons.mp all
      have below := inside (List.cons_ne_nil _ _)
      have first := le_ofDigitChars digits (10 * start + (c.toNat - '0'.toNat))
      exact ⟨_, push_eq_some.mpr ⟨digit, rfl, by omega⟩, ih.mpr ⟨all, value, fun _ => below⟩⟩

theorem parse_eq_some {bound n : Nat} {text : List Char} : parse bound text = some n ↔ Numeral text n ∧ n < bound := by
  have plain : ∀ {digits : List Char}, digits ≠ [] → (digits.foldlM (push bound) 0 = some n ↔
      ((∀ c ∈ digits, c.isDigit = true) ∧ Nat.ofDigitChars 10 digits 0 = n) ∧ n < bound) := by
    intro digits some
    rw [foldlM_push, and_assoc, imp_iff_right some]
  unfold parse
  split
  · refine ⟨nofun, ?_⟩
    rintro ⟨⟨digits, rfl | sign, some, _⟩, _⟩
    · exact absurd rfl some
    · cases sign
  · refine ⟨nofun, ?_⟩
    rintro ⟨⟨digits, rfl | sign, some, all, _⟩, _⟩
    · exact absurd (all '+' List.mem_cons_self) (by decide)
    · cases sign
      exact absurd rfl some
  · refine ⟨nofun, ?_⟩
    rintro ⟨⟨digits, rfl | sign, some, all, _⟩, _⟩
    · exact absurd (all '-' List.mem_cons_self) (by decide)
    · cases sign
  · rename_i digits notNil
    rw [plain notNil]
    refine and_congr_left fun _ => ⟨fun ⟨all, value⟩ => ⟨digits, .inr rfl, notNil, all, value⟩, ?_⟩
    rintro ⟨other, rfl | sign, _, all, value⟩
    · exact absurd (all '+' List.mem_cons_self) (by decide)
    · cases sign
      exact ⟨all, value⟩
  · rename_i notNil _ _ unsigned
    rw [plain notNil]
    refine and_congr_left fun _ => ⟨fun ⟨all, value⟩ => ⟨_, .inl rfl, notNil, all, value⟩, ?_⟩
    rintro ⟨other, rfl | sign, _, all, value⟩
    · exact ⟨all, value⟩
    · exact absurd sign (unsigned other)

theorem numeral_toDigits (n : Nat) : Numeral (Nat.toDigits 10 n) n :=
  ⟨_, .inl rfl, Nat.toDigits_ne_nil, fun _ member => Nat.isDigit_of_mem_toDigits (by decide) (by decide) member,
    Nat.ofDigitChars_ten_toDigits⟩

end Numerals
