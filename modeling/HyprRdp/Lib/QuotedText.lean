import Mathlib.Data.List.Basic

/-! Texts between quotes, where some characters are written as an escape and a letter. -/

/-- `letter` says how a character is escaped, `unescape` what a letter stands for. No quote and no escape is
written plainly, and no character that is barred from the text between the quotes. -/
structure Quoting (α : Type*) where
  quote : α
  escape : α
  letter : α → Option α
  unescape : α → Option α
  barred : α → Bool
  letter_quote : letter quote ≠ none
  letter_escape : letter escape ≠ none
  letter_barred : ∀ c, barred c = true → letter c ≠ none
  unescape_letter : ∀ c l, letter c = some l → unescape l = some c
  apart : escape ≠ quote

namespace Quoting

variable {α : Type*} [DecidableEq α] (Q : Quoting α)

def character (c : α) : List α :=
  match Q.letter c with
  | none => [c]
  | some l => [Q.escape, l]

/-- What stands behind the first quote. -/
def body (text : List α) : List α := text.flatMap Q.character ++ [Q.quote]

/-- Reads up to the closing quote. -/
def read : List α → Option (List α × List α)
  | [] => none
  | [c] => if c = Q.quote then some ([], []) else none
  | c :: l :: rest =>
    if c = Q.quote then some ([], l :: rest)
    else if c = Q.escape then
      match Q.unescape l with
      | none => none
      | some plain => (read rest).map fun found => (plain :: found.1, found.2)
    else if Q.barred c then none
    else (read (l :: rest)).map fun found => (c :: found.1, found.2)

variable {Q}

theorem read_quote (rest : List α) : Q.read (Q.quote :: rest) = some ([], rest) := by
  cases rest with
  | nil => rw [read, if_pos rfl]
  | cons l rest => rw [read, if_pos rfl]

theorem read_character {c : α} {text rest more : List α} (ends : more ≠ []) (later : Q.read more = some (text, rest)) :
    Q.read (Q.character c ++ more) = some (c :: text, rest) := by
  unfold character
  cases said : Q.letter c with
  | some l =>
    simp only [List.cons_append, List.nil_append]
    rw [read, if_neg Q.apart, if_pos rfl, Q.unescape_letter c l said, later]
    rfl
  | none =>
    obtain ⟨next, more, rfl⟩ := List.exists_cons_of_ne_nil ends
    have quote : c ≠ Q.quote := fun same => Q.letter_quote (same ▸ said)
    have escape : c ≠ Q.escape := fun same => Q.letter_escape (same ▸ said)
    have barred : ¬ Q.barred c = true := fun yes => Q.letter_barred c yes said
    simp only [List.cons_append, List.nil_append]
    rw [read, if_neg quote, if_neg escape, if_neg barred, later]
    rfl

/-- What is read back is the text that was quoted, and what followed it. -/
theorem read_body (text rest : List α) : Q.read (Q.body text ++ rest) = some (text, rest) := by
  induction text with
  | nil => exact read_quote rest
  | cons c text ih =>
    have first : Q.body (c :: text) ++ rest = Q.character c ++ (Q.body text ++ rest) := by
      simp [body, List.append_assoc]
    have ends : Q.body text ++ rest ≠ [] := by simp [body]
    rw [first]
    exact read_character ends ih

end Quoting
