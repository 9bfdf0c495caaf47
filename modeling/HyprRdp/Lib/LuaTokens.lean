import HyprRdp.Lib.QuotedText
import Mathlib.Data.List.TakeWhile

/-! The tokens of Lua that calls and table constructors are made of: names, texts between double quotes, decimal
numerals and signs. -/

namespace Lua

inductive Token
  | name (text : List Char)
  | text (text : List Char)
  | numeral (text : List Char)
  | sign (c : Char)
  deriving DecidableEq

def letterOf (c : Char) : Option Char :=
  if c = '\\' then some '\\' else if c = '"' then some '"' else if c = '\n' then some 'n'
  else if c = '\r' then some 'r' else if c = '\t' then some 't' else none

def standsFor (l : Char) : Option Char :=
  if l = '\\' then some '\\' else if l = '"' then some '"' else if l = 'n' then some '\n'
  else if l = 'r' then some '\r' else if l = 't' then some '\t' else none

/-- A line may not end inside of quotes. -/
def quoting : Quoting Char where
  quote := '"'
  escape := '\\'
  letter := letterOf
  unescape := standsFor
  barred c := c = '\n' ∨ c = '\r'
  letter_quote := by decide
  letter_escape := by decide
  letter_barred c barred := by
    rcases of_decide_eq_true barred with rfl | rfl
    · decide
    · decide
  unescape_letter c l said := by
    unfold letterOf at said
    split at said
    next same => cases said; rw [same]; rfl
    split at said
    next same => cases said; rw [same]; rfl
    split at said
    next same => cases said; rw [same]; rfl
    split at said
    next same => cases said; rw [same]; rfl
    split at said
    next same => cases said; rw [same]; rfl
    cases said
  apart := by decide

def isLetter (c : Char) : Bool := c.isAlpha || c = '_'

def isNamed (c : Char) : Bool := isLetter c || c.isDigit

def isPower (c : Char) : Bool := c = 'e' ∨ c = 'E'

def isSign (c : Char) : Bool := c = '+' ∨ c = '-'

/-- How far a numeral goes. Behind the letter of an exponent it may go on with a sign. -/
def numeralLength (power : Bool) : List Char → Nat
  | [] => 0
  | c :: rest =>
    if c.isDigit ∨ c = '.' ∨ isPower c ∨ (power ∧ isSign c) then numeralLength (isPower c) rest + 1 else 0

/-- `int.frac` with an exponent, where one of both parts has a digit. -/
structure Decimal where
  whole : List Char
  frac : List Char
  power : Int

def readDigits (digits : List Char) : Nat := digits.foldl (fun n d => 10 * n + (d.toNat - '0'.toNat)) 0

/-- The exponent of a numeral, from what stands behind its digits. -/
def readPower : List Char → Option Int
  | [] => some 0
  | c :: rest =>
    let digits := if rest.head?.any isSign then rest.tail else rest
    if isPower c ∧ digits ≠ [] ∧ digits.all Char.isDigit then
      some (if rest.head? = some '-' then -readDigits digits else readDigits digits)
    else none

/-- A decimal numeral without a sign. -/
def readDecimal (text : List Char) : Option Decimal :=
  let whole := text.takeWhile Char.isDigit
  let rest := text.dropWhile Char.isDigit
  let frac := if rest.head? = some '.' then rest.tail.takeWhile Char.isDigit else []
  let rest := if rest.head? = some '.' then rest.tail.dropWhile Char.isDigit else rest
  if whole = [] ∧ frac = [] then none else (readPower rest).map fun power => ⟨whole, frac, power⟩

def signs : List Char := ['.', '(', ')', '{', '}', '=', ',', '+', '-']

/-- The first token of a text that does not begin with a blank. -/
def token : List Char → Option (Token × List Char)
  | [] => none
  | c :: rest =>
    if isLetter c then some (.name (c :: rest.takeWhile isNamed), rest.dropWhile isNamed)
    else if c = '"' then (quoting.read rest).map fun found => (.text found.1, found.2)
    else if c.isDigit ∨ (c = '.' ∧ rest.head?.any Char.isDigit) then
      let length := numeralLength false (c :: rest)
      if (readDecimal ((c :: rest).take length)).isSome ∧ ¬ (((c :: rest).drop length).head?.any isNamed) then
        some (.numeral ((c :: rest).take length), (c :: rest).drop length)
      else none
    else if c ∈ signs then some (.sign c, rest)
    else none

def isBlank (c : Char) : Bool := c = ' ' || c = '\n' || c = '\r' || c = '\t'

/-- A text that consists of these tokens. -/
inductive Lexes : List Char → List Token → Prop
  | nil {text} : text.dropWhile isBlank = [] → Lexes text []
  | cons {text t rest ts} : token (text.dropWhile isBlank) = some (t, rest) → Lexes rest ts → Lexes text (t :: ts)

theorem Lexes.unique {text : List Char} {ts us : List Token} (one : Lexes text ts) (two : Lexes text us) : ts = us := by
  induction one generalizing us with
  | nil blank =>
    cases two with
    | nil _ => rfl
    | cons first _ =>
      rw [blank] at first
      cases first
  | cons first _ ih =>
    cases two with
    | nil blank =>
      rw [blank] at first
      cases first
    | cons second later =>
      cases Option.some.inj (first.symm.trans second)
      rw [ih later]

theorem Lexes.blank {rest : List Char} {ts : List Token} (later : Lexes rest ts) : Lexes (' ' :: rest) ts := by
  cases later with
  | nil blank => exact .nil blank
  | cons first later => exact .cons first later

theorem Lexes.text {rest : List Char} {ts : List Token} (text : List Char) (later : Lexes rest ts) :
    Lexes ('"' :: (quoting.body text ++ rest)) (.text text :: ts) := by
  refine .cons ?_ later
  have read := Quoting.read_body text rest (Q := quoting)
  have step : token ('"' :: (quoting.body text ++ rest)) =
      (quoting.read (quoting.body text ++ rest)).map fun found => (.text found.1, found.2) := rfl
  exact step.trans (by rw [read]; rfl)

section Numeral

variable {c : Char} {digits rest text : List Char}

theorem digit_plain (digit : c.isDigit = true) : isPower c = false ∧ isLetter c = false ∧ c ≠ '"' ∧ isBlank c = false := by
  have bounds : 48 ≤ c.toNat ∧ c.toNat ≤ 57 := by
    simpa [Char.isDigit, UInt32.le_iff_toNat_le] using digit
  have other : ∀ d : Char, d.toNat < 48 ∨ 57 < d.toNat → c ≠ d := by
    rintro d outside rfl
    omega
  have alpha : c.isAlpha = false := by
    have value : c.val.toNat = c.toNat := rfl
    have letters : c.isAlpha = (decide (c.val ≥ 65 ∧ c.val ≤ 90) || (c.val ≥ 97 && c.val ≤ 122)) := rfl
    rw [letters]
    simp [UInt32.le_iff_toNat_le, value]
    omega
  refine ⟨?_, ?_, other '"' (by decide), ?_⟩
  · simp [isPower, other 'e' (by decide), other 'E' (by decide)]
  · simp [isLetter, alpha, other '_' (by decide)]
  · simp [isBlank, other ' ' (by decide), other '\n' (by decide), other '\r' (by decide), other '\t' (by decide)]

theorem numeralLength_digits (all : digits.all Char.isDigit = true) (rest : List Char) :
    numeralLength false (digits ++ rest) = digits.length + numeralLength false rest := by
  induction digits with
  | nil => simp
  | cons d digits ih =>
    obtain ⟨digit, later⟩ := Bool.and_eq_true_iff.mp all
    rw [List.cons_append, numeralLength, if_pos (Or.inl digit), (digit_plain digit).1, ih later, List.length_cons]
    omega

theorem numeralLength_digit (power : Bool) (some : digits ≠ []) (all : digits.all Char.isDigit = true) (rest : List Char) :
    numeralLength power (digits ++ rest) = digits.length + numeralLength false rest := by
  obtain ⟨d, digits, rfl⟩ := List.exists_cons_of_ne_nil some
  obtain ⟨digit, later⟩ := Bool.and_eq_true_iff.mp all
  rw [List.cons_append, numeralLength, if_pos (Or.inl digit), (digit_plain digit).1, numeralLength_digits later,
    List.length_cons]
  omega

/-- What cannot go on a numeral. -/
def Stops (rest : List Char) : Prop := ∀ c ∈ rest.head?, isNamed c = false ∧ c ≠ '.'

theorem numeralLength_stops (stops : Stops rest) : numeralLength false rest = 0 := by
  cases rest with
  | nil => rfl
  | cons c rest =>
    obtain ⟨named, dot⟩ := stops c rfl
    obtain ⟨letter, digit⟩ := Bool.or_eq_false_iff.mp named
    have power : ¬ isPower c = true := by
      intro yes
      rcases of_decide_eq_true yes with rfl | rfl
      · cases letter
      · cases letter
    rw [numeralLength, if_neg (by simp [digit, dot, power])]

/-- An exponent is part of the numeral. -/
theorem numeralLength_power {power : Int} (reads : readPower text = some power) (stops : Stops rest) :
    numeralLength false (text ++ rest) = text.length := by
  cases text with
  | nil => exact numeralLength_stops stops
  | cons c text =>
    obtain ⟨⟨letter, some, all⟩, _⟩ := Option.ite_none_right_eq_some.mp reads
    rw [List.cons_append, numeralLength, if_pos (Or.inr (Or.inr (Or.inl letter))), letter]
    by_cases signed : text.head?.any isSign = true
    · rw [if_pos signed] at some all
      cases text with
      | nil => exact absurd rfl some
      | cons s text =>
        have sign : isSign s = true := signed
        have power : isPower s = false := by
          rcases of_decide_eq_true sign with rfl | rfl
          · rfl
          · rfl
        rw [List.tail_cons] at all
        rw [List.cons_append, numeralLength, if_pos (Or.inr (Or.inr (Or.inr ⟨rfl, sign⟩))), power,
          numeralLength_digits all, numeralLength_stops stops, List.length_cons, List.length_cons]
    · rw [if_neg signed] at some all
      rw [numeralLength_digit true some all, numeralLength_stops stops, List.length_cons]

/-- The parts of a numeral, one behind the other. -/
theorem readDecimal_parts {d : Decimal} (reads : readDecimal text = some d) :
    ∃ tail, readPower tail = some d.power ∧ d.whole.all Char.isDigit = true ∧ d.frac.all Char.isDigit = true ∧
      (d.whole ≠ [] ∨ d.frac ≠ []) ∧
      (text = d.whole ++ '.' :: (d.frac ++ tail) ∨ d.frac = [] ∧ text = d.whole ++ tail) := by
  have digits : ∀ text : List Char, (text.takeWhile Char.isDigit).all Char.isDigit = true := fun text =>
    List.all_eq_true.mpr fun _ listed => List.mem_takeWhile_imp listed
  unfold readDecimal at reads
  obtain ⟨some, mapped⟩ := Option.ite_none_left_eq_some.mp reads
  obtain ⟨power, powers, rfl⟩ := Option.map_eq_some_iff.mp mapped
  by_cases dotted : (text.dropWhile Char.isDigit).head? = Option.some '.'
  · rw [if_pos dotted] at powers some ⊢
    refine ⟨_, powers, digits _, digits _, by simpa [imp_iff_not_or] using some, Or.inl ?_⟩
    obtain ⟨rest, same⟩ : ∃ rest, text.dropWhile Char.isDigit = '.' :: rest := List.head?_eq_some_iff.mp dotted
    simp only [same, List.tail_cons]
    rw [List.takeWhile_append_dropWhile, ← same, List.takeWhile_append_dropWhile]
  · rw [if_neg dotted] at powers some ⊢
    refine ⟨_, powers, digits _, rfl, Or.inl fun none => some ⟨none, rfl⟩, Or.inr ⟨rfl, ?_⟩⟩
    exact List.takeWhile_append_dropWhile.symm

theorem numeralLength_decimal (reads : (readDecimal text).isSome) (stops : Stops rest) :
    numeralLength false (text ++ rest) = text.length := by
  obtain ⟨d, reads⟩ := Option.isSome_iff_exists.mp reads
  obtain ⟨tail, power, whole, frac, _, dotted | ⟨_, plain⟩⟩ := readDecimal_parts reads
  · have dot : isPower '.' = false := rfl
    rw [dotted, List.append_assoc, numeralLength_digits whole, List.cons_append, numeralLength,
      if_pos (Or.inr (Or.inl rfl)), dot, List.append_assoc, numeralLength_digits frac, numeralLength_power power stops]
    simp only [List.length_append, List.length_cons]
  · rw [plain, List.append_assoc, numeralLength_digits whole, numeralLength_power power stops, List.length_append]

/-- A numeral begins with a digit, or with a point and a digit. -/
theorem readDecimal_head (reads : (readDecimal text).isSome) :
    ∃ c rest, text = c :: rest ∧ (c.isDigit = true ∨ c = '.' ∧ rest.head?.any Char.isDigit = true) := by
  obtain ⟨d, reads⟩ := Option.isSome_iff_exists.mp reads
  obtain ⟨tail, power, whole, frac, some, parts⟩ := readDecimal_parts reads
  cases w : d.whole with
  | cons c more =>
    rw [w] at whole parts
    have digit := (Bool.and_eq_true_iff.mp whole).1
    rcases parts with dotted | ⟨_, plain⟩
    · exact ⟨c, _, dotted, Or.inl digit⟩
    · exact ⟨c, _, plain, Or.inl digit⟩
  | nil =>
    rw [w] at some parts
    have some := some.resolve_left fun none => none rfl
    obtain ⟨c, more, f⟩ := List.exists_cons_of_ne_nil some
    rw [f] at frac parts
    have digit := (Bool.and_eq_true_iff.mp frac).1
    rcases parts with dotted | ⟨none, _⟩
    · exact ⟨'.', _, dotted, Or.inr ⟨rfl, digit⟩⟩
    · cases none

theorem Lexes.numeral {ts : List Token} (reads : (readDecimal text).isSome) (stops : Stops rest) (later : Lexes rest ts) :
    Lexes (text ++ rest) (.numeral text :: ts) := by
  have length := numeralLength_decimal reads stops
  obtain ⟨c, more, same, begins⟩ := readDecimal_head reads
  have plain : isLetter c = false ∧ c ≠ '"' ∧ isBlank c = false := by
    rcases begins with digit | ⟨rfl, _⟩
    · exact (digit_plain digit).2
    · decide
  obtain ⟨letter, quote, blank⟩ := plain
  have front : (text ++ rest).dropWhile isBlank = c :: (more ++ rest) := by
    rw [same, List.cons_append, List.dropWhile_cons_of_neg (by rw [blank]; exact Bool.false_ne_true)]
  have starts : c.isDigit = true ∨ c = '.' ∧ (more ++ rest).head?.any Char.isDigit = true := by
    refine begins.imp_right fun dotted => ⟨dotted.1, ?_⟩
    cases more with
    | nil => cases dotted.2
    | cons d more => exact dotted.2
  have ends : ¬ rest.head?.any isNamed = true := by
    intro named
    cases rest with
    | nil => cases named
    | cons d rest => exact Bool.false_ne_true ((stops d rfl).1.symm.trans named)
  refine .cons ?_ later
  rw [front, token, if_neg (by rw [letter]; exact Bool.false_ne_true), if_neg quote, if_pos starts]
  rw [← List.cons_append, ← same, length]
  dsimp only
  rw [List.take_left, List.drop_left, if_pos ⟨reads, ends⟩]

end Numeral

end Lua
