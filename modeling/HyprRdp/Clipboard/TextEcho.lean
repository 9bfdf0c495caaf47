import HyprRdp.Clipboard.CachedSelection
import HyprRdp.Lib.Utf

namespace HyprRdp

/-- The text in UTF-16, with a terminator behind it. -/
def FormatDataResponse.newUnicodeString (text : List UInt8) : FormatDataResponse :=
  ⟨false, ((Utf.chars text).flatMap fun character => (Utf.units character).flatMap Utf.littleEndian) ++ [0, 0]⟩

section LineEndings

/-- Bytes whose line endings are those of the RDP side. -/
inductive Crlf : List UInt8 → Prop
  | nil : Crlf []
  | ending {rest} : Crlf rest → Crlf (13 :: 10 :: rest)
  | byte {byte rest} : byte ≠ 13 → byte ≠ 10 → Crlf rest → Crlf (byte :: rest)

/-- The bytes that are no part of a line ending. -/
def withoutEndings (bytes : List UInt8) : List UInt8 := bytes.filter fun byte => byte ≠ 13 ∧ byte ≠ 10

variable {bytes rest : List UInt8} {byte : UInt8}

theorem normalizeLf_byte (plain : byte ≠ 13) (rest : List UInt8) : normalizeLf (byte :: rest) = byte :: normalizeLf rest := by
  rw [normalizeLf, if_neg plain]
  intro after same
  exact absurd same plain

theorem normalizeLf_return (alone : ∀ after, rest ≠ 10 :: after) : normalizeLf (13 :: rest) = 10 :: normalizeLf rest := by
  rw [normalizeLf, if_pos rfl]
  intro after _
  exact alone after

theorem toCrlf_byte (plain : byte ≠ 13) (inner : byte ≠ 10) (rest : List UInt8) : toCrlf (byte :: rest) = byte :: toCrlf rest := by
  rw [toCrlf, if_neg (by simp [plain, inner])]
  · rfl
  · intro after same
    exact absurd same plain

theorem toCrlf_line (rest : List UInt8) : toCrlf (10 :: rest) = 13 :: 10 :: toCrlf rest := by
  rw [toCrlf, if_pos (.inr rfl)]
  · rfl
  · intro after same
    exact absurd same (by decide)

theorem toCrlf_return (alone : ∀ after, rest ≠ 10 :: after) : toCrlf (13 :: rest) = 13 :: 10 :: toCrlf rest := by
  rw [toCrlf, if_pos (.inl rfl)]
  · rfl
  · intro after _
    exact alone after

/-- A text is read in the steps of `toCrlf`: an ending of two bytes, one of a single byte, or a byte that is none. -/
theorem lines_induction {motive : List UInt8 → Prop} (nil : motive [])
    (both : ∀ rest, motive rest → motive (13 :: 10 :: rest))
    (line : ∀ rest, motive rest → motive (10 :: rest))
    (lone : ∀ rest, (∀ after, rest ≠ 10 :: after) → motive rest → motive (13 :: rest))
    (plain : ∀ byte rest, byte ≠ 13 → byte ≠ 10 → motive rest → motive (byte :: rest)) (bytes : List UInt8) : motive bytes := by
  induction bytes using toCrlf.induct with
  | case1 => exact nil
  | case2 rest ih => exact both rest ih
  | case3 byte rest alone ih =>
    by_cases isReturn : byte = 13
    · subst isReturn
      exact lone rest (fun after same => alone after rfl same) ih
    · by_cases isLine : byte = 10
      · exact isLine ▸ line rest ih
      · exact plain byte rest isReturn isLine ih

theorem toCrlf_crlf (bytes : List UInt8) : Crlf (toCrlf bytes) := by
  induction bytes using lines_induction with
  | nil => exact .nil
  | both rest ih => exact .ending ih
  | line rest ih => exact toCrlf_line rest ▸ .ending ih
  | lone rest alone ih => exact toCrlf_return alone ▸ .ending ih
  | plain byte rest isReturn isLine ih => exact toCrlf_byte isReturn isLine rest ▸ .byte isReturn isLine ih

theorem normalizeLf_plain (bytes : List UInt8) : 13 ∉ normalizeLf bytes := by
  induction bytes using lines_induction with
  | nil => exact List.not_mem_nil
  | both rest ih =>
    rw [normalizeLf]
    exact List.not_mem_cons_of_ne_of_not_mem (by decide) ih
  | line rest ih =>
    rw [normalizeLf_byte (by decide)]
    exact List.not_mem_cons_of_ne_of_not_mem (by decide) ih
  | lone rest alone ih =>
    rw [normalizeLf_return alone]
    exact List.not_mem_cons_of_ne_of_not_mem (by decide) ih
  | plain byte rest isReturn isLine ih =>
    rw [normalizeLf_byte isReturn]
    exact List.not_mem_cons_of_ne_of_not_mem (Ne.symm isReturn) ih

theorem normalizeLf_of_plain (plain : 13 ∉ bytes) : normalizeLf bytes = bytes := by
  induction bytes with
  | nil => exact normalizeLf_nil
  | cons byte rest ih =>
    rw [List.mem_cons, not_or] at plain
    rw [normalizeLf_byte (Ne.symm plain.1), ih plain.2]

theorem normalizeLf_twice (bytes : List UInt8) : normalizeLf (normalizeLf bytes) = normalizeLf bytes :=
  normalizeLf_of_plain (normalizeLf_plain bytes)

/-- The endings of the RDP side are the ones that `toCrlf` leaves as they are. -/
theorem Crlf.toCrlf (crlf : Crlf bytes) : toCrlf bytes = bytes := by
  induction crlf with
  | nil => exact toCrlf_nil
  | ending _ ih => rw [HyprRdp.toCrlf, ih]
  | byte isReturn isLine _ ih => rw [toCrlf_byte isReturn isLine, ih]

theorem toCrlf_twice (bytes : List UInt8) : toCrlf (toCrlf bytes) = toCrlf bytes := (toCrlf_crlf bytes).toCrlf

theorem normalizeLf_toCrlf (bytes : List UInt8) : normalizeLf (toCrlf bytes) = normalizeLf bytes := by
  induction bytes using lines_induction with
  | nil => rfl
  | both rest ih => rw [toCrlf, normalizeLf, normalizeLf, ih]
  | line rest ih => rw [toCrlf_line, normalizeLf, normalizeLf_byte (by decide), ih]
  | lone rest alone ih => rw [toCrlf_return alone, normalizeLf, normalizeLf_return alone, ih]
  | plain byte rest isReturn isLine ih =>
    rw [toCrlf_byte isReturn isLine, normalizeLf_byte isReturn, normalizeLf_byte isReturn, ih]

theorem Crlf.return_line (crlf : Crlf bytes) {i : Nat} (at_i : bytes[i]? = some 13) : bytes[i + 1]? = some 10 := by
  induction crlf generalizing i with
  | nil => exact absurd at_i nofun
  | ending _ ih =>
    match i with
    | 0 => rfl
    | 1 => exact absurd (Option.some.inj at_i) (by decide)
    | i + 2 => exact ih at_i
  | byte isReturn _ _ ih =>
    match i with
    | 0 => exact absurd (Option.some.inj at_i) isReturn
    | i + 1 => exact ih at_i

theorem Crlf.line_return (crlf : Crlf bytes) {i : Nat} (at_i : bytes[i]? = some 10) :
    ∃ before, i = before + 1 ∧ bytes[before]? = some 13 := by
  induction crlf generalizing i with
  | nil => exact absurd at_i nofun
  | ending _ ih =>
    match i with
    | 0 => exact absurd (Option.some.inj at_i) (by decide)
    | 1 => exact ⟨0, rfl, rfl⟩
    | i + 2 =>
      obtain ⟨before, same, found⟩ := ih at_i
      exact ⟨before + 2, by omega, found⟩
  | byte _ isLine _ ih =>
    match i with
    | 0 => exact absurd (Option.some.inj at_i) isLine
    | i + 1 =>
      obtain ⟨before, same, found⟩ := ih at_i
      exact ⟨before + 1, by omega, found⟩

theorem withoutEndings_byte (isReturn : byte ≠ 13) (isLine : byte ≠ 10) (rest : List UInt8) :
    withoutEndings (byte :: rest) = byte :: withoutEndings rest := List.filter_cons_of_pos (by simp [isReturn, isLine])

theorem withoutEndings_return (rest : List UInt8) : withoutEndings (13 :: rest) = withoutEndings rest :=
  List.filter_cons_of_neg (by simp)

theorem withoutEndings_line (rest : List UInt8) : withoutEndings (10 :: rest) = withoutEndings rest :=
  List.filter_cons_of_neg (by simp)

theorem withoutEndings_normalizeLf (bytes : List UInt8) : withoutEndings (normalizeLf bytes) = withoutEndings bytes := by
  induction bytes using lines_induction with
  | nil => rfl
  | both rest ih => rw [normalizeLf, withoutEndings_return, withoutEndings_line, withoutEndings_line, ih]
  | line rest ih => rw [normalizeLf_byte (by decide), withoutEndings_line, withoutEndings_line, ih]
  | lone rest alone ih => rw [normalizeLf_return alone, withoutEndings_line, withoutEndings_return, ih]
  | plain byte rest isReturn isLine ih =>
    rw [normalizeLf_byte isReturn, withoutEndings_byte isReturn isLine, withoutEndings_byte isReturn isLine, ih]

theorem withoutEndings_toCrlf (bytes : List UInt8) : withoutEndings (toCrlf bytes) = withoutEndings bytes := by
  rw [← withoutEndings_normalizeLf, normalizeLf_toCrlf, withoutEndings_normalizeLf]

end LineEndings

section Lossy

/-- The first bytes of a sequence that is not complete. -/
inductive Begun : List UInt8 → Prop
  | first {byte} : 1 < utf8Width byte → Begun [byte]
  | next {sequence byte} : Begun sequence → utf8Continues sequence byte = true →
      sequence.length + 1 < utf8Width (sequence.headD 0) → Begun (sequence ++ [byte])

theorem utf8Width_cases (byte : UInt8) : (byte.toNat < 0x80 ∧ utf8Width byte = 1) ∨
    (0xC2 ≤ byte.toNat ∧ byte.toNat < 0xE0 ∧ utf8Width byte = 2) ∨
    (0xE0 ≤ byte.toNat ∧ byte.toNat < 0xF0 ∧ utf8Width byte = 3) ∨
    (0xF0 ≤ byte.toNat ∧ byte.toNat < 0xF5 ∧ utf8Width byte = 4) ∨ utf8Width byte = 0 := by
  unfold utf8Width
  simp only [UInt8.lt_iff_toNat_lt, UInt8.reduceToNat]
  split <;> rename_i one
  · exact .inl ⟨one, rfl⟩
  split <;> rename_i none
  · exact .inr (.inr (.inr (.inr rfl)))
  split <;> rename_i two
  · exact .inr (.inl ⟨by omega, two, rfl⟩)
  split <;> rename_i three
  · exact .inr (.inr (.inl ⟨by omega, three, rfl⟩))
  split <;> rename_i four
  · exact .inr (.inr (.inr (.inl ⟨by omega, four, rfl⟩)))
  · exact .inr (.inr (.inr (.inr rfl)))

theorem utf8Width_le (byte : UInt8) : utf8Width byte ≤ 4 := by
  have lead := utf8Width_cases byte
  omega

theorem Begun.length_pos {sequence : List UInt8} (begun : Begun sequence) : 0 < sequence.length := by
  cases begun with
  | first _ => exact Nat.one_pos
  | next _ _ _ => simp

theorem Begun.head {sequence : List UInt8} (begun : Begun sequence) (byte : UInt8) :
    (sequence ++ [byte]).headD 0 = sequence.headD 0 := by
  cases sequence with
  | nil => exact absurd begun.length_pos (Nat.lt_irrefl 0)
  | cons first rest => rfl

theorem Begun.short {sequence : List UInt8} (begun : Begun sequence) : sequence.length < utf8Width (sequence.headD 0) := by
  cases begun with
  | first long => exact long
  | next begun _ short => rwa [begun.head, List.length_append, List.length_singleton]

theorem utf8Continues_first {first byte : UInt8} (follows : utf8Continues [first] byte = true) :
    (0x80 ≤ byte.toNat ∧ byte.toNat ≤ 0xBF) ∧ (first.toNat = 0xE0 → 0xA0 ≤ byte.toNat) ∧
      (first.toNat = 0xED → byte.toNat ≤ 0x9F) ∧ (first.toNat = 0xF0 → 0x90 ≤ byte.toNat) ∧
      (first.toNat = 0xF4 → byte.toNat ≤ 0x8F) := by
  have whole : ∀ value : UInt8, first = value ↔ first.toNat = value.toNat := fun _ => UInt8.toNat_inj.symm
  unfold utf8Continues at follows
  simp only [List.length_singleton, List.headD_cons, true_and, Bool.and_eq_true, decide_eq_true_eq, UInt8.le_iff_toNat_le, whole,
    apply_ite UInt8.toNat, UInt8.reduceToNat] at follows
  repeat' split at follows
  all_goals omega

theorem utf8Continues_later {sequence : List UInt8} {byte : UInt8} (later : sequence.length ≠ 1)
    (follows : utf8Continues sequence byte = true) : 0x80 ≤ byte.toNat ∧ byte.toNat ≤ 0xBF := by
  unfold utf8Continues at follows
  simpa only [later, false_and, if_false, Bool.and_eq_true, decide_eq_true_eq, UInt8.le_iff_toNat_le, UInt8.reduceToNat]
    using follows

/-- A sequence is complete when it has the length that its first byte says, and then it is a character. -/
theorem Begun.complete {sequence : List UInt8} {byte : UInt8} (begun : Begun sequence)
    (follows : utf8Continues sequence byte = true) (full : sequence.length + 1 = utf8Width (sequence.headD 0)) :
    ∃ character, String.utf8EncodeChar character = sequence ++ [byte] := by
  cases begun with
  | @first first long =>
    obtain ⟨tail, _⟩ := utf8Continues_first follows
    have width : utf8Width first = 2 := full.symm
    have lead := utf8Width_cases first
    exact Utf.two_bytes (by omega) tail
  | next begun continues short =>
    cases begun with
    | @first first long =>
      obtain ⟨next, wide, scalar, _⟩ := utf8Continues_first continues
      have tail := utf8Continues_later (by simp) follows
      have width : utf8Width first = 3 := full.symm
      have lead := utf8Width_cases first
      exact Utf.three_bytes (by omega) next wide scalar tail
    | next begun before shorter =>
      cases begun with
      | @first first long =>
        obtain ⟨next, _, _, wide, scalar⟩ := utf8Continues_first before
        have tail := utf8Continues_later (by simp) continues
        have last := utf8Continues_later (by simp) follows
        have width : utf8Width first = 4 := full.symm
        have lead := utf8Width_cases first
        exact Utf.four_bytes (by omega) next wide scalar tail last
      | next begun _ _ =>
        have some := begun.length_pos
        have most := full ▸ utf8Width_le _
        simp only [List.length_append, List.length_singleton] at most
        omega

theorem replacement_text : replacement = Utf.encode ['\uFFFD'] := by decide

theorem broken_text (sequence : List UInt8) :
    ∃ text, (if sequence.isEmpty then [] else replacement) = Utf.encode text := by
  split
  · exact ⟨[], rfl⟩
  · exact ⟨['\uFFFD'], replacement_text⟩

/-- What is decoded with replacements is a text. -/
theorem utf8LossyFrom_text (bytes : List UInt8) {sequence : List UInt8} (begun : sequence = [] ∨ Begun sequence) :
    ∃ text, utf8LossyFrom sequence bytes = Utf.encode text := by
  induction bytes generalizing sequence with
  | nil => exact broken_text sequence
  | cons byte rest ih =>
    rw [utf8LossyFrom]
    by_cases follows : sequence.isEmpty = false ∧ utf8Continues sequence byte = true
    · rw [if_pos follows]
      have begun : Begun sequence := begun.resolve_left fun same => by simp [same] at follows
      by_cases full : sequence.length + 1 = utf8Width (sequence.headD 0)
      · obtain ⟨character, same⟩ := begun.complete follows.2 full
        obtain ⟨text, after⟩ := ih (.inl rfl)
        refine ⟨character :: text, ?_⟩
        rw [if_pos full, after, Utf.encode_cons, same, List.append_assoc, List.singleton_append]
      · have short := begun.short
        rw [if_neg full]
        exact ih (.inr (begun.next follows.2 (by omega)))
    · rw [if_neg follows]
      -- what was begun is replaced, and the byte begins anew
      obtain ⟨before, same⟩ := broken_text sequence
      rw [same]
      rcases utf8Width_cases byte with ⟨ascii, width⟩ | long
      · obtain ⟨text, after⟩ := ih (.inl rfl)
        refine ⟨before ++ Char.ofNat byte.toNat :: text, ?_⟩
        rw [width, if_neg (by decide), if_pos rfl, after, Utf.encode_append, Utf.encode_cons, Utf.ascii_byte ascii]
        rfl
      · by_cases none : utf8Width byte = 0
        · obtain ⟨text, after⟩ := ih (.inl rfl)
          refine ⟨before ++ '\uFFFD' :: text, ?_⟩
          rw [if_pos none, after, Utf.encode_append, replacement_text, Utf.encode_cons, Utf.encode_cons, Utf.encode_nil,
            List.append_nil]
        · obtain ⟨text, after⟩ := ih (.inr (.first (by omega) : Begun [byte]))
          refine ⟨before ++ text, ?_⟩
          rw [if_neg none, if_neg (by omega), after, Utf.encode_append]

theorem utf8Lossy_text (bytes : List UInt8) : ∃ text, utf8Lossy bytes = Utf.encode text := utf8LossyFrom_text bytes (.inl rfl)

end Lossy

section Echo

open Utf

/-- A character that ends no line is kept, whatever its bytes are. -/
theorem toCrlf_character {character : Char} (isReturn : character ≠ '\r') (isLine : character ≠ '\n') (rest : List UInt8) :
    toCrlf (String.utf8EncodeChar character ++ rest) = String.utf8EncodeChar character ++ toCrlf rest := by
  have kept : ∀ bytes : List UInt8, 13 ∉ bytes → 10 ∉ bytes → toCrlf (bytes ++ rest) = bytes ++ toCrlf rest := by
    intro bytes noReturn noLine
    induction bytes with
    | nil => rfl
    | cons byte bytes ih =>
      rw [List.mem_cons, not_or] at noReturn noLine
      rw [List.cons_append, toCrlf_byte (Ne.symm noReturn.1) (Ne.symm noLine.1), ih noReturn.2 noLine.2, List.cons_append]
  by_cases ascii : character.toNat < 0x80
  · have other : ∀ value : Char, character ≠ value → character.toNat ≠ value.toNat :=
      fun _ differ same => differ (Char.toNat_inj.mp same)
    have noReturn : character.toNat ≠ 13 := other '\r' isReturn
    have noLine : character.toNat ≠ 10 := other '\n' isLine
    have same := toNat_byte (n := character.toNat) (by omega)
    rw [encode_one ascii]
    refine kept _ ?_ ?_
    · rw [List.mem_singleton, ← UInt8.toNat_inj, same]
      exact Ne.symm noReturn
    · rw [List.mem_singleton, ← UInt8.toNat_inj, same]
      exact Ne.symm noLine
  · refine kept _ (fun listed => ?_) (fun listed => ?_)
    · exact absurd (high_bytes (by omega) listed) (by decide)
    · exact absurd (high_bytes (by omega) listed) (by decide)

/-- With the endings of the RDP side a text is a text still, of the same characters but for its endings. -/
theorem toCrlf_text (text : List Char) :
    ∃ lines, toCrlf (encode text) = encode lines ∧ ∀ character ∈ lines, character ∈ text ∨ character = '\r' ∨ character = '\n' := by
  induction text with
  | nil => exact ⟨[], rfl, by simp⟩
  | cons character text ih =>
    obtain ⟨lines, same, origin⟩ := ih
    have ending : ∀ one ∈ '\r' :: '\n' :: lines, one ∈ character :: text ∨ one = '\r' ∨ one = '\n' := by
      intro one listed
      rcases List.mem_cons.mp listed with rfl | listed
      · exact .inr (.inl rfl)
      rcases List.mem_cons.mp listed with rfl | listed
      · exact .inr (.inr rfl)
      · exact (origin one listed).imp_left (List.mem_cons_of_mem _)
    by_cases isReturn : character = '\r'
    · subst isReturn
      show ∃ lines, toCrlf (13 :: encode text) = encode lines ∧ _
      by_cases next : ∃ after, encode text = 10 :: after
      · -- the line feed of the rest already ends this line
        obtain ⟨after, next⟩ := next
        refine ⟨lines, ?_, fun one listed => (origin one listed).imp_left (List.mem_cons_of_mem _)⟩
        rw [← same, next, toCrlf, toCrlf_line]
      · refine ⟨'\r' :: '\n' :: lines, ?_, ending⟩
        rw [toCrlf_return (fun after same => next ⟨after, same⟩), same]
        rfl
    · by_cases isLine : character = '\n'
      · subst isLine
        refine ⟨'\r' :: '\n' :: lines, ?_, ending⟩
        show toCrlf (10 :: encode text) = _
        rw [toCrlf_line, same]
        rfl
      · refine ⟨character :: lines, ?_, ?_⟩
        · rw [encode_cons, toCrlf_character isReturn isLine, same, encode_cons]
        · intro one listed
          rcases List.mem_cons.mp listed with rfl | listed
          · exact .inl List.mem_cons_self
          · exact (origin one listed).imp_left (List.mem_cons_of_mem _)

theorem utf16Units_wire {units : List Nat} (bound : ∀ unit ∈ units, unit < 0x10000) :
    utf16Units (units.flatMap littleEndian ++ [0, 0]) = units ++ [0] := by
  induction units with
  | nil => rfl
  | cons unit units ih =>
    have low := List.forall_mem_cons.mp bound
    have whole : (UInt8.ofNat unit).toNat + 256 * (UInt8.ofNat (unit / 256)).toNat = unit := by
      rw [UInt8.toNat_ofNat', UInt8.toNat_ofNat']
      omega
    show ((UInt8.ofNat unit).toNat + 256 * (UInt8.ofNat (unit / 256)).toNat) :: utf16Units (units.flatMap littleEndian ++ [0, 0]) = _
    rw [whole, ih low.2, List.cons_append]

theorem units_bound (character : Char) {unit : Nat} (listed : unit ∈ units character) : unit < 0x10000 := by
  have bound := char_bound character
  unfold units at listed
  split at listed
  · rename_i short
    rwa [List.mem_singleton.mp listed]
  · rcases List.mem_pair.mp listed with same | same
    · omega
    · omega

theorem units_ne_zero {character : Char} (notNul : character ≠ '\x00') {unit : Nat} (listed : unit ∈ units character) : unit ≠ 0 := by
  unfold units at listed
  split at listed
  · intro zero
    exact notNul (Char.toNat_inj.mp ((List.mem_singleton.mp listed).symm.trans zero))
  · rcases List.mem_pair.mp listed with same | same
    · omega
    · omega

theorem utf16Lossy_character (character : Char) (rest : List Nat) :
    utf16Lossy (units character ++ rest) = String.utf8EncodeChar character ++ utf16Lossy rest := by
  have bound := char_bound character
  have back := Char.ofNat_toNat character
  by_cases short : character.toNat < 0x10000
  · rw [units, if_pos short, List.singleton_append]
    cases rest with
    | nil => rw [utf16Lossy.eq_2, if_neg (by omega), back, utf16Lossy, List.append_nil]
    | cons low rest => rw [utf16Lossy, if_neg (by omega), if_neg (by omega), back]
  · have whole : 0x10000 + (0xD800 + (character.toNat - 0x10000) / 0x400 - 0xD800) * 0x400 +
        (0xDC00 + (character.toNat - 0x10000) % 0x400 - 0xDC00) = character.toNat := by omega
    rw [units, if_neg short, List.cons_append, List.singleton_append, utf16Lossy, if_pos (by omega), if_pos (by omega), whole, back]

theorem utf16Lossy_text (text : List Char) : utf16Lossy (text.flatMap units) = encode text := by
  induction text with
  | nil => rfl
  | cons character text ih => rw [List.flatMap_cons, utf16Lossy_character, ih, encode_cons]

/-- A text without a terminator in it is read back from the wire as it was. -/
theorem utf16leToUtf8_newUnicodeString {text : List Char} (noNul : '\x00' ∉ text) :
    utf16leToUtf8 (FormatDataResponse.newUnicodeString (encode text)).data = encode text := by
  have wire : (FormatDataResponse.newUnicodeString (encode text)).data = (text.flatMap units).flatMap littleEndian ++ [0, 0] := by
    show _ ++ [0, 0] = _
    rw [chars_encode, List.flatMap_assoc]
  have origin : ∀ unit ∈ text.flatMap units, ∃ character ∈ text, unit ∈ units character := fun _ => List.mem_flatMap.mp
  have bound : ∀ unit ∈ text.flatMap units, unit < 0x10000 := by
    intro unit listed
    obtain ⟨character, _, inside⟩ := origin unit listed
    exact units_bound character inside
  have nonzero : ∀ unit ∈ text.flatMap units, decide (unit ≠ 0) = true := by
    intro unit listed
    obtain ⟨character, known, inside⟩ := origin unit listed
    exact decide_eq_true (units_ne_zero (fun same => noNul (same ▸ known)) inside)
  unfold utf16leToUtf8
  rw [wire, utf16Units_wire bound, List.takeWhile_append_of_pos nonzero, List.takeWhile_cons_of_neg (by decide), List.append_nil,
    utf16Lossy_text]

theorem received_echo (bitmap : BitmapApi) {echo : ClipboardEchoCandidate} {announced data : List UInt8}
    (known : echo.text = some announced) (same : normalizeLf (utf16leToUtf8 data) = normalizeLf (utf8Lossy announced)) :
    HyprCliprdrBackend.received bitmap (some ClipboardFormatId.cfUnicodeText) (some echo) data = none := by
  have echoed : ((some echo).bind fun candidate => candidate.text).any
      (fun announced => normalizeLf (utf8Lossy announced) = normalizeLf (utf16leToUtf8 data)) = true := by
    rw [Option.bind_some, known, Option.any_some, same, decide_eq_true_eq]
  unfold HyprCliprdrBackend.received
  rw [if_neg (by decide), if_neg (by decide), if_pos rfl]
  by_cases nothing : (utf16leToUtf8 data).isEmpty = true
  · exact if_pos nothing
  · exact (if_neg nothing).trans (if_pos echoed)

/-- Our own text comes back as it went, up to its line endings, so that it is taken for the echo it is. The line
endings of the two sides are normal forms of each other, and nothing else of a text changes. -/
theorem own_text_recognised (announced : List UInt8) (noNul : '\x00' ∉ chars (utf8Lossy announced)) :
    let wire := FormatDataResponse.newUnicodeString (toCrlf (utf8Lossy announced))
    (∀ s : ClipState, s.clipboardData.map (·.data) = some announced → announced ≠ [] →
      s.onFormatDataRequest .newUnicodeString ClipboardFormatId.cfUnicodeText = wire) ∧
    normalizeLf (utf16leToUtf8 wire.data) = normalizeLf (utf8Lossy announced) ∧
    (∀ {Fetch : Type} (s : HyprCliprdrBackend Fetch) (bitmap : BitmapApi) (echo : ClipboardEchoCandidate) (maxClipboardSize : Nat),
      s.lastRequestedFormat = some ClipboardFormatId.cfUnicodeText → s.pendingEchoCandidate = some echo →
      echo.text = some announced → (s.handleFormatDataResponse bitmap wire maxClipboardSize).pendingWrite = s.pendingWrite) ∧
    ∀ bytes : List UInt8,
      toCrlf (toCrlf bytes) = toCrlf bytes ∧ normalizeLf (normalizeLf bytes) = normalizeLf bytes ∧
      normalizeLf (toCrlf bytes) = normalizeLf bytes ∧
      (∀ i : Nat, (toCrlf bytes)[i]? = some (13 : UInt8) → (toCrlf bytes)[i + 1]? = some 10) ∧
      (∀ i : Nat, (toCrlf bytes)[i]? = some (10 : UInt8) → ∃ before, i = before + 1 ∧ (toCrlf bytes)[before]? = some 13) ∧
      withoutEndings (toCrlf bytes) = withoutEndings bytes ∧ withoutEndings (normalizeLf bytes) = withoutEndings bytes := by
  intro wire
  have back : normalizeLf (utf16leToUtf8 wire.data) = normalizeLf (utf8Lossy announced) := by
    obtain ⟨text, decoded⟩ := utf8Lossy_text announced
    obtain ⟨lines, encoded, origin⟩ := toCrlf_text text
    rw [decoded, chars_encode] at noNul
    have noNul : '\x00' ∉ lines := by
      intro listed
      rcases origin _ listed with known | ending | ending
      · exact noNul known
      · exact absurd ending (by decide)
      · exact absurd ending (by decide)
    have sent : wire = .newUnicodeString (encode lines) := by rw [← encoded, ← decoded]
    rw [sent, utf16leToUtf8_newUnicodeString noNul, ← encoded, normalizeLf_toCrlf, decoded]
  refine ⟨?_, back, ?_, ?_⟩
  · intro s cached nonempty
    obtain ⟨entry, stored, same⟩ := Option.map_eq_some_iff.mp cached
    have text : SelectionKind.ofLocalFormat ClipboardFormatId.cfUnicodeText = some .text := rfl
    unfold ClipState.onFormatDataRequest
    rw [text]
    dsimp only
    rw [stored]
    dsimp only
    rw [same, if_neg (by simpa using nonempty)]
  · intro Fetch s bitmap echo maxClipboardSize format candidate known
    unfold HyprCliprdrBackend.handleFormatDataResponse
    split
    · rfl
    · show (HyprCliprdrBackend.received bitmap s.lastRequestedFormat s.pendingEchoCandidate wire.data).or s.pendingWrite = _
      rw [format, candidate, received_echo bitmap known back, Option.none_or]
  · intro bytes
    exact ⟨toCrlf_twice bytes, normalizeLf_twice bytes, normalizeLf_toCrlf bytes, fun _ => (toCrlf_crlf bytes).return_line,
      fun _ => (toCrlf_crlf bytes).line_return, withoutEndings_toCrlf bytes, withoutEndings_normalizeLf bytes⟩

theorem own_text_recognised_lone_return :
    normalizeLf (utf16leToUtf8 (FormatDataResponse.newUnicodeString (toCrlf (utf8Lossy [0xC3, 13, 0xC3, 0xA9]))).data) =
      normalizeLf (utf8Lossy [0xC3, 13, 0xC3, 0xA9]) :=
  (own_text_recognised [0xC3, 13, 0xC3, 0xA9] (by
    have text : utf8Lossy [0xC3, 13, 0xC3, 0xA9] = encode ['\uFFFD', '\r', 'é'] := by decide
    rw [text, chars_encode]
    decide)).2.1

end Echo

end HyprRdp
