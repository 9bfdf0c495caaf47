import Mathlib.Data.List.Basic
import Mathlib.Data.UInt

/-! Texts in UTF-8 and in UTF-16, as lists of bytes and of units. -/

namespace Utf

def encode (text : List Char) : List UInt8 := text.flatMap String.utf8EncodeChar

/-- The characters of a text in UTF-8. -/
def chars (bytes : List UInt8) : List Char := (bytes.toByteArray.utf8Decode?.getD #[]).toList

/-- A character in UTF-16, as a pair of surrogates from U+10000 on. -/
def units (character : Char) : List Nat :=
  if character.toNat < 0x10000 then [character.toNat]
  else [0xD800 + (character.toNat - 0x10000) / 0x400, 0xDC00 + (character.toNat - 0x10000) % 0x400]

def littleEndian (unit : Nat) : List UInt8 := [UInt8.ofNat unit, UInt8.ofNat (unit / 256)]

@[simp] theorem encode_nil : encode [] = [] := rfl

@[simp] theorem encode_cons (character : Char) (text : List Char) :
    encode (character :: text) = String.utf8EncodeChar character ++ encode text := List.flatMap_cons

theorem encode_append (text more : List Char) : encode (text ++ more) = encode text ++ encode more := List.flatMap_append

theorem chars_encode (text : List Char) : chars (encode text) = text := by
  have decoded := List.utf8Decode?_utf8Encode (l := text)
  unfold List.utf8Encode at decoded
  rw [chars, encode, decoded, Option.getD_some]

theorem char_bound (character : Char) :
    character.toNat < 0xD800 ∨ (0xDFFF < character.toNat ∧ character.toNat < 0x110000) :=
  character.valid

theorem toNat_char {n : Nat} (bound : n < 0xD800 ∨ (0xDFFF < n ∧ n < 0x110000)) : (Char.ofNat n).toNat = n := by
  have valid : n.isValidChar := bound
  unfold Char.ofNat
  rw [dif_pos valid]
  rfl

theorem toNat_byte {n : Nat} (bound : n < 256) : (UInt8.ofNat n).toNat = n := by
  rw [UInt8.toNat_ofNat', Nat.mod_eq_of_lt bound]

theorem byte_of_toNat (byte : UInt8) {n : Nat} (same : byte.toNat = n) : UInt8.ofNat n = byte := by
  rw [← same, UInt8.ofNat_toNat]

section Encoded

variable {character : Char}

theorem encode_one (bound : character.toNat < 0x80) : String.utf8EncodeChar character = [UInt8.ofNat character.toNat] := by
  unfold String.utf8EncodeChar
  exact if_pos (Nat.le_of_lt_succ bound)

theorem encode_two (low : 0x80 ≤ character.toNat) (high : character.toNat < 0x800) :
    String.utf8EncodeChar character =
      [UInt8.ofNat (character.toNat / 64 % 32 + 0xC0), UInt8.ofNat (character.toNat % 64 + 0x80)] := by
  unfold String.utf8EncodeChar
  exact (if_neg (Nat.not_le_of_lt low)).trans (if_pos (Nat.le_of_lt_succ high))

theorem encode_three (low : 0x800 ≤ character.toNat) (high : character.toNat < 0x10000) :
    String.utf8EncodeChar character = [UInt8.ofNat (character.toNat / 4096 % 16 + 0xE0),
      UInt8.ofNat (character.toNat / 64 % 64 + 0x80), UInt8.ofNat (character.toNat % 64 + 0x80)] := by
  unfold String.utf8EncodeChar
  exact (if_neg (Nat.not_le_of_lt (Nat.le_trans (by omega) low))).trans
    ((if_neg (Nat.not_le_of_lt low)).trans (if_pos (Nat.le_of_lt_succ high)))

theorem encode_four (low : 0x10000 ≤ character.toNat) :
    String.utf8EncodeChar character = [UInt8.ofNat (character.toNat / 262144 % 8 + 0xF0),
      UInt8.ofNat (character.toNat / 4096 % 64 + 0x80), UInt8.ofNat (character.toNat / 64 % 64 + 0x80),
      UInt8.ofNat (character.toNat % 64 + 0x80)] := by
  unfold String.utf8EncodeChar
  exact (if_neg (Nat.not_le_of_lt (Nat.le_trans (by omega) low))).trans
    ((if_neg (Nat.not_le_of_lt (Nat.le_trans (by omega) low))).trans (if_neg (Nat.not_le_of_lt low)))

/-- The bytes of a character outside ASCII are outside ASCII. -/
theorem high_bytes (high : 0x80 ≤ character.toNat) {byte : UInt8} (listed : byte ∈ String.utf8EncodeChar character) :
    0x80 ≤ byte.toNat := by
  have inside : ∀ {n : Nat}, n < 128 → 0x80 ≤ (UInt8.ofNat (n + 0x80)).toNat := by
    intro n bound
    rw [toNat_byte (by omega)]
    omega
  by_cases two : character.toNat < 0x800
  · rw [encode_two high two] at listed
    rcases List.mem_pair.mp listed with rfl | rfl
    · exact inside (n := character.toNat / 64 % 32 + 64) (by omega)
    · exact inside (by omega)
  · by_cases three : character.toNat < 0x10000
    · rw [encode_three (by omega) three] at listed
      simp only [List.mem_cons, List.not_mem_nil, or_false] at listed
      rcases listed with rfl | rfl | rfl
      · exact inside (n := character.toNat / 4096 % 16 + 96) (by omega)
      · exact inside (by omega)
      · exact inside (by omega)
    · rw [encode_four (by omega)] at listed
      simp only [List.mem_cons, List.not_mem_nil, or_false] at listed
      rcases listed with rfl | rfl | rfl | rfl
      · exact inside (n := character.toNat / 262144 % 8 + 112) (by omega)
      · exact inside (by omega)
      · exact inside (by omega)
      · exact inside (by omega)

/-- A byte of ASCII is a character by itself. -/
theorem ascii_byte {byte : UInt8} (bound : byte.toNat < 0x80) : String.utf8EncodeChar (Char.ofNat byte.toNat) = [byte] := by
  have same := toNat_char (n := byte.toNat) (by omega)
  rw [encode_one (by omega), same, UInt8.ofNat_toNat]

end Encoded

/-- Two bytes in the ranges of the standard are a character. -/
theorem two_bytes {first second : UInt8} (lead : 0xC2 ≤ first.toNat ∧ first.toNat < 0xE0)
    (tail : 0x80 ≤ second.toNat ∧ second.toNat ≤ 0xBF) : ∃ character, String.utf8EncodeChar character = [first, second] := by
  have same := toNat_char (n := first.toNat % 32 * 64 + second.toNat % 64) (by omega)
  refine ⟨Char.ofNat (first.toNat % 32 * 64 + second.toNat % 64), ?_⟩
  rw [encode_two (by omega) (by omega), same, byte_of_toNat first (by omega), byte_of_toNat second (by omega)]

/-- The second byte keeps the character out of what two bytes can say and out of the surrogates. -/
theorem three_bytes {first second third : UInt8} (lead : 0xE0 ≤ first.toNat ∧ first.toNat < 0xF0)
    (next : 0x80 ≤ second.toNat ∧ second.toNat ≤ 0xBF) (long : first.toNat = 0xE0 → 0xA0 ≤ second.toNat)
    (scalar : first.toNat = 0xED → second.toNat ≤ 0x9F) (tail : 0x80 ≤ third.toNat ∧ third.toNat ≤ 0xBF) :
    ∃ character, String.utf8EncodeChar character = [first, second, third] := by
  have same := toNat_char (n := first.toNat % 16 * 4096 + second.toNat % 64 * 64 + third.toNat % 64) (by omega)
  refine ⟨Char.ofNat (first.toNat % 16 * 4096 + second.toNat % 64 * 64 + third.toNat % 64), ?_⟩
  rw [encode_three (by omega) (by omega), same, byte_of_toNat first (by omega), byte_of_toNat second (by omega),
    byte_of_toNat third (by omega)]

theorem four_bytes {first second third fourth : UInt8} (lead : 0xF0 ≤ first.toNat ∧ first.toNat < 0xF5)
    (next : 0x80 ≤ second.toNat ∧ second.toNat ≤ 0xBF) (long : first.toNat = 0xF0 → 0x90 ≤ second.toNat)
    (scalar : first.toNat = 0xF4 → second.toNat ≤ 0x8F) (tail : 0x80 ≤ third.toNat ∧ third.toNat ≤ 0xBF)
    (last : 0x80 ≤ fourth.toNat ∧ fourth.toNat ≤ 0xBF) :
    ∃ character, String.utf8EncodeChar character = [first, second, third, fourth] := by
  have same := toNat_char
    (n := first.toNat % 8 * 262144 + second.toNat % 64 * 4096 + third.toNat % 64 * 64 + fourth.toNat % 64) (by omega)
  refine ⟨Char.ofNat (first.toNat % 8 * 262144 + second.toNat % 64 * 4096 + third.toNat % 64 * 64 + fourth.toNat % 64), ?_⟩
  rw [encode_four (by omega), same, byte_of_toNat first (by omega), byte_of_toNat second (by omega),
    byte_of_toNat third (by omega), byte_of_toNat fourth (by omega)]

end Utf
