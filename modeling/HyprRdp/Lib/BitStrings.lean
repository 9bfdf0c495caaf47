import Mathlib.Algebra.Ring.Nat
import Mathlib.Data.List.Basic
import Mathlib.Data.List.Infix
import Mathlib.Data.Nat.Log

/-! Bit strings with fields of a fixed width and Exp-Golomb codes, the highest bit first, and byte strings in which
two zeros are never followed by a small byte because a three is put in between. -/

namespace BitStrings

/-- The lowest `count` bits of a number. -/
def fixed : Nat → Nat → List Bool
  | 0, _ => []
  | count + 1, value => decide (value / 2 ^ count % 2 = 1) :: fixed count value

/-- As many zeros as the number behind them has bits after its first. -/
def unsignedGolomb (value : Nat) : List Bool :=
  List.replicate (Nat.log2 (value + 1)) false ++ fixed (Nat.log2 (value + 1) + 1) (value + 1)

def signedIndex (value : Int) : Nat := if 0 < value then (value * 2 - 1).toNat else (-value * 2).toNat

def signedGolomb (value : Int) : List Bool := unsignedGolomb (signedIndex value)

def byteBits (byte : UInt8) : List Bool := fixed 8 byte.toNat

section Readers

abbrev BitReader := StateT (List Bool) Option

def readBit : BitReader Bool := fun
  | [] => none
  | bit :: rest => some (bit, rest)

def readFixed : Nat → BitReader Nat
  | 0 => pure 0
  | count + 1 => do
    let bit ← readBit
    let low ← readFixed count
    pure (bit.toNat * 2 ^ count + low)

def readFlag : BitReader Bool := readBit

/-- The zeros before the first one, which is read too. -/
def zerosBefore : List Bool → Option (Nat × List Bool)
  | [] => none
  | true :: rest => some (0, rest)
  | false :: rest => (zerosBefore rest).map fun (zeros, rest) => (zeros + 1, rest)

def readZeros : BitReader Nat := zerosBefore

def readUnsignedGolomb : BitReader Nat := do
  let zeros ← readZeros
  let low ← readFixed zeros
  pure (2 ^ zeros - 1 + low)

def signedValue (index : Nat) : Int := if index % 2 = 1 then ((index + 1) / 2 : Nat) else -((index / 2 : Nat) : Int)

def readSignedGolomb : BitReader Int := do
  let index ← readUnsignedGolomb
  pure (signedValue index)

variable {α β : Type}

theorem run_bind_some {first : BitReader α} {next : α → BitReader β} {bits rest : List Bool} {value : α}
    (read : first.run bits = some (value, rest)) : (first >>= next).run bits = (next value).run rest := by
  rw [StateT.run_bind, read]
  rfl

theorem length_fixed (count value : Nat) : (fixed count value).length = count := by
  induction count with
  | zero => rfl
  | succ count ih => rw [fixed, List.length_cons, ih]

theorem fixed_mod (count value : Nat) : fixed count (value % 2 ^ count) = fixed count value := by
  have general : ∀ more, fixed count (value % 2 ^ (count + more)) = fixed count value := by
    induction count with
    | zero => exact fun _ => rfl
    | succ count ih =>
      intro more
      have whole : 2 ^ (count + 1 + more) = 2 ^ count * (2 * 2 ^ more) := by
        rw [Nat.pow_add, Nat.pow_succ, Nat.mul_assoc]
      have rest := ih (1 + more)
      rw [← Nat.add_assoc] at rest
      rw [fixed, fixed, rest, whole, Nat.mod_mul_right_div_self, Nat.mod_mul_right_mod]
  exact general 0

/-- A bit at the end doubles the number. -/
theorem fixed_double (count value : Nat) (bit : Bool) :
    fixed (count + 1) (value * 2 + bit.toNat) = fixed count value ++ [bit] := by
  induction count with
  | zero =>
    have parity : (value * 2 + bit.toNat) % 2 = bit.toNat := by
      cases bit <;> simp only [Bool.toNat_true, Bool.toNat_false] <;> omega
    rw [fixed, fixed, fixed, Nat.pow_zero, Nat.div_one, parity]
    cases bit <;> rfl
  | succ count ih =>
    have same : (value * 2 + bit.toNat) / 2 ^ (count + 1) = value / 2 ^ count := by
      have half : (value * 2 + bit.toNat) / 2 = value := by
        cases bit <;> simp only [Bool.toNat_true, Bool.toNat_false] <;> omega
      rw [Nat.pow_succ', ← Nat.div_div_eq_div_mul, half]
    rw [fixed, ih, same, fixed, List.cons_append]

theorem fixed_zeros (count value zeros : Nat) :
    fixed (count + zeros) (value * 2 ^ zeros) = fixed count value ++ List.replicate zeros false := by
  induction zeros with
  | zero => rw [Nat.pow_zero, Nat.mul_one, Nat.add_zero, List.replicate_zero, List.append_nil]
  | succ zeros ih =>
    have last := fixed_double (count + zeros) (value * 2 ^ zeros) false
    rw [Bool.toNat_false, ih, Nat.mul_assoc, ← Nat.pow_succ] at last
    rw [List.replicate_succ', ← List.append_assoc]
    exact last

/-- What is read back are the bits that were written. -/
theorem readFixed_fixed (count value : Nat) (rest : List Bool) :
    (readFixed count).run (fixed count value ++ rest) = some (value % 2 ^ count, rest) := by
  induction count with
  | zero =>
    rw [Nat.pow_zero, Nat.mod_one]
    rfl
  | succ count ih =>
    have bit : (decide (value / 2 ^ count % 2 = 1)).toNat = value / 2 ^ count % 2 := by
      rcases Nat.mod_two_eq_zero_or_one (value / 2 ^ count) with zero | one
      · rw [zero]
        rfl
      · rw [one]
        rfl
    have split : value % 2 ^ (count + 1) = value % 2 ^ count + 2 ^ count * (value / 2 ^ count % 2) := by
      rw [Nat.pow_succ, Nat.mod_mul]
    show (readBit >>= fun bit => readFixed count >>= fun low => pure (bit.toNat * 2 ^ count + low)).run
      (decide (value / 2 ^ count % 2 = 1) :: (fixed count value ++ rest)) = _
    have first : readBit.run (decide (value / 2 ^ count % 2 = 1) :: (fixed count value ++ rest)) =
        some (decide (value / 2 ^ count % 2 = 1), fixed count value ++ rest) := rfl
    rw [run_bind_some first, run_bind_some ih, bit, split, Nat.mul_comm, Nat.add_comm]
    rfl

theorem fixed_injective {count value other : Nat} (same : fixed count value = fixed count other) :
    value % 2 ^ count = other % 2 ^ count := by
  have read := readFixed_fixed count value []
  rw [same, readFixed_fixed] at read
  exact (congrArg Prod.fst (Option.some.inj read)).symm

theorem byteBits_injective {byte other : UInt8} (same : byteBits byte = byteBits other) : byte = other := by
  have values := fixed_injective same
  rw [Nat.mod_eq_of_lt byte.toNat_lt, Nat.mod_eq_of_lt other.toNat_lt] at values
  exact UInt8.toNat_inj.mp values

theorem zerosBefore_replicate (zeros : Nat) (rest : List Bool) :
    zerosBefore (List.replicate zeros false ++ true :: rest) = some (zeros, rest) := by
  induction zeros with
  | zero => rfl
  | succ zeros ih =>
    rw [List.replicate_succ, List.cons_append, zerosBefore, ih]
    rfl

theorem readUnsignedGolomb_code (value : Nat) (rest : List Bool) :
    readUnsignedGolomb.run (unsignedGolomb value ++ rest) = some (value, rest) := by
  have low : 2 ^ Nat.log2 (value + 1) ≤ value + 1 := Nat.log2_self_le (Nat.succ_ne_zero value)
  have high : value + 1 < 2 ^ (Nat.log2 (value + 1) + 1) := Nat.lt_log2_self
  have one : (value + 1) / 2 ^ Nat.log2 (value + 1) = 1 := by
    refine Nat.div_eq_of_lt_le ?_ ?_
    · rwa [Nat.one_mul]
    · rwa [Nat.mul_comm, ← Nat.pow_succ]
  have first : fixed (Nat.log2 (value + 1) + 1) (value + 1) = true :: fixed (Nat.log2 (value + 1)) (value + 1) := by
    rw [fixed, one]
    rfl
  have whole : (value + 1) % 2 ^ Nat.log2 (value + 1) = value + 1 - 2 ^ Nat.log2 (value + 1) := by
    have split := Nat.div_add_mod (value + 1) (2 ^ Nat.log2 (value + 1))
    rw [one, Nat.mul_one] at split
    omega
  have zeros : readZeros.run (unsignedGolomb value ++ rest) =
      some (Nat.log2 (value + 1), fixed (Nat.log2 (value + 1)) (value + 1) ++ rest) := by
    unfold unsignedGolomb
    rw [first, List.append_assoc, List.cons_append]
    exact zerosBefore_replicate _ _
  have positive := Nat.two_pow_pos (Nat.log2 (value + 1))
  unfold readUnsignedGolomb
  rw [run_bind_some zeros, run_bind_some (readFixed_fixed _ _ _), whole]
  show some (_, rest) = _
  congr 2
  omega

theorem signedValue_index (value : Int) : signedValue (signedIndex value) = value := by
  unfold signedValue signedIndex
  by_cases positive : 0 < value
  · rw [if_pos positive, if_pos (by omega)]
    omega
  · rw [if_neg positive, if_neg (by omega)]
    omega

theorem readSignedGolomb_code (value : Int) (rest : List Bool) :
    readSignedGolomb.run (signedGolomb value ++ rest) = some (value, rest) := by
  unfold readSignedGolomb signedGolomb
  rw [run_bind_some (readUnsignedGolomb_code _ _), signedValue_index]
  rfl

variable {next : Nat → BitReader β}

theorem run_readFixed (count value : Nat) (rest : List Bool) :
    (readFixed count >>= next).run (fixed count value ++ rest) = (next (value % 2 ^ count)).run rest :=
  run_bind_some (readFixed_fixed count value rest)

theorem run_readUnsignedGolomb (value : Nat) (rest : List Bool) :
    (readUnsignedGolomb >>= next).run (unsignedGolomb value ++ rest) = (next value).run rest :=
  run_bind_some (readUnsignedGolomb_code value rest)

theorem run_readSignedGolomb {next : Int → BitReader β} (value : Int) (rest : List Bool) :
    (readSignedGolomb >>= next).run (signedGolomb value ++ rest) = (next value).run rest :=
  run_bind_some (readSignedGolomb_code value rest)

theorem run_readFlag_zero {next : Bool → BitReader β} (rest : List Bool) :
    (readFlag >>= next).run (fixed 1 0 ++ rest) = (next false).run rest := rfl

theorem run_readFlag_one {next : Bool → BitReader β} (rest : List Bool) :
    (readFlag >>= next).run (fixed 1 1 ++ rest) = (next true).run rest := rfl

end Readers

end BitStrings
