import HyprRdp.Lib.BitStrings
import HyprRdp.Lib.ByteStuffing

namespace HyprRdp

open BitStrings ByteStuffing

/-- The bits of a byte that is not yet full are kept apart. -/
structure BitWriter where
  data : List UInt8
  currentByte : Nat
  bitsInByte : Nat
  bitsInByte_lt : bitsInByte < 8
  currentByte_lt : currentByte < 2 ^ bitsInByte

/-- `leading_zeros` of a 32-bit number. -/
def leadingZeros (value : Nat) : Nat := if value = 0 then 32 else 31 - Nat.log2 value

namespace BitWriter

def new : BitWriter := ⟨[], 0, 0, by decide, by decide⟩

theorem double_lt {byte bits : Nat} (small : byte < 2 ^ bits) (bit : Bool) : byte * 2 + bit.toNat < 2 ^ (bits + 1) := by
  have le := bit.toNat_le
  rw [Nat.pow_succ]
  omega

/-- The body of the loop in `writeBits`. -/
def pushBit (w : BitWriter) (bit : Bool) : BitWriter :=
  let currentByte := w.currentByte * 2 + bit.toNat
  if full : w.bitsInByte + 1 = 8 then ⟨w.data ++ [UInt8.ofNat currentByte], 0, 0, by decide, by decide⟩
  else ⟨w.data, currentByte, w.bitsInByte + 1, Nat.lt_of_le_of_ne w.bitsInByte_lt full, double_lt w.currentByte_lt bit⟩

def writeBits (w : BitWriter) (value : Nat) : Nat → BitWriter
  | 0 => w
  | i + 1 => (w.pushBit (decide (value / 2 ^ i % 2 = 1))).writeBits value i

/-- Exp-Golomb unsigned encoding. -/
def writeUe (w : BitWriter) (value : Nat) : BitWriter :=
  let value := (value + 1) % 2 ^ 32
  let bits := 32 - leadingZeros value
  ((fun w => w.writeBits 0 1)^[bits - 1] w).writeBits value bits

/-- Exp-Golomb signed encoding. -/
def writeSe (w : BitWriter) (value : Int) : BitWriter :=
  let mapped := if value > 0 then (value * 2 - 1).toNat else if value < 0 then (-value * 2).toNat else 0
  w.writeUe mapped

def bitLen (w : BitWriter) : Nat := w.data.length * 8 + w.bitsInByte

def writeRbspTrailingBits (w : BitWriter) : BitWriter :=
  let w := w.writeBits 1 1
  if 0 < w.bitsInByte then w.writeBits 0 (8 - w.bitsInByte) else w

/-- The bytes with the last one filled up with zeros. -/
def flushed (w : BitWriter) : List UInt8 :=
  if 0 < w.bitsInByte then w.data ++ [UInt8.ofNat (w.currentByte * 2 ^ (8 - w.bitsInByte))] else w.data

def finishWithEmulationPrevention (w : BitWriter) : List UInt8 := stuff w.flushed

/-- A call of one of the three writers. -/
inductive Call
  | writeBits (value numBits : Nat)
  | writeUe (value : Nat)
  | writeSe (value : Int)
  deriving DecidableEq, Repr

def apply (w : BitWriter) : Call → BitWriter
  | .writeBits value numBits => w.writeBits value numBits
  | .writeUe value => w.writeUe value
  | .writeSe value => w.writeSe value

def run (w : BitWriter) (calls : List Call) : BitWriter := calls.foldl apply w

/-- What has been written so far. -/
def bits (w : BitWriter) : List Bool := w.data.flatMap byteBits ++ fixed w.bitsInByte w.currentByte

theorem bits_new : new.bits = [] := rfl

theorem byteBits_ofNat (value : Nat) : byteBits (UInt8.ofNat value) = fixed 8 value := by
  unfold byteBits
  rw [UInt8.toNat_ofNat']
  exact fixed_mod 8 value

@[simp] theorem bits_pushBit (w : BitWriter) (bit : Bool) : (w.pushBit bit).bits = w.bits ++ [bit] := by
  have double := fixed_double w.bitsInByte w.currentByte bit
  unfold pushBit bits
  by_cases full : w.bitsInByte + 1 = 8
  · rw [full] at double
    rw [dif_pos full, List.flatMap_append, List.flatMap_singleton, byteBits_ofNat, double, fixed, List.append_nil,
      List.append_assoc]
  · rw [dif_neg full, double, List.append_assoc]

@[simp] theorem bits_writeBits (w : BitWriter) (value numBits : Nat) :
    (w.writeBits value numBits).bits = w.bits ++ fixed numBits value := by
  induction numBits generalizing w with
  | zero => rw [writeBits, fixed, List.append_nil]
  | succ i ih => rw [writeBits, ih, bits_pushBit, fixed, List.append_assoc, List.singleton_append]

theorem bits_zeros (w : BitWriter) (count : Nat) :
    ((fun w => writeBits w 0 1)^[count] w).bits = w.bits ++ List.replicate count false := by
  induction count generalizing w with
  | zero => rw [Function.iterate_zero_apply, List.replicate_zero, List.append_nil]
  | succ count ih =>
    rw [Function.iterate_succ_apply, ih, bits_writeBits, List.append_assoc, List.replicate_succ]
    rfl

theorem significant_bits {value : Nat} (nonzero : value ≠ 0) (small : value < 2 ^ 32) :
    32 - leadingZeros value = Nat.log2 value + 1 := by
  have few : Nat.log2 value < 32 := (Nat.log2_lt nonzero).mpr small
  unfold leadingZeros
  rw [if_neg nonzero]
  omega

@[simp] theorem bits_writeUe {w : BitWriter} {value : Nat} (small : value < 2 ^ 32 - 1) :
    (w.writeUe value).bits = w.bits ++ unsignedGolomb value := by
  have whole : (value + 1) % 2 ^ 32 = value + 1 := Nat.mod_eq_of_lt (by omega)
  unfold writeUe
  dsimp only
  rw [whole, significant_bits (Nat.succ_ne_zero value) (by omega), Nat.add_sub_cancel, bits_writeBits, bits_zeros,
    List.append_assoc, unsignedGolomb]

@[simp] theorem bits_writeSe {w : BitWriter} {value : Int} (small : |value| < 2 ^ 30) :
    (w.writeSe value).bits = w.bits ++ signedGolomb value := by
  have bounds := abs_lt.mp small
  have mapped : (if value > 0 then (value * 2 - 1).toNat else if value < 0 then (-value * 2).toNat else 0) =
      signedIndex value := by
    unfold signedIndex
    by_cases positive : 0 < value
    · rw [if_pos positive, if_pos positive]
    · rw [if_neg positive, if_neg positive]
      split <;> omega
  unfold writeSe signedGolomb
  dsimp only
  rw [mapped]
  refine bits_writeUe ?_
  unfold signedIndex
  split <;> omega

/-- What the callers keep to. -/
def Call.Allowed : Call → Prop
  | writeBits value numBits => value < 2 ^ 32 ∧ numBits ≤ 32
  | writeUe value => value < 2 ^ 32 - 1
  | writeSe value => |value| < 2 ^ 30

def Call.code : Call → List Bool
  | writeBits value numBits => fixed numBits value
  | writeUe value => unsignedGolomb value
  | writeSe value => signedGolomb value

/-- The call that would write what is read in the place of this one. -/
def Call.read : Call → BitReader Call
  | writeBits _ numBits => do pure (writeBits (← readFixed numBits) numBits)
  | writeUe _ => do pure (writeUe (← readUnsignedGolomb))
  | writeSe _ => do pure (writeSe (← readSignedGolomb))

/-- Of a value only the bits that are asked for are written. -/
def Call.written : Call → Call
  | writeBits value numBits => writeBits (value % 2 ^ numBits) numBits
  | call => call

def readAll : List Call → BitReader (List Call)
  | [] => pure []
  | call :: calls => do
    let first ← call.read
    let later ← readAll calls
    pure (first :: later)

theorem bits_apply {w : BitWriter} {call : Call} (allowed : call.Allowed) : (w.apply call).bits = w.bits ++ call.code := by
  cases call with
  | writeBits value numBits => exact bits_writeBits w value numBits
  | writeUe value => exact bits_writeUe allowed
  | writeSe value => exact bits_writeSe allowed

theorem bits_run {w : BitWriter} {calls : List Call} (allowed : ∀ call ∈ calls, call.Allowed) :
    (w.run calls).bits = w.bits ++ calls.flatMap Call.code := by
  induction calls generalizing w with
  | nil => exact (List.append_nil _).symm
  | cons call calls ih =>
    have first := @bits_apply w call (allowed call List.mem_cons_self)
    have later := @ih (w.apply call) fun other member => allowed other (List.mem_cons_of_mem _ member)
    rw [first, List.append_assoc] at later
    exact later

theorem read_code (call : Call) (rest : List Bool) : call.read.run (call.code ++ rest) = some (call.written, rest) := by
  cases call with
  | writeBits value numBits => exact run_bind_some (readFixed_fixed numBits value rest)
  | writeUe value => exact run_bind_some (readUnsignedGolomb_code value rest)
  | writeSe value => exact run_bind_some (readSignedGolomb_code value rest)

theorem readAll_code (calls : List Call) (rest : List Bool) :
    (readAll calls).run (calls.flatMap Call.code ++ rest) = some (calls.map Call.written, rest) := by
  induction calls with
  | nil => rfl
  | cons call calls ih =>
    rw [readAll, List.flatMap_cons, List.append_assoc, run_bind_some (read_code call _), run_bind_some ih]
    rfl

/-- How many bits the last byte lacks. -/
def missing (w : BitWriter) : Nat := if 0 < w.bitsInByte then 8 - w.bitsInByte else 0

theorem missing_lt (w : BitWriter) : w.missing < 8 := by
  unfold missing
  split <;> omega

theorem bits_flushed (w : BitWriter) : w.flushed.flatMap byteBits = w.bits ++ List.replicate w.missing false := by
  unfold flushed missing bits
  by_cases begun : 0 < w.bitsInByte
  · have whole : w.bitsInByte + (8 - w.bitsInByte) = 8 := Nat.add_sub_of_le (Nat.le_of_lt w.bitsInByte_lt)
    have zeros := fixed_zeros w.bitsInByte w.currentByte (8 - w.bitsInByte)
    rw [whole] at zeros
    rw [if_pos begun, if_pos begun, List.flatMap_append, List.flatMap_singleton, byteBits_ofNat, zeros, List.append_assoc]
  · have none : w.bitsInByte = 0 := Nat.eq_zero_of_not_pos begun
    rw [if_neg begun, if_neg begun, none, fixed, List.append_nil, List.replicate_zero, List.append_nil]

theorem length_bits (w : BitWriter) : w.bits.length = w.bitLen := by
  have eight (byte : UInt8) : (byteBits byte).length = 8 := length_fixed 8 _
  unfold bits bitLen
  rw [List.length_append, length_fixed, List.length_flatMap, List.map_congr_left fun byte _ => eight byte, List.map_const',
    List.sum_replicate_nat]

/-- The bits behind emulation prevention. -/
theorem bits_finish (w : BitWriter) :
    (unstuff w.finishWithEmulationPrevention).flatMap byteBits = w.bits ++ List.replicate w.missing false := by
  rw [finishWithEmulationPrevention, unstuff_stuff, bits_flushed]

theorem bitsInByte_pushBit (w : BitWriter) (bit : Bool) : (w.pushBit bit).bitsInByte = (w.bitsInByte + 1) % 8 := by
  have small := w.bitsInByte_lt
  unfold pushBit
  by_cases full : w.bitsInByte + 1 = 8
  · rw [dif_pos full, full]
  · rw [dif_neg full]
    dsimp only
    omega

theorem bitsInByte_writeBits (w : BitWriter) (value numBits : Nat) :
    (w.writeBits value numBits).bitsInByte = (w.bitsInByte + numBits) % 8 := by
  induction numBits generalizing w with
  | zero => exact (Nat.mod_eq_of_lt w.bitsInByte_lt).symm
  | succ i ih =>
    rw [writeBits, ih, bitsInByte_pushBit]
    omega

/-- The stop bit and the zeros behind it fill the byte. -/
theorem bits_writeRbspTrailingBits (w : BitWriter) : w.writeRbspTrailingBits.bitsInByte = 0 ∧
    ∃ padding < 8, w.writeRbspTrailingBits.bits = w.bits ++ true :: List.replicate padding false := by
  have stop : (w.writeBits 1 1).bits = w.bits ++ [true] := bits_writeBits w 1 1
  have zeros (count : Nat) : fixed count 0 = List.replicate count false := by
    have shifted := fixed_zeros 0 0 count
    rwa [Nat.zero_add, Nat.zero_mul] at shifted
  unfold writeRbspTrailingBits
  dsimp only
  by_cases begun : 0 < (w.writeBits 1 1).bitsInByte
  · have small := (w.writeBits 1 1).bitsInByte_lt
    rw [if_pos begun, bitsInByte_writeBits, bits_writeBits, stop, zeros, List.append_assoc]
    exact ⟨by omega, 8 - (w.writeBits 1 1).bitsInByte, by omega, rfl⟩
  · rw [if_neg begun, stop]
    exact ⟨Nat.eq_zero_of_not_pos begun, 0, by decide, rfl⟩

/-- Where a stop bit is less than a byte from the end, the last byte is not zero. -/
theorem flushed_last {w : BitWriter} {before : List Bool} {padding : Nat} (few : padding < 8)
    (written : w.flushed.flatMap byteBits = before ++ true :: List.replicate padding false) :
    w.flushed.getLast? ≠ some 0 := by
  intro last
  obtain ⟨front, same⟩ := List.getLast?_eq_some_iff.mp last
  have ends : List.replicate 8 false <:+ before ++ true :: List.replicate padding false := by
    rw [← written, same, List.flatMap_append]
    exact ⟨_, rfl⟩
  have stop : true :: List.replicate padding false <:+ before ++ true :: List.replicate padding false := ⟨_, rfl⟩
  have within := List.suffix_of_suffix_length_le stop ends (by
    rw [List.length_cons, List.length_replicate, List.length_replicate]
    omega)
  have member := List.eq_of_mem_replicate (within.subset List.mem_cons_self)
  exact absurd member (by decide)

end BitWriter

end HyprRdp
