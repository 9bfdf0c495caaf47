import HyprRdp.Lib.StartCodes
import Mathlib.Tactic.IntervalCases

/-! Byte strings in which two zeros are never followed by a byte of two or less: a three is put in front of such a byte,
and of a three. -/

namespace ByteStuffing

/-- One pass over the bytes that counts the zeros it has just passed. -/
def stuffFrom (zeros : Nat) : List UInt8 → List UInt8
  | [] => []
  | byte :: rest =>
    if 2 ≤ zeros ∧ byte ≤ 3 then 3 :: byte :: stuffFrom (if byte = 0 then 1 else 0) rest
    else byte :: stuffFrom (if byte = 0 then zeros + 1 else 0) rest

def stuff (bytes : List UInt8) : List UInt8 := stuffFrom 0 bytes

/-- A three after two zeros is dropped. -/
def unstuff : List UInt8 → List UInt8
  | 0 :: 0 :: 3 :: rest => 0 :: 0 :: unstuff rest
  | byte :: rest => byte :: unstuff rest
  | [] => []

/-- Two zeros are never followed by a byte of two or less. -/
def Clean (bytes : List UInt8) : Prop := ∀ byte, byte ≤ 2 → ¬ [0, 0, byte] <:+: bytes

theorem stuffFrom_nil (zeros : Nat) : stuffFrom zeros [] = [] := rfl

theorem stuffFrom_cons (zeros : Nat) (byte : UInt8) (rest : List UInt8) : stuffFrom zeros (byte :: rest) =
    if 2 ≤ zeros ∧ byte ≤ 3 then 3 :: byte :: stuffFrom (if byte = 0 then 1 else 0) rest
    else byte :: stuffFrom (if byte = 0 then zeros + 1 else 0) rest := rfl

theorem unstuff_escape (rest : List UInt8) : unstuff (0 :: 0 :: 3 :: rest) = 0 :: 0 :: unstuff rest := rfl

/-- A byte that starts no escape is kept. -/
theorem unstuff_keep {byte : UInt8} {rest : List UInt8} (plain : ∀ later, byte :: rest ≠ 0 :: 0 :: 3 :: later) :
    unstuff (byte :: rest) = byte :: unstuff rest := by
  rw [unstuff]
  rintro later rfl rfl
  exact plain later rfl

theorem unstuff_cons {byte : UInt8} (nonzero : byte ≠ 0) (rest : List UInt8) :
    unstuff (byte :: rest) = byte :: unstuff rest :=
  unstuff_keep fun _ same => nonzero (List.cons.inj same).1

theorem unstuff_zero {byte : UInt8} (nonzero : byte ≠ 0) (rest : List UInt8) :
    unstuff (0 :: byte :: rest) = 0 :: byte :: unstuff rest := by
  rw [unstuff_keep, unstuff_cons nonzero]
  intro _ same
  exact nonzero (List.cons.inj (List.cons.inj same).2).1

theorem unstuff_zeros {byte : UInt8} (nonzero : byte ≠ 0) (large : byte ≠ 3) (rest : List UInt8) :
    unstuff (0 :: 0 :: byte :: rest) = 0 :: 0 :: byte :: unstuff rest := by
  rw [unstuff_keep, unstuff_zero nonzero]
  intro _ same
  exact large (List.cons.inj (List.cons.inj (List.cons.inj same).2).2).1

/-- The zeros before the bytes stand for those that the pass has counted. -/
theorem unstuff_stuffFrom (bytes : List UInt8) {zeros : Nat} (few : zeros ≤ 2) :
    unstuff (List.replicate zeros 0 ++ stuffFrom zeros bytes) = List.replicate zeros 0 ++ bytes := by
  induction bytes generalizing zeros with
  | nil =>
    rw [stuffFrom_nil, List.append_nil]
    interval_cases zeros <;> rfl
  | cons byte rest ih =>
    rw [stuffFrom_cons]
    by_cases small : 2 ≤ zeros ∧ byte ≤ 3
    · obtain rfl : zeros = 2 := by omega
      rw [if_pos small]
      by_cases zero : byte = 0
      · have step := @ih 1 (by omega)
        rw [if_pos zero, zero]
        show unstuff (0 :: 0 :: 3 :: ([0] ++ stuffFrom 1 rest)) = _
        rw [unstuff_escape]
        exact congrArg (fun bytes => 0 :: 0 :: bytes) step
      · have step := @ih 0 (by omega)
        rw [if_neg zero]
        show unstuff (0 :: 0 :: 3 :: byte :: stuffFrom 0 rest) = _
        rw [unstuff_escape, unstuff_cons zero]
        exact congrArg (fun bytes => 0 :: 0 :: byte :: bytes) step
    · rw [if_neg small]
      by_cases zero : byte = 0
      · have fewer : zeros ≤ 1 := by
          by_contra more
          exact small ⟨by omega, zero ▸ by decide⟩
        have step := @ih (zeros + 1) (by omega)
        rw [List.replicate_succ', List.append_assoc, List.append_assoc] at step
        rw [if_pos zero, zero]
        exact step
      · have step := @ih 0 (by omega)
        rw [List.replicate_zero, List.nil_append, List.nil_append] at step
        rw [if_neg zero]
        interval_cases zeros
        · exact (unstuff_cons zero _).trans (congrArg (byte :: ·) step)
        · exact (unstuff_zero zero _).trans (congrArg (0 :: byte :: ·) step)
        · have large : byte ≠ 3 := fun three => small ⟨le_refl _, three.symm ▸ by decide⟩
          exact (unstuff_zeros zero large _).trans (congrArg (0 :: 0 :: byte :: ·) step)

theorem unstuff_stuff (bytes : List UInt8) : unstuff (stuff bytes) = bytes := unstuff_stuffFrom bytes (Nat.zero_le 2)

theorem Clean.cons {byte : UInt8} {rest : List UInt8} (clean : Clean rest)
    (start : ∀ third, third ≤ 2 → ¬ [0, 0, third] <+: byte :: rest) : Clean (byte :: rest) := by
  intro third small inside
  rcases List.infix_cons_iff.mp inside with first | later
  · exact start third small first
  · exact clean third small later

theorem Clean.cons_nonzero {byte : UInt8} {rest : List UInt8} (clean : Clean rest) (nonzero : byte ≠ 0) :
    Clean (byte :: rest) :=
  clean.cons fun _ _ start => nonzero (List.cons_prefix_cons.mp start).1.symm

theorem Clean.cons_zero {byte : UInt8} {rest : List UInt8} (clean : Clean (byte :: rest)) (nonzero : byte ≠ 0) :
    Clean (0 :: byte :: rest) :=
  clean.cons fun _ _ start => nonzero (List.cons_prefix_cons.mp (List.cons_prefix_cons.mp start).2).1.symm

theorem Clean.cons_zeros {byte : UInt8} {rest : List UInt8} (clean : Clean (byte :: rest)) (large : 2 < byte) :
    Clean (0 :: 0 :: byte :: rest) := by
  have nonzero : byte ≠ 0 := fun zero => absurd large (zero ▸ by decide)
  refine (clean.cons_zero nonzero).cons fun third small start => ?_
  have same := (List.cons_prefix_cons.mp (List.cons_prefix_cons.mp (List.cons_prefix_cons.mp start).2).2).1
  rw [same] at small
  exact absurd large (UInt8.not_lt.mpr small)

theorem stuffFrom_clean (bytes : List UInt8) {zeros : Nat} (few : zeros ≤ 2) :
    Clean (List.replicate zeros 0 ++ stuffFrom zeros bytes) := by
  induction bytes generalizing zeros with
  | nil =>
    intro byte _ inside
    have long := inside.length_le
    simp only [stuffFrom_nil, List.append_nil, List.length_replicate, List.length_cons, List.length_nil] at long
    omega
  | cons byte rest ih =>
    rw [stuffFrom_cons]
    by_cases small : 2 ≤ zeros ∧ byte ≤ 3
    · obtain rfl : zeros = 2 := by omega
      have tail : Clean (byte :: stuffFrom (if byte = 0 then 1 else 0) rest) := by
        by_cases zero : byte = 0
        · rw [if_pos zero, zero]
          exact @ih 1 (by omega)
        · rw [if_neg zero]
          exact Clean.cons_nonzero (@ih 0 (by omega)) zero
      rw [if_pos small]
      exact (tail.cons_nonzero (by decide)).cons_zeros (by decide)
    · rw [if_neg small]
      by_cases zero : byte = 0
      · have fewer : zeros ≤ 1 := by
          by_contra more
          exact small ⟨by omega, zero ▸ by decide⟩
        have step := @ih (zeros + 1) (by omega)
        rw [List.replicate_succ', List.append_assoc] at step
        rw [if_pos zero, zero]
        exact step
      · have step : Clean (byte :: stuffFrom 0 rest) := Clean.cons_nonzero (@ih 0 (by omega)) zero
        rw [if_neg zero]
        interval_cases zeros
        · exact step
        · exact step.cons_zero zero
        · have large : 3 < byte := UInt8.not_le.mp fun le => small ⟨le_refl _, le⟩
          exact step.cons_zeros (UInt8.lt_trans (by decide) large)

theorem stuff_clean (bytes : List UInt8) : Clean (stuff bytes) := stuffFrom_clean bytes (Nat.zero_le 2)

theorem Clean.free {bytes : List UInt8} (clean : Clean bytes) : StartCodes.Free bytes := clean 1 (by decide)

theorem getLast?_stuffFrom (zeros : Nat) (bytes : List UInt8) : (stuffFrom zeros bytes).getLast? = bytes.getLast? := by
  induction bytes generalizing zeros with
  | nil => rfl
  | cons byte rest ih =>
    rw [stuffFrom_cons]
    split
    · rw [List.getLast?_cons_cons, List.getLast?_cons, List.getLast?_cons, ih]
    · rw [List.getLast?_cons, List.getLast?_cons, ih]

/-- The first byte and the last are kept. -/
theorem stuff_head (byte : UInt8) (rest : List UInt8) :
    stuff (byte :: rest) = byte :: stuffFrom (if byte = 0 then 1 else 0) rest := by
  rw [stuff, stuffFrom_cons, if_neg fun two => absurd two.1 (by decide)]

theorem getLast?_stuff (bytes : List UInt8) : (stuff bytes).getLast? = bytes.getLast? := getLast?_stuffFrom 0 bytes

end ByteStuffing
