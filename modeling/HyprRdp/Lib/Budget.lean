import Mathlib.Data.List.Basic

/-! A budget of payments that is whole again after a while without one. -/

/-- A payment: when it fell due, and when it was made. -/
structure Payment where
  due : Nat
  made : Nat
  deriving DecidableEq, Repr

/-- The payments, the newest first, and how many of them count. A payment that
fell due a window or more after the one before it counts as the first. -/
inductive Rationed (window budget : Nat) : List Payment → Nat → Prop
  | unused : Rationed window budget [] 0
  | first {payment : Payment} : 1 ≤ budget → payment.due ≤ payment.made → Rationed window budget [payment] 1
  | renewed {last payment : Payment} {log : List Payment} {count : Nat} : Rationed window budget (last :: log) count →
    1 ≤ budget → last.made + window ≤ payment.due → payment.due ≤ payment.made →
      Rationed window budget (payment :: last :: log) 1
  | counted {last payment : Payment} {log : List Payment} {count : Nat} : Rationed window budget (last :: log) count →
    count + 1 ≤ budget → last.made ≤ payment.due → payment.due < last.made + window → payment.due ≤ payment.made →
      Rationed window budget (payment :: last :: log) (count + 1)

namespace Rationed

variable {window budget count : Nat} {log : List Payment}

theorem count_le (rationed : Rationed window budget log count) : count ≤ budget := by
  cases rationed with
  | unused => exact Nat.zero_le budget
  | first room _ => exact room
  | renewed _ room _ _ => exact room
  | counted _ room _ _ _ => exact room

theorem count_nil (rationed : Rationed window budget [] count) : count = 0 := by
  cases rationed
  rfl

/-- One more payment, while the budget has room for it. -/
theorem pay (rationed : Rationed window budget log count) {due made : Nat} (order : due ≤ made)
    (later : ∀ last ∈ log.head?, last.made ≤ due) {spent : Nat}
    (counts : spent = if ∀ last ∈ log.head?, last.made + window ≤ due then 0 else count) (room : spent + 1 ≤ budget) :
    Rationed window budget (⟨due, made⟩ :: log) (spent + 1) := by
  cases log with
  | nil =>
    have none : spent = 0 := counts.trans (if_pos fun last member => by cases member)
    subst none
    exact .first room order
  | cons last log =>
    have after : last.made ≤ due := later last rfl
    by_cases apart : last.made + window ≤ due
    · have none : spent = 0 := counts.trans (if_pos fun other member => by cases member; exact apart)
      subst none
      exact .renewed rationed room apart order
    · have same : spent = count := counts.trans (if_neg fun every => apart (every last rfl))
      subst same
      exact .counted rationed room after (Nat.lt_of_not_le apart) order

theorem tail {payment : Payment} (rationed : Rationed window budget (payment :: log) count) :
    ∃ earlier, Rationed window budget log earlier := by
  cases rationed with
  | first _ _ => exact ⟨0, .unused⟩
  | renewed before _ _ _ => exact ⟨_, before⟩
  | counted before _ _ _ _ => exact ⟨_, before⟩

theorem drop (rationed : Rationed window budget log count) (i : Nat) :
    ∃ earlier, Rationed window budget (log.drop i) earlier := by
  induction i generalizing log count with
  | zero => exact ⟨count, rationed⟩
  | succ i ih =>
    cases log with
    | nil => exact ⟨0, by rw [List.drop_nil]; exact .unused⟩
    | cons payment log =>
      obtain ⟨earlier, before⟩ := rationed.tail
      exact ih before

/-- The payments were made in their order. -/
theorem sorted (rationed : Rationed window budget log count) : log.Pairwise fun later earlier => earlier.made ≤ later.made := by
  induction rationed with
  | unused => exact .nil
  | first _ _ => exact List.pairwise_singleton _ _
  | @renewed last payment log count _ _ apart order ih =>
    refine List.pairwise_cons.mpr ⟨fun other member => ?_, ih⟩
    rcases List.mem_cons.mp member with rfl | older
    · omega
    · have := (List.pairwise_cons.mp ih).1 other older
      omega
  | @counted last payment log count _ _ after _ order ih =>
    refine List.pairwise_cons.mpr ⟨fun other member => ?_, ih⟩
    rcases List.mem_cons.mp member with rfl | older
    · omega
    · have := (List.pairwise_cons.mp ih).1 other older
      omega

/-- Before the first one that counts, there was a window without payments. -/
theorem renewal (rationed : Rationed window budget log count) {newest before : Payment} (isNewest : log.head? = some newest)
    (isBefore : log[count]? = some before) : before.made + window ≤ newest.made := by
  induction rationed generalizing newest with
  | unused => cases isNewest
  | first _ _ => cases isBefore
  | renewed _ _ apart order =>
    cases isNewest
    cases isBefore
    omega
  | @counted last payment log count previous _ after _ order ih =>
    cases isNewest
    have old := ih rfl isBefore
    omega

/-- No more payments than the budget within any window. -/
theorem spread (rationed : Rationed window budget log count) {i : Nat} {later earlier : Payment}
    (isLater : log[i]? = some later) (isEarlier : log[i + budget]? = some earlier) :
    earlier.made + window ≤ later.made := by
  obtain ⟨spent, suffix⟩ := rationed.drop i
  have newest : (log.drop i).head? = some later := by rw [List.head?_drop]; exact isLater
  have bound : i + spent ≤ i + budget := Nat.add_le_add_left suffix.count_le i
  have inside : i + budget < log.length := (List.getElem?_eq_some_iff.mp isEarlier).1
  obtain ⟨before, isBefore⟩ : ∃ before, log[i + spent]? = some before :=
    ⟨_, List.getElem?_eq_getElem (Nat.lt_of_le_of_lt bound inside)⟩
  have apart := suffix.renewal newest (by rw [List.getElem?_drop]; exact isBefore)
  rcases Nat.eq_or_lt_of_le bound with same | less
  · have same : before = earlier := Option.some.inj (isBefore.symm.trans (by rw [same]; exact isEarlier))
    rw [← same]
    exact apart
  · have order := List.pairwise_iff_getElem.mp rationed.sorted _ _ (Nat.lt_of_le_of_lt bound inside) inside less
    rw [(List.getElem?_eq_some_iff.mp isBefore).2, (List.getElem?_eq_some_iff.mp isEarlier).2] at order
    exact Nat.le_trans (Nat.add_le_add_right order window) apart

/-- The payments that count fell due within a window of the one before. -/
theorem hurried (rationed : Rationed window budget log count) {j : Nat} (inside : j + 1 < count) :
    ∃ later earlier, log[j]? = some later ∧ log[j + 1]? = some earlier ∧ later.due < earlier.made + window := by
  induction rationed generalizing j with
  | unused => exact absurd inside (Nat.not_lt_zero _)
  | first _ _ => omega
  | renewed _ _ _ _ => omega
  | @counted last payment log count _ _ _ soon _ ih =>
    cases j with
    | zero => exact ⟨payment, last, rfl, rfl, soon⟩
    | succ j => exact ih (Nat.lt_of_succ_lt_succ inside)

end Rationed
