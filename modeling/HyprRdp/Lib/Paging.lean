import Mathlib.Data.List.Basic

/-! Lists that are read in pages, each of which is asked for from where the one before it ended. -/

namespace Paging

variable {α Call : Type*}

/-- As much of a list as there is room for. -/
def page (size : α → Nat) (room : Nat) : List α → List α
  | [] => []
  | entry :: rest => if size entry ≤ room then entry :: page size (room - size entry) rest else []

theorem page_prefix (size : α → Nat) (room : Nat) (entries : List α) : page size room entries <+: entries := by
  induction entries generalizing room with
  | nil => exact List.prefix_rfl
  | cons entry rest ih =>
    rw [page]
    split
    · exact List.cons_prefix_cons.mpr ⟨rfl, ih _⟩
    · exact List.nil_prefix

theorem page_nil {size : α → Nat} {room : Nat} {entries : List α} (fits : ∀ entry ∈ entries, size entry ≤ room)
    (empty : page size room entries = []) : entries = [] := by
  cases entries with
  | nil => rfl
  | cons entry rest =>
    rw [page, if_pos (fits entry List.mem_cons_self)] at empty
    exact absurd empty (List.cons_ne_nil _ _)

variable (ask : Call → Nat → Option (List α)) (next : α → Nat)

/-- Asks until a page is empty. There is no list when a call fails, or when the calls run out before that. -/
def gather : List Call → Nat → Option (List α)
  | [], _ => none
  | call :: calls, offset =>
    (ask call offset).bind fun page =>
      match page.getLast? with
      | none => some []
      | some last => (gather calls (next last)).map (page ++ ·)

variable {ask next}

/-- A call is answered with a page of the entries, and with none only at their end. -/
def Pages (ask : Call → Nat → Option (List α)) (entries : List α) (call : Call) : Prop :=
  ∀ offset ≤ entries.length, ∃ page, ask call offset = some page ∧ page <+: entries.drop offset ∧
    (page = [] → entries.drop offset = [])

/-- However the pages are cut, they are the list, each entry once and in its place. -/
theorem gather_whole {entries : List α} {calls : List Call}
    (numbered : ∀ (k : Nat) entry, entries[k]? = some entry → next entry = k + 1)
    (pages : ∀ call ∈ calls, Pages ask entries call) : ∀ offset ≤ entries.length, entries.length < offset + calls.length →
      gather ask next calls offset = some (entries.drop offset) := by
  induction calls with
  | nil =>
    intro offset within enough
    rw [List.length_nil] at enough
    omega
  | cons call calls ih =>
    intro offset within enough
    have later := ih fun call member => pages call (List.mem_cons_of_mem _ member)
    obtain ⟨page, answer, ⟨rest, split⟩, stops⟩ := pages call List.mem_cons_self offset within
    rw [gather, answer, Option.bind_some]
    rcases List.eq_nil_or_concat' page with rfl | ⟨front, last, rfl⟩
    · rw [stops rfl]
      rfl
    · rw [List.getLast?_concat]
      have length := congrArg List.length split
      simp only [List.length_append, List.length_drop, List.length_singleton] at length
      have isLast : entries[offset + front.length]? = some last := by
        rw [← List.getElem?_drop, ← split, List.append_assoc, List.getElem?_append_right (Nat.le_refl _), Nat.sub_self]
        rfl
      have left : entries.drop (offset + front.length + 1) = rest := by
        have skipped : (entries.drop offset).drop (front ++ [last]).length = rest := by
          rw [← split, List.drop_left]
        rw [List.drop_drop, List.length_append, List.length_singleton, ← Nat.add_assoc] at skipped
        exact skipped
      rw [List.length_cons] at enough
      dsimp only
      rw [numbered _ _ isLast, later (offset + front.length + 1) (by omega) (by omega), left, Option.map_some, split]

end Paging
