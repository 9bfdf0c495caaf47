import Mathlib.Data.List.Basic

/-- Every entry of a history meets a condition on the entries before it. -/
def EachAfter {α : Type*} (P : List α → α → Prop) (history : List α) : Prop :=
  ∀ before entry after, history = before ++ entry :: after → P before entry

namespace EachAfter

variable {α : Type*} {P : List α → α → Prop} {history more : List α} {entry : α}

theorem nil : EachAfter P [] := fun before _ _ same => absurd same (by simp)

theorem mono {Q : List α → α → Prop} (each : EachAfter P history) (weaker : ∀ before entry, P before entry → Q before entry) :
    EachAfter Q history := fun before entry after same => weaker before entry (each before entry after same)

theorem append (each : EachAfter P history)
    (rest : ∀ before entry after, more = before ++ entry :: after → P (history ++ before) entry) :
    EachAfter P (history ++ more) := by
  intro before entry after same
  rcases List.append_eq_append_iff.mp same with ⟨middle, head, tail⟩ | ⟨middle, head, tail⟩
  · subst head
    exact rest middle entry after tail
  · cases middle with
    | nil =>
      rw [List.append_nil] at head
      subst head
      simpa only [List.append_nil] using rest [] entry after tail.symm
    | cons first middle =>
      cases tail
      exact each before entry middle head

theorem concat (each : EachAfter P history) (last : P history entry) : EachAfter P (history ++ [entry]) := by
  refine each.append fun before next after same => ?_
  cases before with
  | nil =>
    cases same
    simpa only [List.append_nil] using last
  | cons first before => simp at same

end EachAfter
