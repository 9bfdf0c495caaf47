import HyprRdp.Lib.Runs

namespace StepSystem

variable {σ α : Type*} {next : σ → α → Option σ} {inv : σ → Prop} {ok : α → Prop} {potential : σ → Nat}

/-- What every step spends some of bounds the length of every run of such steps. -/
theorem exec_bounded (spends : ∀ s a t, inv s → ok a → next s a = some t → inv t ∧ potential t < potential s) {s t : σ}
    {choices : List α} (start : inv s) (every : ∀ a ∈ choices, ok a) (run : exec next s choices = some t) :
    inv t ∧ choices.length + potential t ≤ potential s := by
  induction choices generalizing s with
  | nil =>
    cases run
    exact ⟨start, Nat.le_of_eq (Nat.zero_add _)⟩
  | cons a rest ih =>
    obtain ⟨u, step, run⟩ := Option.bind_eq_some_iff.mp run
    obtain ⟨kept, less⟩ := spends s a u start (every a List.mem_cons_self) step
    obtain ⟨last, bound⟩ := ih kept (fun b member => every b (List.mem_cons_of_mem a member)) run
    refine ⟨last, ?_⟩
    rw [List.length_cons]
    omega

end StepSystem
