import Mathlib.Logic.Basic

/-- A labelled transition system: where it may start and what each step may do.
The labels are the choices of the environment (which operation, which
thread, which outcome). -/
structure StepSystem (σ α : Type*) where
  start : σ → Prop
  step : σ → α → σ → Prop

namespace StepSystem

variable {σ α : Type*} {S : StepSystem σ α}

/-- The states some finite run can end in. -/
inductive Reach (S : StepSystem σ α) : σ → Prop
  | start {s} : S.start s → Reach S s
  | next {s t a} : Reach S s → S.step s a t → Reach S t

/-- A predicate that holds at the start and that no step leaves. -/
structure Inductive (S : StepSystem σ α) (inv : σ → Prop) : Prop where
  base : ∀ s, S.start s → inv s
  keep : ∀ s a t, inv s → S.step s a t → inv t

theorem Inductive.reach {inv : σ → Prop} (h : S.Inductive inv) {s : σ} (reach : S.Reach s) : inv s := by
  induction reach with
  | start first => exact h.base _ first
  | next _ step ih => exact h.keep _ _ _ ih step

/-- The second predicate may use the first one, which is already known
along the whole run. -/
theorem Inductive.and {inv more : σ → Prop} (h : S.Inductive inv)
    (base : ∀ s, S.start s → more s)
    (keep : ∀ s a t, inv s → more s → S.step s a t → more t) :
    S.Inductive (fun s => inv s ∧ more s) where
  base s first := ⟨h.base s first, base s first⟩
  keep s a t old step := ⟨h.keep s a t old.1 step, keep s a t old.1 old.2 step⟩

/-- The runs all of whose steps meet a condition on the state before the
step and the choice made in it. -/
def guarded (S : StepSystem σ α) (ok : σ → α → Prop) : StepSystem σ α where
  start := S.start
  step s a t := ok s a ∧ S.step s a t

/-- The same system, started in a state that a run has come to. -/
def after (S : StepSystem σ α) (s : σ) : StepSystem σ α where
  start t := t = s
  step := S.step

/-- As long as a state is not settled there is a step that lowers the measure,
so some continuation of the run settles. -/
theorem Reach.settles {good settled : σ → Prop} (measure : σ → Nat)
    (progress : ∀ s, good s → ¬ settled s → ∃ a t, S.step s a t ∧ good t ∧ measure t < measure s)
    {s : σ} (reach : S.Reach s) (isGood : good s) : ∃ t, S.Reach t ∧ good t ∧ settled t := by
  induction bound : measure s using Nat.strongRecOn generalizing s with
  | ind n ih =>
    by_cases done : settled s
    · exact ⟨s, reach, isGood, done⟩
    · obtain ⟨a, t, step, stays, lower⟩ := progress s isGood done
      exact ih (measure t) (bound ▸ lower) (.next reach step) stays rfl

/-- A deterministic operation run from one state: the step relation is the
graph of a partial function. -/
def ofFun (init : σ) (next : σ → α → Option σ) : StepSystem σ α where
  start s := s = init
  step s a t := next s a = some t

/-- Execution of a list of choices, the concrete runs of `ofFun`. -/
def exec (next : σ → α → Option σ) : σ → List α → Option σ
  | s, [] => some s
  | s, a :: rest => (next s a).bind fun t => exec next t rest

theorem exec_append (next : σ → α → Option σ) (s : σ) (choices more : List α) :
    exec next s (choices ++ more) = (exec next s choices).bind fun t => exec next t more := by
  induction choices generalizing s with
  | nil => rfl
  | cons a rest ih =>
    rw [List.cons_append, exec, exec, Option.bind_assoc]
    exact Option.bind_congr fun t _ => ih t

/-- Executing the steps of a system is a run of it. -/
theorem Reach.exec {next : σ → α → Option σ} (sound : ∀ s a t, next s a = some t → S.step s a t) {s t : σ}
    (choices : List α) (reach : S.Reach s) (run : StepSystem.exec next s choices = some t) : S.Reach t := by
  induction choices generalizing s with
  | nil => cases run; exact reach
  | cons a rest ih =>
    obtain ⟨u, step, run⟩ := Option.bind_eq_some_iff.mp run
    exact ih (.next reach (sound s a u step)) run

theorem exec_reach {init : σ} {next : σ → α → Option σ} {s t : σ} (choices : List α)
    (reach : (ofFun init next).Reach s) (run : exec next s choices = some t) :
    (ofFun init next).Reach t :=
  .exec (fun _ _ _ step => step) choices reach run

theorem guarded_exec_reach {init : σ} {next : σ → α → Option σ} {ok : σ → α → Prop}
    [∀ s a, Decidable (ok s a)] {s t : σ} (choices : List α)
    (reach : ((ofFun init next).guarded ok).Reach s)
    (run : exec (fun s a => if ok s a then next s a else none) s choices = some t) :
    ((ofFun init next).guarded ok).Reach t :=
  .exec (fun _ _ _ step => Option.ite_none_right_eq_some.mp step) choices reach run

end StepSystem
