import HyprRdp.Lib.Runs
import Mathlib.Logic.Function.Basic

/-! Any number of workers that run the same program over one shared state,
in every interleaving of their steps. -/

/-- What a step of one worker, at a place of the program, makes of the shared
state and of the place. -/
structure Crew (ι σ τ α : Type*) where
  step : σ → ι → τ → α → Option (σ × τ)

namespace Crew

variable {ι σ τ α : Type*}

structure World (ι σ τ : Type*) where
  shared : σ
  place : ι → τ

variable [DecidableEq ι] (C : Crew ι σ τ α)

def next (w : World ι σ τ) (turn : ι × α) : Option (World ι σ τ) :=
  (C.step w.shared turn.1 (w.place turn.1) turn.2).map fun result =>
    ⟨result.1, Function.update w.place turn.1 result.2⟩

def system (start : World ι σ τ → Prop) : StepSystem (World ι σ τ) (ι × α) where
  start := start
  step w turn t := C.next w turn = some t

variable {C}

theorem next_cases {w t : World ι σ τ} {turn : ι × α} (step : C.next w turn = some t) :
    ∃ place, C.step w.shared turn.1 (w.place turn.1) turn.2 = some (t.shared, place) ∧
      t.place = Function.update w.place turn.1 place := by
  obtain ⟨⟨shared, place⟩, taken, rfl⟩ := Option.map_eq_some_iff.mp step
  exact ⟨place, taken, rfl⟩

/-- What one worker does while the others wait. -/
theorem exec_alone {w : World ι σ τ} {i : ι} {choices : List α} {t : σ} {later : τ}
    (run : StepSystem.exec (fun now a => C.step now.1 i now.2 a) (w.shared, w.place i) choices = some (t, later)) :
    StepSystem.exec C.next w (choices.map fun a => (i, a)) = some ⟨t, Function.update w.place i later⟩ := by
  induction choices generalizing w with
  | nil =>
    cases run
    rw [Function.update_eq_self]
    rfl
  | cons a rest ih =>
    obtain ⟨⟨u, place⟩, step, run⟩ := Option.bind_eq_some_iff.mp run
    have taken : C.next w (i, a) = some ⟨u, Function.update w.place i place⟩ := congrArg (Option.map _) step
    have more := ih (w := ⟨u, Function.update w.place i place⟩) (by simpa only [Function.update_self] using run)
    rw [List.map_cons, StepSystem.exec, taken, Option.bind_some, more, Function.update_idem]

/-- What all workers may rely on and what each one knows at its place. A step
keeps both for the worker that takes it and takes nothing from the others. -/
structure Outline (C : Crew ι σ τ α) (common : σ → Prop) (knows : σ → ι → τ → Prop) : Prop where
  keeps : ∀ s i place a t later, C.step s i place a = some (t, later) → common s → knows s i place →
    common t ∧ knows t i later
  spares : ∀ s i place a t later j other, i ≠ j → C.step s i place a = some (t, later) → common s →
    knows s i place → knows s j other → knows t j other

theorem Outline.inductive {common : σ → Prop} {knows : σ → ι → τ → Prop} (notes : C.Outline common knows)
    {start : World ι σ τ → Prop} (base : ∀ w, start w → common w.shared ∧ ∀ i, knows w.shared i (w.place i)) :
    (C.system start).Inductive fun w => common w.shared ∧ ∀ i, knows w.shared i (w.place i) where
  base := base
  keep := by
    intro w turn t old step
    obtain ⟨later, taken, moved⟩ := next_cases step
    have own := notes.keeps _ _ _ _ _ _ taken old.1 (old.2 turn.1)
    refine ⟨own.1, fun j => ?_⟩
    by_cases same : turn.1 = j
    · subst same
      rw [moved, Function.update_self]
      exact own.2
    · rw [moved, Function.update_of_ne (Ne.symm same)]
      exact notes.spares _ _ _ _ _ _ j _ same taken old.1 (old.2 turn.1) (old.2 j)

end Crew
