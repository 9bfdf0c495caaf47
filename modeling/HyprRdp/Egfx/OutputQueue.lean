import HyprRdp.Lib.Runs
import HyprRdp.Lib.Table
import Mathlib.Algebra.Ring.Nat
import Mathlib.Data.Option.Basic

namespace HyprRdp

/-- Application output slots, `MAX_QUEUED_OUTPUT_FRAMES`. -/
def maxQueuedOutputFrames : Nat := 3

/-- Where the handle returned by `try_reserve` is: still with its caller, inside
`retain_messages` with the messages left to wrap (`false` for one that does not
encode), on its way out of a failed `retain_messages`, or dropped. -/
inductive LeasePhase
  | held
  | wrapping (rest : List Bool)
  | failed
  | gone
  deriving DecidableEq, Repr

def LeasePhase.handles : LeasePhase → Nat
  | .gone => 0
  | _ => 1

/-- One `Arc<EgfxOutputLease>`: its strong count, the fragments that hold it,
whether its destructor is running, and how often its slot was given back. -/
structure Lease where
  phase : LeasePhase
  strong : Nat
  fragments : Nat
  dropping : Bool
  releases : Nat
  deriving DecidableEq, Repr

namespace Lease

def new : Lease := ⟨.held, 1, 0, false, 0⟩

inductive Action
  | retain (messages : List Bool)
  | wrap
  | finish
  | discard
  | dropFragment
  | abandon
  | release
  deriving DecidableEq, Repr

/-- The drop that takes the strong count to zero starts the destructor. -/
def dropOne (l : Lease) : Lease := { l with strong := l.strong - 1, dropping := l.strong == 1 }

def next (l : Lease) : Action → Option Lease
  | .retain messages => if l.phase = .held then some { l with phase := .wrapping messages } else none
  | .wrap =>
    match l.phase with
    | .wrapping (true :: rest) =>
      some { l with phase := .wrapping rest, strong := l.strong + 1, fragments := l.fragments + 1 }
    | .wrapping (false :: _) => some { l with phase := .failed }
    | _ => none
  | .finish => if l.phase = .wrapping [] then some { l with phase := .gone }.dropOne else none
  | .discard => if l.phase = .held then some { l with phase := .gone }.dropOne else none
  | .dropFragment =>
    if 0 < l.fragments ∧ (l.phase = .gone ∨ l.phase = .failed) then
      some { l with fragments := l.fragments - 1 }.dropOne
    else none
  | .abandon =>
    if l.phase = .failed ∧ l.fragments = 0 then some { l with phase := .gone }.dropOne else none
  | .release => if l.dropping then some { l with dropping := false, releases := l.releases + 1 } else none

/-- Some handle, some fragment or the running destructor still refers to it. -/
def referenced (l : Lease) : Bool := decide (0 < l.strong) || l.dropping

structure WellFormed (l : Lease) : Prop where
  strong : l.strong = l.phase.handles + l.fragments
  dropping : l.dropping = true → l.strong = 0
  once : l.releases = if l.referenced then 0 else 1

theorem WellFormed.dropOne {l : Lease} (strong : l.strong = l.phase.handles + l.fragments + 1)
    (once : l.releases = 0) : l.dropOne.WellFormed := by
  refine ⟨?_, ?_, ?_⟩
  · change l.strong - 1 = l.phase.handles + l.fragments
    omega
  · intro last
    have one : l.strong = 1 := by simpa [Lease.dropOne] using last
    change l.strong - 1 = 0
    omega
  · have live : l.dropOne.referenced = true := by
      change (decide (0 < l.strong - 1) || l.strong == 1) = true
      simp only [Bool.or_eq_true, decide_eq_true_eq, beq_iff_eq]
      omega
    rw [live]
    exact once

/-- A lease with a handle or a fragment left was not given back yet. -/
theorem WellFormed.unreleased {l : Lease} (wf : l.WellFormed) (held : 0 < l.strong) : l.releases = 0 := by
  have once := wf.once
  simpa [referenced, held] using once

theorem WellFormed.next {l t : Lease} {action : Action} (wf : l.WellFormed)
    (step : l.next action = some t) : t.WellFormed := by
  have strong := wf.strong
  cases action with
  | retain messages =>
    obtain ⟨phase, same⟩ := Option.ite_none_right_eq_some.mp step
    cases same
    rw [phase] at strong
    exact ⟨strong, wf.dropping, wf.once⟩
  | wrap =>
    simp only [Lease.next] at step
    split at step
    · rename_i rest phase
      cases step
      rw [phase] at strong
      have held : 0 < l.strong := by rw [strong]; simp only [LeasePhase.handles]; omega
      refine ⟨?_, ?_, ?_⟩
      · change l.strong + 1 = LeasePhase.handles (.wrapping rest) + (l.fragments + 1)
        rw [strong]
        simp only [LeasePhase.handles]
        omega
      · intro dropping
        have := wf.dropping dropping
        omega
      · have once := wf.unreleased held
        simpa [referenced] using once
    · rename_i phase
      cases step
      rw [phase] at strong
      exact ⟨strong, wf.dropping, wf.once⟩
    · cases step
  | finish =>
    obtain ⟨phase, same⟩ := Option.ite_none_right_eq_some.mp step
    cases same
    rw [phase] at strong
    simp only [LeasePhase.handles] at strong
    exact .dropOne (by simp only [LeasePhase.handles]; omega) (wf.unreleased (by omega))
  | discard =>
    obtain ⟨phase, same⟩ := Option.ite_none_right_eq_some.mp step
    cases same
    rw [phase] at strong
    simp only [LeasePhase.handles] at strong
    exact .dropOne (by simp only [LeasePhase.handles]; omega) (wf.unreleased (by omega))
  | dropFragment =>
    obtain ⟨⟨some', _⟩, same⟩ := Option.ite_none_right_eq_some.mp step
    cases same
    exact .dropOne (by simp only; omega) (wf.unreleased (by omega))
  | abandon =>
    obtain ⟨⟨phase, none'⟩, same⟩ := Option.ite_none_right_eq_some.mp step
    cases same
    rw [phase] at strong
    simp only [LeasePhase.handles] at strong
    exact .dropOne (by simp only [LeasePhase.handles]; omega) (wf.unreleased (by omega))
  | release =>
    obtain ⟨dropping, same⟩ := Option.ite_none_right_eq_some.mp step
    cases same
    have zero := wf.dropping dropping
    have once := wf.once
    simp only [referenced, dropping, Bool.or_true, if_true] at once
    refine ⟨strong, by simp, ?_⟩
    simp [referenced, zero, once]

/-- Only the destructor ends the reference, and it is the last to hold it. -/
theorem WellFormed.referenced_next {l t : Lease} {action : Action} (wf : l.WellFormed)
    (step : l.next action = some t) :
    (action = .release ∧ l.referenced = true ∧ t.referenced = false) ∨
      (action ≠ .release ∧ t.referenced = l.referenced) := by
  have after := (wf.next step).once
  have before := wf.once
  by_cases last : action = .release
  · subst last
    obtain ⟨dropping, same⟩ := Option.ite_none_right_eq_some.mp step
    cases same
    have zero := wf.dropping dropping
    exact Or.inl ⟨rfl, by simp [referenced, dropping], by simp [referenced, zero]⟩
  · have same : t.releases = l.releases := by
      cases action with
      | release => exact absurd rfl last
      | wrap =>
        simp only [Lease.next] at step
        split at step <;> cases step <;> rfl
      | _ =>
        obtain ⟨_, same⟩ := Option.ite_none_right_eq_some.mp step
        cases same
        rfl
    refine Or.inr ⟨last, ?_⟩
    rw [same, before] at after
    cases h : l.referenced <;> cases h' : t.referenced <;> simp [h, h'] at after ⊢

end Lease

/-- The queue beside any number of threads in `try_reserve`: a thread carries
the count it last observed. `refused` keeps what refused reservations had seen. -/
structure OutputQueue where
  pending : Nat
  threads : List (Option Nat)
  leases : List Lease
  refused : List Nat
  deriving DecidableEq, Repr

namespace OutputQueue

inductive Action
  | spawn
  | load (thread : Nat)
  | refuse (thread : Nat)
  | exchange (thread : Nat) (spurious : Bool)
  | lease (i : Nat) (action : Lease.Action)
  deriving DecidableEq, Repr

def new : OutputQueue := ⟨0, [], [], []⟩

/-- `fetch_sub(1)` on a `u32`. -/
def fetchSub (pending : Nat) : Nat := (pending + (2 ^ 32 - 1)) % 2 ^ 32

def next (q : OutputQueue) : Action → Option OutputQueue
  | .spawn => some { q with threads := q.threads ++ [none] }
  | .load thread =>
    if q.threads[thread]? = some none then
      some { q with threads := q.threads.set thread (some q.pending) }
    else none
  | .refuse thread => do
    let observed ← (← q.threads[thread]?)
    guard (maxQueuedOutputFrames ≤ observed)
    some { q with threads := q.threads.set thread none, refused := observed :: q.refused }
  | .exchange thread spurious => do
    let observed ← (← q.threads[thread]?)
    guard (observed < maxQueuedOutputFrames)
    if q.pending = observed ∧ spurious = false then
      some { q with
        pending := observed + 1
        threads := q.threads.set thread none
        leases := q.leases ++ [.new] }
    else some { q with threads := q.threads.set thread (some q.pending) }
  | .lease i action => do
    let lease ← q.leases[i]?
    let after ← lease.next action
    some { q with
      pending := if action = .release then fetchSub q.pending else q.pending
      leases := q.leases.set i after }

def system : StepSystem OutputQueue Action := .ofFun new next

theorem reach_new : system.Reach new := .start rfl

structure Invariant (q : OutputQueue) : Prop where
  leases : ∀ lease ∈ q.leases, lease.WellFormed
  pending : q.pending = q.leases.countP Lease.referenced
  budget : q.pending ≤ maxQueuedOutputFrames
  threads : ∀ thread ∈ q.threads, ∀ observed ∈ thread, observed ≤ maxQueuedOutputFrames
  refused : ∀ observed ∈ q.refused, observed = maxQueuedOutputFrames

theorem Invariant.lease {q t : OutputQueue} {i : Nat} {action : Lease.Action} (inv : q.Invariant)
    (step : q.next (.lease i action) = some t) : t.Invariant := by
  obtain ⟨lease, atLease, step⟩ := Option.bind_eq_some_iff.mp step
  obtain ⟨after, change', step⟩ := Option.bind_eq_some_iff.mp step
  cases Option.some.inj step
  have wf := inv.leases lease (List.mem_of_getElem? atLease)
  have counted := inv.pending
  have budget := inv.budget
  have rows := List.forall_mem_set (i := i) inv.leases (wf.next change')
  rcases wf.referenced_next change' with ⟨rfl, before, gone⟩ | ⟨other, same⟩
  · have balance := List.countP_set_balance atLease Lease.referenced after
    simp only [before, gone, if_true, Bool.false_eq_true, if_false] at balance
    have lower : fetchSub q.pending = q.pending - 1 := by
      simp only [fetchSub, maxQueuedOutputFrames] at budget ⊢
      omega
    refine ⟨rows, ?_, ?_, inv.threads, inv.refused⟩
    · simp only [if_true, lower]
      omega
    · simp only [if_true, lower]
      omega
  · refine ⟨rows, ?_, ?_, inv.threads, inv.refused⟩
    · rw [if_neg other, List.countP_set_same atLease same]
      exact counted
    · rw [if_neg other]
      exact budget

theorem Invariant.step {q t : OutputQueue} {action : Action} (inv : q.Invariant)
    (step : q.next action = some t) : t.Invariant := by
  cases action with
  | spawn =>
    cases Option.some.inj step
    refine ⟨inv.leases, inv.pending, inv.budget, ?_, inv.refused⟩
    intro thread member observed seen
    rcases List.mem_append.mp member with old | fresh
    · exact inv.threads thread old observed seen
    · cases List.mem_singleton.mp fresh; cases seen
  | load thread =>
    obtain ⟨_, same⟩ := Option.ite_none_right_eq_some.mp step
    cases same
    refine ⟨inv.leases, inv.pending, inv.budget, ?_, inv.refused⟩
    apply List.forall_mem_set inv.threads
    intro observed seen
    cases seen
    exact inv.budget
  | refuse thread =>
    obtain ⟨row, atRow, step⟩ := Option.bind_eq_some_iff.mp step
    obtain ⟨observed, seen, step⟩ := Option.bind_eq_some_iff.mp step
    obtain ⟨_, full, step⟩ := Option.bind_eq_some_iff.mp step
    have full : maxQueuedOutputFrames ≤ observed := by simpa using full
    cases Option.some.inj step
    have within := inv.threads row (List.mem_of_getElem? atRow) observed seen
    refine ⟨inv.leases, inv.pending, inv.budget, ?_, ?_⟩
    · apply List.forall_mem_set inv.threads
      intro _ none; cases none
    · intro other member
      rcases List.mem_cons.mp member with same | old
      · omega
      · exact inv.refused other old
  | exchange thread spurious =>
    obtain ⟨row, atRow, step⟩ := Option.bind_eq_some_iff.mp step
    obtain ⟨observed, seen, step⟩ := Option.bind_eq_some_iff.mp step
    obtain ⟨_, room, step⟩ := Option.bind_eq_some_iff.mp step
    have room : observed < maxQueuedOutputFrames := by simpa using room
    split at step
    · rename_i won
      cases Option.some.inj step
      refine ⟨?_, ?_, room, ?_, inv.refused⟩
      · intro lease member
        rcases List.mem_append.mp member with old | fresh
        · exact inv.leases lease old
        · cases List.mem_singleton.mp fresh
          exact ⟨rfl, by simp [Lease.new], rfl⟩
      · have counted := inv.pending
        rw [won.1] at counted
        simp only [List.countP_append, ← counted]
        rfl
      · apply List.forall_mem_set inv.threads
        intro _ none; cases none
    · cases Option.some.inj step
      refine ⟨inv.leases, inv.pending, inv.budget, ?_, inv.refused⟩
      apply List.forall_mem_set inv.threads
      intro _ now
      cases now
      exact inv.budget
  | lease i action => exact inv.lease step

theorem invariant_inductive : system.Inductive Invariant where
  base q first := by
    cases first
    refine ⟨by simp [new], rfl, by decide, by simp [new], by simp [new]⟩
  keep q action t inv step := inv.step step

/-- Slots are conserved under every interleaving. The count is the number of
leases still referenced, it stays within the budget, giving a slot back never
finds it at zero, only a full queue is refused, and every lease gives its slot
back once, when neither a handle nor a fragment nor its destructor is left. -/
theorem slots_conserved {q : OutputQueue} (reach : system.Reach q) :
    q.pending = q.leases.countP Lease.referenced ∧ q.pending ≤ 3 ∧
      (∀ lease ∈ q.leases, lease.dropping = true → 1 ≤ q.pending) ∧
      (∀ observed ∈ q.refused, observed = 3) ∧
      ∀ lease ∈ q.leases, lease.strong = lease.phase.handles + lease.fragments ∧
        lease.releases = if lease.referenced then 0 else 1 := by
  have inv := invariant_inductive.reach reach
  refine ⟨inv.pending, inv.budget, ?_, inv.refused, ?_⟩
  · intro lease member dropping
    rw [inv.pending]
    exact List.countP_pos_iff.mpr ⟨lease, member, by simp [Lease.referenced, dropping]⟩
  · intro lease member
    exact ⟨(inv.leases lease member).strong, (inv.leases lease member).once⟩

/-- A frame of two messages with one fragment still queued, beside a lease
whose second message did not encode. -/
theorem slots_conserved_two_frames :
    let q : OutputQueue := ⟨1, [none], [⟨.gone, 1, 1, false, 0⟩, ⟨.gone, 0, 0, false, 1⟩], []⟩
    q.pending = q.leases.countP Lease.referenced ∧ q.pending ≤ 3 ∧
      (∀ lease ∈ q.leases, lease.dropping = true → 1 ≤ q.pending) ∧
      (∀ observed ∈ q.refused, observed = 3) ∧
      ∀ lease ∈ q.leases, lease.strong = lease.phase.handles + lease.fragments ∧
        lease.releases = if lease.referenced then 0 else 1 :=
  slots_conserved (StepSystem.exec_reach [.spawn, .load 0, .exchange 0 true, .exchange 0 false,
    .lease 0 (.retain [true, true]), .lease 0 .wrap, .lease 0 .wrap, .lease 0 .finish,
    .load 0, .exchange 0 false, .lease 1 (.retain [true, false]), .lease 1 .wrap, .lease 0 .dropFragment,
    .lease 1 .wrap, .lease 1 .dropFragment, .lease 1 .abandon, .lease 1 .release] reach_new (by decide))

end OutputQueue

end HyprRdp
