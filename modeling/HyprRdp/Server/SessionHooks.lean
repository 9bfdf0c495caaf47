import HyprRdp.Lib.Runs
import Mathlib.Data.List.Basic

namespace HyprRdp

inductive HookJob
  | sessionStart | sessionEnd
  deriving DecidableEq, Repr

/-- 50 ms; times are in nanoseconds. -/
def hookPollInterval : Nat := 50000000

structure HookConfig where
  onSessionStart : Option String
  onSessionEnd : Option String
  deadline : Nat

def HookConfig.command (config : HookConfig) : HookJob → Option String
  | .sessionStart => config.onSessionStart
  | .sessionEnd => config.onSessionEnd

/-- A process, with the time at which it exits, if it ever does. -/
structure HookChild where
  command : String
  exits : Option Nat
  deriving DecidableEq, Repr

structure RunningHook where
  hook : HookJob
  child : HookChild
  started : Nat
  deriving DecidableEq, Repr

def RunningHook.exited (h : RunningHook) (now : Nat) : Bool := h.child.exits.any fun time => time ≤ now

/-- How long a command is waited for: up to its own deadline, and to that of the drain. -/
def RunningHook.waitUntil (h : RunningHook) (deadline : Nat) : Option Nat → Nat
  | some drain => min (h.started + deadline) drain
  | none => h.started + deadline

/-- Where the queue thread is. In `finishing` it waits for the running command,
before the next one is spawned or, in the end, for good. -/
inductive HookRunner
  | receiving
  | received (job : HookJob)
  | finishing (next : Option (HookJob × String))
  | spawning (job : HookJob) (command : String)
  | stopping
  | reaping (reapUntil : Nat)
  | ended
  deriving DecidableEq, Repr

/-- Where the handler is: in use, or at a step of its drop. -/
inductive HookHandler
  | alive | dropping | closing | joining | returned
  deriving DecidableEq, Repr

/-- The handler and the queue thread. A sleeping thread does nothing before `wakeAt`.
`calls`, `droppedAt` and `spawned` record what has happened. -/
structure SessionHooks where
  now : Nat
  handler : HookHandler
  sessionActive : Bool
  shuttingDown : Bool
  queue : List HookJob
  runner : HookRunner
  wakeAt : Nat
  running : Option RunningHook
  stragglers : List RunningHook
  drainUntil : Option Nat
  calls : List HookJob
  droppedAt : Option Nat
  spawned : List RunningHook

/-- What happens next: a call of `session_started` or `session_ended`, a step of the drop, a step of the
queue thread, for which `try_wait` may fail, a spawned command with its running time, or time goes on. -/
inductive HookChoice
  | call (job : HookJob)
  | drop
  | run (fails : RunningHook → Bool)
  | spawn (runs : Option Nat)
  | spawnFails
  | pass (time : Nat)

namespace SessionHooks

def initial : SessionHooks where
  now := 0
  handler := .alive
  sessionActive := false
  shuttingDown := false
  queue := []
  runner := .receiving
  wakeAt := 0
  running := none
  stragglers := []
  drainUntil := none
  calls := []
  droppedAt := none
  spawned := []

variable (config : HookConfig) (s : SessionHooks)

def send (job : HookJob) : SessionHooks := { s with queue := s.queue ++ [job] }

def sessionStarted : SessionHooks :=
  if s.sessionActive then s else { s with sessionActive := true }.send .sessionStart

def sessionEnded : SessionHooks :=
  if s.sessionActive = false then s else { s with sessionActive := false }.send .sessionEnd

def call (job : HookJob) : SessionHooks :=
  let s := { s with calls := s.calls ++ [job] }
  match job with
  | .sessionStart => s.sessionStarted
  | .sessionEnd => s.sessionEnded

/-- The drop sets the flag, closes an open session, closes the queue, and joins the thread. -/
def drop : Option SessionHooks :=
  match s.handler with
  | .alive => some { s with shuttingDown := true, handler := .dropping, droppedAt := some s.now }
  | .dropping => some { s.sessionEnded with handler := .closing }
  | .closing => some { s with handler := .joining }
  | .joining => if s.runner = .ended then some { s with handler := .returned } else none
  | .returned => none

def queueClosed : Bool := s.handler = .joining || s.handler = .returned

def reapFinished (fails : RunningHook → Bool) : List RunningHook :=
  s.stragglers.filter fun hook => !(hook.exited s.now || fails hook)

/-- One turn of the loop of `finish_running`; when it is done the thread is at `after`. -/
def finishRunning (fails : RunningHook → Bool) (after : HookRunner) : SessionHooks :=
  match s.running with
  | none => { s with runner := after }
  | some hook =>
    if hook.exited s.now || fails hook then { s with running := none, runner := after }
    else
      let waitUntil := hook.waitUntil config.deadline s.drainUntil
      if s.now < waitUntil then { s with wakeAt := s.now + min hookPollInterval (waitUntil - s.now) }
      else { s with running := none, stragglers := s.stragglers ++ [hook], runner := after }

/-- The queue is empty and closed: only an end command is still waited for. -/
def finishQueue : SessionHooks :=
  match s.running with
  | none => { s with runner := .stopping }
  | some hook =>
    if hook.hook = .sessionEnd then { s with runner := .finishing none }
    else { s with running := none, stragglers := s.stragglers ++ [hook], runner := .stopping }

def receive : Option SessionHooks :=
  match s.queue with
  | job :: rest => some { s with queue := rest, runner := .received job }
  | [] => if s.queueClosed then some s.finishQueue else none

/-- A job sets the drain deadline, if it is the first to see the flag, and is skipped when it has no command. -/
def takeJob (fails : RunningHook → Bool) (job : HookJob) : SessionHooks :=
  { s with
    stragglers := s.reapFinished fails
    drainUntil := if s.drainUntil.isNone && s.shuttingDown then some (s.now + config.deadline) else s.drainUntil
    runner :=
      match config.command job with
      | none => .receiving
      | some command => .finishing (some (job, command)) }

def reap (fails : RunningHook → Bool) (reapUntil : Nat) : SessionHooks :=
  let stragglers := s.reapFinished fails
  if stragglers.isEmpty ∨ reapUntil ≤ s.now then { s with stragglers, runner := .ended }
  else { s with stragglers, wakeAt := s.now + hookPollInterval }

/-- The thread at its next command, which is spawned or at the end of the waits. -/
def afterFinish : Option (HookJob × String) → HookRunner
  | some (job, command) => .spawning job command
  | none => .stopping

def run (fails : RunningHook → Bool) : Option SessionHooks :=
  if s.now < s.wakeAt then none
  else
    match s.runner with
    | .receiving => s.receive
    | .received job => some (s.takeJob config fails job)
    | .finishing next => some (s.finishRunning config fails (afterFinish next))
    | .stopping => some { s with runner := .reaping (s.now + hookPollInterval * 4) }
    | .reaping reapUntil => some (s.reap fails reapUntil)
    | .spawning _ _ | .ended => none

def spawn (runs : Option Nat) : Option SessionHooks :=
  match s.runner with
  | .spawning job command =>
    let hook : RunningHook := ⟨job, ⟨command, runs.map (s.now + ·)⟩, s.now⟩
    some { s with running := some hook, spawned := s.spawned ++ [hook], runner := .receiving }
  | _ => none

def spawnFails : Option SessionHooks :=
  match s.runner with
  | .spawning _ _ => some { s with running := none, runner := .receiving }
  | _ => none

/-- Time goes on only while the thread sleeps, or waits for a job and there is nothing else to do. -/
def Idle (time : Nat) : Prop :=
  0 < time ∧
    (((s.handler = .alive ∨ s.handler = .joining) ∧ s.now + time ≤ s.wakeAt) ∨
      (s.handler = .alive ∧ s.runner = .receiving ∧ s.queue = [] ∧ s.wakeAt ≤ s.now))

instance (time : Nat) : Decidable (s.Idle time) := inferInstanceAs (Decidable (_ ∧ _))

def next (s : SessionHooks) : HookChoice → Option SessionHooks
  | .call job => if s.handler = .alive then some (s.call job) else none
  | .drop => s.drop
  | .run fails => s.run config fails
  | .spawn runs => s.spawn runs
  | .spawnFails => s.spawnFails
  | .pass time => if s.Idle time then some { s with now := s.now + time } else none

def runs : StepSystem SessionHooks HookChoice := .ofFun initial (next config)

/-- The system spawns the commands, and tells whether they have exited. -/
def Works (_ : SessionHooks) : HookChoice → Prop
  | .run fails => ∀ hook, fails hook = false
  | .spawnFails => False
  | .call _ | .drop | .spawn _ | .pass _ => True

/-- What the queue thread does while it is awake. -/
inductive RunStep (fails : RunningHook → Bool) (s : SessionHooks) : SessionHooks → Prop
  | receive {job : HookJob} {rest : List HookJob} : s.runner = .receiving → s.queue = job :: rest →
      RunStep fails s { s with queue := rest, runner := .received job }
  | lastEnd {hook : RunningHook} : s.runner = .receiving → s.queue = [] → s.queueClosed = true →
      s.running = some hook → RunStep fails s { s with runner := .finishing none }
  | lastStart {hook : RunningHook} : s.runner = .receiving → s.queue = [] → s.queueClosed = true →
      s.running = some hook →
      RunStep fails s { s with running := none, stragglers := s.stragglers ++ [hook], runner := .stopping }
  | lastNone : s.runner = .receiving → s.queue = [] → s.queueClosed = true → s.running = none →
      RunStep fails s { s with runner := .stopping }
  | takeJob {job : HookJob} : s.runner = .received job → RunStep fails s (s.takeJob config fails job)
  | nothing {next : Option (HookJob × String)} : s.runner = .finishing next → s.running = none →
      RunStep fails s { s with runner := afterFinish next }
  | exited {next : Option (HookJob × String)} {hook : RunningHook} : s.runner = .finishing next →
      s.running = some hook → (hook.exited s.now || fails hook) = true →
      RunStep fails s { s with running := none, runner := afterFinish next }
  | sleep {next : Option (HookJob × String)} {hook : RunningHook} : s.runner = .finishing next →
      s.running = some hook → s.now < hook.waitUntil config.deadline s.drainUntil →
      RunStep fails s
        { s with wakeAt := s.now + min hookPollInterval (hook.waitUntil config.deadline s.drainUntil - s.now) }
  | overdue {next : Option (HookJob × String)} {hook : RunningHook} : s.runner = .finishing next →
      s.running = some hook → hook.waitUntil config.deadline s.drainUntil ≤ s.now →
      RunStep fails s { s with running := none, stragglers := s.stragglers ++ [hook], runner := afterFinish next }
  | stop : s.runner = .stopping → RunStep fails s { s with runner := .reaping (s.now + hookPollInterval * 4) }
  | reaped {reapUntil : Nat} {stragglers : List RunningHook} : s.runner = .reaping reapUntil →
      RunStep fails s { s with stragglers, runner := .ended }
  | doze {reapUntil : Nat} {stragglers : List RunningHook} : s.runner = .reaping reapUntil → s.now < reapUntil →
      RunStep fails s { s with stragglers, wakeAt := s.now + hookPollInterval }

variable {config s} {t : SessionHooks} {fails : RunningHook → Bool}

theorem run_step (step : s.run config fails = some t) : s.wakeAt ≤ s.now ∧ RunStep config fails s t := by
  obtain ⟨awake, step⟩ := Option.ite_none_left_eq_some.mp step
  refine ⟨Nat.not_lt.mp awake, ?_⟩
  cases runner : s.runner with
  | receiving =>
    rw [runner] at step
    dsimp only [receive] at step
    cases queue : s.queue with
    | cons job rest =>
      rw [queue] at step
      cases step
      exact .receive runner queue
    | nil =>
      rw [queue] at step
      obtain ⟨closed, step⟩ := Option.ite_none_right_eq_some.mp step
      cases step
      unfold finishQueue
      split
      · rename_i running
        exact .lastNone runner queue closed running
      · rename_i hook running
        split
        · exact .lastEnd runner queue closed running
        · exact .lastStart runner queue closed running
  | received job =>
    rw [runner] at step
    cases step
    exact .takeJob runner
  | finishing next =>
    rw [runner] at step
    cases step
    unfold finishRunning
    split
    · rename_i running
      exact .nothing runner running
    · rename_i hook running
      split
      · rename_i gone
        exact .exited runner running gone
      · dsimp only
        split
        · rename_i early
          exact .sleep runner running early
        · rename_i late
          exact .overdue runner running (Nat.not_lt.mp late)
  | stopping =>
    rw [runner] at step
    cases step
    exact .stop runner
  | reaping reapUntil =>
    rw [runner] at step
    cases step
    unfold reap
    dsimp only
    split
    · exact .reaped runner
    · rename_i more
      exact .doze runner (Nat.not_le.mp (not_or.mp more).2)
  | spawning job command =>
    rw [runner] at step
    cases step
  | ended =>
    rw [runner] at step
    cases step

theorem spawn_step {runs : Option Nat} (step : s.spawn runs = some t) :
    ∃ job command, s.runner = .spawning job command ∧
      t = { s with
        running := some ⟨job, ⟨command, runs.map (s.now + ·)⟩, s.now⟩
        spawned := s.spawned ++ [⟨job, ⟨command, runs.map (s.now + ·)⟩, s.now⟩]
        runner := .receiving } := by
  unfold spawn at step
  split at step
  · rename_i job command runner
    cases step
    exact ⟨job, command, runner, rfl⟩
  · cases step

theorem spawnFails_step (step : s.spawnFails = some t) :
    ∃ job command, s.runner = .spawning job command ∧ t = { s with running := none, runner := .receiving } := by
  unfold spawnFails at step
  split at step
  · rename_i job command runner
    cases step
    exact ⟨job, command, runner, rfl⟩
  · cases step

/-- The steps of the drop. -/
inductive DropStep (s : SessionHooks) : SessionHooks → Prop
  | begin : s.handler = .alive →
      DropStep s { s with shuttingDown := true, handler := .dropping, droppedAt := some s.now }
  | close : s.handler = .dropping → DropStep s { s.sessionEnded with handler := .closing }
  | join : s.handler = .closing → DropStep s { s with handler := .joining }
  | done : s.handler = .joining → s.runner = .ended → DropStep s { s with handler := .returned }

theorem drop_step (step : s.drop = some t) : DropStep s t := by
  unfold drop at step
  split at step
  · rename_i alive
    cases step
    exact .begin alive
  · rename_i dropping
    cases step
    exact .close dropping
  · rename_i closing
    cases step
    exact .join closing
  · rename_i joining
    obtain ⟨ended, step⟩ := Option.ite_none_right_eq_some.mp step
    cases step
    exact .done joining ended
  · cases step

/-- Neither the thread nor the clock has moved. -/
structure SameThread (s t : SessionHooks) : Prop where
  now : t.now = s.now
  runner : t.runner = s.runner
  wakeAt : t.wakeAt = s.wakeAt
  running : t.running = s.running
  drain : t.drainUntil = s.drainUntil
  spawned : t.spawned = s.spawned

/-- The drop is where it was. -/
structure SameDrop (s t : SessionHooks) : Prop where
  handler : t.handler = s.handler
  droppedAt : t.droppedAt = s.droppedAt
  flag : t.shuttingDown = s.shuttingDown

theorem sessionStarted_same (s : SessionHooks) : SameThread s s.sessionStarted ∧ SameDrop s s.sessionStarted := by
  unfold sessionStarted
  split <;> exact ⟨⟨rfl, rfl, rfl, rfl, rfl, rfl⟩, ⟨rfl, rfl, rfl⟩⟩

theorem sessionEnded_same (s : SessionHooks) : SameThread s s.sessionEnded ∧ SameDrop s s.sessionEnded := by
  unfold sessionEnded
  split <;> exact ⟨⟨rfl, rfl, rfl, rfl, rfl, rfl⟩, ⟨rfl, rfl, rfl⟩⟩

theorem call_same (s : SessionHooks) (job : HookJob) : SameThread s (s.call job) ∧ SameDrop s (s.call job) := by
  cases job with
  | sessionStart =>
    obtain ⟨⟨now, runner, wakeAt, running, drain, spawned⟩, ⟨handler, droppedAt, flag⟩⟩ :=
      sessionStarted_same { s with calls := s.calls ++ [.sessionStart] }
    exact ⟨⟨now, runner, wakeAt, running, drain, spawned⟩, ⟨handler, droppedAt, flag⟩⟩
  | sessionEnd =>
    obtain ⟨⟨now, runner, wakeAt, running, drain, spawned⟩, ⟨handler, droppedAt, flag⟩⟩ :=
      sessionEnded_same { s with calls := s.calls ++ [.sessionEnd] }
    exact ⟨⟨now, runner, wakeAt, running, drain, spawned⟩, ⟨handler, droppedAt, flag⟩⟩

theorem DropStep.sameThread (step : DropStep s t) : SameThread s t := by
  cases step with
  | begin _ => exact ⟨rfl, rfl, rfl, rfl, rfl, rfl⟩
  | close _ =>
    obtain ⟨now, runner, wakeAt, running, drain, spawned⟩ := s.sessionEnded_same.1
    exact ⟨now, runner, wakeAt, running, drain, spawned⟩
  | join _ => exact ⟨rfl, rfl, rfl, rfl, rfl, rfl⟩
  | done _ _ => exact ⟨rfl, rfl, rfl, rfl, rfl, rfl⟩

end SessionHooks

end HyprRdp
