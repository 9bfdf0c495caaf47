import HyprRdp.Server.SessionHooks
import HyprRdp.Lib.History
import Mathlib.Algebra.Order.Ring.Nat

namespace HyprRdp

/-- The sessions that calls tell of: each start that no start precedes begins one. -/
def sessionsFrom : HookJob → List HookJob → Nat
  | _, [] => 0
  | previous, call :: rest =>
    (if call = .sessionStart ∧ previous = .sessionEnd then 1 else 0) + sessionsFrom call rest

def sessions (calls : List HookJob) : Nat := sessionsFrom .sessionEnd calls

/-- A start and an end for each session. -/
def pairs (count : Nat) : List HookJob := (List.replicate count [HookJob.sessionStart, .sessionEnd]).flatten

theorem pairs_succ (count : Nat) : pairs (count + 1) = pairs count ++ [HookJob.sessionStart, .sessionEnd] := by
  unfold pairs
  rw [List.replicate_succ', List.flatten_append, List.flatten_singleton]

theorem sessionsFrom_concat (previous : HookJob) (calls : List HookJob) (call : HookJob) :
    sessionsFrom previous (calls ++ [call]) =
      sessionsFrom previous calls +
        if call = .sessionStart ∧ calls.getLast?.getD previous = .sessionEnd then 1 else 0 := by
  induction calls generalizing previous with
  | nil =>
    rw [List.nil_append, sessionsFrom, sessionsFrom, sessionsFrom, List.getLast?_nil, Option.getD_none, Nat.zero_add,
      Nat.add_zero]
  | cons first rest ih =>
    rw [List.cons_append, sessionsFrom, sessionsFrom, ih, List.getLast?_cons, Option.getD_some, Nat.add_assoc]

/-- The configured commands of jobs, in their order. -/
def HookConfig.commands (config : HookConfig) (jobs : List HookJob) : List (HookJob × String) :=
  jobs.filterMap fun job => (config.command job).map fun command => (job, command)

def RunningHook.entry (h : RunningHook) : HookJob × String := (h.hook, h.child.command)

/-- The job that the queue thread has in hand. -/
def HookRunner.inFlight : HookRunner → List HookJob
  | .received job | .finishing (some (job, _)) | .spawning job _ => [job]
  | .receiving | .finishing none | .stopping | .reaping _ | .ended => []

/-- The queue thread will receive no more jobs. -/
def HookRunner.late : HookRunner → Bool
  | .finishing none | .stopping | .reaping _ | .ended => true
  | .receiving | .received _ | .finishing (some _) | .spawning _ _ => false

namespace SessionHooks

variable {config : HookConfig} {s t : SessionHooks}

/-- The jobs that are still to be done, with the end of the session that is open. -/
def pending (s : SessionHooks) : List HookJob :=
  s.runner.inFlight ++ s.queue ++ if s.sessionActive then [HookJob.sessionEnd] else []

/-- The jobs done and to be done are those of the sessions. -/
structure Balanced (config : HookConfig) (s : SessionHooks) : Prop where
  active : s.handler = .alive → s.sessionActive = decide (s.calls.getLast?.getD .sessionEnd = .sessionStart)
  closed : s.handler = .closing ∨ s.queueClosed = true → s.sessionActive = false
  command : ∀ job command, s.runner = .finishing (some (job, command)) ∨ s.runner = .spawning job command →
    config.command job = some command
  jobs : ∃ handled, s.spawned.map (·.entry) = config.commands handled ∧ handled ++ s.pending = pairs (sessions s.calls)
  drained : s.runner.late = true → s.queue = [] ∧ s.queueClosed = true

theorem initial_balanced : initial.Balanced config where
  active _ := rfl
  closed _ := rfl
  command _ _ := by simp [initial]
  jobs := ⟨[], rfl, rfl⟩
  drained late := absurd late Bool.false_ne_true

theorem pending_closed (inactive : s.sessionActive = false) : s.pending = s.runner.inFlight ++ s.queue := by
  unfold pending
  rw [inactive]
  exact List.append_nil _

theorem Balanced.early (balanced : s.Balanced config) (opened : s.queueClosed = false) : s.runner.late = false := by
  cases late : s.runner.late with
  | false => rfl
  | true => exact absurd (balanced.drained late).2 (by simp [opened])

theorem alive_open (alive : s.handler = .alive) : s.queueClosed = false := by simp [queueClosed, alive]

/-- A call changes the queue and what is open, and nothing else that counts here. -/
theorem Balanced.called (balanced : s.Balanced config) (alive : s.handler = .alive) (handler : t.handler = .alive)
    (runner : t.runner = s.runner) (spawned : t.spawned = s.spawned)
    (active : t.sessionActive = decide (t.calls.getLast?.getD .sessionEnd = .sessionStart))
    (jobs : ∀ handled, handled ++ s.pending = pairs (sessions s.calls) → handled ++ t.pending = pairs (sessions t.calls)) :
    t.Balanced config where
  active _ := active
  closed closed := by simp [queueClosed, handler] at closed
  command job command known := balanced.command job command (runner ▸ known)
  jobs := by
    obtain ⟨handled, entries, all⟩ := balanced.jobs
    exact ⟨handled, spawned ▸ entries, jobs handled all⟩
  drained late := by
    rw [runner, balanced.early (alive_open alive)] at late
    cases late

theorem Balanced.call (balanced : s.Balanced config) (alive : s.handler = .alive) (job : HookJob) :
    (s.call job).Balanced config := by
  have active := balanced.active alive
  have last : (s.calls ++ [job]).getLast?.getD HookJob.sessionEnd = job := by
    rw [List.getLast?_concat, Option.getD_some]
  have count : sessions (s.calls ++ [job]) = sessions s.calls +
      if job = .sessionStart ∧ s.calls.getLast?.getD HookJob.sessionEnd = .sessionEnd then 1 else 0 :=
    sessionsFrom_concat .sessionEnd s.calls job
  cases job with
  | sessionStart =>
    cases opened : s.sessionActive with
    | true =>
      have same : s.call .sessionStart = { s with calls := s.calls ++ [.sessionStart] } := if_pos opened
      have previous : s.calls.getLast?.getD HookJob.sessionEnd = .sessionStart := of_decide_eq_true (active ▸ opened)
      rw [if_neg (by simp [previous]), Nat.add_zero] at count
      rw [same]
      refine balanced.called alive alive rfl rfl (by rw [last, opened]; rfl) fun handled all => ?_
      rw [count]
      exact all
    | false =>
      have same : s.call .sessionStart = { s with
          calls := s.calls ++ [.sessionStart]
          sessionActive := true
          queue := s.queue ++ [.sessionStart] } := if_neg (by simp [opened])
      have previous : s.calls.getLast?.getD HookJob.sessionEnd = .sessionEnd := by
        have other := of_decide_eq_false (active ▸ opened)
        cases previous : s.calls.getLast?.getD HookJob.sessionEnd with
        | sessionStart => exact absurd previous other
        | sessionEnd => rfl
      rw [if_pos ⟨rfl, previous⟩] at count
      rw [same]
      refine balanced.called alive alive rfl rfl (by rw [last]; rfl) fun handled all => ?_
      rw [count, pairs_succ, ← all, pending_closed opened]
      simp [pending]
  | sessionEnd =>
    rw [if_neg (by simp), Nat.add_zero] at count
    cases opened : s.sessionActive with
    | true =>
      have same : s.call .sessionEnd = { s with
          calls := s.calls ++ [.sessionEnd]
          sessionActive := false
          queue := s.queue ++ [.sessionEnd] } := if_neg (by simp [opened])
      rw [same]
      refine balanced.called alive alive rfl rfl (by rw [last]; rfl) fun handled all => ?_
      rw [count, ← all]
      simp [pending, opened]
    | false =>
      have same : s.call .sessionEnd = { s with calls := s.calls ++ [.sessionEnd] } := if_pos opened
      rw [same]
      refine balanced.called alive alive rfl rfl (by rw [last, opened]; rfl) fun handled all => ?_
      rw [count]
      exact all

theorem sessionEnded_pending (s : SessionHooks) : s.sessionEnded.pending = s.pending := by
  unfold sessionEnded
  split
  · rfl
  · rename_i opened
    simp [pending, send, opened]

theorem sessionEnded_inactive (s : SessionHooks) : s.sessionEnded.sessionActive = false := by
  unfold sessionEnded
  split
  · assumption
  · rfl

theorem sessionEnded_calls (s : SessionHooks) : s.sessionEnded.calls = s.calls := by
  unfold sessionEnded
  split <;> rfl

/-- A step of the drop: the thread is not in its last part before the queue is closed. -/
theorem Balanced.dropped (balanced : s.Balanced config) (same : SameThread s t) (gone : t.handler ≠ .alive)
    (inactive : t.handler = .closing ∨ t.queueClosed = true → t.sessionActive = false) (pending : t.pending = s.pending)
    (calls : t.calls = s.calls) (drained : s.queueClosed = true → t.queue = s.queue ∧ t.queueClosed = true) :
    t.Balanced config where
  active alive := absurd alive gone
  closed := inactive
  command job command known := balanced.command job command (same.runner ▸ known)
  jobs := by
    obtain ⟨handled, entries, all⟩ := balanced.jobs
    refine ⟨handled, same.spawned ▸ entries, ?_⟩
    rw [pending, calls]
    exact all
  drained late := by
    obtain ⟨queue, closed⟩ := balanced.drained (same.runner ▸ late)
    obtain ⟨kept, still⟩ := drained closed
    exact ⟨kept.trans queue, still⟩

theorem Balanced.drop (balanced : s.Balanced config) (step : DropStep s t) : t.Balanced config := by
  cases step with
  | begin alive =>
    refine balanced.dropped ⟨rfl, rfl, rfl, rfl, rfl, rfl⟩ (by simp) (fun closed => ?_) rfl rfl fun closed => ?_
    · simp [queueClosed] at closed
    · simp [alive_open alive] at closed
  | close dropping =>
    refine balanced.dropped (DropStep.close dropping).sameThread (by simp) (fun _ => s.sessionEnded_inactive)
      s.sessionEnded_pending s.sessionEnded_calls fun closed => ?_
    simp [queueClosed, dropping] at closed
  | join closing =>
    refine balanced.dropped ⟨rfl, rfl, rfl, rfl, rfl, rfl⟩ (by simp) (fun _ => balanced.closed (.inl closing)) rfl rfl
      fun closed => ?_
    simp [queueClosed, closing] at closed
  | done joining _ =>
    have closed : s.queueClosed = true := by simp [queueClosed, joining]
    exact balanced.dropped ⟨rfl, rfl, rfl, rfl, rfl, rfl⟩ (by simp) (fun _ => balanced.closed (.inr closed)) rfl rfl
      fun _ => ⟨rfl, rfl⟩

/-- A step of the queue thread that leaves the handler and what is to be done as they are. -/
theorem Balanced.carried (balanced : s.Balanced config) (handler : t.handler = s.handler)
    (active : t.sessionActive = s.sessionActive) (calls : t.calls = s.calls)
    (command : ∀ job command, t.runner = .finishing (some (job, command)) ∨ t.runner = .spawning job command →
      config.command job = some command)
    (jobs : ∀ handled, s.spawned.map (·.entry) = config.commands handled →
      ∃ more, t.spawned.map (·.entry) = config.commands (handled ++ more) ∧ more ++ t.pending = s.pending)
    (drained : t.runner.late = true → t.queue = [] ∧ s.queueClosed = true) : t.Balanced config := by
  have queueClosed : t.queueClosed = s.queueClosed := by
    unfold SessionHooks.queueClosed
    rw [handler]
  refine ⟨?_, ?_, command, ?_, ?_⟩
  · rw [handler, active, calls]
    exact balanced.active
  · rw [handler, active, queueClosed]
    exact balanced.closed
  · obtain ⟨handled, entries, all⟩ := balanced.jobs
    obtain ⟨more, entries, same⟩ := jobs handled entries
    refine ⟨handled ++ more, entries, ?_⟩
    rw [List.append_assoc, same, calls]
    exact all
  · rw [queueClosed]
    exact drained

/-- A step that does no job. -/
theorem Balanced.idle (balanced : s.Balanced config) (handler : t.handler = s.handler)
    (active : t.sessionActive = s.sessionActive) (calls : t.calls = s.calls)
    (command : ∀ job command, t.runner = .finishing (some (job, command)) ∨ t.runner = .spawning job command →
      config.command job = some command)
    (spawned : t.spawned = s.spawned) (pending : t.pending = s.pending)
    (drained : t.runner.late = true → t.queue = [] ∧ s.queueClosed = true) : t.Balanced config := by
  refine balanced.carried handler active calls command (fun handled entries => ⟨[], ?_, pending⟩) drained
  rw [spawned, List.append_nil]
  exact entries

theorem commands_concat (config : HookConfig) (handled : List HookJob) (job : HookJob) :
    config.commands (handled ++ [job]) =
      config.commands handled ++ ((config.command job).map fun command => (job, command)).toList := by
  unfold HookConfig.commands
  rw [List.filterMap_append]
  cases known : config.command job <;> simp [known]

theorem Balanced.takeJob (balanced : s.Balanced config) {job : HookJob} (runner : s.runner = .received job)
    (fails : RunningHook → Bool) : (s.takeJob config fails job).Balanced config := by
  have inFlight : s.pending = [job] ++ s.queue ++ if s.sessionActive then [HookJob.sessionEnd] else [] := by
    unfold pending
    rw [runner]
    rfl
  cases known : config.command job with
  | none =>
    have now : (s.takeJob config fails job).runner = .receiving := by
      unfold SessionHooks.takeJob
      rw [known]
    refine balanced.carried rfl rfl rfl (by simp [now]) (fun handled entries => ⟨[job], ?_, ?_⟩) (by simp [now, HookRunner.late])
    · rw [commands_concat, known, Option.map_none, Option.toList_none, List.append_nil]
      exact entries
    · rw [inFlight]
      unfold pending
      rw [now]
      simp [HookRunner.inFlight, SessionHooks.takeJob]
  | some command =>
    have now : (s.takeJob config fails job).runner = .finishing (some (job, command)) := by
      unfold SessionHooks.takeJob
      rw [known]
    refine balanced.idle rfl rfl rfl ?_ rfl ?_ (by simp [now, HookRunner.late])
    · rw [now]
      rintro other otherCommand (same | same)
      · cases same
        exact known
      · cases same
    · rw [inFlight]
      unfold pending
      rw [now]
      simp [HookRunner.inFlight, SessionHooks.takeJob]

theorem afterFinish_inFlight (next : Option (HookJob × String)) :
    (afterFinish next).inFlight = (HookRunner.finishing next).inFlight := by
  cases next <;> rfl

theorem afterFinish_late (next : Option (HookJob × String)) :
    (afterFinish next).late = (HookRunner.finishing next).late := by
  cases next <;> rfl

/-- The wait is over, however it ended. -/
theorem Balanced.finished (balanced : s.Balanced config) {next : Option (HookJob × String)}
    (runner : s.runner = .finishing next) (handler : t.handler = s.handler) (active : t.sessionActive = s.sessionActive)
    (calls : t.calls = s.calls) (spawned : t.spawned = s.spawned) (queue : t.queue = s.queue)
    (after : t.runner = afterFinish next) : t.Balanced config := by
  refine balanced.idle handler active calls (fun job command known => ?_) spawned ?_ fun late => ?_
  · rw [after] at known
    rcases next with _ | ⟨other, otherCommand⟩
    · rcases known with known | known <;> cases known
    · rcases known with known | known <;> cases known
      exact balanced.command _ _ (.inl runner)
  · unfold pending
    rw [after, afterFinish_inFlight, queue, active, runner]
  · rw [after, afterFinish_late, ← runner] at late
    rw [queue]
    exact balanced.drained late

theorem Balanced.runStep {fails : RunningHook → Bool} (balanced : s.Balanced config) (step : RunStep config fails s t) :
    t.Balanced config := by
  cases step with
  | receive runner queue =>
    refine balanced.idle rfl rfl rfl (by simp) rfl ?_ (by simp [HookRunner.late])
    simp [pending, HookRunner.inFlight, runner, queue]
  | lastEnd runner queue closed _ =>
    exact balanced.idle rfl rfl rfl (by simp) rfl (by simp [pending, HookRunner.inFlight, runner]) fun _ => ⟨queue, closed⟩
  | lastStart runner queue closed _ =>
    exact balanced.idle rfl rfl rfl (by simp) rfl (by simp [pending, HookRunner.inFlight, runner]) fun _ => ⟨queue, closed⟩
  | lastNone runner queue closed _ =>
    exact balanced.idle rfl rfl rfl (by simp) rfl (by simp [pending, HookRunner.inFlight, runner]) fun _ => ⟨queue, closed⟩
  | takeJob runner => exact balanced.takeJob runner fails
  | nothing runner _ => exact balanced.finished runner rfl rfl rfl rfl rfl rfl
  | exited runner _ _ => exact balanced.finished runner rfl rfl rfl rfl rfl rfl
  | sleep runner _ _ => exact balanced.idle rfl rfl rfl balanced.command rfl rfl balanced.drained
  | overdue runner _ _ => exact balanced.finished runner rfl rfl rfl rfl rfl rfl
  | stop runner =>
    refine balanced.idle rfl rfl rfl (by simp) rfl (by simp [pending, HookRunner.inFlight, runner]) fun _ => ?_
    exact balanced.drained (by rw [runner]; rfl)
  | reaped runner =>
    refine balanced.idle rfl rfl rfl (by simp) rfl (by simp [pending, HookRunner.inFlight, runner]) fun _ => ?_
    exact balanced.drained (by rw [runner]; rfl)
  | doze runner _ => exact balanced.idle rfl rfl rfl balanced.command rfl rfl balanced.drained

theorem Balanced.spawn (balanced : s.Balanced config) {runs : Option Nat} (step : s.spawn runs = some t) :
    t.Balanced config := by
  obtain ⟨job, command, runner, rfl⟩ := spawn_step step
  have known := balanced.command job command (.inr runner)
  refine balanced.carried rfl rfl rfl (by simp) (fun handled entries => ⟨[job], ?_, ?_⟩) (by simp [HookRunner.late])
  · rw [commands_concat, known, List.map_append, entries]
    rfl
  · simp [pending, HookRunner.inFlight, runner]

/-- What is spawned belongs to the sessions, in every run. -/
theorem reach_balanced (reach : ((runs config).guarded Works).Reach s) : s.Balanced config := by
  have keep : ((runs config).guarded Works).Inductive (Balanced config) := by
    refine ⟨?_, ?_⟩
    · rintro s rfl
      exact initial_balanced
    · rintro s choice t balanced ⟨works, step⟩
      cases choice with
      | call job =>
        obtain ⟨alive, same⟩ := Option.ite_none_right_eq_some.mp step
        cases same
        exact balanced.call alive job
      | drop => exact balanced.drop (drop_step step)
      | run fails => exact balanced.runStep (run_step step).2
      | spawn runs => exact balanced.spawn step
      | spawnFails => exact works.elim
      | pass time =>
        obtain ⟨_, same⟩ := Option.ite_none_right_eq_some.mp step
        cases same
        exact ⟨balanced.active, balanced.closed, balanced.command, balanced.jobs, balanced.drained⟩
  exact keep.reach reach

/-- The next command need not wait for this one: it has exited, or its deadline or that of the drain has passed. -/
def Released (config : HookConfig) (drain : Option Nat) (time : Nat) (hook : RunningHook) : Prop :=
  hook.exited time = true ∨ hook.started + config.deadline ≤ time ∨ ∃ drainUntil, drain = some drainUntil ∧ drainUntil ≤ time

theorem Released.later {drain drain' : Option Nat} {time time' : Nat} {hook : RunningHook}
    (released : Released config drain time hook) (kept : ∀ drainUntil, drain = some drainUntil → drain' = some drainUntil)
    (later : time ≤ time') : Released config drain' time' hook := by
  rcases released with exited | overdue | ⟨drainUntil, known, passed⟩
  · refine .inl ?_
    unfold RunningHook.exited at exited ⊢
    cases exits : hook.child.exits with
    | none => simp [exits] at exited
    | some exit =>
      rw [exits] at exited
      exact decide_eq_true ((of_decide_eq_true exited).trans later)
  · exact .inr (.inl (overdue.trans later))
  · exact .inr (.inr ⟨drainUntil, kept drainUntil known, passed.trans later⟩)

theorem released_of_overdue {hook : RunningHook} {drain : Option Nat} {time : Nat}
    (overdue : hook.waitUntil config.deadline drain ≤ time) : Released config drain time hook := by
  cases drain with
  | none => exact .inr (.inl overdue)
  | some drainUntil =>
    rcases min_le_iff.mp overdue with own | drained
    · exact .inr (.inl own)
    · exact .inr (.inr ⟨drainUntil, rfl, drained⟩)

/-- Every command was spawned when the one before it was released. -/
def InOrder (config : HookConfig) (s : SessionHooks) : Prop :=
  EachAfter (fun before hook => ∀ last, before.getLast? = some last →
    Released config s.drainUntil hook.started last) s.spawned

/-- The command that runs is the last one spawned, and when none runs the last one is released. -/
structure Ordered (config : HookConfig) (s : SessionHooks) : Prop where
  last : ∀ hook, s.running = some hook → s.spawned.getLast? = some hook
  released : s.running = none → s.runner.late = false → ∀ hook, s.spawned.getLast? = some hook →
    Released config s.drainUntil s.now hook
  free : ∀ job command, s.runner = .spawning job command → s.running = none
  each : s.InOrder config

/-- A step that spawns nothing; a command that stops being waited for is released. -/
theorem Ordered.silent (ordered : s.Ordered config) (spawned : t.spawned = s.spawned)
    (drain : ∀ drainUntil, s.drainUntil = some drainUntil → t.drainUntil = some drainUntil) (later : s.now ≤ t.now)
    (running : ∀ hook, t.running = some hook → s.running = some hook)
    (released : t.running = none → t.runner.late = false →
      (s.running = none ∧ s.runner.late = false) ∨ ∃ hook, s.running = some hook ∧ Released config s.drainUntil s.now hook)
    (free : ∀ job command, t.runner = .spawning job command → t.running = none) : t.Ordered config := by
  refine ⟨fun hook known => ?_, fun none early hook atLast => ?_, free, ?_⟩
  · rw [spawned]
    exact ordered.last hook (running hook known)
  · rw [spawned] at atLast
    rcases released none early with ⟨idle, early⟩ | ⟨other, known, released⟩
    · exact (ordered.released idle early hook atLast).later drain later
    · have same : hook = other := Option.some.inj (atLast.symm.trans (ordered.last other known))
      exact same ▸ released.later drain later
  · unfold InOrder
    rw [spawned]
    exact ordered.each.mono fun _ _ good last atLast => (good last atLast).later drain le_rfl

/-- A step that does not touch the commands. -/
theorem Ordered.aside (ordered : s.Ordered config) (spawned : t.spawned = s.spawned) (drain : t.drainUntil = s.drainUntil)
    (later : s.now ≤ t.now) (running : t.running = s.running) (runner : t.runner = s.runner) : t.Ordered config := by
  refine ordered.silent spawned (fun _ known => drain.trans known) later (fun _ known => running ▸ known)
    (fun none early => .inl ⟨running ▸ none, runner ▸ early⟩) fun job command known => ?_
  rw [running]
  exact ordered.free job command (runner ▸ known)

theorem Ordered.runStep {fails : RunningHook → Bool} (works : ∀ hook, fails hook = false) (ordered : s.Ordered config)
    (step : RunStep config fails s t) : t.Ordered config := by
  cases step with
  | receive runner _ =>
    exact ordered.silent rfl (fun _ => id) le_rfl (fun _ => id) (fun none _ => .inl ⟨none, by rw [runner]; rfl⟩) (by simp)
  | lastEnd _ _ _ _ => exact ordered.silent rfl (fun _ => id) le_rfl (fun _ => id) (by simp [HookRunner.late]) (by simp)
  | lastStart _ _ _ _ => exact ordered.silent rfl (fun _ => id) le_rfl (by simp) (by simp [HookRunner.late]) (by simp)
  | lastNone _ _ _ _ => exact ordered.silent rfl (fun _ => id) le_rfl (fun _ => id) (by simp [HookRunner.late]) (by simp)
  | @takeJob job runner =>
    refine ordered.silent rfl (fun drainUntil known => ?_) le_rfl (fun _ => id)
      (fun none _ => .inl ⟨none, by rw [runner]; rfl⟩) fun other command spawning => ?_
    · unfold SessionHooks.takeJob
      simp [known]
    · unfold SessionHooks.takeJob at spawning
      dsimp only at spawning
      split at spawning <;> cases spawning
  | nothing runner none =>
    refine ordered.silent rfl (fun _ => id) le_rfl (fun _ => id) (fun _ early => .inl ⟨none, ?_⟩) fun _ _ _ => none
    rw [runner, ← afterFinish_late]
    exact early
  | @exited next hook runner running gone =>
    rw [works hook, Bool.or_false] at gone
    exact ordered.silent rfl (fun _ => id) le_rfl (by simp) (fun _ _ => .inr ⟨hook, running, .inl gone⟩) fun _ _ _ => rfl
  | sleep _ _ _ => exact ordered.aside rfl rfl le_rfl rfl rfl
  | @overdue next hook runner running late =>
    exact ordered.silent rfl (fun _ => id) le_rfl (by simp) (fun _ _ => .inr ⟨hook, running, released_of_overdue late⟩)
      fun _ _ _ => rfl
  | stop _ => exact ordered.silent rfl (fun _ => id) le_rfl (fun _ => id) (by simp [HookRunner.late]) (by simp)
  | reaped _ => exact ordered.silent rfl (fun _ => id) le_rfl (fun _ => id) (by simp [HookRunner.late]) (by simp)
  | doze _ _ => exact ordered.aside rfl rfl le_rfl rfl rfl

theorem Ordered.spawn (ordered : s.Ordered config) {runs : Option Nat} (step : s.spawn runs = some t) :
    t.Ordered config := by
  obtain ⟨job, command, runner, rfl⟩ := spawn_step step
  have idle := ordered.free job command runner
  have early : s.runner.late = false := by
    rw [runner]
    rfl
  refine ⟨fun hook known => ?_, by simp, by simp, ?_⟩
  · rw [List.getLast?_concat]
    exact known
  · exact ordered.each.concat (ordered.released idle early)

theorem reach_ordered (reach : ((runs config).guarded Works).Reach s) : s.Ordered config := by
  have keep : ((runs config).guarded Works).Inductive (Ordered config) := by
    refine ⟨?_, ?_⟩
    · rintro s rfl
      exact ⟨by simp [initial], by simp [initial], by simp [initial], .nil⟩
    · rintro s choice t ordered ⟨works, step⟩
      cases choice with
      | call job =>
        obtain ⟨_, same⟩ := Option.ite_none_right_eq_some.mp step
        cases same
        have same := (s.call_same job).1
        exact ordered.aside same.spawned same.drain same.now.ge same.running same.runner
      | drop =>
        have same := (drop_step step).sameThread
        exact ordered.aside same.spawned same.drain same.now.ge same.running same.runner
      | run fails => exact ordered.runStep works (run_step step).2
      | spawn runs => exact ordered.spawn step
      | spawnFails => exact works.elim
      | pass time =>
        obtain ⟨_, same⟩ := Option.ite_none_right_eq_some.mp step
        cases same
        exact ordered.aside rfl rfl (Nat.le_add_right _ _) rfl rfl
  exact keep.reach reach

end SessionHooks

end HyprRdp
