import HyprRdp.Server.HookTiming

namespace HyprRdp

def HookHandler.rank : HookHandler → Nat
  | .alive | .returned => 0
  | .dropping => 20
  | .closing => 2
  | .joining => 1

def HookRunner.rank : HookRunner → Nat
  | .received _ => 7
  | .finishing (some _) => 6
  | .spawning _ _ => 5
  | .receiving => 4
  | .finishing none => 3
  | .stopping => 2
  | .reaping _ => 1
  | .ended => 0

namespace SessionHooks

variable {config : HookConfig} {s t : SessionHooks} {dropTime : Nat}

/-- What is left of a drop: each job takes a few steps, and between two steps at
one time the thread falls asleep at most once. -/
def remaining (config : HookConfig) (dropTime : Nat) (s : SessionHooks) : Nat :=
  8 * s.queue.length + s.handler.rank + s.runner.rank + 2 * (dropLimit config dropTime - s.now) +
    if s.wakeAt ≤ s.now then 1 else 0

theorem Bounded.now_le (bounded : s.Bounded config dropTime) : max s.now s.wakeAt ≤ dropLimit config dropTime :=
  bounded.time.trans (ceiling_le bounded.drain _)

theorem afterFinish_rank (next : Option (HookJob × String)) : (afterFinish next).rank < (HookRunner.finishing next).rank := by
  cases next <;> simp [afterFinish, HookRunner.rank]

/-- A step of the thread that stays awake. -/
theorem remaining_awake (now : t.now = s.now) (wakeAt : t.wakeAt = s.wakeAt) (handler : t.handler = s.handler)
    (less : 8 * t.queue.length + t.runner.rank < 8 * s.queue.length + s.runner.rank) :
    t.remaining config dropTime < s.remaining config dropTime := by
  unfold remaining
  rw [now, wakeAt, handler]
  omega

theorem remaining_moved (now : t.now = s.now) (wakeAt : t.wakeAt = s.wakeAt) (handler : t.handler = s.handler)
    (queue : t.queue = s.queue) (less : t.runner.rank < s.runner.rank) :
    t.remaining config dropTime < s.remaining config dropTime := by
  refine remaining_awake now wakeAt handler ?_
  rw [queue]
  exact Nat.add_lt_add_left less _

theorem remaining_runStep {fails : RunningHook → Bool} (awake : s.wakeAt ≤ s.now) (step : RunStep config fails s t) :
    t.remaining config dropTime < s.remaining config dropTime := by
  have finished : ∀ next, s.runner = .finishing next → (afterFinish next).rank < s.runner.rank := by
    intro next runner
    rw [runner]
    exact afterFinish_rank next
  cases step with
  | receive runner queue =>
    refine remaining_awake rfl rfl rfl ?_
    rw [runner, queue, List.length_cons]
    dsimp only [HookRunner.rank]
    omega
  | lastEnd runner _ _ _ => exact remaining_moved rfl rfl rfl rfl (by simp [runner, HookRunner.rank])
  | lastStart runner _ _ _ => exact remaining_moved rfl rfl rfl rfl (by simp [runner, HookRunner.rank])
  | lastNone runner _ _ _ => exact remaining_moved rfl rfl rfl rfl (by simp [runner, HookRunner.rank])
  | @takeJob job runner =>
    refine remaining_moved rfl rfl rfl rfl ?_
    rw [runner]
    unfold SessionHooks.takeJob
    dsimp only
    split <;> simp [HookRunner.rank]
  | nothing runner _ => exact remaining_moved rfl rfl rfl rfl (finished _ runner)
  | exited runner _ _ => exact remaining_moved rfl rfl rfl rfl (finished _ runner)
  | sleep _ _ early =>
    have interval : 0 < hookPollInterval := by decide
    unfold remaining
    dsimp only
    rw [if_pos awake, if_neg (by omega)]
    omega
  | overdue runner _ _ => exact remaining_moved rfl rfl rfl rfl (finished _ runner)
  | stop runner => exact remaining_moved rfl rfl rfl rfl (by simp [runner, HookRunner.rank])
  | reaped runner => exact remaining_moved rfl rfl rfl rfl (by simp [runner, HookRunner.rank])
  | doze _ _ =>
    have interval : 0 < hookPollInterval := by decide
    unfold remaining
    dsimp only
    rw [if_pos awake, if_neg (by omega)]
    omega

theorem sessionEnded_queue (s : SessionHooks) : s.sessionEnded.queue.length ≤ s.queue.length + 1 := by
  unfold sessionEnded
  split
  · exact Nat.le_succ _
  · unfold send
    rw [List.length_append]
    exact le_rfl

theorem remaining_drop (step : DropStep s t) (dropped : s.droppedAt = some dropTime) (timed : s.Timed config) :
    t.remaining config dropTime < s.remaining config dropTime := by
  unfold remaining
  cases step with
  | begin alive => cases dropped.symm.trans (timed.alive.mpr alive)
  | close dropping =>
    have same := s.sessionEnded_same.1
    have queue := s.sessionEnded_queue
    dsimp only
    rw [same.now, same.wakeAt, same.runner, dropping]
    dsimp only [HookHandler.rank]
    omega
  | join closing =>
    dsimp only
    rw [closing]
    dsimp only [HookHandler.rank]
    omega
  | done joining _ =>
    dsimp only
    rw [joining]
    dsimp only [HookHandler.rank]
    omega

/-- After the drop every step leaves less to do. -/
theorem remaining_next (inTime : s.InTime config) (dropped : s.droppedAt = some dropTime) {choice : HookChoice}
    (step : next config s choice = some t) : t.remaining config dropTime < s.remaining config dropTime := by
  have gone : s.handler ≠ .alive := fun alive => by cases dropped.symm.trans (inTime.timed.alive.mpr alive)
  cases choice with
  | call job => exact absurd (Option.ite_none_right_eq_some.mp step).1 gone
  | drop => exact remaining_drop (drop_step step) dropped inTime.timed
  | run fails => exact remaining_runStep (run_step step).1 (run_step step).2
  | spawn runs =>
    obtain ⟨job, command, runner, rfl⟩ := spawn_step step
    exact remaining_moved rfl rfl rfl rfl (by simp [runner, HookRunner.rank])
  | spawnFails =>
    obtain ⟨job, command, runner, rfl⟩ := spawnFails_step step
    exact remaining_moved rfl rfl rfl rfl (by simp [runner, HookRunner.rank])
  | pass time =>
    obtain ⟨⟨positive, waits⟩, same⟩ := Option.ite_none_right_eq_some.mp step
    cases same
    rcases waits with ⟨_, early⟩ | ⟨alive, _⟩
    · have limit := (inTime.bounded dropTime dropped).now_le
      unfold remaining
      dsimp only
      split <;> split <;> omega
    · exact absurd alive gone

theorem next_droppedAt (inTime : s.InTime config) (dropped : s.droppedAt = some dropTime) {choice : HookChoice}
    (step : next config s choice = some t) : t.droppedAt = some dropTime := by
  have gone : s.handler ≠ .alive := fun alive => by cases dropped.symm.trans (inTime.timed.alive.mpr alive)
  cases choice with
  | call job => exact absurd (Option.ite_none_right_eq_some.mp step).1 gone
  | drop =>
    cases drop_step step with
    | begin alive => exact absurd alive gone
    | close _ => exact s.sessionEnded_same.2.droppedAt.trans dropped
    | join _ => exact dropped
    | done _ _ => exact dropped
  | run fails => exact (run_step step).2.droppedAt.trans dropped
  | spawn runs =>
    obtain ⟨_, _, _, rfl⟩ := spawn_step step
    exact dropped
  | spawnFails =>
    obtain ⟨_, _, _, rfl⟩ := spawnFails_step step
    exact dropped
  | pass time =>
    obtain ⟨_, same⟩ := Option.ite_none_right_eq_some.mp step
    cases same
    exact dropped

/-- No run goes on for ever after a drop. -/
theorem no_endless_drop (inTime : s.InTime config) (dropped : s.droppedAt = some dropTime) (run : Nat → SessionHooks)
    (first : run 0 = s) : ¬ ∀ n, ∃ choice, next config (run n) choice = some (run (n + 1)) := by
  intro steps
  have falls : ∀ n, (run n).InTime config ∧ (run n).droppedAt = some dropTime ∧
      (run n).remaining config dropTime + n ≤ s.remaining config dropTime := by
    intro n
    induction n with
    | zero => exact ⟨first ▸ inTime, first ▸ dropped, (first ▸ le_rfl)⟩
    | succ n ih =>
      obtain ⟨inTime, dropped, less⟩ := ih
      obtain ⟨choice, step⟩ := steps n
      have lower := remaining_next inTime dropped step
      exact ⟨inTime.next step, next_droppedAt inTime dropped step, by omega⟩
  have beyond := (falls (s.remaining config dropTime + 1)).2.2
  omega

/-- A thread that is awake goes on, but for a command that is about to be spawned. -/
theorem run_goes_on (awake : s.wakeAt ≤ s.now) (closed : s.queueClosed = true) (fails : RunningHook → Bool)
    (spawning : ∀ job command, s.runner ≠ .spawning job command) (ended : s.runner ≠ .ended) :
    ∃ t, s.run config fails = some t := by
  unfold SessionHooks.run
  rw [if_neg (Nat.not_lt.mpr awake)]
  cases runner : s.runner with
  | receiving =>
    dsimp only [receive]
    cases queue : s.queue with
    | cons job rest => exact ⟨_, rfl⟩
    | nil => exact ⟨_, if_pos closed⟩
  | received job => exact ⟨_, rfl⟩
  | finishing next => exact ⟨_, rfl⟩
  | stopping => exact ⟨_, rfl⟩
  | reaping reapUntil => exact ⟨_, rfl⟩
  | spawning job command => exact absurd runner (spawning job command)
  | ended => exact absurd runner ended

/-- Until the drop has returned something can be done. -/
theorem drop_goes_on (inTime : s.InTime config) (dropped : s.droppedAt = some dropTime) (pending : s.handler ≠ .returned) :
    ∃ choice t, Works s choice ∧ next config s choice = some t := by
  cases handler : s.handler with
  | alive => cases dropped.symm.trans (inTime.timed.alive.mpr handler)
  | dropping =>
    refine ⟨.drop, { s.sessionEnded with handler := .closing }, trivial, ?_⟩
    simp [next, SessionHooks.drop, handler]
  | closing =>
    refine ⟨.drop, { s with handler := .joining }, trivial, ?_⟩
    simp [next, SessionHooks.drop, handler]
  | returned => exact absurd handler pending
  | joining =>
    have closed : s.queueClosed = true := by simp [queueClosed, handler]
    by_cases ended : s.runner = .ended
    · refine ⟨.drop, { s with handler := .returned }, trivial, ?_⟩
      simp [next, SessionHooks.drop, handler, ended]
    · by_cases asleep : s.now < s.wakeAt
      · have idle : s.Idle (s.wakeAt - s.now) := ⟨by omega, .inl ⟨.inr handler, by omega⟩⟩
        exact ⟨.pass (s.wakeAt - s.now), _, trivial, if_pos idle⟩
      · by_cases spawning : ∃ job command, s.runner = .spawning job command
        · obtain ⟨job, command, runner⟩ := spawning
          have spawned : ∃ t, s.spawn none = some t := by
            unfold SessionHooks.spawn
            rw [runner]
            exact ⟨_, rfl⟩
          obtain ⟨t, step⟩ := spawned
          exact ⟨.spawn none, t, trivial, step⟩
        · obtain ⟨t, step⟩ := @run_goes_on config s (Nat.not_lt.mp asleep) closed (fun _ => false)
            (fun job command runner => spawning ⟨job, command, runner⟩) ended
          exact ⟨.run fun _ => false, t, fun _ => rfl, step⟩

theorem reach_inTime (reach : ((runs config).guarded Works).Reach s) : s.InTime config := by
  have keep : ((runs config).guarded Works).Inductive (InTime config) := by
    refine ⟨?_, ?_⟩
    · rintro s rfl
      exact ⟨initial_timed, fun _ dropped => by cases dropped⟩
    · rintro s choice t inTime ⟨_, step⟩
      exact inTime.next step
  exact keep.reach reach

theorem RunStep.not_ended {fails : RunningHook → Bool} (step : RunStep config fails s t) : s.runner ≠ .ended := by
  intro ended
  cases step <;> simp_all

/-- The drop has waited for the thread. -/
theorem reach_returned (reach : ((runs config).guarded Works).Reach s) : s.handler = .returned → s.runner = .ended := by
  have keep : ((runs config).guarded Works).Inductive fun s => s.handler = .returned → s.runner = .ended := by
    refine ⟨?_, ?_⟩
    · rintro s rfl
      simp [initial]
    · rintro s choice t waited ⟨_, step⟩ returned
      cases choice with
      | call job =>
        obtain ⟨alive, same⟩ := Option.ite_none_right_eq_some.mp step
        cases same
        cases alive.symm.trans ((s.call_same job).2.handler.symm.trans returned)
      | drop =>
        cases drop_step step with
        | begin _ => cases returned
        | close _ => cases returned
        | join _ => cases returned
        | done _ ended => exact ended
      | run fails =>
        obtain ⟨_, step⟩ := run_step step
        exact absurd (waited (step.handler.symm.trans returned)) step.not_ended
      | spawn runs =>
        obtain ⟨_, _, spawning, rfl⟩ := spawn_step step
        cases spawning.symm.trans (waited returned)
      | spawnFails =>
        obtain ⟨_, _, spawning, rfl⟩ := spawnFails_step step
        cases spawning.symm.trans (waited returned)
      | pass time =>
        obtain ⟨_, same⟩ := Option.ite_none_right_eq_some.mp step
        cases same
        exact waited returned
  exact keep.reach reach

/-- What is spawned up to now are the first of the commands of the sessions. -/
theorem Balanced.begins (balanced : s.Balanced config) :
    s.spawned.map (·.entry) <+: config.commands (pairs (sessions s.calls)) := by
  obtain ⟨handled, entries, all⟩ := balanced.jobs
  rw [entries, ← all]
  unfold HookConfig.commands
  rw [List.filterMap_append]
  exact List.prefix_append _ _

/-- Session hooks are balanced, ordered and bounded in time. -/
theorem session_hooks (reach : ((runs config).guarded Works).Reach s) :
    s.spawned.map (·.entry) <+: config.commands (pairs (sessions s.calls)) ∧
      (s.handler = .returned → s.spawned.map (·.entry) = config.commands (pairs (sessions s.calls))) ∧
      s.InOrder config ∧
      ∀ dropTime, s.droppedAt = some dropTime →
        s.now ≤ dropTime + 2 * config.deadline + hookPollInterval * 4 ∧
          (s.handler ≠ .returned → ∃ choice t, Works s choice ∧ next config s choice = some t) ∧
          ∀ run : Nat → SessionHooks, run 0 = s → ¬ ∀ n, ∃ choice, next config (run n) choice = some (run (n + 1)) := by
  have balanced := reach_balanced reach
  have inTime := reach_inTime reach
  refine ⟨balanced.begins, ?_, (reach_ordered reach).each, fun dropTime dropped => ⟨?_, ?_, ?_⟩⟩
  · intro returned
    obtain ⟨handled, entries, all⟩ := balanced.jobs
    have ended := reach_returned reach returned
    obtain ⟨queue, closed⟩ := balanced.drained (by rw [ended]; rfl)
    rw [pending_closed (balanced.closed (.inr closed)), ended, queue] at all
    rw [entries, ← all]
    exact congrArg config.commands (List.append_nil handled).symm
  · exact (le_max_left _ _).trans (inTime.bounded dropTime dropped).now_le
  · exact drop_goes_on inTime dropped
  · exact no_endless_drop inTime dropped

/-- Choices in which the system works can be carried out one after the other. -/
theorem works_exec {choices : List HookChoice} (reach : ((runs config).guarded Works).Reach s)
    (works : ∀ choice ∈ choices, ∀ s, Works s choice) (run : StepSystem.exec (next config) s choices = some t) :
    ((runs config).guarded Works).Reach t := by
  induction choices generalizing s with
  | nil =>
    cases run
    exact reach
  | cons choice rest ih =>
    obtain ⟨u, step, run⟩ := Option.bind_eq_some_iff.mp run
    have first := works choice List.mem_cons_self s
    exact ih (.next reach ⟨first, step⟩) (fun other member => works other (List.mem_cons_of_mem _ member)) run

def greetConfig : HookConfig := ⟨some "greet", some "part", 10⟩

/-- A session whose commands exit at once, and a drop in the middle of it. -/
def greetChoices : List HookChoice :=
  [.call .sessionStart, .run fun _ => false, .run fun _ => false, .run fun _ => false, .spawn (some 0), .drop, .drop, .drop,
    .run fun _ => false, .run fun _ => false, .run fun _ => false, .spawn (some 0), .run fun _ => false,
    .run fun _ => false, .run fun _ => false, .run fun _ => false, .drop]

theorem session_hooks_once : ∃ s, ((runs greetConfig).guarded Works).Reach s ∧ s.handler = .returned ∧
    s.spawned.map (·.entry) = [(.sessionStart, "greet"), (.sessionEnd, "part")] ∧
    s.now ≤ 0 + 2 * greetConfig.deadline + hookPollInterval * 4 := by
  have run : ∃ s, StepSystem.exec (next greetConfig) initial greetChoices = some s ∧ s.handler = .returned ∧
      s.calls = [.sessionStart] ∧ s.droppedAt = some 0 := ⟨_, rfl, rfl, rfl, rfl⟩
  obtain ⟨s, run, returned, calls, dropped⟩ := run
  have works : ∀ choice ∈ greetChoices, ∀ s, Works s choice := by simp [greetChoices, Works]
  have reach := works_exec (.start rfl) works run
  obtain ⟨_, whole, _, bounded⟩ := session_hooks reach
  refine ⟨s, reach, returned, ?_, (bounded 0 dropped).1⟩
  rw [whole returned, calls]
  rfl

end SessionHooks

end HyprRdp
