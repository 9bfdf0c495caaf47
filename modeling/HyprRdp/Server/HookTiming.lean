import HyprRdp.Server.HookOrder

namespace HyprRdp

namespace SessionHooks

variable {config : HookConfig} {s t : SessionHooks} {dropTime : Nat}

/-- What the times of a state have to do with each other. -/
structure Timed (config : HookConfig) (s : SessionHooks) : Prop where
  started : ∀ hook, s.running = some hook → hook.started ≤ s.now
  asleep : s.now < s.wakeAt →
    (∃ next hook, s.runner = .finishing next ∧ s.running = some hook ∧
      s.wakeAt ≤ hook.waitUntil config.deadline s.drainUntil) ∨ ∃ reapUntil, s.runner = .reaping reapUntil
  aligned : ∀ reapUntil, s.runner = .reaping reapUntil → ∃ turns, reapUntil = max s.now s.wakeAt + turns * hookPollInterval
  alive : s.droppedAt = none ↔ s.handler = .alive
  flag : s.shuttingDown = s.droppedAt.isSome
  draining : s.droppedAt = none → s.drainUntil = none
  late : s.runner.late = true → s.queueClosed = true

theorem initial_timed : initial.Timed config where
  started _ known := by cases known
  asleep early := absurd early (Nat.lt_irrefl 0)
  aligned _ known := by cases known
  alive := ⟨fun _ => rfl, fun _ => rfl⟩
  flag := rfl
  draining _ := rfl
  late known := absurd known Bool.false_ne_true

/-- The handler moves, and neither the thread nor the clock. -/
theorem Timed.handled (timed : s.Timed config) (same : SameThread s t) (alive : t.droppedAt = none ↔ t.handler = .alive)
    (flag : t.shuttingDown = t.droppedAt.isSome) (draining : t.droppedAt = none → s.droppedAt = none)
    (closed : s.queueClosed = true → t.queueClosed = true) : t.Timed config where
  started := by
    rw [same.running, same.now]
    exact timed.started
  asleep := by
    rw [same.now, same.wakeAt, same.runner, same.running, same.drain]
    exact timed.asleep
  aligned := by
    rw [same.now, same.wakeAt, same.runner]
    exact timed.aligned
  alive := alive
  flag := flag
  draining none := same.drain.trans (timed.draining (draining none))
  late known := closed (timed.late (same.runner ▸ known))

theorem Timed.call (timed : s.Timed config) (job : HookJob) : (s.call job).Timed config := by
  obtain ⟨same, handler, droppedAt, flag⟩ := s.call_same job
  refine timed.handled same ?_ ?_ (fun none => droppedAt ▸ none) fun closed => ?_
  · rw [droppedAt, handler]
    exact timed.alive
  · rw [flag, droppedAt]
    exact timed.flag
  · unfold queueClosed at closed ⊢
    rw [handler]
    exact closed

theorem Timed.dropped (timed : s.Timed config) (gone : s.handler ≠ .alive) : s.droppedAt ≠ none :=
  fun none => gone (timed.alive.mp none)

theorem Timed.drop (timed : s.Timed config) (step : DropStep s t) : t.Timed config := by
  have same := step.sameThread
  cases step with
  | begin alive =>
    refine timed.handled same (by simp) rfl (fun none => by cases none) fun closed => ?_
    simp [queueClosed, alive] at closed
  | close dropping =>
    obtain ⟨_, _, droppedAt, flag⟩ := s.sessionEnded_same
    have dropped := timed.dropped (by simp [dropping])
    refine timed.handled same ?_ ?_ (fun none => droppedAt.symm.trans none) fun closed => ?_
    · simp [droppedAt, dropped]
    · dsimp only
      rw [flag, droppedAt]
      exact timed.flag
    · simp [queueClosed, dropping] at closed
  | join closing =>
    have dropped := timed.dropped (by simp [closing])
    exact timed.handled same (by simp [dropped]) timed.flag id fun _ => rfl
  | done joining _ =>
    have dropped := timed.dropped (by simp [joining])
    exact timed.handled same (by simp [dropped]) timed.flag id fun _ => rfl

/-- A step of the thread that does not send it to sleep. -/
theorem Timed.awake (timed : s.Timed config) (awake : s.wakeAt ≤ s.now) (now : t.now = s.now)
    (wakeAt : t.wakeAt = s.wakeAt) (handler : t.handler = s.handler) (droppedAt : t.droppedAt = s.droppedAt)
    (flag : t.shuttingDown = s.shuttingDown) (running : ∀ hook, t.running = some hook → hook.started ≤ s.now)
    (draining : s.droppedAt = none → t.drainUntil = none) (runner : ∀ reapUntil, t.runner ≠ .reaping reapUntil)
    (late : t.runner.late = true → s.queueClosed = true) : t.Timed config where
  started := by
    rw [now]
    exact running
  asleep early := by
    rw [now, wakeAt] at early
    exact absurd awake (Nat.not_le.mpr early)
  aligned reapUntil known := absurd known (runner reapUntil)
  alive := by
    rw [droppedAt, handler]
    exact timed.alive
  flag := by
    rw [flag, droppedAt]
    exact timed.flag
  draining none := draining (droppedAt ▸ none)
  late known := by
    have closed := late known
    unfold queueClosed at closed ⊢
    rw [handler]
    exact closed

theorem afterFinish_awake (next : Option (HookJob × String)) (reapUntil : Nat) :
    afterFinish next ≠ .reaping reapUntil := by
  cases next <;> simp [afterFinish]

/-- The turns of the last reaping end with it. -/
theorem Timed.doze (timed : s.Timed config) (awake : s.wakeAt ≤ s.now) {reapUntil : Nat}
    (runner : s.runner = .reaping reapUntil) (early : s.now < reapUntil) :
    ∃ turns, reapUntil = s.now + hookPollInterval + turns * hookPollInterval := by
  obtain ⟨turns, aligned⟩ := timed.aligned reapUntil runner
  rw [max_eq_left awake] at aligned
  cases turns with
  | zero => omega
  | succ turns =>
    refine ⟨turns, ?_⟩
    rw [Nat.succ_mul] at aligned
    omega

theorem Timed.runStep {fails : RunningHook → Bool} (timed : s.Timed config) (awake : s.wakeAt ≤ s.now)
    (step : RunStep config fails s t) : t.Timed config := by
  have finished : ∀ next, s.runner = .finishing next → (afterFinish next).late = true → s.queueClosed = true := by
    intro next runner late
    rw [afterFinish_late, ← runner] at late
    exact timed.late late
  cases step with
  | receive _ _ =>
    exact timed.awake awake rfl rfl rfl rfl rfl timed.started timed.draining (by simp) (by simp [HookRunner.late])
  | lastEnd _ _ closed _ =>
    exact timed.awake awake rfl rfl rfl rfl rfl timed.started timed.draining (by simp) fun _ => closed
  | lastStart _ _ closed _ =>
    exact timed.awake awake rfl rfl rfl rfl rfl (by simp) timed.draining (by simp) fun _ => closed
  | lastNone _ _ closed _ =>
    exact timed.awake awake rfl rfl rfl rfl rfl timed.started timed.draining (by simp) fun _ => closed
  | @takeJob job runner =>
    have early : ∀ reapUntil, (s.takeJob config fails job).runner ≠ .reaping reapUntil := by
      intro reapUntil
      unfold SessionHooks.takeJob
      dsimp only
      split <;> simp
    have opened : (s.takeJob config fails job).runner.late = false := by
      unfold SessionHooks.takeJob
      dsimp only
      split <;> rfl
    refine timed.awake awake rfl rfl rfl rfl rfl timed.started (fun none => ?_) early (by simp [opened])
    have flag := timed.flag
    rw [none] at flag
    simp [SessionHooks.takeJob, timed.draining none, flag]
  | nothing runner _ =>
    exact timed.awake awake rfl rfl rfl rfl rfl timed.started timed.draining (afterFinish_awake _) (finished _ runner)
  | exited runner _ _ =>
    exact timed.awake awake rfl rfl rfl rfl rfl (by simp) timed.draining (afterFinish_awake _) (finished _ runner)
  | @sleep next hook runner running early =>
    have until_le : s.now + min hookPollInterval (hook.waitUntil config.deadline s.drainUntil - s.now) ≤
        hook.waitUntil config.deadline s.drainUntil := by omega
    exact ⟨timed.started, fun _ => .inl ⟨next, hook, runner, running, until_le⟩, fun _ reaping => (by simp [runner] at reaping),
      timed.alive, timed.flag, timed.draining, timed.late⟩
  | overdue runner _ _ =>
    exact timed.awake awake rfl rfl rfl rfl rfl (by simp) timed.draining (afterFinish_awake _) (finished _ runner)
  | stop runner =>
    refine ⟨timed.started, fun _ => .inr ⟨_, rfl⟩, fun reapUntil reaping => ⟨4, ?_⟩, timed.alive, timed.flag, timed.draining,
      fun _ => timed.late (by rw [runner]; rfl)⟩
    cases reaping
    rw [max_eq_left awake, Nat.mul_comm]
  | reaped runner =>
    exact timed.awake awake rfl rfl rfl rfl rfl timed.started timed.draining (by simp)
      fun _ => timed.late (by rw [runner]; rfl)
  | @doze reapUntil _ runner early =>
    refine ⟨timed.started, fun _ => .inr ⟨reapUntil, runner⟩, fun other reaping => ?_, timed.alive, timed.flag,
      timed.draining, timed.late⟩
    cases runner.symm.trans reaping
    obtain ⟨turns, aligned⟩ := timed.doze awake runner early
    refine ⟨turns, ?_⟩
    dsimp only
    rw [max_eq_right (Nat.le_add_right _ _)]
    exact aligned

theorem Timed.spawn (timed : s.Timed config) (awake : s.wakeAt ≤ s.now) {runs : Option Nat}
    (step : s.spawn runs = some t) : t.Timed config := by
  obtain ⟨job, command, runner, rfl⟩ := spawn_step step
  refine timed.awake awake rfl rfl rfl rfl rfl (fun hook known => ?_) timed.draining (by simp) (by simp [HookRunner.late])
  cases known
  exact le_rfl

theorem Timed.spawnFails (timed : s.Timed config) (awake : s.wakeAt ≤ s.now) (step : s.spawnFails = some t) :
    t.Timed config := by
  obtain ⟨job, command, runner, rfl⟩ := spawnFails_step step
  exact timed.awake awake rfl rfl rfl rfl rfl (by simp) timed.draining (by simp) (by simp [HookRunner.late])

/-- The thread sleeps in a wait or in the last reaping only. -/
theorem Timed.spawning_awake (timed : s.Timed config) {job : HookJob} {command : String}
    (spawning : s.runner = .spawning job command) : s.wakeAt ≤ s.now := by
  by_contra early
  rcases timed.asleep (Nat.not_le.mp early) with ⟨_, _, finishing, _⟩ | ⟨_, reaping⟩
  · cases spawning.symm.trans finishing
  · cases spawning.symm.trans reaping

theorem Timed.pass (timed : s.Timed config) {time : Nat} (idle : s.Idle time) :
    Timed config { s with now := s.now + time } := by
  obtain ⟨positive, waits⟩ := idle
  refine ⟨fun hook known => (timed.started hook known).trans (Nat.le_add_right _ _), fun early => ?_,
    fun reapUntil reaping => ?_, timed.alive, timed.flag, timed.draining, timed.late⟩
  · exact timed.asleep (by dsimp only at early; omega)
  · obtain ⟨turns, aligned⟩ := timed.aligned reapUntil reaping
    rcases waits with ⟨_, early⟩ | ⟨_, receiving, _⟩
    · refine ⟨turns, aligned.trans ?_⟩
      rw [max_eq_right (by omega), max_eq_right early]
    · cases receiving.symm.trans reaping

/-- What any step does, in one place. -/
theorem Timed.next (timed : s.Timed config) {choice : HookChoice} (step : next config s choice = some t) : t.Timed config := by
  cases choice with
  | call job =>
    obtain ⟨_, same⟩ := Option.ite_none_right_eq_some.mp step
    cases same
    exact timed.call job
  | drop => exact timed.drop (drop_step step)
  | run fails => exact timed.runStep (run_step step).1 (run_step step).2
  | spawn runs =>
    obtain ⟨_, _, spawning, _⟩ := spawn_step step
    exact timed.spawn (timed.spawning_awake spawning) step
  | spawnFails =>
    obtain ⟨_, _, spawning, _⟩ := spawnFails_step step
    exact timed.spawnFails (timed.spawning_awake spawning) step
  | pass time =>
    obtain ⟨idle, same⟩ := Option.ite_none_right_eq_some.mp step
    cases same
    exact timed.pass idle

/-- When a drop at this time has to be over. -/
def dropLimit (config : HookConfig) (dropTime : Nat) : Nat := dropTime + 2 * config.deadline + hookPollInterval * 4

/-- How late it may become where the thread is. Up to the first job that sees the
flag only the command of one job is waited for. -/
def ceiling (config : HookConfig) (dropTime : Nat) (drain : Option Nat) : HookRunner → Nat
  | .reaping _ | .ended => dropLimit config dropTime
  | .finishing none | .stopping => drain.getD (dropTime + 2 * config.deadline)
  | .receiving | .received _ | .finishing (some _) | .spawning _ _ => drain.getD (dropTime + config.deadline)

/-- The times after a drop. -/
structure Bounded (config : HookConfig) (dropTime : Nat) (s : SessionHooks) : Prop where
  time : max s.now s.wakeAt ≤ ceiling config dropTime s.drainUntil s.runner
  drain : ∀ drainUntil, s.drainUntil = some drainUntil → drainUntil ≤ dropTime + 2 * config.deadline
  started : s.drainUntil = none → ∀ hook, s.running = some hook → hook.started ≤ dropTime + config.deadline
  before : s.drainUntil = none → ∀ next hook, s.runner = .finishing (some next) → s.running = some hook →
    hook.started ≤ dropTime
  reaping : ∀ reapUntil, s.runner = .reaping reapUntil → reapUntil ≤ dropLimit config dropTime

theorem ceiling_le {drain : Option Nat} (known : ∀ drainUntil, drain = some drainUntil → drainUntil ≤ dropTime + 2 * config.deadline)
    (runner : HookRunner) : ceiling config dropTime drain runner ≤ dropLimit config dropTime := by
  have early : drain.getD (dropTime + config.deadline) ≤ dropTime + 2 * config.deadline := by
    cases drain with
    | none =>
      rw [Option.getD_none]
      omega
    | some drainUntil => exact known drainUntil rfl
  have late : drain.getD (dropTime + 2 * config.deadline) ≤ dropTime + 2 * config.deadline := by
    cases drain with
    | none => exact le_rfl
    | some drainUntil => exact known drainUntil rfl
  have more : dropTime + 2 * config.deadline ≤ dropLimit config dropTime := Nat.le_add_right _ _
  cases runner with
  | finishing next =>
    cases next with
    | none => exact late.trans more
    | some _ => exact early.trans more
  | receiving => exact early.trans more
  | received _ => exact early.trans more
  | spawning _ _ => exact early.trans more
  | stopping => exact late.trans more
  | reaping _ => exact le_rfl
  | ended => exact le_rfl

theorem ceiling_mono (drain : Option Nat) :
    drain.getD (dropTime + config.deadline) ≤ drain.getD (dropTime + 2 * config.deadline) := by
  cases drain with
  | none =>
    rw [Option.getD_none, Option.getD_none]
    omega
  | some _ => exact le_rfl

theorem ceiling_afterFinish (drain : Option Nat) (next : Option (HookJob × String)) :
    ceiling config dropTime drain (afterFinish next) = ceiling config dropTime drain (.finishing next) := by
  cases next <;> rfl

/-- A wait ends before the ceiling. -/
theorem Bounded.waitUntil_le (bounded : s.Bounded config dropTime) {next : Option (HookJob × String)} {hook : RunningHook}
    (runner : s.runner = .finishing next) (running : s.running = some hook) :
    hook.waitUntil config.deadline s.drainUntil ≤ ceiling config dropTime s.drainUntil (.finishing next) := by
  cases drain : s.drainUntil with
  | some drainUntil => cases next <;> exact min_le_right _ _
  | none =>
    cases next with
    | none =>
      have started := bounded.started drain hook running
      dsimp only [RunningHook.waitUntil, ceiling, Option.getD_none]
      omega
    | some next =>
      have started := bounded.before drain next hook runner running
      dsimp only [RunningHook.waitUntil, ceiling, Option.getD_none]
      omega

theorem Bounded.handled (bounded : s.Bounded config dropTime) (same : SameThread s t) : t.Bounded config dropTime := by
  obtain ⟨time, drained, started, before, reaping⟩ := bounded
  refine ⟨?_, ?_, ?_, ?_, ?_⟩
  · rw [same.now, same.wakeAt, same.drain, same.runner]
    exact time
  · rw [same.drain]
    exact drained
  · rw [same.drain, same.running]
    exact started
  · rw [same.drain, same.running, same.runner]
    exact before
  · rw [same.runner]
    exact reaping

/-- The drop finds the thread in a wait of at most a deadline from now. -/
theorem Timed.bounded (timed : s.Timed config) (alive : s.handler = .alive) : s.Bounded config s.now := by
  have none := timed.alive.mpr alive
  have undrained := timed.draining none
  have early : s.runner.late ≠ true := by
    intro late
    have closed := timed.late late
    simp [queueClosed, alive] at closed
  have limit : ceiling config s.now s.drainUntil s.runner = s.now + config.deadline := by
    rw [undrained]
    cases runner : s.runner with
    | finishing next =>
      cases next with
      | none => exact absurd (by rw [runner]; rfl) early
      | some _ => rfl
    | receiving => rfl
    | received _ => rfl
    | spawning _ _ => rfl
    | stopping => exact absurd (by rw [runner]; rfl) early
    | reaping _ => exact absurd (by rw [runner]; rfl) early
    | ended => exact absurd (by rw [runner]; rfl) early
  refine ⟨?_, ?_, fun _ hook known => (timed.started hook known).trans (Nat.le_add_right _ _),
    fun _ _ hook _ known => timed.started hook known, fun reapUntil reaping => absurd (by rw [reaping]; rfl) early⟩
  · rw [limit]
    refine max_le (Nat.le_add_right _ _) ?_
    by_contra beyond
    rcases timed.asleep (by omega) with ⟨next, hook, _, running, wait⟩ | ⟨reapUntil, reaping⟩
    · rw [undrained] at wait
      have started := timed.started hook running
      dsimp only [RunningHook.waitUntil] at wait
      omega
    · exact absurd (by rw [reaping]; rfl) early
  · rw [undrained]
    intro drainUntil known
    cases known

/-- A step of the thread that does not send it to sleep, to a place that may be as late. -/
theorem Bounded.awake (bounded : s.Bounded config dropTime) (now : t.now = s.now)
    (wakeAt : t.wakeAt = s.wakeAt) (drain : t.drainUntil = s.drainUntil)
    (running : ∀ hook, t.running = some hook → s.running = some hook)
    (limit : ceiling config dropTime s.drainUntil s.runner ≤ ceiling config dropTime s.drainUntil t.runner)
    (finishing : ∀ next, t.runner ≠ .finishing (some next)) (reaping : ∀ reapUntil, t.runner ≠ .reaping reapUntil) :
    t.Bounded config dropTime where
  time := by
    rw [now, wakeAt, drain]
    exact bounded.time.trans limit
  drain := by
    rw [drain]
    exact bounded.drain
  started none hook known := bounded.started (drain.symm.trans none) hook (running hook known)
  before _ next _ known _ := absurd known (finishing next)
  reaping reapUntil known := absurd known (reaping reapUntil)

theorem afterFinish_finishing (next : Option (HookJob × String)) (other : HookJob × String) :
    afterFinish next ≠ .finishing (some other) := by
  cases next <;> simp [afterFinish]

theorem Bounded.finished (bounded : s.Bounded config dropTime) {next : Option (HookJob × String)}
    (runner : s.runner = .finishing next) (now : t.now = s.now)
    (wakeAt : t.wakeAt = s.wakeAt) (drain : t.drainUntil = s.drainUntil)
    (running : ∀ hook, t.running = some hook → s.running = some hook) (after : t.runner = afterFinish next) :
    t.Bounded config dropTime := by
  refine bounded.awake now wakeAt drain running ?_ ?_ ?_
  · rw [after, ceiling_afterFinish, runner]
  · rw [after]
    exact afterFinish_finishing next
  · rw [after]
    exact afterFinish_awake next

theorem Bounded.takeJob (bounded : s.Bounded config dropTime) (awake : s.wakeAt ≤ s.now) (flag : s.shuttingDown = true)
    {job : HookJob} (runner : s.runner = .received job) (fails : RunningHook → Bool) :
    (s.takeJob config fails job).Bounded config dropTime := by
  have time := bounded.time
  rw [max_eq_left awake, runner] at time
  have drain : ∃ drainUntil, (s.takeJob config fails job).drainUntil = some drainUntil ∧ s.now ≤ drainUntil ∧
      drainUntil ≤ dropTime + 2 * config.deadline := by
    cases known : s.drainUntil with
    | none =>
      rw [known] at time
      dsimp only [ceiling, Option.getD_none] at time
      refine ⟨s.now + config.deadline, ?_, by omega, by omega⟩
      simp [SessionHooks.takeJob, known, flag]
    | some drainUntil =>
      rw [known] at time
      refine ⟨drainUntil, ?_, time, bounded.drain drainUntil known⟩
      simp [SessionHooks.takeJob, known]
  obtain ⟨drainUntil, known, later, le⟩ := drain
  have limit : ceiling config dropTime (some drainUntil) (s.takeJob config fails job).runner = drainUntil := by
    unfold SessionHooks.takeJob
    dsimp only
    split <;> rfl
  refine ⟨?_, fun other same => ?_, fun none => ?_, fun none => ?_, fun reapUntil reaping => ?_⟩
  · rw [known, limit]
    exact max_le later (awake.trans later)
  · cases known.symm.trans same
    exact le
  · cases known.symm.trans none
  · cases known.symm.trans none
  · unfold SessionHooks.takeJob at reaping
    dsimp only at reaping
    split at reaping <;> cases reaping

theorem Bounded.runStep {fails : RunningHook → Bool} (timed : s.Timed config) (bounded : s.Bounded config dropTime)
    (dropped : s.droppedAt = some dropTime) (awake : s.wakeAt ≤ s.now) (step : RunStep config fails s t) :
    t.Bounded config dropTime := by
  have time := bounded.time
  rw [max_eq_left awake] at time
  have last : ∀ runner, s.runner = .receiving → runner = .finishing none ∨ runner = .stopping →
      ceiling config dropTime s.drainUntil s.runner ≤ ceiling config dropTime s.drainUntil runner := by
    intro runner receiving place
    rw [receiving]
    rcases place with rfl | rfl
    · exact ceiling_mono _
    · exact ceiling_mono _
  cases step with
  | receive runner _ => exact bounded.awake rfl rfl rfl (fun _ => id) (by rw [runner]; rfl) (by simp) (by simp)
  | lastEnd runner _ _ _ => exact bounded.awake rfl rfl rfl (fun _ => id) (last _ runner (.inl rfl)) (by simp) (by simp)
  | lastStart runner _ _ _ => exact bounded.awake rfl rfl rfl (by simp) (last _ runner (.inr rfl)) (by simp) (by simp)
  | lastNone runner _ _ _ => exact bounded.awake rfl rfl rfl (fun _ => id) (last _ runner (.inr rfl)) (by simp) (by simp)
  | takeJob runner =>
    have flag : s.shuttingDown = true := by rw [timed.flag, dropped]; rfl
    exact bounded.takeJob awake flag runner fails
  | nothing runner _ => exact bounded.finished runner rfl rfl rfl (fun _ => id) rfl
  | exited runner _ _ => exact bounded.finished runner rfl rfl rfl (by simp) rfl
  | @sleep next hook runner running early =>
    have limit := bounded.waitUntil_le runner running
    refine ⟨?_, bounded.drain, bounded.started, bounded.before, bounded.reaping⟩
    dsimp only
    rw [runner]
    omega
  | overdue runner _ _ => exact bounded.finished runner rfl rfl rfl (by simp) rfl
  | stop runner =>
    rw [runner] at time
    have limit : s.now ≤ dropTime + 2 * config.deadline := by
      dsimp only [ceiling] at time
      cases drain : s.drainUntil with
      | none =>
        rw [drain] at time
        exact time
      | some drainUntil =>
        rw [drain] at time
        exact le_trans time (bounded.drain drainUntil drain)
    have reapUntil_le : s.now + hookPollInterval * 4 ≤ dropLimit config dropTime := Nat.add_le_add_right limit _
    refine ⟨?_, bounded.drain, bounded.started, by simp, fun reapUntil reaping => ?_⟩
    · dsimp only [ceiling]
      rw [max_eq_left awake]
      exact (Nat.le_add_right _ _).trans reapUntil_le
    · cases reaping
      exact reapUntil_le
  | reaped runner =>
    exact bounded.awake rfl rfl rfl (fun _ => id) (by rw [runner]; rfl) (by simp) (by simp)
  | @doze reapUntil _ runner early =>
    have le := bounded.reaping reapUntil runner
    obtain ⟨turns, aligned⟩ := timed.doze awake runner early
    have wakes : s.now + hookPollInterval ≤ reapUntil := aligned ▸ Nat.le_add_right _ _
    refine ⟨?_, bounded.drain, bounded.started, bounded.before, bounded.reaping⟩
    dsimp only
    rw [runner]
    exact max_le (early.le.trans le) (wakes.trans le)

theorem Bounded.spawn (timed : s.Timed config) (bounded : s.Bounded config dropTime) {runs : Option Nat}
    (step : s.spawn runs = some t) : t.Bounded config dropTime := by
  obtain ⟨job, command, runner, rfl⟩ := spawn_step step
  have time := bounded.time
  rw [max_eq_left (timed.spawning_awake runner), runner] at time
  refine ⟨?_, bounded.drain, fun none hook known => ?_, by simp, by simp⟩
  · dsimp only
    rw [max_eq_left (timed.spawning_awake runner)]
    exact time
  · cases known
    dsimp only at none
    rw [none] at time
    exact time

theorem Bounded.spawnFails (bounded : s.Bounded config dropTime) (step : s.spawnFails = some t) :
    t.Bounded config dropTime := by
  obtain ⟨job, command, runner, rfl⟩ := spawnFails_step step
  exact bounded.awake rfl rfl rfl (by simp) (by rw [runner]; rfl) (by simp) (by simp)

theorem Bounded.pass (timed : s.Timed config) (bounded : s.Bounded config dropTime) (dropped : s.droppedAt = some dropTime)
    {time : Nat} (idle : s.Idle time) : Bounded config dropTime { s with now := s.now + time } := by
  refine ⟨?_, bounded.drain, bounded.started, bounded.before, bounded.reaping⟩
  rcases idle.2 with ⟨_, early⟩ | ⟨alive, _⟩
  · have limit := bounded.time
    dsimp only
    omega
  · cases dropped.symm.trans (timed.alive.mpr alive)

/-- The times are right before the drop and after it. -/
structure InTime (config : HookConfig) (s : SessionHooks) : Prop where
  timed : s.Timed config
  bounded : ∀ dropTime, s.droppedAt = some dropTime → s.Bounded config dropTime

theorem InTime.drop (inTime : s.InTime config) (step : DropStep s t) (dropped : t.droppedAt = some dropTime) :
    t.Bounded config dropTime := by
  have same := step.sameThread
  cases step with
  | begin alive =>
    cases dropped
    exact (inTime.timed.bounded alive).handled same
  | close _ => exact (inTime.bounded dropTime (s.sessionEnded_same.2.droppedAt.symm.trans dropped)).handled same
  | join _ => exact (inTime.bounded dropTime dropped).handled same
  | done _ _ => exact (inTime.bounded dropTime dropped).handled same

theorem RunStep.handler {fails : RunningHook → Bool} (step : RunStep config fails s t) : t.handler = s.handler := by
  cases step <;> rfl

theorem RunStep.droppedAt {fails : RunningHook → Bool} (step : RunStep config fails s t) : t.droppedAt = s.droppedAt := by
  cases step <;> rfl

theorem InTime.next (inTime : s.InTime config) {choice : HookChoice} (step : next config s choice = some t) :
    t.InTime config := by
  refine ⟨inTime.timed.next step, fun dropTime dropped => ?_⟩
  cases choice with
  | call job =>
    obtain ⟨_, same⟩ := Option.ite_none_right_eq_some.mp step
    cases same
    obtain ⟨same, _, droppedAt, _⟩ := s.call_same job
    exact (inTime.bounded dropTime (droppedAt ▸ dropped)).handled same
  | drop => exact inTime.drop (drop_step step) dropped
  | run fails =>
    obtain ⟨awake, step⟩ := run_step step
    have before : s.droppedAt = some dropTime := step.droppedAt.symm.trans dropped
    exact (inTime.bounded dropTime before).runStep inTime.timed before awake step
  | spawn runs =>
    obtain ⟨_, _, _, same⟩ := spawn_step step
    have before : s.droppedAt = some dropTime := by
      rw [same] at dropped
      exact dropped
    exact (inTime.bounded dropTime before).spawn inTime.timed step
  | spawnFails =>
    obtain ⟨_, _, _, same⟩ := spawnFails_step step
    have before : s.droppedAt = some dropTime := by
      rw [same] at dropped
      exact dropped
    exact (inTime.bounded dropTime before).spawnFails step
  | pass time =>
    obtain ⟨idle, same⟩ := Option.ite_none_right_eq_some.mp step
    cases same
    exact (inTime.bounded dropTime dropped).pass inTime.timed dropped idle

end SessionHooks

end HyprRdp
