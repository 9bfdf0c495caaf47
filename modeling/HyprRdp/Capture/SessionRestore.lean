import HyprRdp.Capture.Display

namespace HyprRdp

namespace HyprDisplay

/-- The operation of a session whose caller still waits for it. -/
def Live (job : DisplayJob) : Prop :=
  job.caller ≠ .restoreAfterSession ∧ job.caller ≠ .shutdown ∧ job.cancelled = false

instance : DecidablePred Live := fun _ => inferInstanceAs (Decidable (_ ∧ _ ∧ _))

/-- The server runs one session at a time: it forwards requests only inside a
session, and ends a session once, when no request of it is left. -/
def Served (s : HyprDisplay) (action : Action) : Prop :=
  match action with
  | .sessionStarted => s.sinkActive = false
  | .sessionEnded => s.sinkActive = true ∧ ∀ job ∈ s.job, ¬ Live job
  | .acquire caller => caller = .shutdown ∨ s.sinkActive = true
  | _ => True

instance (s : HyprDisplay) : DecidablePred s.Served
  | .sessionStarted => inferInstanceAs (Decidable (s.sinkActive = false))
  | .sessionEnded => inferInstanceAs (Decidable (s.sinkActive = true ∧ ∀ job ∈ s.job, ¬ Live job))
  | .acquire caller => inferInstanceAs (Decidable (caller = .shutdown ∨ s.sinkActive = true))
  | .acquireRestore _ | .close | .cancel | .decide | .check | .command _ | .query _ | .publish | .record | .finish | .join
  | .started _ | .readRefresh _ | .queryRefresh _ _ | .publishRefresh _ | .take | .dropUpdates | .sendOther
  | .deliverInitialResize | .recreateProcessor | .restartCapture | .endCapture => inferInstanceAs (Decidable True)

/-- The managed output is on record with its idle size. -/
def Idle (s : HyprDisplay) : Prop :=
  ∀ idle, s.inner.idleResolution = some idle → s.inner.resolution = idle ∧ s.inner.outputSizeUnconfirmed = false

/-- Every commit of a session is of this session or of an earlier one. -/
def UpTo (commits : List Commit) (session : Nat) : Prop :=
  ∀ commit ∈ commits, ∀ number, commit.author = .session number → number ≤ session

theorem UpTo.mono {commits : List Commit} {session later : Nat} (upTo : UpTo commits session) (le : session ≤ later) :
    UpTo commits later :=
  fun commit member number author => (upTo commit member number author).trans le

def ToIdle (s : HyprDisplay) (d : ResizeDecision) : Prop := ∀ idle, s.inner.idleResolution = some idle → d.size = idle

/-- A restore past its check is for the idle size. -/
def TargetsIdle (s : HyprDisplay) : DisplayStage → Prop
  | .acquired => True
  | .checked d | .resized d | .prepared d _ | .published d => s.ToIdle d
  | .decided _ | .failed | .stopped | .starting => False

/-- A restore that will see to the idle size: it is past its check, or will pass it. -/
def Restores (s : HyprDisplay) (job : DisplayJob) : Prop :=
  job.caller = .restoreAfterSession ∧ (job.stage = .acquired → job.session = s.sessionEpoch)

/-- The output is on record with its idle size, or somebody is still to see to that. -/
inductive Owed (s : HyprDisplay) : Prop
  | closed (closed : s.inner.closed = true)
  | failed (failed : s.failed = true)
  | active (active : s.sinkActive = true)
  | scheduled (scheduled : s.sessionEpoch ∈ s.restores)
  | restoring (job : DisplayJob) (held : s.job = some job) (restores : s.Restores job)
  | idle (idle : s.Idle)

structure JobServed (s : HyprDisplay) (job : DisplayJob) : Prop where
  session : job.session ≤ s.sessionEpoch
  live : Live job → s.sinkActive = true
  cancelled : job.cancelled = true → job.isRequest = true ∧ job.stage ≠ .acquired ∧ ∀ d, job.stage ≠ .published d
  shutdown : job.caller = .shutdown → job.stage = .acquired
  start : job.stage = .stopped ∨ job.stage = .starting → job.caller = .startCaptureUpdates
  restore : job.caller = .restoreAfterSession →
    s.TargetsIdle job.stage ∧ (job.stage ≠ .acquired → UpTo s.commits job.session)

structure Serviced (s : HyprDisplay) : Prop where
  sessions : UpTo s.commits s.sessionEpoch
  scheduled : ∀ epoch ∈ s.restores, epoch ≤ s.sessionEpoch
  ordered : s.commits.Pairwise fun newer older =>
    ∀ restored session, newer.author = .restore restored → older.author = .session session → session ≤ restored
  owed : s.Owed
  job : ∀ job, s.job = some job → s.JobServed job

variable {arith : Rounding} {s t : HyprDisplay} {job : DisplayJob} {d : ResizeDecision}

/-- Two states with the same sessions and commits. -/
structure SameHistory (s t : HyprDisplay) : Prop where
  sinkActive : t.sinkActive = s.sinkActive
  restores : t.restores = s.restores
  sessionEpoch : t.sessionEpoch = s.sessionEpoch
  commits : t.commits = s.commits
  idleResolution : t.inner.idleResolution = s.inner.idleResolution

theorem targetsIdle_congr (same : t.inner.idleResolution = s.inner.idleResolution) {stage : DisplayStage} :
    t.TargetsIdle stage = s.TargetsIdle stage := by
  unfold TargetsIdle ToIdle
  rw [same]

theorem SameHistory.jobServed (same : SameHistory s t) (served : s.JobServed job) : t.JobServed job where
  session := by rw [same.sessionEpoch]; exact served.session
  live isLive := same.sinkActive.trans (served.live isLive)
  cancelled := served.cancelled
  shutdown := served.shutdown
  start := served.start
  restore := by rw [same.commits, targetsIdle_congr same.idleResolution]; exact served.restore

theorem Serviced.carry (inv : s.Serviced) (same : SameHistory s t) (owed : t.Owed)
    (job : ∀ job, t.job = some job → t.JobServed job) : t.Serviced where
  sessions := by rw [same.commits, same.sessionEpoch]; exact inv.sessions
  scheduled := by rw [same.restores, same.sessionEpoch]; exact inv.scheduled
  ordered := by rw [same.commits]; exact inv.ordered
  owed := owed
  job := job

/-- Two states that agree on the sessions and on the size on record. -/
structure SameService (s t : HyprDisplay) : Prop where
  sinkActive : t.sinkActive = s.sinkActive
  restores : t.restores = s.restores
  sessionEpoch : t.sessionEpoch = s.sessionEpoch
  resolution : t.inner.resolution = s.inner.resolution
  unconfirmed : t.inner.outputSizeUnconfirmed = s.inner.outputSizeUnconfirmed
  idleResolution : t.inner.idleResolution = s.inner.idleResolution
  closed : s.inner.closed = true → t.inner.closed = true
  failed : s.failed = true → t.failed = true

theorem SameService.history (same : SameService s t) (commits : t.commits = s.commits) : SameHistory s t :=
  ⟨same.sinkActive, same.restores, same.sessionEpoch, commits, same.idleResolution⟩

/-- What is owed stays owed, unless it was owed by a job that is gone. -/
theorem SameService.owed (same : SameService s t) (owed : s.Owed)
    (job : ∀ job, s.job = some job → s.Restores job → t.Owed) : t.Owed := by
  cases owed with
  | closed closed => exact .closed (same.closed closed)
  | failed failed => exact .failed (same.failed failed)
  | active active => exact .active (same.sinkActive.trans active)
  | scheduled scheduled => exact .scheduled (by rw [same.sessionEpoch, same.restores]; exact scheduled)
  | restoring held isHeld restores => exact job held isHeld restores
  | idle idle =>
    refine .idle fun size isSize => ?_
    rw [same.resolution, same.unconfirmed]
    exact idle size (same.idleResolution.symm.trans isSize)

theorem Serviced.keep (inv : s.Serviced) (same : SameService s t) (commits : t.commits = s.commits) (sameJob : t.job = s.job) :
    t.Serviced := by
  refine inv.carry (same.history commits) (same.owed inv.owed fun job held restores => ?_) fun job held => ?_
  · refine .restoring job (sameJob.trans held) ⟨restores.1, ?_⟩
    rw [same.sessionEpoch]
    exact restores.2
  · exact (same.history commits).jobServed (inv.job job (sameJob.symm.trans held))

/-- The job goes, or goes on; if it was the restore owed, it still is or nothing is owed any more. -/
theorem Serviced.advance (inv : s.Serviced) (same : SameService s t) (commits : t.commits = s.commits) (held : s.job = some job)
    (owed : s.Restores job → t.Owed) (served : ∀ next, t.job = some next → t.JobServed next) : t.Serviced := by
  refine inv.carry (same.history commits) (same.owed inv.owed fun other isJob restores => ?_) served
  cases held.symm.trans isJob
  exact owed restores

/-- The operation of an active session may change anything but the sessions. -/
theorem Serviced.operate (inv : s.Serviced) (same : SameHistory s t) (held : s.job = some job) (live : Live job)
    (served : ∀ next, t.job = some next → t.JobServed next) : t.Serviced :=
  inv.carry same (.active (same.sinkActive.trans ((inv.job job held).live live))) served

theorem noJob (none : t.job = none) : ∀ next, t.job = some next → t.JobServed next :=
  fun _ isNext => absurd (none.symm.trans isNext) (Option.some_ne_none _).symm

/-- A job goes on to a later stage. -/
theorem JobServed.atStage (served : s.JobServed job) {stage : DisplayStage} (started : stage ≠ .acquired)
    (passed : job.caller = .restoreAfterSession → s.TargetsIdle stage ∧ UpTo s.commits job.session)
    (uncancelled : job.cancelled = true → ∀ d, stage ≠ .published d) (shuts : job.caller ≠ .shutdown)
    (start : stage = .stopped ∨ stage = .starting → job.caller = .startCaptureUpdates) :
    s.JobServed { job with stage } where
  session := served.session
  live := served.live
  cancelled isCancelled := ⟨(served.cancelled isCancelled).1, started, uncancelled isCancelled⟩
  shutdown isShutdown := absurd isShutdown shuts
  start := start
  restore isRestore := ⟨(passed isRestore).1, fun _ => (passed isRestore).2⟩

theorem JobServed.uncancelled (served : s.JobServed job) (stage : job.stage = .acquired) : job.cancelled = false :=
  Bool.eq_false_iff.mpr fun cancelled => (served.cancelled cancelled).2.1 stage

theorem sameHistory_willResize (stage : DisplayStage) :
    SameHistory s ({ s with inner := s.inner.willResize d }.atStage job stage) :=
  ⟨rfl, rfl, rfl, rfl, HyprDisplayInner.willResize_idleResolution _ _⟩

/-- A live operation decides on a resize. -/
theorem Serviced.decideLive (inv : s.Serviced) (held : s.job = some job) (live : Live job) {stage : DisplayStage}
    (started : stage ≠ .acquired) (unpublished : ∀ d, stage ≠ .published d) (resizes : stage ≠ .stopped ∧ stage ≠ .starting) :
    ({ s with inner := s.inner.willResize d }.atStage job stage).Serviced := by
  refine inv.operate (sameHistory_willResize stage) held live fun next isNext => ?_
  cases isNext
  have served := inv.job job held
  exact (sameHistory_willResize stage).jobServed
    (served.atStage started (fun isRestore => absurd isRestore live.1) (fun _ => unpublished) live.2.1
      fun starts => (starts.elim resizes.1 resizes.2).elim)

theorem Serviced.decideRestore (inv : s.Serviced) (held : s.job = some job) (stage : job.stage = .acquired)
    (isRestore : job.caller = .restoreAfterSession) : (s.decideRestore job).Serviced := by
  have served := inv.job job held
  unfold HyprDisplay.decideRestore
  split
  · rename_i overtaken
    refine inv.advance ⟨rfl, rfl, rfl, rfl, rfl, rfl, id, id⟩ rfl held (fun restores => ?_) (noJob rfl)
    have current := restores.2 stage
    rcases overtaken with closed | later
    · exact .closed closed
    · exact absurd current.symm later
  · rename_i current
    split
    · rename_i physical
      exact inv.carry ⟨rfl, rfl, rfl, rfl, rfl⟩ (.idle fun idle isIdle => nomatch physical.symm.trans isIdle) (noJob rfl)
    · rename_i idle isIdle
      split
      · rename_i already
        refine inv.carry ⟨rfl, rfl, rfl, rfl, rfl⟩ (.idle fun size isSize => ?_) (noJob rfl)
        cases isIdle.symm.trans isSize
        have confirmed : s.inner.outputSizeUnconfirmed = false := by simpa using already.2
        exact ⟨already.1, confirmed⟩
      · have same : s.sessionEpoch = job.session := by
          by_contra later
          exact current (.inr later)
        have target : s.TargetsIdle (.checked ⟨.managedHeadlessOutput, idle.1, idle.2⟩) := fun size isSize => by
          cases isIdle.symm.trans isSize
          rfl
        refine inv.carry (sameHistory_willResize _) (.restoring _ rfl ⟨isRestore, nofun⟩) fun next isNext => ?_
        cases isNext
        exact (sameHistory_willResize _).jobServed (served.atStage nofun (fun _ => ⟨target, same ▸ inv.sessions⟩)
          (fun _ => nofun) (by rw [isRestore]; nofun) (fun starts => nomatch starts))

theorem Serviced.decideJob (inv : s.Serviced) (held : s.job = some job) (stage : job.stage = .acquired) :
    (s.decide arith job).Serviced := by
  have served := inv.job job held
  have uncancelled := served.uncancelled stage
  unfold HyprDisplay.decide
  split
  · rename_i client isRequest
    have live : Live job := by rw [Live, isRequest]; exact ⟨nofun, nofun, uncancelled⟩
    unfold decideRequest
    dsimp only
    split
    · exact inv.decideLive held live nofun nofun ⟨nofun, nofun⟩
    · exact inv.operate ⟨rfl, rfl, rfl, rfl, rfl⟩ held live (noJob rfl)
  · rename_i layout isLayout
    have live : Live job := by rw [Live, isLayout]; exact ⟨nofun, nofun, uncancelled⟩
    unfold decideLayout
    dsimp only
    split
    · exact inv.decideLive held live nofun nofun ⟨nofun, nofun⟩
    · exact inv.operate ⟨rfl, rfl, rfl, rfl, rfl⟩ held live (noJob rfl)
  · rename_i isRestore
    exact inv.decideRestore held stage isRestore
  · rename_i isStart
    have live : Live job := by rw [Live, isStart]; exact ⟨nofun, nofun, uncancelled⟩
    unfold decideStart
    split
    · exact inv.operate ⟨rfl, rfl, rfl, rfl, rfl⟩ held live (noJob rfl)
    · refine inv.operate ⟨rfl, rfl, rfl, rfl, rfl⟩ held live fun next isNext => ?_
      cases isNext
      exact SameHistory.jobServed (s := s) ⟨rfl, rfl, rfl, rfl, rfl⟩
        (served.atStage nofun (fun isRestore => absurd isRestore live.1) (fun _ => nofun) live.2.1 fun _ => isStart)
  · rename_i isShutdown
    refine inv.advance ⟨rfl, rfl, rfl, rfl, rfl, rfl, id, id⟩ rfl held (fun restores => ?_) (noJob rfl)
    exact absurd (isShutdown.symm.trans restores.1) nofun

theorem isRequest_caller (isRequest : job.isRequest = true) :
    job.caller ≠ .restoreAfterSession ∧ job.caller ≠ .shutdown ∧ job.caller ≠ .startCaptureUpdates := by
  unfold DisplayJob.isRequest at isRequest
  split at isRequest
  · rename_i client isCaller
    rw [isCaller]
    exact ⟨nofun, nofun, nofun⟩
  · cases isRequest

/-- The job goes on with its resize, and a restore stays one. -/
theorem Serviced.proceed (inv : s.Serviced) (same : SameService s t) (commits : t.commits = s.commits)
    (held : s.job = some job) (was : job.stage ≠ .acquired) {stage : DisplayStage} (isNext : t.job = some { job with stage })
    (started : stage ≠ .acquired) (unpublished : ∀ d, stage ≠ .published d)
    (resizes : stage ≠ .stopped ∧ stage ≠ .starting) (target : s.TargetsIdle job.stage → s.TargetsIdle stage) :
    t.Serviced := by
  have served := inv.job job held
  refine inv.advance same commits held (fun restores => .restoring _ isNext ⟨restores.1, fun acquired => absurd acquired started⟩)
    fun next isJob => ?_
  cases isNext.symm.trans isJob
  refine (same.history commits).jobServed (served.atStage started (fun isRestore => ?_) (fun _ => unpublished)
    (fun isShutdown => was (served.shutdown isShutdown)) fun starts => (starts.elim resizes.1 resizes.2).elim)
  have restore := served.restore isRestore
  exact ⟨target restore.1, restore.2 was⟩

theorem Serviced.fail (inv : s.Serviced) (held : s.job = some job) : (s.fail job).Serviced := by
  have served := inv.job job held
  unfold HyprDisplay.fail
  split
  · rename_i isRequest
    obtain ⟨notRestore, notShutdown, _⟩ := isRequest_caller isRequest
    refine inv.carry ⟨rfl, rfl, rfl, rfl, rfl⟩ (.failed rfl) fun next isNext => ?_
    cases isNext
    exact SameHistory.jobServed (s := s) ⟨rfl, rfl, rfl, rfl, rfl⟩
      (served.atStage nofun (fun isRestore => absurd isRestore notRestore) (fun _ => nofun) notShutdown
        fun starts => nomatch starts)
  · exact inv.carry ⟨rfl, rfl, rfl, rfl, rfl⟩ (.failed rfl) (noJob rfl)

theorem Serviced.command (inv : s.Serviced) (held : s.job = some job) (stage : job.stage = .checked d)
    (failure : Option (Nat × Nat)) : (s.command job d failure).Serviced := by
  have was : job.stage ≠ .acquired := by
    rw [stage]
    exact nofun
  have target : s.TargetsIdle job.stage → s.TargetsIdle (.resized d) := by
    rw [stage]
    exact id
  unfold HyprDisplay.command
  split
  · exact inv.proceed ⟨rfl, rfl, rfl, rfl, rfl, rfl, id, id⟩ rfl held was rfl nofun nofun ⟨nofun, nofun⟩ target
  · exact inv.proceed ⟨rfl, rfl, rfl, rfl, rfl, rfl, id, id⟩ rfl held was rfl nofun nofun ⟨nofun, nofun⟩ target
  · rename_i mode _
    have changed : Serviced { s with mode } := inv.keep ⟨rfl, rfl, rfl, rfl, rfl, rfl, id, id⟩ rfl rfl
    exact changed.fail held

theorem Serviced.query (inv : s.Serviced) (held : s.job = some job) (stage : job.stage = .resized d) (source : Option Size) :
    (s.query job d source).Serviced := by
  unfold HyprDisplay.query
  split
  · refine inv.proceed ⟨rfl, rfl, rfl, rfl, rfl, rfl, id, id⟩ rfl held (by rw [stage]; nofun) rfl nofun nofun ⟨nofun, nofun⟩ ?_
    rw [stage]
    exact id
  · exact inv.fail held

/-- A request is let go without a commit. -/
theorem Serviced.drop (inv : s.Serviced) (same : SameService s t) (commits : t.commits = s.commits) (held : s.job = some job)
    (isRequest : job.isRequest = true) (free : t.job = none) : t.Serviced :=
  inv.advance same commits held (fun restores => absurd restores.1 (isRequest_caller isRequest).1)
    fun _ isJob => nomatch free.symm.trans isJob

theorem Serviced.publish {geometry : PresentationGeometry} (inv : s.Serviced) (held : s.job = some job)
    (stage : job.stage = .prepared d geometry) : (s.publish job d geometry).Serviced := by
  have served := inv.job job held
  have was : job.stage ≠ .acquired := by
    rw [stage]
    exact nofun
  unfold HyprDisplay.publish
  split
  · rename_i dropped
    exact inv.drop ⟨rfl, rfl, rfl, rfl, rfl, rfl, id, id⟩ rfl held ((Bool.and_eq_true _ _).mp dropped).1 rfl
  rename_i present
  split
  · rename_i closed
    exact inv.drop ⟨rfl, rfl, rfl, rfl, rfl, rfl, id, id⟩ rfl held ((Bool.and_eq_true _ _).mp closed).1 rfl
  have uncancelled : job.cancelled = false := Bool.eq_false_iff.mpr fun cancelled =>
    present (by rw [(served.cancelled cancelled).1, cancelled]; rfl)
  have restored : ∀ restored, job.author = .restore restored → job.caller = .restoreAfterSession ∧ restored = job.session := by
    intro restored author
    unfold DisplayJob.author at author
    split at author
    · rename_i isRestore
      cases author
      exact ⟨isRestore, rfl⟩
    · cases author
  have number : ∀ number, job.author = .session number → number = job.session ∧ job.caller ≠ .restoreAfterSession := by
    intro number author
    unfold DisplayJob.author at author
    split at author
    · cases author
    · rename_i notRestore
      cases author
      exact ⟨rfl, notRestore⟩
  refine ⟨?_, inv.scheduled, ?_, ?_, fun next isNext => ?_⟩
  · rintro commit member session author
    rcases List.mem_cons.mp member with rfl | older
    · rw [(number session author).1]
      exact served.session
    · exact inv.sessions commit older session author
  · refine List.pairwise_cons.mpr ⟨fun older member restoredEpoch session byRestore bySession => ?_, inv.ordered⟩
    obtain ⟨isRestore, rfl⟩ := restored restoredEpoch byRestore
    exact (served.restore isRestore).2 was older member session bySession
  · refine SameService.owed (s := s) ⟨rfl, rfl, rfl, rfl, rfl, rfl, id, id⟩ inv.owed fun other isJob restores => ?_
    cases held.symm.trans isJob
    exact .restoring _ rfl ⟨restores.1, nofun⟩
  · cases isNext
    refine ⟨served.session, served.live, fun cancelled => absurd (uncancelled.symm.trans cancelled) nofun,
      fun isShutdown => absurd (served.shutdown isShutdown) was, (fun starts => nomatch starts), fun isRestore => ?_⟩
    obtain ⟨target, upTo⟩ := served.restore isRestore
    rw [stage] at target
    refine ⟨target, fun _ commit member session author => ?_⟩
    rcases List.mem_cons.mp member with rfl | older
    · exact absurd isRestore (number session author).2
    · exact upTo was commit older session author

/-- A restore has brought the display back to its idle size. -/
theorem Serviced.record (inv : s.Serviced) (held : s.job = some job) (stage : job.stage = .published d) :
    (s.record job d).Serviced := by
  have served := inv.job job held
  have uncancelled : job.cancelled = false := Bool.eq_false_iff.mpr fun cancelled =>
    (served.cancelled cancelled).2.2 d stage
  unfold HyprDisplay.record
  dsimp only
  split
  · rename_i client isRequest
    have live : Live job := by rw [Live, isRequest]; exact ⟨nofun, nofun, uncancelled⟩
    exact inv.operate ⟨rfl, rfl, rfl, rfl, rfl⟩ held live (noJob rfl)
  · rename_i layout isLayout
    have live : Live job := by rw [Live, isLayout]; exact ⟨nofun, nofun, uncancelled⟩
    exact inv.operate ⟨rfl, rfl, rfl, rfl, rfl⟩ held live (noJob rfl)
  · rename_i isRestore
    have target := (served.restore isRestore).1
    rw [stage] at target
    exact inv.carry ⟨rfl, rfl, rfl, rfl, rfl⟩ (.idle fun idle isIdle => ⟨target idle isIdle, rfl⟩) (noJob rfl)
  · rename_i isStart
    have live : Live job := by rw [Live, isStart]; exact ⟨nofun, nofun, uncancelled⟩
    exact inv.operate ⟨rfl, rfl, rfl, rfl, rfl⟩ held live (noJob rfl)
  · rename_i isShutdown
    exact absurd ((served.shutdown isShutdown).symm.trans stage) nofun

/-- A capture start goes on or ends. -/
theorem Serviced.start (inv : s.Serviced) (same : SameHistory s t) (held : s.job = some job)
    (stage : job.stage = .stopped ∨ job.stage = .starting)
    (next : t.job = none ∨ t.job = some { job with stage := .starting }) : t.Serviced := by
  have served := inv.job job held
  have isStart := served.start stage
  have uncancelled : job.cancelled = false := Bool.eq_false_iff.mpr fun cancelled =>
    absurd isStart (isRequest_caller (served.cancelled cancelled).1).2.2
  have live : Live job := by rw [Live, isStart]; exact ⟨nofun, nofun, uncancelled⟩
  refine inv.operate same held live fun other isNext => ?_
  rcases next with free | isStarting
  · cases free.symm.trans isNext
  · cases isStarting.symm.trans isNext
    exact same.jobServed
      (served.atStage nofun (fun isRestore => absurd isRestore live.1) (fun _ => nofun) live.2.1 fun _ => isStart)

theorem Serviced.next {action : Action} (inv : s.Serviced) (guard : s.Served action) (step : s.next arith action = some t) :
    t.Serviced := by
  cases next_step step with
  | sessionStarted =>
    refine ⟨inv.sessions.mono (Nat.le_succ _), fun epoch member => (inv.scheduled epoch member).trans (Nat.le_succ _),
      inv.ordered, .active rfl, fun job held => ?_⟩
    have served := inv.job job held
    exact ⟨served.session.trans (Nat.le_succ _), fun _ => rfl, served.cancelled, served.shutdown, served.start,
      served.restore⟩
  | sessionEnded =>
    rw [if_pos guard.1]
    refine ⟨inv.sessions, fun epoch member => ?_, inv.ordered, .scheduled ?_, fun job held => ?_⟩
    · rcases List.mem_append.mp member with older | last
      · exact inv.scheduled epoch older
      · exact (List.mem_singleton.mp last).le
    · exact List.mem_append_right _ (List.mem_singleton.mpr rfl)
    · have served := inv.job job held
      exact ⟨served.session, fun live => absurd live (guard.2 job held), served.cancelled, served.shutdown, served.start,
        served.restore⟩
  | ignored => exact inv
  | acquire idle notRestore _ =>
    refine inv.carry ⟨rfl, rfl, rfl, rfl, rfl⟩ (SameService.owed (s := s) ⟨rfl, rfl, rfl, rfl, rfl, rfl, id, id⟩ inv.owed
      fun job held _ => nomatch idle.symm.trans held) fun job held => ?_
    cases held
    refine ⟨le_rfl, fun live => ?_, nofun, fun _ => rfl, (fun starts => nomatch starts),
      fun isRestore => absurd isRestore notRestore⟩
    exact guard.resolve_left live.2.1
  | @acquireRestore epoch idle member =>
    refine ⟨inv.sessions, fun other isOther => inv.scheduled other (List.mem_of_mem_erase isOther), inv.ordered, ?_,
      fun job held => ?_⟩
    · cases inv.owed with
      | closed closed => exact .closed closed
      | failed failed => exact .failed failed
      | active active => exact .active active
      | scheduled scheduled =>
        by_cases last : epoch = s.sessionEpoch
        · exact .restoring _ rfl ⟨rfl, fun _ => last⟩
        · exact .scheduled ((List.mem_erase_of_ne (Ne.symm last)).mpr scheduled)
      | restoring job held => cases idle.symm.trans held
      | idle isIdle => exact .idle isIdle
    · cases held
      exact ⟨inv.scheduled epoch member, fun live => absurd rfl live.1, nofun, fun _ => rfl, (fun starts => nomatch starts),
        fun _ => ⟨trivial, fun acquired => absurd rfl acquired⟩⟩
  | close => exact inv.keep ⟨rfl, rfl, rfl, rfl, rfl, rfl, fun _ => rfl, id⟩ rfl rfl
  | withdraw held isRequest _ => exact inv.drop ⟨rfl, rfl, rfl, rfl, rfl, rfl, id, id⟩ rfl held isRequest rfl
  | @cancel job held isRequest acquired published =>
    have served := inv.job job held
    refine inv.advance ⟨rfl, rfl, rfl, rfl, rfl, rfl, id, id⟩ rfl held
      (fun restores => absurd restores.1 (isRequest_caller isRequest).1) fun next isNext => ?_
    cases isNext
    exact ⟨served.session, (fun live => nomatch live.2.2), fun _ => ⟨isRequest, acquired, published⟩, served.shutdown,
      served.start, served.restore⟩
  | decide held stage => exact inv.decideJob held stage
  | @check job d held stage =>
    have served := inv.job job held
    have was : job.stage ≠ .acquired := by
      rw [stage]
      exact nofun
    refine inv.proceed ⟨rfl, rfl, rfl, rfl, rfl, rfl, id, id⟩ rfl held was rfl ?_ ?_ ?_ ?_
    · split <;> nofun
    · split <;> nofun
    · split <;> exact ⟨nofun, nofun⟩
    · rw [stage]
      exact False.elim
  | command failure held stage => exact inv.command held stage failure
  | query source held stage => exact inv.query held stage source
  | publish held stage => exact inv.publish held stage
  | record held stage => exact inv.record held stage
  | @finish job held stage =>
    have served := inv.job job held
    have notRestore : s.Restores job → False := fun restores => by
      have target := (served.restore restores.1).1
      rw [stage] at target
      exact target
    split <;>
      exact inv.advance ⟨rfl, rfl, rfl, rfl, rfl, rfl, id, id⟩ rfl held (fun restores => (notRestore restores).elim) (noJob rfl)
  | join held stage =>
    unfold HyprDisplay.startCapture
    split
    · exact inv.start ⟨rfl, rfl, rfl, rfl, rfl⟩ held (.inl stage) (.inl rfl)
    · exact inv.start ⟨rfl, rfl, rfl, rfl, rfl⟩ held (.inl stage) (.inr rfl)
  | started info held stage =>
    unfold HyprDisplay.started
    split <;> exact inv.start ⟨rfl, rfl, rfl, rfl, rfl⟩ held (.inr stage) (.inl rfl)
  | readRefresh _ => exact inv.keep ⟨rfl, rfl, rfl, rfl, rfl, rfl, id, id⟩ rfl rfl
  | queryRefresh _ _ => exact inv.keep ⟨rfl, rfl, rfl, rfl, rfl, rfl, id, id⟩ rfl rfl
  | publishRefresh _ => exact inv.keep ⟨rfl, rfl, rfl, rfl, rfl, rfl, id, id⟩ rfl rfl
  | takeResize _ _ => exact inv.keep ⟨rfl, rfl, rfl, rfl, rfl, rfl, id, id⟩ rfl rfl
  | takeOther _ _ => exact inv.keep ⟨rfl, rfl, rfl, rfl, rfl, rfl, id, id⟩ rfl rfl
  | dropUpdates _ => exact inv.keep ⟨rfl, rfl, rfl, rfl, rfl, rfl, id, id⟩ rfl rfl
  | sendOther => exact inv.keep ⟨rfl, rfl, rfl, rfl, rfl, rfl, id, id⟩ rfl rfl
  | deliverInitialResize _ => exact inv.keep ⟨rfl, rfl, rfl, rfl, rfl, rfl, id, id⟩ rfl rfl
  | recreateProcessor _ => exact inv.keep ⟨rfl, rfl, rfl, rfl, rfl, rfl, id, id⟩ rfl rfl
  | restartCapture _ => exact inv.keep ⟨rfl, rfl, rfl, rfl, rfl, rfl, id, id⟩ rfl rfl
  | endCapture => exact inv.keep ⟨rfl, rfl, rfl, rfl, rfl, rfl, id, id⟩ rfl rfl

variable {output : Option String} {resolutionFixed : Bool} {resolution : Nat × Nat} {source : Size}

theorem new_serviced (made : new arith output resolutionFixed resolution source = some s) : s.Serviced := by
  unfold HyprDisplay.new at made
  dsimp only at made
  obtain ⟨presentation, _, rfl⟩ := Option.map_eq_some_iff.mp made
  refine ⟨fun commit member number author => ?_, nofun, List.pairwise_singleton _ _, .idle fun idle isIdle => ?_, noJob rfl⟩
  · cases List.mem_singleton.mp member
    cases author
  · obtain ⟨_, same⟩ := Option.ite_none_right_eq_some.mp isIdle
    exact ⟨Option.some.inj same, rfl⟩

theorem reach_serviced (reach : ((runs arith output resolutionFixed resolution source).guarded Served).Reach s) :
    s.Serviced := by
  have kept : ((runs arith output resolutionFixed resolution source).guarded Served).Inductive Serviced :=
    ⟨fun _ made => new_serviced made, fun _ _ _ inv step => inv.next step.1 step.2⟩
  exact kept.reach reach

/-- No restore is committed after a size of a later session, nor gets past its
check after one; and once no session is active and nothing is under way, a
managed output is on record with its idle size, unless the display has closed or
a resize command or a layout query has failed. -/
theorem restore_safe_and_effective (reach : ((runs arith output resolutionFixed resolution source).guarded Served).Reach s) :
    (s.commits.Pairwise fun newer older =>
      ∀ restored session, newer.author = .restore restored → older.author = .session session → session ≤ restored) ∧
    (∀ job, s.job = some job → job.caller = .restoreAfterSession → job.stage ≠ .acquired →
      ∀ commit ∈ s.commits, ∀ session, commit.author = .session session → session ≤ job.session) ∧
    (s.sinkActive = false → s.restores = [] → s.job = none → s.inner.closed = false → s.failed = false →
      ∀ idle, s.inner.idleResolution = some idle →
        s.inner.resolution = idle ∧ s.inner.outputSizeUnconfirmed = false) := by
  have inv := reach_serviced reach
  refine ⟨inv.ordered, fun job held isRestore started => ((inv.job job held).restore isRestore).2 started,
    fun inactive unscheduled free opened unfailed => ?_⟩
  cases inv.owed with
  | closed closed => exact absurd (opened.symm.trans closed) nofun
  | failed failed => exact absurd (unfailed.symm.trans failed) nofun
  | active active => exact absurd (inactive.symm.trans active) nofun
  | scheduled scheduled =>
    rw [unscheduled] at scheduled
    cases scheduled
  | restoring job held => cases free.symm.trans held
  | idle idle => exact idle

/-- A session that asks for 1280 by 720 and ends. -/
def shortSession : List Action :=
  [.sessionStarted, .acquire (.requestInitialSize ⟨1280, 720⟩), .decide, .check, .command none,
    .query (some wideSize), .publish, .record, .sessionEnded]

/-- The restore after it, on its own. -/
def idleRestore : List Action :=
  [.acquireRestore 1, .decide, .command none, .query (some smallSize), .publish, .record]

/-- While the restore is at work the size of its session is committed, and afterwards the output is idle again. -/
theorem restore_safe_and_effective_once :
    (∃ s job, ((runs .double none false (800, 600) smallSize).guarded Served).Reach s ∧
      s.job = some job ∧ s.commits.length = 2 ∧
      ∀ commit ∈ s.commits, ∀ session, commit.author = .session session → session ≤ job.session) ∧
    (∃ s, ((runs .double none false (800, 600) smallSize).guarded Served).Reach s ∧
      s.commits.length = 3 ∧ s.inner.resolution = (800, 600) ∧ s.inner.outputSizeUnconfirmed = false) := by
  let exec := StepSystem.exec fun (s : HyprDisplay) action => if s.Served action then s.next .double action else none
  refine ⟨?_, ?_⟩
  · have run : ((smallDisplay.bind fun s => exec s (shortSession ++ idleRestore.take 3)).bind fun s =>
        s.job.bind fun job => if job.caller = .restoreAfterSession ∧ job.isResized = true then some (s, job) else none).map
          (fun seen => seen.1.commits.length) = some 2 := by
      decide
    obtain ⟨⟨s, job⟩, run, two⟩ := Option.map_eq_some_iff.mp run
    obtain ⟨u, run, held⟩ := Option.bind_eq_some_iff.mp run
    obtain ⟨other, held, stage⟩ := Option.bind_eq_some_iff.mp held
    obtain ⟨⟨isRestore, resized⟩, same⟩ := Option.ite_none_right_eq_some.mp stage
    cases same
    obtain ⟨d, resized⟩ := job.stage_of_isResized resized
    have reach := small_exec _ run
    have started : job.stage ≠ .acquired := fun acquired => DisplayStage.noConfusion (resized.symm.trans acquired)
    exact ⟨s, job, reach, held, two, (restore_safe_and_effective reach).2.1 job held isRestore started⟩
  · have run : (smallDisplay.bind fun s => exec s (shortSession ++ idleRestore)).map
        (fun s => (s.commits.length, [s.sinkActive, s.inner.closed, s.failed, s.job.isSome, !s.restores.isEmpty],
          s.inner.idleResolution)) = some (3, [false, false, false, false, false], some (800, 600)) := by
      decide
    obtain ⟨s, run, seen⟩ := Option.map_eq_some_iff.mp run
    simp only [Prod.mk.injEq, List.cons.injEq, and_true] at seen
    obtain ⟨three, ⟨inactive, opened, unfailed, free, scheduled⟩, isIdle⟩ := seen
    have unscheduled : s.restores = [] := by simpa using scheduled
    have free : s.job = none := Option.isSome_eq_false_iff.mp free |> Option.isNone_iff_eq_none.mp
    have reach := small_exec _ run
    exact ⟨s, reach, three, (restore_safe_and_effective reach).2.2 inactive unscheduled free opened unfailed _ isIdle⟩

end HyprDisplay

end HyprRdp
