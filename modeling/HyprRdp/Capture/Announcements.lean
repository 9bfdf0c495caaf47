import HyprRdp.Capture.DisplayAgreement

namespace HyprRdp

/-- The sizes announced in a queue. -/
def resizes (queue : List DisplayUpdate) : List DesktopSize :=
  queue.filterMap fun update => match update with
    | .resize size => some size
    | .other => none

@[simp] theorem resizes_append (queue more : List DisplayUpdate) : resizes (queue ++ more) = resizes queue ++ resizes more :=
  List.filterMap_append

@[simp] theorem resizes_other (queue : List DisplayUpdate) : resizes (.other :: queue) = resizes queue := rfl

@[simp] theorem resizes_resize (size : DesktopSize) (queue : List DisplayUpdate) :
    resizes (.resize size :: queue) = size :: resizes queue := rfl

@[simp] theorem resizes_nil : resizes [] = [] := rfl

/-- A capture start is at work, and then on its last step. -/
def DisplayStage.starts : DisplayStage → Bool
  | .stopped | .starting => true
  | _ => false

def DisplayStage.isStarting : DisplayStage → Bool
  | .starting => true
  | _ => false

namespace HyprDisplay

/-- The client draws on the update channel, or will do so once a capture start is over. -/
def attached (s : HyprDisplay) : Bool :=
  s.channel.received && (!s.inner.updateRx || s.job.any fun job => job.stage.isStarting)

/-- What the client was told last, if anything, is the desktop size. -/
def Informed (s : HyprDisplay) : Prop := ∀ size ∈ s.told, size = s.inner.desktopSize

/-- The capture thread has no copy of an initial resize. -/
def NoCopy (s : HyprDisplay) : Prop := ∀ thread ∈ s.capture, thread.pendingInitialResize = none

/-- The desktop size that the operation is about to put on record. -/
def recordedSize (job : DisplayJob) : Option DesktopSize :=
  match job.stage with
  | .published d => some ⟨d.width % 2 ^ 16, d.height % 2 ^ 16⟩
  | _ => none

/-- A new size is announced, and nothing older can follow it. -/
def Announceable (s : HyprDisplay) (job : DisplayJob) : Prop :=
  match job.caller with
  | .requestLayout _ => s.channel.hasRoom = true ∧ s.inner.pendingInitialResize = none ∧ s.NoCopy
  | .requestInitialSize _ => s.attached = true → resizes s.channel.queue = [] ∧ s.NoCopy
  | .restoreAfterSession | .startCaptureUpdates | .shutdown => True

/-- A size that differs from the last one is announceable when it is recorded; a
channel is discarded only when the client of the session is informed; a refresh
publishes only what is up to date; and a session starts with a channel of its own. -/
def Announced (s : HyprDisplay) (action : Action) : Prop :=
  match action with
  | .sessionStarted => s.sinkActive = false ∧ s.attached = false
  | .record => ∀ job ∈ s.job, recordedSize job = some s.inner.desktopSize ∨ s.Announceable job
  | .decide => s.sinkActive = true → s.inner.updateRx = true → (∃ job ∈ s.job, job.caller = .startCaptureUpdates) → s.Informed
  | .join | .started none | .dropUpdates => s.sinkActive = true → s.Informed
  | .publishRefresh i => UpToDate s.commits (s.refreshes i)
  | _ => True

instance (s : HyprDisplay) : Decidable s.Informed := inferInstanceAs (Decidable (∀ size ∈ s.told, size = s.inner.desktopSize))

instance (s : HyprDisplay) : Decidable s.NoCopy :=
  inferInstanceAs (Decidable (∀ thread ∈ s.capture, thread.pendingInitialResize = none))

instance (s : HyprDisplay) : DecidablePred s.Announceable
  | ⟨.requestLayout _, _, _, _, _⟩ =>
    inferInstanceAs (Decidable (s.channel.hasRoom = true ∧ s.inner.pendingInitialResize = none ∧ s.NoCopy))
  | ⟨.requestInitialSize _, _, _, _, _⟩ =>
    inferInstanceAs (Decidable (s.attached = true → resizes s.channel.queue = [] ∧ s.NoCopy))
  | ⟨.restoreAfterSession, _, _, _, _⟩ | ⟨.startCaptureUpdates, _, _, _, _⟩ | ⟨.shutdown, _, _, _, _⟩ =>
    inferInstanceAs (Decidable True)

instance (s : HyprDisplay) : DecidablePred s.Announced
  | .sessionStarted => inferInstanceAs (Decidable (s.sinkActive = false ∧ s.attached = false))
  | .record => inferInstanceAs (Decidable (∀ job ∈ s.job, recordedSize job = some s.inner.desktopSize ∨ s.Announceable job))
  | .decide => inferInstanceAs (Decidable (s.sinkActive = true → s.inner.updateRx = true →
      (∃ job ∈ s.job, job.caller = .startCaptureUpdates) → s.Informed))
  | .join | .started none | .dropUpdates => inferInstanceAs (Decidable (s.sinkActive = true → s.Informed))
  | .publishRefresh i => inferInstanceAs (Decidable (UpToDate s.commits (s.refreshes i)))
  | .sessionEnded | .acquire _ | .acquireRestore _ | .close | .cancel | .check | .command _ | .query _ | .publish | .finish
  | .started (some _) | .readRefresh _ | .queryRefresh _ _ | .take | .sendOther | .deliverInitialResize
  | .recreateProcessor | .restartCapture | .endCapture => inferInstanceAs (Decidable True)

theorem Announced.fresh {s : HyprDisplay} {action : Action} (announced : s.Announced action) : s.Fresh action := by
  cases action with
  | publishRefresh i => exact announced
  | _ => trivial

structure JobAnnounces (s : HyprDisplay) (job : DisplayJob) : Prop where
  session : job.session ≤ s.sessionEpoch
  starts : job.stage.starts = true → job.caller = .startCaptureUpdates
  resizes : job.stage.starts = false → job.stage ≠ .acquired → job.caller ≠ .startCaptureUpdates ∧ job.caller ≠ .shutdown
  overtaken : job.caller = .restoreAfterSession → job.session = s.sessionEpoch → s.sinkActive = false
  restores : job.caller = .restoreAfterSession → job.stage ≠ .acquired → s.sinkActive = true →
    s.attached = false ∧ s.told = none

/-- The last size on its way to the client is the desktop size, and so is every
copy of one that may still be sent. -/
structure Announcing (s : HyprDisplay) : Prop where
  queued : s.sinkActive = true → s.attached = true →
    ∀ size, (resizes s.channel.queue).getLast? = some size → size = s.inner.desktopSize
  told : s.sinkActive = true → resizes s.channel.queue = [] → s.Informed
  copied : s.sinkActive = true → s.attached = true → ∀ thread, s.capture = some thread →
    ∀ size, thread.pendingInitialResize = some size → size = s.inner.desktopSize
  undelivered : ∀ thread, s.capture = some thread → ∀ size, thread.undelivered = some size →
    thread.pendingInitialResize = some size
  pending : ∀ size, s.inner.pendingInitialResize = some size → size = s.inner.desktopSize
  dropped : s.channel.received = false → s.channel.queue = []
  scheduled : ∀ epoch ∈ s.restores, epoch ≤ s.sessionEpoch ∧ (epoch = s.sessionEpoch → s.sinkActive = false)
  job : ∀ job, s.job = some job → s.JobAnnounces job

variable {arith : Rounding} {s t : HyprDisplay} {job : DisplayJob} {d : ResizeDecision}

theorem noJob_announces (none : s.job = none) : ∀ job, s.job = some job → s.JobAnnounces job :=
  fun _ isJob => absurd (none.symm.trans isJob) (Option.some_ne_none _).symm

/-- Two states between which nothing is announced. -/
structure SameNews (s t : HyprDisplay) : Prop where
  desktopSize : t.inner.desktopSize = s.inner.desktopSize
  sinkActive : t.sinkActive = s.sinkActive
  told : t.told = s.told
  channel : t.channel = s.channel
  attached : t.attached = s.attached
  capture : t.capture = s.capture
  pending : t.inner.pendingInitialResize = s.inner.pendingInitialResize
  restores : t.restores = s.restores
  sessionEpoch : t.sessionEpoch = s.sessionEpoch

theorem SameNews.informed (same : SameNews s t) (informed : s.Informed) : t.Informed := by
  intro size isSize
  rw [same.told] at isSize
  exact (informed size isSize).trans same.desktopSize.symm

theorem JobAnnounces.congr (announces : s.JobAnnounces job) (sessionEpoch : t.sessionEpoch = s.sessionEpoch)
    (sinkActive : t.sinkActive = s.sinkActive) (attached : t.attached = s.attached) (told : t.told = s.told) :
    t.JobAnnounces job where
  session := by rw [sessionEpoch]; exact announces.session
  starts := announces.starts
  resizes := announces.resizes
  overtaken := by rw [sessionEpoch, sinkActive]; exact announces.overtaken
  restores := by rw [sinkActive, attached, told]; exact announces.restores

theorem SameNews.jobAnnounces (same : SameNews s t) (announces : s.JobAnnounces job) : t.JobAnnounces job :=
  announces.congr same.sessionEpoch same.sinkActive same.attached same.told

theorem Announcing.carry (inv : s.Announcing) (same : SameNews s t) (job : ∀ job, t.job = some job → t.JobAnnounces job) :
    t.Announcing where
  queued := by rw [same.sinkActive, same.attached, same.channel, same.desktopSize]; exact inv.queued
  told := by
    rw [same.sinkActive, same.channel]
    exact fun active drained => same.informed (inv.told active drained)
  copied := by rw [same.sinkActive, same.attached, same.capture, same.desktopSize]; exact inv.copied
  undelivered := by rw [same.capture]; exact inv.undelivered
  pending := by rw [same.pending, same.desktopSize]; exact inv.pending
  dropped := by rw [same.channel]; exact inv.dropped
  scheduled := by rw [same.restores, same.sessionEpoch, same.sinkActive]; exact inv.scheduled
  job := job

theorem Announcing.keep (inv : s.Announcing) (same : SameNews s t) (sameJob : t.job = s.job) : t.Announcing :=
  inv.carry same fun job held => same.jobAnnounces (inv.job job (sameJob.symm.trans held))

/-- A job goes on to another stage of a resize, past its check if it is a restore. -/
theorem JobAnnounces.atStage (announces : s.JobAnnounces job) {stage : DisplayStage} (resizes : stage.starts = false)
    (caller : job.caller ≠ .startCaptureUpdates ∧ job.caller ≠ .shutdown)
    (restores : job.caller = .restoreAfterSession → s.sinkActive = true → s.attached = false ∧ s.told = none) :
    s.JobAnnounces { job with stage } where
  session := announces.session
  starts starts := nomatch starts.symm.trans resizes
  resizes _ _ := caller
  overtaken := announces.overtaken
  restores isRestore _ := restores isRestore

theorem attached_of_job (inner : t.inner.updateRx = s.inner.updateRx) (received : t.channel.received = s.channel.received)
    (stage : (t.job.any fun job => job.stage.isStarting) = s.job.any fun job => job.stage.isStarting) :
    t.attached = s.attached := by
  unfold attached
  rw [inner, received, stage]

/-- The operation under way goes on with its resize. -/
theorem Announcing.advance (inv : s.Announcing) (held : s.job = some job) (resizes : job.stage.starts = false)
    (was : job.stage ≠ .acquired) (same : SameNews s t) {stage : DisplayStage} (isNext : t.job = some { job with stage })
    (goesOn : stage.starts = false) : t.Announcing := by
  have announces := inv.job job held
  refine inv.carry same fun next isJob => ?_
  cases isNext.symm.trans isJob
  exact same.jobAnnounces (announces.atStage goesOn (announces.resizes resizes was)
    fun isRestore => announces.restores isRestore was)

theorem Announcing.release (inv : s.Announcing) (same : SameNews s t) (free : t.job = none) : t.Announcing :=
  inv.carry same fun _ held => nomatch free.symm.trans held

theorem not_starting (held : s.job = some job) (resizes : job.stage.starts = false) :
    (s.job.any fun job => job.stage.isStarting) = false := by
  rw [held, Option.any_some]
  cases stage : job.stage with
  | starting => exact nomatch (stage ▸ resizes : DisplayStage.starting.starts = false)
  | acquired => rfl
  | decided d => rfl
  | checked d => rfl
  | resized d => rfl
  | prepared d geometry => rfl
  | published d => rfl
  | failed => rfl
  | stopped => rfl

theorem isStarting_of_starts {stage : DisplayStage} (resizes : stage.starts = false) : stage.isStarting = false := by
  cases stage with
  | starting => cases resizes
  | _ => rfl

/-- A resize command goes out, or the operation goes on, and nothing else is changed. -/
theorem sameNews_atStage (held : s.job = some job) (resizes : job.stage.starts = false) {stage : DisplayStage}
    (goesOn : stage.starts = false) : SameNews s ({ s with inner := s.inner.willResize d }.atStage job stage) := by
  have unchanged : (s.inner.willResize d).updateRx = s.inner.updateRx ∧
      (s.inner.willResize d).desktopSize = s.inner.desktopSize ∧
      (s.inner.willResize d).pendingInitialResize = s.inner.pendingInitialResize := by
    unfold HyprDisplayInner.willResize
    split <;> exact ⟨rfl, rfl, rfl⟩
  refine ⟨unchanged.2.1, rfl, rfl, rfl, attached_of_job unchanged.1 rfl ?_, rfl, unchanged.2.2, rfl, rfl⟩
  rw [not_starting held resizes]
  exact isStarting_of_starts goesOn

theorem sameNews_release (held : s.job = some job) (resizes : job.stage.starts = false) : SameNews s s.release :=
  ⟨rfl, rfl, rfl, rfl, attached_of_job rfl rfl (not_starting held resizes).symm, rfl, rfl, rfl, rfl⟩

/-- The answer to a request is the desktop size. -/
theorem Announcing.reply (inv : s.Announcing) (held : s.job = some job) (resizes : job.stage.starts = false) :
    s.reply.Announcing := by
  have attached : s.reply.attached = s.attached := attached_of_job rfl rfl (not_starting held resizes).symm
  refine ⟨fun active isAttached => inv.queued active (attached ▸ isAttached), fun _ _ size isSize => ?_,
    fun active isAttached => inv.copied active (attached ▸ isAttached), inv.undelivered, inv.pending, inv.dropped,
    inv.scheduled, noJob_announces rfl⟩
  exact (Option.some.inj isSize).symm

/-- The operation gets past its decision. -/
theorem Announcing.decided (inv : s.Announcing) (held : s.job = some job) (stage : job.stage = .acquired)
    (caller : job.caller ≠ .startCaptureUpdates ∧ job.caller ≠ .shutdown)
    (current : job.caller = .restoreAfterSession → job.session = s.sessionEpoch) {next : DisplayStage}
    (goesOn : next.starts = false) : ({ s with inner := s.inner.willResize d }.atStage job next).Announcing := by
  have announces := inv.job job held
  have resizes : job.stage.starts = false := by
    rw [stage]
    rfl
  have same := sameNews_atStage (d := d) held resizes goesOn
  refine inv.carry same fun other isJob => ?_
  cases isJob
  refine same.jobAnnounces (announces.atStage goesOn caller fun isRestore active => ?_)
  exact absurd (active.symm.trans (announces.overtaken isRestore (current isRestore))) nofun

/-- A channel is dropped whose client knows the size. -/
theorem Announcing.discard (inv : s.Announcing) (size : t.inner.desktopSize = s.inner.desktopSize)
    (active : t.sinkActive = s.sinkActive) (told : t.told = s.told) (channel : t.channel = s.channel.drop)
    (capture : ∀ thread, t.capture = some thread → s.capture = some thread)
    (pending : t.inner.pendingInitialResize = s.inner.pendingInitialResize) (restores : t.restores = s.restores)
    (sessionEpoch : t.sessionEpoch = s.sessionEpoch) (informed : s.sinkActive = true → s.Informed)
    (job : t.attached = false → ∀ job, t.job = some job → t.JobAnnounces job) : t.Announcing := by
  have unattached : t.attached = false := by
    unfold attached
    rw [channel]
    rfl
  refine ⟨(fun _ attached => nomatch attached.symm.trans unattached), fun isActive _ other isTold => ?_,
    (fun _ attached => nomatch attached.symm.trans unattached), fun thread held => inv.undelivered thread (capture thread held),
    ?_, fun _ => ?_, ?_, job unattached⟩
  · rw [told] at isTold
    exact (informed (active.symm.trans isActive) other isTold).trans size.symm
  · rw [pending, size]
    exact inv.pending
  · rw [channel]
    rfl
  · rw [restores, sessionEpoch, active]
    exact inv.scheduled

theorem Announcing.decideRestore (inv : s.Announcing) (held : s.job = some job) (stage : job.stage = .acquired)
    (isRestore : job.caller = .restoreAfterSession) : (s.decideRestore job).Announcing := by
  have released : s.release.Announcing := inv.release (sameNews_release held (by rw [stage]; rfl)) rfl
  unfold HyprDisplay.decideRestore
  split
  · exact released
  · rename_i current
    split
    · exact released
    · split
      · exact released
      · have same : s.sessionEpoch = job.session := by
          by_contra later
          exact current (.inr later)
        exact inv.decided held stage (by rw [isRestore]; exact ⟨nofun, nofun⟩) (fun _ => same.symm) rfl

theorem Announcing.decideStart (inv : s.Announcing) (held : s.job = some job) (stage : job.stage = .acquired)
    (isStart : job.caller = .startCaptureUpdates) (informed : s.sinkActive = true → s.inner.updateRx = true → s.Informed) :
    (s.decideStart job).Announcing := by
  have announces := inv.job job held
  have resizes : job.stage.starts = false := by
    rw [stage]
    rfl
  have stopped : ∀ u : HyprDisplay, u.sessionEpoch = s.sessionEpoch → ∀ next, some { job with stage := .stopped } = some next →
      u.JobAnnounces next := by
    intro u epoch next isNext
    cases isNext
    have notRestore : ¬ job.caller = .restoreAfterSession := by
      rw [isStart]
      exact nofun
    exact ⟨epoch ▸ announces.session, fun _ => isStart, nofun, fun isRestore => absurd isRestore notRestore,
      fun isRestore => absurd isRestore notRestore⟩
  unfold HyprDisplay.decideStart
  split
  · exact inv.release (sameNews_release held resizes) rfl
  · cases rx : s.inner.updateRx with
    | false =>
      refine inv.carry ⟨rfl, rfl, rfl, rfl, attached_of_job rx.symm rfl (not_starting held resizes).symm, rfl, rfl, rfl, rfl⟩ ?_
      exact stopped _ rfl
    | true =>
      exact inv.discard rfl rfl rfl rfl (fun _ => id) rfl rfl rfl (fun active => informed active rx) fun _ => stopped _ rfl

theorem Announcing.decideJob (inv : s.Announcing) (held : s.job = some job) (stage : job.stage = .acquired)
    (informed : s.sinkActive = true → s.inner.updateRx = true → job.caller = .startCaptureUpdates → s.Informed) :
    (s.decide arith job).Announcing := by
  have resizes : job.stage.starts = false := by
    rw [stage]
    rfl
  unfold HyprDisplay.decide
  split
  · rename_i client isRequest
    unfold decideRequest
    dsimp only
    split
    · exact inv.decided held stage (by rw [isRequest]; exact ⟨nofun, nofun⟩) (by rw [isRequest]; nofun) rfl
    · exact inv.reply held resizes
  · rename_i layout isLayout
    unfold decideLayout
    dsimp only
    split
    · exact inv.decided held stage (by rw [isLayout]; exact ⟨nofun, nofun⟩) (by rw [isLayout]; nofun) rfl
    · exact inv.release (sameNews_release held resizes) rfl
  · rename_i isRestore
    exact inv.decideRestore held stage isRestore
  · rename_i isStart
    exact inv.decideStart held stage isStart fun active rx => informed active rx isStart
  · refine ⟨fun active attached => inv.queued active ?_, inv.told, nofun, nofun, inv.pending, inv.dropped, inv.scheduled, noJob_announces rfl⟩
    exact (sameNews_release held resizes).attached.symm.trans attached

theorem Announcing.fail (inv : s.Announcing) (held : s.job = some job) (resizing : job.stage.starts = false)
    (begun : job.stage ≠ .acquired) : (s.fail job).Announcing := by
  have idle := not_starting held resizing
  unfold HyprDisplay.fail
  split
  · exact inv.advance held resizing begun ⟨rfl, rfl, rfl, rfl, attached_of_job rfl rfl idle.symm, rfl, rfl, rfl, rfl⟩ rfl rfl
  · exact inv.release ⟨rfl, rfl, rfl, rfl, attached_of_job rfl rfl idle.symm, rfl, rfl, rfl, rfl⟩ rfl

theorem Announcing.command (inv : s.Announcing) (held : s.job = some job) (stage : job.stage = .checked d)
    (failure : Option (Nat × Nat)) : (s.command job d failure).Announcing := by
  have resizing : job.stage.starts = false := by
    rw [stage]
    rfl
  have begun : job.stage ≠ .acquired := by
    rw [stage]
    exact nofun
  have idle := not_starting held resizing
  unfold HyprDisplay.command
  split
  · exact inv.advance held resizing begun ⟨rfl, rfl, rfl, rfl, attached_of_job rfl rfl idle.symm, rfl, rfl, rfl, rfl⟩ rfl rfl
  · exact inv.advance held resizing begun ⟨rfl, rfl, rfl, rfl, attached_of_job rfl rfl idle.symm, rfl, rfl, rfl, rfl⟩ rfl rfl
  · rename_i mode _
    have changed : Announcing { s with mode } := inv.keep ⟨rfl, rfl, rfl, rfl, rfl, rfl, rfl, rfl, rfl⟩ rfl
    exact changed.fail held resizing begun

theorem Announcing.query (inv : s.Announcing) (held : s.job = some job) (stage : job.stage = .resized d)
    (source : Option Size) : (s.query job d source).Announcing := by
  have resizing : job.stage.starts = false := by
    rw [stage]
    rfl
  have begun : job.stage ≠ .acquired := by
    rw [stage]
    exact nofun
  have idle := not_starting held resizing
  unfold HyprDisplay.query
  split
  · exact inv.advance held resizing begun ⟨rfl, rfl, rfl, rfl, attached_of_job rfl rfl idle.symm, rfl, rfl, rfl, rfl⟩ rfl rfl
  · exact inv.fail held resizing begun

theorem Announcing.publish {geometry : PresentationGeometry} (inv : s.Announcing) (held : s.job = some job)
    (stage : job.stage = .prepared d geometry) : (s.publish job d geometry).Announcing := by
  have resizing : job.stage.starts = false := by
    rw [stage]
    rfl
  have begun : job.stage ≠ .acquired := by
    rw [stage]
    exact nofun
  have idle := not_starting held resizing
  unfold HyprDisplay.publish
  split
  · exact inv.release (sameNews_release held resizing) rfl
  · split
    · exact inv.reply held resizing
    · exact inv.advance held resizing begun ⟨rfl, rfl, rfl, rfl, attached_of_job rfl rfl idle.symm, rfl, rfl, rfl, rfl⟩ rfl rfl

/-- The desktop size that a resize leaves on record. -/
theorem recordedSize_published (stage : job.stage = .published d) :
    recordedSize job = some (s.inner.applyPresentationState d.size).desktopSize := by
  unfold recordedSize
  rw [stage]
  rfl

theorem Announcing.record (inv : s.Announcing) (held : s.job = some job) (stage : job.stage = .published d)
    (announced : recordedSize job = some s.inner.desktopSize ∨ s.Announceable job) : (s.record job d).Announcing := by
  have announces := inv.job job held
  have resizing : job.stage.starts = false := by
    rw [stage]
    rfl
  have caller := announces.resizes resizing (by rw [stage]; nofun)
  have idle := not_starting held resizing
  rw [recordedSize_published (s := s) stage] at announced
  unfold HyprDisplay.record
  dsimp only
  generalize isNew : s.inner.applyPresentationState d.size = inner at announced ⊢
  have rx : inner.updateRx = s.inner.updateRx := by
    rw [← isNew]
    rfl
  have kept : inner.pendingInitialResize = s.inner.pendingInitialResize := by
    rw [← isNew]
    rfl
  split
  · rename_i client isRequest
    have attached : ({ s with inner := { inner with pendingInitialResize := some inner.desktopSize } }.reply).attached =
        s.attached := attached_of_job rx rfl idle.symm
    refine ⟨fun active isAttached size last => ?_, fun _ _ size told => (Option.some.inj told).symm,
      fun active isAttached thread capture size pending => ?_, inv.undelivered, fun size pending => (Option.some.inj pending).symm,
      inv.dropped, inv.scheduled, noJob_announces rfl⟩
    · rw [attached] at isAttached
      rcases announced with same | announceable
      · exact (inv.queued active isAttached size last).trans (Option.some.inj same).symm
      · rw [Announceable, isRequest] at announceable
        have drained : (resizes s.channel.queue).getLast? = none := by
          rw [(announceable isAttached).1]
          rfl
        cases drained.symm.trans last
    · rw [attached] at isAttached
      rcases announced with same | announceable
      · exact (inv.copied active isAttached thread capture size pending).trans (Option.some.inj same).symm
      · rw [Announceable, isRequest] at announceable
        cases ((announceable isAttached).2 thread capture).symm.trans pending
  · rename_i layout isLayout
    by_cases room : s.channel.hasRoom = true
    · have sent : s.channel.trySend (.resize inner.desktopSize) =
          { s.channel with queue := s.channel.queue ++ [DisplayUpdate.resize inner.desktopSize] } := if_pos room
      have attached : ({ s with inner, channel := s.channel.trySend (.resize inner.desktopSize) }.release).attached =
          s.attached := by
        rw [sent]
        exact attached_of_job rx rfl idle.symm
      rw [sent] at attached ⊢
      have last : (resizes (s.channel.queue ++ [DisplayUpdate.resize inner.desktopSize])).getLast? = some inner.desktopSize := by simp
      refine ⟨fun _ _ size isLast => (Option.some.inj (last.symm.trans isLast)).symm, fun _ drained => ?_,
        fun active isAttached thread capture size pending => ?_, inv.undelivered, fun size pending => ?_, fun closed => ?_,
        inv.scheduled, noJob_announces rfl⟩
      · have none := congrArg List.getLast? drained
        cases last.symm.trans none
      · rw [attached] at isAttached
        rcases announced with same | announceable
        · exact (inv.copied active isAttached thread capture size pending).trans (Option.some.inj same).symm
        · rw [Announceable, isLayout] at announceable
          cases (announceable.2.2 thread capture).symm.trans pending
      · rcases announced with same | announceable
        · exact (inv.pending size (kept.symm.trans pending)).trans (Option.some.inj same).symm
        · rw [Announceable, isLayout] at announceable
          cases announceable.2.1.symm.trans (kept.symm.trans pending)
      · have received : s.channel.received = true := by
          unfold UpdateChannel.hasRoom at room
          exact (Bool.and_eq_true_iff.mp room).1
        cases received.symm.trans closed
    · have lost : s.channel.trySend (.resize inner.desktopSize) = s.channel := if_neg room
      rw [lost]
      rcases announced with same | announceable
      · exact inv.release ⟨Option.some.inj same, rfl, rfl, rfl, attached_of_job rx rfl idle.symm, rfl, kept, rfl, rfl⟩ rfl
      · rw [Announceable, isLayout] at announceable
        exact absurd announceable.1 room
  · rename_i isRestore
    have attached : ({ s with inner := { inner with pendingInitialResize := none } }.release).attached = s.attached :=
      attached_of_job rx rfl idle.symm
    have restores := announces.restores isRestore (by rw [stage]; nofun)
    refine ⟨fun active isAttached => ?_, fun active _ size told => ?_, fun active isAttached => ?_, inv.undelivered, nofun,
      inv.dropped, inv.scheduled, noJob_announces rfl⟩
    · cases (restores active).1.symm.trans (attached.symm.trans isAttached)
    · cases (restores active).2.symm.trans told
    · cases (restores active).1.symm.trans (attached.symm.trans isAttached)
  · rename_i isStart
    exact absurd isStart caller.1
  · rename_i isShutdown
    exact absurd isShutdown caller.2

/-- Once the old capture thread has ended nothing of its channel is left to tell. -/
theorem Announcing.startCapture (inv : s.Announcing) (held : s.job = some job) (stage : job.stage = .stopped)
    (informed : s.sinkActive = true → s.Informed) : (s.startCapture job).Announcing := by
  have announces := inv.job job held
  have isStart := announces.starts (by rw [stage]; rfl)
  have notRestore : ¬ job.caller = .restoreAfterSession := by
    rw [isStart]
    exact nofun
  have idle : (s.job.any fun job => job.stage.isStarting) = false := by
    rw [held, Option.any_some, stage]
    rfl
  unfold HyprDisplay.startCapture
  split
  · have attached : ({ s with capture := none }.release).attached = s.attached := attached_of_job rfl rfl idle.symm
    refine ⟨fun active isAttached => inv.queued active (attached ▸ isAttached), inv.told, nofun, nofun, inv.pending,
      inv.dropped, inv.scheduled, noJob_announces rfl⟩
  · refine ⟨nofun, fun active _ => informed active, fun _ _ thread capture size copied => ?_,
      fun thread capture size undelivered => ?_, nofun, nofun, inv.scheduled, fun next isNext => ?_⟩
    · cases capture
      exact inv.pending size copied
    · cases capture
      exact undelivered
    · cases isNext
      exact ⟨announces.session, fun _ => isStart, nofun, fun isRestore => absurd isRestore notRestore,
        fun isRestore => absurd isRestore notRestore⟩

theorem Announcing.started (inv : s.Announcing) (held : s.job = some job) (stage : job.stage = .starting)
    (info : Option (Nat × Nat)) (size : (s.started info).inner.desktopSize = s.inner.desktopSize)
    (informed : info = none → s.sinkActive = true → s.Informed) : (s.started info).Announcing := by
  cases info with
  | none => exact inv.discard rfl rfl rfl rfl nofun rfl rfl rfl (informed rfl) (fun _ => noJob_announces rfl)
  | some info =>
    have attached : (s.started (some info)).attached = s.attached := by
      unfold HyprDisplay.attached
      rw [held, Option.any_some, stage]
      exact congrArg (s.channel.received && ·) (Bool.or_true _).symm
    exact inv.release ⟨size, rfl, rfl, rfl, attached, rfl, rfl, rfl, rfl⟩ rfl

theorem attached_of_queue (inv : s.Announcing) (rx : s.inner.updateRx = false) (queue : s.channel.queue ≠ []) :
    s.attached = true := by
  have received : s.channel.received = true := by
    by_contra closed
    exact queue (inv.dropped (Bool.eq_false_iff.mpr closed))
  unfold attached
  rw [received, rx]
  rfl

theorem Announcing.takeResize {size : DesktopSize} {queue : List DisplayUpdate} (inv : s.Announcing)
    (rx : s.inner.updateRx = false) (isQueue : s.channel.queue = .resize size :: queue) :
    Announcing { s with told := some size, channel := { s.channel with queue } } := by
  have attached := attached_of_queue inv rx (by rw [isQueue]; nofun)
  have queued := fun active => inv.queued active attached
  rw [isQueue, resizes_resize] at queued
  refine ⟨fun active _ last isLast => queued active last ?_, fun active drained last isLast => queued active last ?_,
    inv.copied, inv.undelivered, inv.pending, fun closed => ?_, inv.scheduled, fun job held => ?_⟩
  · rw [List.getLast?_cons, show (resizes queue).getLast? = some last from isLast]
    rfl
  · rw [show resizes queue = [] from drained]
    exact isLast
  · cases isQueue.symm.trans (inv.dropped closed)
  · have announces := inv.job job held
    refine ⟨announces.session, announces.starts, announces.resizes, announces.overtaken, fun isRestore begun active => ?_⟩
    cases attached.symm.trans (announces.restores isRestore begun active).1

theorem Announcing.takeOther {queue : List DisplayUpdate} (inv : s.Announcing) (rx : s.inner.updateRx = false)
    (isQueue : s.channel.queue = .other :: queue) : Announcing { s with channel := { s.channel with queue } } := by
  have attached := attached_of_queue inv rx (by rw [isQueue]; nofun)
  have same : resizes s.channel.queue = resizes queue := by rw [isQueue, resizes_other]
  refine ⟨fun active _ => ?_, fun active drained => inv.told active (same.trans drained), inv.copied, inv.undelivered,
    inv.pending, fun closed => ?_, inv.scheduled, fun job held => (inv.job job held).congr rfl rfl rfl rfl⟩
  · have queued := inv.queued active attached
    rw [same] at queued
    exact queued
  · cases isQueue.symm.trans (inv.dropped closed)

theorem Announcing.deliverInitialResize {pending : Option DesktopSize} {size : DesktopSize} (inv : s.Announcing)
    (isCapture : s.capture = some ⟨pending, some size⟩) :
    Announcing { s with channel := s.channel.trySend (.resize size), capture := none } := by
  have isCopy := inv.undelivered _ isCapture size rfl
  by_cases room : s.channel.hasRoom = true
  · have sent : s.channel.trySend (.resize size) = { s.channel with queue := s.channel.queue ++ [DisplayUpdate.resize size] } :=
      if_pos room
    have last : (resizes (s.channel.queue ++ [DisplayUpdate.resize size])).getLast? = some size := by simp
    rw [sent]
    refine ⟨fun active attached other isLast => ?_, fun _ drained => ?_, nofun, nofun, inv.pending, fun closed => ?_,
      inv.scheduled, fun job held => (inv.job job held).congr rfl rfl rfl rfl⟩
    · cases last.symm.trans isLast
      exact inv.copied active attached _ isCapture size isCopy
    · have none := congrArg List.getLast? drained
      cases last.symm.trans none
    · unfold UpdateChannel.hasRoom at room
      cases (Bool.and_eq_true_iff.mp room).1.symm.trans closed
  · have lost : s.channel.trySend (.resize size) = s.channel := if_neg room
    rw [lost]
    exact ⟨inv.queued, inv.told, nofun, nofun, inv.pending, inv.dropped, inv.scheduled,
      fun job held => (inv.job job held).congr rfl rfl rfl rfl⟩

theorem Announcing.sendOther (inv : s.Announcing) :
    Announcing { s with channel := s.channel.trySend .other } := by
  by_cases room : s.channel.hasRoom = true
  · have sent : s.channel.trySend .other = { s.channel with queue := s.channel.queue ++ [DisplayUpdate.other] } := if_pos room
    have same : resizes (s.channel.queue ++ [DisplayUpdate.other]) = resizes s.channel.queue := by simp
    rw [sent]
    refine ⟨fun active attached => ?_, fun active drained => inv.told active (same.symm.trans drained), inv.copied,
      inv.undelivered, inv.pending, fun closed => ?_, inv.scheduled, fun job held => (inv.job job held).congr rfl rfl rfl rfl⟩
    · have queued := inv.queued active attached
      rw [← same] at queued
      exact queued
    · unfold UpdateChannel.hasRoom at room
      cases (Bool.and_eq_true_iff.mp room).1.symm.trans closed
  · have lost : s.channel.trySend .other = s.channel := if_neg room
    rw [lost]
    exact inv

theorem Announcing.next {action : Action} (agreed : s.Agreed) (inv : s.Announcing) (announced : s.Announced action)
    (step : s.next arith action = some t) : t.Announcing := by
  have kept := agreed.next announced.fresh step
  cases next_step step with
  | sessionStarted =>
    have unattached : HyprDisplay.attached { s with sessionEpoch := s.sessionEpoch + 1, sinkActive := true, told := none } = false :=
      announced.2
    refine ⟨(fun _ attached => nomatch attached.symm.trans unattached), fun _ _ => nofun,
      (fun _ attached => nomatch attached.symm.trans unattached), inv.undelivered, inv.pending, inv.dropped,
      fun epoch member => ?_, fun job held => ?_⟩
    · have older := (inv.scheduled epoch member).1
      exact ⟨by dsimp only; omega, fun same => by dsimp only at same; omega⟩
    · have announces := inv.job job held
      have older := announces.session
      refine ⟨by dsimp only; omega, announces.starts, announces.resizes, fun _ same => ?_, fun _ _ _ => ⟨unattached, rfl⟩⟩
      dsimp only at same
      omega
  | sessionEnded =>
    split
    · refine ⟨nofun, nofun, nofun, inv.undelivered, inv.pending, inv.dropped, fun epoch member => ⟨?_, fun _ => rfl⟩, fun job held => ?_⟩
      · rcases List.mem_append.mp member with older | last
        · exact (inv.scheduled epoch older).1
        · exact (List.mem_singleton.mp last).le
      · have announces := inv.job job held
        exact ⟨announces.session, announces.starts, announces.resizes, fun _ _ => rfl, fun _ _ => nofun⟩
    · exact inv
  | ignored => exact inv
  | acquire idle notRestore _ =>
    refine inv.carry ⟨rfl, rfl, rfl, rfl, attached_of_job rfl rfl (by rw [idle]; rfl), rfl, rfl, rfl, rfl⟩ fun job held => ?_
    cases held
    exact ⟨le_rfl, nofun, fun _ begun => absurd rfl begun, fun isRestore => absurd isRestore notRestore,
      fun isRestore => absurd isRestore notRestore⟩
  | @acquireRestore epoch idle member =>
    have attached : HyprDisplay.attached { s with
        restores := s.restores.erase epoch
        job := some ⟨.restoreAfterSession, epoch, false, .acquired, s.presented⟩ } = s.attached :=
      attached_of_job rfl rfl (by rw [idle]; rfl)
    refine ⟨fun active isAttached => inv.queued active (attached ▸ isAttached), inv.told,
      fun active isAttached => inv.copied active (attached ▸ isAttached), inv.undelivered, inv.pending, inv.dropped,
      fun other isOther => inv.scheduled other (List.mem_of_mem_erase isOther), fun job held => ?_⟩
    cases held
    exact ⟨(inv.scheduled epoch member).1, nofun, fun _ begun => absurd rfl begun, fun _ => (inv.scheduled epoch member).2,
      fun _ begun => absurd rfl begun⟩
  | close => exact inv.keep ⟨rfl, rfl, rfl, rfl, rfl, rfl, rfl, rfl, rfl⟩ rfl
  | withdraw held _ stage => exact inv.release (sameNews_release held (by rw [stage]; rfl)) rfl
  | @cancel job held _ _ _ =>
    refine inv.carry ⟨rfl, rfl, rfl, rfl, attached_of_job rfl rfl (by rw [held]; rfl), rfl, rfl, rfl, rfl⟩ fun next isNext => ?_
    cases isNext
    have announces := inv.job job held
    have attached : HyprDisplay.attached { s with job := some { job with cancelled := true } } = s.attached :=
      attached_of_job rfl rfl (by rw [held]; rfl)
    have same : HyprDisplay.JobAnnounces { s with job := some { job with cancelled := true } } job :=
      announces.congr rfl rfl attached rfl
    exact ⟨same.session, same.starts, same.resizes, same.overtaken, same.restores⟩
  | @decide job held stage => exact inv.decideJob held stage fun active rx isStart => announced active rx ⟨job, held, isStart⟩
  | @check job d held stage =>
    have resizing : job.stage.starts = false := by
      rw [stage]
      rfl
    have goesOn : (if s.inner.closed then DisplayStage.failed else .checked d).starts = false := by split <;> rfl
    refine inv.advance held resizing (by rw [stage]; nofun) ⟨rfl, rfl, rfl, rfl, attached_of_job rfl rfl ?_, rfl, rfl, rfl, rfl⟩ rfl goesOn
    exact (isStarting_of_starts goesOn).trans (not_starting held resizing).symm
  | command failure held stage => exact inv.command held stage failure
  | query source held stage => exact inv.query held stage source
  | publish held stage => exact inv.publish held stage
  | record held stage => exact inv.record held stage (announced _ held)
  | @finish job held stage =>
    have resizing : job.stage.starts = false := by
      rw [stage]
      rfl
    split
    · exact inv.release (sameNews_release held resizing) rfl
    · exact inv.reply held resizing
  | join held stage => exact inv.startCapture held stage announced
  | started info held stage =>
    have settled : (s.started info).Settled := by
      intro other d isJob
      unfold HyprDisplay.started at isJob
      split at isJob <;> cases isJob
    have presented := kept.presented (settled_of_job held (by rw [stage]; nofun)) settled
    refine inv.started held stage info (congrArg Presented.size presented) fun isNone => ?_
    rw [isNone] at announced
    exact announced
  | readRefresh _ => exact inv.keep ⟨rfl, rfl, rfl, rfl, rfl, rfl, rfl, rfl, rfl⟩ rfl
  | queryRefresh _ _ => exact inv.keep ⟨rfl, rfl, rfl, rfl, rfl, rfl, rfl, rfl, rfl⟩ rfl
  | publishRefresh _ => exact inv.keep ⟨rfl, rfl, rfl, rfl, rfl, rfl, rfl, rfl, rfl⟩ rfl
  | takeResize rx isQueue => exact inv.takeResize rx isQueue
  | takeOther rx isQueue => exact inv.takeOther rx isQueue
  | dropUpdates _ =>
    refine inv.discard rfl rfl rfl rfl (fun _ => id) rfl rfl rfl announced fun unattached job held => ?_
    have announces := inv.job job held
    exact ⟨announces.session, announces.starts, announces.resizes, announces.overtaken, fun isRestore begun active =>
      ⟨unattached, (announces.restores isRestore begun active).2⟩⟩
  | sendOther => exact inv.sendOther
  | deliverInitialResize isCapture => exact inv.deliverInitialResize isCapture
  | @recreateProcessor capture isCapture =>
    refine ⟨inv.queued, inv.told, fun active attached thread held => ?_, fun thread held => ?_, inv.pending, inv.dropped,
      inv.scheduled, fun job held => (inv.job job held).congr rfl rfl rfl rfl⟩
    · cases held
      exact inv.copied active attached capture isCapture
    · cases held
      exact nofun
  | @restartCapture capture isCapture =>
    refine ⟨inv.queued, inv.told, fun active attached thread held => ?_, fun thread held => ?_, inv.pending, inv.dropped,
      inv.scheduled, fun job held => (inv.job job held).congr rfl rfl rfl rfl⟩
    · cases held
      exact inv.copied active attached capture isCapture
    · cases held
      exact fun _ => id
  | endCapture =>
    exact ⟨inv.queued, inv.told, nofun, nofun, inv.pending, inv.dropped, inv.scheduled,
      fun job held => (inv.job job held).congr rfl rfl rfl rfl⟩

variable {output : Option String} {resolutionFixed : Bool} {resolution : Nat × Nat} {source : Size}

theorem new_announcing (made : new arith output resolutionFixed resolution source = some s) : s.Announcing := by
  unfold HyprDisplay.new at made
  dsimp only at made
  obtain ⟨presentation, _, rfl⟩ := Option.map_eq_some_iff.mp made
  exact ⟨nofun, nofun, nofun, nofun, nofun, nofun, nofun, noJob_announces rfl⟩

theorem reach_announcing (reach : ((runs arith output resolutionFixed resolution source).guarded Announced).Reach s) :
    s.Agreed ∧ s.Announcing := by
  have agrees : ((runs arith output resolutionFixed resolution source).guarded Announced).Inductive Agreed :=
    ⟨fun _ made => new_agreed made, fun _ _ _ agreed step => (agreed.next step.1.fresh step.2).agreed⟩
  exact (agrees.and (fun _ made => new_announcing made)
    fun _ _ _ agreed inv step => inv.next agreed step.1 step.2).reach reach

/-- As long as every new size can be announced when it is recorded, the size that
the client was told last is the desktop size whenever it has drained its
channel, be a resize or a delivery still under way or not. -/
theorem client_told_desktop_size (reach : ((runs arith output resolutionFixed resolution source).guarded Announced).Reach s)
    (active : s.sinkActive = true) (drained : s.channel.queue = []) : ∀ size ∈ s.told, size = s.inner.desktopSize := by
  have inv := (reach_announcing reach).2
  refine inv.told active ?_
  rw [drained]
  rfl

/-- A session that asks for 1280 by 720, and the start of its capture. -/
def wideSession : List Action :=
  [.sessionStarted, .acquire (.requestInitialSize ⟨1280, 720⟩), .decide, .check, .command none, .query (some wideSize),
    .publish, .record, .acquire .startCaptureUpdates, .decide, .join, .started (some (1280, 720))]

/-- A layout of 800 by 600 that is committed. -/
def smallLayoutCommit : List Action :=
  [.acquire (.requestLayout [⟨true, (800, 600), some (0, 0), none⟩]), .decide, .command none, .query (some smallSize),
    .publish, .record]

/-- The initial size is delivered before a new layout is committed. -/
theorem client_told_desktop_size_once :
    ∃ s, ((runs .double none false (800, 600) smallSize).guarded Announced).Reach s ∧ s.inner.desktopSize = ⟨800, 600⟩ ∧
      s.told.isSome ∧ ∀ size ∈ s.told, size = s.inner.desktopSize := by
  have run : (smallDisplay.bind fun s => StepSystem.exec
      (fun s action => if Announced s action then next .double s action else none) s
      (wideSession ++ [Action.deliverInitialResize, .take] ++ smallLayoutCommit ++ [Action.take])).map
        (fun s => ([s.sinkActive, s.channel.queue.isEmpty, s.told.isSome], s.inner.desktopSize)) =
          some ([true, true, true], ⟨800, 600⟩) := by
    decide
  obtain ⟨s, run, seen⟩ := Option.map_eq_some_iff.mp run
  simp only [Prod.mk.injEq, List.cons.injEq, and_true] at seen
  obtain ⟨⟨active, drained, told⟩, size⟩ := seen
  have reach := small_exec _ run
  exact ⟨s, reach, size, told, client_told_desktop_size reach active (List.isEmpty_iff.mp drained)⟩

/-- The server drops the channel, and a fresh capture follows. -/
def reactivation (output : Nat × Nat) : List Action :=
  [.dropUpdates, .acquire .startCaptureUpdates, .decide, .join, .started (some output)]

/-- The layout is committed while the initial size waits in the channel: the server
takes the initial size and reactivates, and the new size goes with the old channel. -/
theorem layout_lost_to_reactivation :
    ∃ s, (runs .double none false (800, 600) smallSize).Reach s ∧ s.sinkActive = true ∧ s.job = none ∧
      s.channel.queue = [] ∧ s.capture.bind CaptureThread.undelivered = none ∧ s.told = some ⟨1280, 720⟩ ∧
      s.inner.desktopSize = ⟨800, 600⟩ := by
  have run : (smallDisplay.bind fun s => StepSystem.exec (next .double) s
      (wideSession ++ [Action.deliverInitialResize] ++ smallLayoutCommit ++ [Action.take] ++ reactivation (800, 600))).map
        (fun s => ([s.sinkActive, s.job.isNone, s.channel.queue.isEmpty, (s.capture.bind CaptureThread.undelivered).isNone],
          s.told, s.inner.desktopSize)) =
          some ([true, true, true, true], some ⟨1280, 720⟩, ⟨800, 600⟩) := by
    decide
  obtain ⟨s, run, seen⟩ := Option.map_eq_some_iff.mp run
  obtain ⟨first, started, run⟩ := Option.bind_eq_some_iff.mp run
  simp only [Prod.mk.injEq, List.cons.injEq, and_true] at seen
  obtain ⟨⟨active, free, drained, delivered⟩, told, size⟩ := seen
  exact ⟨s, .exec (fun _ _ _ step => step) _ (.start started) run, active, Option.isNone_iff_eq_none.mp free,
    List.isEmpty_iff.mp drained, Option.isNone_iff_eq_none.mp delivered, told, size⟩

end HyprDisplay

end HyprRdp
