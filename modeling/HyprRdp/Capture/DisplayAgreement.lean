import HyprRdp.Capture.Display

namespace HyprRdp

theorem FitsEncoder.mod {size : Nat × Nat} (fits : FitsEncoder size) : size.1 % 2 ^ 16 = size.1 ∧ size.2 % 2 ^ 16 = size.2 := by
  have width := fits.width_le
  have height := fits.height_le
  unfold h264SoftwareMaxLongDimension at width height
  omega

theorem Size.new_some {width height : Nat} {size : Size} (made : Size.new width height = some size) :
    (size.width, size.height) = (width, height) := by
  unfold Size.new at made
  split at made
  · cases made
    rfl
  · cases made

def PresentationGeometry.presentationSize (geometry : PresentationGeometry) : Nat × Nat :=
  (geometry.presentation.width, geometry.presentation.height)

namespace HyprDisplay

/-- No resize is between the publication of its layout and the record of its size. -/
def Settled (s : HyprDisplay) : Prop := ∀ job d, s.job = some job → job.stage ≠ .published d

/-- What a refresh has read is what was published last when it read. -/
def Saw (commits : List Commit) : CaptureRefresh → Prop
  | .idle => True
  | .read presentation seen => seen ≤ commits.length ∧ ∃ size commit, presentation = some size ∧
      (commits.drop (commits.length - seen)).head? = some commit ∧ commit.size = (size.width, size.height)
  | .queried geometry seen => seen ≤ commits.length ∧ ∃ commit,
      (commits.drop (commits.length - seen)).head? = some commit ∧ commit.size = geometry.presentationSize

/-- The decision under way is sound, and the output that it changes is on record as unconfirmed. -/
structure Deciding (s : HyprDisplay) (d : ResizeDecision) : Prop where
  fits : FitsEncoder d.size
  managed : d.target = .managedHeadlessOutput ↔ s.inner.output = none
  unconfirmed : d.target = .managedHeadlessOutput → s.inner.outputSizeUnconfirmed = true

/-- The output has been brought into the mode decided on. -/
structure Resizing (s : HyprDisplay) (d : ResizeDecision) : Prop extends Deciding s d where
  mode : d.target = .managedHeadlessOutput → s.mode = d.size

def StageSound (s : HyprDisplay) : DisplayStage → Prop
  | .decided d | .checked d => s.Deciding d
  | .resized d => s.Resizing d
  | .prepared d geometry => s.Resizing d ∧ geometry.presentationSize = d.size
  | .published d => s.Resizing d ∧ ∃ commit, s.commits.head? = some commit ∧ commit.size = d.size ∧ commit.author ≠ .startup
  | .acquired | .failed | .stopped | .starting => True

structure JobSound (s : HyprDisplay) (job : DisplayJob) : Prop where
  before : (∀ d, job.stage ≠ .published d) → s.presented = job.before
  stage : s.StageSound job.stage

structure Agreed (s : HyprDisplay) : Prop where
  layout : ∃ snapshot commit, s.outputLayout = some snapshot ∧ s.commits.head? = some commit ∧
    presentationOf snapshot = commit.size ∧ FitsEncoder commit.size
  refreshes : ∀ i, Saw s.commits (s.refreshes i)
  recorded : s.Settled → ∀ commit, s.commits.head? = some commit →
    s.inner.resolution = commit.size ∧ s.inner.desktopSize = ⟨commit.size.1, commit.size.2⟩
  surface : s.Settled → ∀ commit, s.commits.head? = some commit → commit.author ≠ .startup →
    ∀ surface, s.inner.egfxShared = some surface → surface = commit.size
  managed : s.inner.outputSizeUnconfirmed = true → s.inner.output = none
  mode : s.inner.output = none → s.inner.outputSizeUnconfirmed = false → s.mode = s.inner.resolution
  idle : ∀ idle, s.inner.idleResolution = some idle → s.inner.output = none ∧ FitsEncoder idle
  job : ∀ job, s.job = some job → s.JobSound job

/-- The last resize published since the refresh read the layout, if any, was to the size that it read. -/
def UpToDate (commits : List Commit) : CaptureRefresh → Prop
  | .queried geometry seen =>
    ∀ commit ∈ (commits.take (commits.length - seen)).head?, commit.size = geometry.presentationSize
  | .idle | .read _ _ => True

instance (commits : List Commit) : DecidablePred (UpToDate commits)
  | .queried geometry seen => inferInstanceAs (Decidable (∀ commit ∈ (commits.take (commits.length - seen)).head?,
      commit.size = geometry.presentationSize))
  | .idle | .read _ _ => inferInstanceAs (Decidable True)

/-- A refresh publishes only what is up to date. -/
def Fresh (s : HyprDisplay) (action : Action) : Prop :=
  match action with
  | .publishRefresh i => UpToDate s.commits (s.refreshes i)
  | _ => True

variable {arith : Rounding} {s t : HyprDisplay} {job : DisplayJob} {d : ResizeDecision}

/-- Two states that agree on what a decision under way is about. -/
structure SameDecision (s t : HyprDisplay) : Prop where
  output : t.inner.output = s.inner.output
  unconfirmed : t.inner.outputSizeUnconfirmed = s.inner.outputSizeUnconfirmed
  mode : t.mode = s.mode
  commits : t.commits = s.commits

theorem SameDecision.deciding (same : SameDecision s t) (deciding : s.Deciding d) : t.Deciding d where
  fits := deciding.fits
  managed := by rw [same.output]; exact deciding.managed
  unconfirmed := by rw [same.unconfirmed]; exact deciding.unconfirmed

theorem SameDecision.resizing (same : SameDecision s t) (resizing : s.Resizing d) : t.Resizing d where
  toDeciding := same.deciding resizing.toDeciding
  mode := by rw [same.mode]; exact resizing.mode

theorem SameDecision.stageSound (same : SameDecision s t) {stage : DisplayStage} (sound : s.StageSound stage) :
    t.StageSound stage := by
  cases stage with
  | decided d => exact same.deciding sound
  | checked d => exact same.deciding sound
  | resized d => exact same.resizing sound
  | prepared d geometry => exact ⟨same.resizing sound.1, sound.2⟩
  | published d =>
    refine ⟨same.resizing sound.1, ?_⟩
    rw [same.commits]
    exact sound.2
  | acquired => trivial
  | failed => trivial
  | stopped => trivial
  | starting => trivial

/-- Two states that agree on all that a resize changes. -/
structure SameOutput (s t : HyprDisplay) : Prop where
  desktopSize : t.inner.desktopSize = s.inner.desktopSize
  resolution : t.inner.resolution = s.inner.resolution
  egfxShared : t.inner.egfxShared = s.inner.egfxShared
  output : t.inner.output = s.inner.output
  unconfirmed : t.inner.outputSizeUnconfirmed = s.inner.outputSizeUnconfirmed
  outputLayout : t.outputLayout = s.outputLayout
  mode : t.mode = s.mode
  commits : t.commits = s.commits
  refreshes : t.refreshes = s.refreshes
  idleResolution : t.inner.idleResolution = s.inner.idleResolution

theorem SameOutput.presented (same : SameOutput s t) : t.presented = s.presented := by
  unfold HyprDisplay.presented
  rw [same.desktopSize, same.resolution, same.outputLayout, same.egfxShared]

theorem SameOutput.stageSound (same : SameOutput s t) {stage : DisplayStage} (sound : s.StageSound stage) :
    t.StageSound stage :=
  SameDecision.stageSound ⟨same.output, same.unconfirmed, same.mode, same.commits⟩ sound

/-- What a step keeps: the agreement, and outside a commit all that is presented. -/
structure Keeps (s t : HyprDisplay) : Prop where
  agreed : t.Agreed
  presented : s.Settled → t.Settled → t.presented = s.presented

/-- A step on the same output that leaves no job, or one that is sound. -/
theorem Agreed.carry (agreed : s.Agreed) (same : SameOutput s t) (settled : t.Settled → s.Settled)
    (sound : ∀ job, t.job = some job → t.JobSound job) : Keeps s t where
  agreed :=
    { layout := by rw [same.outputLayout, same.commits]; exact agreed.layout
      refreshes := by rw [same.refreshes, same.commits]; exact agreed.refreshes
      recorded := fun isSettled => by
        rw [same.commits, same.resolution, same.desktopSize]
        exact agreed.recorded (settled isSettled)
      surface := fun isSettled => by
        rw [same.commits, same.egfxShared]
        exact agreed.surface (settled isSettled)
      managed := by rw [same.unconfirmed, same.output]; exact agreed.managed
      mode := by rw [same.unconfirmed, same.output, same.mode, same.resolution]; exact agreed.mode
      idle := by rw [same.idleResolution, same.output]; exact agreed.idle
      job := sound }
  presented _ _ := same.presented

theorem Agreed.keep (agreed : s.Agreed) (same : SameOutput s t) (sameJob : t.job = s.job) : Keeps s t := by
  refine agreed.carry same (fun settled _ d held => settled _ d (sameJob.trans held)) fun job held => ?_
  have sound := agreed.job job (sameJob.symm.trans held)
  exact ⟨fun unpublished => same.presented.trans (sound.before unpublished), same.stageSound sound.stage⟩

theorem settled_of_job (held : s.job = some job) (unpublished : ∀ d, job.stage ≠ .published d) : s.Settled := by
  intro other d isJob
  cases held.symm.trans isJob
  exact unpublished d

theorem Agreed.release (agreed : s.Agreed) (same : SameOutput s t) (settled : s.Settled) (free : t.job = none) : Keeps s t :=
  agreed.carry same (fun _ => settled) fun _ held => nomatch free.symm.trans held

/-- The job goes on to a stage that is sound already. -/
theorem Agreed.advance (agreed : s.Agreed) (same : SameOutput s t) (held : s.job = some job)
    (unpublished : ∀ d, job.stage ≠ .published d) {next : DisplayJob} (isNext : t.job = some next)
    (before : next.before = job.before) (sound : s.StageSound next.stage) : Keeps s t := by
  refine agreed.carry same (fun _ => settled_of_job held unpublished) fun other isJob => ?_
  cases isNext.symm.trans isJob
  have presented := (agreed.job job held).before unpublished
  exact ⟨fun _ => (same.presented.trans presented).trans before.symm, same.stageSound sound⟩

/-- A decision is taken; the size of a managed output is unconfirmed from now on. -/
theorem Agreed.decide (agreed : s.Agreed) (held : s.job = some job) (unpublished : ∀ d, job.stage ≠ .published d)
    (fits : FitsEncoder d.size) (managed : d.target = .managedHeadlessOutput ↔ s.inner.output = none) {stage : DisplayStage}
    (isStage : stage = .decided d ∨ stage = .checked d) :
    Keeps s ({ s with inner := s.inner.willResize d }.atStage job stage) := by
  have settled := settled_of_job held unpublished
  have presented := (agreed.job job held).before unpublished
  cases physical : d.target with
  | physicalPresentation =>
    have same : s.inner.willResize d = s.inner := if_neg (by rw [physical]; nofun)
    rw [same]
    refine agreed.advance ⟨rfl, rfl, rfl, rfl, rfl, rfl, rfl, rfl, rfl, rfl⟩ held unpublished rfl rfl ?_
    have deciding : s.Deciding d := ⟨fits, managed, fun isManaged => nomatch physical.symm.trans isManaged⟩
    rcases isStage with rfl | rfl <;> exact deciding
  | managedHeadlessOutput =>
    have same : s.inner.willResize d = { s.inner with outputSizeUnconfirmed := true } := if_pos physical
    rw [same]
    have deciding : Deciding ({ s with inner := { s.inner with outputSizeUnconfirmed := true } }.atStage job stage) d :=
      ⟨fits, managed, fun _ => rfl⟩
    refine ⟨⟨agreed.layout, agreed.refreshes, fun _ => agreed.recorded settled, fun _ => agreed.surface settled,
      fun _ => managed.mp physical, nofun, agreed.idle, fun other isJob => ?_⟩, fun _ _ => rfl⟩
    cases isJob
    refine ⟨fun _ => presented, ?_⟩
    rcases isStage with rfl | rfl <;> exact deciding

theorem Keeps.trans {u : HyprDisplay} (first : Keeps s u) (settled : u.Settled) (second : Keeps u t) : Keeps s t where
  agreed := second.agreed
  presented before after := (second.presented settled after).trans (first.presented before settled)

theorem Agreed.fail (agreed : s.Agreed) (held : s.job = some job) (unpublished : ∀ d, job.stage ≠ .published d) :
    Keeps s (s.fail job) := by
  unfold HyprDisplay.fail
  split
  · exact agreed.advance ⟨rfl, rfl, rfl, rfl, rfl, rfl, rfl, rfl, rfl, rfl⟩ held unpublished rfl rfl trivial
  · exact agreed.release ⟨rfl, rfl, rfl, rfl, rfl, rfl, rfl, rfl, rfl, rfl⟩ (settled_of_job held unpublished) rfl

/-- A command may change the mode of an output whose size is unconfirmed. -/
theorem Agreed.changeMode (agreed : s.Agreed) (held : s.job = some job) (stage : job.stage = .checked d)
    (unconfirmed : s.inner.outputSizeUnconfirmed = true) (mode : Nat × Nat) : Keeps s { s with mode } := by
  have settled : s.Settled := settled_of_job held (by rw [stage]; nofun)
  refine ⟨⟨agreed.layout, agreed.refreshes, fun _ => agreed.recorded settled, fun _ => agreed.surface settled,
    agreed.managed, fun _ confirmed => absurd (unconfirmed.symm.trans confirmed) nofun, agreed.idle, fun other isJob => ?_⟩, fun _ _ => rfl⟩
  cases held.symm.trans isJob
  have sound := agreed.job job held
  refine ⟨sound.before, ?_⟩
  have deciding := sound.stage
  rw [stage] at deciding ⊢
  exact ⟨deciding.fits, deciding.managed, deciding.unconfirmed⟩

theorem Agreed.command (agreed : s.Agreed) (held : s.job = some job) (stage : job.stage = .checked d)
    (failure : Option (Nat × Nat)) : Keeps s (s.command job d failure) := by
  have unpublished : ∀ d, job.stage ≠ .published d := by
    rw [stage]
    exact nofun
  have deciding : s.Deciding d := by
    have sound := (agreed.job job held).stage
    rw [stage] at sound
    exact sound
  unfold HyprDisplay.command
  split
  · rename_i physical
    refine agreed.advance ⟨rfl, rfl, rfl, rfl, rfl, rfl, rfl, rfl, rfl, rfl⟩ held unpublished rfl rfl ?_
    exact ⟨deciding, fun managed => nomatch physical.symm.trans managed⟩
  · rename_i managed
    have changed := agreed.changeMode held stage (deciding.unconfirmed managed) d.size
    refine changed.trans (settled_of_job held unpublished)
      (changed.agreed.advance ⟨rfl, rfl, rfl, rfl, rfl, rfl, rfl, rfl, rfl, rfl⟩ held unpublished rfl rfl ?_)
    exact ⟨⟨deciding.fits, deciding.managed, deciding.unconfirmed⟩, fun _ => rfl⟩
  · rename_i mode managed
    have changed := agreed.changeMode held stage (deciding.unconfirmed managed) mode
    exact changed.trans (settled_of_job held unpublished) (changed.agreed.fail held unpublished)

theorem Agreed.query (agreed : s.Agreed) (held : s.job = some job) (stage : job.stage = .resized d) (source : Option Size) :
    Keeps s (s.query job d source) := by
  have unpublished : ∀ d, job.stage ≠ .published d := by
    rw [stage]
    exact nofun
  have resizing : s.Resizing d := by
    have sound := (agreed.job job held).stage
    rw [stage] at sound
    exact sound
  unfold HyprDisplay.query
  split
  · rename_i source presentation made
    refine agreed.advance ⟨rfl, rfl, rfl, rfl, rfl, rfl, rfl, rfl, rfl, rfl⟩ held unpublished rfl rfl ⟨resizing, ?_⟩
    exact Size.new_some made
  · exact agreed.fail held unpublished

theorem Agreed.publish {geometry : PresentationGeometry} (agreed : s.Agreed) (held : s.job = some job)
    (stage : job.stage = .prepared d geometry) : Keeps s (s.publish job d geometry) := by
  have unpublished : ∀ d, job.stage ≠ .published d := by
    rw [stage]
    exact nofun
  have settled := settled_of_job held unpublished
  obtain ⟨resizing, prepared⟩ : s.Resizing d ∧ geometry.presentationSize = d.size := by
    have sound := (agreed.job job held).stage
    rw [stage] at sound
    exact sound
  unfold HyprDisplay.publish
  split
  · exact agreed.release ⟨rfl, rfl, rfl, rfl, rfl, rfl, rfl, rfl, rfl, rfl⟩ settled rfl
  · split
    · exact agreed.release ⟨rfl, rfl, rfl, rfl, rfl, rfl, rfl, rfl, rfl, rfl⟩ settled rfl
    · have isPublished : ∀ t : HyprDisplay, t.job = some { job with stage := .published d } → ¬ t.Settled :=
        fun t isJob settled => settled _ d isJob rfl
      have author : job.author ≠ .startup := by
        unfold DisplayJob.author
        split <;> nofun
      refine ⟨⟨⟨_, _, rfl, rfl, prepared, resizing.fits⟩, fun i => ?_, fun after => absurd after (isPublished _ rfl),
        fun after => absurd after (isPublished _ rfl), agreed.managed, agreed.mode, agreed.idle,
        fun other isJob => ?_⟩, fun _ after => absurd after (isPublished _ rfl)⟩
      · have saw := agreed.refreshes i
        -- a newer resize does not change what was published when the refresh read
        have older : ∀ seen, seen ≤ s.commits.length →
            (⟨d.size, job.author⟩ :: s.commits).drop ((⟨d.size, job.author⟩ :: s.commits).length - seen) =
              s.commits.drop (s.commits.length - seen) := fun seen le => by
          rw [List.length_cons, Nat.succ_sub le, List.drop_succ_cons]
        change Saw (⟨d.size, job.author⟩ :: s.commits) (s.refreshes i)
        cases refresh : s.refreshes i with
        | idle => trivial
        | read presentation seen =>
          rw [refresh] at saw
          obtain ⟨le, size, commit, isRead, head, same⟩ := saw
          exact ⟨Nat.le_succ_of_le le, size, commit, isRead, by rw [older seen le]; exact head, same⟩
        | queried geometry seen =>
          rw [refresh] at saw
          obtain ⟨le, commit, head, same⟩ := saw
          exact ⟨Nat.le_succ_of_le le, commit, by rw [older seen le]; exact head, same⟩
      · cases isJob
        refine ⟨fun after => absurd rfl (after d), ⟨⟨resizing.fits, resizing.managed, resizing.unconfirmed⟩, resizing.mode⟩, ?_⟩
        exact ⟨_, rfl, rfl, author⟩

/-- The size is on record: the agreement is complete again. -/
theorem Agreed.recordSize (agreed : s.Agreed) (held : s.job = some job) (stage : job.stage = .published d)
    (free : t.job = none) (inner : ∃ pending, t.inner = { s.inner.applyPresentationState d.size with pendingInitialResize := pending })
    (outputLayout : t.outputLayout = s.outputLayout) (mode : t.mode = s.mode) (commits : t.commits = s.commits)
    (refreshes : t.refreshes = s.refreshes) : Keeps s t := by
  obtain ⟨resizing, commit, head, size, _⟩ : s.Resizing d ∧ ∃ commit, s.commits.head? = some commit ∧
      commit.size = d.size ∧ commit.author ≠ .startup := by
    have sound := (agreed.job job held).stage
    rw [stage] at sound
    exact sound
  obtain ⟨pending, inner⟩ := inner
  have fits := resizing.fits.mod
  have newest : ∀ other, t.commits.head? = some other → d.size = other.size := fun other isHead => by
    rw [commits, head] at isHead
    cases isHead
    exact size.symm
  refine ⟨⟨?_, ?_, fun _ other isHead => ?_, fun _ other isHead _ surface isSurface => ?_, ?_, fun unnamed _ => ?_, ?_,
    fun _ isJob => nomatch free.symm.trans isJob⟩, fun settled => absurd stage (settled job d held)⟩
  · rw [outputLayout, commits]
    exact agreed.layout
  · rw [refreshes, commits]
    exact agreed.refreshes
  · rw [← newest other isHead, inner]
    refine ⟨rfl, ?_⟩
    show (⟨d.size.1 % 2 ^ 16, d.size.2 % 2 ^ 16⟩ : DesktopSize) = ⟨d.size.1, d.size.2⟩
    rw [fits.1, fits.2]
  · rw [← newest other isHead]
    rw [inner] at isSurface
    obtain ⟨_, _, rfl⟩ := Option.map_eq_some_iff.mp isSurface
    rw [fits.1, fits.2]
  · rw [inner]
    exact nofun
  · rw [inner] at unnamed ⊢
    show t.mode = d.size
    rw [mode]
    exact resizing.mode (resizing.managed.mpr unnamed)
  · rw [inner]
    exact agreed.idle

theorem Agreed.record (agreed : s.Agreed) (held : s.job = some job) (stage : job.stage = .published d) :
    Keeps s (s.record job d) := by
  unfold HyprDisplay.record
  dsimp only
  split <;> exact agreed.recordSize held stage rfl ⟨_, rfl⟩ rfl rfl rfl rfl

/-- The display takes the size that it has. -/
theorem Agreed.started (agreed : s.Agreed) (held : s.job = some job) (stage : job.stage = .starting)
    (info : Option (Nat × Nat)) : Keeps s (s.started info) := by
  have settled : s.Settled := settled_of_job held (by rw [stage]; nofun)
  obtain ⟨snapshot, commit, isLayout, head, presentation, fits⟩ := agreed.layout
  obtain ⟨resolution, size⟩ := agreed.recorded settled commit head
  unfold HyprDisplay.started
  split
  · exact agreed.release ⟨rfl, rfl, rfl, rfl, rfl, rfl, rfl, rfl, rfl, rfl⟩ settled rfl
  · rename_i info
    have same : (s.outputLayout.map presentationOf).getD info = commit.size := by
      rw [isLayout]
      exact presentation
    rw [same]
    refine agreed.release ⟨?_, resolution.symm, rfl, rfl, rfl, rfl, rfl, rfl, rfl, rfl⟩ settled rfl
    rw [size]
    show (⟨commit.size.1 % 2 ^ 16, commit.size.2 % 2 ^ 16⟩ : DesktopSize) = ⟨commit.size.1, commit.size.2⟩
    rw [fits.mod.1, fits.mod.2]

theorem Agreed.reconciled (agreed : s.Agreed) (settled : s.Settled) {decision : Option ResizeDecision}
    (sound : ∀ d, decision = some d → FitsEncoder d.size ∧ (d.target = .managedHeadlessOutput ↔ s.inner.output.isSome = false))
    (decided : s.inner.reconcileResizeDecision decision = some d) :
    FitsEncoder d.size ∧ (d.target = .managedHeadlessOutput ↔ s.inner.output = none) := by
  unfold HyprDisplayInner.reconcileResizeDecision at decided
  cases decision with
  | some e =>
    cases decided
    obtain ⟨fits, managed⟩ := sound d rfl
    rw [Option.isSome_eq_false_iff, Option.isNone_iff_eq_none] at managed
    exact ⟨fits, managed⟩
  | none =>
    obtain ⟨⟨unnamed, _⟩, same⟩ := Option.ite_none_right_eq_some.mp decided
    cases same
    obtain ⟨_, commit, _, head, _, fits⟩ := agreed.layout
    obtain ⟨resolution, _⟩ := agreed.recorded settled commit head
    refine ⟨?_, fun _ => Option.isNone_iff_eq_none.mp unnamed, fun _ => rfl⟩
    show FitsEncoder s.inner.resolution
    rw [resolution]
    exact fits

/-- The decision of whoever is at the gate. -/
theorem Agreed.decideJob (agreed : s.Agreed) (held : s.job = some job) (stage : job.stage = .acquired) :
    Keeps s (s.decide arith job) := by
  have unpublished : ∀ d, job.stage ≠ .published d := by
    rw [stage]
    exact nofun
  have settled := settled_of_job held unpublished
  have released : ∀ t, SameOutput s t → t.job = none → Keeps s t := fun t same free => agreed.release same settled free
  have same : ∀ t, t = s.release ∨ t = s.reply → Keeps s t := by
    rintro t (rfl | rfl) <;> exact released _ ⟨rfl, rfl, rfl, rfl, rfl, rfl, rfl, rfl, rfl, rfl⟩ rfl
  unfold HyprDisplay.decide
  split
  · rename_i client isRequest
    unfold decideRequest
    dsimp only
    split
    · rename_i open_ decided
      obtain ⟨fits, managed⟩ := agreed.reconciled settled
        (fun d decided => initialSizeResizeDecision_some (clampToH264SoftwareLimits_bounds _ _) decided) decided
      exact agreed.decide held unpublished fits managed (.inl rfl)
    · exact same _ (.inr rfl)
  · rename_i layout isLayout
    unfold decideLayout
    dsimp only
    split
    · rename_i open_ decided
      obtain ⟨fits, managed⟩ := agreed.reconciled settled (fun d decided => displayControlResizeDecision_some decided) decided
      exact agreed.decide held unpublished fits managed (.inr rfl)
    · exact same _ (.inl rfl)
  · unfold decideRestore
    split
    · exact same _ (.inl rfl)
    · split
      · exact same _ (.inl rfl)
      · rename_i idle isIdle
        split
        · exact same _ (.inl rfl)
        · obtain ⟨unnamed, fits⟩ := agreed.idle idle isIdle
          exact agreed.decide (d := ⟨.managedHeadlessOutput, idle.1, idle.2⟩) held unpublished fits
            ⟨fun _ => unnamed, fun _ => rfl⟩ (.inr rfl)
  · unfold decideStart
    split
    · exact same _ (.inl rfl)
    · exact agreed.advance ⟨rfl, rfl, rfl, rfl, rfl, rfl, rfl, rfl, rfl, rfl⟩ held unpublished rfl rfl trivial
  · exact released _ ⟨rfl, rfl, rfl, rfl, rfl, rfl, rfl, rfl, rfl, rfl⟩ rfl

theorem Agreed.refreshed (agreed : s.Agreed) (i : Nat) {refresh : CaptureRefresh} (saw : Saw s.commits refresh) :
    Keeps s (s.refreshed i refresh) := by
  refine ⟨⟨agreed.layout, fun j => ?_, agreed.recorded, agreed.surface, agreed.managed, agreed.mode, agreed.idle,
    fun job held => ?_⟩, fun _ _ => rfl⟩
  · show Saw s.commits (Function.update s.refreshes i refresh j)
    by_cases other : j = i
    · rw [other, Function.update_self]
      exact saw
    · rw [Function.update_of_ne other]
      exact agreed.refreshes j
  · have sound := agreed.job job held
    exact ⟨sound.before, SameDecision.stageSound (s := s) (t := s.refreshed i refresh) ⟨rfl, rfl, rfl, rfl⟩ sound.stage⟩

/-- Another layout with the same presentation is published. -/
theorem Agreed.changeLayout (agreed : s.Agreed) {snapshot : OutputLayoutSnapshot}
    (same : ∀ commit, s.commits.head? = some commit → presentationOf snapshot = commit.size) :
    Keeps s { s with outputLayout := some snapshot } := by
  obtain ⟨old, commit, isLayout, head, presentation, fits⟩ := agreed.layout
  have presented : ({ s with outputLayout := some snapshot } : HyprDisplay).presented = s.presented := by
    unfold HyprDisplay.presented
    rw [isLayout, Option.map_some, Option.map_some, presentation, same commit head]
  refine ⟨⟨⟨snapshot, commit, rfl, head, same commit head, fits⟩, agreed.refreshes, agreed.recorded, agreed.surface,
    agreed.managed, agreed.mode, agreed.idle, fun job held => ?_⟩, fun _ _ => presented⟩
  have sound := agreed.job job held
  exact ⟨fun unpublished => presented.trans (sound.before unpublished),
    SameDecision.stageSound (s := s) (t := { s with outputLayout := some snapshot }) ⟨rfl, rfl, rfl, rfl⟩ sound.stage⟩

/-- A fresh refresh publishes the presentation that is there. -/
theorem Agreed.publishRefresh {i seen : Nat} {geometry : PresentationGeometry} (agreed : s.Agreed)
    (queried : s.refreshes i = .queried geometry seen) (fresh : s.Fresh (.publishRefresh i)) :
    Keeps s ({ s with outputLayout := some (.applyPrepared s.outputLayout geometry) }.refreshed i .idle) := by
  have changed : Keeps s { s with outputLayout := some (.applyPrepared s.outputLayout geometry) } := by
    refine agreed.changeLayout fun commit head => ?_
    have saw := agreed.refreshes i
    rw [queried] at saw
    obtain ⟨le, read, isRead, size⟩ := saw
    show geometry.presentationSize = commit.size
    by_cases newer : s.commits.length - seen = 0
    · rw [newer, List.drop_zero, head] at isRead
      cases isRead
      exact size.symm
    · have fresh : UpToDate s.commits (s.refreshes i) := fresh
      rw [queried] at fresh
      refine (fresh commit ?_).symm
      rw [List.head?_take, if_neg newer]
      exact head
  have saw : Saw s.commits .idle := trivial
  have agreed := changed.agreed
  exact ⟨(agreed.refreshed i saw).agreed, changed.presented⟩

theorem Agreed.next {action : Action} (agreed : s.Agreed) (fresh : s.Fresh action) (step : s.next arith action = some t) :
    Keeps s t := by
  cases next_step step with
  | sessionStarted => exact agreed.keep ⟨rfl, rfl, rfl, rfl, rfl, rfl, rfl, rfl, rfl, rfl⟩ rfl
  | sessionEnded =>
    split
    · exact agreed.keep ⟨rfl, rfl, rfl, rfl, rfl, rfl, rfl, rfl, rfl, rfl⟩ rfl
    · exact agreed.keep ⟨rfl, rfl, rfl, rfl, rfl, rfl, rfl, rfl, rfl, rfl⟩ rfl
  | ignored => exact agreed.keep ⟨rfl, rfl, rfl, rfl, rfl, rfl, rfl, rfl, rfl, rfl⟩ rfl
  | acquire idle _ _ =>
    refine agreed.carry ⟨rfl, rfl, rfl, rfl, rfl, rfl, rfl, rfl, rfl, rfl⟩ (fun _ job d held => ?_) fun job held => ?_
    · cases idle.symm.trans held
    · cases held
      exact ⟨fun _ => rfl, trivial⟩
  | acquireRestore idle _ =>
    refine agreed.carry ⟨rfl, rfl, rfl, rfl, rfl, rfl, rfl, rfl, rfl, rfl⟩ (fun _ job d held => ?_) fun job held => ?_
    · cases idle.symm.trans held
    · cases held
      exact ⟨fun _ => rfl, trivial⟩
  | close => exact agreed.keep ⟨rfl, rfl, rfl, rfl, rfl, rfl, rfl, rfl, rfl, rfl⟩ rfl
  | withdraw held _ stage =>
    exact agreed.release ⟨rfl, rfl, rfl, rfl, rfl, rfl, rfl, rfl, rfl, rfl⟩
      (settled_of_job held (by rw [stage]; nofun)) rfl
  | @cancel job held _ _ unpublished =>
    exact agreed.advance ⟨rfl, rfl, rfl, rfl, rfl, rfl, rfl, rfl, rfl, rfl⟩ held unpublished rfl rfl (agreed.job job held).stage
  | decide held stage => exact agreed.decideJob held stage
  | @check job d held stage =>
    refine agreed.advance ⟨rfl, rfl, rfl, rfl, rfl, rfl, rfl, rfl, rfl, rfl⟩ held (by rw [stage]; nofun) rfl rfl ?_
    have sound := (agreed.job job held).stage
    rw [stage] at sound
    split
    · trivial
    · exact sound
  | command failure held stage => exact agreed.command held stage failure
  | query source held stage => exact agreed.query held stage source
  | publish held stage => exact agreed.publish held stage
  | record held stage => exact agreed.record held stage
  | finish held stage =>
    have settled : s.Settled := settled_of_job held (by rw [stage]; nofun)
    split <;> exact agreed.release ⟨rfl, rfl, rfl, rfl, rfl, rfl, rfl, rfl, rfl, rfl⟩ settled rfl
  | @join job held stage =>
    have unpublished : ∀ d, job.stage ≠ .published d := by
      rw [stage]
      exact nofun
    unfold HyprDisplay.startCapture
    split
    · exact agreed.release ⟨rfl, rfl, rfl, rfl, rfl, rfl, rfl, rfl, rfl, rfl⟩ (settled_of_job held unpublished) rfl
    · exact agreed.advance ⟨rfl, rfl, rfl, rfl, rfl, rfl, rfl, rfl, rfl, rfl⟩ held unpublished rfl rfl trivial
  | started info held stage => exact agreed.started held stage info
  | @readRefresh i _ =>
    refine agreed.refreshed i ?_
    obtain ⟨snapshot, commit, isLayout, head, presentation, _⟩ := agreed.layout
    refine ⟨le_rfl, snapshot.presentationGeometry.presentation, commit, ?_, ?_, presentation.symm⟩
    · rw [isLayout]
      rfl
    · rw [Nat.sub_self, List.drop_zero]
      exact head
  | @queryRefresh i seen presentation source isRead =>
    refine agreed.refreshed i ?_
    split
    · rename_i source
      have saw := agreed.refreshes i
      rw [isRead] at saw
      obtain ⟨le, size, commit, rfl, head, same⟩ := saw
      exact ⟨le, commit, head, same⟩
    · trivial
  | publishRefresh queried => exact agreed.publishRefresh queried fresh
  | takeResize _ _ => exact agreed.keep ⟨rfl, rfl, rfl, rfl, rfl, rfl, rfl, rfl, rfl, rfl⟩ rfl
  | takeOther _ _ => exact agreed.keep ⟨rfl, rfl, rfl, rfl, rfl, rfl, rfl, rfl, rfl, rfl⟩ rfl
  | dropUpdates _ => exact agreed.keep ⟨rfl, rfl, rfl, rfl, rfl, rfl, rfl, rfl, rfl, rfl⟩ rfl
  | sendOther => exact agreed.keep ⟨rfl, rfl, rfl, rfl, rfl, rfl, rfl, rfl, rfl, rfl⟩ rfl
  | deliverInitialResize _ => exact agreed.keep ⟨rfl, rfl, rfl, rfl, rfl, rfl, rfl, rfl, rfl, rfl⟩ rfl
  | recreateProcessor _ => exact agreed.keep ⟨rfl, rfl, rfl, rfl, rfl, rfl, rfl, rfl, rfl, rfl⟩ rfl
  | restartCapture _ => exact agreed.keep ⟨rfl, rfl, rfl, rfl, rfl, rfl, rfl, rfl, rfl, rfl⟩ rfl
  | endCapture => exact agreed.keep ⟨rfl, rfl, rfl, rfl, rfl, rfl, rfl, rfl, rfl, rfl⟩ rfl

variable {output : Option String} {resolutionFixed : Bool} {resolution : Nat × Nat} {source : Size}

theorem new_agreed (made : new arith output resolutionFixed resolution source = some s) : s.Agreed := by
  unfold HyprDisplay.new at made
  dsimp only at made
  obtain ⟨presentation, isSize, rfl⟩ := Option.map_eq_some_iff.mp made
  have bounds := @startupPresentationSize_bounds arith output.isSome resolutionFixed _ (source.width, source.height)
    (@clampToH264SoftwareLimits_bounds arith resolution.1 resolution.2)
  have unnamed : output = none → startupPresentationSize arith output.isSome resolutionFixed
      (clampToH264SoftwareLimits arith resolution.1 resolution.2) (source.width, source.height) =
        clampToH264SoftwareLimits arith resolution.1 resolution.2 := by
    rintro rfl
    rfl
  dsimp only at bounds
  generalize startupPresentationSize arith output.isSome resolutionFixed
    (clampToH264SoftwareLimits arith resolution.1 resolution.2) (source.width, source.height) = startup at *
  have size : (presentation.width, presentation.height) = startup := Size.new_some isSize
  have fits : FitsEncoder startup := by
    have width := presentation.width_pos
    have height := presentation.height_pos
    rw [← size] at bounds ⊢
    exact (bounds.resolve_left width.ne').resolve_left height.ne'
  refine ⟨⟨_, _, rfl, rfl, size, fits⟩, fun _ => trivial, fun _ commit head => ?_, fun _ commit head started => ?_, nofun,
    fun isNone _ => ?_, fun idle isIdle => ?_, nofun⟩
  · cases head
    refine ⟨rfl, ?_⟩
    show (⟨startup.1 % 2 ^ 16, startup.2 % 2 ^ 16⟩ : DesktopSize) = ⟨startup.1, startup.2⟩
    rw [fits.mod.1, fits.mod.2]
  · cases head
    exact absurd rfl started
  · show (if output.isNone then clampToH264SoftwareLimits arith resolution.1 resolution.2
      else (source.width, source.height)) = startup
    rw [if_pos (Option.isNone_iff_eq_none.mpr isNone)]
    exact (unnamed isNone).symm
  · obtain ⟨isNone, same⟩ := Option.ite_none_right_eq_some.mp isIdle
    cases same
    exact ⟨Option.isNone_iff_eq_none.mp isNone, fits⟩

theorem reach_agreed (reach : ((runs arith output resolutionFixed resolution source).guarded Fresh).Reach s) : s.Agreed := by
  have kept : ((runs arith output resolutionFixed resolution source).guarded Fresh).Inductive Agreed :=
    ⟨fun _ made => new_agreed made, fun _ _ _ agreed step => (agreed.next step.1 step.2).agreed⟩
  exact kept.reach reach

/-- The shared layout presents the size published last. -/
def LayoutCurrent (s : HyprDisplay) : Prop :=
  ∃ snapshot commit, s.outputLayout = some snapshot ∧ s.commits.head? = some commit ∧ presentationOf snapshot = commit.size

/-- As long as every refresh of a capture thread publishes the size that was
published last, the shared layout presents that size in every state; a refresh
that publishes another one takes it away. -/
theorem layout_follows_commits (arith : Rounding) (output : Option String) (resolutionFixed : Bool)
    (resolution : Nat × Nat) (source : Size) :
    (∀ s : HyprDisplay, ((runs arith output resolutionFixed resolution source).guarded Fresh).Reach s → s.LayoutCurrent) ∧
    (∀ (s t : HyprDisplay) (i : Nat), s.next arith (.publishRefresh i) = some t → ¬ s.Fresh (.publishRefresh i) →
      ¬ t.LayoutCurrent) := by
  refine ⟨fun s reach => ?_, fun s t i step stale current => ?_⟩
  · obtain ⟨snapshot, commit, isLayout, head, same, _⟩ := (reach_agreed reach).layout
    exact ⟨snapshot, commit, isLayout, head, same⟩
  · refine stale ?_
    show UpToDate s.commits (s.refreshes i)
    obtain ⟨snapshot, commit, isLayout, head, same⟩ := current
    dsimp only [HyprDisplay.next] at step
    split at step
    · rename_i geometry seen queried
      cases step
      cases isLayout
      rw [queried]
      intro newer isNewer
      have newest : s.commits.head? = some newer := by
        rw [List.head?_take] at isNewer
        exact (Option.ite_none_left_eq_some.mp isNewer).2
      cases newest.symm.trans head
      exact same.symm
    · cases step

/-- The steps by which a request comes to its resize command. -/
def toCommand : DisplayCaller → List Action
  | .requestInitialSize client => [.acquire (.requestInitialSize client), .decide, .check]
  | caller => [.acquire caller, .decide]

/-- What the client, the compositor and the display hold to be the size, between two operations. -/
structure Agreement (arith : Rounding) (s : HyprDisplay) : Prop where
  size : (s.inner.width, s.inner.height) = s.inner.resolution
  presented : (∀ commit, s.commits.head? = some commit → commit.author ≠ .startup) →
    s.outputLayout.map presentationOf = some s.inner.resolution ∧
      ∀ surface, s.inner.egfxShared = some surface → surface = s.inner.resolution
  mode : s.inner.output = none → s.inner.outputSizeUnconfirmed = false → s.mode = s.inner.resolution
  recovers : s.inner.outputSizeUnconfirmed = true → s.inner.closed = false →
    ∀ caller, (∃ client, caller = .requestInitialSize client) ∨ (∃ layout, layout ≠ [] ∧ caller = .requestLayout layout) →
      ∃ t job d, StepSystem.exec (next arith) s (toCommand caller) = some t ∧ t.job = some job ∧
        job.stage = .checked d ∧ d.target = .managedHeadlessOutput

/-- An unconfirmed size is decided on again, whatever is asked for. -/
theorem Agreed.redecides (agreed : s.Agreed) (free : s.job = none) (unconfirmed : s.inner.outputSizeUnconfirmed = true)
    (decision : Option ResizeDecision)
    (sound : ∀ d, decision = some d → FitsEncoder d.size ∧ (d.target = .managedHeadlessOutput ↔ s.inner.output.isSome = false)) :
    ∃ d, s.inner.reconcileResizeDecision decision = some d ∧ d.target = .managedHeadlessOutput := by
  have unnamed := agreed.managed unconfirmed
  have settled : s.Settled := fun job d held => nomatch free.symm.trans held
  have decides : ∃ d, s.inner.reconcileResizeDecision decision = some d := by
    unfold HyprDisplayInner.reconcileResizeDecision
    rw [unnamed, unconfirmed]
    cases decision with
    | none => exact ⟨_, rfl⟩
    | some d => exact ⟨d, rfl⟩
  obtain ⟨d, decided⟩ := decides
  exact ⟨d, decided, (agreed.reconciled settled sound decided).2.mpr unnamed⟩

theorem acquire_some {caller : DisplayCaller} (free : s.job = none)
    (asks : (∃ client, caller = .requestInitialSize client) ∨ (∃ layout, layout ≠ [] ∧ caller = .requestLayout layout)) :
    s.next arith (.acquire caller) = some { s with job := some ⟨caller, s.sessionEpoch, false, .acquired, s.presented⟩ } := by
  have proper : caller ≠ .requestLayout [] ∧ caller ≠ .restoreAfterSession ∧ caller ≠ .shutdown := by
    rcases asks with ⟨client, rfl⟩ | ⟨layout, nonempty, rfl⟩
    · exact ⟨nofun, nofun, nofun⟩
    · exact ⟨fun empty => nonempty (DisplayCaller.requestLayout.inj empty), nofun, nofun⟩
  dsimp only [HyprDisplay.next]
  rw [if_neg proper.1, if_neg]
  rintro (held | restores | ⟨shuts, _⟩)
  · rw [free] at held
    cases held
  · exact proper.2.1 restores
  · exact proper.2.2 shuts

theorem decideRequest_some {client : DesktopSize} (opened : s.inner.closed = false)
    (decided : s.inner.reconcileResizeDecision (initialSizeResizeDecision arith s.inner.output.isSome
      s.inner.resolutionFixed s.inner.resolution (clampToH264SoftwareLimits arith client.width client.height) s.source) =
        some d) :
    s.decideRequest arith job client = { s with inner := s.inner.willResize d }.atStage job (.decided d) := by
  unfold decideRequest
  dsimp only
  rw [opened, decided]

theorem decideLayout_some {layout : List MonitorLayoutEntry} (opened : s.inner.closed = false)
    (decided : s.inner.reconcileResizeDecision (displayControlResizeDecision arith layout s.inner.output.isSome
      s.inner.resolutionFixed s.inner.resolution s.source) = some d) :
    s.decideLayout arith job layout = { s with inner := s.inner.willResize d }.atStage job (.checked d) := by
  unfold decideLayout
  dsimp only
  rw [opened, decided]

theorem Agreed.recovers (agreed : s.Agreed) (free : s.job = none) (unconfirmed : s.inner.outputSizeUnconfirmed = true)
    (opened : s.inner.closed = false) {caller : DisplayCaller}
    (asks : (∃ client, caller = .requestInitialSize client) ∨ (∃ layout, layout ≠ [] ∧ caller = .requestLayout layout)) :
    ∃ t job d, StepSystem.exec (HyprDisplay.next arith) s (toCommand caller) = some t ∧ t.job = some job ∧
      job.stage = .checked d ∧ d.target = .managedHeadlessOutput := by
  have acquired := @acquire_some arith s _ free asks
  rcases asks with ⟨client, rfl⟩ | ⟨layout, nonempty, rfl⟩
  · obtain ⟨d, decided, managed⟩ := agreed.redecides free unconfirmed
      (initialSizeResizeDecision arith s.inner.output.isSome s.inner.resolutionFixed s.inner.resolution
        (clampToH264SoftwareLimits arith client.width client.height) s.source)
      (fun d decided => initialSizeResizeDecision_some (clampToH264SoftwareLimits_bounds _ _) decided)
    let job : DisplayJob := ⟨.requestInitialSize client, s.sessionEpoch, false, .acquired, s.presented⟩
    let u : HyprDisplay := { s with job := some job }
    have decides : u.decideRequest arith job client = { u with inner := s.inner.willResize d }.atStage job (.decided d) :=
      decideRequest_some opened decided
    refine ⟨{ u with inner := s.inner.willResize d }.atStage job (.checked d), { job with stage := .checked d }, d,
      ?_, rfl, rfl, managed⟩
    show (s.next arith _).bind _ = _
    rw [acquired]
    show (some (u.decideRequest arith job client)).bind (fun t => StepSystem.exec (HyprDisplay.next arith) t [.check]) = _
    rw [decides]
    show some (HyprDisplay.atStage _ _ (if (s.inner.willResize d).closed then _ else _)) = _
    rw [HyprDisplayInner.willResize_closed, opened]
    rfl
  · obtain ⟨d, decided, managed⟩ := agreed.redecides free unconfirmed
      (displayControlResizeDecision arith layout s.inner.output.isSome s.inner.resolutionFixed s.inner.resolution s.source)
      (fun d decided => displayControlResizeDecision_some decided)
    let job : DisplayJob := ⟨.requestLayout layout, s.sessionEpoch, false, .acquired, s.presented⟩
    let u : HyprDisplay := { s with job := some job }
    have decides : u.decideLayout arith job layout = { u with inner := s.inner.willResize d }.atStage job (.checked d) :=
      decideLayout_some opened decided
    refine ⟨{ u with inner := s.inner.willResize d }.atStage job (.checked d), { job with stage := .checked d }, d,
      ?_, rfl, rfl, managed⟩
    show (s.next arith _).bind _ = _
    rw [acquired]
    show some (u.decideLayout arith job layout) = _
    rw [decides]

theorem Agreed.agreement (agreed : s.Agreed) (free : s.job = none) : s.Agreement arith := by
  have settled : s.Settled := fun job d held => nomatch free.symm.trans held
  obtain ⟨snapshot, commit, isLayout, head, presentation, fits⟩ := agreed.layout
  obtain ⟨resolution, size⟩ := agreed.recorded settled commit head
  refine ⟨?_, fun committed => ⟨?_, fun surface isSurface => ?_⟩, agreed.mode, fun unconfirmed opened caller asks => ?_⟩
  · rw [resolution]
    exact congrArg (fun size => (size.width, size.height)) size
  · rw [isLayout, Option.map_some, presentation, resolution]
  · rw [resolution]
    exact agreed.surface settled commit head (committed commit head) surface isSurface
  · exact agreed.recovers free unconfirmed opened asks

/-- As long as every refresh of a capture thread publishes the size that was
published last, all sizes agree whenever nobody is at the resize gate, and an
operation that ends without a commit has changed none of them. -/
theorem display_agrees (reach : ((runs arith output resolutionFixed resolution source).guarded Fresh).Reach s) :
    (s.job = none → s.Agreement arith) ∧
    (∀ job, s.job = some job → (∀ d, job.stage ≠ .published d) → s.presented = job.before ∧
      ∀ action t, s.Fresh action → s.next arith action = some t → t.job = none → t.presented = job.before) := by
  have agreed := reach_agreed reach
  refine ⟨agreed.agreement, fun job held unpublished => ?_⟩
  have before := (agreed.job job held).before unpublished
  refine ⟨before, fun action t fresh step free => ?_⟩
  have settled : t.Settled := fun job d held => nomatch free.symm.trans held
  exact ((agreed.next fresh step).presented (settled_of_job held unpublished) settled).trans before

instance (s : HyprDisplay) : DecidablePred s.Fresh
  | .publishRefresh i => inferInstanceAs (Decidable (UpToDate s.commits (s.refreshes i)))
  | .sessionStarted | .sessionEnded | .acquire _ | .acquireRestore _ | .close | .cancel | .decide | .check | .command _
  | .query _ | .publish | .record | .finish | .join | .started _ | .readRefresh _ | .queryRefresh _ _ | .take
  | .dropUpdates | .sendOther | .deliverInitialResize | .recreateProcessor | .restartCapture | .endCapture =>
    inferInstanceAs (Decidable True)

/-- A capture start; its thread refreshes the layout before the start is over. -/
def captureStart (source : Size) : List Action :=
  [.acquire .startCaptureUpdates, .decide, .join, .readRefresh 0, .queryRefresh 0 (some source), .publishRefresh 0,
    .started (some (source.width, source.height))]

/-- A layout of 1280 by 720 that is committed. -/
def layoutCommit : List Action :=
  [.acquire (.requestLayout [⟨true, (1280, 720), some (0, 0), none⟩]), .decide, .command none, .query (some wideSize),
    .publish, .record]

/-- The layout is committed between the read and the publication of a refresh. -/
def staleRefresh : List Action :=
  [Action.sessionStarted] ++ captureStart smallSize ++ [Action.readRefresh 0] ++ layoutCommit ++
    [Action.queryRefresh 0 (some wideSize), .publishRefresh 0]

/-- The shared layout is left with the old size. -/
theorem stale_refresh_undoes_resize :
    ∃ s, (runs .double none false (800, 600) smallSize).Reach s ∧ s.job = none ∧ ¬ s.LayoutCurrent := by
  have run : (smallDisplay.bind fun s => StepSystem.exec (next .double) s staleRefresh).map
      (fun s => (s.job.isNone, s.outputLayout.map presentationOf, s.commits.head?.map (·.size))) =
        some (true, some (800, 600), some (1280, 720)) := by
    decide
  obtain ⟨s, run, seen⟩ := Option.map_eq_some_iff.mp run
  obtain ⟨first, started, run⟩ := Option.bind_eq_some_iff.mp run
  simp only [Prod.mk.injEq] at seen
  obtain ⟨free, presentation, newest⟩ := seen
  refine ⟨s, .exec (fun _ _ _ step => step) staleRefresh (.start started) run, Option.isNone_iff_eq_none.mp free, ?_⟩
  rintro ⟨snapshot, commit, isLayout, head, same⟩
  rw [isLayout] at presentation
  rw [head] at newest
  cases (Option.some.inj presentation).symm.trans (same.trans (Option.some.inj newest))

/-- A refresh that reads after the commit keeps it. -/
theorem layout_follows_commits_once :
    (∃ s, ((runs .double none false (800, 600) smallSize).guarded Fresh).Reach s ∧ s.LayoutCurrent ∧ s.commits.length = 2) ∧
    (∃ s t : HyprDisplay, s.next .double (.publishRefresh 0) = some t ∧ ¬ t.LayoutCurrent) := by
  refine ⟨?_, ?_⟩
  · have run : (smallDisplay.bind fun s => StepSystem.exec
        (fun s action => if Fresh s action then next .double s action else none) s
        ([Action.sessionStarted] ++ captureStart smallSize ++ layoutCommit ++ captureStart wideSize)).map
          (fun s => s.commits.length) = some 2 := by
      decide
    obtain ⟨s, run, two⟩ := Option.map_eq_some_iff.mp run
    have reach := small_exec _ run
    exact ⟨s, reach, (layout_follows_commits _ _ _ _ _).1 s reach, two⟩
  · have run : ((smallDisplay.bind fun s => StepSystem.exec (next .double) s staleRefresh.dropLast).bind fun s =>
        if Fresh s (.publishRefresh 0) then none else (s.next .double (.publishRefresh 0)).map fun t => (s, t)).isSome = true := by
      decide
    obtain ⟨⟨s, t⟩, run⟩ := Option.isSome_iff_exists.mp run
    obtain ⟨first, _, run⟩ := Option.bind_eq_some_iff.mp run
    obtain ⟨stale, run⟩ := Option.ite_none_left_eq_some.mp run
    obtain ⟨u, step, same⟩ := Option.map_eq_some_iff.mp run
    cases same
    exact ⟨s, t, step, (layout_follows_commits _ none false (800, 600) smallSize).2 _ _ 0 step stale⟩

/-- A layout that is committed while a capture thread runs, and a request that is cancelled while its worker runs. -/
theorem display_agrees_once :
    (∃ s, ((runs .double none false (800, 600) smallSize).guarded Fresh).Reach s ∧ s.commits.length = 2 ∧
      s.Agreement .double) ∧
    (∃ s job, ((runs .double none false (800, 600) smallSize).guarded Fresh).Reach s ∧ s.job = some job ∧
      job.cancelled = true ∧ s.presented = job.before) := by
  refine ⟨?_, ?_⟩
  · have run : (smallDisplay.bind fun s => StepSystem.exec
        (fun s action => if Fresh s action then next .double s action else none) s
        ([Action.sessionStarted] ++ captureStart smallSize ++ layoutCommit)).map
          (fun s => (s.commits.length, s.job.isNone)) = some (2, true) := by
      decide
    obtain ⟨s, run, seen⟩ := Option.map_eq_some_iff.mp run
    obtain ⟨two, free⟩ := Prod.mk.inj seen
    have reach := small_exec _ run
    exact ⟨s, reach, two, (display_agrees reach).1 (Option.isNone_iff_eq_none.mp free)⟩
  · have run : ((smallDisplay.bind fun s => StepSystem.exec
        (fun s action => if Fresh s action then next .double s action else none) s
        [Action.sessionStarted, .acquire (.requestInitialSize ⟨1280, 720⟩), .decide, .check, .command none, .cancel]).bind fun s =>
          s.job.bind fun job => if job.isResized then some (s, job) else none).map (fun seen => seen.2.cancelled) =
            some true := by
      decide
    obtain ⟨⟨s, job⟩, run, cancelled⟩ := Option.map_eq_some_iff.mp run
    obtain ⟨u, run, held⟩ := Option.bind_eq_some_iff.mp run
    obtain ⟨other, held, stage⟩ := Option.bind_eq_some_iff.mp held
    obtain ⟨resized, same⟩ := Option.ite_none_right_eq_some.mp stage
    cases same
    obtain ⟨d, resized⟩ := job.stage_of_isResized resized
    have reach := small_exec _ run
    have unpublished : ∀ d, job.stage ≠ .published d := fun other published =>
      DisplayStage.noConfusion (resized.symm.trans published)
    exact ⟨s, job, reach, held, cancelled, ((display_agrees reach).2 job held unpublished).1⟩

/-- After the stale refresh the next capture start takes the old size for the
display's, while its output stays in the new mode. -/
theorem stale_refresh_parts_mode :
    ∃ s, (runs .double none false (800, 600) smallSize).Reach s ∧ s.job = none ∧ ¬ s.Agreement .double := by
  have run : (smallDisplay.bind fun s => StepSystem.exec (next .double) s (staleRefresh ++ captureStart wideSize)).map
      (fun s => (s.job.isNone, s.inner.output.isNone, s.inner.outputSizeUnconfirmed, s.mode, s.inner.resolution)) =
        some (true, true, false, (1280, 720), (800, 600)) := by
    decide
  obtain ⟨s, run, seen⟩ := Option.map_eq_some_iff.mp run
  obtain ⟨first, started, run⟩ := Option.bind_eq_some_iff.mp run
  simp only [Prod.mk.injEq] at seen
  obtain ⟨free, managed, confirmed, mode, resolution⟩ := seen
  refine ⟨s, .exec (fun _ _ _ step => step) (staleRefresh ++ captureStart wideSize) (.start started) run,
    Option.isNone_iff_eq_none.mp free, fun agreement => ?_⟩
  have same := agreement.mode (Option.isNone_iff_eq_none.mp managed) confirmed
  rw [mode, resolution] at same
  cases same

end HyprDisplay

end HyprRdp
