import HyprRdp.Capture.Scale
import HyprRdp.Display.Sizing
import HyprRdp.Lib.Runs

namespace HyprRdp

structure DesktopSize where
  width : Nat
  height : Nat
  deriving DecidableEq, Repr

inductive DisplayUpdate
  | resize (size : DesktopSize)
  | other
  deriving DecidableEq, Repr

/-- The update channel of a session; `received` says that its receiver has not been dropped. -/
structure UpdateChannel where
  queue : List DisplayUpdate
  received : Bool
  deriving DecidableEq, Repr

namespace UpdateChannel

def new : UpdateChannel := ⟨[], true⟩

def capacity : Nat := 128

def hasRoom (c : UpdateChannel) : Bool := c.received && c.queue.length < capacity

/-- A full or closed channel loses the update. -/
def trySend (c : UpdateChannel) (update : DisplayUpdate) : UpdateChannel :=
  if c.hasRoom then { c with queue := c.queue ++ [update] } else c

/-- The receiver is dropped, with what it has not taken. -/
def drop (_ : UpdateChannel) : UpdateChannel := ⟨[], false⟩

end UpdateChannel

/-- The display's state behind its lock. Of the EGFX state only the surface size
is kept; `updateRx` says that the display still holds the receiver of the channel. -/
structure HyprDisplayInner where
  width : Nat
  height : Nat
  resolution : Nat × Nat
  egfxShared : Option (Nat × Nat)
  updateRx : Bool
  output : Option String
  resolutionFixed : Bool
  pendingInitialResize : Option DesktopSize
  closed : Bool
  outputSizeUnconfirmed : Bool
  idleResolution : Option (Nat × Nat)
  deriving DecidableEq, Repr

namespace HyprDisplayInner

def desktopSize (inner : HyprDisplayInner) : DesktopSize := ⟨inner.width, inner.height⟩

/-- An output that was changed without a commit is resized again, even when the
policy would leave it as it is. -/
def reconcileResizeDecision (inner : HyprDisplayInner) (decision : Option ResizeDecision) : Option ResizeDecision :=
  decision.or
    (if inner.output.isNone ∧ inner.outputSizeUnconfirmed then
      some ⟨.managedHeadlessOutput, inner.resolution.1, inner.resolution.2⟩
    else none)

/-- The part of `apply_presentation_state_with` after the layout is published. -/
def applyPresentationState (inner : HyprDisplayInner) (size : Nat × Nat) : HyprDisplayInner :=
  let width := size.1 % 2 ^ 16
  let height := size.2 % 2 ^ 16
  { inner with
    outputSizeUnconfirmed := false
    resolution := size
    width
    height
    egfxShared := inner.egfxShared.map fun _ => (width, height) }

/-- A resize command goes out for a managed output only. -/
def willResize (inner : HyprDisplayInner) (d : ResizeDecision) : HyprDisplayInner :=
  if d.target = .managedHeadlessOutput then { inner with outputSizeUnconfirmed := true } else inner

@[simp] theorem willResize_closed (inner : HyprDisplayInner) (d : ResizeDecision) :
    (inner.willResize d).closed = inner.closed := by
  unfold willResize
  split <;> rfl

@[simp] theorem willResize_idleResolution (inner : HyprDisplayInner) (d : ResizeDecision) :
    (inner.willResize d).idleResolution = inner.idleResolution := by
  unfold willResize
  split <;> rfl

end HyprDisplayInner

/-- Who has published a resize: a request or a layout of a session, or the restore after one. -/
inductive ResizeAuthor
  | startup
  | session (number : Nat)
  | restore (number : Nat)
  deriving DecidableEq, Repr

/-- A resize whose layout has been published. -/
structure Commit where
  size : Nat × Nat
  author : ResizeAuthor
  deriving DecidableEq, Repr

/-- What a resize changes together. -/
structure Presented where
  size : DesktopSize
  resolution : Nat × Nat
  presentation : Option (Nat × Nat)
  surface : Option (Nat × Nat)
  deriving DecidableEq, Repr

/-- An operation on the display that waits for its turn at the resize gate. -/
inductive DisplayCaller
  | requestInitialSize (client : DesktopSize)
  | requestLayout (layout : List MonitorLayoutEntry)
  | restoreAfterSession
  | startCaptureUpdates
  | shutdown
  deriving DecidableEq, Repr

inductive DisplayStage
  | acquired
  | decided (d : ResizeDecision)
  | checked (d : ResizeDecision)
  | resized (d : ResizeDecision)
  | prepared (d : ResizeDecision) (geometry : PresentationGeometry)
  | published (d : ResizeDecision)
  | failed
  | stopped
  | starting

/-- The operation at the gate: the session that it belongs to, whether its
caller has gone away, how far it is, and what was presented when it began. -/
structure DisplayJob where
  caller : DisplayCaller
  session : Nat
  cancelled : Bool
  stage : DisplayStage
  before : Presented

namespace DisplayJob

def isRequest (job : DisplayJob) : Bool :=
  match job.caller with
  | .requestInitialSize _ => true
  | _ => false

/-- The display's lock is held from the decision on, but an initial size request drops it while its worker runs. -/
def holdsLock (job : DisplayJob) : Bool :=
  match job.stage with
  | .published _ | .starting => true
  | .checked _ | .resized _ | .prepared _ _ => !job.isRequest
  | .acquired | .decided _ | .failed | .stopped => false

def author (job : DisplayJob) : ResizeAuthor :=
  match job.caller with
  | .restoreAfterSession => .restore job.session
  | _ => .session job.session

/-- The resize command has run, and nothing is prepared yet. -/
def isResized (job : DisplayJob) : Bool :=
  match job.stage with
  | .resized _ => true
  | _ => false

theorem stage_of_isResized (job : DisplayJob) (resized : job.isResized = true) : ∃ d, job.stage = .resized d := by
  unfold isResized at resized
  split at resized
  · rename_i d same
    exact ⟨d, same⟩
  · cases resized

end DisplayJob

/-- A capture thread: its copy of the initial resize, and what its capture loop still has to deliver of it. -/
structure CaptureThread where
  pendingInitialResize : Option DesktopSize
  undelivered : Option DesktopSize
  deriving DecidableEq, Repr

/-- A layout refresh of a capture thread: the presentation that it has read, then
the geometry that it has prepared, each with the number of resizes published when it read. -/
inductive CaptureRefresh
  | idle
  | read (presentation : Option Size) (seen : Nat)
  | queried (geometry : PresentationGeometry) (seen : Nat)

/-- The display with the compositor's mode of its output, the shared layout and
the capture threads. `told`, `commits` and `failed` are the history: the desktop
size that the client of the session was told last, the resizes published (the
newest first) and whether a resize command or a layout query has failed. -/
structure HyprDisplay where
  inner : HyprDisplayInner
  outputLayout : Option OutputLayoutSnapshot
  mode : Nat × Nat
  job : Option DisplayJob
  channel : UpdateChannel
  capture : Option CaptureThread
  refreshes : Nat → CaptureRefresh
  sessionEpoch : Nat
  sinkActive : Bool
  restores : List Nat
  told : Option DesktopSize
  commits : List Commit
  failed : Bool

namespace HyprDisplay

/-- One step of the display, of the server, of a client, of a capture thread or
of the compositor. A failed resize command leaves the output in any mode. -/
inductive Action
  | sessionStarted
  | sessionEnded
  | acquire (caller : DisplayCaller)
  | acquireRestore (epoch : Nat)
  | close
  | cancel
  | decide
  | check
  | command (failure : Option (Nat × Nat))
  | query (source : Option Size)
  | publish
  | record
  | finish
  | join
  | started (info : Option (Nat × Nat))
  | readRefresh (i : Nat)
  | queryRefresh (i : Nat) (source : Option Size)
  | publishRefresh (i : Nat)
  | take
  | dropUpdates
  | sendOther
  | deliverInitialResize
  | recreateProcessor
  | restartCapture
  | endCapture

def presentationOf (snapshot : OutputLayoutSnapshot) : Nat × Nat :=
  (snapshot.presentationGeometry.presentation.width, snapshot.presentationGeometry.presentation.height)

def sourceOf (snapshot : OutputLayoutSnapshot) : Nat × Nat :=
  (snapshot.presentationGeometry.source.width, snapshot.presentationGeometry.source.height)

def presented (s : HyprDisplay) : Presented :=
  ⟨s.inner.desktopSize, s.inner.resolution, s.outputLayout.map presentationOf, s.inner.egfxShared⟩

/-- The display of a new server; without a named output it manages one of its own, in the configured mode. -/
def new (arith : Rounding) (output : Option String) (resolutionFixed : Bool) (resolution : Nat × Nat) (source : Size) :
    Option HyprDisplay :=
  let configured := clampToH264SoftwareLimits arith resolution.1 resolution.2
  let presentation :=
    startupPresentationSize arith output.isSome resolutionFixed configured (source.width, source.height)
  (Size.new presentation.1 presentation.2).map fun size =>
    { inner :=
        { width := presentation.1 % 2 ^ 16
          height := presentation.2 % 2 ^ 16
          resolution := presentation
          egfxShared := some (0, 0)
          updateRx := true
          output
          resolutionFixed
          pendingInitialResize := none
          closed := false
          outputSizeUnconfirmed := false
          idleResolution := if output.isNone then some presentation else none }
      outputLayout := some ⟨.new source size, 0⟩
      mode := if output.isNone then configured else (source.width, source.height)
      job := none
      channel := .new
      capture := none
      refreshes := fun _ => .idle
      sessionEpoch := 0
      sinkActive := false
      restores := []
      told := none
      commits := [⟨presentation, .startup⟩]
      failed := false }

variable (s : HyprDisplay)

def atStage (job : DisplayJob) (stage : DisplayStage) : HyprDisplay := { s with job := some { job with stage } }

/-- The gate is free again. -/
def release : HyprDisplay := { s with job := none }

/-- An initial size request is answered with the desktop size. -/
def reply : HyprDisplay := { s with told := some s.inner.desktopSize, job := none }

/-- A resize command or a layout query of the operation has failed. -/
def fail (job : DisplayJob) : HyprDisplay :=
  if job.isRequest then { s with failed := true }.atStage job .failed else { s with failed := true }.release

def source : Option (Nat × Nat) := s.outputLayout.map sourceOf

def decideRequest (arith : Rounding) (job : DisplayJob) (client : DesktopSize) : HyprDisplay :=
  let requested := clampToH264SoftwareLimits arith client.width client.height
  let decision := initialSizeResizeDecision arith s.inner.output.isSome s.inner.resolutionFixed s.inner.resolution
    requested s.source
  match s.inner.closed, s.inner.reconcileResizeDecision decision with
  | false, some d => { s with inner := s.inner.willResize d }.atStage job (.decided d)
  | _, _ => s.reply

def decideLayout (arith : Rounding) (job : DisplayJob) (layout : List MonitorLayoutEntry) : HyprDisplay :=
  let decision := displayControlResizeDecision arith layout s.inner.output.isSome s.inner.resolutionFixed
    s.inner.resolution s.source
  match s.inner.closed, s.inner.reconcileResizeDecision decision with
  | false, some d => { s with inner := s.inner.willResize d }.atStage job (.checked d)
  | _, _ => s.release

/-- Of the restores scheduled only that of the session started last does anything. -/
def decideRestore (job : DisplayJob) : HyprDisplay :=
  if s.inner.closed ∨ s.sessionEpoch ≠ job.session then s.release
  else
    match s.inner.idleResolution with
    | none => s.release
    | some idle =>
      if s.inner.resolution = idle ∧ !s.inner.outputSizeUnconfirmed then s.release
      else
        let d : ResizeDecision := ⟨.managedHeadlessOutput, idle.1, idle.2⟩
        { s with inner := s.inner.willResize d }.atStage job (.checked d)

/-- A capture start drops a receiver that nobody has taken, and the old capture thread is told to stop. -/
def decideStart (job : DisplayJob) : HyprDisplay :=
  if s.inner.closed then s.release
  else
    { s with
      channel := if s.inner.updateRx then s.channel.drop else s.channel
      inner := { s.inner with updateRx := false } }.atStage job .stopped

def decide (arith : Rounding) (job : DisplayJob) : HyprDisplay :=
  match job.caller with
  | .requestInitialSize client => s.decideRequest arith job client
  | .requestLayout layout => s.decideLayout arith job layout
  | .restoreAfterSession => s.decideRestore job
  | .startCaptureUpdates => s.decideStart job
  | .shutdown => { s with capture := none }.release

def command (job : DisplayJob) (d : ResizeDecision) (failure : Option (Nat × Nat)) : HyprDisplay :=
  match d.target, failure with
  | .physicalPresentation, _ => s.atStage job (.resized d)
  | .managedHeadlessOutput, none => { s with mode := d.size }.atStage job (.resized d)
  | .managedHeadlessOutput, some mode => { s with mode }.fail job

def query (job : DisplayJob) (d : ResizeDecision) (source : Option Size) : HyprDisplay :=
  match source, Size.new d.width d.height with
  | some source, some presentation => s.atStage job (.prepared d (.new source presentation))
  | _, _ => s.fail job

/-- A request whose caller has gone away, or whose display has closed, is dropped before its layout is published. -/
def publish (job : DisplayJob) (d : ResizeDecision) (geometry : PresentationGeometry) : HyprDisplay :=
  if job.isRequest && job.cancelled then s.release
  else if job.isRequest && s.inner.closed then s.reply
  else
    { s with
      outputLayout := some (.applyPrepared s.outputLayout geometry)
      commits := ⟨d.size, job.author⟩ :: s.commits }.atStage job (.published d)

def record (job : DisplayJob) (d : ResizeDecision) : HyprDisplay :=
  let inner := s.inner.applyPresentationState d.size
  match job.caller with
  | .requestInitialSize _ =>
    { s with inner := { inner with pendingInitialResize := some inner.desktopSize } }.reply
  | .requestLayout _ => { s with inner, channel := s.channel.trySend (.resize inner.desktopSize) }.release
  | .restoreAfterSession => { s with inner := { inner with pendingInitialResize := none } }.release
  | .startCaptureUpdates | .shutdown => { s with inner }.release

/-- Once the old capture thread has ended, the new one gets a new channel and the pending initial resize. -/
def startCapture (job : DisplayJob) : HyprDisplay :=
  if s.inner.closed then { s with capture := none }.release
  else
    { s with
      inner := { s.inner with updateRx := true, pendingInitialResize := none }
      channel := .new
      capture := some ⟨s.inner.pendingInitialResize, s.inner.pendingInitialResize⟩ }.atStage job .starting

/-- The capture thread has started or has not; the display takes its size from the shared layout. -/
def started (info : Option (Nat × Nat)) : HyprDisplay :=
  match info with
  | none => { s with inner := { s.inner with updateRx := false }, channel := s.channel.drop, capture := none }.release
  | some info =>
    let size := (s.outputLayout.map presentationOf).getD info
    { s with
      inner := { s.inner with
        updateRx := false
        width := size.1 % 2 ^ 16
        height := size.2 % 2 ^ 16
        resolution := size } }.release

def refreshed (i : Nat) (refresh : CaptureRefresh) : HyprDisplay :=
  { s with refreshes := Function.update s.refreshes i refresh }

def next (arith : Rounding) (s : HyprDisplay) : Action → Option HyprDisplay
  | .sessionStarted => some { s with sessionEpoch := s.sessionEpoch + 1, sinkActive := true, told := none }
  | .sessionEnded =>
    some (if s.sinkActive then { s with sinkActive := false, restores := s.restores ++ [s.sessionEpoch] } else s)
  | .acquire caller =>
    if caller = .requestLayout [] then some s
    else if s.job.isSome ∨ caller = .restoreAfterSession ∨ (caller = .shutdown ∧ s.inner.closed = false) then none
    else some { s with job := some ⟨caller, s.sessionEpoch, false, .acquired, s.presented⟩ }
  | .acquireRestore epoch =>
    if s.job.isSome ∨ epoch ∉ s.restores then none
    else
      some { s with
        restores := s.restores.erase epoch
        job := some ⟨.restoreAfterSession, epoch, false, .acquired, s.presented⟩ }
  | .close =>
    if s.job.any DisplayJob.holdsLock then none else some { s with inner := { s.inner with closed := true } }
  | .cancel =>
    s.job.bind fun job =>
      if job.isRequest then
        match job.stage with
        | .acquired => some s.release
        | .published _ => none
        | _ => some { s with job := some { job with cancelled := true } }
      else none
  | .decide => s.job.bind fun job => match job.stage with | .acquired => some (s.decide arith job) | _ => none
  | .check =>
    s.job.bind fun job =>
      match job.stage with
      | .decided d => some (s.atStage job (if s.inner.closed then .failed else .checked d))
      | _ => none
  | .command failure =>
    s.job.bind fun job => match job.stage with | .checked d => some (s.command job d failure) | _ => none
  | .query source =>
    s.job.bind fun job => match job.stage with | .resized d => some (s.query job d source) | _ => none
  | .publish =>
    s.job.bind fun job =>
      match job.stage with
      | .prepared d geometry => some (s.publish job d geometry)
      | _ => none
  | .record => s.job.bind fun job => match job.stage with | .published d => some (s.record job d) | _ => none
  | .finish =>
    s.job.bind fun job =>
      match job.stage with
      | .failed => some (if job.cancelled then s.release else s.reply)
      | _ => none
  | .join => s.job.bind fun job => match job.stage with | .stopped => some (s.startCapture job) | _ => none
  | .started info => s.job.bind fun job => match job.stage with | .starting => some (s.started info) | _ => none
  | .readRefresh i =>
    match s.refreshes i with
    | .idle => some (s.refreshed i (.read (s.outputLayout.map (·.presentationGeometry.presentation)) s.commits.length))
    | _ => none
  | .queryRefresh i source =>
    match s.refreshes i with
    | .read presentation seen =>
      some (s.refreshed i (match source with
        | some source => .queried (.new source (presentation.getD source)) seen
        | none => .idle))
    | _ => none
  | .publishRefresh i =>
    match s.refreshes i with
    | .queried geometry _ => some ({ s with outputLayout := some (.applyPrepared s.outputLayout geometry) }.refreshed i .idle)
    | _ => none
  | .take =>
    match s.inner.updateRx, s.channel.queue with
    | false, .resize size :: queue => some { s with told := some size, channel := { s.channel with queue } }
    | false, .other :: queue => some { s with channel := { s.channel with queue } }
    | _, _ => none
  | .dropUpdates => if s.inner.updateRx then none else some { s with channel := s.channel.drop }
  | .sendOther =>
    if s.capture.isSome ∧ s.channel.hasRoom then some { s with channel := s.channel.trySend .other } else none
  | .deliverInitialResize =>
    match s.capture with
    | some ⟨_, some size⟩ =>
      if s.channel.received ∧ !s.channel.hasRoom then none
      else some { s with channel := s.channel.trySend (.resize size), capture := none }
    | _ => none
  | .recreateProcessor => s.capture.map fun capture => { s with capture := some { capture with undelivered := none } }
  | .restartCapture =>
    s.capture.map fun capture => { s with capture := some { capture with undelivered := capture.pendingInitialResize } }
  | .endCapture => if s.capture.isSome then some { s with capture := none } else none

def runs (arith : Rounding) (output : Option String) (resolutionFixed : Bool) (resolution : Nat × Nat) (source : Size) :
    StepSystem HyprDisplay Action where
  start s := new arith output resolutionFixed resolution source = some s
  step s action t := s.next arith action = some t

/-- What the steps can do, each with the state that it is taken in. -/
inductive Step (arith : Rounding) (s : HyprDisplay) : Action → HyprDisplay → Prop
  | sessionStarted : Step arith s .sessionStarted { s with sessionEpoch := s.sessionEpoch + 1, sinkActive := true, told := none }
  | sessionEnded : Step arith s .sessionEnded
    (if s.sinkActive then { s with sinkActive := false, restores := s.restores ++ [s.sessionEpoch] } else s)
  | ignored : Step arith s (.acquire (.requestLayout [])) s
  | acquire {caller : DisplayCaller} : s.job = none → caller ≠ .restoreAfterSession →
    (caller = .shutdown → s.inner.closed = true) →
      Step arith s (.acquire caller) { s with job := some ⟨caller, s.sessionEpoch, false, .acquired, s.presented⟩ }
  | acquireRestore {epoch : Nat} : s.job = none → epoch ∈ s.restores → Step arith s (.acquireRestore epoch) { s with
      restores := s.restores.erase epoch
      job := some ⟨.restoreAfterSession, epoch, false, .acquired, s.presented⟩ }
  | close : Step arith s .close { s with inner := { s.inner with closed := true } }
  | withdraw {job : DisplayJob} : s.job = some job → job.isRequest = true → job.stage = .acquired → Step arith s .cancel s.release
  | cancel {job : DisplayJob} : s.job = some job → job.isRequest = true → job.stage ≠ .acquired →
    (∀ d, job.stage ≠ .published d) → Step arith s .cancel { s with job := some { job with cancelled := true } }
  | decide {job : DisplayJob} : s.job = some job → job.stage = .acquired → Step arith s .decide (s.decide arith job)
  | check {job : DisplayJob} {d : ResizeDecision} : s.job = some job → job.stage = .decided d →
    Step arith s .check (s.atStage job (if s.inner.closed then .failed else .checked d))
  | command {job : DisplayJob} {d : ResizeDecision} (failure : Option (Nat × Nat)) : s.job = some job →
    job.stage = .checked d → Step arith s (.command failure) (s.command job d failure)
  | query {job : DisplayJob} {d : ResizeDecision} (source : Option Size) : s.job = some job → job.stage = .resized d →
    Step arith s (.query source) (s.query job d source)
  | publish {job : DisplayJob} {d : ResizeDecision} {geometry : PresentationGeometry} : s.job = some job →
    job.stage = .prepared d geometry → Step arith s .publish (s.publish job d geometry)
  | record {job : DisplayJob} {d : ResizeDecision} : s.job = some job → job.stage = .published d →
    Step arith s .record (s.record job d)
  | finish {job : DisplayJob} : s.job = some job → job.stage = .failed →
    Step arith s .finish (if job.cancelled then s.release else s.reply)
  | join {job : DisplayJob} : s.job = some job → job.stage = .stopped → Step arith s .join (s.startCapture job)
  | started {job : DisplayJob} (info : Option (Nat × Nat)) : s.job = some job → job.stage = .starting →
    Step arith s (.started info) (s.started info)
  | readRefresh {i : Nat} : s.refreshes i = .idle → Step arith s (.readRefresh i)
    (s.refreshed i (.read (s.outputLayout.map (·.presentationGeometry.presentation)) s.commits.length))
  | queryRefresh {i seen : Nat} {presentation : Option Size} (source : Option Size) : s.refreshes i = .read presentation seen →
    Step arith s (.queryRefresh i source) (s.refreshed i (match source with
      | some source => .queried (.new source (presentation.getD source)) seen
      | none => .idle))
  | publishRefresh {i seen : Nat} {geometry : PresentationGeometry} : s.refreshes i = .queried geometry seen →
    Step arith s (.publishRefresh i)
      ({ s with outputLayout := some (.applyPrepared s.outputLayout geometry) }.refreshed i .idle)
  | takeResize {size : DesktopSize} {queue : List DisplayUpdate} : s.inner.updateRx = false →
    s.channel.queue = .resize size :: queue →
      Step arith s .take { s with told := some size, channel := { s.channel with queue } }
  | takeOther {queue : List DisplayUpdate} : s.inner.updateRx = false → s.channel.queue = .other :: queue →
    Step arith s .take { s with channel := { s.channel with queue } }
  | dropUpdates : s.inner.updateRx = false → Step arith s .dropUpdates { s with channel := s.channel.drop }
  | sendOther : Step arith s .sendOther { s with channel := s.channel.trySend .other }
  | deliverInitialResize {pending : Option DesktopSize} {size : DesktopSize} : s.capture = some ⟨pending, some size⟩ →
    Step arith s .deliverInitialResize { s with channel := s.channel.trySend (.resize size), capture := none }
  | recreateProcessor {capture : CaptureThread} : s.capture = some capture →
    Step arith s .recreateProcessor { s with capture := some { capture with undelivered := none } }
  | restartCapture {capture : CaptureThread} : s.capture = some capture →
    Step arith s .restartCapture { s with capture := some { capture with undelivered := capture.pendingInitialResize } }
  | endCapture : Step arith s .endCapture { s with capture := none }

theorem next_step {arith : Rounding} {s t : HyprDisplay} {action : Action} (step : s.next arith action = some t) :
    Step arith s action t := by
  have atStage : ∀ {next : DisplayJob → Option HyprDisplay}, s.job.bind next = some t →
      (∀ job, s.job = some job → next job = some t → Step arith s action t) → Step arith s action t := fun step each => by
    obtain ⟨job, held, step⟩ := Option.bind_eq_some_iff.mp step
    exact each job held step
  cases action with
  | sessionStarted =>
    cases step
    exact .sessionStarted
  | sessionEnded =>
    cases step
    exact .sessionEnded
  | acquire caller =>
    dsimp only [next] at step
    split at step
    · rename_i same
      cases step
      cases same
      exact .ignored
    · obtain ⟨free, step⟩ := Option.ite_none_left_eq_some.mp step
      cases step
      have idle : s.job = none := Option.not_isSome_iff_eq_none.mp fun held => free (.inl held)
      refine .acquire idle (fun isRestore => free (.inr (.inl isRestore))) fun isShutdown => ?_
      by_contra opened
      exact free (.inr (.inr ⟨isShutdown, Bool.eq_false_iff.mpr opened⟩))
  | acquireRestore epoch =>
    obtain ⟨free, step⟩ := Option.ite_none_left_eq_some.mp step
    cases step
    have idle : s.job = none := Option.not_isSome_iff_eq_none.mp fun held => free (.inl held)
    exact .acquireRestore idle (Decidable.not_not.mp fun absent => free (.inr absent))
  | close =>
    obtain ⟨_, step⟩ := Option.ite_none_left_eq_some.mp step
    cases step
    exact .close
  | cancel =>
    refine atStage step fun job held step => ?_
    obtain ⟨isRequest, step⟩ := Option.ite_none_right_eq_some.mp step
    split at step
    · rename_i stage
      cases step
      exact .withdraw held isRequest stage
    · cases step
    · rename_i acquired published
      cases step
      exact .cancel held isRequest acquired published
  | decide =>
    refine atStage step fun job held step => ?_
    split at step <;> cases step
    exact .decide held ‹_›
  | check =>
    refine atStage step fun job held step => ?_
    split at step <;> cases step
    exact .check held ‹_›
  | command failure =>
    refine atStage step fun job held step => ?_
    split at step <;> cases step
    exact .command failure held ‹_›
  | query source =>
    refine atStage step fun job held step => ?_
    split at step <;> cases step
    exact .query source held ‹_›
  | publish =>
    refine atStage step fun job held step => ?_
    split at step <;> cases step
    exact .publish held ‹_›
  | record =>
    refine atStage step fun job held step => ?_
    split at step <;> cases step
    exact .record held ‹_›
  | finish =>
    refine atStage step fun job held step => ?_
    split at step <;> cases step
    exact .finish held ‹_›
  | join =>
    refine atStage step fun job held step => ?_
    split at step <;> cases step
    exact .join held ‹_›
  | started info =>
    refine atStage step fun job held step => ?_
    split at step <;> cases step
    exact .started info held ‹_›
  | readRefresh i =>
    dsimp only [next] at step
    split at step <;> cases step
    exact .readRefresh ‹_›
  | queryRefresh i source =>
    dsimp only [next] at step
    split at step <;> cases step
    exact .queryRefresh source ‹_›
  | publishRefresh i =>
    dsimp only [next] at step
    split at step <;> cases step
    exact .publishRefresh ‹_›
  | take =>
    dsimp only [next] at step
    split at step
    · cases step
      exact .takeResize ‹_› ‹_›
    · cases step
      exact .takeOther ‹_› ‹_›
    · cases step
  | dropUpdates =>
    obtain ⟨rx, step⟩ := Option.ite_none_left_eq_some.mp step
    cases step
    exact .dropUpdates (Bool.eq_false_iff.mpr rx)
  | sendOther =>
    obtain ⟨_, step⟩ := Option.ite_none_right_eq_some.mp step
    cases step
    exact .sendOther
  | deliverInitialResize =>
    dsimp only [next] at step
    split at step
    · obtain ⟨_, step⟩ := Option.ite_none_left_eq_some.mp step
      cases step
      exact .deliverInitialResize ‹_›
    · cases step
  | recreateProcessor =>
    obtain ⟨capture, isCapture, same⟩ := Option.map_eq_some_iff.mp step
    cases same
    exact .recreateProcessor isCapture
  | restartCapture =>
    obtain ⟨capture, isCapture, same⟩ := Option.map_eq_some_iff.mp step
    cases same
    exact .restartCapture isCapture
  | endCapture =>
    obtain ⟨_, step⟩ := Option.ite_none_right_eq_some.mp step
    cases step
    exact .endCapture

/-- The size of the small display, and of a layout of its client. -/
def smallSize : Size := ⟨800, 600, by decide, by decide⟩

def wideSize : Size := ⟨1280, 720, by decide, by decide⟩

/-- A managed display of 800 by 600. -/
def smallDisplay : Option HyprDisplay := new .double none false (800, 600) smallSize

/-- Its runs as executions whose steps meet a condition. -/
theorem small_exec {ok : HyprDisplay → Action → Prop} [∀ s a, Decidable (ok s a)] {s : HyprDisplay} (choices : List Action)
    (run : (smallDisplay.bind fun s =>
      StepSystem.exec (fun s action => if ok s action then next .double s action else none) s choices) = some s) :
    ((runs .double none false (800, 600) smallSize).guarded ok).Reach s := by
  obtain ⟨first, started, run⟩ := Option.bind_eq_some_iff.mp run
  exact .exec (fun _ _ _ step => Option.ite_none_right_eq_some.mp step) choices (.start started) run

end HyprDisplay

end HyprRdp
