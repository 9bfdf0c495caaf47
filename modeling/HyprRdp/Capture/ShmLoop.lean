import HyprRdp.Capture.LoopProcessor
import HyprRdp.Lib.Runs

namespace HyprRdp

/-- Consecutive failed captures before the loop gives the session up. -/
def captureFailedFrameLimit : Nat := 50

inductive CaptureProtocol
  | ext | wlr
  deriving DecidableEq

inductive ExtFrameFailure
  | unknown | bufferConstraints | stopped
  deriving DecidableEq

inductive ExtFrameFailureAction
  | retry | restartSession | stop
  deriving DecidableEq

def extFrameFailureAction : ExtFrameFailure → ExtFrameFailureAction
  | .unknown => .retry
  | .bufferConstraints => .restartSession
  | .stopped => .stop

/-- The two shared-memory buffers of a loop. The extents of a Wayland buffer are `i32`. -/
structure CaptureBuffers where
  source : Size
  stride : Nat
  pixelFormat : PixelFormat
  small : source.Moderate

/-- A capture request with its buffer attached. -/
structure CaptureRequest where
  number : Nat
  buffer : Nat
  deriving DecidableEq

/-- A successful capture: the request that produced it, and the buffer's content at its end. -/
structure SuccessfulCapture where
  number : Nat
  data : Bytes

/-- A prepared frame and, when its data is not its own, the mapping that it
borrows. Which capture and which geometry it was prepared from is kept for reference. -/
structure LoopFrame where
  prepared : PreparedPresentationFrame
  borrowed : Option Nat
  capture : SuccessfulCapture
  geometry : PresentationGeometry

/-- The saved state of a completed capture. -/
structure CompletedCapture where
  failed : Bool
  idx : Nat
  damageRegions : List Region

inductive ShmPhase
  | waiting
  | dispatched
  | processing (frame : LoopFrame) (fresh : Bool)
  | flushed
  | completed
  | submitted (completed : CompletedCapture)
  | ended

/-- A shared-memory capture loop with the compositor and the layout it shares.
`changes`, `requests`, `submitted`, `captures`, `taken`, `geometry` and `mapped`
are the history: the geometry changes published, the requests made and the last
one into each buffer, the successful captures (the newest first), the one the
loop took up last, the geometry of its last prepared frame, and the geometries
that mapped the damage the processor was given. -/
structure ShmLoop (P : Type) where
  shared : Option OutputLayoutSnapshot
  changes : Nat
  stopping : Bool
  capIdx : Nat
  bufferSent : Bool
  outstanding : Option CaptureRequest
  requests : Nat
  submitted : Nat → Nat
  mappings : Nat → Bytes
  frameReady : Bool
  frameFailed : Bool
  extFrameFailure : ExtFrameFailure
  damageRegions : List Region
  deferred : Option LoopFrame
  proc : P
  processorGeneration : Nat
  failedStreak : Nat
  captures : List SuccessfulCapture
  taken : Option SuccessfulCapture
  geometry : PresentationGeometry
  mapped : List PresentationGeometry
  phase : ShmPhase

namespace ShmLoop

variable {P Env : Type}

inductive CaptureOutcome
  | ready
  | failed (failure : ExtFrameFailure)

/-- One step of the loop, the compositor or another thread. The clock decides
`due` (the pacer), `scanDue` (the full scan) and `stalled`; `info` says that the
compositor has sent the buffer parameters, `changed` that they are new. -/
inductive Action (Env : Type)
  | publish (geometry : PresentationGeometry)
  | stop
  | write (byte : Nat → UInt8)
  | poll (damage : List Region) (outcome : Option CaptureOutcome)
  | pollError
  | flush (due : Bool)
  | finish (env : Env)
  | settle (info changed stalled : Bool)
  | takeUp
  | prepare (due scanDue : Bool)

/-- The decision of the frame pacer, at a moment at which its window is open or not. -/
def shouldSend (due sentFirstFrame hasDamage : Bool) : Bool := !sentFirstFrame || (hasDamage && due)

/-- A capture request for the current buffer goes to the compositor. -/
def submit (s : ShmLoop P) : ShmLoop P :=
  { s with
    bufferSent := true
    outstanding := some ⟨s.requests + 1, s.capIdx⟩
    requests := s.requests + 1
    submitted := Function.update s.submitted s.capIdx (s.requests + 1) }

/-- A new frame object; the ext protocol attaches the buffer at once. -/
def startFrame (protocol : CaptureProtocol) (s : ShmLoop P) : ShmLoop P :=
  let s := { s with
    bufferSent := false
    outstanding := none
    frameReady := false
    frameFailed := false
    extFrameFailure := .unknown
    damageRegions := [] }
  match protocol with
  | .ext => s.submit
  | .wlr => s

/-- The bytes that a frame's data has now. -/
def data (s : ShmLoop P) (frame : LoopFrame) : Bytes :=
  match frame.borrowed with
  | some idx => s.mappings idx
  | none => frame.prepared.data

/-- The state in which the loop waits for its first capture, if the layout gives a frame shape. -/
def start (M : Processing P Env) (protocol : CaptureProtocol) (buffers : CaptureBuffers)
    (snapshot : OutputLayoutSnapshot) : Option (ShmLoop P) :=
  match presentationFrameShape buffers.source.width buffers.source.height buffers.stride snapshot with
  | .error _ => none
  | .ok (width, height, stride) =>
    some (startFrame protocol
      { shared := some snapshot
        changes := snapshot.geometryGeneration
        stopping := false
        capIdx := 0
        bufferSent := false
        outstanding := none
        requests := 0
        submitted := fun _ => 0
        mappings := fun _ => .zeros (buffers.stride * buffers.source.height)
        frameReady := false
        frameFailed := false
        extFrameFailure := .unknown
        damageRegions := []
        deferred := none
        proc := M.new width height stride
        processorGeneration := snapshot.geometryGeneration
        failedStreak := 0
        captures := []
        taken := none
        geometry := snapshot.geometryFor buffers.source
        mapped := []
        phase := .waiting })

/-- Where the wait for a capture goes on or ends. -/
def afterWait (s : ShmLoop P) : ShmLoop P :=
  { s with phase := if s.frameReady || s.frameFailed then .completed else .waiting }

/-- The top of the loop: the ext loop looks at the stop flag before it waits. -/
def loopTop (protocol : CaptureProtocol) (s : ShmLoop P) : ShmLoop P :=
  { s with phase := if protocol = .ext ∧ s.stopping then .ended else .waiting }

/-- The part of a wait iteration after the deferred frame. -/
def afterFlush (protocol : CaptureProtocol) (s : ShmLoop P) : ShmLoop P :=
  match protocol with
  | .ext => s.afterWait
  | .wlr => { s with phase := .flushed }

/-- The completed capture is saved, a failed one drops the deferred frame, and
the next request goes out for the other buffer. -/
def takeUpCompleted (protocol : CaptureProtocol) (s : ShmLoop P) : ShmLoop P :=
  let completed : CompletedCapture := ⟨s.frameFailed, s.capIdx, s.damageRegions⟩
  let next := startFrame protocol { s with
    deferred := if s.frameFailed then none else s.deferred
    taken := if s.frameFailed then s.taken else s.captures.head?
    capIdx := 1 - s.capIdx }
  { next with phase := .submitted completed }

/-- The processor takes the damage of a prepared frame; a geometry change makes it a new one, and all damage. -/
def receive (M : Processing P Env) (frame : LoopFrame) (s : ShmLoop P) : ShmLoop P :=
  let prepared := frame.prepared
  let action := outputDownscalingGenerationAction s.processorGeneration prepared
  let proc := if action.refreshProcessor then M.new prepared.width prepared.height prepared.stride else s.proc
  { s with
    processorGeneration := action.nextGeneration
    proc := M.queueDamage proc action.damageRegions
    geometry := frame.geometry
    mapped := if action.refreshProcessor then [frame.geometry] else frame.geometry :: s.mapped }

/-- A fresh frame without damage is skipped; any other is processed now or deferred. -/
def dispose (M : Processing P Env) (protocol : CaptureProtocol) (frame : LoopFrame) (due : Bool) (s : ShmLoop P) :
    ShmLoop P :=
  let hasPendingDamage := M.hasPendingDamage s.proc
  if !hasPendingDamage && M.sentFirstFrame s.proc then loopTop protocol s
  else if shouldSend due (M.sentFirstFrame s.proc) hasPendingDamage then { s with phase := .processing frame true }
  else loopTop protocol { s with deferred := some frame }

/-- The damage of a completed capture; the wlr loop promotes an empty one to a full scan when that is due. -/
def scannedDamage (protocol : CaptureProtocol) (buffers : CaptureBuffers) (damage : List Region)
    (sentFirstFrame scanDue : Bool) : List Region :=
  if protocol = .wlr ∧ damage.isEmpty ∧ sentFirstFrame ∧ scanDue then
    [⟨0, 0, asI32 buffers.source.width, asI32 buffers.source.height⟩]
  else damage

def prepareCompleted (M : Processing P Env) (protocol : CaptureProtocol) (buffers : CaptureBuffers)
    (completed : CompletedCapture) (capture : SuccessfulCapture) (due scanDue : Bool) (s : ShmLoop P) : ShmLoop P :=
  let s := { s with failedStreak := 0, deferred := none }
  let damage := scannedDamage protocol buffers completed.damageRegions (M.sentFirstFrame s.proc) scanDue
  match s.shared with
  | none => { s with phase := .ended }
  | some snapshot =>
    match preparePresentationFrame (s.mappings completed.idx) buffers.source.width buffers.source.height
        buffers.stride buffers.pixelFormat damage snapshot with
    | .error _ => { s with phase := .ended }
    | .ok prepared =>
      let geometry := snapshot.geometryFor buffers.source
      let borrowed := if geometry.isIdentity then some completed.idx else none
      let frame : LoopFrame := ⟨prepared, borrowed, capture, geometry⟩
      dispose M protocol frame due (receive M frame s)

def next (M : Processing P Env) (protocol : CaptureProtocol) (buffers : CaptureBuffers) (s : ShmLoop P) :
    Action Env → Option (ShmLoop P)
  | .publish geometry =>
    let changed := s.shared.any fun old => old.presentationGeometry ≠ geometry
    some { s with
      shared := some (.applyPrepared s.shared geometry)
      changes := if changed then s.changes + 1 else s.changes }
  | .stop => some { s with stopping := true }
  | .write byte =>
    match s.outstanding with
    | some request =>
      some { s with
        mappings := Function.update s.mappings request.buffer { s.mappings request.buffer with byte } }
    | none => none
  | .poll damage outcome =>
    match s.phase, outcome, s.outstanding with
    | .waiting, none, _ => some { s with damageRegions := s.damageRegions ++ damage, phase := .dispatched }
    | .waiting, some .ready, some request =>
      some { s with
        damageRegions := s.damageRegions ++ damage
        frameReady := true
        outstanding := none
        captures := ⟨request.number, s.mappings request.buffer⟩ :: s.captures
        phase := .dispatched }
    | .waiting, some (.failed failure), _ =>
      some { s with
        damageRegions := s.damageRegions ++ damage
        frameFailed := true
        extFrameFailure := failure
        outstanding := none
        phase := .dispatched }
    | _, _, _ => none
  | .pollError =>
    match s.phase with
    | .waiting => some { s with phase := .ended }
    | _ => none
  | .flush due =>
    match s.phase with
    | .dispatched =>
      if protocol = .ext ∧ s.stopping then some { s with phase := .completed }
      else
        match s.deferred with
        | some frame =>
          if shouldSend due (M.sentFirstFrame s.proc) (M.hasPendingDamage s.proc) then
            some { s with phase := .processing frame false }
          else some (s.afterFlush protocol)
        | none => some (s.afterFlush protocol)
    | _ => none
  | .finish env =>
    match s.phase with
    | .processing frame fresh =>
      let (proc, goesOn) := M.process s.proc (s.data frame) env
      if !goesOn then some { s with proc, phase := .ended }
      else if fresh then some (loopTop protocol { s with proc })
      else some (afterFlush protocol { s with proc, deferred := none })
    | _ => none
  | .settle info changed stalled =>
    match s.phase with
    | .flushed =>
      if !s.bufferSent && info && changed then some { s with phase := .ended }
      else
        let s := if !s.bufferSent && info then s.submit else s
        if s.stopping then some { s with phase := .completed }
        else some (if stalled then s.startFrame protocol else s).afterWait
    | _ => none
  | .takeUp =>
    match s.phase with
    | .completed =>
      if (protocol = .wlr ∧ s.stopping) ∨ (!s.frameReady && !s.frameFailed) then some { s with phase := .ended }
      else if protocol = .ext ∧ s.frameFailed ∧ extFrameFailureAction s.extFrameFailure ≠ .retry then
        some { s with phase := .ended }
      else some (s.takeUpCompleted protocol)
    | _ => none
  | .prepare due scanDue =>
    match s.phase, s.taken with
    | .submitted ⟨true, _, _⟩, _ =>
      if captureFailedFrameLimit ≤ s.failedStreak + 1 then some { s with phase := .ended }
      else some (loopTop protocol { s with failedStreak := s.failedStreak + 1 })
    | .submitted completed, some capture => some (s.prepareCompleted M protocol buffers completed capture due scanDue)
    | _, _ => none

/-- The runs of a loop that starts under a layout. -/
def runs (M : Processing P Env) (protocol : CaptureProtocol) (buffers : CaptureBuffers) (snapshot : OutputLayoutSnapshot) :
    StepSystem (ShmLoop P) (Action Env) where
  start s := start M protocol buffers snapshot = some s
  step s action t := s.next M protocol buffers action = some t

/-- The frame is of the capture taken up last, and the mapping that it borrows
still holds that capture, out of the compositor's reach. -/
structure Held (s : ShmLoop P) (frame : LoopFrame) : Prop where
  taken : s.taken = some frame.capture
  other : ∀ idx, frame.borrowed = some idx → idx = 1 - s.capIdx
  submitted : ∀ idx, frame.borrowed = some idx → s.submitted idx = frame.capture.number
  mapped : ∀ idx, frame.borrowed = some idx → s.mappings idx = frame.capture.data

/-- How the buffer in use, the outstanding request and the captures agree. -/
structure Wired (s : ShmLoop P) : Prop where
  capIdx_le : s.capIdx ≤ 1
  outstanding : ∀ request, s.outstanding = some request →
    request = ⟨s.submitted s.capIdx, s.capIdx⟩ ∧ s.frameReady = false
  ready : s.frameReady = true → ∃ capture, s.captures.head? = some capture ∧
    capture.number = s.submitted s.capIdx ∧ capture.data = s.mappings s.capIdx
  unsent : s.bufferSent = false → s.frameReady = false ∧ s.outstanding = none

/-- The phases in which a deferred frame may still be processed. -/
def Keeps : ShmPhase → Prop
  | .submitted _ | .ended => False
  | _ => True

structure Invariant (s : ShmLoop P) : Prop extends Wired s where
  deferred : Keeps s.phase → ∀ frame, s.deferred = some frame → s.Held frame
  calling : ∀ frame fresh, s.phase = .processing frame fresh →
    s.Held frame ∧ (fresh = true → s.captures.head? = some frame.capture) ∧ (fresh = false → s.deferred = some frame)
  taking : ∀ completed, s.phase = .submitted completed → completed.failed = false →
    completed.idx = 1 - s.capIdx ∧ ∃ capture, s.taken = some capture ∧ s.captures.head? = some capture ∧
      s.submitted completed.idx = capture.number ∧ s.mappings completed.idx = capture.data
  discarded : ∀ completed, s.phase = .submitted completed → completed.failed = true → s.deferred = none

variable {M : Processing P Env} {protocol : CaptureProtocol} {buffers : CaptureBuffers} {snapshot : OutputLayoutSnapshot}
  {s t : ShmLoop P} {frame : LoopFrame}

section StartFrame

@[simp] theorem startFrame_capIdx : (s.startFrame protocol).capIdx = s.capIdx := by cases protocol <;> rfl

@[simp] theorem startFrame_mappings : (s.startFrame protocol).mappings = s.mappings := by cases protocol <;> rfl

@[simp] theorem startFrame_captures : (s.startFrame protocol).captures = s.captures := by cases protocol <;> rfl

@[simp] theorem startFrame_taken : (s.startFrame protocol).taken = s.taken := by cases protocol <;> rfl

@[simp] theorem startFrame_deferred : (s.startFrame protocol).deferred = s.deferred := by cases protocol <;> rfl

@[simp] theorem startFrame_phase : (s.startFrame protocol).phase = s.phase := by cases protocol <;> rfl

@[simp] theorem startFrame_frameReady : (s.startFrame protocol).frameReady = false := by cases protocol <;> rfl

theorem submit_other {idx : Nat} (other : idx ≠ s.capIdx) : s.submit.submitted idx = s.submitted idx :=
  Function.update_of_ne other _ _

theorem startFrame_other {idx : Nat} (other : idx ≠ s.capIdx) :
    (s.startFrame protocol).submitted idx = s.submitted idx := by
  cases protocol with
  | ext => exact submit_other other
  | wlr => rfl

theorem Wired.submit (capIdx_le : s.capIdx ≤ 1) (open_ : s.frameReady = false) : s.submit.Wired where
  capIdx_le := capIdx_le
  outstanding request sent := by
    cases sent
    refine ⟨?_, open_⟩
    change _ = (⟨Function.update s.submitted s.capIdx (s.requests + 1) s.capIdx, s.capIdx⟩ : CaptureRequest)
    rw [Function.update_self]
  ready completed := absurd (open_.symm.trans completed) Bool.false_ne_true
  unsent := nofun

theorem Wired.startFrame (capIdx_le : s.capIdx ≤ 1) : (s.startFrame protocol).Wired := by
  cases protocol with
  | ext => exact .submit capIdx_le rfl
  | wlr => exact ⟨capIdx_le, nofun, nofun, fun _ => ⟨rfl, rfl⟩⟩

end StartFrame

/-- A held frame is borrowed from the buffer that is not in use. -/
theorem Held.keep (held : s.Held frame) (taken : t.taken = s.taken) (capIdx : t.capIdx = s.capIdx)
    (submitted : t.submitted (1 - s.capIdx) = s.submitted (1 - s.capIdx))
    (mappings : t.mappings (1 - s.capIdx) = s.mappings (1 - s.capIdx)) : t.Held frame where
  taken := taken.trans held.taken
  other idx borrowed := by rw [capIdx]; exact held.other idx borrowed
  submitted idx borrowed := by
    have other := held.other idx borrowed
    have same := held.submitted idx borrowed
    rw [other] at same ⊢
    exact submitted.trans same
  mapped idx borrowed := by
    have other := held.other idx borrowed
    have same := held.mapped idx borrowed
    rw [other] at same ⊢
    exact mappings.trans same

/-- A step that leaves the buffers, the requests and the captures alone. -/
structure SameBuffers (s t : ShmLoop P) : Prop where
  capIdx : t.capIdx = s.capIdx
  bufferSent : t.bufferSent = s.bufferSent
  outstanding : t.outstanding = s.outstanding
  submitted : t.submitted = s.submitted
  mappings : t.mappings = s.mappings
  frameReady : t.frameReady = s.frameReady
  captures : t.captures = s.captures
  taken : t.taken = s.taken

theorem SameBuffers.held (same : s.SameBuffers t) (held : s.Held frame) : t.Held frame :=
  held.keep same.taken same.capIdx (congrFun same.submitted _) (congrFun same.mappings _)

theorem SameBuffers.wired (same : s.SameBuffers t) (wired : s.Wired) : t.Wired := by
  obtain ⟨capIdx, bufferSent, outstanding, submitted, mappings, frameReady, captures, _⟩ := same
  refine ⟨?_, ?_, ?_, ?_⟩
  · rw [capIdx]
    exact wired.capIdx_le
  · rw [outstanding, submitted, capIdx, frameReady]
    exact wired.outstanding
  · rw [frameReady, captures, submitted, capIdx, mappings]
    exact wired.ready
  · rw [bufferSent, frameReady, outstanding]
    exact wired.unsent

theorem Invariant.carry (inv : s.Invariant) (same : s.SameBuffers t)
    (deferred : Keeps t.phase → ∀ frame, t.deferred = some frame → s.Held frame)
    (calling : ∀ frame fresh, t.phase = .processing frame fresh → s.Held frame ∧
      (fresh = true → s.captures.head? = some frame.capture) ∧ (fresh = false → t.deferred = some frame))
    (taking : ∀ completed, t.phase = .submitted completed → s.phase = .submitted completed ∧ t.deferred = s.deferred) :
    t.Invariant where
  toWired := same.wired inv.toWired
  deferred keeps frame isDeferred := same.held (deferred keeps frame isDeferred)
  calling frame fresh isPhase := by
    obtain ⟨held, newest, kept⟩ := calling frame fresh isPhase
    rw [same.captures]
    exact ⟨same.held held, newest, kept⟩
  taking completed isPhase := by
    rw [same.capIdx, same.taken, same.captures, same.submitted, same.mappings]
    exact inv.taking completed (taking completed isPhase).1
  discarded completed isPhase failed := by
    obtain ⟨before, kept⟩ := taking completed isPhase
    exact kept.trans (inv.discarded completed before failed)

/-- Between two steps of a wait, outside any call, only the deferred frame is kept. -/
theorem Invariant.idle (inv : s.Invariant) (same : s.SameBuffers t)
    (deferred : Keeps t.phase → ∀ frame, t.deferred = some frame → s.Held frame)
    (calling : ∀ frame fresh, t.phase ≠ .processing frame fresh) (taking : ∀ completed, t.phase ≠ .submitted completed) :
    t.Invariant :=
  inv.carry same deferred (fun frame fresh isPhase => absurd isPhase (calling frame fresh))
    fun completed isPhase => absurd isPhase (taking completed)

theorem Invariant.afterWait (inv : s.Invariant) (same : s.SameBuffers t)
    (deferred : ∀ frame, t.deferred = some frame → s.Held frame) : t.afterWait.Invariant := by
  unfold ShmLoop.afterWait
  refine inv.idle ⟨same.1, same.2, same.3, same.4, same.5, same.6, same.7, same.8⟩ (fun _ => deferred) ?_ ?_ <;>
    (dsimp only; split <;> nofun)

theorem Invariant.loopTop (inv : s.Invariant) (same : s.SameBuffers t)
    (deferred : ∀ frame, t.deferred = some frame → s.Held frame) : (t.loopTop protocol).Invariant := by
  unfold ShmLoop.loopTop
  refine inv.idle ⟨same.1, same.2, same.3, same.4, same.5, same.6, same.7, same.8⟩ (fun _ => deferred) ?_ ?_ <;>
    (dsimp only; split <;> nofun)

theorem Invariant.afterFlush (inv : s.Invariant) (same : s.SameBuffers t)
    (deferred : ∀ frame, t.deferred = some frame → s.Held frame) : (t.afterFlush protocol).Invariant := by
  cases protocol with
  | ext => exact inv.afterWait same deferred
  | wlr => exact inv.idle ⟨same.1, same.2, same.3, same.4, same.5, same.6, same.7, same.8⟩ (fun _ => deferred) nofun nofun

theorem other_ne (capIdx_le : s.capIdx ≤ 1) : 1 - s.capIdx ≠ s.capIdx := by omega

/-- The compositor writes into the buffer in use, never into the other one. -/
theorem Invariant.write (inv : s.Invariant) {request : CaptureRequest} (sent : s.outstanding = some request)
    (byte : Nat → UInt8) :
    ({ s with mappings := Function.update s.mappings request.buffer { s.mappings request.buffer with byte } } :
      ShmLoop P).Invariant := by
  obtain ⟨same, pending⟩ := inv.outstanding request sent
  have buffer : request.buffer = s.capIdx := congrArg CaptureRequest.buffer same
  have other : Function.update s.mappings request.buffer { s.mappings request.buffer with byte } (1 - s.capIdx) =
      s.mappings (1 - s.capIdx) :=
    Function.update_of_ne (buffer ▸ other_ne inv.capIdx_le) _ _
  refine ⟨⟨inv.capIdx_le, inv.outstanding, fun ready => ?_, inv.unsent⟩, fun keeps frame isDeferred => ?_,
    fun frame fresh isPhase => ?_, fun completed isPhase ok => ?_, inv.discarded⟩
  · exact absurd (pending.symm.trans ready) Bool.false_ne_true
  · exact (inv.deferred keeps frame isDeferred).keep rfl rfl rfl other
  · obtain ⟨held, newest, kept⟩ := inv.calling frame fresh isPhase
    exact ⟨held.keep rfl rfl rfl other, newest, kept⟩
  · obtain ⟨idx, capture, taken, newest, number, mapped⟩ := inv.taking completed isPhase ok
    refine ⟨idx, capture, taken, newest, number, ?_⟩
    rw [idx] at mapped ⊢
    exact other.trans mapped

/-- A capture that succeeds leaves the other buffer alone. -/
theorem Invariant.succeed (inv : s.Invariant) {request : CaptureRequest} (sent : s.outstanding = some request)
    (waiting : s.phase = .waiting) (damage : List Region) :
    ({ s with
      damageRegions := damage
      frameReady := true
      outstanding := none
      captures := ⟨request.number, s.mappings request.buffer⟩ :: s.captures
      phase := .dispatched } : ShmLoop P).Invariant := by
  obtain ⟨same, _⟩ := inv.outstanding request sent
  refine ⟨⟨inv.capIdx_le, nofun, fun _ => ⟨_, rfl, ?_, ?_⟩, fun unsent => ?_⟩, fun _ frame isDeferred => ?_, nofun, nofun, nofun⟩
  · exact congrArg CaptureRequest.number same
  · exact congrArg s.mappings (congrArg CaptureRequest.buffer same)
  · cases (inv.unsent unsent).2.symm.trans sent
  · have keeps : Keeps s.phase := by
      rw [waiting]
      trivial
    exact (inv.deferred keeps frame isDeferred).keep rfl rfl rfl rfl

theorem Invariant.fail (inv : s.Invariant) (waiting : s.phase = .waiting) (damage : List Region)
    (failure : ExtFrameFailure) :
    ({ s with
      damageRegions := damage
      frameFailed := true
      extFrameFailure := failure
      outstanding := none
      phase := .dispatched } : ShmLoop P).Invariant := by
  refine ⟨⟨inv.capIdx_le, nofun, inv.ready, fun unsent => ⟨(inv.unsent unsent).1, rfl⟩⟩, fun _ frame isDeferred => ?_,
    nofun, nofun, nofun⟩
  have keeps : Keeps s.phase := by
    rw [waiting]
    trivial
  exact (inv.deferred keeps frame isDeferred).keep rfl rfl rfl rfl

/-- The loop moves on to the other buffer; the completed one is not submitted again. -/
theorem Invariant.takeUp (inv : s.Invariant) (completed : s.frameReady = true ∨ s.frameFailed = true) :
    (s.takeUpCompleted protocol).Invariant := by
  have le := inv.capIdx_le
  have wired : (startFrame protocol { s with
      deferred := if s.frameFailed then none else s.deferred
      taken := if s.frameFailed then s.taken else s.captures.head?
      capIdx := 1 - s.capIdx }).Wired := .startFrame (by dsimp only; omega)
  refine ⟨⟨wired.1, wired.2, wired.3, wired.4⟩, nofun, nofun, fun saved isPhase ok => ?_, fun saved isPhase failed => ?_⟩
  rotate_left
  · cases isPhase
    dsimp only at failed
    unfold ShmLoop.takeUpCompleted
    simp only [startFrame_deferred, failed, if_true]
  cases isPhase
  dsimp only at ok
  have ready : s.frameReady = true := completed.resolve_right (by simp [ok])
  obtain ⟨capture, newest, number, mapped⟩ := inv.ready ready
  unfold ShmLoop.takeUpCompleted
  refine ⟨?_, capture, ?_, ?_, ?_, ?_⟩
  · simp only [startFrame_capIdx]
    omega
  · simp only [startFrame_taken, ok, Bool.false_eq_true, if_false]
    exact newest
  · simp only [startFrame_captures]
    exact newest
  · dsimp only
    rw [startFrame_other]
    · exact number.symm
    · dsimp only
      omega
  · simp only [startFrame_mappings]
    exact mapped.symm

theorem Invariant.dispose (inv : s.Invariant) (same : s.SameBuffers t) (held : s.Held frame)
    (newest : s.captures.head? = some frame.capture) (undeferred : t.deferred = none) (due : Bool) :
    (t.dispose M protocol frame due).Invariant := by
  have kept : ∀ other, t.deferred = some other → s.Held other := fun other isDeferred => by
    cases undeferred.symm.trans isDeferred
  unfold ShmLoop.dispose
  dsimp only
  split
  · exact inv.loopTop same kept
  · split
    · refine inv.carry ⟨same.1, same.2, same.3, same.4, same.5, same.6, same.7, same.8⟩ (fun _ => kept) ?_ nofun
      intro other fresh isPhase
      cases isPhase
      exact ⟨held, fun _ => newest, nofun⟩
    · refine inv.loopTop ⟨same.1, same.2, same.3, same.4, same.5, same.6, same.7, same.8⟩ fun other isDeferred => ?_
      cases isDeferred
      exact held

/-- The completed capture is the one taken up, and its frame is held from then on. -/
theorem Invariant.prepare (inv : s.Invariant) {completed : CompletedCapture} {capture : SuccessfulCapture}
    (isPhase : s.phase = .submitted completed) (ok : completed.failed = false) (taken : s.taken = some capture)
    (due scanDue : Bool) : (s.prepareCompleted M protocol buffers completed capture due scanDue).Invariant := by
  obtain ⟨idx, other, isTaken, newest, number, mapped⟩ := inv.taking completed isPhase ok
  cases taken.symm.trans isTaken
  unfold ShmLoop.prepareCompleted
  dsimp only
  split
  · exact inv.idle ⟨rfl, rfl, rfl, rfl, rfl, rfl, rfl, rfl⟩ (fun _ => nofun) nofun nofun
  · split
    · exact inv.idle ⟨rfl, rfl, rfl, rfl, rfl, rfl, rfl, rfl⟩ (fun _ => nofun) nofun nofun
    · rename_i shared snapshot isShared result prepared isPrepared
      have borrows : ∀ {i : Nat}, (if (snapshot.geometryFor buffers.source).isIdentity then some completed.idx else none) =
          some i → i = completed.idx := fun borrowed => by
        obtain ⟨_, same⟩ := Option.ite_none_right_eq_some.mp borrowed
        exact (Option.some.inj same).symm
      refine inv.dispose ?_ ⟨taken, ?_, ?_, ?_⟩ newest ?_ due
      · exact ⟨rfl, rfl, rfl, rfl, rfl, rfl, rfl, rfl⟩
      · exact fun i borrowed => (borrows borrowed).trans idx
      · exact fun i borrowed => borrows borrowed ▸ number
      · exact fun i borrowed => borrows borrowed ▸ mapped
      · rfl

theorem Invariant.submit (inv : s.Invariant) (flushed : s.phase = .flushed) (unsent : s.bufferSent = false) :
    s.submit.Invariant := by
  have keeps : Keeps s.phase := by
    rw [flushed]
    trivial
  refine ⟨.submit inv.capIdx_le (inv.unsent unsent).1, fun _ frame isDeferred => ?_, ?_, ?_, ?_⟩
  · exact (inv.deferred keeps frame isDeferred).keep rfl rfl (submit_other (other_ne inv.capIdx_le)) rfl
  · exact fun frame fresh isPhase => nomatch flushed.symm.trans isPhase
  · exact fun completed isPhase => nomatch flushed.symm.trans isPhase
  · exact fun completed isPhase => nomatch flushed.symm.trans isPhase

/-- A stalled frame is started again for the same buffer. -/
theorem Invariant.restart (inv : s.Invariant) (flushed : s.phase = .flushed) : (s.startFrame protocol).Invariant := by
  have keeps : Keeps s.phase := by
    rw [flushed]
    trivial
  refine ⟨.startFrame inv.capIdx_le, fun _ frame isDeferred => ?_, ?_, ?_, ?_⟩
  · rw [startFrame_deferred] at isDeferred
    exact (inv.deferred keeps frame isDeferred).keep startFrame_taken startFrame_capIdx
      (startFrame_other (other_ne inv.capIdx_le)) (congrFun startFrame_mappings _)
  · rw [startFrame_phase, flushed]
    exact nofun
  · rw [startFrame_phase, flushed]
    exact nofun
  · rw [startFrame_phase, flushed]
    exact nofun

theorem Invariant.next {action : Action Env} (inv : s.Invariant)
    (step : s.next M protocol buffers action = some t) : t.Invariant := by
  cases action with
  | publish geometry =>
    cases step
    exact inv.carry ⟨rfl, rfl, rfl, rfl, rfl, rfl, rfl, rfl⟩ inv.deferred inv.calling fun _ isPhase => ⟨isPhase, rfl⟩
  | stop =>
    cases step
    exact inv.carry ⟨rfl, rfl, rfl, rfl, rfl, rfl, rfl, rfl⟩ inv.deferred inv.calling fun _ isPhase => ⟨isPhase, rfl⟩
  | write byte =>
    dsimp only [ShmLoop.next] at step
    split at step
    · rename_i request sent
      cases step
      exact inv.write sent byte
    · cases step
  | poll damage outcome =>
    dsimp only [ShmLoop.next] at step
    split at step
    · rename_i waiting
      cases step
      refine inv.idle ⟨rfl, rfl, rfl, rfl, rfl, rfl, rfl, rfl⟩ (fun _ => inv.deferred ?_) nofun nofun
      rw [waiting]
      trivial
    · rename_i request waiting sent
      cases step
      exact inv.succeed sent waiting _
    · rename_i failure waiting
      cases step
      exact inv.fail waiting _ failure
    · cases step
  | pollError =>
    dsimp only [ShmLoop.next] at step
    split at step
    · cases step
      exact inv.idle ⟨rfl, rfl, rfl, rfl, rfl, rfl, rfl, rfl⟩ nofun nofun nofun
    · cases step
  | flush due =>
    dsimp only [ShmLoop.next] at step
    split at step
    · rename_i dispatched
      have deferred := inv.deferred (by rw [dispatched]; trivial)
      split at step
      · cases step
        exact inv.idle ⟨rfl, rfl, rfl, rfl, rfl, rfl, rfl, rfl⟩ (fun _ => deferred) nofun nofun
      · split at step
        · rename_i frame isDeferred
          split at step
          · cases step
            refine inv.carry ⟨rfl, rfl, rfl, rfl, rfl, rfl, rfl, rfl⟩ (fun _ => deferred) ?_ nofun
            intro other fresh isPhase
            cases isPhase
            exact ⟨deferred frame isDeferred, nofun, fun _ => isDeferred⟩
          · cases step
            exact inv.afterFlush ⟨rfl, rfl, rfl, rfl, rfl, rfl, rfl, rfl⟩ deferred
        · cases step
          exact inv.afterFlush ⟨rfl, rfl, rfl, rfl, rfl, rfl, rfl, rfl⟩ deferred
    · cases step
  | finish env =>
    dsimp only [ShmLoop.next] at step
    split at step
    · rename_i frame fresh processing
      have deferred := inv.deferred (by rw [processing]; trivial)
      split at step
      · cases step
        exact inv.idle ⟨rfl, rfl, rfl, rfl, rfl, rfl, rfl, rfl⟩ nofun nofun nofun
      · split at step
        · cases step
          exact inv.loopTop ⟨rfl, rfl, rfl, rfl, rfl, rfl, rfl, rfl⟩ deferred
        · cases step
          exact inv.afterFlush ⟨rfl, rfl, rfl, rfl, rfl, rfl, rfl, rfl⟩ nofun
    · cases step
  | settle info changed stalled =>
    dsimp only [ShmLoop.next] at step
    split at step
    · rename_i flushed
      have settled : ∀ u : ShmLoop P, u.Invariant → u.phase = .flushed →
          (if u.stopping then some { u with phase := .completed }
            else some (if stalled then u.startFrame protocol else u).afterWait) = some t → t.Invariant := by
        intro u inv flushed step
        have deferred := inv.deferred (by rw [flushed]; trivial)
        split at step
        · cases step
          exact inv.idle ⟨rfl, rfl, rfl, rfl, rfl, rfl, rfl, rfl⟩ (fun _ => deferred) nofun nofun
        · cases step
          split
          · have restarted : (u.startFrame protocol).Invariant := inv.restart flushed
            refine restarted.afterWait ⟨rfl, rfl, rfl, rfl, rfl, rfl, rfl, rfl⟩ (restarted.deferred ?_)
            rw [startFrame_phase, flushed]
            trivial
          · exact inv.afterWait ⟨rfl, rfl, rfl, rfl, rfl, rfl, rfl, rfl⟩ deferred
      split at step
      · cases step
        exact inv.idle ⟨rfl, rfl, rfl, rfl, rfl, rfl, rfl, rfl⟩ nofun nofun nofun
      · split at step
        · rename_i attach
          have unsent : s.bufferSent = false := by simpa using ((Bool.and_eq_true _ _).mp attach).1
          exact settled s.submit (inv.submit flushed unsent) flushed step
        · exact settled s inv flushed step
    · cases step
  | takeUp =>
    dsimp only [ShmLoop.next] at step
    split at step
    · split at step
      · cases step
        exact inv.idle ⟨rfl, rfl, rfl, rfl, rfl, rfl, rfl, rfl⟩ nofun nofun nofun
      · rename_i completed
        split at step
        · cases step
          exact inv.idle ⟨rfl, rfl, rfl, rfl, rfl, rfl, rfl, rfl⟩ nofun nofun nofun
        · cases step
          refine inv.takeUp ?_
          by_cases ready : s.frameReady = true
          · exact .inl ready
          · refine .inr (Bool.eq_true_of_not_eq_false fun unfailed => completed (.inr ?_))
            simp [ready, unfailed]
    · cases step
  | prepare due scanDue =>
    dsimp only [ShmLoop.next] at step
    split at step
    · split at step
      · cases step
        exact inv.idle ⟨rfl, rfl, rfl, rfl, rfl, rfl, rfl, rfl⟩ nofun nofun nofun
      · rename_i isPhase _
        cases step
        refine inv.loopTop ⟨rfl, rfl, rfl, rfl, rfl, rfl, rfl, rfl⟩ fun frame isDeferred => ?_
        cases (inv.discarded _ isPhase rfl).symm.trans isDeferred
    · rename_i completed capture ok isPhase taken
      cases step
      refine inv.prepare isPhase ?_ taken due scanDue
      exact Bool.eq_false_of_not_eq_true fun failed => ok completed.idx completed.damageRegions (failed ▸ rfl)
    · cases step

theorem start_invariant (started : start M protocol buffers snapshot = some s) : s.Invariant := by
  unfold start at started
  split at started
  · cases started
  · cases started
    refine ⟨.startFrame (Nat.zero_le _), fun _ frame isDeferred => ?_, ?_, ?_, ?_⟩
    · rw [startFrame_deferred] at isDeferred
      cases isDeferred
    · rw [startFrame_phase]
      exact nofun
    · rw [startFrame_phase]
      exact nofun
    · rw [startFrame_phase]
      exact nofun

theorem reach_invariant (reach : (runs M protocol buffers snapshot).Reach s) : s.Invariant :=
  StepSystem.Inductive.reach
    ⟨fun _ first => start_invariant first, fun s action t inv step => @Invariant.next _ _ M protocol buffers s t action inv step⟩ reach

/-- The numbers of the frame being processed and of the newest capture. -/
def processedNumbers (s : ShmLoop P) : Option (Nat × Nat) :=
  match s.phase, s.captures with
  | .processing frame _, newest :: _ => some (frame.capture.number, newest.number)
  | _, _ => none

theorem processedNumbers_eq {number newest : Nat} (numbers : s.processedNumbers = some (number, newest)) :
    ∃ frame fresh capture, s.phase = .processing frame fresh ∧ s.captures.head? = some capture ∧
      frame.capture.number = number ∧ capture.number = newest := by
  unfold processedNumbers at numbers
  split at numbers
  · rename_i frame fresh capture older processing captures
    cases numbers
    exact ⟨frame, fresh, capture, processing, congrArg List.head? captures, rfl, rfl⟩
  · cases numbers

/-- A buffer of one pixel. -/
def onePixelBuffers : CaptureBuffers := ⟨⟨1, 1, Nat.one_pos, Nat.one_pos⟩, 4, .bgrX32, by decide, by decide⟩

/-- The presentation of one pixel as it is. -/
def onePixelLayout : OutputLayoutSnapshot := ⟨.new onePixelBuffers.source onePixelBuffers.source, 0⟩

/-- A loop without EGFX whose second capture is deferred, and flushed in the
wait iteration that sees the third capture succeed. -/
theorem flushed_run : ∃ s, (runs (frameProcessing false .bgrX32 23 .vbr .auto) .ext onePixelBuffers onePixelLayout).Reach s ∧
    s.processedNumbers = some (2, 3) := by
  let M := frameProcessing false .bgrX32 23 .vbr .auto
  let ready : Action (Bool × Environment) := .poll [⟨0, 0, 1, 1⟩] (some .ready)
  let choices : List (Action (Bool × Environment)) :=
    [ready, .flush true, .takeUp, .prepare true false, .finish (false, .idle),
      ready, .flush true, .takeUp, .prepare false false, ready, .flush true]
  have run : ((start M .ext onePixelBuffers onePixelLayout).bind fun s =>
      StepSystem.exec (next M .ext onePixelBuffers) s choices).bind processedNumbers = some (2, 3) := by
    decide
  obtain ⟨s, run, numbers⟩ := Option.bind_eq_some_iff.mp run
  obtain ⟨first, started, run⟩ := Option.bind_eq_some_iff.mp run
  exact ⟨s, .exec (fun _ _ _ step => step) choices (.start started) run, numbers⟩

/-- Whenever a frame is processed whose data borrows a mapping, the compositor
has no request for that mapping, none was made since the capture that produced
the frame, and that capture is the last one the loop took up; a fresh frame is
of the newest capture of all. -/
theorem processed_buffer_is_settled {fresh : Bool} (reach : (runs M protocol buffers snapshot).Reach s)
    (call : s.phase = .processing frame fresh) :
    (∀ idx, frame.borrowed = some idx → (∀ request, s.outstanding = some request → request.buffer ≠ idx) ∧
      s.submitted idx = frame.capture.number) ∧
    s.taken = some frame.capture ∧ (fresh = true → s.captures.head? = some frame.capture) := by
  have inv := reach_invariant reach
  obtain ⟨held, newest, _⟩ := inv.calling frame fresh call
  refine ⟨fun idx borrowed => ⟨fun request sent => ?_, held.submitted idx borrowed⟩, held.taken, newest⟩
  obtain ⟨same, _⟩ := inv.outstanding request sent
  have other := held.other idx borrowed
  have buffer : request.buffer = s.capIdx := congrArg CaptureRequest.buffer same
  have le := inv.capIdx_le
  omega

/-- The call at the end of that run reads a mapping no request is for. -/
theorem processed_buffer_is_settled_once :
    ∃ s, ∃ frame : LoopFrame, (runs (frameProcessing false .bgrX32 23 .vbr .auto) .ext onePixelBuffers onePixelLayout).Reach s ∧
      (∀ idx, frame.borrowed = some idx → ∀ request, s.outstanding = some request → request.buffer ≠ idx) ∧
      s.taken = some frame.capture := by
  obtain ⟨s, reach, numbers⟩ := flushed_run
  obtain ⟨frame, fresh, capture, processing, _⟩ := processedNumbers_eq numbers
  obtain ⟨settled, taken, _⟩ := processed_buffer_is_settled reach processing
  exact ⟨s, frame, reach, fun idx borrowed => (settled idx borrowed).1, taken⟩

/-- The frame of that call is of the second capture, and the third one has succeeded. -/
theorem flush_behind_newest_capture :
    ∃ s frame fresh capture,
      (runs (frameProcessing false .bgrX32 23 .vbr .auto) .ext onePixelBuffers onePixelLayout).Reach s ∧
      s.phase = .processing frame fresh ∧ s.captures.head? = some capture ∧ frame.capture.number ≠ capture.number := by
  obtain ⟨s, reach, numbers⟩ := flushed_run
  obtain ⟨frame, fresh, capture, processing, newest, second, third⟩ := processedNumbers_eq numbers
  refine ⟨s, frame, fresh, capture, reach, processing, newest, ?_⟩
  rw [second, third]
  decide

end ShmLoop

end HyprRdp
