import HyprRdp.Capture.DmabufSender
import HyprRdp.Capture.ShmLoop

namespace HyprRdp

inductive DmabufCaptureDecision
  | goOn | fallBackToShm | restartCaptureSession
  deriving DecidableEq

inductive DmabufFrameWaitDecision
  | continueWaiting | frameCompleted | shutdown
  | exit (decision : DmabufCaptureDecision)
  deriving DecidableEq

/-- Without scaling the buffers of the compositor are encoded as they are. -/
def dmabufZeroCopyAllowed (snapshot : OutputLayoutSnapshot) : Bool := snapshot.presentationGeometry.isIdentity

def dmabufCaptureDecision (snapshot : Option OutputLayoutSnapshot) (loopSize : Nat × Nat) : DmabufCaptureDecision :=
  match snapshot with
  | none => .fallBackToShm
  | some snapshot =>
    let source := snapshot.presentationGeometry.source
    if (source.width, source.height) ≠ loopSize then .restartCaptureSession
    else if dmabufZeroCopyAllowed snapshot then .goOn
    else .fallBackToShm

def dmabufFrameWaitDecision (frameReady frameFailed shouldStop : Bool) (snapshot : Option OutputLayoutSnapshot)
    (loopSize : Nat × Nat) : DmabufFrameWaitDecision :=
  if shouldStop then .shutdown
  else
    match dmabufCaptureDecision snapshot loopSize with
    | .goOn => if frameReady || frameFailed then .frameCompleted else .continueWaiting
    | decision => .exit decision

inductive DmabufPhase
  | waiting
  | dispatched
  | completed
  | submitted (hasDamage : Bool)
  | ended
  deriving DecidableEq

/-- The DMA-BUF capture loop. `behind` is the history: the last capture with
damage that the loop took up has not been accepted for sending. -/
structure DmabufLoop (E : Type) where
  shared : Option OutputLayoutSnapshot
  stopping : Bool
  capIdx : Nat
  frameReady : Bool
  frameFailed : Bool
  damageRegions : List Region
  sender : DmabufSender E
  behind : Bool
  phase : DmabufPhase

namespace DmabufLoop

variable {E Input : Type} (library : OpenH264 E Input)

/-- One step of the loop, the compositor or another thread; `due` is the pacer's window. -/
inductive Action (Input : Type)
  | publish (geometry : PresentationGeometry)
  | stop
  | poll (damage : List Region) (outcome : Option Bool)
  | pollError
  | decide
  | takeUp
  | process (due : Bool) (env : CodingEnvironment Input)

/-- A capture is requested into the current buffer. -/
def startFrame (l : DmabufLoop E) : DmabufLoop E := { l with frameReady := false, frameFailed := false, damageRegions := [] }

def start (shared : OutputLayoutSnapshot) (sender : DmabufSender E) : DmabufLoop E where
  shared := some shared
  stopping := false
  capIdx := 0
  frameReady := false
  frameFailed := false
  damageRegions := []
  sender
  behind := false
  phase := .waiting

def loopTop (l : DmabufLoop E) : DmabufLoop E := { l with phase := if l.stopping then .ended else .waiting }

def size (l : DmabufLoop E) : Nat × Nat := (l.sender.width, l.sender.height)

def next (l : DmabufLoop E) : Action Input → Option (DmabufLoop E)
  | .publish geometry => some { l with shared := some (.applyPrepared l.shared geometry) }
  | .stop => some { l with stopping := true }
  | .poll damage outcome =>
    if l.phase = .waiting then
      some { l with
        damageRegions := l.damageRegions ++ damage
        frameReady := l.frameReady || outcome = some true
        frameFailed := l.frameFailed || outcome = some false
        phase := .dispatched }
    else none
  | .pollError => if l.phase = .waiting then some { l with phase := .ended } else none
  | .decide =>
    if l.phase = .dispatched then
      match dmabufFrameWaitDecision l.frameReady l.frameFailed l.stopping l.shared l.size with
      | .continueWaiting => some { l with phase := .waiting }
      | .frameCompleted | .shutdown => some { l with phase := .completed }
      | .exit _ => some { l with phase := .ended }
    else none
  | .takeUp =>
    if l.phase = .completed then
      if !l.frameReady && !l.frameFailed then some { l with phase := .ended }
      else if dmabufCaptureDecision l.shared l.size ≠ .goOn then some { l with phase := .ended }
      else
        let hasDamage := !l.damageRegions.isEmpty
        let next := { l with capIdx := 1 - l.capIdx }.startFrame
        if l.frameFailed then some next.loopTop
        else some { next with behind := l.behind || hasDamage, phase := .submitted hasDamage }
    else none
  | .process due env =>
    match l.phase with
    | .submitted hasDamage =>
      if ShmLoop.shouldSend due l.sender.sentFirstFrame hasDamage then
        match l.sender.processFrame library env with
        | (sender, .goesOn sent) => some { l with sender, behind := l.behind && !sent }.loopTop
        | (sender, .resized _ _) | (sender, .failed _) => some { l with sender, phase := .ended }
      else some l.loopTop
    | _ => none

def runs (shared : OutputLayoutSnapshot) (sender : DmabufSender E) : StepSystem (DmabufLoop E) (Action Input) :=
  .ofFun (start shared sender) (next library)

end DmabufLoop

end HyprRdp
