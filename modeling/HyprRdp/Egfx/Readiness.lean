import HyprRdp.Egfx.FrameFlow
import HyprRdp.Egfx.OutputQueue

namespace HyprRdp

/-- What a readiness check sees of the graphics server under its lock. -/
structure ServerView where
  isReady : Bool
  hasChannel : Bool
  shouldBackpressure : Bool
  framesInFlight : Nat
  clientQueueDepth : Nat
  deriving DecidableEq, Repr

/-- What a readiness check sees: the local window, the frames still in the
output queue, and the server unless its lock is poisoned. -/
structure GraphicsView where
  flow : FrameFlow
  outputPending : Nat
  server : Option ServerView
  deriving DecidableEq, Repr

inductive EgfxFrameReadiness
  | ready
  | outputBackpressure (queued max : Nat)
  | localBackpressure (inFlight max clientQueueDepth : Nat) (ackSuspended : Bool)
  | transportUnavailable
  | transportNotReady
  | transportNoChannel
  | transportBackpressure (inFlight clientQueueDepth : Nat)
  deriving DecidableEq, Repr

def EgfxFrameReadiness.isReady : EgfxFrameReadiness → Bool
  | .ready => true
  | _ => false

namespace GraphicsView

def outputQueueReadiness (v : GraphicsView) : Option EgfxFrameReadiness :=
  if maxQueuedOutputFrames ≤ v.outputPending then
    some (.outputBackpressure v.outputPending maxQueuedOutputFrames)
  else none

/-- A full-frame refresh waits for an empty window; it does not ask the transport. -/
def fullFrameRefreshReadiness (v : GraphicsView) : EgfxFrameReadiness :=
  if v.flow.frameAckSuspended || v.flow.framesInFlight == 0 then v.outputQueueReadiness.getD .ready
  else .localBackpressure v.flow.framesInFlight 1 v.flow.clientQueueDepth false

def transportFrameReadiness (v : GraphicsView) : EgfxFrameReadiness :=
  match v.server with
  | none => .transportUnavailable
  | some server =>
    if !server.isReady then .transportNotReady
    else if !server.hasChannel then .transportNoChannel
    else if server.shouldBackpressure then .transportBackpressure server.framesInFlight server.clientQueueDepth
    else .ready

def frameReadiness (v : GraphicsView) : EgfxFrameReadiness :=
  if v.flow.shouldBackpressureFrames then
    .localBackpressure v.flow.framesInFlight v.flow.maxFramesInFlight v.flow.clientQueueDepth v.flow.frameAckSuspended
  else
    match v.outputQueueReadiness with
    | some readiness => readiness
    | none => v.transportFrameReadiness

end GraphicsView

end HyprRdp
