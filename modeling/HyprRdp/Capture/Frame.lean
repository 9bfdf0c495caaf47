import HyprRdp.Capture.Damage
import HyprRdp.Egfx.ClearCodec
import HyprRdp.Egfx.FrameEncoder
import HyprRdp.Egfx.Readiness

namespace HyprRdp

/-- Maximum consecutive encode failures before falling back to the software encoder. -/
def maxEncodeFailures : Nat := 5

/-- The frames of one processor: the extents are those of an RDP desktop, and
a row holds its pixels. -/
@[ext]
structure FrameShape where
  width : Nat
  height : Nat
  stride : Nat
  width_pos : 0 < width
  height_pos : 0 < height
  width_le : width ≤ 65535
  height_le : height ≤ 65535
  row_fits : width * 4 ≤ stride

instance : DecidableEq FrameShape := fun _ _ => decidable_of_iff _ FrameShape.ext_iff.symm

/-- A frame of one pixel. -/
def FrameShape.onePixel : FrameShape := ⟨1, 1, 4, by decide, by decide, by decide, by decide, by decide⟩

/-- A line of two damage tiles. -/
def FrameShape.twoTiles : FrameShape := ⟨128, 1, 512, by decide, by decide, by decide, by decide, by decide⟩

inductive H264RateControl
  | vbr | cqp
  deriving DecidableEq, Repr

/-- Of the transport handles only their presence is kept: what they answer is
part of the environment of each call. -/
structure FrameProcessor where
  shape : FrameShape
  egfxShared : Bool
  h264Encoder : Option FrameEncoder
  egfxHandle : Bool
  egfxSender : Bool
  egfxSurfaceId : Option Nat
  egfxActive : Bool
  egfxReady : Bool
  egfxGeneration : Nat
  egfxCodec : Option EgfxFrameCodec
  pixelFormat : PixelFormat
  quality : Nat
  rateControl : H264RateControl
  h264Backend : H264BackendPolicy
  sentFirstFrame : Bool
  encodeFailures : Nat
  pendingDamageRegions : List Region
  damageDetector : FrameDiffDamageDetector
  pendingInitialResize : Option (Nat × Nat)

/-- The result of `init_or_reuse_surface`. -/
inductive SurfaceSetup
  | failed
  | reused (id : Nat)
  | created (id : Nat)
  deriving DecidableEq, Repr

/-- The result of `send_clearcodec_damage` once its input is accepted:
`Ok(None)`, `Ok(Some(..))` or `Err(..)`. -/
inductive ClearCodecSend
  | retry | queued | failed
  deriving DecidableEq, Repr

/-- What one call of `process_at` meets: every value it reads from shared
state, every outcome of the H.264 library, the graphics server and the
channels, and whether the callback thread asks for a full frame in between. -/
structure Environment where
  readyForResize : Bool
  readyForClearcodec : Bool
  avcForClearcodec : Bool
  ready : Bool
  avcEnabled : Bool
  avc444Enabled : Bool
  readyAtEnd : Bool
  avcAtEnd : Bool
  generation : Nat
  hasHandle : Bool
  hasSender : Bool
  senderClosed : Bool
  refreshView : GraphicsView
  frameView : GraphicsView
  backends : H264Backends
  fallbackBackends : H264Backends
  surface : SurfaceSetup
  debugFullFrame : Bool
  firstSubframe : Except String Nat
  secondSubframe : Except String Nat
  frameAccepted : Bool
  clearcodecSend : ClearCodecSend
  bitmapFallbackDue : Bool
  bitmapAccepted : Bool
  requestBeforeRefreshCheck : Bool
  requestBeforeTake : Bool
  requestBeforeSend : Bool
  requestAfterSend : Bool

/-- A call that finds EGFX not ready and every channel open. -/
def Environment.idle : Environment where
  readyForResize := false
  readyForClearcodec := false
  avcForClearcodec := false
  ready := false
  avcEnabled := false
  avc444Enabled := false
  readyAtEnd := false
  avcAtEnd := false
  generation := 0
  hasHandle := true
  hasSender := true
  senderClosed := false
  refreshView := ⟨.new defaultMaxFramesInFlight, 0, some ⟨true, true, false, 0, 0⟩⟩
  frameView := ⟨.new defaultMaxFramesInFlight, 0, some ⟨true, true, false, 0, 0⟩⟩
  backends := ⟨false, true⟩
  fallbackBackends := ⟨false, true⟩
  surface := .created 1
  debugFullFrame := false
  firstSubframe := .ok 64
  secondSubframe := .ok 64
  frameAccepted := true
  clearcodecSend := .queued
  bitmapFallbackDue := false
  bitmapAccepted := true
  requestBeforeRefreshCheck := false
  requestBeforeTake := false
  requestBeforeSend := false
  requestAfterSend := false

/-- A call that finds EGFX ready with AVC420. -/
def Environment.avc420 : Environment :=
  { Environment.idle with
    readyForResize := true
    readyForClearcodec := true
    avcForClearcodec := true
    ready := true
    avcEnabled := true
    readyAtEnd := true
    avcAtEnd := true }

/-- A call that finds EGFX ready without AVC. -/
def Environment.clearcodec : Environment :=
  { Environment.idle with readyForResize := true, readyForClearcodec := true, ready := true, readyAtEnd := true }

/-- The graphics server as a check sees it while its transport is backed up. -/
def GraphicsView.backpressured : GraphicsView :=
  ⟨.new defaultMaxFramesInFlight, 0, some ⟨true, true, true, 0, 0⟩⟩

/-- The graphics server as a check sees it with one frame still unacknowledged. -/
def GraphicsView.oneInFlight : GraphicsView :=
  ⟨(FrameFlow.new defaultMaxFramesInFlight).recordFrameQueued 1, 0, some ⟨true, true, false, 1, 0⟩⟩

/-- What a call does that others can see, in order. -/
inductive Event
  | requested
  | resize (width height : Nat)
  | surface (id : Nat) (created : Bool)
  | frame (wire : WireFrame)
  | bitmap
  deriving DecidableEq, Repr

/-- A call under way: the processor, the shared request flag, and what was done so far. -/
structure Call where
  processor : FrameProcessor
  fullFrameRequested : Bool
  events : List Event

namespace Call

/-- The callback thread may ask for a full frame at this point. -/
def hear (c : Call) (requested : Bool) : Call :=
  if requested then { c with fullFrameRequested := true, events := c.events ++ [.requested] } else c

def emit (c : Call) (e : Event) : Call := { c with events := c.events ++ [e] }

def update (c : Call) (p : FrameProcessor) : Call := { c with processor := p }

end Call

namespace FrameProcessor

def new (shape : FrameShape) (egfxShared : Bool) (pixelFormat : PixelFormat) (quality : Nat)
    (rateControl : H264RateControl) (h264Backend : H264BackendPolicy) : FrameProcessor where
  shape
  egfxShared
  h264Encoder := none
  egfxHandle := false
  egfxSender := false
  egfxSurfaceId := none
  egfxActive := false
  egfxReady := false
  egfxGeneration := 0
  egfxCodec := none
  pixelFormat
  quality
  rateControl
  h264Backend
  sentFirstFrame := false
  encodeFailures := 0
  pendingDamageRegions := []
  damageDetector := .new
  pendingInitialResize := none

def hasPendingDamage (p : FrameProcessor) : Bool := !p.pendingDamageRegions.isEmpty

def metadataQp (p : FrameProcessor) : Nat :=
  match p.rateControl with
  | .vbr => 0
  | .cqp => min p.quality 51

def fullRegion (p : FrameProcessor) : Region := .full p.shape.width p.shape.height

def queueDamage (p : FrameProcessor) (damageRegions : List Region) : FrameProcessor :=
  { p with
    pendingDamageRegions :=
      (damageRegions.filterMap fun r => clampDamageRegion r p.shape.width p.shape.height).foldl mergeDamageRegion
        p.pendingDamageRegions }

def detect (p : FrameProcessor) (data : Bytes) (candidates : List Region) : List Region :=
  p.damageDetector.detect data p.shape.width p.shape.height p.shape.stride candidates

def updateReferenceRegions (p : FrameProcessor) (data : Bytes) (regions : List Region) : FrameDiffDamageDetector :=
  p.damageDetector.updateReferenceRegions data p.shape.width p.shape.height p.shape.stride regions

/-- What a generation, codec or readiness change resets. -/
def resetEncoding (p : FrameProcessor) : FrameProcessor :=
  { p with
    egfxSurfaceId := none
    h264Encoder := none
    egfxCodec := none
    sentFirstFrame := false
    damageDetector := p.damageDetector.invalidate }

def refreshClearcodec (p : FrameProcessor) (env : Environment) : FrameProcessor :=
  if env.generation ≠ p.egfxGeneration ∨ p.h264Encoder.isSome then
    { p.resetEncoding with egfxGeneration := env.generation, egfxActive := false }
  else p

def selectedCodec (p : FrameProcessor) (env : Environment) : Option EgfxFrameCodec :=
  if env.avc444Enabled && avc444DimensionsSupported p.shape.width p.shape.height then some .avc444
  else if env.avcEnabled then some .avc420
  else none

def refreshReadiness (p : FrameProcessor) (ready : Bool) : FrameProcessor :=
  if ready = p.egfxReady then p
  else if ready then { p with egfxReady := ready }
  else { p.resetEncoding with egfxReady := ready, egfxActive := false, egfxHandle := false, egfxSender := false }

/-- The generation and codec check, with the new encoder it may create. -/
def refreshEncoder (p : FrameProcessor) (env : Environment) (ready : Bool) : FrameProcessor :=
  let codec := p.selectedCodec env
  if env.generation ≠ p.egfxGeneration ∨ (ready ∧ codec ≠ p.egfxCodec) then
    let p := { p.resetEncoding with egfxGeneration := env.generation }
    if ready then
      let selected := codec.getD .avc420
      match FrameEncoder.newForEgfxCodec p.h264Backend selected p.shape.width p.shape.height env.backends with
      | some enc => { p with egfxCodec := some selected, h264Encoder := some enc }
      | none => p
    else p
  else p

def frameDamageRegions (p : FrameProcessor) (data : Bytes) (forceFullFrame : Bool) : List Region :=
  if forceFullFrame then [p.fullRegion]
  else if p.sentFirstFrame then p.detect data p.pendingDamageRegions
  else p.detect data [p.fullRegion]

def activate (p : FrameProcessor) (env : Environment) (ready : Bool) : FrameProcessor :=
  if ready && !p.egfxActive then
    { p with
      egfxHandle := env.hasHandle
      egfxSender := env.hasSender
      egfxActive := p.h264Encoder.isSome && env.hasHandle && env.hasSender }
  else p

/-- After repeated VA-API failures the automatic policy switches to software;
the forced one disables H.264. -/
def runtimeFallback (p : FrameProcessor) (env : Environment) : FrameProcessor :=
  if maxEncodeFailures ≤ p.encodeFailures ∧ p.h264Encoder.any FrameEncoder.isVaapi then
    if p.h264Backend.allowsRuntimeSoftwareFallback then
      match FrameEncoder.newSoftwareOnlyForEgfxCodec (p.egfxCodec.getD .avc420) p.shape.width p.shape.height
          env.fallbackBackends with
      | some enc => { p with h264Encoder := some enc, encodeFailures := 0, egfxSurfaceId := none }
      | none => { p with h264Encoder := none, egfxActive := false }
    else { p with h264Encoder := none, egfxActive := false }
  else p

/-- A frame left over EGFX. -/
def frameLeft (p : FrameProcessor) : FrameProcessor := { p with sentFirstFrame := true, pendingDamageRegions := [] }

def egfxRuntimeAvailable (p : FrameProcessor) : Bool :=
  p.egfxActive && p.h264Encoder.isSome && p.egfxSurfaceId.isSome

def shouldSendBitmap (p : FrameProcessor) (env : Environment) : Bool :=
  if !p.egfxShared then true
  else if !env.readyAtEnd then env.bitmapFallbackDue
  else !env.avcAtEnd || !p.egfxRuntimeAvailable

end FrameProcessor

namespace Call

/-- `send_clearcodec_damage` on the surface at hand, and what follows from its result. -/
def sendClearcodec (c : Call) (env : Environment) (data : Bytes) (damage : List Region) (surface : Nat) :
    Call × Bool :=
  let c := c.hear env.requestBeforeSend
  let p := c.processor
  match ClearCodecInput.new data p.shape.width p.shape.height p.shape.stride damage p.pixelFormat with
  | .error _ => (c, false)
  | .ok input =>
    if input.rectangles.isEmpty then (c, true)
    else
      match env.clearcodecSend with
      | .retry => (c, true)
      | .failed => (c, false)
      | .queued =>
        let c := (c.emit (.frame (.clearcodec surface input.rectangles))).hear env.requestAfterSend
        ({ c with
            fullFrameRequested := false
            processor :=
              { p with
                sentFirstFrame := true
                egfxSurfaceId := some surface
                damageDetector := p.updateReferenceRegions data damage
                pendingDamageRegions := [] } }, true)

/-- `process_clearcodec`; the flag says whether the capture loop goes on. -/
def processClearcodec (c : Call) (env : Environment) (data : Bytes) : Call × Bool :=
  let c := c.update (c.processor.refreshClearcodec env)
  if !env.hasHandle || !env.hasSender then (c, true)
  else if env.senderClosed then (c, false)
  else
    let c := c.hear env.requestBeforeRefreshCheck
    let readiness :=
      if c.fullFrameRequested then env.refreshView.fullFrameRefreshReadiness else env.frameView.frameReadiness
    if !readiness.isReady then (c, true)
    else
      let c := c.hear env.requestBeforeTake
      let p := c.processor
      let fullRefresh := c.fullFrameRequested || !p.sentFirstFrame
      let damage := if fullRefresh then [p.fullRegion] else p.detect data p.pendingDamageRegions
      if damage.isEmpty then (c.update { p with pendingDamageRegions := [] }, true)
      else
        match env.surface with
        | .failed => (c, true)
        | .reused id => (c.emit (.surface id false)).sendClearcodec env data damage id
        | .created id => (c.emit (.surface id true)).sendClearcodec env data damage id

def initSurface (c : Call) (env : Environment) : Call :=
  let p := c.processor
  if p.egfxSurfaceId.isNone && p.egfxHandle && p.egfxSender then
    match env.surface with
    | .failed => c
    | .reused id => (c.emit (.surface id false)).update { p with egfxSurfaceId := some id }
    | .created id => (c.emit (.surface id true)).update { p with egfxSurfaceId := some id }
  else c

/-- Encodes the frame and hands it over; the flag is `sent_via_egfx`. -/
def encodeAndSend (c : Call) (env : Environment) (data : Bytes) (surface : Nat) (force : Bool)
    (regions : List Region) : Call × Bool :=
  let c := c.hear env.requestBeforeSend
  let p := c.processor
  match if force then p.h264Encoder.map .forceFullFrame else p.h264Encoder with
  | none => (c, false)
  | some enc =>
    let (enc, result) := enc.encodeEgfxFrame (p.egfxCodec.getD .avc420) data p.shape.stride regions
      env.debugFullFrame env.firstSubframe env.secondSubframe
    match result with
    | .error _ =>
      (c.update { p with h264Encoder := some enc.forceIdr, encodeFailures := p.encodeFailures + 1 }, false)
    | .ok frame =>
      match frame.state with
      | .skipped => (c.update { p with h264Encoder := some enc, encodeFailures := 0 }, false)
      | .invalid =>
        (c.update { p with h264Encoder := some enc.forceIdr, encodeFailures := p.encodeFailures + 1 }, false)
      | .sendable =>
        if !p.egfxHandle || !p.egfxSender then (c.update { p with h264Encoder := some enc, encodeFailures := 0 }, false)
        else
          match sendTrackedEncodedEgfxFrame surface frame regions p.shape.width p.shape.height p.metadataQp
              env.frameAccepted with
          | none => (c.update { p with h264Encoder := some enc.forceIdr, encodeFailures := 0 }, false)
          | some wire =>
            ((c.emit (.frame wire)).update
              { p with
                h264Encoder := some (enc.commitAfterSend frame)
                encodeFailures := 0
                damageDetector := p.updateReferenceRegions data regions }, true)

/-- How the H.264 part of a call ends: with `return true`, or by falling
through to the bitmap part with `sent_via_egfx`. -/
inductive AvcOutcome
  | returned (c : Call)
  | passed (c : Call) (sentViaEgfx : Bool)

def AvcOutcome.call : AvcOutcome → Call
  | .returned c | .passed c _ => c

def AvcOutcome.sent : AvcOutcome → Bool
  | .returned _ => false
  | .passed _ sentViaEgfx => sentViaEgfx

/-- The request that was taken is put back when its frame did not leave. -/
def afterSend (c : Call) (env : Environment) (force sent : Bool) : Call :=
  let c := c.hear env.requestAfterSend
  let c := if force && !sent then { c with fullFrameRequested := true } else c
  c.update (c.processor.runtimeFallback env)

/-- From the transport on: activation, surface, readiness, encoding, sending and the runtime fallback. -/
def transmit (c : Call) (env : Environment) (data : Bytes) (ready force : Bool) (regions : List Region) : AvcOutcome :=
  let c := c.update (c.processor.activate env ready)
  if !c.processor.egfxActive then .passed c false
  else
    let c := c.initSurface env
    match c.processor.egfxSurfaceId with
    | none => .passed c false
    | some surface =>
      if c.processor.egfxHandle && !env.frameView.frameReadiness.isReady then .returned c
      else
        let (c, sent) := c.encodeAndSend env data surface force regions
        .passed (c.afterSend env force sent) sent

/-- The EGFX state, the generation and the codec are checked, and the callback thread is heard. -/
def refresh (c : Call) (env : Environment) : Call :=
  let ready := env.ready && env.avcEnabled
  (c.update ((c.processor.refreshReadiness ready).refreshEncoder env ready)).hear env.requestBeforeRefreshCheck

/-- `take_full_frame_request`, when EGFX is ready. -/
def take (c : Call) (ready : Bool) : Call := if ready then { c with fullFrameRequested := false } else c

def processAvc (c : Call) (env : Environment) (data : Bytes) : AvcOutcome :=
  let ready := env.ready && env.avcEnabled
  let c := c.refresh env
  if ready && c.fullFrameRequested && !env.refreshView.fullFrameRefreshReadiness.isReady then .returned c
  else
    let c := c.hear env.requestBeforeTake
    let force := ready && c.fullFrameRequested
    let c := c.take ready
    let regions := c.processor.frameDamageRegions data force
    if c.processor.sentFirstFrame && regions.isEmpty then
      .returned (c.update { c.processor with pendingDamageRegions := [] })
    else c.transmit env data ready force regions

/-- The end of `process_at`: accounting for a frame that left, else the legacy bitmap. -/
def finish (c : Call) (env : Environment) (data : Bytes) (sentViaEgfx : Bool) : Call × Bool :=
  let p := c.processor
  let c := if sentViaEgfx then c.update p.frameLeft else c
  let p := c.processor
  if !sentViaEgfx && p.shouldSendBitmap env then
    if !env.bitmapAccepted then (c.update { p with sentFirstFrame := true }, false)
    else
      ((c.emit .bitmap).update
        { p with
          sentFirstFrame := true
          damageDetector := p.damageDetector.updateReference data p.shape.height p.shape.stride
          pendingDamageRegions := [] }, true)
  else (c, true)

end Call

def Call.AvcOutcome.finished (outcome : Call.AvcOutcome) (env : Environment) (data : Bytes) : Call × Bool :=
  match outcome with
  | .returned c => (c, true)
  | .passed c sent => c.finish env data sent

namespace Call

def processAt (c : Call) (env : Environment) (data : Bytes) : Call × Bool :=
  let p := c.processor
  let forceEgfxFullFrame := p.egfxShared && c.fullFrameRequested
  if p.sentFirstFrame && !p.hasPendingDamage && !forceEgfxFullFrame then (c, true)
  else
    match p.pendingInitialResize, !p.egfxShared || env.readyForResize with
    | some (width, height), true =>
      ((c.emit (.resize width height)).update { p with pendingInitialResize := none }, false)
    | _, _ =>
      if p.egfxShared && env.readyForClearcodec && !env.avcForClearcodec then c.processClearcodec env data
      else if p.egfxShared then (c.processAvc env data).finished env data
      else c.finish env data false

end Call

/-- What happens to one processor: damage from the compositor, a request from
the callback thread, a pending resize, and the calls of the capture loop. -/
inductive ProcessorInput
  | queueDamage (damage : List Region)
  | requestFullFrame
  | initialResize (size : Option (Nat × Nat))
  | process (env : Environment) (data : Bytes)

end HyprRdp
