import HyprRdp.Capture.PictureCalls

namespace HyprRdp

/-- The transport and the surface of the DMA-BUF loop. Of the handles only their presence is kept. -/
structure EgfxFrameSession where
  ready : Bool
  generation : Nat
  handle : Bool
  sender : Bool
  surfaceId : Option Nat
  deriving DecidableEq, Repr

structure EgfxFrameSessionRefresh where
  ready : Bool
  becameUnready : Bool
  generationChanged : Bool

namespace EgfxFrameSession

def new : EgfxFrameSession := ⟨false, 0, false, false, none⟩

def resetTransport (session : EgfxFrameSession) : EgfxFrameSession :=
  { session with handle := false, sender := false, surfaceId := none }

def refresh (session : EgfxFrameSession) (env : Environment) : EgfxFrameSession × EgfxFrameSessionRefresh :=
  let ready := env.ready && env.avcEnabled
  let becameUnready := session.ready && !ready
  let generationChanged := env.generation != session.generation
  let session := { session with ready }
  let session := if becameUnready then session.resetTransport else session
  let session := if generationChanged then { session with generation := env.generation, surfaceId := none } else session
  let session :=
    if ready && (!session.handle || !session.sender) then
      { session with handle := env.hasHandle, sender := env.hasSender }
    else session
  (session, ⟨ready, becameUnready, generationChanged⟩)

theorem refresh_ready (session : EgfxFrameSession) (env : Environment) :
    (session.refresh env).1.ready = (session.refresh env).2.ready ∧
    (session.refresh env).2.becameUnready = (session.ready && !(session.refresh env).2.ready) := by
  refine ⟨?_, rfl⟩
  unfold refresh
  dsimp only
  split <;> split <;> split <;> rfl

/-- The surface is kept as long as EGFX and its generation are. -/
theorem refresh_surface {session : EgfxFrameSession} {env : Environment}
    (still : (session.refresh env).2.becameUnready = false)
    (same : (session.refresh env).2.generationChanged = false) :
    (session.refresh env).1.surfaceId = session.surfaceId := by
  unfold refresh at still same ⊢
  dsimp only at still same ⊢
  simp only [same, still, Bool.false_eq_true, if_false]
  split <;> rfl

end EgfxFrameSession

/-- What the DMA-BUF loop keeps from frame to frame to encode and send, and what has reached the client. -/
structure DmabufSender (E : Type) where
  width : Nat
  height : Nat
  egfxShared : Bool
  pendingInitialResize : Option (Nat × Nat)
  h264Backend : H264BackendPolicy
  metadataQp : Nat
  session : EgfxFrameSession
  encoder : Option (PictureCoder E)
  encodeFailures : Nat
  sentFirstFrame : Bool
  chain : PictureChain

/-- How the handling of a frame ends: the loop goes on, with the frame sent or
not, stops after it has announced a size, or fails. -/
inductive DmabufFlow
  | goesOn (sent : Bool)
  | resized (width height : Nat)
  | failed (message : String)
  deriving DecidableEq, Repr

def DmabufFlow.continues : DmabufFlow → Bool
  | .goesOn _ => true
  | .resized _ _ | .failed _ => false

namespace DmabufSender

variable {E Input : Type} (library : OpenH264 E Input)

def new (width height : Nat) (egfxShared : Bool) (pendingInitialResize : Option (Nat × Nat))
    (h264Backend : H264BackendPolicy) (metadataQp : Nat) (chain : PictureChain) : DmabufSender E where
  width
  height
  egfxShared
  pendingInitialResize
  h264Backend
  metadataQp
  session := .new
  encoder := none
  encodeFailures := 0
  sentFirstFrame := false
  chain

/-- The session is refreshed; an encoder goes with the transport it was made for. -/
def refresh (x : DmabufSender E) (env : CodingEnvironment Input) : DmabufSender E × EgfxFrameSessionRefresh :=
  let (session, refreshed) := x.session.refresh env.toEnvironment
  ({ x with
      session
      encoder := if refreshed.becameUnready then none else x.encoder
      encodeFailures := if refreshed.becameUnready then 0 else x.encodeFailures }, refreshed)

/-- A new generation, or no encoder, calls for a new one; `none` when it cannot be made. -/
def prepareEncoder (x : DmabufSender E) (env : CodingEnvironment Input) (refreshed : EgfxFrameSessionRefresh) :
    Option (DmabufSender E) :=
  if refreshed.ready && (refreshed.generationChanged || x.encoder.isNone) then
    (FrameEncoder.new x.h264Backend env.backends).map fun enc =>
      { x with encoder := some (.new library env.config enc), encodeFailures := 0, chain := x.chain.nextCoder }
  else some x

def ensureSurface (x : DmabufSender E) (env : CodingEnvironment Input) : DmabufSender E × Bool :=
  if !x.session.ready then (x, false)
  else if x.session.surfaceId.isSome then (x, true)
  else if !x.session.handle || !x.session.sender then (x, false)
  else
    match env.surface with
    | .failed => (x, false)
    | .reused id | .created id =>
      ({ x with session := { x.session with surfaceId := some id }, chain := x.chain.add [.surface id] }, true)

def frameReadiness (x : DmabufSender E) (env : CodingEnvironment Input) : EgfxFrameReadiness :=
  if x.session.handle then env.frameView.frameReadiness else .transportUnavailable

/-- The surface on which the frame has left, if it has. -/
def sendEncodedFrame (x : DmabufSender E) (env : CodingEnvironment Input) (frame : EncodedEgfxFrame) : Option Nat :=
  if x.session.handle && x.session.sender then
    x.session.surfaceId.bind fun surface =>
      (sendTrackedEncodedEgfxFrame surface frame [⟨0, 0, asI32 x.width, asI32 x.height⟩] (x.width % 2 ^ 16)
        (x.height % 2 ^ 16) x.metadataQp env.frameAccepted).map fun _ => surface
  else none

/-- `record_no_progress`, and an IDR picture next; too many failures in a row end the loop. -/
def noProgress (x : DmabufSender E) (coder : PictureCoder E) (message : String) : DmabufSender E × DmabufFlow :=
  ({ x with encoder := some (coder.forceIdr library), encodeFailures := x.encodeFailures + 1 },
    if maxEncodeFailures ≤ x.encodeFailures + 1 then .failed message else .goesOn false)

/-- The video processor converts the capture to NV12, and the encoder takes it from there. -/
def convertAndEncode (x : DmabufSender E) (env : CodingEnvironment Input) (coder : PictureCoder E) :
    PictureCoder E × Except String CodedPicture :=
  match env.vpp with
  | some message => (coder, .error message)
  | none => coder.encodeDmabuf x.chain.pictures env.toCodingInput

def encodeFrame (x : DmabufSender E) (env : CodingEnvironment Input) (coder : PictureCoder E) :
    DmabufSender E × DmabufFlow :=
  let (coder, result) := x.convertAndEncode env coder
  let x := { x with chain := x.chain.nextPicture }
  match result with
  | .error message => x.noProgress library coder message
  | .ok coded =>
    let frame : EncodedEgfxFrame := .avc420 coded.len
    match frame.state with
    | .skipped | .invalid => x.noProgress library coder "no sendable H.264 output"
    | .sendable =>
      match x.sendEncodedFrame env frame with
      | some surface =>
        ({ x with
            encoder := some coder
            encodeFailures := 0
            sentFirstFrame := true
            chain := x.chain.add [.frame surface (some (x.chain.coders, coded.picture))] }, .goesOn true)
      | none => ({ x with encoder := some (coder.forceIdr library), encodeFailures := 0 }, .goesOn false)

/-- The part of the loop after the encoder is there: surface, readiness, conversion, encoding and sending. -/
def transmit (x : DmabufSender E) (env : CodingEnvironment Input) : DmabufSender E × DmabufFlow :=
  let (x, ensured) := x.ensureSurface env
  if !ensured || !(x.frameReadiness env).isReady then (x, .goesOn false)
  else
    match x.encoder with
    | none => (x, .goesOn false)
    | some coder => x.encodeFrame library env coder

/-- What the loop does with a frame that the pacer lets through. A loop that fails loses its encoder. -/
def processFrame (x : DmabufSender E) (env : CodingEnvironment Input) : DmabufSender E × DmabufFlow :=
  if !x.egfxShared then (x, .goesOn false)
  else
    match x.pendingInitialResize, env.readyForResize with
    | some (width, height), true => (x, .resized width height)
    | _, _ =>
      let (x, refreshed) := x.refresh env
      match x.prepareEncoder library env refreshed with
      | none => ({ x with encoder := none }, .failed "H.264 encoder init failed in DMA-BUF mode, falling back to SHM")
      | some x =>
        if !refreshed.ready && env.bitmapFallbackDue then
          (x, .failed "EGFX activation timed out in DMA-BUF mode; falling back to SHM")
        else if refreshed.ready && x.encoder.isSome then x.transmit library env
        else (x, .goesOn false)

/-- Without EGFX there is no encoder, and the next picture is an IDR picture or
follows the last one on the session's surface. -/
structure Sound (x : DmabufSender E) : Prop where
  unready : x.session.ready = false → x.encoder = none
  follows : ∀ coder, x.encoder = some coder → coder.Follows library (x.chain.last x.session.surfaceId)
  chain : x.chain.Sound

variable {library} {x : DmabufSender E} {env : CodingEnvironment Input}

theorem new_sound {width height : Nat} {egfxShared : Bool} {pendingInitialResize : Option (Nat × Nat)}
    {h264Backend : H264BackendPolicy} {metadataQp : Nat} {chain : PictureChain} (sound : chain.Sound) :
    (new width height egfxShared pendingInitialResize h264Backend metadataQp chain : DmabufSender E).Sound library :=
  ⟨fun _ => rfl, nofun, sound⟩

/-- After a refresh an encoder is there only with EGFX, and it keeps its surface
unless the generation has changed. -/
structure Refreshed (library : OpenH264 E Input) (x : DmabufSender E) (refreshed : EgfxFrameSessionRefresh) : Prop where
  ready : refreshed.ready = x.session.ready
  unready : x.session.ready = false → x.encoder = none
  follows : refreshed.generationChanged = false → ∀ coder, x.encoder = some coder →
    coder.Follows library (x.chain.last x.session.surfaceId)
  chain : x.chain.Sound

theorem refresh_refreshed (sound : x.Sound library) (env : CodingEnvironment Input) :
    (x.refresh env).1.Refreshed library (x.refresh env).2 := by
  obtain ⟨ready, unready⟩ := x.session.refresh_ready env.toEnvironment
  refine ⟨ready.symm, fun off => ?_, fun same coder held => ?_, sound.chain⟩
  · change (if (x.session.refresh env.toEnvironment).2.becameUnready then none else x.encoder) = none
    rw [unready, ← ready, show (x.session.refresh env.toEnvironment).1.ready = false from off]
    cases was : x.session.ready with
    | true => rfl
    | false => exact sound.unready was
  · obtain ⟨still, held⟩ := Option.ite_none_left_eq_some.mp held
    have surface := EgfxFrameSession.refresh_surface (Bool.eq_false_iff.mpr still) same
    change coder.Follows library (x.chain.last (x.session.refresh env.toEnvironment).1.surfaceId)
    rw [surface]
    exact sound.follows coder held

theorem prepareEncoder_sound {refreshed : EgfxFrameSessionRefresh} {y : DmabufSender E}
    (ready : x.Refreshed library refreshed) (made : x.prepareEncoder library env refreshed = some y) :
    y.Sound library ∧ y.session = x.session := by
  unfold prepareEncoder at made
  split at made
  · rename_i due
    obtain ⟨enc, _, rfl⟩ := Option.map_eq_some_iff.mp made
    refine ⟨⟨fun off => ?_, fun coder held => ?_, ready.chain.nextCoder⟩, rfl⟩
    · have on := ((Bool.and_eq_true _ _).mp due).1
      rw [ready.ready, show x.session.ready = false from off] at on
      cases on
    · cases held
      exact PictureCoder.new_follows env.config enc
  · rename_i settled
    cases made
    refine ⟨⟨ready.unready, fun coder held => ready.follows ?_ coder held, ready.chain⟩, rfl⟩
    -- an encoder that was kept means EGFX, so a new generation would have replaced it
    cases changed : refreshed.generationChanged with
    | false => rfl
    | true =>
      refine absurd ?_ settled
      cases on : x.session.ready with
      | true => rw [ready.ready, on, changed]; rfl
      | false => exact absurd ((ready.unready on).symm.trans held) nofun

theorem ensureSurface_sound (sound : x.Sound library) (env : CodingEnvironment Input) :
    (x.ensureSurface env).1.Sound library := by
  unfold ensureSurface
  split
  · exact sound
  split
  · exact sound
  split
  · exact sound
  · rename_i unheld _
    have unheld : x.session.surfaceId = none := Option.not_isSome_iff_eq_none.mp unheld
    have found : ∀ id, DmabufSender.Sound library
        { x with session := { x.session with surfaceId := some id }, chain := x.chain.add [.surface id] } := by
      intro id
      refine ⟨sound.unready, fun coder held => ?_, sound.chain.addOther fun entry member => ?_⟩
      · have follows := sound.follows coder held
        rw [unheld, PictureChain.last_none] at follows
        change coder.Follows library ((x.chain.add [.surface id]).last _)
        rw [PictureChain.last_surface]
        exact follows
      · rw [List.mem_singleton.mp member]
        rfl
    split
    · exact sound
    · exact found _
    · exact found _

/-- An encoder that made no progress owes an IDR picture. -/
theorem noProgress_sound {chain : PictureChain} (added : chain.Sound)
    (ready : x.session.ready = true) (coder : PictureCoder E) (message : String) :
    ({ x with chain }.noProgress library coder message).1.Sound library where
  unready off := absurd (ready.symm.trans off) nofun
  follows forced held := by
    cases held
    exact coder.forceIdr_follows
  chain := added

theorem sendEncodedFrame_surface {frame : EncodedEgfxFrame} {surface : Nat}
    (left : x.sendEncodedFrame env frame = some surface) : x.session.surfaceId = some surface := by
  obtain ⟨_, left⟩ := Option.ite_none_right_eq_some.mp left
  obtain ⟨held, same, left⟩ := Option.bind_eq_some_iff.mp left
  obtain ⟨_, _, rfl⟩ := Option.map_eq_some_iff.mp left
  exact same

theorem encodeFrame_sound {coder : PictureCoder E} (sound : x.Sound library) (ready : x.session.ready = true)
    (held : x.encoder = some coder) (env : CodingEnvironment Input) :
    (x.encodeFrame library env coder).1.Sound library := by
  have follows := sound.follows coder held
  have counted := sound.chain.nextPicture
  unfold encodeFrame
  rcases step : x.convertAndEncode env coder with ⟨after, result⟩
  dsimp only
  cases result with
  | error message => exact noProgress_sound counted ready after message
  | ok coded =>
    have converted : coder.encodeDmabuf x.chain.pictures env.toCodingInput = (after, .ok coded) := by
      unfold convertAndEncode at step
      split at step
      · cases step
      · exact step
    obtain ⟨continues, next⟩ := PictureCoder.encodeDmabuf_ok follows converted
    dsimp only
    split
    · exact noProgress_sound counted ready after _
    · exact noProgress_sound counted ready after _
    · split
      · rename_i surface left
        have surfaceId := sendEncodedFrame_surface left
        refine ⟨fun off => absurd (ready.symm.trans off) nofun, fun coder held => ?_, ?_⟩
        · cases held
          change after.Follows library ((x.chain.nextPicture.add [.frame surface (some (x.chain.nextPicture.coders,
            coded.picture))]).last x.session.surfaceId)
          rw [show x.session.surfaceId = some surface from surfaceId, PictureChain.last_frame, continues.number]
          exact next
        · rw [show x.session.surfaceId = some surface from surfaceId] at continues
          exact sound.chain.addPicture continues
      · refine ⟨fun off => absurd (ready.symm.trans off) nofun, fun coder held => ?_, counted⟩
        cases held
        exact after.forceIdr_follows

theorem ensureSurface_session (env : CodingEnvironment Input) :
    (x.ensureSurface env).1.session.ready = x.session.ready ∧
    ((x.ensureSurface env).2 = true → x.session.ready = true) := by
  unfold ensureSurface
  split
  · exact ⟨rfl, nofun⟩
  · rename_i on
    have on : x.session.ready = true := by simpa using on
    refine ⟨?_, fun _ => on⟩
    split
    · rfl
    split
    · rfl
    split <;> rfl

theorem transmit_sound (sound : x.Sound library) (env : CodingEnvironment Input) : (x.transmit library env).1.Sound library := by
  have surfaced := ensureSurface_sound sound env
  obtain ⟨same, on⟩ := ensureSurface_session (x := x) env
  unfold transmit
  generalize x.ensureSurface env = step at surfaced same on
  obtain ⟨y, ensured⟩ := step
  dsimp only at surfaced same on ⊢
  split
  · exact surfaced
  · rename_i blocked
    split
    · exact surfaced
    · rename_i coder held
      have ensured : ensured = true := by
        cases ensured with
        | true => rfl
        | false => exact absurd rfl blocked
      exact encodeFrame_sound surfaced (same.trans (on ensured)) held env

theorem processFrame_sound (sound : x.Sound library) (env : CodingEnvironment Input) :
    (x.processFrame library env).1.Sound library := by
  have refreshed := refresh_refreshed sound env
  unfold processFrame
  split
  · exact sound
  split
  · exact sound
  · generalize x.refresh env = step at refreshed
    obtain ⟨y, check⟩ := step
    dsimp only at refreshed ⊢
    split
    · exact ⟨fun _ => rfl, nofun, refreshed.chain⟩
    · rename_i z made
      have prepared := (prepareEncoder_sound refreshed made).1
      split
      · exact prepared
      split
      · exact transmit_sound prepared env
      · exact prepared

end DmabufSender

end HyprRdp
