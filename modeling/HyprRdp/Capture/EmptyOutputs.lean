import HyprRdp.Capture.DmabufLoop
import HyprRdp.Capture.PredictionChain

namespace HyprRdp

/-- A frame of at most this length is not accepted for sending. -/
def unsendableLength : Nat := 32

/-- The length of what the driver produced, where it got that far. -/
def VaapiRun.produced : VaapiRun → Option Nat
  | .coded data => some data.len
  | .buffersFailed _ _ | .renderFailed _ _ | .readFailed _ => none

/-- How many bytes of parameter sets go in front of a picture without data: an IDR picture
gets those that the encoder generates, any other the cached ones. -/
def VaapiEncoder.prefixed (enc : VaapiEncoder) : Nat := if enc.isIdrFrame then enc.config.spsPps else enc.cachedSpsPps.getD 0

theorem VaapiEncoder.codePicture_empty {enc : VaapiEncoder} {number : Nat} {run : VaapiRun} (empty : run.produced = some 0) :
    ∃ after coded, enc.codePicture number run = (after, .ok coded) ∧ coded.len = enc.prefixed := by
  cases run with
  | coded data =>
    have zero : data.len = 0 := Option.some.inj empty
    have bare : extractSpsPps data = none := if_pos (Nat.le_zero.mp (zero ▸ data.spsPps_le))
    refine ⟨_, _, rfl, ?_⟩
    unfold VaapiEncoder.prefixed
    cases idr : enc.isIdrFrame with
    | true =>
      simp only [bare, zero, if_true]
      rfl
    | false =>
      simp only [zero, Bool.false_and, Bool.false_eq_true, if_false]
      cases enc.cachedSpsPps <;> rfl
  | buffersFailed => cases empty
  | renderFailed => cases empty
  | readFailed => cases empty

namespace PictureCoder

variable {E Input : Type} (library : OpenH264 E Input)

/-- The length of what the library or the driver produces for the picture at hand, where it gets that far. -/
def produced (number : Nat) (input : CodingInput Input) : PictureCoder E → Option Nat
  | .vaapi _ => if input.image.isSome then none else input.vaapi.produced
  | .software enc =>
    if input.rejected.isSome then none
    else
      match (library.encode enc.encoder input.software number).2 with
      | .error _ => none
      | .ok output => some output.data.len
  | .softwareAvc444 => none

/-- The same for a picture whose input is the DMA-BUF that is imported once. -/
def producedDmabuf (input : CodingInput Input) : PictureCoder E → Option Nat
  | .vaapi enc => if !enc.dmabufInputSurface && input.image.isSome then none else input.vaapi.produced
  | .software _ | .softwareAvc444 => none

def prefixed : PictureCoder E → Nat
  | .vaapi enc => enc.prefixed
  | .software _ | .softwareAvc444 => 0

variable {library} {coder : PictureCoder E} {number : Nat} {input : CodingInput Input}

/-- A frame without data is as long as the parameter sets in front of it. -/
theorem encode_empty (empty : coder.produced library number input = some 0) :
    ∃ after coded, coder.encode library number input = (after, .ok coded) ∧ coded.len = coder.prefixed := by
  cases coder with
  | vaapi enc =>
    obtain ⟨made, empty⟩ := Option.ite_none_left_eq_some.mp empty
    have made : input.image = none := by simpa using made
    let uploading := { enc with currentInputSurface := (enc.currentInputSurface + 1) % inputSurfacePoolSize }
    obtain ⟨after, coded, run, len⟩ := @VaapiEncoder.codePicture_empty uploading number input.vaapi empty
    refine ⟨.vaapi after, coded, ?_, len⟩
    unfold encode VaapiEncoder.encode
    rw [made]
    exact congrArg (fun step => (PictureCoder.vaapi step.1, step.2)) run
  | software enc =>
    obtain ⟨taken, empty⟩ := Option.ite_none_left_eq_some.mp empty
    have taken : input.rejected = none := by simpa using taken
    rcases run : library.encode enc.encoder input.software number with ⟨encoder, result⟩
    rw [run] at empty
    cases result with
    | error message => cases empty
    | ok output =>
      have zero : output.data.len = 0 := Option.some.inj empty
      have step : enc.encode library number input = (⟨encoder, (enc.applySpsPpsCache output).1⟩,
          .ok ⟨output.picture, (enc.applySpsPpsCache output).2⟩) := by
        unfold H264Encoder.encode
        rw [taken]
        dsimp only
        rw [run]
      exact ⟨_, _, congrArg (fun step => (PictureCoder.software step.1, step.2)) step,
        (enc.applySpsPpsCache_len output).mpr zero⟩
  | softwareAvc444 => cases empty

theorem encodeDmabuf_empty (empty : coder.producedDmabuf input = some 0) :
    ∃ after coded, coder.encodeDmabuf number input = (after, .ok coded) ∧ coded.len = coder.prefixed := by
  cases coder with
  | vaapi enc =>
    obtain ⟨made, empty⟩ := Option.ite_none_left_eq_some.mp empty
    obtain ⟨after, coded, run, len⟩ :=
      @VaapiEncoder.codePicture_empty { enc with dmabufInputSurface := true } number input.vaapi empty
    have step : enc.encodeDmabuf number input.image input.vaapi = (after, .ok coded) := by
      unfold VaapiEncoder.encodeDmabuf
      split
      · rename_i missing failed
        rw [missing, failed] at made
        exact absurd rfl made
      · exact run
    exact ⟨_, coded, congrArg (fun step => (PictureCoder.vaapi step.1, step.2)) step, len⟩
  | software enc => cases empty
  | softwareAvc444 => cases empty

end PictureCoder

/-- The length decides whether a frame is accepted for sending. -/
theorem avc420_sendable (len : Nat) : (EncodedEgfxFrame.avc420 len).state = .sendable ↔ unsendableLength < len := by
  dsimp only [EncodedEgfxFrame.state]
  unfold unsendableLength
  split
  · rename_i empty
    exact ⟨nofun, fun long => absurd long (by omega)⟩
  · split
    · rename_i long
      exact ⟨fun _ => long, fun _ => rfl⟩
    · rename_i short
      exact ⟨nofun, fun long => absurd long short⟩

namespace Call

/-- The next call goes past the first check of `process_at`: something is owed to the client. -/
def owes (c : Call) : Bool := !c.skips

/-- A stage that keeps a request for a full frame. -/
structure Heeds (c d : Call) : Prop where
  shared : d.processor.egfxShared = c.processor.egfxShared
  requested : c.fullFrameRequested = true → d.fullFrameRequested = true

variable {c d : Call} {env : Environment} {data : Bytes}

theorem Heeds.trans {e : Call} (first : c.Heeds d) (second : d.Heeds e) : c.Heeds e :=
  ⟨second.shared.trans first.shared, fun asked => second.requested (first.requested asked)⟩

theorem hear_heeds (c : Call) (requested : Bool) : c.Heeds (c.hear requested) := by
  unfold hear
  split
  · exact ⟨rfl, fun _ => rfl⟩
  · exact ⟨rfl, id⟩

theorem refreshReadiness_shared (p : FrameProcessor) (ready : Bool) : (p.refreshReadiness ready).egfxShared = p.egfxShared := by
  unfold FrameProcessor.refreshReadiness
  split
  · rfl
  · split <;> rfl

theorem refreshEncoder_shared (p : FrameProcessor) (env : Environment) (ready : Bool) :
    (p.refreshEncoder env ready).egfxShared = p.egfxShared := by
  unfold FrameProcessor.refreshEncoder
  dsimp only
  split
  · split
    · split <;> rfl
    · rfl
  · rfl

theorem prepared_heeds (c : Call) (env : Environment) : c.Heeds (c.prepared env) := by
  have checked : c.Heeds (c.update ((c.processor.refreshReadiness (readyForAvc env)).refreshEncoder env (readyForAvc env))) :=
    ⟨(refreshEncoder_shared _ env _).trans (refreshReadiness_shared _ _), id⟩
  exact (checked.trans (hear_heeds _ _)).trans (hear_heeds _ _)

theorem taken_shared (c : Call) (env : Environment) : (c.taken env).processor.egfxShared = c.processor.egfxShared := by
  have prepared := (c.prepared_heeds env).shared
  unfold taken take
  split <;> exact prepared

theorem taken_requested (unforced : c.forced env = false) (asked : c.fullFrameRequested = true) :
    (c.taken env).fullFrameRequested = true := by
  have prepared := (c.prepared_heeds env).requested asked
  have unready : readyForAvc env = false := by
    unfold forced at unforced
    rwa [prepared, Bool.and_true] at unforced
  unfold taken take
  rwa [unready, if_neg Bool.false_ne_true]

theorem activated_heeds (c : Call) (env : Environment) (ready : Bool) : c.Heeds (c.activated env ready) := by
  unfold activated FrameProcessor.activate
  split <;> exact ⟨rfl, id⟩

theorem initSurface_heeds (c : Call) (env : Environment) : c.Heeds (c.initSurface env) := by
  unfold initSurface
  dsimp only
  split
  · split <;> exact ⟨rfl, id⟩
  · exact ⟨rfl, id⟩

theorem Encoded.heeds {surface : Nat} {force : Bool} {regions : List Region} {result : Call × Bool}
    (run : c.Encoded env data surface force regions result) : c.Heeds result.1 := by
  have heard := c.hear_heeds env.requestBeforeSend
  cases run with
  | idle => exact heard
  | unsent => exact ⟨rfl, heard.requested⟩
  | sent => exact ⟨rfl, heard.requested⟩

theorem runtimeFallback_shared (p : FrameProcessor) (env : Environment) : (p.runtimeFallback env).egfxShared = p.egfxShared := by
  unfold FrameProcessor.runtimeFallback
  split
  · split
    · split <;> rfl
    · rfl
  · rfl

theorem afterSend_heeds (c : Call) (env : Environment) (force sent : Bool) : c.Heeds (c.afterSend env force sent) := by
  have heard := c.hear_heeds env.requestAfterSend
  unfold afterSend
  dsimp only
  split
  · exact ⟨(runtimeFallback_shared _ env).trans heard.shared, fun _ => rfl⟩
  · exact ⟨(runtimeFallback_shared _ env).trans heard.shared, heard.requested⟩

/-- The request that was taken for a frame is there again when the frame did not leave. -/
theorem afterSend_requested (c : Call) (env : Environment) : (c.afterSend env true false).fullFrameRequested = true := rfl

/-- What is owed stays owed as long as nothing changes about the client but that its picture may be forgotten. -/
theorem owes_kept (owed : c.owes = true)
    (ledger : d.processor.ledger = c.processor.ledger ∨ d.processor.ledger = c.processor.ledger.reset)
    (shared : d.processor.egfxShared = c.processor.egfxShared)
    (requested : c.fullFrameRequested = true → d.fullFrameRequested = true) : d.owes = true := by
  unfold owes skips FrameProcessor.hasPendingDamage at owed ⊢
  rcases ledger with kept | reset
  · have first : d.processor.sentFirstFrame = c.processor.sentFirstFrame := congrArg Ledger.sentFirstFrame kept
    have pending : d.processor.pendingDamageRegions = c.processor.pendingDamageRegions :=
      congrArg Ledger.pendingDamageRegions kept
    rw [first, pending, shared]
    cases asked : c.fullFrameRequested with
    | true =>
      rw [asked] at owed
      rwa [requested asked]
    | false =>
      rw [asked, Bool.and_false] at owed
      cases d.fullFrameRequested with
      | true =>
        cases c.processor.egfxShared with
        | true => simp
        | false => exact owed
      | false => rwa [Bool.and_false]
  · have first : d.processor.sentFirstFrame = false := congrArg Ledger.sentFirstFrame reset
    rw [first]
    rfl

end Call

/-- A frame in the hands of its encoder, and the call once the frame has left or has not. -/
structure FrameEncode (E Input : Type) where
  before : PictureCall E
  env : CodingEnvironment Input
  after : PictureCall E
  sent : Bool

namespace PictureCall

variable {E Input : Type} (library : OpenH264 E Input)

/-- The part of `transmit` that encodes a frame, where a call comes to it. -/
def transmitEncode (x : PictureCall E) (env : CodingEnvironment Input) (data : Bytes) (ready force : Bool)
    (regions : List Region) : Option (FrameEncode E Input) :=
  let x := x.activate env ready
  if !x.call.processor.egfxActive then none
  else
    let x := x.initSurface env
    match x.call.processor.egfxSurfaceId with
    | none => none
    | some surface =>
      if x.call.processor.egfxHandle && !env.frameView.frameReadiness.isReady then none
      else
        let (y, sent) := x.encodeAndSend library env data surface force regions
        some ⟨x, env, y.afterSend library env force sent, sent⟩

/-- The encode that a call of `process_at` makes, if it makes one. -/
def encodeMade (x : PictureCall E) (env : CodingEnvironment Input) (data : Bytes) : Option (FrameEncode E Input) :=
  if x.call.usesAvc env.toEnvironment then
    let c := x.call
    let x := x.refresh library env
    if c.postponed env.toEnvironment then none
    else
      let x := { x with call := c.taken env.toEnvironment }
      let regions := c.damage env.toEnvironment data
      if x.call.processor.sentFirstFrame && regions.isEmpty then none
      else x.transmitEncode library env data (Call.readyForAvc env.toEnvironment) (c.forced env.toEnvironment) regions
  else none

variable {library} {x : PictureCall E} {env : CodingEnvironment Input} {data : Bytes} {made : FrameEncode E Input}

theorem transmitEncode_some {ready force : Bool} {regions : List Region}
    (found : x.transmitEncode library env data ready force regions = some made) :
    x.transmit library env data ready force regions = .passed made.after made.sent := by
  unfold transmitEncode at found
  unfold transmit
  dsimp only at found ⊢
  obtain ⟨active, found⟩ := Option.ite_none_left_eq_some.mp found
  rw [if_neg active]
  cases held : ((x.activate env ready).initSurface env).call.processor.egfxSurfaceId with
  | none =>
    rw [held] at found
    cases found
  | some surface =>
    rw [held] at found
    obtain ⟨clear, found⟩ := Option.ite_none_left_eq_some.mp found
    cases found
    exact if_neg clear

/-- A call that encodes a frame ends as one whose frame has left, or has not. -/
theorem processAt_encodeMade (found : x.encodeMade library env data = some made) :
    x.processAt library env data = finished env data (.passed made.after made.sent) := by
  obtain ⟨path, found⟩ := Option.ite_none_right_eq_some.mp found
  unfold processAt
  rw [if_pos path]
  refine congrArg (finished env data) ?_
  unfold processAvc
  dsimp only at found ⊢
  obtain ⟨prompt, found⟩ := Option.ite_none_left_eq_some.mp found
  obtain ⟨changed, found⟩ := Option.ite_none_left_eq_some.mp found
  rw [if_neg prompt, if_neg changed]
  exact transmitEncode_some found

/-- What an encode is, from the state of the processor with its surface on. -/
theorem transmitEncode_made {ready force : Bool} {regions : List Region}
    (found : x.transmitEncode library env data ready force regions = some made) :
    made.env = env ∧ made.before = (x.activate env ready).initSurface env ∧ ∃ surface y,
      made.before.encodeAndSend library env data surface force regions = (y, made.sent) ∧
      made.after = y.afterSend library env force made.sent := by
  unfold transmitEncode at found
  dsimp only at found
  obtain ⟨_, found⟩ := Option.ite_none_left_eq_some.mp found
  split at found
  · cases found
  · obtain ⟨_, found⟩ := Option.ite_none_left_eq_some.mp found
    cases found
    exact ⟨rfl, rfl, _, _, rfl, rfl⟩

end PictureCall

namespace FrameEncode

variable {E Input : Type} (library : OpenH264 E Input)

/-- The H.264 library or the driver has produced no bytes for the frame. -/
def Empty (e : FrameEncode E Input) : Prop :=
  e.before.call.processor.egfxCodec.getD .avc420 = .avc420 ∧
  (e.before.coder.bind fun coder => coder.produced library e.before.chain.pictures e.env.toCodingInput) = some 0

/-- What would be put in front of a frame without bytes is too short to be taken for a frame. -/
def Recognised (e : FrameEncode E Input) : Prop := ∀ coder ∈ e.before.coder, coder.prefixed ≤ unsendableLength

instance (e : FrameEncode E Input) : Decidable (e.Empty library) := inferInstanceAs (Decidable (_ ∧ _))

instance (e : FrameEncode E Input) : Decidable e.Recognised :=
  inferInstanceAs (Decidable (∀ coder ∈ e.before.coder, coder.prefixed ≤ unsendableLength))

/-- The frame was not accepted, nothing is known of the client that was not known before, and a frame is owed still. -/
structure Kept (e : FrameEncode E Input) : Prop where
  unsent : e.sent = false
  entries : e.after.chain.entries = e.before.chain.entries
  deliveries : e.after.call.deliveries = e.before.call.deliveries
  pending : e.after.call.processor.pendingDamageRegions = e.before.call.processor.pendingDamageRegions
  reference : e.after.call.processor.damageDetector = e.before.call.processor.damageDetector
  first : e.after.call.processor.sentFirstFrame = e.before.call.processor.sentFirstFrame
  owes : e.after.call.owes = true

end FrameEncode

namespace PictureCall

variable {E Input : Type} {library : OpenH264 E Input} {x : PictureCall E} {env : CodingEnvironment Input} {data : Bytes}
  {made : FrameEncode E Input}

/-- What the processor makes of the result of its H.264 call. -/
theorem encodeAndSend_result (data : Bytes) (surface : Nat) (force : Bool) (regions : List Region)
    {coder after : PictureCoder E} {result : Except String CodedPicture} (codec : x.call.processor.egfxCodec.getD .avc420 = .avc420)
    (present : x.coder = some coder) (step : coder.encode library x.chain.pictures env.toCodingInput = (after, result)) :
    let call := x.call.encodeAndSend { env.toEnvironment with firstSubframe := result.map CodedPicture.len } data surface force
      regions
    (x.encodeAndSend library env data surface force regions).2 = call.2 ∧
    (x.encodeAndSend library env data surface force regions).1.chain = x.chain.offer surface call.2 result := by
  unfold encodeAndSend
  dsimp only
  rw [codec, present]
  dsimp only
  rw [step]
  exact ⟨rfl, rfl⟩

/-- A frame without bytes does not leave if what is put in front of it is short. -/
theorem encodeAndSend_empty (data : Bytes) (surface : Nat) (force : Bool) (regions : List Region) {coder : PictureCoder E}
    (codec : x.call.processor.egfxCodec.getD .avc420 = .avc420) (present : x.coder = some coder)
    (empty : coder.produced library x.chain.pictures env.toCodingInput = some 0) (short : coder.prefixed ≤ unsendableLength) :
    (x.encodeAndSend library env data surface force regions).2 = false ∧
    (x.encodeAndSend library env data surface force regions).1.chain.entries = x.chain.entries := by
  obtain ⟨after, coded, step, len⟩ := PictureCoder.encode_empty empty
  obtain ⟨sent, chain⟩ := encodeAndSend_result data surface force regions codec present step
  have unsent : (x.encodeAndSend library env data surface force regions).2 = false := by
    by_contra left
    rw [sent, Bool.not_eq_false] at left
    obtain ⟨_, same, state⟩ := encodeAndSend_avc420 (.ok coded) codec rfl left
    cases same
    have long := (avc420_sendable _).mp state
    omega
  refine ⟨unsent, ?_⟩
  rw [chain, ← sent, unsent]
  rfl

theorem encodeAndSend_heeds (library : OpenH264 E Input) (x : PictureCall E) (env : CodingEnvironment Input) (data : Bytes)
    (surface : Nat) (force : Bool) (regions : List Region) :
    x.call.Heeds (x.encodeAndSend library env data surface force regions).1.call ∧
    ((x.encodeAndSend library env data surface force regions).2 = false →
      x.call.Quiet (x.encodeAndSend library env data surface force regions).1.call) := by
  obtain ⟨first, same⟩ := x.encodeAndSend_call library env data surface force regions
  have run := x.call.encodeAndSend_encoded { env.toEnvironment with firstSubframe := first } data surface force regions
  rw [same] at run
  exact ⟨run.heeds, run.quiet⟩

/-- A frame that did not leave keeps all that was known, and what was owed. -/
theorem encodeMade_quiet (found : x.encodeMade library env data = some made) (unsent : made.sent = false) :
    made.before.call.Quiet made.after.call ∧ made.after.call.owes = true := by
  obtain ⟨path, found⟩ := Option.ite_none_right_eq_some.mp found
  obtain ⟨_, found⟩ := Option.ite_none_left_eq_some.mp found
  obtain ⟨_, found⟩ := Option.ite_none_left_eq_some.mp found
  obtain ⟨_, before, surface, y, step, after⟩ := transmitEncode_made found
  obtain ⟨heeds, quiet⟩ := made.before.encodeAndSend_heeds library env data surface
    (x.call.forced env.toEnvironment) (x.call.damage env.toEnvironment data)
  rw [step] at heeds quiet
  have call : made.after.call = y.call.afterSend env.toEnvironment (x.call.forced env.toEnvironment) made.sent := by
    rw [after]
    exact afterSend_call y env _ _
  have sending : made.before.call.Quiet made.after.call := by
    rw [call]
    exact (quiet unsent).trans (Call.afterSend_quiet _ _ _ _)
  have surfaced : made.before.call =
      ((x.call.taken env.toEnvironment).activated env.toEnvironment (Call.readyForAvc env.toEnvironment)).initSurface
        env.toEnvironment := by
    rw [before, initSurface_call]
    rfl
  have kept : (x.call.taken env.toEnvironment).Heeds made.before.call := by
    rw [surfaced]
    exact (Call.activated_heeds _ _ _).trans (Call.initSurface_heeds _ _)
  have known : (x.call.taken env.toEnvironment).Quiet made.before.call := by
    rw [surfaced]
    exact (Call.activated_quiet _ _ _).trans (Call.initSurface_quiet _ _)
  have whole := ((x.call.taken_quiet env.toEnvironment).trans known).trans sending
  have sent := made.before.call.afterSend_heeds env.toEnvironment (x.call.forced env.toEnvironment) made.sent
  refine ⟨sending, @Call.owes_kept x.call _ ?_ ?_ ?_ ?_⟩
  · exact ((Bool.and_eq_true _ _).mp ((Bool.and_eq_true _ _).mp ((Bool.and_eq_true _ _).mp path).1).1).1
  · rcases (x.call.refresh_refreshed env.toEnvironment).ledger with same | reset
    · exact .inl (whole.ledger.trans same)
    · exact .inr (whole.ledger.trans reset)
  · rw [call, (Call.afterSend_heeds _ _ _ _).shared, heeds.shared, kept.shared, Call.taken_shared]
  · intro asked
    rw [call, unsent]
    cases forced : x.call.forced env.toEnvironment with
    | true => exact Call.afterSend_requested _ _
    | false =>
      exact (Call.afterSend_heeds _ _ _ _).requested (heeds.requested (kept.requested (Call.taken_requested forced asked)))

theorem encodeMade_kept (found : x.encodeMade library env data = some made) (empty : made.Empty library)
    (recognised : made.Recognised) : made.Kept := by
  have whole := found
  obtain ⟨_, found⟩ := Option.ite_none_right_eq_some.mp found
  obtain ⟨_, found⟩ := Option.ite_none_left_eq_some.mp found
  obtain ⟨_, found⟩ := Option.ite_none_left_eq_some.mp found
  obtain ⟨rfl, _, surface, y, step, after⟩ := transmitEncode_made found
  obtain ⟨codec, empty⟩ := empty
  obtain ⟨coder, present, nothing⟩ := Option.bind_eq_some_iff.mp empty
  obtain ⟨unsent, entries⟩ := encodeAndSend_empty data surface (x.call.forced made.env.toEnvironment)
    (x.call.damage made.env.toEnvironment data) codec present nothing (recognised coder present)
  rw [step] at unsent entries
  obtain ⟨quiet, owes⟩ := encodeMade_quiet whole unsent
  refine ⟨unsent, ?_, quiet.deliveries, congrArg Ledger.pendingDamageRegions quiet.ledger,
    congrArg Ledger.damageDetector quiet.ledger, congrArg Ledger.sentFirstFrame quiet.ledger, owes⟩
  rw [after]
  unfold afterSend
  dsimp only
  split
  · exact entries
  · exact entries

end PictureCall

/-- A run of the capture thread, with the frames that its processors have given to an encoder. -/
structure EncodeLog (E Input : Type) where
  session : PictureSession E
  encodes : List (FrameEncode E Input)

namespace EncodeLog

variable {E Input : Type} (library : OpenH264 E Input)

def made : PictureSession E → SessionInput Input → List (FrameEncode E Input)
  | .shm x, .process env data => (x.encodeMade library env data).toList
  | _, _ => []

def next (l : EncodeLog E Input) (input : SessionInput Input) : Option (EncodeLog E Input) :=
  (l.session.next library input).map fun session => ⟨session, l.encodes ++ made library l.session input⟩

def runs : StepSystem (EncodeLog E Input) (SessionInput Input) := .ofFun ⟨.ended ⟨0, 0, []⟩, []⟩ (next library)

/-- The step recognises an output without bytes as what it is. -/
def Recognises (l : EncodeLog E Input) (input : SessionInput Input) : Prop :=
  ∀ e ∈ made library l.session input, e.Empty library → e.Recognised

instance (l : EncodeLog E Input) : DecidablePred (l.Recognises library) := fun input =>
  inferInstanceAs (Decidable (∀ e ∈ made library l.session input, e.Empty library → e.Recognised))

variable {library} {l : EncodeLog E Input}

theorem made_kept {s : PictureSession E} {input : SessionInput Input} {e : FrameEncode E Input} (listed : e ∈ made library s input)
    (empty : e.Empty library) (recognised : e.Recognised) : e.Kept := by
  unfold made at listed
  split at listed
  · exact PictureCall.encodeMade_kept (Option.mem_toList.mp listed) empty recognised
  · exact absurd listed List.not_mem_nil

theorem reach_kept (reach : ((runs library).guarded (Recognises library)).Reach l) :
    ∀ e ∈ l.encodes, e.Empty library → e.Kept := by
  have kept : ((runs library).guarded (Recognises library)).Inductive
      fun l => ∀ e ∈ l.encodes, e.Empty library → e.Kept := by
    refine ⟨fun l first e listed => ?_, fun l input m known step e listed empty => ?_⟩
    · cases first
      exact absurd listed List.not_mem_nil
    · obtain ⟨session, _, rfl⟩ := Option.map_eq_some_iff.mp step.2
      rcases List.mem_append.mp listed with old | new
      · exact known e old empty
      · exact made_kept new empty (step.1 e new empty)
  exact kept.reach reach

end EncodeLog

/-- A frame that the DMA-BUF loop gives to its encoder, and what becomes of it. -/
structure DmabufEncode (E Input : Type) where
  before : DmabufSender E
  coder : PictureCoder E
  env : CodingEnvironment Input
  after : DmabufSender E
  flow : DmabufFlow

namespace DmabufSender

variable {E Input : Type} (library : OpenH264 E Input)

/-- The encode of a sender whose session has been refreshed. -/
def encodeRefreshed (x : DmabufSender E) (env : CodingEnvironment Input) (refreshed : EgfxFrameSessionRefresh) :
    Option (DmabufEncode E Input) :=
  match x.prepareEncoder library env refreshed with
  | none => none
  | some x =>
    if !refreshed.ready && env.bitmapFallbackDue then none
    else if refreshed.ready && x.encoder.isSome then
      let (x, ensured) := x.ensureSurface env
      if !ensured || !(x.frameReadiness env).isReady then none
      else x.encoder.map fun coder => ⟨x, coder, env, (x.encodeFrame library env coder).1, (x.encodeFrame library env coder).2⟩
    else none

/-- The encode that the handling of a frame makes, if it makes one. -/
def encodeMade (x : DmabufSender E) (env : CodingEnvironment Input) : Option (DmabufEncode E Input) :=
  if !x.egfxShared then none
  else
    match x.pendingInitialResize, env.readyForResize with
    | some _, true => none
    | _, _ => (x.refresh env).1.encodeRefreshed library env (x.refresh env).2

end DmabufSender

namespace DmabufEncode

variable {E Input : Type} (e : DmabufEncode E Input)

/-- The driver has produced no bytes for the frame. -/
def Empty : Prop := e.env.vpp = none ∧ e.coder.producedDmabuf e.env.toCodingInput = some 0

instance : Decidable e.Empty := inferInstanceAs (Decidable (_ ∧ _))

def Recognised : Prop := e.coder.prefixed ≤ unsendableLength

instance : Decidable e.Recognised := inferInstanceAs (Decidable (_ ≤ _))

/-- The frame was not accepted and counts as an encode without progress, and so many of them in a row end the loop. -/
structure Kept : Prop where
  entries : e.after.chain.entries = e.before.chain.entries
  first : e.after.sentFirstFrame = e.before.sentFirstFrame
  counted : e.after.encodeFailures = e.before.encodeFailures + 1
  flow : if maxEncodeFailures ≤ e.after.encodeFailures then ∃ message, e.flow = .failed message else e.flow = .goesOn false

end DmabufEncode

namespace DmabufSender

variable {E Input : Type} {library : OpenH264 E Input} {x : DmabufSender E} {env : CodingEnvironment Input}

theorem encodeFrame_empty {coder : PictureCoder E} (converted : env.vpp = none)
    (empty : coder.producedDmabuf env.toCodingInput = some 0) (short : coder.prefixed ≤ unsendableLength) :
    ∃ after message, x.encodeFrame library env coder =
      { x with chain := x.chain.nextPicture }.noProgress library after message := by
  obtain ⟨after, coded, step, len⟩ := @PictureCoder.encodeDmabuf_empty _ _ _ x.chain.pictures _ empty
  have ran : x.convertAndEncode env coder = (after, .ok coded) := by
    unfold convertAndEncode
    rw [converted]
    exact step
  have unsendable : (EncodedEgfxFrame.avc420 coded.len).state ≠ .sendable := by
    rw [ne_eq, avc420_sendable]
    omega
  refine ⟨after, "no sendable H.264 output", ?_⟩
  unfold encodeFrame
  rw [ran]
  dsimp only
  cases state : (EncodedEgfxFrame.avc420 coded.len).state with
  | skipped => rfl
  | invalid => rfl
  | sendable => exact absurd state unsendable

/-- The encoder is the one that was there, a new one, or none. -/
structure Renews (x y : DmabufSender E) : Prop where
  first : y.sentFirstFrame = x.sentFirstFrame
  coders : x.chain.coders ≤ y.chain.coders
  encoder : y.encoder.isSome = true → x.chain.coders < y.chain.coders ∨
    y.chain.coders = x.chain.coders ∧ y.encodeFailures = x.encodeFailures ∧ x.encoder.isSome = true

/-- How the handling of a frame ends: with an encode, or without one. -/
inductive Handled (library : OpenH264 E Input) (x : DmabufSender E) (env : CodingEnvironment Input) :
    Option (DmabufEncode E Input) → DmabufSender E × DmabufFlow → Prop
  | encoded {e : DmabufEncode E Input} (renews : x.Renews e.before) (held : e.before.encoder = some e.coder) (same : e.env = env)
    (run : e.before.encodeFrame library env e.coder = (e.after, e.flow)) : Handled library x env (some e) (e.after, e.flow)
  | unencoded {y : DmabufSender E} {flow : DmabufFlow} (renews : x.Renews y) (unsent : flow ≠ .goesOn true) :
    Handled library x env none (y, flow)

theorem Renews.refl (x : DmabufSender E) : x.Renews x := ⟨rfl, Nat.le_refl _, fun held => .inr ⟨rfl, rfl, held⟩⟩

theorem refresh_renews (x : DmabufSender E) (env : CodingEnvironment Input) : x.Renews (x.refresh env).1 := by
  unfold refresh
  dsimp only
  split
  · exact ⟨rfl, Nat.le_refl _, nofun⟩
  · exact ⟨rfl, Nat.le_refl _, fun held => .inr ⟨rfl, rfl, held⟩⟩

theorem prepareEncoder_renews {y z : DmabufSender E} {refreshed : EgfxFrameSessionRefresh} (renews : x.Renews y)
    (made : y.prepareEncoder library env refreshed = some z) : x.Renews z := by
  have coders := renews.coders
  unfold prepareEncoder at made
  split at made
  · obtain ⟨enc, _, rfl⟩ := Option.map_eq_some_iff.mp made
    exact ⟨renews.first, Nat.le_succ_of_le coders, fun _ => .inl (Nat.lt_succ_of_le coders)⟩
  · cases made
    exact renews

theorem ensureSurface_renews {y : DmabufSender E} (renews : x.Renews y) (env : CodingEnvironment Input) :
    x.Renews (y.ensureSurface env).1 := by
  unfold ensureSurface
  split
  · exact renews
  split
  · exact renews
  split
  · exact renews
  · split
    · exact renews
    · exact ⟨renews.first, renews.coders, renews.encoder⟩
    · exact ⟨renews.first, renews.coders, renews.encoder⟩

theorem transmit_handled {y : DmabufSender E} (renews : x.Renews y) (env : CodingEnvironment Input) :
    x.Handled library env
      (let (y, ensured) := y.ensureSurface env
      if !ensured || !(y.frameReadiness env).isReady then none
      else y.encoder.map fun coder => ⟨y, coder, env, (y.encodeFrame library env coder).1, (y.encodeFrame library env coder).2⟩)
      (y.transmit library env) := by
  have surfaced := ensureSurface_renews renews env
  unfold transmit
  generalize y.ensureSurface env = step at surfaced
  obtain ⟨z, ensured⟩ := step
  dsimp only at surfaced ⊢
  split
  · exact .unencoded surfaced (by simp)
  · cases held : z.encoder with
    | none => exact .unencoded surfaced (by simp)
    | some coder => exact @Handled.encoded _ _ _ _ _ ⟨z, coder, env, _, _⟩ surfaced held rfl rfl

theorem refreshed_handled {y : DmabufSender E} {refreshed : EgfxFrameSessionRefresh} (renews : x.Renews y)
    (env : CodingEnvironment Input) :
    x.Handled library env (y.encodeRefreshed library env refreshed)
      (match y.prepareEncoder library env refreshed with
      | none => ({ y with encoder := none }, .failed "H.264 encoder init failed in DMA-BUF mode, falling back to SHM")
      | some z =>
        if !refreshed.ready && env.bitmapFallbackDue then
          (z, .failed "EGFX activation timed out in DMA-BUF mode; falling back to SHM")
        else if refreshed.ready && z.encoder.isSome then z.transmit library env
        else (z, .goesOn false)) := by
  unfold encodeRefreshed
  cases made : y.prepareEncoder library env refreshed with
  | none => exact .unencoded ⟨renews.first, renews.coders, nofun⟩ nofun
  | some z =>
    have prepared := prepareEncoder_renews renews made
    dsimp only
    split
    · exact .unencoded prepared nofun
    split
    · exact transmit_handled prepared env
    · exact .unencoded prepared (by simp)

theorem processFrame_handled (x : DmabufSender E) (env : CodingEnvironment Input) :
    x.Handled library env (x.encodeMade library env) (x.processFrame library env) := by
  have refreshed : x.Handled library env ((x.refresh env).1.encodeRefreshed library env (x.refresh env).2) _ :=
    refreshed_handled (x.refresh_renews env) env
  unfold encodeMade processFrame
  split
  · exact .unencoded (.refl x) (by simp)
  · cases resize : x.pendingInitialResize with
    | none => exact refreshed
    | some size =>
      cases due : env.readyForResize with
      | true => exact .unencoded (.refl x) nofun
      | false => exact refreshed

end DmabufSender

namespace DmabufEncode

variable {E Input : Type} {library : OpenH264 E Input} {e : DmabufEncode E Input}

theorem kept (run : e.before.encodeFrame library e.env e.coder = (e.after, e.flow)) (empty : e.Empty)
    (recognised : e.Recognised) : e.Kept := by
  obtain ⟨after, message, step⟩ := @DmabufSender.encodeFrame_empty _ _ library e.before _ _ empty.1 empty.2 recognised
  rw [run] at step
  obtain ⟨sender, flow⟩ := Prod.mk.inj step
  refine ⟨by rw [sender]; rfl, by rw [sender], by rw [sender], ?_⟩
  rw [sender, flow]
  dsimp only
  split
  · exact ⟨message, rfl⟩
  · rfl

end DmabufEncode

namespace DmabufLoop

variable {E Input : Type} (library : OpenH264 E Input) {l m : DmabufLoop E} {action : Action Input}

/-- The encode that a step of the loop makes, if it makes one. -/
def encodeMade (l : DmabufLoop E) : Action Input → Option (DmabufEncode E Input)
  | .process due env =>
    match l.phase with
    | .submitted hasDamage =>
      if ShmLoop.shouldSend due l.sender.sentFirstFrame hasDamage then l.sender.encodeMade library env else none
    | _ => none
  | _ => none

/-- A frame is owed to the client: none has been sent, or the last capture with damage has not. -/
def owes (l : DmabufLoop E) : Bool := !l.sender.sentFirstFrame || l.behind

/-- A capture with damage that was taken up is owed. -/
def TakesUp (l : DmabufLoop E) : Prop := l.phase = .submitted true → l.behind = true

/-- A step hands a frame over, or leaves the sender alone. -/
inductive Stepped (l : DmabufLoop E) (action : Action Input) (m : DmabufLoop E) : Prop
  | idle (sender : m.sender = l.sender) (made : l.encodeMade library action = none) (ended : l.phase = .ended → m.phase = .ended)
    (takesUp : l.TakesUp → m.TakesUp)
  | processed {hasDamage due : Bool} {env : CodingEnvironment Input} {sender : DmabufSender E} {flow : DmabufFlow}
    (held : l.phase = .submitted hasDamage) (due : ShmLoop.shouldSend due l.sender.sentFirstFrame hasDamage = true)
    (made : l.encodeMade library action = l.sender.encodeMade library env)
    (run : l.sender.processFrame library env = (sender, flow)) (after : m.sender = sender)
    (behind : flow ≠ .goesOn true → m.behind = l.behind) (failed : flow.continues = false → m.phase = .ended)
    (takesUp : m.TakesUp)

theorem next_stepped (step : l.next library action = some m) : l.Stepped library action m := by
  cases action with
  | publish geometry =>
    cases step
    exact .idle rfl rfl id id
  | stop =>
    cases step
    exact .idle rfl rfl id id
  | poll damage outcome =>
    obtain ⟨waiting, step⟩ := Option.ite_none_right_eq_some.mp step
    cases step
    exact .idle rfl rfl (fun ended => absurd (waiting.symm.trans ended) nofun) fun _ => nofun
  | pollError =>
    obtain ⟨_, step⟩ := Option.ite_none_right_eq_some.mp step
    cases step
    exact .idle rfl rfl (fun _ => rfl) fun _ => nofun
  | decide =>
    obtain ⟨dispatched, step⟩ := Option.ite_none_right_eq_some.mp step
    have running : l.phase = .ended → m.phase = .ended := fun ended => absurd (dispatched.symm.trans ended) nofun
    split at step <;> cases step <;> exact .idle rfl rfl running fun _ => nofun
  | takeUp =>
    obtain ⟨completed, step⟩ := Option.ite_none_right_eq_some.mp step
    have running : l.phase = .ended → m.phase = .ended := fun ended => absurd (completed.symm.trans ended) nofun
    split at step
    · cases step
      exact .idle rfl rfl running fun _ => nofun
    split at step
    · cases step
      exact .idle rfl rfl running fun _ => nofun
    dsimp only at step
    split at step
    · cases step
      refine .idle rfl rfl running fun _ held => ?_
      exact absurd held (by unfold loopTop; dsimp only; split <;> nofun)
    · cases step
      refine .idle rfl rfl running fun _ held => ?_
      have damaged : (!l.damageRegions.isEmpty) = true := DmabufPhase.submitted.inj held
      exact (congrArg (l.behind || ·) damaged).trans (Bool.or_true _)
  | process due env =>
    dsimp only [DmabufLoop.next] at step
    split at step
    · rename_i hasDamage held
      have made : l.encodeMade library (.process due env) =
          if ShmLoop.shouldSend due l.sender.sentFirstFrame hasDamage then l.sender.encodeMade library env else none := by
        unfold encodeMade
        rw [held]
      have top : ∀ n : DmabufLoop E, n.loopTop.TakesUp := fun n held =>
        absurd held (by unfold loopTop; dsimp only; split <;> nofun)
      split at step
      · rename_i due
        rw [if_pos due] at made
        rcases run : l.sender.processFrame library env with ⟨sender, flow⟩
        rw [run] at step
        cases flow with
        | goesOn sent =>
          cases step
          refine .processed held due made run rfl (fun unsent => ?_) nofun (top _)
          cases sent with
          | true => exact absurd rfl unsent
          | false => exact Bool.and_true _
        | resized width height =>
          cases step
          exact .processed held due made run rfl (fun _ => rfl) (fun _ => rfl) nofun
        | failed message =>
          cases step
          exact .processed held due made run rfl (fun _ => rfl) (fun _ => rfl) nofun
      · rename_i idle
        rw [if_neg idle] at made
        cases step
        exact .idle rfl made (fun ended => absurd (held.symm.trans ended) nofun) fun _ => top _
    · cases step

end DmabufLoop

/-- An encode of the loop, with whether a frame is owed to the client after it. -/
structure LoopEncode (E Input : Type) extends DmabufEncode E Input where
  owes : Bool

/-- A run of the DMA-BUF loop, with the encodes it has made, the newest first. -/
structure DmabufLog (E Input : Type) where
  loop : DmabufLoop E
  encodes : List (LoopEncode E Input)

/-- How many of the newest encodes, in a row and with this encoder, have produced no bytes. -/
def emptyRow {E Input : Type} (coder : Nat) : List (LoopEncode E Input) → Nat
  | [] => 0
  | e :: earlier => if e.before.chain.coders = coder ∧ e.Empty then emptyRow coder earlier + 1 else 0

namespace DmabufLog

variable {E Input : Type} (library : OpenH264 E Input)

def next (l : DmabufLog E Input) (action : DmabufLoop.Action Input) : Option (DmabufLog E Input) :=
  (l.loop.next library action).map fun loop =>
    ⟨loop, ((l.loop.encodeMade library action).map fun e => ⟨e, loop.owes⟩).toList ++ l.encodes⟩

def runs (shared : OutputLayoutSnapshot) (sender : DmabufSender E) : StepSystem (DmabufLog E Input) (DmabufLoop.Action Input) :=
  .ofFun ⟨.start shared sender, []⟩ (next library)

/-- The step recognises an output without bytes as what it is. -/
def Recognises (l : DmabufLog E Input) (action : DmabufLoop.Action Input) : Prop :=
  ∀ e ∈ l.loop.encodeMade library action, e.Empty → e.Recognised

instance (l : DmabufLog E Input) : DecidablePred (l.Recognises library) := fun action =>
  inferInstanceAs (Decidable (∀ e ∈ l.loop.encodeMade library action, e.Empty → e.Recognised))

/-- The loop falls back to shared memory: its last encode has failed it. -/
def FallsBack (l : DmabufLog E Input) : Prop :=
  l.loop.phase = .ended ∧ ∃ e earlier message, l.encodes = e :: earlier ∧ e.flow = .failed message

/-- Encodes without bytes are counted, as long as their encoder is there. -/
structure Counts (l : DmabufLog E Input) : Prop where
  kept : ∀ e ∈ l.encodes, e.Empty → e.Kept ∧ e.owes = true
  takesUp : l.loop.TakesUp
  numbered : ∀ e ∈ l.encodes, e.before.chain.coders ≤ l.loop.sender.chain.coders
  counted : l.loop.sender.encoder.isSome = true → emptyRow l.loop.sender.chain.coders l.encodes ≤ l.loop.sender.encodeFailures
  short : ∀ coder, maxEncodeFailures ≤ emptyRow coder l.encodes → l.FallsBack

variable {library} {l m : DmabufLog E Input} {action : DmabufLoop.Action Input}

theorem emptyRow_new {coder : Nat} {encodes : List (LoopEncode E Input)} (older : ∀ e ∈ encodes, e.before.chain.coders < coder) :
    emptyRow coder encodes = 0 := by
  cases encodes with
  | nil => rfl
  | cons e earlier =>
    have before := older e List.mem_cons_self
    exact if_neg fun both => Nat.ne_of_lt before both.1

/-- An encode goes on with the same encoder, or the loop has none any more. -/
theorem encodeFrame_coders {x : DmabufSender E} {env : CodingEnvironment Input} {coder : PictureCoder E} :
    (x.encodeFrame library env coder).1.chain.coders = x.chain.coders := by
  unfold DmabufSender.encodeFrame
  generalize x.convertAndEncode env coder = step
  obtain ⟨after, result⟩ := step
  dsimp only
  cases result with
  | error message => rfl
  | ok coded =>
    dsimp only
    split
    · rfl
    · rfl
    · split <;> rfl

theorem FallsBack.idle (fallen : l.FallsBack) (ended : l.loop.phase = .ended → m.loop.phase = .ended) (same : m.encodes = l.encodes) :
    m.FallsBack := by
  obtain ⟨last, e, earlier, message, newest, failed⟩ := fallen
  exact ⟨ended last, e, earlier, message, same.trans newest, failed⟩

/-- The row of the encoder at hand is not longer than its count of failures. -/
theorem Counts.row {x : DmabufSender E} (counts : l.Counts) (renews : l.loop.sender.Renews x) (held : x.encoder.isSome = true) :
    emptyRow x.chain.coders l.encodes ≤ x.encodeFailures := by
  rcases renews.encoder held with new | ⟨coders, failures, before⟩
  · rw [emptyRow_new fun e listed => Nat.lt_of_le_of_lt (counts.numbered e listed) new]
    exact Nat.zero_le _
  · rw [coders, failures]
    exact counts.counted before

theorem Counts.idle (counts : l.Counts) (renews : l.loop.sender.Renews m.loop.sender)
    (ended : l.loop.phase = .ended → m.loop.phase = .ended) (takesUp : m.loop.TakesUp) (same : m.encodes = l.encodes) : m.Counts where
  kept := same ▸ counts.kept
  takesUp := takesUp
  numbered e listed := Nat.le_trans (counts.numbered e (same ▸ listed)) renews.coders
  counted held := same ▸ counts.row renews held
  short coder long := (counts.short coder (same ▸ long)).idle ended same

/-- After an encode without bytes a frame is owed, because one was owed when it was made. -/
theorem owes_after {hasDamage due : Bool} {n : DmabufLoop E} (takesUp : l.loop.TakesUp)
    (held : l.loop.phase = .submitted hasDamage) (sends : ShmLoop.shouldSend due l.loop.sender.sentFirstFrame hasDamage = true)
    (first : n.sender.sentFirstFrame = l.loop.sender.sentFirstFrame) (behind : n.behind = l.loop.behind) : n.owes = true := by
  unfold DmabufLoop.owes
  rw [first, behind]
  unfold ShmLoop.shouldSend at sends
  cases sent : l.loop.sender.sentFirstFrame with
  | false => rfl
  | true =>
    rw [sent, Bool.not_true, Bool.false_or, Bool.and_eq_true] at sends
    rw [sends.1] at held
    rw [takesUp held]
    rfl

theorem Counts.encoded {hasDamage due : Bool} {e : DmabufEncode E Input} {n : DmabufLoop E} (counts : l.Counts)
    (held : l.loop.phase = .submitted hasDamage) (sends : ShmLoop.shouldSend due l.loop.sender.sentFirstFrame hasDamage = true)
    (renews : l.loop.sender.Renews e.before) (encoder : e.before.encoder = some e.coder)
    (run : e.before.encodeFrame library e.env e.coder = (e.after, e.flow)) (recognised : e.Empty → e.Recognised)
    (after : n.sender = e.after) (behind : e.flow ≠ .goesOn true → n.behind = l.loop.behind)
    (failed : e.flow.continues = false → n.phase = .ended) (takesUp : n.TakesUp) :
    Counts ⟨n, ⟨e, n.owes⟩ :: l.encodes⟩ := by
  have coders : e.after.chain.coders = e.before.chain.coders := by
    have same := @encodeFrame_coders _ _ library e.before e.env e.coder
    rwa [run] at same
  have row := counts.row renews (by rw [encoder]; rfl)
  have kept : e.Empty → e.Kept := fun empty => DmabufEncode.kept run empty (recognised empty)
  have lengthens : ∀ coder, emptyRow coder (⟨e, n.owes⟩ :: l.encodes) ≠ 0 →
      e.before.chain.coders = coder ∧ e.Empty ∧ emptyRow coder (⟨e, n.owes⟩ :: l.encodes) ≤ e.after.encodeFailures := by
    intro coder some
    unfold emptyRow at some ⊢
    obtain ⟨both, _⟩ := ite_ne_right_iff.mp some
    refine ⟨both.1, both.2, ?_⟩
    rw [if_pos both, (kept both.2).counted, ← both.1]
    exact Nat.succ_le_succ row
  refine ⟨fun f listed empty => ?_, takesUp, fun f listed => ?_, fun _ => ?_, fun coder long => ?_⟩
  · rcases List.mem_cons.mp listed with rfl | old
    · have kept := kept empty
      have stays : e.flow ≠ .goesOn true := by
        have flow := kept.flow
        split at flow
        · obtain ⟨message, flow⟩ := flow
          rw [flow]
          nofun
        · rw [flow]
          simp
      refine ⟨kept, owes_after counts.takesUp held sends ?_ (behind stays)⟩
      rw [after, kept.first, renews.first]
    · exact counts.kept f old empty
  · change f.before.chain.coders ≤ n.sender.chain.coders
    rw [after, coders]
    rcases List.mem_cons.mp listed with rfl | old
    · exact Nat.le_refl _
    · exact Nat.le_trans (counts.numbered f old) renews.coders
  · change emptyRow n.sender.chain.coders _ ≤ n.sender.encodeFailures
    rw [after]
    by_cases none : emptyRow e.after.chain.coders (⟨e, n.owes⟩ :: l.encodes) = 0
    · rw [none]
      exact Nat.zero_le _
    · exact (lengthens _ none).2.2
  · have some : emptyRow coder (⟨e, n.owes⟩ :: l.encodes) ≠ 0 := by
      intro none
      rw [none] at long
      exact absurd long (by decide)
    obtain ⟨_, empty, counted⟩ := lengthens coder some
    have flow := (kept empty).flow
    rw [if_pos (Nat.le_trans long counted)] at flow
    obtain ⟨message, flow⟩ := flow
    exact ⟨failed (by rw [flow]; rfl), _, _, message, rfl, flow⟩

theorem Counts.next (counts : l.Counts) (recognises : l.Recognises library action) (step : l.next library action = some m) :
    m.Counts := by
  obtain ⟨n, ran, rfl⟩ := Option.map_eq_some_iff.mp step
  have stepped := DmabufLoop.next_stepped library ran
  cases stepped with
  | idle sender made ended takesUp =>
    refine counts.idle (sender ▸ .refl _) ended (takesUp counts.takesUp) ?_
    rw [made]
    rfl
  | @processed hasDamage due env sender flow held sends made run after behind failed takesUp =>
    have handled := @DmabufSender.processFrame_handled _ _ library l.loop.sender env
    rw [run] at handled
    unfold Recognises at recognises
    rw [made] at recognises ⊢
    cases which : l.loop.sender.encodeMade library env with
    | none =>
      rw [which] at handled
      cases handled with
      | unencoded renews unsent =>
        refine counts.idle (after ▸ renews) (fun ended => absurd (held.symm.trans ended) nofun) takesUp rfl
    | some e =>
      rw [which] at handled
      cases handled with
      | encoded renews encoder same ran =>
        subst same
        exact counts.encoded held sends renews encoder ran (recognises e which) after behind failed takesUp

theorem reach_counts {shared : OutputLayoutSnapshot} {sender : DmabufSender E}
    (reach : ((runs library shared sender).guarded (Recognises library)).Reach l) : l.Counts := by
  have kept : ((runs library shared sender).guarded (Recognises library)).Inductive fun l : DmabufLog E Input => l.Counts := by
    refine ⟨fun l first => ?_, fun l action m counts step => counts.next step.1 step.2⟩
    cases first
    exact ⟨fun e listed => absurd listed List.not_mem_nil, nofun, fun e listed => absurd listed List.not_mem_nil,
      fun _ => Nat.zero_le _, fun _ long => absurd long (Nat.not_le_of_lt (Nat.zero_lt_succ 4))⟩
  exact kept.reach reach

end DmabufLog

section EmptyOutput

/-- Where what stands in front of a frame without bytes is too short to be taken for one, the frame is not accepted, a
frame stays owed, and the DMA-BUF loop counts it and falls back after so many of them in a row. Where it is longer, the
frame can be sent. -/
theorem empty_output_recognised {E Input : Type} (library : OpenH264 E Input) :
    (∀ l : EncodeLog E Input, ((EncodeLog.runs library).guarded (EncodeLog.Recognises library)).Reach l →
      ∀ e ∈ l.encodes, e.Empty library → e.Kept) ∧
    (∀ (x : PictureCall E) (env : CodingEnvironment Input) (data : Bytes) (e : FrameEncode E Input),
      x.encodeMade library env data = some e →
      x.processAt library env data = PictureCall.finished env data (.passed e.after e.sent)) ∧
    (∀ (shared : OutputLayoutSnapshot) (sender : DmabufSender E) (l : DmabufLog E Input),
      ((DmabufLog.runs library shared sender).guarded (DmabufLog.Recognises library)).Reach l →
      (∀ e ∈ l.encodes, e.Empty → e.Kept ∧ e.owes = true) ∧
      ∀ coder, maxEncodeFailures ≤ emptyRow coder l.encodes → l.FallsBack) ∧
    ∀ (coder : PictureCoder E) (number : Nat) (input : CodingInput Input), coder.produced library number input = some 0 →
      ∃ after coded, coder.encode library number input = (after, .ok coded) ∧
        ((EncodedEgfxFrame.avc420 coded.len).state = .sendable ↔ unsendableLength < coder.prefixed) := by
  refine ⟨fun l reach => EncodeLog.reach_kept reach, fun x env data e found => PictureCall.processAt_encodeMade found,
    fun shared sender l reach => ?_, fun coder number input empty => ?_⟩
  · have counts := DmabufLog.reach_counts reach
    exact ⟨counts.kept, counts.short⟩
  · obtain ⟨after, coded, step, len⟩ := PictureCoder.encode_empty empty
    exact ⟨after, coded, step, len ▸ avc420_sendable coded.len⟩

/-- An environment whose driver returns as many bytes, some of them parameter sets, for an encoder that generates `spsPps`. -/
def drivenEnvironment (spsPps : Nat) (filled : 0 < spsPps) (data : Bitstream) : CodingEnvironment Bitstream :=
  { PictureSession.codedEnvironment with config := ⟨spsPps, false, filled⟩, vaapi := .coded data }

def emptyEnvironment (spsPps : Nat) (filled : 0 < spsPps) : CodingEnvironment Bitstream :=
  drivenEnvironment spsPps filled ⟨0, 0, Nat.le_refl 0⟩

/-- Frames through a frame processor of one pixel, each of them asked for as a whole. -/
def processedFrames (frames : List (CodingEnvironment Bitstream)) : List (SessionInput Bitstream) :=
  .newProcessor .onePixel true .bgrX32 23 .vbr .vaapi ::
    frames.flatMap fun env => [.requestFullFrame, .process env (.zeros 4)]

/-- Captures of one pixel, each of them with damage, through the DMA-BUF loop. -/
def capturedFrames (frames : List (CodingEnvironment Bitstream)) : List (DmabufLoop.Action Bitstream) :=
  frames.flatMap fun env => [.poll [⟨0, 0, 1, 1⟩] (some true), .decide, .takeUp, .process true env]

def oneDmabufPixel : DmabufSender (Option Nat) := .new 1 1 true none .vaapi 23 ⟨0, 0, []⟩

/-- A P picture without bytes behind short parameter sets, and a row of pictures of an encoder with short ones. -/
theorem empty_output_recognised_once :
    (∃ l : EncodeLog (Option Nat) Bitstream, ∃ e ∈ l.encodes, e.Empty PictureSession.steadyOpenH264 ∧ e.Kept) ∧
    ∃ l : DmabufLog (Option Nat) Bitstream, maxEncodeFailures ≤ emptyRow 1 l.encodes ∧ l.FallsBack := by
  let library := PictureSession.steadyOpenH264
  obtain ⟨processed, _, looped, _⟩ := empty_output_recognised library
  constructor
  · have run : ((StepSystem.exec
        (fun (l : EncodeLog (Option Nat) Bitstream) input => if l.Recognises library input then l.next library input else none)
        ⟨.ended ⟨0, 0, []⟩, []⟩
        (processedFrames [drivenEnvironment 40 (by decide) ⟨64, 24, by decide⟩, emptyEnvironment 40 (by decide)])).bind
          fun l => l.encodes[1]?.map fun e => decide (e.Empty library)) = some true := by
      decide
    obtain ⟨l, exec, listed⟩ := Option.bind_eq_some_iff.mp run
    obtain ⟨e, second, empty⟩ := Option.map_eq_some_iff.mp listed
    have reach : ((EncodeLog.runs library).guarded (EncodeLog.Recognises library)).Reach l :=
      StepSystem.guarded_exec_reach _ (.start rfl) exec
    have listed : e ∈ l.encodes := List.mem_of_getElem? second
    exact ⟨l, e, listed, of_decide_eq_true empty, processed l reach e listed (of_decide_eq_true empty)⟩
  · have run : ((StepSystem.exec
        (fun (l : DmabufLog (Option Nat) Bitstream) action => if l.Recognises library action then l.next library action else none)
        ⟨.start ShmLoop.onePixelLayout oneDmabufPixel, []⟩
        (capturedFrames (List.replicate maxEncodeFailures (emptyEnvironment 24 (by decide))))).map
          fun l => emptyRow 1 l.encodes) = some 5 := by
      decide
    obtain ⟨l, exec, row⟩ := Option.map_eq_some_iff.mp run
    have reach : ((DmabufLog.runs library ShmLoop.onePixelLayout oneDmabufPixel).guarded (DmabufLog.Recognises library)).Reach l :=
      StepSystem.guarded_exec_reach _ (.start rfl) exec
    have long : maxEncodeFailures ≤ emptyRow 1 l.encodes := Nat.le_of_eq row.symm
    exact ⟨l, long, (looped _ _ l reach).2 1 long⟩

/-- The call of a shared-memory loop. -/
def PictureSession.shmCall {E : Type} : PictureSession E → Option (PictureCall E)
  | .shm x => some x
  | .dmabuf _ => none
  | .ended _ => none

theorem PictureSession.shmCall_some {E : Type} {session : PictureSession E} {x : PictureCall E}
    (held : session.shmCall = some x) : session = .shm x := by
  cases session with
  | shm y => exact congrArg PictureSession.shm (Option.some.inj held)
  | dmabuf y => cases held
  | ended chain => cases held

/-- The first picture of an encoder has no bytes, and leaves as the parameter sets alone: what was owed is settled with it.
In the DMA-BUF loop any number of such pictures in a row leaves, and it never falls back. -/
theorem empty_output_sent :
    (∃ l : EncodeLog (Option Nat) Bitstream, (EncodeLog.runs PictureSession.steadyOpenH264).Reach l ∧
      ∃ e ∈ l.encodes, e.Empty PictureSession.steadyOpenH264 ∧ e.sent = true ∧
        ∃ x, l.session = .shm x ∧ x.call.processor.sentFirstFrame = true ∧ x.call.owes = false) ∧
    ∃ l : DmabufLog (Option Nat) Bitstream,
      (DmabufLog.runs PictureSession.steadyOpenH264 ShmLoop.onePixelLayout oneDmabufPixel).Reach l ∧
      maxEncodeFailures ≤ emptyRow 1 l.encodes ∧ l.loop.phase = .waiting ∧ l.loop.owes = false ∧
      l.loop.sender.encodeFailures = 0 := by
  let library := PictureSession.steadyOpenH264
  constructor
  · have run : ((StepSystem.exec (EncodeLog.next library) ⟨.ended ⟨0, 0, []⟩, []⟩
        (processedFrames [emptyEnvironment 40 (by decide)])).bind fun l =>
          l.session.shmCall.bind fun x => l.encodes.head?.map fun e =>
            (decide (e.Empty library), e.sent, x.call.processor.sentFirstFrame, x.call.owes)) =
          some (true, true, true, false) := by
      decide
    obtain ⟨l, exec, seen⟩ := Option.bind_eq_some_iff.mp run
    obtain ⟨x, held, seen⟩ := Option.bind_eq_some_iff.mp seen
    obtain ⟨e, newest, seen⟩ := Option.map_eq_some_iff.mp seen
    simp only [Prod.mk.injEq] at seen
    obtain ⟨empty, sent, first, settled⟩ := seen
    exact ⟨l, StepSystem.exec_reach _ (.start rfl) exec, e, List.mem_of_mem_head? newest, of_decide_eq_true empty, sent,
      x, PictureSession.shmCall_some held, first, settled⟩
  · have run : ((StepSystem.exec (DmabufLog.next library) ⟨.start ShmLoop.onePixelLayout oneDmabufPixel, []⟩
        (capturedFrames (List.replicate maxEncodeFailures (emptyEnvironment 40 (by decide))))).map fun l =>
          (emptyRow 1 l.encodes, l.loop.phase, l.loop.owes, l.loop.sender.encodeFailures)) = some (5, .waiting, false, 0) := by
      decide
    obtain ⟨l, exec, seen⟩ := Option.map_eq_some_iff.mp run
    simp only [Prod.mk.injEq] at seen
    obtain ⟨row, waiting, settled, failures⟩ := seen
    exact ⟨l, StepSystem.exec_reach _ (.start rfl) exec, Nat.le_of_eq row.symm, waiting, settled, failures⟩

end EmptyOutput

end HyprRdp
