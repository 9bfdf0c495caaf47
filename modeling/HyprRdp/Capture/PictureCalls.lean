import HyprRdp.Capture.Encoders
import HyprRdp.Egfx.Pictures
import HyprRdp.Lib.History

namespace HyprRdp

/-- What reaches a client, in order: the surfaces that are set up or found, and
the frames. A frame of AVC420 has the number of its encoder, and its picture. -/
inductive ChainEntry
  | surface (id : Nat)
  | frame (surface : Nat) (coded : Option (Nat × Picture))
  deriving DecidableEq, Repr

def ChainEntry.number? : ChainEntry → Option Nat
  | .frame _ (some (_, picture)) => some picture.number
  | _ => none

/-- A picture is newer than those before it. Unless it is an IDR picture it comes
right after a frame of its surface and its encoder, and a P picture is predicted
from the picture of that frame. -/
def ChainEntry.Unbroken (before : List ChainEntry) (entry : ChainEntry) : Prop :=
  ∀ surface coder picture, entry = .frame surface (some (coder, picture)) →
    (∀ number ∈ before.filterMap ChainEntry.number?, number < picture.number) ∧
    (picture.kind ≠ .idr → ∃ earlier last, before = earlier ++ [ChainEntry.frame surface (some (coder, last))] ∧
      ∀ reference, picture.kind = .p reference → reference = some last.number)

/-- The encoders made and the pictures coded so far, and what reached the client. -/
structure PictureChain where
  coders : Nat
  pictures : Nat
  entries : List ChainEntry

namespace PictureChain

def add (chain : PictureChain) (entries : List ChainEntry) : PictureChain :=
  { chain with entries := chain.entries ++ entries }

/-- A new encoder takes the next number. -/
def nextCoder (chain : PictureChain) : PictureChain := { chain with coders := chain.coders + 1 }

def nextPicture (chain : PictureChain) : PictureChain := { chain with pictures := chain.pictures + 1 }

/-- A frame was coded, or not, and has reached the client, or not. -/
def offer (chain : PictureChain) (surface : Nat) (sent : Bool) : Except String CodedPicture → PictureChain
  | .ok coded =>
    if sent then chain.nextPicture.add [.frame surface (some (chain.coders, coded.picture))] else chain.nextPicture
  | .error _ => chain.nextPicture

/-- The picture that reached the client last, if it is on this surface and of the newest encoder. -/
def last (chain : PictureChain) (surface : Option Nat) : Option Nat :=
  match chain.entries.getLast? with
  | some (.frame id (some (coder, picture))) =>
    if surface = some id ∧ coder = chain.coders then some picture.number else none
  | _ => none

structure Sound (chain : PictureChain) : Prop where
  unbroken : EachAfter ChainEntry.Unbroken chain.entries
  numbered : ∀ number ∈ chain.entries.filterMap ChainEntry.number?, number < chain.pictures

variable {chain : PictureChain} {surface : Option Nat} {earlier id : Nat} {picture : Picture}

theorem last_eq (held : chain.last surface = some earlier) : ∃ before id last,
    surface = some id ∧ last.number = earlier ∧
    chain.entries = before ++ [ChainEntry.frame id (some (chain.coders, last))] := by
  unfold last at held
  split at held
  · rename_i id coder last tail
    obtain ⟨⟨surface, rfl⟩, same⟩ := Option.ite_none_right_eq_some.mp held
    obtain ⟨before, split⟩ := List.getLast?_eq_some_iff.mp tail
    exact ⟨before, id, last, surface, Option.some.inj same, split⟩
  · cases held

theorem last_surface (id : Nat) : (chain.add [.surface id]).last surface = none := by
  unfold last add
  rw [List.getLast?_concat]

theorem last_frame : (chain.add [.frame id (some (chain.coders, picture))]).last (some id) = some picture.number := by
  unfold last add
  dsimp only
  rw [List.getLast?_concat]
  dsimp only
  rw [if_pos ⟨rfl, rfl⟩]

theorem last_offer {surface : Nat} {sent : Bool} {result : Except String CodedPicture}
    (leaves : sent = true → ∃ coded, result = .ok coded ∧ coded.picture.number = chain.pictures) :
    (chain.offer surface sent result).last (some surface) =
      if sent then some chain.pictures else chain.last (some surface) := by
  cases sent with
  | false => cases result <;> rfl
  | true =>
    obtain ⟨coded, rfl, number⟩ := leaves rfl
    exact last_frame.trans (congrArg some number)

theorem last_none : chain.last none = none := by
  unfold last
  split
  · exact if_neg fun both => absurd both.1 nofun
  · rfl

theorem Sound.nextCoder (sound : chain.Sound) : chain.nextCoder.Sound := ⟨sound.unbroken, sound.numbered⟩

theorem Sound.nextPicture (sound : chain.Sound) : chain.nextPicture.Sound :=
  ⟨sound.unbroken, fun number member => Nat.lt_succ_of_lt (sound.numbered number member)⟩

/-- What is not a picture breaks nothing. -/
theorem Sound.addOther (sound : chain.Sound) {entries : List ChainEntry}
    (other : ∀ entry ∈ entries, entry.number? = none) : (chain.add entries).Sound where
  unbroken := by
    refine sound.unbroken.append fun before entry after same => ?_
    intro surface coder picture frame
    have without := other entry (by rw [same]; exact List.mem_append_right _ List.mem_cons_self)
    rw [frame] at without
    cases without
  numbered := by
    have without : entries.filterMap ChainEntry.number? = [] := List.filterMap_eq_nil_iff.mpr other
    unfold add
    rw [List.filterMap_append, without, List.append_nil]
    exact sound.numbered

/-- A picture that continues the last one may be the next entry. -/
theorem Sound.addPicture (sound : chain.Sound) {surface : Nat}
    (continues : picture.Continues chain.pictures (chain.last (some surface))) :
    (chain.nextPicture.add [.frame surface (some (chain.coders, picture))]).Sound where
  unbroken := by
    refine sound.unbroken.concat fun id coder same frame => ?_
    cases frame
    refine ⟨fun number member => continues.number ▸ sound.numbered number member, fun predicted => ?_⟩
    obtain ⟨earlier, held, kind⟩ := continues.kind.resolve_left predicted
    obtain ⟨before, id, last, onSurface, rfl, split⟩ := last_eq held
    cases onSurface
    refine ⟨before, last, split, fun reference named => ?_⟩
    rcases kind with intra | kind
    · exact absurd (intra.symm.trans named) nofun
    · exact (PictureKind.p.inj (kind.symm.trans named)).symm
  numbered := by
    intro number member
    unfold add at member
    rw [List.filterMap_append, List.mem_append] at member
    rcases member with old | new
    · exact Nat.lt_succ_of_lt (sound.numbered number old)
    · have same : number = picture.number := by simpa [ChainEntry.number?] using new
      have count := continues.number
      change number < chain.pictures + 1
      omega

end PictureChain

/-- A call of `process_at` with the encoder of its processor. -/
structure PictureCall (E : Type) where
  call : Call
  coder : Option (PictureCoder E)
  chain : PictureChain

/-- What a call meets, with what it meets of its encoder; the length of an AVC420
frame is not taken from `firstSubframe` but is that of the coded picture. -/
structure CodingEnvironment (Input : Type) extends Environment, CodingInput Input

def Event.entry : Event → Option ChainEntry
  | .surface id _ => some (.surface id)
  | .frame wire => some (.frame wire.surface none)
  | .requested | .resize _ _ | .bitmap => none

namespace PictureCall

variable {E Input : Type} (library : OpenH264 E Input)

/-- The processor has got this encoder, or none, in place of the one it had. -/
def renew (x : PictureCall E) (config : VaapiConfig) (encoder : Option FrameEncoder) : PictureCall E :=
  { x with coder := encoder.map (.new library config), chain := x.chain.nextCoder }

def refresh (x : PictureCall E) (env : CodingEnvironment Input) : PictureCall E :=
  let ready := Call.readyForAvc env.toEnvironment
  let p := x.call.processor.refreshReadiness ready
  let y := { x with
    call := x.call.refresh env.toEnvironment
    coder := if p.h264Encoder.isSome then x.coder else none }
  if env.generation ≠ p.egfxGeneration ∨ (ready ∧ p.selectedCodec env.toEnvironment ≠ p.egfxCodec) then
    y.renew library env.config (p.refreshEncoder env.toEnvironment ready).h264Encoder
  else y

def activate (x : PictureCall E) (env : CodingEnvironment Input) (ready : Bool) : PictureCall E :=
  { x with call := x.call.activated env.toEnvironment ready }

def initSurface (x : PictureCall E) (env : CodingEnvironment Input) : PictureCall E :=
  let call := x.call.initSurface env.toEnvironment
  match x.call.processor.egfxSurfaceId, call.processor.egfxSurfaceId with
  | none, some id => { x with call, chain := x.chain.add [.surface id] }
  | _, _ => { x with call }

/-- Whether the frame at hand makes the processor force an IDR picture: it could
not be encoded, is of no use, or was refused. -/
def forcesIdr (p : FrameProcessor) (result : Except String EncodedEgfxFrame) (sent : Bool) : Bool :=
  match result with
  | .error _ => true
  | .ok frame =>
    match frame.state with
    | .skipped => false
    | .invalid => true
    | .sendable => p.egfxHandle && p.egfxSender && !sent

def encodeAndSend (x : PictureCall E) (env : CodingEnvironment Input) (data : Bytes) (surface : Nat) (force : Bool)
    (regions : List Region) : PictureCall E × Bool :=
  let p := x.call.processor
  match p.egfxCodec.getD .avc420, x.coder with
  | .avc420, some coder =>
    let (coder, result) := coder.encode library x.chain.pictures env.toCodingInput
    let (call, sent) := x.call.encodeAndSend { env.toEnvironment with firstSubframe := result.map CodedPicture.len } data
      surface force regions
    let forced := forcesIdr p (result.map fun coded => .avc420 coded.len) sent
    ({ call
       coder := some (if forced then coder.forceIdr library else coder)
       chain := x.chain.offer surface sent result }, sent)
  | _, coder =>
    let (call, sent) := x.call.encodeAndSend env.toEnvironment data surface force regions
    -- the encoder does not fit the codec, or it is one of AVC444, whose pictures are not followed
    ({ call
       coder := coder.map (PictureCoder.forceIdr library)
       chain := if sent then x.chain.add [.frame surface none] else x.chain }, sent)

def afterSend (x : PictureCall E) (env : CodingEnvironment Input) (force sent : Bool) : PictureCall E :=
  let p := x.call.processor
  let y := { x with call := x.call.afterSend env.toEnvironment force sent }
  if maxEncodeFailures ≤ p.encodeFailures ∧ p.h264Encoder.any FrameEncoder.isVaapi then
    y.renew library env.config (p.runtimeFallback env.toEnvironment).h264Encoder
  else y

inductive Outcome (E : Type)
  | returned (x : PictureCall E)
  | passed (x : PictureCall E) (sentViaEgfx : Bool)

def transmit (x : PictureCall E) (env : CodingEnvironment Input) (data : Bytes) (ready force : Bool)
    (regions : List Region) : Outcome E :=
  let x := x.activate env ready
  if !x.call.processor.egfxActive then .passed x false
  else
    let x := x.initSurface env
    match x.call.processor.egfxSurfaceId with
    | none => .passed x false
    | some surface =>
      if x.call.processor.egfxHandle && !env.frameView.frameReadiness.isReady then .returned x
      else
        let (x, sent) := x.encodeAndSend library env data surface force regions
        .passed (x.afterSend library env force sent) sent

def processAvc (x : PictureCall E) (env : CodingEnvironment Input) (data : Bytes) : Outcome E :=
  let c := x.call
  let x := x.refresh library env
  if c.postponed env.toEnvironment then .returned x
  else
    let x := { x with call := c.taken env.toEnvironment }
    let p := x.call.processor
    let regions := c.damage env.toEnvironment data
    if p.sentFirstFrame && regions.isEmpty then
      .returned { x with call := x.call.update { p with pendingDamageRegions := [] } }
    else x.transmit library env data (Call.readyForAvc env.toEnvironment) (c.forced env.toEnvironment) regions

/-- Without AVC an encoder that is left over is dropped. -/
def processClearcodec (x : PictureCall E) (env : CodingEnvironment Input) (data : Bytes) : PictureCall E × Bool :=
  let (call, goesOn) := x.call.processClearcodec env.toEnvironment data
  ({ x with
      call
      coder := if (x.call.processor.refreshClearcodec env.toEnvironment).h264Encoder.isSome then x.coder else none
      chain := x.chain.add ((call.events.drop x.call.events.length).filterMap Event.entry) }, goesOn)

def finished (env : CodingEnvironment Input) (data : Bytes) : Outcome E → PictureCall E × Bool
  | .returned x => (x, true)
  | .passed x sent =>
    let (call, goesOn) := x.call.finish env.toEnvironment data sent
    ({ x with call }, goesOn)

/-- `process_at`, with its encoder. -/
def processAt (x : PictureCall E) (env : CodingEnvironment Input) (data : Bytes) : PictureCall E × Bool :=
  if x.call.usesAvc env.toEnvironment then finished env data (x.processAvc library env data)
  else if x.call.usesClearcodec env.toEnvironment then x.processClearcodec env data
  else
    let (call, goesOn) := x.call.processAt env.toEnvironment data
    ({ x with call }, goesOn)

/-- The encoder belongs to the processor's, the transport is there once it is
active, and the next picture is an IDR picture or follows the last one on the
processor's surface. -/
structure Sound (x : PictureCall E) : Prop where
  behind : x.coder.map PictureCoder.backend = x.call.processor.h264Encoder.map FrameEncoder.backend
  wired : x.call.processor.egfxActive = true →
    x.call.processor.egfxHandle = true ∧ x.call.processor.egfxSender = true
  follows : ∀ coder, x.coder = some coder → coder.Follows library (x.chain.last x.call.processor.egfxSurfaceId)
  chain : x.chain.Sound

end PictureCall

namespace FrameProcessor

/-- Two states of a processor that send with the same encoder on the same surface. -/
structure SendsAlike (p q : FrameProcessor) : Prop where
  encoder : q.h264Encoder.map FrameEncoder.backend = p.h264Encoder.map FrameEncoder.backend
  surface : q.egfxSurfaceId = p.egfxSurfaceId
  active : q.egfxActive = p.egfxActive
  handle : q.egfxHandle = p.egfxHandle
  sender : q.egfxSender = p.egfxSender

theorem SendsAlike.refl (p : FrameProcessor) : p.SendsAlike p := ⟨rfl, rfl, rfl, rfl, rfl⟩

/-- Losing EGFX drops the encoder; finding it keeps what there is. -/
theorem refreshReadiness_cases (p : FrameProcessor) (ready : Bool) :
    p.SendsAlike (p.refreshReadiness ready) ∨
    (p.refreshReadiness ready).h264Encoder = none ∧ (p.refreshReadiness ready).egfxActive = false := by
  unfold refreshReadiness
  split
  · exact .inl (.refl p)
  · split
    · exact .inl ⟨rfl, rfl, rfl, rfl, rfl⟩
    · exact .inr ⟨rfl, rfl⟩

theorem refreshEncoder_transport (p : FrameProcessor) (env : Environment) (ready : Bool) :
    (p.refreshEncoder env ready).egfxActive = p.egfxActive ∧ (p.refreshEncoder env ready).egfxHandle = p.egfxHandle ∧
    (p.refreshEncoder env ready).egfxSender = p.egfxSender := by
  unfold refreshEncoder
  dsimp only
  split
  · split
    · split <;> exact ⟨rfl, rfl, rfl⟩
    · exact ⟨rfl, rfl, rfl⟩
  · exact ⟨rfl, rfl, rfl⟩

theorem runtimeFallback_transport (p : FrameProcessor) (env : Environment) :
    (p.runtimeFallback env).egfxHandle = p.egfxHandle ∧ (p.runtimeFallback env).egfxSender = p.egfxSender ∧
    ((p.runtimeFallback env).egfxActive = true → p.egfxActive = true) := by
  unfold runtimeFallback
  split
  · split
    · split
      · exact ⟨rfl, rfl, id⟩
      · exact ⟨rfl, rfl, nofun⟩
    · exact ⟨rfl, rfl, nofun⟩
  · exact ⟨rfl, rfl, id⟩

theorem refreshClearcodec_encoder (p : FrameProcessor) (env : Environment) :
    (p.refreshClearcodec env).h264Encoder = none ∧
    ((p.refreshClearcodec env).egfxActive = true → (p.refreshClearcodec env) = p) := by
  unfold refreshClearcodec
  split
  · exact ⟨rfl, nofun⟩
  · rename_i same
    exact ⟨Option.not_isSome_iff_eq_none.mp fun held => same (.inr held), fun _ => rfl⟩

end FrameProcessor

namespace PictureCall

variable {E Input : Type} {library : OpenH264 E Input} {x y : PictureCall E} {env : CodingEnvironment Input} {data : Bytes}

theorem Sound.keep (sound : x.Sound library) (call : Call) (alike : x.call.processor.SendsAlike call.processor) :
    { x with call }.Sound library where
  behind := sound.behind.trans alike.encoder.symm
  wired active := by
    rw [alike.active] at active
    rw [alike.handle, alike.sender]
    exact sound.wired active
  follows coder held := by
    change coder.Follows library (x.chain.last call.processor.egfxSurfaceId)
    rw [alike.surface]
    exact sound.follows coder held
  chain := sound.chain

/-- A new encoder owes an IDR picture, so it follows anything. -/
theorem renew_sound {config : VaapiConfig} (chain : x.chain.Sound)
    (wired : x.call.processor.egfxActive = true →
      x.call.processor.egfxHandle = true ∧ x.call.processor.egfxSender = true) :
    (x.renew library config x.call.processor.h264Encoder).Sound library where
  behind := by
    unfold renew
    cases x.call.processor.h264Encoder with
    | none => rfl
    | some enc => exact congrArg some (PictureCoder.new_backend config enc)
  wired := wired
  follows coder held := by
    obtain ⟨enc, _, rfl⟩ := Option.map_eq_some_iff.mp held
    exact PictureCoder.new_follows config enc
  chain := chain.nextCoder

theorem idle_sound (chain : x.chain.Sound) (coder : x.coder = none) (encoder : x.call.processor.h264Encoder = none)
    (wired : x.call.processor.egfxActive = true →
      x.call.processor.egfxHandle = true ∧ x.call.processor.egfxSender = true) : x.Sound library where
  behind := by rw [coder, encoder]; rfl
  wired := wired
  follows held same := absurd (coder.symm.trans same) nofun
  chain := chain

/-- The readiness check keeps the encoder with its surface, or drops it. -/
theorem readiness_sound (sound : x.Sound library) (ready : Bool) :
    { x with
      call := x.call.update (x.call.processor.refreshReadiness ready)
      coder := if (x.call.processor.refreshReadiness ready).h264Encoder.isSome then x.coder else none }.Sound library := by
  rcases x.call.processor.refreshReadiness_cases ready with alike | ⟨dropped, inactive⟩
  · have coder : (if (x.call.processor.refreshReadiness ready).h264Encoder.isSome then x.coder else none) = x.coder := by
      have behind := sound.behind.trans alike.encoder.symm
      cases held : (x.call.processor.refreshReadiness ready).h264Encoder with
      | some enc => rfl
      | none =>
        rw [held] at behind
        exact (Option.map_eq_none_iff.mp behind).symm
    rw [coder]
    exact sound.keep _ alike
  · refine idle_sound sound.chain ?_ dropped fun active => absurd (inactive.symm.trans active) nofun
    rw [dropped]
    rfl

theorem refresh_sound (sound : x.Sound library) (env : CodingEnvironment Input) : (x.refresh library env).Sound library := by
  have ready := readiness_sound sound (Call.readyForAvc env.toEnvironment)
  have processor := Call.refresh_processor x.call env.toEnvironment
  unfold refresh
  dsimp only
  generalize x.call.processor.refreshReadiness (Call.readyForAvc env.toEnvironment) = p at *
  split
  · obtain ⟨active, handle, sender⟩ := p.refreshEncoder_transport env.toEnvironment (Call.readyForAvc env.toEnvironment)
    rw [← processor] at active handle sender ⊢
    refine renew_sound sound.chain fun on => ?_
    rw [handle, sender]
    exact ready.wired (active.symm.trans on)
  · rename_i same
    rw [FrameProcessor.refreshEncoder, if_neg same] at processor
    exact ready.keep (x.call.refresh env.toEnvironment) (processor ▸ .refl p)

theorem activate_sound (sound : x.Sound library) (env : CodingEnvironment Input) (ready : Bool) :
    (x.activate env ready).Sound library := by
  unfold activate Call.activated FrameProcessor.activate
  split
  · refine ⟨sound.behind, fun active => ?_, sound.follows, sound.chain⟩
    obtain ⟨both, sender⟩ := (Bool.and_eq_true _ _).mp active
    exact ⟨((Bool.and_eq_true _ _).mp both).2, sender⟩
  · exact sound.keep _ (.refl _)

theorem initSurface_cases (c : Call) (env : Environment) : (c.initSurface env).processor = c.processor ∨
    ∃ id, c.processor.egfxSurfaceId = none ∧
      (c.initSurface env).processor = { c.processor with egfxSurfaceId := some id } := by
  unfold Call.initSurface
  dsimp only
  split
  · rename_i missing
    have unheld := Option.isNone_iff_eq_none.mp
      ((Bool.and_eq_true _ _).mp ((Bool.and_eq_true _ _).mp missing).1).1
    split
    · exact .inl rfl
    · exact .inr ⟨_, unheld, rfl⟩
    · exact .inr ⟨_, unheld, rfl⟩
  · exact .inl rfl

theorem initSurface_call (env : CodingEnvironment Input) : (x.initSurface env).call = x.call.initSurface env.toEnvironment := by
  unfold initSurface
  dsimp only
  split <;> rfl

/-- Without a surface the encoder has delivered nothing, so it owes an IDR picture. -/
theorem initSurface_sound (sound : x.Sound library) (env : CodingEnvironment Input) : (x.initSurface env).Sound library := by
  unfold initSurface
  dsimp only
  rcases initSurface_cases x.call env.toEnvironment with same | ⟨id, unheld, found⟩
  · split
    · rename_i before after
      rw [same, before] at after
      cases after
    · exact sound.keep _ (same ▸ .refl _)
  · rw [unheld, found]
    refine ⟨?_, ?_, fun coder held => ?_, sound.chain.addOther fun entry member => ?_⟩
    · rw [found]
      exact sound.behind
    · rw [found]
      exact sound.wired
    · have follows := sound.follows coder held
      rw [unheld, PictureChain.last_none] at follows
      rw [PictureChain.last_surface]
      exact follows
    · rw [List.mem_singleton.mp member]
      rfl

/-- Encoding and sending keep the kind of the encoder, its surface and the transport. -/
theorem encodeAndSend_alike (c : Call) (env : Environment) (data : Bytes) (surface : Nat) (force : Bool)
    (regions : List Region) : c.processor.SendsAlike (c.encodeAndSend env data surface force regions).1.processor := by
  have run := c.encodeAndSend_encoded env data surface force regions
  have forced : (Call.forcedEncoder c.processor force).map FrameEncoder.backend =
      c.processor.h264Encoder.map FrameEncoder.backend := by
    unfold Call.forcedEncoder
    split
    · rw [Option.map_map]
      exact Option.map_congr fun enc _ => enc.forceFullFrame_backend
    · rfl
  generalize c.encodeAndSend env data surface force regions = after at run
  cases run with
  | idle without =>
    rw [Call.hear_processor]
    exact .refl _
  | @unsent enc inner result idr failures before encoded =>
    refine ⟨?_, rfl, rfl, rfl, rfl⟩
    rw [← forced, before]
    refine congrArg some ?_
    have same := FrameEncoder.encodeEgfxFrame_backend encoded
    cases idr with
    | true => exact inner.forceIdr_backend.trans same
    | false => exact same
  | @sent enc inner frame wire before encoded left =>
    refine ⟨?_, rfl, rfl, rfl, rfl⟩
    rw [← forced, before]
    exact congrArg some ((inner.commitAfterSend_backend frame).trans (FrameEncoder.encodeEgfxFrame_backend encoded))

/-- An AVC420 frame that leaves is the coded one, and it is sendable. -/
theorem encodeAndSend_avc420 {c : Call} {env : Environment} {surface : Nat} {force : Bool} {regions : List Region}
    (result : Except String CodedPicture) (codec : c.processor.egfxCodec.getD .avc420 = .avc420)
    (first : env.firstSubframe = result.map CodedPicture.len)
    (sent : (c.encodeAndSend env data surface force regions).2 = true) : ∃ coded, result = .ok coded ∧
      (EncodedEgfxFrame.avc420 coded.len).state = .sendable := by
  have run := c.encodeAndSend_encoded env data surface force regions
  generalize c.encodeAndSend env data surface force regions = after at run sent
  cases run with
  | idle without => cases sent
  | unsent idr failures before encoded => cases sent
  | @sent enc inner frame wire before encoded left =>
    rw [codec, first] at encoded
    have same := FrameEncoder.encodeEgfxFrame_avc420 encoded
    cases result with
    | error message => cases same
    | ok coded =>
      cases same
      exact ⟨coded, rfl, sent_sendable left⟩

theorem avc420_state {len : Nat} (filled : 0 < len) : (EncodedEgfxFrame.avc420 len).state ≠ .skipped := by
  dsimp only [EncodedEgfxFrame.state]
  rw [if_neg (Nat.ne_of_gt filled)]
  split <;> nofun

/-- An encoder that is told to force an IDR picture follows anything. -/
theorem forced_sound {call : Call} {chain : PictureChain} (sound : x.Sound library)
    (alike : x.call.processor.SendsAlike call.processor) (added : chain.Sound) :
    Sound library ⟨call, x.coder.map (PictureCoder.forceIdr library), chain⟩ where
  behind := by
    rw [Option.map_map, alike.encoder, ← sound.behind]
    exact Option.map_congr fun coder _ => coder.forceIdr_backend
  wired := (sound.keep _ alike).wired
  follows forced held := by
    obtain ⟨coder, _, rfl⟩ := Option.map_eq_some_iff.mp held
    exact coder.forceIdr_follows
  chain := added

/-- A processor with its transport forces an IDR picture unless the frame was skipped or has left. -/
theorem forcesIdr_eq {p : FrameProcessor} {frame : EncodedEgfxFrame} {sent : Bool} (handle : p.egfxHandle = true)
    (sender : p.egfxSender = true) :
    forcesIdr p (.ok frame) sent = match frame.state with
      | .skipped => false
      | .invalid => true
      | .sendable => !sent := by
  unfold forcesIdr
  rw [handle, sender]
  rfl

/-- What was coded and did not leave is followed by an IDR picture. -/
theorem coded_follows {p : FrameProcessor} {coder after : PictureCoder E} {input : CodingInput Input} {number : Nat}
    {result : Except String CodedPicture} {reference : Option Nat} {sent : Bool} (handle : p.egfxHandle = true)
    (sender : p.egfxSender = true) (follows : coder.Follows library reference)
    (step : coder.encode library number input = (after, result))
    (leaves : sent = true → ∃ coded, result = .ok coded ∧ (EncodedEgfxFrame.avc420 coded.len).state = .sendable) :
    (if forcesIdr p (result.map fun coded => .avc420 coded.len) sent then after.forceIdr library else after).Follows
      library (if sent then some number else reference) := by
  by_cases forced : forcesIdr p (result.map fun coded => .avc420 coded.len) sent = true
  · rw [if_pos forced]
    exact after.forceIdr_follows
  · rw [if_neg forced]
    cases result with
    | error message => exact absurd rfl forced
    | ok coded =>
      change ¬ forcesIdr _ (.ok (.avc420 coded.len)) sent = true at forced
      rw [forcesIdr_eq handle sender] at forced
      rcases PictureCoder.encode_ok follows step with ⟨empty, kept⟩ | ⟨filled, _, next⟩
      · cases sent with
        | false => exact kept
        | true =>
          obtain ⟨_, same, state⟩ := leaves rfl
          cases same
          rw [empty] at state
          cases state
      · cases state : (EncodedEgfxFrame.avc420 coded.len).state with
        | skipped => exact absurd state (avc420_state filled)
        | invalid =>
          rw [state] at forced
          exact absurd rfl forced
        | sendable =>
          rw [state] at forced
          cases sent with
          | false => exact absurd rfl forced
          | true => exact next

/-- What leaves continues the chain. -/
theorem coded_continues {coder after : PictureCoder E} {input : CodingInput Input} {number : Nat}
    {coded : CodedPicture} {reference : Option Nat} (follows : coder.Follows library reference)
    (step : coder.encode library number input = (after, .ok coded))
    (state : (EncodedEgfxFrame.avc420 coded.len).state = .sendable) : coded.picture.Continues number reference := by
  rcases PictureCoder.encode_ok follows step with ⟨empty, _⟩ | ⟨_, continues, _⟩
  · rw [empty] at state
    cases state
  · exact continues

theorem coded_sound {surface : Nat} {call : Call} {coder after : PictureCoder E} {input : CodingInput Input}
    {result : Except String CodedPicture} {sent : Bool} (sound : x.Sound library) (present : x.coder = some coder)
    (step : coder.encode library x.chain.pictures input = (after, result))
    (alike : x.call.processor.SendsAlike call.processor) (active : x.call.processor.egfxActive = true)
    (held : x.call.processor.egfxSurfaceId = some surface)
    (leaves : sent = true → ∃ coded, result = .ok coded ∧ (EncodedEgfxFrame.avc420 coded.len).state = .sendable) :
    Sound library ⟨call,
      some (if forcesIdr x.call.processor (result.map fun coded => .avc420 coded.len) sent then after.forceIdr library
        else after), x.chain.offer surface sent result⟩ := by
  obtain ⟨handle, sender⟩ := sound.wired active
  have backend : after.backend = coder.backend := by
    have same : (coder.encode library x.chain.pictures input).1.backend = coder.backend := coder.encode_backend _ _
    rw [step] at same
    exact same
  have follows := sound.follows coder present
  rw [held] at follows
  refine ⟨?_, (sound.keep _ alike).wired, fun next same => ?_, ?_⟩
  · rw [alike.encoder, ← sound.behind, present]
    refine congrArg some ?_
    split
    · exact after.forceIdr_backend.trans backend
    · exact backend
  · cases same
    rw [alike.surface, held, PictureChain.last_offer fun left => ?_]
    · exact coded_follows handle sender follows step leaves
    · obtain ⟨coded, same, state⟩ := leaves left
      exact ⟨coded, same, (coded_continues follows (same ▸ step) state).number⟩
  · cases result with
    | error message => exact sound.chain.nextPicture
    | ok coded =>
      cases sent with
      | false => exact sound.chain.nextPicture
      | true =>
        obtain ⟨_, same, state⟩ := leaves rfl
        cases same
        exact sound.chain.addPicture (coded_continues follows step state)

theorem encodeAndSend_sound {surface : Nat} (sound : x.Sound library) (env : CodingEnvironment Input) (data : Bytes)
    (force : Bool) (regions : List Region) (active : x.call.processor.egfxActive = true)
    (held : x.call.processor.egfxSurfaceId = some surface) :
    (x.encodeAndSend library env data surface force regions).1.Sound library := by
  unfold encodeAndSend
  dsimp only
  split
  · rename_i _ _ coder codec present
    rcases step : coder.encode library x.chain.pictures env.toCodingInput with ⟨after, result⟩
    exact coded_sound sound present step (encodeAndSend_alike _ _ _ _ _ _) active held
      (encodeAndSend_avc420 result codec rfl)
  · refine forced_sound sound (encodeAndSend_alike _ _ _ _ _ _) ?_
    split
    · exact sound.chain.addOther fun entry member => by rw [List.mem_singleton.mp member]; rfl
    · exact sound.chain

theorem afterSend_sound (sound : x.Sound library) (env : CodingEnvironment Input) (force sent : Bool) :
    (x.afterSend library env force sent).Sound library := by
  have processor := x.call.afterSend_processor env.toEnvironment force sent
  unfold afterSend
  dsimp only
  split
  · obtain ⟨handle, sender, active⟩ := x.call.processor.runtimeFallback_transport env.toEnvironment
    rw [← processor] at handle sender active ⊢
    refine renew_sound sound.chain fun on => ?_
    rw [handle, sender]
    exact sound.wired (active on)
  · rename_i same
    rw [FrameProcessor.runtimeFallback, if_neg same] at processor
    exact sound.keep (x.call.afterSend env.toEnvironment force sent) (processor ▸ .refl _)

def Outcome.call : Outcome E → PictureCall E
  | .returned x | .passed x _ => x

theorem transmit_sound (sound : x.Sound library) (env : CodingEnvironment Input) (data : Bytes) (ready force : Bool)
    (regions : List Region) : (x.transmit library env data ready force regions).call.Sound library := by
  have activated := activate_sound sound env ready
  unfold transmit
  generalize x.activate env ready = y at activated
  dsimp only
  split
  · exact activated
  · rename_i active
    have active : y.call.processor.egfxActive = true := by simpa using active
    have surfaced := initSurface_sound activated env
    have still : (y.initSurface env).call.processor.egfxActive = true := by
      rw [initSurface_call]
      rcases initSurface_cases y.call env.toEnvironment with same | ⟨id, _, found⟩
      · rw [same]
        exact active
      · rw [found]
        exact active
    split
    · exact surfaced
    · rename_i surface held
      split
      · exact surfaced
      · exact afterSend_sound (encodeAndSend_sound surfaced env data force regions still held) env force _

theorem taken_sound (sound : x.Sound library) (env : CodingEnvironment Input) :
    { x.refresh library env with call := x.call.taken env.toEnvironment }.Sound library := by
  have processor : (x.call.taken env.toEnvironment).processor = (x.refresh library env).call.processor := by
    unfold refresh
    dsimp only
    split
    · exact Call.taken_processor x.call env.toEnvironment
    · exact Call.taken_processor x.call env.toEnvironment
  exact (refresh_sound sound env).keep (x.call.taken env.toEnvironment) (processor ▸ .refl _)

theorem processAvc_sound (sound : x.Sound library) (env : CodingEnvironment Input) (data : Bytes) :
    (x.processAvc library env data).call.Sound library := by
  have taken := taken_sound sound env
  unfold processAvc
  dsimp only
  split
  · exact refresh_sound sound env
  · split
    · exact taken.keep _ ⟨rfl, rfl, rfl, rfl, rfl⟩
    · exact transmit_sound taken env data _ _ _

/-- ClearCodec works without an encoder and leaves the transport as its check has found it. -/
theorem clearcodec_processor {c : Call} {env : Environment} {result : Call × Bool} (run : c.ClearcodecRun env data result) :
    let p := c.processor.refreshClearcodec env
    let q := result.1.processor
    q.h264Encoder = p.h264Encoder ∧ q.egfxActive = p.egfxActive ∧ q.egfxHandle = p.egfxHandle ∧
      q.egfxSender = p.egfxSender := by
  have prepared : (c.clearcodecPrepared env).processor = c.processor.refreshClearcodec env := by
    unfold Call.clearcodecPrepared
    rw [Call.hear_processor, Call.hear_processor]
    rfl
  dsimp only
  rw [← prepared]
  cases run with
  | unavailable go => rw [prepared]; exact ⟨rfl, rfl, rfl, rfl⟩
  | unready => rw [Call.hear_processor, prepared]; exact ⟨rfl, rfl, rfl, rfl⟩
  | unchanged same => exact ⟨rfl, rfl, rfl, rfl⟩
  | surfaceless => exact ⟨rfl, rfl, rfl, rfl⟩
  | tried run =>
    cases run with
    | unsent go => rw [Call.hear_processor]; exact ⟨rfl, rfl, rfl, rfl⟩
    | queued queue accepted => exact ⟨rfl, rfl, rfl, rfl⟩

theorem processClearcodec_sound (sound : x.Sound library) (env : CodingEnvironment Input) (data : Bytes) :
    (x.processClearcodec env data).1.Sound library := by
  obtain ⟨encoder, active, handle, sender⟩ := clearcodec_processor (x.call.processClearcodec_run env.toEnvironment data)
  obtain ⟨dropped, kept⟩ := x.call.processor.refreshClearcodec_encoder env.toEnvironment
  refine idle_sound (sound.chain.addOther fun entry member => ?_) ?_ (encoder.trans dropped) fun on => ?_
  · obtain ⟨event, _, same⟩ := List.mem_filterMap.mp member
    cases event <;> cases same <;> rfl
  · dsimp only [processClearcodec]
    rw [dropped]
    rfl
  · have on := active.symm.trans on
    change (x.call.processClearcodec env.toEnvironment data).1.processor.egfxHandle = true ∧
      (x.call.processClearcodec env.toEnvironment data).1.processor.egfxSender = true
    rw [handle, sender, kept on]
    rw [kept on] at on
    exact sound.wired on

theorem finish_alike (c : Call) (env : Environment) (data : Bytes) (sent : Bool) :
    c.processor.SendsAlike (c.finish env data sent).1.processor := by
  cases sent with
  | true =>
    rw [Call.finish_sent]
    exact ⟨rfl, rfl, rfl, rfl, rfl⟩
  | false =>
    unfold Call.finish
    simp only [Bool.not_false, Bool.true_and, Bool.false_eq_true, if_false]
    split
    · split <;> exact ⟨rfl, rfl, rfl, rfl, rfl⟩
    · exact .refl _

theorem processAt_sound (sound : x.Sound library) (env : CodingEnvironment Input) (data : Bytes) :
    (x.processAt library env data).1.Sound library := by
  unfold processAt
  split
  · have run := processAvc_sound sound env data
    generalize x.processAvc library env data = outcome at run
    cases outcome with
    | returned y => exact run
    | passed y sent => exact run.keep _ (finish_alike y.call env.toEnvironment data sent)
  · rename_i noAvc
    split
    · exact processClearcodec_sound sound env data
    · rename_i noClearcodec
      refine sound.keep ((x.call.processAt env.toEnvironment data).1) ?_
      have run := x.call.processAt_run env.toEnvironment data
      generalize x.call.processAt env.toEnvironment data = result at run
      cases run with
      | skipped => exact .refl _
      | resized width height => exact ⟨rfl, rfl, rfl, rfl, rfl⟩
      | clearcodec path run => exact absurd path noClearcodec
      | avc path run => exact absurd path noAvc
      | plain unshared => exact finish_alike x.call env.toEnvironment data false

def Outcome.avc : Outcome E → Call.AvcOutcome
  | .returned x => .returned x.call
  | .passed x sentViaEgfx => .passed x.call sentViaEgfx

variable (library) in
theorem encodeAndSend_call (x : PictureCall E) (env : CodingEnvironment Input) (data : Bytes) (surface : Nat) (force : Bool)
    (regions : List Region) : ∃ first,
      x.call.encodeAndSend { env.toEnvironment with firstSubframe := first } data surface force regions =
        ((x.encodeAndSend library env data surface force regions).1.call,
          (x.encodeAndSend library env data surface force regions).2) := by
  unfold encodeAndSend
  dsimp only
  split
  · exact ⟨_, rfl⟩
  · exact ⟨env.firstSubframe, rfl⟩

theorem afterSend_call (x : PictureCall E) (env : CodingEnvironment Input) (force sent : Bool) :
    (x.afterSend library env force sent).call = x.call.afterSend env.toEnvironment force sent := by
  unfold afterSend
  dsimp only
  split <;> rfl

variable (library) in
theorem transmit_call (x : PictureCall E) (env : CodingEnvironment Input) (data : Bytes) (ready force : Bool)
    (regions : List Region) : ∃ first,
      x.call.transmit { env.toEnvironment with firstSubframe := first } data ready force regions =
        (x.transmit library env data ready force regions).avc := by
  unfold transmit Call.transmit
  dsimp only
  have surfaced := initSurface_call (x := x.activate env ready) env
  split
  · rename_i off
    exact ⟨env.firstSubframe, if_pos off⟩
  · rename_i on
    generalize (x.activate env ready).initSurface env = y at surfaced
    obtain ⟨first, sending⟩ : ∃ first, ∀ surface, y.call.processor.egfxSurfaceId = some surface →
        y.call.encodeAndSend { env.toEnvironment with firstSubframe := first } data surface force regions =
        ((y.encodeAndSend library env data surface force regions).1.call,
          (y.encodeAndSend library env data surface force regions).2) := by
      cases held : y.call.processor.egfxSurfaceId with
      | none => exact ⟨env.firstSubframe, nofun⟩
      | some surface =>
        obtain ⟨first, sending⟩ := y.encodeAndSend_call library env data surface force regions
        exact ⟨first, fun _ same => Option.some.inj same ▸ sending⟩
    refine ⟨first, (if_neg on).trans ?_⟩
    change (match (Call.initSurface (x.activate env ready).call env.toEnvironment).processor.egfxSurfaceId with
      | none => Call.AvcOutcome.passed (Call.initSurface (x.activate env ready).call env.toEnvironment) false
      | some surface =>
        if ((Call.initSurface (x.activate env ready).call env.toEnvironment).processor.egfxHandle &&
            !env.frameView.frameReadiness.isReady) = true then
          .returned (Call.initSurface (x.activate env ready).call env.toEnvironment)
        else
          let (c, sent) := (Call.initSurface (x.activate env ready).call env.toEnvironment).encodeAndSend
            { env.toEnvironment with firstSubframe := first } data surface force regions
          .passed (c.afterSend env.toEnvironment force sent) sent) = _
    rw [← surfaced]
    cases held : y.call.processor.egfxSurfaceId with
    | none => rfl
    | some surface =>
      dsimp only
      split
      · rfl
      · rw [sending surface held]
        exact congrArg (Call.AvcOutcome.passed · _) (afterSend_call _ env force _).symm

variable (library) in
theorem processAvc_call (x : PictureCall E) (env : CodingEnvironment Input) (data : Bytes) : ∃ first,
    x.call.processAvc { env.toEnvironment with firstSubframe := first } data = (x.processAvc library env data).avc := by
  have refreshed : (x.refresh library env).call = x.call.refresh env.toEnvironment := by
    unfold refresh
    dsimp only
    split <;> rfl
  unfold processAvc
  dsimp only
  split
  · rename_i late
    refine ⟨env.firstSubframe, (if_pos late).trans ?_⟩
    exact congrArg Call.AvcOutcome.returned refreshed.symm
  · rename_i prompt
    split
    · rename_i unchanged
      exact ⟨env.firstSubframe, (if_neg prompt).trans (if_pos unchanged)⟩
    · rename_i changed
      obtain ⟨first, sending⟩ := transmit_call library
        { x.refresh library env with call := x.call.taken env.toEnvironment } env data
        (Call.readyForAvc env.toEnvironment) (x.call.forced env.toEnvironment) (x.call.damage env.toEnvironment data)
      exact ⟨first, ((if_neg prompt).trans (if_neg changed)).trans sending⟩

theorem processAt_proceeds {c : Call} {env : Environment} (proceeds : c.proceeds env = true) :
    c.processAt env data = if c.clearcodecBranch env then c.processClearcodec env data
      else if c.processor.egfxShared then (c.processAvc env data).finished env data
      else c.finish env data false := by
  obtain ⟨busy, still⟩ := (Bool.and_eq_true _ _).mp proceeds
  have busy : ¬ c.skips = true := by simpa using busy
  unfold Call.processAt
  refine (if_neg busy).trans ?_
  split
  · rename_i width height resize ready
    rw [Call.resizes, resize, ready] at still
    cases still
  · rfl

/-- Following the encoder changes nothing: this is the call of `process_at` for
the lengths that the encoder returns. -/
theorem processAt_call (x : PictureCall E) (env : CodingEnvironment Input) (data : Bytes) : ∃ first,
    x.call.processAt { env.toEnvironment with firstSubframe := first } data =
      ((x.processAt library env data).1.call, (x.processAt library env data).2) := by
  unfold processAt
  split
  · rename_i path
    obtain ⟨first, same⟩ := x.processAvc_call library env data
    obtain ⟨both, shared⟩ := (Bool.and_eq_true _ _).mp path
    obtain ⟨proceeds, other⟩ := (Bool.and_eq_true _ _).mp both
    have other : ¬ x.call.clearcodecBranch env.toEnvironment = true := by simpa using other
    refine ⟨first, (@processAt_proceeds data x.call { env.toEnvironment with firstSubframe := first } proceeds).trans ?_⟩
    refine ((if_neg other).trans (if_pos shared)).trans ?_
    rw [same]
    cases x.processAvc library env data <;> rfl
  · split
    · rename_i path
      obtain ⟨proceeds, clearcodec⟩ := (Bool.and_eq_true _ _).mp path
      exact ⟨env.firstSubframe, (processAt_proceeds proceeds).trans (if_pos clearcodec)⟩
    · exact ⟨env.firstSubframe, rfl⟩

end PictureCall

end HyprRdp
