import HyprRdp.Egfx.Avc444
import HyprRdp.Egfx.Avc420

namespace HyprRdp

inductive EgfxFrameCodec
  | avc420 | avc444
  deriving DecidableEq, Repr

/-- An AVC420 frame is its H.264 payload, of which the length matters. -/
inductive EncodedEgfxFrame
  | avc420 (len : Nat)
  | avc444 (frame : Avc444EncodedFrame)
  deriving DecidableEq, Repr

inductive EncodedFrameState
  | sendable | skipped | invalid
  deriving DecidableEq, Repr

def EncodedEgfxFrame.state : EncodedEgfxFrame → EncodedFrameState
  | .avc420 len => if len = 0 then .skipped else if 32 < len then .sendable else .invalid
  | .avc444 frame =>
    let stream1HasRegions := !frame.stream1Regions.isEmpty
    let stream2HasRegions := !frame.stream2Regions.isEmpty
    let stream1HasData := frame.stream1 != 0
    let stream2HasData := frame.stream2 != 0
    if !stream1HasData && !stream2HasData && !stream1HasRegions && !stream2HasRegions then .skipped
    else
      match frame.encoding with
      | .luma | .chroma =>
        if stream1HasRegions && !stream2HasRegions && !stream2HasData then
          if stream1HasData then .sendable else .skipped
        else .invalid
      | .lumaAndChroma =>
        if stream1HasRegions && stream2HasRegions then
          if stream1HasData && stream2HasData then .sendable else .skipped
        else .invalid

inductive H264BackendPolicy
  | auto | software | vaapi
  deriving DecidableEq, Repr

namespace H264BackendPolicy

def allowsVaapi (policy : H264BackendPolicy) : Bool := policy != .software

def allowsSoftware (policy : H264BackendPolicy) : Bool := policy != .vaapi

def allowsRuntimeSoftwareFallback (policy : H264BackendPolicy) : Bool := policy == .auto

end H264BackendPolicy

inductive FrameEncoder
  | vaapi
  | software
  | softwareAvc444 (enc : Avc444Encoder)

/-- Whether the two H.264 libraries can be initialised at a given moment. -/
structure H264Backends where
  vaapi : Bool
  software : Bool
  deriving DecidableEq, Repr

namespace FrameEncoder

/-- The error of a failed initialisation is only logged, so it is not kept. -/
def new (policy : H264BackendPolicy) (backends : H264Backends) : Option FrameEncoder :=
  if policy.allowsVaapi && backends.vaapi then some .vaapi
  else if !policy.allowsSoftware then none
  else if backends.software then some .software
  else none

def newAvc444SoftwareOnly (width height : Nat) (backends : H264Backends) : Option FrameEncoder :=
  if backends.software then (Avc444Encoder.new width height).map .softwareAvc444 else none

def newAvc444 (policy : H264BackendPolicy) (width height : Nat) (backends : H264Backends) : Option FrameEncoder :=
  if !policy.allowsSoftware then none else newAvc444SoftwareOnly width height backends

def newForEgfxCodec (policy : H264BackendPolicy) (codec : EgfxFrameCodec) (width height : Nat)
    (backends : H264Backends) : Option FrameEncoder :=
  match codec with
  | .avc420 => new policy backends
  | .avc444 => newAvc444 policy width height backends

def newSoftwareOnlyForEgfxCodec (codec : EgfxFrameCodec) (width height : Nat) (backends : H264Backends) :
    Option FrameEncoder :=
  match codec with
  | .avc420 => if backends.software then some .software else none
  | .avc444 => newAvc444SoftwareOnly width height backends

def isVaapi : FrameEncoder → Bool
  | .vaapi => true
  | .software | .softwareAvc444 _ => false

def forceIdr : FrameEncoder → FrameEncoder
  | .softwareAvc444 enc => .softwareAvc444 enc.forceIdr
  | enc => enc

def forceFullFrame : FrameEncoder → FrameEncoder
  | .softwareAvc444 enc => .softwareAvc444 enc.forceFullFrame
  | enc => enc

def commitAfterSend (frame : EncodedEgfxFrame) (enc : FrameEncoder) : FrameEncoder :=
  match frame, enc with
  | .avc444 _, .softwareAvc444 enc => .softwareAvc444 enc.commitReference
  | _, enc => enc

/-- `first` and `second` are the results of the H.264 calls this encode makes. -/
def encodeEgfxFrame (enc : FrameEncoder) (codec : EgfxFrameCodec) (bgra : Bytes) (stride : Nat)
    (candidateRegions : List Region) (debugFullFrame : Bool) (first second : Except String Nat) :
    FrameEncoder × Except String EncodedEgfxFrame :=
  match codec, enc with
  | .avc420, .vaapi | .avc420, .software => (enc, first.map .avc420)
  | .avc420, .softwareAvc444 _ => (enc, .error "AVC444 encoder requires encode_avc444")
  | .avc444, .vaapi => (enc, .error "AVC444 encoding requires software encoder")
  | .avc444, .software => (enc, .error "AVC444 encoding requires AVC444 encoder")
  | .avc444, .softwareAvc444 inner =>
    let (inner, result) := inner.encode bgra stride candidateRegions debugFullFrame first second
    (.softwareAvc444 inner, result.map .avc444)

end FrameEncoder

/-- The stream shape the server accepts for an encoding. -/
def validateAvc444SendShape (encoding : Avc444FrameEncoding) (stream1Regions : List Avc420Region)
    (stream2Data : Option Nat) (stream2Regions : Option (List Avc420Region)) : Option Avc444FrameEncoding :=
  let hasStream2Regions := stream2Regions.any fun regions => !regions.isEmpty
  let shapeFits :=
    match encoding with
    | .lumaAndChroma => stream2Data.isSome && hasStream2Regions
    | .luma | .chroma => stream2Data.isNone && stream2Regions.isNone
  if shapeFits && !stream1Regions.isEmpty then some encoding else none

/-- A frame as it goes over the wire to the client. -/
inductive WireFrame
  | avc420 (surface : Nat) (regions : List Avc420Region)
  | avc444 (surface : Nat) (encoding : Avc444FrameEncoding) (stream1Regions stream2Regions : List Avc420Region)
  | clearcodec (surface : Nat) (rectangles : List Edges)
  deriving DecidableEq, Repr

/-- `accepted` stands for everything on the way out that may refuse the frame:
the readiness check before the reservation, the reservation, the server, and
the hand-over to the event channel. -/
def sendTrackedEncodedEgfxFrame (surface : Nat) (frame : EncodedEgfxFrame) (damageRegions : List Region)
    (width height quality : Nat) (accepted : Bool) : Option WireFrame :=
  if frame.state ≠ .sendable then none
  else
    match frame with
    | .avc420 _ =>
      let regions := damageRegionsToAvc420 damageRegions width height quality
      let regions := if regions.isEmpty then [avc420FullFrameRegion width height quality] else regions
      if accepted then some (.avc420 surface regions) else none
    | .avc444 frame =>
      let stream1Regions := damageRegionsToAvc420 frame.stream1Regions width height quality
      let hasStream2 := !frame.stream2Regions.isEmpty
      let stream2Regions :=
        if hasStream2 then some (damageRegionsToAvc420 frame.stream2Regions width height quality) else none
      let stream2Data := if hasStream2 then some frame.stream2 else none
      match validateAvc444SendShape frame.encoding stream1Regions stream2Data stream2Regions with
      | none => none
      | some encoding =>
        if accepted then some (.avc444 surface encoding stream1Regions (stream2Regions.getD [])) else none

namespace Avc444Encoder

variable {enc after : Avc444Encoder} {bgra : Bytes} {stride : Nat} {regions : List Region} {debugFullFrame : Bool}
  {sel : Selection} {first second : Except String Nat} {result : Except String Avc444EncodedFrame}
  {frame : Avc444EncodedFrame}

/-- Two states of an encoder with the same references for frames of the same size. -/
structure SameReferences (enc after : Avc444Encoder) : Prop where
  width : after.width = enc.width
  height : after.height = enc.height
  luma : after.lumaReference = enc.lumaReference
  chroma : after.chromaReference = enc.chromaReference

theorem SameReferences.trans {last : Avc444Encoder} (first : enc.SameReferences after)
    (second : after.SameReferences last) : enc.SameReferences last :=
  ⟨second.width.trans first.width, second.height.trans first.height, second.luma.trans first.luma,
    second.chroma.trans first.chroma⟩

theorem convert_same {force : Bool} {converted : Avc444Encoder} {candidates : List Region}
    (run : enc.convert bgra stride force regions = (converted, candidates)) : enc.SameReferences converted := by
  cases run
  exact ⟨rfl, rfl, rfl, rfl⟩

theorem encodeSelection_same (run : enc.encodeSelection sel first second = (after, result)) :
    enc.SameReferences after ∧ after.planes = enc.planes := by
  unfold encodeSelection at run
  dsimp only at run
  split at run
  · cases run
    exact ⟨⟨rfl, rfl, rfl, rfl⟩, rfl⟩
  · split at run
    · cases run
      exact ⟨⟨rfl, rfl, rfl, rfl⟩, rfl⟩
    · cases run
      exact ⟨⟨rfl, rfl, rfl, rfl⟩, rfl⟩

/-- Before the first delivery, and where a full frame is forced, the luma subframe is the whole frame. -/
theorem select_whole {force : Bool} (whole : force = true ∨ enc.lumaReference = none) (candidates : List Region) :
    (enc.select force candidates).lumaRegions = [.full enc.width enc.height] := by
  unfold select
  split
  · rfl
  · rename_i unforced
    have luma : detectYuv420Regions enc.width enc.height enc.planes.main enc.lumaReference candidates =
        [.full enc.width enc.height] := by
      rw [whole.resolve_left unforced]
      rfl
    dsimp only
    split
    · exact luma
    · exact luma

/-- A frame that can be sent, by the subframes it carries. -/
inductive Carried (sel : Selection) (second : Except String Nat) (frame : Avc444EncodedFrame) (commitChroma : Bool) :
    Prop
  | chroma (still : sel.lumaRegions = []) (encoding : frame.encoding = .chroma)
    (regions : frame.stream1Regions = sel.chromaProtocolRegions) (alone : frame.stream2Regions = [])
    (commit : commitChroma = true)
  | luma (encoding : frame.encoding = .luma) (regions : frame.stream1Regions = sel.lumaRegions)
    (alone : frame.stream2Regions = []) (commit : commitChroma = false)
    (without : sel.chromaProtocolRegions = [] ∨ second = .ok 0)
  | both (encoding : frame.encoding = .lumaAndChroma) (regions : frame.stream1Regions = sel.lumaRegions)
    (chroma : frame.stream2Regions = sel.chromaProtocolRegions) (commit : commitChroma = true)

/-- The first stream is always the payload of the first call. -/
theorem encodeSubframes_first (run : encodeSubframes sel first second = .ok frame) : first = .ok frame.stream1 := by
  unfold encodeSubframes at run
  cases first with
  | error message => split at run <;> cases run
  | ok length =>
    split at run
    · cases run
      rfl
    · dsimp only [bind, Except.bind] at run
      split at run
      · cases run
        rfl
      · cases second with
        | error message => cases run
        | ok chroma => cases run; rfl

/-- An emptied frame cannot be sent. -/
theorem normalized_filled
    (sendable : (EncodedEgfxFrame.avc444 (normalizeAvc444EncodedFrame frame).1).state = .sendable) :
    ¬ (frame.stream1Regions.isEmpty = true ∨ frame.stream1 = 0) := by
  intro empty
  unfold normalizeAvc444EncodedFrame at sendable
  rw [if_pos empty] at sendable
  cases sendable

theorem normalized_carried (run : encodeSubframes sel first second = .ok frame)
    (sendable : (EncodedEgfxFrame.avc444 (normalizeAvc444EncodedFrame frame).1).state = .sendable) :
    Carried sel second (normalizeAvc444EncodedFrame frame).1 (normalizeAvc444EncodedFrame frame).2 := by
  have filled := normalized_filled sendable
  unfold encodeSubframes at run
  unfold normalizeAvc444EncodedFrame
  rw [if_neg filled]
  cases first with
  | error message => split at run <;> cases run
  | ok length =>
    split at run
    · rename_i still
      cases run
      exact .chroma (List.isEmpty_iff.mp still) rfl rfl rfl rfl
    · dsimp only [bind, Except.bind] at run
      split at run
      · rename_i without
        cases run
        exact .luma rfl rfl rfl rfl (.inl (List.isEmpty_iff.mp without))
      · rename_i changed
        cases second with
        | error message => cases run
        | ok chroma =>
          cases run
          dsimp only
          split
          · rename_i dropped
            exact .luma rfl rfl rfl rfl (.inr (congrArg Except.ok (dropped.resolve_left changed)))
          · exact .both rfl rfl rfl rfl

/-- An encode that yields a sendable frame remembers what it selected. -/
theorem encodeSelection_sendable (run : enc.encodeSelection sel first second = (after, .ok frame))
    (sendable : (EncodedEgfxFrame.avc444 frame).state = .sendable) :
    after.lastLumaReferenceRegions = sel.lumaRegions ∧ after.lastChromaReferenceRegions = sel.chromaRegions ∧
    Carried sel second frame after.lastChromaEncoded := by
  unfold encodeSelection at run
  dsimp only at run
  split at run
  · cases run
    cases sendable
  · split at run
    · cases run
    · rename_i encoded
      cases run
      exact ⟨rfl, rfl, normalized_carried encoded sendable⟩

/-- A frame can be sent only if its first H.264 call had a payload. -/
theorem encodeSelection_first (run : enc.encodeSelection sel first second = (after, .ok frame))
    (sendable : (EncodedEgfxFrame.avc444 frame).state = .sendable) : ∃ length, length ≠ 0 ∧ first = .ok length := by
  unfold encodeSelection at run
  dsimp only at run
  split at run
  · cases run
    cases sendable
  · split at run
    · cases run
    · rename_i encoded
      cases run
      exact ⟨_, fun empty => normalized_filled sendable (.inr empty), encodeSubframes_first encoded⟩

/-- The encoder converts the candidates, selects, and keeps its references. -/
theorem encode_cases (run : enc.encode bgra stride regions debugFullFrame first second = (after, result)) :
    (after = enc ∧ ∃ message, result = .error message) ∨
    ∃ converted candidates, enc.convert bgra stride (enc.forcing debugFullFrame) regions = (converted, candidates) ∧
      converted.encodeSelection (converted.select (enc.forcing debugFullFrame) candidates) first second =
        (after, result) := by
  unfold encode at run
  split at run
  · cases run
    exact .inl ⟨rfl, _, rfl⟩
  · exact .inr ⟨_, _, rfl, run⟩

theorem encode_first (run : enc.encode bgra stride regions debugFullFrame first second = (after, .ok frame))
    (sendable : (EncodedEgfxFrame.avc444 frame).state = .sendable) : ∃ length, length ≠ 0 ∧ first = .ok length := by
  rcases encode_cases run with ⟨_, _, failed⟩ | ⟨_, _, _, selection⟩
  · cases failed
  · exact encodeSelection_first selection sendable

theorem encode_same (run : enc.encode bgra stride regions debugFullFrame first second = (after, result)) :
    enc.SameReferences after := by
  rcases encode_cases run with ⟨rfl, _⟩ | ⟨converted, candidates, conversion, selection⟩
  · exact ⟨rfl, rfl, rfl, rfl⟩
  · exact (convert_same conversion).trans (encodeSelection_same selection).1

end Avc444Encoder

/-- An encode that succeeds is one of AVC420, or one of the AVC444 encoder. -/
theorem encodeEgfxFrame_ok {enc inner : FrameEncoder} {codec : EgfxFrameCodec} {bgra : Bytes} {stride : Nat}
    {regions : List Region} {debugFullFrame : Bool} {first second : Except String Nat} {frame : EncodedEgfxFrame}
    (run : enc.encodeEgfxFrame codec bgra stride regions debugFullFrame first second = (inner, .ok frame)) :
    (codec = .avc420 ∧ (enc = .vaapi ∨ enc = .software) ∧ ∃ len, frame = .avc420 len) ∨
    (codec = .avc444 ∧ ∃ encoder after encoded, enc = .softwareAvc444 encoder ∧ inner = .softwareAvc444 after ∧
      frame = .avc444 encoded ∧
      encoder.encode bgra stride regions debugFullFrame first second = (after, .ok encoded)) := by
  unfold FrameEncoder.encodeEgfxFrame at run
  split at run
  · cases first with
    | error message => cases run
    | ok len => cases run; exact .inl ⟨rfl, .inl rfl, len, rfl⟩
  · cases first with
    | error message => cases run
    | ok len => cases run; exact .inl ⟨rfl, .inr rfl, len, rfl⟩
  · cases run
  · cases run
  · cases run
  · rename_i encoder
    rcases encoded : encoder.encode bgra stride regions debugFullFrame first second with ⟨after, result⟩
    rw [encoded] at run
    cases result with
    | error message => cases run
    | ok encodedFrame => cases run; exact .inr ⟨rfl, encoder, after, encodedFrame, rfl, rfl, rfl, encoded⟩

end HyprRdp
