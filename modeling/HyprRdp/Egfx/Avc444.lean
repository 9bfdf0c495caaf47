import HyprRdp.Egfx.Avc444Regions

namespace HyprRdp

inductive Avc444FrameEncoding
  | lumaAndChroma | luma | chroma
  deriving DecidableEq, Repr

/-- An encoded frame; of the H.264 payloads only the length matters here. -/
structure Avc444EncodedFrame where
  encoding : Avc444FrameEncoding
  stream1 : Nat
  stream2 : Nat
  stream1Regions : List Region
  stream2Regions : List Region
  deriving DecidableEq, Repr

def avc444DimensionsSupported (width height : Nat) : Bool :=
  decide (width ≠ 0 ∧ height ≠ 0 ∧ width % 4 = 0 ∧ height % 2 = 0)

/-- The delta state of the AVC444v2 encoder, without the H.264 encoder inside it. -/
structure Avc444Encoder where
  width : Nat
  height : Nat
  planes : Avc444Planes
  lumaReference : Option Yuv420
  chromaReference : Option Yuv420
  lastChromaEncoded : Bool
  lastLumaReferenceRegions : List Region
  lastChromaReferenceRegions : List Region
  forceChromaOnNextFrame : Bool

/-- Nothing is sent for a subframe without regions or payload: a missing first
one empties the frame, a missing second one turns it into a luma frame. The
flag says whether the chroma reference is to be committed. -/
def normalizeAvc444EncodedFrame (frame : Avc444EncodedFrame) : Avc444EncodedFrame × Bool :=
  if frame.stream1Regions.isEmpty ∨ frame.stream1 = 0 then (⟨.luma, 0, 0, [], []⟩, false)
  else
    match frame.encoding with
    | .luma => ({ frame with stream2 := 0, stream2Regions := [] }, false)
    | .chroma => ({ frame with stream2 := 0, stream2Regions := [] }, true)
    | .lumaAndChroma =>
      if frame.stream2Regions.isEmpty ∨ frame.stream2 = 0 then
        ({ frame with encoding := .luma, stream2 := 0, stream2Regions := [] }, false)
      else (frame, true)

namespace Avc444Encoder

def new (width height : Nat) : Option Avc444Encoder :=
  if avc444DimensionsSupported width height then
    some
      { width
        height
        planes := .initial
        lumaReference := none
        chromaReference := none
        lastChromaEncoded := false
        lastLumaReferenceRegions := []
        lastChromaReferenceRegions := []
        forceChromaOnNextFrame := true }
  else none

/-- What the next encode will send: the changed regions of the luma subframe,
the changed places of the packed chroma subframe, and their frame regions. -/
structure Selection where
  lumaRegions : List Region
  chromaRegions : List Region
  chromaProtocolRegions : List Region

def select (enc : Avc444Encoder) (force : Bool) (candidateRegions : List Region) : Selection :=
  let full := [Region.full enc.width enc.height]
  if force then ⟨full, full, full⟩
  else
    let luma := detectYuv420Regions enc.width enc.height enc.planes.main enc.lumaReference candidateRegions
    let (chroma, protocol) :=
      detectAvc444V2ChromaRegions enc.width enc.height enc.planes.aux enc.chromaReference candidateRegions
    if protocol.isEmpty then ⟨luma, [], []⟩ else ⟨luma, chroma, protocol⟩

/-- The H.264 calls: the luma subframe if it has regions, then the chroma one
if that has. The two results are those of the first and of the second call. -/
def encodeSubframes (selection : Selection) (first second : Except String Nat) : Except String Avc444EncodedFrame :=
  if selection.lumaRegions.isEmpty then do
    let chroma ← first
    return ⟨.chroma, chroma, 0, selection.chromaProtocolRegions, []⟩
  else do
    let luma ← first
    if selection.chromaProtocolRegions.isEmpty then return ⟨.luma, luma, 0, selection.lumaRegions, []⟩
    else
      let chroma ← second
      return ⟨.lumaAndChroma, luma, chroma, selection.lumaRegions, selection.chromaProtocolRegions⟩

/-- The candidates are converted, on the grid or as the whole frame. -/
def convert (enc : Avc444Encoder) (bgra : Bytes) (stride : Nat) (force : Bool) (candidateRegions : List Region) :
    Avc444Encoder × List Region :=
  let candidates :=
    if force then [Region.full enc.width enc.height]
    else alignAvc444V2ProtocolRegions enc.width enc.height candidateRegions
  ({ enc with
      forceChromaOnNextFrame := false
      planes := bgraToAvc444V2PlaneRegions enc.width enc.height bgra stride candidates enc.planes }, candidates)

/-- The selected subframes are encoded; what was selected is remembered for the commit. -/
def encodeSelection (enc : Avc444Encoder) (selection : Selection) (first second : Except String Nat) :
    Avc444Encoder × Except String Avc444EncodedFrame :=
  if selection.lumaRegions.isEmpty ∧ selection.chromaProtocolRegions.isEmpty then
    ({ enc with lastChromaEncoded := false, lastLumaReferenceRegions := [], lastChromaReferenceRegions := [] },
      .ok ⟨.luma, 0, 0, [], []⟩)
  else
    let enc :=
      { enc with
        lastLumaReferenceRegions := selection.lumaRegions
        lastChromaReferenceRegions := selection.chromaRegions }
    match encodeSubframes selection first second with
    | .error message => (enc, .error message)
    | .ok frame =>
      let (frame, commitChroma) := normalizeAvc444EncodedFrame frame
      ({ enc with lastChromaEncoded := commitChroma }, .ok frame)

/-- `debugFullFrame` stands for the environment variable that forces full frames. -/
def forcing (enc : Avc444Encoder) (debugFullFrame : Bool) : Bool := debugFullFrame || enc.forceChromaOnNextFrame

def encode (enc : Avc444Encoder) (bgra : Bytes) (stride : Nat) (candidateRegions : List Region)
    (debugFullFrame : Bool) (first second : Except String Nat) : Avc444Encoder × Except String Avc444EncodedFrame :=
  if bgra.len < enc.height * stride then
    (enc, .error s!"BGRA buffer too small: {bgra.len} < {enc.height * stride}")
  else
    let force := enc.forcing debugFullFrame
    let (enc, candidates) := enc.convert bgra stride force candidateRegions
    enc.encodeSelection (enc.select force candidates) first second

def commitReference (enc : Avc444Encoder) : Avc444Encoder :=
  { enc with
    lumaReference := updateYuv420ReferenceRegions enc.lumaReference enc.width enc.height enc.planes.main
      enc.lastLumaReferenceRegions
    chromaReference :=
      if enc.lastChromaEncoded then
        updateYuv420ReferenceRegions enc.chromaReference enc.width enc.height enc.planes.aux
          enc.lastChromaReferenceRegions
      else enc.chromaReference }

def forceFullFrame (enc : Avc444Encoder) : Avc444Encoder := { enc with forceChromaOnNextFrame := true }

def forceIdr (enc : Avc444Encoder) : Avc444Encoder := enc.forceFullFrame

end Avc444Encoder

end HyprRdp
