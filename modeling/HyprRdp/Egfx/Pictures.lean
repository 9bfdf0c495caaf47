import HyprRdp.Egfx.FrameEncoder
import Mathlib.Data.Option.Basic
import Mathlib.Logic.Function.Basic

namespace HyprRdp

/-- Frames between two periodic IDR pictures. -/
def idrInterval : Nat := 30

def inputSurfacePoolSize : Nat := 3

def codedBufferCount : Nat := 3

def maxNumRefFrames : Nat := 1

def reconSurfacePoolSize : Nat := maxNumRefFrames + 1

/-- A P picture names the picture whose reconstruction it is predicted from,
when there is one. -/
inductive PictureKind
  | idr | i
  | p (reference : Option Nat)
  deriving DecidableEq, Repr

/-- A coded picture. No two pictures of a run have the same number. -/
structure Picture where
  number : Nat
  kind : PictureKind
  deriving DecidableEq, Repr

/-- The picture of this number, coded when `reference` is what the encoder holds. -/
structure Picture.Continues (picture : Picture) (number : Nat) (reference : Option Nat) : Prop where
  number : picture.number = number
  kind : picture.kind = .idr ∨
    ∃ earlier, reference = some earlier ∧ (picture.kind = .i ∨ picture.kind = .p (some earlier))

/-- The length of a bitstream and that of the parameter sets in it. -/
structure Bitstream where
  len : Nat
  spsPps : Nat
  spsPps_le : spsPps ≤ len
  deriving DecidableEq, Repr

def extractSpsPps (data : Bitstream) : Option Nat := if data.spsPps = 0 then none else some data.spsPps

theorem extractSpsPps_pos {data : Bitstream} {len : Nat} (found : extractSpsPps data = some len) :
    0 < len ∧ len ≤ data.len := by
  obtain ⟨filled, same⟩ := Option.ite_none_left_eq_some.mp found
  cases same
  exact ⟨Nat.pos_of_ne_zero filled, data.spsPps_le⟩

/-- What an encoder returns: the picture it has coded, and the length of its data. -/
structure CodedPicture where
  picture : Picture
  len : Nat

structure DpbEntry where
  surfaceId : Nat
  frameNum : Nat
  poc : Nat
  deriving DecidableEq, Repr

/-- The slice as it is declared to the driver. -/
structure SliceParams where
  isIdr : Bool
  idrPicId : Nat
  poc : Nat
  refPicList0 : Option DpbEntry

/-- How far the driver takes an encode. `sequencePacked` says whether the packed
sequence header was there when a buffer failed, `overwritten` whether a failed
rendering has touched the reconstruction. -/
inductive VaapiRun
  | buffersFailed (sequencePacked : Bool) (message : String)
  | renderFailed (overwritten : Bool) (message : String)
  | readFailed (message : String)
  | coded (data : Bitstream)

/-- What stays the same over the life of a VA-API encoder: the parameter sets it
generates, and whether its driver takes them packed. -/
structure VaapiConfig where
  spsPps : Nat
  packedSequence : Bool
  spsPps_pos : 0 < spsPps

/-- `reconSurfaces` is the driver's side: the picture whose reconstruction a surface holds. -/
structure VaapiEncoder where
  config : VaapiConfig
  dmabufInputSurface : Bool
  currentInputSurface : Nat
  currentReconSurface : Nat
  currentCodedBuffer : Nat
  references : Option DpbEntry
  cachedSpsPps : Option Nat
  frameCount : Nat
  idrBase : Nat
  idrCount : Nat
  forceIdr : Bool
  reconSurfaces : Nat → Option Nat

/-- `frame_num` and `pic_order_cnt_lsb`, counted from the last IDR picture. -/
def sliceNumbering (framesSinceIdr : Nat) : Nat × Nat := (framesSinceIdr % 256, framesSinceIdr * 2 % 256)

def h264IdrPicId (idrSequence : Nat) : Nat := idrSequence % 16

namespace VaapiEncoder

def new (config : VaapiConfig) : VaapiEncoder where
  config
  dmabufInputSurface := false
  currentInputSurface := 0
  currentReconSurface := 0
  currentCodedBuffer := 0
  references := none
  cachedSpsPps := none
  frameCount := 0
  idrBase := 0
  idrCount := 0
  forceIdr := true
  reconSurfaces _ := none

def force (enc : VaapiEncoder) : VaapiEncoder := { enc with forceIdr := true }

def isIdrFrame (enc : VaapiEncoder) : Bool := enc.forceIdr || enc.frameCount % idrInterval == 0

/-- The driver's part: an IDR slice is coded alone, any other is predicted from
the surface that its reference list names first. That surface is of no use if
the picture itself is reconstructed into it. -/
def pictureKind (enc : VaapiEncoder) (slice : SliceParams) (recon : Nat) : PictureKind :=
  if slice.isIdr then .idr
  else .p (slice.refPicList0.bind fun entry =>
    if entry.surfaceId = recon then none else enc.reconSurfaces entry.surfaceId)

/-- The parameter sets of an IDR picture are cached, and generated where the
driver left them out; any other picture gets the cached ones. -/
def prependSpsPps (enc : VaapiEncoder) (isIdr : Bool) (data : Bitstream) : Option Nat × Nat :=
  if isIdr then
    match extractSpsPps data with
    | some spsPps => (some spsPps, data.len)
    | none => (some enc.config.spsPps, enc.config.spsPps + data.len)
  else
    match enc.cachedSpsPps with
    | some spsPps => (enc.cachedSpsPps, spsPps + data.len)
    | none => (enc.cachedSpsPps, data.len)

/-- What `encode` and `encode_dmabuf` have in common once the input is in place. -/
def codePicture (enc : VaapiEncoder) (number : Nat) (run : VaapiRun) : VaapiEncoder × Except String CodedPicture :=
  let isIdr := enc.isIdrFrame
  let recon := enc.currentReconSurface
  let idrBase := if isIdr then enc.frameCount else enc.idrBase
  let (frameNum, poc) := sliceNumbering (enc.frameCount - idrBase)
  let started := { enc with
    currentReconSurface := (recon + 1) % reconSurfacePoolSize
    currentCodedBuffer := (enc.currentCodedBuffer + 1) % codedBufferCount
    idrBase
    idrCount := if isIdr then enc.idrCount + 1 else enc.idrCount
    references := if isIdr then none else enc.references }
  let packed := if isIdr && enc.config.packedSequence then some enc.config.spsPps else enc.cachedSpsPps
  let slice : SliceParams := ⟨isIdr, h264IdrPicId enc.idrCount, poc, started.references⟩
  match run with
  | .buffersFailed sequencePacked message =>
    ({ started with cachedSpsPps := if sequencePacked then packed else enc.cachedSpsPps }, .error message)
  | .renderFailed overwritten message =>
    ({ started with
        cachedSpsPps := packed
        reconSurfaces :=
          if overwritten then Function.update enc.reconSurfaces recon none else enc.reconSurfaces }, .error message)
  | .readFailed message =>
    ({ started with
        cachedSpsPps := packed
        reconSurfaces := Function.update enc.reconSurfaces recon (some number)
        references := some ⟨recon, frameNum, poc⟩ }, .error message)
  | .coded data =>
    let (cachedSpsPps, len) := { started with cachedSpsPps := packed }.prependSpsPps isIdr data
    ({ started with
        cachedSpsPps
        reconSurfaces := Function.update enc.reconSurfaces recon (some number)
        references := some ⟨recon, frameNum, poc⟩
        forceIdr := false
        frameCount := enc.frameCount + 1 }, .ok ⟨⟨number, started.pictureKind slice recon⟩, len⟩)

/-- `image` is the error of the input image, if it cannot be made. The
reconstruction and the coded buffer are passed over all the same. -/
def encode (enc : VaapiEncoder) (number : Nat) (image : Option String) (run : VaapiRun) :
    VaapiEncoder × Except String CodedPicture :=
  let uploading := { enc with currentInputSurface := (enc.currentInputSurface + 1) % inputSurfacePoolSize }
  match image with
  | some message =>
    ({ uploading with
        currentReconSurface := (enc.currentReconSurface + 1) % reconSurfacePoolSize
        currentCodedBuffer := (enc.currentCodedBuffer + 1) % codedBufferCount }, .error message)
  | none => uploading.codePicture number run

/-- `surface` is the error of the import of the NV12 buffer, which happens once. -/
def encodeDmabuf (enc : VaapiEncoder) (number : Nat) (surface : Option String) (run : VaapiRun) :
    VaapiEncoder × Except String CodedPicture :=
  match enc.dmabufInputSurface, surface with
  | false, some message => (enc, .error message)
  | _, _ => { enc with dmabufInputSurface := true }.codePicture number run

/-- The next picture is an IDR picture, or one predicted from the picture `reference`. -/
structure Refers (enc : VaapiEncoder) (reference : Nat) : Prop where
  entry : ∃ entry, enc.references = some entry ∧ entry.surfaceId ≠ enc.currentReconSurface ∧
    enc.reconSurfaces entry.surfaceId = some reference
  cached : ∃ spsPps, enc.cachedSpsPps = some spsPps ∧ 0 < spsPps

def Follows (enc : VaapiEncoder) (reference : Option Nat) : Prop :=
  enc.forceIdr = true ∨ ∃ number, reference = some number ∧ enc.Refers number

variable {enc after : VaapiEncoder} {number : Nat} {reference : Option Nat} {run : VaapiRun} {coded : CodedPicture}

theorem new_follows (config : VaapiConfig) : (new config).Follows reference := .inl rfl

theorem force_follows : enc.force.Follows reference := .inl rfl

theorem prependSpsPps_pos {isIdr : Bool} {data : Bitstream}
    (cached : isIdr = false → ∃ spsPps, enc.cachedSpsPps = some spsPps ∧ 0 < spsPps) :
    0 < (enc.prependSpsPps isIdr data).2 ∧
    ∃ spsPps, (enc.prependSpsPps isIdr data).1 = some spsPps ∧ 0 < spsPps := by
  unfold prependSpsPps
  cases isIdr with
  | true =>
    rw [if_pos rfl]
    cases found : extractSpsPps data with
    | some spsPps =>
      obtain ⟨filled, inside⟩ := extractSpsPps_pos found
      exact ⟨by dsimp only; omega, spsPps, rfl, filled⟩
    | none =>
      have filled := enc.config.spsPps_pos
      exact ⟨by dsimp only; omega, _, rfl, filled⟩
  | false =>
    rw [if_neg Bool.false_ne_true]
    obtain ⟨spsPps, same, filled⟩ := cached rfl
    rw [same]
    exact ⟨by dsimp only; omega, spsPps, rfl, filled⟩

/-- A picture that is coded is an IDR picture or predicted from the one before,
its data is not empty, and the next picture is predicted from it. -/
theorem codePicture_ok (follows : enc.Follows reference) (step : enc.codePicture number run = (after, .ok coded)) :
    coded.picture.Continues number reference ∧ 0 < coded.len ∧ after.Follows (some number) := by
  cases run with
  | buffersFailed sequencePacked message => cases step
  | renderFailed overwritten message => cases step
  | readFailed message => cases step
  | coded data =>
    have cached : enc.isIdrFrame = false → ∃ spsPps,
        (if enc.isIdrFrame && enc.config.packedSequence then some enc.config.spsPps else enc.cachedSpsPps) =
          some spsPps ∧ 0 < spsPps := by
      intro predicted
      rw [predicted, Bool.false_and, if_neg Bool.false_ne_true]
      rcases follows with forced | ⟨_, _, refers⟩
      · rw [isIdrFrame, forced, Bool.true_or] at predicted
        cases predicted
      · exact refers.cached
    cases step
    obtain ⟨filled, kept⟩ := @prependSpsPps_pos { enc with
      currentReconSurface := _, currentCodedBuffer := _, idrBase := _, idrCount := _, references := _
      cachedSpsPps := _ } enc.isIdrFrame data cached
    have other : enc.currentReconSurface ≠ (enc.currentReconSurface + 1) % reconSurfacePoolSize := by
      unfold reconSurfacePoolSize maxNumRefFrames
      omega
    refine ⟨⟨rfl, ?_⟩, filled, .inr ⟨number, rfl, ⟨_, rfl, other, Function.update_self _ _ _⟩, kept⟩⟩
    dsimp only [pictureKind]
    cases isIdr : enc.isIdrFrame with
    | true => exact .inl rfl
    | false =>
      rcases follows with forced | ⟨earlier, same, refers⟩
      · rw [isIdrFrame, forced, Bool.true_or] at isIdr
        cases isIdr
      · obtain ⟨entry, recorded, other, held⟩ := refers.entry
        refine .inr ⟨earlier, same, .inr ?_⟩
        simp only [Bool.false_eq_true, if_false, recorded, Option.bind_some, if_neg other, held]

theorem encode_ok {image : Option String} (follows : enc.Follows reference)
    (step : enc.encode number image run = (after, .ok coded)) :
    coded.picture.Continues number reference ∧ 0 < coded.len ∧ after.Follows (some number) := by
  cases image with
  | some message => cases step
  | none =>
    refine codePicture_ok ?_ step
    exact follows.imp (fun forced => forced) fun ⟨earlier, same, entry, cached⟩ => ⟨earlier, same, entry, cached⟩

theorem encodeDmabuf_ok {surface : Option String} (follows : enc.Follows reference)
    (step : enc.encodeDmabuf number surface run = (after, .ok coded)) :
    coded.picture.Continues number reference ∧ 0 < coded.len ∧ after.Follows (some number) := by
  unfold encodeDmabuf at step
  split at step
  · cases step
  · refine codePicture_ok ?_ step
    exact follows.imp (fun forced => forced) fun ⟨earlier, same, entry, cached⟩ => ⟨earlier, same, entry, cached⟩

end VaapiEncoder

inductive H264FrameType
  | skip | idr | i | p
  deriving DecidableEq, Repr

def isH264Keyframe : H264FrameType → Bool
  | .idr | .i => true
  | .skip | .p => false

/-- What one call of the OpenH264 encoder yields. -/
structure OpenH264Output where
  frameType : H264FrameType
  data : Bitstream
  picture : Picture

/-- The OpenH264 encoder, as far as its documentation goes: an empty output codes
nothing, a forced encoder codes an IDR picture, and without long-term references
any other P picture is predicted from the picture coded last. -/
structure OpenH264 (E Input : Type) where
  new : E
  forceIntraFrame : E → E
  encode : E → Input → Nat → E × Except String OpenH264Output
  reference : E → Option Nat
  reference_new : reference new = none
  reference_force : ∀ encoder, reference (forceIntraFrame encoder) = none
  skipped : ∀ encoder input number after output, encode encoder input number = (after, .ok output) →
    output.data.len = 0 → reference after = reference encoder
  coded : ∀ encoder input number after output, encode encoder input number = (after, .ok output) →
    output.data.len ≠ 0 →
    output.picture.Continues number (reference encoder) ∧ reference after = some number

/-- What the environment answers to an H.264 encode: the errors of the input
image, of the checks of a software encode, and of the video processor, how far
the driver gets, and the input of the OpenH264 library. -/
structure CodingInput (Input : Type) where
  config : VaapiConfig
  image : Option String
  vaapi : VaapiRun
  rejected : Option String
  software : Input
  vpp : Option String

/-- The encoder of this program over the library. -/
structure H264Encoder (E : Type) where
  encoder : E
  cachedSpsPps : Option Nat

namespace H264Encoder

variable {E Input : Type} (library : OpenH264 E Input)

def new : H264Encoder E := ⟨library.new, none⟩

def forceIdr (enc : H264Encoder E) : H264Encoder E := { enc with encoder := library.forceIntraFrame enc.encoder }

/-- `apply_sps_pps_cache`: what is cached then, and the length of the data. -/
def applySpsPpsCache (enc : H264Encoder E) (output : OpenH264Output) : Option Nat × Nat :=
  if output.data.len = 0 then (enc.cachedSpsPps, 0)
  else if isH264Keyframe output.frameType then
    ((extractSpsPps output.data).or enc.cachedSpsPps, output.data.len)
  else (enc.cachedSpsPps, enc.cachedSpsPps.getD 0 + output.data.len)

def encode (enc : H264Encoder E) (number : Nat) (input : CodingInput Input) :
    H264Encoder E × Except String CodedPicture :=
  match input.rejected with
  | some message => (enc, .error message)
  | none =>
    match library.encode enc.encoder input.software number with
    | (encoder, .error message) => ({ enc with encoder }, .error message)
    | (encoder, .ok output) =>
      let (cachedSpsPps, len) := enc.applySpsPpsCache output
      (⟨encoder, cachedSpsPps⟩, .ok ⟨output.picture, len⟩)

def Follows (enc : H264Encoder E) (reference : Option Nat) : Prop :=
  library.reference enc.encoder = none ∨ library.reference enc.encoder = reference

variable {library} {enc after : H264Encoder E} {number : Nat} {reference : Option Nat} {input : CodingInput Input}
  {coded : CodedPicture}

theorem new_follows : (new library).Follows library reference := .inl library.reference_new

theorem forceIdr_follows : (enc.forceIdr library).Follows library reference := .inl (library.reference_force _)

theorem applySpsPpsCache_len (enc : H264Encoder E) (output : OpenH264Output) :
    (enc.applySpsPpsCache output).2 = 0 ↔ output.data.len = 0 := by
  unfold applySpsPpsCache
  by_cases empty : output.data.len = 0
  · rw [if_pos empty]
    exact ⟨fun _ => empty, fun _ => rfl⟩
  · rw [if_neg empty]
    split
    · rfl
    · dsimp only
      omega

/-- An output without data leaves the reference alone; any other is a picture of the chain. -/
theorem encode_ok (follows : enc.Follows library reference)
    (step : enc.encode library number input = (after, .ok coded)) :
    (coded.len = 0 ∧ after.Follows library reference) ∨
    (0 < coded.len ∧ coded.picture.Continues number reference ∧ after.Follows library (some number)) := by
  unfold encode at step
  split at step
  · cases step
  · split at step
    · cases step
    · rename_i encoder output run
      cases step
      by_cases empty : output.data.len = 0
      · have kept := library.skipped _ _ _ _ _ run empty
        exact .inl ⟨(enc.applySpsPpsCache_len output).mpr empty, follows.imp kept.trans kept.trans⟩
      · obtain ⟨continues, next⟩ := library.coded _ _ _ _ _ run empty
        have filled := mt (enc.applySpsPpsCache_len output).mp empty
        refine .inr ⟨Nat.pos_of_ne_zero filled, ⟨continues.number, ?_⟩, .inr next⟩
        refine continues.kind.imp_right fun ⟨earlier, same, kind⟩ => ⟨earlier, ?_, kind⟩
        rcases follows with due | held
        · exact absurd (due.symm.trans same) nofun
        · exact held.symm.trans same

end H264Encoder

/-- The encoder behind a `FrameEncoder`, with what it holds of the pictures it
has coded. The pictures of an AVC444 encoder are not followed. -/
inductive PictureCoder (E : Type)
  | vaapi (enc : VaapiEncoder)
  | software (enc : H264Encoder E)
  | softwareAvc444

inductive EncoderBackend
  | vaapi | software | softwareAvc444
  deriving DecidableEq, Repr

def FrameEncoder.backend : FrameEncoder → EncoderBackend
  | .vaapi => .vaapi
  | .software => .software
  | .softwareAvc444 _ => .softwareAvc444

namespace FrameEncoder

variable {enc inner : FrameEncoder}

theorem forceIdr_backend (enc : FrameEncoder) : enc.forceIdr.backend = enc.backend := by cases enc <;> rfl

theorem forceFullFrame_backend (enc : FrameEncoder) : enc.forceFullFrame.backend = enc.backend := by cases enc <;> rfl

theorem commitAfterSend_backend (enc : FrameEncoder) (frame : EncodedEgfxFrame) :
    (enc.commitAfterSend frame).backend = enc.backend := by
  cases frame <;> cases enc <;> rfl

theorem encodeEgfxFrame_backend {codec : EgfxFrameCodec} {bgra : Bytes} {stride : Nat} {regions : List Region}
    {debugFullFrame : Bool} {first second : Except String Nat} {result : Except String EncodedEgfxFrame}
    (run : enc.encodeEgfxFrame codec bgra stride regions debugFullFrame first second = (inner, result)) :
    inner.backend = enc.backend := by
  cases codec <;> cases enc <;> cases run <;> rfl

/-- An AVC420 frame has the length that the encoder's H.264 call returned. -/
theorem encodeEgfxFrame_avc420 {bgra : Bytes} {stride : Nat} {regions : List Region} {debugFullFrame : Bool}
    {first second : Except String Nat} {frame : EncodedEgfxFrame}
    (run : enc.encodeEgfxFrame .avc420 bgra stride regions debugFullFrame first second = (inner, .ok frame)) :
    first.map EncodedEgfxFrame.avc420 = .ok frame := by
  cases enc with
  | vaapi => exact (Prod.mk.inj run).2
  | software => exact (Prod.mk.inj run).2
  | softwareAvc444 enc => cases run

end FrameEncoder

namespace PictureCoder

variable {E Input : Type} (library : OpenH264 E Input)

def new (config : VaapiConfig) : FrameEncoder → PictureCoder E
  | .vaapi => .vaapi (.new config)
  | .software => .software (.new library)
  | .softwareAvc444 _ => .softwareAvc444

def forceIdr : PictureCoder E → PictureCoder E
  | .vaapi enc => .vaapi enc.force
  | .software enc => .software (enc.forceIdr library)
  | .softwareAvc444 => .softwareAvc444

def encode (number : Nat) (input : CodingInput Input) : PictureCoder E → PictureCoder E × Except String CodedPicture
  | .vaapi enc =>
    let (enc, result) := enc.encode number input.image input.vaapi
    (.vaapi enc, result)
  | .software enc =>
    let (enc, result) := enc.encode library number input
    (.software enc, result)
  | .softwareAvc444 => (.softwareAvc444, .error "AVC444 encoder requires encode_avc444")

def encodeDmabuf (number : Nat) (input : CodingInput Input) : PictureCoder E → PictureCoder E × Except String CodedPicture
  | .vaapi enc =>
    let (enc, result) := enc.encodeDmabuf number input.image input.vaapi
    (.vaapi enc, result)
  | coder => (coder, .error "DMA-BUF encode requires VA-API backend")

def backend : PictureCoder E → EncoderBackend
  | .vaapi _ => .vaapi
  | .software _ => .software
  | .softwareAvc444 => .softwareAvc444

/-- The next picture is an IDR picture or one that follows `reference`. -/
def Follows (reference : Option Nat) : PictureCoder E → Prop
  | .vaapi enc => enc.Follows reference
  | .software enc => enc.Follows library reference
  | .softwareAvc444 => True

variable {library} {coder after : PictureCoder E} {number : Nat} {reference : Option Nat} {input : CodingInput Input}
  {coded : CodedPicture}

theorem new_follows (config : VaapiConfig) (enc : FrameEncoder) : (new library config enc).Follows library reference := by
  cases enc with
  | vaapi => exact VaapiEncoder.new_follows config
  | software => exact H264Encoder.new_follows
  | softwareAvc444 enc => trivial

theorem new_backend (config : VaapiConfig) (enc : FrameEncoder) : (new library config enc).backend = enc.backend := by
  cases enc <;> rfl

theorem forceIdr_backend (coder : PictureCoder E) : (coder.forceIdr library).backend = coder.backend := by
  cases coder <;> rfl

theorem encode_backend (coder : PictureCoder E) (number : Nat) (input : CodingInput Input) :
    (coder.encode library number input).1.backend = coder.backend := by
  cases coder <;> rfl

theorem forceIdr_follows (coder : PictureCoder E) : (coder.forceIdr library).Follows library reference := by
  cases coder with
  | vaapi enc => exact VaapiEncoder.force_follows
  | software enc => exact H264Encoder.forceIdr_follows
  | softwareAvc444 => trivial

theorem encode_ok (follows : coder.Follows library reference)
    (step : coder.encode library number input = (after, .ok coded)) :
    (coded.len = 0 ∧ after.Follows library reference) ∨
    (0 < coded.len ∧ coded.picture.Continues number reference ∧ after.Follows library (some number)) := by
  cases coder with
  | vaapi enc =>
    rcases run : enc.encode number input.image input.vaapi with ⟨inner, result⟩
    rw [encode, run] at step
    cases step
    obtain ⟨continues, filled, next⟩ := VaapiEncoder.encode_ok follows run
    exact .inr ⟨filled, continues, next⟩
  | software enc =>
    rcases run : enc.encode library number input with ⟨inner, result⟩
    rw [encode, run] at step
    cases step
    exact H264Encoder.encode_ok follows run
  | softwareAvc444 => cases step

theorem encodeDmabuf_ok (follows : coder.Follows library reference)
    (step : coder.encodeDmabuf number input = (after, .ok coded)) :
    coded.picture.Continues number reference ∧ after.Follows library (some number) := by
  cases coder with
  | vaapi enc =>
    rcases run : enc.encodeDmabuf number input.image input.vaapi with ⟨inner, result⟩
    rw [encodeDmabuf, run] at step
    cases step
    obtain ⟨continues, _, next⟩ := VaapiEncoder.encodeDmabuf_ok follows run
    exact ⟨continues, next⟩
  | software enc => cases step
  | softwareAvc444 => cases step

end PictureCoder

end HyprRdp
