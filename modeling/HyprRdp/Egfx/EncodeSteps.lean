import HyprRdp.Egfx.PackedHeaders

namespace HyprRdp

structure PackedHeaderPlan where
  sequence : Bool
  slice : Bool

def vaEncPackedHeaderSequence : Nat := 1

def vaEncPackedHeaderSlice : Nat := 4

def packedHeaderPlan (selected : Nat) (isIdr : Bool) : PackedHeaderPlan where
  sequence := isIdr && decide (selected &&& vaEncPackedHeaderSequence ≠ 0)
  slice := decide (selected &&& vaEncPackedHeaderSlice ≠ 0)

/-- What stays the same over the life of an encoder: its parameters, the packed headers its driver takes, and the pools
that the driver has made for it. No two surfaces of a pool have the same id. -/
structure VaapiDevice where
  parameters : VaapiParameters
  made : parameters.Made
  packedHeaders : Nat
  inputSurfaces : Nat → Nat
  reconSurfaces : Nat → Nat
  codedBuffers : Nat → Nat
  reconSurfaces_distinct : reconSurfaces 0 ≠ reconSurfaces 1

/-- The errors of the driver in one encode, and what it has coded where there is none. -/
structure DriverAnswers where
  image : Option String
  sequence : Option String
  rateControl : Option String
  packedSequence : Option String
  picture : Option String
  slice : Option String
  packedSlice : Option String
  render : Option String
  coded : Except String (List UInt8)

/-- A frame that is returned: what was submitted for it, what the driver has coded, and its bytes. -/
structure VaapiFrame where
  isIdr : Bool
  inputSurface : Nat
  picture : EncPictureParams
  slice : EncSliceParams
  packedSlice : Option (List UInt8 × Nat)
  coded : List UInt8
  data : List UInt8

structure VaapiEncoderState where
  dmabufInputSurface : Option Nat
  currentInputSurface : Nat
  currentReconSurface : Nat
  currentCodedBuffer : Nat
  references : Option DpbEntry
  cachedSpsPps : Option (List UInt8)
  frameCount : Nat
  idrBase : Nat
  idrCount : Nat
  forceIdr : Bool

namespace VaapiEncoderState

def new : VaapiEncoderState where
  dmabufInputSurface := none
  currentInputSurface := 0
  currentReconSurface := 0
  currentCodedBuffer := 0
  references := none
  cachedSpsPps := none
  frameCount := 0
  idrBase := 0
  idrCount := 0
  forceIdr := true

def force (s : VaapiEncoderState) : VaapiEncoderState := { s with forceIdr := true }

def isIdrFrame (s : VaapiEncoderState) : Bool := s.forceIdr || decide (s.frameCount % idrInterval = 0)

/-- The reconstruction and the coded buffer of a call are passed over whether it fails or not. -/
def passSurfaces (s : VaapiEncoderState) : VaapiEncoderState := { s with
  currentReconSurface := (s.currentReconSurface + 1) % reconSurfacePoolSize
  currentCodedBuffer := (s.currentCodedBuffer + 1) % codedBufferCount }

/-- An IDR picture takes a number, begins the count of frames anew and drops the references. -/
def startPicture (s : VaapiEncoderState) (isIdr : Bool) : VaapiEncoderState :=
  if isIdr then { s with idrBase := s.frameCount, idrCount := s.idrCount + 1, references := none } else s

/-- The buffers that only an IDR picture has. Its parameter sets are cached once their packed buffers are there. -/
def sequenceBuffers (s : VaapiEncoderState) (d : VaapiDevice) (isIdr : Bool) (answers : DriverAnswers) :
    VaapiEncoderState × Option String :=
  if isIdr then
    match answers.sequence.or answers.rateControl with
    | some message => (s, some message)
    | none =>
      if (packedHeaderPlan d.packedHeaders isIdr).sequence then
        match answers.packedSequence with
        | some message => (s, some message)
        | none => ({ s with cachedSpsPps := some d.parameters.generateSpsPps }, none)
      else (s, none)
  else (s, none)

/-- The parameter sets of an IDR picture are cached, and generated where the driver left them out; any other picture
gets the cached ones. -/
def withParameterSets (s : VaapiEncoderState) (d : VaapiDevice) (isIdr : Bool) (coded : List UInt8) :
    VaapiEncoderState × List UInt8 :=
  if isIdr then
    match AnnexB.extractSpsPps coded with
    | some spsPps => ({ s with cachedSpsPps := some spsPps }, coded)
    | none =>
      let spsPps := d.parameters.generateSpsPps
      ({ s with cachedSpsPps := some spsPps }, spsPps ++ coded)
  else
    match s.cachedSpsPps with
    | some spsPps => (s, spsPps ++ coded)
    | none => (s, coded)

/-- What `encode` and `encode_dmabuf` have in common once the input is in place. -/
def submit (s : VaapiEncoderState) (d : VaapiDevice) (isIdr : Bool) (inputSurface reconIdx codedIdx : Nat)
    (answers : DriverAnswers) : VaapiEncoderState × Except String VaapiFrame :=
  let idrPicId := h264IdrPicId s.idrCount
  let started := s.startPicture isIdr
  let numbering := sliceNumbering (started.frameCount - started.idrBase)
  let frameNum := numbering.1
  let poc := numbering.2
  let plan := packedHeaderPlan d.packedHeaders isIdr
  let sequence := started.sequenceBuffers d isIdr answers
  let s := sequence.1
  let packedFailed := if plan.slice then answers.packedSlice else none
  match (((sequence.2.or answers.picture).or answers.slice).or packedFailed).or answers.render with
  | some message => (s, .error message)
  | none =>
    let rendered := { s with references := some ⟨d.reconSurfaces reconIdx, frameNum, poc⟩ }
    match answers.coded with
    | .error message => (rendered, .error message)
    | .ok coded =>
      let stored := rendered.withParameterSets d isIdr coded
      ({ stored.1 with forceIdr := false, frameCount := stored.1.frameCount + 1 }, .ok {
        isIdr
        inputSurface
        picture := d.parameters.buildPictureParams s.references (d.reconSurfaces reconIdx) (d.codedBuffers codedIdx) isIdr
          frameNum poc
        slice := d.parameters.buildSliceParams s.references isIdr idrPicId poc
        packedSlice := if plan.slice then some (generatePackedSliceHeader isIdr frameNum idrPicId poc) else none
        coded
        data := stored.2 })

/-- `encode`: the frame is uploaded to the next input surface. -/
def encode (s : VaapiEncoderState) (d : VaapiDevice) (answers : DriverAnswers) : VaapiEncoderState × Except String VaapiFrame :=
  let uploading := { s.passSurfaces with currentInputSurface := (s.currentInputSurface + 1) % inputSurfacePoolSize }
  match answers.image with
  | some message => (uploading, .error message)
  | none =>
    uploading.submit d s.isIdrFrame (d.inputSurfaces s.currentInputSurface) s.currentReconSurface s.currentCodedBuffer answers

/-- `encode_dmabuf`: the NV12 buffer is imported by the first call that can. -/
def encodeDmabuf (s : VaapiEncoderState) (d : VaapiDevice) (imported : Except String Nat) (answers : DriverAnswers) :
    VaapiEncoderState × Except String VaapiFrame :=
  match s.dmabufInputSurface, imported with
  | none, .error message => (s, .error message)
  | none, .ok surface =>
    { s.passSurfaces with dmabufInputSurface := some surface }.submit d s.isIdrFrame surface s.currentReconSurface
      s.currentCodedBuffer answers
  | some surface, _ =>
    s.passSurfaces.submit d s.isIdrFrame surface s.currentReconSurface s.currentCodedBuffer answers

end VaapiEncoderState

end HyprRdp
