import HyprRdp.Capture.Frame
import HyprRdp.Egfx.AnnexB
import HyprRdp.Egfx.BitWriter
import HyprRdp.Egfx.Pictures

namespace HyprRdp

/-- Of the profiles that VA-API knows an encoder is only made for these. -/
inductive VaProfile
  | h264Main | h264High
  deriving DecidableEq, Repr

inductive VaRateControl
  | vbr | cqp
  deriving DecidableEq, Repr

def h264DefaultPicInitQp : Nat := 26

structure VaapiRateControlPolicy where
  configMode : VaRateControl
  picInitQp : Nat
  bitsPerSecond : Nat
  targetPercentage : Nat
  initialQp : Nat
  minQp : Nat
  rcFlags : Nat
  maxQp : Nat

def vaapiRateControlPolicy (bitrate quality : Nat) (rateControl : H264RateControl) : VaapiRateControlPolicy :=
  let qp := min quality 51
  match rateControl with
  | .vbr => {
    configMode := .vbr
    picInitQp := h264DefaultPicInitQp
    bitsPerSecond := bitrate
    targetPercentage := 100
    initialQp := qp
    minQp := 0
    rcFlags := 0
    maxQp := max qp 1 }
  | .cqp => {
    configMode := .cqp
    picInitQp := qp
    bitsPerSecond := 0
    targetPercentage := 100
    initialQp := qp
    minQp := qp
    rcFlags := 1 <<< 1
    maxQp := qp }

/-- What an encoder is made for. -/
structure VaapiParameters where
  profile : VaProfile
  levelIdc : Nat
  width : Nat
  height : Nat
  fps : Nat
  bitrate : Nat
  quality : Nat
  rateControl : H264RateControl

/-- Level, macroblocks a second, macroblocks a frame, macroblocks of the DPB and bitrate of Table A-1. -/
def h264Levels : List (Nat × Nat × Nat × Nat × Nat) := [
  (30, 40500, 1620, 8100, 10000),
  (31, 108000, 3600, 18000, 14000),
  (32, 216000, 5120, 20480, 20000),
  (40, 245760, 8192, 32768, 20000),
  (41, 245760, 8192, 32768, 50000),
  (42, 522240, 8704, 34816, 50000),
  (50, 589824, 22080, 110400, 135000),
  (51, 983040, 36864, 184320, 240000),
  (52, 2073600, 36864, 184320, 240000)]

/-- The lowest level that admits the stream. -/
def h264Level (profile : VaProfile) (bitrate width height fps maxDecFrameBuffering : Nat) : Option Nat :=
  let widthMbs := (width + 15) / 16
  let heightMbs := (height + 15) / 16
  let frameMbs := widthMbs * heightMbs
  if frameMbs = 0 ∨ fps = 0 then none
  else
    let mbsPerSec := frameMbs * fps
    let bitrateFactor := if profile = .h264High then 1500 else 1200
    (h264Levels.find? fun (_, maxMbps, maxFs, maxDpbMbs, maxBr) =>
      let maxDpbFrames := min (maxDpbMbs / frameMbs) 16
      decide (mbsPerSec ≤ maxMbps ∧ frameMbs ≤ maxFs ∧ widthMbs * widthMbs ≤ 8 * maxFs ∧
        heightMbs * heightMbs ≤ 8 * maxFs ∧ maxDecFrameBuffering ≤ maxDpbFrames ∧
        bitrate ≤ maxBr * bitrateFactor)).map Prod.fst

def vaInvalidId : Nat := 0xffffffff

def vaInvalidSurface : Nat := 0xffffffff

def vaPictureH264Invalid : Nat := 0x01

def vaPictureH264ShortTermReference : Nat := 0x08

def sliceTypeI : Nat := 2

def sliceTypeP : Nat := 0

structure PictureH264 where
  pictureId : Nat
  frameIdx : Nat
  flags : Nat
  topFieldOrderCnt : Nat
  bottomFieldOrderCnt : Nat
  deriving DecidableEq, Repr

def PictureH264.none : PictureH264 := ⟨vaInvalidSurface, 0, vaPictureH264Invalid, 0, 0⟩

/-- An entry of the DPB as it is declared to the driver. -/
def DpbEntry.picture (entry : DpbEntry) : PictureH264 :=
  ⟨entry.surfaceId, entry.frameNum, vaPictureH264ShortTermReference, entry.poc, entry.poc⟩

/-- An array of this length that begins with these pictures. -/
def pictureArray (length : Nat) (entries : List DpbEntry) : List PictureH264 :=
  let pictures := (entries.take length).map DpbEntry.picture
  pictures ++ List.replicate (length - pictures.length) PictureH264.none

structure EncSequenceParams where
  seqParameterSetId : Nat
  levelIdc : Nat
  intraPeriod : Nat
  intraIdrPeriod : Nat
  ipPeriod : Nat
  bitsPerSecond : Nat
  maxNumRefFrames : Nat
  pictureWidthInMbs : Nat
  pictureHeightInMbs : Nat
  seqFields : Nat
  bitDepthLumaMinus8 : Nat
  bitDepthChromaMinus8 : Nat
  vuiParametersPresentFlag : Nat
  vuiFields : Nat
  numUnitsInTick : Nat
  timeScale : Nat

structure EncPictureParams where
  currPic : PictureH264
  referenceFrames : List PictureH264
  codedBuf : Nat
  picParameterSetId : Nat
  seqParameterSetId : Nat
  frameNum : Nat
  picInitQp : Nat
  numRefIdxL0ActiveMinus1 : Nat
  numRefIdxL1ActiveMinus1 : Nat
  chromaQpIndexOffset : Int
  secondChromaQpIndexOffset : Int
  picFields : Nat

structure EncSliceParams where
  macroblockAddress : Nat
  numMacroblocks : Nat
  macroblockInfo : Nat
  sliceType : Nat
  picParameterSetId : Nat
  idrPicId : Nat
  picOrderCntLsb : Nat
  numRefIdxActiveOverrideFlag : Nat
  numRefIdxL0ActiveMinus1 : Nat
  refPicList0 : List PictureH264
  refPicList1 : List PictureH264
  cabacInitIdc : Nat
  sliceQpDelta : Int
  disableDeblockingFilterIdc : Nat
  sliceAlphaC0OffsetDiv2 : Int
  sliceBetaOffsetDiv2 : Int

def h264SeqFieldsValue : Nat :=
  let chromaFormatIdc := 1
  let frameMbsOnlyFlag := 1
  let direct8x8InferenceFlag := 1
  let log2MaxFrameNumMinus4 := 4
  let picOrderCntType := 0
  let log2MaxPicOrderCntLsbMinus4 := 4
  chromaFormatIdc ||| (frameMbsOnlyFlag <<< 2) ||| (direct8x8InferenceFlag <<< 5) ||| (log2MaxFrameNumMinus4 <<< 6) |||
    (picOrderCntType <<< 10) ||| (log2MaxPicOrderCntLsbMinus4 <<< 12)

def h264VuiFieldsValue : Nat :=
  let timingInfoPresentFlag := 1
  let bitstreamRestrictionFlag := 1
  let log2MaxMvLengthHorizontal := 16
  let log2MaxMvLengthVertical := 16
  let motionVectorsOverPicBoundariesFlag := 1
  (timingInfoPresentFlag <<< 1) ||| (bitstreamRestrictionFlag <<< 2) ||| (log2MaxMvLengthHorizontal <<< 3) |||
    (log2MaxMvLengthVertical <<< 8) ||| (motionVectorsOverPicBoundariesFlag <<< 15)

def h264PicFieldsValue (isIdr : Bool) (transform8x8ModeFlag : Nat) : Nat :=
  let idrPicFlag := isIdr.toNat
  let referencePicFlag := 1
  let entropyCodingModeFlag := 1
  let deblockingFilterControlPresentFlag := 1
  idrPicFlag ||| (referencePicFlag <<< 1) ||| (entropyCodingModeFlag <<< 3) ||| (transform8x8ModeFlag <<< 8) |||
    (deblockingFilterControlPresentFlag <<< 9)

def startCodeBytes : List UInt8 := [0x00, 0x00, 0x00, 0x01]

open BitWriter.Call

/-- The calls that write a slice header. -/
def packedSliceHeaderCalls (isIdr : Bool) (frameNum idrPicId poc : Nat) : List BitWriter.Call :=
  [writeBits 0 1, writeBits 3 2, writeBits (if isIdr then 5 else 1) 5,
    writeUe 0, writeUe (if isIdr then 7 else 5), writeUe 0, writeBits (frameNum &&& 0xff) 8] ++
  (if isIdr then [writeUe idrPicId] else []) ++
  [writeBits (poc &&& 0xff) 8] ++
  (if isIdr then [] else [writeBits 0 1, writeBits 0 1]) ++
  (if isIdr then [writeBits 0 1, writeBits 0 1] else [writeBits 0 1, writeUe 0]) ++
  [writeSe 0, writeUe 0, writeSe 0, writeSe 0]

/-- The packed slice header and its length in bits. -/
def generatePackedSliceHeader (isIdr : Bool) (frameNum idrPicId poc : Nat) : List UInt8 × Nat :=
  let bits := BitWriter.new.run (packedSliceHeaderCalls isIdr frameNum idrPicId poc)
  let bitLength := 32 + bits.bitLen
  (startCodeBytes ++ bits.finishWithEmulationPrevention, bitLength)

namespace VaapiParameters

/-- What an encoder is made for, as far as its headers depend on it. -/
structure Made (p : VaapiParameters) : Prop where
  level : p.levelIdc < 256
  width : 2 ≤ p.width ∧ p.width < 2 ^ 32 ∧ p.width % 2 = 0
  height : 2 ≤ p.height ∧ p.height < 2 ^ 32 ∧ p.height % 2 = 0
  fps : p.fps < 2 ^ 31

/-- `new` refuses extents that are zero or odd, and streams that no level admits. -/
theorem made_of_level {p : VaapiParameters} {bitsPerSecond : Nat} (width : p.width ≠ 0 ∧ p.width % 2 = 0 ∧ p.width < 2 ^ 32)
    (height : p.height ≠ 0 ∧ p.height % 2 = 0 ∧ p.height < 2 ^ 32)
    (level : h264Level p.profile bitsPerSecond p.width p.height p.fps maxNumRefFrames = some p.levelIdc) : p.Made := by
  unfold h264Level at level
  dsimp only at level
  obtain ⟨filled, level⟩ := Option.ite_none_left_eq_some.mp level
  obtain ⟨entry, found, same⟩ := Option.map_eq_some_iff.mp level
  have listed := List.mem_of_find?_eq_some found
  have admits := List.find?_some found
  rw [decide_eq_true_eq] at admits
  have small : ∀ entry ∈ h264Levels, entry.1 < 256 ∧ entry.2.1 < 2 ^ 31 := by decide
  obtain ⟨levelSmall, rateSmall⟩ := small entry listed
  have rate : p.fps ≤ (p.width + 15) / 16 * ((p.height + 15) / 16) * p.fps :=
    Nat.le_mul_of_pos_left _ (Nat.pos_of_ne_zero fun none => filled (.inl none))
  exact ⟨same ▸ levelSmall, by omega, by omega, lt_of_le_of_lt (rate.trans admits.1) rateSmall⟩

def mbWidth (p : VaapiParameters) : Nat := (p.width + 15) / 16

def mbHeight (p : VaapiParameters) : Nat := (p.height + 15) / 16

def buildSequenceParams (p : VaapiParameters) : EncSequenceParams where
  seqParameterSetId := 0
  levelIdc := p.levelIdc
  intraPeriod := idrInterval
  intraIdrPeriod := idrInterval
  ipPeriod := 1
  bitsPerSecond := p.bitrate
  maxNumRefFrames := maxNumRefFrames
  pictureWidthInMbs := p.mbWidth % 2 ^ 16
  pictureHeightInMbs := p.mbHeight % 2 ^ 16
  seqFields := h264SeqFieldsValue
  bitDepthLumaMinus8 := 0
  bitDepthChromaMinus8 := 0
  vuiParametersPresentFlag := 1
  vuiFields := h264VuiFieldsValue
  numUnitsInTick := 1
  timeScale := p.fps * 2 % 2 ^ 32

/-- `reference` is the last entry of the DPB. -/
def buildPictureParams (p : VaapiParameters) (reference : Option DpbEntry) (reconSurfaceId codedBufId : Nat)
    (isIdr : Bool) (frameNum poc : Nat) : EncPictureParams where
  currPic := ⟨reconSurfaceId, frameNum, vaPictureH264ShortTermReference, poc, poc⟩
  referenceFrames := pictureArray 16 (if isIdr then [] else reference.toList)
  codedBuf := codedBufId
  picParameterSetId := 0
  seqParameterSetId := 0
  frameNum
  picInitQp := (vaapiRateControlPolicy p.bitrate p.quality p.rateControl).picInitQp
  numRefIdxL0ActiveMinus1 := 0
  numRefIdxL1ActiveMinus1 := 0
  chromaQpIndexOffset := 0
  secondChromaQpIndexOffset := 0
  picFields := h264PicFieldsValue isIdr (if p.profile = .h264High then 1 else 0)

def buildSliceParams (p : VaapiParameters) (reference : Option DpbEntry) (isIdr : Bool) (idrPicId poc : Nat) :
    EncSliceParams :=
  let primaryRef := if isIdr then none else reference
  { macroblockAddress := 0
    numMacroblocks := p.mbWidth * p.mbHeight % 2 ^ 32
    macroblockInfo := vaInvalidId
    sliceType := if isIdr then sliceTypeI else sliceTypeP
    picParameterSetId := 0
    idrPicId
    picOrderCntLsb := poc % 2 ^ 16
    numRefIdxActiveOverrideFlag := if primaryRef.isSome then 1 else 0
    numRefIdxL0ActiveMinus1 := 0
    refPicList0 := pictureArray 32 primaryRef.toList
    refPicList1 := pictureArray 32 []
    cabacInitIdc := 0
    sliceQpDelta := 0
    disableDeblockingFilterIdc := 0
    sliceAlphaC0OffsetDiv2 := 0
    sliceBetaOffsetDiv2 := 0 }

def profileIdc (p : VaapiParameters) : Nat :=
  match p.profile with
  | .h264High => 100
  | .h264Main => 77

def isHighProfile (p : VaapiParameters) : Bool := decide (p.profileIdc ≥ 100)

/-- The coded width, which wraps around for the widest pictures, as the difference to it does. -/
def codedWidth (p : VaapiParameters) : Nat := p.mbWidth * 16 % 2 ^ 32

def codedHeight (p : VaapiParameters) : Nat := p.mbHeight * 16 % 2 ^ 32

def needCrop (p : VaapiParameters) : Bool := decide (p.codedWidth ≠ p.width ∨ p.codedHeight ≠ p.height)

def cropRight (p : VaapiParameters) : Nat :=
  if p.codedWidth ≠ p.width then (p.codedWidth + 2 ^ 32 - p.width) % 2 ^ 32 / 2 else 0

def cropBottom (p : VaapiParameters) : Nat :=
  if p.codedHeight ≠ p.height then (p.codedHeight + 2 ^ 32 - p.height) % 2 ^ 32 / 2 else 0

def chromaFormatCalls (p : VaapiParameters) : List BitWriter.Call :=
  if p.isHighProfile then [writeUe 1, writeUe 0, writeUe 0, writeBits 0 1, writeBits 0 1] else []

def frameCroppingCalls (p : VaapiParameters) : List BitWriter.Call :=
  if p.needCrop then [writeBits 1 1, writeUe 0, writeUe p.cropRight, writeUe 0, writeUe p.cropBottom]
  else [writeBits 0 1]

def vuiParametersCalls (p : VaapiParameters) : List BitWriter.Call :=
  [writeBits 1 1, writeBits 0 1, writeBits 0 1, writeBits 1 1, writeBits 5 3, writeBits 1 1, writeBits 1 1,
    writeBits 1 8, writeBits 1 8, writeBits 1 8, writeBits 0 1,
    writeBits 1 1, writeBits 1 32, writeBits (p.fps * 2 % 2 ^ 32) 32, writeBits 0 1,
    writeBits 0 1, writeBits 0 1, writeBits 0 1,
    writeBits 1 1, writeBits 1 1, writeUe 0, writeUe 0, writeUe 16, writeUe 16, writeUe 0,
    writeUe maxNumRefFrames]

/-- The calls that write the sequence parameter set, up to its trailing bits. -/
def spsCalls (p : VaapiParameters) : List BitWriter.Call :=
  [writeBits 0 1, writeBits 3 2, writeBits 7 5,
    writeBits p.profileIdc 8, writeBits 0 8, writeBits p.levelIdc 8, writeUe 0] ++
  p.chromaFormatCalls ++
  [writeUe 4, writeUe 0, writeUe 4, writeUe maxNumRefFrames, writeBits 0 1,
    writeUe (p.mbWidth - 1), writeUe (p.mbHeight - 1), writeBits 1 1, writeBits 1 1] ++
  p.frameCroppingCalls ++ p.vuiParametersCalls

def transformModeCalls (p : VaapiParameters) : List BitWriter.Call :=
  if p.isHighProfile then [writeBits 1 1, writeBits 0 1, writeSe 0] else [writeBits 0 1, writeBits 0 1, writeSe 0]

/-- The calls that write the picture parameter set, up to its trailing bits. -/
def ppsCalls (p : VaapiParameters) : List BitWriter.Call :=
  let picInitQp : Int := (vaapiRateControlPolicy p.bitrate p.quality p.rateControl).picInitQp
  [writeBits 0 1, writeBits 3 2, writeBits 8 5,
    writeUe 0, writeUe 0, writeBits 1 1, writeBits 0 1, writeUe 0, writeUe 0, writeUe 0,
    writeBits 0 1, writeBits 0 2, writeSe (picInitQp - 26), writeSe 0, writeSe 0,
    writeBits 1 1, writeBits 0 1, writeBits 0 1] ++
  p.transformModeCalls

def generateSpsPps (p : VaapiParameters) : List UInt8 :=
  startCodeBytes ++ (BitWriter.new.run p.spsCalls).writeRbspTrailingBits.finishWithEmulationPrevention ++
  startCodeBytes ++ (BitWriter.new.run p.ppsCalls).writeRbspTrailingBits.finishWithEmulationPrevention

end VaapiParameters

end HyprRdp
