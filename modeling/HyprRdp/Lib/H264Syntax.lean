import HyprRdp.Lib.BitStrings
import HyprRdp.Lib.ByteStuffing

/-! The syntax of H.264 sequence and picture parameter sets and of slice headers, clauses 7.3.1, 7.3.2.1, 7.3.2.2 and
7.3.3, as readers of bit strings. A reader leaves the trailing bits. -/

namespace H264

open BitStrings

def readMany {α : Type} (reader : BitReader α) : Nat → BitReader (List α)
  | 0 => pure []
  | count + 1 => do
    let first ← reader
    let later ← readMany reader count
    pure (first :: later)

def readWhen {α : Type} (present : Bool) (reader : BitReader α) : BitReader (Option α) :=
  if present then do pure (some (← reader)) else pure none

/-- A structure behind the flag that says whether it is there. -/
def readFlagged {α : Type} (reader : BitReader α) : BitReader (Option α) := do
  let present ← readFlag
  readWhen present reader

theorem readWhen_true {α β : Type} {next : Option α → BitReader β} (reader : BitReader α) :
    readWhen true reader >>= next = reader >>= fun value => next (some value) := by
  unfold readWhen
  rw [if_pos rfl, bind_assoc]
  rfl

theorem readWhen_false {α β : Type} {next : Option α → BitReader β} (reader : BitReader α) :
    readWhen false reader >>= next = next none := rfl

theorem run_readFlagged_zero {α β : Type} {next : Option α → BitReader β} (reader : BitReader α) (rest : List Bool) :
    (readFlagged reader >>= next).run (fixed 1 0 ++ rest) = (next none).run rest := rfl

theorem readFlagged_one {α : Type} {reader : BitReader α} {value : α} {bits rest : List Bool}
    (read : reader.run bits = some (value, rest)) : (readFlagged reader).run (fixed 1 1 ++ bits) = some (some value, rest) := by
  show (do pure (some (← reader)) : BitReader (Option α)).run bits = _
  rw [run_bind_some read]
  rfl

/-- Commands up to the one that ends them, each with its operands. -/
def readCommands (operands : Nat → BitReader Unit) (last : Nat) : Nat → BitReader Unit
  | 0 => failure
  | more + 1 => do
    let command ← readUnsignedGolomb
    operands command
    if command = last then pure () else readCommands operands last more

/-- The bits of a unit without its emulation prevention. -/
def nalBits (unit : List UInt8) : List Bool := (ByteStuffing.unstuff unit).flatMap byteBits

/-- A unit is read as this value up to its trailing bits. -/
def Decodes {α : Type} (reader : BitReader α) (unit : List UInt8) (value : α) : Prop :=
  ∃ padding < 8, reader.run (nalBits unit) = some (value, true :: List.replicate padding false)

structure NalHeader where
  nalRefIdc : Nat
  nalUnitType : Nat
  deriving DecidableEq, Repr

def readNalHeader : BitReader NalHeader := do
  let forbiddenZeroBit ← readFlag
  let nalRefIdc ← readFixed 2
  let nalUnitType ← readFixed 5
  if forbiddenZeroBit then failure else pure { nalRefIdc, nalUnitType }

/-- Whether anything stands before the stop bit, which is the last one in the string. -/
def moreRbspData : BitReader Bool := fun bits => some (bits.tail.any id, bits)

section SequenceParameterSets

/-- `scaling_list`, with the last scale and the next. -/
def readScalingList : Nat → Int → Int → BitReader Unit
  | 0, _, _ => pure ()
  | size + 1, lastScale, nextScale => do
    let nextScale ← if nextScale = 0 then pure 0 else do
      let deltaScale ← readSignedGolomb
      pure ((lastScale + deltaScale + 256) % 256)
    readScalingList size (if nextScale = 0 then lastScale else nextScale) nextScale

def readScalingMatrix (count : Nat) : Nat → BitReader Unit
  | 0 => pure ()
  | left + 1 => do
    let present ← readFlag
    if present then readScalingList (if count - (left + 1) < 6 then 16 else 64) 8 8
    readScalingMatrix count left

def readHrdParameters : BitReader Unit := do
  let cpbCntMinus1 ← readUnsignedGolomb
  let _bitRateScale ← readFixed 4
  let _cpbSizeScale ← readFixed 4
  let _schedules ← readMany (do
    let _bitRateValueMinus1 ← readUnsignedGolomb
    let _cpbSizeValueMinus1 ← readUnsignedGolomb
    let _cbrFlag ← readFlag
    pure ()) (cpbCntMinus1 + 1)
  let _initialCpbRemovalDelayLengthMinus1 ← readFixed 5
  let _cpbRemovalDelayLengthMinus1 ← readFixed 5
  let _dpbOutputDelayLengthMinus1 ← readFixed 5
  let _timeOffsetLength ← readFixed 5
  pure ()

structure VideoSignalType where
  videoFormat : Nat
  videoFullRangeFlag : Bool
  colourDescription : Option (Nat × Nat × Nat)
  deriving DecidableEq, Repr

def readVideoSignalType : BitReader VideoSignalType := do
  let videoFormat ← readFixed 3
  let videoFullRangeFlag ← readFlag
  let colourDescription ← readFlagged do
    let colourPrimaries ← readFixed 8
    let transferCharacteristics ← readFixed 8
    let matrixCoefficients ← readFixed 8
    pure (colourPrimaries, transferCharacteristics, matrixCoefficients)
  pure { videoFormat, videoFullRangeFlag, colourDescription }

structure TimingInfo where
  numUnitsInTick : Nat
  timeScale : Nat
  fixedFrameRateFlag : Bool
  deriving DecidableEq, Repr

def readTimingInfo : BitReader TimingInfo := do
  let numUnitsInTick ← readFixed 32
  let timeScale ← readFixed 32
  let fixedFrameRateFlag ← readFlag
  pure { numUnitsInTick, timeScale, fixedFrameRateFlag }

structure BitstreamRestriction where
  motionVectorsOverPicBoundariesFlag : Bool
  maxBytesPerPicDenom : Nat
  maxBitsPerMbDenom : Nat
  log2MaxMvLengthHorizontal : Nat
  log2MaxMvLengthVertical : Nat
  maxNumReorderFrames : Nat
  maxDecFrameBuffering : Nat
  deriving DecidableEq, Repr

def readBitstreamRestriction : BitReader BitstreamRestriction := do
  let motionVectorsOverPicBoundariesFlag ← readFlag
  let maxBytesPerPicDenom ← readUnsignedGolomb
  let maxBitsPerMbDenom ← readUnsignedGolomb
  let log2MaxMvLengthHorizontal ← readUnsignedGolomb
  let log2MaxMvLengthVertical ← readUnsignedGolomb
  let maxNumReorderFrames ← readUnsignedGolomb
  let maxDecFrameBuffering ← readUnsignedGolomb
  pure {
    motionVectorsOverPicBoundariesFlag, maxBytesPerPicDenom, maxBitsPerMbDenom, log2MaxMvLengthHorizontal,
    log2MaxMvLengthVertical, maxNumReorderFrames, maxDecFrameBuffering }

structure VuiParameters where
  videoSignalType : Option VideoSignalType
  timingInfo : Option TimingInfo
  bitstreamRestriction : Option BitstreamRestriction
  deriving DecidableEq, Repr

def readAspectRatio : BitReader Unit := do
  let aspectRatioIdc ← readFixed 8
  let _sar ← readWhen (decide (aspectRatioIdc = 255)) do
    let sarWidth ← readFixed 16
    let sarHeight ← readFixed 16
    pure (sarWidth, sarHeight)
  pure ()

/-- Annex E.1.1. -/
def readVuiParameters : BitReader VuiParameters := do
  let _aspectRatio ← readFlagged readAspectRatio
  let _overscanAppropriate ← readFlagged readFlag
  let videoSignalType ← readFlagged readVideoSignalType
  let _chromaLoc ← readFlagged (readMany readUnsignedGolomb 2)
  let timingInfo ← readFlagged readTimingInfo
  let nalHrd ← readFlagged readHrdParameters
  let vclHrd ← readFlagged readHrdParameters
  let _lowDelayHrdFlag ← readWhen (nalHrd.isSome || vclHrd.isSome) readFlag
  let _picStructPresentFlag ← readFlag
  let bitstreamRestriction ← readFlagged readBitstreamRestriction
  pure { videoSignalType, timingInfo, bitstreamRestriction }

structure ChromaFormat where
  chromaFormatIdc : Nat
  separateColourPlaneFlag : Bool
  bitDepthLumaMinus8 : Nat
  bitDepthChromaMinus8 : Nat
  qpprimeYZeroTransformBypassFlag : Bool
  deriving DecidableEq, Repr

/-- The profiles whose parameter sets say what their chroma format is. For the others it is 4:2:0 with eight bits. -/
def saysChromaFormat (profileIdc : Nat) : Bool :=
  decide (profileIdc ∈ [100, 110, 122, 244, 44, 83, 86, 118, 128, 138, 139, 134, 135])

def ChromaFormat.inferred : ChromaFormat where
  chromaFormatIdc := 1
  separateColourPlaneFlag := false
  bitDepthLumaMinus8 := 0
  bitDepthChromaMinus8 := 0
  qpprimeYZeroTransformBypassFlag := false

def readChromaFormat : BitReader ChromaFormat := do
  let chromaFormatIdc ← readUnsignedGolomb
  let separateColourPlane ← readWhen (decide (chromaFormatIdc = 3)) readFlag
  let bitDepthLumaMinus8 ← readUnsignedGolomb
  let bitDepthChromaMinus8 ← readUnsignedGolomb
  let qpprimeYZeroTransformBypassFlag ← readFlag
  let lists := if chromaFormatIdc = 3 then 12 else 8
  let _scalingMatrix ← readFlagged (readScalingMatrix lists lists)
  pure {
    chromaFormatIdc, separateColourPlaneFlag := separateColourPlane.getD false, bitDepthLumaMinus8,
    bitDepthChromaMinus8, qpprimeYZeroTransformBypassFlag }

inductive PicOrderCnt
  | lsb (log2MaxMinus4 : Nat)
  | cycle (deltaAlwaysZero : Bool)
  | outputOrder
  deriving DecidableEq, Repr

def readPicOrderCnt : BitReader PicOrderCnt := do
  let picOrderCntType ← readUnsignedGolomb
  match picOrderCntType with
  | 0 => do pure (.lsb (← readUnsignedGolomb))
  | 1 => do
    let deltaPicOrderAlwaysZeroFlag ← readFlag
    let _offsetForNonRefPic ← readSignedGolomb
    let _offsetForTopToBottomField ← readSignedGolomb
    let numRefFramesInPicOrderCntCycle ← readUnsignedGolomb
    let _offsets ← readMany readSignedGolomb numRefFramesInPicOrderCntCycle
    pure (.cycle deltaPicOrderAlwaysZeroFlag)
  | 2 => pure .outputOrder
  | _ => failure

structure FrameCropping where
  left : Nat
  right : Nat
  top : Nat
  bottom : Nat
  deriving DecidableEq, Repr

def readFrameCropping : BitReader FrameCropping := do
  let left ← readUnsignedGolomb
  let right ← readUnsignedGolomb
  let top ← readUnsignedGolomb
  let bottom ← readUnsignedGolomb
  pure { left, right, top, bottom }

structure SeqParameterSet where
  profileIdc : Nat
  constraintSetFlags : Nat
  levelIdc : Nat
  seqParameterSetId : Nat
  chroma : ChromaFormat
  log2MaxFrameNumMinus4 : Nat
  picOrderCnt : PicOrderCnt
  maxNumRefFrames : Nat
  gapsInFrameNumValueAllowedFlag : Bool
  picWidthInMbsMinus1 : Nat
  picHeightInMapUnitsMinus1 : Nat
  frameMbsOnlyFlag : Bool
  direct8x8InferenceFlag : Bool
  frameCropping : Option FrameCropping
  vuiParameters : Option VuiParameters
  deriving DecidableEq, Repr

/-- Clause 7.3.2.1.1. -/
def readSeqParameterSetData : BitReader SeqParameterSet := do
  let profileIdc ← readFixed 8
  let constraintSetFlags ← readFixed 8
  let levelIdc ← readFixed 8
  let seqParameterSetId ← readUnsignedGolomb
  let chromaFormat ← readWhen (saysChromaFormat profileIdc) readChromaFormat
  let log2MaxFrameNumMinus4 ← readUnsignedGolomb
  let picOrderCnt ← readPicOrderCnt
  let maxNumRefFrames ← readUnsignedGolomb
  let gapsInFrameNumValueAllowedFlag ← readFlag
  let picWidthInMbsMinus1 ← readUnsignedGolomb
  let picHeightInMapUnitsMinus1 ← readUnsignedGolomb
  let frameMbsOnlyFlag ← readFlag
  let _mbAdaptiveFrameFieldFlag ← readWhen (!frameMbsOnlyFlag) readFlag
  let direct8x8InferenceFlag ← readFlag
  let frameCropping ← readFlagged readFrameCropping
  let vuiParameters ← readFlagged readVuiParameters
  pure {
    profileIdc, constraintSetFlags, levelIdc, seqParameterSetId, chroma := chromaFormat.getD .inferred,
    log2MaxFrameNumMinus4, picOrderCnt, maxNumRefFrames, gapsInFrameNumValueAllowedFlag, picWidthInMbsMinus1,
    picHeightInMapUnitsMinus1, frameMbsOnlyFlag, direct8x8InferenceFlag, frameCropping, vuiParameters }

def readSeqParameterSet : BitReader SeqParameterSet := do
  let header ← readNalHeader
  if header.nalUnitType = 7 then readSeqParameterSetData else failure

namespace SeqParameterSet

def chromaArrayType (sps : SeqParameterSet) : Nat :=
  if sps.chroma.separateColourPlaneFlag then 0 else sps.chroma.chromaFormatIdc

def fieldsInMapUnit (sps : SeqParameterSet) : Nat := if sps.frameMbsOnlyFlag then 1 else 2

def cropUnitX (sps : SeqParameterSet) : Nat := if sps.chromaArrayType = 1 ∨ sps.chromaArrayType = 2 then 2 else 1

def cropUnitY (sps : SeqParameterSet) : Nat := (if sps.chromaArrayType = 1 then 2 else 1) * sps.fieldsInMapUnit

/-- What is left of the coded picture inside the cropping rectangle. -/
def croppedWidth (sps : SeqParameterSet) : Nat :=
  (sps.picWidthInMbsMinus1 + 1) * 16 - sps.cropUnitX * (sps.frameCropping.elim 0 fun crop => crop.left + crop.right)

def croppedHeight (sps : SeqParameterSet) : Nat :=
  sps.fieldsInMapUnit * (sps.picHeightInMapUnitsMinus1 + 1) * 16 -
    sps.cropUnitY * (sps.frameCropping.elim 0 fun crop => crop.top + crop.bottom)

end SeqParameterSet

end SequenceParameterSets

section PictureParameterSets

/-- The slice groups that a slice header depends on: their type and `slice_group_change_rate_minus1`. -/
structure SliceGroups where
  sliceGroupMapType : Nat
  sliceGroupChangeRateMinus1 : Nat
  deriving DecidableEq, Repr

def readSliceGroups (numSliceGroupsMinus1 : Nat) : BitReader SliceGroups := do
  let sliceGroupMapType ← readUnsignedGolomb
  match sliceGroupMapType with
  | 0 => do
    let _runLengthMinus1 ← readMany readUnsignedGolomb (numSliceGroupsMinus1 + 1)
    pure { sliceGroupMapType, sliceGroupChangeRateMinus1 := 0 }
  | 2 => do
    let _rectangles ← readMany (readMany readUnsignedGolomb 2) numSliceGroupsMinus1
    pure { sliceGroupMapType, sliceGroupChangeRateMinus1 := 0 }
  | 6 => do
    let picSizeInMapUnitsMinus1 ← readUnsignedGolomb
    let _sliceGroupId ← readMany (readFixed (Nat.clog 2 (numSliceGroupsMinus1 + 1))) (picSizeInMapUnitsMinus1 + 1)
    pure { sliceGroupMapType, sliceGroupChangeRateMinus1 := 0 }
  | _ => do
    if sliceGroupMapType ∈ [3, 4, 5] then
      let _sliceGroupChangeDirectionFlag ← readFlag
      let sliceGroupChangeRateMinus1 ← readUnsignedGolomb
      pure { sliceGroupMapType, sliceGroupChangeRateMinus1 }
    else pure { sliceGroupMapType, sliceGroupChangeRateMinus1 := 0 }

structure TransformMode where
  transform8x8ModeFlag : Bool
  secondChromaQpIndexOffset : Int
  deriving DecidableEq, Repr

def readTransformMode (chromaFormatIdc : Nat) : BitReader TransformMode := do
  let transform8x8ModeFlag ← readFlag
  let lists := 6 + if transform8x8ModeFlag then (if chromaFormatIdc = 3 then 6 else 2) else 0
  let _scalingMatrix ← readFlagged (readScalingMatrix lists lists)
  let secondChromaQpIndexOffset ← readSignedGolomb
  pure { transform8x8ModeFlag, secondChromaQpIndexOffset }

structure PicParameterSet where
  picParameterSetId : Nat
  seqParameterSetId : Nat
  entropyCodingModeFlag : Bool
  bottomFieldPicOrderInFramePresentFlag : Bool
  sliceGroups : Option SliceGroups
  numRefIdxL0DefaultActiveMinus1 : Nat
  numRefIdxL1DefaultActiveMinus1 : Nat
  weightedPredFlag : Bool
  weightedBipredIdc : Nat
  picInitQpMinus26 : Int
  picInitQsMinus26 : Int
  chromaQpIndexOffset : Int
  deblockingFilterControlPresentFlag : Bool
  constrainedIntraPredFlag : Bool
  redundantPicCntPresentFlag : Bool
  transformMode : TransformMode
  deriving DecidableEq, Repr

/-- Clause 7.3.2.2. The transform mode is read where there is more than the trailing bits. -/
def readPicParameterSetRbsp (sps : SeqParameterSet) : BitReader PicParameterSet := do
  let picParameterSetId ← readUnsignedGolomb
  let seqParameterSetId ← readUnsignedGolomb
  let entropyCodingModeFlag ← readFlag
  let bottomFieldPicOrderInFramePresentFlag ← readFlag
  let numSliceGroupsMinus1 ← readUnsignedGolomb
  let sliceGroups ← readWhen (decide (0 < numSliceGroupsMinus1)) (readSliceGroups numSliceGroupsMinus1)
  let numRefIdxL0DefaultActiveMinus1 ← readUnsignedGolomb
  let numRefIdxL1DefaultActiveMinus1 ← readUnsignedGolomb
  let weightedPredFlag ← readFlag
  let weightedBipredIdc ← readFixed 2
  let picInitQpMinus26 ← readSignedGolomb
  let picInitQsMinus26 ← readSignedGolomb
  let chromaQpIndexOffset ← readSignedGolomb
  let deblockingFilterControlPresentFlag ← readFlag
  let constrainedIntraPredFlag ← readFlag
  let redundantPicCntPresentFlag ← readFlag
  let more ← moreRbspData
  let transformMode ← readWhen more (readTransformMode sps.chroma.chromaFormatIdc)
  pure {
    picParameterSetId, seqParameterSetId, entropyCodingModeFlag, bottomFieldPicOrderInFramePresentFlag, sliceGroups,
    numRefIdxL0DefaultActiveMinus1, numRefIdxL1DefaultActiveMinus1, weightedPredFlag, weightedBipredIdc,
    picInitQpMinus26, picInitQsMinus26, chromaQpIndexOffset, deblockingFilterControlPresentFlag,
    constrainedIntraPredFlag, redundantPicCntPresentFlag,
    transformMode := transformMode.getD ⟨false, chromaQpIndexOffset⟩ }

def readPicParameterSet (sps : SeqParameterSet) : BitReader PicParameterSet := do
  let header ← readNalHeader
  if header.nalUnitType = 8 then readPicParameterSetRbsp sps else failure

end PictureParameterSets

section SliceHeaders

inductive SliceKind
  | p | b | i | sp | si
  deriving DecidableEq, Repr

def SliceKind.ofSliceType (sliceType : Nat) : Option SliceKind :=
  if sliceType < 10 then [p, b, i, sp, si][sliceType % 5]? else none

def SliceKind.intra (kind : SliceKind) : Bool := kind = .i || kind = .si

def readPicNumOperands (modificationOfPicNumsIdc : Nat) : BitReader Unit := do
  if modificationOfPicNumsIdc ∈ [0, 1, 2] then
    let _picNum ← readUnsignedGolomb
    pure ()

def readRefPicListModification : BitReader Bool := do
  let bits ← get
  let modifications ← readFlagged (readCommands readPicNumOperands 3 bits.length)
  pure modifications.isSome

def readWeights (chromaArrayType : Nat) : BitReader Unit := do
  let _luma ← readFlagged (readMany readSignedGolomb 2)
  let chromaWeightFlag ← readWhen (decide (chromaArrayType ≠ 0)) readFlag
  let _chroma ← readWhen (chromaWeightFlag.getD false) (readMany readSignedGolomb 4)
  pure ()

def readPredWeightTable (chromaArrayType l0 : Nat) (l1 : Option Nat) : BitReader Unit := do
  let _lumaLog2WeightDenom ← readUnsignedGolomb
  let _chromaLog2WeightDenom ← readWhen (decide (chromaArrayType ≠ 0)) readUnsignedGolomb
  let _weightsL0 ← readMany (readWeights chromaArrayType) l0
  let _weightsL1 ← readMany (readWeights chromaArrayType) (l1.getD 0)
  pure ()

def readMarkingOperands (memoryManagementControlOperation : Nat) : BitReader Unit := do
  if memoryManagementControlOperation ∈ [1, 3] then
    let _differenceOfPicNumsMinus1 ← readUnsignedGolomb
  if memoryManagementControlOperation = 2 then
    let _longTermPicNum ← readUnsignedGolomb
  if memoryManagementControlOperation ∈ [3, 6] then
    let _longTermFrameIdx ← readUnsignedGolomb
  if memoryManagementControlOperation = 4 then
    let _maxLongTermFrameIdxPlus1 ← readUnsignedGolomb

inductive RefPicMarking
  | idr (noOutputOfPriorPics longTermReference : Bool)
  | slidingWindow
  | adaptive
  deriving DecidableEq, Repr

def readDecRefPicMarking (idrPic : Bool) : BitReader RefPicMarking :=
  if idrPic then do
    let noOutputOfPriorPicsFlag ← readFlag
    let longTermReferenceFlag ← readFlag
    pure (.idr noOutputOfPriorPicsFlag longTermReferenceFlag)
  else do
    let bits ← get
    let operations ← readFlagged (readCommands readMarkingOperands 0 bits.length)
    pure (if operations.isSome then .adaptive else .slidingWindow)

structure DeblockingFilter where
  disableDeblockingFilterIdc : Nat
  sliceAlphaC0OffsetDiv2 : Int
  sliceBetaOffsetDiv2 : Int
  deriving DecidableEq, Repr

def readDeblockingFilter : BitReader DeblockingFilter := do
  let disableDeblockingFilterIdc ← readUnsignedGolomb
  let offsets ← readWhen (decide (disableDeblockingFilterIdc ≠ 1)) do
    let sliceAlphaC0OffsetDiv2 ← readSignedGolomb
    let sliceBetaOffsetDiv2 ← readSignedGolomb
    pure (sliceAlphaC0OffsetDiv2, sliceBetaOffsetDiv2)
  let offsets := offsets.getD (0, 0)
  pure { disableDeblockingFilterIdc, sliceAlphaC0OffsetDiv2 := offsets.1, sliceBetaOffsetDiv2 := offsets.2 }

structure SliceHeader where
  nal : NalHeader
  firstMbInSlice : Nat
  sliceKind : SliceKind
  picParameterSetId : Nat
  frameNum : Nat
  fieldPicFlag : Bool
  idrPicId : Option Nat
  picOrderCntLsb : Option Nat
  numRefIdxL0Active : Option Nat
  refPicListModifiedL0 : Bool
  decRefPicMarking : Option RefPicMarking
  cabacInitIdc : Option Nat
  sliceQpDelta : Int
  deblockingFilter : DeblockingFilter
  deriving DecidableEq, Repr

/-- The width of `slice_group_change_cycle`. -/
def changeCycleBits (sps : SeqParameterSet) (groups : SliceGroups) : Nat :=
  let picSizeInMapUnits := (sps.picWidthInMbsMinus1 + 1) * (sps.picHeightInMapUnitsMinus1 + 1)
  let rate := groups.sliceGroupChangeRateMinus1 + 1
  Nat.clog 2 ((picSizeInMapUnits + rate - 1) / rate + 1)

def readSliceGroupChangeCycle (sps : SeqParameterSet) : Option SliceGroups → BitReader (Option Nat)
  | some groups => readWhen (decide (groups.sliceGroupMapType ∈ [3, 4, 5])) (readFixed (changeCycleBits sps groups))
  | none => pure none

/-- `pic_order_cnt_lsb`, with the deltas that may follow it. -/
def readPicOrder (sps : SeqParameterSet) (deltasPresent fieldPic : Bool) : BitReader (Option Nat) :=
  match sps.picOrderCnt with
  | .lsb log2MaxMinus4 => do
    let picOrderCntLsb ← readFixed (log2MaxMinus4 + 4)
    let _deltaPicOrderCntBottom ← readWhen (deltasPresent && !fieldPic) readSignedGolomb
    pure (some picOrderCntLsb)
  | .cycle deltaAlwaysZero => do
    let _deltaPicOrderCnt ← readWhen (!deltaAlwaysZero)
      (readMany readSignedGolomb (if deltasPresent && !fieldPic then 2 else 1))
    pure none
  | .outputOrder => pure none

/-- How many pictures the two lists may refer to. -/
def readNumRefIdxActive (pps : PicParameterSet) (kind : SliceKind) : BitReader (Nat × Option Nat) := do
  let override ← readFlag
  let l0 ← readWhen override readUnsignedGolomb
  let l1 ← readWhen (override && decide (kind = .b)) readUnsignedGolomb
  let l0 := l0.getD pps.numRefIdxL0DefaultActiveMinus1 + 1
  let l1 := l1.getD pps.numRefIdxL1DefaultActiveMinus1 + 1
  pure (l0, if kind = .b then some l1 else none)

/-- Whether a slice brings the weights of its references. -/
def PicParameterSet.weighted (pps : PicParameterSet) : SliceKind → Bool
  | .p | .sp => pps.weightedPredFlag
  | .b => decide (pps.weightedBipredIdc = 1)
  | .i | .si => false

/-- Clause 7.3.3. -/
def readSliceHeader (sps : SeqParameterSet) (pps : PicParameterSet) (nal : NalHeader) : BitReader SliceHeader := do
  let idrPic := decide (nal.nalUnitType = 5)
  let firstMbInSlice ← readUnsignedGolomb
  let sliceType ← readUnsignedGolomb
  let some sliceKind := SliceKind.ofSliceType sliceType | failure
  let picParameterSetId ← readUnsignedGolomb
  let _colourPlaneId ← readWhen sps.chroma.separateColourPlaneFlag (readFixed 2)
  let frameNum ← readFixed (sps.log2MaxFrameNumMinus4 + 4)
  let fieldPic ← readWhen (!sps.frameMbsOnlyFlag) readFlag
  let fieldPicFlag := fieldPic.getD false
  let _bottomFieldFlag ← readWhen fieldPicFlag readFlag
  let idrPicId ← readWhen idrPic readUnsignedGolomb
  let picOrderCntLsb ← readPicOrder sps pps.bottomFieldPicOrderInFramePresentFlag fieldPicFlag
  let _redundantPicCnt ← readWhen pps.redundantPicCntPresentFlag readUnsignedGolomb
  let _directSpatialMvPredFlag ← readWhen (decide (sliceKind = .b)) readFlag
  let active ← readWhen (!sliceKind.intra) (readNumRefIdxActive pps sliceKind)
  let modifiedL0 ← readWhen (!sliceKind.intra) readRefPicListModification
  let _modifiedL1 ← readWhen (decide (sliceKind = .b)) readRefPicListModification
  let _weights ← readWhen (pps.weighted sliceKind)
    (readPredWeightTable sps.chromaArrayType (active.elim 0 Prod.fst) (active.bind Prod.snd))
  let decRefPicMarking ← readWhen (decide (nal.nalRefIdc ≠ 0)) (readDecRefPicMarking idrPic)
  let cabacInitIdc ← readWhen (pps.entropyCodingModeFlag && !sliceKind.intra) readUnsignedGolomb
  let sliceQpDelta ← readSignedGolomb
  let _spForSwitchFlag ← readWhen (decide (sliceKind = .sp)) readFlag
  let _sliceQsDelta ← readWhen (sliceKind = .sp || sliceKind = .si) readSignedGolomb
  let deblockingFilter ← readWhen pps.deblockingFilterControlPresentFlag readDeblockingFilter
  let _sliceGroupChangeCycle ← readSliceGroupChangeCycle sps pps.sliceGroups
  pure {
    nal, firstMbInSlice, sliceKind, picParameterSetId, frameNum, fieldPicFlag, idrPicId, picOrderCntLsb,
    numRefIdxL0Active := active.map Prod.fst, refPicListModifiedL0 := modifiedL0.getD false, decRefPicMarking,
    cabacInitIdc, sliceQpDelta, deblockingFilter := deblockingFilter.getD ⟨0, 0, 0⟩ }

/-- A coded slice of an IDR picture or of another one, up to its data. -/
def readSlice (sps : SeqParameterSet) (pps : PicParameterSet) : BitReader SliceHeader := do
  let header ← readNalHeader
  if header.nalUnitType ∈ [1, 5] then readSliceHeader sps pps header else failure

end SliceHeaders

end H264
