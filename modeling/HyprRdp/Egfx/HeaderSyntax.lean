import HyprRdp.Egfx.PackedHeaders
import HyprRdp.Lib.H264Syntax

namespace HyprRdp

open BitStrings ByteStuffing H264

section Readers

variable {α : Type} {rest : List Bool}

theorem run_moreRbspData {next : Bool → BitReader α} (bits : List Bool) :
    (moreRbspData >>= next).run bits = (next (bits.tail.any id)).run bits := rfl

theorem readNalHeader_bits (nalRefIdc nalUnitType : Nat) :
    readNalHeader.run (fixed 1 0 ++ (fixed 2 nalRefIdc ++ (fixed 5 nalUnitType ++ rest))) =
      some (⟨nalRefIdc % 2 ^ 2, nalUnitType % 2 ^ 5⟩, rest) := by
  unfold readNalHeader
  rw [run_readFlag_zero, run_readFixed, run_readFixed]
  rfl

theorem readChromaFormat_bits :
    readChromaFormat.run (unsignedGolomb 1 ++ (unsignedGolomb 0 ++ (unsignedGolomb 0 ++ (fixed 1 0 ++ (fixed 1 0 ++ rest))))) =
      some (.inferred, rest) := by
  have other : decide (1 = 3) = false := rfl
  unfold readChromaFormat
  simp only [run_readUnsignedGolomb, other, readWhen_false, run_readFlag_zero, run_readFlagged_zero]
  rfl

theorem readPicOrderCnt_bits (log2MaxMinus4 : Nat) :
    readPicOrderCnt.run (unsignedGolomb 0 ++ (unsignedGolomb log2MaxMinus4 ++ rest)) = some (.lsb log2MaxMinus4, rest) := by
  unfold readPicOrderCnt
  rw [run_readUnsignedGolomb]
  exact run_readUnsignedGolomb _ _

theorem readFrameCropping_bits (left right top bottom : Nat) :
    readFrameCropping.run (unsignedGolomb left ++ (unsignedGolomb right ++ (unsignedGolomb top ++ (unsignedGolomb bottom ++ rest)))) =
      some (⟨left, right, top, bottom⟩, rest) := by
  unfold readFrameCropping
  simp only [run_readUnsignedGolomb]
  rfl

theorem readVideoSignalType_bits :
    readVideoSignalType.run (fixed 3 5 ++ (fixed 1 1 ++ (fixed 1 1 ++ (fixed 8 1 ++ (fixed 8 1 ++ (fixed 8 1 ++ rest)))))) =
      some (⟨5, true, some (1, 1, 1)⟩, rest) := by
  unfold readVideoSignalType
  simp only [run_readFixed, run_readFlag_one, readFlagged, bind_assoc, readWhen_true]
  rfl

theorem readTimingInfo_bits {timeScale : Nat} (small : timeScale < 2 ^ 32) :
    readTimingInfo.run (fixed 32 1 ++ (fixed 32 timeScale ++ (fixed 1 0 ++ rest))) = some (⟨1, timeScale, false⟩, rest) := by
  unfold readTimingInfo
  rw [run_readFixed, run_readFixed, run_readFlag_zero, Nat.mod_eq_of_lt small]
  rfl

theorem readBitstreamRestriction_bits (maxDecFrameBuffering : Nat) :
    readBitstreamRestriction.run (fixed 1 1 ++ (unsignedGolomb 0 ++ (unsignedGolomb 0 ++ (unsignedGolomb 16 ++
        (unsignedGolomb 16 ++ (unsignedGolomb 0 ++ (unsignedGolomb maxDecFrameBuffering ++ rest))))))) =
      some (⟨true, 0, 0, 16, 16, 0, maxDecFrameBuffering⟩, rest) := by
  unfold readBitstreamRestriction
  simp only [run_readFlag_one, run_readUnsignedGolomb]
  rfl

theorem readDeblockingFilter_bits :
    readDeblockingFilter.run (unsignedGolomb 0 ++ (signedGolomb 0 ++ (signedGolomb 0 ++ rest))) = some (⟨0, 0, 0⟩, rest) := by
  have enabled : decide (0 ≠ 1) = true := rfl
  unfold readDeblockingFilter
  simp only [run_readUnsignedGolomb, enabled, readWhen_true, bind_assoc, run_readSignedGolomb]
  rfl

end Readers

theorem flatMap_code_append (calls more : List BitWriter.Call) (rest : List Bool) :
    (calls ++ more).flatMap BitWriter.Call.code ++ rest = calls.flatMap BitWriter.Call.code ++ (more.flatMap BitWriter.Call.code ++ rest) := by
  rw [List.flatMap_append, List.append_assoc]

theorem flatMap_code_cons (call : BitWriter.Call) (more : List BitWriter.Call) (rest : List Bool) :
    (call :: more).flatMap BitWriter.Call.code ++ rest = call.code ++ (more.flatMap BitWriter.Call.code ++ rest) := by
  rw [List.flatMap_cons, List.append_assoc]

theorem flatMap_code_nil (rest : List Bool) : ([] : List BitWriter.Call).flatMap BitWriter.Call.code ++ rest = rest := rfl

namespace VaapiParameters

variable {p : VaapiParameters}

def chromaFormat (p : VaapiParameters) : Option ChromaFormat := if p.isHighProfile then some .inferred else none

def frameCropping (p : VaapiParameters) : Option FrameCropping :=
  if p.needCrop then some ⟨0, p.cropRight, 0, p.cropBottom⟩ else none

def vuiParameters (p : VaapiParameters) : VuiParameters where
  videoSignalType := some ⟨5, true, some (1, 1, 1)⟩
  timingInfo := some ⟨1, p.fps * 2, false⟩
  bitstreamRestriction := some ⟨true, 0, 0, 16, 16, 0, maxNumRefFrames⟩

/-- The sequence parameter set that an encoder is to be decoded with. -/
def seqParameterSet (p : VaapiParameters) : SeqParameterSet where
  profileIdc := p.profileIdc
  constraintSetFlags := 0
  levelIdc := p.levelIdc
  seqParameterSetId := 0
  chroma := p.chromaFormat.getD .inferred
  log2MaxFrameNumMinus4 := 4
  picOrderCnt := .lsb 4
  maxNumRefFrames := maxNumRefFrames
  gapsInFrameNumValueAllowedFlag := false
  picWidthInMbsMinus1 := p.mbWidth - 1
  picHeightInMapUnitsMinus1 := p.mbHeight - 1
  frameMbsOnlyFlag := true
  direct8x8InferenceFlag := true
  frameCropping := p.frameCropping
  vuiParameters := some p.vuiParameters

theorem readChromaFormat_calls (rest : List Bool) :
    (readWhen (saysChromaFormat p.profileIdc) readChromaFormat).run
      (p.chromaFormatCalls.flatMap BitWriter.Call.code ++ rest) = some (p.chromaFormat, rest) := by
  unfold chromaFormatCalls chromaFormat isHighProfile profileIdc
  cases p.profile with
  | h264Main => rfl
  | h264High => exact run_bind_some readChromaFormat_bits

theorem readFrameCropping_calls (rest : List Bool) :
    (readFlagged readFrameCropping).run (p.frameCroppingCalls.flatMap BitWriter.Call.code ++ rest) =
      some (p.frameCropping, rest) := by
  unfold frameCroppingCalls frameCropping
  cases p.needCrop with
  | false => rfl
  | true =>
    simp only [if_true, flatMap_code_cons, flatMap_code_nil]
    exact readFlagged_one (readFrameCropping_bits _ _ _ _)

theorem readVuiParameters_calls (rate : p.fps < 2 ^ 31) (rest : List Bool) :
    (readFlagged readVuiParameters).run (p.vuiParametersCalls.flatMap BitWriter.Call.code ++ rest) =
      some (some p.vuiParameters, rest) := by
  have scale : p.fps * 2 % 2 ^ 32 = p.fps * 2 := Nat.mod_eq_of_lt (by omega)
  unfold vuiParametersCalls vuiParameters
  rw [scale]
  simp only [flatMap_code_cons, flatMap_code_nil]
  refine readFlagged_one ?_
  unfold readVuiParameters
  simp only [BitWriter.Call.code, run_readFlag_zero, run_readFlagged_zero, readWhen_false, Option.isSome_none, Bool.or_self,
    run_bind_some (readFlagged_one readVideoSignalType_bits),
    run_bind_some (readFlagged_one (readTimingInfo_bits (show p.fps * 2 < 2 ^ 32 by omega))),
    run_bind_some (readFlagged_one (readBitstreamRestriction_bits maxNumRefFrames))]
  rfl

theorem readSeqParameterSet_calls (level : p.levelIdc < 256) (rate : p.fps < 2 ^ 31) (rest : List Bool) :
    readSeqParameterSet.run (p.spsCalls.flatMap BitWriter.Call.code ++ rest) = some (p.seqParameterSet, rest) := by
  have levelKept : p.levelIdc % 2 ^ 8 = p.levelIdc := Nat.mod_eq_of_lt level
  have profileKept : p.profileIdc % 2 ^ 8 = p.profileIdc := by
    unfold profileIdc
    cases p.profile <;> rfl
  have unitType : 7 % 2 ^ 5 = 7 := rfl
  unfold readSeqParameterSet spsCalls seqParameterSet
  simp only [flatMap_code_append, flatMap_code_cons, flatMap_code_nil, BitWriter.Call.code]
  rw [run_bind_some (readNalHeader_bits _ _), unitType, if_pos rfl]
  unfold readSeqParameterSetData
  simp only [run_readFixed, run_readUnsignedGolomb, profileKept, levelKept, run_bind_some (readChromaFormat_calls _),
    run_bind_some (readPicOrderCnt_bits _), run_readFlag_zero, run_readFlag_one, Bool.not_true, readWhen_false,
    run_bind_some (readFrameCropping_calls _), run_bind_some (readVuiParameters_calls rate _)]
  rfl

def picInitQp (p : VaapiParameters) : Nat := (vaapiRateControlPolicy p.bitrate p.quality p.rateControl).picInitQp

/-- The picture parameter set that an encoder is to be decoded with. -/
def picParameterSet (p : VaapiParameters) : PicParameterSet where
  picParameterSetId := 0
  seqParameterSetId := 0
  entropyCodingModeFlag := true
  bottomFieldPicOrderInFramePresentFlag := false
  sliceGroups := none
  numRefIdxL0DefaultActiveMinus1 := 0
  numRefIdxL1DefaultActiveMinus1 := 0
  weightedPredFlag := false
  weightedBipredIdc := 0
  picInitQpMinus26 := p.picInitQp - 26
  picInitQsMinus26 := 0
  chromaQpIndexOffset := 0
  deblockingFilterControlPresentFlag := true
  constrainedIntraPredFlag := false
  redundantPicCntPresentFlag := false
  transformMode := ⟨p.isHighProfile, 0⟩

theorem readTransformMode_calls (chromaFormatIdc : Nat) (rest : List Bool) :
    (moreRbspData >>= fun more => readWhen more (readTransformMode chromaFormatIdc)).run
      (p.transformModeCalls.flatMap BitWriter.Call.code ++ rest) = some (some ⟨p.isHighProfile, 0⟩, rest) := by
  have more (value : Nat) : (fixed 1 value ++ (fixed 1 0 ++ (signedGolomb 0 ++ rest))).tail.any id = true := rfl
  unfold transformModeCalls
  cases p.isHighProfile with
  | true =>
    simp only [if_true, flatMap_code_cons, flatMap_code_nil, BitWriter.Call.code]
    rw [run_moreRbspData, more]
    unfold readTransformMode
    simp only [readWhen, if_true, bind_assoc, run_readFlag_one, run_readFlagged_zero, run_readSignedGolomb]
    rfl
  | false =>
    simp only [Bool.false_eq_true, if_false, flatMap_code_cons, flatMap_code_nil, BitWriter.Call.code]
    rw [run_moreRbspData, more]
    unfold readTransformMode
    simp only [readWhen, if_true, bind_assoc, run_readFlag_zero, run_readFlagged_zero, run_readSignedGolomb]
    rfl

theorem readPicParameterSet_calls (sps : SeqParameterSet) (rest : List Bool) :
    (readPicParameterSet sps).run (p.ppsCalls.flatMap BitWriter.Call.code ++ rest) = some (p.picParameterSet, rest) := by
  have unitType : 8 % 2 ^ 5 = 8 := rfl
  have whole : decide (0 < 0) = false := rfl
  unfold readPicParameterSet ppsCalls picParameterSet
  simp only [flatMap_code_append, flatMap_code_cons, flatMap_code_nil, BitWriter.Call.code]
  rw [run_bind_some (readNalHeader_bits _ _), unitType, if_pos rfl]
  unfold readPicParameterSetRbsp
  simp only [run_readFixed, run_readUnsignedGolomb, run_readSignedGolomb, run_readFlag_zero, run_readFlag_one, whole,
    readWhen_false]
  rw [← bind_assoc, run_bind_some (readTransformMode_calls _ _)]
  rfl

/-- The slice header that the packed one is to be read as. -/
def packedSliceHeader (isIdr : Bool) (frameNum idrPicId poc : Nat) : SliceHeader where
  nal := ⟨3, if isIdr then 5 else 1⟩
  firstMbInSlice := 0
  sliceKind := if isIdr then .i else .p
  picParameterSetId := 0
  frameNum
  fieldPicFlag := false
  idrPicId := if isIdr then some idrPicId else none
  picOrderCntLsb := some poc
  numRefIdxL0Active := if isIdr then none else some 1
  refPicListModifiedL0 := false
  decRefPicMarking := some (if isIdr then .idr false false else .slidingWindow)
  cabacInitIdc := if isIdr then none else some 0
  sliceQpDelta := 0
  deblockingFilter := ⟨0, 0, 0⟩

theorem seqParameterSet_chroma : p.seqParameterSet.chroma = .inferred := by
  unfold seqParameterSet chromaFormat
  dsimp only
  split <;> rfl

theorem readPicOrder_bits (poc : Nat) (rest : List Bool) :
    (readPicOrder p.seqParameterSet false false).run (fixed 8 poc ++ rest) = some (some (poc % 2 ^ 8), rest) :=
  @run_readFixed (Option Nat) (fun lsb => readWhen false readSignedGolomb >>= fun _ => pure (some lsb)) 8 poc rest

theorem readNumRefIdxActive_bits (rest : List Bool) :
    (readNumRefIdxActive p.picParameterSet .p).run (fixed 1 0 ++ rest) = some ((1, none), rest) := rfl

theorem readRefPicListModification_bits (rest : List Bool) :
    readRefPicListModification.run (fixed 1 0 ++ rest) = some (false, rest) := rfl

theorem readDecRefPicMarking_idr (rest : List Bool) :
    (readDecRefPicMarking true).run (fixed 1 0 ++ (fixed 1 0 ++ rest)) = some (.idr false false, rest) := rfl

theorem readDecRefPicMarking_sliding (rest : List Bool) :
    (readDecRefPicMarking false).run (fixed 1 0 ++ rest) = some (.slidingWindow, rest) := rfl

theorem readSlice_calls {frameNum poc : Nat} (isIdr : Bool) (idrPicId : Nat) (rest : List Bool) :
    (readSlice p.seqParameterSet p.picParameterSet).run
      ((packedSliceHeaderCalls isIdr frameNum idrPicId poc).flatMap BitWriter.Call.code ++ rest) =
      some (packedSliceHeader isIdr (frameNum % 256) idrPicId (poc % 256), rest) := by
  have low (value : Nat) : (value &&& 0xff) % 2 ^ 8 = value % 256 := by
    rw [Nat.and_two_pow_sub_one_eq_mod value 8, Nat.mod_mod]
  have width : p.seqParameterSet.log2MaxFrameNumMinus4 + 4 = 8 := rfl
  have frames : p.seqParameterSet.frameMbsOnlyFlag = true := rfl
  have plane : p.seqParameterSet.chroma.separateColourPlaneFlag = false := by rw [seqParameterSet_chroma]; rfl
  have fields : p.picParameterSet.bottomFieldPicOrderInFramePresentFlag = false := rfl
  have redundant : p.picParameterSet.redundantPicCntPresentFlag = false := rfl
  have cabac : p.picParameterSet.entropyCodingModeFlag = true := rfl
  have deblocking : p.picParameterSet.deblockingFilterControlPresentFlag = true := rfl
  unfold readSlice packedSliceHeaderCalls
  cases isIdr with
  | true =>
    have kind : SliceKind.ofSliceType 7 = some .i := rfl
    have type : 5 % 2 ^ 5 = 5 := rfl
    have refIdc : decide (3 % 2 ^ 2 ≠ 0) = true := rfl
    simp only [if_true, List.append_assoc, flatMap_code_append, flatMap_code_cons, flatMap_code_nil, BitWriter.Call.code]
    rw [run_bind_some (readNalHeader_bits _ _), type, if_pos (by decide)]
    unfold readSliceHeader
    simp only [run_readUnsignedGolomb, run_readFixed, kind, width, frames, plane, fields, redundant, cabac, deblocking,
      readWhen_false, readWhen_true, Bool.not_true, Option.getD_none, decide_true, refIdc, 
      run_bind_some (readPicOrder_bits _ _), SliceKind.intra, run_bind_some (readDecRefPicMarking_idr _), run_readSignedGolomb,
      run_bind_some readDeblockingFilter_bits, PicParameterSet.weighted, Bool.true_or, Bool.not_true, Bool.or_self, reduceCtorEq, decide_false, Bool.true_and, low]
    rfl
  | false =>
    have kind : SliceKind.ofSliceType 5 = some .p := rfl
    have type : 1 % 2 ^ 5 = 1 := rfl
    have other : decide (1 = 5) = false := rfl
    have weights : p.picParameterSet.weightedPredFlag = false := rfl
    have refIdc : decide (3 % 2 ^ 2 ≠ 0) = true := rfl
    simp only [Bool.false_eq_true, if_false, List.append_assoc, flatMap_code_append, flatMap_code_cons, flatMap_code_nil, BitWriter.Call.code]
    rw [run_bind_some (readNalHeader_bits _ _), type, if_pos (by decide)]
    unfold readSliceHeader
    simp only [run_readUnsignedGolomb, run_readFixed, kind, width, frames, plane, fields, redundant, cabac, deblocking,
      readWhen_false, readWhen_true, Bool.not_true, Option.getD_none, refIdc,
      run_bind_some (readPicOrder_bits _ _), SliceKind.intra, run_bind_some (readDecRefPicMarking_sliding _), run_readSignedGolomb,
      run_bind_some readDeblockingFilter_bits, PicParameterSet.weighted, weights, other, Bool.or_self, Bool.not_false, reduceCtorEq, decide_false, Bool.true_and, low,
      run_bind_some (readNumRefIdxActive_bits _), run_bind_some (readRefPicListModification_bits _)]
    rfl

end VaapiParameters

end HyprRdp
