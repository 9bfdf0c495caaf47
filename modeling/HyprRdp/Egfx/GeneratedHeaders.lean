import HyprRdp.Egfx.HeaderSyntax

namespace HyprRdp

open BitStrings ByteStuffing StartCodes H264

section Units

variable {α : Type} {reader : BitReader α} {calls : List BitWriter.Call} {value : α}

/-- The bytes of a unit behind its start code. -/
def unitBytes (nal : Nal) : List UInt8 := nal.header :: nal.body

theorem nalBits_finish (w : BitWriter) :
    nalBits w.finishWithEmulationPrevention = w.bits ++ List.replicate w.missing false := w.bits_finish

/-- A string with a stop bit less than a byte from its end makes a unit. -/
theorem finish_unit {w : BitWriter} {before : List Bool} {padding : Nat} (few : padding < 8)
    (written : w.bits ++ List.replicate w.missing false = before ++ true :: List.replicate padding false) :
    ∃ nal : Nal, nal.long = true ∧ unitBytes nal = w.finishWithEmulationPrevention ∧ Free nal.body ∧
      ¬ [0] <:+ nal.header :: nal.body := by
  have flushed := w.bits_flushed.trans written
  have last := BitWriter.flushed_last few flushed
  have clean : Clean w.finishWithEmulationPrevention := stuff_clean _
  cases bytes : w.flushed with
  | nil =>
    rw [bytes] at flushed
    exact absurd flushed.symm (List.append_ne_nil_of_right_ne_nil _ (List.cons_ne_nil _ _))
  | cons byte rest =>
    have head : w.finishWithEmulationPrevention = byte :: stuffFrom (if byte = 0 then 1 else 0) rest := by
      rw [BitWriter.finishWithEmulationPrevention, bytes, stuff_head]
    refine ⟨⟨true, byte, _⟩, rfl, head.symm, clean.free.within (head ▸ (List.suffix_cons _ _).isInfix), ?_⟩
    dsimp only
    rw [← head, List.singleton_suffix_iff_getLast?_eq_some, BitWriter.finishWithEmulationPrevention, getLast?_stuff]
    exact last

theorem units_bytes {n : Nal} {ns : List Nal} (free : ∀ m ∈ n :: ns, Free m.body)
    (ends : ∀ m ∈ n :: ns, ¬ [0] <:+ m.header :: m.body) : AnnexB.units ((n :: ns).flatMap Nal.bytes) = n :: ns :=
  AnnexB.units_flatMap.trans (nals_units free ends)

theorem long_bytes {nal : Nal} (long : nal.long = true) : nal.bytes = startCodeBytes ++ unitBytes nal := by
  unfold Nal.bytes
  rw [long]
  rfl

/-- Fields that are read back, and the trailing bits behind them, make a unit that is read up to these. -/
theorem trailing_unit (allowed : ∀ call ∈ calls, call.Allowed)
    (read : ∀ rest, reader.run (calls.flatMap BitWriter.Call.code ++ rest) = some (value, rest)) :
    let unit := (BitWriter.new.run calls).writeRbspTrailingBits.finishWithEmulationPrevention
    Decodes reader unit value ∧ (∃ more, nalBits unit = calls.flatMap BitWriter.Call.code ++ more) ∧
    ∃ nal : Nal, nal.long = true ∧ unitBytes nal = unit ∧ Free nal.body ∧ ¬ [0] <:+ nal.header :: nal.body := by
  obtain ⟨full, padding, few, bits⟩ := (BitWriter.new.run calls).bits_writeRbspTrailingBits
  have missing : (BitWriter.new.run calls).writeRbspTrailingBits.missing = 0 := by
    unfold BitWriter.missing
    rw [full]
    rfl
  have written : (BitWriter.new.run calls).writeRbspTrailingBits.bits ++
      List.replicate (BitWriter.new.run calls).writeRbspTrailingBits.missing false =
      calls.flatMap BitWriter.Call.code ++ true :: List.replicate padding false := by
    rw [missing, List.replicate_zero, List.append_nil, bits, BitWriter.bits_run allowed]
    rfl
  have unit := (nalBits_finish _).trans written
  refine ⟨⟨padding, few, ?_⟩, ⟨_, unit⟩, finish_unit few written⟩
  rw [unit, read]

theorem header_of_bits {nal : Nal} {header : UInt8} {more : List Bool}
    (bits : nalBits (unitBytes nal) = byteBits header ++ more) : nal.header = header := by
  have first : ∃ rest, unstuff (unitBytes nal) = nal.header :: rest := by
    unfold unitBytes
    by_cases zero : nal.header = 0
    · rw [zero]
      unfold unstuff
      split
      · exact ⟨_, rfl⟩
      · rename_i same
        exact ⟨_, by rw [(List.cons.inj same).1]⟩
      · rename_i same
        cases same
    · exact ⟨_, unstuff_cons zero _⟩
  obtain ⟨rest, same⟩ := first
  unfold nalBits at bits
  rw [same, List.flatMap_cons] at bits
  have length (byte : UInt8) : (byteBits byte).length = 8 := length_fixed 8 _
  exact byteBits_injective (List.append_inj bits ((length _).trans (length _).symm)).1

end Units

namespace VaapiParameters

variable {p : VaapiParameters}

/-- The sequence parameter set says what the encoder and its driver work with. -/
structure SequenceAgrees (p : VaapiParameters) (params : EncSequenceParams) (sps : SeqParameterSet) : Prop where
  profile : sps.profileIdc = if p.profile = .h264High then 100 else 77
  level : sps.levelIdc = p.levelIdc ∧ params.levelIdc = p.levelIdc
  width : sps.croppedWidth = p.width
  height : sps.croppedHeight = p.height
  references : sps.maxNumRefFrames = params.maxNumRefFrames
  macroblocks : (sps.picWidthInMbsMinus1 + 1) % 2 ^ 16 = params.pictureWidthInMbs ∧
    (sps.picHeightInMapUnitsMinus1 + 1) % 2 ^ 16 = params.pictureHeightInMbs
  numbering : sps.log2MaxFrameNumMinus4 = params.seqFields >>> 6 % 16 ∧ sps.picOrderCnt = .lsb (params.seqFields >>> 12 % 16)
  timing : sps.vuiParameters.bind VuiParameters.timingInfo = some ⟨params.numUnitsInTick, params.timeScale, false⟩

/-- The picture parameter set says what the driver is told with each picture. -/
structure PictureAgrees (params : EncPictureParams) (pps : PicParameterSet) : Prop where
  initialQp : pps.picInitQpMinus26 + 26 = params.picInitQp
  references : pps.numRefIdxL0DefaultActiveMinus1 = params.numRefIdxL0ActiveMinus1
  transform : pps.transformMode.transform8x8ModeFlag = params.picFields.testBit 8
  entropyCoding : pps.entropyCodingModeFlag = params.picFields.testBit 3
  deblocking : pps.deblockingFilterControlPresentFlag = params.picFields.testBit 9
  chroma : pps.chromaQpIndexOffset = params.chromaQpIndexOffset ∧
    pps.transformMode.secondChromaQpIndexOffset = params.secondChromaQpIndexOffset

/-- A slice header says what the driver is told with its picture and its slice. -/
structure SliceAgrees (picture : EncPictureParams) (slice : EncSliceParams) (header : SliceHeader) : Prop where
  idr : decide (header.nal.nalUnitType = 5) = picture.picFields.testBit 0
  kind : SliceKind.ofSliceType slice.sliceType = some header.sliceKind
  parameterSet : header.picParameterSetId = slice.picParameterSetId ∧ header.firstMbInSlice = slice.macroblockAddress
  frameNum : header.frameNum = picture.frameNum ∧ picture.currPic.frameIdx = picture.frameNum
  idrPicId : header.idrPicId = if picture.picFields.testBit 0 then some slice.idrPicId else none
  picOrderCnt : header.picOrderCntLsb = some slice.picOrderCntLsb ∧ picture.currPic.topFieldOrderCnt = slice.picOrderCntLsb
  references : header.numRefIdxL0Active = if header.sliceKind.intra then none else some (slice.numRefIdxL0ActiveMinus1 + 1)
  cabac : header.cabacInitIdc.getD 0 = slice.cabacInitIdc
  qp : header.sliceQpDelta = slice.sliceQpDelta
  deblocking : header.deblockingFilter =
    ⟨slice.disableDeblockingFilterIdc, slice.sliceAlphaC0OffsetDiv2, slice.sliceBetaOffsetDiv2⟩

theorem cropped_size {size : Nat} (even : size % 2 = 0) (small : size < 2 ^ 32) (positive : 2 ≤ size) :
    ((size + 15) / 16 - 1 + 1) * 16 - 2 * (0 + if (size + 15) / 16 * 16 % 2 ^ 32 ≠ size then
      ((size + 15) / 16 * 16 % 2 ^ 32 + 2 ^ 32 - size) % 2 ^ 32 / 2 else 0) = size := by
  split <;> omega

theorem chromaFormatCalls_allowed : ∀ call ∈ p.chromaFormatCalls, call.Allowed := by
  unfold chromaFormatCalls
  split <;> simp [BitWriter.Call.Allowed]

theorem frameCroppingCalls_allowed : ∀ call ∈ p.frameCroppingCalls, call.Allowed := by
  have right : p.cropRight < 2 ^ 32 - 1 := by
    unfold cropRight
    split <;> omega
  have bottom : p.cropBottom < 2 ^ 32 - 1 := by
    unfold cropBottom
    split <;> omega
  unfold frameCroppingCalls
  split
  · simp only [List.forall_mem_cons, BitWriter.Call.Allowed]
    exact ⟨by decide, by decide, right, by decide, bottom, List.forall_mem_nil _⟩
  · simp [BitWriter.Call.Allowed]

theorem vuiParametersCalls_allowed : ∀ call ∈ p.vuiParametersCalls, call.Allowed := by
  have scale : p.fps * 2 % 2 ^ 32 < 2 ^ 32 := Nat.mod_lt _ (by decide)
  unfold vuiParametersCalls
  simp [BitWriter.Call.Allowed, maxNumRefFrames]
  exact scale

theorem spsCalls_allowed (made : p.Made) : ∀ call ∈ p.spsCalls, call.Allowed := by
  obtain ⟨level, ⟨_, wide, _⟩, ⟨_, high, _⟩, _⟩ := made
  have mbWidth : p.mbWidth - 1 < 2 ^ 32 - 1 := by
    unfold VaapiParameters.mbWidth
    omega
  have mbHeight : p.mbHeight - 1 < 2 ^ 32 - 1 := by
    unfold VaapiParameters.mbHeight
    omega
  have profile : p.profileIdc < 2 ^ 32 := by
    unfold profileIdc
    split <;> decide
  have levelSmall : p.levelIdc < 2 ^ 32 := by omega
  unfold spsCalls
  simp only [List.forall_mem_append]
  refine ⟨⟨⟨⟨?_, chromaFormatCalls_allowed⟩, ?_⟩, frameCroppingCalls_allowed⟩, vuiParametersCalls_allowed⟩
  · simp [BitWriter.Call.Allowed]
    exact ⟨profile, levelSmall⟩
  · simp [BitWriter.Call.Allowed, maxNumRefFrames]
    exact ⟨mbWidth, mbHeight⟩

theorem picInitQp_le : p.picInitQp ≤ 51 := by
  unfold picInitQp vaapiRateControlPolicy
  cases p.rateControl with
  | vbr =>
    show 26 ≤ 51
    decide
  | cqp => exact min_le_right _ _

theorem ppsCalls_allowed : ∀ call ∈ p.ppsCalls, call.Allowed := by
  have small : |(p.picInitQp : Int) - 26| < 2 ^ 30 := by
    have le := @picInitQp_le p
    rw [abs_lt]
    omega
  unfold ppsCalls transformModeCalls
  simp only [List.forall_mem_append]
  constructor
  · simp [BitWriter.Call.Allowed]
    exact small
  · split <;> simp [BitWriter.Call.Allowed]

theorem packedSliceHeaderCalls_allowed {idrPicId : Nat} (small : idrPicId < 16) (isIdr : Bool) (frameNum poc : Nat) :
    ∀ call ∈ packedSliceHeaderCalls isIdr frameNum idrPicId poc, call.Allowed := by
  have low (value : Nat) : value &&& 255 < 4294967296 := lt_of_le_of_lt Nat.and_le_right (by decide)
  unfold packedSliceHeaderCalls
  cases isIdr with
  | true =>
    simp [BitWriter.Call.Allowed, low]
    omega
  | false => simp [BitWriter.Call.Allowed, low]

theorem seqParameterSet_agrees (made : p.Made) : p.SequenceAgrees p.buildSequenceParams p.seqParameterSet := by
  obtain ⟨_, ⟨wide, wideLt, evenWidth⟩, ⟨high, highLt, evenHeight⟩, rate⟩ := made
  have unitX : p.seqParameterSet.cropUnitX = 2 := by
    unfold SeqParameterSet.cropUnitX SeqParameterSet.chromaArrayType
    rw [seqParameterSet_chroma]
    rfl
  have unitY : p.seqParameterSet.cropUnitY = 2 := by
    unfold SeqParameterSet.cropUnitY SeqParameterSet.chromaArrayType SeqParameterSet.fieldsInMapUnit
    rw [seqParameterSet_chroma]
    rfl
  have crop : (p.frameCropping.elim 0 fun crop => crop.left + crop.right) = 0 + p.cropRight ∧
      (p.frameCropping.elim 0 fun crop => crop.top + crop.bottom) = 0 + p.cropBottom := by
    unfold frameCropping
    cases cropped : p.needCrop with
    | true => exact ⟨rfl, rfl⟩
    | false =>
      unfold needCrop at cropped
      have same := of_decide_eq_false cropped
      push Not at same
      unfold cropRight cropBottom
      rw [if_neg (not_not_intro same.1), if_neg (not_not_intro same.2)]
      exact ⟨rfl, rfl⟩
  constructor
  · show p.profileIdc = _
    unfold profileIdc
    cases p.profile <;> rfl
  · exact ⟨rfl, rfl⟩
  · unfold SeqParameterSet.croppedWidth
    rw [unitX, show p.seqParameterSet.frameCropping = p.frameCropping from rfl, crop.1]
    exact cropped_size evenWidth wideLt wide
  · unfold SeqParameterSet.croppedHeight
    rw [unitY, show p.seqParameterSet.frameCropping = p.frameCropping from rfl, crop.2]
    exact (congrArg (· * 16 - _) (Nat.one_mul _)).trans (cropped_size evenHeight highLt high)
  · rfl
  · have mbWidth : p.mbWidth - 1 + 1 = p.mbWidth := Nat.sub_add_cancel (by unfold VaapiParameters.mbWidth; omega)
    have mbHeight : p.mbHeight - 1 + 1 = p.mbHeight := Nat.sub_add_cancel (by unfold VaapiParameters.mbHeight; omega)
    exact ⟨congrArg (· % 2 ^ 16) mbWidth, congrArg (· % 2 ^ 16) mbHeight⟩
  · exact ⟨(by decide : 4 = h264SeqFieldsValue >>> 6 % 16), congrArg PicOrderCnt.lsb (by decide : 4 = h264SeqFieldsValue >>> 12 % 16)⟩
  · have scale : p.fps * 2 % 2 ^ 32 = p.fps * 2 := Nat.mod_eq_of_lt (by omega)
    show some _ = some (⟨1, p.fps * 2 % 2 ^ 32, false⟩ : TimingInfo)
    rw [scale]

theorem testBit_picFields (isIdr : Bool) (transform8x8ModeFlag : Bool) :
    (h264PicFieldsValue isIdr transform8x8ModeFlag.toNat).testBit 0 = isIdr ∧
    (h264PicFieldsValue isIdr transform8x8ModeFlag.toNat).testBit 3 = true ∧
    (h264PicFieldsValue isIdr transform8x8ModeFlag.toNat).testBit 8 = transform8x8ModeFlag ∧
    (h264PicFieldsValue isIdr transform8x8ModeFlag.toNat).testBit 9 = true := by
  revert isIdr transform8x8ModeFlag
  decide

theorem isHighProfile_eq : p.isHighProfile.toNat = if p.profile = .h264High then 1 else 0 := by
  unfold isHighProfile profileIdc
  cases p.profile <;> rfl

theorem picParameterSet_agrees (reference : Option DpbEntry) (reconSurfaceId codedBufId : Nat) (isIdr : Bool)
    (frameNum poc : Nat) : PictureAgrees (p.buildPictureParams reference reconSurfaceId codedBufId isIdr frameNum poc)
      p.picParameterSet := by
  obtain ⟨_, entropy, transform, deblocking⟩ := testBit_picFields isIdr p.isHighProfile
  rw [isHighProfile_eq] at entropy transform deblocking
  exact {
    initialQp := Int.sub_add_cancel _ _
    references := rfl
    transform := transform.symm
    entropyCoding := entropy.symm
    deblocking := deblocking.symm
    chroma := ⟨rfl, rfl⟩ }

theorem packedSliceHeader_agrees (reference : Option DpbEntry) (reconSurfaceId codedBufId : Nat) (isIdr : Bool)
    (idrPicId : Nat) {frameNum poc : Nat} (small : poc < 256) :
    SliceAgrees (p.buildPictureParams reference reconSurfaceId codedBufId isIdr frameNum poc)
      (p.buildSliceParams reference isIdr idrPicId poc) (packedSliceHeader isIdr frameNum idrPicId poc) := by
  obtain ⟨idr, _⟩ := testBit_picFields isIdr p.isHighProfile
  rw [isHighProfile_eq] at idr
  have kept : poc % 2 ^ 16 = poc := Nat.mod_eq_of_lt (by omega)
  have picFields : (p.buildPictureParams reference reconSurfaceId codedBufId isIdr frameNum poc).picFields.testBit 0 = isIdr :=
    idr
  constructor
  · rw [picFields]
    cases isIdr <;> rfl
  · cases isIdr <;> rfl
  · exact ⟨rfl, rfl⟩
  · exact ⟨rfl, rfl⟩
  · rw [picFields]
    rfl
  · exact ⟨congrArg some kept.symm, kept.symm⟩
  · cases isIdr <;> rfl
  · cases isIdr <;> rfl
  · rfl
  · rfl

end VaapiParameters

/-- Fields that end in a one make a unit that is read up to the zeros behind them. -/
theorem packed_unit {p : VaapiParameters} {idrPicId : Nat} (small : idrPicId < 16) (isIdr : Bool) (frameNum poc : Nat) :
    ∃ nal padding, padding < 8 ∧ AnnexB.units (generatePackedSliceHeader isIdr frameNum idrPicId poc).1 = [nal] ∧
      (readSlice p.seqParameterSet p.picParameterSet).run (nalBits (unitBytes nal)) =
        some (VaapiParameters.packedSliceHeader isIdr (frameNum % 256) idrPicId (poc % 256), List.replicate padding false) ∧
      (generatePackedSliceHeader isIdr frameNum idrPicId poc).2 + padding = 32 + (nalBits (unitBytes nal)).length := by
  have bits := @BitWriter.bits_run .new _ (VaapiParameters.packedSliceHeaderCalls_allowed small isIdr frameNum poc)
  have last : ∃ before, (packedSliceHeaderCalls isIdr frameNum idrPicId poc).flatMap BitWriter.Call.code =
      before ++ signedGolomb 0 := by
    unfold packedSliceHeaderCalls
    rw [List.flatMap_append]
    exact ⟨_, (List.append_assoc _ (signedGolomb 0 ++ (unsignedGolomb 0 ++ signedGolomb 0)) (signedGolomb 0)).symm⟩
  obtain ⟨before, ends⟩ := last
  have few := (BitWriter.new.run (packedSliceHeaderCalls isIdr frameNum idrPicId poc)).missing_lt
  obtain ⟨nal, long, bytes, free, clean⟩ := @finish_unit _ before _ few (by
    have one : signedGolomb 0 = [true] := rfl
    rw [bits, ends, one, BitWriter.bits_new, List.nil_append, List.append_assoc]
    rfl)
  have units := @units_bytes nal [] (by simpa using free) (by simpa using clean)
  rw [List.flatMap_singleton, long_bytes long, bytes] at units
  refine ⟨nal, _, few, units, ?_, ?_⟩
  · rw [bytes, nalBits_finish, bits]
    exact VaapiParameters.readSlice_calls isIdr idrPicId _
  · rw [bytes, nalBits_finish, List.length_append, BitWriter.length_bits, List.length_replicate, ← Nat.add_assoc]
    rfl

/-- The units that an encoder generates, their types and what they are read as. -/
theorem generateSpsPps_units {p : VaapiParameters} (made : p.Made) : ∃ sps pps,
    AnnexB.units p.generateSpsPps = [sps, pps] ∧ sps.header = 0x67 ∧ pps.header = 0x68 ∧
    Decodes readSeqParameterSet (unitBytes sps) p.seqParameterSet ∧
    Decodes (readPicParameterSet p.seqParameterSet) (unitBytes pps) p.picParameterSet := by
  obtain ⟨spsRead, ⟨spsMore, spsBits⟩, sps, spsLong, spsBytes, spsFree, spsEnds⟩ :=
    trailing_unit (VaapiParameters.spsCalls_allowed made) (VaapiParameters.readSeqParameterSet_calls made.level made.fps)
  obtain ⟨ppsRead, ⟨ppsMore, ppsBits⟩, pps, ppsLong, ppsBytes, ppsFree, ppsEnds⟩ :=
    trailing_unit (@VaapiParameters.ppsCalls_allowed p) (VaapiParameters.readPicParameterSet_calls p.seqParameterSet)
  have units := @units_bytes sps [pps] (by simpa using ⟨spsFree, ppsFree⟩) (by simpa using ⟨spsEnds, ppsEnds⟩)
  rw [List.flatMap_cons, List.flatMap_singleton, long_bytes spsLong, long_bytes ppsLong, spsBytes, ppsBytes,
    ← List.append_assoc] at units
  obtain ⟨spsRest, spsHead⟩ : ∃ rest, p.spsCalls.flatMap BitWriter.Call.code = byteBits 0x67 ++ rest := ⟨_, rfl⟩
  obtain ⟨ppsRest, ppsHead⟩ : ∃ rest, p.ppsCalls.flatMap BitWriter.Call.code = byteBits 0x68 ++ rest := ⟨_, rfl⟩
  rw [← spsBytes, spsHead, List.append_assoc] at spsBits
  rw [← ppsBytes, ppsHead, List.append_assoc] at ppsBits
  exact ⟨sps, pps, units, header_of_bits spsBits, header_of_bits ppsBits, spsBytes ▸ spsRead, ppsBytes ▸ ppsRead⟩

/-- What is written is read back, and the headers of every encoder say what its driver is told. -/
theorem generated_headers_decode :
    (∀ calls : List BitWriter.Call, (∀ call ∈ calls, call.Allowed) →
      let unit := (BitWriter.new.run calls).finishWithEmulationPrevention
      (∃ padding < 8, (BitWriter.readAll calls).run (nalBits unit) =
        some (calls.map BitWriter.Call.written, List.replicate padding false)) ∧ Clean unit) ∧
    ∀ p : VaapiParameters, p.Made → ∃ spsNal ppsNal sps pps,
      AnnexB.units p.generateSpsPps = [spsNal, ppsNal] ∧
      Decodes readSeqParameterSet (unitBytes spsNal) sps ∧ p.SequenceAgrees p.buildSequenceParams sps ∧
      Decodes (readPicParameterSet sps) (unitBytes ppsNal) pps ∧
      ∀ (reference : Option DpbEntry) (reconSurfaceId codedBufId : Nat) (isIdr : Bool) (framesSinceIdr idrSequence : Nat),
        let numbering := sliceNumbering framesSinceIdr
        let idrPicId := h264IdrPicId idrSequence
        let picture := p.buildPictureParams reference reconSurfaceId codedBufId isIdr numbering.1 numbering.2
        let slice := p.buildSliceParams reference isIdr idrPicId numbering.2
        let packed := generatePackedSliceHeader isIdr numbering.1 idrPicId numbering.2
        VaapiParameters.PictureAgrees picture pps ∧
        ∃ nal header padding, padding < 8 ∧ AnnexB.units packed.1 = [nal] ∧
          (readSlice sps pps).run (nalBits (unitBytes nal)) = some (header, List.replicate padding false) ∧
          packed.2 + padding = 32 + (nalBits (unitBytes nal)).length ∧
          VaapiParameters.SliceAgrees picture slice header := by
  refine ⟨fun calls allowed => ?_, fun p made => ?_⟩
  · refine ⟨⟨_, (BitWriter.new.run calls).missing_lt, ?_⟩, stuff_clean _⟩
    rw [nalBits_finish, BitWriter.bits_run allowed]
    exact BitWriter.readAll_code calls _
  · obtain ⟨sps, pps, units, _, _, spsRead, ppsRead⟩ := generateSpsPps_units made
    refine ⟨sps, pps, p.seqParameterSet, p.picParameterSet, units, spsRead, VaapiParameters.seqParameterSet_agrees made,
      ppsRead, ?_⟩
    intro reference reconSurfaceId codedBufId isIdr framesSinceIdr idrSequence numbering idrPicId picture slice packed
    obtain ⟨nal, padding, few, unit, read, length⟩ :=
      @packed_unit p idrPicId (Nat.mod_lt _ (by decide)) isIdr numbering.1 numbering.2
    have frameNum : numbering.1 % 256 = numbering.1 := Nat.mod_mod _ _
    have poc : numbering.2 % 256 = numbering.2 := Nat.mod_mod _ _
    rw [frameNum, poc] at read
    exact ⟨VaapiParameters.picParameterSet_agrees _ _ _ _ _ _, nal, _, padding, few, unit, read, length,
      VaapiParameters.packedSliceHeader_agrees _ _ _ _ _ (Nat.mod_lt _ (by decide))⟩

/-- A size that is no multiple of sixteen. -/
theorem generated_headers_decode_cropped : ∃ spsNal ppsNal sps,
    AnnexB.units (VaapiParameters.generateSpsPps ⟨.h264Main, 32, 1366, 770, 60, 10000000, 23, .cqp⟩) = [spsNal, ppsNal] ∧
    Decodes readSeqParameterSet (unitBytes spsNal) sps ∧ sps.croppedWidth = 1366 ∧ sps.croppedHeight = 770 := by
  obtain ⟨spsNal, ppsNal, sps, _, units, read, agrees, _⟩ := generated_headers_decode.2
    ⟨.h264Main, 32, 1366, 770, 60, 10000000, 23, .cqp⟩ ⟨by decide, by decide, by decide, by decide⟩
  exact ⟨spsNal, ppsNal, sps, units, read, agrees.width, agrees.height⟩

end HyprRdp
