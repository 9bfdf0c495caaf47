import HyprRdp.Egfx.EncodeSteps

namespace HyprRdp

/-- The parameter sets that came with an IDR picture. -/
def VaapiFrame.parameterSets (d : VaapiDevice) (f : VaapiFrame) : List UInt8 :=
  (AnnexB.extractSpsPps f.coded).getD d.parameters.generateSpsPps

namespace VaapiEncoderState

section Calls

variable {s t : VaapiEncoderState} {d : VaapiDevice} {isIdr : Bool} {inputSurface reconIdx codedIdx : Nat}
  {answers : DriverAnswers} {f : VaapiFrame} {message : String}

/-- The references of a picture. -/
def usedReferences (s : VaapiEncoderState) (isIdr : Bool) : Option DpbEntry := if isIdr then none else s.references

def numbering (s : VaapiEncoderState) (isIdr : Bool) : Nat × Nat :=
  sliceNumbering (if isIdr then 0 else s.frameCount - s.idrBase)

/-- What a call that fails after its input is in place has changed. -/
structure Failed (s : VaapiEncoderState) (isIdr : Bool) (t : VaapiEncoderState) : Prop where
  frameCount : t.frameCount = s.frameCount
  idrBase : t.idrBase = s.idrBase ∨ t.idrBase = s.frameCount
  idrCount : s.idrCount ≤ t.idrCount ∧ t.idrCount ≤ s.idrCount + isIdr.toNat
  recon : t.currentReconSurface = s.currentReconSurface

/-- What a call returns, and what it leaves behind. -/
structure Returned (s : VaapiEncoderState) (d : VaapiDevice) (isIdr : Bool) (reconIdx : Nat) (answers : DriverAnswers)
    (t : VaapiEncoderState) (f : VaapiFrame) : Prop where
  kind : f.isIdr = isIdr
  picture : ∃ codedBufId, f.picture = d.parameters.buildPictureParams (s.usedReferences isIdr) (d.reconSurfaces reconIdx)
    codedBufId isIdr (s.numbering isIdr).1 (s.numbering isIdr).2
  slice : f.slice = d.parameters.buildSliceParams (s.usedReferences isIdr) isIdr (h264IdrPicId s.idrCount)
    (s.numbering isIdr).2
  packedSlice : ∀ packed, f.packedSlice = some packed →
    packed = generatePackedSliceHeader isIdr (s.numbering isIdr).1 (h264IdrPicId s.idrCount) (s.numbering isIdr).2
  coded : answers.coded = .ok f.coded
  idrData : isIdr = true → t.cachedSpsPps = some (f.parameterSets d) ∧
    (AnnexB.extractSpsPps f.coded = some (f.parameterSets d) ∧ f.data = f.coded ∨
      f.parameterSets d = d.parameters.generateSpsPps ∧ f.data = f.parameterSets d ++ f.coded)
  data : isIdr = false → t.cachedSpsPps = s.cachedSpsPps ∧
    ∀ spsPps, s.cachedSpsPps = some spsPps → f.data = spsPps ++ f.coded
  references : t.references = some ⟨d.reconSurfaces reconIdx, (s.numbering isIdr).1, (s.numbering isIdr).2⟩
  forceIdr : t.forceIdr = false
  frameCount : t.frameCount = s.frameCount + 1
  idrBase : t.idrBase = if isIdr then s.frameCount else s.idrBase
  idrCount : t.idrCount = s.idrCount + isIdr.toNat
  recon : t.currentReconSurface = s.currentReconSurface

theorem sequenceBuffers_eq (s : VaapiEncoderState) (d : VaapiDevice) (isIdr : Bool) (answers : DriverAnswers) :
    ∃ cached, (s.sequenceBuffers d isIdr answers).1 = { s with cachedSpsPps := cached } ∧
      (isIdr = false → cached = s.cachedSpsPps) := by
  unfold sequenceBuffers
  cases isIdr with
  | false => exact ⟨s.cachedSpsPps, rfl, fun _ => rfl⟩
  | true =>
    rw [if_pos rfl]
    cases answers.sequence.or answers.rateControl with
    | some message => exact ⟨s.cachedSpsPps, rfl, fun predicted => by cases predicted⟩
    | none =>
      dsimp only
      split
      · cases answers.packedSequence with
        | some message => exact ⟨s.cachedSpsPps, rfl, fun predicted => by cases predicted⟩
        | none => exact ⟨_, rfl, fun predicted => by cases predicted⟩
      · exact ⟨s.cachedSpsPps, rfl, fun predicted => by cases predicted⟩

theorem startPicture_numbering (s : VaapiEncoderState) (isIdr : Bool) :
    sliceNumbering ((s.startPicture isIdr).frameCount - (s.startPicture isIdr).idrBase) = s.numbering isIdr := by
  unfold startPicture numbering
  cases isIdr with
  | false => rfl
  | true => exact congrArg sliceNumbering (Nat.sub_self _)

theorem startPicture_references (s : VaapiEncoderState) (isIdr : Bool) :
    (s.startPicture isIdr).references = s.usedReferences isIdr := by
  cases isIdr <;> rfl

theorem startPicture_counts (s : VaapiEncoderState) (isIdr : Bool) :
    (s.startPicture isIdr).frameCount = s.frameCount ∧ (s.startPicture isIdr).cachedSpsPps = s.cachedSpsPps ∧
    (s.startPicture isIdr).currentReconSurface = s.currentReconSurface ∧
    (s.startPicture isIdr).idrCount = s.idrCount + isIdr.toNat ∧
    (s.startPicture isIdr).idrBase = if isIdr then s.frameCount else s.idrBase := by
  cases isIdr with
  | false => exact ⟨rfl, rfl, rfl, rfl, rfl⟩
  | true => exact ⟨rfl, rfl, rfl, rfl, rfl⟩

theorem withParameterSets_eq (s : VaapiEncoderState) (d : VaapiDevice) (isIdr : Bool) (coded : List UInt8) :
    ∃ cached, (s.withParameterSets d isIdr coded).1 = { s with cachedSpsPps := cached } := by
  unfold withParameterSets
  split
  · split
    · exact ⟨_, rfl⟩
    · exact ⟨_, rfl⟩
  · split
    · exact ⟨s.cachedSpsPps, rfl⟩
    · exact ⟨s.cachedSpsPps, rfl⟩

theorem withParameterSets_idr (s : VaapiEncoderState) (d : VaapiDevice) (coded : List UInt8) :
    let sets := (AnnexB.extractSpsPps coded).getD d.parameters.generateSpsPps
    (s.withParameterSets d true coded).1.cachedSpsPps = some sets ∧
    (AnnexB.extractSpsPps coded = some sets ∧ (s.withParameterSets d true coded).2 = coded ∨
      sets = d.parameters.generateSpsPps ∧ (s.withParameterSets d true coded).2 = sets ++ coded) := by
  unfold withParameterSets
  cases AnnexB.extractSpsPps coded with
  | some sets => exact ⟨rfl, .inl ⟨rfl, rfl⟩⟩
  | none => exact ⟨rfl, .inr ⟨rfl, rfl⟩⟩

theorem withParameterSets_predicted (s : VaapiEncoderState) (d : VaapiDevice) (coded : List UInt8) :
    (s.withParameterSets d false coded).1.cachedSpsPps = s.cachedSpsPps ∧
    ∀ spsPps, s.cachedSpsPps = some spsPps → (s.withParameterSets d false coded).2 = spsPps ++ coded := by
  unfold withParameterSets
  cases held : s.cachedSpsPps with
  | some sets =>
    refine ⟨held, fun spsPps same => ?_⟩
    rw [← Option.some.inj same]
    rfl
  | none => exact ⟨held, fun spsPps same => by cases same⟩

theorem submit_failed (run : s.submit d isIdr inputSurface reconIdx codedIdx answers = (t, .error message)) :
    s.Failed isIdr t := by
  obtain ⟨frames, _, recon, idrs, base⟩ := s.startPicture_counts isIdr
  obtain ⟨cached, buffers, _⟩ := (s.startPicture isIdr).sequenceBuffers_eq d isIdr answers
  have kept (u : VaapiEncoderState) (references : Option DpbEntry)
      (same : u = { s.startPicture isIdr with cachedSpsPps := cached, references }) : s.Failed isIdr u := by
    rw [same]
    refine ⟨frames, ?_, ⟨?_, ?_⟩, recon⟩
    · dsimp only
      rw [base]
      cases isIdr with
      | false => exact .inl rfl
      | true => exact .inr rfl
    · dsimp only
      omega
    · dsimp only
      omega
  unfold submit at run
  dsimp only at run
  rw [buffers] at run
  split at run
  · cases run
    exact kept _ _ rfl
  · split at run
    · cases run
      exact kept _ _ rfl
    · cases run

theorem submit_returned (run : s.submit d isIdr inputSurface reconIdx codedIdx answers = (t, .ok f)) :
    s.Returned d isIdr reconIdx answers t f := by
  obtain ⟨frames, before, recon, idrs, base⟩ := s.startPicture_counts isIdr
  obtain ⟨cached, buffers, unchanged⟩ := (s.startPicture isIdr).sequenceBuffers_eq d isIdr answers
  have references := s.startPicture_references isIdr
  unfold submit at run
  dsimp only at run
  rw [buffers, s.startPicture_numbering isIdr] at run
  split at run
  · cases run
  · split at run
    · cases run
    · rename_i coded answered
      generalize rendering : ({ s.startPicture isIdr with
        cachedSpsPps := cached
        references := some ⟨d.reconSurfaces reconIdx, (s.numbering isIdr).1, (s.numbering isIdr).2⟩ } :
          VaapiEncoderState) = rendered at run
      obtain ⟨stored, state⟩ := rendered.withParameterSets_eq d isIdr coded
      cases run
      exact {
        kind := rfl
        picture := ⟨d.codedBuffers codedIdx, by dsimp only; rw [references]⟩
        slice := by dsimp only; rw [references]
        packedSlice := by
          intro packed sent
          dsimp only at sent
          split at sent
          · exact (Option.some.inj sent).symm
          · cases sent
        coded := answered
        idrData := by
          rintro rfl
          exact rendered.withParameterSets_idr d coded
        data := by
          rintro rfl
          obtain ⟨same, prepended⟩ := rendered.withParameterSets_predicted d coded
          have held : rendered.cachedSpsPps = s.cachedSpsPps := by
            rw [← rendering]
            exact (unchanged rfl).trans before
          exact ⟨same.trans held, fun spsPps found => prepended spsPps (held.trans found)⟩
        references := by
          dsimp only
          rw [state, ← rendering]
        forceIdr := rfl
        frameCount := by
          dsimp only
          rw [state, ← rendering]
          exact congrArg (· + 1) frames
        idrBase := by
          dsimp only
          rw [state, ← rendering]
          exact base
        idrCount := by
          dsimp only
          rw [state, ← rendering]
          exact idrs
        recon := by
          dsimp only
          rw [state, ← rendering]
          exact recon }

/-- The input of a call is in place: only surfaces have been passed over. -/
structure Prepared (s u : VaapiEncoderState) : Prop where
  references : u.references = s.references
  cached : u.cachedSpsPps = s.cachedSpsPps
  frameCount : u.frameCount = s.frameCount
  idrBase : u.idrBase = s.idrBase
  idrCount : u.idrCount = s.idrCount
  recon : u.currentReconSurface = (s.currentReconSurface + 1) % reconSurfacePoolSize

/-- How far a call gets. -/
inductive Call (s : VaapiEncoderState) (d : VaapiDevice) (answers : DriverAnswers) :
    VaapiEncoderState × Except String VaapiFrame → Prop
  | refused (message : String) : Call s d answers (s, .error message)
  | unprepared {u : VaapiEncoderState} (message : String) : s.Prepared u → Call s d answers (u, .error message)
  | submitted {u : VaapiEncoderState} (inputSurface : Nat) : s.Prepared u →
    Call s d answers (u.submit d s.isIdrFrame inputSurface s.currentReconSurface s.currentCodedBuffer answers)

theorem encode_call (s : VaapiEncoderState) (d : VaapiDevice) (answers : DriverAnswers) :
    s.Call d answers (s.encode d answers) := by
  unfold encode
  dsimp only
  split
  · exact .unprepared _ ⟨rfl, rfl, rfl, rfl, rfl, rfl⟩
  · exact .submitted _ ⟨rfl, rfl, rfl, rfl, rfl, rfl⟩

theorem encodeDmabuf_call (s : VaapiEncoderState) (d : VaapiDevice) (imported : Except String Nat) (answers : DriverAnswers) :
    s.Call d answers (s.encodeDmabuf d imported answers) := by
  unfold encodeDmabuf
  split
  · exact .refused _
  · exact .submitted _ ⟨rfl, rfl, rfl, rfl, rfl, rfl⟩
  · exact .submitted _ ⟨rfl, rfl, rfl, rfl, rfl, rfl⟩

end Calls

end VaapiEncoderState

end HyprRdp
