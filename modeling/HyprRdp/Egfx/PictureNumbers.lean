import HyprRdp.Egfx.EncodeCalls
import HyprRdp.Egfx.GeneratedHeaders
import HyprRdp.Lib.History
import HyprRdp.Lib.Runs

namespace HyprRdp

open BitStrings StartCodes H264

/-- A frame that the driver is told to code under these numbers, in its picture, its slice and its packed header. -/
structure VaapiFrame.Numbered (d : VaapiDevice) (f : VaapiFrame) (frameNum poc idrPicId : Nat) : Prop where
  picture : f.picture.frameNum = frameNum ∧ f.picture.currPic.frameIdx = frameNum ∧
    f.picture.currPic.topFieldOrderCnt = poc ∧ f.picture.currPic.bottomFieldOrderCnt = poc
  slice : f.slice.picOrderCntLsb = poc ∧ f.slice.idrPicId = idrPicId
  packed : ∀ packed, f.packedSlice = some packed → ∃ nal header padding, AnnexB.units packed.1 = [nal] ∧
    (readSlice d.parameters.seqParameterSet d.parameters.picParameterSet).run (nalBits (unitBytes nal)) =
      some (header, List.replicate padding false) ∧
    header.frameNum = frameNum ∧ header.picOrderCntLsb = some poc ∧
    header.idrPicId = if f.isIdr then some idrPicId else none

section Returning

variable {s t : VaapiEncoderState} {d : VaapiDevice} {isIdr : Bool} {reconIdx : Nat} {answers : DriverAnswers} {f : VaapiFrame}

theorem VaapiEncoderState.numbering_lt (s : VaapiEncoderState) (isIdr : Bool) :
    (s.numbering isIdr).1 < 256 ∧ (s.numbering isIdr).2 < 256 :=
  ⟨Nat.mod_lt _ (by decide), Nat.mod_lt _ (by decide)⟩

theorem VaapiEncoderState.Returned.numbered (returned : s.Returned d isIdr reconIdx answers t f) :
    f.Numbered d (s.numbering isIdr).1 (s.numbering isIdr).2 (h264IdrPicId s.idrCount) := by
  obtain ⟨frameNum, poc⟩ := s.numbering_lt isIdr
  obtain ⟨codedBufId, picture⟩ := returned.picture
  refine ⟨?_, ?_, ?_⟩
  · rw [picture]
    exact ⟨rfl, rfl, rfl, rfl⟩
  · rw [returned.slice]
    exact ⟨Nat.mod_eq_of_lt (by omega), rfl⟩
  · intro packed sent
    have idrPicId : h264IdrPicId s.idrCount < 16 := Nat.mod_lt _ (by decide)
    obtain ⟨nal, padding, _, units, read, _⟩ :=
      @packed_unit d.parameters _ idrPicId isIdr (s.numbering isIdr).1 (s.numbering isIdr).2
    rw [Nat.mod_eq_of_lt frameNum, Nat.mod_eq_of_lt poc] at read
    rw [returned.packedSlice packed sent, returned.kind]
    exact ⟨nal, _, padding, units, read, rfl, rfl, rfl⟩

theorem VaapiEncoderState.Returned.entry (returned : s.Returned d isIdr reconIdx answers t f) :
    ∃ entry, t.references = some entry ∧ entry.picture = f.picture.currPic ∧
      f.picture.currPic.pictureId = d.reconSurfaces reconIdx := by
  obtain ⟨codedBufId, picture⟩ := returned.picture
  rw [picture]
  exact ⟨_, returned.references, rfl, rfl⟩

end Returning

def IsParameterSetType (type : UInt8) : Prop := type = 7 ∨ type = 8

/-- The units of slices are those of types one and five. -/
def IsSliceType (type : UInt8) : Prop := type = 1 ∨ type = 5

/-- No parameter set comes after a slice. -/
def SetsFirst (data : List UInt8) : Prop :=
  (AnnexB.annexBNalTypes data).Pairwise fun first later => IsSliceType first → ¬ IsParameterSetType later

/-- The frame begins with these parameter sets, or has them among its units before every slice. -/
def VaapiFrame.Carries (f : VaapiFrame) (sets : List UInt8) : Prop :=
  (∃ rest, f.data = sets ++ rest ∧ ∀ type ∈ AnnexB.annexBNalTypes sets, IsParameterSetType type) ∨
  AnnexB.extractSpsPps f.data = some sets ∧ SetsFirst f.data

theorem extracted_types {data found : List UInt8} (run : AnnexB.extractSpsPps data = some found) :
    ∀ type ∈ AnnexB.annexBNalTypes found, IsParameterSetType type := by
  rw [AnnexB.extractSpsPps_eq] at run
  obtain ⟨nonempty, same⟩ := Option.ite_none_left_eq_some.mp run
  have free : ∀ m ∈ (AnnexB.units data).filter AnnexB.isParameterSet, Free m.body := fun m member =>
    nals_free _ _ m (List.mem_filter.mp member).1
  have parameter : ∀ m ∈ (AnnexB.units data).filter AnnexB.isParameterSet, AnnexB.isParameterSet m = true := fun m member =>
    (List.mem_filter.mp member).2
  rw [← Option.some.inj same]
  generalize (AnnexB.units data).filter AnnexB.isParameterSet = sets at *
  obtain ⟨n, ns, rfl⟩ := List.exists_cons_of_ne_nil fun none => nonempty ((AnnexB.flatMap_bytes_eq_nil sets).mpr none)
  have heads := (nals_header n.long (restOf (n :: ns))).trans (headers_units free)
  intro type member
  rw [AnnexB.annexBNalTypes_eq, AnnexB.units_flatMap] at member
  obtain ⟨nal, inside, rfl⟩ := List.mem_map.mp member
  have header : nal.header ∈ (n :: ns).map Nal.header := heads ▸ List.mem_map_of_mem inside
  obtain ⟨original, isOriginal, same⟩ := List.mem_map.mp header
  have found := of_decide_eq_true (parameter original isOriginal)
  rwa [same] at found

theorem generated_types {p : VaapiParameters} (made : p.Made) :
    ∀ type ∈ AnnexB.annexBNalTypes p.generateSpsPps, IsParameterSetType type := by
  obtain ⟨sps, pps, units, spsHeader, ppsHeader, _⟩ := generateSpsPps_units made
  rw [AnnexB.annexBNalTypes_eq, units]
  simp only [List.map_cons, List.map_nil, spsHeader, ppsHeader, List.forall_mem_cons]
  exact ⟨.inl (by decide), .inr (by decide), List.forall_mem_nil _⟩

theorem VaapiFrame.parameterSets_types (d : VaapiDevice) (f : VaapiFrame) :
    ∀ type ∈ AnnexB.annexBNalTypes (f.parameterSets d), IsParameterSetType type := by
  unfold VaapiFrame.parameterSets
  cases found : AnnexB.extractSpsPps f.coded with
  | some sets => exact extracted_types found
  | none => exact generated_types d.made

/-- What becomes of a call: a frame, or an error of a picture that was to be an IDR picture or not. -/
inductive VaapiEvent
  | returned (frame : VaapiFrame)
  | failed (isIdr : Bool)

namespace VaapiEvent

def frame : VaapiEvent → Option VaapiFrame
  | returned frame => some frame
  | failed _ => none

def returnedFrames (events : List VaapiEvent) : List VaapiFrame := events.filterMap frame

/-- The frame returned just before. -/
def lastReturned (events : List VaapiEvent) : Option VaapiFrame := (returnedFrames events).getLast?

/-- The IDR picture returned most recently. -/
def lastIdr (events : List VaapiEvent) : Option VaapiFrame := ((returnedFrames events).filter (·.isIdr)).getLast?

def countFailed (count : Nat) : VaapiEvent → Nat
  | returned frame => if frame.isIdr then 0 else count
  | failed isIdr => count + isIdr.toNat

/-- The attempts at an IDR picture that have failed since one was returned. -/
def failedIdrs (events : List VaapiEvent) : Nat := events.foldl countFailed 0

variable (events : List VaapiEvent) (f : VaapiFrame) (isIdr : Bool)

theorem returnedFrames_returned : returnedFrames (events ++ [returned f]) = returnedFrames events ++ [f] :=
  List.filterMap_append

theorem returnedFrames_failed : returnedFrames (events ++ [failed isIdr]) = returnedFrames events :=
  List.filterMap_append.trans (List.append_nil _)

@[simp] theorem lastReturned_returned : lastReturned (events ++ [returned f]) = some f := by
  rw [lastReturned, returnedFrames_returned, List.getLast?_concat]

@[simp] theorem lastReturned_failed : lastReturned (events ++ [failed isIdr]) = lastReturned events := by
  rw [lastReturned, returnedFrames_failed, lastReturned]

@[simp] theorem lastIdr_returned :
    lastIdr (events ++ [returned f]) = if f.isIdr then some f else lastIdr events := by
  rw [lastIdr, returnedFrames_returned, List.filter_append, lastIdr]
  cases kind : f.isIdr with
  | true => rw [List.filter_singleton, kind, if_pos rfl, cond_true, List.getLast?_concat]
  | false => rw [List.filter_singleton, kind, if_neg Bool.false_ne_true, cond_false, List.append_nil]

@[simp] theorem lastIdr_failed : lastIdr (events ++ [failed isIdr]) = lastIdr events := by
  rw [lastIdr, returnedFrames_failed, lastIdr]

@[simp] theorem failedIdrs_returned :
    failedIdrs (events ++ [returned f]) = if f.isIdr then 0 else failedIdrs events := by
  simp [failedIdrs, countFailed]

@[simp] theorem failedIdrs_failed : failedIdrs (events ++ [failed isIdr]) = failedIdrs events + isIdr.toNat := by
  simp [failedIdrs, countFailed]

end VaapiEvent

open VaapiEvent

/-- What H.264 asks of a frame after the ones before it. -/
structure VaapiFrame.Follows (d : VaapiDevice) (before : List VaapiEvent) (f : VaapiFrame) : Prop where
  idr : f.isIdr = true → f.Numbered d 0 0 f.slice.idrPicId
  distinct : f.isIdr = true → ∀ g, lastIdr before = some g → failedIdrs before < 15 → f.slice.idrPicId ≠ g.slice.idrPicId
  predicted : f.isIdr = false → ∃ g frameNum poc, lastReturned before = some g ∧
    g.Numbered d frameNum poc g.slice.idrPicId ∧
    f.Numbered d ((frameNum + 1) % 256) ((poc + 2) % 256) f.slice.idrPicId
  reference : f.isIdr = false → ∃ g, lastReturned before = some g ∧
    f.picture.referenceFrames = g.picture.currPic :: List.replicate 15 .none ∧
    f.slice.refPicList0 = g.picture.currPic :: List.replicate 31 .none ∧
    f.picture.currPic.pictureId ≠ g.picture.currPic.pictureId
  sets : ∃ g, lastIdr (before ++ [VaapiEvent.returned f]) = some g ∧ f.Carries (g.parameterSets d)

/-- A call, and what the driver answers in it. -/
inductive VaapiCommand
  | encode (answers : DriverAnswers)
  | encodeDmabuf (imported : Except String Nat) (answers : DriverAnswers)
  | forceIdr

/-- An encoder with what has become of its calls. After an error the caller owes it an IDR picture. -/
structure VaapiLog where
  encoder : VaapiEncoderState
  events : List VaapiEvent
  owed : Bool

namespace VaapiLog

def start : VaapiLog := ⟨.new, [], false⟩

def record (l : VaapiLog) (isIdr : Bool) : VaapiEncoderState × Except String VaapiFrame → VaapiLog
  | (encoder, .ok frame) => { encoder, events := l.events ++ [.returned frame], owed := false }
  | (encoder, .error _) => { encoder, events := l.events ++ [.failed isIdr], owed := true }

def next (d : VaapiDevice) (l : VaapiLog) : VaapiCommand → Option VaapiLog
  | .forceIdr => some { l with encoder := l.encoder.force, owed := false }
  | .encode answers =>
    if l.owed then none else some (l.record l.encoder.isIdrFrame (l.encoder.encode d answers))
  | .encodeDmabuf imported answers =>
    if l.owed then none else some (l.record l.encoder.isIdrFrame (l.encoder.encodeDmabuf d imported answers))

/-- The driver puts the parameter sets that it codes with an IDR picture before its slices. -/
def Orders (l : VaapiLog) : VaapiCommand → Prop
  | .encode answers | .encodeDmabuf _ answers =>
    l.encoder.isIdrFrame = true → ∀ coded, answers.coded = .ok coded → SetsFirst coded
  | .forceIdr => True

/-- The runs of one encoder in which the caller forces an IDR picture after every error. -/
def runs (d : VaapiDevice) : StepSystem VaapiLog VaapiCommand := (StepSystem.ofFun start (next d)).guarded Orders

/-- The next picture is predicted from the frame returned last. -/
structure Continues (d : VaapiDevice) (l : VaapiLog) (g : VaapiFrame) : Prop where
  last : lastReturned l.events = some g
  base : l.encoder.idrBase < l.encoder.frameCount
  numbered : g.Numbered d (sliceNumbering (l.encoder.frameCount - 1 - l.encoder.idrBase)).1
    (sliceNumbering (l.encoder.frameCount - 1 - l.encoder.idrBase)).2 g.slice.idrPicId
  reference : ∃ entry, l.encoder.references = some entry ∧ entry.picture = g.picture.currPic
  other : d.reconSurfaces l.encoder.currentReconSurface ≠ g.picture.currPic.pictureId
  sets : ∃ i, lastIdr l.events = some i ∧ l.encoder.cachedSpsPps = some (i.parameterSets d)

structure Inv (d : VaapiDevice) (l : VaapiLog) : Prop where
  base : l.encoder.idrBase ≤ l.encoder.frameCount
  recon : l.encoder.currentReconSurface < reconSurfacePoolSize
  idrs : ∀ g, lastIdr l.events = some g → ∃ k, g.slice.idrPicId = h264IdrPicId k ∧ k < l.encoder.idrCount ∧
    l.encoder.idrCount ≤ k + 1 + failedIdrs l.events
  ready : l.owed = true ∨ l.encoder.forceIdr = true ∨ ∃ g, l.Continues d g
  each : EachAfter (fun before event => ∀ f, event = .returned f → f.Follows d before) l.events

theorem start_inv (d : VaapiDevice) : start.Inv d where
  base := Nat.le_refl 0
  recon := by decide
  idrs g last := by cases last
  ready := .inr (.inl rfl)
  each := .nil

section Steps

variable {d : VaapiDevice} {l : VaapiLog} {t u : VaapiEncoderState} {answers : DriverAnswers} {f : VaapiFrame}

theorem Inv.forced (inv : l.Inv d) : Inv d { l with encoder := l.encoder.force, owed := false } where
  base := inv.base
  recon := inv.recon
  idrs := inv.idrs
  ready := .inr (.inl rfl)
  each := inv.each

/-- An error uses up one number of an IDR picture at most. -/
theorem Inv.failed (inv : l.Inv d) {isIdr : Bool} (message : String) (base : t.idrBase ≤ t.frameCount) (recon : t.currentReconSurface < reconSurfacePoolSize)
    (idrCount : l.encoder.idrCount ≤ t.idrCount ∧ t.idrCount ≤ l.encoder.idrCount + isIdr.toNat) :
    (l.record isIdr (t, .error message)).Inv d where
  base := base
  recon := recon
  idrs g last := by
    rw [record, lastIdr_failed] at last
    obtain ⟨k, same, before, bound⟩ := inv.idrs g last
    refine ⟨k, same, Nat.lt_of_lt_of_le before idrCount.1, ?_⟩
    rw [record, failedIdrs_failed]
    dsimp only
    omega
  ready := .inl rfl
  each := inv.each.concat fun f same => by cases same

theorem pass_recon {i : Nat} (inside : i < reconSurfacePoolSize) (d : VaapiDevice) :
    d.reconSurfaces ((i + 1) % reconSurfacePoolSize) ≠ d.reconSurfaces i := by
  have cases : i = 0 ∨ i = 1 := by
    unfold reconSurfacePoolSize maxNumRefFrames at inside
    omega
  rcases cases with rfl | rfl
  · exact d.reconSurfaces_distinct.symm
  · exact d.reconSurfaces_distinct

theorem idrPicId_ne {k count failed : Nat} (after : k < count) (bound : count ≤ k + 1 + failed) (few : failed < 15) :
    h264IdrPicId count ≠ h264IdrPicId k := by
  unfold h264IdrPicId
  omega

theorem sliceNumbering_next {n : Nat} (positive : 0 < n) :
    sliceNumbering n = (((sliceNumbering (n - 1)).1 + 1) % 256, ((sliceNumbering (n - 1)).2 + 2) % 256) := by
  unfold sliceNumbering
  rw [Prod.mk.injEq]
  dsimp only
  omega

/-- A call that does not code an IDR picture continues the frame returned last. -/
theorem Inv.continues (inv : l.Inv d) (paid : l.owed = false) (predicted : l.encoder.isIdrFrame = false) :
    ∃ g, l.Continues d g := by
  rcases inv.ready with owed | forced | continues
  · cases paid.symm.trans owed
  · rw [VaapiEncoderState.isIdrFrame, forced, Bool.true_or] at predicted
    cases predicted
  · exact continues

theorem Inv.follows_idr (inv : l.Inv d) (prepared : l.encoder.Prepared u)
    (returned : u.Returned d true l.encoder.currentReconSurface answers t f)
    (ordered : ∀ coded, answers.coded = .ok coded → SetsFirst coded) : f.Follows d l.events := by
  have numbered := returned.numbered
  have idrPicId : f.slice.idrPicId = h264IdrPicId u.idrCount := numbered.slice.2
  refine ⟨fun _ => ?_, fun _ g last few => ?_, fun predicted => ?_, fun predicted => ?_, f, ?_, ?_⟩
  · rw [idrPicId]
    exact numbered
  · obtain ⟨k, same, after, bound⟩ := inv.idrs g last
    rw [idrPicId, prepared.idrCount, same]
    exact idrPicId_ne after bound few
  · cases returned.kind.symm.trans predicted
  · cases returned.kind.symm.trans predicted
  · rw [lastIdr_returned, if_pos returned.kind]
  · rcases (returned.idrData rfl).2 with ⟨found, same⟩ | ⟨generated, same⟩
    · refine .inr ⟨same.symm ▸ found, ?_⟩
      rw [same]
      exact ordered _ returned.coded
    · exact .inl ⟨_, same, f.parameterSets_types d⟩

theorem Continues.follows {g : VaapiFrame} (continues : l.Continues d g) (prepared : l.encoder.Prepared u)
    (returned : u.Returned d false l.encoder.currentReconSurface answers t f) : f.Follows d l.events := by
  have numbered := returned.numbered
  have idrPicId : f.slice.idrPicId = h264IdrPicId u.idrCount := numbered.slice.2
  have numbering : u.numbering false = sliceNumbering (l.encoder.frameCount - l.encoder.idrBase) := by
    rw [VaapiEncoderState.numbering, if_neg Bool.false_ne_true, prepared.frameCount, prepared.idrBase]
  have used : u.usedReferences false = l.encoder.references := prepared.references
  obtain ⟨entry, held, picture⟩ := continues.reference
  obtain ⟨codedBufId, submitted⟩ := returned.picture
  rw [used, held] at submitted
  have sliced := returned.slice
  rw [used, held] at sliced
  refine ⟨fun idr => ?_, fun idr => ?_, fun _ => ?_, fun _ => ⟨g, continues.last, ?_, ?_, ?_⟩, ?_⟩
  · cases returned.kind.symm.trans idr
  · cases returned.kind.symm.trans idr
  · have base := continues.base
    have earlier : l.encoder.frameCount - 1 - l.encoder.idrBase = l.encoder.frameCount - l.encoder.idrBase - 1 := by omega
    have next := sliceNumbering_next (Nat.sub_pos_of_lt base)
    have last := continues.numbered
    rw [numbering, next] at numbered
    rw [earlier] at last
    exact ⟨g, _, _, continues.last, last, idrPicId ▸ numbered⟩
  · rw [submitted, ← picture]
    rfl
  · rw [sliced, ← picture]
    rfl
  · rw [submitted]
    exact continues.other
  · obtain ⟨i, last, cached⟩ := continues.sets
    refine ⟨i, ?_, .inl ⟨f.coded, (returned.data rfl).2 _ (prepared.cached.trans cached), i.parameterSets_types d⟩⟩
    rw [lastIdr_returned, returned.kind, if_neg Bool.false_ne_true, last]

theorem Inv.returned (inv : l.Inv d) (paid : l.owed = false) (prepared : l.encoder.Prepared u)
    (returned : u.Returned d l.encoder.isIdrFrame l.encoder.currentReconSurface answers t f)
    (ordered : l.encoder.isIdrFrame = true → ∀ coded, answers.coded = .ok coded → SetsFirst coded) :
    (l.record l.encoder.isIdrFrame (t, .ok f)).Inv d := by
  have numbered := returned.numbered
  have idrPicId : f.slice.idrPicId = h264IdrPicId u.idrCount := numbered.slice.2
  have base := inv.base
  have tBase := returned.idrBase
  have tCount := returned.idrCount
  have tFrames := returned.frameCount
  rw [prepared.frameCount] at tBase tFrames
  rw [prepared.idrBase] at tBase
  rw [prepared.idrCount] at tCount
  have before : t.idrBase < t.frameCount := by
    rw [tBase, tFrames]
    split <;> omega
  obtain ⟨entry, held, picture, surface⟩ := returned.entry
  have numbering : sliceNumbering (t.frameCount - 1 - t.idrBase) = u.numbering l.encoder.isIdrFrame := by
    rw [VaapiEncoderState.numbering, prepared.frameCount, prepared.idrBase, tBase, tFrames, Nat.add_sub_cancel]
    split
    · rw [Nat.sub_self]
    · rfl
  have sets : ∃ i, lastIdr (l.events ++ [VaapiEvent.returned f]) = some i ∧ t.cachedSpsPps = some (i.parameterSets d) := by
    rw [lastIdr_returned, returned.kind]
    cases isIdr : l.encoder.isIdrFrame with
    | true => exact ⟨f, if_pos rfl, (returned.idrData isIdr).1⟩
    | false =>
      obtain ⟨g, continues⟩ := inv.continues paid isIdr
      obtain ⟨i, last, cached⟩ := continues.sets
      exact ⟨i, (if_neg Bool.false_ne_true).trans last, ((returned.data isIdr).1.trans prepared.cached).trans cached⟩
  exact {
    base := before.le
    recon := by
      show t.currentReconSurface < _
      rw [returned.recon, prepared.recon]
      exact Nat.mod_lt _ (by decide)
    idrs := by
      intro g last
      dsimp only [record] at last ⊢
      rw [lastIdr_returned, returned.kind] at last
      rw [failedIdrs_returned, returned.kind, tCount]
      cases isIdr : l.encoder.isIdrFrame with
      | true =>
        rw [isIdr, if_pos rfl] at last
        cases last
        exact ⟨l.encoder.idrCount, idrPicId.trans (by rw [prepared.idrCount]), Nat.lt_succ_self _, Nat.le_refl _⟩
      | false =>
        rw [isIdr, if_neg Bool.false_ne_true] at last
        exact inv.idrs g last
    ready := .inr (.inr ⟨f, {
      last := lastReturned_returned _ _
      base := before
      numbered := by
        dsimp only [record]
        rw [numbering, idrPicId]
        exact numbered
      reference := ⟨entry, held, picture⟩
      other := by
        show d.reconSurfaces t.currentReconSurface ≠ _
        rw [returned.recon, prepared.recon, surface]
        exact pass_recon inv.recon d
      sets }⟩)
    each := by
      refine inv.each.concat fun frame same => ?_
      cases same
      cases isIdr : l.encoder.isIdrFrame with
      | true => exact inv.follows_idr prepared (isIdr ▸ returned) (ordered isIdr)
      | false =>
        obtain ⟨g, continues⟩ := inv.continues paid isIdr
        exact continues.follows prepared (isIdr ▸ returned) }

theorem Inv.call {result : VaapiEncoderState × Except String VaapiFrame} (inv : l.Inv d) (paid : l.owed = false)
    (call : l.encoder.Call d answers result)
    (ordered : l.encoder.isIdrFrame = true → ∀ coded, answers.coded = .ok coded → SetsFirst coded) :
    (l.record l.encoder.isIdrFrame result).Inv d := by
  cases call with
  | refused message => exact inv.failed message inv.base inv.recon ⟨Nat.le_refl _, Nat.le_add_right _ _⟩
  | @unprepared u message prepared =>
    refine inv.failed message ?_ ?_ ⟨prepared.idrCount.ge, ?_⟩
    · rw [prepared.idrBase, prepared.frameCount]
      exact inv.base
    · rw [prepared.recon]
      exact Nat.mod_lt _ (by decide)
    · rw [prepared.idrCount]
      exact Nat.le_add_right _ _
  | @submitted u inputSurface prepared =>
    cases run : u.submit d l.encoder.isIdrFrame inputSurface l.encoder.currentReconSurface l.encoder.currentCodedBuffer answers with
    | mk t outcome =>
      cases outcome with
      | error message =>
        obtain ⟨frames, base, idrs, recon⟩ := VaapiEncoderState.submit_failed run
        rw [prepared.frameCount] at frames base
        rw [prepared.idrBase] at base
        rw [prepared.idrCount] at idrs
        have old := inv.base
        refine inv.failed message ?_ ?_ idrs
        · rcases base with same | same <;> omega
        · rw [recon, prepared.recon]
          exact Nat.mod_lt _ (by decide)
      | ok f => exact inv.returned paid prepared (VaapiEncoderState.submit_returned run) ordered

end Steps

theorem runs_inv (d : VaapiDevice) : (runs d).Inductive (Inv d) where
  base l first := by
    cases first
    exact start_inv d
  keep l command m inv step := by
    obtain ⟨ordered, step⟩ := step
    cases command with
    | encode answers =>
      obtain ⟨paid, same⟩ := Option.ite_none_left_eq_some.mp step
      cases same
      exact inv.call (Bool.eq_false_iff.mpr paid) (l.encoder.encode_call d answers) ordered
    | encodeDmabuf imported answers =>
      obtain ⟨paid, same⟩ := Option.ite_none_left_eq_some.mp step
      cases same
      exact inv.call (Bool.eq_false_iff.mpr paid) (l.encoder.encodeDmabuf_call d imported answers) ordered
    | forceIdr =>
      cases step
      exact inv.forced

end VaapiLog

/-- In every run every frame that is returned follows those before it as H.264 asks. -/
theorem picture_numbers_follow (d : VaapiDevice) {l : VaapiLog} (reach : (VaapiLog.runs d).Reach l) :
    ∀ before f after, l.events = before ++ VaapiEvent.returned f :: after → f.Follows d before := by
  intro before f after same
  exact ((VaapiLog.runs_inv d).reach reach).each before _ after same f rfl

/-- An encoder whose driver takes packed headers. -/
def packingDevice : VaapiDevice where
  parameters := ⟨.h264High, 40, 1366, 768, 30, 4000000, 23, .vbr⟩
  made := ⟨by decide, by decide, by decide, by decide⟩
  packedHeaders := 5
  inputSurfaces i := i
  reconSurfaces i := 3 + i
  codedBuffers i := i
  reconSurfaces_distinct := by decide

/-- A driver that codes an IDR slice without parameter sets. -/
def bareSlice : DriverAnswers where
  image := none
  sequence := none
  rateControl := none
  packedSequence := none
  picture := none
  slice := none
  packedSlice := none
  render := none
  coded := .ok [0, 0, 0, 1, 0x65, 0x88]

theorem picture_numbers_follow_second : ∃ (l : VaapiLog) (before : List VaapiEvent) (f : VaapiFrame),
    (VaapiLog.runs packingDevice).Reach l ∧ l.events = before ++ VaapiEvent.returned f :: [] ∧ before.length = 1 ∧
    f.isIdr = false ∧ f.Follows packingDevice before := by
  have first : (VaapiLog.runs packingDevice).Reach
      (VaapiLog.start.record true (VaapiLog.start.encoder.encode packingDevice bareSlice)) := by
    refine .next (.start rfl) (a := VaapiCommand.encode bareSlice) ⟨fun _ coded same => ?_, rfl⟩
    cases same
    have types : AnnexB.annexBNalTypes [0, 0, 0, 1, 0x65, 0x88] = [5] := by with_unfolding_all decide
    rw [SetsFirst, types]
    exact List.pairwise_singleton _ _
  generalize isOne : VaapiLog.start.record true (VaapiLog.start.encoder.encode packingDevice bareSlice) = one at first
  have paid : one.owed = false := isOne ▸ rfl
  have events : one.events.length = 1 := isOne ▸ rfl
  have predicted : one.encoder.isIdrFrame = false := by
    have count : one.encoder.frameCount = 1 := by
      have kept (s : VaapiEncoderState) (coded : List UInt8) :
          (s.withParameterSets packingDevice true coded).1.frameCount = s.frameCount := by
        obtain ⟨cached, same⟩ := s.withParameterSets_eq packingDevice true coded
        rw [same]
      rw [← isOne]
      exact congrArg (· + 1) (kept _ _)
    have unforced : one.encoder.forceIdr = false := isOne ▸ rfl
    rw [VaapiEncoderState.isIdrFrame, count, unforced]
    rfl
  obtain ⟨f, ok, kind⟩ : ∃ f, (one.encoder.encode packingDevice bareSlice).2 = .ok f ∧ f.isIdr = false := by
    unfold VaapiEncoderState.encode
    rw [predicted]
    exact ⟨_, rfl, rfl⟩
  have second : (VaapiLog.runs packingDevice).Reach (one.record false (one.encoder.encode packingDevice bareSlice)) := by
    refine .next first (a := VaapiCommand.encode bareSlice) ⟨fun idr => ?_, ?_⟩
    · cases predicted.symm.trans idr
    · show (if one.owed = true then none else some _) = _
      rw [paid, predicted]
      rfl
  rw [← Prod.eta (one.encoder.encode packingDevice bareSlice), ok] at second
  exact ⟨_, _, f, second, rfl, events, kind, picture_numbers_follow packingDevice second _ _ _ rfl⟩

end HyprRdp
