import HyprRdp.Capture.Calls

namespace HyprRdp

/-- The frame gives every pixel of the picture a new value. -/
def WireFrame.Whole (wire : WireFrame) (shape : FrameShape) : Prop :=
  ∀ px < shape.width, ∀ py < shape.height, wire.Paints px py

instance (wire : WireFrame) (shape : FrameShape) : Decidable (wire.Whole shape) :=
  inferInstanceAs (Decidable (∀ px < shape.width, ∀ py < shape.height, wire.Paints px py))

/-- An AVC444 encoder works on frames of the processor's size. -/
def FrameEncoder.Fits (shape : FrameShape) : FrameEncoder → Prop
  | .vaapi | .software => True
  | .softwareAvc444 enc => enc.width = shape.width ∧ enc.height = shape.height

namespace FrameEncoder

variable {shape : FrameShape} {enc : FrameEncoder}

theorem Fits.forceIdr (fits : enc.Fits shape) : enc.forceIdr.Fits shape := by
  cases enc <;> exact fits

theorem Fits.forceFullFrame (fits : enc.Fits shape) : enc.forceFullFrame.Fits shape := by
  cases enc <;> exact fits

theorem Fits.commitAfterSend (fits : enc.Fits shape) (frame : EncodedEgfxFrame) :
    (enc.commitAfterSend frame).Fits shape := by
  cases frame <;> cases enc <;> exact fits

theorem new_fits {policy : H264BackendPolicy} {backends : H264Backends} (run : new policy backends = some enc) :
    enc.Fits shape := by
  unfold new at run
  split at run
  · cases run
    trivial
  · split at run
    · cases run
    · split at run
      · cases run
        trivial
      · cases run

theorem newAvc444SoftwareOnly_fits {backends : H264Backends}
    (run : newAvc444SoftwareOnly shape.width shape.height backends = some enc) : enc.Fits shape := by
  unfold newAvc444SoftwareOnly at run
  obtain ⟨_, run⟩ := Option.ite_none_right_eq_some.mp run
  obtain ⟨inner, made, rfl⟩ := Option.map_eq_some_iff.mp run
  unfold Avc444Encoder.new at made
  obtain ⟨_, same⟩ := Option.ite_none_right_eq_some.mp made
  cases same
  exact ⟨rfl, rfl⟩

theorem newForEgfxCodec_fits {policy : H264BackendPolicy} {codec : EgfxFrameCodec} {backends : H264Backends}
    (run : newForEgfxCodec policy codec shape.width shape.height backends = some enc) : enc.Fits shape := by
  cases codec with
  | avc420 => exact new_fits run
  | avc444 =>
    obtain ⟨_, run⟩ := Option.ite_none_left_eq_some.mp run
    exact newAvc444SoftwareOnly_fits run

theorem newSoftwareOnlyForEgfxCodec_fits {codec : EgfxFrameCodec} {backends : H264Backends}
    (run : newSoftwareOnlyForEgfxCodec codec shape.width shape.height backends = some enc) : enc.Fits shape := by
  cases codec with
  | avc420 =>
    obtain ⟨_, same⟩ := Option.ite_none_right_eq_some.mp run
    cases same
    trivial
  | avc444 => exact newAvc444SoftwareOnly_fits run

variable {inner : FrameEncoder} {codec : EgfxFrameCodec} {bgra : Bytes} {stride : Nat} {regions : List Region}
  {debugFullFrame : Bool} {first second : Except String Nat} {result : Except String EncodedEgfxFrame}

theorem Fits.encode (fits : enc.Fits shape)
    (run : enc.encodeEgfxFrame codec bgra stride regions debugFullFrame first second = (inner, result)) :
    inner.Fits shape := by
  unfold encodeEgfxFrame at run
  split at run
  · cases run; trivial
  · cases run; trivial
  · cases run; exact fits
  · cases run; trivial
  · cases run; trivial
  · rename_i encoder
    dsimp only at run
    rcases encoded : encoder.encode bgra stride regions debugFullFrame first second with ⟨after, outcome⟩
    rw [encoded] at run
    cases run
    have same := Avc444Encoder.encode_same encoded
    exact ⟨same.width.trans fits.1, same.height.trans fits.2⟩

end FrameEncoder

/-- An AVC444 encoder some frame of which was delivered. -/
def FrameEncoder.hasReference : FrameEncoder → Bool
  | .vaapi | .software => false
  | .softwareAvc444 enc => enc.lumaReference.isSome

namespace FrameEncoder

variable {enc inner : FrameEncoder}

theorem hasReference_forceIdr (enc : FrameEncoder) : enc.forceIdr.hasReference = enc.hasReference := by
  cases enc <;> rfl

theorem hasReference_forceFullFrame (enc : FrameEncoder) : enc.forceFullFrame.hasReference = enc.hasReference := by
  cases enc <;> rfl

theorem hasReference_new {policy : H264BackendPolicy} {backends : H264Backends} (run : new policy backends = some enc) :
    enc.hasReference = false := by
  unfold new at run
  split at run
  · cases run
    rfl
  · split at run
    · cases run
    · split at run
      · cases run
        rfl
      · cases run

theorem hasReference_newAvc444SoftwareOnly {width height : Nat} {backends : H264Backends}
    (run : newAvc444SoftwareOnly width height backends = some enc) : enc.hasReference = false := by
  unfold newAvc444SoftwareOnly at run
  obtain ⟨_, run⟩ := Option.ite_none_right_eq_some.mp run
  obtain ⟨encoder, made, rfl⟩ := Option.map_eq_some_iff.mp run
  unfold Avc444Encoder.new at made
  obtain ⟨_, same⟩ := Option.ite_none_right_eq_some.mp made
  cases same
  rfl

theorem hasReference_newForEgfxCodec {policy : H264BackendPolicy} {codec : EgfxFrameCodec} {width height : Nat}
    {backends : H264Backends} (run : newForEgfxCodec policy codec width height backends = some enc) :
    enc.hasReference = false := by
  cases codec with
  | avc420 => exact hasReference_new run
  | avc444 =>
    obtain ⟨_, run⟩ := Option.ite_none_left_eq_some.mp run
    exact hasReference_newAvc444SoftwareOnly run

theorem hasReference_newSoftwareOnlyForEgfxCodec {codec : EgfxFrameCodec} {width height : Nat} {backends : H264Backends}
    (run : newSoftwareOnlyForEgfxCodec codec width height backends = some enc) : enc.hasReference = false := by
  cases codec with
  | avc420 =>
    obtain ⟨_, same⟩ := Option.ite_none_right_eq_some.mp run
    cases same
    rfl
  | avc444 => exact hasReference_newAvc444SoftwareOnly run

theorem hasReference_encode {codec : EgfxFrameCodec} {bgra : Bytes} {stride : Nat} {regions : List Region}
    {debugFullFrame : Bool} {first second : Except String Nat} {result : Except String EncodedEgfxFrame}
    (run : enc.encodeEgfxFrame codec bgra stride regions debugFullFrame first second = (inner, result)) :
    inner.hasReference = enc.hasReference := by
  unfold encodeEgfxFrame at run
  split at run
  · cases run; rfl
  · cases run; rfl
  · cases run; rfl
  · cases run; rfl
  · cases run; rfl
  · rename_i encoder
    dsimp only at run
    rcases encoded : encoder.encode bgra stride regions debugFullFrame first second with ⟨after, outcome⟩
    rw [encoded] at run
    cases run
    exact congrArg Option.isSome (Avc444Encoder.encode_same encoded).luma

end FrameEncoder

theorem damageRegionsToAvc420_whole {shape : FrameShape} (qp px : Nat) (column : px < shape.width) (py : Nat)
    (row : py < shape.height) :
    ∃ r ∈ damageRegionsToAvc420 [.full shape.width shape.height] shape.width shape.height qp, r.edges.Covers px py := by
  have columns := shape.width_le
  have rows := shape.height_le
  refine (damageRegionsToAvc420_covers (by omega) (by omega) _ qp).mpr ⟨column, row, ?_⟩
  exact (Covered.cons _ _ _ _).mpr (.inl ((Region.covers_full _ _ _ _).mpr ⟨column, row⟩))

/-- What makes a frame whole: all regions for AVC420, no luma reference or a forced frame for AVC444. -/
def WholeDue (shape : FrameShape) (regions : List Region) (debugFullFrame : Bool) : FrameEncoder → Prop
  | .vaapi | .software => regions = [.full shape.width shape.height]
  | .softwareAvc444 enc => enc.forcing debugFullFrame = true ∨ enc.lumaReference = none

/-- A frame that is due as a whole leaves as a whole. -/
theorem sent_whole {shape : FrameShape} {enc inner : FrameEncoder} {codec : EgfxFrameCodec} {bgra : Bytes}
    {stride surface quality : Nat} {regions : List Region} {debugFullFrame accepted : Bool}
    {first second : Except String Nat} {frame : EncodedEgfxFrame} {wire : WireFrame} (fits : enc.Fits shape)
    (due : WholeDue shape regions debugFullFrame enc)
    (encoded : enc.encodeEgfxFrame codec bgra stride regions debugFullFrame first second = (inner, .ok frame))
    (left : sendTrackedEncodedEgfxFrame surface frame regions shape.width shape.height quality accepted = some wire) :
    wire.Whole shape := by
  have columns := shape.width_le
  have rows := shape.height_le
  have covers := @damageRegionsToAvc420_whole shape quality
  rcases encodeEgfxFrame_ok encoded with ⟨_, plain, len, rfl⟩ | ⟨_, encoder, after, encodedFrame, rfl, _, rfl, run⟩
  · have full : regions = [.full shape.width shape.height] := by
      rcases plain with rfl | rfl
      · exact due
      · exact due
    subst full
    have within : ∀ r ∈ [Region.full shape.width shape.height], r.Within shape.width shape.height := by
      intro r member
      rw [List.mem_singleton.mp member]
      exact Region.full_within shape.width_pos shape.height_pos
    rw [sent_avc420 (by omega) (by omega) within (List.cons_ne_nil _ _) left]
    exact covers
  · rcases Avc444Encoder.encode_cases run with ⟨_, _, failed⟩ | ⟨converted, candidates, conversion, selection⟩
    · cases failed
    · obtain ⟨_, _, carried⟩ := Avc444Encoder.encodeSelection_sendable selection (sent_sendable left)
      have luma : (converted.select (encoder.forcing debugFullFrame) candidates).lumaRegions =
          [.full shape.width shape.height] := by
        have same := Avc444Encoder.convert_same conversion
        rw [Avc444Encoder.select_whole (due.imp_right same.luma.trans), same.width, same.height, fits.1, fits.2]
      rw [sent_avc444 left]
      intro px column py row
      cases carried with
      | chroma still => rw [luma] at still; cases still
      | luma encoding regions => 
        rw [encoding, regions, luma]
        exact ⟨nofun, covers px column py row⟩
      | both encoding regions =>
        rw [encoding, regions, luma]
        exact ⟨nofun, covers px column py row⟩

/-- The processor's encoder works on frames of its size. -/
def FrameProcessor.EncoderFits (p : FrameProcessor) : Prop := ∀ enc, p.h264Encoder = some enc → enc.Fits p.shape

namespace FrameProcessor

variable {p : FrameProcessor}

theorem refreshClearcodec_fits (fits : p.EncoderFits) (env : Environment) : (p.refreshClearcodec env).EncoderFits := by
  unfold refreshClearcodec
  split
  · exact nofun
  · exact fits

theorem refreshReadiness_fits (fits : p.EncoderFits) (ready : Bool) : (p.refreshReadiness ready).EncoderFits := by
  unfold refreshReadiness
  split
  · exact fits
  · split
    · exact fits
    · exact nofun

theorem refreshEncoder_fits (fits : p.EncoderFits) (env : Environment) (ready : Bool) :
    (p.refreshEncoder env ready).EncoderFits := by
  unfold refreshEncoder
  dsimp only
  split
  · split
    · split
      · rename_i enc made
        intro other held
        cases held
        exact FrameEncoder.newForEgfxCodec_fits made
      · exact nofun
    · exact nofun
  · exact fits

theorem runtimeFallback_fits (fits : p.EncoderFits) (env : Environment) : (p.runtimeFallback env).EncoderFits := by
  unfold runtimeFallback
  split
  · split
    · split
      · rename_i enc made
        intro other held
        cases held
        exact FrameEncoder.newSoftwareOnlyForEgfxCodec_fits made
      · exact nofun
    · exact nofun
  · exact fits

theorem activate_shape (p : FrameProcessor) (env : Environment) (ready : Bool) :
    (p.activate env ready).shape = p.shape := by
  unfold activate
  split <;> rfl

theorem activate_encoder (env : Environment) (ready : Bool) : (p.activate env ready).h264Encoder = p.h264Encoder := by
  unfold activate
  split <;> rfl

theorem activate_fits (fits : p.EncoderFits) (env : Environment) (ready : Bool) : (p.activate env ready).EncoderFits := by
  unfold activate
  split
  · exact fits
  · exact fits

end FrameProcessor

namespace Call

variable {c : Call} {env : Environment} {data : Bytes} {regions : List Region}

theorem initSurface_encoder (c : Call) (env : Environment) :
    (c.initSurface env).processor.h264Encoder = c.processor.h264Encoder := by
  unfold initSurface
  dsimp only
  split
  · split <;> rfl
  · rfl

theorem taken_processor (c : Call) (env : Environment) : (c.taken env).processor = (c.refresh env).processor := by
  have heard : (c.prepared env).processor = (c.refresh env).processor := hear_processor _ _
  unfold taken take
  split <;> exact heard

theorem surfaced_processor (c : Call) (env : Environment) :
    (c.surfaced env).processor.h264Encoder = (c.taken env).processor.h264Encoder ∧
    (c.surfaced env).processor.shape = (c.taken env).processor.shape :=
  ⟨(initSurface_encoder _ env).trans (FrameProcessor.activate_encoder env _),
    (initSurface_quiet _ env).shape.trans (FrameProcessor.activate_shape _ env _)⟩

theorem refresh_fits (fits : c.processor.EncoderFits) (env : Environment) : (c.refresh env).processor.EncoderFits := by
  rw [refresh_processor]
  exact FrameProcessor.refreshEncoder_fits (FrameProcessor.refreshReadiness_fits fits _) env _

theorem initSurface_fits (fits : c.processor.EncoderFits) (env : Environment) :
    (c.initSurface env).processor.EncoderFits := by
  have shape := (c.initSurface_quiet env).shape
  intro enc held
  rw [shape]
  exact fits enc ((c.initSurface_encoder env).symm.trans held)

theorem forcedEncoder_fits {p : FrameProcessor} (fits : p.EncoderFits) {force : Bool} {enc : FrameEncoder}
    (held : forcedEncoder p force = some enc) : enc.Fits p.shape := by
  unfold forcedEncoder at held
  split at held
  · obtain ⟨inner, isInner, rfl⟩ := Option.map_eq_some_iff.mp held
    exact (fits inner isInner).forceFullFrame
  · exact fits enc held

theorem forcedEncoder_hasReference {p : FrameProcessor} {force : Bool} {enc : FrameEncoder}
    (held : forcedEncoder p force = some enc) :
    ∃ original, p.h264Encoder = some original ∧ original.hasReference = enc.hasReference := by
  unfold forcedEncoder at held
  split at held
  · obtain ⟨original, isOriginal, rfl⟩ := Option.map_eq_some_iff.mp held
    exact ⟨original, isOriginal, original.hasReference_forceFullFrame.symm⟩
  · exact ⟨enc, held, rfl⟩

theorem Encoded.fits {surface : Nat} {force : Bool} {result : Call × Bool} (fits : c.processor.EncoderFits)
    (run : c.Encoded env data surface force regions result) : result.1.processor.EncoderFits := by
  cases run with
  | idle =>
    dsimp only
    rw [hear_processor]
    exact fits
  | unsent idr failures before encoded =>
    have inner := (forcedEncoder_fits fits before).encode encoded
    intro other held
    cases held
    cases idr with
    | true => exact inner.forceIdr
    | false => exact inner
  | sent before encoded left =>
    have inner := (forcedEncoder_fits fits before).encode encoded
    intro other held
    cases held
    exact inner.commitAfterSend _

theorem afterSend_fits (fits : c.processor.EncoderFits) (env : Environment) (force sent : Bool) :
    (c.afterSend env force sent).processor.EncoderFits := by
  unfold afterSend
  dsimp only
  refine FrameProcessor.runtimeFallback_fits ?_ env
  split
  · dsimp only
    rw [hear_processor]
    exact fits
  · rw [hear_processor]
    exact fits

theorem Transmitted.fits {ready force : Bool} {outcome : AvcOutcome} (fits : c.processor.EncoderFits)
    (run : c.Transmitted env data ready force regions outcome) : outcome.call.processor.EncoderFits := by
  have active : (c.activated env ready).processor.EncoderFits := FrameProcessor.activate_fits fits env ready
  have surfaced := initSurface_fits active env
  cases run with
  | inactive => exact active
  | surfaceless => exact surfaced
  | waiting => exact surfaced
  | tried _ _ encoded => exact afterSend_fits (encoded.fits surfaced) env force _

theorem AvcRun.fits {outcome : AvcOutcome} (fits : c.processor.EncoderFits) (run : c.AvcRun env data outcome) :
    outcome.call.processor.EncoderFits := by
  have refreshed := refresh_fits fits env
  have taken : (c.taken env).processor.EncoderFits := by
    rw [taken_processor]
    exact refreshed
  cases run with
  | postponed => exact refreshed
  | unchanged => exact taken
  | transmitted _ _ run => exact run.fits taken

theorem finish_fits (fits : c.processor.EncoderFits) (env : Environment) (data : Bytes) (sent : Bool) :
    (c.finish env data sent).1.processor.EncoderFits := by
  cases sent with
  | true =>
    rw [finish_sent]
    exact fits
  | false =>
    unfold finish
    simp only [Bool.not_false, Bool.true_and, Bool.false_eq_true, if_false]
    split
    · split
      · exact fits
      · exact fits
    · exact fits

theorem ClearcodecRun.fits {result : Call × Bool} (fits : c.processor.EncoderFits)
    (run : c.ClearcodecRun env data result) : result.1.processor.EncoderFits := by
  have refreshed := FrameProcessor.refreshClearcodec_fits fits env
  have prepared : (c.clearcodecPrepared env).processor.EncoderFits := by
    unfold clearcodecPrepared
    rw [hear_processor, hear_processor]
    exact refreshed
  cases run with
  | unavailable => exact refreshed
  | unready =>
    dsimp only
    rw [hear_processor]
    exact refreshed
  | unchanged => exact prepared
  | surfaceless => exact prepared
  | tried run =>
    cases run with
    | unsent =>
      dsimp only
      rw [hear_processor]
      exact prepared
    | queued => exact prepared

theorem CallRun.fits {result : Call × Bool} (fits : c.processor.EncoderFits) (run : c.CallRun env data result) :
    result.1.processor.EncoderFits := by
  cases run with
  | skipped => exact fits
  | resized => exact fits
  | clearcodec _ run => exact run.fits fits
  | plain => exact finish_fits fits env data false
  | @avc outcome _ run =>
    have after := run.fits fits
    cases outcome with
    | returned => exact after
    | passed => exact finish_fits after env data _

end Call

end HyprRdp
