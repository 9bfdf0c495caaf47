import HyprRdp.Capture.EmptyOutputs

namespace HyprRdp

/-- Something that the processor was given has not been sent. -/
def FrameProcessor.unsettled (p : FrameProcessor) : Bool := p.hasPendingDamage || !p.sentFirstFrame

theorem FrameProcessor.unsettled_of_ledger {p q : FrameProcessor} (same : q.ledger = p.ledger) : q.unsettled = p.unsettled := by
  have pending : q.pendingDamageRegions = p.pendingDamageRegions := congrArg Ledger.pendingDamageRegions same
  have first : q.sentFirstFrame = p.sentFirstFrame := congrArg Ledger.sentFirstFrame same
  unfold unsettled hasPendingDamage
  rw [pending, first]

theorem FrameEncoder.encodeEgfxFrame_isVaapi (enc : FrameEncoder) (codec : EgfxFrameCodec) (bgra : Bytes) (stride : Nat)
    (regions : List Region) (debugFullFrame : Bool) (first second : Except String Nat) :
    (enc.encodeEgfxFrame codec bgra stride regions debugFullFrame first second).1.isVaapi = enc.isVaapi := by
  cases codec <;> cases enc <;> rfl

theorem FrameEncoder.forceIdr_isVaapi (enc : FrameEncoder) : enc.forceIdr.isVaapi = enc.isVaapi := by
  cases enc <;> rfl

namespace FrameProcessor

variable {p : FrameProcessor} {env : Environment}

/-- The fallback takes H.264 away, or the surface. -/
theorem runtimeFallback_available {enc : FrameEncoder} (active : p.egfxActive = true) (surface : p.egfxSurfaceId.isSome = true)
    (held : p.h264Encoder = some enc) :
    (p.runtimeFallback env).egfxRuntimeAvailable = !(enc.isVaapi && decide (maxEncodeFailures ≤ p.encodeFailures)) := by
  have vaapi : p.h264Encoder.any FrameEncoder.isVaapi = enc.isVaapi := by rw [held]; rfl
  unfold runtimeFallback
  rw [vaapi]
  split
  · rename_i failed
    rw [failed.2, decide_eq_true failed.1]
    split
    · split
      · exact Bool.and_false _
      · rfl
    · rfl
  · rename_i fine
    have fine : (enc.isVaapi && decide (maxEncodeFailures ≤ p.encodeFailures)) = false := by
      refine Bool.eq_false_iff.mpr fun both => fine ?_
      obtain ⟨isVaapi, many⟩ := (Bool.and_eq_true _ _).mp both
      exact ⟨of_decide_eq_true many, isVaapi⟩
    rw [fine]
    unfold egfxRuntimeAvailable
    rw [active, held, surface]
    rfl

end FrameProcessor

namespace Call

variable {c d : Call} {env : Environment} {data : Bytes}

/-- The readiness check of the ClearCodec path. -/
def clearcodecReadiness (c : Call) (env : Environment) : EgfxFrameReadiness :=
  if ((c.update (c.processor.refreshClearcodec env)).hear env.requestBeforeRefreshCheck).fullFrameRequested then
    env.refreshView.fullFrameRefreshReadiness
  else env.frameView.frameReadiness

/-- The ClearCodec frame has no rectangle, or the server takes none now. -/
def clearcodecUnsent (p : FrameProcessor) (env : Environment) (data : Bytes) (damage : List Region) : Bool :=
  match ClearCodecInput.new data p.shape.width p.shape.height p.shape.stride damage p.pixelFormat with
  | .error _ => false
  | .ok input => input.rectangles.isEmpty || env.clearcodecSend == .retry

/-- On the ClearCodec path a frame stays behind when there is no channel, when a
readiness check fails, when there is no surface, or when the server takes no frame now. -/
def clearcodecHoldsBack (c : Call) (env : Environment) (data : Bytes) : Bool :=
  let p := (c.clearcodecPrepared env).processor
  p.unsettled &&
    (!env.hasHandle || !env.hasSender ||
      !env.senderClosed &&
        (!(c.clearcodecReadiness env).isReady ||
          !(c.clearcodecDamage env data).isEmpty &&
            (env.surface == .failed || clearcodecUnsent p env data (c.clearcodecDamage env data))))

/-- The legacy bitmap stands in for a frame that has not left over EGFX. -/
def bitmapStandsIn (env : Environment) (unavailable : Bool) : Bool :=
  if env.readyAtEnd then !env.avcAtEnd || unavailable else env.bitmapFallbackDue

/-- What the encoder makes of the frame, if there is an encoder. -/
def coded (c : Call) (env : Environment) (data : Bytes) (force : Bool) (regions : List Region) :
    Option (FrameEncoder × Except String EncodedEgfxFrame) :=
  (forcedEncoder c.processor force).map fun enc =>
    (enc, (enc.encodeEgfxFrame (c.processor.egfxCodec.getD .avc420) data c.processor.shape.stride regions
      env.debugFullFrame env.firstSubframe env.secondSubframe).2)

/-- The encoder makes a frame that is accepted for sending. -/
def leaves (c : Call) (env : Environment) (data : Bytes) (surface : Nat) (force : Bool) (regions : List Region) : Bool :=
  c.processor.egfxHandle && c.processor.egfxSender &&
    (c.coded env data force regions).any fun (_, result) =>
      match result with
      | .error _ => false
      | .ok frame =>
        (sendTrackedEncodedEgfxFrame surface frame regions c.processor.shape.width c.processor.shape.height
          c.processor.metadataQp env.frameAccepted).isSome

/-- H.264 is given up for now: there is no encoder, or VA-API has failed once too often. -/
def givesUp (c : Call) (env : Environment) (data : Bytes) (force : Bool) (regions : List Region) : Bool :=
  match c.coded env data force regions with
  | none => true
  | some (enc, result) =>
    enc.isVaapi && decide (maxEncodeFailures ≤ c.processor.encodeFailures + 1) &&
      match result with
      | .error _ => true
      | .ok frame => frame.state == .invalid

/-- On the H.264 path a frame stays behind when a readiness check fails, or when
no encoded frame leaves and no bitmap stands in for it. -/
def avcHoldsBack (c : Call) (env : Environment) (data : Bytes) : Bool :=
  let d := c.surfaced env
  let regions := c.damage env data
  (c.taken env).processor.unsettled &&
    (c.postponed env ||
      !((c.taken env).processor.sentFirstFrame && regions.isEmpty) &&
        if c.canTransmit env then
          d.processor.egfxHandle && !env.frameView.frameReadiness.isReady ||
            !d.leaves env data (d.processor.egfxSurfaceId.getD 0) (c.forced env) regions &&
              !bitmapStandsIn env (d.givesUp env data (c.forced env) regions)
        else !bitmapStandsIn env true)

/-- A call that gets to the frame has something to send, and meets what keeps it from leaving. -/
def holdsBack (c : Call) (env : Environment) (data : Bytes) : Bool :=
  c.proceeds env &&
    if c.clearcodecBranch env then c.clearcodecHoldsBack env data
    else c.processor.egfxShared && c.avcHoldsBack env data

/-- The loop goes on, and something of what the processor was given has not been sent. -/
def stays (result : Call × Bool) : Bool := result.2 && result.1.processor.unsettled

theorem sendClearcodec_stays (c : Call) (env : Environment) (data : Bytes) (damage : List Region) (surface : Nat) :
    stays (c.sendClearcodec env data damage surface) =
      (c.processor.unsettled && clearcodecUnsent c.processor env data damage) := by
  unfold sendClearcodec clearcodecUnsent
  dsimp only
  rw [hear_processor]
  cases ClearCodecInput.new data c.processor.shape.width c.processor.shape.height c.processor.shape.stride damage
    c.processor.pixelFormat with
  | error message => exact (Bool.and_false _).symm
  | ok input =>
    dsimp only
    cases none_ : input.rectangles.isEmpty with
    | true =>
      rw [if_pos rfl, Bool.true_or, Bool.and_true]
      unfold stays
      rw [hear_processor]
      rfl
    | false =>
      rw [if_neg Bool.false_ne_true]
      cases sent : env.clearcodecSend with
      | retry =>
        unfold stays
        rw [hear_processor]
        exact Bool.and_comm _ _
      | queued => exact (Bool.and_false _).symm
      | failed => exact (Bool.and_false _).symm

/-- Damage is only ever empty when it was detected, after a first frame. -/
theorem clearcodecDamage_isEmpty (same : (c.clearcodecDamage env data).isEmpty = true) :
    (c.clearcodecPrepared env).processor.sentFirstFrame = true := by
  have partly : c.fullRefresh env = false := by
    by_contra full
    rw [Bool.not_eq_false] at full
    unfold clearcodecDamage at same
    rw [full] at same
    cases same
  unfold fullRefresh at partly
  simpa using (Bool.or_eq_false_iff.mp partly).2

theorem processClearcodec_stays (c : Call) (env : Environment) (data : Bytes) :
    stays (c.processClearcodec env data) = c.clearcodecHoldsBack env data := by
  have checked : ((c.update (c.processor.refreshClearcodec env)).hear env.requestBeforeRefreshCheck).processor =
      c.processor.refreshClearcodec env := hear_processor _ _
  have prepared : (c.clearcodecPrepared env).processor = c.processor.refreshClearcodec env :=
    (hear_processor _ _).trans checked
  unfold processClearcodec clearcodecHoldsBack
  dsimp only
  rw [prepared]
  cases channel : !env.hasHandle || !env.hasSender with
  | true =>
    rw [if_pos rfl, Bool.true_or, Bool.and_true]
    rfl
  | false =>
    rw [if_neg Bool.false_ne_true, Bool.false_or]
    cases closed : env.senderClosed with
    | true =>
      rw [if_pos rfl, Bool.not_true, Bool.false_and, Bool.and_false]
      rfl
    | false =>
      rw [if_neg Bool.false_ne_true, Bool.not_false, Bool.true_and]
      change stays (if (!(c.clearcodecReadiness env).isReady) = true then _ else _) = _
      cases ready : !(c.clearcodecReadiness env).isReady with
      | true =>
        rw [if_pos rfl, Bool.true_or, Bool.and_true]
        unfold stays
        rw [checked]
        exact Bool.true_and _
      | false =>
        rw [if_neg Bool.false_ne_true, Bool.false_or]
        change stays (if (c.clearcodecDamage env data).isEmpty = true then _ else _) = _
        cases same : (c.clearcodecDamage env data).isEmpty with
        | true =>
          rw [if_pos rfl, Bool.not_true, Bool.false_and, Bool.and_false]
          change (true && (false || !(c.clearcodecPrepared env).processor.sentFirstFrame)) = false
          rw [clearcodecDamage_isEmpty same]
          rfl
        | false =>
          rw [if_neg Bool.false_ne_true, Bool.not_false, Bool.true_and]
          have started : ∀ id created, stays (((c.clearcodecPrepared env).emit (.surface id created)).sendClearcodec env data
              (c.clearcodecDamage env data) id) = ((c.processor.refreshClearcodec env).unsettled &&
                clearcodecUnsent (c.processor.refreshClearcodec env) env data (c.clearcodecDamage env data)) := by
            intro id created
            rw [← prepared]
            exact sendClearcodec_stays _ env data _ id
          cases surface : env.surface with
          | failed =>
            unfold stays
            dsimp only
            rw [hear_processor, checked]
            exact (Bool.true_and _).trans (Bool.and_true _).symm
          | reused id => exact started id false
          | created id => exact started id true

theorem finish_stays (shared : c.processor.egfxShared = true) (env : Environment) (data : Bytes) :
    stays (c.finish env data false) =
      (c.processor.unsettled && !bitmapStandsIn env (!c.processor.egfxRuntimeAvailable)) := by
  have due : c.processor.shouldSendBitmap env = bitmapStandsIn env (!c.processor.egfxRuntimeAvailable) := by
    unfold FrameProcessor.shouldSendBitmap bitmapStandsIn
    rw [shared]
    cases env.readyAtEnd <;> rfl
  unfold finish
  simp only [Bool.not_false, Bool.true_and, Bool.false_eq_true, if_false, due]
  cases bitmapStandsIn env (!c.processor.egfxRuntimeAvailable) with
  | false => exact (Bool.true_and _).trans (Bool.and_true _).symm
  | true =>
    rw [if_pos rfl, Bool.not_true, Bool.and_false]
    split <;> rfl

theorem finish_sent_stays (c : Call) (env : Environment) (data : Bytes) : stays (c.finish env data true) = false := by
  unfold stays
  rw [finish_sent]
  exact Bool.and_false _

section Encode

variable {surface : Nat} {force : Bool} {regions : List Region}

theorem encodeAndSend_leaves (c : Call) (env : Environment) (data : Bytes) (surface : Nat) (force : Bool)
    (regions : List Region) :
    (c.encodeAndSend env data surface force regions).2 = c.leaves env data surface force regions := by
  unfold encodeAndSend leaves coded
  dsimp only
  rw [hear_processor]
  have forced : (if force then c.processor.h264Encoder.map .forceFullFrame else c.processor.h264Encoder) =
      forcedEncoder c.processor force := rfl
  rw [forced]
  cases held : forcedEncoder c.processor force with
  | none => exact (Bool.and_false _).symm
  | some enc =>
    dsimp only [Option.map_some, Option.any_some]
    rcases (enc.encodeEgfxFrame (c.processor.egfxCodec.getD .avc420) data c.processor.shape.stride regions
      env.debugFullFrame env.firstSubframe env.secondSubframe) with ⟨inner, result⟩
    cases result with
    | error message => exact (Bool.and_false _).symm
    | ok frame =>
      dsimp only
      have unsendable : frame.state ≠ .sendable → sendTrackedEncodedEgfxFrame surface frame regions c.processor.shape.width
          c.processor.shape.height c.processor.metadataQp env.frameAccepted = none := fun state => if_pos state
      cases state : frame.state with
      | skipped => rw [unsendable (by rw [state]; nofun)]; exact (Bool.and_false _).symm
      | invalid => rw [unsendable (by rw [state]; nofun)]; exact (Bool.and_false _).symm
      | sendable =>
        dsimp only
        cases handle : c.processor.egfxHandle with
        | false => rfl
        | true =>
          cases sender : c.processor.egfxSender with
          | false => rfl
          | true =>
            rw [if_neg (by decide)]
            cases sendTrackedEncodedEgfxFrame surface frame regions c.processor.shape.width
              c.processor.shape.height c.processor.metadataQp env.frameAccepted <;> rfl

/-- What is left of H.264 after a frame that did not leave. -/
theorem encodeAndSend_available (active : c.processor.egfxActive = true) (surfaced : c.processor.egfxSurfaceId.isSome = true)
    (unsent : c.leaves env data surface force regions = false) :
    (((c.encodeAndSend env data surface force regions).1.processor).runtimeFallback env).egfxRuntimeAvailable =
      !c.givesUp env data force regions := by
  rw [← encodeAndSend_leaves] at unsent
  unfold givesUp coded
  unfold encodeAndSend at unsent ⊢
  dsimp only at unsent ⊢
  rw [hear_processor] at unsent ⊢
  have forced : (if force then c.processor.h264Encoder.map .forceFullFrame else c.processor.h264Encoder) =
      forcedEncoder c.processor force := rfl
  rw [forced] at unsent ⊢
  cases held : forcedEncoder c.processor force with
  | none =>
    have without : c.processor.h264Encoder = none := by
      unfold forcedEncoder at held
      split at held
      · exact Option.map_eq_none_iff.mp held
      · exact held
    dsimp only
    rw [hear_processor]
    unfold FrameProcessor.runtimeFallback FrameProcessor.egfxRuntimeAvailable
    rw [without, if_neg (fun failed => Bool.false_ne_true failed.2), without, active]
    rfl
  | some enc =>
    rw [held] at unsent
    dsimp only [Option.map_some] at unsent ⊢
    have same := enc.encodeEgfxFrame_isVaapi (c.processor.egfxCodec.getD .avc420) data c.processor.shape.stride regions
      env.debugFullFrame env.firstSubframe env.secondSubframe
    generalize enc.encodeEgfxFrame (c.processor.egfxCodec.getD .avc420) data c.processor.shape.stride regions
      env.debugFullFrame env.firstSubframe env.secondSubframe = encoded at unsent same ⊢
    obtain ⟨inner, result⟩ := encoded
    dsimp only at same
    have settled : ∀ (next : FrameEncoder) (failures : Nat), next.isVaapi = enc.isVaapi →
        (FrameProcessor.runtimeFallback { c.processor with h264Encoder := some next, encodeFailures := failures }
          env).egfxRuntimeAvailable = !(enc.isVaapi && decide (maxEncodeFailures ≤ failures)) := by
      intro next failures vaapi
      have failed := @FrameProcessor.runtimeFallback_available
        { c.processor with h264Encoder := some next, encodeFailures := failures } env next active surfaced rfl
      rw [failed, vaapi]
    cases result with
    | error message =>
      rw [Bool.and_true]
      exact settled inner.forceIdr _ (inner.forceIdr_isVaapi.trans same)
    | ok frame =>
      dsimp only at unsent ⊢
      cases state : frame.state with
      | skipped =>
        exact (settled inner 0 same).trans (by simp [maxEncodeFailures])
      | invalid =>
        rw [beq_self_eq_true, Bool.and_true]
        exact settled inner.forceIdr _ (inner.forceIdr_isVaapi.trans same)
      | sendable =>
        rw [state] at unsent
        dsimp only at unsent ⊢
        split
        · exact (settled inner 0 same).trans (by simp [maxEncodeFailures])
        · split
          · exact (settled inner.forceIdr 0 (inner.forceIdr_isVaapi.trans same)).trans (by simp [maxEncodeFailures])
          · rename_i opened _ wire left
            rw [if_neg opened, left] at unsent
            cases unsent

/-- From the encoder on, a frame stays behind when it does not leave and no bitmap stands in for it. -/
theorem encodeAndSend_stays (shared : c.processor.egfxShared = true) (active : c.processor.egfxActive = true)
    (surfaced : c.processor.egfxSurfaceId.isSome = true) :
    let sent := (c.encodeAndSend env data surface force regions).2
    stays (((c.encodeAndSend env data surface force regions).1.afterSend env force sent).finish env data sent) =
      (c.processor.unsettled && (!c.leaves env data surface force regions &&
        !bitmapStandsIn env (c.givesUp env data force regions))) := by
  intro send
  have encoded := encodeAndSend_encoded c env data surface force regions
  have left : send = c.leaves env data surface force regions := c.encodeAndSend_leaves env data surface force regions
  rw [← left]
  cases sent : send with
  | true =>
    rw [Bool.not_true, Bool.false_and, Bool.and_false]
    exact finish_sent_stays _ env data
  | false =>
    have quiet := (encoded.quiet sent).trans (afterSend_quiet _ env force false)
    have heeds := encoded.heeds.trans (afterSend_heeds _ env force false)
    refine (finish_stays (heeds.shared.trans shared) env data).trans ?_
    rw [FrameProcessor.unsettled_of_ledger quiet.ledger, Bool.not_false, Bool.true_and]
    have available := encodeAndSend_available active surfaced (left.symm.trans sent)
    rw [afterSend_processor, available, Bool.not_not]

/-- From the transport on, a frame stays behind when it cannot be tried, or does not leave, and no bitmap stands in for it. -/
theorem transmit_stays (shared : c.processor.egfxShared = true) (env : Environment) (data : Bytes) (ready force : Bool)
    (regions : List Region) :
    stays ((c.transmit env data ready force regions).finished env data) =
      (c.processor.unsettled &&
        if (c.activated env ready).processor.egfxActive &&
            ((c.activated env ready).initSurface env).processor.egfxSurfaceId.isSome then
          ((c.activated env ready).initSurface env).processor.egfxHandle && !env.frameView.frameReadiness.isReady ||
            !((c.activated env ready).initSurface env).leaves env data
                (((c.activated env ready).initSurface env).processor.egfxSurfaceId.getD 0) force regions &&
              !bitmapStandsIn env (((c.activated env ready).initSurface env).givesUp env data force regions)
        else !bitmapStandsIn env true) := by
  have active := c.activated_quiet env ready
  have surfaced := active.trans ((c.activated env ready).initSurface_quiet env)
  have heeds := (c.activated_heeds env ready).trans ((c.activated env ready).initSurface_heeds env)
  have sameActive := (c.activated env ready).initSurface_active env
  unfold transmit
  dsimp only
  rw [show c.update (c.processor.activate env ready) = c.activated env ready from rfl]
  cases on : (c.activated env ready).processor.egfxActive with
  | false =>
    rw [if_pos (by rfl), Bool.false_and, if_neg Bool.false_ne_true]
    refine (finish_stays ((c.activated_heeds env ready).shared.trans shared) env data).trans ?_
    rw [FrameProcessor.unsettled_of_ledger active.ledger]
    unfold FrameProcessor.egfxRuntimeAvailable
    rw [on]
    rfl
  | true =>
    rw [if_neg (by decide), Bool.true_and]
    rw [on] at sameActive
    generalize (c.activated env ready).initSurface env = d at surfaced heeds sameActive
    have shared := heeds.shared.trans shared
    rw [← FrameProcessor.unsettled_of_ledger surfaced.ledger]
    cases held : d.processor.egfxSurfaceId with
    | none =>
      rw [Option.isSome_none, if_neg Bool.false_ne_true]
      refine (finish_stays shared env data).trans ?_
      unfold FrameProcessor.egfxRuntimeAvailable
      rw [held, Option.isSome_none, Bool.and_false]
      rfl
    | some surface =>
      rw [Option.isSome_some, if_pos rfl, Option.getD_some]
      dsimp only
      cases blocked : d.processor.egfxHandle && !env.frameView.frameReadiness.isReady with
      | true =>
        rw [if_pos rfl, Bool.true_or, Bool.and_true]
        exact Bool.true_and _
      | false =>
        rw [if_neg Bool.false_ne_true, Bool.false_or]
        exact encodeAndSend_stays shared sameActive (by rw [held]; rfl)

end Encode

theorem processAvc_stays (shared : c.processor.egfxShared = true) (env : Environment) (data : Bytes) :
    stays ((c.processAvc env data).finished env data) = c.avcHoldsBack env data := by
  unfold processAvc avcHoldsBack
  dsimp only
  change stays (AvcOutcome.finished (if c.postponed env = true then .returned (c.refresh env) else _) env data) = _
  cases c.postponed env with
  | true =>
    rw [if_pos rfl, Bool.true_or, Bool.and_true, taken_processor]
    exact Bool.true_and _
  | false =>
    rw [if_neg Bool.false_ne_true, Bool.false_or]
    change stays (AvcOutcome.finished (if ((c.taken env).processor.sentFirstFrame && (c.damage env data).isEmpty) = true
      then .returned ((c.taken env).update { (c.taken env).processor with pendingDamageRegions := [] })
      else (c.taken env).transmit env data (readyForAvc env) (c.forced env) (c.damage env data)) env data) = _
    cases same : (c.taken env).processor.sentFirstFrame && (c.damage env data).isEmpty with
    | true =>
      rw [if_pos rfl, Bool.not_true, Bool.false_and, Bool.and_false]
      have sent := ((Bool.and_eq_true _ _).mp same).1
      change (true && (false || !(c.taken env).processor.sentFirstFrame)) = false
      rw [sent]
      rfl
    | false =>
      rw [if_neg Bool.false_ne_true, Bool.not_false, Bool.true_and]
      exact transmit_stays ((c.taken_shared env).trans shared) env data _ _ _

/-- A call leaves something unsent and lets the loop go on exactly when it is held back. -/
theorem processAt_stays (c : Call) (env : Environment) (data : Bytes) :
    stays (c.processAt env data) = c.holdsBack env data := by
  unfold processAt holdsBack proceeds
  dsimp only
  change stays (if c.skips = true then (c, true) else _) = _
  cases skips : c.skips with
  | true =>
    rw [if_pos rfl, Bool.not_true, Bool.false_and, Bool.false_and]
    unfold Call.skips at skips
    obtain ⟨settled, _⟩ := (Bool.and_eq_true _ _).mp skips
    obtain ⟨sent, clear⟩ := (Bool.and_eq_true _ _).mp settled
    unfold stays FrameProcessor.unsettled
    rw [sent, (Bool.not_eq_true' _).mp clear]
    rfl
  | false =>
    rw [if_neg Bool.false_ne_true, Bool.not_false, Bool.true_and]
    unfold resizes
    split
    · rename_i resize ready
      rw [resize, ready]
      rfl
    · rename_i waiting
      have still : (c.processor.pendingInitialResize.isSome && (!c.processor.egfxShared || env.readyForResize)) = false := by
        cases resize : c.processor.pendingInitialResize with
        | none => rfl
        | some size =>
          cases ready : !c.processor.egfxShared || env.readyForResize with
          | false => rfl
          | true => exact (waiting size.1 size.2 resize ready).elim
      rw [still, Bool.not_false, Bool.true_and]
      change stays (if c.clearcodecBranch env = true then _ else _) = _
      cases path : c.clearcodecBranch env with
      | true => exact c.processClearcodec_stays env data
      | false =>
        rw [if_neg Bool.false_ne_true, if_neg Bool.false_ne_true]
        cases shared : c.processor.egfxShared with
        | true => exact processAvc_stays shared env data
        | false =>
          rw [if_neg Bool.false_ne_true, Bool.false_and]
          -- without EGFX the bitmap is always due
          have due : c.processor.shouldSendBitmap env = true := if_pos (by rw [shared]; rfl)
          unfold finish
          simp only [Bool.not_false, Bool.true_and, Bool.false_eq_true, if_false, due, if_true]
          split <;> rfl

end Call

namespace DmabufSender

variable {E Input : Type} (library : OpenH264 E Input)

/-- The picture is not sent: it is not accepted, or there is none to send and another try is left. -/
def pictureHeldBack (x : DmabufSender E) (env : CodingEnvironment Input) (coder : PictureCoder E) : Bool :=
  let tryAgain := decide (x.encodeFailures + 1 < maxEncodeFailures)
  match (x.convertAndEncode env coder).2 with
  | .error _ => tryAgain
  | .ok coded =>
    let frame : EncodedEgfxFrame := .avc420 coded.len
    match frame.state with
    | .skipped | .invalid => tryAgain
    | .sendable => (x.sendEncodedFrame env frame).isNone

/-- A frame stays behind when there is no EGFX or it is not ready, when there is
no surface, when a readiness check fails, or when its picture is not sent. -/
def holdsBack (x : DmabufSender E) (env : CodingEnvironment Input) : Bool :=
  !x.egfxShared ||
    !(x.pendingInitialResize.isSome && env.readyForResize) &&
      ((x.refresh env).1.prepareEncoder library env (x.refresh env).2).any fun y =>
        if (x.refresh env).2.ready then
          let surfaced := y.ensureSurface env
          y.encoder.all fun coder =>
            !surfaced.2 || !(surfaced.1.frameReadiness env).isReady || surfaced.1.pictureHeldBack env coder
        else !env.bitmapFallbackDue

variable {library} {x : DmabufSender E} {env : CodingEnvironment Input}

theorem noProgress_held (x : DmabufSender E) (coder : PictureCoder E) (message : String) :
    (x.noProgress library coder message).2 = .goesOn false ↔ x.encodeFailures + 1 < maxEncodeFailures := by
  unfold noProgress
  dsimp only
  split
  · rename_i many
    exact ⟨nofun, fun few => absurd many (Nat.not_le.mpr few)⟩
  · rename_i few
    exact ⟨fun _ => Nat.not_le.mp few, fun _ => rfl⟩

theorem encodeFrame_held (x : DmabufSender E) (env : CodingEnvironment Input) (coder : PictureCoder E) :
    (x.encodeFrame library env coder).2 = .goesOn false ↔ x.pictureHeldBack env coder = true := by
  unfold encodeFrame pictureHeldBack
  rcases x.convertAndEncode env coder with ⟨after, result⟩
  cases result with
  | error message => exact (noProgress_held _ _ _).trans (decide_eq_true_iff).symm
  | ok coded =>
    dsimp only
    cases (EncodedEgfxFrame.avc420 coded.len).state with
    | skipped => exact (noProgress_held _ _ _).trans (decide_eq_true_iff).symm
    | invalid => exact (noProgress_held _ _ _).trans (decide_eq_true_iff).symm
    | sendable =>
      have same : DmabufSender.sendEncodedFrame { x with chain := x.chain.nextPicture } env (.avc420 coded.len) =
        x.sendEncodedFrame env (.avc420 coded.len) := rfl
      dsimp only
      rw [same]
      cases x.sendEncodedFrame env (.avc420 coded.len) with
      | none => exact ⟨fun _ => rfl, fun _ => rfl⟩
      | some surface => exact ⟨nofun, nofun⟩

theorem ensureSurface_encoder (x : DmabufSender E) (env : CodingEnvironment Input) :
    (x.ensureSurface env).1.encoder = x.encoder := by
  unfold ensureSurface
  split
  · rfl
  split
  · rfl
  split
  · rfl
  split <;> rfl

/-- The loop goes on without having sent a frame exactly when the frame is held back. -/
theorem processFrame_held (x : DmabufSender E) (env : CodingEnvironment Input) :
    (x.processFrame library env).2 = .goesOn false ↔ x.holdsBack library env = true := by
  unfold processFrame holdsBack
  cases shared : x.egfxShared with
  | false => exact ⟨fun _ => rfl, fun _ => rfl⟩
  | true =>
    rw [if_neg (by decide), Bool.not_true, Bool.false_or]
    split
    · rename_i resize ready
      rw [resize, ready]
      exact ⟨nofun, nofun⟩
    · rename_i waiting
      have still : (x.pendingInitialResize.isSome && env.readyForResize) = false := by
        cases resize : x.pendingInitialResize with
        | none => rfl
        | some size =>
          cases ready : env.readyForResize with
          | false => rfl
          | true => exact (waiting size.1 size.2 resize ready).elim
      rw [still, Bool.not_false, Bool.true_and]
      generalize x.refresh env = refreshed
      obtain ⟨y, refreshed⟩ := refreshed
      dsimp only
      cases y.prepareEncoder library env refreshed with
      | none => exact ⟨nofun, nofun⟩
      | some z =>
        dsimp only [Option.any_some]
        cases ready : refreshed.ready with
        | false =>
          rw [Bool.not_false, Bool.true_and, Bool.false_and, if_neg Bool.false_ne_true, if_neg Bool.false_ne_true]
          cases env.bitmapFallbackDue with
          | false => exact ⟨fun _ => rfl, fun _ => rfl⟩
          | true => exact ⟨nofun, nofun⟩
        | true =>
          rw [Bool.not_true, Bool.false_and, Bool.true_and, if_neg Bool.false_ne_true, if_pos rfl]
          cases held : z.encoder with
          | none => exact ⟨fun _ => rfl, fun _ => rfl⟩
          | some coder =>
            rw [Option.isSome_some, if_pos rfl]
            unfold transmit
            have same := (z.ensureSurface_encoder env).trans held
            generalize z.ensureSurface env = surfaced at same
            obtain ⟨z, ensured⟩ := surfaced
            dsimp only [Option.all_some] at same ⊢
            cases blocked : !ensured || !(z.frameReadiness env).isReady with
            | true => exact ⟨fun _ => rfl, fun _ => rfl⟩
            | false =>
              rw [if_neg Bool.false_ne_true, same, Bool.false_or]
              exact encodeFrame_held z env coder

end DmabufSender

end HyprRdp
