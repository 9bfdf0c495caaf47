import HyprRdp.Capture.Encoders
import HyprRdp.Lib.Runs

namespace HyprRdp

/-- Whether a full frame is owed to the client after an event. -/
def Event.owes (shape : FrameShape) (owed : Bool) : Event → Bool
  | .requested => true
  | .frame wire => owed && !decide (wire.Whole shape)
  | .bitmap => false
  | .resize _ _ | .surface _ _ => owed

namespace Call

variable {c d : Call} {env : Environment} {data : Bytes} {shape : FrameShape} {before : Bool}

def owed (c : Call) (shape : FrameShape) (before : Bool) : Bool := c.events.foldl (Event.owes shape) before

/-- A full frame that is owed is still requested. -/
def Honors (c : Call) (shape : FrameShape) (before : Bool) : Prop :=
  c.owed shape before = true → c.fullFrameRequested = true

theorem owed_emit (c : Call) (e : Event) : (c.emit e).owed shape before = e.owes shape (c.owed shape before) := by
  simp only [owed, emit, List.foldl_append, List.foldl_cons, List.foldl_nil]

theorem Honors.hear (honors : c.Honors shape before) (requested : Bool) : (c.hear requested).Honors shape before := by
  unfold Call.hear
  split
  · exact fun _ => rfl
  · exact honors

theorem Honors.emit (honors : c.Honors shape before) {e : Event} (quiet : e ≠ .requested) :
    (c.emit e).Honors shape before := by
  intro owed
  rw [owed_emit] at owed
  cases e with
  | requested => exact absurd rfl quiet
  | frame wire => exact honors ((Bool.and_eq_true _ _).mp owed).1
  | bitmap => cases owed
  | resize => exact honors owed
  | surface => exact honors owed

theorem honors_whole {wire : WireFrame} (whole : wire.Whole shape) : (c.emit (.frame wire)).Honors shape before := by
  intro owed
  rw [owed_emit] at owed
  simp [Event.owes, whole] at owed

theorem honors_bitmap (c : Call) : (c.emit .bitmap).Honors shape before := by
  intro owed
  rw [owed_emit] at owed
  cases owed

theorem honors_requested (requested : c.fullFrameRequested = true) : c.Honors shape before := fun _ => requested

theorem Honors.initSurface (honors : c.Honors shape before) (env : Environment) :
    (c.initSurface env).Honors shape before := by
  unfold Call.initSurface
  dsimp only
  split
  · split
    · exact honors
    · exact honors.emit (nofun : Event.surface _ _ ≠ .requested)
    · exact honors.emit (nofun : Event.surface _ _ ≠ .requested)
  · exact honors

theorem Honors.finish (honors : c.Honors shape before) (env : Environment) (data : Bytes) (sent : Bool) :
    (c.finish env data sent).1.Honors shape before := by
  cases sent with
  | true =>
    rw [finish_sent]
    exact honors
  | false =>
    unfold Call.finish
    simp only [Bool.not_false, Bool.true_and, Bool.false_eq_true, if_false]
    split
    · split
      · exact honors
      · exact (honors_bitmap c : (c.emit .bitmap).Honors shape before)
    · exact honors

/-- What is done after the send keeps an owed frame requested, and asks again for one that did not leave. -/
theorem afterSend_honors (env : Environment) {force sent : Bool}
    (honors : c.Honors shape before ∨ force = true ∧ sent = false) : (c.afterSend env force sent).Honors shape before := by
  unfold afterSend
  dsimp only
  split
  · exact honors_requested rfl
  · rename_i again
    have honors : c.Honors shape before := honors.resolve_right fun both => again (by rw [both.1, both.2]; rfl)
    exact honors.hear env.requestAfterSend

theorem Encoded.honors {surface : Nat} {force : Bool} {regions : List Region} {result : Call × Bool}
    (honors : c.Honors shape before) (run : c.Encoded env data surface force regions result) :
    result.1.Honors shape before := by
  have heard := honors.hear env.requestBeforeSend
  cases run with
  | idle => exact heard
  | unsent => exact heard
  | sent => exact heard.emit nofun

/-- A forced frame that leaves is whole. -/
theorem Encoded.forced_honors (before : Bool) {surface : Nat} {regions : List Region} {result : Call × Bool}
    (fits : c.processor.EncoderFits) (full : regions = [c.processor.fullRegion])
    (run : c.Encoded env data surface true regions result) :
    result.1.Honors c.processor.shape before ∨ result.2 = false := by
  cases run with
  | idle => exact .inr rfl
  | unsent => exact .inr rfl
  | @sent enc inner frame wire held encoded left =>
    refine .inl ?_
    have due : WholeDue c.processor.shape regions env.debugFullFrame enc := by
      obtain ⟨original, _, rfl⟩ := Option.map_eq_some_iff.mp held
      cases original with
      | vaapi => exact full
      | software => exact full
      | softwareAvc444 encoder => exact .inl (Bool.or_true _)
    exact honors_whole (c := c.hear env.requestBeforeSend)
      (sent_whole (forcedEncoder_fits fits held) due encoded left)

/-- A full-frame request is taken for a frame that then cannot leave at once. -/
def dropsRequest (c : Call) (env : Environment) : Bool :=
  !c.postponed env && c.forced env &&
    if c.canTransmit env then (c.surfaced env).processor.egfxHandle && !env.frameView.frameReadiness.isReady
    else !env.bitmapAccepted

/-- The damage of a ClearCodec frame, asked for or detected, is the whole picture. -/
def clearcodecWhole (c : Call) (env : Environment) (data : Bytes) : Bool :=
  decide (∀ px < c.processor.shape.width, ∀ py < c.processor.shape.height, Covered (c.clearcodecDamage env data) px py)

/-- A ClearCodec frame goes out while a request comes in that it does not answer. -/
def missesRequest (c : Call) (env : Environment) (data : Bytes) : Bool :=
  env.clearcodecSend == .queued && (env.requestAfterSend || env.requestBeforeSend && !c.clearcodecWhole env data)

theorem Honors.refresh (honors : c.Honors shape before) (env : Environment) : (c.refresh env).Honors shape before := by
  have checked : (c.update ((c.processor.refreshReadiness (readyForAvc env)).refreshEncoder env (readyForAvc env))).Honors
      shape before := honors
  exact checked.hear env.requestBeforeRefreshCheck

theorem Honors.taken (honors : c.Honors shape before) (unforced : c.forced env = false) :
    (c.taken env).Honors shape before := by
  have prepared : (c.prepared env).Honors shape before := (honors.refresh env).hear env.requestBeforeTake
  unfold Call.taken take
  split
  · rename_i ready
    have unrequested : (c.prepared env).fullFrameRequested = false := by
      unfold forced at unforced
      rw [ready, Bool.true_and] at unforced
      exact unforced
    intro owed
    rw [prepared owed] at unrequested
    cases unrequested
  · exact prepared

theorem Transmitted.honors {ready force : Bool} {regions : List Region} {outcome : AvcOutcome}
    (honors : c.Honors shape before) (run : c.Transmitted env data ready force regions outcome) :
    (outcome.finished env data).1.Honors shape before := by
  have active : (c.activated env ready).Honors shape before := honors
  have surfaced := active.initSurface env
  cases run with
  | inactive => exact active.finish env data false
  | surfaceless => exact surfaced.finish env data false
  | waiting => exact surfaced
  | tried _ _ encoded => exact (afterSend_honors env (.inl (encoded.honors surfaced))).finish env data _

/-- A bitmap stands in for the frame that cannot leave over EGFX. -/
theorem finish_bitmap (instead : c.processor.shouldSendBitmap env = true) (accepted : env.bitmapAccepted = true) :
    (c.finish env data false).1.Honors shape before := by
  unfold finish
  simp only [Bool.not_false, Bool.true_and, Bool.false_eq_true, if_false, instead, accepted, Bool.not_true, if_true]
  exact (honors_bitmap c : (c.emit .bitmap).Honors shape before)

theorem shouldSendBitmap_unavailable {p : FrameProcessor} (ready : env.readyAtEnd = true)
    (unavailable : p.egfxActive = false ∨ p.egfxSurfaceId = none) : p.shouldSendBitmap env = true := by
  have runtime : p.egfxRuntimeAvailable = false := by
    unfold FrameProcessor.egfxRuntimeAvailable
    rcases unavailable with inactive | surfaceless
    · rw [inactive, Bool.false_and, Bool.false_and]
    · rw [surfaceless, Option.isSome_none, Bool.and_false]
  unfold FrameProcessor.shouldSendBitmap
  simp only [ready, runtime, Bool.not_true, Bool.false_eq_true, if_false, Bool.not_false, Bool.or_true, ite_self]

/-- A taken request is answered in the same call, or made again. -/
theorem AvcRun.honors {outcome : AvcOutcome} (fits : c.processor.EncoderFits) (endReady : env.readyAtEnd = true)
    (kept : c.dropsRequest env = false) (honors : c.Honors c.processor.shape before)
    (run : c.AvcRun env data outcome) : (outcome.finished env data).1.Honors c.processor.shape before := by
  have shape : (c.taken env).processor.shape = c.processor.shape :=
    (c.taken_quiet env).shape.trans (c.refresh_refreshed env).shape
  cases run with
  | postponed => exact honors.refresh env
  | unchanged _ _ same =>
    have unforced : c.forced env = false := by
      by_contra forced
      rw [Bool.not_eq_false] at forced
      unfold damage FrameProcessor.frameDamageRegions at same
      rw [forced, if_pos rfl] at same
      cases same
    exact honors.taken unforced
  | transmitted prompt _ run =>
    cases forced : c.forced env with
    | false => exact run.honors (honors.taken forced)
    | true =>
      have active : ((c.taken env).activated env (readyForAvc env)).processor.EncoderFits :=
        FrameProcessor.activate_fits (taken_processor c env ▸ refresh_fits fits env) env _
      have surfacedShape : (c.surfaced env).processor.shape = c.processor.shape :=
        (initSurface_quiet _ env).shape.trans ((FrameProcessor.activate_shape _ env _).trans shape)
      have kept : (if c.canTransmit env then (c.surfaced env).processor.egfxHandle &&
          !env.frameView.frameReadiness.isReady else !env.bitmapAccepted) = false := by
        unfold dropsRequest at kept
        rwa [prompt, forced, Bool.not_false, Bool.true_and, Bool.true_and] at kept
      rw [forced] at run
      cases run with
      | inactive off =>
        have blocked : c.canTransmit env = false := by unfold canTransmit; rw [off, Bool.false_and]
        rw [blocked, if_neg Bool.false_ne_true, Bool.not_eq_false'] at kept
        exact finish_bitmap (shouldSendBitmap_unavailable endReady (.inl off)) kept
      | surfaceless _ unheld =>
        have blocked : c.canTransmit env = false := by
          unfold canTransmit surfaced
          rw [unheld, Option.isSome_none, Bool.and_false]
        rw [blocked, if_neg Bool.false_ne_true, Bool.not_eq_false'] at kept
        exact finish_bitmap (shouldSendBitmap_unavailable endReady (.inr unheld)) kept
      | waiting on held handle blocked =>
        have open_ : c.canTransmit env = true := by
          unfold canTransmit surfaced
          rw [on, held]
          rfl
        unfold surfaced at kept
        rw [open_, if_pos rfl, handle, blocked] at kept
        cases kept
      | tried _ _ encoded =>
        have full : c.damage env data = [(c.surfaced env).processor.fullRegion] := by
          unfold damage FrameProcessor.frameDamageRegions FrameProcessor.fullRegion
          rw [forced, if_pos rfl, shape, surfacedShape]
        have sent := encoded.forced_honors before (initSurface_fits active env) full
        rw [show ((((c.taken env).activated env (readyForAvc env)).initSurface env).processor.shape) =
          c.processor.shape from surfacedShape] at sent
        exact (afterSend_honors env (sent.imp_right fun unsent => ⟨rfl, unsent⟩)).finish env data _

theorem Honors.clearcodecPrepared (honors : c.Honors shape before) (env : Environment) :
    (c.clearcodecPrepared env).Honors shape before := by
  have checked : (c.update (c.processor.refreshClearcodec env)).Honors shape before := honors
  exact (checked.hear env.requestBeforeRefreshCheck).hear env.requestBeforeTake

/-- A ClearCodec frame clears the request: it must be whole, or there must be none. -/
theorem ClearcodecSent.honors {surface : Nat} {damage : List Region} {result : Call × Bool}
    (honors : c.Honors c.processor.shape before)
    (answered : env.clearcodecSend = .queued → env.requestAfterSend = false ∧
      ((∀ px < c.processor.shape.width, ∀ py < c.processor.shape.height, Covered damage px py) ∨
        env.requestBeforeSend = false ∧ c.fullFrameRequested = false))
    (run : c.ClearcodecSent env data damage surface result) : result.1.Honors c.processor.shape before := by
  have heard := honors.hear env.requestBeforeSend
  cases run with
  | unsent => exact heard
  | @queued input queue accepted =>
    obtain ⟨quietAfter, answer⟩ := answered queue
    have settled : ((c.hear env.requestBeforeSend).emit (.frame (.clearcodec surface input.rectangles))).owed
        c.processor.shape before = false := by
      rw [owed_emit]
      rcases answer with full | ⟨quietBefore, unrequested⟩
      · have whole : (WireFrame.clearcodec surface input.rectangles).Whole c.processor.shape := by
          intro px column py row
          exact (ClearCodecInput.new_covers accepted px py).mpr ⟨column, row, full px column py row⟩
        simp only [Event.owes, whole, decide_true, Bool.not_true, Bool.and_false]
      · have unowed : (c.hear env.requestBeforeSend).owed c.processor.shape before = false := by
          rw [quietBefore]
          exact Bool.eq_false_iff.mpr fun owed => Bool.eq_false_iff.mp unrequested (honors owed)
        rw [unowed]
        rfl
    intro owed
    rw [quietAfter] at owed
    exact absurd (settled.symm.trans owed) Bool.false_ne_true

/-- A frame asked for, or owed as the first one, is whole. -/
theorem clearcodecWhole_fullRefresh (full : c.fullRefresh env = true) (data : Bytes) : c.clearcodecWhole env data = true := by
  have shape : (c.clearcodecPrepared env).processor.shape = c.processor.shape :=
    (c.clearcodecPrepared_quiet env).shape.trans (c.processor.refreshClearcodec_refreshed env).shape
  refine decide_eq_true fun px column py row => ?_
  unfold clearcodecDamage FrameProcessor.fullRegion
  rw [full, if_pos rfl, shape, Covered.cons]
  exact .inl ((Region.covers_full _ _ _ _).mpr ⟨column, row⟩)

theorem ClearcodecRun.honors {result : Call × Bool} (answered : c.missesRequest env data = false)
    (honors : c.Honors c.processor.shape before) (run : c.ClearcodecRun env data result) :
    result.1.Honors c.processor.shape before := by
  have shape : (c.clearcodecPrepared env).processor.shape = c.processor.shape :=
    (c.clearcodecPrepared_quiet env).shape.trans (c.processor.refreshClearcodec_refreshed env).shape
  have prepared := honors.clearcodecPrepared env
  cases run with
  | unavailable => exact honors
  | unready => exact Honors.hear (c := c.update (c.processor.refreshClearcodec env)) honors _
  | unchanged => exact prepared
  | surfaceless => exact prepared
  | @tried surface created _ run =>
    rw [← shape] at prepared ⊢
    have emitted : ((c.clearcodecPrepared env).emit (.surface surface created)).Honors
        (c.clearcodecPrepared env).processor.shape before := prepared.emit nofun
    refine ClearcodecSent.honors (c := (c.clearcodecPrepared env).emit (.surface surface created)) emitted ?_ run
    intro queue
    have answered : env.requestAfterSend = false ∧ (env.requestBeforeSend && !c.clearcodecWhole env data) = false := by
      unfold missesRequest at answered
      rw [queue, beq_self_eq_true, Bool.true_and] at answered
      exact Bool.or_eq_false_iff.mp answered
    refine ⟨answered.1, ?_⟩
    cases whole : c.clearcodecWhole env data with
    | true =>
      left
      have whole := of_decide_eq_true whole
      rw [← shape] at whole
      exact whole
    | false =>
      right
      rw [whole] at answered
      refine ⟨by simpa using answered.2, ?_⟩
      -- a frame that is not whole was not asked for
      have partly : c.fullRefresh env = false := by
        by_contra full
        rw [Bool.not_eq_false] at full
        rw [clearcodecWhole_fullRefresh full] at whole
        cases whole
      unfold fullRefresh at partly
      exact (Bool.or_eq_false_iff.mp partly).1

/-- The request flag of a call is lost on neither path. -/
def keepsRequest (c : Call) (env : Environment) (data : Bytes) : Bool :=
  !(c.usesAvc env && c.dropsRequest env) && !(c.usesClearcodec env && c.missesRequest env data)

theorem CallRun.honors {result : Call × Bool} (fits : c.processor.EncoderFits) (endReady : env.readyAtEnd = true)
    (kept : c.keepsRequest env data = true) (honors : c.Honors c.processor.shape before) (run : c.CallRun env data result) :
    result.1.Honors c.processor.shape before := by
  simp only [keepsRequest, Bool.and_eq_true, Bool.not_eq_true', Bool.and_eq_false_imp] at kept
  cases run with
  | skipped => exact honors
  | resized => exact Honors.emit honors (nofun : Event.resize _ _ ≠ .requested)
  | clearcodec path run => exact run.honors (kept.2 path) honors
  | avc path run => exact run.honors fits endReady (kept.1 path) honors
  | plain => exact honors.finish env data false

end Call

/-- A processor with a client that is owed a full frame from each request on. -/
structure RequestSession where
  processor : FrameProcessor
  fullFrameRequested : Bool
  owed : Bool

namespace RequestSession

def call (s : RequestSession) : Call := ⟨s.processor, s.fullFrameRequested, []⟩

/-- EGFX is ready whenever a call asks. -/
def egfxReady (env : Environment) : Bool :=
  env.readyForResize && env.readyForClearcodec && env.ready && env.readyAtEnd

def next (s : RequestSession) : ProcessorInput → Option RequestSession
  | .queueDamage damage => some { s with processor := s.processor.queueDamage damage }
  | .requestFullFrame => some { s with fullFrameRequested := true, owed := true }
  | .initialResize size => some { s with processor := { s.processor with pendingInitialResize := size } }
  | .process env data =>
    if egfxReady env then
      let call := (s.call.processAt env data).1
      some ⟨call.processor, call.fullFrameRequested, call.owed s.processor.shape s.owed⟩
    else none

def start (processor : FrameProcessor) : RequestSession := ⟨processor, false, false⟩

/-- The calls that do not lose a request. -/
def Keeps (s : RequestSession) : ProcessorInput → Prop
  | .process env data => s.call.keepsRequest env data = true
  | .queueDamage _ | .requestFullFrame | .initialResize _ => True

instance (s : RequestSession) (input : ProcessorInput) : Decidable (s.Keeps input) :=
  match input with
  | .process env data => inferInstanceAs (Decidable (s.call.keepsRequest env data = true))
  | .queueDamage _ | .requestFullFrame | .initialResize _ => isTrue trivial

def runs (processor : FrameProcessor) : StepSystem RequestSession ProcessorInput := .ofFun (start processor) next

structure Invariant (s : RequestSession) : Prop where
  fits : s.processor.EncoderFits
  honors : s.owed = true → s.fullFrameRequested = true

variable {s t : RequestSession}

theorem Invariant.next (inv : s.Invariant) {input : ProcessorInput} (kept : s.Keeps input) (step : s.next input = some t) :
    t.Invariant := by
  cases input with
  | queueDamage damage =>
    cases step
    exact ⟨inv.fits, inv.honors⟩
  | requestFullFrame =>
    cases step
    exact ⟨inv.fits, fun _ => rfl⟩
  | initialResize size =>
    cases step
    exact ⟨inv.fits, inv.honors⟩
  | process env data =>
    obtain ⟨ready, same⟩ := Option.ite_none_right_eq_some.mp step
    cases same
    have endReady : env.readyAtEnd = true := ((Bool.and_eq_true _ _).mp ready).2
    have run := s.call.processAt_run env data
    exact ⟨run.fits inv.fits, run.honors (c := s.call) inv.fits endReady kept inv.honors⟩

/-- In a run whose calls lose no request, whatever is owed to the client is
still requested after every step. -/
theorem full_frame_request_kept {shape : FrameShape} {egfxShared : Bool} {pixelFormat : PixelFormat} {quality : Nat}
    {rateControl : H264RateControl} {h264Backend : H264BackendPolicy}
    (reach : ((runs (.new shape egfxShared pixelFormat quality rateControl h264Backend)).guarded Keeps).Reach s)
    (owed : s.owed = true) : s.fullFrameRequested = true := by
  have inv : s.Invariant := by
    refine StepSystem.Inductive.reach ⟨fun s first => ?_, fun s input t inv step => inv.next step.1 step.2⟩ reach
    cases first
    exact ⟨nofun, nofun⟩
  exact inv.honors owed

/-- A request that must wait for the window to drain stays on. -/
theorem full_frame_request_kept_waiting : ∃ s : RequestSession,
    ((runs (.new .onePixel true .bgrX32 23 .vbr .auto)).guarded Keeps).Reach s ∧
    s.owed = true ∧ s.fullFrameRequested = true := by
  have run : ((runs (.new .onePixel true .bgrX32 23 .vbr .auto)).guarded Keeps).Reach _ :=
    StepSystem.guarded_exec_reach
      [.process { Environment.avc420 with generation := 1 } (.zeros 4), .requestFullFrame,
        .process { Environment.avc420 with generation := 1, refreshView := .oneInFlight } (.zeros 4)] (.start rfl) rfl
  exact ⟨_, run, rfl, full_frame_request_kept run rfl⟩

/-- A request taken for a frame that the transport then holds back is gone. -/
theorem request_lost_to_backpressure : ∃ s : RequestSession,
    (runs (.new .onePixel true .bgrX32 23 .vbr .auto)).Reach s ∧ s.owed = true ∧ s.fullFrameRequested = false := by
  have run : (runs (.new .onePixel true .bgrX32 23 .vbr .auto)).Reach _ :=
    StepSystem.exec_reach
      [.process { Environment.avc420 with generation := 1 } (.zeros 4), .requestFullFrame,
        .process { Environment.avc420 with generation := 1, frameView := .backpressured } (.zeros 4)] (.start rfl) rfl
  exact ⟨_, run, rfl, rfl⟩

-- The same loss on the ClearCodec path: the request comes after the frame was queued, before the flag is cleared.
example : ∃ s, StepSystem.exec next (start (.new .onePixel true .bgrX32 23 .vbr .auto))
    [.process { Environment.clearcodec with requestAfterSend := true } (.zeros 4)] = some s ∧
    s.owed = true ∧ s.fullFrameRequested = false := ⟨_, rfl, rfl, rfl⟩

end RequestSession

end HyprRdp
