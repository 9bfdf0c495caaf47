import HyprRdp.Capture.Ledger

namespace HyprRdp

namespace FrameProcessor

variable (p : FrameProcessor) (env : Environment)

/-- A check at the start of a call: what is known about the client is kept or
forgotten, and AVC444 is chosen only where it is enabled. -/
structure Refreshed (p : FrameProcessor) (env : Environment) (q : FrameProcessor) : Prop where
  ledger : q.ledger = p.ledger ∨ q.ledger = p.ledger.reset
  codec : q.egfxCodec = some .avc444 → p.egfxCodec = some .avc444 ∨ env.avc444Enabled = true

theorem Refreshed.refl : p.Refreshed env p := ⟨.inl rfl, .inl⟩

theorem refreshed_reset {q : FrameProcessor} (ledger : q.ledger = p.ledger.reset) (codec : q.egfxCodec = none) :
    p.Refreshed env q := ⟨.inr ledger, fun chosen => by rw [codec] at chosen; cases chosen⟩

variable {p env} in
theorem Refreshed.trans {q r : FrameProcessor} (first : p.Refreshed env q) (second : q.Refreshed env r) :
    p.Refreshed env r where
  ledger := by
    rcases second.ledger with kept | reset
    · rw [kept]
      exact first.ledger
    · rcases first.ledger with before | before
      · exact .inr (by rw [reset, before])
      · exact .inr (by rw [reset, before]; rfl)
  codec chosen := by
    rcases second.codec chosen with before | enabled
    · exact first.codec before
    · exact .inr enabled

variable {p env} in
theorem Refreshed.sound {q : FrameProcessor} (refreshed : p.Refreshed env q) (sound : p.ledger.Sound) :
    q.ledger.Sound := by
  rcases refreshed.ledger with kept | reset
  · exact kept ▸ sound
  · exact reset ▸ sound.reset

variable {p env} in
theorem Refreshed.shape {q : FrameProcessor} (refreshed : p.Refreshed env q) : q.ledger.shape = p.shape := by
  rcases refreshed.ledger with kept | reset
  · exact congrArg Ledger.shape kept
  · exact congrArg Ledger.shape reset

theorem refreshClearcodec_refreshed : p.Refreshed env (p.refreshClearcodec env) := by
  unfold refreshClearcodec
  split
  · exact refreshed_reset p env rfl rfl
  · exact .refl p env

theorem refreshReadiness_refreshed (ready : Bool) : p.Refreshed env (p.refreshReadiness ready) := by
  unfold refreshReadiness
  split
  · exact .refl p env
  · split
    · exact ⟨.inl rfl, .inl⟩
    · exact refreshed_reset p env rfl rfl

theorem selectedCodec_avc444 (chosen : (p.selectedCodec env).getD .avc420 = .avc444) : env.avc444Enabled = true := by
  unfold selectedCodec at chosen
  split at chosen
  · rename_i enabled
    exact ((Bool.and_eq_true _ _).mp enabled).1
  · split at chosen
    · cases chosen
    · cases chosen

theorem refreshEncoder_refreshed (ready : Bool) : p.Refreshed env (p.refreshEncoder env ready) := by
  unfold refreshEncoder
  dsimp only
  split
  · split
    · split
      · exact ⟨.inr rfl, fun chosen => .inr (p.selectedCodec_avc444 env (Option.some.inj chosen))⟩
      · exact refreshed_reset p env rfl rfl
    · exact refreshed_reset p env rfl rfl
  · exact .refl p env

theorem activate_ledger (ready : Bool) : (p.activate env ready).ledger = p.ledger := by
  unfold activate
  split <;> rfl

theorem activate_codec (ready : Bool) : (p.activate env ready).egfxCodec = p.egfxCodec := by
  unfold activate
  split <;> rfl

theorem runtimeFallback_ledger : (p.runtimeFallback env).ledger = p.ledger := by
  unfold runtimeFallback
  split
  · split
    · split <;> rfl
    · rfl
  · rfl

theorem runtimeFallback_codec : (p.runtimeFallback env).egfxCodec = p.egfxCodec := by
  unfold runtimeFallback
  split
  · split
    · split <;> rfl
    · rfl
  · rfl

end FrameProcessor

namespace Call

variable {c d : Call} {env : Environment} {data : Bytes}

/-- A stage that neither delivers anything nor changes what is known about the client. -/
structure Quiet (c d : Call) : Prop where
  ledger : d.processor.ledger = c.processor.ledger
  codec : d.processor.egfxCodec = c.processor.egfxCodec
  deliveries : d.deliveries = c.deliveries

/-- A stage that delivers the regions and compares with their data from then on. -/
structure Sends (c d : Call) (data : Bytes) (regions : List Region) : Prop where
  ledger : d.processor.ledger = c.processor.ledger.compare data regions
  codec : d.processor.egfxCodec = c.processor.egfxCodec
  wire : ∃ wire, WireFrame.Carries wire c.processor.ledger c.processor.egfxCodec regions ∧
    d.deliveries = c.deliveries ++ [Event.frame wire]

theorem Quiet.refl (c : Call) : c.Quiet c := ⟨rfl, rfl, rfl⟩

theorem Quiet.shape (quiet : c.Quiet d) : d.processor.shape = c.processor.shape := congrArg Ledger.shape quiet.ledger

theorem Quiet.trans {e : Call} (first : c.Quiet d) (second : d.Quiet e) : c.Quiet e :=
  ⟨second.ledger.trans first.ledger, second.codec.trans first.codec, second.deliveries.trans first.deliveries⟩

theorem Quiet.sends {e : Call} {regions : List Region} (first : c.Quiet d) (second : d.Sends e data regions) :
    c.Sends e data regions where
  ledger := by rw [second.ledger, first.ledger]
  codec := second.codec.trans first.codec
  wire := by
    obtain ⟨wire, carries, same⟩ := second.wire
    rw [first.ledger, first.codec] at carries
    exact ⟨wire, carries, by rw [same, first.deliveries]⟩

theorem Sends.quiet {e : Call} {regions : List Region} (first : c.Sends d data regions) (second : d.Quiet e) :
    c.Sends e data regions where
  ledger := second.ledger.trans first.ledger
  codec := second.codec.trans first.codec
  wire := by
    obtain ⟨wire, carries, same⟩ := first.wire
    exact ⟨wire, carries, second.deliveries.trans same⟩

theorem deliveries_emit (c : Call) (e : Event) :
    (c.emit e).deliveries = c.deliveries ++ if e.delivers then [e] else [] := by
  unfold deliveries emit
  simp only [List.filter_append, List.filter_cons, List.filter_nil]

theorem hear_processor (c : Call) (requested : Bool) : (c.hear requested).processor = c.processor := by
  unfold hear
  split <;> rfl

theorem hear_quiet (c : Call) (requested : Bool) : c.Quiet (c.hear requested) := by
  unfold hear
  split
  · exact ⟨rfl, rfl, (deliveries_emit c .requested).trans (List.append_nil _)⟩
  · exact .refl c

theorem surface_quiet (c : Call) (id : Nat) (created : Bool) : c.Quiet (c.emit (.surface id created)) :=
  ⟨rfl, rfl, (deliveries_emit c _).trans (List.append_nil _)⟩

theorem take_quiet (c : Call) (ready : Bool) : c.Quiet (c.take ready) := by
  unfold take
  split
  · exact ⟨rfl, rfl, rfl⟩
  · exact .refl c

theorem update_quiet {p : FrameProcessor} (ledger : p.ledger = c.processor.ledger)
    (codec : p.egfxCodec = c.processor.egfxCodec) : c.Quiet (c.update p) := ⟨ledger, codec, rfl⟩

theorem initSurface_quiet (c : Call) (env : Environment) : c.Quiet (c.initSurface env) := by
  unfold initSurface
  dsimp only
  split
  · split
    · exact .refl c
    · exact (c.surface_quiet _ _).trans (update_quiet rfl rfl)
    · exact (c.surface_quiet _ _).trans (update_quiet rfl rfl)
  · exact .refl c

end Call

section Sending

variable {surface width height quality : Nat} {frame : EncodedEgfxFrame} {regions : List Region} {accepted : Bool}
  {wire : WireFrame}

theorem sent_sendable
    (left : sendTrackedEncodedEgfxFrame surface frame regions width height quality accepted = some wire) :
    frame.state = .sendable := by
  unfold sendTrackedEncodedEgfxFrame at left
  by_contra other
  rw [if_pos other] at left
  cases left

theorem sent_surface
    (left : sendTrackedEncodedEgfxFrame surface frame regions width height quality accepted = some wire) :
    wire.surface = surface := by
  unfold sendTrackedEncodedEgfxFrame at left
  split at left
  · cases left
  · cases frame with
    | avc420 len =>
      obtain ⟨_, same⟩ := Option.ite_none_right_eq_some.mp left
      cases same
      rfl
    | avc444 encoded =>
      dsimp only at left
      split at left
      · cases left
      · obtain ⟨_, same⟩ := Option.ite_none_right_eq_some.mp left
        cases same
        rfl

/-- A region inside the frame is not clipped away, so regions of the frame are never sent as none. -/
theorem damageRegionsToAvc420_filled (columns : width < 2 ^ 31) (rows : height < 2 ^ 31)
    (within : ∀ r ∈ regions, r.Within width height) (any : regions ≠ []) (qp : Nat) :
    (damageRegionsToAvc420 regions width height qp).isEmpty = false := by
  obtain ⟨r, rest, rfl⟩ := List.exists_cons_of_ne_nil any
  obtain ⟨left, top, wide, tall, right, bottom⟩ := within r List.mem_cons_self
  have corner : Covered (r :: rest) r.x.toNat r.y.toNat := by
    refine (Covered.cons _ _ _ _).mpr (.inl ?_)
    unfold Region.Covers
    omega
  obtain ⟨_, member, _⟩ := (damageRegionsToAvc420_covers columns rows (r :: rest) qp).mpr
    ⟨by omega, by omega, corner⟩
  exact List.isEmpty_eq_false_iff.mpr (List.ne_nil_of_mem member)

/-- An AVC420 frame that leaves paints its regions. -/
theorem sent_avc420 {len : Nat} (columns : width < 2 ^ 31) (rows : height < 2 ^ 31)
    (within : ∀ r ∈ regions, r.Within width height) (any : regions ≠ [])
    (left : sendTrackedEncodedEgfxFrame surface (.avc420 len) regions width height quality accepted = some wire) :
    wire = .avc420 surface (damageRegionsToAvc420 regions width height quality) := by
  unfold sendTrackedEncodedEgfxFrame at left
  split at left
  · cases left
  · dsimp only at left
    rw [damageRegionsToAvc420_filled columns rows within any] at left
    obtain ⟨_, same⟩ := Option.ite_none_right_eq_some.mp left
    cases same
    rfl

/-- An AVC444 frame that leaves has the encoding and the regions of its subframes. -/
theorem sent_avc444 {encoded : Avc444EncodedFrame}
    (left : sendTrackedEncodedEgfxFrame surface (.avc444 encoded) regions width height quality accepted = some wire) :
    wire = .avc444 surface encoded.encoding (damageRegionsToAvc420 encoded.stream1Regions width height quality)
      (damageRegionsToAvc420 encoded.stream2Regions width height quality) := by
  unfold sendTrackedEncodedEgfxFrame at left
  split at left
  · cases left
  · dsimp only at left
    split at left
    · cases left
    · rename_i encoding valid
      obtain ⟨_, same⟩ := Option.ite_none_right_eq_some.mp left
      cases same
      unfold validateAvc444SendShape at valid
      dsimp only at valid
      obtain ⟨_, same⟩ := Option.ite_none_right_eq_some.mp valid
      cases same
      cases encoded.stream2Regions with
      | nil => rfl
      | cons r rest => rfl

end Sending

namespace Call

variable {c d : Call} {env : Environment} {data : Bytes} {surface : Nat} {force sent : Bool} {regions : List Region}

/-- The encoder as a call finds it, told about a full frame if one is due. -/
def forcedEncoder (p : FrameProcessor) (force : Bool) : Option FrameEncoder :=
  if force then p.h264Encoder.map .forceFullFrame else p.h264Encoder

/-- What encoding and sending can do: nothing without an encoder, a new
encoder state when no frame leaves, or a frame on the wire. -/
inductive Encoded (c : Call) (env : Environment) (data : Bytes) (surface : Nat) (force : Bool) (regions : List Region) :
    Call × Bool → Prop
  | idle (without : forcedEncoder c.processor force = none) :
    Encoded c env data surface force regions (c.hear env.requestBeforeSend, false)
  | unsent {enc inner result} (idr : Bool) (failures : Nat) (before : forcedEncoder c.processor force = some enc)
    (encoded : enc.encodeEgfxFrame (c.processor.egfxCodec.getD .avc420) data c.processor.shape.stride regions
      env.debugFullFrame env.firstSubframe env.secondSubframe = (inner, result)) :
    Encoded c env data surface force regions
      ((c.hear env.requestBeforeSend).update
        { c.processor with
          h264Encoder := some (if idr then inner.forceIdr else inner)
          encodeFailures := failures }, false)
  | sent {enc inner frame wire} (before : forcedEncoder c.processor force = some enc)
    (encoded : enc.encodeEgfxFrame (c.processor.egfxCodec.getD .avc420) data c.processor.shape.stride regions
      env.debugFullFrame env.firstSubframe env.secondSubframe = (inner, .ok frame))
    (left : sendTrackedEncodedEgfxFrame surface frame regions c.processor.shape.width c.processor.shape.height
      c.processor.metadataQp env.frameAccepted = some wire) :
    Encoded c env data surface force regions
      (((c.hear env.requestBeforeSend).emit (.frame wire)).update
        { c.processor with
          h264Encoder := some (inner.commitAfterSend frame)
          encodeFailures := 0
          damageDetector := c.processor.updateReferenceRegions data regions }, true)

theorem encodeAndSend_encoded (c : Call) (env : Environment) (data : Bytes) (surface : Nat) (force : Bool)
    (regions : List Region) :
    c.Encoded env data surface force regions (c.encodeAndSend env data surface force regions) := by
  unfold encodeAndSend
  dsimp only
  rw [hear_processor]
  have forced : (if force then c.processor.h264Encoder.map .forceFullFrame else c.processor.h264Encoder) =
      forcedEncoder c.processor force := rfl
  rw [forced]
  cases before : forcedEncoder c.processor force with
  | none => exact .idle before
  | some enc =>
    dsimp only
    rcases encoded : enc.encodeEgfxFrame (c.processor.egfxCodec.getD .avc420) data c.processor.shape.stride regions
      env.debugFullFrame env.firstSubframe env.secondSubframe with ⟨inner, result⟩
    dsimp only
    cases result with
    | error message => exact .unsent true _ before encoded
    | ok frame =>
      dsimp only
      cases state : frame.state with
      | skipped => exact .unsent false _ before encoded
      | invalid => exact .unsent true _ before encoded
      | sendable =>
        dsimp only
        split
        · exact .unsent false _ before encoded
        · split
          · exact .unsent true _ before encoded
          · rename_i wire left
            exact .sent before encoded left

/-- Encoding without sending changes nothing about the client. -/
theorem Encoded.quiet {result : Call × Bool} (run : c.Encoded env data surface force regions result)
    (unsent : result.2 = false) : c.Quiet result.1 := by
  have quiet := c.hear_quiet env.requestBeforeSend
  cases run with
  | idle => exact quiet
  | unsent => exact ⟨rfl, rfl, quiet.deliveries⟩
  | sent => cases unsent

/-- A frame that leaves delivers the regions. -/
theorem Encoded.sends {result : Call × Bool} (any : regions ≠ [])
    (within : ∀ r ∈ regions, r.Within c.processor.shape.width c.processor.shape.height)
    (run : c.Encoded env data surface force regions result) (passed : result.2 = true) :
    c.Sends result.1 data regions := by
  have quiet := c.hear_quiet env.requestBeforeSend
  cases run with
  | idle => cases passed
  | unsent => cases passed
  | @sent enc inner frame wire before encoded left =>
    refine ⟨rfl, rfl, wire, ?_, (deliveries_emit _ _).trans (congrArg (· ++ _) quiet.deliveries)⟩
    rcases encodeEgfxFrame_ok encoded with ⟨_, _, len, rfl⟩ | ⟨codec, _, _, _, _, _, rfl, _⟩
    · have columns := c.processor.ledger.columns_small
      have rows := c.processor.ledger.rows_small
      rw [sent_avc420 columns rows within any left]
      intro px py
      exact (damageRegionsToAvc420_covers columns rows regions _).trans and_assoc.symm
    · rw [sent_avc444 left]
      unfold WireFrame.Carries
      cases chosen : c.processor.egfxCodec with
      | none => rw [chosen] at codec; cases codec
      | some selected => rw [chosen] at codec; exact congrArg some codec

theorem afterSend_quiet (c : Call) (env : Environment) (force sent : Bool) : c.Quiet (c.afterSend env force sent) := by
  unfold afterSend
  dsimp only
  refine (c.hear_quiet env.requestAfterSend).trans ?_
  generalize c.hear env.requestAfterSend = heard
  have asked : heard.Quiet (if (force && !sent) = true then { heard with fullFrameRequested := true } else heard) := by
    split
    · exact ⟨rfl, rfl, rfl⟩
    · exact .refl heard
  exact asked.trans (update_quiet (FrameProcessor.runtimeFallback_ledger _ env)
    (FrameProcessor.runtimeFallback_codec _ env))

/-- The processor of a call once the transport was looked up. -/
def activated (c : Call) (env : Environment) (ready : Bool) : Call := c.update (c.processor.activate env ready)

/-- The four ways through `transmit`. -/
inductive Transmitted (c : Call) (env : Environment) (data : Bytes) (ready force : Bool) (regions : List Region) :
    AvcOutcome → Prop
  | inactive (off : (c.activated env ready).processor.egfxActive = false) :
    Transmitted c env data ready force regions (.passed (c.activated env ready) false)
  | surfaceless (active : (c.activated env ready).processor.egfxActive = true)
    (unheld : ((c.activated env ready).initSurface env).processor.egfxSurfaceId = none) :
    Transmitted c env data ready force regions (.passed ((c.activated env ready).initSurface env) false)
  | waiting {surface : Nat} (active : (c.activated env ready).processor.egfxActive = true)
    (held : ((c.activated env ready).initSurface env).processor.egfxSurfaceId = some surface)
    (handle : ((c.activated env ready).initSurface env).processor.egfxHandle = true)
    (blocked : env.frameView.frameReadiness.isReady = false) :
    Transmitted c env data ready force regions (.returned ((c.activated env ready).initSurface env))
  | tried {surface : Nat} {result : Call × Bool} (active : (c.activated env ready).processor.egfxActive = true)
    (held : ((c.activated env ready).initSurface env).processor.egfxSurfaceId = some surface)
    (encoded : ((c.activated env ready).initSurface env).Encoded env data surface force regions result) :
    Transmitted c env data ready force regions (.passed (result.1.afterSend env force result.2) result.2)

theorem transmit_transmitted (c : Call) (env : Environment) (data : Bytes) (ready force : Bool) (regions : List Region) :
    c.Transmitted env data ready force regions (c.transmit env data ready force regions) := by
  unfold transmit
  dsimp only
  change Transmitted _ _ _ _ _ _ (if (!(c.activated env ready).processor.egfxActive) = true then _ else _)
  cases active : (c.activated env ready).processor.egfxActive with
  | false => exact .inactive active
  | true =>
    rw [if_neg (by simp)]
    have activated : c.update (c.processor.activate env ready) = c.activated env ready := rfl
    rw [activated]
    cases held : ((c.activated env ready).initSurface env).processor.egfxSurfaceId with
    | none => exact .surfaceless active held
    | some surface =>
      dsimp only
      split
      · rename_i blocked
        obtain ⟨handle, blocked⟩ := (Bool.and_eq_true _ _).mp blocked
        exact .waiting active held handle (by simpa using blocked)
      · exact .tried active held (encodeAndSend_encoded _ env data surface force regions)

theorem activated_quiet (c : Call) (env : Environment) (ready : Bool) : c.Quiet (c.activated env ready) :=
  update_quiet (c.processor.activate_ledger env ready) (c.processor.activate_codec env ready)

/-- From the transport on a call stays quiet, or it sends the regions. -/
theorem Transmitted.quiet {ready : Bool} {outcome : AvcOutcome}
    (run : c.Transmitted env data ready force regions outcome) (unsent : outcome.sent = false) :
    c.Quiet outcome.call := by
  have active := c.activated_quiet env ready
  have surfaced := active.trans ((c.activated env ready).initSurface_quiet env)
  cases run with
  | inactive => exact active
  | surfaceless => exact surfaced
  | waiting => exact surfaced
  | tried _ _ encoded => exact surfaced.trans ((encoded.quiet unsent).trans (afterSend_quiet _ env force _))

theorem Transmitted.sends {ready : Bool} {outcome : AvcOutcome} (any : regions ≠ [])
    (within : ∀ r ∈ regions, r.Within c.processor.shape.width c.processor.shape.height)
    (run : c.Transmitted env data ready force regions outcome) (left : outcome.sent = true) :
    c.Sends outcome.call data regions := by
  have surfaced := (c.activated_quiet env ready).trans ((c.activated env ready).initSurface_quiet env)
  cases run with
  | inactive => cases left
  | surfaceless => cases left
  | waiting => cases left
  | tried _ _ encoded =>
    have step := encoded.sends any (by rw [surfaced.shape]; exact within) left
    exact surfaced.sends (step.quiet (afterSend_quiet _ env force _))

/-- What a whole call does to the ledger: the checks at its start, then one settlement. -/
structure Settles (c : Call) (env : Environment) (data : Bytes) (d : Call) : Prop where
  run : ∃ p, c.processor.Refreshed env p ∧ p.egfxCodec = d.processor.egfxCodec ∧
    ∃ deliveries, p.ledger.Settled data env.bitmapAccepted d.processor.egfxCodec deliveries d.processor.ledger ∧
      d.deliveries = c.deliveries ++ deliveries

theorem Settles.sound (settles : c.Settles env data d) (sound : c.processor.ledger.Sound)
    (long : c.processor.shape.stride * c.processor.shape.height ≤ data.len) : d.processor.ledger.Sound := by
  obtain ⟨p, refreshed, _, deliveries, settled, _⟩ := settles.run
  exact settled.sound (by rw [refreshed.shape]; exact long) (refreshed.sound sound)

theorem Quiet.settles {p : FrameProcessor} (refreshed : c.processor.Refreshed env p)
    (quiet : (c.update p).Quiet d) : c.Settles env data d := by
  refine ⟨p, refreshed, quiet.codec.symm, [], ?_, quiet.deliveries.trans (List.append_nil _).symm⟩
  rw [show d.processor.ledger = p.ledger from quiet.ledger]
  exact .kept

end Call

namespace FrameProcessor

variable {p : FrameProcessor} {data : Bytes}

/-- As long as no first frame was sent there is nothing to compare with. -/
def StartsWhole (p : FrameProcessor) : Prop := p.sentFirstFrame = false → p.damageDetector.referenceFrame = none

variable {q : FrameProcessor} in
theorem Refreshed.startsWhole {env : Environment} (refreshed : p.Refreshed env q) (whole : p.StartsWhole) :
    q.StartsWhole := by
  rcases refreshed.ledger with kept | reset
  · have sent : q.sentFirstFrame = p.sentFirstFrame := congrArg Ledger.sentFirstFrame kept
    have detector : q.damageDetector = p.damageDetector := congrArg Ledger.damageDetector kept
    unfold StartsWhole
    rw [sent, detector]
    exact whole
  · intro _
    have detector : q.damageDetector = p.damageDetector.invalidate := congrArg Ledger.damageDetector reset
    rw [detector]
    rfl

theorem frameDamageRegions_due (sound : p.ledger.Sound) (long : p.shape.stride * p.shape.height ≤ data.len)
    (force : Bool) : p.ledger.Due data (p.frameDamageRegions data force) := by
  unfold frameDamageRegions
  split
  · exact Ledger.full_due data
  · split
    · exact Ledger.detect_due sound long fun _ _ _ pending => pending
    · refine Ledger.detect_due sound long fun px py visible _ => ?_
      exact (Covered.cons _ _ _ _).mpr (.inl ((Region.covers_full _ _ _ _).mpr visible))

theorem frameDamageRegions_first (fresh : p.damageDetector.referenceFrame = none) (first : p.sentFirstFrame = false)
    (force : Bool) : p.frameDamageRegions data force = [p.fullRegion] := by
  simp only [frameDamageRegions, detect, first, FrameDiffDamageDetector.detect_none fresh, Bool.false_eq_true, if_false]
  exact ite_self _

end FrameProcessor

namespace Call

variable {c d : Call} {env : Environment} {data : Bytes}

theorem finish_unsent (c : Call) (env : Environment) (data : Bytes) :
    ∃ deliveries, c.processor.ledger.Settled data env.bitmapAccepted c.processor.egfxCodec deliveries
        (c.finish env data false).1.processor.ledger ∧
      (c.finish env data false).1.processor.egfxCodec = c.processor.egfxCodec ∧
      (c.finish env data false).1.deliveries = c.deliveries ++ deliveries := by
  unfold finish
  simp only [Bool.not_false, Bool.true_and, Bool.false_eq_true, if_false]
  split
  · split
    · rename_i refused
      exact ⟨[], .refused (by simpa using refused), rfl, (List.append_nil _).symm⟩
    · exact ⟨[.bitmap], .bitmap, rfl, deliveries_emit c .bitmap⟩
  · exact ⟨[], .kept, rfl, (List.append_nil _).symm⟩

theorem finish_sent (c : Call) (env : Environment) (data : Bytes) : (c.finish env data true).1 =
    c.update c.processor.frameLeft := by
  unfold finish
  simp only [Bool.not_true, Bool.false_and, Bool.false_eq_true, if_false, if_true]

def readyForAvc (env : Environment) : Bool := env.ready && env.avcEnabled

/-- A call of the H.264 path just before it takes the full-frame request. -/
def prepared (c : Call) (env : Environment) : Call := (c.refresh env).hear env.requestBeforeTake

def forced (c : Call) (env : Environment) : Bool := readyForAvc env && (c.prepared env).fullFrameRequested

def taken (c : Call) (env : Environment) : Call := (c.prepared env).take (readyForAvc env)

def damage (c : Call) (env : Environment) (data : Bytes) : List Region :=
  (c.taken env).processor.frameDamageRegions data (c.forced env)

/-- A full-frame request is on but its frame cannot be made now. -/
def postponed (c : Call) (env : Environment) : Bool :=
  readyForAvc env && (c.refresh env).fullFrameRequested && !env.refreshView.fullFrameRefreshReadiness.isReady

/-- The three ways through the H.264 path. -/
inductive AvcRun (c : Call) (env : Environment) (data : Bytes) : AvcOutcome → Prop
  | postponed (late : c.postponed env = true) : AvcRun c env data (.returned (c.refresh env))
  | unchanged (prompt : c.postponed env = false) (sent : (c.taken env).processor.sentFirstFrame = true)
    (same : c.damage env data = []) :
    AvcRun c env data (.returned ((c.taken env).update { (c.taken env).processor with pendingDamageRegions := [] }))
  | transmitted {outcome : AvcOutcome} (prompt : c.postponed env = false)
    (changed : (c.taken env).processor.sentFirstFrame = true → c.damage env data ≠ [])
    (run : (c.taken env).Transmitted env data (readyForAvc env) (c.forced env) (c.damage env data) outcome) :
    AvcRun c env data outcome

theorem processAvc_run (c : Call) (env : Environment) (data : Bytes) : c.AvcRun env data (c.processAvc env data) := by
  unfold processAvc
  dsimp only
  split
  · rename_i late
    exact .postponed late
  · rename_i prompt
    have prompt : c.postponed env = false := Bool.eq_false_iff.mpr prompt
    change AvcRun _ _ _ (if ((c.taken env).processor.sentFirstFrame && (c.damage env data).isEmpty) = true then _ else _)
    split
    · rename_i same
      obtain ⟨sent, same⟩ := (Bool.and_eq_true _ _).mp same
      exact .unchanged prompt sent (List.isEmpty_iff.mp same)
    · rename_i changed
      refine .transmitted prompt (fun sent empty => changed ?_) (transmit_transmitted _ _ _ _ _ _)
      rw [sent, empty]
      rfl

/-- The call with its surface, if it has or gets one. -/
def surfaced (c : Call) (env : Environment) : Call := ((c.taken env).activated env (readyForAvc env)).initSurface env

/-- The H.264 path is active and has a surface to send on. -/
def canTransmit (c : Call) (env : Environment) : Bool :=
  ((c.taken env).activated env (readyForAvc env)).processor.egfxActive &&
    (c.surfaced env).processor.egfxSurfaceId.isSome

theorem afterSend_processor (c : Call) (env : Environment) (force sent : Bool) :
    (c.afterSend env force sent).processor = c.processor.runtimeFallback env := by
  have heard : (c.hear env.requestAfterSend).processor = c.processor := hear_processor _ _
  unfold afterSend
  dsimp only
  split <;> exact congrArg (FrameProcessor.runtimeFallback · env) heard

theorem initSurface_active (c : Call) (env : Environment) :
    (c.initSurface env).processor.egfxActive = c.processor.egfxActive := by
  unfold initSurface
  dsimp only
  split
  · split <;> rfl
  · rfl

theorem refresh_processor (c : Call) (env : Environment) : (c.refresh env).processor =
    (c.processor.refreshReadiness (readyForAvc env)).refreshEncoder env (readyForAvc env) := hear_processor _ _

theorem refresh_quiet (c : Call) (env : Environment) : (c.update (c.refresh env).processor).Quiet (c.refresh env) := by
  have quiet := (c.update ((c.processor.refreshReadiness (readyForAvc env)).refreshEncoder env (readyForAvc env))).hear_quiet
    env.requestBeforeRefreshCheck
  rw [refresh_processor]
  exact quiet

theorem refresh_refreshed (c : Call) (env : Environment) : c.processor.Refreshed env (c.refresh env).processor := by
  rw [refresh_processor]
  exact (FrameProcessor.refreshReadiness_refreshed _ env _).trans (FrameProcessor.refreshEncoder_refreshed _ env _)

theorem taken_quiet (c : Call) (env : Environment) : (c.update (c.refresh env).processor).Quiet (c.taken env) :=
  (c.refresh_quiet env).trans (((c.refresh env).hear_quiet _).trans (take_quiet _ _))

theorem Settles.finish {p : FrameProcessor} (refreshed : c.processor.Refreshed env p)
    (quiet : (c.update p).Quiet d) : c.Settles env data (d.finish env data false).1 := by
  obtain ⟨deliveries, settled, codec, same⟩ := d.finish_unsent env data
  rw [show d.processor.ledger = p.ledger from quiet.ledger, show d.processor.egfxCodec = p.egfxCodec from quiet.codec]
    at settled
  rw [show d.processor.egfxCodec = p.egfxCodec from quiet.codec] at codec
  refine ⟨p, refreshed, codec.symm, deliveries, codec.symm ▸ settled, ?_⟩
  rw [same, quiet.deliveries]
  rfl

theorem Settles.finish_sent {p : FrameProcessor} {regions : List Region} (refreshed : c.processor.Refreshed env p)
    (due : p.ledger.Due data regions) (sends : (c.update p).Sends d data regions) :
    c.Settles env data (d.finish env data true).1 := by
  obtain ⟨wire, carries, same⟩ := sends.wire
  rw [Call.finish_sent]
  refine ⟨p, refreshed, sends.codec.symm, [.frame wire], ?_, same⟩
  have after : d.processor.frameLeft.ledger = p.ledger.deliver data regions :=
    congrArg (fun l => l.settle.refuse) sends.ledger
  have codec : d.processor.egfxCodec = p.egfxCodec := sends.codec
  change p.ledger.Settled data env.bitmapAccepted d.processor.egfxCodec _ d.processor.frameLeft.ledger
  rw [after, codec]
  exact .frame due carries

theorem taken_startsWhole (whole : c.processor.StartsWhole) (env : Environment) :
    (c.taken env).processor.StartsWhole := by
  have refreshed := (c.refresh_refreshed env).startsWhole whole
  have ledger := (c.taken_quiet env).ledger
  unfold FrameProcessor.StartsWhole
  rw [show (c.taken env).processor.sentFirstFrame = (c.refresh env).processor.sentFirstFrame from
      congrArg Ledger.sentFirstFrame ledger,
    show (c.taken env).processor.damageDetector = (c.refresh env).processor.damageDetector from
      congrArg Ledger.damageDetector ledger]
  exact refreshed

theorem Quiet.startsWhole (quiet : c.Quiet d) (whole : c.processor.StartsWhole) : d.processor.StartsWhole := by
  unfold FrameProcessor.StartsWhole
  rw [show d.processor.sentFirstFrame = c.processor.sentFirstFrame from congrArg Ledger.sentFirstFrame quiet.ledger,
    show d.processor.damageDetector = c.processor.damageDetector from congrArg Ledger.damageDetector quiet.ledger]
  exact whole

theorem finish_startsWhole (env : Environment) (data : Bytes) {sent : Bool}
    (whole : sent = false → c.processor.StartsWhole) : (c.finish env data sent).1.processor.StartsWhole := by
  cases sent with
  | true =>
    rw [Call.finish_sent]
    exact fun never => by cases never
  | false =>
    unfold finish
    simp only [Bool.not_false, Bool.true_and, Bool.false_eq_true, if_false]
    split
    · split
      · exact fun never => by cases never
      · exact fun never => by cases never
    · exact whole rfl

theorem AvcRun.startsWhole {outcome : AvcOutcome} (whole : c.processor.StartsWhole) (run : c.AvcRun env data outcome) :
    (outcome.finished env data).1.processor.StartsWhole := by
  have taken := taken_startsWhole whole env
  cases run with
  | postponed => exact (c.refresh_refreshed env).startsWhole whole
  | unchanged => exact taken
  | transmitted _ _ run =>
    cases outcome with
    | returned d => exact (run.quiet rfl).startsWhole taken
    | passed d sent => exact finish_startsWhole env data fun unsent => (run.quiet unsent).startsWhole taken

/-- The H.264 path settles the ledger, together with the end of the call. -/
theorem AvcRun.settles {outcome : AvcOutcome} (sound : c.processor.ledger.Sound)
    (long : c.processor.shape.stride * c.processor.shape.height ≤ data.len) (run : c.AvcRun env data outcome) :
    c.Settles env data (outcome.finished env data).1 := by
  have refreshed := c.refresh_refreshed env
  have quiet := c.taken_quiet env
  have same : (c.taken env).processor.ledger = (c.refresh env).processor.ledger := quiet.ledger
  have shape : (c.taken env).processor.shape = c.processor.shape := quiet.shape.trans refreshed.shape
  have soundNow : (c.taken env).processor.ledger.Sound := same ▸ refreshed.sound sound
  have due : (c.taken env).processor.ledger.Due data (c.damage env data) :=
    FrameProcessor.frameDamageRegions_due soundNow (by rw [shape]; exact long) _
  cases run with
  | postponed => exact (c.refresh_quiet env).settles refreshed
  | unchanged _ sent empty =>
    refine ⟨_, refreshed, quiet.codec.symm, [], ?_, quiet.deliveries.trans (List.append_nil _).symm⟩
    rw [empty] at due
    exact same ▸ .nothing sent due
  | transmitted _ changed run =>
    have any : c.damage env data ≠ [] := by
      cases sent : (c.taken env).processor.sentFirstFrame with
      | false => rw [damage, FrameProcessor.frameDamageRegions_first (soundNow.fresh sent) sent]; exact List.cons_ne_nil _ _
      | true => exact changed sent
    cases outcome with
    | returned d => exact (quiet.trans (run.quiet rfl)).settles refreshed
    | passed d sent =>
      cases sent with
      | false => exact .finish refreshed (quiet.trans (run.quiet rfl))
      | true => exact .finish_sent refreshed (same ▸ due) (quiet.sends (run.sends any due.within rfl))

/-- The three results of the ClearCodec send: nothing happened, or the damage is on the wire. -/
inductive ClearcodecSent (c : Call) (env : Environment) (data : Bytes) (damage : List Region) (surface : Nat) :
    Call × Bool → Prop
  | unsent (go : Bool) : ClearcodecSent c env data damage surface (c.hear env.requestBeforeSend, go)
  | queued {input : ClearCodecInput} (queue : env.clearcodecSend = .queued)
    (accepted : ClearCodecInput.new data c.processor.shape.width c.processor.shape.height c.processor.shape.stride
      damage c.processor.pixelFormat = .ok input) :
    ClearcodecSent c env data damage surface
      ({ (((c.hear env.requestBeforeSend).emit (.frame (.clearcodec surface input.rectangles))).hear
            env.requestAfterSend) with
          fullFrameRequested := false
          processor :=
            { c.processor with
              sentFirstFrame := true
              egfxSurfaceId := some surface
              damageDetector := c.processor.updateReferenceRegions data damage
              pendingDamageRegions := [] } }, true)

theorem sendClearcodec_sent (c : Call) (env : Environment) (data : Bytes) (damage : List Region) (surface : Nat) :
    c.ClearcodecSent env data damage surface (c.sendClearcodec env data damage surface) := by
  unfold sendClearcodec
  dsimp only
  rw [hear_processor]
  split
  · exact .unsent false
  · rename_i input accepted
    split
    · exact .unsent true
    · split
      · exact .unsent true
      · exact .unsent false
      · rename_i queue
        exact .queued queue accepted

/-- A ClearCodec call just before it decides what to send. -/
def clearcodecPrepared (c : Call) (env : Environment) : Call :=
  ((c.update (c.processor.refreshClearcodec env)).hear env.requestBeforeRefreshCheck).hear env.requestBeforeTake

def fullRefresh (c : Call) (env : Environment) : Bool :=
  (c.clearcodecPrepared env).fullFrameRequested || !(c.clearcodecPrepared env).processor.sentFirstFrame

def clearcodecDamage (c : Call) (env : Environment) (data : Bytes) : List Region :=
  if c.fullRefresh env then [(c.clearcodecPrepared env).processor.fullRegion]
  else (c.clearcodecPrepared env).processor.detect data (c.clearcodecPrepared env).processor.pendingDamageRegions

/-- The ways through the ClearCodec path. -/
inductive ClearcodecRun (c : Call) (env : Environment) (data : Bytes) : Call × Bool → Prop
  | unavailable (go : Bool) : ClearcodecRun c env data (c.update (c.processor.refreshClearcodec env), go)
  | unready : ClearcodecRun c env data
      ((c.update (c.processor.refreshClearcodec env)).hear env.requestBeforeRefreshCheck, true)
  | unchanged (same : c.clearcodecDamage env data = []) :
    ClearcodecRun c env data
      ((c.clearcodecPrepared env).update { (c.clearcodecPrepared env).processor with pendingDamageRegions := [] }, true)
  | surfaceless : ClearcodecRun c env data (c.clearcodecPrepared env, true)
  | tried {surface : Nat} {created : Bool} {result : Call × Bool}
    (run : ((c.clearcodecPrepared env).emit (.surface surface created)).ClearcodecSent env data
      (c.clearcodecDamage env data) surface result) :
    ClearcodecRun c env data result

theorem processClearcodec_run (c : Call) (env : Environment) (data : Bytes) :
    c.ClearcodecRun env data (c.processClearcodec env data) := by
  unfold processClearcodec
  dsimp only
  split
  · exact .unavailable true
  split
  · exact .unavailable false
  generalize (if ((c.update (c.processor.refreshClearcodec env)).hear env.requestBeforeRefreshCheck).fullFrameRequested =
    true then env.refreshView.fullFrameRefreshReadiness else env.frameView.frameReadiness) = readiness
  split
  · exact .unready
  change ClearcodecRun _ _ _ (if (c.clearcodecDamage env data).isEmpty = true then _ else _)
  split
  · rename_i same
    exact .unchanged (List.isEmpty_iff.mp same)
  · split
    · exact .surfaceless
    · exact .tried (sendClearcodec_sent _ _ _ _ _)
    · exact .tried (sendClearcodec_sent _ _ _ _ _)

theorem clearcodecPrepared_quiet (c : Call) (env : Environment) :
    (c.update (c.processor.refreshClearcodec env)).Quiet (c.clearcodecPrepared env) :=
  (hear_quiet _ _).trans (hear_quiet _ _)

/-- The ClearCodec send leaves everything as it is, or delivers the damage. -/
theorem ClearcodecSent.settles {p : FrameProcessor} {damage : List Region} {surface : Nat} {result : Call × Bool}
    (refreshed : c.processor.Refreshed env p) (quiet : (c.update p).Quiet d) (due : p.ledger.Due data damage)
    (run : d.ClearcodecSent env data damage surface result) : c.Settles env data result.1 := by
  have heard := quiet.trans (d.hear_quiet env.requestBeforeSend)
  have ledger : d.processor.ledger = p.ledger := quiet.ledger
  have codec : d.processor.egfxCodec = p.egfxCodec := quiet.codec
  cases run with
  | unsent => exact heard.settles refreshed
  | @queued input _ accepted =>
    have sent := ((d.hear env.requestBeforeSend).emit (.frame (.clearcodec surface input.rectangles))).hear_quiet
      env.requestAfterSend
    refine ⟨p, refreshed, codec.symm, [.frame (.clearcodec surface input.rectangles)], ?_, ?_⟩
    · have carries : (WireFrame.clearcodec surface input.rectangles).Carries d.processor.ledger
          d.processor.egfxCodec damage :=
        fun px py => (ClearCodecInput.new_covers accepted px py).trans and_assoc.symm
      rw [← ledger] at due ⊢
      exact .frame due carries
    · refine Eq.trans sent.deliveries ?_
      rw [deliveries_emit, heard.deliveries]
      rfl

theorem ClearcodecRun.settles {result : Call × Bool} (sound : c.processor.ledger.Sound)
    (long : c.processor.shape.stride * c.processor.shape.height ≤ data.len) (run : c.ClearcodecRun env data result) :
    c.Settles env data result.1 := by
  have refreshed := c.processor.refreshClearcodec_refreshed env
  have quiet := c.clearcodecPrepared_quiet env
  have ledger : (c.clearcodecPrepared env).processor.ledger = (c.processor.refreshClearcodec env).ledger := quiet.ledger
  have soundNow : (c.clearcodecPrepared env).processor.ledger.Sound := ledger ▸ refreshed.sound sound
  have due : (c.clearcodecPrepared env).processor.ledger.Due data (c.clearcodecDamage env data) := by
    unfold clearcodecDamage
    split
    · exact Ledger.full_due data
    · refine Ledger.detect_due soundNow ?_ fun _ _ _ pending => pending
      rw [ledger, refreshed.shape]
      exact long
  cases run with
  | unavailable => exact (Quiet.refl _).settles refreshed
  | unready => exact (hear_quiet _ _).settles refreshed
  | surfaceless => exact quiet.settles refreshed
  | tried run => exact run.settles refreshed (quiet.trans (surface_quiet _ _ _)) (ledger ▸ due)
  | unchanged same =>
    have sent : (c.clearcodecPrepared env).processor.ledger.sentFirstFrame = true := by
      unfold clearcodecDamage at same
      split at same
      · cases same
      · rename_i partly
        simp only [fullRefresh, Bool.or_eq_true, Bool.not_eq_true', not_or, Bool.not_eq_false] at partly
        exact partly.2
    refine ⟨_, refreshed, quiet.codec.symm, [], ?_, quiet.deliveries.trans (List.append_nil _).symm⟩
    rw [← ledger]
    exact .nothing sent (same ▸ due)

def skips (c : Call) : Bool :=
  c.processor.sentFirstFrame && !c.processor.hasPendingDamage && !(c.processor.egfxShared && c.fullFrameRequested)

def resizes (c : Call) (env : Environment) : Bool :=
  c.processor.pendingInitialResize.isSome && (!c.processor.egfxShared || env.readyForResize)

/-- The call gets past the early returns at the start of `process_at`. -/
def proceeds (c : Call) (env : Environment) : Bool := !c.skips && !c.resizes env

def clearcodecBranch (c : Call) (env : Environment) : Bool :=
  c.processor.egfxShared && env.readyForClearcodec && !env.avcForClearcodec

def usesClearcodec (c : Call) (env : Environment) : Bool := c.proceeds env && c.clearcodecBranch env

def usesAvc (c : Call) (env : Environment) : Bool :=
  c.proceeds env && !c.clearcodecBranch env && c.processor.egfxShared

/-- The ways through `process_at`. -/
inductive CallRun (c : Call) (env : Environment) (data : Bytes) : Call × Bool → Prop
  | skipped : CallRun c env data (c, true)
  | resized (width height : Nat) :
    CallRun c env data
      ((c.emit (.resize width height)).update { c.processor with pendingInitialResize := none }, false)
  | clearcodec {result : Call × Bool} (path : c.usesClearcodec env = true) (run : c.ClearcodecRun env data result) :
    CallRun c env data result
  | avc {outcome : AvcOutcome} (path : c.usesAvc env = true) (run : c.AvcRun env data outcome) :
    CallRun c env data (outcome.finished env data)
  | plain (unshared : c.processor.egfxShared = false) : CallRun c env data (c.finish env data false)

theorem processAt_run (c : Call) (env : Environment) (data : Bytes) : c.CallRun env data (c.processAt env data) := by
  unfold processAt
  dsimp only
  split
  · exact .skipped
  · rename_i busy
    split
    · exact .resized _ _
    · rename_i waiting
      have still : c.resizes env = false := by
        unfold resizes
        cases resize : c.processor.pendingInitialResize with
        | none => rfl
        | some size =>
          cases ready : !c.processor.egfxShared || env.readyForResize with
          | false => rfl
          | true => exact (waiting size.1 size.2 resize ready).elim
      have proceeds : c.proceeds env = true := by
        unfold Call.proceeds
        rw [still, show c.skips = false from Bool.eq_false_iff.mpr busy]
        rfl
      split
      · rename_i path
        exact .clearcodec ((Bool.and_eq_true _ _).mpr ⟨proceeds, path⟩) (c.processClearcodec_run env data)
      · rename_i path
        split
        · rename_i shared
          have avc : c.usesAvc env = true := by
            unfold usesAvc
            rw [proceeds, shared, show c.clearcodecBranch env = false from Bool.eq_false_iff.mpr path]
            rfl
          exact .avc avc (c.processAvc_run env data)
        · rename_i unshared
          exact .plain (Bool.eq_false_iff.mpr unshared)

/-- Every call, on every path, is a check that may start over and one settlement of the ledger. -/
theorem processAt_settles (env : Environment) (sound : c.processor.ledger.Sound)
    (long : c.processor.shape.stride * c.processor.shape.height ≤ data.len) :
    c.Settles env data (c.processAt env data).1 := by
  have start := FrameProcessor.Refreshed.refl c.processor env
  have run := c.processAt_run env data
  generalize c.processAt env data = result at run
  cases run with
  | skipped => exact (Quiet.refl c).settles start
  | resized width height =>
    exact Quiet.settles start ⟨rfl, rfl, (deliveries_emit c (.resize width height)).trans (List.append_nil _)⟩
  | clearcodec _ run => exact run.settles sound long
  | avc _ run => exact run.settles sound long
  | plain => exact .finish start (.refl c)

end Call

end HyprRdp
