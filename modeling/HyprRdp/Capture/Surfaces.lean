import HyprRdp.Capture.Encoders
import HyprRdp.Lib.Runs

namespace HyprRdp

/-- The surfaces that were created and not painted yet, and whether one of
them was first painted in part. -/
structure SurfaceLog where
  fresh : List Nat
  broken : Bool
  deriving DecidableEq, Repr

def Event.surfaces (shape : FrameShape) (log : SurfaceLog) : Event → SurfaceLog
  | .surface id true => { log with fresh := id :: log.fresh }
  | .frame wire =>
    { fresh := log.fresh.filter (· ≠ wire.surface)
      broken := log.broken || decide (wire.surface ∈ log.fresh ∧ ¬ wire.Whole shape) }
  | .surface _ false | .requested | .resize _ _ | .bitmap => log

namespace Call

variable {c d : Call} {env : Environment} {data : Bytes} {shape : FrameShape} {before : SurfaceLog}

def surfaceLog (c : Call) (shape : FrameShape) (before : SurfaceLog) : SurfaceLog :=
  c.events.foldl (Event.surfaces shape) before

theorem surfaceLog_emit (c : Call) (e : Event) (shape : FrameShape) (before : SurfaceLog) :
    (c.emit e).surfaceLog shape before = e.surfaces shape (c.surfaceLog shape before) := by
  simp only [surfaceLog, emit, List.foldl_append, List.foldl_cons, List.foldl_nil]

/-- No surface was first painted in part, and an encoder that has a reference
works on a surface that was painted. -/
structure Painted (p : FrameProcessor) (log : SurfaceLog) : Prop where
  intact : log.broken = false
  reference : ∀ enc, p.h264Encoder = some enc → enc.hasReference = true →
    ∃ id, p.egfxSurfaceId = some id ∧ id ∉ log.fresh

variable {p q : FrameProcessor} {log : SurfaceLog}

theorem Painted.kept (painted : Painted p log) (encoder : q.h264Encoder = p.h264Encoder)
    (surface : q.egfxSurfaceId = p.egfxSurfaceId) : Painted q log :=
  ⟨painted.intact, fun enc held => surface ▸ painted.reference enc (encoder ▸ held)⟩

theorem Painted.unreferenced (painted : Painted p log)
    (fresh : ∀ enc, q.h264Encoder = some enc → enc.hasReference = false) : Painted q log :=
  ⟨painted.intact, fun enc held referenced => absurd ((fresh enc held).symm.trans referenced) Bool.false_ne_true⟩

theorem Painted.refreshReadiness (painted : Painted p log) (ready : Bool) : Painted (p.refreshReadiness ready) log := by
  unfold FrameProcessor.refreshReadiness
  split
  · exact painted
  · split
    · exact painted.kept rfl rfl
    · exact painted.unreferenced nofun

theorem Painted.refreshEncoder (painted : Painted p log) (env : Environment) (ready : Bool) :
    Painted (p.refreshEncoder env ready) log := by
  unfold FrameProcessor.refreshEncoder
  dsimp only
  split
  · split
    · split
      · rename_i made
        refine painted.unreferenced fun enc held => ?_
        cases held
        exact FrameEncoder.hasReference_newForEgfxCodec made
      · exact painted.unreferenced nofun
    · exact painted.unreferenced nofun
  · exact painted

theorem Painted.activate (painted : Painted p log) (env : Environment) (ready : Bool) :
    Painted (p.activate env ready) log := by
  unfold FrameProcessor.activate
  split
  · exact painted.kept rfl rfl
  · exact painted

theorem Painted.runtimeFallback (painted : Painted p log) (env : Environment) : Painted (p.runtimeFallback env) log := by
  unfold FrameProcessor.runtimeFallback
  split
  · split
    · split
      · rename_i made
        refine painted.unreferenced fun enc held => ?_
        cases held
        exact FrameEncoder.hasReference_newSoftwareOnlyForEgfxCodec made
      · exact painted.unreferenced nofun
    · exact painted.unreferenced nofun
  · exact painted

theorem surfaceLog_hear (c : Call) (requested : Bool) (shape : FrameShape) (before : SurfaceLog) :
    (c.hear requested).surfaceLog shape before = c.surfaceLog shape before := by
  unfold hear
  split
  · exact surfaceLog_emit c .requested shape before
  · rfl

/-- A surface is looked for only where none is held, so no encoder with a reference gets a new one. -/
theorem Painted.initSurface (painted : Painted c.processor (c.surfaceLog shape before)) (env : Environment) :
    Painted (c.initSurface env).processor ((c.initSurface env).surfaceLog shape before) := by
  unfold Call.initSurface
  dsimp only
  split
  · rename_i missing
    have unheld : c.processor.egfxSurfaceId = none := by
      simp only [Bool.and_eq_true, Option.isNone_iff_eq_none] at missing
      exact missing.1.1
    have fresh : ∀ enc, c.processor.h264Encoder = some enc → enc.hasReference = false := by
      intro enc held
      by_contra referenced
      obtain ⟨id, surface, _⟩ := painted.reference enc held (by simpa using referenced)
      rw [unheld] at surface
      cases surface
    split
    · exact painted
    · rename_i id _
      have log : ((c.emit (.surface id false)).surfaceLog shape before).broken = false := by
        rw [surfaceLog_emit]
        exact painted.intact
      exact ⟨log, fun enc held referenced => absurd ((fresh enc held).symm.trans referenced) Bool.false_ne_true⟩
    · rename_i id _
      have log : ((c.emit (.surface id true)).surfaceLog shape before).broken = false := by
        rw [surfaceLog_emit]
        exact painted.intact
      exact ⟨log, fun enc held referenced => absurd ((fresh enc held).symm.trans referenced) Bool.false_ne_true⟩
  · exact painted

/-- What a send may do without breaking a surface: its frame is whole, or the surface was painted before. -/
theorem Encoded.painted {surface : Nat} {force : Bool} {regions : List Region} {result : Call × Bool}
    (fits : c.processor.EncoderFits) (held : c.processor.egfxSurfaceId = some surface)
    (whole : ∀ enc, forcedEncoder c.processor force = some enc → enc.hasReference = false →
      WholeDue c.processor.shape regions env.debugFullFrame enc ∨
        surface ∉ (c.surfaceLog c.processor.shape before).fresh)
    (painted : Painted c.processor (c.surfaceLog c.processor.shape before))
    (run : c.Encoded env data surface force regions result) :
    Painted result.1.processor (result.1.surfaceLog c.processor.shape before) := by
  have log := c.surfaceLog_hear env.requestBeforeSend c.processor.shape before
  cases run with
  | idle =>
    dsimp only
    rw [hear_processor, log]
    exact painted
  | @unsent enc inner outcome idr failures forced encoded =>
    obtain ⟨original, isOriginal, reference⟩ := forcedEncoder_hasReference forced
    change Painted _ ((c.hear env.requestBeforeSend).surfaceLog c.processor.shape before)
    rw [log]
    refine ⟨painted.intact, fun other isOther referenced => painted.reference original isOriginal ?_⟩
    cases isOther
    rw [reference, ← FrameEncoder.hasReference_encode encoded, ← referenced]
    split
    · exact (FrameEncoder.hasReference_forceIdr inner).symm
    · rfl
  | @sent enc inner frame wire forced encoded left =>
    obtain ⟨original, isOriginal, reference⟩ := forcedEncoder_hasReference forced
    have onto : wire.surface = surface := sent_surface left
    have allowed : wire.Whole c.processor.shape ∨ surface ∉ (c.surfaceLog c.processor.shape before).fresh := by
      cases referenced : enc.hasReference with
      | true =>
        obtain ⟨id, isId, old⟩ := painted.reference original isOriginal (reference.trans referenced)
        cases held.symm.trans isId
        exact .inr old
      | false => exact (whole enc forced referenced).imp_left fun due =>
          sent_whole (forcedEncoder_fits fits forced) due encoded left
    change Painted _ (((c.hear env.requestBeforeSend).emit (.frame wire)).surfaceLog c.processor.shape before)
    rw [surfaceLog_emit, log]
    refine ⟨?_, fun other isOther referenced => ⟨surface, held, fun member => ?_⟩⟩
    · rw [Event.surfaces, painted.intact, Bool.false_or, decide_eq_false_iff_not, onto]
      rintro ⟨new, partly⟩
      rcases allowed with isWhole | old
      · exact partly isWhole
      · exact old new
    · have other := (List.mem_filter.mp member).2
      rw [onto] at other
      simp at other

/-- The log of surfaces at the end of a call is that at its last event; a bitmap paints no surface. -/
theorem Painted.finish (painted : Painted c.processor (c.surfaceLog shape before)) (env : Environment) (data : Bytes)
    (sent : Bool) : Painted (c.finish env data sent).1.processor ((c.finish env data sent).1.surfaceLog shape before) := by
  cases sent with
  | true =>
    rw [finish_sent]
    exact painted.kept rfl rfl
  | false =>
    unfold Call.finish
    simp only [Bool.not_false, Bool.true_and, Bool.false_eq_true, if_false]
    split
    · split
      · exact painted.kept rfl rfl
      · have log := surfaceLog_emit c .bitmap shape before
        refine Painted.kept (p := c.processor) ?_ rfl rfl
        exact (show ((c.emit .bitmap).surfaceLog shape before) = _ from log) ▸ painted
    · exact painted

theorem Painted.afterSend (painted : Painted c.processor (c.surfaceLog shape before)) (env : Environment)
    (force sent : Bool) :
    Painted (c.afterSend env force sent).processor ((c.afterSend env force sent).surfaceLog shape before) := by
  have heard : Painted (c.hear env.requestAfterSend).processor
      ((c.hear env.requestAfterSend).surfaceLog shape before) := by
    rw [hear_processor, surfaceLog_hear]
    exact painted
  unfold Call.afterSend
  dsimp only
  split
  · exact Painted.runtimeFallback (p := (c.hear env.requestAfterSend).processor) heard env
  · exact heard.runtimeFallback env

def usesAvc444 (p : FrameProcessor) : Bool :=
  match p.h264Encoder with
  | some (.softwareAvc444 _) => true
  | _ => false

theorem forcedEncoder_plain {force : Bool} {enc : FrameEncoder} (held : forcedEncoder p force = some enc)
    (plain : ∀ encoder, enc ≠ .softwareAvc444 encoder) : usesAvc444 p = false := by
  unfold forcedEncoder at held
  unfold usesAvc444
  split
  · rename_i encoder isEncoder
    rw [isEncoder] at held
    split at held
    · exact absurd (Option.some.inj held).symm (plain _)
    · exact absurd (Option.some.inj held).symm (plain _)
  · rfl

/-- An AVC420 call works on an update, not on a full frame, while its surface was not painted yet. -/
def updatesNewSurface (c : Call) (env : Environment) (before : SurfaceLog) : Bool :=
  !c.postponed env && c.canTransmit env && (c.taken env).processor.sentFirstFrame && !c.forced env &&
    !usesAvc444 (c.surfaced env).processor &&
    (c.surfaced env).processor.egfxSurfaceId.any fun id =>
      decide (id ∈ ((c.surfaced env).surfaceLog c.processor.shape before).fresh)

theorem Painted.refresh (painted : Painted c.processor (c.surfaceLog shape before)) (env : Environment) :
    Painted (c.refresh env).processor ((c.refresh env).surfaceLog shape before) := by
  have log : (c.refresh env).surfaceLog shape before = c.surfaceLog shape before := surfaceLog_hear _ _ _ _
  rw [refresh_processor, log]
  exact (painted.refreshReadiness _).refreshEncoder env _

theorem Painted.taken (painted : Painted c.processor (c.surfaceLog shape before)) (env : Environment) :
    Painted (c.taken env).processor ((c.taken env).surfaceLog shape before) := by
  have log : (c.taken env).surfaceLog shape before = (c.refresh env).surfaceLog shape before := by
    have heard : (c.prepared env).surfaceLog shape before = (c.refresh env).surfaceLog shape before :=
      surfaceLog_hear _ _ _ _
    unfold Call.taken take
    split <;> exact heard
  rw [taken_processor, log]
  exact painted.refresh env

/-- A call of the H.264 path paints a new surface as a whole unless it works on an update. -/
theorem AvcRun.painted {outcome : AvcOutcome} (starts : c.processor.StartsWhole) (fits : c.processor.EncoderFits)
    (allowed : c.updatesNewSurface env before = false)
    (painted : Painted c.processor (c.surfaceLog c.processor.shape before)) (run : c.AvcRun env data outcome) :
    Painted (outcome.finished env data).1.processor
      ((outcome.finished env data).1.surfaceLog c.processor.shape before) := by
  have ready := painted.taken env
  have shape : (c.taken env).processor.shape = c.processor.shape :=
    (c.taken_quiet env).shape.trans (c.refresh_refreshed env).shape
  have active : Painted ((c.taken env).activated env (readyForAvc env)).processor
      (((c.taken env).activated env (readyForAvc env)).surfaceLog c.processor.shape before) := ready.activate env _
  have surfaced : Painted (c.surfaced env).processor ((c.surfaced env).surfaceLog c.processor.shape before) :=
    active.initSurface env
  cases run with
  | postponed => exact painted.refresh env
  | unchanged => exact ready.kept rfl rfl
  | transmitted prompt _ run =>
    cases run with
    | inactive => exact active.finish env data false
    | surfaceless => exact surfaced.finish env data false
    | waiting => exact surfaced
    | @tried surface result on held encoded =>
      obtain ⟨sameEncoder, sameShape⟩ := c.surfaced_processor env
      have sameShape : (c.surfaced env).processor.shape = c.processor.shape := sameShape.trans shape
      have fitsNow : (c.surfaced env).processor.EncoderFits :=
        initSurface_fits (FrameProcessor.activate_fits (taken_processor c env ▸ refresh_fits fits env) env _) env
      have plain : usesAvc444 (c.surfaced env).processor = false →
          c.damage env data = [.full (c.surfaced env).processor.shape.width (c.surfaced env).processor.shape.height] ∨
            surface ∉ ((c.surfaced env).surfaceLog (c.surfaced env).processor.shape before).fresh := by
        intro notAvc444
        rw [sameShape, ← shape]
        cases forced : c.forced env with
        | true =>
          left
          unfold damage FrameProcessor.frameDamageRegions
          rw [forced, if_pos rfl]
          rfl
        | false =>
          cases sentFirst : (c.taken env).processor.sentFirstFrame with
          | false => exact .inl (FrameProcessor.frameDamageRegions_first (taken_startsWhole starts env sentFirst) sentFirst _)
          | true =>
            right
            have transmits : c.canTransmit env = true := by
              unfold canTransmit Call.surfaced
              rw [on, held]
              rfl
            unfold updatesNewSurface at allowed
            simp only [prompt, transmits, sentFirst, forced, notAvc444, show (c.surfaced env).processor.egfxSurfaceId =
              some surface from held, Bool.not_false, Bool.true_and, Option.any_some, decide_eq_false_iff_not]
              at allowed
            rw [shape]
            exact allowed
      have sent : Painted result.1.processor (result.1.surfaceLog (c.surfaced env).processor.shape before) := by
        refine encoded.painted fitsNow held (fun enc forced unreferenced => ?_) (sameShape ▸ surfaced)
        cases enc with
        | softwareAvc444 encoder => exact .inl (.inr (by simpa [FrameEncoder.hasReference] using unreferenced))
        | vaapi => exact plain (forcedEncoder_plain forced nofun)
        | software => exact plain (forcedEncoder_plain forced nofun)
      rw [sameShape] at sent
      exact (sent.afterSend env (c.forced env) result.2).finish env data _

end Call

/-- A processor and the surfaces it was given. -/
structure SurfaceSession where
  processor : FrameProcessor
  fullFrameRequested : Bool
  log : SurfaceLog

namespace SurfaceSession

def call (s : SurfaceSession) : Call := ⟨s.processor, s.fullFrameRequested, []⟩

def next (s : SurfaceSession) : ProcessorInput → Option SurfaceSession
  | .queueDamage damage => some { s with processor := s.processor.queueDamage damage }
  | .requestFullFrame => some { s with fullFrameRequested := true }
  | .initialResize size => some { s with processor := { s.processor with pendingInitialResize := size } }
  | .process env data =>
    if s.call.usesClearcodec env = false then
      let call := (s.call.processAt env data).1
      some ⟨call.processor, call.fullFrameRequested, call.surfaceLog s.processor.shape s.log⟩
    else none

def start (processor : FrameProcessor) : SurfaceSession := ⟨processor, false, ⟨[], false⟩⟩

/-- The calls that do not send an update to a new surface. -/
def Paints (s : SurfaceSession) : ProcessorInput → Prop
  | .process env _ => (s.call.usesAvc env && s.call.updatesNewSurface env s.log) = false
  | .queueDamage _ | .requestFullFrame | .initialResize _ => True

instance (s : SurfaceSession) (input : ProcessorInput) : Decidable (s.Paints input) :=
  match input with
  | .process env _ => inferInstanceAs (Decidable ((s.call.usesAvc env && s.call.updatesNewSurface env s.log) = false))
  | .queueDamage _ | .requestFullFrame | .initialResize _ => isTrue trivial

def runs (processor : FrameProcessor) : StepSystem SurfaceSession ProcessorInput := .ofFun (start processor) next

structure Invariant (s : SurfaceSession) : Prop where
  starts : s.processor.StartsWhole
  fits : s.processor.EncoderFits
  painted : Call.Painted s.processor s.log

variable {s t : SurfaceSession}

theorem Invariant.next (inv : s.Invariant) {input : ProcessorInput} (allowed : s.Paints input)
    (step : s.next input = some t) : t.Invariant := by
  cases input with
  | queueDamage damage =>
    cases step
    exact ⟨inv.starts, inv.fits, inv.painted.kept rfl rfl⟩
  | requestFullFrame =>
    cases step
    exact ⟨inv.starts, inv.fits, inv.painted⟩
  | initialResize size =>
    cases step
    exact ⟨inv.starts, inv.fits, inv.painted.kept rfl rfl⟩
  | process env data =>
    obtain ⟨avcOnly, same⟩ := Option.ite_none_right_eq_some.mp step
    cases same
    have run := s.call.processAt_run env data
    have painted : Call.Painted s.call.processor (s.call.surfaceLog s.processor.shape s.log) := inv.painted
    refine ⟨?_, run.fits inv.fits, ?_⟩
    · generalize s.call.processAt env data = result at run
      cases run with
      | skipped => exact inv.starts
      | resized => exact inv.starts
      | clearcodec path => rw [avcOnly] at path; cases path
      | plain => exact Call.finish_startsWhole env data fun _ => inv.starts
      | avc _ run => exact run.startsWhole (c := s.call) inv.starts
    · generalize s.call.processAt env data = result at run
      cases run with
      | skipped => exact painted
      | resized => exact painted.kept rfl rfl
      | clearcodec path => rw [avcOnly] at path; cases path
      | plain => exact painted.finish env data false
      | avc path run =>
        have still : s.call.updatesNewSurface env s.log = false := by
          have allowed : (s.call.usesAvc env && s.call.updatesNewSurface env s.log) = false := allowed
          rwa [path, Bool.true_and] at allowed
        exact run.painted (c := s.call) inv.starts inv.fits still painted

/-- In a run whose calls send no update to a new surface, every surface is
first painted as a whole. -/
theorem new_surface_painted_whole {shape : FrameShape} {egfxShared : Bool} {pixelFormat : PixelFormat} {quality : Nat}
    {rateControl : H264RateControl} {h264Backend : H264BackendPolicy}
    (reach : ((runs (.new shape egfxShared pixelFormat quality rateControl h264Backend)).guarded Paints).Reach s) :
    s.log.broken = false := by
  have inv : s.Invariant := by
    refine StepSystem.Inductive.reach ⟨fun s first => ?_, fun s input t inv step => inv.next step.1 step.2⟩ reach
    cases first
    exact ⟨fun _ => rfl, nofun, ⟨rfl, nofun⟩⟩
  exact inv.painted.intact

/-- The first frame on a new surface, then an update of one of its tiles. -/
theorem new_surface_painted_whole_once : ∃ s : SurfaceSession,
    ((runs (.new .twoTiles true .bgrX32 23 .vbr .auto)).guarded Paints).Reach s ∧
    s.processor.sentFirstFrame = true ∧ s.log.broken = false := by
  have run : ((runs (.new .twoTiles true .bgrX32 23 .vbr .auto)).guarded Paints).Reach _ :=
    StepSystem.guarded_exec_reach
      [.process { Environment.avc420 with generation := 1 } (.zeros 512), .queueDamage [⟨0, 0, 1, 1⟩],
        .process { Environment.avc420 with generation := 1 } ((Bytes.zeros 512).set 0 1)] (.start rfl) rfl
  exact ⟨_, run, rfl, new_surface_painted_whole run⟩

set_option maxRecDepth 4096 in
/-- The client gets a bitmap while no surface can be made; the surface made
later is first painted in part. -/
theorem surface_after_bitmap_painted_in_part : ∃ s : SurfaceSession,
    (runs (.new .twoTiles true .bgrX32 23 .vbr .auto)).Reach s ∧ s.log.broken = true := by
  have run : (runs (.new .twoTiles true .bgrX32 23 .vbr .auto)).Reach _ :=
    StepSystem.exec_reach
      [.process { Environment.avc420 with generation := 1, surface := .failed } (.zeros 512),
        .queueDamage [⟨0, 0, 1, 1⟩],
        .process { Environment.avc420 with generation := 1 } ((Bytes.zeros 512).set 0 1)] (.start rfl) rfl
  exact ⟨_, run, rfl⟩

end SurfaceSession

end HyprRdp
