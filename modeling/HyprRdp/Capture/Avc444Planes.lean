import HyprRdp.Capture.Encoders
import HyprRdp.Capture.NoLostUpdate
import HyprRdp.Egfx.Avc444Delivery

namespace HyprRdp

/-- The client decodes a frame with the planes of the encoder that made it. -/
def Event.decode (width : Nat) (planes : Avc444Planes) (client : ClientPlanes) : Event → ClientPlanes
  | .frame wire => wire.decode width planes client
  | .requested | .resize _ _ | .surface _ _ | .bitmap => client

def Event.isFrame : Event → Bool
  | .frame _ => true
  | .requested | .resize _ _ | .surface _ _ | .bitmap => false

/-- Every check of the call finds EGFX ready with AVC444. -/
def Environment.readsAvc444 (env : Environment) : Bool :=
  env.avcForClearcodec && env.ready && env.avcEnabled && env.avc444Enabled && env.readyAtEnd && env.avcAtEnd

/-- A call that finds EGFX ready with AVC444. -/
def Environment.avc444 : Environment := { Environment.avc420 with avc444Enabled := true }

/-- The frame is accepted although the second H.264 call, that for the chroma subframe, had no payload. -/
def Environment.dropsChroma (env : Environment) : Bool :=
  match env.firstSubframe, env.secondSubframe with
  | .ok (_ + 1), .ok 0 => env.frameAccepted
  | _, _ => false

def FrameProcessor.planes (p : FrameProcessor) : Avc444Planes :=
  match p.h264Encoder with
  | some (.softwareAvc444 enc) => enc.planes
  | _ => .initial

/-- An encoder without references that was told to convert the whole frame already. -/
def FrameEncoder.isBlank : FrameEncoder → Bool
  | .vaapi | .software => false
  | .softwareAvc444 enc => enc.lumaReference.isNone && !enc.forceChromaOnNextFrame

namespace FrameProcessor

variable {p q : FrameProcessor} {client : ClientPlanes}

/-- An encoder whose references are what the client decoded; with references
it works on a surface, and the client shows the frame compared with. -/
structure ShownBy (p : FrameProcessor) (client : ClientPlanes) (enc : Avc444Encoder) : Prop where
  width : enc.width = p.shape.width
  height : enc.height = p.shape.height
  knows : enc.Knows client
  active : enc.lumaReference ≠ none → p.egfxActive = true ∧ p.egfxSurfaceId ≠ none
  current : enc.lumaReference ≠ none → ∀ reference, p.ledger.Holds reference → ∀ s : Sample,
    s.InFrame p.shape.width p.shape.height → client s = s.ofFrame reference p.shape.stride p.shape.width

structure Shows (p : FrameProcessor) (client : ClientPlanes) : Prop where
  shared : p.egfxShared = true
  encoder : ∀ enc, p.h264Encoder = some enc → ∃ inner, enc = .softwareAvc444 inner ∧ p.ShownBy client inner

theorem Shows.kept (shows : p.Shows client) (shape : q.shape = p.shape) (detector : q.damageDetector = p.damageDetector)
    (shared : q.egfxShared = p.egfxShared) (encoder : q.h264Encoder = p.h264Encoder)
    (active : p.egfxActive = true → q.egfxActive = true) (surface : p.egfxSurfaceId ≠ none → q.egfxSurfaceId ≠ none) :
    q.Shows client := by
  refine ⟨shared.trans shows.shared, fun enc held => ?_⟩
  obtain ⟨inner, rfl, shown⟩ := shows.encoder enc (encoder.symm.trans held)
  refine ⟨inner, rfl, ⟨shape ▸ shown.width, shape ▸ shown.height, shown.knows,
    fun live => (shown.active live).imp active surface, fun live reference holds => ?_⟩⟩
  unfold Ledger.Holds FrameProcessor.ledger at holds
  dsimp only at holds
  rw [shape, detector] at holds
  rw [shape]
  exact shown.current live reference holds

theorem ShownBy.same {enc after : Avc444Encoder} (shown : p.ShownBy client enc) (same : enc.SameReferences after) :
    p.ShownBy client after where
  width := same.width.trans shown.width
  height := same.height.trans shown.height
  knows := same.knows shown.knows
  active live := shown.active (by rwa [same.luma] at live)
  current live := shown.current (by rwa [same.luma] at live)

theorem Shows.without (shared : q.egfxShared = true) (encoder : q.h264Encoder = none) : q.Shows client :=
  ⟨shared, fun enc held => by rw [encoder] at held; cases held⟩

/-- A new encoder has told the client nothing. -/
theorem Shows.fresh (shared : q.egfxShared = true) {inner : Avc444Encoder}
    (made : Avc444Encoder.new q.shape.width q.shape.height = some inner)
    (encoder : q.h264Encoder = some (.softwareAvc444 inner)) : q.Shows client := by
  refine ⟨shared, fun enc held => ?_⟩
  cases encoder.symm.trans held
  unfold Avc444Encoder.new at made
  obtain ⟨_, same⟩ := Option.ite_none_right_eq_some.mp made
  cases same
  exact ⟨_, rfl, ⟨rfl, rfl, ⟨iff_of_true rfl rfl, nofun, nofun⟩, fun live => absurd rfl live, fun live => absurd rfl live⟩⟩

theorem Shows.refreshReadiness (shows : p.Shows client) : (p.refreshReadiness true).Shows client := by
  unfold FrameProcessor.refreshReadiness
  split
  · exact shows
  · rw [if_pos rfl]
    exact shows.kept rfl rfl rfl rfl id id

theorem Shows.refreshEncoder (shows : p.Shows client) {env : Environment} (enabled : env.avc444Enabled = true)
    (supports : avc444DimensionsSupported p.shape.width p.shape.height = true) :
    (p.refreshEncoder env true).Shows client := by
  have codec : p.selectedCodec env = some .avc444 := by
    unfold selectedCodec
    rw [enabled, supports]
    rfl
  unfold FrameProcessor.refreshEncoder
  dsimp only
  rw [codec]
  split
  · rw [if_pos rfl]
    split
    · rename_i enc made
      obtain ⟨_, software⟩ := Option.ite_none_left_eq_some.mp made
      obtain ⟨_, software⟩ := Option.ite_none_right_eq_some.mp software
      obtain ⟨inner, new, rfl⟩ := Option.map_eq_some_iff.mp software
      exact .fresh shows.shared new rfl
    · exact .without shows.shared rfl
  · exact shows

theorem Shows.activate (shows : p.Shows client) (env : Environment) (ready : Bool) :
    (p.activate env ready).Shows client := by
  unfold FrameProcessor.activate
  split
  · rename_i off
    refine shows.kept rfl rfl rfl rfl (fun on => ?_) id
    rw [on, Bool.not_true, Bool.and_false] at off
    cases off
  · exact shows

theorem Shows.runtimeFallback (shows : p.Shows client) (env : Environment) : p.runtimeFallback env = p := by
  unfold FrameProcessor.runtimeFallback
  refine if_neg fun vaapi => ?_
  cases held : p.h264Encoder with
  | none =>
    rw [held] at vaapi
    cases vaapi.2
  | some enc =>
    obtain ⟨inner, rfl, _⟩ := shows.encoder enc held
    rw [held] at vaapi
    cases vaapi.2

end FrameProcessor

namespace Call

variable {c d : Call} {env : Environment} {data : Bytes} {client : ClientPlanes}

/-- The samples of the client after what was delivered so far. -/
def decoded (c : Call) (client : ClientPlanes) : ClientPlanes :=
  c.deliveries.foldl (Event.decode c.processor.shape.width c.processor.planes) client

/-- What a call leaves behind: the encoder and the client are in step, and a
delivered frame is shown with all its samples. -/
structure Delivers (c : Call) (data : Bytes) (client : ClientPlanes) : Prop where
  shows : c.processor.Shows (c.decoded client)
  frame : c.deliveries.any Event.isFrame = true → ∀ s : Sample,
    s.InFrame c.processor.shape.width c.processor.shape.height →
    c.decoded client s = s.ofFrame data c.processor.shape.stride c.processor.shape.width
  still : c.deliveries.any Event.isFrame = false → c.decoded client = client

theorem decoded_frame {wire : WireFrame} (events : c.deliveries = [.frame wire]) (client : ClientPlanes) :
    c.decoded client = wire.decode c.processor.shape.width c.processor.planes client := by
  unfold decoded
  rw [events]
  rfl

theorem Delivers.nothing (shows : c.processor.Shows client) (none : c.deliveries = []) : c.Delivers data client := by
  have same : c.decoded client = client := by
    unfold decoded
    rw [none]
    rfl
  refine ⟨same.symm ▸ shows, fun any => ?_, fun _ => same⟩
  rw [none] at any
  cases any

theorem Delivers.kept (delivers : c.Delivers data client) (deliveries : d.deliveries = c.deliveries)
    (shape : d.processor.shape = c.processor.shape)
    (detector : d.processor.damageDetector = c.processor.damageDetector)
    (shared : d.processor.egfxShared = c.processor.egfxShared)
    (encoder : d.processor.h264Encoder = c.processor.h264Encoder)
    (active : d.processor.egfxActive = c.processor.egfxActive)
    (surface : d.processor.egfxSurfaceId = c.processor.egfxSurfaceId) : d.Delivers data client := by
  have same : d.decoded client = c.decoded client := by
    unfold decoded FrameProcessor.planes
    rw [deliveries, shape, encoder]
  refine ⟨?_, ?_, ?_⟩
  · rw [same]
    exact delivers.shows.kept shape detector shared encoder (fun on => active.trans on)
      (fun held none => held (surface.symm.trans none))
  · rw [deliveries, same, shape]
    exact delivers.frame
  · rw [deliveries, same]
    exact delivers.still

theorem initSurface_shows (shows : c.processor.Shows client) (env : Environment) :
    (c.initSurface env).processor.Shows client := by
  unfold initSurface
  dsimp only
  split
  · split
    · exact shows
    · exact shows.kept rfl rfl rfl rfl id (fun _ => Option.some_ne_none _)
    · exact shows.kept rfl rfl rfl rfl id (fun _ => Option.some_ne_none _)
  · exact shows

/-- The AVC444 encoder of a call, told about a full frame if one is due. -/
theorem forcedEncoder_shown {p : FrameProcessor} {force : Bool} {enc : FrameEncoder} (shows : p.Shows client)
    (held : forcedEncoder p force = some enc) :
    ∃ inner encoder, enc = .softwareAvc444 encoder ∧ p.h264Encoder = some (.softwareAvc444 inner) ∧
      encoder = (if force then inner.forceFullFrame else inner) ∧ p.ShownBy client encoder := by
  unfold forcedEncoder at held
  cases force with
  | true =>
    obtain ⟨original, isOriginal, rfl⟩ := Option.map_eq_some_iff.mp held
    obtain ⟨inner, rfl, shown⟩ := shows.encoder original isOriginal
    obtain ⟨width, height, knows, active, current⟩ := shown
    exact ⟨inner, _, rfl, isOriginal, rfl, width, height, ⟨knows.together, knows.luma, knows.chroma⟩, active, current⟩
  | false =>
    obtain ⟨inner, rfl, shown⟩ := shows.encoder enc held
    exact ⟨inner, inner, rfl, held, rfl, shown⟩

theorem supported_of_shape {p : FrameProcessor} {enc : Avc444Encoder} (width : enc.width = p.shape.width)
    (height : enc.height = p.shape.height)
    (supports : avc444DimensionsSupported p.shape.width p.shape.height = true) : enc.Supported := by
  unfold avc444DimensionsSupported at supports
  obtain ⟨_, _, fours, even⟩ := of_decide_eq_true supports
  have columns := p.ledger.columns_small
  have rows := p.ledger.rows_small
  exact ⟨width ▸ p.shape.width_pos, height ▸ p.shape.height_pos, width ▸ columns, height ▸ rows, width ▸ fours,
    height ▸ even⟩

theorem sent_accepted {surface width height quality : Nat} {frame : EncodedEgfxFrame} {regions : List Region}
    {accepted : Bool} {wire : WireFrame}
    (left : sendTrackedEncodedEgfxFrame surface frame regions width height quality accepted = some wire) :
    accepted = true := by
  by_contra refused
  rw [Bool.not_eq_true] at refused
  subst refused
  unfold sendTrackedEncodedEgfxFrame at left
  split at left
  · cases left
  · split at left
    · cases left
    · dsimp only at left
      split at left <;> cases left

theorem encodeEgfxFrame_same {enc : Avc444Encoder} {inner : FrameEncoder} {codec : EgfxFrameCodec} {bgra : Bytes}
    {stride : Nat} {regions : List Region} {debugFullFrame : Bool} {first second : Except String Nat}
    {result : Except String EncodedEgfxFrame}
    (run : (FrameEncoder.softwareAvc444 enc).encodeEgfxFrame codec bgra stride regions debugFullFrame first second =
      (inner, result)) : ∃ after, inner = .softwareAvc444 after ∧ enc.SameReferences after := by
  cases codec with
  | avc420 =>
    cases run
    exact ⟨enc, rfl, rfl, rfl, rfl, rfl⟩
  | avc444 =>
    unfold FrameEncoder.encodeEgfxFrame at run
    dsimp only at run
    rcases encoded : enc.encode bgra stride regions debugFullFrame first second with ⟨after, outcome⟩
    rw [encoded] at run
    cases run
    exact ⟨after, rfl, Avc444Encoder.encode_same encoded⟩

/-- A frame that leaves shows the client all of the data. -/
theorem Encoded.delivers {surface : Nat} {force : Bool} {regions : List Region} {result : Call × Bool}
    (supports : avc444DimensionsSupported c.processor.shape.width c.processor.shape.height = true)
    (shows : c.processor.Shows client) (first : c.deliveries = []) (active : c.processor.egfxActive = true)
    (held : c.processor.egfxSurfaceId = some surface) (kept : env.dropsChroma = false)
    (sound : c.processor.ledger.Sound) (tracks : c.processor.ledger.Tracks data)
    (long : c.processor.shape.stride * c.processor.shape.height ≤ data.len) (due : c.processor.ledger.Due data regions)
    (start : ∀ encoder, forcedEncoder c.processor force = some (.softwareAvc444 encoder) → encoder.lumaReference = none →
      encoder.forcing env.debugFullFrame = true ∨ c.processor.damageDetector.referenceFrame = none)
    (run : c.Encoded env data surface force regions result) : result.1.Delivers data client := by
  have quiet := c.hear_quiet env.requestBeforeSend
  cases run with
  | idle =>
    refine .nothing ?_ (quiet.deliveries.trans first)
    dsimp only
    rw [hear_processor]
    exact shows
  | @unsent enc inner outcome idr failures before encoded =>
    obtain ⟨_, encoder, rfl, _, _, shown⟩ := forcedEncoder_shown shows before
    obtain ⟨after, rfl, same⟩ := encodeEgfxFrame_same encoded
    refine .nothing ⟨shows.shared, fun other isOther => ?_⟩ (quiet.deliveries.trans first)
    cases isOther
    cases idr with
    | false =>
      obtain ⟨width, height, knows, live, current⟩ := shown.same same
      exact ⟨after, rfl, width, height, knows, live, current⟩
    | true =>
      have idr : encoder.SameReferences after.forceIdr := same.trans ⟨rfl, rfl, rfl, rfl⟩
      obtain ⟨width, height, knows, live, current⟩ := shown.same idr
      exact ⟨after.forceIdr, rfl, width, height, knows, live, current⟩
  | @sent enc inner frame wire before encoded left =>
    obtain ⟨_, encoder, rfl, _, _, shown⟩ := forcedEncoder_shown shows before
    rcases encodeEgfxFrame_ok encoded with ⟨_, plain, _⟩ | ⟨_, encoder', after, encodedFrame, isEnc, rfl, rfl, encode⟩
    · rcases plain with plain | plain <;> cases plain
    cases isEnc
    have sendable := sent_sendable left
    have same := Avc444Encoder.encode_same encode
    have supported := supported_of_shape shown.width shown.height supports
    have chroma : env.secondSubframe ≠ .ok 0 := by
      intro empty
      obtain ⟨length, filled, payload⟩ := Avc444Encoder.encode_first encode sendable
      obtain ⟨length, rfl⟩ := Nat.exists_eq_succ_of_ne_zero filled
      unfold Environment.dropsChroma at kept
      rw [payload, empty, sent_accepted left] at kept
      cases kept
    have visible : ∀ {s : Sample}, s.InFrame encoder.width encoder.height → ∀ px py,
        px / 2 = (s.block encoder.width).1 → py / 2 = (s.block encoder.width).2 →
        c.processor.ledger.Visible px py := by
      intro s inFrame px py column row
      have inside := supported.block_inFrame inFrame column row
      rw [shown.width, shown.height] at inside
      exact inside
    -- What the regions do not touch is what the client was shown before.
    have settled : ∀ s : Sample, s.InFrame encoder.width encoder.height →
        ¬ Avc444Encoder.Touches regions encoder.width s → encoder.lumaReference ≠ none →
        client s = s.ofFrame data c.processor.shape.stride encoder.width := by
      intro s inFrame untouched live
      have outside : ∀ px py, px / 2 = (s.block encoder.width).1 → py / 2 = (s.block encoder.width).2 →
          ¬ Covered regions px py := fun px py column row covered => untouched ⟨px, py, column, row, covered⟩
      cases reference : c.processor.damageDetector.referenceFrame with
      | none =>
        have origin := visible inFrame _ _ rfl rfl
        exact absurd (due.whole reference _ _ origin) (outside _ _ rfl rfl)
      | some old =>
        have usable := sound.usable old reference
        have shownOld := shown.current live old usable s (by rw [← shown.width, ← shown.height]; exact inFrame)
        rw [shownOld, ← shown.width]
        refine Sample.ofFrame_congr fun px py column row => ?_
        by_contra differs
        have here := visible inFrame px py column row
        have differs : ¬ data.SamePixel old c.processor.shape.stride px py := fun same => differs same.symm
        have pending := tracks old usable px py here differs
        exact outside px py column row (due.changed old usable px py here pending differs)
    have begins : encoder.lumaReference = none → encoder.forcing env.debugFullFrame = true ∨
        ∀ px py, px < encoder.width → py < encoder.height → Covered regions px py := by
      intro blank
      refine (start encoder before blank).imp_right fun absent px py column row => ?_
      rw [shown.width] at column
      rw [shown.height] at row
      exact due.whole absent px py ⟨column, row⟩
    have delivered := Avc444Encoder.encode_delivers surface c.processor.metadataQp supported shown.knows encode sendable
      chroma begins settled
    rw [shown.width, shown.height, ← sent_avc444 left] at delivered
    obtain ⟨knows, value⟩ := delivered
    have events : ∀ p, (((c.hear env.requestBeforeSend).emit (.frame wire)).update p).deliveries = [.frame wire] := by
      intro p
      refine Eq.trans (deliveries_emit (c.hear env.requestBeforeSend) (.frame wire)) ?_
      rw [quiet.deliveries, first]
      rfl
    refine ⟨⟨shows.shared, fun other isOther => ?_⟩, fun _ s inFrame => ?_, fun none => ?_⟩
    · cases isOther
      rw [decoded_frame (events _)]
      refine ⟨after.commitReference, rfl, same.width.trans shown.width, same.height.trans shown.height, knows,
        fun _ => ⟨active, fun none => ?_⟩, fun _ reference holds s inFrame => ?_⟩
      · cases held.symm.trans none
      · refine (value s inFrame).trans (Sample.ofFrame_congr fun px py column row => ?_)
        have here := visible (by rw [shown.width, shown.height]; exact inFrame) px py (by rw [shown.width]; exact column)
          (by rw [shown.width]; exact row)
        by_contra differs
        exact Covered.nil px py (due.delivered long sound tracks reference holds px py here differs)
    · rw [decoded_frame (events _)]
      exact value s inFrame
    · rw [events] at none
      cases none

theorem afterSend_delivers (delivers : c.Delivers data client) (env : Environment) (force sent : Bool) :
    (c.afterSend env force sent).Delivers data client := by
  have same : (c.afterSend env force sent).processor = c.processor :=
    (c.afterSend_processor env force sent).trans (delivers.shows.runtimeFallback env)
  refine delivers.kept (afterSend_quiet c env force sent).deliveries ?_ ?_ ?_ ?_ ?_ ?_ <;> rw [same]

/-- At the end of a call a bitmap goes only to a client that was shown no samples. -/
theorem finish_delivers (delivers : c.Delivers data client) (reads : env.readsAvc444 = true) {sent : Bool}
    (unsent : sent = false → c.deliveries = []) : (c.finish env data sent).1.Delivers data client := by
  cases sent with
  | true =>
    rw [finish_sent]
    exact delivers.kept rfl rfl rfl rfl rfl rfl rfl
  | false =>
    have nothing := unsent rfl
    have shows : c.processor.Shows client := by
      have same := delivers.still (by rw [nothing]; rfl)
      exact same ▸ delivers.shows
    unfold finish
    simp only [Bool.not_false, Bool.true_and, Bool.false_eq_true, if_false]
    split
    · rename_i bitmap
      split
      · exact delivers.kept rfl rfl rfl rfl rfl rfl rfl
      · have unreferenced : ∀ inner, c.processor.h264Encoder = some (.softwareAvc444 inner) →
            c.processor.ShownBy client inner → inner.lumaReference = none := by
          intro inner held shown
          by_contra live
          obtain ⟨on, surface⟩ := shown.active live
          simp only [Environment.readsAvc444, Bool.and_eq_true] at reads
          have available : c.processor.egfxRuntimeAvailable = true := by
            unfold FrameProcessor.egfxRuntimeAvailable
            rw [on, held, Option.isSome_iff_ne_none.mpr surface]
            rfl
          unfold FrameProcessor.shouldSendBitmap at bitmap
          rw [shows.shared, reads.1.2, reads.2, available] at bitmap
          cases bitmap
        have events : ∀ p, ((c.emit .bitmap).update p).deliveries = [.bitmap] := by
          intro p
          refine Eq.trans (deliveries_emit c .bitmap) ?_
          rw [nothing]
          rfl
        have same : ∀ p, ((c.emit .bitmap).update p).decoded client = client := by
          intro p
          unfold decoded
          rw [events]
          rfl
        refine ⟨?_, fun any => ?_, fun _ => same _⟩
        · rw [same]
          refine ⟨shows.shared, fun enc held => ?_⟩
          obtain ⟨inner, rfl, shown⟩ := shows.encoder enc held
          have blank := unreferenced inner held shown
          exact ⟨inner, rfl, shown.width, shown.height, shown.knows, shown.active, fun live => absurd blank live⟩
        · rw [events] at any
          cases any
    · exact delivers

/-- The call works on an update although its encoder converted the whole frame
before, without a delivery. -/
def updatesBlankEncoder (c : Call) (env : Environment) : Bool :=
  !c.postponed env && c.canTransmit env && !c.forced env && !env.debugFullFrame &&
    (c.taken env).processor.damageDetector.referenceFrame.isSome &&
    (c.taken env).processor.h264Encoder.any FrameEncoder.isBlank

theorem refresh_shows (shows : c.processor.Shows client) (reads : env.readsAvc444 = true)
    (supports : avc444DimensionsSupported c.processor.shape.width c.processor.shape.height = true) :
    (c.refresh env).processor.Shows client := by
  simp only [Environment.readsAvc444, Bool.and_eq_true] at reads
  obtain ⟨⟨⟨⟨⟨_, ready⟩, avc⟩, avc444⟩, _⟩, _⟩ := reads
  have on : readyForAvc env = true := by
    unfold readyForAvc
    rw [ready, avc]
    rfl
  rw [refresh_processor, on]
  refine shows.refreshReadiness.refreshEncoder avc444 ?_
  have shape : (c.processor.refreshReadiness true).shape = c.processor.shape :=
    (c.processor.refreshReadiness_refreshed env true).shape
  rw [shape]
  exact supports

theorem Quiet.nothing (quiet : c.Quiet d) (first : c.deliveries = []) (shows : d.processor.Shows client) :
    d.Delivers data client := .nothing shows (quiet.deliveries.trans first)

theorem AvcRun.delivers {outcome : AvcOutcome} (reads : env.readsAvc444 = true)
    (supports : avc444DimensionsSupported c.processor.shape.width c.processor.shape.height = true)
    (shows : c.processor.Shows client) (first : c.deliveries = []) (kept : env.dropsChroma = false)
    (updates : c.updatesBlankEncoder env = false) (sound : c.processor.ledger.Sound)
    (tracks : c.processor.ledger.Tracks data)
    (long : c.processor.shape.stride * c.processor.shape.height ≤ data.len) (run : c.AvcRun env data outcome) :
    (outcome.finished env data).1.Delivers data client := by
  have refreshed := c.refresh_refreshed env
  have showsRefresh := refresh_shows shows reads supports
  have quiet := c.taken_quiet env
  have showsTaken : (c.taken env).processor.Shows client := by
    rw [taken_processor]
    exact showsRefresh
  have firstTaken : (c.taken env).deliveries = [] := quiet.deliveries.trans first
  have same : (c.taken env).processor.ledger = (c.refresh env).processor.ledger := quiet.ledger
  have shape : (c.taken env).processor.shape = c.processor.shape := quiet.shape.trans refreshed.shape
  cases run with
  | postponed => exact (c.refresh_quiet env).nothing first showsRefresh
  | unchanged =>
    exact (Delivers.nothing showsTaken firstTaken).kept rfl rfl rfl rfl rfl rfl rfl
  | transmitted prompt changed run =>
    have active := showsTaken.activate env (readyForAvc env)
    have surfaced := (c.taken env).activated_quiet env (readyForAvc env) |>.trans (initSurface_quiet _ env)
    have showsSurfaced : (c.surfaced env).processor.Shows client := initSurface_shows active env
    have firstSurfaced : (c.surfaced env).deliveries = [] := surfaced.deliveries.trans firstTaken
    cases run with
    | inactive =>
      exact finish_delivers (.nothing active ((activated_quiet _ _ _).deliveries.trans firstTaken)) reads
        fun _ => (activated_quiet _ _ _).deliveries.trans firstTaken
    | surfaceless => exact finish_delivers (.nothing showsSurfaced firstSurfaced) reads fun _ => firstSurfaced
    | waiting => exact .nothing showsSurfaced firstSurfaced
    | @tried surface result on held encoded =>
      obtain ⟨sameEncoder, sameShape⟩ := c.surfaced_processor env
      have ledger : (c.surfaced env).processor.ledger = (c.refresh env).processor.ledger := surfaced.ledger.trans same
      have shapeNow : (c.surfaced env).processor.shape = c.processor.shape := sameShape.trans shape
      have longNow : (c.taken env).processor.shape.stride * (c.taken env).processor.shape.height ≤ data.len := by
        rw [shape]
        exact long
      have due := FrameProcessor.frameDamageRegions_due (same ▸ refreshed.sound sound) longNow (c.forced env)
      have start : ∀ encoder, forcedEncoder (c.surfaced env).processor (c.forced env) = some (.softwareAvc444 encoder) →
          encoder.lumaReference = none → encoder.forcing env.debugFullFrame = true ∨
            (c.surfaced env).processor.damageDetector.referenceFrame = none := by
        intro encoder isEncoder blank
        obtain ⟨inner, _, isEnc, original, isForced, _⟩ := forcedEncoder_shown showsSurfaced isEncoder
        cases isEnc
        have before : (c.taken env).processor.h264Encoder = some (.softwareAvc444 inner) := sameEncoder.symm.trans original
        cases forced : c.forced env with
        | true =>
          rw [forced, if_pos rfl] at isForced
          rw [isForced]
          exact .inl (Bool.or_true _)
        | false =>
          rw [forced, if_neg Bool.false_ne_true] at isForced
          subst isForced
          by_contra both
          obtain ⟨unforced, referenced⟩ := not_or.mp both
          have transmits : c.canTransmit env = true := by
            unfold canTransmit Call.surfaced
            rw [on, held]
            rfl
          have detector : (c.taken env).processor.damageDetector.referenceFrame.isSome = true := by
            rw [show (c.taken env).processor.damageDetector = (c.surfaced env).processor.damageDetector from
              congrArg Ledger.damageDetector surfaced.ledger.symm]
            exact Option.isSome_iff_ne_none.mpr referenced
          unfold Avc444Encoder.forcing at unforced
          simp only [Bool.or_eq_true, not_or, Bool.not_eq_true] at unforced
          unfold updatesBlankEncoder at updates
          rw [prompt, transmits, forced, detector, before, unforced.1] at updates
          simp only [Bool.not_false, Bool.true_and, Option.any_some, FrameEncoder.isBlank, blank, Option.isNone_none,
            unforced.2] at updates
          cases updates
      have tracksNow : (c.surfaced env).processor.ledger.Tracks data := ledger ▸ refreshed.tracks tracks
      have sent := encoded.delivers (by rw [shapeNow]; exact supports) showsSurfaced firstSurfaced
        ((initSurface_active _ env).trans on) held kept (ledger ▸ refreshed.sound sound) tracksNow
        (by rw [shapeNow]; exact long) (surfaced.ledger ▸ due) start
      refine finish_delivers (afterSend_delivers sent env (c.forced env) result.2) reads fun unsent => ?_
      rw [(afterSend_quiet result.1 env (c.forced env) result.2).deliveries, (encoded.quiet unsent).deliveries]
      exact firstSurfaced

end Call

/-- A processor on the AVC444 path with the samples its client decoded and the
frame of the last call that cleared the pending damage after a send. -/
structure Avc444Session where
  processor : FrameProcessor
  fullFrameRequested : Bool
  captured : Option Bytes
  client : ClientPlanes
  accepted : Option Bytes

namespace Avc444Session

variable {s t : Avc444Session} {shape : FrameShape} {frame data : Bytes} {client : ClientPlanes}

def call (s : Avc444Session) : Call := ⟨s.processor, s.fullFrameRequested, []⟩

def next (s : Avc444Session) : Session.Input → Option Avc444Session
  | .capture frame damage =>
    if s.processor.shape.stride * s.processor.shape.height ≤ frame.len ∧
        DamageCovers s.processor.shape damage frame s.captured then
      some { s with processor := s.processor.queueDamage damage, captured := some frame }
    else none
  | .requestFullFrame => some { s with fullFrameRequested := true }
  | .initialResize size => some { s with processor := { s.processor with pendingInitialResize := size } }
  | .process env =>
    match s.captured with
    | none => none
    | some data =>
      if env.readsAvc444 then
        let call := (s.call.processAt env data).1
        some
          { processor := call.processor
            fullFrameRequested := call.fullFrameRequested
            captured := s.captured
            client := call.decoded s.client
            accepted := if call.deliveries.any Event.isFrame then some data else s.accepted }
      else none

def start (processor : FrameProcessor) (client : ClientPlanes) : Avc444Session := ⟨processor, false, none, client, none⟩

def runs (processor : FrameProcessor) (client : ClientPlanes) : StepSystem Avc444Session Session.Input :=
  .ofFun (start processor client) next

/-- The calls whose accepted frame has its chroma payload, and that convert the
whole frame for an encoder without references. -/
def Keeps (s : Avc444Session) : Session.Input → Prop
  | .process env => env.dropsChroma = false ∧ (s.call.usesAvc env && s.call.updatesBlankEncoder env) = false
  | .capture _ _ | .requestFullFrame | .initialResize _ => True

instance (s : Avc444Session) (input : Session.Input) : Decidable (s.Keeps input) :=
  match input with
  | .process env => inferInstanceAs (Decidable
      (env.dropsChroma = false ∧ (s.call.usesAvc env && s.call.updatesBlankEncoder env) = false))
  | .capture _ _ | .requestFullFrame | .initialResize _ => isTrue trivial

structure Invariant (shape : FrameShape) (s : Avc444Session) : Prop where
  sized : s.processor.shape = shape
  sound : s.processor.ledger.Sound
  tracks : ∀ frame, s.captured = some frame →
    s.processor.shape.stride * s.processor.shape.height ≤ frame.len ∧ s.processor.ledger.Tracks frame
  unread : s.captured = none → s.processor.damageDetector.referenceFrame = none
  shows : s.processor.Shows s.client
  current : ∀ data, s.accepted = some data → ∀ sample : Sample, sample.InFrame shape.width shape.height →
    s.client sample = sample.ofFrame data shape.stride shape.width

theorem Invariant.process (inv : s.Invariant shape) (supports : avc444DimensionsSupported shape.width shape.height = true)
    (captured : s.captured = some data) {env : Environment} (reads : env.readsAvc444 = true)
    (keeps : s.Keeps (.process env)) :
    (Avc444Session.mk (s.call.processAt env data).1.processor (s.call.processAt env data).1.fullFrameRequested (some data)
      ((s.call.processAt env data).1.decoded s.client)
      (if (s.call.processAt env data).1.deliveries.any Event.isFrame then some data else s.accepted)).Invariant shape := by
  obtain ⟨long, tracks⟩ := inv.tracks data captured
  have settles := Call.processAt_settles (c := s.call) env inv.sound long
  have supports : avc444DimensionsSupported s.call.processor.shape.width s.call.processor.shape.height = true := by
    rw [show s.call.processor.shape = shape from inv.sized]
    exact supports
  have delivers : (s.call.processAt env data).1.Delivers data s.client := by
    have run := s.call.processAt_run env data
    generalize s.call.processAt env data = result at run
    have noAvcOff : s.call.clearcodecBranch env = false := by
      simp only [Environment.readsAvc444, Bool.and_eq_true] at reads
      unfold Call.clearcodecBranch
      rw [reads.1.1.1.1.1]
      exact Bool.and_false _
    cases run with
    | skipped => exact .nothing inv.shows rfl
    | resized => exact .nothing (inv.shows.kept rfl rfl rfl rfl id id) rfl
    | clearcodec path =>
      unfold Call.usesClearcodec at path
      rw [noAvcOff, Bool.and_false] at path
      cases path
    | plain unshared => exact absurd (inv.shows.shared.symm.trans unshared) Bool.true_eq_false.mp
    | avc path run =>
      have updates := keeps.2
      rw [path, Bool.true_and] at updates
      exact run.delivers reads supports inv.shows rfl keeps.1 updates inv.sound tracks long
  have sound := settles.sound inv.sound long
  obtain ⟨p, refreshed, _, deliveries, settled, _⟩ := settles.run
  have kept : (s.call.processAt env data).1.processor.shape = s.processor.shape := settled.shape.trans refreshed.shape
  have same : (s.call.processAt env data).1.processor.shape = shape := kept.trans inv.sized
  generalize (s.call.processAt env data).1 = call at *
  refine ⟨same, sound, fun frame isFrame => ?_, fun none => ?_, delivers.shows, fun frame isFrame sample inFrame => ?_⟩
  · cases isFrame
    refine ⟨by rw [show call.processor.shape = s.processor.shape from kept]; exact long, ?_⟩
    exact settled.tracks (by rw [refreshed.shape]; exact long) (refreshed.sound inv.sound) (refreshed.tracks tracks)
  · cases none
  · cases any : call.deliveries.any Event.isFrame with
    | true =>
      simp only [any, if_true] at isFrame
      cases isFrame
      have shown := delivers.frame any
      rw [same] at shown
      exact shown sample inFrame
    | false =>
      simp only [any, Bool.false_eq_true, if_false] at isFrame
      dsimp only
      rw [delivers.still any]
      exact inv.current frame isFrame sample inFrame

theorem Invariant.next (inv : s.Invariant shape) (supports : avc444DimensionsSupported shape.width shape.height = true)
    {input : Session.Input} (keeps : s.Keeps input) (step : s.next input = some t) : t.Invariant shape := by
  cases input with
  | capture frame damage =>
    obtain ⟨⟨long, announced⟩, same⟩ := Option.ite_none_right_eq_some.mp step
    cases same
    obtain ⟨within, tracks⟩ := FrameProcessor.queueDamage_tracks inv.sound (fun old before => (inv.tracks old before).2)
      inv.unread announced
    refine ⟨inv.sized, ⟨inv.sound.fresh, inv.sound.usable, within⟩, ?_, nofun,
      inv.shows.kept rfl rfl rfl rfl id id, inv.current⟩
    intro frame isFrame
    cases isFrame
    exact ⟨long, tracks⟩
  | requestFullFrame =>
    cases step
    exact ⟨inv.sized, inv.sound, inv.tracks, inv.unread, inv.shows, inv.current⟩
  | initialResize size =>
    cases step
    exact ⟨inv.sized, inv.sound, inv.tracks, inv.unread, inv.shows.kept rfl rfl rfl rfl id id, inv.current⟩
  | process env =>
    unfold Avc444Session.next at step
    dsimp only at step
    cases captured : s.captured with
    | none =>
      rw [captured] at step
      cases step
    | some data =>
      rw [captured] at step
      obtain ⟨reads, same⟩ := Option.ite_none_right_eq_some.mp step
      cases same
      exact inv.process supports captured reads keeps

/-- In a run that drops no chroma and starts each encoder on a whole frame, the
client shows all the samples of every frame that was marked as delivered. -/
theorem accepted_frame_shown {pixelFormat : PixelFormat} {quality : Nat} {rateControl : H264RateControl}
    {h264Backend : H264BackendPolicy} {sample : Sample}
    (supports : avc444DimensionsSupported shape.width shape.height = true)
    (reach : ((runs (.new shape true pixelFormat quality rateControl h264Backend) client).guarded Keeps).Reach s)
    (accepted : s.accepted = some data) (inFrame : sample.InFrame shape.width shape.height) :
    s.client sample = sample.ofFrame data shape.stride shape.width := by
  have inv : s.Invariant shape := by
    refine StepSystem.Inductive.reach ⟨fun s first => ?_, fun s input t inv step => inv.next supports step.1 step.2⟩ reach
    cases first
    exact ⟨rfl, ⟨fun _ => rfl, nofun, nofun⟩, nofun, fun _ => rfl, ⟨rfl, nofun⟩, nofun⟩
  exact inv.current data accepted sample inFrame

/-- The smallest frame of the AVC444v2 layout. -/
def fourByTwo : FrameShape := ⟨4, 2, 16, by decide, by decide, by decide, by decide, by decide⟩

def blueFrame : Bytes := ⟨32, fun i => if i % 4 = 0 then 255 else 0⟩

/-- A black frame, then a blue one; both are delivered with their chroma subframe. -/
theorem accepted_frame_shown_whole : ∃ s : Avc444Session,
    ((runs (.new fourByTwo true .bgrX32 23 .vbr .auto) fun _ => 0).guarded Keeps).Reach s ∧
    s.client ⟨.chroma, .y, 0, 0⟩ = Sample.ofFrame blueFrame 16 4 ⟨.chroma, .y, 0, 0⟩ := by
  have run : ((runs (.new fourByTwo true .bgrX32 23 .vbr .auto) fun _ => 0).guarded Keeps).Reach _ :=
    StepSystem.guarded_exec_reach
      [.capture (.zeros 32) [⟨0, 0, 4, 2⟩], .process { Environment.avc444 with generation := 1 },
        .capture blueFrame [⟨0, 0, 4, 2⟩], .process { Environment.avc444 with generation := 1 }] (.start rfl) rfl
  exact ⟨_, run, accepted_frame_shown rfl run rfl ⟨by decide, by decide⟩⟩

/-- The chroma subframe of the blue frame comes out empty: the frame is sent
as luma alone, its damage is cleared, and the client keeps the black chroma. -/
theorem empty_chroma_subframe_is_dropped : ∃ s : Avc444Session,
    (runs (.new fourByTwo true .bgrX32 23 .vbr .auto) fun _ => 0).Reach s ∧ s.accepted = some blueFrame ∧
    s.processor.pendingDamageRegions = [] ∧
    s.client ⟨.chroma, .y, 0, 0⟩ ≠ Sample.ofFrame blueFrame 16 4 ⟨.chroma, .y, 0, 0⟩ := by
  have run : (runs (.new fourByTwo true .bgrX32 23 .vbr .auto) fun _ => 0).Reach _ :=
    StepSystem.exec_reach
      [.capture (.zeros 32) [⟨0, 0, 4, 2⟩], .process { Environment.avc444 with generation := 1 },
        .capture blueFrame [⟨0, 0, 4, 2⟩],
        .process { Environment.avc444 with generation := 1, secondSubframe := .ok 0 }] (.start rfl) rfl
  exact ⟨_, run, rfl, rfl, by decide⟩

end Avc444Session

end HyprRdp
