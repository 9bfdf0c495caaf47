import HyprRdp.Capture.ShmLoop

namespace HyprRdp

theorem OutputLayoutSnapshot.applyPrepared_changed {old : OutputLayoutSnapshot} {geometry : PresentationGeometry}
    (changed : old.presentationGeometry ≠ geometry) (few : old.geometryGeneration + 1 < 2 ^ 32) :
    (applyPrepared (some old) geometry).geometryGeneration = old.geometryGeneration + 1 := by
  unfold applyPrepared
  dsimp only
  rw [if_neg changed]
  omega

theorem OutputLayoutSnapshot.applyPrepared_same (old : OutputLayoutSnapshot) :
    applyPrepared (some old) old.presentationGeometry = old := by
  unfold applyPrepared
  dsimp only
  rw [if_pos rfl]

namespace ShmLoop

variable {P Env : Type} {M : Processing P Env} {protocol : CaptureProtocol} {buffers : CaptureBuffers}
  {snapshot : OutputLayoutSnapshot} {s t : ShmLoop P} {frame : LoopFrame}

/-- The frame is the picture of its capture under the geometry of the processor. -/
structure Pictured (s : ShmLoop P) (buffers : CaptureBuffers) (frame : LoopFrame) : Prop where
  geometry : frame.geometry = s.geometry
  long : frame.capture.data.len = buffers.stride * buffers.source.height
  picture : ∃ damage snapshot, OutputLayoutSnapshot.geometryFor snapshot buffers.source = frame.geometry ∧
    frame.prepared = prepared frame.capture.data buffers.source buffers.stride buffers.pixelFormat damage snapshot
  borrowed : ∀ idx, frame.borrowed = some idx → frame.geometry.isIdentity = true

/-- As long as no generation was given twice: the processor was made for the
geometry of the last prepared frame, which is the shared one if its generation is. -/
structure Geared (M : Processing P Env) (buffers : CaptureBuffers) (s : ShmLoop P) : Prop where
  published : ∃ snapshot, s.shared = some snapshot ∧ snapshot.geometryGeneration = s.changes
  older : s.processorGeneration ≤ s.changes
  current : s.processorGeneration = s.changes → ∀ snapshot, s.shared = some snapshot →
    snapshot.geometryFor buffers.source = s.geometry
  shape : M.shape s.proc = s.geometry.shape buffers.stride
  mapped : ∀ g ∈ s.mapped, g = s.geometry
  long : ∀ idx, (s.mappings idx).len = buffers.stride * buffers.source.height
  captures : ∀ capture ∈ s.captures, capture.data.len = buffers.stride * buffers.source.height
  taken : ∀ capture, s.taken = some capture → capture.data.len = buffers.stride * buffers.source.height
  deferred : ∀ frame, s.deferred = some frame → s.Pictured buffers frame
  calling : ∀ frame fresh, s.phase = .processing frame fresh → s.Pictured buffers frame

/-- A step that neither publishes a layout nor prepares a frame. -/
structure SameGear (M : Processing P Env) (s t : ShmLoop P) : Prop where
  shared : t.shared = s.shared
  changes : t.changes = s.changes
  processorGeneration : t.processorGeneration = s.processorGeneration
  geometry : t.geometry = s.geometry
  mapped : t.mapped = s.mapped
  shape : M.shape t.proc = M.shape s.proc
  long : ∀ idx, (t.mappings idx).len = (s.mappings idx).len
  captures : ∀ capture ∈ t.captures, capture ∈ s.captures ∨ ∃ idx, capture.data = s.mappings idx
  taken : ∀ capture, t.taken = some capture → s.taken = some capture ∨ capture ∈ s.captures

theorem SameGear.pictured (same : SameGear M s t) (pictured : s.Pictured buffers frame) : t.Pictured buffers frame :=
  ⟨pictured.geometry.trans same.geometry.symm, pictured.long, pictured.picture, pictured.borrowed⟩

theorem Geared.carry (inv : s.Geared M buffers) (same : SameGear M s t)
    (deferred : ∀ frame, t.deferred = some frame → s.Pictured buffers frame)
    (calling : ∀ frame fresh, t.phase = .processing frame fresh → s.Pictured buffers frame) : t.Geared M buffers where
  published := by
    rw [same.shared, same.changes]
    exact inv.published
  older := by
    rw [same.processorGeneration, same.changes]
    exact inv.older
  current newest snapshot isShared := by
    rw [same.processorGeneration, same.changes] at newest
    rw [same.geometry]
    exact inv.current newest snapshot (same.shared ▸ isShared)
  shape := by
    rw [same.shape, same.geometry]
    exact inv.shape
  mapped := by
    rw [same.mapped, same.geometry]
    exact inv.mapped
  long idx := (same.long idx).trans (inv.long idx)
  captures capture member := by
    rcases same.captures capture member with old | ⟨idx, new⟩
    · exact inv.captures capture old
    · rw [new]
      exact inv.long idx
  taken capture isTaken := by
    rcases same.taken capture isTaken with old | new
    · exact inv.taken capture old
    · exact inv.captures capture new
  deferred frame isDeferred := same.pictured (deferred frame isDeferred)
  calling frame fresh isPhase := same.pictured (calling frame fresh isPhase)

/-- A step that changes nothing but the phase, the requests and the like. -/
theorem SameGear.of_eq (shared : t.shared = s.shared) (changes : t.changes = s.changes)
    (processorGeneration : t.processorGeneration = s.processorGeneration) (geometry : t.geometry = s.geometry)
    (mapped : t.mapped = s.mapped) (shape : M.shape t.proc = M.shape s.proc) (mappings : t.mappings = s.mappings)
    (captures : t.captures = s.captures) (taken : t.taken = s.taken) : SameGear M s t where
  shared := shared
  changes := changes
  processorGeneration := processorGeneration
  geometry := geometry
  mapped := mapped
  shape := shape
  long idx := by rw [mappings]
  captures _ member := .inl (captures ▸ member)
  taken _ isTaken := .inl (taken ▸ isTaken)

theorem SameGear.refl (s : ShmLoop P) : SameGear M s s := .of_eq rfl rfl rfl rfl rfl rfl rfl rfl rfl

theorem Geared.publish (inv : s.Geared M buffers) (geometry : PresentationGeometry)
    (step : s.next M protocol buffers (.publish geometry : Action Env) = some t) (few : t.changes < 2 ^ 32) :
    t.Geared M buffers := by
  obtain ⟨old, isShared, counted⟩ := inv.published
  have pictured : ∀ {frame}, s.Pictured buffers frame → t.Pictured buffers frame := by
    cases step
    exact fun pictured => ⟨pictured.geometry, pictured.long, pictured.picture, pictured.borrowed⟩
  have older := inv.older
  by_cases same : old.presentationGeometry = geometry
  · subst same
    dsimp only [ShmLoop.next] at step
    simp only [isShared, OutputLayoutSnapshot.applyPrepared_same, Option.any_some, ne_eq, not_true_eq_false,
      decide_false, Bool.false_eq_true, if_false] at step
    cases step
    refine ⟨⟨old, rfl, counted⟩, older, fun newest snapshot shared => ?_, inv.shape, inv.mapped, inv.long, inv.captures,
      inv.taken, fun frame isDeferred => pictured (inv.deferred frame isDeferred),
      fun frame fresh isPhase => pictured (inv.calling frame fresh isPhase)⟩
    cases shared
    exact inv.current newest old isShared
  · dsimp only [ShmLoop.next] at step
    simp only [isShared, Option.any_some, ne_eq, same, not_false_eq_true, decide_true, if_true] at step
    cases step
    dsimp only at few
    have generation := OutputLayoutSnapshot.applyPrepared_changed same (by omega)
    refine ⟨⟨_, rfl, by rw [generation, counted]⟩, Nat.le_succ_of_le older, fun newest => ?_, inv.shape, inv.mapped,
      inv.long, inv.captures, inv.taken, fun frame isDeferred => pictured (inv.deferred frame isDeferred),
      fun frame fresh isPhase => pictured (inv.calling frame fresh isPhase)⟩
    dsimp only at newest
    omega

/-- What a fresh frame does to the processor: it fits the frame's geometry
from then on, and after a geometry change it is new and has the whole frame to send. -/
theorem Geared.receive (inv : s.Geared M buffers) {shared : OutputLayoutSnapshot} (isShared : s.shared = some shared)
    (undeferred : s.deferred = none) (waiting : ∀ frame fresh, s.phase ≠ .processing frame fresh)
    (geometry : frame.geometry = shared.geometryFor buffers.source) (long : frame.capture.data.len = buffers.stride * buffers.source.height)
    {damage : List Region}
    (picture : frame.prepared = prepared frame.capture.data buffers.source buffers.stride buffers.pixelFormat damage shared)
    (borrowed : ∀ idx, frame.borrowed = some idx → frame.geometry.isIdentity = true)
    (small : frame.prepared.width < 2 ^ 31 ∧ frame.prepared.height < 2 ^ 31) :
    (s.receive M frame).Geared M buffers ∧ (s.receive M frame).Pictured buffers frame ∧
    (s.receive M frame).processorGeneration = s.changes ∧
    (s.processorGeneration ≠ s.changes → (s.receive M frame).proc =
      M.queueDamage (M.new frame.prepared.width frame.prepared.height frame.prepared.stride)
        [.full frame.prepared.width frame.prepared.height]) := by
  obtain ⟨old, isOld, counted⟩ := inv.published
  cases isShared.symm.trans isOld
  have shapes := prepared_shape frame.capture.data buffers.source buffers.stride buffers.pixelFormat damage shared
  rw [← picture, ← geometry] at shapes
  obtain ⟨shape, generation⟩ := shapes
  have pictured : (s.receive M frame).Pictured buffers frame := ⟨rfl, long, ⟨damage, shared, geometry.symm, picture⟩, borrowed⟩
  refine ⟨?_, pictured, ?_, ?_⟩
  · unfold ShmLoop.receive outputDownscalingGenerationAction
    by_cases changed : frame.prepared.geometryGeneration ≠ s.processorGeneration
    · simp only [if_pos changed, if_true]
      refine ⟨⟨shared, isShared, counted⟩, ?_, fun _ snapshot same => ?_, ?_, ?_, inv.long, inv.captures, inv.taken, ?_, ?_⟩
      · dsimp only
        omega
      · cases isShared.symm.trans same
        exact geometry.symm
      · exact (M.shape_queueDamage _ _).trans ((M.shape_new _ _ _).trans shape)
      · exact fun g member => List.mem_singleton.mp member
      · exact fun other isDeferred => nomatch undeferred.symm.trans isDeferred
      · exact fun other fresh isPhase => absurd isPhase (waiting other fresh)
    · simp only [if_neg changed, Bool.false_eq_true, if_false]
      have newest : s.processorGeneration = s.changes := by
        rw [← counted, ← generation]
        exact (not_not.mp changed).symm
      have same : frame.geometry = s.geometry := geometry.trans (inv.current newest shared isShared)
      refine ⟨⟨shared, isShared, counted⟩, inv.older, fun _ snapshot isShared' => ?_, ?_, ?_, inv.long, inv.captures,
        inv.taken, ?_, ?_⟩
      · cases isShared.symm.trans isShared'
        exact geometry.symm
      · exact (M.shape_queueDamage _ _).trans (same ▸ inv.shape)
      · intro g member
        rcases List.mem_cons.mp member with new | earlier
        · exact new
        · exact (inv.mapped g earlier).trans same.symm
      · exact fun other isDeferred => nomatch undeferred.symm.trans isDeferred
      · exact fun other fresh isPhase => absurd isPhase (waiting other fresh)
  · have newest : frame.prepared.geometryGeneration = s.changes := generation.trans counted
    change (outputDownscalingGenerationAction s.processorGeneration frame.prepared).nextGeneration = s.changes
    unfold outputDownscalingGenerationAction
    by_cases changed : frame.prepared.geometryGeneration ≠ s.processorGeneration
    · rw [if_pos changed]
      exact newest
    · rw [if_neg changed]
      exact (not_not.mp changed).symm.trans newest
  · intro older
    have changed : frame.prepared.geometryGeneration ≠ s.processorGeneration := fun same =>
      older (same.symm.trans (generation.trans counted))
    unfold ShmLoop.receive outputDownscalingGenerationAction
    simp only [if_pos changed, if_true, asI32_small small.1, asI32_small small.2]
    rfl

theorem Geared.loopTop (inv : s.Geared M buffers) (same : SameGear M s t)
    (deferred : ∀ frame, t.deferred = some frame → s.Pictured buffers frame) : (t.loopTop protocol).Geared M buffers := by
  refine inv.carry ⟨same.1, same.2, same.3, same.4, same.5, same.6, same.7, same.8, same.9⟩ deferred ?_
  intro frame fresh isPhase
  unfold ShmLoop.loopTop at isPhase
  dsimp only at isPhase
  split at isPhase <;> cases isPhase

theorem SameGear.startFrame (s : ShmLoop P) : SameGear M s (s.startFrame protocol) := by
  cases protocol <;> exact .of_eq rfl rfl rfl rfl rfl rfl rfl rfl rfl

theorem Geared.dispose (inv : s.Geared M buffers) (pictured : s.Pictured buffers frame) (undeferred : s.deferred = none)
    (due : Bool) : (s.dispose M protocol frame due).Geared M buffers := by
  have none : ∀ other, s.deferred = some other → s.Pictured buffers other := fun other isDeferred =>
    nomatch undeferred.symm.trans isDeferred
  unfold ShmLoop.dispose
  dsimp only
  split
  · exact inv.loopTop (.refl s) none
  · split
    · refine inv.carry (.of_eq rfl rfl rfl rfl rfl rfl rfl rfl rfl) none ?_
      intro other fresh isPhase
      cases isPhase
      exact pictured
    · refine inv.loopTop (.of_eq rfl rfl rfl rfl rfl rfl rfl rfl rfl) ?_
      intro other isDeferred
      cases isDeferred
      exact pictured

/-- What the preparation of a completed capture comes to: the end of the loop,
or a picture of that capture that goes through the processor. -/
theorem prepareCompleted_cases (protocol : CaptureProtocol) (inv : s.Geared M buffers) {completed : CompletedCapture} {capture : SuccessfulCapture}
    (isPhase : s.phase = .submitted completed) (taken : s.taken = some capture)
    (mapping : s.mappings completed.idx = capture.data) (due scanDue : Bool) :
    let u := { s with failedStreak := 0, deferred := none }
    (s.prepareCompleted M protocol buffers completed capture due scanDue = { u with phase := .ended }) ∨
    ∃ frame : LoopFrame, s.prepareCompleted M protocol buffers completed capture due scanDue =
        (u.receive M frame).dispose M protocol frame due ∧
      (u.receive M frame).Geared M buffers ∧ (u.receive M frame).Pictured buffers frame ∧ frame.capture = capture ∧
      (u.receive M frame).processorGeneration = s.changes ∧
      (s.processorGeneration ≠ s.changes → (u.receive M frame).proc =
        M.queueDamage (M.new frame.prepared.width frame.prepared.height frame.prepared.stride)
          [.full frame.prepared.width frame.prepared.height]) := by
  intro u
  have geared : u.Geared M buffers := by
    refine inv.carry (.of_eq rfl rfl rfl rfl rfl rfl rfl rfl rfl) nofun ?_
    exact fun frame fresh processing => nomatch isPhase.symm.trans processing
  unfold ShmLoop.prepareCompleted
  dsimp only
  split
  · exact .inl rfl
  · rename_i shared snapshot isShared
    split
    · exact .inl rfl
    · rename_i result frame isPrepared
      refine .inr ⟨_, rfl, ?_⟩
      have long := inv.taken capture taken
      have small := preparePresentationFrame_small buffers.small isPrepared
      rcases preparePresentationFrame_cases buffers.source buffers.stride buffers.pixelFormat
          (scannedDamage protocol buffers completed.damageRegions (M.sentFirstFrame s.proc) scanDue) snapshot with
        ⟨message, fails⟩ | succeeds
      · rw [mapping, fails capture.data long.ge] at isPrepared
        cases isPrepared
      · rw [mapping, succeeds capture.data long.ge] at isPrepared
        cases isPrepared
        have borrowed : ∀ idx, (if (snapshot.geometryFor buffers.source).isIdentity then some completed.idx else none) =
            some idx → (snapshot.geometryFor buffers.source).isIdentity = true := fun idx borrows =>
          (Option.ite_none_right_eq_some.mp borrows).1
        obtain ⟨geared, pictured, generation, renewed⟩ := @Geared.receive _ _ _ _ _ ⟨_, _, capture, _⟩ geared snapshot isShared rfl
          (fun frame fresh processing => nomatch isPhase.symm.trans processing) rfl long _ rfl borrowed small
        exact ⟨geared, pictured, rfl, generation, renewed⟩

/-- A step that keeps the processor's geometry: the deferred frame and the frame
being processed are the ones that were deferred or processed before. -/
structure Rolls (M : Processing P Env) (s t : ShmLoop P) : Prop where
  gear : SameGear M s t
  deferred : ∀ frame, t.deferred = some frame → s.deferred = some frame
  calling : ∀ frame fresh, t.phase = .processing frame fresh → s.phase = .processing frame fresh ∨ s.deferred = some frame

theorem Rolls.idle (gear : SameGear M s t) (deferred : ∀ frame, t.deferred = some frame → s.deferred = some frame)
    (calling : ∀ frame fresh, t.phase ≠ .processing frame fresh) : Rolls M s t :=
  ⟨gear, deferred, fun frame fresh isPhase => absurd isPhase (calling frame fresh)⟩

theorem Rolls.loopTop (gear : SameGear M s t) (deferred : ∀ frame, t.deferred = some frame → s.deferred = some frame) :
    Rolls M s (t.loopTop protocol) := by
  refine .idle ⟨gear.1, gear.2, gear.3, gear.4, gear.5, gear.6, gear.7, gear.8, gear.9⟩ deferred ?_
  unfold ShmLoop.loopTop
  dsimp only
  split <;> nofun

theorem Rolls.afterWait (gear : SameGear M s t) (deferred : ∀ frame, t.deferred = some frame → s.deferred = some frame) :
    Rolls M s t.afterWait := by
  refine .idle ⟨gear.1, gear.2, gear.3, gear.4, gear.5, gear.6, gear.7, gear.8, gear.9⟩ deferred ?_
  unfold ShmLoop.afterWait
  dsimp only
  split <;> nofun

theorem Rolls.afterFlush (gear : SameGear M s t) (deferred : ∀ frame, t.deferred = some frame → s.deferred = some frame) :
    Rolls M s (t.afterFlush protocol) := by
  cases protocol with
  | ext => exact .afterWait gear deferred
  | wlr => exact .idle ⟨gear.1, gear.2, gear.3, gear.4, gear.5, gear.6, gear.7, gear.8, gear.9⟩ deferred nofun

theorem Rolls.settle {stalled : Bool} (gear : SameGear M s t) (deferred : t.deferred = s.deferred) {u : ShmLoop P}
    (step : (if t.stopping then some { t with phase := .completed }
      else some (if stalled then t.startFrame protocol else t).afterWait) = some u) : Rolls M s u := by
  split at step
  · cases step
    refine .idle ?_ (fun frame isDeferred => deferred ▸ isDeferred) nofun
    exact ⟨gear.1, gear.2, gear.3, gear.4, gear.5, gear.6, gear.7, gear.8, gear.9⟩
  · cases step
    refine .afterWait ?_ ?_
    · split
      · cases protocol <;> exact ⟨gear.1, gear.2, gear.3, gear.4, gear.5, gear.6, gear.7, gear.8, gear.9⟩
      · exact gear
    · intro frame isDeferred
      split at isDeferred
      · rw [startFrame_deferred] at isDeferred
        exact deferred ▸ isDeferred
      · exact deferred ▸ isDeferred

theorem Rolls.takeUp (s : ShmLoop P) : Rolls M s (s.takeUpCompleted protocol) := by
  refine .idle ?_ ?_ nofun
  · have taken : ∀ capture, (if s.frameFailed then s.taken else s.captures.head?) = some capture →
        s.taken = some capture ∨ capture ∈ s.captures := by
      intro capture isTaken
      split at isTaken
      · exact .inl isTaken
      · exact .inr (List.mem_of_mem_head? isTaken)
    cases protocol <;> exact ⟨rfl, rfl, rfl, rfl, rfl, rfl, fun _ => rfl, fun _ member => .inl member, taken⟩
  · intro frame isDeferred
    unfold ShmLoop.takeUpCompleted at isDeferred
    simp only [startFrame_deferred] at isDeferred
    split at isDeferred
    · cases isDeferred
    · exact isDeferred

/-- What a step can do: publish a layout, prepare a frame, or leave the geometry of the processor alone. -/
theorem next_cases {action : Action Env} (step : s.next M protocol buffers action = some t) :
    (∃ geometry, action = .publish geometry) ∨
    (∃ completed capture due scanDue, action = .prepare due scanDue ∧ s.phase = .submitted completed ∧
      completed.failed = false ∧ s.taken = some capture ∧
      t = s.prepareCompleted M protocol buffers completed capture due scanDue) ∨
    Rolls M s t := by
  have quiet : ∀ u : ShmLoop P, SameGear M s u → u.deferred = s.deferred → (∀ frame fresh, u.phase ≠ .processing frame fresh) →
      Rolls M s u := fun u gear deferred calling => .idle gear (fun frame isDeferred => deferred ▸ isDeferred) calling
  cases action with
  | publish geometry => exact .inl ⟨geometry, rfl⟩
  | stop =>
    cases step
    exact .inr (.inr ⟨.of_eq rfl rfl rfl rfl rfl rfl rfl rfl rfl, fun _ => id, fun _ _ => .inl⟩)
  | write byte =>
    dsimp only [ShmLoop.next] at step
    split at step
    · rename_i request sent
      cases step
      refine .inr (.inr ⟨⟨rfl, rfl, rfl, rfl, rfl, rfl, fun idx => ?_, fun _ => .inl, fun _ => .inl⟩, fun _ => id, fun _ _ => .inl⟩)
      dsimp only
      by_cases same : idx = request.buffer
      · rw [same, Function.update_self]
      · rw [Function.update_of_ne same]
    · cases step
  | poll damage outcome =>
    dsimp only [ShmLoop.next] at step
    split at step
    · cases step
      exact .inr (.inr (quiet _ (.of_eq rfl rfl rfl rfl rfl rfl rfl rfl rfl) rfl nofun))
    · rename_i request waiting sent
      cases step
      refine .inr (.inr (.idle ⟨rfl, rfl, rfl, rfl, rfl, rfl, fun _ => rfl, fun capture member => ?_, fun _ => .inl⟩
        (fun _ => id) nofun))
      rcases List.mem_cons.mp member with new | old
      · exact .inr ⟨request.buffer, congrArg SuccessfulCapture.data new⟩
      · exact .inl old
    · cases step
      exact .inr (.inr (quiet _ (.of_eq rfl rfl rfl rfl rfl rfl rfl rfl rfl) rfl nofun))
    · cases step
  | pollError =>
    dsimp only [ShmLoop.next] at step
    split at step
    · cases step
      exact .inr (.inr (quiet _ (.of_eq rfl rfl rfl rfl rfl rfl rfl rfl rfl) rfl nofun))
    · cases step
  | flush due =>
    dsimp only [ShmLoop.next] at step
    refine .inr (.inr ?_)
    split at step
    · split at step
      · cases step
        exact quiet _ (.of_eq rfl rfl rfl rfl rfl rfl rfl rfl rfl) rfl nofun
      · split at step
        · rename_i frame isDeferred
          split at step
          · cases step
            refine ⟨.of_eq rfl rfl rfl rfl rfl rfl rfl rfl rfl, fun _ => id, fun other fresh isPhase => ?_⟩
            cases isPhase
            exact .inr isDeferred
          · cases step
            exact .afterFlush (.refl s) fun _ => id
        · cases step
          exact .afterFlush (.refl s) fun _ => id
    · cases step
  | finish env =>
    dsimp only [ShmLoop.next] at step
    refine .inr (.inr ?_)
    split at step
    · rename_i frame fresh processing
      have gear : SameGear M s { s with proc := (M.process s.proc (s.data frame) env).1 } :=
        .of_eq rfl rfl rfl rfl rfl (M.shape_process _ _ _) rfl rfl rfl
      split at step
      · cases step
        exact quiet _ ⟨gear.1, gear.2, gear.3, gear.4, gear.5, gear.6, gear.7, gear.8, gear.9⟩ rfl nofun
      · split at step
        · cases step
          exact .loopTop gear fun _ => id
        · cases step
          exact .afterFlush ⟨gear.1, gear.2, gear.3, gear.4, gear.5, gear.6, gear.7, gear.8, gear.9⟩ nofun
    · cases step
  | settle info changed stalled =>
    dsimp only [ShmLoop.next] at step
    refine .inr (.inr ?_)
    split at step
    · split at step
      · cases step
        exact quiet _ (.of_eq rfl rfl rfl rfl rfl rfl rfl rfl rfl) rfl nofun
      · split at step
        · exact .settle (s := s) (t := s.submit) (.of_eq rfl rfl rfl rfl rfl rfl rfl rfl rfl) rfl step
        · exact .settle (.refl s) rfl step
    · cases step
  | takeUp =>
    dsimp only [ShmLoop.next] at step
    refine .inr (.inr ?_)
    split at step
    · split at step
      · cases step
        exact quiet _ (.of_eq rfl rfl rfl rfl rfl rfl rfl rfl rfl) rfl nofun
      · split at step
        · cases step
          exact quiet _ (.of_eq rfl rfl rfl rfl rfl rfl rfl rfl rfl) rfl nofun
        · cases step
          exact .takeUp s
    · cases step
  | prepare due scanDue =>
    dsimp only [ShmLoop.next] at step
    split at step
    · refine .inr (.inr ?_)
      split at step
      · cases step
        exact quiet _ (.of_eq rfl rfl rfl rfl rfl rfl rfl rfl rfl) rfl nofun
      · cases step
        exact .loopTop (.of_eq rfl rfl rfl rfl rfl rfl rfl rfl rfl) fun _ => id
    · rename_i completed capture ok isPhase taken
      cases step
      refine .inr (.inl ⟨completed, capture, due, scanDue, rfl, isPhase, ?_, taken, rfl⟩)
      exact Bool.eq_false_of_not_eq_true fun failed => ok completed.idx completed.damageRegions (failed ▸ rfl)
    · cases step

theorem prepareCompleted_changes (s : ShmLoop P) (completed : CompletedCapture) (capture : SuccessfulCapture)
    (due scanDue : Bool) :
    (s.prepareCompleted M protocol buffers completed capture due scanDue).changes = s.changes := by
  unfold ShmLoop.prepareCompleted ShmLoop.dispose ShmLoop.loopTop
  dsimp only
  repeat' split
  all_goals rfl

theorem next_changes {action : Action Env} (step : s.next M protocol buffers action = some t) : s.changes ≤ t.changes := by
  rcases next_cases step with ⟨geometry, rfl⟩ | ⟨completed, capture, due, scanDue, _, _, _, _, rfl⟩ | rolls
  · cases step
    dsimp only
    split <;> omega
  · exact (prepareCompleted_changes ..).ge
  · exact rolls.gear.changes.ge

theorem Geared.next {action : Action Env} (base : s.Invariant) (inv : s.Geared M buffers)
    (step : s.next M protocol buffers action = some t) (few : t.changes < 2 ^ 32) : t.Geared M buffers := by
  rcases next_cases step with ⟨geometry, rfl⟩ | ⟨completed, capture, due, scanDue, _, isPhase, ok, taken, rfl⟩ | rolls
  · exact inv.publish geometry step few
  · obtain ⟨_, other, isTaken, _, _, mapped⟩ := base.taking completed isPhase ok
    cases taken.symm.trans isTaken
    rcases prepareCompleted_cases protocol inv isPhase taken mapped due scanDue with
      ended | ⟨frame, same, geared, pictured, _⟩
    · rw [ended]
      exact inv.carry (.of_eq rfl rfl rfl rfl rfl rfl rfl rfl rfl) nofun nofun
    · rw [same]
      exact geared.dispose pictured rfl due
  · refine inv.carry rolls.gear (fun frame isDeferred => inv.deferred frame (rolls.deferred frame isDeferred)) ?_
    intro frame fresh isPhase
    rcases rolls.calling frame fresh isPhase with before | isDeferred
    · exact inv.calling frame fresh before
    · exact inv.deferred frame isDeferred

theorem start_geared (started : start M protocol buffers snapshot = some s) : s.Geared M buffers := by
  unfold start at started
  split at started
  · cases started
  · rename_i width height stride run
    cases started
    have shape := presentationFrameShape_ok run
    have made : ∀ u : ShmLoop P, u.Geared M buffers → (u.startFrame protocol).Geared M buffers := by
      intro u inv
      refine inv.carry (.startFrame u) ?_ ?_
      · rw [startFrame_deferred]
        exact inv.deferred
      · rw [startFrame_phase]
        exact inv.calling
    exact made _ ⟨⟨snapshot, rfl, rfl⟩, le_rfl, fun _ _ same => Option.some.inj same ▸ rfl,
      (M.shape_new _ _ _).trans shape, nofun, fun _ => rfl, nofun, nofun, nofun, nofun⟩

theorem reach_geared (reach : (runs M protocol buffers snapshot).Reach s) (few : s.changes < 2 ^ 32) :
    s.Geared M buffers := by
  have kept : (runs M protocol buffers snapshot).Inductive fun s => s.Invariant ∧ (s.changes < 2 ^ 32 → s.Geared M buffers) := by
    refine ⟨fun u first => ⟨start_invariant first, fun _ => start_geared first⟩, fun u action v both step => ?_⟩
    refine ⟨@Invariant.next _ _ M protocol buffers u v action both.1 step, fun few => ?_⟩
    exact Geared.next both.1 (both.2 (Nat.lt_of_le_of_lt (next_changes step) few)) step few
  exact (kept.reach reach).2 few

/-- The picture of a capture under a geometry of its source. -/
def presentationPicture (buffers : CaptureBuffers) (g : PresentationGeometry) (data : Bytes) : Bytes :=
  (prepared data buffers.source buffers.stride buffers.pixelFormat [] ⟨g, 0⟩).data

theorem presentationPicture_eq (data : Bytes) (damage : List Region) (snapshot : OutputLayoutSnapshot) :
    presentationPicture buffers (snapshot.geometryFor buffers.source) data =
      (prepared data buffers.source buffers.stride buffers.pixelFormat damage snapshot).data := by
  have same : OutputLayoutSnapshot.geometryFor ⟨snapshot.geometryFor buffers.source, 0⟩ buffers.source =
      snapshot.geometryFor buffers.source := if_pos (snapshot.geometryFor_source buffers.source)
  unfold presentationPicture prepared
  rw [same]
  dsimp only
  split <;> rfl

/-- The bytes of a held frame are those of its picture, with all its rows. -/
theorem Pictured.data_eq (pictured : s.Pictured buffers frame) (held : s.Held frame) :
    s.data frame = presentationPicture buffers frame.geometry frame.capture.data ∧
    frame.prepared.stride * frame.prepared.height ≤ (s.data frame).len := by
  obtain ⟨damage, snapshot, geometry, picture⟩ := pictured.picture
  have data : s.data frame = frame.prepared.data := by
    unfold ShmLoop.data
    split
    · rename_i idx borrowed
      have identity := pictured.borrowed idx borrowed
      rw [← geometry] at identity
      rw [held.mapped idx borrowed, picture, prepared]
      dsimp only
      rw [if_pos identity]
    · rfl
  rw [data, ← geometry, presentationPicture_eq _ damage, ← picture]
  refine ⟨rfl, ?_⟩
  rw [picture]
  exact prepared_len buffers.pixelFormat damage snapshot pictured.long.ge

/-- A frame of a new geometry goes to a new processor at once. -/
theorem dispose_renewed {u : ShmLoop P} (due : Bool)
    (renewed : u.proc = M.queueDamage (M.new frame.prepared.width frame.prepared.height frame.prepared.stride)
      [.full frame.prepared.width frame.prepared.height]) :
    u.dispose M protocol frame due = { u with phase := .processing frame true } := by
  have unsent : M.sentFirstFrame u.proc = false := by
    rw [renewed, M.sentFirstFrame_queueDamage, M.sentFirstFrame_new]
  unfold ShmLoop.dispose shouldSend
  simp only [unsent, Bool.and_false, Bool.false_eq_true, if_false, Bool.not_false, Bool.true_or, if_true]

theorem dispose_generation (u : ShmLoop P) (due : Bool) :
    (u.dispose M protocol frame due).processorGeneration = u.processorGeneration := by
  unfold ShmLoop.dispose ShmLoop.loopTop
  dsimp only
  repeat' split
  all_goals rfl

/-- The first byte that a call gets, the first byte of the newest capture's picture, and the geometry changes so far. -/
def processedBytes (s : ShmLoop P) (buffers : CaptureBuffers) : Option (UInt8 × UInt8 × Nat) :=
  match s.phase, s.captures with
  | .processing frame _, newest :: _ =>
    some ((s.data frame).byte 0, (presentationPicture buffers frame.geometry newest.data).byte 0, s.changes)
  | _, _ => none

theorem processedBytes_eq {first newest : UInt8} {changes : Nat}
    (bytes : s.processedBytes buffers = some (first, newest, changes)) :
    ∃ frame fresh capture, s.phase = .processing frame fresh ∧ s.captures.head? = some capture ∧
      (s.data frame).byte 0 = first ∧ (presentationPicture buffers frame.geometry capture.data).byte 0 = newest ∧
      s.changes = changes := by
  unfold processedBytes at bytes
  split at bytes
  · rename_i frame fresh capture older processing captures
    cases bytes
    exact ⟨frame, fresh, capture, processing, congrArg List.head? captures, rfl, rfl, rfl⟩
  · cases bytes

/-- A loop without EGFX whose second capture is black and deferred, and flushed
in the wait iteration that sees a third, white one succeed. -/
theorem repainted_run : ∃ s, (runs (frameProcessing false .bgrX32 23 .vbr .auto) .ext onePixelBuffers onePixelLayout).Reach s ∧
    s.processedBytes onePixelBuffers = some (0, 255, 0) := by
  let M := frameProcessing false .bgrX32 23 .vbr .auto
  let ready : Action (Bool × Environment) := .poll [⟨0, 0, 1, 1⟩] (some .ready)
  let choices : List (Action (Bool × Environment)) :=
    [ready, .flush true, .takeUp, .prepare true false, .finish (false, .idle),
      ready, .flush true, .takeUp, .prepare false false, .write fun _ => 255, ready, .flush true]
  have run : ((start M .ext onePixelBuffers onePixelLayout).bind fun s =>
      StepSystem.exec (next M .ext onePixelBuffers) s choices).bind (processedBytes · onePixelBuffers) =
        some (0, 255, 0) := by
    decide
  obtain ⟨s, run, bytes⟩ := Option.bind_eq_some_iff.mp run
  obtain ⟨first, started, run⟩ := Option.bind_eq_some_iff.mp run
  exact ⟨s, .exec (fun _ _ _ step => step) choices (.start started) run, bytes⟩

/-- Every call of the processor gets the picture of the last capture taken up,
laid out as the processor is, and all damage it was given was mapped with the
geometry of that picture. The generation of the processor is the number of
geometry changes that the last prepared frame has seen; the first one prepared
after another change is processed by a new processor that has the whole frame to send. -/
theorem processor_matches_frames (reach : (runs M protocol buffers snapshot).Reach s) (few : s.changes < 2 ^ 32) :
    (∀ (frame : LoopFrame) fresh, s.phase = .processing frame fresh →
      M.shape s.proc = (frame.prepared.width, frame.prepared.height, frame.prepared.stride) ∧
      frame.prepared.stride * frame.prepared.height ≤ (s.data frame).len ∧
      s.data frame = presentationPicture buffers frame.geometry frame.capture.data ∧
      s.taken = some frame.capture ∧ (fresh = true → s.captures.head? = some frame.capture) ∧
      ∀ g ∈ s.mapped, g = frame.geometry) ∧
    (∀ completed due scanDue t, s.phase = .submitted completed → completed.failed = false →
      s.next M protocol buffers (.prepare due scanDue : Action Env) = some t →
      t = { s with failedStreak := 0, deferred := none, phase := .ended } ∨
      t.processorGeneration = s.changes ∧ (s.processorGeneration ≠ s.changes →
        ∃ frame : LoopFrame, t.phase = .processing frame true ∧ frame.geometry = t.geometry ∧
          t.proc = M.queueDamage (M.new frame.prepared.width frame.prepared.height frame.prepared.stride)
            [.full frame.prepared.width frame.prepared.height])) ∧
    ∀ (action : Action Env) t, s.next M protocol buffers action = some t →
      (∀ due scanDue completed, action = .prepare due scanDue → s.phase = .submitted completed → completed.failed = true) →
      t.processorGeneration = s.processorGeneration := by
  have base := reach_invariant reach
  have inv := reach_geared reach few
  refine ⟨fun frame fresh call => ?_, fun completed due scanDue t isPhase ok step => ?_, fun action t step failed => ?_⟩
  · obtain ⟨held, newest, _⟩ := base.calling frame fresh call
    have pictured := inv.calling frame fresh call
    obtain ⟨data, long⟩ := pictured.data_eq held
    obtain ⟨damage, layout, geometry, picture⟩ := pictured.picture
    have shape := (prepared_shape frame.capture.data buffers.source buffers.stride buffers.pixelFormat damage layout).1
    rw [← picture, geometry] at shape
    refine ⟨?_, long, data, held.taken, newest, fun g member => (inv.mapped g member).trans pictured.geometry.symm⟩
    rw [inv.shape, shape, pictured.geometry]
  · obtain ⟨_, capture, taken, _, _, mapped⟩ := base.taking completed isPhase ok
    have prepares : t = s.prepareCompleted M protocol buffers completed capture due scanDue := by
      dsimp only [ShmLoop.next] at step
      rw [isPhase, taken] at step
      obtain ⟨failed, idx, damage⟩ := completed
      subst ok
      exact (Option.some.inj step).symm
    rcases prepareCompleted_cases protocol inv isPhase taken mapped due scanDue with
      ended | ⟨frame, same, _, _, _, generation, renewed⟩
    · exact .inl (prepares.trans ended)
    · rw [same] at prepares
      subst prepares
      refine .inr ⟨(dispose_generation _ due).trans generation, fun older => ?_⟩
      have renewed := renewed older
      rw [dispose_renewed due renewed]
      exact ⟨frame, rfl, rfl, renewed⟩
  · rcases next_cases step with ⟨_, rfl⟩ | ⟨completed, _, _, _, same, isPhase, ok, _⟩ | rolls
    · cases step
      rfl
    · exact absurd ((failed _ _ completed same isPhase).symm.trans ok) nofun
    · exact rolls.gear.processorGeneration

/-- A loop whose presentation is made twice as large between two captures. -/
def resizedRun : List (Action (Bool × Environment)) :=
  [.poll [⟨0, 0, 1, 1⟩] (some .ready), .flush true, .takeUp, .prepare true false, .finish (false, .idle),
    .publish (.new onePixelBuffers.source ⟨2, 2, Nat.two_pos, Nat.two_pos⟩),
    .poll [⟨0, 0, 1, 1⟩] (some .ready), .flush true, .takeUp]

/-- Whether a successful capture waits to be prepared, with the generation of the processor and the geometry changes. -/
def submittedGenerations (s : ShmLoop P) : Option (Nat × Nat) :=
  match s.phase with
  | .submitted ⟨false, _, _⟩ => some (s.processorGeneration, s.changes)
  | _ => none

theorem submittedGenerations_eq {generation changes : Nat} (found : s.submittedGenerations = some (generation, changes)) :
    ∃ completed, s.phase = .submitted completed ∧ completed.failed = false ∧ s.processorGeneration = generation ∧
      s.changes = changes := by
  unfold submittedGenerations at found
  split at found
  · rename_i idx damage isPhase
    cases found
    exact ⟨_, isPhase, rfl, rfl, rfl⟩
  · cases found

/-- The call at the end of the first run is made by the processor of its frame; the
frame that ends the second one goes to a new processor. -/
theorem processor_matches_frames_once :
    (∃ s, ∃ frame : LoopFrame, (runs (frameProcessing false .bgrX32 23 .vbr .auto) .ext onePixelBuffers onePixelLayout).Reach s ∧
      s.taken = some frame.capture ∧ s.data frame = presentationPicture onePixelBuffers frame.geometry frame.capture.data) ∧
    let M := frameProcessing false .bgrX32 23 .vbr .auto
    ∃ s t, ∃ frame : LoopFrame, (runs M .ext onePixelBuffers onePixelLayout).Reach s ∧
      s.next M .ext onePixelBuffers (.prepare true false) = some t ∧ t.processorGeneration = 1 ∧
      t.phase = .processing frame true ∧
      t.proc = M.queueDamage (M.new frame.prepared.width frame.prepared.height frame.prepared.stride)
        [.full frame.prepared.width frame.prepared.height] := by
  refine ⟨?_, ?_⟩
  · obtain ⟨s, reach, bytes⟩ := repainted_run
    obtain ⟨frame, fresh, capture, call, _, _, _, changes⟩ := processedBytes_eq bytes
    obtain ⟨calls, _⟩ := processor_matches_frames reach (changes ▸ by decide)
    obtain ⟨_, _, data, taken, _⟩ := calls frame fresh call
    exact ⟨s, frame, reach, taken, data⟩
  · intro M
    have run : ((start M .ext onePixelBuffers onePixelLayout).bind fun s =>
        StepSystem.exec (next M .ext onePixelBuffers) s resizedRun).bind (fun s => (s.next M .ext onePixelBuffers
          (.prepare true false)).bind fun t => s.submittedGenerations.map fun found =>
            (found, match t.phase with | .ended => true | _ => false)) = some ((0, 1), false) := by
      decide
    obtain ⟨s, run, seen⟩ := Option.bind_eq_some_iff.mp run
    obtain ⟨first, started, run⟩ := Option.bind_eq_some_iff.mp run
    obtain ⟨t, step, seen⟩ := Option.bind_eq_some_iff.mp seen
    obtain ⟨found, isFound, same⟩ := Option.map_eq_some_iff.mp seen
    obtain ⟨rfl, goesOn⟩ := Prod.mk.inj same
    obtain ⟨completed, isPhase, ok, generation, changes⟩ := submittedGenerations_eq isFound
    have reach : (runs M .ext onePixelBuffers onePixelLayout).Reach s :=
      .exec (fun _ _ _ step => step) resizedRun (.start started) run
    obtain ⟨_, prepares, _⟩ := processor_matches_frames reach (changes ▸ by decide)
    rcases prepares completed true false t isPhase ok step with ended | ⟨newest, renews⟩
    · rw [ended] at goesOn
      cases goesOn
    · obtain ⟨frame, call, _, proc⟩ := renews (by rw [generation, changes]; decide)
      exact ⟨s, t, frame, reach, step, newest.trans changes, call, proc⟩

/-- That call gets a black picture although the newest capture is white. -/
theorem flush_shows_older_capture :
    ∃ s, ∃ (frame : LoopFrame) (fresh : Bool) (capture : SuccessfulCapture),
      (runs (frameProcessing false .bgrX32 23 .vbr .auto) .ext onePixelBuffers onePixelLayout).Reach s ∧
      s.phase = .processing frame fresh ∧ s.captures.head? = some capture ∧
      s.data frame ≠ presentationPicture onePixelBuffers frame.geometry capture.data := by
  obtain ⟨s, reach, bytes⟩ := repainted_run
  obtain ⟨frame, fresh, capture, call, newest, black, white, _⟩ := processedBytes_eq bytes
  refine ⟨s, frame, fresh, capture, reach, call, newest, fun same => ?_⟩
  rw [same, white] at black
  cases black

end ShmLoop

end HyprRdp
