import HyprRdp.Capture.UnsentFrames

namespace HyprRdp

namespace ShmLoop

variable {P Env : Type} (M : Processing P Env) (protocol : CaptureProtocol) (buffers : CaptureBuffers)

/-- The client may lack something of what was captured. -/
def Unsettled (s : ShmLoop P) : Prop := M.hasPendingDamage s.proc = true ∨ M.sentFirstFrame s.proc = false

instance (s : ShmLoop P) : Decidable (s.Unsettled M) :=
  inferInstanceAs (Decidable (M.hasPendingDamage s.proc = true ∨ M.sentFirstFrame s.proc = false))

/-- The loop goes on after a failed capture. -/
def retries (s : ShmLoop P) : Bool :=
  !s.stopping && decide (s.failedStreak + 1 < captureFailedFrameLimit) &&
    (protocol == .wlr || extFrameFailureAction s.extFrameFailure == .retry)

/-- The steps that strand no frame. A frame in the hands of the processor is not
`held` back, or a newer capture is complete or the loop ends; neither a failed
capture nor the restart of a stalled wait takes anything unsent with it. -/
def Carries (held : P → Bytes → Env → Bool) (s : ShmLoop P) : Action Env → Prop
  | .finish env =>
    match s.phase with
    | .processing frame fresh =>
      held s.proc (s.data frame) env = true →
        s.frameReady = true ∨ fresh = true ∧ protocol = .ext ∧ s.stopping = true
    | _ => True
  | .takeUp =>
    s.frameFailed = true → s.retries protocol = true → s.captures.isEmpty = false → ¬ s.Unsettled M
  | .settle _ _ stalled => stalled = true → s.frameReady = true → s.stopping = false → ¬ s.Unsettled M
  | _ => True

instance (held : P → Bytes → Env → Bool) (s : ShmLoop P) (action : Action Env) :
    Decidable (s.Carries M protocol held action) :=
  match action with
  | .finish env => by
    unfold Carries
    dsimp only
    split <;> infer_instance
  | .takeUp => inferInstanceAs (Decidable (_ → _))
  | .settle _ _ _ => inferInstanceAs (Decidable (_ → _))
  | .publish _ | .stop | .write _ | .poll _ _ | .pollError | .flush _ | .prepare _ _ => isTrue trivial

/-- The frame of the newest capture is retained. -/
def Retains (s : ShmLoop P) : Prop := ∃ frame, s.deferred = some frame ∧ s.captures.head? = some frame.capture

/-- The phases from a wait for a capture to the moment it is taken up. -/
def Waits : ShmPhase → Prop
  | .waiting | .dispatched | .processing _ false | .flushed | .completed => True
  | .processing _ true | .submitted _ | .ended => False

/-- The phases in which no completed capture waits to be taken up. -/
def Idles : ShmPhase → Prop
  | .waiting | .processing _ true | .submitted _ => True
  | .dispatched | .processing _ false | .flushed | .completed | .ended => False

/-- What is unsent while the loop waits is retained, or a newer capture is there
to be taken up; a failed capture finds nothing unsent, or ends the loop. -/
structure Retention (s : ShmLoop P) : Prop where
  kept : Waits s.phase → s.captures.isEmpty = false → s.Unsettled M → s.frameReady = true ∨ s.Retains
  lost : ∀ completed, s.phase = .submitted completed → completed.failed = true → s.captures.isEmpty = false →
    s.Unsettled M → (protocol = .ext ∧ s.stopping = true) ∨ captureFailedFrameLimit ≤ s.failedStreak + 1
  single : s.frameFailed = true → s.frameReady = false
  idle : Idles s.phase → s.frameReady = false ∧ s.frameFailed = false

variable {M} {protocol} {buffers} {s t : ShmLoop P}

/-- Two states of a loop with the same captures and the same deferred frame. -/
structure SameFrames (s t : ShmLoop P) : Prop where
  proc : t.proc = s.proc
  deferred : t.deferred = s.deferred
  captures : t.captures = s.captures
  ready : t.frameReady = s.frameReady
  failed : t.frameFailed = s.frameFailed

theorem SameFrames.refl (s : ShmLoop P) : SameFrames s s := ⟨rfl, rfl, rfl, rfl, rfl⟩

theorem SameFrames.unsettled (same : SameFrames s t) : t.Unsettled M ↔ s.Unsettled M := by
  unfold Unsettled
  rw [same.proc]

theorem SameFrames.afterWait (same : SameFrames s t) : SameFrames s t.afterWait := ⟨same.1, same.2, same.3, same.4, same.5⟩

theorem SameFrames.afterFlush (same : SameFrames s t) : SameFrames s (t.afterFlush protocol) := by
  cases protocol <;> exact ⟨same.1, same.2, same.3, same.4, same.5⟩

/-- A wait goes on only while no capture is complete. -/
theorem afterWait_idle (idle : Idles (s.afterWait).phase) : s.frameReady = false ∧ s.frameFailed = false := by
  unfold ShmLoop.afterWait at idle
  dsimp only at idle
  split at idle
  · cases idle
  · rename_i neither
    simpa using neither

theorem afterWait_submitted (completed : CompletedCapture) : s.afterWait.phase ≠ .submitted completed := by
  unfold ShmLoop.afterWait
  dsimp only
  split <;> nofun

theorem loopTop_submitted (completed : CompletedCapture) : (s.loopTop protocol).phase ≠ .submitted completed := by
  unfold ShmLoop.loopTop
  dsimp only
  split <;> nofun

/-- The ext loop that is told to stop does not get to the next wait. -/
theorem loopTop_waits (waits : Waits (s.loopTop protocol).phase) : ¬ (protocol = .ext ∧ s.stopping = true) := by
  intro ends
  unfold ShmLoop.loopTop at waits
  rw [if_pos ends] at waits
  exact waits

theorem afterFlush_submitted (completed : CompletedCapture) : (s.afterFlush protocol).phase ≠ .submitted completed := by
  cases protocol with
  | ext => exact afterWait_submitted completed
  | wlr => exact nofun

theorem afterFlush_idle (idle : Idles (s.afterFlush protocol).phase) :
    (s.afterFlush protocol).frameReady = false ∧ (s.afterFlush protocol).frameFailed = false := by
  cases protocol with
  | ext => exact afterWait_idle idle
  | wlr => exact idle.elim

/-- An ended loop waits for nothing. -/
theorem Retention.ending (isEnded : t.phase = .ended) (single : t.frameFailed = true → t.frameReady = false) :
    t.Retention M protocol := by
  refine ⟨fun waits => ?_, fun completed phase => ?_, single, fun idles => ?_⟩
  · rw [isEnded] at waits
    exact waits.elim
  · cases isEnded.symm.trans phase
  · rw [isEnded] at idles
    exact idles.elim

theorem Retention.carry (inv : s.Retention M protocol) (same : SameFrames s t)
    (waits : Waits t.phase → Waits s.phase) (submitted : ∀ completed, t.phase ≠ .submitted completed)
    (idle : Idles t.phase → t.frameReady = false ∧ t.frameFailed = false) : t.Retention M protocol where
  kept phase any unsettled := by
    unfold Retains
    rw [same.captures] at any
    rw [same.ready, same.deferred, same.captures]
    exact inv.kept (waits phase) any (same.unsettled.mp unsettled)
  lost completed phase := absurd phase (submitted completed)
  single failed := same.ready.trans (inv.single (same.failed.symm.trans failed))
  idle := idle

/-- A frame was handed to the processor, which left nothing unsent, or has a newer capture coming. -/
theorem Retention.hand (inv : s.Retention M protocol) (ready : t.frameReady = s.frameReady)
    (failed : t.frameFailed = s.frameFailed) (sent : Waits t.phase → t.Unsettled M → s.frameReady = true)
    (submitted : ∀ completed, t.phase ≠ .submitted completed)
    (idle : Idles t.phase → t.frameReady = false ∧ t.frameFailed = false) : t.Retention M protocol where
  kept phase _ unsettled := .inl (ready.trans (sent phase unsettled))
  lost completed phase := absurd phase (submitted completed)
  single fails := ready.trans (inv.single (failed.symm.trans fails))
  idle := idle

theorem Retention.poll (inv : s.Retention M protocol) (damage : List Region) (outcome : Option CaptureOutcome)
    (step : s.next M protocol buffers (.poll damage outcome : Action Env) = some t) : t.Retention M protocol := by
  dsimp only [ShmLoop.next] at step
  split at step
  · rename_i waiting
    cases step
    refine inv.carry ⟨rfl, rfl, rfl, rfl, rfl⟩ (fun _ => ?_) nofun nofun
    rw [waiting]
    trivial
  · rename_i request waiting sent
    cases step
    obtain ⟨_, unfailed⟩ := inv.idle (by rw [waiting]; trivial)
    exact ⟨fun _ _ _ => .inl rfl, nofun, fun failed => absurd (unfailed.symm.trans failed) nofun, nofun⟩
  · rename_i failure waiting
    cases step
    obtain ⟨unready, _⟩ := inv.idle (by rw [waiting]; trivial)
    refine ⟨fun _ => inv.kept ?_, nofun, fun _ => unready, nofun⟩
    rw [waiting]
    trivial
  · cases step

theorem Retention.flush (inv : s.Retention M protocol) (due : Bool)
    (step : s.next M protocol buffers (.flush due : Action Env) = some t) : t.Retention M protocol := by
  dsimp only [ShmLoop.next] at step
  split at step
  · rename_i dispatched
    have waits : Waits s.phase := by rw [dispatched]; trivial
    have after : (s.afterFlush protocol).Retention M protocol :=
      inv.carry (SameFrames.afterFlush (.refl s)) (fun _ => waits) afterFlush_submitted afterFlush_idle
    split at step
    · cases step
      exact inv.carry ⟨rfl, rfl, rfl, rfl, rfl⟩ (fun _ => waits) nofun nofun
    · split at step
      · split at step
        · cases step
          exact inv.carry ⟨rfl, rfl, rfl, rfl, rfl⟩ (fun _ => waits) nofun nofun
        · cases step
          exact after
      · cases step
        exact after
  · cases step

section Process

variable {held : P → Bytes → Env → Bool}
  (accounts : ∀ p data env, (M.process p data env).2 = true → held p data env = false →
    M.hasPendingDamage (M.process p data env).1 = false ∧ M.sentFirstFrame (M.process p data env).1 = true)

include accounts

theorem Retention.finish (inv : s.Retention M protocol) {env : Env} (carries : s.Carries M protocol held (.finish env))
    (step : s.next M protocol buffers (.finish env) = some t) : t.Retention M protocol := by
  dsimp only [ShmLoop.next] at step
  dsimp only [Carries] at carries
  split at step
  · rename_i frame fresh processing
    rw [processing] at carries
    dsimp only at carries
    have unsent : (M.process s.proc (s.data frame) env).2 = true →
        M.hasPendingDamage (M.process s.proc (s.data frame) env).1 = true ∨
          M.sentFirstFrame (M.process s.proc (s.data frame) env).1 = false →
        s.frameReady = true ∨ fresh = true ∧ protocol = .ext ∧ s.stopping = true := by
      intro goesOn unsettled
      cases back : held s.proc (s.data frame) env with
      | true => exact carries back
      | false =>
        obtain ⟨clear, first⟩ := accounts _ _ _ goesOn back
        rcases unsettled with pending | never
        · cases clear.symm.trans pending
        · cases first.symm.trans never
    split at step
    · cases step
      exact .ending rfl inv.single
    · rename_i goes
      have goes : (M.process s.proc (s.data frame) env).2 = true := by
        simp only [Bool.not_eq_true', Bool.not_eq_false] at goes
        exact goes
      have unsent := unsent goes
      split at step
      · rename_i isFresh
        cases step
        have idle := inv.idle (by rw [processing, isFresh]; trivial)
        refine inv.hand rfl rfl (fun waits unsettled => (unsent unsettled).resolve_right fun ends => ?_)
          loopTop_submitted fun _ => idle
        exact loopTop_waits waits ends.2
      · rename_i deferred
        have sent := fun unsettled => (unsent unsettled).resolve_right fun ends => deferred ends.1
        cases step
        have same : SameFrames _ (afterFlush protocol { s with
            proc := (M.process s.proc (s.data frame) env).1, deferred := none }) := .afterFlush (.refl _)
        exact inv.hand same.ready same.failed (fun _ unsettled => sent (same.unsettled.mp unsettled))
          afterFlush_submitted afterFlush_idle
  · cases step

end Process

/-- A stalled wait asks for a new frame; one that has just come is forgotten. -/
theorem Retention.restart (inv : s.Retention M protocol) (waits : Waits s.phase)
    (sent : s.frameReady = true → ¬ s.Unsettled M) : ((s.startFrame protocol).afterWait).Retention M protocol where
  kept _ any unsettled := by
    have captures : ((s.startFrame protocol).afterWait).captures = s.captures := startFrame_captures
    have deferred : ((s.startFrame protocol).afterWait).deferred = s.deferred := startFrame_deferred
    have unsettled : s.Unsettled M := by cases protocol <;> exact unsettled
    unfold Retains
    rw [captures] at any ⊢
    rw [deferred]
    exact .inr ((inv.kept waits any unsettled).resolve_left fun ready => sent ready unsettled)
  lost completed phase := absurd phase (afterWait_submitted completed)
  single _ := startFrame_frameReady
  idle := afterWait_idle

theorem Retention.settle {held : P → Bytes → Env → Bool} (inv : s.Retention M protocol) {info changed stalled : Bool}
    (carries : s.Carries M protocol held (.settle info changed stalled))
    (step : s.next M protocol buffers (.settle info changed stalled : Action Env) = some t) : t.Retention M protocol := by
  have settled : ∀ u : ShmLoop P, SameFrames s u → u.stopping = s.stopping → s.phase = .flushed → u.phase = .flushed →
      (if u.stopping then some { u with phase := .completed }
        else some (if stalled then u.startFrame protocol else u).afterWait) = some t → t.Retention M protocol := by
    intro u same stop flushed isFlushed step
    have waits : Waits u.phase := by rw [isFlushed]; trivial
    have waited : u.Retention M protocol := by
      refine inv.carry same (fun _ => ?_) ?_ ?_
      · rw [flushed]
        trivial
      · rw [isFlushed]
        exact nofun
      · rw [isFlushed]
        exact nofun
    split at step
    · cases step
      exact waited.carry ⟨rfl, rfl, rfl, rfl, rfl⟩ (fun _ => waits) nofun nofun
    · rename_i running
      cases step
      cases stalled with
      | true =>
        refine waited.restart waits fun ready unsettled => ?_
        exact carries rfl (same.ready.symm.trans ready) (stop.symm.trans (Bool.eq_false_iff.mpr running))
          (same.unsettled.mp unsettled)
      | false =>
        exact waited.carry (SameFrames.afterWait (.refl u)) (fun _ => waits)
          afterWait_submitted afterWait_idle
  dsimp only [ShmLoop.next] at step
  split at step
  · rename_i flushed
    have waits : Waits s.phase := by rw [flushed]; trivial
    split at step
    · cases step
      exact inv.carry ⟨rfl, rfl, rfl, rfl, rfl⟩ (fun _ => waits) nofun nofun
    · split at step
      · exact settled s.submit ⟨rfl, rfl, rfl, rfl, rfl⟩ rfl flushed flushed step
      · exact settled s ⟨rfl, rfl, rfl, rfl, rfl⟩ rfl flushed flushed step
  · cases step

theorem takeUpCompleted_frames (protocol : CaptureProtocol) (s : ShmLoop P) :
    (s.takeUpCompleted protocol).captures = s.captures ∧ (s.takeUpCompleted protocol).proc = s.proc ∧
    (s.takeUpCompleted protocol).stopping = s.stopping ∧ (s.takeUpCompleted protocol).failedStreak = s.failedStreak ∧
    (s.takeUpCompleted protocol).frameReady = false ∧ (s.takeUpCompleted protocol).frameFailed = false ∧
    (s.takeUpCompleted protocol).phase = .submitted ⟨s.frameFailed, s.capIdx, s.damageRegions⟩ := by
  cases protocol <;> exact ⟨rfl, rfl, rfl, rfl, rfl, rfl, rfl⟩

theorem Retention.takeUp {held : P → Bytes → Env → Bool} (inv : s.Retention M protocol)
    (carries : s.Carries M protocol held (.takeUp : Action Env))
    (step : s.next M protocol buffers (.takeUp : Action Env) = some t) : t.Retention M protocol := by
  dsimp only [ShmLoop.next] at step
  split at step
  · split at step
    · cases step
      exact .ending rfl inv.single
    · rename_i goesOn
      split at step
      · cases step
        exact .ending rfl inv.single
      · rename_i retry
        cases step
        obtain ⟨captures, proc, stopping, streak, ready, failed, phase⟩ := takeUpCompleted_frames protocol s
        generalize s.takeUpCompleted protocol = t at captures proc stopping streak ready failed phase
        refine ⟨fun waits => ?_, fun completed isPhase fails any unsettled => ?_, fun _ => ready, fun _ => ⟨ready, failed⟩⟩
        · rw [phase] at waits
          exact waits.elim
        · cases phase.symm.trans isPhase
          unfold Unsettled at unsettled
          rw [proc] at unsettled
          rw [captures] at any
          rw [stopping, streak]
          -- what is unsent stays so only where the loop does not go on
          have ends : s.retries protocol = false := Bool.eq_false_iff.mpr fun again => carries fails again any unsettled
          unfold retries at ends
          cases protocol with
          | ext =>
            have retry : extFrameFailureAction s.extFrameFailure = .retry := by
              by_contra other
              exact retry ⟨rfl, fails, other⟩
            rw [retry] at ends
            cases stop : s.stopping with
            | true => exact .inl ⟨rfl, rfl⟩
            | false =>
              rw [stop] at ends
              exact .inr (by simpa using ends)
          | wlr =>
            have running : s.stopping = false := Bool.eq_false_iff.mpr fun stop => goesOn (.inl ⟨rfl, stop⟩)
            rw [running] at ends
            exact .inr (by simpa using ends)
  · cases step

/-- A fresh frame with something to send is processed now or deferred. -/
theorem dispose_kept {frame : LoopFrame} {due : Bool}
    (waits : Waits (s.dispose M protocol frame due).phase) (unsettled : (s.dispose M protocol frame due).Unsettled M) :
    (s.dispose M protocol frame due).deferred = some frame := by
  unfold ShmLoop.dispose at waits unsettled ⊢
  dsimp only at waits unsettled ⊢
  split at waits
  · rename_i nothing
    rw [if_pos nothing] at unsettled
    obtain ⟨still, sent⟩ := (Bool.and_eq_true _ _).mp nothing
    rcases unsettled with pending | unsent
    · change M.hasPendingDamage s.proc = true at pending
      rw [pending] at still
      cases still
    · exact absurd (sent.symm.trans unsent) nofun
  · rename_i something
    rw [if_neg something]
    split at waits
    · exact waits.elim
    · rename_i notDue
      rw [if_neg notDue]
      rfl

theorem dispose_frames (M : Processing P Env) (protocol : CaptureProtocol) (frame : LoopFrame) (due : Bool) (s : ShmLoop P) :
    (s.dispose M protocol frame due).captures = s.captures ∧
    (s.dispose M protocol frame due).frameReady = s.frameReady ∧
    (s.dispose M protocol frame due).frameFailed = s.frameFailed ∧
    ∀ completed, (s.dispose M protocol frame due).phase ≠ .submitted completed := by
  unfold ShmLoop.dispose
  dsimp only
  split
  · exact ⟨rfl, rfl, rfl, loopTop_submitted⟩
  · split
    · exact ⟨rfl, rfl, rfl, nofun⟩
    · exact ⟨rfl, rfl, rfl, loopTop_submitted⟩

theorem dispose_retention {frame : LoopFrame} (newest : s.captures.head? = some frame.capture) (ready : s.frameReady = false)
    (failed : s.frameFailed = false) (due : Bool) : (s.dispose M protocol frame due).Retention M protocol := by
  obtain ⟨captures, sameReady, sameFailed, submitted⟩ := dispose_frames M protocol frame due s
  refine ⟨fun waits _ unsettled => .inr ⟨frame, dispose_kept waits unsettled, captures ▸ newest⟩,
    fun completed phase => absurd phase (submitted completed), fun _ => sameReady.trans ready,
    fun _ => ⟨sameReady.trans ready, sameFailed.trans failed⟩⟩

theorem Retention.prepare (inv : s.Retention M protocol) (wired : s.Invariant) (due scanDue : Bool)
    (step : s.next M protocol buffers (.prepare due scanDue : Action Env) = some t) : t.Retention M protocol := by
  dsimp only [ShmLoop.next] at step
  split at step
  · rename_i isPhase
    have lost := inv.lost _ isPhase rfl
    have idle := inv.idle (by rw [isPhase]; trivial)
    split at step
    · cases step
      exact .ending rfl inv.single
    · rename_i few
      cases step
      refine ⟨fun waits any unsettled => ?_, fun completed phase => absurd phase (loopTop_submitted completed),
        inv.single, fun _ => idle⟩
      exact ((lost any unsettled).elim (loopTop_waits waits) few).elim
  · rename_i completed capture ok isPhase taken
    have idle := inv.idle (by rw [isPhase]; trivial)
    have newest : s.captures.head? = some capture := by
      have ok : completed.failed = false := by
        refine Bool.eq_false_of_not_eq_true fun failed => ok completed.idx completed.damageRegions ?_
        rw [← failed]
      obtain ⟨_, found, isTaken, isNewest, _⟩ := wired.taking completed isPhase ok
      cases taken.symm.trans isTaken
      exact isNewest
    cases step
    unfold ShmLoop.prepareCompleted
    dsimp only
    split
    · exact .ending rfl inv.single
    · split
      · exact .ending rfl inv.single
      · refine dispose_retention ?_ ?_ ?_ due
        · exact newest
        · exact idle.1
        · exact idle.2
  · cases step

theorem start_retention {snapshot : OutputLayoutSnapshot} (started : start M protocol buffers snapshot = some s) :
    s.Retention M protocol := by
  unfold ShmLoop.start at started
  split at started
  · cases started
  · cases started
    refine ⟨fun _ any => ?_, fun completed phase => ?_, fun _ => startFrame_frameReady, fun _ => ?_⟩
    · rw [startFrame_captures] at any
      cases any
    · exact absurd (startFrame_phase.symm.trans phase) nofun
    · cases protocol <;> exact ⟨rfl, rfl⟩

section Runs

variable {held : P → Bytes → Env → Bool}
  (accounts : ∀ p data env, (M.process p data env).2 = true → held p data env = false →
    M.hasPendingDamage (M.process p data env).1 = false ∧ M.sentFirstFrame (M.process p data env).1 = true)
  {snapshot : OutputLayoutSnapshot}

include accounts

theorem Retention.next {action : Action Env} (inv : s.Retention M protocol) (wired : s.Invariant)
    (carries : s.Carries M protocol held action) (step : s.next M protocol buffers action = some t) :
    t.Retention M protocol := by
  cases action with
  | publish geometry =>
    cases step
    exact ⟨inv.kept, inv.lost, inv.single, inv.idle⟩
  | stop =>
    cases step
    exact ⟨inv.kept, fun completed phase failed any unsettled =>
      (inv.lost completed phase failed any unsettled).imp (fun ends => ⟨ends.1, rfl⟩) id, inv.single, inv.idle⟩
  | write byte =>
    dsimp only [ShmLoop.next] at step
    split at step
    · cases step
      exact ⟨inv.kept, inv.lost, inv.single, inv.idle⟩
    · cases step
  | poll damage outcome => exact inv.poll damage outcome step
  | pollError =>
    dsimp only [ShmLoop.next] at step
    split at step
    · cases step
      exact .ending rfl inv.single
    · cases step
  | flush due => exact inv.flush due step
  | finish env => exact inv.finish accounts carries step
  | settle info changed stalled => exact inv.settle carries step
  | takeUp => exact inv.takeUp carries step
  | prepare due scanDue => exact inv.prepare wired due scanDue step

theorem reach_retention (reach : ((runs M protocol buffers snapshot).guarded (Carries M protocol held)).Reach s) :
    s.Invariant ∧ s.Retention M protocol := by
  have kept : ((runs M protocol buffers snapshot).guarded (Carries M protocol held)).Inductive
      fun s => s.Invariant ∧ s.Retention M protocol :=
    ⟨fun s first => ⟨start_invariant first, start_retention first⟩,
      fun s action t inv step => ⟨Invariant.next inv.1 step.2, inv.2.next accounts inv.1 step.1 step.2⟩⟩
  exact kept.reach reach

end Runs

/-- A poll that finds nothing and an open window hand a deferred frame over. -/
theorem flush_deferred {frame : LoopFrame} (waiting : s.phase = .waiting) (isDeferred : s.deferred = some frame)
    (unsettled : s.Unsettled M) (on : ¬ (protocol = .ext ∧ s.stopping = true)) :
    ∃ u v, s.next M protocol buffers (.poll [] none : Action Env) = some u ∧
      u.next M protocol buffers (.flush true : Action Env) = some v ∧ v.phase = .processing frame false := by
  refine ⟨{ s with damageRegions := s.damageRegions ++ [], phase := .dispatched },
    { s with damageRegions := s.damageRegions ++ [], phase := .processing frame false }, ?_, ?_, rfl⟩
  · dsimp only [ShmLoop.next]
    rw [waiting]
  · have due : shouldSend true (M.sentFirstFrame s.proc) (M.hasPendingDamage s.proc) = true := by
      unfold shouldSend
      rcases unsettled with pending | unsent
      · rw [pending, Bool.true_and, Bool.or_true]
      · rw [unsent]
        rfl
    dsimp only [ShmLoop.next]
    rw [if_neg on, isDeferred]
    exact if_pos due

end ShmLoop

namespace DmabufLoop

variable {E Input : Type} {library : OpenH264 E Input} {l m : DmabufLoop E} {shared : OutputLayoutSnapshot}
  {sender : DmabufSender E}

/-- The steps after which the loop is not behind: a damaged capture finds the pacer's
window open and its frame is not held back, or the loop ends. -/
def Carries (library : OpenH264 E Input) (l : DmabufLoop E) : Action Input → Prop
  | .process due env => l.phase = .submitted true → l.stopping = false →
      ShmLoop.shouldSend due l.sender.sentFirstFrame true = true ∧ l.sender.holdsBack library env = false
  | _ => True

instance (l : DmabufLoop E) : DecidablePred (l.Carries library)
  | .process due env => inferInstanceAs (Decidable (l.phase = .submitted true → l.stopping = false →
      ShmLoop.shouldSend due l.sender.sentFirstFrame true = true ∧ l.sender.holdsBack library env = false))
  | .publish _ | .stop | .poll _ _ | .pollError | .decide | .takeUp => inferInstanceAs (Decidable True)

/-- The loop is behind only while it holds the damaged capture, or when it has ended. -/
def CatchesUp (l : DmabufLoop E) : Prop := l.behind = true → l.phase = .submitted true ∨ l.phase = .ended

theorem CatchesUp.level (upToDate : l.CatchesUp) (held : l.phase ≠ .submitted true) (goesOn : l.phase ≠ .ended) :
    l.behind = false :=
  Bool.eq_false_iff.mpr fun behind => (upToDate behind).elim held goesOn

theorem loopTop_ended (stop : l.stopping = true) : l.loopTop.phase = .ended := if_pos stop

theorem CatchesUp.process {due : Bool} {env : CodingEnvironment Input} (upToDate : l.CatchesUp)
    (carries : l.Carries library (.process due env)) (step : l.next library (.process due env) = some m) :
    m.CatchesUp := by
  have held := @DmabufSender.processFrame_held _ _ library l.sender env
  dsimp only [DmabufLoop.next] at step
  dsimp only [Carries] at carries
  split at step
  · rename_i hasDamage submitted
    have level : hasDamage = false → l.behind = false := fun still =>
      upToDate.level (by rw [submitted, still]; nofun) (by rw [submitted]; nofun)
    have sends : hasDamage = true → l.stopping = false →
        ShmLoop.shouldSend due l.sender.sentFirstFrame true = true ∧ (l.sender.processFrame library env).2 ≠ .goesOn false := by
      intro damaged running
      obtain ⟨due, free⟩ := carries (by rw [submitted, damaged]) running
      exact ⟨due, fun unsent => Bool.false_ne_true (free.symm.trans (held.mp unsent))⟩
    split at step
    · generalize l.sender.processFrame library env = result at step sends
      obtain ⟨sender, flow⟩ := result
      cases flow with
      | goesOn sent =>
        cases step
        rcases Bool.eq_false_or_eq_true l.stopping with stop | running
        · exact fun _ => .inr (loopTop_ended stop)
        refine fun behind => absurd behind ?_
        change ¬ (l.behind && !sent) = true
        cases hasDamage with
        | true =>
          have sent : sent = true := Bool.eq_true_of_not_eq_false fun unsent =>
            (sends rfl running).2 (congrArg DmabufFlow.goesOn unsent)
          rw [sent, Bool.not_true, Bool.and_false]
          nofun
        | false =>
          rw [level rfl, Bool.false_and]
          nofun
      | resized width height =>
        cases step
        exact fun _ => .inr rfl
      | failed message =>
        cases step
        exact fun _ => .inr rfl
    · rename_i heldBack
      cases step
      rcases Bool.eq_false_or_eq_true l.stopping with stop | running
      · exact fun _ => .inr (loopTop_ended stop)
      cases hasDamage with
      | true => exact absurd (sends rfl running).1 heldBack
      | false => exact fun behind => absurd ((level rfl).symm.trans behind) nofun
  · cases step

theorem CatchesUp.next {action : Action Input} (upToDate : l.CatchesUp) (carries : l.Carries library action)
    (step : l.next library action = some m) : m.CatchesUp := by
  cases action with
  | publish geometry =>
    cases step
    exact upToDate
  | stop =>
    cases step
    exact upToDate
  | poll damage outcome =>
    obtain ⟨waiting, step⟩ := Option.ite_none_right_eq_some.mp step
    cases step
    have level := upToDate.level (by rw [waiting]; nofun) (by rw [waiting]; nofun)
    exact fun behind => absurd (level.symm.trans behind) nofun
  | pollError =>
    obtain ⟨_, step⟩ := Option.ite_none_right_eq_some.mp step
    cases step
    exact fun _ => .inr rfl
  | decide =>
    obtain ⟨dispatched, step⟩ := Option.ite_none_right_eq_some.mp step
    have level := upToDate.level (by rw [dispatched]; nofun) (by rw [dispatched]; nofun)
    split at step <;> cases step <;> exact fun behind => absurd (level.symm.trans behind) nofun
  | takeUp =>
    obtain ⟨completed, step⟩ := Option.ite_none_right_eq_some.mp step
    have level := upToDate.level (by rw [completed]; nofun) (by rw [completed]; nofun)
    split at step
    · cases step
      exact fun _ => .inr rfl
    split at step
    · cases step
      exact fun _ => .inr rfl
    dsimp only at step
    split at step
    · cases step
      exact fun behind => absurd (level.symm.trans behind) nofun
    · cases step
      intro behind
      change (l.behind || !l.damageRegions.isEmpty) = true at behind
      rw [level, Bool.false_or] at behind
      exact .inl (congrArg DmabufPhase.submitted behind)
  | process due env => exact upToDate.process carries step

theorem reach_catchesUp (reach : ((runs library shared sender).guarded (Carries library)).Reach l) : l.CatchesUp := by
  have kept : ((runs library shared sender).guarded (Carries library)).Inductive CatchesUp :=
    ⟨fun l first => by cases first; exact nofun, fun _ _ _ upToDate step => upToDate.next step.1 step.2⟩
  exact kept.reach reach

end DmabufLoop

section QuietScreen

open ShmLoop

/-- The frame processor of a loop leaves something unsent and lets the loop go on. -/
def LoopProcessor.holdsBack (p : LoopProcessor) (data : Bytes) (env : Bool × Environment) : Bool :=
  Call.holdsBack ⟨p.processor, env.1, []⟩ env.2 data

theorem frameProcessing_accounts {egfxShared : Bool} {pixelFormat : PixelFormat} {quality : Nat}
    {rateControl : H264RateControl} {h264Backend : H264BackendPolicy} (p : LoopProcessor) (data : Bytes)
    (env : Bool × Environment)
    (goesOn : ((frameProcessing egfxShared pixelFormat quality rateControl h264Backend).process p data env).2 = true)
    (free : p.holdsBack data env = false) :
    let q := ((frameProcessing egfxShared pixelFormat quality rateControl h264Backend).process p data env).1
    q.processor.hasPendingDamage = false ∧ q.processor.sentFirstFrame = true := by
  have left := (Call.processAt_stays ⟨p.processor, env.1, []⟩ env.2 data).trans free
  have goesOn : (Call.processAt ⟨p.processor, env.1, []⟩ env.2 data).2 = true := goesOn
  unfold Call.stays at left
  rw [goesOn, Bool.true_and] at left
  obtain ⟨clear, sent⟩ := Bool.or_eq_false_iff.mp left
  exact ⟨clear, (Bool.not_eq_false' _).mp sent⟩

/-- In a run whose steps strand nothing, a shared-memory loop that waits while the
client may lack something of the newest capture retains the frame of that
capture, and without another capture the frame is processed once the pacer allows
it; the DMA-BUF loop, which retains nothing, is up to date whenever it waits. -/
theorem quiet_screen_retained {E Input : Type} (egfxShared : Bool) (pixelFormat : PixelFormat) (quality : Nat)
    (rateControl : H264RateControl) (h264Backend : H264BackendPolicy) (protocol : CaptureProtocol)
    (buffers : CaptureBuffers) (library : OpenH264 E Input) (sender : DmabufSender E) (snapshot : OutputLayoutSnapshot) :
    let M := frameProcessing egfxShared pixelFormat quality rateControl h264Backend
    (∀ (s : ShmLoop LoopProcessor) (capture : SuccessfulCapture),
      ((runs M protocol buffers snapshot).guarded (Carries M protocol LoopProcessor.holdsBack)).Reach s →
      s.phase = .waiting → s.captures.head? = some capture → s.Unsettled M →
      ∃ frame, s.deferred = some frame ∧ frame.capture = capture ∧
        (¬ (protocol = .ext ∧ s.stopping = true) →
          ∃ u v, s.next M protocol buffers (.poll [] none) = some u ∧
            u.next M protocol buffers (.flush true) = some v ∧ v.phase = .processing frame false)) ∧
    (∀ l : DmabufLoop E,
      ((DmabufLoop.runs library snapshot sender).guarded (DmabufLoop.Carries library)).Reach l →
      l.phase = .waiting → l.behind = false) := by
  intro M
  refine ⟨fun s capture reach waiting newest unsettled => ?_, fun l reach waiting => ?_⟩
  · obtain ⟨_, inv⟩ := reach_retention frameProcessing_accounts reach
    have any : s.captures.isEmpty = false := by
      cases captures : s.captures with
      | nil => rw [captures] at newest; cases newest
      | cons first rest => rfl
    have idle := inv.idle (by rw [waiting]; trivial)
    obtain ⟨frame, isDeferred, same⟩ := (inv.kept (by rw [waiting]; trivial) any unsettled).resolve_left
      fun ready => Bool.false_ne_true (idle.1.symm.trans ready)
    exact ⟨frame, isDeferred, Option.some.inj (same.symm.trans newest), flush_deferred waiting isDeferred unsettled⟩
  · exact (DmabufLoop.reach_catchesUp reach).level (by rw [waiting]; nofun) (by rw [waiting]; nofun)

variable {P Env : Type} {M : Processing P Env}

/-- What a run that ends in a wait has kept: the deferred frame's capture and the newest one, and whether damage is pending. -/
def waitingFrames (M : Processing P Env) (s : ShmLoop P) : Option (Option Nat × Option Nat × Bool) :=
  match s.phase with
  | .waiting => some (s.deferred.map (·.capture.number), s.captures.head?.map (·.number), M.hasPendingDamage s.proc)
  | _ => none

theorem waitingFrames_eq {s : ShmLoop P} {number : Option Nat} {newest : Nat}
    (frames : waitingFrames M s = some (number, some newest, true)) :
    s.phase = .waiting ∧ s.deferred.map (·.capture.number) = number ∧
    (∃ capture, s.captures.head? = some capture) ∧ s.Unsettled M := by
  unfold waitingFrames at frames
  split at frames
  · rename_i waiting
    simp only [Option.some.injEq, Prod.mk.injEq] at frames
    obtain ⟨capture, isNewest, _⟩ := Option.map_eq_some_iff.mp frames.2.1
    exact ⟨waiting, frames.1, ⟨capture, isNewest⟩, .inl frames.2.2⟩
  · cases frames

/-- A loop of one pixel, without EGFX. -/
def onePixelProcessing : Processing LoopProcessor (Bool × Environment) := frameProcessing false .bgrX32 23 .vbr .auto

/-- A second capture with damage that the pacer holds back, up to the wait for the next one. -/
def heldBackCapture : List (ShmLoop.Action (Bool × Environment)) :=
  [.poll [⟨0, 0, 1, 1⟩] (some .ready), .flush true, .takeUp, .prepare true false, .finish (false, .idle),
    .poll [⟨0, 0, 1, 1⟩] (some .ready), .flush true, .takeUp, .prepare false false]

/-- A DMA-BUF loop of one pixel that has just started. -/
def onePixelSender : DmabufSender (Option Nat) := .new 1 1 true none .vaapi 23 ⟨0, 0, []⟩

/-- A DMA-BUF capture with damage, up to the wait for the next one. -/
def damagedCapture (env : CodingEnvironment Bitstream) : List (DmabufLoop.Action Bitstream) :=
  [.poll [⟨0, 0, 1, 1⟩] (some true), .decide, .takeUp, .process true env]

/-- The frame held back is retained; a DMA-BUF loop that has sent its one capture is up to date. -/
theorem quiet_screen_retained_once :
    (∃ s : ShmLoop LoopProcessor, ∃ frame u v,
      ((runs onePixelProcessing .ext onePixelBuffers onePixelLayout).guarded
        (Carries onePixelProcessing .ext LoopProcessor.holdsBack)).Reach s ∧
      s.deferred = some frame ∧
      s.next onePixelProcessing .ext onePixelBuffers (.poll [] none) = some u ∧
      u.next onePixelProcessing .ext onePixelBuffers (.flush true) = some v ∧ v.phase = .processing frame false) ∧
    (∃ l : DmabufLoop (Option Nat),
      ((DmabufLoop.runs PictureSession.steadyOpenH264 onePixelLayout onePixelSender).guarded
        (DmabufLoop.Carries PictureSession.steadyOpenH264)).Reach l ∧ l.phase = .waiting ∧ l.behind = false) := by
  refine ⟨?_, ?_⟩
  · have run : ((start onePixelProcessing .ext onePixelBuffers onePixelLayout).bind fun s =>
        StepSystem.exec (fun (s : ShmLoop LoopProcessor) action =>
            if s.Carries onePixelProcessing .ext LoopProcessor.holdsBack action
            then s.next onePixelProcessing .ext onePixelBuffers action else none) s heldBackCapture).bind
          (fun s => (waitingFrames onePixelProcessing s).map fun frames => (frames, s.stopping)) =
        some ((some 2, some 2, true), false) := by
      decide
    obtain ⟨s, run, seen⟩ := Option.bind_eq_some_iff.mp run
    obtain ⟨first, started, run⟩ := Option.bind_eq_some_iff.mp run
    obtain ⟨frames, kept, same⟩ := Option.map_eq_some_iff.mp seen
    obtain ⟨rfl, running⟩ := Prod.mk.inj same
    obtain ⟨waiting, _, ⟨capture, newest⟩, unsettled⟩ := waitingFrames_eq kept
    have reach : ((runs onePixelProcessing .ext onePixelBuffers onePixelLayout).guarded
        (Carries onePixelProcessing .ext LoopProcessor.holdsBack)).Reach s :=
      .exec (fun _ _ _ step => Option.ite_none_right_eq_some.mp step) heldBackCapture (.start started) run
    obtain ⟨frame, isDeferred, _, offers⟩ := (quiet_screen_retained false .bgrX32 23 .vbr .auto .ext onePixelBuffers
      PictureSession.steadyOpenH264 onePixelSender onePixelLayout).1 s capture reach waiting newest unsettled
    obtain ⟨u, v, polled, flushed, processing⟩ := offers fun stopped => absurd (running.symm.trans stopped.2) nofun
    exact ⟨s, frame, u, v, reach, isDeferred, polled, flushed, processing⟩
  · let library := PictureSession.steadyOpenH264
    have run : ((StepSystem.exec
        (fun (l : DmabufLoop (Option Nat)) action => if l.Carries library action then l.next library action else none)
        (DmabufLoop.start onePixelLayout onePixelSender)
        (damagedCapture PictureSession.codedEnvironment)).map fun l => l.phase) = some .waiting := by
      decide
    obtain ⟨l, exec, waiting⟩ := Option.map_eq_some_iff.mp run
    have reach : ((DmabufLoop.runs library onePixelLayout onePixelSender).guarded (DmabufLoop.Carries library)).Reach l :=
      StepSystem.guarded_exec_reach _ (.start rfl) exec
    exact ⟨l, reach, waiting, (quiet_screen_retained false .bgrX32 23 .vbr .auto .ext onePixelBuffers library
      onePixelSender onePixelLayout).2 l reach waiting⟩

/-- A loop of one pixel with EGFX. -/
def onePixelGraphics : Processing LoopProcessor (Bool × Environment) := frameProcessing true .bgrX32 23 .vbr .auto

/-- A first frame that is sent, a second one that the pacer holds back, and its
flush while the transport is backed up. -/
def flushUnderBackpressure : List (ShmLoop.Action (Bool × Environment)) :=
  [.poll [⟨0, 0, 1, 1⟩] (some .ready), .flush true, .takeUp, .prepare true false,
    .finish (false, { Environment.avc420 with generation := 1 }), .write fun _ => 255,
    .poll [⟨0, 0, 1, 1⟩] (some .ready), .flush true, .takeUp, .prepare false false, .poll [] none, .flush true,
    .finish (false, { Environment.avc420 with generation := 1, frameView := .backpressured })]

/-- A deferred frame that meets back-pressure is dropped, and so is a DMA-BUF capture. -/
theorem quiet_screen_lost :
    (∃ s : ShmLoop LoopProcessor, (runs onePixelGraphics .ext onePixelBuffers onePixelLayout).Reach s ∧
      s.phase = .waiting ∧ (∃ capture, s.captures.head? = some capture) ∧ s.Unsettled onePixelGraphics ∧
      s.deferred = none) ∧
    (∃ l : DmabufLoop (Option Nat),
      (DmabufLoop.runs PictureSession.steadyOpenH264 onePixelLayout onePixelSender).Reach l ∧
      l.phase = .waiting ∧ l.behind = true) := by
  refine ⟨?_, ?_⟩
  · have run : ((start onePixelGraphics .ext onePixelBuffers onePixelLayout).bind fun s =>
        StepSystem.exec (ShmLoop.next onePixelGraphics .ext onePixelBuffers) s flushUnderBackpressure).bind
          (waitingFrames onePixelGraphics) = some (none, some 2, true) := by
      decide
    obtain ⟨s, run, frames⟩ := Option.bind_eq_some_iff.mp run
    obtain ⟨first, started, run⟩ := Option.bind_eq_some_iff.mp run
    obtain ⟨waiting, dropped, newest, unsettled⟩ := waitingFrames_eq frames
    exact ⟨s, .exec (fun _ _ _ step => step) flushUnderBackpressure (.start started) run, waiting, newest, unsettled,
      Option.map_eq_none_iff.mp dropped⟩
  · have run : ((StepSystem.exec (DmabufLoop.next PictureSession.steadyOpenH264)
        (DmabufLoop.start onePixelLayout onePixelSender)
        (damagedCapture { PictureSession.codedEnvironment with frameView := .backpressured })).map
          fun l => (l.phase, l.behind)) = some (.waiting, true) := by
      decide
    obtain ⟨l, exec, seen⟩ := Option.map_eq_some_iff.mp run
    obtain ⟨waiting, behind⟩ := Prod.mk.inj seen
    exact ⟨l, StepSystem.exec_reach _ (.start rfl) exec, waiting, behind⟩

end QuietScreen

end HyprRdp
