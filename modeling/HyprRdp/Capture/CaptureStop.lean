import HyprRdp.Capture.ExclusiveCapture

namespace HyprRdp

/-- The steps outside its sessions that a thread takes at most from here, once it was told to stop. -/
def CaptureStage.stepsLeft : CaptureStage → Nat
  | .restarting _ => 5
  | .pausing => 4
  | .session | .failed _ => 3
  | .replenished _ _ | .unasked => 2
  | .returned | .dying => 1
  | .ended => 0

/-- The sessions that it leaves from here at most: a pause is followed by one more. -/
def CaptureStage.sessionsLeft : CaptureStage → Nat
  | .restarting _ | .pausing | .session => 1
  | .failed _ | .replenished _ _ | .returned | .unasked | .dying | .ended => 0

/-- The steps outside a session. -/
def CaptureChoice.isProceed {U : Type} : CaptureChoice U → Bool
  | .proceed => true
  | .push _ | .answer | .finish _ => false

/-- The end of a session. -/
def CaptureChoice.isFinish {U : Type} : CaptureChoice U → Bool
  | .finish _ => true
  | .push _ | .answer | .proceed => false

namespace WaylandCapture

variable {U : Type} {now : Nat} {c d : WaylandCapture U} {counted : CaptureChoice U → Bool} {left : CaptureStage → Nat}

/-- A thread that was told to stop pays for the steps that are counted with what it has left. -/
def Spends (counted : CaptureChoice U → Bool) (left : CaptureStage → Nat) : Prop :=
  ∀ {now c choice} {d : WaylandCapture U}, Step now c choice d → c.stopFlag = true →
    (if counted choice then 1 else 0) + left d.stage ≤ left c.stage

/-- Once the flag is set, a failure is not followed by a restart. -/
theorem propagates {failure : CaptureFailure} {restarts again : Nat} (stopFlag : c.stopFlag = true) :
    captureSessionRestartDecision failure c.stopFlag restarts ≠ .restart again := by
  unfold captureSessionRestartDecision
  rw [if_pos (.inl stopFlag)]
  exact CaptureRestartDecision.noConfusion

theorem spends_steps : Spends (CaptureChoice.isProceed (U := U)) CaptureStage.stepsLeft := by
  intro now c choice d step stopFlag
  cases step with
  | push _ _ => exact Nat.le_of_eq (Nat.zero_add _)
  | answer _ _ => exact Nat.le_of_eq (Nat.zero_add _)
  | finish inSession => simp [inSession, leave, CaptureChoice.isProceed, CaptureStage.stepsLeft]
  | fail inSession => simp [inSession, CaptureChoice.isProceed, CaptureStage.stepsLeft]
  | replenish atStage => simp [atStage, CaptureChoice.isProceed, CaptureStage.stepsLeft]
  | restart atStage decided => exact absurd decided (propagates stopFlag)
  | giveUp atStage _ => simp [atStage, leave, CaptureChoice.isProceed, CaptureStage.stepsLeft]
  | propagate atStage _ => simp [atStage, leave, CaptureChoice.isProceed, CaptureStage.stepsLeft]
  | pause atStage => simp [atStage, CaptureChoice.isProceed, CaptureStage.stepsLeft]
  | resume atStage _ => simp [atStage, CaptureChoice.isProceed, CaptureStage.stepsLeft]
  | readFlag atStage => simp [atStage, stopFlag, CaptureChoice.isProceed, CaptureStage.stepsLeft]
  | probe atStage =>
    cases received : c.received with
    | true => simp [atStage, CaptureChoice.isProceed, CaptureStage.stepsLeft]
    | false => simp [atStage, CaptureChoice.isProceed, CaptureStage.stepsLeft]
  | signal atStage => simp [atStage, CaptureChoice.isProceed, CaptureStage.stepsLeft]

theorem spends_sessions : Spends (CaptureChoice.isFinish (U := U)) CaptureStage.sessionsLeft := by
  intro now c choice d step stopFlag
  cases step with
  | push _ _ => exact Nat.le_of_eq (Nat.zero_add _)
  | answer _ _ => exact Nat.le_of_eq (Nat.zero_add _)
  | finish inSession => simp [inSession, leave, CaptureChoice.isFinish, CaptureStage.sessionsLeft]
  | fail inSession => simp [inSession, CaptureChoice.isFinish, CaptureStage.sessionsLeft]
  | replenish atStage => simp [atStage, CaptureChoice.isFinish, CaptureStage.sessionsLeft]
  | restart atStage decided => exact absurd decided (propagates stopFlag)
  | giveUp atStage _ => simp [atStage, leave, CaptureChoice.isFinish, CaptureStage.sessionsLeft]
  | propagate atStage _ => simp [atStage, leave, CaptureChoice.isFinish, CaptureStage.sessionsLeft]
  | pause atStage => simp [atStage, CaptureChoice.isFinish, CaptureStage.sessionsLeft]
  | resume atStage _ => simp [atStage, CaptureChoice.isFinish, CaptureStage.sessionsLeft]
  | readFlag atStage => simp [atStage, stopFlag, CaptureChoice.isFinish, CaptureStage.sessionsLeft]
  | probe atStage =>
    cases received : c.received with
    | true => simp [atStage, CaptureChoice.isFinish, CaptureStage.sessionsLeft]
    | false => simp [atStage, CaptureChoice.isFinish, CaptureStage.sessionsLeft]
  | signal atStage => simp [atStage, CaptureChoice.isFinish, CaptureStage.sessionsLeft]

theorem Touched.spends (spends : Spends counted left) (touched : c.Touched now d) (stopFlag : c.stopFlag = true) :
    left d.stage ≤ left c.stage := by
  cases touched with
  | kept => exact Nat.le_refl _
  | thread choice step => exact Nat.le_trans (Nat.le_add_left _ _) (spends (step_cases step) stopFlag)
  | stop => exact Nat.le_refl _
  | dropUpdates => exact Nat.le_refl _
  | displaySend _ _ => exact Nat.le_refl _
  | nextUpdate _ _ next =>
    rcases nextUpdate_cases next with ⟨_, _, _, _, rfl⟩ | ⟨_, _, _, rfl | rfl⟩
    · exact Nat.le_refl _
    · exact Nat.le_refl _
    · exact Nat.le_refl _

/-- No restart is dated later than the clock. -/
theorem Touched.dated (touched : c.Touched now d) (dated : ∀ last ∈ c.lastRestart, last ≤ now) :
    ∀ last ∈ d.lastRestart, last ≤ now := by
  cases touched with
  | kept => exact dated
  | thread choice step =>
    cases step_cases step with
    | pause _ =>
      rintro _ ⟨⟩
      exact Nat.le_refl _
    | push _ _ | answer _ _ | finish _ | fail _ | replenish _ | restart _ _ | giveUp _ _ | propagate _ _ | resume _ _
    | readFlag _ | probe _ | signal _ => exact dated
  | stop => exact dated
  | dropUpdates => exact dated
  | displaySend _ _ => exact dated
  | nextUpdate _ _ next =>
    rcases nextUpdate_cases next with ⟨_, _, _, _, rfl⟩ | ⟨_, _, _, rfl | rfl⟩
    · exact dated
    · exact dated
    · exact dated

/-- A thread that is neither in a session nor over can go on, if only after the pause. -/
theorem proceeds (between : c.stage ≠ .session) (going : c.stage ≠ .ended) (dated : ∀ last ∈ c.lastRestart, last ≤ now) :
    ∃ elapsed ≤ captureRestartPause, ∃ d, c.step (now + elapsed) .proceed = some d := by
  unfold WaylandCapture.step
  dsimp only
  cases atStage : c.stage with
  | session => exact absurd atStage between
  | ended => exact absurd atStage going
  | failed failure => exact ⟨0, Nat.zero_le _, _, rfl⟩
  | replenished failure due =>
    refine ⟨0, Nat.zero_le _, ?_⟩
    dsimp only
    cases captureSessionRestartDecision failure c.stopFlag c.restarts with
    | restart restarts => exact ⟨_, rfl⟩
    | giveUp restarts => exact ⟨_, rfl⟩
    | propagate => exact ⟨_, rfl⟩
  | restarting due => exact ⟨0, Nat.zero_le _, _, rfl⟩
  | pausing =>
    exact ⟨captureRestartPause, Nat.le_refl _, _, if_pos fun last isLast => Nat.add_le_add_right (dated last isLast) _⟩
  | returned => exact ⟨0, Nat.zero_le _, _, rfl⟩
  | unasked => exact ⟨0, Nat.zero_le _, _, rfl⟩
  | dying => exact ⟨0, Nat.zero_le _, _, rfl⟩

end WaylandCapture

namespace CaptureThreads

open WaylandCapture

variable {U : Type} {s t : CaptureThreads U} {i : Nat} {c d : WaylandCapture U} {counted : CaptureChoice U → Bool}
  {left : CaptureStage → Nat}

/-- A step of this thread that is counted. -/
def ownStep (counted : CaptureChoice U → Bool) (i : Nat) : Action U → Bool
  | .thread j choice => j == i && counted choice
  | _ => false

theorem kept_capture {action : Action U} (step : s.next action = some t) (member : s.captures[i]? = some c) :
    ∃ d, t.captures[i]? = some d ∧ c.Touched s.now d := by
  obtain ⟨_, follows | ⟨spawned, pushed⟩⟩ := next_captures step
  · exact follows.kept member
  · refine ⟨c, ?_, .kept⟩
    rw [pushed, List.getElem?_append_left (List.getElem?_eq_some_iff.mp member).1]
    exact member

theorem stopped_step (spends : Spends counted left) {action : Action U} (step : s.next action = some t)
    (member : s.captures[i]? = some c) (stopFlag : c.stopFlag = true) : ∃ d, t.captures[i]? = some d ∧ d.stopFlag = true ∧
      (if ownStep counted i action then 1 else 0) + left d.stage ≤ left c.stage := by
  cases own : ownStep counted i action with
  | false =>
    obtain ⟨d, after, touched⟩ := kept_capture step member
    refine ⟨d, after, touched.quieter.stopFlag stopFlag, ?_⟩
    rw [if_neg Bool.false_ne_true, Nat.zero_add]
    exact touched.spends spends stopFlag
  | true =>
    cases action with
    | thread j choice =>
      obtain ⟨same, isCounted⟩ := Bool.and_eq_true_iff.mp own
      obtain rfl : j = i := beq_iff_eq.mp same
      obtain ⟨d, moved, rfl⟩ := Option.map_eq_some_iff.mp step
      rw [member, Option.bind_some] at moved
      have steps := step_cases moved
      have spent := spends steps stopFlag
      rw [isCounted] at spent
      exact ⟨d, modify_self (f := fun _ => d) member, steps.told.trans stopFlag, spent⟩
    | tick _ | close | beginStart | join | startCapture _ | answered | cancel | beginShutdown | removeOutput
    | displaySend _ | nextUpdate _ | dropUpdates _ => cases own

theorem stopped_run (spends : Spends counted left) {actions : List (Action U)} (run : StepSystem.exec next s actions = some t)
    (member : s.captures[i]? = some c) (stopFlag : c.stopFlag = true) :
    ∃ d, t.captures[i]? = some d ∧ actions.countP (ownStep counted i) + left d.stage ≤ left c.stage := by
  induction actions generalizing s c with
  | nil =>
    cases run
    exact ⟨c, member, Nat.le_of_eq (Nat.zero_add _)⟩
  | cons action actions ih =>
    obtain ⟨u, step, run⟩ := Option.bind_eq_some_iff.mp run
    obtain ⟨d, after, stays, spent⟩ := stopped_step spends step member stopFlag
    obtain ⟨e, last, rest⟩ := ih run after stays
    refine ⟨e, last, ?_⟩
    rw [List.countP_cons]
    omega

theorem dated_runs :
    (runs U).Inductive fun s => ∀ (i : Nat) (c : WaylandCapture U), s.captures[i]? = some c → ∀ last ∈ c.lastRestart, last ≤ s.now :=
  each_capture (fun _ _ => nofun) (fun _ _ _ passed dated last isLast => Nat.le_trans (dated last isLast) passed)
    fun _ _ _ dated touched => touched.dated dated

/-- A capture thread that somebody waits for leaves one more session at most and has at most five steps left outside its
sessions, and outside a session it can go on within the pause as long as it has not ended. -/
theorem joined_capture_winds_down (reachable : (runs U).Reach s)
    (joining : s.task = .joining (some i) ∨ s.task = .shutdown (some i)) {actions : List (Action U)}
    (run : StepSystem.exec next s actions = some t) :
    actions.countP (ownStep CaptureChoice.isFinish i) ≤ 1 ∧ actions.countP (ownStep CaptureChoice.isProceed i) ≤ 5 ∧
      ∃ d, t.captures[i]? = some d ∧ (d.stage = .session ∨ d.stage = .ended ∨
        ∃ elapsed ≤ captureRestartPause, ∃ u, StepSystem.exec next t [.tick elapsed, .thread i .proceed] = some u) := by
  have governed := governed_runs.reach reachable
  have owns : s.owner = some i := by
    unfold owner
    rcases joining with task | task
    · rw [task]
    · rw [task]
  have last := governed.newest i owns
  have isNewest : s.newest = i := by
    unfold newest
    rw [← last]
    rfl
  obtain ⟨c, member⟩ : ∃ c, s.captures[i]? = some c := ⟨_, List.getElem?_eq_getElem (by omega)⟩
  have stopFlag := governed.stopping (some i) joining c (by rw [isNewest]; exact member)
  obtain ⟨d, after, steps⟩ := stopped_run spends_steps run member stopFlag
  obtain ⟨_, _, sessions⟩ := stopped_run spends_sessions run member stopFlag
  have fewSteps : c.stage.stepsLeft ≤ 5 := by
    unfold CaptureStage.stepsLeft
    split <;> omega
  have fewSessions : c.stage.sessionsLeft ≤ 1 := by
    unfold CaptureStage.sessionsLeft
    split <;> omega
  refine ⟨by omega, by omega, d, after, ?_⟩
  by_cases between : d.stage = .session
  · exact .inl between
  by_cases going : d.stage = .ended
  · exact .inr (.inl going)
  have later : (runs U).Reach t := .exec (fun _ _ _ step => step) actions reachable run
  obtain ⟨elapsed, soon, e, step⟩ := proceeds between going (dated_runs.reach later i d after)
  refine .inr (.inr ⟨elapsed, soon, { t with now := t.now + elapsed }.modify i fun _ => e, ?_⟩)
  have moved : ({ t with now := t.now + elapsed } : CaptureThreads U).next (.thread i .proceed) =
      some ({ t with now := t.now + elapsed }.modify i fun _ => e) := by
    show (t.captures[i]?.bind fun c => c.step (t.now + elapsed) .proceed).map _ = _
    rw [after, Option.bind_some, step]
    rfl
  rw [StepSystem.exec]
  exact Option.bind_eq_some_iff.mpr ⟨_, rfl, by rw [StepSystem.exec, moved]; rfl⟩

/-- The thread of the first start is told to stop while it pauses after a failed session, and the next session fails too. -/
def reactivation : List (Action Nat) :=
  firstStart ++ [Action.thread 0 .answer, .answered] ++ failedSession ++ [Action.thread 0 .proceed, .beginStart]

def lastSession : List (Action Nat) := [Action.tick captureRestartPause, .thread 0 .proceed] ++ failedSession

theorem joined_capture_winds_down_reactivation : ∃ s t d, StepSystem.exec next init reactivation = some s ∧
    StepSystem.exec next s lastSession = some t ∧ lastSession.countP (ownStep CaptureChoice.isFinish 0) ≤ 1 ∧
      lastSession.countP (ownStep CaptureChoice.isProceed 0) ≤ 5 ∧ t.captures[0]? = some d ∧
        ∃ elapsed ≤ captureRestartPause, ∃ u, StepSystem.exec next t [.tick elapsed, .thread 0 .proceed] = some u := by
  obtain ⟨s, t, run, joining, rest, stage⟩ : ∃ s t, StepSystem.exec next init reactivation = some s ∧
      s.task = .joining (some 0) ∧ StepSystem.exec next s lastSession = some t ∧
        t.captures[0]?.map WaylandCapture.stage = some .returned := ⟨_, _, rfl, rfl, rfl, rfl⟩
  have reachable : (runs Nat).Reach s := StepSystem.exec_reach reactivation (.start rfl) run
  obtain ⟨fewSessions, fewSteps, d, after, going⟩ := joined_capture_winds_down reachable (.inl joining) rest
  rw [after] at stage
  have returned : d.stage = .returned := Option.some.inj stage
  refine ⟨s, t, d, run, rest, fewSessions, fewSteps, after, ?_⟩
  rcases going with inSession | finished | going
  · cases returned.symm.trans inSession
  · cases returned.symm.trans finished
  · exact going

end CaptureThreads

end HyprRdp
