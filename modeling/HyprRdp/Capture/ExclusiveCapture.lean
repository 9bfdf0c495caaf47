import HyprRdp.Capture.CaptureThreads

namespace HyprRdp

namespace WaylandCapture

variable {U : Type} {now : Nat} {c d : WaylandCapture U}

/-- A capture that has ended does not begin again, and one that was told to stop stays told. -/
structure Quieter (c d : WaylandCapture U) : Prop where
  captures : d.stage.captures = true → c.stage.captures = true
  stopFlag : c.stopFlag = true → d.stopFlag = true

theorem Step.captures {choice : CaptureChoice U} (step : Step now c choice d) (captures : d.stage.captures = true) :
    c.stage.captures = true := by
  have here : ∀ {stage : CaptureStage}, c.stage = stage → stage.captures = true → c.stage.captures = true :=
    fun same captures => same ▸ captures
  cases step with
  | push inSession _ => exact here inSession rfl
  | answer inSession _ => exact here inSession rfl
  | finish inSession => exact here inSession rfl
  | fail inSession => exact here inSession rfl
  | replenish atStage => exact here atStage rfl
  | restart atStage _ => exact here atStage rfl
  | giveUp atStage _ => exact here atStage rfl
  | propagate atStage _ => exact here atStage rfl
  | pause atStage => exact here atStage rfl
  | resume atStage _ => exact here atStage rfl
  | readFlag _ =>
    dsimp only at captures
    split at captures <;> cases captures
  | probe _ =>
    dsimp only at captures
    split at captures <;> cases captures
  | signal _ => cases captures

/-- The thread itself does not take a stop request back. -/
theorem Step.told {choice : CaptureChoice U} (step : Step now c choice d) : d.stopFlag = c.stopFlag := by
  cases step <;> rfl

theorem Touched.quieter (touched : c.Touched now d) : c.Quieter d := by
  cases touched with
  | kept => exact ⟨id, id⟩
  | thread choice step => exact ⟨(step_cases step).captures, fun told => (step_cases step).told.trans told⟩
  | stop => exact ⟨id, fun _ => rfl⟩
  | dropUpdates => exact ⟨id, id⟩
  | displaySend _ _ => exact ⟨id, id⟩
  | nextUpdate _ _ next =>
    rcases nextUpdate_cases next with ⟨_, _, _, _, rfl⟩ | ⟨_, _, _, rfl | rfl⟩
    · exact ⟨id, id⟩
    · exact ⟨id, id⟩
    · exact ⟨id, id⟩

/-- A thread that has refused its start is on its way out. -/
def Refuses (c : WaylandCapture U) : Prop := c.info = some false → c.stage.captures = false

theorem start_refuses (spawned : Bool) : (start spawned : WaylandCapture U).Refuses := by
  intro refused
  cases spawned with
  | false => rfl
  | true => cases refused

theorem Refuses.step {choice : CaptureChoice U} (old : c.Refuses) (step : Step now c choice d) : d.Refuses := by
  intro refused
  have same : d.info = c.info → d.stage.captures = false := fun info =>
    Bool.eq_false_iff.mpr fun captures => by
      have stopped := old (info.symm.trans refused)
      rw [step.captures captures] at stopped
      cases stopped
  cases step with
  | answer _ _ => cases refused
  | finish _ => rfl
  | giveUp _ _ => rfl
  | propagate _ _ => rfl
  | push _ _ => exact same rfl
  | fail _ => exact same rfl
  | replenish _ => exact same rfl
  | restart _ _ => exact same rfl
  | pause _ => exact same rfl
  | resume _ _ => exact same rfl
  | readFlag _ => exact same rfl
  | probe _ => exact same rfl
  | signal _ => exact same rfl

theorem Refuses.touched (old : c.Refuses) (touched : c.Touched now d) : d.Refuses := by
  cases touched with
  | kept => exact old
  | thread choice step => exact old.step (step_cases step)
  | stop => exact old
  | dropUpdates => exact old
  | displaySend _ _ => exact old
  | nextUpdate _ _ next =>
    rcases nextUpdate_cases next with ⟨_, _, _, _, rfl⟩ | ⟨_, _, _, rfl | rfl⟩
    · exact old
    · exact old
    · exact old

end WaylandCapture

namespace CaptureThreads

open WaylandCapture

variable {U : Type} {s t : CaptureThreads U} {i : Nat} {c d : WaylandCapture U}

/-- The capture that the display can still join. -/
def owner (s : CaptureThreads U) : Option Nat :=
  match s.task with
  | .free => s.captureHandle
  | .joining previous | .shutdown previous => previous
  | .joined => none
  | .awaiting i => some i

theorem refuses_runs :
    (runs U).Inductive fun s => ∀ (i : Nat) (c : WaylandCapture U), s.captures[i]? = some c → c.Refuses :=
  each_capture (fun _ spawned => start_refuses spawned) (fun _ _ _ _ refuses => refuses)
    fun _ _ _ refuses touched => refuses.touched touched

/-- The display can join none but its newest capture, and it has told all others to stop whose start was answered. -/
structure Governed (s : CaptureThreads U) : Prop where
  busy : s.task ≠ .free → s.captureHandle = none
  newest : ∀ i, s.owner = some i → i + 1 = s.captures.length
  stopping : ∀ previous, s.task = .joining previous ∨ s.task = .shutdown previous →
    ∀ c, s.captures[s.newest]? = some c → c.stopFlag = true
  answered : ∀ i ∈ s.started, i < s.captures.length
  awaited : ∀ i, s.task = .awaiting i → i ∉ s.started
  told : ∀ i ∈ s.started, ∀ c, s.captures[i]? = some c → c.stage.captures = true → s.owner ≠ some i → c.stopFlag = true

theorem ended_captures (isEnded : s.Ended i) (member : s.captures[i]? = some c) : c.stage.captures = false := by
  obtain ⟨other, same, isEnded⟩ := isEnded
  cases Option.some.inj (member.symm.trans same)
  rw [isEnded]
  rfl

theorem stopNewest_told (member : s.stopNewest.captures[s.newest]? = some d) : d.stopFlag = true := by
  obtain ⟨c, _, rfl⟩ := modify_captures member
  rw [if_pos rfl]
  rfl

theorem newest_congr (same : t.captures.length = s.captures.length) : t.newest = s.newest := by
  unfold newest
  rw [same]

/-- Others stay told to stop. -/
theorem Governed.others (old : s.Governed) (follows : s.Follows t) (owner : t.owner = s.owner) (started : i ∈ s.started)
    (member : t.captures[i]? = some d) (captures : d.stage.captures = true) (other : t.owner ≠ some i) : d.stopFlag = true := by
  obtain ⟨c, before, touched⟩ := follows.each i d member
  have quieter := touched.quieter
  rw [owner] at other
  exact quieter.stopFlag (old.told i started c before (quieter.captures captures) other)

theorem Governed.calm (old : s.Governed) (task : t.task = s.task) (handle : t.captureHandle = s.captureHandle)
    (started : t.started = s.started) (follows : s.Follows t) : t.Governed := by
  have owner : t.owner = s.owner := by
    unfold CaptureThreads.owner
    rw [task, handle]
  refine ⟨?_, ?_, ?_, ?_, ?_, ?_⟩
  · rw [task, handle]
    exact old.busy
  · rw [owner, follows.length]
    exact old.newest
  · intro previous stopping d member
    rw [task] at stopping
    rw [newest_congr follows.length] at member
    obtain ⟨c, before, touched⟩ := follows.each _ d member
    exact touched.quieter.stopFlag (old.stopping previous stopping c before)
  · rw [started, follows.length]
    exact old.answered
  · rw [started, task]
    exact old.awaited
  · rw [started]
    exact fun i isStarted d => old.others follows owner isStarted

/-- The gate is taken and the newest capture told to stop, to join what the display has the handle of. -/
theorem Governed.begin (old : s.Governed) (free : s.task = .free) (captures : t.captures = s.stopNewest.captures)
    (handle : t.captureHandle = none) (started : t.started = s.started)
    (task : t.task = .joining s.captureHandle ∨ t.task = .shutdown s.captureHandle) : t.Governed := by
  have owner : t.owner = s.owner := by
    unfold CaptureThreads.owner
    rcases task with same | same
    · rw [same, free]
    · rw [same, free]
  have follows := stopNewest_follows captures
  refine ⟨fun _ => handle, ?_, ?_, ?_, fun i awaiting => ?_, ?_⟩
  · rw [owner, follows.length]
    exact old.newest
  · intro _ _ d member
    rw [newest_congr follows.length, captures] at member
    exact stopNewest_told member
  · rw [started, follows.length]
    exact old.answered
  · rcases task with same | same
    · cases same.symm.trans awaiting
    · cases same.symm.trans awaiting
  · rw [started]
    exact fun i isStarted d => old.others follows owner isStarted

/-- The gate is given up, and with it what the display could still join. -/
theorem Governed.release (old : s.Governed) (busy : s.task ≠ .free) (task : t.task = .free ∨ t.task = .joined)
    (handle : t.captureHandle = s.captureHandle) (started : t.started = s.started) (follows : s.Follows t)
    (told : ∀ i ∈ s.started, s.owner = some i → ∀ d, t.captures[i]? = some d → d.stage.captures = true → d.stopFlag = true) :
    t.Governed := by
  have noHandle : t.captureHandle = none := handle.trans (old.busy busy)
  have noOwner : t.owner = none := by
    unfold owner
    rcases task with same | same
    · rw [same]
      exact noHandle
    · rw [same]
  refine ⟨fun _ => noHandle, fun i owns => ?_, fun previous stopping => ?_, ?_, fun i awaiting => ?_, ?_⟩
  · rw [noOwner] at owns
    cases owns
  · rcases task with same | same
    · rw [same] at stopping
      rcases stopping with stopping | stopping <;> cases stopping
    · rw [same] at stopping
      rcases stopping with stopping | stopping <;> cases stopping
  · rw [started, follows.length]
    exact old.answered
  · rcases task with same | same
    · cases same.symm.trans awaiting
    · cases same.symm.trans awaiting
  · rw [started]
    intro i isStarted d member captures _
    by_cases owns : s.owner = some i
    · exact told i isStarted owns d member captures
    · obtain ⟨c, before, touched⟩ := follows.each i d member
      exact touched.quieter.stopFlag (old.told i isStarted c before (touched.quieter.captures captures) owns)

theorem Governed.next (old : s.Governed) {action : Action U} (step : s.next action = some t) : t.Governed := by
  have ended : ∀ {previous : Option Nat}, s.owner = previous → (∀ i ∈ previous, s.Ended i) → ∀ i ∈ s.started, s.owner = some i →
      ∀ d : WaylandCapture U, s.captures[i]? = some d → d.stage.captures = true → d.stopFlag = true := by
    intro previous same isEnded i _ owns d member captures
    rw [ended_captures (isEnded i (same.symm.trans owns)) member] at captures
    cases captures
  -- a start that has not been answered is none that must be told
  have unanswered : ∀ {j : Nat}, s.task = .awaiting j → ∀ i ∈ s.started, s.owner ≠ some i := by
    intro j awaiting i started owns
    unfold owner at owns
    rw [awaiting] at owns
    cases owns
    exact old.awaited j awaiting started
  cases next_turn step with
  | calm task handle _ started _ _ follows => exact old.calm task handle started follows
  | beginStart free _ => exact old.begin free rfl rfl rfl (.inl rfl)
  | beginShutdown free => exact old.begin free rfl rfl rfl (.inr rfl)
  | @join previous joining isEnded =>
    have owner : s.owner = previous := by unfold owner; rw [joining]
    exact old.release (by rw [joining]; simp) (.inr rfl) rfl rfl (.same rfl) (ended owner isEnded)
  | @removeOutput previous closing isEnded =>
    have owner : s.owner = previous := by unfold owner; rw [closing]
    exact old.release (by rw [closing]; simp) (.inl rfl) rfl rfl (.same rfl) (ended owner isEnded)
  | refused joined =>
    have owner : s.owner = none := by unfold owner; rw [joined]
    exact old.release (by rw [joined]; simp) (.inl rfl) rfl rfl (.same rfl) fun i _ owns => by rw [owner] at owns; cases owns
  | cancelJoined joined =>
    have owner : s.owner = none := by unfold owner; rw [joined]
    exact old.release (by rw [joined]; simp) (.inl rfl) rfl rfl (.same rfl) fun i _ owns => by rw [owner] at owns; cases owns
  | failed awaiting _ _ =>
    exact old.release (by rw [awaiting]; simp) (.inl rfl) rfl rfl (dropUpdates_follows rfl) fun i started owns =>
      absurd owns (unanswered awaiting i started)
  | cancelAwaiting awaiting =>
    exact old.release (by rw [awaiting]; simp) (.inl rfl) rfl rfl (dropUpdates_follows rfl) fun i started owns =>
      absurd owns (unanswered awaiting i started)
  | @cancelStart previous joining =>
    refine old.release (by rw [joining]; simp) (.inl rfl) rfl rfl (.same rfl) fun i _ owns d member _ => ?_
    have last : s.newest = i := by
      unfold CaptureThreads.newest
      rw [← old.newest i owns]
      rfl
    exact old.stopping previous (.inl joining) d (by rw [last]; exact member)
  | startCapture spawned joined isOpen =>
    have owner : s.owner = none := by unfold owner; rw [joined]
    have noHandle := old.busy (by rw [joined]; simp)
    have longer : (s.captures ++ [start spawned]).length = s.captures.length + 1 := List.length_append
    have answered : ∀ i ∈ s.started, i < (s.captures ++ [start spawned]).length := by
      intro i started
      have before := old.answered i started
      omega
    have told : ∀ i ∈ s.started, ∀ c : WaylandCapture U, (s.captures ++ [start spawned])[i]? = some c →
        c.stage.captures = true → c.stopFlag = true := by
      intro i started c member captures
      rcases push_captures (t := { s with captures := s.captures ++ [start spawned] }) rfl member with before | ⟨isNew, _⟩
      · exact old.told i started c before captures (by rw [owner]; simp)
      · exact absurd isNew (Nat.ne_of_lt (old.answered i started))
    cases spawned with
    | false =>
      refine ⟨fun _ => noHandle, fun i owns => ?_, fun _ stopping => ?_, answered, fun i awaiting => ?_,
        fun i started c member captures _ => told i started c member captures⟩
      · cases owns.symm.trans noHandle
      · rcases stopping with stopping | stopping <;> cases stopping
      · cases awaiting
    | true =>
      refine ⟨fun _ => noHandle, fun i owns => ?_, fun _ stopping => ?_, answered, fun i awaiting started => ?_,
        fun i started c member captures _ => told i started c member captures⟩
      · cases owns
        exact longer.symm
      · rcases stopping with stopping | stopping <;> cases stopping
      · cases awaiting
        exact absurd (old.answered _ started) (Nat.lt_irrefl _)
  | @started i awaiting =>
    have owner : s.owner = some i := by unfold owner; rw [awaiting]
    have newest := old.newest i owner
    refine ⟨fun busy => absurd rfl busy, fun i owns => old.newest i (owner.trans owns), fun _ stopping => ?_,
      fun j isStarted => ?_, fun _ awaiting => ?_, fun j isStarted c member captures other => ?_⟩
    · rcases stopping with stopping | stopping <;> cases stopping
    · rcases List.mem_cons.mp isStarted with rfl | before
      · exact newest ▸ Nat.lt_succ_self _
      · exact old.answered j before
    · cases awaiting
    · rcases List.mem_cons.mp isStarted with rfl | before
      · exact absurd rfl other
      · exact old.told j before c member captures fun owns => other (owner.symm.trans owns)

theorem governed_runs : (runs U).Inductive Governed where
  base := by
    rintro _ rfl
    refine ⟨fun _ => rfl, fun i owns => ?_, fun _ stopping => ?_, nofun, fun i awaiting => ?_, nofun⟩
    · cases owns
    · rcases stopping with stopping | stopping <;> cases stopping
    · cases awaiting
  keep _ _ _ old step := old.next step

/-- The display can join every thread that captures, and has removed its output only when there is none. -/
structure Joins (s : CaptureThreads U) : Prop where
  owned : ∀ (i : Nat) (c : WaylandCapture U), s.captures[i]? = some c → c.stage.captures = true → s.owner = some i
  closing : ∀ previous, s.task = .shutdown previous → s.closed = true
  removed : s.removed = true → s.closed = true ∧ (s.task = .free ∨ ∃ previous, s.task = .shutdown previous) ∧
    ∀ (i : Nat) (c : WaylandCapture U), s.captures[i]? = some c → c.stage.captures = false

theorem Follows.silent (follows : s.Follows t)
    (silent : ∀ (i : Nat) (c : WaylandCapture U), s.captures[i]? = some c → c.stage.captures = false)
    (member : t.captures[i]? = some d) : d.stage.captures = false := by
  obtain ⟨c, before, touched⟩ := follows.each i d member
  refine Bool.eq_false_iff.mpr fun captures => ?_
  have stopped := silent i c before
  rw [touched.quieter.captures captures] at stopped
  cases stopped

/-- No thread captures when the one that the display can join does not. -/
theorem Joins.silent (old : s.Joins) (isOver : ∀ i, s.owner = some i → ∀ c : WaylandCapture U, s.captures[i]? = some c →
    c.stage.captures = false) (i : Nat) (c : WaylandCapture U) (member : s.captures[i]? = some c) :
    c.stage.captures = false := by
  refine Bool.eq_false_iff.mpr fun captures => ?_
  have stopped := isOver i (old.owned i c member captures) c member
  rw [captures] at stopped
  cases stopped

/-- A step that keeps what the display can join. -/
theorem Joins.keep (old : s.Joins) (follows : s.Follows t) (owner : t.owner = s.owner) (removed : t.removed = s.removed)
    (closing : ∀ previous, t.task = .shutdown previous → t.closed = true)
    (later : s.removed = true → t.closed = true ∧ (t.task = .free ∨ ∃ previous, t.task = .shutdown previous)) : t.Joins where
  owned i d member captures := by
    obtain ⟨c, before, touched⟩ := follows.each i d member
    rw [owner]
    exact old.owned i c before (touched.quieter.captures captures)
  closing := closing
  removed isRemoved := by
    have was := removed.symm.trans isRemoved
    exact ⟨(later was).1, (later was).2, fun i d => follows.silent (old.removed was).2.2⟩

/-- A step to a state in which no thread captures. -/
theorem Joins.silenced (silent : ∀ (i : Nat) (c : WaylandCapture U), t.captures[i]? = some c → c.stage.captures = false)
    (open_ : t.task = .free ∨ t.task = .joined) (removed : t.removed = true → t.closed = true ∧ t.task = .free) : t.Joins where
  owned i c member captures := by
    rw [silent i c member] at captures
    cases captures
  closing previous isShutdown := by
    rcases open_ with task | task
    · rw [task] at isShutdown
      cases isShutdown
    · rw [task] at isShutdown
      cases isShutdown
  removed isRemoved := ⟨(removed isRemoved).1, .inl (removed isRemoved).2, silent⟩

theorem Joins.next (old : s.Joins) (refuses : ∀ (i : Nat) (c : WaylandCapture U), s.captures[i]? = some c → c.Refuses)
    {action : Action U} (uncancelled : action ≠ .cancel) (step : s.next action = some t) : t.Joins := by
  have stays : s.removed = true → s.closed = true := fun isRemoved => (old.removed isRemoved).1
  -- no start is under way once the output is removed
  have working : s.task ≠ .free → (∀ previous, s.task ≠ .shutdown previous) → ¬ s.removed = true := by
    intro busy other isRemoved
    rcases (old.removed isRemoved).2.1 with free | ⟨previous, closing⟩
    · exact busy free
    · exact other previous closing
  have ended : ∀ {previous : Option Nat}, s.owner = previous → (∀ i ∈ previous, s.Ended i) →
      ∀ (i : Nat) (c : WaylandCapture U), s.captures[i]? = some c → c.stage.captures = false := fun same isEnded =>
    old.silent fun i owns _ member => ended_captures (isEnded i (same.symm.trans owns)) member
  cases next_turn step with
  | @calm _ _ task handle removed _ closed _ follows =>
    have owner : t.owner = s.owner := by
      unfold CaptureThreads.owner
      rw [task, handle]
    refine old.keep follows owner removed (fun previous closing => closed (old.closing previous (task.symm.trans closing)))
      fun isRemoved => ⟨closed (stays isRemoved), ?_⟩
    rw [task]
    exact (old.removed isRemoved).2.1
  | beginStart free isOpen =>
    refine old.keep (stopNewest_follows rfl) (by unfold owner; rw [free]) rfl (fun _ closing => by cases closing) fun isRemoved => ?_
    rw [stays isRemoved] at isOpen
    cases isOpen
  | beginShutdown free =>
    exact old.keep (stopNewest_follows rfl) (by unfold owner; rw [free]) rfl (fun _ _ => rfl) fun _ => ⟨rfl, .inr ⟨_, rfl⟩⟩
  | @join previous joining isEnded =>
    have owner : s.owner = previous := by unfold owner; rw [joining]
    exact .silenced (ended owner isEnded) (.inr rfl) fun isRemoved =>
      absurd isRemoved (working (by rw [joining]; simp) (by rw [joining]; simp))
  | @removeOutput previous closing isEnded =>
    have owner : s.owner = previous := by unfold owner; rw [closing]
    exact .silenced (ended owner isEnded) (.inl rfl) fun _ => ⟨old.closing previous closing, rfl⟩
  | refused joined =>
    have owner : s.owner = none := by unfold owner; rw [joined]
    exact .silenced (ended owner fun _ member => by cases member) (.inl rfl) fun isRemoved =>
      absurd isRemoved (working (by rw [joined]; simp) (by rw [joined]; simp))
  | startCapture spawned joined isOpen =>
    have owner : s.owner = none := by unfold owner; rw [joined]
    have silent := ended owner fun _ member => by cases member
    refine ⟨fun i c member captures => ?_, fun previous closing => ?_, fun isRemoved =>
      absurd isRemoved (working (by rw [joined]; simp) (by rw [joined]; simp))⟩
    · rcases push_captures (t := { s with captures := s.captures ++ [start spawned] }) rfl member with before | ⟨rfl, rfl⟩
      · rw [silent i c before] at captures
        cases captures
      · cases spawned with
        | false => cases captures
        | true => rfl
    · cases spawned with
      | false => cases closing
      | true => cases closing
  | @started i awaiting =>
    have owner : s.owner = some i := by unfold owner; rw [awaiting]
    refine old.keep (.same rfl) owner.symm rfl (fun _ closing => by cases closing) fun isRemoved =>
      absurd isRemoved (working (by rw [awaiting]; simp) (by rw [awaiting]; simp))
  | @failed i c awaiting member info =>
    have owner : s.owner = some i := by unfold owner; rw [awaiting]
    have silent := old.silent fun j owns other before => by
      cases Option.some.inj (owner.symm.trans owns)
      cases Option.some.inj (member.symm.trans before)
      exact refuses i c member info
    exact .silenced (fun j d => (dropUpdates_follows rfl).silent silent) (.inl rfl) fun isRemoved =>
      absurd isRemoved (working (by rw [awaiting]; simp) (by rw [awaiting]; simp))
  | cancelStart _ => exact absurd rfl uncancelled
  | cancelJoined _ => exact absurd rfl uncancelled
  | cancelAwaiting _ => exact absurd rfl uncancelled

/-- Even when starts are cancelled half way, a thread whose start was answered, and that captures and was not told to stop,
is the newest one, and the display can join it. -/
theorem newest_capture_governed (reachable : (runs U).Reach s) (started : i ∈ s.started) (member : s.captures[i]? = some c)
    (captures : c.stage.captures = true) (stopFlag : c.stopFlag = false) : s.owner = some i ∧ i + 1 = s.captures.length := by
  have governed := governed_runs.reach reachable
  have owns : s.owner = some i := by
    refine Classical.byContradiction fun other => ?_
    have told := governed.told i started c member captures other
    rw [stopFlag] at told
    cases told
  exact ⟨owns, governed.newest i owns⟩

/-- A start that is cancelled while it waits for its thread, and one after it, whose session then ends. -/
def cancelledStart : List (Action Nat) :=
  firstStart ++ [Action.cancel, .beginStart, .join, .startCapture true, .thread 1 .answer, .answered, .dropUpdates 1]

theorem newest_capture_governed_cancelled : ∃ s, ∃ c d : WaylandCapture Nat, StepSystem.exec next init cancelledStart = some s ∧
    s.captures[0]? = some c ∧ c.stage.captures = true ∧ s.captures[1]? = some d ∧ d.stage.captures = true ∧
      d.received = false ∧ s.owner = some 1 := by
  obtain ⟨s, c, d, run, started, old, member, facts⟩ : ∃ s, ∃ c d : WaylandCapture Nat, StepSystem.exec next init cancelledStart = some s ∧
      1 ∈ s.started ∧ s.captures[0]? = some c ∧ s.captures[1]? = some d ∧ c.stage.captures = true ∧
        d.stage.captures = true ∧ d.stopFlag = false ∧ d.received = false :=
    ⟨_, _, _, rfl, List.mem_cons_self, rfl, rfl, rfl, rfl, rfl, rfl⟩
  obtain ⟨others, captures, stopFlag, gone⟩ := facts
  have reachable : (runs Nat).Reach s := StepSystem.exec_reach cancelledStart (.start rfl) run
  exact ⟨s, c, d, run, old, others, member, captures, gone,
    (newest_capture_governed reachable started member captures stopFlag).1⟩

theorem joins_runs : ((runs U).guarded fun _ action => action ≠ .cancel).Inductive fun s =>
    s.Joins ∧ ∀ (i : Nat) (c : WaylandCapture U), s.captures[i]? = some c → c.Refuses where
  base := by
    rintro _ rfl
    refine ⟨⟨fun i c member => ?_, fun _ closing => ?_, fun isRemoved => ?_⟩, fun i c member => ?_⟩
    · cases member
    · cases closing
    · cases isRemoved
    · cases member
  keep s action t old step := ⟨old.1.next old.2 step.1 step.2, refuses_runs.keep s action t old.2 step.2⟩

/-- Where no start is cancelled half way, no two threads capture at the same time, and the display has removed its
output only when none does. -/
theorem captures_exclusive (reachable : ((runs U).guarded fun _ action => action ≠ .cancel).Reach s) :
    (∀ (i j : Nat) (c d : WaylandCapture U), s.captures[i]? = some c → s.captures[j]? = some d → c.stage.captures = true →
      d.stage.captures = true → i = j) ∧
    (s.removed = true → ∀ c ∈ s.captures, c.stage.captures = false) := by
  obtain ⟨joins, _⟩ := joins_runs.reach reachable
  constructor
  · intro i j c d first second captures alsoCaptures
    exact Option.some.inj ((joins.owned i c first captures).symm.trans (joins.owned j d second alsoCaptures))
  · intro isRemoved c member
    obtain ⟨i, at_⟩ := List.getElem?_of_mem member
    exact (joins.removed isRemoved).2.2 i c at_

instance : DecidablePred fun action : Action Nat => action ≠ .cancel
  | .cancel => isFalse fun other => other rfl
  | .tick _ | .thread _ _ | .close | .beginStart | .join | .startCapture _ | .answered | .beginShutdown | .removeOutput
  | .displaySend _ | .nextUpdate _ | .dropUpdates _ => isTrue (by simp)

/-- A capture, the capture of a reactivation after it, and the shutdown. -/
def twoCaptures : List (Action Nat) :=
  firstStart ++ [Action.thread 0 .answer, .answered, .beginStart, .thread 0 (.finish none), .thread 0 .proceed, .join,
    .startCapture true, .thread 1 .answer, .answered, .close, .beginShutdown, .thread 1 (.finish none),
    .thread 1 .proceed, .removeOutput]

theorem captures_exclusive_shutdown : ∃ s, StepSystem.exec next init twoCaptures = some s ∧ s.removed = true ∧
    s.captures.length = 2 ∧ ∀ c ∈ s.captures, c.stage.captures = false := by
  obtain ⟨s, run, plain, removed, two⟩ : ∃ s, StepSystem.exec (fun s action => if action ≠ .cancel then next s action else none)
      init twoCaptures = some s ∧ StepSystem.exec next init twoCaptures = some s ∧ s.removed = true ∧
        s.captures.length = 2 := ⟨_, rfl, rfl, rfl, rfl⟩
  have reachable : ((runs Nat).guarded fun _ action => action ≠ .cancel).Reach s :=
    StepSystem.guarded_exec_reach twoCaptures (.start rfl) run
  exact ⟨s, plain, removed, two, (captures_exclusive reachable).2 removed⟩

end CaptureThreads

end HyprRdp
