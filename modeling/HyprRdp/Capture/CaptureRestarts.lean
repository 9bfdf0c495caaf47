import HyprRdp.Capture.CaptureThreads

namespace HyprRdp

/-- The restarts that a capture thread makes before it gives up. -/
def captureRestartBudget : Nat := captureSessionRestartLimit - 1

theorem restart_decided {failure : CaptureFailure} {stopFlagSet : Bool} {restarts next : Nat}
    (decided : captureSessionRestartDecision failure stopFlagSet restarts = .restart next) :
    stopFlagSet = false ∧ next = restarts + 1 ∧ next ≤ captureRestartBudget := by
  simp only [captureSessionRestartDecision] at decided
  split at decided
  · cases decided
  · rename_i allowed
    split at decided
    · cases decided
    · rename_i below
      cases decided
      unfold captureRestartBudget captureSessionRestartLimit
      unfold captureSessionRestartLimit at below
      exact ⟨Bool.eq_false_iff.mpr fun set => allowed (.inl set), by omega, by omega⟩

theorem giveUp_decided {failure : CaptureFailure} {stopFlagSet : Bool} {restarts next : Nat}
    (decided : captureSessionRestartDecision failure stopFlagSet restarts = .giveUp next) :
    captureRestartBudget ≤ restarts := by
  simp only [captureSessionRestartDecision] at decided
  split at decided
  · cases decided
  · split at decided
    · rename_i reached
      unfold captureRestartBudget captureSessionRestartLimit
      unfold captureSessionRestartLimit at reached
      omega
    · cases decided

namespace WaylandCapture

variable {U : Type} {now : Nat} {c d : WaylandCapture U}

/-- So many restarts count at a failure. -/
structure Due (log : List Payment) (due spent : Nat) : Prop where
  after : ∀ last ∈ log.head?, last.made ≤ due
  counts : ∃ count, Rationed captureRestartBudgetReset captureRestartBudget log count ∧
    spent = if ∀ last ∈ log.head?, last.made + captureRestartBudgetReset ≤ due then 0 else count

def Counted (now : Nat) (c : WaylandCapture U) : Prop :=
  match c.stage with
  | .session | .failed _ | .pausing => Rationed captureRestartBudgetReset captureRestartBudget c.log c.restarts
  | .replenished _ due => due ≤ now ∧ Due c.log due c.restarts
  | .restarting due =>
    due ≤ now ∧ ∃ spent, c.restarts = spent + 1 ∧ spent + 1 ≤ captureRestartBudget ∧ Due c.log due spent
  | .returned | .unasked | .dying | .ended =>
    ∃ count, Rationed captureRestartBudgetReset captureRestartBudget c.log count

structure Budgeted (now : Nat) (c : WaylandCapture U) : Prop where
  last : c.lastRestart = c.log.head?.map Payment.made
  past : ∀ last ∈ c.log.head?, last.made ≤ now
  counted : c.Counted now
  gaveUp : ∀ due, c.gaveUp = some due → c.stage.captures = false ∧ Due c.log due captureRestartBudget

theorem Due.rationed {log : List Payment} {due spent : Nat} (isDue : Due log due spent) :
    ∃ count, Rationed captureRestartBudgetReset captureRestartBudget log count := by
  obtain ⟨count, rationed, _⟩ := isDue.counts
  exact ⟨count, rationed⟩

theorem Due.spent_le {log : List Payment} {due spent : Nat} (isDue : Due log due spent) :
    spent ≤ captureRestartBudget := by
  obtain ⟨count, rationed, rfl⟩ := isDue.counts
  split
  · exact Nat.zero_le _
  · exact rationed.count_le

theorem Budgeted.rationed (budgeted : c.Budgeted now) :
    ∃ count, Rationed captureRestartBudgetReset captureRestartBudget c.log count := by
  have counted := budgeted.counted
  unfold Counted at counted
  split at counted
  · exact ⟨_, counted⟩
  · exact ⟨_, counted⟩
  · exact ⟨_, counted⟩
  · exact counted.2.rationed
  · obtain ⟨_, spent, _, _, isDue⟩ := counted
    exact isDue.rationed
  all_goals exact counted

theorem Counted.later {then_ : Nat} (passed : now ≤ then_) (counted : c.Counted now) : c.Counted then_ := by
  unfold Counted at counted ⊢
  split at counted
  · exact counted
  · exact counted
  · exact counted
  · exact ⟨Nat.le_trans counted.1 passed, counted.2⟩
  · exact ⟨Nat.le_trans counted.1 passed, counted.2⟩
  all_goals exact counted

theorem Budgeted.later {then_ : Nat} (passed : now ≤ then_) (budgeted : c.Budgeted now) : c.Budgeted then_ where
  last := budgeted.last
  past last member := Nat.le_trans (budgeted.past last member) passed
  counted := budgeted.counted.later passed
  gaveUp := budgeted.gaveUp

theorem start_budgeted (spawned : Bool) : (start spawned : WaylandCapture U).Budgeted now where
  last := rfl
  past last member := by cases member
  counted := by
    cases spawned with
    | false => exact ⟨0, .unused⟩
    | true => exact .unused
  gaveUp due gave := by cases gave

/-- The restarts that still count once the thread has read how long ago the last one was. -/
theorem Budgeted.replenished (budgeted : c.Budgeted now) {failure : CaptureFailure} (atStage : c.stage = .failed failure) :
    Due c.log now (match c.lastRestart with
      | some last => replenishedRestarts c.restarts (now - last)
      | none => c.restarts) := by
  have counted := budgeted.counted
  unfold Counted at counted
  rw [atStage] at counted
  refine ⟨budgeted.past, c.restarts, counted, ?_⟩
  rw [budgeted.last]
  cases isLog : c.log with
  | nil =>
    rw [isLog] at counted
    exact counted.count_nil.trans (by rw [counted.count_nil, ite_self])
  | cons last log =>
    have made : last.made ≤ now := budgeted.past last (by rw [isLog]; rfl)
    have apart : captureRestartBudgetReset ≤ now - last.made ↔
        ∀ other ∈ (last :: log).head?, other.made + captureRestartBudgetReset ≤ now := by
      constructor
      · intro long other member
        cases member
        omega
      · intro every
        have := every last rfl
        omega
    exact if_congr apart rfl rfl

theorem counted_finished (isOver : c.stage.captures = false)
    (rationed : ∃ count, Rationed captureRestartBudgetReset captureRestartBudget c.log count) : c.Counted now := by
  unfold Counted
  split
  iterate 5
    rename_i atStage
    rw [atStage] at isOver
    cases isOver
  all_goals exact rationed

/-- A thread that leaves its loop keeps its restarts. -/
theorem Budgeted.finished (budgeted : c.Budgeted now) (sameLog : d.log = c.log) (sameLast : d.lastRestart = c.lastRestart)
    (isOver : d.stage.captures = false) (gaveUp : ∀ due, d.gaveUp = some due → Due c.log due captureRestartBudget) :
    d.Budgeted now where
  last := by
    rw [sameLast, sameLog]
    exact budgeted.last
  past := by
    rw [sameLog]
    exact budgeted.past
  counted := counted_finished isOver (by rw [sameLog]; exact budgeted.rationed)
  gaveUp due gave := ⟨isOver, by rw [sameLog]; exact gaveUp due gave⟩

theorem Budgeted.step {choice : CaptureChoice U} (budgeted : c.Budgeted now) (step : Step now c choice d) :
    d.Budgeted now := by
  have counted := budgeted.counted
  unfold Counted at counted
  have old : ∀ due, c.gaveUp = some due → Due c.log due captureRestartBudget := fun due gave =>
    (budgeted.gaveUp due gave).2
  have going : ∀ {P : Nat → Prop}, c.stage.captures = true → ∀ due, c.gaveUp = some due → P due := by
    intro P captures due gave
    rw [(budgeted.gaveUp due gave).1] at captures
    cases captures
  cases step with
  | push _ _ => exact ⟨budgeted.last, budgeted.past, budgeted.counted, budgeted.gaveUp⟩
  | answer _ _ => exact ⟨budgeted.last, budgeted.past, budgeted.counted, budgeted.gaveUp⟩
  | finish _ => exact budgeted.finished rfl rfl rfl old
  | propagate _ _ => exact budgeted.finished rfl rfl rfl old
  | readFlag _ => exact budgeted.finished rfl rfl (by dsimp only; split <;> rfl) old
  | probe _ => exact budgeted.finished rfl rfl (by dsimp only; split <;> rfl) old
  | signal _ => exact budgeted.finished rfl rfl rfl old
  | fail inSession =>
    rw [inSession] at counted
    exact ⟨budgeted.last, budgeted.past, counted, going (by rw [inSession]; rfl)⟩
  | replenish atStage =>
    exact ⟨budgeted.last, budgeted.past, ⟨Nat.le_refl now, budgeted.replenished atStage⟩, going (by rw [atStage]; rfl)⟩
  | restart atStage decided =>
    rw [atStage] at counted
    obtain ⟨_, rfl, room⟩ := restart_decided decided
    exact ⟨budgeted.last, budgeted.past, ⟨counted.1, c.restarts, rfl, room, counted.2⟩, going (by rw [atStage]; rfl)⟩
  | giveUp atStage decided =>
    rw [atStage] at counted
    have all : c.restarts = captureRestartBudget := Nat.le_antisymm counted.2.spent_le (giveUp_decided decided)
    rw [all] at counted
    refine budgeted.finished rfl rfl rfl fun due gave => ?_
    cases gave
    exact counted.2
  | pause atStage =>
    rw [atStage] at counted
    obtain ⟨late, spent, count, room, isDue⟩ := counted
    obtain ⟨before, rationed, counts⟩ := isDue.counts
    have paid := rationed.pay late isDue.after counts room
    rw [← count] at paid
    refine ⟨rfl, fun last member => ?_, paid, going (by rw [atStage]; rfl)⟩
    cases member
    exact Nat.le_refl now
  | resume atStage _ =>
    rw [atStage] at counted
    exact ⟨budgeted.last, budgeted.past, counted, going (by rw [atStage]; rfl)⟩

theorem Budgeted.touched (budgeted : c.Budgeted now) (touched : c.Touched now d) : d.Budgeted now := by
  have same : ∀ e : WaylandCapture U, e.log = c.log → e.lastRestart = c.lastRestart → e.restarts = c.restarts →
      e.stage = c.stage → e.gaveUp = c.gaveUp → e.Budgeted now := by
    intro e log last restarts stage gaveUp
    refine ⟨by rw [log, last]; exact budgeted.last, by rw [log]; exact budgeted.past, ?_, ?_⟩
    · unfold Counted
      rw [log, restarts, stage]
      exact budgeted.counted
    · rw [log, stage, gaveUp]
      exact budgeted.gaveUp
  cases touched with
  | kept => exact budgeted
  | thread choice step => exact budgeted.step (step_cases step)
  | stop => exact same _ rfl rfl rfl rfl rfl
  | dropUpdates => exact same _ rfl rfl rfl rfl rfl
  | displaySend update _ => exact same _ rfl rfl rfl rfl rfl
  | nextUpdate displaySends _ next =>
    rcases nextUpdate_cases next with ⟨update, queue, _, _, rfl⟩ | ⟨_, _, _, rfl | rfl⟩
    · exact same _ rfl rfl rfl rfl rfl
    · exact same _ rfl rfl rfl rfl rfl
    · exact same _ rfl rfl rfl rfl rfl

end WaylandCapture

namespace CaptureThreads

open WaylandCapture

theorem budgeted_runs {U : Type} :
    (runs U).Inductive fun s => ∀ (i : Nat) (c : WaylandCapture U), s.captures[i]? = some c → c.Budgeted s.now :=
  each_capture (fun _ spawned => start_budgeted spawned) (fun _ _ _ passed budgeted => budgeted.later passed)
    fun _ _ _ budgeted touched => budgeted.touched touched

/-- Whatever the compositor does, a capture thread restarts its session at most four times within thirty seconds. It gives
up at a failure only if this failure and the three before it each came within thirty seconds of the restart before. -/
theorem restarts_rationed {U : Type} {s : CaptureThreads U} (reachable : (runs U).Reach s) {i : Nat}
    {c : WaylandCapture U} (member : s.captures[i]? = some c) :
    (∀ j (later earlier : Payment), c.log[j]? = some later → c.log[j + 4]? = some earlier → earlier.made + 30000000000 ≤ later.made) ∧
    ∀ failed, c.gaveUp = some failed → ∀ j < 4, ∃ due, ∃ restart : Payment, (failed :: c.log.map Payment.due)[j]? = some due ∧
      c.log[j]? = some restart ∧ due < restart.made + 30000000000 := by
  have budgeted := budgeted_runs.reach reachable i c member
  constructor
  · intro j later earlier isLater isEarlier
    obtain ⟨count, rationed⟩ := budgeted.rationed
    exact rationed.spread isLater isEarlier
  · intro failed gave j below
    obtain ⟨count, rationed, counts⟩ := (budgeted.gaveUp failed gave).2.counts
    have hurried : ¬ ∀ last ∈ c.log.head?, last.made + captureRestartBudgetReset ≤ failed := by
      intro every
      rw [if_pos every] at counts
      cases counts
    rw [if_neg hurried] at counts
    subst counts
    cases j with
    | zero =>
      obtain ⟨last, isLast, soon⟩ : ∃ last ∈ c.log.head?, ¬ last.made + captureRestartBudgetReset ≤ failed := by
        by_contra none
        exact hurried fun last isLast => Classical.byContradiction fun soon => none ⟨last, isLast, soon⟩
      rw [Option.mem_def, List.head?_eq_getElem?] at isLast
      exact ⟨failed, last, rfl, isLast, Nat.lt_of_not_le soon⟩
    | succ j =>
      obtain ⟨later, earlier, isLater, isEarlier, soon⟩ := rationed.hurried (j := j) below
      refine ⟨later.due, earlier, ?_, isEarlier, soon⟩
      rw [List.getElem?_cons_succ, List.getElem?_map, isLater]
      rfl

def restartedSession : List (Action Nat) :=
  failedSession ++ [Action.thread 0 .proceed, .tick captureRestartPause, .thread 0 .proceed]

/-- Four restarts, each after the shortest pause, and the failure at which the thread gives up. -/
def hurriedSessions : List (Action Nat) := firstStart ++ (List.replicate 4 restartedSession).flatten ++ failedSession

theorem restarts_rationed_hurried : ∃ s, ∃ c : WaylandCapture Nat, StepSystem.exec next init hurriedSessions = some s ∧ s.captures[0]? = some c ∧
    c.gaveUp = some (4 * captureRestartPause) ∧ ∀ j < 4, ∃ due, ∃ restart : Payment,
      (4 * captureRestartPause :: c.log.map Payment.due)[j]? = some due ∧ c.log[j]? = some restart ∧
        due < restart.made + 30000000000 := by
  obtain ⟨s, c, run, member, gaveUp⟩ : ∃ s, ∃ c : WaylandCapture Nat, StepSystem.exec next init hurriedSessions = some s ∧
      s.captures[0]? = some c ∧ c.gaveUp = some (4 * captureRestartPause) := ⟨_, _, rfl, rfl, rfl⟩
  have reachable : (runs Nat).Reach s := StepSystem.exec_reach hurriedSessions (.start rfl) run
  exact ⟨s, c, run, member, gaveUp, (restarts_rationed reachable member).2 _ gaveUp⟩

end CaptureThreads

end HyprRdp
