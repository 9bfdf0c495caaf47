import Mathlib.Data.List.Induction
import Mathlib.Algebra.Order.Ring.Nat

namespace HyprRdp

/-- The queue depth with which a client suspends its acknowledgements, `u32::MAX`. -/
def suspendFrameAckQueueDepth : Nat := 2 ^ 32 - 1

def defaultMaxFramesInFlight : Nat := 3

/-- The flow-control fields of `EgfxShared`. The window counter is a `u32` and
wraps; the two 64-bit totals and the frame ids are plain naturals. -/
structure FrameFlow where
  maxFramesInFlight : Nat
  framesInFlight : Nat
  clientQueueDepth : Nat
  frameAckSuspended : Bool
  frameAckStreamEstablished : Bool
  lastQueuedFrameId : Nat
  lastAckedFrameId : Nat
  ackCutoffFrameId : Nat
  ackCutoffActive : Bool
  totalQueuedFrames : Nat
  totalAckedFrames : Nat
  deriving DecidableEq, Repr

namespace FrameFlow

def new (maxFramesInFlight : Nat) : FrameFlow where
  maxFramesInFlight := max maxFramesInFlight 1
  framesInFlight := 0
  clientQueueDepth := 0
  frameAckSuspended := false
  frameAckStreamEstablished := false
  lastQueuedFrameId := 0
  lastAckedFrameId := 0
  ackCutoffFrameId := 0
  ackCutoffActive := false
  totalQueuedFrames := 0
  totalAckedFrames := 0

def recordFrameQueued (s : FrameFlow) (frameId : Nat) : FrameFlow :=
  { s with
    lastQueuedFrameId := frameId
    framesInFlight := (s.framesInFlight + 1) % 2 ^ 32
    totalQueuedFrames := s.totalQueuedFrames + 1 }

/-- An acknowledgement at or below the cutoff belongs to a frame of a cleared queue. -/
def ackIsStale (s : FrameFlow) (frameId : Nat) : Bool :=
  s.ackCutoffActive && decide (frameId ≤ s.ackCutoffFrameId)

/-- The compare-exchange loop of the source lowers the window by one unless
it is empty; an acknowledgement that finds it empty is absorbed. -/
def takeFromWindow (s : FrameFlow) : FrameFlow :=
  if 0 < s.framesInFlight then
    { s with
      framesInFlight := s.framesInFlight - 1
      totalAckedFrames := s.totalAckedFrames + 1 }
  else s

def recordFrameAck (s : FrameFlow) (frameId queueDepth : Nat) : FrameFlow :=
  let ackSuspended := queueDepth == suspendFrameAckQueueDepth
  let s := { s with clientQueueDepth := queueDepth, frameAckSuspended := ackSuspended }
  if s.ackIsStale frameId then s
  else
    let s := { s with lastAckedFrameId := frameId }
    if ackSuspended then
      { s with
        totalAckedFrames := s.totalQueuedFrames
        framesInFlight := 0
        frameAckStreamEstablished := false }
    else { s with frameAckStreamEstablished := true }.takeFromWindow

def clearFrameQueue (s : FrameFlow) : FrameFlow :=
  let s :=
    if s.totalAckedFrames < s.totalQueuedFrames then
      { s with
        ackCutoffFrameId := s.lastQueuedFrameId
        ackCutoffActive := true
        totalAckedFrames := s.totalQueuedFrames }
    else s
  { s with framesInFlight := 0, clientQueueDepth := 0, frameAckSuspended := false }

def resetFrameQueueForNewClient (s : FrameFlow) : FrameFlow :=
  { s with
    framesInFlight := 0
    clientQueueDepth := 0
    frameAckSuspended := false
    frameAckStreamEstablished := false
    lastQueuedFrameId := 0
    lastAckedFrameId := 0
    ackCutoffFrameId := 0
    ackCutoffActive := false
    totalQueuedFrames := 0
    totalAckedFrames := 0 }

def shouldBackpressureFrames (s : FrameFlow) : Bool :=
  !s.frameAckSuspended && decide (max s.maxFramesInFlight 1 ≤ s.framesInFlight)

def preferredFrameRate (s : FrameFlow) (targetFps : Nat) : Nat :=
  let targetFps := max targetFps 1
  if s.frameAckSuspended then targetFps
  else if s.framesInFlight ≤ 1 then targetFps
  else
    let backpressurePercent := 100 / min (s.framesInFlight + 1) (2 ^ 32 - 1)
    max (min (targetFps * backpressurePercent) (2 ^ 32 - 1) / 100) 1

/-- What one acknowledgement can do: nothing to the counts when it is stale,
empty the window when it suspends, otherwise take one frame from it. -/
theorem recordFrameAck_cases (s : FrameFlow) (frameId queueDepth : Nat) :
    (s.ackIsStale frameId = true ∧ s.recordFrameAck frameId queueDepth =
      { s with
        clientQueueDepth := queueDepth
        frameAckSuspended := queueDepth == suspendFrameAckQueueDepth }) ∨
    (s.ackIsStale frameId = false ∧ queueDepth = suspendFrameAckQueueDepth ∧
      s.recordFrameAck frameId queueDepth =
      { s with
        clientQueueDepth := queueDepth
        frameAckSuspended := true
        lastAckedFrameId := frameId
        totalAckedFrames := s.totalQueuedFrames
        framesInFlight := 0
        frameAckStreamEstablished := false }) ∨
    (s.ackIsStale frameId = false ∧ queueDepth ≠ suspendFrameAckQueueDepth ∧
      s.recordFrameAck frameId queueDepth =
      { s with
        clientQueueDepth := queueDepth
        frameAckSuspended := false
        lastAckedFrameId := frameId
        frameAckStreamEstablished := true }.takeFromWindow) := by
  by_cases stale : s.ackIsStale frameId = true
  · refine Or.inl ⟨stale, ?_⟩
    simp only [recordFrameAck, ackIsStale] at stale ⊢
    rw [if_pos stale]
  have fresh : s.ackIsStale frameId = false := by simpa using stale
  simp only [recordFrameAck, ackIsStale] at fresh ⊢
  by_cases suspend : queueDepth = suspendFrameAckQueueDepth
  · exact Or.inr (Or.inl ⟨fresh, suspend, by simp [fresh, suspend]⟩)
  · have resumed : (queueDepth == suspendFrameAckQueueDepth) = false := beq_eq_false_iff_ne.mpr suspend
    exact Or.inr (Or.inr ⟨fresh, suspend, by simp [fresh, resumed]⟩)

theorem recordFrameAck_stale {s : FrameFlow} {frameId : Nat} (stale : s.ackIsStale frameId = true)
    (queueDepth : Nat) :
    (s.recordFrameAck frameId queueDepth).framesInFlight = s.framesInFlight ∧
      (s.recordFrameAck frameId queueDepth).totalAckedFrames = s.totalAckedFrames ∧
      (s.recordFrameAck frameId queueDepth).lastAckedFrameId = s.lastAckedFrameId := by
  rcases s.recordFrameAck_cases frameId queueDepth with ⟨_, same⟩ | ⟨fresh, _⟩ | ⟨fresh, _⟩
  · rw [same]; exact ⟨rfl, rfl, rfl⟩
  · rw [stale] at fresh; cases fresh
  · rw [stale] at fresh; cases fresh

/-- No acknowledgement touches the queueing side or the cutoff. -/
theorem recordFrameAck_queue (s : FrameFlow) (frameId queueDepth : Nat) :
    (s.recordFrameAck frameId queueDepth).totalQueuedFrames = s.totalQueuedFrames ∧
      (s.recordFrameAck frameId queueDepth).lastQueuedFrameId = s.lastQueuedFrameId ∧
      (s.recordFrameAck frameId queueDepth).ackCutoffFrameId = s.ackCutoffFrameId ∧
      (s.recordFrameAck frameId queueDepth).ackCutoffActive = s.ackCutoffActive ∧
      (s.recordFrameAck frameId queueDepth).maxFramesInFlight = s.maxFramesInFlight := by
  rcases s.recordFrameAck_cases frameId queueDepth with ⟨_, same⟩ | ⟨_, _, same⟩ | ⟨_, _, same⟩
  · rw [same]; exact ⟨rfl, rfl, rfl, rfl, rfl⟩
  · rw [same]; exact ⟨rfl, rfl, rfl, rfl, rfl⟩
  · rw [same, takeFromWindow]
    split <;> exact ⟨rfl, rfl, rfl, rfl, rfl⟩

/-- A clear empties the window and lifts a suspension; the cutoff moves to the
newest frame only when frames were still counted as outstanding. -/
theorem clearFrameQueue_eq (s : FrameFlow) :
    s.clearFrameQueue =
      { s with
        framesInFlight := 0
        clientQueueDepth := 0
        frameAckSuspended := false
        ackCutoffFrameId :=
          if s.totalAckedFrames < s.totalQueuedFrames then s.lastQueuedFrameId else s.ackCutoffFrameId
        ackCutoffActive := s.ackCutoffActive || decide (s.totalAckedFrames < s.totalQueuedFrames)
        totalAckedFrames :=
          if s.totalAckedFrames < s.totalQueuedFrames then s.totalQueuedFrames else s.totalAckedFrames } := by
  unfold clearFrameQueue
  split
  · rename_i outstanding
    simp [outstanding]
  · rename_i settled
    simp [settled]

/-- One call into the flow accounting. -/
inductive Op
  | queued (frameId : Nat)
  | ack (frameId queueDepth : Nat)
  | clear
  | reset
  deriving DecidableEq, Repr

def apply (s : FrameFlow) : Op → FrameFlow
  | .queued frameId => s.recordFrameQueued frameId
  | .ack frameId queueDepth => s.recordFrameAck frameId queueDepth
  | .clear => s.clearFrameQueue
  | .reset => s.resetFrameQueueForNewClient

def run (s : FrameFlow) (ops : List Op) : FrameFlow := ops.foldl apply s

theorem run_append (s : FrameFlow) (ops more : List Op) : s.run (ops ++ more) = (s.run ops).run more :=
  List.foldl_append

theorem run_snoc (s : FrameFlow) (ops : List Op) (op : Op) :
    s.run (ops ++ [op]) = (s.run ops).apply op := by
  rw [run_append]; rfl

/-- The ids handed to `recordFrameQueued`, oldest first. -/
def queuedIds (ops : List Op) : List Nat :=
  ops.filterMap fun
    | .queued frameId => some frameId
    | _ => none

theorem queuedIds_append (ops more : List Op) : queuedIds (ops ++ more) = queuedIds ops ++ queuedIds more :=
  List.filterMap_append

/-- The window counter and the two totals agree up to the 32-bit wrap. -/
structure Balanced (s : FrameFlow) : Prop where
  acked_le : s.totalAckedFrames ≤ s.totalQueuedFrames
  window : s.framesInFlight = (s.totalQueuedFrames - s.totalAckedFrames) % 2 ^ 32

theorem Balanced.takeFromWindow {s : FrameFlow} (balanced : s.Balanced) : s.takeFromWindow.Balanced := by
  obtain ⟨le, window⟩ := balanced
  unfold FrameFlow.takeFromWindow
  split
  · rename_i open'
    constructor
    · change s.totalAckedFrames + 1 ≤ s.totalQueuedFrames
      omega
    · change s.framesInFlight - 1 = (s.totalQueuedFrames - (s.totalAckedFrames + 1)) % 2 ^ 32
      omega
  · exact ⟨le, window⟩

theorem Balanced.apply {s : FrameFlow} (balanced : s.Balanced) (op : Op) : (s.apply op).Balanced := by
  have le := balanced.acked_le
  have window := balanced.window
  cases op with
  | queued frameId =>
    refine ⟨?_, ?_⟩
    · change s.totalAckedFrames ≤ s.totalQueuedFrames + 1
      omega
    · change (s.framesInFlight + 1) % 2 ^ 32 = (s.totalQueuedFrames + 1 - s.totalAckedFrames) % 2 ^ 32
      omega
  | ack frameId queueDepth =>
    simp only [FrameFlow.apply]
    rcases s.recordFrameAck_cases frameId queueDepth with ⟨_, same⟩ | ⟨_, _, same⟩ | ⟨_, _, same⟩
    · rw [same]; exact ⟨le, window⟩
    · rw [same]
      exact ⟨Nat.le_refl s.totalQueuedFrames, by simp⟩
    · rw [same]
      exact Balanced.takeFromWindow ⟨le, window⟩
  | clear =>
    simp only [FrameFlow.apply, clearFrameQueue_eq]
    constructor
    · change ite _ _ _ ≤ s.totalQueuedFrames
      split <;> omega
    · change 0 = (s.totalQueuedFrames - ite _ _ _) % 2 ^ 32
      split <;> omega
  | reset => exact ⟨Nat.le_refl 0, rfl⟩

theorem run_balanced (maxFrames : Nat) (ops : List Op) : ((new maxFrames).run ops).Balanced := by
  induction ops using List.reverseRecOn with
  | nil => exact ⟨Nat.le_refl 0, rfl⟩
  | append_singleton ops op ih =>
    rw [run_snoc]
    exact ih.apply op

/-- Frame ids go up for the whole life of the accounting, resets included. -/
def IncreasingIds (ops : List Op) : Prop := (queuedIds ops).Pairwise (· < ·)

instance (ops : List Op) : Decidable (IncreasingIds ops) := by unfold IncreasingIds; infer_instance

theorem IncreasingIds.prefix {ops more : List Op} (increasing : IncreasingIds (ops ++ more)) :
    IncreasingIds ops := by
  unfold IncreasingIds at increasing ⊢
  rw [queuedIds_append, List.pairwise_append] at increasing
  exact increasing.1

theorem IncreasingIds.lt_of_snoc {ops : List Op} {old frameId : Nat}
    (increasing : IncreasingIds (ops ++ [Op.queued frameId])) (member : old ∈ queuedIds ops) :
    old < frameId := by
  unfold IncreasingIds at increasing
  rw [queuedIds_append, List.pairwise_append] at increasing
  exact increasing.2.2 old member frameId (by simp [queuedIds])

/-- Once a frame was queued since the last reset, the id kept as the newest
one is the greatest id queued so far. -/
theorem run_lastQueued (maxFrames : Nat) {ops : List Op} (increasing : IncreasingIds ops)
    (queued : 0 < ((new maxFrames).run ops).totalQueuedFrames) :
    ((new maxFrames).run ops).lastQueuedFrameId ∈ queuedIds ops ∧
      ∀ frameId ∈ queuedIds ops, frameId ≤ ((new maxFrames).run ops).lastQueuedFrameId := by
  induction ops using List.reverseRecOn with
  | nil => exact absurd queued (Nat.lt_irrefl 0)
  | append_singleton ops op ih =>
    rw [run_snoc] at queued ⊢
    have earlier := ih increasing.prefix
    cases op with
    | queued frameId =>
      rw [queuedIds_append]
      refine ⟨by simp [queuedIds, apply, recordFrameQueued], ?_⟩
      intro old member
      rcases List.mem_append.mp member with before | last
      · exact (increasing.lt_of_snoc before).le
      · exact (List.mem_singleton.mp last).le
    | ack frameId queueDepth =>
      have queue := ((new maxFrames).run ops).recordFrameAck_queue frameId queueDepth
      simp only [apply, queue] at queued ⊢
      simpa [queuedIds] using earlier queued
    | clear =>
      simp only [apply, clearFrameQueue_eq] at queued ⊢
      simpa [queuedIds] using earlier queued
    | reset => exact absurd queued (Nat.lt_irrefl 0)

/-- An acknowledgement of this frame, whatever depth it carries, leaves the
accounting as it is. -/
def IgnoresAck (s : FrameFlow) (frameId : Nat) : Prop :=
  ∀ queueDepth,
    (s.recordFrameAck frameId queueDepth).framesInFlight = s.framesInFlight ∧
      (s.recordFrameAck frameId queueDepth).totalAckedFrames = s.totalAckedFrames ∧
      (s.recordFrameAck frameId queueDepth).lastAckedFrameId = s.lastAckedFrameId

/-- Until the next reset the cutoff of a clear that found frames outstanding
only moves up, to newer frames. -/
theorem run_cutoff (maxFrames : Nat) {before after : List Op}
    (increasing : IncreasingIds (before ++ .clear :: after)) (noReset : Op.reset ∉ after)
    (outstanding : ((new maxFrames).run before).totalAckedFrames <
      ((new maxFrames).run before).totalQueuedFrames) :
    let s := (new maxFrames).run (before ++ .clear :: after)
    s.ackCutoffActive = true ∧ ((new maxFrames).run before).lastQueuedFrameId ≤ s.ackCutoffFrameId ∧
      s.ackCutoffFrameId ≤ s.lastQueuedFrameId ∧ 0 < s.totalQueuedFrames := by
  induction after using List.reverseRecOn with
  | nil =>
    rw [run_snoc]
    simp only [apply, clearFrameQueue_eq, outstanding, if_true]
    exact ⟨by simp, le_rfl, le_rfl, Nat.zero_lt_of_lt outstanding⟩
  | append_singleton after op ih =>
    rw [← List.cons_append, ← List.append_assoc] at increasing ⊢
    have kept : Op.reset ∉ after := fun member => noReset (List.mem_append_left _ member)
    obtain ⟨active, lower, upper, queued⟩ := ih increasing.prefix kept
    rw [run_snoc]
    generalize previous : (new maxFrames).run (before ++ .clear :: after) = s at *
    cases op with
    | queued frameId =>
      have newest : s.lastQueuedFrameId < frameId := by
        have last := run_lastQueued maxFrames increasing.prefix (by rw [previous]; exact queued)
        rw [previous] at last
        exact increasing.lt_of_snoc last.1
      exact ⟨active, lower, upper.trans newest.le, Nat.succ_pos _⟩
    | ack frameId queueDepth =>
      have queue := s.recordFrameAck_queue frameId queueDepth
      simp only [apply, queue]
      exact ⟨active, lower, upper, queued⟩
    | clear =>
      simp only [apply, clearFrameQueue_eq, active, Bool.true_or, true_and]
      split
      · exact ⟨lower.trans upper, le_rfl, queued⟩
      · exact ⟨lower, upper, queued⟩
    | reset => exact absurd (List.mem_append_right _ (List.mem_singleton_self _)) noReset

/-- The totals are 64-bit counters; they cannot wrap before that many frames were queued. -/
theorem run_totalQueued_le (maxFrames : Nat) (ops : List Op) :
    ((new maxFrames).run ops).totalQueuedFrames ≤ (queuedIds ops).length := by
  induction ops using List.reverseRecOn with
  | nil => exact Nat.le_refl 0
  | append_singleton ops op ih =>
    rw [run_snoc, queuedIds_append, List.length_append]
    cases op with
    | queued frameId => exact Nat.succ_le_succ ih
    | ack frameId queueDepth =>
      have same := (((new maxFrames).run ops).recordFrameAck_queue frameId queueDepth).1
      exact same.trans_le ih
    | clear =>
      rw [apply, clearFrameQueue_eq]
      exact ih
    | reset => exact Nat.zero_le _

/-- The window is the difference of the two totals in every reachable state,
and neither total has wrapped. A clear that finds frames outstanding also makes
the accounting deaf to every frame queued before it, for as long as the client
stays the same; one that finds none leaves the cutoff where it was. -/
theorem accounting_exact (maxFrames : Nat) :
    (∀ ops, (queuedIds ops).length < 2 ^ 64 → let s := (new maxFrames).run ops
      s.totalAckedFrames ≤ s.totalQueuedFrames ∧ s.totalQueuedFrames < 2 ^ 64 ∧
        (s.totalQueuedFrames - s.totalAckedFrames < 2 ^ 32 →
          s.framesInFlight = s.totalQueuedFrames - s.totalAckedFrames)) ∧
      (∀ before after frameId, IncreasingIds (before ++ .clear :: after) → Op.reset ∉ after →
        ((new maxFrames).run before).totalAckedFrames < ((new maxFrames).run before).totalQueuedFrames →
        frameId ∈ queuedIds before →
        ((new maxFrames).run (before ++ .clear :: after)).IgnoresAck frameId) ∧
      ∀ ops, let s := (new maxFrames).run ops
        s.totalAckedFrames = s.totalQueuedFrames →
          s.clearFrameQueue.ackCutoffFrameId = s.ackCutoffFrameId ∧
            s.clearFrameQueue.ackCutoffActive = s.ackCutoffActive := by
  refine ⟨?_, ?_, ?_⟩
  · intro ops few
    have balanced := run_balanced maxFrames ops
    refine ⟨balanced.acked_le, (run_totalQueued_le maxFrames ops).trans_lt few, ?_⟩
    intro small
    rw [balanced.window, Nat.mod_eq_of_lt small]
  · intro before after frameId increasing noReset outstanding member queueDepth
    obtain ⟨active, lower, _, _⟩ := run_cutoff maxFrames increasing noReset outstanding
    have newest := (run_lastQueued maxFrames increasing.prefix (by omega)).2 frameId member
    have stale : ((new maxFrames).run (before ++ .clear :: after)).ackIsStale frameId = true := by
      simp only [ackIsStale, active, Bool.true_and, decide_eq_true_eq]
      exact newest.trans lower
    exact recordFrameAck_stale stale queueDepth
  · intro ops s settled
    have none : ¬ s.totalAckedFrames < s.totalQueuedFrames := Nat.not_lt.mpr settled.ge
    rw [clearFrameQueue_eq]
    exact ⟨if_neg none, by simp [none]⟩

/-- Frame 1 is cleared, and its late acknowledgement is no longer heard while frame 2 is counted. -/
theorem accounting_exact_once :
    ((new 3).run [.queued 1, .clear, .queued 2]).framesInFlight = 1 ∧
      ((new 3).run [.queued 1, .clear, .queued 2]).IgnoresAck 1 ∧
      ((new 3).run [.queued 1, .ack 1 0]).clearFrameQueue.ackCutoffActive = false := by
  obtain ⟨window, deaf, kept⟩ := accounting_exact 3
  refine ⟨(window [.queued 1, .clear, .queued 2] (by decide)).2.2 (by decide),
    deaf [.queued 1] [.queued 2] 1 (by decide) (by decide) (by decide) (by decide), ?_⟩
  exact (kept [.queued 1, .ack 1 0] rfl).2

/-- A suspending acknowledgement settles the totals while frame 2 is still on
its way, so the clear after it sets no cutoff and the late acknowledgement of
frame 2 is taken for one of frame 3. After a reset nothing remembers the clear. -/
theorem clear_hears_late_acks :
    (∃ before after frameId, IncreasingIds (before ++ Op.clear :: after) ∧ Op.reset ∉ after ∧
      frameId ∈ queuedIds before ∧ ¬ ((new 3).run (before ++ Op.clear :: after)).IgnoresAck frameId) ∧
    ∃ before after frameId, IncreasingIds (before ++ Op.clear :: after) ∧
      ((new 3).run before).totalAckedFrames < ((new 3).run before).totalQueuedFrames ∧
      frameId ∈ queuedIds before ∧ ¬ ((new 3).run (before ++ Op.clear :: after)).IgnoresAck frameId := by
  constructor
  · refine ⟨[.queued 1, .queued 2, .ack 1 suspendFrameAckQueueDepth], [.queued 3], 2,
      by decide, by decide, by decide, ?_⟩
    intro ignored
    exact absurd (ignored 0).1 (by decide)
  · refine ⟨[.queued 1], [.reset], 1, by decide, by decide, by decide, ?_⟩
    intro ignored
    exact absurd (ignored 0).2.2 (by decide)

end FrameFlow

end HyprRdp
