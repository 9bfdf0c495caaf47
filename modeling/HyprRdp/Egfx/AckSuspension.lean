import HyprRdp.Lib.Runs
import HyprRdp.Egfx.FrameFlow

namespace HyprRdp

/-- The accounting beside what a client could know of it: the frames queued
since the window was last emptied that it has not acknowledged, the newest
frame, and whether that one was acknowledged while acknowledgements flow. -/
structure AckedFlow where
  flow : FrameFlow
  unacked : List Nat
  newest : Option Nat
  newestAcked : Bool
  deriving DecidableEq, Repr

namespace AckedFlow

open FrameFlow

def new (maxFrames : Nat) : AckedFlow := ⟨.new maxFrames, [], none, false⟩

/-- A clear, a reset and the acknowledgement that ends a suspension each
empty the window: nothing queued before them counts any more. -/
def next (w : AckedFlow) (op : Op) : Option AckedFlow :=
  let flow := w.flow.apply op
  match op with
  | .queued frameId =>
    if w.newest.all (· < frameId) then some ⟨flow, w.unacked ++ [frameId], some frameId, false⟩
    else none
  | .ack frameId _ =>
    let resumed := w.flow.frameAckSuspended && !flow.frameAckSuspended
    some {
      flow
      unacked := if resumed then [] else w.unacked.erase frameId
      newest := w.newest
      newestAcked := !flow.frameAckSuspended && (w.newestAcked || w.newest == some frameId) }
  | .clear | .reset => some { w with flow, unacked := [] }

def system (maxFrames : Nat) : StepSystem AckedFlow Op := .ofFun (new maxFrames) next

/-- What a client may rely on while its acknowledgements are not suspended. -/
def WindowReopens (w : AckedFlow) : Prop :=
  w.flow.frameAckSuspended = false →
    w.flow.framesInFlight ≤ w.unacked.length ∧
      (w.newestAcked = true → w.flow.shouldBackpressureFrames = false)

/-- Senders queue only into an open window, and no more frames are counted
when a suspension ends than the resuming acknowledgement itself takes out. -/
def windowDrained (w : AckedFlow) : Op → Prop
  | .queued _ => w.flow.shouldBackpressureFrames = false
  | .ack frameId queueDepth =>
    w.flow.frameAckSuspended = true → queueDepth ≠ suspendFrameAckQueueDepth →
      w.flow.framesInFlight = 0 ∨ w.flow.framesInFlight = 1 ∧ w.flow.ackIsStale frameId = false
  | .clear | .reset => True

instance (w : AckedFlow) : (op : Op) → Decidable (w.windowDrained op)
  | .queued _ => inferInstanceAs (Decidable (_ = false))
  | .ack _ _ => inferInstanceAs (Decidable (_ → _ → _))
  | .clear => isTrue trivial
  | .reset => isTrue trivial

structure Invariant (w : AckedFlow) : Prop where
  window : w.flow.frameAckSuspended = false →
    w.flow.framesInFlight ≤ w.unacked.length ∧ w.flow.framesInFlight ≤ max w.flow.maxFramesInFlight 1
  reopened : w.flow.frameAckSuspended = false → w.newestAcked = true →
    w.flow.framesInFlight < max w.flow.maxFramesInFlight 1
  unacked_le : ∀ frameId ∈ w.unacked, ∃ last, w.newest = some last ∧ frameId ≤ last
  unacked_fresh : ∀ frameId ∈ w.unacked, w.flow.ackIsStale frameId = false
  cutoff_le : w.flow.ackCutoffActive = true → ∃ last, w.newest = some last ∧ w.flow.ackCutoffFrameId ≤ last
  last_queued : 0 < w.flow.totalQueuedFrames → w.newest = some w.flow.lastQueuedFrameId

theorem Invariant.windowReopens {w : AckedFlow} (inv : w.Invariant) : w.WindowReopens := by
  intro flowing
  refine ⟨(inv.window flowing).1, ?_⟩
  intro acked
  have room := inv.reopened flowing acked
  simp only [shouldBackpressureFrames, flowing, Bool.not_false, Bool.true_and, decide_eq_false_iff_not]
  omega

/-- A stale newest frame means that nothing was queued since the clear. -/
theorem Invariant.window_of_stale {w : AckedFlow} {last : Nat} (inv : w.Invariant)
    (newest : w.newest = some last) (stale : w.flow.ackIsStale last = true) : w.unacked = [] := by
  apply List.eq_nil_iff_forall_not_mem.mpr
  intro frameId member
  obtain ⟨top, same, le⟩ := inv.unacked_le frameId member
  cases Option.some.inj (newest.symm.trans same)
  have fresh := inv.unacked_fresh frameId member
  simp only [ackIsStale, Bool.and_eq_true, decide_eq_true_eq] at stale
  simp only [ackIsStale, stale.1, Bool.true_and, decide_eq_false_iff_not] at fresh
  omega

theorem Invariant.queued {w t : AckedFlow} {frameId : Nat} (inv : w.Invariant)
    (ok : w.flow.shouldBackpressureFrames = false) (step : w.next (.queued frameId) = some t) :
    t.Invariant := by
  simp only [next] at step
  split at step
  · rename_i increasing
    cases step
    have above : ∀ last, w.newest = some last → last < frameId := by
      intro last newest
      simpa [newest] using increasing
    refine ⟨?_, ?_, ?_, ?_, ?_, ?_⟩
    · intro flowing
      change w.flow.frameAckSuspended = false at flowing
      obtain ⟨counted, _⟩ := inv.window flowing
      simp only [shouldBackpressureFrames, flowing, Bool.not_false, Bool.true_and,
        decide_eq_false_iff_not] at ok
      simp only [apply, recordFrameQueued, List.length_append, List.length_singleton]
      omega
    · intro _ acked
      cases acked
    · intro old member
      refine ⟨frameId, rfl, ?_⟩
      rcases List.mem_append.mp member with earlier | same
      · obtain ⟨last, newest, le⟩ := inv.unacked_le old earlier
        exact le.trans (above last newest).le
      · exact (List.mem_singleton.mp same).le
    · intro old member
      change w.flow.ackIsStale old = false
      rcases List.mem_append.mp member with earlier | same
      · exact inv.unacked_fresh old earlier
      · cases List.mem_singleton.mp same
        cases active : w.flow.ackCutoffActive with
        | false => simp [ackIsStale, active]
        | true =>
          obtain ⟨last, newest, le⟩ := inv.cutoff_le active
          have := above last newest
          simp only [ackIsStale, active, Bool.true_and, decide_eq_false_iff_not]
          omega
    · intro active
      obtain ⟨last, newest, le⟩ := inv.cutoff_le active
      exact ⟨frameId, rfl, le.trans (above last newest).le⟩
    · intro _; rfl
  · cases step

/-- The window after an acknowledgement that leaves acknowledgements flowing:
stale ones keep it, others take one frame out. -/
theorem recordFrameAck_window {s : FrameFlow} {frameId queueDepth : Nat}
    (flowing : (s.recordFrameAck frameId queueDepth).frameAckSuspended = false) :
    queueDepth ≠ suspendFrameAckQueueDepth ∧
      (s.recordFrameAck frameId queueDepth).framesInFlight =
        if s.ackIsStale frameId then s.framesInFlight else s.framesInFlight - 1 := by
  rcases s.recordFrameAck_cases frameId queueDepth with ⟨stale, same⟩ | ⟨_, _, same⟩ | ⟨fresh, depth, same⟩
  · rw [same] at flowing ⊢
    exact ⟨beq_eq_false_iff_ne.mp flowing, by simp [stale]⟩
  · rw [same] at flowing; cases flowing
  · refine ⟨depth, ?_⟩
    rw [same, fresh, takeFromWindow]
    split
    · rfl
    · rename_i empty
      change s.framesInFlight = s.framesInFlight - 1
      simp only at empty
      omega

theorem Invariant.ack {w t : AckedFlow} {frameId queueDepth : Nat} (inv : w.Invariant)
    (ok : w.windowDrained (.ack frameId queueDepth)) (step : w.next (.ack frameId queueDepth) = some t) :
    t.Invariant := by
  cases Option.some.inj step
  have queue := w.flow.recordFrameAck_queue frameId queueDepth
  have staleSame : ∀ other, (w.flow.recordFrameAck frameId queueDepth).ackIsStale other =
      w.flow.ackIsStale other := by
    intro other
    simp only [ackIsStale, queue]
  have erased : ∀ other, other ∈ (if (w.flow.frameAckSuspended &&
      !(w.flow.recordFrameAck frameId queueDepth).frameAckSuspended) then [] else w.unacked.erase frameId) →
      other ∈ w.unacked := by
    intro other member
    split at member
    · cases member
    · exact List.mem_of_mem_erase member
  refine ⟨?_, ?_, ?_, ?_, ?_, ?_⟩
  · intro flowing
    change (w.flow.recordFrameAck frameId queueDepth).frameAckSuspended = false at flowing
    obtain ⟨depth, window⟩ := recordFrameAck_window flowing
    simp only [apply, flowing, window, queue, Bool.not_false, Bool.and_true]
    cases suspended : w.flow.frameAckSuspended with
    | true =>
      rcases ok suspended depth with empty | ⟨one, fresh⟩
      · simp [empty]
      · simp [one, fresh]
    | false =>
      obtain ⟨counted, bound⟩ := inv.window suspended
      cases stale : w.flow.ackIsStale frameId with
      | true =>
        have absent : frameId ∉ w.unacked := by
          intro member
          rw [inv.unacked_fresh frameId member] at stale
          cases stale
        simpa only [Bool.false_and, Bool.false_eq_true, if_false, if_true, List.erase_of_not_mem absent]
          using And.intro counted bound
      | false =>
        have shorter : w.unacked.length - 1 ≤ (w.unacked.erase frameId).length := by
          rw [List.length_erase]
          split <;> omega
        simp only [Bool.false_eq_true, if_false]
        omega
  · intro flowing acked
    change (w.flow.recordFrameAck frameId queueDepth).frameAckSuspended = false at flowing
    change (!(w.flow.recordFrameAck frameId queueDepth).frameAckSuspended &&
      (w.newestAcked || w.newest == some frameId)) = true at acked
    obtain ⟨depth, window⟩ := recordFrameAck_window flowing
    simp only [flowing, Bool.not_false, Bool.true_and, Bool.or_eq_true, beq_iff_eq] at acked
    simp only [apply, window, queue]
    cases suspended : w.flow.frameAckSuspended with
    | true =>
      rcases ok suspended depth with empty | ⟨one, fresh⟩
      · simp [empty]
      · simp [one, fresh]
    | false =>
      obtain ⟨counted, bound⟩ := inv.window suspended
      rcases acked with already | newest
      · have room := inv.reopened suspended already
        split <;> omega
      · cases stale : w.flow.ackIsStale frameId with
        | true =>
          have none := inv.window_of_stale newest stale
          simp only [none, List.length_nil, Nat.le_zero] at counted
          simp [counted]
        | false =>
          simp only [Bool.false_eq_true, if_false]
          omega
  · intro other member
    exact inv.unacked_le other (erased other member)
  · intro other member
    change (w.flow.recordFrameAck frameId queueDepth).ackIsStale other = false
    rw [staleSame]
    exact inv.unacked_fresh other (erased other member)
  · intro active
    simp only [apply, queue] at active ⊢
    exact inv.cutoff_le active
  · intro queued
    simp only [apply, queue] at queued ⊢
    exact inv.last_queued queued

theorem Invariant.clear {w : AckedFlow} (inv : w.Invariant) :
    ({ w with flow := w.flow.clearFrameQueue, unacked := [] } : AckedFlow).Invariant := by
  refine ⟨?_, ?_, ?_, ?_, ?_, ?_⟩
  · intro _
    simp [clearFrameQueue_eq]
  · intro _ _
    simp [clearFrameQueue_eq]
  · intro _ member; cases member
  · intro _ member; cases member
  · intro active
    simp only [clearFrameQueue_eq, Bool.or_eq_true, decide_eq_true_eq] at active ⊢
    by_cases outstanding : w.flow.totalAckedFrames < w.flow.totalQueuedFrames
    · exact ⟨_, inv.last_queued (by omega), by simp [outstanding]⟩
    · rw [if_neg outstanding]
      exact inv.cutoff_le (by tauto)
  · intro queued
    simp only [clearFrameQueue_eq] at queued ⊢
    exact inv.last_queued queued

theorem Invariant.reset {w : AckedFlow} (_inv : w.Invariant) :
    ({ w with flow := w.flow.resetFrameQueueForNewClient, unacked := [] } : AckedFlow).Invariant := by
  refine ⟨?_, ?_, ?_, ?_, ?_, ?_⟩
  · intro _; simp [resetFrameQueueForNewClient]
  · intro _ _; simp [resetFrameQueueForNewClient]
  · intro _ member; cases member
  · intro _ member; cases member
  · intro active; cases active
  · intro queued; exact absurd queued (Nat.lt_irrefl 0)

theorem invariant_inductive (maxFrames : Nat) :
    ((system maxFrames).guarded windowDrained).Inductive Invariant where
  base w first := by
    cases first
    refine ⟨?_, ?_, ?_, ?_, ?_, ?_⟩
    · intro _; simp [new, FrameFlow.new]
    · intro _ acked; cases acked
    · intro _ member; cases member
    · intro _ member; cases member
    · intro active; cases active
    · intro queued; exact absurd queued (Nat.lt_irrefl 0)
  keep w op t inv step := by
    obtain ⟨ok, step⟩ := step
    cases op with
    | queued frameId => exact inv.queued ok step
    | ack frameId queueDepth => exact inv.ack ok step
    | clear => cases Option.some.inj step; exact inv.clear
    | reset => cases Option.some.inj step; exact inv.reset

/-- As long as no frame stays counted across the end of a suspension, the
window follows what the client still owes and opens with its newest
acknowledgement. -/
theorem window_reopens {maxFrames : Nat} {w : AckedFlow}
    (reach : ((system maxFrames).guarded windowDrained).Reach w) : w.WindowReopens :=
  ((invariant_inductive maxFrames).reach reach).windowReopens

theorem reach_new (maxFrames : Nat) : ((system maxFrames).guarded windowDrained).Reach (new maxFrames) :=
  .start rfl

/-- One frame is queued under a suspension; its acknowledgement both ends the
suspension and takes the frame out. -/
theorem window_reopens_after_one_frame :
    WindowReopens {
      flow := {
        FrameFlow.new 3 with
        frameAckStreamEstablished := true
        lastQueuedFrameId := 2
        lastAckedFrameId := 2
        totalQueuedFrames := 2
        totalAckedFrames := 2 }
      unacked := []
      newest := some 2
      newestAcked := true } :=
  window_reopens (StepSystem.guarded_exec_reach
    [.queued 1, .ack 1 suspendFrameAckQueueDepth, .queued 2, .ack 2 0] (reach_new 3) (by decide))

/-- Five frames queued under a suspension stay counted: the client has
acknowledged the newest frame and owes nothing, and the window of three is shut. -/
theorem suspension_shuts_window :
    ∃ w, (system 3).Reach w ∧ w.flow.frameAckSuspended = false ∧ w.newestAcked = true ∧
      w.unacked = [] ∧ w.flow.framesInFlight = 4 ∧ w.flow.shouldBackpressureFrames = true ∧
      ¬ w.WindowReopens := by
  refine ⟨⟨(FrameFlow.new 3).run [.queued 1, .ack 1 suspendFrameAckQueueDepth, .queued 2, .queued 3,
      .queued 4, .queued 5, .queued 6, .ack 6 0], [], some 6, true⟩,
    StepSystem.exec_reach [.queued 1, .ack 1 suspendFrameAckQueueDepth, .queued 2, .queued 3,
      .queued 4, .queued 5, .queued 6, .ack 6 0] (.start rfl) (by decide),
    by decide, rfl, rfl, by decide, by decide, ?_⟩
  intro reopens
  exact absurd (reopens (by decide)).1 (by decide)

end AckedFlow

end HyprRdp
