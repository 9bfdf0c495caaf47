import HyprRdp.Lib.Runs
import HyprRdp.Lib.Table
import HyprRdp.Egfx.FrameFlow

namespace HyprRdp

/-- The three functions that hand one frame to the client:
`send_tracked_avc420_rdpegfx_frame`, `send_tracked_avc444_rdpegfx_frame` and
`send_clearcodec_damage`. -/
inductive SendPath
  | avc420
  | avc444
  | clearCodec
  deriving DecidableEq, Repr

/-- How far one send has come, in the order of the source. -/
inductive SendStage
  | started
  | reserved
  | queued
  | handedOver
  | recorded
  | abandoned
  deriving DecidableEq, Repr

structure Send where
  path : SendPath
  stage : SendStage
  frameId : Nat
  acked : Bool
  deriving DecidableEq, Repr

/-- Any number of sends beside the callback that delivers acknowledgements.
`lock` is the send that keeps the graphics server locked between its steps;
`absorbed` counts the acknowledgements that found the window empty. -/
structure SendRace where
  flow : FrameFlow
  lock : Option Nat
  nextFrameId : Nat
  sends : List Send
  absorbed : Nat
  deriving DecidableEq, Repr

namespace SendRace

inductive Action
  | begin (path : SendPath)
  | reserve (i : Nat)
  | queue (i : Nat)
  | handOver (i : Nat)
  | record (i : Nat)
  | abandon (i : Nat)
  | ack (i queueDepth : Nat)
  deriving DecidableEq, Repr

def new (maxFrames : Nat) : SendRace := ⟨.new maxFrames, none, 1, [], 0⟩

/-- Only the ClearCodec path holds the server's lock from its reservation to
its accounting. The AVC paths lock it for the queueing step alone. -/
def lockedBy (r : SendRace) (i : Nat) (send : Send) : Bool :=
  if send.path = .clearCodec then r.lock == some i else r.lock == none

def unlock (r : SendRace) (i : Nat) : Option Nat := if r.lock = some i then none else r.lock

def next (r : SendRace) : Action → Option SendRace
  | .begin path => some { r with sends := r.sends ++ [⟨path, .started, 0, false⟩] }
  | .reserve i => do
    let send ← r.sends[i]?
    guard (send.stage = .started)
    if send.path = .clearCodec then
      guard (r.lock = none)
      some { r with lock := some i, sends := r.sends.set i { send with stage := .reserved } }
    else some { r with sends := r.sends.set i { send with stage := .reserved } }
  | .queue i => do
    let send ← r.sends[i]?
    guard (send.stage = .reserved ∧ r.lockedBy i send)
    some { r with
      nextFrameId := r.nextFrameId + 1
      sends := r.sends.set i { send with stage := .queued, frameId := r.nextFrameId } }
  | .handOver i => do
    let send ← r.sends[i]?
    guard (send.stage = .queued)
    some { r with sends := r.sends.set i { send with stage := .handedOver } }
  | .record i => do
    let send ← r.sends[i]?
    guard (send.stage = .handedOver)
    some { r with
      flow := r.flow.recordFrameQueued send.frameId
      lock := r.unlock i
      sends := r.sends.set i { send with stage := .recorded } }
  | .abandon i => do
    let send ← r.sends[i]?
    guard (send.stage = .started ∨ send.stage = .reserved ∨ send.stage = .queued)
    some { r with lock := r.unlock i, sends := r.sends.set i { send with stage := .abandoned } }
  | .ack i queueDepth => do
    let send ← r.sends[i]?
    guard (r.lock = none ∧ (send.stage = .handedOver ∨ send.stage = .recorded) ∧ send.acked = false ∧
      queueDepth ≠ suspendFrameAckQueueDepth)
    some { r with
      flow := r.flow.recordFrameAck send.frameId queueDepth
      sends := r.sends.set i { send with acked := true }
      absorbed := if r.flow.framesInFlight = 0 then r.absorbed + 1 else r.absorbed }

def system (maxFrames : Nat) : StepSystem SendRace Action := .ofFun (new maxFrames) next

theorem reach_new (maxFrames : Nat) : (system maxFrames).Reach (new maxFrames) := .start rfl

def isRecorded (send : Send) : Bool := send.stage == .recorded

/-- Every send came to its end and every frame that left was acknowledged. -/
def Completed (r : SendRace) : Prop :=
  ∀ send ∈ r.sends, send.stage = .abandoned ∨ send.stage = .recorded ∧ send.acked = true

instance (r : SendRace) : Decidable r.Completed := by unfold Completed; infer_instance

/-- What one step does to the accounting: it moves a send that neither was nor
becomes recorded, it records one, or it delivers an acknowledgement. -/
inductive Effect (r : SendRace) (action : Action) (t : SendRace) : Prop
  | joined (path : SendPath) (begun : action = .begin path) (flow : t.flow = r.flow) (absorbed : t.absorbed = r.absorbed)
      (sends : t.sends = r.sends ++ [⟨path, .started, 0, false⟩])
  | moved {i : Nat} {send moved : Send} (atSend : r.sends[i]? = some send)
      (sends : t.sends = r.sends.set i moved)
      (before : send.stage ≠ .handedOver ∧ send.stage ≠ .recorded)
      (after : moved.stage ≠ .recorded) (acked : moved.acked = send.acked) (path : moved.path = send.path)
      (flow : t.flow = r.flow) (absorbed : t.absorbed = r.absorbed)
  | recorded {i : Nat} {send : Send} (atSend : r.sends[i]? = some send)
      (before : send.stage = .handedOver) (flow : t.flow = r.flow.recordFrameQueued send.frameId)
      (absorbed : t.absorbed = r.absorbed)
      (sends : t.sends = r.sends.set i { send with stage := .recorded })
  | acked {i queueDepth : Nat} {send : Send} (atSend : r.sends[i]? = some send)
      (before : send.stage = .handedOver ∨ send.stage = .recorded) (first : send.acked = false)
      (depth : queueDepth ≠ suspendFrameAckQueueDepth)
      (flow : t.flow = r.flow.recordFrameAck send.frameId queueDepth)
      (absorbed : t.absorbed = if r.flow.framesInFlight = 0 then r.absorbed + 1 else r.absorbed)
      (sends : t.sends = r.sends.set i { send with acked := true }) (isAck : action = .ack i queueDepth)

theorem next_effect {r t : SendRace} {action : Action} (step : r.next action = some t) : Effect r action t := by
  cases action with
  | begin path => cases Option.some.inj step; exact .joined path rfl rfl rfl rfl
  | reserve i =>
    obtain ⟨send, atSend, step⟩ := Option.bind_eq_some_iff.mp step
    obtain ⟨_, stage, step⟩ := Option.bind_eq_some_iff.mp step
    have stage : send.stage = .started := by simpa using stage
    have before : send.stage ≠ .handedOver ∧ send.stage ≠ .recorded := by rw [stage]; decide
    split at step
    · obtain ⟨_, _, step⟩ := Option.bind_eq_some_iff.mp step
      cases Option.some.inj step
      exact .moved atSend rfl before (by simp) rfl rfl rfl rfl
    · cases Option.some.inj step
      exact .moved atSend rfl before (by simp) rfl rfl rfl rfl
  | queue i =>
    obtain ⟨send, atSend, step⟩ := Option.bind_eq_some_iff.mp step
    obtain ⟨_, stage, step⟩ := Option.bind_eq_some_iff.mp step
    have stage : send.stage = .reserved ∧ r.lockedBy i send = true := by simpa using stage
    have before : send.stage ≠ .handedOver ∧ send.stage ≠ .recorded := by rw [stage.1]; decide
    cases Option.some.inj step
    exact .moved atSend rfl before (by simp) rfl rfl rfl rfl
  | handOver i =>
    obtain ⟨send, atSend, step⟩ := Option.bind_eq_some_iff.mp step
    obtain ⟨_, stage, step⟩ := Option.bind_eq_some_iff.mp step
    have stage : send.stage = .queued := by simpa using stage
    have before : send.stage ≠ .handedOver ∧ send.stage ≠ .recorded := by rw [stage]; decide
    cases Option.some.inj step
    exact .moved atSend rfl before (by simp) rfl rfl rfl rfl
  | record i =>
    obtain ⟨send, atSend, step⟩ := Option.bind_eq_some_iff.mp step
    obtain ⟨_, stage, step⟩ := Option.bind_eq_some_iff.mp step
    have stage : send.stage = .handedOver := by simpa using stage
    cases Option.some.inj step
    exact .recorded atSend stage rfl rfl rfl
  | abandon i =>
    obtain ⟨send, atSend, step⟩ := Option.bind_eq_some_iff.mp step
    obtain ⟨_, stage, step⟩ := Option.bind_eq_some_iff.mp step
    have stage : send.stage = .started ∨ send.stage = .reserved ∨ send.stage = .queued := by simpa using stage
    have before : send.stage ≠ .handedOver ∧ send.stage ≠ .recorded := by
      rcases stage with same | same | same <;> rw [same] <;> decide
    cases Option.some.inj step
    exact .moved atSend rfl before (by simp) rfl rfl rfl rfl
  | ack i queueDepth =>
    obtain ⟨send, atSend, step⟩ := Option.bind_eq_some_iff.mp step
    obtain ⟨_, stage, step⟩ := Option.bind_eq_some_iff.mp step
    have stage : r.lock = none ∧ (send.stage = .handedOver ∨ send.stage = .recorded) ∧ send.acked = false ∧
        queueDepth ≠ suspendFrameAckQueueDepth := by simpa using stage
    cases Option.some.inj step
    exact .acked atSend stage.2.1 stage.2.2.1 stage.2.2.2 rfl rfl rfl rfl

structure Invariant (r : SendRace) : Prop where
  balanced : r.flow.Balanced
  cutoff : r.flow.ackCutoffActive = false
  queued : r.flow.totalQueuedFrames = r.sends.countP isRecorded
  acked : r.flow.totalAckedFrames + r.absorbed = r.sends.countP Send.acked
  sent : ∀ send ∈ r.sends, send.acked = true → send.stage = .handedOver ∨ send.stage = .recorded

/-- Without a cutoff and without a suspension an acknowledgement either takes
one frame from the window or is absorbed by an empty one. -/
theorem recordFrameAck_counted {s : FrameFlow} {frameId queueDepth : Nat}
    (cutoff : s.ackCutoffActive = false) (depth : queueDepth ≠ suspendFrameAckQueueDepth) :
    (s.recordFrameAck frameId queueDepth).totalAckedFrames =
      if s.framesInFlight = 0 then s.totalAckedFrames else s.totalAckedFrames + 1 := by
  have fresh : s.ackIsStale frameId = false := by simp [FrameFlow.ackIsStale, cutoff]
  rcases s.recordFrameAck_cases frameId queueDepth with ⟨stale, _⟩ | ⟨_, suspend, _⟩ | ⟨_, _, same⟩
  · rw [fresh] at stale; cases stale
  · exact absurd suspend depth
  · rw [same, FrameFlow.takeFromWindow]
    by_cases empty : s.framesInFlight = 0
    · simp [empty]
    · simp [empty, Nat.pos_of_ne_zero empty]

theorem Invariant.step {r t : SendRace} {action : Action} (inv : r.Invariant) (effect : Effect r action t) : t.Invariant := by
  cases effect with
  | joined path begun flow absorbed sends =>
    refine ⟨by rw [flow]; exact inv.balanced, by rw [flow]; exact inv.cutoff, ?_, ?_, ?_⟩
    · rw [flow, sends, List.countP_append, inv.queued]; rfl
    · rw [flow, absorbed, sends, List.countP_append, inv.acked]; rfl
    · intro send member acked
      rw [sends] at member
      rcases List.mem_append.mp member with old | new
      · exact inv.sent send old acked
      · cases List.mem_singleton.mp new; cases acked
  | @moved i send moved atSend sends before after acked _ flow absorbed =>
    have silent : send.acked = false := by
      by_contra delivered
      have := inv.sent send (List.mem_of_getElem? atSend) (by simpa using delivered)
      tauto
    refine ⟨by rw [flow]; exact inv.balanced, by rw [flow]; exact inv.cutoff, ?_, ?_, ?_⟩
    · have same : isRecorded moved = isRecorded send := by simp [isRecorded, before.2, after]
      rw [flow, sends, List.countP_set_same atSend same, inv.queued]
    · rw [flow, absorbed, sends, List.countP_set_same atSend acked, inv.acked]
    · rw [sends]
      apply List.forall_mem_set inv.sent
      intro delivered
      rw [acked, silent] at delivered
      cases delivered
  | @recorded i send atSend before flow absorbed sends =>
    refine ⟨by rw [flow]; exact inv.balanced.apply (.queued send.frameId), by rw [flow]; exact inv.cutoff, ?_, ?_, ?_⟩
    · have balance := List.countP_set_balance atSend isRecorded { send with stage := .recorded }
      rw [flow, sends]
      change r.flow.totalQueuedFrames + 1 = _
      rw [inv.queued]
      simpa [isRecorded, before] using balance.symm
    · rw [flow, absorbed, sends, List.countP_set_same atSend (by rfl)]
      exact inv.acked
    · rw [sends]
      apply List.forall_mem_set inv.sent
      intro _; exact Or.inr rfl
  | @acked i queueDepth send atSend before first depth flow absorbed sends isAck =>
    have queue := r.flow.recordFrameAck_queue send.frameId queueDepth
    refine ⟨by rw [flow]; exact inv.balanced.apply (.ack send.frameId queueDepth), ?_, ?_, ?_, ?_⟩
    · rw [flow, queue.2.2.2.1]; exact inv.cutoff
    · rw [flow, sends, queue.1, List.countP_set_same atSend (by rfl), inv.queued]
    · have balance := List.countP_set_balance atSend Send.acked { send with acked := true }
      have counted := inv.acked
      rw [flow, absorbed, sends, recordFrameAck_counted inv.cutoff depth]
      simp only [first, Bool.false_eq_true, if_false, if_true] at balance
      split <;> omega
    · rw [sends]
      apply List.forall_mem_set inv.sent
      intro _; exact before

theorem invariant_inductive (maxFrames : Nat) : (system maxFrames).Inductive Invariant where
  base r first := by
    cases first
    exact ⟨⟨le_rfl, rfl⟩, rfl, rfl, rfl, by simp [new]⟩
  keep r action t inv step := inv.step (next_effect step)

/-- The totals differ by exactly the acknowledgements that were absorbed. -/
theorem completed_iff_none_absorbed {maxFrames : Nat} {r : SendRace}
    (reach : (system maxFrames).Reach r) (completed : r.Completed) :
    r.flow.framesInFlight = 0 ∧ r.flow.totalAckedFrames = r.flow.totalQueuedFrames ↔ r.absorbed = 0 := by
  have inv := (invariant_inductive maxFrames).reach reach
  have all : r.sends.countP isRecorded = r.sends.countP Send.acked := by
    apply List.countP_congr
    intro send member
    have silent := inv.sent send member
    rcases completed send member with stage | ⟨stage, delivered⟩
    · simp only [isRecorded, stage] at silent ⊢
      simpa using silent
    · simp [isRecorded, stage, delivered]
  have queued := inv.queued
  have acked := inv.acked
  have window := inv.balanced.window
  constructor
  · rintro ⟨_, same⟩
    omega
  · intro none
    have same : r.flow.totalAckedFrames = r.flow.totalQueuedFrames := by omega
    exact ⟨by rw [window, same]; simp, same⟩

/-- More frames are accounted for than acknowledgements were processed, by no multiple of 2^32. -/
def Covered (r : SendRace) : Prop := (r.sends.countP isRecorded - r.sends.countP Send.acked) % 2 ^ 32 ≠ 0

/-- Along the schedule each acknowledgement is processed in a covered state. -/
def Timely : SendRace → List Action → Prop
  | _, [] => True
  | r, action :: rest =>
    (∀ i queueDepth, action = .ack i queueDepth → r.Covered) ∧ ∀ t, r.next action = some t → Timely t rest

/-- Along the schedule no acknowledgement of an AVC frame is processed before the frame is accounted for. -/
def AvcAckedLate : SendRace → List Action → Prop
  | _, [] => True
  | r, action :: rest =>
    (∀ i queueDepth send, action = .ack i queueDepth → r.sends[i]? = some send → send.path ≠ .clearCodec →
      send.stage = .recorded) ∧ ∀ t, r.next action = some t → AvcAckedLate t rest

theorem Invariant.covered {r : SendRace} (inv : r.Invariant) (none : r.absorbed = 0) :
    r.Covered ↔ r.flow.framesInFlight ≠ 0 := by
  have acked := inv.acked
  rw [none, Nat.add_zero] at acked
  rw [inv.balanced.window, inv.queued, acked]
  rfl

theorem ack_absorbed {r t : SendRace} {i queueDepth : Nat} (step : r.next (.ack i queueDepth) = some t) :
    t.absorbed = if r.flow.framesInFlight = 0 then r.absorbed + 1 else r.absorbed := by
  obtain ⟨send, _, step⟩ := Option.bind_eq_some_iff.mp step
  obtain ⟨_, _, step⟩ := Option.bind_eq_some_iff.mp step
  cases step
  rfl

theorem silent_absorbed {r t : SendRace} {action : Action} (step : r.next action = some t)
    (silent : ∀ i queueDepth, action ≠ .ack i queueDepth) : t.absorbed = r.absorbed := by
  cases next_effect step with
  | joined _ _ _ absorbed _ | moved _ _ _ _ _ _ _ absorbed | recorded _ _ _ absorbed _ => exact absorbed
  | @acked i queueDepth _ _ _ _ _ _ _ _ isAck => exact absurd isAck (silent i queueDepth)

theorem absorbed_le {r t : SendRace} {action : Action} (step : r.next action = some t) : r.absorbed ≤ t.absorbed := by
  by_cases isAck : ∃ i queueDepth, action = .ack i queueDepth
  · obtain ⟨i, queueDepth, rfl⟩ := isAck
    rw [ack_absorbed step]
    split <;> omega
  · exact (silent_absorbed step fun i queueDepth same => isAck ⟨i, queueDepth, same⟩).ge

theorem exec_absorbed_le {r t : SendRace} {actions : List Action} (run : StepSystem.exec next r actions = some t) :
    r.absorbed ≤ t.absorbed := by
  induction actions generalizing r with
  | nil => cases run; exact Nat.le_refl _
  | cons action rest ih =>
    obtain ⟨u, step, run⟩ := Option.bind_eq_some_iff.mp run
    exact (absorbed_le step).trans (ih run)

/-- An acknowledgement is absorbed exactly where it is processed in a state that is not covered. -/
theorem exec_absorbed_iff {r t : SendRace} {actions : List Action} (inv : r.Invariant) (none : r.absorbed = 0)
    (run : StepSystem.exec next r actions = some t) : t.absorbed = 0 ↔ Timely r actions := by
  induction actions generalizing r with
  | nil =>
    cases run
    exact iff_of_true none trivial
  | cons action rest ih =>
    obtain ⟨u, step, more⟩ := Option.bind_eq_some_iff.mp run
    have later : Timely r (action :: rest) ↔ (∀ i queueDepth, action = .ack i queueDepth → r.Covered) ∧ Timely u rest := by
      refine and_congr_right fun _ => ⟨fun all => all u step, fun timely v next => ?_⟩
      cases step.symm.trans next
      exact timely
    rw [later]
    by_cases isAck : ∃ i queueDepth, action = .ack i queueDepth
    · obtain ⟨i, queueDepth, rfl⟩ := isAck
      have counted := ack_absorbed step
      by_cases empty : r.flow.framesInFlight = 0
      · rw [if_pos empty] at counted
        have grown := exec_absorbed_le more
        refine iff_of_false (by omega) fun timely => ?_
        exact (inv.covered none).mp (timely.1 i queueDepth rfl) empty
      · rw [if_neg empty] at counted
        have covered := (inv.covered none).mpr empty
        rw [ih (inv.step (next_effect step)) (counted.trans none) more]
        exact (and_iff_right fun _ _ _ => covered).symm
    · have counted := silent_absorbed step fun i queueDepth same => isAck ⟨i, queueDepth, same⟩
      rw [ih (inv.step (next_effect step)) (counted.trans none) more]
      exact (and_iff_right fun i queueDepth same => absurd ⟨i, queueDepth, same⟩ isAck).symm

/-- A ClearCodec send holds the server's lock until its frame is accounted for, and only frames that are were acknowledged. -/
structure Orderly (r : SendRace) : Prop where
  held : ∀ i send, r.sends[i]? = some send → send.path = .clearCodec →
    send.stage = .reserved ∨ send.stage = .queued ∨ send.stage = .handedOver → r.lock = some i
  late : ∀ send ∈ r.sends, send.acked = true → send.stage = .recorded

theorem Orderly.set {r t : SendRace} {i : Nat} {moved : Send} (orderly : r.Orderly) (sends : t.sends = r.sends.set i moved)
    (others : ∀ j, j ≠ i → r.lock = some j → t.lock = some j)
    (own : moved.path = .clearCodec → moved.stage = .reserved ∨ moved.stage = .queued ∨ moved.stage = .handedOver →
      t.lock = some i)
    (late : moved.acked = true → moved.stage = .recorded) : t.Orderly := by
  constructor
  · intro j send atSend path stage
    rw [sends] at atSend
    rcases List.getElem?_set_cases atSend with ⟨rfl, rfl⟩ | ⟨apart, atSend⟩
    · exact own path stage
    · exact others j apart (orderly.held j send atSend path stage)
  · rw [sends]
    exact List.forall_mem_set orderly.late late

theorem Orderly.unlock {r : SendRace} {i j : Nat} (apart : j ≠ i) (held : r.lock = some j) : r.unlock i = some j := by
  unfold SendRace.unlock
  rw [held, if_neg fun same => apart (Option.some.inj same)]

theorem Orderly.unacked {r : SendRace} {i : Nat} {send : Send} (orderly : r.Orderly) (atSend : r.sends[i]? = some send)
    (open' : send.stage ≠ .recorded) : send.acked = false :=
  Bool.eq_false_iff.mpr fun acked => open' (orderly.late send (List.mem_of_getElem? atSend) acked)

/-- The lock is free when an acknowledgement is processed, so a ClearCodec frame is accounted for by then. -/
theorem Orderly.acked_recorded {r : SendRace} {i : Nat} {send : Send} (orderly : r.Orderly) (atSend : r.sends[i]? = some send)
    (free : r.lock = none) (out : send.stage = .handedOver ∨ send.stage = .recorded)
    (late : send.path ≠ .clearCodec → send.stage = .recorded) : send.stage = .recorded := by
  by_cases path : send.path = .clearCodec
  · rcases out with handed | recorded
    · cases free.symm.trans (orderly.held i send atSend path (.inr (.inr handed)))
    · exact recorded
  · exact late path

theorem Orderly.next {r t : SendRace} {action : Action} (orderly : r.Orderly) (step : r.next action = some t)
    (late : ∀ i queueDepth send, action = .ack i queueDepth → r.sends[i]? = some send → send.path ≠ .clearCodec →
      send.stage = .recorded) : t.Orderly := by
  cases action with
  | begin path =>
    cases step
    constructor
    · intro j send atSend path stage
      by_cases old : j < r.sends.length
      · rw [List.getElem?_append_left old] at atSend
        exact orderly.held j send atSend path stage
      · rw [List.getElem?_append_right (Nat.not_lt.mp old)] at atSend
        cases List.mem_singleton.mp (List.mem_of_getElem? atSend)
        simp at stage
    · intro send member acked
      rcases List.mem_append.mp member with old | new
      · exact orderly.late send old acked
      · cases List.mem_singleton.mp new
        cases acked
  | reserve i =>
    obtain ⟨send, atSend, step⟩ := Option.bind_eq_some_iff.mp step
    obtain ⟨_, stage, step⟩ := Option.bind_eq_some_iff.mp step
    have stage : send.stage = .started := by simpa using stage
    have unacked := orderly.unacked atSend (by rw [stage]; decide)
    split at step
    · obtain ⟨_, free, step⟩ := Option.bind_eq_some_iff.mp step
      have free : r.lock = none := by simpa using free
      cases step
      refine orderly.set rfl (fun j _ held => ?_) (fun _ _ => rfl) fun acked => ?_
      · cases free.symm.trans held
      · cases unacked.symm.trans acked
    · rename_i avc
      cases step
      refine orderly.set rfl (fun _ _ held => held) (fun path _ => absurd path avc) fun acked => ?_
      cases unacked.symm.trans acked
  | queue i =>
    obtain ⟨send, atSend, step⟩ := Option.bind_eq_some_iff.mp step
    obtain ⟨_, stage, step⟩ := Option.bind_eq_some_iff.mp step
    have stage : send.stage = .reserved ∧ r.lockedBy i send = true := by simpa using stage
    have unacked := orderly.unacked atSend (by rw [stage.1]; decide)
    cases step
    refine orderly.set rfl (fun _ _ held => held) (fun path _ => orderly.held i send atSend path (.inl stage.1)) fun acked => ?_
    cases unacked.symm.trans acked
  | handOver i =>
    obtain ⟨send, atSend, step⟩ := Option.bind_eq_some_iff.mp step
    obtain ⟨_, stage, step⟩ := Option.bind_eq_some_iff.mp step
    have stage : send.stage = .queued := by simpa using stage
    have unacked := orderly.unacked atSend (by rw [stage]; decide)
    cases step
    refine orderly.set rfl (fun _ _ held => held) (fun path _ => orderly.held i send atSend path (.inr (.inl stage))) fun acked => ?_
    cases unacked.symm.trans acked
  | record i =>
    obtain ⟨send, atSend, step⟩ := Option.bind_eq_some_iff.mp step
    obtain ⟨_, _, step⟩ := Option.bind_eq_some_iff.mp step
    cases step
    exact orderly.set rfl (fun _ => Orderly.unlock) (fun _ stage => by simp at stage) fun _ => rfl
  | abandon i =>
    obtain ⟨send, atSend, step⟩ := Option.bind_eq_some_iff.mp step
    obtain ⟨_, stage, step⟩ := Option.bind_eq_some_iff.mp step
    have stage : send.stage = .started ∨ send.stage = .reserved ∨ send.stage = .queued := by simpa using stage
    have unacked := orderly.unacked atSend (by rcases stage with same | same | same <;> rw [same] <;> decide)
    cases step
    refine orderly.set rfl (fun _ => Orderly.unlock) (fun _ stage => by simp at stage) fun acked => ?_
    cases unacked.symm.trans acked
  | ack i queueDepth =>
    obtain ⟨send, atSend, step⟩ := Option.bind_eq_some_iff.mp step
    obtain ⟨_, stage, step⟩ := Option.bind_eq_some_iff.mp step
    have stage : r.lock = none ∧ (send.stage = .handedOver ∨ send.stage = .recorded) ∧ send.acked = false ∧
        queueDepth ≠ suspendFrameAckQueueDepth := by simpa using stage
    cases step
    refine orderly.set rfl (fun _ _ held => held) (fun path stage => orderly.held i send atSend path stage) fun _ => ?_
    change send.stage = .recorded
    exact orderly.acked_recorded atSend stage.1 stage.2.1 (late i queueDepth send rfl atSend)

/-- Only frames that are accounted for were acknowledged, and one more of them is not. -/
theorem Orderly.covered {r : SendRace} {i : Nat} {send : Send} (orderly : r.Orderly) (atSend : r.sends[i]? = some send)
    (recorded : send.stage = .recorded) (unacked : send.acked = false) (few : r.sends.length < 2 ^ 32) : r.Covered := by
  have balance := List.countP_set_balance atSend Send.acked { send with acked := true }
  have same : (r.sends.set i { send with acked := true }).countP isRecorded = r.sends.countP isRecorded :=
    List.countP_set_same atSend rfl
  have within : (r.sends.set i { send with acked := true }).countP Send.acked ≤
      (r.sends.set i { send with acked := true }).countP isRecorded := by
    refine List.countP_mono_left fun other member acked => ?_
    have known : ∀ later ∈ r.sends.set i { send with acked := true }, later.acked = true → later.stage = .recorded :=
      List.forall_mem_set orderly.late fun _ => recorded
    unfold isRecorded
    rw [known other member acked]
    rfl
  have most := List.countP_le_length (p := isRecorded) (l := r.sends)
  rw [same] at within
  simp only [unacked, Bool.false_eq_true, if_false, if_true] at balance
  unfold Covered
  rw [Nat.mod_eq_of_lt (by omega)]
  omega

theorem next_length_le {r t : SendRace} {action : Action} (step : r.next action = some t) : r.sends.length ≤ t.sends.length := by
  cases next_effect step with
  | joined path _ _ _ sends =>
    rw [sends, List.length_append]
    exact Nat.le_add_right _ _
  | moved _ sends | recorded _ _ _ _ sends | acked _ _ _ _ _ _ sends _ =>
    rw [sends, List.length_set]

theorem exec_length_le {r t : SendRace} {actions : List Action} (run : StepSystem.exec next r actions = some t) :
    r.sends.length ≤ t.sends.length := by
  induction actions generalizing r with
  | nil => cases run; exact Nat.le_refl _
  | cons action rest ih =>
    obtain ⟨u, step, run⟩ := Option.bind_eq_some_iff.mp run
    exact (next_length_le step).trans (ih run)

theorem Orderly.timely {r t : SendRace} {actions : List Action} (orderly : r.Orderly)
    (run : StepSystem.exec SendRace.next r actions = some t) (few : t.sends.length < 2 ^ 32) (late : AvcAckedLate r actions) :
    Timely r actions := by
  induction actions generalizing r with
  | nil => trivial
  | cons action rest ih =>
    obtain ⟨u, step, more⟩ := Option.bind_eq_some_iff.mp run
    refine ⟨fun i queueDepth isAck => ?_, fun v same => ?_⟩
    · subst isAck
      obtain ⟨send, atSend, ready⟩ := Option.bind_eq_some_iff.mp step
      obtain ⟨_, ready, _⟩ := Option.bind_eq_some_iff.mp ready
      have ready : r.lock = none ∧ (send.stage = .handedOver ∨ send.stage = .recorded) ∧ send.acked = false ∧
          queueDepth ≠ suspendFrameAckQueueDepth := by simpa using ready
      have recorded := orderly.acked_recorded atSend ready.1 ready.2.1 (late.1 i queueDepth send rfl atSend)
      exact orderly.covered atSend recorded ready.2.2.1 ((exec_length_le run).trans_lt few)
    · cases step.symm.trans same
      exact ih (orderly.next step late.1) more (late.2 u step)

theorem next_clearCodec {r t : SendRace} {action : Action} (all : ∀ send ∈ r.sends, send.path = .clearCodec)
    (begins : ∀ path, action = .begin path → path = .clearCodec) (step : r.next action = some t) :
    ∀ send ∈ t.sends, send.path = .clearCodec := by
  cases next_effect step with
  | joined path begun _ _ sends =>
    rw [sends, List.forall_mem_append]
    refine ⟨all, fun send member => ?_⟩
    cases List.mem_singleton.mp member
    exact begins path begun
  | moved atSend sends _ _ _ path =>
    rw [sends]
    exact List.forall_mem_set all (path.trans (all _ (List.mem_of_getElem? atSend)))
  | recorded atSend _ _ _ sends | acked atSend _ _ _ _ _ sends _ =>
    have path := all _ (List.mem_of_getElem? atSend)
    rw [sends]
    exact List.forall_mem_set all path

theorem clearCodec_ackedLate {r : SendRace} {actions : List Action} (all : ∀ send ∈ r.sends, send.path = .clearCodec)
    (begins : ∀ path, .begin path ∈ actions → path = .clearCodec) : AvcAckedLate r actions := by
  induction actions generalizing r with
  | nil => trivial
  | cons action rest ih =>
    refine ⟨fun i _ send _ atSend avc => absurd (all send (List.mem_of_getElem? atSend)) avc, fun t step => ?_⟩
    refine ih (next_clearCodec all (fun path begun => begins path ?_) step) fun path member =>
      begins path (List.mem_cons_of_mem _ member)
    rw [begun]
    exact List.mem_cons_self

/-- When all sends and all acknowledgements are through, the counters are settled exactly where each acknowledgement was
processed while more frames were accounted for than acknowledgements processed. The lock of the ClearCodec path sees to
it for its own frames; only an AVC frame can be acknowledged too early. -/
theorem counters_settle_iff_timely (maxFrames : Nat) {actions : List Action} {r : SendRace}
    (run : StepSystem.exec next (new maxFrames) actions = some r) :
    (r.Completed → (r.flow.framesInFlight = 0 ∧ r.flow.totalAckedFrames = r.flow.totalQueuedFrames ↔
      Timely (new maxFrames) actions)) ∧
    (r.sends.length < 2 ^ 32 → AvcAckedLate (new maxFrames) actions → Timely (new maxFrames) actions) ∧
    (r.sends.length < 2 ^ 32 → (∀ path, .begin path ∈ actions → path = .clearCodec) → Timely (new maxFrames) actions) := by
  have inv := (invariant_inductive maxFrames).base _ rfl
  have orderly : (new maxFrames).Orderly := ⟨by simp [new], by simp [new]⟩
  refine ⟨?_, fun few late => orderly.timely run few late, fun few begins => ?_⟩
  · intro completed
    rw [completed_iff_none_absorbed (StepSystem.exec_reach actions (reach_new maxFrames) run) completed]
    exact exec_absorbed_iff inv rfl run
  · exact orderly.timely run few (clearCodec_ackedLate (by simp [new]) begins)

/-- Two frames, the second acknowledged while the first is still counted. -/
def twoFrames : List Action :=
  [.begin .avc444, .begin .avc420, .reserve 0, .queue 0, .reserve 1, .queue 1, .handOver 0, .record 0, .handOver 1,
    .ack 1 0, .record 1, .ack 0 0]

def clearCodecFrame : List Action := [.begin .clearCodec, .reserve 0, .queue 0, .handOver 0, .record 0, .ack 0 0]

theorem counters_settle_iff_timely_two_frames :
    (∃ r, StepSystem.exec next (new 3) twoFrames = some r ∧ r.Completed ∧ r.flow.totalQueuedFrames = 2 ∧
      Timely (new 3) twoFrames) ∧ Timely (new 3) clearCodecFrame := by
  constructor
  · obtain ⟨r, run, completed, queued, settled⟩ : ∃ r, StepSystem.exec next (new 3) twoFrames = some r ∧ r.Completed ∧
        r.flow.totalQueuedFrames = 2 ∧
          (r.flow.framesInFlight = 0 ∧ r.flow.totalAckedFrames = r.flow.totalQueuedFrames) :=
      ⟨_, rfl, by decide, rfl, rfl, rfl⟩
    exact ⟨r, run, completed, queued, ((counters_settle_iff_timely 3 run).1 completed).mp settled⟩
  · have run : ∃ r, StepSystem.exec next (new 3) clearCodecFrame = some r ∧ r.sends.length = 1 := ⟨_, rfl, rfl⟩
    obtain ⟨r, run, one⟩ := run
    exact (counters_settle_iff_timely 3 run).2.2 (by rw [one]; decide) (by simp [clearCodecFrame])

/-- On the AVC paths the acknowledgement may come between the hand-over and
the accounting: it is absorbed, and the frame then keeps its slot for good. -/
theorem ack_lost_to_race :
    ∃ r, (system 3).Reach r ∧ r.Completed ∧ r.flow.framesInFlight = 1 ∧
      r.flow.totalQueuedFrames = 1 ∧ r.flow.totalAckedFrames = 0 := by
  refine ⟨⟨(FrameFlow.new 3).run [.ack 1 0, .queued 1], none, 2, [⟨.avc420, .recorded, 1, true⟩], 1⟩,
    StepSystem.exec_reach [.begin .avc420, .reserve 0, .queue 0, .handOver 0, .ack 0 0, .record 0]
      (.start rfl) (by decide), by decide, by decide, by decide, by decide⟩

end SendRace

end HyprRdp
