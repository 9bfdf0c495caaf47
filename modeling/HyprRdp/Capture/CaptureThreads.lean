import HyprRdp.Lib.Budget
import HyprRdp.Lib.Runs

namespace HyprRdp

/-- What made a capture session fail. -/
inductive CaptureFailure
  | geometryChanged
  | framesRepeatedlyFailed
  | other
  deriving DecidableEq, Repr

inductive CaptureRestartDecision
  | restart (restarts : Nat)
  | giveUp (restarts : Nat)
  | propagate
  deriving DecidableEq, Repr

def captureSessionRestartLimit : Nat := 5

/-- In nanoseconds, as all instants here. -/
def captureRestartBudgetReset : Nat := 30000000000

def captureRestartPause : Nat := 100000000

def replenishedRestarts (restarts sinceLastRestart : Nat) : Nat :=
  if captureRestartBudgetReset ≤ sinceLastRestart then 0 else restarts

def captureSessionRestartDecision (failure : CaptureFailure) (stopFlagSet : Bool) (restarts : Nat) :
    CaptureRestartDecision :=
  if stopFlagSet ∨ failure = .other then .propagate
  else
    -- a saturating addition on 32 bits
    let restarts := min (restarts + 1) 4294967295
    if captureSessionRestartLimit ≤ restarts then .giveUp restarts else .restart restarts

/-- An update in the channel, with who has sent it. -/
structure SentUpdate (U : Type) where
  byThread : Bool
  update : U
  deriving DecidableEq, Repr

/-- Where a capture thread is; it keeps the instant at which it read how long ago the last restart was. -/
inductive CaptureStage
  | session
  | failed (failure : CaptureFailure)
  | replenished (failure : CaptureFailure) (due : Nat)
  | restarting (due : Nat)
  | pausing
  | returned
  | unasked
  | dying
  | ended
  deriving DecidableEq, Repr

/-- The thread is connected to the compositor, or will connect again. -/
def CaptureStage.captures : CaptureStage → Bool
  | .session | .failed _ | .replenished _ _ | .restarting _ | .pausing => true
  | .returned | .unasked | .dying | .ended => false

/-- A capture thread with its stop flag, its answer to `start_capture`, its update channel and the
signal of its death. `log`, `gaveUp`, `taken` and `disconnected` are the history: the restarts, the failure
at which it gave up, what the session has received, and whether it was told to disconnect. -/
structure WaylandCapture (U : Type) where
  stopFlag : Bool
  info : Option Bool
  restarts : Nat
  lastRestart : Option Nat
  stage : CaptureStage
  queue : List (SentUpdate U)
  received : Bool
  captureDead : Bool
  log : List Payment
  gaveUp : Option Nat
  sent : List (SentUpdate U)
  taken : List (SentUpdate U)
  disconnected : Bool
  deriving DecidableEq, Repr

/-- What the capture thread may do; an outcome is what its session fails with, if it fails. -/
inductive CaptureChoice (U : Type)
  | push (update : U)
  | answer
  | finish (outcome : Option CaptureFailure)
  | proceed

namespace WaylandCapture

variable {U : Type}

/-- A thread that has just been started, or, when that failed, one that has ended. -/
def start (spawned : Bool) : WaylandCapture U where
  stopFlag := false
  info := if spawned then none else some false
  restarts := 0
  lastRestart := none
  stage := if spawned then .session else .ended
  queue := []
  received := spawned
  captureDead := false
  log := []
  gaveUp := none
  sent := []
  taken := []
  disconnected := false

def updateCapacity : Nat := 128

variable (c : WaylandCapture U)

def hasRoom : Bool := c.received && c.queue.length < updateCapacity

def send (update : SentUpdate U) : WaylandCapture U :=
  { c with queue := c.queue ++ [update], sent := c.sent ++ [update] }

/-- `capture_thread` returns, and drops the sender of its answer if it has not used it. -/
def leave : WaylandCapture U := { c with info := some (c.info.getD false), stage := .returned }

def stop : WaylandCapture U := { c with stopFlag := true }

def dropUpdates : WaylandCapture U := { c with received := false, queue := [] }

/-- A step of the capture thread at an instant. -/
def step (now : Nat) : CaptureChoice U → Option (WaylandCapture U)
  | .push update =>
    if c.stage = .session ∧ c.hasRoom then some (c.send ⟨true, update⟩) else none
  | .answer => if c.stage = .session ∧ c.info = none then some { c with info := some true } else none
  | .finish outcome =>
    match c.stage, outcome with
    | .session, none => some c.leave
    | .session, some failure => some { c with stage := .failed failure }
    | _, _ => none
  | .proceed =>
    match c.stage with
    | .session | .ended => none
    | .failed failure =>
      some { c with
        restarts := match c.lastRestart with
          | some last => replenishedRestarts c.restarts (now - last)
          | none => c.restarts
        stage := .replenished failure now }
    | .replenished failure due =>
      match captureSessionRestartDecision failure c.stopFlag c.restarts with
      | .restart restarts => some { c with restarts, stage := .restarting due }
      | .giveUp restarts => some { c with restarts, gaveUp := some due }.leave
      | .propagate => some c.leave
    | .restarting due => some { c with lastRestart := some now, log := ⟨due, now⟩ :: c.log, stage := .pausing }
    | .pausing =>
      if ∀ last ∈ c.lastRestart, last + captureRestartPause ≤ now then some { c with stage := .session } else none
    | .returned => some { c with stage := if c.stopFlag then .ended else .unasked }
    | .unasked => some { c with stage := if c.received then .dying else .ended }
    | .dying => some { c with captureDead := true, stage := .ended }

/-- The next update for the session, none to disconnect it, or nothing yet. The first sender is the
thread's, the second one is the display's. -/
def nextUpdate (displaySends : Bool) : Option (Option (SentUpdate U) × WaylandCapture U) :=
  match c.queue with
  | update :: queue => some (some update, { c with queue, taken := c.taken ++ [update] })
  | [] =>
    if c.stage = .ended ∧ !displaySends then some (none, { c with disconnected := true })
    else if c.captureDead then some (none, { c with captureDead := false, disconnected := true })
    else none

end WaylandCapture

/-- What the display does with its captures while it holds the resize gate. -/
inductive CaptureTask
  | free
  | joining (previous : Option Nat)
  | joined
  | awaiting (capture : Nat)
  | shutdown (previous : Option Nat)
  deriving DecidableEq, Repr

/-- The display and all the captures that it has started, the newest last: the stop flag and the update
sender of the display are those of the newest one. `started` is the history: the captures whose answer
`start_capture` has received. -/
structure CaptureThreads (U : Type) where
  now : Nat
  captures : List (WaylandCapture U)
  captureHandle : Option Nat
  closed : Bool
  task : CaptureTask
  removed : Bool
  started : List Nat
  deriving DecidableEq, Repr

namespace CaptureThreads

/-- One step of the clock, of a capture thread, of the display, of its shutdown or of the session that
receives the updates of a capture. -/
inductive Action (U : Type)
  | tick (elapsed : Nat)
  | thread (i : Nat) (choice : CaptureChoice U)
  | close
  | beginStart
  | join
  | startCapture (spawned : Bool)
  | answered
  | cancel
  | beginShutdown
  | removeOutput
  | displaySend (update : U)
  | nextUpdate (i : Nat)
  | dropUpdates (i : Nat)

variable {U : Type}

def init : CaptureThreads U := ⟨0, [], none, false, .free, false, []⟩

variable (s : CaptureThreads U)

def newest : Nat := s.captures.length - 1

def modify (i : Nat) (f : WaylandCapture U → WaylandCapture U) : CaptureThreads U :=
  { s with captures := s.captures.modify i f }

def stopNewest : CaptureThreads U := s.modify s.newest WaylandCapture.stop

def Ended (i : Nat) : Prop := ∃ c, s.captures[i]? = some c ∧ c.stage = .ended

instance (i : Nat) : Decidable (s.Ended i) :=
  decidable_of_iff (∃ c ∈ s.captures[i]?, c.stage = .ended) Iff.rfl

/-- The session has the receiver of this capture. -/
def handedOut (i : Nat) : Bool := s.task ≠ .awaiting i && s.captures[i]?.any (·.received)

def next : Action U → Option (CaptureThreads U)
  | .tick elapsed => some { s with now := s.now + elapsed }
  | .thread i choice =>
    (s.captures[i]?.bind fun c => c.step s.now choice).map fun c => s.modify i fun _ => c
  | .close =>
    match s.task with
    -- a start that waits for its thread and a shutdown both keep the display locked
    | .awaiting _ | .shutdown _ => none
    | _ => some { s.stopNewest with closed := true }
  | .beginStart =>
    if s.task = .free then
      some (if s.closed then s else { s.stopNewest with captureHandle := none, task := .joining s.captureHandle })
    else none
  | .join =>
    match s.task with
    | .joining previous => if ∀ i ∈ previous, s.Ended i then some { s with task := .joined } else none
    | _ => none
  | .startCapture spawned =>
    if s.task = .joined then
      some (if s.closed then { s with task := .free }
        else { s with
          captures := s.captures ++ [.start spawned]
          task := if spawned then .awaiting s.captures.length else .free })
    else none
  | .answered =>
    match s.task with
    | .awaiting i =>
      match s.captures[i]?.bind (·.info) with
      | some true => some { s with captureHandle := some i, task := .free, started := i :: s.started }
      | some false => some { s.modify i WaylandCapture.dropUpdates with task := .free }
      | none => none
    | _ => none
  | .cancel =>
    match s.task with
    | .joining _ | .joined => some { s with task := .free }
    | .awaiting i => some { s.modify i WaylandCapture.dropUpdates with task := .free }
    | .free | .shutdown _ => none
  | .beginShutdown =>
    if s.task = .free then
      some { s.stopNewest with captureHandle := none, closed := true, task := .shutdown s.captureHandle }
    else none
  | .removeOutput =>
    match s.task with
    | .shutdown previous =>
      if ∀ i ∈ previous, s.Ended i then some { s with removed := true, task := .free } else none
    | _ => none
  | .displaySend update =>
    some (s.modify s.newest fun c => if c.hasRoom then c.send ⟨false, update⟩ else c)
  | .nextUpdate i =>
    if s.handedOut i then
      (s.captures[i]?.bind (·.nextUpdate (i == s.newest))).map fun result => s.modify i fun _ => result.2
    else none
  | .dropUpdates i => if s.handedOut i then some (s.modify i WaylandCapture.dropUpdates) else none

def runs (U : Type) : StepSystem (CaptureThreads U) (Action U) := .ofFun init next

end CaptureThreads

namespace WaylandCapture

variable {U : Type} {now : Nat} {c d : WaylandCapture U}

/-- All that can happen to a capture in one step of the display. -/
inductive Touched (now : Nat) (c : WaylandCapture U) : WaylandCapture U → Prop
  | kept : Touched now c c
  | thread {d : WaylandCapture U} (choice : CaptureChoice U) (step : c.step now choice = some d) : Touched now c d
  | stop : Touched now c c.stop
  | dropUpdates : Touched now c c.dropUpdates
  | displaySend (update : U) (room : c.hasRoom = true) : Touched now c (c.send ⟨false, update⟩)
  | nextUpdate {result : Option (SentUpdate U)} {d : WaylandCapture U} (displaySends : Bool)
    (received : c.received = true) (next : c.nextUpdate displaySends = some (result, d)) : Touched now c d

/-- The steps of a capture thread, each with the stage that it is taken in. -/
inductive Step (now : Nat) (c : WaylandCapture U) : CaptureChoice U → WaylandCapture U → Prop
  | push {update : U} : c.stage = .session → c.hasRoom = true → Step now c (.push update) (c.send ⟨true, update⟩)
  | answer : c.stage = .session → c.info = none → Step now c .answer { c with info := some true }
  | finish : c.stage = .session → Step now c (.finish none) c.leave
  | fail {failure : CaptureFailure} : c.stage = .session →
    Step now c (.finish (some failure)) { c with stage := .failed failure }
  | replenish {failure : CaptureFailure} : c.stage = .failed failure → Step now c .proceed { c with
      restarts := match c.lastRestart with
        | some last => replenishedRestarts c.restarts (now - last)
        | none => c.restarts
      stage := .replenished failure now }
  | restart {failure : CaptureFailure} {due restarts : Nat} : c.stage = .replenished failure due →
    captureSessionRestartDecision failure c.stopFlag c.restarts = .restart restarts →
      Step now c .proceed { c with restarts, stage := .restarting due }
  | giveUp {failure : CaptureFailure} {due restarts : Nat} : c.stage = .replenished failure due →
    captureSessionRestartDecision failure c.stopFlag c.restarts = .giveUp restarts →
      Step now c .proceed { c with restarts, gaveUp := some due }.leave
  | propagate {failure : CaptureFailure} {due : Nat} : c.stage = .replenished failure due →
    captureSessionRestartDecision failure c.stopFlag c.restarts = .propagate → Step now c .proceed c.leave
  | pause {due : Nat} : c.stage = .restarting due →
    Step now c .proceed { c with lastRestart := some now, log := ⟨due, now⟩ :: c.log, stage := .pausing }
  | resume : c.stage = .pausing → (∀ last ∈ c.lastRestart, last + captureRestartPause ≤ now) →
    Step now c .proceed { c with stage := .session }
  | readFlag : c.stage = .returned → Step now c .proceed { c with stage := if c.stopFlag then .ended else .unasked }
  | probe : c.stage = .unasked → Step now c .proceed { c with stage := if c.received then .dying else .ended }
  | signal : c.stage = .dying → Step now c .proceed { c with captureDead := true, stage := .ended }

theorem step_cases {choice : CaptureChoice U} (step : c.step now choice = some d) : Step now c choice d := by
  cases choice with
  | push update =>
    obtain ⟨⟨inSession, room⟩, same⟩ := Option.ite_none_right_eq_some.mp step
    cases same
    exact .push inSession room
  | answer =>
    obtain ⟨⟨inSession, unanswered⟩, same⟩ := Option.ite_none_right_eq_some.mp step
    cases same
    exact .answer inSession unanswered
  | finish outcome =>
    dsimp only [WaylandCapture.step] at step
    split at step
    · cases step
      exact .finish ‹_›
    · cases step
      exact .fail ‹_›
    · cases step
  | proceed =>
    dsimp only [WaylandCapture.step] at step
    split at step
    · cases step
    · cases step
    · cases step
      exact .replenish ‹_›
    · rename_i failure due atStage
      split at step
      · cases step
        exact .restart atStage ‹_›
      · cases step
        exact .giveUp atStage ‹_›
      · cases step
        exact .propagate atStage ‹_›
    · cases step
      exact .pause ‹_›
    · obtain ⟨late, same⟩ := Option.ite_none_right_eq_some.mp step
      cases same
      exact .resume ‹_› late
    · cases step
      exact .readFlag ‹_›
    · cases step
      exact .probe ‹_›
    · cases step
      exact .signal ‹_›

/-- The updates come first, in their order; the session is told to disconnect when there is none left. -/
theorem nextUpdate_cases {displaySends : Bool} {result : Option (SentUpdate U)}
    (next : c.nextUpdate displaySends = some (result, d)) :
    (∃ update queue, c.queue = update :: queue ∧ result = some update ∧ d = { c with queue, taken := c.taken ++ [update] }) ∨
      c.queue = [] ∧ result = none ∧ (c.stage = .ended ∨ c.captureDead = true) ∧
        (d = { c with disconnected := true } ∨ d = { c with captureDead := false, disconnected := true }) := by
  unfold WaylandCapture.nextUpdate at next
  split at next
  · rename_i update queue isQueue
    cases next
    exact .inl ⟨update, queue, isQueue, rfl, rfl⟩
  · rename_i isEmpty
    split at next
    · rename_i isOver
      cases next
      exact .inr ⟨isEmpty, rfl, .inl isOver.1, .inl rfl⟩
    · obtain ⟨signalled, same⟩ := Option.ite_none_right_eq_some.mp next
      cases same
      exact .inr ⟨isEmpty, rfl, .inr signalled, .inr rfl⟩

end WaylandCapture

namespace CaptureThreads

variable {U : Type} {s t : CaptureThreads U} {i : Nat} {c d : WaylandCapture U}

@[simp] theorem modify_length {f : WaylandCapture U → WaylandCapture U} {j : Nat} :
    (s.modify j f).captures.length = s.captures.length :=
  List.length_modify _ _ _

theorem modify_captures {f : WaylandCapture U → WaylandCapture U} {j : Nat} (member : (s.modify j f).captures[i]? = some d) :
    ∃ c, s.captures[i]? = some c ∧ d = if j = i then f c else c := by
  unfold modify at member
  rw [List.getElem?_modify] at member
  obtain ⟨c, at_, same⟩ := Option.map_eq_some_iff.mp member
  exact ⟨c, at_, same.symm⟩

theorem modify_self {f : WaylandCapture U → WaylandCapture U} (member : s.captures[i]? = some c) :
    (s.modify i f).captures[i]? = some (f c) := by
  unfold modify
  rw [List.getElem?_modify_eq, member]
  rfl

/-- Every capture after the step is one before it, touched at most once. -/
structure Follows (s t : CaptureThreads U) : Prop where
  length : t.captures.length = s.captures.length
  each : ∀ (i : Nat) (d : WaylandCapture U), t.captures[i]? = some d → ∃ c, s.captures[i]? = some c ∧ c.Touched s.now d

theorem Follows.same (same : t.captures = s.captures) : s.Follows t where
  length := congrArg List.length same
  each i d member := by
    rw [same] at member
    exact ⟨d, member, .kept⟩

theorem Follows.modify {f : WaylandCapture U → WaylandCapture U} {j : Nat}
    (same : t.captures = (s.modify j f).captures) (touch : ∀ c, s.captures[j]? = some c → c.Touched s.now (f c)) :
    s.Follows t where
  length := (congrArg List.length same).trans modify_length
  each i d member := by
    rw [same] at member
    obtain ⟨c, before, rfl⟩ := modify_captures member
    refine ⟨c, before, ?_⟩
    split
    · rename_i here
      subst here
      exact touch c before
    · exact .kept

theorem Follows.kept (follows : s.Follows t) (member : s.captures[i]? = some c) :
    ∃ d, t.captures[i]? = some d ∧ c.Touched s.now d := by
  have inside : i < t.captures.length := by
    rw [follows.length]
    exact (List.getElem?_eq_some_iff.mp member).1
  have after := List.getElem?_eq_getElem inside
  obtain ⟨before, same, touched⟩ := follows.each i _ after
  cases Option.some.inj (member.symm.trans same)
  exact ⟨_, after, touched⟩

theorem stopNewest_follows (same : t.captures = s.stopNewest.captures) : s.Follows t :=
  .modify same fun _ _ => .stop

theorem dropUpdates_follows (same : t.captures = (s.modify i WaylandCapture.dropUpdates).captures) : s.Follows t :=
  .modify same fun _ _ => .dropUpdates

theorem handedOut_received (out : s.handedOut i = true) (member : s.captures[i]? = some c) : c.received = true := by
  unfold handedOut at out
  rw [member] at out
  exact (Bool.and_eq_true_iff.mp out).2

/-- What the steps can do to the display's side, each with the state that it is taken in. -/
inductive Turn (s : CaptureThreads U) : Action U → CaptureThreads U → Prop
  | calm {action : Action U} {t : CaptureThreads U} : t.task = s.task → t.captureHandle = s.captureHandle →
    t.removed = s.removed → t.started = s.started → (s.closed = true → t.closed = true) → s.now ≤ t.now → s.Follows t →
      Turn s action t
  | beginStart : s.task = .free → s.closed = false →
    Turn s .beginStart { s.stopNewest with captureHandle := none, task := .joining s.captureHandle }
  | join {previous : Option Nat} : s.task = .joining previous → (∀ i ∈ previous, s.Ended i) →
    Turn s .join { s with task := .joined }
  | refused {spawned : Bool} : s.task = .joined → Turn s (.startCapture spawned) { s with task := .free }
  | startCapture (spawned : Bool) : s.task = .joined → s.closed = false → Turn s (.startCapture spawned) { s with
      captures := s.captures ++ [.start spawned]
      task := if spawned then .awaiting s.captures.length else .free }
  | started {i : Nat} : s.task = .awaiting i →
    Turn s .answered { s with captureHandle := some i, task := .free, started := i :: s.started }
  | failed {i : Nat} {c : WaylandCapture U} : s.task = .awaiting i → s.captures[i]? = some c → c.info = some false →
    Turn s .answered { s.modify i WaylandCapture.dropUpdates with task := .free }
  | cancelStart {previous : Option Nat} : s.task = .joining previous → Turn s .cancel { s with task := .free }
  | cancelJoined : s.task = .joined → Turn s .cancel { s with task := .free }
  | cancelAwaiting {i : Nat} : s.task = .awaiting i →
    Turn s .cancel { s.modify i WaylandCapture.dropUpdates with task := .free }
  | beginShutdown : s.task = .free →
    Turn s .beginShutdown { s.stopNewest with captureHandle := none, closed := true, task := .shutdown s.captureHandle }
  | removeOutput {previous : Option Nat} : s.task = .shutdown previous → (∀ i ∈ previous, s.Ended i) →
    Turn s .removeOutput { s with removed := true, task := .free }

/-- A step that only touches one capture. -/
theorem Turn.touch {action : Action U} {f : WaylandCapture U → WaylandCapture U} {j : Nat}
    (touch : ∀ c, s.captures[j]? = some c → c.Touched s.now (f c)) : Turn s action (s.modify j f) :=
  .calm rfl rfl rfl rfl id (Nat.le_refl _) (.modify rfl touch)

theorem next_turn {action : Action U} (step : s.next action = some t) : Turn s action t := by
  cases action with
  | tick elapsed =>
    cases step
    exact .calm rfl rfl rfl rfl id (Nat.le_add_right _ _) (.same rfl)
  | thread j choice =>
    obtain ⟨d, moved, rfl⟩ := Option.map_eq_some_iff.mp step
    obtain ⟨c, member, moved⟩ := Option.bind_eq_some_iff.mp moved
    refine .touch fun other same => ?_
    cases Option.some.inj (member.symm.trans same)
    exact .thread choice moved
  | close =>
    dsimp only [next] at step
    split at step
    · cases step
    · cases step
    · cases step
      exact .calm rfl rfl rfl rfl (fun _ => rfl) (Nat.le_refl _) (stopNewest_follows rfl)
  | beginStart =>
    obtain ⟨free, same⟩ := Option.ite_none_right_eq_some.mp step
    cases same
    split
    · exact .calm rfl rfl rfl rfl id (Nat.le_refl _) (.same rfl)
    · exact .beginStart free (Bool.eq_false_iff.mpr ‹_›)
  | join =>
    dsimp only [next] at step
    split at step
    · obtain ⟨isEnded, same⟩ := Option.ite_none_right_eq_some.mp step
      cases same
      exact .join ‹_› isEnded
    · cases step
  | startCapture spawned =>
    obtain ⟨joined, same⟩ := Option.ite_none_right_eq_some.mp step
    cases same
    split
    · exact .refused joined
    · exact .startCapture spawned joined (Bool.eq_false_iff.mpr ‹_›)
  | answered =>
    dsimp only [next] at step
    split at step
    · rename_i awaiting
      split at step
      · cases step
        exact .started awaiting
      · rename_i refused
        obtain ⟨c, member, info⟩ := Option.bind_eq_some_iff.mp refused
        cases step
        exact .failed awaiting member info
      · cases step
    · cases step
  | cancel =>
    dsimp only [next] at step
    split at step
    · cases step
      exact .cancelStart ‹_›
    · cases step
      exact .cancelJoined ‹_›
    · cases step
      exact .cancelAwaiting ‹_›
    · cases step
    · cases step
  | beginShutdown =>
    obtain ⟨free, same⟩ := Option.ite_none_right_eq_some.mp step
    cases same
    exact .beginShutdown free
  | removeOutput =>
    dsimp only [next] at step
    split at step
    · obtain ⟨isEnded, same⟩ := Option.ite_none_right_eq_some.mp step
      cases same
      exact .removeOutput ‹_› isEnded
    · cases step
  | displaySend update =>
    cases step
    refine .touch fun c _ => ?_
    split
    · exact .displaySend update ‹_›
    · exact .kept
  | nextUpdate j =>
    obtain ⟨out, step⟩ := Option.ite_none_right_eq_some.mp step
    obtain ⟨⟨result, d⟩, taken, rfl⟩ := Option.map_eq_some_iff.mp step
    obtain ⟨c, member, taken⟩ := Option.bind_eq_some_iff.mp taken
    refine .touch fun other same => ?_
    cases Option.some.inj (member.symm.trans same)
    exact .nextUpdate _ (handedOut_received out member) taken
  | dropUpdates j =>
    obtain ⟨_, same⟩ := Option.ite_none_right_eq_some.mp step
    cases same
    exact .touch fun _ _ => .dropUpdates

/-- Every capture after a step is one before it, or has just been started. -/
theorem next_captures {action : Action U} (step : s.next action = some t) :
    s.now ≤ t.now ∧ (s.Follows t ∨ ∃ spawned, t.captures = s.captures ++ [WaylandCapture.start spawned]) := by
  cases next_turn step with
  | calm _ _ _ _ _ passed follows => exact ⟨passed, .inl follows⟩
  | beginStart _ _ => exact ⟨Nat.le_refl _, .inl (stopNewest_follows rfl)⟩
  | join _ _ => exact ⟨Nat.le_refl _, .inl (.same rfl)⟩
  | refused _ => exact ⟨Nat.le_refl _, .inl (.same rfl)⟩
  | startCapture spawned _ _ => exact ⟨Nat.le_refl _, .inr ⟨spawned, rfl⟩⟩
  | started _ => exact ⟨Nat.le_refl _, .inl (.same rfl)⟩
  | failed _ _ _ => exact ⟨Nat.le_refl _, .inl (dropUpdates_follows rfl)⟩
  | cancelStart _ => exact ⟨Nat.le_refl _, .inl (.same rfl)⟩
  | cancelJoined _ => exact ⟨Nat.le_refl _, .inl (.same rfl)⟩
  | cancelAwaiting _ => exact ⟨Nat.le_refl _, .inl (dropUpdates_follows rfl)⟩
  | beginShutdown _ => exact ⟨Nat.le_refl _, .inl (stopNewest_follows rfl)⟩
  | removeOutput _ _ => exact ⟨Nat.le_refl _, .inl (.same rfl)⟩

/-- A started capture is the last in the list. -/
theorem push_captures {spawned : Bool} (same : t.captures = s.captures ++ [WaylandCapture.start spawned]) (member : t.captures[i]? = some d) :
    s.captures[i]? = some d ∨ i = s.captures.length ∧ d = .start spawned := by
  rw [same, List.getElem?_append] at member
  split at member
  · exact .inl member
  · rename_i beyond
    obtain ⟨inside, isNew⟩ := List.getElem?_eq_some_iff.mp member
    have first : i - s.captures.length = 0 := Nat.lt_one_iff.mp inside
    exact .inr ⟨by omega, (List.mem_singleton.mp (List.mem_of_getElem? member))⟩

/-- What a capture has from its start and keeps whatever happens to it, it has in every run. -/
theorem each_capture {inv : Nat → WaylandCapture U → Prop} (start : ∀ now spawned, inv now (.start spawned))
    (later : ∀ now then_ c, now ≤ then_ → inv now c → inv then_ c)
    (touch : ∀ now c d, inv now c → c.Touched now d → inv now d) :
    (runs U).Inductive fun s => ∀ (i : Nat) (c : WaylandCapture U), s.captures[i]? = some c → inv s.now c where
  base := by
    rintro _ rfl i c member
    cases member
  keep := by
    intro s action t old step i d member
    obtain ⟨passed, follows | ⟨spawned, pushed⟩⟩ := next_captures step
    · obtain ⟨c, before, touched⟩ := follows.each i d member
      exact later s.now t.now d passed (touch s.now c d (old i c before) touched)
    · rcases push_captures pushed member with before | ⟨_, rfl⟩
      · exact later s.now t.now d passed (old i d before)
      · exact start t.now spawned

/-- The first start, up to the thread that it has spawned. -/
def firstStart : List (Action Nat) := [.beginStart, .join, .startCapture true]

/-- A session of the first thread that fails, up to the decision about a restart. -/
def failedSession : List (Action Nat) := [.thread 0 (.finish (some .geometryChanged)), .thread 0 .proceed, .thread 0 .proceed]

end CaptureThreads

end HyprRdp
