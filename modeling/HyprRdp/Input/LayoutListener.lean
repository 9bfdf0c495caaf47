import HyprRdp.Hyprland.EventStream
import HyprRdp.Input.Actor
import HyprRdp.Lib.Runs

namespace HyprRdp

/-- A keyboard in the answer to a devices query, where each field may be missing or of another kind. -/
structure DeviceKeyboard where
  name : Option (List Char)
  activeKeymap : Option (List Char)
  main : Option Bool

structure InitialLayoutCandidates where
  main : Option (List Char × List Char)
  others : List (List Char × List Char)

/-- What the listener tells the actor. -/
inductive LayoutCommand
  | setLockedLayout (layoutName : List Char) (fromOwnKeyboard : Bool)
  | setInitialLayout (candidates : InitialLayoutCandidates)

def ownVirtualKeyboardPrefix : List Char := "hl-virtual-keyboard-hypr-rdp".toList

def virtualKeyboardPrefix : List Char := "hl-virtual-keyboard".toList

/-- The layout's name may have commas, the keyboard's has none. -/
def parseActivelayout (data : List Char) : Option (List Char × List Char) := Fields.splitOnce [','] data

def layoutCommand (keyboard layout : List Char) : Option LayoutCommand :=
  let fromOwnKeyboard := ownVirtualKeyboardPrefix.isPrefixOf keyboard
  if fromOwnKeyboard = false ∧ virtualKeyboardPrefix.isPrefixOf keyboard then none
  else some (.setLockedLayout layout fromOwnKeyboard)

/-- Virtual keyboards do not count, and of the main ones only the first. -/
def physicalKeyboardLayouts (devices : Option (List DeviceKeyboard)) : Option InitialLayoutCandidates :=
  devices.bind fun keyboards =>
    let candidates := keyboards.foldl (fun (found : InitialLayoutCandidates) keyboard =>
      match keyboard.name, keyboard.activeKeymap with
      | some name, some layout =>
        if virtualKeyboardPrefix.isPrefixOf name then found
        else if found.main.isNone ∧ keyboard.main = some true then { found with main := some (name, layout) }
        else { found with others := found.others ++ [(name, layout)] }
      | _, _ => found) ⟨none, []⟩
    if candidates.main.isNone ∧ candidates.others.isEmpty then none else some candidates

def activelayout : List Char := "activelayout".toList

/-- What an event has the listener say. -/
def eventCommand (e : HyprlandEvent) : Option LayoutCommand :=
  if e.event = activelayout then (parseActivelayout e.data).bind fun (keyboard, layout) => layoutCommand keyboard layout
  else none

/-- Where the thread is: before a connection, in `drive_layout_events`, or in the pause after it. -/
inductive ListenerStage
  | connecting | driving | seeding | polling | reading | returned
  | pausing (left : Nat)
  deriving DecidableEq

/-- The thread with its channel. `received` and `before` record what the connection has brought, and what was sent
when its first query was over. -/
structure LayoutListener where
  stage : ListenerStage
  stream : EventStream
  sent : List LayoutCommand
  shutdown : Bool
  receiverGone : Bool
  received : List UInt8
  before : List LayoutCommand

inductive ListenerChoice
  | connects | connectFails | checks | sleeps | requestShutdown | hangUp
  | devices (answer : Option (List DeviceKeyboard))
  | turn (turn : SocketTurn)

namespace LayoutListener

def start : LayoutListener := ⟨.connecting, ⟨[]⟩, [], false, false, [], []⟩

variable (s : LayoutListener)

def goTo (stage : ListenerStage) : LayoutListener := { s with stage }

/-- Sends a command, and goes on if the receiver is still there. -/
def send (command : LayoutCommand) : LayoutListener :=
  if s.receiverGone then s.goTo .returned else { s with sent := s.sent ++ [command], stage := .polling }

/-- What `drive_layout_events` does with the event that it got. -/
def forward (e : HyprlandEvent) : LayoutListener :=
  match eventCommand e with
  | none => s.goTo .polling
  | some command => s.send command

/-- The first command of a connection. -/
def seed (answer : Option (List DeviceKeyboard)) : LayoutListener :=
  match physicalKeyboardLayouts answer with
  | none => { s.goTo .polling with before := s.sent }
  | some candidates =>
    let t := s.send (.setInitialLayout candidates)
    { t with before := t.sent }

def reads (turn : SocketTurn) : LayoutListener :=
  let t := { s with stream := (s.stream.nextEvent turn).1 }
  match (s.stream.nextEvent turn).2 with
  | none => { t with received := s.received ++ turn.bytes }
  | some (.ok (some e)) => t.forward e
  | some (.ok none) => t.goTo .polling
  | some (.error _) => t.goTo (.pausing 10)

def next (s : LayoutListener) : ListenerChoice → Option LayoutListener
  | .requestShutdown => some { s with shutdown := true }
  | .hangUp => some { s with receiverGone := true }
  | .connects =>
    match s.stage with
    | .connecting => some (if s.shutdown then s.goTo .returned else { s with stage := .driving, stream := ⟨[]⟩, received := [] })
    | _ => none
  | .connectFails =>
    match s.stage with
    | .connecting => some (if s.shutdown then s.goTo .returned else s.goTo (.pausing 10))
    | _ => none
  | .checks =>
    match s.stage with
    | .driving => some (if s.shutdown then s.goTo .returned else s.goTo .seeding)
    | .polling => some (if s.shutdown then s.goTo .returned else s.goTo .reading)
    | _ => none
  | .devices answer =>
    match s.stage with
    | .seeding => some (s.seed answer)
    | _ => none
  | .turn turn =>
    match s.stage with
    | .reading => some (s.reads turn)
    | _ => none
  | .sleeps =>
    match s.stage with
    | .pausing 0 => some (s.goTo .connecting)
    | .pausing (left + 1) => some (if s.shutdown then s.goTo .returned else s.goTo (.pausing left))
    | _ => none

def runs : StepSystem LayoutListener ListenerChoice := .ofFun start next

/-- What the complete lines of some bytes have the listener say. -/
def commandsOf (bytes : List UInt8) : List LayoutCommand :=
  (Framing.parsed EventStream.newline HyprlandEvent.parse bytes).filterMap eventCommand

def Connected : Prop := s.stage = .polling ∨ s.stage = .reading

/-- What was sent and what the buffer still has to say is what the connection has said. -/
structure Faithful : Prop where
  commands : s.sent ++ commandsOf s.stream.buf = s.before ++ commandsOf s.received
  rest : (Framing.cut EventStream.newline s.stream.buf).2 = (Framing.cut EventStream.newline s.received).2

theorem commandsOf_append (buf more : List UInt8) : commandsOf (buf ++ more) =
    commandsOf buf ++ commandsOf ((Framing.cut EventStream.newline buf).2 ++ more) := by
  rw [commandsOf, Framing.parsed_append, List.filterMap_append]
  rfl

variable {s}

/-- Bytes that come in belong behind both. -/
theorem Faithful.receives (faithful : s.Faithful) (bytes : List UInt8) :
    ({ s with stream := ⟨s.stream.buf ++ bytes⟩, received := s.received ++ bytes } : LayoutListener).Faithful where
  commands := by
    dsimp only
    rw [commandsOf_append s.stream.buf, commandsOf_append s.received, ← List.append_assoc, faithful.commands, faithful.rest,
      List.append_assoc]
  rest := by
    dsimp only
    rw [Framing.cut_append s.stream.buf, Framing.cut_append s.received, faithful.rest]

/-- The buffer after a pass, and what the pass took from it. -/
theorem takeParsed_commands (buf : List UInt8) :
    let taken := Framing.takeParsed EventStream.newline HyprlandEvent.parse buf
    commandsOf buf = (taken.1.bind eventCommand).toList ++ commandsOf taken.2 ∧
      (Framing.cut EventStream.newline buf).2 = (Framing.cut EventStream.newline taken.2).2 := by
  dsimp only
  refine ⟨?_, (Framing.takeParsed_parsed buf).2⟩
  rw [commandsOf, (Framing.takeParsed_parsed buf).1, List.filterMap_append]
  cases (Framing.takeParsed EventStream.newline HyprlandEvent.parse buf).1 with
  | none => rfl
  | some e => cases said : eventCommand e <;> simp [said, commandsOf]

/-- The buffer is what is left of a pass, and what was taken has been sent. -/
theorem Faithful.takes (faithful : s.Faithful) {later : LayoutListener} {more : List LayoutCommand} {rest : List UInt8}
    (said : commandsOf s.stream.buf = more ++ commandsOf rest)
    (behind : (Framing.cut EventStream.newline s.stream.buf).2 = (Framing.cut EventStream.newline rest).2)
    (buf : later.stream.buf = rest) (sent : later.sent = s.sent ++ more) (before : later.before = s.before)
    (received : later.received = s.received) : later.Faithful where
  commands := by
    rw [buf, sent, before, received, List.append_assoc, ← said, faithful.commands]
  rest := by
    rw [buf, received, ← behind, faithful.rest]

theorem send_connected {command : LayoutCommand} (connected : (s.send command).Connected) :
    s.receiverGone = false ∧ s.send command = { s with sent := s.sent ++ [command], stage := .polling } := by
  unfold send at connected ⊢
  by_cases gone : s.receiverGone = true
  · rw [if_pos gone] at connected
    simp [Connected, goTo] at connected
  · exact ⟨Bool.eq_false_of_not_eq_true gone, if_neg gone⟩

theorem Faithful.reads (faithful : s.Faithful) {turn : SocketTurn} (connected : (s.reads turn).Connected) :
    (s.reads turn).Faithful := by
  obtain ⟨said, behind⟩ := takeParsed_commands s.stream.buf
  unfold LayoutListener.reads EventStream.nextEvent at connected ⊢
  cases taken : Framing.takeParsed EventStream.newline HyprlandEvent.parse s.stream.buf with
  | mk found rest =>
    rw [taken] at said behind
    cases found with
    | some e =>
      simp only [taken, forward] at connected ⊢
      cases command : eventCommand e with
      | none =>
        simp only [command, Option.bind_some, Option.toList_none, List.nil_append] at said connected ⊢
        exact faithful.takes said behind rfl (List.append_nil _).symm rfl rfl
      | some command' =>
        simp only [command, Option.bind_some, Option.toList_some] at said connected ⊢
        obtain ⟨_, same⟩ := send_connected connected
        rw [same]
        exact faithful.takes said behind rfl rfl rfl rfl
    | none =>
      simp only [Option.bind_none, Option.toList_none, List.nil_append] at said
      have left : ({ s with stream := ⟨rest⟩ } : LayoutListener).Faithful :=
        faithful.takes said behind rfl (List.append_nil _).symm rfl rfl
      cases turn with
      | data bytes => exact left.receives bytes
      | again =>
        simp only [SocketTurn.bytes, List.append_nil]
        exact left
      | expired => exact ⟨left.commands, left.rest⟩
      | closed => exact ⟨left.commands, left.rest⟩
      | failed => exact ⟨left.commands, left.rest⟩

@[simp] theorem send_stream (command : LayoutCommand) : (s.send command).stream = s.stream := by
  unfold send
  split <;> rfl

@[simp] theorem send_received (command : LayoutCommand) : (s.send command).received = s.received := by
  unfold send
  split <;> rfl

/-- After the first query nothing has been read yet. -/
theorem seed_faithful (answer : Option (List DeviceKeyboard)) (fresh : s.stream.buf = [] ∧ s.received = []) :
    (s.seed answer).Faithful := by
  obtain ⟨empty, none⟩ := fresh
  unfold seed
  cases physicalKeyboardLayouts answer with
  | none =>
    refine ⟨?_, ?_⟩
    · simp only [goTo, empty, none]
    · simp only [goTo, empty, none]
  | some candidates =>
    refine ⟨?_, ?_⟩
    · simp only [send_stream, send_received, empty, none]
    · simp only [send_stream, send_received, empty, none]

/-- Nothing is read before the first query is over. -/
def Fresh (s : LayoutListener) : Prop :=
  s.stage = .driving ∨ s.stage = .seeding → s.stream.buf = [] ∧ s.received = []

def Kept (s : LayoutListener) : Prop := s.Fresh ∧ (s.Connected → s.Faithful)

theorem kept_elsewhere {stage : ListenerStage} (elsewhere : stage ∉ [.driving, .seeding, .polling, .reading]) :
    (s.goTo stage).Kept := by
  simp only [List.mem_cons, List.not_mem_nil, or_false, not_or] at elsewhere
  obtain ⟨driving, seeding, polling, reading⟩ := elsewhere
  exact ⟨fun early => (early.elim driving seeding).elim, fun connected => (connected.elim polling reading).elim⟩

theorem kept_connected (connected : s.Connected) (faithful : s.Faithful) : s.Kept := by
  refine ⟨fun early => ?_, fun _ => faithful⟩
  rcases early with same | same <;> rcases connected with other | other <;> cases same.symm.trans other

theorem kept_early (early : s.stage = .driving ∨ s.stage = .seeding) (fresh : s.stream.buf = [] ∧ s.received = []) : s.Kept := by
  refine ⟨fun _ => fresh, fun connected => ?_⟩
  rcases early with same | same <;> rcases connected with other | other <;> cases same.symm.trans other

/-- Where a check of the flag may end the thread. -/
theorem kept_check {t : LayoutListener} (kept : t.Kept) : (if s.shutdown then s.goTo .returned else t).Kept := by
  by_cases shutdown : s.shutdown = true
  · rw [if_pos shutdown]
    exact kept_elsewhere (by simp)
  · rw [if_neg shutdown]
    exact kept

theorem kept_late (late : s.stage ≠ .driving ∧ s.stage ≠ .seeding) (faithful : s.Connected → s.Faithful) : s.Kept :=
  ⟨fun early => (early.elim late.1 late.2).elim, faithful⟩

theorem send_late (command : LayoutCommand) : (s.send command).stage ≠ .driving ∧ (s.send command).stage ≠ .seeding := by
  unfold send
  split <;> simp [goTo]

theorem seed_late (answer : Option (List DeviceKeyboard)) :
    (s.seed answer).stage ≠ .driving ∧ (s.seed answer).stage ≠ .seeding := by
  unfold seed
  split
  · simp [goTo]
  · exact send_late _

theorem reads_late (reading : s.stage = .reading) (turn : SocketTurn) :
    (s.reads turn).stage ≠ .driving ∧ (s.reads turn).stage ≠ .seeding := by
  unfold LayoutListener.reads
  split
  · simp [reading]
  · unfold forward
    split
    · simp [goTo]
    · exact send_late _
  · simp [goTo]
  · simp [goTo]

theorem next_kept {choice : ListenerChoice} {t : LayoutListener} (kept : s.Kept) (step : next s choice = some t) : t.Kept := by
  obtain ⟨fresh, faithful⟩ := kept
  cases choice with
  | requestShutdown =>
    cases step
    exact ⟨fresh, fun connected => ⟨(faithful connected).commands, (faithful connected).rest⟩⟩
  | hangUp =>
    cases step
    exact ⟨fresh, fun connected => ⟨(faithful connected).commands, (faithful connected).rest⟩⟩
  | connects =>
    dsimp only [next] at step
    split at step
    · cases step
      exact kept_check (kept_early (Or.inl rfl) ⟨rfl, rfl⟩)
    · exact absurd step.symm (Option.some_ne_none _)
  | connectFails =>
    dsimp only [next] at step
    split at step
    · cases step
      exact kept_check (kept_elsewhere (by simp))
    · exact absurd step.symm (Option.some_ne_none _)
  | checks =>
    dsimp only [next] at step
    split at step
    next at' =>
      cases step
      exact kept_check (kept_early (Or.inr rfl) (fresh (Or.inl at')))
    next at' =>
      cases step
      have old := faithful (Or.inl at')
      exact kept_check (kept_connected (s := s.goTo .reading) (Or.inr rfl) ⟨old.commands, old.rest⟩)
    next => exact absurd step.symm (Option.some_ne_none _)
  | devices answer =>
    dsimp only [next] at step
    split at step
    next at' =>
      cases step
      exact kept_late (seed_late answer) fun _ => seed_faithful answer (fresh (Or.inr at'))
    next => exact absurd step.symm (Option.some_ne_none _)
  | turn turn =>
    dsimp only [next] at step
    split at step
    next at' =>
      cases step
      exact kept_late (reads_late at' turn) (faithful (Or.inr at')).reads
    next => exact absurd step.symm (Option.some_ne_none _)
  | sleeps =>
    dsimp only [next] at step
    split at step
    · cases step
      exact kept_elsewhere (by simp)
    · cases step
      exact kept_check (kept_elsewhere (by simp))
    · exact absurd step.symm (Option.some_ne_none _)

theorem kept_inductive : runs.Inductive Kept where
  base := by
    rintro _ rfl
    exact ⟨fun _ => ⟨rfl, rfl⟩, fun _ => ⟨rfl, rfl⟩⟩
  keep _ _ _ kept step := next_kept kept step

/-- However the bytes of the connection are cut into reads: what the listener has sent since its first query, and what
its buffer still has to say, is what the lines that came in say. -/
theorem layouts_forwarded (reach : runs.Reach s) (connected : s.Connected) :
    s.sent ++ commandsOf s.stream.buf = s.before ++ commandsOf s.received :=
  ((kept_inductive.reach reach).2 connected).commands

/-- The name of the keyboard ends at the first comma. -/
theorem eventCommand_switch {keyboard : List Char} (plain : ',' ∉ keyboard) (layout : List Char) :
    eventCommand ⟨activelayout, keyboard ++ [','] ++ layout⟩ = layoutCommand keyboard layout := by
  simp only [eventCommand, parseActivelayout, if_true, Fields.splitOnce_first plain, Option.bind_some]

/-- What the thread can still send once it has been told to stop. -/
def credit (s : LayoutListener) : Nat := if s.stage = .seeding ∨ s.stage = .reading then 1 else 0

theorem send_credit (command : LayoutCommand) :
    (s.send command).sent.length + (s.send command).credit ≤ s.sent.length + 1 := by
  unfold send credit
  split <;> simp [goTo]

theorem seed_credit (answer : Option (List DeviceKeyboard)) :
    (s.seed answer).sent.length + (s.seed answer).credit ≤ s.sent.length + 1 := by
  unfold seed
  split
  · simp [goTo, credit]
  · exact send_credit _

theorem reads_credit (reading : s.stage = .reading) (turn : SocketTurn) :
    (s.reads turn).sent.length + (s.reads turn).credit ≤ s.sent.length + 1 := by
  unfold LayoutListener.reads
  split
  · simp [credit, reading]
  · unfold forward
    split
    · simp [goTo, credit]
    · exact send_credit _
  · simp [goTo, credit]
  · simp [goTo, credit]

theorem next_credit {choice : ListenerChoice} {t : LayoutListener} (told : s.shutdown = true) (step : next s choice = some t) :
    t.sent.length + t.credit ≤ s.sent.length + s.credit := by
  cases choice with
  | requestShutdown =>
    cases step
    exact Nat.le_refl _
  | hangUp =>
    cases step
    exact Nat.le_refl _
  | devices answer =>
    dsimp only [next] at step
    split at step
    next at' =>
      cases step
      have one : s.credit = 1 := if_pos (Or.inl at')
      rw [one]
      exact seed_credit answer
    next => exact absurd step.symm (Option.some_ne_none _)
  | turn turn =>
    dsimp only [next] at step
    split at step
    next at' =>
      cases step
      have one : s.credit = 1 := if_pos (Or.inr at')
      rw [one]
      exact reads_credit at' turn
    next => exact absurd step.symm (Option.some_ne_none _)
  | connects | connectFails | checks | sleeps =>
    simp only [next, told, if_true] at step
    split at step
    all_goals first
      | exact absurd step.symm (Option.some_ne_none _)
      | cases step; simp [goTo, credit]

@[simp] theorem send_shutdown (command : LayoutCommand) : (s.send command).shutdown = s.shutdown := by
  unfold send
  split <;> rfl

theorem seed_shutdown (answer : Option (List DeviceKeyboard)) : (s.seed answer).shutdown = s.shutdown := by
  unfold seed
  split
  · rfl
  · exact send_shutdown _

theorem reads_shutdown (turn : SocketTurn) : (s.reads turn).shutdown = s.shutdown := by
  unfold LayoutListener.reads
  split
  · rfl
  · unfold forward
    split
    · rfl
    · exact send_shutdown _
  · rfl
  · rfl

theorem next_shutdown {choice : ListenerChoice} {t : LayoutListener} (told : s.shutdown = true) (step : next s choice = some t) :
    t.shutdown = true := by
  cases choice with
  | requestShutdown =>
    cases step
    rfl
  | hangUp =>
    cases step
    exact told
  | devices answer =>
    dsimp only [next] at step
    split at step
    · cases step
      exact (seed_shutdown answer).trans told
    · exact absurd step.symm (Option.some_ne_none _)
  | turn turn =>
    dsimp only [next] at step
    split at step
    · cases step
      exact (reads_shutdown turn).trans told
    · exact absurd step.symm (Option.some_ne_none _)
  | connects | connectFails | checks | sleeps =>
    simp only [next, told, if_true] at step
    split at step
    all_goals first
      | exact absurd step.symm (Option.some_ne_none _)
      | cases step; exact told

/-- Once it has been told to stop, the listener sends one more command at most. -/
theorem shutdown_last {t : LayoutListener} (told : s.shutdown = true) (more : (runs.after s).Reach t) :
    t.sent.length ≤ s.sent.length + 1 := by
  have kept : t.shutdown = true ∧ t.sent.length + t.credit ≤ s.sent.length + s.credit := by
    induction more with
    | start same =>
      rw [same]
      exact ⟨told, Nat.le_refl _⟩
    | next _ step ih => exact ⟨next_shutdown ih.1 step, Nat.le_trans (next_credit ih.1 step) ih.2⟩
  have one : s.credit ≤ 1 := by
    unfold credit
    split <;> omega
  omega

end LayoutListener

/-- The command as the actor takes it, with the device's answer to a keymap that it may have to announce. -/
def LayoutCommand.input (taken : Bool) : LayoutCommand → InputCommand
  | .setLockedLayout layoutName fromOwnKeyboard => .setLockedLayout (String.ofList layoutName) fromOwnKeyboard taken
  | .setInitialLayout candidates =>
    .setInitialLayout (candidates.main.map fun entry => String.ofList entry.2)
      (candidates.others.map fun entry => String.ofList entry.2)

/-- What the xkb library does with a group to lock, in the states in which no key shifts or latches the group. -/
structure XkbApi.LocksGroups {Xkb : Type} (api : XkbApi Xkb) (plain : Xkb → Prop) (layouts : Nat) : Prop where
  supported : api.updateLatchedLocked.isSome
  keeps : ∀ update ∈ api.updateLatchedLocked, ∀ x group, plain x → plain (update x 0 0 (some group))
  group : ∀ update ∈ api.updateLatchedLocked, ∀ x group, plain x → group < layouts →
    (api.modifierState (update x 0 0 (some group))).group = group

namespace InputActor

variable {Xkb : Type} (api : XkbApi Xkb) (s : InputActor Xkb)

def obey (answered : List (LayoutCommand × Bool)) : InputActor Xkb :=
  answered.foldl (fun t command => t.handleCommand api (command.1.input command.2)) s

def group : Nat := (s.tracker.modifierState api).group

/-- The group that a command stands for: none if no layout of the keymap has the name, or if it is feedback. -/
def groupOf : LayoutCommand → Option Nat
  | .setLockedLayout layoutName fromOwnKeyboard =>
    if fromOwnKeyboard then none else s.tracker.layoutIndexByName (String.ofList layoutName)
  | .setInitialLayout candidates =>
    s.pickInitialLayout (candidates.main.map fun entry => String.ofList entry.2)
      (candidates.others.map fun entry => String.ofList entry.2)

variable {api} {s}

theorem setLockedGroup_tracker (group : Nat) :
    (s.setLockedGroup api group).tracker = s.tracker.setLockedGroup api group := by
  unfold setLockedGroup
  dsimp only
  split <;> rfl

theorem handleOwnLayoutEvent_tracker (layoutName : String) (taken : Bool) :
    (s.handleOwnLayoutEvent api layoutName taken).tracker = s.tracker := by
  unfold handleOwnLayoutEvent
  split
  · split <;> rfl
  · split <;> rfl

/-- A command moves the replica to its group, or leaves it alone. -/
theorem handleCommand_layout (command : LayoutCommand) (taken : Bool) :
    (s.handleCommand api (command.input taken)).tracker =
      (s.groupOf command).elim s.tracker (s.tracker.setLockedGroup api) := by
  cases command with
  | setLockedLayout layoutName fromOwnKeyboard =>
    cases fromOwnKeyboard with
    | true => exact handleOwnLayoutEvent_tracker _ _
    | false =>
      simp only [LayoutCommand.input, handleCommand, setLockedLayout, groupOf, Bool.false_eq_true, if_false]
      cases s.tracker.layoutIndexByName (String.ofList layoutName) with
      | none => rfl
      | some group => exact setLockedGroup_tracker group
  | setInitialLayout candidates =>
    simp only [LayoutCommand.input, handleCommand, groupOf]
    cases s.pickInitialLayout (candidates.main.map fun entry => String.ofList entry.2)
        (candidates.others.map fun entry => String.ofList entry.2) with
    | none => rfl
    | some group => exact setLockedGroup_tracker group

theorem pickInitialLayout_lt {main : Option String} {others : List String} {group : Nat}
    (picked : s.pickInitialLayout main others = some group) : group < s.tracker.layoutNames.length := by
  have named : ∀ {name group}, s.tracker.layoutIndexByName name = some group → group < s.tracker.layoutNames.length :=
    fun found => (List.findIdx?_eq_some_iff_getElem.mp found).1
  unfold pickInitialLayout at picked
  rcases Option.or_eq_some_iff.mp picked with main | ⟨_, other⟩
  · obtain ⟨name, _, found⟩ := Option.bind_eq_some_iff.mp main
    exact named found
  · have listed : group ∈ others.filterMap s.tracker.layoutIndexByName := by
      rcases Option.or_eq_some_iff.mp other with switched | ⟨_, first⟩
      · exact List.mem_of_find?_eq_some switched
      · exact List.mem_of_head? first
    obtain ⟨name, _, found⟩ := List.mem_filterMap.mp listed
    exact named found

theorem groupOf_lt {command : LayoutCommand} {group : Nat} (stands : s.groupOf command = some group) :
    group < s.tracker.layoutNames.length := by
  cases command with
  | setLockedLayout layoutName fromOwnKeyboard =>
    obtain ⟨_, found⟩ := Option.ite_none_left_eq_some.mp stands
    exact (List.findIdx?_eq_some_iff_getElem.mp found).1
  | setInitialLayout candidates => exact pickInitialLayout_lt stands

theorem setLockedGroup_layoutNames (t : KeyboardStateTracker Xkb) (group : Nat) :
    (t.setLockedGroup api group).layoutNames = t.layoutNames := by
  unfold KeyboardStateTracker.setLockedGroup KeyboardStateTracker.applyLatchedLocked
  split <;> rfl

theorem groupOf_congr {t : InputActor Xkb} (names : t.tracker.layoutNames = s.tracker.layoutNames) :
    t.groupOf = s.groupOf := by
  have index : t.tracker.layoutIndexByName = s.tracker.layoutIndexByName := by
    funext name
    rw [KeyboardStateTracker.layoutIndexByName, KeyboardStateTracker.layoutIndexByName, names]
  funext command
  cases command with
  | setLockedLayout layoutName fromOwnKeyboard => rw [groupOf, groupOf, index]
  | setInitialLayout candidates => rw [groupOf, groupOf, pickInitialLayout, pickInitialLayout, index]

variable {plain : Xkb → Prop}

/-- The group after some commands is that of the last one that stands for a group. -/
theorem obey_group {layouts : Nat} (locks : api.LocksGroups plain layouts) (names : s.tracker.layoutNames.length = layouts)
    (calm : plain s.tracker.xkbState) (answered : List (LayoutCommand × Bool)) :
    (s.obey api answered).group api = (((answered.map Prod.fst).filterMap s.groupOf).getLast?).getD (s.group api) := by
  induction answered generalizing s with
  | nil => rfl
  | cons command answered ih =>
    obtain ⟨command, taken⟩ := command
    have moved : (s.handleCommand api (command.input taken)).tracker =
        (s.groupOf command).elim s.tracker (s.tracker.setLockedGroup api) := handleCommand_layout command taken
    have step : s.obey api ((command, taken) :: answered) = (s.handleCommand api (command.input taken)).obey api answered := rfl
    rw [step, List.map_cons]
    cases stands : s.groupOf command with
    | none =>
      rw [stands, Option.elim_none] at moved
      have same : (s.handleCommand api (command.input taken)).groupOf = s.groupOf := groupOf_congr (by rw [moved])
      have now : (s.handleCommand api (command.input taken)).group api = s.group api := by
        rw [group, group, moved]
      rw [ih (by rw [moved]; exact names) (by rw [moved]; exact calm), same, now, List.filterMap_cons_none stands]
    | some group =>
      rw [stands, Option.elim_some] at moved
      obtain ⟨update, supported⟩ := Option.isSome_iff_exists.mp locks.supported
      have state : (s.tracker.setLockedGroup api group).xkbState = update s.tracker.xkbState 0 0 (some group) := by
        rw [KeyboardStateTracker.setLockedGroup, KeyboardStateTracker.applyLatchedLocked, supported]
      have bound := names ▸ groupOf_lt stands
      have now : (s.handleCommand api (command.input taken)).group api = group := by
        rw [InputActor.group, moved, KeyboardStateTracker.modifierState, state]
        exact locks.group update supported _ _ calm bound
      have kept : (s.tracker.setLockedGroup api group).layoutNames = s.tracker.layoutNames :=
        setLockedGroup_layoutNames _ _
      have same : (s.handleCommand api (command.input taken)).groupOf = s.groupOf := groupOf_congr (by rw [moved, kept])
      rw [ih (by rw [moved, kept]; exact names) (by rw [moved, state]; exact locks.keeps update supported _ _ calm),
        same, now, List.filterMap_cons_some stands, List.getLast?_cons, Option.getD_some]

end InputActor

/-- Once the listener has read what the compositor announced, the replica has the group of the last switch that counts,
whatever the first query said and however the announcements were cut into reads. -/
theorem layouts_followed {Xkb : Type} {api : XkbApi Xkb} {plain : Xkb → Prop} {s : InputActor Xkb}
    (locks : api.LocksGroups plain s.tracker.layoutNames.length) (calm : plain s.tracker.xkbState) {w : LayoutListener}
    (reach : LayoutListener.runs.Reach w) (connected : w.Connected) (drained : EventStream.newline ∉ w.stream.buf)
    (events : List LineEvent) (whole : w.received = events.flatMap LineEvent.announce)
    (answered : List (LayoutCommand × Bool)) (sent : answered.map Prod.fst = w.sent) :
    (s.obey api answered).group api =
      ((events.filterMap fun e => (eventCommand e.toHyprlandEvent).bind s.groupOf).getLast?).getD
        (((w.before.filterMap s.groupOf).getLast?).getD (s.group api)) := by
  have forwarded := LayoutListener.layouts_forwarded reach connected
  have silent : LayoutListener.commandsOf w.stream.buf = [] := by
    rw [LayoutListener.commandsOf, Framing.parsed, Framing.cut_open drained]
    rfl
  rw [silent, List.append_nil, LayoutListener.commandsOf, whole, parsed_announce, List.filterMap_map] at forwarded
  rw [InputActor.obey_group locks rfl calm, sent, forwarded, List.filterMap_append, List.filterMap_filterMap,
    List.getLast?_append]
  have last : ∀ (found before : Option Nat) (old : Nat), (found.or before).getD old = found.getD (before.getD old) := by
    intro found before old
    cases found <;> rfl
  exact last _ _ _

/-- A keymap with two layouts, of a keyboard whose keys do nothing. -/
def twoLayouts : XkbKeymap Nat := ⟨[], ["English (US)", "German"], 0⟩

def layoutKeyboard : XkbApi Nat where
  compile _ := some twoLayouts
  updateKey group _ _ := group
  modifierState group := ⟨0, 0, 0, group⟩
  updateLatchedLocked := some fun group _ _ locked => locked.getD group

theorem layoutKeyboard_locks : layoutKeyboard.LocksGroups (fun _ => True) 2 where
  supported := rfl
  keeps _ _ _ _ _ := trivial
  group update supported _ _ _ _ := by
    cases supported
    rfl

/-- The keyboard of the desk is switched to the second layout. -/
def germanSwitch : LineEvent where
  event := activelayout
  data := "at-keyboard,German".toList
  name := by decide
  line := by decide
  trimmed := ⟨fun _ first => Option.some.inj first ▸ rfl, fun _ last => Option.some.inj last ▸ rfl⟩

theorem layouts_followed_switch : ∃ w, LayoutListener.runs.Reach w ∧ w.sent = [.setLockedLayout "German".toList false] ∧
    ((InputActor.start layoutKeyboard [] twoLayouts).obey layoutKeyboard (w.sent.map fun command => (command, true))).group
      layoutKeyboard = 1 := by
  let waiting : LayoutListener := ⟨.reading, ⟨[]⟩, [], false, false, [], []⟩
  let w : LayoutListener :=
    ⟨.polling, ⟨[]⟩, [.setLockedLayout "German".toList false], false, false, germanSwitch.announce, []⟩
  have begun : LayoutListener.runs.Reach waiting :=
    .exec (fun _ _ _ step => step) [.connects, .checks, .devices none, .checks] (.start rfl) rfl
  have open' : Framing.takeParsed EventStream.newline HyprlandEvent.parse [] = (none, []) :=
    Framing.takeParsed_open List.not_mem_nil
  have came : LayoutListener.next waiting (.turn (.data germanSwitch.announce)) =
      some { waiting with stream := ⟨germanSwitch.announce⟩, received := germanSwitch.announce } := by
    simp [LayoutListener.next, LayoutListener.reads, EventStream.nextEvent, open', waiting, SocketTurn.bytes]
  have taken := takeParsed_announce germanSwitch []
  rw [List.append_nil] at taken
  have command : eventCommand germanSwitch.toHyprlandEvent = some (.setLockedLayout "German".toList false) :=
    LayoutListener.eventCommand_switch (by decide : ',' ∉ "at-keyboard".toList) "German".toList
  have read : LayoutListener.next { waiting with stream := ⟨germanSwitch.announce⟩, received := germanSwitch.announce }
      (.turn .again) = some w := by
    simp only [LayoutListener.next, LayoutListener.reads, EventStream.nextEvent, waiting, w, taken,
      LayoutListener.forward, command, LayoutListener.send, Bool.false_eq_true, if_false, List.nil_append]
  have reach : LayoutListener.runs.Reach w := .next (.next begun came) read
  have followed := layouts_followed (s := InputActor.start layoutKeyboard [] twoLayouts) layoutKeyboard_locks trivial reach
    (Or.inl rfl) List.not_mem_nil [germanSwitch] (List.append_nil _).symm (w.sent.map fun command => (command, true)) rfl
  refine ⟨w, reach, rfl, followed.trans ?_⟩
  simp only [List.filterMap_cons, command, Option.bind_some]
  rfl

end HyprRdp
