import HyprRdp.Input.DeviceKeys
import HyprRdp.Input.Pointer

namespace HyprRdp

namespace DepressedKeys

variable {d e : DepressedKeys} {log : SwitchLog Nat} {key : Nat} {on : Bool}

/-- Every key that is down on the device is held. The converse fails for modifier keys that are shared with characters. -/
def Covers (d : DepressedKeys) (log : SwitchLog Nat) : Prop := ∀ key, log.level key = true → d.Holds key

theorem Covers.silent (covers : d.Covers log) (kept : ∀ other, d.Holds other → e.Holds other) : e.Covers log :=
  fun other down => kept other (covers other down)

theorem Covers.sent (covers : d.Covers log) (kept : ∀ other, other ≠ key → d.Holds other → e.Holds other)
    (here : on = true → e.Holds key) : e.Covers (log ++ [(key, on)]) := by
  intro other down
  rw [SwitchLog.level_concat] at down
  by_cases same : key = other
  · rw [if_pos same] at down
    exact same ▸ here down
  · rw [if_neg same] at down
    exact kept other (Ne.symm same) (covers other down)

theorem release_kept {other : Nat} (apart : other ≠ key) (modifier : Bool) (held : d.Holds other) :
    (d.release key modifier).Holds other := by
  unfold Holds release at *
  cases modifier with
  | true =>
    simp only [if_true, mem_retainOthers]
    exact held.imp_right (Or.imp_left fun held => ⟨held, apart⟩)
  | false =>
    simp only [Bool.false_eq_true, if_false, mem_retainOthers]
    exact held.imp_left fun held => ⟨held, apart⟩

theorem release_owned {modifier : Bool} (owned : d.unicodeShiftOwners ≠ []) : (d.release key modifier).Holds leftShiftKey := by
  unfold Holds release
  cases modifier with
  | true => exact .inr (.inr ⟨rfl, owned⟩)
  | false => exact .inr (.inr ⟨rfl, owned⟩)

theorem Covers.releaseAll (covers : d.Covers log) (key : Nat) :
    SwitchLog.level (log ++ SwitchLog.offs d.releaseAll) key = false := by
  rw [SwitchLog.level_offs]
  split
  · rfl
  · rename_i notReleased
    exact Bool.eq_false_iff.mpr fun down => notReleased ((mem_releaseAll key).mpr (covers key down))

end DepressedKeys

namespace InputActor

open DepressedKeys

variable {Xkb : Type} {api : XkbApi Xkb} {s : InputActor Xkb}

/-- Every key that is down is known to the release path. -/
def Accounted (s : InputActor Xkb) : Prop := s.depressed.Covers s.requests

theorem Accounted.transition (accounted : s.Accounted) {depressed : DepressedKeys} {key : Nat} {on : Bool}
    (kept : ∀ other, other ≠ key → s.depressed.Holds other → depressed.Holds other) (here : on = true → depressed.Holds key) :
    (({ s with depressed } : InputActor Xkb).transition api key on).Accounted := by
  have moves : Moves api { s with depressed } (({ s with depressed } : InputActor Xkb).transition api key on) key on :=
    transition_moves _ _ _
  unfold Accounted
  rw [moves.depressed, moves.requests]
  have covers : depressed.Covers (s.requests ++ [(key, on)]) := Covers.sent accounted kept here
  exact covers

theorem onPressed_accounted (accounted : s.Accounted) (code : Nat) (extended : Bool) :
    (s.onPressed api code extended).Accounted := by
  unfold onPressed
  cases xtToEvdev code extended with
  | none => exact accounted
  | some key =>
    have more : ∀ other, s.depressed.Holds other → (s.depressed.press key (isModifier key)).Holds other :=
      fun other held => (press_holds _ _ _ _).mpr (.inl held)
    dsimp only
    split
    · exact accounted
    · split
      · exact Covers.silent accounted more
      · exact accounted.transition (fun other _ => more other) fun _ => (press_holds _ _ _ _).mpr (.inr rfl)

theorem onReleased_accounted (accounted : s.Accounted) (code : Nat) (extended : Bool) :
    (s.onReleased api code extended).Accounted := by
  unfold onReleased
  cases xtToEvdev code extended with
  | none => exact accounted
  | some key =>
    dsimp only
    split
    · exact accounted
    · split
      · rename_i shift
        refine Covers.silent accounted fun other held => ?_
        by_cases same : other = key
        · rw [same, shift.1]
          exact release_owned (owned_iff.mp shift.2)
        · exact release_kept same _ held
      · exact accounted.transition (fun other apart held => release_kept apart _ held) nofun

theorem pressShift_accounted (accounted : s.Accounted) (codePoint : Nat) : (s.pressShift api codePoint).Accounted := by
  have more : ∀ other, s.depressed.Holds other → (s.depressed.pressUnicodeShift codePoint).Holds other :=
    fun other held => (pressUnicodeShift_holds _ _ _).mpr (.inl held)
  unfold pressShift
  dsimp only
  split
  · exact Covers.silent accounted more
  · exact accounted.transition (fun other _ => more other) fun _ => (pressUnicodeShift_holds _ _ _).mpr (.inr rfl)

/-- Left Shift goes up with its last owner, and stays accounted for until then. -/
theorem releaseShift_accounted (accounted : s.Accounted) (codePoint : Nat) : (s.releaseShift api codePoint).Accounted := by
  have others : ∀ other, other ≠ leftShiftKey → s.depressed.Holds other →
      (s.depressed.releaseUnicodeShift codePoint).1.Holds other := by
    rintro other apart (plain | modifier | ⟨same, _⟩)
    · exact .inl plain
    · exact .inr (.inl modifier)
    · exact absurd same apart
  unfold releaseShift
  dsimp only
  split
  · exact accounted.transition others nofun
  · rename_i more
    refine Covers.silent accounted fun other held => ?_
    by_cases same : other = leftShiftKey
    · subst same
      cases owned : (s.depressed.releaseUnicodeShift codePoint).2 with
      | false => exact (releaseUnicodeShift_unowned owned).symm ▸ held
      | true =>
        by_cases empty : (s.depressed.releaseUnicodeShift codePoint).1.unicodeShiftOwners = []
        · have isHeld : (s.depressed.releaseUnicodeShift codePoint).1.holdsModifier leftShiftKey = true :=
            Bool.of_not_eq_false fun notHeld => more ⟨owned, List.isEmpty_iff.mpr empty, notHeld⟩
          exact .inr (.inl (holdsModifier_iff.mp isHeld))
        · exact .inr (.inr ⟨rfl, empty⟩)
    · exact others other same held

theorem onUnicodePressed_accounted (accounted : s.Accounted) (codePoint : Nat) :
    (s.onUnicodePressed api codePoint).Accounted := by
  unfold onUnicodePressed
  cases s.tracker.unicodeToEvdev codePoint with
  | none => exact accounted
  | some mapping =>
    have shifted : (if mapping.needsShift then s.pressShift api codePoint else s).Accounted := by
      split
      · exact pressShift_accounted accounted codePoint
      · exact accounted
    dsimp only
    generalize (if mapping.needsShift then s.pressShift api codePoint else s) = t at shifted
    show (t.depressed.press mapping.evdevKey false).Covers (t.sinkKey mapping.evdevKey true).requests
    rw [sinkKey_requests]
    exact Covers.sent shifted (fun other _ held => (press_holds _ _ _ _).mpr (.inl held))
      fun _ => (press_holds _ _ _ _).mpr (.inr rfl)

theorem onUnicodeReleased_accounted (accounted : s.Accounted) (codePoint : Nat) :
    (s.onUnicodeReleased api codePoint).Accounted := by
  unfold onUnicodeReleased
  cases s.tracker.unicodeToEvdev codePoint with
  | none => exact accounted
  | some mapping =>
    have released : Accounted
        { s.sinkKey mapping.evdevKey false with depressed := s.depressed.release mapping.evdevKey false } := by
      show (s.depressed.release mapping.evdevKey false).Covers (s.sinkKey mapping.evdevKey false).requests
      rw [sinkKey_requests]
      exact Covers.sent accounted (fun other apart held => release_kept apart _ held) nofun
    dsimp only
    split
    · exact releaseShift_accounted released codePoint
    · exact released

theorem releaseDepressed_up (accounted : s.Accounted) (key : Nat) : (s.releaseDepressed api).requests.level key = false := by
  have requests : (s.releaseDepressed api).requests = s.requests ++ SwitchLog.offs s.depressed.releaseAll :=
    releaseKeys_requests s _
  rw [requests]
  exact accounted.releaseAll key

theorem record_accounted {event : ActorEvent} (silent : event.sentKey = none) (accounted : s.Accounted) :
    (s.record event).Accounted := by
  have requests : (s.record event).requests = s.requests := by
    rw [record_requests, silent]
    exact List.append_nil _
  unfold Accounted
  rw [requests]
  exact accounted

theorem releaseDepressed_accounted (accounted : s.Accounted) : (s.releaseDepressed api).Accounted := by
  intro key down
  rw [releaseDepressed_up accounted key] at down
  cases down

/-- Every key is up once the keys that were held are released. -/
theorem releaseHeldKeys_up (accounted : s.Accounted) (key : Nat) : (s.releaseHeldKeys api).requests.level key = false := by
  unfold releaseHeldKeys
  split
  · rename_i empty
    refine Bool.eq_false_iff.mpr fun down => default_holds key ?_
    rw [← isEmpty_iff.mp empty]
    exact accounted key down
  · exact releaseDepressed_up accounted key

theorem setLockedGroup_accounted (accounted : s.Accounted) (group : Nat) : (s.setLockedGroup api group).Accounted := by
  have recorded : (s.record (.group group)).Accounted := record_accounted rfl accounted
  unfold setLockedGroup
  dsimp only
  split
  · exact recorded
  · exact recorded

theorem handleCommand_accounted (accounted : s.Accounted) (command : InputCommand) :
    (s.handleCommand api command).Accounted := by
  have released : (s.releaseHeldKeys api).Accounted := fun key down => by
    rw [releaseHeldKeys_up accounted key] at down
    cases down
  cases command with
  | keyboard event =>
    cases event with
    | pressed code extended => exact onPressed_accounted accounted code extended
    | released code extended => exact onReleased_accounted accounted code extended
    | synchronize flags =>
      have recorded : ((s.releaseDepressed api).record (.locks flags)).Accounted :=
        record_accounted rfl (releaseDepressed_accounted accounted)
      exact recorded
    | unicodePressed codePoint => exact onUnicodePressed_accounted accounted codePoint
    | unicodeReleased codePoint => exact onUnicodeReleased_accounted accounted codePoint
  | mouse => exact accounted
  | releaseHeldKeys => exact released
  | applyKeymap keymapData taken =>
    unfold handleCommand applyKeymap
    dsimp only
    split
    · exact accounted
    · split
      · exact accounted
      · have announced : (s.record (.announceKeymap keymapData)).Accounted := record_accounted rfl accounted
        have installed : (((s.record (.announceKeymap keymapData)).releaseDepressed api).record (.installKeymap keymapData)).Accounted :=
          record_accounted rfl (releaseDepressed_accounted announced)
        exact installed
  | setLockedLayout layoutName fromOwnKeyboard taken =>
    unfold handleCommand setLockedLayout
    dsimp only
    split
    · unfold handleOwnLayoutEvent
      split
      · split
        · exact accounted
        · exact accounted
      · split
        · have announced : (s.record (.announceKeymap s.keymapData)).Accounted := record_accounted rfl accounted
          exact announced
        · exact accounted
    · split
      · exact accounted
      · exact setLockedGroup_accounted accounted _
  | setInitialLayout main others =>
    unfold handleCommand
    dsimp only
    split
    · exact accounted
    · exact setLockedGroup_accounted accounted _
  | shutdown => exact released

end InputActor

namespace VirtualPointer

variable (p : VirtualPointer)

theorem send_buttons (requests : List PointerRequest) :
    (p.send requests).buttons = p.buttons ++ requests.filterMap (·.buttonChange) := List.filterMap_append

theorem axisRequest_silent (axis : Axis) (units discrete : Int) : (axisRequest axis units discrete).buttonChange = none := by
  unfold axisRequest
  split
  · rfl
  · rfl

theorem emitScrollEvent_buttons (horizontalUnits verticalUnits : Int) :
    (p.emitScrollEvent horizontalUnits verticalUnits).buttons = p.buttons := by
  have silent : ∀ (q : VirtualPointer) (request : PointerRequest), request.buttonChange = none →
      (q.send [request]).buttons = q.buttons := by
    intro q request quiet
    rw [send_buttons, List.filterMap_cons, quiet]
    exact List.append_nil _
  have vertical : ∀ q : VirtualPointer, (q.emitVertical verticalUnits).buttons = q.buttons := by
    intro q
    unfold emitVertical
    split
    · rfl
    · exact silent q _ (axisRequest_silent _ _ _)
  have horizontal : ∀ q : VirtualPointer, (q.emitHorizontal horizontalUnits).buttons = q.buttons := by
    intro q
    unfold emitHorizontal
    split
    · rfl
    · exact silent q _ (axisRequest_silent _ _ _)
  unfold emitScrollEvent
  rw [silent _ _ rfl, horizontal, vertical, silent _ _ rfl]

theorem buttonRequests_changes (button : MouseButton) (pressed : Bool) :
    (buttonRequests button pressed).filterMap (·.buttonChange) =
      ((evdevButton button).map fun code => (code, pressed)).toList := by
  unfold buttonRequests
  cases evdevButton button with
  | none => rfl
  | some code => rfl

/-- Of all mouse events only the buttons that have a code come out as button requests. -/
theorem emitMouseEvent_buttons (layout : Option PointerLayout) (event : MouseEvent) :
    (p.emitMouseEvent layout event).buttons = p.buttons ++
      (event.buttonChange.bind fun change => (evdevButton change.1).map fun code => (code, change.2)).toList := by
  have nothing : p.buttons = p.buttons ++ [] := (List.append_nil _).symm
  cases event with
  | move x y =>
    cases layout with
    | none => exact nothing
    | some layout => exact p.send_buttons _
  | button x y button pressed =>
    have changes := buttonRequests_changes button pressed
    unfold emitMouseEvent
    rw [send_buttons, List.filterMap_append, List.filterMap_append, changes]
    cases layout with
    | none => rw [Option.map_none]; exact congrArg _ (List.append_nil _)
    | some layout => exact congrArg _ (List.append_nil _)
  | buttonRel x y button pressed =>
    have changes := buttonRequests_changes button pressed
    unfold emitMouseEvent
    rw [send_buttons, List.cons_append, List.filterMap_cons, List.filterMap_append, changes]
    exact congrArg _ (List.append_nil _)
  | verticalScroll value => exact (p.emitScrollEvent_buttons 0 value).trans nothing
  | scroll x y => exact (p.emitScrollEvent_buttons x y).trans nothing
  | horizontalScroll value => exact (p.emitScrollEvent_buttons value 0).trans nothing
  | relMove x y => exact p.send_buttons _
  | unrecognised => exact nothing

end VirtualPointer

theorem evdevButton_alone {code : Nat} (button other : MouseButton) (first : evdevButton button = some code)
    (second : evdevButton other = some code) : button = other := by
  have same : evdevButton button = evdevButton other := first.trans second.symm
  cases button with
  | unrecognised => cases first
  | left => cases other <;> first | rfl | cases same
  | right => cases other <;> first | rfl | cases same
  | middle => cases other <;> first | rfl | cases same
  | x1 => cases other <;> first | rfl | cases same
  | x2 => cases other <;> first | rfl | cases same

namespace DeviceCommand

/-- The buttons that the client has pressed and released by these commands. -/
def buttonLog (commands : List DeviceCommand) : SwitchLog MouseButton := commands.filterMap (·.buttonChange)

/-- The client has released every button that it pressed, as far as a button has a code. -/
def ButtonsReleased (commands : List DeviceCommand) : Prop :=
  ∀ button, evdevButton button ≠ none → (buttonLog commands).level button = false

/-- A session ends, or the actor is shut down. -/
def Ends (command : DeviceCommand) : Prop := command = .other .releaseHeldKeys ∨ command = .other .shutdown

end DeviceCommand

namespace InputDevices

open DeviceCommand

variable {Xkb : Type} {api : XkbApi Xkb} {s t : InputDevices Xkb}

/-- No key is down on the virtual keyboard, and no button on the virtual pointer. -/
structure Idle (s : InputDevices Xkb) : Prop where
  keys : ∀ key, s.actor.requests.level key = false
  buttons : ∀ code, s.pointer.buttons.level code = false

theorem exec_spec {commands : List DeviceCommand} (accounted : s.actor.Accounted)
    (run : StepSystem.exec (next api) s commands = some t) :
    t.actor.Accounted ∧ t.pointer.buttons = s.pointer.buttons ++ SwitchLog.rename evdevButton (buttonLog commands) := by
  induction commands generalizing s with
  | nil =>
    cases run
    exact ⟨accounted, (List.append_nil _).symm⟩
  | cons command rest ih =>
    obtain ⟨u, step, run⟩ := Option.bind_eq_some_iff.mp run
    obtain ⟨actor, handled, rfl⟩ := Option.map_eq_some_iff.mp step
    obtain ⟨_, same⟩ := Option.ite_none_right_eq_some.mp handled
    cases same
    obtain ⟨later, buttons⟩ := ih (InputActor.handleCommand_accounted accounted command.input) run
    refine ⟨later, ?_⟩
    have moved : (move s.pointer command).buttons = s.pointer.buttons ++
        (command.buttonChange.bind fun change => (evdevButton change.1).map fun code => (code, change.2)).toList := by
      cases command with
      | mouse event layout => exact s.pointer.emitMouseEvent_buttons layout event
      | other command => exact (List.append_nil _).symm
    rw [buttons, moved, List.append_assoc]
    refine congrArg _ ?_
    unfold buttonLog SwitchLog.rename
    cases found : command.buttonChange with
    | none =>
      rw [List.filterMap_cons, found]
      rfl
    | some change =>
      simp only [found, Option.bind_some, List.filterMap_cons]
      cases named : evdevButton change.1 with
      | none => rfl
      | some code => rfl

/-- What ends a session does not touch the pointer. -/
theorem ends_spec {last : DeviceCommand} (ends : last.Ends) (accounted : s.actor.Accounted) (step : next api s last = some t) :
    (∀ key, t.actor.requests.level key = false) ∧ t.pointer = s.pointer := by
  obtain ⟨actor, handled, rfl⟩ := Option.map_eq_some_iff.mp step
  obtain ⟨_, same⟩ := Option.ite_none_right_eq_some.mp handled
  cases same
  rcases ends with rfl | rfl
  · exact ⟨InputActor.releaseHeldKeys_up accounted, rfl⟩
  · exact ⟨InputActor.releaseHeldKeys_up accounted, rfl⟩

theorem buttons_up (log : SwitchLog MouseButton) :
    (∀ code, SwitchLog.level (SwitchLog.rename evdevButton log) code = false) ↔
      ∀ button, evdevButton button ≠ none → log.level button = false := by
  constructor
  · intro up button known
    obtain ⟨code, named⟩ := Option.ne_none_iff_exists'.mp known
    refine Bool.eq_false_iff.mpr fun down => ?_
    have there := (SwitchLog.level_rename log fun _ _ => evdevButton_alone _ _).mpr ⟨button, named, down⟩
    rw [up code] at there
    cases there
  · intro released code
    refine Bool.eq_false_iff.mpr fun down => ?_
    obtain ⟨button, named, down⟩ := (SwitchLog.level_rename log fun _ _ => evdevButton_alone _ _).mp down
    rw [released button (by rw [named]; exact Option.some_ne_none _)] at down
    cases down

/-- At the end of a session every key is up, and every button is up exactly if the client has released it itself. -/
theorem session_end_leaves_nothing {keymapData : List UInt8} {keymap : XkbKeymap Xkb} {commands : List DeviceCommand}
    {last : DeviceCommand} (ends : last.Ends)
    (run : StepSystem.exec (next api) (start api keymapData keymap) (commands ++ [last]) = some t) :
    (∀ key, t.actor.requests.level key = false) ∧ (t.Idle ↔ ButtonsReleased commands) := by
  rw [StepSystem.exec_append] at run
  obtain ⟨s, before, run⟩ := Option.bind_eq_some_iff.mp run
  obtain ⟨u, step, run⟩ := Option.bind_eq_some_iff.mp run
  cases run
  have first : (start api keymapData keymap).actor.Accounted := fun _ down => nomatch down
  obtain ⟨accounted, buttons⟩ := exec_spec first before
  obtain ⟨keys, pointer⟩ := ends_spec ends accounted step
  have all : t.pointer.buttons = SwitchLog.rename evdevButton (buttonLog commands) := by
    rw [pointer, buttons]
    rfl
  refine ⟨keys, fun idle => (buttons_up _).mp fun code => ?_, fun released => ⟨keys, fun code => ?_⟩⟩
  · rw [← all]
    exact idle.buttons code
  · rw [all]
    exact (buttons_up _).mpr released code

/-- The connection drops in the middle of a drag: the left button stays down. -/
theorem drag_outlives_session : ∃ t : InputDevices (List Nat),
    StepSystem.exec (next InputActor.shiftKeyboard) (start InputActor.shiftKeyboard [] InputActor.shiftKeymap)
      [.mouse (.buttonRel 0 0 .left true) none, .other .releaseHeldKeys] = some t ∧ t.pointer.buttons.level 0x110 = true := by
  have run : ((StepSystem.exec (next InputActor.shiftKeyboard) (start InputActor.shiftKeyboard [] InputActor.shiftKeymap)
      [.mouse (.buttonRel 0 0 .left true) none, .other .releaseHeldKeys]).map
        fun t => t.pointer.buttons.level 0x110) = some true := by
    decide
  exact Option.map_eq_some_iff.mp run

/-- A click that is over, and a key that is still held. -/
theorem session_end_leaves_nothing_once : ∃ t : InputDevices (List Nat),
    StepSystem.exec (next InputActor.shiftKeyboard) (start InputActor.shiftKeyboard [] InputActor.shiftKeymap)
      ([DeviceCommand.mouse (.button 3 4 .left true) none, .other (.keyboard (.pressed 0x2A false)), .mouse (.button 3 4 .left false) none] ++
        [DeviceCommand.other .releaseHeldKeys]) = some t ∧ t.Idle := by
  have some : (StepSystem.exec (next InputActor.shiftKeyboard) (start InputActor.shiftKeyboard [] InputActor.shiftKeymap)
      ([DeviceCommand.mouse (.button 3 4 .left true) none, .other (.keyboard (.pressed 0x2A false)), .mouse (.button 3 4 .left false) none] ++
        [DeviceCommand.other .releaseHeldKeys])).isSome = true := by
    decide
  obtain ⟨t, run⟩ := Option.isSome_iff_exists.mp some
  refine ⟨t, run, (session_end_leaves_nothing (.inl rfl) run).2.mpr fun button _ => ?_⟩
  cases button <;> rfl

end InputDevices

end HyprRdp
