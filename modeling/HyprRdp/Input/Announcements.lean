import HyprRdp.Input.Actor

namespace HyprRdp

/-- A request to the virtual keyboard that is not a key. -/
inductive KeyboardRequest
  | keymap (keymapData : List UInt8)
  | modifiers (state : KeyboardModifierState)
  deriving DecidableEq

namespace InputActor

variable {Xkb : Type} (api : XkbApi Xkb) (s : InputActor Xkb)

/-- Most commands announce the modifiers only when they are not what they were. -/
def changed (t : InputActor Xkb) : List KeyboardRequest :=
  if t.tracker.modifierState api ≠ s.tracker.modifierState api then [.modifiers (t.tracker.modifierState api)] else []

/-- The keymaps and modifiers that the device is told of in the course of a command. -/
def announcements (command : InputCommand) : List KeyboardRequest :=
  let t := s.handleCommand api command
  match command with
  | .keyboard (.synchronize _) => [.modifiers (t.tracker.modifierState api)]
  | .keyboard _ | .setInitialLayout _ _ => s.changed api t
  | .mouse => []
  | .releaseHeldKeys | .shutdown => if s.depressed.isEmpty then [] else [.modifiers (t.tracker.modifierState api)]
  | .applyKeymap keymapData taken =>
    if (api.compile keymapData).isSome ∧ taken = true then [.keymap keymapData, .modifiers (t.tracker.modifierState api)]
    else []
  | .setLockedLayout layoutName fromOwnKeyboard taken =>
    if fromOwnKeyboard then
      match s.tracker.layoutIndexByName layoutName with
      | some group =>
        if group = (s.tracker.modifierState api).group then [] else [.modifiers (t.tracker.modifierState api)]
      | none => if taken then [.keymap s.keymapData, .modifiers (t.tracker.modifierState api)] else []
    else s.changed api t

variable {api} {s} {t u : InputActor Xkb}

/-- The keymap in use is the same, with the same layouts. -/
structure SameLayouts (s t : InputActor Xkb) : Prop where
  data : t.keymapData = s.keymapData
  names : t.tracker.layoutNames = s.tracker.layoutNames

theorem SameLayouts.trans (first : SameLayouts s t) (second : SameLayouts t u) : SameLayouts s u :=
  ⟨second.data.trans first.data, second.names.trans first.names⟩

theorem SameLayouts.resolves (same : SameLayouts s t) (layoutName : String) :
    t.tracker.layoutIndexByName layoutName = s.tracker.layoutIndexByName layoutName := by
  rw [KeyboardStateTracker.layoutIndexByName, KeyboardStateTracker.layoutIndexByName, same.names]

/-- The names of the layouts are those of the keymap in use. -/
def Named (api : XkbApi Xkb) (s : InputActor Xkb) : Prop :=
  ∃ keymap, api.compile s.keymapData = some keymap ∧ s.tracker.layoutNames = keymap.layouts

theorem Named.same (named : s.Named api) (same : SameLayouts s t) : t.Named api := by
  obtain ⟨keymap, compiled, names⟩ := named
  exact ⟨keymap, same.data ▸ compiled, same.names.trans names⟩

/-- The keymap stays, and what the device knows of the modifiers is replaced if they change. -/
structure Moved (api : XkbApi Xkb) (s t : InputActor Xkb) : Prop extends SameLayouts s t where
  announced : t.announced =
    if t.tracker.modifierState api ≠ s.tracker.modifierState api then t.tracker.modifierState api else s.announced

theorem Moved.of_depressed {depressed : DepressedKeys} (moved : Moved api { s with depressed } t) : Moved api s t :=
  ⟨⟨moved.data, moved.names⟩, moved.announced⟩

theorem Moved.same_tracker (data : t.keymapData = s.keymapData) (tracker : t.tracker = s.tracker)
    (announced : t.announced = s.announced) : Moved api s t where
  data := data
  names := by rw [tracker]
  announced := by rw [tracker, if_neg (not_not.mpr rfl), announced]

theorem transition_moved (s : InputActor Xkb) (evdevKey : Nat) (pressed : Bool) :
    Moved api s (s.transition api evdevKey pressed) := by
  unfold transition
  dsimp only
  split
  · rename_i differ
    exact ⟨⟨rfl, rfl⟩, (if_pos differ).symm⟩
  · rename_i same
    exact ⟨⟨rfl, rfl⟩, (if_neg same).symm⟩

theorem onPressed_moved (s : InputActor Xkb) (code : Nat) (extended : Bool) : Moved api s (s.onPressed api code extended) := by
  unfold onPressed
  split
  · exact .same_tracker rfl rfl rfl
  · split
    · exact .same_tracker rfl rfl rfl
    · dsimp only
      split
      · exact .same_tracker rfl rfl rfl
      · exact (transition_moved _ _ _).of_depressed

theorem onReleased_moved (s : InputActor Xkb) (code : Nat) (extended : Bool) :
    Moved api s (s.onReleased api code extended) := by
  unfold onReleased
  split
  · exact .same_tracker rfl rfl rfl
  · split
    · exact .same_tracker rfl rfl rfl
    · dsimp only
      split
      · exact .same_tracker rfl rfl rfl
      · exact (transition_moved _ _ _).of_depressed

theorem pressShift_moved (s : InputActor Xkb) (codePoint : Nat) : Moved api s (s.pressShift api codePoint) := by
  unfold pressShift
  dsimp only
  split
  · exact .same_tracker rfl rfl rfl
  · exact (transition_moved _ _ _).of_depressed

theorem releaseShift_moved (s : InputActor Xkb) (codePoint : Nat) : Moved api s (s.releaseShift api codePoint) := by
  unfold releaseShift
  dsimp only
  split
  · exact (transition_moved _ _ _).of_depressed
  · exact .same_tracker rfl rfl rfl

theorem onUnicodePressed_moved (s : InputActor Xkb) (codePoint : Nat) : Moved api s (s.onUnicodePressed api codePoint) := by
  unfold onUnicodePressed
  split
  · exact .same_tracker rfl rfl rfl
  · dsimp only
    split
    · have shifted : Moved api s (s.pressShift api codePoint) := s.pressShift_moved codePoint
      exact ⟨⟨shifted.data, shifted.names⟩, shifted.announced⟩
    · exact .same_tracker rfl rfl rfl

theorem onUnicodeReleased_moved (s : InputActor Xkb) (codePoint : Nat) :
    Moved api s (s.onUnicodeReleased api codePoint) := by
  unfold onUnicodeReleased
  split
  · exact .same_tracker rfl rfl rfl
  · rename_i mapping _
    let t := { s.sinkKey mapping.evdevKey false with depressed := s.depressed.release mapping.evdevKey false }
    dsimp only
    split
    · have shifted : Moved api t (t.releaseShift api codePoint) := t.releaseShift_moved codePoint
      exact ⟨⟨shifted.data, shifted.names⟩, shifted.announced⟩
    · exact .same_tracker rfl rfl rfl

theorem applyLatchedLocked_names (t : KeyboardStateTracker Xkb) (affect locked : Nat) (group : Option Nat) :
    (t.applyLatchedLocked api affect locked group).layoutNames = t.layoutNames := by
  unfold KeyboardStateTracker.applyLatchedLocked
  split <;> rfl

theorem setLockedGroup_moved (s : InputActor Xkb) (group : Nat) : Moved api s (s.setLockedGroup api group) := by
  have names : (s.tracker.setLockedGroup api group).layoutNames = s.tracker.layoutNames :=
    applyLatchedLocked_names _ _ _ _
  unfold setLockedGroup
  dsimp only
  split
  · rename_i differ
    exact ⟨⟨rfl, names⟩, (if_pos differ).symm⟩
  · rename_i same
    exact ⟨⟨rfl, names⟩, (if_neg same).symm⟩

theorem releaseDepressed_layouts (s : InputActor Xkb) : SameLayouts s (s.releaseDepressed api) := by
  have released : ∀ (keys : List Nat) (s : InputActor Xkb),
      SameLayouts s (keys.foldl (fun t evdevKey => t.releaseKey api evdevKey) s) := by
    intro keys
    induction keys with
    | nil => exact fun _ => ⟨rfl, rfl⟩
    | cons key rest ih =>
      intro s
      have first : SameLayouts s (s.releaseKey api key) := ⟨rfl, rfl⟩
      exact first.trans (ih _)
  have all := released s.depressed.releaseAll s
  exact ⟨all.data, all.names⟩

theorem synchronizeLocks_names (t : KeyboardStateTracker Xkb) (flags : SynchronizeFlags) :
    (t.synchronizeLocks api flags).layoutNames = t.layoutNames := by
  unfold KeyboardStateTracker.synchronizeLocks
  dsimp only
  split
  · exact applyLatchedLocked_names _ _ _ _
  · generalize (t.modifierState api).locked = before
    generalize [(t.capsLockMask, keyCapslock), (t.numLockMask, keyNumlock), (t.scrollLockMask, keyScrolllock),
      (t.kanaLockMask, keyKatakanahiragana)] = locks
    generalize t.lockedModsFromFlags flags = target
    -- the locks are toggled by their keys, one after another
    induction locks generalizing t with
    | nil => rfl
    | cons lock rest ih =>
      rw [List.foldl_cons, ih]
      split <;> rfl

/-- What a command tells the device, with what the actor has then and takes the device to know. -/
inductive Tells (api : XkbApi Xkb) (s t : InputActor Xkb) : List KeyboardRequest → Prop
  | nothing : SameLayouts s t → t.tracker.modifierState api = s.tracker.modifierState api → t.announced = s.announced →
    Tells api s t []
  | modifiers : SameLayouts s t → t.announced = t.tracker.modifierState api →
    Tells api s t [.modifiers (t.tracker.modifierState api)]
  | keymap : t.Named api → t.announced = t.tracker.modifierState api →
    Tells api s t [.keymap t.keymapData, .modifiers (t.tracker.modifierState api)]

theorem Moved.tells (moved : Moved api s t) : Tells api s t (s.changed api t) := by
  unfold changed
  by_cases same : t.tracker.modifierState api = s.tracker.modifierState api
  · rw [if_neg (not_not.mpr same)]
    exact .nothing moved.toSameLayouts same (moved.announced.trans (if_neg (not_not.mpr same)))
  · rw [if_pos same]
    exact .modifiers moved.toSameLayouts (moved.announced.trans (if_pos same))

theorem Tells.idle : Tells api s s [] := .nothing ⟨rfl, rfl⟩ rfl rfl

theorem releaseHeldKeys_tells (s : InputActor Xkb) : Tells api s (s.releaseHeldKeys api)
    (if s.depressed.isEmpty then [] else [.modifiers ((s.releaseHeldKeys api).tracker.modifierState api)]) := by
  have released : SameLayouts s (s.releaseDepressed api) := s.releaseDepressed_layouts
  unfold releaseHeldKeys
  split
  · exact .idle
  · exact .modifiers ⟨released.data, released.names⟩ rfl

theorem Tells.stopped {requests : List KeyboardRequest} (tells : Tells api s t requests) :
    Tells api s { t with running := false } requests := by
  cases tells with
  | nothing same state announced => exact .nothing ⟨same.data, same.names⟩ state announced
  | modifiers same announced => exact .modifiers ⟨same.data, same.names⟩ announced
  | keymap named announced => exact .keymap named announced

theorem applyKeymap_tells (s : InputActor Xkb) (keymapData : List UInt8) (taken : Bool) :
    Tells api s (s.handleCommand api (.applyKeymap keymapData taken)) (s.announcements api (.applyKeymap keymapData taken)) := by
  simp only [announcements, handleCommand, applyKeymap]
  cases compiled : api.compile keymapData with
  | none => exact .idle
  | some keymap =>
    cases taken with
    | false => exact .idle
    | true => exact .keymap ⟨keymap, compiled, rfl⟩ rfl

/-- Feedback about our own device: nothing, the modifiers, or the keymap before them. -/
theorem handleOwnLayoutEvent_tells (named : s.Named api) (layoutName : String) (taken : Bool) :
    Tells api s (s.handleCommand api (.setLockedLayout layoutName true taken))
      (s.announcements api (.setLockedLayout layoutName true taken)) := by
  simp only [announcements, handleCommand, setLockedLayout, handleOwnLayoutEvent, if_true]
  cases s.tracker.layoutIndexByName layoutName with
  | some group =>
    dsimp only
    split
    · exact .idle
    · exact .modifiers ⟨rfl, rfl⟩ rfl
  | none =>
    cases taken with
    | false => exact .idle
    | true => exact .keymap named rfl

theorem setLockedLayout_moved (s : InputActor Xkb) (layoutName : String) (taken : Bool) :
    Moved api s (s.setLockedLayout api layoutName false taken) := by
  rw [setLockedLayout, if_neg Bool.false_ne_true]
  cases s.tracker.layoutIndexByName layoutName with
  | none => exact .same_tracker rfl rfl rfl
  | some group => exact s.setLockedGroup_moved group

theorem handleCommand_tells (named : s.Named api) (command : InputCommand) :
    Tells api s (s.handleCommand api command) (s.announcements api command) := by
  cases command with
  | keyboard event =>
    cases event with
    | pressed code extended => exact (s.onPressed_moved code extended).tells
    | released code extended => exact (s.onReleased_moved code extended).tells
    | synchronize flags =>
      have released : SameLayouts s (s.releaseDepressed api) := s.releaseDepressed_layouts
      exact .modifiers ⟨released.data, (synchronizeLocks_names _ flags).trans released.names⟩ rfl
    | unicodePressed codePoint => exact (s.onUnicodePressed_moved codePoint).tells
    | unicodeReleased codePoint => exact (s.onUnicodeReleased_moved codePoint).tells
  | mouse => exact .idle
  | releaseHeldKeys => exact s.releaseHeldKeys_tells
  | applyKeymap keymapData taken => exact s.applyKeymap_tells keymapData taken
  | setLockedLayout layoutName fromOwnKeyboard taken =>
    cases fromOwnKeyboard with
    | true => exact handleOwnLayoutEvent_tells named layoutName taken
    | false => exact (s.setLockedLayout_moved layoutName taken).tells
  | setInitialLayout main others =>
    refine Moved.tells ?_
    simp only [handleCommand]
    cases s.pickInitialLayout main others with
    | none => exact .same_tracker rfl rfl rfl
    | some group => exact s.setLockedGroup_moved group
  | shutdown =>
    have released : Tells api s (s.releaseHeldKeys api) (s.announcements api .releaseHeldKeys) := s.releaseHeldKeys_tells
    exact released.stopped

theorem Tells.named {requests : List KeyboardRequest} (named : s.Named api) (tells : Tells api s t requests) : t.Named api := by
  cases tells with
  | nothing same _ _ => exact named.same same
  | modifiers same _ => exact named.same same
  | keymap named _ => exact named

end InputActor

end HyprRdp
