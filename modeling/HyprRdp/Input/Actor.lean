import HyprRdp.Input.Keyboard
import HyprRdp.Lib.Runs
import HyprRdp.Lib.Switches

namespace HyprRdp

/-- The keys that the client holds, and the characters that own a Left Shift of their own. -/
structure DepressedKeys where
  plain : List Nat
  modifiers : List Nat
  unicodeShiftOwners : List Nat

namespace DepressedKeys

def default : DepressedKeys := ⟨[], [], []⟩

variable (d : DepressedKeys)

def isEmpty : Bool := d.plain.isEmpty && d.modifiers.isEmpty && d.unicodeShiftOwners.isEmpty

def holdsModifier (evdevKey : Nat) : Bool := d.modifiers.contains evdevKey

def insertKey (keys : List Nat) (key : Nat) : List Nat := if keys.contains key then keys else keys ++ [key]

def retainOthers (keys : List Nat) (key : Nat) : List Nat := keys.filter fun other => other ≠ key

def pressUnicodeShift (codePoint : Nat) : DepressedKeys :=
  { d with unicodeShiftOwners := insertKey d.unicodeShiftOwners codePoint }

def releaseUnicodeShift (codePoint : Nat) : DepressedKeys × Bool :=
  let owners := retainOthers d.unicodeShiftOwners codePoint
  ({ d with unicodeShiftOwners := owners }, owners.length ≠ d.unicodeShiftOwners.length)

def press (evdevKey : Nat) (modifier : Bool) : DepressedKeys :=
  if modifier then { d with modifiers := insertKey d.modifiers evdevKey }
  else { d with plain := insertKey d.plain evdevKey }

def release (evdevKey : Nat) (modifier : Bool) : DepressedKeys :=
  if modifier then { d with modifiers := retainOthers d.modifiers evdevKey }
  else { d with plain := retainOthers d.plain evdevKey }

/-- The keys in the order in which all of them are released. -/
def releaseAll : List Nat :=
  d.plain.reverse ++ d.modifiers.reverse ++
    if d.unicodeShiftOwners.isEmpty = false ∧ d.holdsModifier leftShiftKey = false then [leftShiftKey] else []

end DepressedKeys

inductive KeyboardEvent
  | pressed (code : Nat) (extended : Bool)
  | released (code : Nat) (extended : Bool)
  | synchronize (flags : SynchronizeFlags)
  | unicodePressed (codePoint : Nat)
  | unicodeReleased (codePoint : Nat)

/-- A command, with the device's answer to the keymap that it may announce. -/
inductive InputCommand
  | keyboard (event : KeyboardEvent)
  | mouse
  | releaseHeldKeys
  | applyKeymap (keymapData : List UInt8) (taken : Bool)
  | setLockedLayout (layoutName : String) (fromOwnKeyboard : Bool) (taken : Bool)
  | setInitialLayout (main : Option String) (others : List String)
  | shutdown

/-- What the actor does to the device and to the replica: the keymaps that each of them takes, the keys
that are sent and fed, and the updates of locks and group, which the device is told of by its modifiers. -/
inductive ActorEvent
  | announceKeymap (keymapData : List UInt8)
  | installKeymap (keymapData : List UInt8)
  | sent (evdevKey : Nat) (pressed : Bool)
  | fed (evdevKey : Nat) (pressed : Bool)
  | locks (flags : SynchronizeFlags)
  | group (group : Nat)
  deriving DecidableEq

namespace ActorEvent

def sentKey : ActorEvent → Option (Nat × Bool)
  | .sent evdevKey pressed => some (evdevKey, pressed)
  | _ => none

def fedKey : ActorEvent → Option (Nat × Bool)
  | .fed evdevKey pressed => some (evdevKey, pressed)
  | _ => none

end ActorEvent

/-- The input actor, with the modifiers that it announced last and the trace of what it has done, the oldest first. -/
structure InputActor (Xkb : Type) where
  tracker : KeyboardStateTracker Xkb
  keymapData : List UInt8
  depressed : DepressedKeys
  running : Bool
  announced : KeyboardModifierState
  trace : List ActorEvent

namespace InputActor

variable {Xkb : Type} (api : XkbApi Xkb)

def start (keymapData : List UInt8) (keymap : XkbKeymap Xkb) : InputActor Xkb :=
  { tracker := .new api keymap
    keymapData
    depressed := .default
    running := true
    announced := (KeyboardStateTracker.new api keymap).modifierState api
    trace := [.installKeymap keymapData, .announceKeymap keymapData] }

variable (s : InputActor Xkb)

/-- The key requests sent to the device. -/
def requests : SwitchLog Nat := s.trace.filterMap (·.sentKey)

def record (event : ActorEvent) : InputActor Xkb := { s with trace := s.trace ++ [event] }

def sinkKey (evdevKey : Nat) (pressed : Bool) : InputActor Xkb := s.record (.sent evdevKey pressed)

def trackerKey (evdevKey : Nat) (pressed : Bool) : InputActor Xkb :=
  { s.record (.fed evdevKey pressed) with tracker := s.tracker.key api evdevKey pressed }

def sinkModifiers : InputActor Xkb := { s with announced := s.tracker.modifierState api }

/-- A key goes to the device and through the replica, and the modifiers are announced when they changed. -/
def transition (evdevKey : Nat) (pressed : Bool) : InputActor Xkb :=
  let t := (s.sinkKey evdevKey pressed).trackerKey api evdevKey pressed
  if t.tracker.modifierState api ≠ s.tracker.modifierState api then t.sinkModifiers api else t

def releaseKey (evdevKey : Nat) : InputActor Xkb := (s.sinkKey evdevKey false).trackerKey api evdevKey false

def releaseDepressed : InputActor Xkb :=
  { s.depressed.releaseAll.foldl (fun t evdevKey => t.releaseKey api evdevKey) s with depressed := .default }

def releaseHeldKeys : InputActor Xkb :=
  if s.depressed.isEmpty then s else (s.releaseDepressed api).sinkModifiers api

def onPressed (code : Nat) (extended : Bool) : InputActor Xkb :=
  match xtToEvdev code extended with
  | none => s
  | some evdevKey =>
    if isModifier evdevKey ∧ s.depressed.holdsModifier evdevKey then s
    else
      let t := { s with depressed := s.depressed.press evdevKey (isModifier evdevKey) }
      if evdevKey = leftShiftKey ∧ s.depressed.unicodeShiftOwners.isEmpty = false then t
      else t.transition api evdevKey true

def onReleased (code : Nat) (extended : Bool) : InputActor Xkb :=
  match xtToEvdev code extended with
  | none => s
  | some evdevKey =>
    if isModifier evdevKey ∧ s.depressed.holdsModifier evdevKey = false then s
    else
      let t := { s with depressed := s.depressed.release evdevKey (isModifier evdevKey) }
      if evdevKey = leftShiftKey ∧ s.depressed.unicodeShiftOwners.isEmpty = false then t
      else t.transition api evdevKey false

def onSynchronize (flags : SynchronizeFlags) : InputActor Xkb :=
  let t := s.releaseDepressed api
  { t.record (.locks flags) with tracker := t.tracker.synchronizeLocks api flags }.sinkModifiers api

/-- The first character that needs it presses Left Shift, unless that is held already. -/
def pressShift (codePoint : Nat) : InputActor Xkb :=
  let t := { s with depressed := s.depressed.pressUnicodeShift codePoint }
  if s.depressed.holdsModifier leftShiftKey ∨ s.depressed.unicodeShiftOwners.isEmpty = false then t
  else t.transition api leftShiftKey true

/-- The last character that needed it releases Left Shift, unless that is held besides. -/
def releaseShift (codePoint : Nat) : InputActor Xkb :=
  let (depressed, owned) := s.depressed.releaseUnicodeShift codePoint
  let t := { s with depressed }
  if owned = true ∧ depressed.unicodeShiftOwners.isEmpty ∧ depressed.holdsModifier leftShiftKey = false then
    t.transition api leftShiftKey false
  else t

def onUnicodePressed (codePoint : Nat) : InputActor Xkb :=
  match s.tracker.unicodeToEvdev codePoint with
  | none => s
  | some mapping =>
    let t := if mapping.needsShift then s.pressShift api codePoint else s
    { t.sinkKey mapping.evdevKey true with depressed := t.depressed.press mapping.evdevKey false }

def onUnicodeReleased (codePoint : Nat) : InputActor Xkb :=
  match s.tracker.unicodeToEvdev codePoint with
  | none => s
  | some mapping =>
    let t := { s.sinkKey mapping.evdevKey false with depressed := s.depressed.release mapping.evdevKey false }
    if mapping.needsShift then t.releaseShift api codePoint else t

def handleRdpEvent : KeyboardEvent → InputActor Xkb
  | .pressed code extended => s.onPressed api code extended
  | .released code extended => s.onReleased api code extended
  | .synchronize flags => s.onSynchronize api flags
  | .unicodePressed codePoint => s.onUnicodePressed api codePoint
  | .unicodeReleased codePoint => s.onUnicodeReleased api codePoint

/-- The replica switches only to a keymap that the device took, and the keys held before are released in between. -/
def applyKeymap (keymapData : List UInt8) (taken : Bool) : InputActor Xkb :=
  match api.compile keymapData with
  | none => s
  | some keymap =>
    if taken = false then s
    else
      let t := (s.record (.announceKeymap keymapData)).releaseDepressed api
      { t.record (.installKeymap keymapData) with tracker := .new api keymap, keymapData }.sinkModifiers api

/-- Feedback about our own device never changes the replica. What diverges from it is announced anew. -/
def handleOwnLayoutEvent (layoutName : String) (taken : Bool) : InputActor Xkb :=
  match s.tracker.layoutIndexByName layoutName with
  | some group => if group = (s.tracker.modifierState api).group then s else s.sinkModifiers api
  | none => if taken then (s.record (.announceKeymap s.keymapData)).sinkModifiers api else s

def setLockedGroup (group : Nat) : InputActor Xkb :=
  let t := { s.record (.group group) with tracker := s.tracker.setLockedGroup api group }
  if t.tracker.modifierState api ≠ s.tracker.modifierState api then t.sinkModifiers api else t

def setLockedLayout (layoutName : String) (fromOwnKeyboard taken : Bool) : InputActor Xkb :=
  if fromOwnKeyboard then s.handleOwnLayoutEvent api layoutName taken
  else
    match s.tracker.layoutIndexByName layoutName with
    | none => s
    | some group => s.setLockedGroup api group

/-- The main keyboard counts when its layout is known. Else a keyboard that was switched away from its first layout does. -/
def pickInitialLayout (main : Option String) (others : List String) : Option Nat :=
  (main.bind s.tracker.layoutIndexByName).or
    (let resolved := others.filterMap s.tracker.layoutIndexByName
    (resolved.find? fun group => group ≠ 0).or resolved.head?)

def handleCommand : InputCommand → InputActor Xkb
  | .keyboard event => s.handleRdpEvent api event
  | .mouse => s
  | .releaseHeldKeys => s.releaseHeldKeys api
  | .applyKeymap keymapData taken => s.applyKeymap api keymapData taken
  | .setLockedLayout layoutName fromOwnKeyboard taken => s.setLockedLayout api layoutName fromOwnKeyboard taken
  | .setInitialLayout main others =>
    match s.pickInitialLayout main others with
    | none => s
    | some group => s.setLockedGroup api group
  | .shutdown => { s.releaseHeldKeys api with running := false }

def next (s : InputActor Xkb) (command : InputCommand) : Option (InputActor Xkb) :=
  if s.running then some (s.handleCommand api command) else none

/-- The actor starts with a keymap that compiles and that the device takes. -/
def runs : StepSystem (InputActor Xkb) InputCommand where
  start s := ∃ keymapData keymap, api.compile keymapData = some keymap ∧ s = start api keymapData keymap
  step s command t := next api s command = some t

end InputActor

end HyprRdp
