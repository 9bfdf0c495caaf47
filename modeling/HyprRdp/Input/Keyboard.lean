import Mathlib.Data.List.Basic

namespace HyprRdp

def xkbKeycodeOffset : Nat := 8

def keyCapslock : Nat := 58

def keyNumlock : Nat := 69

def keyScrolllock : Nat := 70

def keyKatakanahiragana : Nat := 93

def leftShiftKey : Nat := 42

def isModifier (evdevKey : Nat) : Bool := [29, leftShiftKey, 54, 56, 97, 100, 125, 126].contains evdevKey

/-- The extended scancodes, with their evdev keys. -/
def xtExtendedKeys : List (Nat × Nat) :=
  [(0x10, 165), (0x19, 163), (0x1C, 96), (0x1D, 97), (0x20, 113), (0x21, 140), (0x22, 164), (0x24, 166), (0x2E, 114),
    (0x30, 115), (0x32, 172), (0x35, 98), (0x37, 99), (0x38, 100), (0x46, 119), (0x47, 102), (0x48, 103), (0x49, 104),
    (0x4B, 105), (0x4D, 106), (0x4F, 107), (0x50, 108), (0x51, 109), (0x52, 110), (0x53, 111), (0x5B, 125), (0x5C, 126),
    (0x5D, 127), (0x65, 217), (0x66, 156), (0x6B, 157), (0x6C, 155)]

def xtExtendedToEvdev (code : Nat) : Option Nat := xtExtendedKeys.lookup code

/-- The international keys of the base set. -/
def xtInternationalKeys : List (Nat × Nat) := [(0x70, 93), (0x73, 89), (0x79, 92), (0x7B, 94), (0x7D, 124), (0x7E, 121)]

def xtToEvdev (code : Nat) (extended : Bool) : Option Nat :=
  if extended then xtExtendedToEvdev code
  else if (0x01 ≤ code ∧ code ≤ 0x53) ∨ (0x56 ≤ code ∧ code ≤ 0x58) then some code
  else xtInternationalKeys.lookup code

/-- The locks that a client asks for. -/
structure SynchronizeFlags where
  capsLock : Bool
  numLock : Bool
  scrollLock : Bool
  kanaLock : Bool
  deriving DecidableEq

structure UnicodeKeyMapping where
  evdevKey : Nat
  needsShift : Bool
  deriving DecidableEq

structure KeyboardModifierState where
  depressed : Nat
  latched : Nat
  locked : Nat
  group : Nat
  deriving DecidableEq

/-- A compiled keymap: the characters of each key, by layout and level, the names
of the layouts, and the state that a keyboard with this keymap starts in. -/
structure XkbKeymap (Xkb : Type) where
  keys : List (Nat × List (List (List Nat)))
  layouts : List String
  start : Xkb

/-- The xkb library, with its state machine of a keyboard. The update of latches and locks
takes the locks to affect and their values, or the group to lock, and older releases lack it. -/
structure XkbApi (Xkb : Type) where
  compile : List UInt8 → Option (XkbKeymap Xkb)
  updateKey : Xkb → Nat → Bool → Xkb
  modifierState : Xkb → KeyboardModifierState
  updateLatchedLocked : Option (Xkb → Nat → Nat → Option Nat → Xkb)

/-- The replica of the compositor's state for the virtual keyboard. -/
structure KeyboardStateTracker (Xkb : Type) where
  unicodeToKeycode : List (Nat × UnicodeKeyMapping)
  layoutNames : List String
  xkbState : Xkb
  capsLockMask : Nat
  numLockMask : Nat
  scrollLockMask : Nat
  kanaLockMask : Nat

/-- Every character of the basic plane, at each place where it stands; the first place counts. -/
def buildUnicodeToKeycode {Xkb : Type} (keymap : XkbKeymap Xkb) : List (Nat × UnicodeKeyMapping) :=
  keymap.keys.flatMap fun (keycode, layouts) =>
    layouts.flatMap fun levels =>
      levels.zipIdx.flatMap fun (characters, level) =>
        (characters.filter fun character => 0 < character ∧ character ≤ 0xFFFF).map fun character =>
          (character, ⟨keycode - xkbKeycodeOffset, level = 1⟩)

namespace KeyboardStateTracker

variable {Xkb : Type} (api : XkbApi Xkb)

def lockedMaskForKey (keymap : XkbKeymap Xkb) (evdevKey : Nat) : Nat :=
  (api.modifierState (api.updateKey keymap.start (evdevKey + xkbKeycodeOffset) true)).locked

def new (keymap : XkbKeymap Xkb) : KeyboardStateTracker Xkb :=
  { unicodeToKeycode := buildUnicodeToKeycode keymap
    layoutNames := keymap.layouts
    xkbState := keymap.start
    capsLockMask := lockedMaskForKey api keymap keyCapslock
    numLockMask := lockedMaskForKey api keymap keyNumlock
    scrollLockMask := lockedMaskForKey api keymap keyScrolllock
    kanaLockMask := lockedMaskForKey api keymap keyKatakanahiragana }

variable (t : KeyboardStateTracker Xkb)

def unicodeToEvdev (codePoint : Nat) : Option UnicodeKeyMapping := t.unicodeToKeycode.lookup codePoint

def layoutIndexByName (name : String) : Option Nat := t.layoutNames.findIdx? fun layout => layout == name

def modifierState : KeyboardModifierState := api.modifierState t.xkbState

/-- Feeds a key event through the replica. -/
def key (evdevKey : Nat) (pressed : Bool) : KeyboardStateTracker Xkb :=
  { t with xkbState := api.updateKey t.xkbState (evdevKey + xkbKeycodeOffset) pressed }

def applyLatchedLocked (affectLockedMods lockedMods : Nat) (lockedLayout : Option Nat) : KeyboardStateTracker Xkb :=
  match api.updateLatchedLocked with
  | none => t
  | some update => { t with xkbState := update t.xkbState affectLockedMods lockedMods lockedLayout }

def lockedModsFromFlags (flags : SynchronizeFlags) : Nat :=
  (if flags.capsLock then t.capsLockMask else 0) ||| (if flags.numLock then t.numLockMask else 0) |||
    (if flags.scrollLock then t.scrollLockMask else 0) ||| (if flags.kanaLock then t.kanaLockMask else 0)

/-- Forces the locks to the client's view. Without the update of latches and
locks they are toggled by their keys, which the device is not told of. -/
def synchronizeLocks (flags : SynchronizeFlags) : KeyboardStateTracker Xkb :=
  let target := t.lockedModsFromFlags flags
  if api.updateLatchedLocked.isSome then
    t.applyLatchedLocked api (t.capsLockMask ||| t.numLockMask ||| t.scrollLockMask ||| t.kanaLockMask) target none
  else
    let before := (t.modifierState api).locked
    [(t.capsLockMask, keyCapslock), (t.numLockMask, keyNumlock), (t.scrollLockMask, keyScrolllock),
        (t.kanaLockMask, keyKatakanahiragana)].foldl
      (fun u (mask, lock) =>
        if mask ≠ 0 ∧ (before ^^^ target) &&& mask ≠ 0 then (u.key api lock true).key api lock false else u) t

def setLockedGroup (group : Nat) : KeyboardStateTracker Xkb := t.applyLatchedLocked api 0 0 (some group)

end KeyboardStateTracker

end HyprRdp
