import HyprRdp.Capture.Scale
import HyprRdp.Input.Actor

namespace HyprRdp

inductive MouseButton
  | left | right | middle | x1 | x2
  | unrecognised (code : Nat)
  deriving DecidableEq

inductive MouseEvent
  | move (x y : Nat)
  | button (x y : Nat) (button : MouseButton) (pressed : Bool)
  | buttonRel (x y : Int) (button : MouseButton) (pressed : Bool)
  | verticalScroll (value : Int)
  | horizontalScroll (value : Int)
  | scroll (x y : Int)
  | relMove (x y : Int)
  | unrecognised

def MouseEvent.buttonChange : MouseEvent → Option (MouseButton × Bool)
  | .button _ _ which pressed | .buttonRel _ _ which pressed => some (which, pressed)
  | _ => none

/-- The layout snapshot with the extents of the output, as the pointer reads it. -/
structure PointerLayout extends OutputLayoutSnapshot where
  outputW : Nat
  outputH : Nat

inductive Axis
  | verticalScroll | horizontalScroll
  deriving DecidableEq

/-- A request to the virtual pointer. The motion of an axis is 15 for every 120 units. -/
inductive PointerRequest
  | motion (dx dy : Int)
  | motionAbsolute (x y xExtent yExtent : Nat)
  | button (code : Nat) (pressed : Bool)
  | axisSource
  | axis (axis : Axis) (units : Int)
  | axisDiscrete (axis : Axis) (units discrete : Int)
  | frame
  deriving DecidableEq

def PointerRequest.buttonChange : PointerRequest → Option (Nat × Bool)
  | .button code pressed => some (code, pressed)
  | _ => none

def evdevButton : MouseButton → Option Nat
  | .left => some 0x110
  | .right => some 0x111
  | .middle => some 0x112
  | .x1 => some 0x113
  | .x2 => some 0x114
  | .unrecognised _ => none

/-- The virtual pointer, with the wheel units left over on each axis and the requests sent to it, the oldest first. -/
structure VirtualPointer where
  scrollResidualH : Int
  scrollResidualV : Int
  requests : List PointerRequest

namespace VirtualPointer

def default : VirtualPointer := ⟨0, 0, []⟩

variable (p : VirtualPointer)

def send (requests : List PointerRequest) : VirtualPointer := { p with requests := p.requests ++ requests }

/-- The button requests sent to the device. -/
def buttons : SwitchLog Nat := p.requests.filterMap (·.buttonChange)

/-- RDP and Wayland disagree about the direction of the vertical axis. Whole detents are reported, the rest is kept. -/
def scrollAxisStep (residual deltaUnits : Int) (invert : Bool) : Int × Int × Int :=
  let accumulated := residual + deltaUnits
  let detents := accumulated.tdiv 120
  (if invert then -deltaUnits else deltaUnits, if invert then -detents else detents, accumulated.tmod 120)

def axisRequest (axis : Axis) (units discrete : Int) : PointerRequest :=
  if discrete = 0 then .axis axis units else .axisDiscrete axis units discrete

def emitVertical (deltaUnits : Int) : VirtualPointer :=
  if deltaUnits = 0 then p
  else
    let (units, discrete, residual) := scrollAxisStep p.scrollResidualV deltaUnits true
    { p.send [axisRequest .verticalScroll units discrete] with scrollResidualV := residual }

def emitHorizontal (deltaUnits : Int) : VirtualPointer :=
  if deltaUnits = 0 then p
  else
    let (units, discrete, residual) := scrollAxisStep p.scrollResidualH deltaUnits false
    { p.send [axisRequest .horizontalScroll units discrete] with scrollResidualH := residual }

def emitScrollEvent (horizontalUnits verticalUnits : Int) : VirtualPointer :=
  (((p.send [.axisSource]).emitVertical verticalUnits).emitHorizontal horizontalUnits).send [.frame]

def absolute (layout : PointerLayout) (x y : Nat) : PointerRequest :=
  let source := layout.presentationGeometry.mapPresentationPointToSource x y
  .motionAbsolute source.1 source.2 layout.outputW layout.outputH

def buttonRequests (button : MouseButton) (pressed : Bool) : List PointerRequest :=
  ((evdevButton button).map fun code => .button code pressed).toList

def emitMouseEvent (layout : Option PointerLayout) : MouseEvent → VirtualPointer
  | .move x y =>
    match layout with
    | none => p
    | some layout => p.send [absolute layout x y, .frame]
  | .button x y button pressed =>
    p.send ((layout.map fun layout => absolute layout x y).toList ++ buttonRequests button pressed ++ [.frame])
  | .buttonRel x y button pressed => p.send (.motion x y :: buttonRequests button pressed ++ [.frame])
  | .verticalScroll value => p.emitScrollEvent 0 value
  | .scroll x y => p.emitScrollEvent x y
  | .horizontalScroll value => p.emitScrollEvent value 0
  | .relMove x y => p.send [.motion x y, .frame]
  | .unrecognised => p

end VirtualPointer

/-- A command to the actor; a mouse command goes on to the pointer, with the layout that is found there. -/
inductive DeviceCommand
  | mouse (event : MouseEvent) (layout : Option PointerLayout)
  | other (command : InputCommand)

namespace DeviceCommand

def input : DeviceCommand → InputCommand
  | .mouse _ _ => .mouse
  | .other command => command

def buttonChange : DeviceCommand → Option (MouseButton × Bool)
  | .mouse event _ => event.buttonChange
  | .other _ => none

end DeviceCommand

/-- The actor with both virtual devices. -/
structure InputDevices (Xkb : Type) where
  actor : InputActor Xkb
  pointer : VirtualPointer

namespace InputDevices

variable {Xkb : Type} (api : XkbApi Xkb)

def start (keymapData : List UInt8) (keymap : XkbKeymap Xkb) : InputDevices Xkb :=
  ⟨.start api keymapData keymap, .default⟩

def move (pointer : VirtualPointer) : DeviceCommand → VirtualPointer
  | .mouse event layout => pointer.emitMouseEvent layout event
  | .other _ => pointer

def next (s : InputDevices Xkb) (command : DeviceCommand) : Option (InputDevices Xkb) :=
  (s.actor.next api command.input).map fun actor => ⟨actor, move s.pointer command⟩

end InputDevices

end HyprRdp
