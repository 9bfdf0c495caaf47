import HyprRdp.Input.DeviceKeys
import HyprRdp.Input.Pointer
import HyprRdp.Lib.Runs
import Mathlib.Algebra.BigOperators.Group.List.Basic
import Mathlib.Algebra.Ring.Int.Defs
import Mathlib.Tactic.Ring

namespace HyprRdp

/-- The wheel units of an event, as the client counts them. -/
def MouseEvent.wheelUnits : Axis → MouseEvent → Int
  | .verticalScroll, .verticalScroll value => value
  | .horizontalScroll, .horizontalScroll value => value
  | .verticalScroll, .scroll _ y => y
  | .horizontalScroll, .scroll x _ => x
  | _, _ => 0

namespace PointerRequest

/-- The whole detents that a request reports on an axis. -/
def detents (axis : Axis) : PointerRequest → Int
  | .axisDiscrete on _ discrete => if on = axis then discrete else 0
  | _ => 0

/-- The motion of an axis in a request, in wheel units. -/
def motionUnits (axis : Axis) : PointerRequest → Int
  | .axisDiscrete on units _ | .axis on units => if on = axis then units else 0
  | _ => 0

end PointerRequest

/-- The vertical axis is turned around. -/
def Axis.sign : Axis → Int
  | .verticalScroll => -1
  | .horizontalScroll => 1

namespace VirtualPointer

def residual (p : VirtualPointer) : Axis → Int
  | .verticalScroll => p.scrollResidualV
  | .horizontalScroll => p.scrollResidualH

def detents (p : VirtualPointer) (axis : Axis) : Int := (p.requests.map (PointerRequest.detents axis)).sum

def motionUnits (p : VirtualPointer) (axis : Axis) : Int := (p.requests.map (PointerRequest.motionUnits axis)).sum

variable {p q : VirtualPointer} {axis : Axis} {total : Int}

/-- So many units have come in on an axis, and none of them is lost. -/
structure Accounts (p : VirtualPointer) (axis : Axis) (total : Int) : Prop where
  detents : axis.sign * (120 * p.detents axis) + p.residual axis = total
  motion : axis.sign * p.motionUnits axis = total
  residual : (p.residual axis).natAbs < 120

/-- A request that is no motion of this axis. -/
def Silent (axis : Axis) (request : PointerRequest) : Prop := request.detents axis = 0 ∧ request.motionUnits axis = 0

theorem Accounts.send (old : p.Accounts axis total) {requests : List PointerRequest}
    (silent : ∀ request ∈ requests, Silent axis request) : (p.send requests).Accounts axis total := by
  have none : (requests.map (PointerRequest.detents axis)).sum = 0 := by
    refine List.sum_eq_zero fun value member => ?_
    obtain ⟨request, among, rfl⟩ := List.mem_map.mp member
    exact (silent request among).1
  have still : (requests.map (PointerRequest.motionUnits axis)).sum = 0 := by
    refine List.sum_eq_zero fun value member => ?_
    obtain ⟨request, among, rfl⟩ := List.mem_map.mp member
    exact (silent request among).2
  refine ⟨?_, ?_, old.residual⟩
  · unfold VirtualPointer.detents VirtualPointer.send
    rw [List.map_append, List.sum_append, none, Int.add_zero]
    exact old.detents
  · unfold VirtualPointer.motionUnits VirtualPointer.send
    rw [List.map_append, List.sum_append, still, Int.add_zero]
    exact old.motion

theorem detent_split (accumulated : Int) : 120 * accumulated.tdiv 120 + accumulated.tmod 120 = accumulated :=
  Int.mul_tdiv_add_tmod accumulated 120

theorem detent_rest (accumulated : Int) : (accumulated.tmod 120).natAbs < 120 := by
  rw [Int.natAbs_tmod]
  exact Nat.mod_lt _ (by decide)

theorem axisRequest_detents (on : Axis) (units discrete : Int) :
    (axisRequest on units discrete).detents axis = if on = axis then discrete else 0 := by
  unfold axisRequest
  split
  · rename_i none
    rw [none, ite_self]
    rfl
  · rfl

theorem axisRequest_motionUnits (on : Axis) (units discrete : Int) :
    (axisRequest on units discrete).motionUnits axis = if on = axis then units else 0 := by
  unfold axisRequest
  split <;> rfl

/-- The units of one event on this axis. -/
theorem Accounts.roll (old : p.Accounts axis total) {deltaUnits discrete : Int}
    (requests : q.requests = p.requests ++ [axisRequest axis (axis.sign * deltaUnits) discrete])
    (whole : discrete = axis.sign * (p.residual axis + deltaUnits).tdiv 120)
    (rest : q.residual axis = (p.residual axis + deltaUnits).tmod 120) : q.Accounts axis (total + deltaUnits) := by
  have split := detent_split (p.residual axis + deltaUnits)
  have square : axis.sign * axis.sign = 1 := by cases axis <;> rfl
  refine ⟨?_, ?_, ?_⟩
  · have more : q.detents axis = p.detents axis + discrete := by
      unfold VirtualPointer.detents
      rw [requests, List.map_append, List.sum_append, List.map_singleton, List.sum_singleton, axisRequest_detents, if_pos rfl]
    rw [more, rest, whole, ← old.detents]
    calc axis.sign * (120 * (p.detents axis + axis.sign * (p.residual axis + deltaUnits).tdiv 120)) +
          (p.residual axis + deltaUnits).tmod 120
        = axis.sign * (120 * p.detents axis) + (axis.sign * axis.sign) * (120 * (p.residual axis + deltaUnits).tdiv 120) +
          (p.residual axis + deltaUnits).tmod 120 := by ring
      _ = axis.sign * (120 * p.detents axis) + (120 * (p.residual axis + deltaUnits).tdiv 120 +
          (p.residual axis + deltaUnits).tmod 120) := by rw [square]; ring
      _ = axis.sign * (120 * p.detents axis) + p.residual axis + deltaUnits := by rw [split]; ring
  · have more : q.motionUnits axis = p.motionUnits axis + axis.sign * deltaUnits := by
      unfold VirtualPointer.motionUnits
      rw [requests, List.map_append, List.sum_append, List.map_singleton, List.sum_singleton, axisRequest_motionUnits, if_pos rfl]
    rw [more, ← old.motion]
    calc axis.sign * (p.motionUnits axis + axis.sign * deltaUnits)
        = axis.sign * p.motionUnits axis + (axis.sign * axis.sign) * deltaUnits := by ring
      _ = axis.sign * p.motionUnits axis + deltaUnits := by rw [square]; ring
  · rw [rest]
    exact detent_rest _

/-- The units of one event on the other axis. -/
theorem Accounts.other (old : p.Accounts axis total) {on : Axis} (apart : on ≠ axis) {units discrete : Int}
    (requests : q.requests = p.requests ++ [axisRequest on units discrete]) (rest : q.residual axis = p.residual axis) :
    q.Accounts axis total := by
  have silent : ∀ request ∈ [axisRequest on units discrete], Silent axis request := by
    intro request among
    rw [List.mem_singleton.mp among]
    exact ⟨(axisRequest_detents on units discrete).trans (if_neg apart),
      (axisRequest_motionUnits on units discrete).trans (if_neg apart)⟩
  have sent := old.send silent
  refine ⟨?_, ?_, ?_⟩
  · unfold VirtualPointer.detents
    rw [requests, rest]
    exact sent.detents
  · unfold VirtualPointer.motionUnits
    rw [requests]
    exact sent.motion
  · rw [rest]
    exact old.residual

theorem Accounts.emitVertical (old : p.Accounts axis total) (deltaUnits : Int) :
    (p.emitVertical deltaUnits).Accounts axis (total + MouseEvent.wheelUnits axis (.verticalScroll deltaUnits)) := by
  unfold VirtualPointer.emitVertical
  split
  · rename_i none
    cases axis <;> rw [none] <;> exact (Int.add_zero total).symm ▸ old
  · cases axis with
    | verticalScroll => exact old.roll (by unfold Axis.sign; rw [Int.neg_one_mul]; rfl) (Int.neg_one_mul _).symm rfl
    | horizontalScroll => exact (Int.add_zero total).symm ▸ old.other (by decide) rfl rfl

theorem Accounts.emitHorizontal (old : p.Accounts axis total) (deltaUnits : Int) :
    (p.emitHorizontal deltaUnits).Accounts axis (total + MouseEvent.wheelUnits axis (.horizontalScroll deltaUnits)) := by
  unfold VirtualPointer.emitHorizontal
  split
  · rename_i none
    cases axis <;> rw [none] <;> exact (Int.add_zero total).symm ▸ old
  · cases axis with
    | verticalScroll => exact (Int.add_zero total).symm ▸ old.other (by decide) rfl rfl
    | horizontalScroll => exact old.roll (by unfold Axis.sign; rw [Int.one_mul]; rfl) (Int.one_mul _).symm rfl

theorem Accounts.emitScrollEvent (old : p.Accounts axis total) (horizontalUnits verticalUnits : Int) :
    (p.emitScrollEvent horizontalUnits verticalUnits).Accounts axis
      (total + MouseEvent.wheelUnits axis (.scroll horizontalUnits verticalUnits)) := by
  have source : ∀ request ∈ [PointerRequest.axisSource], Silent axis request := fun request among => by
    rw [List.mem_singleton.mp among]
    exact ⟨rfl, rfl⟩
  have frame : ∀ request ∈ [PointerRequest.frame], Silent axis request := fun request among => by
    rw [List.mem_singleton.mp among]
    exact ⟨rfl, rfl⟩
  have both : total + MouseEvent.wheelUnits axis (.verticalScroll verticalUnits) +
      MouseEvent.wheelUnits axis (.horizontalScroll horizontalUnits) =
        total + MouseEvent.wheelUnits axis (.scroll horizontalUnits verticalUnits) := by
    cases axis with
    | verticalScroll => exact Int.add_zero _
    | horizontalScroll => exact congrArg (· + horizontalUnits) (Int.add_zero total)
  rw [← both]
  exact (((old.send source).emitVertical verticalUnits).emitHorizontal horizontalUnits).send frame

theorem Accounts.emitMouseEvent (old : p.Accounts axis total) (layout : Option PointerLayout) (event : MouseEvent) :
    (p.emitMouseEvent layout event).Accounts axis (total + event.wheelUnits axis) := by
  have quiet : ∀ {requests : List PointerRequest}, (∀ request ∈ requests, Silent axis request) →
      (p.send requests).Accounts axis (total + 0) := fun silent => (Int.add_zero total).symm ▸ old.send silent
  have pressed : ∀ (button : MouseButton) (pressed : Bool), ∀ request ∈ buttonRequests button pressed, Silent axis request := by
    intro button pressed request among
    obtain ⟨code, _, rfl⟩ := Option.map_eq_some_iff.mp (Option.mem_toList.mp among)
    exact ⟨rfl, rfl⟩
  cases event with
  | move x y =>
    have units : MouseEvent.wheelUnits axis (.move x y) = 0 := by cases axis <;> rfl
    rw [units]
    cases layout with
    | none => exact (Int.add_zero total).symm ▸ old
    | some layout =>
      refine quiet fun request among => ?_
      rcases List.mem_cons.mp among with rfl | among
      · exact ⟨rfl, rfl⟩
      · rw [List.mem_singleton.mp among]
        exact ⟨rfl, rfl⟩
  | button x y button isPressed =>
    have units : MouseEvent.wheelUnits axis (.button x y button isPressed) = 0 := by cases axis <;> rfl
    rw [units]
    refine quiet fun request among => ?_
    rcases List.mem_append.mp among with among | among
    · rcases List.mem_append.mp among with among | among
      · obtain ⟨found, _, rfl⟩ := Option.map_eq_some_iff.mp (Option.mem_toList.mp among)
        exact ⟨rfl, rfl⟩
      · exact pressed button isPressed request among
    · rw [List.mem_singleton.mp among]
      exact ⟨rfl, rfl⟩
  | buttonRel x y button isPressed =>
    have units : MouseEvent.wheelUnits axis (.buttonRel x y button isPressed) = 0 := by cases axis <;> rfl
    rw [units]
    refine quiet fun request among => ?_
    rcases List.mem_append.mp among with among | among
    · rcases List.mem_cons.mp among with rfl | among
      · exact ⟨rfl, rfl⟩
      · exact pressed button isPressed request among
    · rw [List.mem_singleton.mp among]
      exact ⟨rfl, rfl⟩
  | verticalScroll value =>
    have units : MouseEvent.wheelUnits axis (.verticalScroll value) = MouseEvent.wheelUnits axis (.scroll 0 value) := by
      cases axis <;> rfl
    rw [units]
    exact old.emitScrollEvent 0 value
  | horizontalScroll value =>
    have units : MouseEvent.wheelUnits axis (.horizontalScroll value) = MouseEvent.wheelUnits axis (.scroll value 0) := by
      cases axis <;> rfl
    rw [units]
    exact old.emitScrollEvent value 0
  | scroll x y => exact old.emitScrollEvent x y
  | relMove x y =>
    have units : MouseEvent.wheelUnits axis (.relMove x y) = 0 := by cases axis <;> rfl
    rw [units]
    refine quiet fun request among => ?_
    rcases List.mem_cons.mp among with rfl | among
    · exact ⟨rfl, rfl⟩
    · rw [List.mem_singleton.mp among]
      exact ⟨rfl, rfl⟩
  | unrecognised =>
    have units : MouseEvent.wheelUnits axis .unrecognised = 0 := by cases axis <;> rfl
    rw [units]
    exact (Int.add_zero total).symm ▸ old

theorem accounts_default : VirtualPointer.default.Accounts axis 0 := by
  cases axis with
  | verticalScroll => exact ⟨rfl, rfl, by decide⟩
  | horizontalScroll => exact ⟨rfl, rfl, by decide⟩

/-- The range of the wheel units that the client can send, and of the detents that can be reported. -/
def InI32 (value : Int) : Prop := -2 ^ 31 ≤ value ∧ value < 2 ^ 31

/-- No empty report of detents, and none that does not fit. -/
def Reports (requests : List PointerRequest) : Prop :=
  ∀ on units discrete, .axisDiscrete on units discrete ∈ requests → discrete ≠ 0 ∧ InI32 discrete

theorem Reports.append {requests more : List PointerRequest} (old : Reports requests) (new : Reports more) :
    Reports (requests ++ more) := fun on units discrete member =>
  (List.mem_append.mp member).elim (old on units discrete) (new on units discrete)

theorem detents_inI32 {rest deltaUnits : Int} (small : rest.natAbs < 120) (range : InI32 deltaUnits) (axis : Axis) :
    InI32 (axis.sign * (rest + deltaUnits).tdiv 120) := by
  have split := detent_split (rest + deltaUnits)
  have left := detent_rest (rest + deltaUnits)
  obtain ⟨above, below⟩ := range
  unfold InI32
  cases axis with
  | verticalScroll =>
    have turned : Axis.sign .verticalScroll = -1 := rfl
    rw [turned]
    omega
  | horizontalScroll =>
    have kept : Axis.sign .horizontalScroll = 1 := rfl
    rw [kept]
    omega

theorem axisRequest_reports {on : Axis} {units discrete : Int} (range : InI32 discrete) :
    Reports [axisRequest on units discrete] := by
  intro other moved reported member
  have same := List.mem_singleton.mp member
  unfold axisRequest at same
  split at same
  · cases same
  · rename_i some
    cases same
    exact ⟨some, range⟩

theorem emitVertical_reports (reports : Reports p.requests) (small : p.scrollResidualV.natAbs < 120) {deltaUnits : Int}
    (range : InI32 deltaUnits) : Reports (p.emitVertical deltaUnits).requests := by
  unfold emitVertical
  split
  · exact reports
  · refine reports.append (axisRequest_reports ?_)
    have turned : (scrollAxisStep p.scrollResidualV deltaUnits true).2.1 =
        Axis.sign .verticalScroll * (p.scrollResidualV + deltaUnits).tdiv 120 := (Int.neg_one_mul _).symm
    rw [turned]
    exact detents_inI32 small range .verticalScroll

theorem emitHorizontal_reports (reports : Reports p.requests) (small : p.scrollResidualH.natAbs < 120) {deltaUnits : Int}
    (range : InI32 deltaUnits) : Reports (p.emitHorizontal deltaUnits).requests := by
  unfold emitHorizontal
  split
  · exact reports
  · refine reports.append (axisRequest_reports ?_)
    have kept : (scrollAxisStep p.scrollResidualH deltaUnits false).2.1 =
        Axis.sign .horizontalScroll * (p.scrollResidualH + deltaUnits).tdiv 120 := (Int.one_mul _).symm
    rw [kept]
    exact detents_inI32 small range .horizontalScroll

theorem emitVertical_scrollResidualH (deltaUnits : Int) : (p.emitVertical deltaUnits).scrollResidualH = p.scrollResidualH := by
  unfold emitVertical
  split <;> rfl

theorem emitScrollEvent_reports (reports : Reports p.requests) (vertical : p.scrollResidualV.natAbs < 120)
    (horizontal : p.scrollResidualH.natAbs < 120) {x y : Int} (rangeX : InI32 x) (rangeY : InI32 y) :
    Reports (p.emitScrollEvent x y).requests := by
  have source : Reports [PointerRequest.axisSource] := fun _ _ _ member => by cases List.mem_singleton.mp member
  have frame : Reports [PointerRequest.frame] := fun _ _ _ member => by cases List.mem_singleton.mp member
  have down : Reports ((p.send [.axisSource]).emitVertical y).requests :=
    emitVertical_reports (p := p.send [.axisSource]) (reports.append source) vertical rangeY
  have across : ((p.send [.axisSource]).emitVertical y).scrollResidualH.natAbs < 120 := by
    rw [emitVertical_scrollResidualH]
    exact horizontal
  exact (emitHorizontal_reports down across rangeX).append frame

end VirtualPointer

/-- The units fit the type that the client's messages have for them. -/
def MouseEvent.UnitsFit (event : MouseEvent) : Prop := ∀ axis, VirtualPointer.InI32 (event.wheelUnits axis)

namespace VirtualPointer

variable {p : VirtualPointer}

theorem emitMouseEvent_reports (reports : Reports p.requests) (vertical : p.scrollResidualV.natAbs < 120)
    (horizontal : p.scrollResidualH.natAbs < 120) (layout : Option PointerLayout) {event : MouseEvent} (fit : event.UnitsFit) :
    Reports (p.emitMouseEvent layout event).requests := by
  have zero : InI32 0 := ⟨by decide, by decide⟩
  have other : ∀ {requests : List PointerRequest}, (∀ request ∈ requests, ∀ on units discrete, request ≠ .axisDiscrete on units discrete) →
      Reports (p.send requests).requests := fun none =>
    reports.append fun on units discrete member => absurd rfl (none _ member on units discrete)
  cases event with
  | verticalScroll value => exact emitScrollEvent_reports reports vertical horizontal zero (fit .verticalScroll)
  | horizontalScroll value => exact emitScrollEvent_reports reports vertical horizontal (fit .horizontalScroll) zero
  | scroll x y => exact emitScrollEvent_reports reports vertical horizontal (fit .horizontalScroll) (fit .verticalScroll)
  | unrecognised => exact reports
  | move x y =>
    cases layout with
    | none => exact reports
    | some layout => exact other (by simp [absolute])
  | button x y button pressed => exact other (by
      intro request member on units discrete same
      subst same
      simp [buttonRequests, absolute] at member)
  | buttonRel x y button pressed => exact other (by
      intro request member on units discrete same
      subst same
      simp [buttonRequests] at member)
  | relMove x y => exact other (by simp)

end VirtualPointer

namespace DeviceCommand

def wheelUnits (axis : Axis) : DeviceCommand → Int
  | .mouse event _ => event.wheelUnits axis
  | .other _ => 0

def UnitsFit : DeviceCommand → Prop
  | .mouse event _ => event.UnitsFit
  | .other _ => True

end DeviceCommand

namespace InputDevices

open VirtualPointer

variable {Xkb : Type} {api : XkbApi Xkb} {s t : InputDevices Xkb}

theorem wheel_exec {commands : List DeviceCommand} {axis : Axis} {total : Int} (old : s.pointer.Accounts axis total)
    (run : StepSystem.exec (next api) s commands = some t) :
    t.pointer.Accounts axis (total + (commands.map (DeviceCommand.wheelUnits axis)).sum) := by
  induction commands generalizing s total with
  | nil =>
    cases run
    exact (Int.add_zero total).symm ▸ old
  | cons command rest ih =>
    obtain ⟨u, step, run⟩ := Option.bind_eq_some_iff.mp run
    obtain ⟨actor, _, rfl⟩ := Option.map_eq_some_iff.mp step
    have moved : (move s.pointer command).Accounts axis (total + command.wheelUnits axis) := by
      cases command with
      | mouse event layout => exact old.emitMouseEvent layout event
      | other command => exact (Int.add_zero total).symm ▸ old
    rw [List.map_cons, List.sum_cons, ← Int.add_assoc]
    exact ih moved run

theorem reports_exec {commands : List DeviceCommand} {vertical horizontal : Int} (reports : Reports s.pointer.requests)
    (down : s.pointer.Accounts .verticalScroll vertical) (across : s.pointer.Accounts .horizontalScroll horizontal)
    (fit : ∀ command ∈ commands, command.UnitsFit) (run : StepSystem.exec (next api) s commands = some t) :
    Reports t.pointer.requests := by
  induction commands generalizing s vertical horizontal with
  | nil =>
    cases run
    exact reports
  | cons command rest ih =>
    obtain ⟨u, step, run⟩ := Option.bind_eq_some_iff.mp run
    have one : StepSystem.exec (next api) s [command] = some u := by rw [StepSystem.exec, step]; rfl
    refine ih ?_ (wheel_exec down one) (wheel_exec across one) (fun other member => fit other (List.mem_cons_of_mem _ member)) run
    obtain ⟨actor, _, rfl⟩ := Option.map_eq_some_iff.mp step
    cases command with
    | mouse event layout =>
      exact emitMouseEvent_reports reports down.residual across.residual layout (fit (.mouse event layout) List.mem_cons_self)
    | other command => exact reports

/-- No turn of the wheel is lost or invented, in any sequence of input: on each axis the detents reported and the units
still kept back add up to the units received, less than a detent is kept back, and every report of detents has some and
fits its type. -/
theorem wheel_adds_up {keymapData : List UInt8} {keymap : XkbKeymap Xkb} {commands : List DeviceCommand}
    (run : StepSystem.exec (next api) (start api keymapData keymap) commands = some t)
    (fit : ∀ command ∈ commands, command.UnitsFit) (axis : Axis) :
    axis.sign * (120 * t.pointer.detents axis) + t.pointer.residual axis = (commands.map (DeviceCommand.wheelUnits axis)).sum ∧
    axis.sign * t.pointer.motionUnits axis = (commands.map (DeviceCommand.wheelUnits axis)).sum ∧
    (t.pointer.residual axis).natAbs < 120 ∧
    ∀ on units discrete, .axisDiscrete on units discrete ∈ t.pointer.requests →
      discrete ≠ 0 ∧ -2 ^ 31 ≤ discrete ∧ discrete < 2 ^ 31 := by
  have account := wheel_exec (accounts_default : VirtualPointer.default.Accounts axis 0) run
  rw [Int.zero_add] at account
  have nothing : Reports (start api keymapData keymap).pointer.requests := fun _ _ _ member => by cases member
  exact ⟨account.detents, account.motion, account.residual,
    reports_exec nothing accounts_default accounts_default fit run⟩

/-- Half a detent forward and more than one back, with a key in between. -/
theorem wheel_adds_up_once : ∃ t : InputDevices (List Nat),
    StepSystem.exec (next InputActor.shiftKeyboard) (start InputActor.shiftKeyboard [] InputActor.shiftKeymap)
      [.mouse (.verticalScroll 60) none, .other (.keyboard (.pressed 0x2A false)), .mouse (.scroll 120 (-200)) none] = some t ∧
    -1 * (120 * t.pointer.detents .verticalScroll) + t.pointer.scrollResidualV = -140 := by
  have some : (StepSystem.exec (next InputActor.shiftKeyboard) (start InputActor.shiftKeyboard [] InputActor.shiftKeymap)
      [.mouse (.verticalScroll 60) none, .other (.keyboard (.pressed 0x2A false)), .mouse (.scroll 120 (-200)) none]).isSome =
        true := by
    decide
  obtain ⟨t, run⟩ := Option.isSome_iff_exists.mp some
  refine ⟨t, run, (wheel_adds_up run (fun command member => ?_) .verticalScroll).1⟩
  simp only [List.mem_cons, List.not_mem_nil, or_false] at member
  rcases member with rfl | rfl | rfl
  · exact fun axis => by cases axis <;> exact ⟨by decide, by decide⟩
  · trivial
  · exact fun axis => by cases axis <;> exact ⟨by decide, by decide⟩

end InputDevices

end HyprRdp
