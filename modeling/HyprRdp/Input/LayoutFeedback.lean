import HyprRdp.Input.Announcements
import HyprRdp.Input.LayoutListener
import HyprRdp.Lib.Potential
import Mathlib.Algebra.Order.BigOperators.Group.List
import Mathlib.Algebra.Order.Ring.Nat

namespace HyprRdp

/-- The compositor's side of our virtual keyboard. -/
structure OwnDevice where
  keymapData : List UInt8
  group : Nat
  deriving DecidableEq

namespace OwnDevice

variable {Xkb : Type} (api : XkbApi Xkb) (d : OwnDevice)

def activeLayout : Option String := (api.compile d.keymapData).bind fun keymap => keymap.layouts[d.group]?

end OwnDevice

/-- The compositor, which is not part of the program: what it makes of our virtual keyboard upon a request, and which
layouts it may report then. -/
structure KeyboardCompositor where
  takes : OwnDevice → KeyboardRequest → OwnDevice
  reports : OwnDevice → KeyboardRequest → List String → Bool

/-- An uploaded keymap begins with its first layout, and the modifiers set the group. What is reported of a request is
the layout that is active behind it, and nothing where the modifiers leave the group as it was. -/
structure KeyboardCompositor.Documented {Xkb : Type} (api : XkbApi Xkb) (compositor : KeyboardCompositor) : Prop where
  upload : ∀ d keymapData, compositor.takes d (.keymap keymapData) = ⟨keymapData, 0⟩
  group : ∀ d state, compositor.takes d (.modifiers state) = { d with group := state.group }
  serves : ∀ d request, ∃ reported, compositor.reports d request reported = true
  reported : ∀ d request reported, compositor.reports d request reported = true →
    reported.Sublist ((compositor.takes d request).activeLayout api).toList
  silent : ∀ (d : OwnDevice) state reported, compositor.reports d (.modifiers state) reported = true →
    state.group = d.group → reported = []

namespace OwnDevice

variable {Xkb : Type} (api : XkbApi Xkb) (d : OwnDevice)

/-- The device behind a request, where the compositor keeps to its documentation. -/
def after : KeyboardRequest → OwnDevice
  | .keymap keymapData => ⟨keymapData, 0⟩
  | .modifiers state => { d with group := state.group }

/-- The layouts that are reported of a request at most. -/
def reportAtMost : KeyboardRequest → List String
  | .keymap keymapData => (OwnDevice.activeLayout api ⟨keymapData, 0⟩).toList
  | .modifiers state =>
    if state.group = d.group then [] else (OwnDevice.activeLayout api { d with group := state.group }).toList

/-- What the compositor has reported at most when it has served some requests. -/
def reports (d : OwnDevice) : List KeyboardRequest → List String
  | [] => []
  | request :: rest => d.reportAtMost api request ++ reports (d.after request) rest

def settled (requests : List KeyboardRequest) : OwnDevice := requests.foldl after d

end OwnDevice

namespace KeyboardCompositor

variable {Xkb : Type} {api : XkbApi Xkb} {compositor : KeyboardCompositor} {d : OwnDevice} {request : KeyboardRequest}

theorem Documented.takes (documented : compositor.Documented api) : compositor.takes d request = d.after request := by
  cases request with
  | keymap keymapData => exact documented.upload d keymapData
  | modifiers state => exact documented.group d state

theorem Documented.sublist (documented : compositor.Documented api) {reported : List String}
    (told : compositor.reports d request reported = true) : reported.Sublist (d.reportAtMost api request) := by
  have active := documented.reported d request reported told
  rw [documented.takes] at active
  cases request with
  | keymap keymapData => exact active
  | modifiers state =>
    unfold OwnDevice.reportAtMost
    dsimp only
    split
    · rename_i same
      rw [documented.silent d state reported told same]
    · exact active

end KeyboardCompositor

/-- The actor and the compositor, with the requests on their way to the one and the reports on their way back. -/
structure LayoutFeedback (Xkb : Type) where
  actor : InputActor Xkb
  requests : List KeyboardRequest
  device : OwnDevice
  events : List String

inductive FeedbackAction
  | command (command : InputCommand)
  | serve (reported : List String)
  | hear (taken : Bool)
  | reset (device : OwnDevice) (reported : List String)

/-- The two steps that answer something. -/
def FeedbackAction.Answers : FeedbackAction → Prop
  | .serve _ | .hear true => True
  | _ => False

/-- A command of somebody else: it is no report about our own device. -/
def InputCommand.isReport : InputCommand → Bool
  | .setLockedLayout _ fromOwnKeyboard _ => fromOwnKeyboard
  | _ => false

namespace LayoutFeedback

variable {Xkb : Type} (api : XkbApi Xkb) (compositor : KeyboardCompositor)

def obeys (s : LayoutFeedback Xkb) (command : InputCommand) : Option (LayoutFeedback Xkb) :=
  (s.actor.next api command).map fun actor =>
    { s with actor, requests := s.requests ++ s.actor.announcements api command }

def next (s : LayoutFeedback Xkb) : FeedbackAction → Option (LayoutFeedback Xkb)
  | .command command => if command.isReport then none else s.obeys api command
  | .serve reported =>
    match s.requests with
    | [] => none
    | request :: requests =>
      if compositor.reports s.device request reported then
        some { s with requests, device := compositor.takes s.device request, events := s.events ++ reported }
      else none
  | .hear taken =>
    match s.events with
    | [] => none
    | layoutName :: events => { s with events }.obeys api (.setLockedLayout layoutName true taken)
  | .reset device reported => some { s with device, events := s.events ++ reported }

/-- The actor has announced its keymap to a device that has another one, or none. -/
def start (keymapData : List UInt8) (keymap : XkbKeymap Xkb) (device : OwnDevice) : LayoutFeedback Xkb :=
  let actor := InputActor.start api keymapData keymap
  ⟨actor, [.keymap keymapData, .modifiers (actor.tracker.modifierState api)], device, []⟩

def runs : StepSystem (LayoutFeedback Xkb) FeedbackAction where
  start s := ∃ keymapData keymap device, api.compile keymapData = some keymap ∧ s = start api keymapData keymap device
  step s action t := s.next api compositor action = some t

/-- A keymap that is announced again can be handed over. When the compositor resets the device it reports the active layout,
and where it has replaced the keymap that layout is none of ours. -/
def Honest (s : LayoutFeedback Xkb) : FeedbackAction → Prop
  | .command _ | .serve _ => True
  | .hear taken => taken = true
  | .reset device reported => ∃ layoutName ∈ reported, device.activeLayout api = some layoutName ∧
      (device.keymapData = s.device.keymapData ∨ s.actor.tracker.layoutIndexByName layoutName = none)

end LayoutFeedback

namespace OwnDevice

variable {Xkb : Type} {api : XkbApi Xkb} {d : OwnDevice}

theorem settled_append (requests more : List KeyboardRequest) :
    d.settled (requests ++ more) = (d.settled requests).settled more := List.foldl_append

theorem reports_append (requests more : List KeyboardRequest) :
    d.reports api (requests ++ more) = d.reports api requests ++ (d.settled requests).reports api more := by
  induction requests generalizing d with
  | nil => rfl
  | cons request rest ih =>
    rw [List.cons_append, reports, reports, ih, List.append_assoc]
    rfl

/-- Each request sets the group. -/
theorem settled_group (e : OwnDevice) {requests : List KeyboardRequest} (some : requests ≠ []) :
    (d.settled requests).group = (e.settled requests).group := by
  induction requests generalizing d e with
  | nil => exact absurd rfl some
  | cons request rest ih =>
    by_cases last : rest = []
    · subst last
      cases request <;> rfl
    · exact ih (e.after request) last

/-- The keymap is that of the last upload. Without one it stays. -/
theorem settled_keymap (e : OwnDevice) (requests : List KeyboardRequest) :
    (d.settled requests).keymapData = (e.settled requests).keymapData ∨
      (d.settled requests).keymapData = d.keymapData ∧ (e.settled requests).keymapData = e.keymapData := by
  induction requests generalizing d e with
  | nil => exact .inr ⟨rfl, rfl⟩
  | cons request rest ih =>
    cases request with
    | keymap keymapData =>
      rcases ih (d := d.after (.keymap keymapData)) (e.after (.keymap keymapData)) with same | ⟨one, other⟩
      · exact .inl same
      · exact .inl (one.trans other.symm)
    | modifiers state => exact ih (d := d.after (.modifiers state)) (e.after (.modifiers state))

theorem reports_length (requests : List KeyboardRequest) : (d.reports api requests).length ≤ requests.length := by
  have one : ∀ (name : Option String), name.toList.length ≤ 1 := fun name => by cases name <;> simp
  induction requests generalizing d with
  | nil => exact Nat.le_refl _
  | cons request rest ih =>
    have first : (d.reportAtMost api request).length ≤ 1 := by
      cases request with
      | keymap keymapData => exact one _
      | modifiers state =>
        simp only [reportAtMost]
        split
        · exact Nat.zero_le 1
        · exact one _
    have later := ih (d := d.after request)
    rw [reports, List.length_append, List.length_cons]
    omega

end OwnDevice

namespace LayoutFeedback

open OwnDevice

variable {Xkb : Type} {api : XkbApi Xkb} {compositor : KeyboardCompositor} {s t : LayoutFeedback Xkb}

/-- The group of the replica that the device ought to have. -/
def group (api : XkbApi Xkb) (s : LayoutFeedback Xkb) : Nat := s.actor.group api

def resolve (s : LayoutFeedback Xkb) (layoutName : String) : Option Nat := s.actor.tracker.layoutIndexByName layoutName

/-- Where the requests on their way leave the device, it agrees with the replica, or a report on its way says that it does not. -/
structure Steady (api : XkbApi Xkb) (s : LayoutFeedback Xkb) : Prop where
  named : s.actor.Named api
  caught : s.requests ≠ [] → (s.device.settled s.requests).group = s.group api
  keymap : (s.device.settled s.requests).keymapData = s.actor.keymapData ∨ ∃ e ∈ s.events, s.resolve e = none
  layout : (s.device.settled s.requests).activeLayout api = s.actor.tracker.layoutNames[s.group api]? ∨
    ∃ e ∈ s.events, s.resolve e ≠ some (s.group api)

/-- What is announced again upon a report. -/
def echo (api : XkbApi Xkb) (s : LayoutFeedback Xkb) (layoutName : String) (taken : Bool) : List KeyboardRequest :=
  match s.resolve layoutName with
  | some group => if group = s.group api then [] else [.modifiers (s.actor.tracker.modifierState api)]
  | none => if taken then [.keymap s.actor.keymapData, .modifiers (s.actor.tracker.modifierState api)] else []

/-- What a report leads to. -/
structure Heard (api : XkbApi Xkb) (s t : LayoutFeedback Xkb) (taken : Bool) (layoutName : String) : Prop where
  events : s.events = layoutName :: t.events
  tracker : t.actor.tracker = s.actor.tracker
  keymapData : t.actor.keymapData = s.actor.keymapData
  device : t.device = s.device
  requests : t.requests = s.requests ++ s.echo api layoutName taken

theorem hear_heard {taken : Bool} (step : s.next api compositor (.hear taken) = some t) :
    ∃ layoutName, Heard api s t taken layoutName := by
  unfold next at step
  cases events : s.events with
  | nil =>
    rw [events] at step
    cases step
  | cons layoutName rest =>
    rw [events] at step
    obtain ⟨actor, moved, rfl⟩ := Option.map_eq_some_iff.mp step
    obtain ⟨_, handled⟩ := Option.ite_none_right_eq_some.mp moved
    have actorIs : actor = s.actor.handleOwnLayoutEvent api layoutName taken := (Option.some.inj handled).symm
    have tracker : actor.tracker = s.actor.tracker := by
      rw [actorIs]
      exact InputActor.handleOwnLayoutEvent_tracker _ _
    refine ⟨layoutName, events, tracker, ?_, rfl, ?_⟩
    · show actor.keymapData = s.actor.keymapData
      rw [actorIs]
      unfold InputActor.handleOwnLayoutEvent
      split
      · split <;> rfl
      · split <;> rfl
    · have state : (s.actor.handleCommand api (.setLockedLayout layoutName true taken)).tracker.modifierState api =
          s.actor.tracker.modifierState api :=
        congrArg (KeyboardStateTracker.modifierState api) (InputActor.handleOwnLayoutEvent_tracker layoutName taken)
      show s.requests ++ s.actor.announcements api (.setLockedLayout layoutName true taken) = _
      simp only [InputActor.announcements, state, if_true]
      rfl

theorem serve_served (documented : compositor.Documented api) {told : List String}
    (step : s.next api compositor (.serve told) = some t) :
    ∃ request, s.requests = request :: t.requests ∧ told.Sublist (s.device.reportAtMost api request) ∧
      t = { s with requests := t.requests, device := s.device.after request, events := s.events ++ told } := by
  unfold next at step
  cases requests : s.requests with
  | nil =>
    rw [requests] at step
    cases step
  | cons request rest =>
    rw [requests] at step
    obtain ⟨reports, same⟩ := Option.ite_none_right_eq_some.mp step
    cases same
    refine ⟨request, rfl, documented.sublist reports, ?_⟩
    rw [documented.takes]

theorem named_activeLayout {actor : InputActor Xkb} (named : actor.Named api) (group : Nat) :
    OwnDevice.activeLayout api ⟨actor.keymapData, group⟩ = actor.tracker.layoutNames[group]? := by
  obtain ⟨keymap, compiled, names⟩ := named
  rw [activeLayout, compiled, names]
  rfl

theorem resolve_name {layoutName : String} {group : Nat} (found : s.resolve layoutName = some group) :
    s.actor.tracker.layoutNames[group]? = some layoutName := by
  obtain ⟨bound, same, _⟩ := List.findIdx?_eq_some_iff_getElem.mp found
  rw [List.getElem?_eq_getElem bound, eq_of_beq same]

/-- The replica's group reaches a device that has the replica's keymap, or one that is reported as foreign. -/
theorem Steady.announced {actor : InputActor Xkb} {device : OwnDevice} {events : List String} {more : List KeyboardRequest}
    (named : actor.Named api) (groups : (device.settled more).group = actor.group api)
    (keymap : (device.settled more).keymapData = actor.keymapData ∨
      ∃ e ∈ events, actor.tracker.layoutIndexByName e = none) : Steady api ⟨actor, more, device, events⟩ where
  named := named
  caught _ := groups
  keymap := keymap
  layout := by
    refine keymap.imp (fun same => ?_) fun ⟨e, member, foreign⟩ => ⟨e, member, fun known => ?_⟩
    · have whole : device.settled more = ⟨actor.keymapData, actor.group api⟩ := by
        rw [← same, ← groups]
      rw [whole]
      exact named_activeLayout named _
    · cases foreign.symm.trans known

theorem Steady.told (old : s.Steady api) {actor : InputActor Xkb} {requests : List KeyboardRequest}
    (tells : InputActor.Tells api s.actor actor requests) :
    Steady api { s with actor, requests := s.requests ++ requests } := by
  have named : actor.Named api := tells.named old.named
  cases tells with
  | nothing same state _ =>
    have group : actor.group api = s.group api := congrArg KeyboardModifierState.group state
    have resolves : ∀ e, actor.tracker.layoutIndexByName e = s.resolve e := same.resolves
    rw [List.append_nil]
    refine ⟨named, fun some => (old.caught some).trans group.symm, ?_, ?_⟩
    · exact old.keymap.imp (fun kept => kept.trans same.data.symm)
        fun ⟨e, member, foreign⟩ => ⟨e, member, (resolves e).trans foreign⟩
    · show activeLayout api _ = actor.tracker.layoutNames[actor.group api]? ∨ ∃ e ∈ s.events, _ ≠ some (actor.group api)
      rw [group, same.names]
      exact old.layout.imp id fun ⟨e, member, other⟩ => ⟨e, member, fun known => other ((resolves e).symm.trans known)⟩
  | modifiers same _ =>
    have resolves : ∀ e, actor.tracker.layoutIndexByName e = s.resolve e := same.resolves
    refine .announced named ?_ ?_
    · rw [settled_append]
      rfl
    · rw [settled_append]
      exact old.keymap.imp (fun kept => kept.trans same.data.symm)
        fun ⟨e, member, foreign⟩ => ⟨e, member, (resolves e).trans foreign⟩
  | keymap _ _ =>
    refine .announced named ?_ (.inl ?_)
    · rw [settled_append]
      rfl
    · rw [settled_append]
      rfl

theorem Heard.resolves {taken : Bool} {layoutName : String} (heard : Heard api s t taken layoutName) : t.resolve = s.resolve := by
  funext e
  rw [resolve, resolve, heard.tracker]

theorem Heard.group {taken : Bool} {layoutName : String} (heard : Heard api s t taken layoutName) :
    t.group api = s.group api := by
  rw [LayoutFeedback.group, LayoutFeedback.group, InputActor.group, InputActor.group, heard.tracker]

theorem Steady.hear {layoutName : String} (old : s.Steady api) (heard : Heard api s t true layoutName) : t.Steady api := by
  have layouts : InputActor.SameLayouts s.actor t.actor := ⟨heard.keymapData, by rw [heard.tracker]⟩
  have named : t.actor.Named api := old.named.same layouts
  have group := heard.group
  have resolves : ∀ e, t.actor.tracker.layoutIndexByName e = s.resolve e := layouts.resolves
  have settled : t.device.settled t.requests = (s.device.settled s.requests).settled (s.echo api layoutName true) := by
    rw [heard.device, heard.requests]
    exact settled_append _ _
  cases known : s.resolve layoutName with
  | none =>
    rw [echo, known] at settled
    refine .announced named ?_ (.inl ?_)
    · rw [settled]
      exact group.symm
    · rw [settled]
      exact heard.keymapData.symm
  | some active =>
    -- a layout of ours is no evidence of another keymap
    have keymap : (s.device.settled s.requests).keymapData = t.actor.keymapData ∨
        ∃ e ∈ t.events, t.actor.tracker.layoutIndexByName e = none := by
      refine old.keymap.imp (fun kept => kept.trans heard.keymapData.symm) fun ⟨e, member, foreign⟩ => ?_
      rcases List.mem_cons.mp (heard.events ▸ member) with rfl | later
      · cases foreign.symm.trans known
      · exact ⟨e, later, (resolves e).trans foreign⟩
    by_cases same : active = s.group api
    · have requests : t.requests = s.requests := by
        rw [heard.requests, echo, known]
        exact (congrArg (s.requests ++ ·) (if_pos same)).trans (List.append_nil _)
      refine ⟨named, fun some => ?_, ?_, ?_⟩
      · rw [heard.device, requests, group]
        exact old.caught (requests ▸ some)
      · rw [heard.device, requests]
        exact keymap
      · rw [heard.device, requests, group, heard.tracker]
        refine old.layout.imp id fun ⟨e, member, other⟩ => ?_
        rcases List.mem_cons.mp (heard.events ▸ member) with rfl | later
        · exact absurd (known.trans (congrArg some same)) other
        · exact ⟨e, later, by rw [heard.resolves]; exact other⟩
    · have again : s.echo api layoutName true = [.modifiers (s.actor.tracker.modifierState api)] := by
        rw [echo, known]
        exact if_neg same
      rw [again] at settled
      refine .announced named ?_ ?_
      · rw [settled]
        exact group.symm
      · rw [settled]
        exact keymap

theorem Steady.serve (documented : compositor.Documented api) (old : s.Steady api) {told : List String}
    (step : s.next api compositor (.serve told) = some t) : t.Steady api := by
  obtain ⟨request, requests, _, same⟩ := serve_served documented step
  have settled : s.device.settled s.requests = (s.device.after request).settled t.requests := by
    rw [requests]
    rfl
  rw [same]
  refine ⟨old.named, fun some => ?_, ?_, ?_⟩
  · exact (congrArg OwnDevice.group settled).symm.trans (old.caught (by rw [requests]; exact List.cons_ne_nil _ _))
  · rw [← settled]
    exact old.keymap.imp id fun ⟨e, member, foreign⟩ => ⟨e, List.mem_append_left _ member, foreign⟩
  · rw [← settled]
    exact old.layout.imp id fun ⟨e, member, other⟩ => ⟨e, List.mem_append_left _ member, other⟩

/-- The requests on their way still hold when the compositor resets the device. -/
theorem Steady.reset (old : s.Steady api) {device : OwnDevice} {told : List String} (honest : s.Honest api (.reset device told)) :
    Steady api { s with device, events := s.events ++ told } := by
  obtain ⟨layoutName, isTold, active, origin⟩ := honest
  have reported : layoutName ∈ s.events ++ told := List.mem_append_right _ isTold
  have grown {p : String → Prop} : (∃ e ∈ s.events, p e) → ∃ e ∈ s.events ++ told, p e :=
    fun ⟨e, member, holds⟩ => ⟨e, List.mem_append_left _ member, holds⟩
  have keymap : (device.settled s.requests).keymapData = s.actor.keymapData ∨
      ∃ e ∈ s.events ++ told, s.resolve e = none := by
    rcases origin with kept | foreign
    · have same : (device.settled s.requests).keymapData = (s.device.settled s.requests).keymapData := by
        rcases settled_keymap s.device s.requests with same | ⟨one, other⟩
        · exact same
        · rw [one, other, kept]
      rw [same]
      exact old.keymap.imp id grown
    · exact .inr ⟨layoutName, reported, foreign⟩
  by_cases quiet : s.requests = []
  · refine ⟨old.named, fun some => absurd quiet some, keymap, ?_⟩
    rw [quiet]
    by_cases same : s.resolve layoutName = some (s.group api)
    · exact .inl (active.trans (resolve_name same).symm)
    · exact .inr ⟨layoutName, reported, same⟩
  · exact .announced old.named ((settled_group s.device quiet).trans (old.caught quiet)) keymap

theorem steady_inductive (documented : compositor.Documented api) :
    ((runs api compositor).guarded (Honest api)).Inductive (Steady api) where
  base s first := by
    obtain ⟨keymapData, keymap, device, compiled, rfl⟩ := first
    exact .announced ⟨keymap, compiled, rfl⟩ rfl (.inl rfl)
  keep s action t old step := by
    obtain ⟨honest, step⟩ := step
    cases action with
    | command command =>
      obtain ⟨_, obeyed⟩ := Option.ite_none_left_eq_some.mp step
      obtain ⟨actor, moved, rfl⟩ := Option.map_eq_some_iff.mp obeyed
      obtain ⟨_, handled⟩ := Option.ite_none_right_eq_some.mp moved
      cases handled
      exact old.told (InputActor.handleCommand_tells old.named command)
    | serve told => exact old.serve documented step
    | hear taken =>
      obtain ⟨layoutName, heard⟩ := hear_heard step
      have isTaken : taken = true := honest
      rw [isTaken] at heard
      exact old.hear heard
    | reset device told =>
      cases step
      exact old.reset honest

/-- A report of a layout of ours has at most the modifiers announced again, any other the keymap as well. -/
def weight (s : LayoutFeedback Xkb) (layoutName : String) : Nat := if (s.resolve layoutName).isSome then 2 else 7

def weigh (s : LayoutFeedback Xkb) (events : List String) : Nat := (events.map s.weight).sum

/-- What is left to be done before the two come to rest: to serve the requests and to hear the reports, those that the requests
will cause included. Modifiers announced to a device of another group cause one more. -/
def unrest (api : XkbApi Xkb) (s : LayoutFeedback Xkb) : Nat :=
  s.requests.length + s.weigh (s.events ++ s.device.reports api s.requests) +
    if (s.device.settled s.requests).group = s.group api then 0 else 7

theorem weigh_append (events more : List String) : s.weigh (events ++ more) = s.weigh events + s.weigh more := by
  rw [weigh, List.map_append, List.sum_append]
  rfl

theorem weigh_le {bound : Nat} (events : List String) (each : ∀ e ∈ events, s.weight e ≤ bound) :
    s.weigh events ≤ events.length * bound := by
  have sum := List.sum_le_card_nsmul (events.map s.weight) bound fun n member => by
    obtain ⟨e, listed, rfl⟩ := List.mem_map.mp member
    exact each e listed
  rw [List.length_map] at sum
  exact sum

theorem weight_le (layoutName : String) : s.weight layoutName ≤ 7 := by
  unfold weight
  split <;> omega

theorem weigh_sublist {events more : List String} (sub : events.Sublist more) : s.weigh events ≤ s.weigh more :=
  (sub.map s.weight).sum_le_sum fun _ _ => Nat.zero_le _

/-- The report of a layout that the replica's keymap has. -/
theorem weigh_ours (named : s.actor.Named api) (group : Nat) :
    s.weigh (OwnDevice.activeLayout api ⟨s.actor.keymapData, group⟩).toList ≤ 2 := by
  rw [named_activeLayout named]
  cases name : s.actor.tracker.layoutNames[group]? with
  | none => exact Nat.zero_le 2
  | some layoutName =>
    have listed : layoutName ∈ s.actor.tracker.layoutNames := List.mem_of_getElem? name
    have known : (s.resolve layoutName).isSome = true := by
      unfold resolve KeyboardStateTracker.layoutIndexByName
      rw [List.findIdx?_isSome]
      exact List.any_eq_true.mpr ⟨layoutName, listed, beq_self_eq_true _⟩
    show s.weight layoutName + 0 ≤ 2
    rw [weight, if_pos known]

theorem weigh_report (device : OwnDevice) (state : KeyboardModifierState) :
    s.weigh (device.reportAtMost api (.modifiers state)) ≤ if device.group = state.group then 0 else 7 := by
  simp only [reportAtMost]
  by_cases same : state.group = device.group
  · rw [if_pos same]
    exact Nat.zero_le _
  · rw [if_neg same, if_neg (Ne.symm same)]
    cases OwnDevice.activeLayout api { device with group := state.group } with
    | none => exact Nat.zero_le 7
    | some layoutName => exact weight_le layoutName

/-- The bound on what is left, by the messages on their way. -/
theorem unrest_le : s.unrest api ≤ 8 * (s.requests.length + s.events.length) + 7 := by
  have reports : (s.device.reports api s.requests).length ≤ s.requests.length := reports_length _
  have weighs := s.weigh_le (s.events ++ s.device.reports api s.requests) fun e _ => weight_le e
  rw [List.length_append] at weighs
  unfold unrest
  split <;> omega

theorem serve_spends (documented : compositor.Documented api) {told : List String}
    (step : s.next api compositor (.serve told) = some t) : t.actor = s.actor ∧ t.unrest api < s.unrest api := by
  obtain ⟨request, requests, within, same⟩ := serve_served documented step
  have actor : t.actor = s.actor := by rw [same]
  have weighs : t.weigh = s.weigh := by
    funext events
    rw [weigh, weigh]
    congr 2
    funext e
    rw [weight, weight, resolve, resolve, actor]
  have lighter : s.weigh told ≤ s.weigh (s.device.reportAtMost api request) := weigh_sublist within
  have events : t.events = s.events ++ told := by rw [same]
  have device : t.device = s.device.after request := by rw [same]
  have group : t.group api = s.group api := by rw [LayoutFeedback.group, actor]; rfl
  have settled : s.device.settled s.requests = (s.device.after request).settled t.requests := by
    rw [requests]
    rfl
  have left : s.device.reports api s.requests =
      s.device.reportAtMost api request ++ (s.device.after request).reports api t.requests := by
    rw [requests]
    rfl
  have shorter : s.requests.length = t.requests.length + 1 := by
    rw [requests]
    rfl
  refine ⟨actor, ?_⟩
  unfold unrest
  rw [weighs, events, device, group, settled, left, shorter]
  simp only [weigh_append]
  omega

/-- To announce again costs less than the report that it answers. -/
theorem echo_costs (named : s.actor.Named api) (layoutName : String) (device : OwnDevice) :
    (s.echo api layoutName true).length + s.weigh (device.reports api (s.echo api layoutName true)) +
        (if (device.settled (s.echo api layoutName true)).group = s.group api then 0 else 7) <
      s.weight layoutName + if device.group = s.group api then 0 else 7 := by
  let keymap : KeyboardRequest := .keymap s.actor.keymapData
  let modifiers : KeyboardRequest := .modifiers (s.actor.tracker.modifierState api)
  cases known : s.resolve layoutName with
  | none =>
    have again : s.echo api layoutName true = [keymap, modifiers] := by
      rw [echo, known]
      rfl
    have heavy : s.weight layoutName = 7 := by
      rw [weight, known]
      rfl
    have first : s.weigh (device.reportAtMost api keymap) ≤ 2 := weigh_ours named 0
    have second : s.weigh ((device.after keymap).reportAtMost api modifiers) ≤ 2 := by
      simp only [reportAtMost, modifiers]
      split
      · exact Nat.zero_le 2
      · exact weigh_ours named _
    have reached : (device.settled [keymap, modifiers]).group = s.group api := rfl
    rw [again, if_pos reached, heavy]
    simp only [reports, weigh_append, List.length_cons, List.length_nil, List.append_nil]
    omega
  | some active =>
    have light : s.weight layoutName = 2 := by
      rw [weight, known]
      rfl
    by_cases same : active = s.group api
    · have silent : s.echo api layoutName true = [] := by
        rw [echo, known]
        exact if_pos same
      rw [silent, light]
      show 0 + 0 + (if device.group = s.group api then 0 else 7) < _
      omega
    · have again : s.echo api layoutName true = [modifiers] := by
        rw [echo, known]
        exact if_neg same
      have reported : s.weigh (device.reportAtMost api modifiers) ≤ if device.group = s.group api then 0 else 7 :=
        weigh_report device _
      have reached : (device.settled [modifiers]).group = s.group api := rfl
      rw [again, if_pos reached, light]
      simp only [reports, List.length_cons, List.length_nil, List.append_nil]
      omega

theorem hear_spends (named : s.actor.Named api) (step : s.next api compositor (.hear true) = some t) :
    t.actor.Named api ∧ t.unrest api < s.unrest api := by
  obtain ⟨layoutName, heard⟩ := hear_heard step
  have layouts : InputActor.SameLayouts s.actor t.actor := ⟨heard.keymapData, by rw [heard.tracker]⟩
  have weighs : t.weigh = s.weigh := by
    funext events
    rw [weigh, weigh]
    congr 2
    funext e
    rw [weight, weight, heard.resolves]
  have before : s.weigh s.events = s.weight layoutName + s.weigh t.events := by
    rw [heard.events]
    rfl
  have costs := echo_costs named layoutName (s.device.settled s.requests)
  refine ⟨named.same layouts, ?_⟩
  unfold unrest
  rw [weighs, heard.device, heard.requests, heard.group, reports_append, settled_append, List.length_append]
  simp only [weigh_append, before]
  omega

theorem answers_spend (documented : compositor.Documented api) {action : FeedbackAction} (named : s.actor.Named api)
    (answers : action.Answers) (step : s.next api compositor action = some t) : t.actor.Named api ∧ t.unrest api < s.unrest api := by
  cases action with
  | command command => cases answers
  | serve told =>
    obtain ⟨actor, spent⟩ := serve_spends documented step
    exact ⟨actor ▸ named, spent⟩
  | hear taken =>
    cases taken with
    | false => cases answers
    | true => exact hear_spends named step
  | reset device told => cases answers

theorem answers_honest {action : FeedbackAction} (answers : action.Answers) : s.Honest api action := by
  cases action with
  | command command => trivial
  | serve told => trivial
  | hear taken =>
    cases taken with
    | false => cases answers
    | true => exact rfl
  | reset device told => cases answers

/-- What is heard and served leaves the replica alone. -/
theorem answers_replica (documented : compositor.Documented api) {action : FeedbackAction} (answers : action.Answers)
    (step : s.next api compositor action = some t) : t.actor.tracker = s.actor.tracker ∧ t.actor.keymapData = s.actor.keymapData := by
  cases action with
  | command command => cases answers
  | serve told =>
    obtain ⟨actor, _⟩ := serve_spends documented step
    rw [actor]
    exact ⟨rfl, rfl⟩
  | hear taken =>
    obtain ⟨_, heard⟩ := hear_heard step
    exact ⟨heard.tracker, heard.keymapData⟩
  | reset device told => cases answers

/-- While something is on its way and the actor runs, it can be answered. -/
theorem answers_progress (documented : compositor.Documented api) (running : s.actor.running = true)
    (moving : s.requests ≠ [] ∨ s.events ≠ []) : ∃ action t, action.Answers ∧ s.next api compositor action = some t := by
  rcases moving with requests | events
  · obtain ⟨request, rest, isRequest⟩ := List.exists_cons_of_ne_nil requests
    obtain ⟨reported, serves⟩ := documented.serves s.device request
    refine ⟨.serve reported, ?_⟩
    unfold next
    rw [isRequest]
    exact ⟨_, trivial, if_pos serves⟩
  · obtain ⟨layoutName, rest, isEvent⟩ := List.exists_cons_of_ne_nil events
    have heard : s.next api compositor (.hear true) = { s with events := rest }.obeys api (.setLockedLayout layoutName true true) := by
      unfold next
      rw [isEvent]
    rw [obeys, InputActor.next, if_pos running] at heard
    exact ⟨.hear true, _, trivial, heard⟩

/-- However the compositor has reset our virtual keyboard in the meantime, and whatever is still on its way between the two: once
nothing disturbs them any more the actor and the compositor come to rest after a bounded number of steps, with the
replica as it was and the device on the replica's keymap and layout. -/
theorem own_layout_settles (documented : compositor.Documented api) (reach : ((runs api compositor).guarded (Honest api)).Reach s)
    {answers : List FeedbackAction} (only : ∀ action ∈ answers, action.Answers)
    (run : StepSystem.exec (next api compositor) s answers = some t) :
    answers.length ≤ 8 * (s.requests.length + s.events.length) + 7 ∧
      (t.actor.tracker = s.actor.tracker ∧ t.actor.keymapData = s.actor.keymapData) ∧
      (t.requests = [] → t.events = [] → t.device.keymapData = s.actor.keymapData ∧
        t.device.activeLayout api = s.actor.tracker.layoutNames[s.actor.group api]?) ∧
      (t.actor.running = true → t.requests ≠ [] ∨ t.events ≠ [] →
        ∃ action u, action.Answers ∧ t.next api compositor action = some u) := by
  let inv (u : LayoutFeedback Xkb) : Prop :=
    u.Steady api ∧ u.actor.tracker = s.actor.tracker ∧ u.actor.keymapData = s.actor.keymapData
  have spends : ∀ u action v, inv u → action.Answers → u.next api compositor action = some v →
      inv v ∧ v.unrest api < u.unrest api := by
    intro u action v ⟨steady, tracker, keymapData⟩ answers step
    obtain ⟨sameTracker, sameKeymap⟩ := answers_replica documented answers step
    exact ⟨⟨(steady_inductive documented).keep u action v steady ⟨answers_honest answers, step⟩, sameTracker.trans tracker,
      sameKeymap.trans keymapData⟩, (answers_spend documented steady.named answers step).2⟩
  obtain ⟨⟨steady, tracker, keymapData⟩, bound⟩ :=
    StepSystem.exec_bounded spends ⟨(steady_inductive documented).reach reach, rfl, rfl⟩ only run
  have few : s.unrest api ≤ 8 * (s.requests.length + s.events.length) + 7 := unrest_le
  refine ⟨by omega, ⟨tracker, keymapData⟩, fun served heard => ?_, answers_progress documented⟩
  have silent {p : String → Prop} : ¬ ∃ e ∈ t.events, p e := by
    rw [heard]
    rintro ⟨e, member, _⟩
    cases member
  have group : t.group api = s.actor.group api := by
    rw [LayoutFeedback.group, InputActor.group, InputActor.group, tracker]
  have keymap := steady.keymap.resolve_right silent
  have layout := steady.layout.resolve_right silent
  rw [served] at keymap layout
  rw [tracker, group] at layout
  exact ⟨keymap.trans keymapData, layout⟩

/-- A compositor that reports every change of the group, and an upload as it likes. -/
def groupReporter : KeyboardCompositor where
  takes d
    | .keymap keymapData => ⟨keymapData, 0⟩
    | .modifiers state => { d with group := state.group }
  reports d
    | .keymap keymapData, reported => reported = [] ∨ reported = (OwnDevice.activeLayout layoutKeyboard ⟨keymapData, 0⟩).toList
    | .modifiers state, reported => reported =
        if state.group = d.group then [] else (OwnDevice.activeLayout layoutKeyboard { d with group := state.group }).toList

theorem groupReporter_documented : groupReporter.Documented layoutKeyboard where
  upload _ _ := rfl
  group _ _ := rfl
  serves d request := by
    cases request with
    | keymap keymapData =>
      refine ⟨[], ?_⟩
      simp [groupReporter]
    | modifiers state => exact ⟨_, decide_eq_true rfl⟩
  reported d request reported told := by
    cases request with
    | keymap keymapData =>
      rcases of_decide_eq_true told with rfl | rfl
      · exact List.nil_sublist _
      · exact List.Sublist.refl _
    | modifiers state =>
      rw [of_decide_eq_true told]
      split
      · exact List.nil_sublist _
      · exact List.Sublist.refl _
  silent d state reported told same := (of_decide_eq_true told).trans (if_pos same)

/-- The desk's keyboard is switched, and the compositor resets ours before it has heard of it. -/
def disturbance : List FeedbackAction :=
  [.serve ["English (US)"], .serve [], .hear true, .command (.setLockedLayout "German" false true),
    .reset ⟨[], 0⟩ ["English (US)"]]

theorem own_layout_settles_reset : ∃ s t,
    StepSystem.exec (next layoutKeyboard groupReporter) (start layoutKeyboard [] twoLayouts ⟨[1], 0⟩) disturbance = some s ∧
    StepSystem.exec (next layoutKeyboard groupReporter) s [.hear true, .serve ["German"], .serve [], .hear true] = some t ∧
      t.device.activeLayout layoutKeyboard = some "German" := by
  let after (steps : Nat) : LayoutFeedback Nat :=
    (StepSystem.exec (next layoutKeyboard groupReporter) (start layoutKeyboard [] twoLayouts ⟨[1], 0⟩)
      (disturbance.take steps)).getD (start layoutKeyboard [] twoLayouts ⟨[1], 0⟩)
  have zero : ((runs layoutKeyboard groupReporter).guarded (Honest layoutKeyboard)).Reach (after 0) :=
    .start ⟨[], twoLayouts, ⟨[1], 0⟩, rfl, rfl⟩
  have one : ((runs layoutKeyboard groupReporter).guarded (Honest layoutKeyboard)).Reach (after 1) :=
    .next (a := .serve ["English (US)"]) zero ⟨trivial, rfl⟩
  have two : ((runs layoutKeyboard groupReporter).guarded (Honest layoutKeyboard)).Reach (after 2) :=
    .next (a := .serve []) one ⟨trivial, rfl⟩
  have three : ((runs layoutKeyboard groupReporter).guarded (Honest layoutKeyboard)).Reach (after 3) :=
    .next (a := .hear true) two ⟨rfl, rfl⟩
  have four : ((runs layoutKeyboard groupReporter).guarded (Honest layoutKeyboard)).Reach (after 4) :=
    .next (a := .command (.setLockedLayout "German" false true)) three ⟨trivial, rfl⟩
  have five : ((runs layoutKeyboard groupReporter).guarded (Honest layoutKeyboard)).Reach (after 5) :=
    .next (a := .reset ⟨[], 0⟩ ["English (US)"]) four ⟨⟨"English (US)", List.mem_cons_self, rfl, .inl rfl⟩, rfl⟩
  let answers : List FeedbackAction := [.hear true, .serve ["German"], .serve [], .hear true]
  let last : LayoutFeedback Nat := (StepSystem.exec (next layoutKeyboard groupReporter) (after 5) answers).getD (after 5)
  have only : ∀ action ∈ answers, action.Answers := by simp [answers, FeedbackAction.Answers]
  have run : StepSystem.exec (next layoutKeyboard groupReporter) (after 5) answers = some last := rfl
  have settles := own_layout_settles groupReporter_documented five only run
  refine ⟨after 5, last, rfl, rfl, ?_⟩
  rw [(settles.2.2.1 rfl rfl).2]
  rfl

end LayoutFeedback

end HyprRdp
