import HyprRdp.Audio.Routing
import Mathlib.Data.List.Nodup

namespace HyprRdp

namespace SoundServer

variable {s t : SoundServer} {inputId sinkId : Nat} {sink : Sink}

theorem found_input {route : SinkInputRoute} {routes : List SinkInputRoute}
    (found : routes.find? (fun route => route.inputId = inputId) = some route) : route.inputId = inputId := by
  have isIt := List.find?_some found
  exact of_decide_eq_true isIt

theorem sinkOf_mem (plays : s.sinkOf inputId = some sinkId) : ⟨inputId, sinkId⟩ ∈ s.sinkInputs := by
  obtain ⟨route, found, rfl⟩ := Option.map_eq_some_iff.mp plays
  have member := List.mem_of_find?_eq_some found
  obtain rfl : route.inputId = inputId := found_input found
  exact member

theorem Sound.sinkOf_eq (sound : s.Sound) {route : SinkInputRoute} (member : route ∈ s.sinkInputs) :
    s.sinkOf route.inputId = some route.sinkId := by
  unfold sinkOf
  cases found : s.sinkInputs.find? fun other => other.inputId = route.inputId with
  | none => exact absurd rfl (of_decide_eq_false (Bool.eq_false_iff.mpr (List.find?_eq_none.mp found route member)))
  | some other =>
    have same : other.inputId = route.inputId := found_input found
    rw [List.inj_on_of_nodup_map sound.inputs (List.mem_of_find?_eq_some found) member same]
    rfl

theorem put_sinkOf (s : SoundServer) (inputId sinkId other : Nat) :
    (s.put inputId sinkId).sinkOf other = if other = inputId then (s.sinkOf other).map fun _ => sinkId else s.sinkOf other := by
  unfold sinkOf put
  dsimp only
  have sameIds : (fun route : SinkInputRoute => decide (route.inputId = other)) ∘
      (fun route : SinkInputRoute => if route.inputId = inputId then ⟨inputId, sinkId⟩ else route) =
      fun route => decide (route.inputId = other) := by
    funext route
    by_cases here : route.inputId = inputId
    · simp [here]
    · simp [here]
  rw [List.find?_map, sameIds]
  cases found : s.sinkInputs.find? fun route => route.inputId = other with
  | none => simp
  | some route =>
    have same : route.inputId = other := found_input found
    by_cases here : other = inputId
    · simp [same, here]
    · simp [same, here]

theorem move_eq_some {target : SinkTarget} :
    s.move inputId target = some t ↔ ∃ sink, s.resolve target = some sink ∧ s.sinkOf inputId ≠ none ∧ t = s.put inputId sink.id := by
  unfold move
  cases s.resolve target with
  | none => simp
  | some sink =>
    by_cases gone : s.sinkOf inputId = none
    · simp [gone]
    · simp [gone, eq_comm]

theorem resolve_mem {target : SinkTarget} (found : s.resolve target = some sink) : sink ∈ s.sinks := by
  cases target with
  | id => exact List.mem_of_find?_eq_some found
  | name => exact List.mem_of_find?_eq_some found

theorem resolve_name {name : String} (found : s.resolve (.name name) = some sink) : sink.name = name := by
  have named := List.find?_some found
  exact of_decide_eq_true named

theorem resolve_id (found : s.resolve (.id sinkId) = some sink) : sink.id = sinkId := by
  have isId := List.find?_some found
  exact of_decide_eq_true isId

theorem resolve_id_none (gone : s.resolve (.id sinkId) = none) : ¬ s.HasSink sinkId := by
  intro has
  obtain ⟨sink, member, same⟩ := List.mem_map.mp has
  exact List.find?_eq_none.mp gone sink member (decide_eq_true same)

theorem put_sound (sound : s.Sound) (known : sinkId < s.nextId) : (s.put inputId sinkId).Sound where
  inputs := by
    have ids : (s.put inputId sinkId).sinkInputs.map (·.inputId) = s.sinkInputs.map (·.inputId) := by
      unfold put
      dsimp only
      rw [List.map_map]
      refine List.map_congr_left fun route _ => ?_
      by_cases here : route.inputId = inputId
      · simp [here]
      · simp [here]
    rw [ids]
    exact sound.inputs
  ids := sound.ids
  names := sound.names
  sinkIds := sound.sinkIds
  owners := sound.owners
  routes := by
    intro route member
    obtain ⟨old, known_old, rfl⟩ := List.mem_map.mp member
    split
    · exact known
    · exact sound.routes old known_old

theorem load_sound {sinkName : String} (sound : s.Sound) (loaded : s.loadNullSink sinkName = some t) : t.Sound := by
  obtain ⟨fresh, same⟩ := Option.ite_none_left_eq_some.mp loaded
  cases same
  refine ⟨sound.inputs, ?_, ?_, ?_, ?_, fun route member => ?_⟩
  · refine List.nodup_cons.mpr ⟨fun member => ?_, sound.ids⟩
    obtain ⟨sink, member, same⟩ := List.mem_map.mp member
    have known := sound.sinkIds sink member
    have same : sink.id = s.nextId + 1 := same
    omega
  · exact List.nodup_cons.mpr ⟨fresh, sound.names⟩
  · intro sink member
    rcases List.mem_cons.mp member with rfl | member
    · exact Nat.lt_succ_self _
    · exact Nat.lt_add_right 2 (sound.sinkIds sink member)
  · intro sink member owner owns
    rcases List.mem_cons.mp member with rfl | member
    · cases owns
      exact Nat.lt_add_of_pos_right Nat.two_pos
    · exact Nat.lt_add_right 2 (sound.owners sink member owner owns)
  · exact Nat.lt_add_right 2 (sound.routes route member)

theorem after_sound (sound : s.Sound) (command : RouteCommand) : (after command s).Sound := by
  cases command with
  | getDefaultSink | listSinks | listSinkInputs | listModules => exact sound
  | setDefaultSink => exact ⟨sound.inputs, sound.ids, sound.names, sound.sinkIds, sound.owners, sound.routes⟩
  | loadNullSink sinkName =>
    show ((s.loadNullSink sinkName).getD s).Sound
    cases loaded : s.loadNullSink sinkName with
    | none => exact sound
    | some t => exact load_sound sound loaded
  | unloadModule moduleId =>
    have fewer : (s.unloadModule moduleId).sinks.Sublist s.sinks := List.filter_sublist
    exact ⟨sound.inputs, sound.ids.sublist (fewer.map _), sound.names.sublist (fewer.map _),
      fun sink member => sound.sinkIds sink (fewer.subset member), fun sink member => sound.owners sink (fewer.subset member),
      sound.routes⟩
  | moveSinkInput inputId target =>
    show ((s.move inputId target).getD s).Sound
    cases moved : s.move inputId target with
    | none => exact sound
    | some t =>
      obtain ⟨sink, found, _, rfl⟩ := move_eq_some.mp moved
      exact put_sound sound (sound.sinkIds sink (resolve_mem found))

theorem after_grows (command : RouteCommand) : s.nextId ≤ (after command s).nextId := by
  cases command with
  | getDefaultSink | listSinks | listSinkInputs | listModules | setDefaultSink | unloadModule => exact Nat.le_refl _
  | loadNullSink sinkName =>
    show s.nextId ≤ ((s.loadNullSink sinkName).getD s).nextId
    cases loaded : s.loadNullSink sinkName with
    | none => exact Nat.le_refl _
    | some t =>
      obtain ⟨_, same⟩ := Option.ite_none_left_eq_some.mp loaded
      cases same
      exact Nat.le_add_right _ 2
  | moveSinkInput inputId target =>
    show s.nextId ≤ ((s.move inputId target).getD s).nextId
    cases moved : s.move inputId target with
    | none => exact Nat.le_refl _
    | some t =>
      obtain ⟨_, _, _, rfl⟩ := move_eq_some.mp moved
      exact Nat.le_refl _

/-- A sink that is there after a command was there before, or it is the one that was loaded. -/
theorem after_sinks {command : RouteCommand} (member : sink ∈ (after command s).sinks) :
    sink ∈ s.sinks ∨ (s.nextId ≤ sink.id ∧ ∀ owner ∈ sink.owner, s.nextId ≤ owner) := by
  cases command with
  | getDefaultSink | listSinks | listSinkInputs | listModules | setDefaultSink => exact .inl member
  | unloadModule => exact .inl (List.mem_filter.mp member).1
  | loadNullSink sinkName =>
    replace member : sink ∈ ((s.loadNullSink sinkName).getD s).sinks := member
    cases loaded : s.loadNullSink sinkName with
    | none =>
      rw [loaded] at member
      exact .inl member
    | some t =>
      rw [loaded] at member
      obtain ⟨_, same⟩ := Option.ite_none_left_eq_some.mp loaded
      cases same
      rcases List.mem_cons.mp member with rfl | member
      · refine .inr ⟨Nat.le_succ _, fun owner isOwner => ?_⟩
        cases isOwner
        exact Nat.le_refl _
      · exact .inl member
  | moveSinkInput inputId target =>
    replace member : sink ∈ ((s.move inputId target).getD s).sinks := member
    cases moved : s.move inputId target with
    | none =>
      rw [moved] at member
      exact .inl member
    | some t =>
      rw [moved] at member
      obtain ⟨_, _, _, rfl⟩ := move_eq_some.mp moved
      exact .inl member

end SoundServer

open SoundServer

namespace RouteEvent

variable {e : RouteEvent} {inputId sinkId : Nat} {sink : Sink}

theorem sound_kept (acts : service.Sound e) (sound : e.before.Sound) : e.after.Sound := by
  cases e with
  | own command before after =>
    cases acts
    exact after_sound sound command
  | others before after =>
    have acts : Others before after := acts
    exact acts.sound

theorem grows (acts : service.Sound e) : e.before.nextId ≤ e.after.nextId := by
  cases e with
  | own command before after =>
    cases acts
    exact after_grows command
  | others before after =>
    have acts : Others before after := acts
    exact acts.grows

theorem sinks_known (acts : service.Sound e) (member : sink ∈ e.after.sinks) :
    sink ∈ e.before.sinks ∨ (e.before.nextId ≤ sink.id ∧ ∀ owner ∈ sink.owner, e.before.nextId ≤ owner) := by
  cases e with
  | own command before after =>
    cases acts
    exact after_sinks member
  | others before after =>
    have acts : Others before after := acts
    exact acts.sinks sink member

end RouteEvent

/-- A sink that has gone does not come back. -/
def SoundServer.Gone (s : SoundServer) (sinkId : Nat) : Prop := sinkId < s.nextId ∧ ¬ s.HasSink sinkId

theorem RouteEvent.gone_kept {e : RouteEvent} {sinkId : Nat} (acts : service.Sound e) (gone : e.before.Gone sinkId) :
    e.after.Gone sinkId := by
  refine ⟨Nat.lt_of_lt_of_le gone.1 (grows acts), fun has => ?_⟩
  obtain ⟨sink, member, same⟩ := List.mem_map.mp has
  rcases sinks_known acts member with old | ⟨new, _⟩
  · exact gone.2 (List.mem_map.mpr ⟨sink, old, same⟩)
  · have same : sink.id = sinkId := same
    have old := gone.1
    omega

/-- The stream is on a sink that is there. -/
def SoundServer.PlaysTo (s : SoundServer) (inputId : Nat) (sink : Sink) : Prop :=
  sink ∈ s.sinks ∧ s.sinkOf inputId = some sink.id

namespace RouteEvent

variable {e : RouteEvent} {inputId moduleId : Nat} {sink : Sink}

/-- The stream is left where it is. -/
def Spares (inputId : Nat) : RouteEvent → Prop
  | .own (.moveSinkInput other _) _ _ => other ≠ inputId
  | .own _ _ _ => True
  | .others before after => before.sinkOf inputId ≠ none → after.sinkOf inputId = before.sinkOf inputId

instance (inputId : Nat) (e : RouteEvent) : Decidable (Spares inputId e) :=
  match e with
  | .own (.moveSinkInput other _) _ _ => inferInstanceAs (Decidable (other ≠ inputId))
  | .own .getDefaultSink _ _ | .own (.setDefaultSink _) _ _ | .own .listSinks _ _ | .own .listSinkInputs _ _
  | .own .listModules _ _ | .own (.loadNullSink _) _ _ | .own (.unloadModule _) _ _ => inferInstanceAs (Decidable True)
  | .others before after => inferInstanceAs (Decidable (before.sinkOf inputId ≠ none → after.sinkOf inputId = before.sinkOf inputId))

def Unloads (moduleId : Nat) : RouteEvent → Prop
  | .own command _ _ => command = .unloadModule moduleId
  | .others _ _ => False

instance (moduleId : Nat) (e : RouteEvent) : Decidable (Unloads moduleId e) :=
  match e with
  | .own command _ _ => inferInstanceAs (Decidable (command = _))
  | .others _ _ => inferInstanceAs (Decidable False)

theorem others_plays {s t : SoundServer} (acts : Others s t) (sound : s.Sound) (plays : s.PlaysTo inputId sink)
    (same : t.sinkOf inputId = s.sinkOf inputId) : t.PlaysTo inputId sink := by
  have there : t.sinkOf inputId = some sink.id := same.trans plays.2
  refine ⟨?_, there⟩
  rcases acts.placed _ (sinkOf_mem there) with has | ⟨_, gone⟩
  · obtain ⟨other, member, sameId⟩ := List.mem_map.mp has
    have sameId : other.id = sink.id := sameId
    rcases acts.sinks other member with old | ⟨new, _⟩
    · exact List.inj_on_of_nodup_map sound.ids old plays.1 sameId ▸ member
    · have known := sound.sinkIds sink plays.1
      omega
  · exact absurd (List.mem_map_of_mem plays.1) gone

theorem plays_kept (acts : service.Sound e) (sound : e.before.Sound) (plays : e.before.PlaysTo inputId sink)
    (spared : Spares inputId e) (stays : ∀ owner ∈ sink.owner, ¬ Unloads owner e) : e.after.PlaysTo inputId sink := by
  cases e with
  | others s t =>
    have plays : s.PlaysTo inputId sink := plays
    exact others_plays acts sound plays (spared (plays.2 ▸ Option.some_ne_none _))
  | own command s t =>
    cases acts
    cases command with
    | getDefaultSink | listSinks | listSinkInputs | listModules | setDefaultSink => exact plays
    | unloadModule moduleId =>
      refine ⟨List.mem_filter.mpr ⟨plays.1, decide_eq_true fun owned => ?_⟩, plays.2⟩
      exact stays moduleId owned rfl
    | loadNullSink sinkName =>
      show ((s.loadNullSink sinkName).getD s).PlaysTo inputId sink
      cases loaded : s.loadNullSink sinkName with
      | none => exact plays
      | some t =>
        obtain ⟨_, same⟩ := Option.ite_none_left_eq_some.mp loaded
        cases same
        exact ⟨List.mem_cons_of_mem _ plays.1, plays.2⟩
    | moveSinkInput other target =>
      show ((s.move other target).getD s).PlaysTo inputId sink
      cases moved : s.move other target with
      | none => exact plays
      | some t =>
        obtain ⟨target, _, _, rfl⟩ := move_eq_some.mp moved
        refine ⟨plays.1, ?_⟩
        show (s.put other target.id).sinkOf inputId = some sink.id
        rw [put_sinkOf, if_neg (Ne.symm spared)]
        exact plays.2

end RouteEvent

/-- The remote sink, as long as its module is loaded: nothing else is known by its id or belongs to its module, and
nothing plays to it when it is not there. -/
structure SoundServer.Remote (remote : Sink) (moduleId : Nat) (s : SoundServer) : Prop where
  sound : s.Sound
  known : moduleId < s.nextId ∧ remote.id < s.nextId
  owner : remote.owner = some moduleId
  alone : ∀ sink ∈ s.sinks, sink.id = remote.id ∨ sink.owner = some moduleId → sink = remote
  seated : ∀ route ∈ s.sinkInputs, route.sinkId = remote.id → s.HasSink remote.id

namespace SoundServer.Remote

variable {remote sink : Sink} {moduleId inputId : Nat} {s t : SoundServer}

theorem command {command : RouteCommand} (r : s.Remote remote moduleId) (loaded : command ≠ .unloadModule moduleId) :
    (after command s).Remote remote moduleId := by
  have grows : s.nextId ≤ (after command s).nextId := after_grows command
  have bounds := r.known
  refine ⟨after_sound r.sound command, ⟨by omega, by omega⟩, r.owner, fun sink member which => ?_, ?_⟩
  · rcases after_sinks member with old | ⟨newId, newOwner⟩
    · exact r.alone sink old which
    · rcases which with same | same
      · omega
      · have new := newOwner moduleId same
        omega
  · cases command with
    | getDefaultSink | listSinks | listSinkInputs | listModules | setDefaultSink => exact r.seated
    | unloadModule other =>
      intro route member same
      obtain ⟨sink, there, isIt⟩ := List.mem_map.mp (r.seated route member same)
      refine List.mem_map.mpr ⟨sink, List.mem_filter.mpr ⟨there, decide_eq_true fun owned => ?_⟩, isIt⟩
      have isRemote := r.alone sink there (.inl isIt)
      rw [isRemote, r.owner] at owned
      exact loaded (congrArg RouteCommand.unloadModule (Option.some.inj owned).symm)
    | loadNullSink sinkName =>
      show ∀ route ∈ ((s.loadNullSink sinkName).getD s).sinkInputs, route.sinkId = remote.id →
        ((s.loadNullSink sinkName).getD s).HasSink remote.id
      cases added : s.loadNullSink sinkName with
      | none => exact r.seated
      | some t =>
        obtain ⟨_, same⟩ := Option.ite_none_left_eq_some.mp added
        cases same
        intro route member same
        exact List.mem_cons_of_mem _ (r.seated route member same)
    | moveSinkInput other target =>
      show ∀ route ∈ ((s.move other target).getD s).sinkInputs, route.sinkId = remote.id →
        ((s.move other target).getD s).HasSink remote.id
      cases moved : s.move other target with
      | none => exact r.seated
      | some t =>
        obtain ⟨there, found, _, rfl⟩ := move_eq_some.mp moved
        intro route member same
        obtain ⟨old, isOld, rfl⟩ := List.mem_map.mp member
        split at same
        · exact List.mem_map.mpr ⟨there, resolve_mem found, same⟩
        · exact r.seated old isOld same

theorem others (r : s.Remote remote moduleId) (acts : Others s t) : t.Remote remote moduleId := by
  have grows := acts.grows
  have bounds := r.known
  refine ⟨acts.sound, ⟨by omega, by omega⟩, r.owner, fun sink member which => ?_, fun route member same => ?_⟩
  · rcases acts.sinks sink member with old | ⟨newId, newOwner⟩
    · exact r.alone sink old which
    · rcases which with same | same
      · omega
      · have new := newOwner moduleId same
        omega
  · rcases acts.placed route member with has | ⟨old, gone⟩
    · exact same ▸ has
    · rw [same] at gone
      exact absurd (r.seated route old same) gone

theorem event {e : RouteEvent} (acts : service.Sound e) (r : e.before.Remote remote moduleId)
    (loaded : ¬ RouteEvent.Unloads moduleId e) : e.after.Remote remote moduleId := by
  cases e with
  | own command s t =>
    cases acts
    exact r.command loaded
  | others s t => exact r.others acts

end SoundServer.Remote

end HyprRdp
