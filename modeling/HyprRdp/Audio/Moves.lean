import HyprRdp.Audio.Streams

namespace HyprRdp

open Script SoundServer RouteEvent ServiceEvent Service

variable {α : Type} {s u : SoundServer} {trace : List RouteEvent} {moved : List SinkInputRoute} {fallback : Option String}
  {inputId : Nat}

def RouteEvent.Quiet (trace : List RouteEvent) : Prop := ∀ e ∈ trace, ∃ a b, e = .others a b ∧ Others a b

theorem RouteEvent.Quiet.append {more : List RouteEvent} (quiet : Quiet trace) (also : Quiet more) : Quiet (trace ++ more) :=
  fun e member => (List.mem_append.mp member).elim (quiet e) (also e)

/-- Of the commands only moves of this stream. -/
def RouteEvent.MovesOnly (inputId : Nat) (e : RouteEvent) : Prop :=
  ∀ command a b, e = .own command a b → ∃ target, command = .moveSinkInput inputId target

theorem RouteEvent.Quiet.movesOnly {e : RouteEvent} (quiet : Quiet trace) (member : e ∈ trace) : MovesOnly inputId e := by
  intro command a b same
  obtain ⟨_, _, rfl, _⟩ := quiet e member
  cases same

theorem linked_grows {t : SoundServer} (linked : Linked s trace t) (acts : ∀ e ∈ trace, service.Sound e) :
    s.nextId ≤ t.nextId := by
  have grown : ∀ e ∈ trace, s.nextId ≤ e.before.nextId → s.nextId ≤ e.after.nextId :=
    fun e member known => Nat.le_trans known (grows (acts e member))
  exact @Linked.keeps _ _ _ _ _ (fun x => s.nextId ≤ x.nextId) linked grown (Nat.le_refl _)

theorem linked_gone {t : SoundServer} {sinkId : Nat} (linked : Linked s trace t) (acts : ∀ e ∈ trace, service.Sound e)
    (gone : s.Gone sinkId) : t.Gone sinkId :=
  @Linked.keeps _ _ _ _ _ (fun x => x.Gone sinkId) linked (fun e member => gone_kept (acts e member)) gone

theorem moveSinkInput_run {target : SinkTarget} {next : Bool → RouteScript α} {value : α}
    (run : service.Run (moveSinkInput inputId target >>= next) s trace u value) :
    ∃ before x rest, trace = before ++ .own (.moveSinkInput inputId target) x ((x.move inputId target).getD x) :: rest ∧
      Linked s before x ∧ Quiet before ∧
      service.Run (next (x.move inputId target).isSome) ((x.move inputId target).getD x) rest u value := by
  obtain ⟨before, x, rest, split, linked, quiet, later⟩ := Run.sent run
  refine ⟨before, x, rest, split, linked, quiet, ?_⟩
  have same : ((x.move inputId target).map fun _ => ()).isSome = (x.move inputId target).isSome := Option.isSome_map ..
  rw [← same]
  exact later

/-- Whenever a stream is moved it is still there, and so is the sink, or it is its own sink that has gone and a fallback is
known. -/
def Unbroken (fallback : Option String) (trace : List RouteEvent) : Prop :=
  ∀ inputId target a b, .own (.moveSinkInput inputId target) a b ∈ trace →
    a.sinkOf inputId ≠ none ∧ (a.resolve target ≠ none ∨ (fallback ≠ none ∧ ∃ sinkId, target = .id sinkId))

/-- Where a stream is after its turn: on the sink it came from, or else on the fallback. -/
inductive Landed (moved : List SinkInputRoute) (fallback : Option String) (inputId : Nat) (s : SoundServer) : Prop
  | home (sink : Sink) (plays : s.PlaysTo inputId sink) (original : originalSink moved inputId = some sink.id)
  | away (sink : Sink) (plays : s.PlaysTo inputId sink) (named : fallback = some sink.name)
      (gone : ∀ sinkId, originalSink moved inputId = some sinkId → s.Gone sinkId)
  | nowhere (untracked : originalSink moved inputId = none) (unknown : fallback = none)

def SinkTarget.Names (sink : Sink) : SinkTarget → Prop
  | .id sinkId => sink.id = sinkId
  | .name text => sink.name = text

theorem resolve_names {target : SinkTarget} {sink : Sink} (found : s.resolve target = some sink) : target.Names sink := by
  cases target with
  | id => exact resolve_id found
  | name => exact resolve_name found

theorem move_lands {target : SinkTarget} {t : SoundServer} (done : s.move inputId target = some t) :
    ∃ sink, target.Names sink ∧ t.PlaysTo inputId sink := by
  obtain ⟨sink, found, there, rfl⟩ := move_eq_some.mp done
  refine ⟨sink, resolve_names found, resolve_mem found, ?_⟩
  rw [put_sinkOf, if_pos rfl]
  obtain ⟨old, plays⟩ := Option.ne_none_iff_exists'.mp there
  rw [plays]
  rfl

theorem move_none {target : SinkTarget} (failed : s.move inputId target = none) (there : s.sinkOf inputId ≠ none) :
    s.resolve target = none := by
  cases found : s.resolve target with
  | none => rfl
  | some sink =>
    rw [move_eq_some.mpr ⟨sink, found, there, rfl⟩] at failed
    cases failed

/-- One attempt to move a stream, in a run in which it is there: it succeeds, or the sink has gone. -/
theorem attempt_lands {target : SinkTarget} {next : Bool → RouteScript α} {value : α}
    (run : service.Run (moveSinkInput inputId target >>= next) s trace u value) (unbroken : Unbroken fallback trace) :
    ∃ first second t, trace = first ++ second ∧ Linked s first t ∧ (∀ e ∈ first, MovesOnly inputId e) ∧
      ((∃ sink, target.Names sink ∧ t.PlaysTo inputId sink ∧ service.Run (next true) t second u value) ∨
        ((∃ sinkId, target = .id sinkId ∧ (sinkId < s.nextId → t.Gone sinkId)) ∧ fallback ≠ none ∧
          service.Run (next false) t second u value)) := by
  obtain ⟨before, x, rest, rfl, linked, quiet, later⟩ := moveSinkInput_run run
  obtain ⟨there, found⟩ := unbroken inputId target x _ (List.mem_append_right _ List.mem_cons_self)
  generalize isEvent :
    ServiceEvent.own (RouteCommand.moveSinkInput inputId target) x ((x.move inputId target).getD x) = e at *
  have step : Linked x [e] ((x.move inputId target).getD x) := by
    rw [← isEvent]
    exact Linked.single (.own (RouteCommand.moveSinkInput inputId target) x _)
  have only : ∀ other ∈ before ++ [e], MovesOnly inputId other := by
    intro other member
    rcases List.mem_append.mp member with old | last
    · exact quiet.movesOnly old
    · intro command a b same
      rw [List.mem_singleton.mp last, ← isEvent] at same
      cases same
      exact ⟨target, rfl⟩
  refine ⟨before ++ [e], rest, _, by simp, linked.append step, only, ?_⟩
  cases done : x.move inputId target with
  | none =>
    rw [done] at later
    have missing := move_none done there
    obtain ⟨known, sinkId, rfl⟩ := found.resolve_left (· missing)
    refine .inr ⟨⟨sinkId, rfl, fun old => ⟨?_, resolve_id_none missing⟩⟩, known, later⟩
    refine Nat.lt_of_lt_of_le old (linked_grows linked fun e member => ?_)
    obtain ⟨a, b, rfl, acts⟩ := quiet e member
    exact acts
  | some t =>
    rw [done] at later
    obtain ⟨sink, named, plays⟩ := move_lands done
    exact .inl ⟨sink, named, plays, later⟩

theorem Unbroken.later {first second : List RouteEvent} (unbroken : Unbroken fallback (first ++ second)) :
    Unbroken fallback second :=
  fun inputId target a b member => unbroken inputId target a b (List.mem_append_right _ member)

theorem restoreRoutes_turn {route : SinkInputRoute} {rest : List SinkInputRoute} {ok : Bool}
    (run : service.Run (restoreRoutes moved fallback (route :: rest)) s trace u ok) (unbroken : Unbroken fallback trace)
    (bounded : ∀ sinkId, originalSink moved route.inputId = some sinkId → sinkId < s.nextId) :
    ∃ first second t, trace = first ++ second ∧ Linked s first t ∧ (∀ e ∈ first, MovesOnly route.inputId e) ∧
      Landed moved fallback route.inputId t ∧ service.Run (restoreRoutes moved fallback rest) t second u ok := by
  have acts := fun e => run.sound (e := e)
  unfold restoreRoutes at run
  cases original : originalSink moved route.inputId with
  | none =>
    rw [original] at run
    cases fallback with
    | none => exact ⟨[], trace, s, rfl, .nil s, nofun, .nowhere original rfl, run⟩
    | some name =>
      obtain ⟨first, second, t, rfl, linked, only, ⟨sink, named, plays, run⟩ | ⟨⟨_, isId, _⟩, _⟩⟩ := attempt_lands run unbroken
      · refine ⟨first, second, t, rfl, linked, only, .away sink plays (congrArg some (Eq.symm named)) fun sinkId had => ?_, run⟩
        cases original.symm.trans had
      · cases isId
  | some sinkId =>
    rw [original] at run
    have home {sink : Sink} {t : SoundServer} (named : (SinkTarget.id sinkId).Names sink) (plays : t.PlaysTo route.inputId sink) :
        Landed moved fallback route.inputId t := .home sink plays (original.trans (congrArg some (Eq.symm named)))
    cases fallback with
    | none =>
      obtain ⟨first, second, t, rfl, linked, only, ⟨sink, named, plays, run⟩ | ⟨_, unknown, _⟩⟩ := attempt_lands run unbroken
      · exact ⟨first, second, t, rfl, linked, only, home named plays, run⟩
      · exact absurd rfl unknown
    | some name =>
      obtain ⟨first, second, t, rfl, linked, only, ⟨sink, named, plays, run⟩ | ⟨⟨_, isId, lost⟩, _, run⟩⟩ :=
        attempt_lands run unbroken
      · exact ⟨first, second, t, rfl, linked, only, home named plays, run⟩
      · -- its own sink has gone, and the fallback is tried
        cases isId
        have gone : t.Gone sinkId := lost (bounded sinkId original)
        rw [if_neg nofun] at run
        obtain ⟨more, second, v, rfl, linked', only', ⟨sink, named, plays, run⟩ | ⟨⟨_, isId, _⟩, _⟩⟩ :=
          attempt_lands run unbroken.later
        · have still : v.Gone sinkId := linked_gone linked'
            (fun e member => acts e (List.mem_append_right _ (List.mem_append_left _ member))) gone
          refine ⟨first ++ more, second, v, (List.append_assoc ..).symm, linked.append linked', fun e member => ?_,
            .away sink plays (congrArg some (Eq.symm named)) fun other had => ?_, run⟩
          · exact (List.mem_append.mp member).elim (only e) (only' e)
          · cases original.symm.trans had
            exact still
        · cases isId

/-- The command moves one of these streams. -/
def MovesOneOf (routes : List SinkInputRoute) (command : RouteCommand) : Prop :=
  ∃ route ∈ routes, ∃ target, command = .moveSinkInput route.inputId target

theorem restoreRoutes_sends (moved : List SinkInputRoute) (fallback : Option String) (routes : List SinkInputRoute) :
    (restoreRoutes moved fallback routes).Sends (MovesOneOf routes) := by
  induction routes with
  | nil => trivial
  | cons route rest ih =>
    have later : (restoreRoutes moved fallback rest).Sends (MovesOneOf (route :: rest)) :=
      ih.mono fun _ ⟨other, member, target, same⟩ => ⟨other, List.mem_cons_of_mem _ member, target, same⟩
    have now {target : SinkTarget} : (moveSinkInput route.inputId target).Sends (MovesOneOf (route :: rest)) :=
      ⟨⟨route, List.mem_cons_self, target, rfl⟩, fun _ => trivial⟩
    unfold restoreRoutes
    split
    · exact later
    · refine now.bind fun moved => ?_
      cases moved with
      | true => exact later
      | false =>
        dsimp only
        split
        · trivial
        · refine now.bind fun moved => ?_
          cases moved with
          | true => exact later
          | false => trivial
    · refine now.bind fun moved => ?_
      cases moved with
      | true => exact later
      | false => trivial
    · refine now.bind fun moved => ?_
      cases moved with
      | true => exact later
      | false => trivial

/-- Other programs leave the stream where it is, from the first time that it is there. -/
def Undisturbed (inputId : Nat) (trace : List RouteEvent) : Prop :=
  ∀ a b, .others a b ∈ trace → a.sinkOf inputId ≠ none → b.sinkOf inputId = a.sinkOf inputId

theorem Undisturbed.left {first second : List RouteEvent} (undisturbed : Undisturbed inputId (first ++ second)) :
    Undisturbed inputId first :=
  fun a b member => undisturbed a b (List.mem_append_left _ member)

theorem Undisturbed.right {first second : List RouteEvent} (undisturbed : Undisturbed inputId (first ++ second)) :
    Undisturbed inputId second :=
  fun a b member => undisturbed a b (List.mem_append_right _ member)

theorem Undisturbed.spares {e : RouteEvent} (undisturbed : Undisturbed inputId trace) (member : e ∈ trace)
    (unmoved : ∀ target a b, e ≠ .own (.moveSinkInput inputId target) a b) : Spares inputId e := by
  cases e with
  | others a b => exact undisturbed a b member
  | own command a b =>
    cases command with
    | moveSinkInput other target =>
      intro same
      exact unmoved target a b (same ▸ rfl)
    | _ => trivial

/-- A stream that has landed stays, as long as the sink that it is on is not unloaded. -/
theorem Landed.keep {e : RouteEvent} (acts : service.Sound e) (sound : e.before.Sound)
    (landed : Landed moved fallback inputId e.before) (spared : Spares inputId e)
    (stays : ∀ sink ∈ e.before.sinks, originalSink moved inputId = some sink.id ∨ fallback = some sink.name →
      ∀ owner ∈ sink.owner, ¬ Unloads owner e) :
    Landed moved fallback inputId e.after := by
  cases landed with
  | home sink plays original => exact .home sink (plays_kept acts sound plays spared (stays sink plays.1 (.inl original))) original
  | away sink plays named gone =>
    exact .away sink (plays_kept acts sound plays spared (stays sink plays.1 (.inr named))) named
      fun sinkId had => gone_kept acts (gone sinkId had)
  | nowhere untracked unknown => exact .nowhere untracked unknown

theorem Landed.run {t : SoundServer} (linked : Linked s trace t) (acts : ∀ e ∈ trace, service.Sound e) (sound : s.Sound)
    (landed : Landed moved fallback inputId s) (spared : ∀ e ∈ trace, Spares inputId e)
    (stays : ∀ e ∈ trace, ∀ moduleId, ¬ Unloads moduleId e) : Landed moved fallback inputId t := by
  have kept : t.Sound ∧ Landed moved fallback inputId t :=
    @Linked.keeps _ _ _ _ _ (fun x => x.Sound ∧ Landed moved fallback inputId x) linked
      (fun e member now => ⟨sound_kept (acts e member) now.1,
        now.2.keep (acts e member) now.1 (spared e member) fun _ _ _ owner _ => stays e member owner⟩) ⟨sound, landed⟩
  exact kept.2

theorem restoreRoutes_unloads {routes : List SinkInputRoute} {ok : Bool} {e : RouteEvent}
    (run : service.Run (restoreRoutes moved fallback routes) s trace u ok) (member : e ∈ trace) (moduleId : Nat) :
    ¬ Unloads moduleId e := by
  cases e with
  | others => exact not_false
  | own command a b =>
    intro unloads
    obtain ⟨route, _, target, same⟩ := run.sends (restoreRoutes_sends moved fallback routes) member
    rw [same] at unloads
    cases unloads

/-- Every stream that is listed has its turn, as long as the loop is not broken off. -/
theorem restoreRoutes_lands {routes : List SinkInputRoute} {ok : Bool}
    (run : service.Run (restoreRoutes moved fallback routes) s trace u ok) (unbroken : Unbroken fallback trace) (sound : s.Sound)
    (bounded : ∀ inputId sinkId, originalSink moved inputId = some sinkId → sinkId < s.nextId)
    (distinct : (routes.map (·.inputId)).Nodup) (listed : inputId ∈ routes.map (·.inputId))
    (undisturbed : Undisturbed inputId trace) : Landed moved fallback inputId u := by
  induction routes generalizing s trace with
  | nil => cases listed
  | cons route rest ih =>
    have acts := fun e => run.sound (e := e)
    obtain ⟨notLater, distinctRest⟩ := List.nodup_cons.mp distinct
    obtain ⟨first, second, t, rfl, linked, only, landed, later⟩ := restoreRoutes_turn run unbroken (bounded route.inputId)
    have actsFirst : ∀ e ∈ first, service.Sound e := fun e member => acts e (List.mem_append_left _ member)
    have soundThen : t.Sound := linked.keeps (fun e member => sound_kept (actsFirst e member)) sound
    have grown := linked_grows linked actsFirst
    by_cases here : inputId = route.inputId
    · subst here
      refine landed.run later.linked (fun e member => later.sound member) soundThen (fun e member => ?_)
        fun e member => restoreRoutes_unloads later member
      refine undisturbed.right.spares member fun target a b same => ?_
      rw [same] at member
      obtain ⟨other, isListed, _, sent⟩ := later.sends (restoreRoutes_sends moved fallback rest) member
      exact notLater (List.mem_map.mpr ⟨other, isListed, ((RouteCommand.moveSinkInput.injEq ..).mp sent).1.symm⟩)
    · have listed : inputId ∈ rest.map (·.inputId) := (List.mem_cons.mp listed).resolve_left here
      exact ih later unbroken.later soundThen (fun id sinkId had => Nat.lt_of_lt_of_le (bounded id sinkId had) grown) distinctRest
        listed undisturbed.right

theorem sinkIdByName_run {name : String} {next : Option (Option Nat) → RouteScript α} {value : α}
    (run : service.Run (sinkIdByName name >>= next) s trace u value) :
    ∃ before x rest, trace = before ++ .own .listSinks x x :: rest ∧ Linked s before x ∧ Quiet before ∧
      service.Run (next (some ((x.resolve (.name name)).map (·.id)))) x rest u value := Run.sent run

theorem listSinkInputs_run {next : Option (List SinkInputRoute) → RouteScript α} {value : α}
    (run : service.Run (pactl .listSinkInputs >>= next) s trace u value) :
    ∃ before x rest, trace = before ++ .own .listSinkInputs x x :: rest ∧ Linked s before x ∧ Quiet before ∧
      service.Run (next (some x.sinkInputs)) x rest u value := Run.sent run

/-- The stream was taken from this sink by a move that succeeded. -/
def TakenFrom (trace : List RouteEvent) (inputId sinkId : Nat) : Prop :=
  ∃ target a b, .own (.moveSinkInput inputId target) a b ∈ trace ∧ (a.move inputId target).isSome = true ∧
    a.sinkOf inputId = some sinkId

/-- Whenever a stream is moved it is where it was listed, or it is gone. -/
def Steady (trace : List RouteEvent) : Prop :=
  ∀ listed x inputId target a b, .own .listSinkInputs listed x ∈ trace → .own (.moveSinkInput inputId target) a b ∈ trace →
    a.sinkOf inputId = none ∨ a.sinkOf inputId = listed.sinkOf inputId

/-- What is remembered is what was moved, in the order of the list. -/
theorem moveRoutes_spec {name : String} {sinkId : Nat} {routes before after : List SinkInputRoute} {ok : Bool}
    (run : service.Run (moveRoutes name sinkId routes before) s trace u (ok, after)) :
    ∃ more, after = before ++ more ∧ more.Sublist (routes.filter fun route => route.sinkId ≠ sinkId) ∧
      (∀ route ∈ more, ∃ a b, .own (.moveSinkInput route.inputId (.name name)) a b ∈ trace ∧
        (a.move route.inputId (.name name)).isSome = true) ∧
      ∀ inputId target a b, .own (.moveSinkInput inputId target) a b ∈ trace → (a.move inputId target).isSome = true →
        ∃ route ∈ more, route.inputId = inputId := by
  have silent {trace : List RouteEvent} (quiet : Quiet trace) {command : RouteCommand} {a b : SoundServer}
      (member : .own command a b ∈ trace) : False := by
    obtain ⟨_, _, same, _⟩ := quiet _ member
    cases same
  induction routes generalizing s trace before with
  | nil =>
    obtain ⟨same, quiet⟩ := run.over
    refine ⟨[], ?_, List.Sublist.refl _, nofun, fun _ _ _ _ member => (silent quiet member).elim⟩
    rw [List.append_nil]
    exact (Prod.mk.inj same).2
  | cons route rest ih =>
    unfold moveRoutes at run
    by_cases skipped : route.sinkId = sinkId
    · rw [if_pos skipped] at run
      obtain ⟨more, same, sub, forward, backward⟩ := ih run
      refine ⟨more, same, ?_, forward, backward⟩
      rw [List.filter_cons_of_neg (by simp [skipped])]
      exact sub
    · rw [if_neg skipped] at run
      obtain ⟨quietBefore, x, later, rfl, _, quiet, run⟩ := moveSinkInput_run run
      cases done : (x.move route.inputId (.name name)).isSome with
      | true =>
        rw [done] at run
        obtain ⟨more, same, sub, forward, backward⟩ := ih run
        refine ⟨route :: more, ?_, ?_, fun other member => ?_, fun inputId target a b member moved => ?_⟩
        · rw [same, List.append_assoc]
          rfl
        · rw [List.filter_cons_of_pos (by simp [skipped])]
          exact sub.cons_cons route
        · rcases List.mem_cons.mp member with rfl | member
          · exact ⟨x, _, List.mem_append_right _ List.mem_cons_self, done⟩
          · obtain ⟨a, b, isEvent, moved⟩ := forward other member
            exact ⟨a, b, List.mem_append_right _ (List.mem_cons_of_mem _ isEvent), moved⟩
        · rcases List.mem_append.mp member with early | member
          · exact (silent quiet early).elim
          · rcases List.mem_cons.mp member with same | member
            · cases same
              exact ⟨route, List.mem_cons_self, rfl⟩
            · obtain ⟨other, isMore, same⟩ := backward inputId target a b member moved
              exact ⟨other, List.mem_cons_of_mem _ isMore, same⟩
      | false =>
        rw [done] at run
        obtain ⟨same, quietAfter⟩ := run.over
        refine ⟨[], ?_, List.nil_sublist _, nofun, fun inputId target a b member moved => ?_⟩
        · rw [List.append_nil]
          exact (Prod.mk.inj same).2
        · rcases List.mem_append.mp member with early | member
          · exact (silent quiet early).elim
          · rcases List.mem_cons.mp member with same | member
            · cases same
              rw [done] at moved
              cases moved
            · exact (silent quietAfter member).elim

def Activates (command : RouteCommand) : Prop :=
  (∃ name, command = .setDefaultSink name) ∨ command = .listSinks ∨ command = .listSinkInputs ∨
    ∃ inputId target, command = .moveSinkInput inputId target

theorem moveRoutes_sends (name : String) (sinkId : Nat) (routes moved : List SinkInputRoute) :
    (moveRoutes name sinkId routes moved).Sends Activates := by
  induction routes generalizing moved with
  | nil => trivial
  | cons route rest ih =>
    unfold moveRoutes
    split
    · exact ih moved
    · refine ⟨.inr (.inr (.inr ⟨_, _, rfl⟩)), fun reply => ?_⟩
      cases reply with
      | none => trivial
      | some => exact ih _

variable {guard : RedirectRouteGuard}

theorem sinkIdByName_sends (name : String) : (sinkIdByName name).Sends Activates :=
  ⟨.inr (.inl rfl), fun _ => trivial⟩

theorem listSinkInputs_sends : (pactl .listSinkInputs).Sends Activates := ⟨.inr (.inr (.inl rfl)), fun _ => trivial⟩

theorem activate_sends (guard : RedirectRouteGuard) : guard.activate.Sends Activates := by
  have byDefault : (pactl (.setDefaultSink guard.sinkName)).Sends Activates := ⟨.inl ⟨_, rfl⟩, fun _ => trivial⟩
  refine byDefault.bind fun reply => ?_
  cases reply with
  | none => trivial
  | some =>
    refine (sinkIdByName_sends _).bind fun found => ?_
    rcases found with _ | _ | sinkId
    · trivial
    · trivial
    · refine Sends.bind (listSinkInputs_sends.bind fun routes => ?_) fun _ => trivial
      cases routes with
      | none => trivial
      | some routes => exact moveRoutes_sends _ _ _ _

theorem Activates.unloads {command : RouteCommand} (activates : Activates command) (moduleId : Nat) :
    command ≠ .unloadModule moduleId := by
  rintro rfl
  rcases activates with ⟨_, same⟩ | same | same | ⟨_, _, same⟩ <;> cases same

theorem remote_kept {remote : Sink} {moduleId : Nat} {t : SoundServer} (r : s.Remote remote moduleId) (linked : Linked s trace t)
    (acts : ∀ e ∈ trace, service.Sound e) (loaded : ∀ e ∈ trace, ¬ Unloads moduleId e) : t.Remote remote moduleId :=
  @Linked.keeps _ _ _ _ _ (fun x => x.Remote remote moduleId) linked
    (fun e member now => now.event (acts e member) (loaded e member)) r

theorem activating_unloads {ok : Bool} {guard' : RedirectRouteGuard} {e : RouteEvent}
    (run : service.Run guard.activate s trace u (ok, guard')) (member : e ∈ trace) (moduleId : Nat) : ¬ Unloads moduleId e := by
  cases e with
  | others => exact not_false
  | own command a b => exact (run.sends (activate_sends guard) member).unloads moduleId

theorem RouteEvent.Quiet.skip {before rest : List RouteEvent} {command sent : RouteCommand} {x y a b : SoundServer}
    (quiet : Quiet before) (member : .own command a b ∈ before ++ .own sent x y :: rest) :
    (command = sent ∧ a = x ∧ b = y) ∨ .own command a b ∈ rest := by
  rcases List.mem_append.mp member with early | member
  · obtain ⟨_, _, same, _⟩ := quiet _ early
    cases same
  · rcases List.mem_cons.mp member with same | later
    · exact .inl ((ServiceEvent.own.injEq ..).mp same)
    · exact .inr later

theorem originalSink_mem {sinkId : Nat} (known : originalSink moved inputId = some sinkId) : ⟨inputId, sinkId⟩ ∈ moved := by
  obtain ⟨route, found, rfl⟩ := Option.map_eq_some_iff.mp known
  obtain rfl : route.inputId = inputId := found_input found
  exact List.mem_of_find?_eq_some found

/-- As long as the remote sink is there it is found by its name, so that nothing on it is listed for a move. -/
theorem listed_elsewhere {remote sink : Sink} {moduleId : Nat} {t : SoundServer} {route : SinkInputRoute}
    (r : s.Remote remote moduleId) (linked : Linked s trace t) (acts : ∀ e ∈ trace, service.Sound e)
    (loaded : ∀ e ∈ trace, ¬ Unloads moduleId e) (found : s.resolve (.name remote.name) = some sink)
    (listed : route ∈ t.sinkInputs) (elsewhere : route.sinkId ≠ sink.id) : route.sinkId ≠ remote.id := by
  intro onRemote
  have there : s.HasSink remote.id := by
    by_contra missing
    have gone : t.Gone remote.id := linked_gone linked acts ⟨r.known.2, missing⟩
    exact gone.2 ((remote_kept r linked acts loaded).seated route listed onRemote)
  obtain ⟨other, member, same⟩ := List.mem_map.mp there
  have isRemote : other = remote := r.alone other member (.inl same)
  have isSink : sink = remote :=
    List.inj_on_of_nodup_map r.sound.names (resolve_mem found) (isRemote ▸ member) (resolve_name found)
  rw [isSink] at elsewhere
  exact elsewhere onRemote

theorem originalSink_eq {routes : List SinkInputRoute} {sinkId : Nat} (distinct : (routes.map (·.inputId)).Nodup)
    (member : ⟨inputId, sinkId⟩ ∈ routes) : originalSink routes inputId = some sinkId := by
  unfold originalSink
  cases found : routes.find? fun route => route.inputId = inputId with
  | none => exact absurd (decide_eq_true rfl) (List.find?_eq_none.mp found _ member)
  | some other =>
    rw [List.inj_on_of_nodup_map distinct (List.mem_of_find?_eq_some found) member (found_input found)]
    rfl

/-- What is remembered of the streams is where they were listed, and if they are still there it is where they were taken from. -/
theorem moveAllSinkInputs_spec {name : String} {sinkId : Nat} {ok : Bool} {moved : List SinkInputRoute}
    (run : service.Run (moveAllSinkInputs name sinkId []) s trace u (ok, moved)) (sound : s.Sound) :
    ∃ before listed rest, trace = before ++ own RouteCommand.listSinkInputs listed listed :: rest ∧ Linked s before listed ∧ Quiet before ∧
      (∀ inputId original, originalSink moved inputId = some original →
        ⟨inputId, original⟩ ∈ listed.sinkInputs ∧ original ≠ sinkId) ∧
      (Steady trace → ∀ inputId original, originalSink moved inputId = some original ↔ TakenFrom trace inputId original) := by
  obtain ⟨before, z, rest, rfl, linked, quiet, run⟩ := listSinkInputs_run run
  obtain ⟨more, rfl, sub, forward, backward⟩ := moveRoutes_spec run
  have soundThen : z.Sound := linked.keeps (fun e member => by
    obtain ⟨a, b, rfl, acts⟩ := quiet e member
    exact fun _ => acts.sound) sound
  have isListed : ∀ route ∈ moved, route ∈ z.sinkInputs ∧ route.sinkId ≠ sinkId := fun route member => by
    obtain ⟨listed, elsewhere⟩ := List.mem_filter.mp (sub.subset member)
    exact ⟨listed, of_decide_eq_true elsewhere⟩
  have distinct : (moved.map (·.inputId)).Nodup := soundThen.inputs.sublist ((sub.trans List.filter_sublist).map _)
  refine ⟨before, z, rest, rfl, linked, quiet, fun inputId original known => isListed _ (originalSink_mem known), ?_⟩
  intro steady inputId original
  have where_listed {target : SinkTarget} {a b : SoundServer} (member : .own (.moveSinkInput inputId target) a b ∈ rest)
      (moved : (a.move inputId target).isSome = true) : a.sinkOf inputId = z.sinkOf inputId := by
    refine (steady z z inputId target a b (List.mem_append_right _ List.mem_cons_self)
      (List.mem_append_right _ (List.mem_cons_of_mem _ member))).resolve_left fun missing => ?_
    obtain ⟨t, done⟩ := Option.isSome_iff_exists.mp moved
    obtain ⟨_, _, there, _⟩ := move_eq_some.mp done
    exact there missing
  constructor
  · intro known
    obtain ⟨a, b, member, moved⟩ := forward _ (originalSink_mem known)
    refine ⟨_, a, b, List.mem_append_right _ (List.mem_cons_of_mem _ member), moved, ?_⟩
    rw [where_listed member moved]
    exact soundThen.sinkOf_eq (isListed _ (originalSink_mem known)).1
  · rintro ⟨target, a, b, member, moved, plays⟩
    rcases Quiet.skip quiet member with ⟨same, _⟩ | member
    · cases same
    · obtain ⟨route, isMore, rfl⟩ := backward inputId target a b member moved
      rw [where_listed member moved, soundThen.sinkOf_eq (isListed route isMore).1] at plays
      cases plays
      exact originalSink_eq distinct isMore

/-- No stream is moved or listed in this part of a run. -/
def RouteEvent.Aside (trace : List RouteEvent) : Prop :=
  ∀ command a b, .own command a b ∈ trace → command ≠ .listSinkInputs ∧ ∀ inputId target, command ≠ .moveSinkInput inputId target

theorem RouteEvent.Quiet.aside (quiet : Quiet trace) : Aside trace := by
  intro command a b member
  obtain ⟨_, _, same, _⟩ := quiet _ member
  cases same

theorem takenFrom_within {before after : List RouteEvent} {sinkId : Nat} (early : Aside before) (late : Aside after) :
    TakenFrom (before ++ trace ++ after) inputId sinkId ↔ TakenFrom trace inputId sinkId := by
  constructor
  · rintro ⟨target, a, b, member, moved, plays⟩
    rcases List.mem_append.mp member with member | member
    · rcases List.mem_append.mp member with member | member
      · exact absurd rfl ((early _ a b member).2 inputId target)
      · exact ⟨target, a, b, member, moved, plays⟩
    · exact absurd rfl ((late _ a b member).2 inputId target)
  · rintro ⟨target, a, b, member, moved, plays⟩
    exact ⟨target, a, b, List.mem_append_left _ (List.mem_append_right _ member), moved, plays⟩

theorem steady_within {before after : List RouteEvent} (steady : Steady (before ++ trace ++ after)) : Steady trace :=
  fun listed x inputId target a b isList isMove => steady listed x inputId target a b
    (List.mem_append_left _ (List.mem_append_right _ isList)) (List.mem_append_left _ (List.mem_append_right _ isMove))

/-- Activation makes the remote sink the default and looks it up, and then it moves the streams. -/
theorem activate_run {ok : Bool} {guard' : RedirectRouteGuard} (run : service.Run guard.activate s trace u (ok, guard')) :
    ∃ start y rest, trace = start ++ rest ∧ Aside start ∧ Linked s start y ∧ ((Quiet rest ∧ guard' = guard) ∨
      ∃ sink moving trailing v moved, y.resolve (.name guard.sinkName) = some sink ∧ rest = moving ++ trailing ∧
        Quiet trailing ∧ service.Run (moveAllSinkInputs guard.sinkName sink.id guard.movedSinkInputs) y moving v (ok, moved) ∧
        guard' = { guard with movedSinkInputs := moved }) := by
  unfold RedirectRouteGuard.activate at run
  obtain ⟨first, x, rest, rfl, toDefault, quiet, run⟩ := Run.sent run
  obtain ⟨second, y, rest, rfl, toLookup, quiet', run⟩ := sinkIdByName_run run
  refine ⟨first ++ own (RouteCommand.setDefaultSink guard.sinkName) x (service.after (.setDefaultSink guard.sinkName) x) ::
    (second ++ [own RouteCommand.listSinks y y]), y, rest, by simp, fun command a b member => ?_,
    toDefault.own (toLookup.append (Linked.single (.own RouteCommand.listSinks y y))), ?_⟩
  · rcases Quiet.skip quiet member with ⟨rfl, _⟩ | member
    · exact ⟨nofun, nofun⟩
    · rcases Quiet.skip quiet' member with ⟨rfl, _⟩ | member
      · exact ⟨nofun, nofun⟩
      · cases member
  · cases found : y.resolve (.name guard.sinkName) with
    | none =>
      rw [found] at run
      obtain ⟨same, quietAfter⟩ := run.over
      exact .inl ⟨quietAfter, (Prod.mk.inj same).2⟩
    | some sink =>
      rw [found] at run
      obtain ⟨moving, trailing, v, ⟨activated, moved⟩, rfl, moves, finish⟩ := Run.bind run
      obtain ⟨same, quietAfter⟩ := finish.over
      obtain ⟨rfl, rfl⟩ := Prod.mk.inj same
      exact .inr ⟨sink, moving, trailing, v, moved, rfl, rfl, quietAfter, moves, rfl⟩

/-- What activation remembers is what it took, never from the remote sink itself. -/
theorem activate_spec {ok : Bool} {guard' : RedirectRouteGuard} {remote : Sink} {moduleId : Nat}
    (run : service.Run guard.activate s trace u (ok, guard')) (fresh : guard.movedSinkInputs = [])
    (r : s.Remote remote moduleId) (named : guard.sinkName = remote.name) :
    ∃ moved, guard' = { guard with movedSinkInputs := moved } ∧ (∀ inputId sinkId,
      originalSink moved inputId = some sinkId → sinkId < u.nextId ∧ sinkId ≠ remote.id) ∧
      (Steady trace → ∀ inputId sinkId, originalSink moved inputId = some sinkId ↔ TakenFrom trace inputId sinkId) := by
  have acts := fun e => run.sound (e := e)
  have loaded := fun e member => activating_unloads run (e := e) member moduleId
  obtain ⟨start, y, rest, rfl, early, toLookup, ⟨quiet, rfl⟩ | moves⟩ := activate_run run
  · refine ⟨[], ?_, nofun, fun _ inputId sinkId => ⟨nofun, ?_⟩⟩
    · rw [← fresh]
    · rintro ⟨target, a, b, member, _⟩
      rcases List.mem_append.mp member with member | member
      · exact absurd rfl ((early _ a b member).2 inputId target)
      · exact absurd rfl ((Quiet.aside quiet _ a b member).2 inputId target)
  · obtain ⟨sink, moving, trailing, v, moved, found, rfl, quiet, moves, rfl⟩ := moves
    have atLookup : y.Remote remote moduleId := remote_kept r toLookup
      (fun e member => acts e (List.mem_append_left _ member)) fun e member => loaded e (List.mem_append_left _ member)
    rw [named] at found
    rw [fresh] at moves
    obtain ⟨before, listed, loop, rfl, toList, quietBefore, isListed, taken⟩ := moveAllSinkInputs_spec moves atLookup.sound
    have within {e : RouteEvent} (member : e ∈ before) :
        e ∈ start ++ (before ++ .own .listSinkInputs listed listed :: loop ++ trailing) :=
      List.mem_append_right _ (List.mem_append_left _ (List.mem_append_left _ member))
    have atList : listed.Remote remote moduleId := remote_kept atLookup toList
      (fun e member => acts e (within member)) fun e member => loaded e (within member)
    refine ⟨moved, rfl, fun inputId sinkId known => ?_, fun steady inputId sinkId => ?_⟩
    · obtain ⟨member, elsewhere⟩ := isListed inputId sinkId known
      refine ⟨?_, ?_⟩
      · have whole : start ++ (before ++ .own .listSinkInputs listed listed :: loop ++ trailing) =
            (start ++ before) ++ .own .listSinkInputs listed listed :: (loop ++ trailing) := by simp
        have later : Linked listed (.own .listSinkInputs listed listed :: (loop ++ trailing)) u :=
          (whole ▸ run.linked).from_event
        have bound := atList.sound.routes _ member
        have grown := linked_grows later fun e member => acts e (whole ▸ List.mem_append_right _ member)
        exact Nat.lt_of_lt_of_le bound grown
      · exact listed_elsewhere atLookup toList (fun e member => acts e (within member))
          (fun e member => loaded e (within member)) found member elsewhere
    · rw [← List.append_assoc] at steady ⊢
      rw [takenFrom_within early (Quiet.aside quiet)]
      exact taken (steady_within steady) inputId sinkId

end HyprRdp
