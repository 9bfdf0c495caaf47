import HyprRdp.Audio.Moves

namespace HyprRdp

open Script SoundServer RouteEvent ServiceEvent Service

variable {s u : SoundServer} {trace : List RouteEvent} {guard : RedirectRouteGuard} {moduleId : Nat}

/-- What restoring does, part by part. -/
inductive Restores (guard : RedirectRouteGuard) (moduleId : Nat) : SoundServer → List RouteEvent → SoundServer → Prop
  | parts {s began t v x u : SoundServer} {before settling moving between later : List RouteEvent} {ok : Bool}
      (quiet : Quiet before) (linked : Linked s before began)
      (settles : service.Run (guard.restoreDefault (some began.defaultSink)) began settling t ())
      (moves : service.Run (restoreSinkInputsFromRemote guard.sinkName guard.movedSinkInputs
        (guard.fallbackSink (some began.defaultSink))) t moving v ok)
      (quietBetween : Quiet between) (linkedBetween : Linked v between x)
      (quietLater : Quiet later) (linkedLater : Linked (x.unloadModule moduleId) later u) :
      Restores guard moduleId s (before ++ .own .getDefaultSink began began ::
        (settling ++ (moving ++ (between ++ .own (.unloadModule moduleId) x (x.unloadModule moduleId) :: later)))) u

theorem getDefaultSink_run {α : Type} {next : Option (Option String) → RouteScript α} {value : α}
    (run : service.Run (pactl .getDefaultSink >>= next) s trace u value) :
    ∃ before x rest, trace = before ++ .own .getDefaultSink x x :: rest ∧ Linked s before x ∧ Quiet before ∧
      service.Run (next (some (some x.defaultSink))) x rest u value := Run.sent run

theorem restore_run {guard' : RedirectRouteGuard} (fresh : guard.restored = false) (loaded : guard.moduleId = some moduleId)
    (run : service.Run guard.restore s trace u guard') : Restores guard moduleId s trace u ∧ guard'.restored = true := by
  unfold RedirectRouteGuard.restore at run
  rw [fresh, if_neg Bool.false_ne_true] at run
  obtain ⟨before, began, rest, rfl, linked, quiet, goesOn⟩ := getDefaultSink_run run
  obtain ⟨settling, rest, t, _, rfl, settles, restores⟩ := Run.bind goesOn
  obtain ⟨moving, rest, v, ok, rfl, moves, unloads⟩ := Run.bind restores
  unfold RedirectRouteGuard.unloadOwnModule at unloads
  rw [loaded] at unloads
  obtain ⟨between, x, later, rfl, linkedBetween, quietBetween, ends⟩ := Run.sent unloads
  obtain ⟨same, quietLater⟩ := ends.over
  exact ⟨.parts quiet linked settles moves quietBetween linkedBetween quietLater ends.linked, same ▸ rfl⟩

theorem Restores.trail {v : SoundServer} {trailing : List RouteEvent} (restores : Restores guard moduleId s trace u)
    (quiet : Quiet trailing) (linked : Linked u trailing v) : Restores guard moduleId s (trace ++ trailing) v := by
  cases restores with
  | parts quietBefore linkedBefore settles moves quietBetween linkedBetween quietLater linkedLater =>
    have parts := Restores.parts quietBefore linkedBefore settles moves quietBetween linkedBetween (quietLater.append quiet)
      (linkedLater.append linked)
    simpa only [List.append_assoc, List.cons_append] using parts

theorem Restores.lead {r : SoundServer} {leading : List RouteEvent} (quiet : Quiet leading) (linked : Linked r leading s)
    (restores : Restores guard moduleId s trace u) : Restores guard moduleId r (leading ++ trace) u := by
  cases restores with
  | parts quietBefore linkedBefore settles moves quietBetween linkedBetween quietLater linkedLater =>
    have parts := Restores.parts (quiet.append quietBefore) (linked.append linkedBefore) settles moves quietBetween linkedBetween
      quietLater linkedLater
    simpa only [List.append_assoc] using parts

/-- A session in which the remote sink is loaded goes through activation and then restores, whether activation succeeds or not. -/
theorem session_run {name : String} {pid : Nat} {isAlive : Nat → Bool}
    (run : service.Run (redirectSession name pid isAlive) s trace u ()) :
    ∃ loading rest loaded result, trace = loading ++ rest ∧ service.Run (loadRemoteSink name pid isAlive) s loading loaded result ∧
      ∀ guard, result = some guard → ∃ activating restoring active ok guard', rest = activating ++ restoring ∧
        service.Run guard.activate loaded activating active (ok, guard') ∧
        (guard'.restored = false → ∀ moduleId, guard'.moduleId = some moduleId → Restores guard' moduleId active restoring u) := by
  unfold redirectSession startRedirect at run
  obtain ⟨starting, dropping, w, started, rfl, starts, drops⟩ := Run.bind run
  obtain ⟨loading, rest, loaded, result, rfl, loads, goesOn⟩ := Run.bind starts
  refine ⟨loading, rest ++ dropping, loaded, result, List.append_assoc .., loads, ?_⟩
  rintro guard rfl
  obtain ⟨activating, rest, active, ⟨ok, guard'⟩, rfl, activates, ends⟩ := Run.bind goesOn
  refine ⟨activating, rest ++ dropping, active, ok, guard', List.append_assoc .., activates, fun fresh moduleId hasModule => ?_⟩
  cases ok with
  | true =>
    obtain ⟨rfl, quiet⟩ := ends.over
    obtain ⟨restoring, trailing, x, _, rfl, restores, finish⟩ := Run.bind drops
    exact ((restore_run fresh hasModule restores).1.trail finish.over.2 finish.linked).lead quiet ends.linked
  | false =>
    obtain ⟨restoring, more, x, restored, rfl, restores, again⟩ := Run.bind ends
    obtain ⟨parts, isRestored⟩ := restore_run fresh hasModule restores
    obtain ⟨nothing, trailing, y, _, rfl, idle, finish⟩ := Run.bind again
    unfold RedirectRouteGuard.restore at idle
    rw [isRestored, if_pos rfl] at idle
    obtain ⟨rfl, quiet⟩ := finish.over
    have all := ((parts.trail idle.over.2 idle.linked).trail quiet finish.linked).trail drops.over.2 drops.linked
    simpa only [List.append_assoc] using all

/-- Every command in this part of a run is of that kind. -/
def RouteEvent.Only (kind : RouteCommand → Prop) (trace : List RouteEvent) : Prop := ∀ command a b, .own command a b ∈ trace → kind command

theorem RouteEvent.Quiet.only {kind : RouteCommand → Prop} (quiet : Quiet trace) : Only kind trace := by
  intro command a b member
  obtain ⟨_, _, same, _⟩ := quiet _ member
  cases same

theorem RouteEvent.Only.nil {kind : RouteCommand → Prop} : Only kind [] := fun _ _ _ member => nomatch member

theorem RouteEvent.Only.append {kind : RouteCommand → Prop} {more : List RouteEvent} (only : Only kind trace)
    (also : Only kind more) : Only kind (trace ++ more) :=
  fun command a b member => (List.mem_append.mp member).elim (only command a b) (also command a b)

theorem RouteEvent.Only.cons {kind : RouteCommand → Prop} {command : RouteCommand} {a b : SoundServer} (now : kind command)
    (only : Only kind trace) : Only kind (.own command a b :: trace) := by
  intro other x y member
  rcases List.mem_cons.mp member with same | member
  · cases same
    exact now
  · exact only other x y member

/-- Looking for streams and moving them. -/
def MovesBack (command : RouteCommand) : Prop :=
  command = .listSinks ∨ command = .listSinkInputs ∨ ∃ inputId target, command = .moveSinkInput inputId target

theorem restoreSinkInputsFromRemote_sends (name : String) (moved : List SinkInputRoute) (fallback : Option String) :
    (restoreSinkInputsFromRemote name moved fallback).Sends MovesBack := by
  have byName : (sinkIdByName name).Sends MovesBack := ⟨.inl rfl, fun _ => trivial⟩
  have listing : (pactl .listSinkInputs).Sends MovesBack := ⟨.inr (.inl rfl), fun _ => trivial⟩
  refine byName.bind fun found => ?_
  rcases found with _ | _ | sinkId
  · trivial
  · trivial
  · refine listing.bind fun routes => ?_
    cases routes with
    | none => trivial
    | some routes =>
      exact (restoreRoutes_sends moved fallback _).mono fun command ⟨route, _, target, same⟩ => .inr (.inr ⟨_, target, same⟩)

theorem restoreDefault_run {current : String} {t : SoundServer}
    (run : service.Run (guard.restoreDefault (some current)) s trace t ()) :
    (current = guard.sinkName ∧ ∃ previous before x later, guard.previousDefaultSink = some previous ∧
      trace = before ++ .own (.setDefaultSink previous) x { x with defaultSink := previous } :: later ∧
      Quiet before ∧ Quiet later ∧ Linked { x with defaultSink := previous } later t) ∨
    ((current ≠ guard.sinkName ∨ guard.previousDefaultSink = none) ∧ Quiet trace) := by
  unfold RedirectRouteGuard.restoreDefault at run
  cases known : guard.previousDefaultSink with
  | none =>
    rw [known] at run
    exact .inr ⟨.inr rfl, run.over.2⟩
  | some previous =>
    rw [known] at run
    by_cases isRemote : current = guard.sinkName
    · have should : guard.shouldRestoreDefault (some current) = true := decide_eq_true isRemote
      dsimp only at run
      rw [should, if_pos rfl] at run
      obtain ⟨before, x, later, split, _, quiet, ends⟩ := Run.sent run
      exact .inl ⟨isRemote, previous, before, x, later, rfl, split, quiet, ends.over.2, ends.linked⟩
    · have should : guard.shouldRestoreDefault (some current) = false := decide_eq_false isRemote
      dsimp only at run
      rw [should, if_neg Bool.false_ne_true] at run
      exact .inr ⟨.inl isRemote, run.over.2⟩

/-- The default that is left if the others go on from this one. -/
def othersDefault (value : String) : List RouteEvent → String
  | [] => value
  | .own _ _ _ :: rest => othersDefault value rest
  | .others a b :: rest => othersDefault (if b.defaultSink = a.defaultSink then value else b.defaultSink) rest

def LeavesDefault (command : RouteCommand) : Prop := ∀ name, command ≠ .setDefaultSink name

theorem after_default {command : RouteCommand} (leaves : LeavesDefault command) (s : SoundServer) :
    (after command s).defaultSink = s.defaultSink := by
  cases command with
  | getDefaultSink | listSinks | listSinkInputs | listModules | unloadModule => rfl
  | setDefaultSink name => exact absurd rfl (leaves name)
  | loadNullSink sinkName =>
    show ((s.loadNullSink sinkName).getD s).defaultSink = s.defaultSink
    cases loaded : s.loadNullSink sinkName with
    | none => rfl
    | some t =>
      obtain ⟨_, same⟩ := Option.ite_none_left_eq_some.mp loaded
      cases same
      rfl
  | moveSinkInput inputId target =>
    show ((s.move inputId target).getD s).defaultSink = s.defaultSink
    cases moved : s.move inputId target with
    | none => rfl
    | some t =>
      obtain ⟨_, _, _, rfl⟩ := move_eq_some.mp moved
      rfl

theorem others_default (linked : Linked s trace u) (acts : ∀ e ∈ trace, service.Sound e) (only : Only LeavesDefault trace) :
    u.defaultSink = othersDefault s.defaultSink trace := by
  induction linked with
  | nil s => rfl
  | @cons e rest t _ ih =>
    have tail := ih (fun e member => acts e (List.mem_cons_of_mem _ member))
      fun command a b member => only command a b (List.mem_cons_of_mem _ member)
    cases e with
    | own command a b =>
      have isAfter : b = after command a := acts _ List.mem_cons_self
      rw [tail]
      show othersDefault b.defaultSink rest = othersDefault a.defaultSink rest
      rw [isAfter, after_default (only command a b List.mem_cons_self)]
    | others a b =>
      rw [tail]
      show othersDefault b.defaultSink rest = othersDefault _ rest
      by_cases same : b.defaultSink = a.defaultSink
      · rw [if_pos same, same]
        rfl
      · rw [if_neg same]

/-- The previous default is back if the remote sink was still the default, up to what others do afterwards. Otherwise the
default is theirs. -/
structure DefaultBack (guard : RedirectRouteGuard) (began s : SoundServer) (trace : List RouteEvent) (u : SoundServer) : Prop where
  reset : ∀ previous, began.defaultSink = guard.sinkName → guard.previousDefaultSink = some previous →
    ∃ earlier a b later, trace = earlier ++ .own (.setDefaultSink previous) a b :: later ∧
      u.defaultSink = othersDefault previous later
  left : began.defaultSink ≠ guard.sinkName ∨ guard.previousDefaultSink = none →
    u.defaultSink = othersDefault s.defaultSink trace

theorem RouteEvent.Only.mono {kind more : RouteCommand → Prop} (only : Only kind trace)
    (wider : ∀ command, kind command → more command) : Only more trace :=
  fun command a b member => wider command (only command a b member)

theorem only_of_sends {α : Type} {kind : RouteCommand → Prop} {script : RouteScript α} {value : α}
    (run : service.Run script s trace u value) (sends : script.Sends kind) : Only kind trace :=
  fun _ _ _ member => run.sends sends member

theorem MovesBack.leaves {command : RouteCommand} (moves : MovesBack command) : LeavesDefault command := by
  rintro name rfl
  rcases moves with same | same | ⟨_, _, same⟩ <;> cases same

theorem Restores.default_back (restores : Restores guard moduleId s trace u) (acts : ∀ e ∈ trace, service.Sound e)
    (linked : Linked s trace u) : ∃ began, .own .getDefaultSink began began ∈ trace ∧
      (∀ a b, .own .getDefaultSink a b ∈ trace → a = began) ∧ DefaultBack guard began s trace u := by
  obtain @⟨began, t, v, x, _, before, settling, moving, between, later, _, quiet, _, settles, moves, quietBetween, _,
    quietLater, _⟩ := restores
  have moving_only : Only MovesBack moving := only_of_sends moves (restoreSinkInputsFromRemote_sends _ _ _)
  have after_settling (kind : RouteCommand → Prop) (back : ∀ command, MovesBack command → kind command)
      (unload : kind (.unloadModule moduleId)) :
      Only kind (moving ++ (between ++ .own (.unloadModule moduleId) x (x.unloadModule moduleId) :: later)) :=
    (moving_only.mono back).append (quietBetween.only.append (quietLater.only.cons unload))
  have rest_not_get {a b : SoundServer} (member : .own .getDefaultSink a b ∈ settling ++ (moving ++
      (between ++ .own (.unloadModule moduleId) x (x.unloadModule moduleId) :: later))) : False := by
    refine absurd rfl (?_ : RouteCommand.getDefaultSink ≠ .getDefaultSink)
    refine (?_ : Only (· ≠ .getDefaultSink) _) _ a b member
    refine RouteEvent.Only.append ?_ (after_settling _ ?_ nofun)
    · rcases restoreDefault_run settles with ⟨_, _, _, _, _, _, rfl, quiet, quiet', _⟩ | ⟨_, quiet⟩
      · exact quiet.only.append (quiet'.only.cons nofun)
      · exact quiet.only
    · rintro command moves rfl
      rcases moves with same | same | ⟨_, _, same⟩ <;> cases same
  refine ⟨began, List.mem_append_right _ List.mem_cons_self, fun a b member => ?_, ?_, ?_⟩
  · rcases Quiet.skip quiet member with ⟨_, same, _⟩ | member
    · exact same
    · exact (rest_not_get member).elim
  · intro previous isRemote known
    rcases restoreDefault_run settles with ⟨_, other, q, y, q', known', rfl, _, quietAfter, _⟩ | ⟨left, _⟩
    · cases known.symm.trans known'
      refine ⟨before ++ .own .getDefaultSink began began :: q, y, { y with defaultSink := previous }, q' ++ (moving ++
        (between ++ .own (.unloadModule moduleId) x (x.unloadModule moduleId) :: later)), by simp, ?_⟩
      have whole : before ++ .own .getDefaultSink began began :: (q ++ .own (.setDefaultSink previous) y
          { y with defaultSink := previous } :: q' ++ (moving ++
            (between ++ .own (.unloadModule moduleId) x (x.unloadModule moduleId) :: later))) =
          (before ++ .own .getDefaultSink began began :: q) ++ .own (.setDefaultSink previous) y
            { y with defaultSink := previous } :: (q' ++ (moving ++
              (between ++ .own (.unloadModule moduleId) x (x.unloadModule moduleId) :: later))) := by simp
      rw [whole] at linked acts
      exact others_default linked.after_event
        (fun e member => acts e (List.mem_append_right _ (List.mem_cons_of_mem _ member)))
        (quietAfter.only.append (after_settling _ (fun _ => MovesBack.leaves) nofun))
    · rcases left with differs | unknown
      · exact absurd isRemote differs
      · cases known.symm.trans unknown
  · intro left
    rcases restoreDefault_run settles with ⟨isRemote, previous, _, _, _, known, _⟩ | ⟨_, quietSettling⟩
    · rcases left with differs | unknown
      · exact absurd isRemote differs
      · cases known.symm.trans unknown
    · refine others_default linked acts ?_
      have rest := quietSettling.only.append (after_settling LeavesDefault (fun _ => MovesBack.leaves) nofun)
      exact quiet.only.append (rest.cons nofun)

theorem only_unloads (only : Only (· ≠ .unloadModule moduleId) trace) : ∀ e ∈ trace, ¬ Unloads moduleId e := by
  intro e member
  cases e with
  | others a b => exact not_false
  | own command a b => exact only command a b member

theorem unloads_none (only : Only (· ≠ .unloadModule moduleId) trace) : trace.countP (Unloads moduleId) = 0 :=
  List.countP_eq_zero.mpr fun e member unloads => only_unloads only e member (of_decide_eq_true unloads)

theorem MovesBack.unloads {command : RouteCommand} (moves : MovesBack command) : command ≠ .unloadModule moduleId := by
  rintro rfl
  rcases moves with same | same | ⟨_, _, same⟩ <;> cases same

theorem restoreDefault_unloads {current : String} {t : SoundServer}
    (run : service.Run (guard.restoreDefault (some current)) s trace t ()) : Only (· ≠ .unloadModule moduleId) trace := by
  rcases restoreDefault_run run with ⟨_, _, _, _, _, _, rfl, quiet, quiet', _⟩ | ⟨_, quiet⟩
  · exact quiet.only.append (quiet'.only.cons nofun)
  · exact quiet.only

theorem Restores.linked (restores : Restores guard moduleId s trace u) : Linked s trace u := by
  cases restores with
  | parts _ linkedBefore settles moves _ linkedBetween _ linkedLater =>
    exact linkedBefore.own (settles.linked.append (moves.linked.append (linkedBetween.own linkedLater)))

theorem Restores.unloads_once (restores : Restores guard moduleId s trace u) : trace.countP (Unloads moduleId) = 1 := by
  obtain @⟨began, t, v, x, _, before, settling, moving, between, later, _, quiet, _, settles, moves, quietBetween, _,
    quietLater, _⟩ := restores
  have moving_only : Only (· ≠ .unloadModule moduleId) moving :=
    (only_of_sends moves (restoreSinkInputsFromRemote_sends _ _ _)).mono fun _ => MovesBack.unloads
  have early : Only (· ≠ .unloadModule moduleId) (before ++ .own .getDefaultSink began began ::
      (settling ++ (moving ++ between))) :=
    quiet.only.append (((restoreDefault_unloads settles).append (moving_only.append quietBetween.only)).cons nofun)
  have whole : before ++ .own .getDefaultSink began began ::
      (settling ++ (moving ++ (between ++ .own (.unloadModule moduleId) x (x.unloadModule moduleId) :: later))) =
      (before ++ .own .getDefaultSink began began :: (settling ++ (moving ++ between))) ++
        .own (.unloadModule moduleId) x (x.unloadModule moduleId) :: later := by simp
  have unloads : Unloads moduleId (.own (.unloadModule moduleId) x (x.unloadModule moduleId)) := rfl
  rw [whole, List.countP_append, unloads_none early, List.countP_cons, unloads_none quietLater.only,
    if_pos (decide_eq_true unloads)]

/-- What has landed stays when the module of the remote sink is unloaded. -/
theorem Landed.unload {remote : Sink} {moved : List SinkInputRoute} {fallback : Option String} {inputId : Nat}
    {x v : SoundServer} {between later : List RouteEvent} (landed : Landed moved fallback inputId v)
    (r : v.Remote remote moduleId) (home : ∀ sinkId, originalSink moved inputId = some sinkId → sinkId ≠ remote.id)
    (away : fallback ≠ some remote.name) (quietBetween : Quiet between) (linkedBetween : Linked v between x)
    (quietLater : Quiet later) (linkedLater : Linked (x.unloadModule moduleId) later u)
    (undisturbed : Undisturbed inputId (between ++ .own (.unloadModule moduleId) x (x.unloadModule moduleId) :: later)) :
    Landed moved fallback inputId u := by
  have quiet_acts {trace : List RouteEvent} (quiet : Quiet trace) : ∀ e ∈ trace, service.Sound e := by
    intro e member
    obtain ⟨a, b, rfl, acts⟩ := quiet e member
    exact acts
  have quiet_stays {trace : List RouteEvent} (quiet : Quiet trace) : ∀ e ∈ trace, ∀ moduleId, ¬ Unloads moduleId e := by
    intro e member
    obtain ⟨a, b, rfl, _⟩ := quiet e member
    exact fun _ => not_false
  have quiet_spares {trace : List RouteEvent} (quiet : Quiet trace) (undisturbed : Undisturbed inputId trace) :
      ∀ e ∈ trace, Spares inputId e := by
    intro e member
    refine undisturbed.spares member fun target a b same => ?_
    obtain ⟨_, _, other, _⟩ := quiet e member
    cases same.symm.trans other
  have atUnload : Landed moved fallback inputId x := landed.run linkedBetween (quiet_acts quietBetween) r.sound
    (quiet_spares quietBetween undisturbed.left) (quiet_stays quietBetween)
  have r : x.Remote remote moduleId := remote_kept r linkedBetween (quiet_acts quietBetween)
    fun e member => quiet_stays quietBetween e member moduleId
  have unloaded : Landed moved fallback inputId (x.unloadModule moduleId) := by
    refine @Landed.keep _ _ _ (.own (.unloadModule moduleId) x (x.unloadModule moduleId)) rfl r.sound atUnload trivial ?_
    intro sink member which owner owns unloads
    cases unloads
    have isRemote : sink = remote := r.alone sink member (.inr owns)
    rcases which with original | named
    · exact home sink.id original (isRemote ▸ rfl)
    · exact away (isRemote ▸ named)
  exact unloaded.run linkedLater (quiet_acts quietLater) (after_sound r.sound (.unloadModule moduleId))
    (quiet_spares quietLater fun a b member => undisturbed a b (List.mem_append_right _ (List.mem_cons_of_mem _ member)))
    (quiet_stays quietLater)

/-- Every stream that was on the remote sink has landed, if the loop is not broken off. -/
theorem Restores.lands {remote : Sink} (restores : Restores guard moduleId s trace u) (acts : ∀ e ∈ trace, service.Sound e)
    (linked : Linked s trace u) (r : s.Remote remote moduleId) (named : guard.sinkName = remote.name)
    (bounded : ∀ inputId sinkId, originalSink guard.movedSinkInputs inputId = some sinkId →
      sinkId < s.nextId ∧ sinkId ≠ remote.id)
    (apart : ∀ current, guard.fallbackSink current ≠ some remote.name) {began a : SoundServer}
    (begins : .own .getDefaultSink began a ∈ trace) (only : ∀ a b, .own .getDefaultSink a b ∈ trace → a = began)
    (unbroken : Unbroken (guard.fallbackSink (some began.defaultSink)) trace) {earlier later : List RouteEvent}
    {listed x : SoundServer} {inputId : Nat} (split : trace = earlier ++ .own .listSinkInputs listed x :: later)
    (onRemote : listed.sinkOf inputId = some remote.id) (undisturbed : Undisturbed inputId later) :
    Landed guard.movedSinkInputs (guard.fallbackSink (some began.defaultSink)) inputId u := by
  obtain @⟨began', t, v, y, _, before, settling, moving, between, last, _, quiet, linkedBefore, settles, moves, quietBetween,
    linkedBetween, quietLast, linkedLast⟩ := restores
  cases only began' began' (List.mem_append_right _ List.mem_cons_self)
  obtain ⟨q, z, rest, rfl, toLookup, quietLookup, moves⟩ := sinkIdByName_run moves
  have settling_only : Only (fun command => command ≠ .listSinkInputs ∧ command ≠ .unloadModule moduleId) settling := by
    rcases restoreDefault_run settles with ⟨_, _, _, _, _, _, rfl, quiet, quiet', _⟩ | ⟨_, quiet⟩
    · exact quiet.only.append (quiet'.only.cons ⟨nofun, nofun⟩)
    · exact quiet.only
  have lookup_only : Only (fun command => command ≠ .listSinkInputs ∧ command ≠ .unloadModule moduleId)
      [.own .listSinks z z] := .cons ⟨nofun, nofun⟩ .nil
  have start_only : Only (fun command => command ≠ .listSinkInputs ∧ command ≠ .unloadModule moduleId)
      (before ++ own RouteCommand.getDefaultSink began began :: (settling ++ (q ++ [own RouteCommand.listSinks z z]))) :=
    quiet.only.append ((settling_only.append (quietLookup.only.append lookup_only)).cons ⟨nofun, nofun⟩)
  have last_only : Only (· ≠ .listSinkInputs) (between ++ .own (.unloadModule moduleId) y (y.unloadModule moduleId) :: last) :=
    quietBetween.only.append (quietLast.only.cons nofun)
  have whole : before ++ own RouteCommand.getDefaultSink began began :: (settling ++ (q ++ .own .listSinks z z :: rest ++
      (between ++ .own (.unloadModule moduleId) y (y.unloadModule moduleId) :: last))) =
      (before ++ own RouteCommand.getDefaultSink began began :: (settling ++ (q ++ [own RouteCommand.listSinks z z]))) ++ (rest ++
      (between ++ .own (.unloadModule moduleId) y (y.unloadModule moduleId) :: last)) := by simp
  rw [whole] at split acts linked unbroken
  have atLookup : Linked s
      (before ++ own RouteCommand.getDefaultSink began began :: (settling ++ (q ++ [own RouteCommand.listSinks z z]))) z :=
    linkedBefore.own (settles.linked.append (toLookup.append (Linked.single (.own RouteCommand.listSinks z z))))
  generalize before ++ own RouteCommand.getDefaultSink began began :: (settling ++ (q ++ [own RouteCommand.listSinks z z])) = start at *
  have r : z.Remote remote moduleId := remote_kept r atLookup (fun e member => acts e (List.mem_append_left _ member))
    (only_unloads (start_only.mono fun _ => And.right))
  cases found : z.resolve (.name guard.sinkName) with
  | none =>
    rw [found] at moves
    have none_listed : Only (· ≠ .listSinkInputs) (start ++ (rest ++ (between ++
        .own (.unloadModule moduleId) y (y.unloadModule moduleId) :: last))) :=
      (start_only.mono fun _ => And.left).append (Quiet.only moves.over.2 |>.append last_only)
    rw [split] at none_listed
    exact absurd rfl (none_listed _ listed x (List.mem_append_right _ List.mem_cons_self))
  | some sink =>
    rw [found] at moves
    obtain ⟨q', l, loop, rfl, toList, quietList, loops⟩ := listSinkInputs_run moves
    have whole : start ++ (q' ++ .own .listSinkInputs l l :: loop ++ (between ++
        .own (.unloadModule moduleId) y (y.unloadModule moduleId) :: last)) = (start ++ q') ++ .own .listSinkInputs l l ::
        (loop ++ (between ++ .own (.unloadModule moduleId) y (y.unloadModule moduleId) :: last)) := by simp
    rw [whole] at split acts unbroken linked
    have before_only : Only (· ≠ .listSinkInputs) (start ++ q') := (start_only.mono fun _ => And.left).append quietList.only
    have loop_only : Only (fun command => command ≠ .listSinkInputs ∧ command ≠ .unloadModule moduleId) loop :=
      (only_of_sends loops (restoreRoutes_sends _ _ _)).mono fun command moves => by
        obtain ⟨_, _, _, rfl⟩ := moves
        exact ⟨nofun, nofun⟩
    have after_only := (loop_only.mono fun _ => And.left).append last_only
    obtain ⟨rfl, same, rfl⟩ := split_once split
      (fun e member (isList : ∃ a b, e = .own .listSinkInputs a b) => by
        obtain ⟨a, b, rfl⟩ := isList
        exact before_only _ a b member rfl)
      (fun e member (isList : ∃ a b, e = .own .listSinkInputs a b) => by
        obtain ⟨a, b, rfl⟩ := isList
        exact after_only _ a b member rfl) ⟨listed, x, rfl⟩
    cases same
    have actsLoop : ∀ e ∈ loop, service.Sound e :=
      fun e member => acts e (List.mem_append_right _ (List.mem_cons_of_mem _ (List.mem_append_left _ member)))
    have actsList : ∀ e ∈ q', service.Sound e :=
      fun e member => acts e (List.mem_append_left _ (List.mem_append_right _ member))
    have quietUnloads : ∀ e ∈ q', ¬ Unloads moduleId e := only_unloads quietList.only
    have atList : listed.Remote remote moduleId := remote_kept r toList actsList quietUnloads
    have isListed : ⟨inputId, remote.id⟩ ∈ listed.sinkInputs := sinkOf_mem onRemote
    rw [named] at found
    have sameId : remote.id = sink.id := by
      by_contra differs
      exact listed_elsewhere r toList actsList quietUnloads found isListed differs rfl
    have grown : s.nextId ≤ listed.nextId := linked_grows linked.before_event fun e member => acts e (List.mem_append_left _ member)
    have landed := restoreRoutes_lands loops
      (fun id target a b member => unbroken id target a b (List.mem_append_right _ (List.mem_cons_of_mem _
        (List.mem_append_left _ member)))) atList.sound
      (fun id sinkId had => Nat.lt_of_lt_of_le (bounded id sinkId had).1 grown)
      (atList.sound.inputs.sublist (List.filter_sublist.map _))
      (List.mem_map.mpr ⟨_, List.mem_filter.mpr ⟨isListed, decide_eq_true sameId⟩, rfl⟩) undisturbed.left
    have loaded := remote_kept atList loops.linked actsLoop (only_unloads (loop_only.mono fun _ => And.right))
    exact landed.unload loaded (fun sinkId had => (bounded inputId sinkId had).2) (apart _) quietBetween linkedBetween quietLast
      linkedLast undisturbed.right

theorem load_remote {name : String} {t : SoundServer} (sound : s.Sound) (loaded : s.loadNullSink name = some t) :
    t.Remote ⟨s.nextId + 1, name, some s.nextId⟩ s.nextId := by
  have loadedSound := load_sound sound loaded
  obtain ⟨_, same⟩ := Option.ite_none_left_eq_some.mp loaded
  cases same
  refine ⟨loadedSound, ⟨Nat.lt_add_of_pos_right Nat.two_pos, Nat.lt_succ_self _⟩, rfl, fun sink member which => ?_,
    fun _ _ _ => List.mem_cons_self⟩
  rcases List.mem_cons.mp member with rfl | old
  · rfl
  · rcases which with same | same
    · have known := sound.sinkIds sink old
      have same : sink.id = s.nextId + 1 := same
      omega
    · exact absurd (sound.owners sink old s.nextId same) (Nat.lt_irrefl _)

theorem loadRemoteSink_spec {name : String} {pid : Nat} {isAlive : Nat → Bool} (sound : s.Sound)
    (run : service.Run (loadRemoteSink name pid isAlive) s trace u (some guard)) : ∃ previous moduleId remote,
      guard = ⟨name, usablePreviousSink (some previous), [], some moduleId, false⟩ ∧ remote.name = name ∧
      u.Remote remote moduleId := by
  have acts := fun e => run.sound (e := e)
  have linked := run.linked
  unfold loadRemoteSink at run
  obtain ⟨cleaning, rest, w, _, rfl, _, reads⟩ := Run.bind run
  obtain ⟨before, x, rest, rfl, _, _, loads⟩ := getDefaultSink_run reads
  obtain ⟨between, y, later, rfl, _, _, ends⟩ := Run.sent loads
  have whole : cleaning ++ (before ++ .own .getDefaultSink x x :: (between ++ .own (.loadNullSink name) y
      (service.after (.loadNullSink name) y) :: later)) = (cleaning ++ (before ++ .own .getDefaultSink x x :: between)) ++
      .own (.loadNullSink name) y (service.after (.loadNullSink name) y) :: later := by simp
  rw [whole] at linked acts
  have soundThen : y.Sound := linked.before_event.keeps
    (fun e member => sound_kept (acts e (List.mem_append_left _ member))) sound
  have replies : service.reply (.loadNullSink name) y = (y.loadNullSink name).map fun _ => some y.nextId := rfl
  have becomes : service.after (.loadNullSink name) y = (y.loadNullSink name).getD y := rfl
  rw [replies, becomes] at ends
  cases loaded : y.loadNullSink name with
  | none =>
    rw [loaded] at ends
    cases ends.over.1
  | some t =>
    rw [loaded] at ends
    obtain ⟨same, quiet⟩ := ends.over
    refine ⟨x.defaultSink, y.nextId, ⟨y.nextId + 1, name, some y.nextId⟩, Option.some.inj same, rfl, ?_⟩
    exact remote_kept (load_remote soundThen loaded) ends.linked
      (fun e member => ends.sound member) (only_unloads (Quiet.only quiet))

theorem nextRemoteSinkName_starts (pid id : Nat) : startsWithRemoteName (nextRemoteSinkName pid id) = true := by
  unfold startsWithRemoteName nextRemoteSinkName
  simp only [String.toList_append, List.append_assoc]
  exact List.isPrefixOf_iff_prefix.mpr (List.prefix_append _ _)

/-- The fallback is never the remote sink. -/
theorem fallbackSink_apart {name : String} {previous : Option String} {moved : List SinkInputRoute} {moduleId : Option Nat}
    {restored : Bool} (starts : startsWithRemoteName name = true) (current : Option String) :
    RedirectRouteGuard.fallbackSink ⟨name, usablePreviousSink previous, moved, moduleId, restored⟩ current ≠ some name := by
  unfold RedirectRouteGuard.fallbackSink
  cases chosen : current.filter fun current => current ≠ name with
  | some current =>
    intro same
    cases same
    exact of_decide_eq_true (Option.filter_eq_some_iff.mp chosen).2 rfl
  | none =>
    intro same
    have usable := (Option.filter_eq_some_iff.mp same).2
    rw [starts] at usable
    cases usable

/-- Where a stream that was on the remote sink is put, for those that others leave alone. -/
def StreamsBack (guard : RedirectRouteGuard) (remote : Sink) (began : SoundServer) (activating restoring : List RouteEvent)
    (u : SoundServer) : Prop :=
  ∀ earlier listed x later inputId, restoring = earlier ++ .own .listSinkInputs listed x :: later →
    listed.sinkOf inputId = some remote.id → Undisturbed inputId later →
    (∀ sinkId, TakenFrom activating inputId sinkId → u.HasSink sinkId → u.sinkOf inputId = some sinkId) ∧
    ((∀ sinkId, TakenFrom activating inputId sinkId → ¬ u.HasSink sinkId) →
      ∀ name, guard.fallbackSink (some began.defaultSink) = some name → ∃ sink, sink.name = name ∧ u.PlaysTo inputId sink)

/-- What a redirection leaves behind, if its remote sink was loaded. The streams are all put back as long as activation finds
them where it listed them and nothing breaks off the loop of the restoration. -/
def RedirectEnds (name : String) (pid : Nat) (isAlive : Nat → Bool) (s : SoundServer) (trace : List RouteEvent)
    (u : SoundServer) : Prop :=
  ∃ loading rest loaded result, trace = loading ++ rest ∧ service.Run (loadRemoteSink name pid isAlive) s loading loaded result ∧
    ∀ guard, result = some guard → ∃ activating restoring active ok guard' moduleId remote began,
      rest = activating ++ restoring ∧ service.Run guard.activate loaded activating active (ok, guard') ∧
      guard.moduleId = some moduleId ∧ loaded.Remote remote moduleId ∧ remote.name = guard.sinkName ∧
      rest.countP (Unloads moduleId) = 1 ∧
      .own .getDefaultSink began began ∈ restoring ∧ (∀ a b, .own .getDefaultSink a b ∈ restoring → a = began) ∧
      DefaultBack guard began active restoring u ∧
      (Steady activating → Unbroken (guard.fallbackSink (some began.defaultSink)) restoring →
        StreamsBack guard remote began activating restoring u)

theorem redirect_puts_back {pid id : Nat} {isAlive : Nat → Bool} (sound : s.Sound)
    (run : service.Run (redirectSession (nextRemoteSinkName pid id) pid isAlive) s trace u ()) :
    RedirectEnds (nextRemoteSinkName pid id) pid isAlive s trace u := by
  have acts := fun e => run.sound (e := e)
  obtain ⟨loading, rest, loaded, result, rfl, loads, goesOn⟩ := session_run run
  refine ⟨loading, rest, loaded, result, rfl, loads, ?_⟩
  rintro guard rfl
  obtain ⟨activating, restoring, active, ok, guard', rfl, activates, restores⟩ := goesOn guard rfl
  obtain ⟨previous, moduleId, remote, rfl, named, r⟩ := loadRemoteSink_spec sound loads
  obtain ⟨moved, rfl, bounded, taken⟩ := activate_spec activates rfl r named.symm
  have parts := restores rfl moduleId rfl
  have actsRestoring : ∀ e ∈ restoring, service.Sound e :=
    fun e member => acts e (List.mem_append_right _ (List.mem_append_right _ member))
  have unloadsLater : ∀ e ∈ activating, ¬ Unloads moduleId e := fun e member => activating_unloads activates member moduleId
  have atRestoring : active.Remote remote moduleId := remote_kept r activates.linked (fun e => activates.sound) unloadsLater
  obtain ⟨began, begins, only, back⟩ := parts.default_back actsRestoring parts.linked
  refine ⟨activating, restoring, active, ok, _, moduleId, remote, began, rfl, activates, rfl, r, named, ?_, begins, only,
    ⟨back.reset, back.left⟩, fun steady unbroken earlier listed x later inputId split onRemote undisturbed => ?_⟩
  · have none_before : activating.countP (Unloads moduleId) = 0 :=
      List.countP_eq_zero.mpr fun e member unloads => unloadsLater e member (of_decide_eq_true unloads)
    rw [List.countP_append, none_before, parts.unloads_once]
  · have apart (current : Option String) : RedirectRouteGuard.fallbackSink
        ⟨nextRemoteSinkName pid id, usablePreviousSink (some previous), moved, some moduleId, false⟩ current ≠ some remote.name :=
      named ▸ fallbackSink_apart (nextRemoteSinkName_starts pid id) current
    have landed := parts.lands actsRestoring parts.linked atRestoring named.symm bounded apart begins only unbroken split onRemote
      undisturbed
    have known := taken steady inputId
    cases landed with
    | home sink plays original =>
      refine ⟨fun sinkId isTaken _ => ?_, fun gone => ?_⟩
      · cases original.symm.trans ((known sinkId).mpr isTaken)
        exact plays.2
      · exact absurd (List.mem_map_of_mem plays.1) (gone sink.id ((known sink.id).mp original))
    | away sink plays isFallback gone =>
      refine ⟨fun sinkId isTaken has => ?_, fun _ name chosen => ?_⟩
      · exact absurd has (gone sinkId ((known sinkId).mpr isTaken)).2
      · exact ⟨sink, Option.some.inj (isFallback.symm.trans chosen), plays⟩
    | nowhere untracked unknown =>
      refine ⟨fun sinkId isTaken _ => ?_, fun _ name chosen => ?_⟩
      · cases untracked.symm.trans ((known sinkId).mpr isTaken)
      · cases unknown.symm.trans chosen

/-- Two sinks, and a stream on each. -/
def desk : SoundServer where
  defaultSink := "speakers"
  sinks := [⟨1, "speakers", none⟩, ⟨2, "headset", none⟩]
  sinkInputs := [⟨10, 1⟩, ⟨11, 2⟩]
  modules := []
  nextId := 20

/-- The same server with the remote sink, to which these streams play. -/
def deskRemote (defaultSink : String) (sinkInputs : List SinkInputRoute) : SoundServer where
  defaultSink
  sinks := ⟨21, nextRemoteSinkName 7 1, some 20⟩ :: desk.sinks
  sinkInputs
  modules := [⟨20, "module-null-sink", some (nextRemoteSinkName 7 1)⟩]
  nextId := 22

def deskSession (plan : List (Option SoundServer)) : List RouteEvent × SoundServer × Unit :=
  service.play (redirectSession (nextRemoteSinkName 7 1) 7 fun _ => true) desk plan

/-- The first stream ends between the listing and its turn, and the second one is left on the remote sink that is unloaded,
though the sink that it was taken from is there. -/
theorem ended_stream_breaks_off : ∃ trace u earlier listed later, desk.Sound ∧
    service.Run (redirectSession (nextRemoteSinkName 7 1) 7 fun _ => true) desk trace u () ∧
    trace = earlier ++ .own .listSinkInputs listed listed :: later ∧ Undisturbed 11 later ∧
    ⟨21, nextRemoteSinkName 7 1, some 20⟩ ∈ listed.sinks ∧ listed.sinkOf 11 = some 21 ∧ TakenFrom earlier 11 2 ∧
    u.HasSink 2 ∧ u.sinkOf 11 = some 21 ∧ ¬ u.HasSink 21 := by
  have plays : ∀ e ∈ (deskSession (List.replicate 12 none ++ [some (deskRemote "speakers" [⟨11, 21⟩])])).1, service.Sound e := by
    decide
  have run := Service.play_run _ _ _ plays
  have spared : ∀ e ∈ (deskSession (List.replicate 12 none ++ [some (deskRemote "speakers" [⟨11, 21⟩])])).1.drop 12,
      Spares 11 e := by
    decide
  refine ⟨_, _, (deskSession (List.replicate 12 none ++ [some (deskRemote "speakers" [⟨11, 21⟩])])).1.take 11,
    deskRemote "speakers" [⟨10, 21⟩, ⟨11, 21⟩], _, by decide, run, by decide, fun a b member => spared _ member,
    by decide, by decide, ?_, by decide, by decide, by decide⟩
  exact ⟨.name (nextRemoteSinkName 7 1), deskRemote (nextRemoteSinkName 7 1) [⟨10, 21⟩, ⟨11, 2⟩],
    deskRemote (nextRemoteSinkName 7 1) [⟨10, 21⟩, ⟨11, 21⟩], by decide, by decide, by decide⟩

/-- Nobody interferes: both streams are back where they were. -/
theorem redirect_puts_back_once : ∃ trace u, RedirectEnds (nextRemoteSinkName 7 1) 7 (fun _ => true) desk trace u ∧
    u.sinkOf 10 = some 1 ∧ u.sinkOf 11 = some 2 ∧ u.defaultSink = "speakers" := by
  have plays : ∀ e ∈ (deskSession []).1, service.Sound e := by
    decide
  have run := Service.play_run _ _ _ plays
  exact ⟨_, _, redirect_puts_back (by decide) run, by decide, by decide, by decide⟩

end HyprRdp
