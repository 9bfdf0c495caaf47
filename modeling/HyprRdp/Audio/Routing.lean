import HyprRdp.Lib.Scripts
import Mathlib.Data.List.Basic

namespace HyprRdp

structure Sink where
  id : Nat
  name : String
  /-- The module that it came with, if it is known. -/
  owner : Option Nat
  deriving DecidableEq

/-- A stream and the sink it plays to. -/
structure SinkInputRoute where
  inputId : Nat
  sinkId : Nat
  deriving DecidableEq

structure SoundModule where
  id : Nat
  name : String
  /-- What its argument says after "sink_name=". -/
  sinkName : Option String
  deriving DecidableEq

/-- A sink is named to the server by its id or by its name. -/
inductive SinkTarget
  | id (sinkId : Nat)
  | name (name : String)
  deriving DecidableEq

inductive RouteCommand
  | getDefaultSink
  | setDefaultSink (name : String)
  | listSinks
  | listSinkInputs
  | listModules
  | loadNullSink (sinkName : String)
  | unloadModule (moduleId : Nat)
  | moveSinkInput (inputId : Nat) (target : SinkTarget)
  deriving DecidableEq

/-- What a command prints, as it is parsed. -/
def RouteCommand.Output : RouteCommand → Type
  | .getDefaultSink => Option String
  | .listSinks => List Sink
  | .listSinkInputs => List SinkInputRoute
  | .listModules => List SoundModule
  | .loadNullSink _ => Option Nat
  | .setDefaultSink _ | .unloadModule _ | .moveSinkInput _ _ => Unit

/-- A command may fail. -/
abbrev RouteCommand.Reply (command : RouteCommand) : Type := Option command.Output

abbrev RouteScript (α : Type) := Script RouteCommand RouteCommand.Reply α

structure SoundServer where
  defaultSink : String
  sinks : List Sink
  sinkInputs : List SinkInputRoute
  modules : List SoundModule
  nextId : Nat
  deriving DecidableEq

namespace SoundServer

variable (s : SoundServer)

def sinkOf (inputId : Nat) : Option Nat := (s.sinkInputs.find? fun route => route.inputId = inputId).map (·.sinkId)

def HasSink (sinkId : Nat) : Prop := sinkId ∈ s.sinks.map (·.id)

instance (sinkId : Nat) : Decidable (s.HasSink sinkId) := inferInstanceAs (Decidable (_ ∈ _))

def resolve : SinkTarget → Option Sink
  | .id sinkId => s.sinks.find? fun sink => sink.id = sinkId
  | .name name => s.sinks.find? fun sink => sink.name = name

def put (inputId sinkId : Nat) : SoundServer :=
  { s with sinkInputs := s.sinkInputs.map fun route => if route.inputId = inputId then ⟨inputId, sinkId⟩ else route }

/-- It fails exactly if the stream or the sink is not there. -/
def move (inputId : Nat) (target : SinkTarget) : Option SoundServer :=
  match s.resolve target with
  | none => none
  | some sink => if s.sinkOf inputId = none then none else some (s.put inputId sink.id)

/-- The module gets the next id, and its sink the one after it. A name that is taken cannot be used again. -/
def loadNullSink (sinkName : String) : Option SoundServer :=
  if sinkName ∈ s.sinks.map (·.name) then none
  else some { s with
    sinks := ⟨s.nextId + 1, sinkName, some s.nextId⟩ :: s.sinks
    modules := ⟨s.nextId, "module-null-sink", some sinkName⟩ :: s.modules
    nextId := s.nextId + 2 }

/-- Its sink goes with it. What still plays there is not heard any more. -/
def unloadModule (moduleId : Nat) : SoundServer :=
  { s with
    sinks := s.sinks.filter fun sink => sink.owner ≠ some moduleId
    modules := s.modules.filter fun loaded => loaded.id ≠ moduleId }

def reply : (command : RouteCommand) → SoundServer → command.Reply
  | .getDefaultSink, s => some (some s.defaultSink)
  | .setDefaultSink _, _ => some ()
  | .listSinks, s => some s.sinks
  | .listSinkInputs, s => some s.sinkInputs
  | .listModules, s => some s.modules
  | .loadNullSink sinkName, s => (s.loadNullSink sinkName).map fun _ => some s.nextId
  | .unloadModule _, _ => some ()
  | .moveSinkInput inputId target, s => (s.move inputId target).map fun _ => ()

def after : RouteCommand → SoundServer → SoundServer
  | .setDefaultSink name, s => { s with defaultSink := name }
  | .loadNullSink sinkName, s => (s.loadNullSink sinkName).getD s
  | .unloadModule moduleId, s => s.unloadModule moduleId
  | .moveSinkInput inputId target, s => (s.move inputId target).getD s
  | .getDefaultSink, s | .listSinks, s | .listSinkInputs, s | .listModules, s => s

/-- Streams and sinks are told apart by their ids, sinks also by their names. All ids have been given out. -/
structure Sound (s : SoundServer) : Prop where
  inputs : (s.sinkInputs.map (·.inputId)).Nodup
  ids : (s.sinks.map (·.id)).Nodup
  names : (s.sinks.map (·.name)).Nodup
  sinkIds : ∀ sink ∈ s.sinks, sink.id < s.nextId
  owners : ∀ sink ∈ s.sinks, ∀ owner ∈ sink.owner, owner < s.nextId
  routes : ∀ route ∈ s.sinkInputs, route.sinkId < s.nextId

/-- Other programs change the default, add and remove streams and sinks, and move streams. Ids are not given out twice,
and a stream that plays to a sink does not stay on it when the sink is taken away. -/
structure Others (s t : SoundServer) : Prop where
  sound : t.Sound
  grows : s.nextId ≤ t.nextId
  sinks : ∀ sink ∈ t.sinks, sink ∈ s.sinks ∨ (s.nextId ≤ sink.id ∧ ∀ owner ∈ sink.owner, s.nextId ≤ owner)
  placed : ∀ route ∈ t.sinkInputs, t.HasSink route.sinkId ∨ (route ∈ s.sinkInputs ∧ ¬ s.HasSink route.sinkId)

instance (s : SoundServer) : Decidable s.Sound :=
  decidable_of_iff ((s.sinkInputs.map (·.inputId)).Nodup ∧ (s.sinks.map (·.id)).Nodup ∧ (s.sinks.map (·.name)).Nodup ∧
    (∀ sink ∈ s.sinks, sink.id < s.nextId) ∧ (∀ sink ∈ s.sinks, ∀ owner ∈ sink.owner, owner < s.nextId) ∧
    ∀ route ∈ s.sinkInputs, route.sinkId < s.nextId)
    ⟨fun ⟨inputs, ids, names, sinkIds, owners, routes⟩ => ⟨inputs, ids, names, sinkIds, owners, routes⟩,
      fun sound => ⟨sound.inputs, sound.ids, sound.names, sound.sinkIds, sound.owners, sound.routes⟩⟩

instance (s t : SoundServer) : Decidable (Others s t) :=
  decidable_of_iff (t.Sound ∧ s.nextId ≤ t.nextId ∧
    (∀ sink ∈ t.sinks, sink ∈ s.sinks ∨ (s.nextId ≤ sink.id ∧ ∀ owner ∈ sink.owner, s.nextId ≤ owner)) ∧
    ∀ route ∈ t.sinkInputs, t.HasSink route.sinkId ∨ (route ∈ s.sinkInputs ∧ ¬ s.HasSink route.sinkId))
    ⟨fun ⟨sound, grows, sinks, placed⟩ => ⟨sound, grows, sinks, placed⟩,
      fun acts => ⟨acts.sound, acts.grows, acts.sinks, acts.placed⟩⟩

def service : Service RouteCommand RouteCommand.Reply SoundServer := ⟨reply, after, Others⟩

instance (s t : SoundServer) : Decidable (service.others s t) := inferInstanceAs (Decidable (Others s t))

end SoundServer

abbrev RouteEvent := ServiceEvent RouteCommand SoundServer

def defaultRemoteSinkName : String := "hypr_rdp_remote_audio"

def nextRemoteSinkName (pid id : Nat) : String := defaultRemoteSinkName ++ "_" ++ toString pid ++ "_" ++ toString id

def startsWithRemoteName (name : String) : Bool := defaultRemoteSinkName.toList.isPrefixOf name.toList

def usablePreviousSink (name : Option String) : Option String := name.filter fun name => !startsWithRemoteName name

def parsePid (text : List Char) : Option Nat :=
  let digits := if text.head? = some '+' then text.tail else text
  if digits.isEmpty = false ∧ digits.all Char.isDigit = true then
    let pid := digits.foldl (fun n c => 10 * n + (c.toNat - '0'.toNat)) 0
    if pid < 0x100000000 then some pid else none
  else none

def ownerPidOfRemoteSink (sinkName : String) : Option Nat :=
  if startsWithRemoteName sinkName then
    let tail := sinkName.toList.drop defaultRemoteSinkName.toList.length
    if tail.head? = some '_' ∧ '_' ∈ tail.tail then parsePid (tail.tail.takeWhile fun c => c ≠ '_') else none
  else none

/-- The server handles one session at a time, so its own sinks that are there before are stale. -/
def orphanedRemoteSinkModules (modules : List SoundModule) (currentPid : Nat) (isAlive : Nat → Bool) : List Nat :=
  modules.filterMap fun loaded =>
    if loaded.name ≠ "module-null-sink" then none
    else (loaded.sinkName.bind ownerPidOfRemoteSink).bind fun pid =>
      if pid = currentPid ∨ isAlive pid = false then some loaded.id else none

def pactl (command : RouteCommand) : RouteScript (Option command.Output) := .call command

def unloadModules : List Nat → RouteScript Unit
  | [] => pure ()
  | moduleId :: rest => do
    let _ ← pactl (.unloadModule moduleId)
    unloadModules rest

def unloadOrphanedRemoteSinks (currentPid : Nat) (isAlive : Nat → Bool) : RouteScript Unit := do
  match ← pactl .listModules with
  | some modules => unloadModules (orphanedRemoteSinkModules modules currentPid isAlive)
  | none => pure ()

def sinkIdByName (sinkName : String) : RouteScript (Option (Option Nat)) := do
  let sinks ← pactl .listSinks
  pure (sinks.map fun sinks => (List.find? (fun sink : Sink => sink.name = sinkName) sinks).map (·.id))

def moveSinkInput (inputId : Nat) (target : SinkTarget) : RouteScript Bool := do
  let moved ← pactl (.moveSinkInput inputId target)
  pure moved.isSome

/-- The streams are moved one after the other, up to the first that cannot be moved. -/
def moveRoutes (targetSink : String) (targetSinkId : Nat) :
    List SinkInputRoute → List SinkInputRoute → RouteScript (Bool × List SinkInputRoute)
  | [], moved => pure (true, moved)
  | route :: rest, moved =>
    if route.sinkId = targetSinkId then moveRoutes targetSink targetSinkId rest moved
    else do
      match ← moveSinkInput route.inputId (.name targetSink) with
      | true => moveRoutes targetSink targetSinkId rest (moved ++ [route])
      | false => pure (false, moved)

def moveAllSinkInputs (targetSink : String) (targetSinkId : Nat) (moved : List SinkInputRoute) :
    RouteScript (Bool × List SinkInputRoute) := do
  match ← pactl .listSinkInputs with
  | some routes => moveRoutes targetSink targetSinkId routes moved
  | none => pure (false, moved)

def originalSink (moved : List SinkInputRoute) (inputId : Nat) : Option Nat :=
  (moved.find? fun route => route.inputId = inputId).map (·.sinkId)

/-- A stream whose own sink refuses it is tried on the fallback, and one that cannot be moved at all ends the loop. -/
def restoreRoutes (moved : List SinkInputRoute) (fallbackSink : Option String) : List SinkInputRoute → RouteScript Bool
  | [] => pure true
  | route :: rest =>
    match (originalSink moved route.inputId).map SinkTarget.id, fallbackSink.map SinkTarget.name with
    | none, none => restoreRoutes moved fallbackSink rest
    | some original, some fallback => do
      match ← moveSinkInput route.inputId original with
      | true => restoreRoutes moved fallbackSink rest
      | false =>
        if original = fallback then pure false
        else
          match ← moveSinkInput route.inputId fallback with
          | true => restoreRoutes moved fallbackSink rest
          | false => pure false
    | some target, none | none, some target => do
      match ← moveSinkInput route.inputId target with
      | true => restoreRoutes moved fallbackSink rest
      | false => pure false

def restoreSinkInputsFromRemote (sourceSinkName : String) (moved : List SinkInputRoute) (fallbackSink : Option String) :
    RouteScript Bool := do
  match ← sinkIdByName sourceSinkName with
  | none => pure false
  | some none => pure true
  | some (some sourceSinkId) =>
    match ← pactl .listSinkInputs with
    | none => pure false
    | some routes =>
      restoreRoutes moved fallbackSink (List.filter (fun route : SinkInputRoute => route.sinkId = sourceSinkId) routes)

structure RedirectRouteGuard where
  sinkName : String
  previousDefaultSink : Option String
  movedSinkInputs : List SinkInputRoute
  moduleId : Option Nat
  restored : Bool

namespace RedirectRouteGuard

variable (guard : RedirectRouteGuard)

def activate : RouteScript (Bool × RedirectRouteGuard) := do
  match ← pactl (.setDefaultSink guard.sinkName) with
  | none => pure (false, guard)
  | some _ =>
    match ← sinkIdByName guard.sinkName with
    | some (some remoteSinkId) =>
      let (activated, moved) ← moveAllSinkInputs guard.sinkName remoteSinkId guard.movedSinkInputs
      pure (activated, { guard with movedSinkInputs := moved })
    | _ => pure (false, guard)

def shouldRestoreDefault (currentDefaultSink : Option String) : Bool :=
  match currentDefaultSink with
  | some current => current = guard.sinkName
  | none => true

def restoreDefault (currentDefaultSink : Option String) : RouteScript Unit :=
  match guard.previousDefaultSink with
  | some previous =>
    if guard.shouldRestoreDefault currentDefaultSink then do
      let _ ← pactl (.setDefaultSink previous)
      pure ()
    else pure ()
  | none => pure ()

/-- The default that others chose, else the previous one. -/
def fallbackSink (currentDefaultSink : Option String) : Option String :=
  match currentDefaultSink.filter (fun current => current ≠ guard.sinkName), guard.previousDefaultSink with
  | some current, _ => some current
  | none, previous => previous

def unloadOwnModule : RouteScript Unit :=
  match guard.moduleId with
  | some moduleId => do
    let _ ← pactl (.unloadModule moduleId)
    pure ()
  | none => pure ()

def restore : RouteScript RedirectRouteGuard :=
  if guard.restored then pure guard
  else do
    let currentDefaultSink ← pactl .getDefaultSink
    guard.restoreDefault currentDefaultSink.join
    let _ ← restoreSinkInputsFromRemote guard.sinkName guard.movedSinkInputs (guard.fallbackSink currentDefaultSink.join)
    guard.unloadOwnModule
    pure { guard with moduleId := none, restored := true }

end RedirectRouteGuard

/-- What comes before the guard: the default is read and the remote sink is loaded. -/
def loadRemoteSink (sinkName : String) (currentPid : Nat) (isAlive : Nat → Bool) :
    RouteScript (Option RedirectRouteGuard) := do
  unloadOrphanedRemoteSinks currentPid isAlive
  match ← pactl .getDefaultSink with
  | none => pure none
  | some previous =>
    match ← pactl (.loadNullSink sinkName) with
    | some (some moduleId) => pure (some ⟨sinkName, usablePreviousSink previous, [], some moduleId, false⟩)
    | _ => pure none

/-- A guard that does not come about is dropped here, after it has been restored. -/
def startRedirect (sinkName : String) (currentPid : Nat) (isAlive : Nat → Bool) : RouteScript (Option RedirectRouteGuard) := do
  match ← loadRemoteSink sinkName currentPid isAlive with
  | none => pure none
  | some guard =>
    match ← guard.activate with
    | (true, guard) => pure (some guard)
    | (false, guard) => do
      let guard ← guard.restore
      let _ ← guard.restore
      pure none

/-- The whole time of a redirection, up to the drop of the guard. -/
def redirectSession (sinkName : String) (currentPid : Nat) (isAlive : Nat → Bool) : RouteScript Unit := do
  match ← startRedirect sinkName currentPid isAlive with
  | none => pure ()
  | some guard => do
    let _ ← guard.restore
    pure ()

end HyprRdp
