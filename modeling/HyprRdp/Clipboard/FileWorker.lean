import HyprRdp.Clipboard.FrozenSelection
import Mathlib.Algebra.Order.Group.Multiset
import Mathlib.Algebra.Ring.Nat
import Mathlib.Algebra.BigOperators.Group.List.Basic

namespace HyprRdp

def sizeResponseBytes : Nat := 8

def readQueueDepth : Nat := 64

/-- A file of a selection, as a read uses it. -/
structure FrozenFile where
  path : List UInt8
  device : Nat
  inode : Nat
  deriving DecidableEq

/-- `sizeFlag` and `rangeFlag` are the two defined bits of the request's flags. -/
structure FileContentsRequest where
  streamId : Nat
  index : Int
  sizeFlag : Bool
  rangeFlag : Bool
  position : Nat
  requestedSize : Nat
  dataId : Option Nat
  deriving DecidableEq

inductive FileContents
  | error
  | size (bytes : Nat)
  | data (bytes : List UInt8)
  deriving DecidableEq

structure FileContentsResponse where
  streamId : Nat
  contents : FileContents
  deriving DecidableEq

def FileContentsResponse.newError (streamId : Nat) : FileContentsResponse := ⟨streamId, .error⟩

inductive RequestedOperation
  | size
  | range (position length : Nat)

def requestedOperation (request : FileContentsRequest) : Option RequestedOperation :=
  match request.sizeFlag, request.rangeFlag with
  | true, false =>
    if request.position = 0 ∧ request.requestedSize = sizeResponseBytes then some .size else none
  | false, true => some (.range request.position request.requestedSize)
  | _, _ => none

structure Metadata where
  dev : Nat
  ino : Nat
  isFile : Bool
  len : Nat

/-- What one read meets at an opened path; each call may fail. -/
structure OpenedFile where
  metadata : Option Metadata
  seek : Nat → Bool
  read : Nat → Nat → Option (List UInt8)

def readFrozenFileWithOpen (file : Option FrozenFile) (request : FileContentsRequest) (maxChunkBytes : Nat)
    (openPath : List UInt8 → Option OpenedFile) : FileContentsResponse :=
  let error := FileContentsResponse.newError request.streamId
  match requestedOperation request, file with
  | none, _ => error
  | some _, none => error
  | some operation, some file =>
    match openPath file.path with
    | none => error
    | some source =>
      match source.metadata with
      | none => error
      | some metadata =>
        if metadata.dev ≠ file.device ∨ metadata.ino ≠ file.inode ∨ metadata.isFile = false then error
        else
          match operation with
          | .size => ⟨request.streamId, .size metadata.len⟩
          | .range position length =>
            if maxChunkBytes < length then error
            else if source.seek position = false then error
            else
              match source.read position length with
              | some bytes => ⟨request.streamId, .data (bytes.take length)⟩
              | none => error

theorem readFrozenFileWithOpen_streamId (file : Option FrozenFile) (request : FileContentsRequest)
    (maxChunkBytes : Nat) (openPath : List UInt8 → Option OpenedFile) :
    (readFrozenFileWithOpen file request maxChunkBytes openPath).streamId = request.streamId := by
  unfold readFrozenFileWithOpen FileContentsResponse.newError
  dsimp only
  repeat' split
  all_goals rfl

theorem readFrozenFileWithOpen_none (request : FileContentsRequest) (maxChunkBytes : Nat)
    (openPath : List UInt8 → Option OpenedFile) :
    readFrozenFileWithOpen none request maxChunkBytes openPath = .newError request.streamId := by
  unfold readFrozenFileWithOpen
  dsimp only
  cases requestedOperation request <;> rfl

/-- A read on its way: the request, the file found for it, and a running number the code does not have. -/
structure PendingRead where
  number : Nat
  request : FileContentsRequest
  file : Option FrozenFile

inductive FileWorkerCommand
  | wake
  | read (pending : PendingRead)

/-- How far a read has come in the callback. -/
inductive CallbackStage
  | idle
  | resolved (pending : PendingRead)
  | refused (pending : PendingRead)

/-- How far the watcher's `freeze` has come. -/
inductive WatcherStage
  | idle
  | invalidated (generation : Nat)
  | permitted (generation : Nat)
  | handedOver

inductive WorkerStage
  | turn
  | looking
  | freezing (generation : Nat)
  | receiving
  | serving (pending : PendingRead)
  | answered (number : Nat) (response : FileContentsResponse)
  | sending (number : Nat) (response : FileContentsResponse)
  | ended

/-- A request made so far, with the selection as it stood then. -/
structure MadeRead where
  request : FileContentsRequest
  selection : FrozenSelection FrozenFile

/-- The file worker with all that reaches it: the selection, the command
queue, the slot of the newest selection (its generation; the paths are for the
walk alone), and the calls under way in each thread. `made` and `answers` are
the history: the requests made, and the responses sent with the number of the
request they answer. -/
structure FileWorker where
  exchange : Exchange FrozenFile
  commands : List FileWorkerCommand
  selection : Option Nat
  stopping : Bool
  connected : Bool
  callback : CallbackStage
  watcher : WatcherStage
  worker : WorkerStage
  made : List MadeRead
  answers : List (Nat × FileContentsResponse)

namespace FileWorker

/-- One step of a thread. What a walk finds and what a read meets in the file
system is up to the environment. -/
inductive Action
  | select (op : Exchange.Operation FrozenFile)
  | request (request : FileContentsRequest)
  | submit
  | refuse
  | freeze
  | checkStream
  | handOver
  | wakeWorker
  | turn
  | takeSelection
  | publish (frozen : List FrozenFile)
  | receive
  | serve (openPath : List UInt8 → Option OpenedFile)
  | checkStop
  | send
  | stop
  | wake
  | disconnect

/-- The steps of a read's callback and of the worker. -/
def Action.Serves : Action → Prop
  | .submit | .refuse | .turn | .takeSelection | .publish _ | .receive | .serve _ | .checkStop | .send => True
  | _ => False

def start (exchange : Exchange FrozenFile) : FileWorker where
  exchange := exchange
  commands := []
  selection := none
  stopping := false
  connected := true
  callback := .idle
  watcher := .idle
  worker := .turn
  made := []
  answers := []

/-- The bounded queue refuses when it is full and when the worker has gone. -/
def trySend (s : FileWorker) (command : FileWorkerCommand) : Option FileWorker :=
  match s.worker with
  | .ended => none
  | _ => if readQueueDepth ≤ s.commands.length then none else some { s with commands := s.commands ++ [command] }

/-- The worker leaves its loop, and what is queued goes with the queue. -/
def finish (s : FileWorker) : FileWorker := { s with worker := .ended, commands := [] }

def fileStreamEnabled (s : FileWorker) : Bool := s.exchange.selection.streamEnabled

def next (maxChunkBytes : Nat) (s : FileWorker) : Action → Option FileWorker
  | .select op => some { s with exchange := s.exchange.next op }
  | .request request =>
    match s.callback, s.connected with
    | .idle, true =>
      let file := s.exchange.selection.selectedFile request.dataId request.index
      some { s with
        callback := .resolved ⟨s.made.length, request, file⟩
        made := s.made ++ [⟨request, s.exchange.selection⟩] }
    | _, _ => none
  | .submit =>
    match s.callback with
    | .resolved pending =>
      match s.trySend (.read pending) with
      | some t => some { t with callback := .idle }
      | none => some { s with callback := .refused pending }
    | _ => none
  | .refuse =>
    match s.callback with
    | .refused pending =>
      some { s with
        callback := .idle
        answers := s.answers ++ [(pending.number, .newError pending.request.streamId)] }
    | _ => none
  | .freeze =>
    match s.watcher, s.connected with
    | .idle, true =>
      let exchange := s.exchange.next .clear
      let watcher := if s.fileStreamEnabled then .invalidated exchange.selection.generation else .idle
      some { s with exchange, watcher }
    | _, _ => none
  | .checkStream =>
    match s.watcher with
    | .invalidated generation =>
      some { s with watcher := if s.fileStreamEnabled then .permitted generation else .idle }
    | _ => none
  | .handOver =>
    match s.watcher with
    | .permitted generation => some { s with selection := some generation, watcher := .handedOver }
    | _ => none
  | .wakeWorker =>
    match s.watcher with
    | .handedOver => some { (s.trySend .wake).getD s with watcher := .idle }
    | _ => none
  | .turn =>
    match s.worker with
    | .turn => some (if s.stopping then s.finish else { s with worker := .looking })
    | _ => none
  | .takeSelection =>
    match s.worker with
    | .looking =>
      match s.selection with
      | some generation => some { s with selection := none, worker := .freezing generation }
      | none => some { s with worker := .receiving }
    | _ => none
  | .publish frozen =>
    match s.worker with
    | .freezing generation =>
      some { s with exchange := s.exchange.next (.publish generation frozen), worker := .turn }
    | _ => none
  | .receive =>
    match s.worker, s.commands with
    | .receiving, .wake :: rest => some { s with commands := rest, worker := .turn }
    | .receiving, .read pending :: rest => some { s with commands := rest, worker := .serving pending }
    | .receiving, [] => if s.connected then none else some s.finish
    | _, _ => none
  | .serve openPath =>
    match s.worker with
    | .serving pending =>
      let response :=
        if s.fileStreamEnabled then readFrozenFileWithOpen pending.file pending.request maxChunkBytes openPath
        else .newError pending.request.streamId
      some { s with worker := .answered pending.number response }
    | _ => none
  | .checkStop =>
    match s.worker with
    | .answered number response =>
      some (if s.stopping then s.finish else { s with worker := .sending number response })
    | _ => none
  | .send =>
    match s.worker with
    | .sending number response => some { s with answers := s.answers ++ [(number, response)], worker := .turn }
    | _ => none
  | .stop => some { s with stopping := true }
  | .wake => if s.connected then some ((s.trySend .wake).getD s) else none
  | .disconnect =>
    match s.callback, s.watcher, s.stopping with
    | .idle, .idle, true => some { s with connected := false }
    | _, _, _ => none

/-- The runs that go on from a state. -/
def runsFrom (maxChunkBytes : Nat) (s : FileWorker) : StepSystem FileWorker Action := .ofFun s (next maxChunkBytes)

end FileWorker

def CallbackStage.pendings : CallbackStage → Multiset PendingRead
  | .idle => 0
  | .resolved pending | .refused pending => {pending}

def FileWorkerCommand.pendings : FileWorkerCommand → Multiset PendingRead
  | .wake => 0
  | .read pending => {pending}

def WorkerStage.pendings : WorkerStage → Multiset PendingRead
  | .serving pending => {pending}
  | _ => 0

def WorkerStage.responses : WorkerStage → Multiset (Nat × FileContentsResponse)
  | .answered number response | .sending number response => {(number, response)}
  | _ => 0

/-- The turns the worker and the callback still take when nothing else comes in. -/
def WorkerStage.work : WorkerStage → Nat
  | .turn => 2
  | .looking => 1
  | .freezing _ => 3
  | .receiving => 0
  | .serving _ => 5
  | .answered _ _ => 4
  | .sending _ _ => 3
  | .ended => 0

def CallbackStage.work : CallbackStage → Nat
  | .idle => 0
  | .resolved _ => 7
  | .refused _ => 1

/-- What a response to a pending read may be. -/
def PendingRead.Answer (pending : PendingRead) (maxChunkBytes : Nat) (response : FileContentsResponse) : Prop :=
  response = .newError pending.request.streamId ∨
    ∃ openPath, response = readFrozenFileWithOpen pending.file pending.request maxChunkBytes openPath

namespace FileWorker

def queued (commands : List FileWorkerCommand) : Multiset PendingRead := (commands.map (·.pendings)).sum

/-- The reads that have no response yet. -/
def pendings (s : FileWorker) : Multiset PendingRead := s.callback.pendings + queued s.commands + s.worker.pendings

/-- The responses, sent or about to be sent. -/
def responses (s : FileWorker) : Multiset (Nat × FileContentsResponse) := s.worker.responses + s.answers

def waiting (s : FileWorker) (number : Nat) : Nat :=
  (s.pendings.map (·.number)).count number + (s.worker.responses.map Prod.fst).count number

@[simp] theorem queued_nil : queued [] = 0 := rfl

@[simp] theorem queued_append (before after : List FileWorkerCommand) :
    queued (before ++ after) = queued before + queued after := by
  simp [queued]

@[simp] theorem queued_cons (command : FileWorkerCommand) (rest : List FileWorkerCommand) :
    queued (command :: rest) = command.pendings + queued rest := by
  simp [queued]

/-- What a step does to the reads: nothing, it takes up a new one, it answers
one, or it drops some because the worker is to stop. -/
inductive Effect (maxChunkBytes : Nat) (s t : FileWorker) : Prop
  | same (pendings : t.pendings = s.pendings) (responses : t.responses = s.responses) (made : t.made = s.made)
  | taken (request : FileContentsRequest) (selection : FrozenSelection FrozenFile)
      (pendings : t.pendings =
        ⟨s.made.length, request, selection.selectedFile request.dataId request.index⟩ ::ₘ s.pendings)
      (responses : t.responses = s.responses) (made : t.made = s.made ++ [⟨request, selection⟩])
  | answered (pending : PendingRead) (response : FileContentsResponse)
      (answer : pending.Answer maxChunkBytes response) (pendings : s.pendings = pending ::ₘ t.pendings)
      (responses : t.responses = (pending.number, response) ::ₘ s.responses) (made : t.made = s.made)
  | dropped (stopping : t.stopping = true) (pendings : t.pendings ≤ s.pendings)
      (responses : t.responses ≤ s.responses) (made : t.made = s.made)

variable {maxChunkBytes : Nat} {s t : FileWorker} {exchange : Exchange FrozenFile}

theorem trySend_eq {command : FileWorkerCommand} (sent : s.trySend command = some t) :
    t = { s with commands := s.commands ++ [command] } := by
  unfold trySend at sent
  split at sent
  · cases sent
  · obtain ⟨_, same⟩ := Option.ite_none_left_eq_some.mp sent
    exact (Option.some.inj same).symm

/-- What the steps can do, each with the state that it is taken in. -/
inductive Step (maxChunkBytes : Nat) (s : FileWorker) : Action → FileWorker → Prop
  | select (op : Exchange.Operation FrozenFile) : Step maxChunkBytes s (.select op) { s with exchange := s.exchange.next op }
  | request (request : FileContentsRequest) : s.callback = .idle → Step maxChunkBytes s (.request request) { s with
      callback := .resolved ⟨s.made.length, request, s.exchange.selection.selectedFile request.dataId request.index⟩
      made := s.made ++ [⟨request, s.exchange.selection⟩] }
  | submit {pending : PendingRead} : s.callback = .resolved pending →
    Step maxChunkBytes s .submit { s with commands := s.commands ++ [.read pending], callback := .idle }
  | overflow {pending : PendingRead} : s.callback = .resolved pending →
    Step maxChunkBytes s .submit { s with callback := .refused pending }
  | refuse {pending : PendingRead} : s.callback = .refused pending → Step maxChunkBytes s .refuse { s with
      callback := .idle
      answers := s.answers ++ [(pending.number, .newError pending.request.streamId)] }
  | freeze : s.watcher = .idle → Step maxChunkBytes s .freeze { s with
      exchange := s.exchange.next .clear
      watcher := if s.fileStreamEnabled then .invalidated (s.exchange.next .clear).selection.generation else .idle }
  | checkStream {generation : Nat} : s.watcher = .invalidated generation →
    Step maxChunkBytes s .checkStream { s with watcher := if s.fileStreamEnabled then .permitted generation else .idle }
  | handOver {generation : Nat} : s.watcher = .permitted generation →
    Step maxChunkBytes s .handOver { s with selection := some generation, watcher := .handedOver }
  | wakeWorker : s.watcher = .handedOver →
    Step maxChunkBytes s .wakeWorker { (s.trySend .wake).getD s with watcher := .idle }
  | leave : s.worker = .turn → s.stopping = true → Step maxChunkBytes s .turn s.finish
  | look : s.worker = .turn → Step maxChunkBytes s .turn { s with worker := .looking }
  | takeSelection {generation : Nat} : s.worker = .looking → s.selection = some generation →
    Step maxChunkBytes s .takeSelection { s with selection := none, worker := .freezing generation }
  | takeNothing : s.worker = .looking → s.selection = none →
    Step maxChunkBytes s .takeSelection { s with worker := .receiving }
  | publish {generation : Nat} (frozen : List FrozenFile) : s.worker = .freezing generation →
    Step maxChunkBytes s (.publish frozen) { s with exchange := s.exchange.next (.publish generation frozen), worker := .turn }
  | receiveWake {rest : List FileWorkerCommand} : s.worker = .receiving → s.commands = .wake :: rest →
    Step maxChunkBytes s .receive { s with commands := rest, worker := .turn }
  | receiveRead {pending : PendingRead} {rest : List FileWorkerCommand} : s.worker = .receiving →
    s.commands = .read pending :: rest → Step maxChunkBytes s .receive { s with commands := rest, worker := .serving pending }
  | hangUp : s.connected = false → Step maxChunkBytes s .receive s.finish
  | serve {pending : PendingRead} (openPath : List UInt8 → Option OpenedFile) : s.worker = .serving pending →
    Step maxChunkBytes s (.serve openPath) { s with
      worker := .answered pending.number (if s.fileStreamEnabled then
        readFrozenFileWithOpen pending.file pending.request maxChunkBytes openPath
      else .newError pending.request.streamId) }
  | dropAnswer {number : Nat} {response : FileContentsResponse} : s.worker = .answered number response → s.stopping = true →
    Step maxChunkBytes s .checkStop s.finish
  | proceed {number : Nat} {response : FileContentsResponse} : s.worker = .answered number response →
    Step maxChunkBytes s .checkStop { s with worker := .sending number response }
  | send {number : Nat} {response : FileContentsResponse} : s.worker = .sending number response →
    Step maxChunkBytes s .send { s with answers := s.answers ++ [(number, response)], worker := .turn }
  | stop : Step maxChunkBytes s .stop { s with stopping := true }
  | wake : Step maxChunkBytes s .wake ((s.trySend .wake).getD s)
  | disconnect : s.stopping = true → Step maxChunkBytes s .disconnect { s with connected := false }

theorem next_step {action : Action} (step : s.next maxChunkBytes action = some t) : Step maxChunkBytes s action t := by
  cases action with
  | select op =>
    cases step
    exact .select op
  | request request =>
    dsimp only [next] at step
    split at step <;> cases step
    exact .request request ‹_›
  | submit =>
    dsimp only [next] at step
    split at step
    · rename_i pending resolved
      split at step
      · rename_i u sent
        cases step
        cases trySend_eq sent
        exact .submit resolved
      · cases step
        exact .overflow resolved
    · cases step
  | refuse =>
    dsimp only [next] at step
    split at step <;> cases step
    exact .refuse ‹_›
  | freeze =>
    dsimp only [next] at step
    split at step <;> cases step
    exact .freeze ‹_›
  | checkStream =>
    dsimp only [next] at step
    split at step <;> cases step
    exact .checkStream ‹_›
  | handOver =>
    dsimp only [next] at step
    split at step <;> cases step
    exact .handOver ‹_›
  | wakeWorker =>
    dsimp only [next] at step
    split at step <;> cases step
    exact .wakeWorker ‹_›
  | turn =>
    dsimp only [next] at step
    split at step
    · split at step <;> cases step
      · exact .leave ‹_› ‹_›
      · exact .look ‹_›
    · cases step
  | takeSelection =>
    dsimp only [next] at step
    split at step
    · split at step <;> cases step
      · exact .takeSelection ‹_› ‹_›
      · exact .takeNothing ‹_› ‹_›
    · cases step
  | publish frozen =>
    dsimp only [next] at step
    split at step <;> cases step
    exact .publish frozen ‹_›
  | receive =>
    dsimp only [next] at step
    split at step
    · cases step
      exact .receiveWake ‹_› ‹_›
    · cases step
      exact .receiveRead ‹_› ‹_›
    · obtain ⟨closed, same⟩ := Option.ite_none_left_eq_some.mp step
      cases same
      exact .hangUp (Bool.eq_false_of_not_eq_true closed)
    · cases step
  | serve openPath =>
    dsimp only [next] at step
    split at step <;> cases step
    exact .serve openPath ‹_›
  | checkStop =>
    dsimp only [next] at step
    split at step
    · split at step <;> cases step
      · exact .dropAnswer ‹_› ‹_›
      · exact .proceed ‹_›
    · cases step
  | send =>
    dsimp only [next] at step
    split at step <;> cases step
    exact .send ‹_›
  | stop =>
    cases step
    exact .stop
  | wake =>
    obtain ⟨_, same⟩ := Option.ite_none_right_eq_some.mp step
    cases same
    exact .wake
  | disconnect =>
    dsimp only [next] at step
    split at step <;> cases step
    exact .disconnect ‹_›

/-- A wake carries no read. -/
theorem trySend_wake : ((s.trySend .wake).getD s).pendings = s.pendings ∧
    ((s.trySend .wake).getD s).responses = s.responses ∧ ((s.trySend .wake).getD s).made = s.made ∧
    ((s.trySend .wake).getD s).callback = s.callback := by
  cases sent : s.trySend .wake with
  | none => exact ⟨rfl, rfl, rfl, rfl⟩
  | some t =>
    cases trySend_eq sent
    refine ⟨?_, rfl, rfl, rfl⟩
    simp [pendings, FileWorkerCommand.pendings]

theorem finish_effect (stopping : s.stopping = true) : Effect maxChunkBytes s s.finish := by
  refine .dropped stopping ?_ ?_ rfl
  · change s.callback.pendings + 0 + 0 ≤ s.callback.pendings + queued s.commands + s.worker.pendings
    rw [add_zero, add_zero, add_assoc]
    exact Multiset.le_add_right _ _
  · change 0 + Multiset.ofList s.answers ≤ s.worker.responses + Multiset.ofList s.answers
    rw [zero_add]
    exact Multiset.le_add_left _ _

theorem sent_answer (answers : List (Nat × FileContentsResponse)) (answer : Nat × FileContentsResponse) :
    Multiset.ofList (answers ++ [answer]) = answer ::ₘ Multiset.ofList answers :=
  Multiset.coe_eq_coe.mpr (List.perm_append_singleton answer answers)

theorem next_effect {action : Action} (running : s.connected = false → s.stopping = true)
    (step : s.next maxChunkBytes action = some t) : Effect maxChunkBytes s t := by
  cases next_step step with
  | select _ => exact .same rfl rfl rfl
  | request request idle =>
    refine .taken request s.exchange.selection ?_ rfl rfl
    simp [pendings, idle, CallbackStage.pendings]
  | submit resolved =>
    refine .same ?_ rfl rfl
    simp only [pendings, resolved, CallbackStage.pendings, queued_append, queued_cons, queued_nil, FileWorkerCommand.pendings]
    ac_rfl
  | overflow resolved =>
    refine .same ?_ rfl rfl
    simp only [pendings, resolved, CallbackStage.pendings]
  | @refuse pending refused =>
    refine .answered pending _ (.inl rfl) ?_ ?_ rfl
    · simp [pendings, refused, CallbackStage.pendings]
    · simp only [responses, sent_answer, Multiset.add_cons]
  | freeze _ => exact .same rfl rfl rfl
  | checkStream _ => exact .same rfl rfl rfl
  | handOver _ => exact .same rfl rfl rfl
  | wakeWorker _ =>
    obtain ⟨pendings, responses, made, _⟩ := s.trySend_wake
    exact .same pendings responses made
  | leave _ stopping => exact finish_effect stopping
  | look turn =>
    refine .same ?_ ?_ rfl <;> simp only [pendings, responses, turn, WorkerStage.pendings, WorkerStage.responses]
  | takeSelection looking _ =>
    refine .same ?_ ?_ rfl <;> simp only [pendings, responses, looking, WorkerStage.pendings, WorkerStage.responses]
  | takeNothing looking _ =>
    refine .same ?_ ?_ rfl <;> simp only [pendings, responses, looking, WorkerStage.pendings, WorkerStage.responses]
  | publish _ freezing =>
    refine .same ?_ ?_ rfl <;> simp only [pendings, responses, freezing, WorkerStage.pendings, WorkerStage.responses]
  | receiveWake receiving commands =>
    refine .same ?_ ?_ rfl
    · simp [pendings, receiving, commands, WorkerStage.pendings, FileWorkerCommand.pendings]
    · simp only [responses, receiving, WorkerStage.responses]
  | receiveRead receiving commands =>
    refine .same ?_ ?_ rfl
    · simp only [pendings, receiving, commands, WorkerStage.pendings, queued_cons, FileWorkerCommand.pendings]
      ac_rfl
    · simp only [responses, receiving, WorkerStage.responses]
  | hangUp closed => exact finish_effect (running closed)
  | @serve pending openPath serving =>
    refine .answered pending (if s.fileStreamEnabled then
      readFrozenFileWithOpen pending.file pending.request maxChunkBytes openPath
        else .newError pending.request.streamId) ?_ ?_ ?_ rfl
    · split
      · exact .inr ⟨openPath, rfl⟩
      · exact .inl rfl
    · simp only [pendings, serving, WorkerStage.pendings, add_zero]
      exact add_comm _ _
    · simp only [responses, serving, WorkerStage.responses, zero_add]
      exact Multiset.singleton_add _ _
  | dropAnswer _ stopping => exact finish_effect stopping
  | proceed answered =>
    refine .same ?_ ?_ rfl <;> simp only [pendings, responses, answered, WorkerStage.pendings, WorkerStage.responses]
  | send sending =>
    refine .same ?_ ?_ rfl
    · simp only [pendings, sending, WorkerStage.pendings]
    · simp only [responses, sending, WorkerStage.responses, sent_answer, zero_add, Multiset.singleton_add]
  | stop => exact .same rfl rfl rfl
  | wake =>
    obtain ⟨pendings, responses, made, _⟩ := s.trySend_wake
    exact .same pendings responses made
  | disconnect _ => exact .same rfl rfl rfl

/-- A worker that is not to stop has its queue and goes on. -/
structure Running (s : FileWorker) : Prop where
  connected : s.connected = false → s.stopping = true
  ended : s.worker = .ended → s.stopping = true

theorem trySend_flags (s : FileWorker) (command : FileWorkerCommand) :
    ((s.trySend command).getD s).stopping = s.stopping ∧ ((s.trySend command).getD s).connected = s.connected ∧
    ((s.trySend command).getD s).worker = s.worker := by
  cases sent : s.trySend command with
  | none => exact ⟨rfl, rfl, rfl⟩
  | some t =>
    cases trySend_eq sent
    exact ⟨rfl, rfl, rfl⟩

theorem next_flags {action : Action} (running : s.Running) (step : s.next maxChunkBytes action = some t) :
    (s.stopping = true → t.stopping = true) ∧ (t.connected = false → t.stopping = true) ∧
    (t.worker = .ended → t.stopping = true) := by
  have keep : ∀ u : FileWorker, u.stopping = s.stopping → u.connected = s.connected → u.worker = s.worker →
      (s.stopping = true → u.stopping = true) ∧ (u.connected = false → u.stopping = true) ∧
      (u.worker = .ended → u.stopping = true) := by
    intro u stopping connected worker
    rw [stopping, connected, worker]
    exact ⟨id, running.connected, running.ended⟩
  have advance : ∀ u : FileWorker, u.stopping = s.stopping → u.connected = s.connected → u.worker ≠ .ended →
      (s.stopping = true → u.stopping = true) ∧ (u.connected = false → u.stopping = true) ∧
      (u.worker = .ended → u.stopping = true) := by
    intro u stopping connected worker
    rw [stopping, connected]
    exact ⟨id, running.connected, fun ended => absurd ended worker⟩
  have halt : s.stopping = true → (s.stopping = true → s.finish.stopping = true) ∧
      (s.finish.connected = false → s.finish.stopping = true) ∧ (s.finish.worker = .ended → s.finish.stopping = true) :=
    fun stopping => ⟨id, running.connected, fun _ => stopping⟩
  cases next_step step with
  | select _ => exact keep _ rfl rfl rfl
  | request _ _ => exact keep _ rfl rfl rfl
  | submit _ => exact keep _ rfl rfl rfl
  | overflow _ => exact keep _ rfl rfl rfl
  | refuse _ => exact keep _ rfl rfl rfl
  | freeze _ => exact keep _ rfl rfl rfl
  | checkStream _ => exact keep _ rfl rfl rfl
  | handOver _ => exact keep _ rfl rfl rfl
  | wakeWorker _ =>
    obtain ⟨stopping, connected, worker⟩ := s.trySend_flags .wake
    exact keep _ stopping connected worker
  | leave _ stopping => exact halt stopping
  | look _ => exact advance _ rfl rfl nofun
  | takeSelection _ _ => exact advance _ rfl rfl nofun
  | takeNothing _ _ => exact advance _ rfl rfl nofun
  | publish _ _ => exact advance _ rfl rfl nofun
  | receiveWake _ _ => exact advance _ rfl rfl nofun
  | receiveRead _ _ => exact advance _ rfl rfl nofun
  | hangUp closed => exact halt (running.connected closed)
  | serve _ _ => exact advance _ rfl rfl nofun
  | dropAnswer _ stopping => exact halt stopping
  | proceed _ => exact advance _ rfl rfl nofun
  | send _ => exact advance _ rfl rfl nofun
  | stop => exact ⟨fun _ => rfl, fun _ => rfl, fun _ => rfl⟩
  | wake =>
    obtain ⟨stopping, connected, worker⟩ := s.trySend_flags .wake
    exact keep _ stopping connected worker
  | disconnect stopping => exact ⟨id, fun _ => stopping, running.ended⟩

/-- The read was resolved against the selection of its own request. -/
def Resolved (s : FileWorker) (pending : PendingRead) : Prop :=
  ∃ selection : FrozenSelection FrozenFile, s.made[pending.number]? = some ⟨pending.request, selection⟩ ∧
    pending.file = selection.selectedFile pending.request.dataId pending.request.index

/-- A response carries the stream id of its request, and when it succeeds it
was read from the file that stood in the request's table. -/
def Reads (s : FileWorker) (maxChunkBytes : Nat) (answer : Nat × FileContentsResponse) : Prop :=
  ∃ read, s.made[answer.1]? = some read ∧ answer.2.streamId = read.request.streamId ∧
    (answer.2.contents ≠ .error → ∃ table file openPath,
      read.selection.table read.request.dataId = some table ∧ 0 ≤ read.request.index ∧
      table[read.request.index.toNat]? = some file ∧
      answer.2 = readFrozenFileWithOpen (some file) read.request maxChunkBytes openPath)

/-- A selected file stands in the table the request reads from. -/
theorem selectedFile_table {current : FrozenSelection FrozenFile} {dataId : Option Nat} {index : Int} {file : FrozenFile}
    (selected : current.selectedFile dataId index = some file) :
    ∃ table, current.table dataId = some table ∧ 0 ≤ index ∧ table[index.toNat]? = some file := by
  obtain ⟨_, found⟩ := Option.ite_none_left_eq_some.mp selected
  obtain ⟨table, isTable, entry⟩ := Option.bind_eq_some_iff.mp found
  obtain ⟨nonneg, entry⟩ := Option.ite_none_right_eq_some.mp entry
  exact ⟨table, isTable, nonneg, entry⟩

theorem Resolved.reads {pending : PendingRead} {response : FileContentsResponse} (resolved : s.Resolved pending)
    (answer : pending.Answer maxChunkBytes response) : s.Reads maxChunkBytes (pending.number, response) := by
  obtain ⟨selection, made, file⟩ := resolved
  refine ⟨⟨pending.request, selection⟩, made, ?_, fun success => ?_⟩
  · rcases answer with refused | ⟨openPath, read⟩
    · exact congrArg FileContentsResponse.streamId refused
    · exact (congrArg FileContentsResponse.streamId read).trans (readFrozenFileWithOpen_streamId ..)
  · rcases answer with refused | ⟨openPath, read⟩
    · exact absurd (congrArg FileContentsResponse.contents refused) success
    · cases found : pending.file with
      | none =>
        rw [found, readFrozenFileWithOpen_none] at read
        exact absurd (congrArg FileContentsResponse.contents read) success
      | some entry =>
        obtain ⟨table, isTable, nonneg, atIndex⟩ := selectedFile_table (file.symm.trans found)
        exact ⟨table, entry, openPath, isTable, nonneg, atIndex, found ▸ read⟩

/-- How often a request stands among the reads and the responses. -/
def accounted (s : FileWorker) (number : Nat) : Nat :=
  (s.pendings.map (·.number)).count number + (s.responses.map Prod.fst).count number

structure Invariant (maxChunkBytes : Nat) (s : FileWorker) : Prop extends Running s where
  once : ∀ number, s.accounted number ≤ if number < s.made.length then 1 else 0
  kept : s.stopping = false → ∀ number, number < s.made.length → s.accounted number = 1
  resolved : ∀ pending ∈ s.pendings, s.Resolved pending
  reads : ∀ answer ∈ s.responses, s.Reads maxChunkBytes answer

theorem Invariant.next {action : Action} (inv : s.Invariant maxChunkBytes)
    (step : s.next maxChunkBytes action = some t) : t.Invariant maxChunkBytes := by
  obtain ⟨halted, connected, ended⟩ := next_flags inv.toRunning step
  have going : t.stopping = false → s.stopping = false := fun going =>
    Bool.eq_false_of_not_eq_true fun stopping => Bool.false_ne_true (going.symm.trans (halted stopping))
  have flags : t.Running := ⟨connected, ended⟩
  cases next_effect inv.connected step with
  | same pendings responses made =>
    have accounted : t.accounted = s.accounted := by
      funext number
      rw [FileWorker.accounted, FileWorker.accounted, pendings, responses]
    refine ⟨flags, ?_, ?_, ?_, ?_⟩
    · rw [accounted, made]
      exact inv.once
    · rw [accounted, made]
      exact fun running => inv.kept (going running)
    · rw [pendings]
      unfold Resolved
      rw [made]
      exact inv.resolved
    · rw [responses]
      unfold Reads
      rw [made]
      exact inv.reads
  | taken request selection pendings responses made =>
    have accounted : ∀ number, t.accounted number = s.accounted number + if number = s.made.length then 1 else 0 := by
      intro number
      rw [FileWorker.accounted, FileWorker.accounted, pendings, responses, Multiset.map_cons, Multiset.count_cons]
      dsimp only
      omega
    have length : t.made.length = s.made.length + 1 := by rw [made, List.length_append, List.length_singleton]
    have earlier : ∀ {number : Nat} {read : MadeRead}, s.made[number]? = some read → t.made[number]? = some read := by
      intro number read found
      rw [made, List.getElem?_append_left (List.getElem?_eq_some_iff.mp found).1]
      exact found
    refine ⟨flags, fun number => ?_, fun running number new => ?_, fun pending member => ?_, fun answer member => ?_⟩
    · have before := inv.once number
      rw [accounted, length]
      split at before <;> split <;> split <;> omega
    · have before := inv.once number
      have kept := inv.kept (going running) number
      rw [accounted]
      split at before <;> split <;> omega
    · rw [pendings] at member
      rcases Multiset.mem_cons.mp member with same | old
      · subst same
        refine ⟨selection, ?_, rfl⟩
        rw [made]
        exact List.getElem?_concat_length
      · obtain ⟨selection, found, file⟩ := inv.resolved pending old
        exact ⟨selection, earlier found, file⟩
    · rw [responses] at member
      obtain ⟨read, found, reads⟩ := inv.reads answer member
      exact ⟨read, earlier found, reads⟩
  | answered pending response answer pendings responses made =>
    have accounted : t.accounted = s.accounted := by
      funext number
      rw [FileWorker.accounted, FileWorker.accounted, pendings, responses, Multiset.map_cons, Multiset.map_cons,
        Multiset.count_cons, Multiset.count_cons]
      dsimp only
      omega
    refine ⟨flags, ?_, ?_, fun other member => ?_, fun other member => ?_⟩
    · rw [accounted, made]
      exact inv.once
    · rw [accounted, made]
      exact fun running => inv.kept (going running)
    · unfold Resolved
      rw [made]
      refine inv.resolved other ?_
      rw [pendings]
      exact Multiset.mem_cons_of_mem member
    · rw [responses] at member
      unfold Reads
      rw [made]
      rcases Multiset.mem_cons.mp member with same | old
      · subst same
        refine (inv.resolved pending ?_).reads answer
        rw [pendings]
        exact Multiset.mem_cons_self _ _
      · exact inv.reads other old
  | dropped stopping pendings responses made =>
    refine ⟨flags, fun number => ?_, fun running => ?_, fun pending member => ?_, fun answer member => ?_⟩
    · have fewer : t.accounted number ≤ s.accounted number :=
        Nat.add_le_add (Multiset.count_le_of_le _ (Multiset.map_le_map pendings))
          (Multiset.count_le_of_le _ (Multiset.map_le_map responses))
      rw [made]
      exact Nat.le_trans fewer (inv.once number)
    · exact absurd (running.symm.trans stopping) Bool.false_ne_true
    · unfold Resolved
      rw [made]
      exact inv.resolved pending (Multiset.mem_of_le pendings member)
    · unfold Reads
      rw [made]
      exact inv.reads answer (Multiset.mem_of_le responses member)

theorem start_invariant : (start exchange).Invariant maxChunkBytes where
  connected := nofun
  ended := nofun
  once _ := Nat.zero_le _
  kept _ _ none := absurd none (Nat.not_lt_zero _)
  resolved _ member := absurd member (Multiset.notMem_zero _)
  reads _ member := absurd member (Multiset.notMem_zero _)

theorem reach_invariant (reach : (runsFrom maxChunkBytes (start exchange)).Reach s) : s.Invariant maxChunkBytes := by
  refine StepSystem.Inductive.reach ⟨fun s first => ?_, fun s action t inv step => inv.next step⟩ reach
  exact first ▸ start_invariant

def work (s : FileWorker) : Nat :=
  s.callback.work + 6 * s.commands.length + (if s.selection.isSome then 3 else 0) + s.worker.work

/-- Nothing is left to do until something comes in. -/
def Drained (s : FileWorker) : Prop := s.callback = .idle ∧ s.commands = [] ∧ s.worker = .receiving

/-- The callback finishes its read by itself. -/
theorem callback_progress (maxChunkBytes : Nat) (busy : s.callback ≠ .idle) :
    ∃ action t, action.Serves ∧ s.next maxChunkBytes action = some t ∧ t.work < s.work ∧ t.stopping = s.stopping ∧
      t.made = s.made := by
  cases callback : s.callback with
  | idle => exact absurd callback busy
  | resolved pending =>
    cases sent : s.trySend (.read pending) with
    | none =>
      refine ⟨.submit, { s with callback := .refused pending }, trivial, ?_, ?_, rfl, rfl⟩
      · simp only [next, callback, sent]
      · simp only [work, callback, CallbackStage.work]
        omega
    | some t =>
      cases trySend_eq sent
      refine ⟨.submit, { s with commands := s.commands ++ [.read pending], callback := .idle }, trivial, ?_, ?_, rfl, rfl⟩
      · simp only [next, callback, sent]
      · simp only [work, callback, CallbackStage.work, List.length_append, List.length_singleton]
        omega
  | refused pending =>
    refine ⟨.refuse, { s with
      callback := .idle
      answers := s.answers ++ [(pending.number, .newError pending.request.streamId)] }, trivial, ?_, ?_, rfl, rfl⟩
    · simp only [next, callback]
    · simp only [work, callback, CallbackStage.work]
      omega

/-- A worker that still has work, and is not to stop, has a step that takes some of it off. -/
theorem progress (maxChunkBytes : Nat) (running : s.stopping = false) (live : s.worker ≠ .ended) (busy : ¬ s.Drained) :
    ∃ action t, action.Serves ∧ s.next maxChunkBytes action = some t ∧ t.work < s.work ∧ t.stopping = s.stopping ∧
      t.made = s.made := by
  by_cases idle : s.callback = .idle
  · cases worker : s.worker with
    | turn =>
      refine ⟨.turn, { s with worker := .looking }, trivial, ?_, ?_, rfl, rfl⟩
      · simp [next, worker, running]
      · simp [work, worker, WorkerStage.work]
    | looking =>
      cases selection : s.selection with
      | none =>
        refine ⟨.takeSelection, { s with worker := .receiving }, trivial, ?_, ?_, rfl, rfl⟩
        · simp only [next, worker, selection]
        · simp [work, worker, WorkerStage.work]
      | some generation =>
        refine ⟨.takeSelection, { s with selection := none, worker := .freezing generation }, trivial, ?_, ?_, rfl, rfl⟩
        · simp only [next, worker, selection]
        · simp [work, worker, selection, WorkerStage.work]
    | freezing generation =>
      refine ⟨.publish [], { s with exchange := s.exchange.next (.publish generation []), worker := .turn }, trivial,
        ?_, ?_, rfl, rfl⟩
      · simp only [next, worker]
      · simp [work, worker, WorkerStage.work]
    | receiving =>
      cases commands : s.commands with
      | nil => exact absurd ⟨idle, commands, worker⟩ busy
      | cons command rest =>
        cases command with
        | wake =>
          refine ⟨.receive, { s with commands := rest, worker := .turn }, trivial, ?_, ?_, rfl, rfl⟩
          · simp only [next, worker, commands]
          · simp only [work, worker, commands, WorkerStage.work, List.length_cons]
            omega
        | read pending =>
          refine ⟨.receive, { s with commands := rest, worker := .serving pending }, trivial, ?_, ?_, rfl, rfl⟩
          · simp only [next, worker, commands]
          · simp only [work, worker, commands, WorkerStage.work, List.length_cons]
            omega
    | serving pending =>
      let response :=
        if s.fileStreamEnabled then
          readFrozenFileWithOpen pending.file pending.request maxChunkBytes fun _ => none
        else .newError pending.request.streamId
      refine ⟨.serve fun _ => none, { s with worker := .answered pending.number response }, trivial, ?_, ?_, rfl, rfl⟩
      · simp only [next, worker]
        rfl
      · simp [work, worker, WorkerStage.work]
    | answered number response =>
      refine ⟨.checkStop, { s with worker := .sending number response }, trivial, ?_, ?_, rfl, rfl⟩
      · simp [next, worker, running]
      · simp [work, worker, WorkerStage.work]
    | sending number response =>
      refine ⟨.send, { s with answers := s.answers ++ [(number, response)], worker := .turn }, trivial, ?_, ?_, rfl, rfl⟩
      · simp only [next, worker]
      · simp [work, worker, WorkerStage.work]
    | ended => exact absurd worker live
  · exact callback_progress maxChunkBytes idle

/-- The runs in which only the read's callback and the worker go on. -/
def servingFrom (maxChunkBytes : Nat) (s : FileWorker) : StepSystem FileWorker Action :=
  (runsFrom maxChunkBytes s).guarded fun _ action => action.Serves

/-- A worker that is not to stop gets through what has come in. -/
theorem drains (inv : s.Invariant maxChunkBytes) (running : s.stopping = false) :
    ∃ t, (servingFrom maxChunkBytes s).Reach t ∧ (t.Invariant maxChunkBytes ∧ t.stopping = false ∧ t.made = s.made) ∧
      t.Drained := by
  refine StepSystem.Reach.settles work (fun u good busy => ?_) (.start rfl) ⟨inv, running, rfl⟩
  obtain ⟨inv, running, made⟩ := good
  have live : u.worker ≠ .ended := fun ended => Bool.false_ne_true (running.symm.trans (inv.ended ended))
  obtain ⟨action, t, serves, step, work, stopping, kept⟩ := progress maxChunkBytes running live busy
  exact ⟨action, t, ⟨serves, step⟩, ⟨inv.next step, stopping.trans running, kept.trans made⟩, work⟩

theorem Drained.waiting (drained : s.Drained) (number : Nat) : s.waiting number = 0 := by
  obtain ⟨callback, commands, worker⟩ := drained
  simp [FileWorker.waiting, pendings, callback, commands, worker, CallbackStage.pendings, WorkerStage.pendings,
    WorkerStage.responses]

end FileWorker

end HyprRdp
