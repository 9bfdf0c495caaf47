import HyprRdp.Clipboard.FileWorker
import HyprRdp.Clipboard.RemoteTree

namespace HyprRdp

def maxPending : Nat := 64

def maxBuffered : Nat := 16 * 1024 * 1024

def maxRead : Nat := 8 * 1024 * 1024

/-- How many superseded selections keep serving at once. -/
def maxRetiring : Nat := 4

def u32Max : Nat := 2 ^ 32 - 1

def u64Max : Nat := 2 ^ 64 - 1

def toLeBytes (n : Nat) : Nat → List UInt8
  | 0 => []
  | count + 1 => UInt8.ofNat n :: toLeBytes (n / 256) count

def fromLeBytes : List UInt8 → Nat
  | [] => 0
  | byte :: rest => byte.toNat + 256 * fromLeBytes rest

namespace FileContentsResponse

def isError (response : FileContentsResponse) : Bool :=
  match response.contents with
  | .error => true
  | _ => false

def data (response : FileContentsResponse) : List UInt8 :=
  match response.contents with
  | .error => []
  | .size bytes => toLeBytes bytes 8
  | .data bytes => bytes

end FileContentsResponse

inductive ChunkedFetchProgress
  | failed
  | inProgress
  | complete

/-- The chunked fetch that the protocol library offers. -/
structure ChunkedFetchApi (Fetch : Type) where
  new : (id index amount maxChunk : Nat) → (dataId : Option Nat) → (limit : Nat) → Fetch
  nextRequest : Fetch → Option (FileContentsRequest × Fetch)
  onResponse : Fetch → FileContentsResponse → ChunkedFetchProgress × Fetch
  intoData : Fetch → List UInt8

structure Selection where
  tree : RemoteTree
  dataId : Option Nat
  deriving DecidableEq, Repr

def Selection.none (clock : Int) : Selection := ⟨.empty clock, .none⟩

inductive TransferOperation (Fetch : Type)
  | size (inode : Nat)
  | range (base : Nat) (fetch : Fetch)

def TransferOperation.ranged {Fetch : Type} : TransferOperation Fetch → Bool
  | .size _ => false
  | .range _ _ => true

inductive TransferValue
  | size (bytes : Nat)
  | bytes (data : List UInt8)
  deriving DecidableEq

/-- An outstanding request; `answer` is the number of the call that waits for it. -/
structure PendingFetch (Fetch : Type) where
  generation : Nat
  operation : TransferOperation Fetch
  answer : Nat
  reserved : Nat

/-- The state behind the transfer's lock; the retiring selections stand in the order of their generations. -/
structure TransferState (Fetch : Type) where
  generation : Nat
  closed : Bool
  stream : Bool
  huge : Bool
  locking : Bool
  current : Selection
  retiring : List (Nat × Selection)
  nextBase : Nat
  nextStream : Option Nat
  pending : List (Nat × PendingFetch Fetch)
  clock : Int

namespace TransferState

variable {Fetch : Type} (s : TransferState Fetch)

def new (clock : Int) : TransferState Fetch :=
  { generation := 0
    closed := false
    stream := false
    huge := false
    locking := false
    current := .none clock
    retiring := []
    nextBase := 0
    nextStream := some 1
    pending := []
    clock }

/-- The selection that the Wayland clipboard advertises. -/
def live (generation : Nat) : Bool := !s.closed && s.stream && s.generation = generation

def retired (generation : Nat) : Option Selection := s.retiring.lookup generation

/-- A selection that still answers: the live one, or one that is retired and not released yet. -/
def servable (generation : Nat) : Bool :=
  !s.closed && s.stream && (s.generation = generation || (s.retired generation).isSome)

def selection (generation : Nat) : Option Selection :=
  if s.closed = false ∧ s.stream = true then
    if s.generation = generation then some s.current else s.retired generation
  else none

def withoutPending (generation : Nat) (pending : List (Nat × PendingFetch Fetch)) : List (Nat × PendingFetch Fetch) :=
  pending.filter fun entry => entry.2.generation ≠ generation

/-- The answers of one selection are dropped, so that every read that waits for one fails. -/
def failPending (generation : Nat) : TransferState Fetch := { s with pending := withoutPending generation s.pending }

def takeCurrent : TransferState Fetch :=
  { s with nextBase := max s.nextBase s.current.tree.nextBase, current := .none s.clock }

def bump : TransferState Fetch :=
  if s.generation < u64Max then { s with generation := s.generation + 1 } else { s with closed := true }

def insertRetiring (generation : Nat) (selection : Selection) : List (Nat × Selection) → List (Nat × Selection)
  | [] => [(generation, selection)]
  | entry :: rest =>
    if generation < entry.1 then (generation, selection) :: entry :: rest
    else if generation = entry.1 then (generation, selection) :: rest
    else entry :: insertRetiring generation selection rest

/-- The oldest selections go until no more than the ceiling are left. -/
def evict : List (Nat × Selection) → List (Nat × PendingFetch Fetch) →
    List (Nat × Selection) × List (Nat × PendingFetch Fetch) × List Nat
  | [], pending => ([], pending, [])
  | oldest :: rest, pending =>
    if maxRetiring < rest.length + 1 then
      let (retiring, pending, released) := evict rest (withoutPending oldest.1 pending)
      (retiring, pending, oldest.1 :: released)
    else (oldest :: rest, pending, [])

/-- The live selection is superseded without being ended. Without roots, or
without a lock on the client's copy, there is nothing to serve from it. -/
def retireCurrent : TransferState Fetch × List Nat :=
  let t := s.takeCurrent
  if s.current.tree.roots.isEmpty ∨ s.current.dataId.isNone then ((t.failPending s.generation).bump, [s.generation])
  else
    let (retiring, pending, released) := evict (insertRetiring s.generation s.current t.retiring) t.pending
    ({ t with retiring, pending }.bump, released)

/-- Every selection ends, the live one and the retired ones. -/
def shutdown : TransferState Fetch × List Nat :=
  (({ s with retiring := [], pending := [] } : TransferState Fetch).takeCurrent.bump,
    s.retiring.map (·.1) ++ [s.generation])

def capabilities (stream huge locking : Bool) : TransferState Fetch × List Nat :=
  let (t, released) :=
    if s.stream ≠ stream ∨ s.huge ≠ huge ∨ s.locking ≠ locking then s.shutdown else (s, [])
  ({ t with stream, huge, locking }, released)

def enabled : Bool := s.stream && !s.closed

def liveGeneration : Option Nat := if s.live s.generation then some s.generation else none

def retireGeneration : TransferState Fetch × Option Nat × List Nat :=
  let (t, released) := s.retireCurrent
  (t, t.liveGeneration, released)

def covered (dataIds : List Nat) (selection : Selection) : Bool := selection.dataId.any fun dataId => dataIds.contains dataId

def release (generation : Nat) : TransferState Fetch :=
  ({ s with retiring := s.retiring.filter fun entry => entry.1 ≠ generation } : TransferState Fetch).failPending generation

def releaseLocks (dataIds : List Nat) : TransferState Fetch × List Nat :=
  let retired := (s.retiring.filter fun entry => covered dataIds entry.2).map (·.1)
  let (t, released) :=
    if covered dataIds s.current then
      ((s.takeCurrent.failPending s.generation).bump, retired ++ [s.generation])
    else (s, retired)
  (released.foldl release t, released)

def close : TransferState Fetch × List Nat :=
  let (t, released) := s.shutdown
  ({ t with closed := true }, released)

def acceptFor (maxEntries expected : Nat) (files : List FileDescriptor) (dataId : Option Nat) :
    TransferState Fetch × Option (Nat × List FileName × List Nat) :=
  if s.live expected = false then (s, none)
  else
    let (t, released) := s.retireCurrent
    if t.live t.generation = false then (t, none)
    else
      let tree := RemoteTree.build t.clock files maxEntries t.nextBase
      let current : Selection := ⟨tree, if t.locking then dataId else none⟩
      ({ t with nextBase := tree.nextBase, current },
        some (t.generation, tree.roots.filterMap fun inode => (tree.node inode).map (·.name), released))

/-- A selection that is served is changed in place. -/
def setSelection (generation : Nat) (selection : Selection) : TransferState Fetch :=
  if s.generation = generation then { s with current := selection }
  else { s with retiring := s.retiring.map fun entry => if entry.1 = generation then (entry.1, selection) else entry }

def setSize (generation inode size : Nat) : TransferState Fetch × Bool :=
  match s.selection generation with
  | none => (s, false)
  | some selection =>
    let (tree, stored) := selection.tree.setSize inode size
    (s.setSelection generation { selection with tree }, stored)

def reserved (pending : List (Nat × PendingFetch Fetch)) : Nat := (pending.map (·.2.reserved)).sum

/-- A stream id and room in the budgets, once the requests that nobody waits for any more are gone. -/
def allocate (gone : Nat → Bool) (bytes : Nat) : TransferState Fetch × Option Nat :=
  let t := { s with pending := s.pending.filter fun entry => !gone entry.2.answer }
  if maxPending ≤ t.pending.length ∨ maxBuffered < bytes + reserved t.pending then (t, none)
  else
    match t.nextStream with
    | none => (t, none)
    | some id => ({ t with nextStream := if id < u32Max then some (id + 1) else none }, some id)

def removePending (id : Nat) : TransferState Fetch := { s with pending := s.pending.filter fun entry => entry.1 ≠ id }

def insertPending (id : Nat) (pending : PendingFetch Fetch) : TransferState Fetch :=
  { s.removePending id with pending := (s.removePending id).pending ++ [(id, pending)] }

end TransferState

/-- How far a size or read call has come; `ranged` says that it waits for bytes. -/
inductive CallStage
  | sizing
  | reading
  | waiting (ranged : Bool)
  | answered (ranged : Bool) (answer : Option TransferValue)
  | finished (result : Option TransferValue)
  | abandoned
  deriving DecidableEq

/-- A call, `range` being the position and the size of a read. `asked` and `got`
are the history: the range requests sent for it, and the responses that its fetch took. -/
structure TransferCall where
  generation : Nat
  inode : Nat
  range : Option (Nat × Nat)
  stage : CallStage
  asked : List FileContentsRequest
  got : List FileContentsResponse

/-- A file list that was accepted, with the selection that was made of it. -/
structure AcceptedList where
  generation : Nat
  files : List FileDescriptor
  selection : Selection

/-- The transfer with its callers. The rest is the history, the oldest first: the streams of the requests
opened, the lists accepted, and the sizes reported, each with the generation and the inode asked about. -/
structure Transfer (Fetch : Type) where
  state : TransferState Fetch
  connected : Bool
  calls : List TransferCall
  opened : List Nat
  accepted : List AcceptedList
  sizes : List (Nat × Nat × Nat)

namespace Transfer

variable {Fetch : Type}

inductive Action
  | tick (clock : Int)
  | capabilities (stream huge locking : Bool)
  | retireGeneration
  | releaseLocks (dataIds : List Nat)
  | close
  | acceptFor (expected : Nat) (files : List FileDescriptor) (dataId : Option Nat)
  | size (generation inode : Nat)
  | read (generation inode position size : Nat)
  | submitSize (i : Nat)
  | submitRange (i : Nat)
  | receive (i : Nat)
  | abandon (i : Nat)
  | onResponse (response : FileContentsResponse)
  | timeout (id : Nat)
  | disconnect

def new (clock : Int) : Transfer Fetch := ⟨.new clock, true, [], [], [], []⟩

variable (s : Transfer Fetch)

def setCall (i : Nat) (call : TransferCall) : Transfer Fetch := { s with calls := s.calls.set i call }

def atStage (i : Nat) (call : TransferCall) (stage : CallStage) : Transfer Fetch := s.setCall i { call with stage }

/-- The receiver of a call's answer is gone. -/
def gone (i : Nat) : Bool := (s.calls[i]?).any fun call => call.stage = .abandoned

/-- The size of a call's file is known: this is all for a size call, and a read goes on. -/
def sized (i : Nat) (call : TransferCall) (size : Nat) : Transfer Fetch :=
  s.atStage i call (match call.range with
    | none => .finished (some (.size size))
    | some _ => .reading)

def fail (i : Nat) (call : TransferCall) : Transfer Fetch := s.atStage i call (.finished none)

/-- A request is sent, and the call waits for its answer. -/
def submit (i : Nat) (call : TransferCall) (request : FileContentsRequest) (operation : TransferOperation Fetch)
    (reserved : Nat) : Transfer Fetch :=
  let ranged := operation.ranged
  if s.connected then
    { s with
      state := s.state.insertPending request.streamId ⟨call.generation, operation, i, reserved⟩
      opened := s.opened ++ [request.streamId] }.setCall i
        { call with stage := .waiting ranged, asked := if ranged then call.asked ++ [request] else call.asked }
  else s.fail i call

def submitSize (i : Nat) (call : TransferCall) : Transfer Fetch :=
  match s.state.servable call.generation, s.state.selection call.generation with
  | true, some selection =>
    match selection.tree.node call.inode with
    | none => s.fail i call
    | some node =>
      match node.size, node.kind with
      | some size, _ => if s.state.huge = false ∧ u32Max < size then s.fail i call else s.sized i call size
      | none, .directory => s.fail i call
      | none, .file index =>
        match s.state.allocate s.gone 8 with
        | (state, none) => { s with state }.fail i call
        | (state, some id) =>
          { s with state }.submit i call ⟨id, index, true, false, 0, 8, selection.dataId⟩ (.size call.inode) 8
  | _, _ => s.fail i call

def submitRange (api : ChunkedFetchApi Fetch) (maxChunk i : Nat) (call : TransferCall) (position size : Nat) :
    Transfer Fetch :=
  match s.state.servable call.generation && decide (size ≤ maxRead), s.state.selection call.generation with
  | true, some selection =>
    match selection.tree.node call.inode with
    | none => s.fail i call
    | some node =>
      match node.kind, node.size with
      | .directory, _ | _, none => s.fail i call
      | .file index, some known =>
        let amount := min (known - position) size
        if amount = 0 then s.atStage i call (.finished (some (.bytes [])))
        else
          match s.state.allocate s.gone amount with
          | (state, none) => { s with state }.fail i call
          | (state, some id) =>
            match api.nextRequest (api.new id index amount maxChunk selection.dataId maxRead) with
            | none => { s with state }.fail i call
            | some (request, fetch) => { s with state }.submit i call { request with position } (.range position fetch) amount
  | _, _ => s.fail i call

/-- The answer reaches the call, if it still waits for it. -/
def answer (i : Nat) (result : Option TransferValue) : Transfer Fetch :=
  match s.calls[i]? with
  | none => s
  | some call =>
    match call.stage with
    | .waiting ranged => s.atStage i call (.answered ranged result)
    | _ => s

def onSize (pending : PendingFetch Fetch) (inode : Nat) (response : FileContentsResponse) : Transfer Fetch :=
  if response.isError then s.answer pending.answer none
  else if response.data.length = 8 then
    let size := fromLeBytes response.data
    let (state, stored) := s.state.setSize pending.generation inode size
    { s with state, sizes := s.sizes ++ [(pending.generation, inode, size)] }.answer pending.answer
      (if (s.state.huge = false ∧ u32Max < size) ∨ stored = false then none else some (.size size))
  else s.answer pending.answer none

/-- A response that goes into a fetch, on record with its call. -/
def recordResponse (i : Nat) (response : FileContentsResponse) : Transfer Fetch :=
  match s.calls[i]? with
  | none => s
  | some call => s.setCall i { call with got := call.got ++ [response] }

def recordRequest (i : Nat) (request : FileContentsRequest) : Transfer Fetch :=
  match s.calls[i]? with
  | none => s
  | some call => s.setCall i { call with asked := call.asked ++ [request] }

def onRange (api : ChunkedFetchApi Fetch) (pending : PendingFetch Fetch) (base : Nat) (fetch : Fetch)
    (response : FileContentsResponse) : Transfer Fetch :=
  match api.onResponse fetch response with
  | (.failed, _) => s.answer pending.answer none
  | (.complete, fetch) =>
    (s.recordResponse pending.answer response).answer pending.answer (some (.bytes (api.intoData fetch)))
  | (.inProgress, fetch) =>
    match api.nextRequest fetch with
    | none => s.answer pending.answer none
    | some (request, fetch) =>
      let position := base + request.position
      if position ≤ u64Max ∧ s.connected then
        ({ s with
          state := s.state.insertPending response.streamId { pending with operation := .range base fetch } }.recordResponse
            pending.answer response).recordRequest pending.answer { request with position }
      else s.answer pending.answer none

def onResponse (api : ChunkedFetchApi Fetch) (response : FileContentsResponse) : Transfer Fetch :=
  match s.state.pending.lookup response.streamId with
  | none => s
  | some pending =>
    let t := { s with state := s.state.removePending response.streamId }
    if s.gone pending.answer then t
    else
      match pending.operation with
      | .size inode => t.onSize pending inode response
      | .range base fetch => t.onRange api pending base fetch response

/-- A call whose answer has come goes on; one whose request is gone without an answer fails. -/
def receive (i : Nat) (call : TransferCall) : Option (Transfer Fetch) :=
  match call.stage with
  | .answered false (some (.size size)) => some (s.sized i call size)
  | .answered true (some (.bytes data)) => some (s.atStage i call (.finished (some (.bytes data))))
  | .answered _ _ => some (s.fail i call)
  | .waiting _ => if s.state.pending.all fun entry => entry.2.answer ≠ i then some (s.fail i call) else none
  | _ => none

def next (api : ChunkedFetchApi Fetch) (maxEntries maxChunk : Nat) (s : Transfer Fetch) : Action → Option (Transfer Fetch)
  | .tick clock => some { s with state := { s.state with clock } }
  | .capabilities stream huge locking => some { s with state := (s.state.capabilities stream huge locking).1 }
  | .retireGeneration => some { s with state := s.state.retireGeneration.1 }
  | .releaseLocks dataIds => some { s with state := (s.state.releaseLocks dataIds).1 }
  | .close => some { s with state := s.state.close.1 }
  | .acceptFor expected files dataId =>
    match s.state.acceptFor maxEntries expected files dataId with
    | (state, none) => some { s with state }
    | (state, some (generation, _)) =>
      some { s with state, accepted := s.accepted ++ [⟨generation, files, state.current⟩] }
  | .size generation inode => some { s with calls := s.calls ++ [⟨generation, inode, none, .sizing, [], []⟩] }
  | .read generation inode position size =>
    some { s with calls := s.calls ++ [⟨generation, inode, some (position, size), .sizing, [], []⟩] }
  | .submitSize i =>
    s.calls[i]?.bind fun call => if call.stage = .sizing then some (s.submitSize i call) else none
  | .submitRange i =>
    s.calls[i]?.bind fun call =>
      match call.stage, call.range with
      | .reading, some (position, size) => some (s.submitRange api (max maxChunk 1) i call position size)
      | _, _ => none
  | .receive i => s.calls[i]?.bind fun call => s.receive i call
  | .abandon i =>
    s.calls[i]?.bind fun call =>
      match call.stage with
      | .finished _ => none
      | _ => some (s.atStage i call .abandoned)
  | .onResponse response => some (s.onResponse api response)
  | .timeout id => some { s with state := s.state.removePending id }
  | .disconnect => some { s with connected := false }

def runs (api : ChunkedFetchApi Fetch) (maxEntries maxChunk : Nat) (clock : Int) : StepSystem (Transfer Fetch) Action :=
  .ofFun (.new clock) (next api maxEntries maxChunk)

end Transfer

end HyprRdp
