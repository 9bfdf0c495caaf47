import HyprRdp.Clipboard.Transfer

namespace HyprRdp

/-- What waits to be offered on the Wayland clipboard. -/
inductive PendingWrite
  | text (data : List UInt8)
  | image (data : List UInt8)
  | files (uriList gnomeCopiedFiles : List UInt8)
  deriving DecidableEq

def PendingWrite.isFiles : PendingWrite → Bool
  | .files _ _ => true
  | _ => false

structure MountJob where
  generation : Nat
  roots : List FileName
  deriving DecidableEq

/-- What the mount service is told, behind its own lock. -/
structure MountService where
  closed : Bool
  dirty : Bool
  job : Option MountJob
  deriving DecidableEq

/-- The service's thread. It takes what it is told, drops the mounts that are not served
any more, and mounts the selection of the job; `left` are the mounts still to be looked at. -/
inductive ServeStage (Mount : Type)
  | waiting
  | retaining (left : List (Nat × Mount)) (job : Option MountJob)
  | checking (job : MountJob)
  | creating (job : MountJob)
  | publishing (job : MountJob) (mount : Mount)
  | inserting (generation : Nat) (mount : Mount)
  | ended

/-- How far a thread is with its operation, by the locks it takes one after the other. -/
inductive ProtocolStage
  | idle
  | retiring
  | readingGeneration (dataIds : List Nat)
  | releasing (current : Option Nat) (dataIds : List Nat)
  | accepting (generation : Nat) (files : List FileDescriptor) (dataId : Option Nat)
  | discarding (stream huge locking : Bool)
  | changing (stream huge locking : Bool)
  | closing
  | dropping (close : Bool)
  | updating (job : Option MountJob) (close : Bool)
  | gone
  deriving DecidableEq

/-- The inbound clipboard: the transfer, the slot of the pending write, and the mount service with the mounts it
holds. The protocol executor runs one operation at a time, and so does the Wayland watcher. `owner` is the generation
that a files payload in the slot was published for; what follows it is the history. -/
structure InboundMounts (Fetch Mount : Type) where
  transfer : TransferState Fetch
  pending : Option PendingWrite
  service : MountService
  executor : ProtocolStage
  watcher : ProtocolStage
  serve : ServeStage Mount
  mounted : List (Nat × Mount)
  owner : Nat
  accepted : List MountJob
  attempted : List Nat
  published : List Nat

namespace InboundMounts

variable {Fetch Mount : Type}

inductive Operation
  | beginRemoteCopy
  | releaseLocks (dataIds : List Nat)
  | acceptFor (generation : Nat) (files : List FileDescriptor) (dataId : Option Nat)
  | setCapabilities (stream huge locking : Bool)
  | close

def Operation.stage : Operation → ProtocolStage
  | .beginRemoteCopy => .retiring
  | .releaseLocks dataIds => .readingGeneration dataIds
  | .acceptFor generation files dataId => .accepting generation files dataId
  | .setCapabilities stream huge locking => .discarding stream huge locking
  | .close => .closing

inductive Action (Mount : Type)
  | tick (clock : Int)
  | call (operation : Operation)
  | localOwner
  | executor
  | watcher
  | serve
  | create (mount : Option Mount)
  | writeText (data : List UInt8)
  | writeImage (data : List UInt8)
  | takePending

def new (clock : Int) : InboundMounts Fetch Mount :=
  { transfer := .new clock
    pending := none
    service := ⟨false, false, none⟩
    executor := .idle
    watcher := .idle
    serve := .waiting
    mounted := []
    owner := 0
    accepted := []
    attempted := []
    published := [] }

def dropUnpublishedFiles (pending : Option PendingWrite) : Option PendingWrite :=
  if pending.any (·.isFiles) then none else pending

def updateService (service : MountService) (job : Option MountJob) (close : Bool) : MountService where
  closed := service.closed || close
  dirty := true
  job := if job.isSome then job else service.job

variable (s : InboundMounts Fetch Mount)

/-- One step of an operation, up to the next lock, and the stage after it. -/
def protocol (maxEntries : Nat) : ProtocolStage → Option (InboundMounts Fetch Mount × ProtocolStage)
  | .idle | .gone => none
  | .retiring => some ({ s with transfer := s.transfer.retireGeneration.1 }, .dropping false)
  | .readingGeneration dataIds => some (s, .releasing s.transfer.liveGeneration dataIds)
  | .releasing current dataIds =>
    let (transfer, released) := s.transfer.releaseLocks dataIds
    some ({ s with transfer },
      if current.any fun generation => released.contains generation then .dropping false
      else if released.isEmpty then .idle
      else .updating none false)
  | .accepting generation files dataId =>
    match s.transfer.acceptFor maxEntries generation files dataId with
    | (transfer, none) => some ({ s with transfer }, .idle)
    | (transfer, some (generation, roots, _)) =>
      some ({ s with transfer, accepted := s.accepted ++ [⟨generation, roots⟩] }, .updating (some ⟨generation, roots⟩) false)
  | .discarding stream huge locking =>
    some ({ s with pending := dropUnpublishedFiles s.pending }, .changing stream huge locking)
  | .changing stream huge locking =>
    some ({ s with transfer := (s.transfer.capabilities stream huge locking).1 }, .updating none false)
  | .closing => some ({ s with transfer := s.transfer.close.1 }, .dropping true)
  | .dropping close => some ({ s with pending := dropUnpublishedFiles s.pending }, .updating none close)
  | .updating job close =>
    some ({ s with service := updateService s.service job close }, if close then .gone else .idle)

/-- The payload that lists the roots below a mount, by their uris; `none` when there is nothing to offer. -/
def uriPayload (fileUri : Mount → FileName → Option (List UInt8)) (mount : Mount) (roots : List FileName) :
    Option PendingWrite :=
  (roots.mapM (fileUri mount)).bind fun uris =>
    if uris.isEmpty then none
    else some (.files (uris.flatMap fun uri => uri ++ [13, 10]) ([99, 111, 112, 121, 10] ++ [10].intercalate uris))

/-- One step of the service that does not make a mount. -/
def serveStep (fileUri : Mount → FileName → Option (List UInt8)) : Option (InboundMounts Fetch Mount) :=
  match s.serve with
  | .waiting =>
    if s.service.closed then some { s with serve := .ended, mounted := [] }
    else if s.service.dirty then
      some { s with
        service := { s.service with dirty := false, job := none }
        serve := .retaining s.mounted s.service.job
        mounted := [] }
    else none
  | .retaining (held :: left) job =>
    some { s with
      serve := .retaining left job
      mounted := if (s.transfer.selection held.1).isSome then s.mounted ++ [held] else s.mounted }
  | .retaining [] none => some { s with serve := .waiting }
  | .retaining [] (some job) => some { s with serve := .checking job }
  | .checking job =>
    some { s with serve := if job.roots.isEmpty ∨ s.transfer.live job.generation = false then .waiting else .creating job }
  | .publishing job mount =>
    match s.transfer.live job.generation, uriPayload fileUri mount job.roots with
    | true, some payload =>
      some { s with
        pending := some payload
        serve := .inserting job.generation mount
        owner := job.generation
        published := s.published ++ [job.generation] }
    | _, _ => some { s with serve := .waiting }
  | .inserting generation mount =>
    some { s with
      serve := .waiting
      mounted := s.mounted.filter (fun held => held.1 ≠ generation) ++ [(generation, mount)] }
  | .creating _ | .ended => none

/-- The mount is made, or it cannot be made. This takes its time, and no lock is held. -/
def createStep (mount : Option Mount) : Option (InboundMounts Fetch Mount) :=
  match s.serve with
  | .creating job =>
    some { s with
      serve := match mount with
        | none => .waiting
        | some mount => .publishing job mount
      attempted := s.attempted ++ [job.generation] }
  | _ => none

def next (fileUri : Mount → FileName → Option (List UInt8)) (maxEntries : Nat) (s : InboundMounts Fetch Mount) :
    Action Mount → Option (InboundMounts Fetch Mount)
  | .tick clock => some { s with transfer := { s.transfer with clock } }
  | .call operation => if s.executor = .idle then some { s with executor := operation.stage } else none
  | .localOwner => if s.watcher = .idle then some { s with watcher := .retiring } else none
  | .executor => (s.protocol maxEntries s.executor).map fun (t, stage) => { t with executor := stage }
  | .watcher => (s.protocol maxEntries s.watcher).map fun (t, stage) => { t with watcher := stage }
  | .serve => s.serveStep fileUri
  | .create mount => s.createStep mount
  | .writeText data => some { s with pending := some (.text data) }
  | .writeImage data => some { s with pending := some (.image data) }
  | .takePending => some { s with pending := none }

def runs (fileUri : Mount → FileName → Option (List UInt8)) (maxEntries : Nat) (clock : Int) :
    StepSystem (InboundMounts Fetch Mount) (Action Mount) :=
  .ofFun (.new clock) (next fileUri maxEntries)

/-- What the service's thread does, whether it makes a mount or not. -/
inductive ServiceStep : InboundMounts Fetch Mount → Prop
  | ended : s.serve = .waiting → s.service.closed = true → ServiceStep { s with serve := .ended, mounted := [] }
  | told : s.serve = .waiting → s.service.closed = false → ServiceStep { s with
      service := { s.service with dirty := false, job := none }
      serve := .retaining s.mounted s.service.job
      mounted := [] }
  | retained {held : Nat × Mount} {left : List (Nat × Mount)} {job : Option MountJob} :
    s.serve = .retaining (held :: left) job → (s.transfer.selection held.1).isSome = true →
    ServiceStep { s with serve := .retaining left job, mounted := s.mounted ++ [held] }
  | dropped {held : Nat × Mount} {left : List (Nat × Mount)} {job : Option MountJob} :
    s.serve = .retaining (held :: left) job → ServiceStep { s with serve := .retaining left job }
  | settled : s.serve = .retaining [] none → ServiceStep { s with serve := .waiting }
  | taken {job : MountJob} : s.serve = .retaining [] (some job) → ServiceStep { s with serve := .checking job }
  | skipped {job : MountJob} : s.serve = .checking job → (job.roots = [] ∨ s.transfer.live job.generation = false) →
    ServiceStep { s with serve := .waiting }
  | checked {job : MountJob} : s.serve = .checking job → s.transfer.live job.generation = true →
    ServiceStep { s with serve := .creating job }
  | failed {job : MountJob} : s.serve = .creating job →
    ServiceStep { s with serve := .waiting, attempted := s.attempted ++ [job.generation] }
  | made {job : MountJob} (mount : Mount) : s.serve = .creating job →
    ServiceStep { s with serve := .publishing job mount, attempted := s.attempted ++ [job.generation] }
  | published {job : MountJob} {mount : Mount} (payload : PendingWrite) : s.serve = .publishing job mount →
    s.transfer.live job.generation = true → ServiceStep { s with
      pending := some payload
      serve := .inserting job.generation mount
      owner := job.generation
      published := s.published ++ [job.generation] }
  | unpublished {job : MountJob} {mount : Mount} : s.serve = .publishing job mount → ServiceStep { s with serve := .waiting }
  | inserted {generation : Nat} {mount : Mount} : s.serve = .inserting generation mount → ServiceStep { s with
      serve := .waiting
      mounted := s.mounted.filter (fun held => held.1 ≠ generation) ++ [(generation, mount)] }

variable {s} {t : InboundMounts Fetch Mount} {fileUri : Mount → FileName → Option (List UInt8)}

theorem serveStep_service (step : s.serveStep fileUri = some t) : s.ServiceStep t := by
  unfold serveStep at step
  split at step
  · rename_i waiting
    split at step
    · rename_i closed
      cases step
      exact .ended waiting closed
    · rename_i closed
      obtain ⟨_, same⟩ := Option.ite_none_right_eq_some.mp step
      cases same
      exact .told waiting (Bool.eq_false_iff.mpr closed)
  · rename_i held left job retaining
    cases step
    split
    · rename_i serves
      exact .retained retaining serves
    · exact .dropped retaining
  · rename_i retaining
    cases step
    exact .settled retaining
  · rename_i job retaining
    cases step
    exact .taken retaining
  · rename_i job checking
    cases step
    split
    · rename_i skips
      exact .skipped checking (skips.imp_left List.isEmpty_iff.mp)
    · rename_i goesOn
      exact .checked checking (Bool.of_not_eq_false fun dead => goesOn (.inr dead))
  · rename_i job mount publishing
    split at step
    · rename_i payload live _
      cases step
      exact .published payload publishing live
    · cases step
      exact .unpublished publishing
  · rename_i generation mount inserting
    cases step
    exact .inserted inserting
  · cases step
  · cases step

theorem createStep_service {mount : Option Mount} (step : s.createStep mount = some t) : s.ServiceStep t := by
  unfold createStep at step
  split at step
  · rename_i job creating
    cases step
    cases mount with
    | none => exact .failed creating
    | some mount => exact .made mount creating
  · cases step

end InboundMounts

end HyprRdp
