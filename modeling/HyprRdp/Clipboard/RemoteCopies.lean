import HyprRdp.Clipboard.Formats
import HyprRdp.Clipboard.InboundMounts
import HyprRdp.Lib.Runs

namespace HyprRdp

/-- What a local announcement offered, to tell the client's echo of it from a copy of its own. -/
structure ClipboardEchoCandidate where
  text : Option (List UInt8)
  cfDib : Option (List UInt8)
  deriving DecidableEq

/-- The file side of the backend. -/
structure InboundClipboard (Fetch : Type) where
  transfer : TransferState Fetch
  service : MountService

structure RemoteSelectionRequest where
  format : Nat
  fileGeneration : Option Nat
  deriving DecidableEq

/-- What the answer that is still to come is for. It carries no tag: it is waited for, or
it is superseded and drained before the latest selection is asked for. -/
inductive RemoteRequest
  | waiting (fileGeneration : Option Nat)
  | draining (selection : Option RemoteSelectionRequest)
  deriving DecidableEq

/-- A copy on the client, with what the backend knew of its own file side then. -/
structure RemoteCopy where
  formats : List ClipboardFormat
  files : Bool
  generation : Option Nat

/-- A paste request, with the number of copies that had come before it. -/
structure PasteRequest where
  format : Nat
  copies : Nat
  deriving DecidableEq

/-- The clipboard backend. The last four fields are the history: the copies and the paste requests, the oldest
first, the answers received, and the generations of files that something else than a copy or a list ended. -/
structure HyprCliprdrBackend (Fetch : Type) where
  connected : Bool
  inbound : Option (InboundClipboard Fetch)
  pendingWrite : Option PendingWrite
  echoCandidate : Option ClipboardEchoCandidate
  lastRequestedFormat : Option Nat
  pendingEchoCandidate : Option ClipboardEchoCandidate
  remoteRequest : Option RemoteRequest
  copies : List RemoteCopy
  requests : List PasteRequest
  answers : Nat
  retired : List Nat

def fileFormat (formats : List ClipboardFormat) : Option Nat :=
  (formats.find? fun format => format.name = some fileListName).map (·.id)

/-- The file list comes first where files are taken at all. -/
def preferredFormat (files : Bool) (formats : List ClipboardFormat) : Option Nat :=
  (if files then fileFormat formats else none).or
    (SelectionKind.remotePreference.findSome? fun kind => kind.remoteFormat formats)

namespace RemoteCopy

variable (copy : RemoteCopy)

def preferred : Option Nat := preferredFormat copy.files copy.formats

/-- The generation that a file list belongs to, when the list is what is preferred. -/
def fileGeneration : Option Nat := if copy.files ∧ (fileFormat copy.formats).isSome then copy.generation else none

def request : Option RemoteSelectionRequest := copy.preferred.map fun format => ⟨format, copy.fileGeneration⟩

end RemoteCopy

namespace HyprCliprdrBackend

variable {Fetch : Type}

inductive Answer
  | formatData (response : FormatDataResponse)
  | fileList (files : List FileDescriptor) (dataId : Option Nat)

inductive Action
  | remoteCopy (formats : List ClipboardFormat)
  | answer (answer : Answer)
  | localOwner
  | capabilities (stream huge locking : Bool)
  | outgoingLocksCleared (dataIds : List Nat)
  | announce (candidate : Option ClipboardEchoCandidate)
  | takePendingWrite
  | publishMount (uriList gnomeCopiedFiles : List UInt8)
  | tick (clock : Int)
  | disconnect

/-- A backend as it is built, with an event sender or without one, and with a file side or without it. -/
def new (connected : Bool) (clock : Option Int) : HyprCliprdrBackend Fetch :=
  { connected
    inbound := clock.map fun clock => ⟨.new clock, ⟨false, false, none⟩⟩
    pendingWrite := none
    echoCandidate := none
    lastRequestedFormat := none
    pendingEchoCandidate := none
    remoteRequest := none
    copies := []
    requests := []
    answers := 0
    retired := [] }

variable (s : HyprCliprdrBackend Fetch)

def filesEnabled : Bool := s.inbound.any fun inbound => inbound.transfer.enabled

def generation : Option Nat := s.inbound.bind fun inbound => inbound.transfer.liveGeneration

/-- An operation on the file side that drops a files payload nobody has taken yet. -/
def onInbound (operation : TransferState Fetch → TransferState Fetch) : HyprCliprdrBackend Fetch :=
  match s.inbound with
  | none => s
  | some inbound =>
    { s with
      inbound := some ⟨operation inbound.transfer, InboundMounts.updateService inbound.service none false⟩
      pendingWrite := InboundMounts.dropUnpublishedFiles s.pendingWrite }

def retireSelection : HyprCliprdrBackend Fetch := s.onInbound fun transfer => transfer.retireGeneration.1

def setCapabilities (stream huge locking : Bool) : HyprCliprdrBackend Fetch :=
  s.onInbound fun transfer => (transfer.capabilities stream huge locking).1

def releaseLocks (dataIds : List Nat) : HyprCliprdrBackend Fetch :=
  match s.inbound with
  | none => s
  | some inbound =>
    let (transfer, released) := inbound.transfer.releaseLocks dataIds
    { s with
      inbound := some ⟨transfer,
        if released.isEmpty then inbound.service else InboundMounts.updateService inbound.service none false⟩
      pendingWrite :=
        if s.generation.any fun generation => released.contains generation then
          InboundMounts.dropUnpublishedFiles s.pendingWrite
        else s.pendingWrite }

def acceptFor (maxEntries generation : Nat) (files : List FileDescriptor) (dataId : Option Nat) : HyprCliprdrBackend Fetch :=
  match s.inbound with
  | none => s
  | some inbound =>
    match inbound.transfer.acceptFor maxEntries generation files dataId with
    | (transfer, none) => { s with inbound := some { inbound with transfer } }
    | (transfer, some (generation, roots, _)) =>
      { s with inbound := some ⟨transfer, InboundMounts.updateService inbound.service (some ⟨generation, roots⟩) false⟩ }

def requestRemoteSelection (selection : RemoteSelectionRequest) : HyprCliprdrBackend Fetch :=
  if s.connected then
    { s with
      lastRequestedFormat := some selection.format
      remoteRequest := some (.waiting selection.fileGeneration)
      requests := s.requests ++ [⟨selection.format, s.copies.length⟩] }
  else { s with pendingEchoCandidate := none }

/-- The answer was not for us to take. What was put off behind it is asked for now,
unless it is a list of files whose generation has ended meanwhile. -/
def finishRemoteRequest (request : RemoteRequest) : HyprCliprdrBackend Fetch :=
  let t := { s with lastRequestedFormat := none }
  match request with
  | .draining (some selection) =>
    if selection.fileGeneration.any fun generation => t.generation ≠ some generation then
      { t with pendingEchoCandidate := none }
    else t.requestRemoteSelection selection
  | _ => { t with pendingEchoCandidate := none }

def onRemoteCopy (formats : List ClipboardFormat) : HyprCliprdrBackend Fetch :=
  let t := s.retireSelection
  let echoCandidate := t.echoCandidate
  let copy : RemoteCopy := ⟨formats, t.filesEnabled, t.generation⟩
  let t := { t with echoCandidate := none, copies := t.copies ++ [copy] }
  if t.remoteRequest.isSome ∨ t.lastRequestedFormat.isSome then
    { t with
      remoteRequest := some (.draining copy.request)
      pendingEchoCandidate := echoCandidate.or t.pendingEchoCandidate }
  else
    match copy.request with
    | none => { t with lastRequestedFormat := none, pendingEchoCandidate := none }
    | some selection => { t with pendingEchoCandidate := echoCandidate }.requestRemoteSelection selection

/-- What an answer in this format puts on the Wayland clipboard; the copy that echoes our own puts nothing. -/
def received (bitmap : BitmapApi) (format : Option Nat) (echo : Option ClipboardEchoCandidate) (data : List UInt8) :
    Option PendingWrite :=
  if format = some ClipboardFormatId.cfDibV5 then (bitmap.dibV5ToPng data).map .image
  else if format = some ClipboardFormatId.cfDib then
    if echo.bind (·.cfDib) = some data then none
    else ((bitmap.dibToPng data).or ((fixBitfieldsDib data).bind bitmap.dibToPng)).map .image
  else if format = some ClipboardFormatId.cfUnicodeText then
    let utf8 := utf16leToUtf8 data
    if utf8.isEmpty then none
    else
      let normalized := normalizeLf utf8
      if (echo.bind (·.text)).any fun announced => normalizeLf (utf8Lossy announced) = normalized then none
      else some (.text normalized)
  else none

def handleFormatDataResponse (bitmap : BitmapApi) (response : FormatDataResponse) (maxClipboardSize : Nat) :
    HyprCliprdrBackend Fetch :=
  let t := { s with lastRequestedFormat := none, pendingEchoCandidate := none }
  if response.isError ∨ response.data.isEmpty ∨ maxClipboardSize < response.data.length then t
  else
    { t with
      pendingWrite := (received bitmap s.lastRequestedFormat s.pendingEchoCandidate response.data).or s.pendingWrite }

def onFormatDataResponse (bitmap : BitmapApi) (response : FormatDataResponse) : HyprCliprdrBackend Fetch :=
  let t := { s with remoteRequest := none }
  match s.remoteRequest with
  | some (.draining selection) => t.finishRemoteRequest (.draining selection)
  | some (.waiting (some generation)) => t.finishRemoteRequest (.waiting (some generation))
  | some (.waiting none) | none => t.handleFormatDataResponse bitmap response maxClipboardSize

def onRemoteFileList (maxEntries : Nat) (files : List FileDescriptor) (dataId : Option Nat) : HyprCliprdrBackend Fetch :=
  let t := { s with remoteRequest := none }
  match s.remoteRequest with
  | some (.waiting (some generation)) =>
    { t with lastRequestedFormat := none, pendingEchoCandidate := none }.acceptFor maxEntries generation files dataId
  | some request => t.finishRemoteRequest request
  | none => t

def onAnswer (bitmap : BitmapApi) (maxEntries : Nat) (answer : Answer) : HyprCliprdrBackend Fetch :=
  match answer with
  | .formatData response => s.onFormatDataResponse bitmap response
  | .fileList files dataId => s.onRemoteFileList maxEntries files dataId

/-- Records the generation that an operation ended. -/
def ended (t : HyprCliprdrBackend Fetch) : HyprCliprdrBackend Fetch :=
  { t with retired := t.retired ++ if t.generation = s.generation then [] else s.generation.toList }

def next (bitmap : BitmapApi) (maxEntries : Nat) (s : HyprCliprdrBackend Fetch) : Action → Option (HyprCliprdrBackend Fetch)
  | .remoteCopy formats => some (s.onRemoteCopy formats)
  | .answer answer => some ({ s with answers := s.answers + 1 }.onAnswer bitmap maxEntries answer)
  | .localOwner => some (s.ended s.retireSelection)
  | .capabilities stream huge locking => some (s.ended (s.setCapabilities stream huge locking))
  | .outgoingLocksCleared dataIds => some (s.ended (s.releaseLocks dataIds))
  | .announce candidate => some { s with echoCandidate := candidate }
  | .takePendingWrite => some { s with pendingWrite := none }
  | .publishMount uriList gnomeCopiedFiles => some { s with pendingWrite := some (.files uriList gnomeCopiedFiles) }
  | .tick clock =>
    some { s with inbound := s.inbound.map fun inbound => { inbound with transfer := { inbound.transfer with clock } } }
  | .disconnect => some { s with connected := false }

def runs (bitmap : BitmapApi) (maxEntries : Nat) (connected : Bool) (clock : Option Int) :
    StepSystem (HyprCliprdrBackend Fetch) Action :=
  .ofFun (.new connected clock) (next bitmap maxEntries)

/-- The client answers a paste request once, and nothing else. -/
def Answering (s : HyprCliprdrBackend Fetch) : Action → Prop
  | .answer _ => s.answers < s.requests.length
  | _ => True

instance : DecidablePred s.Answering
  | .answer _ => inferInstanceAs (Decidable (s.answers < s.requests.length))
  | .remoteCopy _ | .localOwner | .capabilities _ _ _ | .outgoingLocksCleared _ | .announce _ | .takePendingWrite
  | .publishMount _ _ | .tick _ | .disconnect => inferInstanceAs (Decidable True)

end HyprCliprdrBackend

end HyprRdp
