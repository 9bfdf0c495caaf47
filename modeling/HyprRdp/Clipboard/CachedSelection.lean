import HyprRdp.Clipboard.FileWorker
import HyprRdp.Clipboard.RemoteCopies
import Mathlib.Data.List.DropRight

namespace HyprRdp

/-- In milliseconds, like every time here. -/
def echoSuppressionTimeout : Nat := 2000

def echoSuppressionGrace : Nat := 100

/-- What a cache holds, with the number of the selection event whose offer it was read from. -/
structure Cached where
  data : List UInt8
  event : Nat
  deriving DecidableEq

/-- A selection of the compositor: its offer, what each read of the offer gives,
and whether the file worker takes the paths that it is handed. -/
structure SelectionEvent where
  id : Option Nat
  now : Nat
  read : String → Option (List UInt8)
  taken : Bool

namespace SelectionEvent

variable (event : SelectionEvent)

/-- The text that is read from the offer, unless it is too large. -/
def text (mime : String) : Option (List UInt8) :=
  (event.read mime).bind fun data => decodeWaylandTextOffer mime data maxClipboardSize

/-- The image that is read from the offer, as the RDP side takes it. -/
def dib (bitmap : BitmapApi) (mime : String) : Option (List UInt8) :=
  (event.read mime).bind fun png => if png.isEmpty then none else bitmap.pngToCfDib png

end SelectionEvent

/-- The watcher of the Wayland clipboard, with the caches that the backend answers from. The last two
fields are the history: how many selections were not our own echo, and the formats announced for the last one. -/
structure ClipState where
  connected : Bool
  suppressEchoUntil : Option Nat
  clipboardData : Option Cached
  clipboardImage : Option Cached
  pendingWrite : Option PendingWrite
  echoCandidate : Option ClipboardEchoCandidate
  worker : Bool
  files : FrozenSelection FrozenFile
  offerMimes : List (Nat × List String)
  events : Nat
  announced : List Nat

/-- The paths of the local files in a list of uris. -/
def uriListPaths (filePath : List UInt8 → Option (List UInt8)) (data : List UInt8) : List (List UInt8) :=
  ((utf8Lossy data).splitOn 10).filterMap fun line =>
    let line := line.rdropWhile fun byte => byte = 13
    if line.isEmpty ∨ line.head? = some 35 then none else filePath line

namespace ClipState

inductive Action
  | dataOffer (id : Nat)
  | offer (id : Nat) (mime : String)
  | selection (event : SelectionEvent)
  | write (pending : PendingWrite)
  | takePendingWrite (now : Nat)
  | requestFormatList
  | takeEchoCandidate
  | changeFiles (files : FrozenSelection FrozenFile)
  | disconnect

def new (worker : Bool) : ClipState :=
  { connected := true
    suppressEchoUntil := none
    clipboardData := none
    clipboardImage := none
    pendingWrite := none
    echoCandidate := none
    worker
    files := .default
    offerMimes := []
    events := 0
    announced := [] }

variable (s : ClipState)

def clearCachedSelection : ClipState :=
  { s with clipboardData := none, clipboardImage := none, files := s.files.clearSelection }

def localOwnerChanged : ClipState := { s with files := s.files.clearSelection }

/-- Suppression is armed before the source is replaced. -/
def takePendingWrite (now : Nat) : ClipState :=
  match s.pendingWrite with
  | none => s
  | some _ => { s with pendingWrite := none, suppressEchoUntil := some (now + echoSuppressionTimeout) }

def selectionIsOurEcho (now : Nat) : ClipState × Bool :=
  match s.suppressEchoUntil with
  | none => (s, false)
  | some deadline =>
    if deadline ≤ now then ({ s with suppressEchoUntil := none }, false)
    else ({ s with suppressEchoUntil := some (min deadline (now + echoSuppressionGrace)) }, true)

def removeOffer (id : Nat) : ClipState := { s with offerMimes := s.offerMimes.filter fun entry => entry.1 ≠ id }

def announceLocalFormats (formats : List Nat) : ClipState :=
  if formats.isEmpty then s
  else
    let candidate : ClipboardEchoCandidate :=
      { text := if ClipboardFormatId.cfUnicodeText ∈ formats then s.clipboardData.map (·.data) else none
        cfDib := if ClipboardFormatId.cfDib ∈ formats then s.clipboardImage.map (·.data) else none }
    { s with files := s.files.sendFormatAnnouncement.1, echoCandidate := if s.connected then some candidate else none }

/-- The caches of the formats that are not offered any more are emptied. -/
def clearUnoffered (mimes : List String) : ClipState :=
  { s with
    clipboardData := if (SelectionKind.text.offeredWaylandMime mimes).isNone then none else s.clipboardData
    clipboardImage := if (SelectionKind.image.offeredWaylandMime mimes).isNone then none else s.clipboardImage }

def readText (event : SelectionEvent) (mimes : List String) : ClipState :=
  match SelectionKind.text.offeredWaylandMime mimes with
  | none => s
  | some mime =>
    -- A failed or empty replacement must not serve the previous text.
    let t := { s with clipboardData := none }
    match event.text mime with
    | none => t
    | some data =>
      if data.isEmpty then t
      else { t with clipboardData := some ⟨data, s.events⟩, announced := s.announced ++ [ClipboardFormatId.cfUnicodeText] }

def readImage (bitmap : BitmapApi) (event : SelectionEvent) (mimes : List String) : ClipState :=
  match SelectionKind.image.offeredWaylandMime mimes with
  | none => s
  | some mime =>
    match event.dib bitmap mime with
    | none => s
    | some dib => { s with clipboardImage := some ⟨dib, s.events⟩, announced := s.announced ++ [ClipboardFormatId.cfDib] }

/-- Hands a selection of files to the worker, if there is one and files may be copied to the client. -/
def freeze (paths : List (List UInt8)) (taken : Bool) : ClipState × Bool :=
  if s.worker = false ∨ paths.isEmpty then (s, false)
  else ({ s with files := s.files.clearSelection }, s.files.streamEnabled && taken)

def readFiles (filePath : List UInt8 → Option (List UInt8)) (event : SelectionEvent) (mimes : List String) : ClipState :=
  match SelectionKind.files.offeredWaylandMime mimes with
  | none => s
  | some mime =>
    match event.read mime with
    | none => s
    | some uriList =>
      let (t, frozen) := s.freeze (uriListPaths filePath uriList) event.taken
      -- Lists without file entries remain ordinary text.
      if frozen = false ∧ (SelectionKind.text.offeredWaylandMime mimes).isNone ∧ uriList.isEmpty = false then
        { t with
          clipboardData := some ⟨uriList, s.events⟩
          announced := s.announced ++ [ClipboardFormatId.cfUnicodeText] }
      else t

def unsupported (mimes : List String) : Bool := SelectionKind.all.all fun kind => (kind.offeredWaylandMime mimes).isNone

def readOffer (bitmap : BitmapApi) (filePath : List UInt8 → Option (List UInt8)) (event : SelectionEvent)
    (mimes : List String) : ClipState :=
  if unsupported mimes then s.clearCachedSelection
  else
    let t := (((s.clearUnoffered mimes).readText event mimes).readImage bitmap event mimes).readFiles filePath event mimes
    t.announceLocalFormats t.announced

/-- A selection that is not our own echo. -/
def replaceSelection (bitmap : BitmapApi) (filePath : List UInt8 → Option (List UInt8)) (event : SelectionEvent) : ClipState :=
  let t := { s.localOwnerChanged with echoCandidate := none, events := s.events + 1, announced := [] }
  match event.id with
  | none => t.clearCachedSelection
  | some id =>
    match s.offerMimes.lookup id with
    | none => t.removeOffer id
    | some mimes => (t.removeOffer id).readOffer bitmap filePath event mimes

def selection (bitmap : BitmapApi) (filePath : List UInt8 → Option (List UInt8)) (event : SelectionEvent) : ClipState :=
  match s.selectionIsOurEcho event.now with
  | (t, false) => t.replaceSelection bitmap filePath event
  | (t, true) =>
    match event.id with
    | none => t
    | some id => t.removeOffer id

def hasLocalSelection : SelectionKind → Bool
  | .text => s.clipboardData.any fun cached => !cached.data.isEmpty
  | .image => s.clipboardImage.any fun cached => !cached.data.isEmpty
  | .files => false

/-- The formats that the client is told of when it asks. -/
def localFormats : List Nat := (SelectionKind.all.filter s.hasLocalSelection).filterMap (·.localFormat)

def onRequestFormatList : ClipState :=
  let t := s.announceLocalFormats s.localFormats
  { t with files := t.files.announceFileFormats.1 }

def onFormatDataRequest (unicodeString : List UInt8 → FormatDataResponse) (format : Nat) : FormatDataResponse :=
  match SelectionKind.ofLocalFormat format with
  | some .text =>
    match s.clipboardData with
    | none => .error
    | some cached => if cached.data.isEmpty then .error else unicodeString (toCrlf (utf8Lossy cached.data))
  | some .image =>
    match s.clipboardImage with
    | none => .error
    | some cached => if cached.data.isEmpty then .error else ⟨false, cached.data⟩
  | some .files | none => .error

def next (bitmap : BitmapApi) (filePath : List UInt8 → Option (List UInt8)) (s : ClipState) : Action → Option ClipState
  | .dataOffer id => some { s.removeOffer id with offerMimes := (s.removeOffer id).offerMimes ++ [(id, [])] }
  | .offer id mime =>
    some { s with
      offerMimes := s.offerMimes.map fun entry => if entry.1 = id then (entry.1, entry.2 ++ [mime]) else entry }
  | .selection event => some (s.selection bitmap filePath event)
  | .write pending => some { s with pendingWrite := some pending }
  | .takePendingWrite now => some (s.takePendingWrite now)
  | .requestFormatList => some s.onRequestFormatList
  | .takeEchoCandidate => some { s with echoCandidate := none }
  | .changeFiles files => some { s with files }
  | .disconnect => some { s with connected := false }

def runs (bitmap : BitmapApi) (filePath : List UInt8 → Option (List UInt8)) (worker : Bool) : StepSystem ClipState Action :=
  .ofFun (.new worker) (next bitmap filePath)

end ClipState

end HyprRdp
