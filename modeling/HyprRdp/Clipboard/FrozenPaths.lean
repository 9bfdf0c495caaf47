import HyprRdp.Clipboard.FileWorker
import HyprRdp.Clipboard.RemoteTree
import Mathlib.Data.List.DropRight

namespace HyprRdp

abbrev PathBuf := List UInt8

namespace PathBuf

def separator : UInt8 := 47

/-- Paths are ordered by their components. -/
def before (path other : PathBuf) : Bool := decide (path.splitOn separator ≤ other.splitOn separator)

end PathBuf

/-- The capitals that the Unicode tables give for a character. A digit stands for itself. -/
structure Uppercase where
  capitals : Char → List Char
  digit : ∀ character, character.isDigit = true → capitals character = [character]

/-- The metadata of an entry that a walk meets. -/
structure EntryMetadata extends Metadata where
  isDir : Bool
  /-- In nanoseconds of the Unix epoch. -/
  modified : Option Int
  oneKind : isFile = true → isDir = false

/-- A file system that does not change. A missing answer is an error. -/
structure FileSystem where
  /-- The last component of a path, with what is no Unicode replaced. -/
  fileName : PathBuf → Option FileName
  /-- Symbolic links are followed. -/
  metadata : PathBuf → Option EntryMetadata
  openSource : PathBuf → Option (Option EntryMetadata)
  readDir : PathBuf → Option (List (Option PathBuf))

/-- A file of a selection together with its place in the file list. -/
structure ListedFile extends FrozenFile where
  descriptor : FileDescriptor
  deriving DecidableEq

def utf16Len (name : FileName) : Nat := (name.map fun character => if character.toNat < 0x10000 then 1 else 2).sum

/-- Each parent contributes its separator; the terminal NUL is in the bound. -/
def wireNameFits (parent : List FileName) (name : FileName) : Bool :=
  (parent.map fun part => utf16Len part + 1).sum + utf16Len name < 260

def isWindowsDeviceName (stem : FileName) : Bool :=
  let name := (stem.takeWhile (· ≠ '.')).map Char.toUpper
  name ∈ [['C', 'O', 'N'], ['P', 'R', 'N'], ['A', 'U', 'X'], ['N', 'U', 'L']] ||
    (name.take 3 ∈ [['C', 'O', 'M'], ['L', 'P', 'T']] &&
      name.drop 3 ∈ [['1'], ['2'], ['3'], ['4'], ['5'], ['6'], ['7'], ['8'], ['9'], ['¹'], ['²'], ['³']])

def unnamed : FileName := ['u', 'n', 'n', 'a', 'm', 'e', 'd']

/-- The characters that a name on the wire cannot have: 0x22 is the double quote. -/
def isForbidden (character : Char) : Bool :=
  character ∈ ['<', '>', ':', Char.ofNat 0x22, '/', '\\', '|', '?', '*'] || character.toNat ≤ 0x1f

def sanitizeFileName (name : FileName) : FileName :=
  let replaced := name.map fun character => if isForbidden character then '_' else character
  let trimmed := replaced.rdropWhile fun character => character = '.' || character = ' '
  let sanitized := if trimmed = [] ∨ trimmed = ['.'] ∨ trimmed = ['.', '.'] then unnamed else trimmed
  if isWindowsDeviceName sanitized then
    sanitized.takeWhile (· ≠ '.') ++ '_' :: sanitized.dropWhile (· ≠ '.')
  else sanitized

def splitExtension (name : FileName) : FileName × FileName :=
  let index := name.length - 1 - name.reverse.idxOf '.'
  if '.' ∈ name ∧ index ≠ 0 then (name.take index, name.drop index) else (name, [])

def windowsNameKey (upper : Uppercase) (name : FileName) : FileName := name.flatMap upper.capitals

def numbered (stem extension : FileName) (suffix : Nat) : FileName :=
  stem ++ ' ' :: '(' :: Nat.toDigits 10 suffix ++ ')' :: extension

/-- The first candidate that is not taken, among as many as there is fuel for. -/
def freeName (taken : FileName → Bool) (stem extension : FileName) : Nat → Nat → FileName → FileName
  | 0, _, candidate => candidate
  | fuel + 1, suffix, candidate =>
    if taken candidate then freeName taken stem extension fuel (suffix + 1) (numbered stem extension suffix)
    else candidate

/-- The names in use are kept by the path of their directory. -/
def uniqueFileName (upper : Uppercase) (parent : List FileName) (fileName : Option FileName)
    (usedNames : List (List FileName × FileName)) : FileName :=
  let sanitized := sanitizeFileName (fileName.getD unnamed)
  freeName (fun candidate => (parent, windowsNameKey upper candidate) ∈ usedNames) (splitExtension sanitized).1
    (splitExtension sanitized).2 (usedNames.length + 1) 2 sanitized

/-- The time of a file in the units of the wire, or zero. -/
def filetime (modified : Option Int) : Nat :=
  match modified with
  | some time =>
    if 0 ≤ time then
      min (time.toNat / 1000000000 + windowsEpochOffsetSecs) (2 ^ 64 - 1) * 10000000 % 2 ^ 64
    else 0
  | none => 0

def ClipboardFileAttributes.directories : ClipboardFileAttributes := ⟨true, false, false⟩

def ClipboardFileAttributes.plain : ClipboardFileAttributes := ⟨false, false, true⟩

def frozenFile (path : PathBuf) (parent : List FileName) (name : FileName) (metadata : EntryMetadata)
    (attributes : ClipboardFileAttributes) : ListedFile where
  path := path
  device := metadata.dev
  inode := metadata.ino
  descriptor := {
    name := name
    relativePath := if parent = [] then none else some (['\\'].intercalate parent)
    attributes := some attributes
    fileSize := if metadata.isDir then none else some metadata.len
    lastWriteTime := some (filetime metadata.modified) }

/-- One recursive enumeration of a clipboard selection. -/
structure Walk where
  hugeFiles : Bool
  maxEntries : Nat
  remaining : Nat
  ancestorDirectories : List (Nat × Nat)
  usedNames : List (List FileName × FileName)
  files : List ListedFile
  truncated : Bool

namespace Walk

def new (maxEntries : Nat) : Walk := ⟨true, maxEntries, maxEntries, [], [], [], false⟩

def isFull (walk : Walk) : Bool := walk.maxEntries ≤ walk.files.length

def push (walk : Walk) (file : ListedFile) : Walk := { walk with files := walk.files ++ [file] }

def enter (walk : Walk) (metadata : EntryMetadata) : Walk :=
  { walk with ancestorDirectories := (metadata.dev, metadata.ino) :: walk.ancestorDirectories }

def leave (walk : Walk) (metadata : EntryMetadata) : Walk :=
  { walk with ancestorDirectories := walk.ancestorDirectories.erase (metadata.dev, metadata.ino) }

def use (walk : Walk) (upper : Uppercase) (parent : List FileName) (name : FileName) : Walk :=
  { walk with usedNames := (parent, windowsNameKey upper name) :: walk.usedNames }

/-- A slot for each entry looked at, also for one that cannot be read. -/
def collectChildren (walk : Walk) : List (Option PathBuf) → Walk × List PathBuf
  | [] => (walk, [])
  | entry :: rest =>
    if walk.remaining = 0 then ({ walk with truncated := true }, [])
    else
      let collected := { walk with remaining := walk.remaining - 1 }.collectChildren rest
      (collected.1, entry.toList ++ collected.2)

def freezeEach (freeze : Walk → PathBuf → Walk) (walk : Walk) : List PathBuf → Walk
  | [] => walk
  | child :: rest =>
    if walk.isFull then { walk with truncated := true } else (freeze walk child).freezeEach freeze rest

/-- Directories first, so every entry arrives after the directory holding it. -/
def freezeChildren (fs : FileSystem) (freeze : Walk → PathBuf → List FileName → Walk) (walk : Walk) (path : PathBuf)
    (parent : List FileName) (name : FileName) : Walk :=
  match fs.readDir path with
  | none => walk
  | some entries =>
    let collected := walk.collectChildren entries
    let children := collected.2.mergeSort PathBuf.before
    let parts := children.partition fun child => (fs.metadata child).any (·.isDir)
    collected.1.freezeEach (fun walk child => freeze walk child (parent ++ [name])) (parts.1 ++ parts.2)

def freezeFile (fs : FileSystem) (upper : Uppercase) (walk : Walk) (path : PathBuf) (parent : List FileName) : Walk :=
  match fs.openSource path with
  | none => walk
  | some none => walk
  | some (some metadata) =>
    if metadata.isFile = false then walk
    else if walk.hugeFiles = false ∧ 2 ^ 32 - 1 < metadata.len then walk
    else
      let name := uniqueFileName upper parent (fs.fileName path) walk.usedNames
      let used := walk.use upper parent name
      if wireNameFits parent name then used.push (frozenFile path parent name metadata .plain) else used

/-- The walk of one entry. It ends `levels` levels down, where no directory is entered any more. -/
def freezePath (fs : FileSystem) (upper : Uppercase) : Nat → Walk → PathBuf → List FileName → Walk
  | 0, walk, _, _ => if walk.isFull then { walk with truncated := true } else walk
  | levels + 1, walk, path, parent =>
    if walk.isFull then { walk with truncated := true }
    else
      match fs.metadata path with
      | none => walk
      | some metadata =>
        if metadata.isFile then walk.freezeFile fs upper path parent
        else if metadata.isDir = false then walk
        else if (metadata.dev, metadata.ino) ∈ walk.ancestorDirectories then walk
        else
          let name := uniqueFileName upper parent (fs.fileName path) walk.usedNames
          let entered := (walk.enter metadata).use upper parent name
          if wireNameFits parent name then
            let listed := entered.push (frozenFile path parent name metadata .directories)
            (listed.freezeChildren fs (freezePath fs upper levels) path parent name).leave metadata
          else entered.leave metadata

/-- The entries of the selection themselves are at depth zero. -/
def freezeSelected (fs : FileSystem) (upper : Uppercase) (walk : Walk) : List PathBuf → Walk
  | [] => walk
  | path :: rest =>
    if walk.remaining = 0 then { walk with truncated := true }
    else
      let frozen := freezePath fs upper (maxDirectoryDepth + 1) { walk with remaining := walk.remaining - 1 } path []
      if frozen.isFull then { frozen with truncated := frozen.truncated || !rest.isEmpty }
      else frozen.freezeSelected fs upper rest

end Walk

def freezePathsWithLimits (fs : FileSystem) (upper : Uppercase) (paths : List PathBuf) (maxEntries : Nat)
    (hugeFiles : Bool) : List ListedFile :=
  ({ Walk.new maxEntries with hugeFiles := hugeFiles }.freezeSelected fs upper paths).files

end HyprRdp
