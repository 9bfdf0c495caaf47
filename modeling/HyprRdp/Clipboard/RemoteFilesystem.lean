import HyprRdp.Clipboard.Transfer
import HyprRdp.Lib.Paging

namespace HyprRdp

inductive Errno
  | eio
  | enoent
  | enotdir
  | eisdir
  deriving DecidableEq, Repr

inductive FileType
  | directory
  | regularFile
  deriving DecidableEq, Repr

inductive FopenFlags
  | directIo
  deriving DecidableEq, Repr

structure FileAttr where
  ino : Nat
  size : Nat
  blocks : Nat
  atime : Int
  mtime : Int
  ctime : Int
  crtime : Int
  kind : FileType
  perm : Nat
  nlink : Nat
  uid : Nat
  gid : Nat
  rdev : Nat
  blksize : Nat
  flags : Nat
  deriving DecidableEq, Repr

/-- A row of a directory as it is replied, with the offset of the row behind it. -/
structure DirectoryEntry where
  inode : Nat
  offset : Nat
  kind : FileType
  name : FileName
  deriving DecidableEq, Repr

def RemoteNode.permissions (node : RemoteNode) : Nat :=
  match node.isDirectory, node.readOnly with
  | true, false => 0o755
  | true, true => 0o555
  | false, false => 0o644
  | false, true => 0o444

def fileType (node : RemoteNode) : FileType := if node.isDirectory then .directory else .regularFile

/-- The sum saturates, and so does the count. -/
def RemoteTree.linkCount (tree : RemoteTree) (inode : Nat) : Nat :=
  match tree.node inode with
  | none => 1
  | some node =>
    if node.isDirectory = false then 1
    else
      let subdirectories := ((tree.children inode).filter fun child => (tree.node child).any (·.isDirectory)).length
      min (2 + min subdirectories u32Max) u32Max

def TransferState.withTree {Fetch T : Type} (s : TransferState Fetch) (generation : Nat) (f : RemoteTree → T) : Option T :=
  (s.selection generation).map fun selection => f selection.tree

/-- What answers on the mount: one selection of the transfer, for the user who runs the server. -/
structure RemoteFilesystem where
  generation : Nat
  uid : Nat
  gid : Nat

namespace RemoteFilesystem

variable {Fetch : Type} (fs : RemoteFilesystem) (s : TransferState Fetch)

def nodeAttr (tree : RemoteTree) (inode : Nat) (node : RemoteNode) : FileAttr where
  ino := inode
  size := node.size.getD 0
  blocks := (node.size.getD 0 + 511) / 512
  atime := node.modified
  mtime := node.modified
  ctime := node.modified
  crtime := node.modified
  kind := fileType node
  perm := node.permissions
  nlink := tree.linkCount inode
  uid := fs.uid
  gid := fs.gid
  rdev := 0
  blksize := 4096
  flags := 0

/-- `sized` says how the call for the size ended, and `s` is the transfer behind it. -/
def getattr (sized : Bool) (ino : Nat) : Except Errno FileAttr :=
  if sized = false then .error .eio
  else
    match (s.withTree fs.generation fun tree => (tree.node ino).map (fs.nodeAttr tree ino)).join with
    | some attr => .ok attr
    | none => .error .enoent

/-- The name is looked up in the transfer as `first`, and its attributes are read when its size has been asked for. -/
def lookup (first : TransferState Fetch) (sized : Bool) (parent : Nat) (name : FileName) : Except Errno FileAttr :=
  match (first.withTree fs.generation fun tree => tree.lookup parent name).join with
  | none => .error .enoent
  | some inode => fs.getattr s sized inode

def entries (tree : RemoteTree) (ino : Nat) (node : RemoteNode) : List (Nat × FileType × FileName) :=
  [(ino, FileType.directory, ['.']), (node.parent, .directory, ['.', '.'])] ++
    (tree.children ino).filterMap fun inode => (tree.node inode).map fun child => (inode, fileType child, child.name)

def listing (tree : RemoteTree) (ino : Nat) : Except Errno (List (Nat × FileType × FileName)) :=
  match tree.node ino with
  | none => .error .enoent
  | some node => if node.isDirectory = false then .error .enotdir else .ok (entries tree ino node)

def numbered (entries : List (Nat × FileType × FileName)) : List DirectoryEntry :=
  entries.mapIdx fun entryOffset entry => ⟨entry.1, entryOffset + 1, entry.2.1, entry.2.2⟩

/-- The rows from an offset on, as many as the reply has room for. -/
def readdir (entrySize : FileName → Nat) (room ino offset : Nat) : Except Errno (List DirectoryEntry) :=
  match (s.withTree fs.generation fun tree => listing tree ino).getD (.error .enoent) with
  | .error errno => .error errno
  | .ok entries => .ok (Paging.page (fun entry => entrySize entry.name) room ((numbered entries).drop offset))

/-- Reads bypass the page cache, so that their sizes come through. -/
def openFile (ino : Nat) : Except Errno FopenFlags :=
  match ((s.withTree fs.generation fun tree => (tree.node ino).map RemoteNode.kind).join : Option RemoteNodeKind) with
  | some (.file _) => .ok .directIo
  | some .directory => .error .eisdir
  | none => .error .enoent

/-- The transfer when the calls on one directory are answered: those that list it, each with the room in its reply, and for
each name the lookup, the end of the call for its size, which was answered or not, and the opening of the file. -/
structure Visit (Fetch : Type) where
  listed : List (TransferState Fetch × Nat)
  found : FileName → TransferState Fetch
  sized : FileName → TransferState Fetch
  answered : FileName → Bool
  opened : FileName → TransferState Fetch

/-- What is found behind each entry, one entry after the other. -/
def copyEach {α β : Type} (copy : α → Option (List β)) : List α → Option (List β)
  | [] => some []
  | entry :: rest => (copy entry).bind fun first => (copyEach copy rest).map (first ++ ·)

/-- What a copy makes of a name in a directory: a file is opened, and the copy goes on in a directory. What cannot be
read is left out. -/
def copyEntry (visit : Visit Fetch) (goOn : Nat → List FileName → Option (List (List FileName × FileAttr))) (ino : Nat)
    (path : List FileName) (name : FileName) : Option (List (List FileName × FileAttr)) :=
  if name = ['.'] ∨ name = ['.', '.'] then some []
  else
    match fs.lookup (visit.sized name) (visit.found name) (visit.answered name) ino name with
    | .error .eio => some []
    | .error _ => none
    | .ok attr =>
      if attr.kind = .directory then (goOn attr.ino (path ++ [name])).map ((path ++ [name], attr) :: ·)
      else (fs.openFile (visit.opened name) attr.ino).toOption.map fun _ => [(path ++ [name], attr)]

/-- A program that copies everything below a directory. -/
def copyOut (entrySize : FileName → Nat) (visits : List FileName → Visit Fetch) :
    (depth ino : Nat) → (path : List FileName) → Option (List (List FileName × FileAttr))
  | 0, _, _ => none
  | depth + 1, ino, path =>
    (Paging.gather (fun call offset => (fs.readdir call.1 entrySize call.2 ino offset).toOption) DirectoryEntry.offset
      (visits path).listed 0).bind fun entries =>
        copyEach (fs.copyEntry (visits path) (copyOut entrySize visits depth) ino path) (entries.map DirectoryEntry.name)

end RemoteFilesystem

end HyprRdp
