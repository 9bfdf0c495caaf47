import Mathlib.Algebra.Ring.Nat

namespace HyprRdp

abbrev FileName := List Char

def maxDirectoryDepth : Nat := 128

def windowsEpochOffsetSecs : Nat := 11644473600

/-- A file time in nanoseconds of the Unix epoch. -/
def systemTime (filetime : Nat) : Int :=
  (filetime % 10000000 * 100 + filetime / 10000000 * 1000000000 : Nat) - (windowsEpochOffsetSecs * 1000000000 : Nat)

def rootInode : Nat := 1

def firstInode : Nat := rootInode + 1

/-- The attribute bits in use. -/
structure ClipboardFileAttributes where
  directory : Bool
  readonly : Bool
  normal : Bool
  deriving DecidableEq, Repr

structure FileDescriptor where
  name : FileName
  relativePath : Option FileName
  attributes : Option ClipboardFileAttributes
  fileSize : Option Nat
  lastWriteTime : Option Nat
  deriving DecidableEq, Repr

namespace FileDescriptor

def isDirectory (file : FileDescriptor) : Bool := file.attributes.any (·.directory)

def isReadOnly (file : FileDescriptor) : Bool := file.attributes.any (·.readonly)

def size (file : FileDescriptor) : Option Nat := if file.isDirectory then some 0 else file.fileSize

def isSeparator (character : Char) : Bool := character = '\\' || character = '/'

/-- The components that a descriptor names, or `none` when it has no place in the tree. -/
def pathComponents (file : FileDescriptor) : Option (List FileName) :=
  let components :=
    (((file.relativePath.getD []).splitOnP isSeparator) ++ file.name.splitOnP isSeparator).filter fun component => component ≠ []
  let depth := components.length - 1
  if components ≠ [] ∧ depth ≤ maxDirectoryDepth ∧
      components.all fun component => component ≠ ['.'] && component ≠ ['.', '.'] && !component.contains (Char.ofNat 0) then
    some components
  else none

end FileDescriptor

inductive RemoteNodeKind
  | directory
  | file (index : Nat)
  deriving DecidableEq, Repr

structure RemoteNode where
  name : FileName
  parent : Nat
  size : Option Nat
  modified : Int
  kind : RemoteNodeKind
  readOnly : Bool
  children : List Nat
  deriving DecidableEq, Repr

def RemoteNode.isDirectory (node : RemoteNode) : Bool := node.kind = .directory

/-- What a descriptor says about the entry it names, or a directory that is known by its contents only. -/
structure RemoteEntry where
  kind : RemoteNodeKind
  size : Option Nat
  modified : Option Int
  readOnly : Bool

def RemoteEntry.synthesizedDirectory : RemoteEntry := ⟨.directory, some 0, none, false⟩

/-- The root stands first among the nodes; the next one has the inode `base`. -/
structure RemoteTree where
  base : Nat
  nodes : List RemoteNode
  byName : List ((Nat × FileName) × Nat)
  builtAt : Int
  deriving DecidableEq, Repr

namespace RemoteTree

def rooted (builtAt : Int) (base : Nat) : RemoteTree :=
  ⟨base, [⟨[], rootInode, some 0, builtAt, .directory, true, []⟩], [], builtAt⟩

def empty (builtAt : Int) : RemoteTree := rooted builtAt firstInode

/-- Entries below the root. -/
def entries (tree : RemoteTree) : Nat := tree.nodes.length - 1

def isFull (tree : RemoteTree) (maxEntries : Nat) : Bool := maxEntries ≤ tree.entries

/-- Sums of inodes saturate. -/
def nextBase (tree : RemoteTree) : Nat := min (tree.base + tree.entries) (2 ^ 64 - 1)

def offset (tree : RemoteTree) (inode : Nat) : Option Nat :=
  if tree.base ≤ inode then some (inode - tree.base + 1) else none

def node (tree : RemoteTree) (inode : Nat) : Option RemoteNode :=
  if inode = rootInode then tree.nodes.head? else (tree.offset inode).bind fun offset => tree.nodes[offset]?

def setSize (tree : RemoteTree) (inode size : Nat) : RemoteTree × Bool :=
  match tree.offset inode with
  | none => (tree, false)
  | some offset =>
    match tree.nodes[offset]? with
    | none => (tree, false)
    | some node =>
      if node.isDirectory then (tree, false)
      else ({ tree with nodes := tree.nodes.set offset { node with size := some size } }, true)

def lookup (tree : RemoteTree) (parent : Nat) (name : FileName) : Option Nat := tree.byName.lookup (parent, name)

def children (tree : RemoteTree) (inode : Nat) : List Nat := ((tree.node inode).map (·.children)).getD []

def roots (tree : RemoteTree) : List Nat := tree.children rootInode

/-- A node of its own for the entry. It stands in the tree even if its parent turns out to have no place there. -/
def push (tree : RemoteTree) (parent : Nat) (name : FileName) (entry : RemoteEntry) : RemoteTree × Option Nat :=
  let inode := tree.base + tree.entries
  let node : RemoteNode :=
    ⟨name, parent, entry.size, entry.modified.getD tree.builtAt, entry.kind, entry.readOnly, []⟩
  let pushed := { tree with nodes := tree.nodes ++ [node], byName := tree.byName ++ [((parent, name), inode)] }
  match if parent = rootInode then some 0 else tree.offset parent with
  | none => (pushed, none)
  | some parentOffset =>
    if parentOffset < pushed.nodes.length then
      ({ pushed with
        nodes := pushed.nodes.modify parentOffset fun parent => { parent with children := parent.children ++ [inode] } }, some inode)
    else (pushed, none)

/-- A repeated directory is the same directory, and takes over what the client says about it. -/
def describe (tree : RemoteTree) (inode : Nat) (entry : RemoteEntry) : RemoteTree × Option Nat :=
  match tree.offset inode with
  | none => (tree, none)
  | some offset =>
    if offset < tree.nodes.length ∨ (entry.modified = none ∧ entry.readOnly = false) then
      ({ tree with
        nodes := tree.nodes.modify offset fun node => { node with
          modified := entry.modified.getD node.modified
          readOnly := node.readOnly || entry.readOnly } }, some inode)
    else (tree, none)

def insert (tree : RemoteTree) (parent : Nat) (name : FileName) (entry : RemoteEntry) (maxEntries : Nat) :
    RemoteTree × Option Nat :=
  match tree.lookup parent name with
  | some inode =>
    match tree.node inode with
    | none => (tree, none)
    | some node =>
      if node.isDirectory = false ∨ entry.kind ≠ .directory then (tree, none) else tree.describe inode entry
  | none =>
    if tree.isFull maxEntries then (tree, none)
    else if 2 ^ 64 ≤ tree.base + tree.entries then (tree, none)
    else tree.push parent name entry

/-- One path component as a directory, which is made when the client has not listed it yet. -/
def directory (tree : RemoteTree) (parent : Nat) (name : FileName) (maxEntries : Nat) : RemoteTree × Option Nat :=
  match tree.lookup parent name with
  | some inode => (tree, if (tree.node inode).any (·.isDirectory) then some inode else none)
  | none => tree.insert parent name .synthesizedDirectory maxEntries

/-- The directories along a path, from a parent on. -/
def reach (tree : RemoteTree) (maxEntries parent : Nat) : List FileName → RemoteTree × Option Nat
  | [] => (tree, some parent)
  | component :: rest =>
    match tree.directory parent component maxEntries with
    | (tree, none) => (tree, none)
    | (tree, some inode) => tree.reach maxEntries inode rest

def add (tree : RemoteTree) (maxEntries index : Nat) (file : FileDescriptor) : RemoteTree :=
  match file.pathComponents with
  | none => tree
  | some components =>
    match tree.reach maxEntries rootInode components.dropLast, components.getLast? with
    | (tree, some parent), some leaf =>
      let entry : RemoteEntry :=
        ⟨if file.isDirectory then .directory else .file index, file.size, file.lastWriteTime.map systemTime, file.isReadOnly⟩
      (tree.insert parent leaf entry maxEntries).1
    | (tree, _), _ => tree

def addAll (tree : RemoteTree) (maxEntries index : Nat) : List FileDescriptor → RemoteTree
  | [] => tree
  | file :: rest =>
    if tree.isFull maxEntries ∨ maxEntries ≤ index ∨ 2 ^ 31 ≤ index then tree
    else (tree.add maxEntries index file).addAll maxEntries (index + 1) rest

def build (builtAt : Int) (files : List FileDescriptor) (maxEntries base : Nat) : RemoteTree :=
  (rooted builtAt base).addAll maxEntries 0 files

end RemoteTree

end HyprRdp
