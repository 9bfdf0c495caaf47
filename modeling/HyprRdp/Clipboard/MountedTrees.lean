import HyprRdp.Clipboard.RemoteFilesystem
import HyprRdp.Clipboard.WellFormedTrees

namespace HyprRdp

def RemoteNode.unsized (node : RemoteNode) : RemoteNode := { node with size := none }

theorem RemoteNode.unsized_same {node other : RemoteNode} (same : other.unsized = node.unsized) :
    ∃ size, other = { node with size } := by
  refine ⟨other.size, ?_⟩
  have restored := congrArg (fun node => ({ node with size := other.size } : RemoteNode)) same
  exact restored

namespace RemoteTree

variable {tree other : RemoteTree} {inode : Nat} {path : List FileName}

/-- The tree but for the sizes, which come in while it is served. -/
def unsized (tree : RemoteTree) : RemoteTree := { tree with nodes := tree.nodes.map RemoteNode.unsized }

theorem node_unsized (tree : RemoteTree) (inode : Nat) : tree.unsized.node inode = (tree.node inode).map RemoteNode.unsized := by
  unfold RemoteTree.node
  split
  · exact List.head?_map ..
  · have offset : tree.unsized.offset inode = tree.offset inode := rfl
    rw [offset, Option.map_bind]
    exact Option.bind_congr fun place _ => List.getElem?_map ..

theorem children_unsized (tree : RemoteTree) (inode : Nat) : tree.unsized.children inode = tree.children inode := by
  unfold children
  rw [node_unsized, Option.map_map]
  rfl

theorem setSize_unsized (tree : RemoteTree) (inode size : Nat) : (tree.setSize inode size).1.unsized = tree.unsized := by
  unfold setSize
  split
  · rfl
  · rename_i offset _
    split
    · rfl
    · rename_i node atNode
      split
      · rfl
      · have same : (tree.nodes.map RemoteNode.unsized).set offset node.unsized = tree.nodes.map RemoteNode.unsized := by
          rw [← List.map_set]
          refine List.ext_getElem? fun k => ?_
          rw [List.getElem?_map, List.getElem?_map, List.getElem?_set]
          split
          · rename_i here
            subst here
            split
            · rw [atNode]
            · rename_i beyond
              exact absurd (List.getElem?_eq_some_iff.mp atNode).1 beyond
          · rfl
        unfold unsized
        rw [List.map_set]
        exact congrArg (fun nodes => { tree with nodes := nodes }) same

theorem any_unsized (tree : RemoteTree) (inode : Nat) :
    (tree.unsized.node inode).any (·.isDirectory) = (tree.node inode).any (·.isDirectory) := by
  rw [node_unsized, Option.any_map]
  rfl

theorem linkCount_unsized (tree : RemoteTree) (inode : Nat) : tree.unsized.linkCount inode = tree.linkCount inode := by
  unfold linkCount
  simp only [any_unsized, children_unsized]
  rw [node_unsized]
  cases tree.node inode with
  | none => rfl
  | some node => rfl

theorem node_resized (same : other.unsized = tree.unsized) {node : RemoteNode} (found : tree.node inode = some node) :
    ∃ size, other.node inode = some { node with size } := by
  have agrees : other.unsized.node inode = tree.unsized.node inode := by rw [same]
  rw [node_unsized, node_unsized, found, Option.map_some] at agrees
  obtain ⟨sized, isSized, alike⟩ := Option.map_eq_some_iff.mp agrees
  obtain ⟨size, rfl⟩ := RemoteNode.unsized_same alike
  exact ⟨size, isSized⟩

end RemoteTree

namespace RemoteFilesystem

open RemoteTree

variable {Fetch : Type} {fs : RemoteFilesystem} {s first : TransferState Fetch} {tree other : RemoteTree} {inode : Nat}

theorem entries_unsized (tree : RemoteTree) (inode : Nat) (node : RemoteNode) :
    entries tree.unsized inode node.unsized = entries tree inode node := by
  unfold entries
  rw [children_unsized]
  refine congrArg _ (List.filterMap_congr fun child _ => ?_)
  rw [node_unsized, Option.map_map]
  rfl

theorem listing_unsized (tree : RemoteTree) (inode : Nat) : listing tree.unsized inode = listing tree inode := by
  unfold listing
  rw [node_unsized]
  cases tree.node inode with
  | none => rfl
  | some node =>
    dsimp only [Option.map_some]
    rw [entries_unsized]
    rfl

/-- The selection that is served has the tree, whatever sizes are known of its files. -/
def Serves (s : TransferState Fetch) (generation : Nat) (tree : RemoteTree) : Prop :=
  ∃ selection, s.selection generation = some selection ∧ selection.tree.unsized = tree.unsized

theorem Serves.listing (serves : Serves s fs.generation tree) :
    s.withTree fs.generation (fun tree => listing tree inode) = some (RemoteFilesystem.listing tree inode) := by
  obtain ⟨selection, isSelection, same⟩ := serves
  have rows : RemoteFilesystem.listing selection.tree inode = RemoteFilesystem.listing tree inode := by
    rw [← listing_unsized, same, listing_unsized]
  unfold TransferState.withTree
  rw [isSelection, Option.map_some]
  exact congrArg some rows

theorem Serves.readdir (serves : Serves s fs.generation tree) {rows : List (Nat × FileType × FileName)}
    (isRows : RemoteFilesystem.listing tree inode = .ok rows) (entrySize : FileName → Nat) (room offset : Nat) :
    fs.readdir s entrySize room inode offset =
      .ok (Paging.page (fun entry => entrySize entry.name) room ((numbered rows).drop offset)) := by
  unfold RemoteFilesystem.readdir
  rw [serves.listing, isRows]
  rfl

/-- The attributes of a node, but for the size that is known of it. -/
structure Attributes (fs : RemoteFilesystem) (tree : RemoteTree) (node : RemoteNode) (attr : FileAttr) : Prop where
  kind : attr.kind = fileType node
  perm : attr.perm = node.permissions
  nlink : attr.nlink = tree.linkCount attr.ino
  times : attr.atime = node.modified ∧ attr.mtime = node.modified ∧ attr.ctime = node.modified ∧ attr.crtime = node.modified
  owner : attr.uid = fs.uid ∧ attr.gid = fs.gid

theorem Serves.getattr (serves : Serves s fs.generation tree) {node : RemoteNode} (found : tree.node inode = some node) :
    ∃ attr, fs.getattr s true inode = .ok attr ∧ attr.ino = inode ∧ fs.Attributes tree node attr := by
  obtain ⟨selection, isSelection, same⟩ := serves
  obtain ⟨size, isSized⟩ := node_resized same found
  have nlink : selection.tree.linkCount inode = tree.linkCount inode := by
    rw [← linkCount_unsized, same, linkCount_unsized]
  refine ⟨fs.nodeAttr selection.tree inode { node with size }, ?_, rfl, rfl, rfl, nlink, ⟨rfl, rfl, rfl, rfl⟩, rfl, rfl⟩
  unfold RemoteFilesystem.getattr TransferState.withTree
  rw [isSelection, Option.map_some]
  dsimp only
  rw [isSized]
  rfl

theorem Serves.getattr_found (serves : Serves s fs.generation tree) {sized : Bool} {attr : FileAttr}
    (answer : fs.getattr s sized inode = .ok attr) : ∃ node, tree.node inode = some node ∧ attr.ino = inode ∧
      fs.Attributes tree node attr := by
  cases found : tree.node inode with
  | none =>
    obtain ⟨selection, isSelection, same⟩ := serves
    have gone : selection.tree.node inode = none := by
      refine Option.map_eq_none_iff.mp ((node_unsized selection.tree inode).symm.trans ?_)
      rw [same, node_unsized, found, Option.map_none]
    unfold RemoteFilesystem.getattr TransferState.withTree at answer
    rw [isSelection, Option.map_some] at answer
    dsimp only at answer
    rw [gone] at answer
    split at answer
    · cases answer
    · cases answer
  | some node =>
    obtain ⟨again, whole, rest⟩ := serves.getattr found
    cases sized with
    | false => cases answer
    | true =>
      obtain rfl := Except.ok.inj (whole.symm.trans answer)
      exact ⟨node, rfl, rest⟩

/-- Whatever is there cannot be read when its size cannot be told. -/
theorem Serves.lookup_unanswered (found : Serves first fs.generation tree) {parent : Nat} {name : FileName}
    (known : tree.lookup parent name = some inode) : fs.lookup s first false parent name = .error .eio := by
  obtain ⟨selection, isSelection, same⟩ := found
  have table : selection.tree.unsized.byName = tree.unsized.byName := congrArg RemoteTree.byName same
  change selection.tree.byName = tree.byName at table
  unfold RemoteFilesystem.lookup TransferState.withTree RemoteTree.lookup
  unfold RemoteTree.lookup at known
  rw [isSelection, Option.map_some]
  dsimp only
  rw [table, known]
  exact if_pos rfl

theorem Serves.lookup (found : Serves first fs.generation tree) (sized : Serves s fs.generation tree) {parent : Nat} {name : FileName}
    (known : tree.lookup parent name = some inode) {node : RemoteNode} (atNode : tree.node inode = some node) :
    ∃ attr, fs.lookup s first true parent name = .ok attr ∧ attr.ino = inode ∧ fs.Attributes tree node attr := by
  obtain ⟨attr, answer, rest⟩ := sized.getattr atNode
  obtain ⟨selection, isSelection, same⟩ := found
  have table : selection.tree.unsized.byName = tree.unsized.byName := congrArg RemoteTree.byName same
  change selection.tree.byName = tree.byName at table
  refine ⟨attr, ?_, rest⟩
  unfold RemoteFilesystem.lookup TransferState.withTree RemoteTree.lookup
  unfold RemoteTree.lookup at known
  rw [isSelection, Option.map_some]
  dsimp only
  rw [table, known]
  exact answer

theorem Serves.openFile (serves : Serves s fs.generation tree) {node : RemoteNode} (found : tree.node inode = some node)
    (plain : node.isDirectory = false) : fs.openFile s inode = .ok .directIo := by
  obtain ⟨selection, isSelection, same⟩ := serves
  obtain ⟨size, isSized⟩ := node_resized same found
  unfold RemoteFilesystem.openFile TransferState.withTree
  rw [isSelection, Option.map_some]
  dsimp only
  rw [isSized, Option.map_some]
  cases isKind : node.kind with
  | file index => rfl
  | directory => exact absurd (decide_eq_true isKind) (Bool.eq_false_iff.mp plain)

end RemoteFilesystem

end HyprRdp
