import HyprRdp.Clipboard.RemoteTree

namespace HyprRdp

namespace RemoteTree

variable {tree : RemoteTree} {maxEntries parent : Nat} {name : FileName} {entry : RemoteEntry}

/-- What becomes of the nodes: each has the name and the kind of an old one, or those of the entry. -/
structure Grown (name : FileName) (kind : RemoteNodeKind) (tree next : RemoteTree) : Prop where
  base : next.base = tree.base
  builtAt : next.builtAt = tree.builtAt
  nodes : ∀ node ∈ next.nodes, (∃ old ∈ tree.nodes, old.name = node.name ∧ old.kind = node.kind) ∨
    (node.name = name ∧ node.kind = kind)

theorem Grown.refl (name : FileName) (kind : RemoteNodeKind) (tree : RemoteTree) : Grown name kind tree tree :=
  ⟨rfl, rfl, fun node member => .inl ⟨node, member, rfl, rfl⟩⟩

/-- A change of one node in place that keeps its name and its kind. -/
theorem mem_modify_kept {nodes : List RemoteNode} {offset : Nat} {change : RemoteNode → RemoteNode}
    (keeps : ∀ node, (change node).name = node.name ∧ (change node).kind = node.kind) {node : RemoteNode}
    (member : node ∈ nodes.modify offset change) : ∃ old ∈ nodes, old.name = node.name ∧ old.kind = node.kind := by
  obtain ⟨k, found⟩ := List.mem_iff_getElem?.mp member
  rw [List.getElem?_modify] at found
  obtain ⟨old, atOld, changed⟩ := Option.map_eq_some_iff.mp found
  refine ⟨old, List.mem_of_getElem? atOld, ?_⟩
  rw [← changed]
  split
  · exact ⟨(keeps old).1.symm, (keeps old).2.symm⟩
  · exact ⟨rfl, rfl⟩

theorem push_grown : Grown name entry.kind tree (tree.push parent name entry).1 := by
  have pushed : ∀ node ∈ tree.nodes ++
      [(⟨name, parent, entry.size, entry.modified.getD tree.builtAt, entry.kind, entry.readOnly, []⟩ : RemoteNode)],
      (∃ old ∈ tree.nodes, old.name = node.name ∧ old.kind = node.kind) ∨ (node.name = name ∧ node.kind = entry.kind) := by
    intro node member
    refine (List.mem_append.mp member).imp (fun old => ⟨node, old, rfl, rfl⟩) fun new => ?_
    rw [List.mem_singleton.mp new]
    exact ⟨rfl, rfl⟩
  unfold push
  dsimp only
  generalize (if parent = rootInode then some 0 else tree.offset parent) = found
  cases found with
  | none => exact ⟨rfl, rfl, pushed⟩
  | some parentOffset =>
    dsimp only
    split
    · refine ⟨rfl, rfl, fun node member => ?_⟩
      obtain ⟨old, isOld, sameName, sameKind⟩ := mem_modify_kept (by exact fun _ => ⟨rfl, rfl⟩) member
      rw [← sameName, ← sameKind]
      exact pushed old isOld
    · exact ⟨rfl, rfl, pushed⟩

theorem describe_grown {inode : Nat} : Grown name entry.kind tree (tree.describe inode entry).1 := by
  unfold describe
  split
  · exact .refl _ _ _
  · split
    · exact ⟨rfl, rfl, fun node member => .inl (mem_modify_kept (by exact fun _ => ⟨rfl, rfl⟩) member)⟩
    · exact .refl _ _ _

theorem insert_grown : Grown name entry.kind tree (tree.insert parent name entry maxEntries).1 := by
  unfold insert
  split
  · split
    · exact .refl _ _ _
    · split
      · exact .refl _ _ _
      · exact describe_grown
  · split
    · exact .refl _ _ _
    · split
      · exact .refl _ _ _
      · exact push_grown

theorem directory_grown : Grown name .directory tree (tree.directory parent name maxEntries).1 := by
  unfold directory
  split
  · exact .refl _ _ _
  · exact @insert_grown tree maxEntries parent name .synthesizedDirectory

/-- Every file in the tree is a descriptor of the list that is no directory, under the name of its leaf. -/
def Listed (files : List FileDescriptor) (tree : RemoteTree) : Prop :=
  ∀ node ∈ tree.nodes, ∀ index, node.kind = .file index →
    ∃ file, files[index]? = some file ∧ file.isDirectory = false ∧
      ∃ components, file.pathComponents = some components ∧ components.getLast? = some node.name

theorem Listed.grown {files : List FileDescriptor} {next : RemoteTree} {kind : RemoteNodeKind} (listed : tree.Listed files)
    (grown : Grown name kind tree next)
    (new : ∀ index, kind = .file index → ∃ file, files[index]? = some file ∧ file.isDirectory = false ∧
      ∃ components, file.pathComponents = some components ∧ components.getLast? = some name) : next.Listed files := by
  intro node member index isFile
  rcases grown.nodes node member with ⟨old, isOld, sameName, sameKind⟩ | ⟨sameName, sameKind⟩
  · rw [← sameName]
    exact listed old isOld index (sameKind.trans isFile)
  · rw [sameName]
    exact new index (sameKind.symm.trans isFile)

theorem reach_base {files : List FileDescriptor} (components : List FileName) (listed : tree.Listed files) :
    (tree.reach maxEntries parent components).1.base = tree.base ∧
      (tree.reach maxEntries parent components).1.Listed files := by
  induction components generalizing tree parent with
  | nil => exact ⟨rfl, listed⟩
  | cons component rest ih =>
    have grown := @directory_grown tree maxEntries parent component
    have kept := listed.grown grown fun _ => nofun
    unfold reach
    split
    · rename_i next made
      rw [made] at grown kept
      exact ⟨grown.base, kept⟩
    · rename_i next inode made
      rw [made] at grown kept
      have later := @ih next inode kept
      exact ⟨later.1.trans grown.base, later.2⟩

theorem add_base {files : List FileDescriptor} {index : Nat} {file : FileDescriptor} (atFile : files[index]? = some file)
    (listed : tree.Listed files) :
    (tree.add maxEntries index file).base = tree.base ∧ (tree.add maxEntries index file).Listed files := by
  unfold add
  split
  · exact ⟨rfl, listed⟩
  · rename_i components isPath
    have reached := @reach_base tree maxEntries rootInode files components.dropLast listed
    split
    · rename_i next parent leaf isReached isLeaf
      rw [isReached] at reached
      dsimp only at reached ⊢
      refine ⟨insert_grown.base.trans reached.1, reached.2.grown insert_grown fun other isFile => ?_⟩
      dsimp only at isFile
      split at isFile
      · cases isFile
      · rename_i plain
        cases isFile
        exact ⟨file, atFile, Bool.eq_false_iff.mpr plain, components, isPath, isLeaf⟩
    · rename_i next other isReached _
      have : (tree.reach maxEntries rootInode components.dropLast).1 = next := congrArg Prod.fst isReached
      exact this ▸ reached

theorem addAll_base {files : List FileDescriptor} (before rest : List FileDescriptor) (parts : files = before ++ rest)
    (listed : tree.Listed files) :
    (tree.addAll maxEntries before.length rest).base = tree.base ∧ (tree.addAll maxEntries before.length rest).Listed files := by
  induction rest generalizing tree before with
  | nil => exact ⟨rfl, listed⟩
  | cons file rest ih =>
    unfold addAll
    split
    · exact ⟨rfl, listed⟩
    · have atFile : files[before.length]? = some file := by
        rw [parts, List.getElem?_append_right (Nat.le_refl _), Nat.sub_self]
        rfl
      have added := @add_base tree maxEntries files before.length file atFile listed
      have later := @ih (tree.add maxEntries before.length file) (before ++ [file]) (by rw [parts, List.append_assoc]; rfl) added.2
      rw [List.length_append] at later
      exact ⟨later.1.trans added.1, later.2⟩

theorem build_base (builtAt : Int) (files : List FileDescriptor) (maxEntries base : Nat) :
    (build builtAt files maxEntries base).base = base ∧ (build builtAt files maxEntries base).Listed files := by
  have rooted : (rooted builtAt base).Listed files := by
    intro node member index isFile
    rw [List.mem_singleton.mp member] at isFile
    cases isFile
  exact @addAll_base (RemoteTree.rooted builtAt base) maxEntries files [] files rfl rooted

theorem offset_pos {tree : RemoteTree} {inode offset : Nat} (isOffset : tree.offset inode = some offset) :
    0 < offset := by
  obtain ⟨_, same⟩ := Option.ite_none_right_eq_some.mp isOffset
  have := Option.some.inj same
  omega

/-- A size that comes in later leaves everything but sizes as it is. -/
theorem setSize_roots (tree : RemoteTree) (inode size : Nat) : (tree.setSize inode size).1.roots = tree.roots := by
  have head : (tree.setSize inode size).1.nodes.head? = tree.nodes.head? := by
    unfold setSize
    split
    · rfl
    · rename_i offset isOffset
      split
      · rfl
      · split
        · rfl
        · obtain ⟨before, rfl⟩ := Nat.exists_eq_add_of_lt (offset_pos isOffset)
          cases nodes : tree.nodes with
          | nil => rfl
          | cons root rest => simp
  unfold RemoteTree.roots RemoteTree.children RemoteTree.node
  rw [if_pos rfl, if_pos rfl, head]

theorem offset_inj {one other offset : Nat} (first : tree.offset one = some offset) (second : tree.offset other = some offset) :
    one = other := by
  obtain ⟨bound, same⟩ := Option.ite_none_right_eq_some.mp first
  obtain ⟨boundOther, sameOther⟩ := Option.ite_none_right_eq_some.mp second
  have := Option.some.inj (same.trans sameOther.symm)
  omega

theorem setSize_empty (builtAt : Int) (inode size : Nat) : ((empty builtAt).setSize inode size).1 = empty builtAt := by
  unfold setSize
  split
  · rfl
  · rename_i offset isOffset
    obtain ⟨before, rfl⟩ := Nat.exists_eq_add_of_lt (offset_pos isOffset)
    rfl

/-- A size that is stored is the size of its file, and everything else stays. -/
theorem setSize_spec (tree : RemoteTree) (inode size : Nat) :
    (tree.setSize inode size).1.base = tree.base ∧ (tree.setSize inode size).1.nodes.length = tree.nodes.length ∧
      ∀ other node, (tree.setSize inode size).1.node other = some node → ∃ old, tree.node other = some old ∧
        node.kind = old.kind ∧ (node.size = old.size ∨ (other = inode ∧ node.size = some size)) := by
  have same : ∀ other node, tree.node other = some node → ∃ old, tree.node other = some old ∧
      node.kind = old.kind ∧ (node.size = old.size ∨ (other = inode ∧ node.size = some size)) :=
    fun other node found => ⟨node, found, rfl, .inl rfl⟩
  unfold setSize
  split
  · exact ⟨rfl, rfl, same⟩
  · rename_i offset isOffset
    split
    · exact ⟨rfl, rfl, same⟩
    · rename_i file atFile
      split
      · exact ⟨rfl, rfl, same⟩
      · refine ⟨rfl, List.length_set, fun other node found => ?_⟩
        unfold RemoteTree.node at found ⊢
        split at found
        · rename_i isRoot
          rw [if_pos isRoot]
          rw [List.head?_eq_getElem?, List.getElem?_set_ne (Nat.ne_of_gt (offset_pos isOffset))] at found
          rw [List.head?_eq_getElem?]
          exact ⟨node, found, rfl, .inl rfl⟩
        · rename_i below
          rw [if_neg below]
          obtain ⟨otherOffset, isOther, found⟩ := Option.bind_eq_some_iff.mp found
          have isOther : tree.offset other = some otherOffset := isOther
          rw [isOther, Option.bind_some]
          by_cases here : offset = otherOffset
          · subst here
            rw [List.getElem?_set_self'] at found
            obtain ⟨_, _, changed⟩ := Option.map_eq_some_iff.mp found
            cases changed
            exact ⟨file, atFile, rfl, .inr ⟨offset_inj isOther isOffset, rfl⟩⟩
          · rw [List.getElem?_set_ne here] at found
            exact ⟨node, found, rfl, .inl rfl⟩

theorem node_add (below : rootInode < tree.base) (k : Nat) : tree.node (tree.base + k) = tree.nodes[k + 1]? := by
  unfold RemoteTree.node offset
  rw [if_neg (by omega), if_pos (Nat.le_add_right _ _), Nat.add_sub_cancel_left]
  rfl

theorem node_bounds {inode : Nat} {node : RemoteNode} (found : tree.node inode = some node) (below : inode ≠ rootInode) :
    tree.base ≤ inode ∧ inode < tree.base + tree.entries := by
  unfold RemoteTree.node at found
  rw [if_neg below] at found
  obtain ⟨offset, isOffset, found⟩ := Option.bind_eq_some_iff.mp found
  obtain ⟨bound, same⟩ := Option.ite_none_right_eq_some.mp isOffset
  obtain ⟨within, _⟩ := List.getElem?_eq_some_iff.mp found
  have := Option.some.inj same
  unfold entries
  omega

theorem mem_of_node {inode : Nat} {node : RemoteNode} (found : tree.node inode = some node) : node ∈ tree.nodes := by
  unfold RemoteTree.node at found
  split at found
  · exact List.mem_of_mem_head? found
  · obtain ⟨offset, _, found⟩ := Option.bind_eq_some_iff.mp found
    exact List.mem_of_getElem? found

/-- A file of its own name below the root takes the next inode. -/
theorem add_rootFile {tree : RemoteTree} {maxEntries index : Nat} {file : FileDescriptor} {name : FileName}
    (path : file.pathComponents = some [name]) (plain : file.isDirectory = false) (unknown : tree.lookup rootInode name = none)
    (space : tree.isFull maxEntries = false) (room : tree.base + tree.entries < 2 ^ 64) :
    tree.add maxEntries index file = { tree with
      nodes := (tree.nodes ++ ([⟨name, rootInode, file.size, (file.lastWriteTime.map systemTime).getD tree.builtAt,
        .file index, file.isReadOnly, []⟩] : List RemoteNode)).modify 0 fun parent =>
          { parent with children := parent.children ++ [tree.base + tree.entries] }
      byName := tree.byName ++ [((rootInode, name), tree.base + tree.entries)] } := by
  unfold add
  rw [path]
  have notFull : ¬ tree.isFull maxEntries = true := by rw [space]; exact Bool.false_ne_true
  have some_root : 0 < (tree.nodes ++ [(⟨name, rootInode, file.size, (file.lastWriteTime.map systemTime).getD tree.builtAt,
        .file index, file.isReadOnly, []⟩ : RemoteNode)]).length := by
    rw [List.length_append]
    exact Nat.succ_pos _
  simp only [List.dropLast_singleton, List.getLast?_singleton, reach, insert, unknown, if_neg notFull,
    if_neg (Nat.not_le_of_lt room), push, plain, if_true, if_pos some_root, Bool.false_eq_true, if_false]

/-- The node of the child names its parent. The chain ends at the root. -/
def Under (tree : RemoteTree) (child parent : Nat) : Prop :=
  child ≠ rootInode ∧ ∃ node, tree.node child = some node ∧ node.parent = parent

/-- What a node keeps when another comes below it. -/
structure SameEntry (node other : RemoteNode) : Prop where
  name : other.name = node.name
  parent : other.parent = node.parent
  size : other.size = node.size
  kind : other.kind = node.kind

def leaf (tree : RemoteTree) (parent : Nat) (name : FileName) (entry : RemoteEntry) : RemoteNode :=
  ⟨name, parent, entry.size, entry.modified.getD tree.builtAt, entry.kind, entry.readOnly, []⟩

/-- Whether the parent is found or not, the new node comes last and the others stay. -/
theorem push_spec (tree : RemoteTree) (parent : Nat) (name : FileName) (entry : RemoteEntry) :
    (tree.push parent name entry).1.base = tree.base ∧
      (tree.push parent name entry).1.byName = tree.byName ++ [((parent, name), tree.base + tree.entries)] ∧
      (tree.push parent name entry).1.nodes.length = tree.nodes.length + 1 ∧
      ∀ (k : Nat) (node : RemoteNode), (tree.nodes ++ [tree.leaf parent name entry])[k]? = some node →
        ∃ other, (tree.push parent name entry).1.nodes[k]? = some other ∧ SameEntry node other := by
  have same : ∀ node, SameEntry node node := fun _ => ⟨rfl, rfl, rfl, rfl⟩
  unfold push
  dsimp only
  generalize (if parent = rootInode then some 0 else tree.offset parent) = found
  cases found with
  | none => exact ⟨rfl, rfl, List.length_append, fun k node atNode => ⟨node, atNode, same node⟩⟩
  | some parentOffset =>
    dsimp only
    split
    · refine ⟨rfl, rfl, ?_, fun k node atNode => ?_⟩
      · dsimp only
        rw [List.length_modify, List.length_append, List.length_singleton]
      · unfold leaf at atNode
        dsimp only
        rw [List.getElem?_modify, atNode, Option.map_eq_map, Option.map_some]
        refine ⟨_, rfl, ?_⟩
        split
        · exact ⟨rfl, rfl, rfl, rfl⟩
        · exact same node
    · exact ⟨rfl, rfl, List.length_append, fun k node atNode => ⟨node, atNode, same node⟩⟩

theorem insert_new (unknown : tree.lookup parent name = none) (space : tree.entries < maxEntries)
    (room : tree.base + tree.entries < 2 ^ 64) : tree.insert parent name entry maxEntries = tree.push parent name entry := by
  have notFull : ¬ tree.isFull maxEntries = true := by
    unfold isFull
    rw [decide_eq_true_eq]
    omega
  unfold insert
  rw [unknown]
  dsimp only
  rw [if_neg notFull, if_neg (Nat.not_le_of_lt room)]

theorem reach_concat (path : List FileName) (name : FileName) {above : Nat} {next : RemoteTree}
    (reached : tree.reach maxEntries parent path = (next, some above)) :
    tree.reach maxEntries parent (path ++ [name]) = next.directory above name maxEntries := by
  induction path generalizing tree parent with
  | nil =>
    cases reached
    rw [List.nil_append]
    unfold reach
    split
    · rename_i made
      exact made.symm
    · rename_i made
      exact made.symm
  | cons first rest ih =>
    rw [List.cons_append]
    unfold reach at reached ⊢
    split at reached
    · cases reached
    · exact ih reached

theorem node_given {k : Nat} (apart : tree.base + k ≠ rootInode) : tree.node (tree.base + k) = tree.nodes[k + 1]? := by
  unfold RemoteTree.node offset
  rw [if_neg apart, if_pos (Nat.le_add_right _ _), Nat.add_sub_cancel_left]
  rfl

theorem Under.unique {child other : Nat} (first : tree.Under child parent) (second : tree.Under child other) :
    parent = other := by
  obtain ⟨_, node, found, rfl⟩ := first
  obtain ⟨_, again, foundAgain, rfl⟩ := second
  rw [Option.some.inj (found.symm.trans foundAgain)]

/-- What a new node keeps, and what a directory keeps that the client describes once more. -/
structure NodeInvariant (I : RemoteTree → Prop) : Prop where
  push : ∀ {tree : RemoteTree} parent name entry, I tree → tree.base + tree.entries < 2 ^ 64 → I (tree.push parent name entry).1
  describe : ∀ {tree : RemoteTree} inode entry, I tree → I (tree.describe inode entry).1

namespace NodeInvariant

variable {I : RemoteTree → Prop}

theorem insert (invariant : NodeInvariant I) (kept : I tree) : I (tree.insert parent name entry maxEntries).1 := by
  unfold RemoteTree.insert
  split
  · split
    · exact kept
    · split
      · exact kept
      · exact invariant.describe _ _ kept
  · split
    · exact kept
    · split
      · exact kept
      · rename_i room
        exact invariant.push _ _ _ kept (Nat.lt_of_not_le room)

theorem reach (invariant : NodeInvariant I) (path : List FileName) (kept : I tree) :
    I (tree.reach maxEntries parent path).1 := by
  induction path generalizing tree parent with
  | nil => exact kept
  | cons component rest ih =>
    have made : I (tree.directory parent component maxEntries).1 := by
      unfold directory
      split
      · exact kept
      · exact invariant.insert kept
    unfold RemoteTree.reach
    split
    · rename_i same
      rw [same] at made
      exact made
    · rename_i same
      rw [same] at made
      exact ih made

theorem add (invariant : NodeInvariant I) (index : Nat) (file : FileDescriptor) (kept : I tree) :
    I (tree.add maxEntries index file) := by
  unfold RemoteTree.add
  split
  · exact kept
  · rename_i components _
    have reached := @NodeInvariant.reach tree maxEntries rootInode I invariant components.dropLast kept
    split
    · rename_i same _
      rw [same] at reached
      exact invariant.insert reached
    · rename_i same _
      rw [same] at reached
      exact reached

/-- It holds of the tree of every list. -/
theorem addAll (invariant : NodeInvariant I) (files : List FileDescriptor) (index : Nat) (kept : I tree) :
    I (tree.addAll maxEntries index files) := by
  induction files generalizing tree index with
  | nil => exact kept
  | cons file rest ih =>
    unfold RemoteTree.addAll
    split
    · exact kept
    · exact ih (index + 1) (invariant.add index file kept)

end NodeInvariant

end RemoteTree

end HyprRdp
