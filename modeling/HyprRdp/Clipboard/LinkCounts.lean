import HyprRdp.Clipboard.RemoteFilesystem
import HyprRdp.Clipboard.WellFormedTrees
import Mathlib.Data.List.Perm.Basic

namespace HyprRdp

namespace RemoteTree

variable {files : List FileDescriptor} {maxEntries : Nat} {tree : RemoteTree} {inode parent : Nat} {name : FileName}
  {entry : RemoteEntry}

/-- The root is a directory, and its own parent. -/
def Topped (tree : RemoteTree) : Prop := ∃ root rest, tree.nodes = root :: rest ∧ root.parent = rootInode ∧ root.kind = .directory

theorem Topped.modify {nodes : List RemoteNode} {root : RemoteNode} {rest : List RemoteNode} (top : nodes = root :: rest)
    (own : root.parent = rootInode ∧ root.kind = .directory) {change : RemoteNode → RemoteNode}
    (keeps : ∀ node, (change node).parent = node.parent ∧ (change node).kind = node.kind) (offset : Nat) : ∃ root rest, nodes.modify offset change = root :: rest ∧ root.parent = rootInode ∧ root.kind = .directory := by
  subst top
  cases offset with
  | zero => exact ⟨_, _, rfl, (keeps root).1.trans own.1, (keeps root).2.trans own.2⟩
  | succ offset => exact ⟨_, _, rfl, own⟩

theorem Topped.insert (topped : tree.Topped) : (tree.insert parent name entry maxEntries).1.Topped := by
  obtain ⟨root, rest, top, own⟩ := topped
  unfold RemoteTree.insert
  split
  · split
    · exact ⟨root, rest, top, own⟩
    · split
      · exact ⟨root, rest, top, own⟩
      · unfold describe
        split
        · exact ⟨root, rest, top, own⟩
        · split
          · exact Topped.modify top own (by exact fun _ => ⟨rfl, rfl⟩) _
          · exact ⟨root, rest, top, own⟩
  · split
    · exact ⟨root, rest, top, own⟩
    · split
      · exact ⟨root, rest, top, own⟩
      · unfold push
        dsimp only
        split
        · exact ⟨root, _, by rw [top, List.cons_append], own⟩
        · split
          · exact Topped.modify (by rw [top, List.cons_append]) own (by exact fun _ => ⟨rfl, rfl⟩) _
          · exact ⟨root, _, by rw [top, List.cons_append], own⟩

theorem Topped.reach (components : List FileName) : ∀ {tree : RemoteTree} {parent : Nat}, tree.Topped →
    (tree.reach maxEntries parent components).1.Topped := by
  induction components with
  | nil => exact fun topped => topped
  | cons component rest ih =>
    intro tree parent topped
    have made : (tree.directory parent component maxEntries).1.Topped := by
      unfold RemoteTree.directory
      split
      · exact topped
      · exact topped.insert
    unfold RemoteTree.reach
    split
    · rename_i next same
      rw [same] at made
      exact made
    · rename_i next inode same
      rw [same] at made
      exact ih made

theorem Topped.add (topped : tree.Topped) (index : Nat) (file : FileDescriptor) : (tree.add maxEntries index file).Topped := by
  unfold RemoteTree.add
  split
  · exact topped
  · rename_i components _
    have reached := @Topped.reach maxEntries components.dropLast tree rootInode topped
    split
    · rename_i next parent leaf same _
      rw [same] at reached
      exact reached.insert
    · rename_i next found _ _ same _
      rw [same] at reached
      exact reached

theorem Topped.addAll (rest : List FileDescriptor) : ∀ {tree : RemoteTree} {index : Nat}, tree.Topped →
    (tree.addAll maxEntries index rest).Topped := by
  induction rest with
  | nil => exact fun topped => topped
  | cons file rest ih =>
    intro tree index topped
    rw [RemoteTree.addAll]
    split
    · exact topped
    · exact ih (topped.add index file)

theorem build_topped (builtAt : Int) (files : List FileDescriptor) (maxEntries base : Nat) : (build builtAt files maxEntries base).Topped :=
  Topped.addAll files ⟨_, _, rfl, rfl, rfl⟩

theorem Topped.root (topped : tree.Topped) : ∃ root, tree.node rootInode = some root ∧ root.parent = rootInode ∧
    root.isDirectory = true := by
  obtain ⟨root, rest, top, own, directory⟩ := topped
  refine ⟨root, ?_, own, decide_eq_true directory⟩
  unfold RemoteTree.node
  rw [if_pos rfl, top]
  rfl

def inodes (tree : RemoteTree) : List Nat := rootInode :: (List.range tree.entries).map (tree.base + ·)

def directories (tree : RemoteTree) : List Nat := tree.inodes.filter fun inode => (tree.node inode).any (·.isDirectory)

def parentOf (tree : RemoteTree) (inode : Nat) : Nat := ((tree.node inode).map (·.parent)).getD rootInode

/-- The inodes in the listings of all the directories. -/
def references (tree : RemoteTree) : List Nat :=
  tree.directories.flatMap fun directory => ((RemoteFilesystem.listing tree directory).toOption.getD []).map Prod.fst

theorem mem_directories (wellFormed : WellFormed files maxEntries tree) : inode ∈ tree.directories ↔
    ∃ node, tree.node inode = some node ∧ node.isDirectory = true := by
  have listed : (tree.node inode).isSome = true → inode ∈ tree.inodes := by
    intro found
    rcases (wellFormed.inodes inode).mp found with rfl | ⟨above, below⟩
    · exact List.mem_cons_self
    · obtain ⟨k, rfl⟩ := Nat.exists_eq_add_of_le above
      exact List.mem_cons_of_mem _ (List.mem_map_of_mem (List.mem_range.mpr (Nat.lt_of_add_lt_add_left below)))
  unfold directories
  rw [List.mem_filter, Option.any_eq_true]
  constructor
  · exact fun ⟨_, found⟩ => found
  · rintro ⟨node, found, directory⟩
    exact ⟨listed (Option.isSome_iff_exists.mpr ⟨node, found⟩), node, found, directory⟩

theorem directories_nodup (given : rootInode < tree.base) : tree.directories.Nodup := by
  refine List.Nodup.filter _ (List.nodup_cons.mpr ⟨fun again => ?_, List.nodup_range.map fun one other same => ?_⟩)
  · obtain ⟨k, _, same⟩ := List.mem_map.mp again
    omega
  · exact Nat.add_left_cancel same

theorem listing_inodes (wellFormed : WellFormed files maxEntries tree) (isDirectory : inode ∈ tree.directories) :
    ((RemoteFilesystem.listing tree inode).toOption.getD []).map Prod.fst = [inode] ++ ([tree.parentOf inode] ++ tree.children inode) := by
  obtain ⟨node, found, directory⟩ := (mem_directories wellFormed).mp isDirectory
  have children : ((tree.children inode).filterMap fun child => (tree.node child).map fun node => (child, fileType node, node.name)).map
      Prod.fst = tree.children inode := by
    rw [List.map_filterMap]
    refine (List.filterMap_congr fun child member => ?_).trans List.filterMap_some
    obtain ⟨_, node, found, _⟩ := ((wellFormed.children inode).2 child).mp member
    rw [found]
    rfl
  unfold RemoteFilesystem.listing parentOf
  rw [found]
  dsimp only
  rw [directory, if_neg Bool.true_eq_false.mp]
  exact congrArg (inode :: node.parent :: ·) children

/-- The three kinds of rows: for the directory itself, for the one above it, and for what is in it. -/
theorem references_perm (wellFormed : WellFormed files maxEntries tree) :
    tree.references.Perm (tree.directories ++ (tree.directories.map tree.parentOf ++ tree.directories.flatMap tree.children)) := by
  have rows : tree.references = tree.directories.flatMap fun inode => [inode] ++ ([tree.parentOf inode] ++ tree.children inode) :=
    List.flatMap_congr fun inode isDirectory => listing_inodes wellFormed isDirectory
  have self : tree.directories.flatMap (fun inode => [inode]) = tree.directories := List.flatMap_singleton' _
  have above : tree.directories.flatMap (fun inode => [tree.parentOf inode]) = tree.directories.map tree.parentOf :=
    List.map_eq_flatMap.symm
  rw [rows]
  refine (List.flatMap_append_perm _ _ _).symm.trans ?_
  rw [self]
  refine List.Perm.append_left _ ((List.flatMap_append_perm _ _ _).symm.trans ?_)
  rw [above]

theorem count_directories (wellFormed : WellFormed files maxEntries tree) (given : rootInode < tree.base) {node : RemoteNode}
    (found : tree.node inode = some node) : tree.directories.count inode = if node.isDirectory = true then 1 else 0 := by
  split
  · rename_i directory
    exact List.count_eq_one_of_mem (directories_nodup given) ((mem_directories wellFormed).mpr ⟨node, found, directory⟩)
  · rename_i plain
    refine List.count_eq_zero.mpr fun listed => plain ?_
    obtain ⟨again, foundAgain, directory⟩ := (mem_directories wellFormed).mp listed
    exact Option.some.inj (foundAgain.symm.trans found) ▸ directory

/-- Every entry but the root is in one directory. -/
theorem count_children (wellFormed : WellFormed files maxEntries tree) (given : rootInode < tree.base) {node : RemoteNode}
    (found : tree.node inode = some node) :
    (tree.directories.flatMap tree.children).count inode = if inode = rootInode then 0 else 1 := by
  split
  · rename_i isRoot
    refine List.count_eq_zero.mpr fun listed => ?_
    obtain ⟨directory, _, member⟩ := List.mem_flatMap.mp listed
    exact (((wellFormed.children directory).2 inode).mp member).1 isRoot
  · rename_i apart
    refine List.count_eq_one_of_mem ?_ ?_
    · refine List.nodup_flatMap.mpr ⟨fun directory _ => (wellFormed.children directory).1,
        (directories_nodup given).imp fun {one other} distinct => ?_⟩
      intro child inOne inOther
      exact distinct ((((wellFormed.children one).2 child).mp inOne).unique (((wellFormed.children other).2 child).mp inOther))
    · obtain ⟨parent, foundParent, directory, _⟩ := wellFormed.parents inode node apart found
      exact List.mem_flatMap.mpr ⟨node.parent, (mem_directories wellFormed).mpr ⟨parent, foundParent, directory⟩,
        ((wellFormed.children node.parent).2 inode).mpr ⟨apart, node, found, rfl⟩⟩

def subdirectories (tree : RemoteTree) (inode : Nat) : List Nat :=
  (tree.children inode).filter fun child => (tree.node child).any (·.isDirectory)

/-- The directories that have another one above them. -/
theorem count_parents (wellFormed : WellFormed files maxEntries tree) (topped : tree.Topped) (given : rootInode < tree.base) :
    (tree.directories.map tree.parentOf).count inode =
      (tree.subdirectories inode).length + if inode = rootInode then 1 else 0 := by
  obtain ⟨root, atRoot, own, directory⟩ := topped.root
  have rootParent : tree.parentOf rootInode = rootInode := by
    unfold parentOf
    rw [atRoot]
    exact own
  have isRoot : rootInode ∈ tree.directories := (mem_directories wellFormed).mpr ⟨root, atRoot, directory⟩
  have below : (tree.subdirectories inode).Perm
      (tree.directories.filter fun directory => tree.parentOf directory == inode && directory != rootInode) := by
    refine (List.perm_ext_iff_of_nodup ((wellFormed.children inode).1.filter _) ((directories_nodup given).filter _)).mpr fun child => ?_
    rw [List.mem_filter, List.mem_filter, mem_directories wellFormed, Bool.and_eq_true, beq_iff_eq, bne_iff_ne, Option.any_eq_true]
    constructor
    · rintro ⟨member, directory⟩
      obtain ⟨apart, node, found, parent⟩ := ((wellFormed.children inode).2 child).mp member
      refine ⟨directory, ?_, apart⟩
      unfold parentOf
      rw [found]
      exact parent
    · rintro ⟨⟨node, found, directory⟩, parent, apart⟩
      unfold parentOf at parent
      rw [found] at parent
      exact ⟨((wellFormed.children inode).2 child).mpr ⟨apart, node, found, parent⟩, node, found, directory⟩
  have atTop : (tree.directories.countP fun directory => tree.parentOf directory == inode && !directory != rootInode) =
      if inode = rootInode then 1 else 0 := by
    split
    · rename_i same
      have alone : (tree.directories.countP fun directory => tree.parentOf directory == inode && !directory != rootInode) =
          tree.directories.count rootInode := by
        refine List.countP_congr fun directory _ => ?_
        rw [Bool.and_eq_true, beq_iff_eq, Bool.not_eq_true', bne_eq_false_iff_eq, beq_iff_eq]
        exact ⟨fun both => both.2, fun isTop => ⟨by rw [isTop, rootParent, same], isTop⟩⟩
      rw [alone]
      exact List.count_eq_one_of_mem (directories_nodup given) isRoot
    · rename_i other
      refine List.countP_eq_zero.mpr fun directory _ both => ?_
      rw [Bool.and_eq_true, beq_iff_eq, Bool.not_eq_true', bne_eq_false_iff_eq] at both
      exact other (both.1.symm.trans (by rw [both.2, rootParent]))
  rw [List.count, List.countP_map, List.countP_eq_countP_filter_add _ _ fun directory => directory != rootInode,
    List.countP_filter, List.countP_filter, below.length_eq, ← List.countP_eq_length_filter]
  exact congrArg _ atTop

/-- The link count of a node is how often its inode stands in the listings, up to the greatest count there is. -/
theorem linkCount_references (wellFormed : WellFormed files maxEntries tree) (topped : tree.Topped) (given : rootInode < tree.base)
    {node : RemoteNode} (found : tree.node inode = some node) :
    tree.linkCount inode = min (tree.references.count inode) u32Max := by
  have parts := (references_perm wellFormed).count_eq inode
  rw [List.count_append, List.count_append, count_directories wellFormed given found, count_parents wellFormed topped given,
    count_children wellFormed given found] at parts
  unfold linkCount
  rw [found]
  dsimp only
  cases directory : node.isDirectory with
  | true =>
    rw [directory, if_pos rfl] at parts
    have total : tree.references.count inode = 2 + (tree.subdirectories inode).length := by
      split at parts
      · omega
      · omega
    rw [if_neg Bool.true_eq_false.mp, total]
    change min (2 + min (tree.subdirectories inode).length u32Max) u32Max = _
    unfold u32Max
    omega
  | false =>
    have apart : inode ≠ rootInode := by
      rintro rfl
      obtain ⟨root, atRoot, _, isDirectory⟩ := topped.root
      rw [← Option.some.inj (found.symm.trans atRoot), directory] at isDirectory
      cases isDirectory
    have leaf : tree.subdirectories inode = [] := by
      refine List.filter_eq_nil_iff.mpr fun child member _ => ?_
      obtain ⟨notRoot, below, atBelow, parent⟩ := ((wellFormed.children inode).2 child).mp member
      obtain ⟨owner, foundOwner, isDirectory, _⟩ := wellFormed.parents child below notRoot atBelow
      rw [parent, found] at foundOwner
      rw [← Option.some.inj foundOwner, directory] at isDirectory
      cases isDirectory
    rw [directory, leaf, if_neg Bool.false_ne_true, if_neg apart, if_neg apart] at parts
    rw [if_pos rfl, parts]
    rfl

end RemoteTree

end HyprRdp
