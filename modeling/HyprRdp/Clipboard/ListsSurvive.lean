import HyprRdp.Clipboard.FrozenLists
import HyprRdp.Clipboard.TreeNodes
import Mathlib.Logic.Relation

namespace HyprRdp

namespace RemoteTree

variable {tree : RemoteTree} {maxEntries parent : Nat} {name : FileName} {entry : RemoteEntry}

/-- The inode that a mount finds by looking up one component after the other. -/
def resolve (tree : RemoteTree) (path : List FileName) : Option Nat := PathTable.follow tree.byName rootInode path

/-- Nothing of the list is dropped, and nothing is added to it. -/
structure Survives (files : List FileDescriptor) (tree : RemoteTree) : Prop where
  entries : tree.entries = files.length
  found : ∀ i file, files[i]? = some file → tree.resolve file.components = some (tree.base + i) ∧
    ∃ node, tree.node (tree.base + i) = some node ∧ node.name = file.name ∧ node.isDirectory = file.isDirectory ∧
      (file.isDirectory = false → node.kind = .file i ∧ node.size = file.fileSize)
  above : ∀ i < files.length, ∀ ancestor, Relation.TransGen tree.Under (tree.base + i) ancestor →
    ancestor = rootInode ∨ ∃ j < i, ancestor = tree.base + j
  rooted : ∀ i < files.length, Relation.TransGen tree.Under (tree.base + i) rootInode

def listing (files : List FileDescriptor) : List (List FileName × Bool) :=
  files.map fun file => (file.components, file.isDirectory)

/-- The tree after a part of the list: a node for each descriptor, in their order, known by its path. -/
structure Built (files : List FileDescriptor) (tree : RemoteTree) : Prop where
  length : tree.nodes.length = files.length + 1
  indexes : PathTable.Indexes rootInode tree.base tree.byName ((listing files).map Prod.fst)
  node : ∀ i file, files[i]? = some file → ∃ node : RemoteNode, tree.nodes[i + 1]? = some node ∧ node.name = file.name ∧
    node.kind = (if file.isDirectory then .directory else .file i) ∧ node.size = file.size ∧
    ∃ path, PathTable.Placed rootInode tree.base ((listing (files.take i)).map Prod.fst) path node.parent

theorem listing_concat (before : List FileDescriptor) (file : FileDescriptor) :
    listing (before ++ [file]) = listing before ++ [(file.components, file.isDirectory)] := List.map_append

theorem listing_length (files : List FileDescriptor) : (listing files).length = files.length := List.length_map ..

theorem Built.entries {files : List FileDescriptor} (built : Built files tree) : tree.entries = files.length := by
  unfold RemoteTree.entries
  rw [built.length, Nat.add_sub_cancel]

/-- A listed directory is found by its path. -/
theorem Built.reach {files : List FileDescriptor} (built : Built files tree) (closed : PathTable.Closed (listing files))
    (clear : PathTable.Clear rootInode tree.base files.length) (path : List FileName) :
    (path = [] ∨ (path, true) ∈ listing files) → ∃ inode,
      PathTable.Placed rootInode tree.base ((listing files).map Prod.fst) path inode ∧
      tree.reach maxEntries rootInode path = (tree, some inode) := by
  induction path using List.reverseRecOn with
  | nil => exact fun _ => ⟨rootInode, .inl ⟨rfl, rfl⟩, rfl⟩
  | append_singleton path name ih =>
    intro listed
    have member := listed.resolve_left (List.append_ne_nil_of_right_ne_nil _ (List.cons_ne_nil _ _))
    obtain ⟨above, isAbove, reached⟩ := ih (closed.parent member)
    obtain ⟨j, atEntry⟩ := List.mem_iff_getElem?.mp member
    have placed : PathTable.Placed rootInode tree.base ((listing files).map Prod.fst) (path ++ [name]) (tree.base + j) :=
      .inr ⟨j, by rw [List.getElem?_map, atEntry, Option.map_some], rfl⟩
    obtain ⟨file, atFile, isEntry⟩ := Option.map_eq_some_iff.mp (List.getElem?_map .. ▸ atEntry)
    obtain ⟨node, atNode, _, kind, _⟩ := built.node j file atFile
    obtain ⟨bound, _⟩ := List.getElem?_eq_some_iff.mp atFile
    have isDirectory : (tree.node (tree.base + j)).any (·.isDirectory) = true := by
      rw [node_given (clear j bound), atNode, Option.any_some]
      unfold RemoteNode.isDirectory
      rw [kind, (Prod.mk.inj isEntry).2]
      rfl
    refine ⟨tree.base + j, placed, ?_⟩
    rw [reach_concat path name reached]
    unfold directory
    rw [show tree.lookup above name = some (tree.base + j) from (built.indexes.finds isAbove).mpr placed]
    dsimp only
    rw [if_pos isDirectory]

/-- One more descriptor of a list takes the next node. -/
theorem Built.add {before : List FileDescriptor} {file : FileDescriptor} (built : Built before tree)
    (closed : PathTable.Closed (listing (before ++ [file]))) (path : file.pathComponents = some file.components)
    (clear : PathTable.Clear rootInode tree.base (before.length + 1)) (space : before.length < maxEntries)
    (room : tree.base + before.length < 2 ^ 64) :
    Built (before ++ [file]) (tree.add maxEntries before.length file) ∧
      (tree.add maxEntries before.length file).base = tree.base := by
  rw [listing_concat] at closed
  obtain ⟨closedBefore, fresh, directories, name, isPath, listed⟩ := closed.of_concat
  obtain ⟨rfl, sameName⟩ : file.parents = directories ∧ [file.name] = [name] := List.append_inj' isPath rfl
  obtain rfl := List.singleton_inj.mp sameName
  obtain ⟨above, isAbove, reached⟩ := @Built.reach _ maxEntries _ built closedBefore (fun j bound => clear j (by omega)) _ listed
  have entries := built.entries
  have unknown : tree.lookup above file.name = none := by
    cases found : tree.lookup above file.name with
    | none => rfl
    | some inode =>
      have placed := (built.indexes.finds isAbove).mp found
      exact absurd placed.mem (not_or.mpr ⟨List.append_ne_nil_of_right_ne_nil _ (List.cons_ne_nil _ _), fresh⟩)
  -- the directories are there, so that the descriptor comes down to one new node
  have added : tree.add maxEntries before.length file = (tree.push above file.name
      ⟨if file.isDirectory then .directory else .file before.length, file.size, file.lastWriteTime.map systemTime,
        file.isReadOnly⟩).1 := by
    unfold RemoteTree.add
    rw [path]
    unfold FileDescriptor.components
    dsimp only
    rw [List.dropLast_concat, List.getLast?_concat, reached]
    dsimp only
    rw [insert_new unknown (entries ▸ space) (entries ▸ room)]
  obtain ⟨base, byName, length, nodes⟩ := tree.push_spec above file.name
    ⟨if file.isDirectory then .directory else .file before.length, file.size, file.lastWriteTime.map systemTime, file.isReadOnly⟩
  rw [added]
  refine ⟨⟨?_, ?_, fun i other atOther => ?_⟩, base⟩
  · rw [length, built.length, List.length_append, List.length_singleton]
  · rw [base, byName, listing_concat, entries, ← listing_length before]
    exact built.indexes.concat (by rw [listing_length]; exact clear) closed isAbove
  · rw [base]
    rcases List.getElem?_concat_iff.mp atOther with old | ⟨rfl, rfl⟩
    · obtain ⟨node, atNode, name, kind, size, path, placed⟩ := built.node i other old
      obtain ⟨bound, _⟩ := List.getElem?_eq_some_iff.mp old
      obtain ⟨kept, atKept, same⟩ := nodes (i + 1) node (List.getElem?_concat_iff.mpr (.inl atNode))
      refine ⟨kept, atKept, same.name.trans name, same.kind.trans kind, same.size.trans size, path, ?_⟩
      rw [List.take_append_of_le_length (Nat.le_of_lt bound), same.parent]
      exact placed
    · obtain ⟨new, atNew, same⟩ := nodes (before.length + 1) _ (List.getElem?_concat_iff.mpr (.inr ⟨built.length.symm, rfl⟩))
      refine ⟨new, atNew, same.name, same.kind, same.size, other.parents, ?_⟩
      rw [List.take_left, same.parent]
      exact isAbove

/-- Every descriptor has a number that an inode and an index can hold, and that is not the one of the root. -/
def Numbered (base count : Nat) : Prop := ∀ k < count, base + k ≠ rootInode ∧ base + k < 2 ^ 64 ∧ k < 2 ^ 31

theorem Built.addAll {before : List FileDescriptor} (built : Built before tree) (rest : List FileDescriptor)
    (list : FrozenList (before ++ rest) maxEntries) (numbered : Numbered tree.base (before ++ rest).length) :
    Built (before ++ rest) (tree.addAll maxEntries before.length rest) ∧
      (tree.addAll maxEntries before.length rest).base = tree.base := by
  induction rest generalizing before tree with
  | nil => exact ⟨(List.append_nil before).symm ▸ built, rfl⟩
  | cons file rest ih =>
    have split : before ++ file :: rest = (before ++ [file]) ++ rest := by rw [List.append_assoc, List.singleton_append]
    rw [split] at list numbered ⊢
    have few := list.few
    rw [List.length_append, List.length_append, List.length_singleton] at numbered few
    obtain ⟨_, room, index⟩ := numbered before.length (by omega)
    have closed : PathTable.Closed (listing (before ++ [file])) := by
      have all := list.closed
      rw [List.map_append] at all
      exact all.of_append
    have path := list.placed file (List.mem_append_left _ (List.mem_append_right _ List.mem_cons_self))
    obtain ⟨added, base⟩ := @Built.add _ maxEntries _ _ built closed path (fun k bound => (numbered k (by omega)).1) (by omega) room
    have open_ended : ¬ (tree.isFull maxEntries = true ∨ maxEntries ≤ before.length ∨ 2 ^ 31 ≤ before.length) := by
      unfold isFull
      rw [decide_eq_true_eq, built.entries]
      omega
    unfold RemoteTree.addAll
    rw [if_neg open_ended]
    have later := @ih (tree.add maxEntries before.length file) (before ++ [file]) added list (by
      rw [base, List.length_append, List.length_append, List.length_singleton]
      exact numbered)
    rw [List.length_append, List.length_singleton] at later
    exact ⟨later.1, later.2.trans base⟩

theorem build_built {files : List FileDescriptor} {base : Nat} (builtAt : Int) (list : FrozenList files maxEntries)
    (numbered : Numbered base files.length) :
    Built files (build builtAt files maxEntries base) ∧ (build builtAt files maxEntries base).base = base := by
  have start : Built [] (rooted builtAt base) := ⟨rfl, PathTable.indexes_nil, nofun⟩
  exact start.addAll files list numbered

theorem Built.under {files : List FileDescriptor} (built : Built files tree)
    (clear : PathTable.Clear rootInode tree.base files.length) {i : Nat} (bound : i < files.length) :
    ∃ parent, tree.Under (tree.base + i) parent ∧ (parent = rootInode ∨ ∃ j < i, parent = tree.base + j) := by
  obtain ⟨node, atNode, _, _, _, path, placed⟩ := built.node i _ (List.getElem?_eq_getElem bound)
  refine ⟨node.parent, ⟨clear i bound, node, (node_given (clear i bound)).trans atNode, rfl⟩, ?_⟩
  rcases placed with ⟨_, top⟩ | ⟨j, atPath, same⟩
  · exact .inl top
  · obtain ⟨below, _⟩ := List.getElem?_eq_some_iff.mp atPath
    rw [List.length_map, listing_length, List.length_take] at below
    exact .inr ⟨j, by omega, same⟩

theorem Built.survives {files : List FileDescriptor} (built : Built files tree) (closed : PathTable.Closed (listing files))
    (clear : PathTable.Clear rootInode tree.base files.length) : Survives files tree := by
  refine ⟨built.entries, fun i file atFile => ⟨?_, ?_⟩, fun i bound ancestor chain => ?_, fun i bound => ?_⟩
  · refine built.indexes.follow closed file.components (.inr ⟨i, ?_, rfl⟩)
    rw [List.getElem?_map, listing, List.getElem?_map, atFile]
    rfl
  · obtain ⟨bound, _⟩ := List.getElem?_eq_some_iff.mp atFile
    obtain ⟨node, atNode, name, kind, size, _⟩ := built.node i file atFile
    refine ⟨node, (node_given (clear i bound)).trans atNode, name, ?_, fun plain => ?_⟩
    · unfold RemoteNode.isDirectory
      rw [kind]
      cases file.isDirectory with
      | true => rfl
      | false => rfl
    · rw [kind, size, FileDescriptor.size, plain]
      exact ⟨rfl, rfl⟩
  · induction chain with
    | single step =>
      obtain ⟨parent, under, earlier⟩ := built.under clear bound
      exact under.unique step ▸ earlier
    | tail _ step ih =>
      rcases ih with rfl | ⟨j, before, rfl⟩
      · exact absurd rfl step.1
      · obtain ⟨parent, under, earlier⟩ := built.under clear (Nat.lt_trans before bound)
        rw [← under.unique step]
        exact earlier.imp_right fun ⟨k, lower, same⟩ => ⟨k, Nat.lt_trans lower before, same⟩
  · induction i using Nat.strong_induction_on with
    | _ i ih =>
      obtain ⟨parent, under, rfl | ⟨j, before, rfl⟩⟩ := built.under clear bound
      · exact .single under
      · exact .head under (ih j before (Nat.lt_trans before bound))

/-- There is no inode beyond the largest one. -/
theorem build_inodes (builtAt : Int) (files : List FileDescriptor) (maxEntries base : Nat) :
    (build builtAt files maxEntries base).entries ≤ 2 ^ 64 - base := by
  have invariant : NodeInvariant fun tree => tree.base = base ∧ tree.entries ≤ 2 ^ 64 - base := by
    refine ⟨fun {tree} parent name entry ⟨same, _⟩ room => ?_, fun {tree} inode entry ⟨same, few⟩ => ?_⟩
    · obtain ⟨sameBase, _, length, _⟩ := tree.push_spec parent name entry
      refine ⟨sameBase.trans same, ?_⟩
      unfold RemoteTree.entries at room ⊢
      omega
    · unfold describe
      split
      · exact ⟨same, few⟩
      · split
        · refine ⟨same, ?_⟩
          unfold RemoteTree.entries at few ⊢
          dsimp only
          rw [List.length_modify]
          exact few
        · exact ⟨same, few⟩
  exact (@NodeInvariant.addAll (rooted builtAt base) maxEntries _ invariant files 0 ⟨rfl, Nat.zero_le _⟩).2

/-- No index beyond the largest one is looked at. -/
theorem addAll_take (files : List FileDescriptor) (index : Nat) :
    tree.addAll maxEntries index files = tree.addAll maxEntries index (files.take (2 ^ 31 - index)) := by
  induction files generalizing tree index with
  | nil => rw [List.take_nil]
  | cons file rest ih =>
    by_cases high : 2 ^ 31 ≤ index
    · rw [Nat.sub_eq_zero_of_le high, List.take_zero]
      unfold addAll
      rw [if_pos (.inr (.inr high))]
    · obtain ⟨left, count⟩ : ∃ left, 2 ^ 31 - index = left + 1 := ⟨2 ^ 31 - index - 1, by omega⟩
      have next : 2 ^ 31 - (index + 1) = left := by omega
      rw [count, List.take_succ_cons]
      unfold addAll
      rw [ih, next]

theorem Survives.numbered {files : List FileDescriptor} {base : Nat} {builtAt : Int} (list : FrozenList files maxEntries)
    (survives : Survives files (build builtAt files maxEntries base)) : Numbered base files.length := by
  have same := (build_base builtAt files maxEntries base).1
  have inodes := build_inodes builtAt files maxEntries base
  rw [survives.entries] at inodes
  have apart : ∀ k < files.length, base + k ≠ rootInode := by
    intro k bound isRoot
    have up := survives.rooted k bound
    rw [same, isRoot] at up
    obtain ⟨_, step, _⟩ := Relation.TransGen.head'_iff.mp up
    exact step.1 rfl
  have few : files.length ≤ 2 ^ 31 := by
    by_contra many
    have count : (files.take (2 ^ 31)).length = 2 ^ 31 := List.length_take_of_le (by omega)
    have closed : PathTable.Closed (listing (files.take (2 ^ 31))) := by
      have all := list.closed
      rw [← List.take_append_drop (2 ^ 31) files, List.map_append] at all
      exact all.of_append
    have part : FrozenList (files.take (2 ^ 31)) maxEntries :=
      ⟨closed, fun file member => list.placed file (List.mem_of_mem_take member), by have := list.few; omega⟩
    have built := @build_built maxEntries _ base builtAt part fun k bound =>
      ⟨apart k (by omega), by omega, by omega⟩
    have cut : build builtAt files maxEntries base = build builtAt (files.take (2 ^ 31)) maxEntries base := addAll_take files 0
    have entries := survives.entries
    rw [cut, built.1.entries] at entries
    omega
  exact fun k bound => ⟨apart k bound, by omega, by omega⟩

/-- The tree of a walked list has a node of its own for each descriptor, below
those of its directories, exactly where the inodes and the indices suffice. -/
theorem frozen_lists_survive (fs : FileSystem) (upper : Uppercase) (paths : List PathBuf) (hugeFiles : Bool)
    (maxEntries base : Nat) (builtAt : Int) :
    Survives ((freezePathsWithLimits fs upper paths maxEntries hugeFiles).map (·.descriptor))
        (build builtAt ((freezePathsWithLimits fs upper paths maxEntries hugeFiles).map (·.descriptor)) maxEntries base) ↔
      Numbered base ((freezePathsWithLimits fs upper paths maxEntries hugeFiles).map (·.descriptor)).length := by
  have list := freezePathsWithLimits_frozenList fs upper paths maxEntries hugeFiles
  refine ⟨fun survives => survives.numbered list, fun numbered => ?_⟩
  obtain ⟨built, sameBase⟩ := build_built builtAt list numbered
  refine built.survives list.closed fun k bound => ?_
  rw [sameBase]
  exact (numbered k bound).1

section LoneFile

def loneFile : FileSystem where
  fileName _ := some ['A']
  metadata _ := some ⟨⟨1, 2, true, 5⟩, false, some 0, fun _ => rfl⟩
  openSource _ := some (some ⟨⟨1, 2, true, 5⟩, false, some 0, fun _ => rfl⟩)
  readDir _ := none

def asciiUppercase : Uppercase where
  capitals character := [character.toUpper]
  digit character isDigit := by
    unfold Char.isDigit at isDigit
    unfold Char.toUpper
    simp only [Bool.and_eq_true, decide_eq_true_eq, ge_iff_le, UInt32.le_iff_toNat_le] at isDigit
    rw [dif_neg]
    simp only [UInt32.le_iff_toNat_le]
    intro letter
    have : ('9' : Char).val.toNat = 57 := rfl
    have : ('a' : Char).val.toNat = 97 := rfl
    omega

def loneList (selected : Nat) : List FileDescriptor :=
  (freezePathsWithLimits loneFile asciiUppercase (List.replicate selected [47, 65]) 10 true).map (·.descriptor)

/-- The first inode given out is the one of the root, or the second has none. -/
theorem inodes_do_not_suffice : ¬ Survives (loneList 1) (build 0 (loneList 1) 10 rootInode) ∧
    ¬ Survives (loneList 2) (build 0 (loneList 2) 10 (2 ^ 64 - 1)) := by
  have one : FrozenList (loneList 1) 10 := freezePathsWithLimits_frozenList ..
  have two : FrozenList (loneList 2) 10 := freezePathsWithLimits_frozenList ..
  have first : (loneList 1).length = 1 := by decide
  have second : (loneList 2).length = 2 := by decide
  refine ⟨fun survives => ?_, fun survives => ?_⟩
  · exact absurd rfl (survives.numbered one 0 (by rw [first]; decide)).1
  · exact absurd (survives.numbered two 1 (by rw [second]; decide)).2.1 (by decide)

end LoneFile

end RemoteTree

end HyprRdp
