import HyprRdp.Clipboard.MountedTrees
import Mathlib.Data.List.Nodup

namespace HyprRdp

namespace RemoteTree

variable {files : List FileDescriptor} {maxEntries : Nat} {tree : RemoteTree} {inode other : Nat} {name : FileName}
  {path : List FileName}

/-- A path has one inode. -/
theorem WellFormed.path_inode (wellFormed : WellFormed files maxEntries tree) (spells : tree.Spells inode path) :
    ∀ {other}, tree.Spells other path → inode = other := by
  induction spells with
  | root =>
    intro other again
    generalize same : ([] : List FileName) = path at again
    cases again with
    | root => rfl
    | child => exact absurd same.symm (List.append_ne_nil_of_right_ne_nil _ (List.cons_ne_nil _ _))
  | @child inode node path apart found _ ih =>
    intro other again
    generalize same : path ++ [node.name] = full at again
    cases again with
    | root => exact absurd same (List.append_ne_nil_of_right_ne_nil _ (List.cons_ne_nil _ _))
    | @child _ second front apartSecond foundSecond above =>
      obtain ⟨rfl, last⟩ := List.append_inj' same rfl
      have sameParent := ih above
      have sameName := List.singleton_inj.mp last
      have first := (wellFormed.lookup node.parent node.name inode).mpr ⟨apart, node, found, rfl, rfl⟩
      have again := (wellFormed.lookup second.parent second.name other).mpr ⟨apartSecond, second, foundSecond, rfl, rfl⟩
      rw [sameParent, sameName, again] at first
      exact (Option.some.inj first).symm

/-- What a path with a last name leads to: a child of the directory above. -/
theorem WellFormed.path_child (wellFormed : WellFormed files maxEntries tree) (above : tree.Spells inode path)
    (spells : tree.Spells other (path ++ [name])) : ∃ node, tree.node other = some node ∧ node.name = name ∧ node.parent = inode ∧
      other ≠ rootInode ∧ other ∈ tree.children inode := by
  generalize same : path ++ [name] = full at spells
  cases spells with
  | root => exact absurd same (List.append_ne_nil_of_right_ne_nil _ (List.cons_ne_nil _ _))
  | @child _ node front apart found outer =>
    obtain ⟨rfl, last⟩ := List.append_inj' same rfl
    obtain rfl := List.singleton_inj.mp last
    have parent := wellFormed.path_inode outer above
    exact ⟨node, found, rfl, parent, apart, ((wellFormed.children inode).2 other).mpr ⟨apart, node, found, parent⟩⟩

theorem Spells.above {below : List FileName} (spells : tree.Spells inode (path ++ below)) : ∃ outer, tree.Spells outer path := by
  induction below using List.reverseRecOn generalizing inode with
  | nil => exact ⟨inode, List.append_nil path ▸ spells⟩
  | append_singleton front name ih =>
    rw [← List.append_assoc] at spells
    generalize same : path ++ front ++ [name] = full at spells
    cases spells with
    | root => exact absurd same (List.append_ne_nil_of_right_ne_nil _ (List.cons_ne_nil _ _))
    | child _ _ outer =>
      obtain ⟨isPath, _⟩ := List.append_inj' same rfl
      exact ih (isPath ▸ outer)

theorem Spells.found (wellFormed : WellFormed files maxEntries tree) (spells : tree.Spells inode path) :
    ∃ node, tree.node inode = some node := by
  cases spells with
  | root => exact Option.isSome_iff_exists.mp ((wellFormed.inodes rootInode).mpr (.inl rfl))
  | child _ found _ => exact ⟨_, found⟩

/-- Nothing is below a file. -/
theorem WellFormed.file_ends (wellFormed : WellFormed files maxEntries tree) {node : RemoteNode} (above : tree.Spells inode path)
    (found : tree.node inode = some node) (plain : node.isDirectory = false) {below : List FileName}
    (spells : tree.Spells other (path ++ below)) : below = [] := by
  cases below with
  | nil => rfl
  | cons name rest =>
    rw [List.append_cons] at spells
    obtain ⟨child, isChild⟩ := spells.above
    obtain ⟨childNode, foundChild, _, parent, apart, _⟩ := wellFormed.path_child above isChild
    obtain ⟨owner, foundOwner, directory, _⟩ := wellFormed.parents child childNode apart foundChild
    rw [parent, found] at foundOwner
    rw [← Option.some.inj foundOwner, plain] at directory
    cases directory

end RemoteTree

namespace RemoteFilesystem

open RemoteTree

variable {Fetch : Type} {fs : RemoteFilesystem} {files : List FileDescriptor} {maxEntries : Nat} {tree : RemoteTree}
  {inode : Nat} {node : RemoteNode} {path : List FileName} {name : FileName} {entrySize : FileName → Nat}
  {visits : List FileName → Visit Fetch}

/-- The names in a directory, in the order of its listing. -/
def childNames (tree : RemoteTree) (inode : Nat) : List FileName :=
  (tree.children inode).filterMap fun child => (tree.node child).map (·.name)

theorem numbered_names (rows : List (Nat × FileType × FileName)) :
    (numbered rows).map DirectoryEntry.name = rows.map fun row => row.2.2 := by
  unfold numbered
  refine List.ext_getElem? fun k => ?_
  rw [List.getElem?_map, List.getElem?_mapIdx, List.getElem?_map, Option.map_map]
  rfl

theorem numbered_offset {rows : List (Nat × FileType × FileName)} {k : Nat} {entry : DirectoryEntry}
    (atEntry : (numbered rows)[k]? = some entry) : entry.offset = k + 1 := by
  unfold numbered at atEntry
  rw [List.getElem?_mapIdx] at atEntry
  obtain ⟨row, _, rfl⟩ := Option.map_eq_some_iff.mp atEntry
  rfl

theorem entries_names (tree : RemoteTree) (inode : Nat) (node : RemoteNode) :
    (numbered (entries tree inode node)).map DirectoryEntry.name = ['.'] :: ['.', '.'] :: childNames tree inode := by
  rw [numbered_names]
  unfold entries childNames
  rw [List.map_append, List.map_filterMap]
  simp only [Option.map_map]
  rfl

theorem entries_length (tree : RemoteTree) (inode : Nat) (node : RemoteNode) :
    (numbered (entries tree inode node)).length ≤ (tree.children inode).length + 2 := by
  unfold numbered entries
  rw [List.length_mapIdx, List.length_append, List.length_cons, List.length_singleton, Nat.add_comm]
  exact Nat.add_le_add_right (List.length_filterMap_le _ _) _

theorem listing_directory (found : tree.node inode = some node) (directory : node.isDirectory = true) :
    listing tree inode = .ok (entries tree inode node) := by
  unfold listing
  rw [found]
  dsimp only
  rw [directory]
  exact if_neg Bool.true_eq_false.mp

/-- The calls of a copy are answered in the states given, each listing is read to its end, and a reply has room for
any row at least. -/
structure Attended (serving : TransferState Fetch → Prop) (entrySize : FileName → Nat) (tree : RemoteTree)
    (visits : List FileName → Visit Fetch) : Prop where
  listed : ∀ path, ∀ call ∈ (visits path).listed, serving call.1
  room : ∀ path, ∀ call ∈ (visits path).listed, entrySize ['.'] ≤ call.2 ∧ entrySize ['.', '.'] ≤ call.2 ∧
    ∀ node ∈ tree.nodes, entrySize node.name ≤ call.2
  enough : ∀ inode path, tree.Spells inode path → (tree.children inode).length + 2 < (visits path).listed.length
  found : ∀ path name, serving ((visits path).found name)
  sized : ∀ path name, serving ((visits path).sized name)
  opened : ∀ path name, serving ((visits path).opened name)

theorem Attended.mono {serving other : TransferState Fetch → Prop} (attended : Attended serving entrySize tree visits)
    (also : ∀ s, serving s → other s) : Attended other entrySize tree visits where
  listed path call member := also _ (attended.listed path call member)
  room := attended.room
  enough := attended.enough
  found path name := also _ (attended.found path name)
  sized path name := also _ (attended.sized path name)
  opened path name := also _ (attended.opened path name)

theorem Attended.lists (attended : Attended (Serves · fs.generation tree) entrySize tree visits) (spells : tree.Spells inode path)
    (found : tree.node inode = some node) (directory : node.isDirectory = true) : ∃ entries,
      Paging.gather (fun call offset => (fs.readdir call.1 entrySize call.2 inode offset).toOption) DirectoryEntry.offset
        (visits path).listed 0 = some entries ∧ entries.map DirectoryEntry.name = ['.'] :: ['.', '.'] :: childNames tree inode := by
  have isRows := listing_directory found directory
  have names := entries_names tree inode node
  have few := entries_length tree inode node
  have enough := attended.enough inode path spells
  refine ⟨numbered (entries tree inode node), ?_, names⟩
  refine @Paging.gather_whole _ _ _ _ (numbered (entries tree inode node)) _ (fun _ _ => numbered_offset)
    (fun call member offset within => ?_) 0 (Nat.zero_le _) (by omega)
  obtain ⟨here, above, below⟩ := attended.room path call member
  refine ⟨_, by rw [(attended.listed path call member).readdir isRows]; rfl, Paging.page_prefix _ _ _, Paging.page_nil ?_⟩
  intro entry isEntry
  have isName := List.mem_map_of_mem (f := DirectoryEntry.name) (List.mem_of_mem_drop isEntry)
  rw [names] at isName
  rcases List.mem_cons.mp isName with same | isName
  · exact same ▸ here
  rcases List.mem_cons.mp isName with same | isName
  · exact same ▸ above
  · obtain ⟨child, _, named⟩ := List.mem_filterMap.mp isName
    obtain ⟨node, atNode, same⟩ := Option.map_eq_some_iff.mp named
    exact same ▸ below node (mem_of_node atNode)

theorem copyEach_flatMap {α β : Type} {copy : α → Option (List β)} {entries : List α}
    (each : ∀ entry ∈ entries, (copy entry).isSome = true) :
    copyEach copy entries = some (entries.flatMap fun entry => (copy entry).getD []) := by
  induction entries with
  | nil => rfl
  | cons entry rest ih =>
    obtain ⟨first, isFirst⟩ := Option.isSome_iff_exists.mp (each entry List.mem_cons_self)
    rw [copyEach, ih fun entry member => each entry (List.mem_cons_of_mem _ member), List.flatMap_cons, isFirst]
    rfl

/-- The calls for the sizes of an entry and of the directories above it are answered. -/
def Readable (visits : List FileName → Visit Fetch) (path : List FileName) : Prop :=
  ∀ above name, above ++ [name] <+: path → (visits above).answered name = true

theorem Readable.root : Readable visits [] := fun above name front => by
  have long := front.length_le
  rw [List.length_append] at long
  cases long

theorem Readable.child (readable : Readable visits path) (answered : (visits path).answered name = true) :
    Readable visits (path ++ [name]) := by
  intro above last front
  rcases List.prefix_concat_iff.mp front with same | front
  · obtain ⟨rfl, isLast⟩ := List.append_inj' same rfl
    rwa [List.singleton_inj.mp isLast]
  · exact readable above last front

/-- What a copy finds of a part of the tree: all that can be read there, each path once, with the attributes of its node. -/
structure Copies (fs : RemoteFilesystem) (tree : RemoteTree) (visits : List FileName → Visit Fetch) (part : List FileName → Prop)
    (copied : List (List FileName × FileAttr)) : Prop where
  once : (copied.map Prod.fst).Nodup
  real : ∀ entry ∈ copied, part entry.1 ∧ Readable visits entry.1 ∧ tree.Spells entry.2.ino entry.1 ∧
    ∃ node, tree.node entry.2.ino = some node ∧ fs.Attributes tree node entry.2
  all : ∀ below inode, part below → Readable visits below → tree.Spells inode below →
    ∃ entry ∈ copied, entry.1 = below ∧ entry.2.ino = inode

def Below (path below : List FileName) : Prop := path <+: below ∧ below ≠ path

/-- An entry is copied with all that is below it, or left out with it. -/
theorem Attended.copiesEntry (attended : Attended (Serves · fs.generation tree) entrySize tree visits)
    (wellFormed : WellFormed files maxEntries tree) (readable : Readable visits path) (spells : tree.Spells inode path) {child : Nat}
    (isChild : tree.Spells child (path ++ [name]))
    {goOn : Nat → List FileName → Option (List (List FileName × FileAttr))}
    (later : ∀ node, Readable visits (path ++ [name]) → tree.node child = some node → node.isDirectory = true →
      ∃ copied, goOn child (path ++ [name]) = some copied ∧ Copies fs tree visits (Below (path ++ [name])) copied) :
    ∃ copied, fs.copyEntry (visits path) goOn inode path name = some copied ∧
      Copies fs tree visits (path ++ [name] <+: ·) copied := by
  obtain ⟨node, found, isName, isParent, apart, _⟩ := wellFormed.path_child spells isChild
  have plainName := isName ▸ wellFormed.names child node apart found
  have known := (wellFormed.lookup inode name child).mpr ⟨apart, node, found, isParent, isName⟩
  unfold copyEntry
  rw [if_neg (not_or.mpr ⟨plainName.here, plainName.above⟩)]
  cases answered : (visits path).answered name with
  | false =>
    rw [(attended.found path name).lookup_unanswered known]
    refine ⟨[], rfl, List.nodup_nil, nofun, fun below other part again => ?_⟩
    exact absurd ((again path name part).symm.trans answered) nofun
  | true =>
  have isReadable := readable.child answered
  obtain ⟨attr, answer, isChildInode, attributes⟩ := (attended.found path name).lookup (attended.sized path name) known found
  rw [answer]
  change ∃ copied, (if attr.kind = .directory then _ else _) = some copied ∧ _
  rw [attributes.kind, isChildInode]
  cases directory : node.isDirectory with
  | true =>
    obtain ⟨copied, copies, inside⟩ := later node isReadable found directory
    have kind : fileType node = .directory := if_pos directory
    rw [if_pos kind, copies]
    refine ⟨_, rfl, ?_, fun entry member => ?_, fun below other part again isBelow => ?_⟩
    · rw [List.map_cons, List.nodup_cons]
      refine ⟨fun again => ?_, inside.once⟩
      obtain ⟨entry, member, same⟩ := List.mem_map.mp again
      exact (inside.real entry member).1.2 same
    · rcases List.mem_cons.mp member with rfl | member
      · exact ⟨List.prefix_rfl, isReadable, isChildInode ▸ isChild, node, isChildInode ▸ found, attributes⟩
      · obtain ⟨part, rest⟩ := inside.real entry member
        exact ⟨part.1, rest⟩
    · by_cases here : below = path ++ [name]
      · exact ⟨_, List.mem_cons_self, here.symm, isChildInode.trans (wellFormed.path_inode isChild (here ▸ isBelow))⟩
      · obtain ⟨entry, member, rest⟩ := inside.all below other ⟨part, here⟩ again isBelow
        exact ⟨entry, List.mem_cons_of_mem _ member, rest⟩
  | false =>
    have kind : ¬ fileType node = .directory := by
      unfold fileType
      rw [directory]
      exact FileType.noConfusion
    rw [if_neg kind, (attended.opened path name).openFile found directory]
    refine ⟨_, rfl, List.nodup_singleton _, fun entry member => ?_, fun below other part _ isBelow => ?_⟩
    · rw [List.mem_singleton.mp member]
      exact ⟨List.prefix_rfl, isReadable, isChildInode ▸ isChild, node, isChildInode ▸ found, attributes⟩
    · obtain ⟨rest, rfl⟩ := part
      obtain rfl := wellFormed.file_ends isChild found directory isBelow
      rw [List.append_nil] at isBelow ⊢
      exact ⟨_, List.mem_singleton_self _, rfl, isChildInode.trans (wellFormed.path_inode isChild isBelow)⟩

theorem mem_childNames (wellFormed : WellFormed files maxEntries tree) (spells : tree.Spells inode path) :
    name ∈ childNames tree inode ↔ ∃ child, tree.Spells child (path ++ [name]) := by
  unfold childNames
  rw [List.mem_filterMap]
  constructor
  · rintro ⟨child, member, named⟩
    obtain ⟨node, found, rfl⟩ := Option.map_eq_some_iff.mp named
    obtain ⟨apart, again, foundAgain, parent⟩ := ((wellFormed.children inode).2 child).mp member
    obtain rfl := Option.some.inj (found.symm.trans foundAgain)
    exact ⟨child, .child apart found (parent.symm ▸ spells)⟩
  · rintro ⟨child, isChild⟩
    obtain ⟨node, found, isName, _, _, member⟩ := wellFormed.path_child spells isChild
    exact ⟨child, member, by rw [found, Option.map_some, isName]⟩

theorem childNames_nodup (wellFormed : WellFormed files maxEntries tree) (inode : Nat) : (childNames tree inode).Nodup := by
  obtain ⟨distinct, under⟩ := wellFormed.children inode
  refine List.pairwise_filterMap.mpr (distinct.imp_of_mem fun {one other} isOne isOther apart name named again isAgain same => ?_)
  obtain ⟨node, found, rfl⟩ := Option.map_eq_some_iff.mp named
  obtain ⟨second, foundSecond, rfl⟩ := Option.map_eq_some_iff.mp isAgain
  obtain ⟨notRoot, _, atOne, parent⟩ := (under one).mp isOne
  obtain ⟨notRootSecond, _, atOther, parentSecond⟩ := (under other).mp isOther
  obtain rfl := Option.some.inj (found.symm.trans atOne)
  obtain rfl := Option.some.inj (foundSecond.symm.trans atOther)
  have first := (wellFormed.lookup inode node.name one).mpr ⟨notRoot, node, found, parent, rfl⟩
  have other := (wellFormed.lookup inode second.name other).mpr ⟨notRootSecond, second, foundSecond, parentSecond, rfl⟩
  rw [same, other] at first
  exact apart (Option.some.inj first).symm

/-- The copies of the entries of a directory together. -/
theorem copies_flatMap {names : List FileName} {copy : FileName → List (List FileName × FileAttr)} (distinct : names.Nodup)
    (listed : ∀ below inode, Below path below → tree.Spells inode below → ∃ name ∈ names, path ++ [name] <+: below)
    (each : ∀ name ∈ names, Copies fs tree visits (path ++ [name] <+: ·) (copy name)) :
    Copies fs tree visits (Below path) (names.flatMap copy) := by
  refine ⟨?_, fun entry member => ?_, fun below inode part readable spells => ?_⟩
  · rw [List.map_flatMap, List.nodup_flatMap]
    refine ⟨fun name member => (each name member).once, distinct.imp_of_mem fun {one other} isOne isOther apart => ?_⟩
    intro below inOne inOther
    obtain ⟨entry, member, rfl⟩ := List.mem_map.mp inOne
    obtain ⟨again, memberAgain, same⟩ := List.mem_map.mp inOther
    obtain ⟨rest, first⟩ := ((each one isOne).real entry member).1
    obtain ⟨restAgain, second⟩ := ((each other isOther).real again memberAgain).1
    rw [same, ← first, List.append_assoc, List.append_assoc] at second
    exact apart (List.cons.inj (List.append_cancel_left second)).1.symm
  · obtain ⟨name, isName, member⟩ := List.mem_flatMap.mp member
    obtain ⟨⟨rest, same⟩, found⟩ := (each name isName).real entry member
    rw [List.append_assoc] at same
    refine ⟨⟨⟨_, same⟩, fun stays => ?_⟩, found⟩
    rw [stays] at same
    exact absurd (List.append_right_eq_self.mp same) (List.cons_ne_nil _ _)
  · obtain ⟨name, isName, within⟩ := listed below inode part spells
    obtain ⟨entry, member, rest⟩ := (each name isName).all below inode within readable spells
    exact ⟨entry, List.mem_flatMap.mpr ⟨name, isName, member⟩, rest⟩

/-- A copy from a directory on, with as many levels left as there may be. -/
theorem Attended.copies (attended : Attended (Serves · fs.generation tree) entrySize tree visits)
    (wellFormed : WellFormed files maxEntries tree) (depth : Nat) :
    ∀ {inode : Nat} {node : RemoteNode} {path : List FileName}, Readable visits path → tree.Spells inode path →
      tree.node inode = some node → node.isDirectory = true → maxDirectoryDepth + 2 ≤ depth + path.length →
        ∃ copied, fs.copyOut entrySize visits depth inode path = some copied ∧ Copies fs tree visits (Below path) copied := by
  induction depth with
  | zero =>
    intro inode node path _ spells found _ levels
    obtain ⟨only, isOnly, short, unique⟩ := wellFormed.paths inode (Option.isSome_iff_exists.mpr ⟨node, found⟩)
    rw [← unique path spells] at short
    omega
  | succ depth ih =>
    intro inode node path readable spells found directory levels
    obtain ⟨entries, lists, names⟩ := attended.lists spells found directory
    have copied : ∀ name ∈ childNames tree inode, ∃ copied,
        fs.copyEntry (visits path) (fs.copyOut entrySize visits depth) inode path name = some copied ∧
          Copies fs tree visits (path ++ [name] <+: ·) copied := by
      intro name member
      obtain ⟨child, isChild⟩ := (mem_childNames wellFormed spells).mp member
      refine attended.copiesEntry wellFormed readable spells isChild fun node also found directory =>
        ih also isChild found directory ?_
      rw [List.length_append, List.length_singleton]
      omega
    have dots : ∀ name, name = ['.'] ∨ name = ['.', '.'] →
        fs.copyEntry (visits path) (fs.copyOut entrySize visits depth) inode path name = some [] := fun name dot => if_pos dot
    rw [copyOut, lists, Option.bind_some, names, copyEach_flatMap]
    · refine ⟨_, rfl, ?_⟩
      rw [List.flatMap_cons, List.flatMap_cons, dots _ (.inl rfl), dots _ (.inr rfl)]
      refine copies_flatMap (childNames_nodup wellFormed inode) (fun below other part isBelow => ?_) fun name member => ?_
      · obtain ⟨⟨rest, rfl⟩, apart⟩ := part
        have further : rest ≠ [] := fun empty => apart (by rw [empty, List.append_nil])
        obtain ⟨name, rest, rfl⟩ := List.exists_cons_of_ne_nil further
        rw [List.append_cons] at isBelow
        exact ⟨name, (mem_childNames wellFormed spells).mpr isBelow.above, rest, (List.append_cons ..).symm⟩
      · obtain ⟨copied, same, copies⟩ := copied name member
        exact same ▸ copies
    · intro name member
      rcases List.mem_cons.mp member with dot | member
      · rw [dots name (.inl dot)]
        rfl
      rcases List.mem_cons.mp member with dot | member
      · rw [dots name (.inr dot)]
        rfl
      · obtain ⟨copied, same, _⟩ := copied name member
        rw [same]
        rfl

end RemoteFilesystem

end HyprRdp
