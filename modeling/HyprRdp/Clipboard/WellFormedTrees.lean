import HyprRdp.Clipboard.HostileLists

namespace HyprRdp

open PathTable

namespace RemoteTree

open Listing

variable {tree : RemoteTree} {maxEntries : Nat} {listing : Listing} {path : List FileName} {inode : Nat}

/-- The names on the way from the root down to a node. -/
inductive Spells (tree : RemoteTree) : Nat → List FileName → Prop
  | root : Spells tree rootInode []
  | child {inode : Nat} {node : RemoteNode} {path : List FileName} : inode ≠ rootInode → tree.node inode = some node →
    Spells tree node.parent path → Spells tree inode (path ++ [node.name])

def Holds (tree : RemoteTree) (path : List FileName) (kind : RemoteNodeKind) : Prop :=
  ∃ inode node, tree.Spells inode path ∧ tree.node inode = some node ∧ node.kind = kind

/-- The descriptor's entry stands in the tree, under its own index when it is a file. -/
def Stands (tree : RemoteTree) (index : Nat) (file : FileDescriptor) : Prop :=
  ∃ path, file.pathComponents = some path ∧ tree.Holds path (if file.isDirectory then .directory else .file index)

/-- Why a descriptor may have no entry of its own. -/
inductive Excused (files : List FileDescriptor) (maxEntries : Nat) (tree : RemoteTree) (index : Nat) (file : FileDescriptor) : Prop
  | unusable : file.pathComponents = none → Excused files maxEntries tree index file
  | earlierFile {path above : List FileName} {j : Nat} : file.pathComponents = some path → above <+: path →
    tree.Holds above (.file j) → j < index → Excused files maxEntries tree index file
  | earlierDirectory {path : List FileName} {j : Nat} : file.pathComponents = some path → file.isDirectory = false →
    tree.Holds path .directory → j < index → Claims files j path → Excused files maxEntries tree index file
  | full : maxEntries ≤ tree.entries → Excused files maxEntries tree index file

structure WellFormed (files : List FileDescriptor) (maxEntries : Nat) (tree : RemoteTree) : Prop where
  few : tree.entries ≤ maxEntries
  inodes : ∀ inode, (tree.node inode).isSome = true ↔
    inode = rootInode ∨ (tree.base ≤ inode ∧ inode < tree.base + tree.entries)
  parents : ∀ inode node, inode ≠ rootInode → tree.node inode = some node → ∃ parent, tree.node node.parent = some parent ∧
    parent.isDirectory = true ∧ (node.parent = rootInode ∨ node.parent < inode)
  children : ∀ inode, (tree.children inode).Nodup ∧ ∀ child, child ∈ tree.children inode ↔ tree.Under child inode
  lookup : ∀ parent name inode, tree.lookup parent name = some inode ↔
    inode ≠ rootInode ∧ ∃ node, tree.node inode = some node ∧ node.parent = parent ∧ node.name = name
  names : ∀ inode node, inode ≠ rootInode → tree.node inode = some node → PlainName node.name
  paths : ∀ inode, (tree.node inode).isSome = true → ∃ path, tree.Spells inode path ∧ path.length - 1 ≤ maxDirectoryDepth ∧
    ∀ other, tree.Spells inode other → other = path
  files : ∀ inode node index, tree.node inode = some node → node.kind = .file index → ∃ path file, tree.Spells inode path ∧
    files[index]? = some file ∧ file.pathComponents = some path ∧ file.isDirectory = false ∧ ∀ j < index, ¬ Claims files j path

theorem Mirrors.root_node (mirrors : Mirrors listing tree) : ∃ root, tree.node rootInode = some root ∧
    root.isDirectory = true ∧ root.children = listing.below tree.base [] := by
  obtain ⟨root, atRoot, kind, children⟩ := mirrors.root
  refine ⟨root, ?_, decide_eq_true kind, children⟩
  unfold RemoteTree.node
  rw [if_pos rfl, List.head?_eq_getElem?]
  exact atRoot

/-- Every node but the root stands for an entry of the listing. -/
theorem Mirrors.entry (mirrors : Mirrors listing tree) {node : RemoteNode} (apart : inode ≠ rootInode)
    (found : tree.node inode = some node) : ∃ k path, listing[k]? = some (path ++ [node.name], node.kind) ∧
      inode = tree.base + k ∧ Placed rootInode tree.base listing.paths path node.parent ∧
      node.children = listing.below tree.base (path ++ [node.name]) := by
  obtain ⟨above, below⟩ := node_bounds found apart
  rw [mirrors.entries] at below
  obtain ⟨k, rfl⟩ := Nat.exists_eq_add_of_le above
  have bound : k < listing.length := by omega
  have atEntry := List.getElem?_eq_getElem bound
  generalize listing[k] = entry at atEntry
  obtain ⟨entryPath, kind⟩ := entry
  rcases List.eq_nil_or_concat' entryPath with rfl | ⟨path, name, rfl⟩
  · exact absurd rfl (ne_nil_of_mem mirrors.closed (List.mem_of_getElem? atEntry))
  · obtain ⟨other, atOther, isName, isKind, placed, children⟩ := mirrors.node k path name kind atEntry
    obtain rfl := Option.some.inj (found.symm.trans ((node_given apart).trans atOther))
    subst isName isKind
    exact ⟨k, path, atEntry, rfl, placed, children⟩

theorem Mirrors.clear (mirrors : Mirrors listing tree) : Clear rootInode tree.base listing.paths.length := by
  have given := mirrors.given
  exact fun j _ => by omega

theorem Mirrors.distinct (mirrors : Mirrors listing tree) : listing.paths.Nodup ∧ [] ∉ listing.paths := by
  have distinct := mirrors.closed.nodup
  have proper := mirrors.closed.proper
  rw [marks_paths] at distinct proper
  exact ⟨distinct, proper⟩

theorem Mirrors.spells (mirrors : Mirrors listing tree) :
    tree.Spells inode path ↔ Placed rootInode tree.base listing.paths path inode := by
  constructor
  · intro spells
    induction spells with
    | root => exact .inl ⟨rfl, rfl⟩
    | child apart found _ ih =>
      obtain ⟨k, above, atEntry, rfl, placed, _⟩ := mirrors.entry apart found
      rw [ih.path_unique mirrors.clear placed]
      exact .inr ⟨k, by rw [paths, List.getElem?_map, atEntry]; rfl, rfl⟩
  · intro placed
    induction path using List.reverseRecOn generalizing inode with
    | nil =>
      rcases placed with ⟨_, rfl⟩ | ⟨k, atPath, _⟩
      · exact .root
      · obtain ⟨entry, atEntry, same⟩ := Option.map_eq_some_iff.mp (List.getElem?_map .. ▸ atPath)
        exact absurd same (ne_nil_of_mem mirrors.closed (List.mem_of_getElem? atEntry))
    | append_singleton path name ih =>
      obtain ⟨k, kind, _, rfl, node, found, rfl, _, above, _⟩ := mirrors.listed placed
      have given := mirrors.given
      exact .child (by omega) found (ih above)

theorem Mirrors.holds (mirrors : Mirrors listing tree) {kind : RemoteNodeKind} (member : (path, kind) ∈ listing) :
    tree.Holds path kind := by
  obtain ⟨k, atEntry⟩ := List.mem_iff_getElem?.mp member
  rcases List.eq_nil_or_concat' path with rfl | ⟨above, name, rfl⟩
  · exact absurd rfl (ne_nil_of_mem mirrors.closed member)
  · have placed : Placed rootInode tree.base listing.paths (above ++ [name]) (tree.base + k) :=
      .inr ⟨k, by rw [paths, List.getElem?_map, atEntry]; rfl, rfl⟩
    obtain ⟨j, other, atOther, same, node, found, _, isKind, _⟩ := mirrors.listed placed
    obtain rfl : k = j := by omega
    obtain ⟨_, rfl⟩ := Prod.mk.inj (Option.some.inj (atEntry.symm.trans atOther))
    exact ⟨_, node, mirrors.spells.mpr placed, found, isKind⟩

theorem Mirrors.children_eq (mirrors : Mirrors listing tree) {node : RemoteNode} (found : tree.node inode = some node) :
    ∃ path, Placed rootInode tree.base listing.paths path inode ∧ tree.children inode = listing.below tree.base path := by
  unfold children
  rw [found, Option.map_some, Option.getD_some]
  by_cases isRoot : inode = rootInode
  · subst isRoot
    obtain ⟨root, atRoot, _, same⟩ := mirrors.root_node
    obtain rfl := Option.some.inj (found.symm.trans atRoot)
    exact ⟨[], .inl ⟨rfl, rfl⟩, same⟩
  · obtain ⟨k, path, atEntry, rfl, _, same⟩ := mirrors.entry isRoot found
    exact ⟨path ++ [node.name], .inr ⟨k, by rw [paths, List.getElem?_map, atEntry]; rfl, rfl⟩, same⟩

/-- The children of a node are the entries right below its path, each of which names it as its parent. -/
theorem Mirrors.children (mirrors : Mirrors listing tree) (inode : Nat) :
    (tree.children inode).Nodup ∧ ∀ child, child ∈ tree.children inode ↔ tree.Under child inode := by
  have given := mirrors.given
  obtain ⟨distinct, proper⟩ := mirrors.distinct
  have under : ∀ {child : Nat} {path : List FileName}, Placed rootInode tree.base listing.paths path inode →
      (child ∈ listing.below tree.base path ↔ tree.Under child inode) := by
    intro child path placed
    rw [mem_below]
    constructor
    · rintro ⟨k, entry, kind, atEntry, above, rfl⟩
      rcases List.eq_nil_or_concat' entry with rfl | ⟨front, name, rfl⟩
      · exact absurd rfl (ne_nil_of_mem mirrors.closed (List.mem_of_getElem? atEntry))
      · rw [List.dropLast_concat] at above
        subst above
        obtain ⟨_, _, _, _, node, found, _, _, isPlaced, _⟩ := mirrors.listed
          (.inr ⟨k, by rw [paths, List.getElem?_map, atEntry]; rfl, rfl⟩)
        exact ⟨by omega, node, found, isPlaced.inode_unique distinct proper placed⟩
    · rintro ⟨apart, node, found, rfl⟩
      obtain ⟨k, front, atEntry, rfl, isPlaced, _⟩ := mirrors.entry apart found
      exact ⟨k, _, _, atEntry, by rw [List.dropLast_concat, isPlaced.path_unique mirrors.clear placed], rfl⟩
  cases found : tree.node inode with
  | some node =>
    obtain ⟨path, placed, same⟩ := mirrors.children_eq found
    rw [same]
    exact ⟨below_nodup _ _ _, fun child => under placed⟩
  | none =>
    have empty : tree.children inode = [] := by
      unfold RemoteTree.children
      rw [found]
      rfl
    rw [empty]
    refine ⟨List.nodup_nil, fun child => ⟨fun member => absurd member List.not_mem_nil, ?_⟩⟩
    rintro ⟨apart, node, atChild, rfl⟩
    obtain ⟨_, path, _, _, placed, _⟩ := mirrors.entry apart atChild
    rcases List.eq_nil_or_concat' path with rfl | ⟨front, name, rfl⟩
    · obtain ⟨root, atRoot, _⟩ := mirrors.root_node
      rcases placed with ⟨_, isRoot⟩ | ⟨k, atPath, _⟩
      · rw [isRoot, atRoot] at found
        cases found
      · exact absurd (List.mem_of_getElem? atPath) proper
    · obtain ⟨_, _, _, _, other, atParent, _⟩ := mirrors.listed placed
      cases atParent.symm.trans found

/-- A listed directory by its inode. -/
theorem Mirrors.directory_node (mirrors : Mirrors listing tree) {name : FileName} {j : Nat}
    (atEntry : listing[j]? = some (path ++ [name], .directory)) :
    Placed rootInode tree.base listing.paths (path ++ [name]) (tree.base + j) ∧
      ∃ node, tree.node (tree.base + j) = some node ∧ node.isDirectory = true := by
  have placed : Placed rootInode tree.base listing.paths (path ++ [name]) (tree.base + j) :=
    .inr ⟨j, by rw [paths, List.getElem?_map, atEntry]; rfl, rfl⟩
  obtain ⟨i, kind, atOther, same, node, found, _, isKind, _⟩ := mirrors.listed placed
  obtain rfl : j = i := by omega
  obtain ⟨_, rfl⟩ := Prod.mk.inj (Option.some.inj (atEntry.symm.trans atOther))
  exact ⟨placed, node, found, decide_eq_true isKind⟩

theorem Mirrors.parents (mirrors : Mirrors listing tree) {node : RemoteNode} (apart : inode ≠ rootInode)
    (found : tree.node inode = some node) : ∃ parent, tree.node node.parent = some parent ∧ parent.isDirectory = true ∧
      (node.parent = rootInode ∨ node.parent < inode) := by
  obtain ⟨distinct, proper⟩ := mirrors.distinct
  obtain ⟨k, path, atEntry, rfl, placed, _⟩ := mirrors.entry apart found
  rcases List.eq_nil_or_concat' path with rfl | ⟨front, name, rfl⟩
  · rcases placed with ⟨_, isRoot⟩ | ⟨j, atPath, _⟩
    · obtain ⟨root, atRoot, directory, _⟩ := mirrors.root_node
      exact ⟨root, isRoot ▸ atRoot, directory, .inl isRoot⟩
    · exact absurd (List.mem_of_getElem? atPath) proper
  · have atMark : listing.marks[k]? = some (front ++ [name] ++ [node.name], decide (node.kind = .directory)) := by
      rw [marks, List.getElem?_map, atEntry]
      rfl
    obtain ⟨j, before, atParent⟩ := (mirrors.closed.parent_before atMark).resolve_left
      (List.append_ne_nil_of_right_ne_nil _ (List.cons_ne_nil _ _))
    obtain ⟨⟨_, kind⟩, atParent, same⟩ := Option.map_eq_some_iff.mp (List.getElem?_map .. ▸ atParent)
    obtain ⟨rfl, isDirectory⟩ := Prod.mk.inj same
    obtain rfl := of_decide_eq_true isDirectory
    obtain ⟨above, parent, foundParent, directory⟩ := mirrors.directory_node atParent
    have isParent := placed.inode_unique distinct proper above
    exact ⟨parent, isParent ▸ foundParent, directory, .inr (by omega)⟩

theorem Mirrors.lookup_iff (mirrors : Mirrors listing tree) (parent : Nat) (name : FileName) (inode : Nat) :
    tree.lookup parent name = some inode ↔
      inode ≠ rootInode ∧ ∃ node, tree.node inode = some node ∧ node.parent = parent ∧ node.name = name := by
  obtain ⟨distinct, proper⟩ := mirrors.distinct
  have given := mirrors.given
  constructor
  · intro known
    obtain ⟨path, placed⟩ := mirrors.indexes.known known
    obtain ⟨k, kind, _, rfl, node, found, isName, _, above, _⟩ := mirrors.listed ((mirrors.indexes.finds placed).mp known)
    exact ⟨by omega, node, found, above.inode_unique distinct proper placed, isName⟩
  · rintro ⟨apart, node, found, rfl, rfl⟩
    obtain ⟨k, path, atEntry, rfl, placed, _⟩ := mirrors.entry apart found
    exact (mirrors.indexes.finds placed).mpr (.inr ⟨k, by rw [paths, List.getElem?_map, atEntry]; rfl, rfl⟩)

theorem Mirrors.inodes (mirrors : Mirrors listing tree) (inode : Nat) : (tree.node inode).isSome = true ↔
    inode = rootInode ∨ (tree.base ≤ inode ∧ inode < tree.base + tree.entries) := by
  have given := mirrors.given
  have entries := mirrors.entries
  constructor
  · intro found
    obtain ⟨node, found⟩ := Option.isSome_iff_exists.mp found
    by_cases isRoot : inode = rootInode
    · exact .inl isRoot
    · exact .inr (node_bounds found isRoot)
  · rintro (rfl | ⟨above, below⟩)
    · obtain ⟨root, atRoot, _⟩ := mirrors.root_node
      rw [atRoot]
      rfl
    · obtain ⟨k, rfl⟩ := Nat.exists_eq_add_of_le above
      rw [node_given (by omega), List.getElem?_eq_getElem (by rw [mirrors.length]; omega)]
      rfl

theorem Mirrors.spelled (mirrors : Mirrors listing tree) {done : List FileDescriptor}
    (settled : Settled done maxEntries tree.base listing) (found : (tree.node inode).isSome = true) :
    ∃ path, tree.Spells inode path ∧ path.length - 1 ≤ maxDirectoryDepth ∧ ∀ other, tree.Spells inode other → other = path := by
  obtain ⟨node, found⟩ := Option.isSome_iff_exists.mp found
  obtain ⟨path, placed, _⟩ := mirrors.children_eq found
  refine ⟨path, mirrors.spells.mpr placed, ?_, fun other spells => ?_⟩
  · rcases placed with ⟨rfl, _⟩ | ⟨k, atPath, _⟩
    · exact Nat.zero_le _
    · obtain ⟨⟨_, kind⟩, atEntry, rfl⟩ := Option.map_eq_some_iff.mp (List.getElem?_map .. ▸ atPath)
      exact (settled.plain (List.mem_of_getElem? atEntry)).1
  · exact (mirrors.spells.mp spells).path_unique mirrors.clear placed

theorem Mirrors.file_first (mirrors : Mirrors listing tree) {files done : List FileDescriptor}
    (settled : Settled done maxEntries tree.base listing) (within : done <+: files) {node : RemoteNode} {index : Nat}
    (found : tree.node inode = some node) (isFile : node.kind = .file index) : ∃ path file, tree.Spells inode path ∧
      files[index]? = some file ∧ file.pathComponents = some path ∧ file.isDirectory = false ∧
      ∀ j < index, ¬ Claims files j path := by
  have apart : inode ≠ rootInode := by
    rintro rfl
    obtain ⟨root, atRoot, directory, _⟩ := mirrors.root_node
    obtain rfl := Option.some.inj (found.symm.trans atRoot)
    exact absurd (isFile.symm.trans (of_decide_eq_true directory)) nofun
  obtain ⟨k, path, atEntry, rfl, _⟩ := mirrors.entry apart found
  rw [isFile] at atEntry
  obtain ⟨file, atFile, isPath, plain, first⟩ := settled.file _ index (List.mem_of_getElem? atEntry)
  have spells : tree.Spells (tree.base + k) (path ++ [node.name]) :=
    mirrors.spells.mpr (.inr ⟨k, by rw [paths, List.getElem?_map, atEntry]; rfl, rfl⟩)
  obtain ⟨rest, rfl⟩ := within
  obtain ⟨bound, _⟩ := List.getElem?_eq_some_iff.mp atFile
  refine ⟨_, file, spells, (List.getElem?_append_left bound).trans atFile, isPath, plain, fun j earlier claims => ?_⟩
  obtain ⟨claimer, components, atClaimer, below⟩ := claims
  rw [List.getElem?_append_left (Nat.lt_trans earlier bound)] at atClaimer
  exact first j earlier ⟨claimer, components, atClaimer, below⟩

theorem Mirrors.wellFormed {files done : List FileDescriptor} (mirrors : Mirrors listing tree)
    (settled : Settled done maxEntries tree.base listing) (within : done <+: files) : WellFormed files maxEntries tree where
  few := mirrors.entries ▸ settled.few
  inodes := mirrors.inodes
  parents _ _ := mirrors.parents
  children := mirrors.children
  lookup := mirrors.lookup_iff
  names inode node apart found := by
    obtain ⟨k, path, atEntry, _⟩ := mirrors.entry apart found
    exact (settled.plain (List.mem_of_getElem? atEntry)).2 _ (List.mem_append_right _ List.mem_cons_self)
  paths _ := mirrors.spelled settled
  files _ _ _ := mirrors.file_first settled within

/-- How a descriptor fares in the listing is how it fares in the tree. -/
theorem Mirrors.fares {files done : List FileDescriptor} {index : Nat} {file : FileDescriptor} (mirrors : Mirrors listing tree)
    (isPath : file.pathComponents = some path) (fares : Fares done maxEntries tree.base listing index file path)
    (within : done <+: files) (room : tree.base + tree.entries < 2 ^ 64) :
    tree.Stands index file ∨ Excused files maxEntries tree index file := by
  cases fares with
  | stands member => exact .inl ⟨path, isPath, mirrors.holds member⟩
  | earlierFile above member earlier => exact .inr (.earlierFile isPath above (mirrors.holds member) earlier)
  | earlierDirectory plain member earlier claims =>
    exact .inr (.earlierDirectory isPath plain (mirrors.holds member) earlier (claims.later within))
  | noRoom none =>
    rcases none with full | beyond
    · exact .inr (.full (mirrors.entries ▸ full))
    · rw [mirrors.entries] at room
      omega

/-- Whatever the client sends, the three indexes of its tree show the same directories and
files, and a descriptor is left out for a reason. -/
theorem build_wellFormed (builtAt : Int) (files : List FileDescriptor) (maxEntries base : Nat) (given : firstInode ≤ base)
    (room : base + (build builtAt files maxEntries base).entries < 2 ^ 64) :
    (build builtAt files maxEntries base).base = base ∧ WellFormed files maxEntries (build builtAt files maxEntries base) ∧
      ∀ index file, files[index]? = some file → (build builtAt files maxEntries base).Stands index file ∨
        Excused files maxEntries (build builtAt files maxEntries base) index file ∨ maxEntries ≤ index ∨ 2 ^ 31 ≤ index := by
  obtain ⟨done, listing, _, within, settled, mirrors, sameBase, left⟩ :=
    (rooted_mirrors builtAt given).addAll (@settled_nil maxEntries base) files
  rw [List.nil_append] at within left
  change (build builtAt files maxEntries base).base = base at sameBase
  change Mirrors listing (build builtAt files maxEntries base) at mirrors
  have settled : Settled done maxEntries (build builtAt files maxEntries base).base listing := sameBase.symm ▸ settled
  refine ⟨sameBase, mirrors.wellFormed settled within, fun index file atFile => ?_⟩
  obtain ⟨bound, _⟩ := List.getElem?_eq_some_iff.mp atFile
  by_cases reached : index < done.length
  · obtain ⟨rest, rfl⟩ := within
    rw [List.getElem?_append_left reached] at atFile
    cases isPath : file.pathComponents with
    | none => exact .inr (.inl (.unusable isPath))
    | some path =>
      have fares := mirrors.fares isPath (settled.fares index file path atFile isPath) (List.prefix_append done rest)
        (sameBase.symm ▸ room)
      exact fares.imp_right .inl
  · rcases left index (Nat.le_of_not_lt reached) bound with full | used
    · exact .inr (.inl (.full (mirrors.entries ▸ full)))
    · exact .inr (.inr used)

section LeftOut

def dotDot : FileDescriptor := ⟨['.', '.'], none, none, none, none⟩

def directoryA : FileDescriptor := ⟨['a'], none, some ⟨true, false, false⟩, none, none⟩

def fileB : FileDescriptor := ⟨['b'], none, none, none, none⟩

theorem fileB_path : fileB.pathComponents = some [['b']] := by decide

theorem not_holds {tree : RemoteTree} (others : ∀ node ∈ tree.nodes, node.name ≠ ['b']) (kind : RemoteNodeKind) :
    ¬ tree.Holds [['b']] kind := by
  rintro ⟨inode, node, spells, _⟩
  generalize same : [['b']] = path at spells
  cases spells with
  | root => cases same
  | child _ found _ =>
    have last := congrArg List.getLast? same
    rw [List.getLast?_concat] at last
    exact others _ (mem_of_node found) (Option.some.inj last).symm

/-- A tree of other directories that has room does not excuse the file. -/
theorem not_excused {tree : RemoteTree} {files : List FileDescriptor} {maxEntries index : Nat}
    (directories : ∀ node ∈ tree.nodes, node.kind = .directory ∧ node.name ≠ ['b']) (room : tree.entries < maxEntries) :
    ¬ (tree.Stands index fileB ∨ Excused files maxEntries tree index fileB) := by
  have others := not_holds fun node member => (directories node member).2
  rintro (⟨path, isPath, holds⟩ | excused)
  · obtain rfl := Option.some.inj (fileB_path.symm.trans isPath)
    exact others _ holds
  · cases excused with
    | unusable unusable => cases fileB_path.symm.trans unusable
    | full full => omega
    | earlierFile _ _ holds _ =>
      obtain ⟨_, node, _, found, isFile⟩ := holds
      cases (directories node (mem_of_node found)).1.symm.trans isFile
    | earlierDirectory isPath _ holds _ _ =>
      obtain rfl := Option.some.inj (fileB_path.symm.trans isPath)
      exact others _ holds

/-- A directory that is listed once more, without a time and with the same attributes, changes nothing. -/
theorem addAll_repeated {tree : RemoteTree} {maxEntries : Nat} (same : ∀ index, tree.add maxEntries index directoryA = tree)
    (space : tree.isFull maxEntries = false) (rest : List FileDescriptor) (count : Nat) :
    ∀ index, index + count ≤ maxEntries → index + count ≤ 2 ^ 31 →
      tree.addAll maxEntries index (List.replicate count directoryA ++ rest) = tree.addAll maxEntries (index + count) rest := by
  induction count with
  | zero => exact fun _ _ _ => rfl
  | succ count ih =>
    intro index within numbered
    rw [List.replicate_succ, List.cons_append]
    have goesOn : ¬ (tree.isFull maxEntries = true ∨ maxEntries ≤ index ∨ 2 ^ 31 ≤ index) := by
      rw [space]
      simp only [Bool.false_eq_true, false_or]
      omega
    rw [addAll, if_neg goesOn, same, ih (index + 1) (by omega) (by omega), Nat.add_assoc, Nat.add_comm 1]

def treeA : RemoteTree :=
  ⟨firstInode, [⟨[], rootInode, some 0, 0, .directory, true, [firstInode]⟩, ⟨['a'], rootInode, some 0, 0, .directory, false, []⟩],
    [((rootInode, ['a']), firstInode)], 0⟩

theorem treeA_same (maxEntries index : Nat) : treeA.add maxEntries index directoryA = treeA := by
  have path : directoryA.pathComponents = some [['a']] := by decide
  unfold add
  rw [path]
  rfl

/-- An index that a file node cannot hold. -/
theorem beyond_indices {count : Nat} (beyond : count = 2 ^ 31) :
    build 0 (List.replicate count directoryA ++ [fileB]) (count + 1) firstInode = treeA := by
  obtain ⟨before, rfl⟩ : ∃ before, count = before + 1 := ⟨count - 1, by omega⟩
  have path : directoryA.pathComponents = some [['a']] := by decide
  have first : (rooted 0 firstInode).add (before + 1 + 1) 0 directoryA = treeA := by
    have open_tree : (rooted 0 firstInode).isFull (before + 1 + 1) = false := decide_eq_false (Nat.not_succ_le_zero _)
    unfold add
    rw [path]
    simp only [List.dropLast_singleton, List.getLast?_singleton, reach]
    unfold insert
    rw [open_tree]
    rfl
  have space : treeA.isFull (before + 1 + 1) = false := decide_eq_false (by unfold entries treeA; simp)
  have open_list : ¬ ((rooted 0 firstInode).isFull (before + 1 + 1) = true ∨ before + 1 + 1 ≤ 0 ∨ 2 ^ 31 ≤ 0) := by
    unfold isFull entries rooted
    simp
  unfold build
  rw [List.replicate_succ, List.cons_append, addAll, if_neg open_list, first,
    addAll_repeated (treeA_same _) space [fileB] before 1 (by omega) (by omega), addAll, if_pos (.inr (.inr (by omega)))]

/-- The descriptors count against the budget too, an index has 31 bits, and the root has an inode already. -/
theorem other_reasons :
    ¬ ((build 0 [dotDot, fileB] 1 firstInode).Stands 1 fileB ∨ Excused [dotDot, fileB] 1 (build 0 [dotDot, fileB] 1 firstInode) 1 fileB) ∧
    ¬ ((build 0 (List.replicate (2 ^ 31) directoryA ++ [fileB]) (2 ^ 31 + 1) firstInode).Stands (2 ^ 31) fileB ∨
      Excused (List.replicate (2 ^ 31) directoryA ++ [fileB]) (2 ^ 31 + 1)
        (build 0 (List.replicate (2 ^ 31) directoryA ++ [fileB]) (2 ^ 31 + 1) firstInode) (2 ^ 31) fileB) ∧
    ¬ WellFormed [fileB] 1 (build 0 [fileB] 1 rootInode) := by
  refine ⟨?_, ?_, fun wellFormed => ?_⟩
  · have alone : build 0 [dotDot, fileB] 1 firstInode = rooted 0 firstInode := by decide
    rw [alone]
    refine not_excused (fun node member => ?_) (by decide)
    rw [List.mem_singleton.mp member]
    exact ⟨rfl, nofun⟩
  · rw [beyond_indices rfl]
    refine not_excused (fun node member => ?_) (by unfold entries treeA; simp)
    have two : node = ⟨[], rootInode, some 0, 0, .directory, true, [firstInode]⟩ ∨
        node = ⟨['a'], rootInode, some 0, 0, .directory, false, []⟩ := by
      simpa [treeA] using member
    rcases two with rfl | rfl
    · exact ⟨rfl, nofun⟩
    · exact ⟨rfl, by decide⟩
  · have known : (build 0 [fileB] 1 rootInode).lookup rootInode ['b'] = some rootInode := by decide
    exact ((wellFormed.lookup _ _ _).mp known).1 rfl

/-- A list with a file below a directory that comes later, and one that the file is in the way of. -/
theorem build_wellFormed_once :
    WellFormed [⟨['c'], some ['a'], none, some 4, none⟩, directoryA, ⟨['d'], some ['a', '/', 'c'], none, none, none⟩] 10
      (build 0 [⟨['c'], some ['a'], none, some 4, none⟩, directoryA, ⟨['d'], some ['a', '/', 'c'], none, none, none⟩] 10 firstInode) :=
  (build_wellFormed 0 _ 10 firstInode (Nat.le_refl _) (by decide)).2.1

end LeftOut

end RemoteTree

end HyprRdp
