import HyprRdp.Clipboard.TreeNodes
import HyprRdp.Lib.PathTable

namespace HyprRdp

open PathTable

/-- A component that a directory entry can have. -/
structure PlainName (component : FileName) : Prop where
  named : component ≠ []
  here : component ≠ ['.']
  above : component ≠ ['.', '.']
  plain : ∀ character ∈ component, FileDescriptor.isSeparator character = false ∧ character ≠ Char.ofNat 0

theorem FileDescriptor.pathComponents_plain {file : FileDescriptor} {components : List FileName}
    (path : file.pathComponents = some components) :
    components ≠ [] ∧ components.length - 1 ≤ maxDirectoryDepth ∧ ∀ component ∈ components, PlainName component := by
  unfold FileDescriptor.pathComponents at path
  obtain ⟨⟨some_component, depth, usable⟩, same⟩ := Option.ite_none_right_eq_some.mp path
  obtain rfl := Option.some.inj same
  refine ⟨some_component, depth, fun component member => ?_⟩
  have allowed := List.all_eq_true.mp usable component member
  simp only [Bool.and_eq_true, ne_eq, Bool.not_eq_true', decide_eq_true_eq] at allowed
  obtain ⟨parts, named⟩ := List.mem_filter.mp member
  have free : ∀ character ∈ component, FileDescriptor.isSeparator character = false :=
    (List.mem_append.mp parts).elim List.splitOnP_clean List.splitOnP_clean
  refine ⟨of_decide_eq_true named, allowed.1.1, allowed.1.2, fun character inside => ⟨free character inside, ?_⟩⟩
  rintro rfl
  exact Bool.eq_false_iff.mp allowed.2 (List.contains_iff_mem.mpr inside)

/-- The nodes below the root in their order, each by its path. -/
abbrev Listing := List (List FileName × RemoteNodeKind)

namespace Listing

def paths (listing : Listing) : List (List FileName) := listing.map Prod.fst

def marks (listing : Listing) : List (List FileName × Bool) := listing.map fun entry => (entry.1, entry.2 = .directory)

/-- The inodes of the entries right below a path. -/
def below (base : Nat) (listing : Listing) (path : List FileName) : List Nat :=
  (listing.zipIdx.filter fun entry => entry.1.1.dropLast = path).map fun entry => base + entry.2

variable {listing : Listing} {path other : List FileName} {name : FileName} {kind : RemoteNodeKind} {base : Nat}

theorem marks_paths (listing : Listing) : listing.marks.map Prod.fst = listing.paths := by
  unfold marks paths
  rw [List.map_map]
  rfl

theorem mem_marks_directory : (path, true) ∈ listing.marks ↔ (path, .directory) ∈ listing := by
  unfold marks
  rw [List.mem_map]
  constructor
  · rintro ⟨⟨_, kind⟩, member, same⟩
    obtain ⟨rfl, directory⟩ := Prod.mk.inj same
    rw [← of_decide_eq_true directory]
    exact member
  · exact fun member => ⟨_, member, rfl⟩

theorem below_concat (listing : Listing) (path other : List FileName) (name : FileName) (kind : RemoteNodeKind) (base : Nat) :
    below base (listing ++ [(path ++ [name], kind)]) other =
      below base listing other ++ if path = other then [base + listing.length] else [] := by
  unfold below
  rw [List.zipIdx_append, List.filter_append, List.map_append, Nat.zero_add, List.zipIdx_singleton]
  by_cases same : path = other
  · rw [if_pos same, List.filter_cons_of_pos (by simpa using same)]
    rfl
  · rw [if_neg same, List.filter_cons_of_neg (by simpa using same)]
    rfl

theorem mem_below {child : Nat} : child ∈ below base listing path ↔
    ∃ k entry kind, listing[k]? = some (entry, kind) ∧ entry.dropLast = path ∧ child = base + k := by
  unfold below
  simp only [List.mem_map, List.mem_filter, decide_eq_true_eq, Prod.exists, List.mem_zipIdx_iff_getElem?]
  constructor
  · rintro ⟨entry, kind, k, ⟨atEntry, above⟩, rfl⟩
    exact ⟨k, entry, kind, atEntry, above, rfl⟩
  · rintro ⟨k, entry, kind, atEntry, above, rfl⟩
    exact ⟨entry, kind, k, ⟨atEntry, above⟩, rfl⟩

theorem below_nodup (base : Nat) (listing : Listing) (path : List FileName) : (below base listing path).Nodup := by
  unfold below
  have distinct : (listing.zipIdx.map Prod.snd).Nodup := by
    rw [List.zipIdx_map_snd]
    exact List.nodup_range' ..
  have part := (List.filter_sublist (p := fun entry : (List FileName × RemoteNodeKind) × Nat =>
    decide (entry.1.1.dropLast = path)) (l := listing.zipIdx)).map Prod.snd
  have shifted := (distinct.sublist part).map (add_right_injective base)
  rw [List.map_map] at shifted
  exact shifted

theorem below_eq_nil (closed : Closed listing.marks) (named : path ≠ []) (fresh : path ∉ listing.paths) :
    below base listing path = [] := by
  refine List.eq_nil_iff_forall_not_mem.mpr fun child member => ?_
  obtain ⟨k, entryPath, entryKind, atEntry, above, _⟩ := mem_below.mp member
  have listed : (entryPath, decide (entryKind = .directory)) ∈ listing.marks :=
    List.mem_map_of_mem (List.mem_of_getElem? atEntry)
  rcases List.eq_nil_or_concat' entryPath with rfl | ⟨front, last, rfl⟩
  · exact named (above.symm.trans List.dropLast_nil)
  · rw [List.dropLast_concat] at above
    subst above
    have isDirectory := (closed.parent listed).resolve_left named
    exact fresh (List.mem_map_of_mem (mem_marks_directory.mp isDirectory))

theorem closed_concat (closed : Closed listing.marks) (directory : path = [] ∨ (path, .directory) ∈ listing)
    (fresh : path ++ [name] ∉ listing.paths) (kind : RemoteNodeKind) :
    Closed (marks (listing ++ [(path ++ [name], kind)])) := by
  have grown := @Closed.concat _ _ _ name (decide (kind = .directory)) closed (directory.imp_right mem_marks_directory.mpr)
    (by rw [marks_paths]; exact fresh)
  unfold marks at grown ⊢
  rw [List.map_append]
  exact grown

end Listing

namespace RemoteTree

variable {tree : RemoteTree} {maxEntries parent : Nat} {name : FileName} {entry : RemoteEntry} {listing : Listing}
  {path other : List FileName} {inode : Nat}

/-- The node of a path stands at this place of the tree's vector. -/
abbrev Standing (listing : Listing) (path : List FileName) (position : Nat) : Prop := Placed 0 1 listing.paths path position

theorem Standing.iff {position place : Nat} (closed : Closed listing.marks) (first : Standing listing path position)
    (second : Standing listing other place) : path = other ↔ position = place := by
  have clear : Clear 0 1 listing.paths.length := fun j _ => by omega
  have distinct := closed.nodup
  have proper := closed.proper
  rw [Listing.marks_paths] at distinct proper
  constructor
  · rintro rfl
    exact first.inode_unique distinct proper second
  · rintro rfl
    exact first.path_unique clear second

/-- The vector, the lists of children and the name map of a tree all show the same listing. -/
structure Mirrors (listing : Listing) (tree : RemoteTree) : Prop where
  given : rootInode < tree.base
  length : tree.nodes.length = listing.length + 1
  closed : Closed listing.marks
  indexes : Indexes rootInode tree.base tree.byName listing.paths
  root : ∃ root : RemoteNode, tree.nodes[0]? = some root ∧ root.kind = .directory ∧ root.children = listing.below tree.base []
  node : ∀ k path name kind, listing[k]? = some (path ++ [name], kind) → ∃ node : RemoteNode, tree.nodes[k + 1]? = some node ∧
    node.name = name ∧ node.kind = kind ∧ Placed rootInode tree.base listing.paths path node.parent ∧
    node.children = listing.below tree.base (path ++ [name])

theorem Mirrors.entries (mirrors : Mirrors listing tree) : tree.entries = listing.length := by
  unfold RemoteTree.entries
  rw [mirrors.length, Nat.add_sub_cancel]

theorem rooted_mirrors (builtAt : Int) {base : Nat} (given : rootInode < base) : Mirrors [] (rooted builtAt base) where
  given := given
  length := rfl
  closed := .nil
  indexes := indexes_nil
  root := ⟨_, rfl, rfl, rfl⟩
  node := nofun

def addChild (inode : Nat) (node : RemoteNode) : RemoteNode := { node with children := node.children ++ [inode] }

theorem push_at {position : Nat} (at_parent : (if parent = rootInode then some 0 else tree.offset parent) = some position)
    (within : position < tree.nodes.length + 1) : tree.push parent name entry =
      ({ tree with
        nodes := (tree.nodes ++ [tree.leaf parent name entry]).modify position (addChild (tree.base + tree.entries))
        byName := tree.byName ++ [((parent, name), tree.base + tree.entries)] }, some (tree.base + tree.entries)) := by
  unfold push
  rw [at_parent]
  dsimp only
  rw [if_pos (by rw [List.length_append]; exact within)]
  rfl

theorem Mirrors.position (mirrors : Mirrors listing tree) (placed : Placed rootInode tree.base listing.paths path parent) :
    ∃ position, Standing listing path position ∧ (if parent = rootInode then some 0 else tree.offset parent) = some position ∧
      position < tree.nodes.length := by
  rcases placed with ⟨rfl, rfl⟩ | ⟨j, atPath, rfl⟩
  · exact ⟨0, .inl ⟨rfl, rfl⟩, if_pos rfl, by rw [mirrors.length]; exact Nat.succ_pos _⟩
  · obtain ⟨bound, _⟩ := List.getElem?_eq_some_iff.mp atPath
    have given := mirrors.given
    have count : listing.paths.length = listing.length := List.length_map ..
    refine ⟨1 + j, .inr ⟨j, atPath, rfl⟩, ?_, by rw [mirrors.length]; omega⟩
    rw [if_neg (by omega)]
    unfold offset
    rw [if_pos (Nat.le_add_right _ _), Nat.add_sub_cancel_left, Nat.add_comm]

/-- A new node below a listed directory stands at the end of the listing. -/
theorem Mirrors.push (mirrors : Mirrors listing tree) (placed : Placed rootInode tree.base listing.paths path parent)
    (directory : path = [] ∨ (path, .directory) ∈ listing) (fresh : path ++ [name] ∉ listing.paths) (entry : RemoteEntry) :
    Mirrors (listing ++ [(path ++ [name], entry.kind)]) (tree.push parent name entry).1 ∧
      (tree.push parent name entry).1.base = tree.base ∧
      (tree.push parent name entry).2 = some (tree.base + listing.length) := by
  obtain ⟨position, standing, at_parent, within⟩ := mirrors.position placed
  have entries := mirrors.entries
  have given := mirrors.given
  have length := mirrors.length
  have closed := Listing.closed_concat mirrors.closed directory fresh entry.kind
  have paths : Listing.paths (listing ++ [(path ++ [name], entry.kind)]) = listing.paths ++ [path ++ [name]] := List.map_append
  have count : listing.marks.length = listing.length := List.length_map ..
  have indexes : Indexes rootInode tree.base (tree.byName ++ [((parent, name), tree.base + listing.length)])
      (Listing.paths (listing ++ [(path ++ [name], entry.kind)])) := by
    have marks : Listing.marks (listing ++ [(path ++ [name], entry.kind)]) =
        listing.marks ++ [(path ++ [name], decide (entry.kind = .directory))] := List.map_append
    have old := mirrors.indexes
    have grown := closed
    rw [marks] at grown
    rw [← Listing.marks_paths] at old placed ⊢
    rw [marks, ← count]
    exact old.concat (fun j _ => by omega) grown placed
  -- what is found where: the entry in the old vector, and one child more at the parent's position
  have found : ∀ {q : Nat} {node : RemoteNode}, (tree.nodes ++ [tree.leaf parent name entry])[q]? = some node →
      ((tree.nodes ++ [tree.leaf parent name entry]).modify position (addChild (tree.base + tree.entries)))[q]? =
        some (if position = q then addChild (tree.base + listing.length) node else node) := by
    intro q node atNode
    rw [List.getElem?_modify, atNode, entries]
    by_cases same : position = q
    · rw [if_pos same]
      simp [same]
    · rw [if_neg same]
      simp [same]
  have children : ∀ {q : Nat} {other : List FileName} {node : RemoteNode}, Standing listing other q →
      node.children = listing.below tree.base other →
      (if position = q then addChild (tree.base + listing.length) node else node).children =
        Listing.below tree.base (listing ++ [(path ++ [name], entry.kind)]) other := by
    intro q other node stands same
    rw [Listing.below_concat]
    by_cases here : path = other
    · rw [if_pos ((standing.iff mirrors.closed stands).mp here), if_pos here, ← same]
      rfl
    · rw [if_neg (mt (standing.iff mirrors.closed stands).mpr here), if_neg here, List.append_nil]
      exact same
  have keeps : ∀ {q : Nat} (node : RemoteNode),
      (if position = q then addChild (tree.base + listing.length) node else node).name = node.name ∧
      (if position = q then addChild (tree.base + listing.length) node else node).kind = node.kind ∧
      (if position = q then addChild (tree.base + listing.length) node else node).parent = node.parent := by
    intro q node
    split
    · exact ⟨rfl, rfl, rfl⟩
    · exact ⟨rfl, rfl, rfl⟩
  rw [push_at at_parent (Nat.lt_succ_of_lt within)]
  refine ⟨⟨given, ?_, closed, ?_, ?_, fun k above last kind atEntry => ?_⟩, rfl, by rw [entries]⟩
  · dsimp only
    rw [List.length_modify, List.length_append, List.length_append, length]
    rfl
  · dsimp only
    rw [entries]
    exact indexes
  · obtain ⟨root, atRoot, kind, isChildren⟩ := mirrors.root
    have old : (tree.nodes ++ [tree.leaf parent name entry])[0]? = some root := List.getElem?_concat_iff.mpr (.inl atRoot)
    exact ⟨_, found old, (keeps root).2.1.trans kind, children (.inl ⟨rfl, rfl⟩) isChildren⟩
  · dsimp only
    rw [paths]
    rcases List.getElem?_concat_iff.mp atEntry with old | ⟨rfl, same⟩
    · obtain ⟨node, atNode, isName, isKind, isPlaced, isChildren⟩ := mirrors.node k above last kind old
      have stands : Standing listing (above ++ [last]) (k + 1) :=
        .inr ⟨k, by rw [Listing.paths, List.getElem?_map, old]; rfl, Nat.add_comm _ _⟩
      exact ⟨_, found (List.getElem?_concat_iff.mpr (.inl atNode)), (keeps node).1.trans isName, (keeps node).2.1.trans isKind,
        placed_concat.mpr (.inl ((keeps node).2.2 ▸ isPlaced)), children stands isChildren⟩
    · obtain ⟨samePath, rfl⟩ := Prod.mk.inj same
      obtain ⟨rfl, sameName⟩ := List.append_inj' samePath rfl
      obtain rfl := List.singleton_inj.mp sameName
      have new : (tree.nodes ++ [tree.leaf parent last entry])[listing.length + 1]? = some (tree.leaf parent last entry) :=
        List.getElem?_concat_iff.mpr (.inr ⟨length.symm, rfl⟩)
      have apart : position ≠ listing.length + 1 := by omega
      refine ⟨_, found new, ?_⟩
      rw [if_neg apart]
      refine ⟨rfl, rfl, placed_concat.mpr (.inl placed), ?_⟩
      have longer : above ≠ above ++ [last] := fun same => by simpa using congrArg List.length same
      rw [Listing.below_concat, if_neg longer, List.append_nil,
        Listing.below_eq_nil mirrors.closed (List.append_ne_nil_of_right_ne_nil _ (List.cons_ne_nil _ _)) fresh]
      rfl

theorem Mirrors.modify (mirrors : Mirrors listing tree) {change : RemoteNode → RemoteNode}
    (keeps : ∀ node, (change node).name = node.name ∧ (change node).kind = node.kind ∧ (change node).parent = node.parent ∧
      (change node).children = node.children) (position : Nat) :
    Mirrors listing { tree with nodes := tree.nodes.modify position change } := by
  have found : ∀ {q : Nat} {node : RemoteNode}, tree.nodes[q]? = some node → ∃ kept,
      (tree.nodes.modify position change)[q]? = some kept ∧ kept.name = node.name ∧ kept.kind = node.kind ∧
        kept.parent = node.parent ∧ kept.children = node.children := by
    intro q node atNode
    rw [List.getElem?_modify, atNode]
    refine ⟨_, rfl, ?_⟩
    dsimp only
    split
    · exact keeps node
    · exact ⟨rfl, rfl, rfl, rfl⟩
  refine ⟨mirrors.given, ?_, mirrors.closed, mirrors.indexes, ?_, fun k path name kind atEntry => ?_⟩
  · dsimp only
    rw [List.length_modify, mirrors.length]
  · obtain ⟨root, atRoot, isKind, isChildren⟩ := mirrors.root
    obtain ⟨kept, atKept, _, kind, _, children⟩ := found atRoot
    exact ⟨kept, atKept, kind.trans isKind, children.trans isChildren⟩
  · obtain ⟨node, atNode, isName, isKind, isPlaced, isChildren⟩ := mirrors.node k path name kind atEntry
    obtain ⟨kept, atKept, name, kind, parent, children⟩ := found atNode
    exact ⟨kept, atKept, name.trans isName, kind.trans isKind, parent.symm ▸ isPlaced, children.trans isChildren⟩

/-- An inode below the root stands for an entry of the listing. -/
theorem Mirrors.listed (mirrors : Mirrors listing tree)
    (placed : Placed rootInode tree.base listing.paths (path ++ [name]) inode) :
    ∃ k kind, listing[k]? = some (path ++ [name], kind) ∧ inode = tree.base + k ∧
      ∃ node, tree.node inode = some node ∧ node.name = name ∧ node.kind = kind ∧
        Placed rootInode tree.base listing.paths path node.parent ∧ node.children = listing.below tree.base (path ++ [name]) := by
  rcases placed with ⟨empty, _⟩ | ⟨k, atPath, rfl⟩
  · exact absurd empty (List.append_ne_nil_of_right_ne_nil _ (List.cons_ne_nil _ _))
  · obtain ⟨⟨_, kind⟩, atEntry, rfl⟩ := Option.map_eq_some_iff.mp (List.getElem?_map .. ▸ atPath)
    obtain ⟨node, atNode, facts⟩ := mirrors.node k path name kind atEntry
    have given := mirrors.given
    exact ⟨k, kind, atEntry, rfl, node, (node_given (by omega)).trans atNode, facts⟩

end RemoteTree

namespace Listing

/-- What becomes of a listing when an entry of this kind is put at a path, and the inode that stands for it. -/
inductive Puts (maxEntries base : Nat) (listing : Listing) (path : List FileName) (kind : RemoteNodeKind) :
    Listing → Option Nat → Prop
  | new : path ∉ listing.paths → listing.length < maxEntries → base + listing.length < 2 ^ 64 →
    Puts maxEntries base listing path kind (listing ++ [(path, kind)]) (some (base + listing.length))
  | merged {k : Nat} : listing[k]? = some (path, .directory) → kind = .directory →
    Puts maxEntries base listing path kind listing (some (base + k))
  | taken {other : RemoteNodeKind} : (path, other) ∈ listing → (other ≠ .directory ∨ kind ≠ .directory) →
    Puts maxEntries base listing path kind listing none
  | full : path ∉ listing.paths → (maxEntries ≤ listing.length ∨ 2 ^ 64 ≤ base + listing.length) →
    Puts maxEntries base listing path kind listing none

/-- The directories along a path are put one after the other, as far as that goes. -/
inductive Reaches (maxEntries base : Nat) : Listing → List FileName → List FileName → Listing → Option Nat → Prop
  | done {listing : Listing} {front : List FileName} (inode : Nat) :
    Reaches maxEntries base listing front [] listing (some inode)
  | blocked {listing next : Listing} {front rest : List FileName} {name : FileName} :
    Puts maxEntries base listing (front ++ [name]) .directory next none →
    Reaches maxEntries base listing front (name :: rest) next none
  | next {listing more next : Listing} {front rest : List FileName} {name : FileName} {inode : Nat} {result : Option Nat} :
    Puts maxEntries base listing (front ++ [name]) .directory more (some inode) →
    Reaches maxEntries base more (front ++ [name]) rest next result →
    Reaches maxEntries base listing front (name :: rest) next result

/-- What a descriptor at this index adds to a listing. -/
inductive Adds (maxEntries base index : Nat) (file : FileDescriptor) (listing : Listing) : Listing → Prop
  | unusable : file.pathComponents = none → Adds maxEntries base index file listing listing
  | unreached {parents : List FileName} {leaf : FileName} {next : Listing} :
    file.pathComponents = some (parents ++ [leaf]) → Reaches maxEntries base listing [] parents next none →
    Adds maxEntries base index file listing next
  | put {parents : List FileName} {leaf : FileName} {more next : Listing} {parent : Nat} {result : Option Nat} :
    file.pathComponents = some (parents ++ [leaf]) → Reaches maxEntries base listing [] parents more (some parent) →
    Puts maxEntries base more (parents ++ [leaf]) (if file.isDirectory then .directory else .file index) next result →
    Adds maxEntries base index file listing next

theorem Puts.grows {maxEntries base : Nat} {listing next : Listing} {path : List FileName} {kind : RemoteNodeKind}
    {result : Option Nat} (puts : Puts maxEntries base listing path kind next result) : listing <+: next := by
  cases puts with
  | new _ _ _ => exact List.prefix_append _ _
  | merged _ _ | taken _ _ | full _ _ => exact List.prefix_rfl

/-- A directory that is put stands there. -/
theorem Puts.directory {maxEntries base inode : Nat} {listing next : Listing} {path : List FileName}
    (puts : Puts maxEntries base listing path .directory next (some inode)) :
    Placed rootInode base next.paths path inode ∧ (path, .directory) ∈ next := by
  cases puts with
  | new _ _ _ =>
    refine ⟨?_, List.mem_append_right _ List.mem_cons_self⟩
    rw [paths, List.map_append]
    exact placed_concat.mpr (.inr ⟨rfl, by rw [List.length_map]⟩)
  | merged atEntry _ =>
    refine ⟨.inr ⟨_, ?_, rfl⟩, List.mem_of_getElem? atEntry⟩
    rw [paths, List.getElem?_map, atEntry]
    rfl

end Listing

namespace RemoteTree

open Listing

variable {tree : RemoteTree} {maxEntries parent : Nat} {name : FileName} {entry : RemoteEntry} {listing : Listing}
  {path other : List FileName} {inode : Nat}

theorem Mirrors.insert (mirrors : Mirrors listing tree) (maxEntries : Nat) (name : FileName) (placed : Placed rootInode tree.base listing.paths path parent)
    (directory : path = [] ∨ (path, .directory) ∈ listing) (entry : RemoteEntry) :
    ∃ next, Mirrors next (tree.insert parent name entry maxEntries).1 ∧
      (tree.insert parent name entry maxEntries).1.base = tree.base ∧
      Puts maxEntries tree.base listing (path ++ [name]) entry.kind next (tree.insert parent name entry maxEntries).2 := by
  have entries := mirrors.entries
  unfold RemoteTree.insert
  split
  · rename_i inode known
    obtain ⟨k, kind, atEntry, rfl, node, atNode, _, isKind, _⟩ := mirrors.listed ((mirrors.indexes.finds placed).mp known)
    rw [atNode]
    dsimp only
    unfold RemoteNode.isDirectory
    rw [isKind]
    split
    · rename_i clash
      refine ⟨listing, mirrors, rfl, .taken (List.mem_of_getElem? atEntry) (clash.imp_left fun other => ?_)⟩
      exact of_decide_eq_false other
    · rename_i both
      obtain ⟨isDirectory, alsoDirectory⟩ := not_or.mp both
      have isDirectory : kind = .directory := of_decide_eq_true (Bool.of_not_eq_false isDirectory)
      have alsoDirectory : entry.kind = .directory := not_not.mp alsoDirectory
      subst isDirectory
      obtain ⟨bound, _⟩ := List.getElem?_eq_some_iff.mp atEntry
      have isOffset : tree.offset (tree.base + k) = some (k + 1) := by
        unfold offset
        rw [if_pos (Nat.le_add_right _ _), Nat.add_sub_cancel_left]
      have within : k + 1 < tree.nodes.length := by
        rw [mirrors.length]
        omega
      unfold describe
      rw [isOffset]
      dsimp only
      rw [if_pos (.inl within)]
      refine ⟨listing, ?_, rfl, .merged atEntry alsoDirectory⟩
      exact mirrors.modify (by exact fun _ => ⟨rfl, rfl, rfl, rfl⟩) _
  · rename_i unknown
    have fresh : path ++ [name] ∉ listing.paths := by
      intro member
      obtain ⟨j, atPath⟩ := List.mem_iff_getElem?.mp member
      have known := (mirrors.indexes.finds placed).mpr (.inr ⟨j, atPath, rfl⟩)
      exact absurd (known.symm.trans unknown) nofun
    split
    · rename_i isFull
      exact ⟨listing, mirrors, rfl, .full fresh (.inl (entries ▸ of_decide_eq_true isFull))⟩
    · rename_i space
      split
      · rename_i beyond
        exact ⟨listing, mirrors, rfl, .full fresh (.inr (entries ▸ beyond))⟩
      · rename_i room
        obtain ⟨grown, base, isInode⟩ := mirrors.push placed directory fresh entry
        rw [isInode]
        refine ⟨_, grown, base, .new fresh ?_ (entries ▸ Nat.lt_of_not_le room)⟩
        have := of_decide_eq_false (Bool.eq_false_iff.mpr space)
        omega

theorem Mirrors.directory (mirrors : Mirrors listing tree) (maxEntries : Nat) (name : FileName) (placed : Placed rootInode tree.base listing.paths path parent)
    (directory : path = [] ∨ (path, .directory) ∈ listing) :
    ∃ next, Mirrors next (tree.directory parent name maxEntries).1 ∧ (tree.directory parent name maxEntries).1.base = tree.base ∧
      Puts maxEntries tree.base listing (path ++ [name]) .directory next (tree.directory parent name maxEntries).2 := by
  unfold RemoteTree.directory
  split
  · rename_i inode known
    obtain ⟨k, kind, atEntry, rfl, node, atNode, _, isKind, _⟩ := mirrors.listed ((mirrors.indexes.finds placed).mp known)
    refine ⟨listing, mirrors, rfl, ?_⟩
    dsimp only
    rw [atNode, Option.any_some]
    unfold RemoteNode.isDirectory
    rw [isKind]
    split
    · rename_i isDirectory
      obtain rfl := of_decide_eq_true isDirectory
      exact .merged atEntry rfl
    · rename_i isFile
      exact .taken (List.mem_of_getElem? atEntry) (.inl fun same => isFile (decide_eq_true same))
  · exact mirrors.insert maxEntries name placed directory .synthesizedDirectory

theorem Mirrors.reach (mirrors : Mirrors listing tree) (maxEntries : Nat) (placed : Placed rootInode tree.base listing.paths path parent)
    (directory : path = [] ∨ (path, .directory) ∈ listing) (rest : List FileName) :
    ∃ next, Mirrors next (tree.reach maxEntries parent rest).1 ∧ (tree.reach maxEntries parent rest).1.base = tree.base ∧
      Reaches maxEntries tree.base listing path rest next (tree.reach maxEntries parent rest).2 ∧
      ∀ inode, (tree.reach maxEntries parent rest).2 = some inode →
        Placed rootInode tree.base next.paths (path ++ rest) inode ∧ (path ++ rest = [] ∨ (path ++ rest, .directory) ∈ next) := by
  induction rest generalizing tree listing path parent with
  | nil =>
    refine ⟨listing, mirrors, rfl, .done parent, fun inode same => ?_⟩
    cases same
    rw [List.append_nil]
    exact ⟨placed, directory⟩
  | cons name rest ih =>
    obtain ⟨more, grown, base, puts⟩ := mirrors.directory maxEntries name placed directory
    unfold RemoteTree.reach
    split
    · rename_i after made
      rw [made] at grown base puts
      exact ⟨more, grown, base, .blocked puts, nofun⟩
    · rename_i after inode made
      rw [made] at grown base puts
      dsimp only at grown base puts
      obtain ⟨isPlaced, isDirectory⟩ := puts.directory
      rw [← base] at isPlaced
      obtain ⟨next, final, finalBase, reaches, found⟩ := ih grown isPlaced (.inr isDirectory)
      rw [base] at finalBase reaches found
      refine ⟨next, final, finalBase, .next puts reaches, fun last same => ?_⟩
      have := found last same
      rw [List.append_assoc] at this
      exact this

theorem Mirrors.add (mirrors : Mirrors listing tree) (maxEntries index : Nat) (file : FileDescriptor) :
    ∃ next, Mirrors next (tree.add maxEntries index file) ∧ (tree.add maxEntries index file).base = tree.base ∧
      Adds maxEntries tree.base index file listing next := by
  unfold RemoteTree.add
  split
  · rename_i unusable
    exact ⟨listing, mirrors, rfl, .unusable unusable⟩
  · rename_i components isPath
    obtain ⟨more, grown, base, reaches, found⟩ := mirrors.reach maxEntries (.inl ⟨rfl, rfl⟩) (.inl rfl) components.dropLast
    rw [List.nil_append] at found
    split
    · rename_i after parent leaf reached isLeaf
      have split_path : components = components.dropLast ++ [leaf] := (List.dropLast_append_getLast? leaf isLeaf).symm
      rw [reached] at grown base reaches found
      dsimp only at grown base reaches found ⊢
      obtain ⟨placed, directory⟩ := found parent rfl
      rw [← base] at placed
      obtain ⟨next, final, finalBase, puts⟩ := grown.insert maxEntries leaf placed directory
        ⟨if file.isDirectory then .directory else .file index, file.size, file.lastWriteTime.map systemTime, file.isReadOnly⟩
      rw [base] at finalBase puts
      exact ⟨next, final, finalBase, .put (split_path ▸ isPath) reaches puts⟩
    · rename_i after result reached stopped
      rw [reached] at grown base reaches
      dsimp only at grown base reaches
      obtain ⟨leaf, isLeaf⟩ : ∃ leaf, components.getLast? = some leaf :=
        ⟨_, List.getLast?_eq_some_getLast (FileDescriptor.pathComponents_plain isPath).1⟩
      have split_path : components = components.dropLast ++ [leaf] := (List.dropLast_append_getLast? leaf isLeaf).symm
      cases result with
      | none => exact ⟨more, grown, base, .unreached (split_path ▸ isPath) reaches⟩
      | some parent => exact (stopped parent leaf isLeaf rfl).elim

end RemoteTree

end HyprRdp
