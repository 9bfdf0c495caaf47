import HyprRdp.Clipboard.CopiedTrees
import HyprRdp.Clipboard.LinkCounts
import HyprRdp.Clipboard.Reads

namespace HyprRdp

open RemoteTree Listing

/-- What the transfer builds of a list is well formed, whatever inodes are left. -/
theorem RemoteTree.build_served (builtAt : Int) (files : List FileDescriptor) (maxEntries : Nat) {base : Nat}
    (given : firstInode ≤ base) : (build builtAt files maxEntries base).base = base ∧ WellFormed files maxEntries (build builtAt files maxEntries base) := by
  obtain ⟨done, listing, _, within, settled, mirrors, sameBase, _⟩ :=
    (rooted_mirrors builtAt given).addAll (@settled_nil maxEntries base) files
  rw [List.nil_append] at within
  exact ⟨sameBase, mirrors.wellFormed (sameBase.symm ▸ settled) within⟩

theorem RemoteTree.nextBase_unsized (tree : RemoteTree) : tree.unsized.nextBase = tree.nextBase := by
  unfold nextBase entries unsized
  rw [List.length_map]

namespace Transfer

open TransferState

variable {Fetch : Type} {s t : Transfer Fetch} {maxEntries : Nat}

/-- The tree of an accepted list, but for the sizes. -/
def Grows (accepted : List AcceptedList) (generation : Nat) (selection : Selection) : Prop :=
  ∃ list ∈ accepted, list.generation = generation ∧ selection.tree.unsized = list.selection.tree.unsized

/-- Every selection that is served has the tree of its list. -/
structure Planted (maxEntries : Nat) (s : Transfer Fetch) : Prop where
  current : (s.state.current.tree.roots = [] ∧ ∀ list ∈ s.accepted, list.generation < s.state.generation) ∨
    Grows s.accepted s.state.generation s.state.current
  retiring : ∀ entry ∈ s.state.retiring, Grows s.accepted entry.1 entry.2
  generations : ∀ list ∈ s.accepted, list.generation ≤ s.state.generation
  ordered : s.accepted.Pairwise fun earlier later => earlier.generation < later.generation
  given : firstInode ≤ s.state.top
  built : ∀ list ∈ s.accepted, ∃ builtAt base, firstInode ≤ base ∧ list.selection.tree = build builtAt list.files maxEntries base

theorem Planted.congr (planted : s.Planted maxEntries) (current : t.state.current = s.state.current)
    (generation : t.state.generation = s.state.generation) (retiring : t.state.retiring = s.state.retiring)
    (nextBase : t.state.nextBase = s.state.nextBase) (accepted : t.accepted = s.accepted) : t.Planted maxEntries := by
  obtain ⟨isCurrent, isRetiring, generations, ordered, given, built⟩ := planted
  unfold TransferState.top at given
  rw [← current, ← accepted, ← generation] at isCurrent
  rw [← current, ← nextBase] at given
  rw [← accepted, ← generation] at generations
  exact ⟨isCurrent, retiring.symm ▸ accepted.symm ▸ isRetiring, generations, accepted.symm ▸ ordered, given,
    accepted.symm ▸ built⟩

theorem Planted.keeps (planted : s.Planted maxEntries) (keeps : Keeps s t) : t.Planted maxEntries :=
  planted.congr keeps.current keeps.generation keeps.retiring keeps.nextBase keeps.accepted

theorem Planted.retired (planted : s.Planted maxEntries) {retiring : List (Nat × Selection)}
    (from_old : ∀ entry ∈ retiring, entry ∈ s.state.retiring ∨
      (entry = (s.state.generation, s.state.current) ∧ s.state.current.tree.roots ≠ [])) :
    ∀ entry ∈ retiring, Grows s.accepted entry.1 entry.2 := by
  intro entry member
  rcases from_old entry member with old | ⟨rfl, rooted⟩
  · exact planted.retiring entry old
  · exact planted.current.resolve_left fun none => rooted none.1

theorem Planted.shifts (planted : s.Planted maxEntries) {state : TransferState Fetch} (shifts : Shifts s.state state)
    (moves : Moves s.state state) : Planted maxEntries { s with state } := by
  have generations := planted.generations
  refine ⟨?_, planted.retired shifts.retiring, fun list member => (generations list member).trans shifts.generation,
    planted.ordered, ?_, planted.built⟩
  · by_cases stays : state.generation = s.state.generation
    · have current := moves.current stays
      dsimp only
      rw [stays, current]
      exact planted.current
    · rcases shifts.current with ⟨same, _⟩ | ⟨none, _⟩
      · exact absurd same stays
      · refine .inl ⟨none ▸ rfl, fun list member => ?_⟩
        exact (generations list member).trans_lt (shifts.generation.lt_of_ne (Ne.symm stays))
  · have given := planted.given
    unfold TransferState.top at given ⊢
    dsimp only
    rcases shifts.current with ⟨_, current, nextBase⟩ | ⟨_, nextBase⟩
    · rw [current, nextBase]
      exact given
    · rw [nextBase]
      exact given.trans (Nat.le_max_left _ _)

theorem Planted.accepts (planted : s.Planted maxEntries) {state : TransferState Fetch} {files : List FileDescriptor}
    (accepts : Accepts s.state state maxEntries files) :
    Planted maxEntries { s with state, accepted := s.accepted ++ [⟨state.generation, files, state.current⟩] } := by
  obtain ⟨builtAt, isTree⟩ := accepts.tree
  have next := accepts.generation
  have longer : ∀ {generation selection}, Grows s.accepted generation selection →
      Grows (s.accepted ++ [⟨state.generation, files, state.current⟩]) generation selection :=
    fun ⟨list, member, rest⟩ => ⟨list, List.mem_append_left _ member, rest⟩
  refine ⟨.inr ⟨_, List.mem_append_right _ List.mem_cons_self, rfl, rfl⟩,
    fun entry member => longer (planted.retired accepts.retiring entry member), fun list member => ?_, ?_, ?_, fun list member => ?_⟩
  · rcases List.mem_append.mp member with old | new
    · have := planted.generations list old
      dsimp only
      omega
    · rw [List.mem_singleton.mp new]
  · refine List.pairwise_append.mpr ⟨planted.ordered, List.pairwise_singleton _ _, fun old isOld new isNew => ?_⟩
    rw [List.mem_singleton.mp isNew]
    have := planted.generations old isOld
    dsimp only
    omega
  · have base := (build_served builtAt files maxEntries planted.given).1
    have given := planted.given
    unfold TransferState.top RemoteTree.nextBase
    dsimp only
    rw [isTree, base]
    unfold firstInode rootInode at *
    omega
  · rcases List.mem_append.mp member with old | new
    · exact planted.built list old
    · rw [List.mem_singleton.mp new]
      exact ⟨builtAt, s.state.top, planted.given, isTree⟩

/-- A size comes in for a selection that is served. -/
theorem Planted.setSize (planted : s.Planted maxEntries) (generation inode size : Nat) {sizes : List (Nat × Nat × Nat)} :
    Planted maxEntries { s with state := (s.state.setSize generation inode size).1, sizes } := by
  cases serves : s.state.selection generation with
  | none =>
    unfold TransferState.setSize
    rw [serves]
    exact planted.congr rfl rfl rfl rfl rfl
  | some selection =>
    rw [setSize_eq serves]
    have alike := setSize_unsized selection.tree inode size
    have isSelection := serves
    unfold TransferState.selection at isSelection
    obtain ⟨_, isSelection⟩ := Option.ite_none_right_eq_some.mp isSelection
    unfold TransferState.setSelection
    split
    · rename_i isCurrent
      rw [if_pos isCurrent] at isSelection
      obtain rfl := Option.some.inj isSelection
      refine ⟨?_, planted.retiring, planted.generations, planted.ordered, ?_, planted.built⟩
      · refine planted.current.imp (fun ⟨rootless, fresh⟩ => ⟨?_, fresh⟩) fun ⟨list, member, same, tree⟩ =>
          ⟨list, member, same, ?_⟩
        · dsimp only
          rw [setSize_roots]
          exact rootless
        · exact alike.trans tree
      · have given := planted.given
        unfold TransferState.top at given ⊢
        dsimp only
        rw [← nextBase_unsized, alike, nextBase_unsized]
        exact given
    · rename_i other
      rw [if_neg other] at isSelection
      refine ⟨planted.current, fun entry member => ?_, planted.generations, planted.ordered, planted.given, planted.built⟩
      obtain ⟨before, isRetired, same⟩ := List.mem_map.mp member
      split at same
      · obtain ⟨list, isList, isGeneration, tree⟩ := planted.retiring _ (List.mem_of_lookup isSelection)
        rename_i found
        rw [← same]
        exact ⟨list, isList, isGeneration.trans found.symm, alike.trans tree⟩
      · exact same ▸ planted.retiring before isRetired

theorem Planted.onResponse (planted : s.Planted maxEntries) (api : ChunkedFetchApi Fetch) (response : FileContentsResponse) :
    (s.onResponse api response).Planted maxEntries := by
  unfold Transfer.onResponse
  split
  · exact planted
  · have removed : Planted maxEntries { s with state := s.state.removePending response.streamId } :=
      planted.congr rfl rfl rfl rfl rfl
    dsimp only
    split
    · exact removed
    · split
      · unfold Transfer.onSize
        split
        · exact removed.keeps (keeps_answer _ _ _)
        · split
          · exact (removed.setSize _ _ _).keeps (keeps_answer _ _ _)
          · exact removed.keeps (keeps_answer _ _ _)
      · exact removed.keeps (keeps_onRange _ _ _ _ _ _)

theorem Planted.receive (planted : s.Planted maxEntries) {i : Nat} {call : TransferCall} (step : s.receive i call = some t) :
    t.Planted maxEntries := by
  unfold Transfer.receive at step
  split at step
  · cases step
    exact planted.keeps (keeps_setCall _ _ _)
  · cases step
    exact planted.keeps (keeps_setCall _ _ _)
  · cases step
    exact planted.keeps (keeps_setCall _ _ _)
  · split at step
    · cases step
      exact planted.keeps (keeps_setCall _ _ _)
    · cases step
  · cases step

theorem Planted.next {api : ChunkedFetchApi Fetch} {maxChunk : Nat} {action : Action} (planted : s.Planted maxEntries)
    (kept : s.Kept) (countable : s.Countable action) (step : s.next api maxEntries maxChunk action = some t) :
    t.Planted maxEntries := by
  have sound := kept.sound
  cases action with
  | tick clock =>
    cases step
    exact planted.congr rfl rfl rfl rfl rfl
  | capabilities stream huge locking =>
    cases step
    exact planted.shifts (s.state.capabilities_shifts stream huge locking) (capabilities_moves sound countable stream huge locking).1
  | retireGeneration =>
    cases step
    exact planted.shifts s.state.retireCurrent_shifts.1 (retireGeneration_moves sound countable).1
  | releaseLocks dataIds =>
    cases step
    exact planted.shifts (s.state.releaseLocks_shifts dataIds) (releaseLocks_moves sound countable dataIds).1
  | close =>
    cases step
    exact planted.shifts s.state.close_shifts (close_moves sound countable).1
  | acceptFor expected files dataId =>
    have outcome := s.state.acceptFor_accepts maxEntries expected files dataId
    have moves := (acceptFor_moves sound countable maxEntries expected files dataId).1
    dsimp only [Transfer.next] at step
    split at step
    · rename_i state refused
      rw [refused] at outcome moves
      cases step
      exact planted.shifts outcome moves
    · rename_i state generation rest accepted
      rw [accepted] at outcome
      cases step
      obtain ⟨isNext, accepts⟩ := outcome
      rw [isNext, ← accepts.generation]
      exact planted.accepts accepts
  | size generation inode =>
    cases step
    exact planted.congr rfl rfl rfl rfl rfl
  | read generation inode position size =>
    cases step
    exact planted.congr rfl rfl rfl rfl rfl
  | submitSize i =>
    obtain ⟨call, _, step⟩ := Option.bind_eq_some_iff.mp step
    obtain ⟨_, same⟩ := Option.ite_none_right_eq_some.mp step
    cases same
    exact planted.keeps (keeps_submitSize _ _ _)
  | submitRange i =>
    obtain ⟨call, _, step⟩ := Option.bind_eq_some_iff.mp step
    split at step
    · cases step
      exact planted.keeps (keeps_submitRange _ _ _ _ _ _ _)
    · cases step
  | receive i =>
    obtain ⟨call, _, step⟩ := Option.bind_eq_some_iff.mp step
    exact planted.receive step
  | abandon i =>
    obtain ⟨call, _, step⟩ := Option.bind_eq_some_iff.mp step
    split at step
    · cases step
    · cases step
      exact planted.keeps (keeps_setCall _ _ _)
  | onResponse response =>
    cases step
    exact planted.onResponse api response
  | timeout id =>
    cases step
    exact planted.congr rfl rfl rfl rfl rfl
  | disconnect =>
    cases step
    exact planted.congr rfl rfl rfl rfl rfl

theorem new_planted (maxEntries : Nat) (clock : Int) : (Transfer.new clock : Transfer Fetch).Planted maxEntries where
  current := .inl ⟨rfl, nofun⟩
  retiring := nofun
  generations := nofun
  ordered := .nil
  given := Nat.le_refl _
  built := nofun

theorem reach_planted {api : ChunkedFetchApi Fetch} (documented : api.Documented) {maxChunk : Nat} {clock : Int}
    (reach : ((runs api maxEntries maxChunk clock).guarded Countable).Reach s) : s.Planted maxEntries := by
  have kept : ((runs api maxEntries maxChunk clock).guarded Countable).Inductive Transfer.Kept :=
    ⟨fun s first => first ▸ new_kept clock, fun s action t kept step =>
      (kept.next documented step.1 step.2).elim Stays.kept And.left⟩
  have both := kept.and (fun s first => first ▸ new_planted maxEntries clock) fun s action t kept planted step =>
    planted.next kept step.1 step.2
  exact (both.reach reach).2

/-- The selection that is served under the generation of an accepted list has its tree. -/
theorem Planted.serves (planted : s.Planted maxEntries) {list : AcceptedList} (member : list ∈ s.accepted)
    (served : s.state.servable list.generation = true) : RemoteFilesystem.Serves s.state list.generation list.selection.tree := by
  have grows : ∃ selection, s.state.selection list.generation = some selection ∧ Grows s.accepted list.generation selection := by
    obtain ⟨opened, stream, kind⟩ := servable_iff.mp served
    unfold TransferState.selection
    rw [if_pos ⟨opened, stream⟩]
    by_cases current : s.state.generation = list.generation
    · rw [if_pos current]
      exact ⟨_, rfl, current ▸ planted.current.resolve_left fun ⟨_, fresh⟩ => (fresh list member).ne' current⟩
    · rw [if_neg current]
      obtain ⟨selection, isRetired⟩ := Option.isSome_iff_exists.mp (retired_isSome.mpr (kind.resolve_left current))
      exact ⟨selection, isRetired, planted.retiring _ (List.mem_of_lookup isRetired)⟩
  obtain ⟨selection, isSelection, other, isOther, same, alike⟩ := grows
  have distinct : s.accepted.Pairwise fun one other => one.generation ≠ other.generation :=
    planted.ordered.imp fun order => order.ne
  rw [List.eq_of_key_eq distinct isOther member same] at alike
  exact ⟨selection, isSelection, alike⟩

/-- A moment of a run at which the selection of an accepted list is served. -/
def Offers (api : ChunkedFetchApi Fetch) (maxEntries maxChunk : Nat) (clock : Int) (list : AcceptedList) (state : TransferState Fetch) :
    Prop :=
  ∃ s, ((runs api maxEntries maxChunk clock).guarded Countable).Reach s ∧ s.state = state ∧ list ∈ s.accepted ∧
    state.servable list.generation = true

theorem Offers.serves {api : ChunkedFetchApi Fetch} (documented : api.Documented) {maxChunk : Nat} {clock : Int} {list : AcceptedList}
    {state : TransferState Fetch} (offers : Offers api maxEntries maxChunk clock list state) :
    RemoteFilesystem.Serves state list.generation list.selection.tree ∧ ∃ builtAt base, firstInode ≤ base ∧
      list.selection.tree = build builtAt list.files maxEntries base := by
  obtain ⟨s, reach, rfl, member, served⟩ := offers
  have planted := reach_planted documented reach
  exact ⟨planted.serves member served, planted.built list member⟩

/-- A copy out of the mount finds the entries of the accepted list's tree whose sizes, with those of the directories
above them, were answered, each path once and under its inode, however the listings are cut and whatever else happens
to the transfer, as long as the selection is served. A file is the descriptor that names its path. -/
theorem mount_copied_whole {api : ChunkedFetchApi Fetch} (documented : api.Documented) {maxEntries maxChunk : Nat} {clock : Int}
    {list : AcceptedList} {fs : RemoteFilesystem} {entrySize : FileName → Nat} {visits : List FileName → RemoteFilesystem.Visit Fetch}
    (same : fs.generation = list.generation)
    (attended : RemoteFilesystem.Attended (Offers api maxEntries maxChunk clock list) entrySize list.selection.tree visits) :
    ∃ copied, fs.copyOut entrySize visits (maxDirectoryDepth + 2) rootInode [] = some copied ∧
      RemoteFilesystem.Copies fs list.selection.tree visits (· ≠ []) copied ∧
      ∀ entry ∈ copied, entry.2.kind = .regularFile → ∃ index file, list.files[index]? = some file ∧
        file.pathComponents = some entry.1 ∧ file.isDirectory = false ∧
          ∃ node, list.selection.tree.node entry.2.ino = some node ∧ node.kind = .file index := by
  have offered := attended.sized [] []
  obtain ⟨_, builtAt, base, given, isTree⟩ := offered.serves documented
  have wellFormed : WellFormed list.files maxEntries list.selection.tree := isTree ▸ (build_served builtAt list.files maxEntries given).2
  obtain ⟨root, atRoot, _, directory⟩ := (build_topped builtAt list.files maxEntries base).root
  rw [← isTree] at atRoot
  have serving := attended.mono fun state offers => same ▸ (offers.serves documented).1
  obtain ⟨copied, whole, copies⟩ := serving.copies wellFormed (maxDirectoryDepth + 2) .root .root atRoot directory le_rfl
  refine ⟨copied, whole, ⟨copies.once, fun entry member => ?_, fun below inode part => ?_⟩, fun entry member plain => ?_⟩
  · obtain ⟨part, rest⟩ := copies.real entry member
    exact ⟨part.2, rest⟩
  · exact copies.all below inode ⟨List.nil_prefix, part⟩
  · obtain ⟨_, _, spells, node, found, attributes⟩ := copies.real entry member
    cases kind : node.kind with
    | directory =>
      have isDirectory : fileType node = .directory := if_pos (decide_eq_true kind)
      exact absurd (isDirectory.symm.trans (attributes.kind.symm.trans plain)) FileType.noConfusion
    | file index =>
      obtain ⟨path, file, isPath, atFile, components, isFile, _⟩ := wellFormed.files _ node index found kind
      obtain ⟨only, _, _, unique⟩ := wellFormed.paths _ (Option.isSome_iff_exists.mpr ⟨node, found⟩)
      rw [unique path isPath, ← unique entry.1 spells] at components
      exact ⟨index, file, atFile, components, isFile, node, found, kind⟩

section Once

def nestedFile : FileDescriptor := ⟨['c'], some ['a'], none, some 4, none⟩

def nestedTree : RemoteTree :=
  ⟨firstInode, [⟨[], rootInode, some 0, 0, .directory, true, [2]⟩, ⟨['a'], rootInode, some 0, 0, .directory, false, [3]⟩,
    ⟨['c'], 2, some 4, 0, .file 0, false, []⟩], [((rootInode, ['a']), 2), ((2, ['c']), 3)], 0⟩

theorem nestedTree_few (inode : Nat) : (nestedTree.children inode).length ≤ 1 := by
  unfold RemoteTree.children
  cases found : nestedTree.node inode with
  | none => exact Nat.zero_le _
  | some node =>
    have each : ∀ node ∈ nestedTree.nodes, node.children.length ≤ 1 := by decide
    exact each node (mem_of_node found)

/-- A moment at which the tree is served. -/
theorem nestedTree_offered : ∃ (list : AcceptedList) (state : TransferState BufferedFetch), Offers BufferedFetch.api 10 3 0 list state ∧ list.generation = 2 ∧
    list.selection.tree = nestedTree := by
  let choices : List Action := [.capabilities true true true, .acceptFor 1 [nestedFile] (some 7)]
  have run : ((StepSystem.exec
        (fun s action => if Countable s action then next BufferedFetch.api 10 3 s action else none) (.new 0) choices).bind
      fun s => s.accepted[0]?.map fun list : AcceptedList => (list.generation, list.selection.tree, s.state.servable 2)) =
        some (2, nestedTree, true) := by
    decide
  obtain ⟨s, run, rest⟩ := Option.bind_eq_some_iff.mp run
  obtain ⟨list, atList, facts⟩ := Option.map_eq_some_iff.mp rest
  obtain ⟨generation, facts⟩ := Prod.mk.inj facts
  obtain ⟨isTree, served⟩ := Prod.mk.inj facts
  have reach := StepSystem.guarded_exec_reach choices (.start rfl) run
  exact ⟨list, s.state, ⟨s, reach, rfl, List.mem_of_getElem? atList, generation ▸ served⟩, generation, isTree⟩

/-- Every listing in four calls, each with room for a single row. -/
theorem mount_copied_whole_once : ∃ (state : TransferState BufferedFetch) (copied : List (List FileName × FileAttr)),
    (⟨2, 1000, 100⟩ : RemoteFilesystem).copyOut (fun _ => 32) (fun _ => ⟨List.replicate 4 (state, 32), fun _ => state, fun _ => state,
      fun _ => true, fun _ => state⟩) (maxDirectoryDepth + 2) rootInode [] = some copied ∧
      (copied.map Prod.fst).Nodup ∧ ∃ entry ∈ copied, entry.1 = [['a'], ['c']] ∧ entry.2.ino = 3 := by
  obtain ⟨list, state, offers, generation, isTree⟩ := nestedTree_offered
  have attended : RemoteFilesystem.Attended (Offers BufferedFetch.api 10 3 0 list) (fun _ => 32) list.selection.tree
      fun _ => ⟨List.replicate 4 (state, 32), fun _ => state, fun _ => state, fun _ => true, fun _ => state⟩ := by
    refine ⟨fun _ call member => ?_, fun _ call member => ?_, fun inode _ _ => ?_, fun _ _ => offers, fun _ _ => offers,
      fun _ _ => offers⟩
    · rw [List.eq_of_mem_replicate member]
      exact offers
    · rw [List.eq_of_mem_replicate member]
      exact ⟨le_rfl, le_rfl, fun _ _ => le_rfl⟩
    · rw [isTree, List.length_replicate]
      have few := nestedTree_few inode
      omega
  obtain ⟨copied, whole, copies, _⟩ := @mount_copied_whole _ _ BufferedFetch.api_documented _ _ _ _ ⟨2, 1000, 100⟩ _ _
    generation.symm attended
  have spells : list.selection.tree.Spells 3 [['a'], ['c']] := by
    rw [isTree]
    have above : nestedTree.Spells 2 [['a']] :=
      @Spells.child _ _ ⟨['a'], rootInode, some 0, 0, .directory, false, [3]⟩ _ (by decide) rfl .root
    exact @Spells.child _ _ ⟨['c'], 2, some 4, 0, .file 0, false, []⟩ _ (by decide) rfl above
  obtain ⟨entry, member, found⟩ := copies.all _ 3 (List.cons_ne_nil _ _) (fun _ _ _ => rfl) spells
  exact ⟨state, copied, whole, copies.once, entry, member, found⟩

end Once

/-- The link count in the attributes of an entry is how often its inode stands in the listings of the directories. -/
theorem links_match_listings {api : ChunkedFetchApi Fetch} (documented : api.Documented) {maxEntries maxChunk : Nat} {clock : Int}
    {list : AcceptedList} {state : TransferState Fetch} {fs : RemoteFilesystem} (same : fs.generation = list.generation)
    (offers : Offers api maxEntries maxChunk clock list state) :
    (∀ inode, RemoteFilesystem.listing list.selection.tree inode =
      (state.withTree fs.generation fun tree => RemoteFilesystem.listing tree inode).getD (.error .enoent)) ∧
    ∀ sized inode attr, fs.getattr state sized inode = .ok attr →
      attr.nlink = min (list.selection.tree.references.count inode) u32Max := by
  obtain ⟨serves, builtAt, base, given, isTree⟩ := offers.serves documented
  rw [← same] at serves
  have sameBase : list.selection.tree.base = base := isTree ▸ (build_served builtAt list.files maxEntries given).1
  have wellFormed : WellFormed list.files maxEntries list.selection.tree := isTree ▸ (build_served builtAt list.files maxEntries given).2
  have topped : list.selection.tree.Topped := isTree ▸ build_topped builtAt list.files maxEntries base
  refine ⟨fun inode => by rw [serves.listing, Option.getD_some], fun sized inode attr answer => ?_⟩
  obtain ⟨node, found, isInode, attributes⟩ := serves.getattr_found answer
  have given : rootInode < list.selection.tree.base := sameBase ▸ given
  rw [attributes.nlink, isInode]
  exact linkCount_references wellFormed topped given found

/-- The directory that holds the file: in the root, and in its own listing. -/
theorem links_match_listings_once : ∃ (state : TransferState BufferedFetch) (attr : FileAttr),
    (⟨2, 1000, 100⟩ : RemoteFilesystem).getattr state true 2 = .ok attr ∧ attr.nlink = min 2 u32Max := by
  obtain ⟨list, state, offers, generation, isTree⟩ := nestedTree_offered
  obtain ⟨_, links⟩ := @links_match_listings _ _ BufferedFetch.api_documented _ _ _ _ _ ⟨2, 1000, 100⟩ generation.symm offers
  have serves := (offers.serves BufferedFetch.api_documented).1
  rw [generation] at serves
  have found : list.selection.tree.node 2 = some ⟨['a'], rootInode, some 0, 0, .directory, false, [3]⟩ := by
    rw [isTree]
    rfl
  obtain ⟨attr, answer, _⟩ := @RemoteFilesystem.Serves.getattr _ ⟨2, 1000, 100⟩ _ _ _ serves _ found
  refine ⟨state, attr, answer, (links true 2 attr answer).trans ?_⟩
  rw [isTree]
  decide

end Transfer

end HyprRdp
