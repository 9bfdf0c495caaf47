import HyprRdp.Clipboard.TransferInvariant

namespace HyprRdp

namespace TransferState

variable {Fetch : Type} {s t u : TransferState Fetch}

/-- The next inode that can be handed out. -/
def top (s : TransferState Fetch) : Nat := max s.nextBase s.current.tree.nextBase

/-- What the operations on the selections do to them, whatever the generations can count. -/
structure Shifts (s t : TransferState Fetch) : Prop where
  generation : s.generation ≤ t.generation
  current : (t.generation = s.generation ∧ t.current = s.current ∧ t.nextBase = s.nextBase) ∨
    (t.current = .none s.clock ∧ t.nextBase = s.top)
  retiring : ∀ entry ∈ t.retiring, entry ∈ s.retiring ∨ (entry = (s.generation, s.current) ∧ s.current.tree.roots ≠ [])
  pending : t.pending.Sublist s.pending
  nextStream : t.nextStream = s.nextStream

theorem Shifts.refl (s : TransferState Fetch) : Shifts s s :=
  ⟨le_rfl, .inl ⟨rfl, rfl, rfl⟩, fun _ => .inl, List.Sublist.refl _, rfl⟩

theorem bump_generation (s : TransferState Fetch) : s.generation ≤ s.bump.generation ∧ s.bump.current = s.current ∧
    s.bump.nextBase = s.nextBase ∧ s.bump.retiring = s.retiring ∧ s.bump.pending = s.pending ∧
      s.bump.nextStream = s.nextStream ∧ (s.bump.closed = false → s.bump.generation = s.generation + 1) := by
  unfold bump
  split
  · exact ⟨Nat.le_succ _, rfl, rfl, rfl, rfl, rfl, fun _ => rfl⟩
  · exact ⟨le_rfl, rfl, rfl, rfl, rfl, rfl, nofun⟩

theorem mem_insertRetiring {generation : Nat} {selection : Selection} {retiring : List (Nat × Selection)}
    {entry : Nat × Selection} (member : entry ∈ insertRetiring generation selection retiring) :
    entry ∈ retiring ∨ entry = (generation, selection) := by
  induction retiring with
  | nil => exact .inr (List.mem_singleton.mp member)
  | cons oldest rest ih =>
    unfold insertRetiring at member
    split at member
    · exact (List.mem_cons.mp member).symm
    · split at member
      · exact (List.mem_cons.mp member).symm.imp_left (List.mem_cons_of_mem _)
      · rcases List.mem_cons.mp member with first | later
        · exact .inl (first ▸ List.mem_cons_self)
        · exact (ih later).imp_left (List.mem_cons_of_mem _)

/-- The current selection is taken, and the generations go on. -/
theorem Shifts.bump (current : t.current = .none s.clock) (nextBase : t.nextBase = s.top) (generation : t.generation = s.generation)
    (retiring : ∀ entry ∈ t.retiring, entry ∈ s.retiring ∨ (entry = (s.generation, s.current) ∧ s.current.tree.roots ≠ []))
    (pending : t.pending.Sublist s.pending) (nextStream : t.nextStream = s.nextStream) : Shifts s t.bump := by
  obtain ⟨advance, sameCurrent, sameBase, sameRetiring, samePending, sameStream, _⟩ := bump_generation t
  exact ⟨generation ▸ advance, .inr ⟨sameCurrent.trans current, sameBase.trans nextBase⟩, sameRetiring ▸ retiring,
    samePending ▸ pending, sameStream.trans nextStream⟩

theorem retireCurrent_shifts (s : TransferState Fetch) : Shifts s s.retireCurrent.1 ∧
    (s.retireCurrent.1.closed = false → s.retireCurrent.1.generation = s.generation + 1) ∧
      s.retireCurrent.1.current = .none s.clock ∧ s.retireCurrent.1.nextBase = s.top := by
  unfold retireCurrent
  dsimp only
  split
  · obtain ⟨_, current, base, _, _, _, counted⟩ := bump_generation (s.takeCurrent.failPending s.generation)
    exact ⟨.bump rfl rfl rfl (fun _ => .inl) List.filter_sublist rfl, counted, current, base⟩
  · rename_i served
    obtain ⟨rooted, _⟩ := not_or.mp served
    obtain ⟨retiring, _, pending, _⟩ := evict_spec (insertRetiring s.generation s.current s.takeCurrent.retiring) s.takeCurrent.pending
    generalize evict (insertRetiring s.generation s.current s.takeCurrent.retiring) s.takeCurrent.pending = evicted at *
    dsimp only
    obtain ⟨_, current, base, _, _, _, counted⟩ :=
      bump_generation { s.takeCurrent with retiring := evicted.1, pending := evicted.2.1 }
    refine ⟨.bump rfl rfl rfl (fun entry member => ?_) pending rfl, counted, current, base⟩
    refine (mem_insertRetiring (retiring.subset member)).imp_right fun new => ⟨new, fun none => rooted ?_⟩
    rw [none]
    rfl

theorem shutdown_shifts (s : TransferState Fetch) : Shifts s s.shutdown.1 :=
  .bump rfl rfl rfl nofun (List.nil_sublist _) rfl

theorem capabilities_shifts (s : TransferState Fetch) (stream huge locking : Bool) :
    Shifts s (s.capabilities stream huge locking).1 := by
  unfold capabilities
  by_cases changed : s.stream ≠ stream ∨ s.huge ≠ huge ∨ s.locking ≠ locking
  · rw [if_pos changed]
    have shifts := s.shutdown_shifts
    exact ⟨shifts.generation, shifts.current, shifts.retiring, shifts.pending, shifts.nextStream⟩
  · rw [if_neg changed]
    exact ⟨le_rfl, .inl ⟨rfl, rfl, rfl⟩, fun _ => .inl, List.Sublist.refl _, rfl⟩

theorem close_shifts (s : TransferState Fetch) : Shifts s s.close.1 := by
  have shifts := s.shutdown_shifts
  exact ⟨shifts.generation, shifts.current, shifts.retiring, shifts.pending, shifts.nextStream⟩

theorem releaseLocks_shifts (s : TransferState Fetch) (dataIds : List Nat) : Shifts s (s.releaseLocks dataIds).1 := by
  unfold releaseLocks
  dsimp only
  generalize (s.retiring.filter fun entry => covered dataIds entry.2).map (·.1) = retired
  by_cases live : covered dataIds s.current = true
  · rw [if_pos live]
    dsimp only
    rw [foldl_release]
    have shifts : Shifts s (s.takeCurrent.failPending s.generation).bump :=
      .bump rfl rfl rfl (fun _ => .inl) List.filter_sublist rfl
    refine ⟨shifts.generation, shifts.current, fun entry member => ?_, List.filter_sublist.trans shifts.pending, shifts.nextStream⟩
    exact shifts.retiring entry (List.mem_of_mem_filter member)
  · rw [if_neg live]
    dsimp only
    rw [foldl_release]
    exact ⟨le_rfl, .inl ⟨rfl, rfl, rfl⟩, fun _ member => .inl (List.mem_of_mem_filter member), List.filter_sublist, rfl⟩

/-- What accepting a list leaves: the old live selection is retired, and the list
is live under the next generation, from the next inode on. -/
structure Accepts (s t : TransferState Fetch) (maxEntries : Nat) (files : List FileDescriptor) : Prop where
  generation : t.generation = s.generation + 1
  tree : ∃ clock, t.current.tree = RemoteTree.build clock files maxEntries s.top
  nextBase : t.nextBase = t.current.tree.nextBase
  retiring : ∀ entry ∈ t.retiring, entry ∈ s.retiring ∨ (entry = (s.generation, s.current) ∧ s.current.tree.roots ≠ [])
  pending : t.pending.Sublist s.pending
  nextStream : t.nextStream = s.nextStream

theorem acceptFor_accepts (s : TransferState Fetch) (maxEntries expected : Nat) (files : List FileDescriptor)
    (dataId : Option Nat) :
    match (s.acceptFor maxEntries expected files dataId).2 with
    | none => Shifts s (s.acceptFor maxEntries expected files dataId).1
    | some (generation, _) => generation = s.generation + 1 ∧
        Accepts s (s.acceptFor maxEntries expected files dataId).1 maxEntries files := by
  obtain ⟨shifts, counted, _, nextBase⟩ := s.retireCurrent_shifts
  unfold acceptFor
  by_cases dead : s.live expected = false
  · rw [if_pos dead]
    exact .refl s
  · rw [if_neg dead]
    dsimp only
    by_cases shut : s.retireCurrent.1.live s.retireCurrent.1.generation = false
    · rw [if_pos shut]
      exact shifts
    · rw [if_neg shut]
      have opened : s.retireCurrent.1.closed = false := by
        unfold live at shut
        simp only [Bool.not_eq_false, Bool.and_eq_true, Bool.not_eq_true'] at shut
        exact shut.1.1
      have generation := counted opened
      exact ⟨generation, generation, ⟨_, by rw [nextBase]⟩, rfl, shifts.retiring, shifts.pending, shifts.nextStream⟩

end TransferState

namespace Transfer

open TransferState

variable {Fetch : Type} {s t : Transfer Fetch}

/-- What is left of an accepted list in a selection that is served: all but the sizes,
which may have been reported since for the files that came without one. -/
structure Described (accepted : List AcceptedList) (sizes : List (Nat × Nat × Nat)) (generation : Nat) (selection : Selection)
    (list : AcceptedList) : Prop where
  isAccepted : list ∈ accepted
  generation : list.generation = generation
  dataId : selection.dataId = list.selection.dataId
  base : selection.tree.base = list.selection.tree.base
  length : selection.tree.nodes.length = list.selection.tree.nodes.length
  nodes : ∀ inode node, selection.tree.node inode = some node → ∃ first, list.selection.tree.node inode = some first ∧
    node.kind = first.kind ∧ (node.size = first.size ∨
      (first.size = none ∧ ∃ known, node.size = some known ∧ (list.generation, inode, known) ∈ sizes))

/-- The lists accepted so far, the inodes of which lie apart, and where the selections come from. -/
structure Recorded (s : Transfer Fetch) : Prop where
  current : (∃ clock, s.state.current = .none clock) ∨ ∃ list, Described s.accepted s.sizes s.state.generation s.state.current list
  retiring : ∀ entry ∈ s.state.retiring, ∃ list, Described s.accepted s.sizes entry.1 entry.2 list
  generations : ∀ list ∈ s.accepted, list.generation ≤ s.state.generation
  ordered : s.accepted.Pairwise fun earlier later => earlier.generation < later.generation
  listed : ∀ list ∈ s.accepted, list.selection.tree.Listed list.files
  passed : ∀ list ∈ s.accepted, list.selection.tree.nextBase ≤ s.state.top
  apart : s.accepted.Pairwise fun earlier later =>
    earlier.selection.tree.base + earlier.selection.tree.entries ≤ later.selection.tree.base

/-- A longer history describes a selection just the same. -/
theorem Described.later {accepted more : List AcceptedList} {sizes reports : List (Nat × Nat × Nat)} {generation : Nat}
    {selection : Selection} {list : AcceptedList} (described : Described accepted sizes generation selection list)
    (longer : accepted ⊆ more) (reported : sizes ⊆ reports) : Described more reports generation selection list := by
  refine ⟨longer described.isAccepted, described.generation, described.dataId, described.base, described.length, ?_⟩
  intro inode node found
  obtain ⟨first, atFirst, kind, size⟩ := described.nodes inode node found
  exact ⟨first, atFirst, kind, size.imp_right fun ⟨unknown, known, isSize, report⟩ => ⟨unknown, known, isSize, reported report⟩⟩

/-- Only the requests, the calls and the history without the lists may be different. -/
theorem Recorded.congr (recorded : s.Recorded) (current : t.state.current = s.state.current)
    (generation : t.state.generation = s.state.generation) (retiring : t.state.retiring = s.state.retiring)
    (nextBase : t.state.nextBase = s.state.nextBase) (accepted : t.accepted = s.accepted) (sizes : s.sizes ⊆ t.sizes) :
    t.Recorded := by
  have later : ∀ {generation selection list}, Described s.accepted s.sizes generation selection list →
      Described t.accepted t.sizes generation selection list :=
    fun described => described.later (accepted ▸ fun _ => id) sizes
  refine ⟨?_, ?_, ?_, ?_, ?_, ?_, ?_⟩
  · rw [current, generation]
    exact recorded.current.imp_right fun ⟨list, described⟩ => ⟨list, later described⟩
  · rw [retiring]
    intro entry member
    obtain ⟨list, described⟩ := recorded.retiring entry member
    exact ⟨list, later described⟩
  · rw [accepted, generation]
    exact recorded.generations
  · rw [accepted]
    exact recorded.ordered
  · rw [accepted]
    exact recorded.listed
  · unfold top
    rw [accepted, current, nextBase]
    exact recorded.passed
  · rw [accepted]
    exact recorded.apart

theorem Recorded.retired (recorded : s.Recorded) {retiring : List (Nat × Selection)}
    (moved : ∀ entry ∈ retiring, entry ∈ s.state.retiring ∨
      (entry = (s.state.generation, s.state.current) ∧ s.state.current.tree.roots ≠ [])) :
    ∀ entry ∈ retiring, ∃ list, Described s.accepted s.sizes entry.1 entry.2 list := by
  intro entry member
  rcases moved entry member with old | ⟨new, rooted⟩
  · exact recorded.retiring entry old
  · rcases recorded.current with ⟨clock, none⟩ | ⟨list, described⟩
    · rw [none] at rooted
      exact absurd rfl rooted
    · exact ⟨list, new ▸ described⟩

theorem Recorded.shifts (recorded : s.Recorded) {state : TransferState Fetch} (shifts : Shifts s.state state) :
    Recorded { s with state } := by
  have top : s.state.top ≤ state.top := by
    rcases shifts.current with ⟨_, current, nextBase⟩ | ⟨_, nextBase⟩
    · unfold TransferState.top
      rw [current, nextBase]
    · exact nextBase ▸ Nat.le_max_left _ _
  refine ⟨?_, recorded.retired shifts.retiring, fun list member => (recorded.generations list member).trans shifts.generation,
    recorded.ordered, recorded.listed, fun list member => (recorded.passed list member).trans top, recorded.apart⟩
  rcases shifts.current with ⟨generation, current, _⟩ | ⟨current, _⟩
  · dsimp only
    rw [generation, current]
    exact recorded.current
  · exact .inl ⟨_, current⟩

/-- Inodes are left for a list when it is accepted. -/
def Numbered (s : Transfer Fetch) : Action → Prop
  | .acceptFor _ _ _ => s.state.top < u64Max
  | _ => True

theorem Recorded.accepts (recorded : s.Recorded) {state : TransferState Fetch} {maxEntries : Nat} {files : List FileDescriptor}
    (accepts : Accepts s.state state maxEntries files) (numbered : s.state.top < u64Max) :
    Recorded { s with state, accepted := s.accepted ++ [⟨state.generation, files, state.current⟩] } := by
  obtain ⟨clock, isTree⟩ := accepts.tree
  obtain ⟨base, listed⟩ := RemoteTree.build_base clock files maxEntries s.state.top
  rw [← isTree] at base listed
  have generation := accepts.generation
  have longer : s.accepted ⊆ s.accepted ++ [⟨state.generation, files, state.current⟩] := List.subset_append_left _ _
  have passed : s.state.top ≤ state.current.tree.nextBase := by
    unfold RemoteTree.nextBase
    rw [base]
    unfold u64Max at numbered
    omega
  refine ⟨.inr ⟨_, List.mem_append_right _ List.mem_cons_self, rfl, rfl, rfl, rfl, ?_⟩, ?_, ?_, ?_, ?_, ?_, ?_⟩
  · exact fun inode node found => ⟨node, found, rfl, .inl rfl⟩
  · intro entry member
    obtain ⟨list, described⟩ := recorded.retired accepts.retiring entry member
    exact ⟨list, described.later longer fun _ => id⟩
  · intro list member
    rcases List.mem_append.mp member with old | new
    · have := recorded.generations list old
      dsimp only
      omega
    · rw [List.mem_singleton.mp new]
  · refine List.pairwise_append.mpr ⟨recorded.ordered, List.pairwise_singleton _ _, fun old isOld new isNew => ?_⟩
    rw [List.mem_singleton.mp isNew]
    have := recorded.generations old isOld
    dsimp only
    omega
  · intro list member
    rcases List.mem_append.mp member with old | new
    · exact recorded.listed list old
    · rw [List.mem_singleton.mp new]
      exact listed
  · intro list member
    have above : state.current.tree.nextBase ≤ state.top := Nat.le_max_right _ _
    rcases List.mem_append.mp member with old | new
    · exact (recorded.passed list old).trans (passed.trans above)
    · rw [List.mem_singleton.mp new]
      exact above
  · refine List.pairwise_append.mpr ⟨recorded.apart, List.pairwise_singleton _ _, fun old isOld new isNew => ?_⟩
    rw [List.mem_singleton.mp isNew]
    have below := recorded.passed old isOld
    unfold RemoteTree.nextBase at below
    unfold u64Max at numbered
    dsimp only
    omega

/-- A size is put down for a file of a selection, and in the history. -/
theorem Recorded.setSize (recorded : s.Recorded) (generation inode size : Nat)
    (unknown : ∀ list ∈ s.accepted, list.generation = generation → ∀ first, list.selection.tree.node inode = some first →
      first.size = none) :
    Recorded { s with
      state := (s.state.setSize generation inode size).1
      sizes := s.sizes ++ [(generation, inode, size)] } := by
  have longer : s.sizes ⊆ s.sizes ++ [(generation, inode, size)] := List.subset_append_left _ _
  cases serves : s.state.selection generation with
  | none =>
    unfold TransferState.setSize
    rw [serves]
    exact recorded.congr rfl rfl rfl rfl rfl longer
  | some selection =>
    rw [setSize_eq serves]
    obtain ⟨base, length, nodes⟩ := selection.tree.setSize_spec inode size
    have resized : ∀ list, Described s.accepted s.sizes generation selection list →
        Described s.accepted (s.sizes ++ [(generation, inode, size)]) generation
          { selection with tree := (selection.tree.setSize inode size).1 } list := by
      intro list described
      refine ⟨described.isAccepted, described.generation, described.dataId, base.trans described.base,
        length.trans described.length, fun other node found => ?_⟩
      obtain ⟨old, atOld, kind, isSize⟩ := nodes other node found
      obtain ⟨first, atFirst, sameKind, origin⟩ := described.nodes other old atOld
      refine ⟨first, atFirst, kind.trans sameKind, ?_⟩
      rcases isSize with same | ⟨here, isSize⟩
      · rw [same]
        exact origin.imp_right fun ⟨unknown, known, isKnown, reported⟩ => ⟨unknown, known, isKnown, longer reported⟩
      · subst here
        refine .inr ⟨unknown list described.isAccepted described.generation first atFirst, size, isSize, ?_⟩
        rw [described.generation]
        exact List.mem_append_right _ List.mem_cons_self
    have top : (selection.tree.setSize inode size).1.nextBase = selection.tree.nextBase := by
      unfold RemoteTree.nextBase RemoteTree.entries
      rw [base, length]
    unfold TransferState.setSelection
    by_cases live : s.state.generation = generation
    · rw [if_pos live]
      have isCurrent : s.state.current = selection := by
        unfold TransferState.selection at serves
        rw [if_pos live] at serves
        exact Option.some.inj (Option.ite_none_right_eq_some.mp serves).2
      refine ⟨?_, fun entry member => ?_, recorded.generations, recorded.ordered, recorded.listed, fun list member => ?_, recorded.apart⟩
      · rcases recorded.current with ⟨clock, none⟩ | ⟨list, described⟩
        · refine .inl ⟨clock, ?_⟩
          dsimp only
          rw [← isCurrent, none]
          unfold Selection.none
          dsimp only
          rw [RemoteTree.setSize_empty]
        · exact .inr ⟨list, live ▸ resized list (isCurrent ▸ live ▸ described)⟩
      · obtain ⟨list, described⟩ := recorded.retiring entry member
        exact ⟨list, described.later (fun _ => id) longer⟩
      · have passed := recorded.passed list member
        unfold TransferState.top at passed ⊢
        dsimp only
        rw [top]
        exact isCurrent ▸ passed
    · rw [if_neg live]
      have isRetired : (generation, selection) ∈ s.state.retiring := by
        unfold TransferState.selection at serves
        rw [if_neg live] at serves
        exact List.mem_of_lookup (Option.ite_none_right_eq_some.mp serves).2
      refine ⟨?_, fun entry member => ?_, recorded.generations, recorded.ordered, recorded.listed, recorded.passed, recorded.apart⟩
      · exact recorded.current.imp_right fun ⟨list, described⟩ => ⟨list, described.later (fun _ => id) longer⟩
      · obtain ⟨old, isOld, same⟩ := List.mem_map.mp member
        split at same
        · rename_i found
          obtain ⟨list, described⟩ := recorded.retiring _ isRetired
          rw [← same]
          exact ⟨list, found ▸ resized list described⟩
        · obtain ⟨list, described⟩ := recorded.retiring old isOld
          rw [← same]
          exact ⟨list, described.later (fun _ => id) longer⟩

theorem new_recorded (clock : Int) : (Transfer.new clock : Transfer Fetch).Recorded where
  current := .inl ⟨clock, rfl⟩
  retiring := nofun
  generations := nofun
  ordered := .nil
  listed := nofun
  passed := nofun
  apart := .nil

/-- An accepted list is known by its generation. -/
theorem Recorded.unique (recorded : s.Recorded) {one other : AcceptedList} (first : one ∈ s.accepted) (second : other ∈ s.accepted)
    (same : one.generation = other.generation) : one = other := by
  have distinct : s.accepted.Pairwise fun one other => one.generation ≠ other.generation :=
    recorded.ordered.imp fun order => order.ne
  exact List.eq_of_key_eq distinct first second same

end Transfer

end HyprRdp
