import HyprRdp.Clipboard.Transfer
import HyprRdp.Clipboard.TreeNodes
import HyprRdp.Lib.Table
import Mathlib.Algebra.Order.BigOperators.Group.List
import Mathlib.Algebra.Order.Monoid.Unbundled.Basic
import Mathlib.Algebra.Order.Ring.Nat

namespace HyprRdp

namespace TransferState

variable {Fetch : Type} {s t : TransferState Fetch} {generation : Nat}

theorem retired_isSome : (s.retired generation).isSome = true ↔ ∃ selection, (generation, selection) ∈ s.retiring := by
  unfold retired
  constructor
  · intro found
    obtain ⟨selection, found⟩ := Option.isSome_iff_exists.mp found
    exact ⟨selection, List.mem_of_lookup found⟩
  · rintro ⟨selection, member⟩
    rw [List.lookup_isSome_iff]
    exact ⟨(generation, selection), member, beq_self_eq_true _⟩

theorem servable_iff : s.servable generation = true ↔ s.closed = false ∧ s.stream = true ∧
    (s.generation = generation ∨ ∃ selection, (generation, selection) ∈ s.retiring) := by
  unfold servable
  rw [Bool.and_eq_true, Bool.and_eq_true, Bool.or_eq_true, retired_isSome, Bool.not_eq_true', decide_eq_true_iff, and_assoc]

theorem servable_of_retired (opened : s.closed = false) (stream : s.stream = true) {entry : Nat × Selection}
    (member : entry ∈ s.retiring) : s.servable entry.1 = true :=
  servable_iff.mpr ⟨opened, stream, .inr ⟨entry.2, member⟩⟩

structure Sound (s : TransferState Fetch) : Prop where
  served : ∀ entry ∈ s.pending, s.servable entry.2.generation = true
  few : s.pending.length ≤ maxPending
  budget : reserved s.pending ≤ maxBuffered
  fewRetired : s.retiring.length ≤ maxRetiring
  retired : ∀ entry ∈ s.retiring, entry.2.dataId ≠ none ∧ entry.2.tree.roots ≠ []
  ordered : s.retiring.Pairwise fun older newer => older.1 < newer.1
  older : ∀ entry ∈ s.retiring, entry.1 < s.generation

theorem reserved_sublist {few many : List (Nat × PendingFetch Fetch)} (sublist : few.Sublist many) :
    reserved few ≤ reserved many :=
  (sublist.map _).sum_le_sum fun _ _ => Nat.zero_le _

/-- Fewer requests and fewer retiring selections, and every request left is still served. -/
theorem Sound.shrink (sound : s.Sound) (generation : s.generation ≤ t.generation) (pending : t.pending.Sublist s.pending)
    (retiring : t.retiring.Sublist s.retiring) (served : ∀ entry ∈ t.pending, t.servable entry.2.generation = true) :
    t.Sound where
  served := served
  few := pending.length_le.trans sound.few
  budget := (reserved_sublist pending).trans sound.budget
  fewRetired := retiring.length_le.trans sound.fewRetired
  retired entry member := sound.retired entry (retiring.subset member)
  ordered := sound.ordered.sublist retiring
  older entry member := (sound.older entry (retiring.subset member)).trans_le generation

/-- What eviction leaves: the newest selections, and the requests that go to them if they went to any. -/
theorem evict_spec (retiring : List (Nat × Selection)) (pending : List (Nat × PendingFetch Fetch)) :
    (evict retiring pending).1.Sublist retiring ∧ (evict retiring pending).1.length ≤ maxRetiring ∧
      (evict retiring pending).2.1.Sublist pending ∧
      ∀ entry ∈ (evict retiring pending).2.1, ∀ old ∈ retiring, old.1 = entry.2.generation → old ∈ (evict retiring pending).1 := by
  induction retiring generalizing pending with
  | nil => exact ⟨.slnil, Nat.zero_le _, List.Sublist.refl _, fun _ _ _ member => nomatch member⟩
  | cons oldest rest ih =>
    unfold evict
    split
    · obtain ⟨retiring, few, pending, kept⟩ := ih (withoutPending oldest.1 pending)
      refine ⟨retiring.cons _, few, pending.trans List.filter_sublist, fun entry member old isOld same => ?_⟩
      rcases List.mem_cons.mp isOld with first | later
      · have left := List.of_mem_filter (pending.subset member)
        rw [decide_eq_true_iff] at left
        exact absurd (first ▸ same).symm left
      · exact kept entry member old later same
    · rename_i within
      refine ⟨List.Sublist.refl _, ?_, List.Sublist.refl _, fun _ _ _ member _ => member⟩
      rw [List.length_cons]
      omega

theorem insertRetiring_newest {selection : Selection} {retiring : List (Nat × Selection)}
    (older : ∀ entry ∈ retiring, entry.1 < generation) :
    insertRetiring generation selection retiring = retiring ++ [(generation, selection)] := by
  induction retiring with
  | nil => rfl
  | cons oldest rest ih =>
    have first := older oldest List.mem_cons_self
    unfold insertRetiring
    rw [if_neg (by omega), if_neg (by omega), ih fun entry member => older entry (List.mem_cons_of_mem _ member)]
    rfl

theorem bump_eq (countable : s.generation < u64Max) : s.bump = { s with generation := s.generation + 1 } := if_pos countable

/-- What an operation on the selections does: generations go on, and requests and
retiring selections go, but for the live selection that may retire. -/
structure Moves (s t : TransferState Fetch) : Prop where
  generation : s.generation ≤ t.generation
  closed : s.closed = true → t.closed = true
  nextStream : t.nextStream = s.nextStream
  pending : t.pending.Sublist s.pending
  retiring : ∀ entry ∈ t.retiring, entry ∈ s.retiring ∨ (entry = (s.generation, s.current) ∧ s.generation < t.generation)
  current : t.generation = s.generation → t.current = s.current
  ended : ∀ generation, s.servable generation = true → t.servable generation = false →
    t.closed = true ∨ (generation < t.generation ∧ ∀ entry ∈ t.retiring, entry.1 ≠ generation)

/-- What retiring the live selection does, as long as the generations can be counted. -/
structure Retires (s t : TransferState Fetch) : Prop where
  generation : t.generation = s.generation + 1
  closed : t.closed = s.closed
  stream : t.stream = s.stream
  huge : t.huge = s.huge
  locking : t.locking = s.locking
  nextStream : t.nextStream = s.nextStream
  current : t.current = .none s.clock
  nextBase : t.nextBase = max s.nextBase s.current.tree.nextBase
  pending : t.pending.Sublist s.pending
  retiring : t.retiring.Sublist (s.retiring ++ [(s.generation, s.current)])
  sound : t.Sound

theorem retireCurrent_retires (sound : s.Sound) (countable : s.generation < u64Max) : Retires s s.retireCurrent.1 := by
  unfold retireCurrent
  dsimp only
  split
  · dsimp only
    have bumped := @bump_eq Fetch (s.takeCurrent.failPending s.generation) countable
    rw [bumped]
    refine ⟨rfl, rfl, rfl, rfl, rfl, rfl, rfl, rfl, List.filter_sublist, List.sublist_append_left _ _, ?_⟩
    refine sound.shrink (Nat.le_succ _) List.filter_sublist (List.Sublist.refl _) fun entry member => ?_
    obtain ⟨isPending, left⟩ := List.mem_filter.mp member
    rw [decide_eq_true_iff] at left
    obtain ⟨opened, stream, current | retired⟩ := servable_iff.mp (sound.served entry isPending)
    · exact absurd current.symm left
    · exact servable_iff.mpr ⟨opened, stream, .inr retired⟩
  · rename_i served
    obtain ⟨rooted, locked⟩ := not_or.mp served
    have newest : insertRetiring s.generation s.current s.takeCurrent.retiring = s.retiring ++ [(s.generation, s.current)] :=
      insertRetiring_newest sound.older
    rw [newest]
    obtain ⟨retiring, few, pending, kept⟩ := evict_spec (s.retiring ++ [(s.generation, s.current)]) s.pending
    have isPending : s.takeCurrent.pending = s.pending := rfl
    rw [isPending]
    generalize evict (s.retiring ++ [(s.generation, s.current)]) s.pending = evicted at *
    dsimp only
    have bumped := @bump_eq Fetch { s.takeCurrent with retiring := evicted.1, pending := evicted.2.1 } countable
    rw [bumped]
    refine ⟨rfl, rfl, rfl, rfl, rfl, rfl, rfl, rfl, pending, retiring, ?_⟩
    have older : ∀ entry ∈ s.retiring ++ [(s.generation, s.current)], entry.1 < s.generation + 1 := by
      intro entry member
      rcases List.mem_append.mp member with old | new
      · exact (sound.older entry old).trans (Nat.lt_succ_self _)
      · rw [List.mem_singleton.mp new]
        exact Nat.lt_succ_self _
    refine ⟨fun entry member => ?_, pending.length_le.trans sound.few, (reserved_sublist pending).trans sound.budget, few,
      fun entry member => ?_, ?_, fun entry member => older entry (retiring.subset member)⟩
    · obtain ⟨opened, stream, serves⟩ := servable_iff.mp (sound.served entry (pending.subset member))
      refine servable_iff.mpr ⟨opened, stream, .inr ?_⟩
      rcases serves with current | ⟨selection, retired⟩
      · exact ⟨s.current, current ▸ kept entry member _ (List.mem_append_right _ List.mem_cons_self) current⟩
      · exact ⟨selection, kept entry member _ (List.mem_append_left _ retired) rfl⟩
    · rcases List.mem_append.mp (retiring.subset member) with old | new
      · exact sound.retired entry old
      · rw [List.mem_singleton.mp new]
        refine ⟨fun none => locked ?_, fun none => rooted ?_⟩
        · rw [none]
          rfl
        · rw [none]
          rfl
    · refine List.Pairwise.sublist retiring (List.pairwise_append.mpr ⟨sound.ordered, List.pairwise_singleton _ _, ?_⟩)
      intro old isOld new isNew
      rw [List.mem_singleton.mp isNew]
      exact sound.older old isOld

theorem Sound.served_le (sound : s.Sound) (serves : s.servable generation = true) : generation ≤ s.generation := by
  obtain ⟨_, _, current | ⟨selection, retired⟩⟩ := servable_iff.mp serves
  · exact current.ge
  · exact (sound.older _ retired).le

/-- A selection that is not served any more under the same flags is gone for good. -/
theorem Sound.ended (sound : s.Sound) (closed : t.closed = s.closed) (stream : t.stream = s.stream)
    (bumped : s.generation < t.generation) (was : s.servable generation = true) (now : t.servable generation = false) :
    generation < t.generation ∧ ∀ entry ∈ t.retiring, entry.1 ≠ generation := by
  refine ⟨(sound.served_le was).trans_lt bumped, fun entry member same => ?_⟩
  obtain ⟨opened, streams, _⟩ := servable_iff.mp was
  have still := servable_of_retired (closed.trans opened) (stream.trans streams) member
  exact absurd ((same ▸ still).symm.trans now) nofun

theorem Retires.moves (retires : Retires s t) (sound : s.Sound) : Moves s t where
  generation := retires.generation ▸ Nat.le_succ _
  closed closed := retires.closed.trans closed
  nextStream := retires.nextStream
  pending := retires.pending
  retiring entry member := by
    refine (List.mem_append.mp (retires.retiring.subset member)).imp_right fun new => ⟨List.mem_singleton.mp new, ?_⟩
    have := retires.generation
    omega
  current same := absurd (retires.generation.symm.trans same) (Nat.succ_ne_self _)
  ended generation was now := by
    have bumped := retires.generation
    exact .inr (sound.ended retires.closed retires.stream (by omega) was now)

theorem shutdown_spec (countable : s.generation < u64Max) :
    s.shutdown.1 = { s with
      generation := s.generation + 1
      retiring := []
      pending := []
      nextBase := max s.nextBase s.current.tree.nextBase
      current := .none s.clock } :=
  @bump_eq Fetch ({ s with retiring := [], pending := [] } : TransferState Fetch).takeCurrent countable

/-- Nothing is left of what was served before. -/
theorem moves_shutdown (sound : s.Sound) (closed : s.closed = true → t.closed = true) (generation : t.generation = s.generation + 1)
    (nextStream : t.nextStream = s.nextStream) (pending : t.pending = []) (retiring : t.retiring = []) :
    Moves s t ∧ t.Sound := by
  refine ⟨⟨by omega, closed, nextStream, ?_, ?_, fun same => by omega, fun ended was _ => ?_⟩, ?_⟩
  · rw [pending]
    exact List.nil_sublist _
  · rw [retiring]
    exact nofun
  · have le := sound.served_le was
    refine .inr ⟨by omega, ?_⟩
    rw [retiring]
    exact nofun
  · refine sound.shrink (by omega) ?_ ?_ ?_
    · rw [pending]
      exact List.nil_sublist _
    · rw [retiring]
      exact List.nil_sublist _
    · rw [pending]
      exact nofun

theorem Moves.refl (s : TransferState Fetch) : Moves s s where
  generation := le_rfl
  closed := id
  nextStream := rfl
  pending := List.Sublist.refl _
  retiring _ := .inl
  current _ := rfl
  ended _ was now := absurd (was.symm.trans now) nofun

theorem capabilities_moves (sound : s.Sound) (countable : s.generation < u64Max) (stream huge locking : Bool) :
    Moves s (s.capabilities stream huge locking).1 ∧ (s.capabilities stream huge locking).1.Sound := by
  unfold capabilities
  by_cases changed : s.stream ≠ stream ∨ s.huge ≠ huge ∨ s.locking ≠ locking
  · rw [if_pos changed]
    dsimp only
    rw [shutdown_spec countable]
    exact moves_shutdown sound id rfl rfl rfl rfl
  · rw [if_neg changed]
    obtain ⟨sameStream, sameHuge, sameLocking⟩ : s.stream = stream ∧ s.huge = huge ∧ s.locking = locking := by
      simpa only [not_or, not_not] using changed
    subst sameStream sameHuge sameLocking
    exact ⟨.refl s, sound⟩

theorem close_moves (sound : s.Sound) (countable : s.generation < u64Max) : Moves s s.close.1 ∧ s.close.1.Sound := by
  unfold close
  dsimp only
  rw [shutdown_spec countable]
  exact moves_shutdown sound (fun _ => rfl) rfl rfl rfl rfl

theorem retireGeneration_moves (sound : s.Sound) (countable : s.generation < u64Max) :
    Moves s s.retireGeneration.1 ∧ s.retireGeneration.1.Sound := by
  have retires := retireCurrent_retires sound countable
  exact ⟨retires.moves sound, retires.sound⟩

/-- A new current selection for a generation that has none yet. -/
theorem Retires.replace (retires : Retires s t) (sound : s.Sound) (selection : Selection) (nextBase : Nat) :
    Moves s { t with nextBase, current := selection } ∧ Sound { t with nextBase, current := selection } := by
  have moves := retires.moves sound
  have kept := retires.sound
  refine ⟨⟨moves.generation, moves.closed, moves.nextStream, moves.pending, moves.retiring, fun same => ?_, moves.ended⟩,
    kept.served, kept.few, kept.budget, kept.fewRetired, kept.retired, kept.ordered, kept.older⟩
  exact absurd (retires.generation.symm.trans same) (Nat.succ_ne_self _)

theorem acceptFor_moves (sound : s.Sound) (countable : s.generation < u64Max) (maxEntries expected : Nat)
    (files : List FileDescriptor) (dataId : Option Nat) :
    Moves s (s.acceptFor maxEntries expected files dataId).1 ∧ (s.acceptFor maxEntries expected files dataId).1.Sound := by
  have retires := retireCurrent_retires sound countable
  unfold acceptFor
  split
  · exact ⟨.refl s, sound⟩
  · dsimp only
    split
    · exact ⟨retires.moves sound, retires.sound⟩
    · exact retires.replace sound _ _

theorem foldl_release (released : List Nat) (s : TransferState Fetch) :
    released.foldl release s = { s with
      retiring := s.retiring.filter fun entry => entry.1 ∉ released
      pending := s.pending.filter fun entry => entry.2.generation ∉ released } := by
  induction released generalizing s with
  | nil => simp
  | cons first rest ih =>
    rw [List.foldl_cons, ih]
    unfold release failPending withoutPending
    dsimp only
    rw [List.filter_filter, List.filter_filter]
    congr 1
    · refine List.filter_congr fun entry _ => ?_
      simp [Bool.and_comm]
    · refine List.filter_congr fun entry _ => ?_
      simp [Bool.and_comm]

/-- The selections that are given end, and their requests fail; the generations go on if the live one is among them. -/
theorem Sound.drop (sound : s.Sound) (released : List Nat) (closed : t.closed = s.closed) (stream : t.stream = s.stream)
    (nextStream : t.nextStream = s.nextStream)
    (retiring : t.retiring = s.retiring.filter fun entry => entry.1 ∉ released)
    (pending : t.pending.Sublist (s.pending.filter fun entry => entry.2.generation ∉ released))
    (advance : (t.generation = s.generation ∧ t.current = s.current) ∨
      (t.generation = s.generation + 1 ∧ s.generation ∈ released)) : Moves s t ∧ t.Sound := by
  have fewer : t.retiring.Sublist s.retiring := retiring ▸ List.filter_sublist
  have left : t.pending.Sublist s.pending := pending.trans List.filter_sublist
  have serves : ∀ old, s.servable old = true → old ∉ released → t.servable old = true := by
    intro old was kept
    obtain ⟨opened, streams, current | ⟨selection, retired⟩⟩ := servable_iff.mp was
    · rcases advance with ⟨same, _⟩ | ⟨_, isReleased⟩
      · exact servable_iff.mpr ⟨closed.trans opened, stream.trans streams, .inl (same.trans current)⟩
      · exact absurd (current ▸ isReleased) kept
    · refine servable_iff.mpr ⟨closed.trans opened, stream.trans streams, .inr ⟨selection, ?_⟩⟩
      rw [retiring]
      exact List.mem_filter.mpr ⟨retired, decide_eq_true kept⟩
  refine ⟨⟨by omega, closed.trans, nextStream, left, fun entry member => .inl (fewer.subset member), fun same => ?_,
    fun old was now => .inr ⟨?_, fun entry member same => ?_⟩⟩, ?_⟩
  · rcases advance with ⟨_, current⟩ | ⟨bumped, _⟩
    · exact current
    · omega
  · have le := sound.served_le was
    rcases advance with ⟨same, _⟩ | ⟨bumped, _⟩
    · obtain ⟨opened, streams, current | ⟨selection, retired⟩⟩ := servable_iff.mp was
      · have still := servable_iff.mpr ⟨closed.trans opened, stream.trans streams, .inl (same.trans current)⟩
        exact absurd (still.symm.trans now) nofun
      · have := sound.older _ retired
        dsimp only at this
        omega
    · omega
  · obtain ⟨opened, streams, _⟩ := servable_iff.mp was
    have still := servable_of_retired (closed.trans opened) (stream.trans streams) member
    exact absurd ((same ▸ still).symm.trans now) nofun
  · refine sound.shrink (by omega) left fewer fun entry member => ?_
    obtain ⟨isPending, kept⟩ := List.mem_filter.mp (pending.subset member)
    exact serves _ (sound.served entry isPending) (of_decide_eq_true kept)

theorem releaseLocks_moves (sound : s.Sound) (countable : s.generation < u64Max) (dataIds : List Nat) :
    Moves s (s.releaseLocks dataIds).1 ∧ (s.releaseLocks dataIds).1.Sound := by
  unfold releaseLocks
  dsimp only
  generalize (s.retiring.filter fun entry => covered dataIds entry.2).map (·.1) = retired
  by_cases live : covered dataIds s.current = true
  · rw [if_pos live]
    dsimp only
    rw [foldl_release, @bump_eq Fetch (s.takeCurrent.failPending s.generation) countable]
    refine sound.drop (retired ++ [s.generation]) rfl rfl rfl rfl ?_ (.inr ⟨rfl, List.mem_append_right _ List.mem_cons_self⟩)
    exact List.filter_sublist.filter _
  · rw [if_neg live]
    dsimp only
    rw [foldl_release]
    exact sound.drop retired rfl rfl rfl rfl (List.Sublist.refl _) (.inl ⟨rfl, rfl⟩)

/-- The same selections are served, under the same live generation. -/
structure Serving (s t : TransferState Fetch) : Prop where
  generation : t.generation = s.generation
  closed : t.closed = s.closed
  stream : t.stream = s.stream
  retiring : t.retiring.map (·.1) = s.retiring.map (·.1)

theorem mem_retired_keys : (∃ selection, (generation, selection) ∈ s.retiring) ↔ generation ∈ s.retiring.map (·.1) := by
  simp

theorem Serving.servable (serving : Serving s t) (generation : Nat) : t.servable generation = s.servable generation := by
  rw [Bool.eq_iff_iff, servable_iff, servable_iff, mem_retired_keys, mem_retired_keys, serving.generation, serving.closed,
    serving.stream, serving.retiring]

theorem Serving.trans {u : TransferState Fetch} (first : Serving s t) (second : Serving t u) : Serving s u where
  generation := second.generation.trans first.generation
  closed := second.closed.trans first.closed
  stream := second.stream.trans first.stream
  retiring := second.retiring.trans first.retiring

theorem Sound.fewer (sound : s.Sound) (pending : List (Nat × PendingFetch Fetch)) (nextStream : Option Nat)
    (sublist : pending.Sublist s.pending) : Sound { s with pending, nextStream } :=
  sound.shrink le_rfl sublist (List.Sublist.refl _) fun entry member => sound.served entry (sublist.subset member)

theorem setSelection_serving (s : TransferState Fetch) (generation : Nat) (selection : Selection) :
    Serving s (s.setSelection generation selection) := by
  unfold setSelection
  split
  · exact ⟨rfl, rfl, rfl, rfl⟩
  · refine ⟨rfl, rfl, rfl, ?_⟩
    rw [List.map_map]
    refine List.map_congr_left fun entry _ => ?_
    dsimp only [Function.comp_apply]
    split <;> rfl

theorem setSelection_requests (s : TransferState Fetch) (generation : Nat) (selection : Selection) :
    (s.setSelection generation selection).pending = s.pending ∧
      (s.setSelection generation selection).nextStream = s.nextStream := by
  unfold setSelection
  split
  · exact ⟨rfl, rfl⟩
  · exact ⟨rfl, rfl⟩

/-- A change of the sizes in a selection that is served. -/
theorem Sound.setSelection (sound : s.Sound) {selection old : Selection} (serves : s.selection generation = some old)
    (dataId : selection.dataId = old.dataId) (roots : selection.tree.roots = old.tree.roots) :
    (s.setSelection generation selection).Sound := by
  have serving := setSelection_serving s generation selection
  have pending := (setSelection_requests s generation selection).1
  refine ⟨fun entry member => ?_, pending ▸ sound.few, pending ▸ sound.budget, ?_, ?_, ?_, fun entry member => ?_⟩
  · rw [serving.servable]
    exact sound.served entry (pending ▸ member)
  · rw [← List.length_map (fun entry : Nat × Selection => entry.1), serving.retiring, List.length_map]
    exact sound.fewRetired
  · unfold TransferState.setSelection
    split
    · exact sound.retired
    · rename_i other
      intro entry member
      obtain ⟨before, isRetired, same⟩ := List.mem_map.mp member
      have kept := sound.retired before isRetired
      split at same
      · rename_i found
        have isOld : s.selection generation = s.retired generation := by
          unfold TransferState.selection
          rw [if_neg other]
          split
          · rfl
          · rename_i shut
            unfold TransferState.selection at serves
            rw [if_neg shut] at serves
            cases serves
        have member := List.mem_of_lookup (isOld.symm.trans serves)
        have stored := sound.retired _ member
        rw [← same]
        exact ⟨dataId ▸ stored.1, roots ▸ stored.2⟩
      · exact same ▸ kept
  · rw [← List.pairwise_map (f := fun entry : Nat × Selection => entry.1) (R := fun older newer => older < newer),
      serving.retiring]
    exact List.pairwise_map.mpr sound.ordered
  · rw [serving.generation]
    have key : entry.1 ∈ s.retiring.map (·.1) := serving.retiring ▸ List.mem_map_of_mem member
    obtain ⟨before, isRetired, same⟩ := List.mem_map.mp key
    exact same ▸ sound.older before isRetired

theorem setSize_eq {selection : Selection} (serves : s.selection generation = some selection) (inode size : Nat) :
    (s.setSize generation inode size).1 =
      s.setSelection generation { selection with tree := (selection.tree.setSize inode size).1 } := by
  unfold TransferState.setSize
  rw [serves]

theorem Sound.setSize (sound : s.Sound) (generation inode size : Nat) : (s.setSize generation inode size).1.Sound ∧
    Serving s (s.setSize generation inode size).1 := by
  cases serves : s.selection generation with
  | none =>
    unfold TransferState.setSize
    rw [serves]
    exact ⟨sound, ⟨rfl, rfl, rfl, rfl⟩⟩
  | some selection =>
    rw [setSize_eq serves]
    exact ⟨sound.setSelection serves rfl (RemoteTree.setSize_roots _ _ _), setSelection_serving _ _ _⟩

/-- Taking a request out leaves room for it. -/
theorem removePending_room {id : Nat} {entry : PendingFetch Fetch} (member : (id, entry) ∈ s.pending) :
    (s.removePending id).pending.length + 1 ≤ s.pending.length ∧
      reserved (s.removePending id).pending + entry.reserved ≤ reserved s.pending := by
  obtain ⟨before, after, parts⟩ := List.append_of_mem member
  have fewer : (s.removePending id).pending.Sublist (before ++ after) := by
    unfold removePending
    dsimp only
    rw [parts, List.filter_append, List.filter_cons_of_neg (by simp)]
    exact List.filter_sublist.append List.filter_sublist
  have length := fewer.length_le
  have sum := reserved_sublist fewer
  unfold reserved at sum ⊢
  rw [parts]
  simp only [List.length_append, List.length_cons, List.map_append, List.map_cons, List.sum_append, List.sum_cons] at length sum ⊢
  omega

theorem Sound.insertPending (sound : s.Sound) {id : Nat} {entry : PendingFetch Fetch}
    (serves : s.servable entry.generation = true) (few : (s.removePending id).pending.length < maxPending)
    (budget : reserved (s.removePending id).pending + entry.reserved ≤ maxBuffered) : (s.insertPending id entry).Sound := by
  refine ⟨fun other member => ?_, ?_, ?_, sound.fewRetired, sound.retired, sound.ordered, sound.older⟩
  · rcases List.mem_append.mp member with old | new
    · exact sound.served other (List.mem_of_mem_filter old)
    · rw [List.mem_singleton.mp new]
      exact serves
  · unfold TransferState.insertPending
    dsimp only
    rw [List.length_append]
    exact few
  · unfold TransferState.insertPending reserved
    dsimp only
    rw [List.map_append, List.sum_append]
    simpa [reserved] using budget

/-- What an allocation leaves behind, and the room that a granted one has. -/
theorem allocate_spec (gone : Nat → Bool) (bytes : Nat) :
    ∃ nextStream, (s.allocate gone bytes).1 =
        { s with pending := s.pending.filter fun entry => !gone entry.2.answer, nextStream } ∧
      match (s.allocate gone bytes).2 with
      | none => nextStream = s.nextStream
      | some id => s.nextStream = some id ∧ (∀ next, nextStream = some next → next = id + 1) ∧
          (s.allocate gone bytes).1.pending.length < maxPending ∧
          bytes + reserved (s.allocate gone bytes).1.pending ≤ maxBuffered := by
  unfold allocate
  dsimp only
  split
  · exact ⟨s.nextStream, rfl, rfl⟩
  · rename_i room
    obtain ⟨few, budget⟩ := not_or.mp room
    split
    · exact ⟨s.nextStream, rfl, rfl⟩
    · rename_i id isNext
      refine ⟨_, rfl, isNext, fun next same => ?_, Nat.lt_of_not_le few, Nat.le_of_not_lt budget⟩
      split at same
      · exact (Option.some.inj same).symm
      · cases same

/-- Stream ids ascend: one that is granted is above all the earlier ones, and below the next. -/
theorem allocate_fresh {opened : List Nat} (fresh : ∀ id ∈ opened, ∀ next, s.nextStream = some next → id < next)
    (gone : Nat → Bool) (bytes : Nat) :
    (∀ id ∈ opened, ∀ next, (s.allocate gone bytes).1.nextStream = some next → id < next) ∧
      ∀ id, (s.allocate gone bytes).2 = some id →
        (∀ old ∈ opened, old < id) ∧ ∀ next, (s.allocate gone bytes).1.nextStream = some next → id < next := by
  obtain ⟨nextStream, isState, granted⟩ := @allocate_spec Fetch s gone bytes
  refine ⟨fun old member next same => ?_, fun id isGranted => ?_⟩
  · have same : nextStream = some next := by rw [isState] at same; exact same
    split at granted
    · exact fresh old member next (granted ▸ same)
    · obtain ⟨isNext, follows, _⟩ := granted
      have := fresh old member _ isNext
      have := follows next same
      omega
  · rw [isGranted] at granted
    obtain ⟨isNext, follows, _⟩ := granted
    refine ⟨fun old member => fresh old member id isNext, fun next same => ?_⟩
    have same : nextStream = some next := by rw [isState] at same; exact same
    have := follows next same
    omega

theorem setSize_requests (s : TransferState Fetch) (generation inode size : Nat) :
    (s.setSize generation inode size).1.pending = s.pending ∧
      (s.setSize generation inode size).1.nextStream = s.nextStream := by
  cases serves : s.selection generation with
  | none =>
    unfold TransferState.setSize
    rw [serves]
    exact ⟨rfl, rfl⟩
  | some selection =>
    rw [setSize_eq serves]
    exact setSelection_requests _ _ _

end TransferState

namespace ChunkedFetchApi

variable {Fetch : Type}

/-- The fetches that can come up for one amount of bytes from the file with an
index, with the requests they made and the data they got so far. -/
inductive Fetching (api : ChunkedFetchApi Fetch) (id index amount maxChunk : Nat) (dataId : Option Nat) (limit : Nat) :
    Fetch → List FileContentsRequest → List (List UInt8) → Prop
  | new : Fetching api id index amount maxChunk dataId limit (api.new id index amount maxChunk dataId limit) [] []
  | request {fetch next request asked got} (fetching : Fetching api id index amount maxChunk dataId limit fetch asked got)
      (answered : asked.length = got.length) (requested : api.nextRequest fetch = some (request, next)) :
      Fetching api id index amount maxChunk dataId limit next (asked ++ [request]) got
  | response {fetch next asked got response}
      (fetching : Fetching api id index amount maxChunk dataId limit fetch asked got)
      (unanswered : asked.length = got.length + 1) (progress : api.onResponse fetch response = (.inProgress, next)) :
      Fetching api id index amount maxChunk dataId limit next asked (got ++ [response.data])

/-- A fetch asks for consecutive ranges that cover the amount, each from the bytes on that it has
so far, and it completes with exactly the amount. -/
structure Documented (api : ChunkedFetchApi Fetch) : Prop where
  asks : ∀ {id index amount maxChunk dataId limit fetch asked got request next},
    api.Fetching id index amount maxChunk dataId limit fetch asked got → asked.length = got.length →
      api.nextRequest fetch = some (request, next) →
      request = ⟨id, index, false, true, got.flatten.length, request.requestedSize, dataId⟩ ∧
        0 < request.requestedSize ∧ got.flatten.length + request.requestedSize ≤ amount
  completes : ∀ {id index amount maxChunk dataId limit fetch asked got response next},
    api.Fetching id index amount maxChunk dataId limit fetch asked got → asked.length = got.length + 1 →
      api.onResponse fetch response = (.complete, next) →
        api.intoData next = (got ++ [response.data]).flatten ∧ (got ++ [response.data]).flatten.length = amount

theorem Documented.first {api : ChunkedFetchApi Fetch} (documented : api.Documented) {id index amount maxChunk : Nat}
    {dataId : Option Nat} {limit : Nat} {request : FileContentsRequest} {next : Fetch}
    (requested : api.nextRequest (api.new id index amount maxChunk dataId limit) = some (request, next)) :
    request = ⟨id, index, false, true, 0, request.requestedSize, dataId⟩ :=
  (documented.asks .new rfl requested).1

end ChunkedFetchApi

/-- A fetch that collects what it gets in a buffer. -/
structure BufferedFetch where
  id : Nat
  index : Nat
  amount : Nat
  maxChunk : Nat
  dataId : Option Nat
  buffer : List UInt8

namespace BufferedFetch

def nextRequest (fetch : BufferedFetch) : Option (FileContentsRequest × BufferedFetch) :=
  let requestedSize := min fetch.maxChunk (fetch.amount - fetch.buffer.length)
  if requestedSize = 0 then none
  else some (⟨fetch.id, fetch.index, false, true, fetch.buffer.length, requestedSize, fetch.dataId⟩, fetch)

def onResponse (fetch : BufferedFetch) (response : FileContentsResponse) : ChunkedFetchProgress × BufferedFetch :=
  let buffer := fetch.buffer ++ response.data
  if response.isError ∨ response.data = [] ∨ fetch.amount < buffer.length then (.failed, fetch)
  else (if buffer.length = fetch.amount then .complete else .inProgress, { fetch with buffer })

/-- An amount above the limit is not asked for. -/
def api : ChunkedFetchApi BufferedFetch where
  new id index amount maxChunk dataId limit := ⟨id, index, amount, if amount ≤ limit then maxChunk else 0, dataId, []⟩
  nextRequest := nextRequest
  onResponse := onResponse
  intoData := buffer

theorem api_fetching {id index amount maxChunk : Nat} {dataId : Option Nat} {limit : Nat} {fetch : BufferedFetch}
    {asked : List FileContentsRequest} {got : List (List UInt8)}
    (fetching : api.Fetching id index amount maxChunk dataId limit fetch asked got) :
    fetch.id = id ∧ fetch.index = index ∧ fetch.amount = amount ∧ fetch.dataId = dataId ∧ fetch.buffer = got.flatten := by
  induction fetching with
  | new => exact ⟨rfl, rfl, rfl, rfl, rfl⟩
  | request _ _ requested ih =>
    obtain ⟨_, same⟩ := Option.ite_none_left_eq_some.mp requested
    cases same
    exact ih
  | @response fetch next asked got response _ _ progress ih =>
    obtain ⟨id, index, amount, dataId, buffer⟩ := ih
    have progress : fetch.onResponse response = (.inProgress, next) := progress
    unfold onResponse at progress
    dsimp only at progress
    split at progress
    · cases progress
    · cases congrArg Prod.snd progress
      refine ⟨id, index, amount, dataId, ?_⟩
      rw [List.flatten_append, ← buffer, List.flatten_singleton]

theorem api_documented : api.Documented where
  asks fetching _ requested := by
    obtain ⟨id, index, amount, dataId, buffer⟩ := api_fetching fetching
    obtain ⟨some, same⟩ := Option.ite_none_left_eq_some.mp requested
    cases same
    subst id index amount dataId
    rw [← buffer]
    exact ⟨rfl, by dsimp only; omega, by dsimp only; omega⟩
  completes := by
    intro id index amount maxChunk dataId limit fetch asked got response next fetching _ progress
    obtain ⟨_, _, amount, _, buffer⟩ := api_fetching fetching
    have progress : fetch.onResponse response = (.complete, next) := progress
    unfold onResponse at progress
    dsimp only at progress
    split at progress
    · cases progress
    · cases congrArg Prod.snd progress
      have whole : (fetch.buffer ++ response.data).length = fetch.amount := by
        by_contra partly
        rw [if_neg partly] at progress
        cases progress
      rw [List.flatten_append, List.flatten_singleton, ← buffer]
      exact ⟨rfl, whole.trans amount⟩

end BufferedFetch

namespace Transfer

open TransferState

variable {Fetch : Type} {s t : Transfer Fetch} {i : Nat} {call : TransferCall}

structure Kept (s : Transfer Fetch) : Prop where
  sound : s.state.Sound
  opened : s.opened.Pairwise (· < ·)
  fresh : ∀ id ∈ s.opened, ∀ next, s.state.nextStream = some next → id < next
  owned : ∀ entry ∈ s.state.pending, ∃ call, s.calls[entry.2.answer]? = some call ∧ call.generation = entry.2.generation

/-- The state may lose requests, and the stream ids may go on. -/
theorem Kept.fewer (kept : s.Kept) {pending : List (Nat × PendingFetch Fetch)} {nextStream : Option Nat}
    (sublist : pending.Sublist s.state.pending)
    (fresh : ∀ id ∈ s.opened, ∀ next, nextStream = some next → id < next) :
    Kept { s with state := { s.state with pending, nextStream } } where
  sound := kept.sound.fewer pending nextStream sublist
  opened := kept.opened
  fresh := fresh
  owned entry member := kept.owned entry (sublist.subset member)

theorem Kept.setCall (kept : s.Kept) (atCall : s.calls[i]? = some call) {next : TransferCall}
    (same : next.generation = call.generation) : (s.setCall i next).Kept := by
  refine ⟨kept.sound, kept.opened, kept.fresh, fun entry member => ?_⟩
  obtain ⟨owner, found, generation⟩ := kept.owned entry member
  by_cases here : i = entry.2.answer
  · subst here
    have : owner = call := Option.some.inj (found.symm.trans atCall)
    subst this
    obtain ⟨bound, _⟩ := List.getElem?_eq_some_iff.mp found
    exact ⟨next, List.getElem?_set_self bound, same.trans generation⟩
  · exact ⟨owner, (List.getElem?_set_ne here).trans found, generation⟩

/-- What the steps on single requests keep: the invariant, and the selections that are served. -/
structure Stays (s t : Transfer Fetch) : Prop where
  kept : t.Kept
  serving : Serving s.state t.state

theorem Kept.atStage (kept : s.Kept) (atCall : s.calls[i]? = some call) (stage : CallStage) :
    Stays s (s.atStage i call stage) where
  kept := kept.setCall atCall rfl
  serving := ⟨rfl, rfl, rfl, rfl⟩

theorem Stays.atStage (stays : Stays s t) (atCall : t.calls[i]? = some call) (stage : CallStage) :
    Stays s (t.atStage i call stage) where
  kept := stays.kept.setCall atCall rfl
  serving := ⟨stays.serving.generation, stays.serving.closed, stays.serving.stream, stays.serving.retiring⟩

/-- The stream id that is granted is above all that were opened, and there is room for the request. -/
structure Granted (s : Transfer Fetch) (id bytes : Nat) : Prop where
  above : ∀ old ∈ s.opened, old < id
  below : ∀ next, s.state.nextStream = some next → id < next
  few : s.state.pending.length < maxPending
  budget : bytes + reserved s.state.pending ≤ maxBuffered

theorem Kept.allocate (kept : s.Kept) (gone : Nat → Bool) (bytes : Nat) :
    Stays s { s with state := (s.state.allocate gone bytes).1 } ∧
      ∀ id, (s.state.allocate gone bytes).2 = some id → Granted { s with state := (s.state.allocate gone bytes).1 } id bytes := by
  obtain ⟨nextStream, isState, granted⟩ := @allocate_spec Fetch s.state gone bytes
  obtain ⟨fresh, above⟩ := allocate_fresh kept.fresh gone bytes
  refine ⟨⟨?_, ?_⟩, fun id isGranted => ?_⟩
  · rw [isState] at fresh ⊢
    exact kept.fewer List.filter_sublist fresh
  · rw [isState]
    exact ⟨rfl, rfl, rfl, rfl⟩
  · rw [isGranted] at granted
    exact ⟨(above id isGranted).1, (above id isGranted).2, granted.2.2.1, granted.2.2.2⟩

theorem Kept.submit (kept : s.Kept) (atCall : s.calls[i]? = some call) (request : FileContentsRequest)
    (operation : TransferOperation Fetch) {bytes : Nat} (granted : s.Granted request.streamId bytes)
    (serves : s.state.servable call.generation = true) : Stays s (s.submit i call request operation bytes) := by
  unfold Transfer.submit
  dsimp only
  split
  · have left : (s.state.removePending request.streamId).pending.Sublist s.state.pending := List.filter_sublist
    have room := reserved_sublist left
    have few := granted.few
    have budget := granted.budget
    have length := left.length_le
    have sound : (s.state.insertPending request.streamId ⟨call.generation, operation, i, bytes⟩).Sound :=
      kept.sound.insertPending serves (by omega) (by dsimp only; omega)
    have entered : Kept { s with
        state := s.state.insertPending request.streamId ⟨call.generation, operation, i, bytes⟩
        opened := s.opened ++ [request.streamId] } := by
      refine ⟨sound, ?_, fun id member next same => ?_, fun entry member => ?_⟩
      · refine List.pairwise_append.mpr ⟨kept.opened, List.pairwise_singleton _ _, fun old isOld new isNew => ?_⟩
        rw [List.mem_singleton.mp isNew]
        exact granted.above old isOld
      · rcases List.mem_append.mp member with old | new
        · exact kept.fresh id old next same
        · rw [List.mem_singleton.mp new]
          exact granted.below next same
      · rcases List.mem_append.mp member with old | new
        · exact kept.owned entry (left.subset old)
        · rw [List.mem_singleton.mp new]
          exact ⟨call, atCall, rfl⟩
    exact ⟨entered.setCall atCall rfl, ⟨rfl, rfl, rfl, rfl⟩⟩
  · exact kept.atStage atCall _

theorem Kept.submitSize (kept : s.Kept) (atCall : s.calls[i]? = some call) : Stays s (s.submitSize i call) := by
  unfold Transfer.submitSize
  split
  · rename_i selection serves _
    split
    · exact kept.atStage atCall _
    · split
      · split
        · exact kept.atStage atCall _
        · exact kept.atStage atCall _
      · exact kept.atStage atCall _
      · rename_i index _ _
        have allocated := kept.allocate s.gone 8
        split
        · rename_i state refused
          rw [refused] at allocated
          exact allocated.1.atStage atCall _
        · rename_i state id granted
          rw [granted] at allocated
          have serves := (allocated.1.serving.servable call.generation).trans serves
          have submitted := allocated.1.kept.submit atCall ⟨id, index, true, false, 0, 8, selection.dataId⟩
            (.size call.inode) (allocated.2 id rfl) serves
          exact ⟨submitted.kept, allocated.1.serving.trans submitted.serving⟩
  · exact kept.atStage atCall _

theorem Kept.submitRange {api : ChunkedFetchApi Fetch} (documented : api.Documented) (kept : s.Kept)
    (atCall : s.calls[i]? = some call) (maxChunk position size : Nat) :
    Stays s (s.submitRange api maxChunk i call position size) := by
  unfold Transfer.submitRange
  split
  · rename_i serves _
    have serves := (Bool.and_eq_true_iff.mp serves).1
    split
    · exact kept.atStage atCall _
    · split
      · exact kept.atStage atCall _
      · exact kept.atStage atCall _
      · rename_i index known _ _
        dsimp only
        split
        · exact kept.atStage atCall _
        · have allocated := kept.allocate s.gone (min (known - position) size)
          split
          · rename_i state refused
            rw [refused] at allocated
            exact allocated.1.atStage atCall _
          · rename_i state id granted
            rw [granted] at allocated
            split
            · exact allocated.1.atStage atCall _
            · rename_i request fetch requested
              have isId : request.streamId = id := congrArg FileContentsRequest.streamId (documented.first requested)
              have serves := (allocated.1.serving.servable call.generation).trans serves
              have granted := allocated.2 id rfl
              have submitted := allocated.1.kept.submit atCall { request with position } (.range position fetch)
                (isId ▸ granted) serves
              exact ⟨submitted.kept, allocated.1.serving.trans submitted.serving⟩
  · exact kept.atStage atCall _

theorem Stays.setCall (stays : Stays s t) (atCall : t.calls[i]? = some call) {next : TransferCall}
    (same : next.generation = call.generation) : Stays s (t.setCall i next) where
  kept := stays.kept.setCall atCall same
  serving := ⟨stays.serving.generation, stays.serving.closed, stays.serving.stream, stays.serving.retiring⟩

theorem Stays.answer (stays : Stays s t) (i : Nat) (result : Option TransferValue) : Stays s (t.answer i result) := by
  unfold Transfer.answer
  split
  · exact stays
  · rename_i call atCall
    split
    · exact stays.atStage atCall _
    · exact stays

theorem Stays.recordResponse (stays : Stays s t) (i : Nat) (response : FileContentsResponse) :
    Stays s (t.recordResponse i response) := by
  unfold Transfer.recordResponse
  split
  · exact stays
  · rename_i call atCall
    exact stays.setCall atCall rfl

theorem Stays.recordRequest (stays : Stays s t) (i : Nat) (request : FileContentsRequest) :
    Stays s (t.recordRequest i request) := by
  unfold Transfer.recordRequest
  split
  · exact stays
  · rename_i call atCall
    exact stays.setCall atCall rfl

theorem Kept.removePending (kept : s.Kept) (id : Nat) : Stays s { s with state := s.state.removePending id } :=
  ⟨kept.fewer List.filter_sublist kept.fresh, ⟨rfl, rfl, rfl, rfl⟩⟩

theorem Stays.onSize (stays : Stays s t) (pending : PendingFetch Fetch) (inode : Nat) (response : FileContentsResponse) :
    Stays s (t.onSize pending inode response) := by
  unfold Transfer.onSize
  split
  · exact stays.answer _ _
  · split
    · dsimp only
      obtain ⟨sound, serving⟩ := stays.kept.sound.setSize pending.generation inode (fromLeBytes response.data)
      obtain ⟨isPending, nextStream⟩ := t.state.setSize_requests pending.generation inode (fromLeBytes response.data)
      refine Stays.answer ⟨?_, stays.serving.trans serving⟩ _ _
      refine ⟨sound, stays.kept.opened, ?_, ?_⟩
      · dsimp only
        rw [nextStream]
        exact stays.kept.fresh
      · dsimp only
        rw [isPending]
        exact stays.kept.owned
    · exact stays.answer _ _

/-- A fetch that goes on takes its place among the requests again. -/
theorem Kept.reinsert (kept : s.Kept) {id : Nat} {pending : PendingFetch Fetch} (member : (id, pending) ∈ s.state.pending)
    (operation : TransferOperation Fetch) :
    Stays s { s with state := (s.state.removePending id).insertPending id { pending with operation } } := by
  obtain ⟨few, budget⟩ := removePending_room member
  have left : ((s.state.removePending id).removePending id).pending.Sublist (s.state.removePending id).pending :=
    List.filter_sublist
  have length := left.length_le
  have room := reserved_sublist left
  have withinFew := kept.sound.few
  have withinBudget := kept.sound.budget
  have removed := kept.removePending id
  have sound : ((s.state.removePending id).insertPending id { pending with operation }).Sound :=
    @Sound.insertPending Fetch (s.state.removePending id) removed.kept.sound id { pending with operation }
      (kept.sound.served _ member) (by omega) (by dsimp only; omega)
  refine ⟨⟨sound, kept.opened, kept.fresh, fun entry isEntry => ?_⟩, ⟨rfl, rfl, rfl, rfl⟩⟩
  rcases List.mem_append.mp isEntry with old | new
  · exact removed.kept.owned entry (left.subset old)
  · rw [List.mem_singleton.mp new]
    obtain ⟨owner, found, generation⟩ := kept.owned _ member
    exact ⟨owner, found, generation⟩

theorem Kept.onResponse (kept : s.Kept) (api : ChunkedFetchApi Fetch) (response : FileContentsResponse) :
    Stays s (s.onResponse api response) := by
  unfold Transfer.onResponse
  split
  · exact ⟨kept, ⟨rfl, rfl, rfl, rfl⟩⟩
  · rename_i pending found
    have member := List.mem_of_lookup found
    have removed := kept.removePending response.streamId
    dsimp only
    split
    · exact removed
    · split
      · exact removed.onSize _ _ _
      · unfold Transfer.onRange
        split
        · exact removed.answer _ _
        · exact (removed.recordResponse _ _).answer _ _
        · split
          · exact removed.answer _ _
          · dsimp only
            split
            · exact ((kept.reinsert member _).recordResponse _ _).recordRequest _ _
            · exact removed.answer _ _

theorem Kept.receive (kept : s.Kept) (atCall : s.calls[i]? = some call) (step : s.receive i call = some t) : Stays s t := by
  unfold Transfer.receive at step
  split at step
  · cases step
    exact kept.atStage atCall _
  · cases step
    exact kept.atStage atCall _
  · cases step
    exact kept.atStage atCall _
  · split at step
    · cases step
      exact kept.atStage atCall _
    · cases step
  · cases step

theorem Kept.moves (kept : s.Kept) {state : TransferState Fetch} (moves : Moves s.state state) (sound : state.Sound) :
    Kept { s with state } where
  sound := sound
  opened := kept.opened
  fresh id member next same := kept.fresh id member next (moves.nextStream ▸ same)
  owned entry member := kept.owned entry (moves.pending.subset member)

theorem Kept.addCall (kept : s.Kept) (call : TransferCall) : Stays s { s with calls := s.calls ++ [call] } := by
  refine ⟨⟨kept.sound, kept.opened, kept.fresh, fun entry member => ?_⟩, ⟨rfl, rfl, rfl, rfl⟩⟩
  obtain ⟨owner, found, generation⟩ := kept.owned entry member
  obtain ⟨bound, _⟩ := List.getElem?_eq_some_iff.mp found
  exact ⟨owner, (List.getElem?_append_left bound).trans found, generation⟩

/-- The generations can still be counted where a step goes on to the next one. -/
def Countable (s : Transfer Fetch) : Action → Prop
  | .capabilities _ _ _ | .retireGeneration | .releaseLocks _ | .close | .acceptFor _ _ _ => s.state.generation < u64Max
  | _ => True

instance (s : Transfer Fetch) : DecidablePred s.Countable := fun action => by
  cases action <;> unfold Countable <;> infer_instance

/-- A step keeps to the selections that are served, or it moves them and leaves the calls as they are. -/
theorem Kept.next {api : ChunkedFetchApi Fetch} (documented : api.Documented) {maxEntries maxChunk : Nat} {action : Action}
    (kept : s.Kept) (countable : s.Countable action) (step : s.next api maxEntries maxChunk action = some t) :
    Stays s t ∨ (t.Kept ∧ Moves s.state t.state ∧ t.calls = s.calls) := by
  have sound := kept.sound
  cases action with
  | tick clock =>
    cases step
    refine .inl ⟨⟨?_, kept.opened, kept.fresh, kept.owned⟩, ⟨rfl, rfl, rfl, rfl⟩⟩
    exact ⟨sound.served, sound.few, sound.budget, sound.fewRetired, sound.retired, sound.ordered, sound.older⟩
  | capabilities stream huge locking =>
    cases step
    obtain ⟨moves, sound⟩ := capabilities_moves sound countable stream huge locking
    exact .inr ⟨kept.moves moves sound, moves, rfl⟩
  | retireGeneration =>
    cases step
    obtain ⟨moves, sound⟩ := retireGeneration_moves sound countable
    exact .inr ⟨kept.moves moves sound, moves, rfl⟩
  | releaseLocks dataIds =>
    cases step
    obtain ⟨moves, sound⟩ := releaseLocks_moves sound countable dataIds
    exact .inr ⟨kept.moves moves sound, moves, rfl⟩
  | close =>
    cases step
    obtain ⟨moves, sound⟩ := close_moves sound countable
    exact .inr ⟨kept.moves moves sound, moves, rfl⟩
  | acceptFor expected files dataId =>
    obtain ⟨moves, sound⟩ := acceptFor_moves sound countable maxEntries expected files dataId
    dsimp only [Transfer.next] at step
    split at step
    · rename_i state accepted
      rw [accepted] at moves sound
      cases step
      exact .inr ⟨kept.moves moves sound, moves, rfl⟩
    · rename_i state generation rest accepted
      rw [accepted] at moves sound
      cases step
      have kept := kept.moves moves sound
      exact .inr ⟨⟨kept.sound, kept.opened, kept.fresh, kept.owned⟩, moves, rfl⟩
  | size generation inode =>
    cases step
    exact .inl (kept.addCall _)
  | read generation inode position size =>
    cases step
    exact .inl (kept.addCall _)
  | submitSize i =>
    obtain ⟨call, atCall, step⟩ := Option.bind_eq_some_iff.mp step
    obtain ⟨_, same⟩ := Option.ite_none_right_eq_some.mp step
    cases same
    exact .inl (kept.submitSize atCall)
  | submitRange i =>
    obtain ⟨call, atCall, step⟩ := Option.bind_eq_some_iff.mp step
    split at step
    · cases step
      exact .inl (kept.submitRange documented atCall _ _ _)
    · cases step
  | receive i =>
    obtain ⟨call, atCall, step⟩ := Option.bind_eq_some_iff.mp step
    exact .inl (kept.receive atCall step)
  | abandon i =>
    obtain ⟨call, atCall, step⟩ := Option.bind_eq_some_iff.mp step
    split at step
    · cases step
    · cases step
      exact .inl (kept.atStage atCall _)
  | onResponse response =>
    cases step
    exact .inl (kept.onResponse api response)
  | timeout id =>
    cases step
    exact .inl (kept.removePending id)
  | disconnect =>
    cases step
    exact .inl ⟨⟨sound, kept.opened, kept.fresh, kept.owned⟩, ⟨rfl, rfl, rfl, rfl⟩⟩

theorem new_kept (clock : Int) : (Transfer.new clock : Transfer Fetch).Kept where
  sound :=
    { served := nofun
      few := Nat.zero_le _
      budget := Nat.zero_le _
      fewRetired := Nat.zero_le _
      retired := nofun
      ordered := .nil
      older := nofun }
  opened := .nil
  fresh := nofun
  owned := nofun

theorem reach_kept {api : ChunkedFetchApi Fetch} (documented : api.Documented) {maxEntries maxChunk : Nat} {clock : Int}
    (reach : ((runs api maxEntries maxChunk clock).guarded Countable).Reach s) : s.Kept := by
  have kept : ((runs api maxEntries maxChunk clock).guarded Countable).Inductive Transfer.Kept :=
    ⟨fun s first => first ▸ new_kept clock, fun s action t kept step =>
      (kept.next documented step.1 step.2).elim Stays.kept And.left⟩
  exact kept.reach reach

/-- A selection that was served and never comes back. -/
def Ended (s : Transfer Fetch) (generation : Nat) : Prop :=
  s.state.closed = true ∨ (generation < s.state.generation ∧ ∀ entry ∈ s.state.retiring, entry.1 ≠ generation)

theorem Ended.servable {generation : Nat} (ended : s.Ended generation) : s.state.servable generation = false := by
  rw [← Bool.not_eq_true, servable_iff]
  rintro ⟨opened, _, current | ⟨selection, retired⟩⟩
  · rcases ended with closed | ⟨passed, _⟩
    · rw [opened] at closed
      cases closed
    · omega
  · rcases ended with closed | ⟨_, gone⟩
    · rw [opened] at closed
      cases closed
    · exact gone _ retired rfl

theorem Ended.moves {generation : Nat} (ended : s.Ended generation) (moves : Moves s.state t.state) : t.Ended generation := by
  refine ended.imp moves.closed fun ⟨passed, gone⟩ => ⟨passed.trans_le moves.generation, fun entry member => ?_⟩
  rcases moves.retiring entry member with old | ⟨new, _⟩
  · exact gone entry old
  · rw [new]
    exact passed.ne'

theorem Ended.serving {generation : Nat} (ended : s.Ended generation) (serving : Serving s.state t.state) :
    t.Ended generation := by
  refine ended.imp serving.closed.trans fun ⟨passed, gone⟩ => ⟨passed.trans_eq serving.generation.symm, fun entry member same => ?_⟩
  have key : entry.1 ∈ s.state.retiring.map (·.1) := serving.retiring ▸ List.mem_map_of_mem member
  obtain ⟨old, isOld, sameKey⟩ := List.mem_map.mp key
  exact gone old isOld (sameKey.trans same)

/-- The requests stay within their budgets and go to selections that are served; the retired
selections are few and locked; the streams of new requests ascend; and what is not served any more is
never served again, and fails the calls that wait for it. -/
theorem transfer_consistent {api : ChunkedFetchApi Fetch} (documented : api.Documented) {maxEntries maxChunk : Nat}
    {clock : Int} (reach : ((runs api maxEntries maxChunk clock).guarded Countable).Reach s) :
    (∀ entry ∈ s.state.pending, s.state.servable entry.2.generation = true) ∧
    s.state.pending.length ≤ 64 ∧ reserved s.state.pending ≤ 16 * 1024 * 1024 ∧
    s.state.retiring.length ≤ 4 ∧ (∀ entry ∈ s.state.retiring, entry.2.dataId ≠ none ∧ entry.2.tree.roots ≠ []) ∧
    s.opened.Pairwise (· < ·) ∧
    ∀ action t generation, s.Countable action → s.next api maxEntries maxChunk action = some t →
      s.state.servable generation = true → t.state.servable generation = false →
        (∀ u, (((runs api maxEntries maxChunk clock).guarded Countable).after t).Reach u → u.state.servable generation = false) ∧
        ∀ i call ranged, s.calls[i]? = some call → call.stage = .waiting ranged → call.generation = generation →
          t.calls[i]? = some call ∧ t.receive i call = some (t.fail i call) := by
  have kept := reach_kept documented reach
  have sound := kept.sound
  refine ⟨sound.served, sound.few, sound.budget, sound.fewRetired, sound.retired, kept.opened, ?_⟩
  intro action t generation countable step was now
  rcases kept.next documented countable step with stays | ⟨keptNext, moves, calls⟩
  · rw [stays.serving.servable, was] at now
    cases now
  have ended : t.Ended generation := moves.ended generation was now
  have reached : ((runs api maxEntries maxChunk clock).guarded Countable).Reach t := .next reach ⟨countable, step⟩
  refine ⟨fun u later => ?_, fun i call ranged atCall waits isGeneration => ?_⟩
  · have keeps : (((runs api maxEntries maxChunk clock).guarded Countable).after t).Inductive
        fun u => u.Kept ∧ u.Ended generation := by
      refine ⟨fun u first => first ▸ ⟨keptNext, ended⟩, fun before action after inv step => ?_⟩
      rcases inv.1.next documented step.1 step.2 with stays | ⟨keptAfter, moves, _⟩
      · exact ⟨stays.kept, inv.2.serving stays.serving⟩
      · exact ⟨keptAfter, inv.2.moves moves⟩
    exact (keeps.reach later).2.servable
  · have atNext : t.calls[i]? = some call := calls ▸ atCall
    refine ⟨atNext, ?_⟩
    unfold Transfer.receive
    rw [waits]
    dsimp only
    refine if_pos (List.all_eq_true.mpr fun entry member => ?_)
    rw [decide_eq_true_iff]
    intro mine
    obtain ⟨owner, found, same⟩ := keptNext.owned entry member
    have : owner = call := Option.some.inj (found.symm.trans (mine ▸ atNext))
    subst this
    have serves := keptNext.sound.served entry member
    rw [← same, isGeneration, now] at serves
    cases serves

/-- The client unlocks a copy that a read still waits for: the read fails. -/
theorem transfer_consistent_once : ∃ s t call, ((runs BufferedFetch.api 100 1024 0).guarded Countable).Reach s ∧
    s.state.servable 2 = true ∧ s.next BufferedFetch.api 100 1024 (.releaseLocks [7]) = some t ∧
      t.receive 0 call = some (t.fail 0 call) := by
  let file : FileDescriptor := ⟨['f'], none, none, some 4, none⟩
  let choices : List Action :=
    [.capabilities true true true, .acceptFor 1 [file] (some 7), .read 2 2 0 4, .submitSize 0, .submitRange 0,
      .acceptFor 2 [file] (some 8)]
  have run : ((StepSystem.exec
        (fun s action => if Countable s action then next BufferedFetch.api 100 1024 s action else none) (.new 0) choices).bind
      fun s => (s.next BufferedFetch.api 100 1024 (.releaseLocks [7])).bind fun t => s.calls[0]?.map fun call : TransferCall =>
        [decide (Countable s (.releaseLocks [7])), s.state.servable 2, !t.state.servable 2,
          decide (call.stage = .waiting true), decide (call.generation = 2)]) = some [true, true, true, true, true] := by
    decide
  obtain ⟨s, run, rest⟩ := Option.bind_eq_some_iff.mp run
  obtain ⟨t, step, rest⟩ := Option.bind_eq_some_iff.mp rest
  obtain ⟨call, atCall, facts⟩ := Option.map_eq_some_iff.mp rest
  obtain ⟨countable, was, now, waits, generation⟩ : s.Countable (.releaseLocks [7]) ∧ s.state.servable 2 = true ∧
      t.state.servable 2 = false ∧ call.stage = .waiting true ∧ call.generation = 2 := by
    simpa using facts
  have reach := StepSystem.guarded_exec_reach choices (.start rfl) run
  obtain ⟨_, _, _, _, _, _, ends⟩ := transfer_consistent BufferedFetch.api_documented reach
  obtain ⟨_, fails⟩ := ends _ t 2 countable step was now
  exact ⟨s, t, call, reach, was, step, (fails 0 call true atCall waits generation).2⟩

end Transfer

end HyprRdp
