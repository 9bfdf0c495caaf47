import HyprRdp.Clipboard.InboundMounts
import HyprRdp.Clipboard.TransferInvariant

namespace HyprRdp

namespace TransferState

variable {Fetch : Type} {s : TransferState Fetch}

/-- A selection that is locked on the client is the live one. -/
def LockedLive (s : TransferState Fetch) : Prop := s.current.dataId ≠ none → s.live s.generation = true

theorem bump_current (s : TransferState Fetch) : s.bump.current = s.current := by
  unfold bump
  split <;> rfl

theorem retireCurrent_current (s : TransferState Fetch) : s.retireCurrent.1.current = .none s.clock := by
  unfold retireCurrent
  dsimp only
  split
  · exact bump_current _
  · exact bump_current _

theorem shutdown_current (s : TransferState Fetch) : s.shutdown.1.current = .none s.clock := bump_current _

theorem lockedLive_of_none {t : TransferState Fetch} {clock : Int} (current : t.current = .none clock) : t.LockedLive :=
  fun locked => absurd (congrArg Selection.dataId current) locked

theorem capabilities_same {stream huge locking : Bool} (same : ¬ (s.stream ≠ stream ∨ s.huge ≠ huge ∨ s.locking ≠ locking)) :
    (s.capabilities stream huge locking).1 = s := by
  obtain ⟨sameStream, sameHuge, sameLocking⟩ : s.stream = stream ∧ s.huge = huge ∧ s.locking = locking := by
    simpa only [not_or, not_not] using same
  unfold capabilities
  rw [if_neg same, ← sameStream, ← sameHuge, ← sameLocking]

theorem capabilities_locked (locked : s.LockedLive) (stream huge locking : Bool) :
    (s.capabilities stream huge locking).1.LockedLive := by
  by_cases same : s.stream ≠ stream ∨ s.huge ≠ huge ∨ s.locking ≠ locking
  · unfold capabilities
    rw [if_pos same]
    exact lockedLive_of_none s.shutdown_current
  · rw [capabilities_same same]
    exact locked

theorem acceptFor_locked (locked : s.LockedLive) (maxEntries expected : Nat) (files : List FileDescriptor)
    (dataId : Option Nat) : (s.acceptFor maxEntries expected files dataId).1.LockedLive := by
  unfold acceptFor
  split
  · exact locked
  · dsimp only
    split
    · exact lockedLive_of_none s.retireCurrent_current
    · rename_i live
      exact fun _ => Bool.of_not_eq_false live

/-- What the release of locks does to the live selection: it ends it, and says so, or leaves it alone. -/
theorem releaseLocks_live (s : TransferState Fetch) (dataIds : List Nat) :
    (s.current.dataId ≠ none ∧ s.generation ∈ (s.releaseLocks dataIds).2 ∧
      (s.releaseLocks dataIds).1.current = .none s.clock) ∨
    ((s.releaseLocks dataIds).1.current = s.current ∧
      ∀ generation, (s.releaseLocks dataIds).1.live generation = s.live generation) := by
  unfold releaseLocks
  dsimp only
  by_cases live : covered dataIds s.current = true
  · rw [if_pos live]
    refine .inl ⟨fun none => ?_, List.mem_append_right _ List.mem_cons_self, ?_⟩
    · unfold covered at live
      rw [none] at live
      cases live
    · dsimp only
      rw [foldl_release]
      exact bump_current _
  · rw [if_neg live]
    refine .inr ?_
    dsimp only
    rw [foldl_release]
    exact ⟨rfl, fun _ => rfl⟩

theorem releaseLocks_locked (locked : s.LockedLive) (dataIds : List Nat) : (s.releaseLocks dataIds).1.LockedLive := by
  rcases s.releaseLocks_live dataIds with ⟨_, _, none⟩ | ⟨current, live⟩
  · exact lockedLive_of_none none
  · intro lockedNow
    have generation : (s.releaseLocks dataIds).1.live s.generation = true := (live _).trans (locked (current ▸ lockedNow))
    have same : (s.releaseLocks dataIds).1.generation = s.generation := by
      unfold TransferState.live at generation
      simp only [Bool.and_eq_true, decide_eq_true_eq] at generation
      exact generation.2
    exact same ▸ generation

theorem liveGeneration_eq (live : s.live s.generation = true) : s.liveGeneration = some s.generation := if_pos live

end TransferState

namespace InboundMounts

open TransferState

variable {Fetch Mount : Type} {s t : InboundMounts Fetch Mount} {fileUri : Mount → FileName → Option (List UInt8)}
  {maxEntries : Nat}

/-- No files payload is in the slot when an operation ends the live selection
without dropping what it has not published yet. -/
def Undisturbed (s : InboundMounts Fetch Mount) : ProtocolStage → Prop
  | .changing stream huge locking =>
    (s.transfer.stream ≠ stream ∨ s.transfer.huge ≠ huge ∨ s.transfer.locking ≠ locking) → s.pending.any (·.isFiles) = false
  | .accepting generation _ _ => s.transfer.live generation = true → s.pending.any (·.isFiles) = false
  | _ => True

def Calm (s : InboundMounts Fetch Mount) : Action Mount → Prop
  | .executor => s.Undisturbed s.executor
  | _ => True

/-- A stage that is about to drop what is unpublished. -/
def Drops (stage : ProtocolStage) : Prop := ∃ close, stage = .dropping close

/-- The stages that the watcher goes through. -/
def Watches : ProtocolStage → Prop
  | .idle | .retiring | .dropping false | .updating none false => True
  | _ => False

/-- The generation that was read before locks are released is that of a locked live selection. -/
def Known (s : InboundMounts Fetch Mount) (stage : ProtocolStage) : Prop :=
  ∀ current dataIds, stage = .releasing current dataIds → s.transfer.current.dataId ≠ none →
    current = some s.transfer.generation

structure Offering (s : InboundMounts Fetch Mount) : Prop where
  offer : s.pending.any (·.isFiles) = true → s.transfer.live s.owner = true ∨ Drops s.executor ∨ Drops s.watcher
  watcher : Watches s.watcher
  locked : s.transfer.LockedLive
  known : s.Known s.executor

theorem dropUnpublishedFiles_files (pending : Option PendingWrite) :
    (dropUnpublishedFiles pending).any (·.isFiles) = false := by
  unfold dropUnpublishedFiles
  by_cases files : pending.any (·.isFiles) = true
  · rw [if_pos files]
    rfl
  · rw [if_neg files]
    exact Bool.eq_false_iff.mpr files

/-- A step of an operation leaves a files payload that is live, or one that is about to be dropped. -/
theorem protocol_offer {stage after : ProtocolStage} {others : Prop} (step : s.protocol maxEntries stage = some (t, after))
    (undisturbed : s.Undisturbed stage) (known : s.Known stage)
    (offer : s.pending.any (·.isFiles) = true → s.transfer.live s.owner = true ∨ Drops stage ∨ others) :
    t.pending.any (·.isFiles) = true → t.transfer.live t.owner = true ∨ Drops after ∨ others := by
  cases stage with
  | idle => cases step
  | gone => cases step
  | retiring =>
    cases step
    exact fun _ => .inr (.inl ⟨false, rfl⟩)
  | readingGeneration dataIds =>
    cases step
    intro files
    rcases offer files with live | ⟨close, same⟩ | other
    · exact .inl live
    · cases same
    · exact .inr (.inr other)
  | releasing current dataIds =>
    cases step
    intro files
    rcases s.transfer.releaseLocks_live dataIds with ⟨locked, released, _⟩ | ⟨_, live⟩
    · have isCurrent := known current dataIds rfl locked
      refine .inr (.inl ⟨false, if_pos ?_⟩)
      rw [isCurrent]
      exact List.contains_iff_mem.mpr released
    · rcases offer files with wasLive | ⟨close, same⟩ | other
      · exact .inl ((live _).trans wasLive)
      · cases same
      · exact .inr (.inr other)
  | accepting generation files dataId =>
    intro isFiles
    dsimp only [protocol] at step
    by_cases live : s.transfer.live generation = true
    · have none := undisturbed live
      have same : t.pending = s.pending := by
        split at step
        · cases step
          rfl
        · cases step
          rfl
      rw [same, none] at isFiles
      cases isFiles
    · have refused : s.transfer.acceptFor maxEntries generation files dataId = (s.transfer, none) :=
        if_pos (Bool.eq_false_iff.mpr live)
      rw [refused] at step
      cases step
      rcases offer isFiles with wasLive | ⟨close, same⟩ | other
      · exact .inl wasLive
      · cases same
      · exact .inr (.inr other)
  | discarding stream huge locking =>
    cases step
    intro files
    rw [dropUnpublishedFiles_files] at files
    cases files
  | changing stream huge locking =>
    cases step
    intro files
    by_cases change : s.transfer.stream ≠ stream ∨ s.transfer.huge ≠ huge ∨ s.transfer.locking ≠ locking
    · exact absurd ((undisturbed change).symm.trans files) nofun
    · dsimp only
      rw [capabilities_same change]
      rcases offer files with wasLive | ⟨close, same⟩ | other
      · exact .inl wasLive
      · cases same
      · exact .inr (.inr other)
  | closing =>
    cases step
    exact fun _ => .inr (.inl ⟨true, rfl⟩)
  | dropping close =>
    cases step
    intro files
    rw [dropUnpublishedFiles_files] at files
    cases files
  | updating job close =>
    cases step
    intro files
    rcases offer files with wasLive | ⟨close, same⟩ | other
    · exact .inl wasLive
    · cases same
    · exact .inr (.inr other)

theorem protocol_locked {stage after : ProtocolStage} (step : s.protocol maxEntries stage = some (t, after))
    (locked : s.transfer.LockedLive) : t.transfer.LockedLive ∧ t.Known after := by
  cases stage with
  | idle => cases step
  | gone => cases step
  | retiring =>
    cases step
    exact ⟨lockedLive_of_none s.transfer.retireCurrent_current, nofun⟩
  | readingGeneration dataIds =>
    cases step
    refine ⟨locked, fun current other same isLocked => ?_⟩
    cases same
    exact liveGeneration_eq (locked isLocked)
  | releasing current dataIds =>
    cases step
    refine ⟨releaseLocks_locked locked dataIds, fun other more same => ?_⟩
    split at same
    · cases same
    · split at same
      · cases same
      · cases same
  | accepting generation files dataId =>
    have kept := acceptFor_locked locked maxEntries generation files dataId
    dsimp only [protocol] at step
    split at step
    · rename_i transfer refused
      rw [refused] at kept
      cases step
      exact ⟨kept, nofun⟩
    · rename_i transfer accepted rest isAccepted
      rw [isAccepted] at kept
      cases step
      exact ⟨kept, nofun⟩
  | discarding stream huge locking =>
    cases step
    exact ⟨locked, nofun⟩
  | changing stream huge locking =>
    cases step
    exact ⟨capabilities_locked locked stream huge locking, nofun⟩
  | closing =>
    cases step
    exact ⟨lockedLive_of_none s.transfer.shutdown_current, nofun⟩
  | dropping close =>
    cases step
    exact ⟨locked, nofun⟩
  | updating job close =>
    cases step
    refine ⟨locked, fun current dataIds same => ?_⟩
    split at same
    · cases same
    · cases same

/-- What a step of an operation leaves to the others. -/
theorem protocol_aside {stage after : ProtocolStage} (step : s.protocol maxEntries stage = some (t, after)) :
    t.executor = s.executor ∧ t.watcher = s.watcher ∧ t.serve = s.serve ∧ t.mounted = s.mounted ∧ t.owner = s.owner ∧
      t.attempted = s.attempted ∧ t.published = s.published := by
  cases stage with
  | accepting generation files dataId =>
    dsimp only [protocol] at step
    split at step
    · cases step
      exact ⟨rfl, rfl, rfl, rfl, rfl, rfl, rfl⟩
    · cases step
      exact ⟨rfl, rfl, rfl, rfl, rfl, rfl, rfl⟩
  | idle => cases step
  | gone => cases step
  | _ =>
    cases step
    exact ⟨rfl, rfl, rfl, rfl, rfl, rfl, rfl⟩

/-- The watcher only ever ends the live selection. -/
theorem watcher_known {stage after other : ProtocolStage} (watches : Watches stage)
    (step : s.protocol maxEntries stage = some (t, after)) (known : s.Known other) : t.Known other ∧ Watches after := by
  unfold Watches at watches
  split at watches
  · cases step
  · cases step
    exact ⟨fun _ _ _ locked => absurd (congrArg Selection.dataId s.transfer.retireCurrent_current) locked, trivial⟩
  · cases step
    exact ⟨known, trivial⟩
  · cases step
    exact ⟨known, trivial⟩
  · exact watches.elim

theorem Offering.serviceStep (offering : s.Offering) (step : s.ServiceStep t) : t.Offering := by
  obtain ⟨offer, watcher, locked, known⟩ := offering
  cases step with
  | published payload publishing live => exact ⟨fun _ => .inl live, watcher, locked, known⟩
  | _ => exact ⟨offer, watcher, locked, known⟩

theorem Offering.next {action : Action Mount} (offering : s.Offering) (calm : s.Calm action)
    (step : s.next fileUri maxEntries action = some t) : t.Offering := by
  have kept := offering
  obtain ⟨offer, watcher, locked, known⟩ := offering
  cases action with
  | tick clock =>
    cases step
    exact ⟨offer, watcher, locked, known⟩
  | call operation =>
    obtain ⟨free, same⟩ := Option.ite_none_right_eq_some.mp step
    cases same
    refine ⟨fun files => ?_, watcher, locked, fun current dataIds same => ?_⟩
    · rcases offer files with live | ⟨close, busy⟩ | other
      · exact .inl live
      · rw [free] at busy
        cases busy
      · exact .inr (.inr other)
    · cases operation <;> cases same
  | localOwner =>
    obtain ⟨free, same⟩ := Option.ite_none_right_eq_some.mp step
    cases same
    refine ⟨fun files => ?_, trivial, locked, known⟩
    rcases offer files with live | mine | ⟨close, busy⟩
    · exact .inl live
    · exact .inr (.inl mine)
    · rw [free] at busy
      cases busy
  | executor =>
    obtain ⟨⟨u, after⟩, moved, same⟩ := Option.map_eq_some_iff.mp step
    cases same
    obtain ⟨_, sameWatcher, _⟩ := protocol_aside moved
    obtain ⟨lockedAfter, knownAfter⟩ := protocol_locked moved locked
    have offered := protocol_offer moved calm known offer
    exact ⟨sameWatcher.symm ▸ offered, sameWatcher.symm ▸ watcher, lockedAfter, knownAfter⟩
  | watcher =>
    obtain ⟨⟨u, after⟩, moved, same⟩ := Option.map_eq_some_iff.mp step
    cases same
    obtain ⟨sameExecutor, _⟩ := protocol_aside moved
    obtain ⟨lockedAfter, _⟩ := protocol_locked moved locked
    obtain ⟨knownAfter, watches⟩ := watcher_known watcher moved known
    have undisturbed : s.Undisturbed s.watcher := by
      unfold Watches at watcher
      split at watcher
      · rename_i same
        rw [same]
        trivial
      · rename_i same
        rw [same]
        trivial
      · rename_i same
        rw [same]
        trivial
      · rename_i same
        rw [same]
        trivial
      · exact watcher.elim
    have knowsNothing : s.Known s.watcher := by
      intro current dataIds same
      rw [same] at watcher
      exact watcher.elim
    have offered := protocol_offer moved undisturbed knowsNothing fun files =>
      (offer files).imp_right Or.symm
    exact ⟨fun files => sameExecutor.symm ▸ (offered files).imp_right Or.symm, watches, lockedAfter, sameExecutor.symm ▸ knownAfter⟩
  | serve => exact kept.serviceStep (serveStep_service step)
  | create mount => exact kept.serviceStep (createStep_service step)
  | writeText data =>
    cases step
    exact ⟨nofun, watcher, locked, known⟩
  | writeImage data =>
    cases step
    exact ⟨nofun, watcher, locked, known⟩
  | takePending =>
    cases step
    exact ⟨nofun, watcher, locked, known⟩

/-- A files payload that is left in the slot between operations was published
for the generation that is live. -/
theorem offers_are_live {clock : Int} (reach : ((runs fileUri maxEntries clock).guarded Calm).Reach s)
    (executor : s.executor = .idle ∨ s.executor = .gone) (watcher : s.watcher = .idle)
    {uriList gnomeCopiedFiles : List UInt8} (offered : s.pending = some (.files uriList gnomeCopiedFiles)) :
    s.transfer.live s.owner = true := by
  have kept : ((runs fileUri maxEntries clock : StepSystem (InboundMounts Fetch Mount) _).guarded Calm).Inductive Offering := by
    refine ⟨fun s first => ?_, fun s action t offering step => offering.next step.1 step.2⟩
    cases first
    exact ⟨nofun, trivial, fun locked => absurd rfl locked, nofun⟩
  have files : s.pending.any (·.isFiles) = true := by
    rw [offered]
    rfl
  rcases (kept.reach reach).offer files with live | ⟨close, busy⟩ | ⟨close, busy⟩
  · exact live
  · rcases executor with idle | gone
    · exact absurd (idle.symm.trans busy) nofun
    · exact absurd (gone.symm.trans busy) nofun
  · exact absurd (watcher.symm.trans busy) nofun

instance (s : InboundMounts Fetch Mount) : DecidablePred s.Undisturbed := fun stage => by
  cases stage <;> unfold Undisturbed <;> infer_instance

instance (s : InboundMounts Fetch Mount) : DecidablePred s.Calm := fun action => by
  cases action <;> unfold Calm <;> infer_instance

/-- The steps up to a mount of the first list that is made and not published yet. -/
def mountMade : List (Action Unit) :=
  [.call (.setCapabilities true true true), .executor, .executor, .executor,
    .call (.acceptFor 1 [⟨['f'], none, none, some 4, none⟩] none), .executor, .executor, .serve, .serve, .serve, .create (some ())]

/-- The mount is published between the two steps of a change of capabilities, or before a list is
accepted in its place: nothing drops the payload of the selection that ends. -/
theorem offer_outlives_selection :
    (∃ s : InboundMounts Unit Unit, (runs (fun _ _ => some [47]) 100 0).Reach s ∧ s.executor = .idle ∧ s.watcher = .idle ∧
      s.transfer.live s.owner = false ∧ ∃ uriList gnomeCopiedFiles, s.pending = some (.files uriList gnomeCopiedFiles)) ∧
    ∃ s : InboundMounts Unit Unit, (runs (fun _ _ => some [47]) 100 0).Reach s ∧ s.executor = .idle ∧ s.watcher = .idle ∧
      s.transfer.live s.owner = false ∧ ∃ uriList gnomeCopiedFiles, s.pending = some (.files uriList gnomeCopiedFiles) := by
  have stale : ∀ more : List (Action Unit), ((StepSystem.exec (next (fun _ _ => some [47]) 100) (.new 0) (mountMade ++ more)).map
      fun s : InboundMounts Unit Unit => (decide (s.executor = .idle), decide (s.watcher = .idle), s.transfer.live s.owner, s.pending)) =
        some (true, true, false, some (.files [47, 13, 10] [99, 111, 112, 121, 10, 47])) →
      ∃ s : InboundMounts Unit Unit, (runs (fun _ _ => some [47]) 100 0).Reach s ∧ s.executor = .idle ∧ s.watcher = .idle ∧
        s.transfer.live s.owner = false ∧ ∃ uriList gnomeCopiedFiles, s.pending = some (.files uriList gnomeCopiedFiles) := by
    intro more run
    obtain ⟨s, run, facts⟩ := Option.map_eq_some_iff.mp run
    obtain ⟨executor, watcher, live, pending⟩ : decide (s.executor = .idle) = true ∧ decide (s.watcher = .idle) = true ∧
        s.transfer.live s.owner = false ∧ s.pending = some (.files [47, 13, 10] [99, 111, 112, 121, 10, 47]) := by
      simpa only [Prod.mk.injEq] using facts
    exact ⟨s, StepSystem.exec_reach _ (.start rfl) run, of_decide_eq_true executor, of_decide_eq_true watcher, live, _, _, pending⟩
  refine ⟨stale [.call (.setCapabilities false true true), .executor, .serve, .executor, .executor] (by decide), ?_⟩
  exact stale [.serve, .call (.acceptFor 2 [] none), .executor, .executor] (by decide)

/-- A mount is published with no operation under way, and its payload stays offered. -/
theorem offers_are_live_once : ∃ s : InboundMounts Unit Unit, ((runs (fun _ _ => some [47]) 100 0).guarded Calm).Reach s ∧
    s.owner = 2 ∧ s.transfer.live s.owner = true := by
  have run : ((StepSystem.exec (fun s action => if Calm s action then next (fun _ _ => some [47]) 100 s action else none) (.new 0)
      (mountMade ++ [Action.serve, .serve])).map fun s : InboundMounts Unit Unit =>
        (decide (s.executor = .idle), decide (s.watcher = .idle), s.owner, s.pending)) =
          some (true, true, 2, some (.files [47, 13, 10] [99, 111, 112, 121, 10, 47])) := by
    decide
  obtain ⟨s, run, facts⟩ := Option.map_eq_some_iff.mp run
  obtain ⟨executor, watcher, owner, pending⟩ : decide (s.executor = .idle) = true ∧ decide (s.watcher = .idle) = true ∧
      s.owner = 2 ∧ s.pending = some (.files [47, 13, 10] [99, 111, 112, 121, 10, 47]) := by
    simpa only [Prod.mk.injEq] using facts
  have reach := StepSystem.guarded_exec_reach _ (.start rfl) run
  exact ⟨s, reach, owner, offers_are_live reach (.inl (of_decide_eq_true executor)) (of_decide_eq_true watcher) pending⟩

end InboundMounts

end HyprRdp
