import HyprRdp.Clipboard.AcceptedLists
import HyprRdp.Clipboard.InboundOffers

namespace HyprRdp

namespace TransferState

variable {Fetch : Type} {s t : TransferState Fetch}

theorem servable_selection (s : TransferState Fetch) (generation : Nat) :
    s.servable generation = (s.selection generation).isSome := by
  unfold servable selection
  cases s.closed with
  | true => rfl
  | false =>
    cases s.stream with
    | false => rfl
    | true =>
      by_cases live : s.generation = generation
      · rw [if_pos ⟨rfl, rfl⟩, if_pos live]
        simp [live]
      · rw [if_pos ⟨rfl, rfl⟩, if_neg live]
        simp [live]

theorem live_servable {generation : Nat} (live : s.live generation = true) : s.servable generation = true := by
  unfold TransferState.live at live
  unfold servable
  simp only [Bool.and_eq_true, decide_eq_true_eq] at live
  simp [live]

theorem live_generation {generation : Nat} (live : s.live generation = true) :
    s.closed = false ∧ s.generation = generation := by
  unfold TransferState.live at live
  simp only [Bool.and_eq_true, Bool.not_eq_true', decide_eq_true_eq] at live
  exact ⟨live.1.1, live.2⟩

/-- How an operation ends selections: not at all, or it closes the transfer, or it goes on to
the next generation, or it leaves the live selection alone. -/
inductive Ends (s t : TransferState Fetch) (told : Prop) : Prop
  | same (unchanged : t = s)
  | closed (closed : t.closed = true)
  | passed (generation : t.generation = s.generation + 1) (tells : told)
  | others (generation : t.generation = s.generation) (live : ∀ generation, t.live generation = s.live generation)
      (tells : told)

variable {told : Prop}

/-- What was served before is served still, or the service will be told. -/
theorem Ends.servable (ends : Ends s t told) (opened : t.closed = false) {generation : Nat}
    (was : s.servable generation = true) : t.servable generation = true ∨ told := by
  cases ends with
  | same unchanged => exact .inl (unchanged ▸ was)
  | closed closed => exact absurd (closed.symm.trans opened) nofun
  | passed _ tells => exact .inr tells
  | others _ _ tells => exact .inr tells

/-- An older selection is live only if it was live before. -/
theorem Ends.live (ends : Ends s t told) {generation : Nat} (bound : generation ≤ s.generation)
    (live : t.live generation = true) : s.live generation = true := by
  obtain ⟨opened, isGeneration⟩ := live_generation live
  cases ends with
  | same unchanged => exact unchanged ▸ live
  | closed closed => exact absurd (closed.symm.trans opened) nofun
  | passed next _ => omega
  | others _ same _ => exact (same generation).symm.trans live

theorem ends_of_counted (counted : t.closed = false → t.generation = s.generation + 1) (tells : told) : Ends s t told := by
  cases closed : t.closed with
  | true => exact .closed closed
  | false => exact .passed (counted closed) tells

theorem shutdown_counted (s : TransferState Fetch) :
    s.shutdown.1.closed = false → s.shutdown.1.generation = s.generation + 1 := by
  obtain ⟨_, _, _, _, _, _, counted⟩ :=
    bump_generation ({ s with retiring := [], pending := [] } : TransferState Fetch).takeCurrent
  exact counted

theorem capabilities_ends (s : TransferState Fetch) (stream huge locking : Bool) (tells : told) :
    Ends s (s.capabilities stream huge locking).1 told := by
  by_cases change : s.stream ≠ stream ∨ s.huge ≠ huge ∨ s.locking ≠ locking
  · unfold capabilities
    rw [if_pos change]
    exact ends_of_counted s.shutdown_counted tells
  · exact .same (capabilities_same change)

theorem releaseLocks_ends (s : TransferState Fetch) (dataIds : List Nat) :
    Ends s (s.releaseLocks dataIds).1 ((s.releaseLocks dataIds).2 ≠ []) := by
  unfold releaseLocks
  dsimp only
  generalize (s.retiring.filter fun entry => covered dataIds entry.2).map (·.1) = retired
  by_cases live : covered dataIds s.current = true
  · rw [if_pos live]
    dsimp only
    rw [foldl_release]
    obtain ⟨_, _, _, _, _, _, counted⟩ := bump_generation (s.takeCurrent.failPending s.generation)
    exact ends_of_counted counted (by simp)
  · rw [if_neg live]
    dsimp only
    cases retired with
    | nil => exact .same rfl
    | cons first rest =>
      rw [foldl_release]
      exact .others rfl (fun _ => rfl) nofun

theorem retireCurrent_flags (s : TransferState Fetch) : s.retireCurrent.1.stream = s.stream ∧
    (s.closed = true → s.retireCurrent.1.closed = true) := by
  have bumped : ∀ t : TransferState Fetch, t.bump.stream = t.stream ∧ (t.closed = true → t.bump.closed = true) := by
    intro t
    unfold TransferState.bump
    split
    · exact ⟨rfl, id⟩
    · exact ⟨rfl, fun _ => rfl⟩
  unfold retireCurrent
  dsimp only
  split
  · exact bumped _
  · exact bumped _

theorem acceptFor_ends (s : TransferState Fetch) (maxEntries expected : Nat) (files : List FileDescriptor)
    (dataId : Option Nat) : Ends s (s.acceptFor maxEntries expected files dataId).1
      ((s.acceptFor maxEntries expected files dataId).2 ≠ none) := by
  unfold acceptFor
  by_cases dead : s.live expected = false
  · rw [if_pos dead]
    exact .same rfl
  · rw [if_neg dead]
    obtain ⟨_, counted, _⟩ := s.retireCurrent_shifts
    dsimp only
    by_cases shut : s.retireCurrent.1.live s.retireCurrent.1.generation = false
    · rw [if_pos shut]
      refine .closed ?_
      have streams : s.stream = true := by
        have live := Bool.of_not_eq_false dead
        unfold TransferState.live at live
        simp only [Bool.and_eq_true] at live
        exact live.1.2
      unfold TransferState.live at shut
      rw [s.retireCurrent_flags.1, streams] at shut
      simpa using shut
    · rw [if_neg shut]
      exact ends_of_counted counted nofun

theorem bump_closed (closed : s.closed = true) : s.bump.closed = true := by
  unfold bump
  split
  · exact closed
  · rfl

theorem capabilities_closed (closed : s.closed = true) (stream huge locking : Bool) :
    (s.capabilities stream huge locking).1.closed = true := by
  by_cases change : s.stream ≠ stream ∨ s.huge ≠ huge ∨ s.locking ≠ locking
  · unfold capabilities
    rw [if_pos change]
    exact @bump_closed _ ({ s with retiring := [], pending := [] } : TransferState Fetch).takeCurrent closed
  · rw [capabilities_same change]
    exact closed

theorem releaseLocks_closed (closed : s.closed = true) (dataIds : List Nat) : (s.releaseLocks dataIds).1.closed = true := by
  unfold releaseLocks
  dsimp only
  by_cases live : covered dataIds s.current = true
  · rw [if_pos live]
    dsimp only
    rw [foldl_release]
    exact @bump_closed _ (s.takeCurrent.failPending s.generation) closed
  · rw [if_neg live]
    dsimp only
    rw [foldl_release]
    exact closed

theorem acceptFor_closed (closed : s.closed = true) (maxEntries expected : Nat) (files : List FileDescriptor)
    (dataId : Option Nat) : s.acceptFor maxEntries expected files dataId = (s, none) := by
  refine if_pos ?_
  unfold TransferState.live
  rw [closed]
  rfl

end TransferState

namespace InboundMounts

open TransferState

variable {Fetch Mount : Type} {s t : InboundMounts Fetch Mount} {fileUri : Mount → FileName → Option (List UInt8)}
  {maxEntries : Nat}

/-- A stage between a change of the selections and the update of the service. -/
def Updates (stage : ProtocolStage) : Prop := (∃ close, stage = .dropping close) ∨ ∃ job close, stage = .updating job close

/-- The service has been told of a change, or is about to be. -/
def Told (s : InboundMounts Fetch Mount) : Prop := s.service.dirty = true ∨ Updates s.executor ∨ Updates s.watcher

/-- The service knows of the job, or has tried it. -/
def Underway (s : InboundMounts Fetch Mount) (job : MountJob) : Prop :=
  (∃ close, s.executor = .updating (some job) close) ∨ s.service.job = some job ∨ (∃ left, s.serve = .retaining left (some job)) ∨
    s.serve = .checking job ∨ s.serve = .creating job ∨ job.generation ∈ s.attempted

structure Following (s : InboundMounts Fetch Mount) : Prop where
  watcher : Watches s.watcher
  job : s.service.job ≠ none → s.service.dirty = true
  mounted : ∀ held ∈ s.mounted, s.transfer.closed = false → s.transfer.servable held.1 = true ∨ s.Told
  inserting : ∀ generation mount, s.serve = .inserting generation mount → s.transfer.closed = false →
    s.transfer.servable generation = true ∨ s.Told
  generations : ∀ job ∈ s.accepted, job.generation ≤ s.transfer.generation
  ordered : s.accepted.Pairwise fun earlier later => earlier.generation < later.generation
  last : ∀ job close, s.executor = .updating (some job) close → s.accepted.getLast? = some job
  underway : ∀ job ∈ s.accepted, job.roots ≠ [] → s.transfer.live job.generation = true → s.Underway job
  closing : (s.service.closed = true ∨ s.executor = .dropping true ∨ ∃ job, s.executor = .updating job true) →
    s.transfer.closed = true
  gone : s.executor = .gone → s.service.closed = true
  ended : s.serve = .ended → s.mounted = []

/-- The service works for the job at this stage. -/
def InHand (job : MountJob) : ServeStage Mount → Prop
  | .retaining _ taken => taken = some job
  | .checking taken | .creating taken => taken = job
  | _ => False

theorem underway_of_inHand {job : MountJob} (hand : InHand job s.serve) : s.Underway job := by
  cases stage : s.serve with
  | retaining left taken =>
    rw [stage] at hand
    cases hand
    exact .inr (.inr (.inl ⟨left, stage⟩))
  | checking taken =>
    rw [stage] at hand
    cases hand
    exact .inr (.inr (.inr (.inl stage)))
  | creating taken =>
    rw [stage] at hand
    cases hand
    exact .inr (.inr (.inr (.inr (.inl stage))))
  | waiting | publishing taken mount | inserting generation mount | ended =>
    rw [stage] at hand
    exact hand.elim

/-- A job is known outside the service's thread, or the thread has it in hand, or it has been tried. -/
theorem Underway.cases {job : MountJob} (underway : s.Underway job) :
    (∃ close, s.executor = .updating (some job) close) ∨ s.service.job = some job ∨ InHand job s.serve ∨
      job.generation ∈ s.attempted := by
  rcases underway with updating | known | ⟨_, same⟩ | same | same | tried
  · exact .inl updating
  · exact .inr (.inl known)
  · exact .inr (.inr (.inl (same ▸ rfl)))
  · exact .inr (.inr (.inl (same ▸ rfl)))
  · exact .inr (.inr (.inl (same ▸ rfl)))
  · exact .inr (.inr (.inr tried))

theorem underway_of_attempted {job : MountJob} (tried : job.generation ∈ s.attempted) : s.Underway job :=
  .inr (.inr (.inr (.inr (.inr tried))))

/-- How a step of an operation ends selections. -/
theorem protocol_ends {stage after : ProtocolStage} (step : s.protocol maxEntries stage = some (t, after)) :
    Ends s.transfer t.transfer (Updates after) := by
  cases stage with
  | idle => cases step
  | gone => cases step
  | retiring =>
    cases step
    exact ends_of_counted s.transfer.retireCurrent_shifts.2.1 (.inl ⟨false, rfl⟩)
  | readingGeneration dataIds =>
    cases step
    exact .same rfl
  | releasing current dataIds =>
    cases step
    have ends := s.transfer.releaseLocks_ends dataIds
    have told : (s.transfer.releaseLocks dataIds).2 ≠ [] → Updates
        (if (current.any fun generation => (s.transfer.releaseLocks dataIds).2.contains generation) = true then .dropping false
        else if (s.transfer.releaseLocks dataIds).2.isEmpty = true then .idle else .updating none false) := by
      intro some
      split
      · exact .inl ⟨false, rfl⟩
      · rw [if_neg (by simpa using some)]
        exact .inr ⟨none, false, rfl⟩
    cases ends with
    | same unchanged => exact .same unchanged
    | closed closed => exact .closed closed
    | passed generation tells => exact .passed generation (told tells)
    | others generation live tells => exact .others generation live (told tells)
  | accepting generation files dataId =>
    have ends := s.transfer.acceptFor_ends maxEntries generation files dataId
    dsimp only [protocol] at step
    split at step
    · rename_i transfer refused
      rw [refused] at ends
      cases step
      cases ends with
      | same unchanged => exact .same unchanged
      | closed closed => exact .closed closed
      | passed _ tells => exact absurd rfl tells
      | others _ _ tells => exact absurd rfl tells
    · rename_i transfer next roots rest accepted
      rw [accepted] at ends
      cases step
      have told : Updates (.updating (some ⟨next, roots⟩) false) := .inr ⟨_, _, rfl⟩
      cases ends with
      | same unchanged => exact .same unchanged
      | closed closed => exact .closed closed
      | passed generation _ => exact .passed generation told
      | others generation live _ => exact .others generation live told
  | discarding stream huge locking =>
    cases step
    exact .same rfl
  | changing stream huge locking =>
    cases step
    exact s.transfer.capabilities_ends stream huge locking (.inr ⟨none, false, rfl⟩)
  | closing =>
    cases step
    exact .closed rfl
  | dropping close =>
    cases step
    exact .same rfl
  | updating job close =>
    cases step
    exact .same rfl

theorem protocol_closed {stage after : ProtocolStage} (step : s.protocol maxEntries stage = some (t, after))
    (closed : s.transfer.closed = true) : t.transfer.closed = true := by
  cases stage with
  | idle => cases step
  | gone => cases step
  | retiring =>
    cases step
    exact s.transfer.retireCurrent_flags.2 closed
  | releasing current dataIds =>
    cases step
    exact releaseLocks_closed closed dataIds
  | accepting generation files dataId =>
    dsimp only [protocol] at step
    rw [acceptFor_closed closed] at step
    cases step
    exact closed
  | changing stream huge locking =>
    cases step
    exact capabilities_closed closed stream huge locking
  | closing =>
    cases step
    rfl
  | readingGeneration dataIds | discarding stream huge locking | dropping close | updating job close =>
    cases step
    exact closed

theorem protocol_generation {stage after : ProtocolStage} (step : s.protocol maxEntries stage = some (t, after)) :
    s.transfer.generation ≤ t.transfer.generation := by
  cases stage with
  | idle => cases step
  | gone => cases step
  | retiring =>
    cases step
    exact s.transfer.retireCurrent_shifts.1.generation
  | releasing current dataIds =>
    cases step
    exact (s.transfer.releaseLocks_shifts dataIds).generation
  | accepting generation files dataId =>
    have accepts := s.transfer.acceptFor_accepts maxEntries generation files dataId
    dsimp only [protocol] at step
    split at step
    · rename_i transfer refused
      rw [refused] at accepts
      cases step
      exact accepts.generation
    · rename_i transfer next roots rest accepted
      rw [accepted] at accepts
      cases step
      have := accepts.2.generation
      dsimp only at this ⊢
      omega
  | changing stream huge locking =>
    cases step
    exact (s.transfer.capabilities_shifts stream huge locking).generation
  | closing =>
    cases step
    exact s.transfer.close_shifts.generation
  | readingGeneration dataIds | discarding stream huge locking | dropping close | updating job close =>
    cases step
    exact le_rfl

/-- The service hears of an operation in its last step only. -/
theorem protocol_service {stage after : ProtocolStage} (step : s.protocol maxEntries stage = some (t, after)) :
    (t.service = s.service ∧ after ≠ .gone ∧ ∀ job close, stage ≠ .updating job close) ∨
      ∃ job close, stage = .updating job close ∧ t.service = updateService s.service job close ∧
        after = if close then .gone else .idle := by
  cases stage with
  | idle => cases step
  | gone => cases step
  | releasing current dataIds =>
    cases step
    refine .inl ⟨rfl, ?_, nofun⟩
    split
    · exact nofun
    · split
      · exact nofun
      · exact nofun
  | accepting generation files dataId =>
    dsimp only [protocol] at step
    split at step
    · cases step
      exact .inl ⟨rfl, nofun, nofun⟩
    · cases step
      exact .inl ⟨rfl, nofun, nofun⟩
  | updating job close =>
    cases step
    exact .inr ⟨job, close, rfl, rfl, rfl⟩
  | retiring | readingGeneration dataIds | discarding stream huge locking | changing stream huge locking | closing | dropping close =>
    cases step
    exact .inl ⟨rfl, nofun, nofun⟩

/-- A list is accepted under the next generation, and its job goes to the service. -/
theorem protocol_accepted {stage after : ProtocolStage} (step : s.protocol maxEntries stage = some (t, after)) :
    (t.accepted = s.accepted ∧ ∀ job close, after ≠ .updating (some job) close) ∨
      ∃ job, t.accepted = s.accepted ++ [job] ∧ job.generation = s.transfer.generation + 1 ∧
        t.transfer.generation = s.transfer.generation + 1 ∧ after = .updating (some job) false := by
  cases stage with
  | idle => cases step
  | gone => cases step
  | releasing current dataIds =>
    cases step
    refine .inl ⟨rfl, fun job close => ?_⟩
    split
    · exact nofun
    · split
      · exact nofun
      · exact nofun
  | accepting generation files dataId =>
    have accepts := s.transfer.acceptFor_accepts maxEntries generation files dataId
    dsimp only [protocol] at step
    split at step
    · cases step
      exact .inl ⟨rfl, nofun⟩
    · rename_i transfer next roots rest accepted
      rw [accepted] at accepts
      cases step
      exact .inr ⟨_, rfl, accepts.1, accepts.2.generation, rfl⟩
  | updating job close =>
    cases step
    refine .inl ⟨rfl, fun other more => ?_⟩
    cases close
    · exact nofun
    · exact nofun
  | retiring | readingGeneration dataIds | discarding stream huge locking | changing stream huge locking | closing | dropping close =>
    cases step
    exact .inl ⟨rfl, nofun⟩

theorem protocol_told {stage after : ProtocolStage} {others : Prop} (step : s.protocol maxEntries stage = some (t, after))
    (told : s.service.dirty = true ∨ Updates stage ∨ others) : t.service.dirty = true ∨ Updates after ∨ others := by
  rcases protocol_service step with ⟨same, _, quiet⟩ | ⟨job, close, _, updated, _⟩
  · rcases told with dirty | (⟨close, dropping⟩ | ⟨job, close, updating⟩) | other
    · exact .inl (same ▸ dirty)
    · subst dropping
      cases step
      exact .inr (.inl (.inr ⟨none, close, rfl⟩))
    · exact absurd updating (quiet job close)
    · exact .inr (.inr other)
  · rw [updated]
    exact .inl rfl

theorem protocol_closing {stage after : ProtocolStage} (step : s.protocol maxEntries stage = some (t, after))
    (closing : (s.service.closed = true ∨ stage = .dropping true ∨ ∃ job, stage = .updating job true) → s.transfer.closed = true) :
    (t.service.closed = true ∨ after = .dropping true ∨ ∃ job, after = .updating job true) → t.transfer.closed = true := by
  cases stage with
  | idle => cases step
  | gone => cases step
  | closing =>
    cases step
    exact fun _ => rfl
  | dropping close =>
    cases step
    intro now
    refine closing ?_
    rcases now with closed | same | ⟨job, same⟩
    · exact .inl closed
    · cases same
    · cases same
      exact .inr (.inl rfl)
  | updating job close =>
    cases step
    intro now
    refine closing ?_
    cases close with
    | false =>
      rcases now with closed | same | ⟨job, same⟩
      · exact .inl ((Bool.or_false _).symm.trans closed)
      · cases same
      · cases same
    | true => exact .inr (.inr ⟨job, rfl⟩)
  | releasing current dataIds =>
    have kept := protocol_closed step
    cases step
    intro now
    refine kept (closing ?_)
    rcases now with closed | same | ⟨job, same⟩
    · exact .inl closed
    · split at same
      · cases same
      · split at same
        · cases same
        · cases same
    · split at same
      · cases same
      · split at same
        · cases same
        · cases same
  | accepting generation files dataId =>
    have kept := protocol_closed step
    dsimp only [protocol] at step
    split at step
    · cases step
      intro now
      refine kept (closing ?_)
      rcases now with closed | same | ⟨job, same⟩
      · exact .inl closed
      · cases same
      · cases same
    · cases step
      intro now
      refine kept (closing ?_)
      rcases now with closed | same | ⟨job, same⟩
      · exact .inl closed
      · cases same
      · cases same
  | retiring | readingGeneration dataIds | discarding stream huge locking | changing stream huge locking =>
    have kept := protocol_closed step
    cases step
    intro now
    refine kept (closing ?_)
    rcases now with closed | same | ⟨job, same⟩
    · exact .inl closed
    · cases same
    · cases same

/-- A mount that is served, or of which the service will be told, stays one through a step of an operation. -/
theorem protocol_mounts {stage after : ProtocolStage}
    (step : s.protocol maxEntries stage = some (t, after)) {generation : Nat} {others : Prop}
    (was : s.transfer.closed = false → s.transfer.servable generation = true ∨ s.service.dirty = true ∨ Updates stage ∨ others)
    (opened : t.transfer.closed = false) :
    t.transfer.servable generation = true ∨ t.service.dirty = true ∨ Updates after ∨ others := by
  have openedBefore : s.transfer.closed = false :=
    Bool.eq_false_iff.mpr fun closed => absurd ((protocol_closed step closed).symm.trans opened) nofun
  rcases was openedBefore with serves | told
  · rcases (protocol_ends step).servable opened serves with still | tells
    · exact .inl still
    · exact .inr (.inr (.inl tells))
  · exact .inr (protocol_told step told)

theorem updateService_job (service : MountService) (job : Option MountJob) (close : Bool) :
    (updateService service job close).dirty = true ∧
      ((updateService service job close).job = service.job ∧ job = none ∨ (updateService service job close).job = job) := by
  cases job with
  | none => exact ⟨rfl, .inl ⟨rfl, rfl⟩⟩
  | some job => exact ⟨rfl, .inr rfl⟩

theorem Following.serviceJob (following : s.Following) {stage after : ProtocolStage}
    (step : s.protocol maxEntries stage = some (t, after)) : t.service.job ≠ none → t.service.dirty = true := by
  rcases protocol_service step with ⟨same, _⟩ | ⟨job, close, _, updated, _⟩
  · rw [same]
    exact following.job
  · rw [updated]
    exact fun _ => (updateService_job _ _ _).1

/-- Only the newest job can be live: an older one's generation has passed. -/
theorem Following.newest (following : s.Following) {newest job : MountJob} (last : s.accepted.getLast? = some newest)
    (member : job ∈ s.accepted) (live : s.transfer.live job.generation = true) : newest = job := by
  obtain ⟨before, parts⟩ := List.getLast?_eq_some_iff.mp last
  rcases List.mem_append.mp (parts ▸ member) with old | new
  · have order := parts ▸ following.ordered
    have less := (List.pairwise_append.mp order).2.2 job old newest List.mem_cons_self
    have bound := following.generations newest (parts ▸ List.mem_append_right _ List.mem_cons_self)
    have isGeneration := (live_generation live).2
    omega
  · exact (List.mem_singleton.mp new).symm

/-- The executor's update hands a job to the service, and takes away none that is live. -/
theorem Following.keeps (following : s.Following) {after : ProtocolStage}
    (step : s.protocol maxEntries s.executor = some (t, after)) {job : MountJob} (member : job ∈ s.accepted)
    (rooted : job.roots ≠ []) (live : t.transfer.live job.generation = true) : Underway { t with executor := after } job := by
  obtain ⟨_, _, sameServe, _, _, sameAttempted, _⟩ := protocol_aside step
  have wasLive := (protocol_ends step).live (following.generations job member) live
  have known : (∃ close, s.executor = .updating (some job) close) ∨ s.service.job = some job →
      Underway { t with executor := after } job := by
    intro known
    rcases protocol_service step with ⟨same, _, quiet⟩ | ⟨told, more, isStage, updated, _⟩
    · rcases known with ⟨close, updating⟩ | known
      · exact absurd updating (quiet _ _)
      · exact .inr (.inl (same ▸ known))
    · refine .inr (.inl ?_)
      dsimp only
      rw [updated]
      cases told with
      | none =>
        rcases known with ⟨close, updating⟩ | known
        · cases isStage.symm.trans updating
        · exact known
      | some newest =>
        rw [following.newest (following.last newest more isStage) member wasLive]
        rfl
  rcases (following.underway job member rooted wasLive).cases with updating | isJob | hand | tried
  · exact known (.inl updating)
  · exact known (.inr isJob)
  · exact underway_of_inHand (sameServe ▸ hand)
  · exact underway_of_attempted (sameAttempted ▸ tried)

theorem Following.executor (following : s.Following) {after : ProtocolStage}
    (step : s.protocol maxEntries s.executor = some (t, after)) : Following { t with executor := after } := by
  obtain ⟨_, sameWatcher, sameServe, sameMounted, _, sameAttempted, _⟩ := protocol_aside step
  have ends := protocol_ends step
  have grows := protocol_generation step
  have earlier : ∀ job ∈ s.accepted, job.generation ≤ t.transfer.generation := fun job member =>
    (following.generations job member).trans grows
  have closing := protocol_closing step following.closing
  have serviceJob := following.serviceJob step
  refine ⟨sameWatcher ▸ following.watcher, serviceJob, ?_, ?_, ?_, ?_, ?_, ?_, closing, ?_, ?_⟩
  · intro held member opened
    have told := protocol_mounts step (following.mounted held (sameMounted ▸ member)) opened
    unfold Told
    dsimp only
    rw [sameWatcher]
    exact told
  · intro generation mount inserting opened
    have told := protocol_mounts step (following.inserting generation mount (sameServe ▸ inserting)) opened
    unfold Told
    dsimp only
    rw [sameWatcher]
    exact told
  · rcases protocol_accepted step with ⟨same, _⟩ | ⟨job, more, isNext, next, _⟩
    · exact fun job member => earlier job (same ▸ member)
    · intro other member
      rcases List.mem_append.mp (more ▸ member) with old | new
      · exact earlier other old
      · rw [List.mem_singleton.mp new]
        exact isNext.trans_le next.ge
  · rcases protocol_accepted step with ⟨same, _⟩ | ⟨job, more, isNext, _, _⟩
    · exact same ▸ following.ordered
    · dsimp only
      rw [more]
      refine List.pairwise_append.mpr ⟨following.ordered, List.pairwise_singleton _ _, fun old isOld new isNew => ?_⟩
      rw [List.mem_singleton.mp isNew]
      have := following.generations old isOld
      omega
  · rcases protocol_accepted step with ⟨_, quiet⟩ | ⟨job, more, _, _, isAfter⟩
    · exact fun job close updating => absurd updating (quiet job close)
    · intro other close updating
      dsimp only at updating ⊢
      rw [isAfter] at updating
      cases updating
      rw [more, List.getLast?_concat]
  · rcases protocol_accepted step with ⟨same, _⟩ | ⟨job, more, _, next, isAfter⟩
    · exact fun job member rooted live => following.keeps step (same ▸ member) rooted live
    · intro other member rooted live
      rcases List.mem_append.mp (more ▸ member) with old | new
      · have := following.generations other old
        have isGeneration : t.transfer.generation = other.generation := (live_generation live).2
        omega
      · rw [List.mem_singleton.mp new]
        exact .inl ⟨false, isAfter⟩
  · intro isGone
    rcases protocol_service step with ⟨_, notGone, _⟩ | ⟨job, close, _, updated, isAfter⟩
    · exact absurd isGone notGone
    · cases close with
      | false => exact absurd (isGone.symm.trans isAfter) nofun
      | true =>
        dsimp only
        rw [updated]
        exact Bool.or_true _
  · exact fun isEnded => sameMounted.trans (following.ended (sameServe ▸ isEnded))

/-- The watcher accepts nothing and closes nothing. -/
theorem watcher_quiet {stage after : ProtocolStage} (watches : Watches stage)
    (step : s.protocol maxEntries stage = some (t, after)) : Watches after ∧ t.accepted = s.accepted ∧
      t.service.job = s.service.job ∧ t.service.closed = s.service.closed := by
  unfold Watches at watches
  split at watches
  · cases step
  · cases step
    exact ⟨trivial, rfl, rfl, rfl⟩
  · cases step
    exact ⟨trivial, rfl, rfl, rfl⟩
  · cases step
    exact ⟨trivial, rfl, rfl, Bool.or_false _⟩
  · exact watches.elim

theorem Following.watcherStep (following : s.Following) {after : ProtocolStage}
    (step : s.protocol maxEntries s.watcher = some (t, after)) : Following { t with watcher := after } := by
  obtain ⟨sameExecutor, _, sameServe, sameMounted, _, sameAttempted, _⟩ := protocol_aside step
  obtain ⟨watches, sameAccepted, sameJob, sameClosed⟩ := watcher_quiet following.watcher step
  have ends := protocol_ends step
  have grows := protocol_generation step
  have serviceJob := following.serviceJob step
  refine ⟨watches, serviceJob, ?_, ?_, ?_, ?_, ?_, ?_, ?_, ?_, ?_⟩
  · intro held member opened
    have told := protocol_mounts step
      (fun opened => (following.mounted held (sameMounted ▸ member) opened).imp_right fun told => told.imp_right Or.symm) opened
    unfold Told
    dsimp only
    rw [sameExecutor]
    exact told.imp_right fun told => told.imp_right Or.symm
  · intro generation mount inserting opened
    have told := protocol_mounts step (fun opened =>
      (following.inserting generation mount (sameServe ▸ inserting) opened).imp_right fun told => told.imp_right Or.symm) opened
    unfold Told
    dsimp only
    rw [sameExecutor]
    exact told.imp_right fun told => told.imp_right Or.symm
  · exact fun job member => (following.generations job (sameAccepted ▸ member)).trans grows
  · exact sameAccepted ▸ following.ordered
  · exact fun job close updating => sameAccepted ▸ following.last job close (sameExecutor ▸ updating)
  · intro job member rooted live
    have wasLive := ends.live (following.generations job (sameAccepted ▸ member)) live
    have under := following.underway job (sameAccepted ▸ member) rooted wasLive
    unfold Underway at under ⊢
    dsimp only
    rw [sameExecutor, sameJob, sameServe, sameAttempted]
    exact under
  · intro closing
    dsimp only at closing
    rw [sameClosed, sameExecutor] at closing
    have closed := protocol_closed step (following.closing closing)
    exact closed
  · intro isGone
    dsimp only at isGone ⊢
    rw [sameClosed]
    exact following.gone (sameExecutor ▸ isGone)
  · exact fun isEnded => sameMounted.trans (following.ended (sameServe ▸ isEnded))

/-- The service's thread takes a job over, hands it on to itself, and has tried it when it lets go. -/
theorem Underway.serviceStep {job : MountJob} (underway : s.Underway job) (rooted : job.roots ≠ [])
    (live : s.transfer.live job.generation = true) (step : s.ServiceStep t) : t.Underway job := by
  have others : ∀ {u : InboundMounts Fetch Mount}, u.executor = s.executor → u.service.job = s.service.job →
      (∀ generation ∈ s.attempted, generation ∈ u.attempted) → (InHand job s.serve → u.Underway job) → u.Underway job := by
    intro u executor service attempted inHand
    rcases underway.cases with updating | known | hand | tried
    · exact .inl (executor ▸ updating)
    · exact .inr (.inl (service.trans known))
    · exact inHand hand
    · exact underway_of_attempted (attempted _ tried)
  cases step with
  | ended stage _ => exact others rfl rfl (fun _ => id) fun hand => (stage ▸ hand : InHand job .waiting).elim
  | told stage _ =>
    rcases underway.cases with updating | known | hand | tried
    · exact .inl updating
    · exact underway_of_inHand (known ▸ rfl)
    · exact (stage ▸ hand : InHand job .waiting).elim
    · exact underway_of_attempted tried
  | retained stage _ =>
    refine others rfl rfl (fun _ => id) fun hand => underway_of_inHand ?_
    rw [stage] at hand
    exact hand
  | dropped stage =>
    refine others rfl rfl (fun _ => id) fun hand => underway_of_inHand ?_
    rw [stage] at hand
    exact hand
  | settled stage => exact others rfl rfl (fun _ => id) fun hand => absurd (stage ▸ hand : InHand job (.retaining [] none)) nofun
  | taken stage =>
    refine others rfl rfl (fun _ => id) fun hand => underway_of_inHand ?_
    rw [stage] at hand
    exact Option.some.inj hand
  | skipped stage skips =>
    refine others rfl rfl (fun _ => id) fun hand => ?_
    rw [stage] at hand
    cases hand
    rcases skips with empty | dead
    · exact absurd empty rooted
    · exact absurd (dead.symm.trans live) nofun
  | checked stage _ =>
    refine others rfl rfl (fun _ => id) fun hand => underway_of_inHand ?_
    rw [stage] at hand
    exact hand
  | failed stage | made mount stage =>
    refine others rfl rfl (fun _ old => List.mem_append_left _ old) fun hand => ?_
    rw [stage] at hand
    cases hand
    exact underway_of_attempted (List.mem_append_right _ List.mem_cons_self)
  | published payload stage _ => exact others rfl rfl (fun _ => id) fun hand => (stage ▸ hand : InHand job (.publishing _ _)).elim
  | unpublished stage => exact others rfl rfl (fun _ => id) fun hand => (stage ▸ hand : InHand job (.publishing _ _)).elim
  | inserted stage => exact others rfl rfl (fun _ => id) fun hand => (stage ▸ hand : InHand job (.inserting _ _)).elim

theorem Following.serviceStep (following : s.Following) (step : s.ServiceStep t) : t.Following := by
  have goesOn : ∀ job ∈ s.accepted, job.roots ≠ [] → s.transfer.live job.generation = true → t.Underway job :=
    fun job member rooted live => (following.underway job member rooted live).serviceStep rooted live step
  obtain ⟨watcher, job, mounted, inserting, generations, ordered, last, _, closing, gone, _⟩ := following
  cases step with
  | ended stage closed => exact ⟨watcher, job, nofun, nofun, generations, ordered, last, goesOn, closing, gone, fun _ => rfl⟩
  | told stage _ =>
    exact ⟨watcher, fun some => absurd rfl some, nofun, nofun, generations, ordered, last, goesOn, closing, gone, nofun⟩
  | retained stage serves =>
    refine ⟨watcher, job, fun other member => ?_, nofun, generations, ordered, last, goesOn, closing, gone, nofun⟩
    rcases List.mem_append.mp member with old | new
    · exact mounted other old
    · rw [List.mem_singleton.mp new]
      exact fun _ => .inl ((s.transfer.servable_selection _).trans serves)
  | published payload stage live =>
    refine ⟨watcher, job, mounted, fun generation mount same _ => ?_, generations, ordered, last, goesOn, closing, gone, nofun⟩
    cases same
    exact .inl (live_servable live)
  | inserted stage =>
    refine ⟨watcher, job, fun held member => ?_, nofun, generations, ordered, last, goesOn, closing, gone, nofun⟩
    rcases List.mem_append.mp member with old | new
    · exact mounted held (List.mem_of_mem_filter old)
    · rw [List.mem_singleton.mp new]
      exact inserting _ _ stage
  | dropped _ | settled _ | taken _ | skipped _ _ | checked _ _ | failed _ | made _ _ | unpublished _ =>
    exact ⟨watcher, job, mounted, nofun, generations, ordered, last, goesOn, closing, gone, nofun⟩

theorem Following.call (following : s.Following) (free : s.executor = .idle) (operation : Operation) :
    Following { s with executor := operation.stage } := by
  have told : ∀ others, (s.service.dirty = true ∨ Updates s.executor ∨ others) →
      s.service.dirty = true ∨ Updates operation.stage ∨ others := by
    rintro others (dirty | (⟨close, busy⟩ | ⟨job, close, busy⟩) | other)
    · exact .inl dirty
    · exact absurd (free.symm.trans busy) nofun
    · exact absurd (free.symm.trans busy) nofun
    · exact .inr (.inr other)
  have fresh : ∀ job close, operation.stage ≠ .updating job close ∧ operation.stage ≠ .dropping close ∧ operation.stage ≠ .gone := by
    cases operation <;> exact fun _ _ => ⟨nofun, nofun, nofun⟩
  refine ⟨following.watcher, following.job, fun held member opened => (following.mounted held member opened).imp_right (told _),
    fun generation mount same opened => (following.inserting generation mount same opened).imp_right (told _),
    following.generations, following.ordered, fun job close updating => absurd updating (fresh _ _).1,
    fun job member rooted live => ?_, fun closing => ?_, fun isGone => absurd isGone (fresh none true).2.2, following.ended⟩
  · rcases following.underway job member rooted live with ⟨close, busy⟩ | rest
    · exact absurd (free.symm.trans busy) nofun
    · exact .inr rest
  · rcases closing with closed | dropping | ⟨job, updating⟩
    · exact following.closing (.inl closed)
    · exact absurd dropping (fresh none true).2.1
    · exact absurd updating (fresh job true).1

theorem Following.next {action : Action Mount} (following : s.Following) (step : s.next fileUri maxEntries action = some t) :
    t.Following := by
  cases action with
  | tick clock =>
    cases step
    exact ⟨following.watcher, following.job, following.mounted, following.inserting, following.generations, following.ordered,
      following.last, following.underway, following.closing, following.gone, following.ended⟩
  | call operation =>
    obtain ⟨free, same⟩ := Option.ite_none_right_eq_some.mp step
    cases same
    exact following.call free operation
  | localOwner =>
    obtain ⟨free, same⟩ := Option.ite_none_right_eq_some.mp step
    cases same
    have told : s.Told → Told { s with watcher := .retiring } := by
      rintro (dirty | mine | (⟨close, busy⟩ | ⟨job, close, busy⟩))
      · exact .inl dirty
      · exact .inr (.inl mine)
      · exact absurd (free.symm.trans busy) nofun
      · exact absurd (free.symm.trans busy) nofun
    exact ⟨trivial, following.job, fun held member opened => (following.mounted held member opened).imp_right told,
      fun generation mount same opened => (following.inserting generation mount same opened).imp_right told,
      following.generations, following.ordered, following.last, following.underway, following.closing, following.gone, following.ended⟩
  | executor =>
    obtain ⟨⟨u, after⟩, moved, same⟩ := Option.map_eq_some_iff.mp step
    cases same
    exact following.executor moved
  | watcher =>
    obtain ⟨⟨u, after⟩, moved, same⟩ := Option.map_eq_some_iff.mp step
    cases same
    exact following.watcherStep moved
  | serve => exact following.serviceStep (serveStep_service step)
  | create mount => exact following.serviceStep (createStep_service step)
  | writeText data | writeImage data | takePending =>
    cases step
    exact ⟨following.watcher, following.job, following.mounted, following.inserting, following.generations, following.ordered,
      following.last, following.underway, following.closing, following.gone, following.ended⟩

/-- Once the transfer is closed nothing is published any more, and no mount is
made but one that was past its check. -/
structure Shut (first s : InboundMounts Fetch Mount) : Prop where
  closed : s.transfer.closed = true
  published : s.published = first.published
  attempted : (s.attempted = first.attempted ∧ ∀ job, s.serve = .creating job → first.serve = .creating job) ∨
    ∃ job, first.serve = .creating job ∧ s.attempted = first.attempted ++ [job.generation] ∧ ∀ other, s.serve ≠ .creating other

theorem live_closed {transfer : TransferState Fetch} (closed : transfer.closed = true) (generation : Nat) :
    transfer.live generation = false := by
  unfold TransferState.live
  rw [closed]
  rfl

/-- A step that changes neither the history nor the stage of the service. -/
theorem Shut.aside {first : InboundMounts Fetch Mount} (shut : Shut first s) (closed : t.transfer.closed = true)
    (published : t.published = s.published) (attempted : t.attempted = s.attempted)
    (serve : ∀ job, t.serve = .creating job → s.serve = .creating job) : Shut first t where
  closed := closed
  published := published.trans shut.published
  attempted := by
    rcases shut.attempted with ⟨same, creating⟩ | ⟨job, isFirst, more, other⟩
    · exact .inl ⟨attempted.trans same, fun job isCreating => creating job (serve job isCreating)⟩
    · exact .inr ⟨job, isFirst, attempted.trans more, fun another isCreating => other another (serve another isCreating)⟩

theorem Shut.serviceStep {first : InboundMounts Fetch Mount} (shut : Shut first s) (step : s.ServiceStep t) : Shut first t := by
  have closed := shut.closed
  have tried : ∀ job, s.serve = .creating job → ∀ u : InboundMounts Fetch Mount, u.transfer = s.transfer →
      u.published = s.published → u.attempted = s.attempted ++ [job.generation] → (∀ other, u.serve ≠ .creating other) →
      Shut first u := by
    intro job creating u transfer published attempted other
    refine ⟨transfer ▸ closed, published.trans shut.published, ?_⟩
    rcases shut.attempted with ⟨same, wasCreating⟩ | ⟨_, _, _, notCreating⟩
    · refine .inr ⟨job, wasCreating job creating, ?_, other⟩
      rw [attempted, same]
    · exact absurd creating (notCreating job)
  cases step with
  | failed creating => exact tried _ creating _ rfl rfl rfl nofun
  | made mount creating => exact tried _ creating _ rfl rfl rfl nofun
  | checked _ live | published _ _ live => exact absurd ((live_closed closed _).symm.trans live) nofun
  | _ => exact shut.aside closed rfl rfl nofun

theorem Shut.next {first : InboundMounts Fetch Mount} {action : Action Mount} (shut : Shut first s)
    (step : s.next fileUri maxEntries action = some t) : Shut first t := by
  have closed := shut.closed
  cases action with
  | executor =>
    obtain ⟨⟨u, after⟩, moved, same⟩ := Option.map_eq_some_iff.mp step
    cases same
    obtain ⟨_, _, serve, _, _, attempted, published⟩ := protocol_aside moved
    have stays := protocol_closed moved closed
    exact shut.aside stays published attempted fun job same => serve ▸ same
  | watcher =>
    obtain ⟨⟨u, after⟩, moved, same⟩ := Option.map_eq_some_iff.mp step
    cases same
    obtain ⟨_, _, serve, _, _, attempted, published⟩ := protocol_aside moved
    have stays := protocol_closed moved closed
    exact shut.aside stays published attempted fun job same => serve ▸ same
  | serve => exact shut.serviceStep (serveStep_service step)
  | create mount => exact shut.serviceStep (createStep_service step)
  | call operation =>
    obtain ⟨_, same⟩ := Option.ite_none_right_eq_some.mp step
    cases same
    exact shut.aside closed rfl rfl fun _ => id
  | localOwner =>
    obtain ⟨_, same⟩ := Option.ite_none_right_eq_some.mp step
    cases same
    exact shut.aside closed rfl rfl fun _ => id
  | tick _ | writeText _ | writeImage _ | takePending =>
    cases step
    exact shut.aside closed rfl rfl fun _ => id

/-- How many steps the service has left at most when it is told to end. -/
def rank : ServeStage Mount → Nat
  | .ended => 0
  | .waiting => 1
  | .inserting _ _ => 2
  | .publishing _ _ => 3
  | .creating _ => 4
  | .checking _ => 5
  | .retaining left none => left.length + 2
  | .retaining left (some _) => left.length + 6

def Action.serves : Action Mount → Bool
  | .serve | .create _ => true
  | _ => false

/-- A service that is told to end has a step to take until it has ended. -/
theorem serve_goes_on (closed : s.service.closed = true) (running : s.serve ≠ .ended) :
    (∃ t, s.next fileUri maxEntries .serve = some t) ∨ ∀ mount, ∃ t, s.next fileUri maxEntries (.create mount) = some t := by
  dsimp only [InboundMounts.next]
  unfold InboundMounts.serveStep createStep
  cases stage : s.serve with
  | waiting => exact .inl ⟨_, if_pos closed⟩
  | retaining left job =>
    cases left with
    | nil => cases job <;> exact .inl ⟨_, rfl⟩
    | cons held left => exact .inl ⟨_, rfl⟩
  | checking job => exact .inl ⟨_, rfl⟩
  | creating job => exact .inr fun mount => ⟨_, rfl⟩
  | publishing job mount =>
    refine .inl ?_
    dsimp only
    split
    · exact ⟨_, rfl⟩
    · exact ⟨_, rfl⟩
  | inserting generation mount => exact .inl ⟨_, rfl⟩
  | ended => exact absurd stage running

theorem rank_serviceStep (closed : s.service.closed = true) (step : s.ServiceStep t) : rank t.serve < rank s.serve := by
  cases step with
  | ended stage _ =>
    rw [stage]
    exact Nat.zero_lt_one
  | told stage opened => exact absurd (closed.symm.trans opened) nofun
  | @retained _ _ job stage _ | @dropped _ _ job stage =>
    rw [stage]
    cases job with
    | none => exact Nat.lt_succ_self _
    | some job => exact Nat.lt_succ_self _
  | skipped stage _ =>
    rw [stage]
    exact (by decide : 1 < 5)
  | failed stage =>
    rw [stage]
    exact (by decide : 1 < 4)
  | unpublished stage =>
    rw [stage]
    exact (by decide : 1 < 3)
  | checked stage _ | published _ stage _ =>
    rw [stage]
    exact Nat.lt_succ_self _
  | settled stage | taken stage | made _ stage | inserted stage =>
    rw [stage]
    exact Nat.lt_succ_self _

/-- Every step of a service that is told to end brings it nearer to its end, and no other step delays it. -/
theorem rank_next {action : Action Mount} (closed : s.service.closed = true) (step : s.next fileUri maxEntries action = some t) :
    if action.serves then rank t.serve < rank s.serve else t.serve = s.serve := by
  cases action with
  | executor =>
    obtain ⟨⟨u, after⟩, moved, same⟩ := Option.map_eq_some_iff.mp step
    cases same
    exact (protocol_aside moved).2.2.1
  | watcher =>
    obtain ⟨⟨u, after⟩, moved, same⟩ := Option.map_eq_some_iff.mp step
    cases same
    exact (protocol_aside moved).2.2.1
  | serve => exact rank_serviceStep closed (serveStep_service step)
  | create mount => exact rank_serviceStep closed (createStep_service step)
  | call operation =>
    obtain ⟨_, same⟩ := Option.ite_none_right_eq_some.mp step
    cases same
    rfl
  | localOwner =>
    obtain ⟨_, same⟩ := Option.ite_none_right_eq_some.mp step
    cases same
    rfl
  | tick _ | writeText _ | writeImage _ | takePending =>
    cases step
    rfl

/-- A service that waits and has been told of all changes holds only mounts that are served, and has
tried to mount the selection that is live. After the transfer is closed nothing is published, and no
mount is made but one that was past its check. And when the closing is over the service ends, after
finitely many of its own steps and whatever comes between them, and then it holds no mount. -/
theorem mounts_follow_selections {clock : Int} (reach : (runs fileUri maxEntries clock).Reach s) :
    (s.serve = .waiting → s.service.dirty = false → s.transfer.closed = false → ¬ Updates s.executor → ¬ Updates s.watcher →
      (∀ held ∈ s.mounted, s.transfer.servable held.1 = true) ∧
      ∀ job ∈ s.accepted, job.roots ≠ [] → s.transfer.live job.generation = true → job.generation ∈ s.attempted) ∧
    (s.transfer.closed = true → ∀ t, ((runs fileUri maxEntries clock).after s).Reach t → t.published = s.published ∧
      (t.attempted = s.attempted ∨ ∃ job, s.serve = .creating job ∧ t.attempted = s.attempted ++ [job.generation])) ∧
    (s.executor = .gone → s.service.closed = true ∧ s.transfer.closed = true) ∧
    (s.service.closed = true → (s.serve = .ended → s.mounted = []) ∧
      (s.serve ≠ .ended → (∃ t, s.next fileUri maxEntries .serve = some t) ∨
        ∀ mount, ∃ t, s.next fileUri maxEntries (.create mount) = some t) ∧
      ∀ action t, s.next fileUri maxEntries action = some t →
        if action.serves then rank t.serve < rank s.serve else t.serve = s.serve) := by
  have kept : (runs fileUri maxEntries clock : StepSystem (InboundMounts Fetch Mount) _).Inductive Following := by
    refine ⟨fun s first => ?_, fun s action t following step => following.next step⟩
    cases first
    exact ⟨trivial, fun job => absurd rfl job, nofun, nofun, nofun, .nil, nofun, nofun,
      fun closing => closing.elim nofun fun more => more.elim nofun nofun, nofun, nofun⟩
  have following := kept.reach reach
  refine ⟨fun waiting clean opened executor watcher => ?_, fun closed t later => ?_, fun isGone => ?_, fun closed => ?_⟩
  · have untold : ¬ s.Told := by
      rintro (dirty | mine | others)
      · exact absurd (dirty.symm.trans clean) nofun
      · exact executor mine
      · exact watcher others
    refine ⟨fun held member => (following.mounted held member opened).resolve_right untold, fun job member rooted live => ?_⟩
    rcases following.underway job member rooted live with ⟨close, updating⟩ | known | ⟨_, same⟩ | same | same | tried
    · exact absurd (.inr ⟨_, _, updating⟩) executor
    · have dirty := following.job (known ▸ nofun)
      exact absurd (dirty.symm.trans clean) nofun
    · exact absurd (waiting.symm.trans same) nofun
    · exact absurd (waiting.symm.trans same) nofun
    · exact absurd (waiting.symm.trans same) nofun
    · exact tried
  · have shut : ((runs fileUri maxEntries clock).after s).Inductive (Shut s) := by
      refine ⟨fun t first => ?_, fun _ _ _ shut step => shut.next step⟩
      cases first
      exact ⟨closed, rfl, .inl ⟨rfl, fun _ => id⟩⟩
    obtain ⟨_, published, attempted⟩ := shut.reach later
    exact ⟨published, attempted.imp And.left fun ⟨job, creating, more, _⟩ => ⟨job, creating, more⟩⟩
  · have closed := following.gone isGone
    exact ⟨closed, following.closing (.inl closed)⟩
  · exact ⟨following.ended, serve_goes_on closed, fun action t step => rank_next closed step⟩

/-- The client's lock is released, and the service still holds the mount, for it is not told yet.
And a mount that was past its check is made after everything is closed. -/
theorem service_not_told_yet :
    (∃ s : InboundMounts Unit Unit, (runs (fun _ _ => some [47]) 100 0).Reach s ∧ s.serve = .waiting ∧ s.service.dirty = false ∧
      s.service.closed = false ∧ (2, ()) ∈ s.mounted ∧ s.transfer.servable 2 = false) ∧
    ∃ s t : InboundMounts Unit Unit, (runs (fun _ _ => some [47]) 100 0).Reach s ∧ s.executor = .gone ∧ s.attempted = [] ∧
      s.next (fun _ _ => some [47]) 100 (.create (some ())) = some t ∧ t.attempted = [2] := by
  let file : FileDescriptor := ⟨['f'], none, none, some 4, none⟩
  let upTo : List (Action Unit) :=
    [.call (.setCapabilities true true true), .executor, .executor, .executor,
      .call (.acceptFor 1 [file] (some 7)), .executor, .executor, .serve, .serve, .serve]
  refine ⟨?_, ?_⟩
  · have run : ((StepSystem.exec (next (fun _ _ => some [47]) 100) (.new 0) (upTo ++ [Action.create (some ()), .serve, .serve,
        .call (.releaseLocks [7]), .executor, .executor])).bind fun s : InboundMounts Unit Unit =>
          match s.serve with
          | .waiting => some [s.service.dirty, s.service.closed, !s.mounted.contains (2, ()), s.transfer.servable 2]
          | _ => none) = some [false, false, false, false] := by
      decide
    obtain ⟨s, run, facts⟩ := Option.bind_eq_some_iff.mp run
    split at facts
    · rename_i waiting
      obtain ⟨dirty, closed, held, served⟩ : s.service.dirty = false ∧ s.service.closed = false ∧
          (2, ()) ∈ s.mounted ∧ s.transfer.servable 2 = false := by
        simpa using facts
      exact ⟨s, StepSystem.exec_reach _ (.start rfl) run, waiting, dirty, closed, held, served⟩
    · cases facts
  · have run : ((StepSystem.exec (next (fun _ _ => some [47]) 100) (.new 0) (upTo ++ [Action.call .close, .executor, .executor, .executor])).bind
        fun s : InboundMounts Unit Unit => (s.next (fun _ _ => some [47]) 100 (.create (some ()))).map fun t =>
          (decide (s.executor = .gone), s.attempted, t.attempted)) = some (true, [], [2]) := by
      decide
    obtain ⟨s, run, rest⟩ := Option.bind_eq_some_iff.mp run
    obtain ⟨t, step, facts⟩ := Option.map_eq_some_iff.mp rest
    obtain ⟨gone, before, after⟩ : s.executor = .gone ∧ s.attempted = [] ∧ t.attempted = [2] := by
      simpa using facts
    exact ⟨s, t, StepSystem.exec_reach _ (.start rfl) run, gone, before, step, after⟩

/-- The mounts of two lists are held side by side, as long as the first one's lock is. -/
theorem mounts_follow_selections_once : ∃ s : InboundMounts Unit Unit, (runs (fun _ _ => some [47]) 100 0).Reach s ∧
    (2, ()) ∈ s.mounted ∧ s.transfer.servable 2 = true ∧ (3, ()) ∈ s.mounted ∧ s.transfer.servable 3 = true := by
  let file : FileDescriptor := ⟨['f'], none, none, some 4, none⟩
  let mount : List (Action Unit) := [.executor, .executor, .serve, .serve, .serve, .create (some ()), .serve, .serve]
  let choices : List (Action Unit) :=
    [Action.call (.setCapabilities true true true), .executor] ++ [Action.executor, .executor, .serve, .serve] ++
      Action.call (.acceptFor 1 [file] (some 7)) :: mount ++
      Action.call (.acceptFor 2 [file] (some 8)) :: [Action.executor, .executor, .serve] ++ [Action.serve, .serve, .serve, .create (some ()), .serve, .serve]
  have run : ((StepSystem.exec (next (fun _ _ => some [47]) 100) (.new 0) choices).bind fun s : InboundMounts Unit Unit =>
      match s.serve with
      | .waiting => some (s.executor, s.watcher, [s.service.dirty, s.transfer.closed, !s.mounted.contains (2, ()), !s.mounted.contains (3, ())])
      | _ => none) = some (.idle, .idle, [false, false, false, false]) := by
    decide
  obtain ⟨s, run, facts⟩ := Option.bind_eq_some_iff.mp run
  split at facts
  · rename_i waiting
    obtain ⟨executor, watcher, dirty, closed, first, second⟩ : s.executor = .idle ∧ s.watcher = .idle ∧ s.service.dirty = false ∧
        s.transfer.closed = false ∧ (2, ()) ∈ s.mounted ∧ (3, ()) ∈ s.mounted := by
      simpa using facts
    have reach := StepSystem.exec_reach _ (.start rfl) run
    have idle : ∀ {stage : ProtocolStage}, stage = .idle → ¬ Updates stage := by
      rintro stage same (⟨close, busy⟩ | ⟨job, close, busy⟩)
      · exact absurd (same.symm.trans busy) nofun
      · exact absurd (same.symm.trans busy) nofun
    obtain ⟨serves, _⟩ := (mounts_follow_selections reach).1 waiting dirty closed (idle executor) (idle watcher)
    exact ⟨s, reach, first, serves _ first, second, serves _ second⟩
  · cases facts

end InboundMounts

end HyprRdp
