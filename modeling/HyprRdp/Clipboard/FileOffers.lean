import HyprRdp.Clipboard.FileWorker

namespace HyprRdp

/-- What ends the selections frozen before it. -/
inductive Invalidation
  | freeze (generation : Nat)
  | clear
  | capabilities
  deriving DecidableEq

/-- Every freeze has the number of invalidations up to it for its generation; the newest stands first. -/
def Numbered (first : Nat) : List Invalidation → Prop
  | [] => True
  | .freeze generation :: earlier => generation = first + earlier.length + 1 ∧ Numbered first earlier
  | .clear :: earlier | .capabilities :: earlier => Numbered first earlier

theorem Numbered.tail {first : Nat} {newest : Invalidation} {earlier : List Invalidation}
    (numbered : Numbered first (newest :: earlier)) : Numbered first earlier := by
  cases newest with
  | freeze generation => exact numbered.2
  | clear => exact numbered
  | capabilities => exact numbered

/-- A freeze whose generation is the last one is the newest invalidation, and there is no other such freeze. -/
theorem Numbered.newest {first generation : Nat} {invalidations : List Invalidation} (numbered : Numbered first invalidations)
    (member : .freeze generation ∈ invalidations) :
    generation ≤ first + invalidations.length ∧
      (generation = first + invalidations.length →
        invalidations.head? = some (.freeze generation) ∧ invalidations.count (.freeze generation) = 1) := by
  induction invalidations with
  | nil => cases member
  | cons newest earlier ih =>
    have older := ih numbered.tail
    rw [List.length_cons]
    by_cases absent : .freeze generation ∈ earlier
    · have bound := (older absent).1
      exact ⟨by omega, fun last => by omega⟩
    · have same : newest = .freeze generation := ((List.mem_cons.mp member).resolve_right absent).symm
      subst same
      have number := numbered.1
      refine ⟨by omega, fun _ => ⟨rfl, ?_⟩⟩
      rw [List.count_cons_self, List.count_eq_zero_of_not_mem absent]

theorem Exchange.announced_selection {File : Type} (s : Exchange File)
    (result : FrozenSelection File × Option (ClipboardMessage File)) : (s.announced result).selection = result.1 := by
  unfold Exchange.announced
  split <;> rfl

/-- An exchange whose selections frozen so far are ended. -/
def Exchange.Invalidates {File : Type} (s : Exchange File) : Exchange.Operation File → Prop
  | .clear => True
  | .setCapabilities streamEnabled hugeFiles =>
    s.selection.streamEnabled ≠ streamEnabled ∨ s.selection.hugeFiles ≠ hugeFiles
  | _ => False

theorem Exchange.next_generation {File : Type} {s : Exchange File} {op : Exchange.Operation File} (invalidates : s.Invalidates op) :
    (s.next op).selection.generation = (s.selection.generation + 1) % 2 ^ 64 := by
  cases op with
  | clear => rfl
  | setCapabilities streamEnabled hugeFiles =>
    dsimp only [Exchange.next, FrozenSelection.setFileCapabilities]
    exact congrArg FrozenSelection.generation (if_pos invalidates)
  | _ => exact invalidates.elim

theorem Exchange.next_same_generation {File : Type} {s : Exchange File} {op : Exchange.Operation File}
    (keeps : ¬ s.Invalidates op) : (s.next op).selection.generation = s.selection.generation := by
  cases op with
  | announceFormats => rfl
  | announceFiles =>
    dsimp only [Exchange.next]
    rw [Exchange.announced_selection]
    unfold FrozenSelection.announceFileFormats
    split
    · rfl
    · split <;> rfl
  | publish generation frozen =>
    dsimp only [Exchange.next]
    rw [Exchange.announced_selection]
    unfold FrozenSelection.publishSelection
    split
    · rfl
    · split <;> rfl
  | respond ok =>
    dsimp only [Exchange.next]
    unfold FrozenSelection.fileFormatListResponse
    split <;> rfl
  | clear => exact absurd trivial keeps
  | setCapabilities streamEnabled hugeFiles =>
    dsimp only [Exchange.next, FrozenSelection.setFileCapabilities]
    exact congrArg FrozenSelection.generation (if_neg keeps)
  | setLockCapability enabled =>
    dsimp only [Exchange.next, FrozenSelection.setFileLockCapability]
    split <;> rfl
  | lock id =>
    dsimp only [Exchange.next, FrozenSelection.lockSelection]
    split
    · rfl
    · split <;> rfl
  | unlock id => rfl

namespace FileWorker

/-- The invalidation that a step makes, if it makes one. -/
def invalidation (s : FileWorker) : Action → Option Invalidation
  | .freeze => some (.freeze (s.exchange.next .clear).selection.generation)
  | .select .clear => some .clear
  | .select (.setCapabilities streamEnabled hugeFiles) =>
    if s.exchange.selection.streamEnabled ≠ streamEnabled ∨ s.exchange.selection.hugeFiles ≠ hugeFiles then
      some .capabilities
    else none
  | _ => none

/-- A step of the file worker, with the invalidations so far. Only the worker publishes a selection. -/
def record (maxChunkBytes : Nat) (s : FileWorker × List Invalidation) (action : Action) :
    Option (FileWorker × List Invalidation) :=
  match action with
  | .select (.publish _ _) => none
  | _ => (s.1.next maxChunkBytes action).map fun t => (t, (s.1.invalidation action).toList ++ s.2)

/-- The runs of the file worker from an idle state, with the invalidations made in them. -/
def offers (maxChunkBytes : Nat) (exchange : Exchange FrozenFile) : StepSystem (FileWorker × List Invalidation) Action :=
  .ofFun (start exchange, []) (record maxChunkBytes)

/-- The generations of the freezes under way, in the watcher, in the slot and in the worker. -/
def Carries (s : FileWorker) (generation : Nat) : Prop :=
  s.watcher = .invalidated generation ∨ s.watcher = .permitted generation ∨ s.selection = some generation ∨
    s.worker = .freezing generation

/-- A worker that looked at the slot in vain finds a command waiting once a
selection is parked there, or will find the wake of the freeze that parks it. -/
def NotStranded (s : FileWorker) : Prop :=
  s.selection ≠ none → s.worker = .receiving → s.commands ≠ [] ∨ s.watcher = .handedOver

structure Tracked (first : Nat) (s : FileWorker) (invalidations : List Invalidation) : Prop where
  generation : s.exchange.selection.generation = first + invalidations.length
  numbered : Numbered first invalidations
  carried : ∀ generation, s.Carries generation → .freeze generation ∈ invalidations

variable {maxChunkBytes first : Nat} {s t : FileWorker} {invalidations : List Invalidation}

theorem trySend_worker {command : FileWorkerCommand} (sent : s.trySend command = some t) :
    t.worker = s.worker ∧ t.selection = s.selection ∧ t.watcher = s.watcher ∧ t.exchange = s.exchange := by
  cases trySend_eq sent
  exact ⟨rfl, rfl, rfl, rfl⟩

/-- A wake that is refused by a live worker was refused by a full queue. -/
theorem wake_leaves_command (live : s.worker = .receiving) : ((s.trySend .wake).getD s).commands ≠ [] := by
  cases sent : s.trySend .wake with
  | some t =>
    cases trySend_eq sent
    simp
  | none =>
    unfold trySend at sent
    rw [live] at sent
    dsimp only at sent
    by_cases full : readQueueDepth ≤ s.commands.length
    · intro empty
      rw [Option.getD_none] at empty
      rw [empty] at full
      exact absurd full (by decide)
    · rw [if_neg full] at sent
      cases sent

theorem wake_fields : ((s.trySend .wake).getD s).watcher = s.watcher ∧ ((s.trySend .wake).getD s).selection = s.selection ∧
    ((s.trySend .wake).getD s).worker = s.worker ∧ ((s.trySend .wake).getD s).exchange = s.exchange := by
  cases sent : s.trySend .wake with
  | none => exact ⟨rfl, rfl, rfl, rfl⟩
  | some t =>
    obtain ⟨worker, selection, watcher, exchange⟩ := trySend_worker sent
    exact ⟨watcher, selection, worker, exchange⟩

theorem NotStranded.next {action : Action} (inv : s.NotStranded) (step : s.next maxChunkBytes action = some t) :
    t.NotStranded := by
  unfold NotStranded at inv ⊢
  cases next_step step with
  | select _ => exact inv
  | request _ _ => exact inv
  | submit _ => exact fun _ _ => .inl (by simp)
  | overflow _ => exact inv
  | refuse _ => exact inv
  | freeze idle => exact fun parked blocks => .inl ((inv parked blocks).resolve_right (by rw [idle]; nofun))
  | checkStream invalidated =>
    exact fun parked blocks => .inl ((inv parked blocks).resolve_right (by rw [invalidated]; nofun))
  | handOver _ => exact fun _ _ => .inr rfl
  | wakeWorker _ => exact fun _ blocks => .inl (wake_leaves_command (wake_fields.2.2.1.symm.trans blocks))
  | leave _ _ => exact fun _ => nofun
  | look _ => exact fun _ => nofun
  | takeSelection _ _ => exact fun parked => absurd rfl parked
  | takeNothing _ empty => exact fun parked => absurd empty parked
  | publish _ _ => exact fun _ => nofun
  | receiveWake _ _ => exact fun _ => nofun
  | receiveRead _ _ => exact fun _ => nofun
  | hangUp _ => exact fun _ => nofun
  | serve _ _ => exact fun _ => nofun
  | dropAnswer _ _ => exact fun _ => nofun
  | proceed _ => exact fun _ => nofun
  | send _ => exact fun _ => nofun
  | stop => exact inv
  | wake => exact fun _ blocks => .inl (wake_leaves_command (wake_fields.2.2.1.symm.trans blocks))
  | disconnect _ => exact inv

theorem Carries.congr {generation : Nat} (carries : t.Carries generation)
    (watcher : t.watcher = s.watcher) (selection : t.selection = s.selection)
    (worker : t.worker = s.worker) : s.Carries generation := by
  unfold Carries at carries ⊢
  rw [← watcher, ← selection, ← worker]
  exact carries

/-- What is carried by a worker that is not at a walk was carried before. -/
theorem Carries.left {generation : Nat} (carries : t.Carries generation) (watcher : t.watcher = s.watcher)
    (selection : t.selection = s.selection) (idle : ∀ generation, t.worker ≠ .freezing generation) : s.Carries generation := by
  rcases carries with invalidated | permitted | parked | walking
  · exact .inl (watcher.symm.trans invalidated)
  · exact .inr (.inl (watcher.symm.trans permitted))
  · exact .inr (.inr (.inl (selection.symm.trans parked)))
  · exact absurd walking (idle generation)

/-- A generation that is carried on was carried before, or it is that of a new freeze. -/
theorem next_carries {action : Action} {generation : Nat} (step : s.next maxChunkBytes action = some t)
    (carries : t.Carries generation) :
    s.Carries generation ∨ s.invalidation action = some (.freeze generation) := by
  cases next_step step with
  | select _ => exact .inl carries
  | request _ _ => exact .inl carries
  | submit _ => exact .inl carries
  | overflow _ => exact .inl carries
  | refuse _ => exact .inl carries
  | freeze _ =>
    rcases carries with invalidated | permitted | parked | walking
    · dsimp only at invalidated
      split at invalidated <;> cases invalidated
      exact .inr rfl
    · dsimp only at permitted
      split at permitted <;> cases permitted
    · exact .inl (.inr (.inr (.inl parked)))
    · exact .inl (.inr (.inr (.inr walking)))
  | checkStream invalidated =>
    rcases carries with again | permitted | rest
    · dsimp only at again
      split at again <;> cases again
    · dsimp only at permitted
      split at permitted <;> cases permitted
      exact .inl (.inl invalidated)
    · exact .inl (.inr (.inr rest))
  | handOver permitted =>
    rcases carries with again | again | parked | walking
    · cases again
    · cases again
    · cases parked
      exact .inl (.inr (.inl permitted))
    · exact .inl (.inr (.inr (.inr walking)))
  | wakeWorker _ =>
    obtain ⟨_, selection, worker, _⟩ := @wake_fields s
    rcases carries with again | again | parked | walking
    · cases again
    · cases again
    · exact .inl (.inr (.inr (.inl (selection.symm.trans parked))))
    · exact .inl (.inr (.inr (.inr (worker.symm.trans walking))))
  | leave _ _ => exact .inl (carries.left rfl rfl nofun)
  | look _ => exact .inl (carries.left rfl rfl nofun)
  | takeSelection _ parked =>
    rcases carries with watched | watched | again | walking
    · exact .inl (.inl watched)
    · exact .inl (.inr (.inl watched))
    · cases again
    · cases walking
      exact .inl (.inr (.inr (.inl parked)))
  | takeNothing _ _ => exact .inl (carries.left rfl rfl nofun)
  | publish _ _ => exact .inl (carries.left rfl rfl nofun)
  | receiveWake _ _ => exact .inl (carries.left rfl rfl nofun)
  | receiveRead _ _ => exact .inl (carries.left rfl rfl nofun)
  | hangUp _ => exact .inl (carries.left rfl rfl nofun)
  | serve _ _ => exact .inl (carries.left rfl rfl nofun)
  | dropAnswer _ _ => exact .inl (carries.left rfl rfl nofun)
  | proceed _ => exact .inl (carries.left rfl rfl nofun)
  | send _ => exact .inl (carries.left rfl rfl nofun)
  | stop => exact .inl carries
  | wake =>
    obtain ⟨watcher, selection, worker, _⟩ := @wake_fields s
    exact .inl (carries.congr watcher selection worker)
  | disconnect _ => exact .inl carries

theorem invalidation_select {op : Exchange.Operation FrozenFile} :
    s.invalidation (.select op) ≠ none ↔ s.exchange.Invalidates op := by
  cases op with
  | setCapabilities streamEnabled hugeFiles =>
    dsimp only [invalidation, Exchange.Invalidates]
    split
    · rename_i changed
      exact ⟨fun _ => changed, fun _ => nofun⟩
    · rename_i kept
      exact ⟨fun some => absurd rfl some, fun changed => absurd changed kept⟩
  | clear => exact ⟨fun _ => trivial, fun _ => nofun⟩
  | _ => exact ⟨fun some => absurd rfl some, False.elim⟩

/-- The generation counts the invalidations. -/
theorem next_generation {action : Action} (step : s.next maxChunkBytes action = some t) :
    t.exchange.selection.generation =
      if s.invalidation action = none then s.exchange.selection.generation
      else (s.exchange.selection.generation + 1) % 2 ^ 64 := by
  have unchanged : s.invalidation action = none → t.exchange.selection.generation = s.exchange.selection.generation →
      t.exchange.selection.generation = if s.invalidation action = none then s.exchange.selection.generation
        else (s.exchange.selection.generation + 1) % 2 ^ 64 := fun kept same => by rw [if_pos kept, same]
  cases next_step step with
  | select op =>
    split
    · rename_i kept
      exact Exchange.next_same_generation fun invalidates => (invalidation_select.mpr invalidates) kept
    · rename_i invalidates
      exact Exchange.next_generation (invalidation_select.mp invalidates)
  | freeze _ => rfl
  | publish _ _ => exact unchanged rfl (Exchange.next_same_generation id)
  | wakeWorker _ => exact unchanged rfl (congrArg (·.selection.generation) wake_fields.2.2.2)
  | wake => exact unchanged rfl (congrArg (·.selection.generation) wake_fields.2.2.2)
  | _ => exact unchanged rfl rfl

theorem invalidation_freeze {action : Action} {generation : Nat} (freezes : s.invalidation action = some (.freeze generation)) :
    generation = (s.exchange.selection.generation + 1) % 2 ^ 64 := by
  cases action with
  | freeze => exact (Invalidation.freeze.inj (Option.some.inj freezes)).symm
  | select op =>
    cases op with
    | setCapabilities streamEnabled hugeFiles => cases (Option.ite_none_right_eq_some.mp freezes).2
    | _ => cases freezes
  | _ => cases freezes

theorem Tracked.next {action : Action} (tracked : s.Tracked first invalidations) (step : s.next maxChunkBytes action = some t)
    (unwrapped : first + ((s.invalidation action).toList ++ invalidations).length < 2 ^ 64) :
    t.Tracked first ((s.invalidation action).toList ++ invalidations) := by
  have generation := next_generation step
  have carries := fun generation => @next_carries maxChunkBytes s t action generation step
  cases made : s.invalidation action with
  | none =>
    rw [made] at generation carries
    refine ⟨generation.trans tracked.generation, tracked.numbered, fun generation carried => ?_⟩
    exact tracked.carried generation ((carries generation carried).resolve_right nofun)
  | some newest =>
    rw [made] at generation carries unwrapped
    rw [if_neg nofun, tracked.generation] at generation
    rw [Option.toList_some, List.singleton_append, List.length_cons] at unwrapped
    rw [Nat.mod_eq_of_lt (by omega)] at generation
    refine ⟨?_, ?_, fun generation carried => ?_⟩
    · rw [Option.toList_some, List.singleton_append, List.length_cons, generation]
      omega
    · cases newest with
      | freeze number =>
        have number := invalidation_freeze made
        rw [tracked.generation, Nat.mod_eq_of_lt (by omega)] at number
        exact ⟨number, tracked.numbered⟩
      | clear => exact tracked.numbered
      | capabilities => exact tracked.numbered
    · rcases carries generation carried with before | new
      · exact List.mem_cons_of_mem _ (tracked.carried generation before)
      · cases new
        exact List.mem_cons_self

variable {exchange : Exchange FrozenFile}

theorem record_next {action : Action} {before after : FileWorker × List Invalidation}
    (step : record maxChunkBytes before action = some after) :
    before.1.next maxChunkBytes action = some after.1 ∧
      after.2 = (before.1.invalidation action).toList ++ before.2 := by
  have made : (before.1.next maxChunkBytes action).map
      (fun t => (t, (before.1.invalidation action).toList ++ before.2)) = some after := by
    unfold record at step
    split at step
    · cases step
    · exact step
  obtain ⟨t, next, same⟩ := Option.map_eq_some_iff.mp made
  cases same
  exact ⟨next, rfl⟩

theorem reach_offers (reach : (offers maxChunkBytes exchange).Reach (s, invalidations)) :
    s.NotStranded ∧ (exchange.selection.generation + invalidations.length < 2 ^ 64 →
      s.Tracked exchange.selection.generation invalidations) := by
  have kept : (offers maxChunkBytes exchange).Inductive fun state => state.1.NotStranded ∧
      (exchange.selection.generation + state.2.length < 2 ^ 64 → state.1.Tracked exchange.selection.generation state.2) := by
    refine ⟨fun state first => ?_, fun before action after inv step => ?_⟩
    · cases first
      refine ⟨fun parked => absurd rfl parked, fun _ => ⟨rfl, trivial, fun generation carried => ?_⟩⟩
      rcases carried with watched | watched | parked | walking
      · cases watched
      · cases watched
      · cases parked
      · cases walking
    · obtain ⟨next, made⟩ := record_next step
      refine ⟨inv.1.next next, fun unwrapped => ?_⟩
      rw [made] at unwrapped ⊢
      refine (inv.2 ?_).next next unwrapped
      rw [List.length_append] at unwrapped
      omega
  exact kept.reach reach

/-- The worker is not left waiting before a parked selection: it finds a command,
or the freeze that parks the selection is about to wake it. And what the worker
publishes is the walk of the newest freeze, which no clear and no change of the
capabilities has followed, as long as the generations have not wrapped. -/
theorem newest_freeze_published (reach : (offers maxChunkBytes exchange).Reach (s, invalidations)) :
    (s.selection ≠ none → s.worker = .receiving → s.commands ≠ [] ∨ s.watcher = .handedOver) ∧
    (exchange.selection.generation + invalidations.length < 2 ^ 64 →
      ∀ frozen t, s.next maxChunkBytes (.publish frozen) = some t → t.exchange ≠ s.exchange →
        ∃ generation, s.worker = .freezing generation ∧ invalidations.head? = some (.freeze generation) ∧
          invalidations.count (.freeze generation) = 1) := by
  obtain ⟨notStranded, tracked⟩ := reach_offers reach
  refine ⟨notStranded, fun unwrapped frozen t step published => ?_⟩
  have tracked := tracked unwrapped
  dsimp only [FileWorker.next] at step
  split at step
  · rename_i generation walking
    cases step
    refine ⟨generation, walking, (tracked.numbered.newest ?_).2 ?_⟩
    · exact tracked.carried generation (.inr (.inr (.inr walking)))
    · by_contra older
      have refused : s.exchange.selection.publishSelection generation frozen = (s.exchange.selection, none) := by
        refine if_pos (.inr fun current => older ?_)
        rw [← current, tracked.generation]
      refine published ?_
      dsimp only [Exchange.next]
      rw [refused]
      rfl
  · cases step

/-- A selection is parked while the worker is about to wait, and its wake is still to come. -/
theorem parked_before_wake : ∃ s invalidations, (offers 64 .start).Reach (s, invalidations) ∧ s.selection ≠ none ∧
    s.worker = .receiving ∧ s.commands = [] := by
  let choices : List Action :=
    [.select (.setCapabilities true true), .turn, .takeSelection, .freeze, .checkStream, .handOver]
  have run : ∃ s invalidations, StepSystem.exec (record 64) (start .start, []) choices = some (s, invalidations) ∧
      s.selection ≠ none ∧ s.worker = .receiving ∧ s.commands = [] := ⟨_, _, rfl, nofun, rfl, rfl⟩
  obtain ⟨s, invalidations, run, parked⟩ := run
  exact ⟨s, invalidations, StepSystem.exec_reach choices (.start rfl) run, parked⟩

/-- A walk that a newer freeze has overtaken is dropped, and the newer one is published. -/
theorem newest_freeze_published_once : ∃ s invalidations generation, (offers 64 .start).Reach (s, invalidations) ∧
    s.worker = .freezing generation ∧ invalidations.head? = some (.freeze generation) ∧
      invalidations.count (.freeze generation) = 1 := by
  let choices : List Action :=
    [.select (.setCapabilities true true), .freeze, .checkStream, .handOver, .wakeWorker, .turn, .takeSelection,
      .freeze, .checkStream, .handOver, .wakeWorker, .publish [⟨[4], 3, 9⟩], .turn, .takeSelection]
  have run : ∃ s invalidations t, StepSystem.exec (record 64) (start .start, []) choices = some (s, invalidations) ∧
      invalidations.length < 2 ^ 64 ∧ s.next 64 (.publish [⟨[5], 3, 10⟩]) = some t ∧
      t.exchange.unanswered ≠ s.exchange.unanswered := ⟨_, _, _, rfl, by decide, rfl, by decide⟩
  obtain ⟨s, invalidations, t, run, unwrapped, step, published⟩ := run
  have reach := StepSystem.exec_reach choices (.start rfl) run
  obtain ⟨generation, newest⟩ := (newest_freeze_published reach).2 (by rw [show Exchange.start.selection.generation = 0 from rfl]; omega)
    _ t step fun same => published (congrArg Exchange.unanswered same)
  exact ⟨s, invalidations, generation, reach, newest⟩

end FileWorker

end HyprRdp
