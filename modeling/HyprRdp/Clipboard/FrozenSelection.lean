import HyprRdp.Lib.Runs
import Mathlib.Algebra.Ring.Nat
import Mathlib.Data.List.AList

namespace HyprRdp

/-- Match the protocol owner's incoming lock limit. -/
def maxLockedSelections : Nat := 100

/-- A queued announcement; the descriptors of a file copy stand for the files themselves. -/
inductive ClipboardMessage (File : Type)
  | initiateCopy
  | initiateFileCopy (files : List File)

/-- The selection a session offers, with the snapshots that a lock may bind.
`pendingAnnouncements` is `none` after the counter overflowed. -/
structure FrozenSelection (File : Type) where
  generation : Nat
  streamEnabled : Bool
  hugeFiles : Bool
  entries : Option (List File)
  lockEnabled : Bool
  pendingAnnouncements : Option Nat
  announced : Option (List File)
  confirmed : Option (List File)
  locked : AList fun _ : Nat => List File

namespace FrozenSelection

variable {File : Type}

def default : FrozenSelection File where
  generation := 0
  streamEnabled := false
  hugeFiles := false
  entries := none
  lockEnabled := false
  pendingAnnouncements := some 0
  announced := none
  confirmed := none
  locked := ∅

def checkedSucc (n : Nat) : Option Nat := if n + 1 < 2 ^ 64 then some (n + 1) else none

def announce (current : FrozenSelection File) (files : Bool) : FrozenSelection File :=
  { current with
    pendingAnnouncements := current.pendingAnnouncements.bind checkedSucc
    confirmed := none
    announced := if files then current.entries else none }

/-- The callers of `send_format_announcement` announce formats, never files. -/
def sendFormatAnnouncement (current : FrozenSelection File) : FrozenSelection File × Option (ClipboardMessage File) :=
  (current.announce false, some .initiateCopy)

def announceFileFormats (current : FrozenSelection File) : FrozenSelection File × Option (ClipboardMessage File) :=
  if !current.streamEnabled then (current, none)
  else
    match current.entries with
    | none => (current, none)
    | some entries => (current.announce true, some (.initiateFileCopy entries))

def publishSelection (current : FrozenSelection File) (generation : Nat) (frozen : List File) :
    FrozenSelection File × Option (ClipboardMessage File) :=
  if !current.streamEnabled ∨ current.generation ≠ generation then (current, none)
  else if frozen.isEmpty then ({ current with entries := none }, none)
  else (({ current with entries := some frozen } : FrozenSelection File).announce true, some (.initiateFileCopy frozen))

def fileFormatListResponse (current : FrozenSelection File) (ok : Bool) : FrozenSelection File :=
  match current.pendingAnnouncements with
  | none => current
  | some 0 => current
  | some (pending + 1) =>
    { current with
      pendingAnnouncements := some pending
      confirmed := if pending = 0 ∧ ok = true then current.announced else current.confirmed }

def setFileCapabilities (current : FrozenSelection File) (streamEnabled hugeFiles : Bool) : FrozenSelection File :=
  if current.streamEnabled ≠ streamEnabled ∨ current.hugeFiles ≠ hugeFiles then
    { current with
      generation := (current.generation + 1) % 2 ^ 64
      entries := none
      locked := ∅
      confirmed := none
      announced := none
      streamEnabled
      hugeFiles }
  else current

def setFileLockCapability (current : FrozenSelection File) (enabled : Bool) : FrozenSelection File :=
  if enabled then { current with lockEnabled := true }
  else { current with lockEnabled := false, locked := ∅, confirmed := none }

def lockSelection (current : FrozenSelection File) (id : Nat) : FrozenSelection File :=
  if !current.streamEnabled ∨ !current.lockEnabled ∨ id ∈ current.locked ∨
      maxLockedSelections ≤ current.locked.entries.length then current
  else
    match current.confirmed with
    | none => current
    | some entries => { current with locked := current.locked.insert id entries }

def unlockSelection (current : FrozenSelection File) (id : Nat) : FrozenSelection File :=
  { current with locked := current.locked.erase id }

def clearSelection (current : FrozenSelection File) : FrozenSelection File :=
  { current with generation := (current.generation + 1) % 2 ^ 64, entries := none }

/-- The table a request reads from. -/
def table (current : FrozenSelection File) (dataId : Option Nat) : Option (List File) :=
  match dataId with
  | some id => if current.lockEnabled then current.locked.lookup id else none
  | none => current.entries

def selectedFile (current : FrozenSelection File) (dataId : Option Nat) (index : Int) : Option File :=
  if !current.streamEnabled then none
  else (current.table dataId).bind fun entries => if 0 ≤ index then entries[index.toNat]? else none

end FrozenSelection

/-- A selection in use, with what the announcements and answers so far amount
to: the last announcement, how many have no answer, and the last answer. An
answer that meets no unanswered announcement is no answer to one. -/
structure Exchange (File : Type) where
  selection : FrozenSelection File
  last : Option (ClipboardMessage File)
  unanswered : Nat
  lastAnswer : Option Bool

namespace Exchange

variable {File : Type}

inductive Operation (File : Type)
  | announceFormats
  | announceFiles
  | publish (generation : Nat) (frozen : List File)
  | respond (ok : Bool)
  | clear
  | setCapabilities (streamEnabled hugeFiles : Bool)
  | setLockCapability (enabled : Bool)
  | lock (id : Nat)
  | unlock (id : Nat)

def announced (s : Exchange File) (result : FrozenSelection File × Option (ClipboardMessage File)) : Exchange File :=
  match result.2 with
  | none => { s with selection := result.1 }
  | some message => { s with selection := result.1, last := some message, unanswered := s.unanswered + 1 }

def next (s : Exchange File) : Operation File → Exchange File
  | .announceFormats => s.announced s.selection.sendFormatAnnouncement
  | .announceFiles => s.announced s.selection.announceFileFormats
  | .publish generation frozen => s.announced (s.selection.publishSelection generation frozen)
  | .respond ok =>
    { s with
      selection := s.selection.fileFormatListResponse ok
      unanswered := s.unanswered - 1
      lastAnswer := if s.unanswered = 0 then s.lastAnswer else some ok }
  | .clear => { s with selection := s.selection.clearSelection }
  | .setCapabilities streamEnabled hugeFiles =>
    { s with selection := s.selection.setFileCapabilities streamEnabled hugeFiles }
  | .setLockCapability enabled => { s with selection := s.selection.setFileLockCapability enabled }
  | .lock id => { s with selection := s.selection.lockSelection id }
  | .unlock id => { s with selection := s.selection.unlockSelection id }

def start : Exchange File := ⟨.default, none, 0, none⟩

/-- The runs that go on from a state. -/
def runsFrom (s : Exchange File) : StepSystem (Exchange File) (Operation File) := .ofFun s fun s op => some (s.next op)

/-- Every announcement was answered, the last one with yes, and it carried this table. -/
def Confirms (s : Exchange File) (table : List File) : Prop :=
  s.last = some (.initiateFileCopy table) ∧ s.unanswered = 0 ∧ s.lastAnswer = some true

/-- The operations that end a binding: its unlock, and a capability change that clears the locks. -/
def Releases (s : Exchange File) (id : Nat) : Operation File → Prop
  | .unlock other => other = id
  | .setCapabilities streamEnabled hugeFiles =>
    s.selection.streamEnabled ≠ streamEnabled ∨ s.selection.hugeFiles ≠ hugeFiles
  | .setLockCapability enabled => enabled = false
  | _ => False

instance (s : Exchange File) (id : Nat) (op : Operation File) : Decidable (s.Releases id op) := by
  cases op <;> unfold Releases <;> infer_instance

structure Invariant (s : Exchange File) : Prop where
  counted : ∀ n, s.selection.pendingAnnouncements = some n → n = s.unanswered
  overflown : s.selection.pendingAnnouncements = none → s.selection.confirmed = none
  carried : ∀ table, s.selection.announced = some table → s.last = some (.initiateFileCopy table)
  confirmed : ∀ table, s.selection.confirmed = some table → s.Confirms table
  enabled : s.selection.locked ≠ ∅ → s.selection.streamEnabled = true ∧ s.selection.lockEnabled = true
  limited : s.selection.locked.entries.length ≤ maxLockedSelections

variable {s t : Exchange File}

/-- What an announcement does: nothing at all, or the files offered now are on
their way, with one more answer to wait for. -/
theorem Invariant.announced (inv : s.Invariant) {current : FrozenSelection File} {files : Bool}
    {message : ClipboardMessage File} (counter : current.pendingAnnouncements = s.selection.pendingAnnouncements)
    (locked : current.locked = s.selection.locked)
    (flags : current.streamEnabled = s.selection.streamEnabled ∧ current.lockEnabled = s.selection.lockEnabled)
    (carries : ∀ table, (if files then current.entries else none) = some table → message = .initiateFileCopy table) :
    (s.announced (current.announce files, some message)).Invariant where
  counted n pending := by
    change (current.pendingAnnouncements.bind FrozenSelection.checkedSucc) = some n at pending
    rw [counter] at pending
    obtain ⟨before, isBefore, next⟩ := Option.bind_eq_some_iff.mp pending
    have same := inv.counted before isBefore
    obtain ⟨_, value⟩ := Option.ite_none_right_eq_some.mp next
    cases value
    exact congrArg (· + 1) same
  overflown _ := rfl
  carried table offered := congrArg some (carries table offered)
  confirmed := nofun
  enabled filled := by
    change current.locked ≠ ∅ at filled
    change current.streamEnabled = true ∧ current.lockEnabled = true
    rw [locked] at filled
    rw [flags.1, flags.2]
    exact inv.enabled filled
  limited := by
    change current.locked.entries.length ≤ maxLockedSelections
    rw [locked]
    exact inv.limited

theorem Invariant.respond (inv : s.Invariant) (ok : Bool) : (s.next (.respond ok)).Invariant := by
  unfold Exchange.next FrozenSelection.fileFormatListResponse
  dsimp only
  split
  · rename_i overflow
    refine ⟨fun n pending => ?_, inv.overflown, inv.carried, fun table confirmed => ?_, inv.enabled, inv.limited⟩
    · cases overflow.symm.trans pending
    · cases (inv.overflown overflow).symm.trans confirmed
  · rename_i pending
    have none := inv.counted 0 pending
    refine ⟨fun n counter => ?_, inv.overflown, inv.carried, fun table confirmed => ?_, inv.enabled, inv.limited⟩
    · have same := inv.counted n counter
      dsimp only
      omega
    · obtain ⟨carried, answered, yes⟩ := inv.confirmed table confirmed
      refine ⟨carried, ?_, ?_⟩
      · dsimp only
        omega
      · dsimp only
        rw [if_pos none.symm]
        exact yes
  · rename_i pending counter
    have waiting := inv.counted _ counter
    refine ⟨fun n left => ?_, nofun, inv.carried, fun table confirmed => ?_, inv.enabled, inv.limited⟩
    · cases left
      dsimp only
      omega
    · dsimp only at confirmed
      split at confirmed
      · rename_i last
        refine ⟨inv.carried table confirmed, ?_, ?_⟩
        · dsimp only
          omega
        · dsimp only
          rw [if_neg (by omega), last.2]
      · have answered := (inv.confirmed table confirmed).2.1
        omega

theorem Invariant.lock (inv : s.Invariant) (id : Nat) : (s.next (.lock id)).Invariant := by
  unfold Exchange.next FrozenSelection.lockSelection
  dsimp only
  split
  · exact inv
  · rename_i free
    simp only [not_or, Bool.not_eq_true', Bool.not_eq_false, Nat.not_le] at free
    obtain ⟨stream, lock, unbound, room⟩ := free
    split
    · exact inv
    · refine ⟨inv.counted, inv.overflown, inv.carried, inv.confirmed, fun _ => ⟨stream, lock⟩, ?_⟩
      dsimp only
      rw [AList.entries_insert_of_notMem unbound, List.length_cons]
      omega

theorem Invariant.next (inv : s.Invariant) (op : Operation File) : (s.next op).Invariant := by
  cases op with
  | announceFormats => exact inv.announced rfl rfl ⟨rfl, rfl⟩ fun table offered => absurd offered.symm (Option.some_ne_none table)
  | announceFiles =>
    unfold Exchange.next FrozenSelection.announceFileFormats
    dsimp only
    split
    · exact inv
    · split
      · exact inv
      · rename_i entries offered
        refine inv.announced rfl rfl ⟨rfl, rfl⟩ fun table isTable => ?_
        cases offered.symm.trans isTable
        rfl
  | publish generation frozen =>
    unfold Exchange.next FrozenSelection.publishSelection
    dsimp only
    split
    · exact inv
    · split
      · exact ⟨inv.counted, inv.overflown, inv.carried, inv.confirmed, inv.enabled, inv.limited⟩
      · refine inv.announced rfl rfl ⟨rfl, rfl⟩ fun table isTable => ?_
        cases isTable
        rfl
  | respond ok => exact inv.respond ok
  | clear => exact ⟨inv.counted, inv.overflown, inv.carried, inv.confirmed, inv.enabled, inv.limited⟩
  | setCapabilities streamEnabled hugeFiles =>
    unfold Exchange.next FrozenSelection.setFileCapabilities
    dsimp only
    split
    · exact ⟨inv.counted, fun _ => rfl, fun table offered => absurd offered.symm (Option.some_ne_none table),
        fun table confirmed => absurd confirmed.symm (Option.some_ne_none table), fun filled => absurd rfl filled, Nat.zero_le _⟩
    · exact inv
  | setLockCapability enabled =>
    unfold Exchange.next FrozenSelection.setFileLockCapability
    dsimp only
    split
    · exact ⟨inv.counted, inv.overflown, inv.carried, inv.confirmed, fun filled => ⟨(inv.enabled filled).1, rfl⟩,
        inv.limited⟩
    · exact ⟨inv.counted, fun _ => rfl, inv.carried, fun table confirmed => absurd confirmed.symm (Option.some_ne_none table),
        fun filled => absurd rfl filled, Nat.zero_le _⟩
  | lock id => exact inv.lock id
  | unlock id =>
    refine ⟨inv.counted, inv.overflown, inv.carried, inv.confirmed, fun filled => inv.enabled fun empty => filled ?_, ?_⟩
    · change s.selection.locked.erase id = ∅
      rw [empty]
      rfl
    · refine Nat.le_trans ?_ inv.limited
      exact (List.kerase_sublist id _).length_le

theorem start_invariant : (start : Exchange File).Invariant where
  counted _ pending := (Option.some.inj pending).symm
  overflown := nofun
  carried := nofun
  confirmed := nofun
  enabled filled := absurd rfl filled
  limited := Nat.zero_le _

theorem reach_invariant (reach : (runsFrom (start : Exchange File)).Reach s) : s.Invariant := by
  refine StepSystem.Inductive.reach ⟨fun s first => ?_, fun s op t inv step => ?_⟩ reach
  · exact first ▸ start_invariant
  · cases step
    exact inv.next op

/-- A binding stays as long as nothing releases it. -/
theorem next_lookup {id : Nat} {table : List File} {op : Operation File} (kept : ¬ s.Releases id op)
    (bound : s.selection.locked.lookup id = some table) : (s.next op).selection.locked.lookup id = some table := by
  have member : id ∈ s.selection.locked := AList.lookup_isSome.mp (Option.isSome_iff_exists.mpr ⟨table, bound⟩)
  cases op with
  | announceFormats => exact bound
  | announceFiles =>
    unfold Exchange.next FrozenSelection.announceFileFormats
    dsimp only
    split
    · exact bound
    · split <;> exact bound
  | publish generation frozen =>
    unfold Exchange.next FrozenSelection.publishSelection
    dsimp only
    split
    · exact bound
    · split <;> exact bound
  | respond ok =>
    unfold Exchange.next FrozenSelection.fileFormatListResponse
    dsimp only
    split <;> exact bound
  | clear => exact bound
  | setCapabilities streamEnabled hugeFiles =>
    have same : s.selection.setFileCapabilities streamEnabled hugeFiles = s.selection := if_neg kept
    exact (congrArg (fun current => current.locked.lookup id) same).trans bound
  | setLockCapability enabled =>
    unfold Exchange.next FrozenSelection.setFileLockCapability
    dsimp only
    rw [if_pos (show enabled = true from by simpa [Releases] using kept)]
    exact bound
  | lock other =>
    unfold Exchange.next FrozenSelection.lockSelection
    dsimp only
    split
    · exact bound
    · rename_i free
      have different : id ≠ other := fun same => free (.inr (.inr (.inl (same ▸ member))))
      split
      · exact bound
      · exact (AList.lookup_insert_ne different).trans bound
  | unlock other => exact (AList.lookup_erase_ne (Ne.symm kept)).trans bound

theorem lockSelection_inserts {current : FrozenSelection File} {id : Nat} {table : List File}
    (unbound : current.locked.lookup id = none) (bound : (current.lockSelection id).locked.lookup id = some table) :
    current.confirmed = some table ∧ ∀ other, other ≠ id →
      (current.lockSelection id).locked.lookup other = current.locked.lookup other := by
  unfold FrozenSelection.lockSelection at *
  split at bound
  · cases unbound.symm.trans bound
  · rename_i free
    rw [if_neg free]
    split at bound
    · cases unbound.symm.trans bound
    · rename_i entries confirmed
      cases (AList.lookup_insert _).symm.trans bound
      exact ⟨confirmed, fun other different => AList.lookup_insert_ne different⟩

/-- A new binding names the files of the last announcement, which the client
has accepted; it stays until it is released, and no lock evicts another. -/
theorem lock_names_known_table {id : Nat} {table : List File} (reach : (runsFrom (start : Exchange File)).Reach s)
    (unbound : s.selection.locked.lookup id = none)
    (bound : (s.next (.lock id)).selection.locked.lookup id = some table) :
    s.Confirms table ∧
    (∀ other, other ≠ id → (s.next (.lock id)).selection.locked.lookup other = s.selection.locked.lookup other) ∧
    ∀ t, ((runsFrom (s.next (.lock id))).guarded fun u op => ¬ u.Releases id op).Reach t →
      t.selection.locked.entries.length ≤ maxLockedSelections ∧
      ∀ index, t.selection.selectedFile (some id) index = if 0 ≤ index then table[index.toNat]? else none := by
  have inv := reach_invariant reach
  obtain ⟨confirmed, others⟩ := lockSelection_inserts unbound bound
  refine ⟨inv.confirmed table confirmed, others, fun t later => ?_⟩
  have kept : ((runsFrom (s.next (.lock id))).guarded fun u op => ¬ u.Releases id op).Inductive fun u =>
      u.Invariant ∧ u.selection.locked.lookup id = some table := by
    refine ⟨fun u first => first ▸ ⟨inv.next (.lock id), bound⟩, fun u op v both step => ?_⟩
    obtain ⟨released, same⟩ := step
    cases same
    exact ⟨both.1.next op, next_lookup released both.2⟩
  obtain ⟨invLater, boundLater⟩ := kept.reach later
  refine ⟨invLater.limited, fun index => ?_⟩
  have filled : t.selection.locked ≠ ∅ := by
    intro empty
    rw [empty] at boundLater
    cases boundLater
  obtain ⟨stream, lock⟩ := invLater.enabled filled
  unfold FrozenSelection.selectedFile FrozenSelection.table
  rw [stream, lock, if_neg (by simp)]
  dsimp only
  rw [if_pos rfl, boundLater]
  rfl

/-- Two files offered, accepted and locked; the selection that follows does not change the binding. -/
theorem lock_names_known_table_once : ∃ s : Exchange Nat, ((runsFrom (start : Exchange Nat)).Reach s) ∧
    s.Confirms [7, 8] ∧ (s.next (.lock 5)).selection.locked.lookup 5 = some [7, 8] := by
  have run : (runsFrom (start : Exchange Nat)).Reach _ :=
    StepSystem.exec_reach [.setCapabilities true false, .setLockCapability true, .publish 1 [7, 8], .respond true]
      (.start rfl) rfl
  exact ⟨_, run, (lock_names_known_table run (show AList.lookup 5 _ = none from rfl) rfl).1, rfl⟩

end Exchange

end HyprRdp
