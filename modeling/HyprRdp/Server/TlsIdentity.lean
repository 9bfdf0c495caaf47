import HyprRdp.Lib.Crews
import Mathlib.Data.List.TakeDrop

namespace HyprRdp

structure TlsFile where
  bytes : List UInt8
  mode : Nat
  deriving DecidableEq

/-- The PEM texts of an identity, as `rcgen` writes them. -/
structure TlsPem (Identity : Type) where
  key : Identity → List UInt8
  cert : Identity → List UInt8

/-- The files of `~/.config/hypr-rdp`, and who has the lock on `.tls.lock`. -/
structure TlsDirectory where
  cert : Option TlsFile
  key : Option TlsFile
  tmpCert : Option TlsFile
  tmpKey : Option TlsFile
  lockedBy : Option Nat

/-- Read and write for the owner alone. -/
def ownerOnly : Nat := 0o600

/-- What a file gets when no mode is asked for. -/
def defaultMode : Nat := 0o644

namespace TlsDirectory

variable (dir : TlsDirectory)

/-- A lock goes with the process that has it. -/
def release (p : Nat) : TlsDirectory := { dir with lockedBy := if dir.lockedBy = some p then none else dir.lockedBy }

/-- A file that is opened to be written anew keeps the mode it had. -/
def truncated (old : Option TlsFile) (mode : Nat) : TlsFile := ⟨[], (old.map (·.mode)).getD mode⟩

def appended (file : Option TlsFile) (bytes : List UInt8) : Option TlsFile :=
  file.map fun file => { file with bytes := file.bytes ++ bytes }

end TlsDirectory

/-- Where a process is in `auto_generate_tls_in`; `written` counts the bytes of the file at hand. -/
inductive TlsStage (Identity : Type)
  | certExists | keyExists | createDirAll | createLock | flock
  | certExistsLocked | keyExistsLocked | generate
  | openTmpKey (identity : Identity) | writeTmpKey (identity : Identity) (written : Nat)
  | openTmpCert (identity : Identity) | writeTmpCert (identity : Identity) (written : Nat)
  | renameKey (identity : Identity) | renameCert (identity : Identity)
  | returned | failed

/-- `fails` is an error of the operation, or the end of the process at this place. -/
inductive TlsChoice (Identity : Type)
  | proceeds | fails
  | generates (identity : Identity)
  | writes (count : Nat)

section Generate

variable {Identity : Type} (pem : TlsPem Identity)

/-- One operation of `auto_generate_tls_in` by the process `p`. -/
def autoGenerateTlsIn (dir : TlsDirectory) (p : Nat) :
    TlsStage Identity → TlsChoice Identity → Option (TlsDirectory × TlsStage Identity)
  | .returned, _ => none
  | .failed, _ => none
  | _, .fails => some (dir.release p, .failed)
  | .certExists, .proceeds => some (dir, if dir.cert.isSome then .keyExists else .createDirAll)
  | .keyExists, .proceeds => some (dir, if dir.key.isSome then .returned else .createDirAll)
  | .createDirAll, .proceeds => some (dir, .createLock)
  | .createLock, .proceeds => some (dir, .flock)
  | .flock, .proceeds => if dir.lockedBy = none then some ({ dir with lockedBy := some p }, .certExistsLocked) else none
  | .certExistsLocked, .proceeds => some (dir, if dir.cert.isSome then .keyExistsLocked else .generate)
  | .keyExistsLocked, .proceeds =>
    if dir.key.isSome then some (dir.release p, .returned) else some (dir, .generate)
  | .generate, .generates identity => some (dir, .openTmpKey identity)
  | .openTmpKey identity, .proceeds =>
    some ({ dir with tmpKey := some (TlsDirectory.truncated dir.tmpKey ownerOnly) }, .writeTmpKey identity 0)
  | .writeTmpKey identity written, .writes count =>
    if 0 < count ∧ written + count ≤ (pem.key identity).length then
      some ({ dir with tmpKey := TlsDirectory.appended dir.tmpKey (((pem.key identity).drop written).take count) },
        .writeTmpKey identity (written + count))
    else none
  | .writeTmpKey identity written, .proceeds =>
    if written = (pem.key identity).length then some (dir, .openTmpCert identity) else none
  | .openTmpCert identity, .proceeds =>
    some ({ dir with tmpCert := some (TlsDirectory.truncated dir.tmpCert defaultMode) }, .writeTmpCert identity 0)
  | .writeTmpCert identity written, .writes count =>
    if 0 < count ∧ written + count ≤ (pem.cert identity).length then
      some ({ dir with tmpCert := TlsDirectory.appended dir.tmpCert (((pem.cert identity).drop written).take count) },
        .writeTmpCert identity (written + count))
    else none
  | .writeTmpCert identity written, .proceeds =>
    if written = (pem.cert identity).length then some (dir, .renameKey identity) else none
  | .renameKey identity, .proceeds => some ({ dir with key := dir.tmpKey, tmpKey := none }, .renameCert identity)
  | .renameCert _, .proceeds =>
    some ({ dir with cert := dir.tmpCert, tmpCert := none }.release p, .returned)
  | _, _ => none

/-- Any number of processes on one directory. -/
def tlsProcesses : Crew Nat TlsDirectory (TlsStage Identity) (TlsChoice Identity) := ⟨autoGenerateTlsIn pem⟩

abbrev TlsWorld (Identity : Type) := Crew.World Nat TlsDirectory (TlsStage Identity)

/-- None of the processes has begun. -/
def TlsWorld.Begins (first : TlsDirectory) (w : TlsWorld Identity) : Prop :=
  w.shared = first ∧ ∀ p, w.place p = .certExists

def tlsSystem (first : TlsDirectory) : StepSystem (TlsWorld Identity) (Nat × TlsChoice Identity) :=
  (tlsProcesses pem).system (TlsWorld.Begins first)

/-- What one step does. -/
inductive TlsMove (dir : TlsDirectory) (p : Nat) : TlsStage Identity → TlsDirectory → TlsStage Identity → Prop
  | fails {stage} : TlsMove dir p stage (dir.release p) .failed
  | certExists : TlsMove dir p .certExists dir (if dir.cert.isSome then .keyExists else .createDirAll)
  | keyExists : TlsMove dir p .keyExists dir (if dir.key.isSome then .returned else .createDirAll)
  | createDirAll : TlsMove dir p .createDirAll dir .createLock
  | createLock : TlsMove dir p .createLock dir .flock
  | flock (free : dir.lockedBy = none) : TlsMove dir p .flock { dir with lockedBy := some p } .certExistsLocked
  | certExistsLocked : TlsMove dir p .certExistsLocked dir (if dir.cert.isSome then .keyExistsLocked else .generate)
  | reuses (exists' : dir.key.isSome) : TlsMove dir p .keyExistsLocked (dir.release p) .returned
  | noKey (missing : dir.key = none) : TlsMove dir p .keyExistsLocked dir .generate
  | generate (identity) : TlsMove dir p .generate dir (.openTmpKey identity)
  | openTmpKey (identity) : TlsMove dir p (.openTmpKey identity)
      { dir with tmpKey := some (TlsDirectory.truncated dir.tmpKey ownerOnly) } (.writeTmpKey identity 0)
  | writeTmpKey {identity written} (count) (fits : written + count ≤ (pem.key identity).length) :
      TlsMove dir p (.writeTmpKey identity written)
        { dir with tmpKey := TlsDirectory.appended dir.tmpKey (((pem.key identity).drop written).take count) }
        (.writeTmpKey identity (written + count))
  | wroteTmpKey (identity) : TlsMove dir p (.writeTmpKey identity (pem.key identity).length) dir (.openTmpCert identity)
  | openTmpCert (identity) : TlsMove dir p (.openTmpCert identity)
      { dir with tmpCert := some (TlsDirectory.truncated dir.tmpCert defaultMode) } (.writeTmpCert identity 0)
  | writeTmpCert {identity written} (count) (fits : written + count ≤ (pem.cert identity).length) :
      TlsMove dir p (.writeTmpCert identity written)
        { dir with tmpCert := TlsDirectory.appended dir.tmpCert (((pem.cert identity).drop written).take count) }
        (.writeTmpCert identity (written + count))
  | wroteTmpCert (identity) : TlsMove dir p (.writeTmpCert identity (pem.cert identity).length) dir (.renameKey identity)
  | renameKey (identity) :
      TlsMove dir p (.renameKey identity) { dir with key := dir.tmpKey, tmpKey := none } (.renameCert identity)
  | renameCert (identity) :
      TlsMove dir p (.renameCert identity) ({ dir with cert := dir.tmpCert, tmpCert := none }.release p) .returned

variable {pem} {first dir t : TlsDirectory} {p q : Nat} {stage later other : TlsStage Identity}

theorem autoGenerateTlsIn_move {choice : TlsChoice Identity}
    (step : autoGenerateTlsIn pem dir p stage choice = some (t, later)) : TlsMove pem dir p stage t later := by
  unfold autoGenerateTlsIn at step
  split at step
  · cases step
  · cases step
  · cases step
    exact .fails
  · cases step
    exact .certExists
  · cases step
    exact .keyExists
  · cases step
    exact .createDirAll
  · cases step
    exact .createLock
  · obtain ⟨free, step⟩ := Option.ite_none_right_eq_some.mp step
    cases step
    exact .flock free
  · cases step
    exact .certExistsLocked
  · split at step
    · cases step
      exact .reuses ‹_›
    · cases step
      exact .noKey (Option.not_isSome_iff_eq_none.mp ‹_›)
  · cases step
    exact .generate _
  · cases step
    exact .openTmpKey _
  · obtain ⟨fits, step⟩ := Option.ite_none_right_eq_some.mp step
    cases step
    exact .writeTmpKey _ fits.2
  · obtain ⟨rfl, wrote⟩ := Option.ite_none_right_eq_some.mp step
    cases wrote
    exact .wroteTmpKey _
  · cases step
    exact .openTmpCert _
  · obtain ⟨fits, step⟩ := Option.ite_none_right_eq_some.mp step
    cases step
    exact .writeTmpCert _ fits.2
  · obtain ⟨rfl, wrote⟩ := Option.ite_none_right_eq_some.mp step
    cases wrote
    exact .wroteTmpCert _
  · cases step
    exact .renameKey _
  · cases step
    exact .renameCert _
  · cases step

/-- Between the lock and its release. -/
def TlsStage.locked : TlsStage Identity → Bool
  | .certExists | .keyExists | .createDirAll | .createLock | .flock | .returned | .failed => false
  | _ => true

variable (pem first) in
/-- A certificate and a key that belong together: both from the start, or of one identity. -/
def TlsPaired (cert key : TlsFile) : Prop :=
  (first.cert = some cert ∧ first.key = some key) ∨
    ∃ identity, cert.bytes = pem.cert identity ∧ key = ⟨pem.key identity, ownerOnly⟩

variable (pem) in
/-- What every process may rely on. -/
structure TlsDirectory.Sound (dir first : TlsDirectory) : Prop where
  paired : ∀ cert, dir.cert = some cert → ∃ key, dir.key = some key ∧ TlsPaired pem first cert key
  kept : first.cert.isSome → dir.cert = first.cert ∧ dir.key = first.key
  hidden : ∀ file, dir.tmpKey = some file → file.mode = ownerOnly
  secret : dir.key = first.key ∨ ∃ identity, dir.key = some ⟨pem.key identity, ownerOnly⟩

variable (pem) in
/-- What a process knows of the files at its place. -/
def TlsStage.Knows (dir : TlsDirectory) : TlsStage Identity → Prop
  | .keyExists | .keyExistsLocked | .returned => dir.cert.isSome
  | .generate | .openTmpKey _ => dir.cert = none
  | .writeTmpKey identity written =>
    dir.cert = none ∧ dir.tmpKey = some ⟨(pem.key identity).take written, ownerOnly⟩
  | .openTmpCert identity => dir.cert = none ∧ dir.tmpKey = some ⟨pem.key identity, ownerOnly⟩
  | .writeTmpCert identity written =>
    dir.cert = none ∧ dir.tmpKey = some ⟨pem.key identity, ownerOnly⟩ ∧
      ∃ mode, dir.tmpCert = some ⟨(pem.cert identity).take written, mode⟩
  | .renameKey identity =>
    dir.cert = none ∧ dir.tmpKey = some ⟨pem.key identity, ownerOnly⟩ ∧ ∃ mode, dir.tmpCert = some ⟨pem.cert identity, mode⟩
  | .renameCert identity =>
    dir.cert = none ∧ dir.key = some ⟨pem.key identity, ownerOnly⟩ ∧ ∃ mode, dir.tmpCert = some ⟨pem.cert identity, mode⟩
  | _ => True

variable (pem) in
/-- The lock is this process's from the lock to its release. -/
def TlsStage.Holds (dir : TlsDirectory) (p : Nat) (stage : TlsStage Identity) : Prop :=
  (dir.lockedBy = some p ↔ stage.locked) ∧ stage.Knows pem dir

theorem TlsDirectory.release_own (dir : TlsDirectory) (p : Nat) : (dir.release p).lockedBy ≠ some p := by
  unfold release
  dsimp only
  split
  · exact Option.some_ne_none p ∘ Eq.symm
  · assumption

theorem TlsDirectory.release_other (dir : TlsDirectory) (different : p ≠ q) :
    (dir.release p).lockedBy = some q ↔ dir.lockedBy = some q := by
  unfold release
  dsimp only
  split
  next own =>
    rw [own, Option.some_inj]
    exact ⟨fun none => absurd none (Option.some_ne_none q).symm, fun same => absurd same different⟩
  next => rfl

theorem TlsMove.lock_own (move : TlsMove pem dir p stage t later) (lock : dir.lockedBy = some p ↔ stage.locked) :
    t.lockedBy = some p ↔ later.locked := by
  cases move with
  | fails => exact iff_of_false (dir.release_own p) Bool.false_ne_true
  | certExists => split <;> exact lock
  | keyExists => split <;> exact lock
  | createDirAll | createLock => exact lock
  | flock free => exact iff_of_true rfl rfl
  | certExistsLocked => split <;> exact lock
  | reuses _ => exact iff_of_false (dir.release_own p) Bool.false_ne_true
  | noKey _ => exact lock
  | generate _ | openTmpKey _ | writeTmpKey _ _ | wroteTmpKey _ | openTmpCert _ | writeTmpCert _ _ | wroteTmpCert _ => exact lock
  | renameKey _ => exact lock
  | renameCert _ => exact iff_of_false (TlsDirectory.release_own _ p) Bool.false_ne_true

theorem TlsMove.lock_other (move : TlsMove pem dir p stage t later) (different : p ≠ q) :
    t.lockedBy = some q ↔ dir.lockedBy = some q := by
  cases move with
  | fails | reuses _ => exact dir.release_other different
  | flock free =>
    rw [free]
    exact ⟨fun same => absurd (Option.some.inj same) different, fun none => absurd none (Option.some_ne_none q).symm⟩
  | renameCert _ => exact TlsDirectory.release_other _ different
  | _ => rfl

/-- A certificate stays where it is, and a process without the lock knows no more than that. -/
theorem TlsMove.cert_stays (move : TlsMove pem dir p stage t later) (knows : stage.Knows pem dir)
    (stands : dir.cert.isSome) : t.cert.isSome := by
  cases move with
  | renameCert identity => exact absurd stands (by rw [knows.1]; exact Bool.false_ne_true)
  | _ => exact stands

theorem TlsStage.Knows.unlocked (knows : other.Knows pem dir) (outside : other.locked = false)
    (stays : dir.cert.isSome → t.cert.isSome) : other.Knows pem t := by
  cases other with
  | keyExists | returned => exact stays knows
  | certExists | createDirAll | createLock | flock | failed => trivial
  | _ => cases outside

/-- A step outside the lock leaves the files alone. -/
theorem TlsMove.outside (move : TlsMove pem dir p stage t later) (outside : stage.locked = false) :
    t.cert = dir.cert ∧ t.key = dir.key ∧ t.tmpCert = dir.tmpCert ∧ t.tmpKey = dir.tmpKey := by
  cases move with
  | openTmpKey _ | writeTmpKey _ _ | openTmpCert _ | writeTmpCert _ _ | renameKey _ | renameCert _ => cases outside
  | _ => exact ⟨rfl, rfl, rfl, rfl⟩

theorem TlsMove.spares (move : TlsMove pem dir p stage t later) (holds : stage.Holds pem dir p) (different : p ≠ q)
    (others : other.Holds pem dir q) : other.Holds pem t q := by
  refine ⟨(move.lock_other different).trans others.1, ?_⟩
  cases outside : other.locked with
  | false => exact others.2.unlocked outside (move.cert_stays holds.2)
  | true =>
    -- the other process has the lock, so this one is outside and changes no file
    have held := others.1.mpr outside
    have free : stage.locked = false := by
      cases own : stage.locked with
      | false => rfl
      | true => exact absurd (Option.some.inj ((holds.1.mpr own).symm.trans held)) different
    obtain ⟨cert, key, tmpCert, tmpKey⟩ := move.outside free
    have same := others.2
    unfold TlsStage.Knows at same ⊢
    rw [cert, key, tmpCert, tmpKey]
    exact same

theorem TlsDirectory.Sound.of_same (sound : dir.Sound pem first) (cert : t.cert = dir.cert) (key : t.key = dir.key)
    (hidden : ∀ file, t.tmpKey = some file → file.mode = ownerOnly) : t.Sound pem first where
  paired := by
    rw [cert, key]
    exact sound.paired
  kept := by
    rw [cert, key]
    exact sound.kept
  hidden := hidden
  secret := by
    rw [key]
    exact sound.secret

theorem TlsDirectory.Sound.fresh (sound : dir.Sound pem first) (noCert : dir.cert = none) : first.cert = none := by
  cases had : first.cert with
  | none => rfl
  | some cert =>
    have kept := (sound.kept (by rw [had]; rfl)).1
    exact absurd (noCert.symm.trans (kept.trans had)) (Option.some_ne_none cert).symm

theorem TlsMove.sound (move : TlsMove pem dir p stage t later) (sound : dir.Sound pem first)
    (knows : stage.Knows pem dir) : t.Sound pem first := by
  cases move with
  | openTmpKey identity =>
    refine sound.of_same rfl rfl fun file opened => ?_
    cases opened
    unfold TlsDirectory.truncated
    cases left : dir.tmpKey with
    | none => rfl
    | some old => exact sound.hidden old left
  | writeTmpKey count fits =>
    refine sound.of_same rfl rfl fun file written => ?_
    have before := knows.2
    dsimp only [TlsDirectory.appended] at written
    rw [before] at written
    cases written
    rfl
  | renameKey identity =>
    obtain ⟨noCert, whole, _⟩ := knows
    refine ⟨fun cert there => ?_, fun had => ?_, fun file there => ?_, Or.inr ⟨identity, whole⟩⟩
    · exact absurd (noCert.symm.trans there) (Option.some_ne_none cert).symm
    · rw [sound.fresh noCert] at had
      cases had
    · cases there
  | renameCert identity =>
    obtain ⟨noCert, whole, mode, tmpCert⟩ := knows
    refine ⟨fun cert there => ⟨_, whole, ?_⟩, fun had => ?_, sound.hidden, sound.secret⟩
    · have written := (Option.some.inj (tmpCert.symm.trans there)).symm
      exact Or.inr ⟨identity, by rw [written], rfl⟩
    · rw [sound.fresh noCert] at had
      cases had
  | _ => exact sound.of_same rfl rfl sound.hidden

theorem TlsMove.knows (move : TlsMove pem dir p stage t later) (sound : dir.Sound pem first)
    (knows : stage.Knows pem dir) : later.Knows pem t := by
  cases move with
  | fails | createDirAll | createLock | flock _ => trivial
  | certExists =>
    split
    · assumption
    · trivial
  | keyExists =>
    split
    · exact knows
    · trivial
  | certExistsLocked =>
    split
    · assumption
    · exact Option.not_isSome_iff_eq_none.mp ‹_›
  | reuses _ => exact knows
  | noKey missing =>
    -- no certificate stands without its key
    obtain ⟨cert, stands⟩ := Option.isSome_iff_exists.mp knows
    obtain ⟨key, there, _⟩ := sound.paired cert stands
    exact absurd (missing.symm.trans there) (Option.some_ne_none key).symm
  | generate _ => exact knows
  | openTmpKey identity =>
    refine ⟨knows, congrArg some ?_⟩
    unfold TlsDirectory.truncated
    cases left : dir.tmpKey with
    | none => rfl
    | some old => exact congrArg (TlsFile.mk []) (sound.hidden old left)
  | writeTmpKey count _ =>
    refine ⟨knows.1, ?_⟩
    rw [TlsDirectory.appended, knows.2, Option.map_some, List.take_add]
  | wroteTmpKey identity => exact ⟨knows.1, by rw [knows.2, List.take_length]⟩
  | openTmpCert identity => exact ⟨knows.1, knows.2, _, rfl⟩
  | writeTmpCert count _ =>
    obtain ⟨noCert, whole, mode, written⟩ := knows
    refine ⟨noCert, whole, mode, ?_⟩
    rw [TlsDirectory.appended, written, Option.map_some, List.take_add]
  | wroteTmpCert identity =>
    obtain ⟨noCert, whole, mode, written⟩ := knows
    exact ⟨noCert, whole, mode, by rw [written, List.take_length]⟩
  | renameKey identity => exact knows
  | renameCert identity =>
    obtain ⟨noCert, whole, mode, written⟩ := knows
    dsimp only [TlsStage.Knows, TlsDirectory.release]
    rw [written]
    rfl

theorem tlsProcesses_outline :
    (tlsProcesses pem).Outline (fun dir => dir.Sound pem first) fun dir p stage => stage.Holds pem dir p where
  keeps dir p stage choice t later step sound holds := by
    have move := autoGenerateTlsIn_move step
    exact ⟨move.sound sound holds.2, move.lock_own holds.1, move.knows sound holds.2⟩
  spares dir p stage choice t later q other different step sound holds others :=
    (autoGenerateTlsIn_move step).spares holds different others

variable (first) in
/-- No process has the lock yet, no certificate stands without its key, and no
key that an earlier process left half written can be read by others. -/
structure TlsDirectory.Clean : Prop where
  free : first.lockedBy = none
  whole : first.cert.isSome → first.key.isSome
  hidden : ∀ file, first.tmpKey = some file → file.mode = ownerOnly

theorem TlsDirectory.Clean.sound (clean : first.Clean) : first.Sound pem first where
  paired cert stands := by
    obtain ⟨key, there⟩ := Option.isSome_iff_exists.mp (clean.whole (by rw [stands]; rfl))
    exact ⟨key, there, Or.inl ⟨stands, there⟩⟩
  kept _ := ⟨rfl, rfl⟩
  hidden := clean.hidden
  secret := Or.inl rfl

theorem TlsDirectory.Clean.inductive (clean : first.Clean) :
    (tlsSystem pem first).Inductive fun w =>
      w.shared.Sound pem first ∧ ∀ p, (w.place p).Holds pem w.shared p := by
  refine tlsProcesses_outline.inductive fun w begins => ?_
  obtain ⟨shared, places⟩ := begins
  rw [shared]
  refine ⟨clean.sound, fun p => ?_⟩
  rw [places p]
  exact ⟨iff_of_false (by rw [clean.free]; exact (Option.some_ne_none p).symm) Bool.false_ne_true, trivial⟩

theorem TlsMove.identity_stays (move : TlsMove pem dir p stage t later) (knows : stage.Knows pem dir)
    (stands : dir.cert.isSome) : t.cert = dir.cert ∧ t.key = dir.key := by
  cases move with
  | renameKey _ | renameCert _ => exact absurd stands (by rw [knows.1]; exact Bool.false_ne_true)
  | _ => exact ⟨rfl, rfl⟩

/-- From a state of a run on, an identity that stands is not touched. -/
theorem TlsDirectory.Clean.identity_fixed (clean : first.Clean) {w u : TlsWorld Identity}
    (reach : (tlsSystem pem first).Reach w) (stands : w.shared.cert.isSome)
    (more : ((tlsSystem pem first).after w).Reach u) :
    (tlsSystem pem first).Reach u ∧ u.shared.cert = w.shared.cert ∧ u.shared.key = w.shared.key := by
  induction more with
  | start same => exact ⟨same ▸ reach, same ▸ ⟨rfl, rfl⟩⟩
  | @next v _ turn _ step ih =>
    obtain ⟨reached, cert, key⟩ := ih
    obtain ⟨later, taken, _⟩ := Crew.next_cases step
    have knows := ((clean.inductive.reach reached).2 turn.1).2
    have stays := (autoGenerateTlsIn_move taken).identity_stays knows (cert ▸ stands)
    exact ⟨.next reached step, stays.1.trans cert, stays.2.trans key⟩

/-- Wherever the processes are and wherever some of them stopped: a certificate
stands only beside its own key, a process that has its paths finds both files
there, they are never changed again, and no new key was ever readable by others. -/
theorem tls_identity_whole (clean : first.Clean) {w : TlsWorld Identity} (reach : (tlsSystem pem first).Reach w) :
    (∀ cert, w.shared.cert = some cert → ∃ key, w.shared.key = some key ∧ TlsPaired pem first cert key) ∧
    (∀ p, w.place p = .returned → w.shared.cert.isSome) ∧
    (w.shared.cert.isSome → ∀ u, ((tlsSystem pem first).after w).Reach u →
      u.shared.cert = w.shared.cert ∧ u.shared.key = w.shared.key) ∧
    (∀ file, w.shared.tmpKey = some file ∨ w.shared.key = some file → first.key = some file ∨ file.mode = ownerOnly) := by
  obtain ⟨sound, holds⟩ := clean.inductive.reach reach
  refine ⟨sound.paired, fun p place => ?_, fun stands u more => (clean.identity_fixed reach stands more).2, ?_⟩
  · have knows := (holds p).2
    rw [place] at knows
    exact knows
  · rintro file (tmp | there)
    · exact Or.inr (sound.hidden file tmp)
    · rcases sound.secret with first | ⟨identity, fresh⟩
      · exact Or.inl (first ▸ there)
      · have same := Option.some.inj (fresh.symm.trans there)
        exact Or.inr (same ▸ rfl)

end Generate

/-- An empty directory and one identity with texts of a byte each. -/
def emptyTlsDirectory : TlsDirectory := ⟨none, none, none, none, none⟩

def shortPem : TlsPem Unit := ⟨fun _ => [1], fun _ => [2]⟩

/-- The first process stops between the two renames, the second one makes the pair anew. -/
def interruptedStart : List (Nat × TlsChoice Unit) :=
  [(0, .proceeds), (0, .proceeds), (0, .proceeds), (0, .proceeds), (0, .proceeds), (0, .generates ()), (0, .proceeds),
    (0, .writes 1), (1, .proceeds), (0, .proceeds), (0, .proceeds), (0, .writes 1), (0, .proceeds), (0, .proceeds),
    (0, .fails), (1, .proceeds), (1, .proceeds), (1, .proceeds), (1, .proceeds), (1, .generates ()), (1, .proceeds),
    (1, .writes 1), (1, .proceeds), (1, .proceeds), (1, .writes 1), (1, .proceeds), (1, .proceeds), (1, .proceeds)]

theorem tls_identity_whole_once : ∃ w : TlsWorld Unit, w.place 1 = .returned ∧ w.shared.cert.isSome ∧
    ∃ key, w.shared.key = some key ∧ key.mode = ownerOnly := by
  obtain ⟨w, run, returned⟩ : ∃ w, StepSystem.exec (tlsProcesses shortPem).next
      ⟨emptyTlsDirectory, fun _ => .certExists⟩ interruptedStart = some w ∧ w.place 1 = .returned := ⟨_, rfl, rfl⟩
  have clean : emptyTlsDirectory.Clean := ⟨rfl, fun stands => stands, fun file there => by cases there⟩
  have reach : (tlsSystem shortPem emptyTlsDirectory).Reach w :=
    .exec (fun _ _ _ step => step) interruptedStart (.start ⟨rfl, fun _ => rfl⟩) run
  obtain ⟨paired, stands, _, secret⟩ := tls_identity_whole clean reach
  obtain ⟨cert, there⟩ := Option.isSome_iff_exists.mp (stands 1 returned)
  obtain ⟨key, held, _⟩ := paired cert there
  refine ⟨w, returned, stands 1 returned, key, held, ?_⟩
  rcases secret key (Or.inr held) with had | owner
  · cases had
  · exact owner

end HyprRdp
