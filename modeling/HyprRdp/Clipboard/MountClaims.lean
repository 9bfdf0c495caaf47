import HyprRdp.Lib.Crews
import Mathlib.Data.List.Nodup

namespace HyprRdp

/-- A path `hypr-rdp-clipboard-{pid}-{sequence}` in the runtime directory, by the two numbers in its name. -/
structure MountPath where
  pid : Nat
  sequence : Nat
  deriving DecidableEq

inductive MountKind
  | absent | ours | other
  deriving DecidableEq

/-- A path and the file that was opened as its lock. -/
structure MountClaim where
  path : MountPath
  lock : Nat
  deriving DecidableEq

/-- The runtime directory. Lock files have the numbers of their order in `lockFiles`, the list of the paths they
were made for; a file that was removed keeps its number, and those who have it open keep it. `flocks` says who holds
the advisory lock on a file, `stood` records where there was a directory at some time. -/
structure MountRuntime where
  dirs : MountPath → Bool
  locks : MountPath → Option Nat
  mounts : MountPath → MountKind
  flocks : Nat → Option Nat
  lockFiles : List MountPath
  stood : List MountPath

namespace MountRuntime

variable (s : MountRuntime)

def flock (file p : Nat) : MountRuntime := { s with flocks := Function.update s.flocks file (some p) }

/-- The process closes the file. -/
def close (file p : Nat) : MountRuntime :=
  { s with flocks := fun other => if other = file ∧ s.flocks other = some p then none else s.flocks other }

def closeAll (p : Nat) : MountRuntime :=
  { s with flocks := fun file => if s.flocks file = some p then none else s.flocks file }

def createLock (path : MountPath) : MountRuntime :=
  { s with locks := Function.update s.locks path (some s.lockFiles.length), lockFiles := s.lockFiles ++ [path] }

def removeLock (path : MountPath) : MountRuntime := { s with locks := Function.update s.locks path none }

def createDir (path : MountPath) : MountRuntime :=
  { s with dirs := Function.update s.dirs path true, stood := path :: s.stood }

def removeDir (path : MountPath) : MountRuntime := { s with dirs := Function.update s.dirs path false }

def setMount (path : MountPath) (kind : MountKind) : MountRuntime :=
  { s with mounts := Function.update s.mounts path kind }

@[simp] theorem flock_dirs (file p : Nat) : (s.flock file p).dirs = s.dirs := rfl

@[simp] theorem flock_mounts (file p : Nat) : (s.flock file p).mounts = s.mounts := rfl

@[simp] theorem setMount_dirs (path : MountPath) (kind : MountKind) : (s.setMount path kind).dirs = s.dirs := rfl

@[simp] theorem setMount_same (path : MountPath) (kind : MountKind) : (s.setMount path kind).mounts path = kind :=
  Function.update_self _ _ _

end MountRuntime

/-- What follows once a claim is given up: the sweep goes on, the next name is tried, or nothing. -/
inductive MountBack
  | idle
  | sweeping (seen : List MountPath)
  | claiming (attempts : Nat)

/-- Where the mount service of a process is. -/
inductive MountStage
  | idle | dead
  | sweeping (seen : List MountPath)
  | opening (path : MountPath) (seen : List MountPath)
  | locking (claim : MountClaim) (seen : List MountPath)
  | unmountOwned (claim : MountClaim) (seen : List MountPath)
  | fusermount (claim : MountClaim) (seen : List MountPath)
  | claiming (attempts : Nat)
  | newLock (path : MountPath) (attempts : Nat)
  | lockNew (claim : MountClaim) (attempts : Nat)
  | createDir (claim : MountClaim) (attempts : Nat)
  | mounting (claim : MountClaim)
  | umountAndJoin (claim : MountClaim)
  | removeDir (claim : MountClaim) (back : MountBack)
  | removeLock (claim : MountClaim) (back : MountBack)
  | release (claim : MountClaim) (back : MountBack)

def MountBack.stage : MountBack → MountStage
  | .idle => .idle
  | .sweeping seen => .sweeping seen
  | .claiming attempts => .claiming attempts

/-- `mounted` are the mounts that the process serves, with their claims. -/
structure MountProcess where
  nextMount : Nat
  mounted : List MountClaim
  stage : MountStage

/-- `fails` is an error of the operation at hand; `late` is `fusermount3` killed after it unmounted. -/
inductive MountChoice
  | create
  | drop (claim : MountClaim)
  | reads (path : MountPath)
  | takes (path : MountPath)
  | proceeds | fails | late | dies

def MountProcess.at (sv : MountProcess) (stage : MountStage) : MountProcess := { sv with stage := stage }

/-- One operation of the process `p`: a sweep and a claim at each new mount, `Drop` at its end. -/
def mountStep (s : MountRuntime) (p : Nat) (sv : MountProcess) : MountChoice → Option (MountRuntime × MountProcess)
  | .dies =>
    match sv.stage with
    | .dead => none
    | _ => some (s.closeAll p, { sv with mounted := [], stage := .dead })
  | .create =>
    match sv.stage with
    | .idle => some (s, sv.at (.sweeping []))
    | _ => none
  | .drop claim =>
    match sv.stage with
    | .idle =>
      if claim ∈ sv.mounted then some (s, { sv with mounted := sv.mounted.erase claim, stage := .umountAndJoin claim })
      else none
    | _ => none
  | .reads path =>
    match sv.stage with
    | .sweeping seen => if s.dirs path then some (s, sv.at (.sweeping (path :: seen))) else none
    | _ => none
  | .takes path =>
    match sv.stage with
    | .sweeping seen => if path ∈ seen then some (s, sv.at (.opening path seen)) else none
    | _ => none
  | .late =>
    match sv.stage with
    | .fusermount claim seen => some (s.setMount claim.path .absent, sv.at (.release claim (.sweeping seen)))
    | _ => none
  | .proceeds =>
    match sv.stage with
    | .idle | .dead => none
    | .sweeping _ => some (s, sv.at (.claiming 32))
    | .opening path seen =>
      match s.locks path with
      | some file => some (s, sv.at (.locking ⟨path, file⟩ seen))
      | none => some (s, sv.at (.sweeping seen))
    | .locking claim seen =>
      if s.flocks claim.lock = none then some (s.flock claim.lock p, sv.at (.unmountOwned claim seen))
      else some (s, sv.at (.sweeping seen))
    | .unmountOwned claim seen =>
      match s.mounts claim.path with
      | .absent => some (s, sv.at (.removeDir claim (.sweeping seen)))
      | .other => some (s, sv.at (.release claim (.sweeping seen)))
      | .ours => some (s, sv.at (.fusermount claim seen))
    | .fusermount claim seen => some (s.setMount claim.path .absent, sv.at (.removeDir claim (.sweeping seen)))
    | .claiming 0 => some (s, sv.at .idle)
    | .claiming (attempts + 1) =>
      some (s, { sv with nextMount := sv.nextMount + 1, stage := .newLock ⟨p, sv.nextMount⟩ attempts })
    | .newLock path attempts =>
      if s.locks path = none then some (s.createLock path, sv.at (.lockNew ⟨path, s.lockFiles.length⟩ attempts))
      else some (s, sv.at (.claiming attempts))
    | .lockNew claim attempts =>
      if s.flocks claim.lock = none then some (s.flock claim.lock p, sv.at (.createDir claim attempts))
      else some (s, sv.at .idle)
    | .createDir claim attempts =>
      if s.dirs claim.path = false then some (s.createDir claim.path, sv.at (.mounting claim))
      else some (s, sv.at (.removeLock claim (.claiming attempts)))
    | .mounting claim => some (s.setMount claim.path .ours, { sv with mounted := claim :: sv.mounted, stage := .idle })
    | .umountAndJoin claim => some (s.setMount claim.path .absent, sv.at (.removeDir claim .idle))
    | .removeDir claim back =>
      if s.dirs claim.path ∧ s.mounts claim.path = .absent then
        some (s.removeDir claim.path, sv.at (.removeLock claim back))
      else some (s, sv.at (.release claim back))
    | .removeLock claim back => some (s.removeLock claim.path, sv.at (.release claim back))
    | .release claim back => some (s.close claim.lock p, sv.at back.stage)
  | .fails =>
    match sv.stage with
    | .opening _ seen | .locking _ seen => some (s, sv.at (.sweeping seen))
    | .unmountOwned claim seen | .fusermount claim seen => some (s, sv.at (.release claim (.sweeping seen)))
    | .newLock _ _ | .lockNew _ _ => some (s, sv.at .idle)
    | .createDir claim _ => some (s, sv.at (.removeLock claim .idle))
    | .mounting claim | .umountAndJoin claim => some (s, sv.at (.removeDir claim .idle))
    | .removeDir claim back | .removeLock claim back => some (s, sv.at (.release claim back))
    | _ => none

def mountProcesses : Crew Nat MountRuntime MountProcess MountChoice := ⟨mountStep⟩

namespace MountRuntime

/-- A directory that stood at the beginning and had no lock. -/
def Unclaimed (first : MountRuntime) (path : MountPath) : Prop := first.dirs path = true ∧ path ∉ first.lockFiles

variable (s t : MountRuntime) (p q : Nat)

/-- The process holds the lock on the file made for the path. -/
def Claimed (claim : MountClaim) : Prop := s.lockFiles[claim.lock]? = some claim.path ∧ s.flocks claim.lock = some p

/-- Nothing was ever put at this path. -/
structure Untouched (path : MountPath) : Prop where
  noLock : path ∉ s.lockFiles
  never : path ∉ s.stood
  noDir : s.dirs path = false
  noMount : s.mounts path = .absent

/-- What a service serves: its directory with its lock, and its mount on it. -/
structure Live (claim : MountClaim) : Prop where
  own : claim.path.pid = p
  claimed : s.Claimed p claim
  lock : s.locks claim.path = some claim.lock
  dir : s.dirs claim.path = true
  mount : s.mounts claim.path = .ours

/-- What every process may rely on. -/
structure Sound (first : MountRuntime) : Prop where
  nodup : s.lockFiles.Nodup
  named : ∀ path file, s.locks path = some file → s.lockFiles[file]? = some path
  stood : ∀ path, s.dirs path = true → path ∈ s.stood
  claimable : ∀ path, s.dirs path = true → first.Unclaimed path ∨ (s.locks path).isSome
  spared : ∀ path, first.Unclaimed path → s.dirs path = true ∧ s.mounts path = first.mounts path ∧ path ∉ s.lockFiles

/-- What a step of one process leaves to the others: nothing is touched but under a claim of the process, and at
names of its own. -/
structure Frame : Prop where
  files : ∀ (file : Nat) (path : MountPath), s.lockFiles[file]? = some path → t.lockFiles[file]? = some path
  newFiles : ∀ path ∈ t.lockFiles, path ∈ s.lockFiles ∨ path.pid = p
  flocks : ∀ file q, q ≠ p → (t.flocks file = some q ↔ s.flocks file = some q)
  newDirs : ∀ path ∈ t.stood, path ∈ s.stood ∨ path.pid = p
  oldDirs : ∀ path ∈ s.stood, path ∈ t.stood
  elsewhere : ∀ path, (∃ file, s.Claimed p ⟨path, file⟩ ∧ (path ∈ s.stood ∨ path.pid = p)) ∨
    (path.pid = p ∧ path ∉ s.lockFiles) ∨
    (t.dirs path = s.dirs path ∧ t.locks path = s.locks path ∧ t.mounts path = s.mounts path)

end MountRuntime

section Knows

variable (s : MountRuntime) (p : Nat)

def MountBack.Knows : MountBack → Prop
  | .sweeping seen => ∀ path ∈ seen, path ∈ s.stood
  | _ => True

/-- A claim in the hands of the process that is not one of its mounts. -/
structure MountRuntime.Taken (mounted : List MountClaim) (claim : MountClaim) : Prop where
  claimed : s.Claimed p claim
  reached : claim.path ∈ s.stood ∨ claim.path.pid = p
  apart : ∀ mount ∈ mounted, mount.path ≠ claim.path

def MountStage.Knows (mounted : List MountClaim) (nextMount : Nat) : MountStage → Prop
  | .idle | .claiming _ => True
  | .dead => ∀ file, s.flocks file ≠ some p
  | .sweeping seen => ∀ path ∈ seen, path ∈ s.stood
  | .opening path seen => path ∈ s.stood ∧ ∀ path ∈ seen, path ∈ s.stood
  | .locking claim seen =>
    s.lockFiles[claim.lock]? = some claim.path ∧ claim.path ∈ s.stood ∧ ∀ path ∈ seen, path ∈ s.stood
  | .unmountOwned claim seen | .fusermount claim seen => s.Taken p mounted claim ∧ ∀ path ∈ seen, path ∈ s.stood
  | .newLock path _ => path.pid = p ∧ path.sequence < nextMount ∧ s.Untouched path
  | .lockNew claim _ =>
    claim.path.pid = p ∧ claim.path ∉ s.stood ∧ s.lockFiles[claim.lock]? = some claim.path ∧
      s.locks claim.path = some claim.lock ∧ s.dirs claim.path = false ∧ s.mounts claim.path = .absent
  | .createDir claim _ =>
    s.Taken p mounted claim ∧ claim.path.pid = p ∧ s.locks claim.path = some claim.lock ∧ s.dirs claim.path = false ∧
      s.mounts claim.path = .absent
  | .mounting claim =>
    s.Taken p mounted claim ∧ claim.path.pid = p ∧ s.locks claim.path = some claim.lock ∧ s.dirs claim.path = true
  | .umountAndJoin claim => s.Taken p mounted claim
  | .removeDir claim back | .release claim back => s.Taken p mounted claim ∧ back.Knows s
  | .removeLock claim back => s.Taken p mounted claim ∧ s.dirs claim.path = false ∧ back.Knows s

/-- What a process knows: nobody has touched the names it has yet to use, its mounts are as it left them, and the
claim at hand is its own. -/
structure MountProcess.Knows (sv : MountProcess) : Prop where
  fresh : sv.stage ≠ .dead → ∀ n, sv.nextMount ≤ n → s.Untouched ⟨p, n⟩
  live : ∀ claim ∈ sv.mounted, s.Live p claim
  distinct : (sv.mounted.map (·.path)).Nodup
  stage : sv.stage.Knows s p sv.mounted sv.nextMount

end Knows

namespace MountRuntime

variable {first s t : MountRuntime} {p q nextMount : Nat} {claim other : MountClaim} {path : MountPath}
  {mounted : List MountClaim}

/-- One file, one holder: a path is claimed by one process at a time. -/
theorem Claimed.unique (sound : s.Sound first) (one : s.Claimed p claim) (two : s.Claimed q other)
    (same : claim.path = other.path) : claim = other ∧ p = q := by
  have file : claim.lock = other.lock :=
    (List.getElem?_inj (List.getElem?_eq_some_iff.mp one.1).1 sound.nodup).mp (one.1.trans (same ▸ two.1.symm))
  refine ⟨?_, Option.some.inj (one.2.symm.trans (file ▸ two.2))⟩
  cases claim
  cases other
  cases file
  cases same
  rfl

theorem Frame.claimed (frame : s.Frame t p) (different : q ≠ p) (claimed : s.Claimed q claim) : t.Claimed q claim :=
  ⟨frame.files _ _ claimed.1, (frame.flocks _ _ different).mpr claimed.2⟩

/-- A path that another process claims is left alone. -/
theorem Frame.at_claim (frame : s.Frame t p) (sound : s.Sound first) (different : q ≠ p) (claimed : s.Claimed q claim) :
    t.dirs claim.path = s.dirs claim.path ∧ t.locks claim.path = s.locks claim.path ∧
      t.mounts claim.path = s.mounts claim.path := by
  rcases frame.elsewhere claim.path with ⟨file, mine, _⟩ | ⟨_, fresh⟩ | same
  · exact absurd (claimed.unique sound mine rfl).2 different
  · exact absurd (List.mem_of_getElem? claimed.1) fresh
  · exact same

theorem Frame.untouched (frame : s.Frame t p) (different : q ≠ p) {n : Nat} (fresh : s.Untouched ⟨q, n⟩) :
    t.Untouched ⟨q, n⟩ := by
  have same : t.dirs ⟨q, n⟩ = s.dirs ⟨q, n⟩ ∧ t.locks ⟨q, n⟩ = s.locks ⟨q, n⟩ ∧ t.mounts ⟨q, n⟩ = s.mounts ⟨q, n⟩ := by
    rcases frame.elsewhere ⟨q, n⟩ with ⟨file, mine, _⟩ | ⟨own, _⟩ | same
    · exact absurd (List.mem_of_getElem? mine.1) fresh.noLock
    · exact absurd own different
    · exact same
  refine ⟨fun listed => ?_, fun listed => ?_, same.1.trans fresh.noDir, same.2.2.trans fresh.noMount⟩
  · exact (frame.newFiles _ listed).elim fresh.noLock different
  · exact (frame.newDirs _ listed).elim fresh.never different

theorem Frame.live (frame : s.Frame t p) (sound : s.Sound first) (different : q ≠ p) (live : s.Live q claim) :
    t.Live q claim := by
  obtain ⟨dirs, locks, mounts⟩ := frame.at_claim sound different live.claimed
  exact ⟨live.own, frame.claimed different live.claimed, locks.trans live.lock, dirs.trans live.dir, mounts.trans live.mount⟩

theorem Frame.taken (frame : s.Frame t p) (different : q ≠ p) (taken : s.Taken q mounted claim) :
    t.Taken q mounted claim :=
  ⟨frame.claimed different taken.claimed, taken.reached.imp_left (frame.oldDirs _), taken.apart⟩

theorem Frame.seen (frame : s.Frame t p) {seen : List MountPath} (stood : ∀ path ∈ seen, path ∈ s.stood) :
    ∀ path ∈ seen, path ∈ t.stood := fun path listed => frame.oldDirs path (stood path listed)

theorem Frame.back (frame : s.Frame t p) {back : MountBack} (knows : back.Knows s) : back.Knows t := by
  cases back with
  | sweeping seen => exact frame.seen knows
  | idle | claiming _ => trivial

theorem Frame.stage (frame : s.Frame t p) (sound : s.Sound first) (different : q ≠ p) {stage : MountStage}
    (knows : stage.Knows s q mounted nextMount) : stage.Knows t q mounted nextMount := by
  cases stage with
  | idle | claiming _ => trivial
  | dead => exact fun file held => knows file ((frame.flocks file q different).mp held)
  | sweeping seen => exact frame.seen knows
  | opening path seen => exact ⟨frame.oldDirs _ knows.1, frame.seen knows.2⟩
  | locking claim seen => exact ⟨frame.files _ _ knows.1, frame.oldDirs _ knows.2.1, frame.seen knows.2.2⟩
  | unmountOwned claim seen | fusermount claim seen => exact ⟨frame.taken different knows.1, frame.seen knows.2⟩
  | newLock path _ =>
    obtain ⟨own, used, fresh⟩ := knows
    obtain ⟨pid, n⟩ := path
    cases own
    exact ⟨rfl, used, frame.untouched different fresh⟩
  | lockNew claim _ =>
    obtain ⟨own, never, file, lock, dir, mount⟩ := knows
    -- no sweep has come upon the path, for no directory ever stood there
    have same : t.dirs claim.path = s.dirs claim.path ∧ t.locks claim.path = s.locks claim.path ∧
        t.mounts claim.path = s.mounts claim.path := by
      rcases frame.elsewhere claim.path with ⟨_, _, stood | mine⟩ | ⟨mine, _⟩ | same
      · exact absurd stood never
      · exact absurd (own.symm.trans mine) different
      · exact absurd (own.symm.trans mine) different
      · exact same
    refine ⟨own, fun listed => ?_, frame.files _ _ file, same.2.1.trans lock, same.1.trans dir, same.2.2.trans mount⟩
    exact (frame.newDirs _ listed).elim never fun mine => different (own.symm.trans mine)
  | createDir claim _ =>
    obtain ⟨taken, own, lock, dir, mount⟩ := knows
    obtain ⟨dirs, locks, mounts⟩ := frame.at_claim sound different taken.claimed
    exact ⟨frame.taken different taken, own, locks.trans lock, dirs.trans dir, mounts.trans mount⟩
  | mounting claim =>
    obtain ⟨taken, own, lock, dir⟩ := knows
    obtain ⟨dirs, locks, _⟩ := frame.at_claim sound different taken.claimed
    exact ⟨frame.taken different taken, own, locks.trans lock, dirs.trans dir⟩
  | umountAndJoin claim => exact frame.taken different knows
  | removeDir claim back | release claim back => exact ⟨frame.taken different knows.1, frame.back knows.2⟩
  | removeLock claim back =>
    obtain ⟨taken, dir, back⟩ := knows
    exact ⟨frame.taken different taken, (frame.at_claim sound different taken.claimed).1.trans dir, frame.back back⟩

theorem Frame.knows (frame : s.Frame t p) (sound : s.Sound first) (different : q ≠ p) {sv : MountProcess}
    (knows : sv.Knows s q) : sv.Knows t q where
  fresh alive n unused := frame.untouched different (knows.fresh alive n unused)
  live claim listed := frame.live sound different (knows.live claim listed)
  distinct := knows.distinct
  stage := frame.stage sound different knows.stage

/-- A step of `p` leaves the others what they know, and it knows where it is now. -/
structure Kept (s : MountRuntime) (p : Nat) (first t : MountRuntime) (later : MountProcess) : Prop where
  frame : s.Frame t p
  sound : t.Sound first
  knows : later.Knows t p

variable {sv : MountProcess} {stage : MountStage}

theorem Frame.refl (s : MountRuntime) (p : Nat) : s.Frame s p where
  files _ _ at' := at'
  newFiles _ listed := Or.inl listed
  flocks _ _ _ := Iff.rfl
  newDirs _ listed := Or.inl listed
  oldDirs _ listed := listed
  elsewhere _ := Or.inr (Or.inr ⟨rfl, rfl, rfl⟩)

/-- Only the place in the program changes. -/
theorem Kept.turn (sound : s.Sound first) (knows : sv.Knows s p) (alive : sv.stage ≠ .dead)
    (later : stage.Knows s p sv.mounted sv.nextMount) : s.Kept p first s (sv.at stage) where
  frame := .refl s p
  sound := sound
  knows := ⟨fun _ => knows.fresh alive, knows.live, knows.distinct, later⟩

theorem Kept.flock {file : Nat} (sound : s.Sound first) (knows : sv.Knows s p) (alive : sv.stage ≠ .dead)
    (free : s.flocks file = none) (later : stage.Knows (s.flock file p) p sv.mounted sv.nextMount) :
    s.Kept p first (s.flock file p) (sv.at stage) where
  frame := { Frame.refl s p with
    flocks := by
      intro other q different
      dsimp only [MountRuntime.flock]
      by_cases same : other = file
      · subst same
        rw [Function.update_self, free]
        exact iff_of_false (fun mine => different (Option.some.inj mine).symm) (Option.some_ne_none q).symm
      · rw [Function.update_of_ne same] }
  sound := ⟨sound.nodup, sound.named, sound.stood, sound.claimable, sound.spared⟩
  knows := by
    refine ⟨fun _ n unused => ?_, fun claim listed => ?_, knows.distinct, later⟩
    · obtain ⟨noLock, never, noDir, noMount⟩ := knows.fresh alive n unused
      exact ⟨noLock, never, noDir, noMount⟩
    · obtain ⟨own, ⟨made, held⟩, lock, dir, mount⟩ := knows.live claim listed
      refine ⟨own, ⟨made, ?_⟩, lock, dir, mount⟩
      have apart : claim.lock ≠ file := fun same => Option.some_ne_none p (held.symm.trans (same ▸ free))
      exact (Function.update_of_ne apart _ _).trans held

theorem Taken.lock_ne (taken : s.Taken p mounted claim) (listed : other ∈ mounted) (live : s.Live p other) :
    other.lock ≠ claim.lock := by
  intro same
  have made := live.claimed.1
  rw [same, taken.claimed.1] at made
  exact taken.apart other listed (Option.some.inj made).symm

theorem Kept.close (sound : s.Sound first) (knows : sv.Knows s p) (alive : sv.stage ≠ .dead)
    (taken : s.Taken p sv.mounted claim) (later : stage.Knows (s.close claim.lock p) p sv.mounted sv.nextMount) :
    s.Kept p first (s.close claim.lock p) (sv.at stage) where
  frame := { Frame.refl s p with
    flocks := by
      intro other q different
      dsimp only [MountRuntime.close]
      split
      next mine =>
        rw [mine.2]
        exact iff_of_false (Option.some_ne_none q).symm fun same => different (Option.some.inj same).symm
      next => rfl }
  sound := ⟨sound.nodup, sound.named, sound.stood, sound.claimable, sound.spared⟩
  knows := by
    refine ⟨fun _ n unused => ?_, fun claim listed => ?_, knows.distinct, later⟩
    · obtain ⟨noLock, never, noDir, noMount⟩ := knows.fresh alive n unused
      exact ⟨noLock, never, noDir, noMount⟩
    · have live := knows.live claim listed
      have apart := taken.lock_ne listed live
      obtain ⟨own, ⟨made, held⟩, lock, dir, mount⟩ := live
      exact ⟨own, ⟨made, (if_neg fun same => apart same.1).trans held⟩, lock, dir, mount⟩

/-- What was at the path of a claim in hand is changed, and nothing else. -/
theorem Kept.under (knows : sv.Knows s p) (alive : sv.stage ≠ .dead) (taken : s.Taken p sv.mounted claim)
    (elsewhere : ∀ path, path ≠ claim.path →
      t.dirs path = s.dirs path ∧ t.locks path = s.locks path ∧ t.mounts path = s.mounts path)
    (flocks : t.flocks = s.flocks) (files : t.lockFiles = s.lockFiles)
    (stood : t.stood = s.stood ∨ (claim.path.pid = p ∧ t.stood = claim.path :: s.stood)) (sound : t.Sound first)
    (later : stage.Knows t p sv.mounted sv.nextMount) : s.Kept p first t (sv.at stage) where
  frame := by
    refine ⟨fun file path made => files ▸ made, fun path listed => Or.inl (files ▸ listed), fun file q _ => by rw [flocks],
      fun path listed => ?_, fun path listed => ?_, fun path => ?_⟩
    · rcases stood with same | ⟨own, grown⟩
      · exact Or.inl (same ▸ listed)
      · rw [grown] at listed
        rcases List.mem_cons.mp listed with rfl | old
        · exact Or.inr own
        · exact Or.inl old
    · rcases stood with same | ⟨_, grown⟩
      · exact same ▸ listed
      · exact grown ▸ List.mem_cons_of_mem _ listed
    · by_cases same : path = claim.path
      · exact Or.inl ⟨claim.lock, same ▸ taken.claimed, same ▸ taken.reached⟩
      · exact Or.inr (Or.inr (elsewhere path same))
  sound := sound
  knows := by
    refine ⟨fun _ n unused => ?_, fun mount listed => ?_, knows.distinct, later⟩
    · obtain ⟨noLock, never, noDir, noMount⟩ := knows.fresh alive n unused
      have apart : ⟨p, n⟩ ≠ claim.path := fun same => noLock (same ▸ List.mem_of_getElem? taken.claimed.1)
      obtain ⟨dirs, _, mounts⟩ := elsewhere _ apart
      refine ⟨files ▸ noLock, fun listed => ?_, dirs.trans noDir, mounts.trans noMount⟩
      rcases stood with same | ⟨_, grown⟩
      · exact never (same ▸ listed)
      · rw [grown] at listed
        rcases List.mem_cons.mp listed with same | old
        · exact apart same
        · exact never old
    · obtain ⟨own, ⟨made, held⟩, lock, dir, kind⟩ := knows.live mount listed
      obtain ⟨dirs, locks, mounts⟩ := elsewhere _ (taken.apart mount listed)
      exact ⟨own, ⟨files ▸ made, flocks ▸ held⟩, locks.trans lock, dirs.trans dir, mounts.trans kind⟩

theorem Sound.at_claim (sound : s.Sound first) (claimed : s.Claimed p claim) : ¬ first.Unclaimed claim.path :=
  fun unclaimed => (sound.spared _ unclaimed).2.2 (List.mem_of_getElem? claimed.1)

theorem Sound.setMount (sound : s.Sound first) (claimed : s.Claimed p claim) (kind : MountKind) :
    (s.setMount claim.path kind).Sound first where
  nodup := sound.nodup
  named := sound.named
  stood := sound.stood
  claimable := sound.claimable
  spared path unclaimed := by
    obtain ⟨dir, mount, noLock⟩ := sound.spared path unclaimed
    have apart : path ≠ claim.path := fun same => sound.at_claim claimed (same ▸ unclaimed)
    exact ⟨dir, (Function.update_of_ne apart _ _).trans mount, noLock⟩

theorem Sound.removeDir (sound : s.Sound first) (claimed : s.Claimed p claim) : (s.removeDir claim.path).Sound first where
  nodup := sound.nodup
  named := sound.named
  stood path there := by
    by_cases same : path = claim.path
    · subst same
      exact absurd ((Function.update_self _ _ _).symm.trans there) Bool.false_ne_true
    · exact sound.stood path ((Function.update_of_ne same _ _).symm.trans there)
  claimable path there := by
    by_cases same : path = claim.path
    · subst same
      exact absurd ((Function.update_self _ _ _).symm.trans there) Bool.false_ne_true
    · exact sound.claimable path ((Function.update_of_ne same _ _).symm.trans there)
  spared path unclaimed := by
    obtain ⟨dir, mount, noLock⟩ := sound.spared path unclaimed
    have apart : path ≠ claim.path := fun same => sound.at_claim claimed (same ▸ unclaimed)
    exact ⟨(Function.update_of_ne apart _ _).trans dir, mount, noLock⟩

theorem Sound.removeLock (sound : s.Sound first) (gone : s.dirs path = false) : (s.removeLock path).Sound first where
  nodup := sound.nodup
  named other file there := by
    by_cases same : other = path
    · subst same
      exact absurd ((Function.update_self _ _ _).symm.trans there).symm (Option.some_ne_none file)
    · exact sound.named other file ((Function.update_of_ne same _ _).symm.trans there)
  stood := sound.stood
  claimable other there := by
    have apart : other ≠ path := fun same => Bool.false_ne_true (gone.symm.trans (same ▸ there))
    refine (sound.claimable other there).imp_right fun lock => ?_
    exact (congrArg Option.isSome (Function.update_of_ne apart _ _)).trans lock
  spared := sound.spared

theorem Sound.createDir (sound : s.Sound first) (claimed : s.Claimed p claim) (lock : s.locks claim.path = some claim.lock) :
    (s.createDir claim.path).Sound first where
  nodup := sound.nodup
  named := sound.named
  stood path there := by
    by_cases same : path = claim.path
    · exact same ▸ List.mem_cons_self
    · exact List.mem_cons_of_mem _ (sound.stood path ((Function.update_of_ne same _ _).symm.trans there))
  claimable path there := by
    by_cases same : path = claim.path
    · exact Or.inr (by rw [same]; exact congrArg Option.isSome lock)
    · exact sound.claimable path ((Function.update_of_ne same _ _).symm.trans there)
  spared path unclaimed := by
    obtain ⟨dir, mount, noLock⟩ := sound.spared path unclaimed
    have apart : path ≠ claim.path := fun same => sound.at_claim claimed (same ▸ unclaimed)
    exact ⟨(Function.update_of_ne apart _ _).trans dir, mount, noLock⟩

theorem createLock_files {file : Nat} {made : MountPath} (at' : s.lockFiles[file]? = some made) :
    (s.createLock path).lockFiles[file]? = some made :=
  (List.getElem?_append_left (List.getElem?_eq_some_iff.mp at').1).trans at'

theorem Sound.createLock (sound : s.Sound first) (fresh : s.Untouched path) : (s.createLock path).Sound first where
  nodup := by
    refine List.nodup_append.mpr ⟨sound.nodup, List.nodup_singleton path, fun old listed new last same => ?_⟩
    exact fresh.noLock (List.mem_singleton.mp last ▸ same ▸ listed)
  named other file there := by
    by_cases same : other = path
    · subst same
      dsimp only [MountRuntime.createLock] at there ⊢
      rw [Function.update_self] at there
      rw [← Option.some.inj there]
      exact List.getElem?_concat_length
    · exact createLock_files (sound.named other file ((Function.update_of_ne same _ _).symm.trans there))
  stood := sound.stood
  claimable other there := by
    by_cases same : other = path
    · refine Or.inr ?_
      dsimp only [MountRuntime.createLock]
      rw [same, Function.update_self]
      rfl
    · refine (sound.claimable other there).imp_right fun lock => ?_
      exact (congrArg Option.isSome (Function.update_of_ne same _ _)).trans lock
  spared other unclaimed := by
    obtain ⟨dir, mount, noLock⟩ := sound.spared other unclaimed
    refine ⟨dir, mount, fun listed => ?_⟩
    rcases List.mem_append.mp listed with old | new
    · exact noLock old
    · exact Bool.false_ne_true (fresh.noDir.symm.trans (List.mem_singleton.mp new ▸ dir))

theorem Kept.createLock {attempts : Nat} (sound : s.Sound first) (knows : sv.Knows s p) (alive : sv.stage ≠ .dead)
    (own : path.pid = p) (used : path.sequence < sv.nextMount) (fresh : s.Untouched path) :
    s.Kept p first (s.createLock path) (sv.at (.lockNew ⟨path, s.lockFiles.length⟩ attempts)) where
  frame := { Frame.refl s p with
    files := fun _ _ made => createLock_files made
    newFiles := fun other listed => (List.mem_append.mp listed).imp_right fun new => by
      rw [List.mem_singleton.mp new]
      exact own
    elsewhere := fun other => by
      by_cases same : other = path
      · exact Or.inr (Or.inl ⟨same ▸ own, same ▸ fresh.noLock⟩)
      · exact Or.inr (Or.inr ⟨rfl, Function.update_of_ne same _ _, rfl⟩) }
  sound := sound.createLock fresh
  knows := by
    refine ⟨fun _ n unused => ?_, fun mount listed => ?_, knows.distinct, ?_⟩
    · obtain ⟨noLock, never, noDir, noMount⟩ := knows.fresh alive n unused
      refine ⟨fun listed => (List.mem_append.mp listed).elim noLock fun new => ?_, never, noDir, noMount⟩
      have number : path.sequence = n := (congrArg MountPath.sequence (List.mem_singleton.mp new)).symm
      exact absurd used (Nat.not_lt.mpr (number ▸ unused))
    · obtain ⟨own, ⟨made, held⟩, lock, dir, kind⟩ := knows.live mount listed
      have apart : mount.path ≠ path := fun same => fresh.noLock (same ▸ List.mem_of_getElem? made)
      exact ⟨own, ⟨createLock_files made, held⟩, (Function.update_of_ne apart _ _).trans lock, dir, kind⟩
    · exact ⟨own, fresh.never, List.getElem?_concat_length, Function.update_self _ _ _, fresh.noDir, fresh.noMount⟩

theorem Kept.dies (sv : MountProcess) (sound : s.Sound first) :
    s.Kept p first (s.closeAll p) { sv with mounted := [], stage := .dead } where
  frame := { Frame.refl s p with
    flocks := by
      intro other q different
      dsimp only [MountRuntime.closeAll]
      split
      next mine =>
        rw [mine]
        exact iff_of_false (Option.some_ne_none q).symm fun same => different (Option.some.inj same).symm
      next => rfl }
  sound := ⟨sound.nodup, sound.named, sound.stood, sound.claimable, sound.spared⟩
  knows := by
    refine ⟨fun alive => absurd rfl alive, fun claim listed => absurd listed List.not_mem_nil, List.nodup_nil, ?_⟩
    intro file held
    dsimp only [MountRuntime.closeAll] at held
    split at held
    next => exact Option.some_ne_none p held.symm
    next other => exact other held

/-- The mount is served from now on. -/
theorem Kept.serves (sound : s.Sound first) (knows : sv.Knows s p) (alive : sv.stage ≠ .dead)
    (taken : s.Taken p sv.mounted claim) (own : claim.path.pid = p) (lock : s.locks claim.path = some claim.lock)
    (dir : s.dirs claim.path = true) :
    s.Kept p first (s.setMount claim.path .ours) { sv with mounted := claim :: sv.mounted, stage := .idle } := by
  have kept : s.Kept p first (s.setMount claim.path .ours) (sv.at .idle) :=
    .under knows alive taken (fun path apart => ⟨rfl, rfl, Function.update_of_ne apart _ _⟩) rfl rfl (Or.inl rfl)
      (sound.setMount taken.claimed _) trivial
  refine ⟨kept.frame, kept.sound, ⟨fun _ => kept.knows.fresh fun dead => MountStage.noConfusion dead, fun mount listed => ?_,
    List.nodup_cons.mpr ⟨fun listed => ?_, knows.distinct⟩, trivial⟩⟩
  · rcases List.mem_cons.mp listed with rfl | old
    · exact ⟨own, taken.claimed, lock, dir, Function.update_self _ _ _⟩
    · exact kept.knows.live mount old
  · obtain ⟨mount, old, same⟩ := List.mem_map.mp listed
    exact taken.apart mount old same

theorem Kept.dropped (sound : s.Sound first) (knows : sv.Knows s p) (alive : sv.stage ≠ .dead)
    (listed : claim ∈ sv.mounted) :
    s.Kept p first s { sv with mounted := sv.mounted.erase claim, stage := .umountAndJoin claim } where
  frame := .refl s p
  sound := sound
  knows := by
    have live := knows.live claim listed
    have distinct := ((List.perm_cons_erase listed).map (·.path)).nodup_iff.mp knows.distinct
    obtain ⟨apart, rest⟩ := List.nodup_cons.mp distinct
    refine ⟨fun _ => knows.fresh alive, fun mount old => knows.live mount (List.mem_of_mem_erase old), rest, ?_⟩
    exact ⟨live.claimed, Or.inr live.own, fun mount old same => apart (List.mem_map.mpr ⟨mount, old, same⟩)⟩

/-- The claim at hand is given up, with its file closed. -/
theorem back_knows {back : MountBack} {nextMount : Nat} (knows : back.Knows s) :
    back.stage.Knows s p mounted nextMount := by
  cases back with
  | idle => trivial
  | sweeping seen => exact knows
  | claiming attempts => trivial

/-- The steps whose outcome is that the process goes on at another place. -/
theorem fails_kept {later : MountProcess} (step : mountStep s p sv .fails = some (t, later)) (sound : s.Sound first)
    (knows : sv.Knows s p) : s.Kept p first t later := by
  obtain ⟨nextMount, mounted, stage⟩ := sv
  have there := knows.stage
  cases stage with
  | idle => exact absurd step.symm (Option.some_ne_none _)
  | dead => exact absurd step.symm (Option.some_ne_none _)
  | sweeping seen => exact absurd step.symm (Option.some_ne_none _)
  | claiming attempts => exact absurd step.symm (Option.some_ne_none _)
  | release claim back => exact absurd step.symm (Option.some_ne_none _)
  | opening path seen =>
    cases step
    exact .turn sound knows (by simp) there.2
  | locking claim seen =>
    cases step
    exact .turn sound knows (by simp) there.2.2
  | unmountOwned claim seen =>
    cases step
    exact .turn sound knows (by simp) there
  | fusermount claim seen =>
    cases step
    exact .turn sound knows (by simp) there
  | newLock path attempts =>
    cases step
    exact .turn sound knows (by simp) trivial
  | lockNew claim attempts =>
    cases step
    exact .turn sound knows (by simp) trivial
  | createDir claim attempts =>
    cases step
    obtain ⟨taken, own, lock, noDir, noMount⟩ := there
    exact .turn sound knows (by simp) ⟨taken, noDir, trivial⟩
  | mounting claim =>
    cases step
    exact .turn sound knows (by simp) ⟨there.1, trivial⟩
  | umountAndJoin claim =>
    cases step
    exact .turn sound knows (by simp) ⟨there, trivial⟩
  | removeDir claim back =>
    cases step
    exact .turn sound knows (by simp) there
  | removeLock claim back =>
    cases step
    exact .turn sound knows (by simp) ⟨there.1, there.2.2⟩

theorem Kept.unmount (sound : s.Sound first) (knows : sv.Knows s p)
    (alive : sv.stage ≠ .dead) (taken : s.Taken p sv.mounted claim)
    (later : stage.Knows (s.setMount claim.path .absent) p sv.mounted sv.nextMount) :
    s.Kept p first (s.setMount claim.path .absent) (sv.at stage) :=
  .under knows alive taken (fun _ apart => ⟨rfl, rfl, Function.update_of_ne apart _ _⟩) rfl rfl (Or.inl rfl)
    (sound.setMount taken.claimed _) later

theorem proceeds_kept {later : MountProcess} (step : mountStep s p sv .proceeds = some (t, later)) (sound : s.Sound first)
    (knows : sv.Knows s p) : s.Kept p first t later := by
  obtain ⟨nextMount, mounted, stage⟩ := sv
  have there := knows.stage
  cases stage with
  | idle => exact absurd step.symm (Option.some_ne_none _)
  | dead => exact absurd step.symm (Option.some_ne_none _)
  | sweeping seen =>
    cases step
    exact .turn sound knows (by simp) trivial
  | opening path seen =>
    dsimp only [mountStep] at step
    split at step
    next file lock =>
      cases step
      exact .turn sound knows (by simp) ⟨sound.named path file lock, there.1, there.2⟩
    next =>
      cases step
      exact .turn sound knows (by simp) there.2
  | locking claim seen =>
    obtain ⟨made, stood, seenStood⟩ := there
    by_cases free : s.flocks claim.lock = none
    · dsimp only [mountStep] at step
      rw [if_pos free] at step
      cases step
      refine .flock sound knows (by simp) free ⟨⟨⟨made, Function.update_self _ _ _⟩, Or.inl stood, ?_⟩, seenStood⟩
      -- a mount of the process holds its file already
      intro mount listed same
      have live := knows.live mount listed
      have file : mount.lock = claim.lock :=
        (List.getElem?_inj (List.getElem?_eq_some_iff.mp live.claimed.1).1 sound.nodup).mp
          (live.claimed.1.trans (same ▸ made.symm))
      exact Option.some_ne_none p (live.claimed.2.symm.trans (file ▸ free))
    · dsimp only [mountStep] at step
      rw [if_neg free] at step
      cases step
      exact .turn sound knows (by simp) seenStood
  | unmountOwned claim seen =>
    dsimp only [mountStep] at step
    split at step
    · cases step
      exact .turn sound knows (by simp) there
    · cases step
      exact .turn sound knows (by simp) there
    · cases step
      exact .turn sound knows (by simp) there
  | fusermount claim seen =>
    cases step
    exact .unmount sound knows (by simp) there.1 ⟨⟨there.1.claimed, there.1.reached, there.1.apart⟩, there.2⟩
  | claiming attempts =>
    cases attempts with
    | zero =>
      cases step
      exact .turn sound knows (by simp) trivial
    | succ attempts =>
      cases step
      have kept : s.Kept p first s ((⟨nextMount, mounted, .claiming (attempts + 1)⟩ : MountProcess).at (.claiming attempts)) :=
        .turn sound knows (by simp) trivial
      refine ⟨kept.frame, sound, fun _ n unused => ?_, knows.live, knows.distinct, rfl, Nat.lt_succ_self _, ?_⟩
      · exact knows.fresh (by simp) n (Nat.le_of_succ_le unused)
      · exact knows.fresh (by simp) nextMount (Nat.le_refl _)
  | newLock path attempts =>
    obtain ⟨own, used, fresh⟩ := there
    by_cases free : s.locks path = none
    · dsimp only [mountStep] at step
      rw [if_pos free] at step
      cases step
      exact .createLock sound knows (by simp) own used fresh
    · dsimp only [mountStep] at step
      rw [if_neg free] at step
      cases step
      exact .turn sound knows (by simp) trivial
  | lockNew claim attempts =>
    obtain ⟨own, never, made, lock, noDir, noMount⟩ := there
    by_cases free : s.flocks claim.lock = none
    · dsimp only [mountStep] at step
      rw [if_pos free] at step
      cases step
      refine .flock sound knows (by simp) free
        ⟨⟨⟨made, Function.update_self _ _ _⟩, Or.inr own, fun mount listed same => ?_⟩, own, lock, noDir, noMount⟩
      exact never (same ▸ sound.stood _ (knows.live mount listed).dir)
    · dsimp only [mountStep] at step
      rw [if_neg free] at step
      cases step
      exact .turn sound knows (by simp) trivial
  | createDir claim attempts =>
    obtain ⟨taken, own, lock, noDir, noMount⟩ := there
    by_cases free : s.dirs claim.path = false
    · dsimp only [mountStep] at step
      rw [if_pos free] at step
      cases step
      refine .under knows (by simp) taken (fun _ apart => ⟨Function.update_of_ne apart _ _, rfl, rfl⟩) rfl rfl
        (Or.inr ⟨own, rfl⟩) (sound.createDir taken.claimed lock) ⟨?_, own, lock, Function.update_self _ _ _⟩
      exact ⟨taken.claimed, Or.inr own, taken.apart⟩
    · exact absurd noDir free
  | mounting claim =>
    obtain ⟨taken, own, lock, dir⟩ := there
    cases step
    exact .serves sound knows (by simp) taken own lock dir
  | umountAndJoin claim =>
    cases step
    exact .unmount sound knows (by simp) there ⟨⟨there.claimed, there.reached, there.apart⟩, trivial⟩
  | removeDir claim back =>
    obtain ⟨taken, after⟩ := there
    by_cases bare : s.dirs claim.path ∧ s.mounts claim.path = .absent
    · dsimp only [mountStep] at step
      rw [if_pos bare] at step
      cases step
      exact .under knows (by simp) taken (fun _ apart => ⟨Function.update_of_ne apart _ _, rfl, rfl⟩) rfl rfl (Or.inl rfl)
        (sound.removeDir taken.claimed)
        ⟨⟨taken.claimed, taken.reached, taken.apart⟩, Function.update_self _ _ _, after⟩
    · dsimp only [mountStep] at step
      rw [if_neg bare] at step
      cases step
      exact .turn sound knows (by simp) ⟨taken, after⟩
  | removeLock claim back =>
    cases step
    obtain ⟨taken, gone, after⟩ := there
    exact .under knows (by simp) taken (fun _ apart => ⟨rfl, Function.update_of_ne apart _ _, rfl⟩) rfl rfl (Or.inl rfl)
      (sound.removeLock gone) ⟨⟨taken.claimed, taken.reached, taken.apart⟩, after⟩
  | release claim back =>
    cases step
    exact .close sound knows (by simp) there.1 (back_knows there.2)

theorem mountStep_kept {choice : MountChoice} {later : MountProcess} (step : mountStep s p sv choice = some (t, later))
    (sound : s.Sound first) (knows : sv.Knows s p) : s.Kept p first t later := by
  obtain ⟨nextMount, mounted, stage⟩ := sv
  have there := knows.stage
  cases choice with
  | proceeds => exact proceeds_kept step sound knows
  | fails => exact fails_kept step sound knows
  | create =>
    dsimp only [mountStep] at step
    split at step
    · cases step
      exact .turn sound knows (by simp) fun path listed => absurd listed List.not_mem_nil
    · exact absurd step.symm (Option.some_ne_none _)
  | drop claim =>
    dsimp only [mountStep] at step
    split at step
    · split at step
      next listed =>
        cases step
        exact .dropped sound knows (by simp) listed
      next => exact absurd step.symm (Option.some_ne_none _)
    · exact absurd step.symm (Option.some_ne_none _)
  | reads path =>
    dsimp only [mountStep] at step
    split at step
    · split at step
      next seen dir =>
        cases step
        refine .turn sound knows (by simp) fun other listed => ?_
        rcases List.mem_cons.mp listed with rfl | old
        · exact sound.stood _ dir
        · exact there other old
      next => exact absurd step.symm (Option.some_ne_none _)
    · exact absurd step.symm (Option.some_ne_none _)
  | takes path =>
    dsimp only [mountStep] at step
    split at step
    · split at step
      next seen listed =>
        cases step
        exact .turn sound knows (by simp) ⟨there path listed, there⟩
      next => exact absurd step.symm (Option.some_ne_none _)
    · exact absurd step.symm (Option.some_ne_none _)
  | late =>
    dsimp only [mountStep] at step
    split at step
    · cases step
      exact .unmount sound knows (by simp) there.1 ⟨⟨there.1.claimed, there.1.reached, there.1.apart⟩, there.2⟩
    · exact absurd step.symm (Option.some_ne_none _)
  | dies =>
    dsimp only [mountStep] at step
    split at step
    · exact absurd step.symm (Option.some_ne_none _)
    · cases step
      exact Kept.dies ⟨nextMount, mounted, stage⟩ sound

end MountRuntime

/-- What earlier processes left: their directories with the locks they had, and whatever others made. -/
structure MountRuntime.Left (first : MountRuntime) : Prop where
  nodup : first.lockFiles.Nodup
  locks : ∀ path file, first.locks path = some file ↔ first.lockFiles[file]? = some path
  stood : ∀ path, first.dirs path = true → path ∈ first.stood
  free : ∀ file, first.flocks file = none

/-- A process that runs has a number that nothing in the directory bears. -/
def MountProcess.Begins (first : MountRuntime) (p : Nat) (sv : MountProcess) : Prop :=
  sv.mounted = [] ∧ (sv.stage = .dead ∨ sv.stage = .idle ∧ ∀ n, first.Untouched ⟨p, n⟩)

abbrev MountWorld := Crew.World Nat MountRuntime MountProcess

def mountSystem (first : MountRuntime) : StepSystem MountWorld (Nat × MountChoice) :=
  mountProcesses.system fun w => w.shared = first ∧ ∀ p, (w.place p).Begins first p

namespace MountRuntime

variable {first : MountRuntime} {w : MountWorld} {p : Nat} {path : MountPath}

theorem mountProcesses_outline (first : MountRuntime) :
    mountProcesses.Outline (·.Sound first) fun s p sv => sv.Knows s p where
  keeps _ _ _ _ _ _ step sound knows :=
    have kept := mountStep_kept step sound knows
    ⟨kept.sound, kept.knows⟩
  spares _ _ _ _ _ _ _ _ apart step sound knows other :=
    (mountStep_kept step sound knows).frame.knows sound apart.symm other

theorem Left.sound (left : first.Left) : first.Sound first where
  nodup := left.nodup
  named path file := (left.locks path file).mp
  stood := left.stood
  claimable path there := by
    by_cases listed : path ∈ first.lockFiles
    · obtain ⟨file, made⟩ := List.mem_iff_getElem?.mp listed
      exact Or.inr (Option.isSome_iff_exists.mpr ⟨file, (left.locks path file).mpr made⟩)
    · exact Or.inl ⟨there, listed⟩
  spared _ unclaimed := ⟨unclaimed.1, rfl, unclaimed.2⟩

theorem Left.begins_knows (left : first.Left) {sv : MountProcess} (begins : sv.Begins first p) : sv.Knows first p := by
  obtain ⟨nextMount, mounted, stage⟩ := sv
  obtain ⟨none, dead | ⟨idle, fresh⟩⟩ := begins
  · cases none
    cases dead
    refine ⟨fun alive => absurd rfl alive, fun claim listed => absurd listed List.not_mem_nil, List.nodup_nil, ?_⟩
    exact fun file held => Option.some_ne_none p (held.symm.trans (left.free file))
  · cases none
    cases idle
    exact ⟨fun _ n _ => fresh n, fun claim listed => absurd listed List.not_mem_nil, List.nodup_nil, trivial⟩

theorem Left.inductive (left : first.Left) :
    (mountSystem first).Inductive fun w => w.shared.Sound first ∧ ∀ p, (w.place p).Knows w.shared p := by
  refine (mountProcesses_outline first).inductive fun w begins => ?_
  rw [begins.1]
  exact ⟨left.sound, fun p => left.begins_knows (begins.2 p)⟩

end MountRuntime

/-- Whatever other processes mount, drop and sweep, and wherever some of them stop: what a service serves keeps its
directory, its lock and its mount, a directory of ours always has a lock file for a later sweep to take, and what
was there without one is left as it was. -/
theorem mounts_claimed {first : MountRuntime} (left : first.Left) {w : MountWorld} (reach : (mountSystem first).Reach w) :
    (∀ p, ∀ claim ∈ (w.place p).mounted, w.shared.Live p claim) ∧
    (∀ path, w.shared.dirs path = true → first.Unclaimed path ∨ (w.shared.locks path).isSome) ∧
    (∀ path, first.Unclaimed path → w.shared.dirs path = true ∧ w.shared.mounts path = first.mounts path) := by
  obtain ⟨sound, knows⟩ := left.inductive.reach reach
  refine ⟨fun p claim listed => (knows p).live claim listed, sound.claimable, fun path unclaimed => ?_⟩
  obtain ⟨dir, mount, _⟩ := sound.spared path unclaimed
  exact ⟨dir, mount⟩

def emptyMounts : MountRuntime := ⟨fun _ => false, fun _ => none, fun _ => .absent, fun _ => none, [], []⟩

def idleMounts : MountWorld := ⟨emptyMounts, fun _ => ⟨0, [], .idle⟩⟩

theorem emptyMounts_left : emptyMounts.Left :=
  ⟨List.nodup_nil, fun _ _ => iff_of_false (Option.some_ne_none _).symm (Option.some_ne_none _).symm,
    fun _ there => absurd there Bool.false_ne_true, fun _ => rfl⟩

theorem idleMounts_start : (mountSystem emptyMounts).start idleMounts :=
  ⟨rfl, fun _ => ⟨rfl, Or.inr ⟨rfl, fun _ => ⟨List.not_mem_nil, List.not_mem_nil, rfl, rfl⟩⟩⟩⟩

/-- The second process comes upon the directory of the first one, which it has just made. -/
def mountSwept : List (Nat × MountChoice) :=
  [(1, .create), (1, .proceeds), (1, .proceeds), (1, .proceeds), (1, .proceeds), (1, .proceeds), (2, .create),
    (2, .reads ⟨1, 0⟩), (2, .takes ⟨1, 0⟩), (2, .proceeds), (1, .proceeds), (2, .proceeds), (2, .proceeds)]

theorem mounts_claimed_swept : ∃ w, (mountSystem emptyMounts).Reach w ∧ w.shared.Live 1 ⟨⟨1, 0⟩, 0⟩ := by
  obtain ⟨w, run, mounted⟩ : ∃ w, StepSystem.exec mountProcesses.next idleMounts mountSwept = some w ∧
      (w.place 1).mounted = [⟨⟨1, 0⟩, 0⟩] := ⟨_, rfl, rfl⟩
  have reach : (mountSystem emptyMounts).Reach w := .exec (fun _ _ _ step => step) mountSwept (.start idleMounts_start) run
  exact ⟨w, reach, (mounts_claimed emptyMounts_left reach).1 1 _ (by rw [mounted]; exact List.mem_singleton_self _)⟩

section Sweep

variable {s : MountRuntime} {sv : MountProcess} {p file : Nat} {path : MountPath}

/-- The choices of a sweep that finds one directory. -/
def sweepOne (path : MountPath) (kind : MountKind) : List MountChoice :=
  [MountChoice.create, .reads path, .takes path, .proceeds, .proceeds, .proceeds] ++
    (if kind = .ours then [MountChoice.proceeds] else []) ++ [MountChoice.proceeds, .proceeds, .proceeds]

/-- What it leaves of a directory that nobody has claimed any more. -/
def MountRuntime.swept (s : MountRuntime) (claim : MountClaim) (p : Nat) : MountRuntime :=
  (((((s.flock claim.lock p).setMount claim.path .absent).removeDir claim.path).removeLock claim.path).close claim.lock p)

theorem sweepOne_swept (idle : sv.stage = .idle) (dir : s.dirs path = true) (lock : s.locks path = some file)
    (free : s.flocks file = none) (mount : s.mounts path ≠ .other) :
    StepSystem.exec (fun now choice => mountStep now.1 p now.2 choice) (s, sv) (sweepOne path (s.mounts path)) =
      some (s.swept ⟨path, file⟩ p, sv.at (.sweeping [path])) := by
  obtain ⟨nextMount, mounted, stage⟩ := sv
  cases idle
  cases kind : s.mounts path with
  | absent =>
    have same : (s.flock file p).setMount path .absent = s.flock file p := by
      simp [MountRuntime.setMount, MountRuntime.flock, ← kind]
    simp [sweepOne, StepSystem.exec, mountStep, MountProcess.at, MountRuntime.swept, same, dir, lock, free, kind,
      MountBack.stage]
  | ours =>
    simp [sweepOne, StepSystem.exec, mountStep, MountProcess.at, MountRuntime.swept, dir, lock, free, kind,
      MountBack.stage]
  | other => exact absurd kind mount

end Sweep

/-- A directory of ours whose users have all died is gone after the sweep of any process. -/
theorem left_mount_swept {first : MountRuntime} (left : first.Left) {w : MountWorld} (reach : (mountSystem first).Reach w)
    {p : Nat} (idle : (w.place p).stage = .idle) {path : MountPath} (dir : w.shared.dirs path = true)
    (ours : ¬ first.Unclaimed path) (mount : w.shared.mounts path ≠ .other)
    (died : ∀ file q, w.shared.locks path = some file → w.shared.flocks file = some q → (w.place q).stage = .dead) :
    ∃ u, ((mountSystem first).after w).Reach u ∧ u.shared.dirs path = false ∧ u.shared.locks path = none ∧
      u.shared.mounts path = .absent := by
  obtain ⟨sound, knows⟩ := left.inductive.reach reach
  obtain ⟨file, lock⟩ := Option.isSome_iff_exists.mp ((sound.claimable path dir).resolve_left ours)
  have free : w.shared.flocks file = none := by
    by_contra held
    obtain ⟨q, holds⟩ := Option.ne_none_iff_exists'.mp held
    have there := (knows q).stage
    rw [died file q lock holds] at there
    exact there file holds
  have run := Crew.exec_alone (C := mountProcesses) (w := w) (sweepOne_swept idle dir lock free mount)
  refine ⟨_, .exec (fun _ _ _ step => step) _ (.start rfl) run, ?_, ?_, ?_⟩
  · exact Function.update_self _ _ _
  · exact Function.update_self _ _ _
  · exact Function.update_self _ _ _

theorem left_mount_swept_once : ∃ w u, (w.shared : MountRuntime).dirs ⟨1, 0⟩ = true ∧
    ((mountSystem emptyMounts).after w).Reach u ∧ u.shared.dirs ⟨1, 0⟩ = false ∧ u.shared.locks ⟨1, 0⟩ = none ∧
      u.shared.mounts ⟨1, 0⟩ = .absent := by
  obtain ⟨w, run, idle, dir, mount, free, lock⟩ : ∃ w,
      StepSystem.exec mountProcesses.next idleMounts ((mountSwept.take 6) ++ [(1, MountChoice.proceeds), (1, .dies)]) = some w ∧
        (w.place 2).stage = .idle ∧ w.shared.dirs ⟨1, 0⟩ = true ∧ w.shared.mounts ⟨1, 0⟩ = .ours ∧
          w.shared.flocks 0 = none ∧ w.shared.locks ⟨1, 0⟩ = some 0 := ⟨_, rfl, rfl, rfl, rfl, rfl, rfl⟩
  have reach : (mountSystem emptyMounts).Reach w := .exec (fun _ _ _ step => step) _ (.start idleMounts_start) run
  obtain ⟨u, more⟩ := left_mount_swept emptyMounts_left reach idle dir
    (fun unclaimed => Bool.false_ne_true unclaimed.1) (by rw [mount]; decide) fun file q held holds => by
      cases lock.symm.trans held
      cases free.symm.trans holds
  exact ⟨w, u, dir, more⟩

end HyprRdp
