import HyprRdp.Lib.Runs
import Mathlib.Data.List.Infix

namespace HyprRdp

/-- Where a loop over a pipe is: at its check of the time, in a `poll`, or at its read or write. -/
inductive TransferStage (Outcome : Type)
  | checking | polling | moving
  | done (outcome : Outcome)

/-- The time of a transfer in milliseconds: `polled` is when the last `poll` began. -/
structure TransferClock where
  now : Nat
  started : Nat
  lastProgress : Nat
  polled : Nat

structure TransferLimits where
  maxSize : Nat
  stall : Nat
  total : Nat

/-- A `poll` waits for this long at most. -/
def pollTimeout : Nat := 100

namespace TransferClock

variable (c : TransferClock) (l : TransferLimits)

def begin (now : Nat) : TransferClock := ⟨now, now, now, now⟩

def timedOut : Bool := l.total ≤ c.now - c.started || l.stall ≤ c.now - c.lastProgress

def progress : TransferClock := { c with lastProgress := c.now }

/-- What holds of the time in every loop of this kind: the last check was made before the deadline, and no `poll` has
taken longer than it may. -/
structure Sound : Prop where
  started : c.started ≤ c.lastProgress
  progressed : c.lastProgress ≤ c.now
  polled : c.polled ≤ c.now
  waited : c.now ≤ c.polled + pollTimeout
  early : c.polled ≤ c.started + l.total

variable {c} {l}

theorem begin_sound (now : Nat) : (begin now).Sound l :=
  ⟨Nat.le_refl _, Nat.le_refl _, Nat.le_refl _, Nat.le_add_right _ _, Nat.le_add_right _ _⟩

theorem Sound.polls (sound : c.Sound l) (inTime : c.timedOut l = false) : ({ c with polled := c.now } : TransferClock).Sound l where
  started := sound.started
  progressed := sound.progressed
  polled := Nat.le_refl _
  waited := Nat.le_add_right _ _
  early := by
    simp only [timedOut, Bool.or_eq_false_iff, decide_eq_false_iff_not] at inTime
    dsimp only
    omega

theorem Sound.waits (sound : c.Sound l) {d : Nat} (bound : c.now + d ≤ c.polled + pollTimeout) :
    ({ c with now := c.now + d } : TransferClock).Sound l where
  started := sound.started
  progressed := Nat.le_trans sound.progressed (Nat.le_add_right _ _)
  polled := Nat.le_trans sound.polled (Nat.le_add_right _ _)
  waited := bound
  early := sound.early

theorem Sound.progresses (sound : c.Sound l) : c.progress.Sound l where
  started := Nat.le_trans sound.started sound.progressed
  progressed := Nat.le_refl _
  polled := sound.polled
  waited := sound.waited
  early := sound.early

/-- The total time is kept but for one `poll`. -/
theorem Sound.ends (sound : c.Sound l) : c.now ≤ c.started + l.total + pollTimeout := by
  have waited := sound.waited
  have early := sound.early
  omega

end TransferClock

inductive ReadOutcome
  | data (bytes : List UInt8)
  | tooLarge | timedOut | failed

/-- `read_pipe_bounded` with the pipe that it reads, and the record of all that the other end has put in. -/
structure PipeRead where
  stage : TransferStage ReadOutcome
  clock : TransferClock
  data : List UInt8
  pipe : List UInt8
  given : List UInt8
  closed : Bool

/-- What may come next: the other end gives bytes or closes, time passes in a `poll`, or the loop goes on. -/
inductive ReadChoice
  | gives (bytes : List UInt8)
  | closes
  | waits (d : Nat)
  | checks | ready | quiet | interrupted | fails
  | takes (n : Nat)

namespace PipeRead

def start (now : Nat) : PipeRead := ⟨.checking, .begin now, [], [], [], false⟩

variable (l : TransferLimits) (s : PipeRead)

def goTo (stage : TransferStage ReadOutcome) : PipeRead := { s with stage }

def next (s : PipeRead) : ReadChoice → Option PipeRead
  | .gives bytes => if s.closed then none else some { s with pipe := s.pipe ++ bytes, given := s.given ++ bytes }
  | .closes => some { s with closed := true }
  | .waits d =>
    match s.stage with
    | .polling => if s.clock.now + d ≤ s.clock.polled + pollTimeout then
        some { s with clock := { s.clock with now := s.clock.now + d } } else none
    | _ => none
  | .checks =>
    match s.stage with
    | .checking =>
      some (if s.clock.timedOut l then s.goTo (.done .timedOut)
        else { s with stage := .polling, clock := { s.clock with polled := s.clock.now } })
    | _ => none
  | .ready =>
    match s.stage with
    | .polling => some (s.goTo .moving)
    | _ => none
  | .quiet =>
    match s.stage with
    | .polling => some (s.goTo .checking)
    | _ => none
  | .interrupted =>
    match s.stage with
    | .moving => some (s.goTo .checking)
    | _ => none
  | .fails =>
    match s.stage with
    | .polling | .moving => some (s.goTo (.done .failed))
    | _ => none
  | .takes n =>
    match s.stage with
    | .moving =>
      if n = 0 then if s.pipe = [] ∧ s.closed then some (s.goTo (.done (.data s.data))) else none
      else if n ≤ min s.pipe.length 65536 then
        if l.maxSize < s.data.length + n then some { s with stage := .done .tooLarge, pipe := s.pipe.drop n }
        else some { s with
          stage := .checking, data := s.data ++ s.pipe.take n, pipe := s.pipe.drop n, clock := s.clock.progress }
      else none
    | _ => none

def runs : StepSystem PipeRead ReadChoice where
  start s := ∃ now, s = start now
  step s choice t := next l s choice = some t

/-- Nothing is lost and nothing is read twice. -/
structure Sound : Prop where
  clock : s.clock.Sound l
  small : s.data.length ≤ l.maxSize
  kept : s.stage ≠ .done .tooLarge → s.data ++ s.pipe = s.given
  data : ∀ bytes, s.stage = .done (.data bytes) → bytes = s.data ∧ bytes = s.given ∧ s.closed = true
  large : s.stage = .done .tooLarge → l.maxSize < s.given.length
  late : s.stage = .done .timedOut → s.clock.timedOut l = true

variable {l s}

/-- The loop goes on, or it ends without a result. -/
theorem Sound.goes (sound : s.Sound l) {stage : TransferStage ReadOutcome} (before : s.stage ≠ .done .tooLarge)
    (data : ∀ bytes, stage ≠ .done (.data bytes)) (large : stage ≠ .done .tooLarge)
    (late : stage = .done .timedOut → s.clock.timedOut l = true) : (s.goTo stage).Sound l where
  clock := sound.clock
  small := sound.small
  kept _ := sound.kept before
  data bytes same := absurd same (data bytes)
  large same := absurd same large
  late := late

theorem takes_sound (sound : s.Sound l) (moving : s.stage = .moving) {n : Nat} {t : PipeRead}
    (step : next l s (.takes n) = some t) : t.Sound l := by
  have kept := sound.kept (by rw [moving]; simp)
  simp only [next, moving] at step
  split at step
  · obtain ⟨⟨empty, closed⟩, same⟩ := Option.ite_none_right_eq_some.mp step
    cases same
    refine ⟨sound.clock, sound.small, fun _ => kept, fun bytes same => ?_, by simp [goTo], by simp [goTo]⟩
    cases same
    rw [empty, List.append_nil] at kept
    exact ⟨rfl, kept, closed⟩
  · obtain ⟨bound, step⟩ := Option.ite_none_right_eq_some.mp step
    have available : n ≤ s.pipe.length := Nat.le_trans bound (Nat.min_le_left _ _)
    split at step
    next large =>
      cases step
      refine ⟨sound.clock, sound.small, fun other => absurd rfl other, by simp, fun _ => ?_, by simp⟩
      dsimp only
      rw [← kept, List.length_append]
      omega
    next small =>
      cases step
      refine ⟨sound.clock.progresses, ?_, fun _ => ?_, by simp, by simp, by simp⟩
      · dsimp only
        rw [List.length_append, List.length_take]
        omega
      · dsimp only
        rw [List.append_assoc, List.take_append_drop, kept]

theorem next_sound (sound : s.Sound l) {choice : ReadChoice} {t : PipeRead} (step : next l s choice = some t) : t.Sound l := by
  cases choice with
  | gives bytes =>
    obtain ⟨opened, same⟩ := Option.ite_none_left_eq_some.mp step
    cases same
    refine ⟨sound.clock, sound.small, fun other => ?_, fun bytes same => ?_, fun same => ?_, sound.late⟩
    · dsimp only
      rw [← List.append_assoc, sound.kept other]
    · exact absurd (sound.data bytes same).2.2 opened
    · exact Nat.lt_of_lt_of_le (sound.large same) (by simp)
  | closes =>
    cases step
    exact ⟨sound.clock, sound.small, sound.kept, fun bytes same => ⟨(sound.data bytes same).1, (sound.data bytes same).2.1, rfl⟩,
      sound.large,
      sound.late⟩
  | waits d =>
    dsimp only [next] at step
    split at step
    next stage =>
      obtain ⟨bound, same⟩ := Option.ite_none_right_eq_some.mp step
      cases same
      exact ⟨sound.clock.waits bound, sound.small, sound.kept, sound.data, sound.large, fun same => by simp [stage] at same⟩
    next => cases step
  | checks =>
    dsimp only [next] at step
    split at step
    next stage =>
      cases step
      split
      next late => exact sound.goes (by rw [stage]; simp) (by simp) (by simp) fun _ => late
      next inTime =>
        have goes : (s.goTo .polling).Sound l := sound.goes (by rw [stage]; simp) (by simp) (by simp) (by simp)
        exact ⟨sound.clock.polls (by simpa using inTime), goes.small, goes.kept, goes.data, goes.large, by simp⟩
    next => cases step
  | ready | quiet | interrupted =>
    dsimp only [next] at step
    split at step
    next stage =>
      cases step
      exact sound.goes (by rw [stage]; simp) (by simp) (by simp) (by simp)
    next => cases step
  | fails =>
    dsimp only [next] at step
    split at step
    next stage =>
      cases step
      exact sound.goes (by rw [stage]; simp) (by simp) (by simp) (by simp)
    next stage =>
      cases step
      exact sound.goes (by rw [stage]; simp) (by simp) (by simp) (by simp)
    next => cases step
  | takes n =>
    by_cases moving : ∃ moving : s.stage = .moving, True
    · exact takes_sound sound moving.1 step
    · exfalso
      dsimp only [next] at step
      split at step
      next stage => exact moving ⟨stage, trivial⟩
      next => cases step

theorem inductive_sound : (runs l).Inductive (Sound l) where
  base := by
    rintro _ ⟨now, rfl⟩
    exact ⟨TransferClock.begin_sound now, Nat.zero_le _, fun _ => rfl, by simp [start], by simp [start], by simp [start]⟩
  keep _ _ _ sound step := next_sound sound step

end PipeRead

inductive WriteOutcome
  | written | timedOut | writeZero | failed

/-- `write_pipe_bounded` with the pipe that it writes, and the record of all that the other end has taken. -/
structure PipeWrite where
  stage : TransferStage WriteOutcome
  clock : TransferClock
  data : List UInt8
  written : Nat
  pipe : List UInt8
  received : List UInt8

inductive WriteChoice
  | takes (n : Nat)
  | waits (d : Nat)
  | checks | ready | quiet | interrupted | fails
  | puts (n : Nat)

namespace PipeWrite

def start (now : Nat) (data : List UInt8) : PipeWrite := ⟨.checking, .begin now, data, 0, [], []⟩

variable (l : TransferLimits) (s : PipeWrite)

def goTo (stage : TransferStage WriteOutcome) : PipeWrite := { s with stage }

def next (s : PipeWrite) : WriteChoice → Option PipeWrite
  | .takes n => some { s with pipe := s.pipe.drop n, received := s.received ++ s.pipe.take n }
  | .waits d =>
    match s.stage with
    | .polling => if s.clock.now + d ≤ s.clock.polled + pollTimeout then
        some { s with clock := { s.clock with now := s.clock.now + d } } else none
    | _ => none
  | .checks =>
    match s.stage with
    | .checking =>
      some (if s.data.length ≤ s.written then s.goTo (.done .written)
        else if s.clock.timedOut l then s.goTo (.done .timedOut)
        else { s with stage := .polling, clock := { s.clock with polled := s.clock.now } })
    | _ => none
  | .ready =>
    match s.stage with
    | .polling => some (s.goTo .moving)
    | _ => none
  | .quiet =>
    match s.stage with
    | .polling => some (s.goTo .checking)
    | _ => none
  | .interrupted =>
    match s.stage with
    | .moving => some (s.goTo .checking)
    | _ => none
  | .fails =>
    match s.stage with
    | .polling | .moving => some (s.goTo (.done .failed))
    | _ => none
  | .puts n =>
    match s.stage with
    | .moving =>
      if n = 0 then some (s.goTo (.done .writeZero))
      else if n ≤ s.data.length - s.written then
        some { s with
          stage := .checking, written := s.written + n, pipe := s.pipe ++ (s.data.drop s.written).take n
          clock := s.clock.progress }
      else none
    | _ => none

def runs (data : List UInt8) : StepSystem PipeWrite WriteChoice where
  start s := ∃ now, s = start now data
  step s choice t := next l s choice = some t

/-- What has been written is with the other end or in the pipe, in its order. -/
structure Sound (data : List UInt8) : Prop where
  clock : s.clock.Sound l
  same : s.data = data
  kept : s.received ++ s.pipe = s.data.take s.written
  whole : s.stage = .done .written → s.data.length ≤ s.written
  late : s.stage = .done .timedOut → s.clock.timedOut l = true

variable {l s} {data : List UInt8}

theorem Sound.goes (sound : s.Sound l data) {stage : TransferStage WriteOutcome}
    (whole : stage = .done .written → s.data.length ≤ s.written)
    (late : stage = .done .timedOut → s.clock.timedOut l = true) : (s.goTo stage).Sound l data :=
  ⟨sound.clock, sound.same, sound.kept, whole, late⟩

theorem next_sound (sound : s.Sound l data) {choice : WriteChoice} {t : PipeWrite} (step : next l s choice = some t) :
    t.Sound l data := by
  cases choice with
  | takes n =>
    cases step
    refine ⟨sound.clock, sound.same, ?_, sound.whole, sound.late⟩
    dsimp only
    rw [List.append_assoc, List.take_append_drop, sound.kept]
  | waits d =>
    dsimp only [next] at step
    split at step
    next stage =>
      obtain ⟨bound, same⟩ := Option.ite_none_right_eq_some.mp step
      cases same
      exact ⟨sound.clock.waits bound, sound.same, sound.kept, sound.whole, fun same => by simp [stage] at same⟩
    next => cases step
  | checks =>
    dsimp only [next] at step
    split at step
    next stage =>
      cases step
      split
      next whole => exact sound.goes (fun _ => whole) (by simp)
      next =>
        split
        next late => exact sound.goes (by simp) fun _ => late
        next inTime =>
          exact ⟨sound.clock.polls (by simpa using inTime), sound.same, sound.kept, by simp, by simp⟩
    next => cases step
  | ready | quiet | interrupted =>
    dsimp only [next] at step
    split at step
    · cases step
      exact sound.goes (by simp) (by simp)
    · cases step
  | fails =>
    dsimp only [next] at step
    split at step
    · cases step
      exact sound.goes (by simp) (by simp)
    · cases step
      exact sound.goes (by simp) (by simp)
    · cases step
  | puts n =>
    dsimp only [next] at step
    split at step
    · split at step
      · cases step
        exact sound.goes (by simp) (by simp)
      · obtain ⟨_, same⟩ := Option.ite_none_right_eq_some.mp step
        cases same
        refine ⟨sound.clock.progresses, sound.same, ?_, by simp, by simp⟩
        dsimp only
        rw [← List.append_assoc, sound.kept, List.take_add]
    · cases step

theorem inductive_sound : (runs l data).Inductive (Sound l · data) where
  base := by
    rintro _ ⟨now, rfl⟩
    exact ⟨TransferClock.begin_sound now, rfl, rfl, by simp [start], by simp [start]⟩
  keep _ _ _ sound step := next_sound sound step

end PipeWrite

/-- However the other end writes and pauses: what is read is all that it wrote before it closed, never more than the
limit; the offer is refused only when it is larger; and nothing of the loop comes later than its time and one wait. -/
theorem pipe_read_whole {l : TransferLimits} {s : PipeRead} (reach : (PipeRead.runs l).Reach s) :
    (∀ bytes, s.stage = .done (.data bytes) → bytes = s.given ∧ s.closed = true ∧ bytes.length ≤ l.maxSize) ∧
    (s.stage = .done .tooLarge → l.maxSize < s.given.length) ∧
    (s.stage = .done .timedOut → s.clock.timedOut l = true) ∧
    s.clock.now ≤ s.clock.started + l.total + pollTimeout := by
  have sound := PipeRead.inductive_sound.reach reach
  refine ⟨fun bytes done => ?_, sound.large, sound.late, sound.clock.ends⟩
  obtain ⟨own, whole, closed⟩ := sound.data bytes done
  exact ⟨whole, closed, own ▸ sound.small⟩

/-- Two bytes come one by one, and a pause between them. -/
def slowRead : List ReadChoice :=
  [.checks, .waits 100, .quiet, .gives [1], .checks, .ready, .takes 1, .checks, .waits 90, .gives [2], .closes, .ready,
    .takes 1, .checks, .ready, .takes 0]

theorem pipe_read_whole_slow : ∃ s, (PipeRead.runs ⟨4, 200, 1000⟩).Reach s ∧ s.stage = .done (.data [1, 2]) ∧
    s.given = [1, 2] := by
  obtain ⟨s, run, done⟩ : ∃ s, StepSystem.exec (PipeRead.next ⟨4, 200, 1000⟩) (PipeRead.start 7) slowRead = some s ∧
      s.stage = .done (.data [1, 2]) := ⟨_, rfl, rfl⟩
  have reach : (PipeRead.runs ⟨4, 200, 1000⟩).Reach s := .exec (fun _ _ _ step => step) slowRead (.start ⟨7, rfl⟩) run
  exact ⟨s, reach, done, ((pipe_read_whole reach).1 _ done).1.symm⟩

/-- However the other end takes the bytes: what it has is the beginning of the data, all of it is on its way once the
loop has written it, and nothing of the loop comes later than its time and one wait. -/
theorem pipe_write_whole {l : TransferLimits} {data : List UInt8} {s : PipeWrite}
    (reach : (PipeWrite.runs l data).Reach s) :
    s.received <+: data ∧ (s.stage = .done .written → s.received ++ s.pipe = data) ∧
    (s.stage = .done .timedOut → s.clock.timedOut l = true) ∧
    s.clock.now ≤ s.clock.started + l.total + pollTimeout := by
  have sound := PipeWrite.inductive_sound.reach reach
  refine ⟨?_, fun done => ?_, sound.late, sound.clock.ends⟩
  · refine (List.prefix_append s.received s.pipe).trans ?_
    rw [sound.kept, sound.same]
    exact List.take_prefix _ _
  · rw [sound.kept, List.take_of_length_le (sound.whole done), sound.same]

theorem pipe_write_whole_slow : ∃ s, (PipeWrite.runs ⟨4, 200, 1000⟩ [1, 2]).Reach s ∧ s.received ++ s.pipe = [1, 2] := by
  obtain ⟨s, run, done⟩ : ∃ s, StepSystem.exec (PipeWrite.next ⟨4, 200, 1000⟩) (PipeWrite.start 7 [1, 2])
      [.checks, .ready, .puts 1, .takes 1, .checks, .waits 50, .ready, .puts 1, .checks] = some s ∧
        s.stage = .done .written := ⟨_, rfl, rfl⟩
  have reach : (PipeWrite.runs ⟨4, 200, 1000⟩ [1, 2]).Reach s := .exec (fun _ _ _ step => step) _ (.start ⟨7, rfl⟩) run
  exact ⟨s, reach, (pipe_write_whole reach).2.1 done⟩

end HyprRdp
