import HyprRdp.Egfx.FrameFlow
import Mathlib.Data.Rat.Floor
import Mathlib.Tactic.Linarith
import Mathlib.Tactic.FieldSimp
import Mathlib.Tactic.Positivity

namespace HyprRdp

/-- Moves a deadline on by whole intervals until it is later than `now`. -/
def catchUp (interval now next : ℚ) (positive : 0 < interval) : ℚ :=
  if next ≤ now then catchUp interval now (next + interval) positive else next
termination_by (⌊(now - next) / interval⌋ + 1).toNat
decreasing_by
  rename_i late
  have whole : (now - (next + interval)) / interval = (now - next) / interval - 1 := by
    field_simp
    ring
  have above : 0 ≤ ⌊(now - next) / interval⌋ := Int.floor_nonneg.mpr (div_nonneg (sub_nonneg.mpr late) positive.le)
  rw [whole, Int.floor_sub_one]
  omega

def intervalFor (targetFps : Nat) : ℚ := 1 / max targetFps 1

theorem intervalFor_pos (targetFps : Nat) : 0 < intervalFor targetFps := by
  unfold intervalFor
  positivity

/-- Times and intervals are exact rationals here. -/
structure FramePacer where
  baseInterval : ℚ
  frameInterval : ℚ
  nextSendAt : Option ℚ
  lastSendAt : Option ℚ

/-- The arguments of a call of `should_send`. -/
structure PacerCall where
  now : ℚ
  sentFirstFrame : Bool
  hasDamage : Bool
  targetFps : Nat

namespace FramePacer

def new (targetFps : Nat) (now : ℚ) : FramePacer :=
  { baseInterval := intervalFor targetFps
    frameInterval := intervalFor targetFps
    nextSendAt := some now
    lastSendAt := none }

def shouldSend (p : FramePacer) (c : PacerCall) : FramePacer × Bool :=
  let interval := intervalFor c.targetFps
  let p := { p with frameInterval := interval }
  if c.sentFirstFrame = false then
    ({ p with nextSendAt := some (c.now + interval), lastSendAt := some c.now }, true)
  else if c.hasDamage = false then (p, false)
  else
    let sendEarly := interval / 10
    if p.baseInterval < interval then
      let nextSendAt := (p.lastSendAt.map (· + interval)).getD c.now
      if c.now + sendEarly < nextSendAt then (p, false)
      else ({ p with lastSendAt := some c.now, nextSendAt := some (c.now + interval) }, true)
    else
      let nextSendAt := p.nextSendAt.getD c.now
      if c.now + sendEarly < nextSendAt then (p, false)
      else
        ({ p with
            nextSendAt := some (catchUp interval c.now (nextSendAt + interval) (intervalFor_pos c.targetFps))
            lastSendAt := some c.now },
          true)

/-- The state after some calls. -/
def after (p : FramePacer) (calls : List PacerCall) : FramePacer := calls.foldl (fun p c => (p.shouldSend c).1) p

/-- The times of the calls that were accepted, in order. -/
def sends : FramePacer → List PacerCall → List ℚ
  | _, [] => []
  | p, c :: calls =>
    if (p.shouldSend c).2 then c.now :: sends (p.shouldSend c).1 calls else sends (p.shouldSend c).1 calls

end FramePacer

/-- The rate that the senders pass on is at or below the base rate. -/
theorem FrameFlow.preferredFrameRate_le (s : FrameFlow) (targetFps : Nat) :
    s.preferredFrameRate targetFps ≤ max targetFps 1 := by
  unfold FrameFlow.preferredFrameRate
  dsimp only
  split
  · exact le_refl _
  split
  · exact le_refl _
  · rename_i waiting
    have percent : 100 / min (s.framesInFlight + 1) (2 ^ 32 - 1) ≤ 100 := Nat.div_le_self _ _
    have scaled : max targetFps 1 * (100 / min (s.framesInFlight + 1) (2 ^ 32 - 1)) ≤ max targetFps 1 * 100 :=
      Nat.mul_le_mul_left _ percent
    omega

section CatchUp

variable {interval now next : ℚ}

/-- The loop ends after finitely many rounds, with a deadline later than `now`. -/
theorem catchUp_spec (positive : 0 < interval) : now < catchUp interval now next positive ∧
    ∃ n : ℕ, catchUp interval now next positive = next + n * interval ∧ ∀ m < n, next + (m : ℚ) * interval ≤ now := by
  induction next using catchUp.induct interval now positive with
  | case1 next late ih =>
    obtain ⟨later, n, value, before⟩ := ih
    rw [catchUp, if_pos late]
    refine ⟨later, n + 1, ?_, fun m bound => ?_⟩
    · rw [value]
      push_cast
      ring
    · cases m with
      | zero => simpa using late
      | succ m =>
        have step := before m (by omega)
        push_cast
        linarith
  | case2 next later =>
    rw [catchUp, if_neg later]
    exact ⟨not_le.mp later, 0, by simp, fun m bound => absurd bound (Nat.not_lt_zero m)⟩

theorem le_catchUp (positive : 0 < interval) : next ≤ catchUp interval now next positive := by
  obtain ⟨_, n, value, _⟩ := @catchUp_spec interval now next positive
  have steps : 0 ≤ (n : ℚ) * interval := by positivity
  rw [value]
  linarith

end CatchUp

theorem intervalFor_le {slow fast : Nat} (order : slow ≤ fast) : intervalFor fast ≤ intervalFor slow := by
  unfold intervalFor
  gcongr

namespace FramePacer

variable {p : FramePacer} {c : PacerCall} {start rate : ℚ} {k : ℕ}

/-- What a call after the first frame can do. -/
theorem shouldSend_cases (sent : c.sentFirstFrame = true) :
    let interval := intervalFor c.targetFps
    p.shouldSend c = ({ p with frameInterval := interval }, false) ∨
    (p.baseInterval < interval ∧ (∀ last, p.lastSendAt = some last → last + interval ≤ c.now + interval / 10) ∧
      p.shouldSend c = ({ p with
        frameInterval := interval, lastSendAt := some c.now, nextSendAt := some (c.now + interval) }, true)) ∨
    interval ≤ p.baseInterval ∧ ∃ due, (∀ next, p.nextSendAt = some next → due = next) ∧ due ≤ c.now + interval / 10 ∧
      p.shouldSend c = ({ p with
        frameInterval := interval
        nextSendAt := some (catchUp interval c.now (due + interval) (intervalFor_pos c.targetFps))
        lastSendAt := some c.now }, true) := by
  intro interval
  unfold shouldSend
  rw [if_neg (by rw [sent]; decide)]
  by_cases damage : c.hasDamage = false
  · exact .inl (if_pos damage)
  · rw [if_neg damage]
    dsimp only
    by_cases slow : p.baseInterval < interval
    · rw [if_pos slow]
      split
      · exact .inl rfl
      · rename_i open'
        refine .inr (.inl ⟨slow, fun last atLast => ?_, rfl⟩)
        rw [atLast] at open'
        exact not_lt.mp open'
    · rw [if_neg slow]
      split
      · exact .inl rfl
      · rename_i open'
        refine .inr (.inr ⟨not_lt.mp slow, _, fun next atNext => ?_, not_lt.mp open', rfl⟩)
        rw [atNext]
        rfl

theorem shouldSend_first (first : c.sentFirstFrame = false) : p.shouldSend c =
    ({ p with
        frameInterval := intervalFor c.targetFps
        nextSendAt := some (c.now + intervalFor c.targetFps)
        lastSendAt := some c.now }, true) := by
  unfold shouldSend
  rw [if_pos first]

theorem shouldSend_base : (p.shouldSend c).1.baseInterval = p.baseInterval := by
  by_cases first : c.sentFirstFrame = false
  · rw [shouldSend_first first]
  · rcases @shouldSend_cases p c (Bool.not_eq_false _ ▸ first) with same | ⟨_, _, same⟩ | ⟨_, _, _, _, same⟩ <;> rw [same]

/-- Every accepted call leaves a deadline that is later than its time. -/
theorem shouldSend_deadline (accepted : (p.shouldSend c).2 = true) :
    ∃ next, (p.shouldSend c).1.nextSendAt = some next ∧ c.now < next := by
  have positive := intervalFor_pos c.targetFps
  by_cases first : c.sentFirstFrame = false
  · rw [shouldSend_first first]
    exact ⟨_, rfl, lt_add_of_pos_right _ positive⟩
  · rcases @shouldSend_cases p c (Bool.not_eq_false _ ▸ first) with same | ⟨_, _, same⟩ | ⟨_, _, _, _, same⟩
    · rw [same] at accepted
      cases accepted
    · rw [same]
      exact ⟨_, rfl, lt_add_of_pos_right _ positive⟩
    · rw [same]
      exact ⟨_, rfl, (catchUp_spec positive).1⟩

/-- After `k` later sends the deadline and the last send have moved on by `k` intervals, at the given rate. -/
structure OnSchedule (p : FramePacer) (start rate : ℚ) (k : ℕ) : Prop where
  deadline : ∃ next, p.nextSendAt = some next ∧ start + rate * k * p.baseInterval + p.baseInterval ≤ next
  last : ∃ last, p.lastSendAt = some last ∧ start + rate * k * p.baseInterval - p.baseInterval / 10 ≤ last

/-- A call moves the schedule on when it is accepted: by the whole interval when all
calls keep the base rate, by four fifths of it when some are slower. -/
theorem OnSchedule.step (schedule : p.OnSchedule start rate k) (sent : c.sentFirstFrame = true)
    (positive : 0 < p.baseInterval) (slower : p.baseInterval ≤ intervalFor c.targetFps)
    (whole : rate ≤ 1) (switching : p.baseInterval < intervalFor c.targetFps → rate ≤ 4 / 5) :
    ((p.shouldSend c).2 = false → (p.shouldSend c).1.OnSchedule start rate k) ∧
    ((p.shouldSend c).2 = true → (p.shouldSend c).1.OnSchedule start rate (k + 1) ∧
      start + rate * ((k + 1 : ℕ) : ℚ) * p.baseInterval - p.baseInterval / 10 ≤ c.now) := by
  obtain ⟨⟨next, atNext, deadline⟩, last, atLast, lastBound⟩ := schedule
  have moved : start + rate * ((k + 1 : ℕ) : ℚ) * p.baseInterval =
      start + rate * k * p.baseInterval + rate * p.baseInterval := by
    push_cast
    ring
  rcases @shouldSend_cases p c sent with same | ⟨slow, early, same⟩ | ⟨fast, due, isDue, early, same⟩
  · rw [same]
    exact ⟨fun _ => ⟨⟨next, atNext, deadline⟩, last, atLast, lastBound⟩, fun answer => Bool.noConfusion answer⟩
  · have room := early last atLast
    have rateBound : rate * p.baseInterval ≤ 4 / 5 * p.baseInterval :=
      mul_le_mul_of_nonneg_right (switching slow) positive.le
    rw [same]
    refine ⟨fun answer => Bool.noConfusion answer, fun _ => ⟨⟨⟨_, rfl, ?_⟩, _, rfl, ?_⟩, ?_⟩⟩
    · dsimp only
      rw [moved]
      linarith
    · dsimp only
      rw [moved]
      linarith
    · rw [moved]
      linarith
  · have sameDue := isDue next atNext
    have equal := le_antisymm fast slower
    have rateBound : rate * p.baseInterval ≤ 1 * p.baseInterval := mul_le_mul_of_nonneg_right whole positive.le
    have caught := @le_catchUp (intervalFor c.targetFps) c.now (due + intervalFor c.targetFps) (intervalFor_pos c.targetFps)
    rw [same]
    refine ⟨fun answer => Bool.noConfusion answer, fun _ => ⟨⟨⟨_, rfl, ?_⟩, _, rfl, ?_⟩, ?_⟩⟩
    · dsimp only
      rw [moved]
      linarith
    · dsimp only
      rw [moved]
      linarith
    · rw [moved]
      linarith

theorem OnSchedule.sends {calls : List PacerCall} (schedule : p.OnSchedule start rate k)
    (sent : ∀ c ∈ calls, c.sentFirstFrame = true) (positive : 0 < p.baseInterval) (whole : rate ≤ 1)
    (slower : ∀ c ∈ calls, p.baseInterval ≤ intervalFor c.targetFps)
    (switching : ∀ c ∈ calls, p.baseInterval < intervalFor c.targetFps → rate ≤ 4 / 5) :
    ∀ (j : ℕ) (time : ℚ), (p.sends calls)[j]? = some time →
      start + rate * ((k + j + 1 : ℕ) : ℚ) * p.baseInterval - p.baseInterval / 10 ≤ time := by
  induction calls generalizing p k with
  | nil =>
    intro j time atJ
    cases atJ
  | cons c calls ih =>
    obtain ⟨declined, accepted⟩ := schedule.step (sent c List.mem_cons_self) positive (slower c List.mem_cons_self) whole
      (switching c List.mem_cons_self)
    have base := @shouldSend_base p c
    have rest {k' : ℕ} (onSchedule : (p.shouldSend c).1.OnSchedule start rate k') :=
      ih onSchedule (fun c member => sent c (List.mem_cons_of_mem _ member)) (base.symm ▸ positive)
        (fun c member => base.symm ▸ slower c (List.mem_cons_of_mem _ member))
        (fun c member => base.symm ▸ switching c (List.mem_cons_of_mem _ member))
    intro j time atJ
    unfold FramePacer.sends at atJ
    cases answer : (p.shouldSend c).2 with
    | false =>
      rw [answer] at atJ
      have bound := rest (declined answer) j time atJ
      rwa [base] at bound
    | true =>
      obtain ⟨onSchedule, now⟩ := accepted answer
      rw [answer] at atJ
      cases j with
      | zero =>
        cases atJ
        exact now
      | succ j =>
        have bound := rest onSchedule j time atJ
        rwa [base, show k + 1 + j + 1 = k + (j + 1) + 1 by omega] at bound

theorem after_base (calls : List PacerCall) : (p.after calls).baseInterval = p.baseInterval := by
  induction calls generalizing p with
  | nil => rfl
  | cons c calls ih => exact ih.trans shouldSend_base

theorem after_first {calls : List PacerCall} (first : c.sentFirstFrame = false)
    (slower : p.baseInterval ≤ intervalFor c.targetFps) (positive : 0 < p.baseInterval) :
    (p.after (calls ++ [c])).OnSchedule c.now rate 0 ∧ (p.after (calls ++ [c])).baseInterval = p.baseInterval := by
  have base := after_base (p := p) (calls ++ [c])
  refine ⟨?_, base⟩
  have same : p.after (calls ++ [c]) = ((p.after calls).shouldSend c).1 := by
    unfold after
    rw [List.foldl_append]
    rfl
  have start : c.now + rate * ((0 : ℕ) : ℚ) * p.baseInterval = c.now := by
    rw [Nat.cast_zero, mul_zero, zero_mul, add_zero]
  refine ⟨⟨c.now + intervalFor c.targetFps, ?_, ?_⟩, c.now, ?_, ?_⟩
  · rw [same, shouldSend_first first]
  · rw [base, start]
    linarith
  · rw [same, shouldSend_first first]
  · rw [base, start]
    linarith

/-- The pacer bounds the send rate, in every run. -/
theorem send_rate_bounded (baseFps : Nat) (begin : ℚ) (before later : List PacerCall) (first : PacerCall)
    (isFirst : first.sentFirstFrame = false) (sent : ∀ c ∈ later, c.sentFirstFrame = true) :
    let p := (FramePacer.new baseFps begin).after (before ++ [first])
    let interval := intervalFor baseFps
    (∀ (k : ℕ) (time : ℚ), (p.sends later)[k]? = some time →
      ((∀ c ∈ first :: later, c.targetFps = baseFps) →
        first.now + ((k + 1 : ℕ) : ℚ) * interval - interval / 10 ≤ time) ∧
      ((∀ c ∈ first :: later, c.targetFps ≤ baseFps) →
        first.now + 4 / 5 * ((k + 1 : ℕ) : ℚ) * interval - interval / 10 ≤ time)) ∧
    (∀ (interval now next : ℚ) (positive : 0 < interval), now < catchUp interval now next positive ∧
      ∃ n : ℕ, catchUp interval now next positive = next + n * interval ∧ ∀ m < n, next + (m : ℚ) * interval ≤ now) ∧
    ∀ (p : FramePacer) (c : PacerCall), (p.shouldSend c).2 = true →
      ∃ next, (p.shouldSend c).1.nextSendAt = some next ∧ c.now < next := by
  intro p interval
  have positive : 0 < (FramePacer.new baseFps begin).baseInterval := intervalFor_pos baseFps
  refine ⟨fun k time atK => ⟨fun same => ?_, fun below => ?_⟩, fun _ _ _ => catchUp_spec, fun _ _ => shouldSend_deadline⟩
  · have equal : ∀ c ∈ first :: later, intervalFor c.targetFps = interval := fun c member => by rw [same c member]
    obtain ⟨schedule, base⟩ := @after_first (.new baseFps begin) first 1 before isFirst (equal first List.mem_cons_self).ge positive
    have bound := schedule.sends sent (base.symm ▸ positive) (le_refl _)
      (fun c member => base.symm ▸ (equal c (List.mem_cons_of_mem _ member)).ge)
      (fun c member slow => absurd (equal c (List.mem_cons_of_mem _ member)) (base ▸ slow).ne') k time atK
    rw [base, Nat.zero_add, one_mul] at bound
    exact bound
  · have slower : ∀ c ∈ first :: later, interval ≤ intervalFor c.targetFps := fun c member => intervalFor_le (below c member)
    obtain ⟨schedule, base⟩ := @after_first (.new baseFps begin) first (4 / 5) before isFirst (slower first List.mem_cons_self) positive
    have bound := schedule.sends sent (base.symm ▸ positive) (by norm_num)
      (fun c member => base.symm ▸ slower c (List.mem_cons_of_mem _ member)) (fun _ _ _ => le_refl _) k time atK
    rw [base, Nat.zero_add] at bound
    exact bound

/-- A frame that comes late: its deadline was a tenth of a second after the first one. -/
theorem send_rate_bounded_once :
    let p := (FramePacer.new 10 0).after [⟨0, false, true, 10⟩]
    (p.sends [⟨1 / 20, true, true, 10⟩, ⟨1 / 4, true, true, 10⟩])[0]? = some (1 / 4) ∧
      0 + ((0 + 1 : ℕ) : ℚ) * intervalFor 10 - intervalFor 10 / 10 ≤ 1 / 4 :=
  have late : ((((FramePacer.new 10 0).after [⟨0, false, true, 10⟩]).sends
      [⟨1 / 20, true, true, 10⟩, ⟨1 / 4, true, true, 10⟩]))[0]? = some (1 / 4) := by with_unfolding_all decide
  ⟨late, ((send_rate_bounded 10 0 [] [⟨1 / 20, true, true, 10⟩, ⟨1 / 4, true, true, 10⟩] ⟨0, false, true, 10⟩ rfl
    (by decide)).1 0 (1 / 4) late).1 (by decide)⟩

end FramePacer

end HyprRdp
