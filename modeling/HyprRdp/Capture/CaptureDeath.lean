import HyprRdp.Capture.CaptureThreads

namespace HyprRdp

namespace WaylandCapture

variable {U : Type} {now : Nat} {c d : WaylandCapture U}

def fromThread (updates : List (SentUpdate U)) : List (SentUpdate U) := updates.filter SentUpdate.byThread

/-- What the session of a capture has and can still get. -/
structure Delivered (c : WaylandCapture U) : Prop where
  channel : c.received = true → c.taken ++ c.queue = c.sent
  signal : c.captureDead = true → c.stage = .ended
  disconnected : c.disconnected = true → c.stage = .ended ∧ fromThread c.taken = fromThread c.sent
  /-- A thread that ended without being asked to has said so, if there was anybody to hear it. -/
  death : c.stage = .ended → c.stopFlag = false → c.received = true → c.captureDead = true ∨ c.disconnected = true

/-- A step that leaves the channel and the signal alone and does not end the thread. -/
theorem Delivered.going (old : c.Delivered) (channel : d.taken = c.taken ∧ d.queue = c.queue ∧ d.sent = c.sent)
    (received : d.received = c.received) (signal : d.captureDead = c.captureDead) (told : d.disconnected = c.disconnected)
    (before : c.stage ≠ .ended) (after : d.stage ≠ .ended) : d.Delivered where
  channel isReceived := by
    rw [channel.1, channel.2.1, channel.2.2]
    exact old.channel (received ▸ isReceived)
  signal dead := absurd (old.signal (signal ▸ dead)) before
  disconnected isTold := absurd (old.disconnected (told ▸ isTold)).1 before
  death isEnded := absurd isEnded after

theorem Delivered.step {choice : CaptureChoice U} (old : c.Delivered) (step : Step now c choice d) : d.Delivered := by
  have alive : ∀ {stage : CaptureStage}, c.stage = stage → stage ≠ .ended → c.stage ≠ .ended := fun same other =>
    same ▸ other
  cases step with
  | push inSession _ =>
    have before := alive inSession (by simp)
    exact
      { channel isReceived := by rw [send, ← List.append_assoc, old.channel isReceived]
        signal dead := absurd (old.signal dead) before
        disconnected isTold := absurd (old.disconnected isTold).1 before
        death isEnded := absurd isEnded before }
  | answer inSession _ =>
    have before := alive inSession (by simp)
    exact old.going ⟨rfl, rfl, rfl⟩ rfl rfl rfl before before
  | finish inSession => exact old.going ⟨rfl, rfl, rfl⟩ rfl rfl rfl (alive inSession (by simp)) (by simp [leave])
  | fail inSession => exact old.going ⟨rfl, rfl, rfl⟩ rfl rfl rfl (alive inSession (by simp)) (by simp)
  | replenish atStage => exact old.going ⟨rfl, rfl, rfl⟩ rfl rfl rfl (alive atStage (by simp)) (by simp)
  | restart atStage _ => exact old.going ⟨rfl, rfl, rfl⟩ rfl rfl rfl (alive atStage (by simp)) (by simp)
  | giveUp atStage _ => exact old.going ⟨rfl, rfl, rfl⟩ rfl rfl rfl (alive atStage (by simp)) (by simp [leave])
  | propagate atStage _ => exact old.going ⟨rfl, rfl, rfl⟩ rfl rfl rfl (alive atStage (by simp)) (by simp [leave])
  | pause atStage => exact old.going ⟨rfl, rfl, rfl⟩ rfl rfl rfl (alive atStage (by simp)) (by simp)
  | resume atStage _ => exact old.going ⟨rfl, rfl, rfl⟩ rfl rfl rfl (alive atStage (by simp)) (by simp)
  | readFlag atStage =>
    have before := alive atStage (by simp)
    exact
      { channel := old.channel
        signal dead := absurd (old.signal dead) before
        disconnected isTold := absurd (old.disconnected isTold).1 before
        death isEnded unasked := by
          dsimp only at isEnded unasked
          rw [unasked] at isEnded
          cases isEnded }
  | probe atStage =>
    have before := alive atStage (by simp)
    exact
      { channel := old.channel
        signal dead := absurd (old.signal dead) before
        disconnected isTold := absurd (old.disconnected isTold).1 before
        death isEnded _ received := by
          dsimp only at isEnded received
          rw [received] at isEnded
          cases isEnded }
  | signal atStage =>
    have before := alive atStage (by simp)
    exact
      { channel := old.channel
        signal _ := rfl
        disconnected isTold := absurd (old.disconnected isTold).1 before
        death _ _ _ := .inl rfl }

theorem fromThread_append (updates more : List (SentUpdate U)) :
    fromThread (updates ++ more) = fromThread updates ++ fromThread more := List.filter_append _ _

theorem Delivered.take (old : c.Delivered) (received : c.received = true) {update : SentUpdate U}
    {queue : List (SentUpdate U)} (isQueue : c.queue = update :: queue) :
    Delivered { c with queue, taken := c.taken ++ [update] } where
  channel _ := by
    rw [List.append_assoc, List.singleton_append, ← isQueue]
    exact old.channel received
  signal := old.signal
  disconnected isTold := by
    obtain ⟨isEnded, all⟩ := old.disconnected isTold
    refine ⟨isEnded, ?_⟩
    -- nothing of the thread is left in the channel
    have rest : fromThread (update :: queue) = [] := by
      have whole := congrArg fromThread (old.channel received)
      rw [fromThread_append, all, isQueue] at whole
      exact List.append_cancel_left (whole.trans (List.append_nil _).symm)
    have one : fromThread [update] = [] := by
      rw [← List.singleton_append, fromThread_append] at rest
      exact (List.append_eq_nil_iff.mp rest).1
    rw [fromThread_append, one, List.append_nil]
    exact all
  death := old.death

theorem Delivered.touched (old : c.Delivered) (touched : c.Touched now d) : d.Delivered := by
  cases touched with
  | kept => exact old
  | thread choice step => exact old.step (step_cases step)
  | stop => exact ⟨old.channel, old.signal, old.disconnected, fun _ unasked => by cases unasked⟩
  | dropUpdates =>
    exact ⟨fun isReceived => absurd isReceived Bool.false_ne_true, old.signal, old.disconnected,
      fun _ _ isReceived => absurd isReceived Bool.false_ne_true⟩
  | displaySend update room =>
    have received : c.received = true := (Bool.and_eq_true_iff.mp room).1
    exact
      { channel _ := by rw [send, ← List.append_assoc, old.channel received]
        signal := old.signal
        disconnected isTold := by
          obtain ⟨isEnded, all⟩ := old.disconnected isTold
          refine ⟨isEnded, ?_⟩
          rw [send, fromThread_append]
          exact all.trans (List.append_nil _).symm
        death := old.death }
  | nextUpdate displaySends received next =>
    rcases nextUpdate_cases next with ⟨update, queue, isQueue, _, rfl⟩ | ⟨isEmpty, _, isOver, isLast⟩
    · exact old.take received isQueue
    · have isEnded : c.stage = .ended := isOver.elim id old.signal
      have all : c.taken = c.sent := by
        have whole := old.channel received
        rw [isEmpty, List.append_nil] at whole
        exact whole
      rcases isLast with rfl | rfl
      · exact ⟨old.channel, old.signal, fun _ => ⟨isEnded, congrArg fromThread all⟩, fun _ _ _ => .inr rfl⟩
      · exact ⟨old.channel, fun dead => absurd dead Bool.false_ne_true, fun _ => ⟨isEnded, congrArg fromThread all⟩,
          fun _ _ _ => .inr rfl⟩

end WaylandCapture

namespace CaptureThreads

open WaylandCapture

variable {U : Type} {s t : CaptureThreads U} {i : Nat} {c : WaylandCapture U}

theorem handedOut_modify {f : WaylandCapture U → WaylandCapture U} (member : s.captures[i]? = some c)
    (kept : (f c).received = c.received) (out : s.handedOut i = true) : (s.modify i f).handedOut i = true := by
  unfold handedOut at out ⊢
  rw [modify_self member]
  rw [member] at out
  have received : c.received = true := (Bool.and_eq_true_iff.mp out).2
  exact Bool.and_eq_true_iff.mpr ⟨(Bool.and_eq_true_iff.mp out).1, kept.trans received⟩

theorem takes (out : s.handedOut i = true) (member : s.captures[i]? = some c) {result : Option (SentUpdate U)}
    {d : WaylandCapture U} (next : c.nextUpdate (i == s.newest) = some (result, d)) :
    s.next (.nextUpdate i) = some (s.modify i fun _ => d) := by
  have taken : s.next (.nextUpdate i) =
      if s.handedOut i then
        (s.captures[i]?.bind (·.nextUpdate (i == s.newest))).map fun result => s.modify i fun _ => result.2
      else none := rfl
  rw [taken, if_pos out, member, Option.bind_some, next]
  rfl

/-- Once the death is signalled, the session receives what is left and is then told to disconnect. -/
theorem drained (out : s.handedOut i = true) (member : s.captures[i]? = some c) (dead : c.captureDead = true) :
    ∃ t d, StepSystem.exec next s (List.replicate (c.queue.length + 1) (.nextUpdate i)) = some t ∧
      t.captures[i]? = some d ∧ d.disconnected = true ∧ d.taken = c.taken ++ c.queue := by
  induction isQueue : c.queue generalizing s c with
  | nil =>
    obtain ⟨d, last, told, taken⟩ : ∃ d, c.nextUpdate (i == s.newest) = some (none, d) ∧ d.disconnected = true ∧
        d.taken = c.taken := by
      unfold nextUpdate
      rw [isQueue]
      dsimp only
      split
      · exact ⟨_, rfl, rfl, rfl⟩
      · exact ⟨_, rfl, rfl, rfl⟩
    refine ⟨_, d, ?_, modify_self (f := fun _ => d) member, told, by rw [taken, List.append_nil]⟩
    rw [List.length_nil, List.replicate_one, StepSystem.exec, takes out member last]
    rfl
  | cons update queue ih =>
    have one : c.nextUpdate (i == s.newest) = some (some update, { c with queue, taken := c.taken ++ [update] }) := by
      unfold nextUpdate
      rw [isQueue]
    obtain ⟨t, d, run, after, told, taken⟩ :=
      ih (handedOut_modify member rfl out) (modify_self (f := fun _ => { c with queue, taken := c.taken ++ [update] }) member)
        dead rfl
    refine ⟨t, d, ?_, after, told, by rw [taken, List.append_assoc, List.singleton_append]⟩
    rw [List.length_cons, List.replicate_succ, StepSystem.exec, takes out member one, Option.bind_some]
    exact run

end CaptureThreads

end HyprRdp
