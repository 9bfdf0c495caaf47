import Mathlib.Logic.Basic

/-- A program that sends commands one after the other and goes on according to the replies. -/
inductive Script (Command : Type) (Reply : Command → Type) (α : Type)
  | done (value : α)
  | send (command : Command) (next : Reply command → Script Command Reply α)

namespace Script

variable {Command : Type} {Reply : Command → Type} {α β σ : Type}

def bind : Script Command Reply α → (α → Script Command Reply β) → Script Command Reply β
  | .done value, f => f value
  | .send command next, f => .send command fun reply => (next reply).bind f

instance : Monad (Script Command Reply) where
  pure := .done
  bind := Script.bind

/-- The command is sent, and the program is over with the reply. -/
def call (command : Command) : Script Command Reply (Reply command) := .send command .done

/-- Whatever the replies, the program sends only such commands. -/
def Sends (allowed : Command → Prop) : Script Command Reply α → Prop
  | .done _ => True
  | .send command next => allowed command ∧ ∀ reply, (next reply).Sends allowed

theorem Sends.bind {allowed : Command → Prop} {script : Script Command Reply α} {f : α → Script Command Reply β}
    (first : script.Sends allowed) (second : ∀ value, (f value).Sends allowed) : (script >>= f).Sends allowed := by
  induction script with
  | done value => exact second value
  | send command next ih => exact ⟨first.1, fun reply => ih reply (first.2 reply)⟩

theorem Sends.mono {allowed more : Command → Prop} {script : Script Command Reply α} (sends : script.Sends allowed)
    (wider : ∀ command, allowed command → more command) : script.Sends more := by
  induction script with
  | done value => trivial
  | send command next ih => exact ⟨wider command sends.1, fun reply => ih reply (sends.2 reply)⟩

end Script

/-- What answers the commands. Others may change its state as well. -/
structure Service (Command : Type) (Reply : Command → Type) (σ : Type) where
  reply : (command : Command) → σ → Reply command
  after : Command → σ → σ
  others : σ → σ → Prop

/-- What happens to a service: a command of the program, or something that others do. -/
inductive ServiceEvent (Command σ : Type)
  | own (command : Command) (before after : σ)
  | others (before after : σ)
  deriving DecidableEq

namespace ServiceEvent

variable {Command σ : Type}

def before : ServiceEvent Command σ → σ
  | .own _ before _ | .others before _ => before

def after : ServiceEvent Command σ → σ
  | .own _ _ after | .others _ after => after

/-- Each event finds the state that the one before it has left. -/
inductive Linked : σ → List (ServiceEvent Command σ) → σ → Prop
  | nil (s) : Linked s [] s
  | cons {e trace t} : Linked e.after trace t → Linked e.before (e :: trace) t

variable {s t u : σ} {trace more : List (ServiceEvent Command σ)}

theorem Linked.append (first : Linked s trace t) (second : Linked t more u) : Linked s (trace ++ more) u := by
  induction first with
  | nil s => exact second
  | cons _ ih => exact .cons (ih second)

theorem Linked.split (linked : Linked s (trace ++ more) u) : ∃ t, Linked s trace t ∧ Linked t more u := by
  induction trace generalizing s with
  | nil => exact ⟨s, .nil s, linked⟩
  | cons e rest ih =>
    cases linked with
    | cons linked =>
      obtain ⟨t, first, second⟩ := ih linked
      exact ⟨t, .cons first, second⟩

theorem Linked.single (e : ServiceEvent Command σ) : Linked e.before [e] e.after := .cons (.nil _)

theorem Linked.own {command : Command} {a b : σ} (first : Linked s trace a) (second : Linked b more u) :
    Linked s (trace ++ .own command a b :: more) u :=
  first.append (@Linked.cons _ _ (.own command a b) _ _ second)

theorem Linked.from_event {e : ServiceEvent Command σ} (linked : Linked s (trace ++ e :: more) u) :
    Linked e.before (e :: more) u := by
  obtain ⟨t, _, second⟩ := linked.split
  cases second with
  | cons rest => exact .cons rest

theorem Linked.before_event {e : ServiceEvent Command σ} (linked : Linked s (trace ++ e :: more) u) : Linked s trace e.before := by
  obtain ⟨t, first, second⟩ := linked.split
  cases second with
  | cons _ => exact first

theorem Linked.after_event {e : ServiceEvent Command σ} (linked : Linked s (trace ++ e :: more) u) : Linked e.after more u := by
  obtain ⟨t, _, second⟩ := linked.split
  cases second with
  | cons rest => exact rest

/-- What every event keeps holds at the end. -/
theorem Linked.keeps {inv : σ → Prop} (linked : Linked s trace t) (keep : ∀ e ∈ trace, inv e.before → inv e.after)
    (first : inv s) : inv t := by
  induction linked with
  | nil s => exact first
  | cons _ ih => exact ih (fun e member => keep e (List.mem_cons_of_mem _ member)) (keep _ List.mem_cons_self first)

end ServiceEvent

namespace Service

open Script

variable {Command : Type} {Reply : Command → Type} {α β σ : Type} {S : Service Command Reply σ}

/-- A list has only one entry of a kind if there is none before it and none after it. -/
theorem split_once {ε : Type} {kind : ε → Prop} {before after before' after' : List ε} {e e' : ε}
    (same : before ++ e :: after = before' ++ e' :: after') (none_before : ∀ x ∈ before, ¬ kind x)
    (none_after : ∀ x ∈ after, ¬ kind x) (isKind : kind e') : before = before' ∧ e = e' ∧ after = after' := by
  induction before generalizing before' with
  | nil =>
    cases before' with
    | nil =>
      cases same
      exact ⟨rfl, rfl, rfl⟩
    | cons x rest =>
      cases same
      exact absurd isKind (none_after e' (List.mem_append_right _ List.mem_cons_self))
  | cons x rest ih =>
    cases before' with
    | nil =>
      cases same
      exact absurd isKind (none_before _ List.mem_cons_self)
    | cons y rest' =>
      obtain ⟨rfl, tails⟩ := List.cons.inj same
      obtain ⟨rfl, sameEntry, sameRest⟩ := ih tails fun x member => none_before x (List.mem_cons_of_mem _ member)
      exact ⟨rfl, sameEntry, sameRest⟩

/-- A run of a program: others may act before each command, and after the last one. -/
inductive Run (S : Service Command Reply σ) : Script Command Reply α → σ → List (ServiceEvent Command σ) → σ → α → Prop
  | done (s value) : Run S (.done value) s [] s value
  | send {command next s trace t value} : Run S (next (S.reply command s)) (S.after command s) trace t value →
      Run S (.send command next) s (.own command s (S.after command s) :: trace) t value
  | others {script s t trace u value} : S.others s t → Run S script t trace u value →
      Run S script s (.others s t :: trace) u value

/-- What an event of a run of the service does. -/
def Sound (S : Service Command Reply σ) : ServiceEvent Command σ → Prop
  | .own command before after => after = S.after command before
  | .others before after => S.others before after

instance [DecidableEq σ] [∀ a b, Decidable (S.others a b)] (e : ServiceEvent Command σ) : Decidable (S.Sound e) :=
  match e with
  | .own command before after => inferInstanceAs (Decidable (after = S.after command before))
  | .others before after => inferInstanceAs (Decidable (S.others before after))

variable {script : Script Command Reply α} {s u : σ} {trace : List (ServiceEvent Command σ)} {value : α}

theorem Run.linked (run : Run S script s trace u value) : ServiceEvent.Linked s trace u := by
  induction run with
  | done s => exact .nil s
  | @send command _ s _ _ _ _ ih => exact @ServiceEvent.Linked.cons Command σ (.own command s _) _ _ ih
  | @others _ s t _ _ _ _ _ ih => exact @ServiceEvent.Linked.cons Command σ (.others s t) _ _ ih

theorem Run.sound (run : Run S script s trace u value) {e : ServiceEvent Command σ} (member : e ∈ trace) : S.Sound e := by
  induction run with
  | done => cases member
  | send _ ih =>
    rcases List.mem_cons.mp member with rfl | member
    · rfl
    · exact ih member
  | others acts _ ih =>
    rcases List.mem_cons.mp member with rfl | member
    · exact acts
    · exact ih member

theorem Run.sends {allowed : Command → Prop} (run : Run S script s trace u value) (sends : script.Sends allowed)
    {command : Command} {a b : σ} (member : .own command a b ∈ trace) : allowed command := by
  induction run with
  | done => cases member
  | send _ ih =>
    rcases List.mem_cons.mp member with same | member
    · cases same
      exact sends.1
    · exact ih (sends.2 _) member
  | others _ _ ih =>
    rcases List.mem_cons.mp member with same | member
    · cases same
    · exact ih sends member

/-- The run of a composed program is a run of its first part and then one of its second part. -/
theorem Run.bind {f : α → Script Command Reply β} {result : β} (run : Run S (script.bind f) s trace u result) :
    ∃ first second t value, trace = first ++ second ∧ Run S script s first t value ∧ Run S (f value) t second u result := by
  generalize whole : script.bind f = composed at run
  induction run generalizing script with
  | done s value =>
    cases script with
    | done value =>
      change f value = _ at whole
      exact ⟨[], [], s, value, rfl, .done s value, whole ▸ .done s _⟩
    | send => cases whole
  | @send command next s trace u result run ih =>
    cases script with
    | done value =>
      change f value = _ at whole
      exact ⟨[], _, s, value, rfl, .done s value, whole ▸ .send run⟩
    | send command next =>
      cases whole
      obtain ⟨first, second, t, value, rfl, before, after⟩ := ih rfl
      exact ⟨_ :: first, second, t, value, rfl, .send before, after⟩
  | others acts _ ih =>
    obtain ⟨first, second, t, value, rfl, before, after⟩ := ih whole
    exact ⟨_ :: first, second, t, value, rfl, .others acts before, after⟩

/-- Others may act before a command is sent, and then it is. -/
theorem Run.sent {command : Command} {next : Reply command → Script Command Reply α}
    (run : Run S (.send command next) s trace u value) :
    ∃ before t rest, trace = before ++ .own command t (S.after command t) :: rest ∧
      ServiceEvent.Linked s before t ∧ (∀ e ∈ before, ∃ a b, e = .others a b ∧ S.others a b) ∧
      Run S (next (S.reply command t)) (S.after command t) rest u value := by
  generalize whole : Script.send command next = program at run
  induction run with
  | done => cases whole
  | @send _ _ s _ _ _ run =>
    cases whole
    exact ⟨[], s, _, rfl, .nil s, nofun, run⟩
  | @others _ s t _ _ _ acts _ ih =>
    obtain ⟨before, v, rest, rfl, linked, quiet, run⟩ := ih whole
    refine ⟨.others s t :: before, v, rest, rfl, @ServiceEvent.Linked.cons Command σ (.others s t) _ _ linked, ?_, run⟩
    intro e member
    rcases List.mem_cons.mp member with rfl | member
    · exact ⟨s, t, rfl, acts⟩
    · exact quiet e member

/-- Once a program is over only others act. -/
theorem Run.over {result : α} (run : Run S (.done result) s trace u value) :
    value = result ∧ ∀ e ∈ trace, ∃ a b, e = .others a b ∧ S.others a b := by
  generalize whole : Script.done result = program at run
  induction run with
  | done =>
    cases whole
    exact ⟨rfl, nofun⟩
  | send => cases whole
  | @others _ s t _ _ _ acts _ ih =>
    obtain ⟨same, quiet⟩ := ih whole
    refine ⟨same, fun e member => ?_⟩
    rcases List.mem_cons.mp member with rfl | member
    · exact ⟨s, t, rfl, acts⟩
    · exact quiet e member

/-- The run in which others put the service into the given state before each command; none of it before the commands
that the list has no entry for. -/
def play (S : Service Command Reply σ) : Script Command Reply α → σ → List (Option σ) → List (ServiceEvent Command σ) × σ × α
  | .done value, s, _ => ([], s, value)
  | .send command next, s, plan =>
    let t := (plan.head?.join).getD s
    let (trace, rest) := play S (next (S.reply command t)) (S.after command t) plan.tail
    ((if plan.head?.join.isSome then [.others s t] else []) ++ .own command t (S.after command t) :: trace, rest)

theorem play_run (script : Script Command Reply α) (s : σ) (plan : List (Option σ))
    (sound : ∀ e ∈ (S.play script s plan).1, S.Sound e) :
    Run S script s (S.play script s plan).1 (S.play script s plan).2.1 (S.play script s plan).2.2 := by
  induction script generalizing s plan with
  | done value => exact .done s value
  | send command next ih =>
    unfold play at sound ⊢
    dsimp only at sound ⊢
    have rest := ih (S.reply command ((plan.head?.join).getD s)) (S.after command ((plan.head?.join).getD s)) plan.tail
      fun e member => sound e (List.mem_append_right _ (List.mem_cons_of_mem _ member))
    cases planned : plan.head?.join with
    | none =>
      rw [planned] at rest
      exact .send rest
    | some t =>
      rw [planned] at rest sound
      exact .others (sound (.others s t) List.mem_cons_self) (.send rest)

end Service
