import HyprRdp.Lib.Crews
import HyprRdp.Lib.Table
import HyprRdp.Server.PamAuthentication

namespace HyprRdp

inductive PamResult
  | accept | reject
  | error (reason : String)
  deriving DecidableEq

/-- The first process of the helper's group. -/
inductive PamLeader
  | absent | running
  | exited (code : Nat)
  | signalled
  deriving DecidableEq

/-- A process group: its leader, and how many other processes in it are alive. -/
structure PamGroup where
  leader : PamLeader
  members : Nat
  deriving DecidableEq

namespace PamGroup

variable (g : PamGroup)

def Alive : Prop := g.leader = .running ∨ 0 < g.members

def kill : PamGroup := ⟨if g.leader = .running then .signalled else g.leader, 0⟩

theorem kill_dead : ¬ g.kill.Alive := by
  unfold kill Alive
  split <;> simp_all

end PamGroup

/-- Where a call of `validate` is; `waited` says that the helper exited in time. -/
inductive PamStage
  | fresh | acquiring | starting | writing | waiting
  | killing (waited : Bool)
  | reaping (waited : Bool)
  | returned (result : PamResult)
  | cancelled
  deriving DecidableEq

structure PamCall where
  stage : PamStage
  request : PamRequest
  sent : Nat
  helper : PamGroup

/-- What may come next in a call: its own progress, an error, the deadline, the end of its future, or something that
the processes of the helper do. -/
inductive PamChoice
  | validate (username password : String)
  | proceeds | fails | expires | cancels
  | writes (n : Nat)
  | forks | memberExits | leaderExits | leaderCrashes
  deriving DecidableEq

namespace PamCall

def fresh : PamCall := ⟨.fresh, ⟨"", "", ""⟩, 0, ⟨.absent, 0⟩⟩

variable (c : PamCall)

def goTo (stage : PamStage) : PamCall := { c with stage }

/-- What `validate` makes of the status of the helper. -/
def decision (waited : Bool) : PamResult :=
  if waited then
    match c.helper.leader with
    | .exited 0 => .accept
    | .exited 1 => .reject
    | _ => .error "PAM backend unavailable"
  else .error "PAM helper failed or timed out"

end PamCall

section Validate

variable (env : PamEnvironment) (encode : PamRequest → List UInt8) (service : String)

/-- One step of the call `i`, over the slot that all calls share. The helper reads its input to the end, so that it
exits only when the input is closed. -/
def validate (slot : Option Nat) (i : Nat) (c : PamCall) : PamChoice → Option (Option Nat × PamCall)
  | .validate username password =>
    match c.stage with
    | .fresh =>
      some (slot, ⟨if validCredentials username password then .acquiring else .returned .reject,
        ⟨service, username, password⟩, 0, ⟨.absent, 0⟩⟩)
    | _ => none
  | .proceeds =>
    match c.stage with
    | .acquiring => some (if slot = none then (some i, c.goTo .starting) else (slot, c.goTo (.returned .reject)))
    | .starting =>
      some (if (encode c.request).length ≤ payloadLimit then (slot, { c with stage := .writing, helper := ⟨.running, 0⟩ })
        else (none, c.goTo (.returned (.error "PAM helper failed or timed out"))))
    | .writing => if c.sent = (encode c.request).length then some (slot, c.goTo .waiting) else none
    | .waiting => if c.helper.leader = .running then none else some (slot, c.goTo (.killing true))
    | .killing waited => some (slot, { c with stage := .reaping waited, helper := c.helper.kill })
    | .reaping waited => some (none, c.goTo (.returned (c.decision waited)))
    | _ => none
  | .fails =>
    match c.stage with
    | .starting => some (none, c.goTo (.returned (.error "PAM helper failed or timed out")))
    | .writing | .waiting => some (slot, c.goTo (.killing false))
    | .reaping _ => some (none, c.goTo (.returned (.error "PAM helper failed or timed out")))
    | _ => none
  | .expires =>
    match c.stage with
    | .writing | .waiting => some (slot, c.goTo (.killing false))
    | _ => none
  | .cancels =>
    match c.stage with
    | .writing | .waiting | .reaping _ => some (none, { c with stage := .cancelled, helper := c.helper.kill })
    | _ => none
  | .writes n =>
    match c.stage with
    | .writing => if c.sent + n ≤ (encode c.request).length then some (slot, { c with sent := c.sent + n }) else none
    | _ => none
  | .forks =>
    if c.helper.leader = .running ∨ 0 < c.helper.members then
      some (slot, { c with helper := ⟨c.helper.leader, c.helper.members + 1⟩ })
    else none
  | .memberExits =>
    if 0 < c.helper.members then some (slot, { c with helper := ⟨c.helper.leader, c.helper.members - 1⟩ }) else none
  | .leaderExits =>
    if c.helper.leader = .running ∧ c.stage ≠ .writing then
      some (slot, { c with
        helper := ⟨.exited (env.helperStatus ((encode c.request).take c.sent)), c.helper.members⟩ })
    else none
  | .leaderCrashes =>
    if c.helper.leader = .running then some (slot, { c with helper := ⟨.signalled, c.helper.members⟩ }) else none

def pamCalls : Crew Nat (Option Nat) PamCall PamChoice := ⟨validate env encode service⟩

/-- No call has begun, and the slot is free. -/
def pamSystem : StepSystem (Crew.World Nat (Option Nat) PamCall) (Nat × PamChoice) :=
  (pamCalls env encode service).system fun w => w = ⟨none, fun _ => .fresh⟩

end Validate

section Knows

variable (env : PamEnvironment) (encode : PamRequest → List UInt8) (service : String)

/-- If the helper has exited, then with the status for what it was sent. -/
def PamCall.Told (c : PamCall) : Prop :=
  ∀ code, c.helper.leader = .exited code → code = env.helperStatus ((encode c.request).take c.sent)

/-- What is known of a call at its place: who has the slot, and what is left of the helper. -/
def PamCall.Knows (slot : Option Nat) (i : Nat) (c : PamCall) : Prop :=
  match c.stage with
  | .fresh => slot ≠ some i ∧ ¬ c.helper.Alive
  | .acquiring => slot ≠ some i ∧ ¬ c.helper.Alive ∧ c.request.service = service
  | .starting => slot = some i ∧ ¬ c.helper.Alive ∧ c.request.service = service
  | .writing => slot = some i ∧ c.request.service = service ∧ (c.helper.leader = .running ∨ c.helper.leader = .signalled)
  | .waiting => slot = some i ∧ c.request.service = service ∧ c.Told env encode ∧ c.sent = (encode c.request).length
  | .killing waited =>
    slot = some i ∧ c.request.service = service ∧ c.Told env encode ∧ (waited = true → c.sent = (encode c.request).length)
  | .reaping waited =>
    slot = some i ∧ c.request.service = service ∧ c.Told env encode ∧
      (waited = true → c.sent = (encode c.request).length) ∧ ¬ c.helper.Alive
  | .returned result =>
    slot ≠ some i ∧ ¬ c.helper.Alive ∧
      (result = .accept → c.request.service = service ∧ env.helperStatus (encode c.request) = 0)
  | .cancelled => slot ≠ some i ∧ ¬ c.helper.Alive

variable {env encode service} {slot after : Option Nat} {i j : Nat} {c d : PamCall} {choice : PamChoice}

/-- Only the slot is common to two calls. -/
theorem PamCall.Knows.spared (apart : i ≠ j)
    (moved : after = slot ∨ (slot = none ∧ after = some i) ∨ (slot = some i ∧ after = none))
    (knows : c.Knows env encode service slot j) : c.Knows env encode service after j := by
  have same : after = some j ↔ slot = some j := by
    rcases moved with rfl | ⟨rfl, rfl⟩ | ⟨rfl, rfl⟩
    · exact Iff.rfl
    · simp [apart]
    · simp [apart]
  unfold PamCall.Knows at knows ⊢
  cases stage : c.stage <;> simp only [stage, same, ne_eq] at knows ⊢ <;> exact knows

/-- What the processes of the helper do themselves. -/
theorem PamCall.Knows.group (knows : c.Knows env encode service slot i) (alive : c.helper.Alive) {later : PamGroup}
    (leader : later.leader = c.helper.leader ∨ later.leader = .signalled ∨
      (c.stage ≠ .writing ∧ later.leader = .exited (env.helperStatus ((encode c.request).take c.sent)))) :
    ({ c with helper := later } : PamCall).Knows env encode service slot i := by
  have told : c.Told env encode → ({ c with helper := later } : PamCall).Told env encode := by
    intro told code exited
    rcases leader with same | signalled | ⟨_, status⟩
    · exact told code (same.symm.trans exited)
    · cases signalled.symm.trans exited
    · exact (PamLeader.exited.inj (status.symm.trans exited)).symm
  obtain ⟨stage, request, sent, helper⟩ := c
  cases stage with
  | fresh => exact absurd alive knows.2
  | acquiring => exact absurd alive knows.2.1
  | starting => exact absurd alive knows.2.1
  | writing =>
    obtain ⟨holds, ours, runs⟩ := knows
    refine ⟨holds, ours, ?_⟩
    rcases leader with same | signalled | ⟨later, _⟩
    · exact same ▸ runs
    · exact Or.inr signalled
    · exact absurd rfl later
  | waiting => exact ⟨knows.1, knows.2.1, told knows.2.2.1, knows.2.2.2⟩
  | killing waited => exact ⟨knows.1, knows.2.1, told knows.2.2.1, knows.2.2.2⟩
  | reaping waited => exact absurd alive knows.2.2.2.2
  | returned result => exact absurd alive knows.2.1
  | cancelled => exact absurd alive knows.2

/-- How a step may move the slot. -/
def SlotMoves (i : Nat) (slot after : Option Nat) : Prop :=
  after = slot ∨ (slot = none ∧ after = some i) ∨ (slot = some i ∧ after = none)

theorem decision_accept {waited : Bool} (accepts : c.decision waited = .accept) :
    waited = true ∧ c.helper.leader = .exited 0 := by
  unfold PamCall.decision at accepts
  split at accepts
  next yes =>
    split at accepts
    next exited => exact ⟨yes, exited⟩
    next => cases accepts
    next => cases accepts
  next => cases accepts

theorem proceeds_kept (knows : c.Knows env encode service slot i)
    (step : validate env encode service slot i c .proceeds = some (after, d)) :
    d.Knows env encode service after i ∧ SlotMoves i slot after := by
  obtain ⟨stage, request, sent, helper⟩ := c
  cases stage with
  | fresh => cases step
  | returned result => cases step
  | cancelled => cases step
  | acquiring =>
    obtain ⟨other, dead, ours⟩ := knows
    by_cases free : slot = none
    · simp only [validate, free, if_true, Option.some.injEq, Prod.mk.injEq] at step
      obtain ⟨rfl, rfl⟩ := step
      exact ⟨⟨rfl, dead, ours⟩, Or.inr (Or.inl ⟨free, rfl⟩)⟩
    · simp only [validate, free, if_false, Option.some.injEq, Prod.mk.injEq] at step
      obtain ⟨rfl, rfl⟩ := step
      exact ⟨⟨other, dead, fun accepts => by cases accepts⟩, Or.inl rfl⟩
  | starting =>
    obtain ⟨holds, dead, ours⟩ := knows
    by_cases fits : (encode request).length ≤ payloadLimit
    · simp only [validate, fits, if_true, Option.some.injEq, Prod.mk.injEq] at step
      obtain ⟨rfl, rfl⟩ := step
      exact ⟨⟨holds, ours, Or.inl rfl⟩, Or.inl rfl⟩
    · simp only [validate, fits, if_false, Option.some.injEq, Prod.mk.injEq] at step
      obtain ⟨rfl, rfl⟩ := step
      exact ⟨⟨(Option.some_ne_none i).symm, dead, fun accepts => by cases accepts⟩, Or.inr (Or.inr ⟨holds, rfl⟩)⟩
  | writing =>
    obtain ⟨holds, ours, runs⟩ := knows
    by_cases whole : sent = (encode request).length
    · simp only [validate, whole, if_true, Option.some.injEq, Prod.mk.injEq] at step
      obtain ⟨rfl, rfl⟩ := step
      refine ⟨⟨holds, ours, fun code exited => ?_, rfl⟩, Or.inl rfl⟩
      rcases runs with same | same
      · cases same.symm.trans exited
      · cases same.symm.trans exited
    · simp only [validate, whole, if_false, reduceCtorEq] at step
  | waiting =>
    obtain ⟨holds, ours, told, whole⟩ := knows
    by_cases running : helper.leader = .running
    · simp only [validate, running, if_true, reduceCtorEq] at step
    · simp only [validate, running, if_false, Option.some.injEq, Prod.mk.injEq] at step
      obtain ⟨rfl, rfl⟩ := step
      exact ⟨⟨holds, ours, told, fun _ => whole⟩, Or.inl rfl⟩
  | killing waited =>
    obtain ⟨holds, ours, told, whole⟩ := knows
    simp only [validate, Option.some.injEq, Prod.mk.injEq] at step
    obtain ⟨rfl, rfl⟩ := step
    refine ⟨⟨holds, ours, fun code exited => ?_, whole, PamGroup.kill_dead _⟩, Or.inl rfl⟩
    have before : helper.leader = .exited code := by
      unfold PamGroup.kill at exited
      dsimp only at exited
      split at exited
      · cases exited
      · exact exited
    exact told code before
  | reaping waited =>
    obtain ⟨holds, ours, told, whole, dead⟩ := knows
    simp only [validate, Option.some.injEq, Prod.mk.injEq] at step
    obtain ⟨rfl, rfl⟩ := step
    refine ⟨⟨(Option.some_ne_none i).symm, dead, fun accepts => ⟨ours, ?_⟩⟩, Or.inr (Or.inr ⟨holds, rfl⟩)⟩
    obtain ⟨yes, exited⟩ := decision_accept accepts
    have status := told 0 exited
    rw [whole yes, List.take_length] at status
    exact status.symm

theorem fails_kept (knows : c.Knows env encode service slot i)
    (step : validate env encode service slot i c .fails = some (after, d)) :
    d.Knows env encode service after i ∧ SlotMoves i slot after := by
  obtain ⟨stage, request, sent, helper⟩ := c
  cases stage with
  | fresh | acquiring | returned _ | cancelled | killing _ => cases step
  | starting =>
    obtain ⟨holds, dead, _⟩ := knows
    cases step
    exact ⟨⟨(Option.some_ne_none i).symm, dead, fun accepts => by cases accepts⟩, Or.inr (Or.inr ⟨holds, rfl⟩)⟩
  | writing =>
    obtain ⟨holds, ours, runs⟩ := knows
    cases step
    refine ⟨⟨holds, ours, fun code exited => ?_, fun yes => by cases yes⟩, Or.inl rfl⟩
    rcases runs with same | same
    · cases same.symm.trans exited
    · cases same.symm.trans exited
  | waiting =>
    obtain ⟨holds, ours, told, _⟩ := knows
    cases step
    exact ⟨⟨holds, ours, told, fun yes => by cases yes⟩, Or.inl rfl⟩
  | reaping waited =>
    obtain ⟨holds, _, _, _, dead⟩ := knows
    cases step
    exact ⟨⟨(Option.some_ne_none i).symm, dead, fun accepts => by cases accepts⟩, Or.inr (Or.inr ⟨holds, rfl⟩)⟩

theorem cancels_kept (knows : c.Knows env encode service slot i)
    (step : validate env encode service slot i c .cancels = some (after, d)) :
    d.Knows env encode service after i ∧ SlotMoves i slot after := by
  obtain ⟨stage, request, sent, helper⟩ := c
  have freed : ∀ holds : slot = some i, SlotMoves i slot none := fun holds => Or.inr (Or.inr ⟨holds, rfl⟩)
  cases stage with
  | fresh | acquiring | starting | returned _ | cancelled | killing _ => cases step
  | writing =>
    cases step
    exact ⟨⟨(Option.some_ne_none i).symm, PamGroup.kill_dead _⟩, freed knows.1⟩
  | waiting =>
    cases step
    exact ⟨⟨(Option.some_ne_none i).symm, PamGroup.kill_dead _⟩, freed knows.1⟩
  | reaping waited =>
    cases step
    exact ⟨⟨(Option.some_ne_none i).symm, PamGroup.kill_dead _⟩, freed knows.1⟩

theorem validate_kept (knows : c.Knows env encode service slot i)
    (step : validate env encode service slot i c choice = some (after, d)) :
    d.Knows env encode service after i ∧ SlotMoves i slot after := by
  cases choice with
  | proceeds => exact proceeds_kept knows step
  | fails => exact fails_kept knows step
  | cancels => exact cancels_kept knows step
  | expires =>
    -- the deadline ends a wait as an error does
    have same : validate env encode service slot i c .fails = some (after, d) := by
      obtain ⟨stage, request, sent, helper⟩ := c
      cases stage with
      | writing | waiting => exact step
      | _ => cases step
    exact fails_kept knows same
  | validate username password =>
    obtain ⟨stage, request, sent, helper⟩ := c
    cases stage with
    | fresh =>
      have dead : ¬ (⟨.absent, 0⟩ : PamGroup).Alive := by simp [PamGroup.Alive]
      cases step
      refine ⟨?_, Or.inl rfl⟩
      by_cases valid : validCredentials username password = true
      · rw [if_pos valid]
        exact ⟨knows.1, dead, rfl⟩
      · rw [if_neg valid]
        exact ⟨knows.1, dead, fun accepts => by cases accepts⟩
    | _ => cases step
  | writes n =>
    obtain ⟨stage, request, sent, helper⟩ := c
    cases stage with
    | writing =>
      obtain ⟨_, same⟩ := Option.ite_none_right_eq_some.mp step
      cases same
      exact ⟨⟨knows.1, knows.2.1, knows.2.2⟩, Or.inl rfl⟩
    | _ => cases step
  | forks =>
    obtain ⟨alive, same⟩ := Option.ite_none_right_eq_some.mp step
    cases same
    exact ⟨knows.group alive (Or.inl rfl), Or.inl rfl⟩
  | memberExits =>
    obtain ⟨some, same⟩ := Option.ite_none_right_eq_some.mp step
    cases same
    exact ⟨knows.group (Or.inr some) (Or.inl rfl), Or.inl rfl⟩
  | leaderExits =>
    obtain ⟨⟨running, closed⟩, same⟩ := Option.ite_none_right_eq_some.mp step
    cases same
    exact ⟨knows.group (Or.inl running) (Or.inr (Or.inr ⟨closed, rfl⟩)), Or.inl rfl⟩
  | leaderCrashes =>
    obtain ⟨running, same⟩ := Option.ite_none_right_eq_some.mp step
    cases same
    exact ⟨knows.group (Or.inl running) (Or.inr (Or.inl rfl)), Or.inl rfl⟩

theorem pamCalls_outline :
    (pamCalls env encode service).Outline (fun _ => True) fun slot i c => c.Knows env encode service slot i where
  keeps _ _ _ _ _ _ step _ knows := ⟨trivial, (validate_kept knows step).1⟩
  spares _ _ _ _ _ _ _ _ apart step _ knows other := other.spared apart (validate_kept knows step).2

theorem pam_inductive : (pamSystem env encode service).Inductive fun w =>
    True ∧ ∀ i, (w.place i).Knows env encode service w.shared i := by
  refine pamCalls_outline.inductive ?_
  rintro _ rfl
  exact ⟨trivial, fun i => ⟨(Option.some_ne_none i).symm, by simp [PamCall.fresh, PamGroup.Alive]⟩⟩

/-- A call whose helper has a process left has the slot. -/
theorem PamCall.Knows.alive_holds (knows : c.Knows env encode service slot i) (alive : c.helper.Alive) : slot = some i := by
  obtain ⟨stage, request, sent, helper⟩ := c
  cases stage with
  | fresh => exact absurd alive knows.2
  | acquiring => exact absurd alive knows.2.1
  | starting | writing | waiting | killing _ | reaping _ => exact knows.1
  | returned result => exact absurd alive knows.2.1
  | cancelled => exact absurd alive knows.2

end Knows

/-- However many logins are tried at once, and wherever they time out, fail or are given up: only credentials that PAM
accepted for our own account are let in, two helpers are never there together, and nothing of one outlives its call. -/
theorem pam_accepts {env : PamEnvironment} {encode : PamRequest → List UInt8} {service : String}
    (decodes : ∀ request, env.decode (encode request) = some request) {w : Crew.World Nat (Option Nat) PamCall}
    (reach : (pamSystem env encode service).Reach w) :
    (∀ i, (w.place i).stage = .returned .accept →
      (w.place i).request.service = service ∧ env.Grants (w.place i).request) ∧
    (∀ i j, (w.place i).helper.Alive → (w.place j).helper.Alive → i = j) ∧
    (∀ i, (w.place i).stage = .cancelled ∨ (∃ result, (w.place i).stage = .returned result) → ¬ (w.place i).helper.Alive) := by
  have knows := (pam_inductive.reach reach).2
  refine ⟨fun i accepts => ?_, fun i j one two => ?_, fun i ended => ?_⟩
  · have at' := knows i
    unfold PamCall.Knows at at'
    rw [accepts] at at'
    obtain ⟨ours, status⟩ := at'.2.2 rfl
    refine ⟨ours, PamEnvironment.authenticate_grants ?_⟩
    exact PamEnvironment.helperStatus_accepts decodes status
  · exact Option.some.inj (((knows i).alive_holds one).symm.trans ((knows j).alive_holds two))
  · have at' := knows i
    unfold PamCall.Knows at at'
    rcases ended with stage | ⟨result, stage⟩
    · simp only [stage] at at'
      exact at'.2
    · simp only [stage] at at'
      exact at'.2.1

section Json

def quotationMark : UInt8 := 0x22

def reverseSolidus : UInt8 := 0x5c

/-- The control characters that have a letter of their own, and the two that delimit. -/
def jsonLetters : List (UInt8 × UInt8) :=
  [(quotationMark, 0x22), (reverseSolidus, 0x5c), (8, 0x62), (9, 0x74), (10, 0x6e), (12, 0x66), (13, 0x72)]

def hexDigit (n : UInt8) : UInt8 := if n < 10 then 0x30 + n else 0x57 + n

def hexValue (digit : UInt8) : UInt8 := if digit < 0x3a then digit - 0x30 else digit - 0x57

/-- How a byte is written in a text. The other control characters are written in hexadecimal. -/
def jsonByte (b : UInt8) : List UInt8 :=
  match jsonLetters.lookup b with
  | some letter => [reverseSolidus, letter]
  | none => if b < 0x20 then [reverseSolidus, 0x75, 0x30, 0x30, hexDigit (b / 16), hexDigit (b % 16)] else [b]

/-- Where the reader of a text is: between two bytes, behind the sign of an escape, or before the last digits of a number. -/
inductive JsonReader
  | plain | escaped
  | number (digits : Nat) (value : UInt8)

/-- The bytes of a text up to its closing mark, and what follows it. -/
def JsonReader.read : JsonReader → List UInt8 → Option (List UInt8 × List UInt8)
  | _, [] => none
  | .plain, b :: rest =>
    if b = quotationMark then some ([], rest)
    else if b = reverseSolidus then JsonReader.escaped.read rest
    else (JsonReader.plain.read rest).map fun found => (b :: found.1, found.2)
  | .escaped, letter :: rest =>
    if letter = 0x75 then (JsonReader.number 3 0).read rest
    else
      ((jsonLetters.map Prod.swap).lookup letter).bind fun b =>
        (JsonReader.plain.read rest).map fun found => (b :: found.1, found.2)
  | .number 0 value, digit :: rest =>
    (JsonReader.plain.read rest).map fun found => ((16 * value + hexValue digit) :: found.1, found.2)
  | .number (digits + 1) value, digit :: rest => (JsonReader.number digits (16 * value + hexValue digit)).read rest

theorem hexDigits_value {b : UInt8} (control : b < 0x20) :
    16 * (16 * (16 * (16 * 0 + hexValue 0x30) + hexValue 0x30) + hexValue (hexDigit (b / 16))) + hexValue (hexDigit (b % 16)) =
      b := by
  have each : ∀ n : Fin 32, 16 * (16 * (16 * (16 * 0 + hexValue 0x30) + hexValue 0x30) +
      hexValue (hexDigit (UInt8.ofNat n / 16))) + hexValue (hexDigit (UInt8.ofNat n % 16)) = UInt8.ofNat n := by decide
  have found := each ⟨b.toNat, UInt8.lt_iff_toNat_lt.mp control⟩
  rwa [UInt8.ofNat_toNat] at found

theorem read_jsonByte (b : UInt8) (rest : List UInt8) :
    JsonReader.plain.read (jsonByte b ++ rest) = (JsonReader.plain.read rest).map fun found => (b :: found.1, found.2) := by
  unfold jsonByte
  cases letter : jsonLetters.lookup b with
  | some l =>
    have member := List.mem_of_lookup letter
    simp only [jsonLetters, List.mem_cons, List.not_mem_nil, or_false, Prod.mk.injEq] at member
    rcases member with ⟨rfl, rfl⟩ | ⟨rfl, rfl⟩ | ⟨rfl, rfl⟩ | ⟨rfl, rfl⟩ | ⟨rfl, rfl⟩ | ⟨rfl, rfl⟩ | ⟨rfl, rfl⟩ <;> rfl
  | none =>
    have quote : b ≠ quotationMark := fun same => by
      rw [same] at letter
      cases letter
    have escape : b ≠ reverseSolidus := fun same => by
      rw [same] at letter
      cases letter
    dsimp only
    split
    · rename_i control
      have value := hexDigits_value control
      show (JsonReader.plain.read rest).map _ = _
      rw [value]
    · rw [List.singleton_append, JsonReader.read, if_neg quote, if_neg escape]

/-- A text with its closing mark. -/
def jsonText (text : String) : List UInt8 := (utf8 text).flatMap jsonByte ++ [quotationMark]

theorem read_jsonText (text : String) (rest : List UInt8) :
    JsonReader.plain.read (jsonText text ++ rest) = some (utf8 text, rest) := by
  unfold jsonText
  induction utf8 text with
  | nil => rfl
  | cons b bytes ih =>
    rw [List.flatMap_cons, List.append_assoc, List.append_assoc, read_jsonByte, ← List.append_assoc, ih]
    rfl

def readUtf8 (bytes : List UInt8) : Option String :=
  if valid : (ByteArray.mk bytes.toArray).IsValidUTF8 then some (.ofByteArray _ valid) else none

theorem readUtf8_utf8 (text : String) : readUtf8 (utf8 text) = some text := by
  unfold readUtf8 utf8
  exact dif_pos text.isValidUTF8

/-- A member of an object up to the opening mark of its value. -/
def jsonMember (lead : UInt8) (key : String) : List UInt8 := lead :: quotationMark :: utf8 key ++ [quotationMark, 0x3a, quotationMark]

def readMember (lead : UInt8) (key : String) (payload : List UInt8) : Option (String × List UInt8) :=
  if jsonMember lead key <+: payload then
    (JsonReader.plain.read (payload.drop (jsonMember lead key).length)).bind fun found =>
      (readUtf8 found.1).map fun text => (text, found.2)
  else none

theorem readMember_written (lead : UInt8) (key text : String) (rest : List UInt8) :
    readMember lead key (jsonMember lead key ++ (jsonText text ++ rest)) = some (text, rest) := by
  unfold readMember
  rw [if_pos (List.prefix_append _ _), List.drop_left, read_jsonText, Option.bind_some, readUtf8_utf8]
  rfl

/-- A request as an object of three texts: an opening brace, commas and a closing brace. -/
def jsonRequest (r : PamRequest) : List UInt8 :=
  jsonMember 0x7b "service" ++ (jsonText r.service ++ (jsonMember 0x2c "username" ++ (jsonText r.username ++
    (jsonMember 0x2c "password" ++ (jsonText r.password ++ [0x7d])))))

def readJsonRequest (payload : List UInt8) : Option PamRequest :=
  (readMember 0x7b "service" payload).bind fun service =>
    (readMember 0x2c "username" service.2).bind fun username =>
      (readMember 0x2c "password" username.2).bind fun password =>
        if password.2 = [0x7d] then some ⟨service.1, username.1, password.1⟩ else none

theorem readJsonRequest_written (r : PamRequest) : readJsonRequest (jsonRequest r) = some r := by
  unfold readJsonRequest jsonRequest
  rw [readMember_written, Option.bind_some, readMember_written, Option.bind_some, readMember_written, Option.bind_some]
  exact if_pos rfl

end Json

/-- A desktop whose user has the number 1000 and one password. -/
def oneUser : PamEnvironment where
  realUid := 1000
  effectiveUid := 1000
  isFile _ _ := true
  getpwnam _ size := if size < 2048 then .outOfRange else .found 1000
  session _ username conversation := some ⟨conversation.password = "secret", true, some username⟩
  decode := readJsonRequest

def granted : PamRequest := ⟨"hypr-rdp", "alice", "secret"⟩

theorem granted_accepted : oneUser.helperStatus (jsonRequest granted) = 0 := by
  have whole : (jsonRequest granted).take (payloadLimit + 1) = jsonRequest granted := List.take_of_length_le (by decide)
  have read : oneUser.readRequest (jsonRequest granted) = .ok granted := by
    have decoded : oneUser.decode (jsonRequest granted) = some granted := readJsonRequest_written granted
    unfold PamEnvironment.readRequest
    dsimp only
    rw [whole, if_pos (by decide), decoded]
  have accepted : oneUser.authenticate granted = .ok true := rfl
  unfold PamEnvironment.helperStatus
  rw [read]
  dsimp only
  rw [accepted]

/-- A second login comes while the first one waits for its helper. -/
def twoLogins : List (Nat × PamChoice) :=
  [(0, .validate "alice" "secret"), (0, .proceeds), (1, .validate "alice" "secret"), (0, .proceeds), (1, .proceeds),
    (0, .writes 61), (0, .proceeds), (0, .forks), (0, .leaderExits), (0, .proceeds), (0, .proceeds), (0, .proceeds)]

theorem pam_accepts_once : ∃ w, (pamSystem oneUser jsonRequest "hypr-rdp").Reach w ∧
    (w.place 0).stage = .returned .accept ∧ (w.place 0).request = granted ∧ oneUser.Grants granted ∧
      ¬ (w.place 0).helper.Alive := by
  obtain ⟨w, run, exited, asked⟩ : ∃ w, StepSystem.exec (pamCalls oneUser jsonRequest "hypr-rdp").next
      ⟨none, fun _ => .fresh⟩ twoLogins = some w ∧
        (∃ c : PamCall, c.helper.leader = .exited (oneUser.helperStatus ((jsonRequest granted).take 61)) ∧
          (w.place 0).stage = .returned (c.decision true)) ∧ (w.place 0).request = granted :=
    ⟨_, rfl, ⟨_, rfl, rfl⟩, rfl⟩
  have reach : (pamSystem oneUser jsonRequest "hypr-rdp").Reach w := .exec (fun _ _ _ step => step) twoLogins (.start rfl) run
  have accepts : (w.place 0).stage = .returned .accept := by
    obtain ⟨c, leader, stage⟩ := exited
    have whole : (jsonRequest granted).take 61 = jsonRequest granted := rfl
    rw [whole, granted_accepted] at leader
    rw [stage, PamCall.decision, leader]
    rfl
  obtain ⟨grants, _, gone⟩ := pam_accepts (fun request => readJsonRequest_written request) reach
  exact ⟨w, reach, accepts, asked, asked ▸ (grants 0 accepts).2, gone 0 (Or.inr ⟨_, accepts⟩)⟩

end HyprRdp
