import Mathlib.Data.UInt

namespace HyprRdp

/-- The bytes of a text. -/
def utf8 (text : String) : List UInt8 := text.toUTF8.data.toList

structure PamRequest where
  service : String
  username : String
  password : String
  deriving DecidableEq

def payloadLimit : Nat := 65536

def isAsciiAlphanumeric (b : UInt8) : Bool :=
  (48 ≤ b.toNat && b.toNat ≤ 57) || (65 ≤ b.toNat && b.toNat ≤ 90) || (97 ≤ b.toNat && b.toNat ≤ 122)

def validPamService (service : String) : Bool :=
  !(utf8 service).isEmpty && (utf8 service).length ≤ 64 && isAsciiAlphanumeric ((utf8 service).headD 0) &&
    (utf8 service).all fun b => isAsciiAlphanumeric b || (utf8 "-_.").contains b

/-- A zero byte stands for nothing but the character zero. -/
def validCredentials (username password : String) : Bool :=
  !(utf8 username).isEmpty && (utf8 username).length ≤ 256 && !(utf8 username).contains 0 &&
    !(utf8 password).isEmpty && (utf8 password).length ≤ 4096 && !(utf8 password).contains 0

/-- What the lookup of an account in a buffer of some size says. -/
inductive AccountLookup
  | outOfRange | failed | missing
  | found (uid : Nat)

inductive PamPrompt
  | echoOn | echoOff | radio | binary | info | error
  deriving DecidableEq

inductive PamAnswer
  | username | password | failed | silent
  deriving DecidableEq

/-- The answers of the conversation, which gives the password once. -/
structure PasswordConversation where
  username : String
  password : String
  answeredPassword : Bool

namespace PasswordConversation

variable (c : PasswordConversation)

def answer : PamPrompt → PamAnswer × PasswordConversation
  | .echoOn => (.username, c)
  | .echoOff => if c.answeredPassword then (.failed, c) else (.password, { c with answeredPassword := true })
  | .radio | .binary => (.failed, c)
  | .info | .error => (.silent, c)

def answers : PasswordConversation → List PamPrompt → List PamAnswer
  | _, [] => []
  | c, prompt :: prompts => (c.answer prompt).1 :: answers (c.answer prompt).2 prompts

theorem answers_once (prompts : List PamPrompt) :
    (c.answers prompts).count .password ≤ if c.answeredPassword then 0 else 1 := by
  induction prompts generalizing c with
  | nil => simp [answers]
  | cons prompt prompts ih =>
    cases prompt with
    | echoOff =>
      by_cases answered : c.answeredPassword = true
      · have later := ih c
        simp only [answers, answer, answered, if_true] at later ⊢
        simpa using later
      · have later := ih { c with answeredPassword := true }
        simp only [answers, answer, answered, if_true] at later ⊢
        simpa using later
    | echoOn | radio | binary | info | error =>
      have later := ih c
      simpa [answers, answer] using later

end PasswordConversation

/-- What the PAM library says in one session: its two checks, and the user at the end. -/
structure PamSession where
  authenticates : Bool
  accountValid : Bool
  user : Option String

/-- What the helper asks of the system. -/
structure PamEnvironment where
  realUid : Nat
  effectiveUid : Nat
  isFile : String → String → Bool
  getpwnam : String → Nat → AccountLookup
  session : String → String → PasswordConversation → Option PamSession
  decode : List UInt8 → Option PamRequest

namespace PamEnvironment

variable (env : PamEnvironment)

def serviceExists (service : String) : Bool :=
  validPamService service && ["/etc/pam.d", "/usr/lib/pam.d"].any fun root => env.isFile root service

def processUid : Except String Nat :=
  if env.realUid ≠ 0 ∧ env.realUid = env.effectiveUid then .ok env.realUid
  else .error "PAM mode requires an unprivileged desktop user"

/-- The buffer doubles as long as it is too small; `doublings` are those that are left. -/
def userUidWithin (username : String) : Nat → Nat → Except String (Option Nat)
  | doublings, size =>
    match env.getpwnam username size with
    | .outOfRange =>
      match doublings with
      | 0 => .error "Linux account lookup failed"
      | doublings + 1 => userUidWithin username doublings (2 * size)
    | .failed => .error "Linux account lookup failed"
    | .missing => .ok none
    | .found uid => .ok (some uid)

/-- From 1024 bytes up to the limit of a payload. -/
def userUid (username : String) : Except String (Option Nat) :=
  if (utf8 username).contains 0 then .error "nul byte found in provided data" else env.userUidWithin username 6 1024

def authenticate (request : PamRequest) : Except String Bool :=
  match env.processUid with
  | .error reason => .error reason
  | .ok uid =>
    if env.serviceExists request.service = false ∨ validCredentials request.username request.password = false then .ok false
    else
      match env.userUid request.username with
      | .error reason => .error reason
      | .ok account =>
        if account ≠ some uid then .ok false
        else
          match env.session request.service request.username ⟨request.username, request.password, false⟩ with
          | none => .error "PAM initialization failed"
          | some session =>
            if session.authenticates = false ∨ session.accountValid = false then .ok false
            else
              match session.user with
              | none => .error "PAM identity unavailable"
              | some user => (env.userUid user).map fun account => account = some uid

def readRequest (input : List UInt8) : Except String PamRequest :=
  let payload := input.take (payloadLimit + 1)
  if payload.length ≤ payloadLimit then
    match env.decode payload with
    | some request => .ok request
    | none => .error "invalid PAM request"
  else .error "PAM request exceeds limit"

/-- The exit status of the helper, from what it read. -/
def helperStatus (input : List UInt8) : Nat :=
  match env.readRequest input with
  | .error _ => 2
  | .ok request =>
    match env.authenticate request with
    | .ok true => 0
    | .ok false => 1
    | .error _ => 2

/-- What it takes to be let in: an unprivileged process, an installed service, credentials that PAM accepts, and an
account that is our own before and after. -/
structure Grants (request : PamRequest) : Prop where
  unprivileged : env.realUid ≠ 0 ∧ env.realUid = env.effectiveUid
  service : env.serviceExists request.service = true
  credentials : validCredentials request.username request.password = true
  account : env.userUid request.username = .ok (some env.realUid)
  session : ∃ session user, env.session request.service request.username ⟨request.username, request.password, false⟩ =
    some session ∧ session.authenticates = true ∧ session.accountValid = true ∧ session.user = some user ∧
      env.userUid user = .ok (some env.realUid)

theorem authenticate_grants {env : PamEnvironment} {request : PamRequest} (accepts : env.authenticate request = .ok true) :
    env.Grants request := by
  unfold authenticate at accepts
  split at accepts
  · cases accepts
  next uid process =>
    obtain ⟨unprivileged, own⟩ : (env.realUid ≠ 0 ∧ env.realUid = env.effectiveUid) ∧ uid = env.realUid := by
      unfold processUid at process
      split at process
      next unprivileged =>
        cases process
        exact ⟨unprivileged, rfl⟩
      next => cases process
    subst own
    split at accepts
    · cases accepts
    next checked =>
      obtain ⟨service, credentials⟩ := not_or.mp checked
      split at accepts
      · cases accepts
      next account looked =>
        split at accepts
        · cases accepts
        next mine =>
          split at accepts
          · cases accepts
          next session opened =>
            split at accepts
            · cases accepts
            next passed =>
              obtain ⟨authenticates, accountValid⟩ := not_or.mp passed
              split at accepts
              · cases accepts
              next user final =>
                refine ⟨unprivileged, Bool.eq_true_of_not_eq_false service, Bool.eq_true_of_not_eq_false credentials,
                  Decidable.not_not.mp mine ▸ looked, session, user, opened, Bool.eq_true_of_not_eq_false authenticates,
                  Bool.eq_true_of_not_eq_false accountValid, final, ?_⟩
                cases found : env.userUid user with
                | error reason =>
                  rw [found] at accepts
                  cases accepts
                | ok account =>
                  rw [found] at accepts
                  rw [of_decide_eq_true (Except.ok.inj accepts)]

/-- The helper exits with 0 only when the request that it was sent is granted. -/
theorem helperStatus_accepts {env : PamEnvironment} {encode : PamRequest → List UInt8}
    (decodes : ∀ request, env.decode (encode request) = some request) {request : PamRequest}
    (accepts : env.helperStatus (encode request) = 0) : env.authenticate request = .ok true := by
  have read : ∀ other, env.readRequest (encode request) = .ok other → other = request := by
    intro other read
    unfold readRequest at read
    dsimp only at read
    split at read
    next fits =>
      have whole : (encode request).take (payloadLimit + 1) = encode request := by
        rw [List.length_take] at fits
        exact List.take_of_length_le (by omega)
      rw [whole, decodes] at read
      exact (Except.ok.inj read).symm
    next => cases read
  unfold helperStatus at accepts
  split at accepts
  · cases accepts
  next other same =>
    rw [read other same] at accepts
    split at accepts
    next accepted => exact accepted
    next => cases accepts
    next => cases accepts

end PamEnvironment

end HyprRdp
