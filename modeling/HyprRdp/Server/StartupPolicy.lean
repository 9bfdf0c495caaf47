import HyprRdp.Server.Configuration

namespace HyprRdp

section Resolution

theorem ensure_ok {condition : Bool} {message : String} {u : Unit} : ensure condition message = .ok u ↔ condition = true := by
  unfold ensure
  cases condition <;> simp

theorem except_bind_ok {α β : Type} {value : Except String α} {next : α → Except String β} {result : β} :
    (value >>= next) = .ok result ↔ ∃ a, value = .ok a ∧ next a = .ok result := by
  cases value with
  | error message => exact ⟨nofun, fun ⟨_, found, _⟩ => nomatch found⟩
  | ok a => exact ⟨fun run => ⟨a, rfl, run⟩, fun ⟨_, found, run⟩ => by cases found; exact run⟩

theorem context_ok {α : Type} {value : Option α} {message : String} {a : α} :
    context value message = .ok a ↔ value = some a := by
  unfold context
  cases value <;> simp

/-- A field of the resolution is in range. -/
def Extent (text : List Char) (extent : Nat) : Prop := ∃ n, Numerals.Numeral text n ∧ 2 ≤ n ∧ n ≤ 65535 ∧ extent = evened n

theorem parseResolution_fields {width height : List Char} {size : Nat × Nat} {text : List Char}
    (fields : text.splitOn 'x' = [width, height]) :
    parseResolution text = .ok size ↔ Extent width size.1 ∧ Extent height size.2 := by
  obtain ⟨w, h⟩ := size
  unfold parseResolution
  rw [fields]
  simp only [except_bind_ok, ensure_ok, exists_const, context_ok, Numerals.parse_eq_some]
  unfold Extent evened
  constructor
  · rintro ⟨m, ⟨first, _⟩, n, ⟨second, _⟩, _, small, even, run⟩
    cases run
    simp only [Bool.not_eq_true', Bool.or_eq_false_iff, decide_eq_false_iff_not] at small even
    exact ⟨⟨m, first, by omega, by omega, rfl⟩, ⟨n, second, by omega, by omega, rfl⟩⟩
  · rintro ⟨⟨m, first, low, high, rfl⟩, ⟨n, second, low', high', rfl⟩⟩
    refine ⟨m, ⟨first, by omega⟩, n, ⟨second, by omega⟩, ?_, ?_, ?_, rfl⟩
    all_goals
      simp only [Bool.not_eq_true', Bool.or_eq_false_iff, decide_eq_false_iff_not]
      omega

theorem Extent.free {text : List Char} {extent : Nat} (isExtent : Extent text extent) : 'x' ∉ text := by
  obtain ⟨_, ⟨digits, rfl | rfl, _, all, _⟩, _⟩ := isExtent
  · exact fun member => absurd (all 'x' member) (by decide)
  · intro member
    rcases List.mem_cons.mp member with sign | member
    · cases sign
    · exact absurd (all 'x' member) (by decide)

theorem Extent.range {text : List Char} {extent : Nat} (isExtent : Extent text extent) :
    extent % 2 = 0 ∧ 2 ≤ extent ∧ extent < 65536 := by
  obtain ⟨n, _, low, high, rfl⟩ := isExtent
  unfold evened
  omega

theorem splitOn_pair {width height : List Char} (noWidth : 'x' ∉ width) (noHeight : 'x' ∉ height) :
    (width ++ 'x' :: height).splitOn 'x' = [width, height] := by
  have joined : (['x'].intercalate [width, height]).splitOn 'x' = [width, height] :=
    List.splitOn_intercalate 'x' (by simp [noWidth, noHeight]) (by simp)
  rwa [List.intercalate_cons_cons, List.intercalate_singleton, List.append_assoc, List.singleton_append] at joined

theorem parseResolution_eq_ok {text : List Char} {size : Nat × Nat} :
    parseResolution text = .ok size ↔
      ∃ width height, text = width ++ 'x' :: height ∧ Extent width size.1 ∧ Extent height size.2 := by
  constructor
  · intro run
    have joined : ['x'].intercalate (text.splitOn 'x') = text := List.intercalate_splitOn 'x'
    cases fields : text.splitOn 'x' with
    | nil =>
      unfold parseResolution at run
      rw [fields] at run
      cases run
    | cons width rest =>
      match rest, fields with
      | [height], fields =>
        rw [fields, List.intercalate_cons_cons, List.intercalate_singleton, List.append_assoc, List.singleton_append] at joined
        exact ⟨width, height, joined.symm, (parseResolution_fields fields).mp run⟩
      | [], fields | _ :: _ :: _, fields =>
        unfold parseResolution at run
        rw [fields] at run
        cases run
  · rintro ⟨width, height, rfl, first, second⟩
    exact (parseResolution_fields (splitOn_pair first.free second.free)).mpr ⟨first, second⟩

/-- Exactly the pairs of numerals in range are resolutions, whatever signs and zeros stand before them. What is read is
even, and reading its plain text again gives it back. -/
theorem resolution_exact (text : List Char) (size : Nat × Nat) :
    (parseResolution text = .ok size ↔
      ∃ width height, text = width ++ 'x' :: height ∧ Extent width size.1 ∧ Extent height size.2) ∧
    (parseResolution text = .ok size → size.1 % 2 = 0 ∧ size.2 % 2 = 0 ∧
      parseResolution (Nat.toDigits 10 size.1 ++ 'x' :: Nat.toDigits 10 size.2) = .ok size) := by
  refine ⟨parseResolution_eq_ok, fun run => ?_⟩
  have again : ∀ {field : List Char} {extent : Nat}, Extent field extent →
      extent % 2 = 0 ∧ Extent (Nat.toDigits 10 extent) extent := by
    rintro field extent ⟨n, _, low, high, rfl⟩
    unfold Extent evened
    exact ⟨by omega, n / 2 * 2, Numerals.numeral_toDigits _, by omega, by omega, by omega⟩
  obtain ⟨_, _, _, first, second⟩ := parseResolution_eq_ok.mp run
  obtain ⟨evenWidth, width⟩ := again first
  obtain ⟨evenHeight, height⟩ := again second
  exact ⟨evenWidth, evenHeight, parseResolution_eq_ok.mpr ⟨_, _, rfl, width, height⟩⟩

theorem resolution_exact_odd : ∃ size, parseResolution "+1921x01081".toList = .ok size ∧ size.1 % 2 = 0 ∧ size.2 % 2 = 0 ∧
    parseResolution (Nat.toDigits 10 size.1 ++ 'x' :: Nat.toDigits 10 size.2) = .ok size := by
  have run : parseResolution "+1921x01081".toList = .ok (1920, 1080) := rfl
  exact ⟨_, run, (resolution_exact _ _).2 run⟩

end Resolution

section Policy

variable {Addr F : Type} {sys : ConfigSystem Addr F} {args config : Options F}

/-- Anybody may connect: the encryption is all that is asked for. -/
def PreparedAuthentication.Open (p : PreparedAuthentication) : Prop := p.security = .tls ∧ p.validator = none

/-- The password file that is read, if one is. -/
def passwordFileInEffect (args config : Options F) : Option String :=
  match args.passwordFile, args.password, config.password with
  | some path, _, _ => some path
  | none, none, none => config.passwordFile
  | none, _, _ => none

/-- The options give neither a user name nor a password, and PAM is not asked for. -/
structure NothingAsked (args config : Options F) : Prop where
  mode : (args.authMode.or config.authMode).getD "configured" = "configured"
  username : (args.username.or config.username).getD "" = ""
  password : (args.password.or config.password).getD "" = ""
  passwordFile : passwordFileInEffect args config = none

/-- What every configuration that is accepted satisfies. -/
structure RuntimeConfig.Sound (sys : ConfigSystem Addr F) (runtime : RuntimeConfig Addr F) : Prop where
  scale : sys.isFinite runtime.headlessScale = true ∧ sys.isPositive runtime.headlessScale = true
  width : runtime.resolution.1 % 2 = 0 ∧ 2 ≤ runtime.resolution.1 ∧ runtime.resolution.1 < 65536
  height : runtime.resolution.2 % 2 = 0 ∧ 2 ≤ runtime.resolution.2 ∧ runtime.resolution.2 < 65536
  quality : runtime.quality ≤ 51
  fps : runtime.fps ≠ 0
  maxFramesInFlight : runtime.maxFramesInFlight ≠ 0
  maxChunkBytes : runtime.fileTransferMaxChunkBytes ≠ 0
  maxEntries : runtime.fileTransferMaxEntries ≠ 0 ∧ runtime.fileTransferMaxEntries ≤ sys.maxFileCount
  transfer : runtime.fileTransferMode.permitsToServer true = true → sys.clientToServer = true

theorem fromUTF8_ne {content : List UInt8} {text : String} (written : (!content.isEmpty) = true)
    (decoded : String.fromUTF8? ⟨content.toArray⟩ = some text) : text ≠ "" := by
  rintro rfl
  unfold String.fromUTF8? at decoded
  split at decoded
  · have bytes : (⟨content.toArray⟩ : ByteArray) = ByteArray.empty := congrArg String.toByteArray (Option.some.inj decoded)
    have nothing : content = [] := congrArg (fun bytes : ByteArray => bytes.data.toList) bytes
    rw [nothing] at written
    cases written
  · cases decoded

theorem readPasswordFile_ne {path password : String} (read : readPasswordFile sys path = .ok password) : password ≠ "" := by
  unfold readPasswordFile at read
  simp only [except_bind_ok, ensure_ok, exists_const, context_ok] at read
  obtain ⟨content, _, written, decoded⟩ := read
  exact fromUTF8_ne written decoded

theorem resolvePassword_eq_empty {password : String}
    (resolved : resolvePassword sys args.password args.passwordFile config.password config.passwordFile = .ok password) :
    password = "" ↔ (args.password.or config.password).getD "" = "" ∧ passwordFileInEffect args config = none := by
  unfold resolvePassword at resolved
  simp only [except_bind_ok, ensure_ok, exists_const] at resolved
  obtain ⟨_, resolved⟩ := resolved
  unfold passwordFileInEffect
  cases isFile : args.passwordFile with
  | some path =>
    rw [isFile] at resolved
    exact ⟨fun empty => absurd empty (readPasswordFile_ne resolved), fun nothing => nomatch nothing.2⟩
  | none =>
    rw [isFile] at resolved
    cases given : args.password with
    | some value =>
      rw [given] at resolved
      cases resolved
      exact (and_iff_left rfl).symm
    | none =>
      rw [given] at resolved
      cases inFile : config.password with
      | some value =>
        rw [inFile] at resolved
        cases resolved
        exact (and_iff_left rfl).symm
      | none =>
        rw [inFile] at resolved
        cases isConfigFile : config.passwordFile with
        | some path =>
          rw [isConfigFile] at resolved
          exact ⟨fun empty => absurd empty (readPasswordFile_ne resolved), fun nothing => nomatch nothing.2⟩
        | none =>
          rw [isConfigFile] at resolved
          cases resolved
          exact ⟨fun _ => ⟨rfl, rfl⟩, fun _ => rfl⟩

theorem fromParts_eq_none {username password : String} {domain : Option String} :
    ConfigCredentials.fromParts username domain password = none ↔ username = "" ∧ password = "" := by
  unfold ConfigCredentials.fromParts
  split
  · rename_i empty
    simpa using empty
  · rename_i given
    simpa using given

theorem fromParts_given {username password : String} {domain : Option String} {credentials : ConfigCredentials}
    (made : ConfigCredentials.fromParts username domain password = some credentials) :
    ¬ (credentials.username = "" ∧ credentials.password = "") := by
  unfold ConfigCredentials.fromParts at made
  split at made
  · cases made
  · rename_i given
    cases made
    simpa using given

/-- Which of the two kinds of authentication the options come to. -/
theorem resolveAuthentication_cases {authentication : AuthConfig}
    (accepted : resolveAuthentication sys args config = .ok authentication) :
    ((args.authMode.or config.authMode).getD "configured" = "configured" ∧ ∃ password,
      resolvePassword sys args.password args.passwordFile config.password config.passwordFile = .ok password ∧
      authentication = .configured (ConfigCredentials.fromParts ((args.username.or config.username).getD "")
        (args.domain.or config.domain) password)) ∨
    ((args.authMode.or config.authMode).getD "configured" = "pam" ∧ ∃ service, authentication = .pam service ∧
      validPamService service = true) := by
  unfold resolveAuthentication at accepted
  dsimp only at accepted
  split at accepted
  · rename_i isConfigured
    simp only [except_bind_ok, ensure_ok, exists_const] at accepted
    obtain ⟨_, password, resolved, made⟩ := accepted
    cases made
    exact .inl ⟨isConfigured, password, resolved, rfl⟩
  · rename_i isPam
    simp only [except_bind_ok, ensure_ok, exists_const] at accepted
    obtain ⟨_, valid, made⟩ := accepted
    cases made
    exact .inr ⟨isPam, _, rfl, valid⟩
  · cases accepted

theorem PreparedAuthentication.open_iff {env : PamEnvironment} {authentication : AuthConfig} {p : PreparedAuthentication}
    (accepted : resolveAuthentication sys args config = .ok authentication)
    (prepared : new env authentication = .ok p) : p.Open ↔ NothingAsked args config := by
  rcases resolveAuthentication_cases accepted with ⟨mode, password, resolved, rfl⟩ | ⟨mode, service, rfl, _⟩
  · cases prepared
    have nobody := @fromParts_eq_none ((args.username.or config.username).getD "") password (args.domain.or config.domain)
    have noPassword := resolvePassword_eq_empty resolved
    have isOpen : securityModeForCredentials (ConfigCredentials.fromParts ((args.username.or config.username).getD "")
        (args.domain.or config.domain) password) = .tls ↔
        ConfigCredentials.fromParts ((args.username.or config.username).getD "") (args.domain.or config.domain) password = none := by
      unfold securityModeForCredentials
      cases ConfigCredentials.fromParts ((args.username.or config.username).getD "") (args.domain.or config.domain) password <;> simp
    constructor
    · intro isTls
      obtain ⟨username, password⟩ := nobody.mp (isOpen.mp isTls.1)
      obtain ⟨password, passwordFile⟩ := noPassword.mp password
      exact ⟨mode, username, password, passwordFile⟩
    · intro asked
      exact ⟨isOpen.mpr (nobody.mpr ⟨asked.username, noPassword.mpr ⟨asked.password, asked.passwordFile⟩⟩), rfl⟩
  · unfold new at prepared
    simp only [except_bind_ok, ensure_ok, exists_const] at prepared
    obtain ⟨_, _, _, made⟩ := prepared
    cases made
    refine ⟨fun isOpen => (nomatch isOpen.2), fun asked => ?_⟩
    exact absurd (mode.symm.trans asked.mode) (by decide)

/-- A candidate that may evict a session has shown credentials first. -/
theorem PreparedAuthentication.preempt_credentials {env : PamEnvironment} {authentication : AuthConfig}
    {p : PreparedAuthentication} (accepted : resolveAuthentication sys args config = .ok authentication)
    (prepared : new env authentication = .ok p) (preempt : p.security.connectionPolicy = .preempt) :
    ∃ credentials, p.credentials = some credentials ∧ ¬ (credentials.username = "" ∧ credentials.password = "") := by
  rcases resolveAuthentication_cases accepted with ⟨_, password, _, rfl⟩ | ⟨_, service, rfl, _⟩
  · cases prepared
    dsimp only at preempt ⊢
    cases made : ConfigCredentials.fromParts ((args.username.or config.username).getD "") (args.domain.or config.domain) password with
    | none =>
      rw [made] at preempt
      cases preempt
    | some credentials => exact ⟨credentials, rfl, fromParts_given made⟩
  · unfold new at prepared
    simp only [except_bind_ok, ensure_ok, exists_const] at prepared
    obtain ⟨_, _, _, made⟩ := prepared
    cases made
    cases preempt

theorem PreparedAuthentication.open_nobody {env : PamEnvironment} {authentication : AuthConfig} {p : PreparedAuthentication}
    (prepared : new env authentication = .ok p) (isOpen : p.Open) : authentication = .configured none := by
  cases authentication with
  | configured credentials =>
    cases prepared
    cases credentials with
    | none => rfl
    | some credentials => cases isOpen.1
  | pam service =>
    unfold new at prepared
    simp only [except_bind_ok, ensure_ok, exists_const] at prepared
    obtain ⟨_, _, _, made⟩ := prepared
    cases made
    cases isOpen.2

theorem forBuild_toServer {build : Bool} {mode : FileTransferMode}
    (permits : (mode.forBuild build).permitsToServer true = true) : build = true := by
  cases build with
  | true => rfl
  | false => cases mode <;> cases permits

/-- The checks that the options have passed. -/
theorem resolve_accepted {runtime : RuntimeConfig Addr F} {warnings : List StartupWarning}
    (accepted : RuntimeConfig.resolve sys args config = .ok (runtime, warnings)) :
    resolveAuthentication sys args config = .ok runtime.authentication ∧ runtime.Sound sys ∧
      ∀ credentials, runtime.authentication = .configured credentials → warnings = startupWarnings sys credentials runtime.bind := by
  unfold RuntimeConfig.resolve resolveHeadlessScale validateFileTransferMaxEntries at accepted
  simp only [except_bind_ok, ensure_ok, exists_const, bind_assoc] at accepted
  obtain ⟨authentication, authenticated, bind, _, requested, _, scale, headlessScale, isScale, _, _, _, _, _, _, _, _, _, _,
    resolution, parsed, _, _, quality, fps, frames, chunk, entries, most, made⟩ := accepted
  cases isScale
  cases made
  obtain ⟨_, _, _, width, height⟩ := parseResolution_eq_ok.mp parsed
  refine ⟨authenticated, ⟨?_, width.range, height.range, of_decide_eq_true quality, of_decide_eq_true fps, of_decide_eq_true frames,
    of_decide_eq_true chunk, ⟨of_decide_eq_true entries, of_decide_eq_true most⟩, forBuild_toServer⟩, fun credentials same => ?_⟩
  · exact Bool.and_eq_true_iff.mp scale
  · dsimp only at same ⊢
    rw [same]

theorem startupWarnings_open (bind : Addr) : .authenticationOff ∈ startupWarnings sys none bind ∧
    (sys.isLoopback bind = false → .reachableBeyondLoopback ∈ startupWarnings sys none bind) := by
  unfold startupWarnings
  refine ⟨List.mem_cons_self, fun reachable => ?_⟩
  rw [reachable]
  exact List.mem_cons_of_mem _ List.mem_cons_self

theorem loadConfigFile_named {file : String} (loaded : loadConfigFile sys (some file) = .ok config) :
    ∃ content, sys.readToString file = .ok content ∧ sys.parseToml content = .ok config := by
  unfold loadConfigFile at loaded
  dsimp only [Option.some_or] at loaded
  split at loaded
  · rename_i content read
    refine ⟨content, read, ?_⟩
    cases parsed : sys.parseToml content with
    | error error =>
      rw [parsed] at loaded
      cases loaded
    | ok options =>
      rw [parsed] at loaded
      exact loaded
  all_goals cases loaded

/-- Anybody is let in only where neither the command line nor a config file that was read asks for more, and the start
warns of it; a file that was named is never passed over. Only credentials let a newcomer evict a session. -/
theorem startup_authenticates {env : PamEnvironment} {path : Option String} {runtime : RuntimeConfig Addr F}
    {warnings : List StartupWarning} {p : PreparedAuthentication}
    (loaded : RuntimeConfig.load sys args path = .ok (runtime, warnings))
    (prepared : PreparedAuthentication.new env runtime.authentication = .ok p) :
    runtime.Sound sys ∧
    (∃ config, loadConfigFile sys path = .ok config ∧ (p.Open ↔ NothingAsked args config) ∧
      ∀ file, path = some file → ∃ content, sys.readToString file = .ok content ∧ sys.parseToml content = .ok config) ∧
    (p.Open → .authenticationOff ∈ warnings ∧
      (sys.isLoopback runtime.bind = false → .reachableBeyondLoopback ∈ warnings)) ∧
    (p.security.connectionPolicy = .preempt →
      ∃ credentials, p.credentials = some credentials ∧ ¬ (credentials.username = "" ∧ credentials.password = "")) := by
  unfold RuntimeConfig.load at loaded
  obtain ⟨config, read, accepted⟩ := except_bind_ok.mp loaded
  obtain ⟨authenticated, sound, warned⟩ := resolve_accepted accepted
  refine ⟨sound, ⟨config, read, p.open_iff authenticated prepared, ?_⟩, fun isOpen => ?_,
    p.preempt_credentials authenticated prepared⟩
  · rintro file rfl
    exact loadConfigFile_named read
  · have nobody := PreparedAuthentication.open_nobody prepared isOpen
    rw [warned none nobody]
    exact startupWarnings_open runtime.bind

/-- A system without files, whose scales are numbers and whose addresses say whether they are local. -/
def bareSystem : ConfigSystem Bool Nat where
  clientToServer := true
  maxFileCount := 100000
  home := none
  readToString _ := .error (.notFound "no file")
  parseToml _ := .error "no file"
  readFile _ := .error "no file"
  socketAddr _ := .ok false
  isLoopback := id
  oneScale := 1
  isFinite _ := true
  isPositive scale := decide (0 < scale)
  showScale := toString
  debug := id

def bareEnvironment : PamEnvironment where
  realUid := 1000
  effectiveUid := 1000
  isFile _ _ := false
  getpwnam _ _ := .found 1000
  session _ _ _ := none
  decode _ := none

theorem startup_authenticates_open : ∃ runtime warnings p, RuntimeConfig.load bareSystem .default none = .ok (runtime, warnings) ∧
    PreparedAuthentication.new bareEnvironment runtime.authentication = .ok p ∧ p.Open ∧ .reachableBeyondLoopback ∈ warnings := by
  obtain ⟨runtime, warnings, p, loaded, prepared, isOpen, reachable⟩ : ∃ runtime warnings p,
      RuntimeConfig.load bareSystem .default none = .ok (runtime, warnings) ∧
        PreparedAuthentication.new bareEnvironment runtime.authentication = .ok p ∧ p.Open ∧
          bareSystem.isLoopback runtime.bind = false := ⟨_, _, _, rfl, rfl, ⟨rfl, rfl⟩, rfl⟩
  exact ⟨runtime, warnings, p, loaded, prepared, isOpen, ((startup_authenticates loaded prepared).2.2.1 isOpen).2 reachable⟩

end Policy

end HyprRdp
