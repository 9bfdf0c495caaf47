import HyprRdp.Capture.Frame
import HyprRdp.Display.Sizing
import HyprRdp.Lib.Numerals
import HyprRdp.Server.PamAuthentication

namespace HyprRdp

/-- Which directions of file transfer a session may serve. -/
inductive FileTransferMode
  | off | toClient | toServer | both
  deriving DecidableEq

namespace FileTransferMode

/-- A build may lack the direction to the server. -/
def permitsToServer (clientToServer : Bool) : FileTransferMode → Bool
  | .toServer | .both => clientToServer
  | _ => false

def forBuild (clientToServer : Bool) (mode : FileTransferMode) : FileTransferMode :=
  if clientToServer then mode
  else
    match mode with
    | .toServer => .off
    | .both => .toClient
    | mode => mode

end FileTransferMode

inductive CaptureMode
  | ext | wlr
  deriving DecidableEq

inductive EgfxCodecPolicy
  | auto | avc420 | avc444 | clearCodec
  deriving DecidableEq

inductive KeyboardLayoutPolicy
  | client | compositor
  deriving DecidableEq

inductive AudioMode
  | mirror | redirect | off
  deriving DecidableEq

/-- The options that the command line and the config file have alike. -/
structure Options (F : Type) where
  authMode : Option String
  pamService : Option String
  bind : Option String
  cert : Option String
  key : Option String
  username : Option String
  domain : Option String
  password : Option String
  passwordFile : Option String
  resolution : Option String
  scale : Option F
  captureMode : Option String
  bitrate : Option Nat
  quality : Option Nat
  rateControl : Option String
  fps : Option Nat
  maxFramesInFlight : Option Nat
  egfxCodec : Option String
  keyboardLayoutPolicy : Option String
  audioMode : Option String
  h264Backend : Option String
  output : Option String
  onSessionStart : Option String
  onSessionEnd : Option String
  fileTransferMode : Option String
  fileTransferMaxChunkBytes : Option Nat
  fileTransferMaxEntries : Option Nat

def Options.default {F : Type} : Options F :=
  ⟨none, none, none, none, none, none, none, none, none, none, none, none, none, none, none, none, none, none, none, none,
    none, none, none, none, none, none, none⟩

inductive FileError
  | notFound (message : String)
  | other (message : String)

/-- The build, the files and the libraries that the configuration is read with: the machine's
fractions, socket addresses, TOML, and the text of a value in quotes. -/
structure ConfigSystem (Addr F : Type) where
  clientToServer : Bool
  maxFileCount : Nat
  home : Option String
  readToString : String → Except FileError String
  parseToml : String → Except String (Options F)
  readFile : String → Except String (List UInt8)
  socketAddr : String → Except String Addr
  isLoopback : Addr → Bool
  oneScale : F
  isFinite : F → Bool
  isPositive : F → Bool
  showScale : F → String
  debug : String → String

structure ConfigCredentials where
  username : String
  domain : Option String
  password : String
  deriving DecidableEq

inductive AuthConfig
  | configured (credentials : Option ConfigCredentials)
  | pam (service : String)

inductive StartupWarning
  | authenticationOff | reachableBeyondLoopback | halfCredentials
  deriving DecidableEq

structure RuntimeConfig (Addr F : Type) where
  bind : Addr
  cert : Option String
  key : Option String
  authentication : AuthConfig
  resolution : Nat × Nat
  headlessScale : F
  captureMode : CaptureMode
  bitrate : Nat
  quality : Nat
  rateControl : H264RateControl
  fps : Nat
  maxFramesInFlight : Nat
  egfxCodec : EgfxCodecPolicy
  keyboardLayoutPolicy : KeyboardLayoutPolicy
  audioMode : AudioMode
  h264Backend : H264BackendPolicy
  resolutionFixed : Bool
  output : Option String
  onSessionStart : Option String
  onSessionEnd : Option String
  fileTransferMode : FileTransferMode
  fileTransferMaxChunkBytes : Nat
  fileTransferMaxEntries : Nat

/-- `anyhow::ensure!`. -/
def ensure (condition : Bool) (message : String) : Except String Unit := if condition then .ok () else .error message

def parseFileTransferMode : String → Except String FileTransferMode
  | "off" => .ok .off
  | "to-client" => .ok .toClient
  | "to-server" => .ok .toServer
  | "both" => .ok .both
  | other =>
    .error ("unknown file transfer mode '" ++ other ++ "', expected 'off', 'to-client', 'to-server', or 'both'")

def parseH264BackendPolicy : String → Except String H264BackendPolicy
  | "auto" => .ok .auto
  | "software" => .ok .software
  | "vaapi" => .ok .vaapi
  | other => .error ("unknown H.264 backend '" ++ other ++ "', expected 'auto', 'software', or 'vaapi'")

def parseRateControl : String → Except String H264RateControl
  | "vbr" => .ok .vbr
  | "cqp" => .ok .cqp
  | other => .error ("unknown rate control '" ++ other ++ "', expected 'vbr' or 'cqp'")

def parseCaptureMode : String → Except String CaptureMode
  | "ext" => .ok .ext
  | "wlr" => .ok .wlr
  | other => .error ("unknown capture mode '" ++ other ++ "', expected 'ext' or 'wlr'")

def parseEgfxCodecPolicy : String → Except String EgfxCodecPolicy
  | "auto" => .ok .auto
  | "avc420" => .ok .avc420
  | "avc444" => .ok .avc444
  | "clearcodec" => .ok .clearCodec
  | other =>
    .error ("unknown EGFX codec '" ++ other ++ "', expected 'auto', 'avc420', 'avc444', or 'clearcodec'")

def parseKeyboardLayoutPolicy : String → Except String KeyboardLayoutPolicy
  | "client" => .ok .client
  | "compositor" => .ok .compositor
  | other => .error ("unknown keyboard layout policy '" ++ other ++ "', expected 'client' or 'compositor'")

def parseAudioMode : String → Except String AudioMode
  | "mirror" => .ok .mirror
  | "redirect" => .ok .redirect
  | "off" => .ok .off
  | other => .error ("unknown audio mode '" ++ other ++ "', expected 'mirror', 'redirect', or 'off'")

/-- Both extents fit a `u16`, and H.264 takes even ones only. -/
def parseResolution (text : List Char) : Except String (Nat × Nat) :=
  match text.splitOn 'x' with
  | [width, height] => do
    let w ← context (Numerals.parse 4294967296 width) "invalid width"
    let h ← context (Numerals.parse 4294967296 height) "invalid height"
    ensure (!(w = 0 || h = 0)) "resolution dimensions must be non-zero"
    ensure (!(65535 < w || 65535 < h)) "resolution dimensions must be <= 65535"
    let w := evened w
    let h := evened h
    ensure (!(w = 0 || h = 0)) "resolution too small (minimum 2x2 for H.264)"
    .ok (w, h)
  | _ => .error "invalid resolution format, expected WxH (e.g. 1920x1080)"

namespace ConfigCredentials

def fromParts (username : String) (domain : Option String) (password : String) : Option ConfigCredentials :=
  if username.isEmpty && password.isEmpty then none
  else some ⟨username, domain.filter fun domain => !domain.isEmpty, password⟩

end ConfigCredentials

section

variable {Addr F : Type} (sys : ConfigSystem Addr F)

/-- One line ending at the end of the file is no part of the password. -/
def readPasswordFile (path : String) : Except String String := do
  let content ← (sys.readFile path).mapError fun error =>
    "failed to read password file " ++ sys.debug path ++ ": " ++ error
  let content :=
    if content.getLast? = some 10 then
      if content.dropLast.getLast? = some 13 then content.dropLast.dropLast else content.dropLast
    else content
  ensure (!content.isEmpty) ("password file " ++ sys.debug path ++ " is empty")
  context (String.fromUTF8? ⟨content.toArray⟩) ("password file " ++ sys.debug path ++ " is not valid UTF-8")

def resolvePassword (argsPassword argsPasswordFile configPassword configPasswordFile : Option String) : Except String String := do
  ensure (!(configPassword.isSome && configPasswordFile.isSome))
    "`password` and `password_file` cannot both be set in the config file"
  match argsPasswordFile, argsPassword with
  | some path, _ => readPasswordFile sys path
  | none, some password => .ok password
  | none, none =>
    match configPassword, configPasswordFile with
    | some password, _ => .ok password
    | none, some path => readPasswordFile sys path
    | none, none => .ok ""

def resolveAuthentication (args config : Options F) : Except String AuthConfig :=
  let service := args.pamService.or config.pamService
  match (args.authMode.or config.authMode).getD "configured" with
  | "configured" => do
    ensure service.isNone "pam-service requires auth-mode pam"
    let username := (args.username.or config.username).getD ""
    let domain := args.domain.or config.domain
    let password ← resolvePassword sys args.password args.passwordFile config.password config.passwordFile
    .ok (.configured (ConfigCredentials.fromParts username domain password))
  | "pam" => do
    ensure (args.username.isNone && config.username.isNone && args.domain.isNone && config.domain.isNone &&
        args.password.isNone && config.password.isNone && args.passwordFile.isNone && config.passwordFile.isNone)
      "auth-mode pam cannot be combined with username, domain, password or password-file"
    let service := service.getD "hypr-rdp"
    ensure (validPamService service) "invalid PAM service name"
    .ok (.pam service)
  | _ => .error "unknown auth-mode; expected configured or pam"

def startupWarnings (credentials : Option ConfigCredentials) (bind : Addr) : List StartupWarning :=
  (match credentials with
    | none => [StartupWarning.authenticationOff]
    | some value => if value.username.isEmpty || value.password.isEmpty then [.halfCredentials] else []) ++
  if credentials.all (fun value => value.password.isEmpty) && !sys.isLoopback bind then [StartupWarning.reachableBeyondLoopback] else []

def resolveHeadlessScale (cli config : Option F) : Except String F := do
  let scale := (cli.or config).getD sys.oneScale
  ensure (sys.isFinite scale && sys.isPositive scale)
    ("invalid scale " ++ sys.showScale scale ++ ", expected a positive number (e.g. 1, 1.5, 2)")
  .ok scale

def validateFileTransferMaxEntries (value : Nat) : Except String Unit := do
  ensure (value ≠ 0) "file-transfer-max-entries must be > 0"
  ensure (value ≤ sys.maxFileCount)
    ("file-transfer-max-entries must be at most " ++ toString sys.maxFileCount ++ ", the clipboard protocol limit")

def defaultFileTransferModeName : String := if sys.clientToServer then "both" else "to-client"

/-- The configuration, with the warnings that are logged on the way. -/
def RuntimeConfig.resolve (args config : Options F) : Except String (RuntimeConfig Addr F × List StartupWarning) := do
  let authentication ← resolveAuthentication sys args config
  let bind ← (sys.socketAddr ((args.bind.or config.bind).getD "127.0.0.1:3389")).mapError fun error =>
    "invalid bind address: " ++ error
  let requestedFileTransferMode ←
    parseFileTransferMode ((args.fileTransferMode.or config.fileTransferMode).getD (defaultFileTransferModeName sys))
  let warnings :=
    match authentication with
    | .configured credentials => startupWarnings sys credentials bind
    | .pam _ => []
  let headlessScale ← resolveHeadlessScale sys args.scale config.scale
  let rateControl ← parseRateControl ((args.rateControl.or config.rateControl).getD "vbr")
  let egfxCodec ← parseEgfxCodecPolicy ((args.egfxCodec.or config.egfxCodec).getD "avc420")
  let keyboardLayoutPolicy ←
    parseKeyboardLayoutPolicy ((args.keyboardLayoutPolicy.or config.keyboardLayoutPolicy).getD "client")
  let audioMode ← parseAudioMode ((args.audioMode.or config.audioMode).getD "redirect")
  let h264Backend ← ((args.h264Backend.or config.h264Backend).map parseH264BackendPolicy).getD (.ok .auto)
  let resolution ← parseResolution ((args.resolution.or config.resolution).getD "1920x1080").toList
  let captureMode ← parseCaptureMode ((args.captureMode.or config.captureMode).getD "wlr")
  let quality := (args.quality.or config.quality).getD 23
  let fps := (args.fps.or config.fps).getD 30
  let maxFramesInFlight := (args.maxFramesInFlight.or config.maxFramesInFlight).getD 3
  let fileTransferMaxChunkBytes := (args.fileTransferMaxChunkBytes.or config.fileTransferMaxChunkBytes).getD (8 * 1024 * 1024)
  let fileTransferMaxEntries := (args.fileTransferMaxEntries.or config.fileTransferMaxEntries).getD 10000
  ensure (quality ≤ 51) "quality must be 0-51"
  ensure (fps ≠ 0) "fps must be > 0"
  ensure (maxFramesInFlight ≠ 0) "max-frames-in-flight must be > 0"
  ensure (fileTransferMaxChunkBytes ≠ 0) "file-transfer-max-chunk-bytes must be > 0"
  validateFileTransferMaxEntries sys fileTransferMaxEntries
  .ok ({
    bind
    cert := args.cert.or config.cert
    key := args.key.or config.key
    authentication
    resolution
    headlessScale
    captureMode
    bitrate := (args.bitrate.or config.bitrate).getD 10000000
    quality
    rateControl
    fps
    maxFramesInFlight
    egfxCodec
    keyboardLayoutPolicy
    audioMode
    h264Backend
    resolutionFixed := args.resolution.isSome || config.resolution.isSome
    output := args.output.or config.output
    onSessionStart := args.onSessionStart.or config.onSessionStart
    onSessionEnd := args.onSessionEnd.or config.onSessionEnd
    fileTransferMode := requestedFileTransferMode.forBuild sys.clientToServer
    fileTransferMaxChunkBytes
    fileTransferMaxEntries }, warnings)

/-- `PathBuf::join` with a relative path. -/
def joinPath (path relative : String) : String :=
  if path.isEmpty || path.endsWith "/" then path ++ relative else path ++ "/" ++ relative

/-- Only the file at its own place may be missing. -/
def loadConfigFile (path : Option String) : Except String (Options F) :=
  match path.or (sys.home.map fun home => joinPath (joinPath (joinPath home ".config") "hypr-rdp") "config.toml") with
  | none => .ok .default
  | some configPath =>
    match sys.readToString configPath with
    | .ok content =>
      (sys.parseToml content).mapError fun error => "failed to parse config " ++ configPath ++ ": " ++ error
    | .error (.notFound error) =>
      if path.isNone then .ok .default else .error ("failed to read config " ++ configPath ++ ": " ++ error)
    | .error (.other error) => .error ("failed to read config " ++ configPath ++ ": " ++ error)

def RuntimeConfig.load (args : Options F) (configPath : Option String) :
    Except String (RuntimeConfig Addr F × List StartupWarning) := do
  let config ← loadConfigFile sys configPath
  resolve sys args config

end

inductive ServerSecurityMode
  | tls | hybrid
  deriving DecidableEq

inductive ConnectionPolicy
  | preempt | queue
  deriving DecidableEq

/-- Hybrid candidates are authenticated before they may evict a session. -/
def ServerSecurityMode.connectionPolicy : ServerSecurityMode → ConnectionPolicy
  | .hybrid => .preempt
  | .tls => .queue

def securityModeForCredentials (credentials : Option ConfigCredentials) : ServerSecurityMode :=
  if credentials.isSome then .hybrid else .tls

/-- What the server is built with; the validator asks PAM for its service. -/
structure PreparedAuthentication where
  security : ServerSecurityMode
  credentials : Option ConfigCredentials
  validator : Option String

def PreparedAuthentication.new (env : PamEnvironment) : AuthConfig → Except String PreparedAuthentication
  | .configured credentials => .ok ⟨securityModeForCredentials credentials, credentials, none⟩
  | .pam service => do
    let _ ← env.processUid
    ensure (env.serviceExists service) ("PAM service file not found; install /etc/pam.d/" ++ service)
    .ok ⟨.tls, none, some service⟩

end HyprRdp
