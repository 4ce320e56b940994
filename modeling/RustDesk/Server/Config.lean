import RustDesk.Server.LoginFailure
import RustDesk.Server.Scope

/-!
# What a connection asks of the machine

A connection reads the configuration, the clock, the tables it shares with other
connections, and what the operating system answers.  `Platform` is what stays the
same while the program runs; `Env` is one moment, and nothing is assumed to be the
same at the next.
-/

namespace RustDesk

def asBytes (s : String) : Bytes := s.toUTF8.data.toList

def digitsValue : List Char → Option Nat
  | [] => none
  | cs => cs.foldlM (fun n c => if c.isDigit then some (10 * n + (c.toNat - '0'.toNat))
      else none) 0

/-- `str::parse::<i64>`. -/
def parseI64 (cs : List Char) : Option Int :=
  match cs with
  | '-' :: ds => (digitsValue ds).bind fun n => if n ≤ 2 ^ 63 then some (-n) else none
  | '+' :: ds => (digitsValue ds).bind fun n => if n < 2 ^ 63 then some n else none
  | ds => (digitsValue ds).bind fun n => if n < 2 ^ 63 then some n else none

/-- `str::parse::<u64>`. -/
def parseU64 (cs : List Char) : Option Nat :=
  match cs with
  | '+' :: ds => (digitsValue ds).bind fun n => if n < 2 ^ 64 then some n else none
  | ds => (digitsValue ds).bind fun n => if n < 2 ^ 64 then some n else none

/-- An `i64` after an operation that may wrap around. -/
def wrapI64 (n : Int) : Int := Int.bmod n (2 ^ 64)

/-- `get_version_number`: `1.1.10` is 1001100 and `1.2.3` is 1002030. -/
def getVersionNumber (v : String) : Int :=
  match v.toList.splitOn '-' with
  | [] => 0
  | first :: rest =>
    let xs := (first.splitOn '.').map fun x => (parseI64 x).getD 0
    let n := xs.foldl (fun n x => wrapI64 (wrapI64 (n * 1000) + x)) 0
    let last := xs.getLastD 0
    let n := wrapI64 (wrapI64 (n - last) + wrapI64 (last * 10))
    match rest with
    | [] => n
    | patch :: _ => wrapI64 (n + (parseI64 patch).getD 0)

example : getVersionNumber "1.1.10" = 1001100 := by decide

def str2color (s : String) (alpha : UInt8) : UInt32 :=
  let hash : UInt32 := (asBytes s).foldl (fun hash byte => byte.toUInt32 + ((hash <<< 5) - hash)) 0
  let rgb := (hash % 16777216) &&& 0xFF7FFF
  (alpha.toUInt32 <<< 24) ||| rgb

/-- What stays the same while the program runs: how it was built, and functions of
its text libraries and of cryptography. -/
structure Platform where
  build : Build
  sha256 : Bytes → Bytes
  ipv6FromStr : String → Option (BitVec 128)
  isDirectIpAccess : String → Bool
  decodePermanentPasswordH1FromStorage : String → Option Bytes
  localPermanentPasswordStorageIsUsableForAuth : String → String → Bool
  decodePresetPasswordH1FromStorage : String → Option Bytes
  presetPermanentPasswordStorageIsUsableForAuth : String → String → Bool
  /-- `keycode_to_rdev_key`, for codes of modifier keys only. -/
  modifierKey : Nat → Option Nat
  mapKeyToControlKey : Nat → Option Int
  msg2clip : Bytes → Option Bytes

structure SessionKey where
  peerId : String
  name : String
  sessionId : Nat
  deriving DecidableEq

structure Session where
  lastRecvTime : Int
  randomPassword : String
  tfa : Bool

structure TrustedDevice where
  hwid : Bytes
  time : Int
  id : String
  name : String
  platform : String
  deriving DecidableEq

def TrustedDevice.outdate (d : TrustedDevice) (now : Int) : Bool :=
  d.time + 90 * 24 * 60 * 60 * 1000 < now

/-- One entry of `AUTHED_CONNS`. -/
structure AuthedConn where
  connId : Int
  connType : AuthConnType
  sessionKey : SessionKey
  printer : Bool

structure Shared where
  sessions : SessionKey → Option Session
  authedConns : List AuthedConn
  /-- `LOGIN_FAILURES` and the failures of system logins. -/
  failures : LoginFailures
  /-- `SWITCH_SIDES_UUID`: the identifier and when it was registered. -/
  switchSides : String → Option (Int × Bytes)
  /-- `PENDING_SWITCH_SIDES_UUID`. -/
  pendingSwitchSides : String → Option (Int × Bytes)
  temporaryPassword : String
  temporaryPasswordFailures : String × Int
  trustedDevices : List TrustedDevice

/-- A secret of the authenticator application. -/
abbrev Totp := Bytes

/-- The answer of `get_logon_user_token` and `is_user_token_admin` together. -/
inductive AdminCheck where
  | admin
  | notAdmin
  | failed

/-- The result of turning privacy mode on or off; `none` where there is no
implementation for it. -/
abbrev PrivacyResult (α : Type) := Option (Except String α)

structure Env (p : Platform) where
  /-- `get_time`, in milliseconds. -/
  now : Int
  shared : Shared
  /-- `Config::get_option`. -/
  option : String → String
  /-- `get_builtin_option`. -/
  builtinOption : String → String
  /-- `Config::get_id`. -/
  id : String
  localPassword : String × String
  /-- The permanent password built into a custom client and its salt. -/
  presetPassword : String × String
  hasPermanentPassword : Bool
  /-- What `update_temporary_password` draws. -/
  nextTemporaryPassword : String
  checkCurrent : Totp → String → Option Bool
  /-- Whether a Telegram bot is set up to receive codes. -/
  telegramBot : Bool
  auditServer : String → String
  isServer : Bool
  isPrelogin : Bool
  isLocked : Bool
  isLogonUi : Bool
  isInstalled : Bool
  isRoot : Bool
  isShareRdp : Bool
  currentSid : Option Nat
  /-- `get_available_sessions`. -/
  sessionIds : List Nat
  activeUsername : String
  /-- Host name, platform, displays and the like, for the peer. -/
  peerInfo : Bytes
  isDir : String → Bool
  /-- `linux_desktop_manager::get_username`. -/
  desktopUsername : String
  tryStartDesktop : String → String → String
  loginScreenWayland : Bool
  displayServer : String
  /-- `update_get_sync_displays_on_login`. -/
  syncDisplays : Except String Bytes
  inputInitMsg : Option Bytes
  /-- `TcpStream::connect` within its time limit. -/
  tcpConnect : String → Bool
  adminCheck : String → String → AdminCheck
  /-- The token of the logged-on user, or why there is none. -/
  currentUserToken : Except String Nat
  /-- `try_acquire_os_credential_login_gate`. -/
  osLoginGate : Bool
  /-- `is_service_specified_user`. -/
  serviceSpecifiedUser : String → Option Bool
  generatedServiceId : String
  /-- `is_in_privacy_mode`. -/
  inPrivacyMode : Bool
  /-- `get_privacy_mode_conn_id`. -/
  privacyModeConnId : Option Int
  privacyModeSupported : Bool
  currentImplKey : Option String
  isCurrentImpl : String → Bool
  turnOnPrivacy : String → PrivacyResult Bool
  turnOffPrivacy : PrivacyResult Unit
  checkPrivacyModeErr : String
  serverAlive : Bool
  primaryDisplayIdx : Nat
  subbedDisplaysCount : Nat
  /-- `make_display_changed_msg`. -/
  displayChanged : Int → Option Bytes
  displayNames : Except String (List String)
  /-- The virtual display driver took the new resolution itself. -/
  virtualDisplayTakes : String → Bool
  /-- `amyuni_idd::is_my_display`. -/
  isAmyuniDisplay : String → Bool
  virtualDisplaySupported : Bool
  plugInMonitor : Except String Unit
  plugOutMonitor : Except String Unit
  portableRunning : Bool
  startPortableService : Except String Unit
  whiteboardSupported : Bool
  win10OrGreater : Bool
  /-- `Retina::on_mouse_event`. -/
  retinaMouse : MouseEvent → MouseEvent
  readIo : ReadIo
  /-- `get_recursive_files`. -/
  recursiveFiles : String → Bool → Except String (List FileEntry)
  maxValidatedFiles : Nat
  /-- `TerminalServiceProxy::handle_action`. -/
  terminalAction : Bytes → Except String (Option Bytes)
  /-- `serve_clip_messages`, the files among the answers and the other ones. -/
  serveClipMessages : Bytes → List Cliprdr
  pluginResponse : String → Bytes → Bytes

variable {p : Platform}

def option2bool (option value : String) : Bool :=
  if "enable-".toList.isPrefixOf option.toList then value ≠ "N"
  else if "allow-".toList.isPrefixOf option.toList || option = "stop-service"
      || option = "direct-server" || option = "force-always-relay" then value = "Y"
  else value ≠ "N"

namespace Env

def getBoolOption (env : Env p) (key : String) : Bool := option2bool key (env.option key)

def isPermissionEnabledLocally (env : Env p) (option : String) : Bool :=
  let desktop := p.build.flutter && !p.build.mobile
  if desktop && env.option "access-mode" = "full" then true
  else if desktop && env.option "access-mode" = "view" then false
  else env.getBoolOption option

end Env

/-- The number of a permission in `ControlPermissions`. -/
def controlPermission : String → Option Nat
  | "enable-keyboard" => some 0
  | "enable-remote-printer" => some 1
  | "enable-clipboard" => some 2
  | "enable-file-transfer" => some 3
  | "enable-audio" => some 4
  | "enable-camera" => some 5
  | "enable-terminal" => some 6
  | "enable-tunnel" => some 7
  | "enable-remote-restart" => some 8
  | "enable-record-session" => some 9
  | "enable-block-input" => some 10
  | "enable-privacy-mode" => some 12
  | _ => none

def getControlPermission (permissions : UInt64) (index : Nat) : Option Bool :=
  if index < 32 then
    match (permissions.toNat >>> (index * 2)) % 4 with
    | 1 => some false
    | 2 => some true
    | _ => none
  else none

namespace Env

def permission (env : Env p) (option : String) (control : Option UInt64) : Bool :=
  match control, controlPermission option with
  | some permissions, some index =>
    match getControlPermission permissions index with
    | some enabled => enabled
    | none => env.isPermissionEnabledLocally option
  | _, _ => env.isPermissionEnabledLocally option

def enableTrustedDevices (env : Env p) : Bool := env.getBoolOption "enable-trusted-devices"

end Env

inductive VerificationMethod where
  | onlyUseTemporaryPassword
  | onlyUsePermanentPassword
  | useBothPasswords
  deriving DecidableEq

inductive ApproveMode where
  | both
  | password
  | click
  deriving DecidableEq

namespace Env

def verificationMethod (env : Env p) : VerificationMethod :=
  if env.option "verification-method" = "use-temporary-password" then .onlyUseTemporaryPassword
  else if env.option "verification-method" = "use-permanent-password" then
    .onlyUsePermanentPassword
  else .useBothPasswords

def temporaryEnabled (env : Env p) : Bool :=
  env.verificationMethod ≠ .onlyUsePermanentPassword

def permanentEnabled (env : Env p) : Bool :=
  env.verificationMethod ≠ .onlyUseTemporaryPassword

def approveMode (env : Env p) : ApproveMode :=
  if env.option "approve-mode" = "password" then .password
  else if env.option "approve-mode" = "click" then .click
  else .both

/-- `is_logon`, as each platform computes it. -/
def isLogon (env : Env p) : Bool :=
  match p.build.os with
  | .windows => env.isPrelogin || env.isLocked || env.isLogonUi
  | .linux | .macos => env.isPrelogin || env.isLocked
  | .android | .ios => env.isPrelogin

def needFsCmSendFiles (env : Env p) : Bool := p.build.os = .windows && env.isServer

end Env

def Platform.idle (build : Build) : Platform where
  build := build
  sha256 := id
  ipv6FromStr := fun _ => none
  isDirectIpAccess := fun _ => false
  decodePermanentPasswordH1FromStorage := fun _ => none
  localPermanentPasswordStorageIsUsableForAuth := fun _ _ => false
  decodePresetPasswordH1FromStorage := fun _ => none
  presetPermanentPasswordStorageIsUsableForAuth := fun _ _ => false
  modifierKey := fun _ => none
  mapKeyToControlKey := fun _ => none
  msg2clip := fun _ => none

def Shared.idle : Shared where
  sessions := fun _ => none
  authedConns := []
  failures := .empty
  switchSides := fun _ => none
  pendingSwitchSides := fun _ => none
  temporaryPassword := ""
  temporaryPasswordFailures := ("", 0)
  trustedDevices := []

def Env.idle (p : Platform) : Env p where
  now := 0
  shared := .idle
  option := fun _ => ""
  builtinOption := fun _ => ""
  id := ""
  localPassword := ("", "")
  presetPassword := ("", "")
  hasPermanentPassword := false
  nextTemporaryPassword := ""
  checkCurrent := fun _ _ => none
  telegramBot := false
  auditServer := fun _ => ""
  isServer := false
  isPrelogin := false
  isLocked := false
  isLogonUi := false
  isInstalled := false
  isRoot := false
  isShareRdp := false
  currentSid := none
  sessionIds := []
  activeUsername := ""
  peerInfo := []
  isDir := fun _ => false
  desktopUsername := ""
  tryStartDesktop := fun _ _ => ""
  loginScreenWayland := false
  displayServer := "x11"
  syncDisplays := .ok []
  inputInitMsg := none
  tcpConnect := fun _ => false
  adminCheck := fun _ _ => .failed
  currentUserToken := .error ""
  osLoginGate := true
  serviceSpecifiedUser := fun _ => none
  generatedServiceId := ""
  inPrivacyMode := false
  privacyModeConnId := none
  privacyModeSupported := false
  currentImplKey := none
  isCurrentImpl := fun _ => false
  turnOnPrivacy := fun _ => none
  turnOffPrivacy := none
  checkPrivacyModeErr := ""
  serverAlive := true
  primaryDisplayIdx := 0
  subbedDisplaysCount := 1
  displayChanged := fun _ => none
  displayNames := .ok []
  virtualDisplayTakes := fun _ => false
  isAmyuniDisplay := fun _ => false
  virtualDisplaySupported := false
  plugInMonitor := .error ""
  plugOutMonitor := .error ""
  portableRunning := false
  startPortableService := .error ""
  whiteboardSupported := false
  win10OrGreater := false
  retinaMouse := fun me => me
  readIo :=
    { openFile := fun _ => .error ""
      metadata := fun _ => .error ""
      reads := fun _ _ => []
      pathExists := fun _ => false
      openWrite := fun _ => false
      seek := fun _ _ => false
      symlinkFree := fun _ _ => false }
  recursiveFiles := fun _ _ => .error ""
  maxValidatedFiles := 0
  terminalAction := fun _ => .error ""
  serveClipMessages := fun _ => []
  pluginResponse := fun _ _ => []

end RustDesk
