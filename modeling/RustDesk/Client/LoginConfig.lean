import RustDesk.Lib.Base64
import RustDesk.Server.Config

/-!
# Passwords of a login

A `LoginConfigHandler` answers the hash of a peer with the first password it finds: its last
one, one given for this connection, one shared with an address book entry, the one in the
configuration of the peer, one of the personal address book, or a default that was built in.
When the peer has let it in, `handle_peer_info` stores the password and passes it to the
personal address book, unless it was shared.

The handler notes a source for its password.  The model adds the `origin`, which is what the
password was really computed from; no function reads it.
-/

namespace RustDesk.LoginConfig

/-- `Hash`, the first message of a peer. -/
structure Hash where
  salt : String
  challenge : String

inductive PasswordSource where
  | personalAb (p : Bytes)
  | sharedAb (p : String)
  | undefined

inductive Origin where
  | shared (p salt : String)
  | other

structure Credential where
  password : Bytes
  passwordSource : PasswordSource
  origin : Origin

structure ConnToken extends Credential where
  sessionId : Nat

inductive ConnType where
  | defaultConn
  | fileTransfer
  | portForward
  | rdp
  | viewCamera
  | terminal
  deriving DecidableEq

structure PeerInfoSerde where
  username : String
  hostname : String
  platform : String
  deriving DecidableEq

/-- `PeerConfig`, the part that logins use. -/
structure PeerConfig where
  password : Bytes
  options : List (String × String)
  info : PeerInfoSerde
  keyboardMode : String
  deriving DecidableEq

/-- `PeerInfo`, the part that is kept. -/
structure PeerInfo extends PeerInfoSerde where
  version : String

structure AbPeer where
  id : String
  hash : String

structure AbEntry where
  name : String
  peers : List AbPeer

structure Ab where
  accessToken : String
  abEntries : List AbEntry

/-- `LoginConfigHandler`. -/
structure Handler extends Credential where
  id : String
  connType : ConnType
  isTerminalAdmin : Bool
  hash : Hash
  remember : Bool
  config : PeerConfig
  version : Int
  sessionId : Nat
  forceRelay : Bool
  switchUuid : Option String
  switchBackAllowed : Bool
  otherServer : Option (String × String × String)
  sharedPassword : Option String

inductive Out where
  | msgbox (msgtype title text link : String)
  | login (osUsername osPassword : String) (password : Bytes)
  | switchResponse (uuid : Bytes)
  | store (id : String) (config : PeerConfig)
  /-- `sync_peer_hash_password_to_personal_ab`. -/
  | syncToPersonalAb (id : String) (hash : Bytes)
  deriving DecidableEq

structure Client where
  flutter : Bool
  mobile : Bool
  sha256 : Bytes → Bytes
  /-- `Uuid::from_str`. -/
  parseUuid : String → Option Bytes

namespace PasswordSource

def isPersonalAb (source : PasswordSource) (password : Bytes) : Bool :=
  if password = [] then false
  else
    match source with
    | .personalAb p => p = password
    | _ => false

def equal (c : Client) (password : String) (connectedPassword : Bytes) (hash : Hash) : Bool :=
  connectedPassword = c.sha256 (asBytes password ++ asBytes hash.salt)

def isSharedAb (c : Client) (source : PasswordSource) (password : Bytes) (hash : Hash) : Bool :=
  if password = [] then false
  else
    match source with
    | .sharedAb p => equal c p password hash
    | _ => false

end PasswordSource

/-- `HashMap::insert`. -/
def insertOption (k v : String) (options : List (String × String)) : List (String × String) :=
  (k, v) :: options.filter fun kv => kv.1 ≠ k

def Handler.getOption (h : Handler) (k : String) : String :=
  (h.config.options.lookup k).getD ""

def Handler.saveConfig (config : PeerConfig) (h : Handler) : Handler × List Out :=
  ({ h with config := config }, [.store h.id config])

/-- `set_option`, with the configuration that `load_config` finds. -/
def Handler.setOption (k v : String) (loaded : PeerConfig) (h : Handler) : Handler × List Out :=
  if v = h.getOption k then (h, [])
  else h.saveConfig { loaded with options := insertOption k v loaded.options }

/-- What `initialize` is called with and reads; the identifier has been taken apart. -/
structure Start where
  id : String
  connType : ConnType
  switchUuid : Option String
  /-- Whether a relay is asked for, by the identifier or by the settings. -/
  forceRelay : Bool
  otherServer : Option (String × String × String)
  sharedPassword : Option String
  loaded : PeerConfig
  random : Nat
  terminalAdmin : Bool

/-- `initialize`. -/
def Handler.initialized (i : Start) (connToken : Option ConnToken) (h : Handler) : Handler :=
  let h := { h with
    id := i.id
    connType := i.connType
    remember := i.loaded.password ≠ []
    config := i.loaded }
  let h := match connToken with
    | some token => { h with toCredential := token.toCredential, sessionId := token.sessionId }
    | none => { h with sessionId := 0 }
  let sid := if h.sessionId = 0 then (if i.random = 0 then 1 else i.random) else h.sessionId
  let otherServer := (i.otherServer.or h.otherServer).map fun (realId, server, key) =>
    let otherServerKey := h.getOption "other-server-key"
    (realId, server, if otherServerKey ≠ "" ∧ key = "" then otherServerKey else key)
  { h with
    sessionId := sid
    forceRelay := i.forceRelay
    otherServer := otherServer
    switchBackAllowed := false
    switchUuid := i.switchUuid
    sharedPassword := i.sharedPassword
    isTerminalAdmin := i.connType = .terminal ∧ i.terminalAdmin = true }

def Handler.getConnToken (h : Handler) : Option ConnToken :=
  if h.password = [] then none else some ⟨h.toCredential, h.sessionId⟩

/-- What `handle_hash` is called with and reads. -/
structure HashInput where
  passwordPreset : String
  hash : Hash
  /-- The answer of `consume_local_switch_sides_uuid`. -/
  switchTrusted : Bool
  accessToken : String
  ab : Ab
  defaultConnectPassword : String

namespace AbEntry

def personal (e : AbEntry) : Bool :=
  e.name = "My address book" ∨ e.name = "Legacy address book"

end AbEntry

namespace Credential

def undefined (password : Bytes) : Credential := ⟨password, .undefined, .other⟩

end Credential

namespace Client

variable (c : Client)

def shared (p salt : String) : Credential :=
  ⟨c.sha256 (asBytes p ++ asBytes salt), .sharedAb p, .shared p salt⟩

def presetPassword (i : HashInput) (k : Credential) : Credential :=
  if k.password = [] ∧ i.passwordPreset ≠ "" then
    .undefined (c.sha256 (asBytes i.passwordPreset ++ asBytes i.hash.salt))
  else k

def sharedPassword (given : Option String) (i : HashInput) (k : Credential) : Credential :=
  match given with
  | some p => if p ≠ "" then c.shared p i.hash.salt else k
  | none => k

def configPassword (config : PeerConfig) (k : Credential) : Credential :=
  if k.password = [] ∧ config.password ≠ [] then .undefined config.password else k

def tryGetPasswordFromPersonalAb (id : String) (i : HashInput) (k : Credential) : Credential :=
  if k.password = [] ∧ i.accessToken ≠ "" ∧ i.accessToken = i.ab.accessToken then
    let peer := (i.ab.abEntries.find? (·.personal)).bind fun ab => ab.peers.find? (·.id = id)
    match peer.bind fun p => Base64.decode p.hash.toList with
    | some hashPassword =>
      if hashPassword ≠ [] then ⟨hashPassword, .personalAb hashPassword, .other⟩ else k
    | none => k
  else k

def defaultPassword (i : HashInput) (k : Credential) : Credential :=
  if k.password = [] ∧ i.defaultConnectPassword ≠ "" then
    c.shared i.defaultConnectPassword i.hash.salt
  else k

def choose (i : HashInput) (h : Handler) : Credential :=
  c.defaultPassword i
    (tryGetPasswordFromPersonalAb h.id i
      (configPassword h.config
        (c.sharedPassword h.sharedPassword i (c.presetPassword i h.toCredential))))

/-- `handle_hash` from the last password on. -/
def logIn (i : HashInput) (h : Handler) : Handler × List Out :=
  let h := { h with toCredential := c.choose i h, sharedPassword := none }
  if h.connType = .terminal ∧ h.isTerminalAdmin = true then
    if h.password = [] then (h, [.msgbox "terminal-admin-login-password" "" "" ""])
    else (h, [.msgbox "terminal-admin-login" "" "" ""])
  else
    let os := if h.connType = .terminal then ("", "")
      else (h.getOption "os-username", h.getOption "os-password")
    if h.password = [] then
      (h, [.msgbox "input-password" "Password Required" "" "", .login os.1 os.2 []])
    else (h, [.login os.1 os.2 (c.sha256 (h.password ++ asBytes i.hash.challenge))])

def handleHash (i : HashInput) (h : Handler) : Handler × List Out :=
  let h := { h with hash := i.hash }
  if c.flutter = true ∧ c.mobile = false then
    match h.switchUuid.bind c.parseUuid, i.switchTrusted with
    | some uuid, true =>
      ({ h with switchUuid := none, switchBackAllowed := true, passwordSource := .undefined },
        [.switchResponse uuid])
    | _, _ => c.logIn i { h with switchUuid := none }
  else c.logIn i h

end Client

structure LoginErrorMsgBox where
  msgtype : String
  title : String
  text : String
  link : String
  tryAgain : Bool

def linkHeadlessLinuxSupport : String :=
  "https://github.com/rustdesk/rustdesk/wiki/Headless-Linux-Support"

def loginErrorMap : List (String × LoginErrorMsgBox) :=
  [("Wayland login screen is not supported",
      ⟨"error", "Login Error", "Login screen using Wayland is not supported",
        "https://rustdesk.com/docs/en/manual/linux/#login-screen", true⟩),
    ("Desktop session not ready", ⟨"session-login", "", "", "", true⟩),
    ("Desktop xsession failed", ⟨"session-re-login", "", "", "", true⟩),
    ("Desktop session another user login",
      ⟨"info-nocancel", "another_user_login_title_tip", "another_user_login_text_tip", "", false⟩),
    ("Desktop xorg not found",
      ⟨"info-nocancel", "xorg_not_found_title_tip", "xorg_not_found_text_tip",
        linkHeadlessLinuxSupport, true⟩),
    ("Desktop none",
      ⟨"info-nocancel", "no_desktop_title_tip", "no_desktop_text_tip",
        linkHeadlessLinuxSupport, true⟩),
    ("Desktop session not ready, password empty", ⟨"session-login-password", "", "", "", true⟩),
    ("Desktop session not ready, password wrong", ⟨"session-login-re-password", "", "", "", true⟩),
    ("No Password Access",
      ⟨"wait-remote-accept-nook", "Prompt",
        "Please wait for the remote side to accept your session request...", "", true⟩)]

def scrapX11Required : String := "x11 expected"

def scrapX11RefUrl : String := "https://rustdesk.com/docs/en/manual/linux/#x11-required"

def Handler.handleLoginError (err : String) (loaded : PeerConfig) (h : Handler) :
    Handler × List Out × Bool :=
  if err = "Empty Password" then
    ({ h with password := [], origin := .other },
      [.msgbox "input-password" "Password Required" "" ""], true)
  else if err = "Wrong Password" then
    ({ h with password := [], origin := .other },
      [.msgbox "re-input-password" err "Do you want to enter again?" ""], true)
  else if err = "Wrong 2FA Code" ∨ err = "2FA Required" then
    let (h, out) := if h.getOption "trust-this-device" = "Y" then
      h.setOption "trust-this-device" "" loaded else (h, [])
    (h, out ++ [.msgbox "input-2fa" err "" ""], true)
  else
    match loginErrorMap.lookup err with
    | some info => (h, [.msgbox info.msgtype info.title info.text info.link], info.tryAgain)
    | none =>
      let link := if scrapX11Required.toList <:+: err.toList then scrapX11RefUrl else ""
      (h, [.msgbox "error" "Login Error" err link], false)

def Client.handleLoginFromUi (c : Client) (osUsername osPassword password : String)
    (remember : Bool) (h : Handler) : Handler × List Out :=
  let h := if password = "" then
      if h.password = [] then
        if h.config.password ≠ [] then
          { h with toCredential := .undefined h.config.password }
        else h
      else h
    else { h with
      toCredential := .undefined (c.sha256 (asBytes password ++ asBytes h.hash.salt))
      remember := remember }
  (h, [.login osUsername osPassword (c.sha256 (h.password ++ asBytes h.hash.challenge))])

def isKeyboardModeSupported (keyboardMode : KeyboardMode) (versionNumber : Int)
    (peerPlatform : String) : Bool :=
  match keyboardMode with
  | .legacy => true
  | .map => peerPlatform.toLower ≠ "android" ∧ versionNumber ≥ getVersionNumber "1.2.0"
  | .translate => versionNumber ≥ getVersionNumber "1.2.0"
  | .auto => versionNumber ≥ getVersionNumber "1.2.0"

/-- `KeyboardMode::from_str`, with the default for other texts. -/
def keyboardModeFromStr (s : String) : KeyboardMode :=
  if s = "map" then .map
  else if s = "translate" then .translate
  else if s = "auto" then .auto
  else .legacy

def keyboardMode (config : PeerConfig) (pi : PeerInfo) : String :=
  if config.keyboardMode = "" then
    if isKeyboardModeSupported .map (getVersionNumber pi.version) pi.platform then "map"
    else "legacy"
  else if isKeyboardModeSupported (keyboardModeFromStr config.keyboardMode)
      (getVersionNumber pi.version) pi.platform then config.keyboardMode
  else "legacy"

def Client.rememberedPassword (c : Client) (h : Handler) (password0 : Bytes) : Bytes :=
  if h.remember then
    -- not sync shared password to recent
    if h.password ≠ [] ∧ h.password ≠ password0 ∧
        ¬h.passwordSource.isSharedAb c h.password h.hash then h.password
    else password0
  else if h.passwordSource.isPersonalAb h.password then h.password
  else []

def Handler.noteVersion (pi : PeerInfo) (h : Handler) : Handler :=
  if pi.version ≠ "" then { h with version := getVersionNumber pi.version } else h

def Handler.noteServer (h : Handler) (config : PeerConfig) : PeerConfig :=
  let options := match h.otherServer with
    | some (_, server, key) =>
      if server ≠ "public" then insertOption "other-server-key" key config.options
      else config.options
    | none => config.options
  { config with
    options := if h.forceRelay then insertOption "force-always-relay" "Y" options else options }

/-- `handle_peer_info`, with the configuration that `load_config` finds. -/
def Client.handlePeerInfo (c : Client) (pi : PeerInfo) (loaded : PeerConfig) (h : Handler) :
    Handler × List Out :=
  let h := h.noteVersion pi
  let config := { loaded with
    info := pi.toPeerInfoSerde
    password := c.rememberedPassword h loaded.password }
  let config := h.noteServer config
  -- sync connected password to personal ab automatically if it is not shared password
  let synced :=
    if c.flutter = true ∧ config.password ≠ [] ∧
        ¬h.passwordSource.isSharedAb c h.password h.hash ∧
        ¬h.passwordSource.isPersonalAb h.password then
      [.syncToPersonalAb h.id config.password]
    else []
  let (h, stored) := h.saveConfig { config with keyboardMode := keyboardMode config pi }
  (h, synced ++ stored)

end RustDesk.LoginConfig
