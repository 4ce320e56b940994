import RustDesk.Lib.Logged
import RustDesk.Server.Config

/-!
# The state of a connection

`Connection` is the controlled side's end of one connection.  Everything it does to
the world goes into its log: what it sends to the peer and to the connection manager,
and what it makes the operating system do.

The fields are in three groups.  `Auth` is what login decides, `PeerOptions` what the
peer's options decide, and the rest is in `Connection` itself.
-/

namespace RustDesk

inductive ConnAuditPrimaryAuth where
  | none
  | click
  | temporaryPassword
  | permanentPassword
  | switchSides
  deriving DecidableEq

inductive ConnAuditTwoFactor where
  | none
  | totp
  | trustedDevice

inductive Permission where
  | keyboard
  | clipboard
  | audio
  | file
  | restart
  | recording
  | blockInput
  | privacyMode

inductive VideoSource where
  | monitor
  | camera
  deriving DecidableEq

inductive Service where
  | clipboard
  | fileClipboard
  | cursor
  | cursorPos
  | windowFocus
  | audio
  | video (source : VideoSource) (display : Nat)
  deriving DecidableEq

inductive PrivacyModeState where
  | prvOnFailedDenied
  | prvNotSupported
  | prvOnSucceeded
  | prvOnFailed
  | prvOnFailedPlugin
  | prvOffSucceeded
  | prvOffByPeer
  | prvOffFailed
  | prvOffUnknown

/-- `ipc::Data::Login`. -/
structure CmLogin where
  id : Int
  isFileTransfer : Bool
  isViewCamera : Bool
  isTerminal : Bool
  portForward : String
  peerId : String
  name : String
  avatar : String
  authorized : Bool
  keyboard : Bool
  clipboard : Bool
  audio : Bool
  file : Bool
  fileTransferEnabled : Bool
  restart : Bool
  recording : Bool
  blockInput : Bool
  privacyMode : Bool
  fromSwitch : Bool

/-- `ipc::FS`. -/
inductive FsRequest where
  | readEmptyDirs (dir : String) (includeHidden : Bool)
  | readDir (dir : String) (includeHidden : Bool)
  | removeDir (path : String) (id : Int) (isRecursive : Bool)
  | removeFile (path : String) (id fileNum : Int)
  | createDir (path : String) (id : Int)
  | newWrite (path : String) (id fileNum : Int) (files : List (String × Nat))
      (overwriteDetection : Bool) (totalSize : Nat) (connId : Int)
  | cancelWrite (id : Int)
  | writeBlock (b : FileTransferBlock)
  | writeDone (id fileNum : Int)
  | writeError (id fileNum : Int) (err : String)
  | checkDigest (id fileNum : Int) (fileSize lastModified : Nat) (isUpload isResume : Bool)
  | sendConfirm (r : FileTransferSendConfirmRequest)
  | rename (id : Int) (path newName : String)
  | readFile (path : String) (id fileNum : Int) (includeHidden : Bool) (connId : Int)
      (overwriteDetection : Bool)
  | cancelRead (id connId : Int)
  | sendConfirmForRead (id fileNum : Int) (skip : Bool) (offsetBlk : Nat) (connId : Int)
  | readAllFiles (path : String) (id : Int) (includeHidden : Bool) (connId : Int)

/-- What a `FileTransferLog` reports. -/
inductive FileTransferLog where
  | createDir (id connId : Int) (path : String)
  | rename (connId : Int) (path newName : String)
  | remove (id connId : Int) (path : String) (dir : Bool)
  | cancelled (job : TransferJob)

inductive CmData where
  | login (l : CmLogin)
  | chatMessage (text : String)
  | close
  | disconnected
  | fs (r : FsRequest)
  | fileTransferLog (l : FileTransferLog)
  | clipboardFile (clip : Cliprdr)
  | clipboardFileEnabled (b : Bool)
  | voiceCallIncoming
  | startVoiceCall
  | closeVoiceCall
  | switchPermission (name : String) (enabled : Bool)

inductive PeerMessage where
  | hash (salt challenge : String)
  | loginError (error : String) (enableTrustedDevices : Bool)
  | loginPeerInfo (username : String) (sasEnabled : Bool) (windowsSessions : List Nat)
      (info : Bytes)
  | inited (payload : Bytes)
  | permission (permission : Permission) (enabled : Bool)
  | closeReason (reason : String)
  | testDelay (time : Int) (fromClient : Bool)
  | chatMessage (text : String)
  | fileError (id : Int) (err : String) (fileNum : Int)
  | fileDir (id : Int) (path : String) (files : List FileEntry)
  | fileResponse (r : FileResponse)
  | privacyMode (state : PrivacyModeState) (details implKey : String)
  | blockInputError (on : Bool) (details : String)
  | messageBox (title text : String)
  | displayChanged (payload : Bytes)
  | elevationResponse (err : String)
  | terminalResponse (payload : Bytes)
  | terminalError (message : String)
  | voiceCallResponse (reqTimestamp : Int) (accepted : Bool)
  | voiceCallRequest (isConnect : Bool)
  | cliprdr (clip : Cliprdr)
  | plugin (payload : Bytes)
  | networkTest (lastDelay : Int)
  | printRequest (path : String)
  | switchBack
  | raw (bytes : Bytes)

inductive FileAuditType where
  | remoteSend
  | remoteReceive

inductive Audit where
  | connAuthorized (peerId name : String) (connType : Nat) (primary : ConnAuditPrimaryAuth)
      (twoFactor : ConnAuditTwoFactor)
  | file (type : FileAuditType) (path : String) (files : List (String × Nat))
  | alarm (typ : AlarmAuditType) (message : String)

/-- `MessageInput` and the calls that take its place on a phone. -/
inductive Input where
  | mouse (me : MouseEvent) (simulate showCursor : Bool)
  | pointer (pde : PointerDeviceEvent)
  | key (me : KeyEvent) (press : Bool)
  | touch (kind : Nat) (x y : Int)
  | blockOn
  | blockOff
  /-- `lock_screen`, which types the keys that lock it. -/
  | lockScreen

/-- What `VIDEO_QOS` is told. -/
inductive Qos where
  | imageQuality (quality : Int)
  | customFps (fps : Int)
  | networkDelay (delay : Int)
  | autoAdjustFps (fps : Nat)
  | record (on : Bool)

inductive Effect where
  | send (m : PeerMessage)
  | toCm (d : CmData)
  | startCmIpc
  /-- `try_start_desktop` for a user, whose session it may start. -/
  | tryStartDesktop (username : String)
  | audit (a : Audit)
  | telegramCode
  | portForwardConnect (addr : String)
  | input (i : Input)
  | clickTime
  | mouseMoveTime
  | updateClipboard (contents : List Bytes)
  | serveFileClipboard (clip : Bytes)
  | emptyFileClipboard
  | turnOnPrivacy (implKey : String)
  | turnOffPrivacy
  | plugInVirtualDisplay (display : Int)
  | plugOutVirtualDisplay (display : Int)
  | changeResolution (display : String) (r : Resolution)
  | setLastChangedResolution (display : String) (r : Resolution)
  | reboot
  | startPortableService
  | switchSides (peerId : String) (uuid : Bytes)
  | readFs (path : String)
  | startTerminalService (serviceId : String) (persistent : Bool) (token : Option Nat)
  | terminalAction (serviceId : String) (payload : Bytes)
  | setTerminalPersistent (serviceId : String) (persistent : Bool)
  | qos (q : Qos)
  /-- `Encoder::update`, with the decoders the peer has, if it named them. -/
  | encoder (supportedDecoding : Option Bytes)
  | subscribe (service : Service) (on : Bool)
  | addConnection (noperms : List Service)
  | addCameraConnection
  | addVideoService (source : VideoSource) (display : Nat)
  | captureDisplays (source : VideoSource) (displays : List Nat) (include' exclude : Bool)
  | refreshVideo (source : VideoSource) (display : Option Nat)
  | videoFrameFetched
  | screenshot (source : VideoSource) (display : Int) (sid : String)
  | audioFormat (payload : Bytes)
  | audioFrame (data : Bytes)
  | voiceCallInputDevice (on : Bool)
  | removeWallpaper
  | activateScreen
  | whiteboard (registered : Bool)
  | pluginEvent (id : String) (content : Bytes)
  | connectToUserSession (sid : Nat)

structure Auth where
  authorized : Bool
  require2fa : Option Totp
  fromSwitch : Bool
  connAuditPrimaryAuth : ConnAuditPrimaryAuth
  connAuditTwoFactor : ConnAuditTwoFactor
  lr : LoginRequest
  fileTransfer : Option (String × Bool)
  viewCamera : Bool
  terminal : Bool
  portForwardAddress : String
  /-- The type in `authed_conn_id`. -/
  authedConnId : Option AuthConnType

structure PeerOptions where
  lockAfterSessionEnd : Bool
  showRemoteCursor : Bool
  followRemoteCursor : Bool
  followRemoteWindow : Bool
  disableAudio : Bool
  enableFileTransfer : Bool
  disableClipboard : Bool
  disableKeyboard : Bool
  terminalPersistent : Bool
  showMyCursor : Bool

structure FileRemoveLogControl where
  instant : Int
  removedFiles : List (Int × String)
  removedDirs : List (Int × String)

/-- `Connection`.  The last two fields are not in the source: the shared tables as
the handler that is running sees them, and what the connection has done so far. -/
structure Connection extends Auth, PeerOptions where
  id : Int
  salt : String
  challenge : String
  ip : String
  controlPermissions : Option UInt64
  serverAuditConn : String
  serverAuditFile : String
  keyboard : Bool
  clipboard : Bool
  audio : Bool
  file : Bool
  restart : Bool
  recording : Bool
  blockInput : Bool
  privacyMode : Bool
  displayIdx : Nat
  portForwardSocket : Option String
  optionsInLogin : Option OptionMessage
  videoAckRequired : Bool
  peerArgb : UInt32
  terminalServiceId : String
  /-- `TerminalUserToken`: the own user, or the token of another. -/
  terminalUserToken : Option (Option Nat)
  terminalGenericService : Bool
  /-- Whether the channel to the connection manager is still to be started. -/
  startCmIpcPara : Bool
  isHeadlessAllowed : Bool
  chatUnanswered : Bool
  fileTransferred : Bool
  voiceCalling : Bool
  voiceCallRequestTimestamp : Option Int
  audioSender : Bool
  servicesSubed : Bool
  multiUiSession : Bool
  closed : Bool
  lastTestDelay : Option Int
  networkDelay : Int
  autoDisconnectTimer : Option (Int × Nat)
  delayedReadDir : Option (String × Bool)
  readJobs : List TransferJob
  cmReadJobIds : List Int
  printerData : List (Int × String × Bytes)
  pressedModifiers : List Nat
  scopeViolationMessages : List String
  fileRemoveLogControl : FileRemoveLogControl
  shared : Shared
  log : List Effect

namespace Connection

def emit (c : Connection) (e : Effect) : Connection := { c with log := c.log ++ [e] }

def modifyShared (c : Connection) (f : Shared → Shared) : Connection :=
  { c with shared := f c.shared }

def send (c : Connection) (m : PeerMessage) : Connection := c.emit (.send m)

def sendToCm (c : Connection) (d : CmData) : Connection := c.emit (.toCm d)

def sendFs (c : Connection) (r : FsRequest) : Connection := c.sendToCm (.fs r)

def sendPermission (c : Connection) (permission : Permission) (enabled : Bool) : Connection :=
  c.send (.permission permission enabled)

def sessionKey (c : Connection) : SessionKey := ⟨c.lr.myId, c.lr.myName, c.lr.sessionId⟩

def isRemote (c : Connection) : Bool :=
  c.fileTransfer.isNone && c.portForwardSocket.isNone && !c.viewCamera && !c.terminal

def isAuthedRemoteConn (c : Connection) : Bool := c.authedConnId = some .remote

def isAuthedViewCameraConn (c : Connection) : Bool := c.authedConnId = some .viewCamera

def videoSource (c : Connection) : VideoSource := if c.viewCamera then .camera else .monitor

def peerKeyboardEnabled (c : Connection) : Bool := c.keyboard && !c.disableKeyboard

def clipboardEnabled (c : Connection) : Bool := c.clipboard && !c.disableClipboard

def audioEnabled (c : Connection) : Bool := c.audio && !c.disableAudio

def fileTransferEnabled (c : Connection) : Bool := c.file && c.enableFileTransfer

variable {p : Platform}

def canSubClipboardService (c : Connection) (env : Env p) : Bool :=
  c.clipboardEnabled && c.peerKeyboardEnabled
    && env.builtinOption "one-way-clipboard-redirection" ≠ "Y"

def canSubFileClipboardService (c : Connection) (env : Env p) : Bool :=
  c.clipboardEnabled && c.fileTransferEnabled && env.builtinOption "one-way-file-transfer" ≠ "Y"

/-- `subscribe` on the server, while it exists. -/
def subscribe (c : Connection) (env : Env p) (service : Service) (on : Bool) : Connection :=
  if env.serverAlive then c.emit (.subscribe service on) else c

def postAlarmAudit (c : Connection) (env : Env p) (typ : AlarmAuditType) (message : String) :
    Connection :=
  if env.auditServer "alarm" = "" then c else c.emit (.audit (.alarm typ message))

def postFileAudit (c : Connection) (type : FileAuditType) (path : String)
    (files : List (String × Nat)) : Connection :=
  if c.serverAuditFile = "" then c
  else c.emit (.audit (.file type path
    ((files.mergeSort fun a b => decide (b.2 ≤ a.2)).take 10)))

def getFilesForAudit (jobType : JobType) (files : List FileEntry) : List (String × Nat) :=
  files.map fun f => (if jobType = .printer then "Remote print" else f.name, f.size)

def updateAutoDisconnectTimer (c : Connection) (env : Env p) : Connection :=
  { c with autoDisconnectTimer := c.autoDisconnectTimer.map fun t => (env.now, t.2) }

def sendLoginError (c : Connection) (env : Env p) (err : String) : Connection :=
  c.send (.loginError err (err = "2FA Required" && env.enableTrustedDevices))

def tryStartCm (c : Connection) (peerId name : String) (authorized : Bool) : Connection :=
  c.sendToCm (.login
    { id := c.id
      isFileTransfer := c.fileTransfer.isSome
      isViewCamera := c.viewCamera
      isTerminal := c.terminal
      portForward := c.portForwardAddress
      peerId := peerId
      name := name
      avatar := c.lr.avatar
      authorized := authorized
      keyboard := c.keyboard
      clipboard := c.clipboard
      audio := c.audio
      file := c.file
      fileTransferEnabled := c.file
      restart := c.restart
      recording := c.recording
      blockInput := c.blockInput
      privacyMode := c.privacyMode
      fromSwitch := c.fromSwitch })

def tryStartCmIpc (c : Connection) : Connection :=
  if c.startCmIpcPara then { c.emit .startCmIpc with startCmIpcPara := false } else c

def checkFailureWithScope (c : Connection) (env : Env p) (i : Fin 2) (scope : FailureScope) :
    Option FailureEntry × Connection :=
  let (res, failures) :=
    RustDesk.checkFailureWithScope p.ipv6FromStr c.shared.failures c.ip env.now i scope
  let c := c.modifyShared fun s => { s with failures := failures }
  match res with
  | .ok failure => (some failure, c)
  | .error r => (none, (c.sendLoginError env r.loginError).postAlarmAudit env r.audit "")

def checkFailure (c : Connection) (env : Env p) (i : Fin 2) : Option FailureEntry × Connection :=
  c.checkFailureWithScope env i .default

def updateFailureWithScope (c : Connection) (env : Env p) (failure : FailureEntry)
    (remove : Bool) (i : Fin 2) (scope : FailureScope) : Connection :=
  c.modifyShared fun s => { s with
    failures := RustDesk.updateFailureWithScope p.ipv6FromStr s.failures c.ip env.now failure
      (minuteOf env.now) remove i scope }

def checkRemoveSession (c : Connection) : Connection :=
  let key := c.sessionKey
  if (c.shared.sessions key).isSome then
    let isRemote := c.shared.authedConns.any fun a => a.connId = c.id && a.connType = .remote
    let anotherRemote := c.shared.authedConns.any fun a =>
      a.connId ≠ c.id && a.sessionKey = key && a.connType = .remote
    if isRemote || !anotherRemote then
      c.modifyShared fun s => { s with sessions := Function.update s.sessions key none }
    else c
  else c

def updateOrInsertSession (c : Connection) (env : Env p) (password : Option String)
    (tfa : Option Bool) : Connection :=
  let session := match c.shared.sessions c.sessionKey with
    | some session =>
      { session with
        randomPassword := password.getD session.randomPassword
        tfa := tfa.getD session.tfa }
    | none => ⟨env.now, password.getD "", tfa.getD false⟩
  c.modifyShared fun s => { s with
    sessions := Function.update s.sessions c.sessionKey (some session) }

def setSession2fa (c : Connection) (env : Env p) : Connection :=
  let session := match c.shared.sessions c.sessionKey with
    | some session => { session with tfa := true }
    | none => ⟨env.now, "", true⟩
  c.modifyShared fun s => { s with
    sessions := Function.update s.sessions c.sessionKey (some session) }

def setConnAuditPrimaryAuth (c : Connection) (method : ConnAuditPrimaryAuth) : Connection :=
  { c with connAuditPrimaryAuth := method }

def verifyH1 (c : Connection) (p : Platform) (h1 : Bytes) : Bool :=
  p.sha256 (h1 ++ asBytes c.challenge) = c.lr.password

def validatePasswordPlain (c : Connection) (p : Platform) (password : String) : Bool :=
  password ≠ "" && c.verifyH1 p (p.sha256 (asBytes password ++ asBytes c.salt))

def validatePasswordStorage (c : Connection) (p : Platform) (storage : String) : Bool :=
  storage ≠ "" &&
    match p.decodePermanentPasswordH1FromStorage storage with
    | some h1 => c.verifyH1 p h1
    | none => c.validatePasswordPlain p storage

def validatePresetPasswordStorage (c : Connection) (p : Platform) (storage salt : String) : Bool :=
  if salt = "" then c.validatePasswordPlain p storage
  else
    match p.decodePresetPasswordH1FromStorage storage with
    | some h1 => c.verifyH1 p h1
    | none => false

def checkUpdateTemporaryPassword (c : Connection) (env : Env p) (success : Bool) : Connection :=
  let current := c.shared.temporaryPassword
  if !env.temporaryEnabled || current = "" then c
  else
    let failures := if c.shared.temporaryPasswordFailures.1 ≠ current then 0
      else c.shared.temporaryPasswordFailures.2
    if success then
      c.modifyShared fun s => { s with temporaryPasswordFailures := (current, 0) }
    else if failures + 1 < 10 then
      c.modifyShared fun s => { s with temporaryPasswordFailures := (current, failures + 1) }
    else
      c.modifyShared fun s => { s with
        temporaryPassword := env.nextTemporaryPassword
        temporaryPasswordFailures := (env.nextTemporaryPassword, 0) }

def validatePermanentPassword (c : Connection) (env : Env p) : Bool :=
  let (storage, salt) := env.localPassword
  if storage ≠ "" then
    p.localPermanentPasswordStorageIsUsableForAuth storage salt
      && c.validatePasswordStorage p storage
  else
    let (hard, salt) := env.presetPassword
    p.presetPermanentPasswordStorageIsUsableForAuth hard salt
      && c.validatePresetPasswordStorage p hard salt

def validatePassword (c : Connection) (env : Env p) (allowPermanentPassword : Bool) :
    Bool × Connection :=
  if env.temporaryEnabled && c.validatePasswordPlain p c.shared.temporaryPassword then
    let c := c.setConnAuditPrimaryAuth .temporaryPassword
    let c := c.updateOrInsertSession env (some c.shared.temporaryPassword) (some false)
    (true, c.checkUpdateTemporaryPassword env true)
  else if (env.permanentEnabled || allowPermanentPassword) && c.validatePermanentPassword env then
    (true, c.setConnAuditPrimaryAuth .permanentPassword)
  else (false, c)

/-- `SESSION_TIMEOUT`, in milliseconds. -/
def sessionTimeout : Int := 30 * 1000

/-- `SESSIONS` without the sessions that have expired. -/
def retainSessions (c : Connection) (env : Env p) : Connection :=
  c.modifyShared fun s => { s with
    sessions := fun key =>
      (s.sessions key).filter fun session => env.now - session.lastRecvTime < sessionTimeout }

def matchesSession (c : Connection) (p : Platform) (tfa : Bool) : Bool :=
  match c.shared.sessions c.sessionKey with
  | some session =>
    c.lr.password ≠ [] && (tfa && session.tfa
      || !tfa && c.validatePasswordPlain p session.randomPassword)
  | none => false

def isRecentSession (c : Connection) (env : Env p) (tfa : Bool) : Bool × Connection :=
  let c := c.retainSessions env
  if c.matchesSession p tfa then
    if tfa then (true, { c with connAuditTwoFactor := .totp })
    else (true, c.setConnAuditPrimaryAuth .temporaryPassword)
  else (false, c)

def hasValidPassword (c : Connection) (env : Env p) : Bool :=
  env.temporaryEnabled && c.shared.temporaryPassword ≠ ""
    || env.permanentEnabled && env.hasPermanentPassword

end Connection
end RustDesk
