import RustDesk.Server.Handlers

/-!
# The loop of a connection

A connection waits for the peer, the connection manager and its timers, and handles
one event after the other, in any order.  A run is a list of events, each with the
moment at which it is handled.  The loop ends when a handler says so.
-/

namespace RustDesk

inductive PrivacyModeEnd where
  | offSucceeded
  | offByPeer
  | offUnknown

/-- `ipc::Data` as the connection manager sends it. -/
inductive CmEvent where
  | authorize
  | close
  | cmErr (e : String)
  | chatMessage (text : String)
  | switchPermission (name : String) (enabled : Bool)
  | rawMessage (bytes : Bytes)
  | clipboardFile (clip : Cliprdr)
  | privacyModeState (state : PrivacyModeEnd) (implKey : String)
  | requestStart
  | switchSidesBack
  | voiceCallResponse (accepted : Bool)
  | closeVoiceCall
  | readJobInitResult (id connId : Int) (result : Except String (String × List FileEntry))
  | fileBlockFromCm (b : FileTransferBlock) (connId : Int)
  | fileReadDone (id fileNum connId : Int)
  | fileReadError (id fileNum : Int) (err : String) (connId : Int)
  | fileDigestFromCm (id fileNum : Int) (lastModified fileSize : Nat) (isResume : Bool)
      (connId : Int)
  | allFilesResult (id connId : Int) (result : Except String Bytes)

inductive Event where
  | message (msg : Message)
  | cm (e : CmEvent)
  | streamEnd
  | printerData (data : Bytes)
  /-- The console of the web server closed the connection. -/
  | consoleClose
  | second
  /-- The timer that measures the delay; whether nothing came for half a minute. -/
  | testDelay (silent : Bool)

namespace Connection

variable {p : Platform}

def clicked (c : Connection) : Connection :=
  { c.setConnAuditPrimaryAuth .click with require2fa := none }

/-- `Data::Authorize`: the user let the peer in. -/
def onAuthorize (c : Connection) (env : Env p) : Bool × Connection :=
  let (keepAlive, c) := c.clicked.sendLogonResponseAndKeepAlive env
  (keepAlive && c.portForwardSocket.isNone, c)

/-- The permission `keyboard` and what depends on it. -/
def switchKeyboard (c : Connection) (env : Env p) (enabled : Bool) : Connection :=
  let c := { c with keyboard := enabled }
  let c := c.sendPermission .keyboard enabled
  let c := c.subscribe env .clipboard (c.canSubClipboardService env)
  let c := if p.build.unixFileCopyPaste then
      c.subscribe env .fileClipboard (c.canSubFileClipboardService env)
    else c
  c.subscribe env .cursor (enabled || c.showRemoteCursor)

/-- The permission `audio`. -/
def switchAudio (c : Connection) (env : Env p) (enabled : Bool) : Connection :=
  let c := { c with audio := enabled }
  let c := c.sendPermission .audio enabled
  if !c.authorized then c
  else if c.isAuthedViewCameraConn && !(c.voiceCalling || !c.audioEnabled) then c
  else c.subscribe env .audio c.audioEnabled

/-- The permission `file`. -/
def switchFile (c : Connection) (env : Env p) (enabled : Bool) : Connection :=
  let c := { c with file := enabled }
  let c := c.sendPermission .file enabled
  if p.build.unixFileCopyPaste then
    let c := if enabled then c else c.tryEmptyFileClipboard
    c.subscribe env .fileClipboard (c.canSubFileClipboardService env)
  else c

/-- The permission `privacy_mode`.  Revoking it leaves privacy mode first, and if that
fails the permission stays. -/
def switchPrivacyMode (c : Connection) (env : Env p) (enabled : Bool) : Connection :=
  let grant (c : Connection) : Connection :=
    { c with privacyMode := enabled }.sendPermission .privacyMode enabled
  if !enabled && env.inPrivacyMode && env.privacyModeConnId = some c.id then
    let implKey := env.currentImplKey.getD ""
    let c := c.emit .turnOffPrivacy
    match env.turnOffPrivacy with
    | some (.ok _) => grant (c.send (.privacyMode .prvOffByPeer "" implKey))
    | res =>
      let c := c.send (turnOffPrivacyResultToMsg res implKey)
      c.sendToCm (.switchPermission "privacy_mode" c.privacyMode)
  else grant c

/-- `Data::SwitchPermission`. -/
def onSwitchPermission (c : Connection) (env : Env p) (name : String) (enabled : Bool) :
    Connection :=
  if name = "keyboard" then c.switchKeyboard env enabled
  else if name = "clipboard" then
    let c := { c with clipboard := enabled }
    let c := c.sendPermission .clipboard enabled
    c.subscribe env .clipboard (c.canSubClipboardService env)
  else if name = "audio" then c.switchAudio env enabled
  else if name = "file" then c.switchFile env enabled
  else if name = "restart" then
    { c with restart := enabled }.sendPermission .restart enabled
  else if name = "recording" then
    { c with recording := enabled }.sendPermission .recording enabled
  else if name = "block_input" then
    { c with blockInput := enabled }.sendPermission .blockInput enabled
  else if name = "privacy_mode" then c.switchPrivacyMode env enabled
  else c

/-- `Data::ClipboardFile`. -/
def onCmClipboardFile (c : Connection) (clip : Cliprdr) : Connection :=
  if c.isRemote then c.sendClip clip else c

def handleReadJobInitResult (c : Connection) (id : Int)
    (result : Except String (String × List FileEntry)) : Connection :=
  if !c.cmReadJobIds.contains id then c
  else
    match result with
    | .error err =>
      { c with cmReadJobIds := c.cmReadJobIds.erase id }.send (.fileError id err 0)
    | .ok (path, files) =>
      let c := c.send (.fileDir id path files)
      let c := c.postFileAudit .remoteSend path (getFilesForAudit .generic files)
      { c with fileTransferred := true }

def forwardIfKnown (c : Connection) (id : Int) (m : PeerMessage) : Connection :=
  if c.cmReadJobIds.contains id then c.send m else c

def forwardLast (c : Connection) (id : Int) (m : PeerMessage) : Connection :=
  if c.cmReadJobIds.contains id then
    { c with cmReadJobIds := c.cmReadJobIds.erase id }.send m
  else c

def onCm (c : Connection) (env : Env p) : CmEvent → Bool × Connection
  | .authorize => c.onAuthorize env
  | .close =>
    let c := { c with chatUnanswered := false, fileTransferred := false }
    let c := c.sendCloseReasonNoRetry ""
    (false, c.onClose p true)
  | .cmErr e => if e ≠ "expected" then (false, c.onClose p false) else (true, c)
  | .chatMessage text => (true, { c.send (.chatMessage text) with chatUnanswered := false })
  | .switchPermission name enabled => (true, c.onSwitchPermission env name enabled)
  | .rawMessage bytes => (true, c.send (.raw bytes))
  | .clipboardFile clip =>
    (true, if p.build.os = .windows then c.onCmClipboardFile clip else c)
  | .privacyModeState state implKey =>
    (true, c.send (.privacyMode (match state with
      | .offSucceeded => .prvOffSucceeded
      | .offByPeer => .prvOffByPeer
      | .offUnknown => .prvOffUnknown) "" implKey))
  | .requestStart => (true, if p.build.os = .windows then c.emit .startPortableService else c)
  | .switchSidesBack =>
    (true, if p.build.flutter && !p.build.mobile then c.send .switchBack else c)
  | .voiceCallResponse accepted => (true, c.handleVoiceCall env accepted)
  | .closeVoiceCall => (true, (c.closeVoiceCall env).send (.voiceCallRequest false))
  | .readJobInitResult id connId result =>
    (true, if connId = c.id then c.handleReadJobInitResult id result else c)
  | .fileBlockFromCm b connId =>
    (true, if connId = c.id then c.forwardIfKnown b.id (.fileResponse (.block b)) else c)
  | .fileReadDone id fileNum connId =>
    (true, if connId = c.id then c.forwardLast id (.fileResponse (.done id fileNum)) else c)
  | .fileReadError id fileNum err connId =>
    (true, if connId = c.id then c.forwardLast id (.fileError id err fileNum) else c)
  | .fileDigestFromCm id fileNum lastModified fileSize isResume connId =>
    (true, if connId = c.id then
        c.forwardIfKnown id (.fileResponse (.digest id fileNum lastModified fileSize isResume))
      else c)
  | .allFilesResult id connId result =>
    (true, if connId = c.id then
        match result with
        | .error err => c.send (.fileError id err (-1))
        | .ok dir => c.send (.fileResponse (.dir dir))
      else c)

def onPrinterData (c : Connection) (env : Env p) (data : Bytes) : Connection :=
  if p.build.os = .windows && p.build.flutter then
    if env.permission "enable-remote-printer" c.controlPermissions then
      let path := "RustDesk://FsJob//Printer/" ++ toString env.now
      let c := c.send (.printRequest path)
      { c with printerData := (c.printerData.filter fun d => (env.now - d.1) / 1000 < 60)
          ++ [(env.now, path, data)] }
    else c.send (.messageBox "remote-printing-disallowed-tile-tip"
      "remote-printing-disallowed-text-tip")
  else c

/-- `on_timer` of `FileRemoveLogControl`. -/
def reportRemovals (c : Connection) (env : Env p) : Connection :=
  let f := c.fileRemoveLogControl
  if env.now - f.instant < 1000 then c
  else
    let c' := f.removedFiles.foldl (fun c' x =>
      c'.sendToCm (.fileTransferLog (.remove x.1 c.id x.2 false))) c
    let c' := f.removedDirs.foldl (fun c' x =>
      c'.sendToCm (.fileTransferLog (.remove x.1 c.id x.2 true))) c'
    { c' with fileRemoveLogControl := { f with removedFiles := [], removedDirs := [] } }

def onSecond (c : Connection) (env : Env p) : Bool × Connection :=
  match c.autoDisconnectTimer with
  | some (instant, minute) =>
    if (env.now - instant) / 1000 > minute * 60 then
      let c := c.sendCloseReasonNoRetry "Connection failed due to inactivity"
      (false, c.onClose p true)
    else (true, c.reportRemovals env)
  | none => (true, c.reportRemovals env)

def onTestDelayTimer (c : Connection) (env : Env p) (silent : Bool) : Bool × Connection :=
  if silent then (false, c.onClose p true)
  else if c.lastTestDelay.isNone && !(c.portForwardSocket.isSome && c.authorized) then
    (true, { c with lastTestDelay := some env.now }.send (.networkTest c.networkDelay))
  else (true, c)

def seeing (c : Connection) (env : Env p) : Connection := c.modifyShared fun _ => env.shared

def handle (c : Connection) (env : Env p) : Event → Bool × Connection
  | .message msg =>
    let (keepAlive, c) := c.onMessage env msg
    -- the loop also ends when the connection has become a tunnel
    (keepAlive && !(c.portForwardSocket.isSome && c.authorized && c.lastTestDelay.isNone), c)
  | .cm e => c.onCm env e
  | .streamEnd => (false, c.onClose p true)
  | .printerData data => (true, c.onPrinterData env data)
  | .consoleClose =>
    let c := c.sendCloseReasonNoRetry "Closed manually by web console"
    (false, c.onClose p true)
  | .second => c.onSecond env
  | .testDelay silent => c.onTestDelayTimer env silent

end Connection

structure Loop where
  conn : Connection
  running : Bool

namespace Loop

variable {p : Platform}

def step (l : Loop) (i : Env p × Event) : Loop :=
  if l.running then
    let (keepAlive, conn) := (l.conn.seeing i.1).handle i.1 i.2
    ⟨conn, keepAlive⟩
  else l

theorem step_running {l : Loop} (h : l.running = true) (env : Env p) (e : Event) :
    l.step (env, e)
      = ⟨((l.conn.seeing env).handle env e).2, ((l.conn.seeing env).handle env e).1⟩ := by
  simp only [step, h, if_true]

theorem step_stopped {l : Loop} (h : l.running = false) (i : Env p × Event) : l.step i = l := by
  simp [step, h]

end Loop

namespace Connection

variable {p : Platform}

structure Meta where
  id : Int
  ip : String
  salt : String
  challenge : String
  /-- `ControlPermissions`, if the rendezvous server sent them. -/
  controlPermissions : Option UInt64
  /-- `get_2fa`. -/
  require2fa : Option Totp
  isHeadlessAllowed : Bool

/-- The connection as `start` builds it. -/
def new (env : Env p) (m : Meta) : Connection where
  authorized := false
  require2fa := m.require2fa
  fromSwitch := false
  connAuditPrimaryAuth := .none
  connAuditTwoFactor := .none
  lr := .default
  fileTransfer := none
  viewCamera := false
  terminal := false
  portForwardAddress := ""
  authedConnId := none
  lockAfterSessionEnd := false
  showRemoteCursor := false
  followRemoteCursor := false
  followRemoteWindow := false
  disableAudio := false
  enableFileTransfer := false
  disableClipboard := false
  disableKeyboard := false
  terminalPersistent := false
  showMyCursor := false
  id := m.id
  salt := m.salt
  challenge := m.challenge
  ip := m.ip
  controlPermissions := m.controlPermissions
  serverAuditConn := env.auditServer "conn"
  serverAuditFile := env.auditServer "file"
  keyboard := env.permission "enable-keyboard" m.controlPermissions
  clipboard := env.permission "enable-clipboard" m.controlPermissions
  audio := env.permission "enable-audio" m.controlPermissions
  file := env.permission "enable-file-transfer" m.controlPermissions
  restart := env.permission "enable-remote-restart" m.controlPermissions
  recording := env.permission "enable-record-session" m.controlPermissions
  blockInput := env.permission "enable-block-input" m.controlPermissions
  privacyMode := env.permission "enable-privacy-mode" m.controlPermissions
  displayIdx := env.primaryDisplayIdx
  portForwardSocket := none
  optionsInLogin := none
  videoAckRequired := false
  peerArgb := 0
  terminalServiceId := ""
  terminalUserToken := none
  terminalGenericService := false
  startCmIpcPara := true
  isHeadlessAllowed := m.isHeadlessAllowed
  chatUnanswered := false
  fileTransferred := false
  voiceCalling := false
  voiceCallRequestTimestamp := none
  audioSender := false
  servicesSubed := false
  multiUiSession := false
  closed := false
  lastTestDelay := none
  networkDelay := 0
  autoDisconnectTimer := none
  delayedReadDir := none
  readJobs := []
  cmReadJobIds := []
  printerData := []
  pressedModifiers := []
  scopeViolationMessages := []
  fileRemoveLogControl := ⟨env.now, [], []⟩
  shared := env.shared
  log := [.send (.hash m.salt m.challenge)]

def sendPermissions (c : Connection) (p : Platform) : Connection :=
  let tell (c : Connection) (permission : Permission) (enabled : Bool) : Connection :=
    if enabled then c else c.sendPermission permission false
  let c := if p.build.os = .android then c.sendPermission .keyboard c.keyboard
    else tell c .keyboard c.keyboard
  let c := tell c .clipboard c.clipboard
  let c := tell c .audio c.audio
  let c := tell c .file c.file
  let c := tell c .restart c.restart
  let c := tell c .recording c.recording
  let c := tell c .blockInput c.blockInput
  tell c .privacyMode c.privacyMode

def Meta.idle : Meta where
  id := 1
  ip := "10.0.0.1"
  salt := "salt"
  challenge := "challenge"
  controlPermissions := none
  require2fa := none
  isHeadlessAllowed := false

def start (env : Env p) (m : Meta) : Loop := ⟨(new env m).sendPermissions p, true⟩

end Connection
end RustDesk
