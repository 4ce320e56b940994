import RustDesk.Server.Options

/-!
# Login

From a login request, a second-factor code, the answer of switched sides or the
user's click to an authorized session.  A handler returns whether the connection
stays open, and the connection.
-/

namespace RustDesk

def loginMsgDesktopSessionNotReady : String := "Desktop session not ready"
def loginMsgDesktopSessionNotReadyPasswordEmpty : String :=
  "Desktop session not ready, password empty"
def loginMsgDesktopSessionNotReadyPasswordWrong : String :=
  "Desktop session not ready, password wrong"
def loginMsgPasswordWrong : String := "Wrong Password"
def loginMsg2faWrong : String := "Wrong 2FA Code"
def require2faMsg : String := "2FA Required"
def loginMsgNoPasswordAccess : String := "No Password Access"
def loginMsgOffline : String := "Offline"
def loginScreenWaylandMsg : String := "Wayland login screen is not supported"

def shouldUseTerminalOsLoginScope (p : Platform) (isTerminal : Bool) (username : String) : Bool :=
  p.build.os = .windows && isTerminal && trim username ≠ ""

def normalizePortForwardTarget (pf : PortForward) : String × Bool :=
  let isRdp := pf.host = "RDP" && pf.port = 0
  let host := if isRdp || pf.host = "" then "localhost" else pf.host
  let port := if isRdp then 3389 else pf.port
  (host ++ ":" ++ toString port, isRdp)

namespace Connection

variable {p : Platform}

def handleAdministratorCheck (c : Connection) (env : Env p) (username password : String) :
    Option String × Connection :=
  match env.adminCheck username password with
  | .admin => (none, { c with terminalUserToken := some none })
  | .notAdmin | .failed => (some "Incorrect username or password.", c)

def handleInstalledUser (c : Connection) (env : Env p) : Option String × Connection :=
  match env.currentUserToken with
  | .ok token => (none, { c with terminalUserToken := some (some token) })
  | .error msg => (some msg, c)

def fillTerminalUserToken (c : Connection) (env : Env p) (username password : String) :
    Option String × Connection :=
  if p.build.os = .windows then
    if username ≠ "" then c.handleAdministratorCheck env username password
    else if env.isPrelogin then
      (some "No active console user logged on, please connect and logon first.",
        { c with terminalUserToken := none })
    else if env.isInstalled then c.handleInstalledUser env
    else (none, { c with terminalUserToken := some none })
  else (none, { c with terminalUserToken := some none })

def terminalUserMismatch (c : Connection) (env : Env p) : Bool :=
  match env.serviceSpecifiedUser c.terminalServiceId, c.terminalUserToken with
  | some isUser, some token => isUser != token.isSome
  | _, _ => false

def checkTerminalServiceUser (c : Connection) (env : Env p) (isTerminalOsLogin : Bool) :
    Option Bool × Connection :=
  if c.terminalUserMismatch env then
    (some false, c.sendLoginError env "Terminal service user mismatch detected.")
  else (none, if isTerminalOsLogin then c.tryStartCmIpc else c)

def prepareTerminalLoginForAuthorization (c : Connection) (env : Env p) :
    Option Bool × Connection :=
  if p.build.mobile || !c.terminal || c.terminalUserToken.isSome then (none, c)
  else
    let username := trim c.lr.osUsername
    if shouldUseTerminalOsLoginScope p c.terminal username then
      match c.checkFailureWithScope env 0 .terminalOsLogin with
      | (none, c) => (some false, c)
      | (some failure, c) =>
        if !env.osLoginGate then
          let c := c.sendLoginError env "Please try 1 minute later"
          (some false, c.postAlarmAudit env .terminalOsLoginConcurrency "")
        else
          match c.fillTerminalUserToken env username c.lr.osPassword with
          | (some msg, c) =>
            let c := c.updateFailureWithScope env failure false 0 .terminalOsLogin
            (some false, c.sendLoginError env msg)
          | (none, c) =>
            let c := c.updateFailureWithScope env failure true 0 .terminalOsLogin
            c.checkTerminalServiceUser env true
    else
      match c.fillTerminalUserToken env username c.lr.osPassword with
      | (some msg, c) => (some false, c.sendLoginError env msg)
      | (none, c) => c.checkTerminalServiceUser env false

def initTerminalService (c : Connection) (env : Env p) : Connection :=
  match c.terminalUserToken with
  | none => c
  | some token =>
    let c := if c.terminalServiceId = "" then
        { c with terminalServiceId := env.generatedServiceId }
      else c
    let c := c.emit (.startTerminalService c.terminalServiceId c.terminalPersistent token)
    { c with terminalGenericService := true }

def connectPortForwardIfNeeded (c : Connection) (env : Env p) : Bool × Connection :=
  if c.portForwardSocket.isSome then (true, c)
  else
    match c.lr.union with
    | some (.portForward pf) =>
      let (addr, isRdp) := normalizePortForwardTarget pf
      let c := { c with portForwardAddress := addr }
      let c := c.emit (.portForwardConnect addr)
      if env.tcpConnect addr then (true, { c with portForwardSocket := some addr })
      else (false, c.sendLoginError env ("Failed to access remote "
        ++ (if isRdp then "RDP" else addr) ++ ". Please make sure it is reachable/open."))
    | _ => (true, c)

def connTypeToAuthorize (c : Connection) : Nat × AuthConnType :=
  if c.fileTransfer.isSome then (1, .fileTransfer)
  else if c.portForwardSocket.isSome then (2, .portForward)
  else if c.viewCamera then (3, .viewCamera)
  else if c.terminal then (4, .terminal)
  else (0, .remote)

def normalizeConnAuditAuthFields (c : Connection) : Connection :=
  match c.connAuditPrimaryAuth with
  | .click | .switchSides => { c with connAuditTwoFactor := .none }
  | _ => c

/-- `authorized = true`, and what is recorded about it. -/
def authorize (c : Connection) : Connection :=
  let (number, connType) := c.connTypeToAuthorize
  let printer := connType = .remote
    && getVersionNumber c.lr.version ≥ getVersionNumber "1.3.9"
    && c.lr.myPlatform = "Windows"
  let c := { c with authorized := true, authedConnId := some connType }
  let c := c.modifyShared fun s => { s with
    authedConns := s.authedConns ++ [⟨c.id, connType, c.sessionKey, printer⟩] }
  let c := c.normalizeConnAuditAuthFields
  if c.serverAuditConn = "" then c
  else c.emit (.audit (.connAuthorized c.lr.myId c.lr.myName number c.connAuditPrimaryAuth
    c.connAuditTwoFactor))

def trySubCameraDisplays (c : Connection) (env : Env p) : Connection :=
  if env.serverAlive then c.emit .addCameraConnection else c

/-- `get_auto_disconenct_timer`. -/
def getAutoDisconnectTimer (env : Env p) : Option (Int × Nat) :=
  if env.option "allow-auto-disconnect" = "Y" then
    let minute := (parseU64 (env.option "auto-disconnect-timeout").toList).getD 10
    some (env.now, if minute = 0 then 10 else minute)
  else none

def noperms (c : Connection) (env : Env p) : List Service :=
  (if !c.peerKeyboardEnabled && !c.showRemoteCursor then [.cursor] else [])
    ++ (if !c.showRemoteCursor then [.cursorPos] else [])
    ++ (if !c.followRemoteWindow then [.windowFocus] else [])
    ++ (if !c.canSubClipboardService env then [.clipboard] else [])
    ++ (if p.build.unixFileCopyPaste && !c.canSubFileClipboardService env then [.fileClipboard]
        else [])
    ++ (if !c.audioEnabled then [.audio] else [])

def trySubMonitorServices (c : Connection) (env : Env p) : Connection :=
  if c.isRemote && !c.servicesSubed then
    let c := { c with servicesSubed := true }
    if env.serverAlive then
      let c := { c with autoDisconnectTimer := getAutoDisconnectTimer env }
      c.emit (.addConnection (c.noperms env))
    else c
  else c

def updateCodecOnLogin (c : Connection) : Connection :=
  match c.lr.option with
  | some o => c.emit (.encoder o.supportedDecoding)
  | none => c.emit (.encoder none)

def onRemoteAuthorized (c : Connection) (env : Env p) : Connection :=
  let c := c.updateCodecOnLogin
  if (p.build.os = .windows || p.build.os = .linux)
      && env.getBoolOption "allow-remove-wallpaper" then c.emit .removeWallpaper
  else c

def waitSessionIdConfirm (c : Connection) (env : Env p) : Bool :=
  p.build.os = .windows && !c.terminal &&
    match env.currentSid with
    | some sid =>
      env.isInstalled && env.isShareRdp
        && (c.shared.authedConns.countP fun a => a.connType ≠ .portForward) = 1
        && env.sessionIds.length > 1 && env.sessionIds.contains sid
        && getVersionNumber c.lr.version ≥ getVersionNumber "1.2.4"
    | none => false

def displayServerError (env : Env p) : String :=
  if env.loginScreenWayland then loginScreenWaylandMsg
  else if env.displayServer ≠ "x11" && env.displayServer ≠ "wayland" then
    "Unsupported display server type \"" ++ env.displayServer ++ "\", x11 or wayland expected"
  else ""

def readDir (c : Connection) (dir : String) (includeHidden : Bool) : Connection :=
  c.sendFs (.readDir dir includeHidden)

def logonPeerInfo (c : Connection) (env : Env p) : PeerMessage :=
  .loginPeerInfo
    (if !p.build.mobile && c.fileTransfer.isSome && env.isPrelogin then "" else env.activeUsername)
    (p.build.os = .windows && env.isRoot)
    (if c.waitSessionIdConfirm env then env.sessionIds else []) env.peerInfo

def prepareRemoteLogon (c : Connection) (env : Env p) : Connection :=
  let c := match env.inputInitMsg with
    | some payload => c.send (.inited payload)
    | none => c
  if p.build.os = .windows then c.emit .activateScreen else c

def sendRemoteLogon (c : Connection) (env : Env p) : Bool × Connection :=
  let c := c.prepareRemoteLogon env
  match env.syncDisplays with
  | .error err => (false, (c.onRemoteAuthorized env).send (.loginError err false))
  | .ok _ => (true, (c.onRemoteAuthorized env).send (c.logonPeerInfo env))

def sendLogon (c : Connection) (env : Env p) : Bool × Connection :=
  if c.fileTransfer.isSome || c.terminal then (false, c.send (c.logonPeerInfo env))
  else if c.viewCamera then (false, c.updateCodecOnLogin.send (c.logonPeerInfo env))
  else c.sendRemoteLogon env

/-- The last part of `send_logon_response_and_keep_alive`. -/
def startSession (c : Connection) (env : Env p) (wait subService : Bool) : Connection :=
  match c.fileTransfer with
  | some (dir, showHidden) =>
    let c := { c with keyboard := false }
    let dir := if dir ≠ "" && env.isDir dir then dir else ""
    if wait then { c with delayedReadDir := some (dir, showHidden) }
    else c.readDir dir showHidden
  | none =>
    if c.terminal then
      let c := { c with keyboard := false }
      if p.build.mobile then c else c.initTerminalService env
    else if c.viewCamera then
      let c := if wait then c else c.trySubCameraDisplays env
      let c := { c with keyboard := false }
      c.sendPermission .keyboard false
    else if subService && !wait then c.trySubMonitorServices env
    else c

def logonResponse (c : Connection) (env : Env p) : Connection :=
  if c.portForwardSocket.isSome then
    c.send (.loginPeerInfo env.activeUsername false [] env.peerInfo)
  else if p.build.os = .linux && c.isRemote && displayServerError env ≠ "" then
    c.send (.loginError (displayServerError env) false)
  else
    let wait := c.waitSessionIdConfirm env
    let (subService, c) := c.sendLogon env
    let c := c.updateScopedLoginOptions env
    c.startSession env wait subService

def askFor2fa (c : Connection) (env : Env p) : Connection :=
  let c := if env.telegramBot then c.emit .telegramCode else c
  c.sendLoginError env require2faMsg

def lacks2fa (c : Connection) (env : Env p) : Bool × Connection :=
  if c.require2fa.isSome then
    let (recent, c) := c.isRecentSession env true
    (!recent && !c.fromSwitch, c)
  else (false, c)

def sendLogonResponseAndKeepAlive (c : Connection) (env : Env p) : Bool × Connection :=
  if c.authorized then (true, c)
  else
    let (lacking, c) := c.lacks2fa env
    if lacking then (true, c.askFor2fa env)
    else
      match c.prepareTerminalLoginForAuthorization env with
      | (some keepAlive, c) => (keepAlive, c)
      | (none, c) =>
        match c.connectPortForwardIfNeeded env with
        | (false, c) => (false, c)
        | (true, c) => (true, c.authorize.logonResponse env)

def checkTrustedDevice (c : Connection) (env : Env p) (lr : LoginRequest) : Connection :=
  if c.require2fa.isSome && lr.hwid ≠ [] && env.enableTrustedDevices then
    match c.shared.trustedDevices.find? fun d => d.hwid = lr.hwid with
    | some device =>
      if !device.outdate env.now && device.id = lr.myId && device.name = lr.myName
          && device.platform = lr.myPlatform then
        { c with connAuditTwoFactor := .trustedDevice, require2fa := none }
      else c
    | none => c
  else c

def handleLoginRequestWithoutValidation (c : Connection) (env : Env p) (lr : LoginRequest) :
    Connection :=
  let c := { c with
    lr := lr
    peerArgb := str2color (lr.myId ++ lr.myPlatform) 0xff
    optionsInLogin := lr.option.or c.optionsInLogin
    videoAckRequired := lr.videoAckRequired }
  c.checkTrustedDevice env lr

def resetSessionScopeForLogin (c : Connection) : Connection :=
  { c with
    fileTransfer := none
    viewCamera := false
    terminal := false
    portForwardAddress := ""
    terminalPersistent := false }

def enterScope (c : Connection) (env : Env p) (lr : LoginRequest) : Bool × Connection :=
  match lr.union with
  | some (.fileTransfer dir showHidden) =>
    if env.permission "enable-file-transfer" c.controlPermissions then
      (true, { c with fileTransfer := some (dir, showHidden) })
    else (false, c.sendLoginError env "No permission of file transfer")
  | some .viewCamera =>
    if env.permission "enable-camera" c.controlPermissions then
      (true, { c with viewCamera := true })
    else (false, c.sendLoginError env "No permission of viewing camera")
  | some (.terminal serviceId) =>
    if !env.permission "enable-terminal" c.controlPermissions then
      (false, c.sendLoginError env "No permission of terminal")
    else if p.build.os = .windows && lr.osUsername ≠ "" && !env.isInstalled then
      (false, c.sendLoginError env "Supported only in the installed version.")
    else
      let persistent := match c.optionsInLogin with
        | some o => decide (o.terminalPersistent = .ok .yes)
        | none => c.terminalPersistent
      (true, { c with
        terminal := true
        terminalPersistent := persistent
        terminalServiceId := serviceId })
  | some (.portForward pf) =>
    if env.permission "enable-tunnel" c.controlPermissions then
      (true, { c with portForwardAddress := (normalizePortForwardTarget pf).1 })
    else (false, c.sendLoginError env "No permission of IP tunneling")
  | none =>
    if env.inPrivacyMode then
      (false, c.sendLoginError env "Someone turns on privacy mode, exit")
    else (true, c)

/-- `should_check_linux_headless_os_auth_before_desktop_start`. -/
def shouldCheckLinuxHeadlessOsAuth (c : Connection) (env : Env p) (lr : LoginRequest) : Bool :=
  p.build.os = .linux && c.isHeadlessAllowed && trim lr.osUsername ≠ "" && env.desktopUsername = ""

def shouldRecordLinuxHeadlessOsAuthFailure (c : Connection) (p : Platform) (lr : LoginRequest)
    (errMsg : String) : Bool :=
  p.build.os = .linux && c.isHeadlessAllowed && trim lr.osUsername ≠ ""
    && errMsg = loginMsgPasswordWrong

def tryStartDesktop (c : Connection) (p : Platform) (lr : LoginRequest) : Connection :=
  if p.build.os = .linux && c.isHeadlessAllowed && lr.osUsername ≠ "" then
    c.emit (.tryStartDesktop lr.osUsername)
  else c

/-- `err_msg`: what starting the desktop said. -/
def startDesktopError (c : Connection) (env : Env p) (lr : LoginRequest) : String :=
  if p.build.os = .linux && c.isHeadlessAllowed then
    env.tryStartDesktop lr.osUsername lr.osPassword
  else ""

def passwordsThrottled (c : Connection) (env : Env p) : Bool := (c.checkFailure env 0).1.isNone

def codesAdmitted (c : Connection) (env : Env p) : Bool := (c.checkFailure env 1).1.isSome

def desktopFailed (c : Connection) (env : Env p) (lr : LoginRequest) (errMsg : String) :
    Bool × Connection :=
  if c.shouldRecordLinuxHeadlessOsAuthFailure p lr errMsg then
    match c.checkFailure env 0 with
    | (none, c) => (true, c)
    | (some failure, c) =>
      let c := c.updateFailureWithScope env failure false 0 .default
      (true, c.sendLoginError env errMsg)
  else (true, c.sendLoginError env errMsg)

def prepareBeforeClick (c : Connection) (env : Env p) (lr : LoginRequest) :
    Option Bool × Connection :=
  if shouldUseTerminalOsLoginScope p c.terminal lr.osUsername then
    c.prepareTerminalLoginForAuthorization env
  else (none, c)

def clickOnly (c : Connection) (env : Env p) (allowLogonScreenPassword : Bool) : Bool :=
  (env.approveMode = .click && !allowLogonScreenPassword)
    || (env.approveMode = .both && !c.hasValidPassword env)

def logonAndTell (c : Connection) (env : Env p) (lr : LoginRequest) : Bool × Connection :=
  match c.sendLogonResponseAndKeepAlive env with
  | (false, c) => (false, c)
  | (true, c) => (true, c.tryStartCm lr.myId lr.myName c.authorized)

def checkPassword (c : Connection) (env : Env p) (lr : LoginRequest) (errMsg : String)
    (allowLogonScreenPassword : Bool) : Bool × Connection :=
  match c.checkFailure env 0 with
  | (none, c) => (true, c)
  | (some failure, c) =>
    match c.validatePassword env allowLogonScreenPassword with
    | (false, c) =>
      let c := c.updateFailureWithScope env failure false 0 .default
      let c := c.checkUpdateTemporaryPassword env false
      if errMsg = "" then
        let c := c.sendLoginError env loginMsgPasswordWrong
        (true, c.tryStartCm lr.myId lr.myName false)
      else (true, c.sendLoginError env loginMsgDesktopSessionNotReadyPasswordWrong)
    | (true, c) =>
      let c := c.updateFailureWithScope env failure true 0 .default
      if errMsg = "" then c.logonAndTell env lr
      else (true, c.sendLoginError env errMsg)

/-- `get_builtin_option(OPTION_ALLOW_LOGON_SCREEN_PASSWORD) == "Y" && is_logon()`. -/
def allowLogonScreenPassword (env : Env p) : Bool :=
  env.builtinOption "allow-logon-screen-password" = "Y" && env.isLogon

def approveLogin (c : Connection) (env : Env p) (lr : LoginRequest) (errMsg : String) :
    Bool × Connection :=
  if c.clickOnly env (allowLogonScreenPassword env) then
    match c.prepareBeforeClick env lr with
    | (some keepAlive, c) => (keepAlive, c)
    | (none, c) =>
      let c := c.tryStartCm lr.myId lr.myName false
      (true, if getVersionNumber lr.version ≥ getVersionNumber "1.2.0" then
          c.sendLoginError env loginMsgNoPasswordAccess
        else c)
  else
    match c.isRecentSession env false with
    | (true, c) =>
      if errMsg = "" then c.logonAndTell env lr else (true, c.sendLoginError env errMsg)
    | (false, c) =>
      if lr.password = [] then
        if errMsg = "" then
          match c.prepareBeforeClick env lr with
          | (some keepAlive, c) => (keepAlive, c)
          | (none, c) => (true, c.tryStartCm lr.myId lr.myName false)
        else (true, c.sendLoginError env loginMsgDesktopSessionNotReadyPasswordEmpty)
      else c.checkPassword env lr errMsg (allowLogonScreenPassword env)

def headlessCheck (c : Connection) (env : Env p) (lr : LoginRequest) : Bool × Connection :=
  if c.shouldCheckLinuxHeadlessOsAuth env lr then
    let (failure, c) := c.checkFailure env 0
    (failure.isSome, c)
  else (true, c)

/-- The check of the system credentials, and the desktop of their user if it passes. -/
def headlessAdmission (c : Connection) (env : Env p) (lr : LoginRequest) : Bool × Connection :=
  let (admitted, c) := c.headlessCheck env lr
  (admitted, if admitted then c.tryStartDesktop p lr else c)

def startDesktopAndApprove (c : Connection) (env : Env p) (lr : LoginRequest) : Bool × Connection :=
  match c.headlessAdmission env lr with
  | (false, c) => (true, c)
  | (true, c) =>
    let errMsg := c.startDesktopError env lr
    if errMsg ≠ "" && errMsg ≠ loginMsgDesktopSessionNotReady then
      c.desktopFailed env lr errMsg
    else c.approveLogin env lr errMsg

def loginRejection (c : Connection) (env : Env p) (lr : LoginRequest) : Option String :=
  if !p.isDirectIpAccess lr.username && lr.username ≠ env.id then some loginMsgOffline
  else if p.build.os = .windows && c.terminal && trim lr.osUsername = "" && env.isPrelogin then
    some "No active console user logged on, please connect and logon first."
  else none

/-- The `LoginRequest` branch of `on_message`. -/
def onLoginRequest (c : Connection) (env : Env p) (lr : LoginRequest) : Bool × Connection :=
  let c := c.handleLoginRequestWithoutValidation env lr
  if c.authorized then (true, c)
  else
    match c.resetSessionScopeForLogin.enterScope env lr with
    | (false, c) => (false, c)
    | (true, c) =>
      match c.loginRejection env lr with
      | some msg => (false, c.sendLoginError env msg)
      | none =>
        let c := if !p.build.mobile
            && !shouldUseTerminalOsLoginScope p c.terminal lr.osUsername then
            c.tryStartCmIpc
          else c
        c.startDesktopAndApprove env lr

/-- `add_trusted_device`, for the peer that just gave its code. -/
def addTrustedDevice (c : Connection) (env : Env p) (hwid : Bytes) : Connection :=
  if hwid ≠ [] && env.enableTrustedDevices then
    c.modifyShared fun s => { s with
      trustedDevices := (s.trustedDevices.filter fun d => d.hwid ≠ hwid)
        ++ [⟨hwid, env.now, c.lr.myId, c.lr.myName, c.lr.myPlatform⟩] }
  else c

/-- The `Auth2fa` branch of `on_message`. -/
def onAuth2fa (c : Connection) (env : Env p) (code : String) (hwid : Bytes) : Bool × Connection :=
  match c.checkFailure env 1 with
  | (none, c) => (true, c)
  | (some failure, c) =>
    match c.require2fa with
    | none => (true, c)
    | some totp =>
      match env.checkCurrent totp code with
      | none => (true, c)
      | some false =>
        let c := c.updateFailureWithScope env failure false 1 .default
        (true, c.sendLoginError env loginMsg2faWrong)
      | some true =>
        let c := c.updateFailureWithScope env failure true 1 .default
        let c := { c with require2fa := none, connAuditTwoFactor := .totp }
        let c := c.setSession2fa env
        match c.logonAndTell env c.lr with
        | (false, c) => (false, c)
        | (true, c) => (true, c.addTrustedDevice env hwid)

/-- The identifier registered for a peer within the last ten seconds, taken out of
`SWITCH_SIDES_UUID`. -/
def takeSwitchSides (c : Connection) (env : Env p) (id : String) :
    Option (Int × Bytes) × Connection :=
  ((c.shared.switchSides id).filter fun v => env.now - v.1 < 10 * 1000,
    c.modifyShared fun s => { s with
      switchSides := fun other => if other = id then none
        else (s.switchSides other).filter fun v => env.now - v.1 < 10 * 1000 })

/-- The `SwitchSidesResponse` branch of `on_message`, with a login request. -/
def onSwitchSidesResponse (c : Connection) (env : Env p) (uuid : Bytes) (lr : LoginRequest) :
    Bool × Connection :=
  match c.takeSwitchSides env lr.myId with
  | (none, c) => (true, c)
  | (some registered, c) =>
    if uuid.length = 16 && uuid = registered.2 then
      if lr.union.isSome then (false, c.sendLoginError env "Connection not allowed")
      else
        let c := c.resetSessionScopeForLogin
        let c := c.handleLoginRequestWithoutValidation env lr
        let c := { c with fromSwitch := true }.setConnAuditPrimaryAuth .switchSides
        match c.logonAndTell env lr with
        | (false, c) => (false, c)
        | (true, c) => (true, c.tryStartCmIpc)
    else (true, c)

end Connection
end RustDesk
