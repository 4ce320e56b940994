import RustDesk.Server.Connection

/-!
# Options, privacy mode and closing

What an option message changes, one field after the other, and the pieces that login
and the handlers share: privacy mode, the voice call, the end of a connection.
-/

namespace RustDesk

/-- `Ok(q)` with `q != NotSet`, as `q == Yes`. -/
def setTo (o : EnumOrUnknown BoolOption) : Option Bool :=
  match o with
  | .ok .yes => some true
  | .ok .no => some false
  | _ => none

namespace Connection

variable {p : Platform}

def turnOffPrivacyResultToMsg (res : PrivacyResult Unit) (implKey : String) : PeerMessage :=
  match res with
  | some (.ok _) => .privacyMode .prvOffSucceeded "" implKey
  | some (.error e) => .privacyMode .prvOffFailed e implKey
  | none => .privacyMode .prvOffFailed "Not supported" implKey

def privacyModeUnsupported : String :=
  "Unsupported. 1 Multi-screen is not supported. 2 Please confirm the license is activated."

def turnOffPrivacy (c : Connection) (env : Env p) (implKey : String) : Connection :=
  if env.privacyModeSupported then
    (c.emit .turnOffPrivacy).send (turnOffPrivacyResultToMsg env.turnOffPrivacy implKey)
  else c.send (.privacyMode .prvNotSupported privacyModeUnsupported implKey)

def sendPreviousPrivacyOff (c : Connection) (env : Env p) : Connection :=
  match env.currentImplKey with
  | some key =>
    if env.inPrivacyMode && !env.isCurrentImpl key then
      c.send (.privacyMode .prvOffSucceeded "" key)
    else c
  | none => c

def turnOnPrivacy (c : Connection) (env : Env p) (implKey : String) : Connection :=
  if !c.isAuthedRemoteConn || !c.privacyMode then
    c.send (.privacyMode .prvOnFailedDenied "" implKey)
  else if !env.privacyModeSupported then
    c.send (.privacyMode .prvNotSupported privacyModeUnsupported implKey)
  else
    let c := c.sendPreviousPrivacyOff env
    let c := c.emit (.turnOnPrivacy implKey)
    match env.turnOnPrivacy implKey with
    | some (.ok true) =>
      if env.checkPrivacyModeErr = "" then c.send (.privacyMode .prvOnSucceeded "" implKey)
      else (c.emit .turnOffPrivacy).send
        (.privacyMode .prvOnFailed env.checkPrivacyModeErr implKey)
    | some (.ok false) => c.send (.privacyMode .prvOnFailedPlugin "" implKey)
    | some (.error e) =>
      let c := if env.inPrivacyMode then c.emit .turnOffPrivacy else c
      c.send (.privacyMode .prvOnFailed e implKey)
    | none => c.send (.privacyMode .prvOffFailed "Not supported" implKey)

def togglePrivacyMode (c : Connection) (env : Env p) (implKey : String) (on : Bool) : Connection :=
  if on then c.turnOnPrivacy env implKey else c.turnOffPrivacy env implKey

def handleVoiceCall (c : Connection) (env : Env p) (accepted : Bool) : Connection :=
  match c.voiceCallRequestTimestamp with
  | none => c
  | some ts =>
    let c := { c with voiceCallRequestTimestamp := none }
    let c := if accepted then (c.emit (.voiceCallInputDevice true)).sendToCm .startVoiceCall
      else c.sendToCm .closeVoiceCall
    let c := c.send (.voiceCallResponse ts accepted)
    let c := { c with voiceCalling := accepted }
    if c.isAuthedViewCameraConn then c.subscribe env .audio (c.audioEnabled && accepted)
    else c

def closeVoiceCall (c : Connection) (env : Env p) : Connection :=
  let c := c.emit (.voiceCallInputDevice false)
  let c := c.sendToCm .closeVoiceCall
  let c := { c with voiceCalling := false }
  if c.isAuthedViewCameraConn then c.subscribe env .audio false else c

/-- The image quality of `update_options`. -/
def updateImageQuality (c : Connection) (o : OptionMessage) : Connection :=
  match o.imageQuality with
  | .error _ => c
  | .ok q =>
    let quality := if q = .notSet then
        (if o.customImageQuality > 0 then o.customImageQuality else -1)
      else q.value
    if quality > 0 then c.emit (.qos (.imageQuality quality)) else c

def updateCustomFps (c : Connection) (o : OptionMessage) : Connection :=
  if o.customFps > 0 then c.emit (.qos (.customFps o.customFps)) else c

def updateSupportedDecoding (c : Connection) (o : OptionMessage) : Connection :=
  match o.supportedDecoding with
  | some q => c.emit (.encoder (some q))
  | none => c

def updateLockAfterSessionEnd (c : Connection) (o : OptionMessage) : Connection :=
  match setTo o.lockAfterSessionEnd with
  | some b => { c with lockAfterSessionEnd := b }
  | none => c

def updateShowRemoteCursor (c : Connection) (env : Env p) (o : OptionMessage) : Connection :=
  match setTo o.showRemoteCursor with
  | some b =>
    if p.build.mobile then c
    else
      let c := { c with showRemoteCursor := b }
      let c := c.subscribe env .cursor (c.peerKeyboardEnabled || c.showRemoteCursor)
      c.subscribe env .cursorPos c.showRemoteCursor
  | none => c

def updateFollowRemoteCursor (c : Connection) (p : Platform) (o : OptionMessage) : Connection :=
  match setTo o.followRemoteCursor with
  | some b => if p.build.mobile then c else { c with followRemoteCursor := b }
  | none => c

def updateFollowRemoteWindow (c : Connection) (env : Env p) (o : OptionMessage) : Connection :=
  match setTo o.followRemoteWindow with
  | some b => { c with followRemoteWindow := b }.subscribe env .windowFocus b
  | none => c

def updateDisableAudio (c : Connection) (env : Env p) (o : OptionMessage) : Connection :=
  match setTo o.disableAudio with
  | some b =>
    let c := { c with disableAudio := b }
    if c.isAuthedViewCameraConn && !(c.voiceCalling || !c.audioEnabled) then c
    else c.subscribe env .audio c.audioEnabled
  | none => c

def tryEmptyFileClipboard (c : Connection) : Connection := c.emit .emptyFileClipboard

def updateEnableFileTransfer (c : Connection) (env : Env p) (o : OptionMessage) : Connection :=
  match setTo o.enableFileTransfer with
  | some b =>
    if p.build.os = .windows || p.build.unixFileCopyPaste then
      let c := { c with enableFileTransfer := b }
      let c := if p.build.os = .windows then
          c.sendToCm (.clipboardFileEnabled c.fileTransferEnabled)
        else c
      if p.build.unixFileCopyPaste then
        let c := if b then c else c.tryEmptyFileClipboard
        c.subscribe env .fileClipboard (c.canSubFileClipboardService env)
      else c
    else c
  | none => c

def updateDisableClipboard (c : Connection) (env : Env p) (o : OptionMessage) : Connection :=
  match setTo o.disableClipboard with
  | some b =>
    let c := { c with disableClipboard := b }
    c.subscribe env .clipboard (c.canSubClipboardService env)
  | none => c

def updateDisableKeyboard (c : Connection) (env : Env p) (o : OptionMessage) : Connection :=
  match setTo o.disableKeyboard with
  | some b =>
    let c := { c with disableKeyboard := b }
    let c := c.subscribe env .clipboard (c.canSubClipboardService env)
    let c := if p.build.unixFileCopyPaste then
        c.subscribe env .fileClipboard (c.canSubFileClipboardService env)
      else c
    c.subscribe env .cursor (c.peerKeyboardEnabled || c.showRemoteCursor)
  | none => c

def updatePrivacyMode (c : Connection) (env : Env p) (o : OptionMessage) : Connection :=
  if getVersionNumber c.lr.version < getVersionNumber "1.2.4" && c.keyboard then
    match setTo o.privacyMode with
    | some true => c.turnOnPrivacy env ""
    | some false => c.turnOffPrivacy env ""
    | none => c
  else c

def updateBlockInput (c : Connection) (o : OptionMessage) : Connection :=
  match setTo o.blockInput with
  | some b =>
    if c.keyboard && c.blockInput then c.emit (.input (if b then .blockOn else .blockOff))
    else c.send (.blockInputError b "No permission")
  | none => c

def updateTerminalPersistence (c : Connection) (persistent : Bool) : Connection :=
  { c with terminalPersistent := persistent }.emit
    (.setTerminalPersistent c.terminalServiceId persistent)

def updateTerminalPersistent (c : Connection) (p : Platform) (o : OptionMessage) : Connection :=
  match setTo o.terminalPersistent with
  | some b => if p.build.mobile then c else c.updateTerminalPersistence b
  | none => c

def showMyCursorUnsupported (env : Env p) : String :=
  if p.build.os = .windows && !env.win10OrGreater then "Windows 10 or greater is required."
  else if p.build.os = .linux && !env.whiteboardSupported then
    "This feature is not supported on native Wayland, please install XWayland or switch to X11."
  else ""

def updateShowMyCursor (c : Connection) (env : Env p) (o : OptionMessage) : Connection :=
  match setTo o.showMyCursor with
  | some b =>
    if p.build.mobile then c
    else
      let c := { c with showMyCursor := b }
      if showMyCursorUnsupported env = "" then c.emit (.whiteboard b)
      else if b then c.send (.messageBox "Show my cursor" (showMyCursorUnsupported env))
      else c
  | none => c

def updateOptions (c : Connection) (env : Env p) (o : OptionMessage) : Connection :=
  let c := c.updateImageQuality o
  let c := c.updateCustomFps o
  let c := c.updateSupportedDecoding o
  let c := c.updateLockAfterSessionEnd o
  let c := c.updateShowRemoteCursor env o
  let c := c.updateFollowRemoteCursor p o
  let c := c.updateFollowRemoteWindow env o
  let c := c.updateDisableAudio env o
  let c := c.updateEnableFileTransfer env o
  let c := c.updateDisableClipboard env o
  let c := c.updateDisableKeyboard env o
  let c := c.updatePrivacyMode env o
  let c := c.updateBlockInput o
  let c := c.updateTerminalPersistent p o
  c.updateShowMyCursor env o

def updateScopedLoginOptions (c : Connection) (env : Env p) : Connection :=
  match c.optionsInLogin with
  | none => c
  | some option =>
    let c := { c with optionsInLogin := none }
    match c.authedConnId with
    | none => c
    | some connType =>
      match (scopedLoginOption connType option).1 with
      | some kept => c.updateOptions env kept
      | none => c

def scopedUpdateOptionMessage (c : Connection) (o : OptionMessage) : Option OptionMessage :=
  match c.authedConnId with
  | some .viewCamera => o.scopedViewCamera.1
  | some .terminal => o.scopedTerminalLogin.1
  | _ => none

def onClose (c : Connection) (p : Platform) (lock : Bool) : Connection :=
  if c.closed then c
  else
    let c := { c with closed := true, portForwardSocket := none }
    let c := c.emit (.voiceCallInputDevice false)
    let c := if lock && c.lockAfterSessionEnd && c.keyboard && !p.build.mobile then
        c.emit (.input .lockScreen)
      else c
    if !p.build.mobile && (c.chatUnanswered || c.fileTransferred && p.build.flutter) then
      c.sendToCm .disconnected
    else c.sendToCm .close

def sendCloseReasonNoRetry (c : Connection) (reason : String) : Connection :=
  (c.send (.closeReason
    (if reason = "" then "Closed manually by the peer" else reason))).checkRemoveSession

def postSessionScopeViolationAlarm (c : Connection) (env : Env p) (message : String) : Connection :=
  c.postAlarmAudit env .sessionScopeViolation message

def noteScopeViolation (c : Connection) (env : Env p) (message : String) : Connection :=
  let isFirst := !c.scopeViolationMessages.contains message
  let c := { c with scopeViolationMessages := c.scopeViolationMessages.insert message }
  if isFirst && env.getBoolOption "allow-scope-violation-alarm" then
    c.postSessionScopeViolationAlarm env message
  else c

def handleAuthorizedScopeViolation (c : Connection) (env : Env p) (message : String) :
    Bool × Connection :=
  let c := c.noteScopeViolation env message
  if env.getBoolOption "allow-scope-violation-close" then
    let c := c.sendCloseReasonNoRetry "Connection not allowed"
    (false, c.onClose p true)
  else (true, c)

end Connection
end RustDesk
