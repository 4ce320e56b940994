import RustDesk.Fs.ReadJobs
import RustDesk.Server.Login

/-!
# Messages of an authorized peer

The branches of `on_message` after login, one function for each kind of message, and
`on_message` itself with the gate in front of them.
-/

namespace RustDesk

def MouseEvent.isLeftUp (me : MouseEvent) : Bool := me.mask / 8 = 1 && me.mask % 8 = 2

namespace KeyEvent

/-- `is_enter`: `Return` and `NumpadEnter`. -/
def isEnter (me : KeyEvent) : Bool :=
  match me.union with
  | some (.controlKey v) => v = 27 || v = 72
  | _ => false

/-- The two of `Alt`, `Shift`, `Control` and `Meta` each. -/
def isModifier (me : KeyEvent) : Bool :=
  match me.union with
  | some (.controlKey v) => [1, 29, 4, 23, 75, 73, 74, 64].contains v
  | _ => false

def modifier (me : KeyEvent) (p : Platform) : Option Nat :=
  match me.mode, me.union with
  | .ok .map, _ => p.modifierKey me.chr
  | .ok .translate, some (.chr code) => p.modifierKey (code % 2 ^ 16)
  | _, _ => none

end KeyEvent

namespace Connection

variable {p : Platform}

/-- The `MouseEvent` branch. -/
def onMouseEvent (c : Connection) (env : Env p) (me : MouseEvent) : Connection :=
  if c.isAuthedViewCameraConn then c
  else
    let adjusted := if p.build.os = .macos then env.retinaMouse me else me
    let c :=
      if p.build.mobile then c.emit (.input (.mouse me true false))
      else if c.peerKeyboardEnabled then
        let c := c.emit (if me.isLeftUp then .clickTime else .mouseMoveTime)
        c.emit (.input (.mouse adjusted true c.showMyCursor))
      else if c.showMyCursor then c.emit (.input (.mouse adjusted false true))
      else c
    c.updateAutoDisconnectTimer env

def onTouch (c : Connection) (touch : Option TouchEvent) : Connection :=
  match touch with
  | some (.panStart x y) => c.emit (.input (.touch 4 x y))
  | some (.panUpdate x y) => c.emit (.input (.touch 5 x y))
  | some (.panEnd x y) => c.emit (.input (.touch 6 x y))
  | _ => c

/-- The `PointerDeviceEvent` branch. -/
def onPointerDeviceEvent (c : Connection) (env : Env p) (pde : PointerDeviceEvent) : Connection :=
  if c.isAuthedViewCameraConn then c
  else
    let c :=
      if p.build.mobile then c.onTouch pde.touch
      else if c.peerKeyboardEnabled then (c.emit .mouseMoveTime).emit (.input (.pointer pde))
      else c
    c.updateAutoDisconnectTimer env

def pressModifier (c : Connection) (key : Option Nat) (isPress : Bool) : Connection :=
  match key with
  | some key =>
    { c with pressedModifiers := if isPress then c.pressedModifiers.insert key
        else c.pressedModifiers.erase key }
  | none => c

def inputKey (c : Connection) (p : Platform) (me : KeyEvent) : Connection :=
  let c := if me.isEnter then c.emit .clickTime else c
  let c := c.emit .mouseMoveTime
  let key := me.modifier p
  let isPress := if p.build.os = .linux then
      (me.press || me.down) && !(me.isModifier || key.isSome)
    else me.press
  let c := c.pressModifier key isPress
  let press := isPress && match me.union with
    | some (.unicode _) | some (.seq _) => false
    | _ => true
  c.emit (.input (.key me press))

/-- The `KeyEvent` branch. -/
def onKeyEvent (c : Connection) (env : Env p) (me : KeyEvent) : Connection :=
  if p.build.os = .ios || c.isAuthedViewCameraConn then c
  else if p.build.os = .android then
    let key := me.modifier p
    let c := c.pressModifier key
      ((me.press || me.down) && !(me.isModifier || key.isSome))
    let modifiers := c.pressedModifiers.filterMap p.mapKeyToControlKey
    c.emit (.input (.key { me with modifiers := modifiers } false))
  else
    let c := if c.peerKeyboardEnabled then c.inputKey p me else c
    c.updateAutoDisconnectTimer env

def shouldHandleTextClipboardMessage (c : Connection) : Bool := c.authedConnId = some .remote

/-- The `Clipboard` and `MultiClipboards` branches. -/
def onClipboard (c : Connection) (contents : List Bytes) : Connection :=
  if c.shouldHandleTextClipboardMessage && c.clipboardEnabled then
    c.emit (.updateClipboard contents)
  else c

def sendClip (c : Connection) (clip : Cliprdr) : Connection :=
  match clip with
  | .files files => c.postFileAudit .remoteSend "" files
  | .other payload => c.send (.cliprdr (.other payload))

/-- The `Cliprdr` branch. -/
def onCliprdr (c : Connection) (env : Env p) (clip : Cliprdr) : Connection :=
  if p.build.os = .windows || p.build.unixFileCopyPaste then
    match clip with
    | .files files => c.postFileAudit .remoteReceive "" files
    | .other payload =>
      match p.msg2clip payload with
      | none => c
      | some clip =>
        let c := if p.build.os = .windows then c.sendToCm (.clipboardFile (.other clip))
          else c
        if p.build.unixFileCopyPaste
            && getVersionNumber c.lr.version ≥ getVersionNumber "1.3.8" then
          (env.serveClipMessages clip).foldl sendClip (c.emit (.serveFileClipboard clip))
        else c
  else c

def processNewReadJob (c : Connection) (job : TransferJob) (path : String) : Connection :=
  let c := c.send (.fileDir job.id path job.files)
  let c := { c with readJobs := c.readJobs ++ [job] }
  c.postFileAudit .remoteSend (if job.type = .printer then "Remote print" else path)
    (getFilesForAudit job.type job.files)

def checkFileCountLimit (env : Env p) (count : Nat) : Option String :=
  if count > env.maxValidatedFiles then
    some ("file transfer rejected: too many files (" ++ toString count
      ++ " files exceeds limit of " ++ toString env.maxValidatedFiles
      ++ "). Adjust 'file-transfer-max-files' option to increase limit.")
  else none

def createAndStartReadJob (c : Connection) (env : Env p) (id : Int) (jobType : JobType)
    (source : DataSource) (fileNum : Int) (includeHidden overwriteDetection : Bool)
    (path : String) (checkFileLimit : Bool) : Connection :=
  let c := match source with
    | .filePath path => c.emit (.readFs path)
    | .memoryCursor _ => c
  match TransferJob.newRead (fun path => env.recursiveFiles path includeHidden) id jobType
      source fileNum overwriteDetection with
  | .error err => c.send (.fileError id err 0)
  | .ok job =>
    match if checkFileLimit then checkFileCountLimit env job.files.length else none with
    | some msg => c.send (.fileError id msg (-1))
    | none => c.processNewReadJob job path

/-- `can_enable_overwrite_detection` for the peer's version. -/
def overwriteDetection (c : Connection) : Bool :=
  getVersionNumber c.lr.version ≥ getVersionNumber "1.1.10"

/-- `AllFiles`. -/
def onAllFiles (c : Connection) (env : Env p) (id : Int) (path : String)
    (includeHidden : Bool) : Connection :=
  if env.needFsCmSendFiles then c.sendFs (.readAllFiles path id includeHidden c.id)
  else
    let c := c.emit (.readFs path)
    match env.recursiveFiles path includeHidden with
    | .error err => c.send (.fileError id err (-1))
    | .ok files =>
      match checkFileCountLimit env files.length with
      | some msg => c.send (.fileError id msg (-1))
      | none => c.send (.fileDir id path files)

/-- `Send`: the server sends to the client. -/
def onSend (c : Connection) (env : Env p) (id : Int) (path : String) (includeHidden : Bool)
    (fileNum : Int) (fileType : SendFileType) : Connection :=
  match JobType.fromProto fileType with
  | .generic =>
    let c := if env.needFsCmSendFiles then
        let c := { c with cmReadJobIds := c.cmReadJobIds.insert id }
        c.sendFs (.readFile path id fileNum includeHidden c.id c.overwriteDetection)
      else c.createAndStartReadJob env id .generic (.filePath path) fileNum includeHidden
        c.overwriteDetection path true
    { c with fileTransferred := true }
  | .printer =>
    match c.printerData.find? fun d => d.2.1 = path with
    | some (t, name, data) =>
      let c := { c with printerData := c.printerData.erase (t, name, data) }
      let c := c.createAndStartReadJob env id .printer (.memoryCursor data) fileNum
        includeHidden true path false
      { c with fileTransferred := true }
    | none => c

/-- `Receive`: the client sends to the server. -/
def onReceive (c : Connection) (id : Int) (path : String) (files : List FileEntry)
    (fileNum : Int) (totalSize : Nat) : Connection :=
  let c := c.sendFs (.newWrite path id fileNum (files.map fun f => (f.name, f.modifiedTime))
    c.overwriteDetection totalSize c.id)
  let c := c.postFileAudit .remoteReceive path (getFilesForAudit .generic files)
  { c with fileTransferred := true }

/-- `Cancel`. -/
def onCancel (c : Connection) (id : Int) : Connection :=
  let c := c.sendFs (.cancelWrite id)
  let c := { c with cmReadJobIds := c.cmReadJobIds.erase id }
  let c := c.sendFs (.cancelRead id c.id)
  match removeJob id c.readJobs with
  | (some job, jobs) =>
    { c with readJobs := jobs }.sendToCm (.fileTransferLog (.cancelled job))
  | (none, _) => c

/-- `SendConfirm`; a confirmation that indexes out of bounds ends the task. -/
def onSendConfirm (c : Connection) (env : Env p) (r : FileTransferSendConfirmRequest) :
    Bool × Connection :=
  if c.readJobs.any fun job => job.id = r.id then
    match ReadJobs.modifyJob r.id (fun job => job.confirm env.readIo r) c.readJobs with
    | some jobs => (true, { c with readJobs := jobs })
    | none => (false, c)
  else if c.cmReadJobIds.contains r.id then
    let skip := match r.union with
      | some (.skip s) => s
      | _ => false
    let offset := match r.union with
      | some (.offsetBlk offset) => offset
      | _ => 0
    (true, c.sendFs (.sendConfirmForRead r.id r.fileNum skip offset c.id))
  else (true, c.sendFs (.sendConfirm r))

/-- The components of a path; `none` stands for the root. -/
def pathComponents (path : String) : List (Option (List Char)) :=
  let cs := path.toList
  let parts := (cs.splitOn '/').filter fun part => part ≠ [] ∧ part ≠ ['.']
  let start := if cs.head? = some '/' then [none]
    else if (cs.splitOn '/').head? = some ['.'] then [some ['.']]
    else []
  start ++ parts.map some

/-- `direct_child`: `PathBuf::parent` of the child is the parent. -/
def directChild (parent child : String) : Bool :=
  match (pathComponents child).reverse with
  | some _ :: rest => rest.reverse = pathComponents parent
  | _ => false

def onRemoveFile (c : Connection) (env : Env p) (id : Int) (path : String) : Connection :=
  let f := c.fileRemoveLogControl
  { c with fileRemoveLogControl :=
      { f with instant := env.now, removedFiles := f.removedFiles ++ [(id, path)] } }

def onRemoveDir (c : Connection) (env : Env p) (id : Int) (path : String) : Connection :=
  let f := c.fileRemoveLogControl
  let dirs := f.removedDirs.filter fun x => !directChild path x.2
  { c with fileRemoveLogControl :=
      { instant := env.now
        removedFiles := f.removedFiles.filter fun x => !directChild x.2 path
        removedDirs := if dirs.any fun x => directChild x.2 path then dirs
          else dirs ++ [(id, path)] } }

def oneWayJobId : Option FileAction → Option Int
  | some (.send id _ _ _ _) => some id
  | some (.removeFile id _ _) => some id
  | some (.rename id _ _) => some id
  | some (.create id _) => some id
  | some (.removeDir id _ _) => some id
  | _ => none

def doFileAction (c : Connection) (env : Env p) (fa : Option FileAction) : Bool × Connection :=
  match fa with
  | some (.readEmptyDirs path includeHidden) =>
    (true, c.sendFs (.readEmptyDirs path includeHidden))
  | some (.readDir path includeHidden) => (true, c.readDir path includeHidden)
  | some (.allFiles id path includeHidden) => (true, c.onAllFiles env id path includeHidden)
  | some (.send id path includeHidden fileNum fileType) =>
    (true, c.onSend env id path includeHidden fileNum fileType)
  | some (.receive id path files fileNum totalSize) =>
    (true, c.onReceive id path files fileNum totalSize)
  | some (.removeDir id path isRecursive) =>
    (true, (c.sendFs (.removeDir path id isRecursive)).onRemoveDir env id path)
  | some (.removeFile id path fileNum) =>
    (true, (c.sendFs (.removeFile path id fileNum)).onRemoveFile env id path)
  | some (.create id path) =>
    (true, (c.sendFs (.createDir path id)).sendToCm (.fileTransferLog (.createDir id c.id path)))
  | some (.cancel id) => (true, c.onCancel id)
  | some (.sendConfirm r) => c.onSendConfirm env r
  | some (.rename id path newName) =>
    (true, (c.sendFs (.rename id path newName)).sendToCm
      (.fileTransferLog (.rename c.id path newName)))
  | none => (true, c)

def handlesFileAction (c : Connection) (fa : Option FileAction) : Bool :=
  c.fileTransfer.isSome ||
    match fa with
    | some (.send _ _ _ _ fileType) => JobType.fromProto fileType = .printer
    | _ => false

/-- The `FileAction` branch. -/
def onFileAction (c : Connection) (env : Env p) (fa : Option FileAction) : Bool × Connection :=
  if !c.handlesFileAction fa then (true, c)
  else if c.delayedReadDir.isSome then
    (true, match fa with
      | some (.readDir path includeHidden) =>
        { c with delayedReadDir := some (path, includeHidden) }
      | _ => c)
  else
    match if env.builtinOption "one-way-file-transfer" = "Y" then oneWayJobId fa else none with
    | some jobId => (true, c.send (.fileError jobId "one-way-file-transfer-tip" 0))
    | none => c.doFileAction env fa

/-- The `FileResponse` branch. -/
def onFileResponse (c : Connection) (fr : Option FileResponse) : Connection :=
  match fr with
  | some (.block b) => c.sendFs (.writeBlock b)
  | some (.done id fileNum) => c.sendFs (.writeDone id fileNum)
  | some (.digest id fileNum lastModified fileSize isResume) =>
    c.sendFs (.checkDigest id fileNum fileSize lastModified true isResume)
  | some (.error id err fileNum) => c.sendFs (.writeError id fileNum err)
  | _ => c

def changeResolution (c : Connection) (env : Env p) (display : Option Nat) (r : Resolution) :
    Connection :=
  match env.displayNames with
  | .error _ => c
  | .ok names =>
    match names[display.getD c.displayIdx]? with
    | some name =>
      if !c.keyboard then c
      else if p.build.os = .windows && env.virtualDisplayTakes name then
        c.emit (.changeResolution name r)
      else
        let c := if p.build.os = .windows && env.isAmyuniDisplay name then c
          else c.emit (.setLastChangedResolution name r)
        c.emit (.changeResolution name r)
    | none => c

def refreshVideoDisplay (c : Connection) (display : Option Nat) : Connection :=
  c.emit (.refreshVideo c.videoSource display)

def switchDisplayTo (c : Connection) (env : Env p) (displayIdx : Nat) : Connection :=
  let source := c.videoSource
  let old := c.displayIdx
  let c := { c with displayIdx := displayIdx }
  let c := if displayIdx ≠ env.primaryDisplayIdx then
      c.emit (.addVideoService source displayIdx)
    else c
  let c := if getVersionNumber c.lr.version ≥ getVersionNumber "1.2.4" then c
    else c.emit (.subscribe (.video source old) false)
  c.emit (.subscribe (.video source displayIdx) true)

def handleSwitchDisplay (c : Connection) (env : Env p) (display width height : Int) : Connection :=
  if c.displayIdx = asUsize display then c
  else
    let c := if env.serverAlive then
        let c := c.switchDisplayTo env (asUsize display)
        if !p.build.mobile && !c.viewCamera && width ≠ 0 && height ≠ 0 then
          c.changeResolution env none ⟨width, height⟩
        else c
      else c
    match env.displayChanged c.displayIdx with
    | some payload => c.send (.displayChanged payload)
    | none => c

/-- The list a `CaptureDisplays` message names: to add, else to remove, else to set. -/
def captureNamed (c : Connection) (source : VideoSource) (add sub set : List Nat) : Connection :=
  if add ≠ [] then c.emit (.captureDisplays source add true false)
  else if sub ≠ [] then c.emit (.captureDisplays source sub false true)
  else c.emit (.captureDisplays source set true true)

def captureDisplays (c : Connection) (env : Env p) (add sub set : List Nat) : Connection :=
  if env.serverAlive then
    let source := c.videoSource
    let c := (add ++ set).foldl (fun c display => c.emit (.addVideoService source display)) c
    let c := c.captureNamed source add sub set
    let c := { c with multiUiSession := env.subbedDisplaysCount > 1 }
    if c.followRemoteWindow then c.emit (.subscribe .windowFocus (!c.multiUiSession)) else c
  else c

def toggleVirtualDisplay (c : Connection) (env : Env p) (display : Int) (on : Bool) : Connection :=
  if on then
    if !env.virtualDisplaySupported then
      c.send (.messageBox "Virtual display" "idd_not_support_under_win10_2004_tip")
    else
      let c := c.emit (.plugInVirtualDisplay display)
      match env.plugInMonitor with
      | .ok _ => c
      | .error e =>
        c.send (.messageBox "Virtual display" ("Failed to plug in virtual display: " ++ e))
  else
    let c := c.emit (.plugOutVirtualDisplay display)
    match env.plugOutMonitor with
    | .ok _ => c
    | .error e =>
      c.send (.messageBox "Virtual display" ("Failed to plug out virtual displays: " ++ e))

def shouldHandleRenderBroadcastMessage (c : Connection) : Bool :=
  c.authedConnId = some .remote || c.authedConnId = some .viewCamera

def handleElevationRequest (c : Connection) (env : Env p) : Connection :=
  let c :=
    if !c.keyboard then c.send (.elevationResponse "No permission")
    else if env.isInstalled || env.portableRunning then
      c.send (.elevationResponse "No need to elevate")
    else
      (c.emit .startPortableService).send (.elevationResponse
        (match env.startPortableService with
          | .ok _ => ""
          | .error e => e))
  c.updateAutoDisconnectTimer env

/-- The `Option` branch. -/
def onOption (c : Connection) (env : Env p) (o : OptionMessage) : Connection :=
  if c.authedConnId = some .remote then c.updateOptions env o
  else
    match c.scopedUpdateOptionMessage o with
    | some kept => c.updateOptions env kept
    | none => c

/-- The `SelectedSid` branch. -/
def onSelectedSid (c : Connection) (env : Env p) (sid : Nat) : Bool × Connection :=
  match env.currentSid with
  | none => (true, c)
  | some current =>
    if env.isInstalled && env.isShareRdp
        && (c.shared.authedConns.countP fun a => a.connType ≠ .portForward) = 1
        && env.sessionIds.length > 1 && current ≠ sid && env.sessionIds.contains sid then
      (false, c.emit (.connectToUserSession sid))
    else if c.fileTransfer.isSome then
      (true, match c.delayedReadDir with
        | some (dir, showHidden) => { c with delayedReadDir := none }.readDir dir showHidden
        | none => c)
    else if c.viewCamera then (true, c.trySubCameraDisplays env)
    else if !c.terminal then (true, c.trySubMonitorServices env)
    else (true, c)

/-- The `SwitchSidesRequest` branch. -/
def onSwitchSidesRequest (c : Connection) (env : Env p) (uuid : Bytes) : Bool × Connection :=
  if uuid.length = 16 then
    let c := c.modifyShared fun s => { s with
      pendingSwitchSides := fun id => if id = c.lr.myId then some (env.now, uuid)
        else (s.pendingSwitchSides id).filter fun v => env.now - v.1 < 10 * 1000 }
    let c := c.emit (.switchSides c.lr.myId uuid)
    (false, c.onClose p false)
  else (true, c)

/-- The `Misc` branch. -/
def onMisc (c : Connection) (env : Env p) (misc : Option Misc) : Bool × Connection :=
  match misc with
  | some (.switchDisplay display width height) =>
    (true, c.handleSwitchDisplay env display width height)
  | some (.captureDisplays add sub set) =>
    (true, c.captureDisplays env (add.map asUsize) (sub.map asUsize) (set.map asUsize))
  | some (.toggleVirtualDisplay display on) =>
    (true, if p.build.os = .windows && !c.viewCamera then c.toggleVirtualDisplay env display on
      else c)
  | some (.togglePrivacyMode implKey on) =>
    (true, if !c.viewCamera then c.togglePrivacyMode env implKey on else c)
  | some (.chatMessage text) =>
    let c := { c.sendToCm (.chatMessage text) with chatUnanswered := true }
    (true, c.updateAutoDisconnectTimer env)
  | some (.option o) => (true, c.onOption env o)
  | some (.refreshVideo all) =>
    (true, if c.shouldHandleRenderBroadcastMessage then
        (if all then c.refreshVideoDisplay none else c).updateAutoDisconnectTimer env
      else c)
  | some (.refreshVideoDisplay display) =>
    (true, if c.shouldHandleRenderBroadcastMessage then
        (c.refreshVideoDisplay (some (asUsize display))).updateAutoDisconnectTimer env
      else c)
  | some (.videoReceived _) => (true, c.emit .videoFrameFetched)
  | some (.restartRemoteDevice _) =>
    (true, if !p.build.mobile && c.restart then c.emit .reboot else c)
  | some (.elevationRequest (some _)) =>
    (true, if p.build.os = .windows then c.handleElevationRequest env else c)
  | some (.audioFormat payload) =>
    (true, if c.disableAudio then c else { c with audioSender := true }.emit (.audioFormat payload))
  | some (.switchSidesRequest uuid) =>
    if p.build.flutter && !p.build.mobile then c.onSwitchSidesRequest env uuid else (true, c)
  | some (.changeResolution r) =>
    (true, if !p.build.mobile && !c.viewCamera then c.changeResolution env none r else c)
  | some (.changeDisplayResolution display r) =>
    (true, if !p.build.mobile && !c.viewCamera then
        c.changeResolution env (some (asUsize display)) r
      else c)
  | some (.pluginRequest id content) =>
    (true, if p.build.flutter && p.build.pluginFramework && !p.build.mobile then
        (c.emit (.pluginEvent id content)).send (.plugin (env.pluginResponse id content))
      else c)
  | some (.autoAdjustFps fps) => (true, c.emit (.qos (.autoAdjustFps fps)))
  | some (.clientRecordStatus status) => (true, c.emit (.qos (.record status)))
  | some (.selectedSid sid) =>
    if p.build.os = .windows then c.onSelectedSid env sid else (true, c)
  | some (.messageQuery switchDisplay) =>
    (true, match env.displayChanged switchDisplay with
      | some payload => c.send (.displayChanged payload)
      | none => c)
  | _ => (true, c)

/-- The `AudioFrame` branch. -/
def onAudioFrame (c : Connection) (data : Bytes) : Connection :=
  if !c.disableAudio && c.audioSender then c.emit (.audioFrame data) else c

/-- The `VoiceCallRequest` branch. -/
def onVoiceCallRequest (c : Connection) (env : Env p) (reqTimestamp : Int) (isConnect : Bool) :
    Connection :=
  if isConnect then
    let ts := if reqTimestamp ≠ 0 then reqTimestamp else env.now
    { c with voiceCallRequestTimestamp := some ts }.sendToCm .voiceCallIncoming
  else c.closeVoiceCall env

/-- The `ScreenshotRequest` branch. -/
def onScreenshotRequest (c : Connection) (display : Int) (sid : String) : Connection :=
  (c.emit (.screenshot c.videoSource display sid)).refreshVideoDisplay (some (asUsize display))

def handleTerminalAction (c : Connection) (env : Env p) (action : Bytes) : Connection :=
  match c.terminalUserToken with
  | none => c
  | some _ =>
    let c := c.emit (.terminalAction c.terminalServiceId action)
    match env.terminalAction action with
    | .ok (some response) => c.send (.terminalResponse response)
    | .ok none => c
    | .error err => c.send (.terminalError ("Failed to handle action: " ++ err))

def onAuthorizedMessage (c : Connection) (env : Env p) (msg : Message) : Bool × Connection :=
  if c.portForwardSocket.isSome then (true, c)
  else
    match msg with
    | .mouseEvent me => (true, c.onMouseEvent env me)
    | .pointerDeviceEvent pde => (true, c.onPointerDeviceEvent env pde)
    | .keyEvent me => (true, c.onKeyEvent env me)
    | .clipboard content => (true, c.onClipboard [content])
    | .multiClipboards contents =>
      (true, if p.build.os = .ios then c else c.onClipboard contents)
    | .cliprdr clip => (true, c.onCliprdr env clip)
    | .fileAction fa => c.onFileAction env fa
    | .fileResponse fr => (true, c.onFileResponse fr)
    | .misc misc => c.onMisc env misc
    | .audioFrame data => (true, c.onAudioFrame data)
    | .voiceCallRequest reqTimestamp isConnect =>
      (true, c.onVoiceCallRequest env reqTimestamp isConnect)
    | .screenshotRequest display sid => (true, c.onScreenshotRequest display sid)
    | .terminalAction action =>
      (true, if p.build.mobile then c else c.handleTerminalAction env action)
    | _ => (true, c)

/-- The `TestDelay` branch. -/
def onTestDelay (c : Connection) (env : Env p) (time : Int) (fromClient : Bool) : Connection :=
  if fromClient then c.send (.testDelay time fromClient)
  else
    match c.lastTestDelay with
    | some tm =>
      let delay := env.now - tm
      let c := { c with lastTestDelay := none }.emit (.qos (.networkDelay delay))
      { c with networkDelay := delay }
    | none => c

/-- What `on_message` does with a message that got past the gate. -/
def dispatch (c : Connection) (env : Env p) (msg : Message) : Bool × Connection :=
  match msg with
  | .loginRequest lr => c.onLoginRequest env lr
  | .auth2fa code hwid => c.onAuth2fa env code hwid
  | .testDelay time fromClient => (true, c.onTestDelay env time fromClient)
  | .switchSidesResponse uuid lr =>
    match lr with
    | some lr =>
      if p.build.flutter && !p.build.mobile then c.onSwitchSidesResponse env uuid lr
      else (true, c)
    | none => (true, c)
  | msg => if c.authorized then c.onAuthorizedMessage env msg else (true, c)

def authorizedScopeViolation (c : Connection) (p : Platform) (msg : Message) : Option String :=
  match c.authedConnId with
  | none => if isConnectionHousekeepingMessage msg then none else some "session.auth_type"
  | some connType => authorizedMessageScopeViolation p.build connType msg

def gate (c : Connection) (env : Env p) (msg : Message) : Bool × Connection :=
  match msg with
  | .loginRequest _ => (true, c)
  | msg =>
    match c.authorizedScopeViolation p msg with
    | some violation => c.handleAuthorizedScopeViolation env violation
    | none => c.dispatch env msg

def onMessage (c : Connection) (env : Env p) (msg : Message) : Bool × Connection :=
  match msg with
  | .misc (some (.closeReason _)) => (false, (c.onClose p true).checkRemoveSession)
  | msg => if c.authorized then c.gate env msg else c.dispatch env msg

end Connection
end RustDesk
