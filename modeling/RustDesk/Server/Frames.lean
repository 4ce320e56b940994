import RustDesk.Server.Loop

/-!
# What the handlers leave alone

Only login, options and the end of a connection touch its `frame`: who the peer is
and what it was let in for.  Every other handler is `Steady A`: it keeps the frame
and does nothing outside `A`.  The lemmas are stated for any `A` that has what the
handler may do, so that they serve both for all sessions and for those of one type.
-/

namespace RustDesk

open Logged

@[grind] def Effect.plain : Effect → Bool
  | .toCm (.login _) => false
  | _ => true

@[grind] def Effect.waiting : Effect → Bool
  | .toCm (.login _) => false
  | .subscribe _ on => !on
  | .addConnection _ | .addCameraConnection | .addVideoService _ _ | .captureDisplays _ _ _ _ =>
    false
  | _ => true

/-- What a session of a type may do once it is authorized.  A tunnel only answers the
delay test; files, terminals and cameras are for the sessions named after them. -/
@[grind] def Effect.inScope (connType : AuthConnType) : Effect → Bool
  | .send (.closeReason _) | .send (.testDelay _ _) => true
  | .send (.fileError _ _ _) | .send (.fileDir _ _ _) => connType = .fileTransfer
  | .send (.displayChanged _) => connType = .viewCamera
  | .send (.terminalResponse _) | .send (.terminalError _) => connType = .terminal
  | .toCm .close | .toCm .disconnected => true
  | .toCm (.chatMessage _) => connType = .viewCamera || connType = .terminal
  | .toCm (.fs _) | .toCm (.fileTransferLog _) => connType = .fileTransfer
  | .toCm .voiceCallIncoming | .toCm .closeVoiceCall => connType = .viewCamera
  | .audit (.alarm .sessionScopeViolation _) => true
  | .audit (.file _ _ _) => connType = .fileTransfer
  | .readFs _ => connType = .fileTransfer
  | .terminalAction _ _ | .setTerminalPersistent _ _ => connType = .terminal
  | .qos (.networkDelay _) => true
  | .qos (.imageQuality _) | .qos (.customFps _) | .qos (.record _) => connType = .viewCamera
  | .encoder _ => connType = .viewCamera
  | .subscribe .audio _ | .subscribe (.video .camera _) _ => connType = .viewCamera
  | .addCameraConnection | .addVideoService .camera _ | .captureDisplays .camera _ _ _ =>
    connType = .viewCamera
  | .refreshVideo .camera _ | .videoFrameFetched | .screenshot .camera _ _ =>
    connType = .viewCamera
  | .audioFormat _ | .audioFrame _ => connType = .viewCamera
  | .voiceCallInputDevice on => !on
  | .connectToUserSession _ => connType = .fileTransfer || connType = .viewCamera
  | _ => false

@[grind] def Effect.display (source : VideoSource) : Effect → Bool
  | .addVideoService s _ | .captureDisplays s _ _ _ | .refreshVideo s _ | .screenshot s _ _
  | .subscribe (.video s _) _ => s = source
  | .send (.displayChanged _) => true
  | _ => false

namespace Connection

def frame (c : Connection) : Auth × PeerOptions × Option String :=
  (c.toAuth, c.toPeerOptions, c.portForwardSocket)

/-- The frame is kept, and nothing outside `A` is done. -/
abbrev Steady (A : Effect → Prop) : Connection → Connection → Prop := Within log frame A

/-- The same without a word about options and the socket. -/
abbrev Quiet (A : Effect → Prop) : Connection → Connection → Prop := Within log toAuth A

/-- Done by every handler outside login. -/
abbrev Plain (e : Effect) : Prop := e.plain = true

/-- Done while the peer waits. -/
abbrev Waits (e : Effect) : Prop := e.waiting = true

/-- Done in sessions of this type only. -/
abbrev InScope (connType : AuthConnType) (e : Effect) : Prop := e.inScope connType = true

theorem InScope.plain {connType : AuthConnType} {e : Effect} (h : InScope connType e) :
    Plain e := by
  cases e with
  | toCm d => cases d with
    | login => exact absurd h (by simp [Effect.inScope])
    | _ => rfl
  | _ => rfl

theorem Waits.plain {e : Effect} (h : Waits e) : Plain e := by
  cases e with
  | toCm d => cases d with
    | login => exact absurd h (by simp [Effect.waiting])
    | _ => rfl
  | _ => rfl

variable {p : Platform} {env : Env p} {A : Effect → Prop} {c c' c'' : Connection}

theorem ofWaits {φ : Type} {view : Connection → φ} (h : Within log view Waits c c') :
    Within log view Plain c c' :=
  h.mono fun _ => Waits.plain

theorem Steady.quiet (h : Steady A c c') : Quiet A c c' :=
  ⟨h.emits, congrArg Prod.fst h.same⟩

theorem Steady.auth (h : Steady A c c') : c'.toAuth = c.toAuth := h.quiet.same

theorem Steady.plain {connType : AuthConnType} (h : Steady (InScope connType) c c') :
    Steady Plain c c' :=
  h.mono fun _ => InScope.plain

namespace Steady

@[grind ←] theorem refl (c : Connection) : Steady A c c := Within.refl c

theorem trans (h : Steady A c c') (h' : Steady A c' c'') : Steady A c c'' := Within.trans h h'

theorem of_eq {β : Type} {r : β × Connection} {b : β} (h : Steady A c r.2) (hr : r = (b, c')) :
    Steady A c c' := by
  rw [hr] at h
  exact h

theorem set (h : Steady A c c') (hlog : c''.log = c'.log) (hframe : c''.frame = c'.frame) :
    Steady A c c'' :=
  h.trans (.silent hlog hframe)

@[grind ←] theorem emit (h : Steady A c c') {e : Effect} (he : A e) : Steady A c (c'.emit e) :=
  h.trans (.one rfl rfl he)

@[grind ←] theorem send (h : Steady A c c') {m : PeerMessage} (he : A (.send m)) :
    Steady A c (c'.send m) :=
  h.emit he

@[grind ←] theorem sendToCm (h : Steady A c c') {d : CmData} (he : A (.toCm d)) :
    Steady A c (c'.sendToCm d) :=
  h.emit he

@[grind ←] theorem sendFs (h : Steady A c c') {r : FsRequest} (he : A (.toCm (.fs r))) :
    Steady A c (c'.sendFs r) :=
  h.emit he

@[grind ←] theorem sendPermission (h : Steady A c c') {q : Permission} {b : Bool}
    (he : A (.send (.permission q b))) : Steady A c (c'.sendPermission q b) :=
  h.emit he

theorem ite (h : Steady A c c') (h' : Steady A c c'') {q : Prop} [Decidable q] :
    Steady A c (if q then c' else c'') := by
  split
  · exact h
  · exact h'

theorem ite_of {q : Prop} [Decidable q] (h : q → Steady A c c') (h' : ¬q → Steady A c c'') :
    Steady A c (if q then c' else c'') := by
  split
  · exact h ‹q›
  · exact h' ‹¬q›

@[grind ←] theorem subscribe (h : Steady A c c') {service : Service} {on : Bool}
    (he : A (.subscribe service on)) : Steady A c (c'.subscribe env service on) :=
  .ite (h.emit he) h

@[grind ←] theorem postAlarmAudit (h : Steady A c c') {typ : AlarmAuditType}
    {message : String} (he : A (.audit (.alarm typ message))) :
    Steady A c (c'.postAlarmAudit env typ message) :=
  .ite h (h.emit he)

@[grind ←] theorem postFileAudit (h : Steady A c c') {type : FileAuditType} {path : String}
    {files : List (String × Nat)} (he : ∀ files, A (.audit (.file type path files))) :
    Steady A c (c'.postFileAudit type path files) :=
  .ite h (h.emit (he _))

@[grind ←] theorem sendLoginError (h : Steady A c c') {err : String}
    (he : ∀ b, A (.send (.loginError err b))) : Steady A c (c'.sendLoginError env err) :=
  h.send (he _)

@[grind ←] theorem updateAutoDisconnectTimer (h : Steady A c c') :
    Steady A c (c'.updateAutoDisconnectTimer env) :=
  h.set rfl rfl

@[grind ←] theorem modifyShared (h : Steady A c c') {f : Shared → Shared} :
    Steady A c (c'.modifyShared f) :=
  h.set rfl rfl

@[grind ←] theorem tryStartCmIpc (h : Steady A c c') (he : A .startCmIpc) :
    Steady A c c'.tryStartCmIpc := by
  unfold Connection.tryStartCmIpc
  split
  · exact (h.emit he).set rfl rfl
  · exact h

@[grind ←] theorem updateFailureWithScope (h : Steady A c c') {failure : FailureEntry}
    {remove : Bool} {i : Fin 2} {scope : FailureScope} :
    Steady A c (c'.updateFailureWithScope env failure remove i scope) :=
  h.modifyShared

@[grind ←] theorem setSession2fa (h : Steady A c c') : Steady A c (c'.setSession2fa env) :=
  h.set rfl rfl

@[grind ←] theorem checkRemoveSession (h : Steady A c c') : Steady A c c'.checkRemoveSession :=
  .ite (.ite h.modifyShared h) h

@[grind ←] theorem checkUpdateTemporaryPassword (h : Steady A c c') {success : Bool} :
    Steady A c (c'.checkUpdateTemporaryPassword env success) :=
  .ite h (.ite h.modifyShared (.ite h.modifyShared h.modifyShared))

@[grind ←] theorem refreshVideoDisplay (h : Steady A c c') {display : Option Nat}
    (he : A (.refreshVideo c'.videoSource display)) : Steady A c (c'.refreshVideoDisplay display) :=
  h.emit he

theorem foldl_emit {α : Type} {xs : List α} {e : α → Effect} (h : Steady A c c')
    (he : ∀ x ∈ xs, A (e x)) : Steady A c (xs.foldl (fun c x => c.emit (e x)) c') := by
  induction xs generalizing c' with
  | nil => exact h
  | cons x xs ih =>
    rw [List.foldl_cons]
    exact ih (h.emit (he x (by simp))) fun y hy => he y (by simp [hy])

end Steady

theorem checkFailureWithScope_steady {i : Fin 2} {scope : FailureScope} :
    Steady Waits c (c.checkFailureWithScope env i scope).2 := by
  unfold Connection.checkFailureWithScope
  dsimp only
  split <;> dsimp only
  · exact (Steady.refl c).modifyShared
  · exact ((Steady.refl c).modifyShared.sendLoginError fun _ => rfl).postAlarmAudit rfl

theorem closeVoiceCall_steady (hdevice : A (.voiceCallInputDevice false))
    (hclose : A (.toCm .closeVoiceCall)) (haudio : A (.subscribe .audio false)) :
    Steady A c (c.closeVoiceCall env) := by
  have h : Steady A c { (c.emit (.voiceCallInputDevice false)).sendToCm .closeVoiceCall with
      voiceCalling := false } :=
    (((Steady.refl c).emit hdevice).sendToCm hclose).set rfl rfl
  unfold closeVoiceCall
  grind

theorem handleVoiceCall_steady {accepted : Bool} (hA : ∀ e, Waits e → A e)
    (hcamera : c.isAuthedViewCameraConn = true → ∀ on, A (.subscribe .audio on)) :
    Steady A c (c.handleVoiceCall env accepted) := by
  unfold handleVoiceCall
  split
  · exact .refl c
  · rename_i ts _
    have hready : Steady Waits c { c with voiceCallRequestTimestamp := none } :=
      (Steady.refl c).set rfl rfl
    have hanswer : Steady Waits c (Connection.send (if accepted then
        ({ c with voiceCallRequestTimestamp := none }.emit (.voiceCallInputDevice true)).sendToCm
          .startVoiceCall
        else { c with voiceCallRequestTimestamp := none }.sendToCm .closeVoiceCall)
        (.voiceCallResponse ts accepted)) := by
      grind
    have hset : Steady A c { (Connection.send (if accepted then
        ({ c with voiceCallRequestTimestamp := none }.emit (.voiceCallInputDevice true)).sendToCm
          .startVoiceCall
        else { c with voiceCallRequestTimestamp := none }.sendToCm .closeVoiceCall)
        (.voiceCallResponse ts accepted)) with voiceCalling := accepted } :=
      Steady.set (hanswer.mono hA) rfl rfl
    refine Steady.ite_of (fun htype => hset.subscribe (hcamera ?_ _)) fun _ => hset
    rw [← htype]
    simp only [isAuthedViewCameraConn]
    split <;> rfl

variable {implKey : String}

theorem turnOffPrivacy_steady : Steady Plain c (c.turnOffPrivacy env implKey) := by
  unfold turnOffPrivacy
  grind

theorem turnOnPrivacy_steady : Steady Plain c (c.turnOnPrivacy env implKey) := by
  unfold turnOnPrivacy sendPreviousPrivacyOff
  grind

theorem togglePrivacyMode_steady {on : Bool} :
    Steady Plain c (c.togglePrivacyMode env implKey on) := by
  unfold togglePrivacyMode
  grind [turnOnPrivacy_steady, turnOffPrivacy_steady]

theorem onMouseEvent_steady {me : MouseEvent} : Steady Plain c (c.onMouseEvent env me) := by
  unfold onMouseEvent
  grind

theorem onPointerDeviceEvent_steady {pde : PointerDeviceEvent} :
    Steady Plain c (c.onPointerDeviceEvent env pde) := by
  unfold onPointerDeviceEvent onTouch
  grind

@[grind ←] theorem Steady.pressModifier (h : Steady A c c') {key : Option Nat}
    {isPress : Bool} : Steady A c (c'.pressModifier key isPress) := by
  unfold Connection.pressModifier
  split
  · exact h.set rfl rfl
  · exact h

theorem onKeyEvent_steady {me : KeyEvent} : Steady Plain c (c.onKeyEvent env me) := by
  have hkey : Steady Plain c (c.inputKey p me) := by
    unfold inputKey
    grind
  unfold onKeyEvent
  grind

theorem onClipboard_steady {contents : List Bytes} : Steady Plain c (c.onClipboard contents) := by
  unfold onClipboard
  grind

@[grind ←] theorem Steady.sendClip (h : Steady Plain c c') {clip : Cliprdr} :
    Steady Plain c (c'.sendClip clip) := by
  unfold Connection.sendClip
  grind

@[grind ←] theorem Steady.foldl_sendClip {clips : List Cliprdr} (h : Steady Plain c c') :
    Steady Plain c (clips.foldl Connection.sendClip c') := by
  induction clips generalizing c' with
  | nil => exact h
  | cons clip clips ih => exact ih h.sendClip

theorem onCliprdr_steady {clip : Cliprdr} : Steady Plain c (c.onCliprdr env clip) := by
  unfold onCliprdr
  split
  · split
    · exact (Steady.refl c).postFileAudit fun _ => rfl
    · split
      · exact .refl c
      · rename_i clip _
        have hcm : Steady Plain c (if p.build.os = .windows then
            c.sendToCm (.clipboardFile (.other clip)) else c) := by
          grind
        refine Steady.ite (Steady.foldl_sendClip (hcm.emit ?_)) hcm
        rfl
  · exact .refl c

variable {path : String}

@[grind ←] theorem Steady.processNewReadJob (h : Steady (InScope .fileTransfer) c c')
    {job : TransferJob} : Steady (InScope .fileTransfer) c (c'.processNewReadJob job path) := by
  have hsent : Steady (InScope .fileTransfer) c { c'.send (.fileDir job.id path job.files) with
      readJobs := c'.readJobs ++ [job] } :=
    (h.send rfl).set rfl rfl
  exact hsent.postFileAudit fun _ => rfl

variable {id : Int} {fileNum : Int}

theorem createAndStartReadJob_steady {jobType : JobType}
    {source : DataSource} {includeHidden od : Bool}
    {checkFileLimit : Bool} :
    Steady (InScope .fileTransfer) c (c.createAndStartReadJob env id jobType source fileNum
      includeHidden od path checkFileLimit) := by
  unfold createAndStartReadJob
  extract_lets started
  have hread : Steady (InScope .fileTransfer) c started := by
    cases source <;> grind
  split
  · exact hread.send rfl
  · split
    · exact hread.send rfl
    · exact hread.processNewReadJob

theorem onAllFiles_steady {includeHidden : Bool} :
    Steady (InScope .fileTransfer) c (c.onAllFiles env id path includeHidden) := by
  unfold onAllFiles
  grind

theorem onSend_steady {includeHidden : Bool} {fileType : SendFileType} :
    Steady (InScope .fileTransfer) c (c.onSend env id path includeHidden fileNum fileType) := by
  have h : Steady (InScope .fileTransfer) c c := .refl c
  unfold onSend
  split
  · have hread : Steady (InScope .fileTransfer) c (if env.needFsCmSendFiles then
        { c with cmReadJobIds := c.cmReadJobIds.insert id }.sendFs
          (.readFile path id fileNum includeHidden c.id c.overwriteDetection)
        else c.createAndStartReadJob env id .generic (.filePath path) fileNum includeHidden
          c.overwriteDetection path true) := by
      split
      · refine Steady.sendFs (h.set ?_ ?_) ?_ <;> rfl
      · exact createAndStartReadJob_steady
    exact hread.set rfl rfl
  · split
    · rename_i t name data _
      have htake : Steady (InScope .fileTransfer) c
          { c with printerData := c.printerData.erase (t, name, data) } := h.set rfl rfl
      exact Steady.set (htake.trans createAndStartReadJob_steady) rfl rfl
    · exact h

theorem onReceive_steady {files : List FileEntry} {totalSize : Nat} :
    Steady (InScope .fileTransfer) c (c.onReceive id path files fileNum totalSize) := by
  have h : Steady (InScope .fileTransfer) c c := .refl c
  have hwrite : Steady (InScope .fileTransfer) c ((c.sendFs (.newWrite path id fileNum
      (files.map fun f => (f.name, f.modifiedTime)) c.overwriteDetection totalSize
      c.id)).postFileAudit .remoteReceive path (getFilesForAudit .generic files)) :=
    (h.sendFs rfl).postFileAudit fun _ => rfl
  exact hwrite.set rfl rfl

theorem onCancel_steady : Steady (InScope .fileTransfer) c (c.onCancel id) := by
  have h : Steady (InScope .fileTransfer) c c := .refl c
  have hwrite : Steady (InScope .fileTransfer) c
      { c.sendFs (.cancelWrite id) with cmReadJobIds := c.cmReadJobIds.erase id } :=
    (h.sendFs (r := .cancelWrite id) rfl).set rfl rfl
  have hread := hwrite.sendFs (r := .cancelRead id c.id) rfl
  unfold onCancel
  dsimp only
  split
  · refine Steady.sendToCm (hread.set ?_ ?_) ?_ <;> rfl
  · exact hread

theorem onSendConfirm_steady {r : FileTransferSendConfirmRequest} :
    Steady (InScope .fileTransfer) c (c.onSendConfirm env r).2 := by
  unfold onSendConfirm
  split
  · split
    · exact (Steady.refl c).set rfl rfl
    · exact .refl c
  · split <;> exact (Steady.refl c).sendFs rfl

theorem doFileAction_steady {fa : Option FileAction} :
    Steady (InScope .fileTransfer) c (c.doFileAction env fa).2 := by
  have hfs : ∀ r, Steady (InScope .fileTransfer) c (c.sendFs r) :=
    fun r => (Steady.refl c).sendFs rfl
  unfold doFileAction
  split
  · exact hfs _
  · exact hfs _
  · exact onAllFiles_steady
  · exact onSend_steady
  · exact onReceive_steady
  · exact (hfs _).set rfl rfl
  · exact (hfs _).set rfl rfl
  · exact (hfs _).sendToCm rfl
  · exact onCancel_steady
  · exact onSendConfirm_steady
  · exact (hfs _).sendToCm rfl
  · exact .refl c

theorem onFileAction_steady {fa : Option FileAction} :
    Steady (InScope .fileTransfer) c (c.onFileAction env fa).2 := by
  unfold onFileAction
  split
  · exact .refl c
  · split
    · dsimp only
      split
      · exact (Steady.refl c).set rfl rfl
      · exact .refl c
    · split
      · exact (Steady.refl c).send rfl
      · exact doFileAction_steady

theorem onFileResponse_steady {fr : Option FileResponse} :
    Steady (InScope .fileTransfer) c (c.onFileResponse fr) := by
  unfold onFileResponse
  grind

theorem changeResolution_steady {display : Option Nat} {r : Resolution}
    (hchange : ∀ d, A (.changeResolution d r)) (hset : ∀ d, A (.setLastChangedResolution d r)) :
    Steady A c (c.changeResolution env display r) := by
  unfold changeResolution
  grind

theorem switchDisplayTo_steady {displayIdx : Nat}
    (hA : ∀ e : Effect, e.display c.videoSource = true → A e) :
    Steady A c (c.switchDisplayTo env displayIdx) := by
  have h : Steady A c { c with displayIdx := displayIdx } := (Steady.refl c).set rfl rfl
  have hvideo : ∀ i on, A (.subscribe (.video c.videoSource i) on) := fun _ _ => hA _ (by
    simp [Effect.display])
  have hadd : ∀ i, A (.addVideoService c.videoSource i) := fun _ => hA _ (by simp [Effect.display])
  unfold switchDisplayTo
  refine Steady.emit ?_ (hvideo _ _)
  refine Steady.ite ?_ (Steady.emit ?_ (hvideo _ _))
  · exact .ite (h.emit (hadd _)) h
  · exact .ite (h.emit (hadd _)) h

theorem handleSwitchDisplay_steady {display width height : Int}
    (hA : ∀ e : Effect, e.display c.videoSource = true → A e)
    (hchange : c.viewCamera = false → ∀ d r, A (.changeResolution d r))
    (hset : c.viewCamera = false → ∀ d r, A (.setLastChangedResolution d r)) :
    Steady A c (c.handleSwitchDisplay env display width height) := by
  have hswitch : Steady A c (c.switchDisplayTo env (asUsize display)) := switchDisplayTo_steady hA
  have hmsg : ∀ payload, A (.send (.displayChanged payload)) := fun _ => hA _ rfl
  have hresolution : (c.switchDisplayTo env (asUsize display)).viewCamera = false →
      Steady A c ((c.switchDisplayTo env (asUsize display)).changeResolution env none
        ⟨width, height⟩) := by
    intro hview
    have hsame : c.viewCamera = false := by
      rw [← hview]
      exact congrArg (fun f => f.1.viewCamera) hswitch.same.symm
    exact hswitch.trans (changeResolution_steady (fun _ => hchange hsame _ _)
      fun _ => hset hsame _ _)
  unfold handleSwitchDisplay
  grind

theorem captureDisplays_steady {add sub set : List Nat}
    (hA : ∀ e : Effect, e.display c.videoSource = true → A e)
    (hfocus : c.followRemoteWindow = true → ∀ on, A (.subscribe .windowFocus on)) :
    Steady A c (c.captureDisplays env add sub set) := by
  have hcapture : ∀ displays i e, A (.captureDisplays c.videoSource displays i e) :=
    fun _ _ _ => hA _ (by simp [Effect.display])
  have hadd : Steady A c ((add ++ set).foldl
      (fun c' display => c'.emit (.addVideoService c.videoSource display)) c) :=
    (Steady.refl c).foldl_emit fun _ _ => hA _ (by simp [Effect.display])
  have hnamed : Steady A c (Connection.captureNamed ((add ++ set).foldl
      (fun c' display => c'.emit (.addVideoService c.videoSource display)) c)
      c.videoSource add sub set) := by
    unfold captureNamed
    grind
  have hkept : (Connection.captureNamed ((add ++ set).foldl
      (fun c' display => c'.emit (.addVideoService c.videoSource display)) c)
      c.videoSource add sub set).followRemoteWindow = c.followRemoteWindow :=
    congrArg (fun f => f.2.1.followRemoteWindow) hnamed.same
  unfold captureDisplays
  refine Steady.ite ?_ (.refl c)
  refine Steady.ite_of (fun h => Steady.emit (hnamed.set ?_ ?_) (hfocus ?_ _))
    fun _ => hnamed.set ?_ ?_
  · rfl
  · rfl
  · exact hkept ▸ h
  · rfl
  · rfl

theorem onScreenshotRequest_steady {display : Int} {sid : String}
    (hA : ∀ e : Effect, e.display c.videoSource = true → A e) :
    Steady A c (c.onScreenshotRequest display sid) := by
  have hsource : (c.emit (.screenshot c.videoSource display sid)).videoSource = c.videoSource := rfl
  refine Steady.refreshVideoDisplay ((Steady.refl c).emit (hA _ ?_)) (hA _ ?_)
  · simp [Effect.display]
  · simp [Effect.display, hsource]

theorem toggleVirtualDisplay_steady {display : Int} {on : Bool} :
    Steady Plain c (c.toggleVirtualDisplay env display on) := by
  unfold toggleVirtualDisplay
  grind

theorem trySubCameraDisplays_steady (hA : A .addCameraConnection) :
    Steady A c (c.trySubCameraDisplays env) := by
  unfold trySubCameraDisplays
  grind

theorem trySubMonitorServices_steady (hA : ∀ noperms, A (.addConnection noperms)) :
    Steady A c (c.trySubMonitorServices env) := by
  have hsubed : Steady A c { c with servicesSubed := true } := (Steady.refl c).set rfl rfl
  have htimer : Steady A c { c with
      servicesSubed := true, autoDisconnectTimer := getAutoDisconnectTimer env } :=
    (Steady.refl c).set rfl rfl
  exact .ite (.ite (htimer.emit (hA _)) hsubed) (.refl c)

theorem handleElevationRequest_steady : Steady Plain c (c.handleElevationRequest env) := by
  unfold handleElevationRequest
  grind

theorem onSelectedSid_steady {sid : Nat}
    (hsid : ∀ sid, A (.connectToUserSession sid))
    (hdir : c.fileTransfer.isSome = true → ∀ dir hidden, A (.toCm (.fs (.readDir dir hidden))))
    (hcamera : c.fileTransfer.isSome = false → c.viewCamera = true → A .addCameraConnection)
    (hmonitor : c.fileTransfer.isSome = false → c.viewCamera = false →
      ∀ noperms, A (.addConnection noperms)) :
    Steady A c (c.onSelectedSid env sid).2 := by
  unfold onSelectedSid
  split
  · exact .refl c
  · split
    · exact (Steady.refl c).emit (hsid _)
    · split
      · rename_i hfile
        dsimp only
        split
        · refine Steady.sendFs ((Steady.refl c).set ?_ ?_) (hdir hfile _ _) <;> rfl
        · exact .refl c
      · rename_i hfile
        split
        · rename_i hview
          exact trySubCameraDisplays_steady (hcamera (by simpa using hfile) hview)
        · rename_i hview
          split
          · exact trySubMonitorServices_steady (hmonitor (by simpa using hfile)
              (by simpa using hview))
          · exact .refl c

theorem onAudioFrame_steady {data : Bytes} :
    Steady (InScope .viewCamera) c (c.onAudioFrame data) := by
  unfold onAudioFrame
  grind

theorem onVoiceCallRequest_steady {ts : Int} {isConnect : Bool} :
    Steady (InScope .viewCamera) c (c.onVoiceCallRequest env ts isConnect) := by
  have hclose : Steady (InScope .viewCamera) c (c.closeVoiceCall env) := by
    apply closeVoiceCall_steady <;> rfl
  refine Steady.ite (Steady.sendToCm ((Steady.refl c).set ?_ ?_) ?_) hclose <;> rfl

theorem handleTerminalAction_steady {action : Bytes} :
    Steady (InScope .terminal) c (c.handleTerminalAction env action) := by
  unfold handleTerminalAction
  grind

theorem onTestDelay_steady {time : Int} {fromClient : Bool}
    (hsend : A (.send (.testDelay time fromClient))) (hqos : ∀ d, A (.qos (.networkDelay d))) :
    Steady A c (c.onTestDelay env time fromClient) := by
  have h : Steady A c { c with lastTestDelay := none } := (Steady.refl c).set rfl rfl
  unfold onTestDelay
  split
  · exact (Steady.refl c).send hsend
  · split
    · exact (h.emit (hqos _)).set rfl rfl
    · exact .refl c

namespace Quiet

@[grind ←] theorem refl (c : Connection) : Quiet A c c := Within.refl c

@[grind ←] theorem emit (h : Quiet A c c') {e : Effect} (he : A e) : Quiet A c (c'.emit e) :=
  h.trans (.one rfl rfl he)

@[grind ←] theorem sendToCm (h : Quiet A c c') {d : CmData} (he : A (.toCm d)) :
    Quiet A c (c'.sendToCm d) :=
  h.emit he

@[grind ←] theorem subscribe (h : Quiet A c c') {service : Service} {on : Bool}
    (he : A (.subscribe service on)) : Quiet A c (c'.subscribe env service on) :=
  h.trans (Steady.quiet ((Steady.refl c').subscribe he))

end Quiet

variable {lock : Bool}

theorem onClose_quiet (hdevice : A (.voiceCallInputDevice false))
    (hclose : A (.toCm .close)) (hdisconnected : A (.toCm .disconnected))
    (hlock : c.lockAfterSessionEnd = true → A (.input .lockScreen)) :
    Quiet A c (c.onClose p lock) := by
  have hclosed : Quiet A c { c with closed := true, portForwardSocket := none } := .silent rfl rfl
  have hkept : ({ c with closed := true, portForwardSocket := none }.emit
      (.voiceCallInputDevice false)).lockAfterSessionEnd = c.lockAfterSessionEnd := rfl
  unfold onClose
  split
  · exact .refl c
  · grind

theorem onClose_plain : Quiet Plain c (c.onClose p lock) :=
  onClose_quiet rfl rfl rfl fun _ => rfl

theorem onClose_options : (c.onClose p lock).toPeerOptions = c.toPeerOptions := by
  unfold onClose
  split
  · rfl
  · dsimp only
    split <;> split <;> rfl

section Options

variable {o : OptionMessage}

theorem updateImageQuality_steady (hA : ∀ q, A (.qos (.imageQuality q))) :
    Steady A c (c.updateImageQuality o) := by
  unfold updateImageQuality
  grind

theorem updateCustomFps_steady (hA : ∀ fps, A (.qos (.customFps fps))) :
    Steady A c (c.updateCustomFps o) := by
  unfold updateCustomFps
  grind

theorem updateSupportedDecoding_steady (hA : ∀ q, A (.encoder q)) :
    Steady A c (c.updateSupportedDecoding o) := by
  unfold updateSupportedDecoding
  grind

theorem updateDisableAudio_quiet (hA : ∀ on, A (.subscribe .audio on)) :
    Quiet A c (c.updateDisableAudio env o) := by
  unfold updateDisableAudio
  split
  · rename_i b _
    have hset : Quiet A c { c with disableAudio := b } := .silent rfl rfl
    grind
  · exact .refl c

theorem updateTerminalPersistent_quiet (hA : ∀ id b, A (.setTerminalPersistent id b)) :
    Quiet A c (c.updateTerminalPersistent p o) := by
  unfold updateTerminalPersistent updateTerminalPersistence
  split
  · rename_i b _
    have hset : Quiet A c { c with terminalPersistent := b } := .silent rfl rfl
    grind
  · exact .refl c

theorem updateLockAfterSessionEnd_quiet : Quiet Plain c (c.updateLockAfterSessionEnd o) := by
  unfold updateLockAfterSessionEnd
  split
  · exact .silent rfl rfl
  · exact .refl c

theorem updateShowRemoteCursor_quiet : Quiet Plain c (c.updateShowRemoteCursor env o) := by
  unfold updateShowRemoteCursor
  split
  · rename_i b _
    have hset : Quiet Plain c { c with showRemoteCursor := b } := .silent rfl rfl
    grind
  · exact .refl c

theorem updateFollowRemoteCursor_quiet : Quiet Plain c (c.updateFollowRemoteCursor p o) := by
  unfold updateFollowRemoteCursor
  split
  · split
    · exact .refl c
    · exact .silent rfl rfl
  · exact .refl c

theorem updateFollowRemoteWindow_quiet : Quiet Plain c (c.updateFollowRemoteWindow env o) := by
  unfold updateFollowRemoteWindow
  split
  · rename_i b _
    have hset : Quiet Plain c { c with followRemoteWindow := b } := .silent rfl rfl
    exact hset.subscribe rfl
  · exact .refl c

theorem updateEnableFileTransfer_quiet : Quiet Plain c (c.updateEnableFileTransfer env o) := by
  unfold updateEnableFileTransfer tryEmptyFileClipboard
  split
  · rename_i b _
    have hset : Quiet Plain c { c with enableFileTransfer := b } := .silent rfl rfl
    grind
  · exact .refl c

theorem updateDisableClipboard_quiet : Quiet Plain c (c.updateDisableClipboard env o) := by
  unfold updateDisableClipboard
  split
  · rename_i b _
    have hset : Quiet Plain c { c with disableClipboard := b } := .silent rfl rfl
    exact hset.subscribe rfl
  · exact .refl c

theorem updateDisableKeyboard_quiet : Quiet Plain c (c.updateDisableKeyboard env o) := by
  unfold updateDisableKeyboard
  split
  · rename_i b _
    have hset : Quiet Plain c { c with disableKeyboard := b } := .silent rfl rfl
    grind
  · exact .refl c

theorem updatePrivacyMode_steady : Steady Plain c (c.updatePrivacyMode env o) := by
  unfold updatePrivacyMode
  split
  · split
    · exact turnOnPrivacy_steady
    · exact turnOffPrivacy_steady
    · exact .refl c
  · exact .refl c

theorem updateBlockInput_steady : Steady Plain c (c.updateBlockInput o) := by
  unfold updateBlockInput
  grind

theorem updateShowMyCursor_quiet : Quiet Plain c (c.updateShowMyCursor env o) := by
  unfold updateShowMyCursor send
  split
  · rename_i b _
    have hset : Quiet Plain c { c with showMyCursor := b } := .silent rfl rfl
    grind
  · exact .refl c

theorem updateOptions_quiet : Quiet Plain c (c.updateOptions env o) := by
  unfold updateOptions
  dsimp only
  refine Within.trans ?_ updateShowMyCursor_quiet
  refine Within.trans ?_ (updateTerminalPersistent_quiet fun _ _ => rfl)
  refine Within.trans ?_ updateBlockInput_steady.quiet
  refine Within.trans ?_ updatePrivacyMode_steady.quiet
  refine Within.trans ?_ updateDisableKeyboard_quiet
  refine Within.trans ?_ updateDisableClipboard_quiet
  refine Within.trans ?_ updateEnableFileTransfer_quiet
  refine Within.trans ?_ (updateDisableAudio_quiet fun _ => rfl)
  refine Within.trans ?_ updateFollowRemoteWindow_quiet
  refine Within.trans ?_ updateFollowRemoteCursor_quiet
  refine Within.trans ?_ updateShowRemoteCursor_quiet
  refine Within.trans ?_ updateLockAfterSessionEnd_quiet
  refine Within.trans ?_ (updateSupportedDecoding_steady fun _ => rfl).quiet
  refine Within.trans ?_ (updateCustomFps_steady fun _ => rfl).quiet
  exact (updateImageQuality_steady fun _ => rfl).quiet

theorem onOption_quiet : Quiet Plain c (c.onOption env o) := by
  unfold onOption
  split
  · exact updateOptions_quiet
  · split
    · exact updateOptions_quiet
    · exact .refl c

end Options

theorem Steady.sendCloseReasonNoRetry (h : Steady A c c') {reason : String}
    (hA : ∀ reason, A (.send (.closeReason reason))) :
    Steady A c (c'.sendCloseReasonNoRetry reason) :=
  (h.send (hA _)).checkRemoveSession

theorem noteScopeViolation_steady {message : String}
    (halarm : A (.audit (.alarm .sessionScopeViolation message))) :
    Steady A c (c.noteScopeViolation env message) := by
  have hset : Steady A c { c with
      scopeViolationMessages := c.scopeViolationMessages.insert message } :=
    (Steady.refl c).set rfl rfl
  exact .ite (hset.postAlarmAudit halarm) hset

structure Calm (A : Effect → Prop) (c : Connection) (r : Bool × Connection) : Prop where
  quiet : Quiet A c r.2
  steady : r.1 = true → Steady A c r.2

theorem Calm.of_steady {b : Bool} (h : Steady A c c') : Calm A c (b, c') :=
  ⟨h.quiet, fun _ => h⟩

theorem Calm.of_close {lock : Bool} (h : Steady Waits c c') :
    Calm Waits c (false, c'.onClose p lock) := by
  refine ⟨h.quiet.trans (onClose_quiet rfl rfl rfl fun _ => rfl), fun hfalse => ?_⟩
  cases hfalse

theorem Calm.stop {b b' : Bool} (h : Calm A c (b, c')) (hb : b' = true → b = true) :
    Calm A c (b', c') :=
  ⟨h.quiet, fun hb' => h.steady (hb hb')⟩

theorem Calm.plain {r : Bool × Connection} (h : Calm Waits c r) : Calm Plain c r :=
  ⟨ofWaits h.quiet, fun hkeep => ofWaits (h.steady hkeep)⟩

theorem handleAuthorizedScopeViolation_calm {message : String} :
    Calm Plain c (c.handleAuthorizedScopeViolation env message) := by
  have hnote : Steady Waits c (c.noteScopeViolation env message) := noteScopeViolation_steady rfl
  unfold handleAuthorizedScopeViolation
  dsimp only
  split
  · exact (Calm.of_close (hnote.sendCloseReasonNoRetry fun _ => rfl)).plain
  · exact (Calm.of_steady hnote).plain

theorem Plain.of_display {source : VideoSource} {e : Effect} (h : e.display source = true) :
    Plain e := by
  cases e with
  | toCm => cases h
  | _ => rfl

theorem onSwitchSidesRequest_calm {uuid : Bytes} :
    Calm Plain c (c.onSwitchSidesRequest env uuid) := by
  unfold onSwitchSidesRequest
  split
  · exact (Calm.of_close ((Steady.refl c).modifyShared.emit rfl)).plain
  · exact .of_steady (.refl c)

section Messages

theorem onMisc_quiet {misc : Option Misc} : Quiet Plain c (c.onMisc env misc).2 := by
  have h : Steady Plain c c := .refl c
  unfold onMisc
  split
  · exact (handleSwitchDisplay_steady (fun _ => Plain.of_display) (fun _ _ _ => rfl)
      fun _ _ _ => rfl).quiet
  · exact (captureDisplays_steady (fun _ => Plain.of_display) fun _ _ => rfl).quiet
  · exact (Steady.ite toggleVirtualDisplay_steady h).quiet
  · exact (Steady.ite togglePrivacyMode_steady h).quiet
  · rename_i text
    have hchat : Steady Plain c { c.sendToCm (.chatMessage text) with chatUnanswered := true } :=
      (h.sendToCm (d := .chatMessage text) rfl).set rfl rfl
    exact hchat.updateAutoDisconnectTimer.quiet
  · exact onOption_quiet
  · refine Steady.quiet (Steady.ite (Steady.updateAutoDisconnectTimer ?_) h)
    exact .ite (h.refreshVideoDisplay rfl) h
  · exact (Steady.ite (h.refreshVideoDisplay rfl).updateAutoDisconnectTimer h).quiet
  · exact (h.emit rfl).quiet
  · exact (Steady.ite (h.emit rfl) h).quiet
  · exact (Steady.ite handleElevationRequest_steady h).quiet
  · have hsender : Steady Plain c { c with audioSender := true } := h.set rfl rfl
    exact (Steady.ite h (hsender.emit rfl)).quiet
  · split
    · exact onSwitchSidesRequest_calm.quiet
    · exact h.quiet
  · exact (Steady.ite (changeResolution_steady (fun _ => rfl) fun _ => rfl) h).quiet
  · exact (Steady.ite (changeResolution_steady (fun _ => rfl) fun _ => rfl) h).quiet
  · exact (Steady.ite ((h.emit rfl).send rfl) h).quiet
  · exact (h.emit rfl).quiet
  · exact (h.emit rfl).quiet
  · split
    · exact (onSelectedSid_steady (A := Plain) (fun _ => rfl) (fun _ _ _ => rfl) (fun _ _ => rfl)
        fun _ _ _ => rfl).quiet
    · exact h.quiet
  · dsimp only
    split
    · exact (h.send rfl).quiet
    · exact h.quiet
  · exact h.quiet

theorem onAuthorizedMessage_quiet {msg : Message} :
    Quiet Plain c (c.onAuthorizedMessage env msg).2 := by
  have h : Steady Plain c c := .refl c
  unfold onAuthorizedMessage
  split
  · exact h.quiet
  · split
    · exact onMouseEvent_steady.quiet
    · exact onPointerDeviceEvent_steady.quiet
    · exact onKeyEvent_steady.quiet
    · exact onClipboard_steady.quiet
    · exact (Steady.ite h onClipboard_steady).quiet
    · exact onCliprdr_steady.quiet
    · exact onFileAction_steady.plain.quiet
    · exact onFileResponse_steady.plain.quiet
    · exact onMisc_quiet
    · exact onAudioFrame_steady.plain.quiet
    · exact onVoiceCallRequest_steady.plain.quiet
    · exact (onScreenshotRequest_steady fun _ => Plain.of_display).quiet
    · exact (Steady.ite h handleTerminalAction_steady.plain).quiet
    · exact h.quiet

end Messages

section Cm

theorem onSwitchPermission_steady {name : String} {enabled : Bool} :
    Steady Plain c (c.onSwitchPermission env name enabled) := by
  have h : Steady Plain c c := .refl c
  have hkeyboard : Steady Plain c { c with keyboard := enabled } := h.set rfl rfl
  have hclipboard : Steady Plain c { c with clipboard := enabled } := h.set rfl rfl
  have haudio : Steady Plain c { c with audio := enabled } := h.set rfl rfl
  have hfile : Steady Plain c { c with file := enabled } := h.set rfl rfl
  have hrestart : Steady Plain c { c with restart := enabled } := h.set rfl rfl
  have hrecording : Steady Plain c { c with recording := enabled } := h.set rfl rfl
  have hblock : Steady Plain c { c with blockInput := enabled } := h.set rfl rfl
  have hgrant : ∀ c', Steady Plain c c' →
      Steady Plain c { c' with privacyMode := enabled } := fun _ hc' => hc'.set rfl rfl
  unfold onSwitchPermission switchKeyboard switchAudio switchFile switchPrivacyMode
    tryEmptyFileClipboard
  grind

theorem handleReadJobInitResult_steady {id : Int}
    {result : Except String (String × List FileEntry)} :
    Steady Waits c (c.handleReadJobInitResult id result) := by
  have h : Steady Waits c c := .refl c
  unfold handleReadJobInitResult
  split
  · exact h
  · split
    · refine Steady.send (h.set ?_ ?_) ?_ <;> rfl
    · rename_i path files
      have hsent : Steady Waits c ((c.send (.fileDir id path files)).postFileAudit .remoteSend path
          (getFilesForAudit .generic files)) :=
        (h.send rfl).postFileAudit fun _ => rfl
      exact hsent.set rfl rfl

theorem forwardLast_steady {id : Int} {m : PeerMessage} : Steady Waits c (c.forwardLast id m) := by
  refine Steady.ite (Steady.send ((Steady.refl c).set ?_ ?_) ?_) (.refl c) <;> rfl

theorem forwardIfKnown_steady {id : Int} {m : PeerMessage} :
    Steady Waits c (c.forwardIfKnown id m) := by
  unfold forwardIfKnown
  grind

theorem onCmClipboardFile_steady {clip : Cliprdr} : Steady Waits c (c.onCmClipboardFile clip) := by
  unfold onCmClipboardFile Connection.sendClip
  grind

theorem onCm_waits {e : CmEvent} (he : e ≠ .authorize)
    (hswitch : ∀ name enabled, e ≠ .switchPermission name enabled)
    (hvoice : ∀ accepted, e ≠ .voiceCallResponse accepted) : Calm Waits c (c.onCm env e) := by
  have h : Steady Waits c c := .refl c
  cases e with
  | authorize => exact absurd rfl he
  | close =>
    refine Calm.of_close (Steady.sendCloseReasonNoRetry (h.set ?_ ?_) fun _ => ?_) <;> rfl
  | cmErr e =>
    by_cases herr : e ≠ "expected"
    · simpa only [onCm, if_pos herr] using .of_close h
    · simpa only [onCm, if_neg herr] using .of_steady h
  | chatMessage => exact .of_steady (.set (h.send rfl) rfl rfl)
  | switchPermission name enabled => exact absurd rfl (hswitch name enabled)
  | rawMessage => exact .of_steady (h.send rfl)
  | clipboardFile => exact .of_steady (.ite onCmClipboardFile_steady h)
  | privacyModeState => exact .of_steady (h.send rfl)
  | requestStart => exact .of_steady (.ite (h.emit rfl) h)
  | switchSidesBack => exact .of_steady (.ite (h.send rfl) h)
  | voiceCallResponse accepted => exact absurd rfl (hvoice accepted)
  | closeVoiceCall =>
    refine .of_steady (Steady.send (closeVoiceCall_steady ?_ ?_ ?_) ?_) <;> rfl
  | readJobInitResult => exact .of_steady (.ite handleReadJobInitResult_steady h)
  | fileBlockFromCm => exact .of_steady (.ite forwardIfKnown_steady h)
  | fileReadDone => exact .of_steady (.ite forwardLast_steady h)
  | fileReadError => exact .of_steady (.ite forwardLast_steady h)
  | fileDigestFromCm => exact .of_steady (.ite forwardIfKnown_steady h)
  | allFilesResult id connId result =>
    cases result with
    | error => exact .of_steady (.ite (h.send rfl) h)
    | ok => exact .of_steady (.ite (h.send rfl) h)

theorem onCm_calm {e : CmEvent} (he : e ≠ .authorize) : Calm Plain c (c.onCm env e) := by
  cases e with
  | switchPermission => exact .of_steady onSwitchPermission_steady
  | voiceCallResponse =>
    exact .of_steady (handleVoiceCall_steady (fun _ => Waits.plain) fun _ _ => rfl)
  | _ => exact (onCm_waits he (fun _ _ h => by cases h) fun _ h => by cases h).plain

theorem onPrinterData_steady {data : Bytes} : Steady Waits c (c.onPrinterData env data) := by
  have hrequest : Steady Waits c (c.send
      (.printRequest ("RustDesk://FsJob//Printer/" ++ toString env.now))) :=
    (Steady.refl c).send rfl
  unfold onPrinterData
  split
  · split
    · exact hrequest.set rfl rfl
    · exact (Steady.refl c).send rfl
  · exact .refl c

theorem reportRemovals_steady : Steady Waits c (c.reportRemovals env) := by
  have hlog : ∀ (xs : List (Int × String)) (dir : Bool) (c' : Connection), Steady Waits c c' →
      Steady Waits c (xs.foldl (fun c' x =>
        c'.sendToCm (.fileTransferLog (.remove x.1 c.id x.2 dir))) c') :=
    fun _ _ _ h => h.foldl_emit fun _ _ => rfl
  have hboth := hlog c.fileRemoveLogControl.removedDirs true _
    (hlog c.fileRemoveLogControl.removedFiles false c (.refl c))
  unfold reportRemovals
  dsimp only
  split
  · exact .refl c
  · exact hboth.set rfl rfl

theorem onSecond_calm : Calm Waits c (c.onSecond env) := by
  have h : Steady Waits c c := .refl c
  unfold onSecond
  split
  · split
    · exact .of_close (h.sendCloseReasonNoRetry fun _ => rfl)
    · exact .of_steady reportRemovals_steady
  · exact .of_steady reportRemovals_steady

theorem onTestDelayTimer_calm {silent : Bool} : Calm Waits c (c.onTestDelayTimer env silent) := by
  have h : Steady Waits c c := .refl c
  unfold onTestDelayTimer
  split
  · exact .of_close h
  · split
    · refine .of_steady (Steady.send (h.set ?_ ?_) ?_) <;> rfl
    · exact .of_steady h

end Cm
end Connection

def Event.entry : Event → Bool
  | .message (.loginRequest _) | .message (.auth2fa _ _)
  | .message (.switchSidesResponse _ _) => true
  | .cm .authorize => true
  | _ => false

theorem Event.entry_cases {e : Event} (h : e.entry = true) :
    e = .cm .authorize ∨ (∃ lr, e = .message (.loginRequest lr)) ∨
      (∃ code hwid, e = .message (.auth2fa code hwid)) ∨
      ∃ uuid lr, e = .message (.switchSidesResponse uuid lr) := by
  unfold Event.entry at h
  split at h
  · exact .inr (.inl ⟨_, rfl⟩)
  · exact .inr (.inr (.inl ⟨_, _, rfl⟩))
  · exact .inr (.inr (.inr ⟨_, _, rfl⟩))
  · exact .inl rfl
  · cases h

namespace Connection

section Handle

variable {msg : Message}

theorem dispatch_calm (hentry : (Event.message msg).entry = false)
    (hauth : c.authorized = false) : Calm Waits c (c.dispatch env msg) := by
  have h : Steady Waits c c := .refl c
  have htest : ∀ time fromClient, Steady Waits c (c.onTestDelay env time fromClient) :=
    fun _ _ => onTestDelay_steady rfl fun _ => rfl
  unfold dispatch
  split
  · cases hentry
  · cases hentry
  · exact .of_steady (htest _ _)
  · cases hentry
  · rw [hauth]
    exact .of_steady h

theorem gate_quiet (hentry : (Event.message msg).entry = false)
    (hauth : c.authorized = true) : Quiet Plain c (c.gate env msg).2 := by
  have hdispatch : Quiet Plain c (c.dispatch env msg).2 := by
    unfold dispatch
    split
    · cases hentry
    · cases hentry
    · exact (onTestDelay_steady (A := Plain) rfl fun _ => rfl).quiet
    · cases hentry
    · rw [if_pos hauth]
      exact onAuthorizedMessage_quiet
  unfold gate
  split
  · exact .refl c
  · split
    · exact handleAuthorizedScopeViolation_calm.quiet
    · exact hdispatch

theorem onMessage_quiet (hentry : (Event.message msg).entry = false) :
    Quiet Plain c (c.onMessage env msg).2 := by
  unfold onMessage
  split
  · exact onClose_plain.trans (Steady.refl _).checkRemoveSession.quiet
  · split
    · exact gate_quiet hentry ‹_›
    · exact (dispatch_calm hentry (by simpa using ‹¬c.authorized = true›)).plain.quiet

theorem onMessage_calm (hentry : (Event.message msg).entry = false)
    (hauth : c.authorized = false) : Calm Waits c (c.onMessage env msg) := by
  unfold onMessage
  split
  · refine ⟨?_, fun hfalse => by cases hfalse⟩
    exact (onClose_quiet (A := Waits) rfl rfl rfl fun _ => rfl).trans
      (Steady.refl _).checkRemoveSession.quiet
  · rw [hauth]
    exact dispatch_calm hentry hauth

variable {e : Event}

theorem handle_other_calm (hentry : e.entry = false) (he : ∀ msg, e ≠ .message msg) :
    Calm Plain c (c.handle env e) := by
  have h : Steady Waits c c := .refl c
  cases e with
  | message msg => exact absurd rfl (he msg)
  | cm e =>
    refine onCm_calm ?_
    rintro rfl
    cases hentry
  | streamEnd => exact (Calm.of_close h).plain
  | printerData => exact (Calm.of_steady onPrinterData_steady).plain
  | consoleClose => exact (Calm.of_close (h.sendCloseReasonNoRetry fun _ => rfl)).plain
  | second => exact onSecond_calm.plain
  | testDelay => exact onTestDelayTimer_calm.plain

/-- **Outside login.**  An event that cannot let the peer in changes nothing that
login decided, and tells the connection manager of no login. -/
theorem handle_quiet (hentry : e.entry = false) : Quiet Plain c (c.handle env e).2 := by
  cases e with
  | message msg => exact onMessage_quiet hentry
  | _ => exact (handle_other_calm hentry fun _ h => by cases h).quiet

/-- **Before login.**  While the loop runs, such an event does not touch the options
and the socket either. -/
theorem handle_calm (hentry : e.entry = false) (hauth : c.authorized = false) :
    Calm Plain c (c.handle env e) := by
  cases e with
  | message msg =>
    have hcalm : Calm Plain c (c.onMessage env msg) := (onMessage_calm hentry hauth).plain
    exact hcalm.stop fun hkeep => (Bool.and_eq_true_iff.mp hkeep).1
  | _ => exact handle_other_calm hentry fun _ h => by cases h

/-- **Before login, services.**  Such an event takes up no service, unless it switches a
permission. -/
theorem handle_waits (hentry : e.entry = false) (hauth : c.authorized = false)
    (hcamera : c.isAuthedViewCameraConn = false)
    (hswitch : ∀ name enabled, e ≠ .cm (.switchPermission name enabled)) :
    Calm Waits c (c.handle env e) := by
  have h : Steady Waits c c := .refl c
  cases e with
  | message msg =>
    have hcalm : Calm Waits c (c.onMessage env msg) := onMessage_calm hentry hauth
    exact hcalm.stop fun hkeep => (Bool.and_eq_true_iff.mp hkeep).1
  | cm e =>
    by_cases hvoice : ∃ accepted, e = .voiceCallResponse accepted
    · obtain ⟨accepted, rfl⟩ := hvoice
      exact .of_steady (handleVoiceCall_steady (fun _ h => h) fun htrue => by
        simp [hcamera] at htrue)
    · refine onCm_waits ?_ (fun name enabled heq => hswitch name enabled (congrArg Event.cm heq))
        fun accepted heq => hvoice ⟨accepted, heq⟩
      rintro rfl
      cases hentry
  | streamEnd => exact .of_close h
  | printerData => exact .of_steady onPrinterData_steady
  | consoleClose => exact .of_close (h.sendCloseReasonNoRetry fun _ => rfl)
  | second => exact onSecond_calm
  | testDelay => exact onTestDelayTimer_calm

end Handle

theorem sendPermissions_steady : Steady Waits c (c.sendPermissions p) := by
  have h : Steady Waits c c := .refl c
  have htell : ∀ {c' : Connection} {q : Permission} {b : Bool}, Steady Waits c c' →
      Steady Waits c (if b = true then c' else c'.sendPermission q false) :=
    fun h => .ite h (h.sendPermission rfl)
  have hfirst : Steady Waits c (if p.build.os = .android then c.sendPermission .keyboard c.keyboard
      else if c.keyboard = true then c else c.sendPermission .keyboard false) :=
    .ite (h.sendPermission rfl) (htell h)
  exact htell (htell (htell (htell (htell (htell (htell hfirst))))))

end Connection
end RustDesk
