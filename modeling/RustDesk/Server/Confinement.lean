import RustDesk.Server.Approval

/-!
# Sessions keep to their scope

An authorized session that is not remote control does nothing outside its type.  The
gate lets some messages pass and the handlers see to the rest: this file checks that
the two agree, message by message, and that every reachable session has the fields its
handlers rely on.
-/

namespace RustDesk

open Logged Run

def PeerOptions.fresh : PeerOptions where
  lockAfterSessionEnd := false
  showRemoteCursor := false
  followRemoteCursor := false
  followRemoteWindow := false
  disableAudio := false
  enableFileTransfer := false
  disableClipboard := false
  disableKeyboard := false
  terminalPersistent := false
  showMyCursor := false

def PeerOptions.mask (connType : AuthConnType) (o : PeerOptions) : PeerOptions :=
  { o with
    disableAudio := connType ≠ .viewCamera && o.disableAudio
    terminalPersistent := connType ≠ .terminal && o.terminalPersistent }

namespace Connection

variable {p : Platform} {env : Env p} {c c' : Connection} {o : OptionMessage}

def masked (connType : AuthConnType) (c : Connection) : Auth × PeerOptions :=
  (c.toAuth, c.toPeerOptions.mask connType)

/-- Nothing outside the type is done. -/
abbrev Confined (connType : AuthConnType) : Connection → Connection → Prop :=
  Within log (masked connType) (InScope connType)

theorem Steady.confined {connType : AuthConnType} (h : Steady (InScope connType) c c') :
    Confined connType c c' :=
  h.weaken (fun f => (f.1, f.2.1.mask connType)) fun _ => rfl

theorem updateOptions_viewCameraOnly (h : o.ViewCameraOnly) :
    c.updateOptions env o =
      (((c.updateImageQuality o).updateCustomFps o).updateSupportedDecoding o).updateDisableAudio
        env o := by
  have hset : setTo (.ok .notSet) = none := rfl
  simp only [updateOptions, updateLockAfterSessionEnd, updateShowRemoteCursor,
    updateFollowRemoteCursor, updateFollowRemoteWindow, updateEnableFileTransfer,
    updateDisableClipboard, updateDisableKeyboard, updatePrivacyMode, updateBlockInput,
    updateTerminalPersistent, updateShowMyCursor, h.lockAfterSessionEnd, h.showRemoteCursor,
    h.privacyMode, h.blockInput, h.disableClipboard, h.enableFileTransfer, h.disableKeyboard,
    h.followRemoteCursor, h.followRemoteWindow, h.terminalPersistent, h.showMyCursor, hset,
    ite_self]

theorem updateOptions_terminalOnly (h : o.TerminalOnly) :
    c.updateOptions env o = c.updateTerminalPersistent p o := by
  have hset : setTo (.ok .notSet) = none := rfl
  simp [updateOptions, updateImageQuality, updateCustomFps, updateSupportedDecoding,
    updateLockAfterSessionEnd, updateShowRemoteCursor, updateFollowRemoteCursor,
    updateFollowRemoteWindow, updateDisableAudio, updateEnableFileTransfer,
    updateDisableClipboard, updateDisableKeyboard, updatePrivacyMode, updateBlockInput,
    updateShowMyCursor, h.imageQuality, h.customImageQuality, h.customFps, h.supportedDecoding,
    h.lockAfterSessionEnd, h.showRemoteCursor, h.privacyMode, h.blockInput, h.disableAudio,
    h.disableClipboard, h.enableFileTransfer, h.disableKeyboard, h.followRemoteCursor,
    h.followRemoteWindow, h.showMyCursor, hset]

theorem subscribe_audio_confined {on : Bool} :
    Confined .viewCamera c (c.subscribe env .audio on) := by
  have h : Steady (InScope .viewCamera) c c := .refl c
  exact (h.subscribe rfl).confined

theorem updateDisableAudio_confined : Confined .viewCamera c (c.updateDisableAudio env o) := by
  unfold updateDisableAudio
  split
  · rename_i b _
    have hset : Confined .viewCamera c { c with disableAudio := b } := .silent rfl rfl
    dsimp only
    split
    · exact hset
    · exact hset.trans subscribe_audio_confined
  · exact .refl c

theorem updateOptions_viewCamera (h : o.ViewCameraOnly) :
    Confined .viewCamera c (c.updateOptions env o) := by
  rw [updateOptions_viewCameraOnly h]
  refine Within.trans ?_ updateDisableAudio_confined
  refine Within.trans ?_ (updateSupportedDecoding_steady fun _ => rfl).confined
  refine Within.trans ?_ (updateCustomFps_steady fun _ => rfl).confined
  exact (updateImageQuality_steady fun _ => rfl).confined

theorem updateOptions_terminal (h : o.TerminalOnly) :
    Confined .terminal c (c.updateOptions env o) := by
  rw [updateOptions_terminalOnly h]
  unfold updateTerminalPersistent updateTerminalPersistence
  split
  · rename_i b _
    split
    · exact .refl c
    · exact .one rfl rfl rfl
  · exact .refl c

def Untouched (c : Connection) : Prop :=
  c.toPeerOptions = { PeerOptions.fresh with
    disableAudio := c.disableAudio, terminalPersistent := c.terminalPersistent }

structure TypedAs (connType : AuthConnType) (c : Connection) : Prop where
  authorized : c.authorized = true
  authedConnId : c.authedConnId = some connType
  options : c.Untouched
  file : connType = .fileTransfer → c.fileTransfer.isSome = true
  camera : connType = .viewCamera → c.viewCamera = true ∧ c.fileTransfer = none
  tunnel : connType = .portForward → c.portForwardSocket.isSome = true

theorem Untouched.of_mask {connType : AuthConnType} (h : c.Untouched)
    (hmask : c'.toPeerOptions.mask connType = c.toPeerOptions.mask connType) : c'.Untouched := by
  unfold Untouched at h ⊢
  generalize c'.toPeerOptions = o' at hmask
  generalize c.toPeerOptions = o at hmask h
  cases o'
  cases o
  simp_all [PeerOptions.mask, PeerOptions.fresh]

section Handlers

variable {msg : Message} {connType : AuthConnType}

theorem onClose_confined {lock : Bool} (h : c.lockAfterSessionEnd = false) :
    Confined connType c (c.onClose p lock) := by
  have hquiet : Quiet (InScope connType) c (c.onClose p lock) :=
    onClose_quiet rfl rfl rfl fun hlock => by simp [h] at hlock
  refine ⟨hquiet.emits, ?_⟩
  unfold masked
  rw [hquiet.same, onClose_options]

theorem TypedAs.lockAfterSessionEnd (h : TypedAs connType c) : c.lockAfterSessionEnd = false :=
  congrArg PeerOptions.lockAfterSessionEnd h.options

theorem TypedAs.followRemoteWindow (h : TypedAs connType c) : c.followRemoteWindow = false :=
  congrArg PeerOptions.followRemoteWindow h.options

theorem handleAuthorizedScopeViolation_confined {message : String} (h : TypedAs connType c) :
    Confined connType c (c.handleAuthorizedScopeViolation env message).2 := by
  have hnoted : Steady (InScope connType) c (c.noteScopeViolation env message) :=
    noteScopeViolation_steady rfl
  have hreason : Steady (InScope connType) c ((c.noteScopeViolation env message
      ).sendCloseReasonNoRetry "Connection not allowed") :=
    hnoted.sendCloseReasonNoRetry fun _ => rfl
  unfold handleAuthorizedScopeViolation
  dsimp only
  split
  · refine hreason.confined.trans (onClose_confined ?_)
    rw [← h.lockAfterSessionEnd]
    exact congrArg (fun f => f.2.1.lockAfterSessionEnd) hreason.same
  · exact hnoted.confined

theorem fileTransfer_confined (h : TypedAs .fileTransfer c)
    (hgate : authorizedMessageScopeViolation p.build .fileTransfer msg = none) :
    Steady (InScope .fileTransfer) c (c.onAuthorizedMessage env msg).2 := by
  have hsame : Steady (InScope .fileTransfer) c c := .refl c
  have htype := h.authedConnId
  unfold onAuthorizedMessage
  split
  · exact hsame
  · cases msg with
    | clipboard content =>
      simp [onClipboard, shouldHandleTextClipboardMessage, htype, hsame]
    | multiClipboards contents =>
      simp [onClipboard, shouldHandleTextClipboardMessage, htype, hsame]
    | fileAction fa => exact onFileAction_steady
    | fileResponse fr => exact onFileResponse_steady
    | misc misc =>
      cases misc with
      | none => exact hsame
      | some misc =>
        cases misc with
        | refreshVideo all =>
          simp [onMisc, shouldHandleRenderBroadcastMessage, htype, hsame]
        | refreshVideoDisplay display =>
          simp [onMisc, shouldHandleRenderBroadcastMessage, htype, hsame]
        | option o => simp [onMisc, onOption, scopedUpdateOptionMessage, htype, hsame]
        | selectedSid sid =>
          have hfile := h.file rfl
          have hsid : Steady (InScope .fileTransfer) c (c.onSelectedSid env sid).2 :=
            onSelectedSid_steady (fun _ => rfl) (fun _ _ _ => rfl)
              (fun hnone => by simp [hfile] at hnone) fun hnone => by simp [hfile] at hnone
          unfold onMisc
          dsimp only
          split
          · exact hsid
          · exact hsame
        | _ => first | exact hsame | cases hgate
    | _ => first | exact hsame | cases hgate

theorem terminal_confined (h : TypedAs .terminal c)
    (hgate : authorizedMessageScopeViolation p.build .terminal msg = none) :
    Confined .terminal c (c.onAuthorizedMessage env msg).2 := by
  have hsame : Confined .terminal c c := .refl c
  have htype := h.authedConnId
  unfold onAuthorizedMessage
  split
  · exact hsame
  · cases msg with
    | clipboard content =>
      simp [onClipboard, shouldHandleTextClipboardMessage, htype, hsame]
    | multiClipboards contents =>
      simp [onClipboard, shouldHandleTextClipboardMessage, htype, hsame]
    | terminalAction action =>
      exact (Steady.ite (.refl c) handleTerminalAction_steady).confined
    | misc misc =>
      cases misc with
      | none => exact hsame
      | some misc =>
        cases misc with
        | refreshVideo all =>
          simp [onMisc, shouldHandleRenderBroadcastMessage, htype, hsame]
        | refreshVideoDisplay display =>
          simp [onMisc, shouldHandleRenderBroadcastMessage, htype, hsame]
        | chatMessage text => exact .one rfl rfl rfl
        | option o =>
          unfold onMisc onOption scopedUpdateOptionMessage
          rw [htype]
          dsimp only
          rw [if_neg (by decide)]
          split
          · exact updateOptions_terminal (OptionMessage.terminalOnly_of_scoped ‹_›)
          · exact hsame
        | _ => first | exact hsame | cases hgate
    | _ => first | exact hsame | cases hgate

theorem InScope.of_display {e : Effect} (h : e.display .camera = true) : InScope .viewCamera e := by
  unfold Effect.display at h
  split at h <;> first | cases h | skip
  all_goals first | rfl | (obtain rfl := of_decide_eq_true h; rfl)

theorem viewCamera_confined (h : TypedAs .viewCamera c)
    (hgate : authorizedMessageScopeViolation p.build .viewCamera msg = none) :
    Confined .viewCamera c (c.onAuthorizedMessage env msg).2 := by
  have hsame : Steady (InScope .viewCamera) c c := .refl c
  have htype := h.authedConnId
  obtain ⟨hcamera, hfile⟩ := h.camera rfl
  have hsource : c.videoSource = .camera := by simp [videoSource, hcamera]
  have hdisplay : ∀ e : Effect, e.display c.videoSource = true → InScope .viewCamera e := by
    rw [hsource]
    exact fun e => InScope.of_display
  have hrefresh : ∀ display, Steady (InScope .viewCamera) c (c.refreshVideoDisplay display) :=
    fun display => hsame.refreshVideoDisplay (by rw [hsource]; rfl)
  unfold onAuthorizedMessage
  split
  · exact hsame.confined
  · cases msg with
    | mouseEvent me => simp [onMouseEvent, isAuthedViewCameraConn, htype, hsame.confined]
    | pointerDeviceEvent pde =>
      simp [onPointerDeviceEvent, isAuthedViewCameraConn, htype, hsame.confined]
    | keyEvent me => simp [onKeyEvent, isAuthedViewCameraConn, htype, hsame.confined]
    | clipboard content =>
      simp [onClipboard, shouldHandleTextClipboardMessage, htype, hsame.confined]
    | multiClipboards contents =>
      simp [onClipboard, shouldHandleTextClipboardMessage, htype, hsame.confined]
    | audioFrame data => exact onAudioFrame_steady.confined
    | voiceCallRequest ts isConnect => exact onVoiceCallRequest_steady.confined
    | screenshotRequest display sid => exact (onScreenshotRequest_steady hdisplay).confined
    | misc misc =>
      cases misc with
      | none => exact hsame.confined
      | some misc =>
        cases misc with
        | switchDisplay display width height =>
          refine (handleSwitchDisplay_steady hdisplay ?_ ?_).confined
          · intro hview
            simp [hcamera] at hview
          · intro hview
            simp [hcamera] at hview
        | captureDisplays add sub set =>
          refine (captureDisplays_steady hdisplay ?_).confined
          intro hfollow
          simp [h.followRemoteWindow] at hfollow
        | toggleVirtualDisplay display on => simp [onMisc, hcamera, hsame.confined]
        | togglePrivacyMode implKey on => simp [onMisc, hcamera, hsame.confined]
        | changeResolution r => simp [onMisc, hcamera, hsame.confined]
        | changeDisplayResolution display r => simp [onMisc, hcamera, hsame.confined]
        | chatMessage text => exact .one rfl rfl rfl
        | option o =>
          unfold onMisc onOption scopedUpdateOptionMessage
          rw [htype]
          dsimp only
          rw [if_neg (by decide)]
          split
          · exact updateOptions_viewCamera (OptionMessage.viewCameraOnly_of_scoped ‹_›)
          · exact hsame.confined
        | refreshVideo all =>
          exact (Steady.ite (.updateAutoDisconnectTimer (.ite (hrefresh _) hsame)) hsame).confined
        | refreshVideoDisplay display =>
          exact (Steady.ite (hrefresh _).updateAutoDisconnectTimer hsame).confined
        | videoReceived b => exact (hsame.emit rfl).confined
        | audioFormat payload =>
          have hsender : Steady (InScope .viewCamera) c { c with audioSender := true } :=
            .silent rfl rfl
          exact (Steady.ite hsame (hsender.emit rfl)).confined
        | clientRecordStatus status => exact (hsame.emit rfl).confined
        | messageQuery switchDisplay =>
          unfold onMisc
          dsimp only
          split
          · exact (hsame.send rfl).confined
          · exact hsame.confined
        | selectedSid sid =>
          have hsid : Steady (InScope .viewCamera) c (c.onSelectedSid env sid).2 :=
            onSelectedSid_steady (fun _ => rfl) (fun hsome => by simp [hfile] at hsome)
              (fun _ _ => rfl) fun _ hview => by simp [hcamera] at hview
          unfold onMisc
          dsimp only
          split
          · exact hsid.confined
          · exact hsame.confined
        | _ => first | exact hsame.confined | cases hgate
    | _ => first | exact hsame.confined | cases hgate

theorem portForward_confined (h : TypedAs .portForward c) :
    c.onAuthorizedMessage env msg = (true, c) := by
  unfold onAuthorizedMessage
  rw [if_pos (h.tunnel rfl)]

theorem TypedAs.violation (h : TypedAs connType c) (msg : Message) :
    c.authorizedScopeViolation p msg = authorizedMessageScopeViolation p.build connType msg := by
  simp only [authorizedScopeViolation, h.authedConnId]

theorem entry_of_gate (hne : connType ≠ .remote) (hlogin : ∀ lr, msg ≠ .loginRequest lr)
    (hgate : authorizedMessageScopeViolation p.build connType msg = none) :
    (Event.message msg).entry = false := by
  by_contra hentry
  obtain h | ⟨lr, h⟩ | ⟨code, hwid, h⟩ | ⟨uuid, lr, h⟩ :=
    Event.entry_cases (Bool.eq_true_of_not_eq_false hentry)
  · cases h
  · cases h
    exact hlogin lr rfl
  · cases h
    cases connType <;> first | exact hne rfl | cases hgate
  · cases h
    cases connType <;> first | exact hne rfl | cases hgate

theorem dispatch_of_gate (h : TypedAs connType c) (hentry : (Event.message msg).entry = false) :
    Steady (InScope connType) c (c.dispatch env msg).2 ∨
      c.dispatch env msg = c.onAuthorizedMessage env msg := by
  unfold dispatch
  split
  · cases hentry
  · cases hentry
  · exact .inl (onTestDelay_steady rfl fun _ => rfl)
  · cases hentry
  · exact .inr (if_pos h.authorized)

theorem dispatch_confined (hne : connType ≠ .remote) (h : TypedAs connType c)
    (hlogin : ∀ lr, msg ≠ .loginRequest lr)
    (hgate : authorizedMessageScopeViolation p.build connType msg = none) :
    Confined connType c (c.dispatch env msg).2 := by
  rcases dispatch_of_gate h (entry_of_gate hne hlogin hgate) with hsame | hmessage
  · exact hsame.confined
  · rw [hmessage]
    cases connType with
    | remote => exact absurd rfl hne
    | fileTransfer => exact (fileTransfer_confined h hgate).confined
    | portForward =>
      rw [portForward_confined h]
      exact .refl c
    | viewCamera => exact viewCamera_confined h hgate
    | terminal => exact terminal_confined h hgate

/-- **The gate and the handlers agree.**  Whatever a peer with such a session sends, it
does nothing outside the type of the session. -/
theorem onMessage_confined (hne : connType ≠ .remote) (h : TypedAs connType c) (msg : Message) :
    Confined connType c (c.onMessage env msg).2 := by
  unfold onMessage
  split
  · exact (onClose_confined h.lockAfterSessionEnd).trans
      (Steady.confined (.checkRemoveSession (.refl _)))
  · rw [if_pos h.authorized]
    unfold gate
    split
    · exact .refl c
    · rename_i hlogin
      rw [h.violation]
      split
      · exact handleAuthorizedScopeViolation_confined h
      · exact dispatch_confined hne h (fun lr hlr => hlogin lr hlr) ‹_›

theorem onMessage_tunnel (h : TypedAs .portForward c) (msg : Message)
    (hkeep : (c.onMessage env msg).1 = true) :
    (c.onMessage env msg).2.portForwardSocket.isSome = true := by
  have hsocket := h.tunnel rfl
  have hsteady : ∀ {c' : Connection}, Steady Plain c c' → c'.portForwardSocket.isSome = true := by
    intro c' hsame
    rw [← hsocket]
    exact congrArg (fun f => f.2.2.isSome) hsame.same
  have hcalm : ∀ r, Calm Plain c r → r.1 = true → r.2.portForwardSocket.isSome = true :=
    fun r hr hkeep => hsteady (hr.steady hkeep)
  unfold onMessage at hkeep ⊢
  split at hkeep
  · cases hkeep
  · rw [if_pos h.authorized] at hkeep ⊢
    unfold gate at hkeep ⊢
    split at hkeep
    · exact hsocket
    · rename_i hlogin
      rw [h.violation] at hkeep ⊢
      split at hkeep
      · exact hcalm _ handleAuthorizedScopeViolation_calm hkeep
      · have hne : AuthConnType.portForward ≠ .remote := by simp
        have hentry := entry_of_gate hne (fun lr hlr => hlogin lr hlr) ‹_›
        rcases dispatch_of_gate h hentry with hsame | hmessage
        · exact hsteady hsame.plain
        · rw [hmessage, portForward_confined h]
          exact hsocket

def passesIgnored (connType : AuthConnType) (msg : Message) : Bool :=
  noopCompat connType msg ||
    match connType, msg with
    | .viewCamera, .mouseEvent _ | .viewCamera, .pointerDeviceEvent _
    | .viewCamera, .keyEvent _ => true
    | _, _ => false

theorem onOption_ignored {o : OptionMessage} (h : TypedAs connType c)
    (hfile : connType = .fileTransfer ∨ connType = .terminal)
    (ho : o.isSupportedDecodingOnly = true) : c.onOption env o = c := by
  unfold onOption scopedUpdateOptionMessage
  rcases hfile with rfl | rfl
  · simp [h.authedConnId]
  · simp [h.authedConnId, OptionMessage.scopedTerminalLogin_decodingOnly ho]

theorem renderBroadcast_ignored (h : TypedAs connType c)
    (hfile : connType = .fileTransfer ∨ connType = .terminal)
    (hmsg : isRenderBroadcastNoopCompatMessage msg = true) :
    c.onAuthorizedMessage env msg = (true, c) := by
  have hrender : c.shouldHandleRenderBroadcastMessage = false := by
    rcases hfile with rfl | rfl <;> simp [shouldHandleRenderBroadcastMessage, h.authedConnId]
  unfold onAuthorizedMessage
  unfold isRenderBroadcastNoopCompatMessage at hmsg
  split at hmsg
  · simp [onMisc, hrender]
  · simp [onMisc, hrender]
  · simp [onMisc, onOption_ignored h hfile hmsg]
  · cases hmsg

theorem textClipboard_ignored (h : TypedAs connType c) (hne : connType ≠ .remote)
    (hmsg : isTextClipboardNoopCompatMessage msg = true) :
    c.onAuthorizedMessage env msg = (true, c) := by
  have hclip : ∀ contents, c.onClipboard contents = c := by
    simp [onClipboard, shouldHandleTextClipboardMessage, h.authedConnId, hne]
  unfold onAuthorizedMessage
  unfold isTextClipboardNoopCompatMessage at hmsg
  split at hmsg
  · simp [hclip]
  · simp [hclip]
  · cases hmsg

theorem onAuthorizedMessage_ignored (h : TypedAs connType c)
    (hmsg : passesIgnored connType msg = true) : c.onAuthorizedMessage env msg = (true, c) := by
  cases connType with
  | remote => cases hmsg
  | fileTransfer =>
    simp only [passesIgnored, noopCompat, Bool.or_false, Bool.or_eq_true] at hmsg
    rcases hmsg with hmsg | hmsg
    · exact renderBroadcast_ignored h (.inl rfl) hmsg
    · exact textClipboard_ignored h (by simp) hmsg
  | portForward => exact portForward_confined h
  | viewCamera =>
    simp only [passesIgnored, noopCompat, Bool.or_eq_true] at hmsg
    rcases hmsg with hmsg | hmsg
    · exact textClipboard_ignored h (by simp) hmsg
    · unfold onAuthorizedMessage
      split at hmsg
      · simp [onMouseEvent, isAuthedViewCameraConn, h.authedConnId]
      · simp [onPointerDeviceEvent, isAuthedViewCameraConn, h.authedConnId]
      · simp [onKeyEvent, isAuthedViewCameraConn, h.authedConnId]
      · cases hmsg
  | terminal =>
    simp only [passesIgnored, noopCompat, Bool.or_false, Bool.or_eq_true] at hmsg
    rcases hmsg with hmsg | hmsg
    · exact renderBroadcast_ignored h (.inr rfl) hmsg
    · exact textClipboard_ignored h (by simp) hmsg

theorem gate_of_ignored (hmsg : passesIgnored connType msg = true) :
    authorizedMessageScopeViolation p.build connType msg = none := by
  unfold authorizedMessageScopeViolation
  split
  · rfl
  · split
    · rfl
    · rename_i hcompat
      simp only [passesIgnored, hcompat, Bool.false_or] at hmsg
      split at hmsg
      · rfl
      · rfl
      · rfl
      · cases hmsg

/-- **Compatibility.**  What is let pass for old clients changes nothing, inside or
outside the connection. -/
theorem onMessage_ignored (h : TypedAs connType c) (hmsg : passesIgnored connType msg = true) :
    c.onMessage env msg = (true, c) := by
  have hmessage : c.onAuthorizedMessage env msg = (true, c) := onAuthorizedMessage_ignored h hmsg
  rw [← hmessage]
  unfold onMessage
  split
  · cases connType <;> cases hmsg
  · rw [if_pos h.authorized]
    unfold gate
    split
    · cases connType <;> cases hmsg
    · rw [h.violation, gate_of_ignored hmsg]
      unfold dispatch
      dsimp only
      split
      · cases connType <;> cases hmsg
      · cases connType <;> cases hmsg
      · cases connType <;> cases hmsg
      · cases connType <;> cases hmsg
      · exact if_pos h.authorized

theorem onOption_scoped (h : TypedAs connType c) (hne : connType ≠ .remote) (o : OptionMessage) :
    c.onOption env o = c ∨
      ∃ kept, (scopedLoginOption connType o).1 = some kept ∧
        c.onOption env o = c.updateOptions env kept := by
  have hremote : c.authedConnId ≠ some .remote := by simp [h.authedConnId, hne]
  unfold onOption
  rw [if_neg hremote]
  unfold scopedUpdateOptionMessage
  rw [h.authedConnId]
  split
  · rename_i kept hkept
    refine .inr ⟨kept, ?_, rfl⟩
    cases connType <;> first | exact hkept | cases hkept
  · exact .inl rfl

/-- **Options.**  An option message is a violation, it is ignored, or what the filter of
the type keeps of it is applied. -/
theorem onMessage_option (h : TypedAs connType c) (hne : connType ≠ .remote)
    (o : OptionMessage) :
    c.onMessage env (.misc (some (.option o)))
        = c.handleAuthorizedScopeViolation env "misc.option" ∨
      c.onMessage env (.misc (some (.option o))) = (true, c) ∨
      ∃ kept, (scopedLoginOption connType o).1 = some kept ∧
        c.onMessage env (.misc (some (.option o))) = (true, c.updateOptions env kept) := by
  have hgate : c.onMessage env (.misc (some (.option o)))
      = c.gate env (.misc (some (.option o))) := if_pos h.authorized
  have hdispatch : c.dispatch env (.misc (some (.option o)))
      = c.onAuthorizedMessage env (.misc (some (.option o))) := if_pos h.authorized
  rw [hgate]
  unfold gate
  dsimp only
  rw [h.violation, hdispatch]
  unfold authorizedMessageScopeViolation
  split
  · rename_i violation hviolation
    have hfamily : violation = "misc.option" := by
      split_ifs at hviolation
      cases hviolation
      rfl
    rw [hfamily]
    exact .inl rfl
  · refine .inr ?_
    unfold onAuthorizedMessage
    split
    · exact .inl rfl
    · rcases onOption_scoped h hne o with hsame | ⟨kept, hkept, happlied⟩
      · exact .inl (congrArg (Prod.mk true) hsame)
      · exact .inr ⟨kept, hkept, congrArg (Prod.mk true) happlied⟩

end Handlers

structure Unopened (c : Connection) : Prop where
  authorized : c.authorized = false
  authedConnId : c.authedConnId = none
  options : { c.toPeerOptions with terminalPersistent := false } = PeerOptions.fresh
  socket : c.portForwardSocket = none

def Opened (c : Connection) : Prop :=
  c.authorized = true ∧ ∃ connType, c.authedConnId = some connType ∧
    (connType ≠ .remote → TypedAs connType c)

def Settled (c : Connection) : Prop := c.Unopened ∨ c.Opened

theorem Unopened.congr (h : c.Unopened) (hauth : c'.authorized = c.authorized)
    (htype : c'.authedConnId = c.authedConnId)
    (hoptions : { c'.toPeerOptions with terminalPersistent := false }
      = { c.toPeerOptions with terminalPersistent := false })
    (hsocket : c'.portForwardSocket = c.portForwardSocket) : c'.Unopened :=
  ⟨hauth.trans h.authorized, htype.trans h.authedConnId, hoptions.trans h.options,
    hsocket.trans h.socket⟩

theorem Unopened.of_frame (h : c.Unopened) (hframe : c'.frame = c.frame) : c'.Unopened :=
  h.congr (congrArg (fun f => f.1.authorized) hframe) (congrArg (fun f => f.1.authedConnId) hframe)
    (congrArg (fun f => { f.2.1 with terminalPersistent := false }) hframe)
    (congrArg (fun f => f.2.2) hframe)

theorem Unopened.of_untouched (h : c.Unopened) (hsame : Within log untouched Waits c c') :
    c'.Unopened :=
  h.congr (congrArg (fun f => f.2.2.1) hsame.same) (congrArg (fun f => f.2.2.2.1) hsame.same)
    (congrArg (fun f => f.2.2.2.2.1) hsame.same) (congrArg (fun f => f.2.2.2.2.2) hsame.same)

theorem TypedAs.of_confined {connType : AuthConnType} (h : TypedAs connType c)
    (hconfined : Confined connType c c')
    (htunnel : connType = .portForward → c'.portForwardSocket.isSome = true) :
    TypedAs connType c' := by
  have hauth : c'.toAuth = c.toAuth := congrArg Prod.fst hconfined.same
  have hfile : c'.fileTransfer = c.fileTransfer := congrArg Auth.fileTransfer hauth
  have hcamera : c'.viewCamera = c.viewCamera := congrArg Auth.viewCamera hauth
  refine ⟨(congrArg Auth.authorized hauth).trans h.authorized,
    (congrArg Auth.authedConnId hauth).trans h.authedConnId,
    h.options.of_mask (congrArg Prod.snd hconfined.same), ?_, ?_, htunnel⟩
  · rw [hfile]
    exact h.file
  · rw [hfile, hcamera]
    exact h.camera

theorem TypedAs.of_frame {connType : AuthConnType} (h : TypedAs connType c)
    (hframe : c'.frame = c.frame) : TypedAs connType c' := by
  have hauth : c'.toAuth = c.toAuth := congrArg Prod.fst hframe
  have hoptions : c'.toPeerOptions = c.toPeerOptions := congrArg (fun f => f.2.1) hframe
  have hsocket : c'.portForwardSocket = c.portForwardSocket := congrArg (fun f => f.2.2) hframe
  have hfile : c'.fileTransfer = c.fileTransfer := congrArg Auth.fileTransfer hauth
  have hcamera : c'.viewCamera = c.viewCamera := congrArg Auth.viewCamera hauth
  refine ⟨(congrArg Auth.authorized hauth).trans h.authorized,
    (congrArg Auth.authedConnId hauth).trans h.authedConnId,
    h.options.of_mask (congrArg (PeerOptions.mask connType) hoptions), ?_, ?_, ?_⟩
  · rw [hfile]
    exact h.file
  · rw [hfile, hcamera]
    exact h.camera
  · rw [hsocket]
    exact h.tunnel

theorem Settled.of_frame (h : c.Settled) (hframe : c'.frame = c.frame) : c'.Settled := by
  rcases h with h | ⟨hauth, connType, htype, htyped⟩
  · exact .inl (h.of_frame hframe)
  · refine .inr ⟨?_, connType, ?_, fun hne => (htyped hne).of_frame hframe⟩
    · exact (congrArg (fun f => f.1.authorized) hframe).trans hauth
    · exact (congrArg (fun f => f.1.authedConnId) hframe).trans htype

theorem updateScopedLoginOptions_typedAs {connType : AuthConnType} (hne : connType ≠ .remote)
    (h : TypedAs connType c) : TypedAs connType (c.updateScopedLoginOptions env) := by
  have htaken : TypedAs connType { c with optionsInLogin := none } := h.of_frame rfl
  unfold updateScopedLoginOptions
  split
  · exact h
  · rename_i option _
    dsimp only
    rw [h.authedConnId]
    dsimp only
    split
    · rename_i kept hkept
      cases connType with
      | remote => exact absurd rfl hne
      | fileTransfer => cases hkept
      | portForward => cases hkept
      | viewCamera =>
        exact htaken.of_confined
          (updateOptions_viewCamera (OptionMessage.viewCameraOnly_of_scoped hkept))
          fun hpf => by cases hpf
      | terminal =>
        exact htaken.of_confined
          (updateOptions_terminal (OptionMessage.terminalOnly_of_scoped hkept))
          fun hpf => by cases hpf
    · exact htaken

theorem logonResponse_typedAs {connType : AuthConnType} (hne : connType ≠ .remote)
    (h : TypedAs connType c) : TypedAs connType (c.logonResponse env) := by
  unfold logonResponse
  split
  · exact h.of_frame rfl
  · split
    · exact h.of_frame rfl
    · dsimp only
      refine TypedAs.of_frame ?_ startSession_steady.same
      exact updateScopedLoginOptions_typedAs hne (h.of_frame sendLogon_steady.same)

theorem authorize_typedAs (hoptions : c.Untouched) :
    TypedAs c.connTypeToAuthorize.2 c.authorize := by
  obtain ⟨hsame, hauth, htype⟩ := authorize_spec (c := c)
  have hfile : c.authorize.fileTransfer = c.fileTransfer :=
    congrArg (fun v => v.1.2.2.2.2.1) hsame.same
  have hcamera : c.authorize.viewCamera = c.viewCamera :=
    congrArg (fun v => v.1.2.2.2.2.2.1) hsame.same
  have hsocket : c.authorize.portForwardSocket = c.portForwardSocket :=
    congrArg (fun v => v.2.2) hsame.same
  have hopt : c.authorize.toPeerOptions = c.toPeerOptions := congrArg (fun v => v.2.1) hsame.same
  refine ⟨hauth, htype, hoptions.of_mask (congrArg (PeerOptions.mask .remote) hopt), ?_, ?_, ?_⟩
  all_goals
    rw [connTypeToAuthorize]
    split_ifs <;> simp_all

theorem Unopened.untouched (h : c.Unopened) : c.Untouched := by
  have hoptions := h.options
  unfold Untouched
  generalize c.toPeerOptions = o at hoptions
  cases o
  simp_all [PeerOptions.fresh]

variable {r : Bool × Connection}

theorem Logon.settled (h : Logon env c r) (hc : c.Unopened) (hkeep : r.1 = true) : r.2.Settled := by
  cases h with
  | waits _ _ hsame => exact .inl (hc.of_frame hsame.same)
  | refused => cases hkeep
  | enters s hconnected =>
    have hopt : s.toPeerOptions = c.toPeerOptions :=
      congrArg (fun v => v.2.2.2) hconnected.demand.same
    have htyped : TypedAs s.connTypeToAuthorize.2 s.authorize :=
      authorize_typedAs (hc.untouched.of_mask (congrArg (PeerOptions.mask .remote) hopt))
    have hquiet : (s.authorize.logonResponse env).toAuth = s.authorize.toAuth :=
      logonResponse_quiet.same
    refine .inr ⟨(congrArg Auth.authorized hquiet).trans htyped.authorized, _,
      (congrArg Auth.authedConnId hquiet).trans htyped.authedConnId, fun hne => ?_⟩
    exact logonResponse_typedAs hne htyped

theorem logonAndTell_settled {lr : LoginRequest} (hc : c.Unopened)
    (hr : c.logonAndTell env lr = r) (hkeep : r.1 = true) : r.2.Settled := by
  have hlogon : Logon env c (c.sendLogonResponseAndKeepAlive env) :=
    sendLogonResponseAndKeepAlive_logon hc.authorized
  subst hr
  unfold logonAndTell at hkeep ⊢
  rcases hr : c.sendLogonResponseAndKeepAlive env with ⟨_ | _, c₁⟩
  · rw [hr] at hkeep
    cases hkeep
  · rw [hr] at hlogon
    have hsettled : c₁.Settled := hlogon.settled hc rfl
    exact hsettled.of_frame rfl

theorem Approval.settled {lr : LoginRequest} {s : Connection}
    (h : Approval env lr s r) (hs : s.Unopened) (hkeep : r.1 = true) : r.2.Settled := by
  have hset : ∀ auth, (s.setConnAuditPrimaryAuth auth).Unopened := fun _ => hs.congr rfl rfl rfl rfl
  cases h with
  | silent auth _ _ hsame => exact .inl ((hset auth).of_frame hsame.same)
  | tells c₁ hsame hafter =>
    have htold : (c₁.tryStartCm lr.myId lr.myName false).Unopened :=
      (hs.of_frame hsame.same).of_frame rfl
    exact .inl (htold.of_frame hafter.same)
  | refused => cases hkeep
  | logsOn c₁ auth _ hsame => exact logonAndTell_settled ((hset auth).of_frame hsame.same) rfl hkeep

theorem handle_settled (hshared : c.shared = env.shared) (hc : c.Unopened) (e : Event)
    (hkeep : (c.handle env e).1 = true) : (c.handle env e).2.Settled := by
  have hbefore := handle_before hshared hc.authorized e
  generalize c.handle env e = r at hbefore hkeep
  cases hbefore with
  | calm hcalm => exact .inl (hc.of_frame (hcalm.steady hkeep).same)
  | click hb hlogon => exact hlogon.settled (hc.congr rfl rfl rfl rfl) (hb hkeep)
  | rejected => cases hkeep
  | login s hb hstaged _ happroval =>
    exact happroval.settled (hc.of_untouched hstaged.untouched) (hb hkeep)
  | code hb hway =>
    cases hway with
    | ignored hsame => exact .inl (hc.of_frame hsame.same)
    | @accepted c₁ _ _ _ _ hsame hlogon hafter =>
      have hset : { c with require2fa := none, connAuditTwoFactor := .totp }.Unopened :=
        hc.congr rfl rfl rfl rfl
      exact (logonAndTell_settled (hset.of_frame hsame.same) hlogon (hb hkeep)).of_frame hafter.same
  | switch hb hway =>
    cases hway with
    | ignored _ hsame => exact .inl (hc.of_frame hsame.same)
    | accepted s _ _ hstaged _ _ hlogon hafter =>
      have hset : ({ s with fromSwitch := true }.setConnAuditPrimaryAuth .switchSides).Unopened :=
        (hc.of_untouched hstaged).congr rfl rfl rfl rfl
      exact (logonAndTell_settled hset hlogon (hb hkeep)).of_frame hafter.same

theorem handle_typedAs {connType : AuthConnType} (hne : connType ≠ .remote)
    (h : TypedAs connType c) (e : Event) (hkeep : (c.handle env e).1 = true) :
    TypedAs connType (c.handle env e).2 := by
  by_cases hmessage : ∃ msg, e = .message msg
  · obtain ⟨msg, rfl⟩ := hmessage
    refine h.of_confined (onMessage_confined hne h msg) ?_
    rintro rfl
    exact onMessage_tunnel h msg (Bool.and_eq_true_iff.mp hkeep).1
  · cases hentry : e.entry with
    | false =>
      have hcalm : Calm Plain c (c.handle env e) :=
        handle_other_calm hentry fun msg he => hmessage ⟨msg, he⟩
      exact h.of_frame (hcalm.steady hkeep).same
    | true =>
      obtain rfl : e = .cm .authorize := by
        rcases Event.entry_cases hentry with he | ⟨_, he⟩ | ⟨_, _, he⟩ | ⟨_, _, he⟩
        · exact he
        all_goals exact absurd ⟨_, he⟩ hmessage
      have hclick : c.clicked.sendLogonResponseAndKeepAlive env = (true, c.clicked) := by
        unfold sendLogonResponseAndKeepAlive
        exact if_pos h.authorized
      have hhandle : (c.handle env (.cm .authorize)).2
          = (c.clicked.sendLogonResponseAndKeepAlive env).2 := rfl
      rw [hhandle, hclick]
      exact ⟨h.authorized, h.authedConnId, h.options, h.file, h.camera, h.tunnel⟩

end Connection

open Connection

variable {p : Platform}

def Loop.Scoped (l : Loop) : Prop := l.running = true → l.conn.Settled

theorem Loop.step_scoped (l : Loop) (i : Env p × Event) (h : l.Scoped) : (l.step i).Scoped := by
  obtain ⟨env, e⟩ := i
  cases hrunning : l.running with
  | false =>
    rw [Loop.step_stopped hrunning]
    exact h
  | true =>
    rw [Loop.step_running hrunning]
    intro hkeep
    have hseen : (l.conn.seeing env).Settled := (h hrunning).of_frame rfl
    rcases hseen with hwaiting | hopened
    · exact handle_settled rfl hwaiting e hkeep
    · obtain ⟨hauth, connType, htype, htyped⟩ := hopened
      have hstays : StaysIn (l.conn.seeing env) ((l.conn.seeing env).handle env e).2 :=
        handle_staysIn rfl hauth e
      exact .inr ⟨hstays.authorized, connType, hstays.authedConnId.trans htype,
        fun hne => handle_typedAs hne (htyped hne) e hkeep⟩

theorem start_scoped (env : Env p) (m : Meta) : (start env m).Scoped := by
  have hnew : (new env m).Unopened := ⟨rfl, rfl, rfl, rfl⟩
  exact fun _ => .inl (hnew.of_frame sendPermissions_steady.same)

theorem typedAs_of_run (env₀ : Env p) (m : Meta) (is : List (Env p × Event))
    {connType : AuthConnType} (hne : connType ≠ .remote)
    (hrunning : (exec Loop.step (start env₀ m) is).running = true)
    (hauth : (exec Loop.step (start env₀ m) is).conn.authorized = true)
    (htype : (exec Loop.step (start env₀ m) is).conn.authedConnId = some connType) (env : Env p) :
    TypedAs connType ((exec Loop.step (start env₀ m) is).conn.seeing env) := by
  have hscoped : (exec Loop.step (start env₀ m) is).Scoped :=
    (always_of_step Loop.step_scoped (start_scoped env₀ m) is).last
  rcases hscoped hrunning with hwaiting | ⟨_, connType', htype', htyped⟩
  · rw [hwaiting.authorized] at hauth
    cases hauth
  · obtain rfl : connType' = connType := Option.some.inj (htype'.symm.trans htype)
    exact (htyped hne).of_frame rfl

/-- **Sessions keep to their scope.**  In every state of every run, whatever the peer of
an authorized session that is not remote control sends next: nothing outside the type of
the session is done, and no field that authorization or another type's options decide
changes; what is let pass for compatibility changes nothing at all; and of an option
message nothing is applied but what the filter of the type keeps. -/
theorem session_confined (env₀ : Env p) (m : Meta) (is : List (Env p × Event))
    (connType : AuthConnType) (hne : connType ≠ .remote)
    (hrunning : (exec Loop.step (start env₀ m) is).running = true)
    (hauth : (exec Loop.step (start env₀ m) is).conn.authorized = true)
    (htype : (exec Loop.step (start env₀ m) is).conn.authedConnId = some connType)
    (env : Env p) :
    let c := (exec Loop.step (start env₀ m) is).conn.seeing env
    (∀ msg, Confined connType c (c.onMessage env msg).2) ∧
    (∀ msg, passesIgnored connType msg = true → c.onMessage env msg = (true, c)) ∧
    ∀ o : OptionMessage,
      c.onMessage env (.misc (some (.option o)))
          = c.handleAuthorizedScopeViolation env "misc.option" ∨
        c.onMessage env (.misc (some (.option o))) = (true, c) ∨
        ∃ kept, (scopedLoginOption connType o).1 = some kept ∧
          c.onMessage env (.misc (some (.option o))) = (true, c.updateOptions env kept) := by
  have htyped := typedAs_of_run env₀ m is hne hrunning hauth htype env
  exact ⟨onMessage_confined hne htyped, fun _ => onMessage_ignored htyped,
    onMessage_option htyped hne⟩

def cameraLogin : LoginRequest :=
  { LoginRequest.default with myId := "peer", union := some .viewCamera }

def keyPress : KeyEvent := ⟨true, true, none, [], .ok .legacy⟩

/-- The user lets a peer see the camera.  It cannot type. -/
theorem camera_ignores_keys :
    (exec Loop.step (start (.idle linux) .idle)
      [(passwordTime, .message (.loginRequest cameraLogin)),
        (passwordTime, .cm .authorize)]).conn.authedConnId = some .viewCamera ∧
    ((exec Loop.step (start (.idle linux) .idle)
      [(passwordTime, .message (.loginRequest cameraLogin)),
        (passwordTime, .cm .authorize)]).conn.seeing passwordTime).onMessage passwordTime
          (.keyEvent keyPress)
      = (true, (exec Loop.step (start (.idle linux) .idle)
          [(passwordTime, .message (.loginRequest cameraLogin)),
            (passwordTime, .cm .authorize)]).conn.seeing passwordTime) :=
  ⟨by decide, (session_confined (.idle linux) .idle
    [(passwordTime, .message (.loginRequest cameraLogin)), (passwordTime, .cm .authorize)]
    .viewCamera (by decide) (by decide) (by decide) (by decide) passwordTime).2.1 _ rfl⟩

end RustDesk
