import RustDesk.Server.Message

/-!
# Session scopes

An authorized connection has a type.  Before a message reaches its handler the gate
`authorized_message_scope_violation` decides whether this type may send it, and the
options of a message or of the login are cut down to the fields the type may set.

This file is the pure part: the gate, the option filters, and what the filters keep.
-/

namespace RustDesk

inductive Os where
  | windows
  | linux
  | macos
  | android
  | ios
  deriving DecidableEq

structure Build where
  os : Os
  flutter : Bool
  unixFileCopyPaste : Bool
  pluginFramework : Bool

/-- `any(target_os = "android", target_os = "ios")`. -/
def Build.mobile (b : Build) : Bool := b.os = .android || b.os = .ios

inductive AuthConnType where
  | remote
  | fileTransfer
  | portForward
  | viewCamera
  | terminal
  deriving DecidableEq

def isBoolOptionNotSet (o : EnumOrUnknown BoolOption) : Bool := o = .ok .notSet

namespace OptionMessage

/-- `option_has_non_view_camera_login_field`. -/
def hasNonViewCameraLoginField (o : OptionMessage) : Bool :=
  !(isBoolOptionNotSet o.lockAfterSessionEnd
    && isBoolOptionNotSet o.showRemoteCursor
    && isBoolOptionNotSet o.privacyMode
    && isBoolOptionNotSet o.blockInput
    && isBoolOptionNotSet o.disableClipboard
    && isBoolOptionNotSet o.enableFileTransfer
    && isBoolOptionNotSet o.disableKeyboard
    && isBoolOptionNotSet o.followRemoteCursor
    && isBoolOptionNotSet o.followRemoteWindow
    && isBoolOptionNotSet o.disableCamera
    && isBoolOptionNotSet o.terminalPersistent
    && isBoolOptionNotSet o.showMyCursor)

/-- `option_has_non_terminal_login_field`. -/
def hasNonTerminalLoginField (o : OptionMessage) : Bool :=
  o.imageQuality ≠ .ok .notSet
    || o.customImageQuality ≠ 0
    || o.customFps ≠ 0
    || o.supportedDecoding.isSome
    || !isBoolOptionNotSet o.lockAfterSessionEnd
    || !isBoolOptionNotSet o.showRemoteCursor
    || !isBoolOptionNotSet o.privacyMode
    || !isBoolOptionNotSet o.blockInput
    || !isBoolOptionNotSet o.disableAudio
    || !isBoolOptionNotSet o.disableClipboard
    || !isBoolOptionNotSet o.enableFileTransfer
    || !isBoolOptionNotSet o.disableKeyboard
    || !isBoolOptionNotSet o.followRemoteCursor
    || !isBoolOptionNotSet o.followRemoteWindow
    || !isBoolOptionNotSet o.disableCamera
    || !isBoolOptionNotSet o.showMyCursor

/-- `option_has_any_field`. -/
def hasAnyField (o : OptionMessage) : Bool :=
  o.hasNonTerminalLoginField || !isBoolOptionNotSet o.terminalPersistent

/-- `is_supported_decoding_only_option`. -/
def isSupportedDecodingOnly (o : OptionMessage) : Bool :=
  o.supportedDecoding.isSome
    && o.imageQuality = .ok .notSet
    && o.customImageQuality = 0
    && o.customFps = 0
    && isBoolOptionNotSet o.lockAfterSessionEnd
    && isBoolOptionNotSet o.showRemoteCursor
    && isBoolOptionNotSet o.privacyMode
    && isBoolOptionNotSet o.blockInput
    && isBoolOptionNotSet o.disableAudio
    && isBoolOptionNotSet o.disableClipboard
    && isBoolOptionNotSet o.enableFileTransfer
    && isBoolOptionNotSet o.disableKeyboard
    && isBoolOptionNotSet o.followRemoteCursor
    && isBoolOptionNotSet o.followRemoteWindow
    && isBoolOptionNotSet o.disableCamera
    && isBoolOptionNotSet o.terminalPersistent
    && isBoolOptionNotSet o.showMyCursor

def known (o : EnumOrUnknown BoolOption) : EnumOrUnknown BoolOption :=
  match o with
  | .ok value => .ok value
  | .error _ => .ok .notSet

/-- `scoped_view_camera_option`: the fields kept, if any, and the violation. -/
def scopedViewCamera (o : OptionMessage) : Option OptionMessage × Option String :=
  let kept := { new with
    imageQuality := if o.imageQuality.isOk then o.imageQuality else .ok .notSet
    customImageQuality := if o.customImageQuality ≥ 0 then o.customImageQuality else 0
    customFps := if o.customFps ≥ 0 then o.customFps else 0
    supportedDecoding := o.supportedDecoding
    disableAudio := known o.disableAudio }
  (if kept.hasAnyField then some kept else none,
    if o.hasNonViewCameraLoginField then some "login.option" else none)

/-- `scoped_terminal_login_option`. -/
def scopedTerminalLogin (o : OptionMessage) : Option OptionMessage × Option String :=
  let kept := { new with terminalPersistent := known o.terminalPersistent }
  (if kept.hasAnyField then some kept else none,
    if !o.terminalPersistent.isOk || o.hasNonTerminalLoginField then some "login.option"
    else none)

end OptionMessage

def scopedLoginOption (connType : AuthConnType) (o : OptionMessage) :
    Option OptionMessage × Option String :=
  match connType with
  | .remote => (some o, none)
  | .viewCamera => o.scopedViewCamera
  | .terminal => o.scopedTerminalLogin
  | .fileTransfer | .portForward => (none, if o.hasAnyField then some "login.option" else none)

def isConnectionHousekeepingMessage : Message → Bool
  | .loginRequest _ => true
  | .testDelay _ _ => true
  | .misc (some (.closeReason _)) => true
  | _ => false

def isRenderBroadcastNoopCompatMessage : Message → Bool
  | .misc (some (.refreshVideo _)) => true
  | .misc (some (.refreshVideoDisplay _)) => true
  | .misc (some (.option o)) => o.isSupportedDecodingOnly
  | _ => false

def isTextClipboardNoopCompatMessage : Message → Bool
  | .clipboard _ => true
  | .multiClipboards _ => true
  | _ => false

def isFileTransferScopedMisc (b : Build) : Misc → Bool
  | .selectedSid _ => b.os = .windows
  | _ => false

def isFileTransferScopedMessage (b : Build) : Message → Bool
  | .fileAction _ => true
  | .fileResponse _ => true
  | .misc (some misc) => isFileTransferScopedMisc b misc
  | _ => false

def isTerminalScopedMisc : Misc → Bool
  | .chatMessage _ => true
  | .option o => o.scopedTerminalLogin.2 = none
  | _ => false

def isTerminalScopedMessage : Message → Bool
  | .terminalAction _ => true
  | .misc (some misc) => isTerminalScopedMisc misc
  | _ => false

def isViewCameraScopedMisc (b : Build) : Misc → Bool
  | .switchDisplay _ _ _ => true
  | .captureDisplays _ _ _ => true
  | .refreshVideo _ => true
  | .refreshVideoDisplay _ => true
  | .videoReceived _ => true
  | .chatMessage _ => true
  | .audioFormat _ => true
  | .clientRecordStatus _ => true
  | .messageQuery _ => true
  | .togglePrivacyMode _ _ => true
  | .toggleVirtualDisplay _ _ => true
  | .changeResolution _ => true
  | .changeDisplayResolution _ _ => true
  | .option o => o.scopedViewCamera.2 = none
  | .selectedSid _ => b.os = .windows
  | _ => false

def isViewCameraScopedMessage (b : Build) : Message → Bool
  | .screenshotRequest _ _ => true
  | .misc (some misc) => isViewCameraScopedMisc b misc
  | .mouseEvent _ => true
  | .pointerDeviceEvent _ => true
  | .keyEvent _ => true
  | .audioFrame _ => true
  | .voiceCallRequest _ _ => true
  | .voiceCallResponse _ => true
  | _ => false

def miscMessageFamily : Option Misc → String
  | some (.chatMessage _) => "misc.chat_message"
  | some (.switchDisplay _ _ _) => "misc.switch_display"
  | some (.option _) => "misc.option"
  | some (.audioFormat _) => "misc.audio_format"
  | some (.captureDisplays _ _ _) => "misc.capture_displays"
  | some (.clientRecordStatus _) => "misc.client_record_status"
  | some (.togglePrivacyMode _ _) => "misc.toggle_privacy_mode"
  | some (.toggleVirtualDisplay _ _) => "misc.toggle_virtual_display"
  | some (.selectedSid _) => "misc.selected_sid"
  | some (.changeResolution _) => "misc.change_resolution"
  | some (.changeDisplayResolution _ _) => "misc.change_display_resolution"
  | some (.messageQuery _) => "misc.message_query"
  | some (.followCurrentDisplay _) => "misc.follow_current_display"
  | some (.switchSidesRequest _) => "misc.switch_sides_request"
  | some _ => "misc.other"
  | none => "misc.empty"

def messageFamily : Message → String
  | .mouseEvent _ => "mouse_event"
  | .audioFrame _ => "audio_frame"
  | .pointerDeviceEvent _ => "pointer_device_event"
  | .keyEvent _ => "key_event"
  | .clipboard _ => "clipboard"
  | .fileAction _ => "file_action"
  | .fileResponse _ => "file_response"
  | .voiceCallRequest _ _ => "voice_call_request"
  | .voiceCallResponse _ => "voice_call_response"
  | .multiClipboards _ => "multi_clipboards"
  | .screenshotRequest _ _ => "screenshot_request"
  | .screenshotResponse _ => "screenshot_response"
  | .terminalAction _ => "terminal_action"
  | .terminalResponse _ => "terminal_response"
  | .misc misc => miscMessageFamily misc
  | .empty => "empty"
  | _ => "message.other"

/-- Messages that old clients broadcast to all their sessions, and that a session of
this type lets pass and then ignores. -/
def noopCompat (connType : AuthConnType) (msg : Message) : Bool :=
  match connType with
  | .fileTransfer | .terminal =>
    isRenderBroadcastNoopCompatMessage msg || isTextClipboardNoopCompatMessage msg
  | .portForward => isRenderBroadcastNoopCompatMessage msg
  | .viewCamera => isTextClipboardNoopCompatMessage msg
  | .remote => false

def allowedMessage (b : Build) (connType : AuthConnType) (msg : Message) : Bool :=
  match connType with
  | .remote => true
  | .fileTransfer => isFileTransferScopedMessage b msg
  | .portForward => false
  | .viewCamera => isViewCameraScopedMessage b msg
  | .terminal => isTerminalScopedMessage msg

def authorizedMessageScopeViolation (b : Build) (connType : AuthConnType) (msg : Message) :
    Option String :=
  if isConnectionHousekeepingMessage msg then none
  else if noopCompat connType msg then none
  else if allowedMessage b connType msg then none
  else some (messageFamily msg)

namespace OptionMessage

structure ViewCameraOnly (o : OptionMessage) : Prop where
  lockAfterSessionEnd : o.lockAfterSessionEnd = .ok .notSet
  showRemoteCursor : o.showRemoteCursor = .ok .notSet
  privacyMode : o.privacyMode = .ok .notSet
  blockInput : o.blockInput = .ok .notSet
  disableClipboard : o.disableClipboard = .ok .notSet
  enableFileTransfer : o.enableFileTransfer = .ok .notSet
  disableKeyboard : o.disableKeyboard = .ok .notSet
  followRemoteCursor : o.followRemoteCursor = .ok .notSet
  followRemoteWindow : o.followRemoteWindow = .ok .notSet
  terminalPersistent : o.terminalPersistent = .ok .notSet
  showMyCursor : o.showMyCursor = .ok .notSet

/-- A message that sets nothing but `terminal_persistent`. -/
structure TerminalOnly (o : OptionMessage) : Prop where
  imageQuality : o.imageQuality = .ok .notSet
  customImageQuality : o.customImageQuality = 0
  customFps : o.customFps = 0
  supportedDecoding : o.supportedDecoding = none
  lockAfterSessionEnd : o.lockAfterSessionEnd = .ok .notSet
  showRemoteCursor : o.showRemoteCursor = .ok .notSet
  privacyMode : o.privacyMode = .ok .notSet
  blockInput : o.blockInput = .ok .notSet
  disableAudio : o.disableAudio = .ok .notSet
  disableClipboard : o.disableClipboard = .ok .notSet
  enableFileTransfer : o.enableFileTransfer = .ok .notSet
  disableKeyboard : o.disableKeyboard = .ok .notSet
  followRemoteCursor : o.followRemoteCursor = .ok .notSet
  followRemoteWindow : o.followRemoteWindow = .ok .notSet
  showMyCursor : o.showMyCursor = .ok .notSet

theorem viewCameraOnly_of_scoped {o kept : OptionMessage}
    (h : o.scopedViewCamera.1 = some kept) : kept.ViewCameraOnly := by
  simp only [scopedViewCamera, Option.ite_none_right_eq_some, Option.some.injEq] at h
  obtain ⟨-, rfl⟩ := h
  constructor <;> rfl

theorem terminalOnly_of_scoped {o kept : OptionMessage}
    (h : o.scopedTerminalLogin.1 = some kept) : kept.TerminalOnly := by
  simp only [scopedTerminalLogin, Option.ite_none_right_eq_some, Option.some.injEq] at h
  obtain ⟨-, rfl⟩ := h
  constructor <;> rfl

theorem scopedTerminalLogin_decodingOnly {o : OptionMessage}
    (h : o.isSupportedDecodingOnly = true) : o.scopedTerminalLogin.1 = none := by
  have hpersistent : o.terminalPersistent = .ok .notSet := by
    simp only [isSupportedDecodingOnly, isBoolOptionNotSet, Bool.and_eq_true,
      decide_eq_true_eq] at h
    exact h.1.2
  unfold scopedTerminalLogin
  simp [hpersistent, known, hasAnyField, hasNonTerminalLoginField, isBoolOptionNotSet, new]

end OptionMessage
end RustDesk
