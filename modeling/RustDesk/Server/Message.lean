import RustDesk.Fs.TransferJob

/-!
# Messages of the peer

The messages of `message.proto` as the controlled side sees them.  Every variant of
`Message`, `Misc`, `FileAction` and `FileResponse` is here; what no handler looks
into is kept as bytes.
-/

namespace RustDesk

/-- A known value or the number of an unknown one. -/
abbrev EnumOrUnknown (α : Type) := Except Int α

inductive BoolOption where
  | notSet
  | no
  | yes
  deriving DecidableEq

inductive ImageQuality where
  | notSet
  | low
  | balanced
  | best
  deriving DecidableEq

def ImageQuality.value : ImageQuality → Int
  | .notSet => 0
  | .low => 2
  | .balanced => 3
  | .best => 4

/-- `OptionMessage`; `supported_decoding` goes to the encoder as it is. -/
structure OptionMessage where
  imageQuality : EnumOrUnknown ImageQuality
  lockAfterSessionEnd : EnumOrUnknown BoolOption
  showRemoteCursor : EnumOrUnknown BoolOption
  privacyMode : EnumOrUnknown BoolOption
  blockInput : EnumOrUnknown BoolOption
  customImageQuality : Int
  disableAudio : EnumOrUnknown BoolOption
  disableClipboard : EnumOrUnknown BoolOption
  enableFileTransfer : EnumOrUnknown BoolOption
  supportedDecoding : Option Bytes
  customFps : Int
  disableKeyboard : EnumOrUnknown BoolOption
  followRemoteCursor : EnumOrUnknown BoolOption
  followRemoteWindow : EnumOrUnknown BoolOption
  disableCamera : EnumOrUnknown BoolOption
  terminalPersistent : EnumOrUnknown BoolOption
  showMyCursor : EnumOrUnknown BoolOption

/-- `OptionMessage::new`: nothing set. -/
def OptionMessage.new : OptionMessage where
  imageQuality := .ok .notSet
  lockAfterSessionEnd := .ok .notSet
  showRemoteCursor := .ok .notSet
  privacyMode := .ok .notSet
  blockInput := .ok .notSet
  customImageQuality := 0
  disableAudio := .ok .notSet
  disableClipboard := .ok .notSet
  enableFileTransfer := .ok .notSet
  supportedDecoding := none
  customFps := 0
  disableKeyboard := .ok .notSet
  followRemoteCursor := .ok .notSet
  followRemoteWindow := .ok .notSet
  disableCamera := .ok .notSet
  terminalPersistent := .ok .notSet
  showMyCursor := .ok .notSet

structure PortForward where
  host : String
  port : Int

/-- `login_request::Union`. -/
inductive LoginUnion where
  | fileTransfer (dir : String) (showHidden : Bool)
  | portForward (pf : PortForward)
  | viewCamera
  | terminal (serviceId : String)

structure OsLogin where
  username : String
  password : String

structure LoginRequest where
  username : String
  password : Bytes
  myId : String
  myName : String
  option : Option OptionMessage
  union : Option LoginUnion
  videoAckRequired : Bool
  sessionId : Nat
  version : String
  osLogin : Option OsLogin
  myPlatform : String
  hwid : Bytes
  avatar : String

def LoginRequest.default : LoginRequest where
  username := ""
  password := []
  myId := ""
  myName := ""
  option := none
  union := none
  videoAckRequired := false
  sessionId := 0
  version := ""
  osLogin := none
  myPlatform := ""
  hwid := []
  avatar := ""

/-- `lr.os_login.username`, empty if there is no login. -/
def LoginRequest.osUsername (lr : LoginRequest) : String :=
  match lr.osLogin with
  | some login => login.username
  | none => ""

/-- `lr.os_login.password`. -/
def LoginRequest.osPassword (lr : LoginRequest) : String :=
  match lr.osLogin with
  | some login => login.password
  | none => ""

structure MouseEvent where
  mask : Int
  x : Int
  y : Int
  modifiers : List Int

/-- `touch_event::Union`. -/
inductive TouchEvent where
  | scaleUpdate (scale : Int)
  | panStart (x y : Int)
  | panUpdate (x y : Int)
  | panEnd (x y : Int)

structure PointerDeviceEvent where
  touch : Option TouchEvent
  modifiers : List Int

inductive KeyboardMode where
  | legacy
  | map
  | translate
  | auto

/-- `key_event::Union`; a control key is its number. -/
inductive KeyUnion where
  | controlKey (value : Int)
  | chr (code : Nat)
  | unicode (code : Nat)
  | seq (text : String)
  | win2winHotkey (code : Nat)
  deriving DecidableEq

structure KeyEvent where
  down : Bool
  press : Bool
  union : Option KeyUnion
  modifiers : List Int
  mode : EnumOrUnknown KeyboardMode

def KeyEvent.chr (me : KeyEvent) : Nat :=
  match me.union with
  | some (.chr code) => code
  | _ => 0

/-- `file_transfer_send_request::FileType`. -/
abbrev SendFileType := EnumOrUnknown JobType

/-- `JobType::from_proto`: an unknown kind is generic. -/
def JobType.fromProto : SendFileType → JobType
  | .ok t => t
  | .error _ => .generic

inductive FileAction where
  | readDir (path : String) (includeHidden : Bool)
  | send (id : Int) (path : String) (includeHidden : Bool) (fileNum : Int)
      (fileType : SendFileType)
  | receive (id : Int) (path : String) (files : List FileEntry) (fileNum : Int)
      (totalSize : Nat)
  | create (id : Int) (path : String)
  | removeDir (id : Int) (path : String) (isRecursive : Bool)
  | removeFile (id : Int) (path : String) (fileNum : Int)
  | allFiles (id : Int) (path : String) (includeHidden : Bool)
  | cancel (id : Int)
  | sendConfirm (r : FileTransferSendConfirmRequest)
  | rename (id : Int) (path newName : String)
  | readEmptyDirs (path : String) (includeHidden : Bool)

inductive FileResponse where
  | dir (payload : Bytes)
  | block (b : FileTransferBlock)
  | error (id : Int) (error : String) (fileNum : Int)
  | done (id fileNum : Int)
  | digest (id fileNum : Int) (lastModified fileSize : Nat) (isResume : Bool)
  | emptyDirs (payload : Bytes)

/-- `cliprdr::Union`, as far as the handler tells them apart. -/
inductive Cliprdr where
  | files (files : List (String × Nat))
  | other (payload : Bytes)

structure Resolution where
  width : Int
  height : Int

inductive ElevationRequest where
  | direct (b : Bool)
  | logon (username password : String)

/-- `misc::Union`. -/
inductive Misc where
  | chatMessage (text : String)
  | switchDisplay (display width height : Int)
  | permissionInfo (payload : Bytes)
  | option (o : OptionMessage)
  | audioFormat (payload : Bytes)
  | closeReason (reason : String)
  | refreshVideo (all : Bool)
  | videoReceived (b : Bool)
  | backNotification (payload : Bytes)
  | restartRemoteDevice (b : Bool)
  | uac (b : Bool)
  | foregroundWindowElevated (b : Bool)
  | stopService (b : Bool)
  | elevationRequest (r : Option ElevationRequest)
  | elevationResponse (text : String)
  | portableServiceRunning (b : Bool)
  | switchSidesRequest (uuid : Bytes)
  | switchBack
  | changeResolution (r : Resolution)
  | pluginRequest (id : String) (content : Bytes)
  | pluginFailure (payload : Bytes)
  | fullSpeedFps (fps : Nat)
  | autoAdjustFps (fps : Nat)
  | clientRecordStatus (b : Bool)
  | captureDisplays (add sub set : List Int)
  | refreshVideoDisplay (display : Int)
  | toggleVirtualDisplay (display : Int) (on : Bool)
  | togglePrivacyMode (implKey : String) (on : Bool)
  | supportedEncoding (payload : Bytes)
  | selectedSid (sid : Nat)
  | changeDisplayResolution (display : Int) (r : Resolution)
  | messageQuery (switchDisplay : Int)
  | followCurrentDisplay (display : Int)

/-- `message::Union`. -/
inductive Message where
  | signedId (payload : Bytes)
  | publicKey (payload : Bytes)
  | testDelay (time : Int) (fromClient : Bool)
  | videoFrame (payload : Bytes)
  | loginRequest (lr : LoginRequest)
  | loginResponse (payload : Bytes)
  | hash (payload : Bytes)
  | mouseEvent (me : MouseEvent)
  | audioFrame (data : Bytes)
  | cursorData (payload : Bytes)
  | cursorPosition (x y : Int)
  | cursorId (id : Nat)
  | keyEvent (me : KeyEvent)
  | clipboard (content : Bytes)
  | fileAction (fa : Option FileAction)
  | fileResponse (fr : Option FileResponse)
  | misc (misc : Option Misc)
  | cliprdr (clip : Cliprdr)
  | messageBox (payload : Bytes)
  | switchSidesResponse (uuid : Bytes) (lr : Option LoginRequest)
  | voiceCallRequest (reqTimestamp : Int) (isConnect : Bool)
  | voiceCallResponse (payload : Bytes)
  | peerInfo (payload : Bytes)
  | pointerDeviceEvent (pde : PointerDeviceEvent)
  | auth2fa (code : String) (hwid : Bytes)
  | multiClipboards (contents : List Bytes)
  | screenshotRequest (display : Int) (sid : String)
  | screenshotResponse (payload : Bytes)
  | terminalAction (payload : Bytes)
  | terminalResponse (payload : Bytes)
  | empty

end RustDesk
