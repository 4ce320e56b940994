import RustDesk.Lib.HeldKeys

/-!
# The modifier keys of a session (Flutter client)

Key events come in two kinds: `KeyEvent`, and on Linux `RawKeyEvent`, which tells the
modifiers that are pressed.  The handler of each keeps four flags and, for nine modifier keys,
the event that will release the key when the pointer enters or leaves the remote image.

The four flags are one function here, and so are the nine slots.  Of an event there is its key
and, if it is raw, its modifier flags.  The handlers begin where the event is not filtered out,
and end with the event that is forwarded to the peer.  Repeated downs are left out.
-/

open HeldKeys

namespace RustDesk

inductive Modifier where
  | alt
  | ctrl
  | shift
  | command
  deriving DecidableEq

/-- `LogicalKeyboardKey`. -/
inductive LogicalKey where
  | altLeft
  | altRight
  | controlLeft
  | controlRight
  | shiftLeft
  | shiftRight
  | metaLeft
  | metaRight
  | superKey
  | other (keyId : Nat)
  deriving DecidableEq

namespace LogicalKey

def modifier? : LogicalKey → Option Modifier
  | altLeft | altRight => some .alt
  | controlLeft | controlRight => some .ctrl
  | shiftLeft | shiftRight => some .shift
  | metaLeft | metaRight | superKey => some .command
  | other _ => none

end LogicalKey

def Modifier.keys : Modifier → List LogicalKey
  | alt => [.altLeft, .altRight]
  | ctrl => [.controlLeft, .controlRight]
  | shift => [.shiftLeft, .shiftRight]
  | command => [.metaLeft, .metaRight, .superKey]

/-- The fields of `ToReleaseKeys` and `ToReleaseRawKeys`. -/
inductive Slot where
  | lastLShiftKeyEvent
  | lastRShiftKeyEvent
  | lastLCtrlKeyEvent
  | lastRCtrlKeyEvent
  | lastLAltKeyEvent
  | lastRAltKeyEvent
  | lastLCommandKeyEvent
  | lastRCommandKeyEvent
  | lastSuperKeyEvent
  deriving DecidableEq

def Slot.all : List Slot :=
  [.lastLShiftKeyEvent, .lastRShiftKeyEvent, .lastLCtrlKeyEvent, .lastRCtrlKeyEvent,
    .lastLAltKeyEvent, .lastRAltKeyEvent, .lastLCommandKeyEvent, .lastRCommandKeyEvent,
    .lastSuperKeyEvent]

/-- A `RawKeyEvent`: its key, and whether alt, control, shift and meta are pressed. -/
structure RawKeyEvent where
  logicalKey : LogicalKey
  isPressed : Modifier → Bool

/-- The flags, the key-ups of `toReleaseKeys`, the key-downs of `toReleaseRawKeys`, and what has
been forwarded to the peer, the latest first. -/
structure InputModel where
  modifier : Modifier → Bool
  toReleaseKeys : Slot → Option LogicalKey
  toReleaseRawKeys : Slot → Option RawKeyEvent
  forwarded : List (Stroke LogicalKey)

namespace InputModel

def start : InputModel where
  modifier _ := false
  toReleaseKeys _ := none
  toReleaseRawKeys _ := none
  forwarded := []

def setModifier (s : InputModel) (m : Modifier) (b : Bool) : InputModel :=
  { s with modifier := Function.update s.modifier m b }

def setKey (s : InputModel) (slot : Slot) (e : Option LogicalKey) : InputModel :=
  { s with toReleaseKeys := Function.update s.toReleaseKeys slot e }

def setRawKey (s : InputModel) (slot : Slot) (e : Option RawKeyEvent) : InputModel :=
  { s with toReleaseRawKeys := Function.update s.toReleaseRawKeys slot e }

def forward (s : InputModel) (stroke : Stroke LogicalKey) : InputModel :=
  { s with forwarded := stroke :: s.forwarded }

def holds (s : InputModel) (k : LogicalKey) : Bool := held s.forwarded k

def resetModifiers (s : InputModel) : InputModel := { s with modifier := fun _ => false }

def shouldReleaseStaleMobileShift (isMobile cachedShiftPressed actualShiftPressed : Bool)
    (logicalKey : LogicalKey) (hasTrackedShiftKeyDown : Bool) : Bool :=
  if !isMobile || !cachedShiftPressed || actualShiftPressed then false
  else if !hasTrackedShiftKeyDown then false
  else if logicalKey = .shiftLeft ∨ logicalKey = .shiftRight then false
  else true

def handleKeyDownEventModifiers (s : InputModel) (e : LogicalKey) : InputModel :=
  match e with
  | .altLeft => (s.setModifier .alt true).setKey .lastLAltKeyEvent (some e)
  -- as the source has it, not the slot of the right key
  | .altRight => (s.setModifier .alt true).setKey .lastLAltKeyEvent (some e)
  | .controlLeft => (s.setModifier .ctrl true).setKey .lastLCtrlKeyEvent (some e)
  | .controlRight => (s.setModifier .ctrl true).setKey .lastRCtrlKeyEvent (some e)
  | .shiftLeft => (s.setModifier .shift true).setKey .lastLShiftKeyEvent (some e)
  | .shiftRight => (s.setModifier .shift true).setKey .lastRShiftKeyEvent (some e)
  | .metaLeft => (s.setModifier .command true).setKey .lastLCommandKeyEvent (some e)
  | .metaRight => (s.setModifier .command true).setKey .lastRCommandKeyEvent (some e)
  | .superKey => (s.setModifier .command true).setKey .lastSuperKeyEvent (some e)
  | .other _ => s

def handleKeyUpEventModifiers (s : InputModel) (e : LogicalKey) : InputModel :=
  match e with
  | .altLeft => (s.setModifier .alt false).setKey .lastLAltKeyEvent none
  | .altRight => (s.setModifier .alt false).setKey .lastRAltKeyEvent none
  | .controlLeft => (s.setModifier .ctrl false).setKey .lastLCtrlKeyEvent none
  | .controlRight => (s.setModifier .ctrl false).setKey .lastRCtrlKeyEvent none
  | .shiftLeft => (s.setModifier .shift false).setKey .lastLShiftKeyEvent none
  | .shiftRight => (s.setModifier .shift false).setKey .lastRShiftKeyEvent none
  | .metaLeft => (s.setModifier .command false).setKey .lastLCommandKeyEvent none
  | .metaRight => (s.setModifier .command false).setKey .lastRCommandKeyEvent none
  | .superKey => (s.setModifier .command false).setKey .lastSuperKeyEvent none
  | .other _ => s

/-- `handleKeyEvent` for a key-up. -/
def handleKeyUp (s : InputModel) (e : LogicalKey) : InputModel :=
  (s.handleKeyUpEventModifiers e).forward (.release e)

def releaseTrackedShiftKeyEventIfNeeded (s : InputModel) : InputModel :=
  ([Slot.lastLShiftKeyEvent, .lastRShiftKeyEvent].filterMap s.toReleaseKeys).foldl handleKeyUp s

/-- `handleKeyEvent` for a key-down, with what `HardwareKeyboard` says of shift. -/
def handleKeyDown (isMobile : Bool) (s : InputModel) (e : LogicalKey) (isShiftPressed : Bool) :
    InputModel :=
  let s := s.handleKeyDownEventModifiers e
  let hasTrackedShiftKeyDown := (s.toReleaseKeys .lastLShiftKeyEvent).isSome ||
    (s.toReleaseKeys .lastRShiftKeyEvent).isSome
  let s :=
    if shouldReleaseStaleMobileShift isMobile (s.modifier .shift) isShiftPressed e
        hasTrackedShiftKeyDown then
      s.releaseTrackedShiftKeyEventIfNeeded
    else s
  s.forward (.press e)

/-- `ToReleaseKeys.release`. -/
def releaseKeys (s : InputModel) : InputModel :=
  (Slot.all.filterMap s.toReleaseKeys).foldl handleKeyUp s

/-- The chain of `updateKeyDown` and `updateKeyUp`, `v` being what is put into the slot. -/
def updateKey (s : InputModel) (e : RawKeyEvent) (v : Option RawKeyEvent) : InputModel :=
  if e.isPressed .alt then
    match e.logicalKey with
    | .altLeft => s.setRawKey .lastLAltKeyEvent v
    | .altRight => s.setRawKey .lastRAltKeyEvent v
    | _ => s
  else if e.isPressed .ctrl then
    match e.logicalKey with
    | .controlLeft => s.setRawKey .lastLCtrlKeyEvent v
    | .controlRight => s.setRawKey .lastRCtrlKeyEvent v
    | _ => s
  else if e.isPressed .shift then
    match e.logicalKey with
    | .shiftLeft => s.setRawKey .lastLShiftKeyEvent v
    | .shiftRight => s.setRawKey .lastRShiftKeyEvent v
    | _ => s
  else if e.isPressed .command then
    match e.logicalKey with
    | .metaLeft => s.setRawKey .lastLCommandKeyEvent v
    | .metaRight => s.setRawKey .lastRCommandKeyEvent v
    | .superKey => s.setRawKey .lastSuperKeyEvent v
    | _ => s
  else s

def updateKeyDown (s : InputModel) (e : RawKeyEvent) : InputModel := s.updateKey e (some e)

def updateKeyUp (s : InputModel) (e : RawKeyEvent) : InputModel := s.updateKey e none

/-- `handleRawKeyEvent` for a key-up. -/
def handleRawKeyUp (s : InputModel) (e : RawKeyEvent) : InputModel :=
  let s :=
    match e.logicalKey with
    | .altLeft | .altRight => s.setModifier .alt false
    | .controlLeft | .controlRight => s.setModifier .ctrl false
    | .shiftRight | .shiftLeft => s.setModifier .shift false
    | .metaLeft | .metaRight | .superKey => s.setModifier .command false
    | .other _ => s
  (s.updateKeyUp e).forward (.release e.logicalKey)

def releaseTrackedRawShiftKeyEventIfNeeded (s : InputModel) : InputModel :=
  ([Slot.lastLShiftKeyEvent, .lastRShiftKeyEvent].filterMap s.toReleaseRawKeys).foldl
    handleRawKeyUp s

/-- `handleRawKeyEvent` for a key-down. -/
def handleRawKeyDown (isMobile : Bool) (s : InputModel) (e : RawKeyEvent) : InputModel :=
  let s :=
    if e.isPressed .alt && !s.modifier .alt then s.setModifier .alt true
    else if e.isPressed .ctrl && !s.modifier .ctrl then s.setModifier .ctrl true
    else if e.isPressed .shift && !s.modifier .shift then s.setModifier .shift true
    else if e.isPressed .command && !s.modifier .command then s.setModifier .command true
    else s
  let s := s.updateKeyDown e
  let hasTrackedShiftKeyDown := (s.toReleaseRawKeys .lastLShiftKeyEvent).isSome ||
    (s.toReleaseRawKeys .lastRShiftKeyEvent).isSome
  let s :=
    if shouldReleaseStaleMobileShift isMobile (s.modifier .shift) (e.isPressed .shift)
        e.logicalKey hasTrackedShiftKeyDown then
      s.releaseTrackedRawShiftKeyEventIfNeeded
    else s
  s.forward (.press e.logicalKey)

/-- `ToReleaseRawKeys.release`; a release has the data of the down. -/
def releaseRawKeys (s : InputModel) : InputModel :=
  (Slot.all.filterMap s.toReleaseRawKeys).foldl handleRawKeyUp s

def enterOrLeave (s : InputModel) (enter : Bool) : InputModel :=
  let s := s.releaseKeys.releaseRawKeys
  if enter then s else s.resetModifiers

end InputModel
end RustDesk
