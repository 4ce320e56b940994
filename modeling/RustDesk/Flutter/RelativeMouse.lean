import RustDesk.Flutter.ExitShortcut

/-!
# The relative mouse mode (desktop client)

Turning the mode on starts asynchronous work: a native call on macOS, a query of the window frame
and attempts to set the cursor elsewhere.  The mode is on when that work has come to its end, if no
later request to turn it on has been made since.  Pointer, focus and resize events start such work
too, for the centre and the clip of the cursor.

What is under way is a list of tasks, which end in any order.  `wanted` and `failed` are not in the
code: the last request that was accepted, and whether a platform step has failed since.
-/

namespace RustDesk.RelativeMouseModel

/-- What follows `updatePointerLockCenter`. -/
inductive Next where
  | stop
  | recenter
  /-- `_ensurePointerLockEngaged`. -/
  | engage
  /-- `setRelativeMouseMode(true)`, with its number. -/
  | enable (requestId : Nat)
  deriving DecidableEq

inductive Task where
  | enableNative (requestId : Nat)
  | disableNative
  /-- `updatePointerLockCenter` without a window has returned. -/
  | returned (next : Next)
  | getFrame (next : Next)
  /-- `_recenterMouse` waits before this attempt. -/
  | retry (attempt : Nat) (next : Next)

inductive Owner where
  | nobody
  | this
  | another
  deriving DecidableEq

/-- `RelativeMouseModel`: of the size and the centres, whether they are known; and the clip of the
operating system. -/
structure Model where
  enabled : Bool
  enableRequestId : Nat
  activeNativeModel : Owner
  cursorClipApplied : Bool
  recenterInProgress : Bool
  imageWidgetSize : Bool
  pointerLockCenterLocal : Bool
  pointerLockCenterScreen : Bool
  pointerInsideImage : Bool
  lastToggle : Option Int
  disposed : Bool
  clipped : Bool
  tasks : List Task
  wanted : Bool
  failed : Bool

def Model.new : Model where
  enabled := false
  enableRequestId := 0
  activeNativeModel := .nobody
  cursorClipApplied := false
  recenterInProgress := false
  imageWidgetSize := false
  pointerLockCenterLocal := false
  pointerLockCenterScreen := false
  pointerInsideImage := false
  lastToggle := none
  disposed := false
  clipped := false
  tasks := []
  wanted := false
  failed := false

/-- The platform, and whether `kWindowId` is known. -/
structure Env where
  platform : ExitShortcut.Platform
  hasWindow : Bool

/-- The answers to `mainClipCursor` with a rectangle and without, and to `mainSetCursorPosition`. -/
structure Os where
  clip : Bool
  release : Bool
  cursor : Bool

/-- What `getFrame` comes to. -/
inductive Frame where
  | error
  | throws
  | empty
  | noView
  | found
  deriving DecidableEq

/-- What `setRelativeMouseMode` asks. -/
structure Checks where
  keyboardPerm : Bool
  isViewCamera : Bool
  isSupported : Bool

namespace Model

variable (v : Env) (os : Os)

def isNativeRelativeMouseModeActive (m : Model) : Bool :=
  v.platform = .macOS ∧ m.activeNativeModel = .this

def start (t : Task) (m : Model) : Model := { m with tasks := m.tasks ++ [t] }

def applyCursorClipForFrame (m : Model) : Model :=
  { m with cursorClipApplied := os.clip, clipped := m.clipped || os.clip }

def releaseCursorClip (m : Model) : Model :=
  if m.cursorClipApplied then
    if v.platform = .windows then
      { m with cursorClipApplied := false, clipped := m.clipped && !os.release }
    else { m with cursorClipApplied := false }
  else m

def resetState (m : Model) : Model :=
  { m with
    pointerLockCenterLocal := false
    pointerLockCenterScreen := false
    pointerInsideImage := false
    cursorClipApplied := false }

/-- `_disableNativeRelativeMouseMode`, up to the call. -/
def disableNativeRelativeMouseMode (m : Model) : Model :=
  if m.isNativeRelativeMouseModeActive v then m.start .disableNative else m

def performCleanupCore (m : Model) : Model :=
  (if v.platform = .macOS then m.disableNativeRelativeMouseMode v
    else m.releaseCursorClip v os).resetState

def disableWithCleanup (m : Model) : Model :=
  { m.performCleanupCore v os with enabled := false, failed := true }

/-- `_disableWithCleanup` in the mode. -/
def disableIfEnabled (m : Model) : Model := if m.enabled then m.disableWithCleanup v os else m

def completeEnableRelativeMouseMode (m : Model) : Model := { m with enabled := true }

def finish (next : Next) (m : Model) : Model :=
  match next with
  | .enable requestId =>
    if m.enableRequestId = requestId then m.completeEnableRelativeMouseMode else m
  | _ => m

def catchError (next : Next) (m : Model) : Model :=
  match next with
  | .enable requestId =>
    if m.enableRequestId = requestId then { m.resetState with failed := true } else m
  | .engage => m.disableWithCleanup v os
  | _ => m

def recenterMaxRetries : Nat := 3

/-- The loop of `_recenterMouse` from this attempt on. -/
def recenterAttempt (attempt : Nat) (next : Next) (m : Model) : Model :=
  if m.enabled = false ∨ m.pointerInsideImage = false then
    finish next { m with recenterInProgress := false }
  else if os.cursor then finish next { m with recenterInProgress := false }
  else if attempt < recenterMaxRetries - 1 then m.start (.retry (attempt + 1) next)
  else finish next { m.disableWithCleanup v os with recenterInProgress := false }

def recenterMouse (next : Next) (m : Model) : Model :=
  if m.recenterInProgress then finish next m
  else if m.enabled = false ∨ m.pointerInsideImage = false ∨ m.pointerLockCenterScreen = false then
    finish next m
  else recenterAttempt v os 0 next { m with recenterInProgress := true }

/-- `updatePointerLockCenter`, up to the query. -/
def updatePointerLockCenter (next : Next) (m : Model) : Model :=
  if v.hasWindow then m.start (.getFrame next)
  else (m.disableIfEnabled v os).start (.returned next)

/-- `updatePointerLockCenter`, from the new centre on: the clip follows it. -/
def updateClip (m : Model) : Model :=
  if m.enabled = true ∧ v.platform = .windows ∧ m.pointerInsideImage = true then
    m.applyCursorClipForFrame os
  else if m.enabled = true ∧ v.platform = .windows ∧ m.cursorClipApplied = true then
    m.releaseCursorClip v os
  else m

/-- `updatePointerLockCenter`, from the query on. -/
def gotFrame (frame : Frame) (m : Model) : Model :=
  match frame with
  | .error | .throws =>
    if m.enabled then m.disableWithCleanup v os
    else { m with pointerLockCenterLocal := false, pointerLockCenterScreen := false }
  | .empty => m.disableIfEnabled v os
  | .noView =>
    if m.imageWidgetSize then
      { m with pointerLockCenterLocal := true }.disableIfEnabled v os
    else m.disableIfEnabled v os
  | .found =>
    if m.imageWidgetSize then
      { m with pointerLockCenterLocal := true, pointerLockCenterScreen := true }.updateClip v os
    else m.disableIfEnabled v os

def followUp (next : Next) (frame : Frame) (m : Model) : Model :=
  if frame = .throws then m.catchError v os next
  else if next = .stop then m
  else m.recenterMouse v os next

def taskEnds (ok : Bool) (frame : Frame) (t : Task) (m : Model) : Model :=
  match t with
  | .enableNative requestId =>
    if ok then
      let m := { m with activeNativeModel := .this }
      if m.enableRequestId = requestId then m.completeEnableRelativeMouseMode else m
    else if m.enableRequestId = requestId then { m with failed := true } else m
  | .disableNative =>
    if m.activeNativeModel = .this then { m with activeNativeModel := .nobody } else m
  | .returned next => m.followUp v os next .found
  | .getFrame next => (m.gotFrame v os frame).followUp v os next frame
  | .retry attempt next => m.recenterAttempt v os attempt next

/-- `setRelativeMouseMode(true)` once it is accepted. -/
def turnOn (m : Model) : Model :=
  let m := { m with enableRequestId := m.enableRequestId + 1, wanted := true, failed := false }
  if v.platform = .macOS then
    if m.activeNativeModel = .another then { m with failed := true }
    else m.start (.enableNative m.enableRequestId)
  else
    let m := if m.pointerInsideImage then m else m.releaseCursorClip v os
    m.updatePointerLockCenter v os (.enable m.enableRequestId)

/-- `setRelativeMouseMode(false)`. -/
def turnOff (m : Model) : Model :=
  let m := if v.platform = .macOS then m.disableNativeRelativeMouseMode v
    else m.releaseCursorClip v os
  { m.resetState with enabled := false, wanted := false }

/-- `setRelativeMouseMode`, with its answer. -/
def setRelativeMouseMode (value : Bool) (checks : Checks) (m : Model) : Model × Bool :=
  if value then
    if checks.keyboardPerm = false ∨ checks.isViewCamera = true then (m, false)
    else if m.imageWidgetSize = false then (m, false)
    else if checks.isSupported = false then (m, false)
    else (m.turnOn v os, true)
  else (m.turnOff v os, true)

/-- `kRelativeMouseModeToggleDebounceMs`. -/
def toggleDebounceMs : Int := 150

/-- `toggleRelativeMouseMode`, at this microsecond. -/
def toggleRelativeMouseMode (now : Int) (checks : Checks) (m : Model) : Model :=
  if m.lastToggle.any fun last => (now - last).tdiv 1000 < toggleDebounceMs then m
  else (setRelativeMouseMode v os (!m.enabled) checks { m with lastToggle := some now }).1

def dispose (m : Model) : Model :=
  if m.disposed then { m with wanted := false }
  else
    { m.performCleanupCore v os with
      disposed := true
      imageWidgetSize := false
      lastToggle := none
      enabled := false
      wanted := false }

def onEnterOrLeaveImage (enter : Bool) (m : Model) : Model :=
  if m.enabled = false then m
  else
    let m := { m with pointerInsideImage := enter }
    if m.isNativeRelativeMouseModeActive v then m
    else if enter = false then m.releaseCursorClip v os
    else m.updatePointerLockCenter v os .recenter

def onWindowBlur (m : Model) : Model :=
  if m.enabled = false then m
  else
    let m := { m with pointerInsideImage := false }
    if m.isNativeRelativeMouseModeActive v then m else m.releaseCursorClip v os

def onWindowFocus (m : Model) : Model :=
  if m.enabled = false then m
  else if m.isNativeRelativeMouseModeActive v then { m with pointerInsideImage := false }
  else if m.imageWidgetSize = false then m.disableWithCleanup v os
  else
    let m := { m with pointerInsideImage := false }
    (m.releaseCursorClip v os).updatePointerLockCenter v os .stop

def updateImageWidgetSize (m : Model) : Model :=
  { m with
    imageWidgetSize := true
    pointerLockCenterLocal := m.pointerLockCenterLocal || m.enabled }

def ensurePointerLockEngaged (m : Model) : Model :=
  if m.enabled = false then m
  else
    let m := { m with pointerInsideImage := true }
    if m.pointerLockCenterLocal = false ∨ m.pointerLockCenterScreen = false ∨
        (v.platform = .windows ∧ m.cursorClipApplied = false) then
      m.updatePointerLockCenter v os .engage
    else m

def handleRelativeMouseMove (nearEdge : Bool) (m : Model) : Model :=
  if m.enabled = false then m
  else if m.isNativeRelativeMouseModeActive v then m
  else
    let m := m.ensurePointerLockEngaged v os
    if v.platform = .linux ∧ nearEdge = true then m.recenterMouse v os .stop else m

end Model

inductive Event where
  | setRelativeMouseMode (value : Bool) (checks : Checks)
  | toggleRelativeMouseMode (now : Int) (checks : Checks)
  | dispose
  | onEnterOrLeaveImage (enter : Bool)
  | onWindowBlur
  | onWindowFocus
  | handleRelativeMouseMove (nearEdge : Bool)
  | sendRelativeMouseButton
  | updateImageWidgetSize
  | updatePointerLockCenter
  /-- A movement has been sent; the pointer may be near the edge. -/
  | sent (nearEdge : Bool)
  | sendFails
  /-- The flag that is shared with the rest of the input. -/
  | setPointerInsideImage (inside : Bool)
  /-- Another model takes the native mode or leaves it. -/
  | anotherModel (active : Bool)
  | taskEnds (i : Nat) (ok : Bool) (frame : Frame)

structure Input where
  event : Event
  os : Os

def step (v : Env) (m : Model) (i : Input) : Model :=
  match i.event with
  | .setRelativeMouseMode value checks => (m.setRelativeMouseMode v i.os value checks).1
  | .toggleRelativeMouseMode now checks => m.toggleRelativeMouseMode v i.os now checks
  | .dispose => m.dispose v i.os
  | .onEnterOrLeaveImage enter => m.onEnterOrLeaveImage v i.os enter
  | .onWindowBlur => m.onWindowBlur v i.os
  | .onWindowFocus => m.onWindowFocus v i.os
  | .handleRelativeMouseMove nearEdge => m.handleRelativeMouseMove v i.os nearEdge
  | .sendRelativeMouseButton => m.ensurePointerLockEngaged v i.os
  | .updateImageWidgetSize => m.updateImageWidgetSize
  | .updatePointerLockCenter => m.updatePointerLockCenter v i.os .stop
  | .sent nearEdge => if nearEdge then m.recenterMouse v i.os .stop else m
  | .sendFails => m.disableIfEnabled v i.os
  | .setPointerInsideImage inside => { m with pointerInsideImage := inside }
  | .anotherModel active => { m with activeNativeModel := if active then .another else .nobody }
  | .taskEnds n ok frame =>
    match m.tasks[n]? with
    | some t => Model.taskEnds v i.os ok frame t { m with tasks := m.tasks.eraseIdx n }
    | none => m

end RustDesk.RelativeMouseModel
