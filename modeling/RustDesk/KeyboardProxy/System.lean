import Mathlib.Tactic.Common

/-!
# The keyboard proxy of the two screens

The remote desktop is shown on one screen and the keyboard on the other.  The keyboard needs
a window there: an invisible `KeyboardProxyActivity`.  One `KeyboardProxyManager` for the
process has the state of the proxy, which goes from hidden to opening, visible, closing and
back.  Each Flutter engine has a `KeyboardProxyController` with a copy of that state, which
it also changes on its own while a call is on its way.

Everything native runs on the main thread, one callback at a time.  Pending are the open
timeout, the posted activations, the hide timeout of each activity and the destruction of
those that finish.  An engine and the manager talk through a method channel, which keeps the
order of the messages each way.  The manager sends to the channel it was given last.

An activity is part of the model once `onCreate` has built its views: one that comes up on
the wrong screen finishes before that and the manager never hears of it.  The retries of
`showSoftInput` are left out: what the input method does is an event.
-/

namespace RustDesk.KeyboardProxy

inductive ProxyState where
  | hidden
  | opening
  | visible
  | closing
  deriving DecidableEq

def defaultDisplay : Nat := 0

/-- `KeyboardProxySnapshot`, and the payload of a state message. -/
structure Snapshot where
  requestId : Nat
  state : ProxyState
  sourceDisplayId : Nat
  targetDisplayId : Nat
  reason : String

namespace Snapshot

def default : Snapshot := ⟨0, .hidden, 0, 0, ""⟩

def isVisible (v : Snapshot) : Bool := v.state = .visible

def isTransitioning (v : Snapshot) : Bool := v.state = .opening || v.state = .closing

end Snapshot

/-- `KeyboardProxyController`. -/
structure Controller where
  value : Snapshot
  sessionId : String

namespace Controller

def tryBeginOpen (c : Controller) (sessionId : String) : Controller × Bool :=
  if c.value.state ≠ .hidden then (c, false)
  else (⟨{ c.value with state := .opening, reason := "local_open_requested" }, sessionId⟩, true)

def tryBeginClose (c : Controller) : Controller × Bool :=
  if c.value.state ≠ .visible then (c, false)
  else ({ c with value := { c.value with state := .closing, reason := "local_close_requested" } },
    true)

def handleState (c : Controller) (v : Snapshot) : Controller :=
  if v.requestId < c.value.requestId then c
  else ⟨v, if v.state = .hidden then "" else c.sessionId⟩

def acceptsInput (c : Controller) (requestId : Nat) (sessionId currentSessionId : String) : Bool :=
  c.value.state = .visible && requestId = c.value.requestId && sessionId ≠ "" &&
    sessionId = c.sessionId && sessionId = currentSessionId

def reset : Controller := ⟨.default, ""⟩

end Controller

inductive Input where
  | text (text : String)
  | key (key : String)
  deriving DecidableEq

/-- A message to an engine: a state, or an input with its request and session.  Inputs carry
the number of the record of how they were typed. -/
inductive ToDart where
  | state (payload : Snapshot)
  | input (requestId : Nat) (sessionId : String) (input : Input) (ticket : Nat)

/-- A call of an engine: `keyboard_proxy_open` and its siblings. -/
inductive Call where
  | openProxy (sessionId : String)
  | prepare
  | close (expectedRequestId : Option Nat)
  | release

/-- An engine with its present session and the messages under way, the calls to the manager
and those from it.  `wasReset` records that the controller was reset and has not taken a state
since. -/
structure Engine where
  controller : Controller
  sessionId : String
  calls : List Call
  inbox : List ToDart
  wasReset : Bool

/-- `KeyboardProxyActivity`.  `focusable` is whether its text field takes input, and
`activation` records the request and session it was last activated for. -/
structure Activity where
  requestId : Nat
  sessionId : String
  displayId : Nat
  finishReason : String
  text : List Char
  focusable : Bool
  lastLoggedImeVisible : Option Bool
  active : Bool
  closeRequested : Bool
  releaseRequested : Bool
  hideTimeout : Bool
  finishing : Bool
  destroyed : Bool
  activation : Option (Nat × String)
  deriving DecidableEq

namespace Activity

/-- `onCreate` up to `onActivityReady`. -/
def create (requestId : Nat) (sessionId : String) (displayId : Nat) : Activity where
  requestId := requestId
  sessionId := sessionId
  displayId := displayId
  finishReason := "activity_destroyed"
  text := []
  focusable := false
  lastLoggedImeVisible := none
  active := false
  closeRequested := false
  releaseRequested := false
  hideTimeout := false
  finishing := false
  destroyed := false
  activation := none

def activate (a : Activity) (requestId : Nat) (sessionId : String) : Activity :=
  { a with
    requestId := requestId
    sessionId := sessionId
    finishReason := "activity_destroyed"
    active := true
    closeRequested := false
    releaseRequested := false
    hideTimeout := false
    focusable := true
    activation := some (requestId, sessionId) }

def hideIme (a : Activity) (reason : String) : Activity :=
  { a with
    finishReason := reason
    active := false
    closeRequested := true
    hideTimeout := true
    focusable := false }

def finish (a : Activity) : Activity := { a with finishing := true }

def releaseAndFinish (a : Activity) (reason : String) : Activity :=
  let a := { a with releaseRequested := true }
  if a.lastLoggedImeVisible = some true || a.active then a.hideIme reason
  else { a with finishReason := reason }.finish

end Activity

/-- `KeyboardProxyManager`, with its pending open timeout. -/
structure Manager where
  requestIds : Nat
  state : ProxyState
  requestId : Nat
  sessionId : String
  sourceDisplayId : Nat
  targetDisplayId : Nat
  channel : Option Nat
  proxyActivity : Option Nat
  displayManager : Bool
  preparingRequestId : Nat
  openTimeout : Bool

structure Intent where
  requestId : Nat
  sessionId : String
  targetDisplayId : Nat
  deriving DecidableEq

/-- The displays as `open` finds them: that of the caller, and all with whether they are on. -/
structure Displays where
  source : Nat
  all : List (Nat × Bool)

/-- How an input was typed: in which activity, what that was activated for if it was active,
and the manager's request and state. -/
structure Typed where
  activity : Nat
  activation : Option (Nat × String)
  input : Input
  requestId : Nat
  state : ProxyState

structure Passed where
  engine : Nat
  sessionId : String
  input : Input
  ticket : Nat

/-- The process.  `posted` are the activities whose activation is posted, `intents` those
started so far.  The rest records the accepted opens, the engine of the last one, the requests
whose keyboard became visible, what was typed and what was passed on. -/
structure System where
  manager : Manager
  activities : List Activity
  intents : List Intent
  posted : List Nat
  engines : Nat → Engine
  accepted : List (Nat × String)
  lastAccepted : Option Nat
  shown : List Nat
  typed : List Typed
  passed : List Passed

namespace System

def setEngine (s : System) (e : Nat) (engine : Engine) : System :=
  { s with engines := Function.update s.engines e engine }

def invokeMethod (s : System) (e : Nat) (m : ToDart) : System :=
  s.setEngine e { s.engines e with inbox := (s.engines e).inbox ++ [m] }

/-- The payload of `publishState`. -/
def payload (s : System) (reason : String) : Snapshot :=
  ⟨s.manager.requestId, s.manager.state, s.manager.sourceDisplayId, s.manager.targetDisplayId,
    reason⟩

def publishState (s : System) (reason : String) : System :=
  match s.manager.channel with
  | some e => s.invokeMethod e (.state (s.payload reason))
  | none => s

def enter (s : System) (state : ProxyState) (reason : String) : System :=
  publishState { s with manager := { s.manager with state := state } } reason

def modify (s : System) (a : Nat) (f : Activity → Activity) : System :=
  { s with activities := s.activities.modify a f }

def finishHidden (s : System) (reason : String) (keepPreparedActivity : Bool) : System :=
  let s := { s with manager := { s.manager with openTimeout := false } }
  let s := s.enter .hidden reason
  let s := { s with manager := { s.manager with sessionId := "" } }
  if keepPreparedActivity then s
  else
    { s with manager := { s.manager with
        proxyActivity := none
        displayManager := false
        channel := none } }

/-- `prepare`, from engine `e`. -/
def prepare (s : System) (e : Nat) : System :=
  { s with manager := { s.manager with channel := some e } }

def findTargetDisplay (d : Displays) : Nat :=
  if d.source ≠ defaultDisplay then defaultDisplay
  else
    match d.all.find? fun display => display.1 ≠ defaultDisplay && display.2 with
    | some display => display.1
    | none => d.source

def launchIfCurrent (s : System) (i : Intent) (launched : Bool) : System :=
  if i.requestId ≠ s.manager.requestId || s.manager.state ≠ .opening then s
  else if launched then { s with intents := s.intents ++ [i] }
  else s.finishHidden "launch_failed" false

/-- The request that `open` makes. -/
def request (s : System) (e : Nat) (requestedSessionId : String) (d : Displays) : System :=
  let newRequestId := s.manager.requestIds + 1
  { s with
    accepted := s.accepted ++ [(newRequestId, requestedSessionId)]
    lastAccepted := some e
    manager := { s.manager with
      requestIds := newRequestId
      requestId := newRequestId
      sessionId := requestedSessionId
      sourceDisplayId := d.source
      targetDisplayId := findTargetDisplay d
      channel := some e
      state := .opening
      displayManager := true } }

/-- `open` as far as it announces the request and sets its timeout. -/
def announce (s : System) (e : Nat) (requestedSessionId : String) (d : Displays) : System :=
  let s := (s.request e requestedSessionId d).publishState "open_requested"
  { s with manager := { s.manager with openTimeout := true } }

/-- `open`, from engine `e`. -/
def openProxy (s : System) (e : Nat) (requestedSessionId : String) (d : Displays)
    (launched : Bool) : System :=
  if s.manager.state ≠ .hidden then (s.prepare e).publishState "open_rejected_busy"
  else
    let s := s.announce e requestedSessionId d
    let newRequestId := s.manager.requestId
    let targetId := s.manager.targetDisplayId
    match s.manager.proxyActivity.bind fun a => (s.activities[a]?).map (a, ·) with
    | some (a, existing) =>
      if !existing.finishing && !existing.destroyed && existing.displayId = targetId then
        s.modify a (·.activate newRequestId requestedSessionId)
      else if s.manager.preparingRequestId = 0 then
        s.launchIfCurrent ⟨newRequestId, requestedSessionId, targetId⟩ launched
      else s
    | none =>
      if s.manager.preparingRequestId = 0 then
        s.launchIfCurrent ⟨newRequestId, requestedSessionId, targetId⟩ launched
      else s

/-- `close` as far as it announces that. -/
def startClosing (s : System) (reason : String) : System :=
  let s := s.enter .closing reason
  { s with manager := { s.manager with openTimeout := false } }

def close (s : System) (reason : String) (expectedRequestId : Option Nat) : System :=
  if expectedRequestId.any (· ≠ s.manager.requestId) || s.manager.state = .hidden then s
  else
    let s := s.startClosing reason
    match s.manager.proxyActivity with
    | some a => s.modify a (·.hideIme reason)
    | none => s.finishHidden reason false

def onActivityReady (s : System) (a : Nat) (activityRequestId actualDisplayId : Nat) :
    System × Bool :=
  let preparedActivity := activityRequestId = s.manager.preparingRequestId
  let openingActivity := activityRequestId = s.manager.requestId ∧ s.manager.state = .opening
  if actualDisplayId ≠ s.manager.targetDisplayId ∨ (¬preparedActivity ∧ ¬openingActivity) then
    (s, false)
  else
    let s := { s with manager := { s.manager with
      proxyActivity := some a
      preparingRequestId := if preparedActivity then 0 else s.manager.preparingRequestId } }
    (if s.manager.state = .opening then { s with posted := s.posted ++ [a] } else s, true)

def onImeVisibilityChanged (s : System) (activityRequestId : Nat) (visible : Bool) : System :=
  if activityRequestId ≠ s.manager.requestId || s.manager.state = .hidden then s
  else if visible && s.manager.state = .opening then
    let s := { s with
      manager := { s.manager with openTimeout := false }
      shown := s.shown ++ [s.manager.requestId] }
    s.enter .visible "ime_visible"
  else if !visible && s.manager.state = .visible then s.close "user_hidden" (some activityRequestId)
  else s

def onImeHidden (s : System) (activityRequestId : Nat) (reason : String) : System :=
  if activityRequestId ≠ s.manager.requestId || s.manager.state ≠ .closing then s
  else
    match s.manager.proxyActivity with
    | some a => (s.finishHidden reason false).modify a (·.releaseAndFinish reason)
    | none => s.finishHidden reason false

/-- `commitText` and `sendKey`, for the input with this record. -/
def commit (s : System) (activityRequestId : Nat) (activitySessionId : String) (input : Input)
    (ticket : Nat) : System :=
  if activityRequestId ≠ s.manager.requestId || activitySessionId ≠ s.manager.sessionId ||
      s.manager.state ≠ .visible || input = .text "" then s
  else
    match s.manager.channel with
    | some e =>
      s.invokeMethod e (.input s.manager.requestId s.manager.sessionId input ticket)
    | none => s

def onActivityDestroyed (s : System) (a : Nat) (reason : String) : System :=
  if s.manager.proxyActivity ≠ some a then s
  else
    let s := { s with manager := { s.manager with proxyActivity := none, preparingRequestId := 0 } }
    if s.manager.state ≠ .hidden then s.finishHidden reason false else s

/-- `release` as far as it concerns the manager only. -/
def startRelease (s : System) : System :=
  { s with manager := { s.manager with openTimeout := false, preparingRequestId := 0 } }

def release (s : System) (reason : String) : System :=
  let s := s.startRelease
  match s.manager.proxyActivity with
  | some a => s.modify a (·.releaseAndFinish reason)
  | none => s.finishHidden reason false

def completeHide (s : System) (a : Nat) : System :=
  match s.activities[a]? with
  | some activity =>
    let s := s.modify a fun x => { x with hideTimeout := false }
    if !activity.closeRequested then s
    else
      let s := s.modify a fun x => { x with closeRequested := false }
      if activity.releaseRequested then s.modify a (·.finish)
      else s.onImeHidden activity.requestId activity.finishReason
  | none => s

/-- `onCreate` of an activity started with this intent, on a display. -/
def create (s : System) (i : Intent) (displayId : Nat) : System :=
  if displayId ≠ i.targetDisplayId then s
  else
    let a := s.activities.length
    let created := Activity.create i.requestId i.sessionId displayId
    let s := { s with activities := s.activities ++ [created] }
    match s.onActivityReady a i.requestId displayId with
    | (s, true) => s
    | (s, false) => s.modify a fun x => { x with finishReason := "launch_failed" }.finish

def reportImeInsets (s : System) (a : Nat) (visible : Bool) : System :=
  match s.activities[a]? with
  | some activity =>
    if activity.destroyed then s
    else
      let s := s.modify a fun x => { x with lastLoggedImeVisible := some visible }
      let s := s.onImeVisibilityChanged activity.requestId visible
      match s.activities[a]? with
      | some activity => if !visible && activity.closeRequested then s.completeHide a else s
      | none => s
  | none => s

def onBackPressed (s : System) (a : Nat) : System :=
  match s.activities[a]? with
  | some activity =>
    if activity.destroyed then s else s.close "user_hidden" (some activity.requestId)
  | none => s

def onDestroy (s : System) (a : Nat) : System :=
  match s.activities[a]? with
  | some activity =>
    if activity.destroyed then s
    else
      (s.modify a fun x => { x with destroyed := true, hideTimeout := false }).onActivityDestroyed
        a activity.finishReason
  | none => s

def record (s : System) (a : Nat) (activity : Activity) (input : Input) : System :=
  let activation := if activity.active then activity.activation else none
  { s with typed := s.typed ++ [⟨a, activation, input, s.manager.requestId, s.manager.state⟩] }

/-- From `start` on, `before` characters are now those inserted. Of the text of the field, part
may still be composed. -/
def onTextChanged (s : System) (a start before : Nat) (inserted : List Char)
    (composing : Bool) : System :=
  match s.activities[a]? with
  | some activity =>
    if activity.destroyed || !activity.focusable then s
    else
      let text := activity.text.take start ++ inserted ++ activity.text.drop (start + before)
      if text = [] || composing then s.modify a fun x => { x with text := text }
      else
        let input := Input.text (String.ofList text)
        let s := s.record a activity input
        let s := s.commit activity.requestId activity.sessionId input (s.typed.length - 1)
        s.modify a fun x => { x with text := [] }
  | none => s

def onKey (s : System) (a : Nat) (key : String) : System :=
  match s.activities[a]? with
  | some activity =>
    if activity.destroyed || !activity.focusable then s
    else
      let s := s.record a activity (.key key)
      s.commit activity.requestId activity.sessionId (.key key) (s.typed.length - 1)
  | none => s

/-- `gFFI.invokeMethod`. -/
def call (s : System) (e : Nat) (c : Call) : System :=
  s.setEngine e { s.engines e with calls := (s.engines e).calls ++ [c] }

def openKeyboardUnlocked (s : System) (e : Nat) : System :=
  let engine := s.engines e
  match engine.controller.tryBeginOpen engine.sessionId with
  | (c, true) =>
    (s.setEngine e { engine with controller := c }).call e (.openProxy engine.sessionId)
  | (_, false) => s

/-- `openKeyboard`, with the intent to close noted when the button was pressed, if it was, and
whether the prompt for Wayland is shown first. -/
def openKeyboard (s : System) (e : Nat) (keyboardCloseIntent : Option Bool) (prompt : Bool) :
    System :=
  let engine := s.engines e
  let requestId := engine.controller.value.requestId
  if keyboardCloseIntent.getD engine.controller.value.isVisible then
    match engine.controller.tryBeginClose with
    | (c, true) => (s.setEngine e { engine with controller := c }).call e (.close (some requestId))
    | (_, false) => s
  else if engine.controller.value.isTransitioning || prompt then s
  else s.openKeyboardUnlocked e

def reset (s : System) (e : Nat) : System :=
  s.setEngine e { s.engines e with controller := .reset, wasReset := true }

def handle (s : System) (e : Nat) (m : ToDart) : System :=
  let engine := s.engines e
  match m with
  | .state v =>
    s.setEngine e { engine with
      controller := engine.controller.handleState v
      wasReset := engine.wasReset && v.requestId < engine.controller.value.requestId }
  | .input requestId sessionId input ticket =>
    if engine.controller.acceptsInput requestId sessionId engine.sessionId && input ≠ .key "" then
      { s with passed := s.passed ++ [⟨e, engine.sessionId, input, ticket⟩] }
    else s

def deliver (s : System) (e : Nat) : System :=
  match (s.engines e).inbox with
  | m :: rest => (s.setEngine e { s.engines e with inbox := rest }).handle e m
  | [] => s

def receive (s : System) (e : Nat) (d : Displays) (launched : Bool) : System :=
  match (s.engines e).calls with
  | c :: rest =>
    let s := s.setEngine e { s.engines e with calls := rest }
    match c with
    | .openProxy sessionId => s.openProxy e sessionId d launched
    | .prepare => s.prepare e
    | .close expectedRequestId => s.close "close_requested" expectedRequestId
    | .release => s.release "release_requested"
  | [] => s

end System

/-- What happens.  In an engine: the keyboard button, the answer to the prompt, a call made on
its own, a reset of the controller, a new session, a message.  Natively: a call, a timeout, a
posted activation, an activity that is created, destroyed, edited or reports the keyboard, a
display that goes or changes, and a release by the life cycle of the app. -/
inductive Event where
  | openKeyboard (e : Nat) (keyboardCloseIntent : Option Bool) (prompt : Bool)
  | openKeyboardUnlocked (e : Nat)
  | call (e : Nat) (c : Call)
  | reset (e : Nat)
  | setSession (e : Nat) (sessionId : String)
  | deliver (e : Nat)
  | receive (e : Nat) (d : Displays) (launched : Bool)
  | openTimeout
  | activate (a : Nat)
  | create (i : Intent) (displayId : Nat)
  | reportImeInsets (a : Nat) (visible : Bool)
  | onBackPressed (a : Nat)
  | hideTimeout (a : Nat)
  | onDestroy (a : Nat)
  | onTextChanged (a start before : Nat) (inserted : List Char) (composing : Bool)
  | onKey (a : Nat) (key : String)
  | onDisplayRemoved (displayId : Nat)
  | onDisplayChanged (displayId : Nat) (on : Bool)
  | release (reason : String)

namespace System

def init (sessions : Nat → String) : System where
  manager := ⟨0, .hidden, 0, "", defaultDisplay, defaultDisplay, none, none, false, 0, false⟩
  activities := []
  intents := []
  posted := []
  engines := fun e => ⟨.reset, sessions e, [], [], false⟩
  accepted := []
  lastAccepted := none
  shown := []
  typed := []
  passed := []

def step (s : System) : Event → System
  | .openKeyboard e keyboardCloseIntent prompt => s.openKeyboard e keyboardCloseIntent prompt
  | .openKeyboardUnlocked e => s.openKeyboardUnlocked e
  | .call e c => s.call e c
  | .reset e => s.reset e
  | .setSession e sessionId => s.setEngine e { s.engines e with sessionId := sessionId }
  | .deliver e => s.deliver e
  | .receive e d launched => s.receive e d launched
  | .openTimeout =>
    if s.manager.openTimeout then
      let s := { s with manager := { s.manager with openTimeout := false } }
      if s.manager.state = .opening then s.close "open_timeout" none else s
    else s
  | .activate a =>
    if a ∈ s.posted then
      let s := { s with posted := s.posted.erase a }
      s.modify a (·.activate s.manager.requestId s.manager.sessionId)
    else s
  | .create i displayId => if i ∈ s.intents then s.create i displayId else s
  | .reportImeInsets a visible => s.reportImeInsets a visible
  | .onBackPressed a => s.onBackPressed a
  | .hideTimeout a =>
    match s.activities[a]? with
    | some activity => if activity.hideTimeout then s.completeHide a else s
    | none => s
  | .onDestroy a => s.onDestroy a
  | .onTextChanged a start before inserted composing =>
    s.onTextChanged a start before inserted composing
  | .onKey a key => s.onKey a key
  | .onDisplayRemoved displayId =>
    if s.manager.displayManager && displayId = s.manager.targetDisplayId then
      s.release "display_removed"
    else s
  | .onDisplayChanged displayId on =>
    if s.manager.displayManager && displayId = s.manager.targetDisplayId && !on then
      s.release "display_removed"
    else s
  | .release reason => s.release reason

end System
end RustDesk.KeyboardProxy
