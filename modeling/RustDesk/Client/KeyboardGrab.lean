import RustDesk.Client.KeyboardModes

/-!
# The keyboard grab of the client (Linux)

Several session windows share one keyboard.  `change_grab_status` decides under the lock of
`GRAB_STATE` which window owns the grab, and leaves the calls that change the grab itself, and
the release of the keys that are down, to steps after the lock is given up.  A leave shortly
after an enter is put off: a thread waits, and releases the grab if it was not refreshed.

Keys go to the session that is current, which is set apart from the owner.
-/

namespace RustDesk

open HeldKeys

inductive GrabState where
  | ready | run | wait | exit

/-- `SessionID`, as a `u128`. -/
abbrev SessionId := Nat

structure GrabOwnerState where
  owner : Option SessionId
  lastGrab : Option Nat
  deferredPending : Bool

structure DeferredRelease where
  sessionId : SessionId
  snapshot : Option Nat
  wakesAt : Nat

/-- An entry of `TO_RELEASE`: the last press of a key, and all its presses that went to a session,
with the keyboards they were made under (history). -/
structure KeyDown where
  event : RdevEvent
  presses : List (Keyboard × RdevEvent)

namespace KeyDown

variable (entry : KeyDown)

def key : PhysicalKey := entry.event.key

def pressed : RdevEvent := { entry.event with eventType := .keyPress entry.key }

def released : RdevEvent := { entry.event with eventType := .keyRelease entry.key }

/-- The keys of the peer that went down for it. -/
def sentAs : List KeyUnion := Keyboard.pressedAs entry.presses

end KeyDown

inductive AfterUnlock where
  | applyRunGrabIfOwner (sessionId : SessionId) (disableFirst : Bool)
  | disableGrabIfReleased
  | releaseRemoteKeysForEvents (toRelease : List KeyDown)

def grabDebounceMs : Nat := 300

def nsPerMs : Nat := 1000000

/-- The statics of `keyboard.rs`, the grab of the system, and the threads that run.  `sent` is
what was sent to which session and `accepted` which calls were not ignored, the latest first
(history). -/
structure GrabClient where
  isRdevEnabled : Bool
  grabState : GrabOwnerState
  keyboardHooked : Bool
  osGrab : Bool
  deferred : List DeferredRelease
  afterUnlock : List AfterUnlock
  curSession : Option SessionId
  toRelease : List KeyDown
  modifiersState : PhysicalKey → Bool
  sent : List (SessionId × Stroke KeyUnion)
  accepted : List (SessionId × GrabState)

namespace GrabClient

def start : GrabClient where
  isRdevEnabled := true
  grabState := ⟨none, none, false⟩
  keyboardHooked := false
  osGrab := false
  deferred := []
  afterUnlock := []
  curSession := none
  toRelease := []
  modifiersState := fun _ => false
  sent := []
  accepted := []

def isLongPress (s : GrabClient) : KeyEventType → Bool
  | .keyPress key => key.isModifier && s.modifiersState key
  | .keyRelease _ => false

def updateModifiersState (s : GrabClient) : KeyEventType → PhysicalKey → Bool
  | .keyPress key => fun k => if k = key && key.isModifier then true else s.modifiersState k
  | .keyRelease key => fun k => if k = key && key.isModifier then false else s.modifiersState k

/-- The presses that are recorded for a key. -/
def presses (s : GrabClient) (key : PhysicalKey) : List (Keyboard × RdevEvent) :=
  (s.toRelease.filter (·.key = key)).flatMap (·.presses)

/-- `TO_RELEASE` after an event; `sent` is the press, if it goes to a session. -/
def updateToRelease (s : GrabClient) (event : RdevEvent) (sent : List (Keyboard × RdevEvent)) :
    List KeyDown :=
  let others := s.toRelease.filter (·.key ≠ event.key)
  if event.isPress then ⟨event, sent ++ s.presses event.key⟩ :: others else others

/-- What `event_to_key_events` records. -/
def record (s : GrabClient) (event : RdevEvent) (sent : List (Keyboard × RdevEvent)) : GrabClient :=
  { s with
    modifiersState := s.updateModifiersState event.eventType
    toRelease := s.updateToRelease event sent }

def sendKeyEvent (s : GrabClient) (stroke : Stroke KeyUnion) : GrabClient :=
  match s.curSession with
  | some session => { s with sent := (session, stroke) :: s.sent }
  | none => s

def processEvent (s : GrabClient) (kb : Keyboard) (event : RdevEvent) : GrabClient :=
  if s.isLongPress event.eventType then s
  else
    (kb.keyEvents event).foldl sendKeyEvent
      (s.record event (if s.curSession.isSome then [(kb, event)] else []))

/-- `release_remote_keys_for_events`, of one key: what is read besides the event may change from
stroke to stroke. -/
def releaseRemoteKey (kbs : PhysicalKey → Nat → Keyboard) (s : GrabClient) (entry : KeyDown) :
    GrabClient :=
  let s := s.processEvent (kbs entry.key 0) entry.released
  if entry.key.isAlt then
    (s.processEvent (kbs entry.key 1) entry.pressed).processEvent (kbs entry.key 2) entry.released
  else s

def releaseRemoteKeysForEvents (s : GrabClient) (kbs : PhysicalKey → Nat → Keyboard)
    (toRelease : List KeyDown) : GrabClient :=
  toRelease.foldl (releaseRemoteKey kbs) s

def accept (s : GrabClient) (sessionId : SessionId) (state : GrabState) : GrabClient :=
  { s with accepted := (sessionId, state) :: s.accepted }

/-- `change_grab_status` with `Run`. -/
def runGrab (s : GrabClient) (sessionId : SessionId) (now : Nat) : GrabClient :=
  let s := s.accept sessionId .run
  if s.grabState.owner = some sessionId then
    { s with
      grabState := { s.grabState with lastGrab := some now, deferredPending := false } }
  else
    { s with
      keyboardHooked := true
      grabState := ⟨some sessionId, some now, false⟩
      afterUnlock := s.afterUnlock ++ [.applyRunGrabIfOwner sessionId s.grabState.owner.isSome] }

/-- The grab is given up, and the keys are taken (`take_remote_keys`). -/
def releaseGrab (s : GrabClient) : GrabClient :=
  { s with
    keyboardHooked := false
    grabState := ⟨none, none, false⟩
    toRelease := []
    afterUnlock :=
      s.afterUnlock ++ [.disableGrabIfReleased, .releaseRemoteKeysForEvents s.toRelease] }

def debounced (s : GrabClient) (now : Nat) : Option Nat :=
  match s.grabState.lastGrab with
  | none => none
  | some t =>
    let elapsed := (now - t) / nsPerMs
    if elapsed < grabDebounceMs then some elapsed else none

/-- `change_grab_status` with `Wait`. -/
def waitGrab (s : GrabClient) (sessionId : SessionId) (now : Nat) : GrabClient :=
  if s.grabState.owner ≠ some sessionId then s
  else
    let s := s.accept sessionId .wait
    match s.debounced now with
    | some elapsed =>
      if !s.grabState.deferredPending then
        let remaining := grabDebounceMs - elapsed + 50
        { s with
          grabState := { s.grabState with deferredPending := true }
          deferred := s.deferred ++
            [⟨sessionId, s.grabState.lastGrab, now + remaining * nsPerMs⟩] }
      else s
    | none => s.releaseGrab

/-- `change_grab_status`, up to where the lock is given up. -/
def changeGrabStatus (s : GrabClient) (state : GrabState) (sessionId : SessionId) (now : Nat) :
    GrabClient :=
  if !s.isRdevEnabled then s
  else
    match state with
    | .ready => s
    | .run => s.runGrab sessionId now
    | .wait => s.waitGrab sessionId now
    | .exit => s

def wake (s : GrabClient) (thread : DeferredRelease) : GrabClient :=
  if s.grabState.owner = some thread.sessionId ∧ s.grabState.lastGrab = thread.snapshot then
    s.releaseGrab
  else s

def applyRunGrabIfOwner (s : GrabClient) (sessionId : SessionId) (disableFirst : Bool) :
    GrabClient :=
  if s.grabState.owner ≠ some sessionId then s
  else
    let s := if disableFirst then { s with osGrab := false } else s
    { s with osGrab := true }

def disableGrabIfReleased (s : GrabClient) : GrabClient :=
  if s.grabState.owner.isNone && s.grabState.lastGrab.isNone then { s with osGrab := false }
  else s

def unlocked (s : GrabClient) (kbs : PhysicalKey → Nat → Keyboard) : AfterUnlock → GrabClient
  | .applyRunGrabIfOwner sessionId disableFirst => s.applyRunGrabIfOwner sessionId disableFirst
  | .disableGrabIfReleased => s.disableGrabIfReleased
  | .releaseRemoteKeysForEvents toRelease => s.releaseRemoteKeysForEvents kbs toRelease

end GrabClient

/-- What happens, on any thread.  `session_enter_or_leave` is `set_cur_session_id` and then
`Run`, or `Wait`. -/
inductive GrabInput where
  | storeRdevEnabled (enabled : Bool)
  | setCurSessionId (sessionId : SessionId)
  | changeGrabStatus (state : GrabState) (sessionId : SessionId) (now : Nat)
  | afterUnlock (i : Nat) (kbs : PhysicalKey → Nat → Keyboard)
  | wake (i : Nat) (now : Nat)
  | key (kb : Keyboard) (event : RdevEvent)

namespace GrabClient

def step (s : GrabClient) : GrabInput → GrabClient
  | .storeRdevEnabled enabled => { s with isRdevEnabled := enabled }
  | .setCurSessionId sessionId => { s with curSession := some sessionId }
  | .changeGrabStatus state sessionId now => s.changeGrabStatus state sessionId now
  | .afterUnlock i kbs =>
    match s.afterUnlock[i]? with
    | none => s
    | some work => { s with afterUnlock := s.afterUnlock.eraseIdx i }.unlocked kbs work
  | .wake i now =>
    match s.deferred[i]? with
    | none => s
    | some thread =>
      if now < thread.wakesAt then s
      else { s with deferred := s.deferred.eraseIdx i }.wake thread
  | .key kb event => s.processEvent kb event

end GrabClient
end RustDesk
