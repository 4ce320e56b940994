import RustDesk.Server.Options

/-!
# Privacy mode

One privacy mode is shared by all connections.  It is on while an implementation holds the
id of the connection that turned it on.  Each call of `privacy_mode` takes the lock once;
between two calls of one connection any other connection may run, so that a handler is a
task of several steps here.

The implementation is the one of macOS.  `MacSetPrivacyMode` may fail at every call, and the
list of implementations is left open.

`privacy_mode_belongs_to_owner_iff` says that the privacy mode of a connection is safe from
the others exactly as long as none of them recovers from a failed request of its own.
-/

namespace RustDesk

def invalidPrivacyModeConnId : Int := 0

/-- `OCCUPIED`. -/
def privacyOccupied : String := "Privacy occupied by another one."

/-- `TURN_OFF_OTHER_ID`. -/
def privacyTurnOffOtherId : String :=
  "Failed to turn off privacy mode that belongs to someone else."

/-- `PrivacyModeImpl` of macOS. -/
structure PrivacyModeImpl where
  implKey : String
  connId : Int
  deriving DecidableEq

namespace PrivacyModeImpl

def new (implKey : String) : PrivacyModeImpl := ⟨implKey, 0⟩

def checkOnConnId (m : PrivacyModeImpl) (connId : Int) : Except String Bool :=
  if m.connId = connId then .ok true
  else if m.connId ≠ invalidPrivacyModeConnId then .error privacyOccupied
  else .ok false

def checkOffConnId (m : PrivacyModeImpl) (connId : Int) : Except String Unit :=
  if m.connId ≠ invalidPrivacyModeConnId ∧ connId ≠ invalidPrivacyModeConnId ∧
      m.connId ≠ connId then .error privacyTurnOffOtherId
  else .ok ()

/-- `turn_on_privacy`; `mac` is the answer of `MacSetPrivacyMode(true)`. -/
def turnOnPrivacy (m : PrivacyModeImpl) (mac : Bool) (connId : Int) :
    PrivacyModeImpl × Except String Bool :=
  match m.checkOnConnId connId with
  | .error e => (m, .error e)
  | .ok true => (m, .ok true)
  | .ok false =>
    if mac then ({ m with connId }, .ok true)
    else (m, .error "Failed to turn on privacy mode")

/-- `turn_off_privacy`; `mac` is the answer of `MacSetPrivacyMode(false)`. -/
def turnOffPrivacy (m : PrivacyModeImpl) (mac : Bool) (connId : Int) :
    PrivacyModeImpl × Except String Unit :=
  match m.checkOffConnId connId with
  | .error e => (m, .error e)
  | .ok _ =>
    if mac then ({ m with connId := 0 }, .ok ())
    else (m, .error "Failed to turn off privacy mode")

end PrivacyModeImpl

structure PrivacyBuild where
  supported : List String
  creators : List String
  default : String

/-- `DEFAULT_PRIVACY_MODE_IMPL`, `PRIVACY_MODE_CREATOR` and
`get_supported_privacy_mode_impl` of macOS. -/
def PrivacyBuild.macos : PrivacyBuild :=
  ⟨["privacy_mode_impl_macos"], ["privacy_mode_impl_macos"], "privacy_mode_impl_macos"⟩

/-- What a call meets: the answer of `MacSetPrivacyMode` and the option
`privacy-mode-impl-key`. -/
structure PrivacyAnswers where
  mac : Bool
  option : String

/-- The static `PRIVACY_MODE`. -/
abbrev PrivacyMode := Option PrivacyModeImpl

namespace PrivacyMode

def isInPrivacyMode (pm : PrivacyMode) : Bool :=
  match pm with
  | some m => m.connId ≠ invalidPrivacyModeConnId
  | none => false

def getPrivacyModeConnId (pm : PrivacyMode) : Option Int := pm.map (·.connId)

def getCurImplKey (pm : PrivacyMode) : Option String := pm.map (·.implKey)

def isCurrentPrivacyModeImpl (pm : PrivacyMode) (implKey : String) : Bool :=
  pm.getCurImplKey = some implKey

def getSupportedImpl (b : PrivacyBuild) (option implKey : String) : String :=
  if implKey ∈ b.supported then implKey
  else if option ∈ b.supported then option
  else b.default

/-- `check_privacy_mode_err`, other than on Windows. -/
def checkPrivacyModeErr : String := ""

theorem checkPrivacyModeErr_eq : checkPrivacyModeErr = "" := rfl

/-- The last call of `turn_on_privacy_sync`. -/
def turnOnCurrent (pm : PrivacyMode) (mac : Bool) (connId : Int) :
    PrivacyMode × PrivacyResult Bool :=
  match pm with
  | none => (none, none)
  | some m => (some (m.turnOnPrivacy mac connId).1, some (m.turnOnPrivacy mac connId).2)

def turnOnPrivacySync (pm : PrivacyMode) (b : PrivacyBuild) (ans : PrivacyAnswers)
    (requested : String) (connId : Int) : PrivacyMode × PrivacyResult Bool :=
  let implKey := getSupportedImpl b ans.option requested
  let switched : PrivacyMode × PrivacyResult Bool :=
    if implKey ∈ b.creators then turnOnCurrent (some (.new implKey)) ans.mac connId
    else (pm, some (.error ("Unsupported privacy mode: " ++ implKey)))
  match pm with
  | none => if "" ≠ implKey then switched else turnOnCurrent none ans.mac connId
  | some m =>
    match m.checkOnConnId connId with
    | .error e => (some m, some (.error e))
    | .ok same =>
      -- Same peer, same implementation.
      if same && m.implKey = implKey then (some m, some (.ok true))
      else if m.implKey ≠ implKey then switched
      else turnOnCurrent (some m) ans.mac connId

def turnOffPrivacy (pm : PrivacyMode) (mac : Bool) (connId : Int) :
    PrivacyMode × PrivacyResult Unit :=
  match pm with
  | none => (none, none)
  | some m => (some (m.turnOffPrivacy mac connId).1, some (m.turnOffPrivacy mac connId).2)

end PrivacyMode

/-- What a connection is in the middle of, by the next call of `privacy_mode` it makes. -/
inductive PrivacyTask where
  | idle
  /-- `turn_on_privacy`, before `is_in_privacy_mode`. -/
  | turnOnBegin (implKey : String)
  /-- Before `get_cur_impl_key`. -/
  | turnOnPrevious (implKey : String) (isPrePrivacyOn : Bool)
  /-- Before `is_current_privacy_mode_impl`. -/
  | turnOnCompare (implKey : String) (preImplKey : Option String)
  /-- Before `privacy_mode::turn_on_privacy`. -/
  | turnOn (implKey : String)
  /-- It has failed; before `is_in_privacy_mode`. -/
  | turnOnFailed (implKey err : String)
  /-- Before `turn_off_privacy` with the invalid id. -/
  | recover (implKey err : String)
  /-- `turn_off_privacy` of a request. -/
  | turnOff (implKey : String)
  /-- The permission is revoked; before `get_privacy_mode_conn_id`. -/
  | revoke
  /-- Before `get_cur_impl_key`. -/
  | revokeOwner
  /-- Before `turn_off_privacy`. -/
  | revokeOff (implKey : String)
  /-- The connection has ended; before `get_privacy_mode_conn_id`. -/
  | finish
  /-- Before `turn_off_privacy`. -/
  | finishOff
  deriving DecidableEq

/-- An authorized connection, as far as privacy mode is concerned.  `oldVersion` is a peer
before 1.2.4. -/
structure PrivacyConnection where
  connType : AuthConnType
  privacyMode : Bool
  keyboard : Bool
  oldVersion : Bool
  task : PrivacyTask

structure PrivacyServer where
  privacyMode : PrivacyMode
  connections : Int → Option PrivacyConnection
  idCount : Int
  sent : List (Int × PeerMessage)

/-- What happens: a connection is authorized, gets a `TogglePrivacyMode` or a legacy option,
has a permission switched or ends, or makes the next call of what it is in the middle of. -/
inductive PrivacyEvent where
  | authorize (connType : AuthConnType) (privacyMode keyboard oldVersion : Bool)
  | togglePrivacyMode (id : Int) (implKey : String) (on : Bool)
  | privacyOption (id : Int) (value : EnumOrUnknown BoolOption)
  | switchPrivacyMode (id : Int) (enabled : Bool)
  | switchKeyboard (id : Int) (enabled : Bool)
  | close (id : Int)
  | proceed (id : Int) (ans : PrivacyAnswers)

namespace PrivacyServer

def init (b : PrivacyBuild) (option : String) (idCount : Nat) : PrivacyServer where
  privacyMode :=
    let curImpl := if option ∈ b.supported then option else b.default
    if curImpl ∈ b.creators then some (.new curImpl) else none
  connections := fun _ => none
  idCount := idCount
  sent := []

def setConnection (s : PrivacyServer) (id : Int) (c : Option PrivacyConnection) : PrivacyServer :=
  { s with connections := Function.update s.connections id c }

def send (s : PrivacyServer) (id : Int) (m : PeerMessage) : PrivacyServer :=
  { s with sent := s.sent ++ [(id, m)] }

/-- `turn_on_privacy` up to its first call, as decided by the connection alone. -/
def turnOnPrivacy (s : PrivacyServer) (b : PrivacyBuild) (id : Int) (c : PrivacyConnection)
    (implKey : String) : PrivacyServer :=
  if c.connType ≠ .remote || !c.privacyMode then
    s.send id (.privacyMode .prvOnFailedDenied "" implKey)
  else if b.default = "" then
    s.send id (.privacyMode .prvNotSupported Connection.privacyModeUnsupported implKey)
  else s.setConnection id (some { c with task := .turnOnBegin implKey })

/-- `turn_off_privacy` up to its call. -/
def turnOffPrivacy (s : PrivacyServer) (b : PrivacyBuild) (id : Int) (c : PrivacyConnection)
    (implKey : String) : PrivacyServer :=
  if b.default = "" then
    s.send id (.privacyMode .prvNotSupported Connection.privacyModeUnsupported implKey)
  else s.setConnection id (some { c with task := .turnOff implKey })

/-- `toggle_privacy_mode`.  The scope of the other types of connection leaves it out. -/
def togglePrivacyMode (s : PrivacyServer) (b : PrivacyBuild) (id : Int)
    (c : PrivacyConnection) (implKey : String) (on : Bool) : PrivacyServer :=
  if c.connType = .remote then
    if on then s.turnOnPrivacy b id c implKey else s.turnOffPrivacy b id c implKey
  else s

/-- The option `privacy_mode` of peers before 1.2.4. -/
def privacyOption (s : PrivacyServer) (b : PrivacyBuild) (id : Int) (c : PrivacyConnection)
    (value : EnumOrUnknown BoolOption) : PrivacyServer :=
  if c.connType = .remote && c.oldVersion && c.keyboard then
    match setTo value with
    | some true => s.turnOnPrivacy b id c ""
    | some false => s.turnOffPrivacy b id c ""
    | none => s
  else s

/-- `SwitchPermission` of `privacy_mode`. -/
def switchPrivacyMode (s : PrivacyServer) (id : Int) (c : PrivacyConnection)
    (enabled : Bool) : PrivacyServer :=
  if enabled then s.setConnection id (some { c with privacyMode := true })
  else s.setConnection id (some { c with task := .revoke })

def proceed (s : PrivacyServer) (b : PrivacyBuild) (id : Int) (c : PrivacyConnection)
    (ans : PrivacyAnswers) : PrivacyServer :=
  let next (s : PrivacyServer) (task : PrivacyTask) : PrivacyServer :=
    s.setConnection id (some { c with task })
  match c.task with
  | .idle => s
  | .turnOnBegin implKey => next s (.turnOnPrevious implKey s.privacyMode.isInPrivacyMode)
  | .turnOnPrevious implKey isPrePrivacyOn =>
    next s (.turnOnCompare implKey (if isPrePrivacyOn then s.privacyMode.getCurImplKey else none))
  | .turnOnCompare implKey preImplKey =>
    match preImplKey with
    | some key =>
      if s.privacyMode.isCurrentPrivacyModeImpl key then next s (.turnOn implKey)
      else next (s.send id (.privacyMode .prvOffSucceeded "" key)) (.turnOn implKey)
    | none => next s (.turnOn implKey)
  | .turnOn implKey =>
    let r := s.privacyMode.turnOnPrivacySync b ans implKey id
    let s' := { s with privacyMode := r.1 }
    match r.2 with
    | some (.ok true) =>
      if PrivacyMode.checkPrivacyModeErr = "" then
        next (s'.send id (.privacyMode .prvOnSucceeded "" implKey)) .idle
      else
        next ({ s' with privacyMode := (s'.privacyMode.turnOffPrivacy ans.mac id).1 }.send id
          (.privacyMode .prvOnFailed PrivacyMode.checkPrivacyModeErr implKey)) .idle
    | some (.ok false) => next (s'.send id (.privacyMode .prvOnFailedPlugin "" implKey)) .idle
    | some (.error e) => next s' (.turnOnFailed implKey e)
    | none => next (s'.send id (.privacyMode .prvOffFailed "Not supported" implKey)) .idle
  | .turnOnFailed implKey e =>
    if s.privacyMode.isInPrivacyMode then next s (.recover implKey e)
    else next (s.send id (.privacyMode .prvOnFailed e implKey)) .idle
  | .recover implKey e =>
    let s' := { s with
      privacyMode := (s.privacyMode.turnOffPrivacy ans.mac invalidPrivacyModeConnId).1 }
    next (s'.send id (.privacyMode .prvOnFailed e implKey)) .idle
  | .turnOff implKey =>
    let r := s.privacyMode.turnOffPrivacy ans.mac id
    let s' := { s with privacyMode := r.1 }
    next (s'.send id (Connection.turnOffPrivacyResultToMsg r.2 implKey)) .idle
  | .revoke =>
    if s.privacyMode.getPrivacyModeConnId = some id then next s .revokeOwner
    else s.setConnection id (some { c with privacyMode := false, task := .idle })
  | .revokeOwner => next s (.revokeOff (s.privacyMode.getCurImplKey.getD ""))
  | .revokeOff implKey =>
    let r := s.privacyMode.turnOffPrivacy ans.mac id
    let s' := { s with privacyMode := r.1 }
    match r.2 with
    | some (.ok _) =>
      (s'.send id (.privacyMode .prvOffByPeer "" implKey)).setConnection id
        (some { c with privacyMode := false, task := .idle })
    | res => next (s'.send id (Connection.turnOffPrivacyResultToMsg res implKey)) .idle
  | .finish =>
    if s.privacyMode.getPrivacyModeConnId = some id then next s .finishOff
    else s.setConnection id none
  | .finishOff =>
    { s with privacyMode := (s.privacyMode.turnOffPrivacy ans.mac id).1 }.setConnection id none

def whenIdle (s : PrivacyServer) (id : Int) (handle : PrivacyConnection → PrivacyServer) :
    PrivacyServer :=
  match s.connections id with
  | some c => if c.task = .idle then handle c else s
  | none => s

def step (b : PrivacyBuild) (s : PrivacyServer) : PrivacyEvent → PrivacyServer
  | .authorize connType privacyMode keyboard oldVersion =>
    -- `id_count` is an `i32`: a run has no more connections than it can number.
    if s.idCount < 2147483647 then
      { s with idCount := s.idCount + 1 }.setConnection (s.idCount + 1)
        (some ⟨connType, privacyMode, keyboard, oldVersion, .idle⟩)
    else s
  | .togglePrivacyMode id implKey on =>
    s.whenIdle id fun c => s.togglePrivacyMode b id c implKey on
  | .privacyOption id value => s.whenIdle id fun c => s.privacyOption b id c value
  | .switchPrivacyMode id enabled => s.whenIdle id fun c => s.switchPrivacyMode id c enabled
  | .switchKeyboard id enabled =>
    s.whenIdle id fun c => s.setConnection id (some { c with keyboard := enabled })
  | .close id => s.whenIdle id fun c => s.setConnection id (some { c with task := .finish })
  | .proceed id ans =>
    match s.connections id with
    | some c => s.proceed b id c ans
    | none => s

def owner (s : PrivacyServer) : Option Int :=
  match s.privacyMode with
  | some m => if m.connId ≠ invalidPrivacyModeConnId then some m.connId else none
  | none => none

def task (s : PrivacyServer) (id : Int) : PrivacyTask :=
  match s.connections id with
  | some c => c.task
  | none => .idle

/-- The owner's own ways out: it turns privacy mode off, switches to another implementation
or takes back a switch that has failed, loses the permission, or ends. -/
def OwnEnd (b : PrivacyBuild) (s : PrivacyServer) (a : Int) : PrivacyEvent → Prop
  | .proceed id ans =>
    id = a ∧ match s.task id with
      | .turnOff _ | .revokeOff _ | .finishOff | .recover _ _ => True
      | .turnOn implKey =>
        s.privacyMode.getCurImplKey ≠ some (PrivacyMode.getSupportedImpl b ans.option implKey)
      | _ => False
  | _ => False

/-- While privacy mode is on for a connection, the step leaves it as it is unless it is one
of the owner's own ways out, and what another connection asks for is refused. -/
structure Belongs (b : PrivacyBuild) (s : PrivacyServer) (e : PrivacyEvent) : Prop where
  kept : ∀ a, s.owner = some a → ¬OwnEnd b s a e → (step b s e).privacyMode = s.privacyMode
  refusedOn : ∀ a id ans implKey, s.owner = some a → id ≠ a → e = .proceed id ans →
    s.task id = .turnOn implKey → (step b s e).task id = .turnOnFailed implKey privacyOccupied
  refusedOff : ∀ a id ans implKey, s.owner = some a → id ≠ a → e = .proceed id ans →
    s.task id = .turnOff implKey →
      (step b s e).sent = s.sent ++ [(id, .privacyMode .prvOffFailed privacyTurnOffOtherId implKey)]

/-- No connection takes back a failed request of its own while privacy mode is on for
another, or `MacSetPrivacyMode` fails then. -/
def NoForeignRecovery (s : PrivacyServer) : PrivacyEvent → Prop
  | .proceed id ans => ∀ implKey err, s.task id = .recover implKey err →
      ∀ a, s.owner = some a → id ≠ a → ans.mac = false
  | _ => True

section Calls

variable {b : PrivacyBuild} {s : PrivacyServer} {a id : Int} {c : PrivacyConnection}
  {ans : PrivacyAnswers} {mac : Bool} {implKey : String}

theorem owner_eq_some :
    s.owner = some a ↔ ∃ key, s.privacyMode = some ⟨key, a⟩ ∧ a ≠ invalidPrivacyModeConnId := by
  unfold owner
  cases s.privacyMode with
  | none => simp
  | some m =>
    obtain ⟨key, connId⟩ := m
    by_cases hon : connId = invalidPrivacyModeConnId
    · simp only [ne_eq, hon, not_true_eq_false, if_false, reduceCtorEq, Option.some.injEq,
        PrivacyModeImpl.mk.injEq, false_iff]
      rintro ⟨_, ⟨_, rfl⟩, hvalid⟩
      exact hvalid rfl
    · simp only [ne_eq, hon, not_false_eq_true, if_true, Option.some.injEq,
        PrivacyModeImpl.mk.injEq]
      constructor
      · rintro rfl
        exact ⟨key, ⟨rfl, rfl⟩, hon⟩
      · rintro ⟨_, ⟨_, rfl⟩, _⟩
        rfl

variable {key : String}

theorem turnOnPrivacySync_other (ha : a ≠ invalidPrivacyModeConnId) (hid : id ≠ a) :
    PrivacyMode.turnOnPrivacySync (some ⟨key, a⟩) b ans implKey id =
      (some ⟨key, a⟩, some (.error privacyOccupied)) := by
  simp [PrivacyMode.turnOnPrivacySync, PrivacyModeImpl.checkOnConnId, ha, Ne.symm hid]

theorem turnOnPrivacySync_same :
    PrivacyMode.turnOnPrivacySync
        (some ⟨PrivacyMode.getSupportedImpl b ans.option implKey, a⟩) b ans implKey a =
      (some ⟨PrivacyMode.getSupportedImpl b ans.option implKey, a⟩, some (.ok true)) := by
  simp [PrivacyMode.turnOnPrivacySync, PrivacyModeImpl.checkOnConnId]

theorem turnOffPrivacy_other (ha : a ≠ invalidPrivacyModeConnId)
    (hvalid : id ≠ invalidPrivacyModeConnId) (hid : id ≠ a) :
    PrivacyMode.turnOffPrivacy (some ⟨key, a⟩) mac id =
      (some ⟨key, a⟩, some (.error privacyTurnOffOtherId)) := by
  simp [PrivacyMode.turnOffPrivacy, PrivacyModeImpl.turnOffPrivacy,
    PrivacyModeImpl.checkOffConnId, ha, hvalid, Ne.symm hid]

theorem turnOffPrivacy_invalid :
    (PrivacyMode.turnOffPrivacy (some ⟨key, a⟩) mac invalidPrivacyModeConnId).1 =
      some ⟨key, if mac then 0 else a⟩ := by
  cases mac <;> simp [PrivacyMode.turnOffPrivacy, PrivacyModeImpl.turnOffPrivacy,
    PrivacyModeImpl.checkOffConnId]

theorem proceed_privacyMode :
    (s.proceed b id c ans).privacyMode =
      match c.task with
      | .turnOn implKey => (s.privacyMode.turnOnPrivacySync b ans implKey id).1
      | .recover _ _ => (s.privacyMode.turnOffPrivacy ans.mac invalidPrivacyModeConnId).1
      | .turnOff _ | .revokeOff _ | .finishOff => (s.privacyMode.turnOffPrivacy ans.mac id).1
      | _ => s.privacyMode := by
  unfold proceed
  cases c.task with
  | turnOnCompare implKey preImplKey =>
    cases preImplKey with
    | none => rfl
    | some key =>
      dsimp only
      split <;> rfl
  | turnOn implKey =>
    dsimp only
    split
    · rw [if_pos PrivacyMode.checkPrivacyModeErr_eq]
      rfl
    · rfl
    · rfl
    · rfl
  | turnOnFailed implKey err =>
    dsimp only
    split <;> rfl
  | revoke =>
    dsimp only
    split <;> rfl
  | revokeOff implKey =>
    dsimp only
    split <;> rfl
  | finish =>
    dsimp only
    split <;> rfl
  | idle | turnOnBegin _ | turnOnPrevious _ _ | recover _ _ | turnOff _ | revokeOwner
  | finishOff => rfl

theorem proceed_connections :
    (∃ c', (s.proceed b id c ans).connections = Function.update s.connections id c') ∧
      (s.proceed b id c ans).idCount = s.idCount := by
  have hset : ∀ (t : PrivacyServer) (c' : Option PrivacyConnection),
      t.connections = s.connections → t.idCount = s.idCount →
      (∃ c'', (t.setConnection id c').connections = Function.update s.connections id c'') ∧
        (t.setConnection id c').idCount = s.idCount := by
    intro t c' hconnections hcount
    refine ⟨⟨c', ?_⟩, hcount⟩
    rw [← hconnections]
    rfl
  unfold proceed
  cases c.task with
  | idle => exact ⟨⟨s.connections id, (Function.update_eq_self id s.connections).symm⟩, rfl⟩
  | turnOnCompare implKey preImplKey =>
    cases preImplKey with
    | none => exact hset _ _ rfl rfl
    | some key =>
      dsimp only
      split <;> exact hset _ _ rfl rfl
  | turnOn implKey =>
    dsimp only
    split
    · rw [if_pos PrivacyMode.checkPrivacyModeErr_eq]
      exact hset _ _ rfl rfl
    · exact hset _ _ rfl rfl
    · exact hset _ _ rfl rfl
    · exact hset _ _ rfl rfl
  | turnOnFailed implKey err =>
    dsimp only
    split <;> exact hset _ _ rfl rfl
  | revoke =>
    dsimp only
    split <;> exact hset _ _ rfl rfl
  | revokeOff implKey =>
    dsimp only
    split <;> exact hset _ _ rfl rfl
  | finish =>
    dsimp only
    split <;> exact hset _ _ rfl rfl
  | turnOnBegin _ | turnOnPrevious _ _ | recover _ _ | turnOff _ | revokeOwner | finishOff =>
    exact hset _ _ rfl rfl

end Calls

structure Inv (s : PrivacyServer) : Prop where
  idCount : 0 ≤ s.idCount
  valid : ∀ id c, s.connections id = some c → 0 < id

section Steps

variable {b : PrivacyBuild} {s : PrivacyServer}

theorem Inv.setConnection (h : Inv s) {id : Int} (c : Option PrivacyConnection)
    (hid : 0 < id) : Inv (s.setConnection id c) := by
  refine ⟨h.idCount, fun j c' hj => ?_⟩
  by_cases hji : j = id
  · exact hji ▸ hid
  · have hsame : (s.setConnection id c).connections j = s.connections j :=
      Function.update_of_ne hji _ _
    rw [hsame] at hj
    exact h.valid j c' hj

structure Local (s s' : PrivacyServer) : Prop where
  privacyMode : s'.privacyMode = s.privacyMode
  inv : Inv s → Inv s'

theorem Local.refl (s : PrivacyServer) : Local s s := ⟨rfl, id⟩

theorem Local.send (id : Int) (m : PeerMessage) : Local s (s.send id m) :=
  ⟨rfl, fun h => ⟨h.idCount, h.valid⟩⟩

theorem Local.setConnection {id : Int} {c : PrivacyConnection} (c' : Option PrivacyConnection)
    (hc : s.connections id = some c) : Local s (s.setConnection id c') :=
  ⟨rfl, fun h => h.setConnection c' (h.valid id c hc)⟩

theorem Local.whenIdle {id : Int} {handle : PrivacyConnection → PrivacyServer}
    (hhandle : ∀ c, s.connections id = some c → Local s (handle c)) :
    Local s (s.whenIdle id handle) := by
  unfold PrivacyServer.whenIdle
  split
  · rename_i c hc
    split
    · exact hhandle c hc
    · exact .refl s
  · exact .refl s

theorem turnOnPrivacy_local {id : Int} {c : PrivacyConnection} {implKey : String}
    (hc : s.connections id = some c) : Local s (s.turnOnPrivacy b id c implKey) := by
  unfold PrivacyServer.turnOnPrivacy
  split
  · exact .send id _
  · split
    · exact .send id _
    · exact .setConnection _ hc

theorem turnOffPrivacy_local {id : Int} {c : PrivacyConnection} {implKey : String}
    (hc : s.connections id = some c) : Local s (s.turnOffPrivacy b id c implKey) := by
  unfold PrivacyServer.turnOffPrivacy
  split
  · exact .send id _
  · exact .setConnection _ hc

variable {e : PrivacyEvent}

theorem step_local (he : ∀ id ans, e ≠ .proceed id ans) : Local s (step b s e) := by
  cases e with
  | authorize connType privacyMode keyboard oldVersion =>
    unfold PrivacyServer.step
    dsimp only
    split
    · refine ⟨rfl, fun h => ?_⟩
      have hcount := h.idCount
      have hcounted : Inv { s with idCount := s.idCount + 1 } := ⟨by simp; omega, h.valid⟩
      exact hcounted.setConnection _ (by omega)
    · exact .refl s
  | togglePrivacyMode id implKey on =>
    refine .whenIdle fun c hc => ?_
    unfold togglePrivacyMode
    split
    · split
      · exact turnOnPrivacy_local hc
      · exact turnOffPrivacy_local hc
    · exact .refl s
  | privacyOption id value =>
    refine .whenIdle fun c hc => ?_
    unfold privacyOption
    split
    · split
      · exact turnOnPrivacy_local hc
      · exact turnOffPrivacy_local hc
      · exact .refl s
    · exact .refl s
  | switchPrivacyMode id enabled =>
    refine .whenIdle fun c hc => ?_
    unfold switchPrivacyMode
    split
    · exact .setConnection _ hc
    · exact .setConnection _ hc
  | switchKeyboard id enabled => exact .whenIdle fun c hc => .setConnection _ hc
  | close id => exact .whenIdle fun c hc => .setConnection _ hc
  | proceed id ans => exact absurd rfl (he id ans)

theorem Inv.step (h : Inv s) (e : PrivacyEvent) : Inv (step b s e) := by
  by_cases he : ∀ id ans, e ≠ .proceed id ans
  · exact (step_local he).inv h
  · push Not at he
    obtain ⟨id, ans, rfl⟩ := he
    unfold PrivacyServer.step
    dsimp only
    split
    · rename_i c hc
      obtain ⟨⟨c'', hconnections⟩, hcount⟩ : (∃ c'', (s.proceed b id c ans).connections =
          Function.update s.connections id c'') ∧ _ := proceed_connections
      refine ⟨by rw [hcount]; exact h.idCount, fun j c' hj => ?_⟩
      by_cases hji : j = id
      · exact hji ▸ h.valid id c hc
      · rw [hconnections, Function.update_of_ne hji] at hj
        exact h.valid j c' hj
    · exact h

variable (b s) in
theorem step_proceed_privacyMode (id : Int) (ans : PrivacyAnswers) :
    (step b s (.proceed id ans)).privacyMode =
      match s.task id with
      | .turnOn implKey => (s.privacyMode.turnOnPrivacySync b ans implKey id).1
      | .recover _ _ => (s.privacyMode.turnOffPrivacy ans.mac invalidPrivacyModeConnId).1
      | .turnOff _ | .revokeOff _ | .finishOff => (s.privacyMode.turnOffPrivacy ans.mac id).1
      | _ => s.privacyMode := by
  unfold PrivacyServer.step task
  dsimp only
  cases hc : s.connections id with
  | none => rfl
  | some c => exact proceed_privacyMode

theorem Inv.busy (h : Inv s) {id : Int} (hbusy : s.task id ≠ .idle) :
    id ≠ invalidPrivacyModeConnId := by
  unfold task at hbusy
  cases hc : s.connections id with
  | none =>
    rw [hc] at hbusy
    exact absurd rfl hbusy
  | some c => exact (h.valid id c hc).ne'

theorem kept_of_noForeignRecovery (h : Inv s) (he : s.NoForeignRecovery e)
    {a : Int} (ha : s.owner = some a) (hend : ¬OwnEnd b s a e) :
    (step b s e).privacyMode = s.privacyMode := by
  obtain ⟨key, hpm, hvalid⟩ := owner_eq_some.mp ha
  cases e with
  | proceed id ans =>
    have hcall := step_proceed_privacyMode b s id ans
    -- turning off by id: the owner's own way out, and refused to everyone else
    have hoff : s.task id ≠ .idle → (id = a → False) →
        (s.privacyMode.turnOffPrivacy ans.mac id).1 = s.privacyMode := by
      intro hbusy hne
      rw [hpm, turnOffPrivacy_other hvalid (h.busy hbusy) hne]
    cases htask : s.task id with
    | turnOn implKey =>
      rw [hcall, htask]
      dsimp only
      by_cases hid : id = a
      · subst hid
        have hsame : key = PrivacyMode.getSupportedImpl b ans.option implKey := by
          by_contra hne
          refine hend ⟨rfl, ?_⟩
          rw [htask, hpm]
          exact fun heq => hne (Option.some.inj heq)
        rw [hpm, hsame, turnOnPrivacySync_same]
      · rw [hpm, turnOnPrivacySync_other hvalid hid]
    | recover implKey err =>
      rw [hcall, htask]
      dsimp only
      have hid : id ≠ a := fun heq => hend ⟨heq, by rw [htask]; trivial⟩
      have hmac := he implKey err htask a ha hid
      rw [hpm, turnOffPrivacy_invalid, hmac]
      rfl
    | turnOff implKey =>
      rw [hcall, htask]
      exact hoff (by simp [htask]) fun heq => hend ⟨heq, by rw [htask]; trivial⟩
    | revokeOff implKey =>
      rw [hcall, htask]
      exact hoff (by simp [htask]) fun heq => hend ⟨heq, by rw [htask]; trivial⟩
    | finishOff =>
      rw [hcall, htask]
      exact hoff (by simp [htask]) fun heq => hend ⟨heq, by rw [htask]; trivial⟩
    | idle | turnOnBegin _ | turnOnPrevious _ _ | turnOnCompare _ _ | turnOnFailed _ _
    | revoke | revokeOwner | finish => rw [hcall, htask]
  | authorize _ _ _ _ | togglePrivacyMode _ _ _ | privacyOption _ _ | switchPrivacyMode _ _
  | switchKeyboard _ _ | close _ => exact (step_local (by simp)).privacyMode

theorem noForeignRecovery_of_kept (hkept : ∀ a, s.owner = some a → ¬OwnEnd b s a e →
      (step b s e).privacyMode = s.privacyMode) : s.NoForeignRecovery e := by
  cases e with
  | proceed id ans =>
    intro implKey err htask a ha hid
    obtain ⟨key, hpm, hvalid⟩ := owner_eq_some.mp ha
    have hsame := hkept a ha fun hend => hid hend.1
    rw [step_proceed_privacyMode, htask] at hsame
    dsimp only at hsame
    rw [hpm, turnOffPrivacy_invalid] at hsame
    cases hmac : ans.mac with
    | false => rfl
    | true =>
      rw [hmac] at hsame
      exact absurd (PrivacyModeImpl.mk.inj (Option.some.inj hsame)).2.symm hvalid
  | authorize _ _ _ _ | togglePrivacyMode _ _ _ | privacyOption _ _ | switchPrivacyMode _ _
  | switchKeyboard _ _ | close _ => trivial

theorem connection_of_task {id : Int} {t : PrivacyTask} (ht : s.task id = t) (hne : t ≠ .idle) :
    ∃ c, s.connections id = some c ∧ c.task = t := by
  unfold task at ht
  cases hc : s.connections id with
  | none =>
    rw [hc] at ht
    exact absurd ht.symm hne
  | some c =>
    rw [hc] at ht
    exact ⟨c, rfl, ht⟩

theorem belongs_iff (h : Inv s) (e : PrivacyEvent) : Belongs b s e ↔ s.NoForeignRecovery e := by
  constructor
  · exact fun hbelongs => noForeignRecovery_of_kept hbelongs.kept
  · intro he
    refine ⟨fun a ha hend => kept_of_noForeignRecovery h he ha hend, ?_, ?_⟩
    · rintro a id ans implKey ha hid rfl htask
      obtain ⟨key, hpm, hvalid⟩ := owner_eq_some.mp ha
      obtain ⟨c, hc, hturnOn⟩ := connection_of_task htask nofun
      simp only [PrivacyServer.step, hc, proceed, hturnOn, hpm,
        turnOnPrivacySync_other hvalid hid, task, setConnection, Function.update_self]
    · rintro a id ans implKey ha hid rfl htask
      obtain ⟨key, hpm, hvalid⟩ := owner_eq_some.mp ha
      obtain ⟨c, hc, hturnOff⟩ := connection_of_task htask nofun
      have hid' : id ≠ invalidPrivacyModeConnId := (h.valid id c hc).ne'
      simp only [PrivacyServer.step, hc, proceed, hturnOff, hpm,
        turnOffPrivacy_other hvalid hid' hid, setConnection, send,
        Connection.turnOffPrivacyResultToMsg]

theorem inv_init (b : PrivacyBuild) (option : String) (idCount : Nat) :
    Inv (init b option idCount) := by
  have hnone : ∀ id, (init b option idCount).connections id = none := fun _ => rfl
  refine ⟨Int.natCast_nonneg idCount, fun id c hc => ?_⟩
  rw [hnone] at hc
  cases hc

end Steps

/-- **Privacy mode belongs to its owner, or not.**  In every interleaving of any number of
connections, privacy mode stays on for the connection it is on for until that connection
itself gives it up, and the others' requests are refused, exactly if no connection takes
back a failed request of its own, with success, while privacy mode is on for another. -/
theorem privacy_mode_belongs_to_owner_iff (b : PrivacyBuild) (option : String) (idCount : Nat)
    (events : List PrivacyEvent) :
    Run.Along (step b) (Belongs b) (init b option idCount) events ↔
      Run.Along (step b) NoForeignRecovery (init b option idCount) events := by
  have hinit : Inv (init b option idCount) := inv_init b option idCount
  constructor
  · exact Run.Along.of_invariant (fun _ e h _ => h.step e)
      (fun _ e h he => (belongs_iff h e).mp he) hinit
  · exact Run.Along.of_invariant (fun _ e h _ => h.step e)
      (fun _ e h he => (belongs_iff h e).mpr he) hinit

def secondRequest : List PrivacyEvent :=
  let call (id : Int) : PrivacyEvent := .proceed id ⟨true, ""⟩
  [.authorize .remote true true false, .authorize .remote true true false,
    .togglePrivacyMode 1001 "privacy_mode_impl_macos" true, call 1001, call 1001, call 1001,
    call 1001, .togglePrivacyMode 1002 "privacy_mode_impl_macos" true, call 1002, call 1002,
    call 1002, call 1002, call 1002]

/-- The refused request of the second connection turns the first one's privacy mode off. -/
theorem refused_request_turns_off :
    ¬Run.Along (step .macos) (Belongs .macos) (init .macos "" 1000)
      (secondRequest ++ [.proceed 1002 ⟨true, ""⟩]) := by
  intro h
  have hlast : Belongs .macos (Run.exec (step .macos) (init .macos "" 1000) secondRequest)
      (.proceed 1002 ⟨true, ""⟩) := h.2.2.2.2.2.2.2.2.2.2.2.2.2.1
  have hkept := hlast.kept 1001 (by decide +kernel) (fun hend => absurd hend.1 (by decide))
  revert hkept
  decide +kernel

end PrivacyServer
end RustDesk
