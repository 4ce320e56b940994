import Mathlib.Tactic.Common

/-!
# The windows and their sessions

`SESSIONS` has an entry for each peer and kind of connection, and an entry has a handler for
each window that shows it, by the window's session id.  A window is opened by `session_add` or
on an existing entry by `session_add_existed`, it is started by `session_start_` and closed by
`session_close`.

These run in parallel, each as a series of sections under one lock.  What a section does with
the handlers of one entry while it has `SESSIONS` locked is one section here: no other section
adds or removes handlers then.  An id is in one entry at most, so that the order in which the
entries are looked through does not matter.
-/

namespace RustDesk.UiSessions

inductive ConnType where
  | defaultConn
  | fileTransfer
  | portForward
  | rdp
  | viewCamera
  | terminal
  deriving DecidableEq

/-- The key of an entry. -/
abbrev PeerKey := String × ConnType

/-- A session as far as its windows go: the ids of its handlers, each with whether it has an
event stream, and how many connection threads `session_start_` has started. -/
structure Entry where
  handlers : List (Nat × Bool)
  threads : Nat
  deriving DecidableEq

namespace Entry

def new : Entry := ⟨[], 0⟩

/-- `contains_key`. -/
def has (x : Entry) (id : Nat) : Bool := x.handlers.any (·.1 = id)

def eventStream (x : Entry) (id : Nat) : Option Bool :=
  (x.handlers.find? (·.1 = id)).map (·.2)

/-- `insert` of a default handler. -/
def insert (x : Entry) (id : Nat) : Entry :=
  { x with handlers := x.handlers.filter (·.1 ≠ id) ++ [(id, false)] }

def remove (x : Entry) (id : Nat) : Entry :=
  { x with handlers := x.handlers.filter (·.1 ≠ id) }

def setEventStream (x : Entry) (id : Nat) : Entry :=
  { x with handlers := x.handlers.map fun h => if h.1 = id then (id, true) else h }

def spawn (x : Entry) : Entry := { x with threads := x.threads + 1 }

end Entry

/-- A call in progress: what its next section does.  `add` and `insert` are `session_add`,
`existed` is `insert_peer_session_id`, from `start` to `decide` it is `session_start_`, and
`close` and `remove` are `session_close`. -/
inductive Call where
  | add (id : Nat) (key : PeerKey)
  | insert (id : Nat) (key : PeerKey)
  | existed (id : Nat) (key : PeerKey)
  | start (id : Nat)
  | visit (id : Nat) (snapshot : List Nat)
  | find (id : Nat) (isConnected : Bool)
  | decide (id : Nat) (entry : Nat) (isConnected : Bool)
  | close (id : Nat)
  | remove (key : PeerKey)
  | done
  deriving DecidableEq

def Call.inserts : Call → Option Nat
  | .add id _ | .insert id _ | .existed id _ => some id
  | _ => none

/-- `SESSIONS`, the sessions there have been, and the calls, numbered as they began.  Recorded
are the ids given to be inserted, those inserted, and those closed. -/
structure Sessions where
  sessions : List (PeerKey × Nat)
  entries : Nat → Entry
  count : Nat
  calls : Nat → Call
  begun : Nat
  ids : List Nat
  inserted : List Nat
  closed : List Nat

namespace Sessions

def init : Sessions where
  sessions := []
  entries := fun _ => .new
  count := 0
  calls := fun _ => .done
  begun := 0
  ids := []
  inserted := []
  closed := []

def modify (s : Sessions) (e : Nat) (f : Entry → Entry) : Sessions :=
  { s with entries := Function.update s.entries e (f (s.entries e)) }

/-- `get` of a key. -/
def get (s : Sessions) (key : PeerKey) : Option Nat :=
  (s.sessions.find? (·.1 = key)).map (·.2)

/-- `get_session_by_session_id`, with the key. -/
def getSessionBySessionId (s : Sessions) (id : Nat) : Option (PeerKey × Nat) :=
  s.sessions.find? fun p => (s.entries p.2).has id

def insertHandler (s : Sessions) (e id : Nat) : Sessions :=
  { s.modify e (·.insert id) with inserted := s.inserted ++ [id] }

def removeHandler (s : Sessions) (e id : Nat) : Sessions :=
  { s.modify e (·.remove id) with closed := s.closed ++ [id] }

def insertSession (s : Sessions) (id : Nat) (key : PeerKey) : Sessions :=
  match s.get key with
  | some e => s.insertHandler e id
  | none =>
    let e := s.count
    let s := { s with
      sessions := s.sessions ++ [(key, e)]
      entries := Function.update s.entries e .new
      count := e + 1 }
    s.insertHandler e id

def nextSection (s : Sessions) : Call → Sessions × Call
  | .add id key =>
    (s, if (s.getSessionBySessionId id).isSome then .done else .insert id key)
  | .insert id key => (s.insertSession id key, .done)
  | .existed id key =>
    match s.get key with
    | some e => (s.insertHandler e id, .done)
    | none => (s, .done)
  | .start id => (s, .visit id (s.sessions.map (·.2)))
  | .visit id (e :: rest) =>
    match (s.entries e).eventStream id with
    | some isConnected => (s.modify e (·.setEventStream id), .find id isConnected)
    | none => (s, .visit id rest)
  | .visit _ [] => (s, .done)
  | .find id isConnected =>
    match s.getSessionBySessionId id with
    | some (_, e) => (s, .decide id e isConnected)
    | none => (s, .done)
  | .decide _ e isConnected =>
    if !isConnected && (s.entries e).handlers.length = 1 then (s.modify e (·.spawn), .done)
    else (s, .done)
  | .close id =>
    match s.getSessionBySessionId id with
    | some (key, e) =>
      let s := s.removeHandler e id
      (s, if (s.entries e).handlers.isEmpty then .remove key else .done)
    | none => (s, .done)
  | .remove key => ({ s with sessions := s.sessions.filter (·.1 ≠ key) }, .done)
  | .done => (s, .done)

end Sessions

inductive Event where
  | sessionAdd (id : Nat) (key : PeerKey)
  | sessionAddExisted (id : Nat) (key : PeerKey)
  | sessionStart (id : Nat)
  | sessionClose (id : Nat)
  | run (c : Nat)

namespace Sessions

def beginCall (s : Sessions) (call : Call) : Sessions :=
  { s with
    calls := Function.update s.calls s.begun call
    begun := s.begun + 1
    ids := s.ids ++ call.inserts.toList }

def run (s : Sessions) (c : Nat) : Sessions :=
  let (t, next) := s.nextSection (s.calls c)
  { t with calls := Function.update t.calls c next }

def step (s : Sessions) : Event → Sessions
  | .sessionAdd id key => s.beginCall (.add id key)
  | .sessionAddExisted id key => s.beginCall (.existed id key)
  | .sessionStart id => s.beginCall (.start id)
  | .sessionClose id => s.beginCall (.close id)
  | .run c => s.run c

end Sessions
end RustDesk.UiSessions
