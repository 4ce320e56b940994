import RustDesk.Basic

/-!
# Registration with the rendezvous servers

The client registers its id and its public key with each rendezvous server.  Two flags of
the configuration say that this is done: `key_confirmed`, and one for each host in
`keys_confirmed`, which is emptied when `key_confirmed` goes from true to false.

A task for each host takes its messages one at a time, but between two accesses to the
configuration the other tasks go on: a task is a program counter here.  A response is a
datagram; it may come late, twice, out of order or never, and says nothing about the request
it answers.  The model keeps that request beside it.

The identity changes in two places.  A `UUID_MISMATCH` makes `handle_uuid_mismatch` take a
new random id, and on macOS the configuration is replaced by that of root, under
`CheckIfResendPk`.
-/

namespace RustDesk.Registration

/-- The text is accepted by `parse::<i32>`. -/
def parsesI32 (x : List Char) : Bool :=
  let digits := match x with
    | '+' :: ds | '-' :: ds => ds
    | ds => ds
  let value : Nat := digits.foldl (fun n c => n * 10 + (c.toNat - '0'.toNat)) 0
  let bound : Nat := if x.head? = some '-' then 2147483649 else 2147483648
  !digits.isEmpty && digits.all Char.isDigit && decide (value < bound)

def getHostPrefix (host : String) : String :=
  let x := host.toList.takeWhile (· ≠ '.')
  if parsesI32 x then host else String.ofList x

/-- The fields of `Config` that registration reads, with the public half of the key pair. -/
structure Config where
  id : String
  keyPair : Option Bytes
  keyConfirmed : Bool
  keysConfirmed : String → Option Bool

structure RegisterPk where
  id : String
  uuid : Bytes
  pk : Bytes
  noRegisterDevice : Bool
  deriving DecidableEq

inductive Sent where
  | registerPk (r : RegisterPk)
  | registerPeer (id : String) (serial : Nat)
  deriving DecidableEq

/-- The results of a `RegisterPkResponse` that are told apart. -/
inductive RegisterPkResult where
  | ok
  | uuidMismatch
  | notDeployed
  | other

/-- Where the task of a host is: before its next message; after an OK between its two flags,
and before `SOLVING_PK_MISMATCH`; in `handle_uuid_mismatch` before the lock, and with it
between the flag and the new id; at the start of `register_pk`, and between its reads of the
key and of the id; after a NOT_DEPLOYED between its two flags. -/
inductive Task where
  | idle
  | okKeyConfirmed
  | okHostConfirmed
  | mismatch
  | mismatchReset
  | registerPk
  | registerPkWith (pk : Bytes)
  | notDeployedReset
  deriving DecidableEq

/-- Where the sync from root is: before, between `CheckIfResendPk::new` with the key it has
kept and `Config::set`, and between that and the drop. -/
inductive Sync where
  | idle
  | checking (pk : Option Bytes)
  | applied (pk : Option Bytes)
  deriving DecidableEq

/-- The statics, the tasks and the network.  `generatedKeyPair` is what a thread started by
`get_key_pair` has yet to store; `lastOk` records for each host the request that the last OK
answered. -/
structure Mediators where
  servers : List String
  uuid : Bytes
  noRegisterDevice : Bool
  serial : Nat
  config : Config
  cachedKeyPair : Option Bytes
  generatedKeyPair : Option Bytes
  solvingPkMismatch : String
  needsDeploy : Bool
  lastNotDeployedRegister : Bool
  sentRegisterPk : Bool
  tasks : String → Task
  sync : Sync
  sent : List (String × Sent)
  lastOk : String → Option RegisterPk

/-- What happens: a timer ticks; a response comes in, to a request the server was sent; a task
takes its next step; a connection forces the key to be updated; the sync goes on; a generated
key pair is stored.  What depends on a clock or on randomness is part of the event. -/
inductive Event where
  | timer (host : String) (throttled : Bool)
  | registerPeerResponse (host : String) (requestPk : Bool)
  | registerPkResponse (host : String) (result : RegisterPkResult) (answers : RegisterPk)
  | confirmHost (host : String)
  | clearSolving (host : String)
  | lockSolving (host : String)
  | updateId (host : String) (newId : String)
  | registerPk (host : String) (throttled : Bool) (fresh : Bytes)
  | sendRegisterPk (host : String)
  | unconfirmHost (host : String)
  | forceUpdatePk
  | syncNew
  | syncSet (config : Option Config)
  | syncDrop
  | storeKeyPair

namespace Config

def setKeyConfirmed (c : Config) (v : Bool) : Config :=
  if c.keyConfirmed = v then c
  else { c with keyConfirmed := v, keysConfirmed := if v then c.keysConfirmed else fun _ => none }

def getHostKeyConfirmed (c : Config) (host : String) : Bool := c.keysConfirmed host = some true

def setHostKeyConfirmed (c : Config) (host : String) (v : Bool) : Config :=
  if c.getHostKeyConfirmed host = v then c
  else { c with keysConfirmed := Function.update c.keysConfirmed host (some v) }

/-- `is_empty`, without the encrypted id. -/
def isEmpty (c : Config) : Bool := c.id = "" || c.keyPair.isNone

end Config

namespace Mediators

/-- The public key that `get_key_pair` gives, unless it has to generate one. -/
def currentPk (s : Mediators) : Option Bytes :=
  match s.cachedKeyPair with
  | some pk => some pk
  | none => s.config.keyPair

/-- `get_key_pair`, with the key it generates if it has to. -/
def getKeyPair (s : Mediators) (fresh : Bytes) : Mediators × Bytes :=
  match s.cachedKeyPair, s.config.keyPair with
  | some pk, _ => (s, pk)
  | none, some pk => ({ s with cachedKeyPair := some pk }, pk)
  | none, none => ({ s with cachedKeyPair := some fresh, generatedKeyPair := some fresh }, fresh)

/-- `Config::set` with `invalidate_key_pair_cache_if_changed`. -/
def setConfig (s : Mediators) (c : Config) : Mediators :=
  { s with
    config := c
    cachedKeyPair := if s.cachedKeyPair = c.keyPair then s.cachedKeyPair else none }

def goTo (s : Mediators) (host : String) (task : Task) : Mediators :=
  { s with tasks := Function.update s.tasks host task }

def confirmed (s : Mediators) (host : String) : Bool :=
  s.config.keyConfirmed && s.config.getHostKeyConfirmed (getHostPrefix host)

/-- Some task holds the lock of `SOLVING_PK_MISMATCH` across a step. -/
def solvingLocked (s : Mediators) : Bool := s.servers.any fun h => s.tasks h = .mismatchReset

/-- `handle_resp` for a `RegisterPkResponse`, up to the second access to the configuration. -/
def handleRegisterPkResponse (s : Mediators) (host : String) (result : RegisterPkResult)
    (answers : RegisterPk) : Mediators :=
  match result with
  | .ok =>
    { s with
      config := s.config.setKeyConfirmed true
      lastOk := Function.update s.lastOk host (some answers) }.goTo host .okKeyConfirmed
  | .uuidMismatch => s.goTo host .mismatch
  | .notDeployed =>
    { s with
      needsDeploy := true
      config := s.config.setKeyConfirmed false }.goTo host .notDeployedReset
  | .other => s

/-- `register_peer` from a tick of the timer. -/
def registerPeer (s : Mediators) (host : String) : Mediators :=
  if s.solvingPkMismatch = "" || s.solvingPkMismatch = host then
    if s.confirmed host then
      { s with sent := s.sent ++ [(host, .registerPeer s.config.id s.serial)] }
    else s.goTo host .registerPk
  else s

/-- `handle_uuid_mismatch` with the lock, up to `update_id`. -/
def handleUuidMismatch (s : Mediators) (host : String) : Mediators :=
  if s.solvingPkMismatch = "" || s.solvingPkMismatch = host then
    { s with config := s.config.setKeyConfirmed false }.goTo host .mismatchReset
  else s.goTo host .idle

/-- `register_pk` up to its read of the id; while the device awaits deployment it is throttled. -/
def registerPk (s : Mediators) (host : String) (throttled : Bool) (fresh : Bytes) : Mediators :=
  if s.needsDeploy && s.lastNotDeployedRegister && throttled then s.goTo host .idle
  else
    let (s', pk) := { s with lastNotDeployedRegister := s.needsDeploy }.getKeyPair fresh
    s'.goTo host (.registerPkWith pk)

/-- `register_pk` from its read of the id. -/
def sendRegisterPk (s : Mediators) (host : String) (pk : Bytes) : Mediators :=
  let r : RegisterPk := ⟨s.config.id, s.uuid, pk, s.noRegisterDevice⟩
  { s with sent := s.sent ++ [(host, Sent.registerPk r)], sentRegisterPk := true }.goTo host .idle

/-- The drop of `CheckIfResendPk`. -/
def checkIfResendPk (s : Mediators) (pk : Option Bytes) : Mediators :=
  if s.sentRegisterPk && s.cachedKeyPair ≠ pk then
    { s with config := s.config.setKeyConfirmed false }
  else s

def atTask (s : Mediators) (host : String) (task : Task) (f : Mediators → Mediators) : Mediators :=
  if host ∈ s.servers ∧ s.tasks host = task then f s else s

def step (s : Mediators) : Event → Mediators
  | .timer host throttled =>
    s.atTask host .idle fun s =>
      if s.solvingLocked || (s.needsDeploy && s.lastNotDeployedRegister && throttled) then s
      else s.registerPeer host
  | .registerPeerResponse host requestPk =>
    s.atTask host .idle fun s => if requestPk then s.goTo host .registerPk else s
  | .registerPkResponse host result answers =>
    s.atTask host .idle fun s =>
      if (host, Sent.registerPk answers) ∈ s.sent then
        s.handleRegisterPkResponse host result answers
      else s
  | .confirmHost host =>
    s.atTask host .okKeyConfirmed fun s =>
      { s with config := s.config.setHostKeyConfirmed (getHostPrefix host) true }.goTo host
        .okHostConfirmed
  | .clearSolving host =>
    s.atTask host .okHostConfirmed fun s =>
      if s.solvingLocked then s
      else { s with solvingPkMismatch := "", needsDeploy := false }.goTo host .idle
  | .lockSolving host =>
    s.atTask host .mismatch fun s => if s.solvingLocked then s else s.handleUuidMismatch host
  | .updateId host newId =>
    s.atTask host .mismatchReset fun s =>
      { s with
        config := { s.config with id := newId }
        solvingPkMismatch := host }.goTo host .registerPk
  | .registerPk host throttled fresh =>
    s.atTask host .registerPk fun s => s.registerPk host throttled fresh
  | .sendRegisterPk host =>
    match s.tasks host with
    | .registerPkWith pk =>
      s.atTask host (.registerPkWith pk) fun s => s.sendRegisterPk host pk
    | _ => s
  | .unconfirmHost host =>
    s.atTask host .notDeployedReset fun s =>
      { s with config := s.config.setHostKeyConfirmed (getHostPrefix host) false }.goTo host .idle
  | .forceUpdatePk => { s with config := s.config.setKeyConfirmed false }
  | .syncNew =>
    match s.sync with
    | .idle => { s with sync := .checking s.cachedKeyPair }
    | _ => s
  | .syncSet config =>
    match s.sync with
    | .checking pk =>
      match config with
      | some c => if c.isEmpty then { s with sync := .applied pk }
          else { s.setConfig c with sync := .applied pk }
      | none => { s with sync := .applied pk }
    | _ => s
  | .syncDrop =>
    match s.sync with
    | .applied pk => { s.checkIfResendPk pk with sync := .idle }
    | _ => s
  | .storeKeyPair =>
    match s.generatedKeyPair with
    | some pk =>
      { s with config := { s.config with keyPair := some pk }, generatedKeyPair := none }
    | none => s

end Mediators
end RustDesk.Registration
