import Mathlib.Algebra.Group.Int.Defs
import Mathlib.Algebra.Group.Nat.Defs
import RustDesk.Basic
import RustDesk.Lib.Run

/-!
# Tokens of the portable service (Windows)

`start_portable_service` makes shared memory, writes a fresh token into it, and starts a
helper that is told the memory's name.  The helper reads the token and presents it over IPC;
the main process consumes it, and gives it back if the handshake fails after that.

The token, the memory and its name have a lock each.  A step is what happens under the locks
that are held together: all of `clear_runtime_shmem_state`, of
`consume_runtime_ipc_token_if_match` and of
`restore_runtime_ipc_token_after_failed_handshake`, but a launch creates its memory in one
step and publishes the token in another.  The history says which launch a token and a
memory come from.

A token is in one place at a time: with the launch that has not published it, in
`IPC_RUNTIME_TOKEN`, or with the handshake that has consumed it.  So it is used once.
-/

namespace RustDesk

def ipcTokenLen : Nat := 64

def ipcTokenRandomBytes : Nat := ipcTokenLen / 2

/-- A digit, as `{:x}` writes it. -/
def lowerHexDigit (n : Nat) : UInt8 := if n < 10 then .ofNat (48 + n) else .ofNat (87 + n)

/-- `generate_one_time_ipc_token`, from what the generator gives. -/
def generateOneTimeIpcToken (randomBytes : Vector UInt8 ipcTokenRandomBytes) : Bytes :=
  randomBytes.toList.flatMap fun byte =>
    [lowerHexDigit (byte.toNat / 16), lowerHexDigit (byte.toNat % 16)]

def isAsciiUppercase (byte : UInt8) : Bool := 65 ≤ byte && byte ≤ 90

def isAsciiHexdigit (byte : UInt8) : Bool :=
  (48 ≤ byte && byte ≤ 57) || (65 ≤ byte && byte ≤ 70) || (97 ≤ byte && byte ≤ 102)

def isAsciiAlphanumeric (byte : UInt8) : Bool :=
  (48 ≤ byte && byte ≤ 57) || isAsciiUppercase byte || (97 ≤ byte && byte ≤ 122)

def isValidPortableServiceIpcToken (token : Bytes) : Bool :=
  token.length == ipcTokenLen &&
    token.all fun byte => isAsciiHexdigit byte && !isAsciiUppercase byte

def constantTimeIpcTokenEq (expected candidate : Bytes) : Bool :=
  if expected.length ≠ ipcTokenLen ∨ candidate.length ≠ ipcTokenLen then false
  else (expected.zip candidate).foldl (fun diff pair => diff ||| (pair.1 ^^^ pair.2)) 0 == 0

def shmemNameMaxLen : Nat := 64

def isValidPortableServiceShmemName (name : Bytes) : Bool :=
  !name.isEmpty && decide (name.length ≤ shmemNameMaxLen) &&
    name.all fun byte => isAsciiAlphanumeric byte || byte == 95 || byte == 45

/-- `next_portable_service_shmem_name`, from what the generator gives. -/
def nextPortableServiceShmemName (pid : Nat) (random : UInt32) : Bytes :=
  "_portable_service_".toUTF8.toList ++ (Nat.toDigits 10 pid).map (fun c => .ofNat c.toNat) ++
    [95] ++ (List.range 8).reverse.map fun i => lowerHexDigit (random.toNat / 16 ^ i % 16)

theorem lowerHexDigit_valid :
    ∀ n < 16, (isAsciiHexdigit (lowerHexDigit n) && !isAsciiUppercase (lowerHexDigit n)) =
      true := by
  decide

/-- **A generated token is valid**, so that writing it into shared memory does not fail. -/
theorem generateOneTimeIpcToken_valid (randomBytes : Vector UInt8 ipcTokenRandomBytes) :
    isValidPortableServiceIpcToken (generateOneTimeIpcToken randomBytes) = true := by
  have hlength : (generateOneTimeIpcToken randomBytes).length = ipcTokenLen := by
    have hrandom : randomBytes.toList.length = 32 := Vector.length_toList
    simp only [generateOneTimeIpcToken, List.length_flatMap, List.length_cons, List.length_nil,
      List.map_const', List.sum_replicate_nat, hrandom]
    rfl
  have hdigits : ∀ byte ∈ generateOneTimeIpcToken randomBytes,
      (isAsciiHexdigit byte && !isAsciiUppercase byte) = true := by
    intro byte hbyte
    obtain ⟨random, -, hmem⟩ := List.mem_flatMap.mp hbyte
    have hrandom := random.toNat_lt
    rcases List.mem_pair.mp hmem with rfl | rfl
    · exact lowerHexDigit_valid _ (by omega)
    · exact lowerHexDigit_valid _ (by omega)
  rw [isValidPortableServiceIpcToken, hlength, beq_self_eq_true, Bool.true_and]
  exact List.all_eq_true.mpr hdigits

theorem foldl_difference (pairs : List (UInt8 × UInt8)) (diff : UInt8) :
    pairs.foldl (fun diff pair => diff ||| (pair.1 ^^^ pair.2)) diff = 0 ↔
      diff = 0 ∧ ∀ pair ∈ pairs, pair.1 = pair.2 := by
  induction pairs generalizing diff with
  | nil => simp
  | cons pair pairs ih =>
    rw [List.foldl_cons, ih, UInt8.or_eq_zero_iff, UInt8.xor_eq_zero_iff]
    simp [and_assoc]

theorem zip_all_eq_iff {xs ys : Bytes} (hlength : xs.length = ys.length) :
    (∀ pair ∈ xs.zip ys, pair.1 = pair.2) ↔ xs = ys := by
  induction xs generalizing ys with
  | nil => simpa using (List.length_eq_zero_iff.mp hlength.symm)
  | cons x xs ih =>
    cases ys with
    | nil => simp at hlength
    | cons y ys =>
      have hrest := ih (Nat.succ.inj hlength)
      simp only [List.zip_cons_cons, List.forall_mem_cons, hrest, List.cons.injEq]

/-- **The comparison accepts the token itself**, if it has the right length, and nothing
else. -/
theorem constantTimeIpcTokenEq_iff {expected candidate : Bytes} :
    constantTimeIpcTokenEq expected candidate = true ↔
      expected = candidate ∧ expected.length = ipcTokenLen := by
  unfold constantTimeIpcTokenEq
  split_ifs with hlength
  · simp only [false_iff]
    rintro ⟨rfl, heq⟩
    exact hlength.elim (absurd heq) (absurd heq)
  · push Not at hlength
    obtain ⟨hexpected, hcandidate⟩ := hlength
    rw [beq_iff_eq, foldl_difference, zip_all_eq_iff (hexpected.trans hcandidate.symm)]
    simp [hexpected]

structure RuntimeShmem where
  launch : Nat
  token : Option Bytes

structure ConsumedToken where
  token : Bytes
  shmemName : Option Bytes
  deriving DecidableEq

/-- The reads of `schedule_starting_timeout_reset`, and what follows them. -/
inductive WatchdogState where
  | startingToken
  | starting
  | running
  | reset
  deriving DecidableEq

/-- Where a call of `start_portable_service` is. -/
inductive LaunchState where
  | idle
  /-- `RUNNING` has been read. -/
  | gate (running : Bool)
  | clear (launchToken : Nat)
  | create (launchToken : Nat)
  /-- The memory is there and its lock is free; the token is not published yet. -/
  | publish (launchToken : Nat) (token name : Bytes)
  | run (launchToken : Nat) (name : Bytes)
  | clearFailed
  /-- It has failed and takes `STARTING` back. -/
  | failed
  | watch (launchToken : Nat) (state : WatchdogState)
  | returned
  deriving DecidableEq

inductive ServedState where
  | serving
  /-- `RUNNING` is set, `STARTING` is not yet reset. -/
  | pong
  | ended
  /-- `RUNNING` is reset, `STARTING` is not yet. -/
  | closing
  | closed
  deriving DecidableEq

inductive HandshakeState where
  | idle
  /-- The token was compared; the answer is being sent. -/
  | answer (consumed : Option ConsumedToken)
  | restore (consumed : ConsumedToken)
  /-- The token was given back; `STARTING` is not yet reset. -/
  | reset
  | rejected
  | accepted (token : Bytes) (state : ServedState)
  deriving DecidableEq

structure GeneratedToken where
  launch : Nat
  token : Bytes
  name : Bytes

inductive RunOutcome where
  | started
  | failed
  | noExecutable

structure PortableLauncher where
  pid : Nat
  running : Bool
  starting : Bool
  startingToken : Nat
  shmem : Option RuntimeShmem
  runtimeName : Option Bytes
  runtimeToken : Option Bytes
  launches : Nat → LaunchState
  handshakes : Nat → HandshakeState
  generated : List GeneratedToken

inductive LauncherEvent where
  /-- `start_portable_service` is called. -/
  | start (launch : Nat)
  /-- It looks at `STARTING`; whether a helper process is running. -/
  | gate (launch : Nat) (helperRunning : Bool)
  /-- It makes the memory, from what the generators give; or there is no display, or an
  error. -/
  | create (launch : Nat)
      (random : Option (UInt32 × Vector UInt8 ipcTokenRandomBytes))
  | run (launch : Nat) (outcome : RunOutcome)
  | launch (launch : Nat)
  /-- `drop_portable_service_shared_memory`. -/
  | dropShmem
  | present (handshake : Nat) (candidate : Bytes)
  | answered (handshake : Nat) (sent : Bool)
  | handshake (handshake : Nat)
  | pong (handshake : Nat)
  | ended (handshake : Nat)

def LauncherEvent.token? : LauncherEvent → Option Bytes
  | .create _ (some (_, randomBytes)) => some (generateOneTimeIpcToken randomBytes)
  | _ => none

def LaunchState.token? : LaunchState → Option Bytes
  | .publish _ token _ => some token
  | _ => none

def LaunchState.creating : LaunchState → Bool
  | .create _ => true
  | _ => false

def HandshakeState.restoring? : HandshakeState → Option ConsumedToken
  | .restore consumed => some consumed
  | _ => none

namespace PortableLauncher

def clearRuntimeShmemState (s : PortableLauncher) : PortableLauncher :=
  { s with shmem := none, runtimeName := none, runtimeToken := none }

def setRuntimeIpcToken (s : PortableLauncher) (token : Bytes) : PortableLauncher :=
  { s with runtimeToken := some token }

/-- The token in `IPC_RUNTIME_TOKEN` is the candidate. -/
def matchesToken (s : PortableLauncher) (candidate : Bytes) : Bool :=
  s.runtimeToken.any fun expected => constantTimeIpcTokenEq expected candidate

/-- The token leaves `IPC_RUNTIME_TOKEN` and the shared memory. -/
def takeToken (s : PortableLauncher) : PortableLauncher :=
  { s with
    runtimeToken := none
    shmem := s.shmem.map fun shmem => { shmem with token := none } }

def consumeRuntimeIpcTokenIfMatch (s : PortableLauncher) (candidate : Bytes) :
    (Bool × Option Bytes) × PortableLauncher :=
  if s.matchesToken candidate then
    ((true, s.runtimeName), s.takeToken)
  else ((false, none), s)

def writeIpcTokenToShmem (shmem : RuntimeShmem) (token : Bytes) : Option RuntimeShmem :=
  if isValidPortableServiceIpcToken token then some { shmem with token := some token } else none

def forgetToken (s : PortableLauncher) (token : Bytes) : PortableLauncher :=
  if s.runtimeToken = some token then { s with runtimeToken := none } else s

def restoreRuntimeIpcTokenAfterFailedHandshake (s : PortableLauncher) (token : Bytes)
    (expectedShmemName : Option Bytes) : PortableLauncher :=
  if s.runtimeToken.any (· ≠ token) then s
  else if s.runtimeName ≠ expectedShmemName then s.forgetToken token
  else
    match s.shmem.bind (writeIpcTokenToShmem · token) with
    | none => s.forgetToken token
    | some shmem => { s with shmem := some shmem, runtimeToken := some token }

def setLaunch (s : PortableLauncher) (launch : Nat) (state : LaunchState) : PortableLauncher :=
  { s with launches := Function.update s.launches launch state }

def setHandshake (s : PortableLauncher) (handshake : Nat) (state : HandshakeState) :
    PortableLauncher :=
  { s with handshakes := Function.update s.handshakes handshake state }

@[simp] theorem launches_setLaunch_self (s : PortableLauncher) (launch : Nat)
    (state : LaunchState) : (s.setLaunch launch state).launches launch = state :=
  Function.update_self ..

theorem launches_setLaunch_ne (s : PortableLauncher) {launch other : Nat} (state : LaunchState)
    (hne : other ≠ launch) : (s.setLaunch launch state).launches other = s.launches other :=
  Function.update_of_ne hne ..

@[simp] theorem handshakes_setHandshake_self (s : PortableLauncher) (handshake : Nat)
    (state : HandshakeState) : (s.setHandshake handshake state).handshakes handshake = state :=
  Function.update_self ..

theorem handshakes_setHandshake_ne (s : PortableLauncher) {handshake other : Nat}
    (state : HandshakeState) (hne : other ≠ handshake) :
    (s.setHandshake handshake state).handshakes other = s.handshakes other :=
  Function.update_of_ne hne ..

def create (s : PortableLauncher) (launch launchToken : Nat) :
    Option (UInt32 × Vector UInt8 ipcTokenRandomBytes) → PortableLauncher
  | none => s.setLaunch launch .failed
  | some (random, randomBytes) =>
    let name := nextPortableServiceShmemName s.pid random
    let token := generateOneTimeIpcToken randomBytes
    if !isValidPortableServiceShmemName name then s.setLaunch launch .failed
    else
      let made :=
        { s with
          runtimeName := some name
          generated := ⟨launch, token, name⟩ :: s.generated }
      match writeIpcTokenToShmem ⟨launch, none⟩ token with
      | none => { made with shmem := some ⟨launch, none⟩ }.setLaunch launch .clearFailed
      | some shmem =>
        { made with shmem := some shmem }.setLaunch launch (.publish launchToken token name)

/-- The gate of `start_portable_service`, with `STARTING` locked. -/
def gate (s : PortableLauncher) (launch : Nat) (running helperRunning : Bool) : PortableLauncher :=
  let stale := s.starting && !running && !helperRunning
  if (s.starting && !stale) || running then
    { s with starting := s.starting && !stale }.setLaunch launch .returned
  else
    { s with starting := true, startingToken := s.startingToken + 1 }.setLaunch launch
      (.clear (s.startingToken + 1))

def watchdogStep (s : PortableLauncher) (launch launchToken : Nat) :
    WatchdogState → PortableLauncher
  | .startingToken =>
    s.setLaunch launch
      (if s.startingToken = launchToken then .watch launchToken .starting else .returned)
  | .starting =>
    s.setLaunch launch (if s.starting then .watch launchToken .running else .returned)
  | .running =>
    s.setLaunch launch (if s.running then .returned else .watch launchToken .reset)
  | .reset => { s with starting := false }.setLaunch launch .returned

def launchStep (s : PortableLauncher) (launch : Nat) : PortableLauncher :=
  match s.launches launch with
  | .clear launchToken => s.clearRuntimeShmemState.setLaunch launch (.create launchToken)
  | .publish launchToken token name =>
    (s.setRuntimeIpcToken token).setLaunch launch (.run launchToken name)
  | .clearFailed => s.clearRuntimeShmemState.setLaunch launch .failed
  | .failed => { s with starting := false }.setLaunch launch .returned
  | .watch launchToken state => s.watchdogStep launch launchToken state
  | _ => s

def ran (s : PortableLauncher) (launch launchToken : Nat) : RunOutcome → PortableLauncher
  | .started => s.setLaunch launch (.watch launchToken .startingToken)
  | .failed => s.setLaunch launch .clearFailed
  | .noExecutable => s.setLaunch launch .failed

def present (s : PortableLauncher) (handshake : Nat) (candidate : Bytes) : PortableLauncher :=
  match s.consumeRuntimeIpcTokenIfMatch candidate with
  | ((true, name), s') => s'.setHandshake handshake (.answer (some ⟨candidate, name⟩))
  | ((false, _), s') => s'.setHandshake handshake (.answer none)

def answered (s : PortableLauncher) (handshake : Nat) (consumed : Option ConsumedToken)
    (sent : Bool) : PortableLauncher :=
  match consumed with
  | none => s.setHandshake handshake .rejected
  | some consumed =>
    if sent then s.setHandshake handshake (.accepted consumed.token .serving)
    else s.setHandshake handshake (.restore consumed)

def handshakeStep (s : PortableLauncher) (handshake : Nat) : PortableLauncher :=
  match s.handshakes handshake with
  | .restore consumed =>
    (s.restoreRuntimeIpcTokenAfterFailedHandshake consumed.token
      consumed.shmemName).setHandshake handshake .reset
  | .reset => { s with starting := false }.setHandshake handshake .rejected
  | .accepted token .pong =>
    { s with starting := false }.setHandshake handshake (.accepted token .serving)
  | .accepted token .ended =>
    { s with running := false }.setHandshake handshake (.accepted token .closing)
  | .accepted token .closing =>
    { s with starting := false }.setHandshake handshake (.accepted token .closed)
  | _ => s

def step (s : PortableLauncher) : LauncherEvent → PortableLauncher
  | .start launch =>
    if s.launches launch = .idle then s.setLaunch launch (.gate s.running) else s
  | .gate launch helperRunning =>
    match s.launches launch with
    | .gate running => s.gate launch running helperRunning
    | _ => s
  | .create launch random =>
    match s.launches launch with
    | .create launchToken => s.create launch launchToken random
    | _ => s
  | .run launch outcome =>
    match s.launches launch with
    | .run launchToken _ => s.ran launch launchToken outcome
    | _ => s
  | .launch launch => s.launchStep launch
  | .dropShmem => s.clearRuntimeShmemState
  | .present handshake candidate =>
    if s.handshakes handshake = .idle then s.present handshake candidate else s
  | .answered handshake sent =>
    match s.handshakes handshake with
    | .answer consumed => s.answered handshake consumed sent
    | _ => s
  | .handshake handshake => s.handshakeStep handshake
  | .pong handshake =>
    match s.handshakes handshake with
    | .accepted token .serving =>
      { s with running := true }.setHandshake handshake (.accepted token .pong)
    | _ => s
  | .ended handshake =>
    match s.handshakes handshake with
    | .accepted token .serving => s.setHandshake handshake (.accepted token .ended)
    | _ => s

def start (pid : Nat) : PortableLauncher where
  pid := pid
  running := false
  starting := false
  startingToken := 0
  shmem := none
  runtimeName := none
  runtimeToken := none
  launches := fun _ => .idle
  handshakes := fun _ => .idle
  generated := []

/-- A token that is drawn was not drawn before. -/
def Fresh (s : PortableLauncher) (e : LauncherEvent) : Prop :=
  ∀ token ∈ e.token?, ∀ made ∈ s.generated, made.token ≠ token

def Succeeded (s : PortableLauncher) (handshake : Nat) (token : Bytes) : Prop :=
  ∃ state, s.handshakes handshake = .accepted token state

/-- The memory and the launch of this token are the ones in use. -/
def Current (s : PortableLauncher) (made : GeneratedToken) : Prop :=
  s.runtimeName = some made.name ∧ s.shmem.map (·.launch) = some made.launch

/-- **Each token lets at most one handshake succeed.** -/
def SingleUse (s : PortableLauncher) : Prop :=
  ∀ handshake handshake' token, s.Succeeded handshake token → s.Succeeded handshake' token →
    handshake = handshake'

/-- **A token that is accepted** was generated for the shared memory there is. -/
def AcceptsCurrent (s : PortableLauncher) : LauncherEvent → Prop
  | .present handshake candidate =>
    s.handshakes handshake = .idle → (s.consumeRuntimeIpcTokenIfMatch candidate).1.1 = true →
      ∃ made ∈ s.generated, made.token = candidate ∧ s.Current made
  | _ => True

/-- **A timely step**: a launch makes its memory while no token is published, and publishes
its token while its own memory is still there; and a token that is given back belongs to the
memory of the name it was consumed with. -/
def Timely (s : PortableLauncher) : LauncherEvent → Prop
  | .create launch (some _) => (s.launches launch).creating = true → s.runtimeToken = none
  | .launch launch =>
    (s.launches launch).token?.isSome = true → s.shmem.map (·.launch) = some launch
  | .handshake handshake =>
    ∀ consumed ∈ (s.handshakes handshake).restoring?, s.runtimeName = consumed.shmemName →
      ∀ made ∈ s.generated, made.token = consumed.token → s.shmem.map (·.launch) = some made.launch
  | _ => True

instance (s : PortableLauncher) (made : GeneratedToken) : Decidable (s.Current made) :=
  inferInstanceAs (Decidable (_ ∧ _))

instance (s : PortableLauncher) (e : LauncherEvent) : Decidable (s.Fresh e) :=
  inferInstanceAs (Decidable (∀ token ∈ e.token?, ∀ made ∈ s.generated, made.token ≠ token))

instance (s : PortableLauncher) : ∀ e : LauncherEvent, Decidable (s.AcceptsCurrent e)
  | .present _ _ => inferInstanceAs (Decidable (_ → _ → ∃ made ∈ s.generated, _ ∧ s.Current made))
  | .start _ | .gate _ _ | .create _ _ | .run _ _ | .launch _ | .dropShmem | .answered _ _
  | .handshake _ | .pong _ | .ended _ => isTrue trivial

instance (s : PortableLauncher) : ∀ e : LauncherEvent, Decidable (s.Timely e)
  | .create _ (some _) => inferInstanceAs (Decidable (_ → _))
  | .launch _ => inferInstanceAs (Decidable (_ → _))
  | .handshake handshake =>
    inferInstanceAs (Decidable (∀ consumed ∈ (s.handshakes handshake).restoring?,
      _ → ∀ made ∈ s.generated, _ → _))
  | .start _ | .gate _ _ | .create _ none | .run _ _ | .dropShmem | .present _ _
  | .answered _ _ | .pong _ | .ended _ => isTrue trivial

end PortableLauncher

def HandshakeState.token? : HandshakeState → Option Bytes
  | .answer consumed => consumed.map (·.token)
  | .restore consumed => some consumed.token
  | .accepted token _ => some token
  | _ => none

def HandshakeState.consumed? : HandshakeState → Option ConsumedToken
  | .answer consumed => consumed
  | .restore consumed => some consumed
  | _ => none

def LaunchState.early : LaunchState → Bool
  | .idle | .gate _ | .clear _ | .create _ => true
  | _ => false

inductive TokenHolder where
  | launch (launch : Nat)
  | runtime
  | handshake (handshake : Nat)

namespace PortableLauncher

def tokenAt (s : PortableLauncher) : TokenHolder → Option Bytes
  | .launch launch => (s.launches launch).token?
  | .runtime => s.runtimeToken
  | .handshake handshake => (s.handshakes handshake).token?

/-- **Nothing is gained**: no token, no memory. -/
structure Quiet (s s' : PortableLauncher) : Prop where
  generated : s'.generated = s.generated
  publish : ∀ launch launchToken token name,
    s'.launches launch = .publish launchToken token name →
      s.launches launch = .publish launchToken token name
  early : ∀ launch, (s'.launches launch).early = true → (s.launches launch).early = true
  token : ∀ handshake token, (s'.handshakes handshake).token? = some token →
    (s.handshakes handshake).token? = some token
  consumed : ∀ handshake consumed, (s'.handshakes handshake).consumed? = some consumed →
    (s.handshakes handshake).consumed? = some consumed
  runtime : s'.runtimeToken = s.runtimeToken ∨ s'.runtimeToken = none
  memory : s'.shmem = none ∧ s'.runtimeToken = none ∨
    s'.shmem.map (·.launch) = s.shmem.map (·.launch) ∧ s'.runtimeName = s.runtimeName

theorem Quiet.refl (s : PortableLauncher) : Quiet s s :=
  ⟨rfl, fun _ _ _ _ h => h, fun _ h => h, fun _ _ h => h, fun _ _ h => h, .inl rfl, .inr ⟨rfl, rfl⟩⟩

theorem Quiet.trans {s s' s'' : PortableLauncher} (h : Quiet s s') (h' : Quiet s' s'') :
    Quiet s s'' where
  generated := h'.generated.trans h.generated
  publish := fun launch launchToken token name hp =>
    h.publish launch launchToken token name (h'.publish launch launchToken token name hp)
  early := fun launch he => h.early launch (h'.early launch he)
  token := fun handshake token ht => h.token handshake token (h'.token handshake token ht)
  consumed := fun handshake consumed hc =>
    h.consumed handshake consumed (h'.consumed handshake consumed hc)
  runtime := by
    rcases h'.runtime with heq | hnone
    · rw [heq]
      exact h.runtime
    · exact .inr hnone
  memory := by
    rcases h'.memory with hnone | ⟨hshmem, hname⟩
    · exact .inl hnone
    · rcases h.memory with ⟨hnone, htoken⟩ | ⟨hshmem', hname'⟩
      · refine .inl ⟨?_, ?_⟩
        · simpa [hnone] using hshmem
        · rcases h'.runtime with heq | hnone'
          · rw [heq, htoken]
          · exact hnone'
      · exact .inr ⟨hshmem.trans hshmem', hname.trans hname'⟩

theorem quiet_flags (s : PortableLauncher) (running starting : Bool) (startingToken : Nat) :
    Quiet s { s with running := running, starting := starting, startingToken := startingToken } :=
  ⟨rfl, fun _ _ _ _ h => h, fun _ h => h, fun _ _ h => h, fun _ _ h => h, .inl rfl, .inr ⟨rfl, rfl⟩⟩

theorem quiet_clear (s : PortableLauncher) : Quiet s s.clearRuntimeShmemState :=
  ⟨rfl, fun _ _ _ _ h => h, fun _ h => h, fun _ _ h => h, fun _ _ h => h, .inr rfl, .inl ⟨rfl, rfl⟩⟩

theorem quiet_forgetToken (s : PortableLauncher) (token : Bytes) :
    Quiet s (s.forgetToken token) := by
  unfold forgetToken
  split_ifs
  · exact ⟨rfl, fun _ _ _ _ h => h, fun _ h => h, fun _ _ h => h, fun _ _ h => h, .inr rfl,
      .inr ⟨rfl, rfl⟩⟩
  · exact .refl s

theorem quiet_setLaunch (s : PortableLauncher) {launch : Nat} {state : LaunchState}
    (htoken : state.token? = none)
    (hearly : state.early = true → (s.launches launch).early = true) :
    Quiet s (s.setLaunch launch state) where
  generated := rfl
  publish := fun other launchToken token name hp => by
    by_cases heq : other = launch
    · subst heq
      rw [launches_setLaunch_self] at hp
      simp [hp, LaunchState.token?] at htoken
    · rwa [launches_setLaunch_ne s state heq] at hp
  early := fun other he => by
    by_cases heq : other = launch
    · subst heq
      rw [launches_setLaunch_self] at he
      exact hearly he
    · rwa [launches_setLaunch_ne s state heq] at he
  token := fun _ _ h => h
  consumed := fun _ _ h => h
  runtime := .inl rfl
  memory := .inr ⟨rfl, rfl⟩

theorem quiet_setHandshake (s : PortableLauncher) {handshake : Nat} {state : HandshakeState}
    (htoken : ∀ token, state.token? = some token → (s.handshakes handshake).token? = some token)
    (hconsumed : ∀ consumed, state.consumed? = some consumed →
      (s.handshakes handshake).consumed? = some consumed) :
    Quiet s (s.setHandshake handshake state) where
  generated := rfl
  publish := fun _ _ _ _ h => h
  early := fun _ h => h
  token := fun other token ht => by
    by_cases heq : other = handshake
    · subst heq
      rw [handshakes_setHandshake_self] at ht
      exact htoken token ht
    · rwa [handshakes_setHandshake_ne s state heq] at ht
  consumed := fun other consumed hc => by
    by_cases heq : other = handshake
    · subst heq
      rw [handshakes_setHandshake_self] at hc
      exact hconsumed consumed hc
    · rwa [handshakes_setHandshake_ne s state heq] at hc
  runtime := .inl rfl
  memory := .inr ⟨rfl, rfl⟩

theorem Quiet.setLaunch {s s' : PortableLauncher} (h : Quiet s s') {launch : Nat}
    {state : LaunchState} (htoken : state.token? = none)
    (hearly : state.early = true → (s'.launches launch).early = true) :
    Quiet s (s'.setLaunch launch state) :=
  h.trans (quiet_setLaunch s' htoken hearly)

theorem Quiet.accepted {s s' : PortableLauncher} (h : Quiet s s') {handshake : Nat}
    {token : Bytes} {state : ServedState}
    (haccepted : s'.handshakes handshake = .accepted token state) (state' : ServedState) :
    Quiet s (s'.setHandshake handshake (.accepted token state')) := by
  refine h.trans (quiet_setHandshake s' (fun other hother => ?_) nofun)
  rw [haccepted]
  exact hother

theorem quiet_gate (s : PortableLauncher) {launch : Nat} {running : Bool}
    (hlaunch : s.launches launch = .gate running) (helperRunning : Bool) :
    Quiet s (s.gate launch running helperRunning) := by
  unfold gate
  dsimp only
  split_ifs
  · exact (quiet_flags s s.running _ s.startingToken).setLaunch rfl nofun
  · exact (quiet_flags s s.running true _).setLaunch rfl fun _ => by simp [hlaunch, LaunchState.early]

theorem quiet_watchdogStep (s : PortableLauncher) (launch launchToken : Nat)
    (state : WatchdogState) : Quiet s (s.watchdogStep launch launchToken state) := by
  cases state with
  | startingToken | starting | running =>
    refine quiet_setLaunch s ?_ ?_
    · split_ifs <;> rfl
    · split_ifs <;> exact nofun
  | reset => exact (quiet_flags s s.running false s.startingToken).setLaunch rfl nofun

theorem quiet_ran (s : PortableLauncher) (launch launchToken : Nat) (outcome : RunOutcome) :
    Quiet s (s.ran launch launchToken outcome) := by
  cases outcome with
  | _ => exact quiet_setLaunch s rfl nofun

variable {handshake : Nat}

theorem quiet_answered (s : PortableLauncher)
    {consumed : Option ConsumedToken} (hanswer : s.handshakes handshake = .answer consumed)
    (sent : Bool) : Quiet s (s.answered handshake consumed sent) := by
  unfold answered
  split
  · exact quiet_setHandshake s nofun nofun
  · rename_i consumed
    split_ifs
    · refine quiet_setHandshake s (fun token htoken => ?_) nofun
      rw [hanswer]
      exact htoken
    · refine quiet_setHandshake s (fun token htoken => ?_) (fun other hother => ?_)
      · rw [hanswer]
        exact htoken
      · rw [hanswer]
        exact hother

def created (s : PortableLauncher) (launch launchToken : Nat) (token name : Bytes) :
    PortableLauncher :=
  { s with
    runtimeName := some name
    generated := ⟨launch, token, name⟩ :: s.generated
    shmem := some ⟨launch, some token⟩ }.setLaunch launch (.publish launchToken token name)

def published (s : PortableLauncher) (launch launchToken : Nat) (token name : Bytes) :
    PortableLauncher :=
  (s.setRuntimeIpcToken token).setLaunch launch (.run launchToken name)

def consumed (s : PortableLauncher) (handshake : Nat) (candidate : Bytes) : PortableLauncher :=
  s.takeToken.setHandshake handshake (.answer (some ⟨candidate, s.runtimeName⟩))

/-- The token is back in `IPC_RUNTIME_TOKEN` and in the shared memory. -/
def putToken (s : PortableLauncher) (token : Bytes) : PortableLauncher :=
  { s with
    runtimeToken := some token
    shmem := s.shmem.map fun shmem => { shmem with token := some token } }

def restored (s : PortableLauncher) (handshake : Nat) (token : Bytes) : PortableLauncher :=
  (s.putToken token).setHandshake handshake .reset

variable {launch launchToken : Nat}

theorem create_cases (s : PortableLauncher)
    (random : UInt32) (randomBytes : Vector UInt8 ipcTokenRandomBytes) :
    Quiet s (s.create launch launchToken (some (random, randomBytes))) ∨
      s.create launch launchToken (some (random, randomBytes)) =
        s.created launch launchToken (generateOneTimeIpcToken randomBytes)
          (nextPortableServiceShmemName s.pid random) := by
  simp only [create]
  split_ifs
  · exact .inl (quiet_setLaunch s rfl nofun)
  · right
    simp only [writeIpcTokenToShmem, generateOneTimeIpcToken_valid, if_true]
    rfl

theorem present_cases (s : PortableLauncher) (handshake : Nat) (candidate : Bytes) :
    Quiet s (s.present handshake candidate) ∨
      s.matchesToken candidate = true ∧
        s.present handshake candidate = s.consumed handshake candidate := by
  unfold present consumeRuntimeIpcTokenIfMatch
  by_cases hmatch : s.matchesToken candidate = true
  · exact .inr ⟨hmatch, by rw [if_pos hmatch]; rfl⟩
  · left
    rw [if_neg hmatch]
    exact quiet_setHandshake s nofun nofun

theorem restore_cases (s : PortableLauncher) (token : Bytes) (expectedShmemName : Option Bytes) :
    Quiet s (s.restoreRuntimeIpcTokenAfterFailedHandshake token expectedShmemName) ∨
      s.runtimeName = expectedShmemName ∧
        s.restoreRuntimeIpcTokenAfterFailedHandshake token expectedShmemName =
          s.putToken token := by
  unfold restoreRuntimeIpcTokenAfterFailedHandshake
  split_ifs with hother hname
  · exact .inl (.refl s)
  · exact .inl (quiet_forgetToken s token)
  · push Not at hname
    split
    · exact .inl (quiet_forgetToken s token)
    · rename_i shmem hwrite
      obtain ⟨old, hold, hnew⟩ := Option.bind_eq_some_iff.mp hwrite
      unfold writeIpcTokenToShmem at hnew
      split_ifs at hnew
      refine .inr ⟨hname, ?_⟩
      rw [putToken, hold, ← Option.some.inj hnew]
      rfl

theorem step_cases (s : PortableLauncher) (e : LauncherEvent) :
    Quiet s (s.step e) ∨
    (∃ launch launchToken random randomBytes, e = .create launch (some (random, randomBytes)) ∧
      s.launches launch = .create launchToken ∧
      s.step e = s.created launch launchToken (generateOneTimeIpcToken randomBytes)
        (nextPortableServiceShmemName s.pid random)) ∨
    (∃ launch launchToken token name, e = .launch launch ∧
      s.launches launch = .publish launchToken token name ∧
      s.step e = s.published launch launchToken token name) ∨
    (∃ handshake candidate, e = .present handshake candidate ∧
      s.handshakes handshake = .idle ∧ s.matchesToken candidate = true ∧
      s.step e = s.consumed handshake candidate) ∨
    ∃ handshake consumed, e = .handshake handshake ∧
      s.handshakes handshake = .restore consumed ∧ s.runtimeName = consumed.shmemName ∧
      s.step e = s.restored handshake consumed.token := by
  cases e with
  | start launch =>
    left
    simp only [step]
    split_ifs with hidle
    · exact quiet_setLaunch s rfl fun _ => by rw [hidle]; rfl
    · exact .refl s
  | gate launch helperRunning =>
    left
    simp only [step]
    split
    · rename_i running hlaunch
      exact quiet_gate s hlaunch helperRunning
    · exact .refl s
  | create launch random =>
    simp only [step]
    split
    · rename_i launchToken hlaunch
      cases random with
      | none => exact .inl (quiet_setLaunch s rfl nofun)
      | some given =>
        obtain ⟨random, randomBytes⟩ := given
        rcases create_cases s random randomBytes with hquiet | hcreated
        · exact .inl hquiet
        · exact .inr (.inl ⟨launch, launchToken, random, randomBytes, rfl, hlaunch, hcreated⟩)
    · exact .inl (.refl s)
  | run launch outcome =>
    left
    simp only [step]
    split
    · exact quiet_ran s ..
    · exact .refl s
  | launch launch =>
    simp only [step, launchStep]
    split
    · rename_i launchToken hlaunch
      exact .inl ((quiet_clear s).setLaunch rfl fun _ => by
        simp [clearRuntimeShmemState, hlaunch, LaunchState.early])
    · rename_i launchToken token name hlaunch
      exact .inr (.inr (.inl ⟨launch, launchToken, token, name, rfl, hlaunch, rfl⟩))
    · exact .inl ((quiet_clear s).setLaunch rfl nofun)
    · exact .inl ((quiet_flags s s.running false s.startingToken).setLaunch rfl nofun)
    · exact .inl (quiet_watchdogStep s ..)
    · exact .inl (.refl s)
  | dropShmem => exact .inl (quiet_clear s)
  | present handshake candidate =>
    simp only [step]
    split_ifs with hidle
    · rcases present_cases s handshake candidate with hquiet | ⟨hmatch, hconsumed⟩
      · exact .inl hquiet
      · exact .inr (.inr (.inr (.inl ⟨handshake, candidate, rfl, hidle, hmatch, hconsumed⟩)))
    · exact .inl (.refl s)
  | answered handshake sent =>
    left
    simp only [step]
    split
    · rename_i consumed hanswer
      exact quiet_answered s hanswer sent
    · exact .refl s
  | handshake handshake =>
    simp only [step, handshakeStep]
    split
    · rename_i consumed hrestore
      rcases restore_cases s consumed.token consumed.shmemName with hquiet | ⟨hname, heq⟩
      · exact .inl (hquiet.trans (quiet_setHandshake _ nofun nofun))
      · refine .inr (.inr (.inr (.inr ⟨handshake, consumed, rfl, hrestore, hname, ?_⟩)))
        rw [heq]
        rfl
    · left
      exact (quiet_flags s s.running false s.startingToken).trans (quiet_setHandshake _ nofun nofun)
    · rename_i token haccepted
      exact .inl ((quiet_flags s s.running false s.startingToken).accepted haccepted _)
    · rename_i token haccepted
      exact .inl ((quiet_flags s false s.starting s.startingToken).accepted haccepted _)
    · rename_i token haccepted
      exact .inl ((quiet_flags s s.running false s.startingToken).accepted haccepted _)
    · exact .inl (.refl s)
  | pong handshake =>
    left
    simp only [step]
    split
    · rename_i token haccepted
      exact (quiet_flags s true s.starting s.startingToken).accepted haccepted _
    · exact .refl s
  | ended handshake =>
    left
    simp only [step]
    split
    · rename_i token haccepted
      exact (Quiet.refl s).accepted haccepted _
    · exact .refl s

/-- **A token is in one place**, and was generated. -/
structure Linear (s : PortableLauncher) : Prop where
  generated : ∀ a token, s.tokenAt a = some token → ∃ made ∈ s.generated, made.token = token
  unique : ∀ a b token, s.tokenAt a = some token → s.tokenAt b = some token → a = b

theorem Quiet.tokenAt {s s' : PortableLauncher} (h : Quiet s s') {a : TokenHolder}
    {token : Bytes} (ha : s'.tokenAt a = some token) : s.tokenAt a = some token := by
  cases a with
  | launch launch =>
    cases hlaunch : s'.launches launch with
    | publish launchToken made name =>
      have hbefore := h.publish launch launchToken made name hlaunch
      rw [PortableLauncher.tokenAt, hlaunch] at ha
      rw [PortableLauncher.tokenAt, hbefore]
      exact ha
    | _ =>
      rw [PortableLauncher.tokenAt, hlaunch] at ha
      simp [LaunchState.token?] at ha
  | runtime =>
    rcases h.runtime with heq | hnone
    · exact heq.symm.trans ha
    · exact absurd (hnone.symm.trans ha) nofun
  | handshake handshake => exact h.token handshake token ha

theorem Linear.quiet {s s' : PortableLauncher} (h : s.Linear) (hquiet : Quiet s s') :
    s'.Linear where
  generated := fun a token ha => by
    rw [hquiet.generated]
    exact h.generated a token (hquiet.tokenAt ha)
  unique := fun a b token ha hb => h.unique a b token (hquiet.tokenAt ha) (hquiet.tokenAt hb)

theorem Linear.moved {s s' : PortableLauncher} (h : s.Linear) {x y : TokenHolder}
    (hgenerated : s'.generated = s.generated) (hleft : s'.tokenAt x = none)
    (harrived : ∀ token, s'.tokenAt y = some token → s.tokenAt x = some token)
    (hother : ∀ a, a ≠ x → a ≠ y → s'.tokenAt a = s.tokenAt a) : s'.Linear := by
  have hstays : ∀ a token, a ≠ y → s'.tokenAt a = some token →
      a ≠ x ∧ s.tokenAt a = some token := by
    intro a token hy ha
    have hx : a ≠ x := by
      rintro rfl
      simp [hleft] at ha
    exact ⟨hx, by rw [← hother a hx hy]; exact ha⟩
  have hmixed : ∀ a token, a ≠ y → s'.tokenAt a = some token → s'.tokenAt y ≠ some token := by
    intro a token hy ha harrive
    obtain ⟨hx, hbefore⟩ := hstays a token hy ha
    exact hx (h.unique a x token hbefore (harrived token harrive))
  refine ⟨fun a token ha => ?_, fun a b token ha hb => ?_⟩
  · rw [hgenerated]
    by_cases hy : a = y
    · subst hy
      exact h.generated x token (harrived token ha)
    · exact h.generated a token (hstays a token hy ha).2
  · by_cases hay : a = y
    · subst hay
      by_contra hne
      exact hmixed b token (Ne.symm hne) hb ha
    · by_cases hby : b = y
      · subst hby
        exact absurd hb (hmixed a token hay ha)
      · exact h.unique a b token (hstays a token hay ha).2 (hstays b token hby hb).2

variable {s : PortableLauncher}

theorem Linear.created (h : s.Linear) (launch launchToken : Nat)
    {token : Bytes} (hfresh : ∀ made ∈ s.generated, made.token ≠ token) (name : Bytes) :
    (s.created launch launchToken token name).Linear := by
  have hother : ∀ a, a ≠ .launch launch →
      (s.created launch launchToken token name).tokenAt a = s.tokenAt a := by
    intro a ha
    cases a with
    | launch other =>
      have hne : other ≠ launch := fun heq => ha (by rw [heq])
      simp only [PortableLauncher.tokenAt, PortableLauncher.created, launches_setLaunch_ne _ _ hne]
    | _ => rfl
  have hself : (s.created launch launchToken token name).tokenAt (.launch launch) = some token := by
    simp only [PortableLauncher.tokenAt, PortableLauncher.created, launches_setLaunch_self]
    rfl
  have hnew : ∀ a token', a ≠ .launch launch →
      (s.created launch launchToken token name).tokenAt a = some token' → token' ≠ token := by
    rintro a token' hne ha rfl
    rw [hother a hne] at ha
    obtain ⟨made, hmade, htoken⟩ := h.generated a token' ha
    exact hfresh made hmade htoken
  refine ⟨fun a token' ha => ?_, fun a b token' ha hb => ?_⟩
  · by_cases hlaunch : a = .launch launch
    · subst hlaunch
      rw [hself] at ha
      exact ⟨_, List.mem_cons_self, Option.some.inj ha⟩
    · rw [hother a hlaunch] at ha
      obtain ⟨made, hmade, htoken⟩ := h.generated a token' ha
      exact ⟨made, List.mem_cons_of_mem _ hmade, htoken⟩
  · by_cases hlaunch : a = .launch launch
    · subst hlaunch
      by_contra hne
      exact hnew b token' (Ne.symm hne) hb (Option.some.inj (hself.symm.trans ha)).symm
    · by_cases hlaunch' : b = .launch launch
      · subst hlaunch'
        exact absurd (Option.some.inj (hself.symm.trans hb)).symm (hnew a token' hlaunch ha)
      · rw [hother a hlaunch] at ha
        rw [hother b hlaunch'] at hb
        exact h.unique a b token' ha hb

theorem Linear.published (h : s.Linear)
    {token name : Bytes} (hlaunch : s.launches launch = .publish launchToken token name) :
    (s.published launch launchToken token name).Linear := by
  refine h.moved (x := .launch launch) (y := .runtime) rfl ?_ (fun token' ha => ?_)
    (fun a hx hy => ?_)
  · simp only [PortableLauncher.tokenAt, PortableLauncher.published, launches_setLaunch_self]
    rfl
  · rw [PortableLauncher.tokenAt, hlaunch]
    exact ha
  · cases a with
    | launch other =>
      have hne : other ≠ launch := fun heq => hx (by rw [heq])
      simp only [PortableLauncher.tokenAt, PortableLauncher.published,
        launches_setLaunch_ne _ _ hne]
      rfl
    | runtime => exact absurd rfl hy
    | handshake handshake => rfl

variable {candidate : Bytes}

theorem runtimeToken_of_matches
    (hmatch : s.matchesToken candidate = true) : s.runtimeToken = some candidate := by
  obtain ⟨expected, hexpected, heq⟩ := (Option.any_eq_true ..).mp hmatch
  rw [hexpected, (constantTimeIpcTokenEq_iff.mp heq).1]

theorem Linear.consumed (h : s.Linear) (handshake : Nat)
    (hmatch : s.matchesToken candidate = true) : (s.consumed handshake candidate).Linear := by
  refine h.moved (x := .runtime) (y := .handshake handshake) rfl rfl (fun token ha => ?_)
    (fun a hx hy => ?_)
  · simp only [PortableLauncher.tokenAt, PortableLauncher.consumed,
      handshakes_setHandshake_self] at ha
    exact (runtimeToken_of_matches hmatch).trans ha
  · cases a with
    | launch launch => rfl
    | runtime => exact absurd rfl hx
    | handshake other =>
      have hne : other ≠ handshake := fun heq => hy (by rw [heq])
      simp only [PortableLauncher.tokenAt, PortableLauncher.consumed,
        handshakes_setHandshake_ne _ _ hne]
      rfl

theorem Linear.restored (h : s.Linear)
    {consumed : ConsumedToken} (hrestore : s.handshakes handshake = .restore consumed) :
    (s.restored handshake consumed.token).Linear := by
  refine h.moved (x := .handshake handshake) (y := .runtime) rfl ?_ (fun token ha => ?_)
    (fun a hx hy => ?_)
  · simp only [PortableLauncher.tokenAt, PortableLauncher.restored,
      handshakes_setHandshake_self]
    rfl
  · rw [PortableLauncher.tokenAt, hrestore]
    exact ha
  · cases a with
    | launch launch => rfl
    | runtime => exact absurd rfl hy
    | handshake other =>
      have hne : other ≠ handshake := fun heq => hx (by rw [heq])
      simp only [PortableLauncher.tokenAt, PortableLauncher.restored,
        handshakes_setHandshake_ne _ _ hne]
      rfl

theorem Linear.step (h : s.Linear) {e : LauncherEvent}
    (hfresh : Fresh s e) : (PortableLauncher.step s e).Linear := by
  rcases step_cases s e with hquiet | ⟨launch, launchToken, random, randomBytes, rfl, -, hstep⟩ |
    ⟨launch, launchToken, token, name, -, hlaunch, hstep⟩ |
    ⟨handshake, candidate, -, -, hmatch, hstep⟩ | ⟨handshake, consumed, -, hrestore, -, hstep⟩
  · exact h.quiet hquiet
  · rw [hstep]
    exact h.created launch launchToken (hfresh _ rfl) _
  · rw [hstep]
    exact h.published hlaunch
  · rw [hstep]
    exact h.consumed handshake hmatch
  · rw [hstep]
    exact h.restored hrestore

theorem Linear.singleUse (h : s.Linear) : s.SingleUse := by
  rintro handshake handshake' token ⟨state, haccepted⟩ ⟨state', haccepted'⟩
  have heq := h.unique (.handshake handshake) (.handshake handshake') token
    (by rw [PortableLauncher.tokenAt, haccepted]; rfl)
    (by rw [PortableLauncher.tokenAt, haccepted']; rfl)
  exact TokenHolder.handshake.inj heq

/-- **What a token and a memory were made for is known**, and the runtime token was made for
the memory there is. -/
structure Tied (s : PortableLauncher) : Prop where
  publish : ∀ launch launchToken token name,
    s.launches launch = .publish launchToken token name → ⟨launch, token, name⟩ ∈ s.generated
  early : ∀ launch, (s.launches launch).early = true → ∀ made ∈ s.generated, made.launch ≠ launch
  named : ∀ made ∈ s.generated, s.shmem.map (·.launch) = some made.launch →
    s.runtimeName = some made.name
  consumed : ∀ handshake consumed, (s.handshakes handshake).consumed? = some consumed →
    ∃ made ∈ s.generated, made.token = consumed.token ∧ consumed.shmemName = some made.name
  runtime : ∀ token, s.runtimeToken = some token →
    ∃ made ∈ s.generated, made.token = token ∧ s.Current made

theorem Tied.quiet {s s' : PortableLauncher} (h : s.Tied) (hquiet : Quiet s s') : s'.Tied where
  publish := fun launch launchToken token name hlaunch => by
    rw [hquiet.generated]
    exact h.publish launch launchToken token name
      (hquiet.publish launch launchToken token name hlaunch)
  early := fun launch hearly => by
    rw [hquiet.generated]
    exact h.early launch (hquiet.early launch hearly)
  named := by
    rw [hquiet.generated]
    rcases hquiet.memory with ⟨hnone, -⟩ | ⟨hshmem, hname⟩
    · simp [hnone]
    · rw [hshmem, hname]
      exact h.named
  consumed := fun handshake consumed hconsumed => by
    rw [hquiet.generated]
    exact h.consumed handshake consumed (hquiet.consumed handshake consumed hconsumed)
  runtime := fun token htoken => by
    rw [hquiet.generated]
    rcases hquiet.runtime with heq | hnone
    · rcases hquiet.memory with ⟨-, hnone⟩ | ⟨hshmem, hname⟩
      · simp [hnone] at htoken
      · obtain ⟨made, hmade, hmadeToken, hcurrent⟩ := h.runtime token (heq.symm.trans htoken)
        refine ⟨made, hmade, hmadeToken, ?_⟩
        rw [Current, hname, hshmem]
        exact hcurrent
    · simp [hnone] at htoken

theorem Tied.created (h : s.Tied)
    (hlaunch : s.launches launch = .create launchToken) (token name : Bytes)
    (htoken : s.runtimeToken = none) : (s.created launch launchToken token name).Tied where
  publish := fun other launchToken' token' name' hother => by
    by_cases heq : other = launch
    · subst heq
      rw [PortableLauncher.created, launches_setLaunch_self] at hother
      obtain ⟨-, rfl, rfl⟩ := LaunchState.publish.inj hother
      exact List.mem_cons_self
    · rw [PortableLauncher.created, launches_setLaunch_ne _ _ heq] at hother
      exact List.mem_cons_of_mem _ (h.publish other launchToken' token' name' hother)
  early := fun other hearly made hmade => by
    by_cases heq : other = launch
    · subst heq
      rw [PortableLauncher.created, launches_setLaunch_self] at hearly
      exact absurd hearly nofun
    · rw [PortableLauncher.created, launches_setLaunch_ne _ _ heq] at hearly
      rcases List.mem_cons.mp hmade with rfl | hbefore
      · exact Ne.symm heq
      · exact h.early other hearly made hbefore
  named := fun made hmade hshmem => by
    rcases List.mem_cons.mp hmade with rfl | hbefore
    · rfl
    · have hsame : made.launch = launch := (Option.some.inj hshmem).symm
      have hnot := h.early launch (by rw [hlaunch]; rfl) made hbefore
      exact absurd hsame hnot
  consumed := fun handshake consumed hconsumed => by
    obtain ⟨made, hmade, hrest⟩ := h.consumed handshake consumed hconsumed
    exact ⟨made, List.mem_cons_of_mem _ hmade, hrest⟩
  runtime := fun token' htoken' => absurd (htoken.symm.trans htoken') nofun

theorem Tied.published (h : s.Tied)
    {token name : Bytes} (hlaunch : s.launches launch = .publish launchToken token name)
    (hshmem : s.shmem.map (·.launch) = some launch) :
    (s.published launch launchToken token name).Tied := by
  have hmade := h.publish launch launchToken token name hlaunch
  have hquiet : Quiet s (s.setLaunch launch (.run launchToken name)) := quiet_setLaunch s rfl nofun
  have hrest := h.quiet hquiet
  refine ⟨hrest.publish, hrest.early, hrest.named, hrest.consumed, fun token' htoken => ?_⟩
  obtain rfl : token = token' := Option.some.inj htoken
  exact ⟨_, hmade, rfl, h.named _ hmade hshmem, hshmem⟩

theorem Tied.taken (h : s.Tied) (handshake : Nat) (hmatch : s.matchesToken candidate = true) :
    (s.consumed handshake candidate).Tied := by
  have hshmem : (s.consumed handshake candidate).shmem.map (·.launch) = s.shmem.map (·.launch) := by
    simp only [PortableLauncher.consumed, takeToken, setHandshake, Option.map_map]
    rfl
  refine ⟨h.publish, h.early, ?_, fun other consumed hconsumed => ?_, nofun⟩
  · rw [hshmem]
    exact h.named
  · by_cases heq : other = handshake
    · subst heq
      rw [PortableLauncher.consumed, handshakes_setHandshake_self] at hconsumed
      cases hconsumed
      obtain ⟨made, hmade, htoken, hname, -⟩ := h.runtime candidate (runtimeToken_of_matches hmatch)
      exact ⟨made, hmade, htoken, hname⟩
    · rw [PortableLauncher.consumed, handshakes_setHandshake_ne _ _ heq] at hconsumed
      exact h.consumed other consumed hconsumed

theorem Tied.restored (h : s.Tied)
    {consumed : ConsumedToken} (hrestore : s.handshakes handshake = .restore consumed)
    (hname : s.runtimeName = consumed.shmemName)
    (hsame : ∀ made ∈ s.generated, made.token = consumed.token →
      s.shmem.map (·.launch) = some made.launch) :
    (s.restored handshake consumed.token).Tied := by
  have hshmem : (s.restored handshake consumed.token).shmem.map (·.launch) =
      s.shmem.map (·.launch) := by
    simp only [PortableLauncher.restored, putToken, setHandshake, Option.map_map]
    rfl
  have hrest := h.quiet (@quiet_setHandshake s handshake .reset nofun nofun)
  refine ⟨h.publish, h.early, ?_, hrest.consumed, fun token htoken => ?_⟩
  · rw [hshmem]
    exact h.named
  · cases htoken
    obtain ⟨made, hmade, hmadeToken, hmadeName⟩ :=
      h.consumed handshake consumed (by rw [hrestore]; rfl)
    refine ⟨made, hmade, hmadeToken, hname.trans hmadeName, ?_⟩
    rw [hshmem]
    exact hsame made hmade hmadeToken

theorem Tied.step (h : s.Tied) {e : LauncherEvent} (ht : Timely s e) :
    (PortableLauncher.step s e).Tied := by
  rcases step_cases s e with hquiet |
    ⟨launch, launchToken, random, randomBytes, rfl, hlaunch, hstep⟩ |
    ⟨launch, launchToken, token, name, rfl, hlaunch, hstep⟩ |
    ⟨handshake, candidate, -, -, hmatch, hstep⟩ |
    ⟨handshake, consumed, rfl, hrestore, hname, hstep⟩
  · exact h.quiet hquiet
  · rw [hstep]
    exact h.created hlaunch _ _ (ht (by rw [hlaunch]; rfl))
  · rw [hstep]
    exact h.published hlaunch (ht (by rw [hlaunch]; rfl))
  · rw [hstep]
    exact h.taken handshake hmatch
  · rw [hstep]
    exact h.restored hrestore hname (ht consumed (by rw [hrestore]; rfl) hname)

theorem Tied.acceptsCurrent (h : s.Tied) (e : LauncherEvent) : AcceptsCurrent s e := by
  cases e with
  | present handshake candidate =>
    intro _ haccepts
    unfold consumeRuntimeIpcTokenIfMatch at haccepts
    split_ifs at haccepts with hmatch
    exact h.runtime candidate (runtimeToken_of_matches hmatch)
  | _ => trivial

theorem linear_start (pid : Nat) : (start pid).Linear := by
  have hnone : ∀ a, (start pid).tokenAt a = none := by
    intro a
    cases a <;> rfl
  refine ⟨fun a token ha => ?_, fun a b token ha => ?_⟩
  · rw [hnone] at ha
    exact absurd ha nofun
  · rw [hnone] at ha
    exact absurd ha nofun

theorem tied_start (pid : Nat) : (start pid).Tied :=
  ⟨nofun, nofun, nofun, nofun, nofun⟩

open Run in
/-- **Tokens are used once**, in every run whose tokens are distinct; and if all its steps are
timely, a token that is accepted was generated for the shared memory there is. -/
theorem tokens_single_use_and_bound (pid : Nat) (events : List LauncherEvent)
    (hfresh : Along step Fresh (start pid) events) :
    Always step SingleUse (start pid) events ∧
      (Along step Timely (start pid) events → Along step AcceptsCurrent (start pid) events) := by
  constructor
  · intro before hbefore
    have hlinear : Always step Linear (start pid) events :=
      always_of_along (fun s e hs hf => hs.step hf) (linear_start pid) hfresh
    exact (hlinear before hbefore).singleUse
  · intro htimely
    exact Along.of_invariant (fun s e hs ht => Tied.step hs ht)
      (fun s e hs _ => hs.acceptsCurrent e) (tied_start pid) htimely

def drawn (n : UInt8) : UInt32 × Vector UInt8 ipcTokenRandomBytes :=
  (n.toUInt32, Vector.replicate _ n)

def drawnToken (n : UInt8) : Bytes := generateOneTimeIpcToken (drawn n).2

def launched (launch : Nat) (n : UInt8) : List LauncherEvent :=
  [.start launch, .gate launch false, .launch launch, .create launch (some (drawn n)),
    .launch launch, .run launch .started]

def retried (n : UInt8) : List LauncherEvent :=
  [.present 0 (drawnToken n), .answered 0 false, .handshake 0, .handshake 0,
    .present 1 (drawnToken n), .answered 1 true]

open Run in
/-- A launch whose helper needs two handshakes, and after it another launch. -/
theorem retried_token_bound :
    let events := launched 0 7 ++ retried 7 ++ [.pong 1, .handshake 1, .ended 1, .handshake 1,
      .handshake 1] ++ launched 1 8 ++ [.present 2 (drawnToken 8)]
    Always step SingleUse (start 1) events ∧ Along step AcceptsCurrent (start 1) events := by
  intro events
  have h := tokens_single_use_and_bound 1 events (by decide +kernel)
  exact ⟨h.1, h.2 (by decide +kernel)⟩

open Run in
/-- **A token is accepted for another launch's memory.**  The first launch has cleared what
there was; no helper is running yet, so the second one takes the state for stale, starts a
helper, and only then the first makes its memory. -/
theorem token_of_another_memory_accepted :
    let events := [.start 0, .gate 0 false, .launch 0] ++ launched 1 8 ++
      [.create 0 (some (drawn 7)), .present 0 (drawnToken 8)]
    Along step Fresh (start 1) events ∧ ¬Along step AcceptsCurrent (start 1) events := by
  decide +kernel

end PortableLauncher
end RustDesk
