import RustDesk.Lib.Run
import RustDesk.Lib.Slots
import RustDesk.Lib.Text

/-!
# Login throttling

Failed logins are counted in `LOGIN_FAILURES`, two maps shared by all connections:
one for passwords, one for second-factor codes.  A failure is counted under the
peer's address and, for IPv6, under its /64, /56 and /48 networks.

An attempt is a check, a validation and an update, and these are separate critical
sections: a check looks the keys up one after the other, each under its own lock,
and the update re-reads them.  `World` is the maps with `n` connections that take
these steps in any order.

The counters lose nothing (`Exact`), and so at most `limit + n` failed validations
pass between two removals of a key (`Bounded`); a key over its limit with no
attempt in flight stays closed (`closed_step`).
-/

namespace RustDesk

open List

/-- The keys of `LOGIN_FAILURES`: the text of an address, or the text of a network,
which an address masked to 64, 56 or 48 bits and its length suffix determine. -/
inductive FailureKey where
  | ip (text : String)
  | p64 (net : BitVec 128)
  | p56 (net : BitVec 128)
  | p48 (net : BitVec 128)
  deriving DecidableEq

/-- The value of `LOGIN_FAILURES`: the minute of the last failure, the failures in
that minute, and all failures. -/
structure FailureEntry where
  minute : Int
  inMinute : Nat
  total : Nat

def FailureEntry.zero : FailureEntry := ⟨0, 0, 0⟩

/-- One of the two maps. -/
abbrev FailureMap := FailureKey → Option FailureEntry

/-- `m.get(key).copied().unwrap_or((0, 0, 0))`. -/
def FailureMap.entry (m : FailureMap) (key : FailureKey) : FailureEntry :=
  (m key).getD .zero

inductive FailureScope where
  | default
  | terminalOsLogin

inductive AlarmAuditType where
  | ipWhitelist
  | exceedThirtyAttempts
  | sixAttemptsWithinOneMinute
  | exceedIPv6PrefixAttempts
  | terminalOsLoginBackoff
  | terminalOsLoginConcurrency
  | sessionScopeViolation

structure Refusal where
  loginError : String
  audit : AlarmAuditType

structure OsCredentialFailureState where
  totalFailures : Int
  backoffUntilMs : Option Int
  lastFailureMs : Option Int

namespace OsCredentialFailureState

def totalIdleResetMs : Int := 120 * 60 * 1000
def backoffBaseSeconds : Int := 15
def backoffMaxSeconds : Int := 30 * 60

/-- `os_credential_login_backoff_seconds`. -/
def backoffSeconds (totalFailures : Int) : Int :=
  if totalFailures ≤ 2 then 0
  else
    let exp := (min (totalFailures - 3) 7).toNat
    min (backoffBaseSeconds * 2 ^ exp) backoffMaxSeconds

def normalizeBackoff (st : OsCredentialFailureState) (nowMs : Int) : OsCredentialFailureState :=
  match st.backoffUntilMs with
  | some untilMs => if untilMs ≤ nowMs then { st with backoffUntilMs := none } else st
  | none => st

def resetTotalsOnIdle (st : OsCredentialFailureState) (nowMs : Int) : OsCredentialFailureState :=
  match st.lastFailureMs with
  | some lastMs => if nowMs - lastMs ≥ totalIdleResetMs then ⟨0, none, none⟩ else st
  | none => st

/-- `evaluate_os_credential_policy` for the scope it applies to: the refusal, if
any, and the state afterwards. -/
def evaluatePolicy (st : OsCredentialFailureState) (nowMs : Int) :
    Option Refusal × OsCredentialFailureState :=
  let st := (st.resetTotalsOnIdle nowMs).normalizeBackoff nowMs
  match st.backoffUntilMs with
  | some untilMs =>
    let remainingMs := max (untilMs - nowMs) 0
    let remainingSeconds := max ((remainingMs + 999) / 1000) 1
    let secondsLabel := if remainingSeconds = 1 then "second" else "seconds"
    (some ⟨s!"Please try again in {remainingSeconds} {secondsLabel}.", .terminalOsLoginBackoff⟩, st)
  | none => (none, st)

/-- `record_os_credential_failure` for the scope it applies to. -/
def recordFailure (st : OsCredentialFailureState) (nowMs : Int) : OsCredentialFailureState :=
  let st := (st.resetTotalsOnIdle nowMs).normalizeBackoff nowMs
  let total := min (st.totalFailures + 1) (2 ^ 31 - 1)
  let seconds := backoffSeconds total
  { totalFailures := total
    lastFailureMs := some nowMs
    backoffUntilMs := if seconds > 0 then some (nowMs + seconds * 1000) else st.backoffUntilMs }

end OsCredentialFailureState

structure LoginFailures where
  maps : Fin 2 → FailureMap
  os : OsCredentialFailureState

def LoginFailures.empty : LoginFailures := ⟨fun _ _ => none, ⟨0, none, none⟩⟩

def maskU128 (addr : BitVec 128) (len : Nat) : BitVec 128 :=
  addr &&& (if len = 0 ∨ len > 128 then 0 else BitVec.allOnes 128 <<< (128 - len))

def trim (s : String) : String := String.ofList (Text.trim s.toList)

def ipOnly (ip : String) : String := trim (String.ofList (ip.toList.takeWhile (· != '%')))

section Tables

/-! `Ipv6Addr::from_str` is a parameter: nothing depends on how text is parsed. -/

variable (fromStr : String → Option (BitVec 128))

def getIpv6Prefixes (ip : String) : Option (FailureKey × FailureKey × FailureKey) := do
  let addr ← fromStr (ipOnly ip)
  return (.p64 (maskU128 addr 64), .p56 (maskU128 addr 56), .p48 (maskU128 addr 48))

def failureKeys (ip : String) : List FailureKey :=
  match getIpv6Prefixes fromStr ip with
  | some (p64, p56, p48) => [p64, p56, p48, .ip ip]
  | none => [.ip ip]

def bumpFailureEntry (cur : FailureEntry) (time : Int) : FailureEntry :=
  if cur.minute = time then
    { cur with inMinute := cur.inMinute + 1, total := cur.total + 1 }
  else { minute := time, inMinute := 1, total := cur.total + 1 }

def FailureMap.bump (time : Int) (m : FailureMap) (key : FailureKey) : FailureMap :=
  Function.update m key (some (bumpFailureEntry (m.entry key) time))

def FailureMap.remove (m : FailureMap) (key : FailureKey) : FailureMap :=
  Function.update m key none

def LoginFailures.modifyMap (t : LoginFailures) (i : Fin 2) (f : FailureMap → FailureMap) :
    LoginFailures :=
  { t with maps := Function.update t.maps i (f (t.maps i)) }

def updateFailureWithScope (t : LoginFailures) (ip : String) (nowMs : Int)
    (failure : FailureEntry) (time : Int) (remove : Bool) (i : Fin 2)
    (scope : FailureScope) : LoginFailures :=
  match scope with
  | .terminalOsLogin => if remove then t else { t with os := t.os.recordFailure nowMs }
  | .default =>
    if remove then
      if failure.minute ≠ 0 then
        t.modifyMap i fun m => (failureKeys fromStr ip).foldl FailureMap.remove m
      else t
    else t.modifyMap i fun m =>
      (failureKeys fromStr ip).foldl (FailureMap.bump time) m

def checkFailureIpv6Prefix (m : FailureMap) (key : FailureKey) (num thresh : Nat) :
    Except Refusal FailureEntry :=
  let failure := m.entry key
  if failure.total > thresh then
    .error ⟨s!"Too many wrong attempts for IPv6 prefix /{num}", .exceedIPv6PrefixAttempts⟩
  else .ok failure

/-- The check of the address itself at the end of `check_failure_with_scope`. -/
def checkFailureIp (m : FailureMap) (ip : String) (time : Int) : Except Refusal FailureEntry :=
  let failure := m.entry (.ip ip)
  if failure.total > 30 then .error ⟨"Too many wrong attempts", .exceedThirtyAttempts⟩
  else if time = failure.minute ∧ failure.inMinute > 6 then
    .error ⟨"Please try 1 minute later", .sixAttemptsWithinOneMinute⟩
  else .ok failure

/-- One lookup of `check_failure_with_scope`. -/
def checkKey (m : FailureMap) (time : Int) : FailureKey → Except Refusal FailureEntry
  | .p64 net => checkFailureIpv6Prefix m (.p64 net) 64 60
  | .p56 net => checkFailureIpv6Prefix m (.p56 net) 56 80
  | .p48 net => checkFailureIpv6Prefix m (.p48 net) 48 100
  | .ip text => checkFailureIp m text time

def checkKeys (m : FailureMap) (time : Int) :
    List FailureKey → FailureEntry → Except Refusal FailureEntry
  | [], failure => .ok failure
  | key :: rest, _ => do checkKeys m time rest (← checkKey m time key)

/-- `(get_time() / 60_000) as i32`. -/
def minuteOf (nowMs : Int) : Int := Int.bmod (nowMs.tdiv 60000) (2 ^ 32)

/-- `check_failure_with_scope` with nothing in between: the snapshot or the refusal,
and the tables afterwards. -/
def checkFailureWithScope (t : LoginFailures) (ip : String) (nowMs : Int) (i : Fin 2)
    (scope : FailureScope) : Except Refusal FailureEntry × LoginFailures :=
  match scope with
  | .terminalOsLogin =>
    let (refusal, os) := t.os.evaluatePolicy nowMs
    (match refusal with | some r => .error r | none => .ok .zero, { t with os := os })
  | .default =>
    (checkKeys (t.maps i) (minuteOf nowMs) (failureKeys fromStr ip) .zero, t)

end Tables

structure Attempt where
  ip : String
  i : Fin 2
  scope : FailureScope
  nowMs : Int

/-- Where a connection stands.  While checking it still has keys to look up;
afterwards it holds the snapshot of its check. -/
inductive Phase where
  | idle
  | checking (a : Attempt) (remaining : List FailureKey)
  | admitted (a : Attempt) (failure : FailureEntry)
  | validated (a : Attempt) (failure : FailureEntry) (ok : Bool)

inductive LoginEvent where
  | admitted (a : Attempt)
  | refused (a : Attempt) (r : Refusal)
  | validated (a : Attempt) (ok : Bool)
  | recorded (a : Attempt)
  | removed (a : Attempt)

/-- The tables, `n` connections, and the events so far, the latest first. -/
structure World (n : Nat) where
  tables : LoginFailures
  slots : Fin n → Phase
  log : List LoginEvent

namespace World

/-- The steps of the connections.  A connection may begin an attempt from any
address, so a slot also stands for connections that follow one another; it may end
before its attempt has been validated. -/
inductive Input (n : Nat) where
  | start (slot : Fin n) (a : Attempt)
  | check (slot : Fin n)
  | validate (slot : Fin n) (ok : Bool)
  | update (slot : Fin n) (nowMs : Int)
  | drop (slot : Fin n)

variable {n : Nat}

def init (n : Nat) : World n := ⟨.empty, fun _ => .idle, []⟩

def setSlot (w : World n) (slot : Fin n) (p : Phase) : World n :=
  { w with slots := Function.update w.slots slot p }

def note (w : World n) (e : LoginEvent) : World n := { w with log := e :: w.log }

variable (fromStr : String → Option (BitVec 128))

def attemptKeys (a : Attempt) : List FailureKey :=
  match a.scope with
  | .default => failureKeys fromStr a.ip
  | .terminalOsLogin => []

def finishCheck (w : World n) (slot : Fin n) (a : Attempt) :
    Except Refusal FailureEntry → World n
  | .ok failure => (w.setSlot slot (.admitted a failure)).note (.admitted a)
  | .error r => (w.setSlot slot .idle).note (.refused a r)

def stepCheck (w : World n) (slot : Fin n) (a : Attempt) :
    List FailureKey → World n
  | [] =>
    match a.scope with
    | .default => w
    | .terminalOsLogin =>
      let (refusal, os) := w.tables.os.evaluatePolicy a.nowMs
      let w := { w with tables := { w.tables with os := os } }
      w.finishCheck slot a (match refusal with | some r => .error r | none => .ok .zero)
  | key :: rest =>
    match checkKey (w.tables.maps a.i) (minuteOf a.nowMs) key with
    | .error r => w.finishCheck slot a (.error r)
    | .ok failure =>
      if rest.isEmpty then w.finishCheck slot a (.ok failure)
      else w.setSlot slot (.checking a rest)

def stepUpdate (w : World n) (slot : Fin n) (a : Attempt) (failure : FailureEntry)
    (ok : Bool) (nowMs : Int) : World n :=
  let tables := updateFailureWithScope fromStr w.tables a.ip nowMs failure
    (minuteOf a.nowMs) ok a.i a.scope
  let w := { w with tables := tables }.setSlot slot .idle
  if ok then
    if failure.minute ≠ 0 then w.note (.removed a) else w
  else w.note (.recorded a)

def step (w : World n) : Input n → World n
  | .start slot a =>
    match w.slots slot with
    | .idle => w.setSlot slot (.checking a (attemptKeys fromStr a))
    | _ => w
  | .check slot =>
    match w.slots slot with
    | .checking a remaining => w.stepCheck slot a remaining
    | _ => w
  | .validate slot ok =>
    match w.slots slot with
    | .admitted a failure =>
      (w.setSlot slot (.validated a failure ok)).note (.validated a ok)
    | _ => w
  | .update slot nowMs =>
    match w.slots slot with
    | .validated a failure ok => w.stepUpdate fromStr slot a failure ok nowMs
    | _ => w
  | .drop slot =>
    match w.slots slot with
    | .checking _ _ => w.setSlot slot .idle
    | .admitted _ _ => w.setSlot slot .idle
    | _ => w

/-- The attempt counts under the key in map `i`. -/
def touches (i : Fin 2) (key : FailureKey) (a : Attempt) : Bool :=
  decide (a.i = i) && decide (key ∈ attemptKeys fromStr a)

/-- How many events counted by `p` the log holds since the last removal of the
key. -/
def sinceRemoval (i : Fin 2) (key : FailureKey) (p : LoginEvent → Bool) :
    List LoginEvent → Nat
  | [] => 0
  | .removed a :: log => if touches fromStr i key a then 0 else sinceRemoval i key p log
  | e :: log => sinceRemoval i key p log + (p e).toNat

def isRecorded (i : Fin 2) (key : FailureKey) : LoginEvent → Bool
  | .recorded a => touches fromStr i key a
  | _ => false

def isFailedValidation (i : Fin 2) (key : FailureKey) : LoginEvent → Bool
  | .validated a ok => !ok && touches fromStr i key a
  | _ => false

def limit : FailureKey → Nat
  | .ip _ => 30
  | .p64 _ => 60
  | .p56 _ => 80
  | .p48 _ => 100

def total (w : World n) (i : Fin 2) (key : FailureKey) : Nat :=
  ((w.tables.maps i).entry key).total

def inFlight (i : Fin 2) (key : FailureKey) : Phase → Bool
  | .idle => false
  | .checking a _ => touches fromStr i key a
  | .admitted a _ => touches fromStr i key a
  | .validated a _ _ => touches fromStr i key a

/-- **No failure is lost.**  Every total counter is the number of failures recorded
since the key was last removed. -/
def Exact (w : World n) : Prop :=
  ∀ i key, w.total i key = sinceRemoval fromStr i key (isRecorded fromStr i key) w.log

/-- **Bounded guessing.**  Since the key was last removed, no more than `limit + n`
validations have failed. -/
def Bounded (w : World n) : Prop :=
  ∀ i key, sinceRemoval fromStr i key (isFailedValidation fromStr i key) w.log ≤ limit key + n

theorem bumpFailureEntry_total (cur : FailureEntry) (time : Int) :
    (bumpFailureEntry cur time).total = cur.total + 1 := by
  by_cases h : cur.minute = time <;> simp [bumpFailureEntry, h]

theorem entry_foldl_bump (time : Int) (keys : List FailureKey) (m : FailureMap)
    (key : FailureKey) :
    ((keys.foldl (FailureMap.bump time) m).entry key).total =
      (m.entry key).total + keys.count key := by
  induction keys generalizing m with
  | nil => rfl
  | cons k keys ih =>
    rw [foldl_cons, ih, count_cons]
    by_cases hk : k = key
    · subst hk
      have hbump : ((m.bump time k).entry k).total = (m.entry k).total + 1 := by
        simp [FailureMap.bump, FailureMap.entry, bumpFailureEntry_total]
      simp [hbump]
      omega
    · have hother : (m.bump time k).entry key = m.entry key := by
        simp [FailureMap.bump, FailureMap.entry, Function.update_of_ne (Ne.symm hk)]
      simp [hother, hk]

theorem entry_foldl_remove (keys : List FailureKey) (m : FailureMap) (key : FailureKey) :
    (keys.foldl FailureMap.remove m).entry key = if key ∈ keys then .zero else m.entry key := by
  have hget : (keys.foldl FailureMap.remove m) key = if key ∈ keys then none else m key := by
    induction keys generalizing m with
    | nil => simp
    | cons k keys ih =>
      rw [foldl_cons, ih]
      by_cases hk : key = k
      · simp [hk, FailureMap.remove]
      · simp [hk, FailureMap.remove]
  unfold FailureMap.entry
  rw [hget]
  split <;> rfl

theorem failureKeys_nodup (ip : String) : (failureKeys fromStr ip).Nodup := by
  unfold failureKeys getIpv6Prefixes
  cases fromStr (ipOnly ip) <;> simp

theorem total_update_failed (t : LoginFailures) (a : Attempt) (nowMs : Int)
    (failure : FailureEntry) (i : Fin 2) (key : FailureKey) :
    (((updateFailureWithScope fromStr t a.ip nowMs failure (minuteOf a.nowMs) false a.i
      a.scope).maps i).entry key).total =
      ((t.maps i).entry key).total + (touches fromStr i key a).toNat := by
  cases hscope : a.scope with
  | terminalOsLogin => simp [updateFailureWithScope, touches, attemptKeys, hscope]
  | default =>
    by_cases hi : a.i = i
    · subst hi
      have hcount : (failureKeys fromStr a.ip).count key =
          (decide (key ∈ failureKeys fromStr a.ip)).toNat := by
        rw [(failureKeys_nodup fromStr a.ip).count]
        by_cases hmem : key ∈ failureKeys fromStr a.ip <;> simp [hmem]
      simp [updateFailureWithScope, touches, attemptKeys, hscope, LoginFailures.modifyMap,
        entry_foldl_bump, hcount]
    · simp [updateFailureWithScope, touches, LoginFailures.modifyMap, hi,
        Function.update_of_ne (Ne.symm hi)]

theorem total_update_ok (t : LoginFailures) (a : Attempt) (nowMs : Int)
    (failure : FailureEntry) (i : Fin 2) (key : FailureKey) :
    (((updateFailureWithScope fromStr t a.ip nowMs failure (minuteOf a.nowMs) true a.i
      a.scope).maps i).entry key).total =
      if failure.minute ≠ 0 ∧ touches fromStr i key a = true then 0
      else ((t.maps i).entry key).total := by
  cases hscope : a.scope with
  | terminalOsLogin => simp [updateFailureWithScope, touches, attemptKeys, hscope]
  | default =>
    by_cases hmin : failure.minute = 0
    · simp [updateFailureWithScope, hmin]
    by_cases hi : a.i = i
    · subst hi
      simp only [updateFailureWithScope, touches, attemptKeys, hscope,
        LoginFailures.modifyMap, hmin, entry_foldl_remove, Function.update_self,
        if_true, ne_eq, not_false_eq_true, decide_true, Bool.true_and,
        decide_eq_true_eq, true_and]
      split <;> rfl
    · simp [updateFailureWithScope, touches, LoginFailures.modifyMap, hi, hmin,
        Function.update_of_ne (Ne.symm hi)]

def passed (i : Fin 2) (key : FailureKey) : Phase → Bool
  | .idle => false
  | .checking a remaining => touches fromStr i key a && decide (key ∉ remaining)
  | .admitted a _ => touches fromStr i key a
  | .validated a _ _ => touches fromStr i key a

def failedPending (i : Fin 2) (key : FailureKey) : Phase → Bool
  | .validated a _ false => touches fromStr i key a
  | _ => false

/-- The invariant for one key: the counter is exact; what has passed the check still
fits under the limit; a failed validation is counted or about to be. -/
structure Inv (i : Fin 2) (key : FailureKey) (w : World n) : Prop where
  exact : w.total i key = sinceRemoval fromStr i key (isRecorded fromStr i key) w.log
  room : w.total i key + Slots.count (passed fromStr i key) w.slots ≤ limit key + n
  failed : sinceRemoval fromStr i key (isFailedValidation fromStr i key) w.log ≤
    w.total i key + Slots.count (failedPending fromStr i key) w.slots

variable {key : FailureKey} {failure : FailureEntry}

theorem checkKey_ok {m : FailureMap} {time : Int}
    (h : checkKey m time key = .ok failure) : (m.entry key).total ≤ limit key := by
  cases key with
  | ip text =>
    simp only [checkKey, checkFailureIp] at h
    split at h
    · cases h
    · rename_i hle
      exact Nat.le_of_not_lt hle
  | p64 net | p56 net | p48 net =>
    simp only [checkKey, checkFailureIpv6Prefix] at h
    split at h
    · cases h
    · rename_i hle
      exact Nat.le_of_not_lt hle

variable {fromStr} {i : Fin 2} {w : World n}

theorem Inv.setSlot (h : w.Inv fromStr i key) (slot : Fin n) (p : Phase)
    (hpassed : passed fromStr i key p = true →
      passed fromStr i key (w.slots slot) = true ∨ w.total i key ≤ limit key)
    (hfailed : failedPending fromStr i key (w.slots slot) = false) :
    (w.setSlot slot p).Inv fromStr i key := by
  have hp := Slots.count_update (passed fromStr i key) w.slots slot p
  have hf := Slots.count_update (failedPending fromStr i key) w.slots slot p
  have hn := Slots.count_le (passed fromStr i key) (Function.update w.slots slot p)
  refine ⟨h.exact, ?_, ?_⟩
  · change w.total i key + Slots.count (passed fromStr i key)
      (Function.update w.slots slot p) ≤ _
    have hroom := h.room
    cases hnew : passed fromStr i key p with
    | false =>
      rw [hnew, Bool.toNat_false] at hp
      omega
    | true =>
      rcases hpassed hnew with hold | hlim
      · rw [hnew, hold] at hp
        omega
      · omega
  · change sinceRemoval fromStr i key (isFailedValidation fromStr i key) w.log ≤
      w.total i key + Slots.count (failedPending fromStr i key) (Function.update w.slots slot p)
    have hfail := h.failed
    rw [hfailed, Bool.toNat_false] at hf
    omega

theorem Inv.note (h : w.Inv fromStr i key)
    {e : LoginEvent} (he : (∃ a, e = .admitted a) ∨ ∃ a r, e = .refused a r) :
    (w.note e).Inv fromStr i key := by
  rcases he with ⟨a, rfl⟩ | ⟨a, r, rfl⟩ <;> exact ⟨h.exact, h.room, h.failed⟩

variable {slot : Fin n} {remaining : List FailureKey} {a : Attempt}

theorem index_of_touches (h : touches fromStr i key a = true) : a.i = i := by
  simp only [touches, Bool.and_eq_true, decide_eq_true_eq] at h
  exact h.1

theorem Inv.finishCheck (h : w.Inv fromStr i key)
    (hslot : w.slots slot = .checking a remaining) (res : Except Refusal FailureEntry)
    (hok : ∀ failure, res = .ok failure → touches fromStr i key a = true →
      key ∉ remaining ∨ w.total i key ≤ limit key) :
    (w.finishCheck slot a res).Inv fromStr i key := by
  cases res with
  | error r =>
    refine Inv.note (h.setSlot slot .idle ?_ ?_) (Or.inr ⟨a, r, rfl⟩)
    · intro hnew
      cases hnew
    · rw [hslot]
      rfl
  | ok failure =>
    refine Inv.note (h.setSlot slot (.admitted a failure) ?_ ?_) (Or.inl ⟨a, rfl⟩)
    · intro hnew
      rw [hslot]
      rcases hok failure rfl hnew with hmem | hlim
      · left
        have htouch : touches fromStr i key a = true := hnew
        simp [passed, htouch, hmem]
      · exact Or.inr hlim
    · rw [hslot]
      rfl

theorem Inv.stepCheck (h : w.Inv fromStr i key) (hslot : w.slots slot = .checking a remaining) :
    (w.stepCheck slot a remaining).Inv fromStr i key := by
  cases remaining with
  | nil =>
    cases hscope : a.scope with
    | default =>
      simp only [World.stepCheck, hscope]
      exact h
    | terminalOsLogin =>
      simp only [World.stepCheck, hscope]
      have h' : Inv fromStr i key { w with tables :=
          { w.tables with os := (w.tables.os.evaluatePolicy a.nowMs).2 } } :=
        ⟨h.exact, h.room, h.failed⟩
      exact h'.finishCheck hslot _ fun _ _ _ => Or.inl not_mem_nil
  | cons k rest =>
    -- a key other than the one looked up keeps its place among the keys to come
    have hlook : ∀ failure, checkKey (w.tables.maps a.i) (minuteOf a.nowMs) k = .ok failure →
        touches fromStr i key a = true → key ∉ rest →
        key ∉ k :: rest ∨ w.total i key ≤ limit key := by
      intro failure hcheck htouch hrest
      by_cases hk : key = k
      · subst hk
        exact Or.inr (index_of_touches htouch ▸ checkKey_ok hcheck)
      · exact Or.inl (by simp [hk, hrest])
    simp only [World.stepCheck]
    cases hcheck : checkKey (w.tables.maps a.i) (minuteOf a.nowMs) k with
    | error r => exact h.finishCheck hslot _ fun failure hres => by cases hres
    | ok failure =>
      by_cases hrest : rest.isEmpty = true
      · simp only [hrest, if_true]
        refine h.finishCheck hslot _ fun _ _ htouch => hlook failure hcheck htouch ?_
        simp [isEmpty_iff.mp hrest]
      · simp only [hrest]
        refine h.setSlot slot _ ?_ (by rw [hslot]; rfl)
        intro hnew
        simp only [passed, Bool.and_eq_true, decide_eq_true_eq] at hnew
        rw [hslot]
        rcases hlook failure hcheck hnew.1 hnew.2 with hmem | hlim
        · exact Or.inl (by simp [passed, hnew.1, hmem])
        · exact Or.inr hlim

theorem Inv.validate (h : w.Inv fromStr i key)
    (hslot : w.slots slot = .admitted a failure) (ok : Bool) :
    ((w.setSlot slot (.validated a failure ok)).note (.validated a ok)).Inv fromStr i key := by
  have hp := Slots.count_update (passed fromStr i key) w.slots slot (.validated a failure ok)
  have hf := Slots.count_update (failedPending fromStr i key) w.slots slot (.validated a failure ok)
  rw [hslot] at hp hf
  refine ⟨h.exact, ?_, ?_⟩
  · have hroom := h.room
    simp only [passed, Nat.add_right_cancel_iff] at hp
    change w.total i key + Slots.count _ (Function.update w.slots slot _) ≤ _
    omega
  · have hfail := h.failed
    have hnew : failedPending fromStr i key (.validated a failure ok) =
        (!ok && touches fromStr i key a) := by
      cases ok <;> rfl
    rw [hnew] at hf
    simp only [failedPending, Bool.toNat_false, Nat.add_zero] at hf
    change sinceRemoval fromStr i key _ w.log + (!ok && touches fromStr i key a).toNat ≤
      w.total i key + Slots.count _ (Function.update w.slots slot _)
    omega

theorem stepUpdate_fields (w : World n) (slot : Fin n) (a : Attempt) (failure : FailureEntry)
    (ok : Bool) (nowMs : Int) :
    (w.stepUpdate fromStr slot a failure ok nowMs).tables =
      updateFailureWithScope fromStr w.tables a.ip nowMs failure (minuteOf a.nowMs) ok a.i a.scope ∧
    (w.stepUpdate fromStr slot a failure ok nowMs).slots = Function.update w.slots slot .idle := by
  unfold World.stepUpdate
  by_cases hmin : failure.minute = 0 <;> cases ok <;> simp [hmin, World.note, World.setSlot]

theorem Inv.stepUpdate (h : w.Inv fromStr i key)
    {ok : Bool} (hslot : w.slots slot = .validated a failure ok) (nowMs : Int) :
    (w.stepUpdate fromStr slot a failure ok nowMs).Inv fromStr i key := by
  have hp := Slots.count_update (passed fromStr i key) w.slots slot .idle
  have hf := Slots.count_update (failedPending fromStr i key) w.slots slot .idle
  have hn := Slots.count_le (passed fromStr i key) (Function.update w.slots slot .idle)
  have hroom := h.room
  have hfail := h.failed
  have hexact := h.exact
  rw [hslot] at hp hf
  simp only [passed, Bool.toNat_false, Nat.add_zero] at hp
  cases ok with
  | false =>
    simp only [failedPending, Bool.toNat_false, Nat.add_zero] at hf
    have htotal : (w.stepUpdate fromStr slot a failure false nowMs).total i key =
        w.total i key + (touches fromStr i key a).toNat :=
      total_update_failed fromStr w.tables a nowMs failure i key
    refine ⟨?_, ?_, ?_⟩
    · rw [htotal, hexact]
      rfl
    · rw [htotal]
      change _ + Slots.count _ (Function.update w.slots slot .idle) ≤ _
      omega
    · rw [htotal]
      change sinceRemoval fromStr i key _ w.log ≤
        _ + Slots.count _ (Function.update w.slots slot .idle)
      omega
  | true =>
    simp only [failedPending, Bool.toNat_false, Nat.add_zero] at hf
    obtain ⟨htables, hslots⟩ := stepUpdate_fields w slot a failure true nowMs
    have htotal : (w.stepUpdate fromStr slot a failure true nowMs).total i key =
        if failure.minute ≠ 0 ∧ touches fromStr i key a = true then 0
        else w.total i key := by
      unfold total
      rw [htables]
      exact total_update_ok fromStr w.tables a nowMs failure i key
    have hsince : ∀ p, sinceRemoval fromStr i key p
        (w.stepUpdate fromStr slot a failure true nowMs).log =
        if failure.minute ≠ 0 ∧ touches fromStr i key a = true then 0
        else sinceRemoval fromStr i key p w.log := by
      intro p
      unfold World.stepUpdate
      by_cases hmin : failure.minute = 0 <;> simp [hmin, World.note, World.setSlot, sinceRemoval]
    by_cases hgone : failure.minute ≠ 0 ∧ touches fromStr i key a = true
    · rw [if_pos hgone] at htotal
      refine ⟨?_, ?_, ?_⟩
      · rw [htotal, hsince, if_pos hgone]
      · rw [htotal, hslots]
        omega
      · rw [hsince, if_pos hgone]
        exact Nat.zero_le _
    · rw [if_neg hgone] at htotal
      refine ⟨?_, ?_, ?_⟩
      · rw [htotal, hsince, if_neg hgone, hexact]
      · rw [htotal, hslots]
        omega
      · rw [htotal, hslots, hsince, if_neg hgone]
        omega

theorem Inv.step (h : w.Inv fromStr i key)
    (inp : Input n) : (w.step fromStr inp).Inv fromStr i key := by
  have hidle : ∀ {slot : Fin n}, failedPending fromStr i key (w.slots slot) = false →
      (w.setSlot slot .idle).Inv fromStr i key := fun hslot =>
    h.setSlot _ _ (fun hnew => by cases hnew) hslot
  cases inp with
  | start slot a =>
    simp only [World.step]
    split
    next hslot =>
      refine h.setSlot slot _ ?_ (by rw [hslot]; rfl)
      intro hnew
      simp only [passed, touches, Bool.and_eq_true, decide_eq_true_eq] at hnew
      exact absurd hnew.1.2 hnew.2
    next => exact h
  | check slot =>
    simp only [World.step]
    split
    next hslot => exact h.stepCheck hslot
    next => exact h
  | validate slot ok =>
    simp only [World.step]
    split
    next hslot => exact h.validate hslot ok
    next => exact h
  | update slot nowMs =>
    simp only [World.step]
    split
    next hslot => exact h.stepUpdate hslot nowMs
    next => exact h
  | drop slot =>
    simp only [World.step]
    split
    next hslot => exact hidle (by rw [hslot]; rfl)
    next hslot => exact hidle (by rw [hslot]; rfl)
    next => exact h

theorem inv_init (n : Nat) (i : Fin 2) (key : FailureKey) : (init n).Inv fromStr i key := by
  refine ⟨rfl, ?_, Nat.zero_le _⟩
  have hidle : Slots.count (passed fromStr i key) (init n).slots = 0 :=
    Slots.count_eq_zero fun _ => rfl
  rw [hidle]
  exact Nat.zero_le _

def Closed (fromStr : String → Option (BitVec 128)) (i : Fin 2) (key : FailureKey)
    (w : World n) : Prop :=
  limit key < w.total i key ∧ ∀ slot, passed fromStr i key (w.slots slot) = false

/-- The events of a step or a run from `w`, up to the attempts they admit under the
key. -/
def AdmitsNone (fromStr : String → Option (BitVec 128)) (i : Fin 2) (key : FailureKey)
    (w w' : World n) : Prop :=
  ∃ new, w'.log = new ++ w.log ∧ ∀ a, LoginEvent.admitted a ∈ new → touches fromStr i key a = false

theorem AdmitsNone.of_log_eq {w w' : World n}
    (h : w'.log = w.log) : AdmitsNone fromStr i key w w' :=
  ⟨[], h, by simp⟩

theorem AdmitsNone.of_event {w w' : World n} {e : LoginEvent} (h : w'.log = e :: w.log)
    (he : ∀ a, e = .admitted a → touches fromStr i key a = false) :
    AdmitsNone fromStr i key w w' := by
  refine ⟨[e], h, fun a ha => he a ?_⟩
  rw [mem_singleton] at ha
  exact ha.symm

theorem AdmitsNone.trans {w w' w'' : World n}
    (h : AdmitsNone fromStr i key w w') (h' : AdmitsNone fromStr i key w' w'') :
    AdmitsNone fromStr i key w w'' := by
  obtain ⟨new, hlog, hnew⟩ := h
  obtain ⟨new', hlog', hnew'⟩ := h'
  refine ⟨new' ++ new, by rw [hlog', hlog, append_assoc], fun a ha => ?_⟩
  rcases mem_append.mp ha with ha | ha
  · exact hnew' a ha
  · exact hnew a ha

theorem Closed.setSlot (h : w.Closed fromStr i key) (slot : Fin n) {p : Phase}
    (hp : passed fromStr i key p = false) : (w.setSlot slot p).Closed fromStr i key := by
  refine ⟨h.1, fun t => ?_⟩
  by_cases ht : t = slot
  · subst ht
    simpa [World.setSlot] using hp
  · simpa [World.setSlot, Function.update_of_ne ht] using h.2 t

theorem Closed.checkKey_error (h : w.Closed fromStr i key) (time : Int) :
    checkKey (w.tables.maps i) time key ≠ .ok failure := by
  intro hok
  exact absurd (checkKey_ok hok) (Nat.not_le.mpr h.1)

theorem Closed.mem_remaining (h : w.Closed fromStr i key)
    (hslot : w.slots slot = .checking a remaining)
    (htouch : touches fromStr i key a = true) : key ∈ remaining := by
  have hpassed := h.2 slot
  rw [hslot] at hpassed
  simpa [passed, htouch] using hpassed

theorem Closed.finishCheck (h : w.Closed fromStr i key) (slot : Fin n) (a : Attempt)
    (res : Except Refusal FailureEntry)
    (hok : ∀ failure, res = .ok failure → touches fromStr i key a = false) :
    (w.finishCheck slot a res).Closed fromStr i key ∧
      AdmitsNone fromStr i key w (w.finishCheck slot a res) := by
  cases res with
  | error r =>
    have hclosed := h.setSlot slot (p := .idle) rfl
    exact ⟨hclosed, .of_event rfl fun _ he => by cases he⟩
  | ok failure =>
    have htouch := hok failure rfl
    have hclosed := h.setSlot slot (p := .admitted a failure) htouch
    exact ⟨hclosed, .of_event rfl fun _ he => by cases he; exact htouch⟩

theorem Closed.stepCheck (h : w.Closed fromStr i key)
    (hslot : w.slots slot = .checking a remaining) :
    (w.stepCheck slot a remaining).Closed fromStr i key ∧
      AdmitsNone fromStr i key w (w.stepCheck slot a remaining) := by
  have hmem := h.mem_remaining hslot
  cases remaining with
  | nil =>
    have htouch : touches fromStr i key a = false := by
      simpa using hmem
    cases hscope : a.scope with
    | default =>
      simp only [World.stepCheck, hscope]
      exact ⟨h, .of_log_eq rfl⟩
    | terminalOsLogin =>
      simp only [World.stepCheck, hscope]
      have h' : Closed fromStr i key { w with tables :=
          { w.tables with os := (w.tables.os.evaluatePolicy a.nowMs).2 } } := ⟨h.1, h.2⟩
      exact h'.finishCheck slot a _ fun _ _ => htouch
  | cons k rest =>
    simp only [World.stepCheck]
    cases hcheck : checkKey (w.tables.maps a.i) (minuteOf a.nowMs) k with
    | error r => exact h.finishCheck slot a _ fun _ hres => by cases hres
    | ok failure =>
      have hrest : touches fromStr i key a = true → key ∈ rest := by
        intro htouch
        rcases mem_cons.mp (hmem htouch) with rfl | hin
        · exact absurd (index_of_touches htouch ▸ hcheck) (h.checkKey_error _)
        · exact hin
      by_cases hempty : rest.isEmpty = true
      · simp only [hempty, if_true]
        refine h.finishCheck slot a _ fun _ _ => ?_
        simpa [isEmpty_iff.mp hempty] using hrest
      · simp only [hempty]
        refine ⟨h.setSlot slot ?_, .of_log_eq rfl⟩
        cases htouch : touches fromStr i key a with
        | false => simp [passed, htouch]
        | true => simp [passed, hrest htouch]

theorem Closed.stepUpdate (h : w.Closed fromStr i key)
    {ok : Bool} (hslot : w.slots slot = .validated a failure ok) (nowMs : Int) :
    (w.stepUpdate fromStr slot a failure ok nowMs).Closed fromStr i key ∧
      AdmitsNone fromStr i key w (w.stepUpdate fromStr slot a failure ok nowMs) := by
  have htouch : touches fromStr i key a = false := by
    have hpassed := h.2 slot
    rwa [hslot] at hpassed
  obtain ⟨htables, hslots⟩ := stepUpdate_fields w slot a failure ok nowMs
  refine ⟨⟨?_, fun t => ?_⟩, ?_⟩
  · have htotal : (w.stepUpdate fromStr slot a failure ok nowMs).total i key =
        w.total i key := by
      unfold total
      rw [htables]
      cases ok with
      | false => rw [total_update_failed, htouch, Bool.toNat_false, Nat.add_zero]
      | true => simp [total_update_ok, htouch]
    rw [htotal]
    exact h.1
  · have hidle := (h.setSlot slot (p := .idle) rfl).2 t
    rwa [hslots]
  · unfold World.stepUpdate
    cases ok with
    | false => exact .of_event rfl fun _ he => by cases he
    | true =>
      by_cases hmin : failure.minute = 0
      · exact .of_log_eq (by simp [hmin, World.setSlot])
      · exact .of_event (e := .removed a) (by simp [hmin, World.setSlot, World.note])
          fun _ he => by cases he

theorem Closed.step (h : w.Closed fromStr i key) (inp : Input n) :
    (w.step fromStr inp).Closed fromStr i key ∧
      AdmitsNone fromStr i key w (w.step fromStr inp) := by
  have hstay : w.Closed fromStr i key ∧ AdmitsNone fromStr i key w w := ⟨h, .of_log_eq rfl⟩
  cases inp with
  | start slot a =>
    simp only [World.step]
    split
    next =>
      refine ⟨h.setSlot slot ?_, .of_log_eq rfl⟩
      by_cases hkey : key ∈ attemptKeys fromStr a <;> simp [passed, touches, hkey]
    next => exact hstay
  | check slot =>
    simp only [World.step]
    split
    next hslot => exact h.stepCheck hslot
    next => exact hstay
  | validate slot ok =>
    simp only [World.step]
    split
    next a failure hslot =>
      have hpassed := h.2 slot
      rw [hslot] at hpassed
      have hclosed := h.setSlot slot (p := .validated a failure ok) hpassed
      exact ⟨hclosed, .of_event rfl fun _ he => by cases he⟩
    next => exact hstay
  | update slot nowMs =>
    simp only [World.step]
    split
    next hslot => exact h.stepUpdate hslot nowMs
    next => exact hstay
  | drop slot =>
    simp only [World.step]
    split
    next => exact ⟨h.setSlot slot rfl, .of_log_eq rfl⟩
    next => exact ⟨h.setSlot slot rfl, .of_log_eq rfl⟩
    next => exact hstay

theorem Closed.run (h : w.Closed fromStr i key) (is : List (Input n)) :
    AdmitsNone fromStr i key w (Run.exec (World.step fromStr) w is) := by
  induction is generalizing w with
  | nil => exact .of_log_eq rfl
  | cons inp is ih =>
    obtain ⟨hclosed, hnone⟩ := h.step inp
    exact hnone.trans (ih hclosed)

end World

open World Run in
/-- **Login throttling.**  For any number `n` of connections and any interleaving of
their steps: in every state each total counter is the number of failures recorded
since its key was last removed, and at most `limit + n` validations under the key
have failed since then; and once a key is over its limit with no attempt under it
in flight, no later check under it succeeds. -/
theorem throttling (fromStr : String → Option (BitVec 128)) (n : Nat)
    (is js : List (Input n)) :
    Always (step fromStr) (Exact fromStr) (init n) is ∧
    Always (step fromStr) (Bounded fromStr) (init n) is ∧
    ∀ i key, let w := exec (step fromStr) (init n) is
      limit key < w.total i key →
      (∀ slot, inFlight fromStr i key (w.slots slot) = false) →
      AdmitsNone fromStr i key w (exec (step fromStr) w js) := by
  have hinv : ∀ i key, Always (step fromStr) (Inv fromStr i key) (init n) is := by
    intro i key
    apply always_of_step
    · exact fun _ inp h => h.step inp
    · exact inv_init n i key
  refine ⟨fun pre hpre i key => (hinv i key pre hpre).exact, fun pre hpre i key => ?_, ?_⟩
  · have h := hinv i key pre hpre
    have hroom := h.room
    have hfailed := h.failed
    have hle := Slots.count_mono (p := failedPending fromStr i key)
      (q := passed fromStr i key) (fun p hp => by
        rcases p with _ | _ | _ | ⟨a, f, _ | _⟩ <;> simp_all [failedPending, passed])
      (exec (step fromStr) (init n) pre).slots
    omega
  · intro i key w hlimit hidle
    refine Closed.run ⟨hlimit, fun slot => ?_⟩ js
    have hslot := hidle slot
    rcases hphase : w.slots slot with _ | _ | _ | _ <;> simp_all [inFlight, passed]

end RustDesk
