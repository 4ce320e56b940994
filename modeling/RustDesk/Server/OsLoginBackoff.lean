import Mathlib.Data.Rat.Floor
import RustDesk.Server.LoginFailure

/-!
# Waiting after failed logins to the operating system

Failed logins with credentials of the operating system are counted for all peers together.  From
the third failure on there is a wait, which doubles with every failure, up to half an hour.  Two
hours without a failure start the count again.

The code counts in a state that both calls change, before they look at it: a check forgets what is
too long ago.  The reference looks at the history of the failures only.  `evaluatePolicy_eq`: in
every sequence of calls they agree, so that no check shortens or extends a wait.
-/

namespace RustDesk.OsCredentialFailureState

open Run List

/-- A call of `record_os_credential_failure` or `evaluate_os_credential_policy`, with its time. -/
inductive Call where
  | record (nowMs : Int)
  | evaluate (nowMs : Int)

def Call.nowMs : Call → Int
  | .record nowMs => nowMs
  | .evaluate nowMs => nowMs

def initial : OsCredentialFailureState := ⟨0, none, none⟩

def step (st : OsCredentialFailureState) : Call → OsCredentialFailureState
  | .record nowMs => st.recordFailure nowMs
  | .evaluate nowMs => (st.evaluatePolicy nowMs).2

/-- The times of the recorded failures, the latest one first, behind those in `times`. -/
def failures (times : List Int) : List Call → List Int
  | [] => times
  | .record nowMs :: calls => failures (nowMs :: times) calls
  | .evaluate _ :: calls => failures times calls

def streak : List Int → Nat
  | [] => 0
  | [_] => 1
  | t :: s :: rest => if totalIdleResetMs ≤ t - s then 1 else streak (s :: rest) + 1

def waitMs (n : Nat) : Int := min (15 * 2 ^ (n - 3)) 1800 * 1000

def remainingSeconds (remainingMs : Int) : Int := max ⌈(remainingMs : ℚ) / 1000⌉ 1

def reference (times : List Int) (nowMs : Int) : Option Refusal :=
  match times with
  | [] => none
  | t :: rest =>
    if 3 ≤ streak (t :: rest) ∧ nowMs < t + waitMs (streak (t :: rest)) ∧
        nowMs - t < totalIdleResetMs then
      let wait := remainingSeconds (t + waitMs (streak (t :: rest)) - nowMs)
      let secondsLabel := if wait = 1 then "second" else "seconds"
      some ⟨s!"Please try again in {wait} {secondsLabel}.", .terminalOsLoginBackoff⟩
    else none

/-- **The seconds of the code** are those of the reference, past the cap of the exponent and of the
counter. -/
theorem backoffSeconds_eq (n : Nat) :
    backoffSeconds (min (n : Int) (2 ^ 31 - 1)) =
      if n ≤ 2 then 0 else min (15 * 2 ^ (n - 3)) 1800 := by
  unfold backoffSeconds backoffBaseSeconds backoffMaxSeconds
  by_cases hfew : n ≤ 2
  · rw [if_pos (by omega), if_pos hfew]
  rw [if_neg (by omega), if_neg hfew]
  dsimp only
  by_cases hcap : n - 3 ≤ 7
  · have hexp : (min (min (n : Int) (2 ^ 31 - 1) - 3) 7).toNat = n - 3 := by omega
    rw [hexp]
    rfl
  · have hexp : (min (min (n : Int) (2 ^ 31 - 1) - 3) 7).toNat = 7 := by omega
    have hpow : (2 : Int) ^ 7 ≤ 2 ^ (n - 3) := pow_le_pow_right₀ (by decide) (by omega)
    rw [hexp]
    omega

theorem waitMs_pos (n : Nat) : 0 < waitMs n := by
  have hpow : (0 : Int) < 2 ^ (n - 3) := by positivity
  unfold waitMs
  omega

theorem remainingSeconds_eq (remainingMs : Int) :
    max ((remainingMs + 999) / 1000) 1 = remainingSeconds remainingMs := by
  have hceil : ⌈(remainingMs : ℚ) / 1000⌉ = -(-remainingMs / 1000) :=
    Rat.ceil_intCast_div_natCast remainingMs 1000
  rw [remainingSeconds, hceil]
  omega

def tidy (st : OsCredentialFailureState) (nowMs : Int) : OsCredentialFailureState :=
  (st.resetTotalsOnIdle nowMs).normalizeBackoff nowMs

def Forgot (times : List Int) (nowMs : Int) (st : OsCredentialFailureState) : Prop :=
  st = initial ∧ ∀ t ∈ times.head?, totalIdleResetMs ≤ nowMs - t

structure Counts (t : Int) (rest : List Int) (st : OsCredentialFailureState) : Prop where
  last : st.lastFailureMs = some t
  total : st.totalFailures = min (streak (t :: rest) : Int) (2 ^ 31 - 1)
  few : streak (t :: rest) < 3 → st.backoffUntilMs = none

/-- **What the state says** at a time after the last call: the wait that follows from the failures
is in it, or is over. -/
def Tracks (times : List Int) (nowMs : Int) (st : OsCredentialFailureState) : Prop :=
  Forgot times nowMs st ∨ ∃ t rest, times = t :: rest ∧ Counts t rest st ∧
    (3 ≤ streak times → st.backoffUntilMs = some (t + waitMs (streak times)) ∨
      st.backoffUntilMs = none ∧ t + waitMs (streak times) ≤ nowMs)

def Settled (times : List Int) (nowMs : Int) (st : OsCredentialFailureState) : Prop :=
  Forgot times nowMs st ∨ ∃ t rest, times = t :: rest ∧ nowMs - t < totalIdleResetMs ∧
    Counts t rest st ∧ st.backoffUntilMs =
      if 3 ≤ streak times ∧ nowMs < t + waitMs (streak times) then
        some (t + waitMs (streak times))
      else none

variable {times : List Int} {st : OsCredentialFailureState} {c nowMs : Int}

theorem Tracks.tidy (h : Tracks times c st) (hle : c ≤ nowMs) :
    Settled times nowMs (st.tidy nowMs) := by
  rcases h with ⟨rfl, hidle⟩ | ⟨t, rest, rfl, hcounts, hwait⟩
  · exact .inl ⟨rfl, fun t ht => by have := hidle t ht; omega⟩
  unfold OsCredentialFailureState.tidy resetTotalsOnIdle
  rw [hcounts.last]
  dsimp only
  by_cases hgap : nowMs - t ≥ totalIdleResetMs
  · rw [if_pos hgap]
    refine .inl ⟨rfl, fun s hs => ?_⟩
    rw [← Option.some.inj hs]
    exact hgap
  rw [if_neg hgap]
  refine .inr ⟨t, rest, rfl, Int.lt_of_not_ge hgap, ?_⟩
  unfold normalizeBackoff
  by_cases hmany : 3 ≤ streak (t :: rest)
  · rcases hwait hmany with hsome | ⟨hnone, hover⟩
    · rw [hsome]
      dsimp only
      by_cases hover : t + waitMs (streak (t :: rest)) ≤ nowMs
      · rw [if_pos hover, if_neg fun h => by omega]
        exact ⟨⟨hcounts.last, hcounts.total, fun _ => rfl⟩, rfl⟩
      · rw [if_neg hover, if_pos ⟨hmany, Int.lt_of_not_ge hover⟩]
        exact ⟨hcounts, hsome⟩
    · rw [hnone, if_neg fun h => by omega]
      exact ⟨hcounts, hnone⟩
  · have hnone := hcounts.few (Nat.lt_of_not_le hmany)
    rw [hnone, if_neg fun h => hmany h.1]
    exact ⟨hcounts, hnone⟩

theorem Settled.tracks (h : Settled times nowMs st) : Tracks times nowMs st := by
  rcases h with hforgot | ⟨t, rest, rfl, -, hcounts, hwait⟩
  · exact .inl hforgot
  refine .inr ⟨t, rest, rfl, hcounts, fun hmany => ?_⟩
  rw [hwait]
  split
  · exact .inl rfl
  · rename_i hover
    exact .inr ⟨rfl, Int.not_lt.mp fun hlt => hover ⟨hmany, hlt⟩⟩

theorem Settled.record (h : Settled times nowMs st) :
    Tracks (nowMs :: times) nowMs
      { totalFailures := min (st.totalFailures + 1) (2 ^ 31 - 1)
        lastFailureMs := some nowMs
        backoffUntilMs :=
          if backoffSeconds (min (st.totalFailures + 1) (2 ^ 31 - 1)) > 0 then
            some (nowMs + backoffSeconds (min (st.totalFailures + 1) (2 ^ 31 - 1)) * 1000)
          else st.backoffUntilMs } := by
  have htotal : min (st.totalFailures + 1) (2 ^ 31 - 1) =
      min (streak (nowMs :: times) : Int) (2 ^ 31 - 1) ∧
        (streak (nowMs :: times) < 3 → st.backoffUntilMs = none) := by
    rcases h with ⟨rfl, hidle⟩ | ⟨t, rest, rfl, hrecent, hcounts, hwait⟩
    · have hone : streak (nowMs :: times) = 1 := by
        cases times with
        | nil => rfl
        | cons t rest => exact if_pos (hidle t rfl)
      rw [hone]
      exact ⟨rfl, fun _ => rfl⟩
    · have hnext : streak (nowMs :: t :: rest) = streak (t :: rest) + 1 :=
        if_neg (Int.not_le.mpr hrecent)
      rw [hnext, hcounts.total]
      exact ⟨by omega, fun hfew => hcounts.few (by omega)⟩
  obtain ⟨hsame, hfew⟩ := htotal
  rw [hsame, backoffSeconds_eq]
  by_cases hlow : streak (nowMs :: times) ≤ 2
  · rw [if_pos hlow, if_neg (Int.lt_irrefl 0)]
    exact .inr ⟨nowMs, times, rfl, ⟨rfl, rfl, fun _ => hfew (by omega)⟩, fun hmany => by omega⟩
  · have hseconds : 0 < min (15 * 2 ^ (streak (nowMs :: times) - 3)) (1800 : Int) := by
      have hpos := waitMs_pos (streak (nowMs :: times))
      unfold waitMs at hpos
      omega
    rw [if_neg hlow, if_pos hseconds]
    exact .inr ⟨nowMs, times, rfl, ⟨rfl, rfl, fun hlt => by omega⟩, fun _ => .inl rfl⟩

theorem Tracks.step (h : Tracks times c st) (call : Call) (hle : c ≤ call.nowMs) :
    Tracks (failures times [call]) call.nowMs (st.step call) := by
  have hsettled := h.tidy hle
  cases call with
  | record nowMs => exact hsettled.record
  | evaluate nowMs =>
    have hsame : (st.evaluatePolicy nowMs).2 = st.tidy nowMs := by
      unfold evaluatePolicy OsCredentialFailureState.tidy
      dsimp only
      split <;> rfl
    have htracks : Tracks times nowMs (st.tidy nowMs) := hsettled.tracks
    rw [← hsame] at htracks
    exact htracks

theorem Tracks.exec (calls : List Call) (h : Tracks times c st)
    (hsorted : (c :: calls.map Call.nowMs).Pairwise (· ≤ ·)) :
    ∃ last, last ∈ c :: calls.map Call.nowMs ∧
      Tracks (failures times calls) last (Run.exec OsCredentialFailureState.step st calls) := by
  induction calls generalizing times c st with
  | nil => exact ⟨c, mem_cons_self, h⟩
  | cons call calls ih =>
    rw [map_cons, pairwise_cons] at hsorted
    obtain ⟨hfirst, hrest⟩ := hsorted
    obtain ⟨last, hmem, htracks⟩ := ih (h.step call (hfirst _ mem_cons_self)) hrest
    have hfailures : failures (failures times [call]) calls = failures times (call :: calls) := by
      cases call <;> rfl
    rw [hfailures] at htracks
    exact ⟨last, mem_cons_of_mem _ hmem, htracks⟩

theorem Settled.evaluate (h : Settled times nowMs (st.tidy nowMs)) :
    (st.evaluatePolicy nowMs).1 = reference times nowMs := by
  have hpolicy : (st.evaluatePolicy nowMs).1 = (st.tidy nowMs).backoffUntilMs.map fun untilMs =>
      let wait := max ((max (untilMs - nowMs) 0 + 999) / 1000) 1
      let secondsLabel := if wait = 1 then "second" else "seconds"
      ⟨s!"Please try again in {wait} {secondsLabel}.", .terminalOsLoginBackoff⟩ := by
    unfold evaluatePolicy OsCredentialFailureState.tidy
    dsimp only
    split
    · rename_i untilMs huntil
      rw [huntil]
      rfl
    · rename_i hnone
      rw [hnone]
      rfl
  rw [hpolicy]
  rcases h with ⟨hinitial, hidle⟩ | ⟨t, rest, rfl, hrecent, -, hwait⟩
  · rw [hinitial]
    cases times with
    | nil => rfl
    | cons t rest =>
      have hgap := hidle t rfl
      rw [reference, if_neg fun h => by omega]
      rfl
  · rw [hwait, reference]
    by_cases hblocked : 3 ≤ streak (t :: rest) ∧ nowMs < t + waitMs (streak (t :: rest))
    · have hmax : max (t + waitMs (streak (t :: rest)) - nowMs) 0 =
          t + waitMs (streak (t :: rest)) - nowMs := by omega
      rw [if_pos hblocked, if_pos ⟨hblocked.1, hblocked.2, hrecent⟩, Option.map_some, hmax,
        remainingSeconds_eq]
    · rw [if_neg hblocked, if_neg fun h => hblocked ⟨h.1, h.2.1⟩]
      rfl

/-- **The backoff equals its reference**: after any sequence of calls, each not before the one
before, a check decides, and reports, what follows from the recorded failures alone. -/
theorem evaluatePolicy_eq (calls : List Call) (nowMs : Int)
    (hsorted : ((calls ++ [Call.evaluate nowMs]).map Call.nowMs).Pairwise (· ≤ ·)) :
    ((exec step initial calls).evaluatePolicy nowMs).1 = reference (failures [] calls) nowMs := by
  rw [map_append, pairwise_append] at hsorted
  obtain ⟨hcalls, -, hlast⟩ := hsorted
  have hstart : Tracks [] nowMs initial := .inl ⟨rfl, nofun⟩
  cases calls with
  | nil => exact (hstart.tidy (Int.le_refl _)).evaluate
  | cons call calls =>
    have hearly : Tracks [] call.nowMs initial := .inl ⟨rfl, nofun⟩
    have hle : (call.nowMs :: (call :: calls).map Call.nowMs).Pairwise (· ≤ ·) := by
      refine pairwise_cons.mpr ⟨fun t ht => ?_, hcalls⟩
      rcases mem_cons.mp ht with rfl | hlater
      · exact Int.le_refl _
      · exact (pairwise_cons.mp hcalls).1 t hlater
    obtain ⟨last, hmem, htracks⟩ := hearly.exec (call :: calls) hle
    have hbefore : last ≤ nowMs := by
      rcases mem_cons.mp hmem with rfl | hin
      · exact hlast _ mem_cons_self nowMs mem_cons_self
      · exact hlast last hin nowMs mem_cons_self
    exact (htracks.tidy hbefore).evaluate

/-- Three failures within a second, a check, and another check after the wait is over in part. -/
theorem evaluatePolicy_three :
    ((exec step initial [.record 0, .record 500, .record 1000, .evaluate 2000]).evaluatePolicy
        15500).1 =
      reference [1000, 500, 0] 15500 :=
  evaluatePolicy_eq [.record 0, .record 500, .record 1000, .evaluate 2000] 15500 (by decide)

end RustDesk.OsCredentialFailureState
