import Mathlib.Algebra.Group.Action.Defs
import Mathlib.Algebra.Order.BigOperators.Group.List
import Mathlib.Algebra.Order.Ring.Nat
import Mathlib.Data.List.DropRight
import RustDesk.Lib.BinaryFloat
import RustDesk.Lib.CheckedArith

/-!
# The delay of a viewer

The server measures how long a viewer takes to answer.  `RttCalculator` estimates the part
of it that the network needs at best: the smallest delay so far, and once there are sixty
samples the mean of that and of the smallest of the last sixty.  `UserDelay` is to report
what the last three delays exceed it by.
-/

open CheckedArith BinaryFloat

namespace RustDesk

open List

def delayThreshold150ms : Nat := 150

structure RttCalculator where
  minRtt : Option Nat := none
  windowMinRtt : Option Nat := none
  smoothedRtt : Option Nat := none
  samples : List Nat := []
  deriving DecidableEq

namespace RttCalculator

def windowSamples : Nat := 60

def minSamples : Nat := 10

/-- The weighted average, with `ALPHA` one half.  An `f32` has 24 significant digits; the
two halves and their sum are counted in halves, and the conversion drops a half. -/
def weightedMean (min windowMin : Nat) : Nat :=
  roundTo 24 (roundTo 24 min + roundTo 24 windowMin) / 2

def update (c : RttCalculator) (delay : Nat) : RttCalculator :=
  let minRtt := match c.minRtt with
    | some min => if delay < min then some delay else some min
    | none => some delay
  let samples :=
    (if windowSamples ≤ c.samples.length then c.samples.tail else c.samples) ++ [delay]
  let windowMinRtt := samples.min?
  let smoothedRtt := if windowSamples ≤ samples.length then
      match minRtt, windowMinRtt with
      | some min, some windowMin => some (weightedMean min windowMin)
      | _, _ => c.smoothedRtt
    else c.smoothedRtt
  { minRtt, windowMinRtt, smoothedRtt, samples }

def getRtt (c : RttCalculator) : Option Nat :=
  match c.smoothedRtt with
  | some rtt => some rtt
  | none => if minSamples ≤ c.samples.length then c.minRtt else none

end RttCalculator

structure UserDelay where
  responseDelayed : Bool := false
  delayHistory : List Nat := []
  fps : Option Nat := none
  rttCalculator : RttCalculator := {}
  quickIncreaseFpsCount : Nat := 0
  increaseFpsCount : Nat := 0
  deriving DecidableEq

namespace UserDelay

def historyDelayLen : Nat := 2

def addDelay (d : UserDelay) (delay : Nat) : UserDelay :=
  { d with
    rttCalculator := d.rttCalculator.update delay
    delayHistory := (if historyDelayLen < d.delayHistory.length then d.delayHistory.tail
      else d.delayHistory) ++ [delay] }

def avgDelay (d : UserDelay) : Except Trap Nat :=
  let len := d.delayHistory.length
  if 0 < len then do
    let total ← sum 32 d.delayHistory
    let avgDelay ← div total len
    match d.rttCalculator.getRtt with
    | some rtt => if rtt < avgDelay then sub avgDelay rtt else return avgDelay
    | none => return avgDelay
  else .ok delayThreshold150ms

def after (delays : List Nat) : UserDelay := delays.foldl addDelay {}

end UserDelay

def lowest (delays : List Nat) : Nat := delays.min?.getD 0

/-- The estimate that is to be used: none for less than ten delays, then the smallest, and
from the sixtieth on the mean of the smallest of all and of the last sixty. -/
def rttOf (delays : List Nat) : Option Nat :=
  if delays.length < 10 then none
  else if delays.length < 60 then some (lowest delays)
  else some ((lowest delays + lowest (delays.rtake 60)) / 2)

def lastAverage (delays : List Nat) : Nat :=
  (delays.rtake 3).sum / (delays.rtake 3).length

/-- The sum of the two lowest delays is one that `f32` rounds up. -/
def RoundedUp (delays : List Nat) : Prop :=
  60 ≤ delays.length ∧ 2 ^ 24 ≤ lowest delays + lowest (delays.rtake 60) ∧
    (lowest delays + lowest (delays.rtake 60)) % 4 = 3

instance (delays : List Nat) : Decidable (RoundedUp delays) := inferInstanceAs (Decidable (_ ∧ _))

def ReportsDelay (delays : List Nat) : Prop :=
  (UserDelay.after delays).rttCalculator.getRtt = rttOf delays ∧
    ∀ rtt, (UserDelay.after delays).rttCalculator.getRtt = some rtt →
      (UserDelay.after delays).avgDelay = .ok (lastAverage delays - rtt)

theorem lowest_concat (delays : List Nat) (d : Nat) :
    (delays ++ [d]).min? = some (match delays.min? with
      | some m => min m d
      | none => d) := by
  cases delays with
  | nil => rfl
  | cons x xs => rw [cons_append, List.min?_cons', List.min?_cons', foldl_concat]

theorem min?_eq_lowest {delays : List Nat} (h : delays ≠ []) :
    delays.min? = some (lowest delays) := by
  cases hmin : delays.min? with
  | none => exact absurd (List.min?_eq_none_iff.mp hmin) h
  | some m => rw [lowest, hmin, Option.getD_some]

theorem lowest_mem {delays : List Nat} (h : delays ≠ []) : lowest delays ∈ delays :=
  List.min?_mem (min?_eq_lowest h)

theorem length_rtake (delays : List Nat) (k : Nat) :
    (delays.rtake k).length = min k delays.length := by
  rw [rtake_eq_reverse_take_reverse, length_reverse, length_take, length_reverse]

theorem rtake_slide {k : Nat} (hk : 0 < k) (delays : List Nat) (d : Nat) :
    (if k ≤ (delays.rtake k).length then (delays.rtake k).tail else delays.rtake k) ++ [d] =
      (delays ++ [d]).rtake k := by
  obtain ⟨k, rfl⟩ := Nat.exists_eq_succ_of_ne_zero hk.ne'
  rw [rtake_concat_succ, length_rtake]
  split
  · have hdrop : delays.length - k = delays.length - (k + 1) + 1 := by omega
    rw [List.rtake, List.rtake, tail_drop, hdrop]
  · rw [List.rtake, List.rtake, Nat.sub_eq_zero_of_le (by omega),
      Nat.sub_eq_zero_of_le (by omega)]

structure Tracks (delays : List Nat) (c : RttCalculator) : Prop where
  minRtt : c.minRtt = delays.min?
  samples : c.samples = delays.rtake 60
  smoothedRtt : c.smoothedRtt = if delays.length < 60 then none
    else some (RttCalculator.weightedMean (lowest delays) (lowest (delays.rtake 60)))

theorem Tracks.update {delays : List Nat} {c : RttCalculator} (h : Tracks delays c) (d : Nat) :
    Tracks (delays ++ [d]) (c.update d) := by
  have hsamples : (c.update d).samples = (delays ++ [d]).rtake 60 := by
    rw [← rtake_slide (by decide) delays d, ← h.samples]
    rfl
  have hmin : (c.update d).minRtt = (delays ++ [d]).min? := by
    rw [lowest_concat]
    unfold RttCalculator.update
    dsimp only
    rw [h.minRtt]
    cases delays.min? with
    | none => rfl
    | some m =>
      dsimp only
      split
      · rw [Nat.min_eq_right (by omega)]
      · rw [Nat.min_eq_left (by omega)]
  refine ⟨hmin, hsamples, ?_⟩
  have hne : delays ++ [d] ≠ [] := concat_ne_nil d delays
  have hrtake : (delays ++ [d]).rtake 60 ≠ [] := by
    rw [rtake_concat_succ]
    exact concat_ne_nil d _
  have hsmoothed : (c.update d).smoothedRtt =
      if 60 ≤ (c.update d).samples.length then
        match (c.update d).minRtt, (c.update d).samples.min? with
        | some min, some windowMin => some (RttCalculator.weightedMean min windowMin)
        | _, _ => c.smoothedRtt
      else c.smoothedRtt := rfl
  rw [hsmoothed, hsamples, hmin, min?_eq_lowest hne, min?_eq_lowest hrtake, length_rtake]
  by_cases hlength : (delays ++ [d]).length < 60
  · have hbefore : delays.length < 60 := by
      rw [length_append] at hlength
      omega
    rw [if_neg (by omega), if_pos hlength, h.smoothedRtt, if_pos hbefore]
  · rw [if_pos (by omega), if_neg hlength]

theorem after_concat (delays : List Nat) (d : Nat) :
    UserDelay.after (delays ++ [d]) = (UserDelay.after delays).addDelay d :=
  foldl_concat ..

theorem tracks_after (delays : List Nat) :
    Tracks delays (UserDelay.after delays).rttCalculator := by
  induction delays using List.reverseRecOn with
  | nil => exact ⟨rfl, rfl, rfl⟩
  | append_singleton delays d ih =>
    rw [after_concat]
    exact ih.update d

theorem delayHistory_after (delays : List Nat) :
    (UserDelay.after delays).delayHistory = delays.rtake 3 := by
  induction delays using List.reverseRecOn with
  | nil => rfl
  | append_singleton delays d ih =>
    rw [after_concat, ← rtake_slide (by decide) delays d, ← ih]
    rfl

section Report

variable {delays : List Nat} (hbound : ∀ d ∈ delays, d < 2 ^ 24)

theorem mem_of_mem_rtake {k d : Nat} (h : d ∈ delays.rtake k) : d ∈ delays :=
  mem_of_mem_drop h

include hbound

theorem getRtt_after :
    (UserDelay.after delays).rttCalculator.getRtt =
      if delays.length < 60 then rttOf delays
      else some ((lowest delays + lowest (delays.rtake 60)) / 2 +
        if 2 ^ 24 ≤ lowest delays + lowest (delays.rtake 60) ∧
          (lowest delays + lowest (delays.rtake 60)) % 4 = 3 then 1 else 0) := by
  obtain ⟨hmin, hsamples, hsmoothed⟩ := tracks_after delays
  unfold RttCalculator.getRtt
  rw [hsmoothed, hsamples, hmin, length_rtake]
  by_cases hlength : delays.length < 60
  · rw [if_pos hlength, if_pos hlength, rttOf, if_pos hlength]
    dsimp only
    by_cases hten : delays.length < 10
    · rw [if_neg (by rw [RttCalculator.minSamples]; omega), if_pos hten]
    · have hne : delays ≠ [] := by
        rintro rfl
        simp at hten
      rw [if_pos (by rw [RttCalculator.minSamples]; omega), if_neg hten, min?_eq_lowest hne]
  · have hne : delays ≠ [] := by
      rintro rfl
      simp at hlength
    have hrtake : delays.rtake 60 ≠ [] := by
      rw [ne_eq, ← length_eq_zero_iff, length_rtake]
      omega
    have hlow := hbound _ (lowest_mem hne)
    have hwindow := hbound _ (mem_of_mem_rtake (lowest_mem hrtake))
    rw [if_neg hlength, if_neg hlength, RttCalculator.weightedMean, roundTo_of_lt hlow,
      roundTo_of_lt hwindow, roundTo_add_div_two hlow hwindow]

theorem getRtt_eq_iff :
    (UserDelay.after delays).rttCalculator.getRtt = rttOf delays ↔ ¬RoundedUp delays := by
  rw [getRtt_after hbound, RoundedUp]
  by_cases hlength : delays.length < 60
  · rw [if_pos hlength]
    exact iff_of_true rfl (by omega)
  · have hrttOf : rttOf delays = some ((lowest delays + lowest (delays.rtake 60)) / 2) := by
      rw [rttOf, if_neg (by omega), if_neg hlength]
    rw [if_neg hlength, hrttOf, Option.some_inj]
    split_ifs with hround
    · exact iff_of_false (by omega) fun hnot => hnot ⟨by omega, hround⟩
    · exact iff_of_true (Nat.add_zero _) fun hrounded => hround hrounded.2

theorem lastThree_sum_lt : (delays.rtake 3).sum < 2 ^ 32 := by
  have hle : (delays.rtake 3).sum ≤ (delays.rtake 3).length • 2 ^ 24 :=
    sum_le_card_nsmul _ _ fun d hd => (hbound d (mem_of_mem_rtake hd)).le
  have hlength := length_rtake delays 3
  rw [smul_eq_mul] at hle
  omega

theorem avgDelay_after {rtt : Nat}
    (hrtt : (UserDelay.after delays).rttCalculator.getRtt = some rtt) :
    (UserDelay.after delays).avgDelay =
      .ok (if rtt < lastAverage delays then lastAverage delays - rtt else lastAverage delays) := by
  have hne : delays ≠ [] := by
    rintro rfl
    cases hrtt
  have hlength : 0 < (delays.rtake 3).length := by
    have := length_pos_iff.mpr hne
    rw [length_rtake]
    omega
  unfold UserDelay.avgDelay
  rw [delayHistory_after, hrtt]
  dsimp only
  rw [if_pos hlength, sum_ok (lastThree_sum_lt hbound), ok_bind, div_ok hlength, ok_bind,
    ← lastAverage]
  by_cases habove : rtt < lastAverage delays
  · rw [if_pos habove, if_pos habove, sub_ok habove.le]
  · rw [if_neg habove, if_neg habove]
    rfl

theorem avgDelay_eq_iff {rtt : Nat}
    (hrtt : (UserDelay.after delays).rttCalculator.getRtt = some rtt) :
    (UserDelay.after delays).avgDelay = .ok (lastAverage delays - rtt) ↔
      rtt < lastAverage delays ∨ lastAverage delays = 0 := by
  rw [avgDelay_after hbound hrtt, Except.ok.injEq]
  split_ifs with habove
  · exact iff_of_true rfl (.inl habove)
  · rw [or_iff_right habove]
    omega

end Report

theorem constant_after {n d : Nat} (hn : 10 ≤ n) (hd : d < 2 ^ 24) :
    (UserDelay.after (List.replicate n d)).rttCalculator.getRtt = some d ∧
      lastAverage (List.replicate n d) = d := by
  have hbound : ∀ x ∈ List.replicate n d, x < 2 ^ 24 := fun x hx => eq_of_mem_replicate hx ▸ hd
  have hrtake (k : Nat) : (List.replicate n d).rtake k = List.replicate (n - (n - k)) d := by
    rw [List.rtake, length_replicate, drop_replicate]
  have hlowest {k : Nat} (hk : 0 < k) : lowest (List.replicate k d) = d := by
    have hne : List.replicate k d ≠ [] := by
      rw [ne_eq, replicate_eq_nil_iff]
      omega
    exact eq_of_mem_replicate (lowest_mem hne)
  constructor
  · rw [getRtt_after hbound, hrtake, hlowest (by omega), hlowest (by omega),
      length_replicate]
    split
    · rw [rttOf, length_replicate, if_neg (by omega), if_pos (by omega),
        hlowest (by omega)]
    · rw [if_neg (by omega)]
      congr 1
      omega
  · rw [lastAverage, hrtake, sum_replicate, length_replicate, smul_eq_mul]
    exact Nat.mul_div_cancel_left d (by omega)

/-- **The delay above the estimate.**  It is reported as it is to be exactly if the mean of
the minima is not rounded up, and the average of the last three delays is above the
estimate or nothing.  Of two viewers with the same estimate, the one with the larger
average has the smaller report exactly if its average is above the estimate by less than
the other's average, which is not above it.  A link of constant delay reports that delay. -/
theorem delay_reported_iff (delays : List Nat) (hbound : ∀ d ∈ delays, d < 2 ^ 24) :
    (ReportsDelay delays ↔ ¬RoundedUp delays ∧
      ∀ rtt, rttOf delays = some rtt → rtt < lastAverage delays ∨ lastAverage delays = 0) ∧
    (∀ (delays' : List Nat) (rtt : Nat), (∀ d ∈ delays', d < 2 ^ 24) →
      (UserDelay.after delays).rttCalculator.getRtt = some rtt →
      (UserDelay.after delays').rttCalculator.getRtt = some rtt →
      lastAverage delays ≤ lastAverage delays' →
      ((∃ a b, (UserDelay.after delays).avgDelay = .ok a ∧
          (UserDelay.after delays').avgDelay = .ok b ∧ a ≤ b) ↔
        ¬(lastAverage delays ≤ rtt ∧ rtt < lastAverage delays' ∧
          lastAverage delays' < lastAverage delays + rtt))) ∧
    ∀ n d, 10 ≤ n → d < 2 ^ 24 → (UserDelay.after (List.replicate n d)).avgDelay = .ok d := by
  refine ⟨?_, fun delays' rtt hbound' hrtt hrtt' hle => ?_, fun n d hn hd => ?_⟩
  · constructor
    · intro h
      have hround := (getRtt_eq_iff hbound).mp h.1
      refine ⟨hround, fun rtt hrtt => ?_⟩
      have hsome := h.1.trans hrtt
      exact (avgDelay_eq_iff hbound hsome).mp (h.2 rtt hsome)
    · intro h
      have hsame := (getRtt_eq_iff hbound).mpr h.1
      exact ⟨hsame, fun rtt hrtt => (avgDelay_eq_iff hbound hrtt).mpr
        (h.2 rtt (hsame.symm.trans hrtt))⟩
  · rw [avgDelay_after hbound hrtt, avgDelay_after hbound' hrtt']
    constructor
    · rintro ⟨a, b, ha, hb, hab⟩ ⟨hbelow, habove, hclose⟩
      rw [if_neg (by omega)] at ha
      rw [if_pos habove] at hb
      cases ha
      cases hb
      omega
    · intro hnot
      refine ⟨_, _, rfl, rfl, ?_⟩
      split_ifs <;> omega
  · have hconstant : ∀ x ∈ List.replicate n d, x < 2 ^ 24 :=
      fun x hx => eq_of_mem_replicate hx ▸ hd
    obtain ⟨hrtt, haverage⟩ := constant_after hn hd
    rw [avgDelay_after hconstant hrtt, haverage, if_neg (Nat.lt_irrefl d)]

def slowing : List Nat := List.replicate 7 10 ++ List.replicate 3 100

theorem slowing_reported : ReportsDelay slowing := by
  refine (delay_reported_iff slowing (by decide)).1.mpr ⟨by decide, fun rtt hrtt => ?_⟩
  obtain rfl : rtt = 10 := Option.some.inj (hrtt.symm.trans (by decide))
  exact .inl (by decide)

/-- A link whose delay is always 20 reports 20, and the mean of 8388609 and 8388610 is
rounded up. -/
theorem constant_link_reports_delay :
    ¬ReportsDelay (List.replicate 10 20) ∧
      ¬ReportsDelay (8388609 :: List.replicate 60 8388610) := by
  constructor
  · intro h
    have hreported := h.2 20 (by decide)
    cases hreported
  · intro h
    have hrounded : RoundedUp (8388609 :: List.replicate 60 8388610) := by
      decide +kernel
    exact (getRtt_eq_iff (by decide +kernel)).mp h.1 hrounded

end RustDesk
