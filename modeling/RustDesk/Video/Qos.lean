import Mathlib.Data.List.AList
import RustDesk.Lib.Run
import RustDesk.Video.UserDelay

/-!
# The frame rate of a video service

`VideoQoS` keeps for every viewer a rate that follows the delay of its answers, and one
rate for all: the smallest of theirs, at most the smallest that one of them asked for, and
two while an answer is outstanding.  The comment at its head says that the rate of a viewer
is above a minimum while the delay is below 150 ms, and below it from there on.

The bitrate ratio, which is adjusted beside the rate and which the rate does not depend on,
is left out.  A ratio is counted in hundredths, and the division by the delay is exact.
-/

open CheckedArith Run

namespace RustDesk

open List

/-- `Quality`, a custom ratio in hundredths. -/
inductive Quality where
  | best
  | balanced
  | low
  | custom (hundredths : Nat)
  deriving DecidableEq

namespace Quality

/-- `BR_BEST`, in hundredths. -/
def brBest : Nat := 150

/-- `BR_BALANCED`, in hundredths. -/
def brBalanced : Nat := 67

/-- `BR_SPEED`, in hundredths. -/
def brSpeed : Nat := 50

/-- `Quality::ratio`, in hundredths. -/
def ratio : Quality → Nat
  | .best => brBest
  | .balanced => brBalanced
  | .low => brSpeed
  | .custom v => v

/-- `convert_quality`; a custom ratio is between `BR_MIN` and `BR_MAX`. -/
def convert (q : Int) : Quality :=
  if q = 3 then .balanced
  else if q = 2 then .low
  else if q = 4 then .best
  else .custom (max 20 (min 4000 ((q / 256 % 4096).toNat * 2)))

end Quality

structure UserData where
  autoAdjustFps : Option Nat := none
  customFps : Option Nat := none
  quality : Option (Int × Quality) := none
  delay : UserDelay := {}
  deriving DecidableEq

structure VideoQoS where
  fps : Nat
  users : AList fun _ : Int => UserData
  newUserInstant : Nat

/-- `FPS`. -/
def defaultFps : Nat := 30

def minFps : Nat := 1

def maxFps : Nat := 120

def initFps : Nat := 15

/-- `Ord::clamp`, which asks for bounds in order. -/
def clamp (lo hi x : Nat) : Except Trap Nat :=
  if lo ≤ hi then .ok (max lo (min hi x)) else .error .outOfRange

namespace UserData

/-- `user_fps`: the rate that a viewer asked for. -/
def cap (u : UserData) : Nat :=
  let fps := u.customFps.getD defaultFps
  match u.autoAdjustFps with
  | some auto => if fps = 0 ∨ auto < fps then auto else fps
  | none => fps

end UserData

namespace VideoQoS

def default (now : Nat) : VideoQoS := ⟨defaultFps, ∅, now⟩

def values (s : VideoQoS) : List UserData := s.users.entries.map (·.2)

def modify (s : VideoQoS) (id : Int) (f : UserData → UserData) : VideoQoS :=
  match s.users.lookup id with
  | some u => { s with users := s.users.replace id (f u) }
  | none => s

def onConnectionOpen (s : VideoQoS) (id : Int) (now : Nat) : VideoQoS :=
  { s with users := s.users.insert id {}, newUserInstant := now }

def onConnectionClose (s : VideoQoS) (id : Int) (now : Nat) : VideoQoS :=
  let s := { s with users := s.users.erase id }
  if s.users.entries = [] then .default now else s

def userCustomFps (s : VideoQoS) (id : Int) (fps : Nat) : VideoQoS :=
  if fps < minFps ∨ maxFps < fps then s
  else s.modify id fun u => { u with customFps := some fps }

def userAutoAdjustFps (s : VideoQoS) (id : Int) (fps : Nat) : VideoQoS :=
  if fps < minFps ∨ maxFps < fps then s
  else s.modify id fun u => { u with autoAdjustFps := some fps }

def userImageQuality (s : VideoQoS) (id : Int) (imageQuality time : Int) : VideoQoS :=
  s.modify id fun u => { u with quality := some (time, .convert imageQuality) }

def highestFps (s : VideoQoS) : Nat :=
  let fps := (((s.values.map UserData.cap).filter fun fps => minFps ≤ fps).min?).getD defaultFps
  max minFps (min maxFps fps)

def latestQuality (s : VideoQoS) : Quality :=
  match s.values.filterMap (·.quality) with
  | [] => .balanced
  | q :: qs => (qs.foldl (fun best q => if best.1 ≤ q.1 then q else best) q).2

/-- `adjust_fps`, at this time in nanoseconds. -/
def adjustFps (s : VideoQoS) (now : Nat) : Except Trap VideoQoS := do
  let fps := ((s.values.map fun u => u.delay.fps.getD initFps).min?).getD initFps
  let fps := if s.values.any (·.delay.responseDelayed) ∧ minFps + 1 < fps then minFps + 1 else fps
  let fps := if (now - s.newUserInstant) / 10 ^ 9 < 1 ∧ initFps < fps then initFps else fps
  let fps ← clamp minFps s.highestFps fps
  return { s with fps }

end VideoQoS

/-- `min_fps` and `normal_fps`: with a bad network, a small rate reacts faster. -/
def fpsRange (targetRatio : Nat) : Nat × Nat :=
  if Quality.brBest ≤ targetRatio then (8, 16)
  else if Quality.brBalanced ≤ targetRatio then (10, 20)
  else (12, 24)

def devideFps (fps avgDelay : Nat) : Nat :=
  (fps * delayThreshold150ms + avgDelay - 1) / avgDelay

/-- The rate for a delay, and the new count of quick increases.  The delay before this
answer decides whether the rate increases in the second band. -/
def bandFps (minFps normalFps fps oldAvgDelay avgDelay quick : Nat) : Except Trap (Nat × Nat) := do
  let dividendMs ← mul 32 delayThreshold150ms minFps
  if avgDelay < 50 then
    let quick := quick + 1
    let step := if fps < normalFps then 1 else 0
    let (quick, step) := if 3 ≤ quick then (0, 5) else (quick, step)
    let fps ← add 32 fps step
    return (max minFps fps, quick)
  else if avgDelay < 100 then
    let step := if avgDelay < oldAvgDelay then if fps < normalFps then 1 else 0 else 0
    let fps ← add 32 fps step
    return (max minFps fps, quick)
  else if avgDelay < delayThreshold150ms then return (max minFps fps, quick)
  else
    let devided := devideFps fps avgDelay
    if avgDelay < 200 then return (max minFps devided, quick)
    else if avgDelay < 300 then return (min minFps devided, quick)
    else if avgDelay < 600 then
      let fps ← div dividendMs avgDelay
      return (fps, quick)
    else
      let fps ← div dividendMs avgDelay
      return (min fps devided, quick)

namespace UserDelay

/-- The part of `user_network_delay` about the user. -/
def onNetworkDelay (d : UserDelay) (minFps normalFps highestFps fps delay : Nat) :
    Except Trap UserDelay := do
  let delay := max delay 10
  let oldAvgDelay ← d.avgDelay
  let d := d.addDelay delay
  let avgDelay ← d.avgDelay
  let avgDelay := max avgDelay 10
  let (fps, quick) ← bandFps minFps normalFps fps oldAvgDelay avgDelay d.quickIncreaseFpsCount
  let increase := if avgDelay < delayThreshold150ms then d.increaseFpsCount + 1 else 0
  let (increase, fps) ← if 3 ≤ increase then do
      let fps ← add 32 fps 1
      pure (0, fps)
    else pure (increase, fps)
  let quick := if 50 < avgDelay then 0 else quick
  let fps ← clamp RustDesk.minFps highestFps fps
  return { d with
    fps := some fps, quickIncreaseFpsCount := quick, increaseFpsCount := increase }

end UserDelay

namespace VideoQoS

/-- `user_network_delay`, as far as the rate is concerned. -/
def userNetworkDelay (s : VideoQoS) (id : Int) (delay now : Nat) : Except Trap VideoQoS := do
  let highestFps := s.highestFps
  let (minFps, normalFps) := fpsRange s.latestQuality.ratio
  let s ← match s.users.lookup id with
    | some u => do
        let d ← u.delay.onNetworkDelay minFps normalFps highestFps s.fps delay
        pure { s with users := s.users.replace id { u with delay := d } }
    | none => pure s
  s.adjustFps now

def userDelayResponseElapsed (s : VideoQoS) (id : Int) (elapsed now : Nat) : Except Trap VideoQoS :=
  match s.users.lookup id with
  | some u =>
    let responseDelayed := 2000 < elapsed
    let d := { u.delay with responseDelayed }
    let d := if responseDelayed then d.addDelay (elapsed % 2 ^ 32) else d
    let s := { s with users := s.users.replace id { u with delay := d } }
    if responseDelayed then s.adjustFps now else .ok s
  | none => .ok s

end VideoQoS

/-- The operations, with the times at which they run.  The map may be walked in another
order at any time. -/
inductive QosInput where
  | onConnectionOpen (id : Int) (now : Nat)
  | onConnectionClose (id : Int) (now : Nat)
  | userCustomFps (id : Int) (fps : Nat)
  | userAutoAdjustFps (id : Int) (fps : Nat)
  | userImageQuality (id imageQuality time : Int)
  | userNetworkDelay (id : Int) (delay now : Nat)
  | userDelayResponseElapsed (id : Int) (elapsed now : Nat)
  | updateDisplayData (now : Nat)
  | reorder (users : AList fun _ : Int => UserData)

namespace VideoQoS

def run (s : VideoQoS) : QosInput → Except Trap VideoQoS
  | .onConnectionOpen id now => .ok (s.onConnectionOpen id now)
  | .onConnectionClose id now => .ok (s.onConnectionClose id now)
  | .userCustomFps id fps => .ok (s.userCustomFps id fps)
  | .userAutoAdjustFps id fps => .ok (s.userAutoAdjustFps id fps)
  | .userImageQuality id imageQuality time => .ok (s.userImageQuality id imageQuality time)
  | .userNetworkDelay id delay now => s.userNetworkDelay id delay now
  | .userDelayResponseElapsed id elapsed now => s.userDelayResponseElapsed id elapsed now
  | .updateDisplayData now => s.adjustFps now
  | .reorder users =>
    if users.entries.Perm s.users.entries then .ok { s with users } else .ok s

def step (s : VideoQoS) (i : QosInput) : VideoQoS :=
  match s.run i with
  | .ok s' => s'
  | .error _ => s

end VideoQoS

section Users

variable {s : VideoQoS} {id : Int} {u : UserData}

theorem mem_values_iff : u ∈ s.values ↔ ∃ id, s.users.lookup id = some u := by
  rw [VideoQoS.values, mem_map]
  constructor
  · rintro ⟨⟨id, v⟩, hmem, rfl⟩
    exact ⟨id, AList.mem_lookup_iff.mpr hmem⟩
  · rintro ⟨id, hlookup⟩
    exact ⟨⟨id, u⟩, AList.mem_lookup_iff.mp hlookup, rfl⟩

theorem mem_values (h : s.users.lookup id = some u) : u ∈ s.values := mem_values_iff.mpr ⟨id, h⟩

variable {v : UserData}

theorem kreplace_cons (e : Sigma fun _ : Int => UserData)
    (l : List (Sigma fun _ : Int => UserData)) :
    (e :: l).kreplace id v = if id = e.1 then ⟨id, v⟩ :: l else e :: l.kreplace id v := by
  rw [List.kreplace, lookmap_cons]
  by_cases hid : id = e.1
  · simp only [hid, if_true]
  · simp only [hid, if_false]

variable {l : List (Sigma fun _ : Int => UserData)}

theorem dlookup_kreplace (h : l.dlookup id = some u) : (l.kreplace id v).dlookup id = some v := by
  induction l with
  | nil => cases h
  | cons e l ih =>
    obtain ⟨k, w⟩ := e
    rw [kreplace_cons]
    by_cases hk : id = k
    · rw [if_pos hk, dlookup_cons_eq]
    · rw [dlookup_cons_ne _ _ hk] at h
      rw [if_neg hk, dlookup_cons_ne _ _ hk]
      exact ih h

theorem lookup_replace (h : s.users.lookup id = some u) :
    (s.users.replace id v).lookup id = some v :=
  dlookup_kreplace h

theorem mem_kreplace
    {e : Sigma fun _ : Int => UserData} (h : e ∈ l.kreplace id v) : e = ⟨id, v⟩ ∨ e ∈ l := by
  induction l with
  | nil => cases h
  | cons e' l ih =>
    rw [kreplace_cons] at h
    split at h
    · exact (mem_cons.mp h).imp_right (mem_cons_of_mem _)
    · rcases mem_cons.mp h with rfl | hmem
      · exact .inr mem_cons_self
      · exact (ih hmem).imp_right (mem_cons_of_mem _)

end Users

namespace UserData

/-- The rates that the viewer asked for are positive, and the delays are those of its last
three answers. -/
structure Sound (u : UserData) : Prop where
  customFps : ∀ fps, u.customFps = some fps → minFps ≤ fps
  autoAdjustFps : ∀ fps, u.autoAdjustFps = some fps → minFps ≤ fps
  length : u.delay.delayHistory.length ≤ 3
  small : ∀ d ∈ u.delay.delayHistory, d < 2 ^ 24

theorem sound_new : ({} : UserData).Sound := by
  constructor <;> simp

variable {u : UserData}

theorem Sound.cap_pos (h : u.Sound) : minFps ≤ u.cap := by
  have hcustom : minFps ≤ u.customFps.getD defaultFps := by
    cases hfps : u.customFps with
    | none => decide
    | some fps => exact h.customFps fps hfps
  unfold cap
  cases hauto : u.autoAdjustFps with
  | none => exact hcustom
  | some auto =>
    dsimp only
    split
    · exact h.autoAdjustFps auto hauto
    · exact hcustom

theorem Sound.addDelay (h : u.Sound) {delay : Nat} (hdelay : delay < 2 ^ 24) :
    (u.delay.addDelay delay).delayHistory.length ≤ 3 ∧
      ∀ d ∈ (u.delay.addDelay delay).delayHistory, d < 2 ^ 24 := by
  have hlength := h.length
  unfold UserDelay.addDelay
  dsimp only
  constructor
  · rw [length_append, length_singleton]
    split
    · rw [length_tail]
      omega
    · rename_i hshort
      rw [UserDelay.historyDelayLen] at hshort
      omega
  · intro d hd
    rcases mem_append.mp hd with hold | hnew
    · refine h.small d ?_
      split at hold
      · exact mem_of_mem_tail hold
      · exact hold
    · rw [mem_singleton.mp hnew]
      exact hdelay

end UserData

theorem avgDelay_ok {d : UserDelay} (hlength : d.delayHistory.length ≤ 3)
    (hsmall : ∀ x ∈ d.delayHistory, x < 2 ^ 24) : ∃ avg, d.avgDelay = .ok avg := by
  have hsum : d.delayHistory.sum < 2 ^ 32 := by
    have hle : d.delayHistory.sum ≤ d.delayHistory.length • 2 ^ 24 :=
      sum_le_card_nsmul _ _ fun x hx => (hsmall x hx).le
    rw [smul_eq_mul] at hle
    omega
  unfold UserDelay.avgDelay
  dsimp only
  split_ifs with hpos
  · rw [sum_ok hsum, ok_bind, div_ok hpos, ok_bind]
    cases d.rttCalculator.getRtt with
    | none => exact ⟨_, rfl⟩
    | some rtt =>
      dsimp only
      split_ifs with habove
      · exact ⟨_, sub_ok habove.le⟩
      · exact ⟨_, rfl⟩
  · exact ⟨_, rfl⟩

namespace VideoQoS

/-- The rate is at most `MAX_FPS`, and the data of all users is sound. -/
structure Sound (s : VideoQoS) : Prop where
  fps : s.fps ≤ maxFps
  users : ∀ u ∈ s.values, u.Sound

variable {s : VideoQoS}

theorem sound_default (now : Nat) : (VideoQoS.default now).Sound :=
  ⟨show defaultFps ≤ maxFps by decide, fun _ hu => absurd hu not_mem_nil⟩

theorem one_le_highestFps (s : VideoQoS) : minFps ≤ s.highestFps := Nat.le_max_left ..

theorem highestFps_le (s : VideoQoS) : s.highestFps ≤ maxFps :=
  Nat.max_le.mpr ⟨by decide, Nat.min_le_left ..⟩

theorem highestFps_le_cap {u : UserData} (h : s.Sound) (hu : u ∈ s.values) :
    s.highestFps ≤ u.cap := by
  have hpos := (h.users u hu).cap_pos
  have hmem : u.cap ∈ (s.values.map UserData.cap).filter fun fps => minFps ≤ fps :=
    mem_filter.mpr ⟨mem_map_of_mem hu, decide_eq_true hpos⟩
  refine Nat.max_le.mpr ⟨hpos, (Nat.min_le_right ..).trans ?_⟩
  cases hmin : ((s.values.map UserData.cap).filter fun fps => minFps ≤ fps).min? with
  | none => exact absurd hmem (List.min?_eq_none_iff.mp hmin ▸ not_mem_nil)
  | some m => exact (List.min?_eq_some_iff.mp hmin).2 _ hmem

end VideoQoS

theorem clamp_ok {lo hi x : Nat} (h : lo ≤ hi) : clamp lo hi x = .ok (max lo (min hi x)) :=
  if_pos h

/-- What `adjust_fps` is for: at least one, at most what any user asked for, and at most two
while an answer is outstanding. -/
structure Adjusted (s : VideoQoS) : Prop where
  pos : 1 ≤ s.fps
  cap : ∀ u ∈ s.values, s.fps ≤ u.cap
  delayed : (∃ u ∈ s.values, u.delay.responseDelayed = true) → s.fps ≤ 2

theorem adjustFps_spec {s : VideoQoS} (h : s.Sound) (now : Nat) :
    ∃ fps, s.adjustFps now = .ok { s with fps } ∧ Adjusted { s with fps } ∧
      VideoQoS.Sound { s with fps } := by
  have hhigh := s.one_le_highestFps
  unfold VideoQoS.adjustFps
  dsimp only
  rw [clamp_ok hhigh, ok_bind]
  refine ⟨_, rfl, ⟨?_, fun u hu => ?_, fun ⟨u, hu, hdelayed⟩ => ?_⟩, ⟨?_, h.users⟩⟩
  · exact Nat.le_max_left ..
  · exact Nat.max_le.mpr ⟨(h.users u hu).cap_pos,
      (Nat.min_le_left ..).trans (VideoQoS.highestFps_le_cap h hu)⟩
  · have hany : s.values.any (·.delay.responseDelayed) = true :=
      any_eq_true.mpr ⟨u, hu, hdelayed⟩
    refine Nat.max_le.mpr ⟨by decide, (Nat.min_le_right ..).trans ?_⟩
    simp only [hany, true_and, minFps, initFps]
    split_ifs <;> omega
  · exact Nat.max_le.mpr ⟨by decide, (Nat.min_le_left ..).trans s.highestFps_le⟩

section Rate

variable {minFps normalFps fps oldAvgDelay avgDelay quick m : Nat}

theorem fpsRange_le (ratio : Nat) : (fpsRange ratio).1 ≤ 12 := by
  unfold fpsRange
  split_ifs <;> decide

theorem one_le_fpsRange (ratio : Nat) : 1 ≤ (fpsRange ratio).1 := by
  unfold fpsRange
  split_ifs <;> decide

theorem devideFps_le_iff (h : 0 < avgDelay) :
    devideFps fps avgDelay ≤ m ↔ fps * 150 ≤ m * avgDelay := by
  rw [devideFps, delayThreshold150ms, Nat.div_le_iff_le_mul_add_pred h]
  constructor <;> intro hle <;> rw [Nat.mul_comm avgDelay m] at * <;> omega

theorem bandFps_spec (normalFps oldAvgDelay quick : Nat) (hmin : minFps ≤ 12)
    (hfps : fps ≤ maxFps) (havg : 10 ≤ avgDelay) :
    ∃ rate quick', bandFps minFps normalFps fps oldAvgDelay avgDelay quick = .ok (rate, quick') ∧
      rate ≤ maxFps + 5 ∧ (avgDelay < 150 → minFps ≤ rate) ∧
      (150 ≤ avgDelay → avgDelay < 200 → rate = max minFps (devideFps fps avgDelay)) ∧
      (200 ≤ avgDelay → rate ≤ minFps) := by
  have hdividend : delayThreshold150ms * minFps < 2 ^ 32 := by
    rw [delayThreshold150ms]
    omega
  have hquotient (h : 300 ≤ avgDelay) : delayThreshold150ms * minFps / avgDelay ≤ minFps :=
    Nat.div_le_of_le_mul (Nat.mul_le_mul_right minFps (by rw [delayThreshold150ms]; omega))
  rw [maxFps] at *
  have hraise {step quick' : Nat} (hstep : step ≤ 5) :
      (do let rate ← add 32 fps step return (max minFps rate, quick') : Except Trap (Nat × Nat)) =
        .ok (max minFps (fps + step), quick') := by
    rw [add_ok (by omega), ok_bind]
    rfl
  unfold bandFps
  rw [mul_ok hdividend, ok_bind]
  by_cases h50 : avgDelay < 50
  · rw [if_pos h50]
    dsimp only
    split_ifs <;> rw [hraise (by omega)] <;>
      exact ⟨_, _, rfl, by omega, fun _ => Nat.le_max_left .., by omega, by omega⟩
  rw [if_neg h50]
  by_cases h100 : avgDelay < 100
  · rw [if_pos h100]
    dsimp only
    split_ifs <;> rw [hraise (by omega)] <;>
      exact ⟨_, _, rfl, by omega, fun _ => Nat.le_max_left .., by omega, by omega⟩
  rw [if_neg h100]
  by_cases h150 : avgDelay < delayThreshold150ms
  · rw [if_pos h150]
    rw [delayThreshold150ms] at h150
    exact ⟨_, _, rfl, by omega, fun _ => Nat.le_max_left .., by omega, by omega⟩
  rw [if_neg h150]
  rw [delayThreshold150ms] at h150
  dsimp only
  have hdevided : devideFps fps avgDelay ≤ 120 :=
    (devideFps_le_iff (by omega)).mpr (Nat.mul_le_mul hfps (by omega))
  by_cases h200 : avgDelay < 200
  · rw [if_pos h200]
    exact ⟨_, _, rfl, by omega, by omega, fun _ _ => rfl, by omega⟩
  rw [if_neg h200]
  by_cases h300 : avgDelay < 300
  · rw [if_pos h300]
    exact ⟨_, _, rfl, by omega, by omega, by omega, fun _ => Nat.min_le_left ..⟩
  have hle := hquotient (by omega)
  rw [if_neg h300, div_ok (by omega)]
  by_cases h600 : avgDelay < 600
  · rw [if_pos h600, ok_bind]
    exact ⟨_, _, rfl, by omega, by omega, by omega, fun _ => hle⟩
  · rw [if_neg h600, ok_bind]
    exact ⟨_, _, rfl, by omega, by omega, by omega, fun _ => (Nat.min_le_left ..).trans hle⟩

end Rate

/-- At least the minimum below 150 ms, as far as the viewers' limits allow it, and at most
the minimum from there on. -/
def InRegime (minFps highestFps avgDelay rate : Nat) : Prop :=
  (avgDelay < 150 → min minFps highestFps ≤ rate) ∧ (150 ≤ avgDelay → rate ≤ minFps)

/-- A delay in the band where the rate is kept at the minimum, which is too high for it. -/
def KeepsRate (minFps highestFps fps avgDelay : Nat) : Prop :=
  150 ≤ avgDelay ∧ avgDelay < 200 ∧ minFps < highestFps ∧ minFps * avgDelay < fps * 150

instance (minFps highestFps fps avgDelay : Nat) :
    Decidable (KeepsRate minFps highestFps fps avgDelay) := inferInstanceAs (Decidable (_ ∧ _))

theorem onNetworkDelay_spec {u : UserData} {minFps highestFps fps delay : Nat} (normalFps : Nat)
    (hu : u.Sound) (hone : 1 ≤ minFps) (hmin : minFps ≤ 12) (hhigh : RustDesk.minFps ≤ highestFps)
    (hfps : fps ≤ maxFps) (hdelay : delay < 2 ^ 24) :
    ∃ d' avg rate,
      u.delay.onNetworkDelay minFps normalFps highestFps fps delay = .ok d' ∧
      d'.delayHistory = (u.delay.addDelay (max delay 10)).delayHistory ∧
      (u.delay.addDelay (max delay 10)).avgDelay = .ok avg ∧
      d'.avgDelay = .ok avg ∧ d'.fps = some rate ∧
      (InRegime minFps highestFps avg rate ↔ ¬KeepsRate minFps highestFps fps avg) := by
  obtain ⟨old, hold⟩ := avgDelay_ok hu.length hu.small
  have hraised : max delay 10 < 2 ^ 24 := by omega
  obtain ⟨hlength, hsmall⟩ := hu.addDelay hraised
  obtain ⟨avg, havg⟩ := avgDelay_ok hlength hsmall
  obtain ⟨rate, quick, hband, hbound, hgood, hmiddle, hbad⟩ :=
    bandFps_spec normalFps old (u.delay.addDelay (max delay 10)).quickIncreaseFpsCount hmin hfps
      (Nat.le_max_right avg 10)
  rw [maxFps] at hbound
  have hclamp (x : Nat) : clamp RustDesk.minFps highestFps x = .ok (max 1 (min highestFps x)) :=
    clamp_ok hhigh
  rw [RustDesk.minFps] at hhigh
  unfold UserDelay.onNetworkDelay
  dsimp only
  rw [hold, ok_bind, havg, ok_bind, hband, ok_bind]
  by_cases h150 : max avg 10 < delayThreshold150ms
  · -- the rate is at least the minimum, and one more after three such delays
    rw [if_pos h150]
    rw [delayThreshold150ms] at h150
    have hrate := hgood h150
    have hregime {x : Nat} (hx : minFps ≤ x) :
        InRegime minFps highestFps avg (max 1 (min highestFps x)) ↔
          ¬KeepsRate minFps highestFps fps avg :=
      iff_of_true ⟨fun _ => by omega, fun _ => by omega⟩ fun hkeeps => by
        have := hkeeps.1
        omega
    by_cases hthree : 3 ≤ (u.delay.addDelay (max delay 10)).increaseFpsCount + 1
    · rw [if_pos hthree, add_ok (by omega), ok_bind, pure_bind, hclamp, ok_bind]
      exact ⟨_, avg, _, rfl, rfl, rfl, havg, rfl, hregime (by omega)⟩
    · rw [if_neg hthree, pure_bind, hclamp, ok_bind]
      exact ⟨_, avg, _, rfl, rfl, rfl, havg, rfl, hregime hrate⟩
  · rw [if_neg h150, if_neg (by decide), pure_bind, hclamp, ok_bind]
    rw [delayThreshold150ms] at h150
    refine ⟨_, avg, _, rfl, rfl, rfl, havg, rfl, ?_⟩
    have havg150 : max avg 10 = avg := Nat.max_eq_left (by omega)
    rw [havg150] at hmiddle hbad
    by_cases h200 : avg < 200
    · have hdevided : devideFps fps avg ≤ minFps ↔ fps * 150 ≤ minFps * avg :=
        devideFps_le_iff (by omega)
      rw [hmiddle (by omega) h200, InRegime, KeepsRate]
      constructor
      · rintro ⟨-, hle⟩ ⟨-, -, habove, hproduct⟩
        have := hle (by omega)
        omega
      · intro hnot
        refine ⟨by omega, fun _ => ?_⟩
        by_cases habove : minFps < highestFps
        · have hsmall : fps * 150 ≤ minFps * avg := by
            by_contra hlarge
            exact hnot ⟨by omega, h200, habove, by omega⟩
          have := hdevided.mpr hsmall
          omega
        · omega
    · have hrate := hbad (by omega)
      refine iff_of_true ⟨by omega, fun _ => by omega⟩ fun hkeeps => ?_
      exact h200 hkeeps.2.1

def QosInput.Small : QosInput → Prop
  | .userNetworkDelay _ delay _ => delay < 2 ^ 24
  | .userDelayResponseElapsed _ elapsed _ => elapsed < 2 ^ 24
  | _ => True

/-- The operations that call `adjust_fps`. -/
def CallsAdjust (s : VideoQoS) : QosInput → Prop
  | .userNetworkDelay .. => True
  | .userDelayResponseElapsed id elapsed _ => s.users.lookup id ≠ none ∧ 2000 < elapsed
  | .updateDisplayData _ => True
  | _ => False

/-- After `user_network_delay`, the rate of that user is in the regime of its delay. -/
def OwnRateInRegime (s s' : VideoQoS) : QosInput → Prop
  | .userNetworkDelay id _ _ => ∀ u, s'.users.lookup id = some u →
      ∃ avg rate, u.delay.avgDelay = .ok avg ∧ u.delay.fps = some rate ∧
        InRegime (fpsRange s.latestQuality.ratio).1 s.highestFps avg rate
  | _ => True

def RatesRight (s : VideoQoS) (i : QosInput) : Prop :=
  ∃ s', s.run i = .ok s' ∧ (CallsAdjust s i → Adjusted s') ∧ OwnRateInRegime s s' i

/-- The delay of an answer does not leave the user's rate above the minimum: with it, the
average is not from 150 ms to 200 ms while the rate divided by it is still above. -/
def LeavesRegime (s : VideoQoS) : QosInput → Prop
  | .userNetworkDelay id delay _ => ∀ u avg, s.users.lookup id = some u →
      (u.delay.addDelay (max delay 10)).avgDelay = .ok avg →
      ¬KeepsRate (fpsRange s.latestQuality.ratio).1 s.highestFps s.fps avg
  | _ => True

section Step

variable {s : VideoQoS} {id : Int}

theorem sound_replace {v : UserData} (id : Int) (h : s.Sound) (hv : v.Sound) :
    VideoQoS.Sound { s with users := s.users.replace id v } := by
  refine ⟨h.fps, fun u hu => ?_⟩
  obtain ⟨e, he, rfl⟩ := mem_map.mp hu
  rcases mem_kreplace he with rfl | hold
  · exact hv
  · exact h.users _ (mem_map_of_mem hold)

theorem sound_modify {f : UserData → UserData} (h : s.Sound) (hf : ∀ u, u.Sound → (f u).Sound) :
    (s.modify id f).Sound := by
  unfold VideoQoS.modify
  cases hlookup : s.users.lookup id with
  | none => exact h
  | some u => exact sound_replace id h (hf u (h.users u (mem_values hlookup)))

theorem sound_open (id : Int) (h : s.Sound) (now : Nat) : (s.onConnectionOpen id now).Sound := by
  refine ⟨h.fps, fun u hu => ?_⟩
  obtain ⟨k, hk⟩ := mem_values_iff.mp hu
  by_cases hid : k = id
  · subst hid
    obtain rfl := Option.some.inj ((AList.lookup_insert s.users).symm.trans hk)
    exact UserData.sound_new
  · exact h.users u (mem_values ((AList.lookup_insert_ne hid).symm.trans hk))

theorem sound_close (h : s.Sound) (now : Nat) : (s.onConnectionClose id now).Sound := by
  unfold VideoQoS.onConnectionClose
  dsimp only
  split_ifs
  · exact VideoQoS.sound_default now
  · refine ⟨h.fps, fun u hu => ?_⟩
    obtain ⟨k, hk⟩ := mem_values_iff.mp hu
    by_cases hid : k = id
    · subst hid
      exact absurd ((AList.lookup_erase k s.users).symm.trans hk) (by simp)
    · exact h.users u (mem_values ((AList.lookup_erase_ne hid).symm.trans hk))

theorem userNetworkDelay_spec (id : Int) (h : s.Sound) {delay : Nat} (hdelay : delay < 2 ^ 24)
    (now : Nat) :
    ∃ s', s.userNetworkDelay id delay now = .ok s' ∧ s'.Sound ∧ Adjusted s' ∧
      (OwnRateInRegime s s' (.userNetworkDelay id delay now) ↔
        LeavesRegime s (.userNetworkDelay id delay now)) := by
  unfold VideoQoS.userNetworkDelay OwnRateInRegime LeavesRegime
  dsimp only
  cases hlookup : s.users.lookup id with
  | none =>
    obtain ⟨fps, hrun, hadjusted, hsound⟩ := adjustFps_spec h now
    refine ⟨_, hrun, hsound, hadjusted, iff_of_true (fun u hu => ?_) (by simp)⟩
    exact absurd (hlookup.symm.trans hu) (by simp)
  | some u =>
    dsimp only
    have hu := h.users u (mem_values hlookup)
    obtain ⟨d', avg, rate, hrun, hhistory, havg, havg', hfps, hregime⟩ :=
      onNetworkDelay_spec (fpsRange s.latestQuality.ratio).2 hu (one_le_fpsRange _)
        (fpsRange_le _) s.one_le_highestFps h.fps hdelay
    have hv : UserData.Sound { u with delay := d' } := by
      have hraised : max delay 10 < 2 ^ 24 := by omega
      have hadd := hu.addDelay hraised
      rw [← hhistory] at hadd
      exact ⟨hu.customFps, hu.autoAdjustFps, hadd.1, hadd.2⟩
    obtain ⟨fps, hadjust, hadjusted, hsound⟩ := adjustFps_spec (sound_replace id h hv) now
    rw [hrun, ok_bind, pure_bind]
    refine ⟨_, hadjust, hsound, hadjusted, ?_⟩
    constructor
    · intro hown u₁ avg₁ hu₁ havg₁
      cases hu₁
      obtain rfl : avg = avg₁ := Except.ok.inj (havg.symm.trans havg₁)
      obtain ⟨a, r, ha, hr, hin⟩ := hown _ (lookup_replace hlookup)
      obtain rfl : avg = a := Except.ok.inj (havg'.symm.trans ha)
      obtain rfl : rate = r := Option.some.inj (hfps.symm.trans hr)
      exact hregime.mp hin
    · intro hleaves u₁ hu₁
      obtain rfl := Option.some.inj ((lookup_replace hlookup).symm.trans hu₁)
      exact ⟨avg, rate, havg', hfps, hregime.mpr (hleaves u avg rfl havg)⟩

theorem userDelayResponseElapsed_spec (id : Int) (h : s.Sound) {elapsed : Nat}
    (helapsed : elapsed < 2 ^ 24) (now : Nat) :
    ∃ s', s.userDelayResponseElapsed id elapsed now = .ok s' ∧ s'.Sound ∧
      (s.users.lookup id ≠ none ∧ 2000 < elapsed → Adjusted s') := by
  unfold VideoQoS.userDelayResponseElapsed
  cases hlookup : s.users.lookup id with
  | none => exact ⟨s, rfl, h, fun hcalls => absurd rfl hcalls.1⟩
  | some u =>
    have hu := h.users u (mem_values hlookup)
    dsimp only
    by_cases hdelayed : 2000 < elapsed
    · have hwrapped : elapsed % 2 ^ 32 < 2 ^ 24 := by omega
      have hadd := hu.addDelay hwrapped
      have hv : UserData.Sound { u with
          delay := UserDelay.addDelay { u.delay with responseDelayed := true }
            (elapsed % 2 ^ 32) } :=
        ⟨hu.customFps, hu.autoAdjustFps, hadd.1, hadd.2⟩
      obtain ⟨fps, hadjust, hadjusted, hsound⟩ := adjustFps_spec (sound_replace id h hv) now
      rw [decide_eq_true hdelayed, if_pos hdelayed, if_pos hdelayed]
      exact ⟨_, hadjust, hsound, fun _ => hadjusted⟩
    · have hv : UserData.Sound { u with delay := { u.delay with responseDelayed := false } } :=
        ⟨hu.customFps, hu.autoAdjustFps, hu.length, hu.small⟩
      rw [decide_eq_false hdelayed, if_neg hdelayed, if_neg hdelayed]
      exact ⟨_, rfl, sound_replace id h hv, fun hcalls => absurd hcalls.2 hdelayed⟩

theorem run_spec (h : s.Sound) (i : QosInput) (hi : i.Small) :
    ∃ s', s.run i = .ok s' ∧ s'.Sound ∧ (CallsAdjust s i → Adjusted s') ∧
      (OwnRateInRegime s s' i ↔ LeavesRegime s i) := by
  cases i with
  | onConnectionOpen id now => exact ⟨_, rfl, sound_open id h now, False.elim, Iff.rfl⟩
  | onConnectionClose id now => exact ⟨_, rfl, sound_close h now, False.elim, Iff.rfl⟩
  | userCustomFps id fps =>
    refine ⟨_, rfl, ?_, False.elim, Iff.rfl⟩
    unfold VideoQoS.userCustomFps
    split_ifs with hrange
    · exact h
    · refine sound_modify h fun u hu => ⟨fun x hx => ?_, hu.autoAdjustFps, hu.length, hu.small⟩
      cases hx
      omega
  | userAutoAdjustFps id fps =>
    refine ⟨_, rfl, ?_, False.elim, Iff.rfl⟩
    unfold VideoQoS.userAutoAdjustFps
    split_ifs with hrange
    · exact h
    · refine sound_modify h fun u hu => ⟨hu.customFps, fun x hx => ?_, hu.length, hu.small⟩
      cases hx
      omega
  | userImageQuality id imageQuality time =>
    exact ⟨_, rfl, sound_modify h fun u hu =>
      ⟨hu.customFps, hu.autoAdjustFps, hu.length, hu.small⟩, False.elim, Iff.rfl⟩
  | userNetworkDelay id delay now =>
    obtain ⟨s', hrun, hsound, hadjusted, hown⟩ := userNetworkDelay_spec id h hi now
    exact ⟨s', hrun, hsound, fun _ => hadjusted, hown⟩
  | userDelayResponseElapsed id elapsed now =>
    obtain ⟨s', hrun, hsound, hadjusted⟩ := userDelayResponseElapsed_spec id h hi now
    exact ⟨s', hrun, hsound, hadjusted, Iff.rfl⟩
  | updateDisplayData now =>
    obtain ⟨fps, hrun, hadjusted, hsound⟩ := adjustFps_spec h now
    exact ⟨_, hrun, hsound, fun _ => hadjusted, Iff.rfl⟩
  | reorder users =>
    unfold VideoQoS.run
    dsimp only
    split_ifs with hperm
    · refine ⟨_, rfl, ⟨h.fps, fun u hu => h.users u ?_⟩, False.elim, Iff.rfl⟩
      exact (hperm.map Sigma.snd).mem_iff.mp hu
    · exact ⟨s, rfl, h, False.elim, Iff.rfl⟩

theorem step_sound (h : s.Sound) {i : QosInput} (hi : i.Small) : (s.step i).Sound := by
  obtain ⟨s', hrun, hsound, -, -⟩ := run_spec h i hi
  rw [VideoQoS.step, hrun]
  exact hsound

theorem ratesRight_iff (h : s.Sound) {i : QosInput} (hi : i.Small) :
    RatesRight s i ↔ LeavesRegime s i := by
  obtain ⟨s', hrun, -, hadjusted, hown⟩ := run_spec h i hi
  constructor
  · rintro ⟨s₁, hrun₁, -, hown₁⟩
    obtain rfl : s' = s₁ := Except.ok.inj (hrun.symm.trans hrun₁)
    exact hown.mp hown₁
  · intro hleaves
    exact ⟨s', hrun, hadjusted, hown.mpr hleaves⟩

end Step

/-- **The rates.**  Whatever is done with a video service, as long as the delays are small:
every operation leaves the rates as they are to be exactly if no answer keeps a user's rate
above the minimum from 150 ms to 200 ms. -/
theorem rates_right_iff (now : Nat) (is : List QosInput) (hsmall : ∀ i ∈ is, i.Small) :
    Along VideoQoS.step RatesRight (.default now) is ↔
      Along VideoQoS.step LeavesRegime (.default now) is := by
  have hruns : ∀ (is : List QosInput) (s : VideoQoS), s.Sound → (∀ i ∈ is, i.Small) →
      (Along VideoQoS.step RatesRight s is ↔ Along VideoQoS.step LeavesRegime s is) := by
    intro is
    induction is with
    | nil => exact fun _ _ _ => Iff.rfl
    | cons i is ih =>
      intro s hs hsmall
      obtain ⟨hi, his⟩ := forall_mem_cons.mp hsmall
      exact and_congr (ratesRight_iff hs hi) (ih _ (step_sound hs hi) his)
  exact hruns is _ (VideoQoS.sound_default now) hsmall

def quickViewer : List QosInput := [.onConnectionOpen 1 0, .userNetworkDelay 1 20 (2 * 10 ^ 9)]

theorem quick_viewer_right : Along VideoQoS.step RatesRight (.default 0) quickViewer := by
  refine (rates_right_iff 0 quickViewer ?_).mpr ⟨trivial, ?_, trivial⟩
  · intro i hi
    rcases mem_cons.mp hi with rfl | hi
    · trivial
    · rw [mem_singleton.mp hi]
      exact (by decide : 20 < 2 ^ 24)
  · intro u avg hu havg
    obtain rfl : {} = u := Option.some.inj hu
    obtain rfl : 20 = avg := Except.ok.inj havg
    decide

def slowViewer : List QosInput := [.onConnectionOpen 1 0, .userNetworkDelay 1 150 0]

/-- Its rate stays 30, with a minimum of 10. -/
theorem slow_viewer_keeps_rate :
    (∀ i ∈ slowViewer, i.Small) ∧ ¬Along VideoQoS.step RatesRight (.default 0) slowViewer := by
  have hsmall : QosInput.Small (.userNetworkDelay 1 150 0) := (by decide : 150 < 2 ^ 24)
  constructor
  · intro i hi
    rcases mem_cons.mp hi with rfl | hi
    · trivial
    · rw [mem_singleton.mp hi]
      exact hsmall
  · intro h
    have hsound := sound_open 1 (VideoQoS.sound_default 0) 0
    have hleaves := (ratesRight_iff hsound hsmall).mp h.2.1
    exact hleaves {} 150 rfl rfl (by decide)

end RustDesk
