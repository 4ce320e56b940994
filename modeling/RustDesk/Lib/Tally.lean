import Mathlib.Data.List.Nodup
import Mathlib.Data.List.MinMax

/-!
# Counting votes

`tally` counts how often each element occurs in a list, in the order in which the elements
occur first; `mostFrequent` is the first one with the largest count.

No element is more frequent than it.  Among equally frequent ones it is the one that occurs
first, so that the order of the list decides.
-/

namespace Tally

open List

variable {α : Type*} [DecidableEq α]

def add : List (α × Nat) → α → List (α × Nat)
  | [], x => [(x, 1)]
  | (y, n) :: t, x => if y = x then (y, n + 1) :: t else (y, n) :: add t x

def tally (l : List α) : List (α × Nat) := l.foldl add []

def maxCount (t : List (α × Nat)) : Nat := (t.map (·.2)).foldl max 0

def mostFrequent (l : List α) : Option α :=
  ((tally l).find? fun e => e.2 = maxCount (tally l)).map (·.1)

theorem keys_add (t : List (α × Nat)) (x : α) :
    (add t x).map (·.1) = if x ∈ t.map (·.1) then t.map (·.1) else t.map (·.1) ++ [x] := by
  induction t with
  | nil => rfl
  | cons e t ih =>
    obtain ⟨y, n⟩ := e
    rw [add]
    by_cases hy : y = x
    · simp [hy]
    · rw [if_neg hy, map_cons, ih]
      have hx : x ≠ y := fun h => hy h.symm
      by_cases hmem : x ∈ t.map (·.1)
      · rw [if_pos hmem, if_pos (by simp only [map_cons]; exact mem_cons_of_mem y hmem)]
        rfl
      · rw [if_neg hmem, if_neg (by simpa [hx] using hmem)]
        rfl

theorem mem_add {t : List (α × Nat)} (hnodup : (t.map (·.1)).Nodup) {x y : α} {n : Nat} :
    (y, n) ∈ add t x ↔
      if y = x then (n = 1 ∧ x ∉ t.map (·.1)) ∨ ∃ m, (x, m) ∈ t ∧ n = m + 1 else (y, n) ∈ t := by
  induction t with
  | nil =>
    by_cases hy : y = x
    · simp [add, hy]
    · simp [add, hy]
  | cons e t ih =>
    obtain ⟨z, m⟩ := e
    rw [map_cons, nodup_cons] at hnodup
    have hmem : ∀ k, (z, k) ∉ t := fun k hk => hnodup.1 (mem_map_of_mem (f := (·.1)) hk)
    rw [add]
    by_cases hz : z = x
    · subst hz
      rw [if_pos rfl]
      by_cases hy : y = z
      · subst hy
        simp [hmem]
      · simp [hy]
    · have hx : x ≠ z := fun h => hz h.symm
      rw [if_neg hz, mem_cons, ih hnodup.2]
      by_cases hy : y = x
      · subst hy
        simp [hx]
      · simp [hy]

/-- **The counts are right**, each element is counted once, and the first one comes first. -/
theorem tally_spec (l : List α) :
    ((tally l).map (·.1)).Nodup ∧
      (∀ x n, (x, n) ∈ tally l ↔ x ∈ l ∧ n = l.count x) ∧
      ((tally l).map (·.1)).head? = l.head? := by
  induction l using List.reverseRecOn with
  | nil => exact ⟨nodup_nil, fun x n => by simp [tally], rfl⟩
  | append_singleton l x ih =>
    obtain ⟨hnodup, hcount, hhead⟩ := ih
    have htally : tally (l ++ [x]) = add (tally l) x := by simp [tally, foldl_append]
    have hkeys : ∀ y, y ∈ (tally l).map (·.1) ↔ y ∈ l := by
      intro y
      simp [hcount]
    rw [htally]
    refine ⟨?_, fun y n => ?_, ?_⟩
    · rw [keys_add]
      split_ifs with hmem
      · exact hnodup
      · refine nodup_append.mpr ⟨hnodup, nodup_singleton x, fun y hy z hz heq => ?_⟩
        rw [heq, mem_singleton.mp hz] at hy
        exact hmem hy
    · rw [mem_add hnodup, hkeys, count_append, mem_append, mem_singleton]
      by_cases hy : y = x
      · subst hy
        rw [if_pos rfl]
        have hone : List.count y [y] = 1 := by simp
        rw [hone]
        constructor
        · rintro (⟨rfl, hno⟩ | ⟨m, hm, rfl⟩)
          · exact ⟨.inr rfl, by rw [count_eq_zero_of_not_mem hno]⟩
          · exact ⟨.inr rfl, by rw [((hcount y m).mp hm).2]⟩
        · rintro ⟨-, rfl⟩
          by_cases hmem : y ∈ l
          · exact .inr ⟨_, (hcount y _).mpr ⟨hmem, rfl⟩, rfl⟩
          · exact .inl ⟨by rw [count_eq_zero_of_not_mem hmem], hmem⟩
      · have hzero : List.count y [x] = 0 := by simp [Ne.symm hy]
        rw [if_neg hy, hcount, hzero]
        simp [hy]
    · rw [keys_add]
      cases l with
      | nil => simp [tally]
      | cons z l =>
        have hne : (tally (z :: l)).map (·.1) ≠ [] := by
          intro hnil
          rw [hnil] at hhead
          cases hhead
        split_ifs
        · rw [hhead]
          rfl
        · rw [List.head?_append_of_ne_nil _ hne, hhead]
          rfl

theorem le_foldl_max (l : List Nat) (m : Nat) :
    m ≤ l.foldl max m ∧ (∀ n ∈ l, n ≤ l.foldl max m) ∧ (l.foldl max m = m ∨ l.foldl max m ∈ l) := by
  induction l generalizing m with
  | nil => exact ⟨Nat.le_refl m, nofun, .inl rfl⟩
  | cons k l ih =>
    obtain ⟨hfirst, hrest, hwhich⟩ := ih (max m k)
    rw [foldl_cons]
    refine ⟨by omega, fun n hn => ?_, ?_⟩
    · rcases mem_cons.mp hn with rfl | hn
      · omega
      · exact hrest n hn
    · rcases hwhich with heq | hmem
      · rcases Nat.le_total m k with hle | hle
        · exact .inr (mem_cons.mpr (.inl (by omega)))
        · exact .inl (by omega)
      · exact .inr (mem_cons_of_mem k hmem)

theorem count_le_maxCount (l : List α) (x : α) : l.count x ≤ maxCount (tally l) := by
  by_cases hmem : x ∈ l
  · have hx := ((tally_spec l).2.1 x (l.count x)).mpr ⟨hmem, rfl⟩
    exact (le_foldl_max _ 0).2.1 _ (mem_map_of_mem (f := (·.2)) hx)
  · rw [count_eq_zero_of_not_mem hmem]
    exact Nat.zero_le _

variable {l : List α}

theorem mostFrequent_eq_some {x : α} (h : mostFrequent l = some x) :
    x ∈ l ∧ ∀ y, l.count y ≤ l.count x := by
  obtain ⟨⟨x, n⟩, hfind, rfl⟩ := Option.map_eq_some_iff.mp h
  have hmax : n = maxCount (tally l) := by simpa using List.find?_some hfind
  obtain ⟨hmem, hcount⟩ := ((tally_spec l).2.1 x n).mp (mem_of_find?_eq_some hfind)
  refine ⟨hmem, fun y => ?_⟩
  have := count_le_maxCount l y
  dsimp only
  omega

theorem mostFrequent_eq_none : mostFrequent l = none ↔ l = [] := by
  constructor
  · intro h
    by_contra hne
    obtain ⟨x, hx⟩ := exists_mem_of_ne_nil l hne
    have hcounted := ((tally_spec l).2.1 x (l.count x)).mpr ⟨hx, rfl⟩
    rw [mostFrequent, Option.map_eq_none_iff, List.find?_eq_none] at h
    rcases (le_foldl_max ((tally l).map (·.2)) 0).2.2 with hzero | hmem
    · have hle := (le_foldl_max ((tally l).map (·.2)) 0).2.1 _
        (mem_map_of_mem (f := (·.2)) hcounted)
      have := count_pos_iff.mpr hx
      dsimp only at hle
      omega
    · obtain ⟨e, he, heq⟩ := mem_map.mp hmem
      exact h e he (decide_eq_true heq)
  · rintro rfl
    rfl

/-- **The order decides**: an element that nothing outnumbers is chosen if it comes first. -/
theorem mostFrequent_cons {x : α}
    (h : ∀ y, (x :: l).count y ≤ (x :: l).count x) : mostFrequent (x :: l) = some x := by
  obtain ⟨-, hcount, hhead⟩ := tally_spec (x :: l)
  cases htally : tally (x :: l) with
  | nil =>
    rw [htally] at hhead
    cases hhead
  | cons e t =>
    obtain ⟨y, n⟩ := e
    rw [htally] at hhead
    obtain rfl : y = x := by simpa using hhead
    have hn := ((hcount y n).mp (by rw [htally]; exact mem_cons_self)).2
    have hmax : maxCount (tally (y :: l)) = n := by
      refine Nat.le_antisymm ?_ ?_
      · rcases (le_foldl_max ((tally (y :: l)).map (·.2)) 0).2.2 with hzero | hmem
        · unfold maxCount
          omega
        · obtain ⟨⟨z, m⟩, he, heq⟩ := mem_map.mp hmem
          have hz := ((hcount z m).mp he).2
          unfold maxCount
          rw [← heq, hn, hz]
          exact h z
      · rw [hn]
        exact count_le_maxCount _ _
    rw [mostFrequent, hmax, htally]
    simp

end Tally
