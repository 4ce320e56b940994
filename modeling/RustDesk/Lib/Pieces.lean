import Mathlib.Tactic.Common

/-!
# Cutting a list into pieces

`pieces n xs` cuts a list into pieces of `n` elements, the last one possibly
shorter.  The pieces put together are the list, none of them is empty, and a copy
in which some pieces are missing is the list only if none is.
-/

namespace Pieces

open List

variable {α : Type}

def pieces (n : Nat) (xs : List α) : List (List α) :=
  if n = 0 ∨ xs = [] then [] else xs.take n :: pieces n (xs.drop n)
termination_by xs.length
decreasing_by
  rename_i h
  have := length_pos_iff.mpr (fun hx => h (Or.inr hx))
  grind

@[simp] theorem pieces_nil (n : Nat) : pieces n ([] : List α) = [] := by
  rw [pieces]
  simp

variable {n : Nat}

theorem pieces_cons (hn : 0 < n) {xs : List α} (hx : xs ≠ []) :
    pieces n xs = xs.take n :: pieces n (xs.drop n) := by
  rw [pieces, if_neg (by simp [hx]; omega)]

theorem drop_induction (hn : 0 < n) {motive : List α → Prop} (nil : motive [])
    (cons : ∀ xs, xs ≠ [] → motive (xs.drop n) → motive xs) (xs : List α) : motive xs := by
  generalize hk : xs.length = k
  induction k using Nat.strongRecOn generalizing xs with
  | ind k ih =>
    by_cases hx : xs = []
    · exact hx ▸ nil
    · have hpos := length_pos_iff.mpr hx
      exact cons xs hx (ih (xs.drop n).length (by simp; omega) _ rfl)

theorem flatten_pieces (hn : 0 < n) (xs : List α) : (pieces n xs).flatten = xs := by
  induction xs using drop_induction hn with
  | nil => simp
  | cons xs hx ih => rw [pieces_cons hn hx, flatten_cons, ih, take_append_drop]

theorem ne_nil_of_mem_pieces (hn : 0 < n) {xs p : List α} (hp : p ∈ pieces n xs) : p ≠ [] := by
  induction xs using drop_induction hn with
  | nil => simp at hp
  | cons xs hx ih =>
    rw [pieces_cons hn hx] at hp
    rcases mem_cons.mp hp with rfl | hmem
    · have := length_pos_iff.mpr hx
      apply ne_nil_of_length_pos
      simp
      omega
    · exact ih hmem

/-- **Nothing may be missing.**  If each piece arrives whole or not at all, the parts
make up the list exactly when all arrive. -/
theorem flatten_eq_iff {ps qs : List (List α)} (hne : ∀ p ∈ ps, p ≠ [])
    (h : List.Forall₂ (fun q p => q = p ∨ q = []) qs ps) : qs.flatten = ps.flatten ↔ qs = ps := by
  refine ⟨fun heq => ?_, fun heq => heq ▸ rfl⟩
  have hle : ∀ {qs ps : List (List α)}, List.Forall₂ (fun q p => q = p ∨ q = []) qs ps →
      qs.flatten.length ≤ ps.flatten.length := by
    intro qs ps h
    induction h with
    | nil => simp
    | cons hqp _ ih =>
      simp only [flatten_cons, length_append]
      rcases hqp with rfl | rfl
      · omega
      · rw [length_nil]
        omega
  induction h with
  | nil => rfl
  | @cons q p qs ps hqp hrest ih =>
    have hp := length_pos_iff.mpr (hne p (mem_cons_self ..))
    rcases hqp with rfl | rfl
    · simp only [flatten_cons, append_cancel_left_eq] at heq
      rw [ih (fun p hp => hne p (mem_cons_of_mem _ hp)) heq]
    · have hshort := hle hrest
      have hlen := congrArg List.length heq
      simp only [flatten_cons, nil_append, length_append] at hlen
      omega

theorem notMem_of_mem_splitOn [BEq α] [LawfulBEq α] {sep : α} {xs p : List α}
    (h : p ∈ xs.splitOn sep) : sep ∉ p := by
  induction xs generalizing p with
  | nil =>
    obtain rfl : p = [] := by simpa using h
    exact not_mem_nil
  | cons x xs ih =>
    rw [splitOn_cons_eq_if_modifyHead] at h
    by_cases hx : x = sep
    · rw [if_pos (beq_iff_eq.mpr hx)] at h
      rcases mem_cons.mp h with rfl | h
      · exact not_mem_nil
      · exact ih h
    · rw [if_neg (fun heq => hx (beq_iff_eq.mp heq))] at h
      obtain ⟨head, tail, hxs⟩ := exists_cons_of_ne_nil (splitOn_ne_nil sep xs)
      rw [hxs, modifyHead_cons] at h
      rcases mem_cons.mp h with rfl | h
      · have hhead := ih (p := head) (by simp [hxs])
        simp [hhead, Ne.symm hx]
      · exact ih (by simp [hxs, h])

end Pieces
