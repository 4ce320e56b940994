import Mathlib.Data.List.Basic

/-!
# Common prefixes

`common a b` counts how far two lists agree.  They agree on their first `m` entries, both
having as many, exactly when `m` is no more (`take_eq_take_iff`).
-/

namespace CommonPrefix

open List

variable {α : Type*} [DecidableEq α]

def common : List α → List α → Nat
  | x :: a, y :: b => if x = y then common a b + 1 else 0
  | _, _ => 0

@[simp] theorem common_nil_left (b : List α) : common [] b = 0 := by
  cases b <;> rfl

@[simp] theorem common_nil_right (a : List α) : common a [] = 0 := by
  cases a <;> rfl

theorem common_cons_self (x : α) (a b : List α) : common (x :: a) (x :: b) = common a b + 1 := by
  rw [common, if_pos rfl]

theorem common_le (a b : List α) : common a b ≤ a.length ∧ common a b ≤ b.length := by
  induction a generalizing b with
  | nil => simp
  | cons x a ih =>
    cases b with
    | nil => simp
    | cons y b =>
      have hle := ih b
      rw [common]
      split <;> simp only [length_cons] <;> omega

theorem take_eq_take_iff {a b : List α} {m : Nat} (ha : m ≤ a.length)
    (hb : m ≤ b.length) : a.take m = b.take m ↔ m ≤ common a b := by
  induction m generalizing a b with
  | zero => simp
  | succ m ih =>
    cases a with
    | nil => simp at ha
    | cons x a =>
      cases b with
      | nil => simp at hb
      | cons y b =>
        rw [length_cons, Nat.succ_le_succ_iff] at ha hb
        rw [take_succ_cons, take_succ_cons, cons.injEq, ih ha hb, common]
        by_cases hxy : x = y <;> simp [hxy]

theorem common_drop {a b : List α} {k : Nat} (h : k ≤ common a b) :
    k + common (a.drop k) (b.drop k) = common a b := by
  induction k generalizing a b with
  | zero => simp
  | succ k ih =>
    cases a with
    | nil => simp at h
    | cons x a =>
      cases b with
      | nil => simp at h
      | cons y b =>
        by_cases hxy : x = y
        · subst hxy
          rw [common_cons_self] at h ⊢
          have hind := ih (Nat.le_of_succ_le_succ h)
          rw [drop_succ_cons, drop_succ_cons]
          omega
        · rw [common, if_neg hxy] at h
          omega

end CommonPrefix
