import Mathlib.Algebra.BigOperators.Fin
import Mathlib.Algebra.Order.BigOperators.Group.Finset

/-!
# Counting slots

`n` parties hold one value each; `count p f` is how many of them hold a value with
the property `p`.  When one party changes its value, the count changes by what
that party contributed (`count_update`).
-/

namespace Slots

variable {α : Type*} {n : Nat}

/-- How many slots hold a value with the property `p`. -/
def count (p : α → Bool) (f : Fin n → α) : Nat := ∑ i, (p (f i)).toNat

theorem count_le (p : α → Bool) (f : Fin n → α) : count p f ≤ n := by
  have h : ∀ i ∈ Finset.univ, (p (f i)).toNat ≤ 1 := fun i _ => Bool.toNat_le _
  simpa [count] using Finset.sum_le_card_nsmul _ _ 1 h

theorem count_mono {p q : α → Bool} (h : ∀ x, p x = true → q x = true) (f : Fin n → α) :
    count p f ≤ count q f := by
  refine Finset.sum_le_sum fun i _ => ?_
  cases hp : p (f i) with
  | false => exact Nat.zero_le _
  | true => simp [h _ hp]

theorem count_update (p : α → Bool) (f : Fin n → α) (i : Fin n) (x : α) :
    count p (Function.update f i x) + (p (f i)).toNat = count p f + (p x).toNat := by
  have hrest : ∑ j ∈ Finset.univ.erase i, (p (Function.update f i x j)).toNat =
      ∑ j ∈ Finset.univ.erase i, (p (f j)).toNat := by
    refine Finset.sum_congr rfl fun j hj => ?_
    rw [Function.update_of_ne (Finset.ne_of_mem_erase hj)]
  have hsplit := fun g : Fin n → α =>
    Finset.add_sum_erase Finset.univ (fun j => (p (g j)).toNat) (Finset.mem_univ i)
  have hnew := hsplit (Function.update f i x)
  have hold := hsplit f
  rw [hrest, Function.update_self] at hnew
  unfold count
  omega

theorem count_eq_zero {p : α → Bool} {f : Fin n → α} (h : ∀ i, p (f i) = false) :
    count p f = 0 := by
  simp [count, h]

end Slots
