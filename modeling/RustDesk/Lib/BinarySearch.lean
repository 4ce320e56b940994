import Mathlib.Algebra.Group.Int.Defs
import Mathlib.Algebra.Group.Nat.Defs
import Mathlib.Order.Lattice

/-!
# Binary search

The search of a sorted slice: the part that may hold the element is halved until one
candidate is left, which is then compared.  On a strictly increasing list the search is
exact (`search_eq_ok_iff`): it finds an element exactly where it is.
-/

namespace BinarySearch

variable {α : Type*} [LinearOrder α]

/-- Halve the part of `size` elements from `base` on, so many times at most. -/
def narrow (xs : List α) (x : α) : Nat → Nat → Nat → Nat
  | 0, base, _ => base
  | steps + 1, base, size =>
    if size ≤ 1 then base
    else
      let mid := base + size / 2
      match xs[mid]? with
      | some y => narrow xs x steps (if x < y then base else mid) (size - size / 2)
      | none => base

def search (xs : List α) (x : α) : Except Nat Nat :=
  let base := narrow xs x xs.length 0 xs.length
  match xs[base]? with
  | some y => if y = x then .ok base else if y < x then .error (base + 1) else .error base
  | none => .error 0

variable {xs : List α} {x : α}

theorem lt_of_getElem? (h : xs.Pairwise (· < ·)) {i j : Nat} {y z : α} (hy : xs[i]? = some y)
    (hz : xs[j]? = some z) (hle : y ≤ z) : i ≤ j := by
  obtain ⟨hi, rfl⟩ := List.getElem?_eq_some_iff.mp hy
  obtain ⟨hj, rfl⟩ := List.getElem?_eq_some_iff.mp hz
  by_contra hlt
  exact absurd (List.pairwise_iff_getElem.mp h j i hj hi (Nat.lt_of_not_le hlt)) hle.not_gt

theorem narrow_spec (h : xs.Pairwise (· < ·)) (steps base size : Nat) (hpos : 0 < size)
    (hsteps : size ≤ steps + 1) (hsize : base + size ≤ xs.length) {i : Nat}
    (hx : xs[i]? = some x) (hbase : base ≤ i) (hi : i < base + size) :
    narrow xs x steps base size = i := by
  induction steps generalizing base size with
  | zero =>
    rw [narrow]
    omega
  | succ steps ih =>
    rw [narrow]
    by_cases hone : size ≤ 1
    · rw [if_pos hone]
      omega
    · rw [if_neg hone]
      have hmid : base + size / 2 < xs.length := by omega
      have hget : xs[base + size / 2]? = some xs[base + size / 2] := List.getElem?_eq_getElem hmid
      simp only [hget]
      by_cases hlt : x < xs[base + size / 2]
      · rw [if_pos hlt]
        have hle := lt_of_getElem? h hx hget hlt.le
        have hne : i ≠ base + size / 2 := by
          rintro rfl
          exact absurd (Option.some.inj (hget.symm.trans hx)) hlt.ne'
        exact ih base (size - size / 2) (by omega) (by omega) (by omega) hbase (by omega)
      · rw [if_neg hlt]
        have hle := lt_of_getElem? h hget hx (not_lt.mp hlt)
        exact ih (base + size / 2) (size - size / 2) (by omega) (by omega) (by omega) hle (by omega)

theorem search_eq_ok_iff (h : xs.Pairwise (· < ·)) {i : Nat} :
    search xs x = .ok i ↔ xs[i]? = some x := by
  unfold search
  constructor
  · intro hsearch
    dsimp only at hsearch
    split at hsearch
    · rename_i y hy
      split_ifs at hsearch with heq
      cases hsearch
      rw [hy, heq]
    · cases hsearch
  · intro hx
    have hlen : i < xs.length := (List.getElem?_eq_some_iff.mp hx).1
    have hnarrow := narrow_spec h xs.length 0 xs.length (by omega) (by omega) (by omega) hx
      (Nat.zero_le i) (by omega)
    dsimp only
    rw [hnarrow, hx]
    simp

theorem isOk_search (h : xs.Pairwise (· < ·)) : (search xs x).isOk ↔ x ∈ xs := by
  constructor
  · intro hok
    cases hsearch : search xs x with
    | ok i => exact List.mem_of_getElem? ((search_eq_ok_iff h).mp hsearch)
    | error i =>
      rw [hsearch] at hok
      cases hok
  · intro hmem
    obtain ⟨i, hi⟩ := List.mem_iff_getElem?.mp hmem
    rw [(search_eq_ok_iff h).mpr hi]
    rfl

end BinarySearch
