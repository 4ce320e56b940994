import Mathlib.Data.List.Nodup

/-!
# Trees given by their parents

A list of parents: at each position stands the position of the parent, or nothing.  In a
`Rooted` list the first position has no parent, and every other has an earlier one; it is a
tree with the first position as its root (`Rooted.induct`).

`childrenOf` are the positions with a parent, in order.
-/

namespace ParentTree

open List

variable {ps : List (Option Nat)} {p i : Nat} {q : Option Nat}

/-- The positions whose parent is `p`. -/
def childrenOf (ps : List (Option Nat)) (p : Nat) : List Nat :=
  (List.range ps.length).filter fun i => ps[i]? = some (some p)

theorem mem_childrenOf : i ∈ childrenOf ps p ↔ ps[i]? = some (some p) := by
  simp only [childrenOf, mem_filter, mem_range, decide_eq_true_eq, and_iff_right_iff_imp]
  exact fun h => (List.getElem?_eq_some_iff.mp h).1

theorem nodup_childrenOf : (childrenOf ps p).Nodup := nodup_range.filter _

theorem childrenOf_concat :
    childrenOf (ps ++ [q]) p = childrenOf ps p ++ if q = some p then [ps.length] else [] := by
  have hold : ∀ i ∈ List.range ps.length,
      decide ((ps ++ [q])[i]? = some (some p)) = decide (ps[i]? = some (some p)) := by
    intro i hi
    rw [List.getElem?_append_left (mem_range.mp hi)]
  rw [childrenOf, length_append, length_singleton, range_succ, filter_append, filter_congr hold]
  refine congrArg (childrenOf ps p ++ ·) ?_
  by_cases hq : q = some p <;> simp [hq]

structure Rooted (ps : List (Option Nat)) : Prop where
  root : ps[0]? = some none
  earlier : ∀ i q, ps[i + 1]? = some q → ∃ p, q = some p ∧ p ≤ i

theorem Rooted.singleton : Rooted [none] := ⟨rfl, nofun⟩

theorem Rooted.concat (h : Rooted ps) (hp : p < ps.length) : Rooted (ps ++ [some p]) := by
  refine ⟨?_, fun i q hq => ?_⟩
  · rw [List.getElem?_append_left (by omega)]
    exact h.root
  · by_cases hi : i + 1 < ps.length
    · rw [List.getElem?_append_left hi] at hq
      exact h.earlier i q hq
    · have hlast : i + 1 = ps.length := by
        have := (List.getElem?_eq_some_iff.mp hq).1
        rw [length_append, length_singleton] at this
        omega
      rw [hlast, List.getElem?_concat_length] at hq
      exact ⟨p, (Option.some.inj hq).symm, by omega⟩

theorem Rooted.parent_lt (h : Rooted ps) (hi : ps[i]? = some (some p)) : p < i := by
  cases i with
  | zero =>
    rw [h.root] at hi
    cases hi
  | succ i =>
    obtain ⟨p', heq, hle⟩ := h.earlier i _ hi
    cases heq
    omega

theorem Rooted.childrenOf_length (h : Rooted ps) : childrenOf ps ps.length = [] := by
  refine eq_nil_iff_forall_not_mem.mpr fun i hi => ?_
  have hparent := mem_childrenOf.mp hi
  have hlt := h.parent_lt hparent
  have hi' := (List.getElem?_eq_some_iff.mp hparent).1
  omega

/-- **Induction from the root**: what holds of the first position, and of a position if it
holds of its parent, holds of all. -/
theorem Rooted.induct (h : Rooted ps) {P : Nat → Prop} (root : P 0)
    (below : ∀ i p, ps[i]? = some (some p) → P p → P i) : ∀ i < ps.length, P i := by
  intro i
  induction i using Nat.strongRecOn with
  | ind i ih =>
    intro hi
    cases i with
    | zero => exact root
    | succ i =>
      obtain ⟨p, hp, hle⟩ := h.earlier i _ (List.getElem?_eq_getElem hi)
      refine below (i + 1) p ?_ (ih p (by omega) (by omega))
      rw [List.getElem?_eq_getElem hi, hp]

end ParentTree
