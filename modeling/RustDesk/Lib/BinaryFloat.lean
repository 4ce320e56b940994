import Mathlib.Algebra.Group.Int.Defs
import Mathlib.Algebra.Group.Nat.Defs
import Mathlib.Data.Nat.Size
import Mathlib.Tactic.Common

/-!
# Rounding to so many binary digits

A binary floating-point format keeps a number of significant digits.  `roundTo p n` is the
nearest number that has at most `p` of them, and of two that are equally near the even one.
Numbers of at most `p` digits are kept; a number of one digit more is kept or moved to a
neighbour, and it is moved up exactly if its last two digits are ones.
-/

namespace BinaryFloat

variable {p n : Nat}

/-- The nearest number of at most `p` significant digits, the even one of two. -/
def roundTo (p n : Nat) : Nat :=
  let unit := 2 ^ (n.size - p)
  let q := n / unit
  let r := n % unit
  (if unit < 2 * r ∨ 2 * r = unit ∧ q % 2 = 1 then q + 1 else q) * unit

theorem roundTo_of_lt (h : n < 2 ^ p) : roundTo p n = n := by
  have hsize : n.size - p = 0 := Nat.sub_eq_zero_of_le (Nat.size_le.mpr h)
  simp only [roundTo, hsize, Nat.pow_zero, Nat.div_one, Nat.mod_one, Nat.mul_one]
  rw [if_neg (by omega)]

theorem roundTo_of_lt_double (h : 2 ^ p ≤ n) (h' : n < 2 ^ (p + 1)) :
    roundTo p n = if n % 4 = 3 then n + 1 else n - n % 2 := by
  have hsize : n.size - p = 1 := by
    have hupper : n.size ≤ p + 1 := Nat.size_le.mpr h'
    have hlower : p < n.size := Nat.lt_size.mpr h
    omega
  simp only [roundTo, hsize, Nat.pow_one]
  by_cases hthree : n % 4 = 3
  · rw [if_pos hthree, if_pos (by omega)]
    omega
  · rw [if_neg hthree, if_neg (by omega)]
    omega

theorem roundTo_add_div_two {a b : Nat} (ha : a < 2 ^ p) (hb : b < 2 ^ p) :
    roundTo p (a + b) / 2 = (a + b) / 2 + if 2 ^ p ≤ a + b ∧ (a + b) % 4 = 3 then 1 else 0 := by
  have hdouble : a + b < 2 ^ (p + 1) := by
    rw [Nat.pow_succ]
    omega
  by_cases hfits : a + b < 2 ^ p
  · rw [roundTo_of_lt hfits, if_neg (by omega), Nat.add_zero]
  · rw [roundTo_of_lt_double (by omega) hdouble]
    by_cases hthree : (a + b) % 4 = 3
    · rw [if_pos hthree, if_pos ⟨by omega, hthree⟩]
      omega
    · rw [if_neg hthree, if_neg (fun h => hthree h.2)]
      omega

example : roundTo 24 16777219 = 16777220 := by decide

end BinaryFloat
