import Mathlib.Algebra.Group.Int.Defs
import Mathlib.Algebra.Group.Nat.Defs
import Mathlib.Tactic.Common

/-!
# Casts between fixed widths

The casts of numbers between 32 and 64 bits, signed and unsigned.  A signed number keeps
its sign when it gets wider, also on the way to an unsigned type.
-/

namespace MachineInt

def asI32 (n : Nat) : Int := if n % 2 ^ 32 < 2 ^ 31 then n % 2 ^ 32 else n % 2 ^ 32 - 2 ^ 32

def asU32 (i : Int) : Nat := (i % 2 ^ 32).toNat

def asU64 (i : Int) : Nat := (i % 2 ^ 64).toNat

theorem asU32_asI32 (n : Nat) : asU32 (asI32 n) = n % 2 ^ 32 := by
  rw [asU32, asI32]
  split_ifs <;> omega

theorem asI32_of_lt {n : Nat} (h : n < 2 ^ 31) : asI32 n = n := by
  rw [asI32, if_pos (by omega)]
  omega

theorem asU64_natCast {n : Nat} (h : n < 2 ^ 64) : asU64 n = n := by
  rw [asU64]
  omega

theorem asU64_asI32_of_neg {n : Nat} (h : 2 ^ 31 ≤ n % 2 ^ 32) :
    2 ^ 64 - 2 ^ 31 ≤ asU64 (asI32 n) := by
  rw [asU64, asI32, if_neg (by omega)]
  omega

end MachineInt
