import Mathlib.Algebra.Group.Int.Defs
import Mathlib.Algebra.Group.Nat.Defs
import Mathlib.Tactic.Common

/-!
# Little-endian bytes of a number

`leBytes h k` is the `k` low bytes of `h`, the lowest first, and `leNumber`
puts bytes together again.  On numbers that fit, the bytes determine the number
(`leBytes_inj`).
-/

namespace LittleEndian

open List

/-- The `k` low bytes of a number, little endian. -/
def leBytes (h : Nat) : Nat → List UInt8
  | 0 => []
  | k + 1 => UInt8.ofNat h :: leBytes (h >>> 8) k

def leNumber : List UInt8 → Nat
  | [] => 0
  | b :: bs => b.toNat + 256 * leNumber bs

@[simp] theorem length_leBytes (h k : Nat) : (leBytes h k).length = k := by
  induction k generalizing h with
  | zero => rfl
  | succ k ih => simp [leBytes, ih]

theorem leNumber_lt (bs : List UInt8) : leNumber bs < 256 ^ bs.length := by
  induction bs with
  | nil => simp [leNumber]
  | cons b bs ih =>
    have hb := b.toNat_lt
    rw [leNumber, length_cons, Nat.pow_succ]
    omega

theorem leNumber_leBytes (h k : Nat) : leNumber (leBytes h k) = h % 256 ^ k := by
  induction k generalizing h with
  | zero => simp [leBytes, leNumber, Nat.mod_one]
  | succ k ih =>
    have hpow : 256 ^ (k + 1) = 256 * 256 ^ k := by rw [Nat.pow_succ, Nat.mul_comm]
    rw [leBytes, leNumber, ih, UInt8.toNat_ofNat', Nat.shiftRight_eq_div_pow, hpow, Nat.mod_mul]

theorem leBytes_inj {h h' k : Nat} (hh : h < 256 ^ k) (hh' : h' < 256 ^ k)
    (heq : leBytes h k = leBytes h' k) : h = h' := by
  have hnum := congrArg leNumber heq
  rwa [leNumber_leBytes, leNumber_leBytes, Nat.mod_eq_of_lt hh, Nat.mod_eq_of_lt hh'] at hnum

theorem leBytes_leNumber (bs : List UInt8) : leBytes (leNumber bs) bs.length = bs := by
  induction bs with
  | nil => rfl
  | cons b bs ih =>
    have hb := b.toNat_lt
    have hlow : UInt8.ofNat (b.toNat + 256 * leNumber bs) = b := by
      apply UInt8.toNat_inj.mp
      rw [UInt8.toNat_ofNat']
      omega
    have hrest : (b.toNat + 256 * leNumber bs) >>> 8 = leNumber bs := by
      rw [Nat.shiftRight_eq_div_pow]
      omega
    rw [leNumber, length_cons, leBytes, hlow, hrest, ih]

theorem leNumber_zeros (k : Nat) : leNumber (List.replicate k 0) = 0 := by
  induction k with
  | zero => rfl
  | succ k ih =>
    rw [replicate_succ, leNumber, ih]
    rfl

theorem leNumber_append_zeros (bs : List UInt8) (k : Nat) :
    leNumber (bs ++ List.replicate k 0) = leNumber bs := by
  induction bs with
  | nil => exact leNumber_zeros k
  | cons b bs ih => rw [cons_append, leNumber, leNumber, ih]

theorem take_append_zeros (bs : List UInt8) :
    bs.take (bs.length - (bs.reverse.takeWhile (· = 0)).length) ++
      List.replicate (bs.reverse.takeWhile (· = 0)).length 0 = bs := by
  have hzeros : bs.reverse.takeWhile (· = 0) =
      List.replicate (bs.reverse.takeWhile (· = 0)).length 0 := by
    apply eq_replicate_of_mem
    intro b hb
    simpa using all_eq_true.mp all_takeWhile b hb
  have hsplit : bs = (bs.reverse.dropWhile (· = 0)).reverse ++
      List.replicate (bs.reverse.takeWhile (· = 0)).length 0 := by
    have happend := congrArg List.reverse
      (takeWhile_append_dropWhile (p := (· = (0 : UInt8))) (l := bs.reverse))
    rw [reverse_append, reverse_reverse, hzeros, reverse_replicate] at happend
    exact happend.symm
  have htake : bs.take (bs.length - (bs.reverse.takeWhile (· = 0)).length) =
      (bs.reverse.dropWhile (· = 0)).reverse := by
    have hlength := congrArg List.length hsplit
    rw [length_append, length_replicate] at hlength
    rw [hlength, Nat.add_sub_cancel]
    exact (congrArg (List.take _) hsplit).trans (take_left' rfl)
  rw [htake]
  exact hsplit.symm

end LittleEndian
