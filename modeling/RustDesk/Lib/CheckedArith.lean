import Mathlib.Algebra.GroupWithZero.Nat
import RustDesk.Lib.LittleEndian

/-!
# Arithmetic and buffers that trap

Sums, differences and products of unsigned numbers of a fixed width, and reads from the
front of a buffer.  Each either gives its result or traps: because the result does not fit,
or because the buffer is too short.  For each there is one lemma that says when it does not.
-/

namespace CheckedArith

inductive Trap where
  | overflow
  | outOfRange
  deriving DecidableEq

variable {α β : Type} {w a b n k : Nat}

@[simp] theorem ok_bind (x : α) (f : α → Except Trap β) : (Except.ok x >>= f) = f x := rfl

@[simp] theorem error_bind (e : Trap) (f : α → Except Trap β) :
    ((Except.error e : Except Trap α) >>= f) = Except.error e := rfl

def add (w a b : Nat) : Except Trap Nat := if a + b < 2 ^ w then .ok (a + b) else .error .overflow

def sub (a b : Nat) : Except Trap Nat := if b ≤ a then .ok (a - b) else .error .overflow

def mul (w a b : Nat) : Except Trap Nat := if a * b < 2 ^ w then .ok (a * b) else .error .overflow

def div (a b : Nat) : Except Trap Nat := if b = 0 then .error .outOfRange else .ok (a / b)

theorem add_ok (h : a + b < 2 ^ w) : add w a b = .ok (a + b) := if_pos h

theorem sub_ok (h : b ≤ a) : sub a b = .ok (a - b) := if_pos h

theorem mul_ok (h : a * b < 2 ^ w) : mul w a b = .ok (a * b) := if_pos h

theorem div_ok (h : 0 < b) : div a b = .ok (a / b) := if_neg (by omega)

theorem add_trap (h : ¬a + b < 2 ^ w) : add w a b = .error .overflow := if_neg h

theorem sub_trap (h : ¬b ≤ a) : sub a b = .error .overflow := if_neg h

theorem mul_trap (h : ¬a * b < 2 ^ w) : mul w a b = .error .overflow := if_neg h

def sum (w : Nat) (xs : List Nat) : Except Trap Nat := xs.foldlM (add w) 0

theorem sum_ok {xs : List Nat} (h : xs.sum < 2 ^ w) : sum w xs = .ok xs.sum := by
  have hfold : ∀ (xs : List Nat) (k : Nat), k + xs.sum < 2 ^ w →
      xs.foldlM (add w) k = .ok (k + xs.sum) := by
    intro xs
    induction xs with
    | nil => exact fun _ _ => rfl
    | cons x xs ih =>
      intro k hk
      rw [List.sum_cons] at hk ⊢
      rw [List.foldlM_cons, add_ok (by omega), ok_bind, ih _ (by omega), Nat.add_assoc]
  rw [sum, hfold xs 0 (by rwa [Nat.zero_add]), Nat.zero_add]

def advance (n : Nat) (v : List UInt8) : Except Trap (List UInt8) :=
  if n ≤ v.length then .ok (v.drop n) else .error .outOfRange

def slice (n : Nat) (v : List UInt8) : Except Trap (List UInt8) :=
  if n ≤ v.length then .ok (v.take n) else .error .outOfRange

def getLe (k : Nat) (v : List UInt8) : Except Trap (Nat × List UInt8) :=
  if k ≤ v.length then .ok (LittleEndian.leNumber (v.take k), v.drop k) else .error .outOfRange

variable {v : List UInt8}

theorem advance_ok (h : n ≤ v.length) : advance n v = .ok (v.drop n) := if_pos h

theorem slice_ok (h : n ≤ v.length) : slice n v = .ok (v.take n) := if_pos h

theorem getLe_ok (h : k ≤ v.length) :
    getLe k v = .ok (LittleEndian.leNumber (v.take k), v.drop k) := if_pos h

def mapAll (f : α → Except Trap β) : List α → Except Trap (List β)
  | [] => .ok []
  | x :: xs => do
      let y ← f x
      let ys ← mapAll f xs
      return y :: ys

theorem mapAll_ok_iff {f : α → Except Trap β} {g : α → β} {P : α → Prop}
    (hok : ∀ x, P x → f x = .ok (g x)) (htrap : ∀ x, ¬P x → ∃ e, f x = .error e) (xs : List α) :
    (∀ x ∈ xs, P x) ∧ mapAll f xs = .ok (xs.map g) ∨
      ¬(∀ x ∈ xs, P x) ∧ ∃ e, mapAll f xs = .error e := by
  induction xs with
  | nil => exact .inl ⟨nofun, rfl⟩
  | cons x xs ih =>
    by_cases hx : P x
    · rcases ih with ⟨hall, heq⟩ | ⟨hnot, e, heq⟩
      · refine .inl ⟨List.forall_mem_cons.mpr ⟨hx, hall⟩, ?_⟩
        rw [mapAll, hok x hx, heq]
        rfl
      · refine .inr ⟨fun h => hnot (List.forall_mem_cons.mp h).2, e, ?_⟩
        rw [mapAll, hok x hx, heq]
        rfl
    · obtain ⟨e, he⟩ := htrap x hx
      refine .inr ⟨fun h => hx (List.forall_mem_cons.mp h).1, e, ?_⟩
      rw [mapAll, he]
      rfl

end CheckedArith
