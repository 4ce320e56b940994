import Mathlib.Tactic.Common

/-!
# Files that are open while their names change

A store has names for some of its files.  Who has opened a file stays with it, whatever
becomes of its name, and writes at the offset that was reached.
-/

namespace OpenFiles

open List Function

variable {P β : Type}

structure Store (P β : Type) where
  inode : P → Option Nat
  content : Nat → List β
  next : Nat

def overwrite (zero : β) (old : List β) (off : Nat) (bytes : List β) : List β :=
  old.take off ++ List.replicate (off - old.length) zero ++ bytes ++ old.drop (off + bytes.length)

theorem overwrite_length (zero : β) (old bytes : List β) :
    overwrite zero old old.length bytes = old ++ bytes := by
  simp [overwrite]

theorem length_overwrite (zero : β) (old : List β) (off : Nat) (bytes : List β) :
    (overwrite zero old off bytes).length = max (off + bytes.length) old.length := by
  simp only [overwrite, length_append, length_take, length_replicate, length_drop]
  omega

theorem getElem?_overwrite_behind (zero : β) (old : List β) {off i : Nat} {bytes : List β}
    (h : off + bytes.length ≤ i) : (overwrite zero old off bytes)[i]? = old[i]? := by
  have hfront : (old.take off ++ List.replicate (off - old.length) zero ++ bytes).length =
      off + bytes.length := by
    simp only [length_append, length_take, length_replicate]
    omega
  rw [overwrite, List.getElem?_append_right (by omega), hfront, List.getElem?_drop]
  congr 1
  omega

theorem getElem?_overwrite (zero : β) {old : List β} {off : Nat} (hoff : off ≤ old.length)
    (bytes : List β) (i : Nat) : (overwrite zero old off bytes)[i]? =
      if off ≤ i ∧ i < off + bytes.length then bytes[i - off]? else old[i]? := by
  have hgap : off - old.length = 0 := by omega
  have hfront : (old.take off).length = off := by
    rw [length_take]
    omega
  by_cases hbehind : off + bytes.length ≤ i
  · rw [getElem?_overwrite_behind zero old hbehind, if_neg (by omega)]
  · rw [overwrite, hgap, replicate_zero, append_nil,
      List.getElem?_append_left (by rw [length_append]; omega)]
    by_cases hbefore : i < off
    · rw [List.getElem?_append_left (by omega), List.getElem?_take, if_pos hbefore,
        if_neg (by omega)]
    · rw [List.getElem?_append_right (by omega), hfront, if_pos (by omega)]

namespace Store

def exists? (s : Store P β) (p : P) : Bool := (s.inode p).isSome

def create [DecidableEq P] (s : Store P β) (p : P) : Nat × Store P β :=
  match s.inode p with
  | some i => (i, { s with content := update s.content i [] })
  | none =>
    (s.next, {
      inode := update s.inode p (some s.next)
      content := update s.content s.next []
      next := s.next + 1 })

def write (s : Store P β) (zero : β) (i off : Nat) (bytes : List β) : Store P β :=
  { s with content := update s.content i (overwrite zero (s.content i) off bytes) }

def unlink [DecidableEq P] (s : Store P β) (p : P) : Store P β :=
  { s with inode := update s.inode p none }

variable {s : Store P β} {p q : P} {zero : β} {i off : Nat} {bytes : List β}

theorem content_write (h : (s.content i).length = off) :
    (s.write zero i off bytes).content i = s.content i ++ bytes := by
  subst h
  refine (update_self ..).trans ?_
  exact overwrite_length zero _ bytes

variable [DecidableEq P]

theorem inode_create : (s.create p).2.inode p = some (s.create p).1 := by
  unfold create
  split
  · assumption
  · exact update_self ..

theorem content_create : (s.create p).2.content (s.create p).1 = [] := by
  unfold create
  split
  · exact update_self ..
  · exact update_self ..

theorem inode_unlink (h : s.inode q = none ∨ s.inode q = some i) :
    (s.unlink p).inode q = none ∨ (s.unlink p).inode q = some i := by
  by_cases hq : q = p
  · rw [hq]
    exact .inl (update_self ..)
  · have hkept : (s.unlink p).inode q = s.inode q := update_of_ne hq ..
    rwa [hkept]

end Store
end OpenFiles
