import Mathlib.Data.List.Basic

/-!
# Ring buffers

A ring buffer has a fixed capacity; a write that does not fit removes the oldest items.  What is
known of one is told by the list of its items, the oldest first.  `ListRing` is the plain one.
-/

structure RingBuffer (ρ α : Type*) where
  new : Nat → ρ
  capacity : ρ → Nat
  items : ρ → List α
  skip : Nat → ρ → ρ
  pushSliceOverwrite : List α → ρ → ρ
  length_le : ∀ r, (items r).length ≤ capacity r
  capacity_new : ∀ n, 0 < n → capacity (new n) = n
  items_new : ∀ n, 0 < n → items (new n) = []
  capacity_skip : ∀ n r, capacity (skip n r) = capacity r
  items_skip : ∀ n r, items (skip n r) = (items r).drop n
  capacity_push : ∀ xs r, capacity (pushSliceOverwrite xs r) = capacity r
  items_push : ∀ xs r, items (pushSliceOverwrite xs r) =
    (items r ++ xs).drop ((items r).length + xs.length - capacity r)

namespace RingBuffer

variable {ρ α : Type*} (R : RingBuffer ρ α)

def occupiedLen (r : ρ) : Nat := (R.items r).length

def popSlice (n : Nat) (r : ρ) : List α × ρ := ((R.items r).take n, R.skip n r)

variable {r : ρ} {xs : List α}

theorem occupiedLen_push :
    R.occupiedLen (R.pushSliceOverwrite xs r) =
      min (R.occupiedLen r + xs.length) (R.capacity r) := by
  rw [occupiedLen, occupiedLen, R.items_push, List.length_drop, List.length_append]
  omega

end RingBuffer

structure ListRing (α : Type*) where
  capacity : Nat
  items : List α
  length_le : items.length ≤ capacity

namespace ListRing

variable {α : Type*}

def skip (n : Nat) (r : ListRing α) : ListRing α :=
  ⟨r.capacity, r.items.drop n, by
    rw [List.length_drop]
    exact Nat.le_trans (Nat.sub_le ..) r.length_le⟩

def push (xs : List α) (r : ListRing α) : ListRing α :=
  ⟨r.capacity, (r.items ++ xs).drop (r.items.length + xs.length - r.capacity), by
    rw [List.length_drop, List.length_append]
    omega⟩

end ListRing

def listRing (α : Type*) : RingBuffer (ListRing α) α where
  new n := ⟨n, [], Nat.zero_le n⟩
  capacity := ListRing.capacity
  items := ListRing.items
  skip := ListRing.skip
  pushSliceOverwrite := ListRing.push
  length_le r := r.length_le
  capacity_new _ _ := rfl
  items_new _ _ := rfl
  capacity_skip _ _ := rfl
  items_skip _ _ := rfl
  capacity_push _ _ := rfl
  items_push _ _ := rfl
