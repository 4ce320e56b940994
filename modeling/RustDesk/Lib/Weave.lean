import Mathlib.Data.List.Basic

/-!
# A channel whose markers stand for the items of a queue

Some items travel in a channel and others in a queue beside it, with a marker in the channel
for each item of the queue.  A marker stands for whatever is first in the queue when it is
taken; `weave` lists the items in the order in which they come out.

While there are as many markers as queued items, what is put in last comes out last
(`weave_item`, `weave_marker`).  If the queue drops its first item for a new last one and no
marker is added, every marker moves on by one item.  This keeps the order only if no
item of the channel stands behind a marker (`weave_shift`).
-/

namespace Weave

open List

variable {α : Type*}

/-- The items in the order in which they come out; a marker is `none`. -/
def weave : List (Option α) → List α → List α
  | [], _ => []
  | some x :: channel, queue => x :: weave channel queue
  | none :: channel, x :: queue => x :: weave channel queue
  | none :: channel, [] => weave channel []

def markers (channel : List (Option α)) : Nat := channel.countP Option.isNone

def ItemsFirst : List (Option α) → Prop
  | [] => True
  | some _ :: channel => ItemsFirst channel
  | none :: channel => ∀ x ∈ channel, x = none

instance decidableItemsFirst :
    ∀ channel : List (Option α), Decidable (ItemsFirst channel)
  | [] => isTrue trivial
  | some _ :: channel => decidableItemsFirst channel
  | none :: channel => inferInstanceAs (Decidable (∀ x ∈ channel, x = none))

@[simp] theorem markers_nil : markers ([] : List (Option α)) = 0 := rfl

@[simp] theorem markers_cons_some (x : α) (channel : List (Option α)) :
    markers (some x :: channel) = markers channel := by
  simp [markers]

@[simp] theorem markers_cons_none (channel : List (Option α)) :
    markers (none :: channel) = markers channel + 1 := by
  simp [markers]

@[simp] theorem markers_append (channel more : List (Option α)) :
    markers (channel ++ more) = markers channel + markers more :=
  countP_append

@[simp] theorem weave_nil (queue : List α) : weave [] queue = [] := rfl

@[simp] theorem weave_cons_some (x : α) (channel : List (Option α)) (queue : List α) :
    weave (some x :: channel) queue = x :: weave channel queue := rfl

@[simp] theorem weave_cons_none (channel : List (Option α)) (x : α) (queue : List α) :
    weave (none :: channel) (x :: queue) = x :: weave channel queue := rfl

theorem weave_item (channel : List (Option α)) (queue : List α) (x : α) :
    weave (channel ++ [some x]) queue = weave channel queue ++ [x] := by
  induction channel generalizing queue with
  | nil => rfl
  | cons a channel ih =>
    cases a with
    | some y => rw [cons_append, weave_cons_some, ih, weave_cons_some, cons_append]
    | none =>
      cases queue with
      | nil => exact ih []
      | cons y queue => simp [ih]

variable {channel : List (Option α)} {queue : List α}

theorem weave_marker (h : markers channel = queue.length) (x : α) :
    weave (channel ++ [none]) (queue ++ [x]) = weave channel queue ++ [x] := by
  induction channel generalizing queue with
  | nil =>
    obtain rfl := length_eq_zero_iff.mp h.symm
    rfl
  | cons a channel ih =>
    cases a with
    | some y => simp [ih (by simpa using h)]
    | none =>
      cases queue with
      | nil => simp at h
      | cons y queue => simp [ih (by simpa using h)]

theorem weave_only_markers (h : markers channel = queue.length) (hall : ∀ x ∈ channel, x = none) :
    weave channel queue = queue := by
  induction channel generalizing queue with
  | nil =>
    obtain rfl := length_eq_zero_iff.mp h.symm
    rfl
  | cons a channel ih =>
    obtain rfl := hall a mem_cons_self
    cases queue with
    | nil => simp at h
    | cons y queue =>
      have hrest : ∀ x ∈ channel, x = none := fun x hx => hall x (mem_cons_of_mem _ hx)
      rw [weave_cons_none, ih (by simpa using h) hrest]

/-- **A dropped item.**  The markers move on by one item; what comes out is still in order if
no item of the channel stands behind a marker. -/
theorem weave_shift {x : α}
    (hfirst : ItemsFirst channel) (h : markers channel = (x :: queue).length) (y : α) :
    (weave channel (queue ++ [y])).Sublist (weave channel (x :: queue) ++ [y]) := by
  induction channel with
  | nil => simp at h
  | cons a channel ih =>
    cases a with
    | some z => exact (ih hfirst (by simpa using h)).cons_cons z
    | none =>
      have hall : ∀ z ∈ none :: channel, z = none := by
        intro z hz
        rcases mem_cons.mp hz with rfl | hz
        · rfl
        · exact hfirst z hz
      have hlength : markers (none :: channel) = (queue ++ [y]).length := by
        rw [h, length_append, length_cons, length_singleton]
      rw [weave_only_markers hlength hall, weave_only_markers h hall]
      exact sublist_cons_self x (queue ++ [y])

end Weave
