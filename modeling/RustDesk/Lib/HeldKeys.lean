import Mathlib.Data.List.Basic

/-!
# Held keys

A history of key strokes, the latest first.  A key is held if it was pressed and not
released since (`held`).  A history that continues another one `Lifts` if it holds no key
that was not held before: releases, clicks and text do, and so does what is made of them.
-/

namespace HeldKeys

inductive Stroke (κ : Type*) where
  | press (key : κ)
  | release (key : κ)
  | text (typed : String)
  deriving DecidableEq

def Stroke.map {κ ι : Type*} (f : κ → ι) : Stroke κ → Stroke ι
  | .press key => .press (f key)
  | .release key => .release (f key)
  | .text typed => .text typed

variable {κ : Type*} [DecidableEq κ]

def held : List (Stroke κ) → κ → Bool
  | [], _ => false
  | .press key :: before, k => k = key || held before k
  | .release key :: before, k => k ≠ key && held before k
  | .text _ :: before, k => held before k

@[simp] theorem held_nil (k : κ) : held [] k = false := rfl

variable {before : List (Stroke κ)}

@[simp] theorem held_press {key k : κ} :
    held (.press key :: before) k = true ↔ k = key ∨ held before k = true := by
  simp [held]

@[simp] theorem held_release {key k : κ} :
    held (.release key :: before) k = true ↔ k ≠ key ∧ held before k = true := by
  simp [held]

@[simp] theorem held_text {typed : String} {k : κ} :
    held (.text typed :: before) k = held before k := rfl

theorem held_append {strokes : List (Stroke κ)} {k : κ} (h : held (strokes ++ before) k = true) :
    .press k ∈ strokes ∨ held before k = true ∧ .release k ∉ strokes := by
  induction strokes with
  | nil => exact .inr ⟨h, List.not_mem_nil⟩
  | cons stroke strokes ih =>
    cases stroke with
    | press key =>
      rcases held_press.mp h with rfl | h
      · exact .inl List.mem_cons_self
      · simpa using (ih h).imp_left .inr
    | release key =>
      obtain ⟨hne, h⟩ := held_release.mp h
      simpa [hne] using ih h
    | text typed => simpa using ih h

/-- The keys that the strokes press. -/
def pressed (strokes : List (Stroke κ)) : List κ :=
  strokes.filterMap fun
    | .press key => some key
    | _ => none

/-- The strokes let go of the keys, and do nothing else. -/
def LetsGo (keys : List κ) (strokes : List (Stroke κ)) : Prop :=
  (∀ key ∈ keys, .release key ∈ strokes) ∧ ∀ stroke ∈ strokes, ∃ key ∈ keys, stroke = .release key

instance (keys : List κ) (strokes : List (Stroke κ)) : Decidable (LetsGo keys strokes) :=
  inferInstanceAs (Decidable (_ ∧ _))

variable {strokes : List (Stroke κ)} {keys : List κ} {k : κ}

omit [DecidableEq κ] in
theorem mem_pressed : k ∈ pressed strokes ↔ .press k ∈ strokes := by
  simp only [pressed, List.mem_filterMap]
  constructor
  · rintro ⟨stroke, hmem, hkey⟩
    cases stroke with
    | press other =>
      cases hkey
      exact hmem
    | release other => cases hkey
    | text typed => cases hkey
  · exact fun hmem => ⟨_, hmem, rfl⟩

omit [DecidableEq κ] in
theorem LetsGo.release_mem (h : LetsGo keys strokes) (hk : .release k ∈ strokes) : k ∈ keys := by
  obtain ⟨key, hkey, heq⟩ := h.2 _ hk
  cases heq
  exact hkey

omit [DecidableEq κ] in
theorem LetsGo.press_notMem (h : LetsGo keys strokes) (k : κ) : .press k ∉ strokes := by
  intro hk
  obtain ⟨key, -, heq⟩ := h.2 _ hk
  cases heq

def Lifts (before after : List (Stroke κ)) : Prop :=
  ∀ k, held after k = true → held before k = true

theorem Lifts.refl (log : List (Stroke κ)) : Lifts log log := fun _ h => h

theorem Lifts.trans {a b c : List (Stroke κ)} (h : Lifts a b) (h' : Lifts b c) : Lifts a c :=
  fun k hk => h k (h' k hk)

theorem lifts_release (key : κ) (log : List (Stroke κ)) : Lifts log (.release key :: log) :=
  fun _ hk => (held_release.mp hk).2

theorem lifts_text (typed : String) (log : List (Stroke κ)) : Lifts log (.text typed :: log) :=
  fun _ hk => hk

theorem lifts_click {key : κ} {log between : List (Stroke κ)}
    (h : Lifts (.press key :: log) between) : Lifts log (.release key :: between) := by
  intro k hk
  obtain ⟨hne, hbetween⟩ := held_release.mp hk
  rcases held_press.mp (h k hbetween) with heq | hbefore
  · exact absurd heq hne
  · exact hbefore

theorem held_releases (keys : List κ) (log : List (Stroke κ)) (k : κ) :
    held (keys.foldl (fun log key => .release key :: log) log) k = true ↔
      held log k = true ∧ k ∉ keys := by
  induction keys generalizing log with
  | nil => simp
  | cons key keys ih =>
    rw [List.foldl_cons, ih, held_release, List.mem_cons, not_or]
    tauto

end HeldKeys
