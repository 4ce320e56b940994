import Mathlib.Data.List.Basic

/-!
# Runs of a deterministic machine

A machine is a function `step : σ → ι → σ`; a run is the list of its inputs.
Three predicates speak about a run as a whole: `Along C` says that every step
meets a condition on the state before it and its input, `Happens E` that some
step meets one, and `Always P` that every state reached, the first and the last
included, has a property.

* `always_of_along`: a property that each step meeting the condition preserves
  holds in every state of a run along which the condition holds.
* `happens_of_gained`: a property that only certain steps make true became true
  by such a step.
* `always_iff_along`: if a step from a good state leads to a good state exactly
  when it meets the condition, a run stays good exactly when all its steps do.
-/

namespace Run

open List

variable {σ ι : Type*} (step : σ → ι → σ)

def exec (s : σ) (is : List ι) : σ := is.foldl step s

/-- Every step of the run meets the condition `C`. -/
def Along (C : σ → ι → Prop) : σ → List ι → Prop
  | _, [] => True
  | s, i :: is => C s i ∧ Along C (step s i) is

/-- Some step of the run meets the condition `E`. -/
def Happens (E : σ → ι → Prop) : σ → List ι → Prop
  | _, [] => False
  | s, i :: is => E s i ∨ Happens E (step s i) is

/-- Every state of the run has the property `P`. -/
def Always (P : σ → Prop) (s : σ) (is : List ι) : Prop :=
  ∀ pre, pre <+: is → P (exec step s pre)

instance decidableAlong (C : σ → ι → Prop) [∀ s i, Decidable (C s i)] :
    ∀ (s : σ) (is : List ι), Decidable (Along step C s is)
  | _, [] => isTrue trivial
  | s, i :: is =>
    haveI := decidableAlong C (step s i) is
    inferInstanceAs (Decidable (_ ∧ _))

@[simp] theorem exec_nil (s : σ) : exec step s [] = s := rfl

@[simp] theorem exec_cons (s : σ) (i : ι) (is : List ι) :
    exec step s (i :: is) = exec step (step s i) is := rfl

variable {step} {is : List ι} {s : σ} {P : σ → Prop}

theorem always_cons {i : ι} : Always step P s (i :: is) ↔ P s ∧ Always step P (step s i) is := by
  constructor
  · intro h
    refine ⟨h [] nil_prefix, fun pre hpre => ?_⟩
    exact h (i :: pre) (by simpa using hpre)
  · rintro ⟨hs, h⟩ pre hpre
    cases pre with
    | nil => exact hs
    | cons j pre =>
      obtain ⟨rfl, hpre'⟩ := cons_prefix_cons.mp hpre
      exact h pre hpre'

theorem Always.last (h : Always step P s is) : P (exec step s is) :=
  h is (prefix_refl is)

variable {C : σ → ι → Prop}

theorem along_of_forall (h : ∀ s i, C s i) (s : σ) (is : List ι) : Along step C s is := by
  induction is generalizing s with
  | nil => trivial
  | cons i is ih => exact ⟨h s i, ih (step s i)⟩

theorem Along.and {C D : σ → ι → Prop} (hC : Along step C s is)
    (hD : Along step D s is) : Along step (fun s i => C s i ∧ D s i) s is := by
  induction is generalizing s with
  | nil => trivial
  | cons i is ih => exact ⟨⟨hC.1, hD.1⟩, ih hC.2 hD.2⟩

theorem exec_fixed (h : ∀ i ∈ is, step s i = s) : exec step s is = s := by
  induction is with
  | nil => rfl
  | cons i is ih =>
    rw [exec_cons, h i mem_cons_self]
    exact ih fun j hj => h j (mem_cons_of_mem _ hj)

theorem along_append {is js : List ι} :
    Along step C s (is ++ js) ↔ Along step C s is ∧ Along step C (exec step s is) js := by
  induction is generalizing s with
  | nil => exact ⟨fun h => ⟨trivial, h⟩, And.right⟩
  | cons i is ih => exact (and_congr_right fun _ => ih).trans and_assoc.symm

/-- **The invariant rule.**  A property that every step meeting `C` preserves
holds in all states of a run along which `C` holds. -/
theorem always_of_along (hstep : ∀ s i, P s → C s i → P (step s i))
    (hs : P s) (h : Along step C s is) : Always step P s is := by
  induction is generalizing s with
  | nil =>
    intro pre hpre
    rw [prefix_nil.mp hpre]
    exact hs
  | cons i is ih => exact always_cons.mpr ⟨hs, ih (hstep s i hs h.1) h.2⟩

theorem always_of_step (hstep : ∀ s i, P s → P (step s i))
    (hs : P s) (is : List ι) : Always step P s is := by
  induction is generalizing s with
  | nil =>
    intro pre hpre
    rw [prefix_nil.mp hpre]
    exact hs
  | cons i is ih => exact always_cons.mpr ⟨hs, ih (hstep s i hs)⟩

theorem Along.of_invariant {C D : σ → ι → Prop}
    (hstep : ∀ s i, P s → C s i → P (step s i)) (hD : ∀ s i, P s → C s i → D s i) (hs : P s)
    (h : Along step C s is) : Along step D s is := by
  induction is generalizing s with
  | nil => trivial
  | cons i is ih => exact ⟨hD s i hs h.1, ih (hstep s i hs h.1) h.2⟩

/-- **The gain rule.**  If a step that meets `C` makes `P` true only by meeting `E`,
then in a run along which `C` holds `P` became true only after such a step. -/
theorem happens_of_gained {C E : σ → ι → Prop} (hgain : ∀ s i, C s i → P (step s i) → P s ∨ E s i)
    (hs : ¬P s) (h : Along step C s is) (hP : P (exec step s is)) : Happens step E s is := by
  induction is generalizing s with
  | nil => exact absurd hP hs
  | cons i is ih =>
    by_cases hnext : P (step s i)
    · rcases hgain s i h.1 hnext with hbefore | hevent
      · exact absurd hbefore hs
      · exact .inl hevent
    · exact .inr (ih hnext h.2 hP)

/-- **The exactness rule.**  `J n` is an invariant of the steps that meet `W`; it
may mention the number of steps taken.  If, from a good state, such a step leads to
a good state exactly when it meets `C`, then a run of at most `N` steps that all
meet `W` stays good exactly when all its steps meet `C`. -/
theorem always_iff_along {W C : σ → ι → Prop} {J : Nat → σ → Prop} {N : Nat}
    (hJ : ∀ n s i, W s i → J n s → J (n + 1) (step s i))
    (hiff : ∀ n s i, n < N → W s i → J n s → P s → (P (step s i) ↔ C s i)) {n : Nat}
    (hlen : n + is.length ≤ N) (hn : J n s) (hs : P s) (hW : Along step W s is) :
    Always step P s is ↔ Along step C s is := by
  induction is generalizing s n with
  | nil =>
    refine ⟨fun _ => trivial, fun _ pre hpre => ?_⟩
    rw [prefix_nil.mp hpre]
    exact hs
  | cons i is ih =>
    have hlen' : n + 1 + is.length ≤ N := by
      rw [length_cons] at hlen
      omega
    have hone := hiff n s i (by omega) hW.1 hn hs
    have hnext := hJ n s i hW.1 hn
    rw [always_cons]
    constructor
    · intro h
      have hgood : P (step s i) := h.2 [] nil_prefix
      exact ⟨hone.mp hgood, (ih hlen' hnext hgood hW.2).mp h.2⟩
    · intro h
      exact ⟨hs, (ih hlen' hnext (hone.mpr h.1) hW.2).mpr h.2⟩

theorem always_iff_along_within {P J : σ → Prop} {W C : σ → ι → Prop}
    (hJ : ∀ s i, W s i → J s → P s → C s i → J (step s i))
    (hiff : ∀ s i, W s i → J s → P s → (P (step s i) ↔ C s i))
    (hj : J s) (hs : P s) (hW : Along step W s is) : Always step P s is ↔ Along step C s is := by
  induction is generalizing s with
  | nil =>
    refine ⟨fun _ => trivial, fun _ pre hpre => ?_⟩
    rw [prefix_nil.mp hpre]
    exact hs
  | cons i is ih =>
    have hone := hiff s i hW.1 hj hs
    rw [always_cons]
    constructor
    · intro h
      have hgood : P (step s i) := h.2 [] nil_prefix
      have hC := hone.mp hgood
      exact ⟨hC, (ih (hJ s i hW.1 hj hs hC) hgood hW.2).mp h.2⟩
    · intro h
      exact ⟨hs, (ih (hJ s i hW.1 hj hs h.1) (hone.mpr h.1) hW.2).mpr h.2⟩

theorem always_iff_along_of_good {P J : σ → Prop} (hJ : ∀ s i, J s → P s → C s i → J (step s i))
    (hiff : ∀ s i, J s → P s → (P (step s i) ↔ C s i))
    (hj : J s) (hs : P s) : Always step P s is ↔ Along step C s is := by
  have hW : Along step (fun _ _ => True) s is := along_of_forall (fun _ _ => trivial) s is
  exact always_iff_along_within (fun s i _ => hJ s i) (fun s i _ => hiff s i) hj hs hW

end Run
