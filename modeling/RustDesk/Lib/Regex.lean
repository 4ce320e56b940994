import Mathlib.Computability.RegularExpressions

/-!
# Repetitions in regular expressions

`upTo r n` is `r` from one to `n + 1` times, `atLeastOne r` once or more.  What they match is
told for expressions that match single letters, and for a repetition before something else.
-/

namespace RegularExpression

open List

variable {α : Type*}

/-- From one to `n + 1` times. -/
def upTo (r : RegularExpression α) : Nat → RegularExpression α
  | 0 => r
  | n + 1 => r * (1 + r.upTo n)

def atLeastOne (r : RegularExpression α) : RegularExpression α := r * r.star

variable {r s : RegularExpression α} {w : List α} {n : Nat}

/-- The expression matches single letters, those of `P`. -/
def Letters (r : RegularExpression α) (P : α → Prop) : Prop :=
  ∀ w, w ∈ r.matches' ↔ ∃ x, w = [x] ∧ P x

variable {P : α → Prop}

theorem letters_char (a : α) : Letters (char a) (· = a) := by
  intro w
  rw [matches'_char]
  constructor
  · intro hw
    exact ⟨a, hw, rfl⟩
  · rintro ⟨x, rfl, rfl⟩
    rfl

theorem Letters.add {Q : α → Prop} (hr : Letters r P) (hs : Letters s Q) :
    Letters (r + s) fun x => P x ∨ Q x := by
  intro w
  rw [matches'_add, Language.mem_add, hr, hs]
  constructor
  · rintro (⟨x, hx, hP⟩ | ⟨x, hx, hQ⟩)
    · exact ⟨x, hx, .inl hP⟩
    · exact ⟨x, hx, .inr hQ⟩
  · rintro ⟨x, hx, hP | hQ⟩
    · exact .inl ⟨x, hx, hP⟩
    · exact .inr ⟨x, hx, hQ⟩

theorem Letters.mem_upTo (hr : Letters r P) :
    w ∈ (r.upTo n).matches' ↔ w ≠ [] ∧ w.length ≤ n + 1 ∧ ∀ x ∈ w, P x := by
  induction n generalizing w with
  | zero =>
    rw [upTo, hr]
    constructor
    · rintro ⟨x, rfl, hx⟩
      simpa using hx
    · rintro ⟨hne, hlen, hall⟩
      obtain ⟨x, rfl⟩ := length_eq_one_iff.mp (le_antisymm hlen (length_pos_of_ne_nil hne))
      exact ⟨x, rfl, hall x mem_cons_self⟩
  | succ n ih =>
    rw [upTo, matches'_mul, Language.mem_mul]
    constructor
    · rintro ⟨u, hu, v, hv, rfl⟩
      obtain ⟨x, rfl, hx⟩ := (hr u).mp hu
      rw [matches'_add, Language.mem_add] at hv
      rcases hv with hv | hv
      · rw [(Language.mem_one v).mp hv]
        simpa using hx
      · obtain ⟨-, hlen, hall⟩ := ih.mp hv
        refine ⟨cons_ne_nil _ _, ?_, forall_mem_cons.mpr ⟨hx, hall⟩⟩
        rw [singleton_append, length_cons]
        omega
    · rintro ⟨hne, hlen, hall⟩
      cases w with
      | nil => exact absurd rfl hne
      | cons x v =>
        obtain ⟨hx, hv⟩ := forall_mem_cons.mp hall
        refine ⟨[x], (hr _).mpr ⟨x, rfl, hx⟩, v, ?_, rfl⟩
        rw [matches'_add, Language.mem_add]
        by_cases hnil : v = []
        · exact .inl ((Language.mem_one v).mpr hnil)
        · rw [length_cons] at hlen
          exact .inr (ih.mpr ⟨hnil, by omega, hv⟩)

theorem matches'_atLeastOne_mul (r s : RegularExpression α) :
    (r.atLeastOne * s).matches' = r.matches' * (s.matches' + (r.atLeastOne * s).matches') := by
  have hstar := Language.one_add_self_mul_kstar_eq_kstar r.matches'
  rw [matches'_mul, atLeastOne, matches'_mul, matches'_star]
  conv_lhs => rw [← hstar]
  rw [mul_assoc, add_mul, one_mul]

theorem matches'_atLeastOne (r : RegularExpression α) :
    r.atLeastOne.matches' = r.matches' * (1 + r.atLeastOne.matches') := by
  rw [atLeastOne, matches'_mul, matches'_star, Language.one_add_self_mul_kstar_eq_kstar]

theorem Letters.mem_atLeastOne (hr : Letters r P) :
    w ∈ r.atLeastOne.matches' ↔ w ≠ [] ∧ ∀ x ∈ w, P x := by
  induction w with
  | nil =>
    rw [matches'_atLeastOne, Language.mem_mul]
    refine iff_of_false ?_ fun h => h.1 rfl
    rintro ⟨u, hu, v, -, huv⟩
    obtain ⟨x, rfl, -⟩ := (hr u).mp hu
    exact cons_ne_nil _ _ huv
  | cons x v ih =>
    rw [matches'_atLeastOne, Language.mem_mul, forall_mem_cons]
    constructor
    · rintro ⟨u, hu, v', hv, huv⟩
      obtain ⟨y, rfl, hy⟩ := (hr u).mp hu
      cases huv
      refine ⟨cons_ne_nil _ _, hy, ?_⟩
      rcases (Language.mem_add ..).mp hv with hv | hv
      · rw [(Language.mem_one v').mp hv]
        exact forall_mem_nil _
      · exact (ih.mp hv).2
    · rintro ⟨-, hx, hv⟩
      refine ⟨[x], (hr _).mpr ⟨x, rfl, hx⟩, v, (Language.mem_add ..).mpr ?_, rfl⟩
      by_cases hnil : v = []
      · exact .inl ((Language.mem_one v).mpr hnil)
      · exact .inr (ih.mpr ⟨hnil, hv⟩)

end RegularExpression
