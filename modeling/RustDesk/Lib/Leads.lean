import Mathlib.Tactic.Common

/-!
# What a machine always comes to

A machine does not choose which of its enabled steps is next.  `Leads` says that it comes to
a goal whatever it does: it is there, or some step is enabled and every enabled step leads on.
The rule `leads_of_rank` shows it by an invariant and a number that falls with every step.
-/

namespace Run

variable {σ ι : Type*}

inductive Leads (step : σ → ι → σ) (enabled : σ → ι → Prop) (goal : σ → Prop) : σ → Prop
  | arrived {s : σ} (hgoal : goal s) : Leads step enabled goal s
  | wait {s : σ} (hsome : ∃ i, enabled s i)
      (hall : ∀ i, enabled s i → Leads step enabled goal (step s i)) : Leads step enabled goal s

/-- **The rank rule.**  Away from the goal some step is enabled, and each enabled step keeps
the invariant and lowers the rank or reaches the goal. -/
theorem leads_of_rank {step : σ → ι → σ} {enabled : σ → ι → Prop} {goal P : σ → Prop}
    (rank : σ → Nat) (hsome : ∀ s, P s → ¬goal s → ∃ i, enabled s i)
    (hstep : ∀ s i, P s → enabled s i → P (step s i))
    (hrank : ∀ s i, P s → ¬goal s → enabled s i → goal (step s i) ∨ rank (step s i) < rank s)
    {s : σ} (hs : P s) : Leads step enabled goal s := by
  generalize hn : rank s = n
  induction n using Nat.strongRecOn generalizing s with
  | ind n ih =>
    by_cases hgoal : goal s
    · exact .arrived hgoal
    · apply Leads.wait (hsome s hs hgoal)
      intro i hi
      rcases hrank s i hs hgoal hi with hreached | hlower
      · exact .arrived hreached
      · exact ih (rank (step s i)) (hn ▸ hlower) (hstep s i hs hi) rfl

end Run
