import Mathlib.Data.List.Basic

/-!
# Programs that write a log

A state carries an append-only log and a part that a piece of code may or may not
change.  `Within log view A s s'` says what such a piece did: it appended only events
that satisfy `A`, and it left the view of the state alone.  These facts compose, so a
long program is judged by its pieces.
-/

namespace Logged

variable {σ ε φ : Type*} {log : σ → List ε} {view : σ → φ} {A B : ε → Prop} {s s' s'' : σ}

/-- From `s` to `s'` the log grew by events in `A`, and the view is the same. -/
structure Within (log : σ → List ε) (view : σ → φ) (A : ε → Prop) (s s' : σ) : Prop where
  emits : ∃ new, log s' = log s ++ new ∧ ∀ e ∈ new, A e
  same : view s' = view s

namespace Within

theorem silent (hlog : log s' = log s) (hview : view s' = view s) : Within log view A s s' :=
  ⟨⟨[], by simp [hlog], by simp⟩, hview⟩

theorem refl (s : σ) : Within log view A s s := silent rfl rfl

theorem one {e : ε} (hlog : log s' = log s ++ [e]) (hview : view s' = view s) (he : A e) :
    Within log view A s s' :=
  ⟨⟨[e], hlog, by simpa using he⟩, hview⟩

theorem trans (h : Within log view A s s') (h' : Within log view A s' s'') :
    Within log view A s s'' := by
  obtain ⟨new, hnew, hA⟩ := h.emits
  obtain ⟨new', hnew', hA'⟩ := h'.emits
  refine ⟨⟨new ++ new', ?_, ?_⟩, h'.same.trans h.same⟩
  · rw [hnew', hnew, List.append_assoc]
  · intro e he
    rcases List.mem_append.mp he with he | he
    · exact hA e he
    · exact hA' e he

theorem mono (hAB : ∀ e, A e → B e) (h : Within log view A s s') : Within log view B s s' := by
  obtain ⟨new, hnew, hA⟩ := h.emits
  exact ⟨⟨new, hnew, fun e he => hAB e (hA e he)⟩, h.same⟩

theorem weaken {ψ : Type*} {view' : σ → ψ} (g : φ → ψ) (hg : ∀ s, view' s = g (view s))
    (h : Within log view A s s') : Within log view' A s s' := by
  refine ⟨h.emits, ?_⟩
  rw [hg, hg, h.same]

end Within
end Logged
