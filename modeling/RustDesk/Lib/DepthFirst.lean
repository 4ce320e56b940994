import Mathlib.Data.Fintype.Card

/-!
# Depth first, and not twice

`visit` walks depth first through what `next` says comes next.  It remembers where it was,
leaves out what it remembers, and stops for good at a place that has no `next`.  It may go
down so many levels; where these do not suffice it has no result.

The places may be without end, as paths are.  What is asked of them is that nothing comes
again below itself, which a `rank` says.

* `visit_walked`: where the walk has a result, it was at exactly the places that are met,
  those behind a failure left out, and failed if some place cannot be passed.
* `within_of_finite`: there is a result if the places that are met and go on can be told
  apart by a finite mark.
-/

namespace DepthFirst

open Relation List

variable {V S P E : Type*}

def visitAll (f : P → S → Option (S × Option E)) : List P → S → Option (S × Option E)
  | [], s => some (s, none)
  | p :: ps, s =>
    match f p s with
    | some (s, none) => visitAll f ps s
    | stopped => stopped

def visit [DecidableEq V] (next : V → Option (List V)) :
    Nat → V → List V → Option (List V × Option Unit)
  | 0, _, _ => none
  | n + 1, p, visited =>
    if p ∈ visited then some (visited, none)
    else
      match next p with
      | none => some (p :: visited, some ())
      | some cs => visitAll (visit next n) cs (p :: visited)

section Met

variable (next : V → Option (List V))

def Child (p c : V) : Prop := ∃ cs, next p = some cs ∧ c ∈ cs

/-- Any number of steps down. -/
abbrev Below : V → V → Prop := ReflTransGen (Child next)

def Fine (p : V) : Prop := ∀ q, Below next p q → next q ≠ none

def Turn : List V → V → Prop
  | [], _ => False
  | p :: ps, q => q = p ∨ Fine next p ∧ Turn ps q

/-- A walk from the one place comes to the other. -/
abbrev Met : V → V → Prop := ReflTransGen fun p c => ∃ cs, next p = some cs ∧ Turn next cs c

def MetIn (ps : List V) (q : V) : Prop := ∃ p, Turn next ps p ∧ Met next p q

variable {next} {p q c : V} {ps cs : List V}

theorem Turn.mem (h : Turn next ps q) : q ∈ ps := by
  induction ps with
  | nil => exact h.elim
  | cons p ps ih =>
    rcases h with rfl | ⟨-, h⟩
    · exact mem_cons_self
    · exact mem_cons_of_mem p (ih h)

theorem turn_of_fine (hfine : ∀ p ∈ ps, Fine next p) (h : q ∈ ps) : Turn next ps q := by
  induction ps with
  | nil => cases h
  | cons p ps ih =>
    rcases mem_cons.mp h with rfl | h
    · exact .inl rfl
    · exact .inr ⟨hfine p mem_cons_self,
        ih (fun r hr => hfine r (mem_cons_of_mem p hr)) h⟩

theorem Met.below (h : Met next p q) : Below next p q := by
  refine ReflTransGen.mono ?_ _ _ h
  rintro p c ⟨cs, hcs, hturn⟩
  exact ⟨cs, hcs, hturn.mem⟩

theorem Fine.of_below (h : Fine next p) (hq : Below next p q) : Fine next q :=
  fun r hr => h r (hq.trans hr)

theorem Fine.met (h : Fine next p) (hq : Below next p q) : Met next p q := by
  induction hq with
  | refl => exact .refl
  | tail hpq hc ih =>
    obtain ⟨cs, hcs, hmem⟩ := hc
    refine ih.tail ⟨cs, hcs, turn_of_fine (fun d hd => ?_) hmem⟩
    exact h.of_below (hpq.tail ⟨cs, hcs, hd⟩)

theorem fine_iff (hcs : next p = some cs) : Fine next p ↔ ∀ c ∈ cs, Fine next c := by
  constructor
  · intro h c hc
    exact h.of_below (.single ⟨cs, hcs, hc⟩)
  · intro h q hq
    rcases hq.cases_head with rfl | ⟨c, ⟨cs', hcs', hc⟩, hq⟩
    · rw [hcs]
      exact Option.some_ne_none cs
    · obtain rfl := Option.some.inj (hcs.symm.trans hcs')
      exact h c hc q hq

theorem met_iff : Met next p q ↔ p = q ∨ ∃ cs, next p = some cs ∧ MetIn next cs q := by
  rw [Met, ReflTransGen.cases_head_iff]
  refine or_congr_right ⟨?_, ?_⟩
  · rintro ⟨c, ⟨cs, hcs, hturn⟩, hq⟩
    exact ⟨cs, hcs, c, hturn, hq⟩
  · rintro ⟨cs, hcs, c, hturn, hq⟩
    exact ⟨c, ⟨cs, hcs, hturn⟩, hq⟩

theorem metIn_cons : MetIn next (p :: ps) q ↔ Met next p q ∨ Fine next p ∧ MetIn next ps q := by
  constructor
  · rintro ⟨r, rfl | ⟨hfine, hturn⟩, hq⟩
    · exact .inl hq
    · exact .inr ⟨hfine, r, hturn, hq⟩
  · rintro (hq | ⟨hfine, r, hturn, hq⟩)
    · exact ⟨p, .inl rfl, hq⟩
    · exact ⟨r, .inr ⟨hfine, hturn⟩, hq⟩

theorem MetIn.trans (h : MetIn next ps p) (hq : Met next p q) : MetIn next ps q := by
  obtain ⟨r, hturn, hr⟩ := h
  exact ⟨r, hturn, hr.trans hq⟩

end Met

theorem visitAll_induct {f : P → S → Option (S × Option E)} (I : S → Prop)
    (hf : ∀ p s r, I s → f p s = some r → I r.1) {ps : List P} {s : S} {r : S × Option E}
    (hs : I s) (h : visitAll f ps s = some r) : I r.1 := by
  induction ps generalizing s with
  | nil =>
    cases h
    exact hs
  | cons p ps ih =>
    rw [visitAll] at h
    split at h
    next s' hp => exact ih (hf p s _ hs hp) h
    next => exact hf p s r hs h

/-- A visit with more results, and the same where there was one. -/
theorem visitAll_mono {f g : P → S → Option (S × Option E)}
    (hfg : ∀ p s r, f p s = some r → g p s = some r) {ps : List P} {s : S} {r : S × Option E}
    (h : visitAll f ps s = some r) : visitAll g ps s = some r := by
  induction ps generalizing s with
  | nil => exact h
  | cons p ps ih =>
    rw [visitAll] at h ⊢
    split at h
    next s' hp =>
      rw [hfg p s _ hp]
      exact ih h
    next hstop =>
      rw [hfg p s r h]
      obtain ⟨s', _ | e⟩ := r
      · exact absurd h (hstop s')
      · rfl

theorem visitAll_view {S' P' E' : Type*} {f : P → S → Option (S × Option E)}
    {g : P' → S' → Option (S' × Option E')} (key : P → P') (view : S → S') (err : E → E')
    {ps : List P} {s : S} (hf : ∀ p ∈ ps, ∀ s,
      (f p s).map (fun r => (view r.1, r.2.map err)) = g (key p) (view s)) :
    (visitAll f ps s).map (fun r => (view r.1, r.2.map err)) =
      visitAll g (ps.map key) (view s) := by
  induction ps generalizing s with
  | nil => rfl
  | cons p ps ih =>
    rw [map_cons, visitAll, visitAll, ← hf p mem_cons_self s]
    match f p s with
    | some (s', none) => exact ih fun q hq => hf q (mem_cons_of_mem p hq)
    | some (s', some e) => rfl
    | none => rfl

variable {next : V → Option (List V)} {rank : V → Nat} {p q : V} {n : Nat}
  {ps visited : List V} {r : List V × Option Unit}

theorem visit_nodup [DecidableEq V] (hnodup : visited.Nodup) (h : visit next n p visited = some r) :
    r.1.Nodup := by
  induction n generalizing p visited r with
  | zero => cases h
  | succ n ih =>
    rw [visit] at h
    split at h
    next => exact Option.some.inj h ▸ hnodup
    next hp =>
      have hnodup' := nodup_cons.mpr ⟨hp, hnodup⟩
      split at h
      next => exact Option.some.inj h ▸ hnodup'
      next => exact visitAll_induct List.Nodup (fun _ _ _ hs hr => ih hs hr) hnodup' h

def Settled (next : V → Option (List V)) (visited : List V) (p : V) : Prop :=
  ∀ q ∈ visited, Below next p q → Fine next q ∧ ∀ d, Below next q d → d ∈ visited

/-- What a walk has done: it was at the places of `M` and has failed unless `F`. -/
structure Walked (visited : List V) (M : V → Prop) (F : Prop) (r : List V × Option Unit) :
    Prop where
  mem_iff : ∀ q, q ∈ r.1 ↔ q ∈ visited ∨ M q
  fine : r.2 = none ↔ F

theorem Walked.settled (h : Walked visited (Met next p) (Fine next p) r) (hr : r.2 = none)
    (hq : Settled next visited q) : Settled next r.1 q := by
  have hfine := h.fine.mp hr
  intro c hc hqc
  rcases (h.mem_iff c).mp hc with hc | hc
  · obtain ⟨hc, hdone⟩ := hq c hc hqc
    exact ⟨hc, fun d hd => (h.mem_iff d).mpr (.inl (hdone d hd))⟩
  · exact ⟨hfine.of_below hc.below,
      fun d hd => (h.mem_iff d).mpr (.inr (hfine.met (hc.below.trans hd)))⟩

variable {f : V → List V → Option (List V × Option Unit)}

theorem visitAll_walked
    (hf : ∀ p visited r, Settled next visited p → f p visited = some r →
      Walked visited (Met next p) (Fine next p) r)
    (hps : ∀ p ∈ ps, Settled next visited p) (h : visitAll f ps visited = some r) :
    Walked visited (MetIn next ps) (∀ p ∈ ps, Fine next p) r := by
  induction ps generalizing visited with
  | nil =>
    cases h
    exact ⟨fun q => by simp [MetIn, Turn], by simp⟩
  | cons p ps ih =>
    have hp := hps p mem_cons_self
    rw [visitAll] at h
    split at h
    next visited' hfirst =>
      have hwalked := hf p visited _ hp hfirst
      have hfine := hwalked.fine.mp rfl
      have hrest := ih (fun q hq => hwalked.settled rfl (hps q (mem_cons_of_mem p hq))) h
      constructor
      · intro q
        rw [hrest.mem_iff, hwalked.mem_iff, metIn_cons, or_assoc]
        simp [hfine]
      · rw [hrest.fine, forall_mem_cons]
        simp [hfine]
    next hstop =>
      have hwalked := hf p visited r hp h
      have hfails : ¬Fine next p := by
        intro hfine
        exact hstop r.1 (by rw [h, ← hwalked.fine.mpr hfine])
      constructor
      · intro q
        rw [hwalked.mem_iff, metIn_cons]
        simp [hfails]
      · rw [hwalked.fine, forall_mem_cons]
        simp [hfails]

theorem rank_le (hrank : ∀ p c, Child next p c → rank p < rank c) (h : Below next p q) :
    rank p ≤ rank q := by
  induction h with
  | refl => exact Nat.le_refl _
  | tail _ hc ih => exact ih.trans (hrank _ _ hc).le

theorem Settled.child (hrank : ∀ p c, Child next p c → rank p < rank c)
    (h : Settled next visited p) (hp : p ∉ visited) {c : V} (hc : Child next p c) :
    Settled next (p :: visited) c := by
  intro q hq hcq
  rcases mem_cons.mp hq with rfl | hq
  · exact absurd (rank_le hrank hcq) (Nat.not_le_of_lt (hrank q c hc))
  · obtain ⟨hfine, hdone⟩ := h q hq (.head hc hcq)
    exact ⟨hfine, fun d hd => mem_cons_of_mem p (hdone d hd)⟩

theorem visit_walked [DecidableEq V] (hrank : ∀ p c, Child next p c → rank p < rank c)
    (hp : Settled next visited p) (h : visit next n p visited = some r) :
    Walked visited (Met next p) (Fine next p) r := by
  induction n generalizing p visited r with
  | zero => cases h
  | succ n ih =>
    rw [visit] at h
    split at h
    next hmem =>
      cases h
      obtain ⟨hfine, hdone⟩ := hp p hmem .refl
      refine ⟨fun q => ⟨.inl, ?_⟩, by simp [hfine]⟩
      rintro (hq | hq)
      · exact hq
      · exact hdone q hq.below
    next hmem =>
      split at h
      next hnone =>
        cases h
        have hfails : ¬Fine next p := fun hfine => hfine p .refl hnone
        refine ⟨fun q => ?_, by simp [hfails]⟩
        rw [met_iff, hnone, mem_cons]
        simp [or_comm, eq_comm]
      next cs hcs =>
        have hwalked := visitAll_walked (fun _ _ _ hc hr => ih hc hr)
          (fun c hc => hp.child hrank hmem ⟨cs, hcs, hc⟩) h
        refine ⟨fun q => ?_, hwalked.fine.trans (fine_iff hcs).symm⟩
        rw [hwalked.mem_iff, met_iff, hcs, mem_cons]
        simp only [Option.some.injEq, exists_eq_left']
        rw [or_comm (a := q = p), or_assoc, eq_comm]

def Within (next : V → Option (List V)) : Nat → V → Prop
  | 0, _ => False
  | n + 1, p => ∀ cs, next p = some cs → ∀ c, Turn next cs c → Within next n c

theorem visitAll_exists
    (hf : ∀ p visited r, Settled next visited p → f p visited = some r →
      Walked visited (Met next p) (Fine next p) r)
    (hsome : ∀ p visited, Turn next ps p → Settled next visited p → ∃ r, f p visited = some r)
    (hps : ∀ p ∈ ps, Settled next visited p) : ∃ r, visitAll f ps visited = some r := by
  induction ps generalizing visited with
  | nil => exact ⟨_, rfl⟩
  | cons p ps ih =>
    have hp := hps p mem_cons_self
    obtain ⟨⟨visited', e⟩, hr⟩ := hsome p visited (.inl rfl) hp
    have hwalked := hf p visited _ hp hr
    rw [visitAll, hr]
    cases e with
    | some e => exact ⟨_, rfl⟩
    | none =>
      refine ih (fun q visited hq => hsome q visited (.inr ⟨hwalked.fine.mp rfl, hq⟩)) ?_
      exact fun q hq => hwalked.settled rfl (hps q (mem_cons_of_mem p hq))

theorem visit_exists [DecidableEq V] (hrank : ∀ p c, Child next p c → rank p < rank c)
    (hp : Settled next visited p) (h : Within next n p) : ∃ r, visit next n p visited = some r := by
  induction n generalizing p visited with
  | zero => exact h.elim
  | succ n ih =>
    rw [visit]
    split
    next => exact ⟨_, rfl⟩
    next hmem =>
      split
      next => exact ⟨_, rfl⟩
      next cs hcs =>
        refine visitAll_exists (fun _ _ _ hc hr => visit_walked hrank hc hr)
          (fun c visited hturn hc => ih hc (h cs hcs c hturn)) ?_
        exact fun c hc => hp.child hrank hmem ⟨cs, hcs, hc⟩

/-- **The walk ends if marks are finite and tell apart what goes on.**  The marks above a
place are all different, and there are only so many. -/
theorem within_of_finite {L : Type*} [Fintype L] (mark : V → Option L) (M : V → Prop)
    (hrank : ∀ p c, Child next p c → rank p < rank c)
    (hmark : ∀ p c, Child next p c → mark p ≠ none)
    (hM : ∀ p cs c, M p → next p = some cs → Turn next cs c → M c)
    (hinj : ∀ p q, M p → M q → mark p ≠ none → mark p = mark q → p = q)
    (hp : M p) (above : List L) (hnodup : above.Nodup)
    (habove : ∀ l ∈ above, ∃ q, M q ∧ mark q = some l ∧ rank q < rank p)
    (hlen : Fintype.card L < above.length + n) : Within next n p := by
  induction n generalizing p above with
  | zero =>
    have := hnodup.length_le_card
    omega
  | succ n ih =>
    intro cs hcs c hturn
    have hchild : Child next p c := ⟨cs, hcs, hturn.mem⟩
    obtain ⟨l, hl⟩ := Option.ne_none_iff_exists'.mp (hmark p c hchild)
    have hnew : l ∉ above := by
      intro hmem
      obtain ⟨q, hq, hql, hlt⟩ := habove l hmem
      have := hinj p q hp hq (hmark p c hchild) (hl.trans hql.symm)
      exact absurd hlt (this ▸ Nat.lt_irrefl _)
    refine ih (hM p cs c hp hcs hturn) (l :: above) (nodup_cons.mpr ⟨hnew, hnodup⟩) ?_
      (by rw [length_cons]; omega)
    rintro k hk
    rcases mem_cons.mp hk with rfl | hk
    · exact ⟨p, hp, hl, hrank p c hchild⟩
    · obtain ⟨q, hq, hqk, hlt⟩ := habove k hk
      exact ⟨q, hq, hqk, hlt.trans (hrank p c hchild)⟩

end DepthFirst
