import Mathlib.Data.List.Induction

/-!
# Incremental decoders

A decoder reads a buffer that grows by chunks.  One call of `decode` either
produces an item, asks for more bytes, or fails; in each case it may have moved
its own state and consumed a prefix of the buffer.

Three laws make the result independent of how the bytes arrive: bytes appended
behind a buffer do not change an item already produced (`extend_some`), a call
that asked for more bytes can be resumed where it stopped (`extend_none`), and a
failure stays a failure (`extend_error`).  From them:

* `drain_append`: draining a longer buffer is draining the shorter one and then
  feeding the rest;
* `feedAll_eq_drain`: feeding any chunks is draining their concatenation;
* `drain_items_prefix`: the items of a prefix of the bytes are a prefix of the
  items;
* `Yields.read`: reading before all bytes of the next item are there takes nothing
  away from the items to come;
* `drain_andThen`: a decoder whose items go through a second, stateful `stage` is a
  decoder again, and drains to what the stage makes of the items.
-/

namespace Incremental

universe u

structure Decoder (σ β α ε : Type u) where
  decode : σ → List β → Except ε (Option α) × σ × List β
  measure : σ → List β → Nat
  some_lt : ∀ {s s' src rest a}, decode s src = (.ok (some a), s', rest) →
    measure s' rest < measure s src
  extend_some : ∀ {s s' src rest a} (x : List β),
    decode s src = (.ok (some a), s', rest) → decode s (src ++ x) = (.ok (some a), s', rest ++ x)
  extend_none : ∀ {s s' src rest} (x : List β),
    decode s src = (.ok none, s', rest) → decode s (src ++ x) = decode s' (rest ++ x)
  extend_error : ∀ {s s' src rest e} (x : List β),
    decode s src = (.error e, s', rest) → ∃ s'' rest', decode s (src ++ x) = (.error e, s'', rest')

/-- What calling `decode` until it stops leaves behind. -/
structure Drained (σ β α ε : Type u) where
  items : List α
  error : Option ε
  state : σ
  rest : List β

variable {σ β α ε : Type u}

def Drained.cons (a : α) (d : Drained σ β α ε) : Drained σ β α ε :=
  { d with items := a :: d.items }

namespace Decoder

variable (D : Decoder σ β α ε)

/-- Call `decode` until it asks for more bytes or fails. -/
def drain (s : σ) (src : List β) : Drained σ β α ε :=
  match _h : D.decode s src with
  | (.ok (some a), s', rest) => (drain s' rest).cons a
  | (.ok none, s', rest) => ⟨[], none, s', rest⟩
  | (.error e, s', rest) => ⟨[], some e, s', rest⟩
termination_by D.measure s src
decreasing_by exact D.some_lt _h

/-- One chunk arrives: it is appended to the buffer, which is drained again.
A failed decoder is not called any more. -/
def feed (d : Drained σ β α ε) (chunk : List β) : Drained σ β α ε :=
  match d.error with
  | some _ => d
  | none =>
    let d' := D.drain d.state (d.rest ++ chunk)
    { d' with items := d.items ++ d'.items }

def feedAll (s : σ) (chunks : List (List β)) : Drained σ β α ε :=
  chunks.foldl D.feed ⟨[], none, s, []⟩

variable {src rest : List β} {s s' : σ}

theorem drain_some {a : α} (h : D.decode s src = (.ok (some a), s', rest)) :
    D.drain s src = (D.drain s' rest).cons a := by
  rw [drain]
  split <;> simp_all

theorem drain_none (h : D.decode s src = (.ok none, s', rest)) :
    D.drain s src = ⟨[], none, s', rest⟩ := by
  rw [drain]
  split <;> simp_all

theorem drain_error {e : ε} (h : D.decode s src = (.error e, s', rest)) :
    D.drain s src = ⟨[], some e, s', rest⟩ := by
  rw [drain]
  split <;> simp_all

theorem feed_cons (a : α) (d : Drained σ β α ε) (chunk : List β) :
    D.feed (d.cons a) chunk = (D.feed d chunk).cons a := by
  cases h : d.error <;> simp [feed, Drained.cons, h]

theorem drain_resume (h : D.decode s src = (.ok none, s', rest)) (x : List β) :
    D.drain s (src ++ x) = D.drain s' (rest ++ x) := by
  have hext := D.extend_none x h
  rcases hd : D.decode s' (rest ++ x) with ⟨(e | _ | a), t, r⟩
  · rw [D.drain_error hd, D.drain_error (hext.trans hd)]
  · rw [D.drain_none hd, D.drain_none (hext.trans hd)]
  · rw [D.drain_some hd, D.drain_some (hext.trans hd)]

/-- **Draining a longer buffer.**  As long as the shorter buffer does not fail,
draining both at once is draining the first and feeding the second. -/
theorem drain_append (s : σ) (src x : List β) (hok : (D.drain s src).error = none) :
    D.drain s (src ++ x) = D.feed (D.drain s src) x := by
  induction s, src using drain.induct (D := D) with
  | case1 s src a s' rest h ih =>
    rw [D.drain_some h] at hok ⊢
    rw [D.drain_some (D.extend_some x h), feed_cons, ih hok]
  | case2 s src s' rest h =>
    rw [D.drain_none h, D.drain_resume h x]
    simp [feed]
  | case3 s src e s' rest h =>
    rw [D.drain_error h] at hok
    cases hok

theorem drain_append_error (s : σ) (src x : List β) {e : ε}
    (herr : (D.drain s src).error = some e) : (D.drain s (src ++ x)).error = some e := by
  induction s, src using drain.induct (D := D) with
  | case1 s src a s' rest h ih =>
    rw [D.drain_some h] at herr
    rw [D.drain_some (D.extend_some x h)]
    exact ih herr
  | case2 s src s' rest h =>
    rw [D.drain_none h] at herr
    cases herr
  | case3 s src e' s' rest h =>
    rw [D.drain_error h] at herr
    obtain ⟨s'', rest', h'⟩ := D.extend_error x h
    rw [D.drain_error h']
    exact herr

theorem drain_items_prefix (s : σ) (src x : List β) (hok : (D.drain s (src ++ x)).error = none) :
    (D.drain s src).error = none ∧ (D.drain s src).items <+: (D.drain s (src ++ x)).items := by
  have hsrc : (D.drain s src).error = none := by
    cases h : (D.drain s src).error with
    | none => rfl
    | some e => simp [D.drain_append_error s src x h] at hok
  refine ⟨hsrc, ?_⟩
  rw [D.drain_append s src x hsrc]
  simp [feed, hsrc]

/-- **Fragmentation does not matter.**  A decoder that waits in state `s` on an
empty buffer ends, after any chunks, as if it had drained their
concatenation. -/
theorem feedAll_eq_drain {s : σ} (hidle : D.decode s [] = (.ok none, s, []))
    (chunks : List (List β)) (hok : (D.drain s chunks.flatten).error = none) :
    D.feedAll s chunks = D.drain s chunks.flatten := by
  induction chunks using List.reverseRecOn with
  | nil => simp [feedAll, D.drain_none hidle]
  | append_singleton chunks last ih =>
    have hflat : (chunks ++ [last]).flatten = chunks.flatten ++ last := by simp
    rw [hflat] at hok ⊢
    have hprefix := (D.drain_items_prefix s _ _ hok).1
    rw [D.drain_append s _ _ hprefix, ← ih hprefix]
    simp [feedAll]

theorem drain_append_items (s : σ) (src x : List β) {e : ε}
    (herr : (D.drain s src).error = some e) :
    (D.drain s (src ++ x)).items = (D.drain s src).items := by
  induction s, src using drain.induct (D := D) with
  | case1 s src a s' rest h ih =>
    rw [D.drain_some h] at herr ⊢
    rw [D.drain_some (D.extend_some x h)]
    exact congrArg (a :: ·) (ih herr)
  | case2 s src s' rest h =>
    rw [D.drain_none h] at herr
    cases herr
  | case3 s src e' s' rest h =>
    obtain ⟨s'', rest', h'⟩ := D.extend_error x h
    rw [D.drain_error h, D.drain_error h']

/-- Fragmentation does not matter for a stream that fails, either. -/
theorem feedAll_items {s : σ} (hidle : D.decode s [] = (.ok none, s, []))
    (chunks : List (List β)) :
    (D.feedAll s chunks).items = (D.drain s chunks.flatten).items ∧
      (D.feedAll s chunks).error = (D.drain s chunks.flatten).error := by
  induction chunks using List.reverseRecOn with
  | nil => simp [feedAll, D.drain_none hidle]
  | append_singleton chunks last ih =>
    have hflat : (chunks ++ [last]).flatten = chunks.flatten ++ last := by simp
    have hlast : D.feedAll s (chunks ++ [last]) = D.feed (D.feedAll s chunks) last := by
      simp [feedAll]
    rw [hflat, hlast]
    cases herr : (D.drain s chunks.flatten).error with
    | none =>
      rw [D.feedAll_eq_drain hidle chunks herr, D.drain_append s _ _ herr]
      exact ⟨rfl, rfl⟩
    | some e =>
      have hstuck : D.feed (D.feedAll s chunks) last = D.feedAll s chunks := by
        simp [feed, ih.2, herr]
      rw [hstuck, D.drain_append_items s _ _ herr, D.drain_append_error s _ _ herr, ← herr]
      exact ih

section Stage

variable {τ γ : Type u} (f : τ → α → Except ε γ × τ)

def stage (t : τ) : List α → List γ × Option ε × τ
  | [] => ([], none, t)
  | a :: as =>
    match f t a with
    | (.ok c, t') => (c :: (stage t' as).1, (stage t' as).2)
    | (.error e, t') => ([], some e, t')

/-- Each item of `D` goes through the stage; the whole fails when either does. -/
def andThen : Decoder (σ × τ) β γ ε where
  decode st src :=
    match D.decode st.1 src with
    | (.ok (some a), s, rest) =>
      match f st.2 a with
      | (.ok c, t) => (.ok (some c), (s, t), rest)
      | (.error e, t) => (.error e, (s, t), rest)
    | (.ok none, s, rest) => (.ok none, (s, st.2), rest)
    | (.error e, s, rest) => (.error e, (s, st.2), rest)
  measure st src := D.measure st.1 src
  some_lt {st st' src rest c} h := by
    rcases hd : D.decode st.1 src with ⟨(e | _ | a), s, left⟩
    · simp [hd] at h
    · simp [hd] at h
    · have hlt := D.some_lt hd
      rcases hf : f st.2 a with ⟨(e | d), t⟩ <;> simp [hd, hf] at h
      obtain ⟨-, rfl, rfl⟩ := h
      exact hlt
  extend_some {st st' src rest c} x h := by
    rcases hd : D.decode st.1 src with ⟨(e | _ | a), s, left⟩
    · simp [hd] at h
    · simp [hd] at h
    · rcases hf : f st.2 a with ⟨(e | d), t⟩ <;> simp [hd, hf] at h
      obtain ⟨rfl, rfl, rfl⟩ := h
      simp [D.extend_some x hd, hf]
  extend_none {st st' src rest} x h := by
    rcases hd : D.decode st.1 src with ⟨(e | _ | a), s, left⟩
    · simp [hd] at h
    · simp [hd] at h
      obtain ⟨rfl, rfl⟩ := h
      simp [D.extend_none x hd]
    · rcases hf : f st.2 a with ⟨(e | d), t⟩ <;> simp [hd, hf] at h
  extend_error {st st' src rest e} x h := by
    rcases hd : D.decode st.1 src with ⟨(e' | _ | a), s, left⟩
    · simp [hd] at h
      obtain ⟨rfl, -⟩ := h
      obtain ⟨s'', rest', hx⟩ := D.extend_error x hd
      exact ⟨(s'', st.2), rest', by simp [hx]⟩
    · simp [hd] at h
    · rcases hf : f st.2 a with ⟨(e' | d), t⟩ <;> simp [hd, hf] at h
      obtain ⟨rfl, -⟩ := h
      exact ⟨(s, t), left ++ x, by simp [D.extend_some x hd, hf]⟩

/-- **Draining through a stage.**  The items are those the stage lets through, and if it
lets all through, nothing else differs. -/
theorem drain_andThen (s : σ) (t : τ) (src : List β) :
    ((D.andThen f).drain (s, t) src).items = (stage f t (D.drain s src).items).1 ∧
      ((stage f t (D.drain s src).items).2.1 = none →
        (D.andThen f).drain (s, t) src = ⟨(stage f t (D.drain s src).items).1,
          (D.drain s src).error, ((D.drain s src).state, (stage f t (D.drain s src).items).2.2),
          (D.drain s src).rest⟩) := by
  induction s, src using drain.induct (D := D) generalizing t with
  | case1 s src a s' rest h ih =>
    rw [D.drain_some h]
    rcases hf : f t a with ⟨(e | c), t'⟩
    · have hfail : (D.andThen f).decode (s, t) src = (.error e, (s', t'), rest) := by
        simp [andThen, h, hf]
      rw [(D.andThen f).drain_error hfail]
      simp [Drained.cons, stage, hf]
    · have hone : (D.andThen f).decode (s, t) src = (.ok (some c), (s', t'), rest) := by
        simp [andThen, h, hf]
      obtain ⟨hitems, hall⟩ := ih t'
      rw [(D.andThen f).drain_some hone]
      simp only [Drained.cons, stage, hf]
      exact ⟨congrArg (c :: ·) hitems, fun hok => by rw [hall hok]⟩
  | case2 s src s' rest h =>
    have hwait : (D.andThen f).decode (s, t) src = (.ok none, (s', t), rest) := by
      simp [andThen, h]
    rw [D.drain_none h, (D.andThen f).drain_none hwait]
    exact ⟨rfl, fun _ => rfl⟩
  | case3 s src e s' rest h =>
    have hfail : (D.andThen f).decode (s, t) src = (.error e, (s', t), rest) := by
      simp [andThen, h]
    rw [D.drain_error h, (D.andThen f).drain_error hfail]
    exact ⟨rfl, fun _ => rfl⟩

end Stage

/-- From a state and its buffer, the calls yield the items one after the other, and leave the
last state and buffer. -/
inductive Yields : σ → List β → List α → σ → List β → Prop
  | nil (s : σ) (src : List β) : Yields s src [] s src
  | cons {s s' s'' : σ} {src rest rest' : List β} {a : α} {as : List α}
      (head : D.decode s src = (.ok (some a), s', rest)) (tail : Yields s' rest as s'' rest') :
      Yields s src (a :: as) s'' rest'

variable {D} {as : List α}

theorem Yields.extend (h : D.Yields s src as s' rest) (x : List β) :
    D.Yields s (src ++ x) as s' (rest ++ x) := by
  induction h with
  | nil s src => exact .nil s (src ++ x)
  | cons head _ ih => exact .cons (D.extend_some x head) ih

theorem Yields.snoc {s s' s'' : σ} {src rest rest' : List β} {a : α}
    (h : D.Yields s src as s' rest) (last : D.decode s' rest = (.ok (some a), s'', rest')) :
    D.Yields s src (as ++ [a]) s'' rest' := by
  induction h with
  | nil s src => exact .cons last (.nil s'' rest')
  | cons head _ ih => exact .cons head (ih last)

theorem Yields.length_le (hshrink : ∀ s src, (D.decode s src).2.2.length ≤ src.length)
    (h : D.Yields s src as s' rest) : rest.length ≤ src.length := by
  induction h with
  | nil s src => exact Nat.le_refl _
  | @cons s _ _ src _ _ _ _ head _ ih =>
    have hone := hshrink s src
    rw [head] at hone
    exact Nat.le_trans ih hone

/-- **Reading before everything is there.**  A call on the first bytes either asks for more and
changes nothing in what is to come, or it yields the first item; it does not fail. -/
theorem Yields.read {src x rest : List β} {a : α} (h : D.Yields s (src ++ x) (a :: as) s' rest) :
    (∃ t left, D.decode s src = (.ok none, t, left) ∧ D.Yields t (left ++ x) (a :: as) s' rest) ∨
    (∃ t left, D.decode s src = (.ok (some a), t, left) ∧ D.Yields t (left ++ x) as s' rest) := by
  cases h with
  | @cons _ s₁ _ _ rest₁ _ _ _ head tail =>
    rcases hd : D.decode s src with ⟨(e | _ | b), t, left⟩
    · obtain ⟨t', left', hfail⟩ := D.extend_error x hd
      rw [head] at hfail
      cases hfail
    · rw [D.extend_none x hd] at head
      exact .inl ⟨t, left, rfl, .cons head tail⟩
    · have hsame := D.extend_some x hd
      rw [head] at hsame
      cases hsame
      exact .inr ⟨_, left, rfl, tail⟩

end Decoder
end Incremental
