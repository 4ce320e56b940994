import Mathlib.Tactic.Common

/-!
# Ideal signatures and boxes

Byte strings as terms.  A term is public bytes, a key, a record of two terms under a tag, a
signature, a public-key box or a secret-key box; it says how the bytes were made, and two
terms are the same bytes only if they were made in the same way.  Keys belong to names, and
the adversary owns the names that are `corrupt`.

`Known` is what the adversary can derive from the terms on the wire.  `Safe` bounds it: if
everything on the wire is safe then so is everything known (`Known.safe`), and neither the
secret keys of the other names nor signatures they never made are safe.
-/

namespace SymbolicCrypto

variable {ν τ : Type}

/-- A byte string by the way it is made, over key names `ν` and record tags `τ`. -/
inductive Term (ν τ : Type) where
  | raw (bytes : List UInt8)
  | verifyKey (n : ν)
  | signKey (n : ν)
  | boxPk (n : ν)
  | boxSk (n : ν)
  | key (n : ν)
  | node (tag : τ) (left right : Term ν τ)
  | signed (n : ν) (content : Term ν τ)
  | boxed (a b : Term ν τ) (content : Term ν τ)
  | secretBox (k : Term ν τ) (nonce : Nat) (content : Term ν τ)
  deriving DecidableEq

inductive Known (corrupt : ν → Prop) (wire : Term ν τ → Prop) : Term ν τ → Prop
  | wire {t} : wire t → Known corrupt wire t
  | raw (bytes : List UInt8) : Known corrupt wire (.raw bytes)
  | verifyKey (n : ν) : Known corrupt wire (.verifyKey n)
  | boxPk (n : ν) : Known corrupt wire (.boxPk n)
  | signKey {n} : corrupt n → Known corrupt wire (.signKey n)
  | boxSk {n} : corrupt n → Known corrupt wire (.boxSk n)
  | key {n} : corrupt n → Known corrupt wire (.key n)
  | node (tag : τ) {a b} : Known corrupt wire a → Known corrupt wire b →
      Known corrupt wire (.node tag a b)
  | left {tag a b} : Known corrupt wire (.node tag a b) → Known corrupt wire a
  | right {tag a b} : Known corrupt wire (.node tag a b) → Known corrupt wire b
  | sign {n t} : Known corrupt wire (.signKey n) → Known corrupt wire t →
      Known corrupt wire (.signed n t)
  | unsign {n t} : Known corrupt wire (.signed n t) → Known corrupt wire t
  | box {n a b t} : Known corrupt wire (.boxSk n) → a = .boxPk n ∨ b = .boxPk n →
      Known corrupt wire t → Known corrupt wire (.boxed a b t)
  | unbox {n a b t} : Known corrupt wire (.boxSk n) → a = .boxPk n ∨ b = .boxPk n →
      Known corrupt wire (.boxed a b t) → Known corrupt wire t
  | lock {k t} (nonce : Nat) : Known corrupt wire k → Known corrupt wire t →
      Known corrupt wire (.secretBox k nonce t)
  | unlock {k nonce t} : Known corrupt wire k → Known corrupt wire (.secretBox k nonce t) →
      Known corrupt wire t

variable {t : Term ν τ}

/-- What may be on the wire: `Issued` says what the honest names have signed, `Kept` what
boxes between honest names hide. -/
structure Policy (ν τ : Type) where
  corrupt : ν → Prop
  Issued : ν → Term ν τ → Prop
  Kept : Term ν τ → Term ν τ → Term ν τ → Prop
  /-- What a box hides is hidden from the adversary's keys. -/
  kept_honest : ∀ {a b t n}, Kept a b t → a = .boxPk n ∨ b = .boxPk n → ¬corrupt n

def Safe (p : Policy ν τ) : Term ν τ → Prop
  | .raw _ | .verifyKey _ | .boxPk _ => True
  | .signKey n | .boxSk n | .key n => p.corrupt n
  | .node _ a b => Safe p a ∧ Safe p b
  | .signed n t => Safe p t ∧ (p.corrupt n ∨ p.Issued n t)
  | .boxed a b t => Safe p t ∨ p.Kept a b t
  | .secretBox _ _ t => Safe p t

theorem Safe.mono {p q : Policy ν τ} (hcorrupt : ∀ n, p.corrupt n → q.corrupt n)
    (hissued : ∀ n t, p.Issued n t → q.Issued n t)
    (hkept : ∀ a b t, p.Kept a b t → q.Kept a b t) (h : Safe p t) : Safe q t := by
  induction t with
  | raw _ | verifyKey _ | boxPk _ => trivial
  | signKey n | boxSk n | key n => exact hcorrupt n h
  | node tag a b iha ihb => exact ⟨iha h.1, ihb h.2⟩
  | signed n t ih =>
    refine ⟨ih h.1, ?_⟩
    rcases h.2 with hcor | hiss
    · exact .inl (hcorrupt n hcor)
    · exact .inr (hissued n t hiss)
  | boxed a b t _ _ ih =>
    rcases h with hsafe | hhidden
    · exact .inl (ih hsafe)
    · exact .inr (hkept a b t hhidden)
  | secretBox k nonce t _ ih => exact ih h

theorem Known.safe {p : Policy ν τ} {wire : Term ν τ → Prop}
    (hwire : ∀ t, wire t → Safe p t) (h : Known p.corrupt wire t) : Safe p t := by
  induction h with
  | wire ht => exact hwire _ ht
  | raw _ => trivial
  | verifyKey _ => trivial
  | boxPk _ => trivial
  | signKey hn => exact hn
  | boxSk hn => exact hn
  | key hn => exact hn
  | node tag _ _ iha ihb => exact ⟨iha, ihb⟩
  | left _ ih => exact ih.1
  | right _ ih => exact ih.2
  | sign _ _ ihk iht => exact ⟨iht, .inl ihk⟩
  | unsign _ ih => exact ih.1
  | box _ _ _ _ iht => exact .inl iht
  | unbox _ hpk _ ihk iht =>
    rcases iht with hsafe | hkept
    · exact hsafe
    · exact absurd ihk (p.kept_honest hkept hpk)
  | lock _ _ _ _ iht => exact iht
  | unlock _ _ _ iht => exact iht

end SymbolicCrypto
