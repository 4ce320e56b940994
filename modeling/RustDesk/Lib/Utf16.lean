import Mathlib.Data.List.Basic

/-!
# UTF-16

Texts as lists of code units.  A character outside the basic plane has two units, a high and a low
surrogate, so a text can be cut inside of it; `lossy` reads a surrogate that stands alone as
U+FFFD.  On the units of a text it gives the text (`lossy_units`).

A suffix of the units of a text either is the units of a text, or begins in the middle of a
character and is then not read as the end of the text (`cut_cases`).
-/

namespace Utf16

open List

def isHigh (u : Nat) : Bool := 0xD800 ≤ u && u < 0xDC00

def isLow (u : Nat) : Bool := 0xDC00 ≤ u && u < 0xE000

def isSurrogate (u : Nat) : Bool := isHigh u || isLow u

def encode (c : Char) : List Nat :=
  if c.toNat < 0x10000 then [c.toNat]
  else [0xD800 + (c.toNat - 0x10000) / 0x400, 0xDC00 + (c.toNat - 0x10000) % 0x400]

def units (cs : List Char) : List Nat := cs.flatMap encode

def alone (u : Nat) : Char := if isSurrogate u then Char.ofNat 0xFFFD else Char.ofNat u

def pair (u v : Nat) : Char := Char.ofNat (0x10000 + (u - 0xD800) * 0x400 + (v - 0xDC00))

def lossy : List Nat → List Char
  | [] => []
  | [u] => [alone u]
  | u :: v :: us => if isHigh u && isLow v then pair u v :: lossy us else alone u :: lossy (v :: us)

theorem encode_cases (c : Char) :
    (encode c = [c.toNat] ∧ isSurrogate c.toNat = false) ∨
      (0x10000 ≤ c.toNat ∧ ∃ u v, encode c = [u, v] ∧ isHigh u = true ∧ isLow v = true ∧
        pair u v = c) := by
  have hvalid := c.valid
  have htoNat : c.val.toNat = c.toNat := rfl
  rw [UInt32.isValidChar, htoNat] at hvalid
  by_cases hc : c.toNat < 0x10000
  · left
    rw [encode, if_pos hc]
    refine ⟨rfl, ?_⟩
    simp only [isSurrogate, isHigh, isLow, Nat.isValidChar] at hvalid ⊢
    simp only [Bool.or_eq_false_iff, Bool.and_eq_false_iff, decide_eq_false_iff_not]
    omega
  · right
    rw [encode, if_neg hc]
    have hlt : c.toNat < 0x110000 := by
      simp only [Nat.isValidChar] at hvalid
      omega
    refine ⟨by omega, _, _, rfl, ?_, ?_, ?_⟩
    · simp only [isHigh, Bool.and_eq_true, decide_eq_true_eq]
      omega
    · simp only [isLow, Bool.and_eq_true, decide_eq_true_eq]
      omega
    · have hsum : 0x10000 + (0xD800 + (c.toNat - 0x10000) / 0x400 - 0xD800) * 0x400 +
          (0xDC00 + (c.toNat - 0x10000) % 0x400 - 0xDC00) = c.toNat := by omega
      rw [pair, hsum, Char.ofNat_toNat]

theorem isHigh_of_isLow {u : Nat} (h : isLow u = true) : isHigh u = false := by
  simp only [isLow, isHigh, Bool.and_eq_true, Bool.and_eq_false_iff, decide_eq_true_eq,
    decide_eq_false_iff_not] at h ⊢
  omega

theorem alone_toNat {c : Char} (h : isSurrogate c.toNat = false) : alone c.toNat = c := by
  rw [alone, h]
  exact Char.ofNat_toNat c

@[simp] theorem units_nil : units [] = [] := rfl

theorem units_cons (c : Char) (cs : List Char) : units (c :: cs) = encode c ++ units cs := rfl

theorem units_append (cs ds : List Char) : units (cs ++ ds) = units cs ++ units ds :=
  flatMap_append

theorem lossy_cons {u : Nat} (h : isHigh u = false) (us : List Nat) :
    lossy (u :: us) = alone u :: lossy us := by
  cases us with
  | nil => rfl
  | cons v us => simp [lossy, h]

theorem lossy_encode_append (c : Char) (us : List Nat) :
    lossy (encode c ++ us) = c :: lossy us := by
  rcases encode_cases c with ⟨heq, hone⟩ | ⟨-, u, v, heq, hu, hv, hpair⟩
  · have hhigh : isHigh c.toNat = false := (Bool.or_eq_false_iff.mp hone).1
    rw [heq, cons_append, nil_append, lossy_cons hhigh, alone_toNat hone]
  · rw [heq]
    simp [lossy, hu, hv, hpair]

theorem lossy_units (cs : List Char) : lossy (units cs) = cs := by
  induction cs with
  | nil => rfl
  | cons c cs ih => rw [units_cons, lossy_encode_append, ih]

theorem lossy_units_append (cs : List Char) (us : List Nat) :
    lossy (units cs ++ us) = cs ++ lossy us := by
  induction cs with
  | nil => rfl
  | cons c cs ih =>
    rw [units_cons, append_assoc, lossy_encode_append, ih, cons_append]

theorem length_encode_pos (c : Char) : 1 ≤ (encode c).length := by
  rcases encode_cases c with ⟨heq, -⟩ | ⟨-, u, v, heq, -⟩ <;> simp [heq]

theorem length_le_units (cs : List Char) : cs.length ≤ (units cs).length := by
  induction cs with
  | nil => exact Nat.le_refl _
  | cons c cs ih =>
    have hone := length_encode_pos c
    rw [units_cons, length_append, length_cons]
    omega

variable {cs : List Char}

theorem basic_of_length (h : (units cs).length = cs.length) :
    ∀ u ∈ units cs, isSurrogate u = false := by
  induction cs with
  | nil => exact fun u hu => absurd hu not_mem_nil
  | cons c cs ih =>
    have hle := length_le_units cs
    rw [units_cons, length_append, length_cons] at h
    rcases encode_cases c with ⟨heq, hone⟩ | ⟨-, u, v, heq, -⟩
    · rw [heq, length_singleton] at h
      intro u hu
      rw [units_cons, heq] at hu
      rcases mem_append.mp hu with hu | hu
      · rw [mem_singleton.mp hu]
        exact hone
      · exact ih (by omega) u hu
    · rw [heq] at h
      simp only [length_cons, length_nil] at h
      omega

theorem length_of_basic (h : ∀ u ∈ units cs, isSurrogate u = false) :
    (units cs).length = cs.length := by
  induction cs with
  | nil => rfl
  | cons c cs ih =>
    have htail := ih fun u hu => h u (mem_append_right _ hu)
    rcases encode_cases c with ⟨heq, -⟩ | ⟨-, u, v, heq, hu, -⟩
    · rw [units_cons, length_append, heq, htail, length_singleton, length_cons]
      omega
    · have hone : isSurrogate u = false := by
        apply h
        rw [units_cons, heq]
        exact mem_cons_self
      rw [isSurrogate, hu] at hone
      exact absurd hone Bool.noConfusion

theorem cut_cases {xs ys : List Nat} (h : xs ++ ys = units cs) :
    (∃ front back, cs = front ++ back ∧ xs = units front ∧ ys = units back) ∨
      ∃ front c back v, cs = front ++ c :: back ∧ 0x10000 ≤ c.toNat ∧ isLow v = true ∧
        ys = v :: units back := by
  induction cs generalizing xs with
  | nil =>
    obtain ⟨rfl, rfl⟩ := append_eq_nil_iff.mp h
    exact .inl ⟨[], [], rfl, rfl, rfl⟩
  | cons c cs ih =>
    cases xs with
    | nil => exact .inl ⟨[], c :: cs, rfl, rfl, h⟩
    | cons x xs =>
      -- what follows the character is cut the same way
      have hstep : ∀ {zs : List Nat}, x :: xs = encode c ++ zs → zs ++ ys = units cs →
          (∃ front back, c :: cs = front ++ back ∧ x :: xs = units front ∧ ys = units back) ∨
            ∃ front d back v, c :: cs = front ++ d :: back ∧ 0x10000 ≤ d.toNat ∧
              isLow v = true ∧ ys = v :: units back := by
        intro zs hxs hzs
        rcases ih hzs with ⟨front, back, rfl, rfl, rfl⟩ | ⟨front, d, back, v, rfl, hrest⟩
        · exact .inl ⟨c :: front, back, rfl, by rw [hxs, units_cons], rfl⟩
        · exact .inr ⟨c :: front, d, back, v, rfl, hrest⟩
      rw [units_cons] at h
      rcases encode_cases c with ⟨heq, -⟩ | ⟨hc, u, v, heq, -, hv, -⟩
      · rw [heq, cons_append, cons_append, nil_append] at h
        obtain ⟨rfl, htail⟩ := List.cons.inj h
        exact hstep (by rw [heq]; rfl) htail
      · rw [heq, cons_append, cons_append, cons_append, nil_append] at h
        obtain ⟨rfl, htail⟩ := List.cons.inj h
        cases xs with
        | nil => exact .inr ⟨[], c, cs, v, rfl, hc, hv, htail⟩
        | cons w xs =>
          rw [cons_append] at htail
          obtain ⟨rfl, hrest⟩ := List.cons.inj htail
          exact hstep (by rw [heq]; rfl) hrest

theorem length_units_lossy {xs ys : List Nat} (h : xs ++ ys = units cs) :
    (units (lossy ys)).length = ys.length := by
  rcases cut_cases h with ⟨front, back, -, -, rfl⟩ | ⟨front, c, back, v, -, -, hv, rfl⟩
  · rw [lossy_units]
  · have halone : alone v = Char.ofNat 0xFFFD := by
      rw [alone, isSurrogate, hv, Bool.or_true, if_pos rfl]
    have hone : (encode (Char.ofNat 0xFFFD)).length = 1 := by decide
    rw [lossy_cons (isHigh_of_isLow hv), lossy_units, units_cons, length_append, halone, hone,
      length_cons, Nat.add_comm]

theorem exists_of_units_append {front cs : List Char} {ys : List Nat}
    (h : units front ++ ys = units cs) : ∃ back, cs = front ++ back ∧ ys = units back := by
  have hcs : cs = front ++ lossy ys := by
    rw [← lossy_units cs, ← h, lossy_units_append]
  refine ⟨lossy ys, hcs, ?_⟩
  rw [hcs, units_append] at h
  exact append_cancel_left h

end Utf16
