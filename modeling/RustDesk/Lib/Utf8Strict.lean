import Mathlib.Algebra.Group.Int.Defs
import Mathlib.Algebra.Group.Nat.Defs
import RustDesk.Lib.Utf8

/-!
# Bytes that are cut off in a character

`fromUtf8` reads bytes as text or says where they are none.  It tells a character that is cut
off at the end from bytes that are in no text.

Wherever the encoding of a text is cut, the bytes in front are whole characters and then at most
one that is cut off (`fromUtf8_cut`).
-/

namespace Utf8

open List

def isCut : List UInt8 → Bool
  | [a] => 0xC2 ≤ a && a ≤ 0xF4
  | [a, b] => begins3 a b || begins4 a b
  | [a, b, c] => begins4 a b && isTail c
  | _ => false

def decodeAux : Nat → List UInt8 → List Char × List UInt8
  | 0, bs => ([], bs)
  | _ + 1, [] => ([], [])
  | fuel + 1, b :: bs =>
    match front (b :: bs) with
    | some c =>
      let rest := decodeAux fuel ((b :: bs).drop c.utf8Size)
      (c :: rest.1, rest.2)
    | none => ([], b :: bs)

/-- No `errorLen` means that more bytes might make up a character. -/
structure Utf8Error where
  validUpTo : Nat
  errorLen : Option Nat

def fromUtf8 (bs : List UInt8) : Except Utf8Error (List Char) :=
  let decoded := decodeAux bs.length bs
  if decoded.2 = [] then .ok decoded.1
  else .error ⟨bs.length - decoded.2.length,
    if isCut decoded.2 then none else some (broken decoded.2)⟩

theorem decodeAux_bytes {fuel : Nat} {cs : List Char} {p : List UInt8}
    (hfuel : (bytes cs).length ≤ fuel) (hp : p = [] ∨ front p = none) :
    decodeAux fuel (bytes cs ++ p) = (cs, p) := by
  induction cs generalizing fuel with
  | nil =>
    rw [bytes_nil, nil_append]
    cases fuel with
    | zero => rfl
    | succ fuel =>
      cases p with
      | nil => rfl
      | cons b bs =>
        have hfront := hp.resolve_left (cons_ne_nil b bs)
        simp only [decodeAux, hfront]
  | cons c cs ih =>
    rw [bytes_cons] at hfuel ⊢
    have hpos : 0 < (String.utf8EncodeChar c).length :=
      length_pos_of_ne_nil String.utf8EncodeChar_ne_nil
    rw [length_append] at hfuel
    obtain ⟨n, rfl⟩ : ∃ n, fuel = n + 1 := ⟨fuel - 1, by omega⟩
    rw [append_assoc]
    have hfront := front_bytes c (bytes cs ++ p)
    have hdrop := drop_bytes c (bytes cs ++ p)
    obtain ⟨b, bs, hbs⟩ : ∃ b bs, String.utf8EncodeChar c ++ (bytes cs ++ p) = b :: bs := by
      refine exists_cons_of_ne_nil ?_
      simp
    rw [hbs] at hfront hdrop ⊢
    simp only [decodeAux, hfront, hdrop]
    rw [ih (by omega)]

variable {c : Char} {p q : List UInt8}

theorem front_of_part (h : String.utf8EncodeChar c = p ++ q) (hq : q ≠ []) : front p = none := by
  cases hfront : front p with
  | none => rfl
  | some d =>
    obtain ⟨rest, hrest⟩ := ByteArray.exists_of_utf8DecodeChar?_eq_some hfront
    have hp : p = String.utf8EncodeChar d ++ rest.data.toList := by
      have hlist := congrArg (·.data.toList) hrest
      simpa using hlist
    have hsame : c = d := by
      have hc := front_bytes c []
      rw [append_nil, h, hp, append_assoc, front_bytes] at hc
      exact (Option.some.inj hc).symm
    have hlength := congrArg List.length h
    rw [hp, hsame, length_append, length_append] at hlength
    have hpos := length_pos_iff.mpr hq
    omega

theorem part_cases (h : String.utf8EncodeChar c = p ++ q) (hp : p ≠ []) (hq : q ≠ []) :
    ∃ k, 0 < k ∧ k < (String.utf8EncodeChar c).length ∧ p = (String.utf8EncodeChar c).take k := by
  refine ⟨p.length, length_pos_iff.mpr hp, ?_, by rw [h, take_left]⟩
  have hpos := length_pos_iff.mpr hq
  rw [h, length_append]
  omega

theorem isCut_of_part (h : String.utf8EncodeChar c = p ++ q) (hp : p ≠ []) (hq : q ≠ []) :
    isCut p = true := by
  have htwo : ∀ n < 0x20, 2 ≤ n → isCut [UInt8.ofNat (n % 0x20 + 0xc0)] = true := by decide
  have hthree : ∀ n < 0x10, isCut [UInt8.ofNat (n % 0x10 + 0xe0)] = true := by decide
  have hthree' : ∀ n < 0x400, 0x20 ≤ n → n < 0x360 ∨ 0x380 ≤ n →
      isCut [UInt8.ofNat (n / 0x40 % 0x10 + 0xe0), UInt8.ofNat (n % 0x40 + 0x80)] = true := by
    decide +kernel
  have hfour : ∀ n < 0x05, isCut [UInt8.ofNat (n % 0x08 + 0xf0)] = true := by decide
  have hfour' : ∀ n < 0x110, 0x10 ≤ n →
      begins4 (UInt8.ofNat (n / 0x40 % 0x08 + 0xf0)) (UInt8.ofNat (n % 0x40 + 0x80)) = true := by
    decide +kernel
  have htails : ∀ i < 0x40, isTail (UInt8.ofNat (i + 0x80)) = true := by decide
  have hvalid : c.toNat < 0xd800 ∨ 0xdfff < c.toNat ∧ c.toNat < 0x110000 := c.valid
  obtain ⟨k, hk, hlt, rfl⟩ := part_cases h hp hq
  clear h hp
  generalize hv : c.toNat = v at hvalid
  have hval : c.val.toNat = v := hv
  unfold String.utf8EncodeChar at hlt ⊢
  dsimp only at hlt ⊢
  rw [hval] at hlt ⊢
  have hsplit₁ : v / 4096 = v / 64 / 64 := by omega
  have hsplit₂ : v / 262144 = v / 4096 / 64 := by omega
  split_ifs at hlt ⊢ with h₁ h₂ h₃
  · exact absurd hlt (by simp; omega)
  · obtain rfl : k = 1 := by simp at hlt; omega
    exact htwo (v / 64) (by omega) (by omega)
  · obtain rfl | rfl : k = 1 ∨ k = 2 := by simp at hlt; omega
    · exact hthree (v / 4096) (by omega)
    · have hpair := hthree' (v / 64) (by omega) (by omega) (by omega)
      rwa [← hsplit₁] at hpair
  · obtain rfl | rfl | rfl : k = 1 ∨ k = 2 ∨ k = 3 := by simp at hlt; omega
    · exact hfour (v / 262144) (by omega)
    · have hpair := hfour' (v / 4096) (by omega) (by omega)
      rw [← hsplit₂] at hpair
      exact Bool.or_eq_true_iff.mpr (.inr hpair)
    · have hpair := hfour' (v / 4096) (by omega) (by omega)
      rw [← hsplit₂] at hpair
      exact Bool.and_eq_true_iff.mpr ⟨hpair, htails _ (Nat.mod_lt (v / 64) (by decide))⟩

theorem fromUtf8_bytes (cs : List Char) : fromUtf8 (bytes cs) = .ok cs := by
  have hdecoded := decodeAux_bytes (p := []) (Nat.le_refl (bytes cs).length) (.inl rfl)
  rw [append_nil] at hdecoded
  rw [fromUtf8, hdecoded]
  rfl

theorem bytes_length_le (cs : List Char) : (bytes cs).length ≤ 4 * cs.length := by
  induction cs with
  | nil => exact Nat.le_refl _
  | cons c cs ih =>
    have hsize := c.utf8Size_le_four
    rw [bytes_cons, length_append, String.length_utf8EncodeChar, length_cons]
    omega

/-- **A text that is cut** reads as the characters in front of the cut.  Of the one that is cut
in two no more than three bytes are left. -/
theorem fromUtf8_cut {xs ys : List UInt8} {cs : List Char} (h : xs ++ ys = bytes cs) :
    ∃ before p, before <+: cs ∧ xs = bytes before ++ p ∧ p.length < 4 ∧ (ys = [] → before = cs) ∧
      fromUtf8 xs = if p = [] then .ok before else .error ⟨(bytes before).length, none⟩ := by
  obtain ⟨before, back, p, rfl, rfl, hback, hcut⟩ := exists_cut h
  by_cases hp : p = []
  · subst hp
    refine ⟨before, [], prefix_append _ _, rfl, by decide, fun hys => ?_, ?_⟩
    · cases back with
      | nil => exact (append_nil before).symm
      | cons c back => exact absurd (hback.symm.trans hys) (by simp [bytes_cons])
    · rw [append_nil, if_pos rfl]
      exact fromUtf8_bytes before
  · obtain ⟨c, rest, q, rfl, hc, hq⟩ := hcut.resolve_left hp
    have hnone := front_of_part hc hq
    refine ⟨before, p, prefix_append _ _, rfl, ?_, fun hys => ?_, ?_⟩
    · have hsize := c.utf8Size_le_four
      have hpos := length_pos_iff.mpr hq
      rw [← String.length_utf8EncodeChar, hc, length_append] at hsize
      omega
    · rw [hys, append_nil, bytes_cons, hc, append_assoc] at hback
      have hlength := congrArg List.length hback
      have hpos := length_pos_iff.mpr hq
      rw [length_append, length_append] at hlength
      omega
    · have hlength : (bytes before).length ≤ (bytes before ++ p).length := by simp
      rw [fromUtf8, decodeAux_bytes hlength (.inr hnone), if_neg hp]
      dsimp only
      rw [if_neg hp, isCut_of_part hc hp hq, length_append, Nat.add_sub_cancel]
      rfl

end Utf8
