import Mathlib.Data.List.Basic

/-!
# Reading bytes as text

UTF-8 as a relation between lists of bytes and lists of characters.  `lossy` reads any
bytes: where they are no encoding of a character, the longest beginning of one that they
have is replaced by U+FFFD.  On the encoding of a text it gives the text
(`lossy_bytes`).

Bytes cut out of an encoding are one themselves if they are cut where characters begin, that
is, in front of a byte that continues none (`valid_cut`).
-/

namespace Utf8

open List

def bytes (cs : List Char) : List UInt8 := cs.flatMap String.utf8EncodeChar

def front (bs : List UInt8) : Option Char := bs.toByteArray.utf8DecodeChar? 0

def isTail (b : UInt8) : Bool := 0x80 ≤ b && b ≤ 0xBF

def begins3 (a b : UInt8) : Bool :=
  (a == 0xE0 && 0xA0 ≤ b && b ≤ 0xBF) || (0xE1 ≤ a && a ≤ 0xEC && isTail b)
    || (a == 0xED && 0x80 ≤ b && b ≤ 0x9F) || (0xEE ≤ a && a ≤ 0xEF && isTail b)

def begins4 (a b : UInt8) : Bool :=
  (a == 0xF0 && 0x90 ≤ b && b ≤ 0xBF) || (0xF1 ≤ a && a ≤ 0xF3 && isTail b)
    || (a == 0xF4 && 0x80 ≤ b && b ≤ 0x8F)

def broken : List UInt8 → Nat
  | a :: b :: rest =>
    if begins4 a b then
      if (rest.head?.map isTail).getD false then 3 else 2
    else if begins3 a b then 2 else 1
  | _ => 1

/-- `lossy`, on at most so many characters. -/
def lossyAux : Nat → List UInt8 → List Char
  | 0, _ => []
  | _ + 1, [] => []
  | fuel + 1, b :: bs =>
    match front (b :: bs) with
    | some c => c :: lossyAux fuel ((b :: bs).drop c.utf8Size)
    | none => Char.ofNat 0xFFFD :: lossyAux fuel ((b :: bs).drop (broken (b :: bs)))

def lossy (bs : List UInt8) : List Char := lossyAux bs.length bs

@[simp] theorem bytes_nil : bytes [] = [] := rfl

theorem bytes_cons (c : Char) (cs : List Char) :
    bytes (c :: cs) = String.utf8EncodeChar c ++ bytes cs := rfl

theorem utf8EncodeChar_ascii {c : Char} (h : c.toNat < 128) :
    String.utf8EncodeChar c = [UInt8.ofNat c.toNat] := by
  have hbytes : ∀ n < 128, String.utf8EncodeChar (Char.ofNat n)
      = [UInt8.ofNat (Char.ofNat n).toNat] := by decide +kernel
  have hc := hbytes c.toNat h
  rwa [Char.ofNat_toNat] at hc

theorem front_bytes (c : Char) (rest : List UInt8) :
    front (String.utf8EncodeChar c ++ rest) = some c := by
  rw [front, toByteArray_append]
  exact ByteArray.utf8DecodeChar?_utf8EncodeChar_append

theorem drop_bytes (c : Char) (rest : List UInt8) :
    (String.utf8EncodeChar c ++ rest).drop c.utf8Size = rest := by
  rw [← String.length_utf8EncodeChar c, drop_left]

theorem lossyAux_bytes (fuel : Nat) (cs : List Char) (h : (bytes cs).length ≤ fuel) :
    lossyAux fuel (bytes cs) = cs := by
  induction cs generalizing fuel with
  | nil => cases fuel <;> rfl
  | cons c cs ih =>
    rw [bytes_cons] at h ⊢
    have hpos : 0 < (String.utf8EncodeChar c).length :=
      length_pos_of_ne_nil String.utf8EncodeChar_ne_nil
    rw [length_append] at h
    obtain ⟨n, rfl⟩ : ∃ n, fuel = n + 1 := ⟨fuel - 1, by omega⟩
    obtain ⟨b, bs, hbs⟩ : ∃ b bs, String.utf8EncodeChar c ++ bytes cs = b :: bs := by
      refine exists_cons_of_ne_nil ?_
      simp
    have hfront := front_bytes c (bytes cs)
    have hdrop := drop_bytes c (bytes cs)
    rw [hbs] at hfront hdrop ⊢
    simp only [lossyAux, hfront, hdrop]
    rw [ih n (by omega)]

theorem lossy_bytes (cs : List Char) : lossy (bytes cs) = cs :=
  lossyAux_bytes _ cs (Nat.le_refl _)

theorem lossy_length_le (bs : List UInt8) : (lossy bs).length ≤ bs.length := by
  have haux : ∀ fuel bs, (lossyAux fuel bs).length ≤ fuel := by
    intro fuel
    induction fuel with
    | zero => exact fun bs => Nat.le_refl _
    | succ fuel ih =>
      intro bs
      cases bs with
      | nil => exact Nat.zero_le _
      | cons b bs =>
        simp only [lossyAux]
        split
        · exact Nat.succ_le_succ (ih _)
        · exact Nat.succ_le_succ (ih _)
  exact haux bs.length bs

variable {cs : List Char} {b : UInt8}

theorem bytes_lt (h : b ∈ bytes cs) : b.toNat < 0xF8 := by
  obtain ⟨c, -, hb⟩ := mem_flatMap.mp h
  have hall : ∀ b ∈ String.utf8EncodeChar c, b.toNat < 0xF8 := by
    rw [String.utf8EncodeChar]
    split_ifs
    all_goals simp only [mem_cons, not_mem_nil, or_false]
    · rintro _ rfl
      rw [UInt8.toNat_ofNat']
      omega
    · rintro _ (rfl | rfl) <;> rw [UInt8.toNat_ofNat'] <;> omega
    · rintro _ (rfl | rfl | rfl) <;> rw [UInt8.toNat_ofNat'] <;> omega
    · rintro _ (rfl | rfl | rfl | rfl) <;> rw [UInt8.toNat_ofNat'] <;> omega
  exact hall b hb

theorem toUTF8_toList (s : String) : s.toUTF8.data.toList = bytes s.toList := by
  have h : s.toUTF8 = (bytes s.toList).toByteArray := by
    rw [String.toUTF8_eq_toByteArray]
    exact String.utf8Encode_toList.symm
  rw [h, toList_data_toByteArray]

def valid (bs : List UInt8) : Bool := bs.toByteArray.validateUTF8

def lead (b : UInt8) : Option Nat :=
  if b < 0x80 then some 1
  else if b < 0xC0 then none
  else if b < 0xE0 then some 2
  else if b < 0xF0 then some 3
  else if b < 0xF8 then some 4
  else none

theorem valid_iff {bs : List UInt8} : valid bs = true ↔ ∃ cs, bytes cs = bs := by
  rw [valid, ByteArray.validateUTF8_eq_true_iff]
  constructor
  · rintro ⟨cs, hcs⟩
    refine ⟨cs, ?_⟩
    have hlist := congrArg (·.data.toList) hcs
    simpa [List.utf8Encode, bytes] using hlist.symm
  · rintro ⟨cs, rfl⟩
    exact ⟨cs, rfl⟩

theorem bytes_append (cs ds : List Char) : bytes (cs ++ ds) = bytes cs ++ bytes ds :=
  flatMap_append

theorem utf8EncodeChar_eq (c : Char) : ∃ b bs, String.utf8EncodeChar c = b :: bs ∧
    lead b = some (bs.length + 1) ∧ ∀ t ∈ bs, isTail t = true := by
  have htails : ∀ i < 0x40, isTail (UInt8.ofNat (i + 0x80)) = true := by decide
  have htail : ∀ n, isTail (UInt8.ofNat (n % 0x40 + 0x80)) = true :=
    fun n => htails _ (Nat.mod_lt n (by decide))
  have hone : ∀ i ≤ 0x7f, lead (UInt8.ofNat i) = some 1 := by decide
  have htwo : ∀ i < 0x20, lead (UInt8.ofNat (i + 0xc0)) = some 2 := by decide
  have hthree : ∀ i < 0x10, lead (UInt8.ofNat (i + 0xe0)) = some 3 := by decide
  have hfour : ∀ i < 0x08, lead (UInt8.ofNat (i + 0xf0)) = some 4 := by decide
  unfold String.utf8EncodeChar
  dsimp only
  split_ifs with h₁ h₂ h₃
  · exact ⟨_, _, rfl, hone _ h₁, by simp⟩
  · exact ⟨_, _, rfl, htwo _ (Nat.mod_lt _ (by decide)), forall_mem_singleton.mpr (htail _)⟩
  · exact ⟨_, _, rfl, hthree _ (Nat.mod_lt _ (by decide)),
      forall_mem_cons.mpr ⟨htail _, forall_mem_singleton.mpr (htail _)⟩⟩
  · exact ⟨_, _, rfl, hfour _ (Nat.mod_lt _ (by decide)), forall_mem_cons.mpr
      ⟨htail _, forall_mem_cons.mpr ⟨htail _, forall_mem_singleton.mpr (htail _)⟩⟩⟩

variable {xs ys : List UInt8}

theorem exists_cut (h : xs ++ ys = bytes cs) :
    ∃ front back p, cs = front ++ back ∧ xs = bytes front ++ p ∧ p ++ ys = bytes back ∧
      (p = [] ∨ ∃ c rest q, back = c :: rest ∧ String.utf8EncodeChar c = p ++ q ∧ q ≠ []) := by
  induction cs generalizing xs with
  | nil =>
    obtain ⟨rfl, rfl⟩ := append_eq_nil_iff.mp h
    exact ⟨[], [], [], rfl, rfl, rfl, .inl rfl⟩
  | cons c cs ih =>
    rw [bytes_cons, append_eq_append_iff] at h
    rcases h with ⟨q, hc, hys⟩ | ⟨q, hxs, hq⟩
    · by_cases hq : q = []
      · -- the bytes end with this character
        subst hq
        rw [append_nil] at hc
        exact ⟨[c], cs, [], rfl, by simp [bytes, hc], hys, .inl rfl⟩
      · refine ⟨[], c :: cs, xs, rfl, rfl, ?_, .inr ⟨c, cs, q, rfl, hc, hq⟩⟩
        rw [bytes_cons, hc, hys, append_assoc]
    · obtain ⟨front, back, p, rfl, hfront, hback, hcut⟩ := ih hq.symm
      refine ⟨c :: front, back, p, rfl, ?_, hback, hcut⟩
      rw [hxs, hfront, bytes_cons, append_assoc]

theorem bytes_of_append {front : List Char} {ys : List UInt8}
    (h : bytes front ++ ys = bytes cs) : ∃ back, cs = front ++ back ∧ ys = bytes back := by
  induction front generalizing cs with
  | nil => exact ⟨cs, rfl, h⟩
  | cons c front ih =>
    cases cs with
    | nil =>
      have hne : String.utf8EncodeChar c ≠ [] := String.utf8EncodeChar_ne_nil
      simp [bytes_cons, hne] at h
    | cons d cs =>
      rw [bytes_cons, bytes_cons, append_assoc] at h
      have hsame : c = d := by
        have hfront := front_bytes c (bytes front ++ ys)
        rw [h, front_bytes] at hfront
        exact (Option.some.inj hfront).symm
      subst hsame
      obtain ⟨back, rfl, hys⟩ := ih (append_cancel_left h)
      exact ⟨back, rfl, hys⟩

theorem valid_nil : valid [] = true := valid_iff.mpr ⟨[], rfl⟩

theorem valid_append (hx : valid xs = true) (hy : valid ys = true) : valid (xs ++ ys) = true := by
  obtain ⟨cs, rfl⟩ := valid_iff.mp hx
  obtain ⟨ds, rfl⟩ := valid_iff.mp hy
  exact valid_iff.mpr ⟨cs ++ ds, bytes_append cs ds⟩

theorem valid_flatten {xss : List (List UInt8)} (h : ∀ xs ∈ xss, valid xs = true) :
    valid xss.flatten = true := by
  induction xss with
  | nil => exact valid_nil
  | cons xs xss ih =>
    exact valid_append (h xs mem_cons_self) (ih fun ys hys => h ys (mem_cons_of_mem _ hys))

theorem valid_of_append (hx : valid xs = true) (h : valid (xs ++ ys) = true) : valid ys = true := by
  obtain ⟨front, rfl⟩ := valid_iff.mp hx
  obtain ⟨cs, hcs⟩ := valid_iff.mp h
  obtain ⟨back, -, hys⟩ := bytes_of_append hcs.symm
  exact valid_iff.mpr ⟨back, hys.symm⟩

theorem isTail_of_lead {n : Nat} (h : lead b = some n) : isTail b = false := by
  by_contra htail
  rw [Bool.not_eq_false, isTail, Bool.and_eq_true, decide_eq_true_eq, decide_eq_true_eq] at htail
  obtain ⟨hlow, hhigh⟩ := htail
  have hnot : ¬b < 0x80 := UInt8.not_lt.mpr hlow
  have hlt : b < 0xC0 := UInt8.lt_of_le_of_lt hhigh (by decide)
  rw [lead, if_neg hnot, if_pos hlt] at h
  cases h

theorem isTail_head (h : (bytes cs).head? = some b) : isTail b = false := by
  cases cs with
  | nil => cases h
  | cons c cs =>
    obtain ⟨b', bs, hc, hlead, -⟩ := utf8EncodeChar_eq c
    rw [bytes_cons, hc, cons_append, List.head?_cons, Option.some.injEq] at h
    subst h
    exact isTail_of_lead hlead

theorem valid_cut (h : valid (xs ++ b :: ys) = true) (hb : isTail b = false) : valid xs = true := by
  obtain ⟨cs, hcs⟩ := valid_iff.mp h
  obtain ⟨front, back, p, -, rfl, hback, hcut⟩ := exists_cut hcs.symm
  rcases hcut with rfl | ⟨c, rest, q, rfl, hc, hq⟩
  · rw [append_nil]
    exact valid_iff.mpr ⟨front, rfl⟩
  · cases p with
    | nil =>
      rw [append_nil]
      exact valid_iff.mpr ⟨front, rfl⟩
    | cons a p =>
      -- the byte would be one of those that continue the character
      obtain ⟨a', bs, hc', -, htails⟩ := utf8EncodeChar_eq c
      obtain ⟨b', q, rfl⟩ := exists_cons_of_ne_nil hq
      rw [bytes_cons, hc, append_assoc] at hback
      have hsame : b = b' := (List.cons.inj (append_cancel_left hback)).1
      obtain ⟨-, hbs⟩ := List.cons.inj (hc.symm.trans hc')
      have hin : b' ∈ bs := by
        rw [← hbs]
        exact mem_append_right _ mem_cons_self
      rw [← hsame] at hin
      exact absurd (htails b hin) (by simp [hb])

theorem valid_ascii (h : valid (xs ++ b :: ys) = true)
    (hb : lead b = some 1) : valid xs = true ∧ valid [b] = true ∧ valid ys = true := by
  have hxs := valid_cut h (isTail_of_lead hb)
  obtain ⟨cs, hcs⟩ := valid_iff.mp (valid_of_append hxs h)
  cases cs with
  | nil => cases hcs
  | cons c cs =>
    obtain ⟨b', bs, hc, hlead, -⟩ := utf8EncodeChar_eq c
    rw [bytes_cons, hc, cons_append] at hcs
    obtain ⟨rfl, hys⟩ := List.cons.inj hcs
    obtain rfl : bs = [] := by
      have hlength := Option.some.inj (hlead.symm.trans hb)
      exact length_eq_zero_iff.mp (by omega)
    refine ⟨hxs, valid_iff.mpr ⟨[c], ?_⟩, valid_iff.mpr ⟨cs, hys⟩⟩
    rw [bytes_cons, hc, bytes_nil, append_nil]

end Utf8
