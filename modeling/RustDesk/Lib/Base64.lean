import Mathlib.Data.List.Basic

/-!
# Base64 with padding

The standard alphabet, three bytes to four characters, padded with `=`.  `decode` is the
strict decoder: it wants the padding, and the bits that the padding stands for must be
zero.  Hence a text is decoded exactly when it is the encoding of its bytes
(`decode_eq_some_iff`), and no two texts have the same bytes.
-/

namespace Base64

open List

def digit (n : Nat) : Char :=
  if n < 26 then Char.ofNat (65 + n)
  else if n < 52 then Char.ofNat (97 + (n - 26))
  else if n < 62 then Char.ofNat (48 + (n - 52))
  else if n = 62 then '+' else '/'

def value (c : Char) : Option Nat :=
  let n := c.toNat
  if 65 ≤ n ∧ n ≤ 90 then some (n - 65)
  else if 97 ≤ n ∧ n ≤ 122 then some (n - 97 + 26)
  else if 48 ≤ n ∧ n ≤ 57 then some (n - 48 + 52)
  else if n = 43 then some 62
  else if n = 47 then some 63 else none

def encode : List UInt8 → List Char
  | [] => []
  | [a] => [digit (a.toNat / 4), digit (a.toNat % 4 * 16), '=', '=']
  | [a, b] => [digit (a.toNat / 4), digit (a.toNat % 4 * 16 + b.toNat / 16),
      digit (b.toNat % 16 * 4), '=']
  | a :: b :: c :: rest => digit (a.toNat / 4) :: digit (a.toNat % 4 * 16 + b.toNat / 16) ::
      digit (b.toNat % 16 * 4 + c.toNat / 64) :: digit (c.toNat % 64) :: encode rest

def byte (n : Nat) : UInt8 := UInt8.ofNat n

def decodeLast (w x y z : Char) : Option (List UInt8) := do
  let w ← value w
  let x ← value x
  if y = '=' ∧ z = '=' then
    if x % 16 = 0 then some [byte (w * 4 + x / 16)] else none
  else
    let y ← value y
    if z = '=' then
      if y % 4 = 0 then some [byte (w * 4 + x / 16), byte (x % 16 * 16 + y / 4)] else none
    else
      let z ← value z
      some [byte (w * 4 + x / 16), byte (x % 16 * 16 + y / 4), byte (y % 4 * 64 + z)]

def decodeGroup (w x y z : Char) : Option (List UInt8) := do
  let w ← value w
  let x ← value x
  let y ← value y
  let z ← value z
  some [byte (w * 4 + x / 16), byte (x % 16 * 16 + y / 4), byte (y % 4 * 64 + z)]

def decode : List Char → Option (List UInt8)
  | [] => some []
  | w :: x :: y :: z :: rest =>
    match rest with
    | [] => decodeLast w x y z
    | c :: rest' => do
        let group ← decodeGroup w x y z
        let bytes ← decode (c :: rest')
        some (group ++ bytes)
  | _ => none

variable {n : Nat}

theorem value_digit (h : n < 64) : value (digit n) = some n := by
  have hall : ∀ n < 64, value (digit n) = some n := by decide
  exact hall n h

theorem digit_ne_pad (h : n < 64) : digit n ≠ '=' := by
  have hall : ∀ n < 64, digit n ≠ '=' := by decide
  exact hall n h

theorem digit_value {c : Char} (h : value c = some n) : digit n = c ∧ n < 64 := by
  have hc : Char.ofNat c.toNat = c := Char.ofNat_toNat c
  simp only [value] at h
  split_ifs at h with h₁ h₂ h₃ h₄ h₅
  all_goals simp only [Option.some.injEq] at h
  all_goals subst h
  · refine ⟨?_, by omega⟩
    rw [digit, if_pos (by omega), show 65 + (c.toNat - 65) = c.toNat by omega, hc]
  · refine ⟨?_, by omega⟩
    rw [digit, if_neg (by omega), if_pos (by omega),
      show 97 + (c.toNat - 97 + 26 - 26) = c.toNat by omega, hc]
  · refine ⟨?_, by omega⟩
    rw [digit, if_neg (by omega), if_neg (by omega), if_pos (by omega),
      show 48 + (c.toNat - 48 + 52 - 52) = c.toNat by omega, hc]
  · exact ⟨by rw [← hc, h₄]; decide, by omega⟩
  · exact ⟨by rw [← hc, h₅]; decide, by omega⟩

theorem encode_length (v : List UInt8) : (encode v).length = (v.length + 2) / 3 * 4 := by
  fun_induction encode v with
  | case1 => rfl
  | case2 a => simp
  | case3 a b => simp
  | case4 a b c rest ih =>
    simp only [length_cons, ih]
    omega

variable {v : List UInt8}

theorem encode_ne_nil (h : v ≠ []) : encode v ≠ [] := by
  fun_cases encode v <;> simp_all

theorem mem_encode {d : Char} (h : d ∈ encode v) : (∃ n < 64, d = digit n) ∨ d = '=' := by
  fun_induction encode v with
  | case1 => cases h
  | case2 a =>
    have ha := a.toNat_lt
    simp only [mem_cons, not_mem_nil, or_false] at h
    rcases h with rfl | rfl | rfl | rfl
    · exact Or.inl ⟨_, by omega, rfl⟩
    · exact Or.inl ⟨_, by omega, rfl⟩
    · exact Or.inr rfl
    · exact Or.inr rfl
  | case3 a b =>
    have ha := a.toNat_lt
    have hb := b.toNat_lt
    simp only [mem_cons, not_mem_nil, or_false] at h
    rcases h with rfl | rfl | rfl | rfl
    · exact Or.inl ⟨_, by omega, rfl⟩
    · exact Or.inl ⟨_, by omega, rfl⟩
    · exact Or.inl ⟨_, by omega, rfl⟩
    · exact Or.inr rfl
  | case4 a b c rest ih =>
    have ha := a.toNat_lt
    have hb := b.toNat_lt
    have hc := c.toNat_lt
    simp only [mem_cons] at h
    rcases h with rfl | rfl | rfl | rfl | h
    · exact Or.inl ⟨_, by omega, rfl⟩
    · exact Or.inl ⟨_, by omega, rfl⟩
    · exact Or.inl ⟨_, by omega, rfl⟩
    · exact Or.inl ⟨_, by omega, rfl⟩
    · exact ih h

theorem encode_last_group (h : v ≠ []) :
    ∃ front, ∃ a ∈ v, ∃ x y z, encode v = front ++ [digit (a.toNat / 4), x, y, z] := by
  fun_induction encode v with
  | case1 => exact (h rfl).elim
  | case2 a => exact ⟨[], a, by simp, _, _, _, rfl⟩
  | case3 a b => exact ⟨[], a, by simp, _, _, _, rfl⟩
  | case4 a b c rest ih =>
    by_cases hrest : rest = []
    · subst hrest
      exact ⟨[], a, by simp, _, _, _, rfl⟩
    · obtain ⟨front, d, hd, x, y, z, heq⟩ := ih hrest
      refine ⟨[digit (a.toNat / 4), digit (a.toNat % 4 * 16 + b.toNat / 16),
        digit (b.toNat % 16 * 4 + c.toNat / 64), digit (c.toNat % 64)] ++ front, d,
        by simp [hd], x, y, z, ?_⟩
      rw [heq]
      rfl

theorem byte_toNat (a : UInt8) (n : Nat) (h : n = a.toNat) : byte n = a := by
  subst h
  exact UInt8.ofNat_toNat

theorem decode_encode (v : List UInt8) : decode (encode v) = some v := by
  fun_induction encode v with
  | case1 => rfl
  | case2 a =>
    have ha := a.toNat_lt
    simp only [decode, decodeLast, value_digit (show a.toNat / 4 < 64 by omega),
      value_digit (show a.toNat % 4 * 16 < 64 by omega), Option.bind_eq_bind, Option.bind_some]
    rw [if_pos (by simp), if_pos (by omega), byte_toNat a _ (by omega)]
  | case3 a b =>
    have ha := a.toNat_lt
    have hb := b.toNat_lt
    have hy : b.toNat % 16 * 4 < 64 := by omega
    simp only [decode, decodeLast, value_digit (show a.toNat / 4 < 64 by omega),
      value_digit (show a.toNat % 4 * 16 + b.toNat / 16 < 64 by omega), Option.bind_eq_bind,
      Option.bind_some, digit_ne_pad hy, false_and, if_false, value_digit hy, if_true]
    rw [if_pos (by omega), byte_toNat a _ (by omega), byte_toNat b _ (by omega)]
  | case4 a b c rest ih =>
    have ha := a.toNat_lt
    have hb := b.toNat_lt
    have hc := c.toNat_lt
    have hw := value_digit (show a.toNat / 4 < 64 by omega)
    have hx := value_digit (show a.toNat % 4 * 16 + b.toNat / 16 < 64 by omega)
    have hy := value_digit (show b.toNat % 16 * 4 + c.toNat / 64 < 64 by omega)
    have hz := value_digit (show c.toNat % 64 < 64 by omega)
    have hbytes : [byte (a.toNat / 4 * 4 + (a.toNat % 4 * 16 + b.toNat / 16) / 16),
        byte ((a.toNat % 4 * 16 + b.toNat / 16) % 16 * 16 + (b.toNat % 16 * 4 + c.toNat / 64) / 4),
        byte ((b.toNat % 16 * 4 + c.toNat / 64) % 4 * 64 + c.toNat % 64)] = [a, b, c] := by
      rw [byte_toNat a _ (by omega), byte_toNat b _ (by omega), byte_toNat c _ (by omega)]
    cases hrest : encode rest with
    | nil =>
      have hnil : rest = [] := by
        by_contra hne
        exact encode_ne_nil hne hrest
      subst hnil
      simp only [decode, decodeLast, hw, hx, hy, hz, Option.bind_eq_bind, Option.bind_some,
        digit_ne_pad (show b.toNat % 16 * 4 + c.toNat / 64 < 64 by omega),
        digit_ne_pad (show c.toNat % 64 < 64 by omega), false_and, if_false, hbytes]
    | cons d ds =>
      rw [hrest] at ih
      simp only [decode, decodeGroup, hw, hx, hy, hz, Option.bind_eq_bind, Option.bind_some,
        hbytes, ih, cons_append, nil_append]

theorem byte_toNat_of_lt (h : n < 256) : (byte n).toNat = n := by
  simp [byte, Nat.mod_eq_of_lt h]

theorem encode_decodeLast {w x y z : Char} (h : decodeLast w x y z = some v) :
    encode v = [w, x, y, z] := by
  simp only [decodeLast, Option.bind_eq_bind, Option.bind_eq_some_iff] at h
  obtain ⟨m, hw, n, hx, h⟩ := h
  obtain ⟨rfl, hm⟩ := digit_value hw
  obtain ⟨rfl, hn⟩ := digit_value hx
  by_cases hpad : y = '=' ∧ z = '='
  · rw [if_pos hpad] at h
    obtain ⟨rfl, rfl⟩ := hpad
    split_ifs at h with hzero
    cases h
    rw [encode, byte_toNat_of_lt (by omega)]
    rw [show (m * 4 + n / 16) / 4 = m by omega, show (m * 4 + n / 16) % 4 * 16 = n by omega]
  · rw [if_neg hpad] at h
    obtain ⟨k, hy, hrest⟩ := Option.bind_eq_some_iff.mp h
    obtain ⟨rfl, hk⟩ := digit_value hy
    by_cases hz : z = '='
    · subst hz
      rw [if_pos rfl] at hrest
      split_ifs at hrest with hzero
      cases hrest
      rw [encode, byte_toNat_of_lt (by omega), byte_toNat_of_lt (by omega)]
      rw [show (m * 4 + n / 16) / 4 = m by omega,
        show (m * 4 + n / 16) % 4 * 16 + (n % 16 * 16 + k / 4) / 16 = n by omega,
        show (n % 16 * 16 + k / 4) % 16 * 4 = k by omega]
    · rw [if_neg hz] at hrest
      obtain ⟨l, hlast, heq⟩ := Option.bind_eq_some_iff.mp hrest
      obtain ⟨rfl, hl⟩ := digit_value hlast
      cases heq
      rw [encode, byte_toNat_of_lt (by omega), byte_toNat_of_lt (by omega),
        byte_toNat_of_lt (by omega)]
      rw [show (m * 4 + n / 16) / 4 = m by omega,
        show (m * 4 + n / 16) % 4 * 16 + (n % 16 * 16 + k / 4) / 16 = n by omega,
        show (n % 16 * 16 + k / 4) % 16 * 4 + (k % 4 * 64 + l) / 64 = k by omega,
        show (k % 4 * 64 + l) % 64 = l by omega, encode]

theorem encode_decodeGroup {w x y z : Char} {v rest : List UInt8}
    (h : decodeGroup w x y z = some v) : encode (v ++ rest) = w :: x :: y :: z :: encode rest := by
  simp only [decodeGroup, Option.bind_eq_bind, Option.bind_eq_some_iff] at h
  obtain ⟨m, hm, n, hn, k, hk, l, hl, h⟩ := h
  obtain ⟨rfl, hm⟩ := digit_value hm
  obtain ⟨rfl, hn⟩ := digit_value hn
  obtain ⟨rfl, hk⟩ := digit_value hk
  obtain ⟨rfl, hl⟩ := digit_value hl
  cases h
  rw [cons_append, cons_append, cons_append, nil_append, encode,
    byte_toNat_of_lt (by omega), byte_toNat_of_lt (by omega), byte_toNat_of_lt (by omega)]
  rw [show (m * 4 + n / 16) / 4 = m by omega,
    show (m * 4 + n / 16) % 4 * 16 + (n % 16 * 16 + k / 4) / 16 = n by omega,
    show (n % 16 * 16 + k / 4) % 16 * 4 + (k % 4 * 64 + l) / 64 = k by omega,
    show (k % 4 * 64 + l) % 64 = l by omega]

theorem decode_eq_some_iff {s : List Char} : decode s = some v ↔ encode v = s := by
  constructor
  · intro h
    fun_induction decode s generalizing v with
    | case1 =>
      cases h
      rfl
    | case2 w x y z => exact encode_decodeLast h
    | case3 w x y z c rest ih =>
      simp only [Option.bind_eq_bind, Option.bind_eq_some_iff] at h
      obtain ⟨group, hgroup, bytes, hbytes, h⟩ := h
      cases h
      rw [encode_decodeGroup hgroup, ih hbytes]
    | case4 => cases h
  · rintro rfl
    exact decode_encode v

end Base64
