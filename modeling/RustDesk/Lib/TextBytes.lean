import Mathlib.Data.List.Basic
import RustDesk.Lib.CheckedArith
import RustDesk.Lib.Text

/-!
# Bytes and small letters of a text

A text is a list of characters.  `size` counts the bytes of its UTF-8 encoding, and
`dropBytes` and `takeBytes` cut it at an offset in bytes, which traps unless a character
ends there.

`toLowercase` writes a text in small letters, by the table of Unicode 14.  It may change the
number of bytes, and of characters.  Whether a capital sigma ends a word is a parameter:
both of its small letters have two bytes.  What the proofs use is `Lowers`: an ASCII
character becomes its small letter, and any other becomes characters that are not ASCII,
`k` and `i` excepted.
-/

open CheckedArith

namespace TextBytes

open List

def size : Text → Nat
  | [] => 0
  | c :: cs => c.utf8Size + size cs

def dropBytes : Text → Nat → Except Trap Text
  | cs, 0 => .ok cs
  | [], _ + 1 => .error .outOfRange
  | c :: cs, n + 1 =>
    if c.utf8Size ≤ n + 1 then dropBytes cs (n + 1 - c.utf8Size) else .error .outOfRange

def takeBytes : Text → Nat → Except Trap Text
  | _, 0 => .ok []
  | [], _ + 1 => .error .outOfRange
  | c :: cs, n + 1 =>
    if c.utf8Size ≤ n + 1 then do
      let front ← takeBytes cs (n + 1 - c.utf8Size)
      return c :: front
    else .error .outOfRange

def findBytes (pat : Text) : Text → Option Nat
  | [] => if pat = [] then some 0 else none
  | c :: cs =>
    if pat <+: c :: cs then some 0 else (findBytes pat cs).map (· + c.utf8Size)

def BoundaryAt (s : Text) (n : Nat) : Prop := ∃ a u, s = a ++ u ∧ size a = n

variable {s t u a pat : Text} {n : Nat} {c : Char}

@[simp] theorem size_nil : size [] = 0 := rfl

@[simp] theorem size_cons (c : Char) (cs : Text) : size (c :: cs) = c.utf8Size + size cs := rfl

@[simp] theorem size_append (s t : Text) : size (s ++ t) = size s + size t := by
  induction s with
  | nil => simp
  | cons c s ih => rw [cons_append, size_cons, size_cons, ih, Nat.add_assoc]

theorem size_eq_zero : size s = 0 ↔ s = [] := by
  cases s with
  | nil => simp
  | cons c s =>
    have := c.utf8Size_pos
    simp only [size_cons, reduceCtorEq, iff_false]
    omega

theorem dropBytes_iff : dropBytes s n = .ok u ↔ ∃ a, s = a ++ u ∧ size a = n := by
  induction s generalizing n with
  | nil =>
    cases n with
    | zero =>
      rw [dropBytes, Except.ok.injEq]
      constructor
      · rintro rfl
        exact ⟨[], rfl, rfl⟩
      · rintro ⟨a, hnil, -⟩
        exact (append_eq_nil_iff.mp hnil.symm).2.symm
    | succ n =>
      rw [dropBytes]
      refine iff_of_false nofun ?_
      rintro ⟨a, hnil, hsize⟩
      rw [(append_eq_nil_iff.mp hnil.symm).1] at hsize
      cases hsize
  | cons c s ih =>
    cases n with
    | zero =>
      rw [dropBytes, Except.ok.injEq]
      constructor
      · rintro rfl
        exact ⟨[], rfl, rfl⟩
      · rintro ⟨a, heq, hsize⟩
        rw [size_eq_zero.mp hsize] at heq
        exact heq
    | succ n =>
      rw [dropBytes]
      split_ifs with hfits
      · rw [ih]
        constructor
        · rintro ⟨a, rfl, hsize⟩
          exact ⟨c :: a, rfl, by rw [size_cons]; omega⟩
        · rintro ⟨a, heq, hsize⟩
          cases a with
          | nil => cases hsize
          | cons d a =>
            cases heq
            rw [size_cons] at hsize
            exact ⟨a, rfl, by omega⟩
      · refine iff_of_false nofun ?_
        rintro ⟨a, heq, hsize⟩
        cases a with
        | nil => cases hsize
        | cons d a =>
          obtain ⟨rfl, -⟩ := List.cons.inj heq
          rw [size_cons] at hsize
          omega

theorem dropBytes_boundary : (∃ u, dropBytes s n = .ok u) ↔ BoundaryAt s n := by
  simp only [dropBytes_iff, BoundaryAt]
  exact exists_comm

theorem takeBytes_append (a u : Text) : takeBytes (a ++ u) (size a) = .ok a := by
  induction a with
  | nil =>
    rw [size_nil]
    cases u <;> rfl
  | cons c a ih =>
    obtain ⟨n, hn⟩ : ∃ n, c.utf8Size = n + 1 := by
      have := c.utf8Size_pos
      exact ⟨c.utf8Size - 1, by omega⟩
    have hsize : size (c :: a) = n + size a + 1 := by
      rw [size_cons]
      omega
    rw [hsize, cons_append, takeBytes, if_pos (by omega)]
    have hrest : n + size a + 1 - c.utf8Size = size a := by omega
    rw [hrest, ih]
    rfl

/-- The ranges of characters with another small letter, but for ASCII and U+0130: the first,
the last, the distance of two of them, and the small letter of the first. -/
def lowerRanges : List (Nat × Nat × Nat × Nat) :=
  [(0xC0, 0xD6, 1, 0xE0), (0xD8, 0xDE, 1, 0xF8), (0x100, 0x12E, 2, 0x101),
    (0x132, 0x136, 2, 0x133), (0x139, 0x147, 2, 0x13A), (0x14A, 0x176, 2, 0x14B),
    (0x178, 0x178, 1, 0xFF), (0x179, 0x17D, 2, 0x17A), (0x181, 0x181, 1, 0x253),
    (0x182, 0x184, 2, 0x183), (0x186, 0x186, 1, 0x254), (0x187, 0x187, 1, 0x188),
    (0x189, 0x18A, 1, 0x256), (0x18B, 0x18B, 1, 0x18C), (0x18E, 0x18E, 1, 0x1DD),
    (0x18F, 0x18F, 1, 0x259), (0x190, 0x190, 1, 0x25B), (0x191, 0x191, 1, 0x192),
    (0x193, 0x193, 1, 0x260), (0x194, 0x194, 1, 0x263), (0x196, 0x196, 1, 0x269),
    (0x197, 0x197, 1, 0x268), (0x198, 0x198, 1, 0x199), (0x19C, 0x19C, 1, 0x26F),
    (0x19D, 0x19D, 1, 0x272), (0x19F, 0x19F, 1, 0x275), (0x1A0, 0x1A4, 2, 0x1A1),
    (0x1A6, 0x1A6, 1, 0x280), (0x1A7, 0x1A7, 1, 0x1A8), (0x1A9, 0x1A9, 1, 0x283),
    (0x1AC, 0x1AC, 1, 0x1AD), (0x1AE, 0x1AE, 1, 0x288), (0x1AF, 0x1AF, 1, 0x1B0),
    (0x1B1, 0x1B2, 1, 0x28A), (0x1B3, 0x1B5, 2, 0x1B4), (0x1B7, 0x1B7, 1, 0x292),
    (0x1B8, 0x1B8, 1, 0x1B9), (0x1BC, 0x1BC, 1, 0x1BD), (0x1C4, 0x1C4, 1, 0x1C6),
    (0x1C5, 0x1C5, 1, 0x1C6), (0x1C7, 0x1C7, 1, 0x1C9), (0x1C8, 0x1C8, 1, 0x1C9),
    (0x1CA, 0x1CA, 1, 0x1CC), (0x1CB, 0x1DB, 2, 0x1CC), (0x1DE, 0x1EE, 2, 0x1DF),
    (0x1F1, 0x1F1, 1, 0x1F3), (0x1F2, 0x1F4, 2, 0x1F3), (0x1F6, 0x1F6, 1, 0x195),
    (0x1F7, 0x1F7, 1, 0x1BF), (0x1F8, 0x21E, 2, 0x1F9), (0x220, 0x220, 1, 0x19E),
    (0x222, 0x232, 2, 0x223), (0x23A, 0x23A, 1, 0x2C65), (0x23B, 0x23B, 1, 0x23C),
    (0x23D, 0x23D, 1, 0x19A), (0x23E, 0x23E, 1, 0x2C66), (0x241, 0x241, 1, 0x242),
    (0x243, 0x243, 1, 0x180), (0x244, 0x244, 1, 0x289), (0x245, 0x245, 1, 0x28C),
    (0x246, 0x24E, 2, 0x247), (0x370, 0x372, 2, 0x371), (0x376, 0x376, 1, 0x377),
    (0x37F, 0x37F, 1, 0x3F3), (0x386, 0x386, 1, 0x3AC), (0x388, 0x38A, 1, 0x3AD),
    (0x38C, 0x38C, 1, 0x3CC), (0x38E, 0x38F, 1, 0x3CD), (0x391, 0x3A1, 1, 0x3B1),
    (0x3A3, 0x3AB, 1, 0x3C3), (0x3CF, 0x3CF, 1, 0x3D7), (0x3D8, 0x3EE, 2, 0x3D9),
    (0x3F4, 0x3F4, 1, 0x3B8), (0x3F7, 0x3F7, 1, 0x3F8), (0x3F9, 0x3F9, 1, 0x3F2),
    (0x3FA, 0x3FA, 1, 0x3FB), (0x3FD, 0x3FF, 1, 0x37B), (0x400, 0x40F, 1, 0x450),
    (0x410, 0x42F, 1, 0x430), (0x460, 0x480, 2, 0x461), (0x48A, 0x4BE, 2, 0x48B),
    (0x4C0, 0x4C0, 1, 0x4CF), (0x4C1, 0x4CD, 2, 0x4C2), (0x4D0, 0x52E, 2, 0x4D1),
    (0x531, 0x556, 1, 0x561), (0x10A0, 0x10C5, 1, 0x2D00), (0x10C7, 0x10C7, 1, 0x2D27),
    (0x10CD, 0x10CD, 1, 0x2D2D), (0x13A0, 0x13EF, 1, 0xAB70), (0x13F0, 0x13F5, 1, 0x13F8),
    (0x1C90, 0x1CBA, 1, 0x10D0), (0x1CBD, 0x1CBF, 1, 0x10FD), (0x1E00, 0x1E94, 2, 0x1E01),
    (0x1E9E, 0x1E9E, 1, 0xDF), (0x1EA0, 0x1EFE, 2, 0x1EA1), (0x1F08, 0x1F0F, 1, 0x1F00),
    (0x1F18, 0x1F1D, 1, 0x1F10), (0x1F28, 0x1F2F, 1, 0x1F20), (0x1F38, 0x1F3F, 1, 0x1F30),
    (0x1F48, 0x1F4D, 1, 0x1F40), (0x1F59, 0x1F5F, 2, 0x1F51), (0x1F68, 0x1F6F, 1, 0x1F60),
    (0x1F88, 0x1F8F, 1, 0x1F80), (0x1F98, 0x1F9F, 1, 0x1F90), (0x1FA8, 0x1FAF, 1, 0x1FA0),
    (0x1FB8, 0x1FB9, 1, 0x1FB0), (0x1FBA, 0x1FBB, 1, 0x1F70), (0x1FBC, 0x1FBC, 1, 0x1FB3),
    (0x1FC8, 0x1FCB, 1, 0x1F72), (0x1FCC, 0x1FCC, 1, 0x1FC3), (0x1FD8, 0x1FD9, 1, 0x1FD0),
    (0x1FDA, 0x1FDB, 1, 0x1F76), (0x1FE8, 0x1FE9, 1, 0x1FE0), (0x1FEA, 0x1FEB, 1, 0x1F7A),
    (0x1FEC, 0x1FEC, 1, 0x1FE5), (0x1FF8, 0x1FF9, 1, 0x1F78), (0x1FFA, 0x1FFB, 1, 0x1F7C),
    (0x1FFC, 0x1FFC, 1, 0x1FF3), (0x2126, 0x2126, 1, 0x3C9), (0x212A, 0x212A, 1, 0x6B),
    (0x212B, 0x212B, 1, 0xE5), (0x2132, 0x2132, 1, 0x214E), (0x2160, 0x216F, 1, 0x2170),
    (0x2183, 0x2183, 1, 0x2184), (0x24B6, 0x24CF, 1, 0x24D0), (0x2C00, 0x2C2F, 1, 0x2C30),
    (0x2C60, 0x2C60, 1, 0x2C61), (0x2C62, 0x2C62, 1, 0x26B), (0x2C63, 0x2C63, 1, 0x1D7D),
    (0x2C64, 0x2C64, 1, 0x27D), (0x2C67, 0x2C6B, 2, 0x2C68), (0x2C6D, 0x2C6D, 1, 0x251),
    (0x2C6E, 0x2C6E, 1, 0x271), (0x2C6F, 0x2C6F, 1, 0x250), (0x2C70, 0x2C70, 1, 0x252),
    (0x2C72, 0x2C72, 1, 0x2C73), (0x2C75, 0x2C75, 1, 0x2C76), (0x2C7E, 0x2C7F, 1, 0x23F),
    (0x2C80, 0x2CE2, 2, 0x2C81), (0x2CEB, 0x2CED, 2, 0x2CEC), (0x2CF2, 0x2CF2, 1, 0x2CF3),
    (0xA640, 0xA66C, 2, 0xA641), (0xA680, 0xA69A, 2, 0xA681), (0xA722, 0xA72E, 2, 0xA723),
    (0xA732, 0xA76E, 2, 0xA733), (0xA779, 0xA77B, 2, 0xA77A), (0xA77D, 0xA77D, 1, 0x1D79),
    (0xA77E, 0xA786, 2, 0xA77F), (0xA78B, 0xA78B, 1, 0xA78C), (0xA78D, 0xA78D, 1, 0x265),
    (0xA790, 0xA792, 2, 0xA791), (0xA796, 0xA7A8, 2, 0xA797), (0xA7AA, 0xA7AA, 1, 0x266),
    (0xA7AB, 0xA7AB, 1, 0x25C), (0xA7AC, 0xA7AC, 1, 0x261), (0xA7AD, 0xA7AD, 1, 0x26C),
    (0xA7AE, 0xA7AE, 1, 0x26A), (0xA7B0, 0xA7B0, 1, 0x29E), (0xA7B1, 0xA7B1, 1, 0x287),
    (0xA7B2, 0xA7B2, 1, 0x29D), (0xA7B3, 0xA7B3, 1, 0xAB53), (0xA7B4, 0xA7C2, 2, 0xA7B5),
    (0xA7C4, 0xA7C4, 1, 0xA794), (0xA7C5, 0xA7C5, 1, 0x282), (0xA7C6, 0xA7C6, 1, 0x1D8E),
    (0xA7C7, 0xA7C9, 2, 0xA7C8), (0xA7D0, 0xA7D0, 1, 0xA7D1), (0xA7D6, 0xA7D8, 2, 0xA7D7),
    (0xA7F5, 0xA7F5, 1, 0xA7F6), (0xFF21, 0xFF3A, 1, 0xFF41), (0x10400, 0x10427, 1, 0x10428),
    (0x104B0, 0x104D3, 1, 0x104D8), (0x10570, 0x1057A, 1, 0x10597), (0x1057C, 0x1058A, 1, 0x105A3),
    (0x1058C, 0x10592, 1, 0x105B3), (0x10594, 0x10595, 1, 0x105BB), (0x10C80, 0x10CB2, 1, 0x10CC0),
    (0x118A0, 0x118BF, 1, 0x118C0), (0x16E40, 0x16E5F, 1, 0x16E60), (0x1E900, 0x1E921, 1, 0x1E922)]

/-- `char::to_lowercase`. -/
def lowerChar (c : Char) : Text :=
  if c.toNat < 128 then [c.toLower]
  else if c.toNat = 0x130 then ['i', .ofNat 0x307]
  else
    match lowerRanges.find? fun r =>
      r.1 ≤ c.toNat ∧ c.toNat ≤ r.2.1 ∧ (c.toNat - r.1) % r.2.2.1 = 0 with
    | some r => [.ofNat (c.toNat - r.1 + r.2.2.2)]
    | none => [c]

def sigma : Char := .ofNat 0x3A3

section Lower

variable (endsWord : Text → Text → Bool)

def lowerAfter (before : Text) : Text → Text
  | [] => []
  | c :: cs =>
    (if c = sigma then [if endsWord before cs then .ofNat 0x3C2 else .ofNat 0x3C3]
      else lowerChar c) ++ lowerAfter (before ++ [c]) cs

def toLowercase (s : Text) : Text := lowerAfter endsWord [] s

end Lower

/-- What a character can become: its small letter if it is ASCII, or else nothing that is,
but for `k` and `i`. -/
structure Piece (c : Char) (p : Text) : Prop where
  ascii : c.toNat < 128 → p = [c.toLower]
  other : 128 ≤ c.toNat → p ≠ [] ∧ ∀ d ∈ p, d.toNat < 128 → d = 'k' ∨ d = 'i'
  size_eq : size p = size (lowerChar c)

inductive Lowers : Text → Text → Prop
  | nil : Lowers [] []
  | cons {c : Char} {p s t : Text} (hc : Piece c p) (hs : Lowers s t) : Lowers (c :: s) (p ++ t)

def lowerSize (s : Text) : Nat := size (s.flatMap lowerChar)

/-- An ASCII text of small letters other than `k` and `i`. -/
def Plain (pat : Text) : Prop := ∀ d ∈ pat, d.toNat < 128 ∧ d ≠ 'k' ∧ d ≠ 'i'

instance (pat : Text) : Decidable (Plain pat) := List.decidableBAll _ pat

def EndsIn (pat s : Text) : Prop := pat <:+ s.map Char.toLower

instance (pat s : Text) : Decidable (EndsIn pat s) := inferInstanceAs (Decidable (_ <:+ _))

/-- How many bytes of the text in small letters are in front of the first place where a
pattern is, in any letter case. -/
def lowerOffset (pat : Text) : Text → Option Nat
  | [] => if pat = [] then some 0 else none
  | c :: cs =>
    if pat <+: (c :: cs).map Char.toLower then some 0
    else (lowerOffset pat cs).map (· + size (lowerChar c))

theorem toNat_toLower (hlow : 65 ≤ c.toNat) (hhigh : c.toNat ≤ 90) :
    c.toLower.toNat = c.toNat + 32 := by
  have hadd : (c.val + ('a'.val - 'A'.val)).toNat = c.toNat + 32 := by
    rw [UInt32.toNat_add, Nat.mod_eq_of_lt]
    · rfl
    · change c.toNat + 32 < 2 ^ 32
      omega
  unfold Char.toLower
  rw [dif_pos ⟨hlow, hhigh⟩]
  exact hadd

theorem toLower_of_not_upper (h : c.toNat < 65 ∨ 90 < c.toNat) : c.toLower = c := by
  unfold Char.toLower
  rw [dif_neg]
  rintro ⟨hlow, hhigh⟩
  have hlow' : 65 ≤ c.toNat := hlow
  have hhigh' : c.toNat ≤ 90 := hhigh
  omega

theorem toLower_of_not_ascii (h : 128 ≤ c.toNat) : c.toLower = c :=
  toLower_of_not_upper (.inr (by omega))

theorem utf8Size_of_ascii (h : c.toNat < 128) : c.utf8Size = 1 := by
  rw [Char.utf8Size_eq_one_iff, UInt32.le_iff_toNat_le]
  change c.toNat ≤ 127
  omega

theorem lowerRanges_valid : ∀ r ∈ lowerRanges,
    (r.1 = 0x212A ∧ r.2.1 = 0x212A ∧ r.2.2.2 = 0x6B) ∨
      128 ≤ r.2.2.2 ∧ (r.2.1 - r.1 + r.2.2.2 < 0xD800 ∨
        0xE000 ≤ r.2.2.2 ∧ r.2.1 - r.1 + r.2.2.2 < 0x110000) := by
  decide +kernel

theorem piece_lowerChar (c : Char) : Piece c (lowerChar c) := by
  refine ⟨fun h => if_pos h, fun h => ?_, rfl⟩
  unfold lowerChar
  rw [if_neg (by omega)]
  split_ifs with hdot
  · refine ⟨by simp, fun d hd hascii => ?_⟩
    rcases mem_cons.mp hd with rfl | hd
    · exact .inr rfl
    · rw [mem_singleton.mp hd] at hascii
      exact absurd hascii (by decide)
  · cases hfind : lowerRanges.find? fun r =>
        r.1 ≤ c.toNat ∧ c.toNat ≤ r.2.1 ∧ (c.toNat - r.1) % r.2.2.1 = 0 with
    | none =>
      refine ⟨by simp, fun d hd hascii => ?_⟩
      rw [mem_singleton.mp hd] at hascii
      omega
    | some r =>
      refine ⟨by simp, fun d hd hascii => ?_⟩
      rw [mem_singleton.mp hd] at hascii ⊢
      have hr : r.1 ≤ c.toNat ∧ c.toNat ≤ r.2.1 ∧ (c.toNat - r.1) % r.2.2.1 = 0 := by
        simpa using List.find?_some hfind
      rcases lowerRanges_valid r (mem_of_find?_eq_some hfind) with
        ⟨hfirst, hlast, hletter⟩ | ⟨hletter, hvalid⟩
      · have hzero : c.toNat - r.1 + r.2.2.2 = 0x6B := by omega
        rw [hzero]
        exact .inl rfl
      · have hchar : (c.toNat - r.1 + r.2.2.2).isValidChar := by
          unfold Nat.isValidChar
          omega
        have hnat : (Char.ofNat (c.toNat - r.1 + r.2.2.2)).toNat = c.toNat - r.1 + r.2.2.2 := by
          rw [Char.ofNat, dif_pos hchar]
          rfl
        omega

theorem piece_sigma (p : Bool) : Piece sigma [if p then .ofNat 0x3C2 else .ofNat 0x3C3] := by
  cases p
  · exact ⟨by decide, fun _ => ⟨by simp, forall_mem_singleton.mpr (by decide)⟩,
      by decide +kernel⟩
  · exact ⟨by decide, fun _ => ⟨by simp, forall_mem_singleton.mpr (by decide)⟩,
      by decide +kernel⟩

theorem lowers_lowerAfter (endsWord : Text → Text → Bool) (before s : Text) :
    Lowers s (lowerAfter endsWord before s) := by
  induction s generalizing before with
  | nil => exact .nil
  | cons c s ih =>
    rw [lowerAfter]
    refine .cons ?_ (ih _)
    split_ifs with hsigma
    · rw [hsigma]
      exact piece_sigma true
    · rw [hsigma]
      exact piece_sigma false
    · exact piece_lowerChar c

theorem lowers_toLowercase (endsWord : Text → Text → Bool) (s : Text) :
    Lowers s (toLowercase endsWord s) :=
  lowers_lowerAfter endsWord [] s

theorem prefix_lowers (hpat : Plain pat) (h : Lowers s t) :
    pat <+: t ↔ pat <+: s.map Char.toLower := by
  induction h generalizing pat with
  | nil => exact Iff.rfl
  | @cons c p s t hc _ ih =>
    cases pat with
    | nil => exact iff_of_true nil_prefix nil_prefix
    | cons q pat =>
      obtain ⟨hq, hpat'⟩ := forall_mem_cons.mp hpat
      rw [map_cons, cons_prefix_cons]
      by_cases hascii : c.toNat < 128
      · rw [hc.ascii hascii, singleton_append, cons_prefix_cons, ih hpat']
      · obtain ⟨hne, hother⟩ := hc.other (by omega)
        obtain ⟨d, ds, rfl⟩ := exists_cons_of_ne_nil hne
        rw [cons_append, cons_prefix_cons]
        refine iff_of_false ?_ ?_
        · rintro ⟨rfl, -⟩
          rcases hother q mem_cons_self hq.1 with hk | hi
          · exact hq.2.1 hk
          · exact hq.2.2 hi
        · rintro ⟨rfl, -⟩
          rw [toLower_of_not_ascii (by omega)] at hq
          omega

theorem Piece.reverse {p : Text} (h : Piece c p) : Piece c p.reverse := by
  refine ⟨fun hascii => by rw [h.ascii hascii]; rfl, fun hother => ?_, ?_⟩
  · obtain ⟨hne, hall⟩ := h.other hother
    exact ⟨by simpa using hne, fun d hd => hall d (mem_reverse.mp hd)⟩
  · rw [← h.size_eq]
    have hsize : ∀ q : Text, size q.reverse = size q := by
      intro q
      induction q with
      | nil => rfl
      | cons d q ih =>
        rw [reverse_cons, size_append, ih, size_cons, size_cons, size_nil]
        omega
    exact hsize p

theorem Lowers.append {s' t' : Text} (h : Lowers s t) (h' : Lowers s' t') :
    Lowers (s ++ s') (t ++ t') := by
  induction h with
  | nil => exact h'
  | cons hc _ ih =>
    rw [cons_append, append_assoc]
    exact .cons hc ih

theorem Lowers.reverse (h : Lowers s t) : Lowers s.reverse t.reverse := by
  induction h with
  | nil => exact .nil
  | @cons c p s t hc _ ih =>
    rw [reverse_cons, reverse_append]
    refine ih.append ?_
    have hone := Lowers.cons hc.reverse .nil
    rwa [append_nil] at hone

theorem suffix_lowers (hpat : Plain pat) (h : Lowers s t) : pat <:+ t ↔ EndsIn pat s := by
  have hplain : Plain pat.reverse := fun d hd => hpat d (mem_reverse.mp hd)
  rw [EndsIn, ← reverse_prefix, prefix_lowers hplain h.reverse, map_reverse, reverse_prefix]

variable {m : Text}

theorem Lowers.ascii_front (hm : ∀ c ∈ m, c.toNat < 128) (h : Lowers (m ++ s) t) :
    m.map Char.toLower <+: t := by
  induction m generalizing t with
  | nil => exact nil_prefix
  | cons c m ih =>
    obtain ⟨hc, hm'⟩ := forall_mem_cons.mp hm
    cases h with
    | cons hpiece hrest =>
      rw [hpiece.ascii hc, map_cons, singleton_append, cons_prefix_cons]
      exact ⟨rfl, ih hm' hrest⟩

theorem Lowers.eq_of_ascii (hm : ∀ c ∈ m, c.toNat < 128) (h : Lowers m t) :
    t = m.map Char.toLower := by
  induction m generalizing t with
  | nil =>
    cases h
    rfl
  | cons c m ih =>
    obtain ⟨hc, hm'⟩ := forall_mem_cons.mp hm
    cases h with
    | cons hpiece hrest =>
      rw [hpiece.ascii hc, map_cons, singleton_append, ih hm' hrest]

theorem ascii_of_map_toLower (hpat : ∀ d ∈ pat, d.toNat < 128)
    (h : m.map Char.toLower = pat) : ∀ c ∈ m, c.toNat < 128 := by
  intro c hc
  by_contra hother
  have hmem : c.toLower ∈ pat := h ▸ mem_map_of_mem hc
  have := hpat _ hmem
  rw [toLower_of_not_ascii (by omega)] at this
  exact hother this

theorem size_of_ascii (hm : ∀ c ∈ m, c.toNat < 128) : size m = m.length := by
  induction m with
  | nil => rfl
  | cons c m ih =>
    obtain ⟨hc, hm'⟩ := forall_mem_cons.mp hm
    rw [size_cons, utf8Size_of_ascii hc, ih hm', length_cons, Nat.add_comm]

theorem findBytes_append {p : Text} (hpat : pat ≠ []) (hp : ∀ d ∈ p, ∀ q ∈ pat.head?, d ≠ q) :
    findBytes pat (p ++ t) = (findBytes pat t).map (· + size p) := by
  induction p with
  | nil =>
    rw [nil_append]
    cases findBytes pat t <;> rfl
  | cons d p ih =>
    obtain ⟨hd, hp'⟩ := forall_mem_cons.mp hp
    have hnot : ¬pat <+: d :: (p ++ t) := by
      obtain ⟨q, pat, rfl⟩ := exists_cons_of_ne_nil hpat
      rw [cons_prefix_cons]
      rintro ⟨rfl, -⟩
      exact hd q rfl rfl
    rw [cons_append, findBytes, if_neg hnot, ih hp', Option.map_map]
    congr 1
    funext n
    rw [Function.comp_apply, size_cons]
    omega

theorem findBytes_lowers (hpat : Plain pat) (hne : pat ≠ []) (h : Lowers s t) :
    findBytes pat t = lowerOffset pat s := by
  induction h with
  | nil => rw [findBytes, lowerOffset]
  | @cons c p s t hc hs ih =>
    have hfirst := prefix_lowers hpat (.cons hc hs)
    rw [lowerOffset, ← ih]
    by_cases hascii : c.toNat < 128
    · have hsize := hc.size_eq
      rw [hc.ascii hascii] at hfirst hsize ⊢
      rw [singleton_append] at hfirst ⊢
      rw [size_cons, size_nil] at hsize
      rw [findBytes, ← hsize]
      by_cases hfront : pat <+: c.toLower :: t
      · rw [if_pos hfront, if_pos (hfirst.mp hfront)]
      · rw [if_neg hfront, if_neg fun hin => hfront (hfirst.mpr hin), Nat.add_zero]
    · obtain ⟨hp, hother⟩ := hc.other (by omega)
      have hforeign : ∀ d ∈ p, ∀ q ∈ pat.head?, d ≠ q := by
        rintro d hd q hq rfl
        obtain ⟨hq, hk, hi⟩ := hpat d (mem_of_mem_head? hq)
        rcases hother d hd hq with rfl | rfl
        · exact hk rfl
        · exact hi rfl
      have hnot : ¬pat <+: p ++ t := by
        obtain ⟨d, ds, rfl⟩ := exists_cons_of_ne_nil hp
        obtain ⟨q, pat, rfl⟩ := exists_cons_of_ne_nil hne
        rw [cons_append, cons_prefix_cons]
        rintro ⟨rfl, -⟩
        exact hforeign q mem_cons_self q rfl rfl
      rw [findBytes_append hne hforeign, if_neg fun hin => hnot (hfirst.mpr hin), hc.size_eq]

def Unbordered (pat : Text) : Prop := ∀ k < pat.length, 0 < k → ¬pat.drop k <+: pat

instance (pat : Text) : Decidable (Unbordered pat) :=
  inferInstanceAs (Decidable (∀ k < pat.length, _))

theorem not_prefix_append {x y : Text} (hpat : Unbordered pat) (hx : x ≠ [])
    (hnot : ¬pat <:+: x) (hy : pat <+: y) : ¬pat <+: x ++ y := by
  intro h
  rcases Nat.lt_or_ge x.length pat.length with hlong | hshort
  · obtain ⟨rest, hrest⟩ := prefix_of_prefix_length_le (prefix_append x y) h
      (Nat.le_of_lt hlong)
    have hdrop : pat.drop x.length = rest := by rw [← hrest, drop_left]
    have hresty : rest <+: y := by
      rw [← hrest] at h
      exact (prefix_append_right_inj x).mp h
    have hlength : rest.length ≤ pat.length := by
      rw [← hrest, length_append]
      omega
    exact hpat x.length hlong (length_pos_iff.mpr hx)
      (hdrop ▸ prefix_of_prefix_length_le hresty hy hlength)
  · exact hnot (prefix_of_prefix_length_le h (prefix_append x y) hshort).isInfix

theorem lowerSize_cons (c : Char) (s : Text) :
    lowerSize (c :: s) = size (lowerChar c) + lowerSize s := by
  rw [lowerSize, flatMap_cons, size_append]
  rfl

theorem lowerOffset_append (hpat : Unbordered pat) (hne : pat ≠ [])
    (hs : ¬pat <:+: s.map Char.toLower) (ht : pat <+: t.map Char.toLower) :
    lowerOffset pat (s ++ t) = some (lowerSize s) := by
  induction s with
  | nil =>
    cases t with
    | nil => exact absurd (prefix_nil.mp ht) hne
    | cons c t =>
      rw [nil_append, lowerOffset, if_pos ht]
      rfl
  | cons c s ih =>
    have hrest : ¬pat <:+: s.map Char.toLower := fun hin =>
      hs (hin.trans (suffix_cons _ _).isInfix)
    have hnot : ¬pat <+: (c :: (s ++ t)).map Char.toLower := by
      have hmap : (c :: (s ++ t)).map Char.toLower =
          (c :: s).map Char.toLower ++ t.map Char.toLower := by
        rw [← map_append]
        rfl
      rw [hmap]
      exact not_prefix_append hpat (by simp) hs ht
    rw [cons_append, lowerOffset, if_neg hnot, ih hrest, Option.map_some, lowerSize_cons,
      Nat.add_comm]

theorem EndsIn.exists_front (hpat : ∀ d ∈ pat, d.toNat < 128) (h : EndsIn pat s) :
    ∃ a m, s = a ++ m ∧ m.map Char.toLower = pat ∧ size m = pat.length ∧ m.length = pat.length := by
  obtain ⟨x, hx⟩ := h
  obtain ⟨a, m, rfl, -, hm⟩ := map_eq_append_iff.mp hx.symm
  have hlength : m.length = pat.length := by rw [← hm, length_map]
  exact ⟨a, m, rfl, hm, by rw [size_of_ascii (ascii_of_map_toLower hpat hm), hlength], hlength⟩

end TextBytes
