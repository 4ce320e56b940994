import Mathlib.Data.Prod.Lex
import RustDesk.Server.Config

/-!
# Version numbers order versions

`get_version_number` packs the three numbers of a version and its patch number into one
number: the last of the three is multiplied by ten, which leaves one digit for the patch.
On versions whose numbers stay within their digits, the packed numbers are ordered as the
versions are.
-/

namespace RustDesk

open List

structure Version where
  major : Nat
  minor : Nat
  release : Nat
  patch : Nat
  major_lt : major < 10 ^ 9
  minor_lt : minor < 1000
  release_lt : release < 100
  patch_lt : patch < 10

namespace Version

def key (v : Version) : ℕ ×ₗ ℕ ×ₗ ℕ ×ₗ ℕ :=
  toLex (v.major, toLex (v.minor, toLex (v.release, v.patch)))

/-- The text is `a.b.c` or `a.b.c-p`, each of them decimal digits, leading zeros included. -/
inductive Writes : String → Version → Prop where
  | plain {s : String} {v : Version} {a b c : List Char} (ha : digitsValue a = some v.major)
      (hb : digitsValue b = some v.minor) (hc : digitsValue c = some v.release)
      (hp : v.patch = 0) (hs : s.toList = a ++ '.' :: (b ++ '.' :: c)) : Writes s v
  | patched {s : String} {v : Version} {a b c p : List Char} (ha : digitsValue a = some v.major)
      (hb : digitsValue b = some v.minor) (hc : digitsValue c = some v.release)
      (hp : digitsValue p = some v.patch)
      (hs : s.toList = a ++ '.' :: (b ++ '.' :: c) ++ '-' :: p) : Writes s v

end Version

variable {ds : List Char}

theorem isDigit_of_digitsValue {n : Nat} (h : digitsValue ds = some n) :
    ds ≠ [] ∧ ∀ c ∈ ds, c.isDigit = true := by
  have hfold : ∀ (ds : List Char) (k : Nat), (ds.foldlM (fun n c => if c.isDigit then
      some (10 * n + (c.toNat - '0'.toNat)) else none) k : Option Nat) = some n →
      ∀ c ∈ ds, c.isDigit = true := by
    intro ds
    induction ds with
    | nil => exact fun _ _ => nofun
    | cons d ds ih =>
      intro k hk
      rw [foldlM_cons] at hk
      obtain ⟨m, hm, hrest⟩ := Option.bind_eq_some_iff.mp hk
      have hd : d.isDigit = true := by
        by_contra hnot
        rw [if_neg hnot] at hm
        cases hm
      exact forall_mem_cons.mpr ⟨hd, ih m hrest⟩
  cases ds with
  | nil => cases h
  | cons d ds => exact ⟨cons_ne_nil d ds, hfold (d :: ds) 0 h⟩

theorem notMem_of_digitsValue {n : Nat} {c : Char}
    (h : digitsValue ds = some n) (hc : c.isDigit = false) : c ∉ ds := by
  intro hmem
  have hdigit := (isDigit_of_digitsValue h).2 c hmem
  rw [hc] at hdigit
  cases hdigit

theorem parseI64_of_digitsValue {n : Nat} (h : digitsValue ds = some n)
    (hn : n < 2 ^ 63) : parseI64 ds = some (n : Int) := by
  have hminus : '-' ∉ ds := notMem_of_digitsValue h (by decide)
  have hplus : '+' ∉ ds := notMem_of_digitsValue h (by decide)
  unfold parseI64
  split
  · exact absurd mem_cons_self hminus
  · exact absurd mem_cons_self hplus
  · rw [h, Option.bind_some, if_pos hn]

theorem wrapI64_of_lt {n : Int} (h : -2 ^ 63 ≤ n) (h' : n < 2 ^ 63) : wrapI64 n = n :=
  Int.bmod_eq_of_le (by omega) (by omega)

variable {k m n : Nat}

theorem splitOn_dots {a b c : List Char} (ha : digitsValue a = some k)
    (hb : digitsValue b = some m) (hc : digitsValue c = some n) :
    (a ++ '.' :: (b ++ '.' :: c)).splitOn '.' = [a, b, c] := by
  have hdot : '.'.isDigit = false := by decide
  rw [splitOn_append_cons_self, splitOn_append_cons_self,
    splitOn_eq_singleton (notMem_of_digitsValue ha hdot),
    splitOn_eq_singleton (notMem_of_digitsValue hb hdot),
    splitOn_eq_singleton (notMem_of_digitsValue hc hdot)]
  rfl

theorem notMem_dots {a b c : List Char} (ha : digitsValue a = some k)
    (hb : digitsValue b = some m) (hc : digitsValue c = some n) :
    '-' ∉ a ++ '.' :: (b ++ '.' :: c) := by
  have hminus : '-'.isDigit = false := by decide
  have := notMem_of_digitsValue ha hminus
  have := notMem_of_digitsValue hb hminus
  have := notMem_of_digitsValue hc hminus
  simp_all

theorem packed_of_lt (hk : k < 10 ^ 9) (hm : m < 1000) (hn : n < 100) :
    wrapI64 (wrapI64 (([k, m, n] : List Int).foldl
        (fun n x => wrapI64 (wrapI64 (n * 1000) + x)) 0 - ([k, m, n] : List Int).getLastD 0)
      + wrapI64 (([k, m, n] : List Int).getLastD 0 * 10)) =
      (k * 10 ^ 6 + m * 1000 + n * 10 : Nat) := by
  have hlast : ([k, m, n] : List Int).getLastD 0 = n := rfl
  have hfold : ([k, m, n] : List Int).foldl (fun n x => wrapI64 (wrapI64 (n * 1000) + x)) 0 =
      (k * 1000 + m) * 1000 + n := by
    rw [foldl_cons, foldl_cons, foldl_cons, foldl_nil, Int.zero_mul]
    simp (disch := omega) only [wrapI64_of_lt, Int.zero_add]
  rw [hfold, hlast]
  simp (disch := omega) only [wrapI64_of_lt]
  omega

namespace Version

theorem getVersionNumber_writes {s : String} {v : Version} (h : Writes s v) :
    getVersionNumber s = (v.major * 10 ^ 6 + v.minor * 1000 + v.release * 10 + v.patch : Nat) := by
  have hmajor := v.major_lt
  have hminor := v.minor_lt
  have hrelease := v.release_lt
  have hpatch := v.patch_lt
  have hpacked := packed_of_lt hmajor hminor hrelease
  cases h with
  | plain ha hb hc hp hs =>
    unfold getVersionNumber
    rw [hs, splitOn_eq_singleton (notMem_dots ha hb hc)]
    dsimp only
    rw [splitOn_dots ha hb hc]
    simp only [map_cons, map_nil, parseI64_of_digitsValue ha (by omega),
      parseI64_of_digitsValue hb (by omega), parseI64_of_digitsValue hc (by omega),
      Option.getD_some]
    rw [hpacked, hp, Nat.add_zero]
  | patched ha hb hc hp hs =>
    have hminus := notMem_of_digitsValue hp (c := '-') (by decide)
    unfold getVersionNumber
    rw [hs, splitOn_append_cons_self, splitOn_eq_singleton (notMem_dots ha hb hc),
      splitOn_eq_singleton hminus, singleton_append]
    dsimp only
    rw [splitOn_dots ha hb hc]
    simp only [map_cons, map_nil, parseI64_of_digitsValue ha (by omega),
      parseI64_of_digitsValue hb (by omega), parseI64_of_digitsValue hc (by omega),
      parseI64_of_digitsValue hp (by omega), Option.getD_some]
    rw [hpacked, wrapI64_of_lt (by omega) (by omega)]
    omega

theorem key_lt_iff (v w : Version) :
    v.key < w.key ↔ v.major < w.major ∨ v.major = w.major ∧ (v.minor < w.minor ∨
      v.minor = w.minor ∧ (v.release < w.release ∨ v.release = w.release ∧ v.patch < w.patch)) := by
  simp only [key, Prod.Lex.toLex_lt_toLex]

theorem key_eq_iff (v w : Version) :
    v.key = w.key ↔ v.major = w.major ∧ v.minor = w.minor ∧ v.release = w.release ∧
      v.patch = w.patch := by
  simp only [key, EmbeddingLike.apply_eq_iff_eq, Prod.mk.injEq]

/-- **Version numbers order versions.**  Of two written versions, one has the smaller number
exactly if it comes first, and they have the same number exactly if they are the same. -/
theorem version_numbers_order {s t : String} {v w : Version} (hs : Writes s v)
    (ht : Writes t w) :
    (getVersionNumber s < getVersionNumber t ↔ v.key < w.key) ∧
      (getVersionNumber s = getVersionNumber t ↔ v.key = w.key) := by
  have hminor := v.minor_lt
  have hrelease := v.release_lt
  have hpatch := v.patch_lt
  have hminor' := w.minor_lt
  have hrelease' := w.release_lt
  have hpatch' := w.patch_lt
  rw [getVersionNumber_writes hs, getVersionNumber_writes ht, key_lt_iff, key_eq_iff]
  constructor <;> omega

/-- A patched version comes behind the version it patches. -/
theorem patch_comes_behind :
    getVersionNumber "1.1.10" < getVersionNumber "1.1.010-1" ∧
      getVersionNumber "1.1.10" ≠ getVersionNumber "1.1.010-1" := by
  have h := version_numbers_order (s := "1.1.10") (t := "1.1.010-1")
    (v := ⟨1, 1, 10, 0, by decide, by decide, by decide, by decide⟩)
    (w := ⟨1, 1, 10, 1, by decide, by decide, by decide, by decide⟩)
    (.plain (a := ['1']) (b := ['1']) (c := ['1', '0']) rfl rfl rfl rfl rfl)
    (.patched (a := ['1']) (b := ['1']) (c := ['0', '1', '0']) (p := ['1']) rfl rfl rfl rfl rfl)
  exact ⟨h.1.mpr (by decide), fun heq => absurd (h.2.mp heq) (by decide)⟩

end Version
end RustDesk
