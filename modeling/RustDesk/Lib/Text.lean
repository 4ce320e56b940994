import Mathlib.Data.List.DropRight
import Mathlib.Tactic.Common

/-!
# Texts

A text is a list of characters, and its white space is that of Unicode.
-/

/-- A text. -/
abbrev Text := List Char

namespace Text

/-- The Unicode property `White_Space`. -/
def isWhitespace (c : Char) : Bool :=
  let n := c.toNat
  (9 ≤ n && n ≤ 13) || n = 0x20 || n = 0x85 || n = 0xA0 || n = 0x1680
    || (0x2000 ≤ n && n ≤ 0x200A) || n = 0x2028 || n = 0x2029 || n = 0x202F
    || n = 0x205F || n = 0x3000

/-- The text without the white space at both ends. -/
def trim (s : Text) : Text := (s.dropWhile isWhitespace).rdropWhile isWhitespace

end Text
