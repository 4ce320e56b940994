import Mathlib.Tactic.Common

/-!
# Bytes and I/O errors

The two notions every part of the program shares: byte strings, and the errors
of `std::io` with the kinds the modelled code builds itself.

A definition with the name of something in the source, in camel case, models that; it has a
docstring only where there is more to say.
-/

namespace RustDesk

/-- `Vec<u8>`, `Bytes` and `BytesMut`, which differ only in how they are stored. -/
abbrev Bytes := List UInt8

/-- The kinds of `io::Error` the modelled code reports. -/
inductive IoErrorKind where
  | invalidData
  | invalidInput
  | other
  deriving DecidableEq

structure IoError where
  kind : IoErrorKind
  message : String
  deriving DecidableEq

end RustDesk
