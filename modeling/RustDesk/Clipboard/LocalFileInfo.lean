import RustDesk.Clipboard.Descriptor
import RustDesk.Lib.Utf8

/-!
# A file that is offered for copying

`LocalFile::as_bin` writes the record of 592 bytes that `FileDescription::parse_file_descriptor`
reads.  The name goes in UTF-16 into a block of 520 bytes; what is left of the block is
filled with zeros, and a name that is longer than the block traps there.

Paths are what the system makes of them: bytes, `/` between their pieces.
-/

namespace RustDesk

open CheckedArith UnixPath LittleEndian

namespace OsPath

/-- `/`. -/
def sep : UInt8 := 0x2F

/-- `.`. -/
def dot : Bytes := [0x2E]

def proper (piece : Bytes) : Bool := piece != [] && piece != dot

/-- The root, or a `.` in front of everything, and what stands behind it. -/
def lead (p : Bytes) : Bytes × Bytes :=
  if p.head? = some sep ∨ (p.splitOn sep).head? = some dot then (p.take 1, p.drop 1) else ([], p)

def components (p : Bytes) : List Bytes :=
  (if (lead p).1 = [] then [] else [(lead p).1]) ++ ((lead p).2.splitOn sep).filter proper

def behind : Nat → List Bytes → List Bytes
  | 0, pieces => pieces
  | _, [] => []
  | n + 1, piece :: pieces => behind (if proper piece then n else n + 1) pieces

def render (pieces : List Bytes) : Bytes :=
  [sep].intercalate (pieces.reverse.dropWhile fun piece => !proper piece).reverse

def stripPrefix (p base : Bytes) : Option Bytes :=
  let body := (lead p).2.splitOn sep
  let leading := if (lead p).1 = [] then 0 else 1
  if (components base).isPrefixOf (components p) then
    match (components base).length with
    | 0 => some ((lead p).1 ++ render body)
    | n + 1 => some (render ((behind (n + 1 - leading) body).dropWhile fun piece => !proper piece))
  else none

end OsPath

/-- What `LocalFile` says of a file; the handle is not told.  The time is in nanoseconds,
from the Unix epoch on. -/
structure LocalFileInfo where
  relativeRoot : Bytes
  path : Bytes
  name : Text
  size : Nat
  lastWriteTime : Int
  isDir : Bool
  perm : Nat
  readOnly : Bool
  hidden : Bool
  system : Bool
  archive : Bool
  normal : Bool
  size_lt : size < 2 ^ 64
  perm_lt : perm < 2 ^ 32

theorem readable_lt : 0o100644 < 2 ^ 32 := by decide

namespace LocalFileInfo

def unitBytes (n : Nat) : Bytes := leBytes n 2

/-- `WString::<LE>::from`, one character. -/
def charUtf16le (c : Char) : Bytes :=
  if c.toNat < 0x10000 then unitBytes c.toNat
  else
    unitBytes (0xD800 + (c.toNat - 0x10000) / 0x400) ++
      unitBytes (0xDC00 + (c.toNat - 0x10000) % 0x400)

/-- `WString::<LE>::from`. -/
def toUtf16le (text : Text) : Bytes := text.flatMap charUtf16le

def relative (f : LocalFileInfo) : Bytes := (OsPath.stripPrefix f.path f.relativeRoot).getD f.path

def fileAttributes (f : LocalFileInfo) : Nat :=
  (if f.readOnly then 0x1 else 0) ||| (if f.hidden then 0x2 else 0) |||
    (if f.system then 0x4 else 0) ||| (if f.isDir then 0x10 else 0) |||
    (if f.archive then 0x20 else 0) ||| (if f.normal then 0x80 else 0)

def binFlags : Nat :=
  flagsFdSize ||| flagsFdLastWrite ||| FileDescription.flagsFdAttributes ||| flagsFdProgressui |||
    flagsFdUnixMode

/-- A time before the epoch is the epoch, and `as_nanos() as u64` keeps the low bits. -/
def win32Time (f : LocalFileInfo) : Except Trap Nat :=
  add 64 (f.lastWriteTime.toNat % 2 ^ 64 / 100) ldapEpochDelta

def wideName (f : LocalFileInfo) : Bytes := toUtf16le (Utf8.lossy f.relative)

def asBin (f : LocalFileInfo) : Except Trap Bytes := do
  let win32Time ← f.win32Time
  let padding ← sub 520 f.wideName.length
  return leBytes binFlags 4 ++ List.replicate 32 0 ++
    leBytes f.fileAttributes 4 ++ List.replicate 12 0 ++
    leBytes f.perm 4 ++ leBytes win32Time 8 ++
    leBytes (f.size / 2 ^ 32) 4 ++ leBytes (f.size % 2 ^ 32) 4 ++
    f.wideName ++ List.replicate padding 0

def buildFileListPdu (fileList : List LocalFileInfo) : Except Trap Bytes := do
  let records ← mapAll asBin fileList
  return leBytes fileList.length 4 ++ records.flatten

end LocalFileInfo
end RustDesk
