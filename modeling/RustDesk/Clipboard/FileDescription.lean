import RustDesk.Basic
import RustDesk.Lib.LittleEndian
import RustDesk.Lib.UnixPath

/-!
# The list of copied files

`FileDescription::parse_file_descriptors`: a peer that copied files sends a record of 592
bytes for each of them.  The name is a block of 260 units of UTF-16; backslashes become
slashes, and the NULs behind the name are dropped.  Nothing else is asked of a name.
-/

namespace RustDesk

open UnixPath

/-- `FileType`. -/
inductive FileKind where
  | file
  | directory
  | symlink
  deriving DecidableEq

/-- `FileDescription`, without the times and the permissions. -/
structure FileDescription where
  connId : Int
  name : Text
  kind : FileKind
  size : Nat
  deriving DecidableEq

namespace FileDescription

inductive ParseError where
  | insufficientLength
  | invalidLength
  | conversionFailure
  /-- "file description must have valid attributes". -/
  | invalidAttributes

def unit (a b : UInt8) : Nat := a.toNat + 256 * b.toNat

def fromUtf16le : Bytes → Option Text
  | [] => some []
  | [_] => none
  | a :: b :: rest =>
    if unit a b < 0xD800 ∨ 0xE000 ≤ unit a b then
      (fromUtf16le rest).map (Char.ofNat (unit a b) :: ·)
    else
      match rest with
      | c :: d :: rest' =>
        if unit a b < 0xDC00 ∧ 0xDC00 ≤ unit c d ∧ unit c d < 0xE000 then
          (fromUtf16le rest').map
            (Char.ofNat (0x10000 + (unit a b - 0xD800) * 0x400 + (unit c d - 0xDC00)) :: ·)
        else none
      | _ => none

/-- The name of a file from its text: `replace('\\', "/")`, then
`trim_end_matches('\0')`. -/
def pathName (text : Text) : Text :=
  ((text.map fun c => if c = '\\' then '/' else c).reverse.dropWhile (· = Char.ofNat 0)).reverse

def field (record : Bytes) (start count : Nat) : Nat :=
  LittleEndian.leNumber ((record.drop start).take count)

def flagsFdAttributes : Nat := 0x04

/-- `parse_file_descriptor`, on a record of 592 bytes. -/
def parseFileDescriptor (record : Bytes) (connId : Int) : Except ParseError FileDescription :=
  match fromUtf16le ((record.drop 72).take 520) with
  | none => .error .conversionFailure
  | some text =>
    if field record 0 4 &&& flagsFdAttributes = 0 then .error .invalidAttributes
    else
      .ok { connId := connId
            name := pathName text
            kind := if field record 36 4 &&& 0x10 ≠ 0 then .directory else .file
            size := field record 64 4 * 2 ^ 32 + field record 68 4 }

def parseRecords (connId : Int) : Nat → Bytes → Except ParseError (List FileDescription)
  | 0, _ => .ok []
  | count + 1, data =>
    match parseFileDescriptor (data.take 592) connId with
    | .error e => .error e
    | .ok desc =>
      match parseRecords connId count (data.drop 592) with
      | .error e => .error e
      | .ok files => .ok (desc :: files)

def parseFileDescriptors (pdu : Bytes) (connId : Int) : Except ParseError (List FileDescription) :=
  if pdu.length < 4 then .error .insufficientLength
  else
    let count := field pdu 0 4
    let data := pdu.drop 4
    if data.length = 0 ∧ count = 0 then .ok []
    else if data.length ≠ 592 * count then .error .invalidLength
    else parseRecords connId count data

def oneFilePdu (name : String) (size : Nat) : Bytes :=
  LittleEndian.leBytes 1 4 ++ LittleEndian.leBytes 4 4 ++ List.replicate 64 0 ++
    LittleEndian.leBytes size 4 ++
    (name.toList.flatMap (fun c : Char => LittleEndian.leBytes c.toNat 2) ++
      List.replicate 520 0).take 520

theorem field_lt (record : Bytes) (start : Nat) : field record start 4 < 2 ^ 32 := by
  have hlt := LittleEndian.leNumber_lt ((record.drop start).take 4)
  have hlen : ((record.drop start).take 4).length ≤ 4 := List.length_take_le _ _
  have hpow : 256 ^ ((record.drop start).take 4).length ≤ 256 ^ 4 :=
    Nat.pow_le_pow_right (by decide) hlen
  rw [field]
  omega

theorem parseFileDescriptor_size {record : Bytes} {connId : Int} {desc : FileDescription}
    (h : parseFileDescriptor record connId = .ok desc) : desc.size < 2 ^ 64 := by
  rw [parseFileDescriptor] at h
  split at h
  next => cases h
  next text _ =>
    by_cases hattributes : field record 0 4 &&& flagsFdAttributes = 0
    · rw [if_pos hattributes] at h
      cases h
    · rw [if_neg hattributes] at h
      cases h
      have hhigh := field_lt record 64
      have hlow := field_lt record 68
      show field record 64 4 * 2 ^ 32 + field record 68 4 < 2 ^ 64
      omega

theorem parseFileDescriptors_size {pdu : Bytes} {connId : Int} {files : List FileDescription}
    (h : parseFileDescriptors pdu connId = .ok files) : ∀ desc ∈ files, desc.size < 2 ^ 64 := by
  have hrecords : ∀ (count : Nat) (data : Bytes) (files : List FileDescription),
      parseRecords connId count data = .ok files → ∀ desc ∈ files, desc.size < 2 ^ 64 := by
    intro count
    induction count with
    | zero =>
      intro data files hfiles
      cases hfiles
      exact nofun
    | succ count ih =>
      intro data files hfiles
      rw [parseRecords] at hfiles
      split at hfiles
      next => cases hfiles
      next first hfirst =>
        split at hfiles
        next => cases hfiles
        next rest hrest =>
          cases hfiles
          intro desc hdesc
          rcases List.mem_cons.mp hdesc with rfl | hdesc
          · exact parseFileDescriptor_size hfirst
          · exact ih _ rest hrest desc hdesc
  simp only [parseFileDescriptors] at h
  split_ifs at h
  · cases h
    exact nofun
  · exact hrecords _ _ files h

end FileDescription
end RustDesk
