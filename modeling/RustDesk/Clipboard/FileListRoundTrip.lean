import Mathlib.Data.List.Forall2
import RustDesk.Clipboard.LocalFileInfo

/-!
# The list of files comes back

What `build_file_list_pdu` writes, `parse_file_descriptors` reads: the same paths, sizes,
kinds and modes, and the times to 100 ns.  `roundTrips_iff` says when: a name must fit into
its block of 260 units, a time into 64 bits of nanoseconds, and the number of files into 32
bits.  The first of these is not asked of the files that are copied.
-/

namespace RustDesk

open CheckedArith FileDescription UnixPath List LittleEndian

namespace LocalFileInfo

variable {c : Char} {text : Text} {rest : Bytes} {f : LocalFileInfo} {files : List LocalFileInfo}
  {connId : Int} {n : Nat}

theorem unit_unitBytes (h : n < 0x10000) : ∃ a b, unitBytes n = [a, b] ∧ unit a b = n := by
  refine ⟨UInt8.ofNat n, UInt8.ofNat (n >>> 8), rfl, ?_⟩
  rw [unit, UInt8.toNat_ofNat', UInt8.toNat_ofNat', Nat.shiftRight_eq_div_pow]
  omega

theorem char_range (c : Char) : c.toNat < 0xD800 ∨ 0xE000 ≤ c.toNat ∧ c.toNat < 0x110000 := by
  have hvalid := c.valid
  unfold UInt32.isValidChar Nat.isValidChar at hvalid
  change c.toNat < 0xD800 ∨ 0xDFFF < c.toNat ∧ c.toNat < 0x110000 at hvalid
  omega

theorem fromUtf16le_unit {a b : UInt8} (h : unit a b < 0xD800 ∨ 0xE000 ≤ unit a b) :
    fromUtf16le (a :: b :: rest) = (fromUtf16le rest).map (Char.ofNat (unit a b) :: ·) := by
  rw [fromUtf16le.eq_def]
  exact if_pos h

theorem fromUtf16le_pair {a b a' b' : UInt8} (hhigh : 0xD800 ≤ unit a b)
    (hhigh' : unit a b < 0xDC00) (hlow : 0xDC00 ≤ unit a' b') (hlow' : unit a' b' < 0xE000) :
    fromUtf16le (a :: b :: a' :: b' :: rest) = (fromUtf16le rest).map
      (Char.ofNat (0x10000 + (unit a b - 0xD800) * 0x400 + (unit a' b' - 0xDC00)) :: ·) := by
  rw [fromUtf16le.eq_def]
  dsimp only
  rw [if_neg (by omega), if_pos ⟨hhigh', hlow, hlow'⟩]

theorem fromUtf16le_charUtf16le :
    fromUtf16le (charUtf16le c ++ rest) = (fromUtf16le rest).map (c :: ·) := by
  have hrange := char_range c
  unfold charUtf16le
  by_cases hplane : c.toNat < 0x10000
  · obtain ⟨a, b, hbytes, hunit⟩ := unit_unitBytes hplane
    rw [if_pos hplane, hbytes, cons_append, cons_append, nil_append,
      fromUtf16le_unit (by omega), hunit, Char.ofNat_toNat]
  · obtain ⟨a, b, hhigh, hunit⟩ :=
      unit_unitBytes (n := 0xD800 + (c.toNat - 0x10000) / 0x400) (by omega)
    obtain ⟨a', b', hlow, hunit'⟩ :=
      unit_unitBytes (n := 0xDC00 + (c.toNat - 0x10000) % 0x400) (by omega)
    have hnumber : 0x10000 + (unit a b - 0xD800) * 0x400 + (unit a' b' - 0xDC00) = c.toNat := by
      rw [hunit, hunit']
      omega
    rw [if_neg hplane, hhigh, hlow]
    simp only [cons_append, nil_append]
    rw [fromUtf16le_pair (by omega) (by omega) (by omega) (by omega), hnumber, Char.ofNat_toNat]

theorem fromUtf16le_toUtf16le :
    fromUtf16le (toUtf16le text ++ rest) = (fromUtf16le rest).map (text ++ ·) := by
  induction text with
  | nil => simp [toUtf16le]
  | cons c text ih =>
    have hcons : toUtf16le (c :: text) ++ rest = charUtf16le c ++ (toUtf16le text ++ rest) :=
      append_assoc ..
    rw [hcons, fromUtf16le_charUtf16le, ih, Option.map_map]
    rfl

theorem fromUtf16le_zeros (n : Nat) :
    fromUtf16le (List.replicate (2 * n) 0) = some (List.replicate n (Char.ofNat 0)) := by
  induction n with
  | zero => rfl
  | succ n ih =>
    have hunit : unit 0 0 = 0 := rfl
    rw [Nat.mul_succ, replicate_succ, replicate_succ,
      fromUtf16le_unit (Or.inl (by rw [hunit]; omega)), ih]
    rfl

theorem length_charUtf16le : (charUtf16le c).length = 2 ∨ (charUtf16le c).length = 4 := by
  unfold charUtf16le unitBytes
  split <;> simp

theorem even_toUtf16le (text : Text) : ∃ units, (toUtf16le text).length = 2 * units := by
  induction text with
  | nil => exact ⟨0, rfl⟩
  | cons c text ih =>
    obtain ⟨units, hunits⟩ := ih
    have hcons : (toUtf16le (c :: text)).length
        = (charUtf16le c).length + (toUtf16le text).length := length_append
    rcases length_charUtf16le (c := c) with hlength | hlength
    · exact ⟨units + 1, by omega⟩
    · exact ⟨units + 2, by omega⟩

theorem pathName_append_nuls (hslash : '\\' ∉ text) (hnul : Char.ofNat 0 ∉ text) (n : Nat) :
    pathName (text ++ List.replicate n (Char.ofNat 0)) = text := by
  have hsame : (text ++ List.replicate n (Char.ofNat 0)).map
      (fun c => if c = '\\' then '/' else c) = text ++ List.replicate n (Char.ofNat 0) := by
    refine (map_congr_left fun c hc => if_neg ?_).trans (map_id _)
    rintro rfl
    rcases mem_append.mp hc with htext | hpad
    · exact hslash htext
    · exact absurd (eq_of_mem_replicate hpad) (by decide)
  rw [pathName, hsame, reverse_append, reverse_replicate,
    dropWhile_append_of_pos fun c hc => decide_eq_true (eq_of_mem_replicate hc)]
  have hkept : text.reverse.dropWhile (· = Char.ofNat 0) = text.reverse := by
    cases hreverse : text.reverse with
    | nil => rfl
    | cons c cs =>
      have hc : c ∈ text := mem_reverse.mp (hreverse ▸ mem_cons_self)
      have hne : c ≠ Char.ofNat 0 := fun heq => hnul (heq ▸ hc)
      rw [dropWhile_cons_of_neg (by simpa using hne)]
  rw [hkept, reverse_reverse]

def win32TimeOf (f : LocalFileInfo) : Nat := f.lastWriteTime.toNat % 2 ^ 64 / 100 + ldapEpochDelta

theorem win32TimeOf_lt (f : LocalFileInfo) : f.win32TimeOf < 2 ^ 64 := by
  unfold win32TimeOf ldapEpochDelta
  omega

def binBytes (f : LocalFileInfo) : Bytes :=
  leBytes binFlags 4 ++ List.replicate 32 0 ++
    leBytes f.fileAttributes 4 ++ List.replicate 12 0 ++
    leBytes f.perm 4 ++ leBytes f.win32TimeOf 8 ++
    leBytes (f.size / 2 ^ 32) 4 ++ leBytes (f.size % 2 ^ 32) 4 ++
    f.wideName ++ List.replicate (520 - f.wideName.length) 0

def NameFits (f : LocalFileInfo) : Prop := f.wideName.length ≤ 520

theorem asBin_of_fits (h : f.NameFits) : f.asBin = .ok f.binBytes := by
  have hlength : f.wideName.length ≤ 520 := h
  rw [asBin, win32Time, add_ok f.win32TimeOf_lt, ok_bind, sub_ok hlength]
  rfl

theorem asBin_trap (h : ¬f.NameFits) : f.asBin = .error .overflow := by
  have hlength : ¬f.wideName.length ≤ 520 := h
  rw [asBin, win32Time, add_ok f.win32TimeOf_lt, ok_bind, sub_trap hlength]
  rfl

theorem length_binBytes (h : f.NameFits) : f.binBytes.length = 592 := by
  have hlength : f.wideName.length ≤ 520 := h
  simp only [binBytes, length_append, length_leBytes, length_replicate]
  omega

theorem field_skip {xs ys : Bytes} {start k : Nat} (h : xs.length ≤ start) :
    field (xs ++ ys) start k = field ys (start - xs.length) k := by
  rw [field, field, drop_append, drop_eq_nil_of_le h, nil_append]

theorem field_here {ys : Bytes} {k : Nat} : field (leBytes n k ++ ys) 0 k = n % 256 ^ k := by
  rw [field, drop_zero, take_left' (length_leBytes n k), leNumber_leBytes]

theorem fileAttributes_spec (f : LocalFileInfo) :
    f.fileAttributes < 256 ∧ (f.fileAttributes &&& 0x10 ≠ 0 ↔ f.isDir = true) := by
  have hall : ∀ r h s d a n : Bool,
      let attributes := (if r then 0x1 else 0) ||| (if h then 0x2 else 0) |||
        (if s then 0x4 else 0) ||| (if d then 0x10 else 0) ||| (if a then 0x20 else 0) |||
        (if n then 0x80 else 0)
      attributes < 256 ∧ (attributes &&& 0x10 ≠ 0 ↔ d = true) := by
    decide
  exact hall ..

theorem fields_binBytes (f : LocalFileInfo) :
    field f.binBytes 0 4 = binFlags ∧ field f.binBytes 36 4 = f.fileAttributes ∧
      field f.binBytes 52 4 = f.perm ∧ field f.binBytes 56 8 = f.win32TimeOf ∧
      field f.binBytes 64 4 = f.size / 2 ^ 32 ∧ field f.binBytes 68 4 = f.size % 2 ^ 32 := by
  have hperm := f.perm_lt
  have hsize := f.size_lt
  have htime := f.win32TimeOf_lt
  have hattributes := f.fileAttributes_spec.1
  simp (disch := simp) only [binBytes, append_assoc, field_here, field_skip,
    length_leBytes, length_replicate, Nat.reduceSub, Nat.sub_self]
  refine ⟨rfl, ?_, ?_, ?_, ?_, ?_⟩ <;> refine Nat.mod_eq_of_lt ?_ <;> omega

theorem fromUtf16le_binBytes (h : f.NameFits) :
    ∃ nuls, fromUtf16le ((f.binBytes.drop 72).take 520)
      = some (Utf8.lossy f.relative ++ List.replicate nuls (Char.ofNat 0)) := by
  have hlength : f.wideName.length ≤ 520 := h
  obtain ⟨units, hunits⟩ := even_toUtf16le (Utf8.lossy f.relative)
  have hwide : f.wideName.length = 2 * units := hunits
  have hblock : (f.binBytes.drop 72).take 520
      = toUtf16le (Utf8.lossy f.relative) ++ List.replicate (2 * (260 - units)) 0 := by
    have hpadding : 520 - f.wideName.length = 2 * (260 - units) := by omega
    have hfront : f.binBytes = (leBytes binFlags 4 ++ List.replicate 32 0 ++
        leBytes f.fileAttributes 4 ++ List.replicate 12 0 ++
        leBytes f.perm 4 ++ leBytes f.win32TimeOf 8 ++
        leBytes (f.size / 2 ^ 32) 4 ++ leBytes (f.size % 2 ^ 32) 4) ++
        (f.wideName ++ List.replicate (2 * (260 - units)) 0) := by
      rw [binBytes, hpadding]
      simp only [append_assoc]
    rw [hfront, drop_left' (by simp), take_of_length_le]
    · rfl
    · rw [length_append, length_replicate]
      omega
  refine ⟨260 - units, ?_⟩
  rw [hblock, fromUtf16le_toUtf16le, fromUtf16le_zeros]
  rfl

structure PlainName (f : LocalFileInfo) : Prop where
  valid : Utf8.valid f.relative = true
  noBackslash : 0x5C ∉ f.relative
  noNul : 0 ∉ f.relative

def parsed (f : LocalFileInfo) (connId : Int) : FullDescription :=
  let modified := f.lastWriteTime.toNat % 2 ^ 64 / 100 * 100
  { connId := connId
    name := Utf8.lossy f.relative
    kind := if f.isDir then .directory else .file
    size := f.size
    atime := modified
    lastModified := modified
    lastMetadataChanged := modified
    creationTime := modified
    perm := f.perm % 2 ^ 16 }

theorem PlainName.asText (h : f.PlainName) : Utf8.bytes (Utf8.lossy f.relative) = f.relative ∧
    '\\' ∉ Utf8.lossy f.relative ∧ Char.ofNat 0 ∉ Utf8.lossy f.relative := by
  obtain ⟨cs, hcs⟩ := Utf8.valid_iff.mp h.valid
  have hlossy : Utf8.lossy f.relative = cs := by rw [← hcs, Utf8.lossy_bytes]
  rw [hlossy]
  refine ⟨hcs, fun hmem => h.noBackslash ?_, fun hmem => h.noNul ?_⟩
  · rw [← hcs]
    exact mem_flatMap.mpr ⟨_, hmem, by decide⟩
  · rw [← hcs]
    exact mem_flatMap.mpr ⟨_, hmem, by decide⟩

theorem described_binBytes (hname : f.NameFits) (hplain : f.PlainName) (connId : Int) :
    FullDescription.described f.binBytes connId = .ok (.ok (f.parsed connId)) := by
  obtain ⟨hflags, hattributes, hperm, htime, hhigh, hlow⟩ := fields_binBytes f
  obtain ⟨nuls, htext⟩ := fromUtf16le_binBytes hname
  obtain ⟨-, hslash, hnul⟩ := hplain.asText
  have hsize : f.size / 2 ^ 32 * 2 ^ 32 + f.size % 2 ^ 32 = f.size := by omega
  have hdelta : f.win32TimeOf - ldapEpochDelta = f.lastWriteTime.toNat % 2 ^ 64 / 100 :=
    Nat.add_sub_cancel ..
  have hmodified : FullDescription.modifiedOf (FullDescription.flags f.binBytes)
      (FullDescription.writeTime f.binBytes)
        = .ok (f.lastWriteTime.toNat % 2 ^ 64 / 100 * 100) := by
    rw [FullDescription.modifiedOf_eq]
    · rw [FullDescription.flags, hflags, if_pos (by decide), FullDescription.writeTime, htime,
        hdelta]
    · rintro ⟨-, hhuge⟩
      rw [FullDescription.writeTime, htime, hdelta] at hhuge
      omega
  have hkind : (if f.fileAttributes &&& 0x10 ≠ 0 then FileKind.directory else .file)
      = if f.isDir = true then .directory else .file :=
    if_congr f.fileAttributes_spec.2 rfl rfl
  have hmode : FullDescription.permOf binFlags f.fileAttributes (f.perm % 2 ^ 16)
      = f.perm % 2 ^ 16 := if_pos (by decide)
  unfold FullDescription.described
  rw [htext]
  dsimp only
  rw [if_neg, hmodified, pathName_append_nuls hslash hnul, hattributes, hkind, hhigh, hlow, hsize,
    FullDescription.flags, hflags, hperm, hmode]
  · rfl
  · rw [FullDescription.flags, hflags]
    decide

def listBytes (files : List LocalFileInfo) : Bytes :=
  leBytes files.length 4 ++ (files.map binBytes).flatten

theorem length_records (h : ∀ f ∈ files, f.NameFits) :
    ((files.map binBytes).flatten).length = 592 * files.length := by
  induction files with
  | nil => rfl
  | cons f files ih =>
    obtain ⟨hf, hfiles⟩ := forall_mem_cons.mp h
    rw [map_cons, flatten_cons, length_append, length_binBytes hf, ih hfiles, length_cons]
    omega

theorem length_listBytes (h : ∀ f ∈ files, f.NameFits) :
    (listBytes files).length = 4 + 592 * files.length := by
  rw [listBytes, length_append, length_leBytes, length_records h]

theorem buildFileListPdu_cases (files : List LocalFileInfo) :
    (∀ f ∈ files, f.NameFits) ∧ buildFileListPdu files = .ok (listBytes files) ∨
      ¬(∀ f ∈ files, f.NameFits) ∧ ∃ e, buildFileListPdu files = .error e := by
  rcases mapAll_ok_iff (f := asBin) (g := binBytes) (P := NameFits)
    (fun _ => asBin_of_fits) (fun _ h => ⟨_, asBin_trap h⟩) files with ⟨hall, heq⟩ | ⟨hnot, e, heq⟩
  · refine .inl ⟨hall, ?_⟩
    rw [buildFileListPdu, heq]
    rfl
  · refine .inr ⟨hnot, e, ?_⟩
    rw [buildFileListPdu, heq]
    rfl

theorem parseRecords_binBytes (hnames : ∀ f ∈ files, f.NameFits)
    (hplain : ∀ f ∈ files, f.PlainName) (connId : Int) :
    FullDescription.parseRecords connId files.length (files.map binBytes).flatten
      = .ok (.ok (files.map fun f => f.parsed connId)) := by
  induction files with
  | nil => rfl
  | cons f files ih =>
    obtain ⟨hname, hnames⟩ := forall_mem_cons.mp hnames
    obtain ⟨hf, hplain⟩ := forall_mem_cons.mp hplain
    have hlength := length_binBytes hname
    have hdescribed : FullDescription.described (f.binBytes ++ (files.map binBytes).flatten)
        connId = .ok (.ok (f.parsed connId)) := by
      rw [← FullDescription.described_take, take_left' hlength, described_binBytes hname hf]
    rw [map_cons, flatten_cons, length_cons, FullDescription.parseRecords,
      FullDescription.parseFileDescriptor_eq (by rw [length_append]; omega), hdescribed,
      drop_left' hlength]
    simp only [Except.map, ok_bind, ih hnames hplain]
    rfl

theorem field_listBytes (files : List LocalFileInfo) :
    field (listBytes files) 0 4 = files.length % 2 ^ 32 := field_here

/-- **Reading the message** succeeds exactly if the number of files fits into 32 bits. -/
theorem parseFileDescriptors_listBytes (hnames : ∀ f ∈ files, f.NameFits)
    (hplain : ∀ f ∈ files, f.PlainName) (connId : Int) :
    FullDescription.parseFileDescriptors (listBytes files) connId
      = .ok (if files.length < 2 ^ 32 then .ok (files.map fun f => f.parsed connId)
          else .error .invalidLength) := by
  have hlength := length_listBytes hnames
  have hget : getLe 4 (listBytes files)
      = .ok (files.length % 2 ^ 32, (files.map binBytes).flatten) := by
    have hdrop : (listBytes files).drop 4 = (files.map binBytes).flatten :=
      drop_left' (length_leBytes ..)
    rw [getLe_ok (by omega), hdrop]
    exact congrArg (fun n => Except.ok (n, _)) (field_listBytes files)
  have hwanted : mul 64 592 (files.length % 2 ^ 32) = .ok (592 * (files.length % 2 ^ 32)) :=
    mul_ok (by omega)
  rw [FullDescription.parseFileDescriptors, if_neg (by omega), hget, ok_bind]
  dsimp only
  rw [length_records hnames]
  by_cases hcount : files.length < 2 ^ 32
  · rw [if_pos hcount, Nat.mod_eq_of_lt hcount] at *
    by_cases hempty : files.length = 0
    · rw [if_pos ⟨by omega, hempty⟩, length_eq_zero_iff.mp hempty]
      rfl
    · rw [if_neg (by omega), hwanted, ok_bind, if_neg (by omega),
        parseRecords_binBytes hnames hplain]
  · rw [if_neg (by omega), hwanted, ok_bind, if_pos (by omega), if_neg hcount]
    rfl

/-- A description says of a file what it should: the path, the size, the kind, the low
bits of the mode, and the time to 100 ns. -/
structure Describes (f : LocalFileInfo) (desc : FullDescription) : Prop where
  name : Utf8.bytes desc.name = f.relative
  size : desc.size = f.size
  kind : desc.kind = .directory ↔ f.isDir = true
  perm : desc.perm = f.perm % 2 ^ 16
  lastModified : (desc.lastModified : Int) = f.lastWriteTime / 100 * 100

/-- The list is written in its size, and read back as files that it describes. -/
def RoundTrips (files : List LocalFileInfo) (connId : Int) : Prop :=
  ∃ pdu descs, buildFileListPdu files = .ok pdu ∧ pdu.length = 4 + 592 * files.length ∧
    FullDescription.parseFileDescriptors pdu connId = .ok (.ok descs) ∧
    List.Forall₂ Describes files descs

theorem describes_parsed_iff (hplain : f.PlainName) (htime : 0 ≤ f.lastWriteTime) :
    f.Describes (f.parsed connId) ↔ f.lastWriteTime < 2 ^ 64 := by
  have hmodified : ((f.parsed connId).lastModified : Int)
      = f.lastWriteTime % 2 ^ 64 / 100 * 100 := by
    change ((f.lastWriteTime.toNat % 2 ^ 64 / 100 * 100 : Nat) : Int) = _
    omega
  constructor
  · intro h
    have hsame := h.lastModified
    rw [hmodified] at hsame
    omega
  · intro h
    refine ⟨hplain.asText.1, rfl, ?_, rfl, ?_⟩
    · cases hdir : f.isDir <;> simp [parsed, hdir]
    · rw [hmodified]
      omega

/-- **The list of files comes back** exactly if every name has at most 260 units of UTF-16,
every time is less than 2^64 ns after the epoch, and there are less than 2^32 files. -/
theorem roundTrips_iff (files : List LocalFileInfo) (connId : Int)
    (hplain : ∀ f ∈ files, f.PlainName) (htime : ∀ f ∈ files, 0 ≤ f.lastWriteTime) :
    RoundTrips files connId ↔
      (∀ f ∈ files, f.NameFits ∧ f.lastWriteTime < 2 ^ 64) ∧ files.length < 2 ^ 32 := by
  rcases buildFileListPdu_cases files with ⟨hnames, hbuild⟩ | ⟨hnot, e, hbuild⟩
  · have hparse := parseFileDescriptors_listBytes hnames hplain connId
    constructor
    · rintro ⟨pdu, descs, hpdu, -, hdescs, hall⟩
      obtain rfl := Except.ok.inj (hbuild.symm.trans hpdu)
      rw [hparse] at hdescs
      by_cases hcount : files.length < 2 ^ 32
      · rw [if_pos hcount] at hdescs
        obtain rfl := Except.ok.inj (Except.ok.inj hdescs)
        rw [forall₂_map_right_iff, forall₂_same] at hall
        exact ⟨fun f hf => ⟨hnames f hf,
          (describes_parsed_iff (hplain f hf) (htime f hf)).mp (hall f hf)⟩, hcount⟩
      · rw [if_neg hcount] at hdescs
        cases Except.ok.inj hdescs
    · rintro ⟨hall, hcount⟩
      rw [if_pos hcount] at hparse
      refine ⟨_, _, hbuild, length_listBytes hnames, hparse, ?_⟩
      rw [forall₂_map_right_iff, forall₂_same]
      exact fun f hf => (describes_parsed_iff (hplain f hf) (htime f hf)).mpr (hall f hf).2
  · refine iff_of_false ?_ fun h => hnot fun f hf => (h.1 f hf).1
    rintro ⟨pdu, descs, hpdu, -⟩
    rw [hbuild] at hpdu
    cases hpdu

def below (path : Bytes) (isDir : Bool) (lastWriteTime : Int) : LocalFileInfo where
  relativeRoot := [OsPath.sep]
  path := OsPath.sep :: path
  name := Utf8.lossy path
  size := 5000000000
  lastWriteTime := lastWriteTime
  isDir := isDir
  perm := 0o100644
  readOnly := false
  hidden := false
  system := false
  archive := false
  normal := !isDir
  size_lt := by decide
  perm_lt := readable_lt

/-- `d`, and in it a file whose name is outside the basic plane. -/
def folder : List LocalFileInfo :=
  [below [0x64] true 1700000000123456789,
    below [0x64, 0x2F, 0xF0, 0x9F, 0x98, 0x80] false 1700000000987654321]

instance (f : LocalFileInfo) : Decidable f.NameFits := inferInstanceAs (Decidable (_ ≤ _))

/-- A folder with a file comes back. -/
theorem folder_roundTrips : RoundTrips folder 1 :=
  (roundTrips_iff folder 1
    (by
      refine forall_mem_cons.mpr ⟨⟨?_, ?_, ?_⟩, forall_mem_singleton.mpr ⟨?_, ?_, ?_⟩⟩
      all_goals decide +kernel)
    (by decide)).mpr (by decide +kernel)

def longPath : Text := List.replicate 130 'a' ++ '/' :: List.replicate 130 'a'

def longFile : LocalFileInfo := below (Utf8.bytes longPath) false 0

/-- **A path of 261 characters** traps: its names are short, the path is not. -/
theorem long_path_traps :
    longFile.PlainName ∧ 0 ≤ longFile.lastWriteTime ∧
      buildFileListPdu [longFile] = .error .overflow ∧ ¬RoundTrips [longFile] 1 := by
  have hrelative : longFile.relative = Utf8.bytes longPath := by decide +kernel
  have hlossy : Utf8.lossy longFile.relative = longPath := by rw [hrelative, Utf8.lossy_bytes]
  have hlong : ¬longFile.NameFits := by
    rw [NameFits, wideName, hlossy]
    decide +kernel
  have htrap : buildFileListPdu [longFile] = .error .overflow := by
    rw [buildFileListPdu, mapAll, asBin_trap hlong]
    rfl
  refine ⟨⟨?_, ?_, ?_⟩, by decide, htrap, ?_⟩
  · rw [hrelative]
    exact Utf8.valid_iff.mpr ⟨longPath, rfl⟩
  · rw [hrelative]
    decide +kernel
  · rw [hrelative]
    decide +kernel
  · rintro ⟨pdu, descs, hpdu, -⟩
    rw [htrap] at hpdu
    cases hpdu

end LocalFileInfo
end RustDesk
