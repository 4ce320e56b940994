import RustDesk.Config.CustomServer
import RustDesk.Portable.Package
import RustDesk.Server.Config

/-!
# Setting up the portable program

The files of the package are written below the target directory, after its old content was
removed if the time stamp of the package is another.  A file that is there is read and kept if its
MD5 is that of the package.  At the end the time stamp is written to `meta.toml`, and on Windows a
copy of a program of the system to `RuntimeBroker_rustdesk.exe`.

`Disk` is what is below the target directory, directories and files, and whether an operation
failed that the program relies on.  What is removed may be only a part.  A link that stays lets
two paths lead to one file, which `unpacks` excludes (`linkedFile_overwritten`).

* `unpacks`: **the package is read back, and setup leaves every file with its content**, whatever
  was there, unless the file has one of the two names that setup writes itself.
-/

namespace RustDesk.Portable

open List

/-- The names on the way to a file. -/
abbrev Place := List Text

inductive Node where
  | dir
  | file (content : Bytes)
  deriving DecidableEq

structure Disk where
  node : Place → Option Node
  failed : Bool

section

variable (windows : Bool)

def isSeparator (c : Char) : Bool := c = '/' || (windows && c = '\\')

/-- The names of a path; empty ones and `.` say nothing. -/
def steps (path : Text) : List Text :=
  (path.splitOnP (isSeparator windows)).filter fun step => step ≠ [] && step ≠ ['.']

def isRelative (path : Text) : Bool :=
  !(path.head?.any (isSeparator windows)) && (steps windows path).all (· ≠ ['.', '.']) &&
    !(windows && path.contains ':')

/-- Where a path leads below a directory; `fold` is how the file system compares names, and what
a name stands for that is a link. -/
def place (fold : Text → Text) (path : Text) : Place := (steps windows path).map fold

end

namespace Disk

def fail (d : Disk) : Disk := { d with failed := true }

def fileAt (d : Disk) (p : Place) : Option Bytes :=
  match d.node p with
  | some (.file content) => some content
  | _ => none

/-- `Path::exists`. -/
def pathExists (d : Disk) (p : Place) : Bool := (d.node p).isSome

def createDirAll (d : Disk) (p : Place) : Disk :=
  if p.inits.any fun q => (d.fileAt q).isSome then d.fail
  else { d with node := fun q => if q <+: p ∧ d.node q = none then some .dir else d.node q }

def withParent (d : Disk) (p : Place) : Disk :=
  if d.pathExists p.dropLast then d else d.createDirAll p.dropLast

/-- `fs::read`; what cannot be read is empty. -/
def read (d : Disk) (p : Place) : Bytes × Disk :=
  match d.fileAt p with
  | some content => (content, d)
  | none => ([], d.fail)

def write (d : Disk) (p : Place) (content : Bytes) : Disk :=
  if d.node p.dropLast = some .dir ∧ d.node p ≠ some .dir then
    { d with node := Function.update d.node p (some (.file content)) }
  else d.fail

/-- `fs::remove_dir_all`, which takes away what it can. -/
def removeDirAll (d : Disk) (removed : Place → Bool) : Disk :=
  { d with node := fun p => if removed p then none else d.node p }

end Disk

def lines (t : Text) : List Text :=
  let parts := t.splitOn '\n'
  let last := parts.getLastD []
  (parts.dropLast.map fun part => if part.getLast? = some '\r' then part.dropLast else part) ++
    if last = [] then [] else [last]

/-- `META_LINE_PREFIX_TIMESTAMP`. -/
def timestampPrefix : Text := "timestamp = ".toList

def timestampOf (t : Text) : Option Nat :=
  (lines t).findSome? fun line =>
    if timestampPrefix.isPrefixOf line then
      parseU64 (FileNameServer.replace timestampPrefix [] line)
    else none

def appMetadataConfig : Text := "meta.toml".toList

def runtimeBrokerName : Text := "RuntimeBroker_rustdesk.exe".toList

def packageTimestamp (appMetadata : Bytes) : Nat :=
  if Utf8.valid appMetadata then (timestampOf (Utf8.lossy appMetadata)).getD 0 else 0

def Disk.readToString (d : Disk) (p : Place) : Option Text :=
  (d.fileAt p).bind fun content =>
    if Utf8.valid content then some (Utf8.lossy content) else none

/-- What setup is given: how the system compares names, the libraries, the metadata of the program
and a program of the system. -/
structure Platform where
  windows : Bool
  fold : Text → Text
  md5 : Bytes → Digest
  decompress : Bytes → Bytes
  appMetadata : Bytes
  runtimeBroker : Option Bytes

namespace Platform

variable (os : Platform)

def placeOf (path : Text) : Place := place os.windows os.fold path

/-- `is_timestamp_matches`, and the time stamp that it sets. -/
def isTimestampMatches (d : Disk) : Bool × Nat :=
  let ts := packageTimestamp os.appMetadata
  if ts = 0 then (true, ts)
  else
    match (d.readToString (os.placeOf appMetadataConfig)).bind timestampOf with
    | some stored => (ts = stored, ts)
    | none => (false, ts)

/-- The part of `write_to_file` on a file that is there: it is kept if its MD5 is the same. -/
def rewrite (d : Disk) (file : BinaryData) : Disk :=
  let p := os.placeOf file.path
  let digest := (os.md5 (d.read p).1).hex
  let md5Record := Utf8.lossy file.md5Code
  if digest = md5Record then (d.read p).2 else (d.read p).2.write p (os.decompress file.raw)

def writeToFile (d : Disk) (file : BinaryData) : Disk :=
  let p := os.placeOf file.path
  if (d.withParent p).pathExists p then os.rewrite (d.withParent p) file
  else (d.withParent p).write p (os.decompress file.raw)

def writeMeta (d : Disk) (ts : Nat) : Disk :=
  if ts ≠ 0 then
    { d.write (os.placeOf appMetadataConfig)
        (Utf8.bytes (timestampPrefix ++ Nat.toDigits 10 ts)) with failed := d.failed }
  else d

def copyRuntimeBroker (d : Disk) : Disk :=
  match os.runtimeBroker with
  | some src =>
    let tgt := os.placeOf runtimeBrokerName
    if (d.fileAt tgt).any fun f => os.md5 src = os.md5 f then d
    else { d.write tgt src with failed := d.failed }
  | none => d

/-- Whether the old content stays, and the time stamp: `clear` leaves it at zero. -/
def check (clear : Bool) (d : Disk) : Bool × Nat :=
  if clear then (false, 0) else os.isTimestampMatches d

def setup (files : List BinaryData) (exe : Text) (clear : Bool) (removed : Place → Bool)
    (d : Disk) : Disk × Place :=
  let ts := (os.check clear d).2
  let d := if (os.check clear d).1 then d else d.removeDirAll removed
  let d := os.writeMeta (files.foldl os.writeToFile d) ts
  (if os.windows then os.copyRuntimeBroker d else d, os.placeOf exe)

end Platform

namespace Disk

variable {d : Disk} {p q : Place} {content : Bytes}

theorem fileAt_createDirAll : (d.createDirAll p).fileAt q = d.fileAt q := by
  rw [createDirAll]
  split
  next => rfl
  next =>
    by_cases hq : q <+: p ∧ d.node q = none
    · simp [fileAt, hq]
    · simp only [fileAt, if_neg hq]

theorem failed_createDirAll (h : (d.createDirAll p).failed = false) : d.failed = false := by
  rw [createDirAll] at h
  split at h
  next => cases h
  next => exact h

theorem fileAt_withParent : (d.withParent p).fileAt q = d.fileAt q := by
  rw [withParent]
  split
  next => rfl
  next => exact fileAt_createDirAll

theorem failed_withParent (h : (d.withParent p).failed = false) : d.failed = false := by
  rw [withParent] at h
  split at h
  next => exact h
  next => exact failed_createDirAll h

theorem fileAt_write_of_ne (hq : q ≠ p) : (d.write p content).fileAt q = d.fileAt q := by
  rw [write]
  split
  next => simp only [fileAt, Function.update_of_ne hq]
  next => rfl

theorem write_succeeds (h : (d.write p content).failed = false) :
    d.failed = false ∧ (d.write p content).fileAt p = some content := by
  rw [write] at h ⊢
  split at h
  next hdir =>
    rw [if_pos hdir]
    refine ⟨h, ?_⟩
    simp only [fileAt, Function.update_self]
  next => cases h

theorem fileAt_read : (d.read p).2.fileAt q = d.fileAt q := by
  rw [read]
  split <;> rfl

theorem read_succeeds (h : (d.read p).2.failed = false) :
    d.failed = false ∧ d.fileAt p = some (d.read p).1 := by
  rw [read] at h ⊢
  split at h
  next heq => exact ⟨h, heq⟩
  next => cases h

theorem fileAt_removeDirAll {removed : Place → Bool}
    (h : (d.removeDirAll removed).fileAt p = some content) : d.fileAt p = some content := by
  by_cases hp : removed p = true
  · simp [removeDirAll, fileAt, hp] at h
  · simpa [removeDirAll, fileAt, hp] using h

end Disk

namespace Platform

variable {os : Platform} {d : Disk} {file : BinaryData}

def Content (os : Platform) (file : BinaryData) (d : Disk) (c : Bytes) : Prop :=
  c = os.decompress file.raw ∨ d.fileAt (os.placeOf file.path) = some c ∧
    (os.md5 c).hex = Utf8.lossy file.md5Code

structure Written (os : Platform) (file : BinaryData) (d d' : Disk) : Prop where
  before : d.failed = false
  content : ∃ c, d'.fileAt (os.placeOf file.path) = some c ∧ os.Content file d c
  kept : ∀ q, q ≠ os.placeOf file.path → d'.fileAt q = d.fileAt q

theorem written_write {d₁ : Disk} (hfiles : ∀ q, d₁.fileAt q = d.fileAt q)
    (hfailed : d₁.failed = false → d.failed = false)
    (h : (d₁.write (os.placeOf file.path) (os.decompress file.raw)).failed = false) :
    os.Written file d (d₁.write (os.placeOf file.path) (os.decompress file.raw)) := by
  obtain ⟨hbefore, hcontent⟩ := Disk.write_succeeds h
  refine ⟨hfailed hbefore, ⟨_, hcontent, .inl rfl⟩, fun q hq => ?_⟩
  rw [Disk.fileAt_write_of_ne hq, hfiles]

theorem written_rewrite {d₁ : Disk} (hfiles : ∀ q, d₁.fileAt q = d.fileAt q)
    (hfailed : d₁.failed = false → d.failed = false) (h : (os.rewrite d₁ file).failed = false) :
    os.Written file d (os.rewrite d₁ file) := by
  unfold rewrite at h ⊢
  by_cases hsame : (os.md5 (d₁.read (os.placeOf file.path)).1).hex = Utf8.lossy file.md5Code
  · simp only [if_pos hsame] at h ⊢
    obtain ⟨hbefore, hread⟩ := Disk.read_succeeds h
    refine ⟨hfailed hbefore, ⟨_, Disk.fileAt_read.trans hread, .inr ⟨?_, hsame⟩⟩, fun q _ => ?_⟩
    · exact (hfiles _).symm.trans hread
    · exact Disk.fileAt_read.trans (hfiles q)
  · simp only [if_neg hsame] at h ⊢
    exact written_write (fun q => Disk.fileAt_read.trans (hfiles q))
      (fun hread => hfailed (Disk.read_succeeds hread).1) h

theorem writeToFile_spec (h : (os.writeToFile d file).failed = false) :
    os.Written file d (os.writeToFile d file) := by
  unfold writeToFile at h ⊢
  by_cases hexists : (d.withParent (os.placeOf file.path)).pathExists (os.placeOf file.path) = true
  · simp only [if_pos hexists] at h ⊢
    exact written_rewrite (fun _ => Disk.fileAt_withParent) Disk.failed_withParent h
  · simp only [if_neg hexists] at h ⊢
    exact written_write (fun _ => Disk.fileAt_withParent) Disk.failed_withParent h

theorem foldl_writeToFile {files : List BinaryData}
    (hplaces : (files.map fun file => os.placeOf file.path).Nodup)
    (h : (files.foldl os.writeToFile d).failed = false) :
    d.failed = false ∧
      (∀ file ∈ files, ∃ c, (files.foldl os.writeToFile d).fileAt (os.placeOf file.path) = some c ∧
        os.Content file d c) ∧
      ∀ q, (∀ file ∈ files, q ≠ os.placeOf file.path) →
        (files.foldl os.writeToFile d).fileAt q = d.fileAt q := by
  induction files generalizing d with
  | nil => exact ⟨h, fun file hfile => absurd hfile not_mem_nil, fun _ _ => rfl⟩
  | cons first files ih =>
    rw [map_cons, nodup_cons] at hplaces
    rw [foldl_cons] at h ⊢
    obtain ⟨hmid, hcontents, hkept⟩ := ih hplaces.2 h
    obtain ⟨hbefore, ⟨c, hc, hcontent⟩, hothers⟩ := writeToFile_spec hmid
    have hfirst : ∀ file ∈ files, os.placeOf first.path ≠ os.placeOf file.path :=
      fun file hfile heq => hplaces.1 (mem_map.mpr ⟨file, hfile, heq.symm⟩)
    refine ⟨hbefore, ?_, ?_⟩
    · intro file hfile
      rcases mem_cons.mp hfile with rfl | hfile
      · exact ⟨c, (hkept _ hfirst).trans hc, hcontent⟩
      · obtain ⟨c', hc', hcontent'⟩ := hcontents file hfile
        refine ⟨c', hc', hcontent'.imp_right fun hthere => ⟨?_, hthere.2⟩⟩
        rw [← hothers _ (hfirst file hfile).symm]
        exact hthere.1
    · intro q hq
      have hrest := hkept q fun file hfile => hq file (mem_cons_of_mem _ hfile)
      exact hrest.trans (hothers q (hq first mem_cons_self))

theorem fileAt_setup {files : List BinaryData} {exe : Text} {clear : Bool}
    {removed : Place → Bool} {q : Place}
    (hmeta : (os.check clear d).2 = 0 ∨ q ≠ os.placeOf appMetadataConfig)
    (hbroker : os.windows = true → q ≠ os.placeOf runtimeBrokerName) :
    (os.setup files exe clear removed d).1.fileAt q = (files.foldl os.writeToFile
      (if (os.check clear d).1 then d else d.removeDirAll removed)).fileAt q := by
  have hmetaStep : ∀ d₁ : Disk, (os.writeMeta d₁ (os.check clear d).2).fileAt q = d₁.fileAt q := by
    intro d₁
    rw [writeMeta]
    split
    next hts => exact Disk.fileAt_write_of_ne (hmeta.resolve_left hts)
    next => rfl
  have hbrokerStep : ∀ d₁ : Disk, (if os.windows then os.copyRuntimeBroker d₁ else d₁).fileAt q =
      d₁.fileAt q := by
    intro d₁
    split
    next hwindows =>
      rw [copyRuntimeBroker]
      split
      next =>
        simp only
        split
        next => rfl
        next => exact Disk.fileAt_write_of_ne (hbroker hwindows)
      next => rfl
    next => rfl
  rw [setup]
  exact (hbrokerStep _).trans (hmetaStep _)

theorem failed_setup {files : List BinaryData} {exe : Text} {clear : Bool}
    {removed : Place → Bool} : (os.setup files exe clear removed d).1.failed = (files.foldl
      os.writeToFile (if (os.check clear d).1 then d else d.removeDirAll removed)).failed := by
  have hmetaStep : ∀ d₁ : Disk, (os.writeMeta d₁ (os.check clear d).2).failed = d₁.failed := by
    intro d₁
    rw [writeMeta]
    split <;> rfl
  have hbrokerStep : ∀ d₁ : Disk, (if os.windows then os.copyRuntimeBroker d₁ else d₁).failed =
      d₁.failed := by
    intro d₁
    split
    next =>
      rw [copyRuntimeBroker]
      split
      next =>
        simp only
        split <;> rfl
      next => rfl
    next => rfl
  rw [setup]
  exact (hbrokerStep _).trans (hmetaStep _)

end Platform

/-- A file to be packed.  The path is relative: `Path::join` of another would leave the directory,
and `place` says nothing of it. -/
structure SourceFile (windows : Bool) where
  path : Text
  content : Bytes
  relative : isRelative windows path = true
  short : (Utf8.bytes path).length < 2 ^ 30

namespace Platform

variable (os : Platform)

def package (compress : Bytes → Bytes) (files : List (SourceFile os.windows)) (exe : Text) :
    Option Bytes :=
  writePackageMetadata
    (generateMd5Table compress os.md5 (files.map fun file => (file.path, file.content))) exe

def expected (compress : Bytes → Bytes) (file : SourceFile os.windows) : BinaryData where
  md5Code := Utf8.bytes (os.md5 file.content).hex
  raw := compress file.content
  path := file.path

/-- What the libraries and the paths have to be like: the data is decompressed again, the paths
lead to different files, and what is there with the MD5 of a file has its content. -/
structure Sound (compress : Bytes → Bytes) (files : List (SourceFile os.windows)) (d : Disk) :
    Prop where
  decompress : ∀ file ∈ files, os.decompress (compress file.content) = file.content
  distinct : (files.map fun file => os.placeOf file.path).Nodup
  md5 : ∀ file ∈ files, ∀ c, d.fileAt (os.placeOf file.path) = some c →
    os.md5 c = os.md5 file.content → c = file.content

/-- No file has a name that setup writes itself. -/
structure NotOwn (files : List (SourceFile os.windows)) (ts : Nat) : Prop where
  appMetadataConfig : ts = 0 ∨ ∀ file ∈ files, os.placeOf file.path ≠ os.placeOf appMetadataConfig
  runtimeBroker : os.windows = true →
    ∀ file ∈ files, os.placeOf file.path ≠ os.placeOf runtimeBrokerName

variable {os} {compress : Bytes → Bytes} {files : List (SourceFile os.windows)} {d : Disk}

theorem setup_contents (hsound : os.Sound compress files d) {exe : Text} {clear : Bool}
    {removed : Place → Bool} (hown : os.NotOwn files (os.check clear d).2)
    (h : (os.setup (files.map (os.expected compress)) exe clear removed d).1.failed = false) :
    ∀ file ∈ files, (os.setup (files.map (os.expected compress)) exe clear removed d).1.fileAt
      (os.placeOf file.path) = some file.content := by
  intro file hfile
  rw [failed_setup] at h
  have hplaces : ((files.map (os.expected compress)).map fun f => os.placeOf f.path).Nodup := by
    rw [map_map]
    exact hsound.distinct
  obtain ⟨-, hcontents, -⟩ := foldl_writeToFile hplaces h
  obtain ⟨c, hc, hcontent⟩ := hcontents _ (mem_map_of_mem hfile)
  rw [fileAt_setup (hown.appMetadataConfig.imp_right fun hne => hne file hfile)
    fun hwindows => hown.runtimeBroker hwindows file hfile]
  refine hc.trans (congrArg some ?_)
  rcases hcontent with rfl | ⟨hthere, hhex⟩
  · exact hsound.decompress file hfile
  · have hold : d.fileAt (os.placeOf file.path) = some c := by
      split at hthere
      · exact hthere
      · exact Disk.fileAt_removeDirAll hthere
    have hmd5 : (os.md5 c).hex = (os.md5 file.content).hex := hhex.trans (Utf8.lossy_bytes _)
    exact hsound.md5 file hfile c hold (hex_injective hmd5)

theorem read_package (exe : Text)
    (hsize : ∀ file ∈ files, (compress file.content).length < 2 ^ 32) :
    ∃ data, os.package compress files exe = some data ∧
      read data = some (files.map (os.expected compress), exe) := by
  have hfits : ∀ row ∈ generateMd5Table compress os.md5
      (files.map fun file => (file.path, file.content)), row.Fits := by
    intro row hrow
    rw [generateMd5Table, map_map] at hrow
    obtain ⟨file, hfile, rfl⟩ := mem_map.mp hrow
    exact ⟨file.short, hsize file hfile, length_hex _⟩
  obtain ⟨data, hwrite, hread⟩ := read_writePackageMetadata hfits exe
  refine ⟨data, hwrite, hread.trans ?_⟩
  rw [generateMd5Table, map_map, map_map]
  rfl

def emptyDisk : Disk := ⟨fun _ => none, false⟩

def firstBytes (content : Bytes) : Digest where
  octets := (content ++ List.replicate 16 0).take 16
  size := by
    rw [length_take, length_append, length_replicate]
    omega

def plainWindows : Platform where
  windows := true
  fold := id
  md5 := firstBytes
  decompress := id
  appMetadata := Utf8.bytes "timestamp = 1".toList
  runtimeBroker := none

def plainFile : SourceFile plainWindows.windows where
  path := ['a', '/', 'b']
  content := [1]
  relative := by decide
  short := by decide

def metaFile : SourceFile plainWindows.windows where
  path := appMetadataConfig
  content := [1]
  relative := by decide
  short := by decide

theorem packageTimestamp_bytes (t : Text) :
    packageTimestamp (Utf8.bytes t) = (timestampOf t).getD 0 := by
  rw [packageTimestamp, if_pos (Utf8.valid_iff.mpr ⟨t, rfl⟩), Utf8.lossy_bytes]

/-- A file named `meta.toml` is overwritten with the time stamp. -/
theorem metaFile_overwritten :
    plainWindows.Sound id [metaFile] emptyDisk ∧
      (plainWindows.setup [plainWindows.expected id metaFile] [] false (fun _ => true)
        emptyDisk).1.failed = false ∧
      (plainWindows.setup [plainWindows.expected id metaFile] [] false (fun _ => true)
        emptyDisk).1.fileAt (plainWindows.placeOf metaFile.path) ≠ some metaFile.content := by
  have hcheck : plainWindows.check false emptyDisk = (false, 1) := by
    have hts : packageTimestamp plainWindows.appMetadata = 1 := by
      rw [plainWindows, packageTimestamp_bytes]
      decide +kernel
    simp only [check, isTimestampMatches, hts]
    rfl
  refine ⟨⟨fun _ _ => rfl, nodup_singleton _, fun _ _ _ h => ?_⟩, ?_, ?_⟩
  · exact absurd h.symm (Option.some_ne_none _)
  · rw [failed_setup, hcheck]
    decide +kernel
  · rw [setup, hcheck]
    decide +kernel

/-- **The package unpacks to what was packed**: it is read back, and setup leaves every file with
its content whatever was there, if no file has a name that setup writes itself and no operation
fails. -/
theorem unpacks (os : Platform) (compress : Bytes → Bytes) (files : List (SourceFile os.windows))
    (exe : Text) (hsize : ∀ file ∈ files, (compress file.content).length < 2 ^ 32) :
    ∃ data, os.package compress files exe = some data ∧
      read data = some (files.map (os.expected compress), exe) ∧
      ∀ (clear : Bool) (removed : Place → Bool) (d : Disk), os.Sound compress files d →
        os.NotOwn files (os.check clear d).2 →
        (os.setup (files.map (os.expected compress)) exe clear removed d).1.failed = false →
        ∀ file ∈ files, (os.setup (files.map (os.expected compress)) exe clear removed d).1.fileAt
          (os.placeOf file.path) = some file.content := by
  obtain ⟨data, hwrite, hread⟩ := read_package exe hsize
  exact ⟨data, hwrite, hread, fun _ _ _ hsound hown h => setup_contents hsound hown h⟩

def newFile : SourceFile plainWindows.windows where
  path := ['c']
  content := [2]
  relative := by decide
  short := by decide

/-- Left by an earlier version: `a/b` as it is packed, and another `c`. -/
def leftover : Disk where
  node p :=
    if p = [['a'], ['b']] then some (.file [1])
    else if p = [['c']] then some (.file [3])
    else if p <+: [['a']] then some .dir
    else none
  failed := false

/-- Clearing takes nothing away; the one file is kept, the other is written again. -/
theorem leftover_unpacks :
    leftover.fileAt (plainWindows.placeOf newFile.path) = some [3] ∧
    ∃ data, plainWindows.package id [plainFile, newFile] ['e'] = some data ∧
      ∀ file ∈ [plainFile, newFile],
        (plainWindows.setup ([plainFile, newFile].map (plainWindows.expected id)) ['e'] true
          (fun _ => false) leftover).1.fileAt (plainWindows.placeOf file.path) =
            some file.content := by
  obtain ⟨data, hwrite, -, hsetup⟩ := unpacks plainWindows id [plainFile, newFile] ['e'] (by decide)
  refine ⟨by decide +kernel, data, hwrite, hsetup true (fun _ => false) leftover ?_ ?_ ?_⟩
  · refine ⟨fun _ _ => rfl, by decide, forall_mem_cons.mpr ⟨fun c hc _ => ?_,
      forall_mem_singleton.mpr fun c hc hmd5 => ?_⟩⟩
    · exact (Option.some.inj hc).symm
    · cases hc
      cases hmd5
  · exact ⟨.inl rfl, fun _ => by decide +kernel⟩
  · decide +kernel

/-- What is left has a link from `b` to `a`. -/
def linking : Platform :=
  { plainWindows with windows := false, fold := fun name => if name = ['b'] then ['a'] else name }

def linkedFiles : List (SourceFile linking.windows) :=
  [⟨['a'], [1], by decide, by decide⟩, ⟨['b'], [2], by decide, by decide⟩]

/-- Through the link, the second file is written over the first. -/
theorem linkedFile_overwritten :
    (linking.setup (linkedFiles.map (linking.expected id)) [] true (fun _ => false)
      emptyDisk).1.failed = false ∧
    (linking.setup (linkedFiles.map (linking.expected id)) [] true (fun _ => false)
      emptyDisk).1.fileAt (linking.placeOf ['a']) = some [2] := by
  decide +kernel

end Platform
end RustDesk.Portable
