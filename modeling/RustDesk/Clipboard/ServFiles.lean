import RustDesk.Clipboard.FuseRead
import RustDesk.Clipboard.LocalFileInfo

/-!
# Malformed messages about files

`read_file_contents` and `serve_file_contents` with every sum and difference as it may trap,
for any list of files and any numbers in the request.  What is read from the disk is a
parameter: it fails, or it fills the buffer.

The position and the length are numbers of 64 bits with the sign of 32 bits extended into
them, and their sum is taken before it is compared with the size.  `harmless_iff` says when
this traps, together with the list of files that a peer sends.
-/

namespace RustDesk

open CheckedArith MachineInt UnixPath

structure FileReads where
  isFile : Bytes → Bool
  openFails : Bytes → Option String
  /-- `read_exact`, behind a seek if there is one. -/
  readExact : Bytes → Option Nat → (n : Nat) → Except String { v : Bytes // v.length = n }

structure ServedFile extends LocalFileInfo where
  handle : Bool
  offset : Nat

/-- `CliprdrError`, as far as files are served. -/
inductive ServeError where
  | invalidRequest (description : String)
  | fileError (path : Text) (err : String)

/-- `ClipboardFile`, as far as files are served. -/
inductive ServedContents where
  | fileContentsResponse (msgFlags streamId : Int) (requestedData : Bytes)
  | files (files : List (Text × Nat))

/-- `ClipFiles`, as far as files are served. -/
structure ClipFileList where
  fileList : List ServedFile
  firstFileIndex : Nat

namespace ServedFile

def failed (f : ServedFile) (err : String) : ServeError := .fileError (Utf8.lossy f.path) err

def loadHandle (disk : FileReads) (f : ServedFile) : Except ServeError ServedFile :=
  if f.isDir = false ∧ f.handle = false then
    match disk.openFails f.path with
    | some err => .error (f.failed err)
    | none => .ok { f with handle := true }
  else .ok f

/-- `read_exact_at`, into a buffer of so many bytes. -/
def readExactAt (disk : FileReads) (f : ServedFile) (n offset : Nat) :
    Except Trap (ServedFile × Except ServeError Bytes) :=
  match f.loadHandle disk with
  | .error e => return (f, .error e)
  | .ok f =>
    if f.handle = false then return (f, .error (f.failed "file handle not found"))
    else
      match disk.readExact f.path (if offset ≠ f.offset then some offset else none) n with
      | .error err => return ({ f with handle := false, offset := 0 }, .error (f.failed err))
      | .ok buf => do
          let newOffset ← add 64 offset buf.1.length
          if f.size ≤ newOffset then return ({ f with handle := false, offset := 0 }, .ok buf.1)
          else return ({ f with offset := newOffset }, .ok buf.1)

def readSize (f : ServedFile) (offset length : Nat) : Except Trap Nat := do
  let fin ← add 64 offset length
  if f.size < fin then sub f.size offset else return length

end ServedFile

namespace ClipFileList

def getFilesForAudit (disk : FileReads) (clip : ClipFileList) :
    ContentsRequest → Option ServedContents
  | .size _ => none
  | .range fileIdx offset _ =>
    if asU64 fileIdx = clip.firstFileIndex ∧ offset = 0 then
      let files := clip.fileList.filterMap fun f =>
        if disk.isFile f.path then some (Utf8.lossy f.path, f.size) else none
      if files = [] then none else some (.files files)
    else none

def loadFirst (disk : FileReads) : List ServedFile → Except ServeError (List ServedFile)
  | [] => .ok []
  | f :: rest =>
    if f.isDir then (loadFirst disk rest).map (f :: ·)
    else (f.loadHandle disk).map (· :: rest)

/-- The end of `serve_file_contents`: "hot reload next file". -/
def finish (disk : FileReads) (clip : ClipFileList) (fileIdx : Nat) (resp : ServedContents) :
    Except Trap (ClipFileList × Except ServeError ServedContents) := do
  let next ← add 64 fileIdx 1
  match loadFirst disk (clip.fileList.drop next) with
  | .error e => return (clip, .error e)
  | .ok rest => return ({ clip with fileList := clip.fileList.take next ++ rest }, .ok resp)

def invalidIndex (fileIdx : Nat) (connId : Int) : ServeError :=
  .invalidRequest s!"invalid file index {fileIdx} requested from conn: {connId}"

def serveFileContents (disk : FileReads) (clip : ClipFileList) (connId streamId : Int) :
    ContentsRequest → Except Trap (ClipFileList × Except ServeError ServedContents)
  | .size fileIdx =>
    match clip.fileList[asU64 fileIdx]? with
    | none => return (clip, .error (invalidIndex (asU64 fileIdx) connId))
    | some f =>
      finish disk clip (asU64 fileIdx)
        (.fileContentsResponse 1 streamId (LittleEndian.leBytes f.size 8))
  | .range fileIdx offset length =>
    match clip.fileList[asU64 fileIdx]? with
    | none => return (clip, .error (invalidIndex (asU64 fileIdx) connId))
    | some f =>
      if f.size < offset then
        return (clip, .error (.invalidRequest
          s!"invalid reading offset requested from conn: {connId}"))
      else do
        let readSize ← f.readSize offset length
        let (f, data) ← f.readExactAt disk readSize offset
        let clip := { clip with fileList := clip.fileList.set (asU64 fileIdx) f }
        match data with
        | .error e => return (clip, .error e)
        | .ok data =>
          finish disk clip (asU64 fileIdx) (.fileContentsResponse 1 streamId data)

def readFileContents (disk : FileReads) (clip : ClipFileList) (r : FileContentsRequest) :
    Except Trap (ClipFileList × List (Except ServeError ServedContents)) :=
  match ClipFiles.decodeRequest r with
  | none =>
    let dwFlags := r.dwFlags
    return (clip, [.error (.invalidRequest
      s!"got invalid FileContentsRequest, dw_flats: {dwFlags}")])
  | some request => do
      let audit := clip.getFilesForAudit disk request
      let (clip, res) ← clip.serveFileContents disk r.connId r.streamId request
      return (clip, (audit.map .ok).toList ++ [res])

end ClipFileList

namespace ServedFile

variable {disk : FileReads} {f : ServedFile} {n offset length : Nat}

theorem loadHandle_same {g : ServedFile} (h : f.loadHandle disk = .ok g) :
    g.toLocalFileInfo = f.toLocalFileInfo := by
  unfold loadHandle at h
  split at h
  · split at h
    · cases h
    · cases h
      rfl
  · cases h
    rfl

theorem readExactAt_ok (disk : FileReads) (h : offset + n ≤ f.size) :
    ∃ g data, f.readExactAt disk n offset = .ok (g, data) ∧
      ∀ buf, data = .ok buf → buf.length = n := by
  unfold readExactAt
  cases hload : f.loadHandle disk with
  | error e => exact ⟨_, _, rfl, nofun⟩
  | ok g =>
    have hsize : g.size < 2 ^ 64 := g.size_lt
    have hsame : g.size = f.size := congrArg LocalFileInfo.size (loadHandle_same hload)
    dsimp only
    by_cases hopen : g.handle = false
    · rw [if_pos hopen]
      exact ⟨_, _, rfl, nofun⟩
    · rw [if_neg hopen]
      cases disk.readExact g.path (if offset ≠ g.offset then some offset else none) n with
      | error err => exact ⟨_, _, rfl, nofun⟩
      | ok buf =>
        have hbuf := buf.2
        dsimp only
        rw [add_ok (by omega), ok_bind]
        have hlength : ∀ v, (Except.ok buf.1 : Except ServeError Bytes) = .ok v → v.length = n := by
          intro v hv
          rw [← Except.ok.inj hv, hbuf]
        by_cases hend : g.size ≤ offset + buf.1.length
        · rw [if_pos hend]
          exact ⟨_, _, rfl, hlength⟩
        · rw [if_neg hend]
          exact ⟨_, _, rfl, hlength⟩

theorem readSize_ok (hoffset : offset ≤ f.size) (h : offset + length < 2 ^ 64) :
    f.readSize offset length = .ok (min length (f.size - offset)) := by
  rw [readSize, add_ok h, ok_bind]
  by_cases hend : f.size < offset + length
  · rw [if_pos hend, sub_ok hoffset, Nat.min_eq_right (by omega)]
  · rw [if_neg hend, Nat.min_eq_left (by omega)]
    rfl

theorem readSize_trap (h : ¬offset + length < 2 ^ 64) :
    f.readSize offset length = .error .overflow := by
  rw [readSize, add_trap h]
  rfl

end ServedFile

namespace ClipFileList

variable {disk : FileReads} {clip : ClipFileList} {connId streamId idx : Int} {offset length : Nat}
  {r : FileContentsRequest}

theorem finish_ok (disk : FileReads) (clip : ClipFileList) {fileIdx : Nat} (resp : ServedContents)
    (h : fileIdx + 1 < 2 ^ 64) :
    ∃ out, finish disk clip fileIdx resp = .ok out ∧ ∀ answer, out.2 = .ok answer →
      answer = resp := by
  rw [finish, add_ok h, ok_bind]
  cases loadFirst disk (clip.fileList.drop (fileIdx + 1)) with
  | error e => exact ⟨_, rfl, nofun⟩
  | ok rest => exact ⟨_, rfl, fun answer hanswer => (Except.ok.inj hanswer).symm⟩

/-- The sum of the position and the length is no number of 64 bits, and it is taken: the
position is in a file of the list. -/
def RangeOverflows (clip : ClipFileList) (r : FileContentsRequest) : Prop :=
  ∃ idx offset length, ClipFiles.decodeRequest r = some (.range idx offset length) ∧
    ∃ f, clip.fileList[asU64 idx]? = some f ∧ offset ≤ f.size ∧ 2 ^ 64 ≤ offset + length

/-- What is served of a range is within the file. -/
def Within (clip : ClipFileList) (r : FileContentsRequest)
    (answers : List (Except ServeError ServedContents)) : Prop :=
  ∀ idx offset length, ClipFiles.decodeRequest r = some (.range idx offset length) →
    ∀ msgFlags streamId data, .ok (.fileContentsResponse msgFlags streamId data) ∈ answers →
      ∃ f, clip.fileList[asU64 idx]? = some f ∧ offset ≤ f.size ∧ data.length ≤ f.size - offset

theorem index_lt (hlist : clip.fileList.length < 2 ^ 63) {f : ServedFile} {k : Nat}
    (h : clip.fileList[k]? = some f) : k + 1 < 2 ^ 64 := by
  have hk := (List.getElem?_eq_some_iff.mp h).1
  omega

theorem serveFileContents_size (disk : FileReads) (connId streamId idx : Int)
    (hlist : clip.fileList.length < 2 ^ 63) :
    ∃ out, clip.serveFileContents disk connId streamId (.size idx) = .ok out := by
  unfold serveFileContents
  dsimp only
  cases hfile : clip.fileList[asU64 idx]? with
  | none => exact ⟨_, rfl⟩
  | some f =>
    obtain ⟨out, hout, -⟩ := finish_ok disk clip
      (.fileContentsResponse 1 streamId (LittleEndian.leBytes f.size 8)) (index_lt hlist hfile)
    exact ⟨out, hout⟩

theorem serveFileContents_range (disk : FileReads) (connId streamId idx : Int)
    (hlist : clip.fileList.length < 2 ^ 63)
    (hfits : ∀ f, clip.fileList[asU64 idx]? = some f → offset ≤ f.size → offset + length < 2 ^ 64) :
    ∃ out, clip.serveFileContents disk connId streamId (.range idx offset length) = .ok out ∧
      ∀ msgFlags stream data, out.2 = .ok (.fileContentsResponse msgFlags stream data) →
        ∃ f, clip.fileList[asU64 idx]? = some f ∧ offset ≤ f.size ∧
          data.length ≤ f.size - offset := by
  unfold serveFileContents
  dsimp only
  cases hfile : clip.fileList[asU64 idx]? with
  | none => exact ⟨_, rfl, fun _ _ _ h => by cases h⟩
  | some f =>
    dsimp only
    by_cases hoffset : f.size < offset
    · rw [if_pos hoffset]
      exact ⟨_, rfl, fun _ _ _ h => by cases h⟩
    · have hin : offset ≤ f.size := Nat.le_of_not_lt hoffset
      have hwithin : offset + min length (f.size - offset) ≤ f.size := by omega
      obtain ⟨g, data, hread, hlength⟩ := ServedFile.readExactAt_ok disk hwithin
      rw [if_neg hoffset, ServedFile.readSize_ok hin (hfits f hfile hin), ok_bind, hread, ok_bind]
      dsimp only
      cases data with
      | error e => exact ⟨_, rfl, fun _ _ _ h => by cases h⟩
      | ok buf =>
        obtain ⟨out, hout, hanswer⟩ := finish_ok disk
          { clip with fileList := clip.fileList.set (asU64 idx) g }
          (.fileContentsResponse 1 streamId buf) (index_lt hlist hfile)
        refine ⟨out, hout, fun msgFlags stream data hdata => ⟨f, rfl, hin, ?_⟩⟩
        have hsame := hanswer _ hdata
        injection hsame with _ _ hbuf
        rw [hbuf, hlength buf rfl]
        exact Nat.min_le_right ..

theorem serveFileContents_trap {f : ServedFile} (hfile : clip.fileList[asU64 idx]? = some f)
    (hoffset : offset ≤ f.size) (h : 2 ^ 64 ≤ offset + length) :
    clip.serveFileContents disk connId streamId (.range idx offset length) = .error .overflow := by
  unfold serveFileContents
  dsimp only
  rw [hfile]
  dsimp only
  rw [if_neg (by omega), ServedFile.readSize_trap (by omega)]
  rfl

variable {request : ContentsRequest}

theorem getFilesForAudit_files {x : ServedContents}
    (h : clip.getFilesForAudit disk request = some x) : ∃ files, x = .files files := by
  unfold getFilesForAudit at h
  cases request with
  | size => cases h
  | range idx offset length =>
    dsimp only at h
    split_ifs at h
    exact ⟨_, (Option.some.inj h).symm⟩

theorem readFileContents_eq (h : ClipFiles.decodeRequest r = some request) :
    clip.readFileContents disk r =
      (clip.serveFileContents disk r.connId r.streamId request).map fun out =>
        (out.1, ((clip.getFilesForAudit disk request).map .ok).toList ++ [out.2]) := by
  unfold readFileContents
  rw [h]
  dsimp only
  cases clip.serveFileContents disk r.connId r.streamId request <;> rfl

theorem served_of_mem {msgFlags streamId : Int} {data : Bytes}
    {res : Except ServeError ServedContents}
    (h : .ok (.fileContentsResponse msgFlags streamId data) ∈
      ((clip.getFilesForAudit disk request).map .ok).toList ++ [res]) :
    res = .ok (.fileContentsResponse msgFlags streamId data) := by
  rcases List.mem_append.mp h with haudit | hserved
  · obtain ⟨x, hx, heq⟩ := Option.map_eq_some_iff.mp (Option.mem_toList.mp haudit)
    obtain ⟨files, rfl⟩ := getFilesForAudit_files hx
    cases heq
  · exact (List.mem_singleton.mp hserved).symm

/-- **One message**: it is served within the file, exactly if the sum does not overflow. -/
theorem readFileContents_iff (hlist : clip.fileList.length < 2 ^ 63) :
    (∃ out, clip.readFileContents disk r = .ok out ∧ clip.Within r out.2) ↔
      ¬clip.RangeOverflows r := by
  unfold RangeOverflows Within
  cases hrequest : ClipFiles.decodeRequest r with
  | none =>
    refine iff_of_true ?_ ?_
    · rw [readFileContents, hrequest]
      exact ⟨_, rfl, fun _ _ _ h => by cases h⟩
    · rintro ⟨idx, offset, length, hnone, -⟩
      cases hnone
  | some request =>
    rw [readFileContents_eq hrequest]
    cases request with
    | size idx =>
      obtain ⟨out, hout⟩ := serveFileContents_size disk r.connId r.streamId idx hlist
      refine iff_of_true ?_ ?_
      · rw [hout]
        exact ⟨_, rfl, fun _ _ _ h => by cases h⟩
      · rintro ⟨idx', offset, length, hrange, -⟩
        cases hrange
    | range idx offset length =>
      constructor
      · rintro ⟨out, hout, -⟩ ⟨idx', offset', length', hrange, f, hfile, hoffset, hhuge⟩
        cases hrange
        rw [serveFileContents_trap hfile hoffset hhuge] at hout
        cases hout
      · intro h
        have hfits : ∀ f, clip.fileList[asU64 idx]? = some f → offset ≤ f.size →
            offset + length < 2 ^ 64 := by
          intro f hfile hoffset
          by_contra hhuge
          exact h ⟨idx, offset, length, rfl, f, hfile, hoffset, by omega⟩
        obtain ⟨out, hout, hwithin⟩ :=
          serveFileContents_range disk r.connId r.streamId idx hlist hfits
        rw [hout]
        refine ⟨_, rfl, fun idx' offset' length' hrange msgFlags streamId data hdata => ?_⟩
        cases hrange
        exact hwithin msgFlags streamId data (served_of_mem hdata)

/-- The list can be parsed and the request served, each without a panic. -/
structure Harmless (disk : FileReads) (clip : ClipFileList) (pdu : Bytes) (connId : Int)
    (r : FileContentsRequest) : Prop where
  parses : ∃ descs, FullDescription.parseFileDescriptors pdu connId = .ok descs
  serves : ∃ out, clip.readFileContents disk r = .ok out ∧ clip.Within r out.2

/-- **Malformed messages are harmless**, exactly if the list reaches no huge time and the
position and the length of the request do not overflow. -/
theorem harmless_iff (disk : FileReads) (clip : ClipFileList) (pdu : Bytes) (connId : Int)
    (r : FileContentsRequest) (hlist : clip.fileList.length < 2 ^ 63) :
    Harmless disk clip pdu connId r ↔ ¬FullDescription.Traps pdu ∧ ¬clip.RangeOverflows r := by
  have hparse : (∃ descs, FullDescription.parseFileDescriptors pdu connId = .ok descs) ↔
      ¬FullDescription.Traps pdu := by
    rw [← FullDescription.parseFileDescriptors_traps_iff pdu connId]
    cases FullDescription.parseFileDescriptors pdu connId with
    | error e => simp
    | ok descs => simp
  rw [← hparse, ← readFileContents_iff hlist]
  exact ⟨fun h => ⟨h.parses, h.serves⟩, fun h => ⟨h.1, h.2⟩⟩

def zeroDisk : FileReads where
  isFile _ := true
  openFails _ := none
  readExact _ _ n := .ok ⟨List.replicate n 0, List.length_replicate⟩

def fiveBytes : ServedFile where
  relativeRoot := [OsPath.sep]
  path := [OsPath.sep, 0x61]
  name := ['a']
  size := 5
  lastWriteTime := 0
  isDir := false
  perm := 0o100644
  readOnly := false
  hidden := false
  system := false
  archive := false
  normal := true
  size_lt := by decide
  perm_lt := readable_lt
  handle := false
  offset := 0

def rangeOf (offset length : Int) : FileContentsRequest where
  connId := 1
  streamId := 1
  listIndex := 0
  dwFlags := 2
  nPositionHigh := 0
  nPositionLow := offset
  cbRequested := length

/-- A range that goes on behind the end is answered with what is there. -/
theorem range_behind_end_harmless : Harmless zeroDisk ⟨[fiveBytes], 0⟩ [] 1 (rangeOf 2 100) := by
  refine (harmless_iff zeroDisk ⟨[fiveBytes], 0⟩ [] 1 (rangeOf 2 100) (by decide)).mpr
    ⟨fun h => absurd h.1 (by decide), ?_⟩
  rintro ⟨idx, offset, length, hrequest, f, -, -, hhuge⟩
  have hdecoded : ClipFiles.decodeRequest (rangeOf 2 100) = some (.range 0 2 100) := by decide
  cases hdecoded.symm.trans hrequest
  omega

/-- **A length of -1 behind the first byte**: the end of the range is no number of 64 bits. -/
theorem negative_length_traps :
    readFileContents zeroDisk ⟨[fiveBytes], 0⟩ (rangeOf 1 (-1)) = .error .overflow ∧
      ¬Harmless zeroDisk ⟨[fiveBytes], 0⟩ [] 1 (rangeOf 1 (-1)) := by
  have htrap : readFileContents zeroDisk ⟨[fiveBytes], 0⟩ (rangeOf 1 (-1)) = .error .overflow := by
    rfl
  refine ⟨htrap, fun h => ?_⟩
  obtain ⟨out, hout, -⟩ := h.serves
  rw [htrap] at hout
  cases hout

end ClipFileList
end RustDesk
