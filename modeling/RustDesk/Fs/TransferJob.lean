import Mathlib.Algebra.Group.Int.Defs
import Mathlib.Algebra.GroupWithZero.Nat
import RustDesk.Basic

/-!
# Transfer jobs: the data and the reading side

A `TransferJob` moves the files of a list, one after the other.  This file has its
data and what the sending side does with it: open the current file, announce it
and wait for the peer's confirmation, read the next block, skip, resume.

Every call that touches the disk takes its outcomes from a `ReadIo`, so that a run
may meet any pattern of errors.  `file_num` is an `Int` and counts exactly; `wrapped`
is the number an `i32` holds afterwards.
-/

namespace RustDesk

/-- `file_transfer_send_request::FileType`, the kind of a job. -/
inductive JobType where
  | generic
  | printer
  deriving DecidableEq

/-- The fields of `FileEntry` that a transfer uses. -/
structure FileEntry where
  name : String
  size : Nat
  modifiedTime : Nat
  deriving DecidableEq

inductive DataSource where
  | filePath (p : String)
  | memoryCursor (data : Bytes)
  deriving DecidableEq

inductive DataStream where
  | fileStream (path : String) (pos : Nat)
  | bufStream (rest : Bytes)
  deriving DecidableEq

structure FileDigest where
  size : Nat
  modified : Nat
  deriving DecidableEq

structure FileTransferBlock where
  id : Int
  fileNum : Int
  data : Bytes
  compressed : Bool
  deriving DecidableEq

/-- `file_transfer_send_confirm_request::Union`. -/
inductive ConfirmUnion where
  | skip (s : Bool)
  | offsetBlk (offset : Nat)

structure FileTransferSendConfirmRequest where
  id : Int
  fileNum : Int
  union : Option ConfirmUnion

/-- `TransferJob` without the fields that only the user interface reads. -/
structure TransferJob where
  id : Int
  type : JobType
  dataSource : DataSource
  isLastJob : Bool
  isResume : Bool
  fileNum : Int
  files : List FileEntry
  dataStream : Option DataStream
  totalSize : Nat
  finishedSize : Nat
  transferred : Nat
  enableOverwriteDetection : Bool
  fileConfirmed : Bool
  fileSkipped : Bool
  fileIsWaiting : Bool
  digest : FileDigest
  deriving DecidableEq

/-- `n as usize` for an `i32`. -/
def asUsize (n : Int) : Nat := if n < 0 then (n + 2 ^ 64).toNat else n.toNat

/-- `Path::join` on a Unix build. -/
def pathJoin (p name : String) : String :=
  if name.toList.head? = some '/' then name
  else if p = "" ∨ p.toList.getLast? = some '/' then p ++ name
  else p ++ "/" ++ name

def getExt (name : String) : String :=
  if '.' ∈ name.toList then
    String.ofList (name.toList.reverse.takeWhile (· ≠ '.')).reverse
  else ""

def isCompressedFile (name : String) : Bool :=
  ["xz", "gz", "zip", "7z", "rar", "bz2", "tgz", "png", "jpg"].contains (getExt name)

/-- `Path::file_name` as text: the last component, unless there is none or it is
`..`. -/
def fileName (p : String) : String :=
  match ((p.toList.splitOn '/').filter fun c => c ≠ [] ∧ c ≠ ['.']).getLast? with
  | some c => if c = ['.', '.'] then "" else String.ofList c
  | none => ""

/-- `validate_file_name_no_traversal` on a Unix build. -/
def validateFileNameNoTraversal (name : String) : Except String Unit :=
  if '\x00' ∈ name.toList then .error "file name contains null bytes"
  else if ['.', '.'] ∈ name.toList.splitOn '/' then
    .error "path traversal detected in file name"
  else if name.toList.head? = some '/' then .error "absolute path detected in file name"
  else .ok ()

def validateTransferFileNames (files : List FileEntry) : Except String Unit :=
  match files with
  | [f] => if f.name = "" then .ok () else validateFileNameNoTraversal f.name
  | _ => files.forM fun f =>
    if f.name = "" then .error "empty file name in multi-file transfer"
    else validateFileNameNoTraversal f.name

structure ReadIo where
  /-- `File::open`. -/
  openFile : String → Except String Unit
  /-- `File::metadata`: modification time in seconds, and size. -/
  metadata : String → Except String (Nat × Nat)
  /-- The results of successive `read` calls on the file at a position. -/
  reads : String → Nat → List (Except String Bytes)
  /-- `Path::exists`. -/
  pathExists : String → Bool
  openWrite : String → Bool
  /-- `seek` succeeds. -/
  seek : String → Nat → Bool
  /-- No component of the name is a symbolic link below the base. -/
  symlinkFree : String → String → Bool

namespace TransferJob

def join (p name : String) : String := if name = "" then p else pathJoin p name

def joinValidatedPath (symlinkFree : String → String → Bool) (base name : String) :
    Except String String := do
  validateFileNameNoTraversal name
  if symlinkFree base name then .ok (join base name)
  else .error "symlink path component is not allowed"

def resolveEntryPath (symlinkFree : String → String → Bool) (job : TransferJob)
    (base name : String) : Option String :=
  match job.type with
  | .generic => (joinValidatedPath symlinkFree base name).toOption
  | .printer => some (join base name)

def blank (id : Int) (type : JobType) (source : DataSource) (fileNum : Int)
    (enableOverwriteDetection : Bool) : TransferJob where
  id := id
  type := type
  dataSource := source
  isLastJob := false
  isResume := false
  fileNum := fileNum
  files := []
  dataStream := none
  totalSize := 0
  finishedSize := 0
  transferred := 0
  enableOverwriteDetection := enableOverwriteDetection
  fileConfirmed := false
  fileSkipped := false
  fileIsWaiting := false
  digest := ⟨0, 0⟩

/-- `TransferJob::new_read`; `recursiveFiles` is `get_recursive_files`. -/
def newRead (recursiveFiles : String → Except String (List FileEntry)) (id : Int)
    (type : JobType) (source : DataSource) (fileNum : Int)
    (enableOverwriteDetection : Bool) : Except String TransferJob :=
  let job := blank id type source fileNum enableOverwriteDetection
  match source with
  | .filePath p => do
      let files ← recursiveFiles p
      return { job with files := files, totalSize := (files.map (·.size)).sum }
  | .memoryCursor data => return { job with totalSize := data.length }

def newWrite (id : Int) (type : JobType) (source : DataSource) (fileNum : Int)
    (enableOverwriteDetection : Bool) : TransferJob :=
  blank id type source fileNum enableOverwriteDetection

def setFiles (symlinkFree : String → String → Bool) (job : TransferJob)
    (files : List FileEntry) : Except String TransferJob := do
  validateTransferFileNames files
  match job.dataSource with
  | .filePath base =>
    if files.all fun f => symlinkFree base f.name then pure ()
    else throw "symlink path component is not allowed"
  | .memoryCursor _ => pure ()
  return { job with files := files, totalSize := (files.map (·.size)).sum }

def openDataStream (io : ReadIo) (job : TransferJob) : Except String Bool × TransferJob :=
  match job.dataSource with
  | .filePath p =>
    match job.files[asUsize job.fileNum]? with
    | none => (.ok true, { job with dataStream := none })
    | some entry =>
      match job.dataStream with
      | some _ => (.ok false, job)
      | none =>
        match io.openFile (join p entry.name) with
        | .ok () =>
          (.ok false, { job with
            dataStream := some (.fileStream (join p entry.name) 0)
            fileConfirmed := false
            fileIsWaiting := false })
        | .error e =>
          (.error e, { job with
            fileNum := job.fileNum + 1
            fileConfirmed := false
            fileIsWaiting := false })
  | .memoryCursor data =>
    match job.dataStream with
    | some _ => (.ok false, job)
    | none =>
      (.ok false, { job with
        dataSource := .memoryCursor []
        dataStream := some (.bufStream data) })

def getCurrentDigest (io : ReadIo) (job : TransferJob) : Except String (Nat × Nat) :=
  match job.dataStream with
  | none => .error "file is None"
  | some (.fileStream path _) => io.metadata path
  | some (.bufStream _) => .error "No digest for buf stream"

/-- `FileResponse`, as far as jobs send it. -/
inductive Response where
  | digest (id fileNum : Int) (lastModified fileSize : Nat) (isResume : Bool)
  | error (id : Int) (error : String) (fileNum : Int)
  | block (b : FileTransferBlock)
  | done (id fileNum : Int)
  deriving DecidableEq

def initDataStream (io : ReadIo) (job : TransferJob) :
    List Response × Except String Unit × TransferJob :=
  match job.openDataStream io with
  | (.error e, job) => ([], .error e, job)
  | (.ok true, job) => ([], .ok (), job)
  | (.ok false, job) =>
    if job.type = .generic ∧ job.enableOverwriteDetection = true ∧
        job.fileConfirmed = false ∧ job.fileIsWaiting = false then
      match job.getCurrentDigest io with
      | .error e => ([], .error e, job)
      | .ok (lastModified, fileSize) =>
        ([.digest job.id job.fileNum lastModified fileSize job.isResume], .ok (),
          { job with fileIsWaiting := true })
    else ([], .ok (), job)

def bufSize : Nat := 128 * 1024

/-- The loop of `read`: fill the buffer from successive reads until one returns
nothing or the buffer is full.  Each read gets at most the room that is left. -/
def readLoop (buf : Bytes) : List (Except String Bytes) → Except String Bytes
  | [] => .ok buf
  | .error e :: _ => .error e
  | .ok bytes :: rest =>
    let bytes := bytes.take (bufSize - buf.length)
    let buf := buf ++ bytes
    if bytes.isEmpty ∨ buf.length = bufSize then .ok buf else readLoop buf rest

def readStream (io : ReadIo) : DataStream → Except String (Bytes × DataStream)
  | .fileStream path pos => do
      let buf ← readLoop [] (io.reads path pos)
      return (buf, .fileStream path (pos + buf.length))
  | .bufStream rest => .ok (rest.take bufSize, .bufStream (rest.drop bufSize))

def nextFile (job : TransferJob) : TransferJob :=
  { job with
    fileNum := job.fileNum + 1
    dataStream := none
    fileConfirmed := false
    fileIsWaiting := false }

/-- The name `read` judges compressibility by; `none` if all files are done. -/
def currentName (job : TransferJob) : Option String :=
  match job.dataSource with
  | .memoryCursor _ => some ""
  | .filePath p =>
    (job.files[asUsize job.fileNum]?).map fun entry =>
      if job.files.length = 1 ∧ entry.name = "" then fileName p else entry.name

def isFilePath (job : TransferJob) : Bool :=
  match job.dataSource with
  | .filePath _ => true
  | .memoryCursor _ => false

def packBlock (compress : Bytes → Bytes) (compressible : Bool) (buf : Bytes) : Bytes × Bool :=
  let tmp := compress buf
  if compressible ∧ tmp.length < buf.length then (tmp, true) else (buf, false)

def read (compress : Bytes → Bytes) (io : ReadIo) (job : TransferJob) :
    Except String (Option FileTransferBlock) × TransferJob :=
  if job.type = .generic ∧ job.enableOverwriteDetection = true ∧ job.fileConfirmed = false then
    (.ok none, job)
  else
    match job.currentName with
    | none => (.ok none, { job with dataStream := none })
    | some name =>
      match job.dataStream with
      | none => (.error "data stream is None", job)
      | some stream =>
        match readStream io stream with
        | .error e => (.error e, job.nextFile)
        | .ok (buf, stream) =>
          if buf.isEmpty then
            if job.isFilePath then
              (.ok (some ⟨job.id, job.fileNum, [], false⟩), job.nextFile)
            else (.ok none, { job with dataStream := none })
          else
            let (data, compressed) :=
              packBlock compress (job.isFilePath && !isCompressedFile name) buf
            (.ok (some ⟨job.id, job.fileNum, data, compressed⟩), { job with
              dataStream := some stream
              finishedSize := job.finishedSize + buf.length
              transferred := job.transferred + data.length })

def setFileConfirmed (job : TransferJob) (confirmed : Bool) : TransferJob :=
  { job with fileConfirmed := confirmed, fileSkipped := false }

def setFileSkipped (job : TransferJob) : TransferJob :=
  { job with
    dataStream := none
    fileConfirmed := false
    fileIsWaiting := false
    fileNum := job.fileNum + 1
    fileSkipped := true }

/-- `set_stream_offset`; `none` is the out-of-bounds panic of `files[file_num]`. -/
def setStreamOffset (io : ReadIo) (job : TransferJob) (fileNum offset : Nat) : Option TransferJob :=
  match job.dataSource with
  | .memoryCursor _ => some job
  | .filePath p => do
      let entry ← job.files[fileNum]?
      match job.resolveEntryPath io.symlinkFree p entry.name with
      | none => some job
      | some filePath =>
        let downloadPath := filePath ++ ".download"
        let digestPath := filePath ++ ".digest"
        let opened :=
          if io.pathExists downloadPath && io.pathExists digestPath then
            if io.openWrite downloadPath then some downloadPath else none
          else if io.pathExists filePath then
            match io.openFile filePath with
            | .ok () => some filePath
            | .error _ => none
          else none
        match opened with
        | none => some job
        | some path =>
          if io.seek path offset then
            some { job with
              dataStream := some (.fileStream path offset)
              transferred := job.transferred + offset
              finishedSize := job.finishedSize + offset }
          else some job

def setFinishedSizeOnResume (job : TransferJob) : TransferJob :=
  if job.isResume ∧ job.fileNum > 0 then
    { job with finishedSize := ((job.files.take (asUsize job.fileNum)).map (·.size)).sum }
  else job

/-- `TransferJob::confirm`; `none` is a panic. -/
def confirm (io : ReadIo) (job : TransferJob) (r : FileTransferSendConfirmRequest) :
    Option TransferJob :=
  if job.fileNum ≠ r.fileNum then some job
  else
    match r.union with
    | some (.skip true) => some job.setFileSkipped
    | some (.skip false) => some (job.setFileConfirmed true)
    | some (.offsetBlk offset) =>
      let job := job.setFileConfirmed true
      if offset > 0 then job.setStreamOffset io (asUsize r.fileNum) offset else some job
    | none => some job

/-- The number as an `i32` holds it: in a release build, counting up wraps around. -/
def wrapped (job : TransferJob) : TransferJob :=
  { job with fileNum := job.fileNum.bmod (2 ^ 32) }

def jobSkipped (job : TransferJob) : Bool := job.fileSkipped && job.files.length == 1

def jobCompleted (job : TransferJob) : Bool :=
  !job.enableOverwriteDetection || (!job.fileConfirmed && !job.fileIsWaiting)

def jobError (job : TransferJob) : Option String :=
  if job.jobSkipped then some "skipped" else none

variable {job : TransferJob}

/-- Opening counts up only at an index of the list. -/
theorem openDataStream_fileNum (io : ReadIo) (job : TransferJob) :
    (job.openDataStream io).2.fileNum = job.fileNum ∨
      asUsize job.fileNum < job.files.length ∧
        (job.openDataStream io).2.fileNum = job.fileNum + 1 := by
  unfold openDataStream
  split
  · split
    · exact .inl rfl
    · rename_i entry hentry
      split
      · exact .inl rfl
      · split
        · exact .inl rfl
        · exact .inr ⟨(List.getElem?_eq_some_iff.mp hentry).1, rfl⟩
  · split <;> exact .inl rfl

/-- Reading counts up only at an index of the list. -/
theorem read_fileNum (compress : Bytes → Bytes) (io : ReadIo)
    (hstream : job.isFilePath = false → ∀ path pos, job.dataStream ≠ some (.fileStream path pos)) :
    (job.read compress io).2.fileNum = job.fileNum ∨
      asUsize job.fileNum < job.files.length ∧
        (job.read compress io).2.fileNum = job.fileNum + 1 := by
  unfold read
  split
  · exact .inl rfl
  · split
    · exact .inl rfl
    · rename_i name hname
      have hfile : job.isFilePath = true → asUsize job.fileNum < job.files.length := by
        intro hpath
        unfold isFilePath at hpath
        unfold currentName at hname
        split at hname
        · rename_i hsource
          rw [hsource] at hpath
          cases hpath
        · obtain ⟨entry, hentry, -⟩ := Option.map_eq_some_iff.mp hname
          exact (List.getElem?_eq_some_iff.mp hentry).1
      split
      · exact .inl rfl
      · rename_i stream hopened
        split
        · rename_i e herror
          refine .inr ⟨?_, rfl⟩
          cases hpath : job.isFilePath with
          | true => exact hfile hpath
          | false =>
            -- reading from memory never fails
            cases stream with
            | fileStream path pos => exact absurd hopened (hstream hpath path pos)
            | bufStream rest => cases herror
        · split
          · split
            · rename_i hpath
              exact .inr ⟨hfile hpath, rfl⟩
            · exact .inl rfl
          · exact .inl rfl

end TransferJob

/-- A job that reads memory has no file open. -/
def NoFile (job : TransferJob) : Prop :=
  job.isFilePath = false → ∀ path pos, job.dataStream ≠ some (.fileStream path pos)

theorem NoFile.of_filePath {job job' : TransferJob} (h : job.isFilePath = true)
    (hpath : job'.isFilePath = job.isFilePath) : NoFile job' := by
  intro hfalse
  rw [hpath, h] at hfalse
  cases hfalse

theorem NoFile.of_stream {job job' : TransferJob} (h : NoFile job)
    (hpath : job'.isFilePath = job.isFilePath) (hstream : job'.dataStream = job.dataStream) :
    NoFile job' := by
  intro hfalse
  rw [hstream]
  exact h (hpath.symm.trans hfalse)

end RustDesk
