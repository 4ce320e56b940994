import RustDesk.Fs.TransferJob
import RustDesk.Lib.Run

/-!
# Receiving files

The receiving side writes the blocks of a file to `X.download`, with a note about
the source in `X.digest`, and renames it to `X` when the next file begins or the
transfer is done.

The disk is a map from files to their contents.  Paths are text, and `resolve` says
which file a path denotes, so that two spellings may denote one file.  Whether the
operating system lets a file be created, replaced or removed, and how much of a block
gets to the open file, is part of the input of each call (`WriteIo`).

`no_partial_file`: the content of a final path changes only to all the blocks this
job wrote for that file, in every run whose steps are `Tidy`.
-/

namespace RustDesk

open List Function
open TransferJob (join newWrite setFiles)

structure FileNode where
  content : Bytes
  mtime : Nat
  deriving DecidableEq

/-- The regular files of a disk. -/
abbrev Disk (P : Type) := P → Option FileNode

structure WriteIo (P : Type) where
  /-- A regular file can be created, replaced or removed here. -/
  usable : P → Bool
  /-- Something that is not a regular file, such as a directory, is here. -/
  occupied : P → Bool
  /-- `sync_all` succeeds. -/
  syncs : Bool
  /-- No component of the name is a symbolic link below the base. -/
  symlinkFree : String → String → Bool
  /-- So many bytes of a block get to the open file, or all of them. -/
  room : Option Nat
  /-- `write_all` returns an error, of this write or of an earlier one. -/
  writeFails : Bool
  now : Nat

def WriteIo.allOk (P : Type) : WriteIo P :=
  ⟨fun _ => true, fun _ => false, true, fun _ _ => true, none, false, 0⟩

/-- The bytes of a write that get to the file. -/
def WriteIo.kept {P : Type} (io : WriteIo P) (bytes : Bytes) : Bytes :=
  (io.room.map bytes.take).getD bytes

/-- A block gets to the open file, all of it. -/
structure WriteIo.Takes {P : Type} (io : WriteIo P) : Prop where
  room : io.room = none
  reported : io.writeFails = false

theorem WriteIo.Takes.kept {P : Type} {io : WriteIo P} (h : io.Takes) (bytes : Bytes) :
    io.kept bytes = bytes := by
  simp [WriteIo.kept, h.room]

namespace Disk

variable {P : Type} [DecidableEq P]

def content (d : Disk P) (p : P) : Option Bytes := (d p).map (·.content)

/-- `std::fs::remove_file`: whether it succeeded. -/
def removeFile (io : WriteIo P) (d : Disk P) (p : P) : Bool × Disk P :=
  if (d p).isSome && io.usable p then (true, update d p none) else (false, d)

def rename (io : WriteIo P) (d : Disk P) (src dst : P) : Bool × Disk P :=
  if (d src).isSome && io.usable src && io.usable dst then
    (true, update (update d src none) dst (d src))
  else (false, d)

def setFileMtime (io : WriteIo P) (d : Disk P) (p : P) (mtime : Nat) : Disk P :=
  match d p with
  | some node =>
    if io.usable p then update d p (some { node with mtime := mtime }) else d
  | none => d

/-- `File::create` and `std::fs::write`: the file has this content. -/
def createFile (io : WriteIo P) (d : Disk P) (p : P) (bytes : Bytes) : Bool × Disk P :=
  if io.usable p && !io.occupied p then (true, update d p (some ⟨bytes, io.now⟩))
  else (false, d)

def overwrite (old : Bytes) (pos : Nat) (bytes : Bytes) : Bytes :=
  (old ++ List.replicate (pos - old.length) 0).take pos ++ bytes ++ old.drop (pos + bytes.length)

/-- Write these bytes to an open file. -/
def writeAt (io : WriteIo P) (d : Disk P) (p : P) (pos : Nat) (bytes : Bytes) : Disk P :=
  match d p with
  | some node =>
    update d p (some ⟨overwrite node.content pos bytes, io.now⟩)
  | none => d

theorem content_removeFile (io : WriteIo P) (d : Disk P) {p q : P} (h : q ≠ p) :
    (d.removeFile io p).2.content q = d.content q := by
  unfold removeFile
  split <;> simp [content, update_of_ne h]

variable {d : Disk P}

theorem rename_missing (io : WriteIo P) {src : P} (dst : P) (h : d src = none) :
    d.rename io src dst = (false, d) := by
  simp [rename, h]

theorem content_rename_other (io : WriteIo P) (d : Disk P) {src dst q : P} (hsrc : q ≠ src)
    (hdst : q ≠ dst) : (d.rename io src dst).2.content q = d.content q := by
  unfold rename
  split <;> simp [content, update_of_ne hsrc, update_of_ne hdst]

theorem content_rename_target (io : WriteIo P) (d : Disk P) (src dst : P) :
    (d.rename io src dst).2.content dst = d.content src ∨
      (d.rename io src dst).2.content dst = d.content dst := by
  unfold rename
  split
  · left
    simp [content]
  · right
    rfl

theorem content_setFileMtime (io : WriteIo P) (d : Disk P) (p q : P) (mtime : Nat) :
    (d.setFileMtime io p mtime).content q = d.content q := by
  unfold setFileMtime
  split
  · rename_i node hnode
    split
    · by_cases hq : q = p
      · subst hq
        simp [content, hnode]
      · simp [content, update_of_ne hq]
    · rfl
  · rfl

theorem content_createFile_other (io : WriteIo P) (d : Disk P) {p q : P} (bytes : Bytes)
    (h : q ≠ p) : (d.createFile io p bytes).2.content q = d.content q := by
  unfold createFile
  split <;> simp [content, update_of_ne h]

theorem content_createFile_self {io : WriteIo P} {p : P} {bytes : Bytes}
    (h : (d.createFile io p bytes).1 = true) :
    (d.createFile io p bytes).2.content p = some bytes := by
  unfold createFile at h ⊢
  split at h
  · simp_all [content]
  · cases h

theorem content_writeAt_other (io : WriteIo P) (d : Disk P) {p q : P} (pos : Nat)
    (bytes : Bytes) (h : q ≠ p) : (d.writeAt io p pos bytes).content q = d.content q := by
  unfold writeAt
  split <;> simp [content, update_of_ne h]

theorem content_writeAt_end (io : WriteIo P) {p : P} {old : Bytes}
    (h : d.content p = some old) (bytes : Bytes) :
    (d.writeAt io p old.length bytes).content p = some (old ++ bytes) := by
  unfold content at h
  obtain ⟨node, hnode, rfl⟩ := Option.map_eq_some_iff.mp h
  simp [writeAt, hnode, content, overwrite]

end Disk

/-- `json!(self.digest).to_string()`. -/
def digestJson (digest : FileDigest) : Bytes :=
  s!"\x7b\"modified\":{digest.modified},\"size\":{digest.size}\x7d".toUTF8.toList

namespace TransferJob

variable {P : Type} [DecidableEq P] (resolve : String → P)

def follow (job : TransferJob) (src dst : String) : TransferJob :=
  match job.dataStream with
  | some (.fileStream path pos) =>
    if resolve path = resolve src then { job with dataStream := some (.fileStream dst pos) }
    else job
  | _ => job

def currentPath (symlinkFree : String → String → Bool) (job : TransferJob) :
    Option (String × FileEntry) :=
  match job.type, job.dataSource with
  | .generic, .filePath p => do
      let entry ← job.files[asUsize job.fileNum]?
      let path ← job.resolveEntryPath symlinkFree p entry.name
      return (path, entry)
  | _, _ => none

/-- The steps of `modify_time` on the disk, and whether the file was renamed. -/
def finishFile (io : WriteIo P) (d : Disk P) (path : String) (mtime : Nat) : Bool × Disk P :=
  let d := (d.removeFile io (resolve (path ++ ".digest"))).2
  let renamed := d.rename io (resolve (path ++ ".download")) (resolve path)
  (renamed.1, renamed.2.setFileMtime io (resolve path) mtime)

def modifyTime (io : WriteIo P) (job : TransferJob) (d : Disk P) : TransferJob × Disk P :=
  match job.currentPath io.symlinkFree with
  | none => (job, d)
  | some (path, entry) =>
    let finished := finishFile resolve io d path entry.modifiedTime
    (if finished.1 then job.follow resolve (path ++ ".download") path else job, finished.2)

def removeDownloadFile (io : WriteIo P) (job : TransferJob) (d : Disk P) : Disk P :=
  match job.currentPath io.symlinkFree with
  | none => d
  | some (path, _) =>
    let d := (d.removeFile io (resolve (path ++ ".download"))).2
    (d.removeFile io (resolve (path ++ ".digest"))).2

def beginFile (io : WriteIo P) (d : Disk P) (download digest : P) (note : Bytes) :
    Except String Unit × Disk P :=
  let cleared := if (d digest).isSome || io.occupied digest then d.removeFile io digest
    else (true, d)
  if cleared.1 then
    let created := cleared.2.createFile io download []
    if created.1 then (.ok (), (created.2.createFile io digest note).2)
    else (.error "cannot create file", cleared.2)
  else (.error "cannot remove file", d)

/-- Open the file of an entry for writing; for a generic job with its note.  The
directories above it are created first, which no file content depends on. -/
def openTarget (io : WriteIo P) (job : TransferJob) (d : Disk P) (p : String)
    (entry : FileEntry) : Except String String × Disk P :=
  match job.type with
  | .printer =>
    let created := d.createFile io (resolve p) []
    if created.1 then (.ok p, created.2) else (.error "cannot create file", d)
  | .generic =>
    match joinValidatedPath io.symlinkFree p entry.name with
    | .error e => (.error e, d)
    | .ok filePath =>
      let begun := beginFile io d (resolve (filePath ++ ".download"))
        (resolve (filePath ++ ".digest")) (digestJson job.digest)
      (begun.1.map fun _ => filePath ++ ".download", begun.2)

def blockBytes (decompress : Bytes → Bytes) (block : FileTransferBlock) : Bytes :=
  if block.compressed then decompress block.data else block.data

/-- The end of `write`: the bytes go to the open stream.  What a failing `write_all` has
written stays, and nothing is counted. -/
def writeBytes (decompress : Bytes → Bytes) (io : WriteIo P) (job : TransferJob) (d : Disk P)
    (block : FileTransferBlock) : Except String Unit × TransferJob × Disk P :=
  let bytes := blockBytes decompress block
  let counted := { job with
    finishedSize := job.finishedSize + bytes.length
    transferred := job.transferred + block.data.length }
  match job.dataStream with
  | none =>
    (.error (if block.compressed then "data stream is None" else "file is None"), job, d)
  | some (.fileStream path pos) =>
    let stream := some (.fileStream path (pos + (io.kept bytes).length))
    let d := d.writeAt io (resolve path) pos (io.kept bytes)
    if io.writeFails then (.error "write failed", { job with dataStream := stream }, d)
    else (.ok (), { counted with dataStream := stream }, d)
  | some (.bufStream buf) =>
    (.ok (), { counted with dataStream := some (.bufStream (buf ++ bytes)) }, d)

def write (decompress : Bytes → Bytes) (io : WriteIo P) (job : TransferJob) (d : Disk P)
    (block : FileTransferBlock) : Except String Unit × TransferJob × Disk P :=
  if block.id ≠ job.id then (.error "Wrong id", job, d)
  else
    match job.dataSource with
    | .filePath p =>
      match job.files[asUsize block.fileNum]? with
      | none => (.error "Wrong file number", job, d)
      | some entry =>
        if asUsize block.fileNum ≠ asUsize job.fileNum ∨ job.dataStream = none then
          let finished := job.modifyTime resolve io d
          let job := finished.1
          if job.dataStream.isSome && !io.syncs then (.error "sync failed", job, finished.2)
          else
            let job := { job with fileNum := block.fileNum }
            match job.openTarget resolve io finished.2 p entry with
            | (.error e, d) => (.error e, job, d)
            | (.ok path, d) =>
              writeBytes resolve decompress io
                { job with dataStream := some (.fileStream path 0) } d block
        else writeBytes resolve decompress io job d block
    | .memoryCursor c =>
      let job := match job.dataStream with
        | none => { job with dataStream := some (.bufStream c) }
        | some _ => job
      writeBytes resolve decompress io job d block

end TransferJob

/-- A write job on a disk, with what it has written: the file number and the bytes of
each block, in order. -/
structure WriteRun (P : Type) where
  job : TransferJob
  disk : Disk P
  written : List (Nat × Bytes)
  ended : Bool

namespace WriteRun

variable {P : Type}

inductive Input (P : Type) where
  | write (io : WriteIo P) (block : FileTransferBlock)
  | done (io : WriteIo P)
  | cancel (io : WriteIo P)

def start (job : TransferJob) (d : Disk P) : WriteRun P := ⟨job, d, [], false⟩

def blocksOf (s : WriteRun P) (k : Nat) : Bytes :=
  ((s.written.filter fun w => w.1 = k).map (·.2)).flatten

variable [DecidableEq P] (resolve : String → P) (decompress : Bytes → Bytes)

def advance (s : WriteRun P) : Input P → WriteRun P
  | .write io block =>
    match s.job.write resolve decompress io s.disk block with
    | (.ok (), job, d) =>
      { s with
        job := job
        disk := d
        written := s.written ++ [(asUsize block.fileNum, TransferJob.blockBytes decompress block)] }
    | (.error _, job, d) => { s with job := job, disk := d }
  | .done io =>
    let finished := s.job.modifyTime resolve io s.disk
    { s with job := finished.1, disk := finished.2, ended := true }
  | .cancel io =>
    { s with disk := s.job.removeDownloadFile resolve io s.disk, ended := true }

def step (s : WriteRun P) (inp : Input P) : WriteRun P :=
  if s.ended = true then s else s.advance resolve decompress inp

def final (base : String) (entry : FileEntry) : P := resolve (join base entry.name)

def download (base : String) (entry : FileEntry) : P :=
  resolve (join base entry.name ++ ".download")

def digest (base : String) (entry : FileEntry) : P :=
  resolve (join base entry.name ++ ".digest")

/-- **No partial file.**  Every final path has its old content, or all the bytes the
job has written for that file. -/
def NoPartial (base : String) (d₀ : Disk P) (s : WriteRun P) : Prop :=
  ∀ k entry, s.job.files[k]? = some entry →
    s.disk.content (final resolve base entry) = d₀.content (final resolve base entry) ∨
    ((∃ bytes, (k, bytes) ∈ s.written) ∧
      s.disk.content (final resolve base entry) = some (s.blocksOf k))

/-- Files, downloads and digests of the entries are different files. -/
structure Separated (base : String) (files : List FileEntry) : Prop where
  finals : ∀ (i j : Nat) a b, files[i]? = some a → files[j]? = some b →
    final resolve base a = final resolve base b → i = j
  downloads : ∀ a ∈ files, ∀ b ∈ files, final resolve base a ≠ download resolve base b
  digests : ∀ a ∈ files, ∀ b ∈ files, final resolve base a ≠ digest resolve base b
  notes : ∀ a ∈ files, download resolve base a ≠ digest resolve base a

/-- There is no download of the current file yet. -/
def NoLeftover (base : String) (s : WriteRun P) : Prop :=
  ∀ entry ∈ s.job.files[asUsize s.job.fileNum]?, s.disk (download resolve base entry) = none

/-- The operating system lets the file of an entry and its note be created, and the
previous file be flushed. -/
structure CanOpen (io : WriteIo P) (base : String) (entry : FileEntry) : Prop where
  syncs : io.syncs = true
  links : io.symlinkFree base entry.name = true
  downloadUsable : io.usable (download resolve base entry) = true
  downloadFree : io.occupied (download resolve base entry) = false
  digestUsable : io.usable (digest resolve base entry) = true
  digestFree : io.occupied (digest resolve base entry) = false

/-- **A step that cannot publish a partial file.**  A block gets to the file, all of it; while
no file is open, there is no leftover download of the current file; a file is begun only once;
and when it is begun while another one is open, it can be opened. -/
def Tidy (base : String) (s : WriteRun P) : Input P → Prop
  | .write io block =>
    s.ended = false → block.id = s.job.id →
    ∀ entry ∈ s.job.files[asUsize block.fileNum]?, io.Takes ∧
      (s.job.dataStream = none → NoLeftover resolve base s) ∧
      (asUsize block.fileNum ≠ asUsize s.job.fileNum → s.job.dataStream ≠ none →
        (∀ bytes, (asUsize block.fileNum, bytes) ∉ s.written) ∧
        CanOpen resolve io base entry)
  | .done _ => s.ended = false → s.job.dataStream = none → NoLeftover resolve base s
  | .cancel _ => True

variable {sf : String → String → Bool}

theorem joinValidatedPath_ok {base name path : String}
    (h : TransferJob.joinValidatedPath sf base name = .ok path) : path = join base name := by
  unfold TransferJob.joinValidatedPath at h
  cases hv : validateFileNameNoTraversal name with
  | error e => simp [hv, bind, Except.bind] at h
  | ok _ =>
    simp only [hv, bind, Except.bind] at h
    split at h
    · cases h
      rfl
    · cases h

variable {base : String} {files : List FileEntry} {entry : FileEntry}

structure Writes (base : String) (files : List FileEntry) (job : TransferJob) : Prop where
  type : job.type = .generic
  source : job.dataSource = .filePath base
  files : job.files = files

variable {job : TransferJob} {path : String}

theorem currentPath_eq_some (hw : Writes base files job)
    (h : job.currentPath sf = some (path, entry)) :
    files[asUsize job.fileNum]? = some entry ∧ path = join base entry.name := by
  simp only [TransferJob.currentPath, hw.type, hw.source, hw.files, Option.bind_eq_bind,
    Option.bind_eq_some_iff] at h
  obtain ⟨e, he, p, hp, heq⟩ := h
  cases heq
  refine ⟨he, ?_⟩
  simp only [TransferJob.resolveEntryPath, hw.type] at hp
  cases hj : TransferJob.joinValidatedPath sf base entry.name with
  | error e => simp [hj, Except.toOption] at hp
  | ok q =>
    obtain rfl : q = path := by simpa [hj, Except.toOption] using hp
    exact joinValidatedPath_ok hj

theorem follow_job (job : TransferJob) (src dst : String) :
    ∃ stream, job.follow resolve src dst = { job with dataStream := stream } ∧
      (stream = none ↔ job.dataStream = none) := by
  unfold TransferJob.follow
  rcases hstream : job.dataStream with _ | (⟨path, pos⟩ | buf)
  · exact ⟨none, by simp [← hstream], by simp⟩
  · by_cases heq : resolve path = resolve src
    · exact ⟨some (.fileStream dst pos), by simp [heq], by simp⟩
    · exact ⟨some (.fileStream path pos), by simp [heq, ← hstream], by simp⟩
  · exact ⟨some (.bufStream buf), by simp [← hstream], by simp⟩

/-- **What finishing the current file does.**  The job keeps all but its stream.  The
only content that changes is the file's own note, download and final path, and the
final path gets the content of the download or keeps its own; without a download it
keeps its own. -/
theorem modifyTime_spec (io : WriteIo P) (hw : Writes base files job) (d : Disk P) :
    (∃ stream, (job.modifyTime resolve io d).1 = { job with dataStream := stream } ∧
      (stream = none ↔ job.dataStream = none)) ∧
    ((job.modifyTime resolve io d).2 = d ∨
      ∃ entry, files[asUsize job.fileNum]? = some entry ∧
        (job.modifyTime resolve io d).2 =
          (TransferJob.finishFile resolve io d (join base entry.name) entry.modifiedTime).2) := by
  unfold TransferJob.modifyTime
  cases hpath : job.currentPath io.symlinkFree with
  | none => exact ⟨⟨job.dataStream, rfl, Iff.rfl⟩, Or.inl rfl⟩
  | some x =>
    obtain ⟨path, entry⟩ := x
    obtain ⟨hentry, rfl⟩ := currentPath_eq_some hw hpath
    simp only
    constructor
    · split
      · exact follow_job resolve job _ _
      · exact ⟨job.dataStream, rfl, Iff.rfl⟩
    · exact Or.inr ⟨entry, hentry, rfl⟩

theorem finishFile_eq (io : WriteIo P) (d : Disk P) (mtime : Nat) :
    (TransferJob.finishFile resolve io d (join base entry.name) mtime).2 =
      ((d.removeFile io (digest resolve base entry)).2.rename io (download resolve base entry)
        (final resolve base entry)).2.setFileMtime io (final resolve base entry) mtime := rfl

theorem content_finishFile_other (io : WriteIo P) (d : Disk P) {q : P} (mtime : Nat)
    (hdigest : q ≠ digest resolve base entry) (hdownload : q ≠ download resolve base entry)
    (hfinal : q ≠ final resolve base entry) :
    (TransferJob.finishFile resolve io d (join base entry.name) mtime).2.content q =
      d.content q := by
  rw [finishFile_eq, Disk.content_setFileMtime, Disk.content_rename_other io _ hdownload hfinal,
    Disk.content_removeFile io d hdigest]

theorem content_finishFile_final (io : WriteIo P) (d : Disk P) (mtime : Nat)
    (hnotes : download resolve base entry ≠ digest resolve base entry)
    (hfinal : final resolve base entry ≠ digest resolve base entry) :
    let d' := (TransferJob.finishFile resolve io d (join base entry.name) mtime).2
    d'.content (final resolve base entry) = d.content (download resolve base entry) ∨
      d'.content (final resolve base entry) = d.content (final resolve base entry) := by
  simp only [finishFile_eq, Disk.content_setFileMtime]
  rcases Disk.content_rename_target io (d.removeFile io (digest resolve base entry)).2
    (download resolve base entry) (final resolve base entry) with h | h
  · left
    exact h.trans (Disk.content_removeFile io d hnotes)
  · right
    exact h.trans (Disk.content_removeFile io d hfinal)

theorem content_finishFile_missing (io : WriteIo P) {d : Disk P} {q : P} (mtime : Nat)
    (hmissing : d (download resolve base entry) = none)
    (hnotes : download resolve base entry ≠ digest resolve base entry)
    (hq : q ≠ digest resolve base entry) :
    (TransferJob.finishFile resolve io d (join base entry.name) mtime).2.content q =
      d.content q := by
  have hgone : (d.removeFile io (digest resolve base entry)).2 (download resolve base entry) =
      none := by
    have := Disk.content_removeFile io d hnotes
    simpa [Disk.content, hmissing] using this
  rw [finishFile_eq, Disk.content_setFileMtime, Disk.rename_missing io _ hgone]
  exact Disk.content_removeFile io d hq

theorem beginFile_spec (io : WriteIo P) (d : Disk P) {a b : P} (note : Bytes) (hab : a ≠ b) :
    (∀ q, q ≠ b → q ≠ a → (TransferJob.beginFile io d a b note).2.content q = d.content q) ∧
    ((TransferJob.beginFile io d a b note).1 = .ok () →
      (TransferJob.beginFile io d a b note).2.content a = some []) := by
  have hcleared : ∀ q, q ≠ b → Disk.content (if (d b).isSome || io.occupied b then
      d.removeFile io b else (true, d)).2 q = d.content q := by
    intro q hq
    split
    · exact Disk.content_removeFile io d hq
    · rfl
  unfold TransferJob.beginFile
  simp only
  set cleared := if (d b).isSome || io.occupied b then d.removeFile io b else (true, d)
  cases hok : cleared.1 with
  | false => exact ⟨fun q _ _ => by simp, fun h => by simp at h⟩
  | true =>
    cases hcreated : (cleared.2.createFile io a []).1 with
    | false => exact ⟨fun q hq _ => by simpa using hcleared q hq, fun h => by simp at h⟩
    | true =>
      simp only [if_true]
      constructor
      · intro q hb ha
        rw [Disk.content_createFile_other io _ note hb,
          Disk.content_createFile_other io _ [] ha, hcleared q hb]
      · intro _
        rw [Disk.content_createFile_other io _ note hab, Disk.content_createFile_self hcreated]

/-- **What opening a file does.**  A success leaves an empty download behind; in any
case no other content than the download and the note changes. -/
theorem openTarget_spec (io : WriteIo P) (hw : Writes base files job)
    (d : Disk P) (hnotes : download resolve base entry ≠ digest resolve base entry) :
    (∀ q, q ≠ digest resolve base entry → q ≠ download resolve base entry →
      (job.openTarget resolve io d base entry).2.content q = d.content q) ∧
    (∀ path, (job.openTarget resolve io d base entry).1 = .ok path →
      path = join base entry.name ++ ".download" ∧
      (job.openTarget resolve io d base entry).2.content (download resolve base entry) =
        some []) := by
  unfold TransferJob.openTarget
  simp only [hw.type]
  cases hjoin : TransferJob.joinValidatedPath io.symlinkFree base entry.name with
  | error e => exact ⟨fun q _ _ => rfl, fun path h => by cases h⟩
  | ok filePath =>
    obtain rfl := joinValidatedPath_ok hjoin
    obtain ⟨hother, hself⟩ := beginFile_spec io d (digestJson job.digest) hnotes
    constructor
    · exact hother
    · intro path hpath
      change (TransferJob.beginFile io d (download resolve base entry)
        (digest resolve base entry) (digestJson job.digest)).1.map _ = _ at hpath
      cases hbegun : (TransferJob.beginFile io d (download resolve base entry)
          (digest resolve base entry) (digestJson job.digest)).1 with
      | error e =>
        rw [hbegun] at hpath
        cases hpath
      | ok _ =>
        rw [hbegun] at hpath
        cases hpath
        exact ⟨rfl, hself hbegun⟩

variable {io : WriteIo P}

theorem openTarget_ok (hw : Writes base files job)
    (d : Disk P) (hopen : CanOpen resolve io base entry)
    (hname : validateFileNameNoTraversal entry.name = .ok ()) :
    ∃ path, (job.openTarget resolve io d base entry).1 = .ok path := by
  have hjoin : TransferJob.joinValidatedPath io.symlinkFree base entry.name =
      .ok (join base entry.name) := by
    simp [TransferJob.joinValidatedPath, hname, bind, Except.bind, hopen.links]
  have hbegun : (TransferJob.beginFile io d (download resolve base entry)
      (digest resolve base entry) (digestJson job.digest)).1 = .ok () := by
    have hcleared : (if (d (digest resolve base entry)).isSome ||
        io.occupied (digest resolve base entry) then
        d.removeFile io (digest resolve base entry) else (true, d)).1 = true := by
      rw [hopen.digestFree, Bool.or_false]
      split
      · simp_all [Disk.removeFile, hopen.digestUsable]
      · rfl
    unfold TransferJob.beginFile
    simp only [hcleared, if_true, Disk.createFile, hopen.downloadUsable, hopen.downloadFree,
      Bool.not_false, Bool.and_self]
  refine ⟨join base entry.name ++ ".download", ?_⟩
  unfold TransferJob.openTarget
  simp only [hw.type, hjoin]
  change (TransferJob.beginFile io d (download resolve base entry)
    (digest resolve base entry) (digestJson job.digest)).1.map _ = _
  rw [hbegun]
  rfl

variable {block : FileTransferBlock}

theorem write_switch (hw : Writes base files job) (decompress : Bytes → Bytes) {d : Disk P}
    {stream : Option DataStream} (hid : block.id = job.id)
    (hentry : files[asUsize block.fileNum]? = some entry)
    (hmove : asUsize block.fileNum ≠ asUsize job.fileNum ∨ job.dataStream = none)
    (hjob : (job.modifyTime resolve io d).1 = { job with dataStream := stream })
    (hsync : (stream.isSome && !io.syncs) = false) :
    job.write resolve decompress io d block =
      match TransferJob.openTarget resolve io
          { job with dataStream := stream, fileNum := block.fileNum }
          (job.modifyTime resolve io d).2 base entry with
      | (.error e, d) => (.error e, { job with dataStream := stream, fileNum := block.fileNum }, d)
      | (.ok path, d) => TransferJob.writeBytes resolve decompress io
          { job with dataStream := some (.fileStream path 0), fileNum := block.fileNum } d block := by
  unfold TransferJob.write
  simp [hid, hw.source, hw.files, hentry, hmove, hjob, hsync]

/-- The file the job has open is the download of its current file; it holds all bytes
written for that file, whose final path is as it was. -/
structure OpenOn (base : String) (files : List FileEntry) (d₀ : Disk P) (s : WriteRun P)
    (stream : DataStream) (entry : FileEntry) : Prop where
  current : files[asUsize s.job.fileNum]? = some entry
  stream : stream = .fileStream (join base entry.name ++ ".download")
    (s.blocksOf (asUsize s.job.fileNum)).length
  content : s.disk.content (download resolve base entry) = some (s.blocksOf (asUsize s.job.fileNum))
  untouched : s.disk.content (final resolve base entry) = d₀.content (final resolve base entry)
  begun : ∃ bytes, (asUsize s.job.fileNum, bytes) ∈ s.written

structure Inv (base : String) (files : List FileEntry) (d₀ : Disk P) (s : WriteRun P) :
    Prop where
  writes : Writes base files s.job
  noPartial : NoPartial resolve base d₀ s
  idle : s.ended = false → s.job.dataStream = none → s.written = []
  busy : s.ended = false → ∀ stream, s.job.dataStream = some stream →
    ∃ entry, OpenOn resolve base files d₀ s stream entry

omit [DecidableEq P] in
theorem blocksOf_append (s : WriteRun P) (job : TransferJob) (d : Disk P) (k i : Nat)
    (bytes : Bytes) (ended : Bool) :
    blocksOf ⟨job, d, s.written ++ [(i, bytes)], ended⟩ k =
      if i = k then s.blocksOf k ++ bytes else s.blocksOf k := by
  unfold blocksOf
  by_cases h : i = k <;> simp [filter_append, h]

variable {s : WriteRun P}

omit [DecidableEq P] in
theorem blocksOf_eq_nil {k : Nat} (h : ∀ bytes, (k, bytes) ∉ s.written) : s.blocksOf k = [] := by
  have hnone : s.written.filter (fun w => w.1 = k) = [] := by
    rw [filter_eq_nil_iff]
    intro w hw hk
    have : w.1 = k := by simpa using hk
    exact h w.2 (this ▸ hw)
  simp [blocksOf, hnone]

variable {resolve} {d₀ : Disk P}

theorem noPartial_modifyTime (hsep : Separated resolve base files)
    (h : Inv resolve base files d₀ s) (hrun : s.ended = false) (io : WriteIo P)
    (htidy : s.job.dataStream = none → NoLeftover resolve base s) (job : TransferJob)
    (hfiles : job.files = files) (ended : Bool) :
    NoPartial resolve base d₀ ⟨job, (s.job.modifyTime resolve io s.disk).2, s.written, ended⟩ := by
  intro k entry hentry
  have hentry' : files[k]? = some entry := hfiles ▸ hentry
  have hold := h.noPartial k entry (h.writes.files ▸ hentry')
  rcases (modifyTime_spec resolve io h.writes s.disk).2 with hsame | ⟨cur, hcur, hfin⟩
  · rw [hsame]
    exact hold
  simp only [hfin]
  have hmem := mem_of_getElem? hentry'
  have hcurmem := mem_of_getElem? hcur
  have hnotes := hsep.notes cur hcurmem
  cases hstream : s.job.dataStream with
  | none =>
    have hmissing : s.disk (download resolve base cur) = none :=
      htidy hstream cur (by rw [h.writes.files]; exact hcur)
    rw [content_finishFile_missing resolve io _ hmissing hnotes (hsep.digests entry hmem cur hcurmem)]
    exact hold
  | some stream =>
    obtain ⟨cur', hopen⟩ := h.busy hrun stream hstream
    obtain rfl : cur = cur' := Option.some.inj (hcur.symm.trans hopen.current)
    by_cases hk : k = asUsize s.job.fileNum
    · subst hk
      obtain rfl : cur = entry := Option.some.inj (hcur.symm.trans hentry')
      rcases content_finishFile_final resolve io s.disk cur.modifiedTime hnotes
        (hsep.digests cur hcurmem cur hcurmem) with hnew | hkeep
      · right
        exact ⟨hopen.begun, hnew.trans hopen.content⟩
      · left
        exact hkeep.trans hopen.untouched
    · have hfinal : final resolve base entry ≠ final resolve base cur := by
        intro heq
        exact hk (hsep.finals k _ entry cur hentry' hcur heq)
      rw [content_finishFile_other resolve io s.disk _ (hsep.digests entry hmem cur hcurmem)
        (hsep.downloads entry hmem cur hcurmem) hfinal]
      exact hold

theorem Inv.append (hsep : Separated resolve base files)
    (h : Inv resolve base files d₀ s) (hrun : s.ended = false) {pos : Nat}
    (hstream : s.job.dataStream = some (.fileStream path pos)) (io : WriteIo P) {bytes : Bytes}
    (hwrites : Writes base files job)
    (hnum : job.fileNum = s.job.fileNum)
    (hstream' : job.dataStream = some (.fileStream path (pos + bytes.length))) :
    Inv resolve base files d₀
      ⟨job, s.disk.writeAt io (resolve path) pos bytes,
        s.written ++ [(asUsize s.job.fileNum, bytes)], s.ended⟩ := by
  obtain ⟨entry, hopen⟩ := h.busy hrun _ hstream
  have hmem := mem_of_getElem? hopen.current
  have hpath := hopen.stream
  cases hpath
  have hfinal : ∀ e ∈ files, ∀ bytes : Bytes, Disk.content (s.disk.writeAt io
      (download resolve base entry) (s.blocksOf (asUsize s.job.fileNum)).length bytes)
      (final resolve base e) = s.disk.content (final resolve base e) :=
    fun e he bytes => Disk.content_writeAt_other io _ _ _ (hsep.downloads e he entry hmem)
  refine ⟨hwrites, ?_, ?_, ?_⟩
  · intro k e he
    have he' : files[k]? = some e := hwrites.files ▸ he
    have hcontent := hfinal e (mem_of_getElem? he') bytes
    change Disk.content (s.disk.writeAt io (download resolve base entry) _ bytes) _ = _ ∨
      _ ∧ Disk.content (s.disk.writeAt io (download resolve base entry) _ bytes) _ = _
    rw [hcontent, blocksOf_append]
    by_cases hk : asUsize s.job.fileNum = k
    · left
      subst hk
      obtain rfl : e = entry := Option.some.inj (he'.symm.trans hopen.current)
      exact hopen.untouched
    · rw [if_neg hk]
      rcases h.noPartial k e (h.writes.files ▸ he') with hold | ⟨⟨b, hb⟩, hall⟩
      · exact Or.inl hold
      · exact Or.inr ⟨⟨b, mem_append_left _ hb⟩, hall⟩
  · intro _ hnone
    simp [hstream'] at hnone
  · intro _ stream hs
    rw [hstream'] at hs
    cases hs
    refine ⟨entry, ⟨?_, ?_, ?_, ?_, ?_⟩⟩
    · simp only [hnum]
      exact hopen.current
    · simp [hnum, blocksOf_append]
    · simp only [hnum, blocksOf_append, if_true]
      exact Disk.content_writeAt_end io hopen.content bytes
    · exact (hfinal entry hmem bytes).trans hopen.untouched
    · exact ⟨bytes, by simp [hnum]⟩

theorem Inv.begin {d₀ d : Disk P} (hsep : Separated resolve base files)
    {k : Nat} {entry : FileEntry} (hentry : files[k]? = some entry)
    (hnew : ∀ bytes, (k, bytes) ∉ s.written) (hwrites : Writes base files job)
    (hnum : asUsize job.fileNum = k)
    (hwhole : NoPartial resolve base d₀ ⟨job, d, s.written, s.ended⟩)
    (hempty : d.content (download resolve base entry) = some []) (io : WriteIo P)
    {bytes : Bytes} (hstream : job.dataStream =
      some (.fileStream (join base entry.name ++ ".download") bytes.length)) :
    Inv resolve base files d₀
      ⟨job, d.writeAt io (download resolve base entry) 0 bytes, s.written ++ [(k, bytes)],
        s.ended⟩ := by
  have hmem := mem_of_getElem? hentry
  have hfinal : ∀ e ∈ files, (d.writeAt io (download resolve base entry) 0 bytes).content
      (final resolve base e) = d.content (final resolve base e) :=
    fun e he => Disk.content_writeAt_other io _ _ _ (hsep.downloads e he entry hmem)
  have hnone : s.blocksOf k = [] := blocksOf_eq_nil hnew
  have huntouched : d.content (final resolve base entry) =
      d₀.content (final resolve base entry) := by
    rcases hwhole k entry (hwrites.files ▸ hentry) with hold | ⟨⟨b, hb⟩, -⟩
    · exact hold
    · exact absurd hb (hnew b)
  refine ⟨hwrites, ?_, ?_, ?_⟩
  · intro j e he
    have he' : files[j]? = some e := hwrites.files ▸ he
    simp only [hfinal e (mem_of_getElem? he'), blocksOf_append]
    by_cases hj : k = j
    · subst hj
      obtain rfl : e = entry := Option.some.inj (he'.symm.trans hentry)
      exact Or.inl huntouched
    · rw [if_neg hj]
      rcases hwhole j e he with hold | ⟨⟨b, hb⟩, hall⟩
      · exact Or.inl hold
      · exact Or.inr ⟨⟨b, mem_append_left _ hb⟩, hall⟩
  · intro _ hno
    simp [hstream] at hno
  · intro _ stream hs
    rw [hstream] at hs
    cases hs
    refine ⟨entry, ⟨?_, ?_, ?_, ?_, ?_⟩⟩
    · simp only [hnum]
      exact hentry
    · simp [hnum, blocksOf_append, hnone]
    · simp only [hnum, blocksOf_append, if_true, hnone]
      exact Disk.content_writeAt_end io hempty bytes
    · exact (hfinal entry hmem).trans huntouched
    · exact ⟨bytes, by simp [hnum]⟩

theorem Inv.switch (hsep : Separated resolve base files)
    (h : Inv resolve base files d₀ s) (hrun : s.ended = false)
    (decompress : Bytes → Bytes)
    (hentry : files[asUsize block.fileNum]? = some entry)
    (hname : validateFileNameNoTraversal entry.name = .ok ())
    (hleft : s.job.dataStream = none → NoLeftover resolve base s)
    (htakes : io.Takes)
    (hswitch : s.job.dataStream ≠ none → (∀ bytes, (asUsize block.fileNum, bytes) ∉ s.written) ∧
      CanOpen resolve io base entry)
    (hid : block.id = s.job.id)
    (hmove : asUsize block.fileNum ≠ asUsize s.job.fileNum ∨ s.job.dataStream = none) :
    Inv resolve base files d₀ (s.advance resolve decompress (.write io block)) := by
  obtain ⟨⟨stream, hjob, hnone⟩, -⟩ := modifyTime_spec resolve io h.writes s.disk
  have hwhole := fun job hfiles => noPartial_modifyTime hsep h hrun io hleft job hfiles s.ended
  have hmem := mem_of_getElem? hentry
  have hnotes := hsep.notes entry hmem
  set d := (s.job.modifyTime resolve io s.disk).2 with hd
  set job : TransferJob := { s.job with dataStream := stream, fileNum := block.fileNum } with hjob'
  have hwrites : Writes base files job := ⟨h.writes.type, h.writes.source, h.writes.files⟩
  have hsync : (stream.isSome && !io.syncs) = false := by
    cases hs : s.job.dataStream with
    | none => simp [hnone.mpr hs]
    | some st => simp [(hswitch (by simp [hs])).2.syncs]
  have hnew : ∀ bytes, (asUsize block.fileNum, bytes) ∉ s.written := by
    cases hs : s.job.dataStream with
    | none =>
      rw [h.idle hrun hs]
      simp
    | some st => exact (hswitch (by simp [hs])).1
  obtain ⟨hother, hopened⟩ := openTarget_spec resolve io hwrites d hnotes
  -- no final path is a download or a note
  have hwhole' : ∀ job' : TransferJob, job'.files = files → NoPartial resolve base d₀
      ⟨job', (job.openTarget resolve io d base entry).2, s.written, s.ended⟩ := by
    intro job' hfiles k e he
    have hemem : e ∈ files := hfiles ▸ mem_of_getElem? he
    simp only
    rw [hother _ (hsep.digests e hemem entry hmem) (hsep.downloads e hemem entry hmem)]
    exact hwhole job' hfiles k e he
  have hwrite : s.job.write resolve decompress io s.disk block =
      match job.openTarget resolve io d base entry with
      | (.error e, d) => (.error e, job, d)
      | (.ok path, d) => TransferJob.writeBytes resolve decompress io
          { job with dataStream := some (.fileStream path 0) } d block :=
    write_switch resolve h.writes decompress hid hentry hmove hjob hsync
  simp only [advance, hwrite]
  rcases hres : job.openTarget resolve io d base entry with ⟨e | path, d'⟩ <;>
    rw [hres] at hwhole' hopened
  · -- the file could not be opened, so none was open before
    have hidle : s.job.dataStream = none := by
      by_contra hsome
      obtain ⟨path, hpath⟩ := openTarget_ok resolve hwrites d (hswitch hsome).2 hname
      simp [hres] at hpath
    refine ⟨hwrites, hwhole' job hwrites.files, fun _ _ => h.idle hrun hidle, ?_⟩
    intro _ st hst
    have : job.dataStream = none := hnone.mpr hidle
    simp [this] at hst
  · obtain ⟨rfl, hempty⟩ := hopened path rfl
    simp only [TransferJob.writeBytes, htakes.kept, htakes.reported, Bool.false_eq_true, if_false,
      Nat.zero_add]
    apply Inv.begin hsep hentry hnew
    · exact ⟨hwrites.type, hwrites.source, hwrites.files⟩
    · rfl
    · exact hwhole' _ hwrites.files
    · exact hempty
    · rfl

theorem advance_same (hw : Writes base files s.job) {pos : Nat}
    (hstream : s.job.dataStream = some (.fileStream path pos)) (htakes : io.Takes)
    (decompress : Bytes → Bytes) (hid : block.id = s.job.id)
    (hentry : files[asUsize block.fileNum]? = some entry)
    (hsame : asUsize block.fileNum = asUsize s.job.fileNum) :
    ∃ job, s.advance resolve decompress (.write io block) =
        ⟨job, s.disk.writeAt io (resolve path) pos (TransferJob.blockBytes decompress block),
          s.written ++ [(asUsize s.job.fileNum, TransferJob.blockBytes decompress block)],
          s.ended⟩ ∧
      Writes base files job ∧ job.fileNum = s.job.fileNum ∧
      job.dataStream = some (.fileStream path
        (pos + (TransferJob.blockBytes decompress block).length)) := by
  unfold advance TransferJob.write
  rw [hsame] at hentry
  simp only [hid, ne_eq, not_true_eq_false, if_false, hw.source, hw.files, hsame, hentry, hstream,
    reduceCtorEq, or_self, TransferJob.writeBytes, htakes.kept, htakes.reported,
    Bool.false_eq_true]
  exact ⟨_, rfl, ⟨hw.type, rfl, rfl⟩, rfl, rfl⟩

omit [DecidableEq P] in
theorem Inv.of_ended (hwrites : Writes base files s.job)
    (hwhole : NoPartial resolve base d₀ s) (hend : s.ended = true) :
    Inv resolve base files d₀ s := by
  refine ⟨hwrites, hwhole, ?_, ?_⟩
  · intro hrun
    simp [hend] at hrun
  · intro hrun
    simp [hend] at hrun

theorem content_removeDownloadFile (hsep : Separated resolve base files) (io : WriteIo P)
    (hw : Writes base files job) (d : Disk P) {e : FileEntry}
    (he : e ∈ files) :
    (job.removeDownloadFile resolve io d).content (final resolve base e) =
      d.content (final resolve base e) := by
  unfold TransferJob.removeDownloadFile
  cases hpath : job.currentPath io.symlinkFree with
  | none => rfl
  | some x =>
    obtain ⟨path, entry⟩ := x
    obtain ⟨hentry, rfl⟩ := currentPath_eq_some hw hpath
    have hmem := mem_of_getElem? hentry
    exact (Disk.content_removeFile io _ (hsep.digests e he entry hmem)).trans
      (Disk.content_removeFile io d (hsep.downloads e he entry hmem))

theorem Inv.write (hsep : Separated resolve base files)
    (hnames : ∀ e ∈ files, validateFileNameNoTraversal e.name = .ok ())
    (h : Inv resolve base files d₀ s) (decompress : Bytes → Bytes) (hrun : s.ended = false)
    (htidy : Tidy resolve base s (.write io block)) :
    Inv resolve base files d₀ (s.advance resolve decompress (.write io block)) := by
  by_cases hid : block.id = s.job.id
  swap
  · have hsame : s.advance resolve decompress (.write io block) = s := by
      simp [advance, TransferJob.write, hid]
    rwa [hsame]
  cases hentry : files[asUsize block.fileNum]? with
  | none =>
    have hsame : s.advance resolve decompress (.write io block) = s := by
      simp [advance, TransferJob.write, hid, h.writes.source, h.writes.files, hentry]
    rwa [hsame]
  | some entry =>
    obtain ⟨htakes, hleft, hswitch⟩ := htidy hrun hid entry (by rw [h.writes.files]; exact hentry)
    by_cases hmove : asUsize block.fileNum ≠ asUsize s.job.fileNum ∨ s.job.dataStream = none
    · refine h.switch hsep hrun decompress hentry
        (hnames entry (mem_of_getElem? hentry)) hleft htakes ?_ hid hmove
      intro hsome
      rcases hmove with hne | hnone
      · exact hswitch hne hsome
      · exact absurd hnone hsome
    · have hsame : asUsize block.fileNum = asUsize s.job.fileNum := by
        by_contra hne
        exact hmove (Or.inl hne)
      cases hstream : s.job.dataStream with
      | none => exact absurd (Or.inr hstream) hmove
      | some stream =>
        obtain ⟨cur, hopen⟩ := h.busy hrun stream hstream
        have hpath := hopen.stream
        subst hpath
        obtain ⟨job, hadvance, hwrites, hnum, hjob⟩ :=
          advance_same h.writes hstream htakes decompress hid hentry hsame
        rw [hadvance]
        exact h.append hsep hrun hstream io hwrites hnum hjob

theorem Inv.step (hsep : Separated resolve base files)
    (hnames : ∀ e ∈ files, validateFileNameNoTraversal e.name = .ok ())
    (h : Inv resolve base files d₀ s) (decompress : Bytes → Bytes) {inp : Input P}
    (htidy : Tidy resolve base s inp) :
    Inv resolve base files d₀ (s.step resolve decompress inp) := by
  by_cases hend : s.ended = true
  · rwa [WriteRun.step, if_pos hend]
  have hrun : s.ended = false := by simpa using hend
  rw [WriteRun.step, if_neg hend]
  cases inp with
  | write io block => exact h.write hsep hnames decompress hrun htidy
  | done io =>
    obtain ⟨⟨stream, hjob, -⟩, -⟩ := modifyTime_spec resolve io h.writes s.disk
    have hwrites : Writes base files (s.job.modifyTime resolve io s.disk).1 := by
      rw [hjob]
      exact ⟨h.writes.type, h.writes.source, h.writes.files⟩
    have hwhole := noPartial_modifyTime hsep h hrun io (htidy hrun) _ hwrites.files true
    exact Inv.of_ended hwrites hwhole rfl
  | cancel io =>
    have hwhole : NoPartial resolve base d₀ (s.advance resolve decompress (.cancel io)) := by
      intro k e he
      have hmem : e ∈ files := h.writes.files ▸ mem_of_getElem? he
      simp only [advance, content_removeDownloadFile hsep io h.writes s.disk hmem]
      exact h.noPartial k e he
    exact Inv.of_ended h.writes hwhole rfl

theorem setFiles_ok {job job' : TransferJob} (h : job.setFiles sf files = .ok job') :
    validateTransferFileNames files = .ok () ∧
      job' = { job with files := files, totalSize := (files.map (·.size)).sum } := by
  unfold setFiles at h
  cases hv : validateTransferFileNames files with
  | error e => simp [hv, bind, Except.bind] at h
  | ok _ =>
    refine ⟨rfl, ?_⟩
    simp only [hv, bind, Except.bind, pure, Except.pure, throw, throwThe, MonadExceptOf.throw] at h
    grind

/-- Accepted names are checked; only the name of a single file may be empty. -/
theorem entries_of_validate (h : validateTransferFileNames files = .ok ()) :
    (∃ f, files = [f] ∧ f.name = "") ∨
      ∀ e ∈ files, e.name ≠ "" ∧ validateFileNameNoTraversal e.name = .ok () := by
  have hforM : ∀ l : List FileEntry, (l.forM fun f =>
      if f.name = "" then .error "empty file name in multi-file transfer"
      else validateFileNameNoTraversal f.name) = (.ok () : Except String Unit) →
      ∀ e ∈ l, e.name ≠ "" ∧ validateFileNameNoTraversal e.name = .ok () := by
    intro l
    induction l with
    | nil =>
      intro _ e he
      cases he
    | cons f l ih =>
      intro hl e he
      simp only [forM_eq_forM, forM_cons, bind, Except.bind] at hl ih
      by_cases hf : f.name = ""
      · simp [hf] at hl
      · cases hv : validateFileNameNoTraversal f.name with
        | error _ => simp [hf, hv] at hl
        | ok _ =>
          rcases mem_cons.mp he with rfl | hmem
          · exact ⟨hf, hv⟩
          · exact ih (by simpa [hf, hv] using hl) e hmem
  unfold validateTransferFileNames at h
  split at h
  · rename_i f
    split at h
    · exact .inl ⟨f, rfl, ‹_›⟩
    · refine .inr fun e he => ?_
      obtain rfl := mem_singleton.mp he
      exact ⟨‹_›, h⟩
  · exact .inr (hforM files h)

theorem names_of_validate (h : validateTransferFileNames files = .ok ()) :
    ∀ e ∈ files, validateFileNameNoTraversal e.name = .ok () := by
  rcases entries_of_validate h with ⟨f, rfl, hname⟩ | hall
  · have hempty : validateFileNameNoTraversal "" = .ok () := by decide
    intro e he
    obtain rfl := mem_singleton.mp he
    rwa [hname]
  · exact fun e he => (hall e he).2

end WriteRun

open Run WriteRun in
/-- **No partial file is published.**  Take any disk, any generic write job whose file
list was accepted and whose paths do not collide, and any sequence of blocks, ended
by completion or cancellation.  If every step is tidy, then at every moment each
final path has its old content or all the bytes this job wrote for that file. -/
theorem no_partial_file {P : Type} [DecidableEq P] (resolve : String → P)
    (decompress : Bytes → Bytes) (sf : String → String → Bool) (id fileNum : Int)
    (base : String) (od : Bool) (note : FileDigest) (files : List FileEntry)
    (job : TransferJob)
    (hjob : (newWrite id .generic (.filePath base) fileNum od).setFiles sf files = .ok job)
    (hsep : Separated resolve base files) (d₀ : Disk P) (is : List (Input P))
    (htidy : Along (step resolve decompress) (Tidy resolve base)
      (start { job with digest := note } d₀) is) :
    Always (step resolve decompress) (NoPartial resolve base d₀)
      (start { job with digest := note } d₀) is := by
  obtain ⟨hvalid, hset⟩ := setFiles_ok hjob
  have hnames := names_of_validate hvalid
  have hinit : Inv resolve base files d₀ (start { job with digest := note } d₀) := by
    rw [hset]
    refine ⟨⟨rfl, rfl, rfl⟩, ?_, fun _ _ => rfl, ?_⟩
    · intro k entry _
      exact Or.inl rfl
    · intro _ stream hstream
      cases hstream
  have hstep : ∀ s inp, Inv resolve base files d₀ s → Tidy resolve base s inp →
      Inv resolve base files d₀ (step resolve decompress s inp) :=
    fun s inp h ht => h.step hsep hnames decompress ht
  intro pre hpre
  exact (always_of_along hstep hinit htidy pre hpre).noPartial

namespace WriteRun

/-- A job that downloads `X` into the directory `d`. -/
def oneFileJob : TransferJob :=
  { newWrite 1 .generic (.filePath "d") 0 false with
    files := [⟨"X", 3, 7⟩], totalSize := 3 }

def oneFileBlock : FileTransferBlock :=
  { id := 1, fileNum := 0, data := [104, 105], compressed := false }

end WriteRun

open Run WriteRun in
/-- A tidy run: on an empty disk, two blocks of one file and the end. -/
theorem no_partial_file_download :
    (newWrite 1 .generic (.filePath "d") 0 false).setFiles (fun _ _ => true)
      [⟨"X", 3, 7⟩] = .ok oneFileJob ∧
    Always (step id id) (NoPartial id "d" (fun _ => none))
      (start { oneFileJob with digest := ⟨3, 7⟩ } (fun _ : String => none))
      [.write (.allOk String) oneFileBlock, .write (.allOk String) oneFileBlock,
        .done (.allOk String)] := by
  refine ⟨by decide, no_partial_file id id (fun _ _ => true) 1 0 "d" false ⟨3, 7⟩
    [⟨"X", 3, 7⟩] oneFileJob (by decide) ?_ (fun _ => none) _ ?_⟩
  · constructor
    · intro i j a b hi hj _
      simp [List.getElem?_cons] at hi hj
      omega
    · unfold final download
      decide
    · unfold final digest
      decide
    · unfold download digest
      decide
  · refine ⟨?_, ?_, ?_, trivial⟩
    · intro _ _ entry hentry
      exact ⟨⟨rfl, rfl⟩, fun _ _ _ => rfl, fun hne => absurd rfl hne⟩
    · intro _ _ entry hentry
      exact ⟨⟨rfl, rfl⟩, fun hnone => absurd hnone (by decide), fun hne => absurd rfl hne⟩
    · intro _ hnone
      cases hnone

open Run WriteRun in
/-- **A leftover is published.**  `X` holds "old" and `X.download` holds "par" from an
interrupted transfer.  A new transfer of `X` receives one block and is cancelled:
`X` now holds "par". -/
theorem stale_download_published :
    let d₀ : Disk String := fun p =>
      if p = "d/X" then some ⟨[111, 108, 100], 1⟩
      else if p = "d/X.download" then some ⟨[112, 97, 114], 1⟩ else none
    let inputs : List (Input String) :=
      [.write (.allOk String) oneFileBlock, .cancel (.allOk String)]
    let s := exec (step id id) (start oneFileJob d₀) inputs
    s.disk.content "d/X" = some [112, 97, 114] ∧
      ¬ Always (step id id) (NoPartial id "d" d₀) (start oneFileJob d₀) inputs := by
  intro d₀ inputs s
  have hpar : s.disk.content "d/X" = some [112, 97, 114] := by decide
  refine ⟨hpar, fun h => ?_⟩
  rcases h.last 0 ⟨"X", 3, 7⟩ rfl with hold | ⟨-, hall⟩
  · exact absurd (hpar.symm.trans hold) (by decide)
  · exact absurd (hpar.symm.trans hall) (by decide)

end RustDesk
