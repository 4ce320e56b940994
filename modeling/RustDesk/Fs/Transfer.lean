import RustDesk.Fs.Write
import RustDesk.Lib.Pieces

/-!
# A whole transfer

A directory tree is listed by `get_recursive_files`.  A read job over this list is
drained: open, read, until it ends.  Its blocks are written by a job on the other
side, into an empty directory, and `modify_time` finishes the last file.

The compressor may fail, and then returns nothing.  It may do so at any call, so the
`i`-th pass of the loop has its own compressor and its own reads.

`transfer_reproduces`: the transfer always comes to its end, and the source tree has
been reproduced exactly when the job began at its first file and the compressor
failed on no piece of a file that is compressed.
-/

namespace RustDesk

open Pieces Function
open TransferJob (beginFile blank blockBytes bufSize finishFile isFilePath joinValidatedPath
  modifyTime newRead newWrite nextFile openDataStream openTarget packBlock readLoop readStream writeBytes)

inductive Node where
  | file (name : String) (content : Bytes) (mtime : Nat)
  | dir (name : String) (entries : List Node)
  | link (name : String)

inductive SourceTree where
  | file (content : Bytes) (mtime : Nat)
  | dir (entries : List Node)
  | absent

namespace Node

def name : Node → String
  | .file name _ _ => name
  | .dir name _ => name
  | .link name => name

/-- `read_dir` passes this entry over. -/
def isSkipped (includeHidden : Bool) (node : Node) : Bool :=
  node.name = "" || (node.name.toList.head? = some '.' && !includeHidden)

mutual

/-- One entry in the loop of `read_dir_recursive`. -/
def readEntry (includeHidden : Bool) (pre : String) : Node → List FileEntry
  | .file name content mtime =>
    if isSkipped includeHidden (.file name content mtime) then []
    else [⟨pathJoin pre name, content.length, mtime⟩]
  | .dir name entries =>
    if isSkipped includeHidden (.dir name entries) then []
    else readDirRecursive includeHidden (pathJoin pre name) entries
  | .link _ => []

/-- `read_dir_recursive` on the entries of a directory. -/
def readDirRecursive (includeHidden : Bool) (pre : String) : List Node → List FileEntry
  | [] => []
  | node :: rest =>
    readEntry includeHidden pre node ++ readDirRecursive includeHidden pre rest

end
end Node

def getRecursiveFiles (includeHidden : Bool) : SourceTree → Except String (List FileEntry)
  | .dir entries => .ok (Node.readDirRecursive includeHidden "" entries)
  | .file content mtime => .ok [⟨"", content.length, mtime⟩]
  | .absent => .error "Not exists"

structure SourceFile where
  name : String
  content : Bytes
  mtime : Nat
  deriving DecidableEq

def SourceFile.entry (f : SourceFile) : FileEntry := ⟨f.name, f.content.length, f.mtime⟩

namespace Node

mutual

def files (includeHidden : Bool) (pre : String) : Node → List SourceFile
  | .file name content mtime =>
    if isSkipped includeHidden (.file name content mtime) then []
    else [⟨pathJoin pre name, content, mtime⟩]
  | .dir name entries =>
    if isSkipped includeHidden (.dir name entries) then []
    else filesBelow includeHidden (pathJoin pre name) entries
  | .link _ => []

def filesBelow (includeHidden : Bool) (pre : String) : List Node → List SourceFile
  | [] => []
  | node :: rest => files includeHidden pre node ++ filesBelow includeHidden pre rest

end

mutual

theorem readEntry_eq (includeHidden : Bool) (pre : String) (node : Node) :
    readEntry includeHidden pre node = (files includeHidden pre node).map (·.entry) := by
  cases node with
  | file name content mtime =>
    simp only [readEntry, files]
    split <;> rfl
  | dir name entries =>
    simp only [readEntry, files]
    split
    · rfl
    · exact readDirRecursive_eq includeHidden _ entries
  | link name => rfl

theorem readDirRecursive_eq (includeHidden : Bool) (pre : String) (nodes : List Node) :
    readDirRecursive includeHidden pre nodes =
      (filesBelow includeHidden pre nodes).map (·.entry) := by
  cases nodes with
  | nil => rfl
  | cons node rest =>
    rw [readDirRecursive, filesBelow, List.map_append, readEntry_eq includeHidden pre node,
      readDirRecursive_eq includeHidden pre rest]

end
end Node

def SourceTree.files (includeHidden : Bool) : SourceTree → List SourceFile
  | .dir entries => Node.filesBelow includeHidden "" entries
  | .file content mtime => [⟨"", content, mtime⟩]
  | .absent => []

theorem getRecursiveFiles_eq {includeHidden : Bool} {tree : SourceTree} (h : tree ≠ .absent) :
    getRecursiveFiles includeHidden tree = .ok ((tree.files includeHidden).map (·.entry)) := by
  cases tree with
  | dir entries => exact congrArg Except.ok (Node.readDirRecursive_eq includeHidden "" entries)
  | file content mtime => rfl
  | absent => exact absurd rfl h

structure ReadEnv where
  compress : Bytes → Bytes
  io : ReadIo

/-- Drain a read job: open the current file and read a block, until the job ends.
`none` means out of fuel. -/
def drain (env : Nat → ReadEnv) : Nat → Nat → TransferJob →
    Option (Except String (List FileTransferBlock))
  | 0, _, _ => none
  | fuel + 1, i, job =>
    match job.openDataStream (env i).io with
    | (.error e, _) => some (.error e)
    | (.ok true, _) => some (.ok [])
    | (.ok false, job) =>
      match job.read (env i).compress (env i).io with
      | (.error e, _) => some (.error e)
      | (.ok none, _) => some (.ok [])
      | (.ok (some block), job) =>
        (drain env fuel (i + 1) job).map fun blocks => blocks.map (block :: ·)

/-- Reading works: the file opens, and successive reads from a position return the
rest of it, in parts of any size. -/
structure Reads (io : ReadIo) (path : String) (content : Bytes) : Prop where
  opens : io.openFile path = .ok ()
  reads : ∀ pos, ∃ parts : List Bytes, io.reads path pos = parts.map .ok ∧
    (∀ part ∈ parts, part ≠ []) ∧ parts.flatten = content.drop pos

theorem readLoop_parts (parts : List Bytes) (hne : ∀ part ∈ parts, part ≠ []) (buf : Bytes)
    (hbuf : buf.length < bufSize) :
    readLoop buf (parts.map .ok) = .ok (buf ++ parts.flatten.take (bufSize - buf.length)) := by
  induction parts generalizing buf with
  | nil => simp [readLoop]
  | cons part parts ih =>
    have hpart := List.length_pos_iff.mpr (hne part (List.mem_cons_self ..))
    have hsome : (part.take (bufSize - buf.length)).isEmpty = false := by
      rw [List.isEmpty_eq_false_iff]
      apply List.ne_nil_of_length_pos
      rw [List.length_take]
      omega
    simp only [List.map_cons, readLoop, hsome, Bool.false_eq_true, false_or,
      List.length_append, List.length_take, List.flatten_cons, List.take_append]
    split
    · have hzero : bufSize - buf.length - part.length = 0 := by omega
      simp [hzero]
    · have hall : part.take (bufSize - buf.length) = part := by
        rw [List.take_of_length_le]
        omega
      rw [hall, ih (fun p hp => hne p (List.mem_cons_of_mem _ hp))]
      · simp [Nat.sub_sub]
      · simp
        omega

structure Sending (p : String) (id : Int) (sources : List SourceFile) (job : TransferJob) :
    Prop where
  source : job.dataSource = .filePath p
  files : job.files = sources.map (·.entry)
  overwrite : job.enableOverwriteDetection = false
  id : job.id = id

structure SendingAt (p : String) (id : Int) (sources : List SourceFile) (k : Nat)
    (f : SourceFile) (rest : Bytes) (job : TransferJob) : Prop
    extends Sending p id sources job where
  num : job.fileNum = k
  current : sources[k]? = some f
  stream : (∃ pos, job.dataStream = some (.fileStream (TransferJob.join p f.name) pos) ∧
      f.content.drop pos = rest) ∨
    job.dataStream = none ∧ f.content = rest

/-- `read` compresses the pieces of this file. -/
def compressible (p : String) (sources : List SourceFile) (f : SourceFile) : Bool :=
  !isCompressedFile (if sources.length = 1 ∧ f.name = "" then fileName p else f.name)

theorem asUsize_natCast (k : Nat) : asUsize (k : Int) = k := by
  unfold asUsize
  split <;> omega

section

variable {p : String} {id : Int} {sources : List SourceFile} {k : Nat} {f : SourceFile}
  {rest : Bytes} {job : TransferJob} {io : ReadIo}

theorem SendingAt.entry (h : SendingAt p id sources k f rest job) :
    job.files[asUsize job.fileNum]? = some f.entry := by
  rw [h.files, h.num, asUsize_natCast, List.getElem?_map, h.current]
  rfl

theorem SendingAt.openDataStream (h : SendingAt p id sources k f rest job)
    (hreads : Reads io (TransferJob.join p f.name) f.content) :
    ∃ job' pos, job.openDataStream io = (.ok false, job') ∧
      SendingAt p id sources k f rest job' ∧
      job'.dataStream = some (.fileStream (TransferJob.join p f.name) pos) ∧
      f.content.drop pos = rest := by
  unfold TransferJob.openDataStream
  simp only [h.source, h.entry]
  rcases h.stream with ⟨pos, hopen, hrest⟩ | ⟨hnone, hrest⟩
  · simp only [hopen]
    exact ⟨job, pos, rfl, h, hopen, hrest⟩
  · have hpath : TransferJob.join p f.entry.name = TransferJob.join p f.name := rfl
    simp only [hnone, hpath, hreads.opens]
    exact ⟨_, 0, rfl, ⟨⟨rfl, h.files, h.overwrite, h.id⟩, h.num, h.current,
      Or.inl ⟨0, rfl, hrest⟩⟩, rfl, hrest⟩

/-- **What `read` returns**: the next piece, packed, or at the end an empty block. -/
theorem SendingAt.read (h : SendingAt p id sources k f rest job) {pos : Nat}
    (hopen : job.dataStream = some (.fileStream (TransferJob.join p f.name) pos))
    (hrest : f.content.drop pos = rest)
    (hreads : Reads io (TransferJob.join p f.name) f.content) (compress : Bytes → Bytes) :
    let buf := rest.take bufSize
    let packed := packBlock compress (compressible p sources f) buf
    (rest = [] → job.read compress io = (.ok (some ⟨id, k, [], false⟩), job.nextFile)) ∧
    (rest ≠ [] → ∃ job', job.read compress io = (.ok (some ⟨id, k, packed.1, packed.2⟩), job') ∧
      SendingAt p id sources k f (rest.drop bufSize) job') := by
  intro buf packed
  obtain ⟨parts, hparts, hne, hflat⟩ := hreads.reads pos
  have hloop : readLoop [] (io.reads (TransferJob.join p f.name) pos) = .ok buf := by
    rw [hparts, readLoop_parts parts hne [] (by decide), hflat, hrest]
    rfl
  have hstream : readStream io (.fileStream (TransferJob.join p f.name) pos) =
      .ok (buf, .fileStream (TransferJob.join p f.name) (pos + buf.length)) := by
    simp [readStream, hloop, bind, Except.bind, pure, Except.pure]
  have hname : job.currentName = some (if sources.length = 1 ∧ f.name = "" then fileName p
      else f.name) := by
    have hlen : job.files.length = sources.length := by simp [h.files]
    simp only [TransferJob.currentName, h.source, h.entry, Option.map_some, hlen]
    rfl
  have hfile : job.isFilePath = true := by simp [isFilePath, h.source]
  have hbuf : buf = [] ↔ rest = [] := by simp [buf, bufSize]
  unfold TransferJob.read
  simp only [h.overwrite, Bool.false_eq_true, false_and, and_false, if_false, hname, hopen,
    hstream, hfile, if_true, Bool.true_and, h.id, h.num, List.isEmpty_iff, hbuf]
  constructor
  · intro hend
    simp [hend]
  · intro hmore
    simp only [hmore, if_false]
    refine ⟨_, rfl, ⟨h.source, h.files, rfl, rfl⟩, rfl, h.current, Or.inl
      ⟨pos + buf.length, rfl, ?_⟩⟩
    rw [← List.drop_drop, hrest]
    by_cases hfull : bufSize ≤ rest.length
    · rw [List.length_take, Nat.min_eq_left hfull]
    · rw [List.drop_eq_nil_of_le (by rw [List.length_take]; omega),
        List.drop_eq_nil_of_le (by omega)]

/-- The blocks of the remaining pieces of a file, read from the `i`-th pass on. -/
def sendFile (compress : Nat → Bytes → Bytes) (zip : Bool) (id : Int) (k : Nat) :
    Nat → List Bytes → List FileTransferBlock
  | _, [] => [⟨id, k, [], false⟩]
  | i, piece :: pieces =>
    let packed := packBlock (compress i) zip piece
    ⟨id, k, packed.1, packed.2⟩ :: sendFile compress zip id k (i + 1) pieces

def SourceFile.pieces (f : SourceFile) : List Bytes := Pieces.pieces bufSize f.content

def SourceFile.passes (f : SourceFile) : Nat := f.pieces.length + 1

def sendFiles (compress : Nat → Bytes → Bytes) (zip : SourceFile → Bool) (id : Int) :
    Nat → Nat → List SourceFile → List FileTransferBlock
  | _, _, [] => []
  | i, k, f :: fs =>
    sendFile compress (zip f) id k i f.pieces ++ sendFiles compress zip id (i + f.passes) (k + 1) fs

theorem drain_pass {env : Nat → ReadEnv} {fuel i : Nat} {job job₁ job₂ : TransferJob}
    {block : FileTransferBlock} {tail : List FileTransferBlock}
    (hopen : job.openDataStream (env i).io = (.ok false, job₁))
    (hread : job₁.read (env i).compress (env i).io = (.ok (some block), job₂))
    (htail : drain env fuel (i + 1) job₂ = some (.ok tail)) :
    drain env (fuel + 1) i job = some (.ok (block :: tail)) := by
  simp only [drain, hopen, hread, htail]
  rfl

theorem drain_file {env : Nat → ReadEnv} (hreads : ∀ i, Reads (env i).io
      (TransferJob.join p f.name) f.content)
    {fuel : Nat} {tail : List FileTransferBlock} {n : Nat}
    (htail : ∀ job', Sending p id sources job' → job'.fileNum = (k : Int) + 1 →
      job'.dataStream = none → drain env fuel n job' = some (.ok tail))
    {i : Nat} (h : SendingAt p id sources k f rest job)
    (hn : n = i + (pieces bufSize rest).length + 1) :
    drain env (fuel + (pieces bufSize rest).length + 1) i job =
      some (.ok (sendFile (fun i => (env i).compress) (compressible p sources f) id k i
        (pieces bufSize rest) ++ tail)) := by
  have hsize : 0 < bufSize := by decide
  induction rest using drop_induction hsize generalizing i job with
  | nil =>
    obtain ⟨job', pos, hopen, hat, hstream, hrest⟩ := h.openDataStream (hreads i)
    have hread := (hat.read hstream hrest (hreads i) (env i).compress).1 rfl
    have hnum : job'.nextFile.fileNum = (k : Int) + 1 := by simp [nextFile, hat.num]
    simp only [pieces_nil, List.length_nil, Nat.add_zero] at hn ⊢
    subst hn
    exact drain_pass hopen hread
      (htail job'.nextFile ⟨hat.source, hat.files, hat.overwrite, hat.id⟩ hnum rfl)
  | cons rest hne ih =>
    obtain ⟨job', pos, hopen, hat, hstream, hrest⟩ := h.openDataStream (hreads i)
    obtain ⟨job'', hread, hat'⟩ := (hat.read hstream hrest (hreads i) (env i).compress).2 hne
    rw [pieces_cons hsize hne, List.length_cons] at hn ⊢
    have hrec := ih hat' (i := i + 1) (by omega)
    rw [← Nat.add_assoc]
    exact drain_pass hopen hread hrec

theorem drain_files {env : Nat → ReadEnv} (fs : List SourceFile)
    (hreads : ∀ i, ∀ f ∈ fs, Reads (env i).io (TransferJob.join p f.name) f.content)
    (h : Sending p id sources job) (hnum : job.fileNum = k) (hfs : sources.drop k = fs)
    (hstream : job.dataStream = none) (i : Nat) :
    drain env ((fs.map (·.passes)).sum + 1) i job =
      some (.ok (sendFiles (fun i => (env i).compress) (compressible p sources) id i k fs)) := by
  induction fs generalizing k i job with
  | nil =>
    have hend : job.files[asUsize job.fileNum]? = none := by
      simpa [h.files, hnum, asUsize_natCast] using hfs
    simp [drain, openDataStream, h.source, hend, sendFiles]
  | cons f fs ih =>
    have hcur : sources[k]? = some f := by
      rw [← List.head?_drop, hfs]
      rfl
    have hnext : sources.drop (k + 1) = fs := by
      rw [← List.tail_drop, hfs]
      rfl
    have hat : SendingAt p id sources k f f.content job := ⟨h, hnum, hcur, Or.inr ⟨hstream, rfl⟩⟩
    have hfile := drain_file (fun i => hreads i f (List.mem_cons_self ..))
      (fun job' hjob' hnum' hstream' => ih
        (fun i g hg => hreads i g (List.mem_cons_of_mem f hg)) hjob' (by simp [hnum']) hnext
        hstream' (i + f.passes))
      hat rfl
    have hfuel : ((f :: fs).map (·.passes)).sum + 1 =
        (fs.map (·.passes)).sum + 1 + (pieces bufSize f.content).length + 1 := by
      simp only [List.map_cons, List.sum_cons, SourceFile.passes, SourceFile.pieces]
      omega
    rw [hfuel]
    exact hfile

end

/-- Every operation on the disk succeeds, and there is no link. -/
structure Works {P : Type} (io : WriteIo P) : Prop where
  usable : ∀ q, io.usable q = true
  free : ∀ q, io.occupied q = false
  syncs : io.syncs = true
  links : ∀ base name, io.symlinkFree base name = true
  takes : io.Takes

section

variable {P : Type} [DecidableEq P] (resolve : String → P) (decompress : Bytes → Bytes)

def receive (io : Nat → WriteIo P) : Nat → List FileTransferBlock → TransferJob → Disk P →
    Except String Unit × TransferJob × Disk P
  | _, [], job, d => (.ok (), job, d)
  | i, block :: blocks, job, d =>
    match job.write resolve decompress (io i) d block with
    | (.ok (), job, d) => receive io (i + 1) blocks job d
    | (.error e, job, d) => (.error e, job, d)

namespace Disk

variable {io : WriteIo P} (h : Works io)

include h

theorem removeFile_works (d : Disk P) (q : P) : (d.removeFile io q).2 = update d q none := by
  unfold removeFile
  cases hq : d q with
  | none =>
    simp only [Option.isSome_none, Bool.false_and, Bool.false_eq_true, if_false]
    exact (update_eq_self_iff.mpr hq.symm).symm
  | some node => simp [h.usable]

theorem rename_works {d : Disk P} {src : P} {node : FileNode} (dst : P) (hsrc : d src = some node) :
    d.rename io src dst = (true, update (update d src none) dst (some node)) := by
  simp [rename, hsrc, h.usable]

theorem setFileMtime_works {d : Disk P} {q : P} {node : FileNode} (mtime : Nat)
    (hq : d q = some node) :
    d.setFileMtime io q mtime = update d q (some ⟨node.content, mtime⟩) := by
  simp [setFileMtime, hq, h.usable]

theorem createFile_works (d : Disk P) (q : P) (bytes : Bytes) :
    d.createFile io q bytes = (true, update d q (some ⟨bytes, io.now⟩)) := by
  simp [createFile, h.usable, h.free]

end Disk

open WriteRun

def downloading (base : String) (d : Disk P) (entry : FileEntry) (node note : FileNode) : Disk P :=
  update (update d (download resolve base entry) (some node))
    (digest resolve base entry) (some note)

def finished (base : String) (d : Disk P) (entry : FileEntry) (bytes : Bytes) : Disk P :=
  update d (final resolve base entry) (some ⟨bytes, entry.modifiedTime⟩)

def Clean (base : String) (d : Disk P) (entry : FileEntry) : Prop :=
  d (download resolve base entry) = none ∧ d (digest resolve base entry) = none

/-- The receiving job has a file open and has written some bytes of it; `d` is the
disk without that file. -/
structure Busy (base : String) (files : List FileEntry) (k : Nat) (entry : FileEntry)
    (d : Disk P) (bytes : Bytes) (job : TransferJob) (disk : Disk P) : Prop where
  writes : Writes base files job
  num : asUsize job.fileNum = k
  current : files[k]? = some entry
  stream : job.dataStream =
    some (.fileStream (TransferJob.join base entry.name ++ ".download") bytes.length)
  disk : ∃ time note, disk = downloading resolve base d entry ⟨bytes, time⟩ note
  clean : Clean resolve base d entry

/-- Between two files: finishing the current file will leave the disk `d`, and a block
of the `k`-th file begins that file. -/
structure Ready (base : String) (files : List FileEntry) (k : Nat) (d : Disk P)
    (job : TransferJob) (disk : Disk P) : Prop where
  writes : Writes base files job
  finish : ∀ io, Works io → (job.modifyTime resolve io disk).2 = d
  moves : k ≠ asUsize job.fileNum ∨ job.dataStream = none

variable {resolve} {base : String} {files : List FileEntry} {entry : FileEntry}

theorem finishFile_downloading (hsep : Separated resolve base files) (hentry : entry ∈ files)
    {io : WriteIo P} (hio : Works io) {d : Disk P} (hclean : Clean resolve base d entry)
    (node note : FileNode) :
    finishFile resolve io (downloading resolve base d entry node note)
      (TransferJob.join base entry.name) entry.modifiedTime =
      (true, finished resolve base d entry node.content) := by
  have hnotes := hsep.notes entry hentry
  have hremove : ((downloading resolve base d entry node note).removeFile io
      (digest resolve base entry)).2 =
      update d (download resolve base entry) (some node) := by
    rw [Disk.removeFile_works hio, downloading, update_idem]
    apply update_eq_self_iff.mpr
    rw [update_of_ne hnotes.symm, hclean.2]
  have hback : update (update d (download resolve base entry) (some node))
      (download resolve base entry) none = d := by
    rw [update_idem]
    exact update_eq_self_iff.mpr hclean.1.symm
  have hsteps : finishFile resolve io (downloading resolve base d entry node note)
      (TransferJob.join base entry.name) entry.modifiedTime =
      let renamed := ((downloading resolve base d entry node note).removeFile io
        (digest resolve base entry)).2.rename io (download resolve base entry)
        (final resolve base entry)
      (renamed.1, renamed.2.setFileMtime io (final resolve base entry) entry.modifiedTime) := rfl
  have hthere : update d (download resolve base entry) (some node)
      (download resolve base entry) = some node := update_self ..
  rw [hsteps, hremove, Disk.rename_works hio _ hthere, hback]
  have hnew : update d (final resolve base entry) (some node)
      (final resolve base entry) = some node := update_self ..
  simp only
  rw [Disk.setFileMtime_works hio _ hnew, update_idem]
  rfl

theorem finishFile_nothing (io : WriteIo P) (path : String) (mtime : Nat) :
    finishFile resolve io (fun _ => none) path mtime = (false, fun _ => none) := by
  simp [finishFile, Disk.removeFile, Disk.rename, Disk.setFileMtime]

theorem modifyTime_nothing (io : WriteIo P) (job : TransferJob) :
    (job.modifyTime resolve io (fun _ => none)).2 = fun _ => none := by
  unfold modifyTime
  split
  · rfl
  · simp only [finishFile_nothing]

theorem writeAt_downloading (hsep : Separated resolve base files) (hentry : entry ∈ files)
    (io : WriteIo P) (d : Disk P) (node note : FileNode) (bytes : Bytes) :
    (downloading resolve base d entry node note).writeAt io (download resolve base entry)
      node.content.length bytes =
      downloading resolve base d entry ⟨node.content ++ bytes, io.now⟩ note := by
  have hnotes := hsep.notes entry hentry
  have hthere : downloading resolve base d entry node note (download resolve base entry) =
      some node := by
    rw [downloading, update_of_ne hnotes, update_self]
  unfold Disk.writeAt
  simp only [hthere, Disk.overwrite, Nat.sub_self, List.replicate_zero, List.append_nil,
    List.take_length, List.drop_of_length_le (Nat.le_add_right _ _)]
  rw [downloading, update_comm hnotes.symm, update_idem]
  rfl

variable {d disk : Disk P} {bytes : Bytes}

variable {job : TransferJob}

theorem Busy.writeBytes (hsep : Separated resolve base files) {io : WriteIo P} (hio : Works io)
    {k : Nat}
    (h : Busy resolve base files k entry d bytes job disk) (block : FileTransferBlock) :
    ∃ job' disk', job.writeBytes resolve decompress io disk block = (.ok (), job', disk') ∧
      Busy resolve base files k entry d (bytes ++ blockBytes decompress block)
        job' disk' ∧ job'.id = job.id := by
  obtain ⟨time, note, rfl⟩ := h.disk
  have hmem := List.mem_of_getElem? h.current
  unfold writeBytes
  simp only [h.stream, hio.takes.kept, hio.takes.reported, Bool.false_eq_true, if_false]
  refine ⟨_, _, rfl, ⟨⟨h.writes.type, h.writes.source, h.writes.files⟩, h.num, h.current, ?_, ?_,
    h.clean⟩, rfl⟩
  · simp
  · exact ⟨io.now, note, writeAt_downloading hsep hmem io d ⟨bytes, time⟩ note _⟩

theorem Busy.write (hsep : Separated resolve base files) {io : WriteIo P} (hio : Works io)
    {k : Nat}
    (h : Busy resolve base files k entry d bytes job disk) (block : FileTransferBlock)
    (hid : block.id = job.id) (hnum : block.fileNum = k) :
    ∃ job' disk', job.write resolve decompress io disk block = (.ok (), job', disk') ∧
      Busy resolve base files k entry d (bytes ++ blockBytes decompress block)
        job' disk' ∧ job'.id = job.id := by
  have hk : asUsize block.fileNum = k := by rw [hnum, asUsize_natCast]
  have hwrite : job.write resolve decompress io disk block =
      job.writeBytes resolve decompress io disk block := by
    unfold TransferJob.write
    simp [hid, h.writes.source, h.writes.files, hk, h.current, h.num, h.stream]
  rw [hwrite]
  exact h.writeBytes decompress hsep hio block

theorem write_begin (hsep : Separated resolve base files)
    (hname : validateFileNameNoTraversal entry.name = .ok ()) {io : WriteIo P} (hio : Works io)
    {k : Nat} (hw : Writes base files job)
    (hentry : files[k]? = some entry) (hfin : (job.modifyTime resolve io disk).2 = d)
    (hclean : Clean resolve base d entry)
    (hmove : k ≠ asUsize job.fileNum ∨ job.dataStream = none) (block : FileTransferBlock)
    (hid : block.id = job.id) (hnum : block.fileNum = k) :
    ∃ job' disk', job.write resolve decompress io disk block = (.ok (), job', disk') ∧
      Busy resolve base files k entry d (blockBytes decompress block)
        job' disk' ∧ job'.id = job.id := by
  have hk : asUsize block.fileNum = k := by rw [hnum, asUsize_natCast]
  obtain ⟨⟨stream, hjob, -⟩, -⟩ := modifyTime_spec resolve io hw disk
  set job₁ : TransferJob := { job with dataStream := stream, fileNum := block.fileNum } with hjob₁
  have hjoin : joinValidatedPath io.symlinkFree base entry.name =
      .ok (TransferJob.join base entry.name) := by
    simp [joinValidatedPath, hname, bind, Except.bind, hio.links]
  have hbegin : beginFile io d (download resolve base entry)
      (digest resolve base entry) (digestJson job.digest) =
      (.ok (), downloading resolve base d entry ⟨[], io.now⟩ ⟨digestJson job.digest, io.now⟩) := by
    simp [beginFile, hclean.2, hio.free, Disk.createFile_works hio, downloading]
  have hopen : job₁.openTarget resolve io d base entry =
      (.ok (TransferJob.join base entry.name ++ ".download"),
        downloading resolve base d entry ⟨[], io.now⟩ ⟨digestJson job.digest, io.now⟩) := by
    unfold openTarget
    simp only [hjob₁, hw.type, hjoin]
    change (Except.map _ (beginFile io d (download resolve base entry)
      (digest resolve base entry) (digestJson job.digest)).1, (beginFile io d
      (download resolve base entry) (digest resolve base entry) (digestJson job.digest)).2) = _
    rw [hbegin]
    rfl
  have hwrite : job.write resolve decompress io disk block =
      writeBytes resolve decompress io { job₁ with
        dataStream := some (.fileStream (TransferJob.join base entry.name ++ ".download") 0) }
        (downloading resolve base d entry ⟨[], io.now⟩ ⟨digestJson job.digest, io.now⟩) block := by
    rw [write_switch resolve hw decompress hid (by rw [hk]; exact hentry) (by rw [hk]; exact hmove)
      hjob (by simp [hio.syncs]), hfin, hopen]
  have hbusy : Busy resolve base files k entry d [] { job₁ with
      dataStream := some (.fileStream (TransferJob.join base entry.name ++ ".download") 0) }
      (downloading resolve base d entry ⟨[], io.now⟩ ⟨digestJson job.digest, io.now⟩) :=
    ⟨⟨hw.type, hw.source, hw.files⟩, hk, hentry, rfl, ⟨_, _, rfl⟩, hclean⟩
  rw [hwrite]
  exact hbusy.writeBytes decompress hsep hio block

theorem Busy.ready (hsep : Separated resolve base files)
    (hname : validateFileNameNoTraversal entry.name = .ok ()) {k : Nat}
    (h : Busy resolve base files k entry d bytes job disk) :
    Ready resolve base files (k + 1) (finished resolve base d entry bytes) job disk := by
  refine ⟨h.writes, ?_, Or.inl (by rw [h.num]; omega)⟩
  intro io hio
  have hjoin : joinValidatedPath io.symlinkFree base entry.name =
      .ok (TransferJob.join base entry.name) := by
    simp [joinValidatedPath, hname, bind, Except.bind, hio.links]
  have hpath : job.currentPath io.symlinkFree = some (TransferJob.join base entry.name, entry) := by
    simp [TransferJob.currentPath, h.writes.type, h.writes.source, h.writes.files, h.num,
      h.current, TransferJob.resolveEntryPath, hjoin, Except.toOption]
  obtain ⟨time, note, rfl⟩ := h.disk
  unfold modifyTime
  simp only [hpath]
  rw [finishFile_downloading hsep (List.mem_of_getElem? h.current) hio h.clean]

/-- What arrives of the pieces of a file that are read from the `i`-th pass on. -/
def arrival (decompress : Bytes → Bytes) (compress : Nat → Bytes → Bytes) (zip : Bool) :
    Nat → List Bytes → List Bytes
  | _, [] => []
  | i, piece :: pieces =>
    let packed := packBlock (compress i) zip piece
    (if packed.2 then decompress packed.1 else packed.1) ::
      arrival decompress compress zip (i + 1) pieces

variable (compress : Nat → Bytes → Bytes) (zip : Bool) (id : Int) (io : Nat → WriteIo P)

/-- The blocks of a file go to it, if the first one does. -/
theorem receive_pieces (hsep : Separated resolve base files) (hio : ∀ n, Works (io n)) {k : Nat}
    {d : Disk P} (tail : List FileTransferBlock) (pieces : List Bytes) (bytes : Bytes) {i n : Nat}
    {disk : Disk P} (hid : job.id = id)
    (hfirst : ∀ block : FileTransferBlock, block.id = job.id → block.fileNum = k →
      ∃ job' disk', job.write resolve decompress (io n) disk block = (.ok (), job', disk') ∧
        Busy resolve base files k entry d (bytes ++ blockBytes decompress block)
          job' disk' ∧ job'.id = job.id) :
    ∃ n' job' disk', RustDesk.receive resolve decompress io n
        (sendFile compress zip id k i pieces ++ tail) job disk =
      RustDesk.receive resolve decompress io n' tail job' disk' ∧
      Busy resolve base files k entry d
        (bytes ++ (arrival decompress compress zip i pieces).flatten) job' disk' ∧
      job'.id = id := by
  induction pieces generalizing i n bytes job disk with
  | nil =>
    obtain ⟨job', disk', hwrite, hbusy, hid'⟩ := hfirst ⟨id, k, [], false⟩ hid.symm rfl
    refine ⟨n + 1, job', disk', ?_, ?_, hid'.trans hid⟩
    · simp [sendFile, RustDesk.receive, hwrite]
    · simpa [arrival, blockBytes] using hbusy
  | cons piece pieces ih =>
    set packed := packBlock (compress i) zip piece with hpacked
    obtain ⟨job₁, disk₁, hwrite, hbusy, hid₁⟩ := hfirst ⟨id, k, packed.1, packed.2⟩ hid.symm rfl
    obtain ⟨n', job', disk', hrec, hbusy', hid'⟩ :=
      ih _ (i := i + 1) (n := n + 1) (hid₁.trans hid)
        fun block hblock hnum => hbusy.write decompress hsep (hio _) block hblock hnum
    refine ⟨n', job', disk', ?_, ?_, hid'⟩
    · simp only [sendFile, List.cons_append, RustDesk.receive, ← hpacked, hwrite, hrec]
    · simpa [arrival, ← hpacked, blockBytes] using hbusy'

theorem Ready.receive (hsep : Separated resolve base files)
    (hname : validateFileNameNoTraversal entry.name = .ok ()) (hio : ∀ n, Works (io n))
    {k : Nat} (hentry : files[k]? = some entry) {d : Disk P}
    (hclean : Clean resolve base d entry) (tail : List FileTransferBlock) (pieces : List Bytes)
    {i n : Nat} {disk : Disk P}
    (h : Ready resolve base files k d job disk) (hid : job.id = id) :
    ∃ n' job' disk', RustDesk.receive resolve decompress io n
        (sendFile compress zip id k i pieces ++ tail) job disk =
      RustDesk.receive resolve decompress io n' tail job' disk' ∧
      Ready resolve base files (k + 1) (finished resolve base d entry
        (arrival decompress compress zip i pieces).flatten) job' disk' ∧ job'.id = id := by
  obtain ⟨n', job', disk', hrec, hbusy, hid'⟩ := receive_pieces decompress compress zip id io hsep
    hio tail pieces [] (i := i) (n := n) hid
    (write_begin decompress hsep hname (hio n) h.writes hentry (h.finish _ (hio n)) hclean h.moves)
  exact ⟨n', job', disk', hrec, hbusy.ready hsep hname, hid'⟩

def publish (resolve : String → P) (base : String) (decompress : Bytes → Bytes)
    (compress : Nat → Bytes → Bytes) (zip : SourceFile → Bool) :
    Nat → List SourceFile → Disk P → Disk P
  | _, [], d => d
  | i, f :: fs, d =>
    publish resolve base decompress compress zip (i + f.passes) fs
      (finished resolve base d f.entry (arrival decompress compress (zip f) i f.pieces).flatten)

omit zip in
theorem receive_files {sources : List SourceFile} (zip : SourceFile → Bool)
    (hsep : Separated resolve base (sources.map (·.entry)))
    (hnames : ∀ f ∈ sources, validateFileNameNoTraversal f.name = .ok ())
    (hio : ∀ n, Works (io n)) (fs : List SourceFile) {k i n : Nat} (hfs : sources.drop k = fs)
    {d : Disk P} (hclean : ∀ f ∈ sources, Clean resolve base d f.entry) {job : TransferJob}
    {disk : Disk P} (h : Ready resolve base (sources.map (·.entry)) k d job disk)
    (hid : job.id = id) :
    ∃ job' disk', RustDesk.receive resolve decompress io n
        (sendFiles compress zip id i k fs) job disk = (.ok (), job', disk') ∧
      Ready resolve base (sources.map (·.entry)) (k + fs.length)
        (publish resolve base decompress compress zip i fs d) job' disk' := by
  induction fs generalizing k i n d job disk with
  | nil => exact ⟨job, disk, rfl, h⟩
  | cons f fs ih =>
    have hcur : sources[k]? = some f := by
      rw [← List.head?_drop, hfs]
      rfl
    have hnext : sources.drop (k + 1) = fs := by
      rw [← List.tail_drop, hfs]
      rfl
    have hmem := List.mem_of_getElem? hcur
    have hentry : (sources.map (·.entry))[k]? = some f.entry := by simp [hcur]
    have hname : validateFileNameNoTraversal f.entry.name = .ok () := hnames f hmem
    obtain ⟨n', job₁, disk₁, hreceive, hready, hid₁⟩ := h.receive decompress compress (zip f) id
      io hsep hname hio hentry (hclean f hmem)
      (sendFiles compress zip id (i + f.passes) (k + 1) fs) f.pieces (i := i) (n := n) hid
    have hclean' : ∀ g ∈ sources, Clean resolve base (finished resolve base d f.entry
        (arrival decompress compress (zip f) i f.pieces).flatten) g.entry := by
      intro g hg
      have hfe := List.mem_map_of_mem (f := SourceFile.entry) hmem
      have hge := List.mem_map_of_mem (f := SourceFile.entry) hg
      unfold Clean finished
      rw [update_of_ne (hsep.downloads _ hfe _ hge).symm,
        update_of_ne (hsep.digests _ hfe _ hge).symm]
      exact hclean g hg
    obtain ⟨job', disk', hrec, hready'⟩ := ih (i := i + f.passes) (n := n') hnext hclean' hready hid₁
    refine ⟨job', disk', ?_, ?_⟩
    · rw [sendFiles, hreceive, hrec]
    · rw [List.length_cons, Nat.add_comm fs.length 1, ← Nat.add_assoc]
      exact hready'

theorem publish_other (zip : SourceFile → Bool) (fs : List SourceFile) (i : Nat) (d : Disk P)
    {q : P} (hq : ∀ f ∈ fs, q ≠ final resolve base f.entry) :
    publish resolve base decompress compress zip i fs d q = d q := by
  induction fs generalizing i d with
  | nil => rfl
  | cons f fs ih =>
    rw [publish, ih _ _ (fun g hg => hq g (List.mem_cons_of_mem f hg)), finished,
      update_of_ne (hq f (List.mem_cons_self ..))]

/-- The pass that reads the first piece of the `k`-th file. -/
def firstPass (sources : List SourceFile) (k : Nat) : Nat :=
  ((sources.take k).map (·.passes)).sum

theorem publish_final (zip : SourceFile → Bool) {fs : List SourceFile}
    (hfinals : (fs.map fun f => final resolve base f.entry).Nodup) (i : Nat) (d : Disk P)
    {j : Nat} {f : SourceFile} (hf : fs[j]? = some f) :
    publish resolve base decompress compress zip i fs d (final resolve base f.entry) =
      some ⟨(arrival decompress compress (zip f) (i + firstPass fs j) f.pieces).flatten,
        f.mtime⟩ := by
  induction fs generalizing i d j with
  | nil => simp at hf
  | cons g fs ih =>
    rw [List.map_cons, List.nodup_cons] at hfinals
    cases j with
    | zero =>
      obtain rfl : g = f := by simpa using hf
      have hother : ∀ h ∈ fs, final resolve base g.entry ≠ final resolve base h.entry := by
        intro h hh heq
        exact hfinals.1 (List.mem_map.mpr ⟨h, hh, heq.symm⟩)
      rw [publish, publish_other _ _ _ _ _ _ hother, finished, update_self]
      rfl
    | succ j =>
      have hj : fs[j]? = some f := by simpa using hf
      rw [publish, ih hfinals.2 _ _ hj]
      simp [firstPass, Nat.add_assoc]

theorem arrival_piece (hzip : ∀ i b, compress i b = [] ∨ decompress (compress i b) = b)
    (hnil : decompress [] = []) (i : Nat) {piece : Bytes} (hne : piece ≠ []) :
    let packed := packBlock (compress i) zip piece
    let arrived := if packed.2 then decompress packed.1 else packed.1
    (arrived = piece ∨ arrived = []) ∧
      (arrived = piece ↔ (zip = true → compress i piece ≠ [])) := by
  have hlen := List.length_pos_iff.mpr hne
  unfold packBlock
  by_cases hfail : compress i piece = []
  · cases zip with
    | false => simp
    | true => simp [hfail, hlen, hnil, hne.symm]
  · have hback := (hzip i piece).resolve_left hfail
    by_cases hsmall : zip = true ∧ (compress i piece).length < piece.length
    · simp [hsmall, hback, hfail]
    · simp [hsmall, hfail]

/-- **What arrives of a file** is the file exactly when the compressor failed on none
of its pieces. -/
theorem arrival_eq_iff (hzip : ∀ i b, compress i b = [] ∨ decompress (compress i b) = b)
    (hnil : decompress [] = []) (i : Nat) {pieces : List Bytes} (hne : ∀ p ∈ pieces, p ≠ []) :
    (arrival decompress compress zip i pieces).flatten = pieces.flatten ↔
      (zip = true → ∀ j piece, pieces[j]? = some piece → compress (i + j) piece ≠ []) := by
  have hall : ∀ (pieces : List Bytes) (i : Nat), (∀ p ∈ pieces, p ≠ []) →
      List.Forall₂ (fun q p => q = p ∨ q = []) (arrival decompress compress zip i pieces) pieces ∧
      (arrival decompress compress zip i pieces = pieces ↔
        (zip = true → ∀ j piece, pieces[j]? = some piece → compress (i + j) piece ≠ [])) := by
    intro pieces
    induction pieces with
    | nil =>
      intro i _
      simp [arrival]
    | cons piece pieces ih =>
      intro i hne
      obtain ⟨harrive, hiff⟩ := arrival_piece decompress compress zip hzip hnil i
        (hne piece (List.mem_cons_self ..))
      obtain ⟨hrest, hrestiff⟩ := ih (i + 1) (fun p hp => hne p (List.mem_cons_of_mem _ hp))
      refine ⟨List.Forall₂.cons harrive hrest, ?_⟩
      rw [arrival, List.cons_eq_cons, hiff, hrestiff]
      constructor
      · intro ⟨hhead, htail⟩ hz j p hp
        cases j with
        | zero =>
          obtain rfl : piece = p := by simpa using hp
          exact hhead hz
        | succ j =>
          have := htail hz j p (by simpa using hp)
          rwa [Nat.add_assoc, Nat.add_comm 1 j] at this
      · intro h
        refine ⟨fun hz => h hz 0 piece rfl, fun hz j p hp => ?_⟩
        rw [Nat.add_assoc, Nat.add_comm 1 j]
        exact h hz (j + 1) p (by simpa using hp)
  rw [Pieces.flatten_eq_iff hne (hall pieces i hne).1]
  exact (hall pieces i hne).2

end

/-- What `join` puts after the base. -/
def joinTail (base name : String) : String :=
  if name = "" then "" else if base = "" ∨ base.toList.getLast? = some '/' then name
  else "/" ++ name

theorem join_eq_append {base name : String} (h : name.toList.head? ≠ some '/') :
    TransferJob.join base name = base ++ joinTail base name := by
  unfold TransferJob.join pathJoin joinTail
  by_cases hempty : name = ""
  · simp [hempty]
  · by_cases hbase : base = "" ∨ base.toList.getLast? = some '/'
    · simp [hempty, h, hbase]
    · simp [hempty, h, hbase, String.append_assoc]

theorem head_of_validate {name : String} (h : validateFileNameNoTraversal name = .ok ()) :
    name.toList.head? ≠ some '/' := by
  intro hroot
  unfold validateFileNameNoTraversal at h
  simp only [hroot, if_true] at h
  grind

theorem join_ne_join_append {base a b suffix : String} (ha : a.toList.head? ≠ some '/')
    (hb : b.toList.head? ≠ some '/') (hsuffix : suffix.toList.head? ≠ some '/')
    (h : a ≠ b ++ suffix) : TransferJob.join base a ≠ TransferJob.join base b ++ suffix := by
  rw [join_eq_append ha, join_eq_append hb, String.append_assoc]
  intro heq
  have htail := (String.append_right_inj base).mp heq
  unfold joinTail at htail
  by_cases hae : a = "" <;> by_cases hbe : b = "" <;>
    by_cases hbase : base = "" ∨ base.toList.getLast? = some '/' <;>
    simp only [hae, hbe, hbase, if_true, if_false, String.empty_append] at htail h
  · exact h htail
  · exact h htail
  · exact hbe (String.append_eq_empty_iff.mp htail.symm).1
  · simpa using congrArg String.toList htail
  · exact h htail
  · rw [← htail] at hsuffix
    simp at hsuffix
  · exact h htail
  · rw [String.append_assoc] at htail
    exact h ((String.append_right_inj "/").mp htail)

/-- No file has the name of another one, or of a companion of one. -/
structure ApartNames (sources : List SourceFile) : Prop where
  distinct : (sources.map (·.name)).Nodup
  download : ∀ f ∈ sources, ∀ g ∈ sources, f.name ≠ g.name ++ ".download"
  digest : ∀ f ∈ sources, ∀ g ∈ sources, f.name ≠ g.name ++ ".digest"

theorem ApartNames.separated {sources : List SourceFile} (h : ApartNames sources) (base : String)
    (hnames : ∀ f ∈ sources, validateFileNameNoTraversal f.name = .ok ()) :
    WriteRun.Separated id base (sources.map (·.entry)) := by
  have hhead : ∀ f ∈ sources, f.name.toList.head? ≠ some '/' :=
    fun f hf => head_of_validate (hnames f hf)
  refine ⟨?_, ?_, ?_, ?_⟩
  · intro i j a b ha hb heq
    obtain ⟨f, hf, rfl⟩ := Option.map_eq_some_iff.mp (List.getElem?_map .. ▸ ha)
    obtain ⟨g, hg, rfl⟩ := Option.map_eq_some_iff.mp (List.getElem?_map .. ▸ hb)
    have hname : f.name = g.name := by
      by_contra hne
      have hpath : TransferJob.join base f.name ≠ TransferJob.join base g.name ++ "" :=
        join_ne_join_append (hhead f (List.mem_of_getElem? hf))
          (hhead g (List.mem_of_getElem? hg)) (by decide) (by simpa using hne)
      rw [String.append_empty] at hpath
      exact hpath heq
    have hlt : i < (sources.map (·.name)).length := by
      rw [List.length_map]
      exact (List.getElem?_eq_some_iff.mp hf).1
    exact (List.getElem?_inj hlt h.distinct).mp (by simp [hf, hg, hname])
  · intro a ha b hb
    obtain ⟨f, hf, rfl⟩ := List.mem_map.mp ha
    obtain ⟨g, hg, rfl⟩ := List.mem_map.mp hb
    exact join_ne_join_append (hhead f hf) (hhead g hg) (by decide) (h.download f hf g hg)
  · intro a ha b hb
    obtain ⟨f, hf, rfl⟩ := List.mem_map.mp ha
    obtain ⟨g, hg, rfl⟩ := List.mem_map.mp hb
    exact join_ne_join_append (hhead f hf) (hhead g hg) (by decide) (h.digest f hf g hg)
  · intro a _ heq
    exact absurd ((String.append_right_inj _).mp heq) (by decide)

/-- Drain the sender, write every block on the receiver, and finish the last file.
`none` means out of fuel. -/
def transfer (env : Nat → ReadEnv) (decompress : Bytes → Bytes) (io : Nat → WriteIo String)
    (last : WriteIo String) (fuel : Nat) (sender receiver : TransferJob) (d : Disk String) :
    Option (Except String (Disk String)) :=
  match drain env fuel 0 sender with
  | none => none
  | some (.error e) => some (.error e)
  | some (.ok blocks) =>
    match receive id decompress io 0 blocks receiver d with
    | (.error e, _, _) => some (.error e)
    | (.ok (), job, d) => some (.ok (job.modifyTime id last d).2)

/-- **The source tree has been reproduced**: every file is there with its bytes and
time, and no download or note is left. -/
def Reproduced (base : String) (sources : List SourceFile) (d : Disk String) : Prop :=
  ∀ f ∈ sources,
    d (TransferJob.join base f.name) = some ⟨f.content, f.mtime⟩ ∧
    d (TransferJob.join base f.name ++ ".download") = none ∧
    d (TransferJob.join base f.name ++ ".digest") = none

/-- The compressor fails on no block. -/
def NeverFails (env : Nat → ReadEnv) (p : String) (sources : List SourceFile) : Prop :=
  ∀ k f, sources[k]? = some f → compressible p sources f = true →
    ∀ j piece, f.pieces[j]? = some piece → (env (firstPass sources k + j)).compress piece ≠ []

section

variable {env : Nat → ReadEnv} {decompress : Bytes → Bytes} {sources : List SourceFile}
  {base p : String}

theorem nodup_finals (hsep : WriteRun.Separated id base (sources.map (·.entry))) :
    (sources.map fun f : SourceFile => WriteRun.final id base f.entry).Nodup := by
  rw [List.Nodup, List.pairwise_iff_getElem]
  intro i j hi hj hij heq
  rw [List.getElem_map, List.getElem_map] at heq
  rw [List.length_map] at hi hj
  have hsame := hsep.finals i j _ _ (by simp [hi]) (by simp [hj]) heq
  omega

theorem arrival_file_iff
    (hzip : ∀ i b, (env i).compress b = [] ∨ decompress ((env i).compress b) = b)
    (hnil : decompress [] = []) (zip : Bool) (i : Nat) (f : SourceFile) :
    (arrival decompress (fun i => (env i).compress) zip i f.pieces).flatten = f.content ↔
      (zip = true → ∀ j piece, f.pieces[j]? = some piece → (env (i + j)).compress piece ≠ []) := by
  have hsize : 0 < bufSize := by decide
  have hne : ∀ q ∈ f.pieces, q ≠ [] := fun q hq => ne_nil_of_mem_pieces hsize hq
  have hflat : f.pieces.flatten = f.content := flatten_pieces hsize f.content
  have hpieces := arrival_eq_iff decompress (fun i => (env i).compress) zip hzip hnil i hne
  rwa [hflat] at hpieces

theorem publish_skips (hsep : WriteRun.Separated id base (sources.map (·.entry)))
    {f : SourceFile} (hf : sources[0]? = some f) {n : Nat} (hn : n ≠ 0)
    (compress : Nat → Bytes → Bytes) (zip : SourceFile → Bool) (i : Nat) :
    publish id base decompress compress zip i (sources.drop n) (fun _ => none)
      (TransferJob.join base f.name) = none := by
  apply publish_other
  intro g hg heq
  obtain ⟨j, hj⟩ := List.mem_iff_getElem?.mp hg
  rw [List.getElem?_drop] at hj
  have := hsep.finals 0 (n + j) f.entry g.entry (by simp [hf]) (by simp [hj]) heq
  omega

theorem reproduced_publish_iff
    (hzip : ∀ i b, (env i).compress b = [] ∨ decompress ((env i).compress b) = b)
    (hnil : decompress [] = []) (hsep : WriteRun.Separated id base (sources.map (·.entry)))
    (n : Nat) :
    Reproduced base sources (publish id base decompress (fun i => (env i).compress)
        (compressible p sources) 0 (sources.drop n) (fun _ => none)) ↔
      (n = 0 ∨ sources = []) ∧ NeverFails env p sources := by
  have hmem : ∀ f ∈ sources, f.entry ∈ sources.map (·.entry) := fun f hf => List.mem_map_of_mem hf
  have hfinal : ∀ k f, sources[k]? = some f →
      publish id base decompress (fun i => (env i).compress) (compressible p sources) 0 sources
        (fun _ => none) (TransferJob.join base f.name) =
      some ⟨(arrival decompress (fun i => (env i).compress) (compressible p sources f)
        (firstPass sources k) f.pieces).flatten, f.mtime⟩ := by
    intro k f hf
    have := publish_final decompress (fun i => (env i).compress) (compressible p sources)
      (nodup_finals hsep) 0 (fun _ => none) hf
    rwa [Nat.zero_add] at this
  constructor
  · intro hrep
    have hn : n = 0 ∨ sources = [] := by
      by_contra hnot
      rw [not_or] at hnot
      obtain ⟨f, rest, rfl⟩ := List.exists_cons_of_ne_nil hnot.2
      have hthere := (hrep f (List.mem_cons_self ..)).1
      rw [publish_skips hsep rfl hnot.1] at hthere
      cases hthere
    refine ⟨hn, ?_⟩
    rcases hn with rfl | rfl
    · intro k f hf
      have hall := (hrep f (List.mem_of_getElem? hf)).1
      rw [List.drop_zero, hfinal k f hf] at hall
      have hsame := congrArg FileNode.content (Option.some.inj hall)
      exact (arrival_file_iff hzip hnil _ _ f).mp hsame
    · intro k f hf
      simp at hf
  · intro ⟨hn, hnever⟩ f hf
    rcases hn with rfl | rfl
    · obtain ⟨k, hk⟩ := List.mem_iff_getElem?.mp hf
      have hdownload := fun g hg => (hsep.downloads _ (hmem g hg) _ (hmem f hf)).symm
      have hdigest := fun g hg => (hsep.digests _ (hmem g hg) _ (hmem f hf)).symm
      rw [List.drop_zero, hfinal k f hk, (arrival_file_iff hzip hnil _ _ f).mpr (hnever k f hk)]
      exact ⟨rfl, publish_other _ _ _ _ _ _ hdownload, publish_other _ _ _ _ _ _ hdigest⟩
    · simp at hf

end

theorem sending_newRead {tree : SourceTree} {includeHidden : Bool} {p : String}
    {jobId fileNum : Int}
    {type : JobType} {sender : TransferJob}
    (h : newRead (fun _ => getRecursiveFiles includeHidden tree) jobId type
      (.filePath p) fileNum false = .ok sender) :
    Sending p jobId (tree.files includeHidden) sender ∧ sender.fileNum = fileNum ∧
      sender.dataStream = none := by
  have htree : tree ≠ .absent := by
    rintro rfl
    cases h
  rw [newRead, getRecursiveFiles_eq htree] at h
  cases h
  exact ⟨⟨rfl, rfl, rfl, rfl⟩, rfl, rfl⟩

/-- **A transfer reproduces the source tree, unless the compressor fails.**  Take any
source tree, any reads of it in parts of any size, and a receiving job that accepted
the list.  With apart names and no failing disk, the transfer ends, and it has
reproduced the tree exactly when the read job began at its first file and the
compressor failed on no piece of a file that is compressed. -/
theorem transfer_reproduces (tree : SourceTree) (includeHidden : Bool) (p base : String)
    (jobId : Int) (type : JobType) (n : Nat) (m : Int) (od : Bool)
    (sf : String → String → Bool) (note : FileDigest) (env : Nat → ReadEnv)
    (decompress : Bytes → Bytes) (io : Nat → WriteIo String) (last : WriteIo String)
    (sender receiver : TransferJob)
    (hsender : newRead (fun _ => getRecursiveFiles includeHidden tree) jobId type
      (.filePath p) n false = .ok sender)
    (hreceiver : (newWrite jobId .generic (.filePath base) m od).setFiles sf
      sender.files = .ok receiver)
    (hnames : ApartNames (tree.files includeHidden))
    (hreads : ∀ i, ∀ f ∈ tree.files includeHidden,
      Reads (env i).io (TransferJob.join p f.name) f.content)
    (hwrites : ∀ i, Works (io i)) (hlast : Works last)
    (hzip : ∀ i b, (env i).compress b = [] ∨ decompress ((env i).compress b) = b)
    (hnil : decompress [] = []) :
    ∃ fuel d, transfer env decompress io last fuel sender { receiver with digest := note }
        (fun _ => none) = some (.ok d) ∧
      (Reproduced base (tree.files includeHidden) d ↔
        (n = 0 ∨ tree.files includeHidden = []) ∧ NeverFails env p (tree.files includeHidden)) := by
  obtain ⟨hsend, hnum, hstream⟩ := sending_newRead hsender
  obtain ⟨hvalid, hset⟩ := WriteRun.setFiles_ok hreceiver
  set sources := tree.files includeHidden
  rw [hsend.files] at hvalid hset
  have hvalid' : ∀ f ∈ sources, validateFileNameNoTraversal f.name = .ok () :=
    fun f hf => WriteRun.names_of_validate hvalid f.entry (List.mem_map_of_mem hf)
  have hsep := hnames.separated base hvalid'
  have hdrain := drain_files (sources.drop n)
    (fun i f hf => hreads i f (List.mem_of_mem_drop hf)) hsend hnum rfl hstream 0
  have hready : Ready id base (sources.map (·.entry)) n (fun _ => none)
      { receiver with digest := note } (fun _ => none) := by
    rw [hset]
    exact ⟨⟨rfl, rfl, rfl⟩, fun io _ => modifyTime_nothing io _, Or.inr rfl⟩
  have hid : receiver.id = jobId := by rw [hset]; rfl
  obtain ⟨job, disk, hreceive, hdone⟩ := receive_files decompress (fun i => (env i).compress)
    jobId io (compressible p sources) hsep hvalid' hwrites (sources.drop n) (i := 0) (n := 0) rfl
    (fun _ _ => ⟨rfl, rfl⟩) hready hid
  refine ⟨((sources.drop n).map (·.passes)).sum + 1, _, ?_, reproduced_publish_iff hzip hnil hsep n⟩
  unfold transfer
  rw [hdrain]
  simp only [hreceive, hdone.finish last hlast]

/-- A directory with a file `a` of one byte and an empty file `b`. -/
def twoFiles : SourceTree := .dir [.file "a" [1] 5, .file "b" [] 6]

def twoFilesEnv (compress : Bytes → Bytes) : ReadEnv where
  compress := compress
  io := {
    openFile := fun _ => .ok ()
    metadata := fun _ => .ok (5, 1)
    reads := fun path pos => if path = "src/a" ∧ pos = 0 then [.ok [1]] else []
    pathExists := fun _ => true
    openWrite := fun _ => true
    seek := fun _ _ => true
    symlinkFree := fun _ _ => true }

def twoFilesSender : TransferJob :=
  { blank 1 .generic (.filePath "src") 0 false with
    files := [⟨"a", 1, 5⟩, ⟨"b", 0, 6⟩], totalSize := 1 }

def twoFilesReceiver : TransferJob :=
  { blank 1 .generic (.filePath "out") 0 false with
    files := [⟨"a", 1, 5⟩, ⟨"b", 0, 6⟩], totalSize := 1 }

theorem twoFiles_files : twoFiles.files true = [⟨"a", [1], 5⟩, ⟨"b", [], 6⟩] := by decide

theorem twoFiles_reads (compress : Bytes → Bytes) :
    ∀ f ∈ twoFiles.files true,
      Reads (twoFilesEnv compress).io (TransferJob.join "src" f.name) f.content := by
  rw [twoFiles_files]
  intro f hf
  rcases List.mem_pair.mp hf with rfl | rfl
  · refine ⟨rfl, fun pos => ?_⟩
    have hpath : TransferJob.join "src" "a" = "src/a" := by decide
    simp only [twoFilesEnv, hpath, true_and]
    cases pos with
    | zero => exact ⟨[[1]], rfl, by simp, rfl⟩
    | succ pos => exact ⟨[], by simp, by simp, by simp⟩
  · refine ⟨rfl, fun pos => ⟨[], ?_, by simp, by simp⟩⟩
    have hpath : TransferJob.join "src" "b" ≠ "src/a" := by decide
    simp [twoFilesEnv, hpath]

/-- A transfer with a compressor that works: its output is longer than these short
files, so they are sent as they are. -/
theorem transfer_reproduces_two_files :
    ∃ fuel d, transfer (fun _ => twoFilesEnv (40 :: ·)) List.tail (fun _ => .allOk String)
        (.allOk String) fuel twoFilesSender { twoFilesReceiver with digest := ⟨1, 5⟩ }
        (fun _ => none) = some (.ok d) ∧
      Reproduced "out" (twoFiles.files true) d := by
  have hworks : Works (.allOk String) := ⟨fun _ => rfl, fun _ => rfl, rfl, fun _ _ => rfl, rfl, rfl⟩
  have hnames : ApartNames (twoFiles.files true) := by
    rw [twoFiles_files]
    exact ⟨by decide, by decide, by decide⟩
  obtain ⟨fuel, d, hrun, hiff⟩ := transfer_reproduces twoFiles true "src" "out" 1 .generic 0 0
    false (fun _ _ => true) ⟨1, 5⟩ (fun _ => twoFilesEnv (40 :: ·)) List.tail
    (fun _ => .allOk String) (.allOk String) twoFilesSender twoFilesReceiver (by rfl) (by rfl)
    hnames (fun _ => twoFiles_reads _) (fun _ => hworks) hworks (fun _ _ => Or.inr rfl) rfl
  refine ⟨fuel, d, hrun, hiff.mpr ⟨Or.inl rfl, ?_⟩⟩
  intro k f _ _ j piece _
  exact List.cons_ne_nil 40 piece

/-- **A failing compressor loses the content.**  The same transfer, with a compressor
that fails: it ends without an error, and `a` arrives empty. -/
theorem compress_failure_empties_file :
    newRead (fun _ => getRecursiveFiles true twoFiles) 1 .generic (.filePath "src") 0
      false = .ok twoFilesSender ∧
    (newWrite 1 .generic (.filePath "out") 0 false).setFiles (fun _ _ => true)
      twoFilesSender.files = .ok twoFilesReceiver ∧
    ∃ d, transfer (fun _ => twoFilesEnv fun _ => []) List.tail (fun _ => .allOk String)
        (.allOk String) 10 twoFilesSender twoFilesReceiver (fun _ => none) = some (.ok d) ∧
      d "out/a" = some ⟨[], 5⟩ ∧ ¬ Reproduced "out" (twoFiles.files true) d := by
  have hrun : ((transfer (fun _ => twoFilesEnv fun _ => []) List.tail (fun _ => .allOk String)
      (.allOk String) 10 twoFilesSender twoFilesReceiver (fun _ => none)).bind
        Except.toOption).bind (· "out/a") = some ⟨[], 5⟩ := by decide
  obtain ⟨d, hd, hwritten⟩ := Option.bind_eq_some_iff.mp hrun
  obtain ⟨result, htransfer, hok⟩ := Option.bind_eq_some_iff.mp hd
  cases result with
  | error e => cases hok
  | ok d' =>
    obtain rfl : d' = d := Option.some.inj hok
    refine ⟨rfl, rfl, d', htransfer, hwritten, fun hrep => ?_⟩
    have hfull := (hrep ⟨"a", [1], 5⟩ (by rw [twoFiles_files]; exact List.mem_cons_self ..)).1
    have hpath : TransferJob.join "out" "a" = "out/a" := by decide
    rw [hpath, hwritten] at hfull
    cases hfull

end RustDesk
