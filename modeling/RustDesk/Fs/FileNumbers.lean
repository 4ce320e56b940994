import RustDesk.Fs.OwnFile
import RustDesk.Fs.ReadJobs

/-!
# File numbers

The number of the current file comes from the peer, is set by blocks and counted up by
skips, errors and the ends of files.  Most functions compare it with the length of the
list before they use it as an index.

`file_numbers_safe`: in a run of any calls on a job, no index is out of range and the
number does not overflow, if an offset is confirmed only for a file that exists and no
file is skipped at the greatest number.
-/

namespace RustDesk

open List

open TransferJob (newWrite)

/-- A number that an `i32` holds. -/
def I32 (n : Int) : Prop := -2 ^ 31 ≤ n ∧ n < 2 ^ 31

inductive JobCall (P : Type) where
  | setFiles (symlinkFree : String → String → Bool) (files : List FileEntry)
  | write (io : WriteIo P) (block : FileTransferBlock)
  | read (io : ReadIo)
  | confirm (io : ReadIo) (r : FileTransferSendConfirmRequest)
  | modifyTime (io : WriteIo P)
  | removeDownloadFile (io : WriteIo P)
  | setFileSkipped
  | openDataStream (io : ReadIo)

namespace TransferJob

variable {P : Type} [DecidableEq P] (resolve : String → P)

/-- The index that `modify_time` and `remove_download_file` use. -/
def currentIndex (job : TransferJob) : List Nat :=
  match job.type, job.dataSource with
  | .generic, .filePath _ =>
    if asUsize job.fileNum < job.files.length then [asUsize job.fileNum] else []
  | _, _ => []

/-- The indices into `files` that a call uses. -/
def indices (job : TransferJob) (d : Disk P) : JobCall P → List Nat
  | .setFiles _ _ | .setFileSkipped => []
  | .write io block =>
    if block.id ≠ job.id then []
    else
      match job.dataSource with
      | .memoryCursor _ => []
      | .filePath _ =>
        if asUsize block.fileNum ≥ job.files.length then []
        else if job.leaves block then
          if (job.modifyTime resolve io d).1.dataStream.isSome && !io.syncs then job.currentIndex
          else job.currentIndex ++ [asUsize block.fileNum]
        else []
  | .read _ =>
    if job.type = .generic ∧ job.enableOverwriteDetection = true ∧ job.fileConfirmed = false then []
    else
      match job.dataSource with
      | .memoryCursor _ => []
      | .filePath _ =>
        if asUsize job.fileNum ≥ job.files.length then [] else [asUsize job.fileNum]
  | .confirm _ r =>
    if job.fileNum ≠ r.fileNum then []
    else
      match r.union, job.dataSource with
      | some (.offsetBlk offset), .filePath _ => if offset > 0 then [asUsize r.fileNum] else []
      | _, _ => []
  | .modifyTime _ | .removeDownloadFile _ => job.currentIndex
  | .openDataStream _ =>
    match job.dataSource with
    | .memoryCursor _ => []
    | .filePath _ =>
      if asUsize job.fileNum ≥ job.files.length then []
      else if job.dataStream = none then [asUsize job.fileNum]
      else []

/-- What `set_stream_offset` may open for an entry: the file itself, or what is left of an
earlier transfer. -/
def PathOf (job : TransferJob) (path : String) : Prop :=
  ∃ p, job.dataSource = .filePath p ∧ ∃ entry ∈ job.files,
    path = join p entry.name ∨ path = join p entry.name ++ ".download"

variable {job : TransferJob}

theorem PathOf.isFilePath {path : String} (h : job.PathOf path) : job.isFilePath = true := by
  obtain ⟨p, hsource, -⟩ := h
  simp [TransferJob.isFilePath, hsource]

theorem resolveEntryPath_eq {symlinkFree : String → String → Bool}
    {base name path : String} (h : job.resolveEntryPath symlinkFree base name = some path) :
    path = join base name := by
  unfold resolveEntryPath at h
  split at h
  · unfold joinValidatedPath at h
    cases hname : validateFileNameNoTraversal name with
    | error e => simp [hname, Except.toOption, bind, Except.bind] at h
    | ok u =>
      simp only [hname, bind, Except.bind] at h
      split at h
      · simpa [Except.toOption] using h.symm
      · simp [Except.toOption] at h
  · simpa using h.symm

theorem setStreamOffset_cases (io : ReadIo) (job : TransferJob) (n offset : Nat) :
    (job.setStreamOffset io n offset = none ∧ job.isFilePath = true ∧ job.files.length ≤ n) ∨
    job.setStreamOffset io n offset = some job ∨
    ∃ path, job.PathOf path ∧ job.setStreamOffset io n offset = some { job with
      dataStream := some (.fileStream path offset)
      transferred := job.transferred + offset
      finishedSize := job.finishedSize + offset } := by
  unfold setStreamOffset isFilePath
  cases hsource : job.dataSource with
  | memoryCursor => exact .inr (.inl rfl)
  | filePath p =>
    cases hentry : job.files[n]? with
    | none => exact .inl ⟨rfl, rfl, List.getElem?_eq_none_iff.mp hentry⟩
    | some entry =>
      have hmem : entry ∈ job.files := mem_of_getElem? hentry
      simp only [Option.bind_eq_bind, Option.bind_some]
      split
      · exact .inr (.inl rfl)
      · rename_i filePath hresolve
        have hpath : filePath = join p entry.name := resolveEntryPath_eq hresolve
        split
        · exact .inr (.inl rfl)
        · rename_i path hopened
          split
          · refine .inr (.inr ⟨path, ⟨p, hsource, entry, hmem, ?_⟩, rfl⟩)
            repeat' split at hopened
            all_goals simp_all
          · exact .inr (.inl rfl)

/-- **What `confirm` does**: nothing, it skips the file, it confirms it, or it looks for
the offset too. -/
theorem confirm_cases (io : ReadIo) (job : TransferJob) (r : FileTransferSendConfirmRequest) :
    job.confirm io r = some job ∨
    (job.fileNum = r.fileNum ∧ r.union = some (.skip true) ∧
      job.confirm io r = some job.setFileSkipped) ∨
    (job.fileNum = r.fileNum ∧ job.confirm io r = some (job.setFileConfirmed true)) ∨
    ∃ offset > 0, job.fileNum = r.fileNum ∧ r.union = some (.offsetBlk offset) ∧
      job.confirm io r =
        (job.setFileConfirmed true).setStreamOffset io (asUsize r.fileNum) offset := by
  unfold confirm
  split
  · exact .inl rfl
  · rename_i hnum
    have hnum : job.fileNum = r.fileNum := by simpa using hnum
    split
    · rename_i hunion
      exact .inr (.inl ⟨hnum, hunion, rfl⟩)
    · exact .inr (.inr (.inl ⟨hnum, rfl⟩))
    · rename_i offset hunion
      dsimp only
      split
      · rename_i hoffset
        exact .inr (.inr (.inr ⟨offset, hoffset, hnum, hunion, rfl⟩))
      · exact .inr (.inr (.inl ⟨hnum, rfl⟩))
    · exact .inl rfl

theorem modifyTime_job (io : WriteIo P) (job : TransferJob) (d : Disk P) :
    ∃ stream, (job.modifyTime resolve io d).1 = { job with dataStream := stream } := by
  unfold modifyTime
  split
  · exact ⟨job.dataStream, rfl⟩
  · dsimp only
    split
    · obtain ⟨stream, hjob, -⟩ := WriteRun.follow_job resolve job _ _
      exact ⟨stream, hjob⟩
    · exact ⟨job.dataStream, rfl⟩

theorem write_fileNum (decompress : Bytes → Bytes) (io : WriteIo P) (job : TransferJob)
    (d : Disk P) (block : FileTransferBlock) :
    (job.write resolve decompress io d block).2.1.fileNum = job.fileNum ∨
      (job.write resolve decompress io d block).2.1.fileNum = block.fileNum := by
  have hmodify : (job.modifyTime resolve io d).1.fileNum = job.fileNum := by
    obtain ⟨stream, hjob⟩ := modifyTime_job resolve io job d
    rw [hjob]
  have hbytes : ∀ (job : TransferJob) d,
      (writeBytes resolve decompress io job d block).2.1.fileNum = job.fileNum := by
    intro job d
    unfold writeBytes
    dsimp only
    repeat' split
    all_goals rfl
  unfold write
  split
  · exact .inl rfl
  · split
    · split
      · exact .inl rfl
      · split
        · dsimp only
          split
          · exact .inl hmodify
          · split
            · exact .inr rfl
            · exact .inr (hbytes _ _)
        · exact .inl (hbytes _ _)
    · refine .inl ((hbytes _ _).trans ?_)
      split <;> rfl

theorem confirm_fileNum (io : ReadIo) (job : TransferJob) (r : FileTransferSendConfirmRequest) :
    ((job.confirm io r).getD job).fileNum = job.fileNum ∨
      job.fileNum = r.fileNum ∧ r.union = some (.skip true) ∧
        ((job.confirm io r).getD job).fileNum = job.fileNum + 1 := by
  rcases confirm_cases io job r with h | ⟨hnum, hunion, h⟩ | ⟨-, h⟩ | ⟨offset, -, -, -, h⟩
  · exact .inl (by rw [h]; rfl)
  · exact .inr ⟨hnum, hunion, by rw [h]; rfl⟩
  · exact .inl (by rw [h]; rfl)
  · left
    rw [h]
    rcases setStreamOffset_cases io (job.setFileConfirmed true) (asUsize r.fileNum) offset with
      ⟨hnone, -⟩ | hsome | ⟨_, _, hsome⟩
    · rw [hnone]
      rfl
    · rw [hsome]
      rfl
    · rw [hsome]
      rfl

end TransferJob

structure NumberRun (P : Type) where
  job : TransferJob
  disk : Disk P
  processed : Nat
  outOfRange : Bool

namespace NumberRun

variable {P : Type} [DecidableEq P] (resolve : String → P) (compress decompress : Bytes → Bytes)

def start (job : TransferJob) (d : Disk P) : NumberRun P := ⟨job, d, 0, false⟩

def apply (job : TransferJob) (d : Disk P) : JobCall P → TransferJob × Disk P
  | .setFiles symlinkFree files =>
    match job.setFiles symlinkFree files with
    | .ok job => (job, d)
    | .error _ => (job, d)
  | .write io block => (job.write resolve decompress io d block).2
  | .read io => ((job.read compress io).2, d)
  | .confirm io r => ((job.confirm io r).getD job, d)
  | .modifyTime io => job.modifyTime resolve io d
  | .removeDownloadFile io => (job, job.removeDownloadFile resolve io d)
  | .setFileSkipped => (job.setFileSkipped, d)
  | .openDataStream io => ((job.openDataStream io).2, d)

def counts : JobCall P → Bool
  | .read _ | .confirm _ _ | .setFileSkipped | .openDataStream _ => true
  | _ => false

def step (s : NumberRun P) (call : JobCall P) : NumberRun P :=
  let after := apply resolve compress decompress s.job s.disk call
  { job := after.1
    disk := after.2
    processed :=
      if counts call ∧ after.1.fileNum ≠ s.job.fileNum then s.processed + 1 else s.processed
    outOfRange := s.outOfRange ||
      (s.job.indices resolve s.disk call).any fun i => s.job.files.length ≤ i }

/-- The numbers in messages are `i32`s. -/
def Typed (_ : NumberRun P) : JobCall P → Prop
  | .write _ block => I32 block.fileNum
  | .confirm _ r => I32 r.fileNum
  | _ => True

/-- **The numbers are safe.**  No index was out of range, and the number fits an `i32`
unless 2³¹ files were gone through. -/
structure Safe (s : NumberRun P) : Prop where
  inRange : s.outOfRange = false
  fits : I32 s.job.fileNum ∨ 2 ^ 31 ≤ s.processed

/-- The number can be counted up, or 2³¹ files are gone through. -/
def CanCount (s : NumberRun P) : Prop := s.job.fileNum < 2 ^ 31 - 1 ∨ 2 ^ 31 ≤ s.processed + 1

/-- **What the code does not check**: that an offset is confirmed for a file that exists,
and that a number can be counted up when a file is skipped.  (A file is read or opened at
the greatest number only if there are 2³¹ files.) -/
def Guarded (s : NumberRun P) : JobCall P → Prop
  | .confirm _ r => r.fileNum = s.job.fileNum →
      match r.union with
      | some (.skip true) => s.CanCount
      | some (.offsetBlk offset) => offset > 0 → s.job.isFilePath = true →
          asUsize r.fileNum < s.job.files.length
      | _ => True
  | .setFileSkipped => s.CanCount
  | .read _ | .openDataStream _ => s.job.files.length < 2 ^ 31 ∨ s.CanCount
  | _ => True

variable {s : NumberRun P} {job : TransferJob}

theorem mem_currentIndex {i : Nat} (h : i ∈ job.currentIndex) : i < job.files.length := by
  unfold TransferJob.currentIndex at h
  split at h
  · split at h
    · rw [mem_singleton.mp h]
      assumption
    · cases h
  · cases h

variable {call : JobCall P}

theorem indices_lt (h : s.Guarded call) {i : Nat}
    (hi : i ∈ s.job.indices resolve s.disk call) : i < s.job.files.length := by
  cases call with
  | setFiles => cases hi
  | setFileSkipped => cases hi
  | modifyTime => exact mem_currentIndex hi
  | removeDownloadFile => exact mem_currentIndex hi
  | write io block =>
    simp only [TransferJob.indices] at hi
    split at hi
    · cases hi
    split at hi
    · cases hi
    split at hi
    · cases hi
    split at hi
    · split at hi
      · exact mem_currentIndex hi
      · rcases mem_append.mp hi with hcurrent | hblock
        · exact mem_currentIndex hcurrent
        · rw [mem_singleton.mp hblock]
          omega
    · cases hi
  | read io =>
    simp only [TransferJob.indices] at hi
    split at hi
    · cases hi
    split at hi
    · cases hi
    split at hi
    · cases hi
    · rw [mem_singleton.mp hi]
      omega
  | openDataStream io =>
    simp only [TransferJob.indices] at hi
    split at hi
    · cases hi
    split at hi
    · cases hi
    split at hi
    · rw [mem_singleton.mp hi]
      omega
    · cases hi
  | confirm io r =>
    simp only [TransferJob.indices] at hi
    split at hi
    · cases hi
    rename_i hnum
    split at hi
    · rename_i offset p hunion hsource
      split at hi
      · rename_i hoffset
        have hguard := h (by simpa using Eq.symm (not_not.mp hnum))
        rw [hunion] at hguard
        rw [mem_singleton.mp hi]
        exact hguard hoffset (by simp [TransferJob.isFilePath, hsource])
      · cases hi
    · cases hi

/-- **The number after a call** is the old one, one from a message, or the next one where
it can be counted up. -/
theorem apply_fileNum (hfile : NoFile s.job) (htyped : s.Typed call)
    (h : s.Guarded call) (hfits : I32 s.job.fileNum) :
    let n := (apply resolve compress decompress s.job s.disk call).1.fileNum
    n = s.job.fileNum ∨ I32 n ∨ (counts call = true ∧ n = s.job.fileNum + 1 ∧ s.CanCount) := by
  have hnext : asUsize s.job.fileNum < s.job.files.length →
      (s.job.files.length < 2 ^ 31 ∨ s.CanCount) → s.CanCount := by
    rintro hindex (hlength | hcount)
    · left
      obtain ⟨hlow, hhigh⟩ := hfits
      unfold asUsize at hindex
      split at hindex <;> omega
    · exact hcount
  cases call with
  | setFiles symlinkFree files =>
    left
    simp only [apply]
    split
    · rename_i job hjob
      rw [(WriteRun.setFiles_ok hjob).2]
    · rfl
  | write io block =>
    rcases TransferJob.write_fileNum resolve decompress io s.job s.disk block with hsame | hblock
    · exact .inl hsame
    · refine .inr (.inl ?_)
      simp only [apply, hblock]
      exact htyped
  | read io =>
    rcases TransferJob.read_fileNum compress io hfile with hsame | ⟨hindex, hcounted⟩
    · exact .inl hsame
    · exact .inr (.inr ⟨rfl, hcounted, hnext hindex h⟩)
  | confirm io r =>
    rcases TransferJob.confirm_fileNum io s.job r with
      hsame | ⟨hnum, hunion, hcounted⟩
    · exact .inl hsame
    · have hguard := h hnum.symm
      rw [hunion] at hguard
      exact .inr (.inr ⟨rfl, hcounted, hguard⟩)
  | modifyTime io =>
    obtain ⟨stream, hjob⟩ := TransferJob.modifyTime_job resolve io s.job s.disk
    left
    simp only [apply, hjob]
  | removeDownloadFile io => exact .inl rfl
  | setFileSkipped => exact .inr (.inr ⟨rfl, rfl, h⟩)
  | openDataStream io =>
    rcases TransferJob.openDataStream_fileNum io s.job with
      hsame | ⟨hindex, hcounted⟩
    · exact .inl hsame
    · exact .inr (.inr ⟨rfl, hcounted, hnext hindex h⟩)

theorem write_noFile {io : WriteIo P} {d : Disk P} {block : FileTransferBlock}
    (h : NoFile job) : NoFile (job.write resolve decompress io d block).2.1 := by
  have hbytes : ∀ (job : TransferJob) d, NoFile job →
      NoFile (TransferJob.writeBytes resolve decompress io job d block).2.1 := by
    intro job d hjob
    unfold TransferJob.writeBytes
    split
    · exact hjob
    · rename_i path pos hstream
      dsimp only
      split
      · exact fun hfalse => absurd hstream (hjob hfalse path pos)
      · exact fun hfalse => absurd hstream (hjob hfalse path pos)
    · intro _ path pos hcontra
      cases hcontra
  unfold TransferJob.write
  split
  · exact h
  · split
    · rename_i p hsource
      have hpath : job.isFilePath = true := by simp [TransferJob.isFilePath, hsource]
      obtain ⟨stream, hjob⟩ := TransferJob.modifyTime_job resolve io job d
      split
      · exact h
      · split
        · dsimp only
          rw [hjob]
          split
          · exact .of_filePath hpath rfl
          · split
            · exact .of_filePath hpath rfl
            · exact hbytes _ _ (.of_filePath hpath rfl)
        · exact hbytes _ _ h
    · refine hbytes _ _ ?_
      split
      · intro _ path pos hcontra
        cases hcontra
      · exact h

theorem apply_noFile {d : Disk P} (h : NoFile job) (call : JobCall P) :
    NoFile (apply resolve compress decompress job d call).1 := by
  cases call with
  | setFiles symlinkFree files =>
    simp only [apply]
    split
    · rename_i job' hjob
      rw [(WriteRun.setFiles_ok hjob).2]
      exact h.of_stream rfl rfl
    · exact h
  | write io block => exact write_noFile resolve decompress h
  | read io => exact ReadJobs.read_noFile compress io h
  | confirm io r =>
    simp only [apply]
    rcases TransferJob.confirm_cases io job r with hsame | ⟨-, -, hsame⟩ | ⟨-, hsame⟩ |
      ⟨offset, -, -, -, hsame⟩
    · rw [hsame]
      exact h
    · rw [hsame]
      intro _ path pos hcontra
      cases hcontra
    · rw [hsame]
      exact h.of_stream rfl rfl
    · rw [hsame]
      rcases TransferJob.setStreamOffset_cases io (job.setFileConfirmed true) (asUsize r.fileNum)
        offset with ⟨hnone, -⟩ | hsome | ⟨path, hpath, hsome⟩
      · rw [hnone]
        exact h
      · rw [hsome]
        exact h.of_stream rfl rfl
      · rw [hsome]
        exact .of_filePath hpath.isFilePath rfl
  | modifyTime io =>
    cases hpath : job.isFilePath with
    | true =>
      obtain ⟨stream, hjob⟩ := TransferJob.modifyTime_job resolve io job d
      simp only [apply, hjob]
      exact .of_filePath hpath rfl
    | false =>
      have hnone : job.currentPath io.symlinkFree = none := by
        unfold TransferJob.isFilePath at hpath
        unfold TransferJob.currentPath
        split
        · rename_i hsource
          rw [hsource] at hpath
          cases hpath
        · rfl
      simp only [apply, TransferJob.modifyTime, hnone]
      exact h
  | removeDownloadFile io => exact h
  | setFileSkipped =>
    intro _ path pos hcontra
    cases hcontra
  | openDataStream io => exact ReadJobs.openDataStream_noFile io h

theorem step_safe (hs : s.Safe) (hfile : NoFile s.job) (htyped : s.Typed call)
    (h : s.Guarded call) : (s.step resolve compress decompress call).Safe := by
  refine ⟨?_, ?_⟩
  · refine Bool.or_eq_false_iff.mpr ⟨hs.inRange, any_eq_false.mpr fun i hi => ?_⟩
    have hlt := indices_lt resolve h hi
    simpa using hlt
  · have hmore : s.processed ≤ (s.step resolve compress decompress call).processed := by
      simp only [step]
      split <;> omega
    rcases hs.fits with hfits | hmany
    · rcases apply_fileNum resolve compress decompress hfile htyped h hfits with
        hsame | hblock | ⟨hcounts, hnext, hcount⟩
      · left
        simp only [step, hsame]
        exact hfits
      · exact .inl hblock
      · have hprocessed : (s.step resolve compress decompress call).processed = s.processed + 1 := by
          simp only [step, hcounts, hnext, true_and]
          exact if_pos (by omega)
        rcases hcount with hlow | hmany
        · left
          simp only [step, hnext]
          obtain ⟨hlow', -⟩ := hfits
          exact ⟨by omega, by omega⟩
        · right
          omega
    · right
      omega

/-- A job as the constructors leave it. -/
inductive Built (fileNum : Int) : TransferJob → Prop where
  | write (id : Int) (type : JobType) (source : DataSource) (od : Bool) :
      Built fileNum (newWrite id type source fileNum od)
  | read (recursiveFiles : String → Except String (List FileEntry)) (id : Int) (type : JobType)
      (source : DataSource) (od : Bool) (job : TransferJob)
      (hjob : TransferJob.newRead recursiveFiles id type source fileNum od = .ok job) :
      Built fileNum job

theorem Built.fields {fileNum : Int} (h : Built fileNum job) :
    job.fileNum = fileNum ∧ job.dataStream = none := by
  cases h with
  | write => exact ⟨rfl, rfl⟩
  | read recursiveFiles id type source od job hjob =>
    unfold TransferJob.newRead at hjob
    cases source with
    | filePath p =>
      cases hfiles : recursiveFiles p with
      | error e => simp [hfiles, bind, Except.bind] at hjob
      | ok files =>
        simp only [hfiles, bind, Except.bind, pure, Except.pure, Except.ok.injEq] at hjob
        subst hjob
        exact ⟨rfl, rfl⟩
    | memoryCursor data =>
      simp only [pure, Except.pure, Except.ok.injEq] at hjob
      subst hjob
      exact ⟨rfl, rfl⟩

/-- **File numbers are safe.**  For a job with any number, and any calls on it with any
numbers from messages, no index into the list of files is out of range and the number
does not overflow before 2³¹ files are gone through, if every call is guarded. -/
theorem file_numbers_safe (fileNum : Int) (hnum : I32 fileNum) (job : TransferJob)
    (hjob : Built fileNum job) (d : Disk P) (calls : List (JobCall P))
    (htyped : Run.Along (step resolve compress decompress) Typed (start job d) calls)
    (h : Run.Along (step resolve compress decompress) Guarded (start job d) calls) :
    Run.Always (step resolve compress decompress) Safe (start job d) calls := by
  obtain ⟨hfileNum, hclosed⟩ := hjob.fields
  have hfirst : (start job d).Safe ∧ NoFile (start job d).job := by
    refine ⟨⟨rfl, .inl ?_⟩, fun _ path pos hcontra => ?_⟩
    · simpa [start, hfileNum] using hnum
    · have hnone : (start job d).job.dataStream = none := hclosed
      rw [hnone] at hcontra
      cases hcontra
  have hall : Run.Always (step resolve compress decompress) (fun s => s.Safe ∧ NoFile s.job)
      (start job d) calls := by
    refine Run.always_of_along (fun s call hs hcall => ?_) hfirst (htyped.and h)
    exact ⟨step_safe resolve compress decompress hs.1 hs.2 hcall.1 hcall.2,
      apply_noFile resolve compress decompress hs.2 call⟩
  exact fun pre hpre => (hall pre hpre).1

def noDisk : ReadIo :=
  ⟨fun _ => .error "not found", fun _ => .error "not found", fun _ _ => [], fun _ => false,
    fun _ => false, fun _ _ => false, fun _ _ => true⟩

/-- Two files are listed; a block of the second and an offset for it arrive. -/
def secondFile : List (JobCall String) :=
  [.setFiles (fun _ _ => true) [⟨"a", 1, 0⟩, ⟨"b", 2, 0⟩],
    .write (.allOk String) ⟨1, 1, [7], false⟩, .confirm noDisk ⟨1, 1, some (.offsetBlk 1)⟩]

theorem second_file_safe :
    (Run.exec (step id id id)
      (start (newWrite 1 .generic (.filePath "d") 0 true) (fun _ => none)) secondFile).job.fileNum
        = 1 ∧
    Run.Always (step id id id) Safe
      (start (newWrite 1 .generic (.filePath "d") 0 true) (fun _ => none)) secondFile := by
  refine ⟨by decide +kernel, file_numbers_safe id id id 0 ⟨by decide, by decide⟩ _
    (.write 1 .generic (.filePath "d") true) (fun _ => none) secondFile ?_ ?_⟩
  · exact ⟨trivial, ⟨by decide, by decide⟩, ⟨by decide, by decide⟩, trivial⟩
  · exact ⟨trivial, trivial, fun _ _ _ => by decide +kernel, trivial⟩

/-- **An offset for a file that does not exist, and a skip too many.**  A peer starts a
transfer of no files and confirms an offset for the first one: the code indexes an empty
list.  Another starts at the greatest number and skips: the number overflows. -/
theorem numbers_unguarded :
    (TransferJob.confirm noDisk (newWrite 1 .generic (.filePath "d") 0 true)
      ⟨1, 0, some (.offsetBlk 1)⟩ = none) ∧
    (Run.exec (step id id id)
      (start (newWrite 1 .generic (.filePath "d") 0 true) (fun _ : String => none))
      [.setFiles (fun _ _ => true) [], .confirm noDisk ⟨1, 0, some (.offsetBlk 1)⟩]
        ).outOfRange = true ∧
    (Run.exec (step id id id)
      (start (newWrite 1 .generic (.filePath "d") (2 ^ 31 - 1) true) (fun _ : String => none))
      [.confirm noDisk ⟨1, 2 ^ 31 - 1, some (.skip true)⟩]).job.fileNum = 2 ^ 31 ∧
    ¬Run.Always (step id id id) Safe
      (start (newWrite 1 .generic (.filePath "d") 0 true) (fun _ : String => none))
      [.setFiles (fun _ _ => true) [], .confirm noDisk ⟨1, 0, some (.offsetBlk 1)⟩] := by
  refine ⟨by decide, by decide, by decide, fun h => ?_⟩
  exact absurd h.last.inRange (by decide)

end NumberRun
end RustDesk
