import Mathlib.Data.List.Forall2
import RustDesk.Fs.TransferJob
import RustDesk.Lib.Run

/-!
# Serving read jobs

`handle_read_jobs` is called on a timer.  It first opens and announces the current
file of every job, then lets the first job read: a block, an error, or nothing.  A
job that read nothing and looks completed is reported done and removed.

With overwrite detection, "completed" is read off two flags, and an error while the
current file is opened or announced leaves both of them clear.  `read_jobs_done`
says exactly when a run reports no job done before its last file: no tick meets
such an error (`Derailed`) on the job it serves.
-/

namespace RustDesk

open List

open TransferJob (Response currentName getCurrentDigest initDataStream isFilePath jobCompleted
  join newRead nextFile openDataStream readStream wrapped)

def initJobs : (Nat → ReadIo) → List TransferJob → List Response × List TransferJob
  | _, [] => ([], [])
  | io, job :: jobs =>
    let (sent, jobs') := initJobs (fun k => io (k + 1)) jobs
    if job.isLastJob then (sent, job :: jobs')
    else
      match job.initDataStream (io 0) with
      | (out, .ok (), job') => (out ++ sent, job' :: jobs')
      | (out, .error e, job') => (out ++ .error job'.id e job'.fileNum :: sent, job' :: jobs')

def removeJob (id : Int) : List TransferJob → Option TransferJob × List TransferJob
  | [] => (none, [])
  | job :: jobs =>
    if job.id = id then (some job, jobs)
    else
      let (removed, rest) := removeJob id jobs
      (removed, job :: rest)

structure Served where
  sent : List Response
  job : TransferJob
  finished : Bool

/-- The body of the loop of `handle_read_jobs`. -/
def serve (compress : Bytes → Bytes) (io : ReadIo) (job : TransferJob) : Served :=
  match job.read compress io with
  | (.error e, job) => ⟨[.error job.id e job.fileNum], job, false⟩
  | (.ok (some block), job) => ⟨[.block block], job, false⟩
  | (.ok none, job) =>
    if job.jobCompleted then
      match job.jobError with
      | some e => ⟨[.error job.id e job.fileNum], job, true⟩
      | none => ⟨[.done job.id job.fileNum], job, true⟩
    else ⟨[], job, false⟩

/-- The loop of `handle_read_jobs`: the first job that is not kept for later is
served, and the loop ends. -/
def serveFirst (compress : Bytes → Bytes) :
    (Nat → ReadIo) → List TransferJob → Option Served × List TransferJob
  | _, [] => (none, [])
  | io, job :: jobs =>
    if job.isLastJob then
      let (served, jobs') := serveFirst compress (fun k => io (k + 1)) jobs
      (served, job :: jobs')
    else
      let served := serve compress (io 0) job
      (some served, served.job :: jobs)

/-- What a call of `handle_read_jobs` did. -/
structure Tick where
  sent : List Response
  jobs : List TransferJob
  served : Option Served
  removed : Option TransferJob

/-- `handle_read_jobs`.  Sending succeeds; where it fails, the caller closes the
connection.  The log text it returns is left out. -/
def handleReadJobs (compress : Bytes → Bytes) (io : Nat → ReadIo) (jobs : List TransferJob) :
    Tick :=
  let inits := initJobs io jobs
  match serveFirst compress io inits.2 with
  | (none, jobs) => ⟨inits.1, jobs, none, none⟩
  | (some served, jobs) =>
    if served.finished then
      let removal := removeJob served.job.id jobs
      ⟨inits.1 ++ served.sent, removal.2, some served, removal.1⟩
    else ⟨inits.1 ++ served.sent, jobs, some served, none⟩

inductive ReadEvent where
  | done (job : TransferJob)
  | removed (job : TransferJob)

/-- The jobs of a connection; `panicked` once a confirmation has indexed out of
bounds. -/
structure ReadJobs where
  jobs : List TransferJob
  log : List ReadEvent
  panicked : Bool

namespace ReadJobs

/-- What happens to the jobs: a job is made by `new_read` and added, possibly to be
kept for later; such a job is resumed; a job is cancelled; the peer confirms; the
timer fires. -/
inductive Input where
  | push (recursiveFiles : String → Except String (List FileEntry)) (id : Int)
      (type : JobType) (source : DataSource) (fileNum : Int)
      (enableOverwriteDetection isLastJob : Bool)
  | resume (id : Int)
  | cancel (id : Int)
  | confirm (io : ReadIo) (r : FileTransferSendConfirmRequest)
  | tick (io : Nat → ReadIo)

def init : ReadJobs := ⟨[], [], false⟩

/-- Replace the first job with the id, as `get_job` finds it. -/
def modifyJob (id : Int) (f : TransferJob → Option TransferJob) :
    List TransferJob → Option (List TransferJob)
  | [] => some []
  | job :: jobs =>
    if job.id = id then (f job).map (· :: jobs)
    else (modifyJob id f jobs).map (job :: ·)

/-- The events of a call of `handle_read_jobs`. -/
def tickEvents (t : Tick) : List ReadEvent :=
  (match t.served with
    | some served =>
      if .done served.job.id served.job.fileNum ∈ served.sent then [.done served.job] else []
    | none => []) ++
  (match t.removed with
    | some job => [.removed job]
    | none => [])

def resumeJob (job : TransferJob) : TransferJob :=
  if job.isFilePath then
    { job with isLastJob := false, isResume := true }.setFinishedSizeOnResume
  else job

variable (compress : Bytes → Bytes)

def advance (s : ReadJobs) : Input → ReadJobs
  | .push recursiveFiles id type source fileNum od isLastJob =>
    match newRead recursiveFiles id type source fileNum od with
    | .ok job => { s with jobs := s.jobs ++ [{ job with isLastJob := isLastJob }] }
    | .error _ => s
  | .resume id =>
    { s with jobs := (modifyJob id (fun job => some (resumeJob job)) s.jobs).getD s.jobs }
  | .cancel id => { s with jobs := (removeJob id s.jobs).2 }
  | .confirm io r =>
    match modifyJob r.id (fun job => job.confirm io r) s.jobs with
    | some jobs => { s with jobs := jobs.map wrapped }
    | none => { s with panicked := true }
  | .tick io =>
    -- opening and reading count up at an index of the list, so that nothing wraps in between
    let t := handleReadJobs compress io s.jobs
    { s with jobs := t.jobs.map wrapped, log := s.log ++ tickEvents t }

def step (s : ReadJobs) (inp : Input) : ReadJobs :=
  if s.panicked = true then s else s.advance compress inp

/-- **What done means.**  A job reported done, and a generic job that reads files and
was removed, has no file left. -/
def AllOffered (s : ReadJobs) : Prop :=
  (∀ job, .done job ∈ s.log → (job.files.length : Int) ≤ job.fileNum) ∧
  (∀ job, .removed job ∈ s.log → job.type = .generic → job.isFilePath = true →
    (job.files.length : Int) ≤ job.fileNum)

/-- The error that derails a job that waits for confirmation: its current file
cannot be opened and is not the last one, or it cannot be announced. -/
def Derailed (io : ReadIo) (job : TransferJob) : Prop :=
  job.type = .generic ∧ job.enableOverwriteDetection = true ∧
  ∃ p entry, job.dataSource = .filePath p ∧ job.files[asUsize job.fileNum]? = some entry ∧
    match job.dataStream with
    | none =>
      match io.openFile (join p entry.name) with
      | .error _ => job.fileNum + 1 < job.files.length
      | .ok () => ∃ e, io.metadata (join p entry.name) = .error e
    | some stream =>
      job.fileConfirmed = false ∧ job.fileIsWaiting = false ∧
      match stream with
      | .fileStream path _ => ∃ e, io.metadata path = .error e
      | .bufStream _ => True

/-- The job `handle_read_jobs` serves, with its I/O. -/
def firstJob : (Nat → ReadIo) → List TransferJob → Option (ReadIo × TransferJob)
  | _, [] => none
  | io, job :: jobs =>
    if job.isLastJob then firstJob (fun k => io (k + 1)) jobs else some (io 0, job)

/-- The job that a tick comes to is not derailed. -/
def OnTrack (s : ReadJobs) : Input → Prop
  | .tick io => s.panicked = false → ∀ x ∈ firstJob io s.jobs, ¬ Derailed x.1 x.2
  | _ => True

/-- What callers see to when they add a job: it starts at a file of its list, which has
fewer than 2³¹ files, and its id is not shared with a job that is kept for later.  And no
file is skipped at the greatest number. -/
def FreshJob (s : ReadJobs) : Input → Prop
  | .push recursiveFiles id _ _ fileNum _ isLastJob =>
    (0 ≤ fileNum ∧ fileNum < 2 ^ 31) ∧
    (∀ p files, recursiveFiles p = .ok files → files.length < 2 ^ 31) ∧
    ∀ old ∈ s.jobs, old.isLastJob = true ∨ isLastJob = true → old.id ≠ id
  | .confirm _ r => r.union = some (.skip true) → r.fileNum < 2 ^ 31 - 1
  | _ => True

/-- What every operation leaves as it is, but for counting up. -/
structure Same (job job' : TransferJob) : Prop where
  id : job'.id = job.id
  type : job'.type = job.type
  files : job'.files = job.files
  detection : job'.enableOverwriteDetection = job.enableOverwriteDetection
  filePath : job'.isFilePath = job.isFilePath
  fileNum : job.fileNum ≤ job'.fileNum
  last : job'.isLastJob = true → job.isLastJob = true

/-- The number fits an `i32` from above, and goes on doing so. -/
structure Fits (job : TransferJob) : Prop where
  num : job.fileNum < 2 ^ 31
  short : job.files.length < 2 ^ 31
  noFile : NoFile job

structure Keeps (job job' : TransferJob) : Prop extends Same job job' where
  fits : Fits job → Fits job'

theorem Keeps.refl (job : TransferJob) : Keeps job job :=
  ⟨⟨rfl, rfl, rfl, rfl, rfl, Int.le_refl _, fun h => h⟩, fun h => h⟩

instance : Std.Refl Keeps := ⟨Keeps.refl⟩

theorem Keeps.trans {a b c : TransferJob} (h : Keeps a b) (h' : Keeps b c) : Keeps a c where
  id := h'.id.trans h.id
  type := h'.type.trans h.type
  files := h'.files.trans h.files
  detection := h'.detection.trans h.detection
  filePath := h'.filePath.trans h.filePath
  fileNum := Int.le_trans h.fileNum h'.fileNum
  last hc := h.last (h'.last hc)
  fits hc := h'.fits (h.fits hc)

variable {job : TransferJob}

theorem Fits.counted {job' : TransferJob} (h : Fits job) (hsame : Same job job')
    (hnoFile : NoFile job') (hnum : job'.fileNum = job.fileNum ∨
      asUsize job.fileNum < job.files.length ∧ job'.fileNum = job.fileNum + 1) : Fits job' := by
  refine ⟨?_, by rw [hsame.files]; exact h.short, hnoFile⟩
  rcases hnum with hnum | ⟨hindex, hnum⟩
  · rw [hnum]
    exact h.num
  · have hshort := h.short
    unfold asUsize at hindex
    split at hindex <;> omega

theorem same_openDataStream (io : ReadIo) (job : TransferJob) :
    Same job (job.openDataStream io).2 := by
  unfold openDataStream
  cases hsource : job.dataSource <;> simp only <;> repeat' split
  all_goals
    refine ⟨rfl, rfl, rfl, rfl, by simp [isFilePath, hsource], ?_, fun h => h⟩
    first
    | exact Int.le_refl _
    | exact Int.le_add_one (Int.le_refl _)

theorem openDataStream_noFile (io : ReadIo) (h : NoFile job) :
    NoFile (job.openDataStream io).2 := by
  cases hpath : job.isFilePath with
  | true => exact .of_filePath hpath (same_openDataStream io job).filePath
  | false =>
    unfold isFilePath at hpath
    unfold openDataStream
    split
    · rename_i hsource
      rw [hsource] at hpath
      cases hpath
    · split
      · exact h
      · intro _ path pos hcontra
        cases hcontra

theorem keeps_openDataStream (io : ReadIo) (job : TransferJob) :
    Keeps job (job.openDataStream io).2 where
  toSame := same_openDataStream io job
  fits h := h.counted (same_openDataStream io job) (openDataStream_noFile io h.noFile)
    (job.openDataStream_fileNum io)

theorem keeps_initDataStream (io : ReadIo) (job : TransferJob) :
    Keeps job (job.initDataStream io).2.2 := by
  have hopen := keeps_openDataStream io job
  unfold initDataStream
  rcases hres : job.openDataStream io with ⟨(e | _ | _), job'⟩ <;> rw [hres] at hopen
  · exact hopen
  · simp only
    split
    · split
      · exact hopen
      · exact hopen.trans ⟨⟨rfl, rfl, rfl, rfl, rfl, Int.le_refl _, fun h => h⟩,
          fun h => ⟨h.num, h.short, h.noFile⟩⟩
    · exact hopen
  · exact hopen

theorem same_read (compress : Bytes → Bytes) (io : ReadIo) (job : TransferJob) :
    Same job (job.read compress io).2 := by
  unfold TransferJob.read nextFile
  repeat' split
  all_goals
    refine ⟨rfl, rfl, rfl, rfl, rfl, ?_, fun h => h⟩
    first
    | exact Int.le_refl _
    | exact Int.le_add_one (Int.le_refl _)

theorem read_noFile (compress : Bytes → Bytes) (io : ReadIo) (h : NoFile job) :
    NoFile (job.read compress io).2 := by
  cases hpath : job.isFilePath with
  | true => exact .of_filePath hpath (same_read compress io job).filePath
  | false =>
    have hclosed : ∀ job' : TransferJob, job'.dataStream = none → NoFile job' := by
      intro job' hnone _ path pos hcontra
      rw [hnone] at hcontra
      cases hcontra
    unfold TransferJob.read
    split
    · exact h
    · split
      · exact hclosed _ rfl
      · split
        · exact h
        · rename_i stream hstream
          cases stream with
          | fileStream path pos => exact absurd hstream (h hpath path pos)
          | bufStream rest =>
            simp only [readStream]
            split
            · simp only [hpath, Bool.false_eq_true, if_false]
              exact hclosed _ rfl
            · intro _ path pos hcontra
              cases hcontra

theorem keeps_read (compress : Bytes → Bytes) (io : ReadIo) (job : TransferJob) :
    Keeps job (job.read compress io).2 where
  toSame := same_read compress io job
  fits h := h.counted (same_read compress io job) (read_noFile compress io h.noFile)
    (TransferJob.read_fileNum compress io h.noFile)

theorem keeps_serve (compress : Bytes → Bytes) (io : ReadIo) (job : TransferJob) :
    Keeps job (serve compress io job).job := by
  have hread := keeps_read compress io job
  unfold serve
  rcases hres : job.read compress io with ⟨(e | _ | block), job'⟩ <;> rw [hres] at hread
  · exact hread
  · simp only
    repeat' split
    all_goals exact hread
  · exact hread

variable {io : ReadIo}

theorem keeps_setStreamOffset {job job' : TransferJob} {fileNum offset : Nat}
    (h : job.setStreamOffset io fileNum offset = some job') : Keeps job job' := by
  unfold TransferJob.setStreamOffset at h
  cases hsource : job.dataSource with
  | memoryCursor data =>
    simp only [hsource, Option.some.injEq] at h
    exact h ▸ Keeps.refl job
  | filePath p =>
    simp only [hsource, Option.bind_eq_bind, Option.bind_eq_some_iff] at h
    obtain ⟨entry, -, h⟩ := h
    repeat' split at h
    all_goals
      simp only [Option.some.injEq] at h
      subst h
      refine ⟨by constructor <;> simp [isFilePath, hsource],
        fun h => ⟨h.num, h.short, .of_filePath ?_ rfl⟩⟩
      simp [isFilePath, hsource]

/-- A confirmation keeps what every operation keeps, and the number fits on unless a file is
skipped at the greatest one. -/
theorem keeps_confirm {job job' : TransferJob} {r : FileTransferSendConfirmRequest}
    (h : job.confirm io r = some job') :
    Same job job' ∧ ((r.union = some (.skip true) → r.fileNum < 2 ^ 31 - 1) → Keeps job job') := by
  have hconfirmed : Keeps job (job.setFileConfirmed true) :=
    ⟨⟨rfl, rfl, rfl, rfl, rfl, Int.le_refl _, fun h => h⟩, fun h => ⟨h.num, h.short, h.noFile⟩⟩
  have hboth : Keeps job job' → Same job job' ∧
      ((r.union = some (.skip true) → r.fileNum < 2 ^ 31 - 1) → Keeps job job') :=
    fun hkeeps => ⟨hkeeps.toSame, fun _ => hkeeps⟩
  unfold TransferJob.confirm at h
  split at h
  · cases h
    exact hboth (Keeps.refl job)
  · repeat' split at h
    · rename_i hnum hunion
      cases h
      have hsame : Same job job.setFileSkipped :=
        ⟨rfl, rfl, rfl, rfl, rfl, Int.le_add_one (Int.le_refl _), fun h => h⟩
      refine ⟨hsame, fun hskip => ⟨hsame, fun h => ⟨?_, h.short, ?_⟩⟩⟩
      · have hlow := hskip hunion
        have hnext : job.setFileSkipped.fileNum = job.fileNum + 1 := rfl
        omega
      · intro _ path pos hcontra
        cases hcontra
    · cases h
      exact hboth hconfirmed
    · exact hboth (hconfirmed.trans (keeps_setStreamOffset h))
    · cases h
      exact hboth hconfirmed
    · cases h
      exact hboth (Keeps.refl job)

theorem keeps_resumeJob (job : TransferJob) : Keeps job (resumeJob job) := by
  unfold resumeJob TransferJob.setFinishedSizeOnResume
  repeat' split
  all_goals
    refine ⟨by constructor <;> simp [isFilePath], fun h => ?_⟩
    exact ⟨h.num, h.short, h.noFile⟩

def Offered (job : TransferJob) : Prop := (job.files.length : Int) ≤ job.fileNum

/-- A job as `new_read` and the operations on it leave it. -/
structure JobWf (job : TransferJob) : Prop where
  nonneg : 0 ≤ job.fileNum
  fits : Fits job
  memory : job.isFilePath = false → job.files = []

theorem asUsize_of_nonneg {n : Int} (h : 0 ≤ n) : asUsize n = n.toNat := by
  simp [asUsize, Int.not_lt.mpr h]

theorem JobWf.wrapped (h : JobWf job) : job.wrapped = job := by
  have hsame : job.fileNum.bmod (2 ^ 32) = job.fileNum :=
    Int.bmod_eq_of_le (by have := h.nonneg; omega) (by have := h.fits.num; omega)
  rw [TransferJob.wrapped, hsame]

theorem offered_iff (h : JobWf job) : Offered job ↔ job.files[asUsize job.fileNum]? = none := by
  rw [asUsize_of_nonneg h.nonneg, List.getElem?_eq_none_iff, Offered]
  have := h.nonneg
  omega

/-- The job waits for nothing, has a file left, and must not read without a
confirmation: it will be taken for completed. -/
@[mk_iff]
structure Stalled (job : TransferJob) : Prop where
  generic : job.type = .generic
  detection : job.enableOverwriteDetection = true
  files : job.isFilePath = true
  confirmed : job.fileConfirmed = false
  waiting : job.fileIsWaiting = false
  left : ¬ Offered job

theorem read_none {job job' : TransferJob} (h : job.read compress io = (.ok none, job')) :
    (job.type = .generic ∧ job.enableOverwriteDetection = true ∧ job.fileConfirmed = false ∧
      job' = job) ∨
    (job.isFilePath = true ∧ job.files[asUsize job.fileNum]? = none ∧
      job' = { job with dataStream := none }) ∨
    (job.isFilePath = false ∧ job' = { job with dataStream := none }) := by
  unfold TransferJob.read at h
  split at h
  · rename_i hwait
    left
    exact ⟨hwait.1, hwait.2.1, hwait.2.2, (Prod.mk.inj h).2.symm⟩
  right
  cases hsource : job.dataSource with
  | memoryCursor data =>
    right
    have hmem : job.isFilePath = false := by simp [isFilePath, hsource]
    simp only [currentName, hsource, hmem] at h
    refine ⟨hmem, ?_⟩
    repeat' split at h
    all_goals simp_all
  | filePath p =>
    left
    have hfile : job.isFilePath = true := by simp [isFilePath, hsource]
    refine ⟨hfile, ?_⟩
    cases hentry : job.files[asUsize job.fileNum]? with
    | none =>
      simp only [currentName, hsource, hentry, Option.map_none] at h
      exact ⟨rfl, (Prod.mk.inj h).2.symm⟩
    | some entry =>
      simp only [currentName, hsource, hentry, hfile] at h
      repeat' split at h
      all_goals simp_all

theorem serve_finished (h : (serve compress io job).finished = true) :
    ∃ job', job.read compress io = (.ok none, job') ∧ job'.jobCompleted = true ∧
      (serve compress io job).job = job' := by
  unfold serve at h ⊢
  rcases hread : job.read compress io with ⟨(e | _ | block), job'⟩
  · simp [hread] at h
  · refine ⟨job', rfl, ?_⟩
    simp only [hread] at h ⊢
    by_cases hdone : job'.jobCompleted = true
    · simp only [hdone, if_true]
      cases job'.jobError <;> simp
    · simp [hdone] at h
  · simp [hread] at h

theorem Stalled.serve_finished (io : ReadIo) (h : Stalled job) :
    (serve compress io job).finished = true ∧ (serve compress io job).job = job := by
  have hread : job.read compress io = (.ok none, job) := by
    simp [TransferJob.read, h.generic, h.detection, h.confirmed]
  have hdone : job.jobCompleted = true := by
    simp [jobCompleted, h.confirmed, h.waiting]
  unfold serve
  simp only [hread, hdone, if_true]
  cases job.jobError <;> simp

theorem finished_early_iff (io : ReadIo) (hwf : JobWf job) :
    ((serve compress io job).finished = true ∧ ¬ Offered (serve compress io job).job) ↔
      Stalled job := by
  constructor
  · intro h
    obtain ⟨job', hread, hdone, hjob⟩ := serve_finished compress h.1
    rw [hjob] at h
    rcases read_none compress hread with hwait | hlast | hmem
    · obtain ⟨hgen, hod, hconf, hsame⟩ := hwait
      rw [hsame] at h hdone
      have hwaiting : job.fileIsWaiting = false := by
        simpa [jobCompleted, hod, hconf] using hdone
      have hfile : job.isFilePath = true := by
        by_contra hno
        have hfiles := hwf.memory (by simpa using hno)
        apply h.2
        simpa [Offered, hfiles] using hwf.nonneg
      exact ⟨hgen, hod, hfile, hconf, hwaiting, h.2⟩
    · obtain ⟨-, hnone, rfl⟩ := hlast
      exact absurd ((offered_iff hwf).mpr hnone) h.2
    · obtain ⟨hno, rfl⟩ := hmem
      have hfiles := hwf.memory hno
      apply absurd _ h.2
      simpa [Offered, hfiles] using hwf.nonneg
  · intro h
    obtain ⟨hfinished, hjob⟩ := Stalled.serve_finished compress io h
    rw [hjob]
    exact ⟨hfinished, h.left⟩

/-- The job after `init_data_stream`. -/
def initialised (io : ReadIo) (job : TransferJob) : TransferJob := (job.initDataStream io).2.2

theorem stalled_closed {p : String} {entry : FileEntry} (hsource : job.dataSource = .filePath p)
    (hentry : job.files[asUsize job.fileNum]? = some entry) (hstream : job.dataStream = none)
    (hleft : ¬ Offered job) : Stalled (initialised io job) ↔ Derailed io job := by
  cases hopen : io.openFile (join p entry.name) with
  | error e =>
    have hinit : initialised io job = { job with
        fileNum := job.fileNum + 1, fileConfirmed := false, fileIsWaiting := false } := by
      simp [initialised, initDataStream, openDataStream, hsource, hentry, hstream, hopen]
    simp [stalled_iff, hinit, isFilePath, hsource, Offered, Derailed, hentry, hstream, hopen]
  | ok _ =>
    by_cases hgen : job.type = .generic ∧ job.enableOverwriteDetection = true
    · cases hmeta : io.metadata (join p entry.name) with
      | error e =>
        have hinit : initialised io job = { job with
            dataStream := some (.fileStream (join p entry.name) 0)
            fileConfirmed := false, fileIsWaiting := false } := by
          simp [initialised, initDataStream, openDataStream, hsource,
            hentry, hstream, hopen, hgen, getCurrentDigest, hmeta]
        have hleft' := hleft
        simp only [Offered] at hleft'
        simp [stalled_iff, hinit, isFilePath, hsource, Offered, Derailed, hentry,
          hstream, hopen, hgen, hmeta, hleft']
      | ok digest =>
        have hwaiting : (initialised io job).fileIsWaiting = true := by
          simp [initialised, initDataStream, openDataStream, hsource,
            hentry, hstream, hopen, hgen, getCurrentDigest, hmeta]
        simp [stalled_iff, hwaiting, Derailed, hsource, hentry, hstream, hopen, hmeta]
    · have hkeeps : Keeps job (initialised io job) := keeps_initDataStream io job
      rw [stalled_iff, hkeeps.type, hkeeps.detection, Derailed]
      constructor
      · intro h
        exact absurd ⟨h.1, h.2.1⟩ hgen
      · intro h
        exact absurd ⟨h.1, h.2.1⟩ hgen

theorem stalled_open {p : String} {entry : FileEntry}
    {stream : DataStream} (hsource : job.dataSource = .filePath p)
    (hentry : job.files[asUsize job.fileNum]? = some entry)
    (hstream : job.dataStream = some stream) (hleft : ¬ Offered job) :
    Stalled (initialised io job) ↔ Derailed io job := by
  by_cases hgen : job.type = .generic ∧ job.enableOverwriteDetection = true ∧
      job.fileConfirmed = false ∧ job.fileIsWaiting = false
  · cases hdigest : job.getCurrentDigest io with
    | error e =>
      have hinit : initialised io job = job := by
        simp [initialised, initDataStream, openDataStream, hsource, hentry, hstream, hgen, hdigest]
      rw [hinit]
      have hstalled : Stalled job :=
        ⟨hgen.1, hgen.2.1, by simp [isFilePath, hsource], hgen.2.2.1, hgen.2.2.2, hleft⟩
      refine iff_of_true hstalled ⟨hgen.1, hgen.2.1, p, entry, hsource, hentry, ?_⟩
      rw [hstream]
      refine ⟨hgen.2.2.1, hgen.2.2.2, ?_⟩
      cases stream with
      | fileStream path pos =>
        exact ⟨e, by simpa [getCurrentDigest, hstream] using hdigest⟩
      | bufStream rest => trivial
    | ok digest =>
      have hwaiting : (initialised io job).fileIsWaiting = true := by
        simp [initialised, initDataStream, openDataStream, hsource, hentry, hstream, hgen, hdigest]
      refine iff_of_false (fun h => by simp [h.waiting] at hwaiting) ?_
      intro h
      obtain ⟨-, -, _, _, -, -, h⟩ := h
      rw [hstream] at h
      cases stream with
      | fileStream path pos =>
        obtain ⟨-, -, e, he⟩ := h
        simp [getCurrentDigest, hstream, he] at hdigest
      | bufStream rest => simp [getCurrentDigest, hstream] at hdigest
  · have hinit : initialised io job = job := by
      simp [initialised, initDataStream, openDataStream, hsource, hentry, hstream, hgen]
    rw [hinit]
    refine iff_of_false (fun h => hgen ⟨h.generic, h.detection, h.confirmed, h.waiting⟩) ?_
    intro h
    obtain ⟨hg, hod, _, _, -, -, h⟩ := h
    rw [hstream] at h
    exact hgen ⟨hg, hod, h.1, h.2.1⟩

/-- **Where a job stalls.**  After initialisation a job is stalled exactly when
opening or announcing its current file derailed it. -/
theorem stalled_initialised_iff (hwf : JobWf job) :
    Stalled (initialised io job) ↔ Derailed io job := by
  cases hsource : job.dataSource with
  | memoryCursor data =>
    have hmem : (initialised io job).isFilePath = false := by
      rw [initialised, (keeps_initDataStream io job).filePath, isFilePath, hsource]
    simp [stalled_iff, hmem, Derailed, hsource]
  | filePath p =>
    cases hentry : job.files[asUsize job.fileNum]? with
    | none =>
      have hoff : Offered job := (offered_iff hwf).mpr hentry
      have hinit : initialised io job = { job with dataStream := none } := by
        simp [initialised, initDataStream, openDataStream, hsource, hentry]
      have hoff' : Offered { job with dataStream := none } := hoff
      simp [stalled_iff, hinit, hoff', Derailed, hentry]
    | some entry =>
      have hleft : ¬ Offered job := by
        rw [offered_iff hwf, hentry]
        simp
      cases hstream : job.dataStream with
      | none => exact stalled_closed hsource hentry hstream hleft
      | some stream => exact stalled_open hsource hentry hstream hleft

def Apart (a b : TransferJob) : Prop := a.isLastJob = true ∨ b.isLastJob = true → a.id ≠ b.id

structure Wf (jobs : List TransferJob) : Prop where
  each : ∀ job ∈ jobs, JobWf job
  apart : jobs.Pairwise Apart

theorem JobWf.of_keeps {job job' : TransferJob} (h : JobWf job) (hkeeps : Keeps job job') :
    JobWf job' where
  nonneg := Int.le_trans h.nonneg hkeeps.fileNum
  fits := hkeeps.fits h.fits
  memory hno := by
    rw [hkeeps.files]
    exact h.memory (hkeeps.filePath ▸ hno)

theorem Wf.map_wrapped {jobs : List TransferJob} (h : Wf jobs) : jobs.map wrapped = jobs :=
  (map_congr_left fun job hjob => (h.each job hjob).wrapped).trans (map_id _)

theorem Apart.of_keeps {a a' b b' : TransferJob} (h : Apart a b) (ha : Keeps a a')
    (hb : Keeps b b') : Apart a' b' := by
  intro hlast
  rw [ha.id, hb.id]
  exact h (hlast.imp ha.last hb.last)

private theorem exists_keeps_of_mem {jobs jobs' : List TransferJob}
    (h : List.Forall₂ Keeps jobs jobs') {job' : TransferJob} (hmem : job' ∈ jobs') :
    ∃ job ∈ jobs, Keeps job job' := by
  induction h with
  | nil => cases hmem
  | @cons a b jobs jobs' hab _ ih =>
    rcases mem_cons.mp hmem with rfl | hmem
    · exact ⟨a, mem_cons_self, hab⟩
    · obtain ⟨job, hjob, hkeeps⟩ := ih hmem
      exact ⟨job, mem_cons_of_mem _ hjob, hkeeps⟩

theorem Wf.of_keeps {jobs jobs' : List TransferJob} (h : Wf jobs)
    (hkeeps : List.Forall₂ Keeps jobs jobs') : Wf jobs' := by
  obtain ⟨heach, hapart⟩ := h
  induction hkeeps with
  | nil => exact ⟨by simp, .nil⟩
  | @cons job job' jobs jobs' hjob hjobs ih =>
    rw [pairwise_cons] at hapart
    obtain ⟨hrest, hpair⟩ := ih (fun x hx => heach x (mem_cons_of_mem _ hx)) hapart.2
    refine ⟨?_, pairwise_cons.mpr ⟨?_, hpair⟩⟩
    · intro x hx
      rcases mem_cons.mp hx with rfl | hx
      · exact (heach job mem_cons_self).of_keeps hjob
      · exact hrest x hx
    · intro x' hx'
      obtain ⟨x, hx, hkeep⟩ := exists_keeps_of_mem hjobs hx'
      exact (hapart.1 x hx).of_keeps hjob hkeep

theorem keeps_initJobs (io : Nat → ReadIo) (jobs : List TransferJob) :
    List.Forall₂ Keeps jobs (initJobs io jobs).2 := by
  induction jobs generalizing io with
  | nil => exact .nil
  | cons job jobs ih =>
    have hjob := keeps_initDataStream (io 0) job
    unfold initJobs
    simp only
    split
    · exact .cons (Keeps.refl job) (ih _)
    · split
      · rename_i hres
        rw [hres] at hjob
        exact .cons hjob (ih _)
      · rename_i hres
        rw [hres] at hjob
        exact .cons hjob (ih _)

theorem keeps_serveFirst (io : Nat → ReadIo) (jobs : List TransferJob) :
    List.Forall₂ Keeps jobs (serveFirst compress io jobs).2 := by
  induction jobs generalizing io with
  | nil => exact .nil
  | cons job jobs ih =>
    unfold serveFirst
    split
    · exact .cons (Keeps.refl job) (ih _)
    · exact .cons (keeps_serve compress (io 0) job)
        (forall₂_refl jobs)

theorem firstJob_initJobs (io : Nat → ReadIo) (jobs : List TransferJob) :
    firstJob io (initJobs io jobs).2 =
      (firstJob io jobs).map fun x => (x.1, initialised x.1 x.2) := by
  induction jobs generalizing io with
  | nil => rfl
  | cons job jobs ih =>
    cases hlast : job.isLastJob with
    | true => simp [initJobs, firstJob, hlast, ih]
    | false =>
      have hinit : (initialised (io 0) job).isLastJob = false := by
        cases h : (initialised (io 0) job).isLastJob with
        | false => rfl
        | true =>
          have := (keeps_initDataStream (io 0) job).last h
          simp [hlast] at this
      have hhead : (initJobs io (job :: jobs)).2 =
          initialised (io 0) job :: (initJobs (fun k => io (k + 1)) jobs).2 := by
        rw [initJobs, initialised]
        rcases job.initDataStream (io 0) with ⟨out, (e | _), job'⟩ <;> simp [hlast]
      rw [hhead]
      simp [firstJob, hinit, hlast]

theorem serveFirst_served (io : Nat → ReadIo) (jobs : List TransferJob) :
    (serveFirst compress io jobs).1 = (firstJob io jobs).map fun x => serve compress x.1 x.2 := by
  induction jobs generalizing io with
  | nil => rfl
  | cons job jobs ih =>
    cases hlast : job.isLastJob with
    | true => simp [serveFirst, firstJob, hlast, ih]
    | false => simp [serveFirst, firstJob, hlast]

variable {jobs : List TransferJob}

theorem firstJob_mem {io : Nat → ReadIo} {x : ReadIo × TransferJob}
    (h : firstJob io jobs = some x) : x.2 ∈ jobs := by
  induction jobs generalizing io with
  | nil => cases h
  | cons job jobs ih =>
    unfold firstJob at h
    split at h
    · exact mem_cons_of_mem _ (ih h)
    · cases h
      exact mem_cons_self

theorem removeJob_served {io : Nat → ReadIo} (hwf : Wf jobs)
    {served : Served} (h : (serveFirst compress io jobs).1 = some served) :
    (removeJob served.job.id (serveFirst compress io jobs).2).1 = some served.job := by
  obtain ⟨-, hapart⟩ := hwf
  induction jobs generalizing io with
  | nil => cases h
  | cons job jobs ih =>
    rw [pairwise_cons] at hapart
    cases hlast : job.isLastJob with
    | true =>
      simp only [serveFirst, hlast, if_true] at h ⊢
      have hid : job.id ≠ served.job.id := by
        rw [serveFirst_served, Option.map_eq_some_iff] at h
        obtain ⟨x, hx, rfl⟩ := h
        rw [(keeps_serve compress x.1 x.2).id]
        exact hapart.1 x.2 (firstJob_mem hx) (Or.inl hlast)
      simp [removeJob, hid, ih h hapart.2]
    | false =>
      simp only [serveFirst, hlast] at h ⊢
      simp only [Bool.false_eq_true, if_false, Option.some.injEq] at h ⊢
      subst h
      simp [removeJob]

theorem removeJob_sublist (id : Int) (jobs : List TransferJob) :
    (removeJob id jobs).2.Sublist jobs := by
  induction jobs with
  | nil => exact .slnil
  | cons job jobs ih =>
    unfold removeJob
    split
    · exact sublist_cons_self job jobs
    · exact ih.cons_cons job

theorem Wf.sublist {jobs jobs' : List TransferJob} (h : Wf jobs) (hsub : jobs'.Sublist jobs) :
    Wf jobs' :=
  ⟨fun job hjob => h.each job (hsub.subset hjob), h.apart.sublist hsub⟩

theorem keeps_modifyJob {id : Int} {f : TransferJob → Option TransferJob}
    (hf : ∀ job job', f job = some job' → Keeps job job') {jobs jobs' : List TransferJob}
    (h : modifyJob id f jobs = some jobs') : List.Forall₂ Keeps jobs jobs' := by
  induction jobs generalizing jobs' with
  | nil =>
    cases h
    exact .nil
  | cons job jobs ih =>
    unfold modifyJob at h
    split at h
    · obtain ⟨job', hjob, rfl⟩ := Option.map_eq_some_iff.mp h
      exact .cons (hf job job' hjob) (forall₂_refl jobs)
    · obtain ⟨rest, hrest, rfl⟩ := Option.map_eq_some_iff.mp h
      exact .cons (Keeps.refl job) (ih hrest)

theorem serve_done {id fileNum : Int} (h : .done id fileNum ∈ (serve compress io job).sent) :
    (serve compress io job).finished = true := by
  unfold serve at h ⊢
  repeat' split at h
  all_goals simp_all

def servedEvents (served : Served) : List ReadEvent :=
  if served.finished then
    (if .done served.job.id served.job.fileNum ∈ served.sent then [.done served.job] else []) ++
      [.removed served.job]
  else []

/-- **What a tick reports.**  The first job is initialised and served; if it is
finished then, it is that job that is removed. -/
theorem tickEvents_handleReadJobs (io : Nat → ReadIo) (hwf : Wf jobs) :
    tickEvents (handleReadJobs compress io jobs) =
      match firstJob io jobs with
      | none => []
      | some x => servedEvents (serve compress x.1 (initialised x.1 x.2)) := by
  have hwf' : Wf (initJobs io jobs).2 := hwf.of_keeps (keeps_initJobs io jobs)
  have hserved := serveFirst_served compress io (initJobs io jobs).2
  rw [firstJob_initJobs, Option.map_map] at hserved
  unfold handleReadJobs
  rcases hloop : serveFirst compress io (initJobs io jobs).2 with ⟨sv, jobs'⟩
  cases hfirst : firstJob io jobs with
  | none =>
    rw [hloop, hfirst] at hserved
    cases hserved
    simp only [hloop]
    rfl
  | some x =>
    rw [hloop, hfirst] at hserved
    obtain rfl : sv = some (serve compress x.1 (initialised x.1 x.2)) := hserved
    have hgone := removeJob_served compress hwf' (congrArg Prod.fst hloop)
    rw [hloop] at hgone
    simp only [hloop]
    cases hfin : (serve compress x.1 (initialised x.1 x.2)).finished with
    | false =>
      have hnodone : ∀ a b, Response.done a b ∉
          (serve compress x.1 (initialised x.1 x.2)).sent := by
        intro a b hmem
        have := serve_done compress hmem
        simp [hfin] at this
      simp [hfin, tickEvents, servedEvents, hnodone]
    | true => simp [hfin, tickEvents, servedEvents, hgone]

theorem servedEvents_offered_iff (hwf : JobWf job) :
    ((∀ j, .done j ∈ servedEvents (serve compress io (initialised io job)) → Offered j) ∧
     (∀ j, .removed j ∈ servedEvents (serve compress io (initialised io job)) →
        j.type = .generic → j.isFilePath = true → Offered j)) ↔ ¬ Derailed io job := by
  have hwf' : JobWf (initialised io job) := hwf.of_keeps (keeps_initDataStream io job)
  have hearly := finished_early_iff compress io hwf'
  rw [← stalled_initialised_iff hwf, ← hearly]
  have hkeeps := keeps_serve compress io (initialised io job)
  set served := serve compress io (initialised io job) with hserved
  constructor
  · intro h hbad
    have hstalled := hearly.mp hbad
    apply hbad.2
    refine h.2 served.job ?_ (hkeeps.type.trans hstalled.generic)
      (hkeeps.filePath.trans hstalled.files)
    simp [servedEvents, hbad.1]
  · intro h
    have hoff : served.finished = true → Offered served.job := by
      intro hfin
      by_contra hno
      exact h ⟨hfin, hno⟩
    unfold servedEvents
    cases hfin : served.finished with
    | false => simp
    | true =>
      have := hoff hfin
      constructor
      · intro j hj
        simp only [if_true, mem_append, mem_singleton, reduceCtorEq, or_false] at hj
        split at hj
        · simp_all
        · simp at hj
      · intro j hj _ _
        simp only [if_true, mem_append, mem_singleton, ReadEvent.removed.injEq] at hj
        rcases hj with hj | rfl
        · split at hj <;> simp at hj
        · exact this

theorem Wf.handleReadJobs (h : Wf jobs) (io : Nat → ReadIo) :
    Wf (handleReadJobs compress io jobs).jobs := by
  have hinit := h.of_keeps (keeps_initJobs io jobs)
  have hserve := hinit.of_keeps (keeps_serveFirst compress io _)
  unfold RustDesk.handleReadJobs
  rcases hloop : serveFirst compress io (initJobs io jobs).2 with ⟨_ | served, jobs'⟩ <;>
    rw [hloop] at hserve
  · simpa only [hloop] using hserve
  · simp only [hloop]
    split
    · exact hserve.sublist (removeJob_sublist _ _)
    · exact hserve

theorem newRead_fields {recursiveFiles : String → Except String (List FileEntry)} {id : Int}
    {type : JobType} {source : DataSource} {fileNum : Int} {od : Bool}
    (h : newRead recursiveFiles id type source fileNum od = .ok job) :
    job.id = id ∧ job.fileNum = fileNum ∧ (job.isFilePath = false → job.files = []) ∧
      job.dataStream = none ∧ (job.files = [] ∨ ∃ p, recursiveFiles p = .ok job.files) := by
  unfold newRead at h
  cases source with
  | filePath p =>
    cases hfiles : recursiveFiles p with
    | error e => simp [hfiles, bind, Except.bind] at h
    | ok files =>
      simp only [hfiles, bind, Except.bind, pure, Except.pure, Except.ok.injEq] at h
      subst h
      exact ⟨rfl, rfl, fun hno => (by cases hno), rfl, .inr ⟨p, hfiles⟩⟩
  | memoryCursor data =>
    simp only [pure, Except.pure, Except.ok.injEq] at h
    subst h
    exact ⟨rfl, rfl, fun _ => rfl, rfl, .inl rfl⟩

variable {s : ReadJobs}

theorem Wf.step (h : Wf s.jobs) (inp : Input) (hfresh : FreshJob s inp) :
    Wf (s.step compress inp).jobs := by
  by_cases hpanic : s.panicked = true
  · rwa [ReadJobs.step, if_pos hpanic]
  rw [ReadJobs.step, if_neg hpanic]
  cases inp with
  | push recursiveFiles id type source fileNum od isLastJob =>
    simp only [advance]
    cases hread : newRead recursiveFiles id type source fileNum od with
    | error e => exact h
    | ok job =>
      obtain ⟨hid, hnum, hmem, hclosed, hlist⟩ := newRead_fields hread
      obtain ⟨⟨hnonneg, hhigh⟩, hshort, hapart⟩ := hfresh
      have hfits : Fits job := by
        refine ⟨hnum ▸ hhigh, ?_, fun _ path pos hcontra => by simp [hclosed] at hcontra⟩
        rcases hlist with hempty | ⟨p, hfiles⟩
        · simp [hempty]
        · exact hshort p _ hfiles
      refine ⟨?_, pairwise_append.mpr ⟨h.apart, pairwise_singleton _ _, ?_⟩⟩
      · intro x hx
        rcases mem_append.mp hx with hx | hx
        · exact h.each x hx
        · rw [mem_singleton.mp hx]
          exact ⟨hnum ▸ hnonneg, ⟨hfits.num, hfits.short, hfits.noFile⟩, hmem⟩
      · intro old hold x hx hlast
        rw [mem_singleton.mp hx] at hlast ⊢
        exact hid ▸ hapart old hold hlast
  | resume id =>
    simp only [advance]
    cases hmod : modifyJob id (fun job => some (resumeJob job)) s.jobs with
    | none => exact h
    | some jobs =>
      apply h.of_keeps
      apply keeps_modifyJob _ hmod
      intro job job' hjob
      cases hjob
      exact keeps_resumeJob job
  | cancel id => exact h.sublist (removeJob_sublist id s.jobs)
  | confirm io r =>
    simp only [advance]
    cases hmod : modifyJob r.id (fun job => job.confirm io r) s.jobs with
    | none => exact h
    | some jobs =>
      have hwf : Wf jobs := h.of_keeps (keeps_modifyJob (fun _ _ h => (keeps_confirm h).2 hfresh) hmod)
      simpa only [hwf.map_wrapped] using hwf
  | tick io =>
    have hwf := h.handleReadJobs compress io
    simpa only [advance, hwf.map_wrapped] using hwf

theorem allOffered_append_iff (hs : s.AllOffered) {events : List ReadEvent} {panicked : Bool} :
    AllOffered ⟨jobs, s.log ++ events, panicked⟩ ↔
      (∀ j, .done j ∈ events → Offered j) ∧
      (∀ j, .removed j ∈ events → j.type = .generic → j.isFilePath = true → Offered j) := by
  constructor
  · intro h
    exact ⟨fun j hj => h.1 j (mem_append_right _ hj), fun j hj => h.2 j (mem_append_right _ hj)⟩
  · intro h
    constructor
    · intro j hj
      rcases mem_append.mp hj with hj | hj
      · exact hs.1 j hj
      · exact h.1 j hj
    · intro j hj
      rcases mem_append.mp hj with hj | hj
      · exact hs.2 j hj
      · exact h.2 j hj

/-- **The step lemma.**  From a good state a step leads to a good state exactly when it
is on track. -/
theorem allOffered_step_iff (hwf : Wf s.jobs) (hs : s.AllOffered)
    (inp : Input) : (s.step compress inp).AllOffered ↔ s.OnTrack inp := by
  -- every input but the timer leaves the log alone
  have hquiet : ∀ s' : ReadJobs, s'.log = s.log → s'.AllOffered := by
    intro s' hlog
    rw [AllOffered, hlog]
    exact hs
  by_cases hpanic : s.panicked = true
  · rw [ReadJobs.step, if_pos hpanic]
    refine iff_of_true hs ?_
    cases inp <;> simp [OnTrack, hpanic]
  rw [ReadJobs.step, if_neg hpanic]
  cases inp with
  | push recursiveFiles id type source fileNum od isLastJob =>
    refine iff_of_true ?_ trivial
    simp only [advance]
    cases newRead recursiveFiles id type source fileNum od with
    | error e => exact hs
    | ok job => exact hquiet _ rfl
  | resume id => exact iff_of_true (hquiet _ rfl) trivial
  | cancel id => exact iff_of_true (hquiet _ rfl) trivial
  | confirm io r =>
    refine iff_of_true ?_ trivial
    simp only [advance]
    cases modifyJob r.id (fun job => job.confirm io r) s.jobs with
    | none => exact hquiet _ rfl
    | some jobs => exact hquiet _ rfl
  | tick io =>
    have hrun : s.panicked = false := by simpa using hpanic
    simp only [advance, OnTrack, hrun, true_implies]
    rw [allOffered_append_iff hs, tickEvents_handleReadJobs compress io hwf]
    cases hfirst : firstJob io s.jobs with
    | none => simp
    | some x =>
      rw [servedEvents_offered_iff compress (hwf.each x.2 (firstJob_mem hfirst))]
      simp

end ReadJobs

open Run ReadJobs in
/-- **Done means done.**  Take any interleaving of added jobs, resumptions,
cancellations, confirmations and timer ticks with any I/O errors, where jobs have
fewer than 2³¹ files and none is skipped at the greatest number.  Then every job
reported done and every generic job that is removed has offered all its files, always,
exactly when no tick meets an error opening or announcing the current file of the
job it serves while that job waits for confirmations. -/
theorem read_jobs_done (compress : Bytes → Bytes) (is : List Input)
    (hfresh : Along (step compress) FreshJob init is) :
    Always (step compress) AllOffered init is ↔ Along (step compress) OnTrack init is := by
  have hwf : ∀ (_ : Nat) (s : ReadJobs) inp, FreshJob s inp → Wf s.jobs →
      Wf (s.step compress inp).jobs :=
    fun _ s inp hfresh h => h.step compress inp hfresh
  have hexact : ∀ (n : Nat) (s : ReadJobs) inp, n < is.length → FreshJob s inp → Wf s.jobs →
      s.AllOffered → ((s.step compress inp).AllOffered ↔ s.OnTrack inp) :=
    fun _ s inp _ _ h hs => allOffered_step_iff compress h hs inp
  apply always_iff_along (J := fun _ s => Wf s.jobs) (n := 0) hwf hexact
  · exact Nat.le_of_eq (Nat.zero_add _)
  · exact ⟨by simp [init], .nil⟩
  · exact ⟨by simp [init], by simp [init]⟩
  · exact hfresh

namespace ReadJobs

def diskWithout (unreadable : String) : ReadIo where
  openFile path := if path = unreadable then .error "Permission denied" else .ok ()
  metadata _ := .ok (0, 1)
  reads _ _ := []
  pathExists _ := true
  openWrite _ := true
  seek _ _ := true
  symlinkFree _ _ := true

/-- A transfer of the files `a` and `b` with overwrite detection begins, and the timer
fires once. -/
def twoFiles (unreadable : String) : List Input :=
  [.push (fun _ => .ok [⟨"a", 1, 0⟩, ⟨"b", 1, 0⟩]) 7 .generic (.filePath "d") 0 true false,
    .tick fun _ => diskWithout unreadable]

end ReadJobs

open Run ReadJobs in
/-- With both files readable nothing is reported early. -/
theorem read_jobs_done_two_files : Always (step id) AllOffered init (twoFiles "d/c") := by
  have hfresh : Along (step id) FreshJob init (twoFiles "d/c") := by
    simp [twoFiles, Along, FreshJob, init]
  rw [read_jobs_done id _ hfresh]
  refine ⟨trivial, ?_, trivial⟩
  intro _ x hx
  cases hx
  intro hderailed
  obtain ⟨-, -, p, entry, hp, hentry, h⟩ := hderailed
  cases hp
  cases hentry
  obtain ⟨e, he⟩ := h
  cases he

open Run ReadJobs in
/-- **One unreadable file drops the rest.**  If `a` cannot be opened, the transfer is
reported done although `b` was never offered. -/
theorem unreadable_file_drops_rest : ¬ Always (step id) AllOffered init (twoFiles "d/a") := by
  intro h
  have hdone : ∃ job, (exec (step id) init (twoFiles "d/a")).log.head? = some (.done job) ∧
      ¬ (job.files.length : Int) ≤ job.fileNum := ⟨_, rfl, by decide⟩
  obtain ⟨job, hhead, hleft⟩ := hdone
  exact hleft (h.last.1 job (mem_of_head? hhead))

end RustDesk
