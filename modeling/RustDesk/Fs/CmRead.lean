import Mathlib.Data.Finset.Basic
import RustDesk.Fs.FileNumbers

/-!
# Read jobs of the connection manager

On some builds the connection leaves reading to the connection manager: it remembers the
ids of the jobs, relays the peer's confirmations, and forwards what comes back.  The
timer of the connection manager, `handle_read_jobs_tick`, mirrors `handle_read_jobs`, and
its comment asks that both stay in sync.

The relay leaves the file number of a confirmation behind and knows two kinds of
confirmation only, so one that `confirm` ignores takes effect on the other side.
`read_paths_agree`: without I/O errors the two sides send the same, as long as each
confirmation is about the current file and says something, or would have no effect.
-/

namespace RustDesk

open TransferJob (Response)

inductive FromCm where
  | fileDigestFromCm (id fileNum : Int) (lastModified fileSize : Nat) (isResume : Bool)
  | fileReadError (id fileNum : Int) (err : String)
  | fileBlockFromCm (block : FileTransferBlock)
  | fileReadDone (id fileNum : Int)

def TransferJob.initDataStreamForCm (io : ReadIo) (job : TransferJob) :
    Except String (Option (Nat × Nat)) × TransferJob :=
  match job.openDataStream io with
  | (.error e, job) => (.error e, job)
  | (.ok true, job) => (.ok none, job)
  | (.ok false, job) =>
    if job.type = .generic ∧ job.enableOverwriteDetection = true ∧
        job.fileConfirmed = false ∧ job.fileIsWaiting = false then
      match job.getCurrentDigest io with
      | .error e => (.error e, job)
      | .ok digest => (.ok (some digest), { job with fileIsWaiting := true })
    else (.ok none, job)

def initReadJobForCm (io : ReadIo) (job : TransferJob) :
    List FromCm × Except String Unit × TransferJob :=
  match job.initDataStreamForCm io with
  | (.error e, job) => ([], .error e, job)
  | (.ok (some (lastModified, fileSize)), job) =>
    ([.fileDigestFromCm job.id job.fileNum lastModified fileSize job.isResume], .ok (), job)
  | (.ok none, job) => ([], .ok (), job)

/-- What the loop of `handle_read_jobs_tick` did: what it sent, the ids of the finished
jobs, and the jobs afterwards. -/
structure CmTick where
  out : List FromCm
  finished : List Int
  jobs : List TransferJob

def serveForCm (compress : Bytes → Bytes) (io : ReadIo) (job : TransferJob)
    (jobs : List TransferJob) : CmTick :=
  match job.read compress io with
  | (.error e, job) => ⟨[.fileReadError job.id job.fileNum e], [job.id], job :: jobs⟩
  | (.ok (some block), job) => ⟨[.fileBlockFromCm block], [], job :: jobs⟩
  | (.ok none, job) =>
    if job.jobCompleted then
      match job.jobError with
      | some e => ⟨[.fileReadError job.id job.fileNum e], [job.id], job :: jobs⟩
      | none => ⟨[.fileReadDone job.id job.fileNum], [job.id], job :: jobs⟩
    else ⟨[], [], job :: jobs⟩

/-- The loop of `handle_read_jobs_tick`: it ends with the first job that opens. -/
def serveJobs (compress : Bytes → Bytes) : (Nat → ReadIo) → List TransferJob → CmTick
  | _, [] => ⟨[], [], []⟩
  | io, job :: jobs =>
    if job.isLastJob then
      let t := serveJobs compress (fun k => io (k + 1)) jobs
      { t with jobs := job :: t.jobs }
    else
      match initReadJobForCm (io 0) job with
      | (out, .error e, job') =>
        let t := serveJobs compress (fun k => io (k + 1)) jobs
        ⟨out ++ .fileReadError job'.id job'.fileNum e :: t.out, job'.id :: t.finished,
          job' :: t.jobs⟩
      | (out, .ok (), job') =>
        let t := serveForCm compress (io 0) job' jobs
        { t with out := out ++ t.out }

def handleReadJobsTick (compress : Bytes → Bytes) (io : Nat → ReadIo)
    (jobs : List TransferJob) : List FromCm × List TransferJob :=
  let t := serveJobs compress io jobs
  (t.out, t.finished.foldl (fun jobs id => (removeJob id jobs).2) t.jobs)

/-- The accessor `skip()` of a confirmation. -/
def FileTransferSendConfirmRequest.skip (r : FileTransferSendConfirmRequest) : Bool :=
  match r.union with
  | some (.skip s) => s
  | _ => false

/-- The accessor `offset_blk()` of a confirmation. -/
def FileTransferSendConfirmRequest.offsetBlk (r : FileTransferSendConfirmRequest) : Nat :=
  match r.union with
  | some (.offsetBlk offset) => offset
  | _ => 0

/-- The confirmation that the handler of `SendConfirmForRead` builds for a job. -/
def confirmForRead (id : Int) (skip : Bool) (offsetBlk : Nat) (job : TransferJob) :
    FileTransferSendConfirmRequest :=
  ⟨id, job.fileNum, some (if skip then .skip true else .offsetBlk offsetBlk)⟩

/-- The handler of `SendConfirmForRead`; `none` is a panic. -/
def sendConfirmForRead (io : ReadIo) (id : Int) (skip : Bool) (offsetBlk : Nat)
    (jobs : List TransferJob) : Option (List TransferJob) :=
  ReadJobs.modifyJob id (fun job => job.confirm io (confirmForRead id skip offsetBlk job)) jobs

/-- What the connection does with a message of the connection manager: what it sends to
the peer, and `cm_read_job_ids` afterwards. -/
def forwardFromCm (ids : Finset Int) : FromCm → List Response × Finset Int
  | .fileDigestFromCm id fileNum lastModified fileSize isResume =>
    if id ∈ ids then ([.digest id fileNum lastModified fileSize isResume], ids) else ([], ids)
  | .fileBlockFromCm block => if block.id ∈ ids then ([.block block], ids) else ([], ids)
  | .fileReadDone id fileNum =>
    if id ∈ ids then ([.done id fileNum], ids.erase id) else ([], ids)
  | .fileReadError id fileNum err =>
    if id ∈ ids then ([.error id err fileNum], ids.erase id) else ([], ids)

def forwardAll : Finset Int → List FromCm → List Response × Finset Int
  | ids, [] => ([], ids)
  | ids, m :: ms =>
    let (sent, ids) := forwardFromCm ids m
    let (sent', ids) := forwardAll ids ms
    (sent ++ sent', ids)

inductive ReadInput where
  | confirm (io : ReadIo) (r : FileTransferSendConfirmRequest)
  | tick (io : Nat → ReadIo)

structure DirectRead where
  readJobs : List TransferJob
  sent : List Response
  panicked : Bool

/-- A connection that leaves reading to the connection manager, the jobs of the latter,
and what the former has sent. -/
structure RelayedRead where
  cmReadJobIds : Finset Int
  readJobs : List TransferJob
  sent : List Response
  panicked : Bool

def DirectRead.step (compress : Bytes → Bytes) (s : DirectRead) (inp : ReadInput) : DirectRead :=
  if s.panicked = true then s
  else
    match inp with
    | .confirm io r =>
      match ReadJobs.modifyJob r.id (fun job => job.confirm io r) s.readJobs with
      | some jobs => { s with readJobs := jobs }
      | none => { s with panicked := true }
    | .tick io =>
      let t := handleReadJobs compress io s.readJobs
      { s with readJobs := t.jobs, sent := s.sent ++ t.sent }

/-- The connection relays the confirmation of a job it knows, or the timer of the
connection manager fires and the connection forwards the messages.  The two exchange
messages in order, and a job that is still being read is known, so nothing depends on when
a message is taken out of its queue. -/
def RelayedRead.step (compress : Bytes → Bytes) (s : RelayedRead) (inp : ReadInput) : RelayedRead :=
  if s.panicked = true then s
  else
    match inp with
    | .confirm io r =>
      if r.id ∈ s.cmReadJobIds then
        match sendConfirmForRead io r.id r.skip r.offsetBlk s.readJobs with
        | some jobs => { s with readJobs := jobs }
        | none => { s with panicked := true }
      else s
    | .tick io =>
      let t := handleReadJobsTick compress io s.readJobs
      let f := forwardAll s.cmReadJobIds t.1
      { s with cmReadJobIds := f.2, readJobs := t.2, sent := s.sent ++ f.1 }

structure ReadPaths where
  direct : DirectRead
  relayed : RelayedRead

namespace ReadPaths

def start (job : TransferJob) : ReadPaths :=
  ⟨⟨[job], [], false⟩, ⟨{job.id}, [job], [], false⟩⟩

def step (compress : Bytes → Bytes) (s : ReadPaths) (inp : ReadInput) : ReadPaths :=
  ⟨s.direct.step compress inp, s.relayed.step compress inp⟩

/-- **The two paths agree**: they have sent the same. -/
def Agree (s : ReadPaths) : Prop := s.relayed.sent = s.direct.sent

instance (s : ReadPaths) : Decidable (Agree s) := inferInstanceAs (Decidable (_ = _))

/-- The files of the job can be opened and read. -/
structure Readable (io : ReadIo) (job : TransferJob) : Prop where
  opens : ∀ p, job.dataSource = .filePath p → ∀ entry ∈ job.files,
    io.openFile (TransferJob.join p entry.name) = .ok () ∧
      ∃ digest, io.metadata (TransferJob.join p entry.name) = .ok digest
  reads : ∀ path, job.PathOf path → ∀ pos, ∀ result ∈ io.reads path pos, ∃ bytes, result = .ok bytes

def NoIoError (s : ReadPaths) : ReadInput → Prop
  | .confirm _ _ => True
  | .tick io => ∀ job ∈ s.direct.readJobs, ∀ k, Readable (io k) job

/-- The confirmation is about the current file and says something, or the file is
confirmed already and the confirmation asks for no skip and no offset. -/
def Understood (job : TransferJob) (r : FileTransferSendConfirmRequest) : Prop :=
  (r.fileNum = job.fileNum ∧ r.union ≠ none) ∨
  (job.fileConfirmed = true ∧ job.fileSkipped = false ∧ r.skip = false ∧ r.offsetBlk = 0)

instance (job : TransferJob) (r : FileTransferSendConfirmRequest) : Decidable (Understood job r) :=
  inferInstanceAs (Decidable (_ ∨ _))

/-- A confirmation is one that both ends understand alike. -/
def InSync (s : ReadPaths) : ReadInput → Prop
  | .confirm _ r => ∀ job ∈ s.direct.readJobs, job.id = r.id → Understood job r
  | .tick _ => True

instance (s : ReadPaths) : ∀ inp, Decidable (InSync s inp)
  | .confirm _ _ => inferInstanceAs (Decidable (∀ job ∈ _, _ → _))
  | .tick _ => isTrue trivial

/-- A job as it is between two inputs: it reads files, its stream is a file of the list,
and an open file has been announced if it must be. -/
structure Streaming (job : TransferJob) : Prop where
  source : ∃ p, job.dataSource = .filePath p
  generic : job.type = .generic
  current : job.isLastJob = false
  stream : ∀ stream, job.dataStream = some stream →
    ∃ path pos, stream = .fileStream path pos ∧ job.PathOf path
  announced : job.enableOverwriteDetection = true → job.dataStream ≠ none →
    job.fileConfirmed = true ∨ job.fileIsWaiting = true

def Opened (job : TransferJob) : Prop :=
  job.files[asUsize job.fileNum]? = none ∨ job.dataStream ≠ none

theorem Streaming.of_eq {job job' : TransferJob} (h : Streaming job)
    (hsource : job'.dataSource = job.dataSource) (htype : job'.type = job.type)
    (hlast : job'.isLastJob = job.isLastJob) (hfiles : job'.files = job.files)
    (hstream : ∀ stream, job'.dataStream = some stream →
      ∃ path pos, stream = .fileStream path pos ∧ job.PathOf path)
    (hannounced : job'.enableOverwriteDetection = true → job'.dataStream ≠ none →
      job'.fileConfirmed = true ∨ job'.fileIsWaiting = true) : Streaming job' where
  source := hsource ▸ h.source
  generic := htype.trans h.generic
  current := hlast.trans h.current
  stream := by
    unfold TransferJob.PathOf at hstream ⊢
    rw [hsource, hfiles]
    exact hstream
  announced := hannounced

theorem Streaming.of_closed {job job' : TransferJob} (h : Streaming job)
    (hsource : job'.dataSource = job.dataSource) (htype : job'.type = job.type)
    (hlast : job'.isLastJob = job.isLastJob) (hfiles : job'.files = job.files)
    (hclosed : job'.dataStream = none) : Streaming job' := by
  refine h.of_eq hsource htype hlast hfiles ?_ ?_
  · intro stream hstream
    rw [hclosed] at hstream
    cases hstream
  · intro _ hopen
    exact absurd hclosed hopen

theorem readLoop_ok {results : List (Except String Bytes)}
    (h : ∀ result ∈ results, ∃ bytes, result = .ok bytes) (buf : Bytes) :
    ∃ bytes, TransferJob.readLoop buf results = .ok bytes := by
  induction results generalizing buf with
  | nil => exact ⟨buf, rfl⟩
  | cons result results ih =>
    obtain ⟨bytes, rfl⟩ := h result (by simp)
    have hrest : ∀ result ∈ results, ∃ bytes, result = Except.ok bytes :=
      fun result hmem => h result (by simp [hmem])
    unfold TransferJob.readLoop
    dsimp only
    split
    · exact ⟨_, rfl⟩
    · exact ih hrest _

variable {job : TransferJob} {io : ReadIo}

theorem initDataStream_ok (h : Streaming job) (hio : Readable io job) :
    ∃ sent job', job.initDataStream io = (sent, .ok (), job') ∧ Streaming job' ∧ Opened job' ∧
      Readable io job' ∧ job'.id = job.id := by
  obtain ⟨p, hsource⟩ := h.source
  have hreadable : ∀ {job' : TransferJob}, job'.dataSource = job.dataSource →
      job'.files = job.files → Readable io job' := by
    intro job' hs hf
    refine ⟨by rw [hs, hf]; exact hio.opens, ?_⟩
    unfold TransferJob.PathOf
    rw [hs, hf]
    exact hio.reads
  unfold TransferJob.initDataStream TransferJob.openDataStream
  rw [hsource]
  dsimp only
  cases hentry : job.files[asUsize job.fileNum]? with
  | none =>
    exact ⟨[], _, rfl, h.of_closed hsource.symm rfl rfl rfl rfl, .inl hentry,
      hreadable hsource.symm rfl, rfl⟩
  | some entry =>
    cases hstream : job.dataStream with
    | some stream =>
      have hopen : job.dataStream ≠ none := by simp [hstream]
      have hdone : ¬(job.type = .generic ∧ job.enableOverwriteDetection = true ∧
          job.fileConfirmed = false ∧ job.fileIsWaiting = false) := by
        rintro ⟨-, hod, hconfirmed, hwaiting⟩
        rcases h.announced hod hopen with hyes | hyes
        · rw [hconfirmed] at hyes
          cases hyes
        · rw [hwaiting] at hyes
          cases hyes
      simp only [if_neg hdone]
      exact ⟨[], job, rfl, h, .inr hopen, hio, rfl⟩
    | none =>
      obtain ⟨hopens, ⟨lastModified, fileSize⟩, hdigest⟩ :=
        hio.opens p hsource entry (List.mem_of_getElem? hentry)
      have hpath : job.PathOf (TransferJob.join p entry.name) :=
        ⟨p, hsource, entry, List.mem_of_getElem? hentry, .inl rfl⟩
      have hfile : ∀ stream, some (DataStream.fileStream (TransferJob.join p entry.name) 0)
          = some stream → ∃ path pos, stream = .fileStream path pos ∧ job.PathOf path := by
        rintro _ ⟨⟩
        exact ⟨_, 0, rfl, hpath⟩
      simp only [hopens, TransferJob.getCurrentDigest, hdigest]
      split
      · refine ⟨_, _, rfl, ?_, .inr (by simp), hreadable hsource.symm rfl, rfl⟩
        exact h.of_eq hsource.symm rfl rfl rfl hfile (fun _ _ => .inr rfl)
      · rename_i hoff
        refine ⟨_, _, rfl, ?_, .inr (by simp), hreadable hsource.symm rfl, rfl⟩
        refine h.of_eq hsource.symm rfl rfl rfl hfile (fun hod _ => ?_)
        exact absurd ⟨h.generic, hod, trivial, trivial⟩ hoff

theorem read_ok (compress : Bytes → Bytes) (h : Streaming job)
    (hio : Readable io job) (hopen : Opened job) :
    (∃ block, (job.read compress io).1 = .ok block) ∧ Streaming (job.read compress io).2 := by
  obtain ⟨p, hsource⟩ := h.source
  have hfile : job.isFilePath = true := by simp [TransferJob.isFilePath, hsource]
  unfold TransferJob.read
  split
  · exact ⟨⟨_, rfl⟩, h⟩
  · rename_i hfree
    split
    · exact ⟨⟨_, rfl⟩, h.of_closed rfl rfl rfl rfl rfl⟩
    · rename_i name hname
      have hentry : job.files[asUsize job.fileNum]? ≠ none := by
        intro hnone
        simp [TransferJob.currentName, hsource, hnone] at hname
      obtain ⟨stream, hstream⟩ := Option.ne_none_iff_exists'.mp (hopen.resolve_left hentry)
      obtain ⟨path, pos, rfl, hpath⟩ := h.stream stream hstream
      obtain ⟨bytes, hbytes⟩ := readLoop_ok (hio.reads path hpath pos) []
      have hread : TransferJob.readStream io (.fileStream path pos)
          = .ok (bytes, .fileStream path (pos + bytes.length)) := by
        simp [TransferJob.readStream, hbytes, bind, Except.bind, pure, Except.pure]
      simp only [hstream, hread, hfile]
      split
      · exact ⟨⟨_, rfl⟩, h.of_closed rfl rfl rfl rfl rfl⟩
      · refine ⟨⟨_, rfl⟩, h.of_eq rfl rfl rfl rfl ?_ ?_⟩
        · rintro _ ⟨⟩
          exact ⟨path, _, rfl, hpath⟩
        · intro hod _
          -- a file that must be confirmed is read only when it is
          by_contra hcontra
          rw [not_or] at hcontra
          exact hfree ⟨h.generic, hod, Bool.eq_false_iff.mpr hcontra.1⟩

variable {r : FileTransferSendConfirmRequest}

theorem Streaming.confirm {job job' : TransferJob} (h : Streaming job)
    (hjob : job.confirm io r = some job') : Streaming job' := by
  have hconfirmed : Streaming (job.setFileConfirmed true) :=
    h.of_eq rfl rfl rfl rfl h.stream (fun _ _ => .inl rfl)
  rcases TransferJob.confirm_cases io job r with hsame | ⟨-, -, hsame⟩ | ⟨-, hsame⟩ |
    ⟨offset, -, -, -, hsame⟩
  · rw [hsame] at hjob
    cases hjob
    exact h
  · rw [hsame] at hjob
    cases hjob
    exact h.of_closed rfl rfl rfl rfl rfl
  · rw [hsame] at hjob
    cases hjob
    exact hconfirmed
  · rw [hsame] at hjob
    rcases TransferJob.setStreamOffset_cases io (job.setFileConfirmed true) (asUsize r.fileNum)
      offset with ⟨hnone, -⟩ | hsome | ⟨path, hpath, hsome⟩
    · rw [hnone] at hjob
      cases hjob
    · rw [hsome] at hjob
      cases hjob
      exact hconfirmed
    · rw [hsome] at hjob
      cases hjob
      refine hconfirmed.of_eq rfl rfl rfl rfl ?_ (fun _ _ => .inl rfl)
      rintro _ ⟨⟩
      exact ⟨path, offset, rfl, hpath⟩

/-- **The relay.**  A confirmation that is understood has the same effect on both
paths. -/
theorem confirm_relayed (io : ReadIo) (h : Understood job r) :
    job.confirm io (confirmForRead r.id r.skip r.offsetBlk job) = job.confirm io r := by
  rcases h with ⟨hnum, hunion⟩ | ⟨hconfirmed, hskipped, hskip, hoffset⟩
  · rcases hr : r.union with _ | ((_ | _) | offset)
    · exact absurd hr hunion
    · simp [TransferJob.confirm, confirmForRead, FileTransferSendConfirmRequest.skip,
        FileTransferSendConfirmRequest.offsetBlk, hr, hnum]
    · simp [TransferJob.confirm, confirmForRead, FileTransferSendConfirmRequest.skip, hr, hnum]
    · simp [TransferJob.confirm, confirmForRead, FileTransferSendConfirmRequest.skip,
        FileTransferSendConfirmRequest.offsetBlk, hr, hnum]
  · have hsame : job.setFileConfirmed true = job := by
      rw [TransferJob.setFileConfirmed, ← hconfirmed, ← hskipped]
    have hrelayed : job.confirm io (confirmForRead r.id r.skip r.offsetBlk job) = some job := by
      simp [TransferJob.confirm, confirmForRead, hskip, hoffset, hsame]
    rw [hrelayed]
    rcases TransferJob.confirm_cases io job r with hdirect | ⟨-, hunion, -⟩ | ⟨-, hdirect⟩ |
      ⟨offset, hpos, -, hunion, -⟩
    · exact hdirect.symm
    · simp [FileTransferSendConfirmRequest.skip, hunion] at hskip
    · rw [hdirect, hsame]
    · simp only [FileTransferSendConfirmRequest.offsetBlk, hunion] at hoffset
      omega

theorem forwardAll_append (ids : Finset Int) (ms ms' : List FromCm) :
    forwardAll ids (ms ++ ms') =
      ((forwardAll ids ms).1 ++ (forwardAll (forwardAll ids ms).2 ms').1,
        (forwardAll (forwardAll ids ms).2 ms').2) := by
  induction ms generalizing ids with
  | nil => rfl
  | cons m ms ih => simp [forwardAll, ih]

theorem initReadJobForCm_eq (io : ReadIo) {ids : Finset Int} (hid : job.id ∈ ids) :
    (initReadJobForCm io job).2 = (job.initDataStream io).2 ∧
      forwardAll ids (initReadJobForCm io job).1 = ((job.initDataStream io).1, ids) := by
  have hkeeps := ReadJobs.keeps_openDataStream io job
  unfold initReadJobForCm TransferJob.initDataStreamForCm TransferJob.initDataStream
  rcases hres : job.openDataStream io with ⟨(e | _ | _), job'⟩
  · exact ⟨rfl, rfl⟩
  · rw [hres] at hkeeps
    have hid' : job'.id ∈ ids := hkeeps.id.symm ▸ hid
    by_cases hasks : job'.type = .generic ∧ job'.enableOverwriteDetection = true ∧
        job'.fileConfirmed = false ∧ job'.fileIsWaiting = false
    · simp only [if_pos hasks]
      rcases job'.getCurrentDigest io with e | ⟨lastModified, fileSize⟩
      · exact ⟨rfl, rfl⟩
      · refine ⟨rfl, ?_⟩
        simp [forwardAll, forwardFromCm, hid']
    · simp only [if_neg hasks]
      exact ⟨trivial, rfl⟩
  · exact ⟨rfl, rfl⟩

theorem serveForCm_eq (compress : Bytes → Bytes) {ids : Finset Int} (hid : job.id ∈ ids)
    (hread : ∃ block, (job.read compress io).1 = .ok block) :
    (serveForCm compress io job []).jobs = [(serve compress io job).job] ∧
      (serveForCm compress io job []).finished =
        (if (serve compress io job).finished then [(serve compress io job).job.id] else []) ∧
      (forwardAll ids (serveForCm compress io job []).out).1 = (serve compress io job).sent ∧
      ((serve compress io job).finished = false →
        (serve compress io job).job.id ∈
          (forwardAll ids (serveForCm compress io job []).out).2) := by
  have hkeeps := ReadJobs.keeps_read compress io job
  have hblock : ∀ block job', job.read compress io = (.ok (some block), job') →
      block.id = job.id := by
    intro block job' h
    unfold TransferJob.read at h
    repeat' split at h
    all_goals simp_all
    all_goals
      obtain ⟨rfl, -⟩ := h
      rfl
  unfold serveForCm serve
  rcases hres : job.read compress io with ⟨(e | _ | block), job'⟩
  · rw [hres] at hread
    obtain ⟨_, hcontra⟩ := hread
    cases hcontra
  · rw [hres] at hkeeps
    have hid' : job'.id ∈ ids := hkeeps.id.symm ▸ hid
    cases hcompleted : job'.jobCompleted with
    | false => simp [hcompleted, forwardAll, hid']
    | true =>
      cases herror : job'.jobError with
      | none => simp [hcompleted, herror, forwardAll, forwardFromCm, hid']
      | some e => simp [hcompleted, herror, forwardAll, forwardFromCm, hid']
  · rw [hres] at hkeeps
    have hid' : job'.id ∈ ids := hkeeps.id.symm ▸ hid
    have hmem : block.id ∈ ids := hblock block job' hres ▸ hid
    simp [forwardAll, forwardFromCm, hmem, hid']

theorem handleReadJobs_single (compress : Bytes → Bytes) {io : Nat → ReadIo}
    {job job' : TransferJob} {sent : List Response} (hcurrent : job.isLastJob = false)
    (hcurrent' : job'.isLastJob = false)
    (hinit : job.initDataStream (io 0) = (sent, .ok (), job')) :
    (handleReadJobs compress io [job]).sent = sent ++ (serve compress (io 0) job').sent ∧
      (handleReadJobs compress io [job]).jobs =
        if (serve compress (io 0) job').finished then [] else [(serve compress (io 0) job').job] := by
  have hinits : initJobs io [job] = (sent, [job']) := by
    simp [initJobs, hcurrent, hinit]
  have hserve : serveFirst compress io [job']
      = (some (serve compress (io 0) job'), [(serve compress (io 0) job').job]) := by
    simp [serveFirst, hcurrent']
  unfold handleReadJobs
  rw [hinits]
  dsimp only
  rw [hserve]
  cases hfinished : (serve compress (io 0) job').finished with
  | false => simp [hfinished]
  | true => simp [hfinished, removeJob]

theorem handleReadJobsTick_single (compress : Bytes → Bytes) {io : Nat → ReadIo}
    {job job' : TransferJob} (hcurrent : job.isLastJob = false)
    (hinit : (initReadJobForCm (io 0) job).2 = (.ok (), job')) :
    handleReadJobsTick compress io [job] =
      ((initReadJobForCm (io 0) job).1 ++ (serveForCm compress (io 0) job' []).out,
        (serveForCm compress (io 0) job' []).finished.foldl (fun jobs id => (removeJob id jobs).2)
          (serveForCm compress (io 0) job' []).jobs) := by
  rcases hres : initReadJobForCm (io 0) job with ⟨out, result⟩
  rw [hres] at hinit
  dsimp only at hinit
  subst hinit
  simp [handleReadJobsTick, serveJobs, hcurrent, hres]

structure InStep (s : ReadPaths) : Prop where
  jobs : s.relayed.readJobs = s.direct.readJobs
  sent : s.relayed.sent = s.direct.sent
  panicked : s.relayed.panicked = s.direct.panicked
  single : s.direct.readJobs = [] ∨
    ∃ job, s.direct.readJobs = [job] ∧ job.id ∈ s.relayed.cmReadJobIds ∧ Streaming job

theorem inStep_start (h : Streaming job) : InStep (start job) :=
  ⟨rfl, rfl, rfl, .inr ⟨job, rfl, Finset.mem_singleton_self job.id, h⟩⟩

variable {s : ReadPaths}

theorem InStep.cases (h : InStep s) (hlive : s.direct.panicked = false) :
    (∃ ids sent, s = ⟨⟨[], sent, false⟩, ⟨ids, [], sent, false⟩⟩) ∨
    ∃ ids sent job, s = ⟨⟨[job], sent, false⟩, ⟨ids, [job], sent, false⟩⟩ ∧ job.id ∈ ids ∧
      Streaming job := by
  obtain ⟨⟨jobs, sent, panicked⟩, ⟨ids, jobs', sent', panicked'⟩⟩ := s
  obtain ⟨hjobs, hsent, hpanicked, hsingle⟩ := h
  dsimp only at hjobs hsent hpanicked hsingle hlive
  subst hjobs hsent hpanicked hlive
  rcases hsingle with rfl | ⟨job, rfl, hid, hjob⟩
  · exact .inl ⟨ids, _, rfl⟩
  · exact .inr ⟨ids, _, job, rfl, hid, hjob⟩

theorem inStep_tick (compress : Bytes → Bytes) {io : Nat → ReadIo}
    (h : InStep s) (hlive : s.direct.panicked = false) (hio : NoIoError s (.tick io)) :
    InStep (s.step compress (.tick io)) := by
  rcases h.cases hlive with ⟨ids, sent, rfl⟩ | ⟨ids, sent, job, rfl, hid, hjob⟩
  · refine ⟨rfl, ?_, rfl, .inl rfl⟩
    simp [step, RelayedRead.step, DirectRead.step, handleReadJobsTick, serveJobs, forwardAll,
      handleReadJobs, initJobs, serveFirst]
  · obtain ⟨out, job₁, hinit, hjob₁, hopened, hreadable, hid₁⟩ :=
      initDataStream_ok hjob (hio job (by simp) 0)
    obtain ⟨hread, hjob₂⟩ := read_ok compress hjob₁ hreadable hopened
    obtain ⟨hcm, hforward⟩ := initReadJobForCm_eq (io 0) hid
    rw [hinit] at hcm hforward
    obtain ⟨hcmjobs, hfinished, hsent, hids⟩ := serveForCm_eq compress (hid₁.symm ▸ hid) hread
    obtain ⟨hdsent, hdjobs⟩ := handleReadJobs_single compress hjob.current hjob₁.current hinit
    have htick := handleReadJobsTick_single compress hjob.current hcm
    have hserved : (serve compress (io 0) job₁).job = (job₁.read compress (io 0)).2 := by
      unfold serve
      rcases job₁.read compress (io 0) with ⟨(e | _ | block), job'⟩
      · rfl
      · dsimp only
        repeat' split
        all_goals rfl
      · rfl
    rw [← hserved] at hjob₂
    generalize serve compress (io 0) job₁ = served at *
    generalize serveForCm compress (io 0) job₁ [] = t at *
    have hsame : (forwardAll ids ((initReadJobForCm (io 0) job).1 ++ t.out)).1
        = out ++ served.sent := by
      rw [forwardAll_append, hforward, hsent]
    simp only [step, RelayedRead.step, DirectRead.step, htick]
    cases hdone : served.finished with
    | true =>
      rw [hdone] at hfinished hdjobs
      refine ⟨?_, ?_, rfl, .inl ?_⟩
      · simp [hcmjobs, hfinished, hdjobs, removeJob]
      · simp [hsame, hdsent]
      · simp [hdjobs]
    | false =>
      rw [hdone] at hfinished hdjobs
      refine ⟨?_, ?_, rfl, .inr ⟨served.job, ?_, ?_, hjob₂⟩⟩
      · simp [hcmjobs, hfinished, hdjobs]
      · simp [hsame, hdsent]
      · simp [hdjobs]
      · simp only [forwardAll_append, hforward]
        exact hids hdone

theorem inStep_confirm (compress : Bytes → Bytes) (h : InStep s) (hlive : s.direct.panicked = false)
    (hsync : InSync s (.confirm io r)) : InStep (s.step compress (.confirm io r)) := by
  rcases h.cases hlive with ⟨ids, sent, rfl⟩ | ⟨ids, sent, job, rfl, hid, hjob⟩
  · -- no job is left
    simpa [step, RelayedRead.step, DirectRead.step, sendConfirmForRead, ReadJobs.modifyJob] using h
  · by_cases hmine : job.id = r.id
    · have hknown : r.id ∈ ids := hmine ▸ hid
      have hrelay := confirm_relayed io (hsync job (by simp) hmine)
      simp only [step, RelayedRead.step, DirectRead.step, sendConfirmForRead, ReadJobs.modifyJob,
        hmine, hknown, hrelay, if_true]
      cases hconfirm : job.confirm io r with
      | none => exact ⟨rfl, rfl, rfl, .inr ⟨job, rfl, hid, hjob⟩⟩
      | some job' =>
        have hid' : job'.id = job.id := (ReadJobs.keeps_confirm hconfirm).1.id
        exact ⟨rfl, rfl, rfl, .inr ⟨job', rfl, hid'.symm ▸ hid, hjob.confirm hconfirm⟩⟩
    · simpa [step, RelayedRead.step, DirectRead.step, sendConfirmForRead, ReadJobs.modifyJob,
        hmine] using h

theorem inStep_step (compress : Bytes → Bytes) {inp : ReadInput} (h : InStep s)
    (hio : NoIoError s inp) (hsync : InSync s inp) : InStep (s.step compress inp) := by
  cases hlive : s.direct.panicked with
  | true =>
    have hlive' : s.relayed.panicked = true := h.panicked.trans hlive
    have hsame : s.step compress inp = s := by
      simp [step, DirectRead.step, RelayedRead.step, hlive, hlive']
    rw [hsame]
    exact h
  | false =>
    cases inp with
    | confirm io r => exact inStep_confirm compress h hlive hsync
    | tick io => exact inStep_tick compress h hlive hio

/-- **The two ways to read agree.**  A job that reads the files below a path, from any of
them on, is read by the connection or by the connection manager.  In every run without I/O
errors in which each confirmation of the job is about the current file and says something,
or would have no effect, the peer is sent the same. -/
theorem read_paths_agree (compress : Bytes → Bytes)
    (recursiveFiles : String → Except String (List FileEntry)) (id : Int) (p : String)
    (fileNum : Int) (enableOverwriteDetection : Bool) {job : TransferJob}
    (hjob : TransferJob.newRead recursiveFiles id .generic (.filePath p) fileNum
      enableOverwriteDetection = .ok job)
    (inputs : List ReadInput) (hio : Run.Along (step compress) NoIoError (start job) inputs)
    (hsync : Run.Along (step compress) InSync (start job) inputs) :
    Run.Always (step compress) Agree (start job) inputs := by
  have hstart : Streaming job := by
    simp only [TransferJob.newRead, bind, Except.bind] at hjob
    split at hjob
    · cases hjob
    · cases hjob
      exact ⟨⟨p, rfl⟩, rfl, rfl, fun _ hstream => (by cases hstream), fun _ hopen => absurd rfl hopen⟩
  have hrun : Run.Always (step compress) InStep (start job) inputs :=
    Run.always_of_along (fun _ _ h hC => inStep_step compress h hC.1 hC.2) (inStep_start hstart)
      (hio.and hsync)
  exact fun pre hpre => (hrun pre hpre).sent

def smallDisk : ReadIo where
  openFile path := if path = "d/a" ∨ path = "d/b" then .ok () else .error "not found"
  metadata path := if path = "d/a" ∨ path = "d/b" then .ok (5, 1) else .error "not found"
  reads path pos := if path = "d/a" ∨ path = "d/b" then [.ok ([7].drop pos), .ok []] else []
  pathExists path := path = "d/a" ∨ path = "d/b"
  openWrite _ := false
  seek _ _ := true
  symlinkFree _ _ := true

def smallJob : TransferJob :=
  { TransferJob.blank 1 .generic (.filePath "d") 0 true with
    files := [⟨"a", 1, 5⟩, ⟨"b", 1, 5⟩], totalSize := 2 }

theorem readable_smallDisk (h : job.dataSource = smallJob.dataSource ∧ job.files = smallJob.files) :
    Readable smallDisk job := by
  obtain ⟨hsource, hfiles⟩ := h
  refine ⟨fun p hp => ?_, fun path _ pos result hresult => ?_⟩
  · rw [hsource] at hp
    cases hp
    rw [hfiles]
    intro entry hentry
    have hname : TransferJob.join "d" entry.name = "d/a" ∨
        TransferJob.join "d" entry.name = "d/b" := by
      revert entry
      decide
    simp [smallDisk, hname]
  · simp only [smallDisk] at hresult
    split at hresult
    · rcases List.mem_pair.mp hresult with rfl | rfl
      · exact ⟨_, rfl⟩
      · exact ⟨_, rfl⟩
    · cases hresult

/-- The first file is sent, the second one skipped; a late confirmation comes while the
first one is being sent. -/
theorem two_files_read :
    (∃ files, TransferJob.newRead files 1 .generic (.filePath "d") 0 true = .ok smallJob) ∧
    (Run.exec (step id) (start smallJob)
      [.tick fun _ => smallDisk, .confirm smallDisk ⟨1, 0, some (.offsetBlk 0)⟩,
        .tick fun _ => smallDisk, .confirm smallDisk ⟨1, 7, none⟩, .tick fun _ => smallDisk,
        .tick fun _ => smallDisk, .confirm smallDisk ⟨1, 1, some (.skip true)⟩,
        .tick fun _ => smallDisk]).relayed.sent =
      [.digest 1 0 5 1 false, .block ⟨1, 0, [7], false⟩, .block ⟨1, 0, [], false⟩,
        .digest 1 1 5 1 false, .done 1 2] ∧
    Run.Always (step id) Agree (start smallJob)
      [.tick fun _ => smallDisk, .confirm smallDisk ⟨1, 0, some (.offsetBlk 0)⟩,
        .tick fun _ => smallDisk, .confirm smallDisk ⟨1, 7, none⟩, .tick fun _ => smallDisk,
        .tick fun _ => smallDisk, .confirm smallDisk ⟨1, 1, some (.skip true)⟩,
        .tick fun _ => smallDisk] := by
  have hnew : TransferJob.newRead (fun _ => .ok smallJob.files) 1 .generic (.filePath "d") 0 true
      = .ok smallJob := rfl
  refine ⟨⟨_, hnew⟩, by decide, ?_⟩
  refine read_paths_agree id _ 1 "d" 0 true hnew _ ?_ (by decide)
  refine ⟨?_, trivial, ?_, trivial, ?_, ?_, trivial, ?_, trivial⟩
  all_goals
    intro job hjob _
    exact readable_smallDisk (by revert job; decide)

/-- The same confirmation twice: the connection ignores the second one, the connection
manager skips the next file.  A confirmation that says nothing: the connection waits, the
connection manager sends the file. -/
theorem stale_skip_relayed :
    (Run.Along (step id) NoIoError (start smallJob)
      [.tick fun _ => smallDisk, .confirm smallDisk ⟨1, 0, some (.skip true)⟩,
        .confirm smallDisk ⟨1, 0, some (.skip true)⟩, .tick fun _ => smallDisk]) ∧
    ¬Run.Always (step id) Agree (start smallJob)
      [.tick fun _ => smallDisk, .confirm smallDisk ⟨1, 0, some (.skip true)⟩,
        .confirm smallDisk ⟨1, 0, some (.skip true)⟩, .tick fun _ => smallDisk] ∧
    (Run.Along (step id) NoIoError (start smallJob)
      [.tick fun _ => smallDisk, .confirm smallDisk ⟨1, 0, none⟩, .tick fun _ => smallDisk]) ∧
    ¬Run.Always (step id) Agree (start smallJob)
      [.tick fun _ => smallDisk, .confirm smallDisk ⟨1, 0, none⟩, .tick fun _ => smallDisk] := by
  refine ⟨⟨?_, trivial, trivial, ?_, trivial⟩, fun h => ?_, ⟨?_, trivial, ?_, trivial⟩, fun h => ?_⟩
  · intro job hjob _
    exact readable_smallDisk (by revert job; decide)
  · intro job hjob _
    exact readable_smallDisk (by revert job; decide)
  · exact absurd h.last (by decide)
  · intro job hjob _
    exact readable_smallDisk (by revert job; decide)
  · intro job hjob _
    exact readable_smallDisk (by revert job; decide)
  · exact absurd h.last (by decide)

end ReadPaths

end RustDesk
