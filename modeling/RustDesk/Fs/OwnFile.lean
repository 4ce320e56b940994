import RustDesk.Fs.Write

/-!
# Blocks and their files

A call of `write` with a new file number finishes the current file, takes over the
number, and opens the new file.  If the opening fails, the job has the new number with
the old stream, and the next block of that number goes to the old file.

`blocks_reach_own_file`: in a run without such a block, the data of each block goes to
the file of its number.
-/

namespace RustDesk

open TransferJob (beginFile blockBytes follow join modifyTime newWrite)

namespace TransferJob

variable {P : Type} [DecidableEq P] (resolve : String → P)

def leaves (job : TransferJob) (block : FileTransferBlock) : Bool :=
  asUsize block.fileNum ≠ asUsize job.fileNum || job.dataStream = none

/-- The part of `write` before any data is written. -/
def openFor (io : WriteIo P) (job : TransferJob) (d : Disk P) (block : FileTransferBlock) :
    Except String Unit × TransferJob × Disk P :=
  if block.id ≠ job.id then (.error "Wrong id", job, d)
  else
    match job.dataSource with
    | .filePath p =>
      match job.files[asUsize block.fileNum]? with
      | none => (.error "Wrong file number", job, d)
      | some entry =>
        if job.leaves block then
          let finished := job.modifyTime resolve io d
          let job := finished.1
          if job.dataStream.isSome && !io.syncs then (.error "sync failed", job, finished.2)
          else
            let job := { job with fileNum := block.fileNum }
            match job.openTarget resolve io finished.2 p entry with
            | (.error e, d) => (.error e, job, d)
            | (.ok path, d) => (.ok (), { job with dataStream := some (.fileStream path 0) }, d)
        else (.ok (), job, d)
    | .memoryCursor c =>
      (.ok (), match job.dataStream with
        | none => { job with dataStream := some (.bufStream c) }
        | some _ => job, d)

theorem write_eq (decompress : Bytes → Bytes) (io : WriteIo P) (job : TransferJob) (d : Disk P)
    (block : FileTransferBlock) :
    job.write resolve decompress io d block =
      match job.openFor resolve io d block with
      | (.error e, job, d) => (.error e, job, d)
      | (.ok (), job, d) => writeBytes resolve decompress io job d block := by
  unfold write openFor leaves
  simp only [Bool.or_eq_true, decide_eq_true_eq]
  by_cases hid : block.id ≠ job.id
  · simp only [if_pos hid]
  · simp only [if_neg hid]
    cases job.dataSource with
    | memoryCursor c => rfl
    | filePath p =>
      cases job.files[asUsize block.fileNum]? with
      | none => rfl
      | some entry =>
        dsimp only
        split
        · split
          · rfl
          · rcases openTarget resolve io _ _ _ _ with ⟨_ | path, d'⟩ <;> rfl
        · rfl

end TransferJob

open WriteRun

variable {P : Type} [DecidableEq P] (resolve : String → P) {base : String} {files : List FileEntry}

/-- The stream is that of file `n`: its download, or the file itself once it is finished. -/
def OnFile (base : String) (files : List FileEntry) (n : Nat) (stream : DataStream) : Prop :=
  ∃ entry path pos, files[n]? = some entry ∧ stream = .fileStream path pos ∧
    (path = join base entry.name ++ ".download" ∨ path = join base entry.name)

variable {job : TransferJob}

theorem modifyTime_onFile (io : WriteIo P) (d : Disk P)
    (hw : Writes base files job) {stream : DataStream} (hstream : job.dataStream = some stream)
    (hon : OnFile base files (asUsize job.fileNum) stream) :
    ∃ stream', (job.modifyTime resolve io d).1 = { job with dataStream := some stream' } ∧
      OnFile base files (asUsize job.fileNum) stream' := by
  have hsame : job = { job with dataStream := some stream } := by rw [← hstream]
  unfold modifyTime
  cases hpath : job.currentPath io.symlinkFree with
  | none => exact ⟨stream, hsame, hon⟩
  | some x =>
    obtain ⟨path, entry⟩ := x
    obtain ⟨hentry, rfl⟩ := currentPath_eq_some hw hpath
    dsimp only
    split
    · obtain ⟨own, opened, pos, hown, rfl, hopened⟩ := hon
      unfold follow
      simp only [hstream]
      split
      · exact ⟨_, rfl, entry, _, pos, hentry, rfl, .inr rfl⟩
      · exact ⟨_, hsame, own, opened, pos, hown, rfl, hopened⟩
    · exact ⟨stream, hsame, hon⟩

/-- **The ways the opening can go.** -/
inductive Opening (base : String) (files : List FileEntry) (job : TransferJob) (d : Disk P)
    (block : FileTransferBlock) : Except String Unit × TransferJob × Disk P → Prop where
  | refused (e : String) : Opening base files job d block (.error e, job, d)
  | stays (hid : block.id = job.id) (entry : FileEntry)
      (hentry : files[asUsize block.fileNum]? = some entry)
      (hleaves : job.leaves block = false) : Opening base files job d block (.ok (), job, d)
  | unflushed (e : String) (stream : Option DataStream) (d' : Disk P)
      (hstream : stream.isSome = true) (hsame : stream = none ↔ job.dataStream = none)
      (hleaves : job.leaves block = true)
      (hkeeps : ∀ s, job.dataStream = some s → OnFile base files (asUsize job.fileNum) s →
        ∃ s', stream = some s' ∧ OnFile base files (asUsize job.fileNum) s') :
      Opening base files job d block (.error e, { job with dataStream := stream }, d')
  /-- The new file could not be opened; the job has its number. -/
  | failed (e : String) (stream : Option DataStream) (d' : Disk P)
      (hsame : stream = none ↔ job.dataStream = none) (hleaves : job.leaves block = true) :
      Opening base files job d block
        (.error e, { job with dataStream := stream, fileNum := block.fileNum }, d')
  | opened (hid : block.id = job.id) (entry : FileEntry) (d' : Disk P)
      (hentry : files[asUsize block.fileNum]? = some entry) (hleaves : job.leaves block = true) :
      Opening base files job d block
        (.ok (), { job with
          dataStream := some (.fileStream (join base entry.name ++ ".download") 0)
          fileNum := block.fileNum }, d')

theorem openTarget_path {io : WriteIo P} {d d' : Disk P} {entry : FileEntry}
    {path : String} (htype : job.type = .generic)
    (h : job.openTarget resolve io d base entry = (.ok path, d')) :
    path = join base entry.name ++ ".download" := by
  unfold TransferJob.openTarget at h
  rw [htype] at h
  dsimp only at h
  cases hjoin : TransferJob.joinValidatedPath io.symlinkFree base entry.name with
  | error e =>
    rw [hjoin] at h
    cases h
  | ok filePath =>
    obtain rfl := joinValidatedPath_ok hjoin
    rw [hjoin] at h
    have hfirst := congrArg Prod.fst h
    dsimp only at hfirst
    cases hbegun : (beginFile io d
        (resolve (join base entry.name ++ ".download"))
        (resolve (join base entry.name ++ ".digest")) (digestJson job.digest)).1 with
    | error e =>
      rw [hbegun] at hfirst
      cases hfirst
    | ok _ =>
      rw [hbegun] at hfirst
      cases hfirst
      rfl

theorem openFor_opening {io : WriteIo P} {d : Disk P}
    {block : FileTransferBlock} (hw : Writes base files job) :
    Opening base files job d block (job.openFor resolve io d block) := by
  obtain ⟨⟨stream, hjob, hnone⟩, -⟩ := modifyTime_spec resolve io hw d
  unfold TransferJob.openFor
  split
  · exact .refused _
  · rename_i hid
    have hid : block.id = job.id := by simpa using hid
    rw [hw.source]
    dsimp only
    rw [hw.files]
    split
    · exact .refused _
    · rename_i entry hentry
      split
      · rename_i hleaves
        rw [hjob]
        dsimp only
        split
        · rename_i hsync
          refine .unflushed _ stream _ (Bool.and_eq_true_iff.mp hsync).1 hnone hleaves
            fun s hs hon => ?_
          obtain ⟨s', hs', hon'⟩ := modifyTime_onFile resolve io d hw hs hon
          rw [hjob] at hs'
          exact ⟨s', congrArg TransferJob.dataStream hs', hon'⟩
        · generalize hopen : TransferJob.openTarget resolve io _ _ _ _ = r
          rcases r with ⟨_ | path, d'⟩
          · exact .failed _ stream d' hnone hleaves
          · obtain rfl := openTarget_path resolve hw.type hopen
            exact .opened hid entry d' hentry hleaves
      · rename_i hleaves
        exact .stays hid entry hentry (by simpa using hleaves)

/-- A run of a write job, with the number it has taken over from a block whose file
could not be opened while another one was open. -/
structure OwnRun (P : Type) where
  run : WriteRun P
  taken : Option Nat

namespace OwnRun

variable (decompress : Bytes → Bytes)

def takenAfter (s : OwnRun P) (io : WriteIo P) (block : FileTransferBlock) : Option Nat :=
  if s.run.job.leaves block then
    match s.run.job.openFor resolve io s.run.disk block with
    | (.ok (), _, _) => none
    | (.error _, job, _) =>
      if asUsize job.fileNum = asUsize block.fileNum ∧ job.dataStream.isSome = true then
        some (asUsize block.fileNum)
      else s.taken
  else s.taken

def step (s : OwnRun P) (inp : WriteRun.Input P) : OwnRun P where
  run := s.run.step resolve decompress inp
  taken := match inp with
    | .write io block => if s.run.ended then s.taken else s.takenAfter resolve io block
    | .done _ | .cancel _ => s.taken

def start (job : TransferJob) (d : Disk P) : OwnRun P := ⟨.start job d, none⟩

/-- No block comes for a file that was taken to be done. -/
def NotTaken (s : OwnRun P) : WriteRun.Input P → Prop
  | .write _ block => s.run.ended = false → block.id = s.run.job.id →
      s.taken ≠ some (asUsize block.fileNum)
  | .done _ | .cancel _ => True

/-- **The data of a block goes to its own file.**  Once the file is open, nothing but the
file of this number changes, and nothing at all if it cannot be opened; and a block of the
current number opens nothing. -/
def ToOwnFile (base : String) (s : OwnRun P) : WriteRun.Input P → Prop
  | .write io block => s.run.ended = false →
      let opened := s.run.job.openFor resolve io s.run.disk block
      let after := s.run.job.write resolve decompress io s.run.disk block
      (∀ e, opened.1 = .error e → after.2.2 = opened.2.2) ∧
      (opened.1 = .ok () → ∃ entry path, s.run.job.files[asUsize block.fileNum]? = some entry ∧
        (path = join base entry.name ++ ".download" ∨ path = join base entry.name) ∧
        ∀ q, q ≠ resolve path → after.2.2.content q = opened.2.2.content q) ∧
      (asUsize block.fileNum = asUsize s.run.job.fileNum → s.run.job.dataStream ≠ none →
        opened.2.2 = s.run.disk)
  | .done _ | .cancel _ => True

structure Inv (base : String) (files : List FileEntry) (s : OwnRun P) : Prop where
  writes : Writes base files s.run.job
  stream : s.taken = none → ∀ stream, s.run.job.dataStream = some stream →
    OnFile base files (asUsize s.run.job.fileNum) stream
  taken : ∀ n, s.taken = some n → n = asUsize s.run.job.fileNum ∧ s.run.job.dataStream ≠ none

variable {s : OwnRun P}
variable {block : FileTransferBlock} {job : TransferJob} {io : WriteIo P} {d : Disk P}

theorem advance_error {e : String}
    (hopen : s.run.job.openFor resolve io s.run.disk block = (.error e, job, d)) :
    s.run.job.write resolve decompress io s.run.disk block = (.error e, job, d) ∧
      s.run.advance resolve decompress (.write io block) =
        { s.run with job := job, disk := d } := by
  have hwrite : s.run.job.write resolve decompress io s.run.disk block = (.error e, job, d) := by
    rw [TransferJob.write_eq, hopen]
  exact ⟨hwrite, by simp only [advance, hwrite]⟩

def aim (job : TransferJob) := (job.type, job.dataSource, job.files, job.fileNum)

theorem advance_ok {path : String} {pos : Nat}
    (hopen : s.run.job.openFor resolve io s.run.disk block = (.ok (), job, d))
    (hstream : job.dataStream = some (.fileStream path pos)) :
    (s.run.job.write resolve decompress io s.run.disk block).2.2
      = d.writeAt io (resolve path) pos (io.kept (blockBytes decompress block)) ∧
    aim (s.run.advance resolve decompress (.write io block)).job = aim job ∧
    ∃ pos', (s.run.advance resolve decompress (.write io block)).job.dataStream
      = some (.fileStream path pos') := by
  have hwrite := TransferJob.write_eq resolve decompress io s.run.job s.run.disk block
  rw [hopen] at hwrite
  dsimp only at hwrite
  unfold TransferJob.writeBytes at hwrite
  rw [hstream] at hwrite
  dsimp only at hwrite
  by_cases hfails : io.writeFails = true
  · rw [if_pos hfails] at hwrite
    simp only [advance, hwrite]
    exact ⟨trivial, rfl, _, rfl⟩
  · rw [if_neg hfails] at hwrite
    simp only [advance, hwrite]
    exact ⟨trivial, rfl, _, rfl⟩

theorem Writes.of_aim {job job' : TransferJob} (h : Writes base files job)
    (haim : aim job' = aim job) : Writes base files job' :=
  ⟨(congrArg (fun a => a.1) haim).trans h.type, (congrArg (fun a => a.2.1) haim).trans h.source,
    (congrArg (fun a => a.2.2.1) haim).trans h.files⟩

theorem leaves_eq_false
    (hnum : asUsize block.fileNum = asUsize job.fileNum) (hstream : job.dataStream ≠ none) :
    job.leaves block = false := by
  simp [TransferJob.leaves, hnum, hstream]

theorem toOwnFile_error {e : String}
    (hopen : s.run.job.openFor resolve io s.run.disk block = (.error e, job, d))
    (hsame : s.run.job.leaves block = false → d = s.run.disk) :
    s.ToOwnFile resolve decompress base (.write io block) := by
  intro _
  obtain ⟨hwrite, -⟩ := advance_error resolve decompress hopen
  rw [hopen, hwrite]
  refine ⟨fun _ _ => rfl, fun hok => ?_, fun hnum hstream => hsame (leaves_eq_false hnum hstream)⟩
  cases hok

theorem toOwnFile_ok {entry : FileEntry} {path : String} {pos : Nat}
    (hopen : s.run.job.openFor resolve io s.run.disk block = (.ok (), job, d))
    (hstream : job.dataStream = some (.fileStream path pos))
    (hentry : s.run.job.files[asUsize block.fileNum]? = some entry)
    (hpath : path = join base entry.name ++ ".download" ∨ path = join base entry.name)
    (hsame : s.run.job.leaves block = false → d = s.run.disk) :
    s.ToOwnFile resolve decompress base (.write io block) := by
  intro _
  obtain ⟨hdisk, -⟩ := advance_ok resolve decompress hopen hstream
  rw [hopen]
  refine ⟨fun e he => ?_, fun _ => ⟨entry, path, hentry, hpath, fun q hq => ?_⟩,
    fun hnum hstream => hsame (leaves_eq_false hnum hstream)⟩
  · cases he
  · rw [hdisk]
    exact Disk.content_writeAt_other io d pos _ hq

omit [DecidableEq P] in
theorem Inv.of_stream {run : WriteRun P} {stream : DataStream} (hw : Writes base files run.job)
    (hstream : run.job.dataStream = some stream)
    (hon : OnFile base files (asUsize run.job.fileNum) stream) : Inv base files ⟨run, none⟩ := by
  refine ⟨hw, fun _ stream' hstream' => ?_, fun n hn => by cases hn⟩
  obtain rfl : stream = stream' := Option.some.inj (hstream.symm.trans hstream')
  exact hon

theorem write_toOwnFile (h : Inv base files s)
    (hended : s.run.ended = false) (hnot : s.NotTaken (.write io block)) :
    s.ToOwnFile resolve decompress base (.write io block) ∧
      Inv base files (s.step resolve decompress (.write io block)) := by
  have hway : Opening base files s.run.job s.run.disk block
      (s.run.job.openFor resolve io s.run.disk block) := openFor_opening resolve h.writes
  have hstep : s.step resolve decompress (.write io block)
      = ⟨s.run.advance resolve decompress (.write io block), s.takenAfter resolve io block⟩ := by
    simp [step, WriteRun.step, hended]
  rw [hstep]
  generalize hopen : s.run.job.openFor resolve io s.run.disk block = r at hway
  cases hway with
  | refused e =>
    obtain ⟨-, hafter⟩ := advance_error resolve decompress hopen
    have hkept : s.takenAfter resolve io block = s.taken := by
      simp only [takenAfter, hopen, TransferJob.leaves]
      grind
    refine ⟨toOwnFile_error resolve decompress hopen fun _ => rfl, ?_⟩
    rw [hafter, hkept]
    exact ⟨h.writes, h.stream, h.taken⟩
  | stays hid entry hentry hleaves =>
    have hkept : s.takenAfter resolve io block = s.taken := by simp [takenAfter, hleaves]
    obtain ⟨hnum, hopened⟩ : asUsize block.fileNum = asUsize s.run.job.fileNum ∧
        s.run.job.dataStream ≠ none := by simpa [TransferJob.leaves] using hleaves
    -- the number was not taken over, so the open stream is that of this file
    have hnone : s.taken = none := by
      refine Option.eq_none_iff_forall_ne_some.mpr fun n hn => ?_
      exact hnot hended hid (by rw [hn, (h.taken n hn).1, hnum])
    obtain ⟨stream, hstream⟩ := Option.ne_none_iff_exists'.mp hopened
    obtain ⟨own, path, pos, hown, rfl, hpath⟩ := h.stream hnone stream hstream
    obtain ⟨-, haim, pos', hafter⟩ := advance_ok resolve decompress hopen hstream
    have hcurrent : (s.run.advance resolve decompress (.write io block)).job.fileNum
        = s.run.job.fileNum := congrArg (fun a => a.2.2.2) haim
    refine ⟨toOwnFile_ok resolve decompress hopen hstream (by rw [h.writes.files, hnum]; exact hown)
      hpath fun _ => rfl, ?_⟩
    rw [hkept, hnone]
    refine .of_stream (Writes.of_aim h.writes haim) hafter ?_
    rw [hcurrent]
    exact ⟨own, path, pos', hown, rfl, hpath⟩
  | unflushed e stream d' hstream hsame hleaves hkeeps =>
    obtain ⟨-, hafter⟩ := advance_error resolve decompress hopen
    have hopened : s.run.job.dataStream ≠ none := fun hnone => by
      rw [hsame.mpr hnone] at hstream
      cases hstream
    have hkept : s.takenAfter resolve io block = s.taken := by
      simp only [takenAfter, hopen, hleaves, if_true]
      refine if_neg fun htaken => ?_
      have hstays := leaves_eq_false htaken.1.symm hopened
      rw [hleaves] at hstays
      cases hstays
    refine ⟨toOwnFile_error resolve decompress hopen fun hstays => ?_, ?_⟩
    · rw [hleaves] at hstays
      cases hstays
    · rw [hafter, hkept]
      refine ⟨⟨h.writes.type, h.writes.source, h.writes.files⟩, fun hnone stream' hstream' => ?_,
        fun n hn => ⟨(h.taken n hn).1, ?_⟩⟩
      · obtain ⟨before, hbefore⟩ := Option.ne_none_iff_exists'.mp hopened
        obtain ⟨after, rfl, hon⟩ := hkeeps before hbefore (h.stream hnone before hbefore)
        obtain rfl : after = stream' := Option.some.inj hstream'
        exact hon
      · exact Option.isSome_iff_ne_none.mp hstream
  | failed e stream d' hsame hleaves =>
    obtain ⟨-, hafter⟩ := advance_error resolve decompress hopen
    refine ⟨toOwnFile_error resolve decompress hopen fun hstays => ?_, ?_⟩
    · rw [hleaves] at hstays
      cases hstays
    · rw [hafter]
      have hw : Writes base files { s.run.job with dataStream := stream, fileNum := block.fileNum } :=
        ⟨h.writes.type, h.writes.source, h.writes.files⟩
      cases stream with
      | some stream =>
        have htaken : s.takenAfter resolve io block = some (asUsize block.fileNum) := by
          simp [takenAfter, hleaves, hopen]
        rw [htaken]
        refine ⟨hw, fun hnone => (by cases hnone), fun n hn => ⟨?_, fun hnone => by cases hnone⟩⟩
        exact (Option.some.inj hn).symm
      | none =>
        have hkept : s.takenAfter resolve io block = s.taken := by
          simp [takenAfter, hleaves, hopen]
        rw [hkept]
        refine ⟨hw, fun _ stream' hstream' => (by cases hstream'), fun n hn => ?_⟩
        exact absurd (hsame.mp rfl) (h.taken n hn).2
  | opened hid entry d' hentry hleaves =>
    obtain ⟨-, haim, pos', hafter⟩ := advance_ok resolve decompress hopen rfl
    have hnone : s.takenAfter resolve io block = none := by simp [takenAfter, hleaves, hopen]
    refine ⟨toOwnFile_ok resolve decompress hopen rfl (by rw [h.writes.files]; exact hentry)
      (.inl rfl) fun hstays => ?_, ?_⟩
    · rw [hleaves] at hstays
      cases hstays
    · have hcurrent : (s.run.advance resolve decompress (.write io block)).job.fileNum
          = block.fileNum := congrArg (fun a => a.2.2.2) haim
      have hw : Writes base files { s.run.job with
          dataStream := some (.fileStream (join base entry.name ++ ".download") 0)
          fileNum := block.fileNum } :=
        ⟨h.writes.type, h.writes.source, h.writes.files⟩
      rw [hnone]
      refine .of_stream (Writes.of_aim hw haim) hafter ?_
      rw [hcurrent]
      exact ⟨entry, _, pos', hentry, rfl, .inl rfl⟩

theorem step_toOwnFile (h : Inv base files s) (inp : WriteRun.Input P) (hnot : s.NotTaken inp) :
    s.ToOwnFile resolve decompress base inp ∧ Inv base files (s.step resolve decompress inp) := by
  cases hended : s.run.ended with
  | true =>
    have hsame : s.step resolve decompress inp = s := by
      cases inp <;> simp [step, WriteRun.step, hended]
    rw [hsame]
    refine ⟨?_, h⟩
    cases inp with
    | write => exact fun hrunning => absurd (hended.symm.trans hrunning) (by simp)
    | done => trivial
    | cancel => trivial
  | false =>
    cases inp with
    | write io block => exact write_toOwnFile resolve decompress h hended hnot
    | cancel io =>
      refine ⟨trivial, ?_⟩
      simp only [step, WriteRun.step, hended, Bool.false_eq_true, if_false, advance]
      exact ⟨h.writes, h.stream, h.taken⟩
    | done io =>
      refine ⟨trivial, ?_⟩
      simp only [step, WriteRun.step, hended, Bool.false_eq_true, if_false, advance]
      obtain ⟨⟨stream, hjob, hsame⟩, -⟩ := modifyTime_spec resolve io h.writes s.run.disk
      rw [hjob]
      refine ⟨⟨h.writes.type, h.writes.source, h.writes.files⟩, fun hnone after hafter => ?_,
        fun n hn => ⟨(h.taken n hn).1, fun hnone => (h.taken n hn).2 (hsame.mp hnone)⟩⟩
      have hopened : s.run.job.dataStream ≠ none := by
        rw [Ne, ← hsame, show stream = some after from hafter]
        simp
      obtain ⟨before, hbefore⟩ := Option.ne_none_iff_exists'.mp hopened
      obtain ⟨stream', hjob', hon⟩ := modifyTime_onFile resolve io s.run.disk
        h.writes hbefore (h.stream hnone before hbefore)
      rw [hjob] at hjob'
      have heq : stream = some stream' := congrArg TransferJob.dataStream hjob'
      obtain rfl : after = stream' := Option.some.inj (hafter.symm.trans heq)
      exact hon

/-- **Blocks go to their own file.**  In every run of a write job, whatever fails, the data
of every block goes to the file of its number, as long as no block comes with a number
that was taken over without its file. -/
theorem blocks_reach_own_file (job : TransferJob) (d : Disk P) (hw : Writes base files job)
    (hnone : job.dataStream = none) (is : List (WriteRun.Input P))
    (h : Run.Along (step resolve decompress) NotTaken (start job d) is) :
    Run.Along (step resolve decompress) (ToOwnFile resolve decompress base) (start job d) is := by
  have hfirst : Inv base files (start job d) := by
    refine ⟨hw, fun _ stream hstream => ?_, fun n hn => by cases hn⟩
    have hclosed : (start job d).run.job.dataStream = none := hnone
    rw [hclosed] at hstream
    cases hstream
  exact h.of_invariant (P := Inv base files)
    (fun s inp hs hnot => (step_toOwnFile resolve decompress hs inp hnot).2)
    (fun s inp hs hnot => (step_toOwnFile resolve decompress hs inp hnot).1) hfirst

/-- A job that downloads `a` and `b` into the directory `d`. -/
def twoFilesJob : TransferJob :=
  { newWrite 1 .generic (.filePath "d") 0 false with
    files := [⟨"a", 2, 7⟩, ⟨"b", 1, 7⟩], totalSize := 3 }

def blockOf (fileNum : Int) (data : Bytes) : FileTransferBlock := ⟨1, fileNum, data, false⟩

/-- A directory stands where `b` is to be downloaded to. -/
def bOccupied : WriteIo String :=
  { WriteIo.allOk String with occupied := fun path => path = "d/b.download" }

/-- An opening fails, and the block that comes next is for the first file again. -/
theorem own_file_after_failure :
    twoFilesJob.dataStream = none ∧
    Run.Along (step id id) (ToOwnFile id id "d") (start twoFilesJob fun _ => none)
      [.write (.allOk String) (blockOf 0 [104]), .write bOccupied (blockOf 1 [33]),
        .write (.allOk String) (blockOf 0 [105])] :=
  ⟨rfl, blocks_reach_own_file id id twoFilesJob (fun _ => none) ⟨rfl, rfl, rfl⟩ rfl
    [.write (.allOk String) (blockOf 0 [104]), .write bOccupied (blockOf 1 [33]),
      .write (.allOk String) (blockOf 0 [105])]
    ⟨fun _ _ => by decide, fun _ _ => by decide, fun _ _ => by decide, trivial⟩⟩

/-- **A block in another file.**  `a` has received "hi"; the first block of `b` fails,
because `b` cannot be opened; its second block is accepted and appended to `a`. -/
theorem block_in_other_file : let inputs : List (WriteRun.Input String) :=
      [.write (.allOk String) (blockOf 0 [104, 105]), .write bOccupied (blockOf 1 [33])]
    let s := Run.exec (step id id) (start twoFilesJob fun _ => none) inputs
    s.run.disk.content "d/a" = some [104, 105] ∧
    (s.step id id (.write (.allOk String) (blockOf 1 [33]))).run.disk.content "d/a"
      = some [104, 105, 33] ∧
    ¬s.ToOwnFile id id "d" (.write (.allOk String) (blockOf 1 [33])) := by
  intro inputs s
  refine ⟨by decide, by decide, fun h => ?_⟩
  obtain ⟨-, hown, hstays⟩ := h (by decide)
  obtain ⟨entry, path, hentry, hpath, hother⟩ := hown (by decide)
  obtain rfl : entry = ⟨"b", 1, 7⟩ := (Option.some.inj hentry).symm
  have hsame := hother "d/a" (by rcases hpath with rfl | rfl <;> decide)
  cases hsame

end OwnRun
end RustDesk
