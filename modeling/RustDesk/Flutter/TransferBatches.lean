import Mathlib.Data.List.AList

/-!
# The conflict batches of the file transfers

The jobs of one transfer form a batch, and an answer to the question whether a file is to be
overwritten can be remembered for the batch.  A job is in its batch until it is done, fails or is
cancelled; with the last job of the batch the answer is forgotten.

* `transferConflictBatchId_register`, `transferConflictBatchId_unregister` and
  `transferConflictBatchId_cancelBatch`: which jobs are in a batch after each operation.
* `Shrinks`: **what every operation but a registration does**: no job enters a batch, and a
  remembered answer is kept as it is or forgotten.
-/

namespace RustDesk

inductive JobState where
  | none
  | inProgress
  | done
  | error
  | paused
  deriving DecidableEq

/-- `JobProgress` of a transfer. -/
structure JobProgress where
  id : Int
  state : JobState
  err : String

structure JobController where
  jobTable : List JobProgress
  nextTransferConflictBatchId : Int
  transferConflictJobToBatch : AList fun _ : Int => Int
  transferConflictRememberBatchId : Option Int
  transferConflictRememberOverrideConfirm : Option Bool

namespace JobController

def start : JobController where
  jobTable := []
  nextTransferConflictBatchId := 1
  transferConflictJobToBatch := ∅
  transferConflictRememberBatchId := none
  transferConflictRememberOverrideConfirm := none

def transferConflictBatchId (c : JobController) (jobId : Int) : Option Int :=
  c.transferConflictJobToBatch.lookup jobId

def hasTransferConflictJob (c : JobController) (jobId : Int) : Bool :=
  (c.transferConflictBatchId jobId).isSome

/-- `containsValue` of the map. -/
def hasBatch (c : JobController) (batchId : Int) : Bool :=
  c.transferConflictJobToBatch.entries.any fun x => x.2 = batchId

def batchIdFor (c : JobController) (batchId : Option Int) : Int :=
  batchId.getD c.nextTransferConflictBatchId

def registerTransferConflictBatch (c : JobController) (jobIds : List Int)
    (batchId : Option Int) : JobController :=
  if jobIds = [] then c
  else
    { c with
      nextTransferConflictBatchId := max c.nextTransferConflictBatchId (c.batchIdFor batchId + 1)
      transferConflictJobToBatch :=
        jobIds.foldl (fun m jobId => m.insert jobId (c.batchIdFor batchId))
          c.transferConflictJobToBatch }

def isTransferConflictRememberBatch (c : JobController) (batchId : Option Int) : Bool :=
  batchId.isSome && batchId = c.transferConflictRememberBatchId

def rememberTransferConflictBatch (c : JobController) (jobId : Int)
    (overrideConfirm : Option Bool) : JobController :=
  { c with
    transferConflictRememberBatchId := c.transferConflictBatchId jobId
    transferConflictRememberOverrideConfirm := overrideConfirm }

def forgetEmptied (c : JobController) (batchId : Int) : JobController :=
  if c.hasBatch batchId = false ∧ c.transferConflictRememberBatchId = some batchId then
    { c with
      transferConflictRememberBatchId := none
      transferConflictRememberOverrideConfirm := none }
  else c

def unregisterTransferConflictJob (c : JobController) (jobId : Int) : JobController :=
  match c.transferConflictBatchId jobId with
  | none => c
  | some batchId =>
    forgetEmptied
      { c with transferConflictJobToBatch := c.transferConflictJobToBatch.erase jobId } batchId

def getJob (c : JobController) (id : Int) : Option JobProgress :=
  c.jobTable.find? fun job => job.id = id

def modifyJob (f : JobProgress → JobProgress) (id : Int) : List JobProgress → List JobProgress
  | [] => []
  | job :: jobs => if job.id = id then f job :: jobs else job :: modifyJob f id jobs

def withJob (c : JobController) (id : Int) (f : JobProgress → JobProgress) : JobController :=
  { c with jobTable := modifyJob f id c.jobTable }

def addJob (c : JobController) (id : Int) (state : JobState) : JobController :=
  { c with jobTable := c.jobTable ++ [⟨id, state, ""⟩] }

def resumeJob (c : JobController) (id : Int) : JobController :=
  c.withJob id fun job => { job with state := .inProgress }

def jobDone (c : JobController) (id : Option Int) : JobController :=
  (c.withJob (id.getD (-1)) fun job => { job with state := .done }).unregisterTransferConflictJob
    (id.getD (-1))

def ignoresError (c : JobController) (id : Int) : Bool :=
  (c.getJob id).any fun job => job.state = .done && job.err = "cancel"

def jobError (c : JobController) (id : Option Int) (err : String) : JobController :=
  match id with
  | none => c
  | some id =>
    if c.ignoresError id = true then c
    else
      (c.withJob id fun job =>
        { job with
          state := if err = "skipped" then .done else .error
          err := err }).unregisterTransferConflictJob id

def cancelJob (c : JobController) (id : Int) : JobController :=
  c.unregisterTransferConflictJob id

def batchJobIds (c : JobController) (jobId : Int) : List Int :=
  match c.transferConflictBatchId jobId with
  | none => [jobId]
  | some batchId =>
    (c.transferConflictJobToBatch.entries.filter fun x => x.2 = batchId).map Sigma.fst

def cancelRows (c : JobController) (ids : List Int) : JobController :=
  { c with
    jobTable := c.jobTable.map fun job =>
      if job.id ∈ ids ∧ job.state ≠ .done then { job with state := .done, err := "cancel" }
      else job }

def cancelTransferConflictBatch (c : JobController) (jobId : Int) : JobController :=
  ((if c.hasTransferConflictJob jobId = true then
      (c.batchJobIds jobId).foldl unregisterTransferConflictJob c
    else c)).cancelRows (c.batchJobIds jobId)

variable {c : JobController}

theorem hasBatch_iff {batchId : Int} :
    c.hasBatch batchId = true ↔ ∃ jobId, c.transferConflictBatchId jobId = some batchId := by
  simp only [hasBatch, List.any_eq_true, decide_eq_true_eq]
  constructor
  · rintro ⟨⟨jobId, b⟩, hmem, rfl⟩
    exact ⟨jobId, AList.mem_lookup_iff.mpr hmem⟩
  · rintro ⟨jobId, h⟩
    exact ⟨⟨jobId, batchId⟩, AList.mem_lookup_iff.mp h, rfl⟩

theorem lookup_foldl_insert (jobIds : List Int) (batchId jobId : Int)
    (m : AList fun _ : Int => Int) :
    (jobIds.foldl (fun m jobId => m.insert jobId batchId) m).lookup jobId =
      if jobId ∈ jobIds then some batchId else m.lookup jobId := by
  induction jobIds generalizing m with
  | nil => simp
  | cons j jobIds ih =>
    rw [List.foldl_cons, ih]
    by_cases hmem : jobId ∈ jobIds
    · simp [hmem]
    · by_cases hj : jobId = j
      · subst hj
        simp [hmem]
      · simp [hmem, hj, AList.lookup_insert_ne]

theorem transferConflictBatchId_register (c : JobController) (jobIds : List Int)
    (batchId : Option Int) (jobId : Int) :
    (c.registerTransferConflictBatch jobIds batchId).transferConflictBatchId jobId =
      if jobId ∈ jobIds then some (c.batchIdFor batchId) else c.transferConflictBatchId jobId := by
  by_cases hids : jobIds = []
  · simp [registerTransferConflictBatch, hids]
  · rw [registerTransferConflictBatch, if_neg hids]
    exact lookup_foldl_insert jobIds _ jobId _

@[simp] theorem transferConflictBatchId_forgetEmptied (c : JobController) (batchId jobId : Int) :
    (c.forgetEmptied batchId).transferConflictBatchId jobId = c.transferConflictBatchId jobId := by
  unfold forgetEmptied
  split <;> rfl

theorem transferConflictBatchId_unregister (c : JobController) (id jobId : Int) :
    (c.unregisterTransferConflictJob id).transferConflictBatchId jobId =
      if jobId = id then none else c.transferConflictBatchId jobId := by
  unfold unregisterTransferConflictJob
  split
  · next hnone =>
      by_cases hj : jobId = id
      · rw [if_pos hj, hj, hnone]
      · rw [if_neg hj]
  · rw [transferConflictBatchId_forgetEmptied]
    by_cases hj : jobId = id
    · subst hj
      rw [if_pos rfl]
      exact AList.lookup_erase _ _
    · rw [if_neg hj]
      exact AList.lookup_erase_ne hj

theorem transferConflictBatchId_unregisterAll (ids : List Int) (c : JobController) (jobId : Int) :
    (ids.foldl unregisterTransferConflictJob c).transferConflictBatchId jobId =
      if jobId ∈ ids then none else c.transferConflictBatchId jobId := by
  induction ids generalizing c with
  | nil => simp
  | cons id ids ih =>
    rw [List.foldl_cons, ih, transferConflictBatchId_unregister]
    by_cases hmem : jobId ∈ ids
    · simp [hmem]
    · by_cases hj : jobId = id
      · simp [hj]
      · simp [hmem, hj]

theorem mem_batchJobIds {jobId id batchId : Int}
    (h : c.transferConflictBatchId jobId = some batchId) :
    id ∈ c.batchJobIds jobId ↔ c.transferConflictBatchId id = some batchId := by
  unfold batchJobIds
  rw [h]
  simp only [List.mem_map, List.mem_filter, decide_eq_true_eq]
  constructor
  · rintro ⟨⟨j, b⟩, ⟨hmem, rfl⟩, rfl⟩
    exact AList.mem_lookup_iff.mpr hmem
  · intro hid
    exact ⟨⟨id, batchId⟩, ⟨AList.mem_lookup_iff.mp hid, rfl⟩, rfl⟩

theorem transferConflictBatchId_cancelBatch {jobId batchId : Int}
    (h : c.transferConflictBatchId jobId = some batchId) (id : Int) :
    (c.cancelTransferConflictBatch jobId).transferConflictBatchId id =
      if c.transferConflictBatchId id = some batchId then none
      else c.transferConflictBatchId id := by
  have hhas : c.hasTransferConflictJob jobId = true := by simp [hasTransferConflictJob, h]
  have hall := transferConflictBatchId_unregisterAll (c.batchJobIds jobId) c id
  simp only [mem_batchJobIds h] at hall
  rw [cancelTransferConflictBatch, if_pos hhas]
  exact hall

structure Shrinks (c c' : JobController) : Prop where
  sub : ∀ jobId batchId, c'.transferConflictBatchId jobId = some batchId →
    c.transferConflictBatchId jobId = some batchId
  remember : c'.transferConflictRememberBatchId = none ∨
    c'.transferConflictRememberBatchId = c.transferConflictRememberBatchId ∧
      c'.transferConflictRememberOverrideConfirm = c.transferConflictRememberOverrideConfirm

theorem Shrinks.of_eq {c c' : JobController}
    (hmap : c'.transferConflictJobToBatch = c.transferConflictJobToBatch)
    (hid : c'.transferConflictRememberBatchId = c.transferConflictRememberBatchId)
    (hresp : c'.transferConflictRememberOverrideConfirm =
      c.transferConflictRememberOverrideConfirm) : c.Shrinks c' where
  sub jobId batchId h := by
    unfold transferConflictBatchId at h ⊢
    rw [← hmap]
    exact h
  remember := Or.inr ⟨hid, hresp⟩

theorem Shrinks.refl (c : JobController) : c.Shrinks c := Shrinks.of_eq rfl rfl rfl

theorem Shrinks.trans {a b c : JobController} (hab : a.Shrinks b) (hbc : b.Shrinks c) :
    a.Shrinks c where
  sub jobId batchId h := hab.sub jobId batchId (hbc.sub jobId batchId h)
  remember := by
    rcases hbc.remember with hnone | ⟨hid, hresp⟩
    · exact Or.inl hnone
    · rcases hab.remember with hnone | ⟨hid', hresp'⟩
      · exact Or.inl (hid.trans hnone)
      · exact Or.inr ⟨hid.trans hid', hresp.trans hresp'⟩

theorem Shrinks.hasBatch {c c' : JobController} (h : c.Shrinks c') {batchId : Int}
    (hhas : c'.hasBatch batchId = true) : c.hasBatch batchId = true := by
  obtain ⟨jobId, hjob⟩ := hasBatch_iff.mp hhas
  exact hasBatch_iff.mpr ⟨jobId, h.sub jobId batchId hjob⟩

theorem Shrinks.none {c c' : JobController} (h : c.Shrinks c') {jobId : Int}
    (hnone : c.transferConflictBatchId jobId = none) : c'.transferConflictBatchId jobId = none := by
  cases hid : c'.transferConflictBatchId jobId with
  | none => rfl
  | some batchId => exact absurd (h.sub jobId batchId hid) (by simp [hnone])

theorem unregister_shrinks (c : JobController) (id : Int) :
    c.Shrinks (c.unregisterTransferConflictJob id) where
  sub jobId batchId h := by
    rw [transferConflictBatchId_unregister] at h
    split at h
    · exact absurd h.symm (Option.some_ne_none _)
    · exact h
  remember := by
    unfold unregisterTransferConflictJob
    split
    · exact Or.inr ⟨rfl, rfl⟩
    · unfold forgetEmptied
      split
      · exact Or.inl rfl
      · exact Or.inr ⟨rfl, rfl⟩

theorem unregisterAll_shrinks (ids : List Int) (c : JobController) :
    c.Shrinks (ids.foldl unregisterTransferConflictJob c) := by
  induction ids generalizing c with
  | nil => exact Shrinks.refl c
  | cons id ids ih => exact (unregister_shrinks c id).trans (ih _)

theorem withJob_shrinks (c : JobController) (id : Int) (f : JobProgress → JobProgress) :
    c.Shrinks (c.withJob id f) := Shrinks.of_eq rfl rfl rfl

theorem addJob_shrinks (c : JobController) (id : Int) (state : JobState) :
    c.Shrinks (c.addJob id state) := Shrinks.of_eq rfl rfl rfl

theorem jobDone_shrinks (c : JobController) (id : Option Int) : c.Shrinks (c.jobDone id) :=
  (withJob_shrinks c _ _).trans (unregister_shrinks _ _)

theorem jobError_shrinks (c : JobController) (id : Option Int) (err : String) :
    c.Shrinks (c.jobError id err) := by
  unfold jobError
  split
  · exact Shrinks.refl c
  · split
    · exact Shrinks.refl c
    · exact (withJob_shrinks c _ _).trans (unregister_shrinks _ _)

theorem cancelBatch_shrinks (c : JobController) (jobId : Int) :
    c.Shrinks (c.cancelTransferConflictBatch jobId) := by
  unfold cancelTransferConflictBatch
  split
  · exact (unregisterAll_shrinks _ c).trans (Shrinks.of_eq rfl rfl rfl)
  · exact Shrinks.of_eq rfl rfl rfl

theorem jobDone_self (c : JobController) (id : Option Int) :
    (c.jobDone id).transferConflictBatchId (id.getD (-1)) = none := by
  rw [jobDone, transferConflictBatchId_unregister, if_pos rfl]

theorem jobError_self {id : Int} (err : String) (h : c.ignoresError id = false) :
    (c.jobError (some id) err).transferConflictBatchId id = none := by
  simp only [jobError, h, Bool.false_eq_true, if_false]
  rw [transferConflictBatchId_unregister, if_pos rfl]

theorem cancelBatch_self {jobId id : Int} (h : id ∈ c.batchJobIds jobId) :
    (c.cancelTransferConflictBatch jobId).transferConflictBatchId id = none := by
  cases hbatch : c.transferConflictBatchId jobId with
  | none =>
    have hid : id = jobId := by simpa [batchJobIds, hbatch] using h
    rw [hid]
    exact (cancelBatch_shrinks c jobId).none hbatch
  | some batchId =>
    rw [transferConflictBatchId_cancelBatch hbatch, if_pos ((mem_batchJobIds hbatch).mp h)]

theorem batchJobIds_unregistered {jobId id : Int}
    (h : c.hasTransferConflictJob jobId = false) (hid : id ∈ c.batchJobIds jobId) :
    c.transferConflictBatchId id = none := by
  have hnone : c.transferConflictBatchId jobId = none := by
    simpa [hasTransferConflictJob] using h
  have hself : id = jobId := by simpa [batchJobIds, hnone] using hid
  rw [hself, hnone]

theorem cancelJob_self (c : JobController) (id : Int) :
    (c.cancelJob id).transferConflictBatchId id = none := by
  rw [cancelJob, transferConflictBatchId_unregister, if_pos rfl]

end JobController
end RustDesk
