import RustDesk.Flutter.TransferBatches
import RustDesk.Lib.Run

/-!
# Overwrite or skip: the answers to file conflicts

Each file that exists already makes an override-confirm event, and the loop takes the events one by
one: it loads the answer that is remembered for the batch of the job into the event, which is then
answered at once, or the user is asked.  With "Do this for all conflicts" ticked the answer is kept
in the controller, in the loop and, until the next dialog, in the flag of the checkbox.

* `remembered_for_batch_along`: **an answer that is sent without a dialog, or to be remembered, was
  given with the box ticked in a dialog for the same batch, which has not been without jobs since**,
  and no job is answered after its end, in every run where no batch gets jobs again while one of the
  copies is held for it, no job leaves its batch while its event is handled, and no error event of a
  registered job is dropped.
-/

open Run

namespace RustDesk

open List

structure OverrideEvent where
  id : Int
  fileNum : Int
  isUpload : Bool
  deriving DecidableEq

/-- The arguments of `sessionSetConfirmOverrideFile`. -/
structure ConfirmOverride where
  actId : Int
  fileNum : Int
  needOverride : Bool
  remember : Bool
  isUpload : Bool
  deriving DecidableEq

/-- Where the loop waits: for events, for an event that has been prepared with its copies of
`overrideConfirm` and `skip`, for an answer, for the code after an answer, for the call that
sends it, or for the next round. -/
inductive LoopPhase where
  | idle
  | prepared (evt : OverrideEvent) (overrideConfirm : Option Bool) (skip : Bool)
  | dialog (evt : OverrideEvent) (batchId : Option Int)
  | answered (evt : OverrideEvent) (batchId : Option Int) (resp : Option Bool)
  | sending (resp : Option Bool)
  | consumed
  deriving DecidableEq

/-- The jobs, the events, the fields of `FileDialogEventLoop`, the checkbox, and the call that the
last step has made, if any, with whether a dialog was shown for it.  A dialog comes with the batch
that it was opened for. -/
structure FileConflicts where
  jobs : JobController
  evts : List OverrideEvent
  batchId : Option Int
  overrideConfirm : Option Bool
  skip : Bool
  phase : LoopPhase
  fileConfirmCheckboxRemember : Bool
  call : Option (ConfirmOverride × Bool)

namespace FileConflicts

def start : FileConflicts where
  jobs := JobController.start
  evts := []
  batchId := none
  overrideConfirm := none
  skip := false
  phase := .idle
  fileConfirmCheckboxRemember := false
  call := none

def preset (overrideConfirm : Option Bool) (skip : Bool) : Option Bool :=
  match overrideConfirm with
  | some true => some true
  | some false => none
  | none => if skip = true then some false else none

/-- What an answer asks for, overwrite or skip; `some false` cancels. -/
def decision (resp : Option Bool) : Option Bool := preset resp resp.isNone

def postOverrideFileConfirm (s : FileConflicts) (id : Option Int) (fileNum : Int)
    (isUpload : Bool) : FileConflicts :=
  match id with
  | none => s
  | some id =>
    if s.jobs.hasTransferConflictJob id = true then
      { s with evts := s.evts ++ [⟨id, fileNum, isUpload⟩] }
    else s

def rememberIfTicked (s : FileConflicts) (id : Int) (resp : Option Bool) : FileConflicts :=
  if s.fileConfirmCheckboxRemember = true then
    { s with jobs := s.jobs.rememberTransferConflictBatch id resp, skip := resp.isNone }
  else s

/-- `sessionSetConfirmOverrideFile`. -/
def send (s : FileConflicts) (evt : OverrideEvent) (resp : Option Bool) (dialog : Bool) :
    FileConflicts :=
  { s with
    phase := .sending resp
    call := some
      (⟨evt.id, evt.fileNum, resp.isSome, s.fileConfirmCheckboxRemember, evt.isUpload⟩, dialog) }

/-- `overrideFileConfirm` from the answer to the call. -/
def confirm (s : FileConflicts) (evt : OverrideEvent) (resp : Option Bool) (dialog : Bool) :
    FileConflicts :=
  if s.jobs.hasTransferConflictJob evt.id = false then { s with phase := .consumed }
  else if resp = some false then
    { s with jobs := s.jobs.cancelTransferConflictBatch evt.id, phase := .sending resp }
  else (s.rememberIfTicked evt.id resp).send evt resp dialog

def showFileConfirmDialog (s : FileConflicts) (evt : OverrideEvent) : FileConflicts :=
  { s with
    fileConfirmCheckboxRemember := false
    phase := .dialog evt (s.jobs.transferConflictBatchId evt.id) }

/-- `overrideFileConfirm` up to the dialog, or to the call if there is none. -/
def overrideFileConfirm (s : FileConflicts) (evt : OverrideEvent) (overrideConfirm : Option Bool)
    (skip : Bool) : FileConflicts :=
  if evt.id = 0 ∨ s.jobs.hasTransferConflictJob evt.id = false then { s with phase := .consumed }
  else if overrideConfirm.isSome = true ∨ skip = true then s.confirm evt overrideConfirm false
  else s.showFileConfirmDialog evt

/-- The end of `overrideFileConfirm`. -/
def setOverrideConfirm (s : FileConflicts) (resp : Option Bool) : FileConflicts :=
  { s with
    overrideConfirm := if s.fileConfirmCheckboxRemember = true then resp else s.overrideConfirm
    phase := .consumed }

def preload (s : FileConflicts) (batchId : Option Int) : FileConflicts :=
  if s.jobs.isTransferConflictRememberBatch batchId = true then
    { s with
      batchId := batchId
      overrideConfirm := s.jobs.transferConflictRememberOverrideConfirm
      skip := s.jobs.transferConflictRememberOverrideConfirm.isNone }
  else if s.batchId ≠ batchId then
    { s with batchId := batchId, overrideConfirm := none, skip := false }
  else s

def prepare (s : FileConflicts) (evt : OverrideEvent) : FileConflicts :=
  { s with phase := .prepared evt s.overrideConfirm s.skip }

def onPreConsume (s : FileConflicts) (evt : OverrideEvent) : FileConflicts :=
  (s.preload (s.jobs.transferConflictBatchId evt.id)).prepare evt

def onEventsClear (s : FileConflicts) : FileConflicts :=
  { s with batchId := none, overrideConfirm := none, skip := false, phase := .idle }

def nextEvent (s : FileConflicts) : FileConflicts :=
  match s.evts with
  | [] => s.onEventsClear
  | evt :: evts => { s with evts := evts }.onPreConsume evt

end FileConflicts

inductive FileEvent where
  | register (jobIds : List Int) (batchId : Option Int)
  | post (id : Option Int) (fileNum : Int) (isUpload : Bool)
  | addJob (id : Int) (state : JobState)
  | resumeJob (id : Int)
  | jobDone (id : Option Int)
  | jobError (id : Option Int) (err : String)
  | cancelJob (id : Int)
  | timer
  | consume
  | tick (checked : Bool)
  | answer (resp : Option Bool)
  | confirm
  | sent
  | nextEvent
  deriving DecidableEq

namespace FileConflicts

def withJobs (s : FileConflicts) (jobs : JobController) : FileConflicts := { s with jobs := jobs }

def loopStep (s : FileConflicts) (e : FileEvent) : FileConflicts :=
  match e, s.phase with
  | .timer, .idle => if s.evts = [] then s else s.nextEvent
  | .consume, .prepared evt overrideConfirm skip => s.overrideFileConfirm evt overrideConfirm skip
  | .tick checked, .dialog _ _ => { s with fileConfirmCheckboxRemember := checked }
  | .answer resp, .dialog evt batchId => { s with phase := .answered evt batchId resp }
  | .confirm, .answered evt _ resp => s.confirm evt resp true
  | .sent, .sending resp => s.setOverrideConfirm resp
  | .nextEvent, .consumed => s.nextEvent
  | _, _ => s

def act (s : FileConflicts) (e : FileEvent) : FileConflicts :=
  match e with
  | .register jobIds batchId => s.withJobs (s.jobs.registerTransferConflictBatch jobIds batchId)
  | .post id fileNum isUpload => s.postOverrideFileConfirm id fileNum isUpload
  | .addJob id state => s.withJobs (s.jobs.addJob id state)
  | .resumeJob id => s.withJobs (s.jobs.resumeJob id)
  | .jobDone id => s.withJobs (s.jobs.jobDone id)
  | .jobError id err => s.withJobs (s.jobs.jobError id err)
  | .cancelJob id => s.withJobs (s.jobs.cancelJob id)
  | e => s.loopStep e

def noCall (s : FileConflicts) : FileConflicts := { s with call := none }

def step (s : FileConflicts) (e : FileEvent) : FileConflicts := s.noCall.act e

def endedBy (s : FileConflicts) (e : FileEvent) : List Int :=
  match e, s.phase with
  | .jobDone id, _ => [id.getD (-1)]
  | .jobError (some id) _, _ => [id]
  | .cancelJob id, _ => [id]
  | .consume, .prepared evt (some false) _ =>
    if evt.id = 0 then [] else s.jobs.batchJobIds evt.id
  | .confirm, .answered evt _ (some false) => s.jobs.batchJobIds evt.id
  | _, _ => []

def allowedBy (s : FileConflicts) (e : FileEvent) : List (Int × Bool) :=
  match e, s.phase with
  | .answer resp, .dialog _ (some batchId) =>
    if s.fileConfirmCheckboxRemember = true then
      (decision resp).toList.map fun needOverride => (batchId, needOverride)
    else []
  | _, _ => []

def registeredBy (e : FileEvent) : List Int :=
  match e with
  | .register jobIds _ => jobIds
  | _ => []

end FileConflicts

/-- The file model, the jobs that have ended and have not been registered again, and what the user
has allowed for all conflicts of the batches that have had jobs ever since. -/
structure WatchedConflicts where
  model : FileConflicts
  ended : List Int
  allowed : List (Int × Bool)

namespace WatchedConflicts

open FileConflicts

def start : WatchedConflicts := ⟨FileConflicts.start, [], []⟩

def step (w : WatchedConflicts) (e : FileEvent) : WatchedConflicts where
  model := w.model.step e
  ended := (w.ended ++ w.model.endedBy e).filter fun id => id ∉ registeredBy e
  allowed := (w.allowed ++ w.model.allowedBy e).filter fun x => (w.model.step e).jobs.hasBatch x.1

/-- **An answer that is sent is for a job that has not ended, and without a dialog or with
`remember` it is one that the user has allowed for the batch.** -/
def Sound (w : WatchedConflicts) : Prop :=
  ∀ call dialog, w.model.call = some (call, dialog) → call.actId ∉ w.ended ∧
    (dialog = false ∨ call.remember = true →
      ∃ batchId, w.model.jobs.transferConflictBatchId call.actId = some batchId ∧
        (batchId, call.needOverride) ∈ w.allowed)

end WatchedConflicts

namespace FileConflicts

/-- A copy of an answer is held for the batch: by the controller, by the loop, or by the code that
is about to put it there. -/
def Holds (s : FileConflicts) (batchId : Int) : Prop :=
  s.jobs.transferConflictRememberBatchId = some batchId ∨
    s.batchId = some batchId ∧ preset s.overrideConfirm s.skip ≠ none ∨
    s.fileConfirmCheckboxRemember = true ∧
      match s.phase with
      | .answered _ asked resp => asked = some batchId ∧ decision resp ≠ none
      | .sending resp => s.batchId = some batchId ∧ decision resp ≠ none
      | _ => False

/-- **The condition**: a batch that gets its first job is not one that a copy is held for; an
event that is answered with a copy, or with the box ticked, is for a job that is still in the batch
that the copies are for; an error event of a registered job is not dropped. -/
def Meets (s : FileConflicts) (e : FileEvent) : Prop :=
  match e, s.phase with
  | .register jobIds batchId, _ =>
    jobIds ≠ [] → s.jobs.hasBatch (s.jobs.batchIdFor batchId) = false →
      ¬s.Holds (s.jobs.batchIdFor batchId)
  | .jobError (some id) _, _ =>
    s.jobs.ignoresError id = true → s.jobs.transferConflictBatchId id = none
  | .consume, .prepared evt overrideConfirm skip =>
    preset overrideConfirm skip ≠ none → s.jobs.hasTransferConflictJob evt.id = true →
      s.jobs.transferConflictBatchId evt.id = s.batchId
  | .confirm, .answered evt asked resp =>
    s.fileConfirmCheckboxRemember = true → decision resp ≠ none →
      s.jobs.hasTransferConflictJob evt.id = true →
        s.jobs.transferConflictBatchId evt.id = s.batchId ∧ asked = s.batchId
  | _, _ => True

@[simp] theorem preset_true (skip : Bool) : preset (some true) skip = some true := rfl

@[simp] theorem preset_false (skip : Bool) : preset (some false) skip = none := rfl

@[simp] theorem preset_none_false : preset none false = none := rfl

variable {resp : Option Bool}

theorem decision_of_preset {skip needOverride : Bool}
    (h : preset resp skip = some needOverride) : decision resp = some needOverride := by
  cases resp with
  | none =>
    cases skip with
    | false => cases h
    | true => exact h
  | some v =>
    cases v with
    | false => cases h
    | true => exact h

theorem decision_eq (h : resp ≠ some false) : decision resp = some resp.isSome := by
  cases resp with
  | none => rfl
  | some v =>
    cases v with
    | false => exact absurd rfl h
    | true => rfl

variable {overrideConfirm : Option Bool} {skip : Bool}

theorem preset_eq
    (h : overrideConfirm ≠ some false) (hpreset : overrideConfirm.isSome = true ∨ skip = true) :
    preset overrideConfirm skip = some overrideConfirm.isSome := by
  cases overrideConfirm with
  | none =>
    have hskip : skip = true := by simpa using hpreset
    rw [hskip]
    rfl
  | some v =>
    cases v with
    | false => exact absurd rfl h
    | true => rfl

def Allows (jobs : JobController) (allowed : List (Int × Bool)) (batchId : Option Int)
    (wanted : Option Bool) : Prop :=
  ∀ b needOverride, batchId = some b → wanted = some needOverride → jobs.hasBatch b = true →
    (b, needOverride) ∈ allowed

theorem Allows.none (jobs : JobController) (allowed : List (Int × Bool)) (batchId : Option Int) :
    Allows jobs allowed batchId none :=
  fun _ _ _ h _ => absurd h.symm (Option.some_ne_none _)

variable {batchId : Option Int} {jobs : JobController} {wanted : Option Bool}

theorem Allows.append {allowed : List (Int × Bool)} (h : Allows jobs allowed batchId wanted)
    (new : List (Int × Bool)) : Allows jobs (allowed ++ new) batchId wanted :=
  fun b needOverride hb hw hhas => mem_append_left _ (h b needOverride hb hw hhas)

theorem Allows.prune {allowed : List (Int × Bool)} (h : Allows jobs allowed batchId wanted) :
    Allows jobs (allowed.filter fun x => jobs.hasBatch x.1) batchId wanted :=
  fun b needOverride hb hw hhas =>
    mem_filter.mpr ⟨h b needOverride hb hw hhas, hhas⟩

theorem Allows.withJobs {jobs jobs' : JobController} {allowed : List (Int × Bool)}
    (h : Allows jobs allowed batchId wanted)
    (hjobs : ∀ b, batchId = some b → wanted ≠ Option.none → jobs'.hasBatch b = true →
      jobs.hasBatch b = true) : Allows jobs' allowed batchId wanted := by
  intro b needOverride hb hw hhas
  have hwanted : wanted ≠ Option.none := by
    rw [hw]
    exact Option.some_ne_none _
  exact h b needOverride hb hw (hjobs b hb hwanted hhas)

structure Covered (s : FileConflicts) (allowed : List (Int × Bool)) : Prop where
  remembered : Allows s.jobs allowed s.jobs.transferConflictRememberBatchId
    (decision s.jobs.transferConflictRememberOverrideConfirm)
  loop : Allows s.jobs allowed s.batchId (preset s.overrideConfirm s.skip)
  prepared : ∀ evt overrideConfirm skip, s.phase = .prepared evt overrideConfirm skip →
    overrideConfirm = s.overrideConfirm ∧ skip = s.skip
  answered : ∀ evt asked resp, s.phase = .answered evt asked resp →
    s.fileConfirmCheckboxRemember = true → Allows s.jobs allowed asked (decision resp)
  sending : ∀ resp, s.phase = .sending resp → s.fileConfirmCheckboxRemember = true →
    Allows s.jobs allowed s.batchId (decision resp)

variable {s : FileConflicts} {allowed : List (Int × Bool)}

theorem Covered.of_calm
    (hremembered : Allows s.jobs allowed s.jobs.transferConflictRememberBatchId
      (decision s.jobs.transferConflictRememberOverrideConfirm))
    (hloop : Allows s.jobs allowed s.batchId (preset s.overrideConfirm s.skip))
    (hphase : s.phase = .idle ∨ s.phase = .consumed ∨ ∃ evt asked, s.phase = .dialog evt asked) :
    Covered s allowed := by
  refine ⟨hremembered, hloop, ?_, ?_, ?_⟩
  · intro evt overrideConfirm skip hprepared
    simp [hprepared] at hphase
  · intro evt asked resp hanswered
    simp [hanswered] at hphase
  · intro resp hsending
    simp [hsending] at hphase

theorem covered_start : Covered start [] :=
  Covered.of_calm (fun _ _ hb => absurd hb (by simp [start, JobController.start]))
    (Allows.none _ _ _) (Or.inl rfl)

theorem Covered.append (h : Covered s allowed) (new : List (Int × Bool)) :
    Covered s (allowed ++ new) where
  remembered := h.remembered.append new
  loop := h.loop.append new
  prepared := h.prepared
  answered evt asked resp hphase hbox := (h.answered evt asked resp hphase hbox).append new
  sending resp hphase hbox := (h.sending resp hphase hbox).append new

theorem Covered.prune (h : Covered s allowed) :
    Covered s (allowed.filter fun x => s.jobs.hasBatch x.1) where
  remembered := h.remembered.prune
  loop := h.loop.prune
  prepared := h.prepared
  answered evt asked resp hphase hbox := (h.answered evt asked resp hphase hbox).prune
  sending resp hphase hbox := (h.sending resp hphase hbox).prune

theorem Covered.withJobs (h : Covered s allowed)
    (hjobs : s.jobs.Shrinks jobs) : Covered (s.withJobs jobs) allowed where
  remembered := by
    show Allows jobs _ jobs.transferConflictRememberBatchId
      (decision jobs.transferConflictRememberOverrideConfirm)
    rcases hjobs.remember with hnone | ⟨hid, hresp⟩
    · intro b _ hb
      exact absurd (hb.symm.trans hnone) (Option.some_ne_none b)
    · rw [hid, hresp]
      exact h.remembered.withJobs fun _ _ _ hhas => hjobs.hasBatch hhas
  loop := h.loop.withJobs fun _ _ _ hhas => hjobs.hasBatch hhas
  prepared := h.prepared
  answered evt asked resp hphase hbox :=
    (h.answered evt asked resp hphase hbox).withJobs fun _ _ _ hhas => hjobs.hasBatch hhas
  sending resp hphase hbox :=
    (h.sending resp hphase hbox).withJobs fun _ _ _ hhas => hjobs.hasBatch hhas

theorem hasBatch_register {c : JobController} {jobIds : List Int} {b : Int}
    (h : (c.registerTransferConflictBatch jobIds batchId).hasBatch b = true) :
    c.hasBatch b = true ∨ jobIds ≠ [] ∧ b = c.batchIdFor batchId := by
  obtain ⟨jobId, hjob⟩ := JobController.hasBatch_iff.mp h
  rw [JobController.transferConflictBatchId_register] at hjob
  split at hjob
  · next hmem => exact Or.inr ⟨ne_nil_of_mem hmem, (Option.some.inj hjob).symm⟩
  · exact Or.inl (JobController.hasBatch_iff.mpr ⟨jobId, hjob⟩)

@[simp] theorem remembered_register (c : JobController) (jobIds : List Int)
    (batchId : Option Int) :
    (c.registerTransferConflictBatch jobIds batchId).transferConflictRememberBatchId =
        c.transferConflictRememberBatchId ∧
      (c.registerTransferConflictBatch jobIds batchId).transferConflictRememberOverrideConfirm =
        c.transferConflictRememberOverrideConfirm := by
  unfold JobController.registerTransferConflictBatch
  split
  · exact ⟨rfl, rfl⟩
  · exact ⟨rfl, rfl⟩

theorem Covered.register (h : Covered s allowed) {jobIds : List Int}
    (hC : s.Meets (.register jobIds batchId)) :
    Covered (s.withJobs (s.jobs.registerTransferConflictBatch jobIds batchId)) allowed := by
  have hold : ∀ b, (s.jobs.registerTransferConflictBatch jobIds batchId).hasBatch b = true →
      s.Holds b → s.jobs.hasBatch b = true := by
    intro b hhas hheld
    rcases hasBatch_register hhas with hbefore | ⟨hids, rfl⟩
    · exact hbefore
    · by_contra hno
      exact hC hids (Bool.eq_false_iff.mpr hno) hheld
  have hrem := remembered_register s.jobs jobIds batchId
  exact {
    remembered := by
      show Allows _ _ (s.jobs.registerTransferConflictBatch jobIds
        batchId).transferConflictRememberBatchId _
      rw [hrem.1]
      show Allows _ _ _ (decision (s.jobs.registerTransferConflictBatch jobIds
        batchId).transferConflictRememberOverrideConfirm)
      rw [hrem.2]
      exact h.remembered.withJobs fun b hb _ hhas => hold b hhas (Or.inl hb)
    loop := h.loop.withJobs fun b hb hwanted hhas => hold b hhas (Or.inr (Or.inl ⟨hb, hwanted⟩))
    prepared := h.prepared
    answered := by
      intro evt asked resp hphase hbox
      have hphase' : s.phase = .answered evt asked resp := hphase
      refine (h.answered evt asked resp hphase hbox).withJobs fun b hb hwanted hhas => ?_
      refine hold b hhas (Or.inr (Or.inr ⟨hbox, ?_⟩))
      rw [hphase']
      exact ⟨hb, hwanted⟩
    sending := by
      intro resp hphase hbox
      have hphase' : s.phase = .sending resp := hphase
      refine (h.sending resp hphase hbox).withJobs fun b hb hwanted hhas => ?_
      refine hold b hhas (Or.inr (Or.inr ⟨hbox, ?_⟩))
      rw [hphase']
      exact ⟨hb, hwanted⟩ }

theorem Covered.preload (h : Covered s allowed) (batchId : Option Int) :
    Allows (s.preload batchId).jobs allowed (s.preload batchId).batchId
      (preset (s.preload batchId).overrideConfirm (s.preload batchId).skip) := by
  unfold FileConflicts.preload
  split
  · next hkeep =>
      have hbatch : batchId = s.jobs.transferConflictRememberBatchId := by
        simpa using (Bool.and_eq_true_iff.mp hkeep).2
      rw [hbatch]
      exact h.remembered
  · split
    · exact Allows.none _ _ _
    · exact h.loop

@[simp] theorem preload_jobs (s : FileConflicts) (batchId : Option Int) :
    (s.preload batchId).jobs = s.jobs := by
  unfold FileConflicts.preload
  split
  · rfl
  · split
    · rfl
    · rfl

theorem Covered.onPreConsume (h : Covered s allowed) (evt : OverrideEvent) :
    Covered (s.onPreConsume evt) allowed where
  remembered := by
    show Allows (s.preload _).jobs _ (s.preload _).jobs.transferConflictRememberBatchId
      (decision (s.preload _).jobs.transferConflictRememberOverrideConfirm)
    rw [preload_jobs]
    exact h.remembered
  loop := h.preload _
  prepared := by
    intro _ _ _ hphase
    obtain ⟨_, rfl, rfl⟩ := LoopPhase.prepared.inj hphase
    exact ⟨rfl, rfl⟩
  answered := fun _ _ _ hphase => LoopPhase.noConfusion hphase
  sending := fun _ hphase => LoopPhase.noConfusion hphase

theorem Covered.nextEvent (h : Covered s allowed) : Covered s.nextEvent allowed := by
  unfold FileConflicts.nextEvent
  split
  · exact Covered.of_calm h.remembered (Allows.none _ _ _) (Or.inl rfl)
  · next evts _ =>
      have hrest : Covered { s with evts := evts } allowed :=
        ⟨h.remembered, h.loop, h.prepared, h.answered, h.sending⟩
      exact hrest.onPreConsume _

theorem Covered.consumed (h : Covered s allowed) : Covered { s with phase := .consumed } allowed :=
  Covered.of_calm h.remembered h.loop (Or.inr (Or.inl rfl))

theorem Covered.showFileConfirmDialog (h : Covered s allowed) (evt : OverrideEvent) :
    Covered (s.showFileConfirmDialog evt) allowed :=
  Covered.of_calm h.remembered h.loop (Or.inr (Or.inr ⟨evt, _, rfl⟩))

variable {evt : OverrideEvent} {asked : Option Int}

theorem Covered.tick (h : Covered s allowed)
    (hphase : s.phase = .dialog evt asked) (checked : Bool) :
    Covered { s with fileConfirmCheckboxRemember := checked } allowed :=
  Covered.of_calm h.remembered h.loop (Or.inr (Or.inr ⟨evt, asked, hphase⟩))

theorem Covered.answer (h : Covered s allowed)
    (hphase : s.phase = .dialog evt asked) (resp : Option Bool) :
    Covered { s with phase := .answered evt asked resp }
      (allowed ++ s.allowedBy (.answer resp)) where
  remembered := h.remembered.append _
  loop := h.loop.append _
  prepared := fun _ _ _ hprepared => LoopPhase.noConfusion hprepared
  answered := by
    intro _ _ _ hanswered hbox
    obtain ⟨_, rfl, rfl⟩ := LoopPhase.answered.inj hanswered
    intro b needOverride hb hwanted _
    subst hb
    have hbox' : s.fileConfirmCheckboxRemember = true := hbox
    apply mem_append_right
    simp [allowedBy, hphase, hbox', hwanted]
  sending := fun _ hsending => LoopPhase.noConfusion hsending

theorem Covered.setOverrideConfirm (h : Covered s allowed)
    (hphase : s.phase = .sending resp) : Covered (s.setOverrideConfirm resp) allowed := by
  have hloop : Allows s.jobs allowed s.batchId (preset
      (if s.fileConfirmCheckboxRemember = true then resp else s.overrideConfirm) s.skip) := by
    split
    · next hbox =>
        intro b needOverride hb hwanted hhas
        exact h.sending resp hphase hbox b needOverride hb (decision_of_preset hwanted) hhas
    · exact h.loop
  exact Covered.of_calm h.remembered hloop (Or.inr (Or.inl rfl))

theorem Covered.of_sending
    (hremembered : Allows s.jobs allowed s.jobs.transferConflictRememberBatchId
      (decision s.jobs.transferConflictRememberOverrideConfirm))
    (hloop : Allows s.jobs allowed s.batchId (preset s.overrideConfirm s.skip))
    (hphase : s.phase = .sending resp)
    (hsending : s.fileConfirmCheckboxRemember = true →
      Allows s.jobs allowed s.batchId (decision resp)) : Covered s allowed := by
  refine ⟨hremembered, hloop, ?_, ?_, ?_⟩
  · intro _ _ _ hprepared
    exact LoopPhase.noConfusion (hphase.symm.trans hprepared)
  · intro _ _ _ hanswered
    exact LoopPhase.noConfusion (hphase.symm.trans hanswered)
  · intro resp' hphase'
    obtain rfl := LoopPhase.sending.inj (hphase.symm.trans hphase')
    exact hsending

theorem Covered.setSkip (h : Covered s allowed)
    (hallows : Allows s.jobs allowed s.batchId (decision resp)) :
    Allows s.jobs allowed s.batchId (preset s.overrideConfirm resp.isNone) := by
  intro b needOverride hb hpreset hhas
  cases hov : s.overrideConfirm with
  | none =>
    rw [hov] at hpreset
    cases resp with
    | none => exact hallows b needOverride hb hpreset hhas
    | some v => cases hpreset
  | some v =>
    refine h.loop b needOverride hb ?_ hhas
    rw [hov] at hpreset ⊢
    cases v with
    | true => exact hpreset
    | false => exact hpreset

/-- **An answer that is sent**, with a copy or from a dialog, is covered if it is allowed for the
batch of the loop when the box is ticked, and that is the batch of the job. -/
theorem Covered.confirm (h : Covered s allowed) (dialog : Bool)
    (hloop : s.fileConfirmCheckboxRemember = true → decision resp ≠ none →
      s.jobs.hasTransferConflictJob evt.id = true →
        s.jobs.transferConflictBatchId evt.id = s.batchId ∧
          Allows s.jobs allowed s.batchId (decision resp)) :
    Covered (s.confirm evt resp dialog) allowed := by
  unfold FileConflicts.confirm
  split
  · exact h.consumed
  · next hhas =>
      have hjob : s.jobs.hasTransferConflictJob evt.id = true := by simpa using hhas
      split
      · next hcancel =>
          have hjobs := h.withJobs (JobController.cancelBatch_shrinks s.jobs evt.id)
          refine Covered.of_sending hjobs.remembered hjobs.loop rfl fun _ => ?_
          rw [hcancel]
          exact Allows.none _ _ _
      · next hresp =>
          unfold rememberIfTicked
          split
          · next hbox =>
              have hwanted : decision resp ≠ none := by
                rw [decision_eq hresp]
                exact Option.some_ne_none _
              obtain ⟨hbatch, hallows⟩ := hloop hbox hwanted hjob
              refine Covered.of_sending ?_ (h.setSkip hallows) rfl fun _ => hallows
              show Allows s.jobs _ (s.jobs.transferConflictBatchId evt.id) (decision resp)
              rw [hbatch]
              exact hallows
          · next hbox =>
              exact Covered.of_sending h.remembered h.loop rfl fun hticked => absurd hticked hbox

theorem Covered.copies (h : Covered s allowed)
    (hphase : s.phase = .prepared evt overrideConfirm skip) (hC : s.Meets .consume)
    (hresp : overrideConfirm ≠ some false) (hpreset : overrideConfirm.isSome = true ∨ skip = true)
    (hjob : s.jobs.hasTransferConflictJob evt.id = true) :
    s.jobs.transferConflictBatchId evt.id = s.batchId ∧
      Allows s.jobs allowed s.batchId (decision overrideConfirm) := by
  have hcopy := preset_eq hresp hpreset
  have hbatch := hC
  simp only [Meets, hphase] at hbatch
  refine ⟨hbatch (by rw [hcopy]; exact Option.some_ne_none _) hjob, ?_⟩
  obtain ⟨rfl, rfl⟩ := h.prepared evt overrideConfirm skip hphase
  rw [decision_eq hresp, ← hcopy]
  exact h.loop

theorem Covered.answers (h : Covered s allowed) (hphase : s.phase = .answered evt asked resp)
    (hC : s.Meets .confirm)
    (hbox : s.fileConfirmCheckboxRemember = true) (hwanted : decision resp ≠ none)
    (hjob : s.jobs.hasTransferConflictJob evt.id = true) :
    s.jobs.transferConflictBatchId evt.id = s.batchId ∧
      Allows s.jobs allowed s.batchId (decision resp) := by
  have hbatch := hC
  simp only [Meets, hphase] at hbatch
  obtain ⟨hloop, hasked⟩ := hbatch hbox hwanted hjob
  refine ⟨hloop, ?_⟩
  rw [← hasked]
  exact h.answered evt asked resp hphase hbox

theorem Covered.overrideFileConfirm (h : Covered s allowed)
    (hphase : s.phase = .prepared evt overrideConfirm skip) (hC : s.Meets .consume) :
    Covered (s.overrideFileConfirm evt overrideConfirm skip) allowed := by
  unfold FileConflicts.overrideFileConfirm
  split
  · exact h.consumed
  · split
    · next hpreset =>
        refine h.confirm false fun _ hwanted hjob => h.copies hphase hC ?_ hpreset hjob
        intro hfalse
        rw [hfalse] at hwanted
        exact hwanted rfl
    · exact h.showFileConfirmDialog evt

variable {e : FileEvent}

theorem Covered.loopStep (h : Covered s allowed) (hC : s.Meets e) :
    Covered (s.loopStep e) (allowed ++ s.allowedBy e) := by
  unfold FileConflicts.loopStep
  split
  · split
    · exact h.append _
    · exact h.nextEvent.append _
  · next hphase => exact (h.overrideFileConfirm hphase hC).append _
  · next hphase => exact (h.tick hphase _).append _
  · next hphase => exact h.answer hphase _
  · next hphase => exact (h.confirm true (h.answers hphase hC)).append _
  · next hphase => exact (h.setOverrideConfirm hphase).append _
  · exact h.nextEvent.append _
  · exact h.append _

theorem Covered.postOverrideFileConfirm (h : Covered s allowed) (id : Option Int) (fileNum : Int)
    (isUpload : Bool) : Covered (s.postOverrideFileConfirm id fileNum isUpload) allowed := by
  unfold FileConflicts.postOverrideFileConfirm
  split
  · exact h
  · split
    · exact ⟨h.remembered, h.loop, h.prepared, h.answered, h.sending⟩
    · exact h

theorem Covered.act (h : Covered s allowed) (hC : s.Meets e) :
    Covered (s.act e) (allowed ++ s.allowedBy e) := by
  unfold FileConflicts.act
  split
  · exact (h.register hC).append _
  · exact (h.postOverrideFileConfirm _ _ _).append _
  · exact (h.withJobs (JobController.addJob_shrinks s.jobs _ _)).append _
  · exact (h.withJobs (JobController.withJob_shrinks s.jobs _ _)).append _
  · exact (h.withJobs (JobController.jobDone_shrinks s.jobs _)).append _
  · exact (h.withJobs (JobController.jobError_shrinks s.jobs _ _)).append _
  · exact (h.withJobs (JobController.unregister_shrinks s.jobs _)).append _
  · exact h.loopStep hC

theorem nextEvent_jobs (s : FileConflicts) : s.nextEvent.jobs = s.jobs := by
  unfold nextEvent
  split
  · rfl
  · exact preload_jobs _ _

theorem confirm_map (s : FileConflicts) (evt : OverrideEvent) (resp : Option Bool)
    (dialog : Bool) (jobId : Int) :
    (s.confirm evt resp dialog).jobs.transferConflictBatchId jobId =
      if resp = some false ∧ s.jobs.hasTransferConflictJob evt.id = true then
        (s.jobs.cancelTransferConflictBatch evt.id).transferConflictBatchId jobId
      else s.jobs.transferConflictBatchId jobId := by
  unfold confirm
  split
  · next hnone => rw [if_neg (by simp [hnone])]
  · next hhas =>
      have hjob : s.jobs.hasTransferConflictJob evt.id = true := by simpa using hhas
      split
      · next hcancel => rw [if_pos ⟨hcancel, hjob⟩]
      · next hresp =>
          rw [if_neg fun hc => hresp hc.1]
          unfold rememberIfTicked
          split
          · rfl
          · rfl

theorem overrideFileConfirm_map (s : FileConflicts) (evt : OverrideEvent)
    (overrideConfirm : Option Bool) (skip : Bool) (jobId : Int) :
    (s.overrideFileConfirm evt overrideConfirm skip).jobs.transferConflictBatchId jobId =
      if evt.id ≠ 0 ∧ overrideConfirm = some false ∧
          s.jobs.hasTransferConflictJob evt.id = true then
        (s.jobs.cancelTransferConflictBatch evt.id).transferConflictBatchId jobId
      else s.jobs.transferConflictBatchId jobId := by
  unfold overrideFileConfirm
  split
  · next hnone =>
      rw [if_neg]
      rintro ⟨hid, _, hjob⟩
      rcases hnone with hzero | hno
      · exact hid hzero
      · rw [hno] at hjob
        cases hjob
  · next hsome =>
      have hid : evt.id ≠ 0 := fun hzero => hsome (Or.inl hzero)
      split
      · rw [confirm_map]
        simp only [ne_eq, hid, not_false_eq_true, true_and]
      · next hask =>
          rw [if_neg]
          · rfl
          · rintro ⟨_, hfalse, _⟩
            exact hask (Or.inl (by simp [hfalse]))

theorem confirm_cancelled {s : FileConflicts} (dialog : Bool) {id : Int}
    (h : id ∈ s.jobs.batchJobIds evt.id) :
    (s.confirm evt (some false) dialog).jobs.transferConflictBatchId id = none := by
  rw [confirm_map]
  split
  · exact JobController.cancelBatch_self h
  · next hno => exact JobController.batchJobIds_unregistered (by simpa using hno) h

theorem overrideFileConfirm_cancelled {s : FileConflicts}
    {id : Int} (hid : evt.id ≠ 0) (h : id ∈ s.jobs.batchJobIds evt.id) :
    (s.overrideFileConfirm evt (some false) skip).jobs.transferConflictBatchId id = none := by
  rw [overrideFileConfirm_map]
  split
  · exact JobController.cancelBatch_self h
  · next hno => exact JobController.batchJobIds_unregistered (by simpa [hid] using hno) h

theorem loopStep_none {s : FileConflicts} {jobId : Int}
    (h : s.jobs.transferConflictBatchId jobId = none) :
    (s.loopStep e).jobs.transferConflictBatchId jobId = none := by
  have hcancel := fun id => (JobController.cancelBatch_shrinks s.jobs id).none h
  unfold loopStep
  split
  · split
    · exact h
    · rw [nextEvent_jobs]
      exact h
  · rw [overrideFileConfirm_map]
    split
    · exact hcancel _
    · exact h
  · exact h
  · exact h
  · rw [confirm_map]
    split
    · exact hcancel _
    · exact h
  · exact h
  · rw [nextEvent_jobs]
    exact h
  · exact h

theorem act_none {s : FileConflicts} {jobId : Int}
    (h : s.jobs.transferConflictBatchId jobId = none) (hreg : jobId ∉ registeredBy e) :
    (s.act e).jobs.transferConflictBatchId jobId = none := by
  unfold act
  split
  · exact (JobController.transferConflictBatchId_register _ _ _ _).trans ((if_neg hreg).trans h)
  · unfold postOverrideFileConfirm
    split
    · exact h
    · split
      · exact h
      · exact h
  · exact (JobController.addJob_shrinks s.jobs _ _).none h
  · exact (JobController.withJob_shrinks s.jobs _ _).none h
  · exact (JobController.jobDone_shrinks s.jobs _).none h
  · exact (JobController.jobError_shrinks s.jobs _ _).none h
  · exact (JobController.unregister_shrinks s.jobs _).none h
  · exact loopStep_none h

theorem act_ended {s : FileConflicts} {e : FileEvent} (hC : s.Meets e) {id : Int}
    (h : id ∈ s.endedBy e) : (s.act e).jobs.transferConflictBatchId id = none := by
  unfold endedBy at h
  split at h
  · rw [mem_singleton.mp h]
    exact JobController.jobDone_self s.jobs _
  · next failed err =>
      rw [mem_singleton.mp h]
      show (s.jobs.jobError (some failed) err).transferConflictBatchId failed = none
      cases hignored : s.jobs.ignoresError failed with
      | true => exact (JobController.jobError_shrinks s.jobs _ err).none (hC hignored)
      | false => exact JobController.jobError_self err hignored
  · rw [mem_singleton.mp h]
    exact JobController.cancelJob_self s.jobs _
  · next evt skip hphase =>
      split at h
      · cases h
      · next hid =>
          simp only [act, loopStep, hphase]
          exact overrideFileConfirm_cancelled hid h
  · next evt asked hphase =>
      simp only [act, loopStep, hphase]
      exact confirm_cancelled true h
  · cases h

theorem call_confirm {s : FileConflicts}
    {dialog d : Bool} {call : ConfirmOverride} (hs : s.call = none)
    (h : (s.confirm evt resp dialog).call = some (call, d)) :
    s.jobs.hasTransferConflictJob evt.id = true ∧ resp ≠ some false ∧ d = dialog ∧
      call.actId = evt.id ∧ call.needOverride = resp.isSome ∧
      call.remember = s.fileConfirmCheckboxRemember := by
  unfold confirm at h
  split at h
  · exact absurd (hs.symm.trans h) (by simp)
  · next hhas =>
      split at h
      · exact absurd (hs.symm.trans h) (by simp)
      · next hresp =>
          have hbox : (s.rememberIfTicked evt.id resp).fileConfirmCheckboxRemember =
              s.fileConfirmCheckboxRemember := by
            unfold rememberIfTicked
            split
            · rfl
            · rfl
          cases h
          exact ⟨by simpa using hhas, hresp, rfl, rfl, rfl, hbox⟩

theorem nextEvent_call (s : FileConflicts) : s.nextEvent.call = s.call := by
  unfold nextEvent
  split
  · rfl
  · next evt evts _ =>
      show ({ s with evts := evts }.preload _).call = s.call
      unfold preload
      split
      · rfl
      · split
        · rfl
        · rfl

variable {dialog : Bool}

theorem call_loopStep {s : FileConflicts} {call : ConfirmOverride} (hs : s.call = none)
    (h : (s.loopStep e).call = some (call, dialog)) :
    (∃ evt overrideConfirm skip, e = .consume ∧ s.phase = .prepared evt overrideConfirm skip ∧
        (overrideConfirm.isSome = true ∨ skip = true) ∧
        s.loopStep e = s.confirm evt overrideConfirm false) ∨
      ∃ evt asked resp, e = .confirm ∧ s.phase = .answered evt asked resp ∧
        s.loopStep e = s.confirm evt resp true := by
  have hquiet : s.call ≠ some (call, dialog) := by simp [hs]
  unfold loopStep at h ⊢
  split at h
  · split at h
    · exact absurd h hquiet
    · rw [nextEvent_call] at h
      exact absurd h hquiet
  · next evt overrideConfirm skip hphase =>
      refine Or.inl ⟨evt, overrideConfirm, skip, rfl, hphase, ?_⟩
      unfold overrideFileConfirm at h ⊢
      split at h
      · exact absurd h hquiet
      · next hjob =>
          split at h
          · next hpreset =>
              refine ⟨hpreset, ?_⟩
              simp only [if_neg hjob, if_pos hpreset]
          · exact absurd h hquiet
  · exact absurd h hquiet
  · exact absurd h hquiet
  · next evt asked resp hphase =>
      exact Or.inr ⟨evt, asked, resp, rfl, hphase, rfl⟩
  · exact absurd h hquiet
  · rw [nextEvent_call] at h
    exact absurd h hquiet
  · exact absurd h hquiet

theorem call_act {s : FileConflicts} {call : ConfirmOverride}
    (hs : s.call = none) (h : (s.act e).call = some (call, dialog)) :
    (s.loopStep e).call = some (call, dialog) ∧ s.act e = s.loopStep e := by
  have hquiet : s.call ≠ some (call, dialog) := by simp [hs]
  unfold act at h ⊢
  split at h
  · exact absurd h hquiet
  · unfold postOverrideFileConfirm at h
    split at h
    · exact absurd h hquiet
    · split at h
      · exact absurd h hquiet
      · exact absurd h hquiet
  · exact absurd h hquiet
  · exact absurd h hquiet
  · exact absurd h hquiet
  · exact absurd h hquiet
  · exact absurd h hquiet
  · exact ⟨h, rfl⟩

theorem covered_call {s : FileConflicts} {allowed : List (Int × Bool)} {dialog d : Bool}
    {call : ConfirmOverride} (hs : s.call = none)
    (hcall : (s.confirm evt resp dialog).call = some (call, d))
    (hallows : resp ≠ some false → s.jobs.hasTransferConflictJob evt.id = true →
      dialog = false ∨ s.fileConfirmCheckboxRemember = true →
        s.jobs.transferConflictBatchId evt.id = s.batchId ∧
          Allows s.jobs allowed s.batchId (decision resp)) :
    ∃ batchId, (s.confirm evt resp dialog).jobs.transferConflictBatchId call.actId = some batchId ∧
      (d = false ∨ call.remember = true → (batchId, call.needOverride) ∈ allowed) := by
  obtain ⟨hjob, hresp, rfl, hid, hneed, hremember⟩ := call_confirm hs hcall
  obtain ⟨batchId, hbatchId⟩ := Option.isSome_iff_exists.mp hjob
  refine ⟨batchId, ?_, fun hsent => ?_⟩
  · rw [hid, confirm_map, if_neg fun hc => hresp hc.1]
    exact hbatchId
  · rw [hremember] at hsent
    obtain ⟨hbatch, hloop⟩ := hallows hresp hjob hsent
    rw [hneed]
    exact hloop batchId _ (hbatch.symm.trans hbatchId) (decision_eq hresp)
      (JobController.hasBatch_iff.mpr ⟨evt.id, hbatchId⟩)

/-- **A call is for a registered job, and without a dialog or with `remember` it is covered.** -/
theorem Covered.call {s : FileConflicts} {allowed : List (Int × Bool)} (h : Covered s allowed)
    (hC : s.Meets e) {call : ConfirmOverride}
    (hs : s.call = none) (hcall : (s.act e).call = some (call, dialog)) :
    ∃ batchId, (s.act e).jobs.transferConflictBatchId call.actId = some batchId ∧
      (dialog = false ∨ call.remember = true → (batchId, call.needOverride) ∈ allowed) := by
  obtain ⟨hloop, hact⟩ := call_act hs hcall
  rw [hact]
  rcases call_loopStep hs hloop with
    ⟨evt, overrideConfirm, skip, rfl, hphase, hpreset, heq⟩ | ⟨evt, asked, resp, rfl, hphase, heq⟩
  · rw [heq] at hloop ⊢
    exact covered_call hs hloop fun hresp hjob _ => h.copies hphase hC hresp hpreset hjob
  · rw [heq] at hloop ⊢
    refine covered_call hs hloop fun hresp hjob hsent => ?_
    have hbox : s.fileConfirmCheckboxRemember = true := by simpa using hsent
    exact h.answers hphase hC hbox (by rw [decision_eq hresp]; exact Option.some_ne_none _) hjob

end FileConflicts

namespace WatchedConflicts

open FileConflicts

structure Inv (w : WatchedConflicts) : Prop where
  sound : w.Sound
  covered : Covered w.model w.allowed
  ended : ∀ id ∈ w.ended, w.model.jobs.transferConflictBatchId id = none

theorem inv_start : Inv start where
  sound := fun _ _ h => absurd h (by simp [start, FileConflicts.start])
  covered := covered_start
  ended := fun _ h => absurd h not_mem_nil

theorem covered_noCall {s : FileConflicts} {allowed : List (Int × Bool)} (h : Covered s allowed) :
    Covered s.noCall allowed :=
  ⟨h.remembered, h.loop, h.prepared, h.answered, h.sending⟩

theorem inv_step {w : WatchedConflicts} {e : FileEvent} (h : Inv w) (hC : w.model.Meets e) :
    Inv (w.step e) := by
  have hcovered : Covered w.model.noCall w.allowed := covered_noCall h.covered
  have hact : Covered (w.step e).model (w.allowed ++ w.model.allowedBy e) := hcovered.act hC
  have hended : ∀ id ∈ (w.step e).ended,
      (w.step e).model.jobs.transferConflictBatchId id = none := by
    intro id hid
    obtain ⟨hmem, hreg⟩ := mem_filter.mp hid
    rcases mem_append.mp hmem with hbefore | hnew
    · have hnone : w.model.noCall.jobs.transferConflictBatchId id = none := h.ended id hbefore
      exact act_none hnone (by simpa using hreg)
    · exact @act_ended w.model.noCall e hC id hnew
  refine ⟨?_, hact.prune, hended⟩
  intro call dialog hcall
  obtain ⟨batchId, hbatchId, hallowed⟩ := hcovered.call hC rfl hcall
  constructor
  · intro hmem
    exact absurd (hbatchId.symm.trans (hended call.actId hmem)) (Option.some_ne_none batchId)
  · intro hsent
    refine ⟨batchId, hbatchId, mem_filter.mpr ⟨mem_append_left _ (hallowed hsent), ?_⟩⟩
    exact JobController.hasBatch_iff.mpr ⟨call.actId, hbatchId⟩

/-- **An overwrite or a skip is sent without a dialog, or to be remembered, only if the user gave
that answer with the box ticked in a dialog for a job of the same batch, and the batch has had jobs
ever since; and a job that has ended is not answered**: in every run all of whose steps meet the
condition. -/
theorem remembered_for_batch_along (es : List FileEvent)
    (h : Along step (fun w e => w.model.Meets e) start es) : Always step Sound start es := by
  have hinv : Always step Inv start es := always_of_along (fun _ _ => inv_step) inv_start h
  exact fun pre hpre => (hinv pre hpre).sound

def overwriteAll : List FileEvent :=
  [.post (some 1) 0 true, .timer, .consume, .tick true, .answer (some true), .confirm]

def secondJob : List FileEvent :=
  [.post (some 2) 0 true, .sent, .nextEvent, .consume]

/-- Two jobs of a batch, and the second one goes by the answer for the first. -/
theorem sharedBatch_remembered_for_batch :
    Always step Sound start
      ([.register [1, 2] none] ++ overwriteAll ++ [.jobDone (some 1)] ++ secondJob) := by
  apply remembered_for_batch_along
  refine ⟨?_, trivial, trivial, ?_, trivial, trivial, ?_, trivial, trivial, trivial, trivial, ?_,
    trivial⟩
  · intro _ _ hheld
    simp [Holds, start, FileConflicts.start, JobController.start] at hheld
  · exact fun hpreset => absurd rfl hpreset
  · exact fun _ _ _ => ⟨rfl, rfl⟩
  · exact fun _ _ => rfl

/-- While the answer for the last job of a batch is sent, the job ends and another one is registered
with the number of the batch: its file is overwritten without a question. -/
theorem not_remembered_for_batch :
    ¬Always step Sound start
      ([.register [1] (some 1)] ++ overwriteAll ++
        [.jobDone (some 1), .register [2] (some 1)] ++ secondJob) := by
  intro h
  obtain ⟨_, hallowed⟩ := h.last ⟨2, 0, true, true, true⟩ false (by decide)
  obtain ⟨batchId, _, hmem⟩ := hallowed (Or.inl rfl)
  have hnone : (exec step start ([.register [1] (some 1)] ++ overwriteAll ++
      [.jobDone (some 1), .register [2] (some 1)] ++ secondJob)).allowed = [] := by decide
  rw [hnone] at hmem
  cases hmem

end WatchedConflicts
end RustDesk
