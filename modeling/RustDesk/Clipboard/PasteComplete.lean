import RustDesk.Clipboard.PasteTask

/-!
# A pasted file is complete

The paste task and an honest peer: requests and answers in transit, per connection in
order, and a peer that answers each request once, with a beginning of the range that was
asked for.  Tasks may be cancelled, time out or fail while answers are on the way.

The worker matches an answer by the index of the file only, so an answer to a request of
an earlier task can be taken for one to the current task (`Timely` excludes it); and a
writer whose `flush` fails is renamed all the same.  Where neither happens, each file that
gets its final name is the source file at its index in the list of its own task.

The invariant: a running task waits for at most one message, and this message is about
what the task would ask for now; what is in the open download is the source up to the
offset.
-/

namespace RustDesk

open UnixPath MachineInt List

/-- The source files that a task should get, by their index. -/
abbrev Sources := Nat → Bytes

/-- A file that got its final name: the task, the index in its list, the content. -/
abbrev Renamed := Nat × Int × Bytes

def Deed.renamed : Deed → Option Renamed
  | ⟨task, _, .rename _ _ index content⟩ => some (task, index, content)
  | _ => none

def renamedFiles (log : List Deed) : List Renamed := log.filterMap Deed.renamed

/-- The content is that of the source, and as long as announced. -/
def CompleteFile (files : List FileDescription) (source : Sources) (index : Int)
    (content : Bytes) : Prop :=
  0 ≤ index ∧ ∃ desc, files[index.toNat]? = some desc ∧ content = source index.toNat ∧
    content.length = desc.size

def SourcesMatch (files : List FileDescription) (source : Sources) : Prop :=
  ∀ (i : Nat) desc, files[i]? = some desc →
    desc.size < 2 ^ 64 ∧ (desc.kind = .file → (source i).length = desc.size)

namespace PasteTaskHandle

variable {io : PasteIo} {source : Sources} {h h' h'' : PasteTaskHandle}

/-- From `h` to `h'` nothing but complete files got their final name, and the list is the
same. -/
structure Leads (source : Sources) (h h' : PasteTaskHandle) : Prop where
  files : h'.files = h.files
  task : h'.task = h.task
  isCanceled : h'.isCanceled = h.isCanceled
  renamed : ∀ x ∈ renamedFiles h'.log, x ∈ renamedFiles h.log ∨
    (x.1 = h.task ∧ CompleteFile h.files source x.2.1 x.2.2)

theorem Leads.refl (h : PasteTaskHandle) : Leads source h h :=
  ⟨rfl, rfl, rfl, fun _ hx => Or.inl hx⟩

theorem Leads.trans (h₁ : Leads source h h') (h₂ : Leads source h' h'') : Leads source h h'' := by
  refine ⟨h₂.files.trans h₁.files, h₂.task.trans h₁.task, h₂.isCanceled.trans h₁.isCanceled, ?_⟩
  intro x hx
  rcases h₂.renamed x hx with hx | ⟨htask, hfile⟩
  · exact h₁.renamed x hx
  · exact Or.inr ⟨htask.trans h₁.task, h₁.files ▸ hfile⟩

theorem renamedFiles_did {effect : PasteEffect}
    (he : ∀ path dest index content, effect ≠ .rename path dest index content) :
    renamedFiles (h.did effect).log = renamedFiles h.log := by
  have hnone : Deed.renamed ⟨h.task, h.targetDir, effect⟩ = none := by
    cases effect with
    | rename path dest index content => exact (he path dest index content rfl).elim
    | _ => rfl
  simp [renamedFiles, did, filterMap_append, hnone]

theorem leads_did {effect : PasteEffect}
    (he : ∀ path dest index content, effect ≠ .rename path dest index content) :
    Leads source h (h.did effect) :=
  ⟨rfl, rfl, rfl, fun _ hx => Or.inl (renamedFiles_did he ▸ hx)⟩

theorem leads_of_log_eq (hfiles : h'.files = h.files) (htask : h'.task = h.task)
    (hcanceled : h'.isCanceled = h.isCanceled) (hlog : h'.log = h.log) : Leads source h h' :=
  ⟨hfiles, htask, hcanceled, fun _ hx => Or.inl (hlog ▸ hx)⟩

variable (source) in
theorem onCancelled_spec (h : PasteTaskHandle) :
    Leads source h h.onCancelled ∧ h.onCancelled.fileHandle = none ∧
      h.onCancelled.error = h.error := by
  simp only [onCancelled]
  split_ifs
  · exact ⟨leads_of_log_eq rfl rfl rfl rfl, rfl, rfl⟩
  · have hclosed : Leads source h { h with fileHandle := none } :=
      leads_of_log_eq rfl rfl rfl rfl
    exact ⟨hclosed.trans (leads_did nofun), rfl, rfl⟩

theorem renamedFiles_onCancelled (h : PasteTaskHandle) :
    renamedFiles h.onCancelled.log = renamedFiles h.log := by
  simp only [onCancelled]
  split_ifs
  · rfl
  · exact renamedFiles_did (h := { h with fileHandle := none }) nofun

variable (source) in
theorem onError_spec (h : PasteTaskHandle) (e : PasteError) :
    Leads source h (h.onError e) ∧ (h.onError e).fileHandle = none ∧
      (h.onError e).error = some e := by
  obtain ⟨hleads, hnone, herror⟩ := onCancelled_spec source { h with error := some e }
  have hset : Leads source h { h with error := some e } := leads_of_log_eq rfl rfl rfl rfl
  exact ⟨hset.trans hleads, hnone, herror⟩

structure Downloading (source : Sources) (h : PasteTaskHandle) (written : Bytes) : Prop where
  index : h.downloadFileIndex = h.listIndex
  nonneg : 0 ≤ h.listIndex
  desc : ∃ desc, h.files[h.listIndex.toNat]? = some desc ∧ desc.kind = .file ∧
    h.downloadFileSize = desc.size
  content : written = (source h.listIndex.toNat).take h.offset
  unfinished : h.offset < h.downloadFileSize

def Orderly (source : Sources) (h : PasteTaskHandle) : Prop :=
  ∀ written, h.fileHandle = some written → Downloading source h written

theorem orderly_of_none (hnone : h.fileHandle = none) : Orderly source h := by
  intro written hwritten
  rw [hnone] at hwritten
  cases hwritten

variable {desc : FileDescription}

theorem getFile_eq_some {index : Int} :
    h.getFile index = some desc ↔ 0 ≤ index ∧ h.files[index.toNat]? = some desc := by
  rw [getFile]
  split_ifs with hneg
  · simp only [false_iff, not_and]
    omega
  · exact ⟨fun heq => ⟨by omega, heq⟩, fun heq => heq.2⟩

theorem Downloading.index_lt {written : Bytes} (hd : Downloading source h written) :
    h.listIndex < h.files.length := by
  obtain ⟨desc, hdesc, -⟩ := hd.desc
  have hlt := (List.getElem?_eq_some_iff.mp hdesc).1
  have := hd.nonneg
  omega

variable (io) in
theorem renameFile_spec (dest : Text) {content : Bytes} (hclosed : h.fileHandle = none)
    (hcomplete : CompleteFile h.files source h.downloadFileIndex content) :
    Leads source h (h.renameFile io dest content) ∧
      (h.renameFile io dest content).fileHandle = none ∧
      (h.renameFile io dest content).error = h.error ∧
      (h.renameFile io dest content).listIndex = h.listIndex := by
  simp only [renameFile]
  split_ifs
  · refine ⟨⟨rfl, rfl, rfl, ?_⟩, hclosed, rfl, rfl⟩
    intro x hx
    simp only [renamedFiles, did, filterMap_append, mem_append] at hx
    rcases hx with hx | hx
    · exact Or.inl hx
    · obtain rfl : x = (h.task, h.downloadFileIndex, content) := by
        simpa [Deed.renamed] using hx
      exact Or.inr ⟨rfl, hcomplete⟩
  · exact ⟨leads_of_log_eq rfl rfl rfl rfl, hclosed, rfl, rfl⟩

variable (io source) in
theorem onDone_spec
    (hcomplete : ∀ written, h.fileHandle = some written →
      CompleteFile h.files source h.downloadFileIndex (h.flushed io written)) :
    Leads source h (h.onDone io) ∧ (h.onDone io).fileHandle = none ∧
      (h.onDone io).error = h.error ∧ (h.onDone io).listIndex = h.listIndex := by
  rw [onDone]
  split
  next hnone => exact ⟨.refl h, hnone, rfl, rfl⟩
  next written hwritten =>
    have hfile := hcomplete written hwritten
    have hvalid : h.downloadFileIndex ≠ invalidFileIndex := by
      intro heq
      have := hfile.1
      rw [heq] at this
      exact absurd this (by decide)
    rw [if_neg hvalid]
    have hclosed : Leads source h { h with fileHandle := none } := leads_of_log_eq rfl rfl rfl rfl
    dsimp only
    split
    next => exact ⟨hclosed, rfl, rfl, rfl⟩
    next desc hdesc =>
      split
      next => exact ⟨hclosed, rfl, rfl, rfl⟩
      next dest hdest =>
        obtain ⟨hleads, hnone, herror, hindex⟩ := renameFile_spec io dest
          (h := { h with fileHandle := none }) rfl hfile
        exact ⟨hclosed.trans hleads, hnone, herror, hindex⟩

variable (io source) in
theorem createDownload_spec (path : Text) (hclosed : h.fileHandle = none)
    (hindex : 0 ≤ h.listIndex) (hdesc : h.files[h.listIndex.toNat]? = some desc)
    (hkind : desc.kind = .file) (hsize : desc.size ≠ 0) (hoffset : h.offset = 0) :
    Leads source h (h.createDownload io desc path) ∧
      Orderly source (h.createDownload io desc path) := by
  rw [createDownload]
  split_ifs
  · have hcreate : Leads source h (h.did (.createFile path)) := leads_did nofun
    refine ⟨hcreate.trans (leads_of_log_eq rfl rfl rfl rfl), ?_⟩
    intro written hwritten
    cases hwritten
    refine ⟨rfl, hindex, ⟨desc, hdesc, hkind, rfl⟩, ?_, ?_⟩
    · show [] = (source h.listIndex.toNat).take h.offset
      rw [hoffset, take_zero]
    · show h.offset < desc.size
      omega
  · exact ⟨leads_of_log_eq rfl rfl rfl rfl, orderly_of_none hclosed⟩

variable (io source) in
theorem openNewWriter_spec (hclosed : h.fileHandle = none)
    (hindex : 0 ≤ h.listIndex) (hdesc : h.files[h.listIndex.toNat]? = some desc)
    (hkind : desc.kind = .file) (hsize : desc.size ≠ 0) (hoffset : h.offset = 0) :
    Leads source h (h.openNewWriter io).1 ∧ Orderly source (h.openNewWriter io).1 := by
  rw [openNewWriter, getFile_eq_some.mpr ⟨hindex, hdesc⟩]
  dsimp only
  split
  next => exact ⟨.refl h, orderly_of_none hclosed⟩
  next path hpath =>
    have hmkdir : Leads source h (h.did (.createDir (parent path))) := leads_did nofun
    split_ifs
    · exact ⟨.refl h, orderly_of_none hclosed⟩
    · exact createDownload_spec io source path hclosed hindex hdesc hkind hsize hoffset
    · obtain ⟨hleads, horderly⟩ := createDownload_spec io source path
        (h := h.did (.createDir (parent path))) hclosed hindex hdesc hkind hsize hoffset
      exact ⟨hmkdir.trans hleads, horderly⟩
    · exact ⟨hmkdir, orderly_of_none hclosed⟩

variable (io source) in
theorem createEmpty_spec (desc : FileDescription) (hclosed : h.fileHandle = none) :
    Leads source h (h.createEmpty io desc) ∧ (h.createEmpty io desc).fileHandle = none := by
  rw [createEmpty]
  split
  next => exact ⟨.refl h, hclosed⟩
  next =>
    split_ifs
    · exact ⟨leads_did nofun, hclosed⟩
    · exact ⟨.refl h, hclosed⟩

variable (io source) in
theorem createDirectory_spec (desc : FileDescription) (hclosed : h.fileHandle = none) :
    Leads source h (h.createDirectory io desc) ∧ (h.createDirectory io desc).fileHandle = none := by
  simp only [createDirectory]
  split_ifs
  · exact ⟨.refl h, hclosed⟩
  · exact ⟨leads_did nofun, hclosed⟩

variable (io source) in
theorem nextFile_spec :
    ∀ (rest : List FileDescription) (i : Nat) {h : PasteTaskHandle}, h.fileHandle = none →
      rest = h.files.drop i →
      Leads source h (nextFile io rest i h).1 ∧ Orderly source (nextFile io rest i h).1 := by
  intro rest
  induction rest with
  | nil => exact fun i h hclosed _ => ⟨.refl h, orderly_of_none hclosed⟩
  | cons desc rest ih =>
    intro i h hclosed hrest
    have hdesc : h.files[i]? = some desc := by
      rw [← List.head?_drop, ← hrest]
      rfl
    have htail : rest = h.files.drop (i + 1) := by
      rw [← drop_drop, ← hrest]
      rfl
    simp only [nextFile]
    split
    next hkind =>
      split_ifs with hsize
      · obtain ⟨hleads, hnone⟩ := createEmpty_spec io source desc hclosed
        obtain ⟨hrestLeads, horderly⟩ := ih (i + 1) hnone (hleads.files ▸ htail)
        exact ⟨hleads.trans hrestLeads, horderly⟩
      · have hset : Leads source h { h with listIndex := i, offset := 0 } :=
          leads_of_log_eq rfl rfl rfl rfl
        obtain ⟨hleads, horderly⟩ := openNewWriter_spec io source
          (h := { h with listIndex := i, offset := 0 }) hclosed (Int.natCast_nonneg i) hdesc hkind
          hsize rfl
        exact ⟨hset.trans hleads, horderly⟩
    next =>
      obtain ⟨hleads, hnone⟩ := createDirectory_spec io source desc hclosed
      obtain ⟨hrestLeads, horderly⟩ := ih (i + 1) hnone (hleads.files ▸ htail)
      exact ⟨hleads.trans hrestLeads, horderly⟩
    next => exact ih (i + 1) hclosed htail

theorem closeList_spec (horderly : Orderly source h) :
    Leads source h h.closeList ∧ Orderly source h.closeList := by
  rw [closeList]
  split_ifs with hnone
  · exact ⟨leads_of_log_eq rfl rfl rfl rfl, orderly_of_none (by simpa using hnone)⟩
  · exact ⟨.refl h, horderly⟩

variable (io source) in
theorem advance_spec (hclosed : h.fileHandle = none) :
    Leads source h (h.advance io).1 ∧ Orderly source (h.advance io).1 := by
  obtain ⟨hleads, horderly⟩ := nextFile_spec io source _ (h.listIndex + 1).toNat hclosed rfl
  rw [advance]
  split
  next h' e heq =>
    rw [heq] at hleads horderly
    exact ⟨hleads, horderly⟩
  next h' heq =>
    rw [heq] at hleads horderly
    obtain ⟨hclose, horderly⟩ := closeList_spec horderly
    exact ⟨hleads.trans hclose, horderly⟩

def Piece (source : Sources) (h : PasteTaskHandle) (data : Bytes) : Prop :=
  ∃ n, data = ((source h.listIndex.toNat).drop h.offset).take n

theorem Piece.append {data : Bytes} (hp : Piece source h data) :
    (source h.listIndex.toNat).take h.offset ++ data =
      (source h.listIndex.toNat).take (h.offset + data.length) := by
  obtain ⟨n, hn⟩ := hp
  have hlen : data.length ≤ n := by
    rw [hn]
    exact length_take_le _ _
  have hdata : data = ((source h.listIndex.toNat).drop h.offset).take data.length := by
    rw [hn, length_take, ← take_eq_take_min]
  rw [take_add, ← hdata]

def Flushes (io : PasteIo) (h : PasteTaskHandle) (data : Bytes) : Prop :=
  h.fileHandle.isSome → h.downloadFileSize ≤ h.offset + data.length →
    io.flush (h.did (.write h.downloadFilePath data)).log = none

instance (io : PasteIo) (h : PasteTaskHandle) (data : Bytes) : Decidable (Flushes io h data) :=
  inferInstanceAs (Decidable (_ → _))

variable (io) in
theorem updateNext_spec {data written : Bytes} (hsource : SourcesMatch h.files source)
    (hfinished : h.isFinished = false) (hd : Downloading source h written)
    (hp : Piece source h data)
    (hflush : h.downloadFileSize ≤ h.offset + data.length → io.flush h.log = none) :
    Leads source h ({ h with fileHandle := some (written ++ data) }.updateNext io data.length).1 ∧
      Orderly source
        ({ h with fileHandle := some (written ++ data) }.updateNext io data.length).1 := by
  have hwritten : written ++ data = (source h.listIndex.toNat).take (h.offset + data.length) := by
    rw [hd.content, hp.append]
  obtain ⟨desc, hdesc, hkind, hsize⟩ := hd.desc
  have hlength := (hsource h.listIndex.toNat desc hdesc).2 hkind
  have hrunning : ({ h with fileHandle := some (written ++ data) } : PasteTaskHandle).isFinished
      = false := hfinished
  have hstarted : h.listIndex ≠ -1 := by
    have := hd.nonneg
    omega
  rw [updateNext, if_neg (by simp [hrunning])]
  simp only [hstarted, false_or, if_false]
  split_ifs with hcomplete
  · have hall : written ++ data = source h.listIndex.toNat := by
      rw [hwritten]
      exact take_of_length_le (by omega)
    obtain ⟨hleads, hnone, -, -⟩ := onDone_spec io source
      (h := { h with
        currentSize := h.currentSize + data.length
        fileHandle := some (written ++ data) }) (by
        intro w hw
        cases hw
        refine ⟨?_, desc, ?_, ?_, ?_⟩
        · simpa [hd.index] using hd.nonneg
        · simpa [hd.index] using hdesc
        · simp [flushed, hflush hcomplete, hall, hd.index]
        · simp [flushed, hflush hcomplete, hall, hlength])
    obtain ⟨hnext, horderly⟩ := advance_spec io source hnone
    have hset : Leads source h
        { h with
          currentSize := h.currentSize + data.length
          fileHandle := some (written ++ data) } := leads_of_log_eq rfl rfl rfl rfl
    exact ⟨(hset.trans hleads).trans hnext, horderly⟩
  · have horderly : Orderly source
        { h with
          currentSize := h.currentSize + data.length
          fileHandle := some (written ++ data)
          offset := h.offset + data.length } := by
      intro w hw
      cases hw
      exact ⟨hd.index, hd.nonneg, ⟨desc, hdesc, hkind, hsize⟩, hwritten, by
        show h.offset + data.length < h.downloadFileSize
        omega⟩
    obtain ⟨hclose, horderly⟩ := closeList_spec horderly
    have hset : Leads source h
        { h with
          currentSize := h.currentSize + data.length
          fileHandle := some (written ++ data)
          offset := h.offset + data.length } := leads_of_log_eq rfl rfl rfl rfl
    exact ⟨hset.trans hclose, horderly⟩

theorem handleFileContentsResponse_spec {data : Bytes} (hsource : SourcesMatch h.files source)
    (hfinished : h.isFinished = false) (horderly : Orderly source h)
    (hp : ∀ written, h.fileHandle = some written → Piece source h data)
    (hflush : Flushes io h data) :
    Leads source h (h.handleFileContentsResponse io data).1 ∧
      Orderly source (h.handleFileContentsResponse io data).1 := by
  rw [handleFileContentsResponse]
  split
  next => exact ⟨.refl h, horderly⟩
  next written hwritten =>
    have hd := horderly written hwritten
    have hwrite : Leads source h (h.did (.write h.downloadFilePath data)) := leads_did nofun
    have hd' : Downloading source (h.did (.write h.downloadFilePath data)) written :=
      ⟨hd.index, hd.nonneg, hd.desc, hd.content, hd.unfinished⟩
    dsimp only
    split_ifs
    · obtain ⟨hleads, horderly⟩ := updateNext_spec io hsource
        (h := h.did (.write h.downloadFilePath data)) hfinished hd' (hp written hwritten)
        (hflush (by simp [hwritten]))
      exact ⟨hwrite.trans hleads, horderly⟩
    · refine ⟨hwrite, ?_⟩
      intro w hw
      rw [show w = written from Option.some.inj (hw.symm.trans hwritten)]
      exact hd'

theorem isFinished_eq_true :
    h.isFinished = true ↔
      h.isCanceled = true ∨ h.error.isSome = true ∨ (h.files.length : Int) ≤ h.listIndex := by
  simp [isFinished, or_assoc]

variable (io) in
theorem onFinished_spec (horderly : Orderly source h) (hcanceled : h.isCanceled = false)
    (hfinished : h.isFinished = true) :
    Leads source h (h.onFinished io) ∧ (h.onFinished io).isFinished = true := by
  have hinner : Leads source h (if h.error.isSome then h.onCancelled else h.onDone io) ∧
      (if h.error.isSome then h.onCancelled else h.onDone io).isFinished = true := by
    split_ifs with herror
    · obtain ⟨hleads, -, hsame⟩ := onCancelled_spec source h
      refine ⟨hleads, isFinished_eq_true.mpr (Or.inr (Or.inl ?_))⟩
      rw [hsame, herror]
    · have hend : (h.files.length : Int) ≤ h.listIndex := by
        rcases isFinished_eq_true.mp hfinished with hc | he | hend
        · rw [hcanceled] at hc
          cases hc
        · exact (herror he).elim
        · exact hend
      have hnone : h.fileHandle = none := by
        cases hhandle : h.fileHandle with
        | none => rfl
        | some written =>
          have := (horderly written hhandle).index_lt
          omega
      have hdone : h.onDone io = h := by
        rw [onDone, hnone]
      rw [hdone]
      exact ⟨.refl h, hfinished⟩
  simp only [onFinished]
  generalize (if h.error.isSome then h.onCancelled else h.onDone io) = h' at hinner
  split_ifs
  · refine ⟨hinner.1.trans (leads_of_log_eq rfl rfl rfl rfl), ?_⟩
    exact isFinished_eq_true.mpr (Or.inr (Or.inl rfl))
  · exact hinner

def Settled (source : Sources) (h : PasteTaskHandle)
    (result : PasteTaskHandle × Option FileContentsRequest) : Prop :=
  Leads source h result.1 ∧
    ((result.1.isFinished = true ∧ result.2 = none) ∨
      (result.1 = h ∧ ∃ r, result.2 = some r ∧ h.fileContentsRequest = .ok (some r)))

theorem onFinished_settled (horderly : Orderly source h) (hcanceled : h.isCanceled = false)
    (hfinished : h.isFinished = true) : Settled source h (h.onFinished io, none) := by
  obtain ⟨hleads, hend⟩ := onFinished_spec io horderly hcanceled hfinished
  exact ⟨hleads, Or.inl ⟨hend, rfl⟩⟩

theorem sendRequest_settled (hfinished : h.isFinished = false) :
    Settled source h h.sendRequest := by
  rw [sendRequest]
  split
  next request hrequest =>
    rw [fileContentsRequest, if_neg (by simp [hfinished])] at hrequest
    split at hrequest
    next => cases hrequest
    next file hfile =>
      refine ⟨.refl h, Or.inr ⟨rfl, _, (Except.ok.inj hrequest).symm, ?_⟩⟩
      rw [fileContentsRequest, if_neg (by simp [hfinished]), hfile]
  next e _ =>
    obtain ⟨hleads, -, herror⟩ := onError_spec source h e
    exact ⟨hleads, Or.inl ⟨isFinished_eq_true.mpr (Or.inr (Or.inl (by simp [herror]))), rfl⟩⟩

end PasteTaskHandle

def FileContentsRequest.position (r : FileContentsRequest) : Nat :=
  asU32 r.nPositionHigh * 2 ^ 32 + asU32 r.nPositionLow

/-- What an honest peer answers: at most `count` bytes of what was asked for, or a failure. -/
def FileContentsRequest.answer (r : FileContentsRequest) (source : Sources) (msgFlags : Int)
    (count : Nat) : FileContentsResponse where
  connId := r.connId
  msgFlags := msgFlags
  streamId := r.streamId
  requestedData :=
    if msgFlags = 1 then
      ((source r.listIndex.toNat).drop r.position).take (min count r.cbRequested.toNat)
    else []

/-- The paste task, and what is in transit between it and the peers.  Each message is with
the number of the task that it belongs to, which neither side sees; `started` are the lists
of all tasks so far, with their source files. -/
structure PasteLink where
  task : PasteTask
  started : List (List FileDescription × Sources)
  requests : List (Nat × FileContentsRequest)
  answers : List (Nat × FileContentsResponse)

inductive PasteLinkEvent where
  | formatData (io : PasteIo) (targetDir : Text) (pdu : Bytes) (connId : Int) (source : Sources)
  | cancel
  | timeout (io : PasteIo) (late : Bool)
  /-- The peer of the connection answers the first request that reaches it. -/
  | answer (connId msgFlags : Int) (count : Nat)
  /-- The worker gets the first answer of the connection. -/
  | deliver (io : PasteIo) (connId : Int)

namespace PasteLink

def new : PasteLink := ⟨.new, [], [], []⟩

def send (s : PasteLink) (result : PasteTask × Option FileContentsRequest) : PasteLink :=
  { s with
    task := result.1
    requests := s.requests ++ result.2.toList.map (result.1.tasks - 1, ·) }

def sourceOf (s : PasteLink) (k : Nat) : Sources := ((s.started[k]?).map (·.2)).getD fun _ => []

def startedWith (s : PasteLink) (source : Sources) :
    Except FileDescription.ParseError (List FileDescription) → List (List FileDescription × Sources)
  | .ok files => if s.task.isFinished then s.started ++ [(files, source)] else s.started
  | .error _ => s.started

def step (s : PasteLink) : PasteLinkEvent → PasteLink
  | .formatData io targetDir pdu connId source =>
    { s with
      started := s.startedWith source (FileDescription.parseFileDescriptors pdu connId)
    }.send (s.task.handleFormatDataResponse io targetDir pdu connId)
  | .cancel => { s with task := s.task.cancel }
  | .timeout io late => { s with task := s.task.recvTimeout io late }
  | .answer connId msgFlags count =>
    match s.requests.find? (·.2.connId = connId) with
    | none => s
    | some (k, r) =>
      { s with
        requests := s.requests.eraseP (·.2.connId = connId)
        answers := s.answers ++ [(k, r.answer (s.sourceOf k) msgFlags count)] }
  | .deliver io connId =>
    match s.answers.find? (·.2.connId = connId) with
    | none => s
    | some (_, a) =>
      { s with answers := s.answers.eraseP (·.2.connId = connId) }.send (s.task.recvResponse io a)

/-- Each file that was renamed is complete, in the paste that it was started for. -/
def AllComplete (s : PasteLink) : Prop :=
  ∀ x ∈ renamedFiles s.task.log, ∃ files source, s.started[x.1]? = some (files, source) ∧
    CompleteFile files source x.2.1 x.2.2

/-- The peer announces the sizes that its files have. -/
def Honest (_ : PasteLink) : PasteLinkEvent → Prop
  | .formatData _ _ pdu connId source =>
    ∀ files ∈ (FileDescription.parseFileDescriptors pdu connId).toOption,
      ∀ x ∈ files.zipIdx, x.1.kind = .file → (source x.2).length = x.1.size
  | _ => True

/-- The task takes the answer. -/
def Takes (h : PasteTaskHandle) (a : FileContentsResponse) : Prop :=
  h.isFinished = false ∧ a.streamId = h.listIndex ∧
    (a.msgFlags = 1 → (h.getFile a.streamId).any (·.connId = a.connId))

instance (h : PasteTaskHandle) (a : FileContentsResponse) : Decidable (Takes h a) :=
  inferInstanceAs (Decidable (_ ∧ _))

/-- An answer that the worker takes is one to the current task, and if it completes the
file, `flush` succeeds. -/
def Timely (s : PasteLink) : PasteLinkEvent → Prop
  | .deliver io connId =>
    ∀ m ∈ s.answers.find? (·.2.connId = connId), ∀ h ∈ s.task.handle, Takes h m.2 →
      m.1 = h.task ∧ (m.2.msgFlags = 1 → h.Flushes io m.2.requestedData)
  | _ => True

open PasteTaskHandle

structure Waiting (source : Sources) (h : PasteTaskHandle)
    (requests : List (Nat × FileContentsRequest))
    (answers : List (Nat × FileContentsResponse)) : Prop where
  one : requests.countP (·.1 = h.task) + answers.countP (·.1 = h.task) ≤ 1
  asked : ∀ r, (h.task, r) ∈ requests → h.fileContentsRequest = .ok (some r)
  answered : ∀ a, (h.task, a) ∈ answers →
    ∃ r msgFlags count, h.fileContentsRequest = .ok (some r) ∧ a = r.answer source msgFlags count

structure Running (s : PasteLink) (h : PasteTaskHandle) (source : Sources) : Prop where
  started : s.started[h.task]? = some (h.files, source)
  sources : SourcesMatch h.files source
  orderly : h.Orderly source
  waiting : Waiting source h s.requests s.answers

structure Inv (s : PasteLink) : Prop where
  complete : s.AllComplete
  tasks : s.task.tasks = s.started.length
  requestTags : ∀ m ∈ s.requests, m.1 < s.started.length
  answerTags : ∀ m ∈ s.answers, m.1 < s.started.length
  current : ∀ h, s.task.handle = some h → h.isFinished = false → ∃ source, s.Running h source

theorem perm_of_find? {β : Type} {p : β → Bool} {l : List β} {b : β}
    (h : l.find? p = some b) : l.Perm (b :: l.eraseP p) := by
  obtain ⟨hb, front, back, rfl, hfront⟩ := List.find?_eq_some_iff_append.mp h
  have herase : (front ++ b :: back).eraseP p = front ++ back := by
    rw [eraseP_append_right _ (fun a ha => by simpa using hfront a ha), eraseP_cons_of_pos hb]
  rw [herase]
  exact perm_middle

theorem countP_of_find? {β : Type} {p : Nat × β → Bool} {l : List (Nat × β)} {b : Nat × β}
    (h : l.find? p = some b) (k : Nat) :
    l.countP (·.1 = k) = (if b.1 = k then 1 else 0) + (l.eraseP p).countP (·.1 = k) := by
  rw [(perm_of_find? h).countP_eq, countP_cons]
  simp only [decide_eq_true_eq]
  omega

theorem complete_of_leads {started : List (List FileDescription × Sources)} {source : Sources}
    {h h' : PasteTaskHandle} (hstarted : started[h.task]? = some (h.files, source))
    (hbefore : ∀ x ∈ renamedFiles h.log, ∃ files source, started[x.1]? = some (files, source) ∧
      CompleteFile files source x.2.1 x.2.2)
    (hleads : Leads source h h') :
    ∀ x ∈ renamedFiles h'.log, ∃ files source, started[x.1]? = some (files, source) ∧
      CompleteFile files source x.2.1 x.2.2 := by
  intro x hx
  rcases hleads.renamed x hx with hx | ⟨htask, hfile⟩
  · exact hbefore x hx
  · exact ⟨h.files, source, htask ▸ hstarted, hfile⟩

variable {s : PasteLink}

/-- **End of a round.**  If no message of the task is in transit, the invariant holds again
when the task settles. -/
theorem inv_of_settled {h h' : PasteTaskHandle} {source : Sources}
    {n : Nat} {request : Option FileContentsRequest}
    (hstarted : s.started[h.task]? = some (h.files, source))
    (hlast : h.task + 1 = s.started.length)
    (hsources : SourcesMatch h.files source) (horderly : h.Orderly source)
    (hcomplete : ∀ x ∈ renamedFiles h.log, ∃ files source,
      s.started[x.1]? = some (files, source) ∧ CompleteFile files source x.2.1 x.2.2)
    (hrequests : ∀ m ∈ s.requests, m.1 < s.started.length ∧ m.1 ≠ h.task)
    (hanswers : ∀ m ∈ s.answers, m.1 < s.started.length ∧ m.1 ≠ h.task)
    (hsettled : Settled source h (h', request)) :
    Inv (s.send (⟨some h', n⟩, request)) := by
  obtain ⟨hleads, hcases⟩ := hsettled
  have htasks : PasteTask.tasks ⟨some h', n⟩ = s.started.length := by
    show h'.task + 1 = s.started.length
    rw [hleads.task, hlast]
  have htag : PasteTask.tasks ⟨some h', n⟩ - 1 = h.task := by omega
  refine ⟨complete_of_leads hstarted hcomplete hleads, htasks, ?_, fun m hm => (hanswers m hm).1, ?_⟩
  · intro m hm
    rcases mem_append.mp hm with hm | hm
    · exact (hrequests m hm).1
    · obtain ⟨r, -, rfl⟩ := mem_map.mp hm
      show PasteTask.tasks ⟨some h', n⟩ - 1 < s.started.length
      omega
  · rintro x hx hrunning
    cases hx
    rcases hcases with ⟨hfinished, -⟩ | ⟨rfl, r, rfl, hr⟩
    · rw [hfinished] at hrunning
      cases hrunning
    · refine ⟨source, hstarted, hsources, horderly, ?_, ?_, ?_⟩
      · have hzero : s.requests.countP (·.1 = h'.task) = 0 := by
          rw [countP_eq_zero]
          exact fun m hm => by simpa using (hrequests m hm).2
        have hzero' : s.answers.countP (·.1 = h'.task) = 0 := by
          rw [countP_eq_zero]
          exact fun m hm => by simpa using (hanswers m hm).2
        show (s.requests ++ _).countP _ + s.answers.countP _ ≤ 1
        rw [countP_append, hzero, hzero', Nat.zero_add, Nat.add_zero]
        exact countP_le_length
      · intro r' hr'
        rcases mem_append.mp hr' with hmem | hmem
        · exact ((hrequests _ hmem).2 rfl).elim
        · obtain ⟨r'', hr'', heq⟩ := mem_map.mp hmem
          obtain rfl : r'' = r := by simpa using hr''
          obtain rfl : r'' = r' := (Prod.mk.inj heq).2
          exact hr
      · intro a ha
        exact ((hanswers _ ha).2 rfl).elim

theorem inv_of_finished (hinv : Inv s) {h : PasteTaskHandle} {n : Nat}
    (hcomplete : ∀ x ∈ renamedFiles h.log, ∃ files source,
      s.started[x.1]? = some (files, source) ∧ CompleteFile files source x.2.1 x.2.2)
    (htask : h.task + 1 = s.started.length) (hfinished : h.isFinished = true) :
    Inv { s with task := ⟨some h, n⟩ } := by
  refine ⟨hcomplete, htask, hinv.requestTags, hinv.answerTags, ?_⟩
  rintro x hx hrunning
  cases hx
  rw [hfinished] at hrunning
  cases hrunning

theorem Inv.last (hinv : Inv s) {h : PasteTaskHandle}
    (hh : s.task.handle = some h) : h.task + 1 = s.started.length := by
  rw [← hinv.tasks, PasteTask.tasks, hh]
  rfl

theorem Inv.complete_handle (hinv : Inv s) {h : PasteTaskHandle}
    (hh : s.task.handle = some h) : ∀ x ∈ renamedFiles h.log, ∃ files source,
      s.started[x.1]? = some (files, source) ∧ CompleteFile files source x.2.1 x.2.2 := by
  have hcomplete := hinv.complete
  rw [AllComplete, PasteTask.log, hh] at hcomplete
  exact hcomplete

theorem send_none (s : PasteLink) : s.send (s.task, none) = s := by
  simp [send]

theorem inv_cancel (hinv : Inv s) : Inv (s.step .cancel) := by
  rw [step, PasteTask.cancel]
  split
  next => exact hinv
  next h hh =>
    refine inv_of_finished hinv ?_ ?_ ?_
    · rw [renamedFiles_onCancelled]
      have hcomplete := hinv.complete_handle hh
      exact hcomplete
    · rw [← hinv.last hh, (onCancelled_spec (s.sourceOf 0) _).1.task]
    · refine isFinished_eq_true.mpr (Or.inl ?_)
      rw [(onCancelled_spec (s.sourceOf 0) _).1.isCanceled]

theorem isCanceled_of_running {h : PasteTaskHandle} (hrunning : h.isFinished = false) :
    h.isCanceled = false := by
  cases hc : h.isCanceled with
  | false => rfl
  | true =>
    rw [isFinished_eq_true.mpr (Or.inl hc)] at hrunning
    cases hrunning

theorem inv_timeout (hinv : Inv s) (io : PasteIo) (late : Bool) :
    Inv (s.step (.timeout io late)) := by
  rw [step, PasteTask.recvTimeout]
  split
  next => exact hinv
  next h hh =>
    split_ifs with hlate
    · have hrunning : h.isFinished = false := by
        cases hf : h.isFinished with
        | false => rfl
        | true => simp [hf] at hlate
      obtain ⟨source, hrun⟩ := hinv.current h hh hrunning
      have hset : Leads source h { h with error := some .failedToReadContents } :=
        leads_of_log_eq rfl rfl rfl rfl
      have horderly : Orderly source { h with error := some .failedToReadContents } := by
        intro w hw
        have hd := hrun.orderly w hw
        exact ⟨hd.index, hd.nonneg, hd.desc, hd.content, hd.unfinished⟩
      have hcanceled : h.isCanceled = false := isCanceled_of_running hrunning
      obtain ⟨hleads, hfinished⟩ := onFinished_spec io horderly hcanceled
        (isFinished_eq_true.mpr (Or.inr (Or.inl rfl)))
      refine inv_of_finished hinv ?_ ?_ hfinished
      · exact complete_of_leads hrun.started (hinv.complete_handle hh) (hset.trans hleads)
      · rw [(hset.trans hleads).task, hinv.last hh]
    · exact hinv

theorem sourceOf_eq {k : Nat} {files : List FileDescription} {source : Sources}
    (h : s.started[k]? = some (files, source)) : s.sourceOf k = source := by
  rw [sourceOf, h]
  rfl

theorem inv_answer (hinv : Inv s) (connId msgFlags : Int) (count : Nat) :
    Inv (s.step (.answer connId msgFlags count)) := by
  rw [step]
  split
  next => exact hinv
  next k r hfind =>
    have hmem : (k, r) ∈ s.requests := mem_of_find?_eq_some hfind
    have hsub : ∀ m ∈ s.requests.eraseP (·.2.connId = connId), m ∈ s.requests :=
      fun m hm => mem_of_mem_eraseP hm
    refine ⟨hinv.complete, hinv.tasks, fun m hm => hinv.requestTags m (hsub m hm), ?_, ?_⟩
    · intro m hm
      rcases mem_append.mp hm with hm | hm
      · exact hinv.answerTags m hm
      · obtain rfl := mem_singleton.mp hm
        exact hinv.requestTags _ hmem
    · intro h hh hrunning
      obtain ⟨source, hrun⟩ := hinv.current h hh hrunning
      refine ⟨source, hrun.started, hrun.sources, hrun.orderly, ?_, ?_, ?_⟩
      · have hone := hrun.waiting.one
        rw [countP_of_find? hfind] at hone
        show (s.requests.eraseP _).countP _ + (s.answers ++ [_]).countP _ ≤ 1
        rw [countP_append, countP_singleton]
        simp only [decide_eq_true_eq] at hone ⊢
        omega
      · exact fun r' hr' => hrun.waiting.asked r' (hsub _ hr')
      · intro a ha
        rcases mem_append.mp ha with ha | ha
        · exact hrun.waiting.answered a ha
        · obtain ⟨rfl, rfl⟩ := Prod.mk.inj (mem_singleton.mp ha)
          refine ⟨r, msgFlags, count, hrun.waiting.asked r hmem, ?_⟩
          rw [sourceOf_eq hrun.started]

theorem inv_dropped (hinv : Inv s)
    {answers : List (Nat × FileContentsResponse)} (hsub : answers.Sublist s.answers) :
    Inv { s with answers := answers } := by
  refine ⟨hinv.complete, hinv.tasks, hinv.requestTags,
    fun m hm => hinv.answerTags m (hsub.mem hm), ?_⟩
  intro h hh hrunning
  obtain ⟨source, hrun⟩ := hinv.current h hh hrunning
  refine ⟨source, hrun.started, hrun.sources, hrun.orderly, ?_, hrun.waiting.asked,
    fun a ha => hrun.waiting.answered a (hsub.mem ha)⟩
  have hone := hrun.waiting.one
  have hle := hsub.countP_le (p := fun m => decide (m.1 = h.task))
  show s.requests.countP _ + answers.countP _ ≤ 1
  omega

theorem proceed_settled (io : PasteIo) {source : Sources} {h : PasteTaskHandle} (n : Nat)
    (horderly : Orderly source h) (hcanceled : h.isCanceled = false) :
    ∃ h' n' request, PasteTask.proceed io n h = (⟨some h', n'⟩, request) ∧
      Settled source h (h', request) := by
  rw [PasteTask.proceed]
  split_ifs with hfinished
  · exact ⟨_, _, _, rfl, onFinished_settled horderly hcanceled hfinished⟩
  · exact ⟨_, _, _, rfl, sendRequest_settled (by simpa using hfinished)⟩

theorem recvResponse_of_not_takes {io : PasteIo} {t : PasteTask} {h : PasteTaskHandle}
    {a : FileContentsResponse} (hh : t.handle = some h) (hnot : ¬ Takes h a) :
    t.recvResponse io a = (t, none) := by
  rw [PasteTask.recvResponse, hh]
  dsimp only
  by_cases hfinished : h.isFinished = true
  · rw [if_pos hfinished]
  rw [if_neg hfinished]
  by_cases hstream : a.streamId = h.listIndex
  · rw [if_neg (not_not_intro hstream)]
    by_cases hflags : a.msgFlags = 1
    · rw [if_neg (not_not_intro hflags)]
      cases hfile : h.getFile a.streamId with
      | none => rfl
      | some file =>
        by_cases hconn : file.connId = a.connId
        · refine (hnot ⟨by simpa using hfinished, hstream, fun _ => ?_⟩).elim
          simp [hfile, hconn]
        · exact if_pos hconn
    · exact (hnot ⟨by simpa using hfinished, hstream, fun h => (hflags h).elim⟩).elim
  · rw [if_pos hstream]

theorem recvResponse_of_takes {io : PasteIo} {t : PasteTask} {h : PasteTaskHandle}
    {a : FileContentsResponse} {source : Sources} (hh : t.handle = some h) (htakes : Takes h a)
    (hsources : SourcesMatch h.files source) (horderly : Orderly source h)
    (hpiece : a.msgFlags = 1 → ∀ written, h.fileHandle = some written →
      Piece source h a.requestedData)
    (hflush : a.msgFlags = 1 → Flushes io h a.requestedData) :
    ∃ h' n, t.recvResponse io a = PasteTask.proceed io n h' ∧ Leads source h h' ∧
      Orderly source h' := by
  obtain ⟨hrunning, hstream, hconn⟩ := htakes
  rw [PasteTask.recvResponse, hh]
  dsimp only
  rw [if_neg (by simp [hrunning]), if_neg (not_not_intro hstream)]
  by_cases hflags : a.msgFlags = 1
  · rw [if_neg (not_not_intro hflags)]
    have hany := hconn hflags
    cases hfile : h.getFile a.streamId with
    | none => simp [hfile] at hany
    | some file =>
      have hmatch : file.connId = a.connId := by simpa [hfile] using hany
      obtain ⟨hleads, horderly'⟩ := handleFileContentsResponse_spec hsources hrunning
        horderly (hpiece hflags) (hflush hflags)
      dsimp only
      rw [if_neg (not_not_intro hmatch)]
      split
      next h' heq =>
        rw [heq] at hleads horderly'
        exact ⟨h', _, rfl, hleads, horderly'⟩
      next h' e heq =>
        rw [heq] at hleads
        obtain ⟨herror, hnone, -⟩ := onError_spec source h' e
        exact ⟨_, _, rfl, hleads.trans herror, orderly_of_none hnone⟩
  · rw [if_pos hflags]
    split_ifs
    · refine ⟨_, _, rfl, leads_of_log_eq rfl rfl rfl rfl, ?_⟩
      intro w hw
      have hd := horderly w hw
      exact ⟨hd.index, hd.nonneg, hd.desc, hd.content, hd.unfinished⟩
    · exact ⟨h, _, rfl, .refl h, horderly⟩

theorem piece_answer {h : PasteTaskHandle} {source : Sources} {r : FileContentsRequest}
    {msgFlags : Int} {count : Nat} {written : Bytes} (hsources : SourcesMatch h.files source)
    (hr : h.fileContentsRequest = .ok (some r)) (hd : Downloading source h written)
    (hflags : msgFlags = 1) : Piece source h (r.answer source msgFlags count).requestedData := by
  obtain ⟨desc, hdesc, -, hsize⟩ := hd.desc
  have hlt : h.offset < 2 ^ 64 := by
    have hfits := (hsources _ desc hdesc).1
    have := hd.unfinished
    omega
  have hpos : r.position = h.offset ∧ r.listIndex = h.listIndex := by
    rw [fileContentsRequest] at hr
    split_ifs at hr
    · cases hr
    · rw [getFile_eq_some.mpr ⟨hd.nonneg, hdesc⟩] at hr
      obtain rfl := Option.some.inj (Except.ok.inj hr)
      refine ⟨?_, rfl⟩
      simp only [FileContentsRequest.position, asU32_asI32]
      have hmask : h.offset &&& 0xFFFFFFFF = h.offset % 2 ^ 32 :=
        Nat.and_two_pow_sub_one_eq_mod h.offset 32
      rw [hmask, Nat.shiftRight_eq_div_pow]
      omega
  refine ⟨min count r.cbRequested.toNat, ?_⟩
  simp only [FileContentsRequest.answer, if_pos hflags, hpos.1, hpos.2]

theorem inv_deliver (hinv : Inv s) {io : PasteIo} {connId : Int}
    (htimely : s.Timely (.deliver io connId)) : Inv (s.step (.deliver io connId)) := by
  rw [step]
  split
  next => exact hinv
  next k a hfind =>
    have hdropped := inv_dropped hinv
      (eraseP_sublist (p := fun m => decide (m.2.connId = connId)) (l := s.answers))
    cases hh : s.task.handle with
    | none =>
      have hsame : s.task.recvResponse io a = (s.task, none) := by
        rw [PasteTask.recvResponse, hh]
      rw [hsame]
      exact (send_none _).symm ▸ hdropped
    | some h =>
      by_cases htakes : Takes h a
      · obtain ⟨htag, hflush⟩ := htimely (k, a) hfind h hh htakes
        obtain rfl : k = h.task := htag
        obtain ⟨source, hrun⟩ := hinv.current h hh htakes.1
        have hmem : (h.task, a) ∈ s.answers := mem_of_find?_eq_some hfind
        obtain ⟨r, msgFlags, count, hr, rfl⟩ := hrun.waiting.answered a hmem
        obtain ⟨h', n, hproceed, hleads, horderly⟩ := recvResponse_of_takes hh htakes
          hrun.sources hrun.orderly
          (fun hflags w hw => piece_answer hrun.sources hr (hrun.orderly w hw) hflags) hflush
        obtain ⟨h'', n', request, heq, hsettled⟩ := proceed_settled io n horderly
          (hleads.isCanceled.trans (isCanceled_of_running htakes.1))
        -- the answer was the only message of the task
        have hcount := hrun.waiting.one
        rw [countP_of_find? hfind, if_pos rfl] at hcount
        have hrequests : s.requests.countP (·.1 = h.task) = 0 := by omega
        have hanswers : (s.answers.eraseP (·.2.connId = connId)).countP (·.1 = h.task) = 0 := by
          omega
        rw [countP_eq_zero] at hrequests hanswers
        rw [hproceed, heq]
        refine inv_of_settled (s := { s with answers := s.answers.eraseP (·.2.connId = connId) })
          ?_ ?_ ?_ horderly ?_ ?_ ?_ hsettled
        · rw [hleads.task, hleads.files]
          exact hrun.started
        · rw [hleads.task]
          exact hinv.last hh
        · rw [hleads.files]
          exact hrun.sources
        · exact complete_of_leads hrun.started (hinv.complete_handle hh) hleads
        · intro m hm
          refine ⟨hinv.requestTags m hm, ?_⟩
          rw [hleads.task]
          simpa using hrequests m hm
        · intro m hm
          refine ⟨hinv.answerTags m (mem_of_mem_eraseP hm), ?_⟩
          rw [hleads.task]
          simpa using hanswers m hm
      · rw [recvResponse_of_not_takes hh htakes]
        exact (send_none _).symm ▸ hdropped

theorem updateNext_newHandle (io : PasteIo) (source : Sources) (t : PasteTask) (targetDir : Text)
    (files : List FileDescription) :
    Leads source (t.newHandle targetDir files) ((t.newHandle targetDir files).updateNext io 0).1 ∧
      Orderly source ((t.newHandle targetDir files).updateNext io 0).1 := by
  have hrunning : (t.newHandle targetDir files).isFinished = false := by
    rw [Bool.eq_false_iff]
    intro hfinished
    rcases isFinished_eq_true.mp hfinished with hcanceled | herror | hend
    · cases hcanceled
    · cases herror
    · have hend : (files.length : Int) ≤ -1 := hend
      omega
  rw [updateNext, if_neg (by simp [hrunning])]
  exact advance_spec io source rfl

theorem inv_start (hinv : Inv s) {io : PasteIo} {targetDir : Text}
    {files : List FileDescription} {source : Sources} (hsources : SourcesMatch files source)
    (hfinished : s.task.isFinished = true) :
    Inv ({ s with started := s.started ++ [(files, source)] }.send
      (s.task.start io targetDir files)) := by
  obtain ⟨hleads, horderly⟩ := updateNext_newHandle io source s.task targetDir files
  generalize hnext : ((s.task.newHandle targetDir files).updateNext io 0).1 = h at hleads horderly
  have htask : h.task = s.started.length := hleads.task.trans hinv.tasks
  have hfiles : h.files = files := hleads.files
  have hcanceled : h.isCanceled = false := hleads.isCanceled
  have hstarted : (s.started ++ [(files, source)])[s.started.length]? = some (files, source) := by
    simp
  have hcomplete : ∀ x ∈ renamedFiles (s.task.newHandle targetDir files).log, ∃ files' source',
      (s.started ++ [(files, source)])[x.1]? = some (files', source') ∧
        CompleteFile files' source' x.2.1 x.2.2 := by
    intro x hx
    obtain ⟨files', source', hlookup, hfile⟩ := hinv.complete x hx
    refine ⟨files', source', ?_, hfile⟩
    rw [List.getElem?_append_left (List.getElem?_eq_some_iff.mp hlookup).1]
    exact hlookup
  obtain ⟨h', n, request, heq, hsettled⟩ : ∃ h' n request,
      s.task.start io targetDir files = (⟨some h', n⟩, request) ∧
        Settled source h (h', request) := by
    rw [PasteTask.start, if_pos hfinished]
    dsimp only
    rw [hnext]
    split_ifs with hend
    · exact ⟨_, _, _, rfl, onFinished_settled horderly hcanceled hend⟩
    · exact ⟨_, _, _, rfl, sendRequest_settled (by simpa using hend)⟩
  rw [heq]
  refine inv_of_settled (s := { s with started := s.started ++ [(files, source)] })
    ?_ ?_ ?_ horderly ?_ ?_ ?_ hsettled
  · rw [htask, hfiles]
    exact hstarted
  · simp [htask]
  · rw [hfiles]
    exact hsources
  · refine complete_of_leads ?_ hcomplete hleads
    show (s.started ++ [(files, source)])[s.task.tasks]? = some (files, source)
    rw [hinv.tasks]
    exact hstarted
  · intro m hm
    have := hinv.requestTags m hm
    simp only [length_append, length_singleton]
    omega
  · intro m hm
    have := hinv.answerTags m hm
    simp only [length_append, length_singleton]
    omega

theorem inv_formatData (hinv : Inv s) {io : PasteIo} {targetDir : Text}
    {pdu : Bytes} {connId : Int} {source : Sources}
    (hhonest : s.Honest (.formatData io targetDir pdu connId source)) :
    Inv (s.step (.formatData io targetDir pdu connId source)) := by
  simp only [Honest] at hhonest
  simp only [step, PasteTask.handleFormatDataResponse]
  cases hparse : FileDescription.parseFileDescriptors pdu connId with
  | error e => exact (send_none s).symm ▸ hinv
  | ok files =>
    rw [hparse] at hhonest
    simp only [startedWith]
    by_cases hfinished : s.task.isFinished = true
    · rw [if_pos hfinished]
      refine inv_start hinv ?_ hfinished
      intro i desc hdesc
      have hmem : (desc, i) ∈ files.zipIdx := mem_zipIdx_iff_getElem?.mpr hdesc
      exact ⟨FileDescription.parseFileDescriptors_size hparse desc (mem_of_getElem? hdesc),
        hhonest files rfl (desc, i) hmem⟩
    · rw [if_neg hfinished, PasteTask.start, if_neg hfinished]
      exact (send_none s).symm ▸ hinv

theorem inv_new : Inv new := ⟨nofun, rfl, nofun, nofun, nofun⟩

theorem Inv.step (hinv : Inv s) {event : PasteLinkEvent}
    (hhonest : s.Honest event) (htimely : s.Timely event) : Inv (s.step event) := by
  cases event with
  | formatData io targetDir pdu connId source => exact inv_formatData hinv hhonest
  | cancel => exact inv_cancel hinv
  | timeout io late => exact inv_timeout hinv io late
  | answer connId msgFlags count => exact inv_answer hinv connId msgFlags count
  | deliver io connId => exact inv_deliver hinv htimely

/-- **A pasted file is complete and its own, if no late answer is taken for a new one.**
In every run with honest peers in which the worker takes only answers to requests of the
current task, and the `flush` before a renaming succeeds, every file that gets its final
name has the size in the list and is the source at its index. -/
theorem pasted_files_complete (events : List PasteLinkEvent)
    (hhonest : Run.Along PasteLink.step Honest PasteLink.new events)
    (htimely : Run.Along PasteLink.step Timely PasteLink.new events) :
    Run.Always PasteLink.step AllComplete PasteLink.new events := by
  have hstep : ∀ s event, Inv s → s.Honest event ∧ s.Timely event → Inv (PasteLink.step s event) :=
    fun s event hinv h => hinv.step h.1 h.2
  intro pre hpre
  exact (Run.always_of_along hstep inv_new (hhonest.and htimely) pre hpre).complete

instance (s : PasteLink) : (event : PasteLinkEvent) → Decidable (s.Honest event)
  | .formatData _ _ pdu connId _ =>
    inferInstanceAs
      (Decidable (∀ files ∈ (FileDescription.parseFileDescriptors pdu connId).toOption,
      ∀ x ∈ files.zipIdx, _ → _))
  | .cancel | .timeout .. | .answer .. | .deliver .. => .isTrue trivial

instance (s : PasteLink) : (event : PasteLinkEvent) → Decidable (s.Timely event)
  | .deliver io connId =>
    inferInstanceAs (Decidable (∀ m ∈ s.answers.find? (·.2.connId = connId),
      ∀ h ∈ s.task.handle, Takes h m.2 →
        m.1 = h.task ∧ (m.2.msgFlags = 1 → h.Flushes io m.2.requestedData)))
  | .formatData .. | .cancel | .timeout .. | .answer .. => .isTrue trivial

def smallPaste (source : Bytes) : PasteLinkEvent :=
  .formatData .emptyFolder ['/', 't'] (FileDescription.oneFilePdu "a" 2) 7 fun _ => source

theorem small_file_complete :
    Run.Always PasteLink.step AllComplete PasteLink.new
      [smallPaste [1, 2], .answer 7 1 100, .deliver .emptyFolder 7] :=
  pasted_files_complete _ (by decide +kernel) (by decide +kernel)

/-- The first task is cancelled before its answer comes; the second task takes the answer
for its own, and renames the file of the first. -/
theorem late_answer_taken :
    ¬ Run.Always PasteLink.step AllComplete PasteLink.new
      [smallPaste [1, 2], .cancel, smallPaste [3, 4], .answer 7 1 100,
        .deliver .emptyFolder 7] := by
  intro h
  obtain ⟨files, source, hstarted, -, desc, -, hcontent, -⟩ := h _ prefix_rfl (1, 0, [1, 2])
    (by decide +kernel)
  have hsource : (Run.exec PasteLink.step PasteLink.new
      [smallPaste [1, 2], .cancel, smallPaste [3, 4], .answer 7 1 100,
        .deliver .emptyFolder 7]).sourceOf 1 0 = [3, 4] := by decide +kernel
  rw [sourceOf_eq hstarted] at hsource
  exact absurd (hcontent.trans hsource) (by decide)

end PasteLink
end RustDesk
