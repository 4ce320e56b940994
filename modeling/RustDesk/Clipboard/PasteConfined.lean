import RustDesk.Clipboard.PasteTask

/-!
# A paste stays in the chosen folder

Names come from the peer and are joined to the target directory as they are: an absolute
name takes its place, and `..` leads out of it.  There is a third way out, for a file
whose name has no component at all: the name that is made unique is then the name of the
target directory.

`SafeList` excludes these three.  Every path that a task creates, writes, renames or
deletes is then under its target directory, whatever the peer answers, in whatever order
tasks are started and cancelled, and whatever the file system does.
-/

namespace RustDesk

open UnixPath List

def PasteEffect.paths : PasteEffect → List Text
  | .createFile path => [path]
  | .createDir path => [path]
  | .write path _ => [path]
  | .rename path dest _ _ => [path, dest]
  | .remove path => [path]

/-- Nothing outside of the target directory is touched. -/
def Deed.Confined (deed : Deed) : Prop := ∀ path ∈ deed.effect.paths, Under deed.dir path

def SafeName (dir : Text) (desc : FileDescription) : Prop :=
  Inside desc.name ∧ (desc.kind = .file → named desc.name ≠ [] ∨ extension dir = none)

instance (dir : Text) (desc : FileDescription) : Decidable (SafeName dir desc) :=
  inferInstanceAs (Decidable (_ ∧ _))

def SafeList (dir : Text) (files : List FileDescription) : Prop :=
  ∀ desc ∈ files, SafeName dir desc

instance (dir : Text) (files : List FileDescription) : Decidable (SafeList dir files) :=
  inferInstanceAs (Decidable (∀ desc ∈ files, SafeName dir desc))

theorem decimal_ne_nil (n : Nat) : decimal n ≠ [] := by
  intro h
  simp [decimal] at h

theorem slash_notMem_decimal (n : Nat) : '/' ∉ decimal n := by
  intro h
  have := Nat.isDigit_of_mem_toDigits (by decide) (by decide) h
  exact absurd this (by decide)

theorem numberSuffix_spec (n : Nat) :
    '/' ∉ ' ' :: '(' :: decimal n ++ [')'] ∧ 2 < (' ' :: '(' :: decimal n ++ [')']).length := by
  constructor
  · simp [slash_notMem_decimal]
  · have := length_pos_of_ne_nil (decimal_ne_nil n)
    simp only [length_append, length_cons, length_nil]
    omega

variable {kind : FileKind}

theorem numberedName_below {dir name q : Text} {i : Nat} (h : Inside name)
    (hkind : kind = .file → named name ≠ [] ∨ extension (join dir name) = none)
    (hq : numberedName (join dir name) kind i = some q) : Below dir q := by
  obtain ⟨hsep, hlen⟩ := numberSuffix_spec i
  cases kind with
  | file =>
    simp only [numberedName] at hq
    split at hq
    next ext hext =>
      cases hq
      have hnamed : named name ≠ [] := by
        rcases hkind rfl with hnamed | hnone
        · exact hnamed
        · rw [hnone] at hext
          cases hext
      obtain ⟨c, stem, hname, hstem, hstemSep, hextSep⟩ := extension_parts hext
      refine (h.below hnamed).withFileName hname ?_ ?_
      · rw [hstem]
        simp [hstemSep, hextSep, slash_notMem_decimal]
      · have := length_pos_of_ne_nil (decimal_ne_nil i)
        simp only [length_append, length_cons]
        omega
    next =>
      cases hq
      rw [append_assoc]
      exact h.below_append hsep hlen
  | directory =>
    cases hq
    rw [append_assoc]
    exact h.below_append hsep hlen
  | symlink => cases hq

variable {present : Text → Bool}

theorem firstFree_eq_some {path q : Text} :
    ∀ {rounds i : Nat}, firstFree present path kind rounds i = some q →
      ∃ j, numberedName path kind j = some q := by
  intro rounds
  induction rounds with
  | zero => exact nofun
  | succ rounds ih =>
    intro i h
    simp only [firstFree] at h
    split at h
    next => cases h
    next name hname =>
      split_ifs at h with hpresent
      · exact ih h
      · cases h
        exact ⟨i, hname⟩

theorem getFirstFilename_eq_some {path q : Text} (h : getFirstFilename present path kind = some q) :
    q = path ∨ ∃ i, numberedName path kind i = some q := by
  rw [getFirstFilename] at h
  split_ifs at h
  · exact Or.inr (firstFree_eq_some h)
  · exact Or.inl (Option.some.inj h).symm

theorem getNewFilename_under {dir q : Text} {desc : FileDescription}
    (hsafe : SafeName dir desc) (h : getNewFilename present dir desc = some q) : Under dir q := by
  have hself := under_join dir hsafe.1
  simp only [getNewFilename] at h
  split_ifs at h
  · rcases getFirstFilename_eq_some h with rfl | ⟨i, hi⟩
    · exact hself
    · refine (numberedName_below hsafe.1 ?_ hi).under
      intro hkind
      rcases hsafe.2 hkind with hnamed | hext
      · exact Or.inl hnamed
      · by_cases hnamed : named desc.name = []
        · exact Or.inr (extension_join_of_named_nil hsafe.1 hnamed hext)
        · exact Or.inl hnamed
  · cases h
    exact hself

theorem downloadName_below {dir q : Text} {desc : FileDescription} (hsafe : SafeName dir desc)
    (h : getFirstFilename present (join dir desc.name ++ downloadExtension) desc.kind = some q) :
    Below dir q := by
  have hsep : '/' ∉ downloadExtension := by decide
  have hlen : 2 < downloadExtension.length := by decide
  obtain ⟨hinside, front, last, hnamed⟩ := hsafe.1.append hsep hlen
  have hne : named (desc.name ++ downloadExtension) ≠ [] := by simp [hnamed]
  rw [join_append dir hsafe.1.1 hsep] at h
  rcases getFirstFilename_eq_some h with rfl | ⟨i, hi⟩
  · exact hinside.below hne
  · exact numberedName_below hinside (fun _ => Or.inl hne) hi

namespace PasteTaskHandle

structure Confined (dir : Text) (files : List FileDescription) (h : PasteTaskHandle) : Prop where
  targetDir : h.targetDir = dir
  files : h.files = files
  path : (h.downloadFilePath = [] ∧ h.fileHandle = none) ∨ Under dir h.downloadFilePath
  log : ∀ deed ∈ h.log, deed.Confined

variable {io : PasteIo} {dir : Text} {files : List FileDescription} {h : PasteTaskHandle}

theorem Confined.did (hc : Confined dir files h) {effect : PasteEffect}
    (he : ∀ path ∈ effect.paths, Under dir path) : Confined dir files (h.did effect) := by
  refine ⟨hc.targetDir, hc.files, hc.path, ?_⟩
  intro deed hdeed
  rcases mem_append.mp hdeed with hdeed | hdeed
  · exact hc.log deed hdeed
  · obtain rfl := mem_singleton.mp hdeed
    intro path hpath
    rw [hc.targetDir]
    exact he path hpath

variable {desc : FileDescription}

theorem Confined.safe_of_getFile (hc : Confined dir files h) (hsafe : SafeList dir files)
    {index : Int} (hget : h.getFile index = some desc) : SafeName dir desc := by
  rw [getFile] at hget
  split_ifs at hget
  rw [hc.files] at hget
  exact hsafe desc (mem_of_getElem? hget)

theorem Confined.onCancelled (hc : Confined dir files h) : Confined dir files h.onCancelled := by
  have hclosed : Confined dir files { h with fileHandle := none } :=
    ⟨hc.targetDir, hc.files, hc.path.imp (fun hp => ⟨hp.1, rfl⟩) id, hc.log⟩
  simp only [PasteTaskHandle.onCancelled]
  split_ifs with hpath
  · exact hclosed
  · refine hclosed.did ?_
    intro path hmem
    obtain rfl := mem_singleton.mp hmem
    exact hc.path.resolve_left fun hp => hpath hp.1

theorem Confined.onError (hc : Confined dir files h) (e : PasteError) :
    Confined dir files (h.onError e) :=
  Confined.onCancelled (h := { h with error := some e }) ⟨hc.targetDir, hc.files, hc.path, hc.log⟩

theorem Confined.renameFile (hc : Confined dir files h) {dest : Text} {content : Bytes}
    (hpath : Under dir h.downloadFilePath) (hdest : Under dir dest)
    (hclosed : h.fileHandle = none) : Confined dir files (h.renameFile io dest content) := by
  have hdid : Confined dir files
      (h.did (.rename h.downloadFilePath dest h.downloadFileIndex content)) := by
    refine hc.did ?_
    intro path hmem
    simp only [PasteEffect.paths, mem_cons, not_mem_nil, or_false] at hmem
    rcases hmem with rfl | rfl
    · exact hpath
    · exact hdest
  simp only [PasteTaskHandle.renameFile]
  split_ifs
  · exact ⟨hdid.targetDir, hdid.files, Or.inl ⟨rfl, hclosed⟩, hdid.log⟩
  · exact ⟨hc.targetDir, hc.files, Or.inl ⟨rfl, hclosed⟩, hc.log⟩

theorem Confined.onDone (hc : Confined dir files h) (hsafe : SafeList dir files) :
    Confined dir files (h.onDone io) := by
  rw [PasteTaskHandle.onDone]
  split
  next => exact hc
  next written hhandle =>
    have hpath : Under dir h.downloadFilePath :=
      hc.path.resolve_left fun hp => by simp [hhandle] at hp
    have hclosed : Confined dir files { h with fileHandle := none } :=
      ⟨hc.targetDir, hc.files, Or.inr hpath, hc.log⟩
    split_ifs
    · exact hc
    · dsimp only
      split
      next => exact hclosed
      next desc hdesc =>
        split
        next => exact hclosed
        next dest hdest =>
          rw [hc.targetDir] at hdest
          exact hclosed.renameFile hpath
            (getNewFilename_under (hclosed.safe_of_getFile hsafe hdesc) hdest) rfl

theorem Confined.onFinished (hc : Confined dir files h) (hsafe : SafeList dir files) :
    Confined dir files (h.onFinished io) := by
  have hinner : Confined dir files (if h.error.isSome then h.onCancelled else h.onDone io) := by
    split_ifs
    · exact hc.onCancelled
    · exact hc.onDone hsafe
  simp only [PasteTaskHandle.onFinished]
  generalize (if h.error.isSome then h.onCancelled else h.onDone io) = h' at hinner
  split_ifs
  · exact ⟨hinner.targetDir, hinner.files, hinner.path, hinner.log⟩
  · exact hinner

theorem Confined.createDownload (hc : Confined dir files h) {path : Text}
    (hpath : Under dir path) : Confined dir files (h.createDownload io desc path) := by
  rw [PasteTaskHandle.createDownload]
  split_ifs
  · have hdid : Confined dir files (h.did (.createFile path)) := by
      refine hc.did ?_
      intro p hmem
      obtain rfl := mem_singleton.mp hmem
      exact hpath
    exact ⟨hdid.targetDir, hdid.files, Or.inr hpath, hdid.log⟩
  · exact ⟨hc.targetDir, hc.files, hc.path, hc.log⟩

theorem Confined.createDir (hc : Confined dir files h) {path : Text} (hpath : Under dir path) :
    Confined dir files (h.did (.createDir path)) := by
  refine hc.did ?_
  intro p hmem
  obtain rfl := mem_singleton.mp hmem
  exact hpath

theorem Confined.openNewWriter (hc : Confined dir files h) (hsafe : SafeList dir files) :
    Confined dir files (h.openNewWriter io).1 := by
  rw [PasteTaskHandle.openNewWriter]
  split
  next => exact hc
  next desc hdesc =>
    dsimp only
    split
    next => exact hc
    next path hpath =>
      rw [hc.targetDir] at hpath
      have hbelow := downloadName_below (hc.safe_of_getFile hsafe hdesc) hpath
      split_ifs
      · exact hc
      · exact hc.createDownload hbelow.under
      · exact (hc.createDir hbelow.parent).createDownload hbelow.under
      · exact hc.createDir hbelow.parent

theorem Confined.createEmpty (hc : Confined dir files h)
    (hsafe : SafeName dir desc) : Confined dir files (h.createEmpty io desc) := by
  rw [PasteTaskHandle.createEmpty]
  split
  next => exact hc
  next path hpath =>
    rw [hc.targetDir] at hpath
    split_ifs
    · refine hc.did ?_
      intro p hmem
      obtain rfl := mem_singleton.mp hmem
      exact getNewFilename_under hsafe hpath
    · exact hc

theorem Confined.createDirectory (hc : Confined dir files h)
    (hsafe : SafeName dir desc) : Confined dir files (h.createDirectory io desc) := by
  simp only [PasteTaskHandle.createDirectory]
  split_ifs
  · exact hc
  · rw [hc.targetDir]
    exact hc.createDir (under_join dir hsafe.1)

variable (io) in
theorem Confined.nextFile (hsafe : SafeList dir files) :
    ∀ (rest : List FileDescription) (i : Nat) {h : PasteTaskHandle}, Confined dir files h →
      SafeList dir rest → Confined dir files (nextFile io rest i h).1 := by
  intro rest
  induction rest with
  | nil => exact fun i h hc _ => hc
  | cons desc rest ih =>
    intro i h hc hrest
    have hdesc := hrest desc mem_cons_self
    have hrest' : SafeList dir rest := fun d hd => hrest d (mem_cons_of_mem _ hd)
    simp only [PasteTaskHandle.nextFile]
    split
    next =>
      split_ifs
      · exact ih (i + 1) (hc.createEmpty hdesc) hrest'
      · exact Confined.openNewWriter (h := { h with listIndex := i, offset := 0 })
          ⟨hc.targetDir, hc.files, hc.path, hc.log⟩ hsafe
    next => exact ih (i + 1) (hc.createDirectory hdesc) hrest'
    next => exact ih (i + 1) hc hrest'

theorem Confined.closeList (hc : Confined dir files h) : Confined dir files h.closeList := by
  rw [PasteTaskHandle.closeList]
  split_ifs
  · exact ⟨hc.targetDir, hc.files, hc.path, hc.log⟩
  · exact hc

theorem Confined.advance (hc : Confined dir files h) (hsafe : SafeList dir files) :
    Confined dir files (h.advance io).1 := by
  have hnext := Confined.nextFile io hsafe (h.files.drop (h.listIndex + 1).toNat)
    (h.listIndex + 1).toNat hc (fun d hd => hsafe d (hc.files ▸ mem_of_mem_drop hd))
  rw [PasteTaskHandle.advance]
  split
  next h' e heq =>
    rw [heq] at hnext
    exact hnext
  next h' heq =>
    rw [heq] at hnext
    exact hnext.closeList

variable (io) in
theorem Confined.updateNext (hc : Confined dir files h) (hsafe : SafeList dir files) (size : Nat) :
    Confined dir files (h.updateNext io size).1 := by
  have hcounted : Confined dir files { h with currentSize := h.currentSize + size } :=
    ⟨hc.targetDir, hc.files, hc.path, hc.log⟩
  rw [PasteTaskHandle.updateNext]
  dsimp only
  split_ifs
  · exact hc
  · exact hcounted.advance hsafe
  · exact (hcounted.onDone hsafe).advance hsafe
  · exact Confined.closeList ⟨hc.targetDir, hc.files, hc.path, hc.log⟩

theorem Confined.sendRequest (hc : Confined dir files h) : Confined dir files h.sendRequest.1 := by
  rw [PasteTaskHandle.sendRequest]
  split
  next => exact hc
  next e _ => exact hc.onError e

variable (io) in
theorem Confined.handleFileContentsResponse (hc : Confined dir files h)
    (hsafe : SafeList dir files) (data : Bytes) :
    Confined dir files (h.handleFileContentsResponse io data).1 := by
  rw [PasteTaskHandle.handleFileContentsResponse]
  split
  next => exact hc
  next written hhandle =>
    have hpath : Under dir h.downloadFilePath :=
      hc.path.resolve_left fun hp => by simp [hhandle] at hp
    have hdid : Confined dir files (h.did (.write h.downloadFilePath data)) := by
      refine hc.did ?_
      intro p hmem
      obtain rfl := mem_singleton.mp hmem
      exact hpath
    dsimp only
    split_ifs
    · exact Confined.updateNext io
        (h := { h.did (.write h.downloadFilePath data) with fileHandle := some (written ++ data) })
        ⟨hdid.targetDir, hdid.files, Or.inr hpath, hdid.log⟩ hsafe data.length
    · exact hdid

end PasteTaskHandle

namespace PasteTask

open PasteTaskHandle

def Confined (t : PasteTask) : Prop :=
  ∀ h, t.handle = some h →
    SafeList h.targetDir h.files ∧ PasteTaskHandle.Confined h.targetDir h.files h

theorem confined_of_handle {dir : Text} {files : List FileDescription} {h : PasteTaskHandle}
    {retryCount : Nat} (hsafe : SafeList dir files) (hc : PasteTaskHandle.Confined dir files h) :
    PasteTask.Confined ⟨some h, retryCount⟩ := by
  rintro h' heq
  cases heq
  rw [hc.targetDir, hc.files]
  exact ⟨hsafe, hc⟩

theorem Confined.log {t : PasteTask} (hc : t.Confined) : ∀ deed ∈ t.log, deed.Confined := by
  rw [PasteTask.log]
  cases hh : t.handle with
  | none => exact nofun
  | some h => exact (hc h hh).2.log

variable {t : PasteTask} {io : PasteIo}

theorem Confined.start {dir : Text} {files : List FileDescription} (hc : t.Confined)
    (hsafe : t.isFinished → SafeList dir files) : (t.start io dir files).1.Confined := by
  rw [PasteTask.start]
  split_ifs with hfinished
  · have hnew : PasteTaskHandle.Confined dir files (t.newHandle dir files) :=
      ⟨rfl, rfl, Or.inl ⟨rfl, rfl⟩, hc.log⟩
    have hnext := hnew.updateNext io (hsafe hfinished) 0
    dsimp only
    split_ifs
    · exact confined_of_handle (hsafe hfinished) (hnext.onFinished (hsafe hfinished))
    · exact confined_of_handle (hsafe hfinished) hnext.sendRequest
  · exact hc

theorem Confined.cancel (hc : t.Confined) : t.cancel.Confined := by
  rw [PasteTask.cancel]
  split
  next => exact hc
  next h hh =>
    obtain ⟨hsafe, hh⟩ := hc h hh
    have hcanceled : PasteTaskHandle.Confined h.targetDir h.files { h with isCanceled := true } :=
      ⟨rfl, rfl, hh.path, hh.log⟩
    exact confined_of_handle hsafe hcanceled.onCancelled

theorem confined_proceed {dir : Text} {files : List FileDescription} {h : PasteTaskHandle}
    {retryCount : Nat} (hsafe : SafeList dir files) (hc : PasteTaskHandle.Confined dir files h) :
    (proceed io retryCount h).1.Confined := by
  rw [proceed]
  split_ifs
  · exact confined_of_handle hsafe (hc.onFinished hsafe)
  · exact confined_of_handle hsafe hc.sendRequest

theorem Confined.recvResponse (hc : t.Confined) (r : FileContentsResponse) :
    (t.recvResponse io r).1.Confined := by
  rw [PasteTask.recvResponse]
  split
  next => exact hc
  next h hh =>
    obtain ⟨hsafe, hhc⟩ := hc h hh
    dsimp only
    split_ifs
    · exact hc
    · exact hc
    · exact confined_proceed hsafe ⟨hhc.targetDir, hhc.files, hhc.path, hhc.log⟩
    · exact confined_proceed hsafe hhc
    · split
      next => exact hc
      next file hfile =>
        split_ifs
        · exact hc
        have hresponse := hhc.handleFileContentsResponse io hsafe r.requestedData
        split
        next h' heq =>
          rw [heq] at hresponse
          exact confined_proceed hsafe hresponse
        next h' e heq =>
          rw [heq] at hresponse
          exact confined_proceed hsafe (hresponse.onError e)

theorem Confined.recvTimeout (hc : t.Confined) (late : Bool) :
    (t.recvTimeout io late).Confined := by
  rw [PasteTask.recvTimeout]
  split
  next => exact hc
  next h hh =>
    obtain ⟨hsafe, hhc⟩ := hc h hh
    split_ifs
    · have herror : PasteTaskHandle.Confined h.targetDir h.files
          { h with error := some .failedToReadContents } := ⟨rfl, rfl, hhc.path, hhc.log⟩
      exact confined_of_handle hsafe (herror.onFinished hsafe)
    · exact hc

def SafeParsed (t : PasteTask) (dir : Text) :
    Except FileDescription.ParseError (List FileDescription) → Prop
  | .ok files => t.isFinished → SafeList dir files
  | .error _ => True

instance (t : PasteTask) (dir : Text) :
    (parsed : Except FileDescription.ParseError (List FileDescription)) →
      Decidable (t.SafeParsed dir parsed)
  | .ok _ => inferInstanceAs (Decidable (_ → _))
  | .error _ => .isTrue trivial

/-- A list that starts a paste has only names that stay below the target directory. -/
def SafeStart (t : PasteTask) : PasteEvent → Prop
  | .formatData _ targetDir pdu connId =>
    t.SafeParsed targetDir (FileDescription.parseFileDescriptors pdu connId)
  | _ => True

instance (t : PasteTask) : (event : PasteEvent) → Decidable (t.SafeStart event)
  | .formatData _ targetDir _ _ => inferInstanceAs (Decidable (t.SafeParsed targetDir _))
  | .cancel => .isTrue trivial
  | .response .. => .isTrue trivial
  | .timeout .. => .isTrue trivial

theorem Confined.step (hc : t.Confined) {event : PasteEvent} (hsafe : t.SafeStart event) :
    (t.step event).Confined := by
  cases event with
  | formatData io dir pdu connId =>
    simp only [PasteTask.step, PasteTask.handleEvent, PasteTask.handleFormatDataResponse]
    simp only [SafeStart] at hsafe
    cases hparsed : FileDescription.parseFileDescriptors pdu connId with
    | ok files =>
      rw [hparsed] at hsafe
      exact hc.start hsafe
    | error e => exact hc
  | cancel => exact hc.cancel
  | response io r => exact hc.recvResponse r
  | timeout io late => exact hc.recvTimeout late

/-- **A paste stays in the chosen folder, if the names do.**  In every run in which each
list of files has only relative names without `..`, and no file without a name where the
target directory has an extension, every path that any task creates, writes, renames or
deletes is under the target directory of the task. -/
theorem paste_stays_inside (events : List PasteEvent)
    (h : Run.Along PasteTask.step SafeStart PasteTask.new events) :
    Run.Always PasteTask.step (fun t => ∀ deed ∈ t.log, deed.Confined) PasteTask.new events := by
  have hnew : PasteTask.Confined PasteTask.new := nofun
  have hstep : ∀ t event, PasteTask.Confined t → SafeStart t event →
      PasteTask.Confined (PasteTask.step t event) := fun t event hc hsafe => hc.step hsafe
  exact fun pre hpre => (Run.always_of_along hstep hnew h pre hpre).log

theorem note_stays_inside :
    Run.Always PasteTask.step (fun t => ∀ deed ∈ t.log, deed.Confined) PasteTask.new
      [.formatData PasteIo.emptyFolder ['/', 't'] (FileDescription.oneFilePdu "a\\note.txt" 0) 7] :=
  paste_stays_inside _ (by decide +kernel)

/-- A name with `..` creates a file outside the target directory. -/
theorem upward_name_leaves :
    ¬ Run.Always PasteTask.step (fun t => ∀ deed ∈ t.log, deed.Confined) PasteTask.new
      [.formatData PasteIo.emptyFolder ['/', 't'] (FileDescription.oneFilePdu "..\\x" 0) 7] := by
  intro h
  have hlog : (⟨0, ['/', 't'], .createFile ['/', 't', '/', '.', '.', '/', 'x']⟩ : Deed) ∈
      (PasteTask.step PasteTask.new
        (.formatData PasteIo.emptyFolder ['/', 't'] (FileDescription.oneFilePdu "..\\x" 0) 7)).log := by
          decide +kernel
  obtain ⟨-, rest, hrest, hdot⟩ := h _ prefix_rfl _ hlog _ mem_cons_self
  obtain rfl : rest = [dotdot, ['x']] := append_cancel_left (hrest.symm.trans (by decide))
  exact hdot (by decide)

end PasteTask
end RustDesk
