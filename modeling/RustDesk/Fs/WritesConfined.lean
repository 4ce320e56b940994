import RustDesk.Fs.Destination

/-!
# What a write job does stays below the base

For every file system and every accepted list of files: if nothing at a `.download` or
`.digest` path of the list is a symbolic link, and no `.download` is a directory, then what
a call makes, opens, moves or removes resolves under the resolved base.  Two things lie
elsewhere by intention.  A directory that is missing on the way to the base is made, and
so is the base.  And a single file may have no name; then the base is that file, and its
download and its note stand beside it.

Two steps: the checks leave no link on the way from the base to the checked path
(`Checked`), and what a call does changes no link (`Stays`), so that a check still holds
when the paths are used.
-/

namespace RustDesk

open UnixPath UnixPath.FileSystem Destination List
open WriteRun (Writes)

/-- The base is itself the file. -/
def SingleFile (files : List FileEntry) : Prop := ∃ entry, files = [entry] ∧ entry.name = ""

/-- A directory on the way to the base. -/
def OnTheWay (base q : Text) : Prop :=
  isAbsolute q = isAbsolute base ∧ components q <+: components base

/-- The operation makes the base, or stays within it. -/
def Act.Inside (base : String) (act : Act) : Prop :=
  (∃ q, act.op = .createDir q ∧ OnTheWay base.toList q) ∨
    ∀ q ∈ act.op.paths, act.fs.Within base.toList q

def Act.OfBase (base : String) (act : Act) : Prop :=
  (∃ q, act.op = .createDir q ∧ OnTheWay base.toList q) ∨
    ∀ q ∈ act.op.paths, q ∈ [base.toList, downloadPath base, digestPath base]

structure Checked (fs : FileSystem) (base name : String) : Prop where
  nonempty : name ≠ ""
  relative : isAbsolute name.toList = false
  clear : ∀ b, fs.resolve base.toList = some b → fs.Clear b (named name.toList)

theorem validateComponents_ok {io : PathIo} {fs : FileSystem} {current : Text} {cs : List Text}
    (hcs : ∀ c ∈ cs, c ≠ [] ∧ '/' ∉ c) (h : validateComponents io fs current cs = .ok ())
    {b : Place} (hb : fs.resolve current = some b) : fs.Clear b (cs.filter (· ≠ dot)) := by
  induction cs generalizing current b with
  | nil => trivial
  | cons c cs ih =>
    obtain ⟨hne, hsep⟩ := hcs c mem_cons_self
    have hrest : ∀ d ∈ cs, d ≠ [] ∧ '/' ∉ d := fun d hd => hcs d (mem_cons_of_mem c hd)
    rw [validateComponents] at h
    by_cases hdot : c = dot
    · rw [if_pos hdot] at h
      simpa [hdot] using ih hrest h hb
    rw [if_neg hdot] at h
    by_cases hup : c = dotdot
    · rw [if_pos hup] at h
      cases h
    rw [if_neg hup] at h
    have hproper : proper c := by simp [proper, hne, hdot]
    have hrel := isAbsolute_of_notMem hsep
    have hgoes : GoesOn current [c] (UnixPath.join current c) := by
      have := named_join current hrel
      rwa [(components_of_notMem hsep hproper).2] at this
    have hlast : (pieces (UnixPath.join current c)).getLast? = some c := by
      rw [getLast?_pieces_join current hrel, pieces_of_notMem hsep]
      rfl
    have hentry : fs.entry (UnixPath.join current c) = some (b ++ [c]) := by
      simpa using GoesOn.entry (show GoesOn current ([] ++ [c]) _ from hgoes) hlast hproper
        hup hb trivial
    simp only [hentry] at h
    split at h
    · cases h
    split at h
    · cases h
    rename_i hlink
    have hnone : fs.linkAt (b ++ [c]) = none := by simpa using hlink
    have hstep : fs.resolve (UnixPath.join current c) = some (b ++ [c]) := by
      have hclear : fs.Clear b [c] := ⟨hup, hnone, trivial⟩
      rcases @GoesOn.resolve fs _ _ _ hgoes with ⟨hno, -⟩ | ⟨b', m, hb', hp⟩
      · exact absurd (hno.symm.trans hb) (Option.some_ne_none b).symm
      · obtain rfl : b' = b := Option.some.inj (hb'.symm.trans hb)
        rw [hp, hclear.walk m]
    rw [filter_cons_of_pos (by simpa using hdot)]
    exact ⟨hup, hnone, ih hrest h hstep⟩

theorem checked_of_symlinkFree (io : PathIo) {fs : FileSystem} {base name : String}
    (hne : name ≠ "") (h : symlinkFree io fs base name = true) : Checked fs base name := by
  have hnil : name.toList ≠ [] := fun heq => hne (String.toList_eq_nil_iff.mp heq)
  unfold symlinkFree validateNoSymlinkComponents at h
  rw [if_neg hnil] at h
  cases hrel : isAbsolute name.toList with
  | true =>
    rw [if_pos hrel] at h
    cases h
  | false =>
    rw [if_neg (by simp [hrel])] at h
    refine ⟨hne, hrel, fun b hb => ?_⟩
    rw [named_eq_filter]
    cases hv : validateComponents io fs base.toList (components name.toList) with
    | error e =>
      rw [hv] at h
      cases h
    | ok _ => exact validateComponents_ok (fun c hc => mem_components hc) hv hb

theorem Checked.congr {fs fs' : FileSystem} {base name : String} (h : Checked fs base name)
    (hsame : fs.SameLinks fs') : Checked fs' base name := by
  refine ⟨h.nonempty, h.relative, fun b hb => ?_⟩
  rw [hsame.resolve] at hb
  exact (h.clear b hb).congr hsame.links

theorem toList_join (base : String) {name : String} (h : name ≠ "") :
    (TransferJob.join base name).toList = UnixPath.join base.toList name.toList := by
  have hbase : base = "" ↔ base.toList = [] := String.toList_eq_nil_iff.symm
  unfold TransferJob.join pathJoin UnixPath.join
  simp only [if_neg h, hbase, isAbsolute, beq_iff_eq]
  split_ifs <;> simp

theorem Checked.within {fs : FileSystem} {base name : String} (h : Checked fs base name) :
    fs.Within base.toList (TransferJob.join base name).toList := by
  rw [toList_join base h.nonempty]
  exact (named_join base.toList h.relative).within h.clear

theorem Checked.noLink {fs : FileSystem} {base name : String} (h : Checked fs base name) :
    fs.NoLink (TransferJob.join base name).toList := by
  rw [toList_join base h.nonempty]
  exact noLink_join h.relative h.clear

theorem Checked.within_append {fs : FileSystem} {base name s : String} (h : Checked fs base name)
    (hs : '/' ∉ s.toList) (hlen : 2 < s.toList.length)
    (hlink : fs.NoLink (TransferJob.join base name ++ s).toList) :
    fs.Within base.toList (TransferJob.join base name ++ s).toList := by
  rw [String.toList_append, toList_join base h.nonempty] at hlink ⊢
  obtain ⟨front, tail, last, hname, hgoes, hlast, hproper, hup⟩ :=
    goesOn_append base.toList h.relative hs hlen
  refine hgoes.within fun b hb => ?_
  have hclear := h.clear b hb
  rw [hname] at hclear
  have hfront := (clear_append.mp hclear).1
  exact clear_append.mpr ⟨hfront, hup, hlink _ (hgoes.entry hlast hproper hup hb hfront), trivial⟩

/-- Download and digest of a file are no links. -/
structure Companions (fs : FileSystem) (path : String) : Prop where
  download : fs.Regular (downloadPath path)
  digest : fs.NoLink (digestPath path)

theorem Checked.within_download {fs : FileSystem} {base name : String} (h : Checked fs base name)
    (hlink : fs.NoLink (downloadPath (TransferJob.join base name))) :
    fs.Within base.toList (downloadPath (TransferJob.join base name)) :=
  h.within_append (by decide) (by decide) hlink

theorem Checked.within_digest {fs : FileSystem} {base name : String} (h : Checked fs base name)
    (hlink : fs.NoLink (digestPath (TransferJob.join base name))) :
    fs.Within base.toList (digestPath (TransferJob.join base name)) :=
  h.within_append (by decide) (by decide) hlink

namespace Destination

variable {io : PathIo} {t : Destination} {base : String}

def All (ok : Act → Prop) (t : Destination) : Prop := ∀ act ∈ t.acts, ok act

theorem All.perform {ok : Act → Prop} (h : t.All ok) (io : PathIo) (op : PathOp)
    (hop : ok ⟨t.fs, op⟩) : (t.perform io op).2.All ok := by
  have hacts : (t.perform io op).2.acts = t.acts ++ [⟨t.fs, op⟩] := by
    unfold Destination.perform
    dsimp only
    split <;> rfl
  intro act hact
  rw [hacts] at hact
  rcases mem_append.mp hact with hold | hnew
  · exact h act hold
  · rw [mem_singleton.mp hnew]
    exact hop

theorem perform_fs (io : PathIo) (t : Destination) (op : PathOp) :
    (t.perform io op).2.fs = t.fs ∨ op.apply t.fs = some (t.perform io op).2.fs := by
  unfold perform
  dsimp only
  split
  · rename_i fs hfs
    split at hfs
    · exact .inr hfs
    · cases hfs
  · exact .inl rfl

structure Stays (fs₀ : FileSystem) (base : String) (t : Destination) : Prop where
  links : fs₀.SameLinks t.fs
  inside : t.All (Act.Inside base)

variable {fs₀ : FileSystem}

theorem Stays.perform (h : Stays fs₀ base t) {op : PathOp} (hop : Act.Inside base ⟨t.fs, op⟩)
    (hsame : ∀ fs', op.apply t.fs = some fs' → t.fs.SameLinks fs') :
    Stays fs₀ base (t.perform io op).2 := by
  refine ⟨?_, h.inside.perform io op hop⟩
  rcases perform_fs io t op with heq | happ
  · rw [heq]
    exact h.links
  · exact h.links.trans (hsame _ happ)

theorem Stays.removeFile (io : PathIo) (h : Stays fs₀ base t) {p : Text}
    (hwithin : t.fs.Within base.toList p) (hlink : t.fs.NoLink p) :
    Stays fs₀ base (t.perform io (.removeFile p)).2 :=
  h.perform (.inr fun _ hq => mem_singleton.mp hq ▸ hwithin) fun _ happ => (hlink.removeFile happ).1

theorem Stays.createFile (io : PathIo) (h : Stays fs₀ base t) {p : Text}
    (hwithin : t.fs.Within base.toList p) : Stays fs₀ base (t.perform io (.createFile p)).2 :=
  h.perform (.inr fun _ hq => mem_singleton.mp hq ▸ hwithin) fun _ happ => sameLinks_createFile happ

theorem checked_of_joinValidatedPath {fs : FileSystem} {name path : String} (hne : name ≠ "")
    (h : TransferJob.joinValidatedPath (symlinkFree io fs) base name = .ok path) :
    path = TransferJob.join base name ∧ Checked fs base name := by
  refine ⟨WriteRun.joinValidatedPath_ok h, checked_of_symlinkFree io hne ?_⟩
  unfold TransferJob.joinValidatedPath at h
  cases hv : validateFileNameNoTraversal name with
  | error e => simp [hv, bind, Except.bind] at h
  | ok _ =>
    by_contra hno
    simp [hv, bind, Except.bind, hno] at h

variable {files : List FileEntry}

theorem checked_of_resolveEntryPath {fs : FileSystem} {job : TransferJob}
    (hw : Writes base files job) {name path : String} (hne : name ≠ "")
    (h : job.resolveEntryPath (symlinkFree io fs) base name = some path) :
    path = TransferJob.join base name ∧ Checked fs base name := by
  simp only [TransferJob.resolveEntryPath, hw.type] at h
  cases hpath : TransferJob.joinValidatedPath (symlinkFree io fs) base name with
  | error e =>
    rw [hpath] at h
    cases h
  | ok path' =>
    rw [hpath] at h
    cases h
    exact checked_of_joinValidatedPath hne hpath

theorem checked_of_currentPath {fs : FileSystem} {job : TransferJob}
    (hw : Writes base files job) (hnames : ∀ entry ∈ files, entry.name ≠ "") {path : String}
    {entry : FileEntry} (h : job.currentPath (symlinkFree io fs) = some (path, entry)) :
    entry ∈ files ∧ path = TransferJob.join base entry.name ∧ Checked fs base entry.name := by
  simp only [TransferJob.currentPath, hw.type, hw.source, hw.files, Option.bind_eq_bind,
    Option.bind_eq_some_iff] at h
  obtain ⟨entry', hentry, path', hpath, heq⟩ := h
  cases heq
  have hmem := mem_of_getElem? hentry
  exact ⟨hmem, checked_of_resolveEntryPath hw (hnames _ hmem) hpath⟩

theorem Stays.modifyTime (io : PathIo) {fs : FileSystem} {job : TransferJob}
    (hw : Writes base files job) (hnames : ∀ entry ∈ files, entry.name ≠ "")
    (hcomp : ∀ entry ∈ files, Companions fs (TransferJob.join base entry.name)) :
    Stays fs base (Destination.modifyTime io ⟨fs, []⟩ job) := by
  have hstart : Stays fs base ⟨fs, []⟩ := ⟨.refl, fun _ hact => by cases hact⟩
  unfold Destination.modifyTime
  split
  · exact hstart
  · rename_i path entry hpath
    obtain ⟨hmem, rfl, hchecked⟩ := checked_of_currentPath hw hnames hpath
    obtain ⟨hdownload, hdigest⟩ := hcomp entry hmem
    have hremoved := hstart.removeFile io (hchecked.within_digest hdigest) hdigest
    have hchecked' := hchecked.congr hremoved.links
    have hdownload' : ((⟨fs, []⟩ : Destination).perform io
        (.removeFile (digestPath (TransferJob.join base entry.name)))).2.fs.Regular
          (downloadPath (TransferJob.join base entry.name)) := by
      rcases perform_fs io ⟨fs, []⟩ (.removeFile (digestPath (TransferJob.join base entry.name)))
        with heq | happ
      · rw [heq]
        exact hdownload
      · exact (hdigest.removeFile happ).2 _ hdownload
    refine hremoved.perform (.inr fun q hq => ?_)
      fun _ happ => hdownload'.rename hchecked'.noLink happ
    rcases mem_cons.mp hq with rfl | hq
    · exact hchecked'.within_download hdownload'.noLink
    · rw [mem_singleton.mp hq]
      exact hchecked'.within

theorem Stays.removeDownloadFile {fs : FileSystem} {job : TransferJob}
    (hw : Writes base files job) (hnames : ∀ entry ∈ files, entry.name ≠ "")
    (hcomp : ∀ entry ∈ files, Companions fs (TransferJob.join base entry.name)) :
    Stays fs base (Destination.removeDownloadFile io ⟨fs, []⟩ job) := by
  have hstart : Stays fs base ⟨fs, []⟩ := ⟨.refl, fun _ hact => by cases hact⟩
  unfold Destination.removeDownloadFile
  split
  · exact hstart
  · rename_i path entry hpath
    obtain ⟨hmem, rfl, hchecked⟩ := checked_of_currentPath hw hnames hpath
    obtain ⟨hdownload, hdigest⟩ := hcomp entry hmem
    have hremoved := hstart.removeFile io (hchecked.within_download hdownload.noLink)
      hdownload.noLink
    have hdigest' := hremoved.links.noLink hdigest
    exact hremoved.removeFile io ((hchecked.congr hremoved.links).within_digest hdigest') hdigest'

theorem Stays.createDirs (h : Stays fs₀ base t) {qs : List Text}
    (hqs : ∀ q ∈ qs, OnTheWay base.toList q ∨ ∃ cs, GoesOn base.toList cs q ∧
      ∀ b, fs₀.resolve base.toList = some b → fs₀.Clear b cs) :
    Stays fs₀ base (Destination.createDirs io t qs) := by
  induction qs generalizing t with
  | nil => exact h
  | cons q qs ih =>
    have hrest := fun q' hq' => hqs q' (mem_cons_of_mem q hq')
    have hmade : Stays fs₀ base (t.perform io (.createDir q)).2 := by
      refine h.perform ?_ fun _ happ => sameLinks_createDir happ
      rcases hqs q mem_cons_self with hway | ⟨cs, hgoes, hclear⟩
      · exact .inl ⟨q, rfl, hway⟩
      · refine .inr fun q' hq' => ?_
        rw [mem_singleton.mp hq']
        refine hgoes.within fun b hb => ?_
        rw [h.links.resolve] at hb
        exact (hclear b hb).congr h.links.links
    rw [Destination.createDirs]
    split
    · exact ih h hrest
    · dsimp only
      split
      · exact ih hmade hrest
      · exact hmade

theorem mem_ways {p q : Text}
    (hq : q ∈ (components (parent p)).inits.tail.map (render (isAbsolute (parent p)))) :
    ∃ cs, cs <+: components p ∧ q = render (isAbsolute p) cs := by
  obtain ⟨hcomp, habs⟩ := components_parent p
  obtain ⟨cs, hcs, rfl⟩ := mem_map.mp hq
  have hinit := (mem_inits _ _).mp (mem_of_mem_tail hcs)
  rw [hcomp] at hinit
  exact ⟨cs, hinit.trans ( dropLast_prefix _), by rw [habs]⟩

theorem Stays.beginFile (h : Stays fs₀ base t) {name : String} (hchecked : Checked fs₀ base name)
    (hdownload : fs₀.NoLink (downloadPath (TransferJob.join base name)))
    (hdigest : fs₀.NoLink (digestPath (TransferJob.join base name))) :
    Stays fs₀ base (Destination.beginFile io t (TransferJob.join base name)) := by
  -- a path that was inside when the call began is so at every moment of it
  have hin : ∀ {t' : Destination}, Stays fs₀ base t' →
      t'.fs.Within base.toList (downloadPath (TransferJob.join base name)) ∧
      t'.fs.Within base.toList (digestPath (TransferJob.join base name)) := by
    intro t' h'
    have hchecked' := hchecked.congr h'.links
    exact ⟨hchecked'.within_download (h'.links.noLink hdownload),
      hchecked'.within_digest (h'.links.noLink hdigest)⟩
  unfold Destination.beginFile
  have hcleared : Stays fs₀ base (if t.pathExists io (digestPath (TransferJob.join base name)) then
      t.perform io (.removeFile (digestPath (TransferJob.join base name))) else (true, t)).2 := by
    split
    · exact h.removeFile io (hin h).2 (h.links.noLink hdigest)
    · exact h
  dsimp only
  generalize (if t.pathExists io (digestPath (TransferJob.join base name)) then
      t.perform io (.removeFile (digestPath (TransferJob.join base name))) else (true, t)) = cleared
    at hcleared ⊢
  split
  · have hcreated := hcleared.createFile io (hin hcleared).1
    split
    · exact hcreated.createFile io (hin hcreated).2
    · exact hcreated
  · exact hcleared

theorem Stays.openTarget (h : Stays fs₀ base t)
    {job : TransferJob} (hw : Writes base files job) {entry : FileEntry} (hne : entry.name ≠ "")
    (hdownload : fs₀.NoLink (downloadPath (TransferJob.join base entry.name)))
    (hdigest : fs₀.NoLink (digestPath (TransferJob.join base entry.name))) :
    Stays fs₀ base (Destination.openTarget io t job base entry) := by
  unfold Destination.openTarget
  simp only [hw.type]
  split
  · exact h
  · rename_i path hpath
    obtain ⟨rfl, hchecked⟩ := checked_of_joinValidatedPath hne hpath
    have hdirs : Stays fs₀ base (t.createDirAll io
        (parent (TransferJob.join base entry.name).toList)) := by
      refine h.createDirs fun q hq => ?_
      obtain ⟨cs, hcs, rfl⟩ := mem_ways hq
      have habs := (named_join base.toList hchecked.relative).absolute
      rw [toList_join base hne] at hcs ⊢
      rw [habs]
      rcases onTheWay_or_goesOn base.toList hchecked.relative hcs with hway | ⟨ds, hds, hgoes⟩
      · left
        obtain ⟨hcomp, hsame⟩ := components_render ((formed_components base.toList).front hway)
        exact ⟨hsame, by rwa [hcomp]⟩
      · refine .inr ⟨ds, hgoes, fun b hb => ?_⟩
        have hclear := hchecked.clear b (by rw [h.links.resolve]; exact hb)
        obtain ⟨rest, hrest⟩ := hds
        rw [← hrest] at hclear
        exact (clear_append.mp hclear).1.congr fun l => (h.links.links l).symm
    exact hdirs.beginFile (hchecked.congr h.links.symm) hdownload hdigest

theorem Stays.write {fs : FileSystem} {job : TransferJob}
    (hw : Writes base files job) (hnames : ∀ entry ∈ files, entry.name ≠ "")
    (hcomp : ∀ entry ∈ files, Companions fs (TransferJob.join base entry.name))
    (block : FileTransferBlock) : Stays fs base (Destination.write io ⟨fs, []⟩ job block) := by
  have hstart : Stays fs base ⟨fs, []⟩ := ⟨.refl, fun _ hact => by cases hact⟩
  unfold Destination.write
  simp only [hw.source, hw.files]
  split
  · exact hstart
  split
  · exact hstart
  rename_i entry hentry
  split
  · have hfinished := Stays.modifyTime io hw hnames hcomp
    split
    · exact hfinished
    · have hmem := mem_of_getElem? hentry
      exact hfinished.openTarget hw (hnames entry hmem) (hcomp entry hmem).download.noLink
        (hcomp entry hmem).digest
  · exact hstart

theorem Stays.setStreamOffset {fs : FileSystem} {job : TransferJob}
    (hw : Writes base files job) (hnames : ∀ entry ∈ files, entry.name ≠ "")
    (hcomp : ∀ entry ∈ files, Companions fs (TransferJob.join base entry.name))
    (fileNum : Nat) : Stays fs base (Destination.setStreamOffset io ⟨fs, []⟩ job fileNum) := by
  have hstart : Stays fs base ⟨fs, []⟩ := ⟨.refl, fun _ hact => by cases hact⟩
  unfold Destination.setStreamOffset
  simp only [hw.source, hw.files]
  split
  · exact hstart
  rename_i entry hentry
  split
  · exact hstart
  rename_i path hpath
  have hmem := mem_of_getElem? hentry
  obtain ⟨rfl, hchecked⟩ := checked_of_resolveEntryPath hw (hnames entry hmem) hpath
  split
  · have hwithin := hchecked.within_download (hcomp entry hmem).download.noLink
    exact hstart.perform (.inr fun _ hq => mem_singleton.mp hq ▸ hwithin)
      fun _ happ => sameLinks_createFile happ
  · exact hstart

theorem ofBase_createDirs (h : t.All (Act.OfBase base)) {qs : List Text}
    (hqs : ∀ q ∈ qs, OnTheWay base.toList q) :
    (Destination.createDirs io t qs).All (Act.OfBase base) := by
  induction qs generalizing t with
  | nil => exact h
  | cons q qs ih =>
    have hrest := fun q' hq' => hqs q' (mem_cons_of_mem q hq')
    have hmade := h.perform io (.createDir q) (.inl ⟨q, rfl, hqs q mem_cons_self⟩)
    rw [Destination.createDirs]
    split
    · exact ih h hrest
    · dsimp only
      split
      · exact ih hmade hrest
      · exact hmade

theorem ofBase_perform (io : PathIo) (op : PathOp) (h : t.All (Act.OfBase base))
    (hop : ∀ q ∈ op.paths, q ∈ [base.toList, downloadPath base, digestPath base]) :
    (t.perform io op).2.All (Act.OfBase base) :=
  h.perform io op (.inr hop)

theorem ofBase_beginFile (h : t.All (Act.OfBase base)) :
    (Destination.beginFile io t base).All (Act.OfBase base) := by
  have hcleared : (if t.pathExists io (digestPath base) then
      t.perform io (.removeFile (digestPath base)) else (true, t)).2.All (Act.OfBase base) := by
    split
    · exact ofBase_perform io _ h (by simp [PathOp.paths])
    · exact h
  unfold Destination.beginFile
  dsimp only
  generalize (if t.pathExists io (digestPath base) then
      t.perform io (.removeFile (digestPath base)) else (true, t)) = cleared at hcleared ⊢
  split
  · have hcreated := ofBase_perform io (.createFile (downloadPath base)) hcleared
      (by simp [PathOp.paths])
    split
    · exact ofBase_perform io _ hcreated (by simp [PathOp.paths])
    · exact hcreated
  · exact hcleared

variable {fs : FileSystem} {entry : FileEntry} {job : TransferJob}

theorem ofBase_openTarget (h : t.All (Act.OfBase base)) (hw : Writes base [entry] job)
    (hname : entry.name = "") :
    (Destination.openTarget io t job base entry).All (Act.OfBase base) := by
  unfold Destination.openTarget
  simp only [hw.type]
  split
  · exact h
  · rename_i path hpath
    obtain rfl : path = base := by
      rw [WriteRun.joinValidatedPath_ok hpath, hname]
      rfl
    refine ofBase_beginFile (ofBase_createDirs h fun q hq => ?_)
    obtain ⟨cs, hcs, rfl⟩ := mem_ways hq
    obtain ⟨hcomp, hsame⟩ := components_render ((formed_components path.toList).front hcs)
    exact ⟨hsame, by rwa [hcomp]⟩

theorem currentPath_single (hw : Writes base [entry] job) (hname : entry.name = "")
    {path : String} {e : FileEntry}
    (h : job.currentPath (symlinkFree io fs) = some (path, e)) : path = base := by
  obtain ⟨hentry, rfl⟩ := WriteRun.currentPath_eq_some hw h
  have hmem := mem_of_getElem? hentry
  rw [mem_singleton.mp hmem, hname]
  rfl

theorem ofBase_modifyTime (io : PathIo) (hw : Writes base [entry] job) (hname : entry.name = "") :
    (Destination.modifyTime io ⟨fs, []⟩ job).All (Act.OfBase base) := by
  unfold Destination.modifyTime
  split
  · exact fun _ hact => by cases hact
  · rename_i path e hpath
    obtain rfl := currentPath_single hw hname hpath
    exact ofBase_perform io _ (ofBase_perform io _ (fun _ hact => by cases hact)
      (by simp [PathOp.paths]))
      (by simp [PathOp.paths])

theorem ofBase_run (hw : Writes base [entry] job) (hname : entry.name = "") (call : Call) :
    ∀ act ∈ run io fs job call, act.OfBase base := by
  have hstart : (⟨fs, []⟩ : Destination).All (Act.OfBase base) := fun _ hact => by cases hact
  cases call with
  | modifyTime => exact ofBase_modifyTime io hw hname
  | removeDownloadFile =>
    change (Destination.removeDownloadFile io ⟨fs, []⟩ job).All (Act.OfBase base)
    unfold Destination.removeDownloadFile
    split
    · exact hstart
    · rename_i path e hpath
      obtain rfl := currentPath_single hw hname hpath
      exact ofBase_perform io _ (ofBase_perform io _ hstart (by simp [PathOp.paths]))
        (by simp [PathOp.paths])
  | write block =>
    change (Destination.write io ⟨fs, []⟩ job block).All (Act.OfBase base)
    unfold Destination.write
    simp only [hw.source, hw.files]
    split
    · exact hstart
    split
    · exact hstart
    rename_i e he
    obtain rfl : e = entry := mem_singleton.mp (mem_of_getElem? he)
    split
    · have hfinished : (Destination.modifyTime io ⟨fs, []⟩ job).All (Act.OfBase base) :=
        ofBase_modifyTime io hw hname
      split
      · exact hfinished
      · exact ofBase_openTarget hfinished hw hname
    · exact hstart
  | setStreamOffset fileNum =>
    change (Destination.setStreamOffset io ⟨fs, []⟩ job fileNum).All (Act.OfBase base)
    unfold Destination.setStreamOffset
    simp only [hw.source, hw.files]
    split
    · exact hstart
    rename_i e he
    obtain rfl : e = entry := mem_singleton.mp (mem_of_getElem? he)
    split
    · exact hstart
    rename_i path hpath
    obtain rfl : path = base := by
      simp only [TransferJob.resolveEntryPath, hw.type] at hpath
      cases hjoin : TransferJob.joinValidatedPath (symlinkFree io fs) base e.name with
      | error _ =>
        rw [hjoin] at hpath
        cases hpath
      | ok path' =>
        rw [hjoin] at hpath
        cases hpath
        rw [WriteRun.joinValidatedPath_ok hjoin, hname]
        rfl
    split
    · exact ofBase_perform io _ hstart (by simp [PathOp.paths])
    · exact hstart

end Destination

theorem names_of_accepted {files : List FileEntry}
    (h : validateTransferFileNames files = .ok ()) (hsingle : ¬SingleFile files) :
    ∀ entry ∈ files, entry.name ≠ "" :=
  fun entry hmem => ((WriteRun.entries_of_validate h).resolve_left hsingle entry hmem).1

/-- **Writes stay inside.**  Take any file system, any accepted list of files, any generic
job that writes them, and any call.  If no `.download` is a link or a directory and no
`.digest` is a link, then every act makes a directory on the way to the base, or all its
paths resolve under the resolved base.  For a single file that is named by the base, every
act makes a directory on the way to the base, or is about the base, its download and its
note. -/
theorem writes_stay_inside (io : PathIo) (fs : FileSystem) (sf : String → String → Bool)
    (base : String) (files : List FileEntry) (fresh accepted job : TransferJob)
    (hset : fresh.setFiles sf files = .ok accepted) (hw : Writes base files job)
    (hcomp : ∀ entry ∈ files, Companions fs (TransferJob.join base entry.name)) (call : Call) :
    (¬SingleFile files → ∀ act ∈ run io fs job call, act.Inside base) ∧
      (SingleFile files → ∀ act ∈ run io fs job call, act.OfBase base) := by
  constructor
  · intro hsingle
    have hnames := names_of_accepted (WriteRun.setFiles_ok hset).1 hsingle
    cases call with
    | write block => exact (Stays.write hw hnames hcomp block).inside
    | modifyTime => exact (Stays.modifyTime io hw hnames hcomp).inside
    | removeDownloadFile => exact (Stays.removeDownloadFile hw hnames hcomp).inside
    | setStreamOffset fileNum => exact (Stays.setStreamOffset hw hnames hcomp fileNum).inside
  · rintro ⟨entry, rfl, hname⟩
    exact ofBase_run hw hname call

namespace Destination

def folderJob (base : String) (names : List String) : TransferJob :=
  { TransferJob.newWrite 1 .generic (.filePath base) 0 false with
    files := names.map (FileEntry.mk · 0 0) }

def folderBlock (fileNum : Int) : FileTransferBlock :=
  { id := 1, fileNum := fileNum, data := [], compressed := false }

def folderOf (entries : List (List String × UnixPath.Node)) : FileSystem :=
  ⟨[], fun l => (entries.find? fun e => e.1.map String.toList == l).map (·.2)⟩

def regularFolder : FileSystem := folderOf [(["d"], .dir), (["d", "a.download"], .file)]

theorem regular_download_stays :
    (¬SingleFile [⟨"a", 0, 0⟩] → ∀ act ∈ run .willing regularFolder (folderJob "/d" ["a"])
      (.write (folderBlock 0)), act.Inside "/d") ∧
    (SingleFile [⟨"a", 0, 0⟩] → ∀ act ∈ run .willing regularFolder (folderJob "/d" ["a"])
      (.write (folderBlock 0)), act.OfBase "/d") := by
  refine writes_stay_inside .willing regularFolder (fun _ _ => true) "/d" [⟨"a", 0, 0⟩]
    (TransferJob.newWrite 1 .generic (.filePath "/d") 0 false) (folderJob "/d" ["a"])
    (folderJob "/d" ["a"]) (by decide) ⟨rfl, rfl, rfl⟩ ?_ _
  intro entry hmem
  rw [mem_singleton.mp hmem]
  have hdownload : regularFolder.entry (downloadPath (TransferJob.join "/d" "a")) =
      some [['d'], "a.download".toList] := by decide +kernel
  have hdigest : regularFolder.entry (digestPath (TransferJob.join "/d" "a")) =
      some [['d'], "a.digest".toList] := by decide +kernel
  constructor
  · intro l hl
    rw [← Option.some.inj (hdownload.symm.trans hl)]
    exact .inr (by decide +kernel)
  · intro l hl
    rw [← Option.some.inj (hdigest.symm.trans hl)]
    decide +kernel

/-- **Four ways out.**  A download that is a link is followed.  A download that is a directory
is moved to its final name with the links in it, of which one is then the download of another
file.  A base that is missing is made, and what is missing above it.  And a single file
without a name has its download beside the base. -/
theorem acts_outside :
    let leaves := fun (fs : FileSystem) (base : String) (names : List String) (fileNum : Int) =>
      (TransferJob.newWrite 1 .generic (.filePath base) 0 false).setFiles (symlinkFree .willing fs)
          (names.map (FileEntry.mk · 0 0)) = .ok (folderJob base names) ∧
        ∃ act ∈ run .willing fs (folderJob base names) (.write (folderBlock fileNum)),
          ∃ q ∈ act.op.paths, ¬act.fs.Within base.toList q
    leaves (folderOf [(["d"], .dir), (["d", "b.download"], .link "/etc/x".toList)])
        "/d" ["a", "b"] 1 ∧
      leaves (folderOf [(["d"], .dir), (["d", "a.download"], .dir),
        (["d", "a.download", "b.download"], .link "/etc/x".toList)]) "/d" ["a", "a/b"] 1 ∧
      leaves (folderOf []) "/u/d" ["a"] 0 ∧ leaves (folderOf []) "/d" [""] 0 := by
  intro leaves
  exact ⟨by decide +kernel, by decide +kernel, by decide +kernel, by decide +kernel⟩

end Destination

end RustDesk
