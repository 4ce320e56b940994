import Mathlib.Algebra.Group.Int.Defs
import Mathlib.Algebra.Group.Nat.Defs
import RustDesk.Lib.Run
import RustDesk.Lib.UnixPath

/-!
# The log of removed files

A connection reports what its peer removes at once, and keeps it to report it once more
when a second has gone by without another removal: then a directory is to stand for what
was removed directly in it.  `FileRemoveLogControl` keeps the files and the directories in
two lists, and prunes both when a directory is removed.

How a platform takes a path apart is a parameter: a root and the names behind it.  The
parent of a path has one name less.
-/

open Run UnixPath

namespace RustDesk.FileRemoveLog

open List

variable {ρ : Type}

structure Place (ρ : Type) where
  root : ρ
  names : List Text
  deriving DecidableEq

namespace Place

def parent (p : Place ρ) : Option (Place ρ) :=
  if p.names = [] then none else some { p with names := p.names.dropLast }

def Covers (a p : Place ρ) : Prop := a.root = p.root ∧ a.names <+: p.names

def Ancestor (a p : Place ρ) : Prop := a.Covers p ∧ a ≠ p

variable {a b c d p : Place ρ}

theorem Covers.refl (p : Place ρ) : p.Covers p := ⟨rfl, prefix_refl _⟩

theorem Covers.trans (h : a.Covers b) (h' : b.Covers c) : a.Covers c :=
  ⟨h.1.trans h'.1, h.2.trans h'.2⟩

theorem Covers.length_le (h : a.Covers b) : a.names.length ≤ b.names.length := h.2.length_le

theorem covers_iff : a.Covers p ↔ a = p ∨ a.Ancestor p := by
  constructor
  · intro h
    by_cases heq : a = p
    · exact .inl heq
    · exact .inr ⟨h, heq⟩
  · rintro (rfl | h)
    · exact Covers.refl a
    · exact h.1

theorem parent_eq_some_iff : p.parent = some d ↔
    p.names ≠ [] ∧ d = { p with names := p.names.dropLast } := by
  rw [parent]
  split_ifs with hnil
  · simp [hnil]
  · simp [hnil, eq_comm]

theorem covers_of_parent (h : p.parent = some d) : d.Covers p := by
  obtain ⟨-, rfl⟩ := parent_eq_some_iff.mp h
  exact ⟨rfl, dropLast_prefix _⟩

theorem length_of_parent (h : p.parent = some d) : d.names.length + 1 = p.names.length := by
  obtain ⟨hne, rfl⟩ := parent_eq_some_iff.mp h
  have := length_pos_iff.mpr hne
  rw [length_dropLast]
  omega

end Place

def unixPlace (p : Text) : Place Bool := ⟨isAbsolute p, components p⟩

structure FileRemoveFile where
  id : Int
  path : Text
  fileNum : Int
  deriving DecidableEq

structure FileRemoveDir where
  id : Int
  path : Text
  recursive : Bool
  deriving DecidableEq

structure FileActionLog where
  id : Int
  connId : Int
  path : Text
  dir : Bool

/-- `ipc::Data::FileTransferLog`, with the log that is written as JSON. -/
structure FileTransferLog where
  action : String
  log : FileActionLog

structure FileRemoveLogControl where
  connId : Int
  instant : Nat
  removedFiles : List FileRemoveFile
  removedDirs : List FileRemoveDir

namespace FileRemoveLogControl

def new (connId : Int) (now : Nat) : FileRemoveLogControl := ⟨connId, now, [], []⟩

def fileLog (c : FileRemoveLogControl) (f : FileRemoveFile) : FileTransferLog :=
  ⟨"remove", { id := f.id, connId := c.connId, path := f.path, dir := false }⟩

def dirLog (c : FileRemoveLogControl) (d : FileRemoveDir) : FileTransferLog :=
  ⟨"remove", { id := d.id, connId := c.connId, path := d.path, dir := true }⟩

def onRemoveFile (c : FileRemoveLogControl) (f : FileRemoveFile) (now : Nat) :
    FileRemoveLogControl × Option FileTransferLog :=
  ({ c with instant := now, removedFiles := c.removedFiles ++ [f] }, some (c.fileLog f))

section Dir

variable [DecidableEq ρ] (place : Text → Place ρ)

def directChild (parent child : Text) : Bool := (place child).parent == some (place parent)

def onRemoveDir (c : FileRemoveLogControl) (d : FileRemoveDir) (now : Nat) :
    FileRemoveLogControl × Option FileTransferLog :=
  let removedFiles := c.removedFiles.filter fun f => !directChild place f.path d.path
  let removedDirs := c.removedDirs.filter fun x => !directChild place d.path x.path
  let removedDirs := if !removedDirs.any fun x => directChild place x.path d.path
    then removedDirs ++ [d] else removedDirs
  ({ c with instant := now, removedFiles, removedDirs }, some (c.dirLog d))

end Dir

def onTimer (c : FileRemoveLogControl) (now : Nat) : FileRemoveLogControl × List FileTransferLog :=
  if (now - c.instant) / 10 ^ 9 < 1 then (c, [])
  else ({ c with removedFiles := [], removedDirs := [] },
    c.removedFiles.map c.fileLog ++ c.removedDirs.map c.dirLog)

def kept (c : FileRemoveLogControl) : List Text :=
  c.removedFiles.map (·.path) ++ c.removedDirs.map (·.path)

end FileRemoveLogControl

open FileRemoveLogControl

inductive Input where
  | removeFile (f : FileRemoveFile) (now : Nat)
  | removeDir (d : FileRemoveDir) (now : Nat)
  | timer (now : Nat)

structure Burst where
  control : FileRemoveLogControl
  removed : List Text

variable [DecidableEq ρ] (place : Text → Place ρ)

def step (b : Burst) : Input → Burst
  | .removeFile f now => ⟨(b.control.onRemoveFile f now).1, b.removed ++ [f.path]⟩
  | .removeDir d now => ⟨(b.control.onRemoveDir place d now).1, b.removed ++ [d.path]⟩
  | .timer now => ⟨(b.control.onTimer now).1,
      if (now - b.control.instant) / 10 ^ 9 < 1 then b.removed else []⟩

def start (connId : Int) (now : Nat) : Burst := ⟨.new connId now, []⟩

/-- What a drain is to report: nothing whose parent directory is reported, and for every
removed path that is not reported one above it that is. -/
structure Collapsed (entries : List FileTransferLog) (removed : List Text) : Prop where
  roots : ∀ e ∈ entries, ∀ d ∈ entries, d.log.dir = true →
    (place e.log.path).parent ≠ some (place d.log.path)
  covered : ∀ p ∈ removed, (∃ e ∈ entries, place e.log.path = place p) ∨
    ∃ e ∈ entries, (place e.log.path).Ancestor (place p)

/-- Whenever the timer fires, the log names roots that cover just what was removed. -/
def Collapses (b : Burst) : Prop :=
  ∀ now, 1 ≤ (now - b.control.instant) / 10 ^ 9 →
    Collapsed place (b.control.onTimer now).2 b.removed

/-- The removals that keep it so.  The directory of a file is not kept; and if the parent of
a directory is not kept as one, then no file in the directory is, and a path above it is if
its parent is kept as a file. -/
def KeepsRoots (b : Burst) : Input → Prop
  | .removeFile f _ => ∀ d ∈ b.control.removedDirs, ¬directChild place d.path f.path
  | .removeDir d _ => (∃ x ∈ b.control.removedDirs, directChild place x.path d.path) ∨
      (∀ f ∈ b.control.removedFiles, ¬directChild place d.path f.path) ∧
        ∀ f ∈ b.control.removedFiles, directChild place f.path d.path →
          ∃ p ∈ b.control.kept, (place p).Ancestor (place f.path)
  | .timer _ => True

variable {place} {b : Burst}

theorem directChild_iff {parent child : Text} :
    directChild place parent child = true ↔ (place child).parent = some (place parent) :=
  beq_iff_eq

theorem not_directChild_swap {p q : Text} (h : directChild place p q = true) :
    ¬directChild place q p := by
  intro h'
  have hp := Place.length_of_parent (directChild_iff.mp h)
  have hq := Place.length_of_parent (directChild_iff.mp h')
  omega

theorem not_directChild_self (p : Text) : ¬directChild place p p :=
  fun h => not_directChild_swap h h

theorem covers_of_directChild {p q : Text} (h : directChild place p q = true) :
    (place p).Covers (place q) :=
  Place.covers_of_parent (directChild_iff.mp h)

theorem mem_kept {c : FileRemoveLogControl} {p : Text} : p ∈ c.kept ↔
    (∃ f ∈ c.removedFiles, f.path = p) ∨ ∃ d ∈ c.removedDirs, d.path = p := by
  rw [kept, mem_append, mem_map, mem_map]

variable (place) in
/-- No directory is kept with what was removed directly in it, and for every removed path
one is kept that covers it. -/
structure Rooted (b : Burst) : Prop where
  files : ∀ f ∈ b.control.removedFiles, ∀ d ∈ b.control.removedDirs,
    ¬directChild place d.path f.path
  dirs : ∀ x ∈ b.control.removedDirs, ∀ d ∈ b.control.removedDirs, ¬directChild place d.path x.path
  covered : ∀ p ∈ b.removed, ∃ q ∈ b.control.kept, (place q).Covers (place p)

theorem collapses_iff : Collapses place b ↔ Rooted place b := by
  have hdrain (now : Nat) (hnow : 1 ≤ (now - b.control.instant) / 10 ^ 9) :
      (b.control.onTimer now).2 = b.control.removedFiles.map b.control.fileLog ++
        b.control.removedDirs.map b.control.dirLog := by
    rw [onTimer, if_neg (by omega)]
  have hentry {e : FileTransferLog} : e ∈ b.control.removedFiles.map b.control.fileLog ++
      b.control.removedDirs.map b.control.dirLog ↔
        (∃ f ∈ b.control.removedFiles, b.control.fileLog f = e) ∨
          ∃ d ∈ b.control.removedDirs, b.control.dirLog d = e := by
    rw [mem_append, mem_map, mem_map]
  constructor
  · intro h
    have hnow : 1 ≤ (b.control.instant + 10 ^ 9 - b.control.instant) / 10 ^ 9 := by omega
    obtain ⟨hroots, hcovered⟩ := h _ hnow
    rw [hdrain _ hnow] at hroots hcovered
    refine ⟨fun f hf d hd hchild => ?_, fun x hx d hd hchild => ?_, fun p hp => ?_⟩
    · exact hroots _ (hentry.mpr (.inl ⟨f, hf, rfl⟩)) _ (hentry.mpr (.inr ⟨d, hd, rfl⟩)) rfl
        (directChild_iff.mp hchild)
    · exact hroots _ (hentry.mpr (.inr ⟨x, hx, rfl⟩)) _ (hentry.mpr (.inr ⟨d, hd, rfl⟩)) rfl
        (directChild_iff.mp hchild)
    · have hmem : ∃ e ∈ b.control.removedFiles.map b.control.fileLog ++
          b.control.removedDirs.map b.control.dirLog,
          (place e.log.path).Covers (place p) := by
        rcases hcovered p hp with ⟨e, he, heq⟩ | ⟨e, he, habove⟩
        · exact ⟨e, he, Place.covers_iff.mpr (.inl heq)⟩
        · exact ⟨e, he, habove.1⟩
      obtain ⟨e, he, hcovers⟩ := hmem
      rcases hentry.mp he with ⟨f, hf, rfl⟩ | ⟨d, hd, rfl⟩
      · exact ⟨f.path, mem_kept.mpr (.inl ⟨f, hf, rfl⟩), hcovers⟩
      · exact ⟨d.path, mem_kept.mpr (.inr ⟨d, hd, rfl⟩), hcovers⟩
  · intro h now hnow
    rw [hdrain now hnow]
    refine ⟨fun e he d hd hdir hparent => ?_, fun p hp => ?_⟩
    · rcases hentry.mp hd with ⟨f, -, rfl⟩ | ⟨y, hy, rfl⟩
      · cases hdir
      · rcases hentry.mp he with ⟨f, hf, rfl⟩ | ⟨x, hx, rfl⟩
        · exact h.files f hf y hy (directChild_iff.mpr hparent)
        · exact h.dirs x hx y hy (directChild_iff.mpr hparent)
    · obtain ⟨q, hq, hcovers⟩ := h.covered p hp
      have hmem : ∃ e ∈ b.control.removedFiles.map b.control.fileLog ++
          b.control.removedDirs.map b.control.dirLog, e.log.path = q := by
        rcases mem_kept.mp hq with ⟨f, hf, rfl⟩ | ⟨d, hd, rfl⟩
        · exact ⟨_, hentry.mpr (.inl ⟨f, hf, rfl⟩), rfl⟩
        · exact ⟨_, hentry.mpr (.inr ⟨d, hd, rfl⟩), rfl⟩
      obtain ⟨e, he, rfl⟩ := hmem
      rcases Place.covers_iff.mp hcovers with heq | habove
      · exact .inl ⟨e, he, heq⟩
      · exact .inr ⟨e, he, habove⟩

theorem rooted_removeFile (h : Rooted place b) (f : FileRemoveFile) (now : Nat) :
    Rooted place (step place b (.removeFile f now)) ↔ KeepsRoots place b (.removeFile f now) := by
  have hfiles : (step place b (.removeFile f now)).control.removedFiles =
      b.control.removedFiles ++ [f] := rfl
  constructor
  · intro h' d hd
    exact h'.files f (by rw [hfiles]; exact mem_concat_self) d hd
  · intro hkeeps
    refine ⟨fun g hg d hd => ?_, h.dirs, fun p hp => ?_⟩
    · rw [hfiles] at hg
      rcases mem_append.mp hg with hold | hnew
      · exact h.files g hold d hd
      · rw [mem_singleton.mp hnew]
        exact hkeeps d hd
    · have hkept {q : Text} (hq : q ∈ b.control.kept) :
          q ∈ (step place b (.removeFile f now)).control.kept := by
        rcases mem_kept.mp hq with ⟨g, hg, rfl⟩ | ⟨d, hd, rfl⟩
        · exact mem_kept.mpr (.inl ⟨g, mem_append_left _ hg, rfl⟩)
        · exact mem_kept.mpr (.inr ⟨d, hd, rfl⟩)
      rcases mem_append.mp hp with hold | hnew
      · obtain ⟨q, hq, hcovers⟩ := h.covered p hold
        exact ⟨q, hkept hq, hcovers⟩
      · rw [mem_singleton.mp hnew]
        exact ⟨f.path, mem_kept.mpr (.inl ⟨f, mem_concat_self, rfl⟩), .refl _⟩

section RemoveDir

variable {d : FileRemoveDir} {now : Nat}

theorem mem_removedFiles_step {f : FileRemoveFile} :
    f ∈ (step place b (.removeDir d now)).control.removedFiles ↔
      f ∈ b.control.removedFiles ∧ ¬directChild place f.path d.path := by
  change f ∈ b.control.removedFiles.filter _ ↔ _
  rw [mem_filter, Bool.not_eq_true', Bool.not_eq_true]

theorem mem_removedDirs_step {x : FileRemoveDir} :
    x ∈ (step place b (.removeDir d now)).control.removedDirs ↔
      (x ∈ b.control.removedDirs ∧ ¬directChild place d.path x.path) ∨
        (x = d ∧ ∀ y ∈ b.control.removedDirs, ¬directChild place y.path d.path) := by
  have hany : (b.control.removedDirs.filter fun x => !directChild place d.path x.path).any
      (fun x => directChild place x.path d.path) = true ↔
        ∃ y ∈ b.control.removedDirs, directChild place y.path d.path = true := by
    rw [any_eq_true]
    constructor
    · rintro ⟨y, hy, hchild⟩
      exact ⟨y, mem_of_mem_filter hy, hchild⟩
    · rintro ⟨y, hy, hchild⟩
      refine ⟨y, mem_filter.mpr ⟨hy, ?_⟩, hchild⟩
      rw [Bool.not_eq_true', ← Bool.not_eq_true]
      exact not_directChild_swap hchild
  have hdirs : (step place b (.removeDir d now)).control.removedDirs =
      if !(b.control.removedDirs.filter fun x => !directChild place d.path x.path).any
          (fun x => directChild place x.path d.path) then
        (b.control.removedDirs.filter fun x => !directChild place d.path x.path) ++ [d]
      else b.control.removedDirs.filter fun x => !directChild place d.path x.path := rfl
  have hold : x ∈ b.control.removedDirs.filter (fun x => !directChild place d.path x.path) ↔
      x ∈ b.control.removedDirs ∧ ¬directChild place d.path x.path := by
    rw [mem_filter, Bool.not_eq_true', Bool.not_eq_true]
  rw [hdirs]
  split_ifs with hpush
  · rw [Bool.not_eq_true', ← Bool.not_eq_true, hany] at hpush
    rw [mem_append, mem_singleton, hold]
    have hnone : ∀ y ∈ b.control.removedDirs, ¬directChild place y.path d.path :=
      fun y hy hchild => hpush ⟨y, hy, hchild⟩
    exact or_congr_right (and_iff_left hnone).symm
  · rw [Bool.not_eq_true', Bool.not_eq_false, hany] at hpush
    obtain ⟨y, hy, hchild⟩ := hpush
    rw [hold, or_iff_left]
    rintro ⟨-, hnone⟩
    exact hnone y hy hchild

theorem rooted_removeDir_below (h : Rooted place b) {y : FileRemoveDir}
    (hy : y ∈ b.control.removedDirs) (hchild : directChild place y.path d.path = true) :
    Rooted place (step place b (.removeDir d now)) := by
  have hdirs {x : FileRemoveDir} (hx : x ∈ (step place b (.removeDir d now)).control.removedDirs) :
      x ∈ b.control.removedDirs := by
    rcases mem_removedDirs_step.mp hx with hx | ⟨-, hnone⟩
    · exact hx.1
    · exact absurd hchild (hnone y hy)
  have hparent : y.path ∈ (step place b (.removeDir d now)).control.kept :=
    mem_kept.mpr (.inr ⟨y, mem_removedDirs_step.mpr (.inl ⟨hy, not_directChild_swap hchild⟩), rfl⟩)
  have hcoversDir := covers_of_directChild hchild
  refine ⟨fun f hf x hx => h.files f (mem_removedFiles_step.mp hf).1 x (hdirs hx),
    fun x hx z hz => h.dirs x (hdirs hx) z (hdirs hz), fun p hp => ?_⟩
  rcases mem_append.mp hp with hold | hnew
  · obtain ⟨q, hq, hcovers⟩ := h.covered p hold
    rcases mem_kept.mp hq with ⟨f, hf, rfl⟩ | ⟨x, hx, rfl⟩
    · by_cases hdrop : directChild place f.path d.path = true
      · -- the file is at the parent of the new directory, which is kept
        have hsame : place f.path = place y.path := Option.some.inj
          ((directChild_iff.mp hdrop).symm.trans (directChild_iff.mp hchild))
        exact ⟨y.path, hparent, hsame ▸ hcovers⟩
      · exact ⟨f.path, mem_kept.mpr (.inl ⟨f, mem_removedFiles_step.mpr ⟨hf, hdrop⟩, rfl⟩),
          hcovers⟩
    · by_cases hdrop : directChild place d.path x.path = true
      · exact ⟨y.path, hparent,
          hcoversDir.trans ((covers_of_directChild hdrop).trans hcovers)⟩
      · exact ⟨x.path, mem_kept.mpr
          (.inr ⟨x, mem_removedDirs_step.mpr (.inl ⟨hx, hdrop⟩), rfl⟩), hcovers⟩
  · rw [mem_singleton.mp hnew]
    exact ⟨y.path, hparent, hcoversDir⟩

theorem covers_of_kept (now : Nat)
    (htop : ∀ y ∈ b.control.removedDirs, ¬directChild place y.path d.path) {q : Text}
    (hq : q ∈ b.control.kept) (hstays : ¬directChild place q d.path) :
    ∃ r ∈ (step place b (.removeDir d now)).control.kept, (place r).Covers (place q) := by
  rcases mem_kept.mp hq with ⟨f, hf, rfl⟩ | ⟨x, hx, rfl⟩
  · exact ⟨f.path, mem_kept.mpr (.inl ⟨f, mem_removedFiles_step.mpr ⟨hf, hstays⟩, rfl⟩), .refl _⟩
  · by_cases hdrop : directChild place d.path x.path = true
    · exact ⟨d.path, mem_kept.mpr (.inr ⟨d, mem_removedDirs_step.mpr (.inr ⟨rfl, htop⟩), rfl⟩),
        covers_of_directChild hdrop⟩
    · exact ⟨x.path, mem_kept.mpr
        (.inr ⟨x, mem_removedDirs_step.mpr (.inl ⟨hx, hdrop⟩), rfl⟩), .refl _⟩

theorem rooted_removeDir_top (h : Rooted place b)
    (hremoved : ∀ f ∈ b.control.removedFiles, f.path ∈ b.removed)
    (htop : ∀ y ∈ b.control.removedDirs, ¬directChild place y.path d.path) :
    Rooted place (step place b (.removeDir d now)) ↔
      (∀ f ∈ b.control.removedFiles, ¬directChild place d.path f.path) ∧
        ∀ f ∈ b.control.removedFiles, directChild place f.path d.path →
          ∃ p ∈ b.control.kept, (place p).Ancestor (place f.path) := by
  have hnew : d ∈ (step place b (.removeDir d now)).control.removedDirs :=
    mem_removedDirs_step.mpr (.inr ⟨rfl, htop⟩)
  constructor
  · intro h'
    refine ⟨fun f hf hchild => ?_, fun f hf hdrop => ?_⟩
    · have hkept : f ∈ (step place b (.removeDir d now)).control.removedFiles :=
        mem_removedFiles_step.mpr ⟨hf, not_directChild_swap hchild⟩
      exact h'.files f hkept d hnew hchild
    · obtain ⟨q, hq, hcovers⟩ := h'.covered f.path (mem_append_left _ (hremoved f hf))
      have hlength := Place.length_of_parent (directChild_iff.mp hdrop)
      have hparent (r : Text) (hr : place r = place f.path) : directChild place r d.path = true :=
        directChild_iff.mpr (hr ▸ directChild_iff.mp hdrop)
      rcases mem_kept.mp hq with ⟨g, hg, rfl⟩ | ⟨x, hx, rfl⟩
      · obtain ⟨hg, hstays⟩ := mem_removedFiles_step.mp hg
        exact ⟨g.path, mem_kept.mpr (.inl ⟨g, hg, rfl⟩), hcovers,
          fun hsame => hstays (hparent _ hsame)⟩
      · rcases mem_removedDirs_step.mp hx with ⟨hx, -⟩ | ⟨rfl, -⟩
        · exact ⟨x.path, mem_kept.mpr (.inr ⟨x, hx, rfl⟩), hcovers,
            fun hsame => htop x hx (hparent _ hsame)⟩
        · have := hcovers.length_le
          omega
  · rintro ⟨hfiles, habove⟩
    refine ⟨fun f hf x hx => ?_, fun x hx z hz => ?_, fun p hp => ?_⟩
    · have hf' := (mem_removedFiles_step.mp hf).1
      rcases mem_removedDirs_step.mp hx with ⟨hx, -⟩ | ⟨rfl, -⟩
      · exact h.files f hf' x hx
      · exact hfiles f hf'
    · rcases mem_removedDirs_step.mp hx with ⟨hx, hkeeps⟩ | ⟨rfl, -⟩
      · rcases mem_removedDirs_step.mp hz with ⟨hz, -⟩ | ⟨rfl, -⟩
        · exact h.dirs x hx z hz
        · exact hkeeps
      · rcases mem_removedDirs_step.mp hz with ⟨hz, -⟩ | ⟨rfl, -⟩
        · exact htop z hz
        · exact not_directChild_self _
    · rcases mem_append.mp hp with hold | hlast
      · obtain ⟨q, hq, hcovers⟩ := h.covered p hold
        by_cases hdrop : directChild place q d.path = true
        · obtain ⟨f, hf, rfl⟩ : ∃ f ∈ b.control.removedFiles, f.path = q := by
            rcases mem_kept.mp hq with hfile | ⟨x, hx, rfl⟩
            · exact hfile
            · exact absurd hdrop (htop x hx)
          obtain ⟨r, hr, hancestor, hne⟩ := habove f hf hdrop
          have hstays : ¬directChild place r d.path := by
            intro hchild
            exact hne (Option.some.inj
              ((directChild_iff.mp hchild).symm.trans (directChild_iff.mp hdrop)))
          obtain ⟨t, ht, hcovers'⟩ := covers_of_kept now htop hr hstays
          exact ⟨t, ht, hcovers'.trans (hancestor.trans hcovers)⟩
        · obtain ⟨r, hr, hcovers'⟩ := covers_of_kept now htop hq hdrop
          exact ⟨r, hr, hcovers'.trans hcovers⟩
      · rw [mem_singleton.mp hlast]
        exact ⟨d.path, mem_kept.mpr (.inr ⟨d, hnew, rfl⟩), .refl _⟩

end RemoveDir

theorem kept_removed (h : ∀ f ∈ b.control.removedFiles, f.path ∈ b.removed) (i : Input) :
    ∀ f ∈ (step place b i).control.removedFiles, f.path ∈ (step place b i).removed := by
  intro f hf
  cases i with
  | removeFile g now =>
    rcases mem_append.mp hf with hold | hnew
    · exact mem_append_left _ (h f hold)
    · rw [mem_singleton.mp hnew]
      exact mem_concat_self
  | removeDir d now => exact mem_append_left _ (h f (mem_removedFiles_step.mp hf).1)
  | timer now =>
    rw [step, onTimer] at hf ⊢
    split_ifs at hf ⊢ with hearly
    · exact h f hf
    · cases hf

theorem rooted_step_iff (h : Rooted place b)
    (hremoved : ∀ f ∈ b.control.removedFiles, f.path ∈ b.removed) (i : Input) :
    Rooted place (step place b i) ↔ KeepsRoots place b i := by
  cases i with
  | removeFile f now => exact rooted_removeFile h f now
  | removeDir d now =>
    by_cases hbelow : ∃ y ∈ b.control.removedDirs, directChild place y.path d.path = true
    · obtain ⟨y, hy, hchild⟩ := hbelow
      exact iff_of_true (rooted_removeDir_below h hy hchild) (.inl ⟨y, hy, hchild⟩)
    · have htop : ∀ y ∈ b.control.removedDirs, ¬directChild place y.path d.path :=
        fun y hy hchild => hbelow ⟨y, hy, hchild⟩
      exact (rooted_removeDir_top h hremoved htop).trans (or_iff_right hbelow).symm
  | timer now =>
    refine iff_of_true ?_ trivial
    rw [step, onTimer]
    split_ifs with hearly
    · exact h
    · exact ⟨nofun, nofun, nofun⟩

variable (place) in
/-- **The log of a burst.**  However files and directories are removed, and whenever the
control is drained: it always reports a directory for what was removed directly in it, and
something for all that was removed, exactly if every removal is one that keeps it so. -/
theorem collapses_iff_keepsRoots (connId : Int) (now : Nat) (is : List Input) :
    Always (step place) (Collapses place) (start connId now) is ↔
      Along (step place) (KeepsRoots place) (start connId now) is := by
  have hstart : Rooted place (start connId now) := ⟨nofun, nofun, nofun⟩
  refine always_iff_along (W := fun _ _ => True) (N := is.length) (n := 0)
    (J := fun _ b => ∀ f ∈ b.control.removedFiles, f.path ∈ b.removed)
    (fun _ _ i _ h => kept_removed h i) (fun _ _ i _ _ hremoved hgood => ?_) (by omega) nofun
    (collapses_iff.mpr hstart) (along_of_forall (fun _ _ => trivial) _ _)
  rw [collapses_iff] at hgood ⊢
  exact rooted_step_iff hgood hremoved i

def emptied : List Input :=
  [.removeFile ⟨1, "/d/f".toList, 0⟩ 0, .removeDir ⟨1, "/d".toList, true⟩ 0]

/-- Both are reported: a file is dropped only for a directory in it. -/
theorem emptied_reports_both :
    ¬Always (step unixPlace) (Collapses unixPlace) (start 1 0) emptied := by
  intro h
  have hfile := (collapses_iff.mp h.last).files ⟨1, "/d/f".toList, 0⟩ (by decide +kernel)
    ⟨1, "/d".toList, true⟩ (by decide +kernel)
  exact hfile (by decide +kernel)

end RustDesk.FileRemoveLog
