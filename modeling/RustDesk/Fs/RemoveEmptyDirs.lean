import RustDesk.Lib.Directories

/-!
# Removing empty directories

`remove_all_empty_dir` goes through a directory with all that is in it: it calls itself for
directories, removes links, and last removes the directory, which fails if anything is left
in it.  `read_dir` tells it what an entry is: whether it is a directory, following links,
and whether it is a link itself.

The order in which a directory lists its entries is a parameter.
-/

open UnixPath UnixPath.FileSystem

namespace RustDesk.RemoveEmptyDirs

open List

inductive FileType where
  | dir
  | dirLink
  | dirDrive
  | file
  | fileLink

structure FileEntry where
  entryType : FileType
  name : Text
  isHidden : Bool

structure FileDirectory where
  path : Text
  entries : List FileEntry

def getFileName (p : Text) : Text := (UnixPath.fileName p).getD []

/-- What `read_dir` says about one path, if it does not skip it. -/
def readEntry (fs : FileSystem) (includeHidden : Bool) (p : Text) : Option FileEntry :=
  let name := getFileName p
  if name = [] then none
  else match fs.lstat p with
    | none => none
    | some metadata =>
      let isHidden := name.head? == some '.'
      if isHidden && !includeHidden then none
      else
        let isSymlink := match metadata with
          | .link _ => true
          | _ => false
        let entryType :=
          if fs.statDir p then if isSymlink then FileType.dirLink else .dir
          else if isSymlink then .fileLink
          else .file
        some { entryType, name, isHidden }

section

variable (names : Place → List Text)

def readDir (fs : FileSystem) (path : Text) (includeHidden : Bool) : Option FileDirectory :=
  match fs.list names path with
  | some cs => some ⟨path, cs.filterMap fun c => readEntry fs includeHidden (join path c)⟩
  | none => none

def cleanEntry (recurse : FileSystem → Text → FileSystem) (path : Text) (fs : FileSystem)
    (entry : FileEntry) : FileSystem :=
  match entry.entryType with
  | .dir => recurse fs (join path entry.name)
  | .dirLink | .fileLink => (fs.unlink (join path entry.name)).getD fs
  | _ => fs

/-- `remove_all_empty_dir`, and whether it succeeded. -/
def removeAllEmptyDir : Nat → FileSystem → Text → Bool × FileSystem
  | 0, fs, _ => (false, fs)
  | fuel + 1, fs, path =>
    match readDir names fs path true with
    | none => (false, fs)
    | some fd =>
      let fs := fd.entries.foldl
        (cleanEntry (fun fs path => (removeAllEmptyDir fuel fs path).2) path) fs
      (true, (fs.rmdir names path).getD fs)

end

variable {names : Place → List Text} {fs : FileSystem} {path c : Text} {root : Place}

def TypeOf : UnixPath.Node → FileType → Prop
  | .file, t => t = .file
  | .dir, t => t = .dir
  | .link _, t => t = .dirLink ∨ t = .fileLink

theorem readEntry_child (hfind : fs.find path = some root) (hdir : fs.DirAt root) (hc : Valid c)
    {n : UnixPath.Node} (hnode : fs.node (root ++ [c]) = some n) :
    ∃ e, readEntry fs true (join path c) = some e ∧ e.name = c ∧ TypeOf n e.entryType := by
  have hname : getFileName (join path c) = c := by
    have hlast := (components_join_name path hc.noSep hc.isProper).1
    have hdot : c ≠ dot := by
      rintro rfl
      exact absurd hc.isProper (by decide)
    rw [getFileName, UnixPath.fileName, hlast, List.getLast?_concat]
    dsimp only
    rw [if_neg (by simp [hc.notUp, hdot])]
    rfl
  have hlstat : fs.lstat (join path c) = some n := by
    rw [lstat, entryAt_child hfind hdir hc]
    exact hnode
  have hstat (hlink : fs.linkAt (root ++ [c]) = none) :
      fs.statDir (join path c) = decide (fs.node (root ++ [c]) = some .dir) := by
    rw [statDir, find_child hfind hdir hc hlink]
    simp [DirAt]
  unfold readEntry
  dsimp only
  rw [hname, if_neg hc.ne_nil, hlstat]
  dsimp only
  rw [if_neg (by simp)]
  refine ⟨_, rfl, rfl, ?_⟩
  cases n with
  | file =>
    dsimp only
    rw [hstat (by simp [linkAt, hnode]), hnode]
    rfl
  | dir =>
    dsimp only
    rw [hstat (by simp [linkAt, hnode]), hnode]
    rfl
  | link target =>
    dsimp only
    rw [if_pos rfl, if_pos rfl]
    split_ifs
    · exact .inl rfl
    · exact .inr rfl

theorem cleanEntry_clears {recurse : FileSystem → Text → FileSystem} {e : FileEntry}
    {n : UnixPath.Node} (hl : fs.Listed names) (hpath : fs.LeadsTo path root)
    (hroot : fs.node root = some .dir) (hc : Valid c) (hnode : fs.node (root ++ [c]) = some n)
    (hname : e.name = c)
    (htype : TypeOf n e.entryType)
    (hrecurse : fs.node (root ++ [c]) = some .dir → fs.LeadsTo (join path c) (root ++ [c]) →
      fs.ClearedOn (root ++ [c] <+: ·) (recurse fs (join path c))) :
    fs.ClearedOn (root ++ [c] <+: ·) (cleanEntry recurse path fs e) := by
  have hne : root ++ [c] ≠ [] := by simp
  unfold cleanEntry
  rw [hname]
  cases n with
  | file =>
    rw [show e.entryType = .file from htype]
    exact clearedOn_file hl hnode hne
  | dir =>
    rw [show e.entryType = .dir from htype]
    exact hrecurse hnode (hpath.child hroot hc hnode)
  | link target =>
    have hunlink : fs.unlink (join path c) = some (fs.put (root ++ [c]) none) := by
      rw [unlink, entryAt_child hpath.find (.inr hroot) hc]
      dsimp only
      rw [hnode]
    have hcleared := clearedOn_link hl hnode hne
    rcases htype with hdir | hfile
    · rw [hdir, hunlink]
      exact hcleared
    · rw [hfile, hunlink]
      exact hcleared

theorem foldl_clears (recurse : FileSystem → Text → FileSystem) (hl : fs.Listed names)
    (hpath : fs.LeadsTo path root) (hroot : fs.node root = some .dir)
    (hrecurse : ∀ (fs' : FileSystem) (c : Text), fs'.Listed names → Valid c →
      (∀ q, root ++ [c] <+: q → fs'.node q = fs.node q) → fs'.node (root ++ [c]) = some .dir →
      fs'.LeadsTo (join path c) (root ++ [c]) →
      fs'.ClearedOn (root ++ [c] <+: ·) (recurse fs' (join path c)))
    (cs : List Text) (hcs : ∀ c ∈ cs, c ∈ fs.listing names root) (done : List Text)
    (hnodup : (done ++ cs).Nodup) {fs' : FileSystem}
    (hdone : fs.ClearedOn (fun q => ∃ c ∈ done, root ++ [c] <+: q) fs') :
    fs.ClearedOn (fun q => ∃ c ∈ done ++ cs, root ++ [c] <+: q)
      ((cs.filterMap fun c => readEntry fs true (join path c)).foldl (cleanEntry recurse path)
        fs') := by
  induction cs generalizing done fs' with
  | nil => exact hdone.congr fun q => by rw [append_nil]
  | cons c cs ih =>
    have hmem := hcs c mem_cons_self
    have hc : Valid c := hl.valid root c (mem_filter.mp hmem).1
    obtain ⟨n, hnode⟩ := Option.ne_none_iff_exists'.mp (hl.mem_listing.mp hmem)
    obtain ⟨e, hread, hname, htype⟩ := readEntry_child hpath.find (.inr hroot) hc hnode
    have hnotMem : c ∉ done := by
      have := nodup_append.mp hnodup
      exact fun hin => this.2.2 c hin c mem_cons_self rfl
    have hstrict (q : Place) (hq : ∃ d ∈ done, root ++ [d] <+: q) : root <+: q ∧ q ≠ root := by
      obtain ⟨d, -, hd⟩ := hq
      exact prefix_of_child hd
    have hup (q r : Place) (hq : ∃ d ∈ done, root ++ [d] <+: q) (hqr : q <+: r) :
        ∃ d ∈ done, root ++ [d] <+: r := by
      obtain ⟨d, hd, hunder⟩ := hq
      exact ⟨d, hd, hunder.trans hqr⟩
    have hdisjoint (q r : Place) (hq : root ++ [c] <+: q) (hqr : q <+: r) :
        ¬∃ d ∈ done, root ++ [d] <+: r := by
      rintro ⟨d, hd, hunder⟩
      exact hnotMem (child_unique hunder (hq.trans hqr) ▸ hd)
    have hsame (q : Place) (hq : root ++ [c] <+: q) : fs'.node q = fs.node q :=
      hdone.kept q fun hP => hdisjoint q q hq (prefix_refl q) hP.1
    have hroot' : fs'.node root = some .dir :=
      (hdone.kept root fun hP => (hstrict root hP.1).2 rfl).trans hroot
    have hpath' := hpath.of_sameOutside (hdone.sameOutside hstrict)
    have hl' := hdone.listed hup hl
    have hstep : fs'.ClearedOn (root ++ [c] <+: ·) (cleanEntry recurse path fs' e) :=
      cleanEntry_clears hl' hpath' hroot' hc ((hsame _ (prefix_refl _)).trans hnode) hname
        htype (hrecurse fs' c hl' hc hsame)
    have hnext := (hdone.trans hstep hdisjoint).congr
      (Q := fun q => ∃ d ∈ done ++ [c], root ++ [d] <+: q) fun q => by
        simp only [mem_append, mem_singleton, or_and_right, exists_or, exists_eq_left]
    rw [filterMap_cons_some (f := fun c => readEntry fs true (join path c)) hread, foldl_cons]
    have happend : done ++ c :: cs = done ++ [c] ++ cs := by simp
    rw [happend] at hnodup ⊢
    exact ih (fun d hd => hcs d (mem_cons_of_mem c hd)) _ hnodup hnext

/-- **Removing empty directories.**  The directory, and all that is in it, is cleared: links
and the directories without a regular file below are removed, and nothing else changes. -/
theorem removeAllEmptyDir_clears (names : Place → List Text) {fuel : Nat} {fs : FileSystem}
    {path : Text} {root : Place} (hl : fs.Listed names) (hpath : fs.LeadsTo path root)
    (hroot : fs.node root = some .dir)
    (hdepth : ∀ q, root <+: q → fs.node q ≠ none → q.length < root.length + fuel) :
    (removeAllEmptyDir names fuel fs path).1 = true ∧
      fs.ClearedOn (root <+: ·) (removeAllEmptyDir names fuel fs path).2 := by
  induction fuel generalizing fs path root with
  | zero => exact absurd (hdepth root (prefix_refl root) (by simp [hroot])) (by omega)
  | succ fuel ih =>
    have hlist : readDir names fs path true = some ⟨path, (fs.listing names root).filterMap
        fun c => readEntry fs true (join path c)⟩ := by
      rw [readDir, list, hpath.find]
      dsimp only
      rw [if_pos (dirAt_of_node hroot)]
    have hstart : fs.ClearedOn (fun q => ∃ c ∈ ([] : List Text), root ++ [c] <+: q) fs :=
      ⟨rfl, fun _ hnone => absurd hnone (by simp), fun _ _ => rfl⟩
    have hloop := foldl_clears (fun fs path => (removeAllEmptyDir names fuel fs path).2)
      hl hpath hroot (fun fs' c hl' hc hsame hdir hpath' => (ih hl' hpath' hdir ?_).2)
      (fs.listing names root) (fun _ hc => hc) []
      (by rw [nil_append]; exact (hl.nodup root).filter _) hstart
    · rw [nil_append] at hloop
      have hstrict (q : Place) (hq : ∃ c ∈ fs.listing names root, root ++ [c] <+: q) :
          root <+: q ∧ q ≠ root := by
        obtain ⟨c, -, hc⟩ := hq
        exact prefix_of_child hc
      have hentry := (hpath.of_sameOutside (hloop.sameOutside hstrict)).dirEntryAt
      have hdir := (hloop.kept root fun hP => (hstrict root hP.1).2 rfl).trans hroot
      have hdone := hloop.dir hl hroot
      rw [removeAllEmptyDir, hlist]
      dsimp only
      refine ⟨rfl, ?_⟩
      rw [rmdir, hentry]
      dsimp only
      split_ifs at hdone with hempty
      · rw [if_pos ⟨hdir, hempty⟩]
        exact hdone
      · rw [if_neg fun h => hempty h.2]
        exact hdone
    · intro q hq hnode
      rw [hsame q hq] at hnode
      have := hdepth q ((prefix_append root [c]).trans hq) hnode
      rw [length_append, length_singleton]
      omega

/-- `/t`, with a link `k` to the root and an empty directory `s`. -/
def looped : FileSystem where
  cwd := []
  node l :=
    if l = [['t']] then some .dir
    else if l = [['t'], ['k']] then some (.link ['/'])
    else if l = [['t'], ['s']] then some .dir
    else none

def loopedNames (l : Place) : List Text :=
  if l = [] then [['t']] else if l = [['t']] then [['k'], ['s']] else []

theorem looped_cases {l : Place} (h : looped.node l ≠ none) :
    l = [['t']] ∨ l = [['t'], ['k']] ∨ l = [['t'], ['s']] := by
  by_contra hnot
  rw [not_or, not_or] at hnot
  refine h ?_
  change (if _ then _ else if _ then _ else if _ then _ else _) = _
  rw [if_neg hnot.1, if_neg hnot.2.1, if_neg hnot.2.2]

theorem looped_listed : looped.Listed loopedNames := by
  have hchild {l : Place} {c : Text} (h : looped.node (l ++ [c]) ≠ none) :
      l = [] ∧ c = ['t'] ∨ l = [['t']] ∧ (c = ['k'] ∨ c = ['s']) := by
    rcases looped_cases h with heq | heq | heq
    · have hlast : l ++ [c] = [] ++ [['t']] := heq
      exact .inl (append_singleton_inj.mp hlast)
    · have hlast : l ++ [c] = [['t']] ++ [['k']] := heq
      exact .inr ((append_singleton_inj.mp hlast).imp_right .inl)
    · have hlast : l ++ [c] = [['t']] ++ [['s']] := heq
      exact .inr ((append_singleton_inj.mp hlast).imp_right .inr)
  refine ⟨fun l c h => ?_, fun l => ?_, fun l c h => ?_, fun l c h => ?_⟩
  · rcases hchild h with ⟨rfl, rfl⟩ | ⟨rfl, rfl | rfl⟩ <;> decide
  · unfold loopedNames
    split_ifs <;> decide
  · have hname : c = ['t'] ∨ c = ['k'] ∨ c = ['s'] := by
      unfold loopedNames at h
      split_ifs at h <;> simp at h <;> tauto
    rcases hname with rfl | rfl | rfl <;> exact ⟨by decide, by decide, by decide⟩
  · rcases hchild h with ⟨rfl, -⟩ | ⟨rfl, -⟩
    · exact .inl rfl
    · exact .inr rfl

theorem looped_leadsTo : looped.LeadsTo "/t".toList [['t']] := by
  intro fs' hsame
  have hnode : fs'.node [['t']] = some .dir := hsame.node _ fun h => h.2 rfl
  have hlink : fs'.linkAt ([] ++ [['t']]) = none := by simp [linkAt, hnode]
  have hroot : fs'.DirAt [] := .inl rfl
  have hreach : fs'.reach maxLinks [] [['t']] = some [['t']] := by
    rw [reach_cons, if_neg (not_not.mpr hroot), if_neg (by decide), hlink]
    exact reach_nil ..
  constructor
  · exact hreach
  · have hparent : fs'.parentAt "/t".toList = some [] := by
      change (if fs'.DirAt [] then some [] else none) = some ([] : Place)
      exact if_pos hroot
    change (fs'.parentAt "/t".toList).map (· ++ [['t']]) = _
    rw [hparent]
    rfl

/-- By its name, all of it is removed. -/
theorem looped_cleared : looped.ClearedOn ([['t']] <+: ·)
    (removeAllEmptyDir loopedNames 2 looped "/t".toList).2 := by
  refine (removeAllEmptyDir_clears loopedNames looped_listed looped_leadsTo rfl ?_).2
  intro q _ hq
  rcases looped_cases hq with rfl | rfl | rfl <;> decide

/-- By `/t/k/t`, the empty directory stays, since the link goes first; and by `/t/.` the
directory itself does, since `.` is no name of an entry. -/
theorem looped_by_other_paths :
    (looped.Listed loopedNames ∧ looped.node [['t']] = some .dir) ∧
    (looped.find "/t/k/t".toList = some [['t']] ∧
      looped.dirEntryAt "/t/k/t".toList = some [['t']] ∧
      ¬looped.ClearedOn ([['t']] <+: ·)
        (removeAllEmptyDir loopedNames 2 looped "/t/k/t".toList).2) ∧
    looped.find "/t/.".toList = some [['t']] ∧
      ¬looped.ClearedOn ([['t']] <+: ·)
        (removeAllEmptyDir loopedNames 2 looped "/t/.".toList).2 := by
  have hnoFile (q : Place) : looped.node q ≠ some .file := by
    intro hfile
    rcases looped_cases (by rw [hfile]; simp) with rfl | rfl | rfl <;> cases hfile
  refine ⟨⟨looped_listed, rfl⟩, ⟨by decide +kernel, by decide +kernel, fun h => ?_⟩,
    by decide +kernel, fun h => ?_⟩
  · have hgone := h.gone [['t'], ['s']] (by decide) (.inr ⟨rfl, fun q _ => hnoFile q⟩)
    exact absurd hgone (by decide +kernel)
  · have hgone := h.gone [['t']] (by decide) (.inr ⟨rfl, fun q _ => hnoFile q⟩)
    exact absurd hgone (by decide +kernel)

end RustDesk.RemoveEmptyDirs
