import Mathlib.Data.List.Pairwise
import Mathlib.Data.Set.Finite.Basic
import RustDesk.Clipboard.LocalFileInfo
import RustDesk.Lib.DepthFirst

/-!
# The files of a copied selection

`construct_file_list` follows links, since it asks `metadata` and `read_dir` of the path
of a link.  What is to prevent a loop is the set of the paths it was at; a path through a
loop is another path each time.

The files are a graph: names in directories lead to files and directories, directly or
through links.  `next` is what the walk sees of it, by the components of paths, and
`constrFileLst_view` makes the function a walk of `DepthFirst`.
`constructFileList_ends_iff` says when it ends and reads no directory twice.
-/

namespace RustDesk

open DepthFirst List

namespace OsPath

/-- `..`. -/
def dotdot : Bytes := [0x2E, 0x2E]

/-- `Path::join`, of a name. -/
def join (p name : Bytes) : Bytes :=
  if p = [] ∨ p.getLast? = some sep then p ++ name else p ++ sep :: name

def parent (p : Bytes) : Option Bytes :=
  if components p = [] ∨ components p = [[sep]] then none
  else
    match ((lead p).2.splitOn sep).reverse.dropWhile fun piece => !proper piece with
    | [] => some []
    | _ :: before => some ((lead p).1 ++ render before.reverse)

variable {p q name rest : Bytes}

theorem lead_append_sep (hp : p ≠ []) :
    lead (p ++ sep :: rest) = ((lead p).1, (lead p).2 ++ sep :: rest) := by
  obtain ⟨b, p, rfl⟩ := exists_cons_of_ne_nil hp
  have hhead : ((b :: p ++ sep :: rest).splitOn sep).head? = ((b :: p).splitOn sep).head? := by
    rw [splitOn_append_cons_self, List.head?_append_of_ne_nil _ (splitOn_ne_nil _ _)]
  rw [lead, lead, hhead, cons_append, List.head?_cons, List.head?_cons]
  split <;> rfl

theorem components_append_sep (hp : p ≠ []) :
    components (p ++ sep :: rest) = components p ++ (rest.splitOn sep).filter proper := by
  rw [components, components, lead_append_sep hp, splitOn_append_cons_self,
    filter_append, append_assoc]

theorem components_join (hsep : sep ∉ name) (hname : proper name) :
    components (join p name) = components p ++ [name] := by
  have hpieces : (name.splitOn sep).filter proper = [name] := by
    rw [splitOn_eq_singleton hsep, filter_singleton, hname]
    rfl
  rw [join]
  split
  next hend =>
    rcases eq_nil_or_concat' p with rfl | ⟨q, b, rfl⟩
    · have hlead : lead name = ([], name) := by
        rw [lead, if_neg]
        rintro (hhead | hhead)
        · exact hsep (mem_of_mem_head? hhead)
        · rw [splitOn_eq_singleton hsep, List.head?_cons, Option.some.injEq] at hhead
          rw [hhead] at hname
          cases hname
      rw [nil_append, components, hlead, if_pos rfl, hpieces]
      rfl
    · obtain rfl : b = sep := by simpa using hend
      by_cases hq : q = []
      · subst hq
        have hlead : lead (sep :: name) = ([sep], name) := if_pos (.inl rfl)
        rw [nil_append, singleton_append, components, hlead, hpieces]
        rfl
      · rw [append_assoc, singleton_append, components_append_sep hq,
          components_append_sep hq, hpieces]
        simp [proper]
  next hend => rw [components_append_sep (fun hp => hend (.inl hp)), hpieces]

end OsPath

/-- What a name in a directory stands for.  Of a link the graph has what it leads to in the
end; some lead nowhere. -/
inductive DirEntry (L : Type) where
  | object (l : L)
  | link (target : Option L)

def DirEntry.leads {L : Type} : DirEntry L → Option L
  | object l => some l
  | link target => target

/-- What `metadata` says of a file or a directory, besides which it is.  The time is in
nanoseconds from the Unix epoch on. -/
structure FileMetadata where
  len : Nat
  mode : Nat
  modified : Option Int
  len_lt : len < 2 ^ 64
  mode_lt : mode < 2 ^ 32

structure FileGraph (L : Type) where
  root : L
  cwd : L
  /-- What `..` leads to. -/
  up : L → L
  metadata : L → FileMetadata
  /-- The entries of a directory, in the order of `read_dir`; a file has none. -/
  entries : L → Option (List (Bytes × DirEntry L))
  /-- Whether `read_dir` is granted. -/
  readable : L → Bool
  names : ∀ l es e, entries l = some es → e ∈ es →
    OsPath.sep ∉ e.1 ∧ OsPath.proper e.1 ∧ e.1 ≠ OsPath.dotdot
  nodup : ∀ l es, entries l = some es → (es.map Prod.fst).Nodup

/-- `CliprdrError`, as far as the list of files goes.  What the system says of a file is not
told. -/
inductive FileListError where
  | invalidRequest (description : String)
  | fileError (path : Text)

/-- `file_list` and `visited`, while the list is made.  Paths are the same if their
components are. -/
structure FileListWalk (L : Type) where
  fileList : List LocalFileInfo
  visited : List (List Bytes)
  /-- The directories that were read, the last in front. -/
  expanded : List L

namespace FileGraph

variable {L : Type} (g : FileGraph L)

def step (l : L) (c : Bytes) : Option L :=
  if c = [OsPath.sep] then some g.root
  else
    match g.entries l with
    | none => none
    | some es =>
      if c = OsPath.dot then some l
      else if c = OsPath.dotdot then some (g.up l)
      else (es.lookup c).bind DirEntry.leads

def locate (cs : List Bytes) : Option L := if cs = [] then none else cs.foldlM g.step g.cwd

def resolve (path : Bytes) : Option L := g.locate (OsPath.components path)

/-- `LocalFile::try_open`, where the path leads to this. -/
def tryOpen (relativeRoot path : Bytes) (l : L) : LocalFileInfo :=
  let mt := g.metadata l
  let isDir := (g.entries l).isSome
  let readOnly := mt.mode &&& 0o222 = 0
  let hidden := (Utf8.lossy path).head? = some '.'
  { relativeRoot, path
    name := ((Utf8.lossy path).dropWhile (· = '/')).map fun c => if c = '/' then '\\' else c
    size := mt.len
    lastWriteTime := mt.modified.getD 0
    isDir
    perm := mt.mode
    readOnly, hidden
    system := false
    archive := false
    normal := !(isDir || readOnly || hidden)
    size_lt := mt.len_lt
    perm_lt := mt.mode_lt }

/-- `constr_file_lst`, with so many levels to go down. -/
def constrFileLst (relativeRoot : Bytes) :
    Nat → Bytes → FileListWalk L → Option (FileListWalk L × Option FileListError)
  | 0, _, _ => none
  | n + 1, path, w =>
    if OsPath.components path ∈ w.visited then some (w, none)
    else
      let w := { w with visited := OsPath.components path :: w.visited }
      match g.resolve path with
      | none => some (w, some (.fileError (Utf8.lossy path)))
      | some l =>
        let w := { w with fileList := w.fileList ++ [g.tryOpen relativeRoot path l] }
        match g.entries l with
        | none => some (w, none)
        | some es =>
          if g.readable l then
            visitAll (constrFileLst relativeRoot n) (es.map fun e => OsPath.join path e.1)
              { w with expanded := l :: w.expanded }
          else some (w, some (.fileError (Utf8.lossy path)))

def started : FileListWalk L := ⟨[], [], []⟩

def constructFileList (n : Nat) (paths : List Bytes) :
    Option (FileListWalk L × Option FileListError) :=
  match paths with
  | [] => some (started, some (.invalidRequest "empty file list"))
  | first :: _ =>
    match OsPath.parent first with
    | none => some (started, some (.invalidRequest "empty parent"))
    | some relativeRoot => visitAll (g.constrFileLst relativeRoot n) paths started

def next (cs : List Bytes) : Option (List (List Bytes)) :=
  (g.locate cs).bind fun l =>
    match g.entries l with
    | none => some []
    | some es => if g.readable l then some (es.map fun e => cs ++ [e.1]) else none

def listed (cs : List Bytes) : Option L :=
  (g.locate cs).filter fun l => (g.entries l).isSome && g.readable l

/-- The components that a walk over the selection comes to: those of the selected paths and
of what is below, up to the first that cannot be opened. -/
def Reached (paths : List Bytes) (cs : List Bytes) : Prop :=
  MetIn g.next (paths.map OsPath.components) cs

/-- **No directory is reached along two paths.** -/
def NoShared (paths : List Bytes) : Prop :=
  ∀ cs ds, g.Reached paths cs → g.Reached paths ds → g.listed cs ≠ none →
    g.listed cs = g.listed ds → cs = ds

variable {g} {relativeRoot path : Bytes} {paths : List Bytes} {cs ds : List Bytes} {n : Nat}
  {w : FileListWalk L} {r : FileListWalk L × Option FileListError}

theorem child_cases (h : Child g.next cs ds) : g.listed cs ≠ none ∧ ∃ name, ds = cs ++ [name] := by
  obtain ⟨nexts, hnext, hds⟩ := h
  obtain ⟨l, hl, hsome⟩ := Option.bind_eq_some_iff.mp hnext
  split at hsome
  next =>
    cases hsome
    cases hds
  next es hes =>
    split at hsome
    next hreadable =>
      cases hsome
      obtain ⟨e, -, rfl⟩ := mem_map.mp hds
      refine ⟨?_, e.1, rfl⟩
      simp [listed, hl, hes, hreadable]
    next => cases hsome

theorem length_lt_of_child (cs ds : List Bytes) (h : Child g.next cs ds) :
    cs.length < ds.length := by
  obtain ⟨-, name, rfl⟩ := child_cases h
  simp

def seen (r : FileListWalk L × Option FileListError) : List (List Bytes) × Option Unit :=
  (r.1.visited, r.2.map fun _ => ())

theorem components_names {l : L} {es : List (Bytes × DirEntry L)} (hes : g.entries l = some es) :
    (es.map fun e => OsPath.join path e.1).map OsPath.components =
      es.map fun e => OsPath.components path ++ [e.1] := by
  rw [map_map]
  refine map_congr_left fun e he => ?_
  obtain ⟨hsep, hname, -⟩ := g.names l es e hes he
  exact OsPath.components_join hsep hname

/-- **What one call does** at a path it was not at: it ends there, without a directory being
read, or it reads one and goes on with what is in it. -/
theorem constrFileLst_cases (g : FileGraph L) (relativeRoot path : Bytes) (w : FileListWalk L)
    (hnew : OsPath.components path ∉ w.visited) :
    (∃ fileList e, g.listed (OsPath.components path) = none ∧
      g.next (OsPath.components path) = (if e = none then some [] else none) ∧
      ∀ n, g.constrFileLst relativeRoot (n + 1) path w =
        some (⟨fileList, OsPath.components path :: w.visited, w.expanded⟩, e)) ∨
    ∃ fileList l paths, g.listed (OsPath.components path) = some l ∧
      g.next (OsPath.components path) = some (paths.map OsPath.components) ∧
      ∀ n, g.constrFileLst relativeRoot (n + 1) path w =
        visitAll (g.constrFileLst relativeRoot n) paths
          ⟨fileList, OsPath.components path :: w.visited, l :: w.expanded⟩ := by
  cases hl : g.resolve path with
  | none =>
    have hlocate : g.locate (OsPath.components path) = none := hl
    refine .inl ⟨w.fileList, some (.fileError (Utf8.lossy path)), ?_, ?_, fun n => ?_⟩
    · simp [listed, hlocate]
    · simp [next, hlocate]
    · rw [constrFileLst, if_neg hnew, hl]
  | some l =>
    have hlocate : g.locate (OsPath.components path) = some l := hl
    cases hes : g.entries l with
    | none =>
      refine .inl ⟨w.fileList ++ [g.tryOpen relativeRoot path l], none, ?_, ?_, fun n => ?_⟩
      · simp [listed, hlocate, hes]
      · simp [next, hlocate, hes]
      · rw [constrFileLst, if_neg hnew, hl]
        simp only [hes]
    | some es =>
      by_cases hreadable : g.readable l = true
      · refine .inr ⟨w.fileList ++ [g.tryOpen relativeRoot path l], l,
          es.map fun e => OsPath.join path e.1, ?_, ?_, fun n => ?_⟩
        · simp [listed, hlocate, hes, hreadable]
        · rw [components_names hes]
          simp [next, hlocate, hes, hreadable]
        · rw [constrFileLst, if_neg hnew, hl]
          simp only [hes, if_pos hreadable]
      · refine .inl ⟨w.fileList ++ [g.tryOpen relativeRoot path l],
          some (.fileError (Utf8.lossy path)), ?_, ?_, fun n => ?_⟩
        · simp [listed, hlocate, hes, hreadable]
        · simp [next, hlocate, hes, hreadable]
        · rw [constrFileLst, if_neg hnew, hl]
          simp only [hes, if_neg hreadable]

/-- **`constr_file_lst` is a walk along `next`.** -/
theorem constrFileLst_view :
    (g.constrFileLst relativeRoot n path w).map seen =
      visit g.next n (OsPath.components path) w.visited := by
  induction n generalizing path w with
  | zero => rfl
  | succ n ih =>
    rw [visit]
    split
    next hmem =>
      rw [constrFileLst, if_pos hmem]
      rfl
    next hnew =>
      rcases constrFileLst_cases g relativeRoot path w hnew with
        ⟨fileList, e, -, hnext, hcall⟩ | ⟨fileList, l, paths, -, hnext, hcall⟩
      · rw [hcall, hnext]
        cases e <;> rfl
      · rw [hcall, hnext]
        exact visitAll_view OsPath.components FileListWalk.visited (fun _ => ()) fun q _ w => ih

theorem constrFileLst_mono {m : Nat} (hle : n ≤ m)
    (h : g.constrFileLst relativeRoot n path w = some r) :
    g.constrFileLst relativeRoot m path w = some r := by
  induction n generalizing m path w r with
  | zero => cases h
  | succ n ih =>
    obtain ⟨m, rfl⟩ := Nat.exists_eq_add_one_of_ne_zero (Nat.ne_of_gt (Nat.zero_lt_of_lt hle))
    by_cases hmem : OsPath.components path ∈ w.visited
    · rw [constrFileLst, if_pos hmem] at h ⊢
      exact h
    · rcases constrFileLst_cases g relativeRoot path w hmem with
        ⟨fileList, e, -, -, hcall⟩ | ⟨fileList, l, paths, -, -, hcall⟩
      · rw [hcall] at h ⊢
        exact h
      · rw [hcall] at h ⊢
        exact visitAll_mono (fun _ _ _ => ih (Nat.le_of_succ_le_succ hle)) h

def Consistent (g : FileGraph L) (w : FileListWalk L) : Prop :=
  w.expanded = w.visited.filterMap g.listed

theorem consistent_constrFileLst (hw : g.Consistent w)
    (h : g.constrFileLst relativeRoot n path w = some r) : g.Consistent r.1 := by
  induction n generalizing path w r with
  | zero => cases h
  | succ n ih =>
    by_cases hmem : OsPath.components path ∈ w.visited
    · rw [constrFileLst, if_pos hmem] at h
      exact Option.some.inj h ▸ hw
    · rcases constrFileLst_cases g relativeRoot path w hmem with
        ⟨fileList, e, hlisted, -, hcall⟩ | ⟨fileList, l, paths, hlisted, -, hcall⟩
      · rw [hcall] at h
        cases h
        rw [Consistent, filterMap_cons_none hlisted]
        exact hw
      · rw [hcall] at h
        refine visitAll_induct g.Consistent (fun _ _ _ hs hr => ih hs hr) ?_ h
        rw [Consistent, filterMap_cons_some hlisted]
        exact congrArg (l :: ·) hw

theorem walk_view (g : FileGraph L) (relativeRoot : Bytes) (n : Nat) (paths : List Bytes) :
    (visitAll (g.constrFileLst relativeRoot n) paths started).map seen =
      visitAll (visit g.next n) (paths.map OsPath.components) [] :=
  visitAll_view OsPath.components FileListWalk.visited (fun _ => ()) fun _ _ _ => constrFileLst_view

theorem settled_nil : Settled g.next [] cs := fun _ hd => nomatch hd

theorem walk_spec (h : visitAll (g.constrFileLst relativeRoot n) paths started = some r) :
    r.1.visited.Nodup ∧ (∀ cs, cs ∈ r.1.visited ↔ g.Reached paths cs) ∧
      r.1.expanded = r.1.visited.filterMap g.listed := by
  have hseen := walk_view g relativeRoot n paths
  rw [h, Option.map_some] at hseen
  refine ⟨?_, fun cs => ?_, ?_⟩
  · exact visitAll_induct List.Nodup (fun _ _ _ hs hr => visit_nodup hs hr) nodup_nil
      hseen.symm
  · have hwalked : Walked [] (MetIn g.next (paths.map OsPath.components)) _ (seen r) :=
      visitAll_walked (fun _ _ _ hp hr => visit_walked length_lt_of_child hp hr)
        (fun _ _ => settled_nil) hseen.symm
    exact (hwalked.mem_iff cs).trans (or_iff_right not_mem_nil)
  · have hstarted : g.Consistent started := rfl
    exact visitAll_induct g.Consistent (fun _ _ _ hs hr => consistent_constrFileLst hs hr)
      hstarted h

theorem nodup_expanded_iff (h : visitAll (g.constrFileLst relativeRoot n) paths started = some r) :
    r.1.expanded.Nodup ↔ g.NoShared paths := by
  obtain ⟨hnodup, hmem, hexpanded⟩ := walk_spec h
  rw [hexpanded, List.Nodup, pairwise_filterMap]
  constructor
  · intro hpairs cs ds hcs hds hlisted heq
    by_contra hne
    obtain ⟨l, hl⟩ := Option.ne_none_iff_exists'.mp hlisted
    have : Std.Symm fun cs ds =>
        ∀ l, g.listed cs = some l → ∀ l', g.listed ds = some l' → l ≠ l' :=
      ⟨fun _ _ hpair l hl l' hl' => (hpair l' hl' l hl).symm⟩
    exact hpairs.forall ((hmem cs).mpr hcs) ((hmem ds).mpr hds) hne l hl l (heq ▸ hl) rfl
  · intro hshared
    refine hnodup.imp_of_mem fun {cs ds} hcs hds hne l hl l' hl' hsame => ?_
    refine hne (hshared cs ds ((hmem cs).mp hcs) ((hmem ds).mp hds) ?_ ?_)
    · rw [hl]
      exact Option.some_ne_none l
    · rw [hl, hl', hsame]

theorem ends_of_noShared [Fintype L] (relativeRoot : Bytes) (h : g.NoShared paths) :
    ∃ r, visitAll (g.constrFileLst relativeRoot (Fintype.card L + 1)) paths started = some r := by
  obtain ⟨r, hr⟩ : ∃ r, visitAll (visit g.next (Fintype.card L + 1))
      (paths.map OsPath.components) [] = some r := by
    refine visitAll_exists (fun _ _ _ hp hr => visit_walked length_lt_of_child hp hr) ?_
      (fun _ _ => settled_nil)
    intro cs visited hturn hsettled
    refine visit_exists length_lt_of_child hsettled ?_
    refine within_of_finite g.listed (g.Reached paths) length_lt_of_child
      (fun _ _ hchild => (child_cases hchild).1) ?_ h ⟨cs, hturn, .refl⟩ [] nodup_nil nofun
      (by simp)
    exact fun _ nexts _ hreached hnext hnow => hreached.trans (.single ⟨nexts, hnext, hnow⟩)
  rw [← walk_view g relativeRoot] at hr
  obtain ⟨r, hr, -⟩ := Option.map_eq_some_iff.mp hr
  exact ⟨r, hr⟩

/-- The first of the selection has a parent, which the names are relative to. -/
def Parented (paths : List Bytes) : Prop :=
  ∃ first relativeRoot, paths.head? = some first ∧ OsPath.parent first = some relativeRoot

theorem constructFileList_cases (g : FileGraph L) (paths : List Bytes) :
    (¬Parented paths ∧ ∃ e, ∀ n, g.constructFileList n paths = some (started, some e)) ∨
      Parented paths ∧ ∃ relativeRoot, ∀ n,
        g.constructFileList n paths = visitAll (g.constrFileLst relativeRoot n) paths started := by
  cases paths with
  | nil =>
    refine .inl ⟨?_, _, fun n => rfl⟩
    rintro ⟨first, relativeRoot, hfirst, -⟩
    cases hfirst
  | cons first rest =>
    cases hparent : OsPath.parent first with
    | none =>
      refine .inl ⟨?_, .invalidRequest "empty parent", fun n => ?_⟩
      · rintro ⟨p, relativeRoot, hp, hroot⟩
        cases hp
        rw [hparent] at hroot
        cases hroot
      · rw [constructFileList, hparent]
    | some relativeRoot =>
      refine .inr ⟨⟨first, relativeRoot, rfl, hparent⟩, relativeRoot, fun n => ?_⟩
      rw [constructFileList, hparent]

/-- More levels do not change a result. -/
theorem constructFileList_mono {m : Nat} (hle : n ≤ m)
    (h : g.constructFileList n paths = some r) : g.constructFileList m paths = some r := by
  rcases constructFileList_cases g paths with ⟨-, e, hfails⟩ | ⟨-, root, hwalk⟩
  · rw [hfails] at h ⊢
    exact h
  · rw [hwalk] at h ⊢
    exact visitAll_mono (fun _ _ _ => constrFileLst_mono hle) h

/-- The walk ends, and no directory is read twice. -/
def EndsOnce (g : FileGraph L) (paths : List Bytes) : Prop :=
  ∃ n r, g.constructFileList n paths = some r ∧ r.1.expanded.Nodup

/-- **The walk ends and reads no directory twice exactly if none is reached along two
paths.**  A selection without a parent is refused before the walk. -/
theorem constructFileList_ends_iff [Fintype L] (g : FileGraph L) (paths : List Bytes) :
    g.EndsOnce paths ↔ (Parented paths → g.NoShared paths) := by
  rcases constructFileList_cases g paths with ⟨hparent, e, hfails⟩ | ⟨hparent, root, hwalk⟩
  · exact iff_of_true ⟨0, _, hfails 0, nodup_nil⟩ fun h => absurd h hparent
  · constructor
    · rintro ⟨n, r, hr, hnodup⟩ -
      rw [hwalk] at hr
      exact (nodup_expanded_iff hr).mp hnodup
    · intro h
      obtain ⟨r, hr⟩ := ends_of_noShared root (h hparent)
      exact ⟨_, r, (hwalk _).trans hr, (nodup_expanded_iff hr).mpr (h hparent)⟩

/-- `a`. -/
def folderName : Bytes := [0x61]

/-- `l`. -/
def linkName : Bytes := [0x6C]

/-- A root with the directory `a` in it, in which the link `l` leads to `a`. -/
def looped : FileGraph Bool where
  root := false
  cwd := false
  up _ := false
  metadata _ := ⟨0, 0o755, some 0, by decide, by decide⟩
  entries l := some (if l then [(linkName, .link (some true))] else [(folderName, .object true)])
  readable _ := true
  names := by
    intro l es e hes he
    cases hes
    cases l <;> obtain rfl := mem_singleton.mp he <;> decide
  nodup := by
    intro l es hes
    cases hes
    cases l <;> exact nodup_singleton _

/-- The path `/a`, and so often through the link. -/
def throughLink (i : Nat) : List Bytes :=
  [[OsPath.sep], folderName] ++ List.replicate i linkName

theorem throughLink_succ (i : Nat) : throughLink (i + 1) = throughLink i ++ [linkName] := by
  rw [throughLink, throughLink, replicate_succ', append_assoc]

theorem locate_throughLink (i : Nat) : looped.locate (throughLink i) = some true := by
  have hfold : (throughLink i).foldlM looped.step looped.cwd = some true := by
    induction i with
    | zero => decide
    | succ i ih =>
      rw [throughLink_succ, foldlM_append, ih]
      decide
  exact hfold

theorem next_throughLink (i : Nat) : looped.next (throughLink i) = some [throughLink (i + 1)] := by
  rw [next, locate_throughLink, throughLink_succ]
  rfl

/-- **Through a link to itself a directory is read without end.** -/
theorem looped_never_ends :
    (∀ n, looped.constructFileList n [OsPath.sep :: folderName] = none) ∧
      ¬looped.EndsOnce [OsPath.sep :: folderName] := by
  have hreached (i : Nat) : looped.Reached [OsPath.sep :: folderName] (throughLink i) := by
    refine ⟨throughLink 0, .inl (by decide), ?_⟩
    induction i with
    | zero => exact .refl
    | succ i ih => exact ih.tail ⟨_, next_throughLink i, .inl rfl⟩
  have hinjective : Function.Injective throughLink := by
    intro i j heq
    simpa [throughLink] using congrArg List.length heq
  have hnone (n : Nat) : looped.constructFileList n [OsPath.sep :: folderName] = none := by
    rw [Option.eq_none_iff_forall_ne_some]
    intro r hr
    have hparent : OsPath.parent (OsPath.sep :: folderName) = some [OsPath.sep] := by decide
    rw [constructFileList, hparent] at hr
    refine Set.infinite_of_injective_forall_mem hinjective (fun i => ?_) (finite_toSet r.1.visited)
    exact ((walk_spec hr).2.1 _).mpr (hreached i)
  refine ⟨hnone, ?_⟩
  rintro ⟨n, r, hr, -⟩
  rw [hnone n] at hr
  cases hr

end FileGraph
end RustDesk
