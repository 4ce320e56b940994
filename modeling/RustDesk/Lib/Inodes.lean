import Mathlib.Data.List.AList

/-!
# A file system of inodes

Files are numbered; a directory gives names to some of them.  A path is followed from
directory to directory, through symbolic links, while an open descriptor stays with the file
it was opened for, wherever that is moved.

Users other than the superuser change a file system by `act`.  They change the entries of a
directory with write permission on it, remove or rename an entry of a sticky directory only as
owner of the file or of the directory, and change the mode of their own files.

**An entry of a directory of the superuser is `Held` if others have no write permission on the
directory, or if it is sticky and the file is the superuser's**; what users do leaves it
(`Held.act`), and what the superuser does as long as it does not remove it.
-/

namespace Inodes

abbrev Inode := Nat
abbrev Uid := Nat
abbrev Name := String

/-- The permission bits, with set-user-id, set-group-id and sticky. -/
abbrev Mode := BitVec 12

namespace Mode

/-- `S_IWUSR`. -/
def ownerWrite (m : Mode) : Bool := m.getLsbD 7

/-- `S_IWGRP` or `S_IWOTH`; which groups a user is in is left open. -/
def othersWrite (m : Mode) : Bool := m.getLsbD 4 || m.getLsbD 1

/-- `S_ISVTX`. -/
def sticky (m : Mode) : Bool := m.getLsbD 9

end Mode

inductive FileType where
  | directory
  | symlink (absolute : Bool) (target : List Name)
  | regular
  | socket
  | fifo
  deriving DecidableEq

inductive Kind where
  | directory (parent : Inode) (entries : AList fun _ : Name => Inode)
  | symlink (absolute : Bool) (target : List Name)
  | regular
  | socket
  | fifo

def Kind.fileType : Kind → FileType
  | .directory .. => .directory
  | .symlink absolute target => .symlink absolute target
  | .regular => .regular
  | .socket => .socket
  | .fifo => .fifo

structure Node where
  owner : Uid
  mode : Mode
  kind : Kind

/-- What `fstat` tells of a file. -/
structure Stat where
  fileType : FileType
  owner : Uid
  mode : Mode
  deriving DecidableEq

inductive Errno where
  | noent
  | exist
  | other
  deriving DecidableEq

namespace Node

variable (x : Node)

def stat : Stat := ⟨x.kind.fileType, x.owner, x.mode⟩

def entries : AList fun _ : Name => Inode :=
  match x.kind with
  | .directory _ entries => entries
  | _ => ∅

def withEntries (f : (AList fun _ : Name => Inode) → AList fun _ : Name => Inode) : Node :=
  match x.kind with
  | .directory parent entries => { x with kind := .directory parent (f entries) }
  | _ => x

def moved (parent : Inode) : Node :=
  match x.kind with
  | .directory _ entries => { x with kind := .directory parent entries }
  | _ => x

def writable (uid : Uid) : Bool :=
  if x.owner = uid then x.mode.ownerWrite else x.mode.othersWrite

@[simp] theorem stat_withEntries (f : (AList fun _ : Name => Inode) → AList fun _ : Name => Inode) :
    (x.withEntries f).stat = x.stat := by
  unfold withEntries
  split <;> simp [stat, Kind.fileType, *]

@[simp] theorem stat_moved (parent : Inode) : (x.moved parent).stat = x.stat := by
  unfold moved
  split <;> simp [stat, Kind.fileType, *]

@[simp] theorem entries_moved (parent : Inode) : (x.moved parent).entries = x.entries := by
  unfold moved
  split <;> simp [entries, *]

theorem entries_withEntries (f : (AList fun _ : Name => Inode) → AList fun _ : Name => Inode)
    (hdir : x.stat.fileType = .directory) : (x.withEntries f).entries = f x.entries := by
  obtain ⟨owner, mode, kind⟩ := x
  cases kind with
  | directory parent entries => rfl
  | symlink | regular | socket | fifo => cases hdir

theorem entries_of_not_directory (hdir : x.stat.fileType ≠ .directory) : x.entries = ∅ := by
  obtain ⟨owner, mode, kind⟩ := x
  cases kind with
  | directory parent entries => exact absurd rfl hdir
  | symlink | regular | socket | fifo => rfl

end Node

structure FileSystem where
  nodes : List Node

def root : Inode := 0

def maxLinks : Nat := 40

namespace FileSystem

variable (fs : FileSystem)

def node (i : Inode) : Option Node := fs.nodes[i]?

def stat (i : Inode) : Option Stat := (fs.node i).map (·.stat)

def lookup (d : Inode) (n : Name) : Option Inode := (fs.node d).bind (·.entries.lookup n)

def linkAt (i : Inode) : Option (Bool × List Name) :=
  match fs.stat i with
  | some ⟨.symlink absolute target, _, _⟩ => some (absolute, target)
  | _ => none

/-- The directory that `..` leads to. -/
def parent (i : Inode) : Option Inode :=
  match fs.node i with
  | some ⟨_, _, .directory parent _⟩ => some parent
  | _ => none

/-- The way along some names up to the first link, and from there as `follow` says. -/
def walkWith (follow : Inode → List Name → Option Inode) : Inode → List Name → Option Inode
  | i, [] => some i
  | i, n :: ns =>
    if n = "." then walkWith follow i ns
    else if n = ".." then (fs.parent i).bind (walkWith follow · ns)
    else (fs.lookup i n).bind fun j =>
      match fs.linkAt j with
      | some (absolute, target) => follow (if absolute then root else i) (target ++ ns)
      | none => walkWith follow j ns

def walk : Nat → Inode → List Name → Option Inode
  | 0 => fs.walkWith fun _ _ => none
  | k + 1 => fs.walkWith (walk k)

def resolve (path : List Name) : Option Inode := fs.walk maxLinks root path

def modify (i : Inode) (f : Node → Node) : FileSystem := ⟨fs.nodes.modify i f⟩

def putEntry (d : Inode) (n : Name) (i : Inode) : FileSystem :=
  fs.modify d (·.withEntries (·.insert n i))

def dropEntry (d : Inode) (n : Name) : FileSystem := fs.modify d (·.withEntries (·.erase n))

def create (d : Inode) (n : Name) (x : Node) : Except Errno (FileSystem × Inode) :=
  if (fs.stat d).map (·.fileType) ≠ some .directory then .error .other
  else if (fs.lookup d n).isSome then .error .exist
  else .ok ((FileSystem.mk (fs.nodes ++ [x])).putEntry d n fs.nodes.length, fs.nodes.length)

def mkdir (uid : Uid) (d : Inode) (n : Name) (mode : Mode) : Except Errno (FileSystem × Inode) :=
  fs.create d n ⟨uid, mode, .directory d ∅⟩

def removable (i : Inode) (rmdir : Bool) : Bool :=
  match fs.node i with
  | some x =>
    if x.kind.fileType = .directory then rmdir && x.entries.keys.isEmpty else !rmdir
  | none => false

/-- `unlink`, or `rmdir`. -/
def unlink (d : Inode) (n : Name) (rmdir : Bool) : Except Errno FileSystem :=
  match fs.lookup d n with
  | none => .error .noent
  | some i => if fs.removable i rmdir then .ok (fs.dropEntry d n) else .error .other

def chmod (i : Inode) (mode : Mode) : FileSystem := fs.modify i ({ · with mode })

def chown (i : Inode) (owner : Uid) : FileSystem := fs.modify i ({ · with owner })

def inParent (path : List Name) : Except Errno (Inode × Name) :=
  match path.getLast?, fs.resolve path.dropLast with
  | some n, some d => .ok (d, n)
  | _, _ => .error .noent

/-- `open` of a directory with `O_NOFOLLOW`. -/
def openDirectory (path : List Name) : Except Errno Inode := do
  let (d, n) ← fs.inParent path
  match fs.lookup d n with
  | none => .error .noent
  | some i => if (fs.stat i).map (·.fileType) = some .directory then .ok i else .error .other

/-- `bind` of a socket. -/
def bind (uid : Uid) (path : List Name) (mode : Mode) : Except Errno (FileSystem × Inode) := do
  let (d, n) ← fs.inParent path
  fs.create d n ⟨uid, mode, .socket⟩

/-- `chmod` of a path. -/
def chmodPath (path : List Name) (mode : Mode) : Except Errno FileSystem :=
  match fs.resolve path with
  | some i => .ok (fs.chmod i mode)
  | none => .error .noent

/-- `open` for writing with `O_CREAT` and `O_NOFOLLOW`. -/
def openWrite (uid : Uid) (path : List Name) (mode : Mode) :
    Except Errno (FileSystem × Inode) := do
  let (d, n) ← fs.inParent path
  match fs.lookup d n with
  | none => fs.create d n ⟨uid, mode, .regular⟩
  | some i => if (fs.stat i).map (·.fileType) = some .regular then .ok (fs, i) else .error .other

end FileSystem

inductive Action where
  | mkdir (d : Inode) (n : Name) (mode : Mode)
  | create (d : Inode) (n : Name) (kind : Kind) (mode : Mode)
  | link (i : Inode) (d : Inode) (n : Name)
  | unlink (d : Inode) (n : Name) (rmdir : Bool)
  | rename (d : Inode) (n : Name) (d' : Inode) (n' : Name)
  | chmod (i : Inode) (mode : Mode)

namespace FileSystem

variable (fs : FileSystem)

def canChange (uid : Uid) (d : Inode) : Bool := (fs.node d).any (·.writable uid)

def owns (uid : Uid) (i : Inode) : Bool := (fs.stat i).any (·.owner = uid)

def canRemove (uid : Uid) (d : Inode) (n : Name) : Bool :=
  fs.canChange uid d &&
    (!(fs.stat d).any (·.mode.sticky) || fs.owns uid d || (fs.lookup d n).any (fs.owns uid ·))

def replaces (i j : Inode) : Bool :=
  fs.removable j ((fs.stat i).map (·.fileType) = some .directory)

/-- Permission to rename an entry, and what stands under the new name gives way.  A directory
needs write permission on itself to move to another one.  It may be moved into itself here,
which a system refuses. -/
def canRename (uid : Uid) (d : Inode) (n : Name) (d' : Inode) (n' : Name) (i : Inode) : Bool :=
  fs.canRemove uid d n && fs.canChange uid d' &&
    (fs.lookup d' n').all (fun j => i ≠ j && fs.canRemove uid d' n' && fs.replaces i j) &&
    (d = d' || (fs.stat i).all (·.fileType ≠ .directory) || fs.canChange uid i)

def rename (uid : Uid) (d : Inode) (n : Name) (d' : Inode) (n' : Name) : FileSystem :=
  match fs.lookup d n with
  | none => fs
  | some i =>
    if fs.canRename uid d n d' n' i then
      ((fs.dropEntry d n).putEntry d' n' i).modify i (·.moved d')
    else fs

def act (uid : Uid) : Action → FileSystem
  | .mkdir d n mode =>
    if fs.canChange uid d then ((fs.mkdir uid d n mode).toOption.map (·.1)).getD fs else fs
  | .create d n kind mode =>
    if fs.canChange uid d ∧ kind.fileType ≠ .directory then
      ((fs.create d n ⟨uid, mode, kind⟩).toOption.map (·.1)).getD fs
    else fs
  | .link i d n =>
    if fs.canChange uid d ∧ (fs.stat i).any (·.fileType ≠ .directory) ∧ fs.lookup d n = none then
      fs.putEntry d n i
    else fs
  | .unlink d n rmdir =>
    if fs.canRemove uid d n then (fs.unlink d n rmdir).toOption.getD fs else fs
  | .rename d n d' n' => fs.rename uid d n d' n'
  | .chmod i mode => if fs.owns uid i then fs.chmod i mode else fs

variable {fs}

theorem node_modify (i j : Inode) (f : Node → Node) :
    (fs.modify i f).node j = if j = i then (fs.node j).map f else fs.node j := by
  unfold modify node
  rw [List.getElem?_modify]
  by_cases hj : j = i
  · simp [hj]
  · simp [hj, Ne.symm hj]

theorem stat_modify_of_ne {i j : Inode} (hne : j ≠ i) (f : Node → Node) :
    (fs.modify i f).stat j = fs.stat j := by
  simp [stat, node_modify, hne]

theorem lookup_modify_of_ne {i d : Inode} (hne : d ≠ i) (f : Node → Node) (n : Name) :
    (fs.modify i f).lookup d n = fs.lookup d n := by
  simp [lookup, node_modify, hne]

theorem stat_modify {f : Node → Node} (hf : ∀ x, (f x).stat = x.stat) (i j : Inode) :
    (fs.modify i f).stat j = fs.stat j := by
  by_cases hj : j = i
  · subst hj
    cases hx : fs.node j with
    | none => simp [stat, node_modify, hx]
    | some x => simp [stat, node_modify, hx, hf]
  · exact stat_modify_of_ne hj f

@[simp] theorem stat_putEntry (d : Inode) (n : Name) (i j : Inode) :
    (fs.putEntry d n i).stat j = fs.stat j :=
  stat_modify (fun x => x.stat_withEntries _) d j

@[simp] theorem stat_dropEntry (d : Inode) (n : Name) (j : Inode) :
    (fs.dropEntry d n).stat j = fs.stat j :=
  stat_modify (fun x => x.stat_withEntries _) d j

variable {n : Name} {d i : Inode}

theorem stat_of_lookup (h : fs.lookup d n = some i) :
    ∃ st, fs.stat d = some st ∧ st.fileType = .directory := by
  unfold lookup at h
  cases hx : fs.node d with
  | none => rw [hx] at h; cases h
  | some x =>
    rw [hx] at h
    by_cases hdir : x.stat.fileType = .directory
    · exact ⟨x.stat, by simp [stat, hx], hdir⟩
    · simp [x.entries_of_not_directory hdir] at h

variable {j : Inode}

theorem lookup_modify_withEntries {d e : Inode} {n : Name}
    {f : (AList fun _ : Name => Inode) → AList fun _ : Name => Inode}
    (hf : d = e → ∀ entries, (f entries).lookup n = entries.lookup n)
    (h : fs.lookup d n = some j) : (fs.modify e (·.withEntries f)).lookup d n = some j := by
  by_cases hd : d = e
  · obtain ⟨st, hst, hdir⟩ := stat_of_lookup h
    obtain ⟨x, hx, rfl⟩ := Option.map_eq_some_iff.mp hst
    unfold lookup at h ⊢
    rw [hx] at h
    rw [node_modify, if_pos hd, hx]
    simpa [x.entries_withEntries _ hdir, hf hd] using h
  · rw [lookup_modify_of_ne hd]
    exact h

theorem lookup_putEntry_of_ne {d e : Inode} {n m : Name} (hne : d ≠ e ∨ n ≠ m) (i : Inode)
    (h : fs.lookup d n = some j) : (fs.putEntry e m i).lookup d n = some j :=
  lookup_modify_withEntries
    (fun hself _ => AList.lookup_insert_ne (hne.resolve_left fun hd => hd hself)) h

theorem lookup_dropEntry_of_ne {d e : Inode} {n m : Name} (hne : d ≠ e ∨ n ≠ m)
    (h : fs.lookup d n = some j) : (fs.dropEntry e m).lookup d n = some j :=
  lookup_modify_withEntries
    (fun hself _ => AList.lookup_erase_ne (hne.resolve_left fun hd => hd hself)) h

variable {st : Stat}

theorem lookup_putEntry_self (hst : fs.stat d = some st)
    (hdir : st.fileType = .directory) : (fs.putEntry d n i).lookup d n = some i := by
  obtain ⟨x, hx, rfl⟩ := Option.map_eq_some_iff.mp hst
  unfold lookup
  rw [putEntry, node_modify, if_pos rfl, hx]
  simp [x.entries_withEntries _ hdir, AList.lookup_insert]

theorem node_append (x : Node) {i : Inode} {y : Node} (h : fs.node i = some y) :
    (FileSystem.mk (fs.nodes ++ [x])).node i = some y := by
  unfold node at h ⊢
  rw [List.getElem?_append_left (List.getElem?_eq_some_iff.mp h).1]
  exact h

theorem stat_append (x : Node) {i : Inode} (h : fs.stat i = some st) :
    (FileSystem.mk (fs.nodes ++ [x])).stat i = some st := by
  obtain ⟨y, hy, rfl⟩ := Option.map_eq_some_iff.mp h
  simp [stat, node_append x hy]

theorem lookup_append (x : Node) (h : fs.lookup d n = some i) :
    (FileSystem.mk (fs.nodes ++ [x])).lookup d n = some i := by
  obtain ⟨y, hy, hi⟩ := Option.bind_eq_some_iff.mp h
  simp [lookup, node_append x hy, hi]

variable {fs' : FileSystem}

/-- **What `create` does**, when it succeeds: the file is new, its entry is made, and no other
entry changes. -/
theorem create_eq_ok {d : Inode} {x : Node} {i : Inode} (h : fs.create d n x = .ok (fs', i)) :
    fs'.lookup d n = some i ∧ fs'.stat i = some x.stat ∧ fs.stat i = none ∧
      (∀ j st, fs.stat j = some st → fs'.stat j = some st) ∧
      ∀ e m j, fs.lookup e m = some j → fs'.lookup e m = some j := by
  unfold create at h
  split at h
  · cases h
  · rename_i hdir
    split at h
    · cases h
    · rename_i hnone
      cases h
      obtain ⟨st, hst, htype⟩ := Option.map_eq_some_iff.mp (Decidable.not_not.mp hdir)
      have hnew : (FileSystem.mk (fs.nodes ++ [x])).stat fs.nodes.length = some x.stat := by
        simp [stat, node]
      refine ⟨lookup_putEntry_self (stat_append x hst) htype, ?_, ?_, fun j st hj => ?_,
        fun e m j hj => lookup_putEntry_of_ne ?_ _ (lookup_append x hj)⟩
      · rw [stat_putEntry]
        exact hnew
      · simp [stat, node]
      · rw [stat_putEntry]
        exact stat_append x hj
      · by_cases he : e = d
        · subst he
          right
          rintro rfl
          exact hnone (by rw [hj]; rfl)
        · exact .inl he

theorem lookup_modify {f : Node → Node} (hf : ∀ x, (f x).entries = x.entries) (i d : Inode)
    (n : Name) : (fs.modify i f).lookup d n = fs.lookup d n := by
  by_cases hd : d = i
  · subst hd
    cases hx : fs.node d with
    | none => simp [lookup, node_modify, hx]
    | some x => simp [lookup, node_modify, hx, hf]
  · exact lookup_modify_of_ne hd f n

@[simp] theorem lookup_chmod (i d : Inode) (mode : Mode) (n : Name) :
    (fs.chmod i mode).lookup d n = fs.lookup d n := by
  refine lookup_modify ?_ i d n
  exact fun _ => rfl

@[simp] theorem lookup_chown (i d : Inode) (owner : Uid) (n : Name) :
    (fs.chown i owner).lookup d n = fs.lookup d n := by
  refine lookup_modify ?_ i d n
  exact fun _ => rfl

theorem stat_chmod {i : Inode} (h : fs.stat i = some st) (mode : Mode) :
    (fs.chmod i mode).stat i = some { st with mode } := by
  obtain ⟨x, hx, rfl⟩ := Option.map_eq_some_iff.mp h
  simp [chmod, stat, node_modify, hx, Node.stat]

theorem stat_chown {i : Inode} (h : fs.stat i = some st) (owner : Uid) :
    (fs.chown i owner).stat i = some { st with owner } := by
  obtain ⟨x, hx, rfl⟩ := Option.map_eq_some_iff.mp h
  simp [chown, stat, node_modify, hx, Node.stat]

theorem stat_chmod_of_ne {i j : Inode} (hne : j ≠ i) (mode : Mode) :
    (fs.chmod i mode).stat j = fs.stat j :=
  stat_modify_of_ne hne _

theorem stat_chown_of_ne {i j : Inode} (hne : j ≠ i) (owner : Uid) :
    (fs.chown i owner).stat j = fs.stat j :=
  stat_modify_of_ne hne _

/-- **What a successful `unlink` does**: no other entry changes. -/
theorem unlink_eq_ok {e : Inode} {m : Name} {rmdir : Bool}
    (h : fs.unlink e m rmdir = .ok fs') : fs' = fs.dropEntry e m := by
  unfold unlink at h
  split at h
  · cases h
  · split at h
    · exact (Except.ok.inj h).symm
    · cases h

theorem linkAt_of_stat {i : Inode} (h : fs.stat i = some st)
    (hlink : st.fileType = .directory ∨ st.fileType = .socket) : fs.linkAt i = none := by
  obtain ⟨fileType, owner, mode⟩ := st
  unfold linkAt
  rw [h]
  rcases hlink with rfl | rfl <;> rfl

theorem linkAt_of_link {i : Inode} {absolute : Bool} {target : List Name} {owner : Uid}
    {mode : Mode} (h : fs.stat i = some ⟨.symlink absolute target, owner, mode⟩) :
    fs.linkAt i = some (absolute, target) := by
  unfold linkAt
  rw [h]

@[simp] theorem walk_nil (k : Nat) (i : Inode) : fs.walk k i [] = some i := by
  cases k <;> rfl

theorem walk_of_lookup {i j : Inode} (h : fs.lookup i n = some j)
    (hlink : fs.linkAt j = none) (hdot : n ≠ ".") (hdotdot : n ≠ "..") (k : Nat)
    (ns : List Name) : fs.walk k i (n :: ns) = fs.walk k j ns := by
  cases k <;> simp [walk, walkWith, hdot, hdotdot, h, hlink]

theorem walk_of_link {i j : Inode} {absolute : Bool} {target : List Name}
    (h : fs.lookup i n = some j) (hlink : fs.linkAt j = some (absolute, target)) (hdot : n ≠ ".")
    (hdotdot : n ≠ "..") (k : Nat) (ns : List Name) :
    fs.walk (k + 1) i (n :: ns) = fs.walk k (if absolute then root else i) (target ++ ns) := by
  simp [walk, walkWith, hdot, hdotdot, h, hlink]

/-- **An entry that users cannot change.** -/
def Held (fs : FileSystem) (d : Inode) (n : Name) (i : Inode) : Prop :=
  fs.lookup d n = some i ∧ ∃ st, fs.stat d = some st ∧ st.owner = 0 ∧
    (st.mode.othersWrite = false ∨
      st.mode.sticky = true ∧ ∃ st', fs.stat i = some st' ∧ st'.owner = 0)

variable {uid : Uid}

theorem Held.not_canRemove (h : fs.Held d n i) (huid : uid ≠ 0) : fs.canRemove uid d n = false := by
  obtain ⟨hlookup, st, hst, howner, hmode⟩ := h
  obtain ⟨x, hx, rfl⟩ := Option.map_eq_some_iff.mp hst
  have hwrite : x.writable uid = x.mode.othersWrite :=
    if_neg fun heq => huid (heq.symm.trans howner)
  rcases hmode with hclosed | ⟨hsticky, st', hst', howner'⟩
  · have hchange : fs.canChange uid d = false := by
      rw [canChange, hx]
      exact hwrite.trans hclosed
    rw [canRemove, hchange, Bool.false_and]
  · have hdir : fs.owns uid d = false := by
      rw [owns, hst]
      exact decide_eq_false fun heq => huid (heq.symm.trans howner)
    have hfile : fs.owns uid i = false := by
      rw [owns, hst']
      exact decide_eq_false fun heq => huid (heq.symm.trans howner')
    have hany : (fs.stat d).any (·.mode.sticky) = true := by
      rw [hst]
      exact hsticky
    rw [canRemove, hany, hdir, hlookup]
    simp [hfile]

theorem stat_create {d : Inode} {x : Node} (h : fs.stat j = some st) :
    (((fs.create d n x).toOption.map (·.1)).getD fs).stat j = some st := by
  cases hc : fs.create d n x with
  | error => exact h
  | ok p => exact (create_eq_ok hc).2.2.2.1 j st h

theorem lookup_create {d : Inode} {x : Node} {e j : Inode} {m : Name} (h : fs.lookup e m = some j) :
    (((fs.create d n x).toOption.map (·.1)).getD fs).lookup e m = some j := by
  cases hc : fs.create d n x with
  | error => exact h
  | ok p => exact (create_eq_ok hc).2.2.2.2 e m j h

theorem stat_rename (uid : Uid) (d : Inode) (n : Name) (d' : Inode) (n' : Name) (j : Inode) :
    (fs.rename uid d n d' n').stat j = fs.stat j := by
  unfold rename
  split
  · rfl
  · split
    · rw [stat_modify fun x => x.stat_moved d', stat_putEntry, stat_dropEntry]
    · rfl

/-- **What a user does leaves each file its type and owner**, and those of the superuser their
mode. -/
theorem stat_act (huid : uid ≠ 0) (a : Action) {i : Inode} (h : fs.stat i = some st) :
    ∃ mode, (fs.act uid a).stat i = some { st with mode } ∧ (st.owner = 0 → mode = st.mode) := by
  have hsame : ∀ fs' : FileSystem, fs'.stat i = some st →
      ∃ mode, fs'.stat i = some { st with mode } ∧ (st.owner = 0 → mode = st.mode) :=
    fun _ hst => ⟨st.mode, hst, fun _ => rfl⟩
  cases a with
  | mkdir d n mode =>
    refine hsame _ ?_
    rw [FileSystem.act, mkdir]
    split
    · exact stat_create h
    · exact h
  | create d n kind mode =>
    refine hsame _ ?_
    rw [FileSystem.act]
    split
    · exact stat_create h
    · exact h
  | link j d n =>
    refine hsame _ ?_
    rw [FileSystem.act]
    split
    · rw [stat_putEntry]
      exact h
    · exact h
  | unlink d n rmdir =>
    refine hsame _ ?_
    rw [FileSystem.act]
    split
    · cases hu : fs.unlink d n rmdir with
      | error => exact h
      | ok fs' =>
        rw [unlink_eq_ok hu]
        exact (stat_dropEntry d n i).trans h
    · exact h
  | rename d n d' n' => exact hsame _ ((stat_rename uid d n d' n' i).trans h)
  | chmod j mode =>
    rw [FileSystem.act]
    split
    case isTrue howns =>
      by_cases hj : i = j
      · subst hj
        rw [owns, h] at howns
        have howner : st.owner = uid := of_decide_eq_true howns
        exact ⟨mode, stat_chmod h mode, fun hzero => absurd (howner.symm.trans hzero) huid⟩
      · exact hsame _ ((stat_chmod_of_ne hj mode).trans h)
    case isFalse => exact hsame _ h

theorem lookup_rename {d e i : Inode} {n m : Name} (h : fs.Held d n i)
    (huid : uid ≠ 0) (e' : Inode) (m' : Name) : (fs.rename uid e m e' m').lookup d n = some i := by
  unfold rename
  split
  case h_1 => exact h.1
  case h_2 j hj =>
    split
    case isFalse => exact h.1
    case isTrue hallowed =>
      simp only [canRename, Bool.and_eq_true] at hallowed
      obtain ⟨⟨⟨hremove, -⟩, hfree⟩, -⟩ := hallowed
      -- neither the old nor the new entry is the one that is held
      have hold : d ≠ e ∨ n ≠ m := by
        by_contra hsame
        obtain ⟨rfl, rfl⟩ : d = e ∧ n = m := by tauto
        rw [h.not_canRemove huid] at hremove
        cases hremove
      have hnew : d ≠ e' ∨ n ≠ m' := by
        by_contra hsame
        obtain ⟨rfl, rfl⟩ : d = e' ∧ n = m' := by tauto
        rw [h.1] at hfree
        simp [h.not_canRemove huid] at hfree
      rw [lookup_modify fun x => x.entries_moved e']
      exact lookup_putEntry_of_ne hnew j (lookup_dropEntry_of_ne hold h.1)

theorem Held.lookup_act (h : fs.Held d n i) (huid : uid ≠ 0)
    (a : Action) : (fs.act uid a).lookup d n = some i := by
  cases a with
  | mkdir e m mode =>
    rw [FileSystem.act, mkdir]
    split
    · exact lookup_create h.1
    · exact h.1
  | create e m kind mode =>
    rw [FileSystem.act]
    split
    · exact lookup_create h.1
    · exact h.1
  | link j e m =>
    rw [FileSystem.act]
    split
    case isTrue hfree =>
      refine lookup_putEntry_of_ne ?_ j h.1
      by_contra hsame
      obtain ⟨rfl, rfl⟩ : d = e ∧ n = m := by tauto
      exact absurd (h.1.symm.trans hfree.2.2) nofun
    case isFalse => exact h.1
  | unlink e m rmdir =>
    rw [FileSystem.act]
    split
    case isTrue hremove =>
      cases hu : fs.unlink e m rmdir with
      | error => exact h.1
      | ok fs' =>
        rw [unlink_eq_ok hu]
        refine lookup_dropEntry_of_ne ?_ h.1
        by_contra hsame
        obtain ⟨rfl, rfl⟩ : d = e ∧ n = m := by tauto
        rw [h.not_canRemove huid] at hremove
        cases hremove
    case isFalse => exact h.1
  | rename e m e' m' => exact lookup_rename h huid e' m'
  | chmod j mode =>
    rw [FileSystem.act]
    split
    · rw [lookup_chmod]
      exact h.1
    · exact h.1

theorem Held.act (h : fs.Held d n i) (huid : uid ≠ 0) (a : Action) : (fs.act uid a).Held d n i := by
  have hlookup := h.lookup_act huid a
  obtain ⟨-, st, hst, howner, hmode⟩ := h
  have hkeep : ∀ j st, fs.stat j = some st → st.owner = 0 → (fs.act uid a).stat j = some st := by
    intro j st hj hzero
    obtain ⟨mode, hact, hsame⟩ := stat_act huid a hj
    rw [hsame hzero] at hact
    exact hact
  refine ⟨hlookup, st, hkeep d st hst howner, howner, ?_⟩
  rcases hmode with hclosed | ⟨hsticky, st', hst', howner'⟩
  · exact .inl hclosed
  · exact .inr ⟨hsticky, st', hkeep i st' hst' howner', howner'⟩

theorem Held.of_create {d i e j : Inode} {n m : Name} {x : Node}
    (h : fs.Held d n i) (hc : fs.create e m x = .ok (fs', j)) : fs'.Held d n i := by
  obtain ⟨-, -, -, hstat, hentry⟩ := create_eq_ok hc
  obtain ⟨hlookup, st, hst, howner, hmode⟩ := h
  refine ⟨hentry d n i hlookup, st, hstat d st hst, howner, ?_⟩
  rcases hmode with hclosed | ⟨hsticky, st', hst', howner'⟩
  · exact .inl hclosed
  · exact .inr ⟨hsticky, st', hstat i st' hst', howner'⟩

theorem Held.dropEntry {d i e : Inode} {n m : Name} (h : fs.Held d n i) (hne : d ≠ e ∨ n ≠ m) :
    (fs.dropEntry e m).Held d n i := by
  obtain ⟨hlookup, st, hst, howner, hmode⟩ := h
  refine ⟨lookup_dropEntry_of_ne hne hlookup, st, (stat_dropEntry e m d).trans hst, howner, ?_⟩
  rcases hmode with hclosed | ⟨hsticky, st', hst', howner'⟩
  · exact .inl hclosed
  · exact .inr ⟨hsticky, st', (stat_dropEntry e m i).trans hst', howner'⟩

theorem stat_chown_root {i j : Inode} (h : fs.stat j = some st)
    (howner : st.owner = 0) : (fs.chown i 0).stat j = some st := by
  by_cases hj : j = i
  · subst hj
    rw [stat_chown h 0, ← howner]
  · exact (stat_chown_of_ne hj 0).trans h

theorem Held.chown (h : fs.Held d n i) (j : Inode) : (fs.chown j 0).Held d n i := by
  obtain ⟨hlookup, st, hst, howner, hmode⟩ := h
  refine ⟨(lookup_chown j d 0 n).trans hlookup, st, stat_chown_root hst howner, howner, ?_⟩
  rcases hmode with hclosed | ⟨hsticky, st', hst', howner'⟩
  · exact .inl hclosed
  · exact .inr ⟨hsticky, st', stat_chown_root hst' howner', howner'⟩

theorem Held.chmod {d i j : Inode} {mode : Mode} (h : fs.Held d n i)
    (hmode : mode.othersWrite = false ∨ ∃ st, fs.stat j = some st ∧ st.fileType ≠ .directory) :
    (fs.chmod j mode).Held d n i := by
  obtain ⟨hlookup, st, hst, howner, hbits⟩ := h
  have hentry : (fs.chmod j mode).lookup d n = some i := (lookup_chmod j d mode n).trans hlookup
  by_cases hd : d = j
  · subst hd
    refine ⟨hentry, { st with mode }, stat_chmod hst mode, howner, .inl ?_⟩
    rcases hmode with hclosed | ⟨st', hst', htype⟩
    · exact hclosed
    · obtain ⟨st'', hst'', hdir⟩ := stat_of_lookup hlookup
      exact absurd (Option.some.inj (hst''.symm.trans hst') ▸ hdir) htype
  · refine ⟨hentry, st, (stat_chmod_of_ne hd mode).trans hst, howner, ?_⟩
    rcases hbits with hclosed | ⟨hsticky, st', hst', howner'⟩
    · exact .inl hclosed
    · by_cases hi : i = j
      · subst hi
        exact .inr ⟨hsticky, { st' with mode }, stat_chmod hst' mode, howner'⟩
      · exact .inr ⟨hsticky, st', (stat_chmod_of_ne hi mode).trans hst', howner'⟩

/-- **A way along held entries**, whose names are in `P`, through directories and through links
that are followed: from `i` the names lead to `t`, and of `k` links `k'` are left. -/
inductive Leads (fs : FileSystem) (P : Name → Prop) :
    Nat → Inode → List Name → Nat → Inode → Prop
  | here (k : Nat) (i : Inode) : Leads fs P k i [] k i
  | down {k k' : Nat} {i j t : Inode} {n : Name} {ns : List Name} (held : fs.Held i n j)
      (name : P n ∧ n ≠ "." ∧ n ≠ "..")
      (dir : ∃ st, fs.stat j = some st ∧ st.fileType = .directory)
      (rest : Leads fs P k j ns k' t) : Leads fs P k i (n :: ns) k' t
  | follow {k k' : Nat} {i j t : Inode} {n : Name} {ns : List Name} {absolute : Bool}
      {target : List Name} (held : fs.Held i n j) (name : P n ∧ n ≠ "." ∧ n ≠ "..")
      (link : ∃ st, fs.stat j = some st ∧ st.fileType = .symlink absolute target)
      (rest : Leads fs P k (if absolute then root else i) (target ++ ns) k' t) :
      Leads fs P (k + 1) i (n :: ns) k' t

theorem Leads.walk {P : Name → Prop} {k k' : Nat} {i t : Inode} {ns : List Name}
    (h : fs.Leads P k i ns k' t) (ms : List Name) : fs.walk k i (ns ++ ms) = fs.walk k' t ms := by
  induction h with
  | here => rfl
  | down held name dir _ ih =>
    obtain ⟨st, hst, htype⟩ := dir
    have hlink := linkAt_of_stat hst (.inl htype)
    rw [List.cons_append, walk_of_lookup held.1 hlink name.2.1 name.2.2, ih]
  | follow held name link _ ih =>
    obtain ⟨⟨_, owner, mode⟩, hst, rfl⟩ := link
    have hlink := linkAt_of_link hst
    rw [List.cons_append, walk_of_link held.1 hlink name.2.1 name.2.2, ← List.append_assoc, ih]

theorem Leads.of_held {P : Name → Prop} {k k' : Nat} {i t : Inode}
    {ns : List Name} (hheld : ∀ d n j, P n → fs.Held d n j → fs'.Held d n j)
    (htype : ∀ j st, fs.stat j = some st → ∃ st', fs'.stat j = some st' ∧
      st'.fileType = st.fileType)
    (h : fs.Leads P k i ns k' t) : fs'.Leads P k i ns k' t := by
  induction h with
  | here => exact .here _ _
  | down held name dir _ ih =>
    obtain ⟨st, hst, hdir⟩ := dir
    obtain ⟨st', hst', hsame⟩ := htype _ st hst
    exact .down (hheld _ _ _ name.1 held) name ⟨st', hst', hsame.trans hdir⟩ ih
  | follow held name link _ ih =>
    obtain ⟨st, hst, hlink⟩ := link
    obtain ⟨st', hst', hsame⟩ := htype _ st hst
    exact .follow (hheld _ _ _ name.1 held) name ⟨st', hst', hsame.trans hlink⟩ ih

end FileSystem
end Inodes
