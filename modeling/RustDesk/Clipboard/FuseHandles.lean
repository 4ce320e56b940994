import Mathlib.Data.UInt
import RustDesk.Clipboard.FileDescription
import RustDesk.Lib.BinarySearch

/-!
# The handles of the FUSE server

`FuseServer` offers the files of the peer as a tree of nodes, found by their inode.  A
file or directory that is opened gets the next number of a counter as its handle, and each
node keeps the handles that are open on it, in a vector that is searched by bisection.
Loading another list replaces the tree.

The calls come one at a time, since the server is behind a lock.  Looking a name up, and
attributes, change nothing and ask for no handle; they are left out.
-/

namespace RustDesk

open UnixPath List

/-- `FileHandles`.  Nothing sets `gc`. -/
structure FileHandles where
  handlers : List Nat
  gc : Bool
  deriving DecidableEq

namespace FileHandles

def new : FileHandles := ⟨[], false⟩

def addHandler (h : FileHandles) (fh : Nat) : FileHandles :=
  { h with handlers := h.handlers ++ [fh] }

def haveHandler (h : FileHandles) (handler : Nat) : Bool :=
  (BinarySearch.search h.handlers handler).isOk

def unregister (h : FileHandles) (handler : Nat) : Option FileHandles :=
  match BinarySearch.search h.handlers handler with
  | .ok idx => some { h with handlers := h.handlers.eraseIdx idx }
  | .error _ => none

end FileHandles

/-- `FuseNode`, as the tree has it. -/
structure FuseTreeNode where
  connId : Int
  inode : Nat
  index : Nat
  parent : Option Nat
  name : Text
  kind : FileKind
  size : Nat
  children : List Nat
  fileHandlers : FileHandles
  deriving DecidableEq

def fuseRootId : Nat := 1

namespace FuseTreeNode

def newRoot : FuseTreeNode where
  connId := 0
  inode := fuseRootId
  index := 0
  parent := none
  name := ['/']
  kind := .directory
  size := 0
  children := []
  fileHandlers := .new

def fromDescription (inode : Nat) (desc : FileDescription) : FuseTreeNode where
  connId := desc.connId
  inode := inode
  index := inode - 2
  parent := none
  name := desc.name
  kind := desc.kind
  size := desc.size
  children := []
  fileHandlers := .new

/-- What makes two paths the same key of a map. -/
abbrev PathKey := Bool × List Text

def pathKey (p : Text) : PathKey := (isAbsolute p, components p)

/-- The key of `Path::parent`. -/
def parentKey (p : Text) : Option PathKey :=
  if components p = [] then none else some (isAbsolute p, (components p).dropLast)

/-- The loop of `build_tree`: the nodes so far, and the inodes of the directories. -/
def buildFrom : List FuseTreeNode → List (PathKey × Nat) → List FileDescription →
    Except Text (List FuseTreeNode)
  | tree, _, [] => .ok tree
  | tree, subRoots, file :: files =>
    let inode := tree.length + fuseRootId
    let parentInode :=
      match parentKey file.name with
      | some key => (subRoots.lookup key).getD fuseRootId
      | none => fuseRootId
    let tree := tree.modify (parentInode - 1) fun n => { n with children := n.children ++ [inode] }
    match UnixPath.fileName file.name with
    | none => .error file.name
    | some baseName =>
      let subRoots :=
        if file.kind = .directory then (pathKey file.name, inode) :: subRoots else subRoots
      let node := fromDescription inode { file with name := baseName }
      buildFrom (tree ++ [{ node with parent := some parentInode }]) subRoots files

def buildTree (files : List FileDescription) : Except Text (List FuseTreeNode) :=
  buildFrom [newRoot] [((false, []), fuseRootId), ((true, []), fuseRootId)] files

end FuseTreeNode

/-- `FuseServer`, without the channel that answers come from. -/
structure FuseServer where
  generation : Nat
  files : List FuseTreeNode
  fileHandleCounter : Nat

inductive Errno where
  | enoent
  | enotdir
  | enfile
  | ebusy
  | ebadf
  | eio

inductive FuseReply where
  | error (code : Errno)
  | opened (fh : Nat)
  | ok
  | data (bytes : Bytes)
  /-- The entries of a directory; the kernel takes as many as it has room for. -/
  | directory (entries : List (Nat × FileKind × Text))
  | loaded
  | refused (name : Text)

inductive FuseCall where
  | init
  | loadFileList (files : List FileDescription)
  | opendir (ino : UInt64)
  | readdir (ino : UInt64) (fh : Nat) (offset : Int)
  | releasedir (ino : UInt64) (fh : Nat)
  | open_ (ino : UInt64)
  /-- With what `read_node` gets from the peer. -/
  | read (ino : UInt64) (fh : Nat) (node : Option Bytes)
  | release (ino : UInt64) (fh : Nat)

namespace FuseServer

def new : FuseServer := ⟨0, [], 0⟩

def slot (ino : UInt64) : Nat := (ino - 1).toNat

def entry (s : FuseServer) (ino : UInt64) : Option FuseTreeNode := s.files[slot ino]?

def init (s : FuseServer) : FuseServer :=
  if s.files = [] then { s with files := [.newRoot] } else s

def loadFileList (s : FuseServer) (files : List FileDescription) : FuseServer × FuseReply :=
  match FuseTreeNode.buildTree files with
  | .ok tree => ({ s with files := tree, generation := (s.generation + 1) % 2 ^ 64 }, .loaded)
  | .error name => (s, .refused name)

def setHandlers (s : FuseServer) (ino : UInt64) (h : FileHandles) : FuseServer :=
  { s with files := s.files.modify (slot ino) fun n => { n with fileHandlers := h } }

/-- `alloc_fd` and `add_handler`. -/
def allocHandler (s : FuseServer) (ino : UInt64) (entry : FuseTreeNode) : FuseServer × FuseReply :=
  let fh := s.fileHandleCounter
  let s := { s with fileHandleCounter := (fh + 1) % 2 ^ 64 }
  (s.setHandlers ino (entry.fileHandlers.addHandler fh), .opened fh)

def opendir (s : FuseServer) (ino : UInt64) : FuseServer × FuseReply :=
  match s.entry ino with
  | none => (s, .error .enoent)
  | some entry =>
    if entry.kind ≠ .directory then (s, .error .enotdir)
    else if entry.fileHandlers.gc then (s, .error .ebusy)
    else s.allocHandler ino entry

/-- `open`. -/
def open_ (s : FuseServer) (ino : UInt64) : FuseServer × FuseReply :=
  match s.entry ino with
  | none => (s, .error .enoent)
  | some entry =>
    if entry.kind ≠ .file then (s, .error .enfile)
    else if entry.fileHandlers.gc then (s, .error .ebusy)
    else s.allocHandler ino entry

/-- `.`, `..` unless it is the root, and the children. -/
def dirEntries (s : FuseServer) (ino : UInt64) (entry : FuseTreeNode) :
    List (Nat × FileKind × Text) :=
  (ino.toNat, .directory, dot) ::
    (entry.parent.toList.map fun parent => (parent, .directory, dotdot)) ++
    entry.children.filterMap fun inode =>
      s.files[inode - 1]?.map fun child => (inode, child.kind, child.name)

def readdir (s : FuseServer) (ino : UInt64) (fh : Nat) (offset : Int) : FuseReply :=
  match s.entry ino with
  | none => .error .enoent
  | some entry =>
    if !entry.fileHandlers.haveHandler fh then .error .ebadf
    else if entry.kind ≠ .directory then .error .enotdir
    else .directory ((s.dirEntries ino entry).drop (offset % 2 ^ 64).toNat)

def releasedir (s : FuseServer) (ino : UInt64) (fh : Nat) : FuseServer × FuseReply :=
  match s.entry ino with
  | none => (s, .error .enoent)
  | some entry =>
    if entry.kind ≠ .directory then (s, .error .enotdir)
    else if !entry.fileHandlers.haveHandler fh then (s, .error .ebadf)
    else
      match entry.fileHandlers.unregister fh with
      | some h => (s.setHandlers ino h, .ok)
      | none => (s, .ok)

def read (s : FuseServer) (ino : UInt64) (fh : Nat) (node : Option Bytes) : FuseReply :=
  match s.entry ino with
  | none => .error .enoent
  | some entry =>
    if !entry.fileHandlers.haveHandler fh then .error .ebadf
    else if entry.kind ≠ .file then .error .enfile
    else if entry.fileHandlers.gc then .error .ebusy
    else
      match node with
      | some bytes => .data bytes
      | none => .error .eio

def release (s : FuseServer) (ino : UInt64) (fh : Nat) : FuseServer × FuseReply :=
  match s.entry ino with
  | none => (s, .error .enoent)
  | some entry =>
    match entry.fileHandlers.unregister fh with
    | some h => (s.setHandlers ino h, .ok)
    | none => (s, .error .ebadf)

def call (s : FuseServer) : FuseCall → FuseServer × FuseReply
  | .init => (s.init, .ok)
  | .loadFileList files => s.loadFileList files
  | .opendir ino => s.opendir ino
  | .readdir ino fh offset => (s, s.readdir ino fh offset)
  | .releasedir ino fh => s.releasedir ino fh
  | .open_ ino => s.open_ ino
  | .read ino fh node => (s, s.read ino fh node)
  | .release ino fh => s.release ino fh

/-- What was called so far, with the replies. -/
abbrev Trace := List (FuseCall × FuseReply)

def run (calls : List FuseCall) : FuseServer × Trace :=
  calls.foldl (fun r c => ((r.1.call c).1, r.2 ++ [(c, (r.1.call c).2)])) (new, [])

def Opens (ino : UInt64) (c : FuseCall) : Prop := c = .opendir ino ∨ c = .open_ ino

def Releases (ino : UInt64) (fh : Nat) (c : FuseCall) (r : FuseReply) : Prop :=
  (c = .release ino fh ∨ c = .releasedir ino fh) ∧ r = .ok

/-- **The handle was opened on the inode**, and since then it has not been given back, and
no list has been loaded. -/
def Live (trace : Trace) (ino : UInt64) (fh : Nat) : Prop :=
  ∃ before c after, trace = before ++ (c, .opened fh) :: after ∧ Opens ino c ∧
    ∀ e ∈ after, e.2 ≠ .loaded ∧ ¬Releases ino fh e.1 e.2

/-- The answer is not that there is no such node, or handle of it. -/
def PassesCheck (r : FuseReply) : Prop := r ≠ .error .enoent ∧ r ≠ .error .ebadf

def mayOpen : FuseCall → Bool
  | .opendir _ | .open_ _ => true
  | _ => false

variable {trace : Trace} {ino : UInt64} {c : FuseCall} {fh : Nat}

theorem live_concat {r : FuseReply} : Live (trace ++ [(c, r)]) ino fh ↔
      Opens ino c ∧ r = .opened fh ∨ Live trace ino fh ∧ r ≠ .loaded ∧ ¬Releases ino fh c r := by
  constructor
  · rintro ⟨before, d, after, htrace, hopens, hafter⟩
    rcases eq_nil_or_concat after with rfl | ⟨after, e, rfl⟩
    · obtain ⟨-, heq⟩ := append_inj' htrace rfl
      cases heq
      exact .inl ⟨hopens, rfl⟩
    · rw [concat_eq_append, ← cons_append, ← append_assoc] at htrace
      obtain ⟨rfl, heq⟩ := append_inj' htrace rfl
      cases heq
      refine .inr ⟨⟨before, d, after, rfl, hopens, fun e he => ?_⟩, hafter (c, r) (by simp)⟩
      exact hafter e (by simp [he])
  · rintro (⟨hopens, rfl⟩ | ⟨⟨before, d, after, rfl, hopens, hafter⟩, hquiet⟩)
    · exact ⟨trace, c, [], rfl, hopens, nofun⟩
    · refine ⟨before, d, after ++ [(c, r)], by simp, hopens, fun e he => ?_⟩
      rcases mem_append.mp he with he | he
      · exact hafter e he
      · rw [mem_singleton.mp he]
        exact hquiet

/-- **What a call can do.** -/
inductive Effect (s : FuseServer) : FuseCall → FuseServer × FuseReply → Prop where
  | quiet {c : FuseCall} {r : FuseReply} (opened : ∀ fh, r ≠ .opened fh) (loaded : r ≠ .loaded)
      (released : ∀ ino fh, ¬Releases ino fh c r) : Effect s c (s, r)
  | mounted (empty : s.files = []) : Effect s .init ({ s with files := [.newRoot] }, .ok)
  | loaded {files : List FileDescription} {tree : List FuseTreeNode} (generation : Nat)
      (built : FuseTreeNode.buildTree files = .ok tree) :
      Effect s (.loadFileList files) ({ s with files := tree, generation := generation }, .loaded)
  | opened {c : FuseCall} {ino : UInt64} {n : FuseTreeNode} (opens : Opens ino c)
      (entry : s.entry ino = some n) : Effect s c (s.allocHandler ino n)
  | released {c : FuseCall} {ino : UInt64} {fh : Nat} {n : FuseTreeNode} {h : FileHandles}
      (call : c = .release ino fh ∨ c = .releasedir ino fh) (entry : s.entry ino = some n)
      (unregistered : n.fileHandlers.unregister fh = some h) :
      Effect s c (s.setHandlers ino h, .ok)

theorem call_effect (s : FuseServer) (c : FuseCall) : Effect s c (s.call c) := by
  have hquiet : ∀ {c : FuseCall} (e : Errno), Effect s c (s, .error e) := fun e =>
    .quiet nofun nofun fun _ _ h => by cases h.2
  cases c with
  | init =>
    change Effect s .init (s.init, .ok)
    unfold init
    split
    · rename_i hempty
      exact .mounted hempty
    · exact .quiet nofun nofun fun _ _ h => by rcases h.1 with h | h <;> cases h
  | loadFileList files =>
    change Effect s _ (s.loadFileList files)
    unfold loadFileList
    split
    · rename_i tree hbuilt
      exact .loaded _ hbuilt
    · exact .quiet nofun nofun fun _ _ h => by cases h.2
  | opendir ino =>
    change Effect s _ (s.opendir ino)
    unfold opendir
    split
    · exact hquiet _
    rename_i n hentry
    split_ifs
    · exact hquiet _
    · exact hquiet _
    · exact .opened (.inl rfl) hentry
  | open_ ino =>
    change Effect s _ (s.open_ ino)
    unfold open_
    split
    · exact hquiet _
    rename_i n hentry
    split_ifs
    · exact hquiet _
    · exact hquiet _
    · exact .opened (.inr rfl) hentry
  | readdir ino fh offset =>
    change Effect s _ (s, s.readdir ino fh offset)
    unfold readdir
    split
    · exact hquiet _
    · split_ifs
      · exact hquiet _
      · exact hquiet _
      · exact .quiet nofun nofun fun _ _ h => by cases h.2
  | read ino fh node =>
    change Effect s _ (s, s.read ino fh node)
    unfold read
    split
    · exact hquiet _
    · split_ifs
      · exact hquiet _
      · exact hquiet _
      · exact hquiet _
      · split
        · exact .quiet nofun nofun fun _ _ h => by cases h.2
        · exact hquiet _
  | release ino fh =>
    change Effect s _ (s.release ino fh)
    unfold release
    split
    · exact hquiet _
    rename_i n hentry
    split
    · rename_i h hunregister
      exact .released (.inl rfl) hentry hunregister
    · exact hquiet _
  | releasedir ino fh =>
    change Effect s _ (s.releasedir ino fh)
    unfold releasedir
    split
    · exact hquiet _
    rename_i n hentry
    split_ifs with hkind hhave
    · exact hquiet _
    · exact hquiet _
    · split
      · rename_i h hunregister
        exact .released (.inr rfl) hentry hunregister
      · rename_i hunregister
        simp only [FileHandles.haveHandler, FileHandles.unregister] at hhave hunregister
        split at hunregister
        · cases hunregister
        · rename_i hsearch
          simp [hsearch, Except.isOk, Except.toBool] at hhave

theorem haveHandler_iff {h : FileHandles} (hsorted : h.handlers.Pairwise (· < ·)) :
    h.haveHandler fh = true ↔ fh ∈ h.handlers :=
  BinarySearch.isOk_search hsorted

theorem nodup_handlers {l : List Nat} (h : l.Pairwise (· < ·)) : l.Nodup :=
  h.imp fun hlt => Nat.ne_of_lt hlt

theorem unregister_eq_some {h h' : FileHandles} (hsorted : h.handlers.Pairwise (· < ·))
    (hun : h.unregister fh = some h') :
    h'.gc = h.gc ∧ h'.handlers.Pairwise (· < ·) ∧
      ∀ fh', fh' ∈ h'.handlers ↔ fh' ∈ h.handlers ∧ fh' ≠ fh := by
  unfold FileHandles.unregister at hun
  split at hun
  · rename_i idx hsearch
    cases hun
    obtain ⟨hlt, rfl⟩ := List.getElem?_eq_some_iff.mp
      ((BinarySearch.search_eq_ok_iff hsorted).mp hsearch)
    refine ⟨rfl, hsorted.sublist (eraseIdx_sublist ..), fun fh' => ?_⟩
    have hnodup := nodup_handlers hsorted
    dsimp only
    rw [← hnodup.erase_getElem idx hlt, hnodup.mem_erase_iff, and_comm]
  · cases hun

theorem fileHandlers_modify {tree : List FuseTreeNode} {f : FuseTreeNode → FuseTreeNode}
    (hf : ∀ n, (f n).fileHandlers = n.fileHandlers) (i : Nat)
    (htree : ∀ n ∈ tree, n.fileHandlers = .new) : ∀ n ∈ tree.modify i f, n.fileHandlers = .new := by
  intro n hn
  obtain ⟨j, hj⟩ := mem_iff_getElem?.mp hn
  rw [List.getElem?_modify] at hj
  obtain ⟨m, hm, rfl⟩ := Option.map_eq_some_iff.mp hj
  have hnew := htree m (mem_of_getElem? hm)
  split
  · exact (hf m).trans hnew
  · exact hnew

theorem fileHandlers_buildFrom {tree tree' : List FuseTreeNode}
    {subRoots : List (FuseTreeNode.PathKey × Nat)} {files : List FileDescription}
    (htree : ∀ n ∈ tree, n.fileHandlers = .new)
    (h : FuseTreeNode.buildFrom tree subRoots files = .ok tree') :
    ∀ n ∈ tree', n.fileHandlers = .new := by
  induction files generalizing tree subRoots with
  | nil =>
    cases h
    exact htree
  | cons file files ih =>
    unfold FuseTreeNode.buildFrom at h
    dsimp only at h
    split at h
    · cases h
    · refine ih (fun n hn => ?_) h
      rcases mem_append.mp hn with hn | hn
      · refine fileHandlers_modify ?_ _ htree n hn
        exact fun _ => rfl
      · rw [mem_singleton.mp hn]
        rfl

theorem fileHandlers_buildTree {tree : List FuseTreeNode} {files : List FileDescription}
    (h : FuseTreeNode.buildTree files = .ok tree) : ∀ n ∈ tree, n.fileHandlers = .new :=
  fileHandlers_buildFrom (fun n hn => by rw [mem_singleton.mp hn]; rfl) h

theorem slot_inj {ino ino' : UInt64} (h : slot ino = slot ino') : ino = ino' := by
  have hsub : ino - 1 = ino' - 1 := UInt64.toNat_inj.mp h
  have hadd := congrArg (· + 1) hsub
  simpa only [UInt64.sub_add_cancel] using hadd

theorem entry_setHandlers (s : FuseServer) (ino ino' : UInt64) (h : FileHandles) :
    (s.setHandlers ino h).entry ino' =
      if ino' = ino then (s.entry ino).map fun n => { n with fileHandlers := h }
      else s.entry ino' := by
  unfold entry setHandlers
  rw [List.getElem?_modify]
  by_cases hino : ino' = ino
  · subst hino
    simp
  · have hslot : slot ino ≠ slot ino' := fun heq => hino (slot_inj heq.symm)
    rw [if_neg hino]
    simp [hslot]

/-- **The handles that nodes keep**, after the calls of a trace. -/
structure Kept (s : FuseServer) (trace : Trace) : Prop where
  sorted : ∀ n ∈ s.files, n.fileHandlers.handlers.Pairwise (· < ·)
  below : ∀ n ∈ s.files, ∀ fh ∈ n.fileHandlers.handlers, fh < s.fileHandleCounter
  apart : ∀ ino ino' n n' fh, s.entry ino = some n → s.entry ino' = some n' →
    fh ∈ n.fileHandlers.handlers → fh ∈ n'.fileHandlers.handlers → ino = ino'
  live : ∀ ino fh, (∃ n, s.entry ino = some n ∧ fh ∈ n.fileHandlers.handlers) ↔ Live trace ino fh

variable {s : FuseServer} {n : FuseTreeNode}

theorem entry_mem (h : s.entry ino = some n) : n ∈ s.files :=
  mem_of_getElem? h

theorem mem_setHandlers {h : FileHandles}
    (hn : n ∈ (s.setHandlers ino h).files) : n.fileHandlers = h ∨ n ∈ s.files := by
  obtain ⟨i, hi⟩ := mem_iff_getElem?.mp hn
  simp only [setHandlers, List.getElem?_modify] at hi
  obtain ⟨m, hm, rfl⟩ := Option.map_eq_some_iff.mp hi
  split
  · exact .inl rfl
  · exact .inr (mem_of_getElem? hm)

theorem Kept.empty (hnew : ∀ n ∈ s.files, n.fileHandlers = .new)
    (hlive : ∀ ino fh, ¬Live trace ino fh) : Kept s trace := by
  have hnone : ∀ n ∈ s.files, n.fileHandlers.handlers = [] := fun n hn => by rw [hnew n hn]; rfl
  refine ⟨fun n hn => ?_, fun n hn fh hfh => ?_, fun ino ino' n n' fh hn _ hfh _ => ?_,
    fun ino fh => ⟨?_, fun h => absurd h (hlive ino fh)⟩⟩
  · rw [hnone n hn]
    exact .nil
  · rw [hnone n hn] at hfh
    cases hfh
  · rw [hnone n (entry_mem hn)] at hfh
    cases hfh
  · rintro ⟨n, hn, hfh⟩
    rw [hnone n (entry_mem hn)] at hfh
    cases hfh

theorem Kept.quiet (h : Kept s trace)
    {r : FuseReply} (hopened : ∀ fh, r ≠ .opened fh) (hloaded : r ≠ .loaded)
    (hreleased : ∀ ino fh, ¬Releases ino fh c r) : Kept s (trace ++ [(c, r)]) := by
  refine ⟨h.sorted, h.below, h.apart, fun ino fh => ?_⟩
  rw [h.live, live_concat]
  simp [hopened, hloaded, hreleased]

theorem Kept.opened (h : Kept s trace) (hopens : Opens ino c) (hentry : s.entry ino = some n)
    (hcounter : s.fileHandleCounter + 1 < 2 ^ 64) :
    Kept (s.allocHandler ino n).1 (trace ++ [(c, (s.allocHandler ino n).2)]) := by
  have hnext : (s.fileHandleCounter + 1) % 2 ^ 64 = s.fileHandleCounter + 1 :=
    Nat.mod_eq_of_lt hcounter
  have hfresh : ∀ m ∈ s.files, s.fileHandleCounter ∉ m.fileHandlers.handlers := fun m hm hmem =>
    absurd (h.below m hm _ hmem) (Nat.lt_irrefl _)
  have hmem := entry_mem hentry
  simp only [allocHandler, hnext]
  generalize hs₁ : ({ s with fileHandleCounter := s.fileHandleCounter + 1 } : FuseServer) = s₁
  have hfiles : s₁.files = s.files := by rw [← hs₁]
  have hcount : s₁.fileHandleCounter = s.fileHandleCounter + 1 := by rw [← hs₁]
  have hsame : ∀ i, s₁.entry i = s.entry i := fun i => by rw [entry, hfiles, entry]
  -- who has which handle afterwards
  have hwho : ∀ i fh, (∃ m, (s₁.setHandlers ino (n.fileHandlers.addHandler s.fileHandleCounter)).entry
        i = some m ∧ fh ∈ m.fileHandlers.handlers) ↔
      (i = ino ∧ fh = s.fileHandleCounter) ∨
        ∃ m, s.entry i = some m ∧ fh ∈ m.fileHandlers.handlers := by
    intro i fh
    rw [entry_setHandlers, hsame, hsame]
    by_cases hi : i = ino
    · subst hi
      simp [hentry, FileHandles.addHandler, or_comm]
    · simp [hi]
  refine ⟨?_, ?_, ?_, ?_⟩
  · intro m hm
    rcases mem_setHandlers hm with heq | hold
    · rw [heq]
      refine pairwise_append.mpr ⟨h.sorted n hmem, pairwise_singleton _ _, ?_⟩
      intro fh hfh fh' hfh'
      rw [mem_singleton.mp hfh']
      exact h.below n hmem fh hfh
    · exact h.sorted m (hfiles ▸ hold)
  · intro m hm fh hfh
    have hlt : fh < s₁.fileHandleCounter := by
      rw [hcount]
      rcases mem_setHandlers hm with heq | hold
      · rw [heq] at hfh
        rcases mem_append.mp hfh with hfh | hfh
        · exact Nat.lt_succ_of_lt (h.below n hmem fh hfh)
        · rw [mem_singleton.mp hfh]
          exact Nat.lt_succ_self _
      · exact Nat.lt_succ_of_lt (h.below m (hfiles ▸ hold) fh hfh)
    exact hlt
  · intro i i' m m' fh hm hm' hfh hfh'
    rcases (hwho i fh).mp ⟨m, hm, hfh⟩ with ⟨rfl, rfl⟩ | ⟨k, hk, hkfh⟩
    · rcases (hwho i' _).mp ⟨m', hm', hfh'⟩ with ⟨rfl, -⟩ | ⟨k', hk', hk'fh⟩
      · rfl
      · exact absurd hk'fh (hfresh k' (entry_mem hk'))
    · rcases (hwho i' fh).mp ⟨m', hm', hfh'⟩ with ⟨-, rfl⟩ | ⟨k', hk', hk'fh⟩
      · exact absurd hkfh (hfresh k (entry_mem hk))
      · exact h.apart i i' k k' fh hk hk' hkfh hk'fh
  · intro i fh
    rw [hwho, h.live, live_concat]
    have hino : Opens i c ↔ i = ino := by
      rcases hopens with rfl | rfl <;> simp [Opens, eq_comm]
    have hrel : ¬Releases i fh c (.opened s.fileHandleCounter) := fun hr => by cases hr.2
    simp [hino, hrel, eq_comm]

theorem Kept.released (h : Kept s trace) {fhs : FileHandles}
    (hcall : c = .release ino fh ∨ c = .releasedir ino fh) (hentry : s.entry ino = some n)
    (hun : n.fileHandlers.unregister fh = some fhs) :
    Kept (s.setHandlers ino fhs) (trace ++ [(c, .ok)]) := by
  have hmem := entry_mem hentry
  obtain ⟨-, hsorted, hleft⟩ := unregister_eq_some (h.sorted n hmem) hun
  have hwho : ∀ i fh', (∃ m, (s.setHandlers ino fhs).entry i = some m ∧
        fh' ∈ m.fileHandlers.handlers) ↔
      (∃ m, s.entry i = some m ∧ fh' ∈ m.fileHandlers.handlers) ∧ ¬(i = ino ∧ fh' = fh) := by
    intro i fh'
    rw [entry_setHandlers]
    by_cases hi : i = ino
    · subst hi
      simp [hentry, hleft]
    · simp [hi]
  refine ⟨?_, ?_, ?_, ?_⟩
  · intro m hm
    rcases mem_setHandlers hm with heq | hold
    · exact heq ▸ hsorted
    · exact h.sorted m hold
  · intro m hm fh' hfh'
    rcases mem_setHandlers hm with heq | hold
    · rw [heq] at hfh'
      exact h.below n hmem fh' ((hleft fh').mp hfh').1
    · exact h.below m hold fh' hfh'
  · intro i i' m m' fh' hm hm' hfh hfh'
    obtain ⟨⟨k, hk, hkfh⟩, -⟩ := (hwho i fh').mp ⟨m, hm, hfh⟩
    obtain ⟨⟨k', hk', hk'fh⟩, -⟩ := (hwho i' fh').mp ⟨m', hm', hfh'⟩
    exact h.apart i i' k k' fh' hk hk' hkfh hk'fh
  · intro i fh'
    rw [hwho, h.live, live_concat]
    have hrel : Releases i fh' c .ok ↔ i = ino ∧ fh' = fh := by
      rcases hcall with rfl | rfl <;> simp [Releases, eq_comm]
    simp [hrel]

theorem Kept.call (h : Kept s trace) (c : FuseCall)
    (hcounter : mayOpen c = true → s.fileHandleCounter + 1 < 2 ^ 64) :
    Kept (s.call c).1 (trace ++ [(c, (s.call c).2)]) := by
  have heffect := call_effect s c
  generalize s.call c = result at heffect
  cases heffect with
  | quiet hopened hloaded hreleased => exact h.quiet hopened hloaded hreleased
  | mounted hempty =>
    refine .empty (fun n hn => by rw [mem_singleton.mp hn]; rfl) fun ino fh hlive => ?_
    rw [live_concat] at hlive
    rcases hlive with ⟨hopens, -⟩ | ⟨hlive, -⟩
    · rcases hopens with h | h <;> cases h
    · obtain ⟨n, hn, -⟩ := (h.live ino fh).mpr hlive
      rw [entry, hempty] at hn
      cases hn
  | loaded generation hbuilt =>
    refine .empty (fileHandlers_buildTree hbuilt) fun ino fh hlive => ?_
    rw [live_concat] at hlive
    rcases hlive with ⟨-, heq⟩ | ⟨-, hne, -⟩
    · cases heq
    · exact hne rfl
  | opened hopens hentry =>
    refine h.opened hopens hentry (hcounter ?_)
    rcases hopens with rfl | rfl <;> rfl
  | released hcall hentry hun => exact h.released hcall hentry hun

theorem counter_call (s : FuseServer) (c : FuseCall) :
    (s.call c).1.fileHandleCounter ≤ s.fileHandleCounter + (if mayOpen c then 1 else 0) := by
  have heffect := call_effect s c
  generalize s.call c = result at heffect
  cases heffect with
  | opened hopens _ =>
    have hmay : mayOpen c = true := by rcases hopens with rfl | rfl <;> rfl
    simp only [allocHandler, setHandlers, hmay, if_true]
    exact Nat.mod_le _ _
  | _ => exact Nat.le_add_right _ _

theorem run_concat (calls : List FuseCall) (c : FuseCall) :
    run (calls ++ [c]) =
      (((run calls).1.call c).1, (run calls).2 ++ [(c, ((run calls).1.call c).2)]) := by
  simp [run, foldl_append]

theorem kept_run (calls : List FuseCall) (hfew : calls.countP mayOpen < 2 ^ 64) :
    Kept (run calls).1 (run calls).2 ∧ (run calls).1.fileHandleCounter ≤ calls.countP mayOpen := by
  induction calls using List.reverseRecOn with
  | nil =>
    refine ⟨.empty nofun fun ino fh hlive => ?_, Nat.le_refl _⟩
    obtain ⟨before, c, after, htrace, -⟩ := hlive
    simp [run] at htrace
  | append_singleton calls c ih =>
    rw [countP_append, countP_singleton] at hfew ⊢
    obtain ⟨hkept, hcount⟩ := ih (by omega)
    rw [run_concat]
    refine ⟨hkept.call c fun hmay => ?_, ?_⟩
    · rw [hmay, if_pos rfl] at hfew
      omega
    · have := counter_call (run calls).1 c
      dsimp only
      omega

theorem passesCheck_iff (s : FuseServer) (ino : UInt64) (fh : Nat) :
    (∀ node, PassesCheck (s.read ino fh node) ↔
      ∃ n, s.entry ino = some n ∧ n.fileHandlers.haveHandler fh = true) ∧
    ∀ offset, PassesCheck (s.readdir ino fh offset) ↔
      ∃ n, s.entry ino = some n ∧ n.fileHandlers.haveHandler fh = true := by
  constructor
  · intro node
    unfold read PassesCheck
    cases s.entry ino with
    | none => simp
    | some n =>
      cases hhave : n.fileHandlers.haveHandler fh with
      | false => simp [hhave]
      | true =>
        simp only [hhave, Bool.not_true, Bool.false_eq_true, if_false]
        split_ifs <;> cases node <;> simp [hhave]
  · intro offset
    unfold readdir PassesCheck
    cases s.entry ino with
    | none => simp
    | some n =>
      cases hhave : n.fileHandlers.haveHandler fh with
      | false => simp [hhave]
      | true =>
        simp only [hhave, Bool.not_true, Bool.false_eq_true, if_false]
        split_ifs <;> simp [hhave]

/-- **Handles are isolated.**  After any calls with fewer than 2^64 opens among them, a read
or a listing passes the check of its handle exactly if the handle was opened on this inode
since the last list was loaded, and not given back.  The handles of each node are strictly
increasing and the search for them is exact.  No handle is good on two inodes. -/
theorem handles_isolated (calls : List FuseCall) (hfew : calls.countP mayOpen < 2 ^ 64) :
    let s := (run calls).1
    let trace := (run calls).2
    (∀ ino fh, (∀ node, PassesCheck (s.read ino fh node) ↔ Live trace ino fh) ∧
      ∀ offset, PassesCheck (s.readdir ino fh offset) ↔ Live trace ino fh) ∧
    (∀ n ∈ s.files, n.fileHandlers.handlers.Pairwise (· < ·) ∧
      ∀ fh, n.fileHandlers.haveHandler fh = true ↔ fh ∈ n.fileHandlers.handlers) ∧
    ∀ ino ino' fh, Live trace ino fh → Live trace ino' fh → ino = ino' := by
  intro s trace
  have hkept : Kept s trace := (kept_run calls hfew).1
  have hcheck : ∀ ino fh, (∃ n, s.entry ino = some n ∧ n.fileHandlers.haveHandler fh = true) ↔
      Live trace ino fh := by
    intro ino fh
    rw [← hkept.live]
    refine exists_congr fun n => and_congr_right fun hn => ?_
    exact haveHandler_iff (hkept.sorted n (entry_mem hn))
  refine ⟨fun ino fh => ?_, fun n hn => ⟨hkept.sorted n hn, fun fh => ?_⟩, ?_⟩
  · obtain ⟨hread, hreaddir⟩ := passesCheck_iff s ino fh
    exact ⟨fun node => (hread node).trans (hcheck ino fh),
      fun offset => (hreaddir offset).trans (hcheck ino fh)⟩
  · exact haveHandler_iff (hkept.sorted n hn)
  · intro ino ino' fh hlive hlive'
    obtain ⟨n, hn, hfh⟩ := (hkept.live ino fh).mpr hlive
    obtain ⟨n', hn', hfh'⟩ := (hkept.live ino' fh).mpr hlive'
    exact hkept.apart ino ino' n n' fh hn hn' hfh hfh'

/-- Two opens of one file, and a new list. -/
theorem handles_isolated_reload : let calls : List FuseCall :=
      [.init, .loadFileList [⟨0, "a".toList, .file, 3⟩], .open_ 2, .open_ 2, .release 2 0,
        .loadFileList [⟨0, "b".toList, .file, 3⟩], .open_ 2]
    ∀ ino fh, (∀ node, PassesCheck ((run calls).1.read ino fh node) ↔ Live (run calls).2 ino fh) ∧
      ∀ offset, PassesCheck ((run calls).1.readdir ino fh offset) ↔ Live (run calls).2 ino fh := by
  intro calls
  exact (handles_isolated calls (by decide)).1

end FuseServer
end RustDesk
