import Mathlib.Data.List.Forall2
import RustDesk.Clipboard.FileContents
import RustDesk.Lib.LittleEndian
import RustDesk.Lib.MachineInt
import RustDesk.Lib.Run

/-!
# Reading a remote file through FUSE

`FuseServer::read_node` on one side, `ClipFiles` on the other.  A position of 64 bits
travels as two signed numbers of 32 bits; the server puts them together again, reads, and
keeps the reader of each file between requests, at the position where the last answer
ended.

The reader is never elsewhere than its file remembers (`Placed`), whatever was asked
before.  Putting the position together is where it goes wrong: the low half is extended
with its sign.
-/

namespace RustDesk

open MachineInt List

/-- `LocalFile`.  The content does not change; the reader is its position. -/
structure LocalFile where
  content : Bytes
  isDir : Bool
  handle : Option Nat
  offset : Nat

namespace LocalFile

/-- The `size` that was found when the list was made. -/
def size (f : LocalFile) : Nat := f.content.length

/-- `load_handle`, which fails if the file cannot be opened. -/
def loadHandle (opens : Bool) (f : LocalFile) : Option LocalFile :=
  if f.isDir = false ∧ f.handle = none then
    if opens then some { f with handle := some 0 } else none
  else some f

/-- `read_exact_at`, from the reader on: the reader is at `pos`. -/
def readFrom (f : LocalFile) (pos length offset : Nat) : LocalFile × Option Bytes :=
  if pos + length ≤ f.size then
    let newOffset := offset + length
    (if f.size ≤ newOffset then { f with handle := none, offset := 0 }
      else { f with handle := some (pos + length), offset := newOffset },
      some ((f.content.drop pos).take length))
  else ({ f with handle := none, offset := 0 }, none)

def readExactAt (opens : Bool) (f : LocalFile) (length offset : Nat) : LocalFile × Option Bytes :=
  match f.loadHandle opens with
  | none => (f, none)
  | some f =>
    match f.handle with
    | none => (f, none)
    | some pos => f.readFrom (if offset ≠ f.offset then offset else pos) length offset

def readSize (f : LocalFile) (offset length : Nat) : Nat :=
  if f.size < (offset + length) % 2 ^ 64 then f.size - offset else length

theorem readSize_of_lt (f : LocalFile) {offset length : Nat} (h : offset + length < 2 ^ 64) :
    f.readSize offset length = if f.size < offset + length then f.size - offset else length := by
  rw [readSize, Nat.mod_eq_of_lt h]

end LocalFile

/-- `FileContentsRequest` of the server, decoded. -/
inductive ContentsRequest where
  | size (fileIdx : Int)
  | range (fileIdx : Int) (offset length : Nat)
  deriving DecidableEq

namespace ClipFiles

/-- `file_list.get`.  A negative index becomes one that no list has. -/
def getFile (files : List LocalFile) (index : Int) : Option LocalFile :=
  if index < 0 then none else files[index.toNat]?

/-- The first file that is no directory is opened; `i` is the index of the first one. -/
def loadFirst (opens : Nat → Bool) : Nat → List LocalFile → Option (List LocalFile)
  | _, [] => some []
  | i, f :: rest =>
    if f.isDir then (loadFirst opens (i + 1) rest).map (f :: ·)
    else (f.loadHandle (opens i)).map (· :: rest)

def hotReload (opens : Nat → Bool) (files : List LocalFile) (index : Nat) :
    Option (List LocalFile) :=
  (loadFirst opens (index + 1) (files.drop (index + 1))).map (files.take (index + 1) ++ ·)

/-- The end of `serve_file_contents`: the answer is given if the next file is loaded. -/
def finish (opens : Nat → Bool) (files : List LocalFile) (index : Nat) (data : Bytes) :
    List LocalFile × Option Bytes :=
  match hotReload opens files index with
  | none => (files, none)
  | some files => (files, some data)

def serveFileContents (opens : Nat → Bool) (files : List LocalFile) :
    ContentsRequest → List LocalFile × Option Bytes
  | .size fileIdx =>
    match getFile files fileIdx with
    | none => (files, none)
    | some f => finish opens files fileIdx.toNat (LittleEndian.leBytes f.size 8)
  | .range fileIdx offset length =>
    match getFile files fileIdx with
    | none => (files, none)
    | some f =>
      if f.size < offset then (files, none)
      else
        match f.readExactAt (opens fileIdx.toNat) (f.readSize offset length) offset with
        | (f, none) => (files.set fileIdx.toNat f, none)
        | (f, some data) => finish opens (files.set fileIdx.toNat f) fileIdx.toNat data

/-- The request that `read_file_contents` makes of a message. -/
def decodeRequest (r : FileContentsRequest) : Option ContentsRequest :=
  if r.dwFlags = 1 then some (.size r.listIndex)
  else if r.dwFlags = 2 then
    some (.range r.listIndex
      ((asU64 r.nPositionHigh <<< 32) % 2 ^ 64 ||| asU64 r.nPositionLow) (asU64 r.cbRequested))
  else none

/-- `read_file_contents`, without the message for the audit.  An error is answered with
`msg_flags` 2. -/
def readFileContents (opens : Nat → Bool) (files : List LocalFile) (r : FileContentsRequest) :
    List LocalFile × Option Bytes :=
  match decodeRequest r with
  | none => (files, none)
  | some request => serveFileContents opens files request

end ClipFiles

/-- What `read_node` uses of it. The peer told the length of its list in 32 bits. -/
structure FuseNode where
  connId : Int
  index : Nat
  index_lt : index < 2 ^ 32

namespace FuseNode

def readRetry : Nat := 3

/-- The request of `read_node`. -/
def request (node : FuseNode) (streamId : Int) (offset : Int) (size : Nat) :
    FileContentsRequest where
  connId := node.connId
  streamId := streamId
  listIndex := asI32 node.index
  dwFlags := 2
  nPositionHigh := asI32 ((offset / 2 ^ 32) % 2 ^ 32).toNat
  nPositionLow := asI32 (offset % 2 ^ 32).toNat
  cbRequested := asI32 size

/-- The loop of `read_node`: a failure is asked for again, so many times. -/
def ask (opens : Nat → Bool) (r : FileContentsRequest) :
    Nat → List LocalFile → List LocalFile × Option Bytes
  | 0, files => (files, none)
  | tries + 1, files =>
    match ClipFiles.readFileContents opens files r with
    | (files, some data) => (files, some data)
    | (files, none) => ask opens r tries files

def readNode (opens : Nat → Bool) (files : List LocalFile) (node : FuseNode) (streamId : Int)
    (offset : Int) (size : Nat) : List LocalFile × Option Bytes :=
  ask opens (node.request streamId offset size) (readRetry + 1) files

end FuseNode

namespace LocalFile

def Placed (f : LocalFile) : Prop := f.handle.getD 0 = f.offset

def same (f g : LocalFile) : Prop := f.content = g.content ∧ f.isDir = g.isDir

variable {opens : Bool}

theorem Placed.loadHandle {f g : LocalFile} (h : f.Placed)
    (hload : f.loadHandle opens = some g) : g.Placed ∧ g.same f := by
  rw [LocalFile.loadHandle] at hload
  split_ifs at hload with hclosed hopens
  · cases hload
    refine ⟨?_, rfl, rfl⟩
    rw [Placed, hclosed.2] at h
    exact h
  · cases hload
    exact ⟨h, rfl, rfl⟩

theorem readFrom_placed (f : LocalFile) (length offset : Nat) :
    (f.readFrom offset length offset).1.Placed ∧ (f.readFrom offset length offset).1.same f := by
  rw [readFrom]
  split_ifs with hfits
  · dsimp only
    split_ifs
    · exact ⟨rfl, rfl, rfl⟩
    · exact ⟨rfl, rfl, rfl⟩
  · exact ⟨rfl, rfl, rfl⟩

theorem Placed.readExactAt_eq {f g : LocalFile} {pos : Nat} (h : f.Placed)
    (hload : f.loadHandle opens = some g) (hpos : g.handle = some pos) (length offset : Nat) :
    f.readExactAt opens length offset = g.readFrom offset length offset := by
  have hg : pos = g.offset := by
    have := (h.loadHandle hload).1
    rwa [Placed, hpos] at this
  rw [readExactAt, hload]
  dsimp only
  rw [hpos]
  dsimp only
  split_ifs with hoff
  · rfl
  · have hsame : pos = offset := hg.trans (not_not.mp hoff).symm
    rw [hsame]

theorem Placed.readExactAt {f : LocalFile} (h : f.Placed) (opens : Bool) (length offset : Nat) :
    (f.readExactAt opens length offset).1.Placed ∧
      (f.readExactAt opens length offset).1.same f := by
  cases hload : f.loadHandle opens with
  | none =>
    rw [LocalFile.readExactAt, hload]
    exact ⟨h, rfl, rfl⟩
  | some g =>
    obtain ⟨hg, hsame⟩ := h.loadHandle hload
    cases hpos : g.handle with
    | none =>
      rw [LocalFile.readExactAt, hload]
      dsimp only
      rw [hpos]
      exact ⟨hg, hsame⟩
    | some pos =>
      rw [h.readExactAt_eq hload hpos]
      obtain ⟨hplaced, hfrom⟩ := readFrom_placed g length offset
      exact ⟨hplaced, hfrom.1.trans hsame.1, hfrom.2.trans hsame.2⟩

theorem Placed.readExactAt_data {f : LocalFile} (h : f.Placed)
    (hregular : f.isDir = false) (hopens : opens = true) {length offset : Nat}
    (hfits : offset + length ≤ f.size) :
    (f.readExactAt opens length offset).2 = some ((f.content.drop offset).take length) := by
  obtain ⟨g, pos, hload, hpos, hsame⟩ : ∃ g pos, f.loadHandle opens = some g ∧
      g.handle = some pos ∧ g.content = f.content := by
    rw [LocalFile.loadHandle]
    cases hhandle : f.handle with
    | none =>
      refine ⟨{ f with handle := some 0 }, 0, ?_, rfl, rfl⟩
      rw [if_pos ⟨hregular, rfl⟩, if_pos hopens]
    | some pos => exact ⟨f, pos, by rw [if_neg (by simp)], hhandle, rfl⟩
  rw [h.readExactAt_eq hload hpos, readFrom, if_pos (by rw [size, hsame]; exact hfits), hsame]

end LocalFile

namespace ClipFiles

def Serves (list files : List LocalFile) : Prop :=
  List.Forall₂ (fun f g : LocalFile => g.Placed ∧ g.same f) list files

variable {opens : Nat → Bool}

theorem loadFirst_serves {list files files' : List LocalFile} {i : Nat}
    (h : Serves list files) (hload : loadFirst opens i files = some files') :
    Serves list files' := by
  induction h generalizing i files' with
  | nil =>
    cases hload
    exact .nil
  | cons hf hrest ih =>
    rw [loadFirst] at hload
    split_ifs at hload
    · obtain ⟨rest, hrest', rfl⟩ := Option.map_eq_some_iff.mp hload
      exact .cons hf (ih hrest')
    · obtain ⟨g, hg, rfl⟩ := Option.map_eq_some_iff.mp hload
      obtain ⟨hplaced, hsame⟩ := hf.1.loadHandle hg
      exact .cons ⟨hplaced, hsame.1.trans hf.2.1, hsame.2.trans hf.2.2⟩ hrest

theorem hotReload_serves {list files files' : List LocalFile} {index : Nat}
    (h : Serves list files) (hload : hotReload opens files index = some files') :
    Serves list files' := by
  obtain ⟨rest, hrest, rfl⟩ := Option.map_eq_some_iff.mp hload
  rw [← take_append_drop (index + 1) list]
  exact rel_append (forall₂_take _ h) (loadFirst_serves (forall₂_drop _ h) hrest)

variable {list files : List LocalFile}

theorem finish_serves {index : Nat}
    {data : Bytes} (h : Serves list files) : Serves list (finish opens files index data).1 := by
  rw [finish]
  split
  next => exact h
  next files' hload => exact hotReload_serves h hload

theorem Serves.set (h : Serves list files) :
    ∀ {k : Nat} {f g : LocalFile}, files[k]? = some f → g.Placed → g.same f →
      Serves list (files.set k g) := by
  induction h with
  | nil => exact fun hf _ _ => (Option.some_ne_none _ hf.symm).elim
  | cons hhead hrest ih =>
    intro k f g hf hplaced hsame
    cases k with
    | zero =>
      cases hf
      exact .cons ⟨hplaced, hsame.1.trans hhead.2.1, hsame.2.trans hhead.2.2⟩ hrest
    | succ k => exact .cons hhead (ih hf hplaced hsame)

theorem Serves.get (h : Serves list files) : ∀ {k : Nat} {f : LocalFile}, list[k]? = some f →
      ∃ g, files[k]? = some g ∧ g.Placed ∧ g.same f := by
  induction h with
  | nil => exact fun hf => (Option.some_ne_none _ hf.symm).elim
  | cons hhead hrest ih =>
    intro k f hf
    cases k with
    | zero =>
      cases hf
      exact ⟨_, rfl, hhead⟩
    | succ k => exact ih hf

theorem Serves.placed (h : Serves list files) : ∀ f ∈ files, f.Placed := by
  induction h with
  | nil => exact nofun
  | cons hhead _ ih =>
    intro f hf
    rcases mem_cons.mp hf with rfl | hf
    · exact hhead.1
    · exact ih f hf

theorem getFile_mem {files : List LocalFile} {index : Int} {f : LocalFile}
    (h : getFile files index = some f) : files[index.toNat]? = some f := by
  rw [getFile] at h
  split_ifs at h
  exact h

theorem serveFileContents_serves (h : Serves list files) (request : ContentsRequest) :
    Serves list (serveFileContents opens files request).1 := by
  cases request with
  | size fileIdx =>
    rw [serveFileContents]
    split
    next => exact h
    next => exact finish_serves h
  | range fileIdx offset length =>
    rw [serveFileContents]
    split
    next => exact h
    next f hf =>
      have hget := getFile_mem hf
      have hplaced := h.placed f (mem_of_getElem? hget)
      have hread := hplaced.readExactAt (opens fileIdx.toNat) (f.readSize offset length) offset
      split_ifs
      · exact h
      · split
        next g heq =>
          rw [heq] at hread
          exact h.set hget hread.1 hread.2
        next g data heq =>
          rw [heq] at hread
          exact finish_serves (h.set hget hread.1 hread.2)

theorem readFileContents_serves (h : Serves list files) (r : FileContentsRequest) :
    Serves list (readFileContents opens files r).1 := by
  rw [readFileContents]
  split
  next => exact h
  next request _ => exact serveFileContents_serves h request

/-- The next file of the list is open, or can be opened. -/
def NextLoads (opens : Nat → Bool) (files : List LocalFile) (index : Nat) : Prop :=
  ∀ x ∈ ((files.drop (index + 1)).zipIdx (index + 1)).find? (fun x => !x.1.isDir),
    x.1.handle ≠ none ∨ opens x.2 = true

instance (opens : Nat → Bool) (files : List LocalFile) (index : Nat) :
    Decidable (NextLoads opens files index) :=
  inferInstanceAs (Decidable (∀ x ∈ ((files.drop (index + 1)).zipIdx (index + 1)).find?
    (fun x => !x.1.isDir), x.1.handle ≠ none ∨ opens x.2 = true))

theorem loadFirst_isSome (opens : Nat → Bool) (files : List LocalFile) (i : Nat) :
    (loadFirst opens i files).isSome = true ↔
      ∀ x ∈ (files.zipIdx i).find? (fun x => !x.1.isDir), x.1.handle ≠ none ∨ opens x.2 = true := by
  induction files generalizing i with
  | nil => simp [loadFirst]
  | cons f rest ih =>
    rw [loadFirst, zipIdx_cons, List.find?_cons]
    cases hdir : f.isDir with
    | true => simpa using ih (i + 1)
    | false =>
      simp only [LocalFile.loadHandle, hdir, Bool.not_false]
      cases hhandle : f.handle with
      | none => cases hopens : opens i <;> simp [hhandle, hopens]
      | some pos => simp [hhandle]

theorem hotReload_isSome (opens : Nat → Bool) (files : List LocalFile) (index : Nat) :
    (hotReload opens files index).isSome = true ↔ NextLoads opens files index := by
  rw [hotReload, Option.isSome_map]
  exact loadFirst_isSome opens _ _

theorem finish_snd (opens : Nat → Bool) (files : List LocalFile) (index : Nat) (data : Bytes) :
    (finish opens files index data).2 =
      if NextLoads opens files index then some data else none := by
  have hiff := hotReload_isSome opens files index
  rw [finish]
  cases hload : hotReload opens files index with
  | none =>
    rw [hload] at hiff
    rw [if_neg (fun hnext => Bool.false_ne_true (hiff.mpr hnext))]
  | some files' =>
    rw [hload] at hiff
    rw [if_pos (hiff.mp rfl)]

theorem serveFileContents_range {k : Nat}
    {f : LocalFile} (h : Serves list files) (hf : list[k]? = some f) (hregular : f.isDir = false)
    (hopens : opens k = true) (offset : Nat) (hoffset : offset ≤ f.size) (length : Nat)
    (hsum : offset + length < 2 ^ 64) :
    (serveFileContents opens files (.range k offset length)).2 =
        (if NextLoads opens files k then
          some ((f.content.drop offset).take (f.readSize offset length)) else none) ∧
      (¬ NextLoads opens files k →
        (serveFileContents opens files (.range k offset length)).1.drop (k + 1) =
          files.drop (k + 1)) := by
  obtain ⟨g, hg, hplaced, hsame⟩ := h.get hf
  have hsize : g.size = f.size := congrArg List.length hsame.1
  have hget : getFile files k = some g := by
    rw [getFile, if_neg (by omega)]
    exact hg
  have hread : g.readSize offset length = f.readSize offset length := by
    rw [LocalFile.readSize, LocalFile.readSize, hsize]
  have hfits : offset + g.readSize offset length ≤ g.size := by
    rw [g.readSize_of_lt hsum]
    split_ifs <;> omega
  have hdata := hplaced.readExactAt_data (hsame.2.trans hregular) hopens hfits
  have hsucc : ∀ g', (files.set k g').drop (k + 1) = files.drop (k + 1) :=
    fun g' => drop_set_of_lt (Nat.lt_succ_self k)
  simp only [serveFileContents, hget, if_neg (show ¬ g.size < offset by omega), Int.toNat_natCast]
  rw [hread, hsame.1] at hdata
  rw [hread]
  generalize g.readExactAt (opens k) (f.readSize offset length) offset = result at hdata
  obtain ⟨g', answer⟩ := result
  obtain rfl : answer = _ := hdata
  have hnext : NextLoads opens (files.set k g') k ↔ NextLoads opens files k := by
    rw [NextLoads, NextLoads, hsucc]
  dsimp only
  refine ⟨?_, ?_⟩
  · rw [finish_snd]
    simp only [hnext]
  · intro hnot
    have hnone : hotReload opens (files.set k g') k = none := by
      have hiff := hotReload_isSome opens (files.set k g') k
      rw [hnext] at hiff
      cases hload : hotReload opens (files.set k g') k with
      | none => rfl
      | some _ =>
        rw [hload] at hiff
        exact (hnot (hiff.mp rfl)).elim
    rw [finish, hnone]
    exact hsucc g'

end ClipFiles

namespace FuseNode

def rebuilt (r : FileContentsRequest) : Nat :=
  (asU64 r.nPositionHigh <<< 32) % 2 ^ 64 ||| asU64 r.nPositionLow

variable {streamId offset : Int} {node : FuseNode}

variable {size : Nat}

theorem decodeRequest_request (hsize : size < 2 ^ 31) :
    ClipFiles.decodeRequest (node.request streamId offset size) =
      some (.range (asI32 node.index) (rebuilt (node.request streamId offset size)) size) := by
  have hlength : asU64 (asI32 size) = size := by
    rw [asI32_of_lt hsize]
    exact asU64_natCast (by omega)
  simp only [ClipFiles.decodeRequest, request, rebuilt, hlength]
  rfl

theorem high_rebuilt (hnonneg : 0 ≤ offset) (hlt : offset < 2 ^ 63) :
    (asU64 (node.request streamId offset size).nPositionHigh <<< 32) % 2 ^ 64 =
      (offset.toNat / 2 ^ 32) <<< 32 := by
  have hhigh : ((offset / 2 ^ 32) % 2 ^ 32).toNat = offset.toNat / 2 ^ 32 := by omega
  have hsmall : offset.toNat / 2 ^ 32 < 2 ^ 31 := by omega
  simp only [request, hhigh]
  rw [asI32_of_lt hsmall, asU64_natCast (by omega), Nat.shiftLeft_eq]
  omega

theorem rebuilt_eq (hnonneg : 0 ≤ offset)
    (hlt : offset < 2 ^ 63) (hlow : offset % 2 ^ 32 < 2 ^ 31) :
    rebuilt (node.request streamId offset size) = offset.toNat := by
  have hlow' : asU64 (node.request streamId offset size).nPositionLow = offset.toNat % 2 ^ 32 := by
    have hn : (offset % 2 ^ 32).toNat = offset.toNat % 2 ^ 32 := by omega
    simp only [request, hn]
    rw [asI32_of_lt (by omega), asU64_natCast (by omega)]
  rw [rebuilt, high_rebuilt hnonneg hlt, hlow',
    ← Nat.shiftLeft_add_eq_or_of_lt (Nat.mod_lt _ (by decide)), Nat.shiftLeft_eq]
  omega

theorem le_rebuilt (node : FuseNode) (streamId : Int) (size : Nat) {offset : Int}
    (hnonneg : 0 ≤ offset) (hlow : 2 ^ 31 ≤ offset % 2 ^ 32) :
    2 ^ 63 ≤ rebuilt (node.request streamId offset size) := by
  have hn : (offset % 2 ^ 32).toNat % 2 ^ 32 = offset.toNat % 2 ^ 32 := by omega
  have hneg : 2 ^ 64 - 2 ^ 31 ≤ asU64 (node.request streamId offset size).nPositionLow :=
    asU64_asI32_of_neg (by omega)
  have hle : asU64 (node.request streamId offset size).nPositionLow ≤
      rebuilt (node.request streamId offset size) := Nat.right_le_or
  omega

variable {opens : Nat → Bool}

theorem ask_eq_none {r : FileContentsRequest} {P : List LocalFile → Prop}
    (hfails : ∀ files, P files → (ClipFiles.readFileContents opens files r).2 = none ∧
      P (ClipFiles.readFileContents opens files r).1) :
    ∀ (tries : Nat) (files : List LocalFile), P files → (ask opens r tries files).2 = none := by
  intro tries
  induction tries with
  | zero => exact fun _ _ => rfl
  | succ tries ih =>
    intro files hfiles
    obtain ⟨hnone, hagain⟩ := hfails files hfiles
    rw [ask]
    split
    next files' data heq =>
      rw [heq] at hnone
      cases hnone
    next files' heq =>
      rw [heq] at hagain
      exact ih files' hagain

theorem ask_eq_some {r : FileContentsRequest} {files : List LocalFile}
    {data : Bytes} (h : (ClipFiles.readFileContents opens files r).2 = some data) (tries : Nat) :
    (ask opens r (tries + 1) files).2 = some data := by
  rw [ask]
  split
  next files' data' heq =>
    rw [heq] at h
    exact h
  next files' heq =>
    rw [heq] at h
    cases h

def wanted (f : LocalFile) (offset : Int) (size : Nat) : Bytes :=
  (f.content.take (min (offset.toNat + size) f.size)).drop offset.toNat

theorem wanted_eq (f : LocalFile) {offset : Int} (hsum : offset.toNat + size < 2 ^ 64) :
    wanted f offset size = (f.content.drop offset.toNat).take (f.readSize offset.toNat size) := by
  rw [wanted, drop_take, f.readSize_of_lt hsum]
  congr 1
  split_ifs <;> omega

theorem readNode_of_serves {list files : List LocalFile}
    {f : LocalFile} (h : ClipFiles.Serves list files)
    (hf : list[node.index]? = some f) (hregular : f.isDir = false) (hlength : f.size < 2 ^ 63)
    (hoffset : 0 ≤ offset ∧ offset ≤ f.size) (hsize : size < 2 ^ 31)
    (hopens : opens node.index = true) :
    (readNode opens files node streamId offset size).2 = some (wanted f offset size) ↔
      node.index < 2 ^ 31 ∧ offset % 2 ^ 32 < 2 ^ 31 ∧
        ClipFiles.NextLoads opens files node.index := by
  have hserve : ∀ files, ClipFiles.readFileContents opens files
      (node.request streamId offset size) = ClipFiles.serveFileContents opens files
        (.range (asI32 node.index) (rebuilt (node.request streamId offset size)) size) := by
    intro files
    rw [ClipFiles.readFileContents, decodeRequest_request hsize]
  have hnone : (readNode opens files node streamId offset size).2 = none →
      ¬ (readNode opens files node streamId offset size).2 = some (wanted f offset size) := by
    intro heq
    rw [heq]
    exact nofun
  by_cases hindex : node.index < 2 ^ 31
  · by_cases hlow : offset % 2 ^ 32 < 2 ^ 31
    · have hpos : rebuilt (node.request streamId offset size) = offset.toNat :=
        rebuilt_eq hoffset.1 (by omega) hlow
      have hrange := fun files' (h' : ClipFiles.Serves list files') =>
        ClipFiles.serveFileContents_range h' hf hregular hopens offset.toNat
          (by omega) size (by omega)
      rw [← wanted_eq f (by omega)] at hrange
      rw [hpos, asI32_of_lt hindex] at hserve
      by_cases hnext : ClipFiles.NextLoads opens files node.index
      · refine ⟨fun _ => ⟨hindex, hlow, hnext⟩, fun _ => ?_⟩
        refine ask_eq_some ?_ readRetry
        rw [hserve, (hrange files h).1, if_pos hnext]
      · refine ⟨fun heq => (hnone ?_ heq).elim, fun hc => (hnext hc.2.2).elim⟩
        refine ask_eq_none (P := fun files' => ClipFiles.Serves list files' ∧
          ¬ ClipFiles.NextLoads opens files' node.index) ?_ _ files ⟨h, hnext⟩
        rintro files' ⟨h', hnext'⟩
        obtain ⟨hdata, hdrop⟩ := hrange files' h'
        refine ⟨by rw [hserve, hdata, if_neg hnext'], ClipFiles.readFileContents_serves h' _, ?_⟩
        rw [hserve, ClipFiles.NextLoads, hdrop hnext']
        exact hnext'
    · refine ⟨fun heq => (hnone ?_ heq).elim, fun hc => (hlow hc.2.1).elim⟩
      refine ask_eq_none (P := ClipFiles.Serves list) ?_ _ files h
      intro files' h'
      refine ⟨?_, ClipFiles.readFileContents_serves h' _⟩
      have hbeyond := le_rebuilt node streamId size hoffset.1 (by omega)
      obtain ⟨g, hg, -, hsame⟩ := h'.get hf
      have hgsize : g.size = f.size := congrArg List.length hsame.1
      have hget : ClipFiles.getFile files' (asI32 node.index) = some g := by
        rw [asI32_of_lt hindex, ClipFiles.getFile, if_neg (by omega)]
        exact hg
      rw [hserve]
      simp only [ClipFiles.serveFileContents, hget]
      rw [if_pos (by omega)]
  · refine ⟨fun heq => (hnone ?_ heq).elim, fun hc => (hindex hc.1).elim⟩
    refine ask_eq_none (P := fun _ => True) ?_ _ files trivial
    intro files' _
    have hneg : asI32 node.index < 0 := by
      have := node.index_lt
      rw [asI32, if_neg (by omega)]
      omega
    rw [hserve]
    simp [ClipFiles.serveFileContents, ClipFiles.getFile, hneg]

/-- Any message of any peer, and the files that can be opened then. -/
abbrev Asked := (Nat → Bool) × FileContentsRequest

def served (files : List LocalFile) (asked : Asked) : List LocalFile :=
  (ClipFiles.readFileContents asked.1 files asked.2).1

theorem serves_exec {list : List LocalFile}
    (hfresh : ∀ f ∈ list, f.handle = none ∧ f.offset = 0) (before : List Asked) :
    ClipFiles.Serves list (Run.exec served list before) := by
  have hstart : ClipFiles.Serves list list := by
    refine forall₂_same.mpr ?_
    intro f hf
    obtain ⟨hhandle, hoffset⟩ := hfresh f hf
    exact ⟨by rw [LocalFile.Placed, hhandle, hoffset]; rfl, rfl, rfl⟩
  have hrun : ∀ (before : List Asked) (files : List LocalFile), ClipFiles.Serves list files →
      ClipFiles.Serves list (Run.exec served files before) := by
    intro before
    induction before with
    | nil => exact fun files h => h
    | cons asked before ih => exact fun files h => ih _ (ClipFiles.readFileContents_serves h _)
  exact hrun before list hstart

/-- **When a remote file reads like the local one.**  Whatever was asked before, a read
within a regular file gives exactly that part of the file if and only if the index of the
file and the low half of the position each stay below 2^31, and the file that comes next in
the list is open or can be opened. -/
theorem read_node_exact_iff (list : List LocalFile)
    (hfresh : ∀ f ∈ list, f.handle = none ∧ f.offset = 0) (before : List Asked)
    (opens : Nat → Bool) (node : FuseNode) (f : LocalFile) (streamId offset : Int) (size : Nat)
    (hf : list[node.index]? = some f) (hregular : f.isDir = false) (hlength : f.size < 2 ^ 63)
    (hoffset : 0 ≤ offset ∧ offset ≤ f.size) (hsize : size < 2 ^ 31)
    (hopens : opens node.index = true) :
    (readNode opens (Run.exec served list before) node streamId offset size).2 =
        some (wanted f offset size) ↔
      node.index < 2 ^ 31 ∧ offset % 2 ^ 32 < 2 ^ 31 ∧
        ClipFiles.NextLoads opens (Run.exec served list before) node.index :=
  readNode_of_serves (serves_exec hfresh before) hf hregular hlength hoffset hsize hopens

def freshFile (content : Bytes) : LocalFile := ⟨content, false, none, 0⟩

def firstNode : FuseNode := ⟨7, 0, by decide⟩

theorem second_read_exact :
    (readNode (fun _ => true)
        (Run.exec served [freshFile [1, 2, 3, 4]]
          [(fun _ => true, firstNode.request 1 1 2)]) firstNode 2 0 3).2 = some [1, 2, 3] :=
  (read_node_exact_iff [freshFile [1, 2, 3, 4]] (by decide)
    [(fun _ => true, firstNode.request 1 1 2)] (fun _ => true) firstNode (freshFile [1, 2, 3, 4])
    2 0 3 rfl rfl (by decide) (by decide) (by decide) rfl).mpr (by decide)

theorem two_gib_not_read (content : Bytes) (hlong : 2 ^ 31 < content.length)
    (hlength : content.length < 2 ^ 63) :
    (readNode (fun _ => true) [freshFile content] firstNode 1 (2 ^ 31) 1).2 ≠
      some (wanted (freshFile content) (2 ^ 31) 1) := by
  intro heq
  have hserves : ClipFiles.Serves [freshFile content] [freshFile content] :=
    serves_exec (by simp [freshFile]) []
  have hsize : (freshFile content).size = content.length := rfl
  have hget : [freshFile content][firstNode.index]? = some (freshFile content) := rfl
  have hcond := (readNode_of_serves hserves hget rfl
    hlength ⟨by decide, by rw [hsize]; omega⟩ (by decide) rfl).mp heq
  exact absurd hcond.2.1 (by decide)

theorem long_file_not_read :
    (readNode (fun _ => true) [freshFile (List.replicate (2 ^ 31 + 1) 0)] firstNode 1 (2 ^ 31) 1).2 ≠
      some (wanted (freshFile (List.replicate (2 ^ 31 + 1) 0)) (2 ^ 31) 1) :=
  two_gib_not_read _ (by rw [length_replicate]; omega) (by rw [length_replicate]; omega)

end FuseNode
end RustDesk
