import RustDesk.Clipboard.FileListRoundTrip
import RustDesk.Clipboard.FuseRead
import RustDesk.Clipboard.FuseTree

/-!
# From a copied file to its paste

The list of the copied files goes out (`LocalFileInfo.buildFileListPdu`), is read on the other
side, and becomes the tree that is mounted there; the kernel finds a file in it with one
`lookup` a name, and what is read of it is asked back from the list, by its position.

* `walk_of_leads`: the names that lead to a node are looked up to it, where no path is listed
  twice.
* `walks_exactly`: nothing else is found.
* `paste_is_copy`: every copied file is where it was in its folder, with its size and its
  bytes.
-/

namespace RustDesk

open UnixPath FuseTreeNode List

namespace FuseServer

def maxNameLen : Nat := 255

inductive LookupError where
  | enametoolong
  | enoent
  | enotdir

/-- `lookup`: the child whose attributes are replied. -/
def lookup (s : FuseServer) (parent : UInt64) (name : Bytes) : Except LookupError FuseTreeNode :=
  if maxNameLen < name.length then .error .enametoolong
  else
    match s.entry parent with
    | none => .error .enoent
    | some entry =>
      if entry.kind ≠ .directory then .error .enotdir
      else
        match (entry.children.filterMap fun inode => s.files[inode - 1]?).find?
          fun child => Utf8.bytes child.name = name with
        | none => .error .enoent
        | some child => .ok child

/-- What the kernel makes of a path below the mount point: its inode. -/
def walk (s : FuseServer) (names : List Bytes) : Except LookupError Nat :=
  names.foldlM (fun ino name => (s.lookup (.ofNat ino) name).map (·.inode)) fuseRootId

def listRoot (s : FuseServer) : List Text :=
  ((s.files.head?.map (·.children)).getD []).filterMap fun inode =>
    (s.files[inode - 1]?).map (·.name)

end FuseServer

structure FuseContext where
  server : FuseServer
  mountPoint : Text
  connId : Int

namespace FuseContext

inductive UrlsError where
  | parse (e : FileDescription.ParseError)
  | refused (name : Text)

def formatDataResponseToUrls (ctx : FuseContext) (formatData : Bytes) (connId : Int) :
    FuseContext × Except UrlsError (List Text) :=
  match FileDescription.parseFileDescriptors formatData connId with
  | .error e => (ctx, .error (.parse e))
  | .ok files =>
    match ctx.server.loadFileList files with
    | (_, .refused name) => (ctx, .error (.refused name))
    | (server, _) =>
      ({ ctx with server := server, connId := connId },
        .ok (server.listRoot.map (join ctx.mountPoint)))

end FuseContext

namespace FuseTreeNode

variable {tree tree' : List FuseTreeNode} {files : List FileDescription}
  {subRoots : List (PathKey × Nat)} {s : FuseServer}

theorem map_grow {β : Type} (φ : FuseTreeNode → β) (hφ : ∀ inode n, φ (addChild inode n) = φ n)
    {p : Nat} {file : FileDescription} {baseName : Text} :
    (grow tree p file baseName).map φ = tree.map φ ++
      [φ { fromDescription (tree.length + fuseRootId) { file with name := baseName } with
        parent := some p }] := by
  rw [grow, map_append]
  refine congrArg (· ++ _) (ext_getElem? fun k => ?_)
  rw [List.getElem?_map, List.getElem?_map, List.getElem?_modify]
  cases tree[k]? with
  | none => rfl
  | some n => split_ifs <;> simp [hφ]

/-- What a node keeps of the description besides the path. -/
def told (n : FuseTreeNode) : Int × Nat := (n.connId, n.size)

theorem told_buildFrom (h : buildFrom tree subRoots files = .ok tree') :
    tree'.map told = tree.map told ++ files.map fun d => (d.connId, d.size) := by
  induction files generalizing tree subRoots with
  | nil =>
    cases h
    simp
  | cons file files ih =>
    obtain ⟨baseName, -, hrest⟩ := buildFrom_cons h
    rw [ih hrest, map_grow told fun _ _ => rfl]
    simp [told, fromDescription]

theorem buildFrom_ok (h : ∀ d ∈ files, UnixPath.fileName d.name ≠ none) :
    ∃ tree', buildFrom tree subRoots files = .ok tree' := by
  induction files generalizing tree subRoots with
  | nil => exact ⟨tree, rfl⟩
  | cons file files ih =>
    unfold buildFrom
    dsimp only
    cases hname : UnixPath.fileName file.name with
    | none => exact absurd hname (h file mem_cons_self)
    | some baseName => exact ih fun d hd => h d (mem_cons_of_mem file hd)

/-- A list whose paths the kernel can tell apart. -/
structure Distinct (files : List FileDescription) : Prop extends PreOrdered files where
  nodup : (files.map fun d => components d.name).Nodup
  short : ∀ d ∈ files, ∀ c ∈ components d.name, (Utf8.bytes c).length ≤ FuseServer.maxNameLen

theorem bytes_inj {a b : Text} (h : Utf8.bytes a = Utf8.bytes b) : a = b := by
  rw [← Utf8.lossy_bytes a, h, Utf8.lossy_bytes]

theorem PreOrdered.names_of_file (hlist : PreOrdered files) (h : Shaped tree files) {i : Nat}
    {names : List Text} (hleads : Leads tree (i + 2) names) :
    ∃ d, files[i]? = some d ∧ names = components d.name := by
  rcases hlist.names_of_leads h hleads with ⟨hroot, -⟩ | ⟨j, d, hj, hd, hnames⟩
  · rw [fuseRootId] at hroot
    omega
  · obtain rfl : i = j := by omega
    exact ⟨d, hd, hnames⟩

theorem Distinct.same_inode (hlist : Distinct files) (h : Shaped tree files) {ino ino' : Nat}
    {names : List Text} (hleads : Leads tree ino names) (hleads' : Leads tree ino' names)
    (hne : names ≠ []) : ino = ino' := by
  rcases hlist.names_of_leads h hleads with ⟨-, hnil⟩ | ⟨i, d, rfl, hd, hcs⟩
  · exact absurd hnil hne
  rcases hlist.names_of_leads h hleads' with ⟨-, hnil⟩ | ⟨j, d', rfl, hd', hcs'⟩
  · exact absurd hnil hne
  have hi : (files.map fun d => components d.name)[i]? = some names := by simp [hd, hcs]
  have hj : (files.map fun d => components d.name)[j]? = some names := by simp [hd', ← hcs']
  have hlt := (List.getElem?_eq_some_iff.mp hi).1
  rw [(List.getElem?_inj hlt hlist.nodup).mp (hi.trans hj.symm)]

theorem Leads.entry (h : Shaped s.files files) (hfew : files.length < 2 ^ 32) {ino : Nat}
    {names : List Text} (hleads : Leads s.files ino names) :
    s.entry (.ofNat ino) = s.files[ino - 1]? := by
  have hlt : 1 ≤ ino ∧ ino < 2 ^ 64 := by
    have hlength := h.length
    cases hleads with
    | root => decide
    | child parent hm listed hn =>
      obtain ⟨i, file, q, rfl, hfile, -⟩ := h.child hm listed hn
      have := (List.getElem?_eq_some_iff.mp hfile).1
      omega
  have hslot : FuseServer.slot (.ofNat ino) = ino - 1 := by
    rw [FuseServer.slot, UInt64.toNat_sub_of_le, UInt64.toNat_ofNat_of_lt' hlt.2]
    · rfl
    · rw [UInt64.le_iff_toNat_le, UInt64.toNat_ofNat_of_lt' hlt.2]
      exact hlt.1
  rw [FuseServer.entry, hslot]

theorem Shaped.directory (h : Shaped tree files) {ino inode : Nat} {m n : FuseTreeNode}
    (hm : tree[ino - 1]? = some m) (listed : inode ∈ m.children)
    (hn : tree[inode - 1]? = some n) : m.kind = .directory := by
  obtain ⟨i, file, q, -, -, -, hq, horigin⟩ := h.child hm listed hn
  obtain ⟨m', hm', -, hdir, -⟩ := h.parent horigin
  rw [hq, hm] at hm'
  cases hm'
  exact hdir

theorem Distinct.short_name (hlist : Distinct files) (h : Shaped tree files) {ino : Nat}
    {names : List Text} {c : Text} (hleads : Leads tree ino names) (hc : c ∈ names) :
    (Utf8.bytes c).length ≤ FuseServer.maxNameLen := by
  rcases hlist.names_of_leads h hleads with ⟨-, rfl⟩ | ⟨i, d, -, hd, rfl⟩
  · cases hc
  · exact hlist.short d (mem_of_getElem? hd) c hc

/-- **One name**, looked up at a node that is led to. -/
theorem Leads.lookup_iff (hlist : Distinct files) (h : Shaped s.files files)
    (hfew : files.length < 2 ^ 32) {ino : Nat} {names : List Text} {n : FuseTreeNode}
    (hleads : Leads s.files ino names) (name : Bytes) :
    s.lookup (.ofNat ino) name = .ok n ↔ ∃ m inode, s.files[ino - 1]? = some m ∧
      inode ∈ m.children ∧ s.files[inode - 1]? = some n ∧ Utf8.bytes n.name = name := by
  rw [FuseServer.lookup, hleads.entry h hfew]
  constructor
  · intro hok
    split_ifs at hok
    split at hok
    next => cases hok
    next m hm =>
      split_ifs at hok
      split at hok
      next => cases hok
      next child hfind =>
        cases hok
        obtain ⟨inode, hmem, hchild⟩ := mem_filterMap.mp (mem_of_find?_eq_some hfind)
        exact ⟨m, inode, hm, hmem, hchild, by simpa using List.find?_some hfind⟩
  · rintro ⟨m, inode, hm, hmem, hn, rfl⟩
    have hchild := Leads.child hleads hm hmem hn
    have hshort := hlist.short_name h hchild (mem_append_right names mem_cons_self)
    rw [if_neg (by omega), hm]
    dsimp only
    rw [if_neg (not_not.mpr (h.directory hm hmem hn))]
    split
    next hnone =>
      have hall := List.find?_eq_none.mp hnone n (mem_filterMap.mpr ⟨inode, hmem, hn⟩)
      simp at hall
    next child hfind =>
      obtain ⟨inode', hmem', hn'⟩ := mem_filterMap.mp (mem_of_find?_eq_some hfind)
      have hsame : child.name = n.name := bytes_inj (by simpa using List.find?_some hfind)
      have hchild' := Leads.child hleads hm hmem' hn'
      rw [hsame] at hchild'
      obtain rfl := hlist.same_inode h hchild' hchild (by simp)
      rw [Option.some.inj (hn'.symm.trans hn)]

theorem Shaped.inode_of_child (h : Shaped tree files) {ino inode : Nat} {m n : FuseTreeNode}
    (hm : tree[ino - 1]? = some m) (listed : inode ∈ m.children)
    (hn : tree[inode - 1]? = some n) : n.inode = inode := by
  obtain ⟨i, file, q, rfl, -, hnode, -⟩ := h.child hm listed hn
  exact hnode.inode

theorem walk_concat (s : FuseServer) (path : List Bytes) (name : Bytes) :
    s.walk (path ++ [name]) =
      (s.walk path).bind fun ino => (s.lookup (.ofNat ino) name).map (·.inode) := by
  rw [FuseServer.walk, foldlM_append]
  refine bind_congr fun ino => ?_
  rw [foldlM_cons]
  cases s.lookup (.ofNat ino) name <;> rfl

/-- **Along a path**: the names that lead to a node are looked up to it. -/
theorem walk_of_leads (hlist : Distinct files) (h : Shaped s.files files)
    (hfew : files.length < 2 ^ 32) {ino : Nat} {names : List Text}
    (hleads : Leads s.files ino names) : s.walk (names.map Utf8.bytes) = .ok ino := by
  induction hleads with
  | root => rfl
  | @child p inode names m n parent hm listed hn ih =>
    have hlookup := (parent.lookup_iff hlist h hfew _).mpr ⟨m, inode, hm, listed, hn, rfl⟩
    rw [map_append, map_singleton, walk_concat, ih]
    exact (congrArg (Except.map _) hlookup).trans
      (congrArg Except.ok (h.inode_of_child hm listed hn))

theorem leads_of_walk (hlist : Distinct files) (h : Shaped s.files files)
    (hfew : files.length < 2 ^ 32) {path : List Bytes} {ino : Nat} (hwalk : s.walk path = .ok ino) :
    ∃ names, path = names.map Utf8.bytes ∧ Leads s.files ino names := by
  induction path using List.reverseRecOn generalizing ino with
  | nil =>
    cases hwalk
    exact ⟨[], rfl, .root⟩
  | append_singleton path name ih =>
    rw [walk_concat] at hwalk
    cases hfront : s.walk path with
    | error e =>
      rw [hfront] at hwalk
      cases hwalk
    | ok p =>
      obtain ⟨names, rfl, hleads⟩ := ih hfront
      rw [hfront] at hwalk
      obtain ⟨n, hlookup, rfl⟩ : ∃ n, s.lookup (.ofNat p) name = .ok n ∧ n.inode = ino := by
        change (s.lookup (.ofNat p) name).map (·.inode) = _ at hwalk
        cases hlookup : s.lookup (.ofNat p) name with
        | error e =>
          rw [hlookup] at hwalk
          cases hwalk
        | ok n =>
          rw [hlookup] at hwalk
          exact ⟨n, rfl, Except.ok.inj hwalk⟩
      obtain ⟨m, inode, hm, listed, hn, rfl⟩ := (hleads.lookup_iff hlist h hfew name).mp hlookup
      obtain rfl := h.inode_of_child hm listed hn
      exact ⟨names ++ [n.name], by simp, .child hleads hm listed hn⟩

/-- **What is found in the mounted tree.**  A path is found exactly if it is that of a listed
file, and then it is that file which is found. -/
theorem walks_exactly (generation counter : Nat) (hlist : Distinct files)
    (hbuild : buildTree files = .ok tree) (hfew : files.length < 2 ^ 32) (path : List Bytes)
    (i : Nat) :
    FuseServer.walk ⟨generation, tree, counter⟩ path = .ok (i + 2) ↔
      ∃ d, files[i]? = some d ∧ path = (components d.name).map Utf8.bytes := by
  have h : Shaped (⟨generation, tree, counter⟩ : FuseServer).files files := shaped_buildTree hbuild
  constructor
  · intro hwalk
    obtain ⟨names, rfl, hleads⟩ := leads_of_walk hlist h hfew hwalk
    obtain ⟨d, hd, rfl⟩ := hlist.names_of_file h hleads
    exact ⟨d, hd, rfl⟩
  · rintro ⟨d, hd, rfl⟩
    obtain ⟨n, hn, -⟩ := h.nodes i d hd
    obtain ⟨names, hleads⟩ := h.leads hn
    obtain ⟨d', hd', rfl⟩ := hlist.names_of_file h hleads
    obtain rfl := Option.some.inj (hd'.symm.trans hd)
    exact walk_of_leads hlist h hfew hleads

theorem folderList_distinct : Distinct folderList :=
  ⟨folderList_preOrdered, by decide +kernel, by decide +kernel⟩

theorem folderList_walks : FuseServer.walk ⟨0, folderTree, 0⟩
    [Utf8.bytes "folder0".toList, Utf8.bytes "file0".toList] = .ok 3 :=
  (walks_exactly 0 0 folderList_distinct (by decide +kernel) (by decide) _ 1).mpr
    ⟨_, rfl, by decide +kernel⟩

theorem leads_nil {ino : Nat} (h : Leads tree ino []) : ino = fuseRootId := by
  generalize hnames : [] = names at h
  cases h with
  | root => rfl
  | child parent hm listed hn => simp at hnames

theorem mem_listRoot (h : Shaped s.files files) {c : Text} :
    c ∈ s.listRoot ↔ ∃ ino, Leads s.files ino [c] := by
  obtain ⟨root, hroot, -⟩ := h.root
  have hhead : s.files.head? = some root := by rw [List.head?_eq_getElem?, hroot]
  rw [FuseServer.listRoot, hhead]
  simp only [Option.map_some, Option.getD_some, mem_filterMap, Option.map_eq_some_iff]
  constructor
  · rintro ⟨inode, listed, n, hn, rfl⟩
    exact ⟨inode, .child .root hroot listed hn⟩
  · rintro ⟨ino, hleads⟩
    generalize hnames : [c] = names at hleads
    cases hleads with
    | root => simp at hnames
    | @child p inode front m n parent hm listed hn =>
      obtain ⟨rfl, hname⟩ : [] = front ∧ [c] = [n.name] := append_inj' hnames rfl
      obtain rfl := leads_nil parent
      obtain rfl := Option.some.inj (hroot.symm.trans hm)
      exact ⟨ino, listed, n, hn, (singleton_inj.mp hname).symm⟩

/-- `FuseNode`, as `read_node` has it. -/
def remote (n : FuseTreeNode) (h : n.index < 2 ^ 32) : FuseNode := ⟨n.connId, n.index, h⟩

end FuseTreeNode

/-- `LocalFile`, as `try_open` makes it. -/
structure CopiedFile where
  info : LocalFileInfo
  content : Bytes
  told : info.isDir = false → info.size = content.length

namespace CopiedFile

def file (f : CopiedFile) : LocalFile := ⟨f.content, f.info.isDir, none, 0⟩

def description (connId : Int) (f : CopiedFile) : FileDescription :=
  (f.info.parsed connId).toFileDescription

def path (f : CopiedFile) : List Text := components (Utf8.lossy f.info.relative)

/-- A selection that can be copied. -/
structure Copyable (copied : List CopiedFile) (connId : Int) : Prop
    extends FuseTreeNode.Distinct (copied.map (description connId)) where
  plain : ∀ f ∈ copied, f.info.PlainName
  fits : ∀ f ∈ copied, f.info.NameFits
  named : ∀ f ∈ copied, UnixPath.fileName (Utf8.lossy f.info.relative) ≠ none
  count : copied.length < 2 ^ 31

variable {copied : List CopiedFile} {connId : Int}

theorem Copyable.received (h : Copyable copied connId) (ctx : FuseContext) :
    ∃ pdu server, LocalFileInfo.buildFileListPdu (copied.map info) = .ok pdu ∧
      buildTree (copied.map (description connId)) = .ok server.files ∧
      ctx.formatDataResponseToUrls pdu connId =
        ({ ctx with server := server, connId := connId },
          .ok (server.listRoot.map (join ctx.mountPoint))) := by
  have hfits : ∀ i ∈ copied.map info, i.NameFits := forall_mem_map.mpr h.fits
  have hplain : ∀ i ∈ copied.map info, i.PlainName := forall_mem_map.mpr h.plain
  have hcount : (copied.map info).length < 2 ^ 32 := by
    have := h.count
    rw [length_map]
    omega
  have hparse := FullDescription.parseFileDescriptors_refines
    (LocalFileInfo.parseFileDescriptors_listBytes hfits hplain connId)
  rw [if_pos hcount, map_map] at hparse
  obtain ⟨tree, htree⟩ : ∃ tree, buildTree (copied.map (description connId)) = .ok tree :=
    buildFrom_ok (forall_mem_map.mpr h.named)
  rcases LocalFileInfo.buildFileListPdu_cases (copied.map info) with ⟨-, hpdu⟩ | ⟨hnot, -⟩
  · refine ⟨_, ⟨(ctx.server.generation + 1) % 2 ^ 64, tree, ctx.server.fileHandleCounter⟩, hpdu,
      htree, ?_⟩
    have hdescs : FileDescription.parseFileDescriptors
        (LocalFileInfo.listBytes (copied.map info)) connId
          = .ok (copied.map (description connId)) := by
      rw [← hparse]
      exact congrArg Except.ok (by rw [map_map]; rfl)
    rw [FuseContext.formatDataResponseToUrls, hdescs]
    simp only [FuseServer.loadFileList, htree]
  · exact absurd hfits hnot

theorem Copyable.node (h : Copyable copied connId) {tree : List FuseTreeNode}
    (hbuild : buildTree (copied.map (description connId)) = .ok tree) {k : Nat} {f : CopiedFile}
    (hf : copied[k]? = some f) :
    ∃ n, tree[k + 1]? = some n ∧ n.index = k ∧ n.kind = (f.description connId).kind ∧
      n.told = (connId, f.info.size) ∧ Leads tree (k + 2) f.path := by
  have hshaped := shaped_buildTree hbuild
  have hd : (copied.map (description connId))[k]? = some (f.description connId) := by
    rw [List.getElem?_map, hf]
    rfl
  obtain ⟨n, hn, hnode⟩ := hshaped.nodes k _ hd
  have htold : n.told = (connId, f.info.size) := by
    have hmap := congrArg (·[k + 1]?) (told_buildFrom hbuild)
    simpa [hn, hf, description, LocalFileInfo.parsed] using hmap
  obtain ⟨names, hleads⟩ := hshaped.leads hn
  obtain ⟨d, hd', rfl⟩ := h.names_of_file hshaped hleads
  obtain rfl := Option.some.inj (hd'.symm.trans hd)
  exact ⟨n, hn, hnode.index, hnode.kind, htold, hleads⟩

/-- A node reads as a content, whatever was asked before, when the file can be opened and the
next one of the list is open or can be opened. -/
def ReadsAs (copied : List CopiedFile) (node : FuseNode) (content : Bytes) : Prop :=
  ∀ (before : List FuseNode.Asked) (opens : Nat → Bool) (streamId offset : Int) (size : Nat),
    let files := Run.exec FuseNode.served (copied.map file) before
    opens node.index = true → ClipFiles.NextLoads opens files node.index →
    0 ≤ offset → offset ≤ content.length → size < 2 ^ 31 →
    (FuseNode.readNode opens files node streamId offset size).2 =
      some ((content.drop offset.toNat).take size)

theorem Copyable.reads (h : Copyable copied connId) {node : FuseNode} {f : CopiedFile}
    (hf : copied[node.index]? = some f) (hregular : f.info.isDir = false)
    (hlength : f.content.length < 2 ^ 31) : ReadsAs copied node f.content := by
  intro before opens streamId offset size files hopens hnext hpos hle hsize
  have hserves : ClipFiles.Serves (copied.map file) files :=
    FuseNode.serves_exec (by simp [file]) before
  have hget : (copied.map file)[node.index]? = some f.file := by
    rw [List.getElem?_map, hf]
    rfl
  have hsame : f.file.size = f.content.length := rfl
  have hrest : (f.content.drop offset.toNat).length = f.content.length - offset.toNat := length_drop
  have hread : (FuseNode.readNode opens _ node streamId offset size).2 = _ :=
    (FuseNode.readNode_of_serves hserves hget hregular (by omega) ⟨hpos, hle⟩ hsize
      hopens).mpr ⟨(List.getElem?_eq_some_iff.mp hf).1.trans h.count, by omega, hnext⟩
  rw [hread, FuseNode.wanted_eq _ (by omega), LocalFile.readSize_of_lt _ (by omega)]
  change some ((f.content.drop offset.toNat).take _) = _
  split_ifs with hend
  · rw [take_of_length_le (by omega), take_of_length_le (by omega)]
  · rfl

/-- **What is pasted is what was copied.**  The list goes out and is read, what stands in the
root is what was selected, and each copied file is found at its path, with its kind and its
size; and a file below 2 GiB reads as its content (`ReadsAs`). -/
theorem paste_is_copy (ctx : FuseContext) (h : Copyable copied connId) :
    ∃ pdu server urls, LocalFileInfo.buildFileListPdu (copied.map info) = .ok pdu ∧
      ctx.formatDataResponseToUrls pdu connId =
        ({ ctx with server := server, connId := connId }, .ok urls) ∧
      (∀ url, url ∈ urls ↔ ∃ f ∈ copied, ∃ c, f.path = [c] ∧ url = join ctx.mountPoint c) ∧
      ∀ k f, copied[k]? = some f → ∃ (n : FuseTreeNode) (hindex : n.index < 2 ^ 32),
        server.walk (f.path.map Utf8.bytes) = .ok (k + 2) ∧
        server.entry (.ofNat (k + 2)) = some n ∧
        (n.kind = .directory ↔ f.info.isDir = true) ∧ n.size = f.info.size ∧ n.connId = connId ∧
        (f.info.isDir = false → f.content.length < 2 ^ 31 →
          ReadsAs copied (n.remote hindex) f.content) := by
  obtain ⟨pdu, server, hpdu, hbuild, hurls⟩ := h.received ctx
  have hshaped := shaped_buildTree hbuild
  have hcount := h.count
  have hfew : (copied.map (description connId)).length < 2 ^ 32 := by
    rw [length_map]
    omega
  refine ⟨pdu, server, _, hpdu, hurls, fun url => ?_, fun k f hf => ?_⟩
  · rw [mem_map]
    constructor
    · rintro ⟨c, hc, rfl⟩
      obtain ⟨ino, hleads⟩ := (mem_listRoot hshaped).mp hc
      rcases h.names_of_leads hshaped hleads with ⟨-, hnil⟩ | ⟨j, d, -, hd, hcs⟩
      · simp at hnil
      · obtain ⟨f, hf, rfl⟩ := mem_map.mp (mem_of_getElem? hd)
        exact ⟨f, hf, c, hcs.symm, rfl⟩
    · rintro ⟨f, hf, c, hpath, rfl⟩
      obtain ⟨k, hk⟩ := List.getElem?_of_mem hf
      obtain ⟨n, -, -, -, -, hleads⟩ := h.node hbuild hk
      rw [hpath] at hleads
      exact ⟨c, (mem_listRoot hshaped).mpr ⟨_, hleads⟩, rfl⟩
  · obtain ⟨n, hn, rfl, hkind, htold, hleads⟩ := h.node hbuild hf
    have hindex := (List.getElem?_eq_some_iff.mp hf).1
    refine ⟨n, by omega, walk_of_leads h.toDistinct hshaped hfew hleads,
      (hleads.entry hshaped hfew).trans hn, ?_, congrArg Prod.snd htold, congrArg Prod.fst htold,
      h.reads hf⟩
    rw [hkind]
    simp [description, LocalFileInfo.parsed]

def small (name : String) (isDir : Bool) (data : Bytes) (h : data.length < 2 ^ 64) : CopiedFile :=
  ⟨{ LocalFileInfo.below (Utf8.bytes name.toList) isDir 0 with
    size := data.length, size_lt := h }, data, fun _ => rfl⟩

def folder0 : CopiedFile := small "folder0" true [] (by decide)
def file0 : CopiedFile := small "folder0/file0" false [1, 2, 3, 4, 5] (by decide)

theorem folderCopy_copyable : Copyable [folder0, file0] 1 := by
  have hlist : [folder0, file0].map (description 1) = folderList := by decide +kernel
  refine ⟨hlist ▸ folderList_distinct, ?_, by decide +kernel, by decide +kernel, by decide⟩
  refine forall_mem_cons.mpr ⟨⟨?_, ?_, ?_⟩, forall_mem_singleton.mpr ⟨?_, ?_, ?_⟩⟩
  all_goals decide +kernel

/-- The end of the file in the folder. -/
theorem folder_pasted : ∃ (server : FuseServer) (n : FuseTreeNode) (hindex : n.index < 2 ^ 32),
    server.walk [Utf8.bytes "folder0".toList, Utf8.bytes "file0".toList] = .ok 3 ∧
      server.entry 3 = some n ∧
      (FuseNode.readNode (fun _ => true) ([folder0, file0].map file) (n.remote hindex) 7 2 9).2 =
        some [3, 4, 5] := by
  obtain ⟨pdu, server, urls, -, -, -, hfiles⟩ :=
    paste_is_copy ⟨.new, "/mnt".toList, 0⟩ folderCopy_copyable
  obtain ⟨n, hindex, hwalk, hentry, -, -, -, hreads⟩ := hfiles 1 file0 rfl
  have hpath : file0.path = ["folder0".toList, "file0".toList] := by
    decide +kernel
  rw [hpath] at hwalk
  exact ⟨server, n, hindex, hwalk, hentry,
    hreads rfl (by decide) [] _ 7 2 9 rfl (fun _ _ => .inr rfl) (by decide) (by decide) (by decide)⟩

end CopiedFile
end RustDesk
