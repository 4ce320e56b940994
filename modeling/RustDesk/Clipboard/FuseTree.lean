import RustDesk.Clipboard.FuseHandles
import RustDesk.Lib.ParentTree

/-!
# The tree of the FUSE server

`FuseNode::build_tree` makes a tree of any list of descriptions: parents are looked up by
name among the directories that were listed before, and what is not found becomes a child
of the root.  What is kept while the list is read is `Shaped`: the parents of the nodes are
a rooted tree, and the children of a node are those whose parent it is.

Names that are plain and listed with all their parents are found again along the tree
(`PlainList.names_of_leads`).
-/

namespace RustDesk

open UnixPath ParentTree List

namespace FuseTreeNode

variable {tree tree' : List FuseTreeNode} {files done : List FileDescription}
  {file : FileDescription} {subRoots : List (PathKey × Nat)} {key : Option PathKey} {p i : Nat}

def parents (tree : List FuseTreeNode) : List (Option Nat) :=
  tree.map fun n => n.parent.map (· - 1)

/-- Where the parent of a path is found: at the node of a directory with its key, or at the
root if there is none. -/
def Origin (done : List FileDescription) (key : Option PathKey) (p : Nat) : Prop :=
  (p = fuseRootId ∧ ∀ d ∈ done, d.kind = .directory → key ≠ some (pathKey d.name)) ∨
    ∃ j d, done[j]? = some d ∧ d.kind = .directory ∧ key = some (pathKey d.name) ∧ p = j + 2

structure NodeOf (done : List FileDescription) (i : Nat) (file : FileDescription)
    (n : FuseTreeNode) : Prop where
  inode : n.inode = i + 2
  index : n.index = i
  kind : n.kind = file.kind
  name : UnixPath.fileName file.name = some n.name
  parent : ∃ p, n.parent = some p ∧ Origin (done.take i) (parentKey file.name) p

/-- **The shape of the tree**, while the list is read. -/
structure Shaped (tree : List FuseTreeNode) (done : List FileDescription) : Prop where
  length : tree.length = done.length + 1
  root : ∃ n, tree[0]? = some n ∧ n.inode = fuseRootId ∧ n.kind = .directory
  nodes : ∀ i file, done[i]? = some file → ∃ n, tree[i + 1]? = some n ∧ NodeOf done i file n
  rooted : Rooted (parents tree)
  children : ∀ k n, tree[k]? = some n → n.children = (childrenOf (parents tree) k).map (· + 1)

def Mapped (subRoots : List (PathKey × Nat)) (done : List FileDescription) : Prop :=
  ∀ key, Origin done (some key) ((subRoots.lookup key).getD fuseRootId)

theorem Origin.none : Origin done none fuseRootId := .inl ⟨rfl, fun _ _ _ => nofun⟩

theorem Origin.position (h : Origin done key p) : p = fuseRootId ∨ ∃ j d, done[j]? = some d ∧
    d.kind = .directory ∧ key = some (pathKey d.name) ∧ p = j + 2 := by
  rcases h with ⟨hp, -⟩ | hfound
  · exact .inl hp
  · exact .inr hfound

theorem mapped_nil : Mapped [((false, []), fuseRootId), ((true, []), fuseRootId)] [] := by
  refine fun key => .inl ⟨?_, nofun⟩
  rw [lookup_cons]
  split
  · rfl
  · rw [lookup_cons]
    split <;> rfl

theorem Mapped.skip (h : Mapped subRoots done) (hkind : file.kind ≠ .directory) :
    Mapped subRoots (done ++ [file]) := by
  intro key
  rcases h key with ⟨hp, hnone⟩ | ⟨j, d, hj, hd⟩
  · refine .inl ⟨hp, fun d hd hdir => ?_⟩
    rcases mem_append.mp hd with hd | hd
    · exact hnone d hd hdir
    · rw [mem_singleton.mp hd] at hdir
      exact absurd hdir hkind
  · exact .inr ⟨j, d, List.getElem?_append_left (List.getElem?_eq_some_iff.mp hj).1 ▸ hj, hd⟩

theorem Mapped.directory (h : Mapped subRoots done) (hkind : file.kind = .directory) :
    Mapped ((pathKey file.name, done.length + 2) :: subRoots) (done ++ [file]) := by
  intro key
  by_cases hkey : key = pathKey file.name
  · subst hkey
    refine .inr ⟨done.length, file, List.getElem?_concat_length, hkind, rfl, ?_⟩
    simp
  · have hlookup : List.lookup key ((pathKey file.name, done.length + 2) :: subRoots)
        = subRoots.lookup key := by
      rw [lookup_cons, beq_false_of_ne hkey]
    rw [hlookup]
    rcases h key with ⟨hp, hnone⟩ | ⟨j, d, hj, hd⟩
    · refine .inl ⟨hp, fun d hd hdir => ?_⟩
      rcases mem_append.mp hd with hd | hd
      · exact hnone d hd hdir
      · rw [mem_singleton.mp hd]
        exact fun heq => hkey (Option.some.inj heq)
    · exact .inr ⟨j, d, List.getElem?_append_left (List.getElem?_eq_some_iff.mp hj).1 ▸ hj, hd⟩

def addChild (inode : Nat) (n : FuseTreeNode) : FuseTreeNode :=
  { n with children := n.children ++ [inode] }

def grow (tree : List FuseTreeNode) (p : Nat) (file : FileDescription) (baseName : Text) :
    List FuseTreeNode :=
  tree.modify (p - 1) (addChild (tree.length + fuseRootId)) ++
    [{ fromDescription (tree.length + fuseRootId) { file with name := baseName } with
      parent := some p }]

variable {baseName : Text}

theorem parents_grow : parents (grow tree p file baseName) = parents tree ++ [some (p - 1)] := by
  have hmodify : (tree.modify (p - 1) (addChild (tree.length + fuseRootId))).map
      (fun n => n.parent.map (· - 1)) = tree.map fun n => n.parent.map (· - 1) := by
    refine ext_getElem? fun k => ?_
    rw [List.getElem?_map, List.getElem?_map, List.getElem?_modify]
    cases tree[k]? with
    | none => rfl
    | some n =>
      split_ifs <;> rfl
  rw [parents, grow, map_append, hmodify]
  rfl

theorem Shaped.parent (h : Shaped tree done) (horigin : Origin (done.take i) key p) :
    ∃ n, tree[p - 1]? = some n ∧ n.inode = p ∧ n.kind = .directory ∧ 1 ≤ p ∧ p ≤ tree.length ∧
      p < i + 2 := by
  have hlength := h.length
  rcases horigin.position with rfl | ⟨j, d, hj, hdir, -, rfl⟩
  · obtain ⟨n, hn, hinode, hkind⟩ := h.root
    exact ⟨n, hn, hinode, hkind, by decide, by rw [fuseRootId]; omega, by rw [fuseRootId]; omega⟩
  · have hlt := (List.getElem?_eq_some_iff.mp hj).1
    rw [length_take] at hlt
    rw [List.getElem?_take_of_lt (by omega)] at hj
    obtain ⟨n, hn, hnode⟩ := h.nodes j d hj
    exact ⟨n, hn, hnode.inode, hnode.kind.trans hdir, by omega, by omega, by omega⟩

theorem length_grow : (grow tree p file baseName).length = tree.length + 1 := by
  rw [grow, length_append, length_modify, length_singleton]

theorem getElem?_grow {k : Nat} (hk : k < tree.length) :
    (grow tree p file baseName)[k]? = tree[k]?.map fun n =>
      if p - 1 = k then addChild (tree.length + fuseRootId) n else n := by
  rw [grow, List.getElem?_append_left (by rw [length_modify]; exact hk), List.getElem?_modify]
  split_ifs <;> simp

theorem getElem?_grow_last : (grow tree p file baseName)[tree.length]? =
    some { fromDescription (tree.length + fuseRootId) { file with name := baseName } with
      parent := some p } := by
  rw [grow, List.getElem?_append_right (by rw [length_modify]), length_modify, Nat.sub_self]
  rfl

variable {n : FuseTreeNode}

theorem NodeOf.grow {j : Nat} {d : FileDescription} {inode : Nat}
    (h : NodeOf done j d n) (hj : j < done.length) (b : Prop) [Decidable b] :
    NodeOf (done ++ [file]) j d (if b then addChild inode n else n) := by
  obtain ⟨hinode, hindex, hkind, hname, hparent⟩ := h
  have htake : (done ++ [file]).take j = done.take j := take_append_of_le_length (by omega)
  split
  · exact ⟨hinode, hindex, hkind, hname, htake ▸ hparent⟩
  · exact ⟨hinode, hindex, hkind, hname, htake ▸ hparent⟩

theorem Shaped.grow (h : Shaped tree done) (hname : UnixPath.fileName file.name = some baseName)
    (horigin : Origin done (parentKey file.name) p) :
    Shaped (grow tree p file baseName) (done ++ [file]) := by
  have hlength := h.length
  have horigin' : Origin (done.take done.length) (parentKey file.name) p := by
    rwa [take_length]
  obtain ⟨-, -, -, -, hpos, hle, -⟩ := h.parent horigin'
  have hparents : (parents tree).length = tree.length := length_map _
  have hrooted : Rooted (parents tree ++ [some (p - 1)]) := h.rooted.concat (by omega)
  refine ⟨?_, ?_, ?_, ?_, ?_⟩
  · rw [length_grow, hlength, length_append, length_singleton]
  · obtain ⟨n, hn, hinode, hkind⟩ := h.root
    rw [getElem?_grow (by omega), hn]
    refine ⟨_, rfl, ?_, ?_⟩
    · split <;> exact hinode
    · split <;> exact hkind
  · intro j d hj
    by_cases hlast : j < done.length
    · rw [List.getElem?_append_left hlast] at hj
      obtain ⟨n, hn, hnode⟩ := h.nodes j d hj
      rw [getElem?_grow (by omega), hn]
      exact ⟨_, rfl, hnode.grow hlast _⟩
    · have hj' : j = done.length := by
        have := (List.getElem?_eq_some_iff.mp hj).1
        rw [length_append, length_singleton] at this
        omega
      subst hj'
      rw [List.getElem?_concat_length] at hj
      cases hj
      rw [← hlength, getElem?_grow_last]
      refine ⟨_, rfl, ?_, ?_, rfl, hname, p, rfl, ?_⟩
      · change tree.length + fuseRootId = done.length + 2
        rw [fuseRootId, hlength]
      · change tree.length + fuseRootId - 2 = done.length
        rw [fuseRootId, hlength]
        omega
      · rw [take_left' rfl]
        exact horigin
  · rw [parents_grow]
    exact hrooted
  · intro k n hn
    rw [parents_grow, childrenOf_concat, hparents]
    by_cases hk : k < tree.length
    · rw [getElem?_grow hk] at hn
      obtain ⟨m, hm, rfl⟩ := Option.map_eq_some_iff.mp hn
      have hchildren := h.children k m hm
      by_cases hpk : p - 1 = k
      · rw [if_pos hpk, if_pos (congrArg some hpk), map_append, ← hchildren]
        rfl
      · have hne : some (p - 1) ≠ some k := fun heq => hpk (Option.some.inj heq)
        rw [if_neg hpk, if_neg hne, append_nil, hchildren]
    · have hk' : k = tree.length := by
        have := (List.getElem?_eq_some_iff.mp hn).1
        rw [length_grow] at this
        omega
      subst hk'
      rw [getElem?_grow_last] at hn
      cases hn
      have hnone : childrenOf (parents tree) tree.length = [] := by
        rw [← hparents]
        exact h.rooted.childrenOf_length
      have hne : some (p - 1) ≠ some tree.length := by
        intro heq
        have := Option.some.inj heq
        omega
      rw [hnone, if_neg hne]
      rfl

theorem shaped_newRoot : Shaped [newRoot] [] where
  length := rfl
  root := ⟨newRoot, rfl, rfl, rfl⟩
  nodes := nofun
  rooted := .singleton
  children := by
    intro k n hn
    obtain ⟨rfl, rfl⟩ : k = 0 ∧ newRoot = n := by
      cases k with
      | zero => exact ⟨rfl, Option.some.inj hn⟩
      | succ k => cases hn
    rfl

theorem buildFrom_cons (h : buildFrom tree subRoots (file :: files) = .ok tree') :
    ∃ baseName, UnixPath.fileName file.name = some baseName ∧
      buildFrom
        (grow tree (match parentKey file.name with
          | some key => (subRoots.lookup key).getD fuseRootId
          | none => fuseRootId) file baseName)
        (if file.kind = .directory then (pathKey file.name, tree.length + fuseRootId) :: subRoots
          else subRoots) files = .ok tree' := by
  unfold buildFrom at h
  dsimp only at h
  cases hname : UnixPath.fileName file.name with
  | none =>
    rw [hname] at h
    cases h
  | some baseName =>
    rw [hname] at h
    exact ⟨baseName, rfl, h⟩

theorem Shaped.buildFrom (h : Shaped tree done) (hmap : Mapped subRoots done)
    (hbuild : buildFrom tree subRoots files = .ok tree') : Shaped tree' (done ++ files) := by
  induction files generalizing tree subRoots done with
  | nil =>
    cases hbuild
    rwa [append_nil]
  | cons file files ih =>
    obtain ⟨baseName, hname, hrest⟩ := buildFrom_cons hbuild
    rw [append_cons]
    have hlength : tree.length + fuseRootId = done.length + 2 := by
      rw [h.length, fuseRootId]
    refine ih (h.grow hname ?_) ?_ hrest
    · cases parentKey file.name with
      | none => exact .none
      | some key => exact hmap key
    · by_cases hkind : file.kind = .directory
      · rw [if_pos hkind, hlength]
        exact hmap.directory hkind
      · rw [if_neg hkind]
        exact hmap.skip hkind

theorem shaped_buildTree (h : buildTree files = .ok tree) : Shaped tree files :=
  shaped_newRoot.buildFrom mapped_nil h

/-- The names lead to the node, from the root down through the children. -/
inductive Leads (tree : List FuseTreeNode) : Nat → List Text → Prop
  | root : Leads tree fuseRootId []
  | child {p inode : Nat} {names : List Text} {m n : FuseTreeNode} (parent : Leads tree p names)
      (hparent : tree[p - 1]? = some m) (listed : inode ∈ m.children)
      (hnode : tree[inode - 1]? = some n) : Leads tree inode (names ++ [n.name])

/-- **A well-formed tree** for a list of descriptions. -/
structure WellFormed (files : List FileDescription) (tree : List FuseTreeNode) : Prop where
  length : tree.length = files.length + 1
  numbered : ∀ i n, tree[i + 1]? = some n → n.inode = i + 2 ∧ n.index = i
  parent : ∀ i n, tree[i + 1]? = some n → ∃ p m, n.parent = some p ∧ p < n.inode ∧
    tree[p - 1]? = some m ∧ m.inode = p ∧ m.kind = .directory ∧ m.children.count n.inode = 1 ∧
    ∀ k m', tree[k]? = some m' → n.inode ∈ m'.children → k = p - 1
  names : ∀ i n, tree[i + 1]? = some n → '/' ∉ n.name
  reachable : ∀ (k : Nat) (n : FuseTreeNode), tree[k]? = some n → ∃ names, Leads tree n.inode names

theorem Shaped.node (h : Shaped tree files) (hn : tree[i + 1]? = some n) :
    ∃ file, files[i]? = some file ∧ NodeOf files i file n := by
  have hlt := (List.getElem?_eq_some_iff.mp hn).1
  rw [h.length] at hlt
  have hfile : files[i]? = some files[i] := List.getElem?_eq_getElem (by omega)
  obtain ⟨n', hn', hnode⟩ := h.nodes i _ hfile
  obtain rfl := Option.some.inj (hn.symm.trans hn')
  exact ⟨_, hfile, hnode⟩

theorem Shaped.mem_children (h : Shaped tree files) {m n : FuseTreeNode} {k : Nat}
    (hm : tree[k]? = some m) (hn : tree[i]? = some n) :
    i + 1 ∈ m.children ↔ n.parent.map (· - 1) = some k := by
  have hparents : (parents tree)[i]? = some (n.parent.map (· - 1)) := by
    rw [parents, List.getElem?_map, hn]
    rfl
  rw [h.children k m hm, mem_map]
  constructor
  · rintro ⟨j, hj, heq⟩
    obtain rfl : j = i := by omega
    exact Option.some.inj (hparents.symm.trans (mem_childrenOf.mp hj))
  · intro heq
    exact ⟨i, mem_childrenOf.mpr (by rw [hparents, heq]), rfl⟩

theorem Shaped.inode (h : Shaped tree files) (hn : tree[i]? = some n) : n.inode = i + 1 := by
  cases i with
  | zero =>
    obtain ⟨r, hr, hinode, -⟩ := h.root
    obtain rfl := Option.some.inj (hn.symm.trans hr)
    exact hinode
  | succ i =>
    obtain ⟨file, -, hnode⟩ := h.node hn
    exact hnode.inode

theorem Shaped.leads (h : Shaped tree files) {k : Nat}
    (hn : tree[k]? = some n) : ∃ names, Leads tree (k + 1) names := by
  have hlength : (parents tree).length = tree.length := length_map _
  have hk : k < (parents tree).length := hlength ▸ (List.getElem?_eq_some_iff.mp hn).1
  refine h.rooted.induct (P := fun k => ∃ names, Leads tree (k + 1) names) ⟨[], .root⟩
    (fun i p hp hparent => ?_) k hk
  obtain ⟨names, hnames⟩ := hparent
  have hi := hlength ▸ (List.getElem?_eq_some_iff.mp hp).1
  have hpi := h.rooted.parent_lt hp
  have hchild : tree[i]? = some tree[i] := List.getElem?_eq_getElem hi
  have hm : tree[p]? = some tree[p] := List.getElem?_eq_getElem (by omega)
  rw [parents, List.getElem?_map, hchild] at hp
  exact ⟨_, .child hnames hm ((h.mem_children hm hchild).mpr (Option.some.inj hp)) hchild⟩

theorem Shaped.wellFormed (h : Shaped tree files) : WellFormed files tree := by
  refine ⟨h.length, fun i n hn => ?_, fun i n hn => ?_, fun i n hn => ?_, fun k n hn => ?_⟩
  · obtain ⟨file, -, hnode⟩ := h.node hn
    exact ⟨hnode.inode, hnode.index⟩
  · obtain ⟨file, -, hnode⟩ := h.node hn
    obtain ⟨p, hp, horigin⟩ := hnode.parent
    obtain ⟨m, hm, hinode, hkind, hpos, -, hlt⟩ := h.parent horigin
    have hposition : n.parent.map (· - 1) = some (p - 1) := by rw [hp]; rfl
    have hmem : n.inode ∈ m.children := by
      rw [hnode.inode]
      exact (h.mem_children hm hn).mpr hposition
    refine ⟨p, m, hp, by rw [hnode.inode]; exact hlt, hm, hinode, hkind, ?_, fun k m' hm' hk => ?_⟩
    · refine count_eq_one_of_mem ?_ hmem
      rw [h.children _ m hm]
      exact nodup_childrenOf.map fun a b hab => Nat.succ.inj hab
    · rw [hnode.inode] at hk
      have hk' := (h.mem_children hm' hn).mp hk
      exact Option.some.inj (hk'.symm.trans hposition)
  · obtain ⟨file, -, hnode⟩ := h.node hn
    exact (mem_components (mem_of_getLast? (fileName_eq_some hnode.name).1)).2
  · rw [h.inode hn]
    exact h.leads hn

/-- A directory comes before what is in it, and no name is absolute. -/
structure PreOrdered (files : List FileDescription) : Prop where
  relative : ∀ file ∈ files, isAbsolute file.name = false
  parents : ∀ (i : Nat) (file : FileDescription), files[i]? = some file → ∀ cs, cs ≠ [] →
    cs <+: components file.name → cs ≠ components file.name →
    ∃ (j : Nat) (d : FileDescription), j < i ∧ files[j]? = some d ∧ d.kind = .directory ∧
      components d.name = cs

theorem parentKey_of_fileName {name c : Text} (h : UnixPath.fileName name = some c) :
    parentKey name = some (isAbsolute name, (components name).dropLast) ∧
      components name = (components name).dropLast ++ [c] := by
  have hlast := (fileName_eq_some h).1
  have hne : components name ≠ [] := by
    intro hnil
    rw [hnil] at hlast
    cases hlast
  refine ⟨if_neg hne, ?_⟩
  have hget : (components name).getLast hne = c :=
    Option.some.inj ((List.getLast?_eq_some_getLast hne).symm.trans hlast)
  rw [← hget, dropLast_append_getLast]

theorem PreOrdered.origin (hlist : PreOrdered files) (hfile : files[i]? = some file) {c : Text}
    (hname : UnixPath.fileName file.name = some c)
    (horigin : Origin (files.take i) (parentKey file.name) p) :
    p = fuseRootId ∧ (components file.name).dropLast = [] ∨
      ∃ j d, files[j]? = some d ∧ p = j + 2 ∧
        components d.name = (components file.name).dropLast := by
  obtain ⟨hkey, hcomponents⟩ := parentKey_of_fileName hname
  have habs := hlist.relative file (mem_of_getElem? hfile)
  rcases horigin with ⟨hp, hnone⟩ | ⟨j, d, hj, hdir, hd, hp⟩
  · refine .inl ⟨hp, ?_⟩
    by_contra hne
    -- The parent is listed before the path, as a directory with the key that was not found.
    obtain ⟨j, d, hlt, hd, hdir, hparent⟩ := hlist.parents i file hfile _ hne
      ( dropLast_prefix _) (by
        intro heq
        have hlength := congrArg List.length (heq.trans hcomponents)
        rw [length_append, length_singleton] at hlength
        omega)
    have hmem : d ∈ files.take i := mem_of_getElem? (by
      rw [List.getElem?_take_of_lt hlt]
      exact hd)
    refine hnone d hmem hdir ?_
    rw [hkey, pathKey, hparent, habs, hlist.relative d (mem_of_getElem? hd)]
  · have hlt := (List.getElem?_eq_some_iff.mp hj).1
    rw [length_take] at hlt
    rw [List.getElem?_take_of_lt (by omega)] at hj
    refine .inr ⟨j, d, hj, hp, ?_⟩
    rw [hkey] at hd
    exact (congrArg Prod.snd (Option.some.inj hd)).symm

theorem Shaped.child (h : Shaped tree files) {m n : FuseTreeNode} {k inode : Nat}
    (hm : tree[k]? = some m) (listed : inode ∈ m.children) (hn : tree[inode - 1]? = some n) :
    ∃ i file q, inode = i + 2 ∧ files[i]? = some file ∧ NodeOf files i file n ∧ q - 1 = k ∧
      Origin (files.take i) (parentKey file.name) q := by
  have hposition : inode - 1 + 1 = inode := by
    rw [h.children _ m hm, mem_map] at listed
    obtain ⟨j, -, rfl⟩ := listed
    rfl
  rw [← hposition, h.mem_children hm hn] at listed
  obtain ⟨q, hq, hparent⟩ := Option.map_eq_some_iff.mp listed
  cases hinode : inode - 1 with
  | zero =>
    rw [hinode] at hn
    have hroot := h.rooted.root
    rw [FuseTreeNode.parents, List.getElem?_map, hn, Option.map_some, hq] at hroot
    cases hroot
  | succ i =>
    rw [hinode] at hn
    obtain ⟨file, hfile, hnode⟩ := h.node hn
    obtain ⟨q', hq', horigin⟩ := hnode.parent
    obtain rfl := Option.some.inj (hq.symm.trans hq')
    exact ⟨i, file, q, by omega, hfile, hnode, hparent, horigin⟩

/-- **Along the tree**: the names that lead to a node are the components of its path. -/
theorem PreOrdered.names_of_leads (hlist : PreOrdered files) (h : Shaped tree files) {inode : Nat}
    {names : List Text} (hleads : Leads tree inode names) :
    inode = fuseRootId ∧ names = [] ∨
      ∃ i file, inode = i + 2 ∧ files[i]? = some file ∧ names = components file.name := by
  induction hleads with
  | root => exact .inl ⟨rfl, rfl⟩
  | @child p inode names m n parent hm listed hn ih =>
    obtain ⟨i, file, q, rfl, hfile, hnode, hparent, horigin⟩ := h.child hm listed hn
    refine .inr ⟨i, file, rfl, hfile, ?_⟩
    rw [(parentKey_of_fileName hnode.name).2]
    refine congrArg (· ++ [n.name]) ?_
    rcases hlist.origin hfile hnode.name horigin with ⟨rfl, hnil⟩ | ⟨j, d, hd, rfl, heq⟩
    · rcases ih with ⟨-, rfl⟩ | ⟨j, d, rfl, -⟩
      · exact hnil.symm
      · rw [fuseRootId] at hparent
        omega
    · rcases ih with ⟨rfl, -⟩ | ⟨j', d', rfl, hd', rfl⟩
      · rw [fuseRootId] at hparent
        omega
      · obtain rfl : j' = j := by omega
        obtain rfl := Option.some.inj (hd'.symm.trans hd)
        exact heq

theorem Leads.components_join (h : Shaped tree files) {inode : Nat} {names : List Text}
    (hleads : Leads tree inode names) :
    components (names.foldl join []) = names ∧ isAbsolute (names.foldl join []) = false := by
  induction hleads with
  | root => exact ⟨rfl, rfl⟩
  | @child p inode names m n parent hm listed hn ih =>
    obtain ⟨hcomponents, habs⟩ := ih
    obtain ⟨i, file, q, -, -, hnode, -, -⟩ := h.child hm listed hn
    obtain ⟨hlast, -, hdot⟩ := fileName_eq_some hnode.name
    obtain ⟨hne, hsep⟩ := mem_components (mem_of_getLast? hlast)
    have hproper : proper n.name := by simp [proper, hne, hdot]
    rw [foldl_append, foldl_cons, foldl_nil]
    obtain ⟨hjoin, hrelative⟩ := components_join_name (names.foldl join []) hsep hproper
    exact ⟨by rw [hjoin, hcomponents], by rw [hrelative, habs]⟩

/-- **The tree of any list** for which one is built is well formed; and where every path is
relative and listed behind its parents, the names from the root to a node, joined, are its
path. -/
theorem buildTree_wellFormed (files : List FileDescription) (tree : List FuseTreeNode)
    (h : buildTree files = .ok tree) :
    WellFormed files tree ∧
      (PreOrdered files → ∀ i file, files[i]? = some file → ∀ names, Leads tree (i + 2) names →
        pathKey (names.foldl join []) = pathKey file.name) := by
  have hshaped := shaped_buildTree h
  refine ⟨hshaped.wellFormed, fun hlist i file hfile names hleads => ?_⟩
  obtain ⟨hcomponents, habs⟩ := hleads.components_join hshaped
  have hrelative := hlist.relative file (mem_of_getElem? hfile)
  rcases hlist.names_of_leads hshaped hleads with ⟨hroot, -⟩ | ⟨j, d, hj, hd, rfl⟩
  · rw [fuseRootId] at hroot
    omega
  · obtain rfl : j = i := by omega
    obtain rfl := Option.some.inj (hd.symm.trans hfile)
    rw [pathKey, pathKey, hcomponents, habs, hrelative]

def folderList : List FileDescription :=
  [⟨1, "folder0".toList, .directory, 0⟩, ⟨1, "folder0/file0".toList, .file, 5⟩]

theorem folderList_preOrdered : PreOrdered folderList := by
  have hfolder : components "folder0".toList = [] ++ ["folder0".toList] := by decide +kernel
  have hfile : components "folder0/file0".toList = ["folder0".toList] ++ ["file0".toList] := by
    decide +kernel
  refine ⟨by decide +kernel, fun i file hi cs hcs hprefix hne => ?_⟩
  match i with
  | 0 =>
    cases hi
    rw [hfolder, prefix_concat_iff] at hprefix
    rcases hprefix with heq | hnil
    · exact absurd (heq.trans hfolder.symm) hne
    · exact absurd (prefix_nil.mp hnil) hcs
  | 1 =>
    cases hi
    rw [hfile, prefix_concat_iff] at hprefix
    rcases hprefix with heq | hfront
    · exact absurd (heq.trans hfile.symm) hne
    · refine ⟨0, _, Nat.zero_lt_one, rfl, rfl, hfolder.trans ?_⟩
      have hsingle : cs <+: [] ++ ["folder0".toList] := hfront
      rcases prefix_concat_iff.mp hsingle with heq | hnil
      · exact heq.symm
      · exact absurd (prefix_nil.mp hnil) hcs
  | i + 2 => cases hi

def folderTree : List FuseTreeNode :=
  [⟨0, 1, 0, none, ['/'], .directory, 0, [2], .new⟩,
    ⟨1, 2, 0, some 1, "folder0".toList, .directory, 0, [3], .new⟩,
    ⟨1, 3, 1, some 2, "file0".toList, .file, 5, [], .new⟩]

/-- The folder and its file along their tree. -/
theorem folderList_wellFormed :
    WellFormed folderList folderTree ∧ ∀ names, Leads folderTree 3 names →
      pathKey (names.foldl join []) = pathKey "folder0/file0".toList := by
  have hbuilt : buildTree folderList = .ok folderTree := by decide +kernel
  obtain ⟨hwell, hpaths⟩ := buildTree_wellFormed folderList folderTree hbuilt
  exact ⟨hwell, hpaths folderList_preOrdered 1 _ rfl⟩

/-- **The root** is a node whose name is the separator. -/
theorem root_name_is_separator :
    ∃ tree n, buildTree [] = .ok tree ∧ tree[0]? = some n ∧ '/' ∈ n.name :=
  ⟨[newRoot], newRoot, rfl, rfl, mem_singleton.mpr rfl⟩

end FuseTreeNode
end RustDesk
