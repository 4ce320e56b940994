import Mathlib.Data.List.AList
import RustDesk.Config.PasswordSecurity
import RustDesk.Lib.UnixPath

/-!
# The files of the peers

`PeerConfig`: what is known about a peer is kept in a file of its own, below `peers`, and
the name of the file is made from the id of the peer.  An id with a character that a file
name cannot have is encoded in base64, behind `base64_`.  `get_vec_id_modified_time_path`
goes the other way, from the files to the ids, and `batch_peers` loads what it lists; a
file whose id has no platform is deleted.

The way back does not always lead to the same id: the base64 alphabet has a `/`, and an id
may begin with `base64_` itself.  `Storable` is the exact condition.
-/

namespace RustDesk

open UnixPath List

/-- What is stored for a peer: `info.platform`, and all the rest. -/
structure PeerConfig (α : Type) where
  platform : String
  rest : α

/-- `PeerConfig::default`. -/
instance {α : Type} [Inhabited α] : Inhabited (PeerConfig α) := ⟨⟨"", default⟩⟩

/-- The files below the configuration directory, each by the components of its path.  A
file holds what `load` makes of it. -/
abbrev PeerDisk (α : Type) := AList fun _ : List Text => PeerConfig α

/-- An entry of the listing: the id, the time of the last change, the path. -/
abbrev ListedPeer := String × Nat × Text

namespace PeerConfig

def forbiddenPaths (id : String) : Bool :=
  id.toList.any fun c => ['<', '>', ':', '/', '\\', '|', '?', '*'].contains c

def base64Mark : Text := ['b', 'a', 's', 'e', '6', '4', '_']

def idEncoded (id : String) : Text :=
  if forbiddenPaths id then base64Mark ++ Base64.encode (asBytes id) else id.toList

/-- `PEERS`. -/
def peersName : Text := ['p', 'e', 'e', 'r', 's']

/-- `Config::with_extension`. -/
def withToml (p : Text) : Text :=
  match extension p with
  | some ext => withExtension p (ext ++ ['.', 't', 'o', 'm', 'l'])
  | none => withExtension p ['t', 'o', 'm', 'l']

/-- `PeerConfig::path`, where `dir` is the configuration directory. -/
def path (dir : Text) (id : String) : Text :=
  withToml (join dir (join peersName (idEncoded id)))

def fileOf (dir : Text) (id : String) : List Text := components (path dir id)

variable {α : Type} [Inhabited α]

def load (disk : PeerDisk α) (dir : Text) (id : String) : PeerConfig α :=
  (disk.lookup (fileOf dir id)).getD default

def store (disk : PeerDisk α) (dir : Text) (id : String) (c : PeerConfig α) : PeerDisk α :=
  disk.insert (fileOf dir id) c

def entryName (dir : List Text) (file : List Text) : Option Text :=
  if file.dropLast = dir then file.getLast? else none

/-- `read_dir` on `peers`, the files only. -/
def readDir (disk : PeerDisk α) (dir : Text) : List Text :=
  (disk.keys.filterMap (entryName (components (join dir peersName)))).map
    (join (join dir peersName))

/-- `id_decoded_string`.  Behind the mark, the length is 7 in bytes when it is in
characters. -/
def idDecoded (stem : Text) : String :=
  if base64Mark <+: stem ∧ stem.length ≠ 7 then
    fromUtf8Lossy ((Base64.decode (stem.drop 7)).getD [])
  else String.ofList stem

def getVecIdModifiedTimePath (disk : PeerDisk α) (dir : Text) (modified : Text → Nat)
    (idFilters : Option (List String)) : List ListedPeer :=
  let peers := (readDir disk dir).filter fun p => extension p = some ['t', 'o', 'm', 'l']
  let ids := peers.map fun p => (idDecoded ((fileStem p).getD []), p)
  let kept := ids.filter fun entry => (idFilters.map (·.contains entry.1)).getD true
  (kept.map fun entry => (entry.1, modified entry.2, entry.2)).mergeSort fun a b => b.2.1 ≤ a.2.1

/-- The loop of `batch_peers`. -/
def batchLoop (dir : Text) : List ListedPeer → PeerDisk α →
    List (String × Nat × PeerConfig α) × PeerDisk α
  | [], disk => ([], disk)
  | (id, t, p) :: rest, disk =>
    let c := load disk dir id
    if c.platform = "" then batchLoop dir rest (disk.erase (components p))
    else
      let (peers, disk') := batchLoop dir rest disk
      ((id, t, c) :: peers, disk')

def batchLoadingCount : Nat := 100

def batchPeers (disk : PeerDisk α) (dir : Text) (all : List ListedPeer) (start : Nat)
    (stop : Option Nat) : (List (String × Nat × PeerConfig α) × Nat) × PeerDisk α :=
  if all.length ≤ start then (([], 0), disk)
  else
    let stop := min (stop.getD (start + batchLoadingCount)) all.length
    if stop ≤ start then (([], start), disk)
    else
      let (peers, disk') := batchLoop dir ((all.take stop).drop start) disk
      ((peers, stop), disk')

end PeerConfig

namespace PeerConfig

theorem withToml_spec {p c : Text} (h : UnixPath.fileName p = some c) (hsep : '/' ∉ c) :
    components (withToml p) = (components p).dropLast ++ [c ++ ['.', 't', 'o', 'm', 'l']] := by
  have hname : ∀ name : Text, '/' ∉ name →
      components (withFileName p (name ++ ['.', 't', 'o', 'm', 'l'])) =
        (components p).dropLast ++ [name ++ ['.', 't', 'o', 'm', 'l']] := by
    intro name hname
    refine (components_withFileName h ?_ ?_).1
    · simpa using hname
    · cases name <;> simp [proper, dot]
  rcases splitAtDot_spec c with hc | ⟨before, after, hc, rfl⟩
  · have hext : extension p = none := by simp [extension, h, hc]
    have hstem : fileStem p = some c := by simp [fileStem, h, hc]
    rw [withToml, hext]
    simp only [withExtension, hstem]
    exact hname c hsep
  · have hext : extension p = some after := by simp [extension, h, hc]
    have hstem : fileStem p = some before := by simp [fileStem, h, hc]
    rw [withToml, hext]
    simp only [withExtension, hstem]
    rw [← cons_append, ← append_assoc]
    exact hname _ hsep

variable {id : String}

theorem forbiddenPaths_eq_false (h : forbiddenPaths id = false) : '/' ∉ id.toList := by
  intro hmem
  have hall := any_eq_false.mp h '/' hmem
  exact hall (by decide)

theorem isAbsolute_idEncoded (id : String) : isAbsolute (idEncoded id) = false := by
  rw [idEncoded]
  split
  · rfl
  · rename_i h
    exact isAbsolute_of_notMem (forbiddenPaths_eq_false (by simpa using h))

theorem components_peers (dir : Text) :
    components (join dir peersName) = components dir ++ [peersName] :=
  (components_join_name dir (by decide) (by decide)).1

theorem components_joined (dir : Text) (id : String) :
    components (join dir (join peersName (idEncoded id))) =
      components (join dir peersName) ++ named (idEncoded id) := by
  have hpeers : join peersName (idEncoded id) = peersName ++ '/' :: idEncoded id := by
    rw [join, if_neg (by simp [isAbsolute_idEncoded]), if_neg (by decide)]
  have hnamed : named (peersName ++ '/' :: idEncoded id) = [peersName] ++ named (idEncoded id) := by
    rw [named_append_sep]
    rfl
  rw [components_peers, hpeers, append_assoc, ← hnamed]
  by_cases hdir : dir = []
  · subst hdir
    rw [join, if_neg (by exact Bool.false_ne_true), if_pos (Or.inl rfl), nil_append, components,
      lead_append_sep]
    rfl
  · obtain ⟨-, rest, hjoin, hrest, -⟩ := join_spec dir
      (show isAbsolute (peersName ++ '/' :: idEncoded id) = false from rfl)
    rw [hjoin, hrest hdir]

variable {stem : Text}

theorem fileOf_eq (dir : Text) {front : List Text}
    (h : named (idEncoded id) = front ++ [stem]) (hdot : stem ≠ dotdot) :
    fileOf dir id =
      components (join dir peersName) ++ front ++ [stem ++ ['.', 't', 'o', 'm', 'l']] := by
  have hstem := mem_named.mp (h ▸ mem_append_right front mem_cons_self)
  have hcomp := components_joined dir id
  rw [h, ← append_assoc] at hcomp
  have hname : UnixPath.fileName (join dir (join peersName (idEncoded id))) = some stem := by
    rw [UnixPath.fileName, hcomp, List.getLast?_append]
    simp [hdot, hstem.2.2]
  rw [fileOf, path, withToml_spec hname (notMem_of_mem_pieces hstem.1), hcomp, dropLast_concat]

def StoredAs (dir : Text) (id : String) (stem : Text) : Prop :=
  stem ≠ [] ∧ fileOf dir id = components (join dir peersName) ++ [stem ++ ['.', 't', 'o', 'm', 'l']]

theorem StoredAs.parts {dir p stem : Text} (h : StoredAs dir id stem)
    (hp : components p = fileOf dir id) :
    fileStem p = some stem ∧ extension p = some ['t', 'o', 'm', 'l'] := by
  have hlen : ∀ c : Text, c.length ≤ 2 → stem ++ ['.', 't', 'o', 'm', 'l'] ≠ c := by
    rintro c hc rfl
    simp only [length_append, length_cons, length_nil] at hc
    omega
  have hname : UnixPath.fileName p = some (stem ++ ['.', 't', 'o', 'm', 'l']) := by
    rw [UnixPath.fileName, hp, h.2, List.getLast?_append]
    simp [hlen dotdot (by decide), hlen dot (by decide)]
  have hsplit : splitAtDot (stem ++ ['.', 't', 'o', 'm', 'l']) = (stem, some ['t', 'o', 'm', 'l']) :=
    splitAtDot_append (by decide) h.1 (hlen dotdot (by decide))
  simp [fileStem, extension, hname, hsplit]

variable {α : Type}

theorem entryName_eq_some {dir file : List Text} {n : Text} :
    entryName dir file = some n ↔ file = dir ++ [n] := by
  rw [entryName]
  constructor
  · intro h
    split_ifs at h with hdir
    obtain ⟨front, rfl⟩ := List.getLast?_eq_some_iff.mp h
    rw [dropLast_concat] at hdir
    rw [hdir]
  · rintro rfl
    simp

variable {disk : PeerDisk α}

theorem mem_readDir {dir p : Text} : p ∈ readDir disk dir ↔
      ∃ n, components (join dir peersName) ++ [n] ∈ disk.keys ∧
        p = join (join dir peersName) n := by
  simp only [readDir, mem_map, mem_filterMap, entryName_eq_some]
  constructor
  · rintro ⟨n, ⟨file, hfile, rfl⟩, rfl⟩
    exact ⟨n, hfile, rfl⟩
  · rintro ⟨n, hfile, rfl⟩
    exact ⟨n, ⟨_, hfile, rfl⟩, rfl⟩

theorem mem_listing {dir p : Text} {modified : Text → Nat} {t : Nat} :
    (id, t, p) ∈ getVecIdModifiedTimePath disk dir modified none ↔
      p ∈ readDir disk dir ∧ extension p = some ['t', 'o', 'm', 'l'] ∧
        id = idDecoded ((fileStem p).getD []) ∧ t = modified p := by
  simp only [getVecIdModifiedTimePath, Option.map_none, Option.getD_none, filter_true,
    mem_mergeSort, mem_map, mem_filter, decide_eq_true_eq, Prod.mk.injEq,
    exists_exists_and_eq_and]
  constructor
  · rintro ⟨q, ⟨hq, hext⟩, rfl, rfl, rfl⟩
    exact ⟨hq, hext, rfl, rfl⟩
  · rintro ⟨hp, hext, rfl, rfl⟩
    exact ⟨p, ⟨hp, hext⟩, rfl, rfl, rfl⟩

theorem listed_as {dir p stem : Text} {modified : Text → Nat}
    {id id' : String} {t : Nat} (h : StoredAs dir id stem) (hp : components p = fileOf dir id)
    (hmem : (id', t, p) ∈ getVecIdModifiedTimePath disk dir modified none) :
    id' = idDecoded stem := by
  obtain ⟨-, -, hid, -⟩ := mem_listing.mp hmem
  rw [hid, (h.parts hp).1]
  rfl

theorem listed_of_lookup (modified : Text → Nat) {dir stem : Text} {c : PeerConfig α}
    (h : StoredAs dir id stem) (hsep : '/' ∉ stem)
    (hc : disk.lookup (fileOf dir id) = some c) :
    ∃ t p, (idDecoded stem, t, p) ∈ getVecIdModifiedTimePath disk dir modified none ∧
      components p = fileOf dir id := by
  have hproper : proper (stem ++ ['.', 't', 'o', 'm', 'l']) := by
    cases stem <;> simp [proper, dot]
  have hname : '/' ∉ stem ++ ['.', 't', 'o', 'm', 'l'] := by simpa using hsep
  have hcomp := (components_join_name (join dir peersName) hname hproper).1
  have hfile : components (join (join dir peersName) (stem ++ ['.', 't', 'o', 'm', 'l'])) =
      fileOf dir id := by rw [hcomp, h.2]
  obtain ⟨hstem, hext⟩ := h.parts hfile
  refine ⟨_, _, mem_listing.mpr ⟨mem_readDir.mpr ⟨_, ?_, rfl⟩, hext, ?_, rfl⟩, hfile⟩
  · rw [← h.2, ← AList.mem_keys, ← AList.lookup_isSome, hc]
    rfl
  · rw [hstem]
    rfl

variable [Inhabited α]

theorem batchLoop_keeps {dir : Text} {c : PeerConfig α} (hc : c.platform ≠ "") :
    ∀ (all : List ListedPeer) (disk : PeerDisk α),
      (∀ entry ∈ all, components entry.2.2 = fileOf dir id → entry.1 = id) →
      disk.lookup (fileOf dir id) = some c →
      (batchLoop dir all disk).2.lookup (fileOf dir id) = some c ∧
        ∀ entry ∈ all, entry.1 = id → (id, entry.2.1, c) ∈ (batchLoop dir all disk).1 := by
  intro all
  induction all with
  | nil => exact fun disk _ hdisk => ⟨hdisk, nofun⟩
  | cons entry all ih =>
    obtain ⟨x, t, p⟩ := entry
    intro disk hall hdisk
    have hrest := fun e he => hall e (mem_cons_of_mem _ he)
    have hload : x = id → load disk dir x = c := by
      rintro rfl
      rw [load, hdisk]
      rfl
    by_cases hplatform : (load disk dir x).platform = ""
    · have hx : x ≠ id := fun heq => hc (hload heq ▸ hplatform)
      have hp : components p ≠ fileOf dir id := fun heq => hx (hall _ mem_cons_self heq)
      obtain ⟨hkept, hreturned⟩ := ih (disk.erase (components p)) hrest
        (by rw [AList.lookup_erase_ne (Ne.symm hp), hdisk])
      simp only [batchLoop, hplatform, if_true]
      refine ⟨hkept, ?_⟩
      rintro e he heq
      rcases mem_cons.mp he with rfl | he
      · exact (hx heq).elim
      · exact hreturned e he heq
    · obtain ⟨hkept, hreturned⟩ := ih disk hrest hdisk
      simp only [batchLoop, hplatform, if_false]
      refine ⟨hkept, ?_⟩
      rintro e he heq
      rcases mem_cons.mp he with rfl | he
      · have hx : x = id := heq
        rw [hload hx, hx]
        exact mem_cons_self
      · exact mem_cons_of_mem _ (hreturned e he heq)

theorem batchPeers_all (disk : PeerDisk α) (dir : Text) (all : List ListedPeer) :
    (batchPeers disk dir all 0 (some all.length)).1.1 = (batchLoop dir all disk).1 := by
  cases all with
  | nil => rfl
  | cons entry all => simp [batchPeers]

theorem batchPeers_disk (disk : PeerDisk α) (dir : Text) (all : List ListedPeer) (start : Nat)
    (stop : Option Nat) :
    ∃ part, part ⊆ all ∧ (batchPeers disk dir all start stop).2 = (batchLoop dir part disk).2 := by
  simp only [batchPeers]
  split_ifs
  · exact ⟨[], nil_subset _, rfl⟩
  · exact ⟨[], nil_subset _, rfl⟩
  · exact ⟨_, fun x hx => mem_of_mem_take (mem_of_mem_drop hx), rfl⟩

/-- An id that can be asked for: not empty, without NUL, and neither `.` nor `..`. -/
def ValidId (id : String) : Prop :=
  id ≠ "" ∧ Char.ofNat 0 ∉ id.toList ∧ id ≠ "." ∧ id ≠ ".."

/-- The id comes back from the file system: its file is directly in `peers`; and however
the disk looks when the peer is stored with a platform, and in whatever order the directory
is read, the id is listed with that file, loading the whole list returns what was stored,
and no batch deletes the file. -/
structure Survives (α : Type) [Inhabited α] (dir : Text) (id : String) : Prop where
  direct : ∃ name, fileOf dir id = components (join dir peersName) ++ [name]
  kept : ∀ (disk : PeerDisk α) (c : PeerConfig α), c.platform ≠ "" →
    ∀ after : PeerDisk α, after.entries.Perm (store disk dir id c).entries →
      ∀ (modified : Text → Nat) (all : List ListedPeer),
        all = getVecIdModifiedTimePath after dir modified none →
        (∃ t p, (id, t, p) ∈ all ∧ components p = fileOf dir id) ∧
        (∃ t, (id, t, c) ∈ (batchPeers after dir all 0 (some all.length)).1.1) ∧
        ∀ start stop, (batchPeers after dir all start stop).2.lookup (fileOf dir id) = some c

instance (id : String) : Decidable (ValidId id) := inferInstanceAs (Decidable (_ ∧ _))

/-- The ids for which the way back leads to the id: an encoded one has no `/`, and one that
is not encoded does not look as if it were. -/
def Storable (id : String) : Prop :=
  if forbiddenPaths id then '/' ∉ Base64.encode (asBytes id)
  else ¬ (base64Mark <+: id.toList ∧ id.toList.length ≠ 7)

instance (id : String) : Decidable (Storable id) :=
  inferInstanceAs (Decidable (if forbiddenPaths id then _ else _))

theorem idEncoded_plain (h : ¬ forbiddenPaths id) : idEncoded id = id.toList ∧ '/' ∉ id.toList := by
  rw [idEncoded, if_neg h]
  exact ⟨rfl, forbiddenPaths_eq_false (by simpa using h)⟩

theorem named_plain (hv : ValidId id) (h : ¬ forbiddenPaths id) :
    named (idEncoded id) = [id.toList] := by
  obtain ⟨henc, hsep⟩ := idEncoded_plain h
  have hne : id.toList ≠ [] := fun heq => hv.1 (String.toList_inj.mp (heq.trans (by decide)))
  have hdot : id.toList ≠ dot := fun heq => hv.2.2.1 (String.toList_inj.mp (heq.trans (by decide)))
  rw [henc, named_of_notMem hsep, if_pos (by simp [proper, hne, hdot])]

theorem dot_notMem_encoded (v : Bytes) : '.' ∉ base64Mark ++ Base64.encode v := by
  intro hmem
  rcases mem_append.mp hmem with hmem | hmem
  · exact absurd hmem (by decide)
  · rcases Base64.mem_encode hmem with ⟨n, hn, heq⟩ | heq
    · have hall : ∀ n < 64, '.' ≠ Base64.digit n := by decide
      exact hall n hn heq
    · cases heq

theorem named_idEncoded (hv : ValidId id) :
    ∃ front stem, named (idEncoded id) = front ++ [stem] ∧ stem ≠ dotdot := by
  by_cases hforb : forbiddenPaths id
  · have hdot := dot_notMem_encoded (asBytes id)
    rw [idEncoded, if_pos hforb]
    have hne : named (base64Mark ++ Base64.encode (asBytes id)) ≠ [] := by
      intro hnil
      have := named_eq_nil hdot hnil 'b' (by simp [base64Mark])
      exact absurd this (by decide)
    obtain ⟨front, stem, hstem⟩ := (eq_nil_or_concat _).resolve_left hne
    rw [concat_eq_append] at hstem
    refine ⟨front, stem, hstem, ?_⟩
    rintro rfl
    have hmem := (mem_named.mp (hstem ▸ mem_append_right front mem_cons_self)).1
    exact hdot ((mem_pieces_iff (by decide)).mp ⟨dotdot, hmem, by decide⟩)
  · refine ⟨[], id.toList, by rw [named_plain hv hforb]; rfl, ?_⟩
    exact fun heq => hv.2.2.2 (String.toList_inj.mp (heq.trans (by decide)))

theorem storedAs_of_named (dir : Text) (hv : ValidId id)
    (h : named (idEncoded id) = [stem]) : StoredAs dir id stem := by
  obtain ⟨front, stem', hnamed, hdot⟩ := named_idEncoded hv
  rw [h] at hnamed
  obtain ⟨rfl, rfl⟩ : front = [] ∧ stem = stem' := by
    cases front with
    | nil => simpa using hnamed
    | cons f front => simp at hnamed
  refine ⟨(mem_named.mp (h ▸ mem_cons_self)).2.1, ?_⟩
  have hone : named (idEncoded id) = [] ++ [stem] := h
  simpa using fileOf_eq dir hone hdot

theorem survives_iff (dir : Text) (hv : ValidId id) :
    Survives α dir id ↔ ∃ stem, named (idEncoded id) = [stem] ∧ idDecoded stem = id := by
  constructor
  · intro h
    obtain ⟨front, stem, hnamed, hdot⟩ := named_idEncoded hv
    obtain ⟨name, hname⟩ := h.direct
    rw [fileOf_eq dir hnamed hdot, append_assoc, append_cancel_left_eq] at hname
    obtain rfl : front = [] := by
      have := congrArg List.length hname
      simpa using this
    obtain ⟨⟨t, p, hlisted, hp⟩, -, -⟩ :=
      h.kept ∅ ⟨"Linux", default⟩ (by simp) _ (List.Perm.refl _) (fun _ => 0) _ rfl
    exact ⟨stem, hnamed, (listed_as (storedAs_of_named dir hv hnamed) hp hlisted).symm⟩
  · rintro ⟨stem, hnamed, hid⟩
    have hstored := storedAs_of_named dir hv hnamed
    have hsep := notMem_of_mem_pieces (mem_named.mp (hnamed ▸ mem_cons_self)).1
    refine ⟨⟨_, hstored.2⟩, ?_⟩
    rintro disk c hc after hperm modified all rfl
    have hlookup : after.lookup (fileOf dir id) = some c := by
      rw [AList.perm_lookup hperm]
      exact AList.lookup_insert disk
    obtain ⟨t, p, hlisted, hp⟩ := listed_of_lookup modified hstored hsep hlookup
    rw [hid] at hlisted
    have hall : ∀ entry ∈ getVecIdModifiedTimePath after dir modified none,
        components entry.2.2 = fileOf dir id → entry.1 = id := by
      intro entry hentry hentryFile
      rw [listed_as hstored hentryFile hentry, hid]
    refine ⟨⟨t, p, hlisted, hp⟩, ⟨t, ?_⟩, ?_⟩
    · rw [batchPeers_all]
      exact (batchLoop_keeps hc _ after hall hlookup).2 _ hlisted rfl
    · intro start stop
      obtain ⟨part, hpart, heq⟩ := batchPeers_disk after dir
        (getVecIdModifiedTimePath after dir modified none) start stop
      rw [heq]
      exact (batchLoop_keeps hc part after (fun e he => hall e (hpart he)) hlookup).1

theorem idDecoded_encoded (h : id ≠ "") :
    idDecoded (base64Mark ++ Base64.encode (asBytes id)) = id := by
  have hne := Base64.encode_ne_nil (fun hnil => h (asBytes_eq_nil.mp hnil))
  have hlen : (base64Mark ++ Base64.encode (asBytes id)).length ≠ 7 := by
    have := length_pos_of_ne_nil hne
    simp only [length_append, base64Mark, length_cons, length_nil]
    omega
  rw [idDecoded, if_pos ⟨prefix_append _ _, hlen⟩]
  have hdrop : (base64Mark ++ Base64.encode (asBytes id)).drop 7 = Base64.encode (asBytes id) := rfl
  rw [hdrop, Base64.decode_encode, Option.getD_some, fromUtf8Lossy_asBytes]

theorem idDecoded_ne (h : base64Mark <+: stem ∧ stem.length ≠ 7) :
    idDecoded stem ≠ String.ofList stem := by
  obtain ⟨rest, rfl⟩ := h.1
  rw [idDecoded, if_pos h]
  have hdrop : (base64Mark ++ rest).drop 7 = rest := rfl
  rw [hdrop]
  intro heq
  have hlen := congrArg String.length heq
  rw [fromUtf8Lossy, String.length_ofList, String.length_ofList, length_append] at hlen
  have hlossy := Utf8.lossy_length_le ((Base64.decode rest).getD [])
  have hdecoded : ((Base64.decode rest).getD []).length ≤ rest.length := by
    cases hdec : Base64.decode rest with
    | none => exact Nat.zero_le _
    | some v =>
      have hv := congrArg List.length (Base64.decode_eq_some_iff.mp hdec)
      rw [Base64.encode_length] at hv
      rw [Option.getD_some]
      omega
  have hmark : base64Mark.length = 7 := rfl
  omega

theorem encode_ne_slashes {front : List Char} :
    Base64.encode (asBytes id) ≠ front ++ ['/', '/', '/', '/'] := by
  intro heq
  have hne : asBytes id ≠ [] := by
    intro hnil
    rw [hnil] at heq
    simp [Base64.encode] at heq
  obtain ⟨front', a, ha, x, y, z, hgroup⟩ := Base64.encode_last_group hne
  rw [hgroup] at heq
  obtain ⟨-, hlast⟩ := append_inj' heq rfl
  have hdigit : Base64.digit (a.toNat / 4) = '/' := (List.cons.inj hlast).1
  have hlt : a.toNat < 0xF8 := by
    rw [asBytes, Utf8.toUTF8_toList] at ha
    exact Utf8.bytes_lt ha
  have hall : ∀ n < 62, Base64.digit n ≠ '/' := by decide
  exact hall _ (by omega) hdigit

theorem decode_cut {u v : List Char}
    (h : Base64.encode (asBytes id) = u ++ '/' :: v) (hv : ∀ c ∈ v, c = '/') :
    Base64.decode u = none := by
  cases hdec : Base64.decode u with
  | none => rfl
  | some w =>
    exfalso
    have hu := congrArg List.length (Base64.decode_eq_some_iff.mp hdec)
    have hlen := congrArg List.length h
    rw [Base64.encode_length] at hu hlen
    rw [length_append, length_cons] at hlen
    obtain ⟨n, hn⟩ : ∃ n, v.length = n + 3 := ⟨v.length - 3, by omega⟩
    have hrep : v = List.replicate (n + 3) '/' := by
      rw [eq_replicate_iff]
      exact ⟨hn, hv⟩
    have hslashes : '/' :: v = List.replicate n '/' ++ ['/', '/', '/', '/'] := by
      rw [hrep, ← replicate_succ, show n + 3 + 1 = n + 4 by omega, replicate_add]
      rfl
    rw [hslashes, ← append_assoc] at h
    exact encode_ne_slashes h

theorem storable_iff (hv : ValidId id) :
    (∃ stem, named (idEncoded id) = [stem] ∧ idDecoded stem = id) ↔ Storable id := by
  by_cases hforb : forbiddenPaths id
  · rw [Storable, if_pos hforb, idEncoded, if_pos hforb]
    constructor
    · rintro ⟨stem, hnamed, hid⟩ hmem
      obtain ⟨u, v, hsplit, hu⟩ := eq_append_cons_of_mem hmem
      have hmark : '/' ∉ base64Mark ++ u := by
        intro h
        rcases mem_append.mp h with h | h
        · exact absurd h (by decide)
        · exact hu h
      have hproper : proper (base64Mark ++ u) := rfl
      rw [hsplit, ← append_assoc, named_append_sep, named_of_notMem hmark, if_pos hproper] at hnamed
      obtain ⟨rfl, hrest⟩ := List.cons.inj hnamed
      have hdot : '.' ∉ v := by
        intro h
        refine dot_notMem_encoded (asBytes id) ?_
        rw [hsplit]
        simp [h]
      have hdec := decode_cut hsplit (named_eq_nil hdot hrest)
      by_cases hlen : (base64Mark ++ u).length = 7
      · have hnil : u = [] := by
          rw [length_append] at hlen
          exact eq_nil_of_length_eq_zero (by simpa [base64Mark] using hlen)
        rw [hnil] at hid
        rw [← hid] at hforb
        cases hforb
      · rw [idDecoded, if_pos ⟨prefix_append _ _, hlen⟩] at hid
        have hdrop : (base64Mark ++ u).drop 7 = u := rfl
        rw [hdrop, hdec] at hid
        exact hv.1 (hid.symm.trans (by decide))
    · intro hsep
      refine ⟨_, ?_, idDecoded_encoded hv.1⟩
      have hmark : '/' ∉ base64Mark ++ Base64.encode (asBytes id) := by
        intro h
        rcases mem_append.mp h with h | h
        · exact absurd h (by decide)
        · exact hsep h
      rw [named_of_notMem hmark, if_pos (show proper (base64Mark ++ _) from rfl)]
  · rw [Storable, if_neg hforb, named_plain hv hforb]
    constructor
    · rintro ⟨stem, hstem, hid⟩ hmarked
      obtain rfl := (List.cons.inj hstem).1
      exact idDecoded_ne hmarked (by rw [hid, String.ofList_toList])
    · intro hplain
      refine ⟨id.toList, rfl, ?_⟩
      rw [idDecoded, if_neg hplain, String.ofList_toList]

/-- **Peer ids survive the file system exactly if both are storable.**  Two ids have
different files, each directly in `peers`, and each id comes back from the listing and is
loaded without losing a file, if and only if no base64 text of them has a `/` and none of
them looks like such a text. -/
theorem peer_ids_survive_iff (dir : Text) {a b : String} (ha : ValidId a) (hb : ValidId b)
    (hne : a ≠ b) :
    (fileOf dir a ≠ fileOf dir b ∧ Survives α dir a ∧ Survives α dir b) ↔
      Storable a ∧ Storable b := by
  rw [survives_iff dir ha, survives_iff dir hb, storable_iff ha, storable_iff hb]
  refine ⟨fun h => h.2, fun h => ⟨?_, h⟩⟩
  obtain ⟨s, hs, hsid⟩ := (storable_iff ha).mpr h.1
  obtain ⟨t, ht, htid⟩ := (storable_iff hb).mpr h.2
  intro heq
  rw [(storedAs_of_named dir ha hs).2, (storedAs_of_named dir hb ht).2,
    append_cancel_left_eq, List.cons.injEq, append_cancel_right_eq] at heq
  exact hne (by rw [← hsid, ← htid, heq.1])

theorem plain_and_encoded_survive :
    fileOf ['/', 'c'] "123456789" ≠ fileOf ['/', 'c'] "me@host:21118" ∧
      Survives Unit ['/', 'c'] "123456789" ∧ Survives Unit ['/', 'c'] "me@host:21118" :=
  (peer_ids_survive_iff ['/', 'c'] (by decide) (by decide) (by decide)).mpr ⟨by decide, by decide⟩

/-- The base64 text of this id has a `/`, so that its file is in a directory below `peers`
and is not listed. -/
theorem key_id_does_not_survive :
    ¬ (fileOf ['/', 'c'] "123456789@h?key=k" ≠ fileOf ['/', 'c'] "123456789" ∧
      Survives Unit ['/', 'c'] "123456789@h?key=k" ∧ Survives Unit ['/', 'c'] "123456789") := by
  rintro ⟨-, h, -⟩
  rw [survives_iff _ (by decide), storable_iff (by decide)] at h
  exact absurd h (by decide)

end PeerConfig
end RustDesk
