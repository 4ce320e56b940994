import RustDesk.Lib.Upsert

/-!
# The legacy address book

The lists of a `LegacyAb`, what its edits make of them, and the JSON that it posts and reads.

* `keepsOthers`: **an edit keeps every entry that it does not name.**
* `deserialize_serialize`: the book that is posted is read back.
-/

namespace RustDesk

open List

/-- The fields of a `Peer` that a legacy book keeps. -/
structure LegacyPeer where
  id : String
  hash : String := ""
  username : String := ""
  hostname : String := ""
  platform : String := ""
  aliasName : String := ""
  tags : List String := []
  deriving DecidableEq

/-- `peers`, `tags` and `tagColors`, also as JSON. -/
structure LegacyBook where
  peers : List LegacyPeer
  tags : List String
  tagColors : List (String × Int)
  deriving DecidableEq

namespace LegacyBook

variable (str2color2 : String → List Int → Int) (licensed : Nat)

def isFull (b : LegacyBook) : Bool := 0 < licensed ∧ licensed ≤ b.peers.length

def hasPeer (b : LegacyBook) (id : String) : Bool := b.peers.any (·.id = id)

def hasColor (b : LegacyBook) (tag : String) : Bool := tag ∈ b.tagColors.map (·.1)

def modifyFirst (id : String) (f : LegacyPeer → LegacyPeer) : List LegacyPeer → List LegacyPeer
  | [] => []
  | p :: ps => if p.id = id then f p :: ps else p :: modifyFirst id f ps

def merge (r p : LegacyPeer) : LegacyPeer :=
  { p with
    hash := if r.hash = "" then p.hash else r.hash
    username := if r.username = "" then p.username else r.username
    hostname := if r.hostname = "" then p.hostname else r.hostname
    platform := if r.platform = "" then p.platform else r.platform
    aliasName := if p.aliasName = "" then r.aliasName else p.aliasName }

/-- `_mergePeerFromGroup`, with the peers of the group. -/
def mergePeerFromGroup (group : List LegacyPeer) (p : LegacyPeer) : LegacyPeer :=
  match group.find? (·.id = p.id) with
  | none => p
  | some g =>
    { p with
      username := if p.username = "" then g.username else p.username
      hostname := if p.hostname = "" then g.hostname else p.hostname
      platform := if p.platform = "" then g.platform else p.platform }

def addPeer (group : List LegacyPeer) (b : LegacyBook) (p : LegacyPeer) : LegacyBook :=
  { b with
    peers :=
      if b.hasPeer p.id then
        modifyFirst p.id (fun q => mergePeerFromGroup group (merge p q)) b.peers
      else b.peers ++ [p] }

def addPeers (group : List LegacyPeer) : List LegacyPeer → LegacyBook → LegacyBook
  | [], b => b
  | p :: ps, b => if b.isFull licensed then b else addPeers group ps (b.addPeer group p)

def deletePeers (ids : List String) (b : LegacyBook) : LegacyBook :=
  { b with peers := b.peers.filter (·.id ∉ ids) }

def changeTagForPeers (ids tags : List String) (b : LegacyBook) : LegacyBook :=
  { b with peers := b.peers.map fun p => if p.id ∈ ids then { p with tags := tags } else p }

def changeAlias (id aliasName : String) (b : LegacyBook) : LegacyBook :=
  { b with peers := modifyFirst id (fun p => { p with aliasName := aliasName }) b.peers }

def changePersonalHashPassword (id hash : String) (b : LegacyBook) : LegacyBook :=
  { b with peers := modifyFirst id (fun p => { p with hash := hash }) b.peers }

/-- `tagColors[tag] = str2color2(tag)`. -/
def giveColor (b : LegacyBook) (tag : String) : LegacyBook :=
  { b with
    tagColors := Upsert.put (·.1) b.tagColors (tag, str2color2 tag (b.tagColors.map (·.2))) }

def fillColor (b : LegacyBook) (tag : String) : LegacyBook :=
  if b.hasColor tag then b else b.giveColor str2color2 tag

def addTags (tagList : List String) (b : LegacyBook) : LegacyBook :=
  tagList.foldl
    (fun b tag =>
      fillColor str2color2 (if tag ∈ b.tags then b else { b with tags := b.tags ++ [tag] }) tag) b

def rename (oldTag newTag tag : String) : String := if tag = oldTag then newTag else tag

def renameTag (oldTag newTag : String) (b : LegacyBook) : LegacyBook :=
  if newTag ∈ b.tags then b
  else
    { peers := b.peers.map fun p => { p with tags := p.tags.map (rename oldTag newTag) }
      tags := b.tags.map (rename oldTag newTag)
      tagColors :=
        match b.tagColors.find? (·.1 = oldTag) with
        | none => b.tagColors
        | some x => Upsert.put (·.1) (b.tagColors.filter (·.1 ≠ oldTag)) (newTag, x.2) }

def setTagColor (tag : String) (color : Int) (b : LegacyBook) : LegacyBook :=
  if tag ∈ b.tags then { b with tagColors := Upsert.put (·.1) b.tagColors (tag, color) } else b

def deleteTag (tag : String) (b : LegacyBook) : LegacyBook where
  peers := b.peers.map fun p => if tag ∈ p.tags then { p with tags := p.tags.erase tag } else p
  tags := b.tags.filter (· ≠ tag)
  tagColors := b.tagColors.filter (·.1 ≠ tag)

def peerSyncEqual (p q : LegacyPeer) : Bool :=
  p.hash = q.hash ∧ p.username = q.username ∧ p.platform = q.platform ∧
    p.hostname = q.hostname ∧ p.aliasName = q.aliasName

/-- One peer of `syncFromRecent`, with whether the book is to be pushed. -/
def syncPeer (x : LegacyBook × Bool) (r : LegacyPeer) : LegacyBook × Bool :=
  match x.1.peers.find? (·.id = r.id) with
  | none =>
    if x.1.isFull licensed then x else ({ x.1 with peers := x.1.peers ++ [r] }, true)
  | some p =>
    ({ x.1 with peers := modifyFirst r.id (merge r) x.1.peers },
      x.2 || !peerSyncEqual (merge r p) p)

def syncFromRecent (recents : List LegacyPeer) (b : LegacyBook) : LegacyBook × Bool :=
  recents.foldl (syncPeer licensed) (b, false)

def serialize (b : LegacyBook) : LegacyBook := b.tags.foldl (fillColor str2color2) b

def truncated (data : LegacyBook) : LegacyBook :=
  if data.isFull licensed then { data with peers := data.peers.take licensed }
  else data

def deserialize (data : LegacyBook) : LegacyBook :=
  (data.tags.filter fun tag => !data.hasColor tag).foldl (giveColor str2color2)
    (data.truncated licensed)

def Colored (b : LegacyBook) : Prop := ∀ tag ∈ b.tags, b.hasColor tag = true

def Within (licensed : Nat) (b : LegacyBook) : Prop :=
  0 < licensed → b.peers.length ≤ licensed

end LegacyBook

open LegacyBook

/-- The edits of a `LegacyAb`. -/
inductive Edit where
  | addPeers (group ps : List LegacyPeer)
  | deletePeers (ids : List String)
  | changeTagForPeers (ids tags : List String)
  | changeAlias (id aliasName : String)
  | changePersonalHashPassword (id hash : String)
  | addTags (tagList : List String)
  | renameTag (oldTag newTag : String)
  | setTagColor (tag : String) (color : Int)
  | deleteTag (tag : String)
  | syncFromRecent (recents : List LegacyPeer)

namespace Edit

variable (str2color2 : String → List Int → Int) (licensed : Nat)

def apply : Edit → LegacyBook → LegacyBook
  | .addPeers group ps => LegacyBook.addPeers licensed group ps
  | .deletePeers ids => LegacyBook.deletePeers ids
  | .changeTagForPeers ids tags => LegacyBook.changeTagForPeers ids tags
  | .changeAlias id aliasName => LegacyBook.changeAlias id aliasName
  | .changePersonalHashPassword id hash => LegacyBook.changePersonalHashPassword id hash
  | .addTags tagList => LegacyBook.addTags str2color2 tagList
  | .renameTag oldTag newTag => LegacyBook.renameTag oldTag newTag
  | .setTagColor tag color => LegacyBook.setTagColor tag color
  | .deleteTag tag => LegacyBook.deleteTag tag
  | .syncFromRecent recents => fun b => (LegacyBook.syncFromRecent licensed recents b).1

def pushes (b : LegacyBook) : Edit → Bool
  | .changeAlias id _ => b.hasPeer id
  | .changePersonalHashPassword id hash => (b.peers.find? (·.id = id)).any (·.hash ≠ hash)
  | .renameTag _ newTag => newTag ∉ b.tags
  | .syncFromRecent recents => (LegacyBook.syncFromRecent licensed recents b).2
  | _ => true

def ids : Edit → List String
  | .addPeers _ ps => ps.map (·.id)
  | .deletePeers ids => ids
  | .changeTagForPeers ids _ => ids
  | .changeAlias id _ => [id]
  | .changePersonalHashPassword id _ => [id]
  | .syncFromRecent recents => recents.map (·.id)
  | _ => []

def tagNames : Edit → List String
  | .addTags tagList => tagList
  | .renameTag oldTag newTag => [oldTag, newTag]
  | .setTagColor tag _ => [tag]
  | .deleteTag tag => [tag]
  | _ => []

/-- **An edit keeps what it does not name**: peers, tags and colours. -/
structure KeepsOthers (e : Edit) (b b' : LegacyBook) : Prop where
  peers : ∀ p ∈ b.peers, p.id ∉ e.ids → (∀ tag ∈ p.tags, tag ∉ e.tagNames) → p ∈ b'.peers
  tags : ∀ tag ∈ b.tags, tag ∉ e.tagNames → tag ∈ b'.tags
  tagColors : ∀ x ∈ b.tagColors, x.1 ∉ e.tagNames → x ∈ b'.tagColors

end Edit

namespace LegacyBook

variable {str2color2 : String → List Int → Int} {licensed : Nat} {b b' : LegacyBook}
  {e : Edit} {t : String}

variable {ps : List LegacyPeer}

theorem mem_modifyFirst {id : String} {f : LegacyPeer → LegacyPeer} {p : LegacyPeer} (hp : p ∈ ps)
    (hid : p.id ≠ id) : p ∈ modifyFirst id f ps := by
  induction ps with
  | nil => exact hp
  | cons q ps ih =>
    rw [modifyFirst]
    rcases mem_cons.mp hp with rfl | hp
    · rw [if_neg hid]
      exact mem_cons_self
    · split
      · exact mem_cons_of_mem _ hp
      · exact mem_cons_of_mem _ (ih hp)

theorem length_modifyFirst (id : String) (f : LegacyPeer → LegacyPeer) (ps : List LegacyPeer) :
    (modifyFirst id f ps).length = ps.length := by
  induction ps with
  | nil => rfl
  | cons q ps ih =>
    rw [modifyFirst]
    split
    · rfl
    · rw [length_cons, ih, length_cons]

theorem modifyFirst_eq {id : String} {f : LegacyPeer → LegacyPeer}
    (h : ∀ p, ps.find? (·.id = id) = some p → f p = p) : modifyFirst id f ps = ps := by
  induction ps with
  | nil => rfl
  | cons q ps ih =>
    rw [modifyFirst]
    by_cases hid : q.id = id
    · rw [if_pos hid, h q (List.find?_cons_of_pos (decide_eq_true hid))]
    · rw [if_neg hid, ih fun p hp => h p ?_]
      rwa [List.find?_cons_of_neg (by simpa using hid)]

theorem keepsOthers_peers
    (h : ∀ p ∈ b.peers, p.id ∉ e.ids → (∀ tag ∈ p.tags, tag ∉ e.tagNames) → p ∈ ps) :
    e.KeepsOthers b { b with peers := ps } :=
  ⟨h, fun _ htag _ => htag, fun _ hx _ => hx⟩

theorem mem_addPeer {group : List LegacyPeer} {p q : LegacyPeer} (hq : q ∈ b.peers)
    (hid : q.id ≠ p.id) : q ∈ (b.addPeer group p).peers := by
  unfold addPeer
  simp only
  split
  · exact mem_modifyFirst hq hid
  · exact mem_append_left _ hq

theorem mem_addPeers {group ps : List LegacyPeer} {q : LegacyPeer} (hq : q ∈ b.peers)
    (hid : q.id ∉ ps.map (·.id)) : q ∈ (addPeers licensed group ps b).peers := by
  induction ps generalizing b with
  | nil => exact hq
  | cons p ps ih =>
    rw [map_cons, mem_cons, not_or] at hid
    rw [addPeers]
    split
    · exact hq
    · exact ih (mem_addPeer hq hid.1) hid.2

variable (licensed) in
theorem addPeers_tags (group ps : List LegacyPeer) (b : LegacyBook) :
    (addPeers licensed group ps b).tags = b.tags ∧
      (addPeers licensed group ps b).tagColors = b.tagColors := by
  induction ps generalizing b with
  | nil => exact ⟨rfl, rfl⟩
  | cons p ps ih =>
    rw [addPeers]
    split
    · exact ⟨rfl, rfl⟩
    · exact ih _

variable (licensed) in
theorem syncPeer_spec (x : LegacyBook × Bool) (r : LegacyPeer) :
    (∀ q ∈ x.1.peers, q.id ≠ r.id → q ∈ (syncPeer licensed x r).1.peers) ∧
      (syncPeer licensed x r).1.tags = x.1.tags ∧
        (syncPeer licensed x r).1.tagColors = x.1.tagColors := by
  unfold syncPeer
  split
  · split
    · exact ⟨fun q hq _ => hq, rfl, rfl⟩
    · exact ⟨fun q hq _ => mem_append_left _ hq, rfl, rfl⟩
  · exact ⟨fun q hq hid => mem_modifyFirst hq hid, rfl, rfl⟩

variable (licensed) in
theorem foldl_syncPeer_spec (recents : List LegacyPeer) (x : LegacyBook × Bool) :
    (∀ q ∈ x.1.peers, q.id ∉ recents.map (·.id) →
        q ∈ (recents.foldl (syncPeer licensed) x).1.peers) ∧
      (recents.foldl (syncPeer licensed) x).1.tags = x.1.tags ∧
        (recents.foldl (syncPeer licensed) x).1.tagColors = x.1.tagColors := by
  induction recents generalizing x with
  | nil => exact ⟨fun q hq _ => hq, rfl, rfl⟩
  | cons r recents ih =>
    obtain ⟨hpeers, htags, hcolors⟩ := syncPeer_spec licensed x r
    obtain ⟨hpeers', htags', hcolors'⟩ := ih (syncPeer licensed x r)
    refine ⟨fun q hq hid => ?_, htags'.trans htags, hcolors'.trans hcolors⟩
    rw [map_cons, mem_cons, not_or] at hid
    exact hpeers' q (hpeers q hq hid.1) hid.2

theorem hasColor_iff {tag : String} : b.hasColor tag = true ↔ tag ∈ b.tagColors.map (·.1) :=
  decide_eq_true_iff

variable (str2color2) in
theorem fillColor_spec (b : LegacyBook) (tag : String) :
    (b.fillColor str2color2 tag).peers = b.peers ∧ (b.fillColor str2color2 tag).tags = b.tags ∧
      (∀ x ∈ b.tagColors, x.1 ≠ tag → x ∈ (b.fillColor str2color2 tag).tagColors) ∧
        ∀ t, (b.fillColor str2color2 tag).hasColor t = true ↔ t = tag ∨ b.hasColor t = true := by
  unfold fillColor
  split
  next hcolor =>
    refine ⟨rfl, rfl, fun x hx _ => hx, fun t => ⟨.inr, ?_⟩⟩
    rintro (rfl | h)
    · exact hcolor
    · exact h
  · refine ⟨rfl, rfl, fun x hx hne => Upsert.mem_put_of_ne hx hne, fun t => ?_⟩
    rw [hasColor_iff, hasColor_iff]
    exact Upsert.mem_keys_put Prod.fst

variable (str2color2) in
theorem addTags_spec (tagList : List String) (b : LegacyBook) :
    (addTags str2color2 tagList b).peers = b.peers ∧
      (∀ tag ∈ b.tags, tag ∈ (addTags str2color2 tagList b).tags) ∧
        ∀ x ∈ b.tagColors, x.1 ∉ tagList → x ∈ (addTags str2color2 tagList b).tagColors := by
  unfold addTags
  induction tagList generalizing b with
  | nil => exact ⟨rfl, fun _ htag => htag, fun _ hx _ => hx⟩
  | cons t tagList ih =>
    rw [foldl_cons]
    obtain ⟨hpeers, htags, hcolors⟩ := ih (fillColor str2color2
      (if t ∈ b.tags then b else { b with tags := b.tags ++ [t] }) t)
    obtain ⟨hfill, htfill, hcfill, -⟩ := fillColor_spec str2color2
      (if t ∈ b.tags then b else { b with tags := b.tags ++ [t] }) t
    refine ⟨?_, fun tag htag => htags tag ?_, fun x hx hne => ?_⟩
    · rw [hpeers, hfill]
      split <;> rfl
    · rw [htfill]
      split
      · exact htag
      · exact mem_append_left _ htag
    · rw [mem_cons, not_or] at hne
      refine hcolors x (hcfill x ?_ hne.1) hne.2
      split
      · exact hx
      · exact hx

theorem rename_of_ne {oldTag newTag tag : String} (h : tag ≠ oldTag) :
    rename oldTag newTag tag = tag := if_neg h

theorem keepsOthers_renameTag (oldTag newTag : String) (b : LegacyBook) :
    (Edit.renameTag oldTag newTag).KeepsOthers b (b.renameTag oldTag newTag) := by
  unfold LegacyBook.renameTag
  split
  · exact ⟨fun _ hp _ _ => hp, fun _ htag _ => htag, fun _ hx _ => hx⟩
  · have hnamed : ∀ tag, tag ∉ [oldTag, newTag] → tag ≠ oldTag ∧ tag ≠ newTag := by
      intro tag htag
      simpa using htag
    refine ⟨fun p hp _ htags => ?_, fun tag htag hne => ?_, fun x hx hne => ?_⟩
    · refine mem_map.mpr ⟨p, hp, ?_⟩
      have hsame : p.tags.map (rename oldTag newTag) = p.tags := by
        conv_rhs => rw [← map_id p.tags]
        exact map_congr_left fun tag htag => rename_of_ne (hnamed tag (htags tag htag)).1
      rw [hsame]
    · exact mem_map.mpr ⟨tag, htag, rename_of_ne (hnamed tag hne).1⟩
    · simp only
      split
      · exact hx
      · have hother := hnamed x.1 hne
        exact Upsert.mem_put_of_ne (mem_filter.mpr ⟨hx, decide_eq_true hother.1⟩) hother.2

theorem keepsOthers_deleteTag (tag : String) (b : LegacyBook) :
    (Edit.deleteTag tag).KeepsOthers b (b.deleteTag tag) := by
  have hnamed : ∀ t, t ∉ [tag] → t ≠ tag := fun t ht => by simpa using ht
  refine ⟨fun p hp _ htags => ?_, fun t ht hne => ?_, fun x hx hne => ?_⟩
  · refine mem_map.mpr ⟨p, hp, if_neg fun hmem => ?_⟩
    exact hnamed tag (htags tag hmem) rfl
  · exact mem_filter.mpr ⟨ht, decide_eq_true (hnamed t hne)⟩
  · exact mem_filter.mpr ⟨hx, decide_eq_true (hnamed x.1 hne)⟩

theorem keepsOthers (str2color2 : String → List Int → Int) (licensed : Nat) (e : Edit)
    (b : LegacyBook) : e.KeepsOthers b (e.apply str2color2 licensed b) := by
  cases e with
  | addPeers group ps =>
    obtain ⟨htags, hcolors⟩ := addPeers_tags licensed group ps b
    exact ⟨fun p hp hid _ => mem_addPeers hp hid, fun t ht _ => htags ▸ ht,
      fun x hx _ => hcolors ▸ hx⟩
  | deletePeers ids =>
    exact keepsOthers_peers fun p hp hid _ => mem_filter.mpr ⟨hp, decide_eq_true hid⟩
  | changeTagForPeers ids tags =>
    exact keepsOthers_peers fun p hp hid _ => mem_map.mpr ⟨p, hp, if_neg hid⟩
  | changeAlias id aliasName =>
    exact keepsOthers_peers fun p hp hid _ => mem_modifyFirst hp (by simpa [Edit.ids] using hid)
  | changePersonalHashPassword id hash =>
    exact keepsOthers_peers fun p hp hid _ => mem_modifyFirst hp (by simpa [Edit.ids] using hid)
  | addTags tagList =>
    obtain ⟨hpeers, htags, hcolors⟩ := addTags_spec str2color2 tagList b
    exact ⟨fun p hp _ _ => hpeers ▸ hp, fun t ht _ => htags t ht, fun x hx hne => hcolors x hx hne⟩
  | renameTag oldTag newTag => exact keepsOthers_renameTag oldTag newTag b
  | setTagColor tag color =>
    simp only [Edit.apply, LegacyBook.setTagColor]
    split
    · refine ⟨fun p hp _ _ => hp, fun t ht _ => ht, fun x hx hne => ?_⟩
      exact Upsert.mem_put_of_ne hx (by simpa [Edit.tagNames] using hne)
    · exact ⟨fun p hp _ _ => hp, fun t ht _ => ht, fun x hx _ => hx⟩
  | deleteTag tag => exact keepsOthers_deleteTag tag b
  | syncFromRecent recents =>
    obtain ⟨hpeers, htags, hcolors⟩ := foldl_syncPeer_spec licensed recents (b, false)
    exact ⟨fun p hp hid _ => hpeers p hp hid, fun t ht _ => htags.symm ▸ ht,
      fun x hx _ => hcolors.symm ▸ hx⟩

theorem merge_eq {r p : LegacyPeer} (h : peerSyncEqual (merge r p) p = true) : merge r p = p := by
  obtain ⟨hhash, husername, hplatform, hhostname, halias⟩ := of_decide_eq_true h
  cases p
  simp only [merge] at hhash husername hplatform hhostname halias ⊢
  simp only [hhash, husername, hplatform, hhostname, halias]

variable {x : LegacyBook × Bool}

theorem syncPeer_eq {r : LegacyPeer}
    (h : (syncPeer licensed x r).2 = false) : syncPeer licensed x r = x := by
  unfold syncPeer at h ⊢
  split
  next hnone =>
    rw [hnone] at h
    simp only at h
    split
    · rfl
    next hfull =>
      rw [if_neg hfull] at h
      cases h
  next p hp =>
    rw [hp] at h
    obtain ⟨hneed, hsame⟩ := Bool.or_eq_false_iff.mp h
    have hmerge : merge r p = p := merge_eq (by simpa using hsame)
    have hpeers : modifyFirst r.id (merge r) x.1.peers = x.1.peers :=
      modifyFirst_eq fun q hq => by
        rw [← Option.some_inj.mp (hp.symm.trans hq)]
        exact hmerge
    rw [hpeers, hsame, hneed]
    exact Prod.ext rfl hneed.symm

theorem foldl_syncPeer_eq {recents : List LegacyPeer}
    (h : (recents.foldl (syncPeer licensed) x).2 = false) :
    recents.foldl (syncPeer licensed) x = x := by
  induction recents generalizing x with
  | nil => rfl
  | cons r recents ih =>
    have hrest := ih h
    rw [foldl_cons] at h ⊢
    rw [hrest] at h ⊢
    exact syncPeer_eq h

variable (str2color2) in
theorem apply_of_not_pushes (h : e.pushes licensed b = false) :
    e.apply str2color2 licensed b = b := by
  cases e with
  | changeAlias id aliasName =>
    have hpeers : modifyFirst id (fun p => { p with aliasName := aliasName }) b.peers = b.peers :=
      modifyFirst_eq fun p hp => by
        have hmem := mem_of_find?_eq_some hp
        have hid := List.find?_some hp
        exact absurd (any_eq_true.mpr ⟨p, hmem, hid⟩) (Bool.not_eq_true _ ▸ h)
    exact congrArg (fun ps => { b with peers := ps }) hpeers
  | changePersonalHashPassword id hash =>
    have hpeers : modifyFirst id (fun p => { p with hash := hash }) b.peers = b.peers :=
      modifyFirst_eq fun p hp => by
        simp only [Edit.pushes, hp, Option.any_some, ne_eq, decide_not,
          Bool.not_eq_false', decide_eq_true_eq] at h
        rw [← h]
    exact congrArg (fun ps => { b with peers := ps }) hpeers
  | renameTag oldTag newTag =>
    have hmem : newTag ∈ b.tags := by simpa [Edit.pushes] using h
    exact if_pos hmem
  | syncFromRecent recents => exact congrArg Prod.fst (foldl_syncPeer_eq h)
  | addPeers group ps => cases h
  | deletePeers ids => cases h
  | changeTagForPeers ids tags => cases h
  | addTags tagList => cases h
  | setTagColor tag color => cases h
  | deleteTag tag => cases h

theorem within_of_length (h : b.Within licensed) (hlen : b'.peers.length ≤ b.peers.length) :
    b'.Within licensed :=
  fun hlicensed => Nat.le_trans hlen (h hlicensed)

theorem within_succ (h : b.isFull licensed = false)
    (hlen : b'.peers.length ≤ b.peers.length + 1) : b'.Within licensed := by
  intro hlicensed
  have hroom : ¬(0 < licensed ∧ licensed ≤ b.peers.length) := of_decide_eq_false h
  omega

theorem length_addPeer (group : List LegacyPeer) (b : LegacyBook) (p : LegacyPeer) :
    (b.addPeer group p).peers.length ≤ b.peers.length + 1 := by
  unfold addPeer
  simp only
  split
  · rw [length_modifyFirst]
    exact Nat.le_succ _
  · exact Nat.le_of_eq length_append

theorem within_addPeers (group ps : List LegacyPeer) (h : b.Within licensed) :
    (addPeers licensed group ps b).Within licensed := by
  induction ps generalizing b with
  | nil => exact h
  | cons p ps ih =>
    rw [addPeers]
    split
    · exact h
    next hfull =>
      exact ih (within_succ ((Bool.not_eq_true _).mp hfull) (length_addPeer group b p))

theorem within_syncPeer (h : x.1.Within licensed)
    (r : LegacyPeer) : (syncPeer licensed x r).1.Within licensed := by
  unfold syncPeer
  split
  · split
    · exact h
    next hfull =>
      exact within_succ ((Bool.not_eq_true _).mp hfull) (Nat.le_of_eq length_append)
  · exact within_of_length h (Nat.le_of_eq (length_modifyFirst _ _ _))

theorem within_foldl_syncPeer (recents : List LegacyPeer) (h : x.1.Within licensed) :
    (recents.foldl (syncPeer licensed) x).1.Within licensed := by
  induction recents generalizing x with
  | nil => exact h
  | cons r recents ih => exact ih (within_syncPeer h r)

theorem within_apply (e : Edit) (h : b.Within licensed) :
    (e.apply str2color2 licensed b).Within licensed := by
  cases e with
  | addPeers group ps => exact within_addPeers group ps h
  | deletePeers ids => exact within_of_length h (length_filter_le _ _)
  | changeTagForPeers ids tags => exact within_of_length h (Nat.le_of_eq (length_map _))
  | changeAlias id aliasName => exact within_of_length h (Nat.le_of_eq (length_modifyFirst _ _ _))
  | changePersonalHashPassword id hash =>
    exact within_of_length h (Nat.le_of_eq (length_modifyFirst _ _ _))
  | addTags tagList =>
    exact within_of_length h (Nat.le_of_eq (congrArg List.length (addTags_spec _ tagList b).1))
  | renameTag oldTag newTag =>
    refine within_of_length h ?_
    simp only [Edit.apply, LegacyBook.renameTag]
    split
    · exact Nat.le_refl _
    · exact Nat.le_of_eq (length_map _)
  | setTagColor tag color =>
    refine within_of_length h ?_
    simp only [Edit.apply, LegacyBook.setTagColor]
    split <;> exact Nat.le_refl _
  | deleteTag tag => exact within_of_length h (Nat.le_of_eq (length_map _))
  | syncFromRecent recents => exact within_foldl_syncPeer recents h

theorem colored_fillColor (h : ∀ tag ∈ b.tags, tag = t ∨ b.hasColor tag = true) :
    (b.fillColor str2color2 t).Colored := by
  obtain ⟨-, htags, -, hcolors⟩ := fillColor_spec str2color2 b t
  intro tag htag
  rw [htags] at htag
  exact (hcolors tag).mpr (h tag htag)

theorem colored_addTags (tagList : List String) (h : b.Colored) :
    (addTags str2color2 tagList b).Colored := by
  unfold addTags
  induction tagList generalizing b with
  | nil => exact h
  | cons t tagList ih =>
    rw [foldl_cons]
    refine ih (colored_fillColor ?_)
    split
    · exact fun tag htag => .inr (h tag htag)
    · intro tag htag
      rcases mem_append.mp htag with htag | htag
      · exact .inr (h tag htag)
      · exact .inl (mem_singleton.mp htag)

theorem colored_renameTag (oldTag newTag : String) (h : b.Colored) :
    (b.renameTag oldTag newTag).Colored := by
  unfold LegacyBook.renameTag
  split
  · exact h
  · intro renamed hrenamed
    obtain ⟨tag, htag, rfl⟩ := mem_map.mp hrenamed
    have hkey := hasColor_iff.mp (h tag htag)
    rw [hasColor_iff]
    simp only
    cases hfind : b.tagColors.find? (·.1 = oldTag) with
    | none =>
      -- A tag with a colour is not the one that has none.
      have hne : tag ≠ oldTag := by
        rintro rfl
        obtain ⟨x, hx, hx1⟩ := mem_map.mp hkey
        exact absurd (decide_eq_true hx1) (List.find?_eq_none.mp hfind x hx)
      rwa [rename_of_ne hne]
    | some x =>
      refine (Upsert.mem_keys_put Prod.fst).mpr ?_
      by_cases htag : tag = oldTag
      · exact .inl (if_pos htag)
      · rw [rename_of_ne htag]
        obtain ⟨y, hy, rfl⟩ := mem_map.mp hkey
        exact .inr (mem_map_of_mem (mem_filter.mpr ⟨hy, decide_eq_true htag⟩))

theorem colored_apply (e : Edit) (h : b.Colored) : (e.apply str2color2 licensed b).Colored := by
  -- The edits of peers change neither tags nor colours.
  have hsame : ∀ {b' : LegacyBook}, b'.tags = b.tags → b'.tagColors = b.tagColors → b'.Colored := by
    intro b' htags hcolors tag htag
    rw [hasColor_iff, hcolors, ← hasColor_iff]
    exact h tag (htags ▸ htag)
  cases e with
  | addPeers group ps => exact hsame (addPeers_tags _ group ps b).1 (addPeers_tags _ group ps b).2
  | deletePeers ids => exact hsame rfl rfl
  | changeTagForPeers ids tags => exact hsame rfl rfl
  | changeAlias id aliasName => exact hsame rfl rfl
  | changePersonalHashPassword id hash => exact hsame rfl rfl
  | addTags tagList => exact colored_addTags tagList h
  | renameTag oldTag newTag => exact colored_renameTag oldTag newTag h
  | setTagColor tag color =>
    simp only [Edit.apply, LegacyBook.setTagColor]
    split
    · intro t ht
      rw [hasColor_iff]
      exact (Upsert.mem_keys_put Prod.fst).mpr (.inr (hasColor_iff.mp (h t ht)))
    · exact h
  | deleteTag tag =>
    intro t ht
    obtain ⟨ht, hne⟩ := mem_filter.mp ht
    obtain ⟨x, hx, rfl⟩ := mem_map.mp (hasColor_iff.mp (h t ht))
    rw [hasColor_iff]
    exact mem_map_of_mem (mem_filter.mpr ⟨hx, hne⟩)
  | syncFromRecent recents =>
    have hspec := foldl_syncPeer_spec licensed recents (b, false)
    exact hsame hspec.2.1 hspec.2.2

theorem serialize_eq (h : b.Colored) : b.serialize str2color2 = b := by
  have hfold : ∀ ts : List String, (∀ tag ∈ ts, b.hasColor tag = true) →
      ts.foldl (fillColor str2color2) b = b := by
    intro ts hts
    induction ts with
    | nil => rfl
    | cons t ts ih =>
      rw [foldl_cons, fillColor, if_pos (hts t mem_cons_self)]
      exact ih fun tag htag => hts tag (mem_cons_of_mem _ htag)
  exact hfold b.tags h

theorem truncated_eq (h : b.Within licensed) : b.truncated licensed = b := by
  unfold truncated
  split
  next hfull =>
    have hlicensed := (of_decide_eq_true hfull).1
    rw [take_of_length_le (h hlicensed)]
  · rfl

theorem deserialize_eq (hcolored : b.Colored) (hwithin : b.Within licensed) :
    b.deserialize str2color2 licensed = b := by
  have hnone : (b.tags.filter fun tag => !b.hasColor tag) = [] := by
    rw [filter_eq_nil_iff]
    intro tag htag
    rw [hcolored tag htag]
    exact Bool.false_ne_true
  rw [deserialize, hnone, truncated_eq hwithin]
  rfl

variable (str2color2) in
theorem foldl_giveColor_spec (ts : List String) (b : LegacyBook) :
    (ts.foldl (giveColor str2color2) b).peers = b.peers ∧
      (ts.foldl (giveColor str2color2) b).tags = b.tags ∧
        ∀ t, t ∈ ts ∨ b.hasColor t = true →
          (ts.foldl (giveColor str2color2) b).hasColor t = true := by
  induction ts generalizing b with
  | nil => exact ⟨rfl, rfl, fun t ht => ht.resolve_left not_mem_nil⟩
  | cons tag ts ih =>
    obtain ⟨hpeers, htags, hcolors⟩ := ih (b.giveColor str2color2 tag)
    refine ⟨hpeers, htags, fun t ht => hcolors t ?_⟩
    have hkeys : t = tag ∨ b.hasColor t = true →
        (b.giveColor str2color2 tag).hasColor t = true := by
      intro hkey
      rw [hasColor_iff]
      exact (Upsert.mem_keys_put Prod.fst).mpr (hkey.imp_right hasColor_iff.mp)
    rcases ht with ht | ht
    · rcases mem_cons.mp ht with rfl | ht
      · exact .inr (hkeys (.inl rfl))
      · exact .inl ht
    · exact .inr (hkeys (.inr ht))

theorem deserialize_sound (data : LegacyBook) :
    (data.deserialize str2color2 licensed).Colored ∧
      (data.deserialize str2color2 licensed).Within licensed := by
  obtain ⟨hpeers, htags, hcolors⟩ := foldl_giveColor_spec str2color2
    (data.tags.filter fun tag => !data.hasColor tag) (data.truncated licensed)
  have htruncated : (data.truncated licensed).tags = data.tags ∧
      (data.truncated licensed).tagColors = data.tagColors := by
    unfold truncated
    split
    · exact ⟨rfl, rfl⟩
    · exact ⟨rfl, rfl⟩
  constructor
  · intro tag htag
    rw [deserialize, htags, htruncated.1] at htag
    refine hcolors tag ?_
    by_cases hcolor : data.hasColor tag = true
    · refine .inr ?_
      rw [hasColor_iff, htruncated.2]
      exact hasColor_iff.mp hcolor
    · exact .inl (mem_filter.mpr ⟨htag, by simpa using hcolor⟩)
  · intro hlicensed
    rw [deserialize, hpeers, truncated]
    split
    · exact length_take_le _ _
    next hfull =>
      have hroom : ¬(0 < licensed ∧ licensed ≤ data.peers.length) :=
        of_decide_eq_false ((Bool.not_eq_true _).mp hfull)
      omega

end LegacyBook
end RustDesk
