import RustDesk.Flutter.AddressBook
import RustDesk.Lib.Run

/-!
# Pulls of an address book

A pull of an `Ab` fetches the peers page by page and then the tags, and assigns what it has got,
also if a request has failed.  The operations of the model pull a book and save the personal books
and the current one to the cache.

`AbModel` has the books and the cache.  The server answers a pull with the book that it holds, until
a request fails or an entry cannot be read.

* `intact_iff_along`: **a failed pull leaves a book as it was, a complete one has the server's, and
  what is saved is not the rest of a failed pull**, exactly in the runs where each failed pull got
  what the book had, and nothing is saved while a failed one has others in its place.
-/

open Run

namespace RustDesk

open List

namespace AbPull

def pageSize : Nat := 100

/-- The answer to a request for a page: it has failed, or it has `total` and `data`, of which an
entry may not be one that `fromJson` reads. -/
inductive PageAnswer where
  | failed
  | page (total : Option Nat) (data : Option (List (Option Peer)))

def addEntries {α : Type} (key : α → String) : List α → List (Option α) → List α × Bool
  | tmp, [] => (tmp, true)
  | tmp, none :: _ => (tmp, false)
  | tmp, some u :: rest => addEntries key (Upsert.put key tmp u) rest

/-- The pages from the one after `current` on; where there is no answer the request has failed. -/
def fetchPages : List PageAnswer → Nat → Nat → List Peer → List Peer × Bool
  | [], _, _, tmpPeers => (tmpPeers, false)
  | .failed :: _, _, _, tmpPeers => (tmpPeers, false)
  | .page none _ :: rest, current, total, tmpPeers =>
    if (current + 1) * pageSize < total then fetchPages rest (current + 1) total tmpPeers
    else (tmpPeers, true)
  | .page (some n) data :: rest, current, total, tmpPeers =>
    let added := addEntries (·.id) tmpPeers (data.getD [])
    if added.2 = false then added
    else if (current + 1) * pageSize < (if total = 0 then n else total) then
      fetchPages rest (current + 1) (if total = 0 then n else total) added.1
    else added

def fetchPeers (answers : List PageAnswer) : List Peer × Bool := fetchPages answers 0 0 []

def fetchTags (answer : Option (List (Option AbTag))) : List AbTag × Bool :=
  answer.elim ([], false) (addEntries (·.name) [])

/-- `tags` and `tagColors` from what was fetched. -/
def colorsOf (tmpTags : List AbTag) : List (String × Int) :=
  (tmpTags.map fun t => (t.name, t.color)).foldl (Upsert.put (·.1)) []

inductive AnswerEnd where
  | full
  | refused
  | broken (entries : Nat)
  deriving DecidableEq

def AnswerEnd.read {α : Type} (l : List α) : AnswerEnd → List α
  | .full => l
  | .refused => []
  | .broken entries => l.take entries

def AnswerEnd.entries {α : Type} (l : List α) : AnswerEnd → Option (List (Option α))
  | .full => some (l.map some)
  | .refused => none
  | .broken entries => some ((l.take entries).map some ++ [none])

structure ServerBook where
  peers : List Peer
  tags : List AbTag
  nodup_peers : (peers.map (·.id)).Nodup
  nodup_tags : (tags.map (·.name)).Nodup

def ServerBook.book (b : ServerBook) : Book where
  peers := b.peers
  tags := b.tags.map (·.name)
  tagColors := b.tags.map fun t => (t.name, t.color)

/-- The entries of the page after `current`. -/
def pageOf (peers : List Peer) (current : Nat) : List Peer :=
  (peers.drop (current * pageSize)).take pageSize

def pageAnswer (peers : List Peer) (current : Nat) (served : AnswerEnd) : PageAnswer :=
  match served.entries (pageOf peers current) with
  | none => .failed
  | some data => .page (some peers.length) (some data)

/-- The answers to the requests after `current`: some that are full, and one that ends otherwise. -/
def serverPages (peers : List Peer) (last : AnswerEnd) : Nat → Nat → List PageAnswer
  | 0, current => [pageAnswer peers current last]
  | pages + 1, current =>
    pageAnswer peers current .full :: serverPages peers last pages (current + 1)

variable {α : Type} {key : α → String} {peers : List Peer}

theorem addEntries_some {tmp us : List α} (h : ((tmp ++ us).map key).Nodup)
    (rest : List (Option α)) :
    addEntries key tmp (us.map some ++ rest) = addEntries key (tmp ++ us) rest := by
  induction us generalizing tmp with
  | nil => simp
  | cons u us ih =>
    have happend : tmp ++ u :: us = tmp ++ [u] ++ us := append_cons tmp u us
    rw [happend] at h
    have hput : Upsert.put key tmp u = tmp ++ [u] := by
      have hone : ((tmp ++ [u]).map key).Nodup := by
        rw [map_append] at h
        exact h.of_append_left
      exact Upsert.foldl_put hone
    rw [map_cons, cons_append, addEntries, hput, ih h, happend]

theorem fetchTags_served {tags : List AbTag} (h : (tags.map (·.name)).Nodup) (served : AnswerEnd) :
    fetchTags (served.entries tags) = (served.read tags, decide (served = .full)) := by
  cases served with
  | full =>
    have hall := @addEntries_some _ AbTag.name [] tags h []
    rw [append_nil] at hall
    exact hall
  | refused => rfl
  | broken entries =>
    have hsub : ((tags.take entries).map (·.name)).Nodup := h.sublist ((take_sublist _ _).map _)
    exact @addEntries_some _ AbTag.name [] (tags.take entries) hsub [none]

theorem colorsOf_eq {tags : List AbTag} (h : (tags.map (·.name)).Nodup) :
    colorsOf tags = tags.map fun t => (t.name, t.color) := by
  refine (Upsert.foldl_put (l := []) ?_).trans (nil_append _)
  rw [nil_append, map_map]
  exact h

theorem take_append_pageOf (peers : List Peer) (current : Nat) :
    peers.take (current * pageSize) ++ pageOf peers current =
      peers.take ((current + 1) * pageSize) := by
  rw [Nat.succ_mul, take_add]
  rfl

theorem addEntries_pageOf (h : (peers.map (·.id)).Nodup) (current : Nat)
    (rest : List (Option Peer)) {us : List Peer} (hus : us <+: pageOf peers current) :
    addEntries (·.id) (peers.take (current * pageSize)) (us.map some ++ rest) =
      addEntries (·.id) (peers.take (current * pageSize) ++ us) rest := by
  refine addEntries_some ?_ rest
  have hpre : peers.take (current * pageSize) ++ us <+: peers := by
    have hnext := (prefix_append_right_inj (peers.take (current * pageSize))).mpr hus
    rw [take_append_pageOf] at hnext
    exact hnext.trans ( take_prefix _ _)
  exact h.sublist (hpre.sublist.map _)

theorem fetchPages_full (h : (peers.map (·.id)).Nodup) (rest : List PageAnswer)
    (current : Nat) {total : Nat} (htotal : total = 0 ∨ total = peers.length) :
    fetchPages (pageAnswer peers current .full :: rest) current total
        (peers.take (current * pageSize)) =
      if (current + 1) * pageSize < peers.length then
        fetchPages rest (current + 1) peers.length (peers.take ((current + 1) * pageSize))
      else (peers.take ((current + 1) * pageSize), true) := by
  have hall : (if total = 0 then peers.length else total) = peers.length := by
    rcases htotal with rfl | rfl
    · exact if_pos rfl
    · exact ite_eq_right_iff.mpr fun _ => rfl
  have hadded : addEntries Peer.id (peers.take (current * pageSize))
      ((pageOf peers current).map some) = (peers.take ((current + 1) * pageSize), true) := by
    have hone := addEntries_pageOf h current [] (prefix_refl _)
    rw [append_nil, take_append_pageOf] at hone
    exact hone
  simp only [pageAnswer, AnswerEnd.entries, fetchPages, Option.getD_some, hadded, hall,
    Bool.true_eq_false, if_false]

def Received (peers : List Peer) (r : List Peer × Bool) : Prop :=
  r.1 <+: peers ∧ (r.2 = true → r.1 = peers)

theorem received_take (peers : List Peer) (n : Nat) : Received peers (peers.take n, false) :=
  ⟨ take_prefix n peers, fun hok => Bool.noConfusion hok⟩

/-- **The pages of the server** come to the first of its peers, and to all of them if no request
fails. -/
theorem received_serve (h : (peers.map (·.id)).Nodup) (last : AnswerEnd) (pages current : Nat)
    {total : Nat} (htotal : total = 0 ∨ total = peers.length) :
    Received peers (fetchPages (serverPages peers last pages current) current total
      (peers.take (current * pageSize))) := by
  have hfull : ∀ (rest : List PageAnswer) (current : Nat) {total : Nat},
      (total = 0 ∨ total = peers.length) →
      Received peers (fetchPages rest (current + 1) peers.length
        (peers.take ((current + 1) * pageSize))) →
      Received peers (fetchPages (pageAnswer peers current .full :: rest) current total
        (peers.take (current * pageSize))) := by
    intro rest current total htotal hrest
    rw [fetchPages_full h rest current htotal]
    split
    · exact hrest
    next hlast =>
      have hlen : peers.length ≤ (current + 1) * pageSize := Nat.le_of_not_lt hlast
      exact ⟨ take_prefix _ _, fun _ => take_of_length_le hlen⟩
  induction pages generalizing current total with
  | succ pages ih => exact hfull _ current htotal (ih (current + 1) (.inr rfl))
  | zero =>
    cases last with
    | full => exact hfull [] current htotal (received_take peers _)
    | refused => exact received_take peers _
    | broken entries =>
      have hsub : (pageOf peers current).take entries <+: pageOf peers current := take_prefix _ _
      have hadded := addEntries_pageOf h current [none] hsub
      have hpre : peers.take (current * pageSize) ++ (pageOf peers current).take entries <+:
          peers := by
        have hnext := (prefix_append_right_inj (peers.take (current * pageSize))).mpr hsub
        rw [take_append_pageOf] at hnext
        exact hnext.trans ( take_prefix _ _)
      have hresult : fetchPages (serverPages peers (.broken entries) 0 current) current total
          (peers.take (current * pageSize)) =
          (peers.take (current * pageSize) ++ (pageOf peers current).take entries, false) := by
        simp only [serverPages, pageAnswer, AnswerEnd.entries, fetchPages, Option.getD_some,
          hadded, addEntries, if_true]
      rw [hresult]
      exact ⟨hpre, fun hok => Bool.noConfusion hok⟩

end AbPull

open AbPull

/-- A pull that is under way: the pages are fetched, or the tags, with what it is to return and the
peers that the server had. -/
inductive Pulling where
  | peers
  | tags (ret : Bool) (served : List Peer)
  deriving DecidableEq

/-- `Ab`, with the book that it is to have: the one before the pulls that failed. -/
structure Ab where
  personal : Bool
  book : Book
  initialized : Bool
  pulling : Option Pulling
  kept : Book

structure CacheEntry where
  name : String
  tags : List String
  peers : List CustomPeer
  tagColors : List (String × Int)
  deriving DecidableEq

structure SavedBook where
  entry : CacheEntry
  kept : CacheEntry
  pulling : Option Pulling

/-- What was saved of a book is not the rest of a failed pull: it is what the book is to have, or no
request of the pull that was under way had failed. -/
def SavedBook.Intact (b : SavedBook) : Prop :=
  b.entry = b.kept ∨ ∃ served, b.pulling = some (.tags true served)

structure AbModel where
  addressbooks : List (String × Ab)
  currentName : String
  listInitialized : Bool
  saved : List (List SavedBook)

namespace AbModel

def start (books : List (String × Bool × Book)) (currentName : String) : AbModel where
  addressbooks := books.map fun x => (x.1, ⟨x.2.1, x.2.2, false, none, x.2.2⟩)
  currentName := currentName
  listInitialized := false
  saved := []

def modify (s : AbModel) (name : String) (f : Ab → Ab) : AbModel :=
  { s with addressbooks := s.addressbooks.map fun x => if x.1 = name then (x.1, f x.2) else x }

def current (s : AbModel) : Option Ab :=
  (s.addressbooks.find? (·.1 = s.currentName)).map (·.2)

/-- `BaseAb.pullAb`, up to the requests. -/
def pullAb (a : Ab) : Ab :=
  if a.pulling = none then { a with initialized := false, pulling := some .peers } else a

/-- `pullAbImpl`, when the pages are fetched. -/
def peersFetched (server : ServerBook) (pages : Nat) (last : AnswerEnd) (a : Ab) : Ab :=
  if a.pulling = some .peers then
    { a with
      book := { a.book with peers := (fetchPeers (serverPages server.peers last pages 0)).1 }
      pulling := some (.tags (fetchPeers (serverPages server.peers last pages 0)).2 server.peers) }
  else a

/-- `pullAbImpl`, when the tags are fetched.  A pull that returns true gives the book that the
server had, one that returns false is to leave it as it was. -/
def tagsFetched (server : ServerBook) (served : AnswerEnd) (a : Ab) : Ab :=
  match a.pulling with
  | some (.tags ret peers) =>
    { a with
      book :=
        { a.book with
          tags := (fetchTags (served.entries server.tags)).1.map (·.name)
          tagColors := colorsOf (fetchTags (served.entries server.tags)).1 }
      initialized := ret && (fetchTags (served.entries server.tags)).2
      pulling := none
      kept :=
        if ret && (fetchTags (served.entries server.tags)).2 then
          { server.book with peers := peers }
        else a.kept }
  | _ => a

def pullNonLegacyAfterChange (s : AbModel) (name : Option String) : AbModel :=
  s.modify (name.getD s.currentName) pullAb

def entryOf (name : String) (personal : Bool) (b : Book) : CacheEntry where
  name := name
  tags := b.tags
  peers := b.peers.map (·.toCustomJson personal)
  tagColors := b.tagColors

def isSaved (s : AbModel) (x : String × Ab) : Bool := x.2.personal || x.1 = s.currentName

def serializeCache (s : AbModel) : List SavedBook :=
  (s.addressbooks.filter s.isSaved).map fun x =>
    ⟨entryOf x.1 x.2.personal x.2.book, entryOf x.1 x.2.personal x.2.kept, x.2.pulling⟩

def saveCache (s : AbModel) : AbModel := { s with saved := s.serializeCache :: s.saved }

def setAddressbooks (s : AbModel) (profiles : List (String × Bool)) : AbModel :=
  { s with
    addressbooks :=
      s.addressbooks.filter (fun x => profiles.any (·.1 = x.1)) ++
        (profiles.filter fun p => !s.addressbooks.any (·.1 = p.1)).map fun p =>
          (p.1, ⟨p.2, ⟨[], [], []⟩, false, none, ⟨[], [], []⟩⟩)
    listInitialized := true }

/-- What happens: a book is pulled, by `pullAb` or at the end of an operation that has changed it on
the server; its requests are answered; an operation saves, or `pullAb` does if the current book was
pulled; another book gets the current one; the list of the books is pulled. -/
inductive Input where
  | pullAb (name : String)
  | pullNonLegacyAfterChange (name : Option String)
  | peersFetched (name : String) (server : ServerBook) (pages : Nat) (last : AnswerEnd)
  | tagsFetched (name : String) (server : ServerBook) (served : AnswerEnd)
  | saveCache
  | pulledAb
  | setCurrentName (name : String)
  | setAddressbooks (profiles : List (String × Bool))

def step (s : AbModel) : Input → AbModel
  | .pullAb name => s.modify name pullAb
  | .pullNonLegacyAfterChange name => s.pullNonLegacyAfterChange name
  | .peersFetched name server pages last => s.modify name (peersFetched server pages last)
  | .tagsFetched name server served => s.modify name (tagsFetched server served)
  | .saveCache => s.saveCache
  | .pulledAb =>
    if s.listInitialized && s.current.any (·.initialized) then s.saveCache else s
  | .setCurrentName name => { s with currentName := name }
  | .setAddressbooks profiles => s.setAddressbooks profiles

/-- **A book is what it is to have**, when it is not pulled: what it was before a pull that returned
false, what the server had in one that returned true.  And **what was saved** is intact. -/
def Intact (s : AbModel) : Prop :=
  (∀ x ∈ s.addressbooks, x.2.pulling = none → x.2.book = x.2.kept) ∧
    ∀ books ∈ s.saved, ∀ b ∈ books, b.Intact

/-- A book that is saved while a failed pull goes on has what it had. -/
def SavesIntact (s : AbModel) : Prop :=
  ∀ x ∈ s.addressbooks, s.isSaved x = true → ∀ served, x.2.pulling = some (.tags false served) →
    entryOf x.1 x.2.personal x.2.book = entryOf x.1 x.2.personal x.2.kept

/-- The condition.  A pull with a request that fails has received what the book had, and nothing is
saved while a book has other peers from such a pull. -/
def Meets (s : AbModel) : Input → Prop
  | .tagsFetched name server served => ∀ x ∈ s.addressbooks, x.1 = name →
      ∀ ret peers, x.2.pulling = some (.tags ret peers) → ret = false ∨ served ≠ .full →
        ⟨x.2.book.peers, (served.read server.tags).map (·.name),
          (served.read server.tags).map fun t => (t.name, t.color)⟩ = x.2.kept
  | .saveCache => s.SavesIntact
  | .pulledAb => s.listInitialized = true → s.current.any (·.initialized) = true → s.SavesIntact
  | _ => True

/-- While a pull runs, the book has still what it had, or the peers that were served. -/
def Underway (a : Ab) : Prop :=
  (a.pulling = some .peers → a.book = a.kept) ∧
    ∀ served, a.pulling = some (.tags true served) → a.book.peers = served

variable {s : AbModel} {a : Ab} {name : String}

theorem forall_modify (P : String × Ab → Prop) (f : Ab → Ab) :
    (∀ x ∈ (s.modify name f).addressbooks, P x) ↔
      ∀ x ∈ s.addressbooks, (x.1 = name → P (x.1, f x.2)) ∧ (x.1 ≠ name → P x) := by
  refine forall_mem_map.trans (forall₂_congr fun x _ => ?_)
  by_cases h : x.1 = name
  · rw [if_pos h]
    exact ⟨fun hP => ⟨fun _ => hP, fun hne => absurd h hne⟩, fun hboth => hboth.1 h⟩
  · rw [if_neg h]
    exact ⟨fun hP => ⟨fun heq => absurd heq h, fun _ => hP⟩, fun hboth => hboth.2 h⟩

theorem intact_modify_iff (h : s.Intact) (f : Ab → Ab) :
    (s.modify name f).Intact ↔ ∀ x ∈ s.addressbooks, x.1 = name → (f x.2).pulling = none →
      (f x.2).book = (f x.2).kept := by
  have hbooks := @forall_modify s name (fun x => x.2.pulling = none → x.2.book = x.2.kept) f
  constructor
  · intro hnew x hx hname
    exact (hbooks.mp hnew.1 x hx).1 hname
  · intro hnew
    exact ⟨hbooks.mpr fun x hx => ⟨fun hname => hnew x hx hname, fun _ => h.1 x hx⟩, h.2⟩

theorem underway_modify (h : ∀ x ∈ s.addressbooks, Underway x.2) {f : Ab → Ab}
    (hf : ∀ x ∈ s.addressbooks, Underway (f x.2)) :
    ∀ x ∈ (s.modify name f).addressbooks, Underway x.2 :=
  (forall_modify (fun x => Underway x.2) f).mpr fun x hx => ⟨fun _ => hf x hx, fun _ => h x hx⟩

theorem pulling_pullAb (a : Ab) : (pullAb a).pulling ≠ none := by
  unfold pullAb
  split
  · exact Option.some_ne_none _
  next hpulling => exact hpulling

theorem underway_pullAb (h : Underway a) (hidle : a.pulling = none → a.book = a.kept) :
    Underway (pullAb a) := by
  unfold pullAb
  split
  next hnone => exact ⟨fun _ => hidle hnone, fun served hserved => by simp at hserved⟩
  · exact h

theorem underway_peersFetched (h : Underway a) (server : ServerBook) (pages : Nat)
    (last : AnswerEnd) : Underway (peersFetched server pages last a) := by
  unfold peersFetched
  split
  · have hreceived := received_serve server.nodup_peers last pages 0 (.inl rfl)
    refine ⟨fun hpeers => by simp at hpeers, fun served hserved => ?_⟩
    simp only [Option.some_inj, Pulling.tags.injEq] at hserved
    rw [← hserved.2]
    exact hreceived.2 hserved.1
  · exact h

theorem pulling_peersFetched (server : ServerBook) (pages : Nat) (last : AnswerEnd)
    (h : (peersFetched server pages last a).pulling = none) :
    peersFetched server pages last a = a := by
  unfold peersFetched at h ⊢
  split
  next hpeers =>
    rw [if_pos hpeers] at h
    cases h
  · rfl

theorem underway_tagsFetched (h : Underway a) (server : ServerBook) (served : AnswerEnd) :
    Underway (tagsFetched server served a) := by
  unfold tagsFetched
  split
  · exact ⟨fun hpeers => by simp at hpeers, fun peers hpeers => by simp at hpeers⟩
  · exact h

theorem book_tagsFetched (h : Underway a) (server : ServerBook) (served : AnswerEnd) {ret : Bool}
    {peers : List Peer} (hpulling : a.pulling = some (.tags ret peers)) :
    (tagsFetched server served a).book = (tagsFetched server served a).kept ↔
      (ret = false ∨ served ≠ .full →
        ⟨a.book.peers, (served.read server.tags).map (·.name),
          (served.read server.tags).map fun t => (t.name, t.color)⟩ = a.kept) := by
  have hread : ((served.read server.tags).map (·.name)).Nodup := by
    cases served with
    | full => exact server.nodup_tags
    | refused => exact nodup_nil
    | broken entries => exact server.nodup_tags.sublist ((take_sublist _ _).map _)
  simp only [tagsFetched, hpulling, fetchTags_served server.nodup_tags, colorsOf_eq hread]
  by_cases hfull : ret = true ∧ served = .full
  · obtain ⟨rfl, rfl⟩ := hfull
    have hpeers := h.2 peers hpulling
    refine iff_of_true ?_ fun hfailed => ?_
    · simp only [decide_true, Bool.and_self, if_true, hpeers]
      rfl
    · rcases hfailed with hret | hserved
      · cases hret
      · exact absurd rfl hserved
  · have hret : (ret && decide (served = .full)) = false := by
      rw [Bool.and_eq_false_iff, decide_eq_false_iff_not]
      by_cases hone : ret = true
      · exact .inr fun hserved => hfull ⟨hone, hserved⟩
      · exact .inl ((Bool.not_eq_true _).mp hone)
    have hfailed : ret = false ∨ served ≠ .full := by
      rw [Bool.and_eq_false_iff, decide_eq_false_iff_not] at hret
      exact hret
    rw [hret]
    exact ⟨fun heq _ => heq, fun heq => heq hfailed⟩

theorem intact_saveCache_iff (h : s.Intact) (hunder : ∀ x ∈ s.addressbooks, Underway x.2) :
    s.saveCache.Intact ↔ s.SavesIntact := by
  have hserialize : (∀ b ∈ s.serializeCache, b.Intact) ↔ s.SavesIntact := by
    refine forall_mem_map.trans ?_
    constructor
    · intro hall x hx hsaved served hpulling
      rcases hall x (mem_filter.mpr ⟨hx, hsaved⟩) with hentry | ⟨served', hserved'⟩
      · exact hentry
      · simp only [hpulling, Option.some_inj, Pulling.tags.injEq] at hserved'
        exact Bool.noConfusion hserved'.1
    · intro hall x hx
      obtain ⟨hx, hsaved⟩ := mem_filter.mp hx
      have hentry : x.2.book = x.2.kept →
          entryOf x.1 x.2.personal x.2.book = entryOf x.1 x.2.personal x.2.kept :=
        fun heq => by rw [heq]
      cases hpulling : x.2.pulling with
      | none => exact .inl (hentry (h.1 x hx hpulling))
      | some pulling =>
        cases pulling with
        | peers => exact .inl (hentry ((hunder x hx).1 hpulling))
        | tags ret served =>
          cases ret with
          | true => exact .inr ⟨served, rfl⟩
          | false => exact .inl (hall x hx hsaved served hpulling)
  refine ⟨fun hnew => hserialize.mp (hnew.2 _ mem_cons_self), fun hsaves => ⟨h.1, ?_⟩⟩
  intro books hbooks
  rcases mem_cons.mp hbooks with rfl | hbooks
  · exact hserialize.mpr hsaves
  · exact h.2 books hbooks

theorem forall_setAddressbooks {P : Ab → Prop} (h : ∀ x ∈ s.addressbooks, P x.2)
    (hnew : ∀ personal, P ⟨personal, ⟨[], [], []⟩, false, none, ⟨[], [], []⟩⟩)
    (profiles : List (String × Bool)) : ∀ x ∈ (s.setAddressbooks profiles).addressbooks, P x.2 := by
  intro x hx
  rcases mem_append.mp hx with hx | hx
  · exact h x (mem_filter.mp hx).1
  · obtain ⟨p, -, rfl⟩ := mem_map.mp hx
    exact hnew p.2

theorem intact_step_iff (h : s.Intact) (hunder : ∀ x ∈ s.addressbooks, Underway x.2) (i : Input) :
    (step s i).Intact ↔ Meets s i := by
  have hpull : ∀ name, (s.modify name pullAb).Intact := fun name =>
    (intact_modify_iff h pullAb).mpr fun x _ _ hnone => absurd hnone (pulling_pullAb x.2)
  cases i with
  | pullAb name => exact iff_of_true (hpull name) trivial
  | pullNonLegacyAfterChange name => exact iff_of_true (hpull _) trivial
  | peersFetched name server pages last =>
    refine iff_of_true ((intact_modify_iff h _).mpr fun x hx _ hnone => ?_) trivial
    have hsame := pulling_peersFetched server pages last hnone
    rw [hsame] at hnone ⊢
    exact h.1 x hx hnone
  | tagsFetched name server served =>
    refine (intact_modify_iff h _).trans (forall₃_congr fun x hx _ => ?_)
    constructor
    · intro hnew ret peers hpulling
      refine (book_tagsFetched (hunder x hx) server served hpulling).mp (hnew ?_)
      simp only [tagsFetched, hpulling]
    · intro hnew hnone
      unfold tagsFetched at hnone
      cases hpulling : x.2.pulling with
      | none =>
        simp only [tagsFetched, hpulling]
        exact h.1 x hx hpulling
      | some pulling =>
        cases pulling with
        | peers =>
          simp only [hpulling] at hnone
          cases hnone
        | tags ret peers =>
          exact (book_tagsFetched (hunder x hx) server served hpulling).mpr
            (hnew ret peers hpulling)
  | saveCache => exact intact_saveCache_iff h hunder
  | pulledAb =>
    simp only [step, Meets, Bool.and_eq_true]
    split
    next hboth =>
      exact (intact_saveCache_iff h hunder).trans
        ⟨fun hsaves _ _ => hsaves, fun hsaves => hsaves hboth.1 hboth.2⟩
    next hnot =>
      exact iff_of_true h fun hlist hcurrent => absurd ⟨hlist, hcurrent⟩ hnot
  | setCurrentName name => exact iff_of_true h trivial
  | setAddressbooks profiles =>
    have hall := forall_setAddressbooks (P := fun a => a.pulling = none → a.book = a.kept) h.1
      (fun _ _ => rfl) profiles
    exact iff_of_true ⟨hall, h.2⟩ trivial

theorem underway_step (h : s.Intact) (hunder : ∀ x ∈ s.addressbooks, Underway x.2) (i : Input) :
    ∀ x ∈ (step s i).addressbooks, Underway x.2 := by
  have hpull : ∀ name, ∀ x ∈ (s.modify name pullAb).addressbooks, Underway x.2 := fun name =>
    underway_modify hunder fun x hx => underway_pullAb (hunder x hx) (h.1 x hx)
  cases i with
  | pullAb name => exact hpull name
  | pullNonLegacyAfterChange name => exact hpull _
  | peersFetched name server pages last =>
    exact underway_modify hunder fun x hx => underway_peersFetched (hunder x hx) server pages last
  | tagsFetched name server served =>
    exact underway_modify hunder fun x hx => underway_tagsFetched (hunder x hx) server served
  | saveCache => exact hunder
  | pulledAb =>
    simp only [step]
    split
    · exact hunder
    · exact hunder
  | setCurrentName name => exact hunder
  | setAddressbooks profiles =>
    exact forall_setAddressbooks hunder
      (fun _ => ⟨fun _ => rfl, fun served hserved => by simp at hserved⟩) profiles

/-- **A failed pull leaves a book as it was, a complete one has the server's, and what is saved is
not the rest of a failed pull**, exactly in the runs that meet the condition. -/
theorem intact_iff_along (books : List (String × Bool × Book)) (currentName : String)
    (is : List Input) :
    Always step Intact (start books currentName) is ↔
      Along step Meets (start books currentName) is := by
  have hintact : (start books currentName).Intact :=
    ⟨forall_mem_map.mpr fun _ _ _ => rfl, fun books hbooks => absurd hbooks not_mem_nil⟩
  have hunder : ∀ x ∈ (start books currentName).addressbooks, Underway x.2 :=
    forall_mem_map.mpr fun x _ =>
      ⟨fun _ => rfl, fun served hserved => by simp at hserved⟩
  exact always_iff_along_of_good (fun s i hj hs _ => underway_step hs hj i)
    (fun s i hj hs => intact_step_iff hs hj i) hunder hintact

def personalAddressBookName : String := "My address book"

def onePeer : ServerBook where
  peers := [{ id := "1" }]
  tags := []
  nodup_peers := nodup_singleton _
  nodup_tags := nodup_nil

/-- A tag is added, in the pull after it the request for the peers fails, and the book is saved: it
is empty. -/
theorem not_intact_always : ¬Always step Intact
    (start [(personalAddressBookName, true, onePeer.book)] personalAddressBookName)
    [.pullNonLegacyAfterChange none, .peersFetched personalAddressBookName onePeer 0 .refused,
      .tagsFetched personalAddressBookName onePeer .full, .saveCache] := by
  intro h
  have hentry : (⟨⟨personalAddressBookName, [], [], []⟩,
      ⟨personalAddressBookName, [], [Peer.toCustomJson true { id := "1" }], []⟩, none⟩ :
        SavedBook).Intact :=
    h.last.2 _ mem_cons_self _ mem_cons_self
  rcases hentry with heq | ⟨served, hserved⟩
  · cases heq
  · exact absurd hserved.symm (Option.some_ne_none _)

end AbModel
end RustDesk
