import RustDesk.Flutter.LegacyBook
import RustDesk.Lib.Run

/-!
# Pulls and pushes of the legacy address book

An edit changes the lists at once and then pushes the whole book: after a wait it is put into JSON
and posted.  The server has the book that was posted last.  A pull is answered with the book that
the server had when it got the request, which replaces the lists.

`LegacyAb` has the client, the posts and the pull that are under way, and the server.

* `edits_kept_along`: **the lists and the server's book are the first ones with all edits, in
  order**, if no answer is taken that the server gave while a push was under way, or that an edit
  has made old.
-/

open Run

namespace RustDesk

/-- A pull that is under way: its request is, or its answer, which is old if not every push had come
to the server, or if the book was edited since. -/
inductive LegacyPull where
  | requested
  | answered (data : LegacyBook) (old : Bool)
  deriving DecidableEq

/-- The lists, the number of edits that are still to be posted, the posts that are under way, the
pull, the server's book, and the first book with all edits. -/
structure LegacyAb where
  book : LegacyBook
  unsent : Nat
  posts : List LegacyBook
  pull : Option LegacyPull
  server : LegacyBook
  edited : LegacyBook

namespace LegacyAb

variable (str2color2 : String → List Int → Int) (licensed : Nat)

def start (server : LegacyBook) : LegacyAb where
  book := server.deserialize str2color2 licensed
  unsent := 0
  posts := []
  pull := none
  server := server
  edited := server.deserialize str2color2 licensed

inductive Input where
  | edit (e : Edit)
  | post
  | postTaken
  | pullAb
  | pullTaken
  | pullAnswered
  | pullFailed

def age (p : LegacyPull) : LegacyPull :=
  match p with
  | .requested => .requested
  | .answered data _ => .answered data true

/-- An edit, up to the wait in `pushAb`. -/
def edit (s : LegacyAb) (e : Edit) : LegacyAb :=
  if e.pushes licensed s.book then
    { s with
      book := e.apply str2color2 licensed s.book
      unsent := s.unsent + 1
      pull := s.pull.map age
      edited := e.apply str2color2 licensed s.edited }
  else
    { s with
      book := e.apply str2color2 licensed s.book
      edited := e.apply str2color2 licensed s.edited }

/-- `pushAb` after the wait. -/
def post (s : LegacyAb) : LegacyAb :=
  if s.unsent = 0 then s
  else
    { s with
      book := s.book.serialize str2color2
      unsent := s.unsent - 1
      posts := s.posts ++ [s.book.serialize str2color2] }

def postTaken (s : LegacyAb) : LegacyAb :=
  match s.posts with
  | [] => s
  | data :: posts => { s with posts := posts, server := data }

def pullTaken (s : LegacyAb) : LegacyAb :=
  if s.pull = some .requested then
    { s with pull := some (.answered s.server (s.unsent ≠ 0 ∨ s.posts ≠ [])) }
  else s

/-- `pullAbImpl`, when the answer has come. -/
def pullAnswered (s : LegacyAb) : LegacyAb :=
  match s.pull with
  | some (.answered data _) =>
    { s with book := data.deserialize str2color2 licensed, pull := none }
  | _ => s

def step (s : LegacyAb) : Input → LegacyAb
  | .edit e => s.edit str2color2 licensed e
  | .post => s.post str2color2
  | .postTaken => s.postTaken
  | .pullAb => if s.pull = none then { s with pull := some .requested } else s
  | .pullTaken => s.pullTaken
  | .pullAnswered => s.pullAnswered str2color2 licensed
  | .pullFailed => { s with pull := none }

/-- **All edits are kept**, by the lists, and by the server once no push is under way. -/
def Edited (s : LegacyAb) : Prop :=
  s.book = s.edited ∧
    (s.unsent = 0 → s.posts = [] → s.server.deserialize str2color2 licensed = s.edited)

/-- No answer is taken that misses an edit. -/
def Meets (s : LegacyAb) : Input → Prop
  | .pullAnswered => ∀ data, s.pull ≠ some (.answered data true)
  | _ => True

def posted (s : LegacyAb) : LegacyBook := s.posts.getLast?.getD s.server

/-- The lists have all edits, and so has what was posted last, unless an edit is still to be posted;
an answer that is not old has them too. -/
structure Inv (s : LegacyAb) : Prop where
  colored : s.edited.Colored
  within : s.edited.Within licensed
  book : s.book = s.edited
  posted : s.unsent = 0 → s.posted.deserialize str2color2 licensed = s.edited
  pull : ∀ data, s.pull = some (.answered data false) →
    data.deserialize str2color2 licensed = s.edited ∧ s.unsent = 0 ∧ s.posts = []

variable {str2color2 licensed} {s : LegacyAb}

theorem inv_start (server : LegacyBook) :
    Inv str2color2 licensed (start str2color2 licensed server) where
  colored := (LegacyBook.deserialize_sound server).1
  within := (LegacyBook.deserialize_sound server).2
  book := rfl
  posted := fun _ => rfl
  pull := fun _ h => absurd h.symm (Option.some_ne_none _)

theorem Inv.edited (h : Inv str2color2 licensed s) : s.Edited str2color2 licensed := by
  refine ⟨h.book, fun hunsent hposts => ?_⟩
  have hposted := h.posted hunsent
  rwa [LegacyAb.posted, hposts] at hposted

theorem age_ne (p : LegacyPull) (data : LegacyBook) : age p ≠ .answered data false := by
  cases p with
  | requested => simp [age]
  | answered data' old => simp [age]

theorem Inv.edit (h : Inv str2color2 licensed s) (e : Edit) :
    Inv str2color2 licensed (s.edit str2color2 licensed e) := by
  unfold LegacyAb.edit
  split
  · exact
      { colored := LegacyBook.colored_apply e h.colored
        within := LegacyBook.within_apply e h.within
        book := congrArg _ h.book
        posted := fun hunsent => absurd hunsent (Nat.succ_ne_zero _)
        pull := fun data hdata => by
          obtain ⟨p, -, hp⟩ := Option.map_eq_some_iff.mp hdata
          exact absurd hp (age_ne p data) }
  next hpushes =>
    have hsame := LegacyBook.apply_of_not_pushes str2color2 ((Bool.not_eq_true _).mp hpushes)
    have hstate : ({ s with
        book := e.apply str2color2 licensed s.book
        edited := e.apply str2color2 licensed s.edited } : LegacyAb) = s := by
      rw [← h.book, hsame]
      exact congrArg (fun b => { s with edited := b }) h.book
    rw [hstate]
    exact h

theorem Inv.post (h : Inv str2color2 licensed s) : Inv str2color2 licensed (s.post str2color2) := by
  unfold LegacyAb.post
  split
  · exact h
  next hunsent =>
    have hserialize : s.book.serialize str2color2 = s.edited := by
      rw [h.book, LegacyBook.serialize_eq h.colored]
    refine { h with book := hserialize, posted := fun _ => ?_, pull := fun data hdata => ?_ }
    · rw [LegacyAb.posted, List.getLast?_append, List.getLast?_singleton, Option.some_or,
        Option.getD_some, hserialize]
      exact LegacyBook.deserialize_eq h.colored h.within
    · exact absurd (h.pull data hdata).2.1 hunsent

theorem Inv.postTaken (h : Inv str2color2 licensed s) : Inv str2color2 licensed s.postTaken := by
  unfold LegacyAb.postTaken
  split
  · exact h
  next _ posts hposts =>
    refine { h with posted := fun hunsent => ?_, pull := fun data hdata => ?_ }
    · have hposted := h.posted hunsent
      rw [LegacyAb.posted, hposts, List.getLast?_cons, Option.getD_some] at hposted
      exact hposted
    · exact absurd (hposts.symm.trans (h.pull data hdata).2.2) (List.cons_ne_nil _ _)

theorem Inv.pullTaken (h : Inv str2color2 licensed s) : Inv str2color2 licensed s.pullTaken := by
  unfold LegacyAb.pullTaken
  split
  · refine { h with pull := fun data hdata => ?_ }
    simp only [Option.some_inj, LegacyPull.answered.injEq] at hdata
    obtain ⟨rfl, hold⟩ := hdata
    have hidle := of_decide_eq_false hold
    rw [not_or, not_not, not_not] at hidle
    exact ⟨h.edited.2 hidle.1 hidle.2, hidle⟩
  · exact h

theorem Inv.pullAnswered (h : Inv str2color2 licensed s)
    (hmeets : ∀ data, s.pull ≠ some (.answered data true)) :
    Inv str2color2 licensed (s.pullAnswered str2color2 licensed) := by
  unfold LegacyAb.pullAnswered
  split
  next data old hpull =>
    cases old with
    | true => exact absurd hpull (hmeets data)
    | false =>
      exact { h with
        book := (h.pull data hpull).1
        pull := fun data hdata => absurd hdata.symm (Option.some_ne_none _) }
  · exact h

theorem inv_step (i : Input) (h : Inv str2color2 licensed s) (hmeets : s.Meets i) :
    Inv str2color2 licensed (step str2color2 licensed s i) := by
  cases i with
  | edit e => exact h.edit e
  | post => exact h.post
  | postTaken => exact h.postTaken
  | pullAb =>
    simp only [step]
    split
    · exact { h with pull := fun data hdata => by simp at hdata }
    · exact h
  | pullTaken => exact h.pullTaken
  | pullAnswered => exact h.pullAnswered hmeets
  | pullFailed =>
    exact { h with pull := fun data hdata => absurd hdata.symm (Option.some_ne_none _) }

/-- **The lists and the server's book are the first ones with all edits**, in every run where no old
answer is taken, and an edit keeps every entry that it does not name. -/
theorem edits_kept_along (str2color2 : String → List Int → Int) (licensed : Nat)
    (server : LegacyBook) (is : List Input)
    (h : Along (step str2color2 licensed) Meets (start str2color2 licensed server) is) :
    Always (step str2color2 licensed) (Edited str2color2 licensed)
        (start str2color2 licensed server) is ∧
      ∀ (e : Edit) (b : LegacyBook), e.KeepsOthers b (e.apply str2color2 licensed b) := by
  have hinv : Always (step str2color2 licensed) (Inv str2color2 licensed)
      (start str2color2 licensed server) is :=
    always_of_along (fun s i hs hC => inv_step i hs hC) (inv_start server) h
  exact ⟨fun pre hpre => (hinv pre hpre).edited, LegacyBook.keepsOthers str2color2 licensed⟩

def onePeer : LegacyBook where
  peers := [{ id := "1" }]
  tags := []
  tagColors := []

/-- A pull and an edit, one after the other. -/
theorem onePeer_edits_kept :
    Always (step (fun _ _ => 0) 0) (Edited (fun _ _ => 0) 0) (start (fun _ _ => 0) 0 onePeer)
        [.pullAb, .pullTaken, .pullAnswered, .edit (.addTags ["office"]), .post, .postTaken] ∧
      ∀ (e : Edit) (b : LegacyBook), e.KeepsOthers b (e.apply (fun _ _ => 0) 0 b) :=
  edits_kept_along (fun _ _ => 0) 0 onePeer _
    ⟨trivial, trivial, fun data hdata => by simp [start, step, pullTaken] at hdata, trivial,
      trivial, trivial, trivial⟩

/-- A peer is added while the answer of a pull is on its way; the answer takes it out of the lists,
and the next edit out of the server's book. -/
theorem not_edits_kept : ¬Always (step (fun _ _ => 0) 0)
    (fun s => s.unsent = 0 → s.posts = [] → s.pull = none →
      s.server.deserialize (fun _ _ => 0) 0 = s.edited) (start (fun _ _ => 0) 0 onePeer)
    [.pullAb, .pullTaken, .edit (.addPeers [] [{ id := "2" }]), .post, .postTaken, .pullAnswered,
      .edit (.changeAlias "1" "home"), .post, .postTaken] := by
  intro h
  exact absurd (h.last (by decide) (by decide) (by decide)) (by decide)

end LegacyAb
end RustDesk
