import RustDesk.Server.Service

/-!
# Who is told of the displays

The display service keeps the displays that were found last, with a flag that says whether
its subscribers were told of them.  Its thread promotes new subscribers, looks for changes and
tells all; the video service and a login look for changes too, and privacy mode has changes
ignored for a while.

A telling is due (`Due`) while the flag is off, or changes are ignored, or the end of that is
under way.  Where none is, each subscriber knows the displays (`told_iff_along`), as long as a
first subscriber knows them already: nobody is told on its account.
-/

namespace RustDesk

/-- Where the thread of `run` is. -/
inductive DisplayThread (D : Type) where
  | idle
  | looping
  | snapshot
  /-- Changes are not ignored. -/
  | callback
  | resetting
  | swapping (bail : Bool)
  | checking
  | getting
  | sending (msg : List D)

/-- `SYNC_DISPLAYS`, `TEMP_IGNORE_DISPLAYS_CHANGED` and the service.  `dropping` are the guards
that have cleared the flag, and `known` is what the peer of a connection was told last. -/
structure DisplayService (D : Type) where
  displays : List D
  isSynced : Bool
  tempIgnore : Bool
  dropping : Nat
  service : ServiceInner (List D)
  thread : DisplayThread D
  known : Int → List D

inductive DisplayEvent (D : Type) where
  /-- `check_update_displays`, of a login or of the video service. -/
  | check (displays : List D)
  /-- The end of `update_get_sync_displays_on_login`, other than on Wayland, where a login is
  given the displays of the session and leaves those here alone. -/
  | login (id : Int)
  | subscribe (id : Int)
  | unsubscribe (id : Int)
  | tempIgnoreDisplaysChanged
  /-- The guard is dropped: it clears the flag, and then has all told. -/
  | clear
  | trigger
  /-- The thread goes on; `try_get_displays` gives this there. -/
  | run (found : Option (List D))

namespace DisplayService

open ServiceInner Run

variable {D : Type}

def new : DisplayService D := ⟨[], false, false, 0, .new true, .idle, fun _ => []⟩

/-- A telling is due. -/
def Due (s : DisplayService D) : Prop := s.isSynced = false ∨ s.tempIgnore = true ∨ 0 < s.dropping

/-- What a connection knows once the thread has sent what it is about to send. -/
def knownSoon (s : DisplayService D) (id : Int) : List D :=
  match s.thread with
  | .sending msg => msg
  | _ => s.known id

/-- Each subscriber knows the displays, or is about to. -/
def Told (s : DisplayService D) : Prop :=
  ∀ id, has id s.service.subscribes = true → s.knownSoon id = s.displays

structure Kept (s : DisplayService D) : Prop where
  needSnapshot : s.service.needSnapshot = true
  bail : s.thread = .swapping true → s.Due
  told : s.Due ∨ s.Told

variable {s s' : DisplayService D} {displays : List D}

theorem kept_of_due (hneed : s.service.needSnapshot = true) (h : s.Due) : s.Kept :=
  ⟨hneed, fun _ => h, .inl h⟩

theorem Kept.frame (h : s.Kept) (hneed : s'.service.needSnapshot = s.service.needSnapshot)
    (hbail : s'.thread = .swapping true → s.thread = .swapping true) (hdue : s.Due → s'.Due)
    (htold : s.Told → s'.Told) : s'.Kept :=
  ⟨hneed.trans h.needSnapshot, fun ht => hdue (h.bail (hbail ht)), h.told.imp hdue htold⟩

theorem Told.frame (h : s.Told) (hsame : s'.displays = s.displays)
    (hsubs : ∀ id, has id s'.service.subscribes = true → has id s.service.subscribes = true)
    (hknown : ∀ id, s'.knownSoon id = s.knownSoon id) : s'.Told := by
  intro id hid
  rw [hknown, hsame]
  exact h id (hsubs id hid)

theorem Kept.goOn (h : s.Kept) {t : DisplayThread D} (ht : t ≠ .swapping true)
    (hquiet : ∀ id, ({ s with thread := t } : DisplayService D).knownSoon id = s.knownSoon id) :
    ({ s with thread := t } : DisplayService D).Kept :=
  h.frame rfl (fun hbail => absurd hbail ht) id fun htold => htold.frame rfl (fun _ => id) hquiet

variable [DecidableEq D]

def checkChanged (s : DisplayService D) (displays : List D) : DisplayService D :=
  if s.displays = displays then s
  else { s with displays := displays, isSynced := s.isSynced && s.tempIgnore }

/-- `run`, up to its next access to what is shared. -/
def advance (s : DisplayService D) (found : Option (List D)) : DisplayService D :=
  match s.thread with
  | .idle =>
    if s.service.subscribes ≠ [] ∨ s.service.newSubscribes ≠ [] then { s with thread := .looping }
    else s
  | .looping =>
    { s with thread := if s.service.newSubscribes ≠ [] then .snapshot else .checking }
  | .snapshot => { s with thread := if s.tempIgnore then .swapping false else .callback }
  | .callback =>
    { s with thread := if s.service.subscribes ≠ [] then .resetting else .swapping false }
  | .resetting => { s with isSynced := false, thread := .swapping true }
  | .swapping bail =>
    { s with
      service := s.service.swapNewSubscribes 0 []
      thread := if bail then .idle else .checking }
  | .checking =>
    match found with
    | none => { s with thread := .idle }
    | some displays => { s.checkChanged displays with thread := .getting }
  | .getting =>
    if s.isSynced then { s with thread := .idle }
    else { s with isSynced := true, thread := .sending s.displays }
  | .sending msg =>
    { s with
      service := s.service.sendShared msg
      thread := .idle
      known := fun id => if has id s.service.subscribes then msg else s.known id }

def step (s : DisplayService D) : DisplayEvent D → DisplayService D
  | .check displays => s.checkChanged displays
  | .login id => { s with known := fun i => if i = id then s.displays else s.known i }
  | .subscribe id => { s with service := s.service.onSubscribe id }
  | .unsubscribe id => { s with service := s.service.onUnsubscribe id }
  | .tempIgnoreDisplaysChanged => { s with tempIgnore := true }
  | .clear => { s with tempIgnore := false, dropping := s.dropping + 1 }
  | .trigger =>
    if s.dropping = 0 then s else { s with isSynced := false, dropping := s.dropping - 1 }
  | .run found => s.advance found

/-- Who is promoted without being told knows the displays. -/
def FirstKnows (s : DisplayService D) : DisplayEvent D → Prop
  | .run _ => s.thread = .swapping false →
      s.Due ∨ ∀ t ∈ s.service.newSubscribes, s.known t.id = s.displays
  | _ => True

theorem checkChanged_frame : (s.checkChanged displays).thread = s.thread ∧
    (s.checkChanged displays).known = s.known := by
  unfold checkChanged
  split <;> exact ⟨rfl, rfl⟩

theorem Kept.checkChanged (h : s.Kept) : (s.checkChanged displays).Kept := by
  unfold DisplayService.checkChanged
  split
  · exact h
  · refine kept_of_due h.needSnapshot ?_
    cases hignore : s.tempIgnore with
    | true => exact .inr (.inl rfl)
    | false => exact .inl (Bool.and_false _)

theorem Kept.advance (h : s.Kept) {found : Option (List D)} (hfirst : s.FirstKnows (.run found)) :
    (s.advance found).Kept := by
  have hneed := h.needSnapshot
  unfold DisplayService.advance
  cases hthread : s.thread with
  | idle =>
    dsimp only
    split_ifs
    · exact h.goOn nofun fun id => by simp [knownSoon, hthread]
    · exact h
  | looping | snapshot | callback =>
    dsimp only
    split_ifs
    all_goals exact h.goOn nofun fun id => by simp [knownSoon, hthread]
  | resetting => exact kept_of_due hneed (.inl rfl)
  | swapping bail =>
    by_cases hdue : s.Due
    · exact kept_of_due hneed hdue
    · cases bail with
      | true => exact absurd (h.bail hthread) hdue
      | false =>
        refine ⟨hneed, nofun, .inr fun id hid => ?_⟩
        have hnew := (hfirst hthread).resolve_left hdue
        have hold := h.told.resolve_left hdue
        rcases Bool.or_eq_true_iff.mp (has_swap.mp hid) with hid | hid
        · simpa [knownSoon, hthread] using hold id hid
        · obtain ⟨t, ht, rfl⟩ := has_iff.mp hid
          exact hnew t ht
  | checking =>
    cases found with
    | none => exact h.goOn nofun fun id => by simp [knownSoon, hthread]
    | some displays =>
      exact h.checkChanged.goOn nofun fun id => by simp [knownSoon, checkChanged_frame, hthread]
  | getting =>
    dsimp only
    split_ifs
    · exact h.goOn nofun fun id => by simp [knownSoon, hthread]
    · exact ⟨hneed, nofun, .inr fun _ _ => rfl⟩
  | sending msg =>
    refine h.frame rfl nofun id fun htold id hid => ?_
    have hid : has id s.service.subscribes = true := by simpa [sendShared] using hid
    simpa [knownSoon, hthread, hid] using htold id hid

theorem Kept.step (h : s.Kept) (ev : DisplayEvent D) (hfirst : s.FirstKnows ev) :
    (s.step ev).Kept := by
  have hneed := h.needSnapshot
  cases ev with
  | check displays => exact h.checkChanged
  | login i =>
    refine h.frame rfl (fun ht => ht) (fun hdue => hdue) fun htold id hid => ?_
    have hsoon := htold id hid
    cases hthread : s.thread with
    | sending msg => simpa [knownSoon, DisplayService.step, hthread] using hsoon
    | _ =>
      by_cases hi : id = i
      · simp [knownSoon, DisplayService.step, hthread, hi]
      · simpa [knownSoon, DisplayService.step, hthread, hi] using hsoon
  | subscribe i =>
    have hnew : s.service.onSubscribe i =
        { s.service with newSubscribes := (s.service.onSubscribe i).newSubscribes } := by
      unfold onSubscribe
      split_ifs <;> rfl
    unfold DisplayService.step
    dsimp only
    rw [hnew]
    exact h.frame rfl (fun ht => ht) (fun hdue => hdue) fun htold =>
      htold.frame rfl (fun _ hid => hid) fun _ => rfl
  | unsubscribe i =>
    refine h.frame ?_ (fun ht => ht) (fun hdue => hdue) fun htold =>
      htold.frame rfl (fun id hid => ?_) fun _ => rfl
    · unfold DisplayService.step onUnsubscribe
      dsimp only
      split <;> rfl
    · unfold DisplayService.step onUnsubscribe at hid
      dsimp only at hid
      split at hid
      · exact (has_remove.mp hid).2
      · exact hid
  | tempIgnoreDisplaysChanged => exact kept_of_due hneed (.inr (.inl rfl))
  | clear => exact kept_of_due hneed (.inr (.inr (Nat.succ_pos _)))
  | trigger =>
    unfold DisplayService.step
    dsimp only
    split_ifs
    · exact h
    · exact kept_of_due hneed (.inl rfl)
  | run found => exact h.advance hfirst

theorem firstKnows_of_told (ev : DisplayEvent D) (h : (s.step ev).Due ∨ (s.step ev).Told) :
    s.FirstKnows ev := by
  cases ev with
  | run found =>
    intro hthread
    have hstep : s.step (.run found) =
        { s with service := s.service.swapNewSubscribes 0 [], thread := .checking } := by
      simp [DisplayService.step, advance, hthread]
    rw [hstep] at h
    refine h.imp id fun htold t ht => ?_
    refine htold t.id (has_swap.mpr ?_)
    rw [isSubed, Bool.or_eq_true]
    exact .inr (has_iff.mpr ⟨t, ht, rfl⟩)
  | _ => trivial

/-- **Whoever subscribed knows the displays, or is about to be told**, exactly in the runs in
which those who are promoted without being told know them: in every state, unless a telling is
due, each subscriber knows the displays once the thread has sent what it is about to send. -/
theorem told_iff_along (events : List (DisplayEvent D)) :
    Always step (fun s => s.Due ∨ s.Told) new events ↔ Along step FirstKnows new events := by
  have hnew : (new : DisplayService D).Kept := ⟨rfl, nofun, .inr fun _ => nofun⟩
  exact always_iff_along_of_good (J := Kept) (fun s ev hs _ hfirst => hs.step ev hfirst)
    (fun s ev hs _ => ⟨firstKnows_of_told ev, fun hfirst => (hs.step ev hfirst).told⟩) hnew hnew.told

end DisplayService
end RustDesk
