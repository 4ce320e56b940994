import RustDesk.Client.KeyboardGrab
import RustDesk.Lib.Run

/-!
# The grab follows its owner (Linux)

What the lock decides and what is done after it can be apart for a while: a window owns the
grab before the grab is enabled, and has lost it before the grab is disabled.  In between, the
call that brings the two together is still to be made (`Consistent.enabling`,
`Consistent.disabling`).  A leave that was put off is not lost either: as long as its window
owns the grab, a thread with the instant of the last grab is there to release it
(`Consistent.waiting`).
-/

namespace RustDesk

open HeldKeys

namespace GrabClient

def lastAccepted (s : GrabClient) (sessionId : SessionId) : Option GrabState :=
  (s.accepted.find? fun call => call.1 = sessionId).map (·.2)

structure GrabKept (s s' : GrabClient) : Prop where
  state : s'.grabState = s.grabState
  hooked : s'.keyboardHooked = s.keyboardHooked
  grabbed : s.osGrab = true → s'.osGrab = true

/-- **The grab follows its owner.** -/
structure FollowsOwner (s : GrabClient) : Prop where
  /-- A `Wait` of a window that is not the owner is ignored. -/
  staleWait : ∀ window owner now, s.grabState.owner = some owner → window ≠ owner →
    s.step (.changeGrabStatus .wait window now) = s
  /-- A thread of a window that is not the owner releases nothing. -/
  staleWake : ∀ i thread owner now, s.deferred[i]? = some thread →
    s.grabState.owner = some owner → thread.sessionId ≠ owner →
    GrabKept s (s.step (.wake i now))
  /-- What is done after the lock is given up releases nothing that is owned by then. -/
  lateUnlock : ∀ i kbs owner, s.grabState.owner = some owner →
    GrabKept s (s.step (.afterUnlock i kbs))
  /-- With nothing left to do, the grab, the owner and the hook agree. -/
  settled : s.afterUnlock = [] →
    (s.osGrab = true ↔ s.grabState.owner.isSome = true) ∧
      (s.grabState.owner.isSome = true ↔ s.keyboardHooked = true)
  /-- A window whose last accepted call was a `Wait` has lost the grab once no thread waits. -/
  waited : ∀ window, s.lastAccepted window = some .wait → s.deferred = [] →
    s.grabState.owner ≠ some window
  /-- No window has the grab then, if that was the last accepted call of all. -/
  released : ∀ window, s.accepted.head? = some (window, .wait) → s.deferred = [] →
    s.grabState.owner = none

structure Consistent (s : GrabClient) : Prop where
  hooked : s.keyboardHooked = s.grabState.owner.isSome
  enabling : ∀ owner, s.grabState.owner = some owner →
    s.osGrab = true ∨ ∃ first, .applyRunGrabIfOwner owner first ∈ s.afterUnlock
  disabling : s.grabState.owner = none →
    s.grabState.lastGrab = none ∧ (s.osGrab = false ∨ .disableGrabIfReleased ∈ s.afterUnlock)
  waiting : s.grabState.deferredPending = true →
    ∃ thread ∈ s.deferred, s.grabState.owner = some thread.sessionId ∧
      s.grabState.lastGrab = thread.snapshot
  latest : ∀ owner, s.grabState.owner = some owner →
    ∃ state earlier, s.accepted = (owner, state) :: earlier ∧
      (state = .wait → s.grabState.deferredPending = true)

structure SameGrab (s s' : GrabClient) : Prop where
  state : s'.grabState = s.grabState
  hooked : s'.keyboardHooked = s.keyboardHooked
  grab : s'.osGrab = s.osGrab
  deferred : s'.deferred = s.deferred
  unlock : s'.afterUnlock = s.afterUnlock
  calls : s'.accepted = s.accepted

theorem SameGrab.refl (s : GrabClient) : SameGrab s s := ⟨rfl, rfl, rfl, rfl, rfl, rfl⟩

theorem SameGrab.trans {a b c : GrabClient} (h : SameGrab a b) (h' : SameGrab b c) : SameGrab a c :=
  ⟨h'.state.trans h.state, h'.hooked.trans h.hooked, h'.grab.trans h.grab,
    h'.deferred.trans h.deferred, h'.unlock.trans h.unlock, h'.calls.trans h.calls⟩

theorem SameGrab.kept {s s' : GrabClient} (h : SameGrab s s') : GrabKept s s' :=
  ⟨h.state, h.hooked, fun hgrab => by rw [h.grab]; exact hgrab⟩

theorem SameGrab.consistent {s s' : GrabClient} (h : SameGrab s s') (hs : s.Consistent) :
    s'.Consistent := by
  obtain ⟨hstate, hhooked, hgrab, hdeferred, hunlock, hcalls⟩ := h
  constructor
  · rw [hhooked, hstate]
    exact hs.hooked
  · rw [hstate, hgrab, hunlock]
    exact hs.enabling
  · rw [hstate, hgrab, hunlock]
    exact hs.disabling
  · rw [hstate, hdeferred]
    exact hs.waiting
  · rw [hstate, hcalls]
    exact hs.latest

theorem sendKeyEvent_sameGrab (s : GrabClient) (stroke) : SameGrab s (s.sendKeyEvent stroke) := by
  unfold sendKeyEvent
  split
  · exact ⟨rfl, rfl, rfl, rfl, rfl, rfl⟩
  · exact SameGrab.refl s

theorem sendKeyEvents_sameGrab (s : GrabClient) (strokes : List (Stroke KeyUnion)) :
    SameGrab s (strokes.foldl sendKeyEvent s) := by
  induction strokes generalizing s with
  | nil => exact SameGrab.refl s
  | cons stroke strokes ih => exact (sendKeyEvent_sameGrab s stroke).trans (ih _)

theorem processEvent_sameGrab (s : GrabClient) (kb : Keyboard) (event : RdevEvent) :
    SameGrab s (s.processEvent kb event) := by
  unfold processEvent
  split
  · exact SameGrab.refl s
  · have hrecorded : ∀ pressed, SameGrab s (s.record event pressed) := fun _ =>
      ⟨rfl, rfl, rfl, rfl, rfl, rfl⟩
    exact (hrecorded _).trans (sendKeyEvents_sameGrab _ _)

variable (kbs : PhysicalKey → Nat → Keyboard)

theorem releaseRemoteKey_sameGrab (s : GrabClient) (entry : KeyDown) :
    SameGrab s (s.releaseRemoteKey kbs entry) := by
  simp only [releaseRemoteKey]
  split
  · exact (processEvent_sameGrab s _ _).trans
      ((processEvent_sameGrab _ _ _).trans (processEvent_sameGrab _ _ _))
  · exact processEvent_sameGrab s _ _

theorem releaseRemoteKeys_sameGrab (s : GrabClient) (toRelease : List KeyDown) :
    SameGrab s (s.releaseRemoteKeysForEvents kbs toRelease) := by
  unfold releaseRemoteKeysForEvents
  induction toRelease generalizing s with
  | nil => exact SameGrab.refl s
  | cons entry toRelease ih => exact (releaseRemoteKey_sameGrab kbs s entry).trans (ih _)

variable {s : GrabClient} {window : SessionId}

theorem runGrab_of_owner (howner : s.grabState.owner = some window) (now : Nat) :
    s.runGrab window now =
      { s.accept window .run with
        grabState := { s.grabState with lastGrab := some now, deferredPending := false } } :=
  if_pos howner

theorem runGrab_of_other (howner : s.grabState.owner ≠ some window) (now : Nat) :
    s.runGrab window now =
      { s.accept window .run with
        keyboardHooked := true
        grabState := ⟨some window, some now, false⟩
        afterUnlock := s.afterUnlock ++ [.applyRunGrabIfOwner window s.grabState.owner.isSome] } :=
  if_neg howner

theorem waitGrab_of_other
    (howner : s.grabState.owner ≠ some window) (now : Nat) : s.waitGrab window now = s :=
  if_pos howner

/-- **A `Wait` of the owner** is put off, unless it is already, or releases the grab. -/
theorem waitGrab_of_owner (howner : s.grabState.owner = some window) (now : Nat) :
    (∃ wakesAt, s.grabState.deferredPending = false ∧ s.waitGrab window now =
      { s.accept window .wait with
        grabState := { s.grabState with deferredPending := true }
        deferred := s.deferred ++ [⟨window, s.grabState.lastGrab, wakesAt⟩] }) ∨
    (s.grabState.deferredPending = true ∧ s.waitGrab window now = s.accept window .wait) ∨
    s.waitGrab window now = (s.accept window .wait).releaseGrab := by
  unfold waitGrab
  rw [if_neg (not_not.mpr howner)]
  dsimp only
  cases (s.accept window .wait).debounced now with
  | none => exact .inr (.inr rfl)
  | some elapsed =>
    cases hpending : s.grabState.deferredPending with
    | false => exact .inl ⟨_, rfl, if_pos (congrArg (!·) hpending)⟩
    | true => exact .inr (.inl ⟨rfl, if_neg fun hnot => by simp [accept, hpending] at hnot⟩)

theorem releaseGrab_consistent (s : GrabClient) : s.releaseGrab.Consistent :=
  ⟨rfl, nofun, fun _ => ⟨rfl, .inr (by simp [releaseGrab])⟩, nofun, nofun⟩

theorem Consistent.runGrab (hs : s.Consistent) (window : SessionId)
    (now : Nat) : (s.runGrab window now).Consistent := by
  by_cases howner : s.grabState.owner = some window
  · rw [runGrab_of_owner howner]
    constructor
    · exact hs.hooked
    · exact hs.enabling
    · intro hnone
      have hnone' : s.grabState.owner = none := hnone
      rw [hnone'] at howner
      cases howner
    · exact nofun
    · intro owner howner'
      obtain rfl : window = owner := Option.some.inj (howner.symm.trans howner')
      exact ⟨.run, s.accepted, rfl, nofun⟩
  · rw [runGrab_of_other howner]
    refine ⟨rfl, ?_, nofun, nofun, ?_⟩
    · intro owner howner'
      obtain rfl : window = owner := Option.some.inj howner'
      exact .inr ⟨s.grabState.owner.isSome, by simp⟩
    · intro owner howner'
      obtain rfl : window = owner := Option.some.inj howner'
      exact ⟨.run, s.accepted, rfl, nofun⟩

theorem Consistent.waitGrab (hs : s.Consistent) (window : SessionId)
    (now : Nat) : (s.waitGrab window now).Consistent := by
  by_cases howner : s.grabState.owner = some window
  · rcases waitGrab_of_owner howner now with ⟨wakesAt, -, h⟩ | ⟨hpending, h⟩ | h
    · rw [h]
      refine ⟨hs.hooked, hs.enabling, hs.disabling, ?_, ?_⟩
      · intro _
        exact ⟨⟨window, s.grabState.lastGrab, wakesAt⟩, by simp, howner, rfl⟩
      · intro owner howner'
        obtain rfl : window = owner := Option.some.inj (howner.symm.trans howner')
        exact ⟨.wait, s.accepted, rfl, fun _ => rfl⟩
    · rw [h]
      refine ⟨hs.hooked, hs.enabling, hs.disabling, hs.waiting, ?_⟩
      intro owner howner'
      obtain rfl : window = owner := Option.some.inj (howner.symm.trans howner')
      exact ⟨.wait, s.accepted, rfl, fun _ => hpending⟩
    · rw [h]
      exact releaseGrab_consistent _
  · rw [waitGrab_of_other howner]
    exact hs

theorem Consistent.changeGrabStatus (hs : s.Consistent) (state : GrabState)
    (window : SessionId) (now : Nat) : (s.changeGrabStatus state window now).Consistent := by
  unfold GrabClient.changeGrabStatus
  split
  · exact hs
  · cases state with
    | ready => exact hs
    | run => exact hs.runGrab window now
    | wait => exact hs.waitGrab window now
    | exit => exact hs

theorem mem_eraseIdx_of_ne {α : Type*} {x y : α} {l : List α} {i : Nat} (hx : x ∈ l)
    (hi : l[i]? = some y) (hne : x ≠ y) : x ∈ l.eraseIdx i := by
  obtain ⟨j, hj⟩ := List.mem_iff_getElem?.mp hx
  refine List.mem_eraseIdx_iff_getElem?.mpr ⟨j, ?_, hj⟩
  rintro rfl
  exact hne (Option.some.inj (hj.symm.trans hi))

theorem Consistent.afterUnlock (hs : s.Consistent) (i : Nat) :
    (s.step (.afterUnlock i kbs)).Consistent := by
  simp only [step]
  cases hi : s.afterUnlock[i]? with
  | none => exact hs
  | some work =>
    cases work with
    | applyRunGrabIfOwner window first =>
      simp only [unlocked, applyRunGrabIfOwner]
      split_ifs with howner
      · refine ⟨hs.hooked, ?_, ?_, hs.waiting, hs.latest⟩
        · intro owner howner'
          refine (hs.enabling owner howner').imp_right ?_
          rintro ⟨first', hmem⟩
          refine ⟨first', mem_eraseIdx_of_ne hmem hi ?_⟩
          intro heq
          cases heq
          exact howner howner'
        · intro hnone
          obtain ⟨hlast, hdisabling⟩ := hs.disabling hnone
          exact ⟨hlast, hdisabling.imp_right fun hmem => mem_eraseIdx_of_ne hmem hi nofun⟩
      all_goals
        have howner' : s.grabState.owner = some window := by simpa using howner
        refine ⟨hs.hooked, fun _ _ => .inl rfl, ?_, hs.waiting, hs.latest⟩
        intro hnone
        have hnone' : s.grabState.owner = none := hnone
        rw [hnone'] at howner'
        cases howner'
    | disableGrabIfReleased =>
      simp only [unlocked, disableGrabIfReleased]
      split_ifs with hreleased
      · refine ⟨hs.hooked, ?_, ?_, hs.waiting, hs.latest⟩
        · intro owner howner
          have howner' : s.grabState.owner = some owner := howner
          simp [howner'] at hreleased
        · intro hnone
          exact ⟨(hs.disabling hnone).1, .inl rfl⟩
      · refine ⟨hs.hooked, ?_, ?_, hs.waiting, hs.latest⟩
        · intro owner howner
          refine (hs.enabling owner howner).imp_right ?_
          rintro ⟨first, hmem⟩
          exact ⟨first, mem_eraseIdx_of_ne hmem hi nofun⟩
        · intro hnone
          have hlast := (hs.disabling hnone).1
          have hnone' : s.grabState.owner = none := hnone
          simp [hnone', hlast] at hreleased
    | releaseRemoteKeysForEvents keys =>
      refine (releaseRemoteKeys_sameGrab kbs _ keys).consistent ?_
      refine ⟨hs.hooked, ?_, ?_, hs.waiting, hs.latest⟩
      · intro owner howner
        refine (hs.enabling owner howner).imp_right ?_
        rintro ⟨first, hmem⟩
        exact ⟨first, mem_eraseIdx_of_ne hmem hi nofun⟩
      · intro hnone
        obtain ⟨hlast, hdisabling⟩ := hs.disabling hnone
        exact ⟨hlast, hdisabling.imp_right fun hmem => mem_eraseIdx_of_ne hmem hi nofun⟩

/-- **A thread wakes up**: it releases the grab, or another one is still there to do so. -/
theorem Consistent.wake (hs : s.Consistent) (i now : Nat) : (s.step (.wake i now)).Consistent := by
  simp only [step]
  cases hi : s.deferred[i]? with
  | none => exact hs
  | some thread =>
    simp only [GrabClient.wake]
    split_ifs with hearly hmatch
    · exact hs
    · exact releaseGrab_consistent _
    · refine ⟨hs.hooked, hs.enabling, hs.disabling, ?_, hs.latest⟩
      intro hpending
      obtain ⟨other, hmem, howner, hlast⟩ := hs.waiting hpending
      refine ⟨other, mem_eraseIdx_of_ne hmem hi ?_, howner, hlast⟩
      rintro rfl
      exact hmatch ⟨howner, hlast⟩

theorem step_consistent (s : GrabClient) (i : GrabInput) (hs : s.Consistent) :
    (s.step i).Consistent := by
  cases i with
  | storeRdevEnabled enabled =>
    have hsame : SameGrab s (s.step (.storeRdevEnabled enabled)) := ⟨rfl, rfl, rfl, rfl, rfl, rfl⟩
    exact hsame.consistent hs
  | setCurSessionId window =>
    have hsame : SameGrab s (s.step (.setCurSessionId window)) := ⟨rfl, rfl, rfl, rfl, rfl, rfl⟩
    exact hsame.consistent hs
  | changeGrabStatus state window now => exact hs.changeGrabStatus state window now
  | afterUnlock i kbs => exact hs.afterUnlock kbs i
  | wake i now => exact hs.wake i now
  | key kb event => exact (processEvent_sameGrab s kb event).consistent hs

theorem start_consistent : start.Consistent :=
  ⟨rfl, nofun, fun _ => ⟨rfl, .inl rfl⟩, nofun, nofun⟩

variable {owner : SessionId}

theorem wake_kept {i : Nat} {thread : DeferredRelease}
    (hi : s.deferred[i]? = some thread) (howner : s.grabState.owner = some owner)
    (hstale : thread.sessionId ≠ owner) (now : Nat) : GrabKept s (s.step (.wake i now)) := by
  have hmatch : ¬(s.grabState.owner = some thread.sessionId ∧
      s.grabState.lastGrab = thread.snapshot) := by
    rintro ⟨howner', -⟩
    exact hstale (Option.some.inj (howner'.symm.trans howner))
  simp only [step, hi, GrabClient.wake]
  split_ifs
  · exact (SameGrab.refl s).kept
  · exact ⟨rfl, rfl, id⟩

theorem afterUnlock_kept (howner : s.grabState.owner = some owner) (i : Nat) :
    GrabKept s (s.step (.afterUnlock i kbs)) := by
  simp only [step]
  cases hi : s.afterUnlock[i]? with
  | none => exact (SameGrab.refl s).kept
  | some work =>
    cases work with
    | applyRunGrabIfOwner window first =>
      simp only [unlocked, applyRunGrabIfOwner]
      split_ifs
      · exact ⟨rfl, rfl, id⟩
      · exact ⟨rfl, rfl, fun _ => rfl⟩
      · exact ⟨rfl, rfl, fun _ => rfl⟩
    | disableGrabIfReleased =>
      simp only [unlocked, disableGrabIfReleased, howner, Option.isNone_some,
        Bool.false_and, Bool.false_eq_true, if_false]
      exact ⟨rfl, rfl, id⟩
    | releaseRemoteKeysForEvents keys =>
      obtain ⟨hstate, hhooked, hgrab, -⟩ := releaseRemoteKeys_sameGrab kbs
        { s with afterUnlock := s.afterUnlock.eraseIdx i } keys
      exact ⟨hstate, hhooked, fun h => hgrab.trans h⟩

theorem Consistent.settled (hs : s.Consistent) (hdone : s.afterUnlock = []) :
    (s.osGrab = true ↔ s.grabState.owner.isSome = true) ∧
      (s.grabState.owner.isSome = true ↔ s.keyboardHooked = true) := by
  refine ⟨?_, by rw [hs.hooked]⟩
  cases howner : s.grabState.owner with
  | none =>
    have hungrabbed : s.osGrab = false := by
      simpa [hdone] using (hs.disabling howner).2
    simp [hungrabbed]
  | some owner =>
    have hgrabbed : s.osGrab = true := by
      simpa [hdone] using hs.enabling owner howner
    simp [hgrabbed]

theorem Consistent.latest_ne_wait (hs : s.Consistent)
    (hdone : s.deferred = []) (howner : s.grabState.owner = some owner) :
    ∃ state earlier, s.accepted = (owner, state) :: earlier ∧ state ≠ .wait := by
  obtain ⟨state, earlier, haccepted, hwait⟩ := hs.latest owner howner
  refine ⟨state, earlier, haccepted, ?_⟩
  intro hstate
  obtain ⟨thread, hmem, -⟩ := hs.waiting (hwait hstate)
  rw [hdone] at hmem
  cases hmem

theorem Consistent.followsOwner (hs : s.Consistent) : s.FollowsOwner := by
  constructor
  case staleWait =>
    intro window owner now howner hne
    have hignored : s.grabState.owner ≠ some window := by
      rw [howner]
      intro h
      exact hne (Option.some.inj h).symm
    simp only [GrabClient.step, GrabClient.changeGrabStatus, waitGrab_of_other hignored, ite_self]
  case staleWake =>
    intro i thread owner now hi howner hne
    exact wake_kept hi howner hne now
  case lateUnlock =>
    intro i kbs owner howner
    exact afterUnlock_kept kbs howner i
  case settled => exact hs.settled
  case waited =>
    intro window hlast hdone howner
    obtain ⟨state, earlier, haccepted, hne⟩ := hs.latest_ne_wait hdone howner
    simp [lastAccepted, haccepted] at hlast
    exact hne hlast
  case released =>
    intro window hhead hdone
    cases howner : s.grabState.owner with
    | none => rfl
    | some owner =>
      obtain ⟨state, earlier, haccepted, hne⟩ := hs.latest_ne_wait hdone howner
      rw [haccepted, List.head?_cons] at hhead
      cases hhead
      exact absurd rfl hne

/-- **The keyboard grab follows its owner**, in every interleaving of the calls of any number
of windows, of the threads that wait, and of what is done after the lock is given up. -/
theorem grab_follows_owner (is : List GrabInput) : Run.Always step FollowsOwner start is := by
  have hconsistent : Run.Always step Consistent start is :=
    Run.always_of_step step_consistent start_consistent is
  intro pre hpre
  exact (hconsistent pre hpre).followsOwner

end GrabClient
end RustDesk
