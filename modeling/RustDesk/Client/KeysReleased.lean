import RustDesk.Client.GrabOwner

/-!
# Where keys are released (Linux)

A key that goes down is recorded in `TO_RELEASE`, without the session that it is sent to and
without what it is sent as.  A window that gives up the grab takes all that is recorded and
releases it, at the session that is current by then.  So keys are released where they were
pressed if neither the current session nor the owner changes while a key is down, and a key
stands for the same keys of the peer when it goes up as when it went down (`KeepsKeys`).  When one
window takes the grab over from another, nothing sees to that.
-/

namespace RustDesk

open HeldKeys List Keyboard

/-- The keys that a step releases. -/
def AfterUnlock.keys : AfterUnlock → List KeyDown
  | .releaseRemoteKeysForEvents toRelease => toRelease
  | _ => []

namespace GrabClient

/-- What was sent at a session. -/
def strokes (s : GrabClient) (session : SessionId) : List (Stroke KeyUnion) :=
  (s.sent.filter fun entry => entry.1 = session).map (·.2)

/-- The keys that were taken and are still to be released. -/
def outstanding (s : GrabClient) : List KeyDown := s.afterUnlock.flatMap AfterUnlock.keys

/-- The keys of the peer that are down, as far as it is recorded. -/
def down (s : GrabClient) : List KeyUnion := (s.toRelease ++ s.outstanding).flatMap (·.sentAs)

/-- What is released at a session was pressed there before. -/
def PressedBefore : List (SessionId × Stroke KeyUnion) → Prop
  | [] => True
  | (session, .release key) :: before =>
    (session, .press key) ∈ before ∧ PressedBefore before
  | _ :: before => PressedBefore before

/-- **Keys are released where they were pressed.** -/
structure KeysReleased (s : GrabClient) : Prop where
  /-- Nothing is held at a session that does not own the grab, once no thread of it waits and
  no key is still to be released. -/
  released : ∀ window key, s.grabState.owner ≠ some window →
    (∀ thread ∈ s.deferred, thread.sessionId ≠ window) → s.outstanding = [] →
    held (s.strokes window) key = false
  /-- Nothing is released that was not pressed there. -/
  pressed : PressedBefore s.sent

/-- No key is recorded, and none is still to be released. -/
def NoKeyDown (s : GrabClient) : Prop := s.toRelease = [] ∧ s.outstanding = []

/-- The presses of a key that was taken: it may be down again. -/
def pressesOf (s : GrabClient) (entry : KeyDown) : List (Keyboard × RdevEvent) :=
  entry.presses ++ s.presses entry.key

/-- The release of a key that was taken stands for the same keys of the peer as its presses, and
so does the click of an `Alt`. -/
def TakenUp (s : GrabClient) (kbs : PhysicalKey → Nat → Keyboard) (entry : KeyDown) : Prop :=
  (kbs entry.key 0).Undoes entry.released (s.pressesOf entry) ∧
    (entry.key.isAlt = true →
      (∀ stroke ∈ (kbs entry.key 1).keyEvents entry.pressed,
        ∃ key ∈ pressedAs (s.pressesOf entry), stroke = .press key) ∧
      (kbs entry.key 2).Undoes entry.released (s.pressesOf entry))

/-- **A step that keeps keys where they were pressed**: the current session changes only with
no key down, and so does the owner; a key goes down only while the current session owns the
grab; and a key that goes up stands for the keys of the peer that its recorded presses stood
for. -/
def KeepsKeys (s : GrabClient) : GrabInput → Prop
  | .setCurSessionId window => s.curSession = some window ∨ s.NoKeyDown
  | .changeGrabStatus .run window _ =>
    s.isRdevEnabled = true → s.grabState.owner ≠ some window → s.toRelease = []
  | .key kb event =>
    if event.isPress = true then
      s.isLongPress event.eventType = true ∨
        (s.curSession.isSome = true ∧ s.grabState.owner = s.curSession)
    else s.curSession = none ∨ kb.Undoes event (s.presses event.key)
  | .afterUnlock i kbs => ∀ work ∈ s.afterUnlock[i]?, ∀ entry ∈ work.keys, s.TakenUp kbs entry
  | _ => True

instance (s : GrabClient) (kbs : PhysicalKey → Nat → Keyboard) (entry : KeyDown) :
    Decidable (s.TakenUp kbs entry) := inferInstanceAs (Decidable (_ ∧ (_ → _ ∧ _)))

instance (s : GrabClient) : Decidable s.NoKeyDown := inferInstanceAs (Decidable (_ = [] ∧ _ = []))

instance (s : GrabClient) : (i : GrabInput) → Decidable (s.KeepsKeys i)
  | .storeRdevEnabled _ => isTrue trivial
  | .setCurSessionId _ => inferInstanceAs (Decidable (_ ∨ _))
  | .changeGrabStatus .run _ _ => inferInstanceAs (Decidable (_ → _ → _ = []))
  | .changeGrabStatus .ready _ _ => isTrue trivial
  | .changeGrabStatus .wait _ _ => isTrue trivial
  | .changeGrabStatus .exit _ _ => isTrue trivial
  | .afterUnlock _ _ => inferInstanceAs (Decidable (∀ work ∈ _, ∀ entry ∈ _, _))
  | .wake _ _ => isTrue trivial
  | .key _ event => inferInstanceAs (Decidable (if event.isPress = true then _ ∨ _ else _ ∨ _))

/-- **Every key that is held is held at the current session**, and is recorded as down, or is one
of those `taken` just now. -/
structure Tracked (s : GrabClient) (taken : List KeyUnion) : Prop where
  elsewhere : ∀ window, s.curSession ≠ some window → ∀ key, held (s.strokes window) key = false
  recorded : ∀ window, s.curSession = some window → ∀ key,
    held (s.strokes window) key = true → key ∈ s.down ∨ key ∈ taken
  sentBefore : ∀ window, s.curSession = some window → ∀ key,
    key ∈ s.down ∨ key ∈ taken → (window, .press key) ∈ s.sent
  pressed : PressedBefore s.sent

/-- While a key is recorded, the current session owns the grab. -/
def Owned (s : GrabClient) : Prop :=
  s.toRelease ≠ [] → s.curSession.isSome = true ∧ s.grabState.owner = s.curSession

variable {s s' : GrabClient} {taken taken' : List KeyUnion}

theorem Tracked.keysReleased (hs : s.Tracked []) (howned : s.Owned) : s.KeysReleased := by
  refine ⟨?_, hs.pressed⟩
  intro window key hlost _ hdone
  by_cases hcur : s.curSession = some window
  · by_contra hheld
    rcases hs.recorded window hcur key (by simpa using hheld) with hdown | htaken
    · obtain ⟨entry, hentry, -⟩ := mem_flatMap.mp hdown
      rw [hdone, append_nil] at hentry
      exact hlost ((howned (ne_nil_of_mem hentry)).2.trans hcur)
    · cases htaken
  · exact hs.elsewhere window hcur key

theorem start_tracked : start.Tracked [] := ⟨fun _ _ _ => rfl, nofun, nofun, trivial⟩

/-- An event that was sent at the current session, if there is one. -/
structure Processed (kb : Keyboard) (event : RdevEvent) (s s' : GrabClient) : Prop where
  grab : SameGrab s s'
  session : s'.curSession = s.curSession
  toRelease : s'.toRelease = s.updateToRelease event
    (if s.curSession.isSome then [(kb, event)] else [])
  here : ∀ window, s.curSession = some window →
    s'.sent = (kb.keyEvents event).reverse.map (window, ·) ++ s.sent
  nowhere : s.curSession = none → s'.sent = s.sent

theorem sendKeyEvents_eq (s : GrabClient) (strokes : List (Stroke KeyUnion)) :
    strokes.foldl sendKeyEvent s = { s with
      sent := match s.curSession with
        | some window => strokes.reverse.map (window, ·) ++ s.sent
        | none => s.sent } := by
  induction strokes generalizing s with
  | nil =>
    obtain ⟨_, _, _, _, _, _, curSession, _, _, _, _⟩ := s
    cases curSession <;> rfl
  | cons stroke strokes ih =>
    rw [foldl_cons, ih]
    cases hcur : s.curSession <;> simp [sendKeyEvent, hcur]

variable {kb : Keyboard} {event : RdevEvent} {window : SessionId}

theorem processEvent_processed (hshort : s.isLongPress event.eventType = false) :
    Processed kb event s (s.processEvent kb event) := by
  refine ⟨processEvent_sameGrab s kb event, ?_, ?_, ?_, ?_⟩ <;>
    simp only [processEvent, hshort, Bool.false_eq_true, if_false, sendKeyEvents_eq, record]
  · intro window hcur
    rw [hcur]
  · intro hcur
    rw [hcur]

theorem Processed.elsewhere (h : Processed kb event s s') (hcur : s.curSession ≠ some window) :
    s'.strokes window = s.strokes window := by
  cases hsession : s.curSession with
  | none => simp only [strokes, h.nowhere hsession]
  | some session =>
    have hne : session ≠ window := by
      rintro rfl
      exact hcur hsession
    simp [strokes, h.here session hsession, filter_map, Function.comp_def, hne]

theorem Processed.strokes_here (h : Processed kb event s s') (hcur : s.curSession = some window) :
    s'.strokes window = (kb.keyEvents event).reverse ++ s.strokes window := by
  simp [strokes, h.here window hcur, filter_map, Function.comp_def]

theorem Processed.sent_mono (h : Processed kb event s s')
    {entry : SessionId × Stroke KeyUnion} (hentry : entry ∈ s.sent) : entry ∈ s'.sent := by
  cases hsession : s.curSession with
  | none => rwa [h.nowhere hsession]
  | some session =>
    rw [h.here session hsession]
    exact mem_append_right _ hentry

variable {strokes : List (Stroke KeyUnion)}

theorem PressedBefore.append {sent : List (SessionId × Stroke KeyUnion)} (h : PressedBefore sent)
    (hpressed : ∀ key, .release key ∈ strokes → (window, .press key) ∈ sent) :
    PressedBefore (strokes.map (window, ·) ++ sent) := by
  induction strokes with
  | nil => exact h
  | cons stroke strokes ih =>
    have hrest := ih fun key hkey => hpressed key (mem_cons_of_mem _ hkey)
    cases stroke with
    | release key => exact ⟨mem_append_right _ (hpressed key mem_cons_self), hrest⟩
    | press key => exact hrest
    | text typed => exact hrest

/-- **An event that was sent**: what is held afterwards went down just now, or was held before
and was not let go of. -/
theorem Tracked.processed (hs : s.Tracked taken) (h : Processed kb event s s')
    (hrecorded : s.curSession.isSome = true → ∀ key, .press key ∈ kb.keyEvents event ∨
      (key ∈ s.down ∨ key ∈ taken) ∧ .release key ∉ kb.keyEvents event →
      key ∈ s'.down ∨ key ∈ taken')
    (hdown : s.curSession.isSome = true → ∀ key, key ∈ s'.down ∨ key ∈ taken' →
      .press key ∈ kb.keyEvents event ∨ key ∈ s.down ∨ key ∈ taken)
    (hreleased : ∀ window, s.curSession = some window → ∀ key,
      .release key ∈ kb.keyEvents event → (window, .press key) ∈ s.sent) : s'.Tracked taken' := by
  constructor
  case elsewhere =>
    intro window hcur key
    rw [h.session] at hcur
    rw [h.elsewhere hcur]
    exact hs.elsewhere window hcur key
  case recorded =>
    intro window hcur key hheld
    rw [h.session] at hcur
    rw [h.strokes_here hcur] at hheld
    refine hrecorded (Option.isSome_of_eq_some hcur) key ?_
    rcases held_append hheld with hpress | ⟨hbefore, hkept⟩
    · exact .inl (mem_reverse.mp hpress)
    · exact .inr ⟨hs.recorded window hcur key hbefore, mt mem_reverse.mpr hkept⟩
  case sentBefore =>
    intro window hcur key hkey
    rw [h.session] at hcur
    rcases hdown (Option.isSome_of_eq_some hcur) key hkey with hpress | hbefore
    · rw [h.here window hcur]
      refine mem_append_left _ (mem_map_of_mem ?_)
      exact mem_reverse.mpr hpress
    · exact h.sent_mono (hs.sentBefore window hcur key hbefore)
  case pressed =>
    cases hcur : s.curSession with
    | none =>
      rw [h.nowhere hcur]
      exact hs.pressed
    | some window =>
      rw [h.here window hcur]
      exact hs.pressed.append fun key hkey => hreleased window hcur key (mem_reverse.mp hkey)

variable {k : KeyUnion}

/-- The keys of the peer that went down for a key, as far as it is recorded. -/
def sentAs (s : GrabClient) (key : PhysicalKey) : List KeyUnion := pressedAs (s.presses key)

theorem mem_sentAs {s : GrabClient} {key : PhysicalKey} :
    k ∈ s.sentAs key ↔ ∃ entry ∈ s.toRelease, entry.key = key ∧ k ∈ entry.sentAs := by
  simp only [sentAs, presses, KeyDown.sentAs, pressedAs, flatMap_assoc]
  simp [and_assoc]

/-- The keys of the peer that are down for a key that was taken. -/
def downFor (s : GrabClient) (entry : KeyDown) : List KeyUnion := pressedAs (s.pressesOf entry)

theorem mem_downFor {entry : KeyDown} :
    k ∈ s.downFor entry ↔ k ∈ entry.sentAs ∨ k ∈ s.sentAs entry.key := by
  exact mem_pressedAs_append

/-- A key of the peer that is recorded for another key than this one, or still to be released. -/
def DownBeside (s : GrabClient) (key : PhysicalKey) (k : KeyUnion) : Prop :=
  (∃ entry ∈ s.toRelease, entry.key ≠ key ∧ k ∈ entry.sentAs) ∨
    ∃ entry ∈ s.outstanding, k ∈ entry.sentAs

theorem mem_down (key : PhysicalKey) : k ∈ s.down ↔ s.DownBeside key k ∨ k ∈ s.sentAs key := by
  have hsplit : (∃ entry ∈ s.toRelease, k ∈ entry.sentAs) ↔
      (∃ entry ∈ s.toRelease, entry.key ≠ key ∧ k ∈ entry.sentAs) ∨ k ∈ s.sentAs key := by
    rw [mem_sentAs]
    constructor
    · rintro ⟨entry, hmem, hk⟩
      by_cases hkey : entry.key = key
      · exact .inr ⟨entry, hmem, hkey, hk⟩
      · exact .inl ⟨entry, hmem, hkey, hk⟩
    · rintro (⟨entry, hmem, -, hk⟩ | ⟨entry, hmem, -, hk⟩) <;> exact ⟨entry, hmem, hk⟩
  have hdown : k ∈ s.down ↔ (∃ entry ∈ s.toRelease, k ∈ entry.sentAs) ∨
      ∃ entry ∈ s.outstanding, k ∈ entry.sentAs := by simp [down]
  rw [hdown, hsplit, DownBeside, or_right_comm]

theorem keyDown_key (sent : List (Keyboard × RdevEvent)) :
    KeyDown.key ⟨event, sent⟩ = event.key := rfl

theorem Processed.mem_sentAs (h : Processed kb event s s') :
    k ∈ s'.sentAs event.key ↔ event.isPress = true ∧
      (s.curSession.isSome = true ∧ .press k ∈ kb.keyEvents event ∨ k ∈ s.sentAs event.key) := by
  have hpresses : s'.presses event.key = if event.isPress = true then
      (if s.curSession.isSome then [(kb, event)] else []) ++ s.presses event.key else [] := by
    rw [presses, h.toRelease, updateToRelease]
    cases event.isPress <;> simp [keyDown_key]
  rw [sentAs, hpresses]
  cases event.isPress with
  | false => simp
  | true =>
    rw [if_pos rfl, mem_pressedAs_append]
    cases s.curSession <;> simp [sentAs]

/-- **What is recorded after an event**: what a press is sent as is added, and what was recorded
for a key is gone when it goes up. -/
theorem Processed.mem_down (h : Processed kb event s s') :
    k ∈ s'.down ↔ s.DownBeside event.key k ∨ event.isPress = true ∧
      (s.curSession.isSome = true ∧ .press k ∈ kb.keyEvents event ∨ k ∈ s.sentAs event.key) := by
  have hout : s'.outstanding = s.outstanding := by rw [outstanding, h.grab.unlock, outstanding]
  have hbeside : s'.DownBeside event.key k ↔ s.DownBeside event.key k := by
    rw [DownBeside, DownBeside, hout, h.toRelease, updateToRelease]
    cases event.isPress <;> simp [keyDown_key, and_assoc]
  rw [GrabClient.mem_down event.key, hbeside, h.mem_sentAs]

theorem Tracked.keyPress (hs : s.Tracked taken) (hpress : event.isPress = true)
    (hshort : s.isLongPress event.eventType = false) : (s.processEvent kb event).Tracked taken := by
  have h : Processed kb event s (s.processEvent kb event) := processEvent_processed hshort
  refine hs.processed h ?_ ?_ ?_
  · rintro hcur k (hsent | ⟨hdown | htaken, -⟩)
    · exact .inl (h.mem_down.mpr (.inr ⟨hpress, .inl ⟨hcur, hsent⟩⟩))
    · refine .inl (h.mem_down.mpr ?_)
      exact ((mem_down event.key).mp hdown).imp_right fun hk => ⟨hpress, .inr hk⟩
    · exact .inr htaken
  · rintro - k (hdown | htaken)
    · rcases h.mem_down.mp hdown with hbeside | ⟨-, ⟨-, hsent⟩ | hk⟩
      · exact .inr (.inl ((mem_down event.key).mpr (.inl hbeside)))
      · exact .inl hsent
      · exact .inr (.inl ((mem_down event.key).mpr (.inr hk)))
    · exact .inr (.inr htaken)
  · exact fun window _ k hrelease => absurd hrelease (Keyboard.release_notMem_keyEvents hpress k)

/-- **A key that goes up**, when what goes out lets go of all that is recorded for it. -/
theorem Tracked.letGo {keys : List KeyUnion} (hs : s.Tracked taken)
    (hrelease : event.isPress = false) (hshort : s.isLongPress event.eventType = false)
    (hgo : s.curSession = none ∨ LetsGo keys (kb.keyEvents event))
    (hcover : ∀ k ∈ s.sentAs event.key, k ∈ keys) (htaken : ∀ k ∈ taken, k ∈ keys ∨ k ∈ taken')
    (hleft : ∀ k ∈ taken', k ∈ taken)
    (hpressed : ∀ window, s.curSession = some window → ∀ k ∈ keys, (window, .press k) ∈ s.sent) :
    (s.processEvent kb event).Tracked taken' := by
  have h : Processed kb event s (s.processEvent kb event) := processEvent_processed hshort
  have hgo' : s.curSession.isSome = true → LetsGo keys (kb.keyEvents event) := by
    intro hcur
    refine hgo.resolve_left fun hnone => ?_
    rw [hnone] at hcur
    cases hcur
  refine hs.processed h ?_ ?_ ?_
  · rintro hcur k (hsent | ⟨hbefore, hkept⟩)
    · exact absurd hsent ((hgo' hcur).press_notMem k)
    · have hother : k ∉ keys := fun hk => hkept ((hgo' hcur).1 k hk)
      rcases hbefore with hdown | hk
      · refine .inl (h.mem_down.mpr (.inl ?_))
        exact ((mem_down event.key).mp hdown).resolve_right fun hk => hother (hcover k hk)
      · exact .inr ((htaken k hk).resolve_left hother)
  · rintro - k (hdown | hk)
    · rcases h.mem_down.mp hdown with hbeside | ⟨hpress, -⟩
      · exact .inr (.inl ((mem_down event.key).mpr (.inl hbeside)))
      · rw [hrelease] at hpress
        cases hpress
    · exact .inr (.inr (hleft k hk))
  · intro window hcur k hk
    exact hpressed window hcur k ((hgo' (Option.isSome_of_eq_some hcur)).release_mem hk)

/-- What a release of taken keys leaves: it records nothing, and forgets nothing that was sent. -/
structure Follows (s s' : GrabClient) : Prop where
  grab : SameGrab s s'
  session : s'.curSession = s.curSession
  toRelease : s'.toRelease ⊆ s.toRelease
  sent : s.sent ⊆ s'.sent

theorem Follows.refl (s : GrabClient) : Follows s s :=
  ⟨SameGrab.refl s, rfl, List.Subset.refl _, List.Subset.refl _⟩

theorem Follows.trans {a b c : GrabClient} (h : Follows a b) (h' : Follows b c) : Follows a c :=
  ⟨h.grab.trans h'.grab, h'.session.trans h.session,
    fun _ hm => h.toRelease (h'.toRelease hm), fun _ hm => h'.sent (h.sent hm)⟩

theorem Follows.owned (h : Follows s s') (hs : s.Owned) : s'.Owned := by
  intro hne
  obtain ⟨entry, hmem⟩ := exists_mem_of_ne_nil _ hne
  rw [h.session, h.grab.state]
  exact hs (ne_nil_of_mem (h.toRelease hmem))

theorem Follows.sentAs (h : Follows s s') (key : PhysicalKey) : s'.sentAs key ⊆ s.sentAs key := by
  intro k hk
  obtain ⟨entry, hmem, hkey⟩ := mem_sentAs.mp hk
  exact mem_sentAs.mpr ⟨entry, h.toRelease hmem, hkey⟩

theorem Processed.follows (h : Processed kb event s s') (hrelease : event.isPress = false) :
    Follows s s' := by
  refine ⟨h.grab, h.session, ?_, fun _ => h.sent_mono⟩
  rw [h.toRelease, updateToRelease, hrelease]
  exact filter_subset_self _

variable {kbs : PhysicalKey → Nat → Keyboard} {entry : KeyDown} {keys : List KeyUnion}

/-- **A click** of keys that are let go of again leaves nothing behind. -/
theorem Tracked.click {kb' : Keyboard} (hs : s.Tracked taken)
    (hcover : ∀ k ∈ s.sentAs entry.key, k ∈ keys)
    (hpress : ∀ stroke ∈ kb.keyEvents entry.pressed, ∃ k ∈ keys, stroke = .press k)
    (hgo : LetsGo keys (kb'.keyEvents entry.released))
    (hpressed : ∀ window, s.curSession = some window → ∀ k ∈ keys, (window, .press k) ∈ s.sent) :
    ((s.processEvent kb entry.pressed).processEvent kb' entry.released).Tracked taken ∧
      Follows s ((s.processEvent kb entry.pressed).processEvent kb' entry.released) := by
  cases hshort : s.isLongPress entry.pressed.eventType with
  | true =>
    have hsame : s.processEvent kb entry.pressed = s := if_pos hshort
    rw [hsame]
    exact ⟨hs.letGo rfl rfl (.inr hgo) hcover (fun _ => .inr) (fun _ => id) hpressed,
      (processEvent_processed rfl).follows rfl⟩
  | false =>
    have h : Processed kb entry.pressed s (s.processEvent kb entry.pressed) :=
      processEvent_processed hshort
    have h' : Processed kb' entry.released (s.processEvent kb entry.pressed)
        ((s.processEvent kb entry.pressed).processEvent kb' entry.released) :=
      processEvent_processed rfl
    refine ⟨(hs.keyPress rfl hshort).letGo rfl rfl (.inr hgo) ?_ (fun _ => .inr) (fun _ => id) ?_,
      h.grab.trans h'.grab, h'.session.trans h.session, ?_, fun _ hm => h'.sent_mono (h.sent_mono hm)⟩
    · intro k hk
      rcases (h.mem_sentAs.mp hk).2 with ⟨-, hsent⟩ | hbefore
      · obtain ⟨key, hkey, heq⟩ := hpress _ hsent
        cases heq
        exact hkey
      · exact hcover k hbefore
    · intro window hcur k hk
      rw [h.session] at hcur
      exact h.sent_mono (hpressed window hcur k hk)
    · intro other hmem
      rw [h'.toRelease, updateToRelease, h.toRelease, updateToRelease] at hmem
      obtain ⟨hmem, hne⟩ := mem_filter.mp hmem
      rcases mem_cons.mp hmem with rfl | hmem
      · exact absurd rfl (of_decide_eq_true hne)
      · exact mem_of_mem_filter hmem

/-- **A taken key is released**, and with it all that is recorded for it by then. -/
theorem Tracked.releaseRemoteKey {s₀ : GrabClient} (hs : s.Tracked taken) (hbelow : Follows s₀ s)
    (hup : s₀.TakenUp kbs entry) (htaken : ∀ k ∈ taken, k ∈ s₀.downFor entry ∨ k ∈ taken')
    (hleft : ∀ k ∈ taken', k ∈ taken)
    (hpressed : ∀ window, s.curSession = some window → ∀ k ∈ s₀.downFor entry,
      (window, .press k) ∈ s.sent) :
    (s.releaseRemoteKey kbs entry).Tracked taken' ∧ Follows s (s.releaseRemoteKey kbs entry) := by
  have hcover : ∀ k ∈ s.sentAs entry.key, k ∈ s₀.downFor entry := fun k hk =>
    mem_downFor.mpr (.inr (hbelow.sentAs _ hk))
  have hfirst := hs.letGo rfl rfl (.inr hup.1) hcover htaken hleft hpressed
  have hfollows : Follows s (s.processEvent (kbs entry.key 0) entry.released) :=
    (processEvent_processed rfl).follows rfl
  simp only [GrabClient.releaseRemoteKey]
  split
  · rename_i halt
    obtain ⟨hpress, hgo⟩ := hup.2 halt
    have hclick := hfirst.click (fun k hk => hcover k (hfollows.sentAs _ hk)) hpress hgo
      fun window hcur k hk => hfollows.sent (hpressed window (hfollows.session ▸ hcur) k hk)
    exact ⟨hclick.1, hfollows.trans hclick.2⟩
  · exact ⟨hfirst, hfollows⟩

/-- **All taken keys are released.** -/
theorem Tracked.releaseRemoteKeys {s₀ : GrabClient} {entries : List KeyDown}
    (hs : s.Tracked (entries.flatMap (·.sentAs))) (hbelow : Follows s₀ s)
    (hup : ∀ entry ∈ entries, s₀.TakenUp kbs entry)
    (hpressed : ∀ window, s.curSession = some window → ∀ entry ∈ entries,
      ∀ k ∈ s₀.downFor entry, (window, .press k) ∈ s.sent) :
    (s.releaseRemoteKeysForEvents kbs entries).Tracked [] ∧
      Follows s (s.releaseRemoteKeysForEvents kbs entries) := by
  unfold releaseRemoteKeysForEvents
  induction entries generalizing s with
  | nil => exact ⟨hs, Follows.refl s⟩
  | cons entry entries ih =>
    rw [flatMap_cons] at hs
    obtain ⟨htracked, hfollows⟩ := hs.releaseRemoteKey hbelow (hup entry mem_cons_self)
      (fun k hk => (mem_append.mp hk).imp_left fun hk => mem_downFor.mpr (.inl hk))
      (fun k hk => mem_append_right _ hk)
      fun window hcur => hpressed window hcur entry mem_cons_self
    have hrest := ih htracked (hbelow.trans hfollows)
      (fun other hmem => hup other (mem_cons_of_mem _ hmem)) ?_
    · exact ⟨hrest.1, hfollows.trans hrest.2⟩
    · intro window hcur other hmem k hk
      rw [hfollows.session] at hcur
      exact hfollows.sent (hpressed window hcur other (mem_cons_of_mem _ hmem) k hk)

theorem Tracked.congr (hs : s.Tracked taken) (hsent : s'.sent = s.sent)
    (hcur : s'.curSession = s.curSession)
    (hdown : ∀ key, key ∈ s'.down ∨ key ∈ taken' ↔ key ∈ s.down ∨ key ∈ taken) :
    s'.Tracked taken' := by
  have hstrokes : ∀ window, s'.strokes window = s.strokes window := by
    intro window
    simp only [strokes, hsent]
  constructor
  case elsewhere =>
    simp only [hstrokes, hcur]
    exact hs.elsewhere
  case recorded =>
    simp only [hstrokes, hcur, hdown]
    exact hs.recorded
  case sentBefore =>
    simp only [hcur, hdown, hsent]
    exact hs.sentBefore
  case pressed =>
    rw [hsent]
    exact hs.pressed

/-- **The keys of a run**: all that are held are recorded, at the window that owns the grab. -/
structure Kept (s : GrabClient) : Prop where
  tracked : s.Tracked []
  owned : s.Owned

theorem Kept.congr (hs : s.Kept) (hsent : s'.sent = s.sent) (hcur : s'.curSession = s.curSession)
    (hdown : s'.toRelease = s.toRelease) (hout : s'.outstanding = s.outstanding)
    (howner : s'.toRelease ≠ [] → s'.grabState.owner = s.grabState.owner) : s'.Kept := by
  refine ⟨hs.tracked.congr hsent hcur fun key => ?_, fun hne => ?_⟩
  · rw [down, hdown, hout, down]
  · rw [howner hne, hcur]
    rw [hdown] at hne
    exact hs.owned hne

theorem Kept.releaseGrab (hs : s.Kept) : s.releaseGrab.Kept := by
  refine ⟨hs.tracked.congr rfl rfl fun key => ?_, fun hne => absurd rfl hne⟩
  simp [down, outstanding, GrabClient.releaseGrab, AfterUnlock.keys, or_comm]

theorem Kept.runGrab (hs : s.Kept) (hkeeps : s.grabState.owner ≠ some window → s.toRelease = [])
    (now : Nat) : (s.runGrab window now).Kept := by
  by_cases howner : s.grabState.owner = some window
  · rw [runGrab_of_owner howner]
    exact hs.congr rfl rfl rfl rfl fun _ => rfl
  · rw [runGrab_of_other howner]
    refine hs.congr rfl rfl rfl ?_ fun hne => absurd (hkeeps howner) hne
    simp [outstanding, AfterUnlock.keys]

theorem Kept.waitGrab (hs : s.Kept) (window : SessionId) (now : Nat) :
    (s.waitGrab window now).Kept := by
  have hnoted : (s.accept window .wait).Kept := hs.congr rfl rfl rfl rfl fun _ => rfl
  by_cases howner : s.grabState.owner = some window
  · rcases waitGrab_of_owner howner now with ⟨wakesAt, -, h⟩ | ⟨-, h⟩ | h
    · rw [h]
      exact hs.congr rfl rfl rfl rfl fun _ => rfl
    · rw [h]
      exact hnoted
    · rw [h]
      exact hnoted.releaseGrab
  · rw [waitGrab_of_other howner]
    exact hs

theorem Tracked.take (hs : s.Tracked []) {i : Nat} {work : AfterUnlock}
    (hi : s.afterUnlock[i]? = some work) :
    Tracked { s with afterUnlock := s.afterUnlock.eraseIdx i } (work.keys.flatMap (·.sentAs)) := by
  refine hs.congr rfl rfl fun key => ?_
  simp only [down, outstanding, flatMap_append, mem_append, not_mem_nil, or_false, or_assoc]
  refine or_congr_right ?_
  simp only [mem_flatMap]
  constructor
  · rintro (⟨entry, ⟨other, hmem, hentry⟩, hkey⟩ | ⟨entry, hentry, hkey⟩)
    · exact ⟨entry, ⟨other, mem_of_mem_eraseIdx hmem, hentry⟩, hkey⟩
    · exact ⟨entry, ⟨work, mem_of_getElem? hi, hentry⟩, hkey⟩
  · rintro ⟨entry, ⟨other, hmem, hentry⟩, hkey⟩
    by_cases hsame : other = work
    · exact .inr ⟨entry, hsame ▸ hentry, hkey⟩
    · exact .inl ⟨entry, ⟨other, mem_eraseIdx_of_ne hmem hi hsame, hentry⟩, hkey⟩

theorem Kept.setCurSessionId (hs : s.Kept) (hkeeps : s.curSession = some window ∨ s.NoKeyDown) :
    Kept { s with curSession := some window } := by
  rcases hkeeps with hsame | ⟨hdown, hout⟩
  · exact hs.congr rfl hsame.symm rfl rfl fun _ => rfl
  · have hnothing : ∀ key, ¬(key ∈ s.down ∨ key ∈ ([] : List KeyUnion)) := by
      simp [down, hdown, hout]
    have hnone : ∀ session key, held (s.strokes session) key = false := by
      intro session key
      by_cases hcur : s.curSession = some session
      · by_contra hheld
        exact hnothing key (hs.tracked.recorded session hcur key (by simpa using hheld))
      · exact hs.tracked.elsewhere session hcur key
    refine ⟨⟨fun session _ key => hnone session key, fun session _ key hheld => ?_,
      fun session _ key hkey => absurd hkey (hnothing key), hs.tracked.pressed⟩,
      fun hne => absurd hdown hne⟩
    have hheld' : held (s.strokes session) key = true := hheld
    rw [hnone session key] at hheld'
    cases hheld'

theorem Kept.afterUnlock (hs : s.Kept) {i : Nat} (hkeeps : s.KeepsKeys (.afterUnlock i kbs)) :
    (s.step (.afterUnlock i kbs)).Kept := by
  simp only [step]
  cases hi : s.afterUnlock[i]? with
  | none => exact hs
  | some work =>
    have htake := hs.tracked.take hi
    cases work with
    | applyRunGrabIfOwner window first =>
      have hkept : Kept { s with afterUnlock := s.afterUnlock.eraseIdx i } := ⟨htake, hs.owned⟩
      simp only [unlocked, applyRunGrabIfOwner]
      split_ifs
      · exact hkept
      · exact hkept.congr rfl rfl rfl rfl fun _ => rfl
      · exact hkept.congr rfl rfl rfl rfl fun _ => rfl
    | disableGrabIfReleased =>
      have hkept : Kept { s with afterUnlock := s.afterUnlock.eraseIdx i } := ⟨htake, hs.owned⟩
      simp only [unlocked, disableGrabIfReleased]
      split_ifs
      · exact hkept.congr rfl rfl rfl rfl fun _ => rfl
      · exact hkept
    | releaseRemoteKeysForEvents entries =>
      have hpressed : ∀ window, s.curSession = some window → ∀ entry ∈ entries,
          ∀ k ∈ s.downFor entry, (window, .press k) ∈ s.sent := by
        intro window hcur entry hmem k hk
        refine htake.sentBefore window hcur k ?_
        rcases mem_downFor.mp hk with htaken | hrecorded
        · exact .inr (mem_flatMap.mpr ⟨entry, hmem, htaken⟩)
        · exact .inl ((mem_down entry.key).mpr (.inr hrecorded))
      obtain ⟨htracked, hfollows⟩ := htake.releaseRemoteKeys (Follows.refl _)
        (fun entry hmem => hkeeps _ hi entry hmem) hpressed
      exact ⟨htracked, hfollows.owned hs.owned⟩

theorem Kept.key (hs : s.Kept) (hkeeps : s.KeepsKeys (.key kb event)) :
    (s.processEvent kb event).Kept := by
  simp only [KeepsKeys] at hkeeps
  cases hpress : event.isPress with
  | true =>
    rw [if_pos hpress] at hkeeps
    cases hshort : s.isLongPress event.eventType with
    | true =>
      have hsame : s.processEvent kb event = s := if_pos hshort
      rw [hsame]
      exact hs
    | false =>
      obtain ⟨hsome, howner⟩ := hkeeps.resolve_left (by simp [hshort])
      have h : Processed kb event s (s.processEvent kb event) := processEvent_processed hshort
      refine ⟨hs.tracked.keyPress hpress hshort, fun _ => ?_⟩
      rw [h.session, h.grab.state]
      exact ⟨hsome, howner⟩
  | false =>
    rw [if_neg (by simp [hpress])] at hkeeps
    have hshort : s.isLongPress event.eventType = false := by
      cases htype : event.eventType with
      | keyPress key => simp [RdevEvent.isPress, htype] at hpress
      | keyRelease key => rfl
    have h : Processed kb event s (s.processEvent kb event) := processEvent_processed hshort
    have hfollows := h.follows hpress
    refine ⟨hs.tracked.letGo hpress hshort hkeeps (fun _ => id) nofun nofun ?_,
      hfollows.owned hs.owned⟩
    intro window hcur k hk
    exact hs.tracked.sentBefore window hcur k (.inl ((mem_down event.key).mpr (.inr hk)))

/-- **A step that keeps keys where they were pressed** leads on to a state where they are
tracked. -/
theorem step_kept (s : GrabClient) (i : GrabInput) (hs : s.Kept) (hkeeps : s.KeepsKeys i) :
    (s.step i).Kept := by
  cases i with
  | storeRdevEnabled enabled => exact hs.congr rfl rfl rfl rfl fun _ => rfl
  | setCurSessionId window => exact hs.setCurSessionId hkeeps
  | changeGrabStatus state window now =>
    simp only [step, changeGrabStatus]
    cases henabled : s.isRdevEnabled with
    | false => exact hs
    | true =>
      cases state with
      | ready => exact hs
      | run => exact hs.runGrab (hkeeps henabled) now
      | wait => exact hs.waitGrab window now
      | exit => exact hs
  | afterUnlock i kbs => exact hs.afterUnlock hkeeps
  | wake i now =>
    simp only [step]
    cases hi : s.deferred[i]? with
    | none => exact hs
    | some thread =>
      have hwoken : Kept { s with deferred := s.deferred.eraseIdx i } :=
        hs.congr rfl rfl rfl rfl fun _ => rfl
      simp only [wake]
      split_ifs
      · exact hs
      · exact hwoken.releaseGrab
      · exact hwoken
  | key kb event => exact hs.key hkeeps

/-- **Keys are released where they were pressed**, in every interleaving whose steps change the
current session and the owner of the grab only while no key is down, and let go of a key as it
went down. -/
theorem keys_released_where_pressed (is : List GrabInput)
    (h : Run.Along step KeepsKeys start is) : Run.Always step KeysReleased start is := by
  have hkept : Run.Always step Kept start is :=
    Run.always_of_along step_kept ⟨start_tracked, fun hne => absurd rfl hne⟩ h
  intro pre hpre
  exact (hkept pre hpre).tracked.keysReleased (hkept pre hpre).owned

/-- Map mode, for a peer that numbers keys as Linux does. -/
def mapMode : Keyboard := ⟨.map, .other, fun _ => none, false, false, false, false, id⟩

/-- The `A` key goes down. -/
def downA : RdevEvent := ⟨.keyPress (.char 'a'), none, 0x61, 38⟩

/-- The `A` key goes up. -/
def upA : RdevEvent := ⟨.keyRelease (.char 'a'), none, 0x61, 38⟩

/-- A window is entered, a key goes down and up, and the window is left with `Alt` down. -/
theorem typed_in_one_window :
    Run.Always step KeysReleased start
      [.setCurSessionId 1, .changeGrabStatus .run 1 0, .afterUnlock 0 fun _ _ => mapMode,
        .key mapMode downA, .key mapMode upA,
        .key mapMode ⟨.keyPress .alt, none, 0xFFE9, 64⟩,
        .changeGrabStatus .wait 1 (400 * nsPerMs), .afterUnlock 0 fun _ _ => mapMode,
        .afterUnlock 0 fun _ _ => mapMode, .setCurSessionId 2,
        .changeGrabStatus .run 2 (401 * nsPerMs)] :=
  keys_released_where_pressed _ (by decide)

/-- A key goes down in one window, the other is entered before the first is left, and the key
goes up there. -/
def enteredBeforeLeft : List GrabInput :=
  [.setCurSessionId 1, .changeGrabStatus .run 1 0, .afterUnlock 0 fun _ _ => mapMode,
    .key mapMode downA, .setCurSessionId 2, .changeGrabStatus .run 2 (400 * nsPerMs),
    .afterUnlock 0 fun _ _ => mapMode, .changeGrabStatus .wait 1 (401 * nsPerMs),
    .key mapMode upA]

/-- **The key stays down in the one window, and is released in the other.** -/
theorem key_left_behind : ¬Run.Always step KeysReleased start enteredBeforeLeft := by
  intro h
  have hheld := h.last.released 1 (.chr 38) (by decide) (by decide) (by decide)
  revert hheld
  decide

end GrabClient
end RustDesk
