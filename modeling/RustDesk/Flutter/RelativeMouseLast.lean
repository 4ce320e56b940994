import RustDesk.Flutter.RelativeMouse

/-!
# The last request decides

When nothing is under way, the relative mouse mode should be what was last asked for.  Turning it
off does not take the number of the pending request, so a request to turn it on that ends later
still does so.

* `follows_last_request`: **the mode follows the last request** in every run where no request to
  turn it on ends after one to turn it off, and the operating system clips and releases the cursor
  when asked to.
-/

open Run

namespace RustDesk.RelativeMouseModel

open List

def Task.Enables (requestId : Nat) (ok : Bool) (frame : Frame) : Task → Prop
  | .enableNative _ => ok = true
  | .disableNative => False
  | .returned next => next = .enable requestId
  | .getFrame next => next = .enable requestId ∧ frame ≠ .throws
  | .retry _ next => next = .enable requestId

/-- The cursor is released and clipped again as asked; a task that turns the mode on ends while it
is wanted; and a model is not disposed of twice to turn it off. -/
structure Meets (m : Model) (i : Input) : Prop where
  release : i.os.release = true
  clip : m.clipped = true → i.os.clip = true
  enables : ∀ n ok frame t, i.event = .taskEnds n ok frame → m.tasks[n]? = some t →
    t.Enables m.enableRequestId ok frame → m.wanted = true
  dispose : i.event = .dispose → m.disposed = true → m.wanted = false

/-- When nothing is under way: without the mode wanted it is off, not native, and the cursor is
free; with it wanted, and no platform step failed since, it is on. -/
def FollowsLast (m : Model) : Prop :=
  m.tasks = [] →
    (m.wanted = false → m.enabled = false ∧ m.activeNativeModel ≠ .this ∧ m.clipped = false) ∧
    (m.wanted = true → m.failed = false → m.enabled = true)

def Task.Own (requestId : Nat) : Task → Prop
  | .enableNative r => r = requestId
  | .disableNative => False
  | .returned next => next = .enable requestId
  | .getFrame next => next = .enable requestId
  | .retry _ next => next = .enable requestId

structure Safe (v : Env) (m : Model) : Prop where
  enabled : m.enabled = true → m.wanted = true
  native : m.activeNativeModel = .this →
    v.platform = .macOS ∧ (m.wanted = true ∨ .disableNative ∈ m.tasks)
  pending : ∀ r, .enableNative r ∈ m.tasks → v.platform = .macOS
  clip : m.clipped = true → m.cursorClipApplied = true
  applied : m.cursorClipApplied = true → m.enabled = true ∧ v.platform = .windows

def Live (m : Model) : Prop :=
  m.wanted = true → m.failed = false → m.enabled = true ∨ ∃ t ∈ m.tasks, t.Own m.enableRequestId

theorem followsLast_of_safe {v : Env} {m : Model} (hs : Safe v m) (hl : Live m) :
    FollowsLast m := by
  intro hnone
  constructor
  · intro hoff
    have henabled : m.enabled = false :=
      Bool.eq_false_iff.mpr fun h => Bool.noConfusion (hoff.symm.trans (hs.enabled h))
    refine ⟨henabled, fun hthis => ?_, Bool.eq_false_iff.mpr fun hclip => ?_⟩
    · rcases (hs.native hthis).2 with hwanted | hmem
      · exact Bool.noConfusion (hoff.symm.trans hwanted)
      · rw [hnone] at hmem
        cases hmem
    · exact Bool.noConfusion (henabled.symm.trans (hs.applied (hs.clip hclip)).1)
  · intro hwanted hfailed
    rcases hl hwanted hfailed with henabled | ⟨t, ht, -⟩
    · exact henabled
    · rw [hnone] at ht
      cases ht

structure Freed (v : Env) (m : Model) : Prop where
  native : m.activeNativeModel = .this → v.platform = .macOS ∧ .disableNative ∈ m.tasks
  pending : ∀ r, .enableNative r ∈ m.tasks → v.platform = .macOS
  clip : m.clipped = false
  applied : m.cursorClipApplied = false

theorem Freed.safe {v : Env} {m m' : Model} (h : Freed v m) (henabled : m'.enabled = false)
    (hnative : m'.activeNativeModel = m.activeNativeModel) (htasks : m'.tasks = m.tasks)
    (hclip : m'.clipped = m.clipped) (happlied : m'.cursorClipApplied = m.cursorClipApplied) :
    Safe v m' where
  enabled he := Bool.noConfusion (henabled.symm.trans he)
  native hthis := by
    rw [hnative] at hthis
    rw [htasks]
    exact ⟨(h.native hthis).1, .inr (h.native hthis).2⟩
  pending r hmem := h.pending r (htasks ▸ hmem)
  clip hc := Bool.noConfusion ((hclip.trans h.clip).symm.trans hc)
  applied ha := Bool.noConfusion ((happlied.trans h.applied).symm.trans ha)

theorem Safe.of_eq {v : Env} {m m' : Model} (hs : Safe v m) (henabled : m'.enabled = m.enabled)
    (hwanted : m'.wanted = m.wanted) (hnative : m'.activeNativeModel = m.activeNativeModel)
    (htasks : m'.tasks = m.tasks) (hclip : m'.clipped = m.clipped)
    (happlied : m'.cursorClipApplied = m.cursorClipApplied) : Safe v m' where
  enabled := by
    rw [henabled, hwanted]
    exact hs.enabled
  native := by
    rw [hnative, hwanted, htasks]
    exact hs.native
  pending := by
    rw [htasks]
    exact hs.pending
  clip := by
    rw [hclip, happlied]
    exact hs.clip
  applied := by
    rw [happlied, henabled]
    exact hs.applied

/-- From `m` to `m'` no request is made, no task ends, the mode is left only by a failure, and it
stays safe. -/
structure Keeps (v : Env) (m m' : Model) : Prop where
  wanted : m'.wanted = m.wanted
  enableRequestId : m'.enableRequestId = m.enableRequestId
  tasks : ∀ t ∈ m.tasks, t ∈ m'.tasks
  enabled : m'.failed = false → m.failed = false ∧ (m.enabled = true → m'.enabled = true)
  safe : Safe v m → Safe v m'

namespace Keeps

variable {v : Env} {m m' m'' : Model}

theorem refl (m : Model) : Keeps v m m := ⟨rfl, rfl, fun _ ht => ht, fun hf => ⟨hf, id⟩, id⟩

theorem trans (h : Keeps v m m') (h' : Keeps v m' m'') : Keeps v m m'' := by
  refine ⟨h'.wanted.trans h.wanted, h'.enableRequestId.trans h.enableRequestId,
    fun t ht => h'.tasks t (h.tasks t ht), fun hf => ?_, fun hs => h'.safe (h.safe hs)⟩
  obtain ⟨hf', henabled'⟩ := h'.enabled hf
  obtain ⟨hf'', henabled⟩ := h.enabled hf'
  exact ⟨hf'', fun he => henabled' (henabled he)⟩

theorem of_eq (henabled : m'.enabled = m.enabled) (hwanted : m'.wanted = m.wanted)
    (hfailed : m'.failed = m.failed) (hid : m'.enableRequestId = m.enableRequestId)
    (hnative : m'.activeNativeModel = m.activeNativeModel) (htasks : m'.tasks = m.tasks)
    (hclip : m'.clipped = m.clipped) (happlied : m'.cursorClipApplied = m.cursorClipApplied) :
    Keeps v m m' where
  wanted := hwanted
  enableRequestId := hid
  tasks _ ht := htasks ▸ ht
  enabled hf := ⟨hfailed ▸ hf, fun he => henabled.trans he⟩
  safe hs := hs.of_eq henabled hwanted hnative htasks hclip happlied

theorem live (h : Keeps v m m') (hl : Live m) : Live m' := by
  intro hwanted hfailed
  obtain ⟨hf, henabled⟩ := h.enabled hfailed
  rw [h.wanted] at hwanted
  rw [h.enableRequestId]
  rcases hl hwanted hf with he | ⟨t, ht, hown⟩
  · exact .inl (henabled he)
  · exact .inr ⟨t, h.tasks t ht, hown⟩

theorem safe_live (h : Keeps v m m') (hs : Safe v m) (hl : Live m) : Safe v m' ∧ Live m' :=
  ⟨h.safe hs, h.live hl⟩

end Keeps

namespace Model

variable {v : Env} {os : Os} {m : Model} {next : Next} {t : Task}

theorem keeps_pointerInsideImage {inside : Bool} :
    Keeps v m { m with pointerInsideImage := inside } :=
  .of_eq rfl rfl rfl rfl rfl rfl rfl rfl

theorem keeps_recenterInProgress {busy : Bool} : Keeps v m { m with recenterInProgress := busy } :=
  .of_eq rfl rfl rfl rfl rfl rfl rfl rfl

theorem keeps_start (ht : ∀ r, t = .enableNative r → v.platform = .macOS) :
    Keeps v m (m.start t) := by
  refine ⟨rfl, rfl, fun _ hmem => mem_append_left _ hmem, fun hf => ⟨hf, id⟩, fun hs => ?_⟩
  refine ⟨hs.enabled, fun hthis => ?_, fun r hmem => ?_, hs.clip, hs.applied⟩
  · obtain ⟨hmac, hback⟩ := hs.native hthis
    exact ⟨hmac, hback.imp_right fun hmem => mem_append_left _ hmem⟩
  · rcases mem_append.mp hmem with hmem | hmem
    · exact hs.pending r hmem
    · exact ht r (mem_singleton.mp hmem).symm

theorem released (hrelease : os.release = true) (hs : Safe v m) :
    (m.releaseCursorClip v os).cursorClipApplied = false ∧
      (m.releaseCursorClip v os).clipped = false := by
  unfold releaseCursorClip
  split
  case isTrue happlied =>
    rw [if_pos (hs.applied happlied).2, hrelease, Bool.not_true, Bool.and_false]
    exact ⟨rfl, rfl⟩
  case isFalse hnone =>
    have happlied : m.cursorClipApplied = false := Bool.eq_false_iff.mpr hnone
    exact ⟨happlied, Bool.eq_false_iff.mpr fun hc => hnone (hs.clip hc)⟩

theorem keeps_releaseCursorClip (hrelease : os.release = true) :
    Keeps v m (m.releaseCursorClip v os) := by
  unfold releaseCursorClip
  split
  case isTrue happlied =>
    split
    case isTrue =>
      refine ⟨rfl, rfl, fun _ ht => ht, fun hf => ⟨hf, id⟩, fun hs => ?_⟩
      refine ⟨hs.enabled, hs.native, hs.pending, fun hc => ?_, fun ha => Bool.noConfusion ha⟩
      rw [hrelease, Bool.not_true, Bool.and_false] at hc
      cases hc
    case isFalse hother =>
      exact ⟨rfl, rfl, fun _ ht => ht, fun hf => ⟨hf, id⟩,
        fun hs => absurd (hs.applied happlied).2 hother⟩
  · exact .refl m

theorem freed_performCleanupCore (hrelease : os.release = true) (hs : Safe v m) :
    Freed v (m.performCleanupCore v os) := by
  unfold performCleanupCore
  by_cases hmac : v.platform = .macOS
  · have hclip : m.clipped = false := by
      refine Bool.eq_false_iff.mpr fun hc => ?_
      have hwindows := (hs.applied (hs.clip hc)).2
      rw [hmac] at hwindows
      cases hwindows
    rw [if_pos hmac]
    unfold disableNativeRelativeMouseMode isNativeRelativeMouseModeActive
    split
    · refine ⟨fun _ => ⟨hmac, mem_append_right _ (mem_singleton_self _)⟩,
        fun _ _ => hmac, hclip, rfl⟩
    case isFalse hnot =>
      have hother : m.activeNativeModel ≠ .this := by
        intro hthis
        exact hnot (by simp [hmac, hthis])
      exact ⟨fun hthis => absurd hthis hother, fun _ _ => hmac, hclip, rfl⟩
  · rw [if_neg hmac]
    have hsafe := (keeps_releaseCursorClip hrelease).safe hs
    exact ⟨fun hthis => absurd (hsafe.native hthis).1 hmac, hsafe.pending,
      (released hrelease hs).2, rfl⟩

theorem performCleanupCore_rest (hrelease : os.release = true) :
    (m.performCleanupCore v os).wanted = m.wanted ∧
      (m.performCleanupCore v os).enableRequestId = m.enableRequestId ∧
      ∀ t ∈ m.tasks, t ∈ (m.performCleanupCore v os).tasks := by
  unfold performCleanupCore
  split
  · unfold disableNativeRelativeMouseMode
    split
    · exact ⟨rfl, rfl, fun _ ht => mem_append_left _ ht⟩
    · exact ⟨rfl, rfl, fun _ ht => ht⟩
  · have hreleased : Keeps v m (m.releaseCursorClip v os) := keeps_releaseCursorClip hrelease
    exact ⟨hreleased.wanted, hreleased.enableRequestId, hreleased.tasks⟩

theorem keeps_disableWithCleanup (hrelease : os.release = true) :
    Keeps v m (m.disableWithCleanup v os) := by
  obtain ⟨hwanted, hid, htasks⟩ := performCleanupCore_rest (m := m) (v := v) hrelease
  exact ⟨hwanted, hid, htasks, fun hf => Bool.noConfusion hf,
    fun hs => (freed_performCleanupCore hrelease hs).safe rfl rfl rfl rfl rfl⟩

theorem keeps_disableIfEnabled (hrelease : os.release = true) :
    Keeps v m (m.disableIfEnabled v os) := by
  unfold disableIfEnabled
  split
  · exact keeps_disableWithCleanup hrelease
  · exact .refl m

theorem keeps_finish (hnext : next = .enable m.enableRequestId → m.wanted = true) :
    Keeps v m (m.finish next) := by
  unfold finish
  split
  · split
    case h_1.isTrue hid =>
      rw [hid] at hnext
      exact ⟨rfl, rfl, fun _ ht => ht, fun hf => ⟨hf, fun _ => rfl⟩,
        fun hs => ⟨fun _ => hnext rfl, hs.native, hs.pending, hs.clip,
          fun ha => ⟨rfl, (hs.applied ha).2⟩⟩⟩
    · exact .refl m
  · exact .refl m

theorem keeps_catchError (hrelease : os.release = true) (hclip : m.clipped = false) :
    Keeps v m (m.catchError v os next) := by
  unfold catchError
  split
  · split
    · exact ⟨rfl, rfl, fun _ ht => ht, fun hf => Bool.noConfusion hf,
        fun hs => ⟨hs.enabled, hs.native, hs.pending,
          fun hc => Bool.noConfusion (hclip.symm.trans hc), fun ha => Bool.noConfusion ha⟩⟩
    · exact .refl m
  · exact keeps_disableWithCleanup hrelease
  · exact .refl m

theorem keeps_recenterAttempt {attempt : Nat} (hrelease : os.release = true)
    (hnext : next = .enable m.enableRequestId → m.wanted = true) :
    Keeps v m (m.recenterAttempt v os attempt next) := by
  unfold recenterAttempt
  split
  · exact keeps_recenterInProgress.trans (keeps_finish hnext)
  split
  · exact keeps_recenterInProgress.trans (keeps_finish hnext)
  split
  · exact keeps_start fun r heq => Task.noConfusion heq
  · have hoff : Keeps v m (m.disableWithCleanup v os) := keeps_disableWithCleanup hrelease
    refine (hoff.trans keeps_recenterInProgress).trans (keeps_finish fun heq => ?_)
    exact hoff.wanted.trans (hnext (heq.trans (congrArg _ hoff.enableRequestId)))

theorem keeps_recenterMouse (hrelease : os.release = true)
    (hnext : next = .enable m.enableRequestId → m.wanted = true) :
    Keeps v m (m.recenterMouse v os next) := by
  unfold recenterMouse
  split
  · exact keeps_finish hnext
  split
  · exact keeps_finish hnext
  · exact keeps_recenterInProgress.trans (keeps_recenterAttempt hrelease hnext)

theorem keeps_updatePointerLockCenter (hrelease : os.release = true) :
    Keeps v m (m.updatePointerLockCenter v os next) := by
  have hstart : ∀ {m : Model} {t : Task}, (∀ r, t ≠ .enableNative r) → Keeps v m (m.start t) :=
    fun ht => keeps_start fun r heq => absurd heq (ht r)
  unfold updatePointerLockCenter
  split
  · exact hstart fun r heq => Task.noConfusion heq
  · exact (keeps_disableIfEnabled hrelease).trans (hstart fun r heq => Task.noConfusion heq)

theorem keeps_updateClip (hrelease : os.release = true)
    (hclip : m.clipped = true → os.clip = true) : Keeps v m (m.updateClip v os) := by
  unfold updateClip
  split
  case isTrue hin =>
    refine ⟨rfl, rfl, fun _ ht => ht, fun hf => ⟨hf, id⟩, fun hs => ?_⟩
    refine ⟨hs.enabled, hs.native, hs.pending, fun hc => ?_, fun _ => ⟨hin.1, hin.2.1⟩⟩
    rcases Bool.or_eq_true_iff.mp hc with hc | hc
    · exact hclip hc
    · exact hc
  split
  · exact keeps_releaseCursorClip hrelease
  · exact .refl m

variable {frame : Frame}

theorem keeps_gotFrame (hrelease : os.release = true)
    (hclip : m.clipped = true → os.clip = true) : Keeps v m (m.gotFrame v os frame) := by
  unfold gotFrame
  have hcentre : ∀ {a b : Bool}, Keeps v m
      { m with pointerLockCenterLocal := a, pointerLockCenterScreen := b } :=
    .of_eq rfl rfl rfl rfl rfl rfl rfl rfl
  split
  · split
    · exact keeps_disableWithCleanup hrelease
    · exact hcentre
  · split
    · exact keeps_disableWithCleanup hrelease
    · exact hcentre
  · exact keeps_disableIfEnabled hrelease
  · split
    · exact hcentre.trans (keeps_disableIfEnabled hrelease)
    · exact keeps_disableIfEnabled hrelease
  · split
    · exact hcentre.trans (keeps_updateClip hrelease hclip)
    · exact keeps_disableIfEnabled hrelease

theorem clipped_gotFrame_throws (hrelease : os.release = true) (hs : Safe v m) :
    (m.gotFrame v os .throws).clipped = false := by
  by_cases hon : m.enabled = true
  · rw [gotFrame, if_pos hon]
    exact (freed_performCleanupCore hrelease hs).clip
  · rw [gotFrame, if_neg hon]
    exact Bool.eq_false_iff.mpr fun hc => hon (hs.applied (hs.clip hc)).1

theorem keeps_followUp (hrelease : os.release = true) (hclip : frame = .throws → m.clipped = false)
    (hnext : next = .enable m.enableRequestId → frame ≠ .throws → m.wanted = true) :
    Keeps v m (m.followUp v os next frame) := by
  unfold followUp
  split
  case isTrue hthrows => exact keeps_catchError hrelease (hclip hthrows)
  case isFalse hnone =>
    split
    · exact .refl m
    · exact keeps_recenterMouse hrelease fun heq => hnext heq hnone

theorem live_finish (hnext : next = .enable m.enableRequestId) : Live (m.finish next) := by
  intro _ _
  rw [hnext, finish, if_pos rfl]
  exact .inl rfl

theorem live_recenterAttempt {attempt : Nat} (hrelease : os.release = true)
    (hnext : next = .enable m.enableRequestId) : Live (m.recenterAttempt v os attempt next) := by
  unfold recenterAttempt
  split
  · exact live_finish hnext
  split
  · exact live_finish hnext
  split
  · intro _ _
    exact .inr ⟨_, mem_append_right _ (mem_singleton_self _), hnext⟩
  · have hoff : Keeps v m (m.disableWithCleanup v os) := keeps_disableWithCleanup hrelease
    exact live_finish (hnext.trans (congrArg _ hoff.enableRequestId.symm))

theorem live_recenterMouse (hrelease : os.release = true)
    (hnext : next = .enable m.enableRequestId) : Live (m.recenterMouse v os next) := by
  unfold recenterMouse
  split
  · exact live_finish hnext
  split
  · exact live_finish hnext
  · exact live_recenterAttempt hrelease hnext

theorem live_followUp (hrelease : os.release = true) (hnext : next = .enable m.enableRequestId) :
    Live (m.followUp v os next frame) := by
  unfold followUp
  split
  · intro _ hfailed
    rw [hnext, catchError, if_pos rfl] at hfailed
    cases hfailed
  · rw [if_neg (by rw [hnext]; exact Next.noConfusion)]
    exact live_recenterMouse hrelease hnext

variable {n : Nat}

theorem mem_eraseIdx_of_ne {x : Task} (hn : m.tasks[n]? = some t) (hmem : x ∈ m.tasks)
    (hne : x ≠ t) : x ∈ m.tasks.eraseIdx n := by
  obtain ⟨k, hk⟩ := mem_iff_getElem?.mp hmem
  refine mem_eraseIdx_iff_getElem?.mpr ⟨k, ?_, hk⟩
  rintro rfl
  exact hne (Option.some.inj (hk.symm.trans hn))

theorem safe_eraseIdx (hs : Safe v m) (hn : m.tasks[n]? = some t)
    (ht : t ≠ .disableNative) : Safe v { m with tasks := m.tasks.eraseIdx n } where
  enabled := hs.enabled
  native hthis := by
    obtain ⟨hmac, hback⟩ := hs.native hthis
    exact ⟨hmac, hback.imp_right fun hmem => mem_eraseIdx_of_ne hn hmem ht.symm⟩
  pending r hmem := hs.pending r (mem_of_mem_eraseIdx hmem)
  clip := hs.clip
  applied := hs.applied

theorem live_eraseIdx (hl : Live m) (hn : m.tasks[n]? = some t)
    (ht : ¬t.Own m.enableRequestId) : Live { m with tasks := m.tasks.eraseIdx n } := by
  intro hwanted hfailed
  rcases hl hwanted hfailed with henabled | ⟨x, hx, hown⟩
  · exact .inl henabled
  · refine .inr ⟨x, mem_eraseIdx_of_ne hn hx ?_, hown⟩
    rintro rfl
    exact ht hown

theorem safe_live_taskEnds {ok : Bool} (hrelease : os.release = true)
    (hclip : m.clipped = true → os.clip = true) (hs : Safe v m) (hl : Live m)
    (hn : m.tasks[n]? = some t) (hwanted : t.Enables m.enableRequestId ok frame → m.wanted = true) :
    Safe v (taskEnds v os ok frame t { m with tasks := m.tasks.eraseIdx n }) ∧
      Live (taskEnds v os ok frame t { m with tasks := m.tasks.eraseIdx n }) := by
  cases t with
  | enableNative r =>
    have hs' := safe_eraseIdx hs hn Task.noConfusion
    have hmac := hs.pending r (mem_of_getElem? hn)
    have hlive : r ≠ m.enableRequestId → Live { m with tasks := m.tasks.eraseIdx n } :=
      live_eraseIdx hl hn
    by_cases hok : ok = true
    · have hw : m.wanted = true := hwanted hok
      rw [taskEnds, if_pos hok]
      by_cases hid : m.enableRequestId = r
      · rw [if_pos hid]
        exact ⟨⟨fun _ => hw, fun _ => ⟨hmac, .inl hw⟩, hs'.pending, hs'.clip,
          fun ha => ⟨rfl, (hs'.applied ha).2⟩⟩, fun _ _ => .inl rfl⟩
      · rw [if_neg hid]
        exact ⟨⟨hs'.enabled, fun _ => ⟨hmac, .inl hw⟩, hs'.pending, hs'.clip, hs'.applied⟩,
          hlive (Ne.symm hid)⟩
    · rw [taskEnds, if_neg hok]
      by_cases hid : m.enableRequestId = r
      · rw [if_pos hid]
        exact ⟨hs'.of_eq rfl rfl rfl rfl rfl rfl, fun _ hf => Bool.noConfusion hf⟩
      · rw [if_neg hid]
        exact ⟨hs', hlive (Ne.symm hid)⟩
  | disableNative =>
    have hlive : Live { m with tasks := m.tasks.eraseIdx n } := live_eraseIdx hl hn id
    have hpending : ∀ r, .enableNative r ∈ m.tasks.eraseIdx n → v.platform = .macOS :=
      fun r hmem => hs.pending r (mem_of_mem_eraseIdx hmem)
    by_cases hthis : m.activeNativeModel = .this
    · rw [taskEnds, if_pos hthis]
      exact ⟨⟨hs.enabled, fun hthis => Owner.noConfusion hthis, hpending, hs.clip, hs.applied⟩,
        hlive⟩
    · rw [taskEnds, if_neg hthis]
      exact ⟨⟨hs.enabled, fun h => absurd h hthis, hpending, hs.clip, hs.applied⟩, hlive⟩
  | returned next =>
    have hs' := safe_eraseIdx hs hn Task.noConfusion
    have hkept : Keeps v _ (followUp v os next .found { m with tasks := m.tasks.eraseIdx n }) :=
      keeps_followUp hrelease (fun h => Frame.noConfusion h) fun heq _ => hwanted heq
    refine ⟨hkept.safe hs', ?_⟩
    by_cases hown : next = .enable m.enableRequestId
    · exact live_followUp hrelease hown
    · exact hkept.live (live_eraseIdx hl hn hown)
  | getFrame next =>
    have hs' := safe_eraseIdx hs hn Task.noConfusion
    have hgot : Keeps v _ (gotFrame v os frame { m with tasks := m.tasks.eraseIdx n }) :=
      keeps_gotFrame hrelease hclip
    have hkept : Keeps v { m with tasks := m.tasks.eraseIdx n }
        (taskEnds v os ok frame (.getFrame next) { m with tasks := m.tasks.eraseIdx n }) := by
      refine hgot.trans (keeps_followUp hrelease ?_ fun heq hframe => ?_)
      · rintro rfl
        exact clipped_gotFrame_throws hrelease hs'
      · exact hgot.wanted.trans
          (hwanted ⟨heq.trans (congrArg _ hgot.enableRequestId), hframe⟩)
    refine ⟨hkept.safe hs', ?_⟩
    by_cases hown : next = .enable m.enableRequestId
    · exact live_followUp hrelease (hown.trans (congrArg Next.enable hgot.enableRequestId.symm))
    · exact hkept.live (live_eraseIdx hl hn hown)
  | retry attempt next =>
    have hs' := safe_eraseIdx hs hn Task.noConfusion
    have hkept : Keeps v _ (recenterAttempt v os attempt next
        { m with tasks := m.tasks.eraseIdx n }) := keeps_recenterAttempt hrelease hwanted
    refine ⟨hkept.safe hs', ?_⟩
    by_cases hown : next = .enable m.enableRequestId
    · exact live_recenterAttempt hrelease hown
    · exact hkept.live (live_eraseIdx hl hn hown)

theorem live_updatePointerLockCenter (hrelease : os.release = true)
    (hnext : next = .enable m.enableRequestId) : Live (m.updatePointerLockCenter v os next) := by
  intro _ _
  unfold updatePointerLockCenter
  split
  · exact .inr ⟨_, mem_append_right _ (mem_singleton_self _), hnext⟩
  · have hoff : Keeps v m (m.disableIfEnabled v os) := keeps_disableIfEnabled hrelease
    exact .inr ⟨_, mem_append_right _ (mem_singleton_self _),
      hnext.trans (congrArg _ hoff.enableRequestId.symm)⟩

theorem safe_live_turnOn (hrelease : os.release = true) (hs : Safe v m) :
    Safe v (m.turnOn v os) ∧ Live (m.turnOn v os) := by
  have hasked : Safe v
      { m with enableRequestId := m.enableRequestId + 1, wanted := true, failed := false } :=
    ⟨fun _ => rfl, fun hthis => ⟨(hs.native hthis).1, .inl rfl⟩, hs.pending, hs.clip, hs.applied⟩
  unfold turnOn
  by_cases hmac : v.platform = .macOS
  · simp only [if_pos hmac]
    split
    · exact ⟨hasked.of_eq rfl rfl rfl rfl rfl rfl, fun _ hf => Bool.noConfusion hf⟩
    · exact ⟨(keeps_start fun _ _ => hmac).safe hasked,
        fun _ _ => .inr ⟨_, mem_append_right _ (mem_singleton_self _), rfl⟩⟩
  · simp only [if_neg hmac]
    refine ⟨(keeps_updatePointerLockCenter hrelease).safe ?_,
      live_updatePointerLockCenter hrelease rfl⟩
    split
    · exact hasked
    · exact (keeps_releaseCursorClip hrelease).safe hasked

theorem safe_live_turnOff (hrelease : os.release = true) (hs : Safe v m) :
    Safe v (m.turnOff v os) ∧ Live (m.turnOff v os) :=
  ⟨(freed_performCleanupCore hrelease hs).safe rfl rfl rfl rfl rfl,
    fun hwanted => Bool.noConfusion hwanted⟩

theorem safe_live_setRelativeMouseMode {value : Bool} {checks : Checks}
    (hrelease : os.release = true) (hs : Safe v m) (hl : Live m) :
    Safe v (m.setRelativeMouseMode v os value checks).1 ∧
      Live (m.setRelativeMouseMode v os value checks).1 := by
  unfold setRelativeMouseMode
  split
  · split
    · exact ⟨hs, hl⟩
    split
    · exact ⟨hs, hl⟩
    split
    · exact ⟨hs, hl⟩
    · exact safe_live_turnOn hrelease hs
  · exact safe_live_turnOff hrelease hs

theorem safe_live_toggleRelativeMouseMode {now : Int} {checks : Checks}
    (hrelease : os.release = true) (hs : Safe v m) (hl : Live m) :
    Safe v (m.toggleRelativeMouseMode v os now checks) ∧
      Live (m.toggleRelativeMouseMode v os now checks) := by
  unfold toggleRelativeMouseMode
  split
  · exact ⟨hs, hl⟩
  · exact safe_live_setRelativeMouseMode hrelease (hs.of_eq rfl rfl rfl rfl rfl rfl) hl

theorem safe_live_dispose (hrelease : os.release = true) (hs : Safe v m)
    (hagain : m.disposed = true → m.wanted = false) :
    Safe v (m.dispose v os) ∧ Live (m.dispose v os) := by
  unfold dispose
  split
  case isTrue hdisposed =>
    exact ⟨hs.of_eq rfl (hagain hdisposed).symm rfl rfl rfl rfl,
      fun hwanted => Bool.noConfusion hwanted⟩
  case isFalse =>
    exact ⟨(freed_performCleanupCore hrelease hs).safe rfl rfl rfl rfl rfl,
      fun hwanted => Bool.noConfusion hwanted⟩

theorem keeps_onEnterOrLeaveImage {enter : Bool} (hrelease : os.release = true) :
    Keeps v m (m.onEnterOrLeaveImage v os enter) := by
  unfold onEnterOrLeaveImage
  split
  · exact .refl m
  simp only
  split
  · exact keeps_pointerInsideImage
  split
  · exact keeps_pointerInsideImage.trans (keeps_releaseCursorClip hrelease)
  · exact keeps_pointerInsideImage.trans (keeps_updatePointerLockCenter hrelease)

theorem keeps_onWindowBlur (hrelease : os.release = true) : Keeps v m (m.onWindowBlur v os) := by
  unfold onWindowBlur
  split
  · exact .refl m
  simp only
  split
  · exact keeps_pointerInsideImage
  · exact keeps_pointerInsideImage.trans (keeps_releaseCursorClip hrelease)

theorem keeps_onWindowFocus (hrelease : os.release = true) : Keeps v m (m.onWindowFocus v os) := by
  unfold onWindowFocus
  split
  · exact .refl m
  split
  · exact keeps_pointerInsideImage
  split
  · exact keeps_disableWithCleanup hrelease
  · exact (keeps_pointerInsideImage.trans (keeps_releaseCursorClip hrelease)).trans
      (keeps_updatePointerLockCenter hrelease)

theorem keeps_ensurePointerLockEngaged (hrelease : os.release = true) :
    Keeps v m (m.ensurePointerLockEngaged v os) := by
  unfold ensurePointerLockEngaged
  split
  · exact .refl m
  simp only
  split
  · exact keeps_pointerInsideImage.trans (keeps_updatePointerLockCenter hrelease)
  · exact keeps_pointerInsideImage

theorem keeps_handleRelativeMouseMove {nearEdge : Bool} (hrelease : os.release = true) :
    Keeps v m (m.handleRelativeMouseMove v os nearEdge) := by
  unfold handleRelativeMouseMove
  split
  · exact .refl m
  split
  · exact .refl m
  simp only
  split
  · exact (keeps_ensurePointerLockEngaged hrelease).trans
      (keeps_recenterMouse hrelease Next.noConfusion)
  · exact keeps_ensurePointerLockEngaged hrelease

end Model

theorem safe_live_step {v : Env} {m : Model} {i : Input} (h : Meets m i) (hs : Safe v m)
    (hl : Live m) : Safe v (step v m i) ∧ Live (step v m i) := by
  have hrelease := h.release
  obtain ⟨event, os⟩ := i
  cases event with
  | setRelativeMouseMode value checks =>
    exact Model.safe_live_setRelativeMouseMode hrelease hs hl
  | toggleRelativeMouseMode now checks =>
    exact Model.safe_live_toggleRelativeMouseMode hrelease hs hl
  | dispose => exact Model.safe_live_dispose hrelease hs (h.dispose rfl)
  | onEnterOrLeaveImage enter => exact (Model.keeps_onEnterOrLeaveImage hrelease).safe_live hs hl
  | onWindowBlur => exact (Model.keeps_onWindowBlur hrelease).safe_live hs hl
  | onWindowFocus => exact (Model.keeps_onWindowFocus hrelease).safe_live hs hl
  | handleRelativeMouseMove nearEdge =>
    exact (Model.keeps_handleRelativeMouseMove hrelease).safe_live hs hl
  | sendRelativeMouseButton =>
    exact (Model.keeps_ensurePointerLockEngaged hrelease).safe_live hs hl
  | updateImageWidgetSize => exact ⟨hs.of_eq rfl rfl rfl rfl rfl rfl, hl⟩
  | updatePointerLockCenter =>
    exact (Model.keeps_updatePointerLockCenter hrelease).safe_live hs hl
  | sent nearEdge =>
    simp only [step]
    split
    · exact (Model.keeps_recenterMouse hrelease Next.noConfusion).safe_live hs hl
    · exact ⟨hs, hl⟩
  | sendFails => exact (Model.keeps_disableIfEnabled hrelease).safe_live hs hl
  | setPointerInsideImage inside => exact Model.keeps_pointerInsideImage.safe_live hs hl
  | anotherModel active =>
    refine ⟨⟨hs.enabled, fun hthis => ?_, hs.pending, hs.clip, hs.applied⟩, hl⟩
    cases active with
    | true => exact Owner.noConfusion hthis
    | false => exact Owner.noConfusion hthis
  | taskEnds n ok frame =>
    simp only [step]
    split
    case h_1 t hn =>
      exact Model.safe_live_taskEnds hrelease h.clip hs hl hn (h.enables n ok frame t rfl hn)
    case h_2 => exact ⟨hs, hl⟩

theorem safe_live_new (v : Env) : Safe v .new ∧ Live .new :=
  ⟨⟨fun he => Bool.noConfusion he, fun hthis => Owner.noConfusion hthis,
    fun _ hmem => absurd hmem not_mem_nil, fun hc => Bool.noConfusion hc,
    fun ha => Bool.noConfusion ha⟩, fun hwanted => Bool.noConfusion hwanted⟩

/-- **The mode follows the last request**, in a run that meets the conditions: once nothing is
under way, it is as last asked for. -/
theorem follows_last_request (v : Env) (inputs : List Input)
    (h : Along (step v) Meets .new inputs) : Always (step v) FollowsLast .new inputs := by
  have hrun : Always (step v) (fun m => Safe v m ∧ Live m) .new inputs := by
    refine always_of_along ?_ (safe_live_new v) h
    intro m i hm hmeets
    exact safe_live_step hmeets hm.1 hm.2
  intro pre hpre
  obtain ⟨hs, hl⟩ := hrun pre hpre
  exact followsLast_of_safe hs hl

def Event.obeyed (event : Event) : Input := ⟨event, ⟨true, true, true⟩⟩

def request (value : Bool) : Event := .setRelativeMouseMode value ⟨true, false, true⟩

/-- On macOS: on, and off once the native mode has been turned on. -/
theorem on_and_off_follows : Always (step ⟨.macOS, true⟩) FollowsLast .new
    [Event.updateImageWidgetSize.obeyed, (request true).obeyed,
      (Event.taskEnds 0 true .found).obeyed, (request false).obeyed,
      (Event.taskEnds 0 true .found).obeyed] := by
  refine follows_last_request ⟨.macOS, true⟩ _ ⟨?_, ?_, ?_, ?_, ?_, trivial⟩
  · exact ⟨rfl, fun _ => rfl, fun _ _ _ _ heq => Event.noConfusion heq,
      fun heq => Event.noConfusion heq⟩
  · exact ⟨rfl, fun _ => rfl, fun _ _ _ _ heq => Event.noConfusion heq,
      fun heq => Event.noConfusion heq⟩
  · exact ⟨rfl, fun _ => rfl, fun _ _ _ _ _ _ _ => rfl, fun heq => Event.noConfusion heq⟩
  · exact ⟨rfl, fun _ => rfl, fun _ _ _ _ heq => Event.noConfusion heq,
      fun heq => Event.noConfusion heq⟩
  · refine ⟨rfl, fun _ => rfl, fun n ok frame t heq hn henables => ?_,
      fun heq => Event.noConfusion heq⟩
    cases heq
    obtain rfl : Task.disableNative = t := Option.some.inj hn
    exact henables.elim

/-- On macOS: on, and off before the native mode has been turned on.  The native call then turns
the mode on, with nothing under way that would turn it off. -/
theorem off_before_on_ends :
    let m := exec (step ⟨.macOS, true⟩) .new
      [Event.updateImageWidgetSize.obeyed, (request true).obeyed, (request false).obeyed,
        (Event.taskEnds 0 true .found).obeyed]
    (m.tasks = [] ∧ m.wanted = false ∧ m.enabled = true ∧ m.activeNativeModel = .this) ∧
      ¬FollowsLast m := by
  have hends : ∀ m : Model, m.tasks = [] → m.wanted = false → m.enabled = true →
      ¬FollowsLast m := by
    intro m hnone hoff hon hfollows
    exact Bool.noConfusion (((hfollows hnone).1 hoff).1.symm.trans hon)
  exact ⟨by decide, hends _ (by decide) (by decide) (by decide)⟩

end RustDesk.RelativeMouseModel
