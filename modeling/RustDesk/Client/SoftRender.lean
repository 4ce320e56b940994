import RustDesk.Lib.Run

/-!
# The frames that the windows of a session read

Without textures a decoded frame is swapped into the buffer of its display, whose flag is set, and
the windows that show the display get an event.  A window asks for the size of the buffer and then
for the buffer, decodes it, and clears the flag.  A frame that comes while the flag is set is
dropped.

`SoftRender` has the windows of one session, the buffers, the calls of `on_rgba_soft_render` that
are under way and the events that the windows have not finished.

* `put_fed_iff_along`: **a buffer stays put while a window reads it, and a set flag has a reader**,
  exactly in the runs where a flag is cleared only when no window reads the buffer, and a window is
  closed only when each set flag has another reader.
-/

open Run

namespace RustDesk

open List Function

structure RgbaBuffer where
  frame : Nat
  len : Nat
  deriving DecidableEq

structure RgbaData where
  data : RgbaBuffer
  valid : Bool

/-- How far a window is with an event: what it calls next is `session_get_rgba_size`,
`session_get_rgba`, or `session_next_rgba`, with a buffer that it has decoded or without one. -/
inductive Handling where
  | unhandled
  | sized
  | decoding (buffer : RgbaBuffer)
  | releasing
  deriving DecidableEq

/-- `EventToUI::Rgba` at a window. -/
structure RgbaEvent where
  window : Nat
  display : Nat
  handling : Handling
  deriving DecidableEq

/-- How far a call of `on_rgba_soft_render` is: it has swapped the buffers, it has counted the
windows, or it has sent nothing and is about to clear the flag. -/
inductive Rendering where
  | swapped
  | counted (isMultiSessions : Bool)
  | unsent

/-- `SessionHandler`. -/
structure SoftWindow where
  displays : List Nat
  eventStream : Bool

/-- The windows by their session ids, `display_rgbas`, the calls for each display, the events, the
displays of new windows whose flags are still to be cleared, and the number of frames so far. -/
structure SoftRender where
  windows : List (Nat × SoftWindow)
  rgbas : Nat → Option RgbaData
  rendering : Nat → Option Rendering
  events : List RgbaEvent
  opened : List Nat
  frames : Nat

namespace SoftRender

def start (first : Nat) : SoftRender where
  windows := [(first, ⟨[], false⟩)]
  rgbas := fun _ => none
  rendering := fun _ => none
  events := []
  opened := []
  frames := 0

def has (s : SoftRender) (id : Nat) : Bool := s.windows.any (·.1 = id)

def valid (s : SoftRender) (display : Nat) : Bool := (s.rgbas display).any (·.valid)

def data (s : SoftRender) (display : Nat) : Option RgbaBuffer := (s.rgbas display).map (·.data)

/-- `get_mut` of a window. -/
def modify (s : SoftRender) (id : Nat) (f : SoftWindow → SoftWindow) : SoftRender :=
  { s with windows := s.windows.map fun x => if x.1 = id then (x.1, f x.2) else x }

def nextRgba (s : SoftRender) (display : Nat) : SoftRender :=
  { s with
    rgbas := update s.rgbas display ((s.rgbas display).map fun r => { r with valid := false }) }

def swap (s : SoftRender) (display len : Nat) : SoftRender :=
  if s.valid display then s
  else { s with
    rgbas := update s.rgbas display (some ⟨⟨s.frames, len⟩, true⟩)
    frames := s.frames + 1 }

def setRendering (s : SoftRender) (display : Nat) (r : Option Rendering) : SoftRender :=
  { s with rendering := update s.rendering display r }

/-- `on_rgba_soft_render` up to the end of the lock; the frames of a display come one by one. -/
def onRgba (s : SoftRender) (display len : Nat) : SoftRender :=
  if s.rendering display ≠ none ∨ s.valid display = true then s
  else (s.swap display len).setRendering display (some .swapped)

def notified (s : SoftRender) (isMultiSessions : Bool) (display : Nat) : List Nat :=
  (s.windows.filter fun x => x.2.displays.length ≤ 1 ∧
    (isMultiSessions = true → display ∈ x.2.displays) ∧ x.2.eventStream = true).map (·.1)

def render (s : SoftRender) (display : Nat) : SoftRender :=
  match s.rendering display with
  | none => s
  | some .swapped => s.setRendering display (some (.counted (1 < s.windows.length)))
  | some (.counted isMultiSessions) =>
    { s.setRendering display
        (if s.notified isMultiSessions display = [] then some .unsent else none) with
      events := s.events ++
        (s.notified isMultiSessions display).map fun id => ⟨id, display, .unhandled⟩ }
  | some .unsent => (s.setRendering display none).nextRgba display

def sessionGetRgbaSize (s : SoftRender) (id display : Nat) : Nat :=
  if s.has id then (s.data display).elim 0 (·.len) else 0

def sessionGetRgba (s : SoftRender) (id display : Nat) : Option RgbaBuffer :=
  if s.has id ∧ s.valid display then s.data display else none

def sessionNextRgba (s : SoftRender) (id display : Nat) : SoftRender :=
  if s.has id then s.nextRgba display else s

def replace (s : SoftRender) (e : RgbaEvent) (handling : Handling) : SoftRender :=
  { s with events := { e with handling := handling } :: s.events.erase e }

def finish (s : SoftRender) (e : RgbaEvent) : SoftRender :=
  { s with events := s.events.erase e }

def handle (s : SoftRender) (e : RgbaEvent) : SoftRender :=
  if e ∈ s.events then
    match e.handling with
    | .unhandled =>
      s.replace e (if s.sessionGetRgbaSize e.window e.display = 0 then .releasing else .sized)
    | .sized =>
      s.replace e ((s.sessionGetRgba e.window e.display).elim .releasing .decoding)
    | .decoding _ => (s.finish e).sessionNextRgba e.window e.display
    | .releasing => (s.finish e).sessionNextRgba e.window e.display
  else s

def sessionSwitchDisplay (s : SoftRender) (id : Nat) (value : List Nat) : SoftRender :=
  if s.has id then
    match value with
    | [display] => (s.modify id fun w => { w with displays := value }).nextRgba display
    | _ => s.modify id fun w => { w with displays := value }
  else s

/-- `insert_peer_session_id`, which clears the flag after it has released the lock. -/
def insertPeerSessionId (s : SoftRender) (id : Nat) (displays : List Nat) : SoftRender :=
  if s.windows = [] then s
  else { s with
    windows := s.windows.filter (·.1 ≠ id) ++ [(id, ⟨displays, false⟩)]
    opened := if displays.length = 1 then displays ++ s.opened else s.opened }

def insertNext (s : SoftRender) (display : Nat) : SoftRender :=
  if display ∈ s.opened then
    ({ s with opened := s.opened.erase display } : SoftRender).nextRgba display
  else s

/-- `session_start_`, as far as the window gets its event stream. -/
def sessionStart (s : SoftRender) (id : Nat) : SoftRender :=
  s.modify id fun w => { w with eventStream := true }

/-- `remove_session_by_session_id`. -/
def sessionClose (s : SoftRender) (id : Nat) : SoftRender :=
  { s with windows := s.windows.filter (·.1 ≠ id) }

inductive Input where
  | onRgba (display len : Nat)
  | render (display : Nat)
  | handle (e : RgbaEvent)
  | sessionSwitchDisplay (id : Nat) (value : List Nat)
  | insertPeerSessionId (id : Nat) (displays : List Nat)
  | insertNext (display : Nat)
  | sessionStart (id : Nat)
  | sessionClose (id : Nat)

def step (s : SoftRender) : Input → SoftRender
  | .onRgba display len => s.onRgba display len
  | .render display => s.render display
  | .handle e => s.handle e
  | .sessionSwitchDisplay id value => s.sessionSwitchDisplay id value
  | .insertPeerSessionId id displays => s.insertPeerSessionId id displays
  | .insertNext display => s.insertNext display
  | .sessionStart id => s.sessionStart id
  | .sessionClose id => s.sessionClose id

/-- **A buffer that a window reads stays put**: it is the one of its display, and a frame that
comes leaves it there. -/
def Put (s : SoftRender) : Prop :=
  ∀ e ∈ s.events, ∀ b, e.handling = .decoding b →
    s.data e.display = some b ∧ ∀ len, (s.swap e.display len).data e.display = some b

/-- An open window has not finished an event for the display, or the call that has set the flag is
under way. -/
def ToBeRead (s : SoftRender) (display : Nat) : Prop :=
  (∃ e ∈ s.events, e.display = display ∧ s.has e.window = true) ∨ s.rendering display ≠ none

/-- **A set flag has a reader**, as long as the session has a window. -/
def Fed (s : SoftRender) : Prop :=
  s.windows ≠ [] → ∀ display, s.valid display = true → s.ToBeRead display

def InUse (s : SoftRender) (display : Nat) : Prop :=
  ∃ e ∈ s.events, e.display = display ∧ ∃ b, e.handling = .decoding b

/-- The condition.  The flag of a display is cleared only when no other window reads its buffer, and
a window is closed only when the others read the displays with a set flag. -/
def Meets (s : SoftRender) : Input → Prop
  | .render display => s.rendering display = some .unsent → ¬s.InUse display
  | .handle e => e ∈ s.events → e.handling ≠ .unhandled → e.handling ≠ .sized →
      s.has e.window = true → ¬(s.finish e).InUse e.display
  | .sessionSwitchDisplay id value => s.has id = true →
      ∀ display, value = [display] → ¬s.InUse display
  | .insertNext display => display ∈ s.opened → ¬s.InUse display
  | .sessionClose id => (∃ x ∈ s.windows, x.1 ≠ id) → ∀ display, s.valid display = true →
      (∃ e ∈ s.events, e.display = display ∧ s.has e.window = true ∧ e.window ≠ id) ∨
        s.rendering display ≠ none
  | _ => True

variable {s : SoftRender} {display d : Nat} {e : RgbaEvent}

/-- A buffer that is being decoded into is the one of its display, and marked valid. -/
def Guarded (s : SoftRender) : Prop :=
  ∀ e ∈ s.events, ∀ b, e.handling = .decoding b → s.rgbas e.display = some ⟨b, true⟩

def Numbered (s : SoftRender) : Prop :=
  ∀ display r, s.rgbas display = some r → r.data.frame < s.frames

theorem valid_iff : s.valid display = true ↔ ∃ b, s.rgbas display = some ⟨b, true⟩ := by
  unfold valid
  cases s.rgbas display with
  | none => simp
  | some r =>
    obtain ⟨b, v⟩ := r
    simp

theorem put_iff (hnumbered : s.Numbered) : s.Put ↔ s.Guarded := by
  refine forall₂_congr fun e _ => forall₂_congr fun b _ => ?_
  constructor
  · rintro ⟨hdata, hkept⟩
    obtain ⟨r, hr, hb⟩ := Option.map_eq_some_iff.mp hdata
    by_cases hvalid : s.valid e.display = true
    · obtain ⟨b', hb'⟩ := valid_iff.mp hvalid
      rw [hb'] at hr ⊢
      rw [← hb, ← Option.some_inj.mp hr]
    · have hswapped := hkept 0
      simp only [swap, if_neg hvalid, data, update_self] at hswapped
      have hfresh := hnumbered e.display r hr
      rw [hb, ← Option.some_inj.mp hswapped] at hfresh
      exact absurd hfresh (Nat.lt_irrefl _)
  · intro hr
    have hdata : s.data e.display = some b := by
      rw [data, hr]
      rfl
    refine ⟨hdata, fun len => ?_⟩
    rwa [swap, if_pos (valid_iff.mpr ⟨b, hr⟩)]

theorem rgbas_nextRgba_self (s : SoftRender) (display : Nat) : (s.nextRgba display).rgbas display =
    (s.rgbas display).map fun r => { r with valid := false } :=
  update_self ..

theorem rgbas_nextRgba_of_ne (s : SoftRender) {d : Nat} (h : d ≠ display) :
    (s.nextRgba display).rgbas d = s.rgbas d :=
  update_of_ne h ..

theorem valid_nextRgba (s : SoftRender) (display d : Nat) :
    (s.nextRgba display).valid d = true ↔ d ≠ display ∧ s.valid d = true := by
  unfold valid
  by_cases h : d = display
  · subst h
    rw [rgbas_nextRgba_self]
    cases s.rgbas d <;> simp
  · rw [rgbas_nextRgba_of_ne s h]
    simp [h]

theorem guarded_nextRgba_iff (h : s.Guarded) : (s.nextRgba display).Guarded ↔ ¬s.InUse display := by
  constructor
  · rintro hg ⟨e, he, hd, b, hb⟩
    have hset := valid_iff.mpr ⟨b, hg e he b hb⟩
    exact ((valid_nextRgba s display e.display).mp hset).1 hd
  · intro hnot e he b hb
    have hne : e.display ≠ display := fun hd => hnot ⟨e, he, hd, b, hb⟩
    rw [rgbas_nextRgba_of_ne s hne]
    exact h e he b hb

theorem fed_nextRgba (h : s.windows ≠ [] → ∀ d, d ≠ display → s.valid d = true → s.ToBeRead d) :
    (s.nextRgba display).Fed := by
  intro hwindows d hvalid
  obtain ⟨hne, hset⟩ := (valid_nextRgba s display d).mp hvalid
  exact h hwindows d hne hset

theorem numbered_nextRgba (h : s.Numbered) : (s.nextRgba display).Numbered := by
  intro d r hr
  by_cases hd : d = display
  · subst hd
    rw [rgbas_nextRgba_self] at hr
    obtain ⟨r', hr', rfl⟩ := Option.map_eq_some_iff.mp hr
    exact h d r' hr'
  · rw [rgbas_nextRgba_of_ne s hd] at hr
    exact h d r hr

theorem guarded_onRgba (h : s.Guarded) (len : Nat) : (s.onRgba display len).Guarded := by
  unfold onRgba
  split
  · exact h
  next hfree =>
    intro e he b hb
    rw [swap, if_neg fun hvalid => hfree (.inr hvalid)] at he ⊢
    have hset := h e he b hb
    have hne : e.display ≠ display := by
      rintro rfl
      exact hfree (.inr (valid_iff.mpr ⟨b, hset⟩))
    exact (update_of_ne hne ..).trans hset

theorem fed_onRgba (h : s.Fed) (len : Nat) : (s.onRgba display len).Fed := by
  unfold onRgba
  split
  · exact h
  next hfree =>
    rw [swap, if_neg fun hvalid => hfree (.inr hvalid)]
    intro hwindows d hvalid
    by_cases hd : d = display
    · subst hd
      refine .inr ?_
      simp [setRendering]
    · have hbefore : s.valid d = true := by
        simpa [valid, setRendering, update_of_ne hd] using hvalid
      rcases h hwindows d hbefore with hread | hrendering
      · exact .inl hread
      · refine .inr ?_
        simpa [setRendering, update_of_ne hd] using hrendering

theorem numbered_onRgba (h : s.Numbered) (len : Nat) : (s.onRgba display len).Numbered := by
  unfold onRgba
  split
  · exact h
  next hfree =>
    rw [swap, if_neg fun hvalid => hfree (.inr hvalid)]
    intro d r hr
    by_cases hd : d = display
    · subst hd
      simp only [setRendering, update_self, Option.some_inj] at hr
      rw [← hr]
      exact Nat.lt_succ_self _
    · simp only [setRendering, update_of_ne hd] at hr
      exact Nat.lt_succ_of_lt (h d r hr)

theorem ToBeRead.setRendering (h : s.ToBeRead d) {r : Option Rendering}
    (hr : d = display → r ≠ none) : (s.setRendering display r).ToBeRead d := by
  rcases h with hread | hrendering
  · exact .inl hread
  · refine .inr ?_
    by_cases hd : d = display
    · subst hd
      simpa [SoftRender.setRendering] using hr rfl
    · simpa [SoftRender.setRendering, update_of_ne hd] using hrendering

variable {id : Nat}

theorem has_of_notified {isMultiSessions : Bool}
    (h : id ∈ s.notified isMultiSessions display) : s.has id = true := by
  obtain ⟨x, hx, rfl⟩ := mem_map.mp h
  exact any_eq_true.mpr ⟨x, (mem_filter.mp hx).1, decide_eq_true rfl⟩

/-- **A call that is under way** keeps what is promised, if it clears no flag of a buffer in use. -/
theorem good_render_iff (h : s.Guarded) (hfed : s.Fed) :
    (s.render display).Guarded ∧ (s.render display).Fed ↔ Meets s (.render display) := by
  unfold render
  simp only [Meets]
  split
  next hnone =>
    exact iff_of_true ⟨h, hfed⟩ fun hunsent => absurd (hnone.symm.trans hunsent) (by simp)
  next hswapped =>
    refine iff_of_true ⟨h, fun hwindows d hvalid => ?_⟩ fun hunsent =>
      absurd (hswapped.symm.trans hunsent) (by simp)
    exact (hfed hwindows d hvalid).setRendering fun _ => Option.some_ne_none _
  next isMultiSessions hcounted =>
    refine iff_of_true ⟨fun e he b hb => ?_, fun hwindows d hvalid => ?_⟩ fun hunsent =>
      absurd (hcounted.symm.trans hunsent) (by simp)
    · rcases mem_append.mp he with he | he
      · exact h e he b hb
      · obtain ⟨id, -, rfl⟩ := mem_map.mp he
        cases hb
    · by_cases hnil : s.notified isMultiSessions display = []
      · rw [if_pos hnil, hnil]
        simp only [map_nil, append_nil]
        exact (hfed hwindows d hvalid).setRendering fun _ => Option.some_ne_none _
      · by_cases hd : d = display
        · obtain ⟨id, hid⟩ := exists_mem_of_ne_nil _ hnil
          exact .inl ⟨⟨id, display, .unhandled⟩,
            mem_append_right _ (mem_map.mpr ⟨id, hid, rfl⟩), hd.symm,
            has_of_notified hid⟩
        · have hbefore := (hfed hwindows d hvalid).setRendering
            (r := if s.notified isMultiSessions display = [] then some .unsent else none)
            fun heq => absurd heq hd
          rcases hbefore with ⟨e, he, hread⟩ | hrendering
          · exact .inl ⟨e, mem_append_left _ he, hread⟩
          · exact .inr hrendering
  next hunsent =>
    have hfed' : ((s.setRendering display none).nextRgba display).Fed :=
      fed_nextRgba fun hwindows d hd hvalid =>
        (hfed hwindows d hvalid).setRendering fun heq => absurd heq hd
    have hiff : _ ↔ ¬s.InUse display :=
      @guarded_nextRgba_iff (s.setRendering display none) display h
    exact ⟨fun hboth _ => hiff.mp hboth.1, fun hnot => ⟨hiff.mpr (hnot hunsent), hfed'⟩⟩

theorem numbered_render (hnumbered : s.Numbered) : (s.render display).Numbered := by
  unfold render
  split
  · exact hnumbered
  · exact hnumbered
  · exact hnumbered
  · exact numbered_nextRgba (s := s.setRendering display none) hnumbered

theorem finish_subset {x : RgbaEvent} (hx : x ∈ (s.finish e).events) : x ∈ s.events :=
  mem_of_mem_erase hx

theorem fed_replace (hfed : s.Fed) (handling : Handling) : (s.replace e handling).Fed := by
  intro hwindows d hvalid
  rcases hfed hwindows d hvalid with ⟨x, hx, hd, hopen⟩ | hrendering
  · by_cases hxe : x = e
    · subst hxe
      exact .inl ⟨_, mem_cons_self, hd, hopen⟩
    · exact .inl ⟨x, mem_cons_of_mem _ ((mem_erase_of_ne hxe).mpr hx), hd, hopen⟩
  · exact .inr hrendering

theorem guarded_replace (h : s.Guarded) {handling : Handling}
    (hbuffer : ∀ b, handling = .decoding b → s.rgbas e.display = some ⟨b, true⟩) :
    (s.replace e handling).Guarded := by
  intro x hx b hb
  rcases mem_cons.mp hx with rfl | hx
  · exact hbuffer b hb
  · exact h x (mem_of_mem_erase hx) b hb

theorem rgbas_of_sessionGetRgba {b : RgbaBuffer}
    (h : s.sessionGetRgba id display = some b) : s.rgbas display = some ⟨b, true⟩ := by
  unfold sessionGetRgba at h
  split at h
  next hboth =>
    obtain ⟨b', hb'⟩ := valid_iff.mp hboth.2
    rw [data, hb'] at h
    rw [hb', ← Option.some_inj.mp h]
  · cases h

theorem good_finish_iff (h : s.Guarded) (hfed : s.Fed) :
    ((s.finish e).sessionNextRgba e.window e.display).Guarded ∧
        ((s.finish e).sessionNextRgba e.window e.display).Fed ↔
      (s.has e.window = true → ¬(s.finish e).InUse e.display) := by
  have hrest : (s.finish e).Guarded := fun x hx => h x (finish_subset hx)
  have hothers : ∀ x ∈ s.events, x ≠ e → x ∈ (s.finish e).events :=
    fun x hx hne => (mem_erase_of_ne hne).mpr hx
  have hhas : (s.finish e).has e.window = s.has e.window := rfl
  unfold sessionNextRgba
  rw [hhas]
  by_cases hopen : s.has e.window = true
  · rw [if_pos hopen]
    have hfed' : ((s.finish e).nextRgba e.display).Fed := by
      refine fed_nextRgba fun hwindows d hd hvalid => ?_
      rcases hfed hwindows d hvalid with ⟨x, hx, hxd, hxopen⟩ | hrendering
      · refine .inl ⟨x, hothers x hx ?_, hxd, hxopen⟩
        rintro rfl
        exact hd hxd.symm
      · exact .inr hrendering
    have hiff := @guarded_nextRgba_iff _ e.display hrest
    exact ⟨fun hboth _ => hiff.mp hboth.1, fun hnot => ⟨hiff.mpr (hnot hopen), hfed'⟩⟩
  · rw [if_neg hopen]
    refine iff_of_true ⟨hrest, fun hwindows d hvalid => ?_⟩ fun hthere => absurd hthere hopen
    rcases hfed hwindows d hvalid with ⟨x, hx, hxd, hxopen⟩ | hrendering
    · refine .inl ⟨x, hothers x hx ?_, hxd, hxopen⟩
      rintro rfl
      exact hopen hxopen
    · exact .inr hrendering

theorem good_handle_iff (h : s.Guarded) (hfed : s.Fed) :
    (s.handle e).Guarded ∧ (s.handle e).Fed ↔ Meets s (.handle e) := by
  have hfinish := good_finish_iff (e := e) h hfed
  unfold handle
  simp only [Meets]
  by_cases he : e ∈ s.events
  · rw [if_pos he]
    cases hhandling : e.handling with
    | unhandled =>
      refine iff_of_true ⟨guarded_replace h fun b hb => ?_, fed_replace hfed _⟩
        fun _ hne => absurd rfl hne
      split at hb
      · cases hb
      · cases hb
    | sized =>
      refine iff_of_true ⟨guarded_replace h fun b hb => ?_, fed_replace hfed _⟩
        fun _ _ hne => absurd rfl hne
      cases hget : s.sessionGetRgba e.window e.display with
      | none =>
        rw [hget] at hb
        cases hb
      | some b' =>
        rw [hget] at hb
        rw [rgbas_of_sessionGetRgba hget, ← Handling.decoding.inj hb]
    | decoding b =>
      exact hfinish.trans ⟨fun hnot _ _ _ => hnot, fun hnot => hnot he (by simp) (by simp)⟩
    | releasing =>
      exact hfinish.trans ⟨fun hnot _ _ _ => hnot, fun hnot => hnot he (by simp) (by simp)⟩
  · rw [if_neg he]
    exact iff_of_true ⟨h, hfed⟩ fun hthere => absurd hthere he

theorem numbered_handle (hnumbered : s.Numbered) : (s.handle e).Numbered := by
  have hfinish : ((s.finish e).sessionNextRgba e.window e.display).Numbered := by
    unfold sessionNextRgba
    split
    · exact numbered_nextRgba (s := s.finish e) hnumbered
    · exact hnumbered
  unfold handle
  split
  · split
    · exact hnumbered
    · exact hnumbered
    · exact hfinish
    · exact hfinish
  · exact hnumbered

theorem has_modify (s : SoftRender) (id k : Nat) (f : SoftWindow → SoftWindow) :
    (s.modify id f).has k = s.has k := by
  unfold has modify
  rw [any_map]
  congr 1
  funext x
  simp only [comp_apply]
  split <;> rfl

variable {f : SoftWindow → SoftWindow}

theorem windows_modify (h : (s.modify id f).windows ≠ []) : s.windows ≠ [] := by
  rintro hnil
  apply h
  simp [modify, hnil]

theorem toBeRead_modify (h : s.ToBeRead d) : (s.modify id f).ToBeRead d := by
  rcases h with ⟨e, he, hd, hopen⟩ | hrendering
  · exact .inl ⟨e, he, hd, (has_modify s id e.window f).trans hopen⟩
  · exact .inr hrendering

theorem fed_modify (hfed : s.Fed) : (s.modify id f).Fed :=
  fun hwindows d hvalid => toBeRead_modify (hfed (windows_modify hwindows) d hvalid)

theorem good_switch_iff (h : s.Guarded) (hfed : s.Fed) (id : Nat) (value : List Nat) :
    (s.sessionSwitchDisplay id value).Guarded ∧ (s.sessionSwitchDisplay id value).Fed ↔
      Meets s (.sessionSwitchDisplay id value) := by
  unfold sessionSwitchDisplay
  simp only [Meets]
  by_cases hid : s.has id = true
  · rw [if_pos hid]
    split
    next display =>
      have hfed' : ((s.modify id fun w => { w with displays := [display] }).nextRgba display).Fed :=
        fed_nextRgba fun hwindows d _ => fed_modify hfed hwindows d
      have hiff : _ ↔ ¬s.InUse display :=
        guarded_nextRgba_iff (s := s.modify id fun w => { w with displays := [display] }) h
      constructor
      · rintro ⟨hg, -⟩ - d hd
        rw [← singleton_inj.mp hd]
        exact hiff.mp hg
      · intro hnot
        exact ⟨hiff.mpr (hnot hid display rfl), hfed'⟩
    next hmany =>
      exact iff_of_true ⟨h, fed_modify hfed⟩ fun _ d hd => absurd hd (hmany d)
  · rw [if_neg hid]
    exact iff_of_true ⟨h, hfed⟩ fun hthere => absurd hthere hid

theorem numbered_switch (hnumbered : s.Numbered) (id : Nat) (value : List Nat) :
    (s.sessionSwitchDisplay id value).Numbered := by
  unfold sessionSwitchDisplay
  split
  · split
    next display =>
      exact numbered_nextRgba (s := s.modify id fun w => { w with displays := [display] }) hnumbered
    · exact hnumbered
  · exact hnumbered

theorem fed_insert (hfed : s.Fed) (id : Nat) (displays : List Nat) :
    (s.insertPeerSessionId id displays).Fed := by
  unfold insertPeerSessionId
  split
  · exact hfed
  next hsome =>
    intro _ d hvalid
    rcases hfed hsome d hvalid with ⟨e, he, hd, hopen⟩ | hrendering
    · refine .inl ⟨e, he, hd, ?_⟩
      obtain ⟨x, hx, hxe⟩ := any_eq_true.mp hopen
      apply any_eq_true.mpr
      by_cases hxid : x.1 = id
      · refine ⟨(id, ⟨displays, false⟩), mem_append_right _ (mem_singleton.mpr rfl), ?_⟩
        rwa [← hxid]
      · refine ⟨x, mem_append_left _ (mem_filter.mpr ⟨hx, decide_eq_true hxid⟩), hxe⟩
    · exact .inr hrendering

theorem good_insertNext_iff (h : s.Guarded) (hfed : s.Fed) :
    (s.insertNext display).Guarded ∧ (s.insertNext display).Fed ↔
      Meets s (.insertNext display) := by
  unfold insertNext
  simp only [Meets]
  by_cases hopened : display ∈ s.opened
  · rw [if_pos hopened]
    have hiff : _ ↔ ¬s.InUse display :=
      guarded_nextRgba_iff (s := { s with opened := s.opened.erase display }) h
    have hfed' : (({ s with opened := s.opened.erase display } : SoftRender).nextRgba
        display).Fed := fed_nextRgba fun hwindows d _ => hfed hwindows d
    exact ⟨fun hboth _ => hiff.mp hboth.1, fun hnot => ⟨hiff.mpr (hnot hopened), hfed'⟩⟩
  · rw [if_neg hopened]
    exact iff_of_true ⟨h, hfed⟩ fun hthere => absurd hthere hopened

theorem fed_close_iff (s : SoftRender) (id : Nat) :
    (s.sessionClose id).Fed ↔ Meets s (.sessionClose id) := by
  simp only [Meets]
  have hsome : (s.sessionClose id).windows ≠ [] ↔ ∃ x ∈ s.windows, x.1 ≠ id := by
    simp [sessionClose, filter_eq_nil_iff]
  have hopen : ∀ k, (s.sessionClose id).has k = true ↔ s.has k = true ∧ k ≠ id := by
    intro k
    simp only [has, sessionClose, any_eq_true, mem_filter, decide_eq_true_eq]
    constructor
    · rintro ⟨x, ⟨hx, hne⟩, rfl⟩
      exact ⟨⟨x, hx, rfl⟩, hne⟩
    · rintro ⟨⟨x, hx, rfl⟩, hne⟩
      exact ⟨x, ⟨hx, hne⟩, rfl⟩
  refine (imp_congr hsome (forall₂_congr fun d _ => ?_))
  refine or_congr ?_ Iff.rfl
  exact exists_congr fun e => and_congr_right fun _ => and_congr_right fun _ => hopen e.window

theorem numbered_step (hnumbered : s.Numbered) (i : Input) : (step s i).Numbered := by
  cases i with
  | onRgba display len => exact numbered_onRgba hnumbered len
  | render display => exact numbered_render hnumbered
  | handle e => exact numbered_handle hnumbered
  | sessionSwitchDisplay id value => exact numbered_switch hnumbered id value
  | insertPeerSessionId id displays =>
    simp only [step, insertPeerSessionId]
    split
    · exact hnumbered
    · exact hnumbered
  | insertNext display =>
    simp only [step, insertNext]
    split
    · exact numbered_nextRgba (s := { s with opened := s.opened.erase display }) hnumbered
    · exact hnumbered
  | sessionStart id => exact hnumbered
  | sessionClose id => exact hnumbered

theorem guarded_insert (h : s.Guarded) (id : Nat) (displays : List Nat) :
    (s.insertPeerSessionId id displays).Guarded := by
  unfold insertPeerSessionId
  split
  · exact h
  · exact h

theorem good_step_iff (h : s.Guarded) (hfed : s.Fed) (i : Input) :
    (step s i).Guarded ∧ (step s i).Fed ↔ Meets s i := by
  cases i with
  | onRgba display len => exact iff_of_true ⟨guarded_onRgba h len, fed_onRgba hfed len⟩ trivial
  | render display => exact good_render_iff h hfed
  | handle e => exact good_handle_iff h hfed
  | sessionSwitchDisplay id value => exact good_switch_iff h hfed id value
  | insertPeerSessionId id displays =>
    exact iff_of_true ⟨guarded_insert h id displays, fed_insert hfed id displays⟩ trivial
  | insertNext display => exact good_insertNext_iff h hfed
  | sessionStart id => exact iff_of_true ⟨h, fed_modify hfed⟩ trivial
  | sessionClose id => exact (and_iff_right h).trans (fed_close_iff s id)

/-- **A buffer stays put while a window reads it, and a set flag has a reader**, exactly in the runs
that meet the condition. -/
theorem put_fed_iff_along (first : Nat) (is : List Input) :
    Always step (fun s => s.Put ∧ s.Fed) (start first) is ↔ Along step Meets (start first) is := by
  have hnumbered : (start first).Numbered := fun d r hr => absurd hr (by simp [start])
  have hput : (start first).Put := fun e he => absurd he not_mem_nil
  have hfed : (start first).Fed := fun _ d hvalid => absurd hvalid (by simp [start, valid])
  refine always_iff_along_of_good (J := Numbered) (fun s i h _ _ => numbered_step h i) ?_ hnumbered
    ⟨hput, hfed⟩
  intro s i hn hgood
  rw [put_iff (numbered_step hn i)]
  exact good_step_iff ((put_iff hn).mp hgood.1) hgood.2 i

/-- Two windows show display 0 and get its first frame.  The one that is done first lets the second
frame into the buffer that the other one decodes. -/
def twoReaders : List Input :=
  [.sessionStart 0, .sessionSwitchDisplay 0 [0], .insertPeerSessionId 1 [0], .insertNext 0,
    .sessionStart 1, .onRgba 0 4, .render 0, .render 0,
    .handle ⟨0, 0, .unhandled⟩, .handle ⟨0, 0, .sized⟩, .handle ⟨1, 0, .unhandled⟩,
    .handle ⟨1, 0, .sized⟩, .handle ⟨0, 0, .decoding ⟨0, 4⟩⟩, .onRgba 0 4]

def closedReader : List Input :=
  [.sessionStart 0, .sessionSwitchDisplay 0 [0], .insertPeerSessionId 1 [1], .insertNext 1,
    .sessionStart 1, .onRgba 1 4, .render 1, .render 1, .sessionClose 1]

theorem not_put_fed_always : ¬Always step Put (start 0) twoReaders ∧
    ¬Always step Fed (start 0) closedReader := by
  constructor
  · intro h
    have hput := h.last ⟨1, 0, .decoding ⟨0, 4⟩⟩ (by decide) ⟨0, 4⟩ rfl
    exact absurd hput.1 (by decide)
  · intro h
    rcases h.last (by decide) 1 (by decide) with ⟨e, he, -, hopen⟩ | hrendering
    · have hevents : (exec step (start 0) closedReader).events = [⟨1, 1, .unhandled⟩] := by decide
      rw [hevents, mem_singleton] at he
      subst he
      cases hopen
    · exact hrendering (by decide)

end SoftRender
end RustDesk
