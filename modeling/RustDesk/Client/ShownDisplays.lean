import RustDesk.Lib.Run

/-!
# The displays that the windows of a session show

A window has the list of the displays that it shows, and a map from displays to what they are
rendered to.  The peer is told which displays to capture: a window that is started adds its own, one
that switches to a single display or is closed sets those that the maps of the other windows have,
and one that switches to several sets these.

`ShownDisplays` has the windows of one session, with whether each was started or has switched, and
the set of displays that the messages to the peer come to.

* `shown_iff_along`: **every shown display stays captured** exactly in the runs where each message
  that sets the displays has those of the other windows, and no window gets a display that is not
  captured.
-/

open Run

namespace RustDesk

open List

/-- A display as the peer numbers it. -/
abbrev DisplayNumber := Int

/-- `DisplaySessionInfo`, as far as registrations look at it. -/
structure DisplaySessionInfo where
  textureRgbaPtr : Nat
  size : Nat × Nat
  gpuOutputPtr : Nat
  deriving DecidableEq

/-- `map_display_sessions`. -/
abbrev Renderer := List (DisplayNumber × DisplaySessionInfo)

namespace Renderer

def has (r : Renderer) (display : DisplayNumber) : Bool := r.any (·.1 = display)

def find (r : Renderer) (display : DisplayNumber) : Option DisplaySessionInfo :=
  (r.find? (·.1 = display)).map (·.2)

def modify (r : Renderer) (display : DisplayNumber) (f : DisplaySessionInfo → DisplaySessionInfo) :
    Renderer :=
  r.map fun x => if x.1 = display then (x.1, f x.2) else x

def remove (r : Renderer) (display : DisplayNumber) : Renderer := r.filter (·.1 ≠ display)

def setSize (r : Renderer) (display : DisplayNumber) (width height : Nat) : Renderer :=
  if r.has display then r.modify display fun info => { info with size := (width, height) }
  else r ++ [(display, ⟨0, (width, height), 0⟩)]

def registerPixelbufferTexture (r : Renderer) (display : DisplayNumber) (ptr : Nat) : Renderer :=
  if ptr = 0 then
    if (r.find display).any (·.gpuOutputPtr ≠ 0) then
      r.modify display fun info => { info with textureRgbaPtr := 0 }
    else r.remove display
  else if r.has display then r.modify display fun info => { info with textureRgbaPtr := ptr }
  else r ++ [(display, ⟨ptr, (0, 0), 0⟩)]

def registerGpuOutput (r : Renderer) (display : DisplayNumber) (ptr : Nat) : Renderer :=
  if ptr = 0 then
    if (r.find display).any (·.textureRgbaPtr ≠ 0) then
      r.modify display fun info => { info with gpuOutputPtr := 0 }
    else r.remove display
  else if r.has display then r.modify display fun info => { info with gpuOutputPtr := ptr }
  else r ++ [(display, ⟨0, (0, 0), ptr⟩)]

end Renderer

/-- `SessionHandler`, with whether the window was started with displays or has switched. -/
structure ShownWindow where
  displays : List DisplayNumber
  renderer : Renderer
  started : Bool
  deriving DecidableEq

/-- What `session_set_size` does with its window. -/
def ShownWindow.setSize (w : ShownWindow) (display : DisplayNumber) (width height : Nat) :
    ShownWindow :=
  { w with
    displays := if display ∈ w.displays then w.displays else w.displays ++ [display]
    renderer := w.renderer.setSize display width height }

/-- `CaptureDisplays`. -/
structure CaptureMessage where
  add : List DisplayNumber
  sub : List DisplayNumber
  set : List DisplayNumber

def CaptureMessage.apply (captured : List DisplayNumber) (m : CaptureMessage) :
    List DisplayNumber :=
  if m.add ≠ [] then captured ++ m.add
  else if m.sub ≠ [] then captured.filter (· ∉ m.sub)
  else m.set

structure ShownDisplays where
  windows : List (Nat × ShownWindow)
  captured : List DisplayNumber

namespace ShownDisplays

def start (first : Nat) (captured : List DisplayNumber) : ShownDisplays where
  windows := [(first, ⟨[], [], false⟩)]
  captured := captured

def has (s : ShownDisplays) (id : Nat) : Bool := s.windows.any (·.1 = id)

/-- `get_mut` of a window. -/
def modify (s : ShownDisplays) (id : Nat) (f : ShownWindow → ShownWindow) : ShownDisplays :=
  { s with windows := s.windows.map fun x => if x.1 = id then (x.1, f x.2) else x }

def send (s : ShownDisplays) (messages : List CaptureMessage) : ShownDisplays :=
  { s with captured := messages.foldl CaptureMessage.apply s.captured }

def otherKeys (s : ShownDisplays) (id : Nat) : List DisplayNumber :=
  (s.windows.filter (·.1 ≠ id)).flatMap fun x => x.2.renderer.map (·.1)

def insertPeerSessionId (s : ShownDisplays) (id : Nat) (displays : List DisplayNumber) :
    ShownDisplays :=
  if s.windows = [] then s
  else { s with windows := s.windows.filter (·.1 ≠ id) ++ [(id, ⟨displays, [], false⟩)] }

def sessionStartWithDisplays (s : ShownDisplays) (id : Nat) (displays : List DisplayNumber) :
    ShownDisplays :=
  if s.has id then
    (s.modify id fun w => { w with started := true }).send [⟨displays, [], []⟩]
  else s

def checkRemoveUnusedDisplays (s : ShownDisplays) (current : Option DisplayNumber) (id : Nat) :
    List CaptureMessage :=
  let remainsDisplays := current.toList ++ s.otherKeys id
  if remainsDisplays ≠ [] then [⟨[], [], remainsDisplays⟩] else []

/-- `Session::switch_display`, as far as it sends `CaptureDisplays`. -/
def switchDisplay (useTextureRender : Bool) (display : DisplayNumber) : List CaptureMessage :=
  if useTextureRender then [] else [⟨[], [], [display]⟩]

def sessionSwitchDisplay (s : ShownDisplays) (isDesktop useTextureRender : Bool) (id : Nat)
    (value : List DisplayNumber) : ShownDisplays :=
  if s.has id then
    let s := s.modify id fun w => { w with displays := value, started := true }
    match value with
    | [display] =>
      s.send (switchDisplay useTextureRender display ++
        if isDesktop then s.checkRemoveUnusedDisplays (some display) id
        else [⟨[], [], value⟩])
    | value => s.send [⟨[], [], value⟩]
  else s

def sessionSetSize (s : ShownDisplays) (id : Nat) (display : DisplayNumber) (width height : Nat) :
    ShownDisplays :=
  s.modify id (·.setSize display width height)

def sessionClose (s : ShownDisplays) (id : Nat) : ShownDisplays :=
  if s.has id then
    let s := { s with windows := s.windows.filter (·.1 ≠ id) }
    if s.windows = [] then s else s.send (s.checkRemoveUnusedDisplays none id)
  else s

inductive Input where
  | insertPeerSessionId (id : Nat) (displays : List DisplayNumber)
  | sessionStartWithDisplays (id : Nat) (displays : List DisplayNumber)
  | sessionSwitchDisplay (useTextureRender : Bool) (id : Nat) (first : DisplayNumber)
      (rest : List DisplayNumber)
  | sessionSetSize (id : Nat) (display : DisplayNumber) (width height : Nat)
  | registerPixelbufferTexture (id : Nat) (display : DisplayNumber) (ptr : Nat)
  | registerGpuOutput (id : Nat) (display : DisplayNumber) (ptr : Nat)
  | sessionClose (id : Nat)

def step (s : ShownDisplays) : Input → ShownDisplays
  | .insertPeerSessionId id displays => s.insertPeerSessionId id displays
  | .sessionStartWithDisplays id displays => s.sessionStartWithDisplays id displays
  | .sessionSwitchDisplay useTextureRender id first rest =>
    s.sessionSwitchDisplay true useTextureRender id (first :: rest)
  | .sessionSetSize id display width height => s.sessionSetSize id display width height
  | .registerPixelbufferTexture id display ptr => s.modify id fun w =>
    { w with renderer := w.renderer.registerPixelbufferTexture display ptr }
  | .registerGpuOutput id display ptr => s.modify id fun w =>
    { w with renderer := w.renderer.registerGpuOutput display ptr }
  | .sessionClose id => s.sessionClose id

/-- **Every shown display is captured**, of the windows that were started or have switched. -/
def Shown (s : ShownDisplays) : Prop :=
  ∀ x ∈ s.windows, x.2.started = true → ∀ d ∈ x.2.displays, d ∈ s.captured

/-- The displays that the other windows show are among these. -/
def OthersIn (s : ShownDisplays) (id : Nat) (displays : List DisplayNumber) : Prop :=
  ∀ x ∈ s.windows, x.1 ≠ id → x.2.started = true → ∀ d ∈ x.2.displays, d ∈ displays

/-- The condition.  A window that switches to one display finds what the others show in their
maps, one that switches to several has it in its list, and one that is closed finds it in the maps,
if they have anything.  A window that is started names the displays that it shows, and one that is
running gets a display only if it is captured. -/
def Meets (s : ShownDisplays) : Input → Prop
  | .sessionStartWithDisplays id displays =>
    if displays = [] then
      s.has id = true → s.OthersIn id [] ∧ ∀ x ∈ s.windows, x.1 = id → x.2.displays = []
    else ∀ x ∈ s.windows, x.1 = id → ∀ d ∈ x.2.displays, d ∈ s.captured ++ displays
  | .sessionSwitchDisplay _ id first rest => s.has id = true →
      s.OthersIn id (if rest = [] then first :: s.otherKeys id else first :: rest)
  | .sessionSetSize id display _ _ => ∀ x ∈ s.windows, x.1 = id → x.2.started = true →
      display ∈ x.2.displays ∨ display ∈ s.captured
  | .sessionClose id => s.has id = true → s.otherKeys id ≠ [] → s.OthersIn id (s.otherKeys id)
  | _ => True

variable {s : ShownDisplays} {id : Nat} {c : List DisplayNumber}

theorem has_iff : s.has id = true ↔ ∃ x ∈ s.windows, x.1 = id := by
  simp [has]

theorem shown_modify_iff (s : ShownDisplays) (id : Nat) (c : List DisplayNumber)
    (f : ShownWindow → ShownWindow) :
    ({ s.modify id f with captured := c } : ShownDisplays).Shown ↔ s.OthersIn id c ∧
      ∀ x ∈ s.windows, x.1 = id → (f x.2).started = true → ∀ d ∈ (f x.2).displays, d ∈ c := by
  have hall : ({ s.modify id f with captured := c } : ShownDisplays).Shown ↔
      ∀ x ∈ s.windows, (if x.1 = id then (x.1, f x.2) else x).2.started = true →
        ∀ d ∈ (if x.1 = id then (x.1, f x.2) else x).2.displays, d ∈ c := forall_mem_map
  rw [hall]
  constructor
  · intro h
    refine ⟨fun x hx hne => ?_, fun x hx heq => ?_⟩
    · have hone := h x hx
      rwa [if_neg hne] at hone
    · have hone := h x hx
      rwa [if_pos heq] at hone
  · rintro ⟨hothers, hown⟩ x hx
    by_cases hid : x.1 = id
    · rw [if_pos hid]
      exact hown x hx hid
    · rw [if_neg hid]
      exact hothers x hx hid

theorem shown_others_iff (s : ShownDisplays) (id : Nat) (c : List DisplayNumber)
    {added : List (Nat × ShownWindow)}
    (hadded : ∀ x ∈ added, x.2.started = false) :
    ({ windows := s.windows.filter (·.1 ≠ id) ++ added, captured := c } : ShownDisplays).Shown ↔
      s.OthersIn id c := by
  constructor
  · intro h x hx hne
    exact h x (mem_append_left _ (mem_filter.mpr ⟨hx, decide_eq_true hne⟩))
  · intro h x hx hstarted
    rcases mem_append.mp hx with hx | hx
    · obtain ⟨hx, hne⟩ := mem_filter.mp hx
      exact h x hx (of_decide_eq_true hne) hstarted
    · exact Bool.noConfusion ((hadded x hx).symm.trans hstarted)

theorem Shown.othersIn (h : s.Shown) (id : Nat) : s.OthersIn id s.captured :=
  fun x hx _ => h x hx

theorem OthersIn.mono {c' : List DisplayNumber} (h : s.OthersIn id c) (hsub : c ⊆ c') :
    s.OthersIn id c' :=
  fun x hx hne hstarted d hd => hsub (h x hx hne hstarted d hd)

theorem otherKeys_modify (s : ShownDisplays) (id : Nat) (f : ShownWindow → ShownWindow) :
    (s.modify id f).otherKeys id = s.otherKeys id := by
  unfold otherKeys modify
  congr 1
  induction s.windows with
  | nil => rfl
  | cons x windows ih =>
    by_cases hx : x.1 = id
    · simpa [hx] using ih
    · simpa [hx] using ih

theorem otherKeys_filter :
    ({ s with windows := s.windows.filter (·.1 ≠ id) } : ShownDisplays).otherKeys id =
      s.otherKeys id := by
  unfold otherKeys
  rw [filter_filter]
  simp

theorem shown_insert (h : s.Shown) (displays : List DisplayNumber) :
    (s.insertPeerSessionId id displays).Shown := by
  unfold insertPeerSessionId
  split
  · exact h
  · exact (shown_others_iff s id _ (forall_mem_singleton.mpr rfl)).mpr (h.othersIn id)

theorem apply_add (displays : List DisplayNumber) :
    CaptureMessage.apply c ⟨displays, [], []⟩ = if displays = [] then [] else c ++ displays := by
  cases displays with
  | nil => rfl
  | cons d displays => rfl

theorem shown_start_iff (h : s.Shown) (displays : List DisplayNumber) :
    (s.sessionStartWithDisplays id displays).Shown ↔
      Meets s (.sessionStartWithDisplays id displays) := by
  unfold sessionStartWithDisplays
  simp only [Meets]
  by_cases hid : s.has id = true
  · have hsend : (s.modify id fun w => { w with started := true }).send [⟨displays, [], []⟩] =
        { s.modify id fun w => { w with started := true } with
          captured := if displays = [] then [] else s.captured ++ displays } := by
      rw [← apply_add]
      rfl
    rw [if_pos hid, hsend, shown_modify_iff]
    by_cases hnil : displays = []
    · rw [if_pos hnil, if_pos hnil]
      refine ⟨fun hboth _ => ⟨hboth.1, fun x hx hxid => ?_⟩, fun hboth => ⟨(hboth hid).1, ?_⟩⟩
      · exact eq_nil_iff_forall_not_mem.mpr fun d hd =>
          absurd (hboth.2 x hx hxid rfl d hd) not_mem_nil
      · intro x hx hxid _ d hd
        exact (hboth hid).2 x hx hxid ▸ hd
    · rw [if_neg hnil, if_neg hnil]
      refine ⟨fun hboth x hx hxid => hboth.2 x hx hxid rfl, fun hown => ⟨?_, ?_⟩⟩
      · exact (h.othersIn id).mono (subset_append_left _ _)
      · exact fun x hx hxid _ => hown x hx hxid
  · rw [if_neg hid]
    refine iff_of_true h ?_
    by_cases hnil : displays = []
    · rw [if_pos hnil]
      exact fun hthere => absurd hthere hid
    · rw [if_neg hnil]
      exact fun x hx hxid => absurd (has_iff.mpr ⟨x, hx, hxid⟩) hid

theorem sessionSwitchDisplay_eq (hid : s.has id = true) (useTextureRender : Bool)
    (first : DisplayNumber) (rest : List DisplayNumber) :
    s.sessionSwitchDisplay true useTextureRender id (first :: rest) =
      { s.modify id fun w => { w with displays := first :: rest, started := true } with
        captured := if rest = [] then first :: s.otherKeys id else first :: rest } := by
  rw [sessionSwitchDisplay, if_pos hid]
  cases rest with
  | nil =>
    have hkeys := otherKeys_modify s id fun w =>
      { w with displays := [first], started := true }
    simp only [checkRemoveUnusedDisplays, hkeys]
    cases useTextureRender <;> rfl
  | cons second rest => rfl

theorem shown_switch_iff (h : s.Shown) (useTextureRender : Bool) (first : DisplayNumber)
    (rest : List DisplayNumber) :
    (s.sessionSwitchDisplay true useTextureRender id (first :: rest)).Shown ↔
      Meets s (.sessionSwitchDisplay useTextureRender id first rest) := by
  simp only [Meets]
  by_cases hid : s.has id = true
  · rw [sessionSwitchDisplay_eq hid, shown_modify_iff]
    refine ⟨fun hboth _ => hboth.1, fun hothers => ⟨hothers hid, fun x _ _ _ d hd => ?_⟩⟩
    by_cases hrest : rest = []
    · rw [if_pos hrest]
      rw [hrest] at hd
      exact mem_cons.mpr (.inl (mem_singleton.mp hd))
    · rw [if_neg hrest]
      exact hd
  · rw [sessionSwitchDisplay, if_neg hid]
    exact iff_of_true h fun hthere => absurd hthere hid

theorem shown_setSize_iff (h : s.Shown) (display : DisplayNumber) (width height : Nat) :
    (s.sessionSetSize id display width height).Shown ↔
      Meets s (.sessionSetSize id display width height) := by
  simp only [Meets]
  refine (shown_modify_iff s id s.captured (·.setSize display width height)).trans ?_
  simp only [ShownWindow.setSize]
  constructor
  · rintro ⟨-, hown⟩ x hx hxid hstarted
    by_cases hd : display ∈ x.2.displays
    · exact .inl hd
    · refine .inr (hown x hx hxid hstarted display ?_)
      rw [if_neg hd]
      exact mem_append_right _ (mem_singleton.mpr rfl)
  · intro hown
    refine ⟨h.othersIn id, fun x hx hxid hstarted d hd => ?_⟩
    by_cases hthere : display ∈ x.2.displays
    · rw [if_pos hthere] at hd
      exact h x hx hstarted d hd
    · rw [if_neg hthere] at hd
      rcases mem_append.mp hd with hd | hd
      · exact h x hx hstarted d hd
      · rw [mem_singleton.mp hd]
        exact (hown x hx hxid hstarted).resolve_left hthere

theorem shown_renderer (h : s.Shown) (f : Renderer → Renderer) :
    (s.modify id fun w => { w with renderer := f w.renderer }).Shown := by
  have hmodify := shown_modify_iff s id s.captured fun w => { w with renderer := f w.renderer }
  exact hmodify.mpr ⟨h.othersIn id, fun x hx _ => h x hx⟩

theorem shown_close_iff (h : s.Shown) : (s.sessionClose id).Shown ↔ Meets s (.sessionClose id) := by
  have hrest : ∀ c, ({ windows := s.windows.filter (·.1 ≠ id), captured := c } :
      ShownDisplays).Shown ↔ s.OthersIn id c := by
    intro c
    have hothers := shown_others_iff s id c fun x hx => absurd hx not_mem_nil
    rwa [append_nil] at hothers
  have hkept := (hrest s.captured).mpr (h.othersIn id)
  simp only [Meets]
  by_cases hid : s.has id = true
  · rw [sessionClose, if_pos hid]
    simp only
    by_cases hlast : s.windows.filter (·.1 ≠ id) = []
    · rw [if_pos hlast]
      refine iff_of_true hkept fun _ hkeys => absurd ?_ hkeys
      rw [otherKeys, hlast]
      rfl
    · rw [if_neg hlast]
      simp only [checkRemoveUnusedDisplays, otherKeys_filter, Option.toList_none, nil_append]
      by_cases hkeys : s.otherKeys id = []
      · rw [hkeys]
        exact iff_of_true hkept fun _ hne => absurd rfl hne
      · rw [if_pos hkeys]
        exact (hrest _).trans ⟨fun hothers _ _ => hothers, fun hothers => hothers hid hkeys⟩
  · rw [sessionClose, if_neg hid]
    exact iff_of_true h fun hthere => absurd hthere hid

/-- **Every shown display stays captured** exactly in the runs that meet the condition. -/
theorem shown_iff_along (first : Nat) (captured : List DisplayNumber) (is : List Input) :
    Always step Shown (start first captured) is ↔ Along step Meets (start first captured) is := by
  have hstart : (start first captured).Shown := forall_mem_singleton.mpr fun h => Bool.noConfusion h
  refine always_iff_along_of_good (J := fun _ => True) (fun _ _ _ _ _ => trivial) ?_ trivial hstart
  intro s i _ h
  cases i with
  | insertPeerSessionId id displays => exact iff_of_true (shown_insert h displays) trivial
  | sessionStartWithDisplays id displays => exact shown_start_iff h displays
  | sessionSwitchDisplay useTextureRender id first rest =>
    exact shown_switch_iff h useTextureRender first rest
  | sessionSetSize id display width height => exact shown_setSize_iff h display width height
  | registerPixelbufferTexture id display ptr =>
    exact iff_of_true (shown_renderer h (·.registerPixelbufferTexture display ptr)) trivial
  | registerGpuOutput id display ptr =>
    exact iff_of_true (shown_renderer h (·.registerGpuOutput display ptr)) trivial
  | sessionClose id => exact shown_close_iff h

/-- A second window is started on display 1, and the first switches before the texture of the
second is registered: display 1 is captured no more. -/
theorem not_shown_always : ¬Always step Shown (start 0 [])
    [.sessionSwitchDisplay true 0 0 [], .insertPeerSessionId 1 [1],
      .sessionStartWithDisplays 1 [1], .sessionSwitchDisplay true 0 0 []] := by
  intro h
  have hlast := h.last (1, ⟨[1], [], true⟩) (by decide) rfl 1 mem_cons_self
  exact absurd hlast (by decide)

end ShownDisplays
end RustDesk
