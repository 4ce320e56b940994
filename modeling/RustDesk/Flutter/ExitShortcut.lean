import RustDesk.Flutter.RawKeyEvents

/-!
# The exit shortcut of the relative mouse mode (Flutter client)

Ctrl and alt together, or Cmd+G on macOS, leave the relative mouse mode, and the key-down that
completes them is not passed on.  A flag is set so that its key-up is not passed on either; but
leaving the mode clears the flag, and a key-up is looked at only in the mode.

`paired` says of each key-up so far that it was passed on if and only if the key-down was.

* `paired_iff_along`: **it stays so exactly in the runs where no key goes up that completed the
  shortcut** when it went down.
-/

open Run

namespace RustDesk.ExitShortcut

inductive Platform where
  | macOS
  | windows
  | linux
  deriving DecidableEq

/-- `PhysicalKeyboardKey`. -/
inductive PhysicalKey where
  | metaLeft
  | metaRight
  | other (usbHidUsage : Nat)
  deriving DecidableEq

structure Key where
  physicalKey : PhysicalKey
  logicalKey : LogicalKey
  deriving DecidableEq

def keyG : LogicalKey := .other 0x67

structure Env where
  platform : Platform
  isViewOnly : Bool
  isViewCamera : Bool
  isInputSourceFlutter : Bool

/-- `RelativeMouseModel`, as far as keys go. -/
structure RelativeMouse where
  enabled : Bool
  exitShortcutKeyDown : Bool

namespace RelativeMouse

/-- `_completeEnableRelativeMouseMode`. -/
def completeEnable (r : RelativeMouse) : RelativeMouse := { r with enabled := true }

def resetState (r : RelativeMouse) : RelativeMouse := { r with exitShortcutKeyDown := false }

/-- `setRelativeMouseMode(false)`, `_disableWithCleanup` and `dispose`. -/
def disable (r : RelativeMouse) : RelativeMouse := { r with enabled := false }.resetState

def isExitShortcut (platform : Platform) (logicalKey : LogicalKey)
    (isPressed : Modifier → Bool) : Bool :=
  if platform = .macOS then logicalKey = keyG && isPressed .command
  else
    let isCtrlKey := logicalKey = .controlLeft || logicalKey = .controlRight
    let isAltKey := logicalKey = .altLeft || logicalKey = .altRight
    (isCtrlKey && isPressed .alt) || (isAltKey && isPressed .ctrl)

/-- `_handleExitShortcut`, and whether it handled the event. -/
def handleExitShortcut (r : RelativeMouse) (env : Env) (logicalKey : LogicalKey)
    (isKeyDown : Bool) (isPressed : Modifier → Bool) : Bool × RelativeMouse :=
  if env.isViewCamera then (false, r)
  else if !r.enabled then (false, r)
  else if !isKeyDown && r.exitShortcutKeyDown then
    (true, { r with exitShortcutKeyDown := false })
  else if !isKeyDown then (false, r)
  else if isExitShortcut env.platform logicalKey isPressed then
    (true, { r with exitShortcutKeyDown := true }.disable)
  else (false, r)

end RelativeMouse

/-- What became of a key-down: whether it was passed on, and whether it completed the shortcut
in the mode. -/
structure KeyDown where
  passed : Bool
  fired : Bool

/-- The models of a session, the keys that are pressed, for each of them its key-down, and
whether all key-ups so far went the way of their key-downs. -/
structure Keys where
  mouse : RelativeMouse
  input : InputModel
  pressed : LogicalKey → Bool
  downs : Key → Option KeyDown
  paired : Bool

inductive ModeInput where
  | down (k : Key)
  | up (k : Key)
  | enable
  | disable

namespace Keys

def start : Keys where
  mouse := ⟨false, false⟩
  input := .start
  pressed _ := false
  downs _ := none
  paired := true

/-- The filters of `InputModel.handleKeyEvent` before the relative mouse mode, and of
`handleRawKeyEvent`, which does not look for meta keys. -/
def filtered (env : Env) (raw : Bool) (k : Key) : Bool :=
  env.isViewOnly || env.isViewCamera || !env.isInputSourceFlutter ||
    (!raw && (env.platform = .windows || env.platform = .linux) &&
      (k.physicalKey = .metaLeft || k.physicalKey = .metaRight))

def isPressed (s : Keys) (raw : Bool) (m : Modifier) : Bool :=
  if raw then m.keys.any s.pressed else s.input.modifier m

/-- `InputModel.handleKeyEvent` and `handleRawKeyEvent`, the key being pressed or not after the
event, and whether the event was passed on. -/
def handleKeyEvent (env : Env) (raw : Bool) (s : Keys) (k : Key) (isKeyDown : Bool) : Bool × Keys :=
  if filtered env raw k then (false, s)
  else
    let (handled, mouse) :=
      s.mouse.handleExitShortcut env k.logicalKey isKeyDown (s.isPressed raw)
    let s := { s with mouse }
    if handled then (false, s)
    else
      let e := RawKeyboard.event k.logicalKey s.pressed
      let input :=
        match raw, isKeyDown with
        | false, true => s.input.handleKeyDown false k.logicalKey (s.isPressed false .shift)
        | false, false => s.input.handleKeyUp k.logicalKey
        | true, true => s.input.handleRawKeyDown false e
        | true, false => s.input.handleRawKeyUp e
      (true, { s with input })

def fires (env : Env) (raw : Bool) (s : Keys) (k : Key) : Bool :=
  s.mouse.enabled && !filtered env raw k &&
    RelativeMouse.isExitShortcut env.platform k.logicalKey (s.isPressed raw)

def press (s : Keys) (k : Key) (b : Bool) : Keys :=
  { s with pressed := Function.update s.pressed k.logicalKey b }

def step (env : Env) (raw : Bool) (s : Keys) : ModeInput → Keys
  | .down k =>
    let s := s.press k true
    let (passed, t) := s.handleKeyEvent env raw k true
    { t with downs := Function.update s.downs k (some ⟨passed, s.fires env raw k⟩) }
  | .up k =>
    let s := s.press k false
    let (passed, t) := s.handleKeyEvent env raw k false
    { t with
      downs := Function.update s.downs k none
      paired := s.paired && (s.downs k).all fun d => passed = d.passed }
  | .enable => { s with mouse := s.mouse.completeEnable }
  | .disable => { s with mouse := s.mouse.disable }

def Paired (s : Keys) : Prop := s.paired = true

instance (s : Keys) : Decidable s.Paired := inferInstanceAs (Decidable (_ = _))

/-- A key goes up only if its going down did not fire the shortcut. -/
def Meets (s : Keys) : ModeInput → Prop
  | .up k => ∀ d ∈ s.downs k, d.fired = false
  | _ => True

/-- What holds in all runs: the flag is never set, and a key-down is passed on unless it was
filtered out or completed the shortcut. -/
structure Inv (env : Env) (raw : Bool) (s : Keys) : Prop where
  cleared : s.mouse.exitShortcutKeyDown = false
  passed : ∀ k, ∀ d ∈ s.downs k, d.passed = (!filtered env raw k && !d.fired)
  fired : ∀ k, ∀ d ∈ s.downs k, d.fired = true → filtered env raw k = false

variable {env : Env} {raw : Bool} {s : Keys} {k : Key}

theorem inv_start : Inv env raw start where
  cleared := rfl
  passed _ d h := absurd h (Option.not_mem_none d)
  fired _ d h := absurd h (Option.not_mem_none d)

theorem handleExitShortcut_down (r : RelativeMouse) (logicalKey : LogicalKey)
    (isPressed : Modifier → Bool) (hcamera : env.isViewCamera = false) :
    (r.handleExitShortcut env logicalKey true isPressed).1 =
      (r.enabled && RelativeMouse.isExitShortcut env.platform logicalKey isPressed) := by
  unfold RelativeMouse.handleExitShortcut
  cases r.enabled <;>
    cases RelativeMouse.isExitShortcut env.platform logicalKey isPressed <;> simp [hcamera]

theorem handleExitShortcut_up {r : RelativeMouse} (hr : r.exitShortcutKeyDown = false)
    (logicalKey : LogicalKey) (isPressed : Modifier → Bool) :
    (r.handleExitShortcut env logicalKey false isPressed).1 = false := by
  unfold RelativeMouse.handleExitShortcut
  cases env.isViewCamera <;> cases r.enabled <;> simp [hr]

theorem handleExitShortcut_cleared {r : RelativeMouse} (hr : r.exitShortcutKeyDown = false)
    (logicalKey : LogicalKey) (isKeyDown : Bool) (isPressed : Modifier → Bool) :
    (r.handleExitShortcut env logicalKey isKeyDown isPressed).2.exitShortcutKeyDown = false := by
  unfold RelativeMouse.handleExitShortcut
  (repeat' split) <;> first | exact hr | rfl

theorem not_isViewCamera (h : filtered env raw k = false) : env.isViewCamera = false := by
  unfold filtered at h
  simp only [Bool.or_eq_false_iff] at h
  exact h.1.1.2

theorem handleKeyEvent_down (env : Env) (raw : Bool) (s : Keys) (k : Key) :
    (s.handleKeyEvent env raw k true).1 = (!filtered env raw k && !s.fires env raw k) := by
  unfold handleKeyEvent fires
  cases hfiltered : filtered env raw k with
  | true => rfl
  | false =>
    have hfires := handleExitShortcut_down s.mouse k.logicalKey (s.isPressed raw)
      (not_isViewCamera hfiltered)
    simp only [Bool.false_eq_true, if_false, hfires, Bool.not_false, Bool.and_true, Bool.true_and]
    cases s.mouse.enabled && RelativeMouse.isExitShortcut env.platform k.logicalKey
      (s.isPressed raw) <;> rfl

theorem handleKeyEvent_up (hs : s.mouse.exitShortcutKeyDown = false) (env : Env) (raw : Bool)
    (k : Key) : (s.handleKeyEvent env raw k false).1 = !filtered env raw k := by
  unfold handleKeyEvent
  cases hfiltered : filtered env raw k with
  | true => rfl
  | false => simp [handleExitShortcut_up hs]

theorem handleKeyEvent_cleared (hs : s.mouse.exitShortcutKeyDown = false) (env : Env) (raw : Bool)
    (k : Key) (isKeyDown : Bool) :
    (s.handleKeyEvent env raw k isKeyDown).2.mouse.exitShortcutKeyDown = false := by
  have hcleared : (s.mouse.handleExitShortcut env k.logicalKey isKeyDown
      (s.isPressed raw)).2.exitShortcutKeyDown = false :=
    handleExitShortcut_cleared hs k.logicalKey isKeyDown (s.isPressed raw)
  unfold handleKeyEvent
  split
  case isTrue => exact hs
  case isFalse =>
    simp only
    split
    case isTrue => exact hcleared
    case isFalse => exact hcleared

theorem handleKeyEvent_paired (env : Env) (raw : Bool) (s : Keys) (k : Key) (isKeyDown : Bool) :
    (s.handleKeyEvent env raw k isKeyDown).2.paired = s.paired := by
  unfold handleKeyEvent
  split
  case isTrue => rfl
  case isFalse =>
    simp only
    split <;> rfl

theorem inv_step (hi : Inv env raw s) (i : ModeInput) : Inv env raw (s.step env raw i) := by
  cases i with
  | down k =>
    have hdowns : ∀ j, ∀ d ∈ (s.step env raw (.down k)).downs j,
        d.passed = (!filtered env raw j && !d.fired) ∧
          (d.fired = true → filtered env raw j = false) := by
      intro j d hd
      simp only [step, Function.update_apply] at hd
      split at hd
      case isTrue hj =>
        cases hd
        subst hj
        refine ⟨handleKeyEvent_down env raw _ j, fun hfired => ?_⟩
        simp only [fires, Bool.and_eq_true, Bool.not_eq_true'] at hfired
        exact hfired.1.2
      case isFalse => exact ⟨hi.passed j d hd, hi.fired j d hd⟩
    exact ⟨handleKeyEvent_cleared (s := s.press k true) hi.cleared env raw k true,
      fun j d hd => (hdowns j d hd).1, fun j d hd => (hdowns j d hd).2⟩
  | up k =>
    have hdowns : ∀ j, ∀ d ∈ (s.step env raw (.up k)).downs j, d ∈ s.downs j := by
      intro j d hd
      simp only [step, Function.update_apply] at hd
      split at hd
      case isTrue => exact absurd hd (Option.not_mem_none d)
      case isFalse => exact hd
    exact ⟨handleKeyEvent_cleared (s := s.press k false) hi.cleared env raw k false,
      fun j d hd => hi.passed j d (hdowns j d hd), fun j d hd => hi.fired j d (hdowns j d hd)⟩
  | enable => exact ⟨hi.cleared, hi.passed, hi.fired⟩
  | disable => exact ⟨rfl, hi.passed, hi.fired⟩

/-- **One step** keeps key-downs and key-ups together exactly when it meets the condition. -/
theorem paired_step (hi : Inv env raw s) (hp : Paired s) (i : ModeInput) :
    (s.step env raw i).Paired ↔ s.Meets i := by
  cases i with
  | up k =>
    have hup := handleKeyEvent_up (s := s.press k false) hi.cleared env raw k
    have hpaired : (s.step env raw (.up k)).paired =
        (s.paired && (s.downs k).all fun d => (!filtered env raw k) = d.passed) := by
      rw [← hup]
      rfl
    rw [Paired, hpaired, show s.paired = true from hp, Bool.true_and, Meets]
    cases hdown : s.downs k with
    | none => simp
    | some d =>
      have hfired := hi.fired k d hdown
      simp only [Option.all_some, decide_eq_true_eq, hi.passed k d hdown, Option.mem_some_iff,
        forall_eq']
      cases hd : d.fired with
      | false => simp
      | true => simp [hfired hd]
  | down k =>
    refine iff_of_true ?_ trivial
    exact (handleKeyEvent_paired env raw (s.press k true) k true).trans hp
  | enable => exact iff_of_true hp trivial
  | disable => exact iff_of_true hp trivial

/-- **Every key-up goes the way of its key-down, exactly in the runs where no key goes up that
completed the exit shortcut in the mode when it went down**, whichever of the two handlers has
the events. -/
theorem paired_iff_along (env : Env) (raw : Bool) (is : List ModeInput) :
    Always (step env raw) Paired start is ↔ Along (step env raw) Meets start is :=
  always_iff_along_of_good (J := Inv env raw) (fun _ i hi _ _ => inv_step hi i)
    (fun _ i hi hp => paired_step hi hp i) inv_start rfl

/-- In the mode ctrl goes down, then alt, which leaves the mode, and alt goes up. -/
theorem orphan_key_up : ¬(exec (step ⟨.windows, false, false, true⟩ false) start
    [.enable, .down ⟨.other 0xe0, .controlLeft⟩, .down ⟨.other 0xe2, .altLeft⟩,
      .up ⟨.other 0xe2, .altLeft⟩]).Paired := by
  decide

end Keys
end RustDesk.ExitShortcut
