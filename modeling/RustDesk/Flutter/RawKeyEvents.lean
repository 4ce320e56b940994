import RustDesk.Flutter.KeyEvents

/-!
# The modifier keys of `RawKeyEvent`s

A raw event tells the modifiers that are pressed after it, and its handler goes by them: it
looks at alt, control, shift and meta in this order and stops at the first that is pressed.
A modifier key that goes down while one that comes before is pressed is not kept, and a key that
goes up is cleared only if its modifier is still pressed.

* `held_modifiers_tracked`: **the exact condition under which the modifier keys are tracked**,
  for the events of either kind.
-/

open HeldKeys Run

namespace RustDesk

open List

def Modifier.first (f : Modifier → Bool) : Option Modifier :=
  if f .alt then some .alt
  else if f .ctrl then some .ctrl
  else if f .shift then some .shift
  else if f .command then some .command
  else none

theorem Modifier.of_first {f : Modifier → Bool} {m : Modifier} (h : Modifier.first f = some m) :
    f m = true := by
  unfold Modifier.first at h
  split at h
  case isTrue halt => exact Option.some.inj h ▸ halt
  case isFalse =>
    split at h
    case isTrue hctrl => exact Option.some.inj h ▸ hctrl
    case isFalse =>
      split at h
      case isTrue hshift => exact Option.some.inj h ▸ hshift
      case isFalse =>
        split at h
        case isTrue hcommand => exact Option.some.inj h ▸ hcommand
        case isFalse => exact absurd h.symm (Option.some_ne_none m)

theorem LogicalKey.slot?_inj {j k : LogicalKey} (h : j.slot? = k.slot?)
    (hk : k.modifier? ≠ none) : j = k := by
  cases j <;> cases k <;> simp_all [slot?, modifier?]

theorem LogicalKey.slot?_eq_none_iff {k : LogicalKey} : k.slot? = none ↔ k.modifier? = none := by
  cases k <;> simp [slot?, modifier?]

namespace InputModel

variable {s : InputModel} {k : LogicalKey} {m : Modifier} {slot : Slot} {e : RawKeyEvent}

/-- `toReleaseRawKeys` has an event of the key. -/
def HasRawKey (s : InputModel) (k : LogicalKey) : Prop :=
  ∃ slot e, s.toReleaseRawKeys slot = some e ∧ e.logicalKey = k

theorem updateKey_eq (s : InputModel) (e : RawKeyEvent) (v : Option RawKeyEvent) :
    s.updateKey e v =
      match e.logicalKey.slot? with
      | some slot =>
        if Modifier.first e.isPressed = e.logicalKey.modifier? then s.setRawKey slot v else s
      | none => s := by
  obtain ⟨k, f⟩ := e
  unfold updateKey Modifier.first
  by_cases halt : f .alt = true
  · cases k <;> simp [halt, LogicalKey.slot?, LogicalKey.modifier?]
  by_cases hctrl : f .ctrl = true
  · cases k <;> simp [halt, hctrl, LogicalKey.slot?, LogicalKey.modifier?]
  by_cases hshift : f .shift = true
  · cases k <;> simp [halt, hctrl, hshift, LogicalKey.slot?, LogicalKey.modifier?]
  by_cases hcommand : f .command = true
  · cases k <;> simp [halt, hctrl, hshift, hcommand, LogicalKey.slot?, LogicalKey.modifier?]
  · cases k <;> simp [halt, hctrl, hshift, hcommand, LogicalKey.slot?, LogicalKey.modifier?]

theorem toReleaseRawKeys_updateKey (s : InputModel) (e : RawKeyEvent) (v : Option RawKeyEvent)
    (slot : Slot) :
    (s.updateKey e v).toReleaseRawKeys slot =
      if Modifier.first e.isPressed = e.logicalKey.modifier? ∧
          e.logicalKey.slot? = some slot then v
      else s.toReleaseRawKeys slot := by
  rw [updateKey_eq]
  cases hslot : e.logicalKey.slot? with
  | none => simp
  | some own =>
    by_cases hfirst : Modifier.first e.isPressed = e.logicalKey.modifier?
    · simp [hfirst, setRawKey, Function.update_apply, eq_comm]
    · simp [hfirst]

theorem updateKey_rest (s : InputModel) (e : RawKeyEvent) (v : Option RawKeyEvent) :
    (s.updateKey e v).modifier = s.modifier ∧
      (s.updateKey e v).toReleaseKeys = s.toReleaseKeys ∧
      (s.updateKey e v).forwarded = s.forwarded := by
  rw [updateKey_eq]
  cases e.logicalKey.slot? with
  | none => exact ⟨rfl, rfl, rfl⟩
  | some own =>
    by_cases hfirst : Modifier.first e.isPressed = e.logicalKey.modifier?
    · simp [hfirst, setRawKey]
    · simp [hfirst]

theorem handleRawKeyUp_eq (s : InputModel) (e : RawKeyEvent) :
    s.handleRawKeyUp e =
      ((match e.logicalKey.modifier? with
        | some m => s.setModifier m false
        | none => s).updateKey e none).forward (.release e.logicalKey) := by
  obtain ⟨k, f⟩ := e
  cases k <;> rfl

theorem modifier_rawKeyUp (s : InputModel) (e : RawKeyEvent) (m : Modifier) :
    (s.handleRawKeyUp e).modifier m =
      if e.logicalKey.modifier? = some m then false else s.modifier m := by
  rw [handleRawKeyUp_eq, forward, (updateKey_rest _ _ _).1]
  cases e.logicalKey.modifier? with
  | none => simp
  | some own => simp [setModifier, Function.update_apply, eq_comm]

theorem toReleaseRawKeys_rawKeyUp (s : InputModel) (e : RawKeyEvent) (slot : Slot) :
    (s.handleRawKeyUp e).toReleaseRawKeys slot =
      if Modifier.first e.isPressed = e.logicalKey.modifier? ∧
          e.logicalKey.slot? = some slot then none
      else s.toReleaseRawKeys slot := by
  rw [handleRawKeyUp_eq, forward, toReleaseRawKeys_updateKey]
  cases e.logicalKey.modifier? <;> rfl

theorem toReleaseKeys_rawKeyUp (s : InputModel) (e : RawKeyEvent) :
    (s.handleRawKeyUp e).toReleaseKeys = s.toReleaseKeys := by
  rw [handleRawKeyUp_eq, forward, (updateKey_rest _ _ _).2.1]
  cases e.logicalKey.modifier? <;> rfl

theorem forwarded_rawKeyUp (s : InputModel) (e : RawKeyEvent) :
    (s.handleRawKeyUp e).forwarded = .release e.logicalKey :: s.forwarded := by
  rw [handleRawKeyUp_eq, forward, (updateKey_rest _ _ _).2.2]
  cases e.logicalKey.modifier? <;> rfl

def setFlag (s : InputModel) (m? : Option Modifier) : InputModel :=
  match m? with
  | some m => s.setModifier m true
  | none => s

theorem modifier_setFlag (s : InputModel) (m? : Option Modifier) (m : Modifier) :
    (s.setFlag m?).modifier m = if m? = some m then true else s.modifier m := by
  cases m? with
  | none => simp [setFlag]
  | some own => simp [setFlag, setModifier, Function.update_apply, eq_comm]

theorem setFlag_rest (s : InputModel) (m? : Option Modifier) :
    (s.setFlag m?).toReleaseKeys = s.toReleaseKeys ∧
      (s.setFlag m?).toReleaseRawKeys = s.toReleaseRawKeys ∧
      (s.setFlag m?).forwarded = s.forwarded := by
  cases m? <;> exact ⟨rfl, rfl, rfl⟩

theorem handleRawKeyDown_eq (isMobile : Bool) (s : InputModel) (e : RawKeyEvent)
    (h : s.modifier .shift = true → e.isPressed .shift = true) :
    s.handleRawKeyDown isMobile e =
      ((s.setFlag (Modifier.first fun m => e.isPressed m && !s.modifier m)).updateKey e
        (some e)).forward (.press e.logicalKey) := by
  have hflag : s.setFlag (Modifier.first fun m => e.isPressed m && !s.modifier m) =
      if e.isPressed .alt && !s.modifier .alt then s.setModifier .alt true
      else if e.isPressed .ctrl && !s.modifier .ctrl then s.setModifier .ctrl true
      else if e.isPressed .shift && !s.modifier .shift then s.setModifier .shift true
      else if e.isPressed .command && !s.modifier .command then s.setModifier .command true
      else s := by
    unfold Modifier.first
    (repeat' split) <;> rfl
  have hshift : (s.setFlag (Modifier.first fun m =>
      e.isPressed m && !s.modifier m)).modifier .shift = true → e.isPressed .shift = true := by
    rw [modifier_setFlag]
    split
    case isTrue hfirst =>
      intro _
      exact (Bool.and_eq_true_iff.mp (Modifier.of_first hfirst)).1
    case isFalse => exact h
  unfold handleRawKeyDown
  simp only [← hflag, updateKeyDown]
  rw [if_neg]
  intro hstale
  unfold shouldReleaseStaleMobileShift at hstale
  rw [(updateKey_rest _ _ _).1] at hstale
  cases hpressed : e.isPressed .shift with
  | true => simp [hpressed] at hstale
  | false =>
    rw [hpressed] at hshift
    have hcached := Bool.eq_false_iff.mpr (mt hshift Bool.false_ne_true)
    simp [hcached] at hstale

theorem modifier_rawKeyUps (es : List RawKeyEvent) (s : InputModel) (m : Modifier) :
    (es.foldl handleRawKeyUp s).modifier m = true ↔
      s.modifier m = true ∧ ∀ e ∈ es, e.logicalKey.modifier? ≠ some m := by
  induction es generalizing s with
  | nil => simp
  | cons e es ih =>
    rw [foldl_cons, ih, modifier_rawKeyUp, forall_mem_cons]
    by_cases hk : e.logicalKey.modifier? = some m <;> simp [hk]

theorem toReleaseRawKeys_rawKeyUps (es : List RawKeyEvent) (s : InputModel) (slot : Slot)
    (v : RawKeyEvent) :
    (es.foldl handleRawKeyUp s).toReleaseRawKeys slot = some v ↔
      s.toReleaseRawKeys slot = some v ∧ ∀ e ∈ es,
        ¬(Modifier.first e.isPressed = e.logicalKey.modifier? ∧
          e.logicalKey.slot? = some slot) := by
  induction es generalizing s with
  | nil => simp
  | cons e es ih =>
    rw [foldl_cons, ih, toReleaseRawKeys_rawKeyUp, forall_mem_cons]
    split
    case isTrue h => simp [h]
    case isFalse h => simp [h]

theorem toReleaseKeys_rawKeyUps (es : List RawKeyEvent) (s : InputModel) :
    (es.foldl handleRawKeyUp s).toReleaseKeys = s.toReleaseKeys := by
  induction es generalizing s with
  | nil => rfl
  | cons e es ih => rw [foldl_cons, ih, toReleaseKeys_rawKeyUp]

theorem forwarded_rawKeyUps (es : List RawKeyEvent) (s : InputModel) :
    (es.foldl handleRawKeyUp s).forwarded =
      (es.map (·.logicalKey)).foldl (fun log k => .release k :: log) s.forwarded := by
  induction es generalizing s with
  | nil => rfl
  | cons e es ih => rw [foldl_cons, ih, forwarded_rawKeyUp, map_cons, foldl_cons]

end InputModel

structure RawKeyboard where
  model : InputModel
  pressed : LogicalKey → Bool

inductive RawKeyEventInput where
  | down (k : LogicalKey)
  | up (k : LogicalKey)
  | enterOrLeave (enter : Bool)

namespace RawKeyboard

def start : RawKeyboard := ⟨.start, fun _ => false⟩

def press (s : RawKeyboard) (k : LogicalKey) (b : Bool) : LogicalKey → Bool :=
  Function.update s.pressed k b

def event (k : LogicalKey) (pressed : LogicalKey → Bool) : RawKeyEvent :=
  ⟨k, fun m => m.keys.any pressed⟩

/-- The events of `handleRawKeyEvent`. -/
def step (isMobile : Bool) (s : RawKeyboard) : RawKeyEventInput → RawKeyboard
  | .down k =>
    ⟨s.model.handleRawKeyDown isMobile (event k (s.press k true)), s.press k true⟩
  | .up k => ⟨s.model.handleRawKeyUp (event k (s.press k false)), s.press k false⟩
  | .enterOrLeave enter => { s with model := s.model.enterOrLeave enter }

/-- The condition.  When a key goes down that the peer does not hold, its modifier is the first
that is pressed then; and of the modifiers that are pressed and not flagged, the first is the
key's own if that is not flagged, and there is none otherwise.  When a modifier key goes up that
the peer holds, its modifier is still the first that is pressed; and the peer holds no other key
for the modifier of a key that goes up. -/
def Meets (s : RawKeyboard) : RawKeyEventInput → Prop
  | .down k =>
    let isPressed := (event k (s.press k true)).isPressed
    (k.modifier? ≠ none → s.model.holds k = false → Modifier.first isPressed = k.modifier?) ∧
      Modifier.first (fun m => isPressed m && !s.model.modifier m) =
        k.modifier?.filter fun m => !s.model.modifier m
  | .up k =>
    let isPressed := (event k (s.press k false)).isPressed
    (k.modifier? ≠ none → s.model.holds k = true → Modifier.first isPressed = k.modifier?) ∧
      ∀ m, k.modifier? = some m → ∀ j ∈ m.keys, s.model.holds j = true → j = k
  | .enterOrLeave _ => True

structure Inv (s : RawKeyboard) : Prop where
  keys : ∀ slot, s.model.toReleaseKeys slot = none
  own : ∀ slot e, s.model.toReleaseRawKeys slot = some e →
    e.logicalKey.slot? = some slot ∧ Modifier.first e.isPressed = e.logicalKey.modifier?
  pressed : ∀ k, s.model.holds k = true → s.pressed k = true

def Fit (s : RawKeyboard) : Prop := s.model.Fits s.model.HasRawKey

def Tracked (s : RawKeyboard) : Prop := s.model.Tracked s.model.HasRawKey

variable {s : RawKeyboard} {j k : LogicalKey} {m : Modifier} {slot : Slot}

theorem inv_start : Inv start where
  keys _ := rfl
  own _ e h := absurd h.symm (Option.some_ne_none e)
  pressed _ h := Bool.noConfusion h

theorem mem_releases_iff :
    k ∈ (Slot.all.filterMap s.model.toReleaseRawKeys).map (·.logicalKey) ↔ s.model.HasRawKey k := by
  rw [mem_map]
  constructor
  · rintro ⟨e, he, hk⟩
    obtain ⟨slot, -, hslot⟩ := mem_filterMap.mp he
    exact ⟨slot, e, hslot, hk⟩
  · rintro ⟨slot, e, he, hk⟩
    exact ⟨e, mem_filterMap.mpr ⟨slot, by cases slot <;> decide, he⟩, hk⟩

theorem Inv.releaseKeys (hi : Inv s) : s.model.releaseKeys = s.model := by
  have hnone : s.model.toReleaseKeys = fun _ => none := funext hi.keys
  rw [InputModel.releaseKeys, hnone]
  simp

theorem Inv.enterOrLeave_eq (hi : Inv s) (enter : Bool) :
    s.model.enterOrLeave enter =
      if enter then s.model.releaseRawKeys else s.model.releaseRawKeys.resetModifiers := by
  rw [InputModel.enterOrLeave, hi.releaseKeys]

theorem Inv.forwarded_enterOrLeave (hi : Inv s) (enter : Bool) :
    (s.model.enterOrLeave enter).forwarded =
      ((Slot.all.filterMap s.model.toReleaseRawKeys).map (·.logicalKey)).foldl
        (fun log k => .release k :: log) s.model.forwarded := by
  rw [hi.enterOrLeave_eq, ← InputModel.forwarded_rawKeyUps]
  cases enter <;> rfl

theorem Inv.tracked_iff (hi : Inv s) : s.Tracked ↔ s.Fit := by
  refine ⟨fun h => h.toFits, fun h => ⟨h, fun enter => ?_⟩⟩
  refine ⟨_, hi.forwarded_enterOrLeave enter, fun k => ?_⟩
  rw [mem_releases_iff, h.slots]

theorem Inv.shift (hi : Inv s) (hf : Fit s) (k : LogicalKey) (h : s.model.modifier .shift = true) :
    (event k (s.press k true)).isPressed .shift = true := by
  obtain ⟨j, hj, hheld⟩ := (hf.flags .shift).mp h
  refine any_eq_true.mpr ⟨j, hj, ?_⟩
  rw [press, Function.update_apply, hi.pressed j hheld]
  exact ite_self _

theorem Inv.modifier_down (hi : Inv s) (hf : Fit s) (isMobile : Bool) (k : LogicalKey)
    (m : Modifier) :
    (s.step isMobile (.down k)).model.modifier m = true ↔
      s.model.modifier m = true ∨ Modifier.first (fun m =>
        (event k (s.press k true)).isPressed m && !s.model.modifier m) = some m := by
  rw [step, InputModel.handleRawKeyDown_eq _ _ _ (hi.shift hf k), InputModel.forward,
    (InputModel.updateKey_rest _ _ _).1, InputModel.modifier_setFlag]
  split
  case isTrue h => simp [h]
  case isFalse h => simp [h]

theorem Inv.toReleaseRawKeys_down (hi : Inv s) (hf : Fit s) (isMobile : Bool) (k : LogicalKey)
    (slot : Slot) :
    (s.step isMobile (.down k)).model.toReleaseRawKeys slot =
      if Modifier.first (event k (s.press k true)).isPressed = k.modifier? ∧
          k.slot? = some slot then some (event k (s.press k true))
      else s.model.toReleaseRawKeys slot := by
  rw [step, InputModel.handleRawKeyDown_eq _ _ _ (hi.shift hf k), InputModel.forward,
    InputModel.toReleaseRawKeys_updateKey, (InputModel.setFlag_rest _ _).2.1]
  rfl

theorem Inv.hasRawKey_down (hi : Inv s) (hf : Fit s) (isMobile : Bool) (k j : LogicalKey) :
    (s.step isMobile (.down k)).model.HasRawKey j ↔ s.model.HasRawKey j ∨
      j = k ∧ k.modifier? ≠ none ∧
        Modifier.first (event k (s.press k true)).isPressed = k.modifier? := by
  constructor
  · rintro ⟨slot, e, he, hj⟩
    rw [hi.toReleaseRawKeys_down hf] at he
    split at he
    case isTrue h =>
      cases he
      refine .inr ⟨hj.symm, fun hnone => ?_, h.1⟩
      rw [LogicalKey.slot?_eq_none_iff.mpr hnone] at h
      exact Option.some_ne_none slot h.2.symm
    case isFalse => exact .inl ⟨slot, e, he, hj⟩
  · rintro (⟨slot, e, he, hj⟩ | ⟨rfl, hmod, hfirst⟩)
    · by_cases h : Modifier.first (event k (s.press k true)).isPressed = k.modifier? ∧
          k.slot? = some slot
      · -- the slot has an event of the same key
        have hsame := LogicalKey.slot?_inj ((hi.own slot e he).1.trans h.2.symm) (fun hnone => by
          rw [LogicalKey.slot?_eq_none_iff.mpr hnone] at h
          exact Option.some_ne_none slot h.2.symm)
        refine ⟨slot, event k (s.press k true), ?_, hsame.symm.trans hj⟩
        rw [hi.toReleaseRawKeys_down hf, if_pos h]
      · refine ⟨slot, e, ?_, hj⟩
        rw [hi.toReleaseRawKeys_down hf, if_neg h]
        exact he
    · obtain ⟨slot, hslot⟩ := Option.ne_none_iff_exists'.mp
        (mt LogicalKey.slot?_eq_none_iff.mp hmod)
      refine ⟨slot, event j (s.press j true), ?_, rfl⟩
      rw [hi.toReleaseRawKeys_down hf, if_pos ⟨hfirst, hslot⟩]

theorem Inv.holds_down (hi : Inv s) (hf : Fit s) (isMobile : Bool) (k j : LogicalKey) :
    (s.step isMobile (.down k)).model.holds j = true ↔ j = k ∨ s.model.holds j = true := by
  rw [step, InputModel.handleRawKeyDown_eq _ _ _ (hi.shift hf k), InputModel.forward,
    InputModel.holds, (InputModel.updateKey_rest _ _ _).2.2, (InputModel.setFlag_rest _ _).2.2,
    held_press]
  rfl

theorem first_eq_filter_iff {f flags : Modifier → Bool} {m? : Option Modifier} :
    (Modifier.first fun m => f m && !flags m) = m?.filter (fun m => !flags m) ↔
      ∀ m, flags m = false →
        ((Modifier.first fun m => f m && !flags m) = some m ↔ m? = some m) := by
  have hunset : ∀ m, (Modifier.first fun m => f m && !flags m) = some m → flags m = false :=
    fun m h => by simpa using (Bool.and_eq_true_iff.mp (Modifier.of_first h)).2
  constructor
  · intro h m hm
    rw [h, Option.filter_eq_some_iff]
    simp [hm]
  · intro h
    ext m
    rw [Option.filter_eq_some_iff]
    constructor
    · intro hfirst
      exact ⟨(h m (hunset m hfirst)).mp hfirst, by simpa using hunset m hfirst⟩
    · rintro ⟨hm, hflag⟩
      exact (h m (by simpa using hflag)).mpr hm

theorem Inv.fit_down (hi : Inv s) (hf : Fit s) (isMobile : Bool) (k : LogicalKey) :
    (s.step isMobile (.down k)).Fit ↔ s.Meets (.down k) := by
  have hslots : (∀ j, (s.step isMobile (.down k)).model.HasRawKey j ↔
      j.modifier? ≠ none ∧ (s.step isMobile (.down k)).model.holds j = true) ↔
      (k.modifier? ≠ none → s.model.holds k = false →
        Modifier.first (event k (s.press k true)).isPressed = k.modifier?) := by
    simp only [hi.hasRawKey_down hf, hi.holds_down hf, hf.slots]
    constructor
    · intro h hmod hheld
      rcases (h k).mpr ⟨hmod, .inl rfl⟩ with ⟨-, hold⟩ | ⟨-, -, hfirst⟩
      · exact Bool.noConfusion (hheld.symm.trans hold)
      · exact hfirst
    · intro h j
      constructor
      · rintro (⟨hmod, hold⟩ | ⟨rfl, hmod, -⟩)
        · exact ⟨hmod, .inr hold⟩
        · exact ⟨hmod, .inl rfl⟩
      · rintro ⟨hmod, rfl | hold⟩
        · cases hheld : s.model.holds j with
          | true => exact .inl ⟨hmod, rfl⟩
          | false => exact .inr ⟨rfl, hmod, h hmod hheld⟩
        · exact .inl ⟨hmod, hold⟩
  have hflags : (∀ m, (s.step isMobile (.down k)).model.modifier m = true ↔
      ∃ j ∈ m.keys, (s.step isMobile (.down k)).model.holds j = true) ↔
      (Modifier.first (fun m =>
          (event k (s.press k true)).isPressed m && !s.model.modifier m) =
        k.modifier?.filter fun m => !s.model.modifier m) := by
    rw [first_eq_filter_iff]
    refine forall_congr' fun m => ?_
    have hheld : (∃ j ∈ m.keys, (s.step isMobile (.down k)).model.holds j = true) ↔
        k.modifier? = some m ∨ s.model.modifier m = true := by
      rw [hf.flags]
      constructor
      · rintro ⟨j, hj, hheld⟩
        rcases (hi.holds_down hf isMobile k j).mp hheld with rfl | hold
        · exact .inl (LogicalKey.mem_keys_iff.mp hj)
        · exact .inr ⟨j, hj, hold⟩
      · rintro (hk | ⟨j, hj, hold⟩)
        · exact ⟨k, LogicalKey.mem_keys_iff.mpr hk, (hi.holds_down hf ..).mpr (.inl rfl)⟩
        · exact ⟨j, hj, (hi.holds_down hf ..).mpr (.inr hold)⟩
    rw [hheld, hi.modifier_down hf]
    cases s.model.modifier m <;> simp
  exact ⟨fun h => ⟨hslots.mp h.slots, hflags.mp h.flags⟩, fun h => ⟨hslots.mpr h.1, hflags.mpr h.2⟩⟩

theorem Inv.hasRawKey_up (hi : Inv s) (isMobile : Bool) (k j : LogicalKey) :
    (s.step isMobile (.up k)).model.HasRawKey j ↔ s.model.HasRawKey j ∧
      ¬(j = k ∧ Modifier.first (event k (s.press k false)).isPressed = k.modifier?) := by
  constructor
  · rintro ⟨slot, e, he, hj⟩
    rw [step, InputModel.toReleaseRawKeys_rawKeyUp] at he
    split at he
    case isTrue => exact absurd he.symm (Option.some_ne_none e)
    case isFalse h =>
      refine ⟨⟨slot, e, he, hj⟩, ?_⟩
      rintro ⟨rfl, hfirst⟩
      exact h ⟨hfirst, hj ▸ (hi.own slot e he).1⟩
  · rintro ⟨⟨slot, e, he, hj⟩, hnot⟩
    refine ⟨slot, e, ?_, hj⟩
    rw [step, InputModel.toReleaseRawKeys_rawKeyUp, if_neg, he]
    rintro ⟨hfirst, hslot⟩
    refine hnot ⟨?_, hfirst⟩
    rw [← hj]
    refine LogicalKey.slot?_inj ((hi.own slot e he).1.trans hslot.symm) fun hnone => ?_
    rw [event, LogicalKey.slot?_eq_none_iff.mpr hnone] at hslot
    exact Option.some_ne_none slot hslot.symm

theorem holds_up (s : RawKeyboard) (isMobile : Bool) (k j : LogicalKey) :
    (s.step isMobile (.up k)).model.holds j = true ↔ j ≠ k ∧ s.model.holds j = true := by
  rw [step, InputModel.holds, InputModel.forwarded_rawKeyUp, held_release]
  rfl

theorem Inv.fit_up (hi : Inv s) (hf : Fit s) (isMobile : Bool) (k : LogicalKey) :
    (s.step isMobile (.up k)).Fit ↔ s.Meets (.up k) := by
  have hslots : (∀ j, (s.step isMobile (.up k)).model.HasRawKey j ↔
      j.modifier? ≠ none ∧ (s.step isMobile (.up k)).model.holds j = true) ↔
      (k.modifier? ≠ none → s.model.holds k = true →
        Modifier.first (event k (s.press k false)).isPressed = k.modifier?) := by
    simp only [hi.hasRawKey_up, holds_up, hf.slots]
    constructor
    · intro h hmod hheld
      by_contra hfirst
      exact ((h k).mp ⟨⟨hmod, hheld⟩, fun hk => hfirst hk.2⟩).2.1 rfl
    · intro h j
      constructor
      · rintro ⟨⟨hmod, hheld⟩, hnot⟩
        refine ⟨hmod, ?_, hheld⟩
        rintro rfl
        exact hnot ⟨rfl, h hmod hheld⟩
      · rintro ⟨hmod, hne, hheld⟩
        exact ⟨⟨hmod, hheld⟩, fun hk => hne hk.1⟩
  have hflags : (∀ m, (s.step isMobile (.up k)).model.modifier m = true ↔
      ∃ j ∈ m.keys, (s.step isMobile (.up k)).model.holds j = true) ↔
      ∀ m, k.modifier? = some m → ∀ j ∈ m.keys, s.model.holds j = true → j = k := by
    refine forall_congr' fun m => ?_
    simp only [holds_up]
    rw [step, InputModel.modifier_rawKeyUp, event]
    by_cases hk : k.modifier? = some m
    · simp only [hk, if_true, Bool.false_eq_true, false_iff, not_exists, true_implies]
      refine forall_congr' fun j => ?_
      constructor
      · intro h hj hheld
        by_contra hne
        exact h ⟨hj, hne, hheld⟩
      · rintro h ⟨hj, hne, hheld⟩
        exact hne (h hj hheld)
    · refine iff_of_true ?_ fun h => absurd h hk
      rw [if_neg hk, hf.flags]
      refine exists_congr fun j => and_congr_right fun hj => ?_
      refine (and_iff_right ?_).symm
      rintro rfl
      exact hk (LogicalKey.mem_keys_iff.mp hj)
  exact ⟨fun h => ⟨hslots.mp h.slots, hflags.mp h.flags⟩, fun h => ⟨hslots.mpr h.1, hflags.mpr h.2⟩⟩

theorem Inv.holds_enterOrLeave (hi : Inv s) (enter : Bool) (j : LogicalKey) :
    (s.model.enterOrLeave enter).holds j = true ↔
      s.model.holds j = true ∧ ¬s.model.HasRawKey j := by
  rw [InputModel.holds, hi.forwarded_enterOrLeave, held_releases, mem_releases_iff]
  rfl

theorem Inv.cleared (hi : Inv s) (enter : Bool) (j : LogicalKey) :
    ¬(s.model.enterOrLeave enter).HasRawKey j := by
  rintro ⟨slot, e, he, -⟩
  have hrelease : s.model.releaseRawKeys.toReleaseRawKeys slot = some e := by
    rw [hi.enterOrLeave_eq] at he
    cases enter <;> exact he
  obtain ⟨hold, hclear⟩ := (InputModel.toReleaseRawKeys_rawKeyUps _ _ slot e).mp hrelease
  refine hclear e (mem_filterMap.mpr ⟨slot, by cases slot <;> decide, hold⟩) ?_
  exact ⟨(hi.own slot e hold).2, (hi.own slot e hold).1⟩

theorem Inv.fit_enterOrLeave (hi : Inv s) (hf : Fit s) (isMobile enter : Bool) :
    (s.step isMobile (.enterOrLeave enter)).Fit := by
  have hnone : ∀ j, j.modifier? ≠ none → (s.model.enterOrLeave enter).holds j ≠ true :=
    fun j hmod hheld => by
      obtain ⟨hold, hnot⟩ := (hi.holds_enterOrLeave enter j).mp hheld
      exact hnot ((hf.slots j).mpr ⟨hmod, hold⟩)
  refine ⟨fun j => iff_of_false (hi.cleared enter j) fun h => hnone j h.1 h.2, fun m => ?_⟩
  refine iff_of_false (fun hflag => ?_) ?_
  · have hrelease : s.model.releaseRawKeys.modifier m = true := by
      rw [step, hi.enterOrLeave_eq] at hflag
      cases enter with
      | true => exact hflag
      | false => cases hflag
    obtain ⟨hold, hclear⟩ := (InputModel.modifier_rawKeyUps _ _ m).mp hrelease
    obtain ⟨j, hj, hheld⟩ := (hf.flags m).mp hold
    have hjm := LogicalKey.mem_keys_iff.mp hj
    obtain ⟨slot, e, he, rfl⟩ := (hf.slots j).mpr ⟨by rw [hjm]; exact Option.some_ne_none m, hheld⟩
    exact hclear e (mem_filterMap.mpr ⟨slot, by cases slot <;> decide, he⟩) hjm
  · rintro ⟨j, hj, hheld⟩
    refine hnone j ?_ hheld
    rw [LogicalKey.mem_keys_iff.mp hj]
    exact Option.some_ne_none m

theorem inv_step (isMobile : Bool) (hi : Inv s) (hf : Fit s) (i : RawKeyEventInput) :
    Inv (s.step isMobile i) := by
  cases i with
  | down k =>
    refine ⟨fun slot => ?_, fun slot e he => ?_, fun j hj => ?_⟩
    · rw [step, InputModel.handleRawKeyDown_eq _ _ _ (hi.shift hf k), InputModel.forward,
        (InputModel.updateKey_rest _ _ _).2.1, (InputModel.setFlag_rest _ _).1]
      exact hi.keys slot
    · rw [hi.toReleaseRawKeys_down hf] at he
      split at he
      case isTrue h =>
        cases he
        exact ⟨h.2, h.1⟩
      case isFalse => exact hi.own slot e he
    · show s.press k true j = true
      rw [press, Function.update_apply]
      rcases (hi.holds_down hf isMobile k j).mp hj with rfl | hold
      · exact if_pos rfl
      · rw [hi.pressed j hold]
        exact ite_self _
  | up k =>
    refine ⟨fun slot => ?_, fun slot e he => ?_, fun j hj => ?_⟩
    · rw [step, InputModel.toReleaseKeys_rawKeyUp]
      exact hi.keys slot
    · rw [step, InputModel.toReleaseRawKeys_rawKeyUp] at he
      split at he
      case isTrue => exact absurd he.symm (Option.some_ne_none e)
      case isFalse => exact hi.own slot e he
    · obtain ⟨hne, hold⟩ := (holds_up s isMobile k j).mp hj
      show s.press k false j = true
      rw [press, Function.update_of_ne hne]
      exact hi.pressed j hold
  | enterOrLeave enter =>
    refine ⟨fun slot => ?_, fun slot e he => ?_, fun j hj => ?_⟩
    · rw [step, hi.enterOrLeave_eq]
      have hkeys : s.model.releaseRawKeys.toReleaseKeys slot = none := by
        rw [InputModel.releaseRawKeys, InputModel.toReleaseKeys_rawKeyUps]
        exact hi.keys slot
      cases enter <;> exact hkeys
    · exact absurd ⟨slot, e, he, rfl⟩ (hi.cleared enter e.logicalKey)
    · exact hi.pressed j ((hi.holds_enterOrLeave enter j).mp hj).1

/-- **One step** keeps what the model owes the peer exactly when it meets the condition. -/
theorem tracked_step (isMobile : Bool) (hi : Inv s) (ht : Tracked s) (i : RawKeyEventInput) :
    (s.step isMobile i).Tracked ↔ s.Meets i := by
  have hf := hi.tracked_iff.mp ht
  rw [(inv_step isMobile hi hf i).tracked_iff]
  cases i with
  | down k => exact hi.fit_down hf isMobile k
  | up k => exact hi.fit_up hf isMobile k
  | enterOrLeave enter => exact iff_of_true (hi.fit_enterOrLeave hf isMobile enter) trivial

theorem tracked_start : Tracked start :=
  inv_start.tracked_iff.mpr
    ⟨fun _ => iff_of_false (fun ⟨_, e, h, _⟩ => Option.some_ne_none e h.symm)
        (fun h => Bool.noConfusion h.2),
      fun _ => iff_of_false Bool.noConfusion (fun ⟨_, _, h⟩ => Bool.noConfusion h)⟩

theorem tracked_iff_along (isMobile : Bool) (is : List RawKeyEventInput) :
    Always (step isMobile) Tracked start is ↔ Along (step isMobile) Meets start is :=
  always_iff_along_of_good (J := Inv)
    (fun _ i hi ht _ => inv_step isMobile hi (hi.tracked_iff.mp ht) i)
    (fun _ i hi ht => tracked_step isMobile hi ht i) inv_start tracked_start

end RawKeyboard

/-- **The modifier keys are tracked exactly in the runs that meet the condition**, with the events
of `handleKeyEvent` and with those of `handleRawKeyEvent`. -/
theorem held_modifiers_tracked (isMobile : Bool) :
    (∀ is, Always (InputModel.step isMobile) InputModel.KeysTracked .start is ↔
      Along (InputModel.step isMobile) InputModel.Meets .start is) ∧
    ∀ is, Always (RawKeyboard.step isMobile) RawKeyboard.Tracked .start is ↔
      Along (RawKeyboard.step isMobile) RawKeyboard.Meets .start is :=
  ⟨InputModel.tracked_iff_along isMobile, RawKeyboard.tracked_iff_along isMobile⟩

/-- The right alt goes down and up, and is still to be released. -/
theorem right_alt_not_tracked : ¬(exec (InputModel.step false) .start
    [.down .altRight false, .up .altRight]).KeysTracked := by
  intro h
  have hup := (h.slots .altRight).mp ⟨.lastLAltKeyEvent, rfl⟩
  exact absurd hup.2 (by decide)

end RustDesk
