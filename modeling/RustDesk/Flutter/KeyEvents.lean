import RustDesk.Flutter.InputModel
import RustDesk.Lib.Run

/-!
# The modifier keys of `KeyEvent`s

What `InputModel` keeps of the modifier keys is compared with what the peer holds.
`Tracked` is what it owes: a key-up for each modifier key the peer holds and for no other, each
flag set when a key of it is held, so that entering or leaving the image releases these keys.

A right alt is kept where the left one belongs, and a key-up clears the flag also while the
other key for it is held.
-/

open HeldKeys Run

namespace RustDesk

open List

namespace LogicalKey

def slot? : LogicalKey → Option Slot
  | altLeft => some .lastLAltKeyEvent
  | altRight => some .lastRAltKeyEvent
  | controlLeft => some .lastLCtrlKeyEvent
  | controlRight => some .lastRCtrlKeyEvent
  | shiftLeft => some .lastLShiftKeyEvent
  | shiftRight => some .lastRShiftKeyEvent
  | metaLeft => some .lastLCommandKeyEvent
  | metaRight => some .lastRCommandKeyEvent
  | superKey => some .lastSuperKeyEvent
  | other _ => none

/-- The slot that a key-down of a `KeyEvent` fills. -/
def downSlot? : LogicalKey → Option Slot
  | altRight => some .lastLAltKeyEvent
  | k => k.slot?

theorem mem_keys_iff {k : LogicalKey} {m : Modifier} : k ∈ m.keys ↔ k.modifier? = some m := by
  cases k <;> cases m <;> simp [Modifier.keys, modifier?]

theorem downSlot?_eq_none_iff {k : LogicalKey} : k.downSlot? = none ↔ k.modifier? = none := by
  cases k <;> simp [downSlot?, slot?, modifier?]

theorem downSlot?_inj {j k : LogicalKey} (h : j.downSlot? = k.downSlot?)
    (hk : k.modifier? ≠ none) (hne : j ≠ k) :
    j = altLeft ∧ k = altRight ∨ j = altRight ∧ k = altLeft := by
  cases j <;> cases k <;> simp_all [downSlot?, slot?, modifier?]

theorem downSlot?_eq_slot? {k : LogicalKey} (h : k ≠ altRight) : k.downSlot? = k.slot? := by
  cases k <;> first | rfl | exact absurd rfl h

theorem modifier?_of_slot? {j k : LogicalKey} (h : k.slot? = j.downSlot?) :
    k.modifier? = j.modifier? := by
  cases j <;> cases k <;> simp_all [downSlot?, slot?, modifier?]

end LogicalKey

namespace InputModel

variable {s : InputModel} {k : LogicalKey} {m : Modifier} {slot : Slot} {ks : List LogicalKey}

/-- The model fits what the peer holds, `hasKeyUp` being the keys it has a key-up of. -/
structure Fits (s : InputModel) (hasKeyUp : LogicalKey → Prop) : Prop where
  slots : ∀ k, hasKeyUp k ↔ k.modifier? ≠ none ∧ s.holds k = true
  flags : ∀ m, s.modifier m = true ↔ ∃ k ∈ m.keys, s.holds k = true

/-- The slots and flags say what is held, and leaving the window releases it. -/
structure Tracked (s : InputModel) (hasKeyUp : LogicalKey → Prop) : Prop
    extends Fits s hasKeyUp where
  released : ∀ enter, ∃ ks : List LogicalKey,
    (s.enterOrLeave enter).forwarded = ks.foldl (fun log k => .release k :: log) s.forwarded ∧
      ∀ k, k ∈ ks ↔ k.modifier? ≠ none ∧ s.holds k = true

/-- `toReleaseKeys` has a key-up of the key. -/
def HasKeyUp (s : InputModel) (k : LogicalKey) : Prop := ∃ slot, s.toReleaseKeys slot = some k

theorem modifier_keyDown (s : InputModel) (k : LogicalKey) (m : Modifier) :
    (s.handleKeyDownEventModifiers k).modifier m =
      if k.modifier? = some m then true else s.modifier m := by
  cases k <;> cases m <;>
    simp [handleKeyDownEventModifiers, setKey, setModifier, LogicalKey.modifier?]

theorem toReleaseKeys_keyDown (s : InputModel) (k : LogicalKey) (slot : Slot) :
    (s.handleKeyDownEventModifiers k).toReleaseKeys slot =
      if k.downSlot? = some slot then some k else s.toReleaseKeys slot := by
  cases k <;>
    simp [handleKeyDownEventModifiers, setKey, setModifier, LogicalKey.downSlot?,
      LogicalKey.slot?, Function.update_apply, eq_comm]

theorem toReleaseRawKeys_keyDown (s : InputModel) (k : LogicalKey) :
    (s.handleKeyDownEventModifiers k).toReleaseRawKeys = s.toReleaseRawKeys := by
  cases k <;> rfl

theorem forwarded_keyDown (s : InputModel) (k : LogicalKey) :
    (s.handleKeyDownEventModifiers k).forwarded = s.forwarded := by
  cases k <;> rfl

theorem modifier_keyUp (s : InputModel) (k : LogicalKey) (m : Modifier) :
    (s.handleKeyUp k).modifier m = if k.modifier? = some m then false else s.modifier m := by
  cases k <;> cases m <;>
    simp [handleKeyUp, handleKeyUpEventModifiers, forward, setKey, setModifier,
      LogicalKey.modifier?]

theorem toReleaseKeys_keyUp (s : InputModel) (k : LogicalKey) (slot : Slot) :
    (s.handleKeyUp k).toReleaseKeys slot =
      if k.slot? = some slot then none else s.toReleaseKeys slot := by
  cases k <;>
    simp [handleKeyUp, handleKeyUpEventModifiers, forward, setKey, setModifier,
      LogicalKey.slot?, Function.update_apply, eq_comm]

theorem toReleaseRawKeys_keyUp (s : InputModel) (k : LogicalKey) :
    (s.handleKeyUp k).toReleaseRawKeys = s.toReleaseRawKeys := by
  cases k <;> rfl

theorem forwarded_keyUp (s : InputModel) (k : LogicalKey) :
    (s.handleKeyUp k).forwarded = .release k :: s.forwarded := by
  cases k <;> rfl

theorem modifier_keyUps (ks : List LogicalKey) (s : InputModel) (m : Modifier) :
    (ks.foldl handleKeyUp s).modifier m = true ↔
      s.modifier m = true ∧ ∀ k ∈ ks, k.modifier? ≠ some m := by
  induction ks generalizing s with
  | nil => simp
  | cons k ks ih =>
    rw [foldl_cons, ih, modifier_keyUp, forall_mem_cons]
    by_cases hk : k.modifier? = some m <;> simp [hk]

theorem toReleaseKeys_keyUps (ks : List LogicalKey) (s : InputModel) (slot : Slot)
    (e : LogicalKey) :
    (ks.foldl handleKeyUp s).toReleaseKeys slot = some e ↔
      s.toReleaseKeys slot = some e ∧ ∀ k ∈ ks, k.slot? ≠ some slot := by
  induction ks generalizing s with
  | nil => simp
  | cons k ks ih =>
    rw [foldl_cons, ih, toReleaseKeys_keyUp, forall_mem_cons]
    by_cases hk : k.slot? = some slot <;> simp [hk]

theorem toReleaseRawKeys_keyUps (ks : List LogicalKey) (s : InputModel) :
    (ks.foldl handleKeyUp s).toReleaseRawKeys = s.toReleaseRawKeys := by
  induction ks generalizing s with
  | nil => rfl
  | cons k ks ih => rw [foldl_cons, ih, toReleaseRawKeys_keyUp]

theorem forwarded_keyUps (ks : List LogicalKey) (s : InputModel) :
    (ks.foldl handleKeyUp s).forwarded = ks.foldl (fun log k => .release k :: log) s.forwarded := by
  induction ks generalizing s with
  | nil => rfl
  | cons k ks ih => rw [foldl_cons, ih, forwarded_keyUp, foldl_cons]

theorem holds_keyUps : (ks.foldl handleKeyUp s).holds k = true ↔ s.holds k = true ∧ k ∉ ks := by
  rw [holds, forwarded_keyUps, held_releases]
  rfl

theorem handleKeyDown_eq (isMobile : Bool) (s : InputModel) (k : LogicalKey)
    (isShiftPressed : Bool) :
    ∃ ks : List LogicalKey, s.handleKeyDown isMobile k isShiftPressed =
        (ks.foldl handleKeyUp (s.handleKeyDownEventModifiers k)).forward (.press k) ∧
      (ks = [] ∨ k.modifier? ≠ some .shift ∧
        ks = [Slot.lastLShiftKeyEvent, .lastRShiftKeyEvent].filterMap s.toReleaseKeys) := by
  simp only [handleKeyDown]
  split
  case isTrue hstale =>
    refine ⟨_, rfl, .inr ?_⟩
    have hk : k.modifier? ≠ some .shift := by
      intro hshift
      cases k <;> simp_all [shouldReleaseStaleMobileShift, LogicalKey.modifier?]
    refine ⟨hk, ?_⟩
    have hl : k.downSlot? ≠ some .lastLShiftKeyEvent := by
      cases k <;> simp_all [LogicalKey.downSlot?, LogicalKey.slot?, LogicalKey.modifier?]
    have hr : k.downSlot? ≠ some .lastRShiftKeyEvent := by
      cases k <;> simp_all [LogicalKey.downSlot?, LogicalKey.slot?, LogicalKey.modifier?]
    simp [filterMap_cons, toReleaseKeys_keyDown, hl, hr]
  case isFalse => exact ⟨[], rfl, .inl rfl⟩

end InputModel

/-- What happens: a key goes down, with what `HardwareKeyboard` says of shift, or up; the
pointer enters or leaves the image. -/
inductive KeyEventInput where
  | down (k : LogicalKey) (isShiftPressed : Bool)
  | up (k : LogicalKey)
  | enterOrLeave (enter : Bool)

namespace InputModel

/-- The events of `handleKeyEvent`. -/
def step (isMobile : Bool) (s : InputModel) : KeyEventInput → InputModel
  | .down k isShiftPressed => s.handleKeyDown isMobile k isShiftPressed
  | .up k => s.handleKeyUp k
  | .enterOrLeave enter => s.enterOrLeave enter

/-- The condition: no alt goes down while the peer holds the other one, no key goes up while the
peer holds another key for the same modifier, and the peer does not hold the right alt when that
goes up or the pointer enters or leaves. -/
def Meets (s : InputModel) : KeyEventInput → Prop
  | .down k _ => (k = .altLeft → s.holds .altRight = false) ∧
      (k = .altRight → s.holds .altLeft = false)
  | .up k => (k = .altRight → s.holds .altRight = false) ∧
      ∀ m, k.modifier? = some m → ∀ j ∈ m.keys, s.holds j = true → j = k
  | .enterOrLeave _ => s.holds .altRight = false

structure Inv (s : InputModel) : Prop where
  raw : ∀ slot, s.toReleaseRawKeys slot = none
  own : ∀ slot k, s.toReleaseKeys slot = some k → k.downSlot? = some slot

def KeysFit (s : InputModel) : Prop := s.Fits s.HasKeyUp

def KeysTracked (s : InputModel) : Prop := s.Tracked s.HasKeyUp

variable {s : InputModel} {k j : LogicalKey} {m : Modifier} {slot : Slot}

theorem inv_start : Inv start where
  raw _ := rfl
  own _ k h := absurd h.symm (Option.some_ne_none k)

theorem Inv.mem_shifts (hi : Inv s) :
    k ∈ [Slot.lastLShiftKeyEvent, .lastRShiftKeyEvent].filterMap s.toReleaseKeys ↔
      k.modifier? = some .shift ∧ s.HasKeyUp k := by
  rw [mem_filterMap]
  constructor
  · rintro ⟨slot, hslot, hk⟩
    have hown := hi.own slot k hk
    refine ⟨?_, slot, hk⟩
    rcases mem_cons.mp hslot with rfl | hslot
    · cases k <;> simp_all [LogicalKey.downSlot?, LogicalKey.slot?, LogicalKey.modifier?]
    · rw [mem_singleton] at hslot
      cases k <;> simp_all [LogicalKey.downSlot?, LogicalKey.slot?, LogicalKey.modifier?]
  · rintro ⟨hshift, slot, hk⟩
    refine ⟨slot, ?_, hk⟩
    have hown := hi.own slot k hk
    cases k <;> simp_all [LogicalKey.downSlot?, LogicalKey.slot?, LogicalKey.modifier?]

/-- What a key-down does: `ks` are the stale shifts that it releases. -/
structure Downed (s t : InputModel) (k : LogicalKey) (ks : List LogicalKey) : Prop where
  modifier : ∀ m, t.modifier m = true ↔
    (k.modifier? = some m ∨ s.modifier m = true) ∧ ∀ j ∈ ks, j.modifier? ≠ some m
  slots : ∀ slot j, t.toReleaseKeys slot = some j ↔
    (if k.downSlot? = some slot then k = j else s.toReleaseKeys slot = some j) ∧
      ∀ i ∈ ks, i.slot? ≠ some slot
  raw : t.toReleaseRawKeys = s.toReleaseRawKeys
  holds : ∀ j, t.holds j = true ↔ j = k ∨ s.holds j = true ∧ j ∉ ks
  stale : ks = [] ∨ k.modifier? ≠ some .shift ∧
    ∀ j, j ∈ ks ↔ j.modifier? = some .shift ∧ s.HasKeyUp j

theorem Inv.downed (hi : Inv s) (isMobile : Bool) (k : LogicalKey) (isShiftPressed : Bool) :
    ∃ ks, Downed s (s.step isMobile (.down k isShiftPressed)) k ks := by
  obtain ⟨ks, heq, hks⟩ := s.handleKeyDown_eq isMobile k isShiftPressed
  refine ⟨ks, ?_, ?_, ?_, ?_, ?_⟩
  · intro m
    simp only [step, heq, forward, modifier_keyUps, modifier_keyDown]
    by_cases hm : k.modifier? = some m <;> simp [hm]
  · intro slot j
    simp only [step, heq, forward, toReleaseKeys_keyUps, toReleaseKeys_keyDown]
    by_cases hslot : k.downSlot? = some slot <;> simp [hslot]
  · simp only [step, heq, forward, toReleaseRawKeys_keyUps,
      toReleaseRawKeys_keyDown]
  · intro j
    simp only [step, heq, forward, holds, held_press,
      forwarded_keyUps, held_releases, forwarded_keyDown]
  · rcases hks with hnil | ⟨hk, rfl⟩
    · exact .inl hnil
    · exact .inr ⟨hk, fun j => hi.mem_shifts⟩

theorem mem_releases_iff : k ∈ Slot.all.filterMap s.toReleaseKeys ↔ s.HasKeyUp k := by
  rw [mem_filterMap]
  constructor
  · rintro ⟨slot, -, h⟩
    exact ⟨slot, h⟩
  · rintro ⟨slot, h⟩
    exact ⟨slot, by cases slot <;> decide, h⟩

theorem Inv.releaseRawKeys (hi : Inv s) : s.releaseKeys.releaseRawKeys = s.releaseKeys := by
  have hnone : s.releaseKeys.toReleaseRawKeys = fun _ => none := by
    rw [releaseKeys, toReleaseRawKeys_keyUps]
    exact funext hi.raw
  rw [InputModel.releaseRawKeys, hnone]
  simp

theorem Inv.forwarded_enterOrLeave (hi : Inv s) (enter : Bool) :
    (s.enterOrLeave enter).forwarded = s.releaseKeys.forwarded := by
  unfold enterOrLeave
  rw [hi.releaseRawKeys]
  cases enter <;> rfl

theorem Inv.toReleaseKeys_enterOrLeave (hi : Inv s) (enter : Bool) :
    (s.enterOrLeave enter).toReleaseKeys = s.releaseKeys.toReleaseKeys := by
  unfold enterOrLeave
  rw [hi.releaseRawKeys]
  cases enter <;> rfl

theorem Inv.tracked_iff (hi : Inv s) : s.KeysTracked ↔ s.KeysFit := by
  refine ⟨fun h => h.toFits, fun h => ⟨h, fun enter => ?_⟩⟩
  refine ⟨Slot.all.filterMap s.toReleaseKeys, ?_, fun k => ?_⟩
  · rw [hi.forwarded_enterOrLeave, releaseKeys, forwarded_keyUps]
  · rw [mem_releases_iff, h.slots]

variable {t : InputModel}

theorem Downed.slot_stale {ks : List LogicalKey} (hd : Downed s t k ks)
    (hj : j ∈ ks) : j.modifier? = some .shift ∧ s.HasKeyUp j ∧ k.modifier? ≠ some .shift := by
  rcases hd.stale with rfl | ⟨hk, hks⟩
  · cases hj
  · exact ⟨((hks j).mp hj).1, ((hks j).mp hj).2, hk⟩

theorem Downed.mem_of_shift {ks : List LogicalKey} (hd : Downed s t k ks)
    {i : LogicalKey} (hi : i ∈ ks) (hj : j.modifier? = some .shift) (hup : s.HasKeyUp j) :
    j ∈ ks := by
  rcases hd.stale with rfl | ⟨-, hks⟩
  · cases hi
  · exact (hks j).mpr ⟨hj, hup⟩

theorem Downed.not_fits {ks : List LogicalKey} (hi : Inv s)
    (hd : Downed s t k ks) (hslot : j.downSlot? = k.downSlot?) (hne : j ≠ k)
    (hmod : j.modifier? = some .alt) (hheld : s.holds j = true) : ¬t.KeysFit := by
  intro ht
  have hnot : j ∉ ks := fun hmem => by
    have hshift := (hd.slot_stale hmem).1
    rw [hmod] at hshift
    exact Modifier.noConfusion (Option.some.inj hshift)
  have hheld' : t.holds j = true := (hd.holds j).mpr (.inr ⟨hheld, hnot⟩)
  obtain ⟨slot, hup⟩ := (ht.slots j).mpr ⟨by rw [hmod]; exact Option.some_ne_none _, hheld'⟩
  obtain ⟨hup, -⟩ := (hd.slots slot j).mp hup
  split at hup
  case isTrue => exact hne hup.symm
  case isFalse hother => exact hother (hslot ▸ hi.own slot j hup)

theorem Downed.held_of_hasKeyUp {ks : List LogicalKey} (hi : Inv s)
    (hf : KeysFit s) (hd : Downed s t k ks) (hup : t.HasKeyUp j) :
    j.modifier? ≠ none ∧ t.holds j = true := by
  obtain ⟨slot, hup⟩ := hup
  obtain ⟨hup, hclear⟩ := (hd.slots slot j).mp hup
  split at hup
  case isTrue hslot =>
    subst hup
    refine ⟨fun hnone => ?_, (hd.holds k).mpr (.inl rfl)⟩
    rw [LogicalKey.downSlot?_eq_none_iff.mpr hnone] at hslot
    exact Option.some_ne_none slot hslot.symm
  case isFalse =>
    obtain ⟨hmod, hheld⟩ := (hf.slots j).mp ⟨slot, hup⟩
    refine ⟨hmod, (hd.holds j).mpr (.inr ⟨hheld, fun hmem => ?_⟩)⟩
    -- a stale shift would have been cleared
    have hne : j ≠ .altRight := by
      rintro rfl
      exact Modifier.noConfusion (Option.some.inj (hd.slot_stale hmem).1)
    exact hclear j hmem (LogicalKey.downSlot?_eq_slot? hne ▸ hi.own slot j hup)

theorem Downed.hasKeyUp_of_held {ks : List LogicalKey} {isShiftPressed : Bool}
    (hi : Inv s) (hf : KeysFit s) (hd : Downed s t k ks) (hm : s.Meets (.down k isShiftPressed))
    (hmod : j.modifier? ≠ none) (hheld : t.holds j = true) : t.HasKeyUp j := by
  by_cases hjk : j = k
  · subst hjk
    obtain ⟨slot, hslot⟩ := Option.ne_none_iff_exists'.mp
      (mt LogicalKey.downSlot?_eq_none_iff.mp hmod)
    refine ⟨slot, (hd.slots slot j).mpr ⟨by rw [if_pos hslot], fun i hmem heq => ?_⟩⟩
    have hsame := LogicalKey.modifier?_of_slot? (heq.trans hslot.symm)
    exact (hd.slot_stale hmem).2.2 (hsame ▸ (hd.slot_stale hmem).1)
  · obtain ⟨hold, hnot⟩ := ((hd.holds j).mp hheld).resolve_left hjk
    obtain ⟨slot, hup⟩ := (hf.slots j).mpr ⟨hmod, hold⟩
    have hown := hi.own slot j hup
    have hother : k.downSlot? ≠ some slot := by
      intro hslot
      rcases LogicalKey.downSlot?_inj (hslot.trans hown.symm) hmod (Ne.symm hjk) with h | h
      · obtain ⟨rfl, rfl⟩ := h
        exact Bool.noConfusion ((hm.1 rfl).symm.trans hold)
      · obtain ⟨rfl, rfl⟩ := h
        exact Bool.noConfusion ((hm.2 rfl).symm.trans hold)
    refine ⟨slot, (hd.slots slot j).mpr ⟨by rwa [if_neg hother], fun i hmem heq => hnot ?_⟩⟩
    have hsame := LogicalKey.modifier?_of_slot? (heq.trans hown.symm)
    exact hd.mem_of_shift hmem (hsame ▸ (hd.slot_stale hmem).1) ⟨slot, hup⟩

theorem Downed.modifier_iff {ks : List LogicalKey} (hf : KeysFit s)
    (hd : Downed s t k ks) (m : Modifier) :
    t.modifier m = true ↔ ∃ j ∈ m.keys, t.holds j = true := by
  constructor
  · intro hflag
    obtain ⟨hset, hclear⟩ := (hd.modifier m).mp hflag
    rcases hset with hk | hold
    · exact ⟨k, LogicalKey.mem_keys_iff.mpr hk, (hd.holds k).mpr (.inl rfl)⟩
    · obtain ⟨j, hj, hheld⟩ := (hf.flags m).mp hold
      refine ⟨j, hj, (hd.holds j).mpr (.inr ⟨hheld, fun hmem => ?_⟩)⟩
      exact hclear j hmem (LogicalKey.mem_keys_iff.mp hj)
  · rintro ⟨j, hj, hheld⟩
    have hjm := LogicalKey.mem_keys_iff.mp hj
    rw [hd.modifier]
    rcases (hd.holds j).mp hheld with rfl | ⟨hold, hnot⟩
    · refine ⟨.inl hjm, fun i hmem him => (hd.slot_stale hmem).2.2 ?_⟩
      exact hjm.trans (him.symm.trans (hd.slot_stale hmem).1)
    · refine ⟨.inr ((hf.flags m).mpr ⟨j, hj, hold⟩), fun i hmem him => hnot ?_⟩
      have hshift := hjm.trans (him.symm.trans (hd.slot_stale hmem).1)
      refine hd.mem_of_shift hmem hshift ((hf.slots j).mpr ⟨?_, hold⟩)
      rw [hshift]
      exact Option.some_ne_none _

theorem Inv.fits_down (hi : Inv s) (hf : KeysFit s) (isMobile isShiftPressed : Bool)
    (k : LogicalKey) :
    (s.step isMobile (.down k isShiftPressed)).KeysFit ↔ s.Meets (.down k isShiftPressed) := by
  obtain ⟨ks, hd⟩ := hi.downed isMobile k isShiftPressed
  constructor
  · intro ht
    refine ⟨?_, ?_⟩
    · rintro rfl
      by_contra hheld
      exact hd.not_fits (j := .altRight) hi rfl LogicalKey.noConfusion rfl
        (eq_true_of_ne_false hheld) ht
    · rintro rfl
      by_contra hheld
      exact hd.not_fits (j := .altLeft) hi rfl LogicalKey.noConfusion rfl
        (eq_true_of_ne_false hheld) ht
  · intro hm
    refine ⟨fun j => ⟨?_, ?_⟩, fun m => hd.modifier_iff hf m⟩
    · intro hup
      exact hd.held_of_hasKeyUp hi hf hup
    · rintro ⟨hmod, hheld⟩
      exact hd.hasKeyUp_of_held hi hf hm hmod hheld

theorem Inv.fits_up (hi : Inv s) (hf : KeysFit s) (isMobile : Bool) (k : LogicalKey) :
    (s.step isMobile (.up k)).KeysFit ↔ s.Meets (.up k) := by
  have hholds : ∀ j, (s.handleKeyUp k).holds j = true ↔ j ≠ k ∧ s.holds j = true := fun j => by
    rw [holds, forwarded_keyUp, held_release]
    rfl
  constructor
  · intro ht
    refine ⟨?_, ?_⟩
    · rintro rfl
      by_contra hheld
      obtain ⟨slot, hup⟩ := (hf.slots .altRight).mpr
        ⟨Option.some_ne_none _, eq_true_of_ne_false hheld⟩
      have hown := hi.own slot _ hup
      have hkept : (s.handleKeyUp .altRight).HasKeyUp .altRight := by
        refine ⟨slot, ?_⟩
        rw [toReleaseKeys_keyUp, if_neg, hup]
        rw [← hown]
        decide
      exact ((hholds _).mp ((ht.slots _).mp hkept).2).1 rfl
    · intro m hk j hj hheld
      by_contra hne
      have hflag := (ht.flags m).mpr ⟨j, hj, (hholds j).mpr ⟨hne, hheld⟩⟩
      rw [step, modifier_keyUp, if_pos hk] at hflag
      cases hflag
  · rintro ⟨hright, hother⟩
    refine ⟨fun j => ⟨?_, ?_⟩, fun m => ?_⟩
    · rintro ⟨slot, hup⟩
      rw [step, toReleaseKeys_keyUp] at hup
      split at hup
      case isTrue => exact absurd hup.symm (Option.some_ne_none j)
      case isFalse hslot =>
        obtain ⟨hmod, hheld⟩ := (hf.slots j).mp ⟨slot, hup⟩
        refine ⟨hmod, (hholds j).mpr ⟨?_, hheld⟩⟩
        rintro rfl
        have hne : j ≠ .altRight := fun h => by
          subst h
          exact Bool.noConfusion ((hright rfl).symm.trans hheld)
        exact hslot (LogicalKey.downSlot?_eq_slot? hne ▸ hi.own slot j hup)
    · rintro ⟨hmod, hheld⟩
      obtain ⟨hne, hheld⟩ := (hholds j).mp hheld
      obtain ⟨slot, hup⟩ := (hf.slots j).mpr ⟨hmod, hheld⟩
      refine ⟨slot, ?_⟩
      rw [step, toReleaseKeys_keyUp, if_neg, hup]
      intro hslot
      have hsame := LogicalKey.modifier?_of_slot? (hslot.trans (hi.own slot j hup).symm)
      obtain ⟨m, hm⟩ := Option.ne_none_iff_exists'.mp hmod
      exact hne (hother m (hsame.trans hm) j (LogicalKey.mem_keys_iff.mpr hm) hheld)
    · rw [step, modifier_keyUp]
      split
      case isTrue hk =>
        refine iff_of_false Bool.noConfusion ?_
        rintro ⟨j, hj, hheld⟩
        obtain ⟨hne, hheld⟩ := (hholds j).mp hheld
        exact hne (hother m hk j hj hheld)
      case isFalse hk =>
        rw [hf.flags]
        refine exists_congr fun j => and_congr_right fun hj => ?_
        refine ((hholds j).trans (and_iff_right ?_)).symm
        rintro rfl
        exact hk (LogicalKey.mem_keys_iff.mp hj)

theorem Inv.fits_enterOrLeave (hi : Inv s) (hf : KeysFit s) (isMobile enter : Bool) :
    (s.step isMobile (.enterOrLeave enter)).KeysFit ↔ s.Meets (.enterOrLeave enter) := by
  have hholds : ∀ j, (s.enterOrLeave enter).holds j = true ↔
      s.holds j = true ∧ ¬s.HasKeyUp j := fun j => by
    rw [holds, hi.forwarded_enterOrLeave, ← mem_releases_iff]
    exact holds_keyUps
  have hslots : ∀ slot j, (s.enterOrLeave enter).toReleaseKeys slot = some j ↔
      s.toReleaseKeys slot = some j ∧ ∀ i, s.HasKeyUp i → i.slot? ≠ some slot :=
    fun slot j => by
      rw [hi.toReleaseKeys_enterOrLeave, releaseKeys, toReleaseKeys_keyUps]
      exact and_congr_right fun _ => forall_congr' fun i => by rw [mem_releases_iff]
  have hnone : ∀ j, j.modifier? ≠ none → (s.enterOrLeave enter).holds j ≠ true :=
    fun j hj hheld => ((hholds j).mp hheld).2 ((hf.slots j).mpr ⟨hj, ((hholds j).mp hheld).1⟩)
  constructor
  · intro ht
    by_contra hheld
    obtain ⟨slot, hup⟩ := (hf.slots .altRight).mpr
      ⟨Option.some_ne_none _, eq_true_of_ne_false hheld⟩
    have hown := hi.own slot _ hup
    refine hnone .altRight (Option.some_ne_none _) ((ht.slots .altRight).mp ⟨slot, ?_⟩).2
    refine (hslots slot _).mpr ⟨hup, ?_⟩
    rintro i ⟨slot', hup'⟩ hslot
    -- only the left alt is cleared there, and the right one is kept there
    have hne : i ≠ .altRight := by
      rintro rfl
      exact absurd (hown.trans hslot.symm) (by decide)
    have hown' := hi.own slot' i hup'
    have hsame : slot' = slot := Option.some.inj
      (hown'.symm.trans ((LogicalKey.downSlot?_eq_slot? hne).trans hslot))
    subst hsame
    exact hne (Option.some.inj (hup'.symm.trans hup))
  · intro hright
    refine ⟨fun j => iff_of_false ?_ fun h => hnone j h.1 h.2, fun m => ?_⟩
    · rintro ⟨slot, hup⟩
      obtain ⟨hup, hclear⟩ := (hslots slot j).mp hup
      have hne : j ≠ .altRight := by
        rintro rfl
        exact Bool.noConfusion (hright.symm.trans ((hf.slots _).mp ⟨slot, hup⟩).2)
      exact hclear j ⟨slot, hup⟩ (LogicalKey.downSlot?_eq_slot? hne ▸ hi.own slot j hup)
    · refine iff_of_false (fun hflag => ?_) ?_
      · have hold : s.modifier m = true ∧
            ∀ i ∈ Slot.all.filterMap s.toReleaseKeys, i.modifier? ≠ some m := by
          rw [← modifier_keyUps]
          simp only [step, enterOrLeave, hi.releaseRawKeys] at hflag
          cases enter with
          | true => exact hflag
          | false => cases hflag
        obtain ⟨j, hj, hheld⟩ := (hf.flags m).mp hold.1
        have hjm := LogicalKey.mem_keys_iff.mp hj
        refine hold.2 j (mem_releases_iff.mpr ((hf.slots j).mpr ⟨?_, hheld⟩)) hjm
        rw [hjm]
        exact Option.some_ne_none _
      · rintro ⟨j, hj, hheld⟩
        refine hnone j ?_ hheld
        rw [LogicalKey.mem_keys_iff.mp hj]
        exact Option.some_ne_none _

theorem inv_step (isMobile : Bool) (hi : Inv s) (i : KeyEventInput) : Inv (s.step isMobile i) := by
  cases i with
  | down k isShiftPressed =>
    obtain ⟨ks, hd⟩ := hi.downed isMobile k isShiftPressed
    refine ⟨fun slot => by rw [hd.raw]; exact hi.raw slot, fun slot j hup => ?_⟩
    obtain ⟨hup, -⟩ := (hd.slots slot j).mp hup
    split at hup
    case isTrue hslot => exact hup ▸ hslot
    case isFalse => exact hi.own slot j hup
  | up k =>
    refine ⟨fun slot => ?_, fun slot j hup => ?_⟩
    · rw [step, toReleaseRawKeys_keyUp]
      exact hi.raw slot
    · rw [step, toReleaseKeys_keyUp] at hup
      split at hup
      case isTrue => exact absurd hup.symm (Option.some_ne_none j)
      case isFalse => exact hi.own slot j hup
  | enterOrLeave enter =>
    refine ⟨fun slot => ?_, fun slot j hup => ?_⟩
    · rw [step, enterOrLeave, hi.releaseRawKeys]
      have hraw : s.releaseKeys.toReleaseRawKeys slot = none := by
        rw [releaseKeys, toReleaseRawKeys_keyUps]
        exact hi.raw slot
      cases enter <;> exact hraw
    · rw [step, hi.toReleaseKeys_enterOrLeave, releaseKeys, toReleaseKeys_keyUps] at hup
      exact hi.own slot j hup.1

/-- **One step** keeps what the model owes the peer exactly when it meets the condition. -/
theorem tracked_step (isMobile : Bool) (hi : Inv s) (ht : KeysTracked s) (i : KeyEventInput) :
    (s.step isMobile i).KeysTracked ↔ s.Meets i := by
  have hf := hi.tracked_iff.mp ht
  rw [(inv_step isMobile hi i).tracked_iff]
  cases i with
  | down k isShiftPressed => exact hi.fits_down hf isMobile isShiftPressed k
  | up k => exact hi.fits_up hf isMobile k
  | enterOrLeave enter => exact hi.fits_enterOrLeave hf isMobile enter

theorem tracked_start : KeysTracked start :=
  inv_start.tracked_iff.mpr
    ⟨fun k => iff_of_false (fun ⟨_, h⟩ => Option.some_ne_none k h.symm)
        (fun h => Bool.noConfusion h.2),
      fun _ => iff_of_false Bool.noConfusion (fun ⟨_, _, h⟩ => Bool.noConfusion h)⟩

theorem tracked_iff_along (isMobile : Bool) (is : List KeyEventInput) :
    Always (step isMobile) KeysTracked start is ↔ Along (step isMobile) Meets start is :=
  always_iff_along (J := fun _ => Inv) (W := fun _ _ => True)
    (fun _ _ i _ hi => inv_step isMobile hi i)
    (fun _ _ i _ _ hi ht => tracked_step isMobile hi ht i) (n := 0)
    (Nat.le_of_eq (Nat.zero_add _)) inv_start tracked_start
    (along_of_forall (fun _ _ => trivial) _ _)

end InputModel
end RustDesk
