import Mathlib.Data.List.Induction
import Mathlib.Data.List.TakeWhile
import RustDesk.Lib.CommonPrefix
import RustDesk.Lib.Utf16

/-!
# The soft keyboard of an iOS client

The hidden text field is told the peer by difference.  Its content is compared with the content
before, behind the last `1` of both, since the field is padded with that digit; what is left of
the old content behind the common prefix is deleted with `VK_BACK`, and what the new content has
there is typed.  Texts are UTF-16 units, as in Dart; the peer deletes whole characters.

* `keys_reproduce_iff`: **the keys make the old text the new one** exactly when the digit does
  not stand in both behind what they have in common, and what is deleted is in the basic plane
  or is all of the text.
-/

open Utf16 CommonPrefix

namespace RustDesk

open List

inductive SoftKey where
  | inputKey (name : List Nat)
  | inputString (value : List Nat)

namespace SoftKey

def padding : Nat := '1'.toNat

def behindPadding (value : List Nat) : Nat :=
  (value.reverse.dropWhile (· ≠ padding)).length

def vkBack : List Nat := units "VK_BACK".toList

def vkReturn : List Nat := units "VK_RETURN".toList

def vkSpace : List Nat := units "VK_SPACE".toList

/-- `inputChar`; `allowed` is `keyboardInputAllowed`. -/
def inputChar (allowed : Bool) (char : List Nat) : List SoftKey :=
  if allowed then
    if char = ['\n'.toNat] then [inputKey vkReturn]
    else if char = [' '.toNat] then [inputKey vkSpace]
    else [inputKey char]
  else []

structure Handled where
  value : List Nat
  sent : List SoftKey

/-- `_handleIOSSoftKeyboardInput`; `composing` is the length of a valid composing range. -/
def handleIOSSoftKeyboardInput (allowed : Bool) (composing : Option Nat)
    (oldValue newValue : List Nat) : Handled :=
  let j := min (behindPadding newValue) (behindPadding oldValue)
  let subNewValue := newValue.drop j
  let subOldValue := oldValue.drop j
  let common := common subOldValue subNewValue
  let newStr := subNewValue.drop common
  if composing.any (newStr.length < ·) then { value := oldValue, sent := [] }
  else
    { value := newValue
      sent := List.replicate (subOldValue.length - common) (inputKey vkBack) ++
        if 1 < newStr.length then [inputString newStr] else inputChar allowed newStr }

/-- `handleSoftKeyboardInput` on iOS. -/
def handleSoftKeyboardInput (allowed : Bool) (composing : Option Nat)
    (oldValue newValue : List Nat) : Handled :=
  if allowed then handleIOSSoftKeyboardInput allowed composing oldValue newValue
  else { value := oldValue, sent := [] }

/-- The entries of `KEY_MAP` that the page names. -/
inductive ControlKey where
  | backspace
  | return
  | space

def keyMap (name : List Char) : Option ControlKey :=
  if name = "VK_BACK".toList then some .backspace
  else if name = "VK_RETURN".toList then some .return
  else if name = "VK_SPACE".toList then some .space
  else none

def ControlKey.press (text : List Char) : ControlKey → List Char
  | .backspace => text.dropLast
  | .return => text ++ ['\n']
  | .space => text ++ [' ']

/-- `Session::input_key` and the peer: a name of one character is that character. -/
def pressName (text name : List Char) : List Char :=
  match name with
  | [chr] => text ++ [chr]
  | name => ((keyMap name).map (ControlKey.press text)).getD text

def press (text : List Char) : SoftKey → List Char
  | inputKey name => pressName text (lossy name)
  | inputString value => text ++ lossy value

def pressAll (text : List Char) (sent : List SoftKey) : List Char := sent.foldl press text

theorem behindPadding_concat (value : List Nat) (u : Nat) :
    behindPadding (value ++ [u]) =
      if u = padding then value.length + 1 else behindPadding value := by
  by_cases hu : u = padding
  · simp [behindPadding, hu]
  · simp [behindPadding, hu]

theorem behindPadding_le_iff (value : List Nat) (p : Nat) :
    behindPadding value ≤ p ↔ padding ∉ value.drop p := by
  induction value using List.reverseRecOn with
  | nil => simp [behindPadding]
  | append_singleton value u ih =>
    rw [behindPadding_concat]
    by_cases hp : p ≤ value.length
    · rw [drop_append_of_le_length hp, mem_append, mem_singleton, not_or]
      split
      next hu =>
        constructor
        · omega
        · exact fun h => absurd hu.symm h.2
      next hu => exact ih.trans (iff_self_and.mpr fun _ => Ne.symm hu)
    · have hnil : (value ++ [u]).drop p = [] := by
        apply drop_of_length_le
        rw [length_append, length_singleton]
        omega
      have hle : behindPadding value ≤ p := by
        rw [ih, drop_of_length_le (by omega)]
        exact not_mem_nil
      rw [hnil]
      split <;> simp <;> omega

theorem pressAll_append (text : List Char) (sent others : List SoftKey) :
    pressAll text (sent ++ others) = pressAll (pressAll text sent) others :=
  foldl_append

theorem press_back (text : List Char) : press text (inputKey vkBack) = text.dropLast := by
  rw [press, vkBack, lossy_units]
  rfl

theorem press_return (text : List Char) : press text (inputKey vkReturn) = text ++ ['\n'] := by
  rw [press, vkReturn, lossy_units]
  rfl

theorem press_space (text : List Char) : press text (inputKey vkSpace) = text ++ [' '] := by
  rw [press, vkSpace, lossy_units]
  rfl

theorem pressAll_backs (text : List Char) (d : Nat) :
    pressAll text (List.replicate d (inputKey vkBack)) = text.take (text.length - d) := by
  induction d generalizing text with
  | zero => simp [pressAll]
  | succ d ih =>
    have hlen : text.dropLast.length - d = text.length - (d + 1) := by
      rw [length_dropLast]
      omega
    rw [replicate_succ, pressAll, foldl_cons, press_back]
    change pressAll text.dropLast _ = _
    rw [ih, hlen, dropLast_eq_take, take_take, Nat.min_eq_left (by omega)]

theorem pressAll_inputChar (text : List Char) {char : List Nat} (h : char.length ≤ 1) :
    pressAll text (inputChar true char) = text ++ lossy char := by
  rw [inputChar, if_pos rfl]
  split
  next hret => rw [hret]; exact press_return text
  next =>
    split
    next hspace => rw [hspace]; exact press_space text
    next =>
      match char, h with
      | [], _ => exact (append_nil text).symm
      | [u], _ => rfl

theorem pressAll_newStr (text : List Char) (newStr : List Nat) :
    pressAll text (if 1 < newStr.length then [inputString newStr] else inputChar true newStr) =
      text ++ lossy newStr := by
  split
  next => rfl
  next hlen => exact pressAll_inputChar text (by omega)

theorem replaced_eq_iff {oldText newText : List Char} {m : Nat}
    (hold : m ≤ (units oldText).length) (hnew : m ≤ (units newText).length) :
    oldText.take (oldText.length - ((units oldText).length - m)) ++
        lossy ((units newText).drop m) = newText ↔
      (units oldText).take m = (units newText).take m ∧
        (m = 0 ∨ ∀ u ∈ (units oldText).drop m, isSurrogate u = false) := by
  have hchars := length_le_units oldText
  constructor
  · intro heq
    generalize hkeep : oldText.length - ((units oldText).length - m) = keep at heq
    have holdSplit : units oldText = units (oldText.take keep) ++ units (oldText.drop keep) := by
      rw [← units_append, take_append_drop]
    have hnewSplit : units newText =
        units (oldText.take keep) ++ units (lossy ((units newText).drop m)) := by
      rw [← units_append, heq]
    -- the text that is kept has as many units as the place says
    have hshown := length_units_lossy (take_append_drop m (units newText))
    have hlen : (units (oldText.take keep)).length = m := by
      have hsum := congrArg List.length hnewSplit
      rw [length_append, hshown, length_drop] at hsum
      omega
    have htakeOld : (units oldText).take m = units (oldText.take keep) := by
      rw [holdSplit, take_append_of_le_length (by omega), ← hlen, take_length]
    have htakeNew : (units newText).take m = units (oldText.take keep) := by
      rw [hnewSplit, take_append_of_le_length (by omega), ← hlen, take_length]
    refine ⟨htakeOld.trans htakeNew.symm, ?_⟩
    by_cases hall : oldText.length ≤ (units oldText).length - m
    · left
      have hzero : keep = 0 := by omega
      rw [← hlen, hzero]
      rfl
    · right
      have hdropped : (units oldText).drop m = units (oldText.drop keep) := by
        rw [holdSplit, ← hlen, drop_left]
      have hsum := congrArg List.length hdropped
      rw [length_drop] at hsum
      rw [hdropped]
      apply basic_of_length
      rw [← hsum, length_drop]
      omega
  · rintro ⟨htake, rfl | hbasic⟩
    · rw [Nat.sub_zero, Nat.sub_eq_zero_of_le hchars, drop_zero, lossy_units]
      rfl
    · obtain ⟨front, back, rfl, hfront, hback⟩ | ⟨_, _, _, v, _, _, hv, hback⟩ :=
        cut_cases (take_append_drop m (units oldText))
      · have hlenBack : back.length = (units (front ++ back)).length - m := by
          rw [← length_of_basic (hback ▸ hbasic), ← hback, length_drop]
        obtain ⟨rest, rfl, hrest⟩ : ∃ rest, newText = front ++ rest ∧
            (units newText).drop m = units rest := by
          apply exists_of_units_append
          rw [← hfront, htake, take_append_drop]
        rw [← hlenBack, length_append, Nat.add_sub_cancel, take_left, hrest, lossy_units]
      · have hlow := hbasic v (hback ▸ mem_cons_self)
        rw [isSurrogate, hv, Bool.or_true] at hlow
        exact absurd hlow Bool.noConfusion

def shared (oldText newText : List Char) : Nat := common (units oldText) (units newText)

/-- The condition: behind what the texts have in common the digit `1` does not stand in both, and
what the old one has there is in the basic plane, or is all of it. -/
def Meets (oldText newText : List Char) : Prop :=
  (padding ∉ (units oldText).drop (shared oldText newText) ∨
      padding ∉ (units newText).drop (shared oldText newText)) ∧
    (shared oldText newText = 0 ∨
      ∀ u ∈ (units oldText).drop (shared oldText newText), isSurrogate u = false)

instance (oldText newText : List Char) : Decidable (Meets oldText newText) :=
  inferInstanceAs (Decidable (_ ∧ _))

theorem behindPadding_le (value : List Nat) : behindPadding value ≤ value.length := by
  rw [behindPadding_le_iff, drop_length]
  exact not_mem_nil

def comparedFrom (oldValue newValue : List Nat) : Nat :=
  min (behindPadding newValue) (behindPadding oldValue)

def keptUnits (oldValue newValue : List Nat) : Nat :=
  comparedFrom oldValue newValue +
    common (oldValue.drop (comparedFrom oldValue newValue))
      (newValue.drop (comparedFrom oldValue newValue))

theorem keptUnits_le (oldValue newValue : List Nat) :
    keptUnits oldValue newValue ≤ oldValue.length ∧
      keptUnits oldValue newValue ≤ newValue.length := by
  have hold := behindPadding_le oldValue
  have hnew := behindPadding_le newValue
  have hle := common_le (oldValue.drop (comparedFrom oldValue newValue))
    (newValue.drop (comparedFrom oldValue newValue))
  rw [length_drop, length_drop] at hle
  unfold keptUnits comparedFrom at *
  omega

theorem pressAll_sent (oldText : List Char) (oldValue newValue : List Nat) :
    pressAll oldText (handleSoftKeyboardInput true none oldValue newValue).sent =
      oldText.take (oldText.length - (oldValue.length - keptUnits oldValue newValue)) ++
        lossy (newValue.drop (keptUnits oldValue newValue)) := by
  rw [handleSoftKeyboardInput, if_pos rfl]
  simp only [handleIOSSoftKeyboardInput, Option.any_none, Bool.false_eq_true, if_false]
  rw [pressAll_append, pressAll_newStr, pressAll_backs, length_drop, drop_drop, Nat.sub_sub]
  rfl

theorem keptUnits_le_iff (oldValue newValue : List Nat) :
    keptUnits oldValue newValue ≤ common oldValue newValue ↔
      (padding ∉ oldValue.drop (common oldValue newValue) ∨
        padding ∉ newValue.drop (common oldValue newValue)) := by
  rw [← behindPadding_le_iff, ← behindPadding_le_iff]
  constructor
  · unfold keptUnits comparedFrom
    omega
  · intro h
    have hfrom : comparedFrom oldValue newValue ≤ common oldValue newValue := by
      unfold comparedFrom
      omega
    exact Nat.le_of_eq (common_drop hfrom)

theorem keptUnits_eq {oldValue newValue : List Nat}
    (h : keptUnits oldValue newValue ≤ common oldValue newValue) :
    keptUnits oldValue newValue = common oldValue newValue :=
  common_drop (Nat.le_trans (Nat.le_add_right _ _) h)

/-- **The keys that are sent make the old text the new one** exactly under the condition. -/
theorem keys_reproduce_iff (oldText newText : List Char) :
    pressAll oldText
        (handleSoftKeyboardInput true none (units oldText) (units newText)).sent = newText ↔
      Meets oldText newText := by
  obtain ⟨hold, hnew⟩ := keptUnits_le (units oldText) (units newText)
  rw [pressAll_sent, replaced_eq_iff hold hnew, take_eq_take_iff hold hnew, Meets, shared,
    ← keptUnits_le_iff]
  refine and_congr_right fun h => ?_
  rw [keptUnits_eq h]

/-- A padding digit in front of which something is replaced hides the change. -/
theorem not_keys_reproduce :
    pressAll ['1', 'a', '1'] (handleSoftKeyboardInput true none (units ['1', 'a', '1'])
      (units ['1', 'b', '1'])).sent ≠ ['1', 'b', '1'] := by
  decide

/-- A character outside the basic plane is deleted with the one in front of it. -/
example : pressAll ['1', 'a', '😀'] (handleSoftKeyboardInput true none (units ['1', 'a', '😀'])
    (units ['1', 'a'])).sent = ['1'] := by
  decide

end SoftKey
end RustDesk
