import RustDesk.Server.Keyboard
import RustDesk.Lib.Run

/-!
# Keyboard input through the desktop portal (Wayland)

The portal cannot be asked for the state of a key, so `RdpInputKeyboard` tracks the
modifiers itself: from the key that is asked for, while the portal is told a key code that
is worked out elsewhere.

Whether a call to the desktop succeeds is a parameter, a function of the number of calls
before it.
-/

open HeldKeys Run

namespace RustDesk.RdpInput

/-- `KEY_LEFTSHIFT`, the first of the modifiers' codes of evdev. -/
def keyLeftShift : Nat := 42

def keyRightShift : Nat := 54

def keyLeftCtrl : Nat := 29

def keyRightCtrl : Nat := 97

def keyLeftAlt : Nat := 56

def keyRightAlt : Nat := 100

def keyLeftMeta : Nat := 125

def keyRightMeta : Nat := 126

def keyInsert : Nat := 110

/-- `EVDEV_OFFSET`, between evdev and X11. -/
def evdevOffset : Nat := 8

/-- `KEY_MAP`, with the codes of evdev. -/
def keyMap : List (EnigoKey × Nat) :=
  [(.alt, keyLeftAlt), (.backspace, 14), (.capsLock, 58), (.control, keyLeftCtrl),
    (.delete, 111), (.downArrow, 108), (.endKey, 107), (.escape, 1), (.f1, 59), (.f10, 68),
    (.f11, 87), (.f12, 88), (.f2, 60), (.f3, 61), (.f4, 62), (.f5, 63), (.f6, 64), (.f7, 65),
    (.f8, 66), (.f9, 67), (.home, 102), (.leftArrow, 105), (.metaKey, keyLeftMeta),
    (.option, 357), (.pageDown, 109), (.pageUp, 104), (.returnKey, 28), (.rightArrow, 106),
    (.shift, keyLeftShift), (.space, 57), (.tab, 15), (.upArrow, 103), (.numpad0, 82),
    (.numpad1, 79), (.numpad2, 80), (.numpad3, 81), (.numpad4, 75), (.numpad5, 76),
    (.numpad6, 77), (.numpad7, 71), (.numpad8, 72), (.numpad9, 73), (.cancel, 223),
    (.clear, 355), (.alt, keyLeftAlt), (.pause, 119), (.kana, 90), (.hangul, 122), (.hanja, 123),
    (.select, 353), (.print, 210), (.snapshot, 99), (.insert, keyInsert), (.help, 138),
    (.sleep, 142), (.scroll, 70), (.numLock, 69), (.rWin, keyRightMeta), (.apps, 127),
    (.multiply, 55), (.add, 78), (.subtract, 74), (.decimal, 121), (.divide, 98), (.equals, 117),
    (.numpadEnter, 96), (.rightAlt, keyRightAlt), (.rightControl, keyRightCtrl),
    (.rightShift, keyRightShift)]

def keyMapLayout : List (Nat × Char × Char) :=
  [(30, 'a', 'A'), (48, 'b', 'B'), (46, 'c', 'C'), (32, 'd', 'D'), (18, 'e', 'E'),
    (33, 'f', 'F'), (34, 'g', 'G'), (35, 'h', 'H'), (23, 'i', 'I'), (36, 'j', 'J'),
    (37, 'k', 'K'), (38, 'l', 'L'), (50, 'm', 'M'), (49, 'n', 'N'), (24, 'o', 'O'),
    (25, 'p', 'P'), (16, 'q', 'Q'), (19, 'r', 'R'), (31, 's', 'S'), (20, 't', 'T'),
    (22, 'u', 'U'), (47, 'v', 'V'), (17, 'w', 'W'), (45, 'x', 'X'), (21, 'y', 'Y'),
    (44, 'z', 'Z'), (11, '0', ')'), (2, '1', '!'), (3, '2', '@'), (4, '3', '#'), (5, '4', '$'),
    (6, '5', '%'), (7, '6', '^'), (8, '7', '&'), (9, '8', '*'), (10, '9', '('),
    (41, .ofNat 0x60, '~'), (12, '-', '_'), (13, '=', '+'), (26, '[', .ofNat 0x7b),
    (27, ']', .ofNat 0x7d), (43, .ofNat 0x5c, '|'), (51, ',', '<'), (52, '.', '>'),
    (53, '/', '?'), (39, ';', ':'), (40, .ofNat 0x27, .ofNat 0x22)]

/-- A lookup in `KEY_MAP_LAYOUT`; a space has no other character. -/
def mapLayout (c : Char) : Option (Nat × Bool) :=
  if c = ' ' then some (57, false)
  else match keyMapLayout.find? fun e => e.2.1 = c ∨ e.2.2 = c with
    | some e => some (e.1, decide (e.2.2 = c))
    | none => none

def mapKey (key : EnigoKey) : Option (Nat × Bool) :=
  match keyMap.find? fun e => e.1 = key with
  | some e => some (e.2, false)
  | none => match key with
    | .layout c => mapLayout c
    | _ => none

def charToKeysym (c : Char) : Int :=
  let codepoint := c.toNat
  if codepoint = 0 then 0
  else if 0x20 ≤ codepoint ∧ codepoint ≤ 0x7E then (codepoint : Int)
  else if 0xA0 ≤ codepoint ∧ codepoint ≤ 0xFF then (codepoint : Int)
  else ((0x01000000 ||| codepoint : Nat) : Int)

def canInputViaKeysym (c : Char) (keysym : Int) : Bool :=
  0x20 ≤ c.toNat && c.toNat ≤ 0x7E && keysym != 0

/-- `get_raw_evdev_keycode`, with what it does to the right meta key. -/
def getRawEvdevKeycode (key : Nat) : Int :=
  let key : Int := key - evdevOffset
  if key = keyRightMeta then (keyLeftMeta : Int) else key

structure ModifierState where
  shiftLeft : Bool := false
  shiftRight : Bool := false
  ctrlLeft : Bool := false
  ctrlRight : Bool := false
  altLeft : Bool := false
  altRight : Bool := false
  metaLeft : Bool := false
  metaRight : Bool := false

namespace ModifierState

def update (s : ModifierState) (key : EnigoKey) (down : Bool) : ModifierState :=
  match key with
  | .shift => { s with shiftLeft := down }
  | .rightShift => { s with shiftRight := down }
  | .control => { s with ctrlLeft := down }
  | .rightControl => { s with ctrlRight := down }
  | .alt => { s with altLeft := down }
  | .rightAlt => { s with altRight := down }
  | .metaKey | .super | .windows | .command => { s with metaLeft := down }
  | .rWin => { s with metaRight := down }
  | .raw code =>
    if code = keyLeftShift + evdevOffset then { s with shiftLeft := down }
    else if code = keyRightShift + evdevOffset then { s with shiftRight := down }
    else if code = keyLeftCtrl + evdevOffset then { s with ctrlLeft := down }
    else if code = keyRightCtrl + evdevOffset then { s with ctrlRight := down }
    else if code = keyLeftAlt + evdevOffset then { s with altLeft := down }
    else if code = keyRightAlt + evdevOffset then { s with altRight := down }
    else if code = keyLeftMeta + evdevOffset then { s with metaLeft := down }
    else if code = keyRightMeta + evdevOffset then { s with metaRight := down }
    else s
  | _ => s

end ModifierState

inductive PortalKey where
  | keycode (code : Int)
  | keysym (sym : Int)
  deriving DecidableEq

/-- `RdpInputKeyboard`, with the notifications that were sent, the latest first, and the
number of calls to the desktop. -/
structure RdpInputKeyboard where
  modifierState : ModifierState := {}
  sent : List (Stroke PortalKey) := []
  calls : Nat := 0

namespace RdpInputKeyboard

def getKeyState (s : RdpInputKeyboard) : EnigoKey → Bool
  | .shift => s.modifierState.shiftLeft
  | .rightShift => s.modifierState.shiftRight
  | .control => s.modifierState.ctrlLeft
  | .rightControl => s.modifierState.ctrlRight
  | .alt => s.modifierState.altLeft
  | .rightAlt => s.modifierState.altRight
  | .metaKey | .super | .windows | .command => s.modifierState.metaLeft
  | .rWin => s.modifierState.metaRight
  | _ => false

def update (s : RdpInputKeyboard) (key : EnigoKey) (down : Bool) : RdpInputKeyboard :=
  { s with modifierState := s.modifierState.update key down }

variable (succeeds : Nat → Bool)

def notify (s : RdpInputKeyboard) (key : PortalKey) (down : Bool) : Bool × RdpInputKeyboard :=
  (succeeds s.calls, { s with
    sent := if succeeds s.calls then (if down then .press key else .release key) :: s.sent
      else s.sent
    calls := s.calls + 1 })

/-- `notify_keyboard_keycode`. -/
def notifyKeycode (s : RdpInputKeyboard) (code : Int) (down : Bool) : Bool × RdpInputKeyboard :=
  s.notify succeeds (.keycode code) down

def sendKeysym (s : RdpInputKeyboard) (keysym : Int) (down : Bool) : Bool × RdpInputKeyboard :=
  s.notify succeeds (.keysym keysym) down

/-- `handle_key`, and whether it succeeded. -/
def handleKey (s : RdpInputKeyboard) (down : Bool) (key : EnigoKey) : Bool × RdpInputKeyboard :=
  match key with
  | .raw code => s.notifyKeycode succeeds (getRawEvdevKeycode code) down
  | key => match mapKey key with
    | some (code, isShift) =>
      if down then
        let (ok, s) := if isShift then s.notifyKeycode succeeds keyLeftShift down else (true, s)
        if !ok then (false, s)
        else
          let (ok, s) := s.notifyKeycode succeeds code down
          if !ok then
            (false, if isShift then (s.notifyKeycode succeeds keyLeftShift false).2 else s)
          else (true, s)
      else
        let (ok, s) := s.notifyKeycode succeeds code false
        if !ok then
          (false, if isShift then (s.notifyKeycode succeeds keyLeftShift false).2 else s)
        else if isShift then s.notifyKeycode succeeds keyLeftShift false
        else (true, s)
    | none => (true, s)

def inputTextViaClipboard (s : RdpInputKeyboard) (text : List Char) : RdpInputKeyboard :=
  if text = [] then s
  else
    let written := succeeds s.calls
    let s := { s with calls := s.calls + 1 }
    if !written then s
    else
      let (ok, s) := s.notifyKeycode succeeds keyLeftShift true
      if !ok then s
      else
        let (ok, s) := s.notifyKeycode succeeds keyInsert true
        if !ok then (s.notifyKeycode succeeds keyLeftShift false).2
        else
          let s := (s.notifyKeycode succeeds keyInsert false).2
          (s.notifyKeycode succeeds keyLeftShift false).2

def clickKeysym (s : RdpInputKeyboard) (c : Char) : RdpInputKeyboard :=
  let keysym := charToKeysym c
  if canInputViaKeysym c keysym then
    ((s.sendKeysym succeeds keysym true).2.sendKeysym succeeds keysym false).2
  else s

def keySequence (s : RdpInputKeyboard) (text : List Char) : RdpInputKeyboard :=
  if text = [] then s
  else if !text.all fun c => canInputViaKeysym c (charToKeysym c) then
    s.inputTextViaClipboard succeeds text
  else text.foldl (clickKeysym succeeds) s

/-- `key_down`, and whether it succeeded. -/
def keyDown (s : RdpInputKeyboard) (key : EnigoKey) : Bool × RdpInputKeyboard :=
  match key with
  | .layout c =>
    let keysym := charToKeysym c
    if canInputViaKeysym c keysym then s.sendKeysym succeeds keysym true
    else (true, s.inputTextViaClipboard succeeds [c])
  | key =>
    let (ok, s) := s.handleKey succeeds true key
    if ok then (true, s.update key true) else (false, s)

def keyUp (s : RdpInputKeyboard) (key : EnigoKey) : RdpInputKeyboard :=
  let s := s.update key false
  match key with
  | .layout c =>
    let keysym := charToKeysym c
    if canInputViaKeysym c keysym then (s.sendKeysym succeeds keysym false).2 else s
  | key => (s.handleKey succeeds false key).2

def keyClick (s : RdpInputKeyboard) (key : EnigoKey) : RdpInputKeyboard :=
  match key with
  | .layout c =>
    if canInputViaKeysym c (charToKeysym c) then s.clickKeysym succeeds c
    else s.inputTextViaClipboard succeeds [c]
  | key =>
    let (ok, s) := s.handleKey succeeds true key
    let s := if ok then s.update key true else s
    let s := s.update key false
    (s.handleKey succeeds false key).2

end RdpInputKeyboard

inductive Modifier where
  | shiftLeft | shiftRight | ctrlLeft | ctrlRight | altLeft | altRight | metaLeft | metaRight
  deriving DecidableEq

namespace Modifier

/-- The key that `get_key_state` is asked for. -/
def key : Modifier → EnigoKey
  | shiftLeft => .shift
  | shiftRight => .rightShift
  | ctrlLeft => .control
  | ctrlRight => .rightControl
  | altLeft => .alt
  | altRight => .rightAlt
  | metaLeft => .metaKey
  | metaRight => .rWin

def code : Modifier → Nat
  | shiftLeft => keyLeftShift
  | shiftRight => keyRightShift
  | ctrlLeft => keyLeftCtrl
  | ctrlRight => keyRightCtrl
  | altLeft => keyLeftAlt
  | altRight => keyRightAlt
  | metaLeft => keyLeftMeta
  | metaRight => keyRightMeta

def all : List Modifier :=
  [shiftLeft, shiftRight, ctrlLeft, ctrlRight, altLeft, altRight, metaLeft, metaRight]

theorem mem_all (m : Modifier) : m ∈ all := by
  cases m <;> decide

end Modifier

inductive KeyboardCall where
  | keyDown (key : EnigoKey)
  | keyUp (key : EnigoKey)
  | keyClick (key : EnigoKey)
  | keySequence (text : List Char)

def step (s : RdpInputKeyboard) : KeyboardCall → RdpInputKeyboard
  | .keyDown key => (s.keyDown (fun _ => true) key).2
  | .keyUp key => s.keyUp (fun _ => true) key
  | .keyClick key => s.keyClick (fun _ => true) key
  | .keySequence text => s.keySequence (fun _ => true) text

def Agrees (s : RdpInputKeyboard) : Prop :=
  ∀ m : Modifier, s.getKeyState m.key = held s.sent (.keycode m.code)

def mismatched : EnigoKey → List Modifier
  | .super | .windows | .command => [.metaLeft]
  | .raw code => if code = keyRightMeta + evdevOffset then [.metaLeft, .metaRight] else []
  | _ => []

def pasted (c : Char) : Bool := !canInputViaKeysym c (charToKeysym c)

/-- The calls that keep the agreement: a modifier that the key does not treat alike is
already in the state that it leads to, and the left Shift is up when text is pasted. -/
def KeepsAgreement (s : RdpInputKeyboard) : KeyboardCall → Prop
  | .keyDown (.layout c) => pasted c = true → s.getKeyState .shift = false
  | .keyDown key => ∀ m ∈ mismatched key, s.getKeyState m.key = true
  | .keyUp key => ∀ m ∈ mismatched key, s.getKeyState m.key = false
  | .keyClick (.layout c) => pasted c = true → s.getKeyState .shift = false
  | .keyClick key => ∀ m ∈ mismatched key, s.getKeyState m.key = false
  | .keySequence text => text.any pasted = true → s.getKeyState .shift = false

def tracked : EnigoKey → Option Modifier
  | .shift => some .shiftLeft
  | .rightShift => some .shiftRight
  | .control => some .ctrlLeft
  | .rightControl => some .ctrlRight
  | .alt => some .altLeft
  | .rightAlt => some .altRight
  | .metaKey | .super | .windows | .command => some .metaLeft
  | .rWin => some .metaRight
  | .raw code => Modifier.all.find? fun m => code = m.code + evdevOffset
  | _ => none

def sentCode : EnigoKey → Option Int
  | .raw code => some (getRawEvdevKeycode code)
  | key => (keyMap.find? fun e => e.1 = key).map fun e => (e.2 : Int)

variable {m : Modifier}

theorem tracked_raw_iff {code : Nat} :
    tracked (.raw code) = some m ↔ code = m.code + evdevOffset := by
  constructor
  · intro h
    simpa using List.find?_some h
  · rintro rfl
    cases m <;> rfl

theorem getKeyState_update (s : RdpInputKeyboard) (key : EnigoKey) (down : Bool) (m : Modifier) :
    (s.update key down).getKeyState m.key =
      if tracked key = some m then down else s.getKeyState m.key := by
  cases key with
  | raw code =>
    by_cases htracked : ∃ n : Modifier, code = n.code + evdevOffset
    · obtain ⟨n, rfl⟩ := htracked
      cases n <;> cases m <;> rfl
    · have hnone : ∀ n : Modifier, ¬code = n.code + evdevOffset := not_exists.mp htracked
      have hupdate : s.modifierState.update (.raw code) down = s.modifierState := by
        unfold ModifierState.update
        dsimp only
        split_ifs with h₁ h₂ h₃ h₄ h₅ h₆ h₇ h₈
        · exact absurd h₁ (hnone .shiftLeft)
        · exact absurd h₂ (hnone .shiftRight)
        · exact absurd h₃ (hnone .ctrlLeft)
        · exact absurd h₄ (hnone .ctrlRight)
        · exact absurd h₅ (hnone .altLeft)
        · exact absurd h₆ (hnone .altRight)
        · exact absurd h₇ (hnone .metaLeft)
        · exact absurd h₈ (hnone .metaRight)
        · rfl
      rw [RdpInputKeyboard.update, hupdate,
        if_neg fun htrack => hnone m (tracked_raw_iff.mp htrack)]
  | _ => cases m <;> rfl

theorem keyMap_code : ∀ e ∈ keyMap, ∀ m ∈ Modifier.all, e.2 = m.code → e.1 = m.key := by
  decide +kernel

theorem sentCode_of_named {key : EnigoKey} (hraw : ∀ code, key ≠ .raw code) :
    sentCode key = some (m.code : Int) ↔ key = m.key := by
  constructor
  · intro h
    have hfind : (keyMap.find? fun e => e.1 = key).map (fun e => (e.2 : Int)) =
        some (m.code : Int) := by
      cases key with
      | raw code => exact absurd rfl (hraw code)
      | _ => exact h
    obtain ⟨e, he, hcode⟩ := Option.map_eq_some_iff.mp hfind
    have hkey : e.1 = key := by simpa using List.find?_some he
    rw [← hkey]
    exact keyMap_code e (List.mem_of_find?_eq_some he) m m.mem_all (by omega)
  · rintro rfl
    cases m <;> rfl

theorem sentCode_raw {code : Nat} : sentCode (.raw code) = some (m.code : Int) ↔
      (code = m.code + evdevOffset ∧ m ≠ .metaRight) ∨
        (code = keyRightMeta + evdevOffset ∧ m = .metaLeft) := by
  have hsent : sentCode (.raw code) = some (getRawEvdevKeycode code) := rfl
  rw [hsent, Option.some_inj, getRawEvdevKeycode]
  cases m <;> simp [Modifier.code, keyLeftShift, keyRightShift, keyLeftCtrl, keyRightCtrl,
    keyLeftAlt, keyRightAlt, keyLeftMeta, keyRightMeta, evdevOffset] <;> omega

theorem tracked_of_named {key : EnigoKey} (hraw : ∀ code, key ≠ .raw code) :
    tracked key = some m ↔ key = m.key ∨
      (m = .metaLeft ∧ (key = .super ∨ key = .windows ∨ key = .command)) := by
  cases key with
  | raw code => exact absurd rfl (hraw code)
  | layout c => cases m <;> simp [tracked, Modifier.key]
  | _ => cases m <;> decide

theorem mem_mismatched {key : EnigoKey} :
    m ∈ mismatched key ↔ ¬(tracked key = some m ↔ sentCode key = some (m.code : Int)) := by
  by_cases hraw : ∃ code, key = .raw code
  · obtain ⟨code, rfl⟩ := hraw
    have hmem : m ∈ mismatched (.raw code) ↔
        code = keyRightMeta + evdevOffset ∧ (m = .metaLeft ∨ m = .metaRight) := by
      unfold mismatched
      dsimp only
      split_ifs with hcode
      · simp [hcode]
      · simp [hcode]
    rw [hmem, tracked_raw_iff, sentCode_raw]
    cases m <;> simp [Modifier.code, keyLeftShift, keyRightShift, keyLeftCtrl, keyRightCtrl,
      keyLeftAlt, keyRightAlt, keyLeftMeta, keyRightMeta, evdevOffset]
    omega
  · have hnamed : ∀ code, key ≠ .raw code := not_exists.mp hraw
    have hmem : m ∈ mismatched key ↔
        m = .metaLeft ∧ (key = .super ∨ key = .windows ∨ key = .command) := by
      cases key with
      | raw code => exact absurd rfl (hnamed code)
      | _ => simp [mismatched]
    rw [hmem, tracked_of_named hnamed, sentCode_of_named hnamed]
    constructor
    · rintro ⟨rfl, hkey⟩ hiff
      have hmeta := hiff.mp (.inr ⟨rfl, hkey⟩)
      rcases hkey with rfl | rfl | rfl <;> cases hmeta
    · intro hnot
      by_contra hother
      exact hnot (or_iff_left hother)

section Call

variable {s : RdpInputKeyboard}

def stroke (key : PortalKey) (down : Bool) : Stroke PortalKey :=
  if down then .press key else .release key

def sentAfter (key : EnigoKey) (down : Bool) (sent : List (Stroke PortalKey)) :
    List (Stroke PortalKey) :=
  match sentCode key with
  | some code => stroke (.keycode code) down :: sent
  | none => sent

variable {down : Bool}

theorem held_stroke {k key : PortalKey} {sent : List (Stroke PortalKey)} :
    held (stroke key down :: sent) k = if k = key then down else held sent k := by
  cases down <;> by_cases hk : k = key <;> simp [stroke, held, hk]

theorem held_sentAfter {key : EnigoKey} {sent : List (Stroke PortalKey)}
    (code : Int) : held (sentAfter key down sent) (.keycode code) =
      if sentCode key = some code then down else held sent (.keycode code) := by
  unfold sentAfter
  cases hcode : sentCode key with
  | none => rw [if_neg (by simp)]
  | some c =>
    dsimp only
    rw [held_stroke]
    by_cases hc : c = code
    · rw [if_pos (by rw [hc]), if_pos (by rw [hc])]
    · rw [if_neg (by simpa using Ne.symm hc), if_neg (by simpa using hc)]

theorem handleKey_succeeds {key : EnigoKey} (hkey : ∀ c, key ≠ .layout c) (down : Bool) :
    ∃ calls, s.handleKey (fun _ => true) down key =
      (true, { s with sent := sentAfter key down s.sent, calls }) := by
  unfold RdpInputKeyboard.handleKey
  split
  next code => exact ⟨_, rfl⟩
  next _ hraw =>
    have hsent : sentCode key = (keyMap.find? fun e => e.1 = key).map fun e => (e.2 : Int) := by
      cases key with
      | raw code => exact absurd rfl (hraw code)
      | _ => rfl
    have hmap : mapKey key = (keyMap.find? fun e => e.1 = key).map fun e => (e.2, false) := by
      unfold mapKey
      cases keyMap.find? fun e => e.1 = key with
      | some e => rfl
      | none =>
        cases key with
        | layout c => exact absurd rfl (hkey c)
        | _ => rfl
    rw [hmap]
    unfold sentAfter
    rw [hsent]
    cases keyMap.find? fun e => e.1 = key with
    | none => exact ⟨_, rfl⟩
    | some e => cases down <;> exact ⟨_, rfl⟩

theorem agrees_iff_of_key {s s' : RdpInputKeyboard} {key : EnigoKey} (h : Agrees s)
    (hstate : ∀ m : Modifier, s'.getKeyState m.key =
      if tracked key = some m then down else s.getKeyState m.key)
    (hsent : ∀ m : Modifier, held s'.sent (.keycode m.code) =
      if sentCode key = some (m.code : Int) then down else held s.sent (.keycode m.code)) :
    Agrees s' ↔ ∀ m ∈ mismatched key, s.getKeyState m.key = down := by
  refine forall_congr' fun m => ?_
  rw [hstate, hsent, mem_mismatched, ← h m]
  by_cases htracked : tracked key = some m
  · by_cases hcode : sentCode key = some (m.code : Int)
    · rw [if_pos htracked, if_pos hcode]
      exact iff_of_true rfl fun hnot => absurd (iff_of_true htracked hcode) hnot
    · rw [if_pos htracked, if_neg hcode, eq_comm, forall_prop_of_true]
      exact fun hiff => hcode (hiff.mp htracked)
  · by_cases hcode : sentCode key = some (m.code : Int)
    · rw [if_neg htracked, if_pos hcode, forall_prop_of_true]
      exact fun hiff => htracked (hiff.mpr hcode)
    · rw [if_neg htracked, if_neg hcode]
      exact iff_of_true rfl fun hnot => absurd (iff_of_false htracked hcode) hnot

theorem agrees_inputText {text : List Char} (h : Agrees s) (htext : text ≠ []) :
    Agrees (s.inputTextViaClipboard (fun _ => true) text) ↔ s.getKeyState .shift = false := by
  have hpaste : s.inputTextViaClipboard (fun _ => true) text = { s with
      sent := stroke (.keycode keyLeftShift) false :: stroke (.keycode keyInsert) false ::
        stroke (.keycode keyInsert) true :: stroke (.keycode keyLeftShift) true :: s.sent
      calls := s.calls + 5 } := by
    unfold RdpInputKeyboard.inputTextViaClipboard
    rw [if_neg htext]
    rfl
  have hheld (m : Modifier) :
      held (s.inputTextViaClipboard (fun _ => true) text).sent (.keycode m.code) =
        if m = .shiftLeft then false else held s.sent (.keycode m.code) := by
    rw [hpaste]
    cases m <;> rfl
  have hstate (m : Modifier) :
      (s.inputTextViaClipboard (fun _ => true) text).getKeyState m.key = s.getKeyState m.key := by
    rw [hpaste]
    cases m <;> rfl
  constructor
  · intro h'
    have hshift := h' .shiftLeft
    rwa [hstate, hheld, if_pos rfl] at hshift
  · intro hshift m
    rw [hstate, hheld]
    split_ifs with hm
    · rw [hm]
      exact hshift
    · exact h m

theorem agrees_clickKeysym (h : Agrees s) (c : Char) :
    Agrees (s.clickKeysym (fun _ => true) c) := by
  unfold RdpInputKeyboard.clickKeysym
  dsimp only
  split_ifs
  · exact h
  · exact h

theorem agrees_keySequence (h : Agrees s) (text : List Char) :
    Agrees (s.keySequence (fun _ => true) text) ↔
      (text.any pasted = true → s.getKeyState .shift = false) := by
  have hall : (!text.all fun c => canInputViaKeysym c (charToKeysym c)) = text.any pasted := by
    rw [List.not_all_eq_any_not]
    rfl
  unfold RdpInputKeyboard.keySequence
  rw [hall]
  by_cases htext : text = []
  · rw [if_pos htext, htext]
    exact iff_of_true h (by simp)
  · rw [if_neg htext]
    split_ifs with hany
    · rw [agrees_inputText h htext, forall_prop_of_true hany]
    · refine iff_of_true ?_ fun hpasted => absurd hpasted hany
      have hfold : ∀ (text : List Char) (s : RdpInputKeyboard), Agrees s →
          Agrees (text.foldl (RdpInputKeyboard.clickKeysym fun _ => true) s) := by
        intro text
        induction text with
        | nil => exact fun s hs => hs
        | cons c text ih => exact fun s hs => ih _ (agrees_clickKeysym hs c)
      exact hfold text s h

theorem agrees_layout {c : Char} {s' : RdpInputKeyboard} (h : Agrees s)
    (hsym : pasted c = false → Agrees s')
    (hpaste : pasted c = true → s' = s.inputTextViaClipboard (fun _ => true) [c]) :
    Agrees s' ↔ (pasted c = true → s.getKeyState .shift = false) := by
  cases hpasted : pasted c with
  | false => exact iff_of_true (hsym hpasted) nofun
  | true => rw [hpaste hpasted, agrees_inputText h (List.cons_ne_nil c []), forall_prop_of_true rfl]

end Call

section Named

variable {s : RdpInputKeyboard} {key : EnigoKey}

theorem agrees_keyDown (h : Agrees s) (hkey : ∀ c, key ≠ .layout c) :
    Agrees (s.keyDown (fun _ => true) key).2 ↔
      ∀ m ∈ mismatched key, s.getKeyState m.key = true := by
  obtain ⟨calls, hhandle⟩ := handleKey_succeeds (s := s) hkey true
  have hdown : (s.keyDown (fun _ => true) key).2 =
      RdpInputKeyboard.update { s with sent := sentAfter key true s.sent, calls } key true := by
    unfold RdpInputKeyboard.keyDown
    split
    next c => exact absurd rfl (hkey c)
    next => rw [hhandle]; rfl
  rw [hdown]
  refine agrees_iff_of_key h (fun m => ?_) fun m => held_sentAfter _
  rw [getKeyState_update]
  cases m <;> rfl

theorem agrees_handleKey_up (h : Agrees s) (hkey : ∀ c, key ≠ .layout c) :
    Agrees ((s.update key false).handleKey (fun _ => true) false key).2 ↔
      ∀ m ∈ mismatched key, s.getKeyState m.key = false := by
  obtain ⟨calls, hhandle⟩ := handleKey_succeeds (s := s.update key false) hkey false
  rw [hhandle]
  refine agrees_iff_of_key h (fun m => ?_) fun m => held_sentAfter _
  rw [← getKeyState_update]
  cases m <;> rfl

theorem agrees_keyClick (h : Agrees s) (hkey : ∀ c, key ≠ .layout c) :
    Agrees (s.keyClick (fun _ => true) key) ↔
      ∀ m ∈ mismatched key, s.getKeyState m.key = false := by
  obtain ⟨calls, hhandle⟩ := handleKey_succeeds (s := s) hkey true
  obtain ⟨calls', hrelease⟩ := handleKey_succeeds (s := RdpInputKeyboard.update
    (RdpInputKeyboard.update { s with sent := sentAfter key true s.sent, calls } key true)
    key false) hkey false
  have hclick : s.keyClick (fun _ => true) key =
      { RdpInputKeyboard.update (RdpInputKeyboard.update
          { s with sent := sentAfter key true s.sent, calls } key true) key false with
        sent := sentAfter key false (sentAfter key true s.sent), calls := calls' } := by
    unfold RdpInputKeyboard.keyClick
    split
    next c => exact absurd rfl (hkey c)
    next => rw [hhandle]; exact congrArg Prod.snd hrelease
  rw [hclick]
  refine agrees_iff_of_key h (fun m => ?_) fun m => ?_
  · have hupdates : ((s.update key true).update key false).getKeyState m.key =
        if tracked key = some m then false
        else if tracked key = some m then true else s.getKeyState m.key := by
      rw [getKeyState_update, getKeyState_update]
    have hsame : (if tracked key = some m then false
        else if tracked key = some m then true else s.getKeyState m.key) =
          if tracked key = some m then false else s.getKeyState m.key := by
      split_ifs <;> rfl
    rw [← hsame, ← hupdates]
    cases m <;> rfl
  · dsimp only
    rw [held_sentAfter, held_sentAfter]
    split_ifs <;> rfl

theorem agrees_keyDown_layout (h : Agrees s) (c : Char) :
    Agrees (s.keyDown (fun _ => true) (.layout c)).2 ↔
      (pasted c = true → s.getKeyState .shift = false) := by
  refine agrees_layout h (fun hsym => ?_) fun hpaste => ?_
  · unfold RdpInputKeyboard.keyDown
    dsimp only
    rw [pasted, Bool.not_eq_false'] at hsym
    rw [if_pos hsym]
    exact h
  · unfold RdpInputKeyboard.keyDown
    dsimp only
    rw [pasted, Bool.not_eq_true'] at hpaste
    rw [if_neg (by rw [hpaste]; decide)]

theorem agrees_keyClick_layout (h : Agrees s) (c : Char) :
    Agrees (s.keyClick (fun _ => true) (.layout c)) ↔
      (pasted c = true → s.getKeyState .shift = false) := by
  refine agrees_layout h (fun hsym => ?_) fun hpaste => ?_
  · unfold RdpInputKeyboard.keyClick
    dsimp only
    rw [pasted, Bool.not_eq_false'] at hsym
    rw [if_pos hsym]
    exact agrees_clickKeysym h c
  · unfold RdpInputKeyboard.keyClick
    dsimp only
    rw [pasted, Bool.not_eq_true'] at hpaste
    rw [if_neg (by rw [hpaste]; decide)]

theorem agrees_keyUp_layout (h : Agrees s) (c : Char) :
    Agrees (s.keyUp (fun _ => true) (.layout c)) := by
  unfold RdpInputKeyboard.keyUp
  dsimp only
  split_ifs
  · exact h
  · exact h

end Named

theorem agrees_step_iff {s : RdpInputKeyboard} (h : Agrees s) (call : KeyboardCall) :
    Agrees (step s call) ↔ KeepsAgreement s call := by
  cases call with
  | keyDown key =>
    by_cases hlayout : ∃ c, key = .layout c
    · obtain ⟨c, rfl⟩ := hlayout
      exact agrees_keyDown_layout h c
    · have hkey : ∀ c, key ≠ .layout c := not_exists.mp hlayout
      refine (agrees_keyDown h hkey).trans ?_
      unfold KeepsAgreement
      split <;> simp_all
  | keyUp key =>
    by_cases hlayout : ∃ c, key = .layout c
    · obtain ⟨c, rfl⟩ := hlayout
      exact iff_of_true (agrees_keyUp_layout h c) (by simp [KeepsAgreement, mismatched])
    · have hkey : ∀ c, key ≠ .layout c := not_exists.mp hlayout
      have hup : s.keyUp (fun _ => true) key =
          ((s.update key false).handleKey (fun _ => true) false key).2 := by
        unfold RdpInputKeyboard.keyUp
        dsimp only
        split
        next c => exact absurd rfl (hkey c)
        next => rfl
      rw [step, hup, agrees_handleKey_up h hkey, KeepsAgreement]
  | keyClick key =>
    by_cases hlayout : ∃ c, key = .layout c
    · obtain ⟨c, rfl⟩ := hlayout
      exact agrees_keyClick_layout h c
    · have hkey : ∀ c, key ≠ .layout c := not_exists.mp hlayout
      refine (agrees_keyClick h hkey).trans ?_
      unfold KeepsAgreement
      split <;> simp_all
  | keySequence text => exact agrees_keySequence h text

/-- **Tracked modifiers are the real ones.**  Whatever keys and texts are sent, as long as
the calls to the desktop succeed: after every call each modifier is tracked as it was last
sent exactly if every call is one that keeps the agreement. -/
theorem agrees_iff_keepsAgreement (calls : List KeyboardCall) :
    Always step Agrees {} calls ↔ Along step KeepsAgreement {} calls := by
  have hstart : Agrees {} := by
    intro m
    cases m <;> rfl
  exact always_iff_along (W := fun _ _ => True) (J := fun _ _ => True) (N := calls.length) (n := 0)
    (fun _ _ _ _ _ => trivial) (fun _ _ call _ _ _ hgood => agrees_step_iff hgood call)
    (by omega) trivial hstart (along_of_forall (fun _ _ => trivial) _ _)

def shiftedPaste : List KeyboardCall := [.keyDown .shift, .keyDown (.layout (.ofNat 0xe9))]

/-- It is still tracked as held, and was released last. -/
theorem shifted_paste_disagrees : ¬Always step Agrees {} shiftedPaste := by
  intro h
  have hshift := h.last .shiftLeft
  exact absurd hshift (by decide +kernel)

end RustDesk.RdpInput
