import RustDesk.Server.Message
import RustDesk.Lib.HeldKeys

/-!
# Keyboard input (Linux)

`map_keyboard_mode`, `translate_keyboard_mode` and `legacy_keyboard_mode`, with what they
inject.  On X11 raw key codes go to rdev and all else to enigo; on Wayland all goes to
enigo, which is served by uinput (`--service`) or by the desktop portal.

What `KEYS_DOWN` records is what `fix_key_down_timeout` releases: raw codes as rdev gets
them, control keys by their number, and characters by their code from `KEY_CHAR_START` on.

The state of a key as enigo reads it is up to the system: it may be any function of what was
injected, and another one at each event.
-/

namespace RustDesk

open HeldKeys

inductive ControlKey where
  | unknown | alt | backspace | capsLock | control | delete | downArrow | endKey | escape | f1
  | f10 | f11 | f12 | f2 | f3 | f4 | f5 | f6 | f7 | f8 | f9 | home | leftArrow | metaKey | option
  | pageDown | pageUp | returnKey | rightArrow | shift | space | tab | upArrow | numpad0 | numpad1
  | numpad2 | numpad3 | numpad4 | numpad5 | numpad6 | numpad7 | numpad8 | numpad9 | cancel
  | clear | menu | pause | kana | hangul | junja | final | hanja | kanji | convert | select
  | print | execute | snapshot | insert | help | sleep | separator | scroll | numLock | rWin
  | apps | multiply | add | subtract | decimal | divide | equals | numpadEnter | rShift
  | rControl | rAlt | volumeMute | volumeUp | volumeDown | power | ctrlAltDel | lockScreen
  deriving DecidableEq

def ControlKey.value : ControlKey → Int
  | .unknown => 0 | .alt => 1 | .backspace => 2 | .capsLock => 3 | .control => 4 | .delete => 5
  | .downArrow => 6 | .endKey => 7 | .escape => 8 | .f1 => 9 | .f10 => 10 | .f11 => 11
  | .f12 => 12 | .f2 => 13 | .f3 => 14 | .f4 => 15 | .f5 => 16 | .f6 => 17 | .f7 => 18
  | .f8 => 19 | .f9 => 20 | .home => 21 | .leftArrow => 22 | .metaKey => 23 | .option => 24
  | .pageDown => 25 | .pageUp => 26 | .returnKey => 27 | .rightArrow => 28 | .shift => 29
  | .space => 30 | .tab => 31 | .upArrow => 32 | .numpad0 => 33 | .numpad1 => 34
  | .numpad2 => 35 | .numpad3 => 36 | .numpad4 => 37 | .numpad5 => 38 | .numpad6 => 39
  | .numpad7 => 40 | .numpad8 => 41 | .numpad9 => 42 | .cancel => 43 | .clear => 44
  | .menu => 45 | .pause => 46 | .kana => 47 | .hangul => 48 | .junja => 49 | .final => 50
  | .hanja => 51 | .kanji => 52 | .convert => 53 | .select => 54 | .print => 55
  | .execute => 56 | .snapshot => 57 | .insert => 58 | .help => 59 | .sleep => 60
  | .separator => 61 | .scroll => 62 | .numLock => 63 | .rWin => 64 | .apps => 65
  | .multiply => 66 | .add => 67 | .subtract => 68 | .decimal => 69 | .divide => 70
  | .equals => 71 | .numpadEnter => 72 | .rShift => 73 | .rControl => 74 | .rAlt => 75
  | .volumeMute => 76 | .volumeUp => 77 | .volumeDown => 78 | .power => 79 | .ctrlAltDel => 100
  | .lockScreen => 101

/-- `enigo::Key`. -/
inductive EnigoKey where
  | alt | backspace | capsLock | command | control | delete | downArrow | endKey | escape | f1
  | f10 | f11 | f12 | f2 | f3 | f4 | f5 | f6 | f7 | f8 | f9 | home | leftArrow | metaKey
  | option | pageDown | pageUp | returnKey | rightArrow | shift | space | super | tab | upArrow
  | windows | numpad0 | numpad1 | numpad2 | numpad3 | numpad4 | numpad5 | numpad6 | numpad7
  | numpad8 | numpad9 | cancel | clear | pause | kana | hangul | junja | final | hanja | kanji
  | convert | select | print | execute | snapshot | insert | help | sleep | separator
  | volumeUp | volumeDown | mute | scroll | numLock | rWin | apps | multiply | add | subtract
  | decimal | divide | equals | numpadEnter | rightShift | rightControl | rightAlt
  | layout (c : Char)
  | raw (code : Nat)
  deriving DecidableEq

def keyMap : List (ControlKey × EnigoKey) :=
  [(.alt, .alt), (.backspace, .backspace), (.capsLock, .capsLock), (.control, .control),
    (.delete, .delete), (.downArrow, .downArrow), (.endKey, .endKey), (.escape, .escape),
    (.f1, .f1), (.f10, .f10), (.f11, .f11), (.f12, .f12), (.f2, .f2), (.f3, .f3), (.f4, .f4),
    (.f5, .f5), (.f6, .f6), (.f7, .f7), (.f8, .f8), (.f9, .f9), (.home, .home),
    (.leftArrow, .leftArrow), (.metaKey, .metaKey), (.option, .option), (.pageDown, .pageDown),
    (.pageUp, .pageUp), (.returnKey, .returnKey), (.rightArrow, .rightArrow), (.shift, .shift),
    (.space, .space), (.tab, .tab), (.upArrow, .upArrow), (.numpad0, .numpad0),
    (.numpad1, .numpad1), (.numpad2, .numpad2), (.numpad3, .numpad3), (.numpad4, .numpad4),
    (.numpad5, .numpad5), (.numpad6, .numpad6), (.numpad7, .numpad7), (.numpad8, .numpad8),
    (.numpad9, .numpad9), (.cancel, .cancel), (.clear, .clear), (.menu, .alt), (.pause, .pause),
    (.kana, .kana), (.hangul, .hangul), (.junja, .junja), (.final, .final), (.hanja, .hanja),
    (.kanji, .kanji), (.convert, .convert), (.select, .select), (.print, .print),
    (.execute, .execute), (.snapshot, .snapshot), (.insert, .insert), (.help, .help),
    (.sleep, .sleep), (.separator, .separator), (.scroll, .scroll), (.numLock, .numLock),
    (.rWin, .rWin), (.apps, .apps), (.multiply, .multiply), (.add, .add),
    (.subtract, .subtract), (.decimal, .decimal), (.divide, .divide), (.equals, .equals),
    (.numpadEnter, .numpadEnter), (.rAlt, .rightAlt), (.rControl, .rightControl),
    (.rShift, .rightShift)]

/-- A lookup in `KEY_MAP`. -/
def controlKeyValueToKey (value : Int) : Option EnigoKey :=
  (keyMap.find? fun entry => entry.1.value == value).map (·.2)

/-- `char_value_to_key`, of a `u32`; what is no character is read as NUL. -/
def charValueToKey (value : Nat) : EnigoKey := .layout (Char.ofNat (value % 2 ^ 32))

/-- `rdev::RawKey`, of Linux. -/
inductive RawKey where
  | linuxXorgKeycode (code : Nat)
  | linuxConsoleKeycode (code : Nat)
  deriving DecidableEq

/-- `rdev::Key`, as far as it is simulated. -/
inductive RdevKey where
  | rawKey (key : RawKey)
  | shiftLeft
  | shiftRight
  deriving DecidableEq

inductive InputKey where
  | rdev (key : RdevKey)
  | enigo (key : EnigoKey)
  deriving DecidableEq

inductive KeysDown where
  | rdevKey (key : RawKey)
  | enigoKey (key : Nat)
  deriving DecidableEq

def keyCharStart : Nat := 9999

def recordKeyToKey (recordKey : Nat) : Option EnigoKey :=
  if recordKey < keyCharStart then controlKeyValueToKey recordKey
  else some (charValueToKey (recordKey - keyCharStart))

structure Enigo where
  log : List (Stroke InputKey)
  keyState : List (Stroke InputKey) → EnigoKey → Bool

namespace Enigo

def getKeyState (en : Enigo) (key : EnigoKey) : Bool := en.keyState en.log key

def keyDown (en : Enigo) (key : EnigoKey) : Enigo :=
  { en with log := .press (.enigo key) :: en.log }

def keyUp (en : Enigo) (key : EnigoKey) : Enigo :=
  { en with log := .release (.enigo key) :: en.log }

def keyClick (en : Enigo) (key : EnigoKey) : Enigo := (en.keyDown key).keyUp key

def keySequence (en : Enigo) (sequence : String) : Enigo :=
  { en with log := .text sequence :: en.log }

/-- `simulate_`, of a key that is released. -/
def simulateRelease (en : Enigo) (key : RdevKey) : Enigo :=
  { en with log := .release (.rdev key) :: en.log }

end Enigo

/-- What the process runs on: X11 or Wayland, and whether it is `--server`. -/
structure InputPlatform where
  isX11 : Bool
  isServer : Bool

namespace InputPlatform

def waylandUseUinput (p : InputPlatform) : Bool := !p.isX11 && p.isServer

def waylandUseRdpInput (p : InputPlatform) : Bool := !p.isX11 && !p.isServer

end InputPlatform

def getModifierState (key : EnigoKey) (en : Enigo) : Bool :=
  let x := en.getKeyState key
  match key with
  | .shift => x || en.getKeyState .rightShift
  | .control => x || en.getKeyState .rightControl
  | .alt => x || en.getKeyState .rightAlt
  | .metaKey => x || en.getKeyState .rWin
  | .rightShift => x || en.getKeyState .shift
  | .rightControl => x || en.getKeyState .control
  | .rightAlt => x || en.getKeyState .alt
  | .rWin => x || en.getKeyState .metaKey
  | _ => x

def isPressed (key : EnigoKey) (en : Enigo) : Bool := getModifierState key en

def fixModifier (modifiers : List Int) (key0 : ControlKey) (key1 : EnigoKey) (en : Enigo) : Enigo :=
  if getModifierState key1 en && !modifiers.contains key0.value then en.keyUp key1 else en

/-- A line of `fix_modifiers`. -/
def fixModifierUnless (modifiers : List Int) (ck : Int) (own key0 : ControlKey) (key1 : EnigoKey)
    (en : Enigo) : Enigo :=
  if ck ≠ own.value then fixModifier modifiers key0 key1 en else en

def fixModifiers (modifiers : List Int) (en : Enigo) (ck : Int) : Enigo :=
  let en := fixModifierUnless modifiers ck .shift .shift .shift en
  let en := fixModifierUnless modifiers ck .rShift .shift .rightShift en
  let en := fixModifierUnless modifiers ck .alt .alt .alt en
  let en := fixModifierUnless modifiers ck .rAlt .alt .rightAlt en
  let en := fixModifierUnless modifiers ck .control .control .control en
  let en := fixModifierUnless modifiers ck .rControl .control .rightControl en
  let en := fixModifierUnless modifiers ck .metaKey .metaKey .metaKey en
  fixModifierUnless modifiers ck .rWin .metaKey .rWin en

def getControlKeyValue (keyEvent : KeyEvent) : Int :=
  match keyEvent.union with
  | some (.controlKey ck) => ck
  | _ => -1

def releaseUnpressedModifiers (en : Enigo) (keyEvent : KeyEvent) : Enigo :=
  fixModifiers keyEvent.modifiers en (getControlKeyValue keyEvent)

/-- `KEYS_DOWN`, with the time of each record. -/
abbrev KeysDownMap := List (KeysDown × Nat)

def isAltgrPressed (keysDown : KeysDownMap) : Bool :=
  keysDown.any fun entry =>
    entry.1 == .rdevKey (.linuxXorgKeycode ControlKey.rAlt.value.toNat)

def pressModifiers (keysDown : KeysDownMap) :
    List Int → Enigo × List EnigoKey → Enigo × List EnigoKey
  | [], acc => acc
  | ck :: rest, (en, toRelease) =>
    match controlKeyValueToKey ck with
    | none => pressModifiers keysDown rest (en, toRelease)
    | some key =>
      if isPressed key en || (key = .alt && isAltgrPressed keysDown) then
        pressModifiers keysDown rest (en, toRelease)
      else pressModifiers keysDown rest (en.keyDown key, toRelease ++ [key])

def syncModifiers (keysDown : KeysDownMap) (en : Enigo) (keyEvent : KeyEvent) :
    Enigo × List EnigoKey :=
  if keyEvent.down then
    pressModifiers keysDown keyEvent.modifiers (releaseUnpressedModifiers en keyEvent, [])
  else (en, [])

def processControlKey (en : Enigo) (ck : Int) (down : Bool) : Enigo :=
  match controlKeyValueToKey ck with
  | none => en
  | some key => if down then en.keyDown key else en.keyUp key

def isAsciiPrintable (c : Char) : Bool := 0x20 ≤ c.toNat && c.toNat ≤ 0x7E

def isHotkeyModifierPressed (en : Enigo) : Bool :=
  getModifierState .control en || getModifierState .rightControl en ||
    getModifierState .alt en || getModifierState .rightAlt en ||
    getModifierState .metaKey en || getModifierState .rWin en

/-- `release_shift_for_char_input`, of one of the two keys. -/
def releaseShiftKey (p : InputPlatform) (key : EnigoKey) (rdevKey : RdevKey) (en : Enigo) : Enigo :=
  if getModifierState key en then
    if p.isX11 then en.simulateRelease rdevKey else en.keyUp key
  else en

def releaseShiftForCharInput (p : InputPlatform) (en : Enigo) : Enigo :=
  if isHotkeyModifierPressed en then en
  else releaseShiftKey p .rightShift .shiftRight (releaseShiftKey p .shift .shiftLeft en)

def xkbKeyInsert : Nat := 110 + 8

def inputTextViaClipboardServer (clipboardSet : Bool) (en : Enigo) (text : String) : Enigo :=
  if text.isEmpty || !clipboardSet then en
  else
    (((en.keyDown .shift).keyDown (.raw xkbKeyInsert)).keyUp (.raw xkbKeyInsert)).keyUp .shift

def processChr (p : InputPlatform) (clipboardSet : Bool) (en : Enigo) (chr : Nat)
    (down : Bool) : Enigo :=
  if p.waylandUseUinput && !isHotkeyModifierPressed en then
    if chr.isValidChar then
      let c := Char.ofNat chr
      if isAsciiPrintable c then
        if down then en.keyDown (.layout c) else en.keyUp (.layout c)
      else if down then inputTextViaClipboardServer clipboardSet en c.toString
      else en
    else en
  else
    let key := charValueToKey chr
    if down then en.keyDown key else en.keyUp key

def processUnicode (p : InputPlatform) (clipboardSet : Bool) (en : Enigo) (chr : Nat) : Enigo :=
  if chr.isValidChar then
    let c := Char.ofNat chr
    if p.waylandUseUinput && !isAsciiPrintable c then
      inputTextViaClipboardServer clipboardSet en c.toString
    else en.keySequence c.toString
  else en

def processSeq (p : InputPlatform) (clipboardSet : Bool) (en : Enigo) (sequence : String) : Enigo :=
  if p.waylandUseUinput && !sequence.all isAsciiPrintable then
    inputTextViaClipboardServer clipboardSet en sequence
  else en.keySequence sequence

def releaseKeys (en : Enigo) (toRelease : List EnigoKey) : Enigo := toRelease.foldl Enigo.keyUp en

def isFunctionKey (ck : Int) : Bool :=
  ck == ControlKey.ctrlAltDel.value || ck == ControlKey.lockScreen.value

/-- `KEYS_DOWN`, and what was injected. -/
structure InputService where
  keysDown : KeysDownMap
  log : List (Stroke InputKey)

structure InputEnv where
  keyState : List (Stroke InputKey) → EnigoKey → Bool
  clipboardSet : Bool
  now : Nat

namespace InputService

def enigo (s : InputService) (env : InputEnv) : Enigo := ⟨s.log, env.keyState⟩

def injected (s : InputService) (en : Enigo) : InputService := { s with log := en.log }

def recordPressedKey (s : InputService) (recordKey : KeysDown) (down : Bool) (now : Nat) :
    InputService :=
  let others := s.keysDown.filter fun entry => entry.1 ≠ recordKey
  { s with keysDown := if down then (recordKey, now) :: others else others }

def simRdevRawkeyPosition (s : InputService) (code : Nat) (keydown : Bool) (now : Nat) :
    InputService :=
  let rawkey := RawKey.linuxXorgKeycode code
  let s := s.recordPressedKey (.rdevKey rawkey) keydown now
  { s with
    log := (if keydown then .press (.rdev (.rawKey rawkey))
      else .release (.rdev (.rawKey rawkey))) :: s.log }

def waylandSendRawKey (s : InputService) (env : InputEnv) (code : Nat) (down : Bool) :
    InputService :=
  let en := s.enigo env
  s.injected (if down then en.keyDown (.raw code) else en.keyUp (.raw code))

def mapKeyboardMode (p : InputPlatform) (env : InputEnv) (evt : KeyEvent) (s : InputService) :
    InputService :=
  if !p.isX11 then s.waylandSendRawKey env (evt.chr % 2 ^ 16) evt.down
  else s.simRdevRawkeyPosition evt.chr evt.down env.now

/-- A sequence, in `translate_keyboard_mode`. -/
def translateSeq (p : InputPlatform) (env : InputEnv) (en : Enigo) (seq : String) : Enigo :=
  if p.waylandUseRdpInput then (releaseShiftForCharInput p en).keySequence seq
  else if p.waylandUseUinput then
    if isHotkeyModifierPressed en then seq.toList.foldl (fun en c => en.keyClick (.layout c)) en
    else
      let en := releaseShiftForCharInput p en
      if seq.all isAsciiPrintable then en.keySequence seq
      else inputTextViaClipboardServer env.clipboardSet en seq
  else
    seq.toList.foldl (fun en c => en.keyClick (.layout c)) (releaseShiftForCharInput p en)

def translateKeyboardMode (p : InputPlatform) (env : InputEnv) (evt : KeyEvent)
    (s : InputService) : InputService :=
  match evt.union with
  | some (.seq seq) => s.injected (translateSeq p env (s.enigo env) seq)
  | some (.chr _) =>
    if !p.isX11 then s.waylandSendRawKey env (evt.chr % 2 ^ 16) evt.down
    else s.simRdevRawkeyPosition evt.chr evt.down env.now
  | _ => s

/-- The number of a control key, as it is recorded: an `i32` as a `u64`. -/
def controlRecord (ck : Int) : KeysDown := .enigoKey (ck % 2 ^ 64).toNat

def chrRecord (chr : Nat) : KeysDown := .enigoKey (chr + keyCharStart)

def legacyKeyboardMode (p : InputPlatform) (env : InputEnv) (evt : KeyEvent)
    (s : InputService) : InputService :=
  let (en, toRelease) := syncModifiers s.keysDown (s.enigo env) evt
  match evt.union with
  | some (.controlKey ck) =>
    if isFunctionKey ck then s.injected en
    else
      let s := s.recordPressedKey (controlRecord ck) evt.down env.now
      s.injected (releaseKeys (processControlKey en ck evt.down) toRelease)
  | some (.chr chr) =>
    let en := releaseShiftForCharInput p en
    let s := s.recordPressedKey (chrRecord chr) evt.down env.now
    s.injected (releaseKeys (processChr p env.clipboardSet en chr evt.down) toRelease)
  | some (.unicode chr) =>
    let en := releaseShiftForCharInput p en
    s.injected (releaseKeys (processUnicode p env.clipboardSet en chr) toRelease)
  | some (.seq seq) =>
    s.injected (releaseKeys (processSeq p env.clipboardSet en seq) toRelease)
  | _ => s.injected (releaseKeys en toRelease)

/-- What a record stands for, as `release_record_key` releases it. -/
def recordTarget : KeysDown → Option InputKey
  | .rdevKey rawKey => some (.rdev (.rawKey rawKey))
  | .enigoKey key => (recordKeyToKey key).map .enigo

def releaseRecordKey (s : InputService) (recordKey : KeysDown) : InputService :=
  match recordTarget recordKey with
  | none => s
  | some key => { s with log := .release key :: s.log }

def fixKeyDownTimeout (s : InputService) (force : Bool) (now : Nat) : InputService :=
  s.keysDown.foldl
    (fun s entry =>
      if force || decide (now - entry.2 ≥ 360000) then
        (s.recordPressedKey entry.1 false now).releaseRecordKey entry.1
      else s) s

/-- The mode of `handle_key_`, by which an event is handled. -/
def handleKey (p : InputPlatform) (env : InputEnv) (evt : KeyEvent) (s : InputService) :
    InputService :=
  match evt.mode with
  | .ok .map => s.mapKeyboardMode p env evt
  | .ok .translate => s.translateKeyboardMode p env evt
  | _ => s.legacyKeyboardMode p env evt

end InputService
end RustDesk
