import RustDesk.Server.Keyboard

/-!
# What a key stroke is sent as (Linux)

`event_to_key_events`, by the keyboard mode.  Map mode sends where the key is, in the numbers of
the peer's system.  Translate mode sends the text of a press, if it has any, and nothing for dead
keys and AltGr.  Legacy mode sends control keys by name and other keys by their character, and a
command for two of its chords.

Of a key event that goes out only its key and whether it goes down are kept, not its mode and
its modifiers.  What is read besides the event may be different for each event.
-/

namespace RustDesk

open HeldKeys

/-- `rdev::Key`: the keys of `MODIFIERS_STATE`, the locks, those that legacy mode has a control
key for (by that), those it has a character for (by that), and the others by their number. -/
inductive PhysicalKey where
  | shiftLeft | shiftRight | controlLeft | controlRight | alt | altGr | metaLeft | metaRight
  | capsLock | numLock | scrollLock
  | named (key : ControlKey)
  | char (c : Char)
  | other (code : Nat)
  deriving DecidableEq

namespace PhysicalKey

/-- The key is one of `MODIFIERS_STATE`. -/
def isModifier : PhysicalKey → Bool
  | .shiftLeft | .shiftRight | .controlLeft | .controlRight | .alt | .altGr | .metaLeft
  | .metaRight => true
  | _ => false

/-- The key is `Alt` or `AltGr`. -/
def isAlt (key : PhysicalKey) : Bool := key = .alt || key = .altGr

/-- The control key of a key in legacy mode. -/
def controlKey : PhysicalKey → Option ControlKey
  | .shiftLeft => some .shift
  | .shiftRight => some .rShift
  | .controlLeft => some .control
  | .controlRight => some .rControl
  | .alt => some .alt
  | .altGr => some .rAlt
  | .metaLeft => some .metaKey
  | .metaRight => some .rWin
  | .named key => some key
  | _ => none

/-- `is_numpad_rdev_key`. -/
def isNumpad : PhysicalKey → Bool
  | .named key => key ∈ [.numpad0, .numpad1, .numpad2, .numpad3, .numpad4, .numpad5, .numpad6,
      .numpad7, .numpad8, .numpad9, .subtract, .multiply, .divide, .add, .decimal]
  | _ => false

/-- A key of the number pad while NumLock is off. -/
def unlocked : PhysicalKey → PhysicalKey
  | .named .numpad0 => .named .insert
  | .named .decimal => .named .delete
  | .named .numpad1 => .named .endKey
  | .named .numpad2 => .named .downArrow
  | .named .numpad3 => .named .pageDown
  | .named .numpad4 => .named .leftArrow
  | .named .numpad5 => .named .clear
  | .named .numpad6 => .named .rightArrow
  | .named .numpad7 => .named .home
  | .named .numpad8 => .named .upArrow
  | .named .numpad9 => .named .pageUp
  | key => key

end PhysicalKey

/-- `EventType`, of keys. -/
inductive KeyEventType where
  | keyPress (key : PhysicalKey)
  | keyRelease (key : PhysicalKey)

/-- `UnicodeInfo`, as far as it is read. -/
structure UnicodeInfo where
  name : Option String
  isDead : Bool

/-- `rdev::Event`, of a key. -/
structure RdevEvent where
  eventType : KeyEventType
  unicode : Option UnicodeInfo
  platformCode : Nat
  positionCode : Nat

namespace RdevEvent

def key (event : RdevEvent) : PhysicalKey :=
  match event.eventType with
  | .keyPress key | .keyRelease key => key

def isPress (event : RdevEvent) : Bool :=
  match event.eventType with
  | .keyPress _ => true
  | .keyRelease _ => false

/-- The stroke of a key of the peer. -/
def stroke (event : RdevEvent) (key : KeyUnion) : Stroke KeyUnion :=
  if event.isPress then .press key else .release key

/-- The text that the event types; none for an empty one. -/
def text (event : RdevEvent) : Option String :=
  (event.unicode.bind (·.name)).filter (· ≠ "")

end RdevEvent

inductive PeerPlatform where
  | windows | macos | android | other
  deriving DecidableEq

/-- What is read besides the event: the keyboard mode and the system of the peer, the table of
rdev for it, what enigo says of NumLock and of the modifiers, and what `swap_modifier_key` of
the session makes of a key. -/
structure Keyboard where
  mode : KeyboardMode
  peer : PeerPlatform
  linuxCodeTo : Nat → Option Nat
  numLock : Bool
  alt : Bool
  ctrl : Bool
  command : Bool
  swapModifierKey : KeyUnion → KeyUnion

namespace Keyboard

variable (kb : Keyboard) (event : RdevEvent)

/-- `windows_peer_special_key`. -/
def windowsPeerSpecialKey : Option KeyUnion :=
  if kb.peer = .windows ∧ event.key = .named .pause then some (.controlKey ControlKey.pause.value)
  else none

/-- The position of a key in the numbers of the peer's system. -/
def keycode (positionCode : Nat) : Option Nat :=
  if kb.peer = .other then some positionCode else kb.linuxCodeTo positionCode

/-- The key that map mode sends. -/
def mapKey : Option KeyUnion :=
  (kb.windowsPeerSpecialKey event).or ((kb.keycode event.positionCode).map .chr)

def mapKeyboardMode : List (Stroke KeyUnion) := (kb.mapKey event).toList.map event.stroke

def translateKeyboardMode : List (Stroke KeyUnion) :=
  if (kb.windowsPeerSpecialKey event).isSome then kb.mapKeyboardMode event
  else if event.unicode.any (·.isDead) then []
  else if event.key.isNumpad then kb.mapKeyboardMode event
  else if event.platformCode = 0xFE03 then []
  else
    match event.text with
    | some text => if event.isPress then [.text text] else kb.mapKeyboardMode event
    | none => kb.mapKeyboardMode event

/-- The character of a key in legacy mode: of the name it comes with, if that is short and no
NUL, else its own. -/
def legacyChar (key : PhysicalKey) : Option Char :=
  let named := ((event.unicode.bind (·.name)).filter (·.utf8ByteSize ≤ 2)).bind (·.toList.head?)
  -- special for Chinese
  let named := named.map fun c => if c = '·' then '\x60' else c
  (named.filter (· ≠ '\x00')).or (match key with | .char c => some c | _ => none)

def convertNumpadKeys (key : PhysicalKey) : PhysicalKey :=
  if kb.numLock then key else key.unlocked

def legacyKey : PhysicalKey :=
  if kb.peer = .windows then kb.convertNumpadKeys event.key else event.key

def legacyKeyboardMode : List (Stroke KeyUnion) :=
  if kb.legacyKey event ∈ [.capsLock, .numLock, .scrollLock] then []
  else
    match (kb.legacyKey event).controlKey with
    | some k =>
      -- `ctrl_alt_del`
      if k = .delete && kb.peer = .windows && kb.ctrl && kb.alt then
        [.press (.controlKey ControlKey.ctrlAltDel.value)]
      else [event.stroke (.controlKey k.value)]
    | none =>
      match legacyChar event (kb.legacyKey event) with
      | none => []
      | some c =>
        if c = 'l' && kb.peer = .windows && kb.command then
          [.press (.controlKey ControlKey.lockScreen.value)]
        else [event.stroke (.chr c.toNat)]

/-- The key events that `event_to_key_events` returns. -/
def modeEvents : List (Stroke KeyUnion) :=
  match kb.mode with
  | .map => kb.mapKeyboardMode event
  | .translate => kb.translateKeyboardMode event
  | .legacy | .auto => kb.legacyKeyboardMode event

/-- What goes out for an event, as the session sends it on. -/
def keyEvents : List (Stroke KeyUnion) := (kb.modeEvents event).map (·.map kb.swapModifierKey)

/-- The keys of the peer that some presses of a key were sent as, each under its keyboard. -/
def pressedAs (presses : List (Keyboard × RdevEvent)) : List KeyUnion :=
  presses.flatMap fun press => pressed (press.1.keyEvents press.2)

/-- Under this keyboard the event stands for the same keys of the peer as the presses did under
theirs, and lets go of them. -/
def Undoes (presses : List (Keyboard × RdevEvent)) : Prop :=
  LetsGo (pressedAs presses) (kb.keyEvents event)

instance (presses : List (Keyboard × RdevEvent)) : Decidable (kb.Undoes event presses) :=
  inferInstanceAs (Decidable (LetsGo _ _))

variable {kb event}

theorem mem_pressedAs_append {presses others : List (Keyboard × RdevEvent)} {key : KeyUnion} :
    key ∈ pressedAs (presses ++ others) ↔ key ∈ pressedAs presses ∨ key ∈ pressedAs others := by
  rw [pressedAs, List.flatMap_append, List.mem_append]
  rfl

@[simp] theorem pressedAs_nil : pressedAs [] = [] := rfl

@[simp] theorem mem_pressedAs_singleton {key : KeyUnion} :
    key ∈ pressedAs [(kb, event)] ↔ .press key ∈ kb.keyEvents event := by
  simp [pressedAs, mem_pressed]

/-- **In map mode a key that goes up undoes its press**, as long as the keyboard is the same. -/
theorem mapMode_undoes (hmode : kb.mode = .map) {press : RdevEvent} (hpress : press.isPress = true)
    (hrelease : event.isPress = false) (hkey : event.key = press.key)
    (hposition : event.positionCode = press.positionCode) : kb.Undoes event [(kb, press)] := by
  have hsame : kb.mapKey event = kb.mapKey press := by
    rw [mapKey, mapKey, windowsPeerSpecialKey, windowsPeerSpecialKey, hkey, hposition]
  have hevents : ∀ e : RdevEvent, kb.keyEvents e =
      (kb.mapKey e).toList.map fun key => (e.stroke key).map kb.swapModifierKey := by
    intro e
    simp [keyEvents, modeEvents, hmode, mapKeyboardMode]
  have hpressed : pressedAs [(kb, press)] = pressed (kb.keyEvents press) := by simp [pressedAs]
  rw [Undoes, hpressed, hevents, hevents, hsame]
  cases kb.mapKey press with
  | none => simp [pressed, LetsGo]
  | some key => simp [pressed, LetsGo, RdevEvent.stroke, hpress, hrelease, Stroke.map]

variable {stroke : Stroke KeyUnion}

theorem mem_mapKeyboardMode (h : stroke ∈ kb.mapKeyboardMode event) :
    ∃ key, stroke = event.stroke key := by
  obtain ⟨key, -, rfl⟩ := List.mem_map.mp h
  exact ⟨key, rfl⟩

theorem mem_translateKeyboardMode (h : stroke ∈ kb.translateKeyboardMode event) :
    (∃ key, stroke = event.stroke key) ∨ ∃ text, stroke = .text text := by
  unfold translateKeyboardMode at h
  split_ifs at h
  · exact .inl (mem_mapKeyboardMode h)
  · cases h
  · exact .inl (mem_mapKeyboardMode h)
  · cases h
  · split at h
    · exact .inr ⟨_, List.mem_singleton.mp h⟩
    · exact .inl (mem_mapKeyboardMode h)
  · split at h
    · exact .inl (mem_mapKeyboardMode h)
    · exact .inl (mem_mapKeyboardMode h)

theorem mem_legacyKeyboardMode (h : stroke ∈ kb.legacyKeyboardMode event) :
    (∃ key, stroke = event.stroke key) ∨ ∃ key, stroke = .press key := by
  unfold legacyKeyboardMode at h
  split at h
  · cases h
  · split at h
    · split at h
      · exact .inr ⟨_, List.mem_singleton.mp h⟩
      · exact .inl ⟨_, List.mem_singleton.mp h⟩
    · split at h
      · cases h
      · split at h
        · exact .inr ⟨_, List.mem_singleton.mp h⟩
        · exact .inl ⟨_, List.mem_singleton.mp h⟩

/-- **A press lets go of nothing**, whatever it is sent as. -/
theorem release_notMem_keyEvents (hpress : event.isPress = true) (key : KeyUnion) :
    .release key ∉ kb.keyEvents event := by
  intro h
  obtain ⟨stroke, hstroke, hmap⟩ := List.mem_map.mp h
  have hkind : (∃ key, stroke = .press key) ∨ ∃ text, stroke = .text text := by
    have hown : ∀ key, event.stroke key = .press key := fun _ => if_pos hpress
    unfold modeEvents at hstroke
    split at hstroke
    · exact .inl ((mem_mapKeyboardMode hstroke).imp fun _ h => h.trans (hown _))
    · exact (mem_translateKeyboardMode hstroke).imp_left (.imp fun _ h => h.trans (hown _))
    all_goals
      rcases mem_legacyKeyboardMode hstroke with ⟨key, h⟩ | h
      · exact .inl ⟨key, h.trans (hown _)⟩
      · exact .inl h
  rcases hkind with ⟨key, rfl⟩ | ⟨text, rfl⟩ <;> cases hmap

end Keyboard
end RustDesk
