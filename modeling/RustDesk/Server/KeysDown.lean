import RustDesk.Server.Keyboard
import RustDesk.Lib.Run

/-!
# Keys that stay down (Linux)

`fix_key_down_timeout(true)` releases what `KEYS_DOWN` records.  So nothing stays down if
every key that is held is recorded (`Recorded`), and a step keeps that up exactly if it does
none of three things: hold a raw key on Wayland, which is not recorded; return early from a
function key whose modifiers it has pressed; forget a record without releasing its key.
-/

namespace RustDesk

open HeldKeys List

inductive KeyInput where
  | key (env : InputEnv) (evt : KeyEvent)
  | timeout (now : Nat)

def SkipsRelease (p : InputPlatform) (en : Enigo) (chr : Nat) : Prop :=
  p.waylandUseUinput = true ∧ isHotkeyModifierPressed en = false ∧
    (chr.isValidChar → isAsciiPrintable (Char.ofNat chr) = false)

namespace InputService

def step (p : InputPlatform) (s : InputService) : KeyInput → InputService
  | .key env evt => s.handleKey p env evt
  | .timeout now => s.fixKeyDownTimeout false now

def start : InputService := ⟨[], []⟩

/-- **Nothing stays down** when the last connection ends. -/
def NothingStuck (s : InputService) : Prop :=
  ∀ now, (s.fixKeyDownTimeout true now).keysDown = [] ∧
    ∀ key, held (s.fixKeyDownTimeout true now).log key = false

def Recorded (s : InputService) (key : InputKey) : Prop :=
  ∃ record ∈ s.keysDown.map (·.1), recordTarget record = some key

def Forgettable (s : InputService) (record : KeysDown) : Prop :=
  ∀ key, recordTarget record = some key → held s.log key = true →
    ∃ other ∈ s.keysDown.map (·.1), other ≠ record ∧ recordTarget other = some key

/-- What `legacy_keyboard_mode` must not do. -/
def KeepsLegacy (p : InputPlatform) (env : InputEnv) (evt : KeyEvent) (s : InputService) : Prop :=
  match evt.union with
  | some (.controlKey ck) =>
    if isFunctionKey ck then
      ∀ key ∈ (syncModifiers s.keysDown (s.enigo env) evt).2, s.Recorded (.enigo key)
    else
      evt.down = false → controlKeyValueToKey ck = none → s.Forgettable (controlRecord ck)
  | some (.chr chr) =>
    evt.down = false → SkipsRelease p (releaseShiftForCharInput p (s.enigo env)) chr →
      s.Forgettable (chrRecord chr)
  | _ => True

def KeepsRaw (p : InputPlatform) (evt : KeyEvent) : Prop := p.isX11 = true ∨ evt.down = false

/-- What the event presses is recorded, or released by itself. -/
def KeepsKey (p : InputPlatform) (env : InputEnv) (evt : KeyEvent) (s : InputService) : Prop :=
  match evt.mode with
  | .ok .map => KeepsRaw p evt
  | .ok .translate =>
    match evt.union with
    | some (.chr _) => KeepsRaw p evt
    | _ => True
  | _ => s.KeepsLegacy p env evt

/-- **A step that keeps every held key recorded.** -/
def Keeps (p : InputPlatform) (s : InputService) : KeyInput → Prop
  | .key env evt => s.KeepsKey p env evt
  | .timeout _ => True

def AllRecorded (s : InputService) : Prop := ∀ key, held s.log key = true → s.Recorded key

variable {s : InputService} {now : Nat}

theorem mem_records_release {record other : KeysDown} :
    other ∈ (s.recordPressedKey record false now).keysDown.map (·.1) ↔
      other ∈ s.keysDown.map (·.1) ∧ other ≠ record := by
  simp only [recordPressedKey, Bool.false_eq_true, if_false, mem_map, mem_filter, decide_eq_true_eq]
  constructor
  · rintro ⟨entry, ⟨hmem, hne⟩, rfl⟩
    exact ⟨⟨entry, hmem, rfl⟩, hne⟩
  · rintro ⟨⟨entry, hmem, rfl⟩, hne⟩
    exact ⟨entry, ⟨hmem, hne⟩, rfl⟩

theorem mem_records_press {record other : KeysDown} :
    other ∈ (s.recordPressedKey record true now).keysDown.map (·.1) ↔
      other = record ∨ other ∈ s.keysDown.map (·.1) := by
  have hcons : other ∈ (s.recordPressedKey record true now).keysDown.map (·.1) ↔
      other = record ∨ other ∈ (s.recordPressedKey record false now).keysDown.map (·.1) := by
    simp [recordPressedKey]
  rw [hcons, mem_records_release]
  tauto

theorem recorded_iff_press {record : KeysDown} {key : InputKey} :
    (s.recordPressedKey record true now).Recorded key ↔
      recordTarget record = some key ∨ s.Recorded key := by
  simp only [Recorded, mem_records_press, or_and_right, exists_or, exists_eq_left]

theorem recorded_iff_release {record : KeysDown} {key : InputKey} :
    (s.recordPressedKey record false now).Recorded key ↔
      ∃ other ∈ s.keysDown.map (·.1), other ≠ record ∧ recordTarget other = some key := by
  simp only [Recorded, mem_records_release, and_assoc]

theorem AllRecorded.lifts {s s' : InputService} (h : s.AllRecorded)
    (hkeys : s'.keysDown = s.keysDown) (hlog : Lifts s.log s'.log) : s'.AllRecorded := by
  intro key hheld
  obtain ⟨record, hrecord, htarget⟩ := h key (hlog key hheld)
  exact ⟨record, by rw [hkeys]; exact hrecord, htarget⟩

theorem AllRecorded.pressed {s s' : InputService} (h : s.AllRecorded) (record : KeysDown)
    (now : Nat) (hkeys : s'.keysDown = (s.recordPressedKey record true now).keysDown)
    (hlog : ∀ key, held s'.log key = true →
      held s.log key = true ∨ recordTarget record = some key) : s'.AllRecorded := by
  intro key hheld
  have hrecorded : (s.recordPressedKey record true now).Recorded key := by
    rw [recorded_iff_press]
    rcases hlog key hheld with hbefore | htarget
    · exact .inr (h key hbefore)
    · exact .inl htarget
  rw [Recorded, hkeys]
  exact hrecorded

theorem AllRecorded.released {s s' : InputService} (h : s.AllRecorded) (record : KeysDown)
    (now : Nat) (hkeys : s'.keysDown = (s.recordPressedKey record false now).keysDown)
    (hlog : Lifts s.log s'.log)
    (hup : ∀ key, recordTarget record = some key → held s'.log key = false) : s'.AllRecorded := by
  intro key hheld
  obtain ⟨other, hother, htarget⟩ := h key (hlog key hheld)
  have hne : other ≠ record := by
    rintro rfl
    rw [hup key htarget] at hheld
    exact absurd hheld nofun
  rw [Recorded, hkeys]
  exact recorded_iff_release.mpr ⟨other, hother, hne, htarget⟩

theorem allRecorded_forgotten_iff (s' : InputService) (h : s.AllRecorded)
    (record : KeysDown) (now : Nat)
    (hkeys : s'.keysDown = (s.recordPressedKey record false now).keysDown)
    (hlog : Lifts s.log s'.log)
    (hup : ∀ key, recordTarget record = some key → held s.log key = true → held s'.log key = true) :
    s'.AllRecorded ↔ s.Forgettable record := by
  constructor
  · intro h' key htarget hheld
    have hrecorded := h' key (hup key htarget hheld)
    rw [Recorded, hkeys] at hrecorded
    exact recorded_iff_release.mp hrecorded
  · intro hforget key hheld
    have hbefore := hlog key hheld
    obtain ⟨other, hother, htarget⟩ := h key hbefore
    rw [Recorded, hkeys]
    refine recorded_iff_release.mpr ?_
    by_cases hsame : other = record
    · subst hsame
      exact hforget key htarget hbefore
    · exact ⟨other, hother, hsame, htarget⟩

def fixEntry (expired : KeysDown × Nat → Bool) (now : Nat) (s : InputService)
    (entry : KeysDown × Nat) : InputService :=
  if expired entry then (s.recordPressedKey entry.1 false now).releaseRecordKey entry.1 else s

theorem fixKeyDownTimeout_eq (s : InputService) (force : Bool) (now : Nat) :
    s.fixKeyDownTimeout force now =
      s.keysDown.foldl (fixEntry (fun entry => force || decide (now - entry.2 ≥ 360000)) now) s :=
  rfl

theorem releaseRecordKey_keysDown (s : InputService) (record : KeysDown) :
    (s.releaseRecordKey record).keysDown = s.keysDown := by
  unfold releaseRecordKey
  split <;> rfl

theorem releaseRecordKey_held (s : InputService) (record : KeysDown) (key : InputKey) :
    held (s.releaseRecordKey record).log key = true ↔
      held s.log key = true ∧ recordTarget record ≠ some key := by
  unfold releaseRecordKey
  split
  · rename_i hnone
    simp [hnone]
  · rename_i target htarget
    rw [held_release, htarget, and_comm]
    exact and_congr_right fun _ => by simp [eq_comm]

theorem fixEntries_iff {P : InputService → Prop} {Q : KeysDown → Prop} {now : Nat}
    (hrelease : ∀ s record,
      P ((InputService.recordPressedKey s record false now).releaseRecordKey record) ↔
        P s ∧ Q record)
    (expired : KeysDown × Nat → Bool) (entries : KeysDownMap) (s : InputService) :
    P (entries.foldl (fixEntry expired now) s) ↔
      P s ∧ ∀ other ∈ entries, expired other = true → Q other.1 := by
  induction entries generalizing s with
  | nil => simp
  | cons other entries ih =>
    rw [foldl_cons, ih]
    unfold fixEntry
    by_cases hexpired : expired other = true
    · rw [if_pos hexpired, hrelease]
      simp [hexpired, and_assoc]
    · rw [if_neg hexpired]
      simp [hexpired]

theorem fixEntries_keysDown (expired : KeysDown × Nat → Bool) (now : Nat)
    (entries : KeysDownMap) (s : InputService) (entry : KeysDown × Nat) :
    entry ∈ (entries.foldl (fixEntry expired now) s).keysDown ↔
      entry ∈ s.keysDown ∧ ∀ other ∈ entries, expired other = true → entry.1 ≠ other.1 := by
  refine fixEntries_iff (P := fun s => entry ∈ s.keysDown) (fun s record => ?_) expired entries s
  rw [releaseRecordKey_keysDown]
  simp [recordPressedKey]

theorem fixEntries_held (expired : KeysDown × Nat → Bool) (now : Nat)
    (entries : KeysDownMap) (s : InputService) (key : InputKey) :
    held (entries.foldl (fixEntry expired now) s).log key = true ↔
      held s.log key = true ∧
        ∀ other ∈ entries, expired other = true → recordTarget other.1 ≠ some key :=
  fixEntries_iff (P := fun s => held s.log key = true)
    (fun _ record => releaseRecordKey_held _ record key) expired entries s

theorem nothingStuck_iff (s : InputService) : s.NothingStuck ↔ s.AllRecorded := by
  have hkeys : ∀ now, (s.fixKeyDownTimeout true now).keysDown = [] := by
    intro now
    rw [eq_nil_iff_forall_not_mem, fixKeyDownTimeout_eq]
    intro entry hentry
    obtain ⟨hmem, hnone⟩ := (fixEntries_keysDown _ _ _ _ _).mp hentry
    exact hnone entry hmem rfl rfl
  constructor
  · intro h key hheld
    by_contra hnot
    have hup := (h 0).2 key
    rw [← Bool.not_eq_true, fixKeyDownTimeout_eq, fixEntries_held] at hup
    refine hup ⟨hheld, fun entry hentry _ htarget => hnot ?_⟩
    exact ⟨entry.1, mem_map_of_mem hentry, htarget⟩
  · intro h now
    refine ⟨hkeys now, fun key => ?_⟩
    rw [← Bool.not_eq_true, fixKeyDownTimeout_eq, fixEntries_held]
    rintro ⟨hheld, hnone⟩
    obtain ⟨record, hrecord, htarget⟩ := h key hheld
    obtain ⟨entry, hentry, rfl⟩ := mem_map.mp hrecord
    exact hnone entry hentry rfl htarget

theorem AllRecorded.fixKeyDownTimeout (h : s.AllRecorded) (force : Bool)
    (now : Nat) : (s.fixKeyDownTimeout force now).AllRecorded := by
  intro key hheld
  rw [fixKeyDownTimeout_eq, fixEntries_held] at hheld
  obtain ⟨hbefore, hnone⟩ := hheld
  obtain ⟨record, hrecord, htarget⟩ := h key hbefore
  obtain ⟨entry, hentry, rfl⟩ := mem_map.mp hrecord
  refine ⟨entry.1, mem_map_of_mem ?_, htarget⟩
  rw [fixKeyDownTimeout_eq, fixEntries_keysDown]
  refine ⟨hentry, fun other hother hexpired heq => ?_⟩
  exact hnone other hother hexpired (heq ▸ htarget)

end InputService

theorem lifts_fixModifierUnless (modifiers : List Int) (ck : Int) (own key0 : ControlKey)
    (key1 : EnigoKey) (en : Enigo) :
    Lifts en.log (fixModifierUnless modifiers ck own key0 key1 en).log := by
  unfold fixModifierUnless fixModifier
  split_ifs
  · exact lifts_release _ _
  · exact .refl _
  · exact .refl _

theorem lifts_fixModifiers (modifiers : List Int) (en : Enigo) (ck : Int) :
    Lifts en.log (fixModifiers modifiers en ck).log := by
  dsimp only [fixModifiers]
  iterate 7 refine Lifts.trans ?_ (lifts_fixModifierUnless _ _ _ _ _ _)
  exact lifts_fixModifierUnless _ _ _ _ _ _

theorem pressModifiers_spec (keysDown : KeysDownMap) (modifiers : List Int) (en : Enigo)
    (toRelease : List EnigoKey) :
    ∃ pressed, (pressModifiers keysDown modifiers (en, toRelease)).2 = toRelease ++ pressed ∧
      ∀ key, held (pressModifiers keysDown modifiers (en, toRelease)).1.log key = true ↔
        held en.log key = true ∨ key ∈ pressed.map InputKey.enigo := by
  induction modifiers generalizing en toRelease with
  | nil => exact ⟨[], by simp [pressModifiers], by simp [pressModifiers]⟩
  | cons ck modifiers ih =>
    unfold pressModifiers
    split
    · exact ih en toRelease
    · rename_i key hkey
      split_ifs
      · exact ih en toRelease
      · obtain ⟨pressed, hlist, hheld⟩ := ih (en.keyDown key) (toRelease ++ [key])
        refine ⟨key :: pressed, by rw [hlist]; simp, fun other => ?_⟩
        rw [hheld, Enigo.keyDown, held_press, map_cons, mem_cons]
        tauto

theorem syncModifiers_held (keysDown : KeysDownMap) (en : Enigo) (evt : KeyEvent)
    {key : InputKey} (h : held (syncModifiers keysDown en evt).1.log key = true) :
    held en.log key = true ∨ key ∈ (syncModifiers keysDown en evt).2.map InputKey.enigo := by
  unfold syncModifiers at h ⊢
  split_ifs at h ⊢
  · obtain ⟨pressed, hlist, hheld⟩ := pressModifiers_spec keysDown evt.modifiers
      (releaseUnpressedModifiers en evt) []
    rw [hlist]
    exact ((hheld key).mp h).imp_left (lifts_fixModifiers _ _ _ key)
  · exact .inl h

theorem syncModifiers_pressed (keysDown : KeysDownMap) (en : Enigo) (evt : KeyEvent)
    {key : EnigoKey} (h : key ∈ (syncModifiers keysDown en evt).2) :
    held (syncModifiers keysDown en evt).1.log (.enigo key) = true := by
  unfold syncModifiers at h ⊢
  split_ifs at h ⊢
  · obtain ⟨pressed, hlist, hheld⟩ := pressModifiers_spec keysDown evt.modifiers
      (releaseUnpressedModifiers en evt) []
    rw [hlist] at h
    exact (hheld _).mpr (.inr (mem_map_of_mem h))
  · cases h

theorem syncModifiers_up (keysDown : KeysDownMap) (en : Enigo) {evt : KeyEvent}
    (h : evt.down = false) : syncModifiers keysDown en evt = (en, []) := by
  rw [syncModifiers, h, if_neg Bool.false_ne_true]

theorem releaseKeys_log (en : Enigo) (toRelease : List EnigoKey) :
    (releaseKeys en toRelease).log =
      (toRelease.map InputKey.enigo).foldl (fun log key => .release key :: log) en.log := by
  induction toRelease generalizing en with
  | nil => rfl
  | cons key toRelease ih =>
    rw [releaseKeys, foldl_cons, ← releaseKeys, ih]
    rfl

theorem releaseKeys_held (en : Enigo) (toRelease : List EnigoKey) (key : InputKey) :
    held (releaseKeys en toRelease).log key = true ↔
      held en.log key = true ∧ key ∉ toRelease.map InputKey.enigo := by
  rw [releaseKeys_log, held_releases]

theorem lifts_releaseShiftKey (p : InputPlatform) (key : EnigoKey) (rdevKey : RdevKey)
    (en : Enigo) : Lifts en.log (releaseShiftKey p key rdevKey en).log := by
  unfold releaseShiftKey
  split_ifs
  · exact lifts_release _ _
  · exact lifts_release _ _
  · exact .refl _

theorem lifts_releaseShiftForCharInput (p : InputPlatform) (en : Enigo) :
    Lifts en.log (releaseShiftForCharInput p en).log := by
  unfold releaseShiftForCharInput
  split_ifs
  · exact .refl _
  · exact (lifts_releaseShiftKey p _ _ _).trans (lifts_releaseShiftKey p _ _ _)

theorem releaseShiftForCharInput_layout (p : InputPlatform) (en : Enigo) (c : Char) :
    held (releaseShiftForCharInput p en).log (.enigo (.layout c)) =
      held en.log (.enigo (.layout c)) := by
  have hkey : ∀ (key : EnigoKey) (rdevKey : RdevKey) (en : Enigo), key ≠ .layout c →
      held (releaseShiftKey p key rdevKey en).log (.enigo (.layout c)) =
        held en.log (.enigo (.layout c)) := by
    intro key rdevKey en hne
    unfold releaseShiftKey
    split_ifs
    · simp [Enigo.simulateRelease, held]
    · simp [Enigo.keyUp, held, Ne.symm hne]
    · rfl
  unfold releaseShiftForCharInput
  split_ifs
  · rfl
  · rw [hkey .rightShift _ _ (by simp), hkey .shift _ _ (by simp)]

theorem lifts_keyClick (en : Enigo) (key : EnigoKey) : Lifts en.log (en.keyClick key).log :=
  lifts_click (.refl _)

theorem lifts_inputTextViaClipboardServer (clipboardSet : Bool) (en : Enigo) (text : String) :
    Lifts en.log (inputTextViaClipboardServer clipboardSet en text).log := by
  unfold inputTextViaClipboardServer
  split_ifs
  · exact .refl _
  · exact lifts_click (lifts_click (.refl _))

theorem lifts_keyClicks (chars : List Char) (en : Enigo) :
    Lifts en.log (chars.foldl (fun en c => en.keyClick (.layout c)) en).log := by
  induction chars generalizing en with
  | nil => exact .refl _
  | cons c chars ih => exact (lifts_keyClick en _).trans (ih _)

theorem lifts_processUnicode (p : InputPlatform) (clipboardSet : Bool) (en : Enigo) (chr : Nat) :
    Lifts en.log (processUnicode p clipboardSet en chr).log := by
  simp only [processUnicode]
  split_ifs
  · exact lifts_inputTextViaClipboardServer _ _ _
  · exact lifts_text _ _
  · exact .refl _

theorem lifts_processSeq (p : InputPlatform) (clipboardSet : Bool) (en : Enigo)
    (sequence : String) : Lifts en.log (processSeq p clipboardSet en sequence).log := by
  simp only [processSeq]
  split_ifs
  · exact lifts_inputTextViaClipboardServer _ _ _
  · exact lifts_text _ _

theorem lifts_translateSeq (p : InputPlatform) (env : InputEnv) (en : Enigo) (seq : String) :
    Lifts en.log (InputService.translateSeq p env en seq).log := by
  unfold InputService.translateSeq
  split_ifs
  · exact (lifts_releaseShiftForCharInput p en).trans (lifts_text _ _)
  · exact lifts_keyClicks _ _
  · exact (lifts_releaseShiftForCharInput p en).trans (lifts_text _ _)
  · exact (lifts_releaseShiftForCharInput p en).trans (lifts_inputTextViaClipboardServer _ _ _)
  · exact (lifts_releaseShiftForCharInput p en).trans (lifts_keyClicks _ _)

theorem charValueToKey_of_valid {chr : Nat} (h : chr.isValidChar) :
    charValueToKey chr = .layout (Char.ofNat chr) := by
  have hlt : chr < 2 ^ 32 := by
    rcases h with h | h
    · omega
    · omega
  rw [charValueToKey, Nat.mod_eq_of_lt hlt]

theorem processChr_down (p : InputPlatform) (clipboardSet : Bool) (en : Enigo) (chr : Nat)
    {key : InputKey} (h : held (processChr p clipboardSet en chr true).log key = true) :
    key = .enigo (charValueToKey chr) ∨ held en.log key = true := by
  simp only [processChr, if_true] at h
  split_ifs at h with _ hvalid
  · rw [charValueToKey_of_valid hvalid]
    exact held_press.mp h
  · exact .inr (lifts_inputTextViaClipboardServer _ _ _ key h)
  · exact .inr h
  · exact held_press.mp h

theorem processChr_up_skips {p : InputPlatform} {en : Enigo} {chr : Nat}
    (clipboardSet : Bool) (h : SkipsRelease p en chr) :
    processChr p clipboardSet en chr false = en := by
  obtain ⟨huinput, hhotkey, hprintable⟩ := h
  simp only [processChr, Bool.false_eq_true, if_false]
  rw [if_pos (by simp [huinput, hhotkey])]
  split_ifs with hvalid hascii
  · rw [hprintable hvalid] at hascii
    exact absurd hascii nofun
  · rfl
  · rfl

theorem processChr_up_releases {p : InputPlatform} {en : Enigo} {chr : Nat}
    (clipboardSet : Bool) (h : ¬SkipsRelease p en chr) :
    processChr p clipboardSet en chr false = en.keyUp (charValueToKey chr) := by
  simp only [processChr, Bool.false_eq_true, if_false]
  split_ifs with huinput hvalid hascii
  · rw [charValueToKey_of_valid hvalid]
  · refine absurd ⟨?_, ?_, fun _ => by simpa using hascii⟩ h
    · simpa using (Bool.and_eq_true_iff.mp huinput).1
    · simpa using (Bool.and_eq_true_iff.mp huinput).2
  · refine absurd ⟨?_, ?_, fun hv => absurd hv hvalid⟩ h
    · simpa using (Bool.and_eq_true_iff.mp huinput).1
    · simpa using (Bool.and_eq_true_iff.mp huinput).2
  · rfl

namespace InputService

theorem controlRecord_target {ck : Int} {key : EnigoKey} (h : controlKeyValueToKey ck = some key) :
    recordTarget (controlRecord ck) = some (.enigo key) := by
  obtain ⟨entry, hfind, -⟩ := Option.map_eq_some_iff.mp h
  have hvalue : entry.1.value = ck := by simpa using List.find?_some hfind
  have hrange : ∀ own : ControlKey, 0 ≤ own.value ∧ own.value < 9999 := by
    intro own
    cases own <;> decide
  obtain ⟨hlow, hhigh⟩ := hvalue ▸ hrange entry.1
  have hmod : ck % 2 ^ 64 = ck := Int.emod_eq_of_lt hlow (by omega)
  have hrecord : ((ck % 2 ^ 64).toNat : Int) = ck := by
    rw [hmod]
    exact Int.toNat_of_nonneg hlow
  have hlt : (ck % 2 ^ 64).toNat < keyCharStart := by
    unfold keyCharStart
    omega
  rw [controlRecord, recordTarget, recordKeyToKey, if_pos hlt, hrecord, h]
  rfl

theorem chrRecord_target (chr : Nat) :
    recordTarget (chrRecord chr) = some (.enigo (charValueToKey chr)) := by
  rw [chrRecord, recordTarget, recordKeyToKey, if_neg (by omega), Nat.add_sub_cancel]
  rfl

def isRaw : EnigoKey → Bool
  | .raw _ => true
  | _ => false

theorem recordTarget_ne_raw (record : KeysDown) (code : Nat) :
    recordTarget record ≠ some (.enigo (.raw code)) := by
  have hmap : ∀ entry ∈ keyMap, entry.2 ≠ .raw code := by
    have hall : ∀ entry ∈ keyMap, isRaw entry.2 = false := by decide
    intro entry hentry heq
    have hraw := hall entry hentry
    rw [heq] at hraw
    exact absurd hraw nofun
  cases record with
  | rdevKey rawKey => exact nofun
  | enigoKey recordKey =>
    intro htarget
    obtain ⟨key, hkey, hraw⟩ := Option.map_eq_some_iff.mp htarget
    cases hraw
    unfold recordKeyToKey at hkey
    split_ifs at hkey
    · obtain ⟨entry, hfind, hentry⟩ := Option.map_eq_some_iff.mp hkey
      exact hmap entry (mem_of_find?_eq_some hfind) hentry
    · exact absurd (Option.some.inj hkey) nofun

variable {s : InputService}

theorem AllRecorded.simRdevRawkeyPosition (h : s.AllRecorded) (code : Nat)
    (keydown : Bool) (now : Nat) : (s.simRdevRawkeyPosition code keydown now).AllRecorded := by
  cases keydown with
  | true =>
    refine h.pressed (.rdevKey (.linuxXorgKeycode code)) now rfl fun key hheld => ?_
    rcases held_press.mp hheld with rfl | hbefore
    · exact .inr rfl
    · exact .inl hbefore
  | false =>
    refine h.released (.rdevKey (.linuxXorgKeycode code)) now rfl
      (fun key hheld => (held_release.mp hheld).2) fun key htarget => ?_
    rw [← Bool.not_eq_true]
    intro hheld
    exact (held_release.mp hheld).1 (Option.some.inj htarget).symm

theorem allRecorded_waylandSendRawKey_iff (h : s.AllRecorded)
    (env : InputEnv) (code : Nat) (down : Bool) :
    (s.waylandSendRawKey env code down).AllRecorded ↔ down = false := by
  cases down with
  | true =>
    refine iff_of_false (fun h' => ?_) nofun
    obtain ⟨record, -, htarget⟩ := h' (.enigo (.raw code)) (held_press.mpr (.inl rfl))
    exact recordTarget_ne_raw record code htarget
  | false => exact iff_of_true (h.lifts rfl (lifts_release _ _)) rfl

theorem held_of_released {keysDown : KeysDownMap} {en en' : Enigo} {evt : KeyEvent}
    {target : Option InputKey}
    (h : ∀ key, held en'.log key = true →
      target = some key ∨ held (syncModifiers keysDown en evt).1.log key = true)
    {key : InputKey}
    (hheld : held (releaseKeys en' (syncModifiers keysDown en evt).2).log key = true) :
    held en.log key = true ∨ target = some key := by
  obtain ⟨hmid, hnot⟩ := (releaseKeys_held _ _ _).mp hheld
  rcases h key hmid with htarget | hsynced
  · exact .inr htarget
  · exact .inl ((syncModifiers_held _ _ _ hsynced).resolve_right hnot)

theorem AllRecorded.legacyText (h : s.AllRecorded) (env : InputEnv) (evt : KeyEvent) {en' : Enigo}
    (hlog : Lifts (syncModifiers s.keysDown (s.enigo env) evt).1.log en'.log) :
    (s.injected (releaseKeys en' (syncModifiers s.keysDown (s.enigo env) evt).2)).AllRecorded := by
  refine h.lifts rfl fun key hheld => ?_
  have hcases : held (s.enigo env).log key = true ∨ none = some key :=
    held_of_released (fun other hother => .inr (hlog other hother)) hheld
  exact hcases.resolve_right nofun

theorem allRecorded_functionKey_iff (h : s.AllRecorded) (env : InputEnv) (evt : KeyEvent) :
    (s.injected (syncModifiers s.keysDown (s.enigo env) evt).1).AllRecorded ↔
      ∀ key ∈ (syncModifiers s.keysDown (s.enigo env) evt).2, s.Recorded (.enigo key) := by
  constructor
  · intro h' key hkey
    exact h' (.enigo key) (syncModifiers_pressed _ _ _ hkey)
  · intro hpressed key hheld
    rcases syncModifiers_held _ _ _ hheld with hbefore | hmem
    · exact h key hbefore
    · obtain ⟨pressed, hlist, rfl⟩ := mem_map.mp hmem
      exact hpressed pressed hlist

theorem allRecorded_controlKey_iff (h : s.AllRecorded) (env : InputEnv)
    (evt : KeyEvent) (ck : Int) :
    ((s.recordPressedKey (controlRecord ck) evt.down env.now).injected
      (releaseKeys (processControlKey (syncModifiers s.keysDown (s.enigo env) evt).1 ck evt.down)
        (syncModifiers s.keysDown (s.enigo env) evt).2)).AllRecorded ↔
      (evt.down = false → controlKeyValueToKey ck = none → s.Forgettable (controlRecord ck)) := by
  cases hdown : evt.down with
  | true =>
    refine iff_of_true ?_ (by simp)
    refine h.pressed (controlRecord ck) env.now rfl fun key hheld =>
      held_of_released (fun other hother => ?_) hheld
    unfold processControlKey at hother
    split at hother
    · exact .inr hother
    · rename_i known hknown
      rw [controlRecord_target hknown]
      exact (held_press.mp hother).imp_left (congrArg some ·.symm)
  | false =>
    rw [syncModifiers_up _ _ hdown]
    cases hkey : controlKeyValueToKey ck with
    | none =>
      have hsame : processControlKey (s.enigo env) ck false = s.enigo env := by
        rw [processControlKey, hkey]
      rw [hsame]
      have hiff := allRecorded_forgotten_iff
        ((s.recordPressedKey (controlRecord ck) false env.now).injected (s.enigo env))
        h (controlRecord ck) env.now rfl (.refl _) (fun _ _ hheld => hheld)
      exact hiff.trans ⟨fun hforget _ _ => hforget, fun hforget => hforget rfl rfl⟩
    | some key =>
      refine iff_of_true ?_ (by simp)
      have hup : processControlKey (s.enigo env) ck false = (s.enigo env).keyUp key := by
        simp only [processControlKey, hkey, Bool.false_eq_true, if_false]
      rw [hup]
      refine h.released (controlRecord ck) env.now rfl (lifts_release _ _) fun target htarget => ?_
      rw [controlRecord_target hkey] at htarget
      rw [← Bool.not_eq_true]
      intro hheld
      exact (held_release.mp hheld).1 (Option.some.inj htarget).symm

theorem allRecorded_chr_iff (h : s.AllRecorded) (p : InputPlatform)
    (env : InputEnv) (evt : KeyEvent) (chr : Nat) :
    ((s.recordPressedKey (chrRecord chr) evt.down env.now).injected
      (releaseKeys
        (processChr p env.clipboardSet
          (releaseShiftForCharInput p (syncModifiers s.keysDown (s.enigo env) evt).1) chr evt.down)
        (syncModifiers s.keysDown (s.enigo env) evt).2)).AllRecorded ↔
      (evt.down = false → SkipsRelease p (releaseShiftForCharInput p (s.enigo env)) chr →
        s.Forgettable (chrRecord chr)) := by
  cases hdown : evt.down with
  | true =>
    refine iff_of_true ?_ (by simp)
    refine h.pressed (chrRecord chr) env.now rfl fun key hheld =>
      held_of_released (fun other hother => ?_) hheld
    rw [chrRecord_target]
    rcases processChr_down _ _ _ _ hother with rfl | hbefore
    · exact .inl rfl
    · exact .inr (lifts_releaseShiftForCharInput _ _ _ hbefore)
  | false =>
    rw [syncModifiers_up _ _ hdown]
    by_cases hskips : SkipsRelease p (releaseShiftForCharInput p (s.enigo env)) chr
    · rw [processChr_up_skips env.clipboardSet hskips]
      have hiff := allRecorded_forgotten_iff
        ((s.recordPressedKey (chrRecord chr) false env.now).injected
          (releaseShiftForCharInput p (s.enigo env)))
        h (chrRecord chr) env.now rfl (lifts_releaseShiftForCharInput _ _)
        (fun key htarget hheld => ?_)
      · exact hiff.trans ⟨fun hforget _ _ => hforget, fun hforget => hforget rfl hskips⟩
      · rw [chrRecord_target] at htarget
        cases htarget
        exact (releaseShiftForCharInput_layout p (s.enigo env) _).trans hheld
    · rw [processChr_up_releases env.clipboardSet hskips]
      refine iff_of_true ?_ fun _ hskips' => absurd hskips' hskips
      refine h.released (chrRecord chr) env.now rfl
        ((lifts_releaseShiftForCharInput p (s.enigo env)).trans (lifts_release _ _))
        fun target htarget => ?_
      rw [chrRecord_target] at htarget
      rw [← Bool.not_eq_true]
      intro hheld
      exact (held_release.mp hheld).1 (Option.some.inj htarget).symm

theorem allRecorded_legacyKeyboardMode_iff (h : s.AllRecorded)
    (p : InputPlatform) (env : InputEnv) (evt : KeyEvent) :
    (s.legacyKeyboardMode p env evt).AllRecorded ↔ s.KeepsLegacy p env evt := by
  unfold legacyKeyboardMode KeepsLegacy
  cases hunion : evt.union with
  | none => exact iff_of_true (h.legacyText env evt (.refl _)) trivial
  | some union =>
    cases union with
    | controlKey ck =>
      dsimp only
      split_ifs
      · exact allRecorded_functionKey_iff h env evt
      · exact allRecorded_controlKey_iff h env evt ck
    | chr chr => exact allRecorded_chr_iff h p env evt chr
    | unicode chr =>
      exact iff_of_true (h.legacyText env evt
        ((lifts_releaseShiftForCharInput _ _).trans (lifts_processUnicode _ _ _ _))) trivial
    | seq seq => exact iff_of_true (h.legacyText env evt (lifts_processSeq _ _ _ _)) trivial
    | win2winHotkey code => exact iff_of_true (h.legacyText env evt (.refl _)) trivial

theorem allRecorded_rawKey_iff (h : s.AllRecorded) (p : InputPlatform)
    (env : InputEnv) (code : Nat) (down : Bool) :
    (if !p.isX11 then s.waylandSendRawKey env (code % 2 ^ 16) down
      else s.simRdevRawkeyPosition code down env.now).AllRecorded ↔
      p.isX11 = true ∨ down = false := by
  cases hx11 : p.isX11 with
  | true => exact iff_of_true (h.simRdevRawkeyPosition code down env.now) (.inl rfl)
  | false =>
    have hiff := allRecorded_waylandSendRawKey_iff h env (code % 2 ^ 16) down
    simpa using hiff

theorem allRecorded_translateKeyboardMode_iff (h : s.AllRecorded)
    (p : InputPlatform) (env : InputEnv) (evt : KeyEvent) :
    (s.translateKeyboardMode p env evt).AllRecorded ↔
      match evt.union with
      | some (.chr _) => KeepsRaw p evt
      | _ => True := by
  unfold translateKeyboardMode
  cases hunion : evt.union with
  | none => exact iff_of_true h trivial
  | some union =>
    cases union with
    | seq seq =>
      exact iff_of_true (h.lifts rfl (lifts_translateSeq p env (s.enigo env) seq)) trivial
    | chr chr => exact allRecorded_rawKey_iff h p env evt.chr evt.down
    | _ => exact iff_of_true h trivial

theorem allRecorded_step_iff (h : s.AllRecorded) (p : InputPlatform)
    (input : KeyInput) : (s.step p input).AllRecorded ↔ Keeps p s input := by
  cases input with
  | timeout now => exact iff_of_true (h.fixKeyDownTimeout false now) trivial
  | key env evt =>
    simp only [step, handleKey, Keeps, KeepsKey]
    cases hmode : evt.mode with
    | error code => exact allRecorded_legacyKeyboardMode_iff h p env evt
    | ok mode =>
      cases mode with
      | map => exact allRecorded_rawKey_iff h p env evt.chr evt.down
      | translate => exact allRecorded_translateKeyboardMode_iff h p env evt
      | _ => exact allRecorded_legacyKeyboardMode_iff h p env evt

open Run in
/-- **No key stays stuck**, after any number of the inputs, exactly if every input keeps what
is held recorded. -/
theorem no_key_stuck_iff (p : InputPlatform) (inputs : List KeyInput) :
    Always (step p) NothingStuck start inputs ↔ Along (step p) (Keeps p) start inputs := by
  have hstart : start.NothingStuck := (nothingStuck_iff start).mpr fun _ => nofun
  refine always_iff_along (n := 0) (N := inputs.length) (J := fun _ _ => True)
    (W := fun _ _ => True) (fun _ _ _ _ _ => trivial) (fun _ s input _ _ _ hgood => ?_)
    (by omega) trivial hstart (along_of_forall (fun _ _ => trivial) _ _)
  rw [nothingStuck_iff]
  exact allRecorded_step_iff ((nothingStuck_iff s).mp hgood) p input

def plainEnv : InputEnv := ⟨fun log key => held log (.enigo key), true, 0⟩

def legacyInput (down : Bool) (union : KeyUnion) (modifiers : List Int) : KeyInput :=
  .key plainEnv ⟨down, false, some union, modifiers, .ok .legacy⟩

/-- `é` is pressed with Control, and released after it. -/
def accentAfterControl : List KeyInput :=
  [legacyInput true (.controlKey ControlKey.control.value) [ControlKey.control.value],
    legacyInput true (.chr 233) [ControlKey.control.value],
    legacyInput false (.controlKey ControlKey.control.value) [],
    legacyInput false (.chr 233) []]

/-- **Keys that stay down**: a raw key on Wayland; Meta on X11, after the screen was locked
with it; and with uinput a character that was pressed in a hotkey. -/
theorem keys_stuck :
    ¬NothingStuck (Run.exec (step ⟨false, true⟩) start
        [.key plainEnv ⟨true, false, some (.chr 38), [], .ok .map⟩]) ∧
      ¬NothingStuck (Run.exec (step ⟨true, true⟩) start
        [legacyInput true (.controlKey ControlKey.lockScreen.value) [ControlKey.metaKey.value]]) ∧
      ¬NothingStuck (Run.exec (step ⟨false, true⟩) start accentAfterControl) := by
  refine ⟨fun h => ?_, fun h => ?_, fun h => ?_⟩
  · exact absurd ((h 0).2 (.enigo (.raw 38))) (by decide +kernel)
  · exact absurd ((h 0).2 (.enigo .metaKey)) (by decide +kernel)
  · exact absurd ((h 0).2 (.enigo (.layout 'é'))) (by decide +kernel)

end InputService
end RustDesk
