import RustDesk.Lib.Utf8Strict
import RustDesk.Clipboard.MultiClipboards

/-!
# What the server itself has put on the clipboard

On Wayland a text is typed by putting it on the clipboard and pasting it.  So that it is not
sent back to the peer as a new clipboard, the server keeps a record of it for a second, and
withholds a clipboard whose text is that of a record.

A record holds the first 1024 characters, and of a clipboard no more than 4096 bytes are
looked at.  The two limits fit together (`decodeUtf8Prefix_bytes`).  Records are dropped when
they are old, when there are too many, and when the text could not be put on the clipboard;
`Inv` is what they still say about the inputs, and with no more than 256 inputs in the last
second that is all (`shouldSkip_iff`).
-/

namespace RustDesk.WaylandClipboardInput

open List

/-- `WAYLAND_CLIPBOARD_INPUT_FILTER_WINDOW`, in nanoseconds. -/
def filterWindow : Nat := 1000000000

/-- `WAYLAND_CLIPBOARD_INPUT_MAX_RECORDS`. -/
def maxRecords : Nat := 256

/-- `WAYLAND_CLIPBOARD_INPUT_MAX_TEXT_CHARS`. -/
def maxTextChars : Nat := 1024

/-- `WAYLAND_CLIPBOARD_SKIP_CHECK_MAX_UTF8_BYTES`. -/
def skipCheckMaxUtf8Bytes : Nat := maxTextChars * 4

def decodeUtf8Prefix (bytes : Bytes) : Option Text :=
  let slice := bytes.take (min bytes.length skipCheckMaxUtf8Bytes)
  match Utf8.fromUtf8 slice with
  | .ok text => some text
  | .error e =>
    if e.errorLen.isSome then none
    else (Utf8.fromUtf8 (slice.take e.validUpTo)).toOption

/-- `normalize_wayland_clipboard_input_text`. -/
def normalizeText (text : Text) : Text := text.take maxTextChars

/-- `get_wayland_clipboard_input_normalized_text`. -/
def getNormalizedText (text : Text) : Option Text :=
  let normalized := normalizeText text
  if normalized = [] then none else some normalized

theorem decodeUtf8Prefix_bytes (text : Text) : ∃ p, decodeUtf8Prefix (Utf8.bytes text) = some p ∧
    normalizeText p = normalizeText text := by
  generalize hn : min (Utf8.bytes text).length skipCheckMaxUtf8Bytes = n
  obtain ⟨before, p, ⟨back, rfl⟩, hslice, hp, hall, hread⟩ :=
    Utf8.fromUtf8_cut (take_append_drop n (Utf8.bytes text))
  refine ⟨before, ?_, ?_⟩
  · unfold decodeUtf8Prefix
    dsimp only
    rw [hn, hread]
    split_ifs
    · rfl
    · dsimp only
      rw [hslice, take_left, Utf8.fromUtf8_bytes]
      rfl
  · by_cases hshort : maxTextChars ≤ before.length
    · rw [normalizeText, normalizeText, take_append_of_le_length hshort]
    · -- fewer characters are in front of the cut only if nothing is behind it
      have hlength := congrArg List.length hslice
      have hfour := Utf8.bytes_length_le before
      have hbytes : n < skipCheckMaxUtf8Bytes := by
        rw [length_take, length_append] at hlength
        rw [skipCheckMaxUtf8Bytes]
        omega
      have hnone : (Utf8.bytes (before ++ back)).drop n = [] := drop_eq_nil_of_le (by omega)
      rw [← hall hnone]

example : decodeUtf8Prefix [97, 0xE4, 0xB8] = some ['a'] := by decide +kernel

example : decodeUtf8Prefix [97, 98, 0xFF, 99] = none := by decide +kernel

/-- The instant of an input, and its normalized text. -/
abbrev Record := Nat × Text

/-- `cleanup_wayland_clipboard_input_records`. -/
def cleanupRecords (records : List Record) (now : Nat) : List Record :=
  let retained := records.filter fun r => now - r.1 ≤ filterWindow
  if maxRecords < retained.length then retained.drop (retained.length - maxRecords) else retained

/-- `record_wayland_clipboard_input_for_sync_filter`: the records, and the new one. -/
def recordInput (isX11 : Bool) (records : List Record) (now : Nat) (text : Text) :
    List Record × Option Record :=
  if text = [] ∨ isX11 then (records, none)
  else
    match getNormalizedText text with
    | none => (records, none)
    | some normalized => (cleanupRecords records now ++ [(now, normalized)], some (now, normalized))

/-- `rollback_wayland_clipboard_input_record`: the last one that is equal is removed. -/
def rollbackRecord (records : List Record) (now : Nat) (record : Record) : List Record :=
  ((cleanupRecords records now).reverse.erase record).reverse

/-- `is_recent_wayland_clipboard_input`, and the records after it. -/
def isRecent (isX11 : Bool) (records : List Record) (now : Nat) (text : Text) :
    Bool × List Record :=
  if text = [] ∨ isX11 then (false, records)
  else
    match getNormalizedText text with
    | none => (false, records)
    | some normalized =>
      let records := cleanupRecords records now
      (records.any fun r => r.2 = normalized, records)

/-- How far a call of `set_clipboard_for_paste_sync` is. -/
inductive Phase where
  | setting
  | set
  | rolledBack
  deriving DecidableEq

structure Input where
  createdAt : Nat
  text : Text
  phase : Phase
  deriving DecidableEq

def Input.record (input : Input) : Record := (input.createdAt, normalizeText input.text)

structure Filter where
  now : Nat
  records : List Record
  inputs : List Input

inductive ClipboardMessage where
  | clipboard (clipboard : Clipboard)
  | multiClipboards (clipboards : List Clipboard)
  | other

def ClipboardMessage.clipboards : ClipboardMessage → List Clipboard
  | .clipboard c => [c]
  | .multiClipboards cs => cs
  | .other => []

def lookups : Nat → List Clipboard → List Nat → List (Nat × Clipboard)
  | _, [], _ => []
  | now, clipboard :: clipboards, delays =>
    (now + delays.headD 0, clipboard) :: lookups (now + delays.headD 0) clipboards delays.tail

def messageLookups (now : Nat) (delays : List Nat) : ClipboardMessage → List (Nat × Clipboard)
  | .clipboard clipboard => [(now, clipboard)]
  | .multiClipboards clipboards => lookups now clipboards delays
  | .other => []

namespace Filter

def start : Filter := ⟨0, [], []⟩

def tick (s : Filter) (d : Nat) : Filter := { s with now := s.now + d }

variable (isX11 : Bool) (decompress : Bytes → Bytes)

/-- `set_clipboard_for_paste_sync`, up to the call of `set_clipboard_content`. -/
def setClipboard (s : Filter) (text : Text) : Filter :=
  match recordInput isX11 s.records s.now text with
  | (records, none) => { s with records }
  | (records, some _) => { s with records, inputs := s.inputs ++ [⟨s.now, text, .setting⟩] }

/-- The rest of it, for one of the inputs, once `set_clipboard_content` has returned. -/
def clipboardSet (s : Filter) (k : Nat) (ok : Bool) : Filter :=
  match s.inputs[k]? with
  | none => s
  | some input =>
    if input.phase ≠ .setting then s
    else if ok then { s with inputs := s.inputs.set k { input with phase := .set } }
    else
      { s with
        records := rollbackRecord s.records s.now input.record
        inputs := s.inputs.set k { input with phase := .rolledBack } }

def decodeTextClipboard (clipboard : Clipboard) : Option Text :=
  match clipboard.format with
  | .ok .text =>
    if clipboard.compress then decodeUtf8Prefix (decompress clipboard.content)
    else decodeUtf8Prefix clipboard.content
  | _ => none

/-- `is_recent_wayland_input`. -/
def isRecentInput (s : Filter) (clipboard : Clipboard) : Bool × Filter :=
  match decodeTextClipboard decompress clipboard with
  | none => (false, s)
  | some text =>
    ((isRecent isX11 s.records s.now text).1,
      { s with records := (isRecent isX11 s.records s.now text).2 })

/-- `any` over the clipboards of a message, with the time that passes before each. -/
def anyRecent (s : Filter) : List Clipboard → List Nat → Bool × Filter
  | [], _ => (false, s)
  | clipboard :: clipboards, delays =>
    let looked := (s.tick (delays.headD 0)).isRecentInput isX11 decompress clipboard
    if looked.1 then looked else looked.2.anyRecent clipboards delays.tail

/-- `should_skip_wayland_clipboard_sync`. -/
def shouldSkip (s : Filter) (msg : ClipboardMessage) (delays : List Nat) : Bool × Filter :=
  if isX11 then (false, s)
  else
    match msg with
    | .clipboard clipboard => s.isRecentInput isX11 decompress clipboard
    | .multiClipboards clipboards => s.anyRecent isX11 decompress clipboards delays
    | .other => (false, s)

end Filter

inductive Step where
  | tick (d : Nat)
  | setClipboard (text : Text)
  | clipboardSet (k : Nat) (ok : Bool)
  | sync (msg : ClipboardMessage) (delays : List Nat)

def Filter.step (isX11 : Bool) (decompress : Bytes → Bytes) (s : Filter) : Step → Filter
  | .tick d => s.tick d
  | .setClipboard text => s.setClipboard isX11 text
  | .clipboardSet k ok => s.clipboardSet k ok
  | .sync msg delays => (s.shouldSkip isX11 decompress msg delays).2

def kept (inputs : List Input) : List Record :=
  (inputs.filter fun input => input.phase ≠ .rolledBack).map Input.record

def Dropped (now : Nat) (inputs : List Input) (r : Record) : Prop :=
  filterWindow < now - r.1 ∨ maxRecords < inputs.countP fun input => r.1 ≤ input.createdAt

/-- **What the records still say about the inputs.** -/
structure Inv (isX11 : Bool) (s : Filter) : Prop where
  past : ∀ input ∈ s.inputs, input.createdAt ≤ s.now ∧ input.text ≠ [] ∧ isX11 = false
  sorted : s.records.Pairwise fun r r' => r.1 ≤ r'.1
  count_le : ∀ r, s.records.count r ≤ (kept s.inputs).count r
  dropped : ∀ r, s.records.count r < (kept s.inputs).count r → Dropped s.now s.inputs r

variable {isX11 : Bool} {s : Filter} {records : List Record} {now : Nat} {r : Record}

theorem cleanupRecords_eq (records : List Record) (now : Nat) : cleanupRecords records now =
    (records.filter fun r => now - r.1 ≤ filterWindow).drop
      ((records.filter fun r => now - r.1 ≤ filterWindow).length - maxRecords) := by
  unfold cleanupRecords
  dsimp only
  split
  · rfl
  · rename_i h
    rw [Nat.sub_eq_zero_of_le (Nat.le_of_not_lt h), drop_zero]

theorem cleanupRecords_sublist (records : List Record) (now : Nat) :
    (cleanupRecords records now).Sublist records := by
  rw [cleanupRecords_eq]
  exact (drop_sublist _ _).trans filter_sublist

theorem recent_of_mem (h : r ∈ cleanupRecords records now) : now - r.1 ≤ filterWindow := by
  rw [cleanupRecords_eq] at h
  simpa using (mem_filter.mp (mem_of_mem_drop h)).2

theorem countP_of_cleanup (hsorted : records.Pairwise fun r r' => r.1 ≤ r'.1)
    (h : (cleanupRecords records now).count r < records.count r) :
    filterWindow < now - r.1 ∨ maxRecords < records.countP fun r' => r.1 ≤ r'.1 := by
  by_cases hold : filterWindow < now - r.1
  · exact .inl hold
  right
  rw [cleanupRecords_eq] at h
  generalize hretained : (records.filter fun r => now - r.1 ≤ filterWindow) = retained at h
  have hsub : retained.Sublist records := hretained ▸ filter_sublist
  have hcount : retained.count r = records.count r := by
    rw [← hretained]
    exact count_filter (by simpa using hold)
  have hsplit := take_append_drop (retained.length - maxRecords) retained
  have hmem : r ∈ retained.take (retained.length - maxRecords) := by
    have hboth := congrArg (List.count r) hsplit
    rw [count_append] at hboth
    exact count_pos_iff.mp (by omega)
  have hbehind : ∀ r' ∈ retained.drop (retained.length - maxRecords), r.1 ≤ r'.1 := by
    have hpairs := hsorted.sublist hsub
    rw [← hsplit, pairwise_append] at hpairs
    exact hpairs.2.2 r hmem
  have hfront : 0 < (retained.take (retained.length - maxRecords)).countP fun r' => r.1 ≤ r'.1 :=
    countP_pos_iff.mpr ⟨r, hmem, by simp⟩
  have hback : (retained.drop (retained.length - maxRecords)).countP (fun r' => r.1 ≤ r'.1) =
      (retained.drop (retained.length - maxRecords)).length :=
    countP_eq_length.mpr fun r' hr' => by simpa using hbehind r' hr'
  have hall := hsub.countP_le (p := fun r' => r.1 ≤ r'.1)
  have hlong := length_pos_of_mem hmem
  rw [← hsplit, countP_append, hback, length_drop] at hall
  rw [length_take] at hlong
  omega

variable {inputs : List Input}

theorem countP_le_inputs (h : ∀ r, records.count r ≤ (kept inputs).count r)
    (createdAt : Nat) : (records.countP fun r => createdAt ≤ r.1) ≤
      inputs.countP fun input => createdAt ≤ input.createdAt := by
  have hsub : records.Subperm (kept inputs) := subperm_ext_iff.mpr fun r _ => h r
  refine Nat.le_trans (hsub.countP_le _) ?_
  rw [kept, countP_map]
  exact filter_sublist.countP_le

theorem Inv.cleanup (h : Inv isX11 s) :
    Inv isX11 { s with records := cleanupRecords s.records s.now } := by
  refine ⟨h.past, h.sorted.sublist (cleanupRecords_sublist _ _), fun r => ?_, fun r hr => ?_⟩
  · exact Nat.le_trans ((cleanupRecords_sublist _ _).count_le r) (h.count_le r)
  · by_cases hbefore : s.records.count r < (kept s.inputs).count r
    · exact h.dropped r hbefore
    · have heq := Nat.le_antisymm (h.count_le r) (Nat.le_of_not_lt hbefore)
      rcases countP_of_cleanup h.sorted (Nat.lt_of_lt_of_eq hr heq.symm) with hold | hmany
      · exact .inl hold
      · exact .inr (Nat.lt_of_lt_of_le hmany (countP_le_inputs h.count_le r.1))

theorem Inv.tick (h : Inv isX11 s) (d : Nat) : Inv isX11 (s.tick d) := by
  refine { h with past := fun input hinput => ?_, dropped := fun r hr => ?_ }
  · obtain ⟨hle, hrest⟩ := h.past input hinput
    exact ⟨Nat.le_trans hle (Nat.le_add_right _ _), hrest⟩
  · rcases h.dropped r hr with hold | hmany
    · refine .inl ?_
      show filterWindow < s.now + d - r.1
      omega
    · exact .inr hmany

theorem mem_kept : r ∈ kept inputs ↔
    ∃ input ∈ inputs, input.phase ≠ .rolledBack ∧ input.record = r := by
  simp [kept, and_assoc]

theorem Inv.exists_input (h : Inv isX11 s) (hr : r ∈ s.records) :
    ∃ input ∈ s.inputs, input.phase ≠ .rolledBack ∧ input.record = r := by
  have hpos := Nat.lt_of_lt_of_le (count_pos_iff.mpr hr) (h.count_le r)
  exact mem_kept.mp (count_pos_iff.mp hpos)

theorem getNormalizedText_of_ne {text : Text} (h : text ≠ []) :
    getNormalizedText text = some (normalizeText text) := by
  have hne : normalizeText text ≠ [] := fun hnil =>
    h ((take_eq_nil_iff.mp hnil).resolve_left (by decide))
  rw [getNormalizedText]
  exact if_neg hne

theorem Inv.setClipboard (h : Inv isX11 s) (text : Text) :
    Inv isX11 (s.setClipboard isX11 text) := by
  unfold Filter.setClipboard recordInput
  split_ifs with hnone
  · exact h
  · obtain ⟨htext, hx11⟩ := not_or.mp hnone
    have hclean := h.cleanup
    rw [getNormalizedText_of_ne htext]
    have hkept : kept (s.inputs ++ [⟨s.now, text, .setting⟩]) =
        kept s.inputs ++ [(s.now, normalizeText text)] := by
      simp [kept, Input.record]
    have hpast : ∀ r ∈ cleanupRecords s.records s.now, r.1 ≤ s.now := by
      intro r hr
      obtain ⟨input, hinput, -, rfl⟩ := hclean.exists_input hr
      exact (h.past input hinput).1
    refine ⟨?_, ?_, fun r => ?_, fun r hr => ?_⟩
    · intro input hinput
      rcases mem_append.mp hinput with hold | hnew
      · exact h.past input hold
      · rw [mem_singleton.mp hnew]
        exact ⟨Nat.le_refl _, htext, by simpa using hx11⟩
    · refine pairwise_append.mpr ⟨hclean.sorted, pairwise_singleton _ _, ?_⟩
      intro r hr r' hr'
      rw [mem_singleton.mp hr']
      exact hpast r hr
    · rw [hkept, count_append, count_append]
      exact Nat.add_le_add_right (hclean.count_le r) _
    · rw [hkept, count_append, count_append] at hr
      rcases hclean.dropped r (Nat.lt_of_add_lt_add_right hr) with hold | hmany
      · exact .inl hold
      · refine .inr (Nat.lt_of_lt_of_le hmany ?_)
        exact (sublist_append_left _ _).countP_le

theorem exists_split {input : Input} {k : Nat}
    (hk : inputs[k]? = some input) : ∃ front back, inputs = front ++ input :: back ∧
      ∀ input', inputs.set k input' = front ++ input' :: back := by
  obtain ⟨hlt, rfl⟩ := List.getElem?_eq_some_iff.mp hk
  refine ⟨inputs.take k, inputs.drop (k + 1), ?_, fun input' => ?_⟩
  · rw [getElem_cons_drop, take_append_drop]
  · rw [set_eq_take_append_cons_drop, if_pos hlt]

theorem Inv.withPhase {input : Input} {k : Nat} (phase : Phase) (h : Inv isX11 s)
    (hk : s.inputs[k]? = some input) (hsorted : records.Pairwise fun r r' => r.1 ≤ r'.1)
    (hle : ∀ r, records.count r ≤ (kept (s.inputs.set k { input with phase })).count r)
    (hdropped : ∀ r, records.count r < (kept (s.inputs.set k { input with phase })).count r →
      Dropped s.now s.inputs r) :
    Inv isX11 { s with records, inputs := s.inputs.set k { input with phase } } := by
  obtain ⟨front, back, hinputs, hset⟩ := exists_split hk
  refine ⟨?_, hsorted, hle, fun r hr => (hdropped r hr).imp id fun hmany => ?_⟩
  · intro other hother
    rcases mem_or_eq_of_mem_set hother with hold | rfl
    · exact h.past other hold
    · exact h.past input (mem_of_getElem? hk)
  · rw [hinputs, countP_append, countP_cons] at hmany
    dsimp only
    rw [hset, countP_append, countP_cons]
    exact hmany

theorem kept_set {input : Input} {k : Nat} (hk : inputs[k]? = some input)
    (hphase : input.phase = .setting) : ∃ front back,
      kept inputs = front ++ input.record :: back ∧
      kept (inputs.set k { input with phase := .set }) = front ++ input.record :: back ∧
      kept (inputs.set k { input with phase := .rolledBack }) = front ++ back := by
  obtain ⟨front, back, hinputs, hset⟩ := exists_split hk
  refine ⟨kept front, kept back, ?_, ?_, ?_⟩
  · simp [hinputs, kept, hphase]
  · rw [hset]
    simp [kept, Input.record]
  · rw [hset]
    simp [kept]

theorem Inv.clipboardSet (h : Inv isX11 s) (k : Nat) (ok : Bool) :
    Inv isX11 (s.clipboardSet k ok) := by
  unfold Filter.clipboardSet
  cases hk : s.inputs[k]? with
  | none => exact h
  | some input =>
    dsimp only
    split
    · exact h
    rename_i hphase
    obtain ⟨front, back, hkept, hset, hrolled⟩ := kept_set hk (not_not.mp hphase)
    split
    · refine h.withPhase .set hk h.sorted ?_ ?_
      · rw [hset, ← hkept]
        exact h.count_le
      · rw [hset, ← hkept]
        exact h.dropped
    · have hclean := h.cleanup
      have hcount : ∀ r, (rollbackRecord s.records s.now input.record).count r =
          (cleanupRecords s.records s.now).count r - if input.record = r then 1 else 0 := by
        intro r
        rw [rollbackRecord, count_reverse, count_erase, count_reverse]
        simp
      have hless : ∀ r, (kept s.inputs).count r =
          (front ++ back).count r + if input.record = r then 1 else 0 := by
        intro r
        rw [hkept, count_append, count_append, count_cons, Nat.add_assoc]
        simp
      refine h.withPhase .rolledBack hk ?_ ?_ ?_
      · have hsub := (erase_sublist (a := input.record)
          (l := (cleanupRecords s.records s.now).reverse)).reverse
        rw [reverse_reverse] at hsub
        exact hclean.sorted.sublist hsub
      · intro r
        rw [hrolled, hcount]
        exact Nat.sub_le_of_le_add (hless r ▸ hclean.count_le r)
      · intro r hr
        rw [hrolled, hcount] at hr
        refine hclean.dropped r ?_
        dsimp only
        rw [hless]
        generalize (if input.record = r then 1 else 0) = one at hr ⊢
        omega

def Holds (decompress : Bytes → Bytes) (clipboard : Clipboard) (text : Text) : Prop :=
  clipboard.format = .ok .text ∧ clipboardContent decompress clipboard = Utf8.bytes text

def WellFormed (decompress : Bytes → Bytes) (clipboard : Clipboard) : Prop :=
  clipboard.format = .ok .text → ∃ text, Holds decompress clipboard text

/-- The text was put in a short while ago, and not taken back. -/
def Filter.HasInput (s : Filter) (now : Nat) (text : Text) : Prop :=
  ∃ input ∈ s.inputs, input.phase ≠ .rolledBack ∧ now - input.createdAt ≤ filterWindow ∧
    input.text.take maxTextChars = text.take maxTextChars

/-- No more records are fresh than are kept. -/
def Filter.Few (s : Filter) : Prop :=
  (s.inputs.countP fun input => s.now - input.createdAt ≤ filterWindow) ≤ maxRecords

variable {decompress : Bytes → Bytes} {clipboard : Clipboard} {text : Text}

theorem isRecent_iff (h : Inv isX11 s) (hfew : s.Few) :
    (isRecent isX11 s.records s.now text).1 = true ↔ s.HasInput s.now text := by
  unfold isRecent
  split_ifs with hnone
  · refine iff_of_false (by simp) ?_
    rintro ⟨input, hinput, -, -, htext⟩
    obtain ⟨-, hne, hx11⟩ := h.past input hinput
    rcases hnone with rfl | hon
    · exact hne ((take_eq_nil_iff.mp htext).resolve_left (by decide))
    · rw [hx11] at hon
      cases hon
  · have hclean := h.cleanup
    rw [getNormalizedText_of_ne (not_or.mp hnone).1]
    dsimp only
    rw [any_eq_true]
    constructor
    · rintro ⟨r, hr, htext⟩
      obtain ⟨input, hinput, hphase, rfl⟩ := hclean.exists_input hr
      exact ⟨input, hinput, hphase, recent_of_mem hr, of_decide_eq_true htext⟩
    · rintro ⟨input, hinput, hphase, hrecent, htext⟩
      refine ⟨input.record, ?_, decide_eq_true htext⟩
      by_contra hmissing
      have hkept := count_pos_iff.mpr (mem_kept.mpr ⟨input, hinput, hphase, rfl⟩)
      rw [← count_eq_zero] at hmissing
      rcases hclean.dropped input.record (by rwa [hmissing]) with hold | hmany
      · exact absurd hrecent (Nat.not_le.mpr hold)
      · -- all of those inputs would be in the second before
        refine absurd hmany (Nat.not_lt.mpr (Nat.le_trans (countP_mono_left ?_) hfew))
        intro other _ hother
        have hlater : input.createdAt ≤ other.createdAt := of_decide_eq_true hother
        exact decide_eq_true (Nat.le_trans (Nat.sub_le_sub_left hlater s.now) hrecent)

theorem decodeTextClipboard_of_holds (h : Holds decompress clipboard text) :
    ∃ p, Filter.decodeTextClipboard decompress clipboard = some p ∧
      normalizeText p = normalizeText text := by
  obtain ⟨hformat, hcontent⟩ := h
  obtain ⟨p, hp, hsame⟩ := decodeUtf8Prefix_bytes text
  refine ⟨p, ?_, hsame⟩
  rw [Filter.decodeTextClipboard, hformat]
  rw [← hp, ← hcontent, clipboardContent]
  dsimp only
  split <;> rfl

theorem Inv.isRecentInput (h : Inv isX11 s) (decompress : Bytes → Bytes) (clipboard : Clipboard) :
    Inv isX11 (s.isRecentInput isX11 decompress clipboard).2 := by
  unfold Filter.isRecentInput
  cases Filter.decodeTextClipboard decompress clipboard with
  | none => exact h
  | some text =>
    dsimp only [isRecent]
    split_ifs with hnone
    · exact h
    · rw [getNormalizedText_of_ne (not_or.mp hnone).1]
      exact h.cleanup

theorem isRecentInput_rest (isX11 : Bool) (decompress : Bytes → Bytes) (s : Filter)
    (clipboard : Clipboard) :
    (s.isRecentInput isX11 decompress clipboard).2.now = s.now ∧
      (s.isRecentInput isX11 decompress clipboard).2.inputs = s.inputs := by
  unfold Filter.isRecentInput
  cases Filter.decodeTextClipboard decompress clipboard <;> exact ⟨rfl, rfl⟩

theorem isRecentInput_iff (h : Inv isX11 s) (hfew : s.Few)
    (hclipboard : WellFormed decompress clipboard) :
    (s.isRecentInput isX11 decompress clipboard).1 = true ↔
      ∃ text, Holds decompress clipboard text ∧ s.HasInput s.now text := by
  have hone : ∀ text, Holds decompress clipboard text →
      ((s.isRecentInput isX11 decompress clipboard).1 = true ↔ s.HasInput s.now text) := by
    intro text htext
    obtain ⟨p, hp, hsame⟩ := decodeTextClipboard_of_holds htext
    rw [Filter.isRecentInput, hp]
    refine (isRecent_iff h hfew).trans ?_
    rw [Filter.HasInput, Filter.HasInput, show p.take maxTextChars = _ from hsame]
    rfl
  by_cases hformat : clipboard.format = .ok .text
  · obtain ⟨text, htext⟩ := hclipboard hformat
    constructor
    · intro hrecent
      exact ⟨text, htext, (hone text htext).mp hrecent⟩
    · rintro ⟨other, hother, hinput⟩
      exact (hone other hother).mpr hinput
  · refine iff_of_false ?_ fun ⟨_, htext, _⟩ => hformat htext.1
    have hnone : Filter.decodeTextClipboard decompress clipboard = none := by
      unfold Filter.decodeTextClipboard
      split
      · rename_i heq
        exact absurd heq hformat
      · rfl
    rw [Filter.isRecentInput, hnone]
    exact Bool.false_ne_true

theorem Filter.Few.tick (h : s.Few) (d : Nat) : (s.tick d).Few := by
  refine Nat.le_trans (countP_mono_left fun input _ hrecent => ?_) h
  have hlater : s.now + d - input.createdAt ≤ filterWindow := of_decide_eq_true hrecent
  exact decide_eq_true (by omega)

theorem Filter.Few.of_rest {s' : Filter} (h : s.Few) (hnow : s'.now = s.now)
    (hinputs : s'.inputs = s.inputs) : s'.Few := by
  rwa [Filter.Few, hnow, hinputs]

theorem Inv.anyRecent {clipboards : List Clipboard} (delays : List Nat) (h : Inv isX11 s) :
    Inv isX11 (s.anyRecent isX11 decompress clipboards delays).2 := by
  induction clipboards generalizing s delays with
  | nil => exact h
  | cons clipboard clipboards ih =>
    rw [Filter.anyRecent]
    have hlooked := (h.tick (delays.headD 0)).isRecentInput decompress clipboard
    split
    · exact hlooked
    · exact ih delays.tail hlooked

theorem anyRecent_iff {clipboards : List Clipboard} (delays : List Nat) (h : Inv isX11 s)
    (hfew : s.Few) (hclipboards : ∀ clipboard ∈ clipboards, WellFormed decompress clipboard) :
    (s.anyRecent isX11 decompress clipboards delays).1 = true ↔
      ∃ looked ∈ lookups s.now clipboards delays, ∃ text, Holds decompress looked.2 text ∧
        s.HasInput looked.1 text := by
  induction clipboards generalizing s delays with
  | nil => simp [Filter.anyRecent, lookups]
  | cons clipboard clipboards ih =>
    have htick := h.tick (delays.headD 0)
    have hlater := hfew.tick (delays.headD 0)
    have hone := isRecentInput_iff htick hlater (hclipboards clipboard mem_cons_self)
    obtain ⟨hnow, hinputs⟩ := isRecentInput_rest isX11 decompress
      (s.tick (delays.headD 0)) clipboard
    rw [Filter.anyRecent, lookups]
    by_cases hlooked : ((s.tick (delays.headD 0)).isRecentInput isX11 decompress clipboard).1 = true
    · rw [if_pos hlooked]
      refine iff_of_true hlooked ?_
      exact ⟨(s.now + delays.headD 0, clipboard), mem_cons_self, hone.mp hlooked⟩
    · rw [if_neg hlooked]
      have hnext := ih delays.tail (htick.isRecentInput decompress clipboard)
        (hlater.of_rest hnow hinputs) fun c hc => hclipboards c (mem_cons_of_mem _ hc)
      rw [hnow] at hnext
      have hsame : ∀ now text, ((s.tick (delays.headD 0)).isRecentInput isX11 decompress
          clipboard).2.HasInput now text ↔ s.HasInput now text := by
        intro now text
        rw [Filter.HasInput, hinputs]
        rfl
      simp only [hsame] at hnext
      refine hnext.trans ⟨fun ⟨looked, hmem, hheld⟩ => ⟨looked, mem_cons_of_mem _ hmem, hheld⟩,
        fun ⟨looked, hmem, hheld⟩ => ?_⟩
      rcases mem_cons.mp hmem with rfl | hmem
      · exact absurd (hone.mpr hheld) hlooked
      · exact ⟨looked, hmem, hheld⟩

theorem Inv.shouldSkip (decompress : Bytes → Bytes) (h : Inv isX11 s) (msg : ClipboardMessage)
    (delays : List Nat) : Inv isX11 (s.shouldSkip isX11 decompress msg delays).2 := by
  unfold Filter.shouldSkip
  split
  · exact h
  · cases msg with
    | clipboard clipboard => exact h.isRecentInput decompress clipboard
    | multiClipboards clipboards => exact h.anyRecent delays
    | other => exact h

theorem Inv.step (decompress : Bytes → Bytes) (h : Inv isX11 s) (e : Step) :
    Inv isX11 (s.step isX11 decompress e) := by
  cases e with
  | tick d => exact h.tick d
  | setClipboard text => exact h.setClipboard text
  | clipboardSet k ok => exact h.clipboardSet k ok
  | sync msg delays => exact h.shouldSkip decompress msg delays

theorem inv_start : Inv isX11 .start :=
  ⟨by simp [Filter.start], List.Pairwise.nil, fun _ => Nat.le_refl _,
    fun _ h => absurd h (by simp [Filter.start, kept])⟩

theorem shouldSkip_iff (h : Inv isX11 s) (hfew : s.Few) {msg : ClipboardMessage}
    {delays : List Nat} (hmsg : ∀ clipboard ∈ msg.clipboards, WellFormed decompress clipboard) :
    (s.shouldSkip isX11 decompress msg delays).1 = true ↔
      ∃ looked ∈ messageLookups s.now delays msg, ∃ text, Holds decompress looked.2 text ∧
        s.HasInput looked.1 text := by
  unfold Filter.shouldSkip
  split
  · rename_i hx11
    refine iff_of_false Bool.false_ne_true ?_
    rintro ⟨-, -, -, -, input, hinput, -⟩
    rw [(h.past input hinput).2.2] at hx11
    cases hx11
  · cases msg with
    | clipboard clipboard =>
      rw [isRecentInput_iff h hfew (hmsg clipboard (mem_singleton_self _))]
      simp [messageLookups]
    | multiClipboards clipboards => exact anyRecent_iff delays h hfew hmsg
    | other => simp [messageLookups]

def after (isX11 : Bool) (decompress : Bytes → Bytes) (steps : List Step) : Filter :=
  Run.exec (Filter.step isX11 decompress) .start steps

/-- **What is withheld.**  The two limits agree on every text.  So after any steps with few inputs
in the last second, a text is withheld exactly if there was an input in the second before it is
looked at that has the same first characters and was not rolled back. -/
theorem withheld_iff (isX11 : Bool) (decompress : Bytes → Bytes) :
    (∀ text, ∃ p, decodeUtf8Prefix (Utf8.bytes text) = some p ∧
      normalizeText p = normalizeText text) ∧
    ∀ (steps : List Step) (msg : ClipboardMessage) (delays : List Nat),
      (after isX11 decompress steps).Few →
      (∀ clipboard ∈ msg.clipboards, WellFormed decompress clipboard) →
      (((after isX11 decompress steps).shouldSkip isX11 decompress msg delays).1 = true ↔
        ∃ looked ∈ messageLookups (after isX11 decompress steps).now delays msg,
          ∃ text, Holds decompress looked.2 text ∧
            (after isX11 decompress steps).HasInput looked.1 text) := by
  refine ⟨decodeUtf8Prefix_bytes, fun steps msg delays hfew hmsg => ?_⟩
  have hinv := (Run.always_of_step (fun s e (h : Inv isX11 s) => h.step decompress e)
    inv_start steps).last
  exact shouldSkip_iff hinv hfew hmsg

/-- A text that was typed a moment ago. -/
theorem withheld_hi : ((after false id [.setClipboard ['h', 'i'], .clipboardSet 0 true,
    .tick 5]).shouldSkip false id (.clipboard ⟨false, [104, 105], 0, 0, .ok .text, ""⟩) []).1 =
      true := by
  have hholds : Holds id ⟨false, [104, 105], 0, 0, .ok .text, ""⟩ ['h', 'i'] := ⟨rfl, by decide⟩
  refine ((withheld_iff false id).2 _ _ _ (by unfold Filter.Few; decide) ?_).mpr
    ⟨_, mem_singleton_self _, _, hholds, ⟨0, ['h', 'i'], .set⟩, ?_⟩
  · intro clipboard hmem
    rw [mem_singleton.mp hmem]
    exact fun _ => ⟨_, hholds⟩
  · decide

end RustDesk.WaylandClipboardInput
