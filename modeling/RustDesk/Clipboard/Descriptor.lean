import RustDesk.Clipboard.FileDescription
import RustDesk.Lib.CheckedArith

/-!
# The records of copied files, with all that is read of them

`FileDescription::parse_file_descriptors` with the times and the permissions, and with
every read and every sum as they may trap.  The buffer is long enough wherever it is read,
since the length of the message is checked against the number of records.  What may trap
is one product: a time is a number of 100 ns since 1601, and is not bounded before it is
made a number of nanoseconds (`parseFileDescriptors_traps_iff`).
-/

namespace RustDesk

open CheckedArith List

def ldapEpochDelta : Nat := 116444772610000000

def flagsFdSize : Nat := 0x40

def flagsFdLastWrite : Nat := 0x20

def flagsFdProgressui : Nat := 0x4000

def flagsFdUnixMode : Nat := 0x08

/-- `FileDescription`, with the times and the permissions.  A time is a number of
nanoseconds after the Unix epoch. -/
structure FullDescription extends FileDescription where
  atime : Nat
  lastModified : Nat
  lastMetadataChanged : Nat
  creationTime : Nat
  perm : Nat

namespace FullDescription

open FileDescription

def permOf (flags attributes perm : Nat) : Nat :=
  if flags &&& flagsFdUnixMode ≠ 0 then perm
  else if attributes = 0x80 then 0o755
  else if attributes &&& 0x01 ≠ 0 then 0o444
  else if attributes &&& 0x02 ≠ 0 then 0o400
  else if attributes &&& 0x10 ≠ 0 then 0o755
  else 0o644

def modifiedOf (flags lastWriteTime : Nat) : Except Trap Nat :=
  if flags &&& flagsFdLastWrite ≠ 0 ∧ ldapEpochDelta ≤ lastWriteTime then do
    let lastWriteTime ← sub lastWriteTime ldapEpochDelta
    mul 64 lastWriteTime 100
  else return 0

def parseFileDescriptor (bytes : Bytes) (connId : Int) :
    Except Trap (Bytes × Except ParseError FullDescription) := do
  let (flags, bytes) ← getLe 4 bytes
  let bytes ← advance 32 bytes
  let (attributes, bytes) ← getLe 4 bytes
  let bytes ← advance 12 bytes
  let (perm, bytes) ← getLe 4 bytes
  let (lastWriteTime, bytes) ← getLe 8 bytes
  let (fileSizeHigh, bytes) ← getLe 4 bytes
  let (fileSizeLow, bytes) ← getLe 4 bytes
  let block := bytes
  let bytes ← advance 520 bytes
  let block ← slice 520 block
  match fromUtf16le block with
  | none => return (bytes, .error .conversionFailure)
  | some wstr =>
    if flags &&& flagsFdAttributes = 0 then return (bytes, .error .invalidAttributes)
    else do
      let size ← add 64 (fileSizeHigh * 2 ^ 32 % 2 ^ 64) fileSizeLow
      let lastModified ← modifiedOf flags lastWriteTime
      return (bytes, .ok
        { connId := connId
          name := pathName wstr
          kind := if attributes &&& 0x10 ≠ 0 then .directory else .file
          size := size
          atime := lastModified
          lastModified := lastModified
          lastMetadataChanged := lastModified
          creationTime := lastModified
          perm := permOf flags attributes (perm % 2 ^ 16) })

/-- The loop of `parse_file_descriptors`. -/
def parseRecords (connId : Int) :
    Nat → Bytes → Except Trap (Except ParseError (List FullDescription))
  | 0, _ => return .ok []
  | count + 1, data => do
      let (data, desc) ← parseFileDescriptor data connId
      match desc with
      | .error e => return .error e
      | .ok desc =>
        let files ← parseRecords connId count data
        return files.map (desc :: ·)

def parseFileDescriptors (pdu : Bytes) (connId : Int) :
    Except Trap (Except ParseError (List FullDescription)) :=
  if pdu.length < 4 then return .error .insufficientLength
  else do
    let (count, data) ← getLe 4 pdu
    if data.length = 0 ∧ count = 0 then return .ok []
    else
      let wanted ← mul 64 592 count
      if data.length ≠ wanted then return .error .invalidLength
      else parseRecords connId count data

def flags (record : Bytes) : Nat := field record 0 4

def writeTime (record : Bytes) : Nat := field record 56 8

def Accepted (record : Bytes) : Prop :=
  (fromUtf16le ((record.drop 72).take 520)).isSome = true ∧ flags record &&& flagsFdAttributes ≠ 0

def HugeTime (record : Bytes) : Prop :=
  Accepted record ∧ flags record &&& flagsFdLastWrite ≠ 0 ∧
    2 ^ 64 ≤ (writeTime record - ldapEpochDelta) * 100

instance (record : Bytes) : Decidable (Accepted record) := inferInstanceAs (Decidable (_ ∧ _))

instance (record : Bytes) : Decidable (HugeTime record) := inferInstanceAs (Decidable (_ ∧ _))

def described (record : Bytes) (connId : Int) : Except Trap (Except ParseError FullDescription) :=
  match fromUtf16le ((record.drop 72).take 520) with
  | none => .ok (.error .conversionFailure)
  | some wstr =>
    if flags record &&& flagsFdAttributes = 0 then .ok (.error .invalidAttributes)
    else (modifiedOf (flags record) (writeTime record)).map fun lastModified => .ok
      { connId := connId
        name := pathName wstr
        kind := if field record 36 4 &&& 0x10 ≠ 0 then .directory else .file
        size := field record 64 4 * 2 ^ 32 + field record 68 4
        atime := lastModified
        lastModified := lastModified
        lastMetadataChanged := lastModified
        creationTime := lastModified
        perm := permOf (flags record) (field record 36 4) (field record 52 4 % 2 ^ 16) }

variable {bytes record : Bytes} {connId : Int} {count : Nat}

theorem parseFileDescriptor_eq (h : 592 ≤ bytes.length) :
    parseFileDescriptor bytes connId
      = (described bytes connId).map fun desc => (bytes.drop 592, desc) := by
  have hhigh := field_lt bytes 64
  have hlow := field_lt bytes 68
  have hshift : field bytes 64 4 * 2 ^ 32 % 2 ^ 64 = field bytes 64 4 * 2 ^ 32 := by
    refine Nat.mod_eq_of_lt ?_
    omega
  have hsize : add 64 (field bytes 64 4 * 2 ^ 32) (field bytes 68 4)
      = .ok (field bytes 64 4 * 2 ^ 32 + field bytes 68 4) := add_ok (by omega)
  have hget : ∀ start k, start + k ≤ 592 →
      getLe k (bytes.drop start) = .ok (field bytes start k, bytes.drop (start + k)) := by
    intro start k hk
    rw [getLe_ok (by rw [length_drop]; omega), drop_drop]
    rfl
  have hskip : ∀ start n, start + n ≤ 592 →
      advance n (bytes.drop start) = .ok (bytes.drop (start + n)) := by
    intro start n hn
    rw [advance_ok (by rw [length_drop]; omega), drop_drop]
  have hname : slice 520 (bytes.drop 72) = .ok ((bytes.drop 72).take 520) :=
    slice_ok (by rw [length_drop]; omega)
  have hfirst := hget 0 4 (by omega)
  rw [drop_zero] at hfirst
  simp only [parseFileDescriptor, hfirst, hget, hskip, hname, ok_bind, Nat.reduceAdd,
    Nat.reduceLeDiff]
  have hflags : field bytes 0 4 = flags bytes := rfl
  have htime : field bytes 56 8 = writeTime bytes := rfl
  unfold described
  rw [hflags, htime]
  cases fromUtf16le ((bytes.drop 72).take 520) with
  | none => rfl
  | some wstr =>
    by_cases hattributes : flags bytes &&& flagsFdAttributes = 0
    · simp only [hattributes, if_true]
      rfl
    · simp only [hattributes, if_false, hshift, hsize, ok_bind]
      cases modifiedOf (flags bytes) (writeTime bytes) <;> rfl

theorem modifiedOf_eq (hnot : ¬(flags record &&& flagsFdLastWrite ≠ 0 ∧
    2 ^ 64 ≤ (writeTime record - ldapEpochDelta) * 100)) :
    modifiedOf (flags record) (writeTime record) = .ok
      (if flags record &&& flagsFdLastWrite ≠ 0 then (writeTime record - ldapEpochDelta) * 100
        else 0) := by
  unfold modifiedOf
  by_cases hflag : flags record &&& flagsFdLastWrite ≠ 0
  · have hfits : (writeTime record - ldapEpochDelta) * 100 < 2 ^ 64 := by
      by_contra hge
      exact hnot ⟨hflag, by omega⟩
    rw [if_pos hflag]
    by_cases hepoch : ldapEpochDelta ≤ writeTime record
    · rw [if_pos ⟨hflag, hepoch⟩, sub_ok hepoch, ok_bind, mul_ok hfits]
    · rw [if_neg fun h => hepoch h.2, Nat.sub_eq_zero_of_le (by omega), Nat.zero_mul]
      rfl
  · rw [if_neg fun h => hflag h.1, if_neg hflag]
    rfl

theorem modifiedOf_trap (h : HugeTime record) :
    modifiedOf (flags record) (writeTime record) = .error .overflow := by
  obtain ⟨-, hflag, hhuge⟩ := h
  have hepoch : ldapEpochDelta ≤ writeTime record := by omega
  rw [modifiedOf, if_pos ⟨hflag, hepoch⟩, sub_ok hepoch, ok_bind, mul_trap (by omega)]

theorem described_cases (record : Bytes) (connId : Int) :
    (¬Accepted record ∧ ∃ e, described record connId = .ok (.error e)) ∨
      (HugeTime record ∧ described record connId = .error .overflow) ∨
      Accepted record ∧ ¬HugeTime record ∧ ∃ desc, described record connId = .ok (.ok desc) := by
  unfold described
  cases hname : fromUtf16le ((record.drop 72).take 520) with
  | none =>
    refine .inl ⟨fun h => ?_, _, rfl⟩
    rw [Accepted, hname] at h
    exact absurd h.1 (by simp)
  | some wstr =>
    by_cases hattributes : flags record &&& flagsFdAttributes = 0
    · exact .inl ⟨fun h => h.2 hattributes, _, if_pos hattributes⟩
    · have haccepted : Accepted record := ⟨by rw [hname]; rfl, hattributes⟩
      by_cases hhuge : HugeTime record
      · refine .inr (.inl ⟨hhuge, ?_⟩)
        simp only [hattributes, if_false, modifiedOf_trap hhuge]
        rfl
      · refine .inr (.inr ⟨haccepted, hhuge, ?_⟩)
        simp only [hattributes, if_false, modifiedOf_eq fun h => hhuge ⟨haccepted, h⟩]
        exact ⟨_, rfl⟩

def recordAt (data : Bytes) (k : Nat) : Bytes := (data.drop (592 * k)).take 592

/-- A record with a time that overflows, behind records that are accepted. -/
def ReachesHugeTime (data : Bytes) (count : Nat) : Prop :=
  ∃ k < count, (∀ j < k, Accepted (recordAt data j)) ∧ HugeTime (recordAt data k)

theorem described_take : described (bytes.take 592) connId = described bytes connId := by
  have hfield : ∀ start k, start + k ≤ 592 →
      field (bytes.take 592) start k = field bytes start k := by
    intro start k hk
    rw [field, field, drop_take, take_take, Nat.min_eq_left (by omega)]
  have hname : ((bytes.take 592).drop 72).take 520 = (bytes.drop 72).take 520 := by
    rw [drop_take, take_take, Nat.min_eq_left (by omega)]
  unfold described flags writeTime
  simp only [hname, hfield, Nat.reduceAdd, Nat.reduceLeDiff]

variable {data : Bytes}

theorem reachesHugeTime_succ : ReachesHugeTime data (count + 1) ↔ HugeTime (data.take 592) ∨
        Accepted (data.take 592) ∧ ReachesHugeTime (data.drop 592) count := by
  have hnext : ∀ k, recordAt data (k + 1) = recordAt (data.drop 592) k := by
    intro k
    rw [recordAt, recordAt, drop_drop]
    congr 2
    omega
  constructor
  · rintro ⟨k, hk, hbefore, hhuge⟩
    cases k with
    | zero => exact .inl hhuge
    | succ k =>
      refine .inr ⟨hbefore 0 (by omega), k, by omega, fun j hj => ?_, hnext k ▸ hhuge⟩
      rw [← hnext]
      exact hbefore (j + 1) (by omega)
  · rintro (hhuge | ⟨haccepted, k, hk, hbefore, hhuge⟩)
    · exact ⟨0, by omega, fun j hj => absurd hj (by omega), hhuge⟩
    · refine ⟨k + 1, by omega, fun j hj => ?_, hnext k ▸ hhuge⟩
      cases j with
      | zero => exact haccepted
      | succ j =>
        rw [hnext]
        exact hbefore j (by omega)

theorem parseRecords_traps_iff (h : 592 * count ≤ data.length) :
    (∃ e, parseRecords connId count data = .error e) ↔ ReachesHugeTime data count := by
  induction count generalizing data with
  | zero =>
    refine iff_of_false ?_ ?_
    · rintro ⟨e, he⟩
      cases he
    · rintro ⟨k, hk, -⟩
      exact absurd hk (by omega)
  | succ count ih =>
    have hrest : 592 * count ≤ (data.drop 592).length := by
      rw [length_drop]
      omega
    rw [reachesHugeTime_succ, ← ih hrest, parseRecords,
      parseFileDescriptor_eq (by omega), ← described_take]
    rcases described_cases (data.take 592) connId with
      ⟨hrefused, e, heq⟩ | ⟨hhuge, heq⟩ | ⟨haccepted, hsmall, desc, heq⟩
    · rw [heq]
      refine iff_of_false ?_ ?_
      · rintro ⟨e', he'⟩
        cases he'
      · rintro (hhuge | ⟨haccepted, -⟩)
        · exact hrefused hhuge.1
        · exact hrefused haccepted
    · rw [heq]
      exact iff_of_true ⟨_, rfl⟩ (.inl hhuge)
    · rw [heq]
      simp only [Except.map, ok_bind, haccepted, hsmall, false_or, true_and]
      cases parseRecords connId count (data.drop 592) with
      | error e => exact iff_of_true ⟨_, rfl⟩ ⟨_, rfl⟩
      | ok files =>
        refine iff_of_false ?_ ?_
        · rintro ⟨e, he⟩
          cases he
        · rintro ⟨e, he⟩
          cases he

def Traps (pdu : Bytes) : Prop :=
  4 ≤ pdu.length ∧ (pdu.drop 4).length = 592 * field pdu 0 4 ∧
    ReachesHugeTime (pdu.drop 4) (field pdu 0 4)

theorem parseFileDescriptors_traps_iff (pdu : Bytes) (connId : Int) :
    (∃ e, parseFileDescriptors pdu connId = .error e) ↔ Traps pdu := by
  unfold parseFileDescriptors Traps
  by_cases hshort : pdu.length < 4
  · rw [if_pos hshort]
    refine iff_of_false ?_ fun h => absurd h.1 (by omega)
    rintro ⟨e, he⟩
    cases he
  · have hcount := field_lt pdu 0
    have hget : getLe 4 pdu = .ok (field pdu 0 4, pdu.drop 4) := getLe_ok (by omega)
    rw [if_neg hshort, hget, ok_bind]
    dsimp only
    have hwanted : mul 64 592 (field pdu 0 4) = .ok (592 * field pdu 0 4) := mul_ok (by omega)
    by_cases hempty : (pdu.drop 4).length = 0 ∧ field pdu 0 4 = 0
    · rw [if_pos hempty]
      refine iff_of_false ?_ ?_
      · rintro ⟨e, he⟩
        cases he
      · rintro ⟨-, -, k, hk, -⟩
        omega
    · rw [if_neg hempty, hwanted, ok_bind]
      by_cases hlength : (pdu.drop 4).length = 592 * field pdu 0 4
      · rw [if_neg (not_not.mpr hlength), parseRecords_traps_iff (by omega)]
        exact ⟨fun h => ⟨by omega, hlength, h⟩, fun h => h.2.2⟩
      · rw [if_pos hlength]
        refine iff_of_false ?_ fun h => hlength h.2.1
        rintro ⟨e, he⟩
        cases he

theorem described_refines {r : Except ParseError FullDescription}
    (h : described record connId = .ok r) :
    r.map toFileDescription = FileDescription.parseFileDescriptor record connId := by
  unfold described at h
  unfold FileDescription.parseFileDescriptor
  cases hname : fromUtf16le ((record.drop 72).take 520) with
  | none =>
    rw [hname] at h
    cases h
    rfl
  | some wstr =>
    rw [hname] at h
    have hflags : flags record = field record 0 4 := rfl
    by_cases hattributes : flags record &&& flagsFdAttributes = 0
    · simp only [hattributes, if_true] at h
      cases h
      rw [hflags] at hattributes
      simp only [hattributes, if_true]
      rfl
    · simp only [hattributes, if_false] at h
      cases hmodified : modifiedOf (flags record) (writeTime record) with
      | error e =>
        rw [hmodified] at h
        cases h
      | ok lastModified =>
        rw [hmodified] at h
        cases h
        rw [hflags] at hattributes
        simp only [hattributes, if_false]
        rfl

variable {r : Except ParseError (List FullDescription)}

theorem parseRecords_refines
    (hlength : 592 * count ≤ data.length) (h : parseRecords connId count data = .ok r) :
    r.map (List.map toFileDescription) = FileDescription.parseRecords connId count data := by
  induction count generalizing data r with
  | zero =>
    cases h
    rfl
  | succ count ih =>
    have hrest : 592 * count ≤ (data.drop 592).length := by
      rw [length_drop]
      omega
    rw [parseRecords, parseFileDescriptor_eq (by omega), ← described_take] at h
    cases hdescribed : described (data.take 592) connId with
    | error e =>
      rw [hdescribed] at h
      cases h
    | ok desc =>
      have hfirst := described_refines hdescribed
      rw [hdescribed] at h
      simp only [Except.map, ok_bind] at h
      cases desc with
      | error e =>
        cases h
        rw [FileDescription.parseRecords, ← hfirst]
        rfl
      | ok desc =>
        cases hfiles : parseRecords connId count (data.drop 592) with
        | error e =>
          rw [hfiles] at h
          cases h
        | ok files =>
          have hothers := ih hrest hfiles
          rw [hfiles] at h
          cases h
          rw [FileDescription.parseRecords, ← hfirst, ← hothers]
          cases files <;> rfl

theorem parseFileDescriptors_refines {pdu : Bytes} (h : parseFileDescriptors pdu connId = .ok r) :
    r.map (List.map toFileDescription) = FileDescription.parseFileDescriptors pdu connId := by
  have hcount := field_lt pdu 0
  unfold parseFileDescriptors at h
  unfold FileDescription.parseFileDescriptors
  by_cases hshort : pdu.length < 4
  · rw [if_pos hshort] at h ⊢
    cases h
    rfl
  · have hget : getLe 4 pdu = .ok (field pdu 0 4, pdu.drop 4) := getLe_ok (by omega)
    have hwanted : mul 64 592 (field pdu 0 4) = .ok (592 * field pdu 0 4) := mul_ok (by omega)
    rw [if_neg hshort, hget, ok_bind] at h
    rw [if_neg hshort]
    dsimp only at h ⊢
    by_cases hempty : (pdu.drop 4).length = 0 ∧ field pdu 0 4 = 0
    · rw [if_pos hempty] at h ⊢
      cases h
      rfl
    · rw [if_neg hempty, hwanted, ok_bind] at h
      rw [if_neg hempty]
      by_cases hlength : (pdu.drop 4).length = 592 * field pdu 0 4
      · rw [if_neg (not_not.mpr hlength)] at h ⊢
        exact parseRecords_refines (by omega) h
      · rw [if_pos hlength] at h ⊢
        cases h
        rfl

end FullDescription
end RustDesk
