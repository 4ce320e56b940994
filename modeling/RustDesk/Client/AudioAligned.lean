import RustDesk.Client.AudioBuffer

/-!
# Whole frames in the audio buffer

The device plays the samples of the buffer in frames of one sample for each channel.  If the
number of samples that have left the front of the buffer is not a multiple of the channels, they
are swapped from then on.

* `aligned_iff_along`: **a playback stays good exactly if** a buffer is not kept for a device whose
  channels do not divide what has left it, what is dropped or read out whole is whole frames, and
  each shrink finds 600 ms and a level that suits the sample rate and the channels.
-/

namespace RustDesk.AudioBuffer

open List

inductive Entry (α : Type*) where
  /-- The samples appended, and those in the buffer afterwards. -/
  | appended (cap : Nat) (pcm after : List α)
  /-- The samples of a second, those in the buffer, and those skipped. -/
  | shrunk (perSecond having skip : Nat)

/-- What the code may do to the buffer: an append keeps its newest samples, a shrink takes at most a
third. -/
def Entry.Right {α : Type*} : Entry α → Prop
  | .appended cap pcm after => after.length ≤ cap ∧ pcm.drop (pcm.length - cap) <:+ after
  | .shrunk perSecond having skip => 600 * perSecond ≤ 1000 * having ∧ 3 * skip ≤ having

/-- The buffer with its device, and what has gone through it: all samples appended since it was
made, and how many of them have left it. -/
structure Playback (ρ α : Type*) where
  buffer : Buffer ρ
  /-- The static `tms` of `try_shrink`. -/
  tms : Int
  /-- The fill that the last `append_pcm2` returned. -/
  having : Nat
  sampleRate : Nat
  channels : Nat
  stream : List α
  removed : Nat
  log : List (Entry α)

inductive Event (α : Type*) where
  /-- `build_output_stream` for a device. -/
  | resize (sampleRate channels : Nat)
  /-- The first half of `append_pcm`. -/
  | appendPcm2 (pcm : List α)
  /-- The second half of `append_pcm`, at this time. -/
  | tryShrink (dt : Int)
  /-- The callback of the device, for so many samples. -/
  | read (n : Nat)
  /-- The buffer of another session sets `tms`. -/
  | elsewhere (tms : Int)

section

variable {ρ α : Type*} (R : RingBuffer ρ α)

def Playback.start : Playback ρ α where
  buffer := .default R
  tms := 0
  having := 0
  sampleRate := 48000
  channels := 2
  stream := []
  removed := 0
  log := []

def Playback.occupied (s : Playback ρ α) : Nat := R.occupiedLen s.buffer.ring

def Playback.capacity (s : Playback ρ α) : Nat := R.capacity s.buffer.ring

def Playback.leave (b : Buffer ρ) (s : Playback ρ α) : Playback ρ α :=
  { s with
    buffer := b
    removed := s.removed + (s.occupied R - R.occupiedLen b.ring) }

def Playback.step (s : Playback ρ α) : Event α → Playback ρ α
  | .resize sampleRate channels =>
    let b := s.buffer.resize R sampleRate channels
    let s' := { s with buffer := b, sampleRate := sampleRate, channels := channels }
    if sampleRate * channels * audioBufferMs / 1000 = s.capacity R then s'
    else { s' with stream := [], removed := 0 }
  | .appendPcm2 pcm =>
    let (b, having) := s.buffer.appendPcm2 R pcm
    { s with
      buffer := b
      having := having
      stream := s.stream ++ pcm
      removed := s.removed + (s.occupied R + pcm.length - R.occupiedLen b.ring)
      log := s.log ++ [.appended (s.capacity R) pcm (R.items b.ring)] }
  | .tryShrink dt =>
    let (b, tms) := s.buffer.tryShrink R s.having dt s.tms
    let skip := s.occupied R - R.occupiedLen b.ring
    let log := if skip > 0 then s.log ++ [.shrunk s.buffer.perSecond (s.occupied R) skip]
      else s.log
    { s.leave R b with tms := tms, log := log }
  | .read n =>
    let ring := (R.popSlice (min n (s.occupied R)) s.buffer.ring).2
    s.leave R { s.buffer with ring := ring }
  | .elsewhere tms => { s with tms := tms }

/-- Whole frames are gone, the rest is the newest there is and not too much, and the log is right.
-/
structure Playback.Good (s : Playback ρ α) : Prop where
  aligned : s.channels ∣ s.removed
  bounded : s.occupied R * 1000 ≤ audioBufferMs * (s.sampleRate * s.channels)
  newest : R.items s.buffer.ring = s.stream.drop s.removed
  log : ∀ e ∈ s.log, e.Right

/-- The caller passes and reads whole frames, of up to eight channels. -/
def Playback.Whole (s : Playback ρ α) : Event α → Prop
  | .resize sampleRate channels => 8000 ≤ sampleRate ∧ 1 ≤ channels ∧ channels ≤ 8
  | .appendPcm2 pcm => s.channels ∣ pcm.length
  | .read n => s.channels ∣ n
  | _ => True

/-- The samples that are skipped at a level of the shrink are whole frames. -/
def SuitsLevel (sampleRate channels level : Nat) : Prop :=
  if sampleRate * channels * level / 40 % 2 = 0 then sampleRate * level % 40 * channels < 40
  else 40 * (channels - 1) ≤ sampleRate * level % 40 * channels

/-- What is thrown away in the step are whole frames. -/
def Playback.Suits (s : Playback ρ α) : Event α → Prop
  | .resize sampleRate channels =>
    sampleRate * channels * audioBufferMs / 1000 = s.capacity R → channels ∣ s.removed
  | .appendPcm2 pcm => s.capacity R < s.occupied R + pcm.length → s.channels ∣ s.occupied R
  | .read n => s.occupied R < n → s.channels ∣ s.occupied R
  | .tryShrink dt => due s.tms dt → ∀ level,
      shrinkLevel (s.buffer.count s.having).counts = some level →
      0 < skipped (s.capacity R) level → skipped (s.capacity R) level * 3 < s.occupied R →
      600 * (s.sampleRate * s.channels) ≤ 1000 * s.occupied R ∧
        SuitsLevel s.sampleRate s.channels level
  | .elsewhere _ => True

end

theorem dvd_skipped_iff {sampleRate channels level : Nat} (hc : 1 ≤ channels) :
    channels ∣ skipped (3 * (sampleRate * channels)) level ↔
      SuitsLevel sampleRate channels level := by
  obtain ⟨a, r, hr, hq⟩ : ∃ a r, r < 40 ∧ sampleRate * level = 40 * a + r :=
    ⟨_, _, Nat.mod_lt _ (by decide), (Nat.div_add_mod _ 40).symm⟩
  have hmod : sampleRate * level % 40 = r := by omega
  have hn : sampleRate * channels * level / 40 = channels * a + r * channels / 40 := by
    have hprod : sampleRate * channels * level = r * channels + 40 * (channels * a) := by
      calc sampleRate * channels * level = sampleRate * level * channels := by ac_rfl
        _ = (40 * a + r) * channels := by rw [hq]
        _ = r * channels + 40 * (channels * a) := by rw [Nat.add_mul]; ac_rfl
    rw [hprod, Nat.add_mul_div_left _ _ (by decide), Nat.add_comm]
  have hskip : skipped (3 * (sampleRate * channels)) level =
      (channels * a + r * channels / 40 + 1) / 2 * 2 := by
    have hcap : 3 * (sampleRate * channels) * level = 3 * (sampleRate * channels * level) := by
      ac_rfl
    rw [skipped, hcap, Nat.mul_div_mul_left _ 40 (by decide : 0 < 3), hn]
  have hlt : r * channels / 40 < channels := by
    rw [Nat.div_lt_iff_lt_mul (by decide), Nat.mul_comm]
    exact Nat.mul_lt_mul_of_pos_left hr hc
  rw [hskip, SuitsLevel, hn, hmod]
  generalize ht : r * channels / 40 = t at *
  split
  case isTrue heven =>
    rw [show (channels * a + t + 1) / 2 * 2 = channels * a + t by omega,
      Nat.dvd_add_right (Nat.dvd_mul_right ..)]
    constructor
    · intro hdvd
      have hzero := Nat.eq_zero_of_dvd_of_lt hdvd hlt
      omega
    · intro hsmall
      have hzero : t = 0 := by omega
      rw [hzero]
      exact Nat.dvd_zero _
  case isFalse hodd =>
    rw [show (channels * a + t + 1) / 2 * 2 = channels * a + (t + 1) by omega,
      Nat.dvd_add_right (Nat.dvd_mul_right ..)]
    constructor
    · intro hdvd
      have hfull := Nat.le_of_dvd (Nat.succ_pos t) hdvd
      omega
    · intro hlarge
      exact ⟨1, by omega⟩

variable {ρ α : Type*} {R : RingBuffer ρ α} {b : Buffer ρ} {s : Playback ρ α} {pcm : List α}

theorem Buffer.items_appendPcm2 : R.items (b.appendPcm2 R pcm).1.ring =
    (R.items b.ring ++ pcm).drop (R.occupiedLen b.ring + pcm.length - R.capacity b.ring) := by
  unfold appendPcm2
  simp only
  split
  · exact R.items_push pcm b.ring
  · simp only
    rw [R.items_push]
    split
    · rw [R.items_skip, R.capacity_skip, length_drop, ← RingBuffer.occupiedLen]
      rw [show R.occupiedLen b.ring - (R.occupiedLen b.ring + pcm.length - R.capacity b.ring) +
        pcm.length - R.capacity b.ring = 0 by omega, drop_zero,
        drop_append_of_le_length]
      rw [← RingBuffer.occupiedLen]
      omega
    · rfl

theorem Buffer.occupiedLen_appendPcm2 : R.occupiedLen (b.appendPcm2 R pcm).1.ring =
    min (R.occupiedLen b.ring + pcm.length) (R.capacity b.ring) := by
  rw [RingBuffer.occupiedLen, items_appendPcm2, length_drop, length_append,
    ← RingBuffer.occupiedLen]
  omega

theorem Buffer.right_appendPcm2 : (Entry.appended (R.capacity b.ring) pcm
    (R.items (b.appendPcm2 R pcm).1.ring)).Right := by
  refine ⟨?_, ?_⟩
  · rw [← RingBuffer.occupiedLen, occupiedLen_appendPcm2]
    omega
  · have hsub : R.occupiedLen b.ring + pcm.length - R.capacity b.ring -
        (R.items b.ring).length = pcm.length - R.capacity b.ring := by
      unfold RingBuffer.occupiedLen
      omega
    rw [items_appendPcm2, drop_append, hsub]
    exact suffix_append ..

theorem Buffer.having_appendPcm2 : (b.appendPcm2 R pcm).2 =
    min (R.occupiedLen b.ring + pcm.length) (R.capacity b.ring) := by
  rw [← occupiedLen_appendPcm2]
  unfold appendPcm2
  simp only
  split
  · rw [RingBuffer.occupiedLen_push]
    omega
  · rfl

theorem Buffer.perSecond_appendPcm2 : (b.appendPcm2 R pcm).1.perSecond = b.perSecond := by
  unfold appendPcm2
  simp only
  split <;> rfl

theorem Buffer.counts_appendPcm2 : (b.appendPcm2 R pcm).1.counts = b.counts := by
  unfold appendPcm2
  simp only
  split <;> rfl

theorem Buffer.capacity_appendPcm2 :
    R.capacity (b.appendPcm2 R pcm).1.ring = R.capacity b.ring := by
  unfold appendPcm2
  simp only
  split
  · exact R.capacity_push _ _
  · simp only
    rw [R.capacity_push]
    split
    · exact R.capacity_skip _ _
    · rfl

theorem items_skip_if (k : Nat) (ring : ρ) :
    R.items (if k > 0 then R.skip k ring else ring) = (R.items ring).drop k := by
  split
  · exact R.items_skip _ _
  case isFalse hnone => rw [Nat.eq_zero_of_not_pos hnone, drop_zero]

theorem capacity_skip_if (k : Nat) (ring : ρ) :
    R.capacity (if k > 0 then R.skip k ring else ring) = R.capacity ring := by
  split
  · exact R.capacity_skip _ _
  · rfl

variable {having : Nat} {dt tms : Int}

theorem Buffer.tryShrink_of_not_due (hdue : ¬due tms dt) :
    (b.tryShrink R having dt tms).1 = b.count having := by
  unfold tryShrink
  by_cases hzero : tms = 0
  · rw [if_pos hzero]
  · have hearly : dt < tms + 12000 := Int.not_le.mp fun hle => hdue ⟨hzero, hle⟩
    rw [if_neg hzero, if_pos hearly]

theorem Buffer.tryShrink_of_due (hdue : due tms dt) : (b.tryShrink R having dt tms).1 =
      { b.count having with
        ring := if (b.count having).skipCount R > 0 then
          R.skip ((b.count having).skipCount R) b.ring else b.ring
        counts := countsAfter (b.count having).counts } := by
  unfold tryShrink
  rw [if_neg hdue.1, if_neg (Int.not_lt.mpr hdue.2)]
  rfl

theorem Buffer.ring_tryShrink_of_due (hdue : due tms dt) : (b.tryShrink R having dt tms).1.ring =
      if (b.count having).skipCount R > 0 then R.skip ((b.count having).skipCount R) b.ring
      else b.ring := by
  rw [tryShrink_of_due hdue]

theorem Buffer.items_tryShrink : R.items (b.tryShrink R having dt tms).1.ring =
      (R.items b.ring).drop (if due tms dt then (b.count having).skipCount R else 0) := by
  by_cases hdue : due tms dt
  · rw [ring_tryShrink_of_due hdue, items_skip_if, if_pos hdue]
  · rw [tryShrink_of_not_due hdue, if_neg hdue, drop_zero]
    rfl

theorem Buffer.perSecond_tryShrink : (b.tryShrink R having dt tms).1.perSecond = b.perSecond := by
  by_cases hdue : due tms dt
  · rw [tryShrink_of_due hdue]
    rfl
  · rw [tryShrink_of_not_due hdue]
    rfl

theorem Buffer.capacity_tryShrink :
    R.capacity (b.tryShrink R having dt tms).1.ring = R.capacity b.ring := by
  by_cases hdue : due tms dt
  · rw [ring_tryShrink_of_due hdue, capacity_skip_if]
  · rw [tryShrink_of_not_due hdue]
    rfl

theorem Buffer.skipCount_cases (b : Buffer ρ) : b.skipCount R = 0 ∨
    ∃ level, shrinkLevel b.counts = some level ∧
      b.skipCount R = skipped (R.capacity b.ring) level ∧ 0 < b.skipCount R ∧
      b.skipCount R * 3 < R.occupiedLen b.ring := by
  unfold skipCount
  split
  case h_1 => exact .inl rfl
  case h_2 level hlevel =>
    simp only
    split
    case isTrue hbig => exact .inr ⟨level, hlevel, rfl, hbig.2, hbig.1⟩
    case isFalse => exact .inl rfl

structure Playback.Inv (R : RingBuffer ρ α) (s : Playback ρ α) : Prop where
  channels : 1 ≤ s.channels
  pos : 0 < s.sampleRate * s.channels
  capacity : s.capacity R = 3 * (s.sampleRate * s.channels)
  perSecond : s.buffer.perSecond = s.sampleRate * s.channels
  items : R.items s.buffer.ring = s.stream.drop s.removed
  le : s.removed ≤ s.stream.length
  appended : ∀ cap pcm after, .appended cap pcm after ∈ s.log → (Entry.appended cap pcm after).Right

theorem Playback.good_iff (hi : s.Inv R) : s.Good R ↔
    s.channels ∣ s.removed ∧ ∀ perSecond having skip, .shrunk perSecond having skip ∈ s.log →
      (Entry.shrunk perSecond having skip : Entry α).Right := by
  constructor
  · intro hgood
    exact ⟨hgood.aligned, fun _ _ _ hmem => hgood.log _ hmem⟩
  · rintro ⟨haligned, hshrunk⟩
    refine ⟨haligned, ?_, hi.items, fun e hmem => ?_⟩
    · have hle := R.length_le s.buffer.ring
      have hcap := hi.capacity
      unfold occupied RingBuffer.occupiedLen audioBufferMs
      unfold capacity at hcap
      omega
    · cases e with
      | appended cap pcm after => exact hi.appended _ _ _ hmem
      | shrunk perSecond having skip => exact hshrunk _ _ _ hmem

theorem Playback.inv_start : (Playback.start R).Inv R := by
  have hpos : 0 < 48000 * 2 * audioBufferMs / 1000 := by decide
  have hone : 1 ≤ 2 := by decide
  have hproduct : 0 < 48000 * 2 := by decide
  have hthree : 48000 * 2 * audioBufferMs / 1000 = 3 * (48000 * 2) := by decide
  refine ⟨hone, hproduct, (R.capacity_new _ hpos).trans hthree, rfl, ?_, Nat.le_refl _, ?_⟩
  · exact R.items_new _ hpos
  · intro cap pcm after hmem
    cases hmem

theorem Playback.Inv.leave {b : Buffer ρ} {k : Nat} (hi : s.Inv R)
    (hitems : R.items b.ring = (R.items s.buffer.ring).drop k)
    (hcapacity : R.capacity b.ring = s.capacity R) (hperSecond : b.perSecond = s.buffer.perSecond) :
    (s.leave R b).Inv R ∧ (s.leave R b).removed = s.removed + min k (s.occupied R) := by
  have hremoved : (s.leave R b).removed = s.removed + min k (s.occupied R) := by
    have hlen : R.occupiedLen b.ring = s.occupied R - k := by
      rw [RingBuffer.occupiedLen, hitems, length_drop]
      rfl
    simp only [Playback.leave, hlen]
    omega
  have hoccupied : s.occupied R = s.stream.length - s.removed := by
    rw [occupied, RingBuffer.occupiedLen, hi.items, length_drop]
  have hle := hi.le
  refine ⟨⟨hi.channels, hi.pos, hcapacity.trans hi.capacity, hperSecond.trans hi.perSecond, ?_, ?_,
    hi.appended⟩, hremoved⟩
  · rw [hremoved]
    refine hitems.trans ?_
    rw [hi.items, drop_drop, hoccupied]
    by_cases hk : k ≤ s.stream.length - s.removed
    · rw [Nat.min_eq_left hk]
      rfl
    · rw [Nat.min_eq_right (by omega)]
      rw [drop_eq_nil_of_le (by omega)]
      exact (drop_eq_nil_of_le (by simp only [Playback.leave]; omega)).symm
  · rw [hremoved]
    simp only [Playback.leave]
    omega

theorem bufferMs_eq (n : Nat) : n * audioBufferMs / 1000 = 3 * n := by
  unfold audioBufferMs
  omega

/-- **A device**: the invariant is kept, and the playback stays good unless a kept buffer does not
suit the channels. -/
theorem Playback.resize_spec {sampleRate channels : Nat} (hi : s.Inv R) (hg : s.Good R)
    (hw : s.Whole (.resize sampleRate channels)) :
    (s.step R (.resize sampleRate channels)).Inv R ∧
      ((s.step R (.resize sampleRate channels)).Good R ↔
        s.Suits R (.resize sampleRate channels)) := by
  have hpos : 0 < sampleRate * channels :=
    Nat.mul_pos (by have := hw.1; omega) (by have := hw.2.1; omega)
  have hcap := hi.capacity
  by_cases hkept : sampleRate * channels * audioBufferMs / 1000 = s.capacity R
  · have hbuffer : s.buffer.resize R sampleRate channels = s.buffer :=
      if_neg (not_not.mpr hkept)
    have hstep : s.step R (.resize sampleRate channels) =
        { s with sampleRate := sampleRate, channels := channels } := by
      simp only [step, hbuffer]
      rw [if_pos hkept]
    have hsame : s.sampleRate * s.channels = sampleRate * channels := by
      rw [bufferMs_eq] at hkept
      omega
    have hinv : (s.step R (.resize sampleRate channels)).Inv R := by
      rw [hstep]
      exact ⟨hw.2.1, hpos, by rw [← hsame]; exact hcap, hi.perSecond.trans hsame, hi.items, hi.le,
        hi.appended⟩
    refine ⟨hinv, ?_⟩
    rw [good_iff hinv, hstep]
    constructor
    · intro hgood _
      exact hgood.1
    · intro hsuits
      exact ⟨hsuits hkept, fun _ _ _ hmem => hg.log _ hmem⟩
  · have hnew : 0 < sampleRate * channels * audioBufferMs / 1000 := by
      rw [bufferMs_eq]
      omega
    have hbuffer : s.buffer.resize R sampleRate channels =
        { s.buffer with
          ring := R.new (sampleRate * channels * audioBufferMs / 1000)
          perSecond := sampleRate * channels } := if_pos hkept
    have hstep : s.step R (.resize sampleRate channels) =
        { s with
          buffer := { s.buffer with
            ring := R.new (sampleRate * channels * audioBufferMs / 1000)
            perSecond := sampleRate * channels }
          sampleRate := sampleRate
          channels := channels
          stream := []
          removed := 0 } := by
      simp only [step, hbuffer]
      rw [if_neg hkept]
    have hinv : (s.step R (.resize sampleRate channels)).Inv R := by
      rw [hstep]
      refine ⟨hw.2.1, hpos, ?_, rfl, R.items_new _ hnew, Nat.le_refl _, hi.appended⟩
      exact (R.capacity_new _ hnew).trans (bufferMs_eq _)
    refine ⟨hinv, ?_⟩
    rw [good_iff hinv, hstep]
    exact iff_of_true ⟨Nat.dvd_zero _, fun _ _ _ hmem => hg.log _ hmem⟩ fun heq => absurd heq hkept

/-- **An append**: what it drops is whole frames unless the buffer is full and is not. -/
theorem Playback.appendPcm2_spec (hi : s.Inv R) (hg : s.Good R) (hw : s.Whole (.appendPcm2 pcm)) :
    (s.step R (.appendPcm2 pcm)).Inv R ∧
      ((s.step R (.appendPcm2 pcm)).Good R ↔ s.Suits R (.appendPcm2 pcm)) := by
  have hdvd : s.channels ∣ pcm.length := hw
  have hcap := hi.capacity
  have hitems : R.items (s.buffer.appendPcm2 R pcm).1.ring = (R.items s.buffer.ring ++ pcm).drop
      (R.occupiedLen s.buffer.ring + pcm.length - R.capacity s.buffer.ring) :=
    Buffer.items_appendPcm2
  have hoccupied : s.occupied R = s.stream.length - s.removed := by
    rw [occupied, RingBuffer.occupiedLen, hi.items, length_drop]
  have hle := hi.le
  have hlen : R.occupiedLen (s.buffer.appendPcm2 R pcm).1.ring =
      min (s.occupied R + pcm.length) (s.capacity R) := Buffer.occupiedLen_appendPcm2
  have hremoved : (s.step R (.appendPcm2 pcm)).removed =
      s.removed + (s.occupied R + pcm.length - s.capacity R) := by
    simp only [step, hlen]
    omega
  have hlog : (s.step R (.appendPcm2 pcm)).log = s.log ++
      [.appended (s.capacity R) pcm (R.items (s.buffer.appendPcm2 R pcm).1.ring)] := rfl
  have hinv : (s.step R (.appendPcm2 pcm)).Inv R := by
    refine ⟨hi.channels, hi.pos, Buffer.capacity_appendPcm2.trans hcap,
      Buffer.perSecond_appendPcm2.trans hi.perSecond, ?_, ?_, fun cap pcm' after hmem => ?_⟩
    · rw [hremoved]
      refine hitems.trans ?_
      rw [hi.items, ← drop_append_of_le_length hle, drop_drop]
      rfl
    · rw [hremoved]
      simp only [step, length_append]
      omega
    · rw [hlog] at hmem
      rcases mem_append.mp hmem with hmem | hmem
      · exact hi.appended _ _ _ hmem
      · rw [mem_singleton.mp hmem]
        exact Buffer.right_appendPcm2
  refine ⟨hinv, ?_⟩
  have hshrunk : ∀ perSecond having skip,
      .shrunk perSecond having skip ∈ (s.step R (.appendPcm2 pcm)).log →
      (Entry.shrunk perSecond having skip : Entry α).Right := by
    intro perSecond having skip hmem
    rw [hlog] at hmem
    rcases mem_append.mp hmem with hmem | hmem
    · exact hg.log _ hmem
    · exact absurd (mem_singleton.mp hmem) (by simp)
  have hcapdvd : s.channels ∣ s.capacity R := by
    rw [hcap]
    exact Nat.dvd_trans (Nat.dvd_mul_left ..) (Nat.dvd_mul_left ..)
  rw [good_iff hinv, hremoved, and_iff_left hshrunk]
  refine (Nat.dvd_add_right hg.aligned).trans ?_
  by_cases hfull : s.capacity R < s.occupied R + pcm.length
  · have hsum : s.capacity R + (s.occupied R + pcm.length - s.capacity R) =
        s.occupied R + pcm.length := by omega
    rw [← Nat.dvd_add_right hcapdvd, hsum, Nat.dvd_add_left hdvd]
    exact ⟨fun h _ => h, fun h => h hfull⟩
  · have hnone : s.occupied R + pcm.length - s.capacity R = 0 := by omega
    rw [hnone]
    exact iff_of_true (Nat.dvd_zero _) fun h => absurd h hfull

/-- **A read**: it takes whole frames unless there are fewer samples and they are not. -/
theorem Playback.read_spec {n : Nat} (hi : s.Inv R) (hg : s.Good R) (hw : s.Whole (.read n)) :
    (s.step R (.read n)).Inv R ∧ ((s.step R (.read n)).Good R ↔ s.Suits R (.read n)) := by
  have hdvd : s.channels ∣ n := hw
  obtain ⟨hinv, hremoved⟩ := hi.leave (b := { s.buffer with
      ring := (R.popSlice (min n (s.occupied R)) s.buffer.ring).2 }) (R.items_skip _ _)
    (R.capacity_skip _ _) rfl
  refine ⟨hinv, (good_iff hinv).trans ?_⟩
  refine (and_iff_left fun _ _ _ hmem => hg.log _ hmem).trans ?_
  rw [hremoved]
  refine (Nat.dvd_add_right hg.aligned).trans ?_
  by_cases hfew : s.occupied R < n
  · rw [Nat.min_eq_right (Nat.le_of_lt hfew), Nat.min_self]
    exact ⟨fun h _ => h, fun h => h hfew⟩
  · rw [Nat.min_eq_left (Nat.not_lt.mp hfew), Nat.min_eq_left (Nat.not_lt.mp hfew)]
    exact iff_of_true hdvd fun h => absurd h hfew

theorem Buffer.skipCount_of_level {level : Nat} (hlevel : shrinkLevel b.counts = some level)
    (hskip : 0 < skipped (R.capacity b.ring) level)
    (hmany : skipped (R.capacity b.ring) level * 3 < R.occupiedLen b.ring) :
    b.skipCount R = skipped (R.capacity b.ring) level := by
  unfold skipCount
  rw [hlevel]
  exact if_pos ⟨hmany, hskip⟩

theorem Playback.tryShrink_skips (hi : s.Inv R) (dt : Int) :
    ∃ k, (k = if due s.tms dt then (s.buffer.count s.having).skipCount R else 0) ∧
      (s.step R (.tryShrink dt)).Inv R ∧ (s.step R (.tryShrink dt)).removed = s.removed + k ∧
      (s.step R (.tryShrink dt)).log = if k > 0 then
        s.log ++ [.shrunk s.buffer.perSecond (s.occupied R) k] else s.log := by
  obtain ⟨k, hk⟩ : ∃ k, k = if due s.tms dt then (s.buffer.count s.having).skipCount R else 0 :=
    ⟨_, rfl⟩
  have hitems : R.items (s.buffer.tryShrink R s.having dt s.tms).1.ring =
      (R.items s.buffer.ring).drop k := by
    rw [hk]
    exact Buffer.items_tryShrink
  have hle : k ≤ s.occupied R := by
    rw [hk]
    split
    · rcases (s.buffer.count s.having).skipCount_cases (R := R) with
        hnone | ⟨level, -, -, -, hmany⟩
      · rw [hnone]
        exact Nat.zero_le _
      · have hmany' : (s.buffer.count s.having).skipCount R * 3 < s.occupied R := hmany
        omega
    · exact Nat.zero_le _
  obtain ⟨hleave, hremoved⟩ := hi.leave hitems Buffer.capacity_tryShrink Buffer.perSecond_tryShrink
  rw [Nat.min_eq_left hle] at hremoved
  have hlog : (s.step R (.tryShrink dt)).log = if k > 0 then
      s.log ++ [.shrunk s.buffer.perSecond (s.occupied R) k] else s.log := by
    have hskip :
        s.occupied R - R.occupiedLen (s.buffer.tryShrink R s.having dt s.tms).1.ring = k := by
      rw [RingBuffer.occupiedLen, hitems, length_drop]
      unfold occupied RingBuffer.occupiedLen at hle ⊢
      omega
    simp only [step, hskip]
  refine ⟨k, hk, ⟨hleave.channels, hleave.pos, hleave.capacity, hleave.perSecond, hleave.items,
    hleave.le, fun cap pcm after hmem => hi.appended _ _ _ ?_⟩, hremoved, hlog⟩
  rw [hlog] at hmem
  split at hmem
  · rcases mem_append.mp hmem with hmem | hmem
    · exact hmem
    · exact absurd (mem_singleton.mp hmem) (by simp)
  · exact hmem

theorem Playback.right_shrunk_iff {k : Nat} (hi : s.Inv R) (hg : s.Good R)
    (hmany : k * 3 < s.occupied R) :
    (∀ perSecond having skip, Entry.shrunk perSecond having skip ∈
        s.log ++ [.shrunk s.buffer.perSecond (s.occupied R) k] →
        (Entry.shrunk perSecond having skip : Entry α).Right) ↔
      600 * (s.sampleRate * s.channels) ≤ 1000 * s.occupied R := by
  rw [← hi.perSecond]
  constructor
  · intro hall
    exact (hall _ _ _ (mem_append_right _ (mem_singleton_self _))).1
  · intro hfill perSecond having skip hmem
    rcases mem_append.mp hmem with hmem | hmem
    · exact hg.log _ hmem
    · rw [mem_singleton.mp hmem]
      exact ⟨hfill, by omega⟩

/-- **A shrink**: it is right exactly if 600 ms are buffered and the level suits the channels. -/
theorem Playback.tryShrink_spec {dt : Int} (hi : s.Inv R) (hg : s.Good R) :
    (s.step R (.tryShrink dt)).Inv R ∧
      ((s.step R (.tryShrink dt)).Good R ↔ s.Suits R (.tryShrink dt)) := by
  obtain ⟨k, hk, hinv, hremoved, hlog⟩ := Playback.tryShrink_skips hi dt
  have hcases := (s.buffer.count s.having).skipCount_cases (R := R)
  refine ⟨hinv, (good_iff hinv).trans ?_⟩
  have haligned : (s.step R (.tryShrink dt)).channels ∣ (s.step R (.tryShrink dt)).removed ↔
      s.channels ∣ k := by
    refine Iff.trans ?_ (Nat.dvd_add_right hg.aligned)
    rw [← hremoved]
    rfl
  rw [haligned, hlog]
  by_cases hzero : k = 0
  · -- nothing is skipped, so no level would have been
    rw [hzero, if_neg (Nat.lt_irrefl 0)]
    refine iff_of_true ⟨Nat.dvd_zero _, fun _ _ _ hmem => hg.log _ hmem⟩ ?_
    intro hdue level hlevel hskip hmany
    have heq := Buffer.skipCount_of_level (R := R) hlevel hskip hmany
    rw [hzero, if_pos hdue] at hk
    exact absurd (hk.trans heq) (Nat.ne_of_lt hskip)
  · have hpos : 0 < k := Nat.pos_of_ne_zero hzero
    have hdue : due s.tms dt := by
      by_contra hdue
      rw [if_neg hdue] at hk
      exact hzero hk
    rw [if_pos hdue] at hk
    rw [← hk] at hcases
    obtain ⟨level, hlevel, hskipped, -, hmany⟩ := hcases.resolve_left hzero
    have hcap : R.capacity (s.buffer.count s.having).ring = 3 * (s.sampleRate * s.channels) :=
      hi.capacity
    rw [if_pos hpos, right_shrunk_iff hi hg hmany, hskipped, hcap, dvd_skipped_iff hi.channels]
    constructor
    · intro hboth _ level' hlevel' _ _
      obtain rfl := Option.some.inj (hlevel.symm.trans hlevel')
      exact hboth.symm
    · intro hsuits
      have hskip : skipped (s.capacity R) level = k := by
        rw [hskipped]
        rfl
      have hboth := hsuits hdue level hlevel (by rw [hskip]; exact hpos)
        (by rw [hskip]; exact hmany)
      exact hboth.symm

theorem Playback.step_spec {e : Event α} (hi : s.Inv R) (hg : s.Good R) (hw : s.Whole e) :
    (s.step R e).Inv R ∧ ((s.step R e).Good R ↔ s.Suits R e) := by
  cases e with
  | resize sampleRate channels => exact resize_spec hi hg hw
  | appendPcm2 pcm => exact appendPcm2_spec hi hg hw
  | tryShrink dt => exact tryShrink_spec hi hg
  | read n => exact read_spec hi hg hw
  | elsewhere tms =>
    have hinv : (s.step R (.elsewhere tms)).Inv R :=
      ⟨hi.channels, hi.pos, hi.capacity, hi.perSecond, hi.items, hi.le, hi.appended⟩
    exact ⟨hinv, iff_of_true ⟨hg.aligned, hg.bounded, hg.newest, hg.log⟩ trivial⟩

theorem Playback.good_start : (Playback.start R).Good R :=
  (good_iff inv_start).mpr ⟨Nat.dvd_zero _, fun _ _ _ hmem => absurd hmem not_mem_nil⟩

theorem Playback.suits_of_good {events : List (Event α)}
    (hw : Run.Along (Playback.step R) Playback.Whole (Playback.start R) events)
    (h : Run.Always (Playback.step R) (Playback.Good R) (Playback.start R) events) :
    Run.Along (Playback.step R) (Playback.Suits R) (Playback.start R) events :=
  (Run.always_iff_along_within (J := Playback.Inv R)
    (fun _ _ hw hi hg _ => (Playback.step_spec hi hg hw).1)
    (fun _ _ hw hi hg => (Playback.step_spec hi hg hw).2) inv_start good_start hw).mp h

/-- **A playback of whole frames stays good** exactly if each of its steps suits it. -/
theorem aligned_iff_along {ρ α : Type*} (R : RingBuffer ρ α) (events : List (Event α))
    (hw : Run.Along (Playback.step R) Playback.Whole (Playback.start R) events) :
    Run.Always (Playback.step R) (Playback.Good R) (Playback.start R) events ↔
      Run.Along (Playback.step R) (Playback.Suits R) (Playback.start R) events := by
  constructor
  · exact Playback.suits_of_good hw
  · intro hsuits
    have hrun : Run.Always (Playback.step R) (fun s => Playback.Inv R s ∧ Playback.Good R s)
        (Playback.start R) events := by
      refine Run.always_of_along ?_ ⟨Playback.inv_start, Playback.good_start⟩ (hw.and hsuits)
      rintro s e ⟨hi, hg⟩ ⟨hwhole, hsuit⟩
      obtain ⟨hinv, hgood⟩ := Playback.step_spec hi hg hwhole
      exact ⟨hinv, hgood.mpr hsuit⟩
    exact fun pre hpre => (hrun pre hpre).2

def plain : RingBuffer (ListRing Nat) Nat := listRing Nat

instance (s : Playback (ListRing Nat) Nat) : ∀ e, Decidable (s.Whole e)
  | .resize _ _ => inferInstanceAs (Decidable (_ ∧ _ ∧ _))
  | .appendPcm2 _ => inferInstanceAs (Decidable (_ ∣ _))
  | .tryShrink _ => isTrue trivial
  | .read _ => inferInstanceAs (Decidable (_ ∣ _))
  | .elsewhere _ => isTrue trivial

/-- One frame for a stereo device leaves in one piece. -/
theorem stereo_frame_aligned : Run.Always (Playback.step plain) (Playback.Good plain)
    (Playback.start plain) [.resize 44100 2, .appendPcm2 [1, 2], .tryShrink 1, .read 2] := by
  refine (aligned_iff_along plain _ (by decide +kernel)).mpr ?_
  refine ⟨fun _ => Nat.dvd_zero _, fun hfull => absurd hfull (by decide +kernel),
    fun hdue => absurd hdue (by decide +kernel), fun hfew => absurd hfew (by decide +kernel),
    trivial⟩

def sixChannels (xs ys : List Nat) : List (Event Nat) :=
  [.resize 44100 6, .appendPcm2 xs, .tryShrink 1, .appendPcm2 ys, .tryShrink 12001]

theorem whole_sixChannels {xs ys : List Nat} (hxs : xs.length = 185220) (hys : ys.length = 6) :
    Run.Along (Playback.step plain) Playback.Whole (Playback.start plain) (sixChannels xs ys) := by
  refine ⟨by decide +kernel, ?_, trivial, ?_, trivial, trivial⟩
  · show 6 ∣ xs.length
    rw [hxs]
    decide
  · show 6 ∣ ys.length
    exact ⟨1, hys⟩

theorem not_good_sixChannels {xs ys : List Nat} (hxs : xs.length = 185220) (hys : ys.length = 6) :
    ¬Run.Always (Playback.step plain) (Playback.Good plain) (Playback.start plain)
      (sixChannels xs ys) := by
  intro hgood
  obtain ⟨-, -, -, -, hlast, -⟩ := Playback.suits_of_good (whole_sixChannels hxs hys) hgood
  obtain ⟨b1, hb1⟩ : ∃ b, b = (Playback.start plain).buffer.resize plain 44100 6 := ⟨_, rfl⟩
  have hcap1 : plain.capacity b1.ring = 793800 := by
    rw [hb1]
    decide +kernel
  have hempty : plain.occupiedLen b1.ring = 0 := by
    rw [hb1]
    decide +kernel
  -- 0.7 seconds, whose level is counted
  obtain ⟨b2, hb2⟩ : ∃ b, b = (b1.appendPcm2 plain xs).1 := ⟨_, rfl⟩
  have hocc2 : plain.occupiedLen b2.ring = 185220 := by
    rw [hb2, Buffer.occupiedLen_appendPcm2, hempty, hxs, hcap1]
    decide
  have hcap2 : plain.capacity b2.ring = 793800 := by
    rw [hb2, Buffer.capacity_appendPcm2, hcap1]
  have hhaving2 : (b1.appendPcm2 plain xs).2 = 185220 := by
    rw [Buffer.having_appendPcm2, hempty, hxs, hcap1]
    decide
  have hcounts2 : b2.counts = List.replicate 30 0 ∧ b2.perSecond = 264600 := by
    rw [hb2, Buffer.counts_appendPcm2, Buffer.perSecond_appendPcm2, hb1]
    decide +kernel
  obtain ⟨b3, hb3⟩ : ∃ b, b = b2.count 185220 := ⟨_, rfl⟩
  have hstep3 : (b2.tryShrink plain 185220 1 0).1 = b3 := by
    rw [hb3]
    exact Buffer.tryShrink_of_not_due (by decide)
  -- twelve seconds later the same level is counted again
  obtain ⟨b4, hb4⟩ : ∃ b, b = (b3.appendPcm2 plain ys).1 := ⟨_, rfl⟩
  have hocc4 : plain.occupiedLen b4.ring = 185226 := by
    have hocc3 : plain.occupiedLen b3.ring = 185220 := by
      rw [hb3]
      exact hocc2
    have hcap3 : plain.capacity b3.ring = 793800 := by
      rw [hb3]
      exact hcap2
    rw [hb4, Buffer.occupiedLen_appendPcm2, hocc3, hys, hcap3]
    decide
  have hlevel : shrinkLevel (b4.count 185226).counts = some 7 := by
    have hcounts4 : b4.counts = b3.counts ∧ b4.perSecond = 264600 := by
      rw [hb4, Buffer.counts_appendPcm2, Buffer.perSecond_appendPcm2, hb3]
      exact ⟨rfl, hcounts2.2⟩
    have hcounts3 : b3.counts = (List.replicate 30 0).set 7 1 := by
      rw [hb3]
      simp only [Buffer.count, hcounts2.1, hcounts2.2]
      decide
    simp only [Buffer.count, hcounts4.1, hcounts4.2, hcounts3]
    decide +kernel
  obtain ⟨s4, hs4⟩ : ∃ s, s = Run.exec (Playback.step plain) (Playback.start plain)
      [.resize 44100 6, .appendPcm2 xs, .tryShrink 1, .appendPcm2 ys] := ⟨_, rfl⟩
  have hsuits : s4.Suits plain (.tryShrink 12001) := by
    rw [hs4]
    exact hlast
  have hbuffer : s4.buffer = b4 := by
    rw [hb4, ← hstep3, ← hhaving2, hb2, hb1, hs4]
    rfl
  have hhaving : s4.having = 185226 := by
    rw [← hocc4, ← hbuffer, hs4]
    exact Buffer.having_appendPcm2.trans Buffer.occupiedLen_appendPcm2.symm
  have hdevice : s4.tms = 1 ∧ s4.sampleRate = 44100 ∧ s4.channels = 6 := by
    rw [hs4]
    exact ⟨rfl, rfl, rfl⟩
  have hcap : s4.capacity plain = 793800 := by
    rw [Playback.capacity, hbuffer, hb4, Buffer.capacity_appendPcm2, hb3]
    exact hcap2
  have hoccupied : s4.occupied plain = 185226 := by
    rw [Playback.occupied, hbuffer, hocc4]
  have hshrink := hsuits (by rw [hdevice.1]; decide) 7 (by rw [hbuffer, hhaving]; exact hlevel)
    (by rw [hcap]; decide) (by rw [hcap, hoccupied]; decide)
  rw [hdevice.2.1, hdevice.2.2] at hshrink
  exact absurd hshrink.2 (by simp [SuitsLevel])

/-- A shrink by 46306 samples swaps the six channels. -/
theorem six_channels_swapped :
    Run.Along (Playback.step plain) Playback.Whole (Playback.start plain)
      (sixChannels (List.replicate 185220 0) (List.replicate 6 0)) ∧
    ¬Run.Always (Playback.step plain) (Playback.Good plain) (Playback.start plain)
      (sixChannels (List.replicate 185220 0) (List.replicate 6 0)) :=
  ⟨whole_sixChannels length_replicate length_replicate,
    not_good_sixChannels length_replicate length_replicate⟩

end RustDesk.AudioBuffer
