import RustDesk.Lib.Run
import RustDesk.Lib.Tally

/-!
# Which codec is used

`Encoder::update`: each viewer says which codecs it can decode and which one it prefers,
and one codec is chosen for all.  The most frequent preference wins, among those that all
viewers can decode; without any, the choice is automatic.

VP9 is the exception.  Whether the viewers can decode it is never asked, neither when it is
preferred nor when it is the last resort.
-/

namespace RustDesk

open List

inductive CodecFormat where
  | vp8
  | vp9
  | av1
  | h264
  | h265
  | unknown
  deriving DecidableEq

inductive PreferCodec where
  | auto
  | vp9
  | h264
  | h265
  | vp8
  | av1
  deriving DecidableEq

namespace PreferCodec

def value : PreferCodec → Int
  | .auto => 0
  | .vp9 => 1
  | .h264 => 2
  | .h265 => 3
  | .vp8 => 4
  | .av1 => 5

/-- `enum_value_or(PreferCodec::Auto)`. -/
def ofValue (n : Int) : PreferCodec :=
  ([.vp9, .h264, .h265, .vp8, .av1].find? fun p => p.value = n).getD .auto

end PreferCodec

/-- `SupportedDecoding`, without the chroma. -/
structure SupportedDecoding where
  abilityVp9 : Int
  abilityH264 : Int
  abilityH265 : Int
  prefer : Int
  abilityVp8 : Int
  abilityAv1 : Int
  deriving DecidableEq

/-- `SupportedEncoding`, without the chroma. -/
structure SupportedEncoding where
  h264 : Bool
  h265 : Bool
  vp8 : Bool
  av1 : Bool

inductive EncodingUpdate where
  | update (id : Int) (decoding : SupportedDecoding)
  | remove (id : Int)
  | newOnlyVp9 (id : Int)
  | check

structure EncoderEnv where
  disableAv1 : Bool
  /-- `enable_vram_option(true)`. -/
  enableVram : Bool
  /-- `VRamEncoder::available` is not empty. -/
  vramAvailable : CodecFormat → Bool
  /-- `enable_hwcodec_option`. -/
  enableHwcodec : Bool
  /-- `HwRamEncoder::try_get`, by name. -/
  hwTryGet : CodecFormat → Option String
  /-- `OPTION_AV1_TEST`. -/
  av1Test : String
  totalMemory : Nat

structure IterOrder (α : Type) where
  iter : List α → List α
  perm : ∀ l, (iter l).Perm l

namespace IterOrder

def asIs {α : Type} : IterOrder α := ⟨id, fun l => List.Perm.refl l⟩

def swap {α : Type} [DecidableEq α] {l l' : List α} (h : l'.Perm l) : IterOrder α where
  iter x := if x = l then l' else x
  perm x := by
    split_ifs with hx
    · exact hx ▸ h
    · exact List.Perm.refl x

end IterOrder

/-- The statics `PEER_DECODINGS`, `ENCODE_CODEC_FORMAT` and `USABLE_ENCODING`. -/
structure Encoder where
  peerDecodings : List (Int × SupportedDecoding)
  encodeCodecFormat : CodecFormat
  usableEncoding : Option SupportedEncoding

namespace Encoder

def default : Encoder := ⟨[], .vp9, none⟩

def peersAfter (peers : List (Int × SupportedDecoding)) :
    EncodingUpdate → List (Int × SupportedDecoding)
  | .update id decoding => (id, decoding) :: peers.filter (·.1 ≠ id)
  | .remove id => peers.filter (·.1 ≠ id)
  | .newOnlyVp9 id => (id, ⟨1, 0, 0, 0, 0, 0⟩) :: peers.filter (·.1 ≠ id)
  | .check => peers

variable (env : EncoderEnv) (decodings : List SupportedDecoding)

def allSupport (ability : SupportedDecoding → Int) : Bool :=
  decodings.length > 0 && decodings.all fun s => ability s > 0

/-- `h264vram_encoding`, `h265vram_encoding`. -/
def vramEncoding (format : CodecFormat) (ability : SupportedDecoding → Int) : Bool :=
  env.enableVram && allSupport decodings ability && env.vramAvailable format

/-- `h264hw_encoding`, `h265hw_encoding`. -/
def hwEncoding (format : CodecFormat) (ability : SupportedDecoding → Int) : Option String :=
  if env.enableHwcodec && allSupport decodings ability then env.hwTryGet format else none

def hardware (format : CodecFormat) (ability : SupportedDecoding → Int) : Bool :=
  vramEncoding env decodings format ability || (hwEncoding env decodings format ability).isSome

/-- What is stored in `USABLE_ENCODING`. -/
def usable : SupportedEncoding where
  vp8 := allSupport decodings (·.abilityVp8)
  av1 := allSupport decodings (·.abilityAv1) && !env.disableAv1
  h264 := allSupport decodings (·.abilityH264) && hardware env decodings .h264 (·.abilityH264)
  h265 := allSupport decodings (·.abilityH265) && hardware env decodings .h265 (·.abilityH265)

def counts (u : SupportedEncoding) (prefer : Int) : Bool :=
  prefer == PreferCodec.vp9.value || prefer == PreferCodec.vp8.value && u.vp8 ||
    prefer == PreferCodec.av1.value && u.av1 || prefer == PreferCodec.h264.value && u.h264 ||
    prefer == PreferCodec.h265.value && u.h265

def preferences : List Int := (decodings.map (·.prefer)).filter (counts (usable env decodings))

def preference : PreferCodec :=
  .ofValue ((Tally.mostFrequent (preferences env decodings)).getD PreferCodec.auto.value)

def autoCodec : CodecFormat :=
  let u := usable env decodings
  let auto :=
    if u.h265 then .h265
    else if u.h264 then .h264
    else if u.av1 && env.av1Test != "N" then .av1
    else .vp9
  if auto = .vp9 ∨ auto = .av1 then
    if u.vp8 && env.totalMemory ≤ 4 * 1024 * 1024 * 1024 then .vp8 else auto
  else auto

def chooseFormat : CodecFormat :=
  match preference env decodings with
  | .vp8 => .vp8
  | .vp9 => .vp9
  | .av1 => .av1
  | .h264 =>
    if hardware env decodings .h264 (·.abilityH264) then .h264 else autoCodec env decodings
  | .h265 =>
    if hardware env decodings .h265 (·.abilityH265) then .h265 else autoCodec env decodings
  | .auto => autoCodec env decodings

def update (order : IterOrder (Int × SupportedDecoding)) (s : Encoder) (u : EncodingUpdate) :
    Encoder :=
  let peers := peersAfter s.peerDecodings u
  let decodings := (order.iter peers).map (·.2)
  { peerDecodings := peers
    encodeCodecFormat := chooseFormat env decodings
    usableEncoding := some (usable env decodings) }

def negotiatedCodec (s : Encoder) : CodecFormat := s.encodeCodecFormat

def supportedEncoding : SupportedEncoding where
  vp8 := true
  av1 := !env.disableAv1
  h264 := env.enableHwcodec && (env.hwTryGet .h264).isSome ||
    env.enableVram && env.vramAvailable .h264
  h265 := env.enableHwcodec && (env.hwTryGet .h265).isSome ||
    env.enableVram && env.vramAvailable .h265

structure Step where
  env : EncoderEnv
  order : IterOrder (Int × SupportedDecoding)
  update : EncodingUpdate

def step (s : Encoder) (i : Step) : Encoder := s.update i.env i.order i.update

def CanEncode : CodecFormat → Prop
  | .vp8 => (supportedEncoding env).vp8
  | .vp9 => True
  | .av1 => (supportedEncoding env).av1
  | .h264 => (supportedEncoding env).h264
  | .h265 => (supportedEncoding env).h265
  | .unknown => False

def ability : CodecFormat → SupportedDecoding → Int
  | .vp8, d => d.abilityVp8
  | .vp9, d => d.abilityVp9
  | .av1, d => d.abilityAv1
  | .h264, d => d.abilityH264
  | .h265, d => d.abilityH265
  | .unknown, _ => 0

/-- **Everybody can follow**: the machine can encode it, and each viewer can decode it. -/
def Suits (format : CodecFormat) : Prop :=
  CanEncode env format ∧ ∀ d ∈ decodings, ability format d > 0

def preferenceOf : CodecFormat → Int
  | .vp8 => PreferCodec.vp8.value
  | .vp9 => PreferCodec.vp9.value
  | .av1 => PreferCodec.av1.value
  | .h264 => PreferCodec.h264.value
  | .h265 => PreferCodec.h265.value
  | .unknown => PreferCodec.auto.value

def votes (format : CodecFormat) : Nat := (decodings.map (·.prefer)).count (preferenceOf format)

/-- Another codec that suits all has more votes than VP9. -/
def Outvoted : Prop :=
  ∃ f, f ≠ .vp9 ∧ Suits env decodings f ∧ votes decodings .vp9 < votes decodings f

def AutoFinds : Prop :=
  Suits env decodings .h265 ∨ Suits env decodings .h264 ∨
    (Suits env decodings .av1 ∧ env.av1Test ≠ "N") ∨
    (Suits env decodings .vp8 ∧ env.totalMemory ≤ 4 * 1024 * 1024 * 1024)

/-- **VP9 is decoded by all, or is not needed**: nothing suits at all, or VP9 is outvoted, or
nobody votes for it and the automatic choice finds something else. -/
def NoVp9Trouble : Prop :=
  (∀ d ∈ decodings, d.abilityVp9 > 0) ∨ (∀ f, ¬Suits env decodings f) ∨
    Outvoted env decodings ∨ (votes decodings .vp9 = 0 ∧ AutoFinds env decodings)

variable {env decodings}

theorem allSupport_iff (hne : decodings ≠ []) {a : SupportedDecoding → Int} :
    allSupport decodings a = true ↔ ∀ d ∈ decodings, a d > 0 := by
  simp [allSupport, length_pos_iff, hne]

theorem hardware_iff {format : CodecFormat} {a : SupportedDecoding → Int} :
    hardware env decodings format a = true ↔ allSupport decodings a = true ∧
      (env.enableHwcodec && (env.hwTryGet format).isSome ||
        env.enableVram && env.vramAvailable format) = true := by
  unfold hardware vramEncoding hwEncoding
  cases allSupport decodings a <;> cases env.enableHwcodec <;> cases env.enableVram <;> simp
  · cases env.vramAvailable format <;> simp [or_comm]

theorem usable_iff (hne : decodings ≠ []) :
    ((usable env decodings).vp8 = true ↔ Suits env decodings .vp8) ∧
    ((usable env decodings).av1 = true ↔ Suits env decodings .av1) ∧
    ((usable env decodings).h264 = true ↔ Suits env decodings .h264) ∧
    ((usable env decodings).h265 = true ↔ Suits env decodings .h265) := by
  refine ⟨?_, ?_, ?_, ?_⟩
  · simp [usable, Suits, CanEncode, supportedEncoding, ability, allSupport_iff hne]
  · simp [usable, Suits, CanEncode, supportedEncoding, ability, allSupport_iff hne, and_comm]
  · simp only [usable, Suits, CanEncode, supportedEncoding, ability, Bool.and_eq_true,
      hardware_iff, allSupport_iff hne]
    tauto
  · simp only [usable, Suits, CanEncode, supportedEncoding, ability, Bool.and_eq_true,
      hardware_iff, allSupport_iff hne]
    tauto

variable {f : CodecFormat}

theorem suits_ne_unknown (h : Suits env decodings f) : f ≠ .unknown := by
  rintro rfl
  exact h.1

theorem counts_iff (hne : decodings ≠ []) {v : Int} :
    counts (usable env decodings) v = true ↔
      ∃ f, (f = .vp9 ∨ Suits env decodings f) ∧ v = preferenceOf f := by
  obtain ⟨hvp8, hav1, hh264, hh265⟩ := @usable_iff env decodings hne
  simp only [counts, Bool.or_eq_true, Bool.and_eq_true, beq_iff_eq, hvp8, hav1, hh264, hh265]
  constructor
  · rintro ((((rfl | ⟨rfl, h⟩) | ⟨rfl, h⟩) | ⟨rfl, h⟩) | ⟨rfl, h⟩)
    · exact ⟨.vp9, .inl rfl, rfl⟩
    · exact ⟨.vp8, .inr h, rfl⟩
    · exact ⟨.av1, .inr h, rfl⟩
    · exact ⟨.h264, .inr h, rfl⟩
    · exact ⟨.h265, .inr h, rfl⟩
  · rintro ⟨f, hf, rfl⟩
    cases f with
    | unknown =>
      rcases hf with hf | hf
      · cases hf
      · exact absurd rfl (suits_ne_unknown hf)
    | vp9 => exact .inl (.inl (.inl (.inl rfl)))
    | vp8 => exact .inl (.inl (.inl (.inr ⟨rfl, hf.resolve_left nofun⟩)))
    | av1 => exact .inl (.inl (.inr ⟨rfl, hf.resolve_left nofun⟩))
    | h264 => exact .inl (.inr ⟨rfl, hf.resolve_left nofun⟩)
    | h265 => exact .inr ⟨rfl, hf.resolve_left nofun⟩

theorem count_preferences (hne : decodings ≠ []) (hf : f = .vp9 ∨ Suits env decodings f) :
    (preferences env decodings).count (preferenceOf f) = votes decodings f :=
  count_filter ((counts_iff hne).mpr ⟨f, hf, rfl⟩)

theorem chooseFormat_cases (hne : decodings ≠ []) :
    (preferences env decodings = [] ∧ chooseFormat env decodings = autoCodec env decodings) ∨
      ∃ f, (f = .vp9 ∨ Suits env decodings f) ∧ chooseFormat env decodings = f ∧
        0 < votes decodings f ∧
        ∀ g, g = .vp9 ∨ Suits env decodings g → votes decodings g ≤ votes decodings f := by
  cases hvote : Tally.mostFrequent (preferences env decodings) with
  | none =>
    left
    refine ⟨Tally.mostFrequent_eq_none.mp hvote, ?_⟩
    have hpref : preference env decodings = .auto := by
      rw [preference, hvote]
      decide
    rw [chooseFormat, hpref]
  | some v =>
    right
    obtain ⟨hmem, hmost⟩ := Tally.mostFrequent_eq_some hvote
    obtain ⟨f, hf, rfl⟩ := (counts_iff hne).mp (mem_filter.mp hmem).2
    have hfirst : preference env decodings = .ofValue (preferenceOf f) := by
      rw [preference, hvote]
      rfl
    refine ⟨f, hf, ?_, ?_, fun g hg => ?_⟩
    · rw [chooseFormat, hfirst]
      obtain ⟨-, -, hh264, hh265⟩ := @usable_iff env decodings hne
      cases f with
      | vp8 => rfl
      | vp9 => rfl
      | av1 => rfl
      | h264 =>
        have hu := hh264.mpr (hf.resolve_left nofun)
        simp only [usable, Bool.and_eq_true] at hu
        exact if_pos hu.2
      | h265 =>
        have hu := hh265.mpr (hf.resolve_left nofun)
        simp only [usable, Bool.and_eq_true] at hu
        exact if_pos hu.2
      | unknown =>
        rcases hf with hf | hf
        · cases hf
        · exact absurd rfl (suits_ne_unknown hf)
    · rw [← count_preferences hne hf]
      exact count_pos_iff.mpr hmem
    · rw [← count_preferences hne hf, ← count_preferences hne hg]
      exact hmost _

theorem autoCodec_cases (hne : decodings ≠ []) :
    (AutoFinds env decodings ∧ Suits env decodings (autoCodec env decodings)) ∨
      (¬AutoFinds env decodings ∧ autoCodec env decodings = .vp9) := by
  obtain ⟨hvp8, hav1, hh264, hh265⟩ := @usable_iff env decodings hne
  unfold AutoFinds autoCodec
  dsimp only
  have htest : (Suits env decodings .av1 ∧ env.av1Test ≠ "N") ↔
      ((usable env decodings).av1 && env.av1Test != "N") = true := by simp [← hav1]
  have hsmall : (Suits env decodings .vp8 ∧ env.totalMemory ≤ 4 * 1024 * 1024 * 1024) ↔
      ((usable env decodings).vp8 && env.totalMemory ≤ 4 * 1024 * 1024 * 1024) = true := by
    simp [← hvp8]
  cases h5 : (usable env decodings).h265 with
  | true =>
    have hsuits := hh265.mp h5
    exact .inl ⟨.inl hsuits, by simpa using hsuits⟩
  | false =>
    have hno5 : ¬Suits env decodings .h265 := fun h => by simp [h5] at hh265; exact hh265 h
    cases h4 : (usable env decodings).h264 with
    | true =>
      have hsuits := hh264.mp h4
      exact .inl ⟨.inr (.inl hsuits), by simpa using hsuits⟩
    | false =>
      have hno4 : ¬Suits env decodings .h264 := fun h => by simp [h4] at hh264; exact hh264 h
      rw [htest, hsmall]
      cases h8 : ((usable env decodings).vp8 &&
          decide (env.totalMemory ≤ 4 * 1024 * 1024 * 1024)) with
      | true =>
        have hsuits := (hsmall.mpr h8).1
        refine .inl ⟨.inr (.inr (.inr rfl)), ?_⟩
        cases ((usable env decodings).av1 && env.av1Test != "N") <;> simpa using hsuits
      | false =>
        cases h1 : ((usable env decodings).av1 && env.av1Test != "N") with
        | true =>
          have hsuits := (htest.mpr h1).1
          exact .inl ⟨.inr (.inr (.inl rfl)), by simpa using hsuits⟩
        | false => exact .inr ⟨by simp [hno5, hno4], by simp⟩

theorem suits_chooseFormat (hne : decodings ≠ []) (h : NoVp9Trouble env decodings)
    (hsome : ∃ g, Suits env decodings g) : Suits env decodings (chooseFormat env decodings) := by
  by_cases hall : ∀ d ∈ decodings, d.abilityVp9 > 0
  · have hvp9 : Suits env decodings .vp9 := ⟨trivial, hall⟩
    rcases @chooseFormat_cases env decodings hne with ⟨-, hauto⟩ | ⟨f, hf, hchosen, -⟩
    · rw [hauto]
      rcases @autoCodec_cases env decodings hne with ⟨-, hsuits⟩ | ⟨-, heq⟩
      · exact hsuits
      · rw [heq]
        exact hvp9
    · rw [hchosen]
      exact hf.elim (· ▸ hvp9) id
  · rcases h with h | h | ⟨f, -, hf, hmore⟩ | ⟨hno, hfinds⟩
    · exact absurd h hall
    · obtain ⟨g, hg⟩ := hsome
      exact absurd hg (h g)
    · rcases @chooseFormat_cases env decodings hne with ⟨hnil, -⟩ | ⟨g, hg, hchosen, -, hmost⟩
      · have hcount := count_preferences hne (.inr hf)
        rw [hnil, count_nil] at hcount
        omega
      · rw [hchosen]
        refine hg.resolve_left fun heq => ?_
        have := hmost f (.inr hf)
        rw [heq] at this
        omega
    · rcases @chooseFormat_cases env decodings hne with ⟨-, hauto⟩ | ⟨g, hg, hchosen, hpos, -⟩
      · rw [hauto]
        rcases @autoCodec_cases env decodings hne with ⟨-, hsuits⟩ | ⟨hnot, -⟩
        · exact hsuits
        · exact absurd hfinds hnot
      · rw [hchosen]
        refine hg.resolve_left fun heq => ?_
        rw [heq] at hpos
        omega

theorem chooseFormat_vp9_first {d : SupportedDecoding} (hd : d.prefer = PreferCodec.vp9.value)
    (hnot : ¬Outvoted env (d :: decodings)) : chooseFormat env (d :: decodings) = .vp9 := by
  have hne : d :: decodings ≠ [] := cons_ne_nil _ _
  have hfirst : ∃ rest, preferences env (d :: decodings) = preferenceOf .vp9 :: rest := by
    have hcounts : counts (usable env (d :: decodings)) d.prefer = true :=
      (counts_iff hne).mpr ⟨.vp9, .inl rfl, hd⟩
    rw [preferences, map_cons, filter_cons_of_pos hcounts, hd]
    exact ⟨_, rfl⟩
  obtain ⟨rest, hrest⟩ := hfirst
  have hwins : Tally.mostFrequent (preferences env (d :: decodings)) =
      some (preferenceOf .vp9) := by
    rw [hrest]
    refine Tally.mostFrequent_cons fun y => ?_
    rw [← hrest, count_preferences hne (.inl rfl)]
    by_cases hy : counts (usable env (d :: decodings)) y = true
    · obtain ⟨f, hf, rfl⟩ := (counts_iff hne).mp hy
      rw [count_preferences hne hf]
      rcases hf with rfl | hf
      · exact Nat.le_refl _
      · by_contra hlt
        have hf9 : f ≠ .vp9 := fun heq => hlt (by rw [heq])
        exact hnot ⟨f, hf9, hf, by omega⟩
    · have hnone : y ∉ preferences env (d :: decodings) :=
        fun hmem => hy (mem_filter.mp hmem).2
      rw [count_eq_zero_of_not_mem hnone]
      exact Nat.zero_le _
  have hpref : preference env (d :: decodings) = .vp9 := by
    rw [preference, hwins]
    decide
  rw [chooseFormat, hpref]

theorem chooseFormat_vp9_auto (hne : decodings ≠ []) (hzero : votes decodings .vp9 = 0)
    (hnot : ¬Outvoted env decodings) (hfinds : ¬AutoFinds env decodings) :
    chooseFormat env decodings = .vp9 := by
  rcases @chooseFormat_cases env decodings hne with ⟨-, hauto⟩ | ⟨f, hf, hchosen, hpos, -⟩
  · rw [hauto]
    exact ((autoCodec_cases hne).resolve_left fun h => hfinds h.1).2
  · rw [hchosen]
    by_contra hne9
    exact hnot ⟨f, hne9, hf.resolve_left hne9, by omega⟩

variable {decodings' : List SupportedDecoding}

theorem suits_perm (h : decodings'.Perm decodings) :
    Suits env decodings' f ↔ Suits env decodings f := by
  simp only [Suits, h.mem_iff]

theorem votes_perm (h : decodings'.Perm decodings) (f : CodecFormat) :
    votes decodings' f = votes decodings f :=
  (h.map _).count_eq _

theorem noVp9Trouble_perm (h : decodings'.Perm decodings) :
    NoVp9Trouble env decodings' ↔ NoVp9Trouble env decodings := by
  simp only [NoVp9Trouble, Outvoted, AutoFinds, suits_perm h, votes_perm h, h.mem_iff]

/-- **The choice suits in every order of the peers exactly if there is no trouble about
VP9.** -/
theorem suits_all_orders_iff (peers : List (Int × SupportedDecoding)) (hne : peers ≠ []) :
    (∀ order : IterOrder (Int × SupportedDecoding),
      (∃ g, Suits env (peers.map (·.2)) g) →
        Suits env (peers.map (·.2)) (chooseFormat env ((order.iter peers).map (·.2)))) ↔
      NoVp9Trouble env (peers.map (·.2)) := by
  have hmap : peers.map (·.2) ≠ [] := by simpa using hne
  constructor
  · intro h
    by_contra htrouble
    simp only [NoVp9Trouble, not_or] at htrouble
    obtain ⟨hundecoded, hsome, hnot, hauto⟩ := htrouble
    have hsome' : ∃ g, Suits env (peers.map (·.2)) g := by
      by_contra hno
      exact hsome fun f hf => hno ⟨f, hf⟩
    obtain ⟨order, hvp9⟩ : ∃ order : IterOrder (Int × SupportedDecoding),
        chooseFormat env ((order.iter peers).map (·.2)) = .vp9 := by
      by_cases hzero : votes (peers.map (·.2)) .vp9 = 0
      · refine ⟨.asIs, ?_⟩
        exact chooseFormat_vp9_auto hmap hzero hnot fun hfinds => hauto ⟨hzero, hfinds⟩
      · have hmem := count_pos_iff.mp (Nat.pos_of_ne_zero hzero)
        simp only [mem_map, exists_exists_and_eq_and] at hmem
        obtain ⟨peer, hpeer, hprefer⟩ := hmem
        have hperm := (perm_cons_erase hpeer).symm
        refine ⟨.swap hperm, ?_⟩
        have hiter : (IterOrder.swap hperm).iter peers = peer :: peers.erase peer := if_pos rfl
        rw [hiter, map_cons]
        refine chooseFormat_vp9_first hprefer ?_
        rintro ⟨f, hf9, hf, hmore⟩
        have hperm' := hperm.map (·.2)
        rw [map_cons] at hperm'
        rw [votes_perm hperm', votes_perm hperm'] at hmore
        exact hnot ⟨f, hf9, (suits_perm hperm').mp hf, hmore⟩
    have hsuits := h order hsome'
    rw [hvp9] at hsuits
    exact hundecoded hsuits.2
  · intro h order hsome
    have hperm := (order.perm peers).map (·.2)
    rw [← suits_perm hperm]
    refine suits_chooseFormat ?_ ((noVp9Trouble_perm hperm).mpr h) ?_
    · intro hnil
      rw [hnil] at hperm
      exact hmap hperm.symm.eq_nil
    · obtain ⟨g, hg⟩ := hsome
      exact ⟨g, (suits_perm hperm).mpr hg⟩

open Run in
/-- **When every viewer can decode the negotiated codec.**  After any updates on any machine,
with a peer left: in every order of the peers the negotiated codec suits, if any codec does,
exactly if there is no trouble about VP9. -/
theorem negotiated_codec_decodable_iff (steps : List Step) (env : EncoderEnv)
    (update : EncodingUpdate) :
    let s := exec step default steps
    let peers := peersAfter s.peerDecodings update
    peers ≠ [] →
      ((∀ order, (∃ g, Suits env (peers.map (·.2)) g) →
        Suits env (peers.map (·.2)) (negotiatedCodec (s.update env order update))) ↔
        NoVp9Trouble env (peers.map (·.2))) := by
  intro s peers hne
  exact suits_all_orders_iff peers hne

def plainMachine : EncoderEnv where
  disableAv1 := false
  enableVram := false
  vramAvailable _ := false
  enableHwcodec := false
  hwTryGet _ := none
  av1Test := ""
  totalMemory := 8 * 1024 * 1024 * 1024

def vp8Viewer : SupportedDecoding := ⟨1, 0, 0, PreferCodec.vp8.value, 1, 0⟩

open Run in
theorem vp8_viewer_decodes :
    (∀ order, (∃ g, Suits plainMachine [vp8Viewer] g) →
      Suits plainMachine [vp8Viewer]
        (negotiatedCodec (default.update plainMachine order (.update 1 vp8Viewer)))) ↔
      NoVp9Trouble plainMachine [vp8Viewer] :=
  negotiated_codec_decodable_iff [] plainMachine (.update 1 vp8Viewer) (by decide)

/-- **VP9 for a viewer that cannot decode it**: it decodes VP8 and has no preference. -/
theorem undecodable_codec_negotiated :
    let viewer : SupportedDecoding := ⟨0, 0, 0, PreferCodec.auto.value, 1, 0⟩
    Suits plainMachine [viewer] .vp8 ∧
      ¬Suits plainMachine [viewer]
        (negotiatedCodec (default.update plainMachine .asIs (.update 1 viewer))) := by
  intro viewer
  refine ⟨⟨rfl, by decide⟩, fun h => ?_⟩
  have hvp9 : negotiatedCodec (default.update plainMachine .asIs (.update 1 viewer)) = .vp9 := by
    decide
  rw [hvp9] at h
  exact absurd (h.2 viewer mem_cons_self) (by decide)

end Encoder
end RustDesk
