import Mathlib.Data.Nat.Bitwise
import RustDesk.Basic
import RustDesk.Lib.Incremental
import RustDesk.Lib.LittleEndian

/-!
# The frame codec

`BytesCodec` cuts a byte stream into frames.  A frame is a header of one to four
bytes followed by the payload; the two low bits of the first byte say how long
the header is, the remaining bits are the payload length, little endian.

The file models `decode_head`, `decode_data`, `decode` and `encode` and proves

* that a non-raw codec is an incremental decoder (`frameDecoder`), so that
  nothing depends on where the network cuts the stream;
* that the header of every encodable length is read back (`decodeHead_header`);
* the round trip: any fragmentation of the encoded frames yields the payloads,
  and any prefix of it a prefix of the payloads.
-/

namespace RustDesk

open List

inductive DecodeState where
  | head
  | data (n : Nat)

structure BytesCodec where
  state : DecodeState
  raw : Bool
  maxPacketLength : Nat

namespace BytesCodec

/-- `BytesCodec::new` with `usize::MAX` of a 64-bit build. -/
def new : BytesCodec := ⟨.head, false, 2 ^ 64 - 1⟩

/-- The number in the first `headLen` bytes, with the length code still in its
two low bits. -/
def headNumber (src : Bytes) (headLen : Nat) : Nat :=
  let n := (src.getD 0 0).toNat
  let n := if 1 < headLen then n ||| (src.getD 1 0).toNat <<< 8 else n
  let n := if 2 < headLen then n ||| (src.getD 2 0).toNat <<< 16 else n
  if 3 < headLen then n ||| (src.getD 3 0).toNat <<< 24 else n

/-- Length of the header that starts with byte `b`. -/
def headLength (b : UInt8) : Nat := (b &&& 3).toNat + 1

/-- The second component is the buffer afterwards. The reservation of buffer capacity has no
effect on the bytes and is left out. -/
def decodeHead (c : BytesCodec) (src : Bytes) : Except IoError (Option Nat) × Bytes :=
  match src with
  | [] => (.ok none, src)
  | b :: _ =>
    let headLen := headLength b
    if src.length < headLen then (.ok none, src)
    else
      let n := headNumber src headLen >>> 2
      if n > c.maxPacketLength then
        (.error ⟨.invalidData, "Too big packet"⟩, src)
      else (.ok (some n), src.drop headLen)

def decodeData (n : Nat) (src : Bytes) : Option Bytes × Bytes :=
  if src.length < n then (none, src) else (some (src.take n), src.drop n)

/-- The part of `decode` after the payload length is known. -/
def decodeBody (c : BytesCodec) (n : Nat) (src : Bytes) :
    Except IoError (Option Bytes) × BytesCodec × Bytes :=
  match decodeData n src with
  | (some data, rest) => (.ok (some data), { c with state := .head }, rest)
  | (none, rest) => (.ok none, c, rest)

/-- `Decoder::decode`: the result, the codec and the buffer afterwards. -/
def decode (c : BytesCodec) (src : Bytes) : Except IoError (Option Bytes) × BytesCodec × Bytes :=
  if c.raw then
    if src.isEmpty then (.ok none, c, src) else (.ok (some src), c, [])
  else
    match c.state with
    | .head =>
      match c.decodeHead src with
      | (.error e, rest) => (.error e, c, rest)
      | (.ok none, rest) => (.ok none, c, rest)
      | (.ok (some n), rest) => decodeBody { c with state := .data n } n rest
    | .data n => decodeBody c n src

def putU16Le (v : UInt16) : Bytes := [v.toUInt8, (v >>> 8).toUInt8]

def putU32Le (v : UInt32) : Bytes :=
  [v.toUInt8, (v >>> 8).toUInt8, (v >>> 16).toUInt8, (v >>> 24).toUInt8]

/-- The header `encode` writes in front of a payload of `len` bytes; `none` is
the `Overflow` error. -/
def header (len : Nat) : Option Bytes :=
  if len ≤ 0x3F then some [UInt8.ofNat (len <<< 2)]
  else if len ≤ 0x3FFF then some (putU16Le (UInt16.ofNat (len <<< 2) ||| 0x1))
  else if len ≤ 0x3FFFFF then
    let h := UInt32.ofNat (len <<< 2) ||| 0x2
    some (putU16Le (h &&& 0xFFFF).toUInt16 ++ [(h >>> 16).toUInt8])
  else if len ≤ 0x3FFFFFFF then
    some (putU32Le (UInt32.ofNat (len <<< 2) ||| 0x3))
  else none

/-- `Encoder::encode`: the buffer afterwards. -/
def encode (c : BytesCodec) (data buf : Bytes) : Except IoError Bytes :=
  if c.raw then .ok (buf ++ data)
  else
    match header data.length with
    | some h => .ok (buf ++ h ++ data)
    | none => .error ⟨.invalidInput, "Overflow"⟩

def encodeAll (c : BytesCodec) : List Bytes → Bytes → Except IoError Bytes
  | [], buf => .ok buf
  | data :: rest, buf => do
      let buf ← c.encode data buf
      c.encodeAll rest buf

open LittleEndian

/-- How many bytes the header of a payload of `len` bytes takes. -/
def headBytes (len : Nat) : Nat :=
  if len ≤ 0x3F then 1 else if len ≤ 0x3FFF then 2 else if len ≤ 0x3FFFFF then 3 else 4

private theorem or_shiftLeft {b i : Nat} (c : Nat) (hb : b < 2 ^ i) :
    b ||| c <<< i = b + c * 2 ^ i := by
  rw [Nat.or_comm, ← Nat.shiftLeft_add_eq_or_of_lt hb, Nat.shiftLeft_eq, Nat.add_comm]

private theorem shiftLeft_two_or {c : Nat} (len : Nat) (hc : c < 4) :
    len <<< 2 ||| c = 4 * len + c := by
  rw [← Nat.shiftLeft_add_eq_or_of_lt (by simpa using hc), Nat.shiftLeft_eq]
  omega

theorem headNumber_leBytes {h k : Nat} (hk : 1 ≤ k ∧ k ≤ 4) (hh : h < 256 ^ k)
    (tail : Bytes) : headNumber (leBytes h k ++ tail) k = h := by
  have hk' : k = 1 ∨ k = 2 ∨ k = 3 ∨ k = 4 := by omega
  have h8 : h % 256 ||| (h >>> 8 % 256) <<< 8 = h % 65536 := by
    rw [or_shiftLeft _ (by omega), Nat.shiftRight_eq_div_pow]
    omega
  have h16 : h % 65536 ||| (h >>> 8 >>> 8 % 256) <<< 16 = h % 16777216 := by
    rw [or_shiftLeft _ (by omega), Nat.shiftRight_eq_div_pow, Nat.shiftRight_eq_div_pow]
    omega
  have h24 : h % 16777216 ||| (h >>> 8 >>> 8 >>> 8 % 256) <<< 24 = h % 4294967296 := by
    rw [or_shiftLeft _ (by omega), Nat.shiftRight_eq_div_pow, Nat.shiftRight_eq_div_pow,
      Nat.shiftRight_eq_div_pow]
    omega
  rcases hk' with rfl | rfl | rfl | rfl
  · simp [headNumber, leBytes, UInt8.toNat_ofNat']
    omega
  · simp [headNumber, leBytes, UInt8.toNat_ofNat', h8]
    omega
  · simp [headNumber, leBytes, UInt8.toNat_ofNat', h8, h16]
    omega
  · simp [headNumber, leBytes, UInt8.toNat_ofNat', h8, h16, h24]
    omega

theorem headLength_ofNat (h : Nat) : headLength (UInt8.ofNat h) = h % 4 + 1 := by
  have hand : (h % 256) &&& 3 = (h % 256) % 4 := Nat.and_two_pow_sub_one_eq_mod (h % 256) 2
  rw [headLength, UInt8.toNat_and, UInt8.toNat_ofNat']
  simp only [UInt8.toNat_ofNat, Nat.reducePow, Nat.reduceMod, hand]
  omega

private theorem toUInt16_and (v : UInt32) : (v &&& 0xFFFF).toUInt16 = v.toUInt16 := by
  apply UInt16.toNat_inj.mp
  have h : v.toNat &&& 65535 = v.toNat % 65536 := Nat.and_two_pow_sub_one_eq_mod v.toNat 16
  rw [UInt32.toNat_toUInt16, UInt32.toNat_toUInt16, UInt32.toNat_and]
  simp [h]

private theorem putU16Le_eq (v : UInt16) : putU16Le v = leBytes v.toNat 2 := by
  simp only [putU16Le, leBytes, List.cons.injEq, and_true]
  constructor <;> apply UInt8.toNat_inj.mp <;> simp

private theorem putU32Le_eq (v : UInt32) : putU32Le v = leBytes v.toNat 4 := by
  simp only [putU32Le, leBytes, List.cons.injEq, and_true]
  refine ⟨?_, ?_, ?_, ?_⟩ <;> apply UInt8.toNat_inj.mp <;> simp [← Nat.shiftRight_add]

private theorem putU24Le_eq (v : UInt32) :
    putU16Le v.toUInt16 ++ [(v >>> 16).toUInt8] = leBytes v.toNat 3 := by
  simp only [putU16Le, leBytes, cons_append, nil_append, List.cons.injEq, and_true]
  refine ⟨?_, ?_, ?_⟩ <;> apply UInt8.toNat_inj.mp <;> simp [Nat.shiftRight_eq_div_pow] <;> omega

/-- **The header law.**  The header of a payload of `len` bytes is the number
`4 * len + (k - 1)` in `k` little-endian bytes. -/
theorem header_eq {len : Nat} (hlen : len ≤ 0x3FFFFFFF) :
    header len = some (leBytes (4 * len + (headBytes len - 1)) (headBytes len)) := by
  have hshift : len <<< 2 < 2 ^ 32 := by rw [Nat.shiftLeft_eq]; omega
  unfold header headBytes
  by_cases h1 : len ≤ 0x3F
  · have hfour : len <<< 2 = 4 * len := by rw [Nat.shiftLeft_eq]; omega
    simp [h1, leBytes, hfour]
  by_cases h2 : len ≤ 0x3FFF
  · have hlt : len <<< 2 < 2 ^ 16 := by rw [Nat.shiftLeft_eq]; omega
    have hval : (UInt16.ofNat (len <<< 2) ||| 0x1).toNat = 4 * len + 1 := by
      rw [UInt16.toNat_or, UInt16.toNat_ofNat_of_lt' hlt]
      exact shiftLeft_two_or len (by decide)
    simp only [h1, h2, if_false, if_true, putU16Le_eq, hval]
  by_cases h3 : len ≤ 0x3FFFFF
  · have hval : (UInt32.ofNat (len <<< 2) ||| 0x2).toNat = 4 * len + 2 := by
      rw [UInt32.toNat_or, UInt32.toNat_ofNat_of_lt' hshift]
      exact shiftLeft_two_or len (by decide)
    simp only [h1, h2, h3, if_false, if_true, toUInt16_and, putU24Le_eq, hval]
  · have hval : (UInt32.ofNat (len <<< 2) ||| 0x3).toNat = 4 * len + 3 := by
      rw [UInt32.toNat_or, UInt32.toNat_ofNat_of_lt' hshift]
      exact shiftLeft_two_or len (by decide)
    simp only [h1, h2, h3, hlen, if_false, if_true, putU32Le_eq, hval]

theorem decodeHead_header (c : BytesCodec) {len : Nat} (hlen : len ≤ 0x3FFFFFFF)
    (hmax : len ≤ c.maxPacketLength) {h : Bytes} (hh : header len = some h)
    (tail : Bytes) : c.decodeHead (h ++ tail) = (.ok (some len), tail) := by
  rw [header_eq hlen, Option.some.injEq] at hh
  set k := headBytes len with hkdef
  have hk : 1 ≤ k ∧ k ≤ 4 ∧ 4 * len + (k - 1) < 256 ^ k := by
    rw [hkdef, headBytes]
    split_ifs <;> omega
  obtain ⟨j, hj⟩ : ∃ j, k = j + 1 := ⟨k - 1, by omega⟩
  have hcons : h ++ tail = UInt8.ofNat (4 * len + (k - 1)) ::
      (leBytes ((4 * len + (k - 1)) >>> 8) j ++ tail) := by
    rw [← hh, hj, leBytes]
    rfl
  have hheadLen : headLength (UInt8.ofNat (4 * len + (k - 1))) = k := by
    rw [headLength_ofNat]
    omega
  have hnumber : headNumber (h ++ tail) k >>> 2 = len := by
    rw [← hh, headNumber_leBytes ⟨hk.1, hk.2.1⟩ hk.2.2, Nat.shiftRight_eq_div_pow]
    omega
  have hlenh : h.length = k := by rw [← hh, length_leBytes]
  have hlong : ¬ (h ++ tail).length < k := by simp [hlenh]
  rw [hcons] at hnumber hlong
  rw [hcons, decodeHead]
  simp only [hheadLen, hlong, if_false, hnumber, gt_iff_lt, Nat.not_lt.mpr hmax]
  rw [← hcons, drop_left' hlenh]

theorem headNumber_append {src : Bytes} {headLen : Nat} (hpos : 0 < headLen)
    (hlong : headLen ≤ src.length) (x : Bytes) :
    headNumber (src ++ x) headLen = headNumber src headLen := by
  have hget : ∀ i, i < headLen → (src ++ x).getD i 0 = src.getD i 0 := by
    intro i hi
    exact getD_append _ _ _ _ (by omega)
  unfold headNumber
  rw [hget 0 hpos]
  split_ifs with h1 h2 h3 <;> simp_all

theorem decodeHead_cases (c : BytesCodec) (src : Bytes) :
    (c.decodeHead src = (.ok none, src)) ∨
    (∃ e, ∀ x, c.decodeHead (src ++ x) = (.error e, src ++ x)) ∨
    (∃ n rest, rest.length < src.length ∧
      ∀ x, c.decodeHead (src ++ x) = (.ok (some n), rest ++ x)) := by
  cases src with
  | nil => exact Or.inl rfl
  | cons b tail =>
    by_cases hshort : (b :: tail).length < headLength b
    · left
      simp only [decodeHead, hshort, if_true]
    right
    have hpos : 0 < headLength b := Nat.succ_pos _
    have hlong : ∀ x : Bytes, ¬ (b :: tail ++ x).length < headLength b := by
      intro x
      rw [length_append]
      omega
    have hnum : ∀ x, headNumber (b :: (tail ++ x)) (headLength b) =
        headNumber (b :: tail) (headLength b) :=
      fun x => headNumber_append hpos (Nat.not_lt.mp hshort) x
    by_cases hbig : headNumber (b :: tail) (headLength b) >>> 2 > c.maxPacketLength
    · left
      refine ⟨⟨.invalidData, "Too big packet"⟩, fun x => ?_⟩
      have := hlong x
      simp only [cons_append] at this ⊢
      simp only [decodeHead, this, if_false, hnum, hbig, if_true]
    · right
      refine ⟨headNumber (b :: tail) (headLength b) >>> 2,
        (b :: tail).drop (headLength b), ?_, fun x => ?_⟩
      · rw [length_drop]
        omega
      · have := hlong x
        simp only [cons_append] at this ⊢
        simp only [decodeHead, this, if_false, hnum, hbig]
        rw [← cons_append, drop_append_of_le_length (by omega)]

theorem decodeBody_cases (c : BytesCodec) (n : Nat) (src : Bytes) :
    (c.decodeBody n src = (.ok none, c, src)) ∨
    (∃ data rest, rest.length ≤ src.length ∧
      ∀ x, c.decodeBody n (src ++ x) =
        (.ok (some data), { c with state := .head }, rest ++ x)) := by
  by_cases hshort : src.length < n
  · left
    simp [decodeBody, decodeData, hshort]
  · right
    refine ⟨src.take n, src.drop n, by simp, fun x => ?_⟩
    have hlong : ¬ (src ++ x).length < n := by
      rw [length_append]
      omega
    have htake : (src ++ x).take n = src.take n := take_append_of_le_length (by omega)
    have hdrop : (src ++ x).drop n = src.drop n ++ x := drop_append_of_le_length (by omega)
    simp only [decodeBody, decodeData, hlong, if_false, htake, hdrop]

theorem decode_raw (c : BytesCodec) (src : Bytes) : (c.decode src).2.1.raw = c.raw := by
  unfold decode decodeBody
  repeat' split
  all_goals rfl

end BytesCodec

structure FramedCodec where
  codec : BytesCodec
  framed : codec.raw = false

namespace FramedCodec

open BytesCodec Incremental

/-- `decode` on a codec that is not in raw mode. -/
def decode (c : FramedCodec) (src : Bytes) : Except IoError (Option Bytes) × FramedCodec × Bytes :=
  let r := c.codec.decode src
  (r.1, ⟨r.2.1, (decode_raw c.codec src).trans c.framed⟩, r.2.2)

def withState (c : FramedCodec) (st : DecodeState) : FramedCodec :=
  ⟨{ c.codec with state := st }, c.framed⟩

/-- Bytes still to be consumed, and one more step while a payload is awaited:
the measure on which `decode` makes progress with every item. -/
def progress (c : FramedCodec) (src : Bytes) : Nat :=
  2 * src.length + (match c.codec.state with | .head => 0 | .data _ => 1)

variable {c : FramedCodec}

theorem decode_head (hst : c.codec.state = .head) (src : Bytes) :
    c.decode src = match c.codec.decodeHead src with
      | (.error e, rest) => (.error e, c, rest)
      | (.ok none, rest) => (.ok none, c, rest)
      | (.ok (some n), rest) => (c.withState (.data n)).decode rest := by
  obtain ⟨c, hraw⟩ := c
  rcases hd : c.decodeHead src with ⟨(e | _ | n), rest⟩ <;>
    simp_all [decode, BytesCodec.decode, withState]

theorem decode_data {n : Nat} (hst : c.codec.state = .data n) (src : Bytes) :
    (c.decode src = (.ok none, c, src)) ∨
    (∃ data rest, rest.length ≤ src.length ∧
      ∀ x, c.decode (src ++ x) = (.ok (some data), c.withState .head, rest ++ x)) := by
  obtain ⟨c, hraw⟩ := c
  rcases c.decodeBody_cases n src with h | ⟨data, rest, hlen, h⟩
  · left
    simp_all [decode, BytesCodec.decode]
  · refine Or.inr ⟨data, rest, hlen, fun x => ?_⟩
    have := h x
    simp_all [decode, BytesCodec.decode, withState]

/-- **What one call can do.**  It asks for more bytes, and can then be resumed
where it stopped; or it delivers an item, and bytes behind it change nothing; or
it fails for good. -/
theorem decode_cases (c : FramedCodec) (src : Bytes) :
    (∃ c' rest, c.decode src = (.ok none, c', rest) ∧
      ∀ x, c.decode (src ++ x) = c'.decode (rest ++ x)) ∨
    (∃ data c' rest, c'.progress rest < c.progress src ∧
      ∀ x, c.decode (src ++ x) = (.ok (some data), c', rest ++ x)) ∨
    (∃ e, ∀ x, c.decode (src ++ x) = (.error e, c, src ++ x)) := by
  cases hst : c.codec.state with
  | data n =>
    rcases decode_data hst src with h | ⟨data, rest, hlen, h⟩
    · exact Or.inl ⟨c, src, h, fun _ => rfl⟩
    · refine Or.inr (Or.inl ⟨data, c.withState .head, rest, ?_, h⟩)
      simp only [progress, withState, hst]
      omega
  | head =>
    rcases c.codec.decodeHead_cases src with h | ⟨e, h⟩ | ⟨n, rest, hlen, h⟩
    · refine Or.inl ⟨c, src, ?_, fun _ => rfl⟩
      rw [decode_head hst, h]
    · refine Or.inr (Or.inr ⟨e, fun x => ?_⟩)
      rw [decode_head hst, h x]
    · have hnext : ∀ x, c.decode (src ++ x) =
          (c.withState (.data n)).decode (rest ++ x) := by
        intro x
        rw [decode_head hst, h x]
      rcases decode_data (c := c.withState (.data n)) rfl rest with
        h' | ⟨data, rest', hlen', h'⟩
      · refine Or.inl ⟨c.withState (.data n), rest, ?_, hnext⟩
        have := hnext []
        rwa [append_nil, append_nil, h'] at this
      · refine Or.inr (Or.inl ⟨data, c.withState .head, rest', ?_, fun x => ?_⟩)
        · simp only [progress, withState, hst]
          omega
        · rw [hnext x, h' x]
          rfl

def decoder : Decoder FramedCodec UInt8 Bytes IoError where
  decode := decode
  measure := progress
  some_lt {c c' src rest data} h := by
    rcases c.decode_cases src with ⟨_, _, h', _⟩ | ⟨_, _, _, hlt, h'⟩ | ⟨_, h'⟩
    · simp_all
    · have := h' []
      simp_all
    · have := h' []
      simp_all
  extend_some {c c' src rest data} x h := by
    rcases c.decode_cases src with ⟨_, _, h', _⟩ | ⟨_, _, _, _, h'⟩ | ⟨_, h'⟩
    · simp_all
    · have := h' []
      simp_all
    · have := h' []
      simp_all
  extend_none {c c' src rest} x h := by
    rcases c.decode_cases src with ⟨_, _, h', hx⟩ | ⟨_, _, _, _, h'⟩ | ⟨_, h'⟩
    · simp_all
    · have := h' []
      simp_all
    · have := h' []
      simp_all
  extend_error {c c' src rest e} x h := by
    rcases c.decode_cases src with ⟨_, _, h', _⟩ | ⟨_, _, _, _, h'⟩ | ⟨_, h'⟩
    · simp_all
    · have := h' []
      simp_all
    · have := h' []
      simp_all

theorem decode_frame (hst : c.codec.state = .head) {data h : Bytes}
    (hlen : data.length ≤ 0x3FFFFFFF) (hmax : data.length ≤ c.codec.maxPacketLength)
    (hh : header data.length = some h) (rest : Bytes) :
    c.decode (h ++ data ++ rest) = (.ok (some data), c, rest) := by
  obtain ⟨⟨st, raw, max⟩, hraw⟩ := c
  cases hst
  cases hraw
  rw [decode_head rfl, append_assoc, decodeHead_header _ hlen hmax hh]
  have hdata : decodeData data.length (data ++ rest) = (some data, rest) := by
    simp [decodeData]
  simp [decode, BytesCodec.decode, withState, decodeBody, hdata]

theorem encodeAll_drain {enc : BytesCodec} (henc : enc.raw = false)
    {dec : FramedCodec} (hst : dec.codec.state = .head) (payloads : List Bytes)
    (hlen : ∀ p ∈ payloads, p.length ≤ 0x3FFFFFFF)
    (hmax : ∀ p ∈ payloads, p.length ≤ dec.codec.maxPacketLength) (buf : Bytes) :
    ∃ stream, enc.encodeAll payloads buf = .ok (buf ++ stream) ∧
      decoder.drain dec stream = ⟨payloads, none, dec, []⟩ := by
  induction payloads generalizing buf with
  | nil =>
    refine ⟨[], by simp [encodeAll], ?_⟩
    apply Decoder.drain_none
    exact (decode_head hst []).trans (by simp [decodeHead])
  | cons data payloads ih =>
    have hdata := hlen data mem_cons_self
    obtain ⟨h, hh⟩ : ∃ h, header data.length = some h := ⟨_, header_eq hdata⟩
    obtain ⟨stream, henc', hdrain⟩ := ih
      (fun p hp => hlen p (mem_cons_of_mem _ hp))
      (fun p hp => hmax p (mem_cons_of_mem _ hp)) (buf ++ h ++ data)
    refine ⟨h ++ data ++ stream, ?_, ?_⟩
    · have hone : enc.encode data buf = .ok (buf ++ h ++ data) := by
        simp [encode, henc, hh]
      have hall : enc.encodeAll (data :: payloads) buf =
          enc.encodeAll payloads (buf ++ h ++ data) := by
        rw [encodeAll, hone]
        rfl
      rw [hall, henc']
      simp
    · have hframe := decode_frame hst hdata (hmax data mem_cons_self) hh stream
      rw [Decoder.drain_some decoder hframe, hdrain]
      rfl

end FramedCodec

open FramedCodec in
/-- **Frame round trip under any fragmentation.**  Encode admissible payloads
with a non-raw codec.  Whatever chunks the stream is cut into, a second non-raw
codec in state `Head` yields exactly the payloads, ends in state `Head` with an
empty buffer, and on the chunks of any prefix of the stream it yields a prefix of
the payloads and no error. -/
theorem framed_roundtrip (enc : BytesCodec) (henc : enc.raw = false)
    (dec : FramedCodec) (hst : dec.codec.state = .head) (payloads : List Bytes)
    (hlen : ∀ p ∈ payloads, p.length ≤ 0x3FFFFFFF)
    (hmax : ∀ p ∈ payloads, p.length ≤ dec.codec.maxPacketLength) :
    ∃ stream, enc.encodeAll payloads [] = .ok stream ∧
      (∀ chunks : List Bytes, chunks.flatten = stream →
        decoder.feedAll dec chunks = ⟨payloads, none, dec, []⟩) ∧
      (∀ chunks : List Bytes, chunks.flatten <+: stream →
        (decoder.feedAll dec chunks).items <+: payloads ∧
        (decoder.feedAll dec chunks).error = none) := by
  obtain ⟨stream, hencode, hdrain⟩ := encodeAll_drain henc hst payloads hlen hmax []
  have hidle : decoder.decode dec [] = (.ok none, dec, []) :=
    (decode_head hst []).trans (by simp [BytesCodec.decodeHead])
  refine ⟨stream, by simpa using hencode, ?_, ?_⟩
  · intro chunks hchunks
    rw [decoder.feedAll_eq_drain hidle chunks, hchunks, hdrain]
    rw [hchunks, hdrain]
  · rintro chunks ⟨rest, hrest⟩
    have hok : (decoder.drain dec (chunks.flatten ++ rest)).error = none := by
      rw [hrest, hdrain]
    obtain ⟨herr, hitems⟩ := decoder.drain_items_prefix dec chunks.flatten rest hok
    rw [hrest, hdrain] at hitems
    rw [decoder.feedAll_eq_drain hidle chunks herr]
    exact ⟨hitems, herr⟩

/-- The round trip at two payloads, one of them empty. -/
theorem framed_roundtrip_two :
    ∃ stream, BytesCodec.new.encodeAll [[7, 8], []] [] = .ok stream ∧
      (∀ chunks : List Bytes, chunks.flatten = stream →
        FramedCodec.decoder.feedAll ⟨BytesCodec.new, rfl⟩ chunks =
          ⟨[[7, 8], []], none, ⟨BytesCodec.new, rfl⟩, []⟩) ∧
      (∀ chunks : List Bytes, chunks.flatten <+: stream →
        (FramedCodec.decoder.feedAll ⟨BytesCodec.new, rfl⟩ chunks).items <+: [[7, 8], []] ∧
        (FramedCodec.decoder.feedAll ⟨BytesCodec.new, rfl⟩ chunks).error = none) :=
  framed_roundtrip BytesCodec.new rfl ⟨BytesCodec.new, rfl⟩ rfl [[7, 8], []] (by decide) (by decide)

end RustDesk
