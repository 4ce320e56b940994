import RustDesk.Transport.BytesCodec

/-!
# A stream that turns from messages to bytes

`FramedStream` carries messages in frames until `set_raw`; from then on it carries bytes as
they are.  Nothing on the wire says where the frames end, so each side has to know it.

`Flight` is one direction while its writer and its reader may be apart: the messages that were
sent and not read, and behind them the raw bytes.  The lemmas say what each call of the writer
and of the reader does to it.  The reader may go on with messages as long as there is one, or
nothing raw (`Flight.next_message`), and may turn raw when no message is left
(`Flight.readRaw`).
-/

namespace RustDesk

open List

namespace Tunnel

open BytesCodec FramedCodec Incremental

inductive Received (μ : Type) where
  | failed
  | garbled
  | message (m : μ)

/-- The payloads of the messages of one direction: `write_to_bytes`, and `Encrypt` if the stream
has a key.  The number counts the messages before, as the key does. -/
structure Coding (μ : Type) where
  write : Nat → μ → Bytes
  read : Nat → Bytes → Received μ
  read_write : ∀ n m, read n (write n m) = .message m

/-- `FramedStream`: the codec, what it read and has not delivered, and the messages counted.
The bytes written and taken as frames are history. -/
structure Stream where
  codec : BytesCodec
  buffer : Bytes
  sent : Nat
  received : Nat
  framedOut : Nat
  framedIn : Nat

namespace Stream

def new : Stream := ⟨BytesCodec.new, [], 0, 0, 0, 0⟩

def setRaw (st : Stream) : Stream := { st with codec := { st.codec with raw := true } }

def send {μ : Type} (coding : Coding μ) (st : Stream) (m : μ) (wire : Bytes) :
    Option (Stream × Bytes) :=
  match st.codec.encode (coding.write st.sent m) wire with
  | .ok wire' =>
    some ({ st with
      sent := st.sent + 1
      framedOut := st.framedOut + (wire'.length - wire.length) }, wire')
  | .error _ => none

/-- `send_bytes` of a stream that is raw. -/
def sendBytes (data wire : Bytes) : Bytes := wire ++ data

def next (st : Stream) (n : Nat) (wire : Bytes) : Except IoError (Option Bytes) × Stream × Bytes :=
  let src := st.buffer ++ wire.take n
  let r := st.codec.decode src
  let frame := !st.codec.raw && (match r.1 with | .ok (some _) => true | _ => false)
  (r.1, { st with
    codec := r.2.1
    buffer := r.2.2
    received := if frame then st.received + 1 else st.received
    framedIn := if st.codec.raw then st.framedIn
      else st.framedIn + (src.length - r.2.2.length) }, wire.drop n)

end Stream

def idle : FramedCodec := ⟨BytesCodec.new, rfl⟩

variable {μ : Type} (coding : Coding μ)

/-- The payloads of messages, the first of which is the one with the number `n`. -/
def payloads (n : Nat) : List μ → List Bytes
  | [] => []
  | m :: ms => coding.write n m :: payloads (n + 1) ms

/-- **One direction.**  What the writer sent and the reader has not taken are the frames of
`ms` and then the bytes `raw`. -/
structure Flight (writer reader : Stream) (wire : Bytes) (ms : List μ) (raw : Bytes) :
    Prop where
  framed : ∀ h : reader.codec.raw = false,
    decoder.Yields ⟨reader.codec, h⟩ (reader.buffer ++ wire) (payloads coding reader.received ms)
      idle raw
  turned : reader.codec.raw = true → ms = [] ∧ reader.buffer ++ wire = raw
  counted : writer.sent = reader.received + ms.length
  taken : reader.framedIn + (reader.buffer ++ wire).length = writer.framedOut + raw.length
  raw_of_writer : writer.codec.raw = false → raw = []

variable {coding} {writer reader : Stream} {wire : Bytes} {ms : List μ} {raw : Bytes}

theorem payloads_append (n : Nat) (ms : List μ) (m : μ) :
    payloads coding n (ms ++ [m]) = payloads coding n ms ++ [coding.write (n + ms.length) m] := by
  induction ms generalizing n with
  | nil => rfl
  | cons m' ms ih =>
    have hnumber : n + (m' :: ms).length = n + 1 + ms.length := by
      rw [length_cons]
      omega
    rw [cons_append, payloads, payloads, ih, hnumber]
    rfl

theorem decode_length_le (c : FramedCodec) (src : Bytes) :
    (decoder.decode c src).2.2.length ≤ src.length := by
  have hbody : ∀ (c : BytesCodec) (n : Nat) (src : Bytes),
      (c.decodeBody n src).2.2.length ≤ src.length := by
    intro c n src
    unfold decodeBody decodeData
    by_cases h : src.length < n
    · simp [h]
    · simp [h]
  change (c.codec.decode src).2.2.length ≤ src.length
  unfold BytesCodec.decode
  rw [if_neg (by simp [c.framed])]
  cases hst : c.codec.state with
  | data n => exact hbody _ n src
  | head =>
    dsimp only
    rcases c.codec.decodeHead_cases src with h | ⟨e, h⟩ | ⟨n, rest, hlen, h⟩
    · rw [h]
    · have hnow := h []
      rw [append_nil] at hnow
      rw [hnow]
    · have hnow := h []
      rw [append_nil, append_nil] at hnow
      rw [hnow]
      exact Nat.le_trans (hbody _ n rest) hlen.le

namespace Flight

theorem new : Flight coding .new .new [] [] [] where
  framed _ := .nil idle []
  turned := nofun
  counted := rfl
  taken := rfl
  raw_of_writer _ := rfl

theorem congr {writer' reader' : Stream} (h : Flight coding writer reader wire ms raw)
    (hraw : writer'.codec.raw = writer.codec.raw) (hsent : writer'.sent = writer.sent)
    (hout : writer'.framedOut = writer.framedOut) (hcodec : reader'.codec = reader.codec)
    (hbuffer : reader'.buffer = reader.buffer) (hreceived : reader'.received = reader.received)
    (hin : reader'.framedIn = reader.framedIn) : Flight coding writer' reader' wire ms raw := by
  obtain ⟨codec, buffer, sent, received, framedOut, framedIn⟩ := reader
  obtain ⟨codec', buffer', sent', received', framedOut', framedIn'⟩ := reader'
  cases hcodec
  cases hbuffer
  cases hreceived
  cases hin
  refine ⟨h.framed, h.turned, ?_, ?_, ?_⟩
  · rw [hsent]
    exact h.counted
  · rw [hout]
    exact h.taken
  · rw [hraw]
    exact h.raw_of_writer

theorem framedIn_le (h : Flight coding writer reader wire ms raw) :
    reader.framedIn ≤ writer.framedOut := by
  have hleft : raw.length ≤ (reader.buffer ++ wire).length := by
    cases hraw : reader.codec.raw with
    | false => exact (h.framed hraw).length_le decode_length_le
    | true => exact (h.turned hraw).2 ▸ Nat.le_refl _
  have htaken := h.taken
  omega

theorem send (h : Flight coding writer reader wire ms raw) (hwriter : writer.codec.raw = false)
    (hreader : reader.codec.raw = false) {m : μ} {writer' : Stream} {wire' : Bytes}
    (hsend : writer.send coding m wire = some (writer', wire')) :
    Flight coding writer' reader wire' (ms ++ [m]) [] ∧ writer'.codec = writer.codec ∧
      raw = [] := by
  obtain rfl := h.raw_of_writer hwriter
  unfold Stream.send encode at hsend
  rw [hwriter] at hsend
  cases hheader : header (coding.write writer.sent m).length with
  | none =>
    rw [hheader] at hsend
    cases hsend
  | some head =>
    rw [hheader] at hsend
    have hlen : (coding.write writer.sent m).length ≤ 0x3FFFFFFF := by
      by_contra hlong
      unfold header at hheader
      rw [if_neg (by omega), if_neg (by omega), if_neg (by omega), if_neg hlong] at hheader
      cases hheader
    cases hsend
    refine ⟨⟨fun hraw => ?_, fun hraw => ?_, ?_, ?_, fun _ => rfl⟩, rfl, rfl⟩
    · have hbefore := (h.framed hraw).extend (head ++ coding.write writer.sent m)
      have hframe := decode_frame (c := idle) rfl hlen (Nat.le_trans hlen (by decide)) hheader []
      rw [payloads_append, ← h.counted]
      rw [append_nil] at hframe
      rw [nil_append, append_assoc, ← append_assoc wire] at hbefore
      exact hbefore.snoc hframe
    · rw [hreader] at hraw
      cases hraw
    · have hcount := h.counted
      change writer.sent + 1 = _
      rw [length_append, length_singleton]
      omega
    · have htaken := h.taken
      simp only [length_append, length_nil] at htaken ⊢
      omega

theorem sendBytes (h : Flight coding writer reader wire ms raw) (hwriter : writer.codec.raw = true)
    (data : Bytes) : Flight coding writer reader (Stream.sendBytes data wire) ms (raw ++ data) := by
  unfold Stream.sendBytes
  refine ⟨fun hraw => ?_, fun hraw => ?_, h.counted, ?_, fun hraw => ?_⟩
  · rw [← append_assoc]
    exact (h.framed hraw).extend data
  · obtain ⟨hms, hbytes⟩ := h.turned hraw
    exact ⟨hms, by rw [← hbytes, append_assoc]⟩
  · have htaken := h.taken
    simp only [length_append] at htaken ⊢
    omega
  · rw [hwriter] at hraw
    cases hraw

theorem writeRaw (h : Flight coding writer reader wire ms raw) :
    Flight coding writer.setRaw reader wire ms raw :=
  ⟨h.framed, h.turned, h.counted, h.taken, nofun⟩

theorem readRaw (h : Flight coding writer reader wire [] raw) :
    Flight coding writer reader.setRaw wire [] raw := by
  refine ⟨nofun, fun _ => ⟨rfl, ?_⟩, h.counted, h.taken, h.raw_of_writer⟩
  cases hraw : reader.codec.raw with
  | true => exact (h.turned hraw).2
  | false =>
    have hnothing := h.framed hraw
    generalize hidle : (⟨reader.codec, hraw⟩ : FramedCodec) = c at hnothing
    cases hnothing
    rfl

theorem next_bytes (reader : Stream) (n : Nat) (wire : Bytes) :
    reader.buffer ++ wire = reader.buffer ++ wire.take n ++ wire.drop n := by
  rw [append_assoc, take_append_drop]

theorem next_of_decode (h : reader.codec.raw = false) {n : Nat} {item : Option Bytes}
    {t : FramedCodec} {left : Bytes}
    (hd : decoder.decode ⟨reader.codec, h⟩ (reader.buffer ++ wire.take n) = (.ok item, t, left)) :
    reader.next n wire = (.ok item, { reader with
      codec := t.codec
      buffer := left
      received := reader.received + item.toList.length
      framedIn := reader.framedIn + ((reader.buffer ++ wire.take n).length - left.length) },
      wire.drop n) := by
  obtain ⟨hitem, hcodec, hleft⟩ : (reader.codec.decode (reader.buffer ++ wire.take n)).1 = .ok item ∧
      (reader.codec.decode (reader.buffer ++ wire.take n)).2.1 = t.codec ∧
      (reader.codec.decode (reader.buffer ++ wire.take n)).2.2 = left := by
    have hone := congrArg (·.1) hd
    have htwo := congrArg (·.2.1.codec) hd
    have hthree := congrArg (·.2.2) hd
    exact ⟨hone, htwo, hthree⟩
  unfold Stream.next
  simp only [hitem, hcodec, hleft, h]
  cases item <;> rfl

structure Reads (coding : Coding μ) (writer reader : Stream) (n : Nat) (wire : Bytes)
    (ms : List μ) (raw : Bytes) : Prop where
  kept : (reader.next n wire).2.1.codec.raw = false
  found : ((reader.next n wire).1 = .ok none ∧
      Flight coding writer (reader.next n wire).2.1 (reader.next n wire).2.2 ms raw) ∨
    ∃ m ms', ms = m :: ms' ∧
      (reader.next n wire).1 = .ok (some (coding.write reader.received m)) ∧
      Flight coding writer (reader.next n wire).2.1 (reader.next n wire).2.2 ms' raw

/-- **Reading a message.**  As long as there is a message, or nothing raw, a reader of messages
finds the messages that were sent. -/
theorem next_message (h : Flight coding writer reader wire ms raw)
    (hreader : reader.codec.raw = false) (hsome : ms = [] → raw = []) (n : Nat) :
    Reads coding writer reader n wire ms raw := by
  have hyields := h.framed hreader
  have htaken := h.taken
  rw [next_bytes reader n wire] at hyields htaken
  have hbalance : ∀ {left : Bytes}, left.length ≤ (reader.buffer ++ wire.take n).length →
      reader.framedIn + ((reader.buffer ++ wire.take n).length - left.length)
        + (left ++ wire.drop n).length = writer.framedOut + raw.length := by
    intro left hle
    simp only [length_append] at hle htaken ⊢
    omega
  have hshrink := decode_length_le ⟨reader.codec, hreader⟩ (reader.buffer ++ wire.take n)
  cases ms with
  | nil =>
    obtain rfl := hsome rfl
    have hidle : decoder.decode ⟨reader.codec, hreader⟩ (reader.buffer ++ wire.take n) =
        (.ok none, ⟨reader.codec, hreader⟩, []) := by
      generalize hc : (⟨reader.codec, hreader⟩ : FramedCodec) = c at hyields ⊢
      generalize hsrc : reader.buffer ++ wire.take n ++ wire.drop n = src at hyields
      cases hyields
      rw [(append_eq_nil_iff.mp hsrc).1]
      rfl
    rw [hidle] at hshrink
    have hnext := next_of_decode hreader hidle
    refine ⟨by rw [hnext]; exact hreader, .inl ?_⟩
    rw [hnext]
    refine ⟨rfl, fun _ => ?_, fun hraw => ?_, h.counted, hbalance (Nat.zero_le _), h.raw_of_writer⟩
    · generalize hsrc : reader.buffer ++ wire.take n ++ wire.drop n = src at hyields
      generalize hc : (⟨reader.codec, hreader⟩ : FramedCodec) = c at hyields
      cases hyields
      rw [(append_eq_nil_iff.mp hsrc).2]
      exact .nil idle []
    · exact absurd hraw (by simp [hreader])
  | cons m ms' =>
    rcases hyields.read with ⟨t, left, hd, hrest⟩ | ⟨t, left, hd, hrest⟩
    · rw [hd] at hshrink
      have hnext := next_of_decode hreader hd
      refine ⟨by rw [hnext]; exact t.framed, .inl ?_⟩
      rw [hnext]
      refine ⟨rfl, fun _ => hrest, fun hraw => ?_, h.counted, hbalance hshrink, h.raw_of_writer⟩
      exact absurd hraw (by simp [t.framed])
    · rw [hd] at hshrink
      have hnext := next_of_decode hreader hd
      refine ⟨by rw [hnext]; exact t.framed, .inr ⟨m, ms', rfl, ?_⟩⟩
      rw [hnext]
      refine ⟨rfl, fun _ => hrest, fun hraw => ?_, ?_, hbalance hshrink, h.raw_of_writer⟩
      · exact absurd hraw (by simp [t.framed])
      · have hcount := h.counted
        rw [length_cons] at hcount
        simp only [Option.toList_some, length_singleton]
        omega

theorem next_raw (h : Flight coding writer reader wire ms raw) (hreader : reader.codec.raw = true)
    (n : Nat) :
    (reader.next n wire).2.1.codec.raw = true ∧
    ∃ data raw', raw = data ++ raw' ∧
      (reader.next n wire).1 = .ok (if data = [] then none else some data) ∧
      Flight coding writer (reader.next n wire).2.1 (reader.next n wire).2.2 ms raw' := by
  obtain ⟨rfl, hbytes⟩ := h.turned hreader
  have htaken := h.taken
  rw [next_bytes reader n wire] at hbytes htaken
  have hnext : reader.next n wire = (.ok (if reader.buffer ++ wire.take n = [] then none
      else some (reader.buffer ++ wire.take n)), { reader with buffer := [] }, wire.drop n) := by
    unfold Stream.next BytesCodec.decode
    cases hsrc : reader.buffer ++ wire.take n <;> simp [hreader]
  rw [hnext]
  refine ⟨hreader, _, wire.drop n, hbytes.symm, rfl, fun hraw => ?_, fun _ => ⟨rfl, rfl⟩, h.counted,
    ?_, fun hwriter => ?_⟩
  · exact absurd hraw (by simp [hreader])
  · rw [← hbytes] at htaken
    simp only [length_append, length_nil] at htaken ⊢
    omega
  · rw [h.raw_of_writer hwriter] at hbytes
    exact (append_eq_nil_iff.mp hbytes).2

end Flight
end Tunnel
end RustDesk
