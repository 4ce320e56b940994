import RustDesk.Config.PasswordSecurity
import RustDesk.Transport.BytesCodec
import RustDesk.Transport.Encrypt

/-!
# The stream of bytes between two ends

`FramedStream` over a connection: `send_raw` seals a message and the codec frames it,
`next` takes the next frame out of the bytes that arrived and opens it.  Here a sealed
message is bytes again, and `secretbox` any pair of functions with the law of the library.

* `stream_roundtrip` — what one end sends is what the other reads, message by message and
  however the bytes are cut, sealed or not;
* `stream_authentic` — on any bytes at all, as long as no frame among them is a forgery,
  what is read up to the first error is, but for frames too short to be sealed, a prefix
  of what was sent.
-/

namespace RustDesk

open Incremental BytesCodec List

namespace Encrypt

variable (box : SecretBox) (e : Encrypt)

/-- `dec`, on the bytes of a frame. -/
def decBytes (bytes : Bytes) : Except IoError Bytes × Encrypt :=
  if bytes.length ≤ 1 then (.ok bytes, e)
  else
    let e := { e with decSeq := e.decSeq + 1 }
    match box.openBox e.key.bytes (getNonce e.decSeq) bytes with
    | some res => (.ok res, e)
    | none => (.error ⟨.other, "decryption error"⟩, e)

/-- `enc`, into the bytes of a frame. -/
def encBytes (data : Bytes) : Bytes × Encrypt :=
  let e := { e with encSeq := e.encSeq + 1 }
  (box.sealBox e.key.bytes (getNonce e.encSeq) data, e)

end Encrypt

namespace Encrypt

variable {box : SecretBox} (e : Encrypt)

end Encrypt

namespace FramedStream

variable (box : SecretBox)

/-- `send_raw`: the frame for the codec. -/
def sendBytes (st : FramedStream) (msg : Bytes) : Bytes × FramedStream :=
  match st.encrypt with
  | some key => ((key.encBytes box msg).1, ⟨some (key.encBytes box msg).2⟩)
  | none => (msg, st)

/-- `next`, on the frame of the codec. -/
def nextBytes (st : FramedStream) (frame : Bytes) : Except IoError Bytes × FramedStream :=
  match st.encrypt with
  | some key => ((key.decBytes box frame).1, ⟨some (key.decBytes box frame).2⟩)
  | none => (.ok frame, st)

/-- The frames of some messages, in order. -/
def sendAll (st : FramedStream) : List Bytes → List Bytes
  | [] => []
  | msg :: msgs => (st.sendBytes box msg).1 :: sendAll (st.sendBytes box msg).2 msgs

/-- One end of a stream: the codec of the connection, and `next` on its frames. -/
def reader : Decoder (FramedCodec × FramedStream) UInt8 Bytes IoError :=
  FramedCodec.decoder.andThen (nextBytes box)

/-- One end opens what the other seals next. -/
def Agrees (st st' : FramedStream) : Prop :=
  st.encrypt.map (fun e => (e.key, e.encSeq)) = st'.encrypt.map (fun e => (e.key, e.decSeq))

instance (st st' : FramedStream) : Decidable (Agrees st st') :=
  inferInstanceAs (Decidable (_ = _))

variable {box} {st st' : FramedStream}

theorem length_sendBytes_le (st : FramedStream) (msg : Bytes) :
    (st.sendBytes box msg).1.length ≤ msg.length + 16 := by
  unfold sendBytes
  split
  · exact Nat.le_of_eq (box.sealBox_length _ _ _)
  · exact Nat.le_add_right _ _

theorem length_sendAll_le {msgs : List Bytes} {n : Nat} (h : ∀ m ∈ msgs, m.length + 16 ≤ n) :
    ∀ f ∈ st.sendAll box msgs, f.length ≤ n := by
  induction msgs generalizing st with
  | nil => simp [sendAll]
  | cons msg msgs ih =>
    simp only [sendAll, mem_cons, forall_eq_or_imp]
    have hhead := h msg mem_cons_self
    exact ⟨(length_sendBytes_le st msg).trans hhead, ih fun m hm => h m (mem_cons_of_mem msg hm)⟩

variable (box) in
/-- One message: it is read as it was sent, and the ends agree on the next. -/
theorem Agrees.next (h : Agrees st st') (msg : Bytes) : ∃ st'',
    st'.nextBytes box (st.sendBytes box msg).1 = (.ok msg, st'') ∧
      Agrees (st.sendBytes box msg).2 st'' := by
  obtain ⟨_ | e⟩ := st <;> obtain ⟨_ | e'⟩ := st' <;> simp [Agrees] at h
  · exact ⟨_, rfl, rfl⟩
  · obtain ⟨hkey, hseq⟩ := h
    have hlong : ¬ (box.sealBox e.key.bytes (getNonce (e.encSeq + 1)) msg).length ≤ 1 := by
      rw [box.sealBox_length]
      omega
    refine ⟨⟨some { e' with decSeq := e'.decSeq + 1 }⟩, ?_, ?_⟩
    · rw [hseq, hkey] at hlong
      simp [nextBytes, sendBytes, Encrypt.encBytes, Encrypt.decBytes, hkey, hseq, hlong,
        box.openBox_sealBox]
    · simp [Agrees, sendBytes, Encrypt.encBytes, hkey, hseq]

variable (box) in
theorem Agrees.stage (h : Agrees st st') (msgs : List Bytes) : ∃ st'',
    Decoder.stage (nextBytes box) st' (st.sendAll box msgs) = (msgs, none, st'') := by
  induction msgs generalizing st st' with
  | nil => exact ⟨st', rfl⟩
  | cons msg msgs ih =>
    obtain ⟨st₁, hone, hnext⟩ := h.next box msg
    obtain ⟨st₂, hrest⟩ := ih hnext
    exact ⟨st₂, by simp [sendAll, Decoder.stage, hone, hrest]⟩

theorem reader_idle {dec : FramedCodec} (hst : dec.codec.state = .head) :
    (reader box).decode (dec, st) [] = (.ok none, (dec, st), []) := by
  have hwait : FramedCodec.decoder.decode dec [] = (.ok none, dec, []) :=
    (FramedCodec.decode_head hst []).trans (by simp [decodeHead])
  simp [reader, Decoder.andThen, hwait]

end FramedStream

open FramedStream in
/-- **What is sent is what is read.**  Ends that agree, with codecs between messages: however
the bytes are cut, the messages are read in order and no byte is left; and any part of the
bytes from the start reads as a part of the messages, without an error. -/
theorem stream_roundtrip (box : SecretBox) {st st' : FramedStream} (h : Agrees st st')
    (enc : BytesCodec) (henc : enc.raw = false) (dec : FramedCodec)
    (hst : dec.codec.state = .head) (msgs : List Bytes)
    (hlen : ∀ m ∈ msgs, m.length + 16 ≤ 0x3FFFFFFF)
    (hmax : ∀ m ∈ msgs, m.length + 16 ≤ dec.codec.maxPacketLength) :
    ∃ stream, enc.encodeAll (st.sendAll box msgs) [] = .ok stream ∧
      (∀ chunks : List Bytes, chunks.flatten = stream →
        ∃ st'', (reader box).feedAll (dec, st') chunks = ⟨msgs, none, (dec, st''), []⟩) ∧
      (∀ chunks : List Bytes, chunks.flatten <+: stream →
        ((reader box).feedAll (dec, st') chunks).items <+: msgs ∧
        ((reader box).feedAll (dec, st') chunks).error = none) := by
  obtain ⟨stream, hencode, hframes⟩ := FramedCodec.encodeAll_drain henc hst
    (st.sendAll box msgs) (length_sendAll_le hlen) (length_sendAll_le hmax) []
  obtain ⟨st'', hstage⟩ := h.stage box msgs
  have hdrain : (reader box).drain (dec, st') stream = ⟨msgs, none, (dec, st''), []⟩ := by
    have hall := (Decoder.drain_andThen FramedCodec.decoder (nextBytes box) dec st' stream).2
    rw [hframes, hstage] at hall
    exact hall rfl
  have hidle : (reader box).decode (dec, st') [] = _ := reader_idle hst
  refine ⟨stream, by simpa using hencode, ?_, ?_⟩
  · intro chunks hchunks
    refine ⟨st'', ?_⟩
    rw [Decoder.feedAll_eq_drain _ hidle, hchunks, hdrain]
    rw [hchunks, hdrain]
  · rintro chunks ⟨rest, hrest⟩
    have hok : ((reader box).drain (dec, st') (chunks.flatten ++ rest)).error = none := by
      rw [hrest, hdrain]
    obtain ⟨herr, hitems⟩ := Decoder.drain_items_prefix _ _ chunks.flatten rest hok
    rw [hrest, hdrain] at hitems
    rw [Decoder.feedAll_eq_drain _ hidle chunks herr]
    exact ⟨hitems, herr⟩

def openable : SecretBox where
  sealBox _ nonce data := (nonce ++ List.replicate 16 0).take 16 ++ data
  openBox _ nonce frame :=
    if frame.take 16 = (nonce ++ List.replicate 16 0).take 16 then some (frame.drop 16) else none
  openBox_sealBox _ nonce data := by
    have hlength : ((nonce ++ List.replicate 16 (0 : UInt8)).take 16).length = 16 := by simp
    rw [take_left' hlength, drop_left' hlength, if_pos rfl]
  sealBox_length _ nonce data := by simp; omega

def keyed : FramedStream := FramedStream.setKey ⟨none⟩ zeroKey

open FramedStream in
/-- Two messages, one of them empty. -/
theorem stream_roundtrip_two :
    ∃ stream, BytesCodec.new.encodeAll (keyed.sendAll openable [[7, 8], []]) [] = .ok stream ∧
      (∀ chunks : List Bytes, chunks.flatten = stream → ∃ st'',
        (reader openable).feedAll (⟨BytesCodec.new, rfl⟩, keyed) chunks =
          ⟨[[7, 8], []], none, (⟨BytesCodec.new, rfl⟩, st''), []⟩) ∧
      (∀ chunks : List Bytes, chunks.flatten <+: stream →
        ((reader openable).feedAll (⟨BytesCodec.new, rfl⟩, keyed) chunks).items <+: [[7, 8], []] ∧
        ((reader openable).feedAll (⟨BytesCodec.new, rfl⟩, keyed) chunks).error = none) :=
  stream_roundtrip openable (by decide) BytesCodec.new rfl ⟨BytesCodec.new, rfl⟩ rfl
    [[7, 8], []] (by decide) (by decide)

/-- The frames in some bytes, and no forgery among them: what opens under the nonce of a
message is that message. -/
def NoForgery (box : SecretBox) (key : Key) (sent frames : List Bytes) : Prop :=
  ∀ frame ∈ frames, ∀ i < frames.length, ∀ m,
    box.openBox key.bytes (nonceAt i) frame = some m → sent[i]? = some m

/-- Longer than what passes `dec` unopened. -/
def sealable (m : Bytes) : Bool := 1 < m.length

namespace FramedStream

variable {box : SecretBox} {key : Key} {sent : List Bytes}

/-- The frames from some point on, when `k` of those before were opened. -/
theorem stage_authentic {n : UInt64} (frames : List Bytes) (k bound : Nat)
    (hk : k + frames.length ≤ bound)
    (hforge : ∀ frame ∈ frames, ∀ i < bound, ∀ m,
      box.openBox key.bytes (nonceAt i) frame = some m → sent[i]? = some m) :
    (Decoder.stage (nextBytes box) ⟨some ⟨key, n, UInt64.ofNat k⟩⟩ frames).1.filter sealable
      <+: (sent.drop k).filter sealable := by
  induction frames generalizing k with
  | nil => simp [Decoder.stage]
  | cons frame frames ih =>
    have hrest : ∀ f ∈ frames, ∀ i < bound, ∀ m,
        box.openBox key.bytes (nonceAt i) f = some m → sent[i]? = some m :=
      fun f hf => hforge f (mem_cons_of_mem frame hf)
    rw [length_cons] at hk
    have hnonce : getNonce (UInt64.ofNat k + 1) = nonceAt k :=
      congrArg getNonce (UInt64.ofNat_add k 1).symm
    by_cases hshort : frame.length ≤ 1
    · have hpass : nextBytes box ⟨some ⟨key, n, UInt64.ofNat k⟩⟩ frame =
          (.ok frame, ⟨some ⟨key, n, UInt64.ofNat k⟩⟩) := by
        simp [nextBytes, Encrypt.decBytes, hshort]
      have hskip : sealable frame = false := by simpa [sealable] using hshort
      simp only [Decoder.stage, hpass, filter_cons, hskip]
      exact ih k (by omega) hrest
    rcases hopen : box.openBox key.bytes (nonceAt k) frame with _ | m
    · simp [Decoder.stage, nextBytes, Encrypt.decBytes, hshort, hnonce, hopen]
    · have hget := hforge frame mem_cons_self k (by omega) m hopen
      obtain ⟨hlt, hm⟩ := List.getElem?_eq_some_iff.mp hget
      have hread : nextBytes box ⟨some ⟨key, n, UInt64.ofNat k⟩⟩ frame =
          (.ok m, ⟨some ⟨key, n, UInt64.ofNat (k + 1)⟩⟩) := by
        simp [nextBytes, Encrypt.decBytes, hshort, hnonce, hopen]
      have hdrop : sent.drop k = m :: sent.drop (k + 1) := by
        rw [drop_eq_getElem_cons hlt, hm]
      simp only [Decoder.stage, hread, hdrop, filter_cons]
      split
      · exact (prefix_cons_inj m).mpr (ih (k + 1) (by omega) hrest)
      · exact ih (k + 1) (by omega) hrest

end FramedStream

open FramedStream in
/-- **Any bytes at all.**  Whatever arrives at an end that was just given its key, in whatever
pieces: if none of its frames is a forgery, the messages read, up to the first error and
without those of at most one byte, are the first of those sent. -/
theorem stream_authentic (box : SecretBox) (key : Key) (sent : List Bytes) (dec : FramedCodec)
    (hst : dec.codec.state = .head) (chunks : List Bytes)
    (hforge : NoForgery box key sent (FramedCodec.decoder.drain dec chunks.flatten).items) :
    ((reader box).feedAll (dec, FramedStream.setKey ⟨none⟩ key) chunks).items.filter sealable
      <+: sent.filter sealable := by
  rw [(Decoder.feedAll_items _ (reader_idle hst) chunks).1, reader,
    (Decoder.drain_andThen FramedCodec.decoder (nextBytes box) dec _ chunks.flatten).1]
  have hstage := stage_authentic (n := 0) (FramedCodec.decoder.drain dec chunks.flatten).items 0
    _ (Nat.le_of_eq (Nat.zero_add _)) hforge
  exact hstage

def sealedOne : Bytes := (keyed.sendBytes openable [7, 8]).1

open FramedStream in
/-- The bytes of a sealed message, in two pieces. -/
theorem stream_authentic_pieces :
    ((reader openable).feedAll (⟨BytesCodec.new, rfl⟩, keyed) [[72], sealedOne]).items.filter
      sealable <+: [[7, 8]].filter sealable := by
  refine stream_authentic openable zeroKey [[7, 8]] ⟨BytesCodec.new, rfl⟩ rfl [[72], sealedOne] ?_
  have hhead : (⟨BytesCodec.new, rfl⟩ : FramedCodec).codec.state = .head := rfl
  obtain ⟨stream, hencode, hdrain⟩ := FramedCodec.encodeAll_drain
    (rfl : BytesCodec.new.raw = false) hhead [sealedOne] (by decide) (by decide) []
  obtain rfl : [72] ++ sealedOne = stream := by
    have hbytes : BytesCodec.new.encodeAll [sealedOne] [] = .ok ([72] ++ sealedOne) := by
      decide
    rw [hbytes] at hencode
    exact Except.ok.inj hencode
  have hflat : [[72], sealedOne].flatten = [72] ++ sealedOne := by simp
  rw [hflat, hdrain]
  intro frame hframe i hi m hopen
  obtain rfl := mem_singleton.mp hframe
  obtain rfl : i = 0 := by simpa using hi
  have hone : openable.openBox zeroKey.bytes (nonceAt 0) sealedOne = some [7, 8] := by decide
  rw [hone] at hopen
  exact hopen

end RustDesk
