import RustDesk.Basic
import RustDesk.Lib.LittleEndian
import RustDesk.Lib.Run

/-!
# The encrypted stream

`Encrypt` seals every message of a stream with `secretbox` under one shared key;
the nonce is a counter that both directions start at zero.  `secretbox` is
ideal here: a sealed frame is the triple of key, nonce and message, and opening
succeeds exactly on the triple with the same key and nonce.

`Net` is a session of two endpoints on a network that belongs to an adversary: it
sees every frame, and it may deliver to either side, in any order and any number
of times, every frame it saw and every frame that is not sealed under the session
key.

The session is sound (`Sound`) in every state of a run whose steps are all
`Separated`: the two directions never put different messages under one counter
value, and no endpoint is sent back a frame of its own that the other side has not
caught up with.  Runs too short to wrap the counter are sound only then.
-/

namespace RustDesk

open LittleEndian List

structure Key where
  bytes : Bytes
  size : bytes.length = 32
  deriving DecidableEq

/-- What travels on the wire: a sealed box, or bytes that no `seal` produced. -/
inductive Frame where
  | plain (bytes : Bytes)
  | box (key : Key) (nonce msg : Bytes)
  deriving DecidableEq

namespace Frame

def length : Frame → Nat
  | plain bytes => bytes.length
  | box _ _ msg => msg.length + 16

/-- `secretbox::seal`. -/
def sealBox (msg nonce : Bytes) (key : Key) : Frame := box key nonce msg

/-- `secretbox::open`. -/
def openBox (f : Frame) (nonce : Bytes) (key : Key) : Option Bytes :=
  match f with
  | plain _ => none
  | box k n msg => if k = key ∧ n = nonce then some msg else none

def sealedUnder (key : Key) : Frame → Bool
  | plain _ => false
  | box k _ _ => k == key

theorem openBox_eq_some {f : Frame} {nonce msg : Bytes} {key : Key} :
    f.openBox nonce key = some msg ↔ f = sealBox msg nonce key := by
  cases f with
  | plain bytes => simp [openBox, sealBox]
  | box k n m =>
    by_cases h : k = key ∧ n = nonce
    · obtain ⟨rfl, rfl⟩ := h
      simp [openBox, sealBox]
    · simp [openBox, sealBox, h]
      intro hk hn
      exact absurd ⟨hk, hn⟩ h

end Frame

/-- The key, the counter of `enc` and the counter of `dec`. -/
structure Encrypt where
  key : Key
  encSeq : UInt64
  decSeq : UInt64

def getNonce (seqnum : UInt64) : Bytes :=
  leBytes seqnum.toNat 8 ++ List.replicate 16 0

namespace Encrypt

def new (key : Key) : Encrypt := ⟨key, 0, 0⟩

/-- `Encrypt::dec`: the frame is replaced by its content.  Frames of at most one
byte pass unchanged and do not count. -/
def dec (e : Encrypt) (bytes : Frame) : Except IoError Frame × Encrypt :=
  if bytes.length ≤ 1 then (.ok bytes, e)
  else
    let e := { e with decSeq := e.decSeq + 1 }
    match bytes.openBox (getNonce e.decSeq) e.key with
    | some res => (.ok (.plain res), e)
    | none => (.error ⟨.other, "decryption error"⟩, e)

def enc (e : Encrypt) (data : Bytes) : Frame × Encrypt :=
  let e := { e with encSeq := e.encSeq + 1 }
  (Frame.sealBox data (getNonce e.encSeq) e.key, e)

end Encrypt

/-- `FramedStream` as far as encryption goes: whether a key is set. -/
structure FramedStream where
  encrypt : Option Encrypt

namespace FramedStream

def setKey (_ : FramedStream) (key : Key) : FramedStream := ⟨some (Encrypt.new key)⟩

/-- `FramedStream::send_raw`: the frame handed to the transport. -/
def sendRaw (st : FramedStream) (msg : Bytes) : Frame × FramedStream :=
  match st.encrypt with
  | some key =>
    let (frame, key) := key.enc msg
    (frame, ⟨some key⟩)
  | none => (.plain msg, st)

/-- `FramedStream::next` on the frame the transport delivers. -/
def next (st : FramedStream) (bytes : Frame) : Except IoError Frame × FramedStream :=
  match st.encrypt with
  | some key =>
    let (res, key) := key.dec bytes
    (res, ⟨some key⟩)
  | none => (.ok bytes, st)

end FramedStream

/-- One end of a session with its history: what it passed to `enc` and the frames
that came out, what `dec` accepted, and whether `dec` has failed. -/
structure Endpoint where
  stream : FramedStream
  sent : List Bytes
  wire : List Frame
  accepted : List Bytes
  failed : Bool

namespace Endpoint

def new (key : Key) : Endpoint := ⟨FramedStream.setKey ⟨none⟩ key, [], [], [], false⟩

def sendMsg (e : Endpoint) (msg : Bytes) : Endpoint :=
  let (frame, stream) := e.stream.sendRaw msg
  { e with stream := stream, sent := e.sent ++ [msg], wire := e.wire ++ [frame] }

/-- A frame reaches the endpoint.  Contents are recorded up to the first error,
without the short frames that bypass decryption. -/
def receive (e : Endpoint) (f : Frame) : Endpoint :=
  if e.failed then e
  else
    match e.stream.next f with
    | (.ok (.plain msg), stream) =>
      { e with
        stream := stream
        accepted := if f.length ≤ 1 then e.accepted else e.accepted ++ [msg] }
    | (.ok (.box _ _ _), stream) => { e with stream := stream }
    | (.error _, stream) => { e with stream := stream, failed := true }

end Endpoint

inductive Side where
  | a
  | b
  deriving DecidableEq

def Side.other : Side → Side
  | .a => .b
  | .b => .a

structure Net where
  key : Key
  a : Endpoint
  b : Endpoint

namespace Net

def session (key : Key) : Net := ⟨key, .new key, .new key⟩

def side (net : Net) : Side → Endpoint
  | .a => net.a
  | .b => net.b

def setSide (net : Net) : Side → Endpoint → Net
  | .a, e => { net with a := e }
  | .b, e => { net with b := e }

/-- The adversary can put a frame on the network if it saw it, in either
direction, or if it is not sealed under the session key. -/
def canSend (net : Net) (f : Frame) : Bool :=
  decide (f ∈ net.a.wire) || decide (f ∈ net.b.wire) || !f.sealedUnder net.key

inductive Input where
  | send (s : Side) (msg : Bytes)
  | deliver (s : Side) (f : Frame)

def step (net : Net) : Input → Net
  | .send s msg => net.setSide s ((net.side s).sendMsg msg)
  | .deliver s f =>
    if net.canSend f then net.setSide s ((net.side s).receive f) else net

/-- Each side accepts just what the other sent, in order, up to some point. -/
def Authentic (net : Net) : Prop :=
  ∀ s, (net.side s).accepted <+: (net.side s.other).sent

/-- No nonce seals two messages under one key. -/
def NonceUnique (net : Net) : Prop :=
  ∀ k n m m', .box k n m ∈ net.a.wire ++ net.b.wire →
    .box k n m' ∈ net.a.wire ++ net.b.wire → m = m'

def Sound (net : Net) : Prop := net.Authentic ∧ net.NonceUnique

/-- The two directions are kept apart by a step.  A message is sent under a
counter value that the other side has not used for another message, and that does
not wrap.  A frame an endpoint made itself is not sent back to it at its receive
position before the other side has used that counter value. -/
def Separated (net : Net) : Input → Prop
  | .send s msg =>
    (net.side s).sent.length + 1 < 2 ^ 64 ∧
    ∀ msg' ∈ (net.side s.other).sent[(net.side s).sent.length]?, msg' = msg
  | .deliver s f =>
    (net.side s).failed = false →
    (net.side s).wire[(net.side s).accepted.length]? = some f →
      (net.side s).accepted.length < (net.side s.other).sent.length

instance (net : Net) : ∀ i, Decidable (net.Separated i)
  | .send _ _ => inferInstanceAs (Decidable (_ ∧ _))
  | .deliver _ _ => inferInstanceAs (Decidable (_ → _))

end Net

theorem getNonce_inj {i j : UInt64} (h : getNonce i = getNonce j) : i = j := by
  have hbytes : leBytes i.toNat 8 = leBytes j.toNat 8 := append_cancel_right h
  exact UInt64.toNat_inj.mp (leBytes_inj i.toNat_lt j.toNat_lt hbytes)

/-- The nonce of the message at position `i` of a direction. -/
def nonceAt (i : Nat) : Bytes := getNonce (UInt64.ofNat (i + 1))

theorem nonceAt_inj {i j : Nat} (hi : i + 1 < 2 ^ 64) (hj : j < 2 ^ 64)
    (h : nonceAt i = nonceAt j) : i = j := by
  have hnat := congrArg UInt64.toNat (getNonce_inj h)
  rw [UInt64.toNat_ofNat_of_lt' hi, UInt64.toNat_ofNat'] at hnat
  omega

namespace Endpoint

structure Coherent (key : Key) (e : Endpoint) : Prop where
  encrypt : ∃ d, e.stream.encrypt = some ⟨key, UInt64.ofNat e.sent.length, d⟩ ∧
    (e.failed = false → d = UInt64.ofNat e.accepted.length)
  wire : e.wire = e.sent.mapIdx fun i msg => .box key (nonceAt i) msg

theorem coherent_new (key : Key) : (new key).Coherent key :=
  ⟨⟨0, rfl, fun _ => rfl⟩, rfl⟩

variable {e : Endpoint} {key : Key}

theorem Coherent.wire_getElem? (h : e.Coherent key) (i : Nat) :
    e.wire[i]? = (e.sent[i]?).map (.box key (nonceAt i)) := by
  rw [h.wire, List.getElem?_mapIdx]

variable {f : Frame}

theorem Coherent.mem_wire (h : e.Coherent key) :
    f ∈ e.wire ↔ ∃ i msg, e.sent[i]? = some msg ∧ f = .box key (nonceAt i) msg := by
  rw [mem_iff_getElem?]
  simp only [h.wire_getElem?, Option.map_eq_some_iff]
  constructor
  · rintro ⟨i, msg, hmsg, rfl⟩
    exact ⟨i, msg, hmsg, rfl⟩
  · rintro ⟨i, msg, hmsg, rfl⟩
    exact ⟨i, msg, hmsg, rfl⟩

private theorem ofNat_add_one (n : Nat) : UInt64.ofNat n + 1 = UInt64.ofNat (n + 1) :=
  (UInt64.ofNat_add n 1).symm

variable {n d : UInt64}

theorem sendMsg_of_encrypt (h : e.stream.encrypt = some ⟨key, n, d⟩) (msg : Bytes) :
    e.sendMsg msg = { e with
      stream := ⟨some ⟨key, n + 1, d⟩⟩
      sent := e.sent ++ [msg]
      wire := e.wire ++ [.box key (getNonce (n + 1)) msg] } := by
  simp [Endpoint.sendMsg, FramedStream.sendRaw, h, Encrypt.enc, Frame.sealBox]

theorem receive_short (h : e.stream.encrypt = some ⟨key, n, d⟩) (hf : f.length ≤ 1) :
    e.receive f = e := by
  obtain ⟨⟨enc⟩, _, _, _, _⟩ := e
  cases h
  cases f <;> simp [receive, FramedStream.next, Encrypt.dec, hf]

theorem receive_open (h : e.stream.encrypt = some ⟨key, n, d⟩) (hok : e.failed = false)
    (hf : ¬ f.length ≤ 1) {msg : Bytes} (hopen : f.openBox (getNonce (d + 1)) key = some msg) :
    e.receive f = { e with
      stream := ⟨some ⟨key, n, d + 1⟩⟩, accepted := e.accepted ++ [msg] } := by
  simp [receive, hok, FramedStream.next, h, Encrypt.dec, hf, hopen]

theorem receive_fail (h : e.stream.encrypt = some ⟨key, n, d⟩) (hok : e.failed = false)
    (hf : ¬ f.length ≤ 1) (hopen : f.openBox (getNonce (d + 1)) key = none) :
    e.receive f = { e with stream := ⟨some ⟨key, n, d + 1⟩⟩, failed := true } := by
  simp [receive, hok, FramedStream.next, h, Encrypt.dec, hf, hopen]

theorem Coherent.sendMsg (h : e.Coherent key) (msg : Bytes) : (e.sendMsg msg).Coherent key := by
  obtain ⟨d, henc, hd⟩ := h.encrypt
  rw [sendMsg_of_encrypt henc, ofNat_add_one]
  constructor
  · exact ⟨d, by simp, hd⟩
  · simp [h.wire, mapIdx_append, nonceAt]

theorem receive_sent_wire (e : Endpoint) (f : Frame) :
    (e.receive f).sent = e.sent ∧ (e.receive f).wire = e.wire := by
  unfold receive
  repeat' split
  all_goals exact ⟨rfl, rfl⟩

/-- **What a delivered frame can do.**  It is accepted, and then it is the frame
with the next nonce, or it leaves what was accepted alone. -/
theorem Coherent.receive (h : e.Coherent key) (f : Frame) : (e.receive f).Coherent key ∧
    ((e.receive f).accepted = e.accepted ∨
      ∃ msg, e.failed = false ∧ f = .box key (nonceAt e.accepted.length) msg ∧
        (e.receive f).accepted = e.accepted ++ [msg]) := by
  obtain ⟨d, henc, hd⟩ := h.encrypt
  cases hfail : e.failed with
  | true =>
    have hsame : e.receive f = e := by simp [Endpoint.receive, hfail]
    rw [hsame]
    exact ⟨h, Or.inl rfl⟩
  | false =>
    obtain rfl := hd hfail
    by_cases hshort : f.length ≤ 1
    · rw [receive_short henc hshort]
      exact ⟨h, Or.inl rfl⟩
    have hnonce : getNonce (UInt64.ofNat e.accepted.length + 1) = nonceAt e.accepted.length := by
      rw [ofNat_add_one, nonceAt]
    rcases hopen : f.openBox (nonceAt e.accepted.length) key with _ | msg
    · rw [receive_fail henc hfail hshort (hnonce ▸ hopen)]
      exact ⟨⟨⟨_, rfl, by simp⟩, h.wire⟩, Or.inl rfl⟩
    · have hbox := Frame.openBox_eq_some.mp hopen
      rw [receive_open henc hfail hshort (hnonce ▸ hopen), ofNat_add_one]
      exact ⟨⟨⟨_, rfl, by simp⟩, h.wire⟩, Or.inr ⟨msg, rfl, hbox, rfl⟩⟩

theorem Coherent.receive_next (h : e.Coherent key) (hok : e.failed = false) (msg : Bytes) :
    (e.receive (.box key (nonceAt e.accepted.length) msg)).accepted = e.accepted ++ [msg] := by
  obtain ⟨d, henc, hd⟩ := h.encrypt
  obtain rfl := hd hok
  have hlong : ¬ (Frame.box key (nonceAt e.accepted.length) msg).length ≤ 1 := by
    simp [Frame.length]
  rw [receive_open henc hok hlong]
  rw [ofNat_add_one]
  simp [Frame.openBox, nonceAt]

end Endpoint

namespace Net

def Coherent (net : Net) : Prop := ∀ s, (net.side s).Coherent net.key

@[simp] theorem setSide_key (net : Net) (s : Side) (e : Endpoint) :
    (net.setSide s e).key = net.key := by
  cases s <;> rfl

@[simp] theorem side_setSide (net : Net) (s : Side) (e : Endpoint) :
    (net.setSide s e).side s = e := by
  cases s <;> rfl

@[simp] theorem side_setSide_other (net : Net) (s : Side) (e : Endpoint) :
    (net.setSide s e).side s.other = net.side s.other := by
  cases s <;> rfl

@[simp] theorem other_other (s : Side) : s.other.other = s := by
  cases s <;> rfl

theorem forall_side {P : Side → Prop} (s : Side) : (∀ t, P t) ↔ P s ∧ P s.other := by
  cases s <;> constructor <;> intro h
  · exact ⟨h _, h _⟩
  · rintro (_ | _)
    exacts [h.1, h.2]
  · exact ⟨h _, h _⟩
  · rintro (_ | _)
    exacts [h.2, h.1]

theorem coherent_session (key : Key) : (session key).Coherent := by
  rintro (_ | _) <;> exact Endpoint.coherent_new key

variable {net : Net}

theorem Coherent.step (h : net.Coherent) (i : Input) : (net.step i).Coherent := by
  cases i with
  | send s msg =>
    refine (forall_side s).mpr ⟨?_, ?_⟩
    · simpa [Net.step] using (h s).sendMsg msg
    · simpa [Net.step] using h s.other
  | deliver s f =>
    by_cases hsend : net.canSend f = true
    · refine (forall_side s).mpr ⟨?_, ?_⟩
      · simpa [Net.step, hsend] using ((h s).receive f).1
      · simpa [Net.step, hsend] using h s.other
    · simpa [Net.step, hsend] using h

def Unwrapped (net : Net) : Prop := ∀ s, (net.side s).sent.length < 2 ^ 64

def Agree (net : Net) : Prop :=
  ∀ (i : Nat) (m m' : Bytes), net.a.sent[i]? = some m → net.b.sent[i]? = some m' → m = m'

theorem Agree.side (h : net.Agree) (s : Side) {i : Nat} {m m' : Bytes}
    (hm : (net.side s).sent[i]? = some m) (hm' : (net.side s.other).sent[i]? = some m') :
    m = m' := by
  cases s
  · exact h i m m' hm hm'
  · exact (h i m' m hm' hm).symm

theorem nonceUnique_iff (h : net.Coherent) (hw : net.Unwrapped) : net.NonceUnique ↔ net.Agree := by
  constructor
  · intro hu i m m' hm hm'
    refine hu net.key (nonceAt i) m m' (mem_append_left _ ?_) (mem_append_right _ ?_)
    · exact (h .a).mem_wire.mpr ⟨i, m, hm, rfl⟩
    · exact (h .b).mem_wire.mpr ⟨i, m', hm', rfl⟩
  · intro hagree k n m m' hbox hbox'
    have hpos : ∀ {x}, Frame.box k n x ∈ net.a.wire ++ net.b.wire →
        ∃ s i, (net.side s).sent[i]? = some x ∧ n = nonceAt i ∧ i + 1 < 2 ^ 64 := by
      intro x hx
      obtain ⟨s, hs⟩ : ∃ s, Frame.box k n x ∈ (net.side s).wire := by
        rcases mem_append.mp hx with hx | hx
        exacts [⟨.a, hx⟩, ⟨.b, hx⟩]
      obtain ⟨i, x', hx', heq⟩ := (h s).mem_wire.mp hs
      cases heq
      have := (List.getElem?_eq_some_iff.mp hx').1
      exact ⟨s, i, hx', rfl, by have := hw s; omega⟩
    obtain ⟨s, i, hm, hn, hi⟩ := hpos hbox
    obtain ⟨t, j, hm', hn', hj⟩ := hpos hbox'
    obtain rfl := nonceAt_inj hi (by omega) (hn.symm.trans hn')
    by_cases hst : t = s
    · subst hst
      exact Option.some.inj (hm.symm.trans hm')
    · have ht : t = s.other := by
        cases s <;> cases t <;> simp_all [Side.other]
      exact hagree.side s hm (ht ▸ hm')

private theorem prefix_concat {l l' : List Bytes} {x : Bytes} (h : l <+: l')
    (hx : l'[l.length]? = some x) : l ++ [x] <+: l' := by
  obtain ⟨t, rfl⟩ := h
  cases t with
  | nil => simp at hx
  | cons y t =>
    obtain rfl : y = x := by simpa using hx
    exact ⟨t, by simp⟩

theorem canSend_box (h : net.Coherent) {n msg : Bytes} (s : Side)
    (hsend : net.canSend (.box net.key n msg) = true) :
    ∃ i, n = nonceAt i ∧
      ((net.side s).sent[i]? = some msg ∨ (net.side s.other).sent[i]? = some msg) := by
  have hwire : ∃ t, Frame.box net.key n msg ∈ (net.side t).wire := by
    simp only [canSend, Frame.sealedUnder, beq_self_eq_true, Bool.not_true, Bool.or_false,
      Bool.or_eq_true, decide_eq_true_eq] at hsend
    rcases hsend with hs | hs
    exacts [⟨.a, hs⟩, ⟨.b, hs⟩]
  obtain ⟨t, ht⟩ := hwire
  obtain ⟨i, m, hm, heq⟩ := (h t).mem_wire.mp ht
  cases heq
  refine ⟨i, rfl, ?_⟩
  cases s <;> cases t <;> simp_all [Side.other]

theorem Sound.send (h : net.Coherent) (hw : net.Unwrapped) (hs : net.Sound)
    {s : Side} {msg : Bytes} (hsep : net.Separated (.send s msg)) :
    (net.step (.send s msg)).Unwrapped ∧ (net.step (.send s msg)).Sound := by
  have hw' : (net.step (.send s msg)).Unwrapped := by
    refine (forall_side s).mpr ⟨?_, ?_⟩
    · simpa [Net.step, Endpoint.sendMsg] using hsep.1
    · simpa [Net.step] using hw s.other
  refine ⟨hw', (forall_side s).mpr ⟨?_, ?_⟩, ?_⟩
  · simpa [Net.step, Endpoint.sendMsg] using hs.1 s
  · have hold := hs.1 s.other
    rw [other_other] at hold
    simpa [Net.step, Endpoint.sendMsg] using hold.trans (prefix_append _ [msg])
  · have hagree := (nonceUnique_iff h hw).mp hs.2
    rw [nonceUnique_iff (h.step _) hw']
    have hnew : ∀ (i : Nat) (m m' : Bytes), ((net.side s).sent ++ [msg])[i]? = some m →
        (net.side s.other).sent[i]? = some m' → m = m' := by
      intro i m m' hm hm'
      rw [List.getElem?_append] at hm
      split at hm
      · exact hagree.side s hm hm'
      · obtain ⟨hi, rfl⟩ := List.getElem?_eq_some_iff.mp hm
        have hi' : i = (net.side s).sent.length := by
          simp only [length_singleton] at hi
          omega
        subst hi'
        simp [hsep.2 m' hm']
    intro i m m' hm hm'
    cases s with
    | a => exact hnew i m m' hm hm'
    | b => exact (hnew i m' m hm' hm).symm

theorem Sound.deliver (h : net.Coherent) (hw : net.Unwrapped) (hs : net.Sound)
    {s : Side} {f : Frame} (hsep : net.Separated (.deliver s f)) :
    (net.step (.deliver s f)).Unwrapped ∧ (net.step (.deliver s f)).Sound := by
  by_cases hsend : net.canSend f = true
  swap
  · simpa [Net.step, hsend] using ⟨hw, hs⟩
  obtain ⟨hsent, hwire⟩ := (net.side s).receive_sent_wire f
  have hagree := (nonceUnique_iff h hw).mp hs.2
  have haccept : ((net.side s).receive f).accepted <+: (net.side s.other).sent := by
    rcases ((h s).receive f).2 with heq | ⟨msg, hok, rfl, heq⟩
    · rw [heq]
      exact hs.1 s
    · rw [heq]
      obtain ⟨i, hn, hi⟩ := canSend_box h s hsend
      have hlen : (net.side s).accepted.length < 2 ^ 64 :=
        Nat.lt_of_le_of_lt (hs.1 s).length_le (hw s.other)
      have hi1 : i + 1 < 2 ^ 64 := by
        rcases hi with hi | hi <;> have := (List.getElem?_eq_some_iff.mp hi).1
        · have := hw s; omega
        · have := hw s.other; omega
      obtain rfl := nonceAt_inj hi1 hlen hn.symm
      refine prefix_concat (hs.1 s) ?_
      rcases hi with hown | hother
      · have hreflected := hsep hok (by rw [(h s).wire_getElem?, hown]; rfl)
        have hget := List.getElem?_eq_getElem hreflected
        rw [hget, ← hagree.side s hown hget]
      · exact hother
  have hside : ∀ t, ((net.step (.deliver s f)).side t).sent = (net.side t).sent := by
    refine (forall_side s).mpr ⟨?_, ?_⟩ <;> simp [Net.step, hsend, hsent]
  have hw' : (net.step (.deliver s f)).Unwrapped := fun t => by
    rw [hside]
    exact hw t
  refine ⟨hw', (forall_side s).mpr ⟨?_, ?_⟩, ?_⟩
  · simpa [Net.step, hsend] using haccept
  · simpa [Net.step, hsend, hsent] using hs.1 s.other
  · rw [nonceUnique_iff (h.step _) hw']
    intro i m m' hm hm'
    have ha := hside .a
    have hb := hside .b
    simp only [side] at ha hb
    rw [ha] at hm
    rw [hb] at hm'
    exact hagree i m m' hm hm'

theorem separated_of_sound (h : net.Coherent)
    (hw : ∀ s, (net.side s).sent.length + 1 < 2 ^ 64) {i : Input}
    (hs : (net.step i).Sound) : net.Separated i := by
  cases i with
  | send s msg =>
    refine ⟨hw s, fun msg' hmsg' => ?_⟩
    have hw' : (net.step (.send s msg)).Unwrapped := by
      refine (forall_side s).mpr ⟨?_, ?_⟩
      · simpa [Net.step, Endpoint.sendMsg] using hw s
      · have := hw s.other
        simp only [Net.step, side_setSide_other]
        omega
    have hagree := (nonceUnique_iff (h.step _) hw').mp hs.2
    refine (hagree.side s (i := (net.side s).sent.length) ?_ ?_).symm
    · simp [Net.step, Endpoint.sendMsg]
    · simpa [Net.step] using hmsg'
  | deliver s f =>
    intro hok hwire
    rw [(h s).wire_getElem?, Option.map_eq_some_iff] at hwire
    obtain ⟨msg, hmsg, rfl⟩ := hwire
    have hmem := (h s).mem_wire.mpr ⟨_, msg, hmsg, rfl⟩
    have hsend : net.canSend (.box net.key (nonceAt (net.side s).accepted.length) msg) = true := by
      cases s <;> simp_all [canSend, side]
    have haccept := hs.1 s
    simp only [Net.step, hsend, if_true, side_setSide, side_setSide_other,
      (h s).receive_next hok] at haccept
    have hlen := haccept.length_le
    rw [length_append] at hlen
    exact hlen

def Good (net : Net) : Prop := net.Coherent ∧ net.Unwrapped ∧ net.Sound

theorem good_session (key : Key) : (session key).Good := by
  refine ⟨coherent_session key, ?_, ?_, ?_⟩
  · rintro (_ | _) <;> exact Nat.two_pow_pos 64
  · rintro (_ | _) <;> exact prefix_refl _
  · intro k n m m' hm
    cases hm

theorem Good.step (h : net.Good) {i : Input} (hsep : net.Separated i) : (net.step i).Good := by
  obtain ⟨hc, hw, hs⟩ := h
  refine ⟨hc.step i, ?_⟩
  cases i with
  | send s msg => exact hs.send hc hw hsep
  | deliver s f => exact hs.deliver hc hw hsep

/-- After `n` steps no side has sent more than `n` messages. -/
def Counted (n : Nat) (net : Net) : Prop :=
  net.Coherent ∧ ∀ s, (net.side s).sent.length ≤ n

theorem Counted.step {n : Nat} (h : net.Counted n) (i : Input) : (net.step i).Counted (n + 1) := by
  refine ⟨h.1.step i, ?_⟩
  cases i with
  | send s msg =>
    refine (forall_side s).mpr ⟨?_, ?_⟩
    · simpa [Net.step, Endpoint.sendMsg] using h.2 s
    · simpa [Net.step] using Nat.le_succ_of_le (h.2 s.other)
  | deliver s f =>
    by_cases hsend : net.canSend f = true
    · refine (forall_side s).mpr ⟨?_, ?_⟩
      · simpa [Net.step, hsend, Endpoint.receive_sent_wire] using Nat.le_succ_of_le (h.2 s)
      · simpa [Net.step, hsend] using Nat.le_succ_of_le (h.2 s.other)
    · simpa [Net.step, hsend] using fun s => Nat.le_succ_of_le (h.2 s)

theorem Counted.sound_step_iff {n : Nat} (hn : n < 2 ^ 64 - 1)
    (h : net.Counted n) (hs : net.Sound) (i : Input) : (net.step i).Sound ↔ net.Separated i := by
  have hfree : ∀ s, (net.side s).sent.length + 1 < 2 ^ 64 := fun s => by
    have := h.2 s
    omega
  have hw : net.Unwrapped := fun s => Nat.lt_of_succ_lt (hfree s)
  exact ⟨separated_of_sound h.1 hfree, fun hsep => (Good.step ⟨h.1, hw, hs⟩ hsep).2.2⟩

end Net

open Run in
/-- **When a session is sound.**  In every run whose steps keep the two directions
apart, what each side accepts before its first error is at every moment a prefix
of what the other side sent, and no nonce seals two different messages.  In runs
of fewer than 2^64 steps nothing less will do. -/
theorem session_sound (key : Key) (is : List Net.Input) :
    (Along Net.step Net.Separated (Net.session key) is →
      Always Net.step Net.Sound (Net.session key) is) ∧
    (is.length < 2 ^ 64 → Always Net.step Net.Sound (Net.session key) is →
      Along Net.step Net.Separated (Net.session key) is) := by
  have hinit := Net.good_session key
  constructor
  · intro halong
    have hgood : Always Net.step Net.Good (Net.session key) is :=
      always_of_along (fun _ _ h hsep => Net.Good.step h hsep) hinit halong
    exact fun pre hpre => (hgood pre hpre).2.2
  · intro hlen
    have hcounted : (Net.session key).Counted 0 :=
      ⟨hinit.1, by rintro (_ | _) <;> exact Nat.le_refl 0⟩
    have hstep : ∀ n net i, True → Net.Counted n net → Net.Counted (n + 1) (net.step i) :=
      fun _ _ i _ h => h.step i
    have hexact : ∀ n net i, n < 2 ^ 64 - 1 → True → Net.Counted n net → net.Sound →
        ((net.step i).Sound ↔ net.Separated i) :=
      fun _ _ i hn _ h hs => h.sound_step_iff hn hs i
    exact (always_iff_along hstep hexact (by omega) hcounted hinit.2.2
      (along_of_forall (fun _ _ => trivial) _ is)).mp

def zeroKey : Key := ⟨List.replicate 32 0, by decide⟩

/-- Both sides send, and each delivery is the other side's next frame. -/
theorem session_sound_exchange :
    Run.Always Net.step Net.Sound (Net.session zeroKey)
      [.send .a [1], .deliver .b (.box zeroKey (getNonce 1) [1]), .send .b [1],
        .deliver .a (.box zeroKey (getNonce 1) [1])] :=
  (session_sound zeroKey _).1 (by decide)

/-- **Reflection.**  The first frame of an endpoint, sent back to it, is accepted
although the other side has sent nothing. -/
theorem session_reflection :
    ¬ Run.Always Net.step Net.Sound (Net.session zeroKey)
      [.send .a [1], .deliver .a (.box zeroKey (getNonce 1) [1])] := by
  intro h
  have haccepted := h.last.1 .a
  revert haccepted
  decide

end RustDesk
