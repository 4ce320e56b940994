import RustDesk.Transport.Encrypt
import RustDesk.Server.Config

/-!
# Transports that are keyed

A session runs over TCP (`FramedStream`) or over WebSocket (`WsFramedStream`).  Once
`set_key` was called, what `next` returns should be what the peer has sealed, whatever an
adversary delivers.

Both decrypt with `Encrypt::dec`; but `WsFramedStream::next` returns a text message before it
comes to that, and `dec` opens a frame of this side as well as one of the peer, as both
directions count from zero under one key.
-/

namespace RustDesk

inductive WsMessage where
  | binary (data : Frame)
  | text (content : String)
  | ping
  | pong
  | close

/-- `WsFramedStream` as far as encryption goes. -/
structure WsFramedStream where
  encrypt : Option Encrypt

namespace WsFramedStream

def setKey (_ : WsFramedStream) (key : Key) : WsFramedStream := ⟨some (Encrypt.new key)⟩

def setRaw (_ : WsFramedStream) : WsFramedStream := ⟨none⟩

/-- `WsFramedStream::send_raw`: the message handed to the web socket. -/
def sendRaw (ws : WsFramedStream) (msg : Bytes) : WsMessage × WsFramedStream :=
  match ws.encrypt with
  | some key =>
    let (frame, key) := key.enc msg
    (.binary frame, ⟨some key⟩)
  | none => (.binary (.plain msg), ws)

def decrypted (key : Encrypt) (data : Frame) : Option (Except IoError Frame) × WsFramedStream :=
  match key.dec data with
  | (.error err, key) => (some (.error err), ⟨some key⟩)
  | (.ok bytes, key) => (some (.ok bytes), ⟨some key⟩)

/-- `WsFramedStream::next` on what the web socket delivers, until it ends. -/
def next (ws : WsFramedStream) :
    List (Except String WsMessage) → Option (Except IoError Frame) × WsFramedStream
  | [] => (none, ws)
  | .error e :: _ => (some (.error ⟨.other, "WebSocket protocol error: " ++ e⟩), ws)
  | .ok (.binary data) :: _ =>
    match ws.encrypt with
    | some key => decrypted key data
    | none => (some (.ok data), ws)
  | .ok (.text text) :: _ => (some (.ok (.plain (asBytes text))), ws)
  | .ok .close :: _ => (none, ws)
  | .ok .ping :: rest => ws.next rest
  | .ok .pong :: rest => ws.next rest

end WsFramedStream

namespace FramedStream

def setRaw (_ : FramedStream) : FramedStream := ⟨none⟩

/-- `FramedStream::next` on what the codec delivers: a frame, an error, or the end. -/
def nextItem (st : FramedStream) :
    Option (Except IoError Frame) → Option (Except IoError Frame) × FramedStream
  | some (.ok bytes) =>
    let (res, st) := st.next bytes
    (some res, st)
  | res => (res, st)

end FramedStream

/-- `Stream`, without WebRTC. -/
inductive TransportStream where
  | webSocket (ws : WsFramedStream)
  | tcp (st : FramedStream)

namespace TransportStream

def encrypt : TransportStream → Option Encrypt
  | .webSocket ws => ws.encrypt
  | .tcp st => st.encrypt

def setKey (key : Key) : TransportStream → TransportStream
  | .webSocket ws => .webSocket (ws.setKey key)
  | .tcp st => .tcp (st.setKey key)

def setRaw : TransportStream → TransportStream
  | .webSocket ws => .webSocket ws.setRaw
  | .tcp st => .tcp st.setRaw

/-- `Stream::send_raw`: the frame that goes out. -/
def sendRaw (msg : Bytes) : TransportStream → Frame × TransportStream
  | .webSocket ws =>
    match ws.sendRaw msg with
    | (.binary frame, ws) => (frame, .webSocket ws)
    | (_, ws) => (.plain msg, .webSocket ws)
  | .tcp st =>
    let (frame, st) := st.sendRaw msg
    (frame, .tcp st)

end TransportStream

structure KeyedLink where
  stream : TransportStream
  own : List Frame
  peer : List Frame

/-- What happens.  The peer may seal anything, under any counter; what the transport delivers
is up to the adversary. -/
inductive TransportInput where
  | setKey (key : Key)
  | setRaw
  | sendRaw (msg : Bytes)
  | peerSeals (key : Key) (nonce msg : Bytes)
  | nextTcp (item : Option (Except IoError Frame))
  | nextWs (items : List (Except String WsMessage))

namespace TransportInput

def frames : TransportInput → List Frame
  | .nextTcp (some (.ok frame)) => [frame]
  | .nextWs items =>
    items.filterMap fun item =>
      match item with
      | .ok (.binary frame) => some frame
      | _ => none
  | _ => []

end TransportInput

namespace KeyedLink

def Deliverable (s : KeyedLink) (input : TransportInput) : Prop :=
  ∀ e ∈ s.stream.encrypt, ∀ frame ∈ input.frames,
    frame.sealedUnder e.key = true → frame ∈ s.own ∨ frame ∈ s.peer

instance (s : KeyedLink) (input : TransportInput) : Decidable (s.Deliverable input) :=
  inferInstanceAs (Decidable (∀ e ∈ s.stream.encrypt, ∀ frame ∈ input.frames, _ → _))

/-- `Stream::next`, of what is delivered: the result, and the stream after it. -/
def next (s : KeyedLink) (input : TransportInput) :
    Option (Except IoError Frame) × TransportStream :=
  if s.Deliverable input then
    match s.stream, input with
    | .tcp st, .nextTcp item => ((st.nextItem item).1, .tcp (st.nextItem item).2)
    | .webSocket ws, .nextWs items => ((ws.next items).1, .webSocket (ws.next items).2)
    | stream, _ => (none, stream)
  else (none, s.stream)

def step (s : KeyedLink) : TransportInput → KeyedLink
  | .setKey key => { s with stream := s.stream.setKey key }
  | .setRaw => { s with stream := s.stream.setRaw }
  | .sendRaw msg =>
    let (frame, stream) := s.stream.sendRaw msg
    { s with stream := stream, own := frame :: s.own }
  | .peerSeals key nonce msg => { s with peer := Frame.sealBox msg nonce key :: s.peer }
  | input => { s with stream := (s.next input).2 }

/-- The frame that the peer has to have sealed for a message: under the key, with the next
value of the receive counter. -/
def expected (e : Encrypt) (msg : Bytes) : Frame := .box e.key (getNonce (e.decSeq + 1)) msg

/-- The message that `WsFramedStream::next` gets to: the first that is no ping and no pong. -/
def reached (items : List (Except String WsMessage)) : Option (Except String WsMessage) :=
  items.find? fun item =>
    match item with
    | .ok .ping | .ok .pong => false
    | _ => true

/-- The frame that `next` gets to. -/
def reachedFrame (s : KeyedLink) (input : TransportInput) : Option Frame :=
  match s.stream, input with
  | .tcp _, .nextTcp (some (.ok frame)) => some frame
  | .webSocket _, .nextWs items =>
    match reached items with
    | some (.ok (.binary frame)) => some frame
    | _ => none
  | _, _ => none

/-- **What a keyed transport returns is authentic**: a message of more than one byte is the
decryption of the frame that was got to, which the peer has sealed under the key, with the
next value of the receive counter. -/
def Authentic (key : Key) (s : KeyedLink) (input : TransportInput) : Prop :=
  ∀ msg, (s.next input).1 = some (.ok msg) → 1 < msg.length →
    ∃ e content, s.stream.encrypt = some e ∧ e.key = key ∧ msg = .plain content ∧
      s.reachedFrame input = some (expected e content) ∧ expected e content ∈ s.peer

/-- No text of more than one byte comes. -/
def NoText (s : KeyedLink) (input : TransportInput) : Prop :=
  match s.stream, input with
  | .webSocket _, .nextWs items =>
    ∀ text, reached items = some (.ok (.text text)) → (asBytes text).length ≤ 1
  | _, _ => True

/-- A frame that would open is not one that this side sent itself. -/
def NotReflected (s : KeyedLink) (input : TransportInput) : Prop :=
  ∀ e content, s.stream.encrypt = some e → s.reachedFrame input = some (expected e content) →
    1 < content.length → expected e content ∈ s.own → expected e content ∈ s.peer

/-- **A guarded delivery**: no text, and no frame of this side. -/
def Guarded (s : KeyedLink) (input : TransportInput) : Prop :=
  s.Deliverable input → s.NoText input ∧ s.NotReflected input

variable {e : Encrypt}

theorem dec_ok {frame msg : Frame} (h : (e.dec frame).1 = .ok msg) :
    frame.length ≤ 1 ∧ msg = frame ∨ ∃ content, msg = .plain content ∧
      frame = expected e content := by
  unfold Encrypt.dec at h
  split_ifs at h with hshort
  · exact .inl ⟨hshort, (Except.ok.inj h).symm⟩
  · dsimp only at h
    cases hopen : frame.openBox (getNonce (e.decSeq + 1)) e.key with
    | none => rw [hopen] at h; exact absurd h nofun
    | some content =>
      rw [hopen] at h
      exact .inr ⟨content, (Except.ok.inj h).symm, Frame.openBox_eq_some.mp hopen⟩

theorem dec_expected (e : Encrypt) (content : Bytes) :
    (e.dec (expected e content)).1 = .ok (.plain content) := by
  unfold Encrypt.dec expected
  rw [if_neg (by simp [Frame.length])]
  simp [Frame.openBox]

theorem tcp_next_fst {st : FramedStream} (h : st.encrypt = some e)
    (frame : Frame) : (st.nextItem (some (.ok frame))).1 = some (e.dec frame).1 := by
  simp only [FramedStream.nextItem, FramedStream.next, h]

theorem ws_next_reached (ws : WsFramedStream) (items : List (Except String WsMessage)) :
    ws.next items = match reached items with
      | some item => ws.next [item]
      | none => (none, ws) := by
  induction items with
  | nil => rfl
  | cons item items ih =>
    cases item with
    | error e => rfl
    | ok msg =>
      cases msg with
      | ping | pong => exact ih
      | _ => rfl

variable {ws : WsFramedStream}

theorem ws_next_binary (h : ws.encrypt = some e)
    (frame : Frame) : (ws.next [.ok (.binary frame)]).1 = some (e.dec frame).1 := by
  simp only [WsFramedStream.next, h, WsFramedStream.decrypted]
  split
  · rename_i err key hdec
    rw [hdec]
  · rename_i bytes key hdec
    rw [hdec]

variable {s : KeyedLink} {input : TransportInput} {frame : Frame}

theorem reachedFrame_mem (h : s.reachedFrame input = some frame) : frame ∈ input.frames := by
  unfold reachedFrame at h
  split at h
  · cases h
    exact List.mem_singleton.mpr rfl
  · split at h
    · rename_i items _ frame' hreached
      cases h
      exact List.mem_filterMap.mpr ⟨_, List.mem_of_find?_eq_some hreached, rfl⟩
    · exact absurd h nofun
  · exact absurd h nofun

theorem next_of_reachedFrame (henc : s.stream.encrypt = some e) (hdeliver : s.Deliverable input)
    (h : s.reachedFrame input = some frame) : (s.next input).1 = some (e.dec frame).1 := by
  unfold next reachedFrame at *
  rw [if_pos hdeliver]
  cases hstream : s.stream with
  | tcp st =>
    rw [hstream] at h henc
    cases input with
    | nextTcp item =>
      cases item with
      | none => exact absurd h nofun
      | some item =>
        cases item with
        | error err => exact absurd h nofun
        | ok frame' =>
          obtain rfl := Option.some.inj h
          exact tcp_next_fst henc frame'
    | _ => exact absurd h nofun
  | webSocket ws =>
    rw [hstream] at h henc
    cases input with
    | nextWs items =>
      dsimp only at h ⊢
      split at h
      · rename_i frame' hreached
        obtain rfl := Option.some.inj h
        rw [ws_next_reached, hreached]
        exact ws_next_binary henc frame'
      · exact absurd h nofun
    | _ => exact absurd h nofun

theorem next_of_text (hstream : s.stream = .webSocket ws)
    {items : List (Except String WsMessage)} (hdeliver : s.Deliverable (.nextWs items))
    {text : String} (h : reached items = some (.ok (.text text))) :
    (s.next (.nextWs items)).1 = some (.ok (.plain (asBytes text))) := by
  unfold next
  rw [if_pos hdeliver, hstream]
  dsimp only
  rw [ws_next_reached, h]
  rfl

/-- **What a keyed `next` returns**: a decrypted frame, or a text. -/
theorem next_ok_cases (henc : s.stream.encrypt = some e) {msg : Frame}
    (h : (s.next input).1 = some (.ok msg)) :
    s.Deliverable input ∧
      ((∃ frame, s.reachedFrame input = some frame ∧ (e.dec frame).1 = .ok msg) ∨
        ∃ ws items text, s.stream = .webSocket ws ∧ input = .nextWs items ∧
          reached items = some (.ok (.text text)) ∧ msg = .plain (asBytes text)) := by
  have hdeliver : s.Deliverable input := by
    by_contra hnot
    unfold next at h
    rw [if_neg hnot] at h
    exact absurd h nofun
  refine ⟨hdeliver, ?_⟩
  cases hframe : s.reachedFrame input with
  | some frame =>
    rw [next_of_reachedFrame henc hdeliver hframe] at h
    exact .inl ⟨frame, rfl, Option.some.inj h⟩
  | none =>
    right
    unfold next reachedFrame at *
    rw [if_pos hdeliver] at h
    cases hstream : s.stream with
    | tcp st =>
      rw [hstream] at h hframe
      cases input with
      | nextTcp item =>
        cases item with
        | none => exact absurd h nofun
        | some item =>
          cases item with
          | error err => exact absurd (Option.some.inj h) nofun
          | ok frame => exact absurd hframe nofun
      | _ => exact absurd h nofun
    | webSocket ws =>
      rw [hstream] at h hframe
      cases input with
      | nextWs items =>
        dsimp only at h hframe
        rw [ws_next_reached] at h
        cases hreached : reached items with
        | none =>
          rw [hreached] at h
          exact absurd h nofun
        | some item =>
          rw [hreached] at h hframe
          cases item with
          | error err => exact absurd (Option.some.inj h) nofun
          | ok item =>
            cases item with
            | binary frame => exact absurd hframe nofun
            | text text =>
              have hmsg := Except.ok.inj (Option.some.inj h)
              exact ⟨ws, items, text, rfl, rfl, hreached, hmsg.symm⟩
            | _ => exact absurd h nofun
      | _ => exact absurd h nofun

theorem authentic_iff_guarded (henc : s.stream.encrypt = some e)
    (input : TransportInput) : Authentic e.key s input ↔ s.Guarded input := by
  constructor
  · intro hauthentic hdeliver
    constructor
    · unfold NoText
      split
      · rename_i _ _ ws items hstream
        intro text hreached
        by_contra hlong
        obtain ⟨_, _, _, _, _, hframe, _⟩ :=
          hauthentic _ (next_of_text hstream hdeliver hreached) (not_le.mp hlong)
        simp [reachedFrame, hstream, hreached] at hframe
      · trivial
    · intro e' content henc' hframe hlong _
      obtain rfl : e = e' := Option.some.inj (henc.symm.trans henc')
      have hnext := next_of_reachedFrame henc hdeliver hframe
      rw [dec_expected] at hnext
      obtain ⟨e', content', henc'', -, hcontent, -, hpeer⟩ := hauthentic _ hnext hlong
      obtain rfl : e = e' := Option.some.inj (henc.symm.trans henc'')
      obtain rfl : content = content' := Frame.plain.inj hcontent
      exact hpeer
  · intro hguarded msg hnext hlong
    obtain ⟨hdeliver, ⟨frame, hframe, hdec⟩ | ⟨ws, items, text, hstream, rfl, hreached, rfl⟩⟩ :=
      next_ok_cases henc hnext
    · obtain ⟨hnotext, hnotreflected⟩ := hguarded hdeliver
      rcases dec_ok hdec with ⟨hshort, rfl⟩ | ⟨content, rfl, rfl⟩
      · exact absurd hshort (not_le.mpr hlong)
      · refine ⟨e, content, henc, rfl, rfl, hframe, ?_⟩
        have hsealed : (expected e content).sealedUnder e.key = true := beq_self_eq_true _
        rcases hdeliver e henc _ (reachedFrame_mem hframe) hsealed with hown | hpeer
        · exact hnotreflected e content henc hframe hlong hown
        · exact hpeer
    · obtain ⟨hnotext, -⟩ := hguarded hdeliver
      unfold NoText at hnotext
      rw [hstream] at hnotext
      exact absurd (hnotext text hreached) (not_le.mpr hlong)

def KeyedWith (key : Key) (s : KeyedLink) : Prop :=
  ∃ e, s.stream.encrypt = some e ∧ e.key = key

/-- `set_key` and `set_raw`. -/
def Rekeys : TransportInput → Prop
  | .setKey _ | .setRaw => True
  | _ => False

theorem keyedWith_setKey (s : KeyedLink) (key : Key) : (s.step (.setKey key)).KeyedWith key := by
  refine ⟨Encrypt.new key, ?_, rfl⟩
  simp only [step, TransportStream.setKey]
  cases s.stream with
  | _ => rfl

theorem dec_key (e : Encrypt) (frame : Frame) : (e.dec frame).2.key = e.key := by
  unfold Encrypt.dec
  split_ifs
  · rfl
  · dsimp only
    split <;> rfl

theorem tcp_nextItem_keyed {st : FramedStream} (h : st.encrypt = some e)
    (item : Option (Except IoError Frame)) :
    ∃ e', (st.nextItem item).2.encrypt = some e' ∧ e'.key = e.key := by
  cases item with
  | none => exact ⟨e, h, rfl⟩
  | some item =>
    cases item with
    | error err => exact ⟨e, h, rfl⟩
    | ok frame =>
      refine ⟨(e.dec frame).2, ?_, dec_key e frame⟩
      simp only [FramedStream.nextItem, FramedStream.next, h]

theorem ws_next_keyed (h : ws.encrypt = some e) (items : List (Except String WsMessage)) :
    ∃ e', (ws.next items).2.encrypt = some e' ∧ e'.key = e.key := by
  induction items with
  | nil => exact ⟨e, h, rfl⟩
  | cons item items ih =>
    cases item with
    | error err => exact ⟨e, h, rfl⟩
    | ok msg =>
      cases msg with
      | binary frame =>
        refine ⟨(e.dec frame).2, ?_, dec_key e frame⟩
        simp only [WsFramedStream.next, h, WsFramedStream.decrypted]
        split
        · rename_i err key hdec
          rw [hdec]
        · rename_i bytes key hdec
          rw [hdec]
      | ping | pong => exact ih
      | _ => exact ⟨e, h, rfl⟩

theorem KeyedWith.next {key : Key} (h : s.KeyedWith key)
    (input : TransportInput) : ∃ e, (s.next input).2.encrypt = some e ∧ e.key = key := by
  obtain ⟨e, henc, rfl⟩ := h
  unfold KeyedLink.next
  by_cases hdeliver : s.Deliverable input
  · rw [if_pos hdeliver]
    clear hdeliver
    split
    · rename_i _ _ st item hstream
      rw [hstream] at henc
      exact tcp_nextItem_keyed henc item
    · rename_i _ _ ws items hstream
      rw [hstream] at henc
      exact ws_next_keyed henc items
    · exact ⟨e, henc, rfl⟩
  · rw [if_neg hdeliver]
    exact ⟨e, henc, rfl⟩

theorem KeyedWith.sendRaw {key : Key} (h : s.KeyedWith key) (msg : Bytes) :
    ∃ e, (s.stream.sendRaw msg).2.encrypt = some e ∧ e.key = key := by
  obtain ⟨e, henc, rfl⟩ := h
  refine ⟨(e.enc msg).2, ?_, rfl⟩
  cases hstream : s.stream with
  | tcp st =>
    rw [hstream] at henc
    simp only [TransportStream.sendRaw, FramedStream.sendRaw, TransportStream.encrypt] at henc ⊢
    simp only [henc]
  | webSocket ws =>
    rw [hstream] at henc
    simp only [TransportStream.sendRaw, WsFramedStream.sendRaw, TransportStream.encrypt] at henc ⊢
    simp only [henc]

/-- **A stream stays keyed** until `set_key` or `set_raw`. -/
theorem KeyedWith.step {key : Key} (h : s.KeyedWith key) (hrekeys : ¬Rekeys input) :
    (s.step input).KeyedWith key := by
  cases input with
  | setKey key => exact absurd trivial hrekeys
  | setRaw => exact absurd trivial hrekeys
  | sendRaw msg => exact h.sendRaw msg
  | peerSeals key' nonce msg => exact h
  | nextTcp item => exact h.next (.nextTcp item)
  | nextWs items => exact h.next (.nextWs items)

open Run in
/-- **Every transport authenticates once keyed**, in runs without another `set_key` or
`set_raw`, exactly if every delivery is guarded. -/
theorem keyed_next_authentic_iff (s : KeyedLink) (key : Key) (inputs : List TransportInput)
    (hinputs : ∀ input ∈ inputs, ¬Rekeys input) :
    Along step (Authentic key) (s.step (.setKey key)) inputs ↔
      Along step Guarded (s.step (.setKey key)) inputs := by
  have hrun : ∀ s : KeyedLink, s.KeyedWith key →
      (Along step (Authentic key) s inputs ↔ Along step Guarded s inputs) := by
    induction inputs with
    | nil => exact fun _ _ => Iff.rfl
    | cons input inputs ih =>
      intro s hkeyed
      obtain ⟨e, henc, rfl⟩ := hkeyed
      have hnext : (s.step input).KeyedWith e.key :=
        KeyedWith.step ⟨e, henc, rfl⟩ (hinputs input List.mem_cons_self)
      exact and_congr (authentic_iff_guarded henc input)
        (ih (fun other hother => hinputs other (List.mem_cons_of_mem _ hother)) _ hnext)
  exact hrun _ (keyedWith_setKey s key)

def unkeyed (stream : TransportStream) : KeyedLink := ⟨stream, [], []⟩

theorem guarded_of_unreached
    (hframe : s.reachedFrame input = none) (htext : s.NoText input) : s.Guarded input := by
  refine fun _ => ⟨htext, fun e content _ hreached => ?_⟩
  rw [hframe] at hreached
  exact absurd hreached nofun

theorem guarded_of_peer (hframe : s.reachedFrame input = some frame) (hpeer : frame ∈ s.peer)
    (htext : s.NoText input) : s.Guarded input := by
  refine fun _ => ⟨htext, fun e content _ hreached _ _ => ?_⟩
  obtain rfl := Option.some.inj (hframe.symm.trans hreached)
  exact hpeer

def firstFrame : List TransportInput :=
  [.peerSeals zeroKey (getNonce 1) [1, 2], .sendRaw [3, 4],
    .nextWs [.ok .ping, .ok (.binary (.box zeroKey (getNonce 1) [1, 2]))]]

open Run in
/-- The peer's first frame is authentic. -/
theorem first_frame_authentic :
    Along step (Authentic zeroKey) ((unkeyed (.webSocket ⟨none⟩)).step (.setKey zeroKey))
      firstFrame := by
  refine (keyed_next_authentic_iff (unkeyed (.webSocket ⟨none⟩)) zeroKey firstFrame ?_).mpr
    ⟨guarded_of_unreached rfl trivial, guarded_of_unreached rfl trivial, ?_, trivial⟩
  · simp [firstFrame, Rekeys]
  · exact guarded_of_peer rfl List.mem_cons_self nofun

/-- **A text is returned as it came**, over a web socket with a key; and over TCP a frame of
this side is accepted as one of the peer. -/
theorem unsealed_messages_accepted :
    ¬Run.Along step (Authentic zeroKey) ((unkeyed (.webSocket ⟨none⟩)).step (.setKey zeroKey))
        [.nextWs [.ok (.text "hi")]] ∧
      ¬Run.Along step (Authentic zeroKey) ((unkeyed (.tcp ⟨none⟩)).step (.setKey zeroKey))
        [.sendRaw [3, 4], .nextTcp (some (.ok (.box zeroKey (getNonce 1) [3, 4])))] := by
  constructor
  · rintro ⟨h, -⟩
    obtain ⟨_, _, _, _, _, hframe, _⟩ :=
      h (.plain (asBytes "hi")) (by decide +kernel) (by decide +kernel)
    exact absurd hframe nofun
  · rintro ⟨-, h, -⟩
    obtain ⟨_, _, _, _, _, _, hpeer⟩ := h (.plain [3, 4]) (by decide +kernel) (by decide)
    cases hpeer

end KeyedLink
end RustDesk
