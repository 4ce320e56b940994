import RustDesk.Tunnel.Ends

/-!
# What a tunnel carries

Every byte the application writes is on its way to the target in one place: written to the
target, on the wire behind the frames, in the buffer of the client, or unread (`Ordered.up`).
Nothing else gets to the target as long as the server turns raw only when the client has nothing
more to say (`Safe`).  After a message the code sees to that itself, except for what is on the
way behind it; after a click it does not.
-/

namespace RustDesk

namespace Tunnel

/-- What one end got is the front of what the other wrote, and nothing framed is among it. -/
structure Carried (wrote got : Bytes) (writer reader : Stream) : Prop where
  isPrefix : got <+: wrote
  framed : reader.framedIn ≤ writer.framedOut

/-- **A tunnel carries exactly the bytes of the application and of the target.** -/
structure Carries (t : Tunnel) : Prop where
  toTarget : Carried t.app.wrote t.target.got t.client.stream t.server.stream
  toApp : Carried t.target.wrote t.app.got t.server.stream t.client.stream

/-- The client has answered the hash, and the server has read all its messages but `k`. -/
def Answered (t : Tunnel) (k : Nat) : Prop :=
  0 < t.client.stream.received ∧ t.client.stream.sent = t.server.stream.received + k

instance (t : Tunnel) (k : Nat) : Decidable (t.Answered k) :=
  inferInstanceAs (Decidable (_ ∧ _))

def peek (session : Session) (t : Tunnel) (n : Nat) : Option ClientMessage :=
  match (t.server.stream.next n t.toServer).1 with
  | .ok (some bytes) =>
    match session.fromClient.read t.server.stream.received bytes with
    | .message m => some m
    | _ => none
  | _ => none

def ClientMessage.asks : ClientMessage → Bool
  | .loginRequest _ | .auth2fa _ => true
  | _ => false

def ClientMessage.outOfScope : ClientMessage → Bool
  | .auth2fa _ | .switchSidesResponse _ | .other _ => true
  | _ => false

def ClientMessage.isTestDelay : ClientMessage → Bool
  | .testDelay _ _ => true
  | _ => false

/-- A message that the loop may handle now.  If the loop ends with it, it is the last one of the
client; and while a reply is waited for, nothing is sent. -/
def SafeMessage (t : Tunnel) (v : Verdict) (close : Bool) (m : ClientMessage) : Prop :=
  if t.server.authorized then
    (m.isTestDelay = true → t.Answered 1) ∧
      (m.outOfScope = true → close = true → t.client.phase = .ended)
  else m.asks = true → v.admits = true → t.server.lastTestDelay = false → t.Answered 1

instance (t : Tunnel) (v : Verdict) (close : Bool) (m : ClientMessage) :
    Decidable (t.SafeMessage v close m) :=
  inferInstanceAs (Decidable (ite _ _ _))

def SafeNotice (t : Tunnel) : Prop :=
  t.server.phase = .loop → t.server.authorized = true → t.client.phase = .ended

instance (t : Tunnel) : Decidable t.SafeNotice := inferInstanceAs (Decidable (_ → _ → _))

/-- The condition on a step.  A click that begins the tunnel comes when no delay test is out and
the client has nothing more to say; the user says nothing more after that. -/
def Safe (session : Session) (t : Tunnel) : Input → Prop
  | .authorize v =>
    t.server.phase = .loop → (v.admits = true ∨ t.server.authorized = true) →
      t.server.lastTestDelay = false ∧ t.Answered 0
  | .cmClose | .notice _ | .consoleClose => t.SafeNotice
  | .serverNext n v close =>
    t.server.phase = .loop → ∀ m ∈ t.peek session n, t.SafeMessage v close m
  | .ui m =>
    t.client.phase = .login → t.server.phase ≠ .forwarding ∧ m.isTestDelay = false
  | _ => True

instance (session : Session) (t : Tunnel) : ∀ i, Decidable (Safe session t i)
  | .authorize _ => inferInstanceAs (Decidable (_ → _ → _))
  | .cmClose | .notice _ | .consoleClose => inferInstanceAs (Decidable t.SafeNotice)
  | .serverNext _ _ _ => inferInstanceAs (Decidable (_ → _))
  | .ui _ => inferInstanceAs (Decidable (_ → _))
  | .timer _ _ | .cmErr _ | .serverForwards _ | .serverEnds | .targetWrites _ | .clientNext _ _
  | .clientForwards _ | .clientEnds | .appWrites _ => isTrue trivial

def ServerMessage.isHash : ServerMessage → Bool
  | .hash _ => true
  | _ => false

def ServerMessage.isPeerInfo : ServerMessage → Bool
  | .peerInfo _ => true
  | _ => false

def ServerMessage.isTest : ServerMessage → Bool
  | .testDelay fromClient _ => !fromClient
  | _ => false

def ClientMessage.isReply : ClientMessage → Bool
  | .testDelay fromClient _ => !fromClient
  | _ => false

def testsOut (asked : List ClientMessage) (told : List ServerMessage) : Nat :=
  told.countP ServerMessage.isTest + asked.countP ClientMessage.isReply

/-- Where the bytes are, and what the messages on the way can be: `asked` are those of the
client, `told` those of the server. -/
structure Core (session : Session) (t : Tunnel) (asked : List ClientMessage)
    (told : List ServerMessage) : Prop where
  carries : t.Carries
  up : t.server.phase ≠ .ended → ∃ raw,
    Flight session.fromClient t.client.stream t.server.stream t.toServer asked raw ∧
      t.app.wrote = t.target.got ++ (raw ++ (t.client.buffer ++ t.app.unread))
  down : t.client.phase ≠ .ended → ∃ raw,
    Flight session.fromServer t.server.stream t.client.stream t.toClient told raw ∧
      t.target.wrote = t.app.got ++ (raw ++ t.target.unread)
  serverLoop : t.server.phase = .loop → t.server.stream.codec.raw = false
  serverRaw : t.server.phase = .forwarding → t.server.stream.codec.raw = true
  serverTurned : t.server.stream.codec.raw = true → t.server.authorized = true
  clientLogin : t.client.phase = .login → t.client.stream.codec.raw = false
  clientRaw : t.client.phase = .forwarding → t.client.stream.codec.raw = true ∧ t.client.buffer = []
  clientTurned : t.client.stream.codec.raw = true → t.server.authorized = true ∧
    told.countP ServerMessage.isTest = 0 ∧ (t.client.phase ≠ .ended → told = [])
  outside : t.server.authorized = false → ∀ m ∈ told, m.isPeerInfo = false
  hash : (∀ m ∈ told.tail, m.isHash = false) ∧
    (0 < t.client.stream.received → ∀ m ∈ told, m.isHash = false)
  replies : ∀ m ∈ asked, m.isTestDelay = true → m.isReply = true

structure Waits (t : Tunnel) (asked : List ClientMessage) (told : List ServerMessage) : Prop where
  socket : t.server.portForwardSocket = t.server.authorized
  waiting : t.server.authorized = true → t.server.lastTestDelay = true
  delay : testsOut asked told = if t.server.lastTestDelay then 1 else 0

/-- **What holds between the steps.**  The peer info is the last message; the loop waits; and
once the server forwards, it has asked the client nothing more. -/
structure Ordered (session : Session) (t : Tunnel) (asked : List ClientMessage)
    (told : List ServerMessage) : Prop extends Core session t asked told where
  entered : t.server.authorized = true → t.client.phase = .login →
    ∃ before info, told = before ++ [.peerInfo info] ∧ ∀ m ∈ before, m.isPeerInfo = false
  waits : t.server.phase = .loop → t.Waits asked told
  forwards : t.server.phase = .forwarding → ∀ m ∈ told, m.isHash = false ∧ m.isTest = false

def Good (session : Session) (t : Tunnel) : Prop :=
  t.Carries ∧ (t.streamFailed = false → ∃ asked told, Ordered session t asked told)

structure Kept (st st' : Stream) : Prop where
  codec : st'.codec = st.codec
  buffer : st'.buffer = st.buffer
  received : st'.received = st.received
  framedIn : st'.framedIn = st.framedIn
  framedOut : st.framedOut ≤ st'.framedOut

theorem Kept.refl (st : Stream) : Kept st st := ⟨rfl, rfl, rfl, rfl, Nat.le_refl _⟩

theorem Kept.trans {a b c : Stream} (h : Kept a b) (h' : Kept b c) : Kept a c :=
  ⟨h'.codec.trans h.codec, h'.buffer.trans h.buffer, h'.received.trans h.received,
    h'.framedIn.trans h.framedIn, Nat.le_trans h.framedOut h'.framedOut⟩

theorem send_kept {μ : Type} {coding : Coding μ} {st st' : Stream} {m : μ} {wire wire' : Bytes}
    (h : st.send coding m wire = some (st', wire')) : Kept st st' := by
  unfold Stream.send at h
  split at h
  · cases h
    exact ⟨rfl, rfl, rfl, rfl, Nat.le_add_right _ _⟩
  · cases h

theorem Flight.reader_kept {μ : Type} {coding : Coding μ} {writer reader reader' : Stream}
    {wire : Bytes} {ms : List μ} {raw : Bytes} (h : Flight coding writer reader wire ms raw)
    (hkept : Kept reader reader') : Flight coding writer reader' wire ms raw :=
  h.congr rfl rfl rfl hkept.codec hkept.buffer hkept.received hkept.framedIn

theorem tell_cases (session : Session) (t : Tunnel) (ms : List ServerMessage) :
    ∃ stream wire failed, t.tell session ms = { t with
        server := { t.server with stream := stream }
        toClient := wire
        streamFailed := failed } ∧
      Kept t.server.stream stream ∧
      (failed = false → t.streamFailed = false ∧
        (ms = [] → stream = t.server.stream ∧ wire = t.toClient) ∧
        ∀ reader told raw, t.server.stream.codec.raw = false → reader.codec.raw = false →
          Flight session.fromServer t.server.stream reader t.toClient told raw →
          Flight session.fromServer stream reader wire (told ++ ms) raw) := by
  induction ms generalizing t with
  | nil =>
    refine ⟨t.server.stream, t.toClient, t.streamFailed, rfl, .refl _, fun hok => ⟨hok, ?_, ?_⟩⟩
    · exact fun _ => ⟨rfl, rfl⟩
    · intro reader told raw _ _ h
      rw [List.append_nil]
      exact h
  | cons m ms ih =>
    unfold tell
    cases hsend : t.server.stream.send session.fromServer m t.toClient with
    | none =>
      exact ⟨t.server.stream, t.toClient, true, rfl, .refl _, nofun⟩
    | some sent =>
      obtain ⟨stream, wire⟩ := sent
      have hkept : Kept t.server.stream stream := send_kept hsend
      obtain ⟨stream', wire', failed, heq, hkept', hok⟩ := ih
        { t with server := { t.server with stream := stream }, toClient := wire }
      refine ⟨stream', wire', failed, heq, hkept.trans hkept', fun hfailed => ?_⟩
      obtain ⟨hbefore, -, hflight⟩ := hok hfailed
      refine ⟨hbefore, nofun, fun reader told raw hwriter hreader h => ?_⟩
      obtain ⟨hone, hcodec, rfl⟩ := h.send hwriter hreader hsend
      have hrest := hflight reader _ _ ((congrArg _ hcodec).trans hwriter) hreader hone
      rwa [List.append_assoc] at hrest

end Tunnel
end RustDesk
