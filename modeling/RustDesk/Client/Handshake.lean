import RustDesk.Basic
import RustDesk.Lib.Run
import RustDesk.Lib.SymbolicCrypto

/-!
# The handshake with the peer

A client that connects to a peer first checks the peer's key as the rendezvous server has
signed it, then the peer's fresh box key as the peer has signed it, and answers with a
session key in a box.  Every way this can fail leaves a stream without a key, on which the
client asks its user before it goes on.  The server goes on without a key too unless the
reply is malformed.

Any number of client and server runs share a network that belongs to the adversary: it sees
every frame and delivers, to whomever it likes, any frame it can make.  Signatures and boxes
are ideal and keys fresh: the keys of a run are named by its number.
-/

namespace RustDesk.Handshake

open SymbolicCrypto

/-- Whose key it is: the rendezvous server's, the signing key of a peer, the keys of a run,
or one of the adversary's. -/
inductive KeyName where
  | rendezvous
  | peer (id : String)
  | server (run : Nat)
  | client (run : Nat)
  | adversary (n : Nat)
  deriving DecidableEq

/-- The records of the protocol; an `IdPk` has its id in the tag. -/
inductive Tag where
  | idPk (id : String)
  | signedId
  | publicKey
  | peerInfo
  | closeReason
  | other
  deriving DecidableEq

/-- What may stand in a frame. -/
abbrev Wire := Term KeyName Tag

def idPk (id : String) (pk : Wire) : Wire := .node (.idPk id) pk (.raw [])

/-- A message with a `SignedId`. -/
def signedId (id : Wire) : Wire := .node .signedId id (.raw [])

/-- A message with a `PublicKey`. -/
def publicKey (asymmetricValue symmetricValue : Wire) : Wire :=
  .node .publicKey asymmetricValue symmetricValue

/-- `Message::new()`, which is written as no bytes. -/
def emptyMessage : Wire := .raw []

def message (tag : Tag) (content : Bytes) : Wire := .node tag (.raw content) (.raw [])

def certificate (id : String) : Wire := .signed .rendezvous (idPk id (.verifyKey (.peer id)))

def fieldLen (n : Nat) : Nat := 1 + (n.log2 / 7 + 1) + n

def optionalLen (n : Nat) : Nat := if n = 0 then 0 else fieldLen n

def len : Wire → Nat
  | .raw bytes => bytes.length
  | .verifyKey _ | .boxPk _ | .boxSk _ | .key _ => 32
  | .signKey _ => 64
  | .node (.idPk id) pk _ => optionalLen id.utf8ByteSize + optionalLen (len pk)
  | .node .signedId id _ => fieldLen (optionalLen (len id))
  | .node .publicKey a s => fieldLen (optionalLen (len a) + optionalLen (len s))
  | .node .peerInfo content _ | .node .closeReason content _ | .node .other content _ =>
    fieldLen (len content)
  | .signed _ content => 64 + len content
  | .boxed _ _ content => 16 + len content
  | .secretBox _ _ content => 16 + len content

/-- What `Message::parse_from_bytes` finds. -/
inductive Parsed where
  | empty
  | signedId (id : Wire)
  | publicKey (asymmetricValue symmetricValue : Wire)
  | peerInfo
  | other
  deriving DecidableEq

/-- `Message::parse_from_bytes`. -/
def parseMessage : Wire → Option Parsed
  | .raw [] => some .empty
  | .node .signedId id _ => some (.signedId id)
  | .node .publicKey a s => some (.publicKey a s)
  | .node .peerInfo _ _ => some .peerInfo
  | .node .closeReason _ _ | .node .other _ _ => some .other
  | _ => none

def decodeIdPk (signed : Wire) (key : Wire) : Option (String × Wire) :=
  match signed with
  | .signed n (.node (.idPk id) pk _) =>
    if key = .verifyKey n ∧ len pk = 32 then some (id, pk) else none
  | _ => none

/-- `box_::open`, with the key pair of a run and the other's public key. -/
def openBox (theirPkB : Wire) (run : KeyName) (sealedKey : Wire) : Option Wire :=
  match sealedKey with
  | .boxed a b content =>
    if (a = theirPkB ∧ b = .boxPk run) ∨ (a = .boxPk run ∧ b = theirPkB) then some content
    else none
  | _ => none

/-- `Encrypt::decode`. -/
def decodeKey (symmetricValue asymmetricValue : Wire) (run : KeyName) : Option Wire :=
  match openBox asymmetricValue run symmetricValue with
  | some key => if len key = 32 then some key else none
  | none => none

/-- `tcp::Encrypt`: the key with the number of frames sent and received. -/
structure Encrypt where
  key : Wire
  sent : Nat
  received : Nat

/-- The part of `FramedStream` that `set_key` and `set_raw` write. -/
abbrev Stream := Option Encrypt

namespace Stream

def setKey (key : Wire) : Stream := some ⟨key, 0, 0⟩

def isSecured (st : Stream) : Bool := st.isSome

def send (st : Stream) (m : Wire) : Stream × Wire :=
  match st with
  | none => (none, m)
  | some e => (some { e with sent := e.sent + 1 }, .secretBox e.key (e.sent + 1) m)

def next (st : Stream) (frame : Wire) : Stream × Option Wire :=
  match st with
  | none => (none, some frame)
  | some e =>
    if len frame ≤ 1 then (some e, some frame)
    else
      let e' := { e with received := e.received + 1 }
      match frame with
      | .secretBox k nonce content =>
        if k = e.key ∧ nonce = e'.received then (some e', some content)
        else (some e', none)
      | _ => (some e', none)

end Stream

/-- What the connection is for: `Remote::io_loop` or a port forward. -/
inductive ClientMode where
  | remote
  | portForward
  deriving DecidableEq

/-- Where the client is: in `secure_connection` with the peer's signing key, in
`confirm_insecure_connection`, in its message loop, in `run_forward`, or at the end. -/
inductive ClientStage where
  | waitSignedId (signPk : Wire)
  | confirm
  | active
  | raw
  | ended
  deriving DecidableEq

/-- What a client sends: the reply of the handshake, the close reason of a refused
connection, a message of its loop, or the bytes of a port forward. -/
inductive Sent where
  | reply
  | closeReason
  | message
  | tunnel
  deriving DecidableEq

inductive ClientAct where
  | sent (what : Sent) (secured : Bool) (frame : Wire)
  | handled (secured : Bool) (frame : Wire)
  | continueInsecure
  deriving DecidableEq

/-- A run of the client.  `theirPkB` is the box key of the `SignedId` it accepted and
`sessionKey` the key it went on with. -/
structure ClientRun where
  peerId : String
  directIp : Bool
  mode : ClientMode
  stage : ClientStage
  stream : Stream
  theirPkB : Option Wire
  sessionKey : Option Wire
  buffer : Bytes
  acts : List ClientAct

/-- The data that `confirm_insecure_connection` looks at. -/
inductive UiData where
  | continueInsecureConnection
  | rejectInsecureConnection
  | close
  | other
  deriving DecidableEq

namespace ClientRun

def act (c : ClientRun) (a : ClientAct) : ClientRun := { c with acts := c.acts ++ [a] }

/-- The callers of `secure_connection`: ask the user where the stream has no key, unless the
peer was given by its address. -/
def goOn (c : ClientRun) : ClientRun :=
  { c with stage := if c.stream.isSecured || c.directIp then .active else .confirm }

def send (c : ClientRun) (what : Sent) (m : Wire) : ClientRun × List Wire :=
  let r := c.stream.send m
  ({ c with stream := r.1 }.act (.sent what c.stream.isSecured r.2), [r.2])

def reply (c : ClientRun) (m : Wire) : ClientRun × List Wire :=
  let r := c.send .reply m
  (r.1.goOn, r.2)

/-- `secure_connection` up to the first read: the peer's signing key as the rendezvous
server has signed it. -/
def start (peerId : String) (directIp : Bool) (mode : ClientMode) (signedIdPk : Wire)
    (hasRsPk : Bool) : ClientRun × List Wire :=
  let c : ClientRun := ⟨peerId, directIp, mode, .ended, none, none, none, [], []⟩
  match (if hasRsPk then decodeIdPk signedIdPk (.verifyKey .rendezvous) else none) with
  | some (id, pk) =>
    if id = peerId then ({ c with stage := .waitSignedId pk }, [])
    else c.reply emptyMessage
  | none => c.reply emptyMessage

/-- The reply with `create_symmetric_key_msg`, after which the stream has the key. -/
def replyWithKey (c : ClientRun) (n : Nat) (theirPkB : Wire) : ClientRun × List Wire :=
  let key : Wire := .key (.client n)
  let ourPkB : Wire := .boxPk (.client n)
  let r := c.send .reply (publicKey ourPkB (.boxed ourPkB theirPkB key))
  ({ r.1 with
      stream := Stream.setKey key
      theirPkB := some theirPkB
      sessionKey := some key }.goOn, r.2)

/-- `secure_connection` after the read, for run `n`. -/
def onSignedId (c : ClientRun) (n : Nat) (signPk : Wire) (frame : Wire) : ClientRun × List Wire :=
  match parseMessage frame with
  | some (.signedId si) =>
    match decodeIdPk si signPk with
    | some (id, theirPkB) =>
      if id = c.peerId then c.replyWithKey n theirPkB else c.reply emptyMessage
    -- fall back to non-secure connection in case pk mismatch
    | none => c.reply (publicKey (.raw []) (.raw []))
  | some _ => c.reply emptyMessage
  | none => c.reply emptyMessage

def sendBuffer (c : ClientRun) : ClientRun × List Wire :=
  if c.buffer = [] then (c, []) else c.send .tunnel (.raw c.buffer)

def onMessage (c : ClientRun) (frame : Wire) : ClientRun × List Wire :=
  match c.stream.next frame with
  | (_, none) => ({ c with stage := .ended }, [])
  | (st, some m) =>
    match parseMessage m, c.mode with
    | none, .remote => ({ c with stream := st }, [])
    | none, .portForward => ({ c with stage := .ended }, [])
    | some .peerInfo, .portForward =>
      let c := { c with stream := st }.act (.handled c.stream.isSecured frame)
      { c with stream := none, stage := .raw }.sendBuffer
    | some _, _ => ({ c with stream := st }.act (.handled c.stream.isSecured frame), [])

def receive (c : ClientRun) (n : Nat) (frame : Wire) : ClientRun × List Wire :=
  match c.stage with
  | .waitSignedId signPk => c.onSignedId n signPk frame
  | .active => c.onMessage frame
  | .confirm | .raw | .ended => (c, [])

/-- `confirm_insecure_connection`; a refused client says why it closes, a port forward
does not. -/
def confirm (c : ClientRun) (d : UiData) : ClientRun × List Wire :=
  match c.stage, d with
  | .confirm, .continueInsecureConnection =>
    ({ c with stage := .active }.act .continueInsecure, [])
  | .confirm, .rejectInsecureConnection | .confirm, .close =>
    match c.mode with
    | .remote =>
      let r := c.send .closeReason (message .closeReason [])
      ({ r.1 with stage := .ended }, r.2)
    | .portForward => ({ c with stage := .ended }, [])
  | _, _ => (c, [])

def sendMessage (c : ClientRun) (content : Bytes) : ClientRun × List Wire :=
  match c.stage with
  | .active => c.send .message (message .other content)
  | _ => (c, [])

def forward (c : ClientRun) (bytes : Bytes) : ClientRun × List Wire :=
  match c.mode, c.stage with
  | .portForward, .active => ({ c with buffer := c.buffer ++ bytes }, [])
  | .portForward, .raw => c.send .tunnel (.raw bytes)
  | _, _ => (c, [])

end ClientRun

/-- Where the server is: in `create_tcp_connection`, in the connection's loop, or at the
end. -/
inductive ServerStage where
  | waitPublicKey
  | serving
  | ended

/-- A run of the server of the peer `id`, with the key it went on with and the frames it
sent and accepted since. -/
structure ServerRun where
  id : String
  stage : ServerStage
  stream : Stream
  sessionKey : Option Wire
  sent : List Wire
  accepted : List Wire

namespace ServerRun

/-- The `SignedId` of run `n`. -/
def hello (n : Nat) (id : String) : Wire :=
  signedId (.signed (.peer id) (idPk id (.boxPk (.server n))))

/-- `create_tcp_connection`, with `secure` and a valid key pair, up to the first read. -/
def start (id : String) : ServerRun := ⟨id, .waitPublicKey, none, none, [], []⟩

/-- `create_tcp_connection` after the read, for run `n`. -/
def onPublicKey (sv : ServerRun) (n : Nat) (frame : Wire) : ServerRun :=
  match parseMessage frame with
  | some (.publicKey asymmetricValue symmetricValue) =>
    if len asymmetricValue = 32 then
      match decodeKey symmetricValue asymmetricValue (.server n) with
      | some key => { sv with stage := .serving, stream := Stream.setKey key,
                              sessionKey := some key }
      | none => { sv with stage := .ended }
    else if len asymmetricValue = 0 then { sv with stage := .serving }
    else { sv with stage := .ended }
  | some _ => { sv with stage := .serving }
  | none => { sv with stage := .ended }

def receive (sv : ServerRun) (n : Nat) (frame : Wire) : ServerRun :=
  match sv.stage with
  | .waitPublicKey => sv.onPublicKey n frame
  | .serving =>
    match sv.stream.next frame with
    | (_, none) => { sv with stage := .ended }
    | (st, some m) =>
      match parseMessage m with
      | some _ => { sv with stream := st, accepted := sv.accepted ++ [frame] }
      | none => { sv with stream := st }
  | .ended => sv

def sendMessage (sv : ServerRun) (tag : Tag) (content : Bytes) : ServerRun × List Wire :=
  match sv.stage with
  | .serving =>
    let r := sv.stream.send (message tag content)
    ({ sv with stream := r.1, sent := sv.sent ++ [r.2] }, [r.2])
  | _ => (sv, [])

end ServerRun

structure Net where
  clients : Nat → Option ClientRun
  servers : Nat → Option ServerRun
  wire : List Wire

/-- What happens: a run starts, a frame is delivered to one, a user answers, a run sends
something or is cut off. -/
inductive Event where
  | client (n : Nat) (peerId : String) (directIp : Bool) (mode : ClientMode)
      (signedIdPk : Wire) (hasRsPk : Bool)
  | server (n : Nat) (id : String)
  | toClient (n : Nat) (frame : Wire)
  | toServer (n : Nat) (frame : Wire)
  | ui (n : Nat) (d : UiData)
  | clientSends (n : Nat) (content : Bytes)
  | clientForwards (n : Nat) (bytes : Bytes)
  | serverSends (n : Nat) (tag : Tag) (content : Bytes)
  | cutClient (n : Nat)
  | cutServer (n : Nat)

namespace Net

def init : Net := ⟨fun _ => none, fun _ => none, []⟩

def setClient (s : Net) (n : Nat) (r : ClientRun × List Wire) : Net :=
  { s with clients := Function.update s.clients n (some r.1), wire := s.wire ++ r.2 }

def setServer (s : Net) (n : Nat) (r : ServerRun × List Wire) : Net :=
  { s with servers := Function.update s.servers n (some r.1), wire := s.wire ++ r.2 }

def withClient (s : Net) (n : Nat) (f : ClientRun → ClientRun × List Wire) : Net :=
  match s.clients n with
  | some c => s.setClient n (f c)
  | none => s

def withServer (s : Net) (n : Nat) (f : ServerRun → ServerRun × List Wire) : Net :=
  match s.servers n with
  | some sv => s.setServer n (f sv)
  | none => s

def step (s : Net) : Event → Net
  | .client n peerId directIp mode signedIdPk hasRsPk =>
    match s.clients n with
    | some _ => s
    | none => s.setClient n (ClientRun.start peerId directIp mode signedIdPk hasRsPk)
  | .server n id =>
    match s.servers n with
    | some _ => s
    | none => s.setServer n (.start id, [ServerRun.hello n id])
  | .toClient n frame => s.withClient n fun c => c.receive n frame
  | .toServer n frame => s.withServer n fun sv => (sv.receive n frame, [])
  | .ui n d => s.withClient n fun c => c.confirm d
  | .clientSends n content => s.withClient n fun c => c.sendMessage content
  | .clientForwards n bytes => s.withClient n fun c => c.forward bytes
  | .serverSends n tag content => s.withServer n fun sv => sv.sendMessage tag content
  | .cutClient n => s.withClient n fun c => ({ c with stage := .ended }, [])
  | .cutServer n => s.withServer n fun sv => ({ sv with stage := .ended }, [])

def Corrupt : KeyName → Prop
  | .adversary _ => True
  | _ => False

/-- What the adversary can make: from the frames sent so far and what the rendezvous server
tells everyone about every peer. -/
def Knows (s : Net) (t : Wire) : Prop :=
  Known Corrupt (fun u => u ∈ s.wire ∨ ∃ id, u = certificate id) t

/-- What arrives, the network can have made. -/
def Possible (s : Net) : Event → Prop
  | .client _ _ _ _ signedIdPk _ => s.Knows signedIdPk
  | .toClient _ frame | .toServer _ frame => s.Knows frame
  | _ => True

end Net
end RustDesk.Handshake
