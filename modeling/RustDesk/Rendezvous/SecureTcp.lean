import RustDesk.Basic
import RustDesk.Lib.Base64
import RustDesk.Lib.SymbolicCrypto

/-!
# Requests to the rendezvous server that carry a secret

Three operations of the client connect to the rendezvous server and send it a secret: a punch
hole request and a relay request with the token of the user's account, and an API request
with its headers and body.  Each first asks `secure_tcp` to put a key on the stream.  The
server is to open with a key exchange, its box key under its signature, and the client
answers with a session key in a box.

`secure_tcp` ends in five ways.  It fails on a timeout and on a key exchange that is not
well formed or not signed; it returns with a key on the stream after a good one; but it also
returns, and without a key, when the first frame is no key exchange or when there is none.

Any number of operations run at once.  What `connect`, `send` and `next` give is up to the
network: the events of a run.  Signatures and boxes are ideal.
-/

namespace RustDesk.Rendezvous

open SymbolicCrypto

/-- Whose key it is: a signer's, named by the public key, or that of a handshake, named by
the operation and its connection. -/
inductive KeyName where
  | signer (pk : Bytes)
  | session (n conn : Nat)
  deriving DecidableEq

/-- What may stand in a key exchange: bytes, keys, signatures and boxes, no records. -/
abbrev Wire := Term KeyName Empty

def len : Wire → Nat
  | .raw bytes => bytes.length
  | .verifyKey _ | .boxPk _ | .boxSk _ | .key _ => 32
  | .signKey _ => 64
  | .signed _ content => 64 + len content
  | .boxed _ _ content => 16 + len content
  | .secretBox _ _ content => 16 + len content

def verify (signed : Wire) (pk : Bytes) : Option Wire :=
  match signed with
  | .signed (.signer pk') content => if pk' = pk then some content else none
  | _ => none

def getPk (pk : Wire) : Option Wire := if len pk = 32 then some pk else none

def getRsPk (strBase64 : String) : Option Bytes :=
  match Base64.decode strBase64.toList with
  | some pk => if pk.length = 32 then some pk else none
  | none => none

def createSymmetricKeyMsg (n conn : Nat) (theirPkB : Wire) : Wire × Wire × Wire :=
  (.boxPk (.session n conn), .boxed (.boxPk (.session n conn)) theirPkB (.key (.session n conn)),
    .key (.session n conn))

/-- The fields of `PunchHoleRequest` that the client fills. -/
structure PunchHoleRequest where
  id : String
  token : String
  natType : Nat
  licenceKey : String
  connType : Nat
  version : String
  udpPort : Nat
  forceRelay : Bool
  socketAddrV6 : Bytes
  deriving DecidableEq

/-- The fields of `RequestRelay` that the client fills. -/
structure RequestRelay where
  id : String
  token : String
  uuid : String
  relayServer : String
  secure : Bool
  deriving DecidableEq

structure HttpProxyRequest where
  method : String
  path : String
  headers : List (String × String)
  body : Bytes
  deriving DecidableEq

/-- `RendezvousMessage`, of the answers only what decides how an operation goes on:
the port of a decoded `socket_addr`, if it is not empty, and the reason of a refusal. -/
inductive RendezvousMessage where
  | keyExchange (keys : List Wire)
  | punchHoleRequest (r : PunchHoleRequest)
  | requestRelay (r : RequestRelay)
  | httpProxyRequest (r : HttpProxyRequest)
  | punchHoleResponse (port : Option Nat)
  | relayResponse (refuseReason : String)
  | httpProxyResponse
  | other
  deriving DecidableEq

/-- What a read gives: a frame with the message that `parse_from_bytes` finds in it, an
error, the end of the stream, or nothing in time. -/
inductive Received where
  | bytes (msg : Option RendezvousMessage)
  | error
  | closed
  | timeout

/-- `get_next_nonkeyexchange_msg` after a read, the second one if `skipped`: what it returns,
unless it reads again. -/
def nextNonKeyExchange (skipped : Bool) : Received → Option (Option RendezvousMessage)
  | .bytes (some (.keyExchange _)) => if skipped then some none else none
  | .bytes (some msg) => some (some msg)
  | _ => some none

/-- What an operation is asked to do: the arguments of `_start_inner`, of `request_relay`
with the fresh ids of its attempts, and of `tcp_proxy_request` with the parts of the parsed
URL. -/
inductive Request where
  | punchHole (r : PunchHoleRequest)
  | relay (key token peer relayServer : String) (secure : Bool) (uuids : Nat → String)
  | httpProxy (key tcpAddr method : String) (url : Option (String × Option String))
      (headers : List (String × String)) (body : Bytes)

namespace Request

def key : Request → String
  | .punchHole r => r.licenceKey
  | .relay key .. => key
  | .httpProxy key .. => key

def secures : Request → Bool
  | .punchHole r => r.licenceKey ≠ "" && r.token ≠ ""
  | .relay key token .. => key ≠ "" && token ≠ ""
  | .httpProxy .. => true

def httpPath : String × Option String → String
  | (path, some query) => path ++ "?" ++ query
  | (path, none) => path

def message (attempt : Nat) : Request → RendezvousMessage
  | .punchHole r => .punchHoleRequest r
  | .relay _ token peer relayServer secure uuids =>
    .requestRelay ⟨peer, token, uuids attempt, relayServer, secure⟩
  | .httpProxy _ _ method url headers body =>
    .httpProxyRequest ⟨method.toUpper, (url.map httpPath).getD "", headers, body⟩

end Request

/-- Where an operation is: in `connect_tcp`; in `secure_tcp` before the first frame, and
after it while its own key exchange is sent; at the send of its message; before the answer,
with a key exchange skipped or not; or at its end, with success or not. -/
inductive Stage where
  | connecting
  | handshake (rsPk : Bytes)
  | exchanging (key : Wire)
  | sending
  | waiting (skipped : Bool)
  | ended (ok : Bool)

/-- What an operation does on its connections: it takes a key exchange, it puts a key on the
stream, it hands a message to the stream, which may have a key. -/
inductive Act where
  | received (conn : Nat) (msg : RendezvousMessage)
  | setKey (conn : Nat) (key : Wire)
  | sent (conn : Nat) (msg : RendezvousMessage) (key : Option Wire)

structure Operation where
  request : Request
  stage : Stage
  conn : Nat
  attempt : Nat
  key : Option Wire
  acts : List Act

namespace Operation

def act (o : Operation) (a : Act) : Operation := { o with acts := a :: o.acts }

def finish (o : Operation) (ok : Bool) : Operation := { o with stage := .ended ok }

/-- The first statements of an operation, up to `connect_tcp`. -/
def start (request : Request) : Operation :=
  let o : Operation := ⟨request, .connecting, 1, 1, none, []⟩
  match request with
  | .httpProxy _ tcpAddr _ url _ _ => if tcpAddr = "" || url.isNone then o.finish false else o
  | _ => o

def sendRequest (o : Operation) : Operation :=
  { o with stage := .sending }.act (.sent o.conn (o.request.message o.attempt) o.key)

/-- `secure_tcp_impl` up to its read; with WebSocket there is nothing to do. -/
def secureTcp (o : Operation) (useWs : Bool) : Operation :=
  if useWs then o.sendRequest
  else
    match getRsPk o.request.key with
    | some rsPk => { o with stage := .handshake rsPk }
    | none => o.finish false

/-- `secure_tcp_impl` after its read, for operation `n`. -/
def onFirstFrame (o : Operation) (n : Nat) (rsPk : Bytes) (r : Received) : Operation :=
  match r with
  | .timeout => o.finish false
  | .bytes (some (.keyExchange keys)) =>
    let o := o.act (.received o.conn (.keyExchange keys))
    match keys with
    | [signed] =>
      match (verify signed rsPk).bind getPk with
      | some theirPkB =>
        let (asymmetricValue, symmetricValue, key) :=
          createSymmetricKeyMsg n o.conn theirPkB
        { o with stage := .exchanging key }.act
          (.sent o.conn (.keyExchange [asymmetricValue, symmetricValue]) o.key)
      | none => o.finish false
    | _ => o.finish false
  -- any other message, no message, an error or the end: `Ok(())` all the same
  | _ => o.sendRequest

/-- A new connection for the next attempt of `request_relay`. -/
def reconnect (o : Operation) : Operation :=
  { o with stage := .connecting, conn := o.conn + 1, attempt := o.attempt + 1, key := none }

def onAnswer (o : Operation) (answer : Option RendezvousMessage) : Operation :=
  match o.request with
  | .punchHole _ =>
    match answer with
    | some (.punchHoleResponse none) => o.finish false
    | some (.punchHoleResponse (some port)) => o.finish (port ≠ 0)
    | some (.relayResponse _) => o.finish true
    | _ =>
      if o.attempt < 3 then { o with attempt := o.attempt + 1 }.sendRequest
      else o.finish false
  | .relay .. =>
    match answer with
    | some (.relayResponse refuseReason) => o.finish (refuseReason = "")
    | _ => if o.attempt < 3 then o.reconnect else o.finish false
  | .httpProxy .. => o.finish (answer = some .httpProxyResponse)

def onRead (o : Operation) (skipped : Bool) (r : Received) : Operation :=
  match o.request, nextNonKeyExchange skipped r with
  | .httpProxy .., none => o.finish false
  | _, none => { o with stage := .waiting true }
  | _, some answer => o.onAnswer answer

/-- `connect_tcp` returns. -/
def connected (o : Operation) (useWs ok : Bool) : Operation :=
  match o.stage with
  | .connecting =>
    if ok then if o.request.secures then o.secureTcp useWs else o.sendRequest
    else o.finish false
  | _ => o

/-- `next` returns. -/
def received (o : Operation) (n : Nat) (r : Received) : Operation :=
  match o.stage with
  | .handshake rsPk => o.onFirstFrame n rsPk r
  | .waiting skipped => o.onRead skipped r
  | _ => o

/-- `send` returns. -/
def sent (o : Operation) (ok : Bool) : Operation :=
  match o.stage with
  | .exchanging key =>
    if ok then ({ o with key := some key }.act (.setKey o.conn key)).sendRequest
    else o.finish false
  | .sending => if ok then { o with stage := .waiting false } else o.finish false
  | _ => o

/-- The future is dropped: by the overall timeout, or as the loser of `select_ok`. -/
def dropped (o : Operation) : Operation :=
  match o.stage with
  | .ended _ => o
  | _ => o.finish false

end Operation

structure Client where
  useWs : Bool
  ops : Nat → Option Operation

inductive Event where
  | start (n : Nat) (request : Request)
  | connected (n : Nat) (ok : Bool)
  | received (n : Nat) (r : Received)
  | sent (n : Nat) (ok : Bool)
  | dropped (n : Nat)

namespace Client

def init (useWs : Bool) : Client := ⟨useWs, fun _ => none⟩

def withOp (c : Client) (n : Nat) (f : Operation → Operation) : Client :=
  match c.ops n with
  | some o => { c with ops := Function.update c.ops n (some (f o)) }
  | none => c

def step (c : Client) : Event → Client
  | .start n request =>
    match c.ops n with
    | some _ => c
    | none => { c with ops := Function.update c.ops n (some (.start request)) }
  | .connected n ok => c.withOp n fun o => o.connected c.useWs ok
  | .received n r => c.withOp n fun o => o.received n r
  | .sent n ok => c.withOp n fun o => o.sent ok
  | .dropped n => c.withOp n fun o => o.dropped

end Client
end RustDesk.Rendezvous
