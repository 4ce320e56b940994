import RustDesk.Server.Config
import RustDesk.Tunnel.Stream

/-!
# The two ends of a port forward

The server is a connection whose peer asks for a tunnel.  It exchanges messages in its loop, and
after the loop it forwards bytes between the peer and the target (`try_port_forward_loop`).  It
leaves the loop after a message once it is authorized and no delay test is out, and after a click
in the connection manager at once.

The client logs in (`connect_and_login`) until it reads the peer info, and then forwards bytes
between the server and the application (`run_forward`).

What the checks of a login come to (password, second factor, approval, the connection to the
target) is an input here; what they are is modelled with the connection.
-/

namespace RustDesk

namespace Tunnel

inductive ClientMessage where
  | loginRequest (request : Bytes)
  | auth2fa (code : Bytes)
  | switchSidesResponse (response : Bytes)
  | testDelay (fromClient : Bool) (lastDelay : Nat)
  | closeReason (reason : Bytes)
  /-- `is_render_broadcast_noop_compat_message`. -/
  | renderBroadcast (content : Bytes)
  | other (content : Bytes)

inductive ServerMessage where
  | hash (content : Bytes)
  | loginError (error : Bytes)
  | peerInfo (info : Bytes)
  | testDelay (fromClient : Bool) (lastDelay : Nat)
  | other (content : Bytes)

structure Session where
  fromClient : Coding ClientMessage
  fromServer : Coding ServerMessage

inductive ServerPhase where
  | loop
  | forwarding
  | ended
  deriving DecidableEq

/-- `Connection`, for a peer that asks for a tunnel. -/
structure Server where
  stream : Stream
  authorized : Bool
  /-- `port_forward_socket.is_some()`. -/
  portForwardSocket : Bool
  /-- `last_test_delay.is_some()`. -/
  lastTestDelay : Bool
  phase : ServerPhase

inductive Verdict where
  /-- Not let in: what the peer is told, and whether the connection stays. -/
  | pending (error : Option Bytes) (keepAlive : Bool)
  | admitted (info : Bytes)

def Verdict.admits : Verdict → Bool
  | .pending _ _ => false
  | .admitted _ => true

namespace Server

/-- Whether the loop goes on, the connection, and what is sent. -/
abbrev Reaction := Bool × Server × List ServerMessage

def onClose (s : Server) : Server := { s with portForwardSocket := false }

/-- `send_logon_response_and_keep_alive`, or the refusal before it. -/
def sendLogonResponseAndKeepAlive (s : Server) (v : Verdict) : Reaction :=
  if s.authorized then (true, s, [])
  else
    match v with
    | .pending error keepAlive => (keepAlive, s, (error.map .loginError).toList)
    | .admitted info =>
      (true, { s with authorized := true, portForwardSocket := true }, [.peerInfo info])

/-- The `TestDelay` branch. -/
def onTestDelay (s : Server) (fromClient : Bool) (lastDelay : Nat) : Reaction :=
  if fromClient then (true, s, [.testDelay fromClient lastDelay])
  else (true, { s with lastTestDelay := false }, [])

/-- `handle_authorized_scope_violation`; `close` is `allow-scope-violation-close`. -/
def handleAuthorizedScopeViolation (s : Server) (close : Bool) : Reaction :=
  if close then (false, s.onClose, [.other (asBytes "Connection not allowed")]) else (true, s, [])

/-- `on_message`.  A login from switched sides that names a target is refused, and one that
names none is no tunnel. -/
def onMessage (s : Server) (v : Verdict) (close : Bool) : ClientMessage → Reaction
  | .closeReason _ => (false, s.onClose, [])
  | .loginRequest _ => s.sendLogonResponseAndKeepAlive v
  | .testDelay fromClient lastDelay => s.onTestDelay fromClient lastDelay
  | .auth2fa _ =>
    if s.authorized then s.handleAuthorizedScopeViolation close
    else s.sendLogonResponseAndKeepAlive v
  | .switchSidesResponse _ =>
    if s.authorized then s.handleAuthorizedScopeViolation close
    else
      match v with
      | .pending error keepAlive => (keepAlive, s, (error.map .loginError).toList)
      | .admitted _ => (true, s, [])
  | .renderBroadcast _ => (true, s, [])
  | .other _ => if s.authorized then s.handleAuthorizedScopeViolation close else (true, s, [])

def handleMessage (s : Server) (v : Verdict) (close : Bool) (m : ClientMessage) : Reaction :=
  let (keepAlive, s, out) := s.onMessage v close m
  -- avoids that the reply to a delay test gets into the bytes of the tunnel
  (keepAlive && !(s.portForwardSocket && s.authorized && !s.lastTestDelay), s, out)

/-- `Data::Authorize`: here no reply is waited for. -/
def onAuthorize (s : Server) (v : Verdict) : Reaction :=
  let (keepAlive, s, out) := s.sendLogonResponseAndKeepAlive v
  (keepAlive && !s.portForwardSocket, s, out)

/-- `Data::Close`, and the console of the web server. -/
def onClosed (s : Server) (reason : String) : Reaction :=
  (false, s.onClose, [.other (asBytes reason)])

/-- `Data::CmErr`. -/
def onCmErr (s : Server) (expected : Bool) : Reaction :=
  if expected then (true, s, []) else (false, s.onClose, [])

/-- The timer of the delay test; `silent` if nothing came for half a minute. -/
def onTestDelayTimer (s : Server) (silent : Bool) (networkDelay : Nat) : Reaction :=
  if silent then (false, s.onClose, [])
  else if !s.lastTestDelay && !(s.portForwardSocket && s.authorized) then
    (true, { s with lastTestDelay := true }, [.testDelay false networkDelay])
  else (true, s, [])

end Server

inductive ClientPhase where
  | login
  | forwarding
  | ended
  deriving DecidableEq

/-- `connect_and_login`, and then `run_forward`. -/
structure Client where
  stream : Stream
  /-- What the application wrote before the tunnel began. -/
  buffer : Bytes
  phase : ClientPhase

structure Answer where
  login : Option Bytes
  tryAgain : Bool

structure Socket where
  wrote : Bytes
  unread : Bytes
  got : Bytes

def Socket.write (socket : Socket) (data : Bytes) : Socket :=
  { socket with wrote := socket.wrote ++ data, unread := socket.unread ++ data }

end Tunnel

structure Tunnel where
  server : Tunnel.Server
  client : Tunnel.Client
  toServer : Bytes
  toClient : Bytes
  app : Tunnel.Socket
  target : Tunnel.Socket
  streamFailed : Bool

namespace Tunnel

inductive Input where
  /-- `test_delay_timer`. -/
  | timer (silent : Bool) (networkDelay : Nat)
  | authorize (v : Verdict)
  | cmClose
  | cmErr (expected : Bool)
  /-- Whatever else a connection sends its peer: chat, permissions, messages of the services. -/
  | notice (content : Bytes)
  | consoleClose
  /-- The server reads from the stream; the login and the option, if it comes to that. -/
  | serverNext (n : Nat) (v : Verdict) (close : Bool)
  | serverForwards (n : Nat)
  /-- The stream or the target is gone, or nothing came for too long. -/
  | serverEnds
  | targetWrites (data : Bytes)
  | clientNext (n : Nat) (a : Answer)
  /-- `Data::Login` and `Data::Message`. -/
  | ui (m : ClientMessage)
  | clientForwards (n : Nat)
  | clientEnds
  | appWrites (data : Bytes)

variable (session : Session) (t : Tunnel)

def tell : Tunnel → List ServerMessage → Tunnel
  | t, [] => t
  | t, m :: ms =>
    match t.server.stream.send session.fromServer m t.toClient with
    | some (stream, wire) =>
      tell { t with server := { t.server with stream := stream }, toClient := wire } ms
    | none => { t with streamFailed := true }

def ask (m : ClientMessage) : Tunnel :=
  match t.client.stream.send session.fromClient m t.toServer with
  | some (stream, wire) =>
    { t with client := { t.client with stream := stream }, toServer := wire }
  | none => { t with streamFailed := true }

/-- After the loop: `try_port_forward_loop`, if there is a target. -/
def leaveLoop : Tunnel :=
  if t.server.portForwardSocket then
    { t with server := { t.server with
      stream := t.server.stream.setRaw
      portForwardSocket := false
      phase := .forwarding } }
  else { t with server := { t.server with phase := .ended } }

def react (r : Server.Reaction) : Tunnel :=
  let t := tell session { t with server := r.2.1 } r.2.2
  if r.1 then t else t.leaveLoop

def endServer : Tunnel := { t with server := { t.server with phase := .ended } }

def endClient : Tunnel := { t with client := { t.client with phase := .ended } }

def onServer (r : Server.Reaction) (ends : Bool) : Tunnel :=
  match t.server.phase with
  | .loop => t.react session r
  | .forwarding => if ends then t.endServer else t
  | .ended => t

def serverReads (v : Verdict) (close : Bool) : Received ClientMessage → Tunnel
  | .failed => t.react session (false, t.server.onClose, [])
  | .garbled => t
  | .message m => t.react session (t.server.handleMessage v close m)

/-- The server after a call of `stream.next()`. -/
def pullServer (n : Nat) : Tunnel :=
  { t with
    server := { t.server with stream := (t.server.stream.next n t.toServer).2.1 }
    toServer := (t.server.stream.next n t.toServer).2.2 }

/-- `conn.stream.next()`. -/
def serverNext (n : Nat) (v : Verdict) (close : Bool) : Tunnel :=
  match t.server.phase, (t.server.stream.next n t.toServer).1 with
  | .loop, .ok (some bytes) =>
    (t.pullServer n).serverReads session v close
      (session.fromClient.read t.server.stream.received bytes)
  | .loop, .error _ => (t.pullServer n).serverReads session v close .failed
  | .forwarding, .ok (some bytes) =>
    { t.pullServer n with target := { t.target with got := t.target.got ++ bytes } }
  | .forwarding, .error _ => (t.pullServer n).endServer
  | .ended, _ => t
  | _, .ok none => t.pullServer n

/-- `forward.next()` of the server. -/
def serverForwards (n : Nat) : Tunnel :=
  if t.server.phase = .forwarding then
    { t with
      target := { t.target with unread := t.target.unread.drop n }
      toClient := Stream.sendBytes (t.target.unread.take n) t.toClient }
  else t

def startForward : Tunnel :=
  { t with
    client := { t.client with stream := t.client.stream.setRaw, buffer := [], phase := .forwarding }
    toServer := if t.client.buffer = [] then t.toServer
      else Stream.sendBytes t.client.buffer t.toServer }

def clientReads (a : Answer) : Received ServerMessage → Tunnel
  | .failed | .garbled => t.endClient
  | .message (.hash _) =>
    match a.login with
    | some request => t.ask session (.loginRequest request)
    | none => t
  | .message (.loginError _) => if a.tryAgain then t else t.endClient
  | .message (.peerInfo _) => t.startForward
  | .message (.testDelay fromClient lastDelay) =>
    if fromClient then t else t.ask session (.testDelay fromClient lastDelay)
  | .message (.other _) => t

/-- The client after a call of `stream.next()`. -/
def pullClient (n : Nat) : Tunnel :=
  { t with
    client := { t.client with stream := (t.client.stream.next n t.toClient).2.1 }
    toClient := (t.client.stream.next n t.toClient).2.2 }

/-- `stream.next()` of the client. -/
def clientNext (n : Nat) (a : Answer) : Tunnel :=
  match t.client.phase, (t.client.stream.next n t.toClient).1 with
  | .login, .ok (some bytes) =>
    (t.pullClient n).clientReads session a (session.fromServer.read t.client.stream.received bytes)
  | .forwarding, .ok (some bytes) =>
    { t.pullClient n with app := { t.app with got := t.app.got ++ bytes } }
  | .ended, _ => t
  | _, .error _ => (t.pullClient n).endClient
  | _, .ok none => t.pullClient n

/-- `forward.next()` of the client. -/
def clientForwards (n : Nat) : Tunnel :=
  let left := { t with app := { t.app with unread := t.app.unread.drop n } }
  match t.client.phase with
  | .login =>
    { left with client := { t.client with buffer := t.client.buffer ++ t.app.unread.take n } }
  | .forwarding => { left with toServer := Stream.sendBytes (t.app.unread.take n) t.toServer }
  | .ended => t

def step (t : Tunnel) (i : Input) : Tunnel :=
  if t.streamFailed then t
  else
    match i with
    | .timer silent networkDelay =>
      t.onServer session (t.server.onTestDelayTimer silent networkDelay) false
    | .authorize v => t.onServer session (t.server.onAuthorize v) false
    | .cmClose => t.onServer session (t.server.onClosed "") true
    | .cmErr expected => t.onServer session (t.server.onCmErr expected) true
    | .notice content => t.onServer session (true, t.server, [.other content]) false
    | .consoleClose => t.onServer session (t.server.onClosed "Closed manually by web console") true
    | .serverNext n v close => t.serverNext session n v close
    | .serverForwards n => t.serverForwards n
    | .serverEnds => t.onServer session (false, t.server.onClose, []) true
    | .targetWrites data => { t with target := t.target.write data }
    | .clientNext n a => t.clientNext session n a
    | .ui m => if t.client.phase = .login then t.ask session m else t
    | .clientForwards n => t.clientForwards n
    | .clientEnds => t.endClient
    | .appWrites data => { t with app := t.app.write data }

def new : Tunnel where
  server := ⟨.new, false, false, false, .loop⟩
  client := ⟨.new, [], .login⟩
  toServer := []
  toClient := []
  app := ⟨[], [], []⟩
  target := ⟨[], [], []⟩
  streamFailed := false

/-- `on_open`: the server sends the salt and the challenge. -/
def start (hash : Bytes) : Tunnel := tell session new [.hash hash]

end Tunnel
end RustDesk
