import RustDesk.Clipboard.MultiClipboards
import RustDesk.Lib.CheckedArith
import RustDesk.Transport.BytesCodec

/-!
# The clipboard through the connection manager

A service that runs as root reads the clipboard through the connection manager.  A call of
`read_clipboard_from_cm_ipc` sends a request over a stream that is kept from call to call,
and waits for the answer: a message, and a raw frame with the contents of all large
clipboards, if there are any.  The connection manager answers one request after the other.

`Relay` is the service with the stream that it has; what becomes of a stream that it has
dropped is seen by nobody.  Frames stay in order and may take any time.  How much time a call
waits is an input, as is whether a stream fails.  A message is read as what it was written
from; how it looks as bytes, and as what message raw bytes would be read, are parameters.
-/

open CheckedArith

namespace RustDesk

namespace CmRelay

structure ClipboardNonFile where
  compress : Bool
  content : Bytes
  contentLen : Nat
  nextRaw : Bool
  width : Int
  height : Int
  format : Int
  specialName : String
  deriving DecidableEq

/-- `ipc::Data`, as far as it matters here. -/
inductive Data where
  | clipboardNonFile (answer : Option (String × List ClipboardNonFile))
  | monitorReady
  | other
  deriving DecidableEq

structure Json where
  toVec : Data → Bytes
  fromSlice : Bytes → Option Data

inductive Frame where
  | data (d : Data)
  | raw (bytes : Bytes)
  deriving DecidableEq

/-- The numbers of `message_proto::ClipboardFormat`. -/
def formatNumber : ClipboardFormat → Int
  | .text => 0
  | .rtf => 1
  | .html => 2
  | .imageRgba => 21
  | .imagePng => 22
  | .imageSvg => 23
  | .special => 31

/-- `EnumOrUnknown::value`. -/
def formatValue : EnumOrUnknown ClipboardFormat → Int
  | .ok format => formatNumber format
  | .error n => n

def isLarge (c : Clipboard) : Bool := decide (c.content.length > 1024 * 3)

def mainData (c : Clipboard) : ClipboardNonFile where
  compress := c.compress
  content := if isLarge c then [] else c.content
  contentLen := c.content.length
  nextRaw := isLarge c
  width := c.width
  height := c.height
  format := formatValue c.format
  specialName := c.specialName

def rawContents (clipboards : List Clipboard) : Bytes :=
  clipboards.flatMap fun c => if isLarge c then c.content else []

def answer : Except String (List Clipboard) → Data
  | .ok clipboards => .clipboardNonFile (some ("", clipboards.map mainData))
  | .error e => .clipboardNonFile (some (e, []))

/-- A stream: the requests that are not read yet, by the number of the call, the raw frame
that is sent next, and the frames that are on their way. -/
structure Stream where
  requests : List Nat
  raw : Option Bytes
  frames : List Frame
  broken : Bool

end CmRelay

open CmRelay

/-- The service and its stream, what the connection manager has produced for each call, and
what the calls have returned. -/
structure CmRelay where
  stream : Option Stream
  /-- The call that waits, and for a raw frame the contents it has. -/
  waiting : Option (Nat × Option (List ClipboardNonFile))
  calls : Nat
  produced : List (Nat × List Clipboard)
  results : List (Nat × Except Trap (Except String (List ClipboardNonFile)))

namespace CmRelay

inductive Input where
  /-- A call begins.  Sending on the stream that is there succeeds or not; if not, there is a
  new one, on which the connection manager may first say that it is ready, and sending on it
  succeeds or not. -/
  | call (sent : Bool) (connected : Except String Bool) (sentAnew : Except String Unit)
  /-- No frame has come in time, or the stream has failed. -/
  | nextFails (e : String)
  | readHeader
  | readRaw
  | rawFails (e : String)
  | rawTimeout
  | serve (clipboards : Except String (List Clipboard))
  | sendRaw
  /-- What the connection manager sends from now on is lost. -/
  | breaks

def start : CmRelay :=
  { stream := none, waiting := none, calls := 0, produced := [], results := [] }

section

variable (json : Json)

def Frame.bytes : Frame → Bytes
  | .data d => json.toVec d
  | .raw bytes => bytes

def Frame.fits (f : Frame) : Bool := (BytesCodec.header (f.bytes json).length).isSome

/-- `ConnectionTmpl::send` and `send_raw`; errors are logged. -/
def Stream.send (st : Stream) (f : Frame) : Stream :=
  if st.broken || !f.fits json then st else { st with frames := st.frames ++ [f] }

def Frame.next : Frame → Option Data
  | .data d => some d
  | .raw bytes => json.fromSlice bytes

def Stream.serve (st : Stream) (clipboards : Except String (List Clipboard)) : Stream :=
  let st := st.send json (.data (answer clipboards))
  match clipboards with
  | .ok clipboards =>
    let raw := rawContents clipboards
    if raw.isEmpty then st else { st with raw := some raw }
  | .error _ => st

def finish (s : CmRelay) (n : Nat) (r : Except Trap (Except String (List ClipboardNonFile))) :
    CmRelay :=
  { s with waiting := none, results := s.results ++ [(n, r)] }

def fails (s : CmRelay) (n : Nat) (e : String) : CmRelay := s.finish n (.ok (.error e))

def connect (s : CmRelay) (n : Nat) (connected : Except String Bool)
    (sentAnew : Except String Unit) : CmRelay :=
  match connected, sentAnew with
  | .error e, _ => s.fails n e
  | .ok _, .error e => s.fails n e
  | .ok ready, .ok () =>
    let st : Stream := ⟨[n], none, [], false⟩
    { s with
      stream := some (if ready then st.send json (.data .monitorReady) else st)
      waiting := some (n, none) }

/-- `read_clipboard_from_cm_ipc`, the request. -/
def call (s : CmRelay) (sent : Bool) (connected : Except String Bool)
    (sentAnew : Except String Unit) : CmRelay :=
  let n := s.calls
  let s := { s with calls := n + 1 }
  match s.stream with
  | some st =>
    if sent then
      { s with
        stream := some { st with requests := st.requests ++ [n] }
        waiting := some (n, none) }
    else s.connect json n connected sentAnew
  | none => s.connect json n connected sentAnew

/-- `read_clipboard_from_cm_ipc`, a message. -/
def readHeader (s : CmRelay) (n : Nat) : Option Data → CmRelay
  | some (.clipboardNonFile (some (err, contents))) =>
    if err ≠ "" then s.fails n err
    else if contents.any (·.nextRaw) then { s with waiting := some (n, some contents) }
    else s.finish n (.ok (.ok contents))
  | some .monitorReady => s
  | _ => s.fails n "failed to get clipboard data from cm"

def fill : Bytes → List ClipboardNonFile → Except Trap (List ClipboardNonFile)
  | _, [] => .ok []
  | data, c :: cs =>
    if c.nextRaw then
      if c.contentLen ≤ data.length then do
        let rest ← fill (data.drop c.contentLen) cs
        return { c with content := data.take c.contentLen } :: rest
      else .error .outOfRange
    else do
      let rest ← fill data cs
      return c :: rest

def take (s : CmRelay) (f : Frame → CmRelay → CmRelay) : CmRelay :=
  match s.stream with
  | some st =>
    match st.frames with
    | frame :: frames => f frame { s with stream := some { st with frames } }
    | [] => s
  | none => s

def modifyStream (s : CmRelay) (f : Stream → Stream) : CmRelay :=
  { s with stream := s.stream.map f }

def serve (s : CmRelay) (clipboards : Except String (List Clipboard)) : CmRelay :=
  match s.stream with
  | some { requests := n :: requests, raw := none, frames, broken } =>
    { s with
      stream := some ((Stream.mk requests none frames broken).serve json clipboards)
      produced := match clipboards with
        | .ok clipboards => s.produced ++ [(n, clipboards)]
        | .error _ => s.produced }
  | _ => s

def Stream.sendRaw (st : Stream) : Stream :=
  match st.raw with
  | some raw => { st with raw := none }.send json (.raw raw)
  | none => st

def step (s : CmRelay) (i : Input) : CmRelay :=
  match s.waiting, i with
  | none, .call sent connected sentAnew => s.call json sent connected sentAnew
  | some (n, none), .nextFails e => s.fails n e
  | some (n, none), .readHeader => s.take fun frame s => s.readHeader n (frame.next json)
  | some (n, some contents), .readRaw =>
    s.take fun frame s => s.finish n ((fill (frame.bytes json) contents).map .ok)
  | some (n, some _), .rawFails e =>
    { s with stream := none }.fails n ("failed to get raw clipboard data: " ++ e)
  -- the stream is dropped, and the contents are returned as they are
  | some (n, some contents), .rawTimeout =>
    { s with stream := none }.finish n (.ok (.ok contents))
  | _, .serve clipboards => s.serve json clipboards
  | _, .sendRaw => s.modifyStream (Stream.sendRaw json)
  | _, .breaks => s.modifyStream fun st => { st with broken := true }
  | _, _ => s

end
end CmRelay
end RustDesk
