import RustDesk.Basic
import RustDesk.Lib.OpenFiles
import RustDesk.Lib.Run
import RustDesk.Lib.UnixPath

/-!
# The upload of a recording

A thread uploads a recording while it is written.  At most once a second it reads the
length of the file, then all bytes from the position it has reached to the end, and sends
them as a part; its next position is the length it had read before.  When the recording is
complete it sends the rest, and the first bytes once more, since the writer comes back to
them.

`RecordUpload` is the file with its writer, the thread, and the requests that the server has
answered.  The writer can write between any two steps of the thread.
-/

open OpenFiles

namespace RustDesk

open UnixPath

namespace RecordUpload

def maxHeaderLen : Nat := 1024

def shouldSendTime : Nat := 1000

def shouldSendSize : Nat := 1024 * 1024

inductive RecordState where
  | newFile (filepath : Text)
  | newFrame
  | writeTail
  | removeFile

inductive Post where
  | new (file : Text)
  | part (file : Text) (offset length : Nat) (body : Bytes)
  | tail (file : Text) (length : Nat) (body : Bytes)
  | remove (file : Text)

structure RecordUploader where
  filepath : Text
  filename : Text
  uploadSize : Nat
  running : Bool
  lastSend : Nat

/-- Where the thread is: it waits for a message; it has opened the file and reads its length;
it reads on to the end of the file; it has opened the file and reads the first bytes; or it
waits for the answer to a request.  `flush` says that the recording is complete. -/
inductive Doing where
  | receiving
  | sizing (flush : Bool)
  | reading (flush : Bool) (len : Nat) (buf : Bytes)
  | readingTail
  | posting (p : Post) (flush : Bool) (len : Nat)

end RecordUpload

open RecordUpload

/-- The file, whether it is still written, the messages to the thread, the thread and the
time, and the requests that were answered. -/
structure RecordUpload where
  file : Bytes
  writing : Bool
  queue : List RecordState
  uploader : RecordUploader
  doing : Doing
  now : Nat
  posts : List Post

namespace RecordUpload

/-- `handle_new_file`, as far as the request. -/
def handleNewFile (s : RecordUpload) (filepath : Text) : RecordUpload :=
  match UnixPath.fileName filepath with
  | some filename => { s with
      uploader := {
        filename, filepath
        uploadSize := 0
        running := true
        lastSend := s.now }
      doing := .posting (.new filename) false 0 }
  | none => { s with uploader.running := false, doing := .receiving }

/-- What follows `handle_frame`: the tail, or the next message. -/
def afterFrame (flush : Bool) : Doing := if flush then .readingTail else .receiving

/-- `handle_frame`, as far as the file is opened. -/
def handleFrame (s : RecordUpload) (flush : Bool) : RecordUpload :=
  if !flush ∧ s.now - s.uploader.lastSend < shouldSendTime then
    { s with doing := afterFrame flush }
  else { s with doing := .sizing flush }

/-- `handle_remove`, as far as the request. -/
def handleRemove (s : RecordUpload) : RecordUpload :=
  { s with doing := .posting (.remove s.uploader.filename) false 0 }

/-- `run`: what is done with a message. -/
def receive (s : RecordUpload) : RecordState → RecordUpload
  | .newFile filepath => s.handleNewFile filepath
  | .newFrame => if s.uploader.running then s.handleFrame false else s
  | .writeTail => if s.uploader.running then s.handleFrame true else s
  | .removeFile => if s.uploader.running then s.handleRemove else s

/-- `handle_frame`, once the length of the file is read. -/
def size (s : RecordUpload) (flush : Bool) : RecordUpload :=
  let len := s.file.length
  if len ≤ s.uploader.uploadSize then { s with doing := afterFrame flush }
  else if !flush ∧ len - s.uploader.uploadSize < shouldSendSize then
    { s with doing := afterFrame flush }
  else { s with doing := .reading flush len [] }

/-- One read of `read_to_end`, of up to `n` bytes. -/
def read (s : RecordUpload) (flush : Bool) (len : Nat) (buf : Bytes) (n : Nat) : RecordUpload :=
  let bytes := (s.file.drop (s.uploader.uploadSize + buf.length)).take n
  if bytes = [] then
    { s with
      doing := .posting (.part s.uploader.filename s.uploader.uploadSize buf.length buf) flush len }
  else { s with doing := .reading flush len (buf ++ bytes) }

/-- `handle_tail`, once the rest is sent. -/
def readTail (s : RecordUpload) : RecordUpload :=
  let buf := s.file.take maxHeaderLen
  { s with doing := .posting (.tail s.uploader.filename buf.length buf) true 0 }

def sent (s : RecordUpload) (flush : Bool) (len : Nat) : Post → RecordUpload
  | .part .. => { s with
      uploader.uploadSize := len
      uploader.lastSend := s.now
      doing := afterFrame flush }
  | _ => { s with doing := .receiving }

def answered (s : RecordUpload) (p : Post) (flush : Bool) (len : Nat) :
    Except String Unit → RecordUpload
  | .ok () => { s with posts := s.posts ++ [p] }.sent flush len p
  | .error _ => { s with uploader.running := false, doing := .receiving }

/-- The next step of the thread; a read gets up to `n + 1` bytes. -/
def work (s : RecordUpload) (n : Nat) (answer : Except String Unit) : RecordUpload :=
  match s.doing with
  | .receiving =>
    match s.queue with
    | m :: rest => { s with queue := rest }.receive m
    | [] => s
  | .sizing flush => s.size flush
  | .reading flush len buf => s.read flush len buf (n + 1)
  | .readingTail => s.readTail
  | .posting p flush len => s.answered p flush len answer

/-- What happens: the recorder writes, tells the thread, or is done; time passes; the thread
does its next step. -/
inductive Input where
  | append (bytes : Bytes)
  | rewrite (off : Nat) (bytes : Bytes)
  | newFrame
  | finish
  | tick (ms : Nat)
  | work (n : Nat) (answer : Except String Unit)

def step (s : RecordUpload) : Input → RecordUpload
  | .append bytes => if s.writing then { s with file := s.file ++ bytes } else s
  | .rewrite off bytes => if s.writing then { s with file := overwrite 0 s.file off bytes } else s
  | .newFrame => if s.writing then { s with queue := s.queue ++ [.newFrame] } else s
  | .finish =>
    if s.writing then { s with queue := s.queue ++ [.writeTail], writing := false } else s
  | .tick ms => { s with now := s.now + ms }
  | .work n answer => s.work n answer

/-- A rewrite stays within the header, and the server answers. -/
def Meets (_ : RecordUpload) : Input → Prop
  | .rewrite off bytes => off + bytes.length ≤ maxHeaderLen
  | .work _ answer => answer = .ok ()
  | _ => True

def start (filepath : Text) (file : Bytes) (uploader : RecordUploader) (now : Nat) :
    RecordUpload where
  file := file
  writing := true
  queue := [.newFile filepath]
  uploader := uploader
  doing := .receiving
  now := now
  posts := []

def apply (content : Bytes) : Post → Bytes
  | .new _ => []
  | .part _ offset _ body => overwrite 0 content offset body
  | .tail _ _ body => overwrite 0 content 0 body
  | .remove _ => []

def served (s : RecordUpload) : Bytes := Run.exec apply [] s.posts

def NoGap (content : Bytes) : Post → Prop
  | .part _ offset _ _ => offset ≤ content.length
  | _ => True

/-- The thread has nothing left to do. -/
def Done (s : RecordUpload) : Prop := s.doing = .receiving ∧ s.queue = []

end RecordUpload
end RustDesk
