import RustDesk.Basic
import RustDesk.Lib.OpenFiles

/-!
# Downloads of one URL

`DOWNLOADERS` has at most one entry for a URL.  A call of `download_file` puts one there,
unless there is one without an error, and starts a thread for it.  From then on the thread
finds the entry again by the URL, step by step, and so do `cancel`, `remove` and
`get_download_data`.  An entry that is dropped closes the channel of its own thread, which
the thread takes for a cancellation.

A step of a thread or of a caller is what it does without waiting or giving up a lock.  What
the server answers, and whether the file system obeys, are inputs.
-/

open OpenFiles

namespace RustDesk

namespace Downloads

structure DownloadData where
  data : Bytes
  path : Option String
  totalSize : Option Nat
  downloadedSize : Nat
  error : Option String

/-- `Downloader`; `tx_cancel` is the number of the thread at the other end of the channel. -/
structure Downloader where
  data : Bytes
  path : Option String
  totalSize : Option Nat
  downloadedSize : Nat
  error : Option String
  finished : Bool
  txCancel : Nat
  deriving DecidableEq

inductive Phase where
  | unspawned
  | asking
  | sized
  /-- It is about to create its file, if it has one. -/
  | answered
  | receiving
  | written (n : Nat)
  | stopped (isAllDownloaded : Bool)
  /-- It was cancelled and is about to remove the entry. -/
  | leaving
  | failed (err : String)
  | timed
  | gone
  deriving DecidableEq

structure Thread where
  path : Option String
  autoDel : Bool
  phase : Phase := .unspawned
  cancelled : Bool := false
  body : Bytes := []
  received : Bytes := []
  dest : Option Nat := none
  deriving DecidableEq

/-- Where a call of `download_file` is. -/
inductive CallPhase where
  | stale (path : Option String)
  | checking
  | checked
  | staleAfterCheck (thread : Nat) (path : Option String)
  | spawning (thread : Nat)
  | returned (result : Except String String)
  deriving DecidableEq

/-- A call of `download_file`. -/
structure Caller where
  path : Option String
  autoDel : Bool
  phase : CallPhase

/-- The answer to `client.head`. -/
inductive HeadResponse where
  | success (contentLength : Option Nat)
  | status (text : String)
  | error (err : String)
  deriving DecidableEq

inductive ThreadInput where
  | head (resp : HeadResponse)
  | get (body : Bytes)
  | create
  | chunk (bytes : Bytes)
  /-- Only the first bytes of a chunk could be written. -/
  | writeFails (bytes : Bytes) (k : Nat) (err : String)
  | count
  | endOfStream
  | cancelSeen
  | finish
  | leave (removed : Bool)
  | fail (err : String)
  | recordError
  | autoDelete
  deriving DecidableEq

inductive CallerInput where
  | removeStale (removed : Bool)
  | check (dirs : Except String Unit)
  | insert
  | spawn
  deriving DecidableEq

inductive Input where
  | call (path : Option String) (autoDel : Bool)
  | caller (c : Nat) (i : CallerInput)
  | thread (t : Nat) (i : ThreadInput)
  | cancel
  | remove

end Downloads

open Downloads

structure Downloads where
  url : String
  entry : Option Downloader
  threads : List Thread
  callers : List Caller
  files : Store String UInt8

namespace Downloads

def initial (url : String) (files : Store String UInt8) : Downloads :=
  { url, entry := none, threads := [], callers := [], files }

def setThread (s : Downloads) (t : Nat) (th : Thread) : Downloads :=
  { s with threads := s.threads.set t th }

def setCaller (s : Downloads) (c : Nat) (x : Caller) : Downloads :=
  { s with callers := s.callers.set c x }

/-- `DOWNLOADERS.lock().unwrap().get_mut(id).map`. -/
def modifyEntry (s : Downloads) (f : Downloader → Downloader) : Downloads :=
  { s with entry := s.entry.map f }

def removeFile (s : Downloads) (path : Option String) (removed : Bool) : Downloads :=
  match path with
  | some p => if s.files.exists? p && removed then { s with files := s.files.unlink p } else s
  | none => s

/-- `download_file`, the first pass. -/
def call (s : Downloads) (path : Option String) (autoDel : Bool) : Downloads :=
  match s.entry with
  | some downloader =>
    if downloader.error.isNone then
      { s with callers := s.callers ++ [{ path, autoDel, phase := .returned (.ok s.url) }] }
    else
      { s with
        entry := none
        callers := s.callers ++ [{ path, autoDel, phase := .stale downloader.path }] }
  | none => { s with callers := s.callers ++ [{ path, autoDel, phase := .stale none }] }

def check (s : Downloads) (c : Nat) (x : Caller) (dirs : Except String Unit) : Downloads :=
  match x.path with
  | none => s.setCaller c { x with phase := .checked }
  | some p =>
    if s.files.exists? p then
      s.setCaller c { x with phase := .returned (.error ("File " ++ p ++ " already exists")) }
    else
      match dirs with
      | .error e => s.setCaller c { x with phase := .returned (.error e) }
      | .ok () => s.setCaller c { x with phase := .checked }

def insertEntry (s : Downloads) (c : Nat) (x : Caller) (stale : Option String) : Downloads :=
  { s with
    entry := some {
      data := []
      path := x.path
      totalSize := none
      downloadedSize := 0
      error := none
      finished := false
      txCancel := s.threads.length }
    threads := s.threads ++ [{ path := x.path, autoDel := x.autoDel }]
    callers := s.callers.set c { x with phase := .staleAfterCheck s.threads.length stale } }

/-- `download_file`, the second pass. -/
def secondPass (s : Downloads) (c : Nat) (x : Caller) : Downloads :=
  match s.entry with
  | some existing =>
    if existing.error.isNone then s.setCaller c { x with phase := .returned (.ok s.url) }
    else s.insertEntry c x existing.path
  | none => s.insertEntry c x none

def spawn (s : Downloads) (c : Nat) (x : Caller) (t : Nat) : Downloads :=
  match s.threads[t]? with
  | some th =>
    if th.phase = .unspawned then
      (s.setThread t { th with phase := .asking }).setCaller c
        { x with phase := .returned (.ok s.url) }
    else s
  | none => s

def callerStep (s : Downloads) (c : Nat) (x : Caller) (i : CallerInput) : Downloads :=
  match x.phase, i with
  | .stale path, .removeStale removed =>
    (s.removeFile path removed).setCaller c { x with phase := .checking }
  | .checking, .check dirs => s.check c x dirs
  | .checked, .insert => s.secondPass c x
  | .staleAfterCheck t path, .removeStale removed =>
    (s.removeFile path removed).setCaller c { x with phase := .spawning t }
  | .spawning t, .spawn => s.spawn c x t
  | _, _ => s

/-- `rx_cancel.recv()` is ready: a message is there, or the channel is closed. -/
def cancelReady (s : Downloads) (t : Nat) (th : Thread) : Bool :=
  th.cancelled || s.entry.all fun downloader => downloader.txCancel != t

def head (s : Downloads) (t : Nat) (th : Thread) : HeadResponse → Downloads
  | .success (some totalSize) =>
    (s.modifyEntry fun downloader => { downloader with totalSize := some totalSize }).setThread t
      { th with phase := .sized }
  | .success none => s.setThread t { th with phase := .failed "Failed to get content length" }
  | .status text =>
    s.setThread t { th with phase := .failed ("Failed to get content length: " ++ text) }
  | .error err => s.setThread t { th with phase := .failed err }

def create (s : Downloads) (t : Nat) (th : Thread) : Downloads :=
  match th.path with
  | some p =>
    { s with files := (s.files.create p).2 }.setThread t
      { th with phase := .receiving, dest := some (s.files.create p).1 }
  | none => s.setThread t { th with phase := .receiving }

def chunk (s : Downloads) (t : Nat) (th : Thread) (bytes : Bytes) : Downloads :=
  match th.dest with
  | some f =>
    { s with files := s.files.write 0 f th.received.length bytes }.setThread t
      { th with phase := .written bytes.length, received := th.received ++ bytes }
  | none =>
    (s.modifyEntry fun downloader =>
      { downloader with
        data := downloader.data ++ bytes
        downloadedSize := downloader.downloadedSize + bytes.length }).setThread t
      { th with received := th.received ++ bytes }

def writeFails (s : Downloads) (t : Nat) (th : Thread) (bytes : Bytes) (k : Nat)
    (err : String) : Downloads :=
  match th.dest with
  | some f =>
    { s with files := s.files.write 0 f th.received.length (bytes.take k) }.setThread t
      { th with phase := .failed err, received := th.received ++ bytes }
  | none => s

def leave (s : Downloads) (t : Nat) (th : Thread) (removed : Bool) : Downloads :=
  match s.entry with
  | some downloader =>
    ({ s with entry := none }.removeFile downloader.path removed).setThread t
      { th with phase := .gone }
  | none => s.setThread t { th with phase := .gone }

/-- Where a thread is after `do_download`. -/
def afterDownload (th : Thread) (isAllDownloaded : Bool) : Phase :=
  if isAllDownloaded then if th.autoDel then .timed else .gone else .leaving

def canFail (th : Thread) : Bool :=
  match th.phase with
  | .asking | .sized | .receiving => true
  | .answered => th.path.isSome
  | .stopped _ => th.dest.isSome
  | _ => false

/-- `do_download`, and what the thread does behind it. -/
def threadStep (s : Downloads) (t : Nat) (th : Thread) (i : ThreadInput) : Downloads :=
  match th.phase, i with
  | .asking, .head resp => s.head t th resp
  | .sized, .get body => s.setThread t { th with phase := .answered, body }
  | .answered, .create => s.create t th
  | .receiving, .chunk bytes =>
    if th.received ++ bytes <+: th.body then s.chunk t th bytes else s
  | .receiving, .writeFails bytes k err =>
    if th.received ++ bytes <+: th.body then s.writeFails t th bytes k err else s
  | .written n, .count =>
    (s.modifyEntry fun downloader =>
      { downloader with downloadedSize := downloader.downloadedSize + n }).setThread t
      { th with phase := .receiving }
  | .receiving, .endOfStream =>
    if th.received = th.body then s.setThread t { th with phase := .stopped true } else s
  | .asking, .cancelSeen | .sized, .cancelSeen =>
    if s.cancelReady t th then s.setThread t { th with phase := .leaving } else s
  | .receiving, .cancelSeen =>
    if s.cancelReady t th then s.setThread t { th with phase := .stopped false } else s
  | .stopped isAllDownloaded, .finish =>
    (s.modifyEntry fun downloader => { downloader with finished := true }).setThread t
      { th with phase := afterDownload th isAllDownloaded }
  | .leaving, .leave removed => s.leave t th removed
  | .failed err, .recordError =>
    (s.modifyEntry fun downloader => { downloader with error := some err }).setThread t
      { th with phase := .gone }
  | .timed, .autoDelete => { s with entry := none }.setThread t { th with phase := .gone }
  | _, .fail err => if canFail th then s.setThread t { th with phase := .failed err } else s
  | _, _ => s

def cancel (s : Downloads) : Downloads :=
  match s.entry with
  | some downloader =>
    { s with
      threads := s.threads.modify downloader.txCancel fun th => { th with cancelled := true } }
  | none => s

def remove (s : Downloads) : Downloads := { s with entry := none }

def getDownloadData (s : Downloads) : Except String DownloadData :=
  match s.entry with
  | some downloader =>
    let data :=
      if downloader.totalSize.getD 0 = downloader.downloadedSize ∧ downloader.path.isNone then
        downloader.data
      else []
    .ok {
      data
      path := downloader.path
      totalSize := downloader.totalSize
      downloadedSize := downloader.downloadedSize
      error := downloader.error }
  | none => .error "Downloader not found"

def step (s : Downloads) : Input → Downloads
  | .call path autoDel => s.call path autoDel
  | .caller c i =>
    match s.callers[c]? with
    | some x => s.callerStep c x i
    | none => s
  | .thread t i =>
    match s.threads[t]? with
    | some th => s.threadStep t th i
    | none => s
  | .cancel => s.cancel
  | .remove => s.remove

end Downloads
end RustDesk
