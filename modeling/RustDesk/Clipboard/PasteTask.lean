import Mathlib.Algebra.GroupWithZero.Nat
import RustDesk.Clipboard.FileContents
import RustDesk.Clipboard.FileDescription
import RustDesk.Lib.MachineInt
import RustDesk.Lib.Run

/-!
# Pasting files (macOS)

`PasteTask`: the files of a list are fetched from the peer one after the other and block
by block, each into `<name>.rddownload` in the target directory, and renamed when complete.
One worker handles the answers of all tasks; an answer is matched with the task by its
stream id, which is the index of the file in the list.

The file system is a parameter of each event (`PasteIo`): what is there and which
operations succeed may depend on all that was done before.  What the task does to the file
system is recorded (`Deed`), with the target directory and the number of the task.

Left out are the progress attributes and the times of the files, which change no content
and no name.
-/

namespace RustDesk

open UnixPath MachineInt

inductive PasteEffect where
  | createFile (path : Text)
  /-- `create_dir_all`: the directory, and what is missing on the way from the target
  directory. -/
  | createDir (path : Text)
  | write (path : Text) (data : Bytes)
  /-- The file at `index` of the list goes from one name to another with this content. -/
  | rename (path dest : Text) (index : Int) (content : Bytes)
  | remove (path : Text)
  deriving DecidableEq

structure Deed where
  task : Nat
  dir : Text
  effect : PasteEffect
  deriving DecidableEq

structure PasteIo where
  /-- `Path::exists`. -/
  present : List Deed → Text → Bool
  createFile : List Deed → Text → Bool
  createDirAll : List Deed → Text → Bool
  write : List Deed → Bool
  /-- `flush`: how much is in the file when it fails. -/
  flush : List Deed → Option Nat
  rename : List Deed → Text → Text → Bool

def PasteIo.emptyFolder : PasteIo where
  present _ _ := false
  createFile _ _ := true
  createDirAll _ _ := true
  write _ := true
  flush _ := none
  rename _ _ _ := true

/-- `CliprdrError`, by the place where it is made. -/
inductive PasteError where
  | failedToRead (streamId msgFlags : Int)
  | invalidFileIndex (index : Int)
  | noDownloadPath (path : Text)
  | noParent (path : Text)
  | fileError (path : Text)
  | failedToReadContents
  | failedToDownloadAll

/-- `PasteTaskHandle`, with its `PasteTaskProgress`.  The writer is what was written to it.
The fields `task` and `log` only record. -/
structure PasteTaskHandle where
  listIndex : Int
  offset : Nat
  totalSize : Nat
  currentSize : Nat
  downloadFileIndex : Int
  downloadFileSize : Nat
  downloadFilePath : Text
  fileHandle : Option Bytes
  error : Option PasteError
  isCanceled : Bool
  targetDir : Text
  files : List FileDescription
  task : Nat
  log : List Deed

/-- `PasteTask`, with the `retry_count` of its worker. -/
structure PasteTask where
  handle : Option PasteTaskHandle
  retryCount : Nat

def invalidFileIndex : Int := -1

def recvRetryTimes : Nat := 3

def blockSize : Nat := 4 * 1024 * 1024

/-- `DOWNLOAD_EXTENSION`, with the dot before it. -/
def downloadExtension : Text := ".rddownload".toList

def decimal (n : Nat) : Text := Nat.toDigits 10 n

/-- The name that `get_first_filename` tries in the round `i`. -/
def numberedName (path : Text) (kind : FileKind) (i : Nat) : Option Text :=
  match kind with
  | .file =>
    match extension path with
    | some ext =>
      some (withFileName path ((fileStem path).getD [] ++ '-' :: decimal i ++ '.' :: ext))
    | none => some (path ++ ' ' :: '(' :: decimal i ++ [')'])
  | .directory => some (path ++ ' ' :: '(' :: decimal i ++ [')'])
  | .symlink => none

/-- The loop of `get_first_filename`, from the round `i`. -/
def firstFree (present : Text → Bool) (path : Text) (kind : FileKind) :
    Nat → Nat → Option Text
  | 0, _ => none
  | rounds + 1, i =>
    match numberedName path kind i with
    | none => none
    | some name =>
      if present name then firstFree present path kind rounds (i + 1) else some name

def getFirstFilename (present : Text → Bool) (path : Text) (kind : FileKind) : Option Text :=
  if present path then firstFree present path kind 9999998 1 else some path

def getNewFilename (present : Text → Bool) (dir : Text) (desc : FileDescription) : Option Text :=
  let path := join dir desc.name
  if present path then getFirstFilename present path desc.kind else some path

namespace PasteTaskHandle

variable (io : PasteIo)

/-- `files.get`. -/
def getFile (h : PasteTaskHandle) (index : Int) : Option FileDescription :=
  if index < 0 then none else h.files[index.toNat]?

def did (h : PasteTaskHandle) (effect : PasteEffect) : PasteTaskHandle :=
  { h with log := h.log ++ [⟨h.task, h.targetDir, effect⟩] }

def isFinished (h : PasteTaskHandle) : Bool :=
  h.isCanceled || h.error.isSome || h.files.length ≤ h.listIndex

/-- `on_cancelled`.  There is no file with the empty name. -/
def onCancelled (h : PasteTaskHandle) : PasteTaskHandle :=
  let h := { h with fileHandle := none }
  if h.downloadFilePath = [] then h else h.did (.remove h.downloadFilePath)

def onError (h : PasteTaskHandle) (error : PasteError) : PasteTaskHandle :=
  { h with error := some error }.onCancelled

/-- What is in the file after `flush`. -/
def flushed (h : PasteTaskHandle) (written : Bytes) : Bytes :=
  match io.flush h.log with
  | none => written
  | some n => written.take n

/-- The end of `on_done`: the file gets its name. -/
def renameFile (h : PasteTaskHandle) (dest : Text) (content : Bytes) : PasteTaskHandle :=
  let renamed :=
    if io.rename h.log h.downloadFilePath dest then
      h.did (.rename h.downloadFilePath dest h.downloadFileIndex content)
    else h
  { renamed with downloadFilePath := [], downloadFileIndex := invalidFileIndex }

def onDone (h : PasteTaskHandle) : PasteTaskHandle :=
  match h.fileHandle with
  | none => h
  | some written =>
    if h.downloadFileIndex = invalidFileIndex then h
    else
      let closed := { h with fileHandle := none }
      match closed.getFile h.downloadFileIndex with
      | none => closed
      | some desc =>
        match getNewFilename (io.present h.log) h.targetDir desc with
        | none => closed
        | some dest => closed.renameFile io dest (h.flushed io written)

def onFinished (h : PasteTaskHandle) : PasteTaskHandle :=
  let h := if h.error.isSome then h.onCancelled else h.onDone io
  if h.currentSize ≠ h.totalSize then { h with error := some .failedToDownloadAll } else h

/-- `open_new_writer`, from `File::create` on. -/
def createDownload (h : PasteTaskHandle) (file : FileDescription) (path : Text) : PasteTaskHandle :=
  if io.createFile h.log path then
    { h.did (.createFile path) with
      downloadFileIndex := h.listIndex
      downloadFileSize := file.size
      downloadFilePath := path
      fileHandle := some [] }
  else { h with error := some (.fileError path) }

def openNewWriter (h : PasteTaskHandle) : PasteTaskHandle × Option PasteError :=
  match h.getFile h.listIndex with
  | none => (h, some (.invalidFileIndex h.listIndex))
  | some file =>
    let original := join h.targetDir file.name
    match getFirstFilename (io.present h.log) (original ++ downloadExtension) file.kind with
    | none => (h, some (.noDownloadPath original))
    | some path =>
      if components path = [] then (h, some (.noParent original))
      else if io.present h.log (parent path) then (h.createDownload io file path, none)
      else
        let h' := h.did (.createDir (parent path))
        if io.createDirAll h.log (parent path) then (h'.createDownload io file path, none)
        else (h', some (.fileError (parent path)))

/-- `update_next`, for a file without content. -/
def createEmpty (h : PasteTaskHandle) (desc : FileDescription) : PasteTaskHandle :=
  match getNewFilename (io.present h.log) h.targetDir desc with
  | none => h
  | some path => if io.createFile h.log path then h.did (.createFile path) else h

/-- `update_next`, for a directory. -/
def createDirectory (h : PasteTaskHandle) (desc : FileDescription) : PasteTaskHandle :=
  let path := join h.targetDir desc.name
  if io.present h.log path then h else h.did (.createDir path)

/-- The loop of `update_next` over the files from the index `i` on. -/
def nextFile : List FileDescription → Nat → PasteTaskHandle →
    PasteTaskHandle × Option PasteError
  | [], _, h => (h, none)
  | desc :: rest, i, h =>
    match desc.kind with
    | .file =>
      if desc.size = 0 then nextFile rest (i + 1) (h.createEmpty io desc)
      else { h with listIndex := i, offset := 0 }.openNewWriter io
    | .directory => nextFile rest (i + 1) (h.createDirectory io desc)
    | .symlink => nextFile rest (i + 1) h

/-- The end of `update_next`: without a writer, nothing is left. -/
def closeList (h : PasteTaskHandle) : PasteTaskHandle :=
  if h.fileHandle.isNone then
    { h with listIndex := h.files.length, offset := 0, downloadFileSize := 0 }
  else h

/-- `update_next`, from the loop on. -/
def advance (h : PasteTaskHandle) : PasteTaskHandle × Option PasteError :=
  match nextFile io (h.files.drop (h.listIndex + 1).toNat) (h.listIndex + 1).toNat h with
  | (h, some e) => (h, some e)
  | (h, none) => (h.closeList, none)

def updateNext (h : PasteTaskHandle) (size : Nat) : PasteTaskHandle × Option PasteError :=
  if h.isFinished then (h, none)
  else
    let h := { h with currentSize := h.currentSize + size }
    if h.listIndex = -1 ∨ h.downloadFileSize ≤ h.offset + size then
      (if h.listIndex = -1 then h else h.onDone io).advance io
    else ({ h with offset := h.offset + size }.closeList, none)

/-- `send_file_contents_request`: the request, if one is made. -/
def fileContentsRequest (h : PasteTaskHandle) : Except PasteError (Option FileContentsRequest) :=
  if h.isFinished then .ok none
  else
    match h.getFile h.listIndex with
    | none => .error (.invalidFileIndex h.listIndex)
    | some file =>
      .ok (some
        { connId := file.connId
          streamId := h.listIndex
          listIndex := h.listIndex
          dwFlags := 2
          nPositionHigh := asI32 (h.offset >>> 32)
          nPositionLow := asI32 (h.offset &&& 0xFFFFFFFF)
          cbRequested := asI32 (min blockSize (file.size - h.offset)) })

/-- `send_file_contents_request`, with what its callers do about an error. -/
def sendRequest (h : PasteTaskHandle) : PasteTaskHandle × Option FileContentsRequest :=
  match h.fileContentsRequest with
  | .ok request => (h, request)
  | .error e => (h.onError e, none)

def handleFileContentsResponse (h : PasteTaskHandle) (data : Bytes) :
    PasteTaskHandle × Option PasteError :=
  match h.fileHandle with
  | none => (h, some (.fileError h.downloadFilePath))
  | some written =>
    let h' := h.did (.write h.downloadFilePath data)
    if io.write h.log then
      { h' with fileHandle := some (written ++ data) }.updateNext io data.length
    else (h', some (.fileError h.downloadFilePath))

end PasteTaskHandle

namespace PasteTask

def new : PasteTask := ⟨none, 0⟩

def log (t : PasteTask) : List Deed := (t.handle.map (·.log)).getD []

def tasks (t : PasteTask) : Nat := (t.handle.map (·.task + 1)).getD 0

def isFinished (t : PasteTask) : Bool := (t.handle.map (·.isFinished)).getD true

def newHandle (t : PasteTask) (targetDir : Text) (files : List FileDescription) :
    PasteTaskHandle where
  listIndex := -1
  offset := 0
  totalSize := (files.map (·.size)).sum % 2 ^ 64
  currentSize := 0
  downloadFileIndex := invalidFileIndex
  downloadFileSize := 0
  downloadFilePath := []
  fileHandle := none
  error := none
  isCanceled := false
  targetDir := targetDir
  files := files
  task := t.tasks
  log := t.log

def start (io : PasteIo) (t : PasteTask) (targetDir : Text) (files : List FileDescription) :
    PasteTask × Option FileContentsRequest :=
  if t.isFinished then
    let h := ((t.newHandle targetDir files).updateNext io 0).1
    if h.isFinished then ({ t with handle := some (h.onFinished io) }, none)
    else ({ t with handle := some h.sendRequest.1 }, h.sendRequest.2)
  else (t, none)

def cancel (t : PasteTask) : PasteTask :=
  match t.handle with
  | none => t
  | some h => { t with handle := some { h with isCanceled := true }.onCancelled }

def proceed (io : PasteIo) (retryCount : Nat) (h : PasteTaskHandle) :
    PasteTask × Option FileContentsRequest :=
  if h.isFinished then (⟨some (h.onFinished io), 0⟩, none)
  else (⟨some h.sendRequest.1, retryCount⟩, h.sendRequest.2)

def recvResponse (io : PasteIo) (t : PasteTask) (r : FileContentsResponse) :
    PasteTask × Option FileContentsRequest :=
  match t.handle with
  | none => (t, none)
  | some h =>
    if h.isFinished then (t, none)
    else if r.streamId ≠ h.listIndex then (t, none)
    else if r.msgFlags ≠ 1 then
      let retryCount := t.retryCount + 1
      if recvRetryTimes < retryCount then
        proceed io retryCount { h with error := some (.failedToRead r.streamId r.msgFlags) }
      else proceed io retryCount h
    else
      match h.getFile r.streamId with
      | none => (t, none)
      | some file =>
        if file.connId ≠ r.connId then (t, none)
        else
          match h.handleFileContentsResponse io r.requestedData with
          | (h, none) => proceed io t.retryCount h
          | (h, some e) => proceed io t.retryCount (h.onError e)

/-- The worker, without an answer: `late` if the last request is too long ago. -/
def recvTimeout (io : PasteIo) (t : PasteTask) (late : Bool) : PasteTask :=
  match t.handle with
  | none => t
  | some h =>
    if !h.isFinished && late then
      ⟨some ({ h with error := some .failedToReadContents }.onFinished io), 0⟩
    else t

def handleFormatDataResponse (io : PasteIo) (t : PasteTask) (targetDir : Text) (pdu : Bytes)
    (connId : Int) : PasteTask × Option FileContentsRequest :=
  match FileDescription.parseFileDescriptors pdu connId with
  | .ok files => t.start io targetDir files
  | .error _ => (t, none)

end PasteTask

inductive PasteEvent where
  | formatData (io : PasteIo) (targetDir : Text) (pdu : Bytes) (connId : Int)
  | cancel
  | response (io : PasteIo) (r : FileContentsResponse)
  | timeout (io : PasteIo) (late : Bool)

def PasteTask.handleEvent (t : PasteTask) : PasteEvent → PasteTask × Option FileContentsRequest
  | .formatData io targetDir pdu connId => t.handleFormatDataResponse io targetDir pdu connId
  | .cancel => (t.cancel, none)
  | .response io r => t.recvResponse io r
  | .timeout io late => (t.recvTimeout io late, none)

def PasteTask.step (t : PasteTask) (event : PasteEvent) : PasteTask := (t.handleEvent event).1

end RustDesk
