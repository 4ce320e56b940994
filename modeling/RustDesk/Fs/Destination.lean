import RustDesk.Fs.Write
import RustDesk.Lib.Symlink

/-!
# Where a write job writes

The functions of a job that change the disk, by the paths they use.  A `Destination` is a
file system with symbolic links, and the record of what was done to it: each act with the
state it was done in.  Whether an operation succeeds is up to the file system, within what
its state allows (`PathIo`).

The names of a job are checked twice.  `validate_file_name_no_traversal` looks at the text;
`validate_no_symlink_components` looks at every component below the base.  What is then
opened is not the path that was checked but the path with `.download` or `.digest` behind
it, and its last component has not been looked at.
-/

namespace RustDesk

open UnixPath

inductive PathOp where
  | createDir (p : Text)
  /-- `File::create` and `fs::write`. -/
  | createFile (p : Text)
  /-- `OpenOptions` with `create` and `write`. -/
  | openWrite (p : Text)
  | rename (src dst : Text)
  | removeFile (p : Text)

def PathOp.paths : PathOp → List Text
  | .createDir p | .createFile p | .openWrite p | .removeFile p => [p]
  | .rename src dst => [src, dst]

def PathOp.apply (fs : FileSystem) : PathOp → Option FileSystem
  | .createDir p => fs.createDir p
  | .createFile p | .openWrite p => fs.createFile p
  | .rename src dst => fs.rename src dst
  | .removeFile p => fs.removeFile p

structure PathIo where
  allows : FileSystem → PathOp → Bool
  /-- `symlink_metadata` fails, and not because nothing is there. -/
  refuses : FileSystem → Text → Bool
  /-- `Path::exists` gets an answer. -/
  sees : FileSystem → Text → Bool
  /-- `sync_all` of the file that is open. -/
  syncs : Bool

def PathIo.willing : PathIo := ⟨fun _ _ => true, fun _ _ => false, fun _ _ => true, true⟩

structure Act where
  fs : FileSystem
  op : PathOp

structure Destination where
  fs : FileSystem
  acts : List Act

/-- `validate_no_symlink_components`, from the components on. -/
def validateComponents (io : PathIo) (fs : FileSystem) : Text → List Text → Except String Unit
  | _, [] => .ok ()
  | current, c :: cs =>
    if c = dot then validateComponents io fs current cs
    else if c = dotdot then .error "invalid file name component"
    else
      let current := UnixPath.join current c
      if io.refuses fs current then .error "failed to validate path component"
      else
        match fs.entry current with
        | none => .error "failed to validate path component"
        | some l =>
          if (fs.linkAt l).isSome then .error "symlink path component is not allowed"
          else validateComponents io fs current cs

def validateNoSymlinkComponents (io : PathIo) (fs : FileSystem) (base name : Text) :
    Except String Unit :=
  if name = [] then .ok ()
  else if isAbsolute name then .error "invalid file name component"
  else validateComponents io fs base (components name)

def symlinkFree (io : PathIo) (fs : FileSystem) (base name : String) : Bool :=
  (validateNoSymlinkComponents io fs base.toList name.toList).isOk

namespace Destination

def perform (io : PathIo) (t : Destination) (op : PathOp) : Bool × Destination :=
  let acts := t.acts ++ [⟨t.fs, op⟩]
  match if io.allows t.fs op then op.apply t.fs else none with
  | some fs => (true, ⟨fs, acts⟩)
  | none => (false, ⟨t.fs, acts⟩)

/-- `Path::exists`. -/
def pathExists (io : PathIo) (t : Destination) (p : Text) : Bool :=
  io.sees t.fs p &&
    match t.fs.resolve p with
    | some l => (t.fs.node l).isSome
    | none => false

def createDirs (io : PathIo) : Destination → List Text → Destination
  | t, [] => t
  | t, q :: qs =>
    if t.fs.isDir q then createDirs io t qs
    else
      let made := t.perform io (.createDir q)
      if made.1 then createDirs io made.2 qs else made.2

def createDirAll (io : PathIo) (t : Destination) (p : Text) : Destination :=
  createDirs io t ((components p).inits.tail.map (render (isAbsolute p)))

/-- `format!("{}.download", path)`. -/
def downloadPath (path : String) : Text := (path ++ ".download").toList

/-- `format!("{}.digest", path)`. -/
def digestPath (path : String) : Text := (path ++ ".digest").toList

/-- `modify_time`.  Setting the time makes, opens and moves nothing. -/
def modifyTime (io : PathIo) (t : Destination) (job : TransferJob) : Destination :=
  match job.currentPath (symlinkFree io t.fs) with
  | none => t
  | some (path, _) =>
    let t := (t.perform io (.removeFile (digestPath path))).2
    (t.perform io (.rename (downloadPath path) path.toList)).2

def removeDownloadFile (io : PathIo) (t : Destination) (job : TransferJob) : Destination :=
  match job.currentPath (symlinkFree io t.fs) with
  | none => t
  | some (path, _) =>
    let t := (t.perform io (.removeFile (downloadPath path))).2
    (t.perform io (.removeFile (digestPath path))).2

def beginFile (io : PathIo) (t : Destination) (path : String) : Destination :=
  let cleared :=
    if t.pathExists io (digestPath path) then t.perform io (.removeFile (digestPath path))
    else (true, t)
  if cleared.1 then
    let created := cleared.2.perform io (.createFile (downloadPath path))
    if created.1 then (created.2.perform io (.createFile (digestPath path))).2 else created.2
  else cleared.2

def openTarget (io : PathIo) (t : Destination) (job : TransferJob) (p : String)
    (entry : FileEntry) : Destination :=
  match job.type with
  | .printer => (t.perform io (.createFile p.toList)).2
  | .generic =>
    match TransferJob.joinValidatedPath (symlinkFree io t.fs) p entry.name with
    | .error _ => t
    | .ok path => (t.createDirAll io (parent path.toList)).beginFile io path

def write (io : PathIo) (t : Destination) (job : TransferJob) (block : FileTransferBlock) :
    Destination :=
  if block.id ≠ job.id then t
  else
    match job.dataSource with
    | .memoryCursor _ => t
    | .filePath p =>
      match job.files[asUsize block.fileNum]? with
      | none => t
      | some entry =>
        if asUsize block.fileNum ≠ asUsize job.fileNum ∨ job.dataStream = none then
          let t := t.modifyTime io job
          if job.dataStream.isSome && !io.syncs then t else t.openTarget io job p entry
        else t

/-- `set_stream_offset`.  A file that is only read is not opened for writing. -/
def setStreamOffset (io : PathIo) (t : Destination) (job : TransferJob) (fileNum : Nat) :
    Destination :=
  match job.dataSource with
  | .memoryCursor _ => t
  | .filePath p =>
    match job.files[fileNum]? with
    | none => t
    | some entry =>
      match job.resolveEntryPath (symlinkFree io t.fs) p entry.name with
      | none => t
      | some path =>
        if t.pathExists io (downloadPath path) && t.pathExists io (digestPath path) then
          (t.perform io (.openWrite (downloadPath path))).2
        else t

inductive Call where
  | write (block : FileTransferBlock)
  | modifyTime
  | removeDownloadFile
  | setStreamOffset (fileNum : Nat)

def run (io : PathIo) (fs : FileSystem) (job : TransferJob) : Call → List Act
  | .write block => (write io ⟨fs, []⟩ job block).acts
  | .modifyTime => (modifyTime io ⟨fs, []⟩ job).acts
  | .removeDownloadFile => (removeDownloadFile io ⟨fs, []⟩ job).acts
  | .setStreamOffset fileNum => (setStreamOffset io ⟨fs, []⟩ job fileNum).acts

end Destination
end RustDesk
