import RustDesk.Lib.Inodes

/-!
# The protected listener and its directory

`new_listener` with the postfix `_service`, run by root: it makes or takes over the parent
directory of the socket, asks whether a listener is alive, removes what is left of an old one,
and serves.  Each of its calls into the file system is one step, and between two of them other
users do what they have permission for.

What a pid file holds, and whether the process and the listener it tells of answer, is left to
the environment, so that `check_pid` is one answer here.  The socket is bound by the endpoint,
which is not part of this program.  Any call may fail also for a reason of its own.
-/

namespace RustDesk.Ipc

open Inodes

def postfixService : String := "_service"

def isServiceIpcPostfix (post : String) : Bool :=
  post = "_service" || "_uinput_".toList.isPrefixOf post.toList

def ipcParentDirForUid (appName : Name) (uid : Uid) (post : String) : List Name :=
  if isServiceIpcPostfix post then ["tmp", appName ++ "-service"]
  else ["tmp", appName ++ "-" ++ toString uid]

def expectedIpcParentMode (post : String) : Mode :=
  if isServiceIpcPostfix post then 0o0711 else 0o0700

def ipcBasename (post : String) : Name := "ipc" ++ post

def pidBasename (post : String) : Name := ipcBasename post ++ ".pid"

def parentDir (appName : Name) : List Name := ipcParentDirForUid appName 0 postfixService

def ipcPath (appName : Name) : List Name := parentDir appName ++ [ipcBasename postfixService]

/-- `get_pid_file`. -/
def pidFile (appName : Name) : List Name := parentDir appName ++ [pidBasename postfixService]

/-- An endpoint of the socket library: it binds a socket to a path, and then sets the
permissions of the path as its security attributes say. -/
structure Endpoint where
  bind : FileSystem → List Name → Except Errno (FileSystem × Inode)
  applyPermissions : FileSystem → List Name → Except Errno FileSystem

/-- What the listener relies on: the socket is bound by `bind` as root, with some mode, and the
permissions are set by `chmod`. -/
structure Endpoint.Lawful (endpoint : Endpoint) : Prop where
  bind : ∀ fs path r, endpoint.bind fs path = .ok r → ∃ mode, fs.bind 0 path mode = .ok r
  applyPermissions : ∀ fs path fs', endpoint.applyPermissions fs path = .ok fs' →
    ∃ mode, fs.chmodPath path mode = .ok fs'

/-- Which entry is removed, and why: a stale socket that `check_pid` removes, with what is to be
done after that, or one of the two entries that are scrubbed. -/
inductive Removal where
  | stale (scrub : Bool)
  | socket
  | pid
  deriving DecidableEq

/-- The call that comes next.  From `openParent` to `harden` it is `ensure_secure_ipc_parent_dir`,
`checkPid` and `openStale` are `check_pid`, `openScrub` is `scrub_secure_ipc_parent_dir`,
`statEntry` and `unlinkEntry` are `remove_parent_entry_via_fd`, and `openPid` to `chmodPid` are
`write_pid_file`, whose `ftruncate` and `write` change nothing that is kept here. -/
inductive Stage where
  | openParent
  | mkdirParent
  | reopenParent
  | statParent (fd : Inode)
  | adopt (fd : Inode)
  | restat (fd : Inode)
  | harden (fd : Inode) (scrub : Bool)
  | checkPid (scrub : Bool)
  | openStale (scrub : Bool)
  | openScrub
  | statEntry (fd : Inode) (entry : Removal)
  | unlinkEntry (fd : Inode) (entry : Removal) (isDir : Bool)
  | bind
  | applyPermissions (socket : Inode)
  | setPermissions (socket : Inode)
  | discard (socket : Inode)
  | openPid (socket : Inode)
  | statPid (socket : Inode) (fd : Inode)
  | chmodPid (socket : Inode) (fd : Inode)
  | ok (socket : Inode)
  | err
  deriving DecidableEq

namespace Removal

def name : Removal → Name
  | .stale _ | .socket => ipcBasename postfixService
  | .pid => pidBasename postfixService

end Removal

namespace Stage

/-- After `check_pid` has found no listener. -/
def afterCheck (scrub : Bool) : Stage := if scrub then .openScrub else .bind

def removed (fd : Inode) : Removal → Stage
  | .stale scrub => afterCheck scrub
  | .socket => .statEntry fd .pid
  | .pid => .bind

/-- The entry could not be removed, which `check_pid` only logs. -/
def failed : Removal → Stage
  | .stale scrub => afterCheck scrub
  | .socket | .pid => .err

/-- The mode of a directory of root, as `fstat` told it. -/
def checkMode (fd : Inode) (st : Stat) (adopted : Bool) : Stage :=
  let expected := expectedIpcParentMode postfixService
  let repaired := st.mode ≠ expected
  let untrusted := st.mode &&& 0o022 ≠ 0
  if repaired then .harden fd true else .checkPid (adopted || untrusted)

end Stage

structure Listener where
  fs : FileSystem
  stage : Stage

/-- A user does something, a call of the listener is made, or `check_pid` has an answer. -/
inductive Event where
  | user (uid : {uid : Uid // uid ≠ 0}) (action : Action)
  | call (fails : Bool)
  | probed (alive : Bool)

def attempt {α : Type} (fails : Bool) (r : Except Errno α) : Except Errno α :=
  if fails then .error .other else r

namespace Listener

def fstat (s : Listener) (fd : Inode) : Except Errno Stat :=
  match s.fs.stat fd with
  | some st => .ok st
  | none => .error .other

/-- `fstatat` without following a link. -/
def fstatat (s : Listener) (fd : Inode) (name : Name) : Except Errno Stat :=
  match s.fs.lookup fd name with
  | some i => s.fstat i
  | none => .error .noent

/-- `mkdir` of a path. -/
def mkdir (s : Listener) (path : List Name) (mode : Mode) :
    Except Errno (FileSystem × Inode) := do
  let (d, n) ← s.fs.inParent path
  s.fs.mkdir 0 d n mode

/-- `remove_file` of a path. -/
def removeFile (s : Listener) (path : List Name) : Except Errno FileSystem := do
  let (d, n) ← s.fs.inParent path
  s.fs.unlink d n false

variable (appName : Name) (umask : Mode) (endpoint : Endpoint)

def call (s : Listener) (fails : Bool) : Listener :=
  match s.stage with
  | .openParent =>
    match attempt fails (s.fs.openDirectory (parentDir appName)) with
    | .ok fd => { s with stage := .statParent fd }
    | .error .noent => { s with stage := .mkdirParent }
    | .error _ => { s with stage := .err }
  | .mkdirParent =>
    let mode := expectedIpcParentMode postfixService &&& ~~~umask
    match attempt fails (s.mkdir (parentDir appName) mode) with
    | .ok (fs, _) => ⟨fs, .reopenParent⟩
    | .error .exist => { s with stage := .reopenParent }
    | .error _ => { s with stage := .err }
  | .reopenParent =>
    match attempt fails (s.fs.openDirectory (parentDir appName)) with
    | .ok fd => { s with stage := .statParent fd }
    | .error _ => { s with stage := .err }
  | .statParent fd =>
    match attempt fails (s.fstat fd) with
    | .ok st =>
      if st.fileType ≠ .directory then { s with stage := .err }
      else if st.owner ≠ 0 ∧ isServiceIpcPostfix postfixService then
        { s with stage := .adopt fd }
      else if st.owner ≠ 0 then { s with stage := .err }
      else { s with stage := .checkMode fd st false }
    | .error _ => { s with stage := .err }
  | .adopt fd =>
    match attempt fails (.ok (s.fs.chown fd 0)) with
    | .ok fs => ⟨fs, .restat fd⟩
    -- the owner stays the other user, which is an error
    | .error _ => { s with stage := .err }
  | .restat fd =>
    match attempt fails (s.fstat fd) with
    | .ok st =>
      if st.owner ≠ 0 then { s with stage := .err }
      else { s with stage := .checkMode fd st true }
    | .error _ => { s with stage := .err }
  | .harden fd scrub =>
    match attempt fails (.ok (s.fs.chmod fd (expectedIpcParentMode postfixService))) with
    | .ok fs => ⟨fs, .checkPid scrub⟩
    | .error _ => { s with stage := .err }
  | .checkPid _ => s
  | .openStale scrub =>
    match attempt fails (s.fs.openDirectory (parentDir appName)) with
    | .ok fd => { s with stage := .statEntry fd (.stale scrub) }
    | .error _ => { s with stage := .afterCheck scrub }
  | .openScrub =>
    match attempt fails (s.fs.openDirectory (parentDir appName)) with
    | .ok fd => { s with stage := .statEntry fd .socket }
    | .error _ => { s with stage := .err }
  | .statEntry fd entry =>
    match attempt fails (s.fstatat fd entry.name) with
    | .ok st => { s with stage := .unlinkEntry fd entry (st.fileType = .directory) }
    | .error .noent => { s with stage := .removed fd entry }
    | .error _ => { s with stage := .failed entry }
  | .unlinkEntry fd entry isDir =>
    match attempt fails (s.fs.unlink fd entry.name isDir) with
    | .ok fs => ⟨fs, .removed fd entry⟩
    | .error .noent => { s with stage := .removed fd entry }
    | .error _ => { s with stage := .failed entry }
  | .bind =>
    match attempt fails (endpoint.bind s.fs (ipcPath appName)) with
    | .ok (fs, socket) => ⟨fs, .applyPermissions socket⟩
    | .error _ => { s with stage := .err }
  | .applyPermissions socket =>
    match attempt fails (endpoint.applyPermissions s.fs (ipcPath appName)) with
    | .ok fs => ⟨fs, .setPermissions socket⟩
    | .error _ => { s with stage := .err }
  | .setPermissions socket =>
    match attempt fails (s.fs.chmodPath (ipcPath appName) 0o0666) with
    | .ok fs => ⟨fs, .openPid socket⟩
    | .error _ => { s with stage := .discard socket }
  | .discard _ =>
    match attempt fails (s.removeFile (ipcPath appName)) with
    | .ok fs => ⟨fs, .err⟩
    | .error _ => { s with stage := .err }
  | .openPid socket =>
    match attempt fails (s.fs.openWrite 0 (pidFile appName) (0o0600 &&& ~~~umask)) with
    | .ok (fs, fd) => ⟨fs, .statPid socket fd⟩
    | .error _ => { s with stage := .ok socket }
  | .statPid socket fd =>
    match attempt fails (s.fstat fd) with
    | .ok st =>
      if st.fileType = .regular ∧ st.owner = 0 then { s with stage := .chmodPid socket fd }
      else { s with stage := .ok socket }
    | .error _ => { s with stage := .ok socket }
  | .chmodPid socket fd =>
    match attempt fails (.ok (s.fs.chmod fd 0o600)) with
    | .ok fs => ⟨fs, .ok socket⟩
    | .error _ => { s with stage := .ok socket }
  | .ok _ => s
  | .err => s

/-- `check_pid` has an answer: whether it has found a listener that is alive. -/
def probed (s : Listener) (alive : Bool) : Listener :=
  match s.stage with
  | .checkPid scrub => { s with stage := if alive then .bind else .openStale scrub }
  | _ => s

def step (s : Listener) : Event → Listener
  | .user uid action => { s with fs := s.fs.act uid action }
  | .call fails => s.call appName umask endpoint fails
  | .probed alive => s.probed alive

/-- `new_listener` is called. -/
def init (fs : FileSystem) : Listener := ⟨fs, .openParent⟩

end Listener
end RustDesk.Ipc
