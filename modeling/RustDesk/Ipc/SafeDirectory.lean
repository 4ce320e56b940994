import RustDesk.Ipc.Listener
import RustDesk.Lib.Run

/-!
# The protected socket and the directory it is served from

`ensure_secure_ipc_parent_dir` works on the directory that it has opened.  Every later call goes
by the path again.  As soon as root owns the directory that the path leads to, nobody else can
put another one in its place; but before root takes it over it belongs to a user, who can.

**If the opened directory is still the one at the path whenever root takes over a directory of
another user, the socket that is served is the entry of its path, in a directory of root that
only root can write to** (`served_from_safe_directory`), and stays that.  A user who moves the
directory away between `open` and `fchown` has the socket served from a directory of the user's
own (`served_from_foreign_directory`).
-/

namespace RustDesk.Ipc

open Inodes

def parentName (appName : Name) : Name := appName ++ "-service"

variable {appName : Name}

theorem parentDir_eq : parentDir appName = ["tmp", parentName appName] := rfl

theorem ipcPath_eq : ipcPath appName = ["tmp", parentName appName, ipcBasename postfixService] :=
  rfl

theorem pidFile_eq : pidFile appName = ["tmp", parentName appName, pidBasename postfixService] :=
  rfl

theorem parentName_length : 8 ≤ (parentName appName).length := by
  have hsuffix : "-service".length = 8 := by decide
  rw [parentName, String.length_append, hsuffix]
  exact Nat.le_add_left 8 _

theorem parentName_ne_dot : parentName appName ≠ "." := by
  intro h
  have hlength : 8 ≤ (parentName appName).length := parentName_length
  rw [h] at hlength
  exact absurd hlength (by decide)

theorem parentName_ne_dotdot : parentName appName ≠ ".." := by
  intro h
  have hlength : 8 ≤ (parentName appName).length := parentName_length
  rw [h] at hlength
  exact absurd hlength (by decide)

def OwnEntry (n : Name) : Prop := n = ipcBasename postfixService ∨ n = pidBasename postfixService

theorem parentName_not_ownEntry : ¬ OwnEntry (parentName appName) := by
  have hsplit : ∀ a b : List Char, appName.toList ++ "-service".toList = a ++ b →
      b.length = 8 → b = "-service".toList := fun a b h hlength =>
    (List.append_inj_right' h.symm (by rw [hlength]; decide))
  rintro (h | h)
  · have hlist := congrArg String.toList h
    rw [parentName, String.toList_append] at hlist
    exact absurd (hsplit "ipc".toList "_service".toList hlist (by decide)) (by decide)
  · have hlist := congrArg String.toList h
    rw [parentName, String.toList_append] at hlist
    exact absurd (hsplit "ipc_ser".toList "vice.pid".toList hlist (by decide)) (by decide)

theorem tmp_not_ownEntry : ¬ OwnEntry "tmp" := by
  rintro (h | h) <;> exact absurd h (by decide)

theorem Removal.ownEntry (r : Removal) : OwnEntry r.name := by
  cases r with
  | stale | socket => exact .inl rfl
  | pid => exact .inr rfl

/-- A directory of root in which others cannot move what is not theirs. -/
def Guarded (fs : FileSystem) (d : Inode) : Prop :=
  ∃ st, fs.stat d = some st ∧ st.fileType = .directory ∧ st.owner = 0 ∧
    (st.mode.othersWrite = false ∨ st.mode.sticky = true)

/-- **The parent lies in a sticky directory** of root, to which `/tmp` leads, through a link or
not, on a way that users cannot change. -/
structure Based (fs : FileSystem) (t : Inode) : Prop where
  tmp : ∃ k, fs.Leads (¬ OwnEntry ·) maxLinks root ["tmp"] k t
  guarded : Guarded fs t

structure Owned (appName : Name) (fs : FileSystem) (t fd : Inode) : Prop where
  held : fs.Held t (parentName appName) fd
  owned : ∃ st, fs.stat fd = some st ∧ st.fileType = .directory ∧ st.owner = 0

structure Secured (appName : Name) (fs : FileSystem) (t fd : Inode) : Prop where
  held : fs.Held t (parentName appName) fd
  stat : fs.stat fd = some ⟨.directory, 0, 0o711⟩

structure Serving (appName : Name) (fs : FileSystem) (t socket : Inode) : Prop where
  secured : ∃ fd, Secured appName fs t fd ∧ fs.lookup fd (ipcBasename postfixService) = some socket
  socket : ∃ st, fs.stat socket = some st ∧ st.fileType = .socket

theorem Guarded.held {fs : FileSystem} {d i : Inode} {n : Name} (h : Guarded fs d)
    (hlookup : fs.lookup d n = some i) {st : Stat} (hst : fs.stat i = some st)
    (howner : st.owner = 0) : fs.Held d n i := by
  obtain ⟨st', hst', -, howner', hmode⟩ := h
  exact ⟨hlookup, st', hst', howner', hmode.imp id fun hsticky => ⟨hsticky, st, hst, howner⟩⟩

section Paths

variable {fs : FileSystem} {t fd socket : Inode}

theorem Based.resolve (h : Based fs t) : ∃ k, ∀ ns, fs.resolve ("tmp" :: ns) = fs.walk k t ns := by
  obtain ⟨k, hleads⟩ := h.tmp
  exact ⟨k, hleads.walk⟩

theorem Based.inParent (h : Based fs t) :
    fs.inParent (parentDir appName) = .ok (t, parentName appName) := by
  obtain ⟨k, hwalk⟩ := h.resolve
  have hresolve : fs.resolve ["tmp"] = some t := (hwalk []).trans (FileSystem.walk_nil ..)
  simp [FileSystem.inParent, parentDir_eq, hresolve]

theorem Based.openDirectory (h : Based fs t)
    (hopen : fs.openDirectory (parentDir appName) = .ok fd) :
    fs.lookup t (parentName appName) = some fd ∧
      ∃ st, fs.stat fd = some st ∧ st.fileType = .directory := by
  unfold FileSystem.openDirectory at hopen
  rw [h.inParent] at hopen
  simp only [Except.bind, bind] at hopen
  split at hopen
  · cases hopen
  · rename_i i hlookup
    split at hopen
    · rename_i htype
      cases hopen
      obtain ⟨st, hst, hdir⟩ := Option.map_eq_some_iff.mp htype
      exact ⟨hlookup, st, hst, hdir⟩
    · cases hopen

theorem Secured.resolve (h : Secured appName fs t fd) (hbased : Based fs t) :
    ∃ k, ∀ ns, fs.resolve ("tmp" :: parentName appName :: ns) = fs.walk k fd ns := by
  obtain ⟨k, hwalk⟩ := hbased.resolve
  have hlink : fs.linkAt fd = none := FileSystem.linkAt_of_stat h.stat (.inl rfl)
  exact ⟨k, fun ns => (hwalk _).trans
    (FileSystem.walk_of_lookup h.held.1 hlink parentName_ne_dot parentName_ne_dotdot k ns)⟩

theorem Secured.inParent (h : Secured appName fs t fd) (hbased : Based fs t) (n : Name) :
    fs.inParent ["tmp", parentName appName, n] = .ok (fd, n) := by
  obtain ⟨k, hwalk⟩ := h.resolve hbased
  have hresolve : fs.resolve ["tmp", parentName appName] = some fd :=
    (hwalk []).trans (FileSystem.walk_nil ..)
  simp [FileSystem.inParent, hresolve]

theorem Serving.resolve (h : Serving appName fs t socket) (hbased : Based fs t) :
    fs.resolve (ipcPath appName) = some socket := by
  obtain ⟨⟨fd, hsecured, hlookup⟩, st, hst, htype⟩ := h
  obtain ⟨k, hwalk⟩ := hsecured.resolve hbased
  have hlink : fs.linkAt socket = none := FileSystem.linkAt_of_stat hst (.inr htype)
  calc fs.resolve (ipcPath appName) = fs.walk k fd [ipcBasename postfixService] := hwalk _
    _ = fs.walk k socket [] := FileSystem.walk_of_lookup hlookup hlink (by decide) (by decide) k []
    _ = some socket := FileSystem.walk_nil ..

end Paths

/-- **What every step leaves**: an entry that is held and not the listener's own, a guarded
directory, and a directory that is secured already; each file keeps its type, and root what it
owns. -/
structure Careful (fs fs' : FileSystem) : Prop where
  held : ∀ d n i, ¬ OwnEntry n → fs.Held d n i → fs'.Held d n i
  guarded : ∀ d, Guarded fs d → Guarded fs' d
  hardened : ∀ d, fs.stat d = some ⟨.directory, 0, 0o711⟩ → fs'.stat d = some ⟨.directory, 0, 0o711⟩
  files : ∀ i st, fs.stat i = some st → ∃ st', fs'.stat i = some st' ∧
    st'.fileType = st.fileType ∧ (st.owner = 0 → st'.owner = 0)

section Careful

variable {fs fs' : FileSystem}

theorem Careful.of_same (hheld : ∀ d n i, ¬ OwnEntry n → fs.Held d n i → fs'.Held d n i)
    (hstat : ∀ i st, fs.stat i = some st → fs'.stat i = some st) : Careful fs fs' where
  held := hheld
  guarded d h := by
    obtain ⟨st, hst, hrest⟩ := h
    exact ⟨st, hstat d st hst, hrest⟩
  hardened d h := hstat d _ h
  files i st h := ⟨st, hstat i st h, rfl, fun howner => howner⟩

theorem careful_act {uid : Uid} (huid : uid ≠ 0) (a : Action) : Careful fs (fs.act uid a) where
  held _ _ _ _ h := h.act huid a
  guarded d h := by
    obtain ⟨st, hst, htype, howner, hmode⟩ := h
    obtain ⟨mode, hact, hsame⟩ := FileSystem.stat_act huid a hst
    exact ⟨_, hact, htype, howner, by rw [hsame howner]; exact hmode⟩
  hardened d h := by
    obtain ⟨mode, hact, hsame⟩ := FileSystem.stat_act huid a h
    rw [hsame rfl] at hact
    exact hact
  files i st h := by
    obtain ⟨mode, hact, -⟩ := FileSystem.stat_act huid a h
    exact ⟨_, hact, rfl, fun howner => howner⟩

theorem careful_create {d i : Inode} {n : Name} {x : Inodes.Node}
    (h : fs.create d n x = .ok (fs', i)) : Careful fs fs' :=
  .of_same (fun _ _ _ _ hheld => hheld.of_create h) (FileSystem.create_eq_ok h).2.2.2.1

theorem careful_unlink {d : Inode} {n : Name} {rmdir : Bool} (hn : OwnEntry n)
    (h : fs.unlink d n rmdir = .ok fs') : Careful fs fs' := by
  rw [FileSystem.unlink_eq_ok h]
  refine .of_same (fun e m i hm hheld => hheld.dropEntry (.inr fun heq => hm (heq ▸ hn)))
    fun i st hst => (FileSystem.stat_dropEntry d n i).trans hst

theorem careful_chown (fd : Inode) : Careful fs (fs.chown fd 0) where
  held _ _ _ _ h := h.chown fd
  guarded d h := by
    obtain ⟨st, hst, htype, howner, hmode⟩ := h
    exact ⟨st, FileSystem.stat_chown_root hst howner, htype, howner, hmode⟩
  hardened d h := FileSystem.stat_chown_root h rfl
  files i st h := by
    by_cases hi : i = fd
    · subst hi
      exact ⟨_, FileSystem.stat_chown h 0, rfl, fun _ => rfl⟩
    · exact ⟨st, (FileSystem.stat_chown_of_ne hi 0).trans h, rfl, fun howner => howner⟩

theorem othersWrite_octal : Mode.othersWrite 0o711 = false := by decide

theorem careful_chmod {fd : Inode} {mode : Mode}
    (hmode : mode = 0o711 ∨ ∃ st, fs.stat fd = some st ∧ st.fileType ≠ .directory) :
    Careful fs (fs.chmod fd mode) := by
  have hclosed : mode.othersWrite = false ∨
      ∃ st, fs.stat fd = some st ∧ st.fileType ≠ .directory := by
    rcases hmode with rfl | hfile
    · exact .inl othersWrite_octal
    · exact .inr hfile
  have hother : ∀ d st, fs.stat d = some st → st.fileType = .directory → d = fd → mode = 0o711 := by
    rintro d st hst htype rfl
    rcases hmode with heq | ⟨st', hst', hfile⟩
    · exact heq
    · exact absurd (Option.some.inj (hst.symm.trans hst') ▸ htype) hfile
  refine ⟨fun _ _ _ _ h => h.chmod hclosed, fun d h => ?_, fun d h => ?_, fun i st h => ?_⟩
  · obtain ⟨st, hst, htype, howner, hbits⟩ := h
    by_cases hd : d = fd
    · obtain rfl := hother d st hst htype hd
      subst hd
      exact ⟨_, FileSystem.stat_chmod hst _, htype, howner, .inl othersWrite_octal⟩
    · exact ⟨st, (FileSystem.stat_chmod_of_ne hd mode).trans hst, htype, howner, hbits⟩
  · by_cases hd : d = fd
    · obtain rfl := hother d _ h rfl hd
      subst hd
      exact FileSystem.stat_chmod h _
    · exact (FileSystem.stat_chmod_of_ne hd mode).trans h
  · by_cases hi : i = fd
    · subst hi
      exact ⟨_, FileSystem.stat_chmod h mode, rfl, fun howner => howner⟩
    · exact ⟨st, (FileSystem.stat_chmod_of_ne hi mode).trans h, rfl, fun howner => howner⟩

variable {t fd socket : Inode}

theorem Careful.based (h : Careful fs fs') (hbased : Based fs t) : Based fs' t :=
  ⟨hbased.tmp.imp fun _ hleads => hleads.of_held h.held fun j st hst => by
    obtain ⟨st', hst', htype, -⟩ := h.files j st hst
    exact ⟨st', hst', htype⟩, h.guarded t hbased.guarded⟩

theorem Careful.owned (h : Careful fs fs') (howned : Owned appName fs t fd) :
    Owned appName fs' t fd := by
  obtain ⟨st, hst, htype, howner⟩ := howned.owned
  obtain ⟨st', hst', htype', howner'⟩ := h.files fd st hst
  exact ⟨h.held _ _ _ parentName_not_ownEntry howned.held, st', hst', htype'.trans htype,
    howner' howner⟩

theorem Careful.secured (h : Careful fs fs') (hsecured : Secured appName fs t fd) :
    Secured appName fs' t fd :=
  ⟨h.held _ _ _ parentName_not_ownEntry hsecured.held, h.hardened fd hsecured.stat⟩

theorem Careful.serving (h : Careful fs fs') (hserving : Serving appName fs t socket)
    (hentry : ∀ d, fs.stat d = some ⟨.directory, 0, 0o711⟩ →
      fs.lookup d (ipcBasename postfixService) = some socket →
      fs'.lookup d (ipcBasename postfixService) = some socket) :
    Serving appName fs' t socket := by
  obtain ⟨⟨fd, hsecured, hlookup⟩, st, hst, htype⟩ := hserving
  obtain ⟨st', hst', htype', -⟩ := h.files socket st hst
  exact ⟨⟨fd, h.secured hsecured, hentry fd hsecured.stat hlookup⟩, st', hst', htype'.trans htype⟩

end Careful

def At (appName : Name) (fs : FileSystem) (t : Inode) : Stage → Prop
  | .openParent | .mkdirParent | .reopenParent | .err => True
  | .statParent fd => ∃ st, fs.stat fd = some st ∧ st.fileType = .directory ∧
      (st.owner = 0 → fs.Held t (parentName appName) fd)
  | .adopt fd => ∃ st, fs.stat fd = some st ∧ st.fileType = .directory
  | .restat fd | .harden fd _ => Owned appName fs t fd
  | .checkPid _ | .openStale _ | .openScrub | .statEntry .. | .unlinkEntry .. | .bind =>
    ∃ fd, Secured appName fs t fd
  | .applyPermissions socket | .setPermissions socket | .discard socket | .openPid socket
  | .statPid socket _ | .ok socket => Serving appName fs t socket
  | .chmodPid socket fd => Serving appName fs t socket ∧
      ∃ st, fs.stat fd = some st ∧ st.fileType = .regular

namespace Listener

/-- **The invariant.** -/
structure Sound (appName : Name) (t : Inode) (s : Listener) : Prop where
  based : Based s.fs t
  stage : At appName s.fs t s.stage

/-- **The socket is served from a safe directory**: when the listener is returned, its socket is
the entry of its path, in a directory of root with mode 0711. -/
def Served (appName : Name) (s : Listener) : Prop :=
  ∀ socket, s.stage = .ok socket → ∃ d n, s.fs.inParent (ipcPath appName) = .ok (d, n) ∧
    s.fs.lookup d n = some socket ∧ s.fs.stat d = some ⟨.directory, 0, 0o711⟩

/-- The path still leads to the directory that is taken over. -/
def Unmoved (appName : Name) (s : Listener) : Event → Prop
  | .call _ => ∀ fd, s.stage = .adopt fd → s.fs.openDirectory (parentDir appName) = .ok fd
  | _ => True

instance decidableUnmoved (s : Listener) : ∀ ev, Decidable (s.Unmoved appName ev)
  | .call _ =>
    match hstage : s.stage with
    | .adopt fd =>
      decidable_of_iff (s.fs.openDirectory (parentDir appName) = .ok fd)
        ⟨fun hopen fd' heq => by
          rw [hstage] at heq
          cases heq
          exact hopen,
        fun hkept => hkept fd hstage⟩
    | .openParent | .mkdirParent | .reopenParent | .statParent _ | .restat _ | .harden ..
    | .checkPid _ | .openStale _ | .openScrub | .statEntry .. | .unlinkEntry .. | .bind
    | .applyPermissions _ | .setPermissions _ | .discard _ | .openPid _ | .statPid ..
    | .chmodPid .. | .ok _ | .err =>
      isTrue fun fd heq => by rw [hstage] at heq; cases heq
  | .user .. | .probed _ => isTrue trivial

variable {s : Listener} {t : Inode}

theorem Sound.served (h : s.Sound appName t) : s.Served appName := by
  intro socket hstage
  have hserving : Serving appName s.fs t socket := by
    have hat := h.stage
    rw [hstage] at hat
    exact hat
  obtain ⟨fd, hsecured, hlookup⟩ := hserving.secured
  exact ⟨fd, _, hsecured.inParent h.based _, hlookup, hsecured.stat⟩

theorem Sound.user (h : s.Sound appName t) {uid : Uid} (huid : uid ≠ 0) (a : Action) :
    Sound appName t { s with fs := s.fs.act uid a } := by
  have hcareful : Careful s.fs (s.fs.act uid a) := careful_act huid a
  have hserving : ∀ socket, Serving appName s.fs t socket →
      Serving appName (s.fs.act uid a) t socket := fun socket hserving =>
    hcareful.serving hserving fun d hst hlookup =>
      FileSystem.Held.lookup_act ⟨hlookup, _, hst, rfl, .inl othersWrite_octal⟩ huid a
  refine ⟨hcareful.based h.based, ?_⟩
  have hat := h.stage
  show At appName (s.fs.act uid a) t s.stage
  cases hstage : s.stage with
  | openParent | mkdirParent | reopenParent | err => trivial
  | statParent fd =>
    rw [hstage] at hat
    obtain ⟨st, hst, htype, hroot⟩ := hat
    obtain ⟨mode, hact, -⟩ := FileSystem.stat_act huid a hst
    exact ⟨_, hact, htype, fun howner => (hroot howner).act huid a⟩
  | adopt fd =>
    rw [hstage] at hat
    obtain ⟨st, hst, htype⟩ := hat
    obtain ⟨st', hst', htype', -⟩ := hcareful.files fd st hst
    exact ⟨st', hst', htype'.trans htype⟩
  | restat fd | harden fd scrub =>
    rw [hstage] at hat
    exact hcareful.owned hat
  | checkPid | openStale | openScrub | statEntry | unlinkEntry | bind =>
    rw [hstage] at hat
    exact hat.imp fun fd hsecured => hcareful.secured hsecured
  | applyPermissions socket | setPermissions socket | discard socket | openPid socket
  | statPid socket | ok socket =>
    rw [hstage] at hat
    exact hserving socket hat
  | chmodPid socket fd =>
    rw [hstage] at hat
    obtain ⟨hat, st, hst, htype⟩ := hat
    obtain ⟨st', hst', htype', -⟩ := hcareful.files fd st hst
    exact ⟨hserving socket hat, st', hst', htype'.trans htype⟩

theorem attempt_eq_ok {α : Type} {fails : Bool} {r : Except Errno α} {a : α}
    (h : attempt fails r = .ok a) : r = .ok a := by
  unfold attempt at h
  split at h
  · cases h
  · exact h

theorem fstat_eq_ok {fd : Inode} {st : Stat} (h : s.fstat fd = .ok st) :
    s.fs.stat fd = some st := by
  unfold fstat at h
  split at h
  · rename_i st' hst
    rw [hst, Except.ok.inj h]
  · cases h

theorem bind_of_eq_ok {α β : Type} {x : Except Errno α} {a : α} (h : x = .ok a)
    (f : α → Except Errno β) : (x >>= f) = f a := by
  rw [h]
  rfl

theorem Sound.goto (h : s.Sound appName t) {stage : Stage} (hat : At appName s.fs t stage) :
    Sound appName t { s with stage } :=
  ⟨h.based, hat⟩

theorem Sound.opened (h : s.Sound appName t) {fd : Inode}
    (hopen : s.fs.openDirectory (parentDir appName) = .ok fd) :
    At appName s.fs t (.statParent fd) := by
  obtain ⟨hlookup, st, hst, htype⟩ := h.based.openDirectory hopen
  exact ⟨st, hst, htype, fun howner => h.based.guarded.held hlookup hst howner⟩

theorem Sound.checkMode (h : s.Sound appName t) {fd : Inode} (howned : Owned appName s.fs t fd)
    {st : Stat} (hst : s.fs.stat fd = some st) (adopted : Bool) :
    Sound appName t { s with stage := .checkMode fd st adopted } := by
  refine h.goto ?_
  unfold Stage.checkMode
  dsimp only
  split
  case isTrue => exact howned
  case isFalse hmode =>
    obtain ⟨st', hst', htype, howner⟩ := howned.owned
    obtain rfl := Option.some.inj (hst'.symm.trans hst)
    have hexact : st' = ⟨.directory, 0, 0o711⟩ := by
      obtain ⟨fileType, owner, mode⟩ := st'
      obtain rfl : mode = 0o711 := Decidable.not_not.mp hmode
      cases htype
      cases howner
      rfl
    exact ⟨fd, howned.held, hexact ▸ hst⟩

theorem Sound.statParent (h : s.Sound appName t) {fd : Inode} (hstage : s.stage = .statParent fd)
    (umask : Mode) (endpoint : Endpoint) (fails : Bool) :
    (s.call appName umask endpoint fails).Sound appName t := by
  have hat := h.stage
  rw [hstage] at hat
  obtain ⟨st, hst, htype, hroot⟩ := hat
  unfold call
  rw [hstage]
  dsimp only
  split
  case h_1 st' hok =>
    obtain rfl := Option.some.inj (hst.symm.trans (fstat_eq_ok (attempt_eq_ok hok)))
    split
    · exact h.goto trivial
    · split
      · exact h.goto ⟨st, hst, htype⟩
      · split
        · exact h.goto trivial
        case isFalse howner =>
          have hzero : st.owner = 0 := Decidable.not_not.mp howner
          exact h.checkMode ⟨hroot hzero, st, hst, htype, hzero⟩ hst false
  case h_2 => exact h.goto trivial

theorem Sound.adopt (h : s.Sound appName t) {fd : Inode} (hstage : s.stage = .adopt fd)
    (hkept : s.fs.openDirectory (parentDir appName) = .ok fd)
    (umask : Mode) (endpoint : Endpoint) (fails : Bool) :
    (s.call appName umask endpoint fails).Sound appName t := by
  obtain ⟨hlookup, st, hst, htype⟩ := h.based.openDirectory hkept
  unfold call
  rw [hstage]
  dsimp only
  split
  case h_1 fs hok =>
    obtain rfl := Except.ok.inj (attempt_eq_ok hok)
    have hcareful : Careful s.fs (s.fs.chown fd 0) := careful_chown fd
    have hbased := hcareful.based h.based
    have howned := FileSystem.stat_chown hst 0
    exact ⟨hbased, hbased.guarded.held ((FileSystem.lookup_chown ..).trans hlookup) howned rfl,
      _, howned, htype, rfl⟩
  case h_2 => exact h.goto trivial

variable {endpoint : Endpoint}

theorem Sound.bound (h : s.Sound appName t) (hstage : s.stage = .bind) (umask : Mode)
    (hlawful : endpoint.Lawful) (fails : Bool) :
    (s.call appName umask endpoint fails).Sound appName t := by
  have hat := h.stage
  rw [hstage] at hat
  obtain ⟨fd, hsecured⟩ := hat
  unfold call
  rw [hstage]
  dsimp only
  split
  case h_1 fs socket hok =>
    obtain ⟨mode, hbind⟩ := hlawful.bind _ _ _ (attempt_eq_ok hok)
    have hcreate : s.fs.create fd (ipcBasename postfixService) ⟨0, mode, .socket⟩ =
        .ok (fs, socket) :=
      (bind_of_eq_ok (hsecured.inParent h.based _) _).symm.trans hbind
    have hcareful := careful_create hcreate
    obtain ⟨hentry, hsocket, -⟩ := FileSystem.create_eq_ok hcreate
    exact ⟨hcareful.based h.based, ⟨fd, hcareful.secured hsecured, hentry⟩, _, hsocket, rfl⟩
  case h_2 => exact h.goto trivial

theorem Sound.chmodPath (h : s.Sound appName t) {socket : Inode}
    (hserving : Serving appName s.fs t socket) {mode : Mode} {fs : FileSystem}
    (hok : s.fs.chmodPath (ipcPath appName) mode = .ok fs) :
    Based fs t ∧ Serving appName fs t socket := by
  unfold FileSystem.chmodPath at hok
  rw [hserving.resolve h.based] at hok
  cases hok
  obtain ⟨st, hst, htype⟩ := hserving.socket
  have hcareful : Careful s.fs (s.fs.chmod socket mode) :=
    careful_chmod (.inr ⟨st, hst, by rw [htype]; nofun⟩)
  exact ⟨hcareful.based h.based, hcareful.serving hserving fun d _ hlookup =>
    (FileSystem.lookup_chmod socket d mode _).trans hlookup⟩

theorem Sound.openPid (h : s.Sound appName t) {socket : Inode}
    (hstage : s.stage = .openPid socket) (umask : Mode) (endpoint : Endpoint) (fails : Bool) :
    (s.call appName umask endpoint fails).Sound appName t := by
  have hserving := h.stage
  rw [hstage] at hserving
  obtain ⟨fd, hsecured, -⟩ := hserving.secured
  unfold call
  rw [hstage]
  dsimp only
  split
  case h_1 fs i hok =>
    have hopen := attempt_eq_ok hok
    unfold FileSystem.openWrite at hopen
    rw [pidFile_eq, bind_of_eq_ok (hsecured.inParent h.based _)] at hopen
    dsimp only at hopen
    split at hopen
    · have hcareful := careful_create hopen
      exact ⟨hcareful.based h.based, hcareful.serving hserving fun d _ hlookup =>
        (FileSystem.create_eq_ok hopen).2.2.2.2 _ _ _ hlookup⟩
    · split at hopen
      · cases hopen
        exact h.goto hserving
      · cases hopen
  case h_2 => exact h.goto hserving

theorem Sound.discard (h : s.Sound appName t) {socket : Inode}
    (hserving : Serving appName s.fs t socket) {fs : FileSystem}
    (hok : s.removeFile (ipcPath appName) = .ok fs) : Based fs t := by
  obtain ⟨fd, hsecured, -⟩ := hserving.secured
  unfold removeFile at hok
  rw [ipcPath_eq, bind_of_eq_ok (hsecured.inParent h.based _)] at hok
  exact (careful_unlink (.inl rfl) hok).based h.based

theorem At.of_secured {fs : FileSystem} {fd : Inode} (h : Secured appName fs t fd)
    (scrub : Bool) : At appName fs t (.afterCheck scrub) := by
  cases scrub <;> exact ⟨fd, h⟩

theorem At.removed {fs : FileSystem} {fd : Inode} (h : Secured appName fs t fd) (i : Inode)
    (entry : Removal) : At appName fs t (.removed i entry) := by
  cases entry with
  | stale scrub => exact At.of_secured h scrub
  | socket | pid => exact ⟨fd, h⟩

theorem At.failed {fs : FileSystem} {fd : Inode} (h : Secured appName fs t fd)
    (entry : Removal) : At appName fs t (.failed entry) := by
  cases entry with
  | stale scrub => exact At.of_secured h scrub
  | socket | pid => trivial

/-- **A call keeps the invariant**, if the directory that it takes over is still at the path. -/
theorem Sound.call (h : s.Sound appName t) (umask : Mode) (hlawful : endpoint.Lawful) (fails : Bool)
    (hkept : ∀ fd, s.stage = .adopt fd → s.fs.openDirectory (parentDir appName) = .ok fd) :
    (s.call appName umask endpoint fails).Sound appName t := by
  obtain ⟨fs, stage⟩ := s
  have hat := h.stage
  cases stage with
  | openParent | reopenParent =>
    unfold Listener.call
    dsimp only
    split
    case h_1 fd hok => exact h.goto (h.opened (attempt_eq_ok hok))
    all_goals exact h.goto trivial
  | mkdirParent =>
    unfold Listener.call
    dsimp only
    split
    case h_1 fs i hok =>
      have hmkdir := attempt_eq_ok hok
      unfold Listener.mkdir at hmkdir
      rw [bind_of_eq_ok h.based.inParent] at hmkdir
      exact ⟨(careful_create hmkdir).based h.based, trivial⟩
    all_goals exact h.goto trivial
  | statParent fd => exact h.statParent rfl umask endpoint fails
  | adopt fd => exact h.adopt rfl (hkept fd rfl) umask endpoint fails
  | restat fd =>
    unfold Listener.call
    dsimp only
    split
    case h_1 st hok =>
      split
      · exact h.goto trivial
      · exact h.checkMode hat (fstat_eq_ok (attempt_eq_ok hok)) true
    case h_2 => exact h.goto trivial
  | harden fd scrub =>
    unfold Listener.call
    dsimp only
    split
    case h_1 fs hok =>
      obtain rfl := Except.ok.inj (attempt_eq_ok hok)
      have hcareful : Careful fs (fs.chmod fd (expectedIpcParentMode postfixService)) :=
        careful_chmod (.inl rfl)
      obtain ⟨⟨fileType, owner, mode⟩, hst, rfl, rfl⟩ := hat.owned
      exact ⟨hcareful.based h.based, fd, (hcareful.owned hat).held, FileSystem.stat_chmod hst _⟩
    case h_2 => exact h.goto trivial
  | checkPid scrub =>
    exact h
  | openStale scrub =>
    obtain ⟨fd, hsecured⟩ := hat
    unfold Listener.call
    dsimp only
    split
    · exact h.goto ⟨fd, hsecured⟩
    · exact h.goto (At.of_secured hsecured scrub)
  | openScrub =>
    unfold Listener.call
    dsimp only
    split
    · exact h.goto hat
    · exact h.goto trivial
  | statEntry i entry =>
    obtain ⟨fd, hsecured⟩ := hat
    unfold Listener.call
    dsimp only
    split
    · exact h.goto ⟨fd, hsecured⟩
    · exact h.goto (At.removed hsecured i entry)
    · exact h.goto (At.failed hsecured entry)
  | unlinkEntry i entry isDir =>
    obtain ⟨fd, hsecured⟩ := hat
    unfold Listener.call
    dsimp only
    split
    case h_1 fs hok =>
      have hcareful := careful_unlink entry.ownEntry (attempt_eq_ok hok)
      exact ⟨hcareful.based h.based, At.removed (hcareful.secured hsecured) i entry⟩
    · exact h.goto (At.removed hsecured i entry)
    · exact h.goto (At.failed hsecured entry)
  | bind => exact h.bound rfl umask hlawful fails
  | applyPermissions socket =>
    unfold Listener.call
    dsimp only
    split
    case h_1 fs hok =>
      obtain ⟨mode, hchmod⟩ := hlawful.applyPermissions _ _ _ (attempt_eq_ok hok)
      obtain ⟨hbased, hserving⟩ := h.chmodPath hat hchmod
      exact ⟨hbased, hserving⟩
    case h_2 => exact h.goto trivial
  | setPermissions socket =>
    unfold Listener.call
    dsimp only
    split
    case h_1 fs hok =>
      obtain ⟨hbased, hserving⟩ := h.chmodPath hat (attempt_eq_ok hok)
      exact ⟨hbased, hserving⟩
    case h_2 => exact h.goto hat
  | discard socket =>
    unfold Listener.call
    dsimp only
    split
    case h_1 fs hok => exact ⟨h.discard hat (attempt_eq_ok hok), trivial⟩
    case h_2 => exact h.goto trivial
  | openPid socket => exact h.openPid rfl umask endpoint fails
  | statPid socket fd =>
    unfold Listener.call
    dsimp only
    split
    case h_1 st hok =>
      split
      case isTrue hregular =>
        exact h.goto ⟨hat, st, fstat_eq_ok (attempt_eq_ok hok), hregular.1⟩
      case isFalse => exact h.goto hat
    case h_2 => exact h.goto hat
  | chmodPid socket fd =>
    obtain ⟨hserving, st, hst, htype⟩ := hat
    unfold Listener.call
    dsimp only
    split
    case h_1 fs hok =>
      obtain rfl := Except.ok.inj (attempt_eq_ok hok)
      have hcareful : Careful fs (fs.chmod fd 0o600) :=
        careful_chmod (.inr ⟨st, hst, by rw [htype]; nofun⟩)
      exact ⟨hcareful.based h.based, hcareful.serving hserving fun d _ hlookup =>
        (FileSystem.lookup_chmod ..).trans hlookup⟩
    case h_2 => exact h.goto hserving
  | ok socket | err =>
    exact h

theorem Sound.step (h : s.Sound appName t) (umask : Mode)
    (hlawful : endpoint.Lawful) (ev : Event) (hkept : s.Unmoved appName ev) :
    (s.step appName umask endpoint ev).Sound appName t := by
  cases ev with
  | user uid a => exact h.user uid.2 a
  | call fails => exact h.call umask hlawful fails hkept
  | probed alive =>
    unfold Listener.step probed
    dsimp only
    split
    case h_1 scrub hstage =>
      have hat := h.stage
      rw [hstage] at hat
      cases alive <;> exact h.goto hat
    case h_2 => exact h

/-- **The protected socket is served from a safe directory**, whatever users left there and do
in between, in every run in which each directory that root takes over from a user is still the
one at the path. -/
theorem served_from_safe_directory (umask : Mode) {endpoint : Endpoint}
    (hlawful : endpoint.Lawful) {fs : FileSystem} {t : Inode} (hbased : Based fs t)
    (events : List Event)
    (hkept : Run.Along (step appName umask endpoint) (Unmoved appName) (init fs) events) :
    Run.Always (step appName umask endpoint) (Served appName) (init fs) events := by
  have hsound : Run.Always (step appName umask endpoint) (Sound appName t) (init fs) events :=
    Run.always_of_along (fun s ev hs hev => hs.step umask hlawful ev hev) ⟨hbased, trivial⟩ hkept
  exact fun pre hpre => (hsound pre hpre).served

def openEndpoint : Endpoint where
  bind fs path := fs.bind 0 path 0o755
  applyPermissions fs path := fs.chmodPath path 0o777

theorem lawful_openEndpoint : openEndpoint.Lawful :=
  ⟨fun _ _ _ h => ⟨0o755, h⟩, fun _ _ _ h => ⟨0o777, h⟩⟩

def foreignDirectory : FileSystem :=
  ⟨[⟨0, 0o755, .directory 0 (AList.insert "tmp" 1 ∅)⟩,
    ⟨0, 0o1777, .directory 0 (AList.insert "RustDesk-service" 2 ∅)⟩,
    ⟨1000, 0o777, .directory 1 (AList.insert "ipc_service" 3 ∅)⟩,
    ⟨1000, 0o755, .socket⟩]⟩

theorem based_foreignDirectory : Based foreignDirectory 1 where
  tmp := ⟨maxLinks, .down ⟨by decide +kernel, ⟨.directory, 0, 0o755⟩, by decide +kernel, rfl,
    .inl (by decide)⟩ ⟨tmp_not_ownEntry, by decide, by decide⟩
    ⟨⟨.directory, 0, 0o1777⟩, by decide +kernel, rfl⟩ (.here ..)⟩
  guarded := ⟨⟨.directory, 0, 0o1777⟩, by decide +kernel, rfl, rfl, .inr (by decide)⟩

def calls (k : Nat) : List Event := List.replicate k (.call false)

/-- The user's socket is scrubbed, and the user can neither move the directory nor put back a
socket. -/
theorem served_foreign_directory :
    Run.Always (step "RustDesk" 0o022 openEndpoint) (Served "RustDesk") (init foreignDirectory)
      (calls 3 ++ [.user ⟨1000, by decide⟩ (.rename 1 "RustDesk-service" 1 "moved")] ++ calls 2 ++
        [.probed false] ++ calls 12 ++
        [.user ⟨1000, by decide⟩ (.unlink 2 "ipc_service" false)]) :=
  served_from_safe_directory 0o022 lawful_openEndpoint based_foreignDirectory _ (by decide +kernel)

/-- **The socket is served from a user's directory**: the user moves the directory away after it
has been opened and before root takes it over, and makes another one. -/
theorem served_from_foreign_directory :
    Based foreignDirectory 1 ∧ openEndpoint.Lawful ∧
      ¬ Run.Always (step "RustDesk" 0o022 openEndpoint) (Served "RustDesk")
        (init foreignDirectory)
        (calls 2 ++ [.user ⟨1000, by decide⟩ (.rename 1 "RustDesk-service" 1 "moved"),
          .user ⟨1000, by decide⟩ (.mkdir 1 "RustDesk-service" 0o755)] ++ calls 3 ++
          [.probed false] ++ calls 12) := by
  refine ⟨based_foreignDirectory, lawful_openEndpoint, fun h => ?_⟩
  obtain ⟨d, n, hparent, -, hstat⟩ := h.last 5 (by decide +kernel)
  have hpath : (Run.exec (step "RustDesk" 0o022 openEndpoint) (init foreignDirectory)
      (calls 2 ++ [.user ⟨1000, by decide⟩ (.rename 1 "RustDesk-service" 1 "moved"),
        .user ⟨1000, by decide⟩ (.mkdir 1 "RustDesk-service" 0o755)] ++ calls 3 ++
        [.probed false] ++ calls 12)).fs.inParent (ipcPath "RustDesk") =
      .ok (4, "ipc_service") := by decide +kernel
  obtain ⟨rfl, rfl⟩ := Prod.mk.inj (Except.ok.inj (hparent.symm.trans hpath))
  exact absurd hstat (by decide +kernel)

end Listener

end RustDesk.Ipc
