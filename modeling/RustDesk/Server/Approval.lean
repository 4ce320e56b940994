import RustDesk.Server.Authentication

/-!
# What the user approves

The connection manager shows the user what a peer asks for, from the last
`Data::Login` it was sent.  A click then authorizes what the connection holds at that
moment.  The two agree as long as every login that leaves the connection waiting is
told, or asks for the same as the last one that was.
-/

namespace RustDesk

open Logged Run

inductive SessionKind where
  | fileTransfer
  | portForward (addr : String)
  | viewCamera
  | terminal
  | remote
  deriving DecidableEq

def CmLogin.kind (l : CmLogin) : SessionKind :=
  if l.isFileTransfer then .fileTransfer
  else if l.portForward ≠ "" then .portForward l.portForward
  else if l.isViewCamera then .viewCamera
  else if l.isTerminal then .terminal
  else .remote

def LoginRequest.kind (lr : LoginRequest) : SessionKind :=
  match lr.union with
  | some (.fileTransfer _ _) => .fileTransfer
  | some (.portForward pf) => .portForward (normalizePortForwardTarget pf).1
  | some .viewCamera => .viewCamera
  | some (.terminal _) => .terminal
  | none => .remote

def Effect.cmLogin : Effect → Option CmLogin
  | .toCm (.login l) => some l
  | _ => none

namespace Connection

variable {p : Platform} {env : Env p} {c c' : Connection} {lr : LoginRequest}

/-- What the peer was authorized for: the type of its session, and for a tunnel the
address its socket is connected to. -/
def sessionKind (c : Connection) : Option SessionKind :=
  match c.authedConnId with
  | some .fileTransfer => some .fileTransfer
  | some .portForward => c.portForwardSocket.map .portForward
  | some .viewCamera => some .viewCamera
  | some .terminal => some .terminal
  | some .remote => some .remote
  | none => none

/-- The last `Data::Login` the connection manager was sent. -/
def lastLogin (c : Connection) : Option CmLogin := (c.log.filterMap Effect.cmLogin).getLast?

theorem Plain.cmLogin {e : Effect} (h : Plain e) : e.cmLogin = none := by
  cases e with
  | toCm d => cases d with
    | login => cases h
    | _ => rfl
  | _ => rfl

theorem lastLogin_of_emits {new : List Effect} (hlog : c'.log = c.log ++ new)
    (hplain : ∀ e ∈ new, Plain e) : c'.lastLogin = c.lastLogin := by
  have hnone : new.filterMap Effect.cmLogin = [] :=
    List.filterMap_eq_nil_iff.mpr fun e he => (hplain e he).cmLogin
  unfold lastLogin
  rw [hlog, List.filterMap_append, hnone, List.append_nil]

theorem lastLogin_of_within {φ : Type} {view : Connection → φ}
    (h : Within log view Plain c c') : c'.lastLogin = c.lastLogin := by
  obtain ⟨new, hlog, hplain⟩ := h.emits
  exact lastLogin_of_emits hlog hplain

theorem lastLogin_tryStartCm (c : Connection) (peerId name : String) (authorized : Bool) :
    ∃ l, (c.tryStartCm peerId name authorized).lastLogin = some l ∧ l.peerId = peerId ∧
      l.isFileTransfer = c.fileTransfer.isSome ∧ l.isViewCamera = c.viewCamera ∧
      l.isTerminal = c.terminal ∧ l.portForward = c.portForwardAddress := by
  unfold tryStartCm sendToCm emit lastLogin
  rw [List.filterMap_append]
  exact ⟨_, List.getLast?_concat, rfl, rfl, rfl, rfl, rfl⟩

theorem normalizePortForwardTarget_ne_empty (pf : PortForward) :
    (normalizePortForwardTarget pf).1 ≠ "" := by
  unfold normalizePortForwardTarget
  intro h
  have hlength := congrArg String.length h
  simp at hlength

theorem kind_of_inScopeOf {l : CmLogin} (hscope : c.InScopeOf lr.union)
    (hfile : l.isFileTransfer = c.fileTransfer.isSome) (hcamera : l.isViewCamera = c.viewCamera)
    (hterminal : l.isTerminal = c.terminal) (haddress : l.portForward = c.portForwardAddress) :
    l.kind = lr.kind := by
  obtain ⟨hf, hc, ht, ha⟩ := hscope
  unfold CmLogin.kind LoginRequest.kind
  rw [hfile, hcamera, hterminal, haddress, ha]
  rcases hunion : lr.union with _ | _ | pf | _ | _ <;> rw [hunion] at hf hc ht
  · simp [hf, hc, ht, tunnelTarget]
  · simp [hf]
  · simp [hf, tunnelTarget, normalizePortForwardTarget_ne_empty pf]
  · simp [hf, hc, tunnelTarget]
  · simp [hf, hc, ht, tunnelTarget]

/-- A connection that waits: its fields fit its login, it has no socket, and what the
user was told last is what it holds. -/
structure Pending (c : Connection) : Prop where
  scope : c.InScopeOf c.lr.union
  socket : c.portForwardSocket = none
  told : ∀ l, c.lastLogin = some l → l.kind = c.lr.kind ∧ l.peerId = c.lr.myId

theorem Pending.of_steady (h : c.Pending) (hsame : Steady Plain c c') : c'.Pending := by
  have hlr : c'.lr = c.lr := congrArg Auth.lr hsame.auth
  refine ⟨?_, ?_, ?_⟩
  · rw [hlr]
    exact h.scope.congr hsame.auth
  · rw [← h.socket]
    exact congrArg (fun f => f.2.2) hsame.same
  · rw [lastLogin_of_within hsame, hlr]
    exact h.told

theorem pending_of_tryStartCm {name : String} {authorized : Bool} (hlr : c.lr = lr)
    (hscope : c.InScopeOf lr.union) (hsocket : c.portForwardSocket = none) :
    (c.tryStartCm lr.myId name authorized).Pending := by
  refine ⟨?_, hsocket, ?_⟩
  · have hlr' : (c.tryStartCm lr.myId name authorized).lr = lr := hlr
    rw [hlr']
    exact hscope.congr rfl
  · intro l hl
    obtain ⟨l', hl', hpeer, hfile, hcamera, hterminal, haddress⟩ :=
      lastLogin_tryStartCm c lr.myId name authorized
    rw [hl] at hl'
    cases hl'
    have hlr' : (c.tryStartCm lr.myId name authorized).lr = lr := hlr
    rw [hlr']
    exact ⟨kind_of_inScopeOf hscope hfile hcamera hterminal haddress, hpeer⟩

theorem Logon.waiting {r : Bool × Connection} (h : Logon env c r) (hkeep : r.1 = true)
    (hauth : r.2.authorized = false) :
    c.require2fa.isSome = true ∧ c.fromSwitch = false ∧ Steady Waits c r.2 := by
  cases h with
  | waits hrequired hswitch hsame => exact ⟨hrequired, hswitch, hsame⟩
  | refused => cases hkeep
  | enters s =>
    have hin : (s.authorize.logonResponse env).authorized = true :=
      (congrArg Auth.authorized logonResponse_quiet.same).trans authorize_spec.2.1
    rw [hin] at hauth
    cases hauth

theorem logonAndTell_waiting (hauth : c.authorized = false)
    (hkeep : (c.logonAndTell env lr).1 = true)
    (hauth' : (c.logonAndTell env lr).2.authorized = false) :
    c.require2fa.isSome = true ∧ c.fromSwitch = false ∧
      ∃ c₁, Steady Waits c c₁ ∧
        (c.logonAndTell env lr).2 = c₁.tryStartCm lr.myId lr.myName c₁.authorized := by
  have hlogon : Logon env c (c.sendLogonResponseAndKeepAlive env) :=
    sendLogonResponseAndKeepAlive_logon hauth
  unfold logonAndTell at hkeep hauth' ⊢
  rcases hr : c.sendLogonResponseAndKeepAlive env with ⟨_ | _, c₁⟩
  · rw [hr] at hkeep
    cases hkeep
  · rw [hr] at hlogon hauth'
    obtain ⟨hrequired, hswitch, hsame⟩ := hlogon.waiting rfl hauth'
    exact ⟨hrequired, hswitch, c₁, hsame, rfl⟩

variable {s : Connection}

theorem Staged.socket (h : Staged env lr c s)
    (hsocket : c.portForwardSocket = none) : s.portForwardSocket = none :=
  (congrArg (fun v => v.2.2.2.2.2) h.untouched.same).trans hsocket

theorem Approval.pending {r : Bool × Connection} (h : Approval env lr s r)
    (hlr : s.lr = lr) (hscope : s.InScopeOf lr.union) (hsocket : s.portForwardSocket = none)
    (hauth : s.authorized = false)
    (htold : s.untold env lr = true →
      ∀ l, s.lastLogin = some l → l.kind = lr.kind ∧ l.peerId = lr.myId)
    (hkeep : r.1 = true) (hauth' : r.2.authorized = false) : r.2.Pending := by
  cases h with
  | silent auth _ huntold hsame =>
    have hpending : (s.setConnAuditPrimaryAuth auth).Pending := by
      have hlr' : (s.setConnAuditPrimaryAuth auth).lr = lr := hlr
      refine ⟨?_, hsocket, ?_⟩
      · rw [hlr']
        exact ⟨hscope.1, hscope.2, hscope.3, hscope.4⟩
      · rw [hlr']
        exact htold huntold
    exact hpending.of_steady (ofWaits hsame)
  | tells c₁ hsame hafter =>
    have hlr₁ : c₁.lr = lr := (congrArg Auth.lr hsame.auth).trans hlr
    have hsocket₁ : c₁.portForwardSocket = none :=
      (congrArg (fun f => f.2.2) hsame.same).trans hsocket
    exact (pending_of_tryStartCm hlr₁ (hscope.congr hsame.auth) hsocket₁).of_steady (ofWaits hafter)
  | refused => cases hkeep
  | logsOn c₁ auth _ hsame _ =>
    have hauth₁ : c₁.authorized = false := (congrArg Auth.authorized hsame.auth).trans hauth
    obtain ⟨-, -, c₂, hsame₂, hr⟩ := logonAndTell_waiting hauth₁ hkeep hauth'
    have hall := hsame.trans hsame₂
    have hlr₂ : c₂.lr = lr := (congrArg Auth.lr hall.auth).trans hlr
    have hsocket₂ : c₂.portForwardSocket = none :=
      (congrArg (fun f => f.2.2) hall.same).trans hsocket
    have hscope' : (s.setConnAuditPrimaryAuth auth).InScopeOf lr.union :=
      ⟨hscope.1, hscope.2, hscope.3, hscope.4⟩
    rw [hr]
    exact pending_of_tryStartCm hlr₂ (hscope'.congr hall.auth) hsocket₂

theorem logonResponse_socket {addr : String} (h : c.portForwardSocket = some addr) :
    (c.logonResponse env).portForwardSocket = some addr := by
  unfold logonResponse
  rw [if_pos (by simp [h])]
  exact h

theorem sessionKind_of_connected (h : Connected c s) (hpending : c.Pending) :
    (s.authorize.logonResponse env).sessionKind = some c.lr.kind := by
  obtain ⟨hf, hc, ht, -⟩ := hpending.scope
  have hasked : s.asked = c.asked := congrArg Prod.fst h.demand.same
  have hfile : s.fileTransfer = c.fileTransfer := congrArg (fun v => v.2.2.2.2.1) hasked
  have hcamera : s.viewCamera = c.viewCamera := congrArg (fun v => v.2.2.2.2.2.1) hasked
  have hterminal : s.terminal = c.terminal := congrArg (fun v => v.2.2.2.2.2.2) hasked
  have htype : (s.authorize.logonResponse env).authedConnId = some s.connTypeToAuthorize.2 :=
    (congrArg Auth.authedConnId logonResponse_quiet.same).trans authorize_spec.2.2
  have hnone := h.none hpending.socket
  rw [← hfile] at hf
  rw [← hcamera] at hc
  rw [← hterminal] at ht
  unfold sessionKind LoginRequest.kind
  rw [htype]
  unfold connTypeToAuthorize
  rcases hunion : c.lr.union with _ | _ | pf | _ | _ <;> rw [hunion] at hf hc ht hnone
  · simp [hf, hc, ht, hnone]
  · simp [hf]
  · have hsocket : s.authorize.portForwardSocket = some (normalizePortForwardTarget pf).1 :=
      (congrArg (fun v => v.2.2) authorize_spec.1.same).trans (h.tunnel pf hpending.socket hunion)
    simp [hf, h.tunnel pf hpending.socket hunion, logonResponse_socket hsocket]
  · simp [hf, hc, hnone]
  · simp [hf, hc, ht, hnone]

end Connection

open Connection

variable {p : Platform}

/-- A login that the user is not told of is of the kind and peer of the one that was shown. -/
def ToldOrSame (l : Loop) (i : Env p × Event) : Prop :=
  match i.2 with
  | .message (.loginRequest lr) =>
    l.running = true → l.conn.authorized = false → (l.conn.asking i.1 lr).untold i.1 lr = true →
      ∀ login, l.conn.lastLogin = some login → login.kind = lr.kind ∧ login.peerId = lr.myId
  | _ => True

/-- **The user knows.**  While the loop runs and the peer is not in, the connection holds
what the user was told last. -/
theorem Loop.step_pending (l : Loop) (i : Env p × Event)
    (h : l.running = true → l.conn.authorized = false → l.conn.Pending) (htold : ToldOrSame l i) :
    (l.step i).running = true → (l.step i).conn.authorized = false → (l.step i).conn.Pending := by
  obtain ⟨env, e⟩ := i
  rcases hrunning : l.running with _ | _
  · rw [step_stopped hrunning]
    exact h
  rw [step_running hrunning]
  intro hkeep hauth'
  have hauth : l.conn.authorized = false := by
    cases hin : l.conn.authorized with
    | false => rfl
    | true =>
      have hstays := handle_staysIn (c := l.conn.seeing env) rfl hin e
      rw [hstays.authorized] at hauth'
      cases hauth'
  have hpending : (l.conn.seeing env).Pending :=
    (h hrunning hauth).of_steady (.modifyShared (.refl l.conn))
  have hbefore := handle_before (c := l.conn.seeing env) rfl hauth e
  generalize (l.conn.seeing env).handle env e = r at hkeep hauth' hbefore
  cases hbefore with
  | calm hcalm => exact hpending.of_steady (hcalm.steady hkeep)
  | click hb hlogon =>
    obtain ⟨hrequired, -⟩ := hlogon.waiting (hb hkeep) hauth'
    cases hrequired
  | rejected => cases hkeep
  | login s hb hstaged hscope happroval =>
    have hlr := congrArg (fun i => i.1) hstaged.inputs
    have hauth₁ := (congrArg (fun v => v.2.2.1) hstaged.untouched.same).trans hauth
    refine happroval.pending hlr hscope (hstaged.socket hpending.socket) hauth₁ ?_ (hb hkeep) hauth'
    intro huntold
    rw [untold_congr hstaged.inputs] at huntold
    rw [lastLogin_of_within (ofWaits hstaged.untouched)]
    exact htold hrunning hauth huntold
  | code hb hway =>
    cases hway with
    | ignored hsame => exact hpending.of_steady (ofWaits hsame)
    | accepted _ hsame hlogon hafter =>
      have hauth₁ := (congrArg Auth.authorized hsame.auth).trans hauth
      have hrequired₁ := congrArg Auth.require2fa hsame.auth
      have hauth₂ := (congrArg Auth.authorized hafter.auth).symm.trans hauth'
      obtain ⟨hrequired, -⟩ := logonAndTell_waiting hauth₁ (by rw [hlogon]; exact hb hkeep)
        (by rw [hlogon]; exact hauth₂)
      rw [hrequired₁] at hrequired
      cases hrequired
  | switch hb hway =>
    cases hway with
    | ignored _ hsame => exact hpending.of_steady (ofWaits hsame)
    | accepted s _ _ hstaged _ _ hlogon hafter =>
      have hauth₁ : s.authorized = false := (congrArg (fun v => v.2.2.1) hstaged.same).trans hauth
      have hauth₂ := (congrArg Auth.authorized hafter.auth).symm.trans hauth'
      obtain ⟨-, hswitch, -⟩ := logonAndTell_waiting
        (c := { s with fromSwitch := true }.setConnAuditPrimaryAuth .switchSides) hauth₁
        (by rw [hlogon]; exact hb hkeep) (by rw [hlogon]; exact hauth₂)
      cases hswitch

theorem start_pending (env : Env p) (m : Meta) : (start env m).conn.Pending := by
  have hnew : (Connection.new env m).Pending := by
    refine ⟨⟨?_, ?_, ?_, rfl⟩, rfl, fun l hl => ?_⟩
    · simp [Connection.new, LoginRequest.default]
    · simp [Connection.new, LoginRequest.default]
    · simp [Connection.new, LoginRequest.default]
    · simp [lastLogin, Connection.new, Effect.cmLogin] at hl
  exact hnew.of_steady (ofWaits sendPermissions_steady)

/-- **What the user approves is what is authorized**, in every run in which each login
that waits is told or asks for the same as the last one told. -/
theorem approved_is_authorized (env₀ : Env p) (m : Meta) (is : List (Env p × Event))
    (htold : Along Loop.step ToldOrSame (start env₀ m) is) (env : Env p)
    (hpending : (exec Loop.step (start env₀ m) is).conn.authorized = false)
    (hin : ((exec Loop.step (start env₀ m) is).step (env, .cm .authorize)).conn.authorized = true)
    (login : CmLogin) (hlast : (exec Loop.step (start env₀ m) is).conn.lastLogin = some login) :
    ((exec Loop.step (start env₀ m) is).step (env, .cm .authorize)).conn.sessionKind
        = some login.kind ∧
      ((exec Loop.step (start env₀ m) is).step (env, .cm .authorize)).conn.lr.myId
        = login.peerId := by
  have hknown := (always_of_along (P := fun l : Loop =>
    l.running = true → l.conn.authorized = false → l.conn.Pending)
    (fun l i => Loop.step_pending l i) (fun _ _ => start_pending env₀ m) htold).last
  generalize exec Loop.step (start env₀ m) is = l at hpending hin hlast hknown ⊢
  rcases hrunning : l.running with _ | _
  · rw [Loop.step_stopped hrunning, hpending] at hin
    cases hin
  have hwait : l.conn.Pending := hknown hrunning hpending
  have hclicked : (l.conn.seeing env).clicked.Pending :=
    ⟨⟨hwait.scope.1, hwait.scope.2, hwait.scope.3, hwait.scope.4⟩, hwait.socket, hwait.told⟩
  rw [Loop.step_running hrunning] at hin ⊢
  have hlogon : Logon env (l.conn.seeing env).clicked
      ((l.conn.seeing env).clicked.sendLogonResponseAndKeepAlive env) :=
    sendLogonResponseAndKeepAlive_logon hpending
  have hhandle : ((l.conn.seeing env).handle env (.cm .authorize)).2
      = ((l.conn.seeing env).clicked.sendLogonResponseAndKeepAlive env).2 := rfl
  obtain ⟨hkind, hpeer⟩ := hwait.told login hlast
  rw [hhandle] at hin ⊢
  have hmyId := congrArg (fun v => v.2.2.2.1.myId) hlogon.asked
  refine ⟨?_, hmyId.trans hpeer.symm⟩
  generalize (l.conn.seeing env).clicked.sendLogonResponseAndKeepAlive env = r at hin hlogon ⊢
  cases hlogon with
  | waits hrequired => cases hrequired
  | refused hsame =>
    have hkept : _ = l.conn.authorized := congrArg (fun v => v.2.1) hsame.same
    rw [hpending] at hkept
    cases hkept.symm.trans hin
  | enters s hconnected _ =>
    have hsession : (s.authorize.logonResponse env).sessionKind
        = some (l.conn.seeing env).clicked.lr.kind :=
      sessionKind_of_connected hconnected hclicked
    rw [hkind]
    exact hsession

def fileLogin : LoginRequest :=
  { LoginRequest.default with myId := "peer", union := some (.fileTransfer "" false) }

def terminalLogin : LoginRequest :=
  { LoginRequest.default with myId := "peer", union := some (.terminal ""), password := [0] }

def passwordTime : Env linux :=
  { Env.idle linux with shared := { Shared.idle with temporaryPassword := "secret" } }

/-- The user clicks on the file transfer that was asked for. -/
theorem approved_fileTransfer :
    ((exec Loop.step (start (.idle linux) .idle)
        [(passwordTime, .message (.loginRequest fileLogin))]).step
      (passwordTime, .cm .authorize)).conn.sessionKind = some .fileTransfer := by
  have hnone : (start (.idle linux) .idle).conn.lastLogin = none := by decide
  have htold : Along Loop.step ToldOrSame (start (.idle linux) .idle)
      [(passwordTime, .message (.loginRequest fileLogin))] := by
    refine ⟨fun _ _ _ login hlast => ?_, trivial⟩
    rw [hnone] at hlast
    cases hlast
  obtain ⟨login, hlast, hkind⟩ : ∃ login, (exec Loop.step (start (.idle linux) .idle)
      [(passwordTime, .message (.loginRequest fileLogin))]).conn.lastLogin = some login ∧
        login.kind = .fileTransfer := ⟨_, rfl, rfl⟩
  rw [← hkind]
  exact (approved_is_authorized _ _ _ htold passwordTime (by decide) (by decide) login hlast).1

def throttledTime : Env linux :=
  { passwordTime with shared := { passwordTime.shared with
      failures := { LoginFailures.empty with maps := fun _ _ => some ⟨0, 0, 31⟩ } } }

/-- The peer asks for files, and the user is told.  Then it asks for a terminal while it
is throttled, and the user is not told.  The click opens the terminal. -/
theorem approved_terminal_unseen :
    ∃ login, (exec Loop.step (start (.idle linux) .idle)
        [(passwordTime, .message (.loginRequest fileLogin)),
          (throttledTime, .message (.loginRequest terminalLogin))]).conn.lastLogin = some login ∧
      login.kind = .fileTransfer ∧
      (exec Loop.step (start (.idle linux) .idle)
        [(passwordTime, .message (.loginRequest fileLogin)),
          (throttledTime, .message (.loginRequest terminalLogin))]).conn.authorized = false ∧
      ((exec Loop.step (start (.idle linux) .idle)
        [(passwordTime, .message (.loginRequest fileLogin)),
          (throttledTime, .message (.loginRequest terminalLogin))]).step
        (passwordTime, .cm .authorize)).conn.authorized = true ∧
      ((exec Loop.step (start (.idle linux) .idle)
        [(passwordTime, .message (.loginRequest fileLogin)),
          (throttledTime, .message (.loginRequest terminalLogin))]).step
        (passwordTime, .cm .authorize)).conn.sessionKind = some .terminal :=
  ⟨_, rfl, rfl, by decide, by decide, by decide⟩

end RustDesk
