import RustDesk.Server.Frames

/-!
# From a login to a session

What each step on the way from a login request to an authorized session changes: the
checks of the password and of the second factor, the terminal's user, the tunnel's
socket, and the session itself.
-/

namespace RustDesk

open Logged

namespace Connection

variable {p : Platform} {env : Env p} {c c' : Connection}

def asked (c : Connection) : Option Totp × Bool × ConnAuditPrimaryAuth × LoginRequest ×
    Option (String × Bool) × Bool × Bool :=
  (c.require2fa, c.fromSwitch, c.connAuditPrimaryAuth, c.lr, c.fileTransfer, c.viewCamera,
    c.terminal)

def demand (c : Connection) := (c.asked, c.authorized, c.authedConnId, c.toPeerOptions)

def standing (c : Connection) := (c.demand, c.portForwardSocket)

variable {A : Effect → Prop}

theorem Steady.standing (h : Steady A c c') : Within log standing A c c' :=
  h.weaken (fun f => (((f.1.require2fa, f.1.fromSwitch, f.1.connAuditPrimaryAuth, f.1.lr,
    f.1.fileTransfer, f.1.viewCamera, f.1.terminal), f.1.authorized, f.1.authedConnId, f.2.1),
    f.2.2)) fun _ => rfl

variable {tfa : Bool}

theorem isRecentSession_fst :
    (c.isRecentSession env tfa).1 = (c.retainSessions env).matchesSession p tfa := by
  unfold isRecentSession
  dsimp only
  cases (c.retainSessions env).matchesSession p tfa with
  | true => cases tfa <;> rfl
  | false => rfl

theorem isRecentSession_eq_retain (h : c.isRecentSession env tfa = (false, c')) :
    c' = c.retainSessions env := by
  unfold isRecentSession at h
  dsimp only at h
  split at h
  · split at h <;> cases h
  · cases h
    rfl

theorem isRecentSession_false (h : c.isRecentSession env tfa = (false, c')) :
    Steady Waits c c' := by
  rw [isRecentSession_eq_retain h]
  exact (Steady.refl c).modifyShared

theorem isRecentSession_tfa (h : c.isRecentSession env true = (true, c')) :
    Within log standing Waits c c' := by
  unfold isRecentSession at h
  dsimp only at h
  split at h
  · cases h
    exact .silent rfl rfl
  · cases h

theorem isRecentSession_password (h : c.isRecentSession env false = (true, c')) :
    Steady Waits (c.setConnAuditPrimaryAuth .temporaryPassword) c' := by
  unfold isRecentSession at h
  dsimp only at h
  split at h
  · cases h
    exact .silent rfl rfl
  · cases h

variable {allow : Bool}

theorem validatePassword_false (h : c.validatePassword env allow = (false, c')) : c' = c := by
  unfold validatePassword at h
  split at h
  · cases h
  · split at h
    · cases h
    · cases h
      rfl

theorem validatePassword_true (h : c.validatePassword env allow = (true, c')) :
    ∃ auth, Steady Waits (c.setConnAuditPrimaryAuth auth) c' := by
  unfold validatePassword at h
  split at h
  · cases h
    refine ⟨.temporaryPassword, Steady.checkUpdateTemporaryPassword ?_⟩
    exact .silent rfl rfl
  · split at h
    · cases h
      exact ⟨.permanentPassword, .refl _⟩
    · cases h

theorem fillTerminalUserToken_steady {username password : String} :
    Steady Waits c (c.fillTerminalUserToken env username password).2 := by
  unfold fillTerminalUserToken handleAdministratorCheck handleInstalledUser
  split
  · split
    · split <;> exact .silent rfl rfl
    · split
      · exact .silent rfl rfl
      · split
        · split <;> exact .silent rfl rfl
        · exact .silent rfl rfl
  · exact .silent rfl rfl

theorem checkTerminalServiceUser_steady {osLogin : Bool} :
    Steady Waits c (c.checkTerminalServiceUser env osLogin).2 := by
  have h : Steady Waits c c := .refl c
  unfold checkTerminalServiceUser
  split
  · exact h.sendLoginError fun _ => rfl
  · exact .ite (h.tryStartCmIpc rfl) h

theorem checkTerminalServiceUser_some {osLogin b : Bool}
    (h : c.checkTerminalServiceUser env osLogin = (some b, c')) : b = false := by
  unfold checkTerminalServiceUser at h
  split at h
  · cases h
    rfl
  · cases h

theorem prepareTerminalLoginForAuthorization_steady :
    Steady Waits c (c.prepareTerminalLoginForAuthorization env).2 := by
  unfold prepareTerminalLoginForAuthorization
  split
  · exact .refl c
  · dsimp only
    split
    · split
      · exact checkFailureWithScope_steady.of_eq ‹_›
      · rename_i failure c₁ h₁
        have hadmitted : Steady Waits c c₁ := checkFailureWithScope_steady.of_eq h₁
        split
        · exact (hadmitted.sendLoginError fun _ => rfl).postAlarmAudit rfl
        · split
          · rename_i msg c₂ h₂
            have hfilled := hadmitted.trans (fillTerminalUserToken_steady.of_eq h₂)
            exact hfilled.updateFailureWithScope.sendLoginError fun _ => rfl
          · rename_i c₂ h₂
            have hfilled := hadmitted.trans (fillTerminalUserToken_steady.of_eq h₂)
            exact hfilled.updateFailureWithScope.trans checkTerminalServiceUser_steady
    · split
      · rename_i msg c₂ h₂
        have hfilled : Steady Waits c c₂ := fillTerminalUserToken_steady.of_eq h₂
        exact hfilled.sendLoginError fun _ => rfl
      · rename_i c₂ h₂
        exact Steady.trans (fillTerminalUserToken_steady.of_eq h₂) checkTerminalServiceUser_steady

theorem prepareTerminalLoginForAuthorization_some {b : Bool}
    (h : c.prepareTerminalLoginForAuthorization env = (some b, c')) : b = false := by
  unfold prepareTerminalLoginForAuthorization at h
  split at h
  · cases h
  · dsimp only at h
    split at h
    · split at h
      · cases h
        rfl
      · split at h
        · cases h
          rfl
        · split at h
          · cases h
            rfl
          · exact checkTerminalServiceUser_some h
    · split at h
      · cases h
        rfl
      · exact checkTerminalServiceUser_some h

structure Connected (c c' : Connection) : Prop where
  demand : Within log demand Waits c c'
  tunnel : ∀ pf, c.portForwardSocket = none → c.lr.union = some (.portForward pf) →
    c'.portForwardSocket = some (normalizePortForwardTarget pf).1
  none : c.portForwardSocket = none → (∀ pf, c.lr.union ≠ some (.portForward pf)) →
    c'.portForwardSocket = none

theorem connectPortForwardIfNeeded_true
    (h : c.connectPortForwardIfNeeded env = (true, c')) : Connected c c' := by
  unfold connectPortForwardIfNeeded at h
  split at h
  · rename_i hsome
    cases h
    refine ⟨.refl c, fun pf hnone => ?_, fun hnone => ?_⟩ <;> simp [hnone] at hsome
  · split at h
    · rename_i pf hunion
      dsimp only at h
      split at h
      · cases h
        refine ⟨.one rfl rfl rfl, fun pf' _ hunion' => ?_, fun _ hother => ?_⟩
        · rw [hunion] at hunion'
          cases hunion'
          rfl
        · exact absurd hunion (hother pf)
      · cases h
    · rename_i hother
      cases h
      refine ⟨.refl c, fun pf _ hunion => ?_, fun hnone _ => hnone⟩
      exact absurd hunion (hother pf)

theorem connectPortForwardIfNeeded_false (h : c.connectPortForwardIfNeeded env = (false, c')) :
    Within log demand Waits c c' := by
  unfold connectPortForwardIfNeeded at h
  split at h
  · cases h
  · split at h
    · dsimp only at h
      split at h
      · cases h
      · cases h
        refine ⟨⟨[.portForwardConnect _, .send (.loginError _ _)], List.append_assoc .., ?_⟩, rfl⟩
        simp [Waits, Effect.waiting]
    · cases h

theorem normalizeConnAuditAuthFields_within :
    Within log standing Waits c c.normalizeConnAuditAuthFields := by
  unfold normalizeConnAuditAuthFields
  split <;> exact .silent rfl rfl

theorem authorize_spec :
    Within log (fun c => (c.asked, c.toPeerOptions, c.portForwardSocket)) Plain c c.authorize ∧
    c.authorize.authorized = true ∧ c.authorize.authedConnId = some c.connTypeToAuthorize.2 := by
  let c₁ : Connection := { c with authorized := true, authedConnId := some c.connTypeToAuthorize.2 }
  have hset : ∀ f, Within log standing Plain c₁ (c₁.modifyShared f).normalizeConnAuditAuthFields :=
    fun f => (Within.silent rfl rfl : Within _ _ _ c₁ (c₁.modifyShared f)).trans
      (ofWaits normalizeConnAuditAuthFields_within)
  have hsent : Within log standing Plain c₁ c.authorize := by
    unfold authorize
    dsimp only
    split
    · exact hset _
    · exact (hset _).trans (.one rfl rfl rfl)
  have hsame := hsent.same
  simp only [standing, demand, Prod.mk.injEq] at hsame
  obtain ⟨⟨hasked, hauthorized, htype, hoptions⟩, hsocket⟩ := hsame
  refine ⟨⟨hsent.emits, ?_⟩, hauthorized, htype⟩
  simp only [hasked, hoptions, hsocket]
  rfl

theorem Steady.updateCodecOnLogin (h : Steady Plain c c') :
    Steady Plain c c'.updateCodecOnLogin := by
  unfold Connection.updateCodecOnLogin
  grind

theorem Steady.onRemoteAuthorized (h : Steady Plain c c') :
    Steady Plain c (c'.onRemoteAuthorized env) :=
  .ite (h.updateCodecOnLogin.emit rfl) h.updateCodecOnLogin

theorem prepareRemoteLogon_steady : Steady Plain c (c.prepareRemoteLogon env) := by
  have h : Steady Plain c c := .refl c
  unfold prepareRemoteLogon
  cases env.inputInitMsg with
  | none => exact .ite (h.emit rfl) h
  | some payload =>
    have hinited := h.send (m := .inited payload) rfl
    exact .ite (hinited.emit rfl) hinited

theorem sendLogon_steady : Steady Plain c (c.sendLogon env).2 := by
  have hremote : Steady Plain c (c.sendRemoteLogon env).2 := by
    have hready : Steady Plain c (c.prepareRemoteLogon env) := prepareRemoteLogon_steady
    unfold sendRemoteLogon
    dsimp only
    split
    · exact hready.onRemoteAuthorized.send rfl
    · exact hready.onRemoteAuthorized.send rfl
  unfold sendLogon
  split
  · exact (Steady.refl c).send rfl
  · split
    · exact (Steady.refl c).updateCodecOnLogin.send rfl
    · exact hremote

theorem Steady.initTerminalService (h : Steady Plain c c') :
    Steady Plain c (c'.initTerminalService env) := by
  unfold Connection.initTerminalService
  split
  · exact h
  · dsimp only
    split
    · exact (Steady.emit (h.set rfl rfl) rfl).set rfl rfl
    · exact (h.emit rfl).set rfl rfl

theorem startSession_steady {wait subService : Bool} :
    Steady Plain c (c.startSession env wait subService) := by
  have h : Steady Plain c c := .refl c
  have hkeyboard : Steady Plain c { c with keyboard := false } := h.set rfl rfl
  have hcamera : Steady Plain c (if wait then c else c.trySubCameraDisplays env) :=
    .ite h (trySubCameraDisplays_steady rfl)
  unfold startSession
  split
  · dsimp only
    split
    · exact .silent rfl rfl
    · exact hkeyboard.sendFs rfl
  · split
    · exact .ite hkeyboard hkeyboard.initTerminalService
    · split
      · refine Steady.sendPermission (hcamera.set ?_ ?_) ?_ <;> rfl
      · exact .ite (trySubMonitorServices_steady fun _ => rfl) h

theorem updateScopedLoginOptions_quiet : Quiet Plain c (c.updateScopedLoginOptions env) := by
  have htaken : Quiet Plain c { c with optionsInLogin := none } := .silent rfl rfl
  unfold updateScopedLoginOptions
  split
  · exact .refl c
  · dsimp only
    split
    · exact htaken
    · split
      · exact htaken.trans updateOptions_quiet
      · exact htaken

theorem logonResponse_quiet : Quiet Plain c (c.logonResponse env) := by
  unfold logonResponse
  split
  · exact (Steady.refl c).quiet.trans (Steady.quiet (.send (.refl c) rfl))
  · split
    · exact Steady.quiet (.send (.refl c) rfl)
    · dsimp only
      refine Within.trans ?_ startSession_steady.quiet
      exact sendLogon_steady.quiet.trans updateScopedLoginOptions_quiet

theorem lacks2fa_true (h : c.lacks2fa env = (true, c')) :
    c.require2fa.isSome = true ∧ c.fromSwitch = false ∧ Steady Waits c c' := by
  unfold lacks2fa at h
  split at h
  · rename_i hrequired
    rcases hr : c.isRecentSession env true with ⟨recent, c₁⟩
    rw [hr] at h
    simp only [Prod.mk.injEq, Bool.and_eq_true, Bool.not_eq_true'] at h
    obtain ⟨⟨rfl, hswitch⟩, rfl⟩ := h
    have hsame := isRecentSession_false hr
    refine ⟨hrequired, ?_, hsame⟩
    rw [← hswitch]
    exact congrArg (fun f => f.1.fromSwitch) hsame.same.symm
  · cases h

theorem lacks2fa_false (h : c.lacks2fa env = (false, c')) : Within log standing Waits c c' ∧
    (c.require2fa = none ∨ c.fromSwitch = true ∨ (c.isRecentSession env true).1 = true) := by
  unfold lacks2fa at h
  split at h
  · rcases hr : c.isRecentSession env true with ⟨recent, c₁⟩
    rw [hr] at h
    cases recent with
    | true =>
      cases h
      exact ⟨isRecentSession_tfa hr, .inr (.inr rfl)⟩
    | false =>
      simp only [Bool.not_false, Bool.true_and, Prod.mk.injEq, Bool.not_eq_false'] at h
      obtain ⟨hswitch, rfl⟩ := h
      have hsame := isRecentSession_false hr
      refine ⟨hsame.standing, .inr (.inl ?_)⟩
      rw [← hswitch]
      exact congrArg (fun f => f.1.fromSwitch) hsame.same.symm
  · rename_i hnone
    cases h
    exact ⟨.refl c, .inl (by simpa using hnone)⟩

/-- **The ways a logon can go** for a peer that is not authorized yet. -/
inductive Logon (env : Env p) (c : Connection) : Bool × Connection → Prop where
  /-- The second factor is missing; the connection waits for it. -/
  | waits {c' : Connection} (hrequired : c.require2fa.isSome = true)
      (hswitch : c.fromSwitch = false) (hsame : Steady Waits c c') : Logon env c (true, c')
  /-- The terminal's user or the tunnel's target is not to be had. -/
  | refused {c' : Connection} (hsame : Within log demand Waits c c') : Logon env c (false, c')
  | enters (s : Connection) (hconnected : Connected c s)
      (hsecond : c.require2fa = none ∨ c.fromSwitch = true ∨
        (c.isRecentSession env true).1 = true) :
      Logon env c (true, s.authorize.logonResponse env)

theorem Connected.of_standing {c₁ c₂ : Connection} (h : Within log Connection.standing Waits c c₁)
    (h' : Connected c₁ c₂) : Connected c c₂ := by
  have hlr : c₁.lr = c.lr := congrArg (fun v => v.1.1.2.2.2.1) h.same
  have hsocket : c₁.portForwardSocket = c.portForwardSocket := congrArg Prod.snd h.same
  refine ⟨.trans (h.weaken Prod.fst fun _ => rfl) h'.demand, ?_, ?_⟩
  · intro pf hnone hunion
    exact h'.tunnel pf (hsocket.trans hnone) (by rw [hlr]; exact hunion)
  · intro hnone hother
    exact h'.none (hsocket.trans hnone) (by rw [hlr]; exact hother)

theorem sendLogonResponseAndKeepAlive_logon (hauth : c.authorized = false) :
    Logon env c (c.sendLogonResponseAndKeepAlive env) := by
  unfold sendLogonResponseAndKeepAlive
  rw [if_neg (by simp [hauth])]
  rcases h₁ : c.lacks2fa env with ⟨lacking, c₁⟩
  cases lacking with
  | true =>
    obtain ⟨hrequired, hswitch, hsame⟩ := lacks2fa_true h₁
    refine .waits hrequired hswitch (Steady.sendLoginError ?_ fun _ => rfl)
    exact .ite (hsame.emit rfl) hsame
  | false =>
    obtain ⟨hsame, hsecond⟩ := lacks2fa_false h₁
    dsimp only
    have hprepared : Within log standing Waits c (c₁.prepareTerminalLoginForAuthorization env).2 :=
      hsame.trans prepareTerminalLoginForAuthorization_steady.standing
    rcases h₂ : c₁.prepareTerminalLoginForAuthorization env with ⟨_ | keepAlive, c₂⟩
    · rw [h₂] at hprepared
      rw [if_neg (by simp)]
      dsimp only
      rcases h₃ : c₂.connectPortForwardIfNeeded env with ⟨_ | _, c₃⟩
      · exact .refused ((hprepared.weaken Prod.fst fun _ => rfl).trans
          (connectPortForwardIfNeeded_false h₃))
      · exact .enters c₃ (.of_standing hprepared (connectPortForwardIfNeeded_true h₃)) hsecond
    · rw [h₂] at hprepared
      obtain rfl := prepareTerminalLoginForAuthorization_some h₂
      exact .refused (hprepared.weaken Prod.fst fun _ => rfl)

def inputs (c : Connection) := (c.lr, c.salt, c.challenge, c.ip, c.isHeadlessAllowed, c.shared)

def untouched (c : Connection) := (c.fromSwitch, c.connAuditPrimaryAuth, c.authorized,
  c.authedConnId, { c.toPeerOptions with terminalPersistent := false }, c.portForwardSocket)

def trusts (env : Env p) (lr : LoginRequest) : Bool :=
  env.enableTrustedDevices && env.shared.trustedDevices.any fun d =>
    d.hwid = lr.hwid && d.id = lr.myId && d.name = lr.myName && d.platform = lr.myPlatform
      && !d.outdate env.now

def tunnelTarget : Option LoginUnion → String
  | some (.portForward pf) => (normalizePortForwardTarget pf).1
  | _ => ""

structure InScopeOf (c : Connection) (union : Option LoginUnion) : Prop where
  fileTransfer : c.fileTransfer.isSome = true ↔ ∃ dir hidden, union = some (.fileTransfer dir hidden)
  viewCamera : c.viewCamera = true ↔ union = some .viewCamera
  terminal : c.terminal = true ↔ ∃ serviceId, union = some (.terminal serviceId)
  portForward : c.portForwardAddress = tunnelTarget union

theorem InScopeOf.congr {union : Option LoginUnion} (h : c.InScopeOf union)
    (hauth : c'.toAuth = c.toAuth) : c'.InScopeOf union := by
  have hfile : c'.fileTransfer = c.fileTransfer := congrArg Auth.fileTransfer hauth
  have hcamera : c'.viewCamera = c.viewCamera := congrArg Auth.viewCamera hauth
  have hterminal : c'.terminal = c.terminal := congrArg Auth.terminal hauth
  have haddress : c'.portForwardAddress = c.portForwardAddress :=
    congrArg Auth.portForwardAddress hauth
  exact ⟨hfile ▸ h.fileTransfer, hcamera ▸ h.viewCamera, hterminal ▸ h.terminal,
    haddress ▸ h.portForward⟩

variable {lr : LoginRequest}

structure Staged (env : Env p) (lr : LoginRequest) (c s : Connection) : Prop where
  untouched : Within log untouched Waits c s
  inputs : s.inputs = { c with lr := lr }.inputs
  second : s.require2fa = c.require2fa ∨ trusts env lr = true

theorem Staged.step {s s' : Connection} (h : Staged env lr c s)
    (huntouched : Within log Connection.untouched Waits s s') (hinputs : s'.inputs = s.inputs)
    (hsecond : s'.require2fa = s.require2fa) : Staged env lr c s' :=
  ⟨h.untouched.trans huntouched, hinputs.trans h.inputs, hsecond ▸ h.second⟩

theorem Staged.checkTrustedDevice {s : Connection} (h : Staged env lr c s)
    (hdevices : s.shared.trustedDevices = env.shared.trustedDevices) :
    Staged env lr c (s.checkTrustedDevice env lr) := by
  unfold Connection.checkTrustedDevice
  split
  · rename_i henabled
    split
    · rename_i device hfind
      split
      · rename_i hdevice
        refine ⟨h.untouched.trans (.silent rfl rfl), h.inputs, .inr ?_⟩
        have hmem := List.mem_of_find?_eq_some hfind
        have hhwid := List.find?_some hfind
        rw [hdevices] at hmem
        simp only [Bool.and_eq_true, Bool.not_eq_true', decide_eq_true_eq] at henabled hdevice hhwid
        simp only [trusts, List.any_eq_true, Bool.and_eq_true, Bool.not_eq_true', decide_eq_true_eq]
        exact ⟨henabled.2, device, hmem, by simp [hhwid, hdevice]⟩
      · exact h
    · exact h
  · exact h

theorem handleLoginRequestWithoutValidation_staged
    (hdevices : c.shared.trustedDevices = env.shared.trustedDevices) :
    Staged env lr c (c.handleLoginRequestWithoutValidation env lr) := by
  have hstart : Staged env lr c { c with
      lr := lr
      peerArgb := str2color (lr.myId ++ lr.myPlatform) 0xff
      optionsInLogin := lr.option.or c.optionsInLogin
      videoAckRequired := lr.videoAckRequired } :=
    ⟨.silent rfl rfl, rfl, .inl rfl⟩
  exact hstart.checkTrustedDevice hdevices

theorem Staged.enterScope {s : Connection} (h : Staged env lr c s) :
    Staged env lr c (s.enterScope env lr).2 := by
  have herror : ∀ err, Staged env lr c (s.sendLoginError env err) :=
    fun err => h.step (.one rfl rfl rfl) rfl rfl
  unfold Connection.enterScope
  split
  · split
    · exact h.step (.silent rfl rfl) rfl rfl
    · exact herror _
  · split
    · exact h.step (.silent rfl rfl) rfl rfl
    · exact herror _
  · split
    · exact herror _
    · split
      · exact herror _
      · exact h.step (.silent rfl rfl) rfl rfl
  · split
    · exact h.step (.silent rfl rfl) rfl rfl
    · exact herror _
  · split
    · exact herror _
    · exact h

theorem Staged.tryStartCmIpc {s : Connection} (h : Staged env lr c s) :
    Staged env lr c s.tryStartCmIpc := by
  unfold Connection.tryStartCmIpc
  split
  · exact h.step (.one rfl rfl rfl) rfl rfl
  · exact h

theorem enterScope_inScopeOf {s s' : Connection}
    (h : s.resetSessionScopeForLogin.enterScope env lr = (true, s')) : s'.InScopeOf lr.union := by
  unfold enterScope resetSessionScopeForLogin at h
  rcases hunion : lr.union with _ | _ | _ | _ | _ <;> rw [hunion] at h <;> dsimp only at h
  · split at h
    · cases h
    · cases h
      constructor <;> simp [tunnelTarget]
  · split at h
    · cases h
      constructor <;> simp [tunnelTarget]
    · cases h
  · split at h
    · cases h
      constructor <;> simp [tunnelTarget]
    · cases h
  · split at h
    · cases h
      constructor <;> simp [tunnelTarget]
    · cases h
  · split at h
    · cases h
    · split at h
      · cases h
      · cases h
        constructor <;> simp [tunnelTarget]

def credentials (c : Connection) := (c.lr, c.salt, c.challenge, c.shared.temporaryPassword)

theorem credentials_of_inputs (h : c'.inputs = c.inputs) : c'.credentials = c.credentials :=
  congrArg (fun i => (i.1, i.2.1, i.2.2.1, i.2.2.2.2.2.temporaryPassword)) h

theorem verifyH1_congr (hlr : c'.lr = c.lr) (hchallenge : c'.challenge = c.challenge) (h1 : Bytes) :
    c'.verifyH1 p h1 = c.verifyH1 p h1 := by
  simp only [verifyH1, hlr, hchallenge]

theorem validatePasswordPlain_congr (hlr : c'.lr = c.lr) (hsalt : c'.salt = c.salt)
    (hchallenge : c'.challenge = c.challenge) (password : String) :
    c'.validatePasswordPlain p password = c.validatePasswordPlain p password := by
  simp only [validatePasswordPlain, verifyH1_congr hlr hchallenge, hsalt]

theorem validatePassword_congr (h : c'.credentials = c.credentials) :
    (c'.validatePassword env allow).1 = (c.validatePassword env allow).1 := by
  simp only [credentials, Prod.mk.injEq] at h
  obtain ⟨hlr, hsalt, hchallenge, hpassword⟩ := h
  have hverify := verifyH1_congr (p := p) hlr hchallenge
  have hplain := validatePasswordPlain_congr (p := p) hlr hsalt hchallenge
  have hstorage : ∀ storage,
      c'.validatePasswordStorage p storage = c.validatePasswordStorage p storage :=
    fun storage => by simp only [validatePasswordStorage, hverify, hplain]
  have hpreset : ∀ storage salt, c'.validatePresetPasswordStorage p storage salt
      = c.validatePresetPasswordStorage p storage salt :=
    fun storage salt => by simp only [validatePresetPasswordStorage, hverify, hplain]
  have hpermanent : c'.validatePermanentPassword env = c.validatePermanentPassword env := by
    simp only [validatePermanentPassword, hstorage, hpreset]
  unfold validatePassword
  simp only [hplain, hpassword, hpermanent]
  split
  · rfl
  · split <;> rfl

def sessionInputs (c : Connection) := (c.lr, c.salt, c.challenge, c.shared.sessions)

theorem sessionInputs_of_inputs (h : c'.inputs = c.inputs) : c'.sessionInputs = c.sessionInputs :=
  congrArg (fun i => (i.1, i.2.1, i.2.2.1, i.2.2.2.2.2.sessions)) h

theorem isRecentSession_congr (h : c'.sessionInputs = c.sessionInputs) :
    (c'.isRecentSession env tfa).1 = (c.isRecentSession env tfa).1 := by
  simp only [sessionInputs, Prod.mk.injEq] at h
  obtain ⟨hlr, hsalt, hchallenge, hsessions⟩ := h
  have hretained : (c'.retainSessions env).shared.sessions
      = (c.retainSessions env).shared.sessions := by
    simp only [retainSessions, modifyShared, hsessions]
  have hlr' : (c'.retainSessions env).lr = (c.retainSessions env).lr := hlr
  have hkey : (c'.retainSessions env).sessionKey = (c.retainSessions env).sessionKey := by
    simp only [sessionKey, hlr']
  have hplain : ∀ password, (c'.retainSessions env).validatePasswordPlain p password
      = (c.retainSessions env).validatePasswordPlain p password :=
    validatePasswordPlain_congr hlr hsalt hchallenge
  rw [isRecentSession_fst, isRecentSession_fst, matchesSession, matchesSession, hretained, hkey,
    hlr']
  simp only [hplain]

theorem clickOnly_congr (h : c'.inputs = c.inputs) :
    c'.clickOnly env allow = c.clickOnly env allow := by
  have hshared : c'.shared = c.shared := congrArg (fun i => i.2.2.2.2.2) h
  simp only [clickOnly, hasValidPassword, hshared]

theorem startDesktopError_congr (h : c'.inputs = c.inputs) :
    c'.startDesktopError env lr = c.startDesktopError env lr := by
  have hheadless : c'.isHeadlessAllowed = c.isHeadlessAllowed := congrArg (fun i => i.2.2.2.2.1) h
  simp only [startDesktopError, hheadless]

theorem checkFailure_inputs {i : Fin 2} :
    (c.checkFailure env i).1 = (RustDesk.checkFailureWithScope p.ipv6FromStr c.shared.failures c.ip
      env.now i .default).1.toOption ∧
    (c.checkFailure env i).2.inputs = (c.modifyShared fun s => { s with
      failures := (RustDesk.checkFailureWithScope p.ipv6FromStr c.shared.failures c.ip
        env.now i .default).2 }).inputs := by
  have hshared : ∀ c : Connection, ∀ typ message,
      (c.postAlarmAudit env typ message).inputs = c.inputs := by
    intro c typ message
    unfold postAlarmAudit
    split <;> rfl
  unfold checkFailure checkFailureWithScope
  rcases RustDesk.checkFailureWithScope p.ipv6FromStr c.shared.failures c.ip env.now i .default
    with ⟨_ | _, failures⟩
  · exact ⟨rfl, hshared _ _ _⟩
  · exact ⟨rfl, rfl⟩

theorem checkFailure_congr {i : Fin 2} (h : c'.inputs = c.inputs) :
    (c'.checkFailure env i).1 = (c.checkFailure env i).1 ∧
    (c'.checkFailure env i).2.inputs = (c.checkFailure env i).2.inputs := by
  have hparts := h
  simp only [inputs, Prod.mk.injEq] at hparts
  obtain ⟨hlr, hsalt, hchallenge, hip, hheadless, hshared⟩ := hparts
  simp only [checkFailure_inputs, hip, hshared, true_and]
  simp only [inputs, modifyShared, hlr, hsalt, hchallenge, hip, hheadless, hshared]

theorem headlessAdmission_inputs :
    (c.headlessAdmission env lr).2.inputs = (c.headlessCheck env lr).2.inputs := by
  unfold headlessAdmission tryStartDesktop
  dsimp only
  split_ifs <;> rfl

theorem headlessAdmission_congr (h : c'.inputs = c.inputs) :
    (c'.headlessAdmission env lr).1 = (c.headlessAdmission env lr).1 ∧
    (c'.headlessAdmission env lr).2.inputs = (c.headlessAdmission env lr).2.inputs := by
  have hheadless : c'.isHeadlessAllowed = c.isHeadlessAllowed := congrArg (fun i => i.2.2.2.2.1) h
  have hcheck : c'.shouldCheckLinuxHeadlessOsAuth env lr =
      c.shouldCheckLinuxHeadlessOsAuth env lr := by
    simp only [shouldCheckLinuxHeadlessOsAuth, hheadless]
  have hfailure : (c'.checkFailure env 0).1 = (c.checkFailure env 0).1 ∧ _ := checkFailure_congr h
  have hsame : (c'.headlessCheck env lr).1 = (c.headlessCheck env lr).1 ∧
      (c'.headlessCheck env lr).2.inputs = (c.headlessCheck env lr).2.inputs := by
    unfold headlessCheck
    rw [hcheck]
    split
    · exact ⟨by simp only [hfailure.1], hfailure.2⟩
    · exact ⟨rfl, h⟩
  exact ⟨hsame.1, headlessAdmission_inputs.trans (hsame.2.trans headlessAdmission_inputs.symm)⟩

theorem isRecentSession_tfa_iff : (c.isRecentSession env true).1 = true ↔
    ∃ session, c.shared.sessions c.sessionKey = some session ∧
      env.now - session.lastRecvTime < sessionTimeout ∧ c.lr.password ≠ [] ∧
      session.tfa = true := by
  have hkey : (c.retainSessions env).sessionKey = c.sessionKey := rfl
  have hlr : (c.retainSessions env).lr = c.lr := rfl
  have hretained : (c.retainSessions env).shared.sessions c.sessionKey
      = (c.shared.sessions c.sessionKey).filter fun session =>
        env.now - session.lastRecvTime < sessionTimeout := rfl
  rw [isRecentSession_fst, matchesSession, hkey, hlr, hretained]
  rcases c.shared.sessions c.sessionKey with _ | session
  · simp
  · by_cases htime : env.now - session.lastRecvTime < sessionTimeout
    · simp [Option.filter, htime]
    · simp [Option.filter, htime]

def SessionsKept (c c' : Connection) : Prop :=
  c'.lr = c.lr ∧ ∀ key session, c'.shared.sessions key = some session → session.tfa = true →
    c.shared.sessions key = some session

theorem SessionsKept.trans {c'' : Connection} (h : SessionsKept c c') (h' : SessionsKept c' c'') :
    SessionsKept c c'' := by
  refine ⟨h'.1.trans h.1, fun key session hsession htfa => ?_⟩
  exact h.2 key session (h'.2 key session hsession htfa) htfa

theorem SessionsKept.of_eq (hlr : c'.lr = c.lr) (h : c'.shared.sessions = c.shared.sessions) :
    SessionsKept c c' := by
  refine ⟨hlr, fun key session hsession _ => ?_⟩
  rw [← h]
  exact hsession

theorem SessionsKept.recent (h : SessionsKept c c')
    (hrecent : (c'.isRecentSession env true).1 = true) : (c.isRecentSession env true).1 = true := by
  obtain ⟨session, hsession, htime, hpassword, htfa⟩ := isRecentSession_tfa_iff.mp hrecent
  have hkey : c'.sessionKey = c.sessionKey := by
    simp only [sessionKey, h.1]
  rw [hkey] at hsession
  rw [h.1] at hpassword
  exact isRecentSession_tfa_iff.mpr ⟨session, h.2 _ _ hsession htfa, htime, hpassword, htfa⟩

theorem checkFailure_sessionsKept {i : Fin 2} : SessionsKept c (c.checkFailure env i).2 := by
  have h : (c.checkFailure env i).2.inputs = _ := checkFailure_inputs.2
  exact .of_eq (congrArg (fun i => i.1) h) (congrArg (fun i => i.2.2.2.2.2.sessions) h)

theorem isRecentSession_sessionsKept : SessionsKept c (c.isRecentSession env tfa).2 := by
  have hretained : SessionsKept c (c.retainSessions env) := by
    refine ⟨rfl, fun key session hsession _ => ?_⟩
    exact (Option.filter_eq_some_iff.mp hsession).1
  unfold isRecentSession
  dsimp only
  split
  · split <;> exact hretained
  · exact hretained

theorem validatePassword_sessionsKept : SessionsKept c (c.validatePassword env allow).2 := by
  have hupdated : ∀ c : Connection, ∀ password,
      SessionsKept c (c.updateOrInsertSession env (some password) (some false)) := by
    intro c password
    refine ⟨rfl, fun key session hsession htfa => ?_⟩
    unfold updateOrInsertSession modifyShared at hsession
    dsimp only at hsession
    by_cases hkey : key = c.sessionKey
    · subst hkey
      rw [Function.update_self] at hsession
      split at hsession <;> cases hsession <;> cases htfa
    · rwa [Function.update_of_ne hkey] at hsession
  have hchecked : ∀ c : Connection, SessionsKept c (c.checkUpdateTemporaryPassword env true) := by
    intro c
    unfold checkUpdateTemporaryPassword
    dsimp only
    split
    · exact .of_eq rfl rfl
    · exact .of_eq rfl rfl
  unfold validatePassword
  split
  · exact (SessionsKept.of_eq rfl rfl).trans ((hupdated _ _).trans (hchecked _))
  · split
    · exact .of_eq rfl rfl
    · exact .of_eq rfl rfl

def proves (c : Connection) (env : Env p) : Bool :=
  (c.isRecentSession env false).1
    || (c.validatePassword env (allowLogonScreenPassword env)).1

/-- The login is answered, and the connection manager is not told of it: system
credentials are throttled, the desktop did not start, or passwords are throttled. -/
def untold (c : Connection) (env : Env p) (lr : LoginRequest) : Bool :=
  let (admitted, c) := c.headlessAdmission env lr
  let errMsg := c.startDesktopError env lr
  !admitted
    || errMsg ≠ "" && errMsg ≠ loginMsgDesktopSessionNotReady
    || !c.clickOnly env (allowLogonScreenPassword env)
      && (errMsg ≠ ""
        || !(c.isRecentSession env false).1 && lr.password ≠ [] && c.passwordsThrottled env)

theorem proves_congr (h : c'.inputs = c.inputs) : c'.proves env = c.proves env := by
  rw [proves, proves, isRecentSession_congr (sessionInputs_of_inputs h),
    validatePassword_congr (credentials_of_inputs h)]

theorem untold_congr (h : c'.inputs = c.inputs) : c'.untold env lr = c.untold env lr := by
  have hadmission : _ ∧ (c'.headlessAdmission env lr).2.inputs
      = (c.headlessAdmission env lr).2.inputs := headlessAdmission_congr h
  unfold untold
  simp only [hadmission.1, startDesktopError_congr hadmission.2, clickOnly_congr hadmission.2,
    isRecentSession_congr (sessionInputs_of_inputs hadmission.2), passwordsThrottled,
    checkFailure_congr hadmission.2]

/-- **The ways a login request can go** from the moment it is taken up. -/
inductive Approval (env : Env p) (lr : LoginRequest) (s : Connection) : Bool × Connection → Prop where
  /-- It waits, and the connection manager does not know. -/
  | silent {c' : Connection} (auth : ConnAuditPrimaryAuth)
      (hproof : auth = s.connAuditPrimaryAuth ∨ s.proves env = true)
      (huntold : s.untold env lr = true)
      (hsame : Steady Waits (s.setConnAuditPrimaryAuth auth) c') : Approval env lr s (true, c')
  | tells {c' : Connection} (c₁ : Connection) (hsame : Steady Waits s c₁)
      (hafter : Steady Waits (c₁.tryStartCm lr.myId lr.myName false) c') :
      Approval env lr s (true, c')
  | refused {c' : Connection} (hsame : Steady Waits s c') : Approval env lr s (false, c')
  | logsOn (c₁ : Connection) (auth : ConnAuditPrimaryAuth) (hproof : s.proves env = true)
      (hsame : Steady Waits (s.setConnAuditPrimaryAuth auth) c₁) (hsessions : SessionsKept s c₁) :
      Approval env lr s (c₁.logonAndTell env lr)

theorem Steady.setConnAuditPrimaryAuth (h : Steady A c c') (auth : ConnAuditPrimaryAuth) :
    Steady A (c.setConnAuditPrimaryAuth auth) (c'.setConnAuditPrimaryAuth auth) :=
  ⟨h.emits, congrArg (fun f : Auth × PeerOptions × Option String =>
    ({ f.1 with connAuditPrimaryAuth := auth }, f.2)) h.same⟩

theorem Steady.unproved (h : Steady A c c') :
    Steady A (c.setConnAuditPrimaryAuth c.connAuditPrimaryAuth) c' := h

theorem prepareBeforeClick_steady : Steady Waits c (c.prepareBeforeClick env lr).2 := by
  unfold prepareBeforeClick
  split
  · exact prepareTerminalLoginForAuthorization_steady
  · exact .refl c

theorem prepareBeforeClick_some {b : Bool} (h : c.prepareBeforeClick env lr = (some b, c')) :
    b = false := by
  unfold prepareBeforeClick at h
  split at h
  · exact prepareTerminalLoginForAuthorization_some h
  · cases h

theorem headlessAdmission_steady : Steady Waits c (c.headlessAdmission env lr).2 := by
  have hcheck : Steady Waits c (c.headlessCheck env lr).2 := by
    unfold headlessCheck
    split
    · exact checkFailureWithScope_steady
    · exact .refl c
  unfold headlessAdmission tryStartDesktop
  exact .ite (.ite (hcheck.emit rfl) hcheck) hcheck

theorem headlessAdmission_kept : (c.headlessAdmission env lr).2.credentials = c.credentials ∧
    (c.headlessAdmission env lr).2.sessionInputs = c.sessionInputs := by
  have hfailure : (c.checkFailure env 0).2.inputs = _ := checkFailure_inputs.2
  rw [credentials_of_inputs headlessAdmission_inputs,
    sessionInputs_of_inputs headlessAdmission_inputs, headlessCheck]
  split
  · exact ⟨credentials_of_inputs hfailure, sessionInputs_of_inputs hfailure⟩
  · exact ⟨rfl, rfl⟩

section Approve

variable {s : Connection}

theorem untold_of_admitted (h : s.headlessAdmission env lr = (true, c)) :
    s.untold env lr =
      (c.startDesktopError env lr ≠ ""
          && c.startDesktopError env lr ≠ loginMsgDesktopSessionNotReady
        || !c.clickOnly env (allowLogonScreenPassword env)
          && (c.startDesktopError env lr ≠ ""
            || !(c.isRecentSession env false).1 && lr.password ≠ [] && c.passwordsThrottled env)) := by
  unfold untold
  rw [h]
  rfl

theorem headlessAdmission_sessionsKept (h : s.headlessAdmission env lr = (true, c)) :
    SessionsKept s c := by
  have hkept : (s.headlessAdmission env lr).2.sessionInputs = s.sessionInputs :=
    headlessAdmission_kept.2
  rw [h] at hkept
  exact .of_eq (congrArg (fun i => i.1) hkept) (congrArg (fun i => i.2.2.2) hkept)

theorem proves_of_validatePassword {c₁ : Connection} {failure : Option FailureEntry}
    (h : s.headlessAdmission env lr = (true, c))
    (hf : (c.retainSessions env).checkFailure env 0 = (failure, c₁))
    (hv : (c₁.validatePassword env (allowLogonScreenPassword env)).1 = true) :
    s.proves env = true := by
  have hadmitted : (s.headlessAdmission env lr).2.credentials = s.credentials :=
    headlessAdmission_kept.1
  have hfailure : ((c.retainSessions env).checkFailure env 0).2.inputs = _ := checkFailure_inputs.2
  rw [h] at hadmitted
  rw [hf] at hfailure
  have hcredentials : c₁.credentials = s.credentials :=
    (credentials_of_inputs hfailure).trans hadmitted
  rw [validatePassword_congr hcredentials] at hv
  simp [proves, hv]

theorem checkPassword_approval (h : s.headlessAdmission env lr = (true, c))
    (hclick : c.clickOnly env (allowLogonScreenPassword env) = false)
    (hrecent : c.isRecentSession env false = (false, c')) (hpassword : lr.password ≠ []) :
    Approval env lr s (c'.checkPassword env lr (c.startDesktopError env lr)
      (allowLogonScreenPassword env)) := by
  have huntold := untold_of_admitted h
  rw [hclick, hrecent] at huntold
  have hadmitted : Steady Waits s c := headlessAdmission_steady.of_eq h
  have hkept : Steady Waits s c' := hadmitted.trans (isRecentSession_false hrecent)
  obtain rfl := isRecentSession_eq_retain hrecent
  have hsessions : SessionsKept s (c.retainSessions env) := by
    have hretained : SessionsKept c (c.isRecentSession env false).2 := isRecentSession_sessionsKept
    rw [hrecent] at hretained
    exact (headlessAdmission_sessionsKept h).trans hretained
  unfold checkPassword
  rcases hf : (c.retainSessions env).checkFailure env 0 with ⟨_ | failure, c₁⟩
  · have hthrottled : (c.checkFailure env 0).1 = none := by
      have hsame : (c.checkFailure env 0).1 = ((c.retainSessions env).checkFailure env 0).1 := by
        rw [checkFailure_inputs.1, checkFailure_inputs.1]
        rfl
      rw [hsame, hf]
    refine .silent s.connAuditPrimaryAuth (.inl rfl) ?_
      (hkept.trans (checkFailureWithScope_steady.of_eq hf)).unproved
    simp [huntold, hpassword, passwordsThrottled, hthrottled]
  · have hfailure := hkept.trans (checkFailureWithScope_steady.of_eq hf)
    dsimp only
    rcases hv : c₁.validatePassword env (allowLogonScreenPassword env) with ⟨_ | _, c₂⟩
    · obtain rfl := validatePassword_false hv
      have hwrong : Steady Waits s ((c₂.updateFailureWithScope env failure false 0
          .default).checkUpdateTemporaryPassword env false) :=
        hfailure.updateFailureWithScope.checkUpdateTemporaryPassword
      dsimp only
      split
      · exact .tells _ (hwrong.sendLoginError fun _ => rfl) (.refl _)
      · rename_i herr
        refine .silent s.connAuditPrimaryAuth (.inl rfl) ?_ (hwrong.sendLoginError fun _ => rfl)
        simp [huntold, herr]
    · obtain ⟨auth, hnoted⟩ := validatePassword_true hv
      have hproof : s.proves env = true := proves_of_validatePassword h hf (by rw [hv])
      have hright : Steady Waits (s.setConnAuditPrimaryAuth auth)
          (c₂.updateFailureWithScope env failure true 0 .default) :=
        ((hfailure.setConnAuditPrimaryAuth auth).trans hnoted).updateFailureWithScope
      dsimp only
      split
      · refine .logsOn _ auth hproof hright (hsessions.trans ?_)
        have h₁ : SessionsKept _ ((c.retainSessions env).checkFailure env 0).2 :=
          checkFailure_sessionsKept
        have h₂ : SessionsKept c₁ (c₁.validatePassword env (allowLogonScreenPassword env)).2 :=
          validatePassword_sessionsKept
        rw [hf] at h₁
        rw [hv] at h₂
        exact h₁.trans (h₂.trans (.of_eq rfl rfl))
      · rename_i herr
        refine .silent auth (.inr hproof) ?_ (hright.sendLoginError fun _ => rfl)
        simp [huntold, herr]

theorem approveLogin_approval (h : s.headlessAdmission env lr = (true, c)) :
    Approval env lr s (c.approveLogin env lr (c.startDesktopError env lr)) := by
  have hadmitted : Steady Waits s c := headlessAdmission_steady.of_eq h
  have huntold := untold_of_admitted h
  have hproves : (c.isRecentSession env false).1 = true → s.proves env = true := by
    intro hrecent
    have hkept : (s.headlessAdmission env lr).2.sessionInputs = s.sessionInputs :=
      headlessAdmission_kept.2
    rw [h] at hkept
    simp [proves, ← isRecentSession_congr hkept, hrecent]
  have hasks : ∀ {c₁ : Connection}, Steady Waits s c₁ → ∀ r, c₁.prepareBeforeClick env lr = r →
      Steady Waits s r.2 := by
    rintro c₁ hsame r rfl
    exact hsame.trans prepareBeforeClick_steady
  unfold approveLogin
  split
  · rcases hr : c.prepareBeforeClick env lr with ⟨_ | keepAlive, c₁⟩
    · have hsame := hasks hadmitted _ hr
      refine .tells _ hsame (.ite ?_ (.refl _))
      exact (Steady.refl _).sendLoginError fun _ => rfl
    · obtain rfl := prepareBeforeClick_some hr
      exact .refused (hasks hadmitted _ hr)
  · rename_i hclick
    have hclick' : c.clickOnly env (allowLogonScreenPassword env) = false := by simpa using hclick
    rcases hr : c.isRecentSession env false with ⟨_ | _, c₁⟩
    · dsimp only
      have hsame := hadmitted.trans (isRecentSession_false hr)
      split
      · split
        · rcases hp : c₁.prepareBeforeClick env lr with ⟨_ | keepAlive, c₂⟩
          · exact .tells _ (hasks hsame _ hp) (.refl _)
          · obtain rfl := prepareBeforeClick_some hp
            exact .refused (hasks hsame _ hp)
        · rename_i herr'
          refine .silent s.connAuditPrimaryAuth (.inl rfl) ?_ (hsame.sendLoginError fun _ => rfl)
          simp [huntold, hclick', herr']
      · exact checkPassword_approval h hclick' hr ‹_›
    · dsimp only
      have hsame := (hadmitted.setConnAuditPrimaryAuth _).trans (isRecentSession_password hr)
      split
      · refine .logsOn _ _ (hproves (by rw [hr])) hsame ?_
        have hretained : SessionsKept c (c.isRecentSession env false).2 :=
          isRecentSession_sessionsKept
        rw [hr] at hretained
        exact (headlessAdmission_sessionsKept h).trans hretained
      · rename_i herr'
        refine .silent _ (.inr (hproves (by rw [hr]))) ?_ (hsame.sendLoginError fun _ => rfl)
        simp [huntold, hclick', herr']

theorem desktopFailed_steady {errMsg : String} : Steady Waits c (c.desktopFailed env lr errMsg).2 ∧
    (c.desktopFailed env lr errMsg).1 = true := by
  unfold desktopFailed
  split
  · rcases hf : c.checkFailure env 0 with ⟨_ | failure, c₁⟩
    · exact ⟨checkFailureWithScope_steady.of_eq hf, rfl⟩
    · have hfailure : Steady Waits c c₁ := checkFailureWithScope_steady.of_eq hf
      exact ⟨hfailure.updateFailureWithScope.sendLoginError fun _ => rfl, rfl⟩
  · exact ⟨Steady.sendLoginError (.refl c) fun _ => rfl, rfl⟩

theorem startDesktopAndApprove_approval : Approval env lr s (s.startDesktopAndApprove env lr) := by
  unfold startDesktopAndApprove
  rcases h : s.headlessAdmission env lr with ⟨_ | _, c⟩
  · have hadmitted : Steady Waits s c := headlessAdmission_steady.of_eq h
    refine .silent s.connAuditPrimaryAuth (.inl rfl) ?_ hadmitted.unproved
    simp [untold, h]
  · have hadmitted : Steady Waits s c := headlessAdmission_steady.of_eq h
    dsimp only
    split
    · rename_i herr
      have hfailed : Steady Waits c (c.desktopFailed env lr (c.startDesktopError env lr)).2 ∧ _ :=
        desktopFailed_steady
      rcases hr : c.desktopFailed env lr (c.startDesktopError env lr) with ⟨keepAlive, c'⟩
      rw [hr] at hfailed
      obtain ⟨hsame, hkeep⟩ := hfailed
      obtain rfl : keepAlive = true := hkeep
      refine .silent s.connAuditPrimaryAuth (.inl rfl) ?_ (hadmitted.trans hsame).unproved
      rw [untold_of_admitted h]
      simp only [herr, Bool.true_or]
    · exact approveLogin_approval h

/-- **Login.**  A login request of an unauthorized peer is taken up, and then it is
rejected or goes one of the ways above. -/
theorem onLoginRequest_cases (lr : LoginRequest) (hshared : c.shared = env.shared)
    (hauth : c.authorized = false) :
    ∃ s, Staged env lr c s ∧
      ((∃ c', c.onLoginRequest env lr = (false, c') ∧ Steady Waits s c') ∨
        s.InScopeOf lr.union ∧ Approval env lr s (c.onLoginRequest env lr)) := by
  have hstaged : Staged env lr c (c.handleLoginRequestWithoutValidation env lr) :=
    handleLoginRequestWithoutValidation_staged (congrArg Shared.trustedDevices hshared)
  have hauth' : (c.handleLoginRequestWithoutValidation env lr).authorized = false := by
    rw [← hauth]
    exact congrArg (fun v => v.2.2.1) hstaged.untouched.same
  have hreset : Staged env lr c
      (c.handleLoginRequestWithoutValidation env lr).resetSessionScopeForLogin :=
    hstaged.step (.silent rfl rfl) rfl rfl
  unfold onLoginRequest
  dsimp only
  rw [if_neg (by simp [hauth'])]
  have hentered := hreset.enterScope
  rcases he : (c.handleLoginRequestWithoutValidation env lr).resetSessionScopeForLogin.enterScope
    env lr with ⟨_ | _, s₁⟩
  · rw [he] at hentered
    exact ⟨s₁, hentered, .inl ⟨s₁, rfl, .refl s₁⟩⟩
  · rw [he] at hentered
    have hscope := enterScope_inScopeOf he
    dsimp only
    split
    · rename_i msg _
      exact ⟨s₁, hentered, .inl ⟨_, rfl, Steady.sendLoginError (.refl s₁) fun _ => rfl⟩⟩
    · split
      · have hipc : Steady Waits s₁ s₁.tryStartCmIpc := (Steady.refl s₁).tryStartCmIpc rfl
        exact ⟨s₁.tryStartCmIpc, hentered.tryStartCmIpc, .inr
          ⟨hscope.congr hipc.quiet.same, startDesktopAndApprove_approval⟩⟩
      · exact ⟨s₁, hentered, .inr ⟨hscope, startDesktopAndApprove_approval⟩⟩

end Approve

def acceptsCode (c : Connection) (env : Env p) (code : String) : Bool :=
  c.codesAdmitted env &&
    match c.require2fa with
    | some totp => env.checkCurrent totp code = some true
    | none => false

inductive SecondFactor (env : Env p) (code : String) (c : Connection) :
    Bool × Connection → Prop where
  | ignored {c' : Connection} (hsame : Steady Waits c c') : SecondFactor env code c (true, c')
  | accepted {c₁ c₂ c' : Connection} {keepAlive : Bool} (hcode : c.acceptsCode env code = true)
      (hsame : Steady Waits { c with require2fa := none, connAuditTwoFactor := .totp } c₁)
      (hlogon : c₁.logonAndTell env c₁.lr = (keepAlive, c₂)) (hafter : Steady Waits c₂ c') :
      SecondFactor env code c (keepAlive, c')

theorem onAuth2fa_cases {code : String} {hwid : Bytes} :
    SecondFactor env code c (c.onAuth2fa env code hwid) := by
  have hkept : Steady Waits c (c.checkFailure env 1).2 := checkFailureWithScope_steady
  unfold onAuth2fa
  rcases hf : c.checkFailure env 1 with ⟨_ | failure, c₁⟩
  · rw [hf] at hkept
    exact .ignored hkept
  · rw [hf] at hkept
    have hrequired : c₁.require2fa = c.require2fa := congrArg (fun f => f.1.require2fa) hkept.same
    dsimp only
    split
    · exact .ignored hkept
    · rename_i totp htotp
      rw [hrequired] at htotp
      split
      · exact .ignored hkept
      · exact .ignored (hkept.updateFailureWithScope.sendLoginError fun _ => rfl)
      · rename_i hcode
        have haccepts : c.acceptsCode env code = true := by
          simp [acceptsCode, codesAdmitted, hf, htotp, hcode]
        have hset : Steady Waits { c with require2fa := none, connAuditTwoFactor := .totp }
            { c₁.updateFailureWithScope env failure true 1 .default with
              require2fa := none, connAuditTwoFactor := .totp } :=
          ⟨hkept.emits, congrArg (fun f : Auth × PeerOptions × Option String =>
            ({ f.1 with require2fa := none, connAuditTwoFactor := .totp }, f.2)) hkept.same⟩
        split
        · rename_i c₂ hlogon
          exact .accepted haccepts hset.setSession2fa hlogon (.refl c₂)
        · rename_i c₂ hlogon
          refine .accepted haccepts hset.setSession2fa hlogon ?_
          unfold addTrustedDevice
          exact .ite (.modifyShared (.refl c₂)) (.refl c₂)

/-- The identifier was registered for this peer, less than ten seconds ago. -/
def Switches (env : Env p) (uuid : Bytes) (lr : LoginRequest) : Prop :=
  ∃ registered, env.shared.switchSides lr.myId = some registered ∧
    env.now - registered.1 < 10 * 1000 ∧ uuid = registered.2

inductive SwitchedSides (env : Env p) (uuid : Bytes) (lr : LoginRequest) (c : Connection) :
    Bool × Connection → Prop where
  | ignored {c' : Connection} (keepAlive : Bool) (hsame : Steady Waits c c') :
      SwitchedSides env uuid lr c (keepAlive, c')
  | accepted {c₁ c' : Connection} {keepAlive : Bool} (s : Connection)
      (hswitches : Switches env uuid lr)
      (hunion : lr.union = none)
      (hstaged : Within log untouched Waits c s) (hlr : s.lr = lr) (hscope : s.InScopeOf none)
      (hlogon : ({ s with fromSwitch := true }.setConnAuditPrimaryAuth .switchSides).logonAndTell
        env lr = (keepAlive, c₁))
      (hafter : Steady Waits c₁ c') : SwitchedSides env uuid lr c (keepAlive, c')

theorem handleLoginRequestWithoutValidation_inScopeOf {union : Option LoginUnion}
    (h : c.InScopeOf union) : (c.handleLoginRequestWithoutValidation env lr).InScopeOf union := by
  unfold handleLoginRequestWithoutValidation checkTrustedDevice
  dsimp only
  split
  · split
    · split <;> exact ⟨h.1, h.2, h.3, h.4⟩
    · exact ⟨h.1, h.2, h.3, h.4⟩
  · exact ⟨h.1, h.2, h.3, h.4⟩

theorem takeSwitchSides_steady {id : String} : Steady Waits c (c.takeSwitchSides env id).2 :=
  .silent rfl rfl

theorem takeSwitchSides_some {id : String} {registered : Int × Bytes}
    (hshared : c.shared = env.shared) (h : c.takeSwitchSides env id = (some registered, c')) :
    env.shared.switchSides id = some registered ∧ env.now - registered.1 < 10 * 1000 ∧
      c'.shared.trustedDevices = env.shared.trustedDevices := by
  obtain ⟨hvalid, rfl⟩ := Prod.mk.inj h
  rw [Option.filter_eq_some_iff, hshared] at hvalid
  refine ⟨hvalid.1, by simpa using hvalid.2, ?_⟩
  rw [← hshared]
  rfl

theorem onSwitchSidesResponse_cases {uuid : Bytes} (hshared : c.shared = env.shared) :
    SwitchedSides env uuid lr c (c.onSwitchSidesResponse env uuid lr) := by
  have hpruned : Steady Waits c (c.takeSwitchSides env lr.myId).2 := takeSwitchSides_steady
  unfold onSwitchSidesResponse
  rcases ht : c.takeSwitchSides env lr.myId with ⟨_ | registered, c₀⟩
  · rw [ht] at hpruned
    exact .ignored true hpruned
  · rw [ht] at hpruned
    obtain ⟨hregistered, htime, hdevices⟩ := takeSwitchSides_some hshared ht
    dsimp only
    split
    · rename_i huuid
      simp only [Bool.and_eq_true, decide_eq_true_eq] at huuid
      split
      · exact .ignored false (hpruned.sendLoginError fun _ => rfl)
      · rename_i hnone
        have hreset : c₀.resetSessionScopeForLogin.InScopeOf none := by
          constructor <;> simp [resetSessionScopeForLogin, tunnelTarget]
        have hstaged : Staged env lr c₀.resetSessionScopeForLogin
            (c₀.resetSessionScopeForLogin.handleLoginRequestWithoutValidation env lr) :=
          handleLoginRequestWithoutValidation_staged hdevices
        have huntouched : Within log untouched Waits c₀ c₀.resetSessionScopeForLogin :=
          .silent rfl rfl
        have hkept : Within log untouched Waits c c₀ := hpruned.weaken
          (fun f => (f.1.fromSwitch, f.1.connAuditPrimaryAuth, f.1.authorized, f.1.authedConnId,
            { f.2.1 with terminalPersistent := false }, f.2.2)) fun _ => rfl
        have hswitches : Switches env uuid lr := ⟨registered, hregistered, htime, huuid.2⟩
        have hunion : lr.union = none := by simpa using hnone
        have htaken := hkept.trans (huntouched.trans hstaged.untouched)
        have hlr := congrArg (fun i => i.1) hstaged.inputs
        have hscope : (c₀.resetSessionScopeForLogin.handleLoginRequestWithoutValidation env
            lr).InScopeOf none := handleLoginRequestWithoutValidation_inScopeOf hreset
        split
        · exact .accepted _ hswitches hunion htaken hlr hscope ‹_› (.refl _)
        · exact .accepted _ hswitches hunion htaken hlr hscope ‹_› (.tryStartCmIpc (.refl _) rfl)
    · exact .ignored true hpruned

/-- **What one event does to a connection whose peer is not in.**  The loop may also end
where the handler would have gone on. -/
inductive Before (env : Env p) (c : Connection) : Event → Bool × Connection → Prop where
  | calm {e : Event} {r : Bool × Connection} (hcalm : Calm Plain c r)
      (hwaits : (∀ name enabled, e ≠ .cm (.switchPermission name enabled)) →
        c.isAuthedViewCameraConn = false → Calm Waits c r) : Before env c e r
  | click {r : Bool × Connection} {b : Bool} (hb : b = true → r.1 = true)
      (hlogon : Logon env c.clicked r) :
      Before env c (.cm .authorize) (b, r.2)
  | rejected {lr : LoginRequest} {c' : Connection} (s : Connection) (hstaged : Staged env lr c s)
      (hsame : Steady Waits s c') : Before env c (.message (.loginRequest lr)) (false, c')
  | login {lr : LoginRequest} {r : Bool × Connection} {b : Bool} (s : Connection)
      (hb : b = true → r.1 = true) (hstaged : Staged env lr c s)
      (hscope : s.InScopeOf lr.union) (happroval : Approval env lr s r) :
      Before env c (.message (.loginRequest lr)) (b, r.2)
  | code {code : String} {hwid : Bytes} {r : Bool × Connection} {b : Bool}
      (hb : b = true → r.1 = true) (hway : SecondFactor env code c r) :
      Before env c (.message (.auth2fa code hwid)) (b, r.2)
  | switch {uuid : Bytes} {lr : LoginRequest} {r : Bool × Connection} {b : Bool}
      (hb : b = true → r.1 = true) (hway : SwitchedSides env uuid lr c r) :
      Before env c (.message (.switchSidesResponse uuid (some lr))) (b, r.2)

theorem handle_entry {msg : Message} (hauth : c.authorized = false)
    (hentry : (Event.message msg).entry = true) :
    ∃ b, c.handle env (.message msg) = (b, (c.dispatch env msg).2) ∧
      (b = true → (c.dispatch env msg).1 = true) := by
  have hmessage : c.onMessage env msg = c.dispatch env msg := by
    unfold onMessage
    split
    · cases hentry
    · rw [hauth]
      rfl
  unfold handle
  rw [← hmessage]
  exact ⟨_, rfl, fun hkeep => (Bool.and_eq_true_iff.mp hkeep).1⟩

theorem handle_before (hshared : c.shared = env.shared) (hauth : c.authorized = false)
    (e : Event) : Before env c e (c.handle env e) := by
  cases hentry : e.entry with
  | false =>
    exact .calm (handle_calm hentry hauth) fun hswitch hcamera =>
      handle_waits hentry hauth hcamera hswitch
  | true =>
    have hentered : ∀ msg, (Event.message msg).entry = true →
        ∃ b, c.handle env (.message msg) = (b, (c.dispatch env msg).2) ∧
          (b = true → (c.dispatch env msg).1 = true) :=
      fun _ => handle_entry hauth
    rcases Event.entry_cases hentry with rfl | ⟨lr, rfl⟩ | ⟨code, hwid, rfl⟩ | ⟨uuid, login, rfl⟩
    · have hlogon : Logon env c.clicked (c.clicked.sendLogonResponseAndKeepAlive env) :=
        sendLogonResponseAndKeepAlive_logon hauth
      exact .click (fun hkeep => (Bool.and_eq_true_iff.mp hkeep).1) hlogon
    · obtain ⟨b, hhandle, hb⟩ := hentered _ hentry
      rw [hhandle]
      obtain ⟨s, hstaged, ⟨c', hr, hsame⟩ | ⟨hscope, happroval⟩⟩ :=
        onLoginRequest_cases lr hshared hauth
      · have hdispatch : c.dispatch env (.loginRequest lr) = (false, c') := hr
        rw [hdispatch] at hb ⊢
        cases b with
        | true => exact absurd (hb rfl) (by simp)
        | false => exact .rejected s hstaged hsame
      · exact .login s hb hstaged hscope happroval
    · obtain ⟨b, hhandle, hb⟩ := hentered _ hentry
      rw [hhandle]
      exact .code hb onAuth2fa_cases
    · obtain ⟨b, hhandle, hb⟩ := hentered _ hentry
      rw [hhandle]
      have hignored : Before env c (.message (.switchSidesResponse uuid login)) (b, c) :=
        .calm (.of_steady (.refl c)) fun _ _ => .of_steady (.refl c)
      cases login with
      | none => exact hignored
      | some lr =>
        by_cases hbuild : (p.build.flutter && !p.build.mobile) = true
        · have hdispatch : c.dispatch env (.switchSidesResponse uuid (some lr))
              = c.onSwitchSidesResponse env uuid lr := by
            simp only [dispatch, if_pos hbuild]
          rw [hdispatch] at hb ⊢
          exact .switch hb (onSwitchSidesResponse_cases hshared)
        · have hdispatch : c.dispatch env (.switchSidesResponse uuid (some lr)) = (true, c) := by
            simp only [dispatch, if_neg hbuild]
          rw [hdispatch]
          exact hignored

theorem logonAndTell_of_authorized (h : c.authorized = true) :
    c.logonAndTell env lr = (true, c.tryStartCm lr.myId lr.myName true) := by
  unfold logonAndTell sendLogonResponseAndKeepAlive
  rw [if_pos h]
  simp only [h]

structure StaysIn (c c' : Connection) : Prop where
  authorized : c'.authorized = true
  authedConnId : c'.authedConnId = c.authedConnId

theorem StaysIn.of_auth (h : c.authorized = true) (hauth : c'.toAuth = c.toAuth) : StaysIn c c' :=
  ⟨(congrArg Auth.authorized hauth).trans h, congrArg Auth.authedConnId hauth⟩

theorem StaysIn.trans {c'' : Connection} (h : StaysIn c c') (h' : StaysIn c' c'') : StaysIn c c'' :=
  ⟨h'.authorized, h'.authedConnId.trans h.authedConnId⟩

variable {r : Bool × Connection}

theorem logonAndTell_staysIn (h : c.authorized = true)
    (hr : c.logonAndTell env lr = r) : StaysIn c r.2 := by
  subst hr
  rw [logonAndTell_of_authorized h]
  exact ⟨h, rfl⟩

theorem SecondFactor.staysIn {code : String}
    (h : SecondFactor env code c r) (hauth : c.authorized = true) : StaysIn c r.2 := by
  cases h with
  | ignored hsame => exact .of_auth hauth hsame.auth
  | accepted _ hsame hlogon hafter =>
    have hset : StaysIn c { c with require2fa := none, connAuditTwoFactor := .totp } := ⟨hauth, rfl⟩
    have hfirst := hset.trans (.of_auth hset.authorized hsame.auth)
    have hlogged := hfirst.trans (logonAndTell_staysIn hfirst.authorized hlogon)
    exact hlogged.trans (.of_auth hlogged.authorized hafter.auth)

theorem SwitchedSides.staysIn {uuid : Bytes}
    (h : SwitchedSides env uuid lr c r) (hauth : c.authorized = true) : StaysIn c r.2 := by
  cases h with
  | ignored _ hsame => exact .of_auth hauth hsame.auth
  | accepted s _ _ hstaged _ _ hlogon hafter =>
    have hset : StaysIn c ({ s with fromSwitch := true }.setConnAuditPrimaryAuth .switchSides) :=
      ⟨(congrArg (fun v => v.2.2.1) hstaged.same).trans hauth,
        congrArg (fun v => v.2.2.2.1) hstaged.same⟩
    have hlogged := hset.trans (logonAndTell_staysIn hset.authorized hlogon)
    exact hlogged.trans (.of_auth hlogged.authorized hafter.auth)

/-- **After login** no event throws the peer out, short of ending the loop, or changes
the type of its session. -/
theorem handle_staysIn (hshared : c.shared = env.shared) (hauth : c.authorized = true)
    (e : Event) : StaysIn c (c.handle env e).2 := by
  have hsame : StaysIn c c := ⟨hauth, rfl⟩
  cases hentry : e.entry with
  | false => exact .of_auth hauth (handle_quiet hentry).same
  | true =>
    have hgate : ∀ msg, (Event.message msg).entry = true →
        StaysIn c (c.gate env msg).2 → StaysIn c (c.handle env (.message msg)).2 := by
      intro msg hentry hgate
      have hmessage : c.onMessage env msg = c.gate env msg := by
        unfold onMessage
        split
        · cases hentry
        · rw [if_pos hauth]
      have hhandle : (c.handle env (.message msg)).2 = (c.onMessage env msg).2 := rfl
      rw [hhandle, hmessage]
      exact hgate
    have hviolation : ∀ msg, StaysIn c (c.handleAuthorizedScopeViolation env msg).2 :=
      fun msg => .of_auth hauth handleAuthorizedScopeViolation_calm.quiet.same
    rcases Event.entry_cases hentry with rfl | ⟨lr, rfl⟩ | ⟨code, hwid, rfl⟩ | ⟨uuid, login, rfl⟩
    · have hclick : c.clicked.sendLogonResponseAndKeepAlive env = (true, c.clicked) := by
        unfold sendLogonResponseAndKeepAlive
        exact if_pos hauth
      have hhandle : (c.handle env (.cm .authorize)).2
          = (c.clicked.sendLogonResponseAndKeepAlive env).2 := rfl
      rw [hhandle, hclick]
      exact ⟨hauth, rfl⟩
    · exact hgate _ hentry hsame
    · refine hgate _ hentry ?_
      unfold gate
      dsimp only
      split
      · exact hviolation _
      · exact onAuth2fa_cases.staysIn hauth
    · refine hgate _ hentry ?_
      unfold gate
      dsimp only
      split
      · exact hviolation _
      · unfold dispatch
        dsimp only
        split
        · split
          · exact (onSwitchSidesResponse_cases hshared).staysIn hauth
          · exact hsame
        · exact hsame

end Connection
end RustDesk
