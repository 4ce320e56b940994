import RustDesk.Server.Confinement

/-!
# Before the peer is in

Whatever a peer sends before it is let in, it only knocks: it gets its answers, the user is
asked, failures are reported, a tunnel may try its target, and on a headless Linux machine the
desktop of a user may be started.  No input, clipboard, file, terminal or service of the
machine is touched (**`only_knocks`**).  What is done beyond knocking is `loud`, and one lemma
for each function of login says that it is silent, or that the peer is in.
-/

namespace RustDesk

open Run

/-- What a peer that is not in may cause: an answer, a question to the user, a report, the try of a
tunnel or of a user's desktop, and the end of its connection. -/
def Effect.knock : Effect → Bool
  | .send (.loginError _ _) | .send (.testDelay _ _) => true
  | .toCm (.login _) | .toCm .close | .toCm .disconnected => true
  | .startCmIpc | .telegramCode | .portForwardConnect _ | .tryStartDesktop _ => true
  | .audit (.alarm _ _) | .qos (.networkDelay _) => true
  | .voiceCallInputDevice on => !on
  | _ => false

namespace Connection

variable {p : Platform} {env : Env p} {c c' : Connection} {lr : LoginRequest} {errMsg : String}

/-- What was done beyond knocking. -/
def loud (c : Connection) : List Effect := c.log.filter fun e => !e.knock

/-- The peer is in, or nothing loud was done. -/
def Unheeded (c c' : Connection) : Prop := c'.authorized = true ∨ c'.loud = c.loud

theorem loud_emit {e : Effect} (he : e.knock = true) : (c.emit e).loud = c.loud := by
  simp [loud, emit, he]

@[local grind =] theorem loud_sendLoginError : (c.sendLoginError env errMsg).loud = c.loud :=
  loud_emit rfl

@[local grind =] theorem loud_postAlarmAudit {typ : AlarmAuditType} {message : String} :
    (c.postAlarmAudit env typ message).loud = c.loud := by
  unfold postAlarmAudit
  split
  · rfl
  · exact loud_emit rfl

@[local grind =] theorem loud_tryStartCm {id name : String} {authorized : Bool} :
    (c.tryStartCm id name authorized).loud = c.loud := loud_emit rfl

@[local grind =] theorem loud_tryStartCmIpc : c.tryStartCmIpc.loud = c.loud := by
  unfold tryStartCmIpc
  split
  · exact loud_emit rfl
  · rfl

@[local grind =] theorem loud_updateFailureWithScope {failure : FailureEntry} {remove : Bool}
    {i : Fin 2} {scope : FailureScope} :
    (c.updateFailureWithScope env failure remove i scope).loud = c.loud := rfl

@[local grind =] theorem loud_checkFailureWithScope {i : Fin 2} {scope : FailureScope} :
    (c.checkFailureWithScope env i scope).2.loud = c.loud := by
  unfold checkFailureWithScope
  dsimp only
  split
  · rfl
  · exact loud_postAlarmAudit.trans loud_sendLoginError

@[local grind =] theorem loud_checkFailure {i : Fin 2} :
    (c.checkFailure env i).2.loud = c.loud := loud_checkFailureWithScope

@[local grind =] theorem loud_isRecentSession {tfa : Bool} :
    (c.isRecentSession env tfa).2.loud = c.loud := by
  unfold isRecentSession
  dsimp only
  split
  · split <;> rfl
  · rfl

@[local grind =] theorem loud_checkUpdateTemporaryPassword {success : Bool} :
    (c.checkUpdateTemporaryPassword env success).loud = c.loud := by
  unfold checkUpdateTemporaryPassword
  dsimp only
  split_ifs <;> rfl

@[local grind =] theorem loud_validatePassword {allow : Bool} :
    (c.validatePassword env allow).2.loud = c.loud := by
  unfold validatePassword
  dsimp only
  split
  · exact loud_checkUpdateTemporaryPassword
  · split <;> rfl

@[local grind =] theorem loud_fillTerminalUserToken {username password : String} :
    (c.fillTerminalUserToken env username password).2.loud = c.loud := by
  unfold fillTerminalUserToken handleAdministratorCheck handleInstalledUser
  repeat' split
  all_goals rfl

@[local grind =] theorem loud_checkTerminalServiceUser {osLogin : Bool} :
    (c.checkTerminalServiceUser env osLogin).2.loud = c.loud := by
  unfold checkTerminalServiceUser
  grind

@[local grind =] theorem loud_prepareTerminalLogin :
    (c.prepareTerminalLoginForAuthorization env).2.loud = c.loud := by
  unfold prepareTerminalLoginForAuthorization
  grind

@[local grind =] theorem loud_connectPortForward :
    (c.connectPortForwardIfNeeded env).2.loud = c.loud := by
  have htried : ∀ (c : Connection) addr, (c.emit (.portForwardConnect addr)).loud = c.loud :=
    fun _ _ => loud_emit rfl
  unfold connectPortForwardIfNeeded
  grind [loud]

@[local grind =] theorem authorized_logonResponse :
    (c.authorize.logonResponse env).authorized = true :=
  (congrArg Auth.authorized logonResponse_quiet.same).trans authorize_spec.2.1

theorem unheeded_sendLogonResponse : Unheeded c (c.sendLogonResponseAndKeepAlive env).2 := by
  have hlacks : (c.lacks2fa env).2.loud = c.loud := by
    unfold lacks2fa
    grind
  have hask : ∀ c : Connection, (c.askFor2fa env).loud = c.loud := by
    intro c
    unfold askFor2fa
    split
    · exact loud_sendLoginError.trans (loud_emit rfl)
    · exact loud_sendLoginError
  unfold sendLogonResponseAndKeepAlive Unheeded
  grind

theorem unheeded_logonAndTell : Unheeded c (c.logonAndTell env lr).2 := by
  have hlogon : Unheeded c (c.sendLogonResponseAndKeepAlive env).2 := unheeded_sendLogonResponse
  have htell : ∀ (c : Connection) id name b,
      (c.tryStartCm id name b).authorized = c.authorized := fun _ _ _ _ => rfl
  unfold logonAndTell Unheeded at *
  grind

theorem unheeded_checkPassword {allow : Bool} :
    Unheeded c (c.checkPassword env lr errMsg allow).2 := by
  have htold : ∀ c : Connection, Unheeded c (c.logonAndTell env lr).2 :=
    fun _ => unheeded_logonAndTell
  unfold checkPassword Unheeded at *
  split
  · grind
  · split <;> grind

@[local grind =] theorem loud_prepareBeforeClick :
    (c.prepareBeforeClick env lr).2.loud = c.loud := by
  unfold prepareBeforeClick
  grind

theorem unheeded_approveLogin : Unheeded c (c.approveLogin env lr errMsg).2 := by
  have htold : ∀ c : Connection, Unheeded c (c.logonAndTell env lr).2 :=
    fun _ => unheeded_logonAndTell
  have hpassword : ∀ (c : Connection) allow,
      Unheeded c (c.checkPassword env lr errMsg allow).2 := fun _ _ => unheeded_checkPassword
  unfold approveLogin Unheeded at *
  split
  · grind
  · split <;> grind

theorem unheeded_startDesktopAndApprove : Unheeded c (c.startDesktopAndApprove env lr).2 := by
  have hadmitted : (c.headlessAdmission env lr).2.loud = c.loud := by
    have htried : ∀ c : Connection, (c.tryStartDesktop p lr).loud = c.loud := by
      intro c
      unfold tryStartDesktop
      split
      · exact loud_emit rfl
      · rfl
    unfold headlessAdmission headlessCheck
    grind
  have hfailed : ∀ (c : Connection) msg, (c.desktopFailed env lr msg).2.loud = c.loud := by
    intro c msg
    unfold desktopFailed
    grind
  have happrove : ∀ (c : Connection) msg, Unheeded c (c.approveLogin env lr msg).2 :=
    fun _ _ => unheeded_approveLogin
  unfold startDesktopAndApprove Unheeded at *
  grind

@[local grind =] theorem loud_handleLoginRequestWithoutValidation :
    (c.handleLoginRequestWithoutValidation env lr).loud = c.loud := by
  unfold handleLoginRequestWithoutValidation checkTrustedDevice
  dsimp only
  repeat' split
  all_goals rfl

@[local grind =] theorem loud_enterScope : (c.enterScope env lr).2.loud = c.loud := by
  unfold enterScope
  grind [loud]

@[local grind =] theorem loud_resetSessionScopeForLogin :
    c.resetSessionScopeForLogin.loud = c.loud := rfl

theorem unheeded_onLoginRequest : Unheeded c (c.onLoginRequest env lr).2 := by
  have happrove : ∀ c : Connection, Unheeded c (c.startDesktopAndApprove env lr).2 :=
    fun _ => unheeded_startDesktopAndApprove
  unfold onLoginRequest Unheeded at *
  dsimp only
  split
  · exact .inl ‹_›
  · split
    · grind
    · split <;> grind

theorem unheeded_onAuth2fa {code : String} {hwid : Bytes} :
    Unheeded c (c.onAuth2fa env code hwid).2 := by
  have htold : ∀ c : Connection, Unheeded c (c.logonAndTell env c.lr).2 :=
    fun _ => unheeded_logonAndTell
  have htrusted : ∀ c : Connection, (c.addTrustedDevice env hwid).loud = c.loud ∧
      (c.addTrustedDevice env hwid).authorized = c.authorized := by
    intro c
    unfold addTrustedDevice
    split <;> exact ⟨rfl, rfl⟩
  have hpassed : ∀ c : Connection, ({ c with
      require2fa := none, connAuditTwoFactor := .totp }.setSession2fa env).loud = c.loud :=
    fun _ => rfl
  unfold onAuth2fa Unheeded at *
  split
  · grind
  · split
    · grind
    · split
      · grind
      · grind
      · dsimp only
        split <;> grind

theorem unheeded_onSwitchSidesResponse {uuid : Bytes} :
    Unheeded c (c.onSwitchSidesResponse env uuid lr).2 := by
  have htold : ∀ c : Connection, Unheeded c (c.logonAndTell env lr).2 :=
    fun _ => unheeded_logonAndTell
  have htaken : (c.takeSwitchSides env lr.myId).2.loud = c.loud := rfl
  have hswitched : ∀ c : Connection,
      ({ c with fromSwitch := true }.setConnAuditPrimaryAuth .switchSides).loud = c.loud :=
    fun _ => rfl
  have hstarted : ∀ c : Connection, c.tryStartCmIpc.authorized = c.authorized := by
    intro c
    unfold tryStartCmIpc
    split <;> rfl
  unfold onSwitchSidesResponse Unheeded at *
  dsimp only
  split
  · grind
  · split
    · split
      · grind
      · split <;> grind
    · grind

theorem loud_onTestDelay {time : Int} {fromClient : Bool} :
    (c.onTestDelay env time fromClient).loud = c.loud := by
  unfold onTestDelay
  split
  · exact loud_emit rfl
  · split
    · exact loud_emit (c := { c with lastTestDelay := none }) rfl
    · rfl

theorem loud_onClose {lock : Bool} (h : c.lockAfterSessionEnd = false) :
    (c.onClose p lock).loud = c.loud := by
  unfold onClose
  split
  · rfl
  · simp only [emit, sendToCm, h, Bool.and_false, Bool.false_and, Bool.false_eq_true, if_false]
    split <;> simp [loud, Effect.knock]

/-- **One message** from a peer that is not in. -/
theorem unheeded_onMessage (h : c.Unopened) (msg : Message) :
    Unheeded c (c.onMessage env msg).2 := by
  have hlock : c.lockAfterSessionEnd = false := congrArg PeerOptions.lockAfterSessionEnd h.untouched
  unfold onMessage
  split
  · have hquiet : (c.onClose p true).loud = c.loud := loud_onClose hlock
    refine .inr (Eq.trans ?_ hquiet)
    unfold checkRemoveSession
    dsimp only
    split_ifs <;> rfl
  · rw [h.authorized, if_neg Bool.false_ne_true]
    unfold dispatch
    split
    · exact unheeded_onLoginRequest
    · exact unheeded_onAuth2fa
    · exact .inr loud_onTestDelay
    · split
      · split
        · exact unheeded_onSwitchSidesResponse
        · exact .inr rfl
      · exact .inr rfl
    · rw [h.authorized, if_neg Bool.false_ne_true]
      exact .inr rfl

/-- **A peer that is not let in only knocks.**  In every run, in any order of its messages with
everything else: a message after which the peer is still not in does nothing loud. -/
theorem only_knocks (env₀ : Env p) (m : Meta) (before : List (Env p × Event)) (env : Env p)
    (msg : Message)
    (hout : ((exec Loop.step (start env₀ m) before).step (env, .message msg)).conn.authorized
      = false) :
    ((exec Loop.step (start env₀ m) before).step (env, .message msg)).conn.loud =
      (exec Loop.step (start env₀ m) before).conn.loud := by
  have hscoped : (exec Loop.step (start env₀ m) before).Scoped :=
    (always_of_step Loop.step_scoped (start_scoped env₀ m) before).last
  generalize exec Loop.step (start env₀ m) before = l at hscoped hout ⊢
  rcases hrunning : l.running with _ | _
  · rw [Loop.step_stopped hrunning]
  rw [Loop.step_running hrunning] at hout ⊢
  rcases hscoped hrunning with hwaiting | ⟨hauth, -⟩
  · rcases unheeded_onMessage (hwaiting.of_frame rfl : (l.conn.seeing env).Unopened)
      msg with hin | hquiet
    · cases hin.symm.trans hout
    · exact hquiet
  · have hstays := (handle_staysIn (c := l.conn.seeing env) rfl hauth (.message msg)).authorized
    rw [hout] at hstays
    cases hstays

/-- A key after a login that was not let in. -/
theorem key_only_knocks :
    ((exec Loop.step (start (.idle linux) .idle)
        [(.idle linux, .message (.loginRequest .default))]).step
      (.idle linux, .message (.keyEvent keyPress))).conn.loud =
      (exec Loop.step (start (.idle linux) .idle)
        [(.idle linux, .message (.loginRequest .default))]).conn.loud :=
  only_knocks (.idle linux) .idle [(.idle linux, .message (.loginRequest .default))]
    (.idle linux) (.keyEvent keyPress) (by decide)

end Connection
end RustDesk
