import RustDesk.Server.Admission

/-!
# Nobody gets in without proof

Two laws about every run of a connection, whatever the peer sends and in whatever
order the connection manager acts.  Authorization comes only after a first factor: the
user's click, a password, or switched sides.  Where a second factor is required, it
comes only after one of those that stand for it.

Both follow from one look at a step: what must have happened in it for the connection
to know something it did not know before.
-/

namespace RustDesk

open Logged Run

namespace Connection

variable {p : Platform} {env : Env p} {c c' : Connection} {lr : LoginRequest}

def asking (c : Connection) (env : Env p) (lr : LoginRequest) : Connection :=
  { c.seeing env with lr := lr }

def Proved (c : Connection) : Prop := c.connAuditPrimaryAuth ≠ .none ∨ c.authorized = true

def PastSecond (c : Connection) : Prop :=
  c.require2fa = none ∨ c.fromSwitch = true ∨ c.authorized = true

end Connection

open Connection

variable {p : Platform}

/-- The first factors: the user's click, a login whose password is accepted, or an answer
with the identifier registered for the peer. -/
def PrimaryAuth (l : Loop) (i : Env p × Event) : Prop :=
  l.running = true ∧
    match i.2 with
    | .cm .authorize => True
    | .message (.loginRequest lr) => (l.conn.asking i.1 lr).proves i.1 = true
    | .message (.switchSidesResponse uuid (some lr)) => Switches i.1 uuid lr
    | _ => False

/-- What stands for a second factor: the user's click, switched sides, a code, a trusted
device, or a recent session of the login's key that had one. -/
def SecondAuth (l : Loop) (i : Env p × Event) : Prop :=
  l.running = true ∧
    match i.2 with
    | .cm .authorize => True
    | .message (.switchSidesResponse uuid (some lr)) => Switches i.1 uuid lr
    | .message (.auth2fa code _) =>
      ∃ totp, l.conn.require2fa = some totp ∧ i.1.checkCurrent totp code = some true
    | .message (.loginRequest lr) =>
      trusts i.1 lr = true ∨
        ∃ session, i.1.shared.sessions ⟨lr.myId, lr.myName, lr.sessionId⟩ = some session ∧
          i.1.now - session.lastRecvTime < sessionTimeout ∧ session.tfa = true
    | _ => False

namespace Connection

variable {env : Env p} {c c' : Connection} {lr : LoginRequest} {r : Bool × Connection}

theorem Logon.asked (h : Logon env c r) : r.2.asked = c.asked := by
  cases h with
  | waits _ _ hsame => exact congrArg (fun v => v.1.1) hsame.standing.same
  | refused hsame => exact congrArg Prod.fst hsame.same
  | enters s hconnected _ =>
    have hresponse : (s.authorize.logonResponse env).asked = s.authorize.asked :=
      congrArg (fun a : Auth => (a.require2fa, a.fromSwitch, a.connAuditPrimaryAuth, a.lr,
        a.fileTransfer, a.viewCamera, a.terminal)) logonResponse_quiet.same
    have hauthorize : s.authorize.asked = s.asked := congrArg Prod.fst authorize_spec.1.same
    exact hresponse.trans (hauthorize.trans (congrArg Prod.fst hconnected.demand.same))

theorem Logon.second (h : Logon env c r) (hauth : c.authorized = false)
    (hin : r.2.authorized = true) :
    c.require2fa = none ∨ c.fromSwitch = true ∨ (c.isRecentSession env true).1 = true := by
  cases h with
  | waits _ _ hsame =>
    rw [congrArg Auth.authorized hsame.auth, hauth] at hin
    cases hin
  | refused hsame =>
    have hkept : _ = c.authorized := congrArg (fun v => v.2.1) hsame.same
    rw [hauth] at hkept
    cases hkept.symm.trans hin
  | enters _ _ hsecond => exact hsecond

theorem Proved.of_auth (h : c'.Proved) (hauth : c'.toAuth = c.toAuth) : c.Proved := by
  rcases h with h | h
  · exact .inl (by rwa [congrArg Auth.connAuditPrimaryAuth hauth] at h)
  · exact .inr (by rwa [congrArg Auth.authorized hauth] at h)

theorem PastSecond.of_auth (h : c'.PastSecond) (hauth : c'.toAuth = c.toAuth) : c.PastSecond := by
  rcases h with h | h | h
  · exact .inl (by rwa [congrArg Auth.require2fa hauth] at h)
  · exact .inr (.inl (by rwa [congrArg Auth.fromSwitch hauth] at h))
  · exact .inr (.inr (by rwa [congrArg Auth.authorized hauth] at h))

theorem Proved.of_untouched (h : c'.Proved) (hsame : Within log untouched Waits c c') :
    c.Proved := by
  have hprimary : c'.connAuditPrimaryAuth = c.connAuditPrimaryAuth :=
    congrArg (fun v => v.2.1) hsame.same
  have hauthorized : c'.authorized = c.authorized := congrArg (fun v => v.2.2.1) hsame.same
  rwa [Proved, hprimary, hauthorized] at h

theorem logonAndTell_pastSecond (hauth : c.authorized = false)
    (h : (c.logonAndTell env lr).2.PastSecond) :
    c.PastSecond ∨ (c.isRecentSession env true).1 = true := by
  have hlogon : Logon env c (c.sendLogonResponseAndKeepAlive env) :=
    sendLogonResponseAndKeepAlive_logon hauth
  have hin : (c.sendLogonResponseAndKeepAlive env).2.PastSecond := by
    unfold logonAndTell at h
    rcases hr : c.sendLogonResponseAndKeepAlive env with ⟨_ | _, c₁⟩ <;> rw [hr] at h <;> exact h
  rcases hin with hnone | hyes | hyes
  · exact .inl (.inl ((congrArg Prod.fst hlogon.asked).symm.trans hnone))
  · exact .inl (.inr (.inl ((congrArg (fun v => v.2.1) hlogon.asked).symm.trans hyes)))
  · rcases hlogon.second hauth hyes with hnone | hswitch | hrecent
    · exact .inl (.inl hnone)
    · exact .inl (.inr (.inl hswitch))
    · exact .inr hrecent

variable {s : Connection}

theorem Approval.proved (h : Approval env lr s r)
    (hproved : r.2.Proved) : s.Proved ∨ s.proves env = true := by
  cases h with
  | silent auth hproof _ hsame =>
    rcases hproof with rfl | hproof
    · exact .inl (hproved.of_auth hsame.auth)
    · exact .inr hproof
  | tells c₁ hsame hafter =>
    have hasked := hproved.of_auth hafter.auth
    exact .inl (Proved.of_auth hasked hsame.auth)
  | refused hsame => exact .inl (hproved.of_auth hsame.auth)
  | logsOn _ _ hproof _ _ => exact .inr hproof

theorem Approval.pastSecond (h : Approval env lr s r)
    (hauth : s.authorized = false) (hpast : r.2.PastSecond) :
    s.PastSecond ∨ (s.isRecentSession env true).1 = true := by
  cases h with
  | silent auth _ _ hsame =>
    have hkept : (s.setConnAuditPrimaryAuth auth).PastSecond := hpast.of_auth hsame.auth
    exact .inl hkept
  | tells c₁ hsame hafter =>
    have hasked := hpast.of_auth hafter.auth
    exact .inl (PastSecond.of_auth hasked hsame.auth)
  | refused hsame => exact .inl (hpast.of_auth hsame.auth)
  | logsOn c₁ auth _ hsame hsessions =>
    have hauth₁ : c₁.authorized = false := by
      rw [congrArg Auth.authorized hsame.auth]
      exact hauth
    rcases logonAndTell_pastSecond hauth₁ hpast with hback | hrecent
    · have hkept : (s.setConnAuditPrimaryAuth auth).PastSecond := hback.of_auth hsame.auth
      exact .inl hkept
    · exact .inr (hsessions.recent hrecent)

theorem PastSecond.of_staged (h : s.PastSecond) (hstaged : Staged env lr c s) :
    c.PastSecond ∨ trusts env lr = true := by
  rcases h with hnone | hyes | hyes
  · rcases hstaged.second with hsame | htrusts
    · exact .inl (.inl (hsame ▸ hnone))
    · exact .inr htrusts
  · have hswitch : s.fromSwitch = c.fromSwitch := congrArg Prod.fst hstaged.untouched.same
    exact .inl (.inr (.inl (hswitch ▸ hyes)))
  · have hauthorized : s.authorized = c.authorized :=
      congrArg (fun v => v.2.2.1) hstaged.untouched.same
    exact .inl (.inr (.inr (hauthorized ▸ hyes)))

theorem acceptsCode_totp {code : String} (h : c.acceptsCode env code = true) :
    ∃ totp, c.require2fa = some totp ∧ env.checkCurrent totp code = some true := by
  unfold acceptsCode at h
  rw [Bool.and_eq_true_iff] at h
  rcases hrequired : c.require2fa with _ | totp
  · rw [hrequired] at h
    cases h.2
  · rw [hrequired] at h
    exact ⟨totp, rfl, by simpa using h.2⟩

end Connection

/-- The code for the second factor comes after the first one: while the peer is not in,
no code is accepted before a proof was noted. -/
def CodeAfterProof (l : Loop) (i : Env p × Event) : Prop :=
  match i.2 with
  | .message (.auth2fa code _) =>
    l.running = true → l.conn.authorized = false →
      (l.conn.seeing i.1).acceptsCode i.1 code = true → l.conn.connAuditPrimaryAuth ≠ .none
  | _ => True

theorem Loop.step_proved (l : Loop) (i : Env p × Event) (hcode : CodeAfterProof l i)
    (h : (l.step i).conn.Proved) : l.conn.Proved ∨ PrimaryAuth l i := by
  obtain ⟨env, e⟩ := i
  by_cases hproved : l.conn.Proved
  · exact .inl hproved
  rcases hrunning : l.running with _ | _
  · rw [step_stopped hrunning] at h
    exact .inl h
  rw [step_running hrunning] at h
  obtain ⟨hprimary, hauth⟩ : l.conn.connAuditPrimaryAuth = .none ∧ l.conn.authorized = false := by
    simpa [Proved] using hproved
  have hbefore := handle_before (c := l.conn.seeing env) rfl hauth e
  generalize (l.conn.seeing env).handle env e = r at h hbefore
  cases hbefore with
  | calm hcalm => exact .inl (h.of_auth hcalm.quiet.same)
  | click => exact .inr ⟨hrunning, trivial⟩
  | rejected s hstaged hsame =>
    have hback : (l.conn.seeing env).Proved := (h.of_auth hsame.auth).of_untouched hstaged.untouched
    exact .inl hback
  | login s _ hstaged _ happroval =>
    rcases happroval.proved h with hback | hproves
    · have hback : (l.conn.seeing env).Proved := hback.of_untouched hstaged.untouched
      exact .inl hback
    · rw [proves_congr hstaged.inputs] at hproves
      exact .inr ⟨hrunning, hproves⟩
  | code _ hway =>
    cases hway with
    | ignored hsame => exact .inl (h.of_auth hsame.auth)
    | accepted hcode' => exact absurd hprimary (hcode hrunning hauth hcode')
  | switch _ hway =>
    cases hway with
    | ignored _ hsame => exact .inl (h.of_auth hsame.auth)
    | accepted _ hswitches => exact .inr ⟨hrunning, hswitches⟩

theorem Loop.step_pastSecond (l : Loop) (i : Env p × Event) (h : (l.step i).conn.PastSecond) :
    l.conn.PastSecond ∨ SecondAuth l i := by
  obtain ⟨env, e⟩ := i
  by_cases hpast : l.conn.PastSecond
  · exact .inl hpast
  rcases hrunning : l.running with _ | _
  · rw [step_stopped hrunning] at h
    exact .inl h
  rw [step_running hrunning] at h
  have hauth : l.conn.authorized = false := by
    simp only [PastSecond, not_or] at hpast
    simpa using hpast.2.2
  have hbefore := handle_before (c := l.conn.seeing env) rfl hauth e
  generalize (l.conn.seeing env).handle env e = r at h hbefore
  cases hbefore with
  | calm hcalm => exact .inl (h.of_auth hcalm.quiet.same)
  | click => exact .inr ⟨hrunning, trivial⟩
  | rejected s hstaged hsame =>
    rcases (h.of_auth hsame.auth).of_staged hstaged with hback | htrusts
    · exact .inl hback
    · exact .inr ⟨hrunning, .inl htrusts⟩
  | login s _ hstaged _ happroval =>
    have hauth' : s.authorized = false :=
      (congrArg (fun v => v.2.2.1) hstaged.untouched.same).trans hauth
    rcases happroval.pastSecond hauth' h with hback | hrecent
    · rcases hback.of_staged hstaged with hback | htrusts
      · exact .inl hback
      · exact .inr ⟨hrunning, .inl htrusts⟩
    · rw [isRecentSession_congr (sessionInputs_of_inputs hstaged.inputs)] at hrecent
      obtain ⟨session, hsession, htime, -, htfa⟩ := isRecentSession_tfa_iff.mp hrecent
      exact .inr ⟨hrunning, .inr ⟨session, hsession, htime, htfa⟩⟩
  | code _ hway =>
    cases hway with
    | ignored hsame => exact .inl (h.of_auth hsame.auth)
    | accepted hcode =>
      obtain ⟨totp, hrequired, hcurrent⟩ := acceptsCode_totp hcode
      exact .inr ⟨hrunning, totp, hrequired, hcurrent⟩
  | switch _ hway =>
    cases hway with
    | ignored _ hsame => exact .inl (h.of_auth hsame.auth)
    | accepted _ hswitches => exact .inr ⟨hrunning, hswitches⟩

/-- **The first factor is never skipped**, as long as no code is accepted before it.  If
the peer is in at the end of a run, the user clicked, a password was accepted, or sides
were switched, in a step of that run. -/
theorem authorized_after_primary (env : Env p) (m : Meta) (is : List (Env p × Event))
    (hcode : Along Loop.step CodeAfterProof (start env m) is)
    (h : (exec Loop.step (start env m) is).conn.authorized = true) :
    Happens Loop.step PrimaryAuth (start env m) is := by
  refine happens_of_gained (P := fun l : Loop => l.conn.Proved) Loop.step_proved ?_ hcode (.inr h)
  intro hproved
  rcases hproved.of_auth sendPermissions_steady.auth with hprimary | hauth
  · exact hprimary rfl
  · cases hauth

def linux : Platform := .idle ⟨.linux, true, true, false⟩

def guarded : Meta := { Meta.idle with require2fa := some [0] }

def codeTime : Env linux := { Env.idle linux with checkCurrent := fun _ _ => some true }

def factorsTime : Env linux :=
  { codeTime with shared := { Shared.idle with temporaryPassword := "secret" } }

/-- A login with the password, and then a code. -/
def bothFactors : List (Env linux × Event) :=
  [(factorsTime, .message (.loginRequest { LoginRequest.default with
      myId := "peer", password := asBytes "secretsaltchallenge" })),
    (factorsTime, .message (.auth2fa "123456" []))]

/-- The password is the proof: the code comes after it. -/
theorem authorized_after_both :
    (exec Loop.step (start factorsTime guarded) bothFactors).conn.authorized = true ∧
      Happens Loop.step PrimaryAuth (start factorsTime guarded) bothFactors := by
  have hin : (exec Loop.step (start factorsTime guarded) bothFactors).conn.authorized = true := by
    decide +kernel
  refine ⟨hin, authorized_after_primary _ _ _ ⟨trivial, fun _ _ _ => ?_, trivial⟩ hin⟩
  decide +kernel

/-- A code alone lets the peer in: no click, no password, no switched sides. -/
theorem authorized_by_code_alone :
    (exec Loop.step (start codeTime guarded)
      [(codeTime, .message (.auth2fa "123456" []))]).conn.authorized = true ∧
    ¬Happens Loop.step PrimaryAuth (start codeTime guarded)
      [(codeTime, .message (.auth2fa "123456" []))] := by
  refine ⟨by decide, ?_⟩
  rintro (⟨-, hfalse⟩ | hfalse)
  · exact hfalse
  · exact hfalse

/-- **The second factor is never skipped.**  If one was required when the connection
started and the peer is in at the end of a run, a step of that run brought what stands
for it. -/
theorem authorized_after_second (env : Env p) (m : Meta) (totp : Totp)
    (is : List (Env p × Event)) (hrequired : m.require2fa = some totp)
    (h : (exec Loop.step (start env m) is).conn.authorized = true) :
    Happens Loop.step SecondAuth (start env m) is := by
  refine happens_of_gained (P := fun l : Loop => l.conn.PastSecond) (C := fun _ _ => True)
    (fun l i _ => Loop.step_pastSecond l i) ?_ (along_of_forall (fun _ _ => trivial) _ _)
    (.inr (.inr h))
  intro hpast
  rcases hpast.of_auth sendPermissions_steady.auth with hnone | hswitch | hauth
  · have hsome : (Connection.new env m).require2fa = some totp := hrequired
    rw [hsome] at hnone
    cases hnone
  · cases hswitch
  · cases hauth

/-- The password alone leaves the peer outside, the code lets it in. -/
theorem guarded_after_both :
    (exec Loop.step (start factorsTime guarded) (bothFactors.take 1)).conn.authorized = false ∧
      Happens Loop.step SecondAuth (start factorsTime guarded) bothFactors := by
  have hin : (exec Loop.step (start factorsTime guarded) bothFactors).conn.authorized = true := by
    decide +kernel
  exact ⟨by decide +kernel, authorized_after_second _ _ [0] _ rfl hin⟩

end RustDesk
