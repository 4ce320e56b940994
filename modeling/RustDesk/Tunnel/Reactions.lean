import RustDesk.Tunnel.Carries

/-!
# What the server does in its loop

A reaction of the loop sends messages, and the loop goes on or is left.  `Reacts` says what a
reaction may be for the tunnel to stay in order, and `Core.react` that it then does.  The
handlers are checked against it: a click needs the client to have nothing more to say
(`Ordered.reacts_onAuthorize`), a message may let the peer in and then waits for the reply to the
delay test that is out (`Ordered.reacts_handleMessage`).
-/

namespace RustDesk

open List

namespace Tunnel

variable {session : Session} {t t' : Tunnel} {asked : List ClientMessage}
  {told : List ServerMessage}

theorem Carries.mono (h : t.Carries) (happ : t.app.wrote <+: t'.app.wrote)
    (htarget : t.target.wrote <+: t'.target.wrote) (hgotApp : t'.app.got = t.app.got)
    (hgotTarget : t'.target.got = t.target.got)
    (hclientIn : t'.client.stream.framedIn = t.client.stream.framedIn)
    (hclientOut : t.client.stream.framedOut ≤ t'.client.stream.framedOut)
    (hserverIn : t'.server.stream.framedIn = t.server.stream.framedIn)
    (hserverOut : t.server.stream.framedOut ≤ t'.server.stream.framedOut) : t'.Carries := by
  obtain ⟨⟨hbegins, hframed⟩, hbegins', hframed'⟩ := h
  refine ⟨⟨?_, ?_⟩, ?_, ?_⟩
  · rw [hgotTarget]
    exact hbegins.trans happ
  · omega
  · rw [hgotApp]
    exact hbegins'.trans htarget
  · omega

theorem Carries.leaveLoop (h : t.Carries) : t.leaveLoop.Carries := by
  unfold Tunnel.leaveLoop
  split_ifs
  · exact h.mono (prefix_refl _) (prefix_refl _) rfl rfl rfl (Nat.le_refl _) rfl
      (Nat.le_refl _)
  · exact ⟨h.toTarget, h.toApp⟩

structure Reacts (t : Tunnel) (asked : List ClientMessage) (told : List ServerMessage)
    (r : Server.Reaction) : Prop where
  stream : r.2.1.stream = t.server.stream
  phase : r.2.1.phase = .loop
  authorized : t.server.authorized = true → r.2.1.authorized = true
  outside : r.2.1.authorized = false → ∀ m ∈ r.2.2, m.isPeerInfo = false
  hash : ∀ m ∈ r.2.2, m.isHash = false
  turned : t.client.stream.codec.raw = true →
    r.2.2.countP ServerMessage.isTest = 0 ∧ (t.client.phase ≠ .ended → r.2.2 = [])
  entered : r.2.1.authorized = true → t.client.phase = .login → ∃ before info,
    told ++ r.2.2 = before ++ [.peerInfo info] ∧ ∀ m ∈ before, m.isPeerInfo = false
  stays : r.1 = true → r.2.1.portForwardSocket = r.2.1.authorized ∧
    (r.2.1.authorized = true → r.2.1.lastTestDelay = true) ∧
    testsOut asked (told ++ r.2.2) = if r.2.1.lastTestDelay then 1 else 0
  turns : r.1 = false → r.2.1.portForwardSocket = true → r.2.1.authorized = true ∧ asked = [] ∧
    ∀ m ∈ told ++ r.2.2, m.isHash = false ∧ m.isTest = false

theorem Core.endServer (h : Core session t asked told) : Core session t.endServer asked told where
  carries := ⟨h.carries.toTarget, h.carries.toApp⟩
  up hserver := absurd rfl hserver
  down := h.down
  serverLoop := nofun
  serverRaw := nofun
  serverTurned := h.serverTurned
  clientLogin := h.clientLogin
  clientRaw := h.clientRaw
  clientTurned := h.clientTurned
  outside := h.outside
  hash := h.hash
  replies := h.replies

theorem Core.turnServer (h : Core session t [] told) (hloop : t.server.phase = .loop)
    (hauth : t.server.authorized = true) (hsocket : t.server.portForwardSocket = true) :
    Core session t.leaveLoop [] told := by
  have hcarries := h.carries.leaveLoop
  have hleave : t.leaveLoop = { t with server := { t.server with
      stream := t.server.stream.setRaw, portForwardSocket := false, phase := .forwarding } } :=
    if_pos hsocket
  rw [hleave] at hcarries ⊢
  obtain ⟨raw, hup, hbytes⟩ := h.up (by rw [hloop]; nofun)
  refine ⟨hcarries, fun _ => ⟨raw, hup.readRaw, hbytes⟩, fun hclient => ?_, nofun, fun _ => rfl,
    fun _ => hauth, h.clientLogin, h.clientRaw, h.clientTurned, h.outside, h.hash, h.replies⟩
  obtain ⟨raw', hdown, hbytes'⟩ := h.down hclient
  exact ⟨raw', hdown.writeRaw, hbytes'⟩

variable {r : Server.Reaction}

theorem Core.tells (h : Core session t asked told)
    (hloop : t.server.phase = .loop) (hr : t.Reacts asked told r)
    (hok : (tell session { t with server := r.2.1 } r.2.2).streamFailed = false) :
    Core session (tell session { t with server := r.2.1 } r.2.2) asked (told ++ r.2.2) := by
  obtain ⟨stream, wire, failed, heq, hkept, hsent⟩ :=
    tell_cases session { t with server := r.2.1 } r.2.2
  rw [heq] at hok ⊢
  obtain ⟨-, hnone, hflight⟩ := hsent hok
  rw [hr.stream] at hkept hnone hflight
  have hraw : t.server.stream.codec.raw = false := h.serverLoop hloop
  have hraw' : stream.codec.raw = false := by rw [hkept.codec, hraw]
  constructor
  case carries =>
    exact h.carries.mono (prefix_refl _) (prefix_refl _) rfl rfl rfl (Nat.le_refl _)
      hkept.framedIn hkept.framedOut
  case up =>
    intro _
    obtain ⟨raw, hup, hbytes⟩ := h.up (by rw [hloop]; nofun)
    exact ⟨raw, hup.reader_kept hkept, hbytes⟩
  case down =>
    intro hclient
    obtain ⟨raw, hdown, hbytes⟩ := h.down hclient
    refine ⟨raw, ?_, hbytes⟩
    cases hturned : t.client.stream.codec.raw with
    | false => exact hflight _ _ _ hraw hturned hdown
    | true =>
      have hnothing := (hr.turned hturned).2 hclient
      obtain ⟨hstream, hwire⟩ := hnone hnothing
      rw [hnothing, append_nil, hstream, hwire]
      exact hdown
  case serverLoop => exact fun _ => hraw'
  case serverRaw => exact fun hforward => absurd (hr.phase.symm.trans hforward) nofun
  case serverTurned => exact fun hturned => absurd (hraw'.symm.trans hturned) nofun
  case clientLogin => exact h.clientLogin
  case clientRaw => exact h.clientRaw
  case clientTurned =>
    intro hturned
    obtain ⟨hauth, hnone, hempty⟩ := h.clientTurned hturned
    obtain ⟨hnone', hempty'⟩ := hr.turned hturned
    refine ⟨hr.authorized hauth, ?_, fun hclient => ?_⟩
    · rw [countP_append, hnone, hnone']
    · rw [hempty hclient, hempty' hclient]
      rfl
  case outside =>
    intro hauth m hm
    have hauth' : t.server.authorized = false := by
      cases hbefore : t.server.authorized with
      | false => rfl
      | true => exact (hr.authorized hbefore).symm.trans hauth
    rcases mem_append.mp hm with hm | hm
    · exact h.outside hauth' m hm
    · exact hr.outside hauth m hm
  case hash =>
    refine ⟨fun m hm => ?_, fun hread m hm => ?_⟩
    · cases told with
      | nil => exact hr.hash m (mem_of_mem_tail hm)
      | cons first told =>
        rcases mem_append.mp hm with hm | hm
        · exact h.hash.1 m hm
        · exact hr.hash m hm
    · rcases mem_append.mp hm with hm | hm
      · exact h.hash.2 hread m hm
      · exact hr.hash m hm
  case replies => exact h.replies

theorem Carries.react (h : t.Carries) (hstream : r.2.1.stream = t.server.stream) :
    (t.react session r).Carries := by
  obtain ⟨stream, wire, failed, heq, hkept, -⟩ := tell_cases session { t with server := r.2.1 } r.2.2
  rw [hstream] at hkept
  have htold : (tell session { t with server := r.2.1 } r.2.2).Carries := by
    rw [heq]
    exact h.mono (prefix_refl _) (prefix_refl _) rfl rfl rfl (Nat.le_refl _)
      hkept.framedIn hkept.framedOut
  unfold Tunnel.react
  dsimp only
  split_ifs
  · exact htold
  · exact htold.leaveLoop

theorem Core.react (h : Core session t asked told)
    (hloop : t.server.phase = .loop) (hr : t.Reacts asked told r) :
    Good session (t.react session r) := by
  refine ⟨h.carries.react hr.stream, fun hok => ⟨asked, told ++ r.2.2, ?_⟩⟩
  obtain ⟨stream, wire, failed, heq, -⟩ := tell_cases session { t with server := r.2.1 } r.2.2
  have hserver : (tell session { t with server := r.2.1 } r.2.2).server =
      { r.2.1 with stream := stream } := by rw [heq]
  have hclient : (tell session { t with server := r.2.1 } r.2.2).client = t.client := by rw [heq]
  have hcore := h.tells hloop hr
  unfold Tunnel.react at hok ⊢
  dsimp only at hok ⊢
  generalize tell session { t with server := r.2.1 } r.2.2 = t₁ at hok hserver hclient hcore ⊢
  have hphase : t₁.server.phase = .loop := by rw [hserver]; exact hr.phase
  cases hstay : r.1 with
  | true =>
    rw [hstay, if_pos rfl] at hok
    rw [if_pos rfl]
    obtain ⟨hsocket, hwaiting, hdelay⟩ := hr.stays hstay
    refine ⟨hcore hok, ?_, fun _ => ?_, fun hforward => ?_⟩
    · rw [hserver, hclient]
      exact hr.entered
    · constructor
      · rw [hserver]
        exact hsocket
      · rw [hserver]
        exact hwaiting
      · rw [hserver]
        exact hdelay
    · exact absurd (hphase.symm.trans hforward) nofun
  | false =>
    rw [hstay, if_neg Bool.false_ne_true] at hok
    rw [if_neg Bool.false_ne_true]
    cases hsocket : t₁.server.portForwardSocket with
    | false =>
      have hleave : t₁.leaveLoop = t₁.endServer := if_neg (by rw [hsocket]; nofun)
      rw [hleave] at hok ⊢
      refine ⟨(hcore hok).endServer, ?_, nofun, nofun⟩
      intro hauth hlogin
      change t₁.server.authorized = true at hauth
      change t₁.client.phase = .login at hlogin
      rw [hserver] at hauth
      rw [hclient] at hlogin
      exact hr.entered hauth hlogin
    | true =>
      have hok' : t₁.streamFailed = false := by
        unfold leaveLoop at hok
        rw [if_pos hsocket] at hok
        exact hok
      have hsocket' : r.2.1.portForwardSocket = true := by
        rw [hserver] at hsocket
        exact hsocket
      obtain ⟨hauth, rfl, hquiet⟩ := hr.turns hstay hsocket'
      have hauth' : t₁.server.authorized = true := by rw [hserver]; exact hauth
      refine ⟨(hcore hok').turnServer hphase hauth' hsocket, ?_, ?_, fun _ => hquiet⟩
      · intro _ hlogin
        have hlogin' : t.client.phase = .login := by
          unfold leaveLoop at hlogin
          rw [if_pos hsocket, hclient] at hlogin
          exact hlogin
        exact hr.entered hauth hlogin'
      · intro hloop'
        unfold leaveLoop at hloop'
        rw [if_pos hsocket] at hloop'
        cases hloop'

def ServerMessage.plain : ServerMessage → Bool
  | .loginError _ | .other _ => true
  | _ => false

theorem ServerMessage.plain_spec {m : ServerMessage} (h : m.plain = true) :
    m.isHash = false ∧ m.isPeerInfo = false ∧ m.isTest = false := by
  cases m with
  | loginError | other => exact ⟨rfl, rfl, rfl⟩
  | hash | peerInfo | testDelay => exact absurd h (by simp [ServerMessage.plain])

theorem loginError_plain (error : Option Bytes) :
    ∀ m ∈ (error.map ServerMessage.loginError).toList, m.plain = true := by
  intro m hm
  cases error with
  | none => cases hm
  | some error => rw [mem_singleton.mp hm]; rfl

theorem countP_isTest_eq_zero {ms : List ServerMessage} (h : ∀ m ∈ ms, m.isTest = false) :
    ms.countP ServerMessage.isTest = 0 := by
  rw [countP_eq_zero]
  intro m hm
  rw [h m hm]
  exact Bool.false_ne_true

theorem Core.client_framed (h : Core session t asked told) (hauth : t.server.authorized = false) :
    t.client.stream.codec.raw = false := by
  cases hturned : t.client.stream.codec.raw with
  | false => rfl
  | true =>
    rw [(h.clientTurned hturned).1] at hauth
    cases hauth

/-- **Plain messages** are sent to a peer that is not let in, or when the client is gone.  The
connection may close with them. -/
theorem Ordered.reacts_plain (h : Ordered session t asked told) (hloop : t.server.phase = .loop)
    {keep : Bool} {s' : Server} {out : List ServerMessage}
    (hs' : s' = t.server ∧ (t.server.authorized = true → keep = true) ∨
      s' = t.server.onClose ∧ keep = false)
    (hplain : ∀ m ∈ out, m.plain = true)
    (hsafe : t.server.authorized = true → out = [] ∨ t.client.phase = .ended) :
    t.Reacts asked told (keep, s', out) := by
  have hauth : s'.authorized = t.server.authorized := by
    rcases hs' with ⟨rfl, -⟩ | ⟨rfl, -⟩ <;> rfl
  have htests : out.countP ServerMessage.isTest = 0 :=
    countP_isTest_eq_zero fun m hm => (ServerMessage.plain_spec (hplain m hm)).2.2
  have hwaits := h.waits hloop
  constructor
  case stream => rcases hs' with ⟨rfl, -⟩ | ⟨rfl, -⟩ <;> rfl
  case phase => rcases hs' with ⟨rfl, -⟩ | ⟨rfl, -⟩ <;> exact hloop
  case authorized => exact fun hbefore => hauth.trans hbefore
  case outside => exact fun _ m hm => (ServerMessage.plain_spec (hplain m hm)).2.1
  case hash => exact fun m hm => (ServerMessage.plain_spec (hplain m hm)).1
  case turned =>
    intro hturned
    refine ⟨htests, fun hclient => ?_⟩
    rcases hsafe (h.clientTurned hturned).1 with hnone | hended
    · exact hnone
    · exact absurd hended hclient
  case entered =>
    intro hafter hlogin
    have hbefore : t.server.authorized = true := hauth ▸ hafter
    rcases hsafe hbefore with rfl | hended
    · rw [append_nil]
      exact h.entered hbefore hlogin
    · rw [hlogin] at hended
      cases hended
  case stays =>
    intro hkeep
    rcases hs' with ⟨rfl, -⟩ | ⟨-, hclose⟩
    · refine ⟨hwaits.socket, hwaits.waiting, ?_⟩
      rw [testsOut, countP_append, htests]
      exact hwaits.delay
    · rw [show keep = true from hkeep] at hclose
      cases hclose
  case turns =>
    intro hkeep hsocket
    rcases hs' with ⟨rfl, hopen⟩ | ⟨rfl, -⟩
    · have hbefore : t.server.authorized = true := hwaits.socket ▸ hsocket
      rw [show keep = false from hkeep] at hopen
      exact absurd (hopen hbefore) Bool.false_ne_true
    · cases hsocket

theorem Ordered.answered (h : Ordered session t asked told) (hloop : t.server.phase = .loop)
    (hdelay : t.server.lastTestDelay = false) {k : Nat} (hanswered : t.Answered k) :
    asked.length = k ∧ ∀ m ∈ told, m.isHash = false ∧ m.isTest = false := by
  obtain ⟨raw, hup, -⟩ := h.up (by rw [hloop]; nofun)
  have hcount := hup.counted
  have htests := (h.waits hloop).delay
  rw [hdelay, testsOut] at htests
  have hnone : told.countP ServerMessage.isTest = 0 := by
    have : (if false = true then 1 else 0) = 0 := rfl
    omega
  refine ⟨?_, fun m hm => ⟨h.hash.2 hanswered.1 m hm, ?_⟩⟩
  · have hsent := hanswered.2
    omega
  · have := countP_eq_zero.mp hnone m hm
    simpa using this

/-- **The peer is let in.**  The loop goes on only to wait for the reply to a delay test. -/
theorem Ordered.reacts_admitted (h : Ordered session t asked told)
    (hloop : t.server.phase = .loop) (hauth : t.server.authorized = false) (info : Bytes)
    {keep : Bool} (hkeep : keep = true → t.server.lastTestDelay = true)
    (hturn : keep = false → asked = [] ∧ ∀ m ∈ told, m.isHash = false ∧ m.isTest = false) :
    t.Reacts asked told (keep, { t.server with authorized := true, portForwardSocket := true },
      [.peerInfo info]) := by
  constructor
  case stream => rfl
  case phase => exact hloop
  case authorized => exact fun _ => rfl
  case outside => exact nofun
  case hash => simp [ServerMessage.isHash]
  case turned =>
    intro hturned
    rw [h.client_framed hauth] at hturned
    cases hturned
  case entered => exact fun _ _ => ⟨told, info, rfl, h.outside hauth⟩
  case stays =>
    intro hstay
    refine ⟨rfl, fun _ => hkeep hstay, ?_⟩
    rw [testsOut, countP_append]
    exact (h.waits hloop).delay
  case turns =>
    intro hleave _
    obtain ⟨hasked, hquiet⟩ := hturn hleave
    refine ⟨rfl, hasked, fun m hm => ?_⟩
    rcases mem_append.mp hm with hm | hm
    · exact hquiet m hm
    · rw [mem_singleton.mp hm]
      exact ⟨rfl, rfl⟩

variable {v : Verdict}

/-- **A click** is safe when the client has nothing more to say and no delay test is out. -/
theorem Ordered.reacts_onAuthorize (h : Ordered session t asked told)
    (hloop : t.server.phase = .loop)
    (hsafe : v.admits = true ∨ t.server.authorized = true →
      t.server.lastTestDelay = false ∧ t.Answered 0) :
    t.Reacts asked told (t.server.onAuthorize v) := by
  have hwaits := h.waits hloop
  unfold Server.onAuthorize Server.sendLogonResponseAndKeepAlive
  cases hauth : t.server.authorized with
  | true =>
    have hwaiting := hwaits.waiting hauth
    rw [(hsafe (.inr hauth)).1] at hwaiting
    cases hwaiting
  | false =>
    rw [if_neg Bool.false_ne_true]
    cases v with
    | pending error keepAlive =>
      refine h.reacts_plain hloop (.inl ⟨rfl, fun hyes => ?_⟩) (loginError_plain error)
        fun hyes => ?_
      · rw [hauth] at hyes
        cases hyes
      · rw [hauth] at hyes
        cases hyes
    | admitted info =>
      obtain ⟨hdelay, hanswered⟩ := hsafe (.inl rfl)
      obtain ⟨hlength, hquiet⟩ := h.answered hloop hdelay hanswered
      exact h.reacts_admitted hloop hauth info nofun
        fun _ => ⟨length_eq_zero_iff.mp hlength, hquiet⟩

theorem Ordered.reacts_onTestDelayTimer (h : Ordered session t asked told)
    (hloop : t.server.phase = .loop) (silent : Bool) (networkDelay : Nat) :
    t.Reacts asked told (t.server.onTestDelayTimer silent networkDelay) := by
  have hwaits := h.waits hloop
  unfold Server.onTestDelayTimer
  split_ifs with hsilent htest
  · exact h.reacts_plain hloop (.inr ⟨rfl, rfl⟩) (by simp) fun _ => .inl rfl
  · rw [hwaits.socket] at htest
    obtain ⟨hnone, hauth⟩ : t.server.lastTestDelay = false ∧ t.server.authorized = false := by
      simpa using htest
    constructor
    case stream => rfl
    case phase => exact hloop
    case authorized => exact fun hyes => hyes
    case outside => simp [ServerMessage.isPeerInfo]
    case hash => simp [ServerMessage.isHash]
    case turned =>
      intro hturned
      rw [h.client_framed hauth] at hturned
      cases hturned
    case entered =>
      intro hyes _
      rw [show _ = false from hauth] at hyes
      cases hyes
    case stays =>
      intro _
      have hdelay := hwaits.delay
      rw [hnone] at hdelay
      refine ⟨hwaits.socket, fun _ => rfl, ?_⟩
      rw [testsOut, countP_append]
      rw [testsOut] at hdelay
      simp only [countP_singleton, ServerMessage.isTest, Bool.not_false, if_true]
      have : (if false = true then 1 else 0) = 0 := rfl
      omega
    case turns => exact nofun
  · exact h.reacts_plain hloop (.inl ⟨rfl, fun _ => rfl⟩) (by simp) fun _ => .inl rfl

theorem sendLogonResponse_pending {s : Server} (hauth : s.authorized = false)
    (error : Option Bytes) (keepAlive : Bool) :
    s.sendLogonResponseAndKeepAlive (.pending error keepAlive) =
      (keepAlive, s, (error.map .loginError).toList) := by
  unfold Server.sendLogonResponseAndKeepAlive
  rw [hauth]
  rfl

variable {m : ClientMessage} {close : Bool}

theorem Ordered.reacts_login (h : Ordered session t asked told) (hloop : t.server.phase = .loop)
    (hauth : t.server.authorized = false)
    (hm : t.server.onMessage v close m = t.server.sendLogonResponseAndKeepAlive v)
    (hturn : v.admits = true → t.server.lastTestDelay = false →
      asked = [] ∧ ∀ m ∈ told, m.isHash = false ∧ m.isTest = false) :
    t.Reacts asked told (t.server.handleMessage v close m) := by
  have hclosed : t.server.authorized = true → False := by
    intro hyes
    rw [hauth] at hyes
    cases hyes
  unfold Server.handleMessage
  rw [hm]
  cases v with
  | pending error keepAlive =>
    rw [sendLogonResponse_pending hauth]
    exact h.reacts_plain hloop (.inl ⟨rfl, fun hyes => (hclosed hyes).elim⟩)
      (loginError_plain error) fun hyes => (hclosed hyes).elim
  | admitted info =>
    unfold Server.sendLogonResponseAndKeepAlive
    rw [hauth]
    refine h.reacts_admitted hloop hauth info (fun hstay => ?_) fun hleave => ?_
    · simpa using hstay
    · exact hturn rfl (by simpa using hleave)

theorem Ordered.reacts_violation (h : Ordered session t asked told)
    (hloop : t.server.phase = .loop) (hauth : t.server.authorized = true)
    (hm : t.server.onMessage v close m = t.server.handleAuthorizedScopeViolation close)
    (hended : close = true → t.client.phase = .ended) :
    t.Reacts asked told (t.server.handleMessage v close m) := by
  unfold Server.handleMessage
  rw [hm]
  unfold Server.handleAuthorizedScopeViolation
  cases close with
  | false =>
    refine h.reacts_plain hloop (.inl ⟨rfl, fun _ => ?_⟩) (by simp) fun _ => .inl rfl
    simp [(h.waits hloop).waiting hauth]
  | true =>
    exact h.reacts_plain hloop (.inr ⟨rfl, rfl⟩) (by simp [ServerMessage.plain])
      fun _ => .inr (hended rfl)

theorem Ordered.reacts_handleMessage (h : Ordered session t asked told)
    (hloop : t.server.phase = .loop)
    (hm : m.isTestDelay = false)
    (hturn : t.server.authorized = false → m.asks = true → v.admits = true →
      t.server.lastTestDelay = false →
      asked = [] ∧ ∀ m ∈ told, m.isHash = false ∧ m.isTest = false)
    (hended : t.server.authorized = true → m.outOfScope = true → close = true →
      t.client.phase = .ended) :
    t.Reacts asked told (t.server.handleMessage v close m) := by
  have hsilent : t.server.onMessage v close m = (true, t.server, []) →
      t.Reacts asked told (t.server.handleMessage v close m) := by
    intro hnothing
    unfold Server.handleMessage
    rw [hnothing]
    refine h.reacts_plain hloop (.inl ⟨rfl, fun hauth => ?_⟩) (by simp) fun _ => .inl rfl
    simp [(h.waits hloop).waiting hauth]
  cases m with
  | testDelay => cases hm
  | renderBroadcast => exact hsilent rfl
  | closeReason =>
    exact h.reacts_plain hloop (.inr ⟨rfl, rfl⟩) (by simp) fun _ => .inl rfl
  | loginRequest request =>
    cases hauth : t.server.authorized with
    | true => exact hsilent (if_pos hauth)
    | false => exact h.reacts_login hloop hauth rfl (hturn hauth rfl)
  | auth2fa code =>
    cases hauth : t.server.authorized with
    | true => exact h.reacts_violation hloop hauth (if_pos hauth) (hended hauth rfl)
    | false => exact h.reacts_login hloop hauth (if_neg (by simp [hauth])) (hturn hauth rfl)
  | switchSidesResponse response =>
    cases hauth : t.server.authorized with
    | true => exact h.reacts_violation hloop hauth (if_pos hauth) (hended hauth rfl)
    | false =>
      have hclosed : t.server.authorized = true → False := by
        intro hyes
        rw [hauth] at hyes
        cases hyes
      cases v with
      | admitted info => exact hsilent (if_neg (by simp [hauth]))
      | pending error keepAlive =>
        have hpending : t.server.onMessage (.pending error keepAlive) close
            (.switchSidesResponse response) =
            (keepAlive, t.server, (error.map .loginError).toList) :=
          if_neg (by simp [hauth])
        unfold Server.handleMessage
        rw [hpending]
        exact h.reacts_plain hloop (.inl ⟨rfl, fun hyes => (hclosed hyes).elim⟩)
          (loginError_plain error) fun hyes => (hclosed hyes).elim
  | other content =>
    cases hauth : t.server.authorized with
    | true => exact h.reacts_violation hloop hauth (if_pos hauth) (hended hauth rfl)
    | false => exact hsilent (if_neg (by simp [hauth]))

end Tunnel
end RustDesk
