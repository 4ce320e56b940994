import RustDesk.Tunnel.Reactions

/-!
# The steps of a tunnel

Each event keeps the tunnel in order, if it is safe, and so does a run (`tunnel_carries`).  The
reply to a delay test that was out at a click gets to the target
(`reply_reaches_target`).
-/

namespace RustDesk

open List

namespace Tunnel

variable {session : Session} {t t' : Tunnel} {asked : List ClientMessage}
  {told : List ServerMessage}

variable {raw : Bytes}

theorem Ordered.raw_behind_message (h : Ordered session t asked told)
    (hloop : t.server.phase = .loop)
    (hup : Flight session.fromClient t.client.stream t.server.stream t.toServer asked raw) :
    asked = [] → raw = [] := by
  rintro rfl
  apply hup.raw_of_writer
  cases hturned : t.client.stream.codec.raw with
  | false => rfl
  | true =>
    obtain ⟨hauth, hnone, -⟩ := h.clientTurned hturned
    have hwaits := h.waits hloop
    have hdelay := hwaits.delay
    rw [hwaits.waiting hauth, testsOut, hnone] at hdelay
    cases hdelay

variable {n : Nat}

theorem Core.pullServer (h : Core session t asked told) (hloop : t.server.phase = .loop)
    {asked' : List ClientMessage}
    (hkept : (t.server.stream.next n t.toServer).2.1.codec.raw = false)
    (hflight : Flight session.fromClient t.client.stream (t.server.stream.next n t.toServer).2.1
      (t.server.stream.next n t.toServer).2.2 asked' raw)
    (hbytes : t.app.wrote = t.target.got ++ (raw ++ (t.client.buffer ++ t.app.unread)))
    (hsub : ∀ m ∈ asked', m ∈ asked) : Core session (t.pullServer n) asked' told where
  carries := ⟨⟨h.carries.toTarget.isPrefix, hflight.framedIn_le⟩, ⟨h.carries.toApp.isPrefix,
    h.carries.toApp.framed⟩⟩
  up _ := ⟨raw, hflight, hbytes⟩
  down hclient := by
    obtain ⟨raw', hdown, hbytes'⟩ := h.down hclient
    have hmode : (t.pullServer n).server.stream.codec.raw = t.server.stream.codec.raw :=
      hkept.trans (h.serverLoop hloop).symm
    exact ⟨raw', hdown.congr hmode rfl rfl rfl rfl rfl rfl, hbytes'⟩
  serverLoop _ := hkept
  serverRaw hforward := absurd (hloop.symm.trans hforward) nofun
  serverTurned hturned := absurd (hkept.symm.trans hturned) nofun
  clientLogin := h.clientLogin
  clientRaw := h.clientRaw
  clientTurned := h.clientTurned
  outside := h.outside
  hash := h.hash
  replies m hm := h.replies m (hsub m hm)

theorem Ordered.pullServer (h : Ordered session t asked told) (hloop : t.server.phase = .loop)
    {asked' : List ClientMessage} (hcore : Core session (t.pullServer n) asked' told)
    (hreplies : asked'.countP ClientMessage.isReply = asked.countP ClientMessage.isReply) :
    Ordered session (t.pullServer n) asked' told := by
  refine ⟨hcore, h.entered, fun _ => ?_, h.forwards⟩
  obtain ⟨hsocket, hwaiting, hdelay⟩ := h.waits hloop
  refine ⟨hsocket, hwaiting, ?_⟩
  rw [testsOut, hreplies]
  exact hdelay

variable {m : ClientMessage}

/-- **The reply to the delay test.**  The tunnel begins with it, if the peer was let in. -/
theorem reacts_reply (hloop : t.server.phase = .loop)
    (hm : m.isReply = true) (hwaits : t.Waits (m :: asked) told)
    (hentered : t.server.authorized = true → t.client.phase = .login → ∃ before info,
      told = before ++ [.peerInfo info] ∧ ∀ m ∈ before, m.isPeerInfo = false)
    (hturn : t.server.authorized = true → asked = [] ∧ ∀ m ∈ told, m.isHash = false)
    (v : Verdict) (close : Bool) :
    t.Reacts asked told (t.server.handleMessage v close m) := by
  obtain ⟨fromClient, lastDelay, rfl, rfl⟩ :
      ∃ fromClient lastDelay, m = .testDelay fromClient lastDelay ∧ fromClient = false := by
    cases m with
    | testDelay fromClient lastDelay => exact ⟨_, _, rfl, by simpa [ClientMessage.isReply] using hm⟩
    | _ => cases hm
  obtain ⟨hsocket, hwaiting, hdelay⟩ := hwaits
  have hout : t.server.lastTestDelay = true := by
    cases hlast : t.server.lastTestDelay with
    | true => rfl
    | false =>
      rw [hlast, testsOut, countP_cons_of_pos (by rfl)] at hdelay
      exact absurd hdelay (by simp)
  have hnone : testsOut asked told = 0 := by
    rw [hout, testsOut, countP_cons_of_pos (by rfl)] at hdelay
    rw [testsOut]
    have : (if true = true then 1 else 0) = 1 := rfl
    omega
  have hreaction : t.server.handleMessage v close (.testDelay false lastDelay) =
      (!(t.server.portForwardSocket && t.server.authorized),
        { t.server with lastTestDelay := false }, []) := by
    simp [Server.handleMessage, Server.onMessage, Server.onTestDelay]
  rw [hreaction, hsocket, Bool.and_self]
  constructor
  case stream => rfl
  case phase => exact hloop
  case authorized => exact fun hyes => hyes
  case outside => simp
  case hash => simp
  case turned => exact fun _ => ⟨rfl, fun _ => rfl⟩
  case entered =>
    rw [append_nil]
    exact hentered
  case stays =>
    intro hstay
    have hauth : t.server.authorized = false := by simpa using hstay
    refine ⟨hsocket, fun hyes => ?_, ?_⟩
    · rw [show _ = false from hauth] at hyes
      cases hyes
    · rw [append_nil]
      exact hnone
  case turns =>
    intro hleave _
    have hauth : t.server.authorized = true := by simpa using hleave
    obtain ⟨hasked, hhash⟩ := hturn hauth
    refine ⟨hauth, hasked, fun m hm => ?_⟩
    rw [append_nil] at hm
    refine ⟨hhash m hm, ?_⟩
    rw [testsOut] at hnone
    have := countP_eq_zero.mp (Nat.eq_zero_of_add_eq_zero_right hnone) m hm
    simpa using this

theorem Ordered.serverNext_loop (h : Ordered session t asked told)
    (hloop : t.server.phase = .loop) {v : Verdict} {close : Bool}
    (hsafe : ∀ m ∈ t.peek session n, t.SafeMessage v close m) :
    Good session (t.serverNext session n v close) := by
  obtain ⟨raw, hup, hbytes⟩ := h.up (by rw [hloop]; nofun)
  obtain ⟨hkept, hfound⟩ := hup.next_message (h.serverLoop hloop) (h.raw_behind_message hloop hup) n
  unfold Tunnel.serverNext
  rcases hfound with ⟨hitem, hflight⟩ | ⟨m, asked', rfl, hitem, hflight⟩
  · rw [hloop, hitem]
    have hcore := h.toCore.pullServer hloop hkept hflight hbytes fun m hm => hm
    exact ⟨hcore.carries, fun _ => ⟨asked, told, h.pullServer hloop hcore rfl⟩⟩
  · have hcore := h.toCore.pullServer hloop hkept hflight hbytes fun m hm => mem_cons_of_mem _ hm
    have hpeek : t.peek session n = some m := by
      unfold peek
      rw [hitem]
      dsimp only
      rw [session.fromClient.read_write]
    have hone := hsafe m hpeek
    have hlast : t.Answered 1 → asked' = [] := by
      intro hanswered
      have hcount := hup.counted
      rw [hanswered.2, length_cons] at hcount
      exact length_eq_zero_iff.mp (by omega)
    rw [hloop, hitem]
    dsimp only
    rw [session.fromClient.read_write]
    apply hcore.react hloop
    unfold SafeMessage at hone
    cases hm : m.isTestDelay with
    | true =>
      refine reacts_reply (t := t.pullServer n) hloop (h.replies m mem_cons_self hm) ?_
        h.entered (fun hauth => ?_) v close
      · obtain ⟨hsocket, hwaiting, hdelay⟩ := h.waits hloop
        exact ⟨hsocket, hwaiting, hdelay⟩
      · rw [if_pos (show t.server.authorized = true from hauth)] at hone
        have hanswered := hone.1 hm
        exact ⟨hlast hanswered, h.hash.2 hanswered.1⟩
    | false =>
      have hpulled : Ordered session (t.pullServer n) asked' told := by
        apply h.pullServer hloop hcore
        rw [countP_cons_of_neg]
        cases m with
        | testDelay => cases hm
        | _ => exact Bool.false_ne_true
      refine hpulled.reacts_handleMessage hloop hm (fun hauth hasks hadmits hdelay => ?_)
        fun hauth hscope hclose => ?_
      · rw [if_neg (by rw [show t.server.authorized = false from hauth]; nofun)] at hone
        have hanswered := hone hasks hadmits hdelay
        exact ⟨hlast hanswered, (h.answered hloop hdelay hanswered).2⟩
      · rw [if_pos (show t.server.authorized = true from hauth)] at hone
        exact hone.2 hscope hclose

theorem Ordered.good (h : Ordered session t asked told) : Good session t :=
  ⟨h.carries, fun _ => ⟨asked, told, h⟩⟩

theorem good_of_ordered (asked : List ClientMessage) (told : List ServerMessage)
    (h : Ordered session t asked told) : Good session t := h.good

theorem Ordered.endServer (h : Ordered session t asked told) :
    Ordered session t.endServer asked told :=
  ⟨h.toCore.endServer, h.entered, nofun, nofun⟩

theorem Ordered.onServer (h : Ordered session t asked told) {r : Server.Reaction}
    (hr : t.server.phase = .loop → t.Reacts asked told r) (ends : Bool) :
    Good session (t.onServer session r ends) := by
  unfold Tunnel.onServer
  cases hphase : t.server.phase with
  | loop => exact h.toCore.react hphase (hr hphase)
  | forwarding =>
    cases ends with
    | true => exact h.endServer.good
    | false => exact h.good
  | ended => exact h.good

theorem Ordered.serverNext_forwarding (h : Ordered session t asked told)
    (hforward : t.server.phase = .forwarding) (n : Nat) (v : Verdict) (close : Bool) :
    Good session (t.serverNext session n v close) := by
  obtain ⟨raw, hup, hbytes⟩ := h.up (by rw [hforward]; nofun)
  have hraw := h.serverRaw hforward
  obtain ⟨hkept, data, raw', rfl, hitem, hflight⟩ := hup.next_raw hraw n
  have hstep : t.serverNext session n v close =
      { t.pullServer n with target := { t.target with got := t.target.got ++ data } } := by
    unfold Tunnel.serverNext
    rw [hforward, hitem]
    split_ifs with hdata
    · rw [hdata, append_nil]
      rfl
    · rfl
  have hbytes' : t.app.wrote =
      t.target.got ++ data ++ (raw' ++ (t.client.buffer ++ t.app.unread)) := by
    rw [hbytes]
    simp only [append_assoc]
  rw [hstep]
  refine good_of_ordered asked told ⟨?_, h.entered, fun hloop => ?_, h.forwards⟩
  · constructor
    case carries =>
      refine ⟨⟨?_, hflight.framedIn_le⟩, ⟨h.carries.toApp.isPrefix, h.carries.toApp.framed⟩⟩
      exact ⟨_, hbytes'.symm⟩
    case up => exact fun _ => ⟨raw', hflight, hbytes'⟩
    case down =>
      intro hclient
      obtain ⟨raw₂, hdown, htarget⟩ := h.down hclient
      exact ⟨raw₂, hdown.congr (hkept.trans hraw.symm) rfl rfl rfl rfl rfl rfl, htarget⟩
    case serverLoop => exact fun hloop => absurd (hforward.symm.trans hloop) nofun
    case serverRaw => exact fun _ => hkept
    case serverTurned => exact fun _ => h.serverTurned hraw
    case clientLogin => exact h.clientLogin
    case clientRaw => exact h.clientRaw
    case clientTurned => exact h.clientTurned
    case outside => exact h.outside
    case hash => exact h.hash
    case replies => exact h.replies
  · exact absurd (hforward.symm.trans hloop) nofun

theorem Ordered.serverNext (h : Ordered session t asked told) {v : Verdict} {close : Bool}
    (hsafe : t.server.phase = .loop → ∀ m ∈ t.peek session n, t.SafeMessage v close m) :
    Good session (t.serverNext session n v close) := by
  cases hphase : t.server.phase with
  | loop => exact h.serverNext_loop hphase (hsafe hphase)
  | forwarding => exact h.serverNext_forwarding hphase n v close
  | ended =>
    unfold Tunnel.serverNext
    rw [hphase]
    exact h.good

theorem Ordered.serverForwards (h : Ordered session t asked told) (n : Nat) :
    Good session (t.serverForwards n) := by
  unfold Tunnel.serverForwards
  split_ifs with hforward
  · refine good_of_ordered asked told ⟨⟨?_, h.up, fun hclient => ?_, h.serverLoop,
      h.serverRaw, h.serverTurned, h.clientLogin, h.clientRaw, h.clientTurned, h.outside, h.hash,
      h.replies⟩, h.entered, fun hloop => ?_, h.forwards⟩
    · exact ⟨h.carries.toTarget, h.carries.toApp⟩
    · obtain ⟨raw, hdown, hbytes⟩ := h.down hclient
      refine ⟨_, hdown.sendBytes (h.serverRaw hforward) (t.target.unread.take n), ?_⟩
      change t.target.wrote = t.app.got ++ (raw ++ t.target.unread.take n ++ t.target.unread.drop n)
      rw [hbytes, append_assoc raw, take_append_drop]
    · obtain ⟨hsocket, hwaiting, hdelay⟩ := h.waits hloop
      exact ⟨hsocket, hwaiting, hdelay⟩
  · exact h.good

theorem ask_cases (session : Session) (t : Tunnel) (m : ClientMessage) :
    ∃ stream wire failed, t.ask session m = { t with
        client := { t.client with stream := stream }
        toServer := wire
        streamFailed := failed } ∧
      Kept t.client.stream stream ∧
      (failed = false → ∀ reader asked raw, t.client.stream.codec.raw = false →
        reader.codec.raw = false →
        Flight session.fromClient t.client.stream reader t.toServer asked raw →
        Flight session.fromClient stream reader wire (asked ++ [m]) raw) := by
  unfold Tunnel.ask
  cases hsend : t.client.stream.send session.fromClient m t.toServer with
  | none => exact ⟨t.client.stream, t.toServer, true, rfl, .refl _, nofun⟩
  | some sent =>
    obtain ⟨stream, wire⟩ := sent
    refine ⟨stream, wire, t.streamFailed, rfl, send_kept hsend, ?_⟩
    intro _ reader asked raw hwriter hreader h
    obtain ⟨hone, -, rfl⟩ := h.send hwriter hreader hsend
    exact hone

theorem Carries.ask (h : t.Carries) (m : ClientMessage) : (t.ask session m).Carries := by
  obtain ⟨stream, wire, failed, heq, hkept, -⟩ := ask_cases session t m
  rw [heq]
  exact h.mono (prefix_refl _) (prefix_refl _) rfl rfl hkept.framedIn hkept.framedOut rfl
    (Nat.le_refl _)

theorem Core.ask (h : Core session t asked told) (hlogin : t.client.phase = .login)
    (hserver : t.server.phase ≠ .forwarding)
    (hm : m.isTestDelay = true → m.isReply = true)
    (hentered : t.server.authorized = true → t.client.phase = .login → ∃ before info,
      told = before ++ [.peerInfo info] ∧ ∀ m ∈ before, m.isPeerInfo = false)
    (hwaits : t.server.phase = .loop → t.Waits (asked ++ [m]) told) :
    Good session (t.ask session m) := by
  refine ⟨h.carries.ask m, fun hok => ⟨asked ++ [m], told, ?_⟩⟩
  have hcarries : (t.ask session m).Carries := h.carries.ask m
  obtain ⟨stream, wire, failed, heq, hkept, hsent⟩ := ask_cases session t m
  rw [heq] at hok hcarries ⊢
  have hraw := h.clientLogin hlogin
  have hraw' : stream.codec.raw = false := by rw [hkept.codec, hraw]
  refine ⟨?_, hentered, fun hloop => ?_, fun hforward => absurd hforward hserver⟩
  · constructor
    case carries => exact hcarries
    case up =>
      intro hserver'
      obtain ⟨raw, hup, hbytes⟩ := h.up hserver'
      have hloop : t.server.phase = .loop := by
        cases hphase : t.server.phase with
        | loop => rfl
        | forwarding => exact absurd hphase hserver
        | ended => exact absurd hphase hserver'
      exact ⟨raw, hsent hok _ _ _ hraw (h.serverLoop hloop) hup, hbytes⟩
    case down =>
      intro hclient
      obtain ⟨raw, hdown, hbytes⟩ := h.down hclient
      exact ⟨raw, hdown.reader_kept hkept, hbytes⟩
    case serverLoop => exact h.serverLoop
    case serverRaw => exact h.serverRaw
    case serverTurned => exact h.serverTurned
    case clientLogin => exact fun _ => hraw'
    case clientRaw => exact fun hforward => absurd (hlogin.symm.trans hforward) nofun
    case clientTurned => exact fun hturned => absurd (hraw'.symm.trans hturned) nofun
    case outside => exact h.outside
    case hash =>
      refine ⟨h.hash.1, fun hread => h.hash.2 ?_⟩
      rw [← hkept.received]
      exact hread
    case replies =>
      intro m' hm' htest
      rcases mem_append.mp hm' with hm' | hm'
      · exact h.replies m' hm' htest
      · rw [mem_singleton.mp hm'] at htest ⊢
        exact hm htest
  · obtain ⟨hsocket, hwaiting, hdelay⟩ := hwaits hloop
    exact ⟨hsocket, hwaiting, hdelay⟩

theorem Ordered.ask (h : Ordered session t asked told) (hlogin : t.client.phase = .login)
    (hserver : t.server.phase ≠ .forwarding) (hm : m.isTestDelay = false) :
    Good session (t.ask session m) := by
  refine h.toCore.ask hlogin hserver (fun hyes => ?_) h.entered fun hloop => ?_
  · rw [hm] at hyes
    cases hyes
  · obtain ⟨hsocket, hwaiting, hdelay⟩ := h.waits hloop
    refine ⟨hsocket, hwaiting, ?_⟩
    have hnone : [m].countP ClientMessage.isReply = 0 := by
      cases m with
      | testDelay => cases hm
      | _ => rfl
    rw [testsOut, countP_append, hnone]
    exact hdelay

theorem Ordered.endClient (h : Ordered session t asked told) :
    Ordered session t.endClient asked told := by
  refine ⟨⟨⟨h.carries.toTarget, h.carries.toApp⟩, h.up, fun hclient => absurd rfl hclient,
    h.serverLoop, h.serverRaw, h.serverTurned, nofun, nofun, fun hturned => ?_, h.outside, h.hash,
    h.replies⟩, nofun, fun hloop => ?_, h.forwards⟩
  · obtain ⟨hauth, hnone, -⟩ := h.clientTurned hturned
    exact ⟨hauth, hnone, fun hclient => absurd rfl hclient⟩
  · obtain ⟨hsocket, hwaiting, hdelay⟩ := h.waits hloop
    exact ⟨hsocket, hwaiting, hdelay⟩

theorem Ordered.raw_behind_peerInfo (h : Ordered session t asked told)
    (hlogin : t.client.phase = .login)
    (hdown : Flight session.fromServer t.server.stream t.client.stream t.toClient told raw) :
    told = [] → raw = [] := by
  rintro rfl
  apply hdown.raw_of_writer
  cases hturned : t.server.stream.codec.raw with
  | false => rfl
  | true =>
    obtain ⟨before, info, hnothing, -⟩ := h.entered (h.serverTurned hturned) hlogin
    exact absurd hnothing (by simp)

theorem Core.pullClient (h : Core session t asked told) (hlogin : t.client.phase = .login)
    {told' : List ServerMessage}
    (hkept : (t.client.stream.next n t.toClient).2.1.codec.raw = false)
    (hflight : Flight session.fromServer t.server.stream (t.client.stream.next n t.toClient).2.1
      (t.client.stream.next n t.toClient).2.2 told' raw)
    (hbytes : t.target.wrote = t.app.got ++ (raw ++ t.target.unread))
    (hsub : ∀ m ∈ told', m ∈ told)
    (hhash : (∀ m ∈ told'.tail, m.isHash = false) ∧
      (0 < (t.pullClient n).client.stream.received → ∀ m ∈ told', m.isHash = false)) :
    Core session (t.pullClient n) asked told' where
  carries := ⟨⟨h.carries.toTarget.isPrefix, h.carries.toTarget.framed⟩,
    ⟨h.carries.toApp.isPrefix, hflight.framedIn_le⟩⟩
  up hserver := by
    obtain ⟨raw', hup, hbytes'⟩ := h.up hserver
    have hmode : (t.pullClient n).client.stream.codec.raw = t.client.stream.codec.raw :=
      hkept.trans (h.clientLogin hlogin).symm
    exact ⟨raw', hup.congr hmode rfl rfl rfl rfl rfl rfl, hbytes'⟩
  down _ := ⟨raw, hflight, hbytes⟩
  serverLoop := h.serverLoop
  serverRaw := h.serverRaw
  serverTurned := h.serverTurned
  clientLogin _ := hkept
  clientRaw hforward := absurd (hlogin.symm.trans hforward) nofun
  clientTurned hturned := absurd (hkept.symm.trans hturned) nofun
  outside hauth m hm := h.outside hauth m (hsub m hm)
  hash := hhash
  replies := h.replies

theorem Ordered.pullClient {m : ServerMessage} (h : Ordered session t asked (m :: told))
    (hcore : Core session (t.pullClient n) asked told) (hinfo : m.isPeerInfo = false)
    (htest : m.isTest = false) : Ordered session (t.pullClient n) asked told := by
  refine ⟨hcore, fun hauth hlogin => ?_, fun hloop => ?_, fun hforward m' hm' => ?_⟩
  · obtain ⟨before, info, heq, hbefore⟩ := h.entered hauth hlogin
    cases before with
    | nil =>
      cases heq
      cases hinfo
    | cons first before =>
      cases heq
      exact ⟨before, info, rfl, fun m' hm' => hbefore m' (mem_cons_of_mem _ hm')⟩
  · obtain ⟨hsocket, hwaiting, hdelay⟩ := h.waits hloop
    refine ⟨hsocket, hwaiting, ?_⟩
    rw [testsOut, countP_cons_of_neg (by simp [htest])] at hdelay
    exact hdelay
  · exact h.forwards hforward m' (mem_cons_of_mem _ hm')

theorem Core.startForward (h : Core session t asked []) (hlogin : t.client.phase = .login)
    (hauth : t.server.authorized = true)
    (hwaits : t.server.phase = .loop → t.Waits asked []) : Good session t.startForward := by
  refine good_of_ordered asked [] ⟨?_, nofun, fun hloop => ?_, fun _ => nofun⟩
  · constructor
    case carries =>
      exact h.carries.mono (prefix_refl _) (prefix_refl _) rfl rfl rfl (Nat.le_refl _) rfl
        (Nat.le_refl _)
    case up =>
      intro hserver
      obtain ⟨raw, hup, hbytes⟩ := h.up hserver
      have hturned := hup.writeRaw
      refine ⟨raw ++ t.client.buffer, ?_, ?_⟩
      · cases hbuffer : t.client.buffer with
        | nil =>
          rw [append_nil]
          simp only [Tunnel.startForward, hbuffer, if_true]
          exact hturned
        | cons first rest =>
          simp only [Tunnel.startForward, hbuffer, if_neg (cons_ne_nil first rest)]
          exact hturned.sendBytes rfl _
      · refine hbytes.trans ?_
        simp only [Tunnel.startForward, append_assoc, nil_append]
    case down =>
      intro _
      obtain ⟨raw, hdown, hbytes⟩ := h.down (by rw [hlogin]; nofun)
      exact ⟨raw, hdown.readRaw, hbytes⟩
    case serverLoop => exact h.serverLoop
    case serverRaw => exact h.serverRaw
    case serverTurned => exact h.serverTurned
    case clientLogin => exact nofun
    case clientRaw => exact fun _ => ⟨rfl, rfl⟩
    case clientTurned => exact fun _ => ⟨hauth, rfl, fun _ => rfl⟩
    case outside => exact fun _ => nofun
    case hash => exact ⟨nofun, fun _ => nofun⟩
    case replies => exact h.replies
  · obtain ⟨hsocket, hwaiting, hdelay⟩ := hwaits hloop
    exact ⟨hsocket, hwaiting, hdelay⟩

theorem Ordered.peerInfo_last {info : Bytes}
    (h : Ordered session t asked (.peerInfo info :: told)) (hlogin : t.client.phase = .login) :
    t.server.authorized = true ∧ told = [] := by
  have hauth : t.server.authorized = true := by
    cases hauth : t.server.authorized with
    | true => rfl
    | false => exact absurd (h.outside hauth _ mem_cons_self) nofun
  refine ⟨hauth, ?_⟩
  obtain ⟨before, info', heq, hbefore⟩ := h.entered hauth hlogin
  cases before with
  | nil =>
    cases heq
    rfl
  | cons first before =>
    cases heq
    exact absurd (hbefore _ mem_cons_self) nofun

theorem Ordered.reply {lastDelay : Nat}
    (h : Ordered session t asked (.testDelay false lastDelay :: told))
    (hlogin : t.client.phase = .login) (hcore : Core session (t.pullClient n) asked told) :
    Good session ((t.pullClient n).ask session (.testDelay false lastDelay)) := by
  refine hcore.ask hlogin (fun hforward => ?_) (fun _ => rfl) (fun hauth hlogin' => ?_)
    fun hloop => ?_
  · exact absurd (h.forwards hforward _ mem_cons_self).2 nofun
  · obtain ⟨before, info, heq, hbefore⟩ := h.entered hauth hlogin'
    cases before with
    | nil => cases heq
    | cons first before =>
      cases heq
      exact ⟨before, info, rfl, fun m' hm' => hbefore m' (mem_cons_of_mem _ hm')⟩
  · obtain ⟨hsocket, hwaiting, hdelay⟩ := h.waits hloop
    refine ⟨hsocket, hwaiting, ?_⟩
    rw [testsOut, countP_cons_of_pos (by rfl)] at hdelay
    rw [testsOut, countP_append, countP_singleton, if_pos (by rfl)]
    change _ = if t.server.lastTestDelay = true then 1 else 0
    rw [← hdelay]
    omega

theorem Ordered.clientNext_login (h : Ordered session t asked told)
    (hlogin : t.client.phase = .login) (n : Nat) (a : Answer) :
    Good session (t.clientNext session n a) := by
  obtain ⟨raw, hdown, hbytes⟩ := h.down (by rw [hlogin]; nofun)
  obtain ⟨hkept, hfound⟩ :=
    hdown.next_message (h.clientLogin hlogin) (h.raw_behind_peerInfo hlogin hdown) n
  unfold Tunnel.clientNext
  rcases hfound with ⟨hitem, hflight⟩ | ⟨m, told', rfl, hitem, hflight⟩
  · rw [hlogin, hitem]
    have hcount : (t.pullClient n).client.stream.received = t.client.stream.received := by
      have hsent := hflight.counted
      have hsent' := hdown.counted
      change (t.client.stream.next n t.toClient).2.1.received = _
      omega
    have hcore := h.toCore.pullClient hlogin hkept hflight hbytes (fun m hm => hm)
      ⟨h.hash.1, by rw [hcount]; exact h.hash.2⟩
    refine good_of_ordered asked told ⟨hcore, h.entered, fun hloop => ?_, h.forwards⟩
    obtain ⟨hsocket, hwaiting, hdelay⟩ := h.waits hloop
    exact ⟨hsocket, hwaiting, hdelay⟩
  · have hcore := h.toCore.pullClient hlogin hkept hflight hbytes
      (fun m hm => mem_cons_of_mem _ hm)
      ⟨fun m hm => h.hash.1 m (mem_of_mem_tail hm), fun _ => h.hash.1⟩
    have hpulled := fun hinfo htest => h.pullClient hcore hinfo htest
    rw [hlogin, hitem]
    dsimp only
    rw [session.fromServer.read_write]
    cases m with
    | hash content =>
      have hgood := hpulled rfl rfl
      unfold clientReads
      cases hanswer : a.login with
      | none => exact hgood.good
      | some request =>
        refine hgood.ask hlogin (fun hforward => ?_) rfl
        exact absurd (h.forwards hforward _ mem_cons_self).1 nofun
    | loginError error =>
      unfold clientReads
      split_ifs
      · exact (hpulled rfl rfl).good
      · exact (hpulled rfl rfl).endClient.good
    | peerInfo info =>
      obtain ⟨hauth, rfl⟩ := h.peerInfo_last hlogin
      refine hcore.startForward hlogin hauth fun hloop => ?_
      obtain ⟨hsocket, hwaiting, hdelay⟩ := h.waits hloop
      refine ⟨hsocket, hwaiting, ?_⟩
      rw [testsOut, countP_cons_of_neg (by simp [ServerMessage.isTest])] at hdelay
      exact hdelay
    | testDelay fromClient lastDelay =>
      cases fromClient with
      | true => exact (hpulled rfl rfl).good
      | false => exact h.reply hlogin hcore
    | other content => exact (hpulled rfl rfl).good

theorem Ordered.clientNext_forwarding (h : Ordered session t asked told)
    (hforward : t.client.phase = .forwarding) (n : Nat) (a : Answer) :
    Good session (t.clientNext session n a) := by
  obtain ⟨raw, hdown, hbytes⟩ := h.down (by rw [hforward]; nofun)
  have hraw := (h.clientRaw hforward).1
  obtain ⟨hauth, hnone, hempty⟩ := h.clientTurned hraw
  obtain rfl := hempty (by rw [hforward]; nofun)
  obtain ⟨hkept, data, raw', rfl, hitem, hflight⟩ := hdown.next_raw hraw n
  have hstep : t.clientNext session n a =
      { t.pullClient n with app := { t.app with got := t.app.got ++ data } } := by
    unfold Tunnel.clientNext
    rw [hforward, hitem]
    split_ifs with hdata
    · rw [hdata, append_nil]
      rfl
    · rfl
  have hbytes' : t.target.wrote = t.app.got ++ data ++ (raw' ++ t.target.unread) := by
    rw [hbytes]
    simp only [append_assoc]
  rw [hstep]
  refine good_of_ordered asked []
    ⟨?_, fun _ hlogin => absurd (hforward.symm.trans hlogin) nofun, fun hloop => ?_, h.forwards⟩
  · constructor
    case carries =>
      refine ⟨⟨h.carries.toTarget.isPrefix, h.carries.toTarget.framed⟩, ⟨?_, hflight.framedIn_le⟩⟩
      exact ⟨_, hbytes'.symm⟩
    case up =>
      intro hserver
      obtain ⟨raw₂, hup, happ⟩ := h.up hserver
      exact ⟨raw₂, hup.congr (hkept.trans hraw.symm) rfl rfl rfl rfl rfl rfl, happ⟩
    case down => exact fun _ => ⟨raw', hflight, hbytes'⟩
    case serverLoop => exact h.serverLoop
    case serverRaw => exact h.serverRaw
    case serverTurned => exact h.serverTurned
    case clientLogin => exact fun hlogin => absurd (hforward.symm.trans hlogin) nofun
    case clientRaw => exact fun _ => ⟨hkept, (h.clientRaw hforward).2⟩
    case clientTurned => exact fun _ => ⟨hauth, hnone, fun _ => rfl⟩
    case outside => exact fun _ => nofun
    case hash => exact ⟨nofun, fun _ => nofun⟩
    case replies => exact h.replies
  · obtain ⟨hsocket, hwaiting, hdelay⟩ := h.waits hloop
    exact ⟨hsocket, hwaiting, hdelay⟩

theorem Ordered.clientNext (h : Ordered session t asked told) (n : Nat) (a : Answer) :
    Good session (t.clientNext session n a) := by
  cases hphase : t.client.phase with
  | login => exact h.clientNext_login hphase n a
  | forwarding => exact h.clientNext_forwarding hphase n a
  | ended =>
    unfold Tunnel.clientNext
    rw [hphase]
    exact h.good

theorem Ordered.clientForwards (h : Ordered session t asked told) (n : Nat) :
    Good session (t.clientForwards n) := by
  unfold Tunnel.clientForwards
  cases hphase : t.client.phase with
  | ended => exact h.good
  | login =>
    refine good_of_ordered asked told ⟨⟨?_, fun hserver => ?_, h.down,
      h.serverLoop, h.serverRaw, h.serverTurned, h.clientLogin, ?_, h.clientTurned,
      h.outside, h.hash, h.replies⟩, h.entered, fun hloop => ?_, h.forwards⟩
    · exact ⟨h.carries.toTarget, h.carries.toApp⟩
    · obtain ⟨raw, hup, hbytes⟩ := h.up hserver
      refine ⟨raw, hup, ?_⟩
      change t.app.wrote = t.target.got ++
        (raw ++ (t.client.buffer ++ t.app.unread.take n ++ t.app.unread.drop n))
      rw [append_assoc t.client.buffer, take_append_drop]
      exact hbytes
    · exact fun hforward => absurd (hphase.symm.trans hforward) nofun
    · obtain ⟨hsocket, hwaiting, hdelay⟩ := h.waits hloop
      exact ⟨hsocket, hwaiting, hdelay⟩
  | forwarding =>
    refine good_of_ordered asked told ⟨⟨?_, fun hserver => ?_, h.down,
      h.serverLoop, h.serverRaw, h.serverTurned, h.clientLogin, h.clientRaw, h.clientTurned,
      h.outside, h.hash, h.replies⟩, h.entered, fun hloop => ?_, h.forwards⟩
    · exact ⟨h.carries.toTarget, h.carries.toApp⟩
    · obtain ⟨raw, hup, hbytes⟩ := h.up hserver
      obtain ⟨hraw, hbuffer⟩ := h.clientRaw hphase
      refine ⟨_, hup.sendBytes hraw (t.app.unread.take n), ?_⟩
      change t.app.wrote = t.target.got ++
        (raw ++ t.app.unread.take n ++ (t.client.buffer ++ t.app.unread.drop n))
      rw [hbuffer, nil_append, append_assoc raw, take_append_drop, hbytes, hbuffer, nil_append]
    · obtain ⟨hsocket, hwaiting, hdelay⟩ := h.waits hloop
      exact ⟨hsocket, hwaiting, hdelay⟩

theorem Ordered.appWrites (h : Ordered session t asked told) (data : Bytes) :
    Ordered session { t with app := t.app.write data } asked told := by
  refine ⟨⟨?_, fun hserver => ?_, h.down, h.serverLoop, h.serverRaw, h.serverTurned, h.clientLogin,
    h.clientRaw, h.clientTurned, h.outside, h.hash, h.replies⟩, h.entered, fun hloop => ?_,
    h.forwards⟩
  · exact h.carries.mono (prefix_append _ _) (prefix_refl _) rfl rfl rfl (Nat.le_refl _)
      rfl (Nat.le_refl _)
  · obtain ⟨raw, hup, hbytes⟩ := h.up hserver
    refine ⟨raw, hup, ?_⟩
    simp only [Socket.write, hbytes, append_assoc]
  · obtain ⟨hsocket, hwaiting, hdelay⟩ := h.waits hloop
    exact ⟨hsocket, hwaiting, hdelay⟩

theorem Ordered.targetWrites (h : Ordered session t asked told) (data : Bytes) :
    Ordered session { t with target := t.target.write data } asked told := by
  refine ⟨⟨?_, h.up, fun hclient => ?_, h.serverLoop, h.serverRaw, h.serverTurned, h.clientLogin,
    h.clientRaw, h.clientTurned, h.outside, h.hash, h.replies⟩, h.entered, fun hloop => ?_,
    h.forwards⟩
  · exact h.carries.mono (prefix_refl _) (prefix_append _ _) rfl rfl rfl (Nat.le_refl _)
      rfl (Nat.le_refl _)
  · obtain ⟨raw, hdown, hbytes⟩ := h.down hclient
    refine ⟨raw, hdown, ?_⟩
    simp only [Socket.write, hbytes, append_assoc]
  · obtain ⟨hsocket, hwaiting, hdelay⟩ := h.waits hloop
    exact ⟨hsocket, hwaiting, hdelay⟩

theorem Ordered.reacts_notice (h : Ordered session t asked told) (hloop : t.server.phase = .loop)
    (hsafe : t.SafeNotice) (content : Bytes) :
    t.Reacts asked told (true, t.server, [.other content]) :=
  h.reacts_plain hloop (.inl ⟨rfl, fun _ => rfl⟩) (by simp [ServerMessage.plain])
    fun hauth => .inr (hsafe hloop hauth)

theorem Ordered.reacts_onClosed (h : Ordered session t asked told) (hloop : t.server.phase = .loop)
    (hsafe : t.SafeNotice) (reason : String) : t.Reacts asked told (t.server.onClosed reason) :=
  h.reacts_plain hloop (.inr ⟨rfl, rfl⟩) (by simp [ServerMessage.plain])
    fun hauth => .inr (hsafe hloop hauth)

theorem Ordered.reacts_onCmErr (h : Ordered session t asked told) (hloop : t.server.phase = .loop)
    (expected : Bool) : t.Reacts asked told (t.server.onCmErr expected) := by
  unfold Server.onCmErr
  split_ifs
  · exact h.reacts_plain hloop (.inl ⟨rfl, fun _ => rfl⟩) (by simp) fun _ => .inl rfl
  · exact h.reacts_plain hloop (.inr ⟨rfl, rfl⟩) (by simp) fun _ => .inl rfl

theorem Good.step (h : Good session t) {i : Input} (hsafe : Safe session t i) :
    Good session (t.step session i) := by
  unfold Tunnel.step
  by_cases hfailed : t.streamFailed = true
  · rw [if_pos hfailed]
    exact h
  rw [if_neg hfailed]
  obtain ⟨asked, told, hordered⟩ := h.2 (by simpa using hfailed)
  cases i with
  | timer silent networkDelay =>
    exact hordered.onServer (hordered.reacts_onTestDelayTimer · silent networkDelay) false
  | authorize v =>
    exact hordered.onServer (fun hloop => hordered.reacts_onAuthorize hloop (hsafe hloop)) false
  | cmClose => exact hordered.onServer (hordered.reacts_onClosed · hsafe "") true
  | cmErr expected => exact hordered.onServer (hordered.reacts_onCmErr · expected) true
  | notice content => exact hordered.onServer (hordered.reacts_notice · hsafe content) false
  | consoleClose => exact hordered.onServer (hordered.reacts_onClosed · hsafe _) true
  | serverNext n v close => exact hordered.serverNext hsafe
  | serverForwards n => exact hordered.serverForwards n
  | serverEnds =>
    refine hordered.onServer (fun hloop => ?_) true
    exact hordered.reacts_plain hloop (.inr ⟨rfl, rfl⟩) (by simp) fun _ => .inl rfl
  | targetWrites data => exact (hordered.targetWrites data).good
  | clientNext n a => exact hordered.clientNext n a
  | ui m =>
    dsimp only
    split_ifs with hlogin
    · exact hordered.ask hlogin (hsafe hlogin).1 (hsafe hlogin).2
    · exact hordered.good
  | clientForwards n => exact hordered.clientForwards n
  | clientEnds => exact hordered.endClient.good
  | appWrites data => exact (hordered.appWrites data).good

theorem good_start (session : Session) (hash : Bytes) : Good session (start session hash) := by
  obtain ⟨stream, wire, failed, heq, hkept, hsent⟩ := tell_cases session new [.hash hash]
  have hstart : start session hash = { new with
      server := { new.server with stream := stream }, toClient := wire, streamFailed := failed } :=
    heq
  rw [hstart]
  have hcarries : Carries { new with
      server := { new.server with stream := stream }, toClient := wire, streamFailed := failed } :=
    ⟨⟨prefix_refl _, hkept.framedIn.le⟩, ⟨prefix_refl _, Nat.zero_le _⟩⟩
  refine ⟨hcarries, fun hok => ⟨[], [.hash hash], ?_⟩⟩
  obtain ⟨-, -, hflight⟩ := hsent hok
  have hup : Flight session.fromClient .new stream [] [] [] := Flight.new.reader_kept hkept
  have hdown : Flight session.fromServer stream .new wire [.hash hash] [] :=
    hflight .new [] [] rfl rfl Flight.new
  have hraw : stream.codec.raw = false := by rw [hkept.codec]; rfl
  refine ⟨⟨hcarries, fun _ => ⟨[], hup, rfl⟩, fun _ => ⟨[], hdown, rfl⟩, fun _ => hraw, nofun,
    fun hturned => absurd (hraw.symm.trans hturned) nofun, fun _ => rfl, nofun, nofun, ?_, ?_, nofun⟩,
    nofun, fun _ => ⟨rfl, nofun, rfl⟩, nofun⟩
  · intro _ m hm
    rw [mem_singleton.mp hm]
    rfl
  · exact ⟨nofun, nofun⟩

open Run in
/-- **A tunnel carries exactly the bytes of the application and of the target**, in every run
whose steps are safe. -/
theorem tunnel_carries (session : Session) (hash : Bytes) (inputs : List Input)
    (h : Along (step session) (Safe session) (start session hash) inputs) :
    Always (step session) Carries (start session hash) inputs := by
  have hgood := always_of_along (P := Good session) (fun _ _ hs hsafe => hs.step hsafe)
    (good_start session hash) h
  exact fun before hbefore => (hgood before hbefore).1

def field (tag content : Bytes) : Bytes := tag ++ UInt8.ofNat content.length :: content

/-- `TestDelay`; only its fields that are not zero are written. -/
def testDelayBytes (fromClient : Bool) (lastDelay : Nat) : Bytes :=
  (if fromClient then [0x10, 1] else []) ++ List.replicate lastDelay 0x18

/-- The fields of a `TestDelay`. -/
def parseTestDelay : Bytes → Bool × Nat
  | 0x10 :: 1 :: rest => (true, rest.length)
  | content => (false, content.length)

theorem parseTestDelay_bytes (fromClient : Bool) (lastDelay : Nat) :
    parseTestDelay (testDelayBytes fromClient lastDelay) = (fromClient, lastDelay) := by
  cases fromClient with
  | true => simp [testDelayBytes, parseTestDelay]
  | false =>
    cases lastDelay with
    | zero => rfl
    | succ n => simp [testDelayBytes, parseTestDelay, replicate_succ]

def plainClient : Coding ClientMessage where
  write _
    | .loginRequest request => field [0x3A] request
    | .auth2fa code => field [0xDA, 1] code
    | .switchSidesResponse response => field [0xB2, 1] response
    | .testDelay fromClient lastDelay => field [0x2A] (testDelayBytes fromClient lastDelay)
    | .closeReason reason => field [0x9A, 1] (0x4A :: reason)
    | .renderBroadcast content => field [0x9A, 1] (0x50 :: content)
    | .other content => field [0x7A] content
  read _
    | 0x3A :: _ :: request => .message (.loginRequest request)
    | 0xDA :: 1 :: _ :: code => .message (.auth2fa code)
    | 0xB2 :: 1 :: _ :: response => .message (.switchSidesResponse response)
    | 0x2A :: _ :: content =>
      .message (.testDelay (parseTestDelay content).1 (parseTestDelay content).2)
    | 0x9A :: 1 :: _ :: 0x4A :: reason => .message (.closeReason reason)
    | 0x9A :: 1 :: _ :: 0x50 :: content => .message (.renderBroadcast content)
    | 0x7A :: _ :: content => .message (.other content)
    | _ => .garbled
  read_write n m := by
    cases m with
    | testDelay fromClient lastDelay => simp [field, parseTestDelay_bytes]
    | _ => simp [field]

def plainServer : Coding ServerMessage where
  write _
    | .hash content => field [0x4A] content
    | .loginError error => field [0x42] (0x0A :: error)
    | .peerInfo info => field [0x42] (0x12 :: info)
    | .testDelay fromClient lastDelay => field [0x2A] (testDelayBytes fromClient lastDelay)
    | .other content => field [0x9A, 1] content
  read _
    | 0x4A :: _ :: content => .message (.hash content)
    | 0x42 :: _ :: 0x0A :: error => .message (.loginError error)
    | 0x42 :: _ :: 0x12 :: info => .message (.peerInfo info)
    | 0x2A :: _ :: content =>
      .message (.testDelay (parseTestDelay content).1 (parseTestDelay content).2)
    | 0x9A :: 1 :: _ :: content => .message (.other content)
    | _ => .garbled
  read_write n m := by
    cases m with
    | testDelay fromClient lastDelay => simp [field, parseTestDelay_bytes]
    | _ => simp [field]

def plainSession : Session := ⟨plainClient, plainServer⟩

/-- The client answers the hash with a login, the user of the server has to be asked, and a delay
test is sent. -/
def untilTest : List Input :=
  [.clientNext 64 ⟨some [], true⟩, .serverNext 64 (.pending none true) false, .timer false 0]

open Run in
/-- The click comes after the reply to the delay test; what the application wrote before and after
gets to the target, and what the target wrote to the application. -/
theorem bytes_carried_after_reply :
    let inputs := untilTest ++ [.clientNext 64 ⟨none, true⟩,
      .serverNext 64 (.pending none true) false, .appWrites [1, 2], .clientForwards 8,
      .authorize (.admitted [0]), .clientNext 64 ⟨none, true⟩, .appWrites [3], .clientForwards 8,
      .serverNext 64 (.pending none true) false, .targetWrites [4], .serverForwards 8,
      .clientNext 64 ⟨none, true⟩]
    Always (step plainSession) Carries (start plainSession []) inputs ∧
      (exec (step plainSession) (start plainSession []) inputs).target.got = [1, 2, 3] ∧
      (exec (step plainSession) (start plainSession []) inputs).app.got = [4] := by
  intro inputs
  refine ⟨tunnel_carries plainSession [] inputs ?_, ?_, ?_⟩
  · decide +kernel
  · decide +kernel
  · decide +kernel

open Run in
/-- **The reply reaches the target.**  The click comes while the delay test is out: the server
forwards at once, and the reply of the client, a frame, is written to the target. -/
theorem reply_reaches_target :
    let inputs := untilTest ++ [.authorize (.admitted [0]), .clientNext 64 ⟨none, true⟩,
      .serverNext 64 (.pending none true) false]
    (exec (step plainSession) (start plainSession []) inputs).target.got = [8, 0x2A, 0] ∧
      (exec (step plainSession) (start plainSession []) inputs).app.wrote = [] ∧
      ¬Always (step plainSession) Carries (start plainSession []) inputs := by
  intro inputs
  have hgot :
      (exec (step plainSession) (start plainSession []) inputs).target.got = [8, 0x2A, 0] := by
    decide +kernel
  have hwrote : (exec (step plainSession) (start plainSession []) inputs).app.wrote = [] := by
    decide +kernel
  refine ⟨hgot, hwrote, fun h => ?_⟩
  have hbegins := h.last.toTarget.isPrefix
  rw [hgot, hwrote] at hbegins
  exact absurd hbegins (by decide)

end Tunnel
end RustDesk
