import RustDesk.Rendezvous.SecureTcp
import RustDesk.Lib.Run

/-!
# Account tokens in clear

The comment at the callers of `secure_tcp` says what it is for: the security of the token.
An operation keeps its token (`TokenKept`) if it hands a message with a secret only to a
stream with a key that went to the server in a box, for a public key that came signed under
the server's key, and if it succeeds only after that.

It does so exactly as long as no handshake is answered by something that is not a key
exchange (`tokens_kept_iff`): every other way out of `secure_tcp` is a failure or leaves a key
on the stream.
-/

namespace RustDesk.Rendezvous

open SymbolicCrypto List

def RendezvousMessage.carriesSecret : RendezvousMessage → Bool
  | .punchHoleRequest r => r.token ≠ ""
  | .requestRelay r => r.token ≠ ""
  | .httpProxyRequest _ => true
  | _ => false

/-- The request has a key to be sealed with, and something to hide. -/
def Request.Confidential (r : Request) : Prop :=
  r.key ≠ "" ∧ ∀ attempt, (r.message attempt).carriesSecret = true

def Offered (rsKey : String) (conn : Nat) (k : Wire) (past : List Act) : Prop :=
  ∃ rsPk ourPkB theirPkB, getRsPk rsKey = some rsPk ∧
    .received conn (.keyExchange [.signed (.signer rsPk) theirPkB]) ∈ past ∧
    .sent conn (.keyExchange [ourPkB, .boxed ourPkB theirPkB k]) none ∈ past

/-- What may be sent after the acts `past`: a message with a secret only under a key that was
offered and put on the stream. -/
def Allowed (rsKey : String) (past : List Act) : Act → Prop
  | .sent conn msg key => msg.carriesSecret = true →
      ∃ k, key = some k ∧ Offered rsKey conn k past ∧ .setKey conn k ∈ past
  | _ => True

def Guarded (rsKey : String) : List Act → Prop
  | [] => True
  | a :: past => Allowed rsKey past a ∧ Guarded rsKey past

structure Operation.TokenKept (o : Operation) : Prop where
  guarded : Guarded o.request.key o.acts
  sent_of_ok : o.stage = .ended true →
    ∃ conn msg k, .sent conn msg (some k) ∈ o.acts ∧ msg.carriesSecret = true

/-- No confidential request goes out in clear. -/
def Client.TokensKept (c : Client) : Prop :=
  ∀ n o, c.ops n = some o → o.request.Confidential → o.TokenKept

def Received.isNoKeyExchange : Received → Bool
  | .timeout | .bytes (some (.keyExchange _)) => false
  | _ => true

/-- A server answers the handshake with a message that is no key exchange. -/
def Client.AnsweredInClear (c : Client) : Event → Prop
  | .received n r => ∃ o rsPk, c.ops n = some o ∧ o.stage = .handshake rsPk ∧
      r.isNoKeyExchange = true
  | _ => False

variable {rsKey : String}

theorem Offered.mono {conn : Nat} {k : Wire} {past acts : List Act}
    (hsub : past ⊆ acts) (h : Offered rsKey conn k past) : Offered rsKey conn k acts := by
  obtain ⟨rsPk, ourPkB, theirPkB, hrs, hreceived, hsent⟩ := h
  exact ⟨rsPk, ourPkB, theirPkB, hrs, hsub hreceived, hsub hsent⟩

theorem Allowed.mono {past acts : List Act} {a : Act} (hsub : past ⊆ acts)
    (h : Allowed rsKey past a) : Allowed rsKey acts a := by
  cases a with
  | received conn msg => trivial
  | setKey conn key => trivial
  | sent conn msg key =>
    intro hsecret
    obtain ⟨k, hkey, hoffered, hset⟩ := h hsecret
    exact ⟨k, hkey, hoffered.mono hsub, hsub hset⟩

theorem Guarded.allowed {acts : List Act} {a : Act}
    (h : Guarded rsKey acts) (ha : a ∈ acts) : Allowed rsKey acts a := by
  induction acts with
  | nil => cases ha
  | cons b past ih =>
    rcases mem_cons.mp ha with rfl | hpast
    · exact h.1.mono (subset_cons_self a past)
    · exact (ih h.2 hpast).mono (subset_cons_self b past)

def Operation.HasSent (o : Operation) : Prop :=
  ∃ attempt, .sent o.conn (o.request.message attempt) o.key ∈ o.acts

structure Operation.Sound (o : Operation) : Prop where
  connecting : o.stage = .connecting → o.key = none
  handshake : ∀ rsPk, o.stage = .handshake rsPk →
    o.key = none ∧ getRsPk o.request.key = some rsPk ∧ o.request.Confidential
  exchanging : ∀ key, o.stage = .exchanging key → Offered o.request.key o.conn key o.acts
  sending : o.stage = .sending → o.HasSent
  waiting : ∀ skipped, o.stage = .waiting skipped → o.HasSent

structure Client.Sound (c : Client) : Prop where
  useWs : c.useWs = false
  ops : ∀ n o, c.ops n = some o → o.Sound

theorem Request.confidential_of_secures {r : Request} (h : r.secures = true)
    (hkey : r.key ≠ "") : r.Confidential := by
  refine ⟨hkey, fun attempt => ?_⟩
  cases r with
  | punchHole r => simp_all [Request.secures, Request.message, RendezvousMessage.carriesSecret]
  | relay key token peer relayServer secure uuids =>
    simp_all [Request.secures, Request.message, RendezvousMessage.carriesSecret]
  | httpProxy key tcpAddr method url headers body => rfl

theorem Request.secures_of_confidential {r : Request} (h : r.Confidential) : r.secures = true := by
  cases r with
  | punchHole r =>
    have hkey : r.licenceKey ≠ "" := h.1
    have htoken : decide (r.token ≠ "") = true := h.2 0
    simp_all [Request.secures]
  | relay key token peer relayServer secure uuids =>
    have hkey : key ≠ "" := h.1
    have htoken : decide (token ≠ "") = true := h.2 0
    simp_all [Request.secures]
  | httpProxy key tcpAddr method url headers body => rfl

theorem ne_empty_of_getRsPk {key : String} {rsPk : Bytes} (h : getRsPk key = some rsPk) :
    key ≠ "" := by
  rintro rfl
  cases h

namespace Operation

theorem finish_sound (o : Operation) (ok : Bool) : (o.finish ok).Sound :=
  ⟨nofun, nofun, nofun, nofun, nofun⟩

theorem sendRequest_sound (o : Operation) : o.sendRequest.Sound :=
  ⟨nofun, nofun, nofun, fun _ => ⟨o.attempt, mem_cons_self⟩, nofun⟩

theorem start_sound (request : Request) : (start request).Sound := by
  have hconnecting : (⟨request, .connecting, 1, 1, none, []⟩ : Operation).Sound :=
    ⟨fun _ => rfl, nofun, nofun, nofun, nofun⟩
  unfold start
  cases request with
  | punchHole r => exact hconnecting
  | relay key token peer relayServer secure uuids => exact hconnecting
  | httpProxy key tcpAddr method url headers body =>
    dsimp only
    split
    · exact finish_sound _ false
    · exact hconnecting

theorem secureTcp_cases (o : Operation) :
    (∃ rsPk, getRsPk o.request.key = some rsPk ∧
      o.secureTcp false = { o with stage := .handshake rsPk }) ∨
    (getRsPk o.request.key = none ∧ o.secureTcp false = o.finish false) := by
  unfold secureTcp
  cases hrs : getRsPk o.request.key with
  | some rsPk => exact .inl ⟨rsPk, rfl, rfl⟩
  | none => exact .inr ⟨rfl, rfl⟩

def offer (o : Operation) (n : Nat) (signed theirPkB : Wire) : Operation :=
  let (asymmetricValue, symmetricValue, key) := createSymmetricKeyMsg n o.conn theirPkB
  { o with
    stage := .exchanging key
    acts := .sent o.conn (.keyExchange [asymmetricValue, symmetricValue]) o.key ::
      .received o.conn (.keyExchange [signed]) :: o.acts }

theorem verify_eq_some {signed content : Wire} {pk : Bytes} (h : verify signed pk = some content) :
    signed = .signed (.signer pk) content := by
  unfold verify at h
  split at h
  · split at h
    · cases h
      subst_vars
      rfl
    · cases h
  · cases h

theorem onKeyExchange_cases (o : Operation) (n : Nat) (rsPk : Bytes) (keys : List Wire) :
    ((Received.bytes (some (.keyExchange keys))).isNoKeyExchange = false ∧ ∃ theirPkB,
      o.onFirstFrame n rsPk (.bytes (some (.keyExchange keys))) =
        o.offer n (.signed (.signer rsPk) theirPkB) theirPkB) ∨
    ((Received.bytes (some (.keyExchange keys))).isNoKeyExchange = false ∧
      ∃ msgs : List RendezvousMessage,
      o.onFirstFrame n rsPk (.bytes (some (.keyExchange keys))) =
        { o with acts := msgs.map (Act.received o.conn) ++ o.acts }.finish false) := by
  match keys with
  | [] => exact .inr ⟨rfl, [.keyExchange []], rfl⟩
  | signed :: more :: rest => exact .inr ⟨rfl, [.keyExchange (signed :: more :: rest)], rfl⟩
  | [signed] =>
    cases hverify : (verify signed rsPk).bind getPk with
    | none =>
      refine .inr ⟨rfl, [.keyExchange [signed]], ?_⟩
      simp only [onFirstFrame, hverify]
      rfl
    | some theirPkB =>
      obtain ⟨content, hcontent, hpk⟩ := Option.bind_eq_some_iff.mp hverify
      obtain rfl : content = theirPkB := by
        unfold getPk at hpk
        split at hpk
        · exact Option.some.inj hpk
        · cases hpk
      obtain rfl := verify_eq_some hcontent
      refine .inl ⟨rfl, content, ?_⟩
      simp only [onFirstFrame, hverify]
      rfl

/-- **The ways out of `secure_tcp` once it has read**: no key exchange and no key, a good
key exchange and an offer, or a failure. -/
theorem onFirstFrame_cases (o : Operation) (n : Nat) (rsPk : Bytes) (r : Received) :
    (r.isNoKeyExchange = true ∧ o.onFirstFrame n rsPk r = o.sendRequest) ∨
    (r.isNoKeyExchange = false ∧ ∃ theirPkB,
      o.onFirstFrame n rsPk r = o.offer n (.signed (.signer rsPk) theirPkB) theirPkB) ∨
    (r.isNoKeyExchange = false ∧ ∃ msgs : List RendezvousMessage,
      o.onFirstFrame n rsPk r =
        { o with acts := msgs.map (Act.received o.conn) ++ o.acts }.finish false) := by
  cases r with
  | error => exact .inl ⟨rfl, rfl⟩
  | closed => exact .inl ⟨rfl, rfl⟩
  | timeout => exact .inr (.inr ⟨rfl, [], rfl⟩)
  | bytes msg =>
    cases msg with
    | none => exact .inl ⟨rfl, rfl⟩
    | some msg =>
      cases msg with
      | keyExchange keys => exact .inr (onKeyExchange_cases o n rsPk keys)
      | _ => exact .inl ⟨rfl, rfl⟩

variable {o : Operation}

theorem secureTcp_sound (hconf : o.request.secures = true)
    (hkey : o.key = none) : (o.secureTcp false).Sound := by
  rcases secureTcp_cases o with ⟨rsPk, hrs, heq⟩ | ⟨-, heq⟩
  · rw [heq]
    refine ⟨nofun, ?_, nofun, nofun, nofun⟩
    intro rsPk' hstage
    cases hstage
    exact ⟨hkey, hrs, Request.confidential_of_secures hconf (ne_empty_of_getRsPk hrs)⟩
  · rw [heq]
    exact finish_sound o false

theorem onFirstFrame_sound {rsPk : Bytes} (n : Nat) (r : Received)
    (hkey : o.key = none) (hrs : getRsPk o.request.key = some rsPk) :
    (o.onFirstFrame n rsPk r).Sound := by
  rcases onFirstFrame_cases o n rsPk r with ⟨-, heq⟩ | ⟨-, theirPkB, heq⟩ | ⟨-, msgs, heq⟩
  · rw [heq]
    exact sendRequest_sound o
  · rw [heq]
    refine ⟨nofun, nofun, ?_, nofun, nofun⟩
    intro key hstage
    cases hstage
    refine ⟨rsPk, .boxPk (.session n o.conn), theirPkB, hrs, ?_, ?_⟩
    · exact mem_cons_of_mem _ mem_cons_self
    · rw [← hkey]
      exact mem_cons_self
  · rw [heq]
    exact finish_sound _ false

theorem onAnswer_sound (o : Operation) (answer : Option RendezvousMessage) :
    (o.onAnswer answer).Sound := by
  have hreconnect : o.reconnect.Sound := ⟨fun _ => rfl, nofun, nofun, nofun, nofun⟩
  unfold onAnswer
  split
  · split
    · exact finish_sound o _
    · exact finish_sound o _
    · exact finish_sound o _
    · split
      · exact sendRequest_sound _
      · exact finish_sound o _
  · split
    · exact finish_sound o _
    · split
      · exact hreconnect
      · exact finish_sound o _
  · exact finish_sound o _

theorem onRead_sound (skipped : Bool) (r : Received) (hsent : o.HasSent) :
    (o.onRead skipped r).Sound := by
  unfold onRead
  split
  · exact finish_sound o _
  · exact ⟨nofun, nofun, nofun, nofun, fun _ _ => hsent⟩
  · exact onAnswer_sound o _

theorem Sound.connected (h : o.Sound) (ok : Bool) : (o.connected false ok).Sound := by
  unfold Operation.connected
  split
  · rename_i hstage
    split
    · split
      · rename_i hsecures
        exact secureTcp_sound hsecures (h.connecting hstage)
      · exact sendRequest_sound o
    · exact finish_sound o _
  · exact h

theorem Sound.received (h : o.Sound) (n : Nat) (r : Received) : (o.received n r).Sound := by
  unfold Operation.received
  split
  · rename_i rsPk hstage
    obtain ⟨hkey, hrs, -⟩ := h.handshake rsPk hstage
    exact onFirstFrame_sound n r hkey hrs
  · rename_i skipped hstage
    exact onRead_sound skipped r (h.waiting skipped hstage)
  · exact h

theorem Sound.sent (h : o.Sound) (ok : Bool) : (o.sent ok).Sound := by
  unfold Operation.sent
  split
  · split
    · exact sendRequest_sound _
    · exact finish_sound o _
  · rename_i hstage
    split
    · exact ⟨nofun, nofun, nofun, nofun, fun _ _ => h.sending hstage⟩
    · exact finish_sound o _
  · exact h

theorem Sound.dropped (h : o.Sound) : o.dropped.Sound := by
  unfold Operation.dropped
  split
  · exact h
  · exact finish_sound o _

def Keyed (o : Operation) : Prop :=
  ∃ k, o.key = some k ∧ Offered o.request.key o.conn k o.acts ∧ .setKey o.conn k ∈ o.acts

theorem HasSent.keyed (h : o.HasSent) (hconf : o.request.Confidential)
    (hguarded : Guarded o.request.key o.acts) : o.Keyed := by
  obtain ⟨attempt, hmem⟩ := h
  exact hguarded.allowed hmem (hconf.2 attempt)

theorem finish_kept {ok : Bool} (hguarded : Guarded o.request.key o.acts)
    (hsent : ok = true → o.request.Confidential ∧ o.HasSent) : (o.finish ok).TokenKept := by
  refine ⟨hguarded, fun hstage => ?_⟩
  obtain ⟨hconf, attempt, hmem⟩ := hsent (Stage.ended.inj hstage)
  obtain ⟨k, hkey, -⟩ := hguarded.allowed hmem (hconf.2 attempt)
  rw [hkey] at hmem
  exact ⟨o.conn, _, k, hmem, hconf.2 attempt⟩

theorem sendRequest_kept (hguarded : Guarded o.request.key o.acts)
    (hkeyed : o.Keyed) : o.sendRequest.TokenKept :=
  ⟨⟨fun _ => hkeyed, hguarded⟩, nofun⟩

theorem not_sendRequest_kept (hkey : o.key = none)
    (hconf : o.request.Confidential) : ¬o.sendRequest.TokenKept := by
  intro h
  obtain ⟨k, hsome, -⟩ := h.guarded.1 (hconf.2 o.attempt)
  rw [hkey] at hsome
  cases hsome

theorem guarded_received {rsKey : String} {conn : Nat} {acts : List Act}
    (h : Guarded rsKey acts) (msgs : List RendezvousMessage) :
    Guarded rsKey (msgs.map (Act.received conn) ++ acts) := by
  induction msgs with
  | nil => exact h
  | cons msg msgs ih => exact ⟨trivial, ih⟩

theorem onFirstFrame_kept (h : o.TokenKept) {rsPk : Bytes} (n : Nat)
    (r : Received) (hkey : o.key = none) (hconf : o.request.Confidential) :
    (o.onFirstFrame n rsPk r).TokenKept ↔ r.isNoKeyExchange = false := by
  rcases onFirstFrame_cases o n rsPk r with ⟨hr, heq⟩ | ⟨hr, theirPkB, heq⟩ | ⟨hr, msgs, heq⟩
  · rw [heq, hr]
    exact iff_of_false (not_sendRequest_kept hkey hconf) nofun
  · rw [heq]
    refine iff_of_true ⟨⟨nofun, trivial, h.guarded⟩, nofun⟩ hr
  · rw [heq]
    refine iff_of_true (finish_kept (guarded_received h.guarded msgs) nofun) hr

theorem onAnswer_kept (h : o.TokenKept) (hsent : o.HasSent)
    (hconf : o.request.Confidential) (answer : Option RendezvousMessage) :
    (o.onAnswer answer).TokenKept := by
  have hkeyed := hsent.keyed hconf h.guarded
  have hdone : ∀ ok, (o.finish ok).TokenKept := fun ok =>
    finish_kept h.guarded fun _ => ⟨hconf, hsent⟩
  unfold onAnswer
  split
  · split
    · exact hdone _
    · exact hdone _
    · exact hdone _
    · split
      · exact sendRequest_kept h.guarded hkeyed
      · exact hdone _
  · split
    · exact hdone _
    · split
      · exact ⟨h.guarded, nofun⟩
      · exact hdone _
  · exact hdone _

theorem onRead_kept (h : o.TokenKept) (hsent : o.HasSent)
    (hconf : o.request.Confidential) (skipped : Bool) (r : Received) :
    (o.onRead skipped r).TokenKept := by
  unfold onRead
  split
  · exact finish_kept h.guarded nofun
  · exact ⟨h.guarded, nofun⟩
  · exact onAnswer_kept h hsent hconf _

theorem TokenKept.connected (h : o.TokenKept) (hconf : o.request.Confidential) (ok : Bool) :
    (o.connected false ok).TokenKept := by
  unfold Operation.connected
  split
  · split
    · rw [if_pos (Request.secures_of_confidential hconf)]
      rcases secureTcp_cases o with ⟨rsPk, -, heq⟩ | ⟨-, heq⟩
      · rw [heq]
        exact ⟨h.guarded, nofun⟩
      · rw [heq]
        exact finish_kept h.guarded nofun
    · exact finish_kept h.guarded nofun
  · exact h

theorem TokenKept.sent (h : o.TokenKept) (hsound : o.Sound) (ok : Bool) :
    (o.sent ok).TokenKept := by
  unfold Operation.sent
  split
  · rename_i key hstage
    split
    · have hoffered := (hsound.exchanging key hstage).mono
        (subset_cons_self (.setKey o.conn key) o.acts)
      refine sendRequest_kept ⟨trivial, h.guarded⟩ ⟨key, rfl, hoffered, ?_⟩
      exact mem_cons_self
    · exact finish_kept h.guarded nofun
  · split
    · exact ⟨h.guarded, nofun⟩
    · exact finish_kept h.guarded nofun
  · exact h

theorem TokenKept.dropped (h : o.TokenKept) : o.dropped.TokenKept := by
  unfold Operation.dropped
  split
  · exact h
  · exact finish_kept h.guarded nofun

theorem secureTcp_request (o : Operation) : (o.secureTcp false).request = o.request := by
  rcases secureTcp_cases o with ⟨rsPk, -, heq⟩ | ⟨-, heq⟩
  · rw [heq]
  · rw [heq]
    rfl

theorem onFirstFrame_request (o : Operation) (n : Nat) (rsPk : Bytes) (r : Received) :
    (o.onFirstFrame n rsPk r).request = o.request := by
  rcases onFirstFrame_cases o n rsPk r with ⟨-, heq⟩ | ⟨-, theirPkB, heq⟩ | ⟨-, msgs, heq⟩ <;>
    rw [heq] <;> rfl

theorem onRead_request (o : Operation) (skipped : Bool) (r : Received) :
    (o.onRead skipped r).request = o.request := by
  unfold onRead onAnswer
  repeat' split
  all_goals rfl

theorem connected_request (o : Operation) (ok : Bool) :
    (o.connected false ok).request = o.request := by
  unfold connected
  repeat' split
  · exact secureTcp_request o
  all_goals rfl

theorem received_request (o : Operation) (n : Nat) (r : Received) :
    (o.received n r).request = o.request := by
  unfold received
  split
  · exact onFirstFrame_request o n _ r
  · exact onRead_request o _ r
  · rfl

theorem sent_request (o : Operation) (ok : Bool) : (o.sent ok).request = o.request := by
  unfold sent
  repeat' split
  all_goals rfl

theorem dropped_request (o : Operation) : o.dropped.request = o.request := by
  unfold dropped
  split <;> rfl

theorem received_kept (hsound : o.Sound) (h : o.TokenKept)
    (hconf : o.request.Confidential) (n : Nat) (r : Received) :
    (o.received n r).TokenKept ↔ ¬∃ rsPk, o.stage = .handshake rsPk ∧ r.isNoKeyExchange = true := by
  unfold received
  split
  · rename_i rsPk hstage
    rw [onFirstFrame_kept h n r (hsound.handshake rsPk hstage).1 hconf]
    simp [hstage]
  · rename_i skipped hstage
    refine iff_of_true (onRead_kept h (hsound.waiting skipped hstage) hconf skipped r) ?_
    rintro ⟨rsPk, hhandshake, -⟩
    cases hstage.symm.trans hhandshake
  · rename_i hother _
    refine iff_of_true h ?_
    rintro ⟨rsPk, hhandshake, -⟩
    exact hother rsPk hhandshake

theorem start_kept (request : Request) : (start request).TokenKept := by
  have hkept : ∀ stage, stage ≠ .ended true →
      (⟨request, stage, 1, 1, none, []⟩ : Operation).TokenKept :=
    fun stage hstage => ⟨trivial, fun h => absurd h hstage⟩
  unfold start
  cases request with
  | punchHole r => exact hkept _ nofun
  | relay key token peer relayServer secure uuids => exact hkept _ nofun
  | httpProxy key tcpAddr method url headers body =>
    dsimp only
    split
    · exact hkept _ nofun
    · exact hkept _ nofun

end Operation

namespace Client

theorem withOp_cases (c : Client) (n : Nat) (f : Operation → Operation) :
    (c.ops n = none ∧ c.withOp n f = c) ∨
    ∃ o, c.ops n = some o ∧
      c.withOp n f = { c with ops := Function.update c.ops n (some (f o)) } := by
  unfold withOp
  cases c.ops n with
  | none => exact .inl ⟨rfl, rfl⟩
  | some o => exact .inr ⟨o, rfl, rfl⟩

variable {c : Client}

theorem Sound.update (h : c.Sound) (n : Nat) {o : Operation} (ho : o.Sound) :
    Sound { c with ops := Function.update c.ops n (some o) } := by
  refine ⟨h.useWs, fun n' o' hop => ?_⟩
  dsimp only at hop
  by_cases hn : n' = n
  · subst hn
    rw [Function.update_self] at hop
    cases hop
    exact ho
  · rw [Function.update_of_ne hn] at hop
    exact h.ops n' o' hop

theorem Sound.withOp (h : c.Sound) (n : Nat) {f : Operation → Operation}
    (hf : ∀ o : Operation, o.Sound → (f o).Sound) : (c.withOp n f).Sound := by
  rcases withOp_cases c n f with ⟨-, heq⟩ | ⟨o, hop, heq⟩
  · rw [heq]
    exact h
  · rw [heq]
    exact h.update n (hf o (h.ops n o hop))

theorem Sound.step (h : c.Sound) (e : Event) : (c.step e).Sound := by
  have huseWs := h.useWs
  cases e with
  | start n request =>
    unfold Client.step
    dsimp only
    split
    · exact h
    · exact h.update n (Operation.start_sound request)
  | connected n ok =>
    refine h.withOp n fun o ho => ?_
    rw [huseWs]
    exact ho.connected ok
  | received n r => exact h.withOp n fun o ho => ho.received n r
  | sent n ok => exact h.withOp n fun o ho => ho.sent ok
  | dropped n => exact h.withOp n fun o ho => ho.dropped

theorem tokensKept_update (h : c.TokensKept) (n : Nat) (o : Operation) :
    TokensKept { c with ops := Function.update c.ops n (some o) } ↔
      (o.request.Confidential → o.TokenKept) := by
  constructor
  · intro hkept hconf
    exact hkept n o (Function.update_self ..) hconf
  · intro hkept n' o' hop hconf
    dsimp only at hop
    by_cases hn : n' = n
    · subst hn
      rw [Function.update_self] at hop
      cases hop
      exact hkept hconf
    · rw [Function.update_of_ne hn] at hop
      exact h n' o' hop hconf

theorem TokensKept.withOp (h : c.TokensKept) (n : Nat)
    {f : Operation → Operation} (hrequest : ∀ o, (f o).request = o.request)
    (hf : ∀ o, c.ops n = some o → o.TokenKept → o.request.Confidential → (f o).TokenKept) :
    (c.withOp n f).TokensKept := by
  rcases withOp_cases c n f with ⟨-, heq⟩ | ⟨o, hop, heq⟩
  · rw [heq]
    exact h
  · rw [heq]
    refine (tokensKept_update h n (f o)).mpr fun hconf => ?_
    rw [hrequest] at hconf
    exact hf o hop (h n o hop hconf) hconf

theorem received_kept_iff (hsound : c.Sound) (h : c.TokensKept) (n : Nat) (r : Received) :
    (c.withOp n fun o => o.received n r).TokensKept ↔ ¬c.AnsweredInClear (.received n r) := by
  rcases withOp_cases c n fun o => o.received n r with ⟨hop, heq⟩ | ⟨o, hop, heq⟩
  · rw [heq]
    refine iff_of_true h ?_
    rintro ⟨o, rsPk, hsome, -⟩
    rw [hop] at hsome
    cases hsome
  · rw [heq, tokensKept_update h, Operation.received_request]
    have hbad : c.AnsweredInClear (.received n r) ↔
        ∃ rsPk, o.stage = .handshake rsPk ∧ r.isNoKeyExchange = true := by
      constructor
      · rintro ⟨o', rsPk, hop', hstage, hr⟩
        obtain rfl := Option.some.inj (hop.symm.trans hop')
        exact ⟨rsPk, hstage, hr⟩
      · rintro ⟨rsPk, hstage, hr⟩
        exact ⟨o, rsPk, hop, hstage, hr⟩
    rw [hbad]
    have hsoundOp := hsound.ops n o hop
    constructor
    · rintro hkept ⟨rsPk, hstage, hr⟩
      have hconf := (hsoundOp.handshake rsPk hstage).2.2
      exact (Operation.received_kept hsoundOp (h n o hop hconf) hconf n r).mp
        (hkept hconf) ⟨rsPk, hstage, hr⟩
    · intro hr hconf
      exact (Operation.received_kept hsoundOp (h n o hop hconf) hconf n r).mpr hr

theorem step_kept_iff (hsound : c.Sound) (h : c.TokensKept) (e : Event) :
    (c.step e).TokensKept ↔ ¬c.AnsweredInClear e := by
  cases e with
  | received n r => exact received_kept_iff hsound h n r
  | start n request =>
    refine iff_of_true ?_ nofun
    unfold Client.step
    dsimp only
    split
    · exact h
    · exact (tokensKept_update h n _).mpr fun _ => Operation.start_kept request
  | connected n ok =>
    refine iff_of_true ?_ nofun
    have huseWs := hsound.useWs
    unfold Client.step
    dsimp only
    rw [huseWs]
    exact h.withOp n (fun o => o.connected_request ok) fun o _ ho hconf => ho.connected hconf ok
  | sent n ok =>
    refine iff_of_true ?_ nofun
    exact h.withOp n (fun o => o.sent_request ok) fun o hop ho _ => ho.sent (hsound.ops n o hop) ok
  | dropped n =>
    refine iff_of_true ?_ nofun
    exact h.withOp n (fun o => o.dropped_request) fun o _ ho _ => ho.dropped

theorem init_sound : (init false).Sound := ⟨rfl, fun _ _ h => nomatch h⟩

theorem init_kept : (init false).TokensKept := fun _ _ h => nomatch h

end Client

/-- **Without WebSocket, the tokens are kept along a run exactly if no handshake in it is
answered by something other than a key exchange.** -/
theorem tokens_kept_iff (events : List Event) :
    Run.Always Client.step Client.TokensKept (Client.init false) events ↔
      Run.Along Client.step (fun c e => ¬c.AnsweredInClear e) (Client.init false) events :=
  Run.always_iff_along (W := fun _ _ => True) (J := fun _ c => c.Sound) (N := events.length)
    (n := 0)
    (fun _ _ e _ hsound => hsound.step e)
    (fun _ _ e _ _ hsound h => Client.step_kept_iff hsound h e)
    (Nat.le_of_eq (Nat.zero_add _)) Client.init_sound Client.init_kept
    (Run.along_of_forall (fun _ _ => trivial) _ _)

def askedInClear : PunchHoleRequest where
  id := "123456789"
  token := "token"
  natType := 0
  licenceKey := "AAAAAAAAAAAAAAAAAAAAAAAAAAAAAAAAAAAAAAAAAAA="
  connType := 0
  version := "1.4.6"
  udpPort := 0
  forceRelay := false
  socketAddrV6 := []

def answeredInClear : List Event :=
  [.start 0 (.punchHole askedInClear), .connected 0 true, .received 0 (.bytes none)]

/-- The request is then sent on a stream without a key. -/
theorem token_sent_in_clear :
    ¬∀ events, Run.Always Client.step Client.TokensKept (Client.init false) events := by
  intro h
  have hop : (Run.exec Client.step (Client.init false) answeredInClear).ops 0 =
      some (Operation.sendRequest
        ⟨.punchHole askedInClear, .handshake (List.replicate 32 0), 1, 1, none, []⟩) := by
    rfl
  have hconf : (Request.punchHole askedInClear).Confidential := ⟨by decide, fun _ => rfl⟩
  have hkept := (h answeredInClear).last 0 _ hop hconf
  obtain ⟨k, hkey, -⟩ := hkept.guarded.1 rfl
  cases hkey

end RustDesk.Rendezvous
