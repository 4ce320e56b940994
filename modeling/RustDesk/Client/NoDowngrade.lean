import RustDesk.Client.Handshake

/-!
# No silent downgrade

Three properties of every run of the handshake's network, whatever the adversary does:

* a client uses a stream without a key only after its user has agreed (`Guarded`);
* the key of a client is known to the client and to the one run of the peer's server whose
  `SignedId` it accepted (`KeyKept`);
* a client and a server with different keys, or of which only one has a key, accept nothing
  of more than one byte from each other (`Apart`).

The handshake's own two messages are no part of the last: a side that has gone on without a
key still reads them.  The bytes of a port forward are no part of the first: the login makes
the stream raw.
-/

namespace RustDesk.Handshake

open SymbolicCrypto List Function

def ClientAct.Exposed : ClientAct → Prop
  | .sent .message secured _ | .handled secured _ => secured = false
  | _ => False

/-- Nothing is exposed before the user agrees to it. -/
def Guarded (acts : List ClientAct) : Prop :=
  ∀ before a after, acts = before ++ a :: after → a.Exposed → .continueInsecure ∈ before

def ClientRun.sentFrames (c : ClientRun) : List Wire :=
  c.acts.filterMap fun a =>
    match a with
    | .sent .message _ frame | .sent .closeReason _ frame => some frame
    | _ => none

def ClientRun.handledFrames (c : ClientRun) : List Wire :=
  c.acts.filterMap fun a =>
    match a with
    | .handled _ frame => some frame
    | _ => none

namespace Net

/-- The key `k` of client run `n` is held by this client and by the server run whose
`SignedId` it accepted, which is one of the peer, and by no one else. -/
def KeyKept (s : Net) (n : Nat) (c : ClientRun) (k : Wire) : Prop :=
  ¬s.Knows k ∧
    (∀ n' c', s.clients n' = some c' → c'.sessionKey = some k → n' = n) ∧
    ∃ r sv, s.servers r = some sv ∧ sv.id = c.peerId ∧
      c.theirPkB = some (.boxPk (.server r)) ∧
      ∀ r' sv', s.servers r' = some sv' → sv'.sessionKey = some k → r' = r

/-- Neither takes a frame with content from the other. -/
def Apart (c : ClientRun) (sv : ServerRun) : Prop :=
  ∀ frame, 1 < len frame →
    ¬(frame ∈ c.sentFrames ∧ frame ∈ sv.accepted) ∧
    ¬(frame ∈ sv.sent ∧ frame ∈ c.handledFrames)

/-- No secret in clear without consent, the keys agree, and ends with different keys stay apart. -/
structure NoDowngrade (s : Net) : Prop where
  guarded : ∀ n c, s.clients n = some c → c.directIp = false → Guarded c.acts
  keyKept : ∀ n c k, s.clients n = some c → c.sessionKey = some k → s.KeyKept n c k
  apart : ∀ n c r sv, s.clients n = some c → s.servers r = some sv →
    c.sessionKey ≠ sv.sessionKey → Apart c sv

end Net

def FrameOf : Option Wire → Wire → Prop
  | some k, frame => ∃ nonce content, frame = .secretBox k nonce content
  | none, frame => ∀ k nonce content, frame ≠ .secretBox k nonce content

theorem FrameOf.unique {k l : Option Wire} {frame : Wire} (hk : FrameOf k frame)
    (hl : FrameOf l frame) : k = l := by
  cases k with
  | none =>
    cases l with
    | none => rfl
    | some l =>
      obtain ⟨nonce, content, heq⟩ := hl
      exact absurd heq (hk l nonce content)
  | some k =>
    obtain ⟨nonce, content, rfl⟩ := hk
    cases l with
    | none => exact absurd rfl (hl k nonce content)
    | some l =>
      obtain ⟨nonce', content', heq⟩ := hl
      rw [(Term.secretBox.inj heq).1]

theorem message_frameOf (tag : Tag) (content : Bytes) : FrameOf none (message tag content) := by
  intro k nonce t h
  cases h

theorem send_frameOf (st : Stream) {m : Wire} (hm : FrameOf none m) :
    FrameOf (st.map (·.key)) (st.send m).2 := by
  cases st with
  | none => exact hm
  | some e => exact ⟨e.sent + 1, m, rfl⟩

theorem send_key (st : Stream) (m : Wire) : (st.send m).1.map (·.key) = st.map (·.key) := by
  cases st <;> rfl

theorem next_key (st : Stream) (frame : Wire) : (st.next frame).1.map (·.key) = st.map (·.key) := by
  unfold Stream.next
  cases st with
  | none => rfl
  | some e =>
    dsimp only
    split
    · rfl
    · split
      · split <;> rfl
      · rfl

theorem next_frameOf {st : Stream} {frame m : Wire} (h : (st.next frame).2 = some m)
    (hm : (parseMessage m).isSome) (hlen : 1 < len frame) : FrameOf (st.map (·.key)) frame := by
  unfold Stream.next at h
  cases st with
  | none =>
    cases h
    rintro k nonce content rfl
    cases hm
  | some e =>
    dsimp only at h
    rw [if_neg (by omega)] at h
    split at h
    · rename_i k nonce content
      split at h
      · rename_i hopen
        rw [hopen.1]
        exact ⟨nonce, content, rfl⟩
      · cases h
    · cases h

theorem Guarded.snoc {acts : List ClientAct} (h : Guarded acts) {a : ClientAct}
    (ha : a.Exposed → .continueInsecure ∈ acts) : Guarded (acts ++ [a]) := by
  intro before b after heq hb
  rcases eq_nil_or_concat after with rfl | ⟨after', last, rfl⟩
  · obtain ⟨rfl, hab⟩ := append_inj' heq rfl
    obtain rfl := head_eq_of_cons_eq hab
    exact ha hb
  · have hsplit : acts ++ [a] = (before ++ b :: after') ++ [last] := by
      rw [heq]
      simp
    exact h before b after' (append_inj' hsplit rfl).1 hb

/-- A run of the client is in order: what it has sent and handled fits the key it went on
with, and it has its user's word where it needs it. -/
structure ClientRun.Ok (c : ClientRun) : Prop where
  keyed : c.stage ≠ .raw → c.stage ≠ .ended → c.stream.map (·.key) = c.sessionKey
  sent : ∀ frame ∈ c.sentFrames, FrameOf c.sessionKey frame
  handled : ∀ frame ∈ c.handledFrames, 1 < len frame → FrameOf c.sessionKey frame
  guarded : c.directIp = false → Guarded c.acts
  agreed : c.directIp = false → c.stage = .active → c.stream = none → .continueInsecure ∈ c.acts
  waiting : ∀ signPk, c.stage = .waitSignedId signPk → c.acts = [] ∧ c.stream = none

structure ClientRun.Same (c c' : ClientRun) : Prop where
  peerId : c'.peerId = c.peerId
  theirPkB : c'.theirPkB = c.theirPkB
  sessionKey : c'.sessionKey = c.sessionKey
  waits : ∀ signPk, c'.stage = .waitSignedId signPk → c.stage = .waitSignedId signPk

theorem ClientRun.Ok.of_silent {c : ClientRun} (hacts : c.acts = [])
    (hkeyed : c.stream.map (·.key) = c.sessionKey) (hstream : c.stream = none)
    (hstage : c.stage ≠ .active) : c.Ok where
  keyed _ _ := hkeyed
  sent frame h := by simp [sentFrames, hacts] at h
  handled frame h := by simp [handledFrames, hacts] at h
  guarded _ before a after h := by simp [hacts] at h
  agreed _ h := absurd h hstage
  waiting _ _ := ⟨hacts, hstream⟩

namespace ClientRun

variable {c : ClientRun} {a : ClientAct} {frame : Wire}

theorem mem_filterMap_concat {α β : Type*} {f : α → Option β} {l : List α} {a : α} {x : β} :
    x ∈ (l ++ [a]).filterMap f ↔ x ∈ l.filterMap f ∨ f a = some x := by
  simp only [mem_filterMap, mem_append, mem_singleton, or_and_right, exists_or, exists_eq_left]

theorem mem_sentFrames_act (h : frame ∈ (c.act a).sentFrames) : frame ∈ c.sentFrames ∨
      ∃ secured, a = .sent .message secured frame ∨ a = .sent .closeReason secured frame := by
  unfold sentFrames act at h
  rcases mem_filterMap_concat.mp h with hold | hframe
  · exact .inl hold
  · right
    split at hframe
    · cases hframe
      exact ⟨_, .inl rfl⟩
    · cases hframe
      exact ⟨_, .inr rfl⟩
    · cases hframe

theorem mem_handledFrames_act (h : frame ∈ (c.act a).handledFrames) :
    frame ∈ c.handledFrames ∨ ∃ secured, a = .handled secured frame := by
  unfold handledFrames act at h
  rcases mem_filterMap_concat.mp h with hold | hframe
  · exact .inl hold
  · right
    split at hframe
    · cases hframe
      exact ⟨_, rfl⟩
    · cases hframe

theorem Ok.act (h : c.Ok) (hstage : ∀ signPk, c.stage ≠ .waitSignedId signPk)
    (hsent : ∀ secured frame, a = .sent .message secured frame ∨
      a = .sent .closeReason secured frame → FrameOf c.sessionKey frame)
    (hhandled : ∀ secured frame, a = .handled secured frame → 1 < len frame →
      FrameOf c.sessionKey frame)
    (hguard : c.directIp = false → a.Exposed → .continueInsecure ∈ c.acts) :
    (c.act a).Ok where
  keyed := h.keyed
  sent frame hframe := by
    rcases mem_sentFrames_act hframe with hold | ⟨secured, hnew⟩
    · exact h.sent frame hold
    · exact hsent secured frame hnew
  handled frame hframe hlen := by
    rcases mem_handledFrames_act hframe with hold | ⟨secured, hnew⟩
    · exact h.handled frame hold hlen
    · exact hhandled secured frame hnew hlen
  guarded hdirect := (h.guarded hdirect).snoc (hguard hdirect)
  agreed hdirect hactive hstream := mem_append_left _ (h.agreed hdirect hactive hstream)
  waiting signPk hwait := absurd hwait (hstage signPk)

theorem Ok.setStream (h : c.Ok) {st : Stream} (hstage : ∀ signPk, c.stage ≠ .waitSignedId signPk)
    (hst : st.map (·.key) = c.stream.map (·.key)) : { c with stream := st }.Ok where
  keyed hraw hended := hst.trans (h.keyed hraw hended)
  sent := h.sent
  handled := h.handled
  guarded := h.guarded
  agreed hdirect hactive hstream := by
    refine h.agreed hdirect hactive ?_
    have hnone : st = none := hstream
    rw [hnone] at hst
    exact Option.map_eq_none_iff.mp hst.symm
  waiting signPk hwait := absurd hwait (hstage signPk)

theorem Ok.stop (h : c.Ok) {stage : ClientStage} {st : Stream}
    (hstage : stage = .ended ∨ stage = .raw) : { c with stage := stage, stream := st }.Ok where
  keyed hraw hended := by
    rcases hstage with rfl | rfl
    · exact absurd rfl hended
    · exact absurd rfl hraw
  sent := h.sent
  handled := h.handled
  guarded := h.guarded
  agreed _ hactive := by
    rcases hstage with rfl | rfl
    · cases hactive
    · cases hactive
  waiting signPk hwait := by
    rcases hstage with rfl | rfl
    · cases hwait
    · cases hwait

theorem Ok.send (h : c.Ok) {what : Sent} {m : Wire} (hm : FrameOf none m)
    (hstage : ∀ signPk, c.stage ≠ .waitSignedId signPk)
    (hkeyed : what = .message ∨ what = .closeReason → c.stream.map (·.key) = c.sessionKey)
    (hguard : what = .message → c.directIp = false → c.stream = none → .continueInsecure ∈ c.acts) :
    (c.send what m).1.Ok := by
  have hcounted : { c with stream := (c.stream.send m).1 }.Ok :=
    h.setStream hstage (send_key c.stream m)
  refine hcounted.act hstage ?_ ?_ ?_
  · intro secured frame hsent
    have hwhat : (what = .message ∨ what = .closeReason) ∧ (c.stream.send m).2 = frame := by
      rcases hsent with heq | heq
      · obtain ⟨rfl, _, rfl⟩ := ClientAct.sent.inj heq
        exact ⟨.inl rfl, rfl⟩
      · obtain ⟨rfl, _, rfl⟩ := ClientAct.sent.inj heq
        exact ⟨.inr rfl, rfl⟩
    show FrameOf c.sessionKey frame
    rw [← hwhat.2, ← hkeyed hwhat.1]
    exact send_frameOf c.stream hm
  · intro secured frame hhandled
    cases hhandled
  · intro hdirect hexposed
    cases what with
    | message =>
      have hnone : c.stream.isSome = false := hexposed
      exact hguard rfl hdirect (Option.not_isSome_iff_eq_none.mp (by simp [hnone]))
    | reply => exact hexposed.elim
    | closeReason => exact hexposed.elim
    | tunnel => exact hexposed.elim

theorem goOn_ok {secured : Bool} (hacts : c.acts = [.sent .reply secured frame])
    (hkeyed : c.stream.map (·.key) = c.sessionKey) : c.goOn.Ok where
  keyed _ _ := hkeyed
  sent f h := by simp [goOn, sentFrames, hacts] at h
  handled f h := by simp [goOn, handledFrames, hacts] at h
  guarded _ := by
    have hnil : Guarded [] := fun before a after h => by simp at h
    have hone := hnil.snoc (a := .sent .reply secured frame) fun h => h.elim
    simpa [goOn, hacts] using hone
  agreed hdirect hactive hstream := by
    have hdirect' : c.directIp = false := hdirect
    have hstream' : c.stream = none := hstream
    simp [goOn, hdirect', hstream', Stream.isSecured] at hactive
  waiting signPk hwait := by
    unfold goOn at hwait
    dsimp only at hwait
    split at hwait
    · cases hwait
    · cases hwait

theorem goOn_not_waiting {signPk : Wire} : c.goOn.stage ≠ .waitSignedId signPk := by
  unfold goOn
  dsimp only
  split
  · nofun
  · nofun

theorem send_reply_acts (m : Wire) (hacts : c.acts = []) (hstream : c.stream = none) :
    (c.send .reply m).1.acts = [.sent .reply false m] := by
  simp [ClientRun.send, ClientRun.act, hacts, hstream, Stream.isSecured, Stream.send]

theorem reply_ok (m : Wire) (hacts : c.acts = []) (hstream : c.stream = none)
    (hkey : c.sessionKey = none) : (c.reply m).1.Ok := by
  refine goOn_ok (send_reply_acts m hacts hstream) ?_
  simp [ClientRun.send, ClientRun.act, hstream, hkey, Stream.send]

theorem reply_same (c : ClientRun) (m : Wire) : c.Same (c.reply m).1 :=
  ⟨rfl, rfl, rfl, fun _ h => absurd h goOn_not_waiting⟩

theorem replyWithKey_ok {n : Nat} {theirPkB : Wire} (hacts : c.acts = [])
    (hstream : c.stream = none) : (c.replyWithKey n theirPkB).1.Ok :=
  goOn_ok (send_reply_acts _ hacts hstream) rfl

theorem onSignedId_cases (c : ClientRun) (n : Nat) (signPk frame : Wire) :
    (∃ m ∈ [emptyMessage, publicKey (.raw []) (.raw [])], c.onSignedId n signPk frame = c.reply m) ∨
      ∃ si theirPkB, parseMessage frame = some (.signedId si) ∧
        decodeIdPk si signPk = some (c.peerId, theirPkB) ∧
        c.onSignedId n signPk frame = c.replyWithKey n theirPkB := by
  unfold onSignedId
  cases hparsed : parseMessage frame with
  | none => exact .inl ⟨emptyMessage, by simp, rfl⟩
  | some parsed =>
    cases parsed with
    | signedId si =>
      dsimp only
      cases hdecoded : decodeIdPk si signPk with
      | none => exact .inl ⟨publicKey (.raw []) (.raw []), by simp, rfl⟩
      | some decoded =>
        obtain ⟨id, theirPkB⟩ := decoded
        dsimp only
        by_cases hid : id = c.peerId
        · subst hid
          exact .inr ⟨si, theirPkB, rfl, hdecoded, if_pos rfl⟩
        · exact .inl ⟨emptyMessage, by simp, if_neg hid⟩
    | empty | publicKey _ _ | peerInfo | other => exact .inl ⟨emptyMessage, by simp, rfl⟩

theorem onMessage_ok (h : c.Ok) (hactive : c.stage = .active) (frame : Wire) :
    (c.onMessage frame).1.Ok ∧ c.Same (c.onMessage frame).1 := by
  have hwaits : ∀ signPk, c.stage ≠ .waitSignedId signPk := by
    rw [hactive]
    nofun
  have hkeyed := h.keyed (by rw [hactive]; nofun) (by rw [hactive]; nofun)
  have hcounted := h.setStream hwaits (next_key c.stream frame)
  -- a message that is handled came in a frame of the stream
  have hhandled : ∀ m, (c.stream.next frame).2 = some m → (parseMessage m).isSome →
      ({ c with stream := (c.stream.next frame).1 }.act
        (.handled c.stream.isSecured frame)).Ok := by
    intro m hm hparsed
    refine hcounted.act hwaits (fun secured f heq => by rcases heq with heq | heq <;> cases heq)
      ?_ ?_
    · intro secured f heq hlen
      obtain ⟨_, rfl⟩ := ClientAct.handled.inj heq
      show FrameOf c.sessionKey frame
      rw [← hkeyed]
      exact next_frameOf hm hparsed hlen
    · intro hdirect hexposed
      have hnone : c.stream.isSome = false := hexposed
      exact h.agreed hdirect hactive (Option.not_isSome_iff_eq_none.mp (by simp [hnone]))
  have hended : { c with stage := .ended }.Ok := h.stop (.inl rfl)
  unfold onMessage
  rcases hnext : c.stream.next frame with ⟨st, m⟩
  rw [hnext] at hcounted hhandled
  cases m with
  | none => exact ⟨hended, ⟨rfl, rfl, rfl, nofun⟩⟩
  | some m =>
    dsimp only at hcounted hhandled ⊢
    have hsame : c.Same ({ c with stream := st }.act (.handled c.stream.isSecured frame)) :=
      ⟨rfl, rfl, rfl, fun _ hw => hw⟩
    split
    · exact ⟨hcounted, ⟨rfl, rfl, rfl, fun _ hw => hw⟩⟩
    · exact ⟨hended, ⟨rfl, rfl, rfl, nofun⟩⟩
    · rename_i hparsed _
      have hok := hhandled m rfl (by simp [hparsed])
      have hraw : { { c with stream := st }.act (.handled c.stream.isSecured frame) with
          stream := none, stage := .raw }.Ok := hok.stop (.inr rfl)
      unfold sendBuffer
      split
      · exact ⟨hraw, ⟨rfl, rfl, rfl, nofun⟩⟩
      · refine ⟨hraw.send nofun nofun ?_ nofun, ⟨rfl, rfl, rfl, nofun⟩⟩
        rintro (hwhat | hwhat) <;> cases hwhat
    · rename_i hparsed _
      exact ⟨hhandled m rfl (by simp [hparsed]), hsame⟩

theorem confirm_ok (h : c.Ok) (d : UiData) : (c.confirm d).1.Ok ∧ c.Same (c.confirm d).1 := by
  have hsame : c.Same c := ⟨rfl, rfl, rfl, fun _ hw => hw⟩
  have hclosed : ∀ hconfirm : c.stage = .confirm,
      ({ (c.send .closeReason (message .closeReason [])).1 with stage := .ended }).Ok := by
    intro hconfirm
    have hkeyed := h.keyed (by rw [hconfirm]; nofun) (by rw [hconfirm]; nofun)
    have hsent : (c.send .closeReason (message .closeReason [])).1.Ok :=
      h.send (message_frameOf .closeReason []) (by rw [hconfirm]; nofun) (fun _ => hkeyed) nofun
    exact hsent.stop (.inl rfl)
  unfold confirm
  split
  · rename_i hconfirm
    refine ⟨?_, ⟨rfl, rfl, rfl, nofun⟩⟩
    exact {
      keyed := fun _ _ => h.keyed (by rw [hconfirm]; nofun) (by rw [hconfirm]; nofun)
      sent := fun frame hframe => by
        rcases mem_sentFrames_act hframe with hold | ⟨_, hnew | hnew⟩
        · exact h.sent frame hold
        · cases hnew
        · cases hnew
      handled := fun frame hframe => by
        rcases mem_handledFrames_act hframe with hold | ⟨_, hnew⟩
        · exact h.handled frame hold
        · cases hnew
      guarded := fun hdirect => (h.guarded hdirect).snoc fun hexposed => hexposed.elim
      agreed := fun _ _ _ => by simp [ClientRun.act]
      waiting := nofun }
  · rename_i hconfirm
    split
    · exact ⟨hclosed hconfirm, ⟨rfl, rfl, rfl, nofun⟩⟩
    · exact ⟨h.stop (.inl rfl), ⟨rfl, rfl, rfl, nofun⟩⟩
  · rename_i hconfirm
    split
    · exact ⟨hclosed hconfirm, ⟨rfl, rfl, rfl, nofun⟩⟩
    · exact ⟨h.stop (.inl rfl), ⟨rfl, rfl, rfl, nofun⟩⟩
  · exact ⟨h, hsame⟩

theorem sendMessage_ok (h : c.Ok) (content : Bytes) :
    (c.sendMessage content).1.Ok ∧ c.Same (c.sendMessage content).1 := by
  unfold sendMessage
  split
  · rename_i hactive
    have hkeyed := h.keyed (by rw [hactive]; nofun) (by rw [hactive]; nofun)
    refine ⟨?_, ⟨rfl, rfl, rfl, fun _ hw => hw⟩⟩
    exact h.send (message_frameOf .other content) (by rw [hactive]; nofun) (fun _ => hkeyed)
      fun _ hdirect hstream => h.agreed hdirect hactive hstream
  · exact ⟨h, ⟨rfl, rfl, rfl, fun _ hw => hw⟩⟩

theorem forward_ok (h : c.Ok) (bytes : Bytes) :
    (c.forward bytes).1.Ok ∧ c.Same (c.forward bytes).1 := by
  unfold forward
  split
  · exact ⟨⟨h.keyed, h.sent, h.handled, h.guarded, h.agreed, h.waiting⟩,
      ⟨rfl, rfl, rfl, fun _ hw => hw⟩⟩
  · rename_i hraw
    refine ⟨h.send nofun (by rw [hraw]; nofun) ?_ nofun, ⟨rfl, rfl, rfl, fun _ hw => hw⟩⟩
    rintro (hwhat | hwhat) <;> cases hwhat
  · exact ⟨h, ⟨rfl, rfl, rfl, fun _ hw => hw⟩⟩

end ClientRun

structure ServerRun.Ok (sv : ServerRun) : Prop where
  keyed : sv.stream.map (·.key) = sv.sessionKey
  sent : ∀ frame ∈ sv.sent, FrameOf sv.sessionKey frame
  accepted : ∀ frame ∈ sv.accepted, 1 < len frame → FrameOf sv.sessionKey frame
  waiting : sv.stage = .waitPublicKey → sv.sent = [] ∧ sv.accepted = []

namespace ServerRun

variable {sv : ServerRun}

theorem start_ok (id : String) : (start id).Ok :=
  ⟨rfl, nofun, nofun, fun _ => ⟨rfl, rfl⟩⟩

theorem Ok.stop (h : sv.Ok) : { sv with stage := .ended }.Ok :=
  ⟨h.keyed, h.sent, h.accepted, nofun⟩

theorem onPublicKey_cases (sv : ServerRun) (n : Nat) (frame : Wire) :
    (∃ stage, stage ≠ .waitPublicKey ∧ sv.onPublicKey n frame = { sv with stage := stage }) ∨
      ∃ asymmetricValue symmetricValue key,
        parseMessage frame = some (.publicKey asymmetricValue symmetricValue) ∧
        decodeKey symmetricValue asymmetricValue (.server n) = some key ∧
        sv.onPublicKey n frame =
          { sv with stage := .serving, stream := Stream.setKey key, sessionKey := some key } := by
  unfold onPublicKey
  cases hparsed : parseMessage frame with
  | none => exact .inl ⟨.ended, nofun, rfl⟩
  | some parsed =>
    cases parsed with
    | publicKey asymmetricValue symmetricValue =>
      dsimp only
      split
      · cases hdecoded : decodeKey symmetricValue asymmetricValue (.server n) with
        | none => exact .inl ⟨.ended, nofun, rfl⟩
        | some key => exact .inr ⟨_, _, key, rfl, hdecoded, rfl⟩
      · split
        · exact .inl ⟨.serving, nofun, rfl⟩
        · exact .inl ⟨.ended, nofun, rfl⟩
    | empty | signedId _ | peerInfo | other => exact .inl ⟨.serving, nofun, rfl⟩

theorem onPublicKey_ok (h : sv.Ok) (hwait : sv.stage = .waitPublicKey) (n : Nat)
    (frame : Wire) : (sv.onPublicKey n frame).Ok := by
  obtain ⟨hsent, haccepted⟩ := h.waiting hwait
  rcases onPublicKey_cases sv n frame with ⟨stage, hstage, heq⟩ | ⟨_, _, key, _, _, heq⟩
  · rw [heq]
    exact ⟨h.keyed, h.sent, h.accepted, fun hw => absurd hw hstage⟩
  · rw [heq]
    exact ⟨rfl, by simp [hsent], by simp [haccepted], nofun⟩

theorem receive_ok (h : sv.Ok) (n : Nat) (frame : Wire) : (sv.receive n frame).Ok := by
  unfold receive
  split
  · rename_i hwait
    exact onPublicKey_ok h hwait n frame
  · rename_i hserving
    have hkey := next_key sv.stream frame
    rcases hnext : sv.stream.next frame with ⟨st, m⟩
    rw [hnext] at hkey
    have hkeyed : st.map (·.key) = sv.sessionKey := hkey.trans h.keyed
    cases m with
    | none => exact h.stop
    | some m =>
      dsimp only
      split
      · rename_i parsed hparsed
        refine ⟨hkeyed, h.sent, ?_, by rw [hserving]; nofun⟩
        intro f hf hlen
        rcases mem_append.mp hf with hold | hnew
        · exact h.accepted f hold hlen
        · obtain rfl := mem_singleton.mp hnew
          show FrameOf sv.sessionKey f
          rw [← h.keyed]
          exact next_frameOf (by rw [hnext]) (by simp [hparsed]) hlen
      · exact ⟨hkeyed, h.sent, h.accepted, by rw [hserving]; nofun⟩
  · exact h

theorem sendMessage_ok (h : sv.Ok) (tag : Tag) (content : Bytes) :
    (sv.sendMessage tag content).1.Ok := by
  unfold sendMessage
  split
  · rename_i hserving
    refine ⟨(send_key sv.stream _).trans h.keyed, ?_, h.accepted, by rw [hserving]; nofun⟩
    intro f hf
    rcases mem_append.mp hf with hold | hnew
    · exact h.sent f hold
    · obtain rfl := mem_singleton.mp hnew
      show FrameOf sv.sessionKey _
      rw [← h.keyed]
      exact send_frameOf sv.stream (message_frameOf tag content)
  · exact h

end ServerRun

namespace Net

/-- The rendezvous server signs the keys of the peers, a peer the box keys of its server's
runs; a box hides the key of a client from all but the run whose `SignedId` it accepted. -/
def policy (s : Net) : Policy KeyName Tag where
  corrupt := Corrupt
  Issued
    | .rendezvous, t => ∃ id, t = idPk id (.verifyKey (.peer id))
    | .peer id, t => ∃ r sv, s.servers r = some sv ∧ sv.id = id ∧
        t = idPk id (.boxPk (.server r))
    | _, _ => False
  Kept a b t := ∃ n r c, s.clients n = some c ∧ c.theirPkB = some (.boxPk (.server r)) ∧
    a = .boxPk (.client n) ∧ b = .boxPk (.server r) ∧ t = .key (.client n)
  kept_honest := by
    rintro a b t n ⟨_, _, _, _, _, rfl, rfl, _⟩ (hn | hn) hcorrupt
    · rw [← Term.boxPk.inj hn] at hcorrupt
      exact hcorrupt
    · rw [← Term.boxPk.inj hn] at hcorrupt
      exact hcorrupt

structure Extends (s s' : Net) : Prop where
  server : ∀ r sv, s.servers r = some sv → ∃ sv', s'.servers r = some sv' ∧ sv'.id = sv.id
  client : ∀ n c pk, s.clients n = some c → c.theirPkB = some pk →
    ∃ c', s'.clients n = some c' ∧ c'.theirPkB = some pk

/-- A client run in its network: it waits for the peer's own signature, and its key was made
for a server run of the peer. -/
structure ClientOk (s : Net) (n : Nat) (c : ClientRun) : Prop where
  run : c.Ok
  certified : ∀ signPk, c.stage = .waitSignedId signPk →
    signPk = .verifyKey (.peer c.peerId) ∧ c.theirPkB = none
  key : ∀ k, c.sessionKey = some k → k = .key (.client n) ∧
    ∃ r sv, s.servers r = some sv ∧ sv.id = c.peerId ∧ c.theirPkB = some (.boxPk (.server r))

/-- A server run in its network: its key is one the adversary could have made, or that of a
client which accepted this run. -/
structure ServerOk (s : Net) (r : Nat) (sv : ServerRun) : Prop where
  run : sv.Ok
  key : ∀ k, sv.sessionKey = some k → Safe s.policy k ∨
    ∃ n c, s.clients n = some c ∧ c.theirPkB = some (.boxPk (.server r)) ∧ k = .key (.client n)

structure Inv (s : Net) : Prop where
  wire : ∀ t ∈ s.wire, Safe s.policy t
  clients : ∀ n c, s.clients n = some c → s.ClientOk n c
  servers : ∀ r sv, s.servers r = some sv → s.ServerOk r sv

section

variable {s s' : Net}

theorem Extends.safe (h : Extends s s') {t : Wire} (ht : Safe s.policy t) : Safe s'.policy t := by
  refine Safe.mono (p := s.policy) (q := s'.policy) (fun _ hn => hn) ?_ ?_ ht
  · intro n t hissued
    cases n with
    | rendezvous => exact hissued
    | peer id =>
      obtain ⟨r, sv, hsv, hid, heq⟩ := hissued
      obtain ⟨sv', hsv', hid'⟩ := h.server r sv hsv
      exact ⟨r, sv', hsv', hid'.trans hid, heq⟩
    | server _ | client _ | adversary _ => exact hissued
  · rintro a b t ⟨n, r, c, hc, hpk, ha, hb, heq⟩
    obtain ⟨c', hc', hpk'⟩ := h.client n c _ hc hpk
    exact ⟨n, r, c', hc', hpk', ha, hb, heq⟩

variable {n : Nat}

theorem ClientOk.extend {c : ClientRun} (h : s.ClientOk n c) (hs : Extends s s') :
    s'.ClientOk n c := by
  refine ⟨h.run, h.certified, fun k hk => ?_⟩
  obtain ⟨hkey, r, sv, hsv, hid, hpk⟩ := h.key k hk
  obtain ⟨sv', hsv', hid'⟩ := hs.server r sv hsv
  exact ⟨hkey, r, sv', hsv', hid'.trans hid, hpk⟩

theorem ClientOk.same {c c' : ClientRun} (h : s.ClientOk n c) (hok : c'.Ok)
    (hsame : c.Same c') : s.ClientOk n c' := by
  refine ⟨hok, fun signPk hwait => ?_, fun k hk => ?_⟩
  · obtain ⟨hpk, hnone⟩ := h.certified signPk (hsame.waits signPk hwait)
    exact ⟨by rw [hpk, hsame.peerId], by rw [hsame.theirPkB, hnone]⟩
  · rw [hsame.sessionKey] at hk
    rw [hsame.peerId, hsame.theirPkB]
    exact h.key k hk

theorem ServerOk.extend {r : Nat} {sv : ServerRun} (h : s.ServerOk r sv) (hs : Extends s s') :
    s'.ServerOk r sv := by
  refine ⟨h.run, fun k hk => ?_⟩
  rcases h.key k hk with hsafe | ⟨n, c, hc, hpk, heq⟩
  · exact .inl (hs.safe hsafe)
  · obtain ⟨c', hc', hpk'⟩ := hs.client n c _ hc hpk
    exact .inr ⟨n, c', hc', hpk', heq⟩

theorem Inv.knows (h : Inv s) {t : Wire} (ht : s.Knows t) : Safe s.policy t := by
  refine Known.safe (p := s.policy) ?_ ht
  rintro u (hu | ⟨id, rfl⟩)
  · exact h.wire u hu
  · exact ⟨⟨trivial, trivial⟩, .inr ⟨id, rfl⟩⟩

theorem Inv.setClient (h : Inv s) {r : ClientRun × List Wire}
    (hs : Extends s (s.setClient n r)) (hframes : ∀ t ∈ r.2, Safe (s.setClient n r).policy t)
    (hr : (s.setClient n r).ClientOk n r.1) : Inv (s.setClient n r) := by
  refine ⟨fun t ht => ?_, fun m c hc => ?_, fun m sv hsv => (h.servers m sv hsv).extend hs⟩
  · rcases mem_append.mp ht with hold | hnew
    · exact hs.safe (h.wire t hold)
    · exact hframes t hnew
  · by_cases hm : m = n
    · subst hm
      have hself : (s.setClient m r).clients m = some r.1 := update_self _ _ _
      rw [hself] at hc
      cases hc
      exact hr
    · have hother : (s.setClient n r).clients m = s.clients m := update_of_ne hm _ _
      rw [hother] at hc
      exact (h.clients m c hc).extend hs

theorem Inv.setServer (h : Inv s) {r : ServerRun × List Wire}
    (hs : Extends s (s.setServer n r)) (hframes : ∀ t ∈ r.2, Safe (s.setServer n r).policy t)
    (hr : (s.setServer n r).ServerOk n r.1) : Inv (s.setServer n r) := by
  refine ⟨fun t ht => ?_, fun m c hc => (h.clients m c hc).extend hs, fun m sv hsv => ?_⟩
  · rcases mem_append.mp ht with hold | hnew
    · exact hs.safe (h.wire t hold)
    · exact hframes t hnew
  · by_cases hm : m = n
    · subst hm
      have hself : (s.setServer m r).servers m = some r.1 := update_self _ _ _
      rw [hself] at hsv
      cases hsv
      exact hr
    · have hother : (s.setServer n r).servers m = s.servers m := update_of_ne hm _ _
      rw [hother] at hsv
      exact (h.servers m sv hsv).extend hs

theorem setClient_extends {r : ClientRun × List Wire}
    (hpk : ∀ c pk, s.clients n = some c → c.theirPkB = some pk → r.1.theirPkB = some pk) :
    Extends s (s.setClient n r) := by
  refine ⟨fun m sv hsv => ⟨sv, hsv, rfl⟩, fun m c pk hc hcpk => ?_⟩
  by_cases hm : m = n
  · subst hm
    exact ⟨r.1, update_self _ _ _, hpk c pk hc hcpk⟩
  · exact ⟨c, (update_of_ne hm _ _).trans hc, hcpk⟩

theorem setServer_extends {r : ServerRun × List Wire}
    (hid : ∀ sv, s.servers n = some sv → r.1.id = sv.id) : Extends s (s.setServer n r) := by
  refine ⟨fun m sv hsv => ?_, fun m c pk hc hcpk => ⟨c, hc, hcpk⟩⟩
  by_cases hm : m = n
  · subst hm
    exact ⟨r.1, update_self _ _ _, hid sv hsv⟩
  · exact ⟨sv, (update_of_ne hm _ _).trans hsv, rfl⟩

theorem Inv.moveClient (h : Inv s) {f : ClientRun → ClientRun × List Wire}
    (hf : ∀ c, s.clients n = some c → (f c).1.Ok ∧ c.Same (f c).1)
    (hframes : ∀ c (s' : Net), s.clients n = some c → ∀ t ∈ (f c).2, Safe s'.policy t) :
    Inv (s.withClient n f) := by
  unfold withClient
  split
  · rename_i c hc
    obtain ⟨hok, hsame⟩ := hf c hc
    have hs : Extends s (s.setClient n (f c)) := by
      refine setClient_extends fun c' pk hc' hpk => ?_
      obtain rfl := Option.some.inj (hc.symm.trans hc')
      rw [hsame.theirPkB, hpk]
    exact h.setClient hs (hframes c _ hc) (((h.clients n c hc).extend hs).same hok hsame)
  · exact h

theorem send_safe (c : ClientRun) (what : Sent) (p : Policy KeyName Tag) {m : Wire}
    (hm : Safe p m) : ∀ t ∈ (c.send what m).2, Safe p t := by
  intro t ht
  obtain rfl := mem_singleton.mp ht
  unfold Stream.send
  cases c.stream with
  | none => exact hm
  | some e => exact hm

theorem message_safe (p : Policy KeyName Tag) (tag : Tag) (content : Bytes) :
    Safe p (message tag content) :=
  ⟨trivial, trivial⟩

theorem decodeIdPk_some {signed key pk : Wire} {id : String}
    (h : decodeIdPk signed key = some (id, pk)) :
    ∃ n rest, signed = .signed n (.node (.idPk id) pk rest) ∧ key = .verifyKey n := by
  unfold decodeIdPk at h
  split at h
  · rename_i n id' pk' rest
    split at h
    · rename_i hkey
      cases h
      exact ⟨n, rest, rfl, hkey.1⟩
    · cases h
  · cases h

theorem Inv.certified (h : Inv s) {signedIdPk pk : Wire} {id : String} (hknown : s.Knows signedIdPk)
    (hdecoded : decodeIdPk signedIdPk (.verifyKey .rendezvous) = some (id, pk)) :
    pk = .verifyKey (.peer id) := by
  obtain ⟨n, rest, rfl, hn⟩ := decodeIdPk_some hdecoded
  cases hn
  rcases (h.knows hknown).2 with hcorrupt | ⟨id', heq⟩
  · exact hcorrupt.elim
  · obtain ⟨htag, hpk, _⟩ := Term.node.inj heq
    cases htag
    exact hpk

theorem Inv.accepted (h : Inv s) {frame si pk : Wire} {id : String} (hknown : s.Knows frame)
    (hparsed : parseMessage frame = some (.signedId si))
    (hdecoded : decodeIdPk si (.verifyKey (.peer id)) = some (id, pk)) :
    ∃ r sv, s.servers r = some sv ∧ sv.id = id ∧ pk = .boxPk (.server r) := by
  have hsafe := h.knows hknown
  obtain ⟨n, rest, rfl, hn⟩ := decodeIdPk_some hdecoded
  cases hn
  unfold parseMessage at hparsed
  split at hparsed <;> cases hparsed
  rcases hsafe.1.2 with hcorrupt | ⟨r, sv, hsv, hid, heq⟩
  · exact hcorrupt.elim
  · exact ⟨r, sv, hsv, hid, (Term.node.inj heq).2.1⟩

theorem Inv.startClient (h : Inv s) {peerId : String} {directIp : Bool}
    {mode : ClientMode} {signedIdPk : Wire} {hasRsPk : Bool} (hnone : s.clients n = none)
    (hknown : s.Knows signedIdPk) :
    Inv (s.setClient n (ClientRun.start peerId directIp mode signedIdPk hasRsPk)) := by
  have hs : ∀ r, Extends s (s.setClient n r) := fun r =>
    setClient_extends fun c pk hc => by simp [hnone] at hc
  -- without the peer's key the run sends an empty message and goes on
  have hreply : Inv (s.setClient n
      ((⟨peerId, directIp, mode, .ended, none, none, none, [], []⟩ : ClientRun).reply
        emptyMessage)) := by
    refine h.setClient (hs _) ?_ ⟨ClientRun.reply_ok _ rfl rfl rfl, ?_, nofun⟩
    · exact send_safe _ .reply _ trivial
    · exact fun signPk hwait => absurd hwait ClientRun.goOn_not_waiting
  unfold ClientRun.start
  dsimp only
  split
  · rename_i id pk hdecoded
    split
    · rename_i hid
      subst hid
      have hcertified : decodeIdPk signedIdPk (.verifyKey .rendezvous) = some (id, pk) := by
        split at hdecoded
        · exact hdecoded
        · cases hdecoded
      refine h.setClient (hs _) nofun ⟨.of_silent rfl rfl rfl nofun, ?_, nofun⟩
      intro signPk hwait
      cases hwait
      exact ⟨h.certified hknown hcertified, rfl⟩
    · exact hreply
  · exact hreply

theorem Inv.onSignedId (h : Inv s) {c : ClientRun} {signPk frame : Wire}
    (hc : s.clients n = some c) (hwait : c.stage = .waitSignedId signPk)
    (hknown : s.Knows frame) : Inv (s.setClient n (c.onSignedId n signPk frame)) := by
  have hclient := h.clients n c hc
  obtain ⟨rfl, hpkNone⟩ := hclient.certified signPk hwait
  obtain ⟨hacts, hstream⟩ := hclient.run.waiting _ hwait
  have hkey : c.sessionKey = none := by
    rw [← hclient.run.keyed (by rw [hwait]; nofun) (by rw [hwait]; nofun), hstream]
    rfl
  have hs : ∀ r, Extends s (s.setClient n r) := by
    refine fun r => setClient_extends fun c' pk hc' hpk => ?_
    obtain rfl := Option.some.inj (hc.symm.trans hc')
    rw [hpkNone] at hpk
    cases hpk
  rcases ClientRun.onSignedId_cases c n (.verifyKey (.peer c.peerId)) frame with
    ⟨m, hm, heq⟩ | ⟨si, theirPkB, hparsed, hdecoded, heq⟩
  · rw [heq]
    refine h.setClient (hs _) ?_
      ((hclient.extend (hs _)).same (ClientRun.reply_ok m hacts hstream hkey)
        (ClientRun.reply_same c m))
    refine send_safe c .reply _ ?_
    rcases mem_cons.mp hm with rfl | hm
    · trivial
    · obtain rfl := mem_singleton.mp hm
      exact ⟨trivial, trivial⟩
  · rw [heq]
    obtain ⟨r, sv, hsv, hid, rfl⟩ := h.accepted hknown hparsed hdecoded
    refine h.setClient (hs _) ?_ ⟨ClientRun.replyWithKey_ok hacts hstream, ?_, ?_⟩
    · -- the key travels in a box for the run that was accepted
      refine send_safe c .reply _ ⟨trivial,
        .inr ⟨n, r, (c.replyWithKey n (.boxPk (.server r))).1, ?_⟩⟩
      exact ⟨update_self _ _ _, rfl, rfl, rfl, rfl⟩
    · exact fun signPk hw => absurd hw ClientRun.goOn_not_waiting
    · intro k hk
      cases hk
      exact ⟨rfl, r, sv, hsv, hid, rfl⟩

theorem sendBuffer_safe (c : ClientRun) (p : Policy KeyName Tag) :
    ∀ t ∈ c.sendBuffer.2, Safe p t := by
  unfold ClientRun.sendBuffer
  split
  · nofun
  · exact send_safe c .tunnel p trivial

theorem onMessage_safe (c : ClientRun) (frame : Wire) (p : Policy KeyName Tag) :
    ∀ t ∈ (c.onMessage frame).2, Safe p t := by
  unfold ClientRun.onMessage
  split
  · nofun
  · split
    · nofun
    · nofun
    · exact sendBuffer_safe _ p
    · nofun

theorem Inv.toClient (h : Inv s) {frame : Wire} (hknown : s.Knows frame) :
    Inv (s.withClient n fun c => c.receive n frame) := by
  by_cases hwaits : ∃ c signPk, s.clients n = some c ∧ c.stage = .waitSignedId signPk
  · obtain ⟨c, signPk, hc, hwait⟩ := hwaits
    have hstep := h.onSignedId hc hwait hknown
    unfold withClient ClientRun.receive
    simp only [hc, hwait]
    exact hstep
  · refine h.moveClient (fun c hc => ?_) (fun c s' hc => ?_)
    · have hok := (h.clients n c hc).run
      unfold ClientRun.receive
      split
      · rename_i signPk hwait
        exact absurd ⟨c, signPk, hc, hwait⟩ hwaits
      · rename_i hactive
        exact ClientRun.onMessage_ok hok hactive frame
      all_goals exact ⟨hok, ⟨rfl, rfl, rfl, fun _ hw => hw⟩⟩
    · unfold ClientRun.receive
      split
      · rename_i signPk hwait
        exact absurd ⟨c, signPk, hc, hwait⟩ hwaits
      · exact onMessage_safe c frame _
      all_goals nofun

theorem Inv.decoded (h : Inv s) {frame a b k : Wire} (hknown : s.Knows frame)
    (hparsed : parseMessage frame = some (.publicKey a b))
    (hdecoded : decodeKey b a (.server n) = some k) :
    Safe s.policy k ∨ ∃ m c, s.clients m = some c ∧
      c.theirPkB = some (.boxPk (.server n)) ∧ k = .key (.client m) := by
  have hsafe := h.knows hknown
  unfold parseMessage at hparsed
  split at hparsed <;> cases hparsed
  unfold decodeKey at hdecoded
  split at hdecoded
  · rename_i key hopen
    split at hdecoded
    · cases hdecoded
      unfold openBox at hopen
      split at hopen
      · rename_i x y content
        split at hopen
        · rename_i hpair
          cases hopen
          rcases hsafe.2 with hcontent | ⟨m, r, c, hc, hpk, hx, hy, hkey⟩
          · exact .inl hcontent
          · right
            rcases hpair with ⟨_, hserver⟩ | ⟨hserver, _⟩
            · rw [hy] at hserver
              obtain rfl := KeyName.server.inj (Term.boxPk.inj hserver)
              exact ⟨m, c, hc, hpk, hkey⟩
            · rw [hx] at hserver
              cases Term.boxPk.inj hserver
        · cases hopen
      · cases hopen
    · cases hdecoded
  · cases hdecoded

theorem Inv.toServer (h : Inv s) {frame : Wire} (hknown : s.Knows frame) :
    Inv (s.withServer n fun sv => (sv.receive n frame, [])) := by
  unfold withServer
  split
  · rename_i sv hsv
    have hserver := h.servers n sv hsv
    have hok := ServerRun.receive_ok hserver.run n frame
    -- in the loop the run keeps its key, in the handshake it takes the reply's
    have hcases : (sv.receive n frame).id = sv.id ∧
        ∀ k, (sv.receive n frame).sessionKey = some k → sv.sessionKey = some k ∨
          ∃ a b, parseMessage frame = some (.publicKey a b) ∧
            decodeKey b a (.server n) = some k := by
      unfold ServerRun.receive
      split
      · rcases ServerRun.onPublicKey_cases sv n frame with
          ⟨stage, _, heq⟩ | ⟨a, b, key, hparsed, hdecoded, heq⟩
        · rw [heq]
          exact ⟨rfl, fun k hk => .inl hk⟩
        · rw [heq]
          refine ⟨rfl, fun k hk => .inr ⟨a, b, hparsed, ?_⟩⟩
          cases hk
          exact hdecoded
      · split
        · exact ⟨rfl, fun k hk => .inl hk⟩
        · split
          · exact ⟨rfl, fun k hk => .inl hk⟩
          · exact ⟨rfl, fun k hk => .inl hk⟩
      · exact ⟨rfl, fun k hk => .inl hk⟩
    have hs : Extends s (s.setServer n (sv.receive n frame, [])) := by
      refine setServer_extends fun sv' hsv' => ?_
      obtain rfl := Option.some.inj (hsv.symm.trans hsv')
      exact hcases.1
    refine h.setServer hs nofun ⟨hok, fun k hk => ?_⟩
    have hkey : Safe s.policy k ∨ ∃ m c, s.clients m = some c ∧
        c.theirPkB = some (.boxPk (.server n)) ∧ k = .key (.client m) := by
      rcases hcases.2 k hk with hold | ⟨a, b, hparsed, hdecoded⟩
      · exact hserver.key k hold
      · exact h.decoded hknown hparsed hdecoded
    rcases hkey with hsafe | ⟨m, c, hc, hpk, heq⟩
    · exact .inl (hs.safe hsafe)
    · exact .inr ⟨m, c, hc, hpk, heq⟩
  · exact h

theorem Inv.moveServer (h : Inv s) {f : ServerRun → ServerRun × List Wire}
    (hf : ∀ sv, sv.Ok → (f sv).1.Ok)
    (hsame : ∀ sv, (f sv).1.id = sv.id ∧ (f sv).1.sessionKey = sv.sessionKey)
    (hframes : ∀ sv (s' : Net), ∀ t ∈ (f sv).2, Safe s'.policy t) : Inv (s.withServer n f) := by
  unfold withServer
  split
  · rename_i sv hsv
    have hserver := h.servers n sv hsv
    have hs : Extends s (s.setServer n (f sv)) := by
      refine setServer_extends fun sv' hsv' => ?_
      obtain rfl := Option.some.inj (hsv.symm.trans hsv')
      exact (hsame sv).1
    refine h.setServer hs (hframes sv _) ⟨hf sv hserver.run, fun k hk => ?_⟩
    rw [(hsame sv).2] at hk
    exact (hserver.extend hs).key k hk
  · exact h

theorem Inv.startServer (h : Inv s) (id : String) (hnone : s.servers n = none) :
    Inv (s.setServer n (.start id, [ServerRun.hello n id])) := by
  have hs : Extends s (s.setServer n (.start id, [ServerRun.hello n id])) :=
    setServer_extends fun sv hsv => by simp [hnone] at hsv
  refine h.setServer hs ?_ ⟨ServerRun.start_ok id, nofun⟩
  intro t ht
  obtain rfl := mem_singleton.mp ht
  refine ⟨⟨⟨trivial, trivial⟩, .inr ⟨n, _, update_self _ _ _, rfl, rfl⟩⟩, trivial⟩

theorem Inv.step (h : Inv s) {e : Event} (he : s.Possible e) : Inv (s.step e) := by
  cases e with
  | client n peerId directIp mode signedIdPk hasRsPk =>
    unfold Net.step
    dsimp only
    split
    · exact h
    · rename_i hnone
      exact h.startClient hnone he
  | server n id =>
    unfold Net.step
    dsimp only
    split
    · exact h
    · rename_i hnone
      exact h.startServer id hnone
  | toClient n frame => exact h.toClient he
  | toServer n frame => exact h.toServer he
  | ui n d =>
    refine h.moveClient (fun c hc => ClientRun.confirm_ok (h.clients n c hc).run d) ?_
    intro c s' _
    unfold ClientRun.confirm
    split
    · nofun
    · split
      · exact send_safe c .closeReason _ (message_safe _ _ _)
      · nofun
    · split
      · exact send_safe c .closeReason _ (message_safe _ _ _)
      · nofun
    · nofun
  | clientSends n content =>
    refine h.moveClient (fun c hc => ClientRun.sendMessage_ok (h.clients n c hc).run content) ?_
    intro c s' _
    unfold ClientRun.sendMessage
    split
    · exact send_safe c .message _ (message_safe _ _ _)
    · nofun
  | clientForwards n bytes =>
    refine h.moveClient (fun c hc => ClientRun.forward_ok (h.clients n c hc).run bytes) ?_
    intro c s' _
    unfold ClientRun.forward
    split
    · nofun
    · exact send_safe c .tunnel _ trivial
    · nofun
  | serverSends n tag content =>
    refine h.moveServer (fun sv hsv => ServerRun.sendMessage_ok hsv tag content) ?_ ?_
    · intro sv
      unfold ServerRun.sendMessage
      split
      · exact ⟨rfl, rfl⟩
      · exact ⟨rfl, rfl⟩
    · intro sv s' t ht
      unfold ServerRun.sendMessage at ht
      split at ht
      · obtain rfl := mem_singleton.mp ht
        unfold Stream.send
        cases sv.stream with
        | none => exact message_safe _ _ _
        | some e => exact message_safe s'.policy tag content
      · cases ht
  | cutClient n =>
    exact h.moveClient (fun c hc => ⟨(h.clients n c hc).run.stop (.inl rfl),
      ⟨rfl, rfl, rfl, nofun⟩⟩) fun _ _ _ _ ht => absurd ht not_mem_nil
  | cutServer n => exact h.moveServer (fun sv hsv => hsv.stop) (fun sv => ⟨rfl, rfl⟩) nofun

theorem Inv.noDowngrade (h : Inv s) : s.NoDowngrade := by
  refine ⟨fun n c hc => (h.clients n c hc).run.guarded, fun n c k hc hk => ?_,
    fun n c r sv hc hsv hkeys frame hlen => ?_⟩
  · obtain ⟨rfl, r, sv, hsv, hid, hpk⟩ := (h.clients n c hc).key k hk
    have hsecret : ¬Safe s.policy (.key (.client n)) := id
    refine ⟨fun hknown => hsecret (h.knows hknown), fun n' c' hc' hk' => ?_,
      r, sv, hsv, hid, hpk, fun r' sv' hsv' hk' => ?_⟩
    · have hkey := ((h.clients n' c' hc').key _ hk').1
      exact (KeyName.client.inj (Term.key.inj hkey)).symm
    · rcases (h.servers r' sv' hsv').key _ hk' with hsafe | ⟨m, c', hc', hpk', heq⟩
      · exact absurd hsafe hsecret
      · obtain rfl := KeyName.client.inj (Term.key.inj heq)
        obtain rfl := Option.some.inj (hc.symm.trans hc')
        rw [hpk] at hpk'
        exact (KeyName.server.inj (Term.boxPk.inj (Option.some.inj hpk'))).symm
  · have hclient := (h.clients n c hc).run
    have hserver := (h.servers r sv hsv).run
    constructor
    · rintro ⟨hsent, haccepted⟩
      exact hkeys ((hclient.sent frame hsent).unique (hserver.accepted frame haccepted hlen))
    · rintro ⟨hsent, hhandled⟩
      exact hkeys ((hclient.handled frame hhandled hlen).unique (hserver.sent frame hsent))

end

/-- **No silent downgrade.**  In every state of every run of any number of clients and
servers, against an adversary that delivers whatever it can make, all three properties of the
handshake hold. -/
theorem no_silent_downgrade (events : List Event) (h : Run.Along step Possible init events) :
    Run.Always step NoDowngrade init events := by
  have hinit : Inv init := ⟨nofun, nofun, nofun⟩
  have hinv : Run.Always step Inv init events :=
    Run.always_of_along (fun _ _ hi he => Inv.step hi he) hinit h
  exact fun before hbefore => (hinv before hbefore).noDowngrade

def session (mode : ClientMode) : List Event :=
  [.server 0 "42", .client 0 "42" false mode (certificate "42") true,
    .toClient 0 (ServerRun.hello 0 "42"),
    .toServer 0 (publicKey (.boxPk (.client 0))
      (.boxed (.boxPk (.client 0)) (.boxPk (.server 0)) (.key (.client 0))))]

theorem session_possible (mode : ClientMode) : Run.Along step Possible init (session mode) := by
  refine ⟨trivial, .wire (.inr ⟨"42", rfl⟩), .wire (.inl ?_), .wire (.inl ?_), trivial⟩
  · cases mode <;> decide +kernel
  · cases mode <;> decide +kernel

theorem secure_session_not_downgraded :
    (∃ c, (Run.exec step init (session .remote)).clients 0 = some c ∧
        c.sessionKey = some (.key (.client 0))) ∧
      Run.Always step NoDowngrade init (session .remote) :=
  ⟨⟨_, rfl, by decide +kernel⟩, no_silent_downgrade _ (session_possible .remote)⟩

/-- Like `Exposed`, with the bytes of a port forward as messages. -/
def ExposedAtAll : ClientAct → Prop
  | .sent .message secured _ | .sent .tunnel secured _ | .handled secured _ => secured = false
  | _ => False

/-- Like `Guarded`, with the bytes of a port forward. -/
def GuardedAtAll (acts : List ClientAct) : Prop :=
  ∀ before a after, acts = before ++ a :: after → ExposedAtAll a → .continueInsecure ∈ before

/-- Like `Apart`, with the messages of the handshake. -/
def ApartAtAll (c : ClientRun) (r : Nat) (sv : ServerRun) : Prop :=
  ∀ frame, 1 < len frame →
    ¬((frame ∈ c.sentFrames ∨ .sent .reply false frame ∈ c.acts) ∧ frame ∈ sv.accepted) ∧
    ¬((frame ∈ sv.sent ∨ frame = ServerRun.hello r sv.id) ∧ frame ∈ c.handledFrames)

def ownReply (m r : Nat) : Wire :=
  publicKey (.boxPk (.adversary m))
    (.boxed (.boxPk (.adversary m)) (.boxPk (.server r)) (.key (.adversary m)))

theorem knows_ownReply (s : Net) (m r : Nat) : s.Knows (ownReply m r) := by
  have hsk : s.Knows (.boxSk (.adversary m)) := Known.boxSk trivial
  have hk : s.Knows (.key (.adversary m)) := Known.key trivial
  exact Known.node _ (Known.boxPk _) (Known.box hsk (.inl rfl) hk)

/-- A port forward in a secure session: once it is logged in, the bytes that came in from the
local end leave without a key. -/
def tunnelRun : List Event :=
  session .portForward ++ [.clientForwards 0 [1, 2], .serverSends 0 .peerInfo [],
    .toClient 0 (.secretBox (.key (.client 0)) 1 (message .peerInfo []))]

/-- The client has no certificate for its peer and its user agrees; the server gets a key of
the adversary's; only then the client reads the server's `SignedId`. -/
def lateSignedId : List Event :=
  [.server 0 "42", .client 0 "42" false .remote (.raw []) true,
    .ui 0 .continueInsecureConnection, .toServer 0 (ownReply 0 0),
    .toClient 0 (ServerRun.hello 0 "42")]

def lateReply : List Event :=
  [.server 0 "42", .client 0 "42" false .remote (certificate "42") true,
    .toClient 0 (ServerRun.hello 0 "42"), .toServer 0 emptyMessage,
    .toServer 0 (publicKey (.boxPk (.client 0))
      (.boxed (.boxPk (.client 0)) (.boxPk (.server 0)) (.key (.client 0))))]

/-- The bytes of a port forward leave without a key and without a word of the user, and a side
that went on without a key accepts the handshake's message of the other, which has one. -/
theorem tunnel_and_late_handshake_exposed :
    (Run.Along step Possible init tunnelRun ∧
      ∃ c, (Run.exec step init tunnelRun).clients 0 = some c ∧ c.directIp = false ∧
        ¬GuardedAtAll c.acts) ∧
    (Run.Along step Possible init lateSignedId ∧
      ∃ c sv, (Run.exec step init lateSignedId).clients 0 = some c ∧
        (Run.exec step init lateSignedId).servers 0 = some sv ∧
        c.sessionKey ≠ sv.sessionKey ∧ ¬ApartAtAll c 0 sv) ∧
    (Run.Along step Possible init lateReply ∧
      ∃ c sv, (Run.exec step init lateReply).clients 0 = some c ∧
        (Run.exec step init lateReply).servers 0 = some sv ∧
        c.sessionKey ≠ sv.sessionKey ∧ ¬ApartAtAll c 0 sv) := by
  refine ⟨⟨?_, _, rfl, rfl, fun h => ?_⟩,
    ⟨?_, _, _, rfl, rfl, by decide +kernel, fun h => ?_⟩,
    ⟨?_, _, _, rfl, rfl, by decide +kernel, fun h => ?_⟩⟩
  · refine ⟨trivial, .wire (.inr ⟨"42", rfl⟩), .wire (.inl ?_), .wire (.inl ?_), trivial, trivial,
      .wire (.inl ?_), trivial⟩
    · decide +kernel
    · decide +kernel
    · decide +kernel
  · have hasked := h _ (.sent .tunnel false (.raw [1, 2])) [] rfl rfl
    revert hasked
    decide +kernel
  · refine ⟨trivial, .raw [], trivial, knows_ownReply _ 0 0, .wire (.inl ?_), trivial⟩
    decide +kernel
  · have hread := (h (ServerRun.hello 0 "42") (by decide +kernel)).2
    exact hread ⟨.inr rfl, by decide +kernel⟩
  · refine ⟨trivial, .wire (.inr ⟨"42", rfl⟩), .wire (.inl ?_), .raw [], .wire (.inl ?_), trivial⟩
    · decide +kernel
    · decide +kernel
  · have hread := (h (publicKey (.boxPk (.client 0))
      (.boxed (.boxPk (.client 0)) (.boxPk (.server 0)) (.key (.client 0))))
      (by decide +kernel)).1
    exact hread ⟨.inr (by decide +kernel), by decide +kernel⟩

end Net
end RustDesk.Handshake
