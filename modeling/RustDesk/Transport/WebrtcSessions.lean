import RustDesk.Lib.Run

/-!
# The table of WebRTC sessions

A session is kept under the fingerprint in the description that the connection began with, the
local offer or the remote one.  A call looks its fingerprint up, makes a connection if it finds
nothing, and looks again before it stores it; the connection that loses is closed.  When a
connection is disconnected, has failed or is closed, its callback takes the entry under its
fingerprint out of the table, whatever connection is stored there.

`WebrtcSessions` has the connections, and what the code does not keep: the connections whose
callback has run, the entries that callbacks took out, and what the calls returned.  A step is
what happens from one acquisition of the lock to the next.

* `table_kept_iff`: **the table drops only what is its own** exactly in the runs where a callback
  finds its own connection or none, and where what is stored was not closed before.
-/

open Run

namespace RustDesk

open List Function

abbrev FingerprintText := List Char

/-- `Attribute`. -/
structure SdpAttribute where
  key : FingerprintText
  value : Option FingerprintText

structure MediaDescription where
  media : FingerprintText
  attributes : List SdpAttribute

structure Sdp where
  attributes : List SdpAttribute
  mediaDescriptions : List MediaDescription

def fingerprintOf (attributes : List SdpAttribute) : Option FingerprintText :=
  (attributes.find? (·.key = "fingerprint".toList)).bind (·.value)

def getKeyForSdp (sdp : Sdp) : Option FingerprintText :=
  match fingerprintOf sdp.attributes with
  | some fingerprint => some fingerprint
  | none => sdp.mediaDescriptions.findSome? fun media =>
    if media.media = "application".toList then fingerprintOf media.attributes else none

/-- `RTCPeerConnectionState`. -/
inductive ConnectionState where
  | new
  | connecting
  | connected
  | disconnected
  | failed
  | closed

/-- A connection: whether it began with a local offer, that offer or the remote one, whether the
description is set, and whether the call that made it is still running. -/
structure PeerConnection where
  startLocalOffer : Bool
  sdp : Sdp
  described : Bool
  running : Bool

structure WebrtcSessions where
  sessions : FingerprintText → Option Nat
  peers : List PeerConnection
  ran : List Nat
  closedRan : List Nat
  removed : List (Nat × Nat)
  returned : List (FingerprintText × Nat)
  differing : List (Nat × Nat)

namespace WebrtcSessions

def start : WebrtcSessions where
  sessions := fun _ => none
  peers := []
  ran := []
  closedRan := []
  removed := []
  returned := []
  differing := []

/-- A call for a remote offer returns a connection; `differing` has what earlier calls for the
fingerprint returned, as far as it lives, and what this one does, if they are not the same. -/
def returnOk (s : WebrtcSessions) (key : FingerprintText) (c : Nat) : WebrtcSessions :=
  { s with
    returned := (key, c) :: s.returned
    differing := s.differing ++
      (s.returned.filter fun r => r.1 = key ∧ r.2 ∉ s.ran ∧ r.2 ≠ c).map fun r => (r.2, c) }

/-- `WebRTCStream::new` up to the first lock: the stored session, or a new connection. -/
def new (s : WebrtcSessions) (remoteOffer : Option Sdp) (localOffer : Sdp) : WebrtcSessions :=
  match remoteOffer with
  | none => { s with peers := s.peers ++ [⟨true, localOffer, false, true⟩] }
  | some sdp =>
    match getKeyForSdp sdp with
    | none => s
    | some key =>
      match s.sessions key with
      | some c =>
        if key ≠ [] then s.returnOk key c
        else { s with peers := s.peers ++ [⟨false, sdp, false, true⟩] }
      | none => { s with peers := s.peers ++ [⟨false, sdp, false, true⟩] }

def ended (s : WebrtcSessions) (c : Nat) : WebrtcSessions :=
  { s with peers := s.peers.modify c fun p => { p with running := false } }

def returnFor (s : WebrtcSessions) (p : PeerConnection) (key : FingerprintText) (c : Nat) :
    WebrtcSessions :=
  if p.startLocalOffer then s else s.returnOk key c

/-- `WebRTCStream::new` under the second lock: the stored session, or this one is stored.  The
connection that is not stored is closed. -/
def finish (s : WebrtcSessions) (c : Nat) : WebrtcSessions :=
  match s.peers[c]? with
  | some p =>
    if p.running ∧ p.described then
      match getKeyForSdp p.sdp with
      | some key =>
        match s.sessions key with
        | some stored => (s.ended c).returnFor p key stored
        | none =>
          { s.ended c with
            sessions := update s.sessions key (some c) }.returnFor p key c
      | none => s.ended c
    else s
  | none => s

def describe (s : WebrtcSessions) (c : Nat) : WebrtcSessions :=
  { s with peers := s.peers.modify c fun p =>
      if p.running then { p with described := true } else p }

def getKeyForPeer (p : PeerConnection) : Option FingerprintText :=
  if p.described then getKeyForSdp p.sdp else none

def cleanup (s : WebrtcSessions) (c : Nat) (p : PeerConnection) : WebrtcSessions :=
  match getKeyForPeer p with
  | some k => { s with
      sessions := update s.sessions k none
      removed := (s.sessions k).toList.map (·, c) ++ s.removed }
  | none => { s with sessions := fun k => if s.sessions k = some c then none else s.sessions k }

def callback (s : WebrtcSessions) (c : Nat) (state : ConnectionState) : WebrtcSessions :=
  match s.peers[c]? with
  | some p =>
    match state with
    | .disconnected | .failed => { s.cleanup c p with ran := c :: s.ran }
    | .closed => { s.cleanup c p with
        ran := c :: s.ran
        closedRan := c :: s.closedRan }
    | _ => s
  | none => s

/-- What happens: a call begins, with the local offer that it may make; its connection is
described; it fails; it ends; a callback runs. -/
inductive Input where
  | new (remoteOffer : Option Sdp) (localOffer : Sdp)
  | describe (c : Nat)
  | fail (c : Nat)
  | finish (c : Nat)
  | callback (c : Nat) (state : ConnectionState)

def step (s : WebrtcSessions) : Input → WebrtcSessions
  | .new remoteOffer localOffer => s.new remoteOffer localOffer
  | .describe c => s.describe c
  | .fail c => s.ended c
  | .finish c => s.finish c
  | .callback c state => s.callback c state

/-- **The table is kept**: what callbacks took out was their own connection, no connection is
stored whose closed callback has run, and calls for the same fingerprint returned the same
connection while it lived. -/
structure Kept (s : WebrtcSessions) : Prop where
  own : ∀ r ∈ s.removed, r.1 = r.2
  alive : ∀ k c, s.sessions k = some c → c ∉ s.closedRan
  same : s.differing = []

/-- The condition: a callback that takes something out finds its own connection under its key or
none, and a connection is stored only if its closed callback has not run. -/
def Meets (s : WebrtcSessions) : Input → Prop
  | .callback c state => (state = .disconnected ∨ state = .failed ∨ state = .closed) →
      ∀ p k other, s.peers[c]? = some p → getKeyForPeer p = some k →
        s.sessions k = some other → other = c
  | .finish c => ∀ p k, s.peers[c]? = some p → p.running = true → p.described = true →
      getKeyForSdp p.sdp = some k → s.sessions k = none → c ∉ s.closedRan
  | _ => True

structure Inv (s : WebrtcSessions) : Prop where
  stored : ∀ k c, s.sessions k = some c → ∃ p, s.peers[c]? = some p ∧ getKeyForPeer p = some k
  returned : ∀ r ∈ s.returned, r.2 ∉ s.ran → s.sessions r.1 = some r.2

variable {s s' : WebrtcSessions} {c : Nat} {key : FingerprintText}

def PeersKept (s s' : WebrtcSessions) : Prop :=
  ∀ (c : Nat) p k, s.peers[c]? = some p → getKeyForPeer p = some k →
    ∃ p', s'.peers[c]? = some p' ∧ getKeyForPeer p' = some k

theorem peersKept_append (p : PeerConnection) : PeersKept s { s with peers := s.peers ++ [p] } := by
  intro c q k hq hk
  have hlt := (List.getElem?_eq_some_iff.mp hq).1
  exact ⟨q, (List.getElem?_append_left hlt).trans hq, hk⟩

theorem peersKept_modify {f : PeerConnection → PeerConnection}
    (hf : ∀ p k, getKeyForPeer p = some k → getKeyForPeer (f p) = some k) (c : Nat) :
    PeersKept s { s with peers := s.peers.modify c f } := by
  intro d p k hp hk
  have hget : (s.peers.modify c f)[d]? = some (if c = d then f p else p) := by
    rw [List.getElem?_modify, hp]
    rfl
  refine ⟨_, hget, ?_⟩
  split
  · exact hf p k hk
  · exact hk

theorem peersKept_ended : PeersKept s (s.ended c) :=
  peersKept_modify (f := fun p => { p with running := false }) (fun _ _ h => h) c

theorem peersKept_describe : PeersKept s (s.describe c) := by
  apply peersKept_modify
  intro p k hk
  have hkey : getKeyForSdp p.sdp = some k := by
    rw [getKeyForPeer] at hk
    split at hk
    · exact hk
    · exact absurd hk.symm (Option.some_ne_none _)
  split
  · exact hkey
  · exact hk

theorem Inv.peers (h : s.Inv) (hpeers : PeersKept s s') (hsessions : s'.sessions = s.sessions)
    (hran : s'.ran = s.ran) (hreturned : s'.returned = s.returned) : s'.Inv := by
  refine ⟨fun k c hc => ?_, fun r hr hlive => ?_⟩
  · rw [hsessions] at hc
    obtain ⟨p, hp, hk⟩ := h.stored k c hc
    exact hpeers c p k hp hk
  · rw [hsessions]
    rw [hreturned] at hr
    rw [hran] at hlive
    exact h.returned r hr hlive

theorem Kept.of_same (h : s.Kept) (hremoved : s'.removed = s.removed)
    (hsessions : s'.sessions = s.sessions) (hclosed : s'.closedRan = s.closedRan)
    (hdiffering : s'.differing = s.differing) : s'.Kept := by
  refine ⟨?_, ?_, ?_⟩
  · rw [hremoved]
    exact h.own
  · rw [hsessions, hclosed]
    exact h.alive
  · rw [hdiffering]
    exact h.same

theorem differing_returnOk (h : s.Inv) (hc : s.sessions key = some c) :
    (s.returnOk key c).differing = s.differing := by
  have hnone : s.returned.filter (fun r => r.1 = key ∧ r.2 ∉ s.ran ∧ r.2 ≠ c) = [] := by
    apply filter_eq_nil_iff.mpr
    intro r hr
    simp only [decide_eq_true_eq]
    rintro ⟨rfl, hlive, hne⟩
    exact hne (Option.some.inj ((h.returned r hr hlive).symm.trans hc))
  rw [returnOk, hnone]
  exact append_nil _

theorem Inv.returnOk (h : s.Inv) (hc : s.sessions key = some c) : (s.returnOk key c).Inv := by
  refine ⟨h.stored, fun r hr hlive => ?_⟩
  rcases mem_cons.mp hr with rfl | hr
  · exact hc
  · exact h.returned r hr hlive

theorem kept_returnOk_iff (h : s.Inv) (hc : s.sessions key = some c) :
    (s.returnOk key c).Kept ↔ s.Kept := by
  have hdiffering := differing_returnOk h hc
  constructor
  · exact fun hkept => hkept.of_same rfl rfl rfl hdiffering.symm
  · exact fun hkept => hkept.of_same rfl rfl rfl hdiffering

variable {p : PeerConnection}

theorem Inv.returnFor (h : s.Inv) (hc : s.sessions key = some c) : (s.returnFor p key c).Inv := by
  rw [WebrtcSessions.returnFor]
  split
  · exact h
  · exact h.returnOk hc

theorem kept_returnFor_iff (h : s.Inv) (hc : s.sessions key = some c) :
    (s.returnFor p key c).Kept ↔ s.Kept := by
  rw [WebrtcSessions.returnFor]
  split
  · rfl
  · exact kept_returnOk_iff h hc

theorem Inv.new (h : s.Inv) (remoteOffer : Option Sdp) (localOffer : Sdp) :
    (s.new remoteOffer localOffer).Inv := by
  have happend : ∀ p, ({ s with peers := s.peers ++ [p] } : WebrtcSessions).Inv :=
    fun p => h.peers (peersKept_append p) rfl rfl rfl
  unfold WebrtcSessions.new
  split
  · exact happend _
  · split
    · exact h
    · split
      next hc =>
        split
        · exact h.returnOk hc
        · exact happend _
      next => exact happend _

theorem Kept.new (h : s.Kept) (hinv : s.Inv) (remoteOffer : Option Sdp) (localOffer : Sdp) :
    (s.new remoteOffer localOffer).Kept := by
  have happend : ∀ p, ({ s with peers := s.peers ++ [p] } : WebrtcSessions).Kept :=
    fun p => h.of_same rfl rfl rfl rfl
  unfold WebrtcSessions.new
  split
  · exact happend _
  · split
    · exact h
    · split
      next hc =>
        split
        · exact (kept_returnOk_iff hinv hc).mpr h
        · exact happend _
      next => exact happend _

def store (s : WebrtcSessions) (key : FingerprintText) (c : Nat) : WebrtcSessions :=
  { s.ended c with sessions := update s.sessions key (some c) }

theorem Inv.store (h : s.Inv) (hp : s.peers[c]? = some p)
    (hkey : getKeyForPeer p = some key) (hnone : s.sessions key = none) : (s.store key c).Inv := by
  have hended := h.peers (peersKept_ended (c := c)) rfl rfl rfl
  refine ⟨fun k d hd => ?_, fun r hr hlive => ?_⟩
  · by_cases hk : k = key
    · subst hk
      obtain rfl : c = d := by simpa [WebrtcSessions.store] using hd
      exact peersKept_ended c p k hp hkey
    · exact hended.stored k d ((update_of_ne hk _ _).symm.trans hd)
  · have hthere := h.returned r hr hlive
    have hne : r.1 ≠ key := by
      rintro rfl
      exact absurd (hthere.symm.trans hnone) (Option.some_ne_none _)
    exact (update_of_ne hne _ _).trans hthere

theorem kept_store_iff (h : s.Kept) : (s.store key c).Kept ↔ c ∉ s.closedRan := by
  constructor
  · exact fun hkept => hkept.alive key c (update_self ..)
  · intro hc
    refine ⟨h.own, fun k d hd => ?_, h.same⟩
    by_cases hk : k = key
    · subst hk
      obtain rfl : c = d := by simpa [store] using hd
      exact hc
    · exact h.alive k d ((update_of_ne hk _ _).symm.trans hd)

theorem getKeyForPeer_of_described (h : p.described = true) :
    getKeyForPeer p = getKeyForSdp p.sdp := if_pos h

theorem Inv.finish (h : s.Inv) (c : Nat) : (s.finish c).Inv := by
  have hended := h.peers (peersKept_ended (c := c)) rfl rfl rfl
  unfold WebrtcSessions.finish
  split
  next p hp =>
    split
    next hruns =>
      split
      next key hkey =>
        have hpeer := (getKeyForPeer_of_described hruns.2).trans hkey
        split
        next hstored => exact hended.returnFor hstored
        next hnone => exact (h.store hp hpeer hnone).returnFor (update_self ..)
      next => exact hended
    next => exact h
  next => exact h

theorem kept_finish_iff (h : s.Kept) (hinv : s.Inv) (c : Nat) :
    (s.finish c).Kept ↔ Meets s (.finish c) := by
  have hended := hinv.peers (peersKept_ended (c := c)) rfl rfl rfl
  have hkept : (s.ended c).Kept := h.of_same rfl rfl rfl rfl
  unfold WebrtcSessions.finish
  split
  next p hp =>
    have hmeets : Meets s (.finish c) ↔ (p.running = true → p.described = true →
        ∀ k, getKeyForSdp p.sdp = some k → s.sessions k = none → c ∉ s.closedRan) := by
      constructor
      · exact fun hm hrun hdesc k hk => hm p k hp hrun hdesc hk
      · intro hm q k hq hrun hdesc hk
        obtain rfl : p = q := Option.some.inj (hp.symm.trans hq)
        exact hm hrun hdesc k hk
    rw [hmeets]
    split
    next hruns =>
      simp only [hruns.1, hruns.2, true_implies]
      split
      next key hkey =>
        have hpeer := (getKeyForPeer_of_described hruns.2).trans hkey
        split
        next hstored =>
          rw [kept_returnFor_iff hended hstored]
          refine iff_of_true hkept fun k hk hnone => ?_
          obtain rfl : key = k := Option.some.inj (hkey.symm.trans hk)
          exact absurd (hstored.symm.trans hnone) (Option.some_ne_none _)
        next hnone =>
          have hstore := kept_returnFor_iff (p := p) (hinv.store hp hpeer hnone) (update_self ..)
          refine hstore.trans ((kept_store_iff h).trans ⟨fun hc _ _ _ => hc, fun hc => ?_⟩)
          exact hc key hkey hnone
      next hkey =>
        refine iff_of_true hkept fun k hk => ?_
        exact absurd (hkey.symm.trans hk).symm (Option.some_ne_none _)
    next hruns =>
      exact iff_of_true h fun hrun hdesc => absurd ⟨hrun, hdesc⟩ hruns
  next hp =>
    refine iff_of_true h fun p k hsome => ?_
    exact absurd (hp.symm.trans hsome).symm (Option.some_ne_none _)

def Own (s : WebrtcSessions) (c : Nat) (p : PeerConnection) : Prop :=
  ∀ k other, getKeyForPeer p = some k → s.sessions k = some other → other = c

variable {k : FingerprintText}

theorem sessions_cleanup {d : Nat} (h : (s.cleanup c p).sessions k = some d) :
    s.sessions k = some d ∧ getKeyForPeer p ≠ some k := by
  unfold cleanup at h
  split at h
  next k' hk' =>
    have hne : k ≠ k' := by
      rintro rfl
      simp at h
    refine ⟨(update_of_ne hne _ _).symm.trans h, ?_⟩
    rw [hk']
    exact fun heq => hne (Option.some.inj heq).symm
  next hnone =>
    simp only at h
    split at h
    · exact absurd h.symm (Option.some_ne_none _)
    · exact ⟨h, fun heq => Option.some_ne_none _ (heq.symm.trans hnone)⟩

theorem closedRan_cleanup : (s.cleanup c p).closedRan = s.closedRan := by
  unfold cleanup
  split <;> rfl

theorem sessions_cleanup_of_own (hown : Own s c p)
    {d : Nat} (hne : d ≠ c) (h : s.sessions k = some d) : (s.cleanup c p).sessions k = some d := by
  unfold cleanup
  split
  next k' hk' =>
    have hk : k ≠ k' := by
      rintro rfl
      exact hne (hown k d hk' h)
    exact (update_of_ne hk _ _).trans h
  next =>
    have hother : s.sessions k ≠ some c := by
      rw [h]
      exact fun heq => hne (Option.some.inj heq)
    exact (if_neg hother).trans h

theorem removed_cleanup_iff (h : s.Kept) :
    (∀ r ∈ (s.cleanup c p).removed, r.1 = r.2) ↔ Own s c p := by
  unfold cleanup Own
  split
  next k hk =>
    simp only [mem_append, mem_map, Option.mem_toList]
    constructor
    · intro hall k' other hk' hother
      obtain rfl : k = k' := Option.some.inj (hk.symm.trans hk')
      exact hall (other, c) (.inl ⟨other, hother, rfl⟩)
    · rintro hown r (⟨other, hother, rfl⟩ | hr)
      · exact hown k other hk hother
      · exact h.own r hr
  next hnone =>
    refine iff_of_true h.own fun k other hk => ?_
    exact absurd (hnone.symm.trans hk).symm (Option.some_ne_none _)

theorem not_stored_cleanup (hinv : s.Inv) (hp : s.peers[c]? = some p) {d : Nat}
    (h : (s.cleanup c p).sessions k = some d) : d ≠ c := by
  rintro rfl
  obtain ⟨hstored, hkey⟩ := sessions_cleanup h
  obtain ⟨q, hq, hk⟩ := hinv.stored k d hstored
  obtain rfl : p = q := Option.some.inj (hp.symm.trans hq)
  exact hkey hk

theorem Inv.callback (h : s.Inv) {state : ConnectionState}
    (hmeets : Meets s (.callback c state)) : (s.callback c state).Inv := by
  have hran : ∀ {p} {closedRan : List Nat}, s.peers[c]? = some p → Own s c p →
      ({ s.cleanup c p with ran := c :: s.ran, closedRan := closedRan } : WebrtcSessions).Inv := by
    intro p closedRan hp hown
    have hpeers : (s.cleanup c p).peers = s.peers := by
      unfold cleanup
      split <;> rfl
    have hreturned : (s.cleanup c p).returned = s.returned := by
      unfold cleanup
      split <;> rfl
    refine ⟨fun k d hd => ?_, fun r hr hlive => ?_⟩
    · have hstored := h.stored k d (sessions_cleanup hd).1
      exact hpeers ▸ hstored
    · have hne : r.2 ≠ c := fun heq => hlive (heq ▸ mem_cons_self)
      have hbefore := h.returned r (hreturned ▸ hr) fun hmem => hlive (mem_cons_of_mem _ hmem)
      exact sessions_cleanup_of_own hown hne hbefore
  unfold WebrtcSessions.callback
  split
  next p hp =>
    have hown : state = .disconnected ∨ state = .failed ∨ state = .closed → Own s c p :=
      fun hstate k other hk hother => hmeets hstate p k other hp hk hother
    split
    next => exact hran hp (hown (.inl rfl))
    next => exact hran hp (hown (.inr (.inl rfl)))
    next => exact hran hp (hown (.inr (.inr rfl)))
    next => exact h
  next => exact h

/-- **A callback** keeps the table exactly if it takes out its own connection or none. -/
theorem kept_callback_iff (h : s.Kept) (hinv : s.Inv) {state : ConnectionState} :
    (s.callback c state).Kept ↔ Meets s (.callback c state) := by
  have hclean : ∀ {p} {ran closedRan : List Nat}, s.peers[c]? = some p →
      (∀ d, d ∈ closedRan → d = c ∨ d ∈ s.closedRan) →
      (({ s.cleanup c p with ran := ran, closedRan := closedRan } : WebrtcSessions).Kept ↔
        Own s c p) := by
    intro p ran closedRan hp hclosed
    have hdiffering : (s.cleanup c p).differing = s.differing := by
      unfold cleanup
      split <;> rfl
    constructor
    · exact fun hkept => (removed_cleanup_iff h).mp hkept.own
    · intro hown
      refine ⟨(removed_cleanup_iff h).mpr hown, fun k d hd hmem => ?_, hdiffering.trans h.same⟩
      rcases hclosed d hmem with heq | hmem
      · exact not_stored_cleanup hinv hp hd heq
      · exact h.alive k d (sessions_cleanup hd).1 hmem
  unfold WebrtcSessions.callback
  split
  next p hp =>
    have hmeets : Meets s (.callback c state) ↔
        (state = .disconnected ∨ state = .failed ∨ state = .closed → Own s c p) := by
      constructor
      · exact fun hm hstate k other hk hother => hm hstate p k other hp hk hother
      · intro hm hstate q k other hq hk hother
        obtain rfl : p = q := Option.some.inj (hp.symm.trans hq)
        exact hm hstate k other hk hother
    rw [hmeets]
    split
    next =>
      refine (hclean hp fun d hd => .inr (closedRan_cleanup ▸ hd)).trans ?_
      exact ⟨fun hown _ => hown, fun hm => hm (.inl rfl)⟩
    next =>
      refine (hclean hp fun d hd => .inr (closedRan_cleanup ▸ hd)).trans ?_
      exact ⟨fun hown _ => hown, fun hm => hm (.inr (.inl rfl))⟩
    next =>
      refine (hclean hp fun d hd => mem_cons.mp hd).trans ?_
      exact ⟨fun hown _ => hown, fun hm => hm (.inr (.inr rfl))⟩
    next hdisconnected hfailed hclosed =>
      refine iff_of_true h fun hstate => ?_
      rcases hstate with rfl | rfl | rfl
      · exact (hdisconnected rfl).elim
      · exact (hfailed rfl).elim
      · exact (hclosed rfl).elim
  next hnone =>
    refine iff_of_true h fun hstate p k other hp => ?_
    exact absurd (hnone.symm.trans hp).symm (Option.some_ne_none _)

/-- **The table drops only what is its own** exactly in the runs that meet the condition. -/
theorem table_kept_iff (is : List Input) :
    Always step Kept start is ↔ Along step Meets start is := by
  have hstart : start.Inv := ⟨fun _ _ h => absurd h.symm (Option.some_ne_none _),
    fun _ h => absurd h not_mem_nil⟩
  have hkept : start.Kept := ⟨fun _ h => absurd h not_mem_nil,
    fun _ _ h => absurd h.symm (Option.some_ne_none _), rfl⟩
  refine always_iff_along_of_good ?_ ?_ hstart hkept
  · intro s i hinv hkept hmeets
    cases i with
    | new remoteOffer localOffer => exact hinv.new remoteOffer localOffer
    | describe c => exact hinv.peers peersKept_describe rfl rfl rfl
    | fail c => exact hinv.peers peersKept_ended rfl rfl rfl
    | finish c => exact hinv.finish c
    | callback c state => exact hinv.callback hmeets
  · intro s i hinv hkept
    cases i with
    | new remoteOffer localOffer =>
      exact iff_of_true (hkept.new hinv remoteOffer localOffer) trivial
    | describe c => exact iff_of_true (hkept.of_same rfl rfl rfl rfl) trivial
    | fail c => exact iff_of_true (hkept.of_same rfl rfl rfl rfl) trivial
    | finish c => exact kept_finish_iff hkept hinv c
    | callback c state => exact kept_callback_iff hkept hinv

def offer : Sdp where
  attributes := [⟨"fingerprint".toList, some ['f']⟩]
  mediaDescriptions := []

/-- Two calls for one offer that both look up before either stores: the callback of the connection
that lost takes the other out, which lives, and the next call makes a third. -/
theorem not_table_kept : ¬Always step Kept start
    [.new (some offer) offer, .new (some offer) offer, .describe 0, .describe 1, .finish 0,
      .finish 1, .callback 1 .closed] := by
  intro h
  have hlast := h.last.own (0, 1) (by decide)
  cases hlast

end WebrtcSessions
end RustDesk
