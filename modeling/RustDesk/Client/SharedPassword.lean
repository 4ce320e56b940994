import RustDesk.Client.LoginConfig
import RustDesk.Config.PasswordSecurity

/-!
# Shared passwords are not kept

A shared password stays in the handler when its connection is over, and so does the source noted
for it, but `is_shared_ab` knows it again only by the salt of the last hash.

* `shared_never_kept_iff`: **in a run no shared password is stored or passed on exactly if**, at
  each `handle_peer_info` with one, the handler does not remember passwords, or the last salt is
  that of the password and no switch of sides has put its source back.
-/

namespace RustDesk.LoginConfig

open List

variable {c : Client} {h : Handler} {k : Credential}

/-- What a handler knows of a shared password: how it was computed, and its source unless that was
put back. -/
def Credential.Sound (c : Client) (k : Credential) : Prop :=
  ∀ p salt, k.origin = .shared p salt →
    k.password = c.sha256 (asBytes p ++ asBytes salt) ∧
      (k.passwordSource = .sharedAb p ∨ k.passwordSource = .undefined)

structure Issued (c : Client) where
  token : ConnToken
  sound : token.toCredential.Sound c

inductive Event (c : Client) where
  | initialized (i : Start) (connToken : Option (Issued c))
  | handleHash (i : HashInput)
  | handleLoginError (err : String) (loaded : PeerConfig)
  | handleLoginFromUi (osUsername osPassword password : String) (remember : Bool)
  | handlePeerInfo (pi : PeerInfo) (loaded : PeerConfig)

def call (h : Handler) : Event c → Handler
  | .initialized i connToken => h.initialized i (connToken.map (·.token))
  | .handleHash i => (c.handleHash i h).1
  | .handleLoginError err loaded => (h.handleLoginError err loaded).1
  | .handleLoginFromUi osUsername osPassword password remember =>
    (c.handleLoginFromUi osUsername osPassword password remember h).1
  | .handlePeerInfo pi loaded => (c.handlePeerInfo pi loaded h).1

def Handler.default : Handler where
  password := []
  passwordSource := .undefined
  origin := .other
  id := ""
  connType := .defaultConn
  isTerminalAdmin := false
  hash := ⟨"", ""⟩
  remember := false
  config := ⟨[], [], ⟨"", "", ""⟩, ""⟩
  version := 0
  sessionId := 0
  forceRelay := false
  switchUuid := none
  switchBackAllowed := false
  otherServer := none
  sharedPassword := none

/-- If the handler has a shared password, this call neither stores it, unless the configuration
had it before, nor passes it to the personal address book. -/
def NotKept (h : Handler) : Event c → Prop
  | .handlePeerInfo pi loaded => ∀ p salt, h.origin = .shared p salt →
      (∀ id config, .store id config ∈ (c.handlePeerInfo pi loaded h).2 →
        config.password = h.password → loaded.password = h.password) ∧
      ∀ id, .syncToPersonalAb id h.password ∉ (c.handlePeerInfo pi loaded h).2
  | _ => True

/-- If the handler has a shared password, it does not remember it, or it still has its source and
salt (or has nothing to do with it). -/
def Recognised (h : Handler) : Event c → Prop
  | .handlePeerInfo _ loaded => ∀ p salt, h.origin = .shared p salt →
      h.remember = false ∨ (h.passwordSource = .sharedAb p ∧ h.hash.salt = salt) ∨
        (c.flutter = false ∧ loaded.password = h.password)
  | _ => True

theorem Credential.sound_of_other (hk : k.origin = .other) : k.Sound c := by
  intro p salt horigin
  exact Origin.noConfusion (hk.symm.trans horigin)

theorem Client.sound_shared (p salt : String) : (c.shared p salt).Sound c := by
  intro p' salt' horigin
  cases horigin
  exact ⟨rfl, .inl rfl⟩

theorem Client.sound_choose (i : HashInput) (hk : h.toCredential.Sound c) :
    (c.choose i h).Sound c := by
  have hpreset : (c.presetPassword i h.toCredential).Sound c := by
    unfold presetPassword
    split
    · exact Credential.sound_of_other rfl
    · exact hk
  have hshared : (c.sharedPassword h.sharedPassword i
      (c.presetPassword i h.toCredential)).Sound c := by
    unfold sharedPassword
    split
    · split
      · exact c.sound_shared _ _
      · exact hpreset
    · exact hpreset
  have hconfig : ∀ {k : Credential}, k.Sound c → (configPassword h.config k).Sound c := by
    intro k hk
    unfold configPassword
    split
    · exact Credential.sound_of_other rfl
    · exact hk
  have hpersonal : ∀ {k : Credential}, k.Sound c →
      (tryGetPasswordFromPersonalAb h.id i k).Sound c := by
    intro k hk
    unfold tryGetPasswordFromPersonalAb
    split
    · simp only
      split
      · split
        · exact Credential.sound_of_other rfl
        · exact hk
      · exact hk
    · exact hk
  unfold choose defaultPassword
  split
  · exact c.sound_shared _ _
  · exact hpersonal (hconfig hshared)

theorem Client.sound_logIn (i : HashInput) (hk : h.toCredential.Sound c) :
    (c.logIn i h).1.toCredential.Sound c := by
  have hchoose := c.sound_choose i hk
  unfold logIn
  simp only
  split_ifs <;> exact hchoose

theorem Client.sound_handleHash (i : HashInput) (hk : h.toCredential.Sound c) :
    (c.handleHash i h).1.toCredential.Sound c := by
  unfold handleHash
  simp only
  split
  · split
    · -- the source is put back, the password stays
      intro p salt horigin
      exact ⟨(hk p salt horigin).1, .inr rfl⟩
    · exact c.sound_logIn i hk
  · exact c.sound_logIn i hk

theorem Handler.toCredential_setOption (key v : String) (loaded : PeerConfig) (h : Handler) :
    (h.setOption key v loaded).1.toCredential = h.toCredential := by
  unfold setOption
  split <;> rfl

theorem Handler.sound_handleLoginError (err : String) (loaded : PeerConfig)
    (hk : h.toCredential.Sound c) : (h.handleLoginError err loaded).1.toCredential.Sound c := by
  unfold handleLoginError
  split
  · exact Credential.sound_of_other rfl
  split
  · exact Credential.sound_of_other rfl
  split
  · simp only
    split
    · rw [toCredential_setOption]
      exact hk
    · exact hk
  · split <;> exact hk

theorem Client.sound_handleLoginFromUi (osUsername osPassword password : String) (remember : Bool)
    (hk : h.toCredential.Sound c) :
    (c.handleLoginFromUi osUsername osPassword password remember h).1.toCredential.Sound c := by
  unfold handleLoginFromUi
  simp only
  split_ifs
  · exact Credential.sound_of_other rfl
  · exact hk
  · exact hk
  · exact Credential.sound_of_other rfl

theorem Client.toCredential_handlePeerInfo (pi : PeerInfo) (loaded : PeerConfig) (h : Handler) :
    (c.handlePeerInfo pi loaded h).1.toCredential = h.toCredential := by
  have hversion : (h.noteVersion pi).toCredential = h.toCredential := by
    unfold Handler.noteVersion
    split <;> rfl
  exact hversion

theorem sound_call (hk : h.toCredential.Sound c) (e : Event c) :
    (call h e).toCredential.Sound c := by
  cases e with
  | initialized i connToken =>
    cases connToken with
    | none => exact hk
    | some issued => exact issued.sound
  | handleHash i => exact c.sound_handleHash i hk
  | handleLoginError err loaded => exact h.sound_handleLoginError err loaded hk
  | handleLoginFromUi osUsername osPassword password remember =>
    exact c.sound_handleLoginFromUi osUsername osPassword password remember hk
  | handlePeerInfo pi loaded =>
    rw [call, c.toCredential_handlePeerInfo]
    exact hk

/-- A token of `get_conn_token`, after any run, is one that `initialize` may be given. -/
theorem exists_issued (events : List (Event c)) {token : ConnToken}
    (h : (Run.exec call .default events).getConnToken = some token) :
    ∃ issued : Issued c, issued.token = token := by
  have hsound : (Run.exec call Handler.default events).toCredential.Sound c :=
    (Run.always_of_step (P := fun h : Handler => h.toCredential.Sound c)
      (fun _ e hk => sound_call hk e) (Credential.sound_of_other rfl) events).last
  unfold Handler.getConnToken at h
  split at h
  · cases h
  · cases h
    exact ⟨⟨_, hsound⟩, rfl⟩

theorem Client.exists_handlePeerInfo (pi : PeerInfo) (loaded : PeerConfig) (h : Handler) :
    ∃ config : PeerConfig, config.password = c.rememberedPassword h loaded.password ∧
      (c.handlePeerInfo pi loaded h).2 =
        (if c.flutter = true ∧ c.rememberedPassword h loaded.password ≠ [] ∧
            ¬h.passwordSource.isSharedAb c h.password h.hash ∧
            ¬h.passwordSource.isPersonalAb h.password then
          [.syncToPersonalAb h.id (c.rememberedPassword h loaded.password)]
        else []) ++ [.store h.id config] := by
  have hversion : ∃ n : Int, h.noteVersion pi = { h with version := n } := by
    unfold Handler.noteVersion
    split
    · exact ⟨_, rfl⟩
    · exact ⟨h.version, rfl⟩
  obtain ⟨n, hn⟩ := hversion
  unfold handlePeerInfo
  rw [hn]
  exact ⟨_, rfl, rfl⟩

theorem isSharedAb_iff (hinj : Function.Injective c.sha256) (hne : ∀ v, c.sha256 v ≠ [])
    {p salt : String} (hk : h.toCredential.Sound c) (horigin : h.origin = .shared p salt) :
    h.passwordSource.isSharedAb c h.password h.hash = true ↔
      h.passwordSource = .sharedAb p ∧ h.hash.salt = salt := by
  obtain ⟨hpassword, hsource⟩ := hk p salt horigin
  have hfull : h.password ≠ [] := by
    rw [hpassword]
    exact hne _
  rcases hsource with hsource | hsource
  · rw [hsource]
    have hequal : PasswordSource.isSharedAb c (.sharedAb p) h.password h.hash = true ↔
        h.password = c.sha256 (asBytes p ++ asBytes h.hash.salt) := by
      simp only [PasswordSource.isSharedAb, PasswordSource.equal, if_neg hfull, decide_eq_true_eq]
    rw [hequal, hpassword]
    constructor
    · intro heq
      exact ⟨rfl, (asBytes_injective (append_cancel_left (hinj heq))).symm⟩
    · rintro ⟨-, rfl⟩
      rfl
  · rw [hsource]
    simp [PasswordSource.isSharedAb]

theorem Client.stored_iff {pi : PeerInfo} {loaded : PeerConfig} {P : Bytes → Prop} :
    (∀ id config, .store id config ∈ (c.handlePeerInfo pi loaded h).2 → P config.password) ↔
      P (c.rememberedPassword h loaded.password) := by
  obtain ⟨config, hconfig, hout⟩ := c.exists_handlePeerInfo pi loaded h
  rw [hout, ← hconfig]
  constructor
  · intro hall
    exact hall h.id config (mem_append_right _ (mem_singleton_self _))
  · intro hP id config' hmem
    rcases mem_append.mp hmem with hmem | hmem
    · split at hmem
      · exact Out.noConfusion (mem_singleton.mp hmem)
      · cases hmem
    · obtain ⟨rfl, rfl⟩ := Out.store.inj (mem_singleton.mp hmem)
      exact hP

theorem Client.synced_iff {pi : PeerInfo} {loaded : PeerConfig} {v : Bytes} :
    (∃ id, .syncToPersonalAb id v ∈ (c.handlePeerInfo pi loaded h).2) ↔
      c.flutter = true ∧ c.rememberedPassword h loaded.password ≠ [] ∧
        ¬h.passwordSource.isSharedAb c h.password h.hash ∧
        ¬h.passwordSource.isPersonalAb h.password ∧
        v = c.rememberedPassword h loaded.password := by
  obtain ⟨config, hconfig, hout⟩ := c.exists_handlePeerInfo pi loaded h
  rw [hout]
  constructor
  · rintro ⟨id, hmem⟩
    rcases mem_append.mp hmem with hmem | hmem
    · split at hmem
      case isTrue hcond =>
        obtain ⟨-, heq⟩ := Out.syncToPersonalAb.inj (mem_singleton.mp hmem)
        exact ⟨hcond.1, hcond.2.1, hcond.2.2.1, hcond.2.2.2, heq⟩
      case isFalse => cases hmem
    · exact Out.noConfusion (mem_singleton.mp hmem)
  · rintro ⟨hflutter, hfull, hshared, hpersonal, rfl⟩
    rw [if_pos ⟨hflutter, hfull, hshared, hpersonal⟩]
    exact ⟨h.id, mem_cons_self⟩

theorem notKept_iff (hinj : Function.Injective c.sha256) (hne : ∀ v, c.sha256 v ≠ [])
    (hk : h.toCredential.Sound c) (e : Event c) : NotKept h e ↔ Recognised h e := by
  cases e with
  | initialized i connToken => exact Iff.rfl
  | handleHash i => exact Iff.rfl
  | handleLoginError err loaded => exact Iff.rfl
  | handleLoginFromUi osUsername osPassword password remember => exact Iff.rfl
  | handlePeerInfo pi loaded =>
    refine forall₂_congr fun p salt => forall_congr' fun horigin => ?_
    obtain ⟨hpassword, hsource⟩ := hk p salt horigin
    have hfull : h.password ≠ [] := by
      rw [hpassword]
      exact hne _
    have hpersonal : h.passwordSource.isPersonalAb h.password = false := by
      rcases hsource with hsource | hsource
      · rw [hsource]
        simp [PasswordSource.isPersonalAb]
      · rw [hsource]
        simp [PasswordSource.isPersonalAb]
    rw [c.stored_iff (P := fun v => v = h.password → loaded.password = h.password),
      ← not_exists, c.synced_iff, hpersonal, ← isSharedAb_iff hinj hne hk horigin,
      Client.rememberedPassword, hpersonal]
    cases hremember : h.remember with
    | false =>
      -- the configuration is left without a password
      simp [hfull.symm]
    | true =>
      by_cases hshared : h.passwordSource.isSharedAb c h.password h.hash = true
      · simp [hshared]
      · by_cases hnew : h.password = loaded.password
        · rw [← hnew]
          simp [hshared, hfull]
        · simp [hshared, hfull, hnew]
          exact and_comm

/-- **A run keeps no shared password** exactly if each one that the peer lets in is recognised. -/
theorem shared_never_kept_iff (c : Client) (hinj : Function.Injective c.sha256)
    (hne : ∀ v, c.sha256 v ≠ []) (events : List (Event c)) :
    Run.Along call NotKept .default events ↔ Run.Along call Recognised .default events := by
  have hdefault : Handler.default.toCredential.Sound c := Credential.sound_of_other rfl
  constructor
  · exact Run.Along.of_invariant (P := fun h => h.toCredential.Sound c)
      (fun h e hk _ => sound_call hk e) (fun h e hk => (notKept_iff hinj hne hk e).mp) hdefault
  · exact Run.Along.of_invariant (P := fun h => h.toCredential.Sound c)
      (fun h e hk _ => sound_call hk e) (fun h e hk => (notKept_iff hinj hne hk e).mpr) hdefault

/-- SHA-256 of `sa`. -/
def digestSa : Bytes :=
  [76, 246, 130, 154, 169, 55, 40, 232, 243, 201, 125, 249, 19, 251, 27, 250, 149, 254, 88, 16,
    226, 147, 58, 5, 148, 63, 131, 18, 169, 141, 156, 242]

/-- SHA-256 of `sb`. -/
def digestSb : Bytes :=
  [184, 49, 179, 62, 12, 5, 180, 94, 21, 187, 221, 155, 59, 250, 67, 130, 95, 238, 10, 160, 182,
    229, 165, 78, 49, 226, 189, 139, 7, 59, 118, 183]

def sampleSha256 (v : Bytes) : Bytes :=
  if v = [115, 97] then digestSa
  else if v = [115, 98] then digestSb
  else List.replicate 33 0 ++ v

def sampleClient : Client := ⟨true, false, sampleSha256, fun _ => none⟩

def sampleConfig : PeerConfig := ⟨[1], [], ⟨"", "", ""⟩, ""⟩

/-- A connection with the shared password `s`. -/
def sampleStart : Start :=
  ⟨"1", .defaultConn, none, false, none, some "s", sampleConfig, 1, false⟩

def sampleHash (salt : String) : HashInput := ⟨"", ⟨salt, "x"⟩, false, "", ⟨"", []⟩, ""⟩

def sampleInfo : PeerInfo := ⟨⟨"", "", ""⟩, "1.4.0"⟩

theorem sampleSha256_ne_nil (v : Bytes) : sampleSha256 v ≠ [] := by
  unfold sampleSha256
  split_ifs <;> simp [digestSa, digestSb]

theorem sampleSha256_injective : Function.Injective sampleSha256 := by
  have hlong : ∀ {d : Bytes} (w : Bytes), d.length = 32 → d ≠ List.replicate 33 0 ++ w := by
    rintro _ w hd rfl
    rw [length_append, length_replicate] at hd
    omega
  intro v w heq
  unfold sampleSha256 at heq
  split_ifs at heq with h1 h2 h3 h4 h5 h6 h7 h8
  · rw [h1, h2]
  · cases heq
  · exact absurd heq (hlong w rfl)
  · cases heq
  · rw [h4, h6]
  · exact absurd heq (hlong w rfl)
  · exact absurd heq.symm (hlong v rfl)
  · exact absurd heq.symm (hlong v rfl)
  · exact append_cancel_left heq

/-- One connection with a shared password leaves nothing behind. -/
theorem one_connection_keeps_nothing : Run.Along call NotKept .default
    [.initialized (c := sampleClient) sampleStart none, .handleHash (sampleHash "a"),
      .handlePeerInfo sampleInfo sampleConfig] := by
  refine (shared_never_kept_iff sampleClient sampleSha256_injective sampleSha256_ne_nil _).mpr
    ⟨trivial, trivial, fun p salt horigin => ?_, trivial⟩
  have hsound : Origin.shared "s" "a" = .shared p salt := horigin
  cases hsound
  exact .inr (.inl ⟨rfl, rfl⟩)

/-- After a second hash with another salt, the shared password is in the configuration. -/
theorem second_connection_keeps_password : ¬Run.Along call NotKept .default
    [.initialized (c := sampleClient) sampleStart none, .handleHash (sampleHash "a"),
      .handlePeerInfo sampleInfo sampleConfig, .handleHash (sampleHash "b"),
      .handlePeerInfo sampleInfo sampleConfig] := by
  rintro ⟨-, -, -, -, hlast, -⟩
  obtain ⟨hstored, -⟩ := hlast "s" "a" rfl
  have hkept := hstored "1" ⟨digestSa, [], ⟨"", "", ""⟩, "map"⟩ (by decide +kernel) rfl
  cases hkept

end RustDesk.LoginConfig
