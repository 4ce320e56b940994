import RustDesk.Config.PermanentPassword

/-!
# The permanent password over time

`Config` keeps the permanent password and its salt in memory and in a file.  This file
models the operations that touch them (setting the password, the sync from the service,
setting and drawing the salt, storing and loading) and follows them through whole runs.

The pair is kept in step by one invariant (`Consistent`): what is in memory is either
no ciphertext at all, or the hash of a password whose salt is not empty and which the
file holds as well.  From it follows that after a password was set, and until it is
set again, cleared or synchronised, nothing but this password opens the machine.

Storing is taken to succeed.  The identifier that `load` and `store` handle beside the
password only decides whether loading stores again.
-/

namespace RustDesk

/-- The password storage and its salt, as `Config` has them. -/
structure PasswordPair where
  password : String
  salt : String
  deriving DecidableEq

/-- `CONFIG` in memory, and the file it is stored in. -/
structure PasswordState where
  mem : PasswordPair
  file : PasswordPair

/-- A salt that `get_auto_password` drew. -/
abbrev Salt := { s : String // s ≠ "" }

/-- What does not change while the program runs: the machine, its hash function, and the
preset password with its salt. -/
structure PasswordSetting where
  machine : Machine
  platform : Platform
  preset : String × String

namespace Machine

variable (m : Machine)

def validateOrDecryptPermanentPasswordStorage (config : PasswordPair) : PasswordPair × Bool :=
  if config.password = "" then (config, true)
  else if startsWithVersion passwordEncVersion config.password then
    match m.decryptStrOrOriginal config.password with
    | (plain, true, _) => ({ config with password := plain }, true)
    | (_, false, shouldStore) => (config, shouldStore)
  else
    match m.decryptPermanentPasswordStrOrOriginal config.password with
    | (storage, true, _) =>
      (config, config.salt ≠ "" && (decodePasswordH1AfterPrefix storage).isSome)
    | (_, false, _) => (config, true)

def prepareConfigForStore (config : PasswordPair) : PasswordPair :=
  match m.validateOrDecryptPermanentPasswordStorage config with
  | (config, true) => config
  | (_, false) => ⟨"", ""⟩

def keepEncryptedStorageIfPlaintextUnchanged (nonce : Nonce) (plain stored : String) : String :=
  match m.decryptStrOrOriginal stored with
  | (storedPlain, true, _) =>
    if storedPlain = plain then stored else m.encryptStrOrOriginal nonce plain encryptMaxLen
  | (_, false, _) => m.encryptStrOrOriginal nonce plain encryptMaxLen

/-- The password and the salt that `store` writes. -/
def storedPair (nonce : Nonce) (config stored : PasswordPair) : PasswordPair :=
  let config := m.prepareConfigForStore config
  if config.password ≠ "" ∧ m.decodePermanentPasswordH1FromStorage config.password = none then
    { config with
      password := m.keepEncryptedStorageIfPlaintextUnchanged nonce config.password stored.password }
  else config

def passwordIsEmptyOrNotHashed (storage : String) : Bool :=
  if storage = "" then true
  else if (m.decodePermanentPasswordH1FromStorage storage).isSome then false
  else if startsWithVersion permanentPasswordEncVersion storage then false
  else
    let (_, decrypted, looksLikePlaintext) := m.decryptStrOrOriginal storage
    decrypted || looksLikePlaintext

end Machine

def computePermanentPasswordH1 (p : Platform) (password salt : String) : Bytes :=
  p.sha256 (asBytes password ++ asBytes salt)

def presetPermanentPasswordStorageMatchesPlain (p : Platform) (storage salt input : String) :
    Bool :=
  if storage = "" || input = "" then false
  else if salt = "" then storage = input
  else
    match decodePasswordH1AfterPrefix storage with
    | some storedH1 => computePermanentPasswordH1 p input salt = storedH1
    | none => false

namespace PasswordState

variable (w : PasswordSetting) (s : PasswordState)

def store (nonce : Nonce) : PasswordState :=
  { s with file := w.machine.storedPair nonce s.mem s.file }

/-- `Config::load`; the configuration is stored again if its identifier has to be. -/
def load (storeId : Bool) (nonce : Nonce) : PasswordState :=
  let s := { s with mem := (w.machine.validateOrDecryptPermanentPasswordStorage s.file).1 }
  if storeId then s.store w nonce else s

def ensurePermanentPasswordSalt (drawn : Salt) : PasswordState :=
  if s.mem.salt = "" then { s with mem := { s.mem with salt := drawn.1 } } else s

/-- `compute_permanent_password_storage_for_update`, after the salt is ensured. -/
def permanentPasswordStorage (password : String) (nonce : Nonce) : Option String :=
  w.machine.encodePermanentPasswordEncryptedStorageFromH1 nonce
    (computePermanentPasswordH1 w.platform password s.mem.salt)

/-- The end of `set_permanent_password`, with the storage that it computed. -/
def setStorage (nonce : Nonce) : Option String → Bool × PasswordState
  | none => (false, s)
  | some stored =>
    if stored = s.mem.password then (true, s)
    else (true, store w { s with mem := { s.mem with password := stored } } nonce)

def setPermanentPassword (password : String) (disabled : Bool) (drawn : Salt)
    (nonce storeNonce : Nonce) : Bool × PasswordState :=
  if disabled then (false, s)
  else if presetPermanentPasswordStorageMatchesPlain w.platform w.preset.1 w.preset.2 password
      ∧ s.mem.password = "" then (true, s)
  else if password = "" then s.setStorage w storeNonce (some "")
  else
    let s := s.ensurePermanentPasswordSalt drawn
    s.setStorage w storeNonce (s.permanentPasswordStorage w password nonce)

def applyPermanentPasswordStorageForSync (storage salt : String) :
    Except String (Option PasswordPair) :=
  if storage = "" then
    if s.mem.password = "" ∧ (salt = "" ∨ s.mem.salt = salt) then .ok none
    else .ok (some ⟨"", if salt ≠ "" then salt else s.mem.salt⟩)
  else if salt = "" then
    .error "Refusing to persist permanent password storage without salt"
  else if w.machine.decodePermanentPasswordH1FromStorage storage = none then
    .error "Invalid permanent password storage sync payload"
  else if s.mem = ⟨storage, salt⟩ then .ok none
  else .ok (some ⟨storage, salt⟩)

def setPermanentPasswordStorageForSync (storage salt : String) (nonce : Nonce) :
    Except String Bool × PasswordState :=
  match s.applyPermanentPasswordStorageForSync w storage salt with
  | .error err => (.error err, s)
  | .ok none => (.ok false, s)
  | .ok (some config) => (.ok true, store w { s with mem := config } nonce)

def setSalt (salt : String) (nonce : Nonce) : PasswordState :=
  if salt = s.mem.salt then s
  else if !w.machine.passwordIsEmptyOrNotHashed s.mem.password && s.mem.salt ≠ "" then s
  else store w { s with mem := { s.mem with salt := salt } } nonce

def getSalt (drawn : Salt) (nonce : Nonce) : String × PasswordState :=
  if s.mem.salt = "" then (drawn.1, s.setSalt w drawn.1 nonce) else (s.mem.salt, s)

def getEffectivePermanentPasswordSalt (drawn : Salt) (nonce : Nonce) : String × PasswordState :=
  if s.mem.password ≠ "" then
    if w.machine.localPermanentPasswordStorageIsUsableForAuth s.mem.password s.mem.salt then
      s.getSalt w drawn nonce
    else ("", s)
  else if w.preset.2 ≠ "" then
    if presetPermanentPasswordStorageIsUsableForAuth w.preset.1 w.preset.2 then (w.preset.2, s)
    else ("", s)
  else s.getSalt w drawn nonce

end PasswordState

inductive PasswordStep where
  | setPermanentPassword (password : String) (disabled : Bool) (drawn : Salt)
      (nonce storeNonce : Nonce)
  | sync (storage salt : String) (nonce : Nonce)
  | setSalt (salt : String) (nonce : Nonce)
  | getSalt (drawn : Salt) (nonce : Nonce)
  | store (nonce : Nonce)
  | load (storeId : Bool) (nonce : Nonce)

def PasswordState.step (w : PasswordSetting) (s : PasswordState) : PasswordStep → PasswordState
  | .setPermanentPassword password disabled drawn nonce storeNonce =>
    (s.setPermanentPassword w password disabled drawn nonce storeNonce).2
  | .sync storage salt nonce => (s.setPermanentPasswordStorageForSync w storage salt nonce).2
  | .setSalt salt nonce => s.setSalt w salt nonce
  | .getSalt drawn nonce => (s.getSalt w drawn nonce).2
  | .store nonce => s.store w nonce
  | .load storeId nonce => s.load w storeId nonce

namespace Machine

variable {m : Machine} {nonce : Nonce} {t u salt : String} {c f : PasswordPair} {h1 : Bytes}

/-- Neither way of decrypting takes it for encrypted. -/
def Plain (m : Machine) (t : String) : Prop :=
  (m.decryptStrOrOriginal t).2.1 = false ∧ (m.decryptPermanentPasswordStrOrOriginal t).2.1 = false

/-- The text is a `00` ciphertext of the second. -/
def Encloses (m : Machine) (t u : String) : Prop := m.decryptStrOrOriginal t = (u, true, false)

def Hashed (m : Machine) (c : PasswordPair) : Prop :=
  (m.decodePermanentPasswordH1FromStorage c.password).isSome ∧ c.salt ≠ ""

/-- What earlier versions stored: the password itself, or encrypted. -/
def Legacy (m : Machine) (t : String) : Prop :=
  m.Plain t ∨ ∃ u, m.Plain u ∧ m.Encloses t u

theorem plain_empty : m.Plain "" := ⟨rfl, rfl⟩

theorem Encloses.version (h : m.Encloses t u) :
    t ≠ "" ∧ startsWithVersion passwordEncVersion t = true := by
  unfold Encloses decryptStrOrOriginal at h
  split at h
  · rename_i v hv
    obtain ⟨cs, hcs, -⟩ := Option.bind_eq_some_iff.mp hv
    unfold afterVersion at hcs
    split at hcs
    · rename_i a b c cs' hlist
      split_ifs at hcs with hversion
      refine ⟨?_, ?_⟩
      · rintro rfl
        cases hlist
      · rw [startsWithVersion, hlist]
        simpa using hversion
    · cases hcs
  · cases h

theorem hash_parts (h : (m.decodePermanentPasswordH1FromStorage t).isSome) :
    startsWithVersion permanentPasswordEncVersion t = true ∧
      ∃ u b, m.decryptPermanentPasswordStrOrOriginal t = (u, true, b) ∧
        (decodePasswordH1AfterPrefix u).isSome := by
  unfold decodePermanentPasswordH1FromStorage at h
  split_ifs at h with hversion
  · refine ⟨hversion, ?_⟩
    split at h
    · rename_i u b hdecrypt
      exact ⟨u, b, hdecrypt, h⟩
    · cases h
  · cases h

theorem version_of_hash (h : startsWithVersion permanentPasswordEncVersion t = true) :
    t ≠ "" ∧ startsWithVersion passwordEncVersion t = false := by
  unfold startsWithVersion at h ⊢
  split at h
  · rename_i a b cs hlist
    obtain ⟨rfl, rfl⟩ : a = '0' ∧ b = '1' := by simpa [permanentPasswordEncVersion] using h
    refine ⟨?_, by decide⟩
    rintro rfl
    cases hlist
  · cases h

theorem Plain.decode (h : m.Plain t) : m.decodePermanentPasswordH1FromStorage t = none := by
  by_contra hne
  obtain ⟨-, u, b, hdecrypt, -⟩ := hash_parts (Option.isSome_iff_ne_none.mpr hne)
  have hplain := h.2
  rw [hdecrypt] at hplain
  cases hplain

theorem Hashed.validate (h : m.Hashed c) :
    m.validateOrDecryptPermanentPasswordStorage c = (c, true) := by
  obtain ⟨hversion, u, b, hdecrypt, hinner⟩ := hash_parts h.1
  obtain ⟨hne, hother⟩ := version_of_hash hversion
  rw [validateOrDecryptPermanentPasswordStorage, if_neg hne, hother, hdecrypt]
  simp [h.2, hinner]

theorem Plain.validate (h : m.Plain c.password) :
    (m.validateOrDecryptPermanentPasswordStorage c).1 = c := by
  obtain ⟨h₁, h₂⟩ := h
  unfold validateOrDecryptPermanentPasswordStorage
  split_ifs
  · rfl
  · rcases hr : m.decryptStrOrOriginal c.password with ⟨u, d, b⟩
    rw [hr] at h₁
    cases h₁
    rfl
  · rcases hr : m.decryptPermanentPasswordStrOrOriginal c.password with ⟨u, d, b⟩
    rw [hr] at h₂
    cases h₂
    rfl

theorem Encloses.validate (h : m.Encloses c.password u) :
    m.validateOrDecryptPermanentPasswordStorage c = ({ c with password := u }, true) := by
  obtain ⟨hne, hversion⟩ := h.version
  rw [validateOrDecryptPermanentPasswordStorage, if_neg hne, if_pos hversion, h]

theorem Hashed.storedPair (h : m.Hashed c) : m.storedPair nonce c f = c := by
  have hprepare : m.prepareConfigForStore c = c := by rw [prepareConfigForStore, h.validate]
  rw [Machine.storedPair, hprepare, if_neg]
  rintro ⟨-, hnone⟩
  rw [Hashed, hnone] at h
  cases h.1

theorem storedPair_empty (h : c.password = "") : m.storedPair nonce c f = c := by
  have hprepare : m.prepareConfigForStore c = c := by
    rw [prepareConfigForStore, validateOrDecryptPermanentPasswordStorage, if_pos h]
  rw [Machine.storedPair, hprepare, if_neg]
  rintro ⟨hne, -⟩
  exact hne h

theorem Plain.encryptStrOrOriginal (h : m.Plain t) (maxLen : Nat) :
    m.Legacy (m.encryptStrOrOriginal nonce t maxLen) := by
  by_cases hne : t = ""
  · subst hne
    exact .inl (by rw [Machine.encryptStrOrOriginal]; split_ifs <;> exact plain_empty)
  · by_cases hnew : isEncrypted t = true
    · rw [Machine.encryptStrOrOriginal, if_pos hnew]
      exact .inl h
    · by_cases hlong : maxLen < t.length
      · rw [Machine.encryptStrOrOriginal, if_neg hnew, if_pos hlong]
        exact .inl plain_empty
      · refine .inr ⟨t, h, ?_⟩
        rw [encryptStrOrOriginal_eq (by simpa using hnew) (by omega) hne, Encloses,
          decryptStrOrOriginal_payload symmetricEncrypt_ne_nil,
          symmetricDecrypt_symmetricEncrypt]
        simp only [fromUtf8Lossy_asBytes]

theorem Plain.storedPair (h : m.Plain c.password) : m.Legacy (m.storedPair nonce c f).password := by
  have hprepare : m.Plain (m.prepareConfigForStore c).password := by
    have hvalidate := h.validate
    unfold prepareConfigForStore
    rcases hr : m.validateOrDecryptPermanentPasswordStorage c with ⟨c', valid⟩
    rw [hr] at hvalidate
    cases valid with
    | true =>
      obtain rfl : c' = c := hvalidate
      exact h
    | false => exact plain_empty
  rw [Machine.storedPair]
  split_ifs
  · rw [keepEncryptedStorageIfPlaintextUnchanged]
    rcases hr : m.decryptStrOrOriginal f.password with ⟨u, _ | _, b⟩
    · exact hprepare.encryptStrOrOriginal encryptMaxLen
    · simp only
      split_ifs with heq
      · refine .inr ⟨_, hprepare, ?_⟩
        have hb : b = false := by
          unfold decryptStrOrOriginal at hr
          split at hr <;> cases hr
          rfl
        rw [Encloses, hr, heq, hb]
      · exact hprepare.encryptStrOrOriginal encryptMaxLen
  · exact .inl hprepare

theorem decodePermanentPasswordH1FromStorage_encode {stored : String}
    (hlength : h1.length = permanentPasswordH1Len)
    (h : m.encodePermanentPasswordEncryptedStorageFromH1 nonce h1 = some stored) :
    m.decodePermanentPasswordH1FromStorage stored = some h1 := by
  rw [encodePermanentPasswordEncryptedStorageFromH1_eq hlength] at h
  cases h
  rw [decodePermanentPasswordH1FromStorage, startsWithVersion_ofList,
    decryptPermanentPasswordStrOrOriginal_payload symmetricEncrypt_ne_nil,
    symmetricDecrypt_symmetricEncrypt]
  simp only [fromUtf8Lossy_asBytes]
  exact decodePasswordH1AfterPrefix_encode hlength

end Machine

namespace PasswordState

open Run Machine

variable {w : PasswordSetting} {s : PasswordState} {nonce : Nonce} {drawn : Salt}

def Blank (w : PasswordSetting) (t : String) : Prop := t = "" ∨ w.machine.Encloses t ""

/-- Memory holds no ciphertext, or the hash of a password that the file holds as well; and
where memory holds nothing, nothing is loaded. -/
structure Consistent (w : PasswordSetting) (s : PasswordState) : Prop where
  mem : w.machine.Plain s.mem.password ∨ w.machine.Hashed s.mem ∧ s.file = s.mem
  file : w.machine.Legacy s.file.password ∨ w.machine.Hashed s.file
  blank : s.mem.password = "" → Blank w s.file.password

theorem store_empty (h : s.mem.password = "") : (s.store w nonce).file.password = "" := by
  rw [store, storedPair_empty h]
  exact h

theorem store_consistent (h : w.machine.Plain s.mem.password ∨ w.machine.Hashed s.mem) :
    Consistent w (s.store w nonce) := by
  have hblank : s.mem.password = "" → Blank w (s.store w nonce).file.password :=
    fun hempty => .inl (store_empty hempty)
  rcases h with h | h
  · exact ⟨.inl h, .inl h.storedPair, hblank⟩
  · have hfile : (s.store w nonce).file = s.mem := h.storedPair
    exact ⟨.inr ⟨h, hfile⟩, .inr (hfile ▸ h), hblank⟩

theorem Consistent.storable (h : Consistent w s) :
    w.machine.Plain s.mem.password ∨ w.machine.Hashed s.mem :=
  h.mem.imp_right And.left

theorem load_consistent (h : w.machine.Legacy s.file.password ∨ w.machine.Hashed s.file)
    (storeId : Bool) (nonce : Nonce) : Consistent w (s.load w storeId nonce) := by
  have hmem : Consistent w
      { s with mem := (w.machine.validateOrDecryptPermanentPasswordStorage s.file).1 } := by
    rcases h with (h | ⟨u, hu, h⟩) | h
    · rw [h.validate]
      exact ⟨.inl h, .inl (.inl h), .inl⟩
    · rw [h.validate]
      refine ⟨.inl hu, .inl (.inr ⟨u, hu, h⟩), fun hempty => .inr ?_⟩
      obtain rfl : u = "" := hempty
      exact h
    · rw [h.validate]
      exact ⟨.inr ⟨h, rfl⟩, .inr h, .inl⟩
  unfold load
  split_ifs
  · exact store_consistent hmem.storable
  · exact hmem

theorem Consistent.setSalt (h : Consistent w s) (salt : String) :
    Consistent w (s.setSalt w salt nonce) := by
  unfold PasswordState.setSalt
  split_ifs with hsame hrefused
  · exact h
  · exact h
  · rcases h.mem with hplain | ⟨hhash, -⟩
    · exact store_consistent (.inl hplain)
    · have hnot : w.machine.passwordIsEmptyOrNotHashed s.mem.password = false := by
        have hne := (version_of_hash (hash_parts hhash.1).1).1
        rw [passwordIsEmptyOrNotHashed, if_neg hne, if_pos hhash.1]
      exact absurd (by simp [hnot, hhash.2]) hrefused

theorem Consistent.getSalt (h : Consistent w s) : Consistent w (s.getSalt w drawn nonce).2 := by
  unfold PasswordState.getSalt
  split_ifs
  · exact h.setSalt drawn.1
  · exact h

theorem Consistent.ensurePermanentPasswordSalt (h : Consistent w s) :
    Consistent w (s.ensurePermanentPasswordSalt drawn) := by
  unfold PasswordState.ensurePermanentPasswordSalt
  split_ifs with hempty
  · refine ⟨.inl ?_, h.file, h.blank⟩
    rcases h.mem with hplain | ⟨hhash, -⟩
    · exact hplain
    · exact absurd hempty hhash.2
  · exact h

theorem Consistent.setStorage (h : Consistent w s) {stored : Option String}
    (hstored : ∀ t ∈ stored, t = "" ∨ w.machine.Hashed ⟨t, s.mem.salt⟩) :
    Consistent w (s.setStorage w nonce stored).2 := by
  cases stored with
  | none => exact h
  | some t =>
    simp only [PasswordState.setStorage]
    split_ifs
    · exact h
    · refine store_consistent ?_
      rcases hstored t rfl with rfl | hhash
      · exact .inl plain_empty
      · exact .inr hhash

theorem permanentPasswordStorage_decode (hlength : ∀ v, (w.platform.sha256 v).length = 32)
    {password stored : String} (h : s.permanentPasswordStorage w password nonce = some stored) :
    w.machine.decodePermanentPasswordH1FromStorage stored
      = some (computePermanentPasswordH1 w.platform password s.mem.salt) :=
  decodePermanentPasswordH1FromStorage_encode (hlength _) h

theorem ensurePermanentPasswordSalt_salt : (s.ensurePermanentPasswordSalt drawn).mem.salt ≠ "" := by
  unfold ensurePermanentPasswordSalt
  split_ifs with hempty
  · exact drawn.2
  · exact hempty

theorem Consistent.step (hlength : ∀ v, (w.platform.sha256 v).length = 32) (h : Consistent w s)
    (i : PasswordStep) : Consistent w (s.step w i) := by
  cases i with
  | setPermanentPassword password disabled drawn nonce storeNonce =>
    simp only [PasswordState.step, setPermanentPassword]
    split_ifs
    · exact h
    · exact h
    · refine h.setStorage fun t ht => .inl ?_
      simpa using ht.symm
    · refine h.ensurePermanentPasswordSalt.setStorage fun t ht => .inr ⟨?_, ?_⟩
      · rw [permanentPasswordStorage_decode hlength ht]
        rfl
      · exact ensurePermanentPasswordSalt_salt
  | sync storage salt nonce =>
    simp only [PasswordState.step, setPermanentPasswordStorageForSync]
    split
    · exact h
    · exact h
    · rename_i config hconfig
      refine store_consistent ?_
      unfold applyPermanentPasswordStorageForSync at hconfig
      split_ifs at hconfig with _ _ _ hsalt hdecode _ <;> cases hconfig
      · exact .inl plain_empty
      · exact .inl plain_empty
      · exact .inr ⟨Option.isSome_iff_ne_none.mpr hdecode, hsalt⟩
  | setSalt salt nonce => exact h.setSalt salt
  | getSalt drawn nonce => exact h.getSalt
  | store nonce => exact store_consistent h.storable
  | load storeId nonce => exact load_consistent h.file storeId nonce

/-- The password is the one that opens the machine: its hash is stored for this salt, or
nothing is stored and it is the preset password. -/
inductive Holds (w : PasswordSetting) (password : String) (c : PasswordPair) :
    PasswordState → Prop
  | hash (salted : c.salt ≠ "")
      (decoded : w.machine.decodePermanentPasswordH1FromStorage c.password
        = some (computePermanentPasswordH1 w.platform password c.salt)) :
      Holds w password c ⟨c, c⟩
  | preset {s : PasswordState} (empty : s.mem.password = "") (blank : Blank w s.file.password)
      (matched : presetPermanentPasswordStorageMatchesPlain w.platform w.preset.1 w.preset.2
        password = true) :
      Holds w password c s

variable {password : String} {c : PasswordPair}

theorem hashed_of_decode (salted : c.salt ≠ "") {h1 : Bytes}
    (decoded : w.machine.decodePermanentPasswordH1FromStorage c.password = some h1) :
    w.machine.Hashed c :=
  ⟨by rw [decoded]; rfl, salted⟩

variable {storeNonce : Nonce}

variable {disabled : Bool}

theorem setPermanentPassword_holds (hlength : ∀ v, (w.platform.sha256 v).length = 32)
    (h : Consistent w s) (hne : password ≠ "")
    (hset : (s.setPermanentPassword w password disabled drawn nonce storeNonce).1 = true) :
    Holds w password (s.setPermanentPassword w password disabled drawn nonce storeNonce).2.mem
      (s.setPermanentPassword w password disabled drawn nonce storeNonce).2 := by
  unfold setPermanentPassword at hset ⊢
  split_ifs at hset ⊢ with hdisabled hpreset
  · exact .preset hpreset.2 (h.blank hpreset.2) hpreset.1
  · have hensured : Consistent w (s.ensurePermanentPasswordSalt drawn) :=
      h.ensurePermanentPasswordSalt
    have hsalt : (s.ensurePermanentPasswordSalt drawn).mem.salt ≠ "" :=
      ensurePermanentPasswordSalt_salt
    simp only at hset ⊢
    generalize s.ensurePermanentPasswordSalt drawn = t at hset hensured hsalt ⊢
    cases hstored : t.permanentPasswordStorage w password nonce with
    | none =>
      rw [hstored] at hset
      cases hset
    | some stored =>
      have hdecode := permanentPasswordStorage_decode hlength hstored
      simp only [setStorage]
      split_ifs with hsame
      · rw [hsame] at hdecode
        rcases hensured.mem with hplain | ⟨-, hfile⟩
        · rw [hplain.decode] at hdecode
          cases hdecode
        · have ht : t = ⟨t.mem, t.mem⟩ := congrArg (PasswordState.mk t.mem) hfile
          rw [ht]
          exact .hash hsalt hdecode
      · have hhash : w.machine.Hashed ⟨stored, t.mem.salt⟩ := hashed_of_decode hsalt hdecode
        have hstate : store w { t with mem := { t.mem with password := stored } } storeNonce
            = ⟨⟨stored, t.mem.salt⟩, ⟨stored, t.mem.salt⟩⟩ := by
          rw [store, hhash.storedPair]
        rw [hstate]
        exact .hash hsalt hdecode

/-- The step sets no password: it is refused, or something else. -/
def Quiet (w : PasswordSetting) (s : PasswordState) : PasswordStep → Prop
  | .setPermanentPassword password disabled drawn nonce storeNonce =>
    (s.setPermanentPassword w password disabled drawn nonce storeNonce).1 = false
  | .sync .. => False
  | _ => True

theorem setPermanentPassword_fst (hlength : ∀ v, (w.platform.sha256 v).length = 32) :
    (s.setPermanentPassword w password false drawn nonce storeNonce).1 = true := by
  have hsome : ∀ (t : PasswordState) stored, (t.setStorage w storeNonce (some stored)).1 = true := by
    intro t stored
    simp only [setStorage]
    split_ifs <;> rfl
  rw [setPermanentPassword, if_neg Bool.false_ne_true]
  split_ifs
  · rfl
  · exact hsome s ""
  · simp only [permanentPasswordStorage, computePermanentPasswordH1]
    rw [encodePermanentPasswordEncryptedStorageFromH1_eq (hlength _)]
    exact hsome _ _

theorem setPermanentPassword_failed (hlength : ∀ v, (w.platform.sha256 v).length = 32)
    (h : (s.setPermanentPassword w password disabled drawn nonce storeNonce).1 = false) :
    (s.setPermanentPassword w password disabled drawn nonce storeNonce).2 = s := by
  cases disabled with
  | false =>
    rw [setPermanentPassword_fst hlength] at h
    cases h
  | true => rfl

theorem setSalt_hashed (h : w.machine.Hashed c) (salt : String) :
    (PasswordState.mk c c).setSalt w salt nonce = ⟨c, c⟩ := by
  have hne := (version_of_hash (hash_parts h.1).1).1
  have hnot : w.machine.passwordIsEmptyOrNotHashed c.password = false := by
    rw [passwordIsEmptyOrNotHashed, if_neg hne, if_pos h.1]
  unfold PasswordState.setSalt
  split_ifs with hsame hrefused
  · rfl
  · rfl
  · exact absurd (by simp [hnot, h.2]) hrefused

theorem setSalt_empty (hempty : s.mem.password = "") (hblank : Blank w s.file.password)
    (salt : String) (nonce : Nonce) :
    (s.setSalt w salt nonce).mem.password = "" ∧
      Blank w (s.setSalt w salt nonce).file.password := by
  unfold PasswordState.setSalt
  split_ifs
  · exact ⟨hempty, hblank⟩
  · exact ⟨hempty, hblank⟩
  · exact ⟨hempty, .inl (store_empty (s := ⟨⟨s.mem.password, salt⟩, s.file⟩) hempty)⟩

theorem getSalt_empty (hempty : s.mem.password = "") (hblank : Blank w s.file.password)
    (drawn : Salt) (nonce : Nonce) :
    (s.getSalt w drawn nonce).2.mem.password = "" ∧
      Blank w (s.getSalt w drawn nonce).2.file.password := by
  unfold PasswordState.getSalt
  split_ifs
  · exact setSalt_empty hempty hblank drawn.1 nonce
  · exact ⟨hempty, hblank⟩

theorem load_empty (hblank : Blank w s.file.password) (storeId : Bool) (nonce : Nonce) :
    (s.load w storeId nonce).mem.password = "" ∧
      Blank w (s.load w storeId nonce).file.password := by
  have hmem : (w.machine.validateOrDecryptPermanentPasswordStorage s.file).1.password = "" := by
    rcases hblank with hempty | hencloses
    · rw [validateOrDecryptPermanentPasswordStorage, if_pos hempty]
      exact hempty
    · rw [hencloses.validate]
  unfold load
  split_ifs
  · exact ⟨hmem, .inl (store_empty hmem)⟩
  · exact ⟨hmem, hblank⟩

theorem Holds.step (hlength : ∀ v, (w.platform.sha256 v).length = 32)
    (h : Holds w password c s) {i : PasswordStep} (hquiet : Quiet w s i) :
    Holds w password c (s.step w i) := by
  cases i with
  | setPermanentPassword other disabled drawn nonce storeNonce =>
    rw [PasswordState.step, setPermanentPassword_failed hlength hquiet]
    exact h
  | sync storage salt nonce => exact hquiet.elim
  | setSalt salt nonce =>
    cases h with
    | hash salted decoded =>
      rw [PasswordState.step, setSalt_hashed (hashed_of_decode salted decoded)]
      exact .hash salted decoded
    | preset empty blank matched =>
      have hstep := setSalt_empty empty blank salt nonce
      exact .preset hstep.1 hstep.2 matched
  | getSalt drawn nonce =>
    cases h with
    | hash salted decoded =>
      rw [PasswordState.step, PasswordState.getSalt, if_neg salted]
      exact .hash salted decoded
    | preset empty blank matched =>
      have hstep := getSalt_empty empty blank drawn nonce
      exact .preset hstep.1 hstep.2 matched
  | store nonce =>
    cases h with
    | hash salted decoded =>
      rw [PasswordState.step, store, (hashed_of_decode salted decoded).storedPair]
      exact .hash salted decoded
    | preset empty blank matched =>
      exact .preset empty (.inl (store_empty empty)) matched
  | load storeId nonce =>
    cases h with
    | hash salted decoded =>
      have hhash := hashed_of_decode salted decoded
      have hload : (PasswordState.mk c c).load w storeId nonce = ⟨c, c⟩ := by
        unfold load
        simp only [hhash.validate, store, hhash.storedPair, ite_self]
      rw [PasswordState.step, hload]
      exact .hash salted decoded
    | preset empty blank matched =>
      have hstep := load_empty blank storeId nonce
      exact .preset hstep.1 hstep.2 matched

theorem Holds.run (hlength : ∀ v, (w.platform.sha256 v).length = 32)
    (h : Holds w password c s) {is : List PasswordStep}
    (hquiet : Along (PasswordState.step w) (Quiet w) s is) :
    Holds w password c (exec (PasswordState.step w) s is) :=
  (always_of_along (P := Holds w password c) (fun _ _ h hquiet => h.step hlength hquiet) h
    hquiet).last

/-- SHA-256 takes the two passwords apart, where the code hashes them. -/
structure CollisionFree (p : Platform) (q r : String) : Prop where
  hash : ∀ salt, p.sha256 (asBytes q ++ asBytes salt) = p.sha256 (asBytes r ++ asBytes salt) →
    asBytes q ++ asBytes salt = asBytes r ++ asBytes salt
  answer : ∀ salt challenge,
    p.sha256 (p.sha256 (asBytes q ++ asBytes salt) ++ asBytes challenge)
        = p.sha256 (p.sha256 (asBytes r ++ asBytes salt) ++ asBytes challenge) →
      p.sha256 (asBytes q ++ asBytes salt) ++ asBytes challenge
        = p.sha256 (asBytes r ++ asBytes salt) ++ asBytes challenge

def atLogin (w : PasswordSetting) (s : PasswordState)
    (env : Env (w.machine.platform w.platform)) : Env (w.machine.platform w.platform) :=
  { env with
    localPassword := (s.mem.password, s.mem.salt)
    presetPassword := w.preset }

/-- Whether the password `q` opens the machine: a connection that gives its peer the
effective salt takes the answer for the permanent password. -/
def opens (w : PasswordSetting) (s : PasswordState) (drawn : Salt) (nonce : Nonce)
    (c : Connection) (env : Env (w.machine.platform w.platform)) (q : String) : Bool :=
  let (salt, s) := s.getEffectivePermanentPasswordSalt w drawn nonce
  (presenting w.platform { c with salt := salt } q).validatePermanentPassword (s.atLogin w env)

theorem verifyH1_iff {p : Platform} {q r : String} {m : Machine} {c : Connection}
    (h : CollisionFree p q r) :
    (presenting p c q).verifyH1 (m.platform p) (computePermanentPasswordH1 p r c.salt) = true
      ↔ q = r := by
  have hverify : (presenting p c q).verifyH1 (m.platform p)
      (computePermanentPasswordH1 p r c.salt) = true ↔
        p.sha256 (p.sha256 (asBytes r ++ asBytes c.salt) ++ asBytes c.challenge)
          = p.sha256 (p.sha256 (asBytes q ++ asBytes c.salt) ++ asBytes c.challenge) := by
    exact decide_eq_true_iff
  rw [hverify]
  constructor
  · intro heq
    have hhash := List.append_cancel_right (h.answer c.salt c.challenge heq.symm)
    exact asBytes_injective (List.append_cancel_right (h.hash c.salt hhash))
  · rintro rfl
    rfl

section Validate

variable {P : Platform} {env : Env P} {x : Connection} {storage salt : String} {h1 : Bytes}

theorem validatePermanentPassword_hash (hlocal : env.localPassword = (storage, salt))
    (hne : storage ≠ "")
    (husable : P.localPermanentPasswordStorageIsUsableForAuth storage salt = true)
    (hdecode : P.decodePermanentPasswordH1FromStorage storage = some h1) :
    x.validatePermanentPassword env = x.verifyH1 P h1 := by
  simp [Connection.validatePermanentPassword, Connection.validatePasswordStorage, hlocal, hne,
    husable, hdecode]

theorem validatePermanentPassword_presetHash (hlocal : env.localPassword.1 = "")
    (hpreset : env.presetPassword = (storage, salt)) (hsalt : salt ≠ "")
    (husable : P.presetPermanentPasswordStorageIsUsableForAuth storage salt = true)
    (hdecode : P.decodePresetPasswordH1FromStorage storage = some h1) :
    x.validatePermanentPassword env = x.verifyH1 P h1 := by
  simp [Connection.validatePermanentPassword, Connection.validatePresetPasswordStorage, hlocal,
    hpreset, hsalt, husable, hdecode]

theorem validatePermanentPassword_presetPlain (hlocal : env.localPassword.1 = "")
    (hpreset : env.presetPassword = (storage, "")) (hne : storage ≠ "")
    (husable : P.presetPermanentPasswordStorageIsUsableForAuth storage "" = true) :
    x.validatePermanentPassword env
      = x.verifyH1 P (P.sha256 (asBytes storage ++ asBytes x.salt)) := by
  simp [Connection.validatePermanentPassword, Connection.validatePresetPasswordStorage,
    Connection.validatePasswordPlain, hlocal, hpreset, hne, husable]

end Validate

theorem matches_plain {p : Platform} {storage : String}
    (h : presetPermanentPasswordStorageMatchesPlain p storage "" password = true) :
    storage = password ∧ password ≠ "" := by
  unfold presetPermanentPasswordStorageMatchesPlain at h
  split_ifs at h with hempty
  · refine ⟨by simpa using h, ?_⟩
    rintro rfl
    simp at hempty
  · exact absurd rfl ‹_›

theorem matches_hash {p : Platform} {storage salt : String} (hsalt : salt ≠ "")
    (h : presetPermanentPasswordStorageMatchesPlain p storage salt password = true) :
    storage ≠ "" ∧ decodePasswordH1AfterPrefix storage
      = some (computePermanentPasswordH1 p password salt) := by
  unfold presetPermanentPasswordStorageMatchesPlain at h
  split_ifs at h with hempty
  refine ⟨?_, ?_⟩
  · rintro rfl
    simp at hempty
  · split at h
    · rename_i h1 hdecode
      rw [hdecode, show computePermanentPasswordH1 p password salt = h1 by simpa using h]
    · cases h

theorem Holds.opens_iff (h : Holds w password c s) {conn : Connection}
    {env : Env (w.machine.platform w.platform)} {q : String}
    (hfree : CollisionFree w.platform q password) :
    opens w s drawn nonce conn env q = true ↔ q = password := by
  cases h with
  | hash salted decoded =>
    have hhash := hashed_of_decode salted decoded
    have hstorage := (version_of_hash (hash_parts hhash.1).1).1
    have husable : w.machine.localPermanentPasswordStorageIsUsableForAuth c.password c.salt
        = true := by
      rw [localPermanentPasswordStorageIsUsableForAuth, if_neg hstorage, if_pos hhash.1]
      simpa using salted
    have hsalt : (PasswordState.mk c c).getEffectivePermanentPasswordSalt w drawn nonce
        = (c.salt, ⟨c, c⟩) := by
      simp [getEffectivePermanentPasswordSalt, getSalt, hstorage, husable, salted]
    simp only [opens, hsalt]
    rw [validatePermanentPassword_hash rfl hstorage husable decoded]
    exact verifyH1_iff hfree
  | preset empty blank matched =>
    by_cases hsalt : w.preset.2 = ""
    · rw [hsalt] at matched
      obtain ⟨hstorage, hne⟩ := matches_plain matched
      have heffective : s.getEffectivePermanentPasswordSalt w drawn nonce
          = s.getSalt w drawn nonce := by
        simp [getEffectivePermanentPasswordSalt, empty, hsalt]
      have hpreset : w.preset = (password, "") := Prod.ext hstorage hsalt
      simp only [opens, heffective]
      rw [validatePermanentPassword_presetPlain (getSalt_empty empty blank drawn nonce).1 hpreset hne
        (by simp [platform, presetPermanentPasswordStorageIsUsableForAuth, hne])]
      exact verifyH1_iff hfree
    · obtain ⟨hstorage, hdecode⟩ := matches_hash hsalt matched
      have husable : presetPermanentPasswordStorageIsUsableForAuth w.preset.1 w.preset.2
          = true := by
        simp [presetPermanentPasswordStorageIsUsableForAuth, hstorage, hdecode]
      have heffective : s.getEffectivePermanentPasswordSalt w drawn nonce = (w.preset.2, s) := by
        simp [getEffectivePermanentPasswordSalt, empty, hsalt, husable]
      simp only [opens, heffective]
      rw [validatePermanentPassword_presetHash empty rfl hsalt husable hdecode]
      exact verifyH1_iff hfree

def started (w : PasswordSetting) (file : PasswordPair) : PasswordState :=
  ⟨(w.machine.validateOrDecryptPermanentPasswordStorage file).1, file⟩

/-- **The last password is the one.**  Start with no password or one of an older version,
do anything, then set a password, then do anything that sets no other.  Where a hash is
stored, it is still the one and its salt is still the same; and with the effective salt a
password opens the machine exactly when it is the one that was set. -/
theorem last_password_opens (hlength : ∀ v, (w.platform.sha256 v).length = 32)
    {file : PasswordPair} (hlegacy : w.machine.Legacy file.password)
    (before after : List PasswordStep) (hne : password ≠ "")
    {storeNonce : Nonce} {s t : PasswordState}
    (hs : (exec (step w) (started w file) before).setPermanentPassword w password disabled drawn
      nonce storeNonce = (true, s))
    (hafter : Along (step w) (Quiet w) s after) (ht : exec (step w) s after = t) :
    (t.mem.password ≠ "" → t.mem = s.mem) ∧
      ∀ (drawn : Salt) (nonce : Nonce) (conn : Connection)
        (env : Env (w.machine.platform w.platform)) (q : String),
        CollisionFree w.platform q password →
          (opens w t drawn nonce conn env q = true ↔ q = password) := by
  have hstart : Consistent w (started w file) :=
    load_consistent (s := started w file) (.inl hlegacy) false nonce
  have hbefore : Consistent w (exec (step w) (started w file) before) :=
    (always_of_step (fun _ i h => h.step hlength i) hstart before).last
  have hset := setPermanentPassword_holds hlength hbefore hne (congrArg Prod.fst hs)
  rw [hs] at hset
  have hholds : Holds w password s.mem t := ht ▸ hset.run hlength hafter
  refine ⟨fun hstored => ?_, fun drawn nonce conn env q hfree => hholds.opens_iff hfree⟩
  cases hholds with
  | hash => rfl
  | preset empty => exact absurd empty hstored

def firstBytes (v : Bytes) : Bytes := (v ++ List.replicate 32 0).take 32

theorem firstBytes_length (v : Bytes) : (firstBytes v).length = 32 := by
  simp [firstBytes]

theorem firstBytes_append {v : Bytes} (h : v.length = 32) (u : Bytes) :
    firstBytes (v ++ u) = v := by
  rw [firstBytes, List.append_assoc, List.take_left' h]

def plainSetting : PasswordSetting where
  machine := openMachine 1
  platform := { firstPlatform with sha256 := firstBytes }
  preset := ("", "")

theorem firstBytes_collisionFree {q r : String} (h : (asBytes q).head? ≠ (asBytes r).head?)
    (hq : asBytes q ≠ []) (hr : asBytes r ≠ []) : CollisionFree plainSetting.platform q r where
  hash salt heq := by
    obtain ⟨a, u, hu⟩ := List.exists_cons_of_ne_nil hq
    obtain ⟨b, v, hv⟩ := List.exists_cons_of_ne_nil hr
    rw [hu, hv] at h heq
    have hhead : some a = some b := congrArg List.head? heq
    exact absurd hhead h
  answer salt challenge heq := by
    have hcut : ∀ v : Bytes, firstBytes (firstBytes v ++ asBytes challenge) = firstBytes v :=
      fun v => firstBytes_append (firstBytes_length v) _
    change firstBytes (firstBytes _ ++ _) = firstBytes (firstBytes _ ++ _) at heq
    rw [hcut, hcut] at heq
    change firstBytes _ ++ _ = firstBytes _ ++ _
    rw [heq]

def sugar : Salt := ⟨"sugar", by decide⟩

def firstSet : List PasswordStep :=
  [.setPermanentPassword "first" false sugar zeroNonce zeroNonce, .setSalt "pepper" zeroNonce]

def secondSet : Bool × PasswordState :=
  (exec (step plainSetting) (started plainSetting ⟨"legacy", ""⟩) firstSet).setPermanentPassword
    plainSetting "second" false sugar zeroNonce zeroNonce

def restarted : List PasswordStep := [.setSalt "pepper" zeroNonce, .load true zeroNonce]

def loginTime : Env (plainSetting.machine.platform plainSetting.platform) := .idle _

/-- After them, the first password no longer opens the machine. -/
theorem second_password_opens :
    secondSet.1 = true ∧
      ¬opens plainSetting (exec (step plainSetting) secondSet.2 restarted) sugar zeroNonce
        (Connection.new loginTime .idle) loginTime "first" = true := by
  have hset : secondSet.1 = true := setPermanentPassword_fst firstBytes_length
  have hpair : ∀ r : Bool × PasswordState, r.1 = true → r = (true, r.2) := by
    rintro ⟨taken, s⟩ rfl
    rfl
  have hs : secondSet = (true, secondSet.2) := hpair secondSet hset
  have hlegacy : plainSetting.machine.Legacy (PasswordPair.mk "legacy" "").password :=
    .inl ⟨by decide, by decide⟩
  have hlast := (last_password_opens firstBytes_length hlegacy firstSet restarted (by decide) hs
    ⟨trivial, trivial, trivial⟩ rfl).2
  refine ⟨hset, fun hopens => ?_⟩
  have heq := (hlast sugar zeroNonce (Connection.new loginTime .idle) loginTime "first"
    (firstBytes_collisionFree (by decide) (by decide) (by decide))).mp hopens
  exact absurd heq (by decide)

end PasswordState
end RustDesk
