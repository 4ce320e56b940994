import RustDesk.Config.PasswordSecurity
import RustDesk.Server.Loop

/-!
# How the permanent password is stored

`config::permanent_password`.  What is stored is a hash of the password and a salt, in
base64 behind `00`, encrypted under the machine's key and in base64 again behind `01`.
Older versions stored the password itself, or the password encrypted, behind `00`.
What can be read as neither is taken for a password.

The main result is about ciphertexts of another machine, as they are found after a disk
was cloned or the machine's identifier changed.  One behind `00` is never taken for a
password; one behind `01` always is.
-/

namespace RustDesk

def permanentPasswordEncVersion : Char × Char := ('0', '1')

/-- `PERMANENT_PASSWORD_HASH_PREFIX`, and `HBBS_PRESET_PASSWORD_HASH_PREFIX`. -/
def permanentPasswordHashPrefix : Char × Char := ('0', '0')

def permanentPasswordH1Len : Nat := 32

def encryptMaxLen : Nat := 128

/-- `str::starts_with`, for a version of two characters. -/
def startsWithVersion (version : Char × Char) (s : String) : Bool :=
  match s.toList with
  | a :: b :: _ => (a, b) = version
  | _ => false

def encodePermanentPasswordStorageFromH1 (h1 : Bytes) : String :=
  String.ofList ('0' :: '0' :: Base64.encode h1)

/-- `decode_password_h1_after_prefix`, for the one prefix there is. -/
def decodePasswordH1AfterPrefix (storage : String) : Option Bytes :=
  match (afterVersion permanentPasswordHashPrefix storage).bind Base64.decode with
  | some v => if v.length = permanentPasswordH1Len then some v else none
  | none => none

def presetPermanentPasswordStorageIsUsableForAuth (storage salt : String) : Bool :=
  storage ≠ "" && (salt = "" || (decodePasswordH1AfterPrefix storage).isSome)

namespace Machine

variable (m : Machine)

def encryptPermanentPasswordStorage (nonce : Nonce) (storage : String) : Option String :=
  if encryptMaxLen < storage.length then none
  else some (String.ofList
    ('0' :: '1' :: Base64.encode (m.symmetricEncrypt nonce (asBytes storage))))

def encodePermanentPasswordEncryptedStorageFromH1 (nonce : Nonce) (h1 : Bytes) : Option String :=
  m.encryptPermanentPasswordStorage nonce (encodePermanentPasswordStorageFromH1 h1)

def decryptPermanentPasswordStrOrOriginal (storage : String) : String × Bool × Bool :=
  match ((afterVersion permanentPasswordEncVersion storage).bind Base64.decode).bind
      m.symmetricDecrypt with
  | some v => (fromUtf8Lossy v, true, false)
  | none => (storage, false, storage ≠ "")

def decodePermanentPasswordH1FromStorage (storage : String) : Option Bytes :=
  if startsWithVersion permanentPasswordEncVersion storage then
    match m.decryptPermanentPasswordStrOrOriginal storage with
    | (hashedStorage, true, _) => decodePasswordH1AfterPrefix hashedStorage
    | (_, false, _) => none
  else none

def localPermanentPasswordStorageIsUsableForAuth (storage salt : String) : Bool :=
  if storage = "" then false
  else if (m.decodePermanentPasswordH1FromStorage storage).isSome then salt ≠ ""
  else if startsWithVersion permanentPasswordEncVersion storage
      && (m.decryptPermanentPasswordStrOrOriginal storage).2.1 then false
  else
    let (_, decrypted, looksLikePlaintext) := m.decryptStrOrOriginal storage
    !(startsWithVersion passwordEncVersion storage && !decrypted && !looksLikePlaintext)

def platform (p : Platform) : Platform :=
  { p with
    decodePermanentPasswordH1FromStorage := m.decodePermanentPasswordH1FromStorage
    localPermanentPasswordStorageIsUsableForAuth := m.localPermanentPasswordStorageIsUsableForAuth
    decodePresetPasswordH1FromStorage := decodePasswordH1AfterPrefix
    presetPermanentPasswordStorageIsUsableForAuth :=
      RustDesk.presetPermanentPasswordStorageIsUsableForAuth }

end Machine

theorem startsWithVersion_ofList (a b : Char) (cs : List Char) (version : Char × Char) :
    startsWithVersion version (String.ofList (a :: b :: cs)) = decide ((a, b) = version) := by
  simp [startsWithVersion]

theorem ofList_cons_ne_empty (a : Char) (cs : List Char) : String.ofList (a :: cs) ≠ "" := by
  simp

theorem decodePasswordH1AfterPrefix_encode {h1 : Bytes} (h : h1.length = permanentPasswordH1Len) :
    decodePasswordH1AfterPrefix (encodePermanentPasswordStorageFromH1 h1) = some h1 := by
  have hne : h1 ≠ [] := by
    rintro rfl
    cases h
  rw [decodePasswordH1AfterPrefix, encodePermanentPasswordStorageFromH1,
    permanentPasswordHashPrefix, afterVersion_ofList (Base64.encode_ne_nil hne),
    Option.bind_some, Base64.decode_encode]
  exact if_pos h

theorem encodePermanentPasswordStorageFromH1_length {h1 : Bytes}
    (h : h1.length = permanentPasswordH1Len) :
    (encodePermanentPasswordStorageFromH1 h1).length = 46 := by
  rw [encodePermanentPasswordStorageFromH1, String.length_ofList, List.length_cons,
    List.length_cons, Base64.encode_length, h]
  rfl

namespace Machine

variable {m u : Machine} {nonce : Nonce} {storage salt : String} {h1 payload : Bytes}

theorem encodePermanentPasswordEncryptedStorageFromH1_eq (h : h1.length = permanentPasswordH1Len) :
    m.encodePermanentPasswordEncryptedStorageFromH1 nonce h1
      = some (String.ofList ('0' :: '1' :: Base64.encode
          (m.symmetricEncrypt nonce (asBytes (encodePermanentPasswordStorageFromH1 h1))))) := by
  refine if_neg ?_
  rw [encodePermanentPasswordStorageFromH1_length h, encryptMaxLen]
  omega

theorem decryptPermanentPasswordStrOrOriginal_payload (h : payload ≠ []) :
    m.decryptPermanentPasswordStrOrOriginal (String.ofList ('0' :: '1' :: Base64.encode payload))
      = match m.symmetricDecrypt payload with
        | some v => (fromUtf8Lossy v, true, false)
        | none => (String.ofList ('0' :: '1' :: Base64.encode payload), false, true) := by
  rw [decryptPermanentPasswordStrOrOriginal, permanentPasswordEncVersion,
    afterVersion_ofList (Base64.encode_ne_nil h), Option.bind_some, Base64.decode_encode,
    Option.bind_some]
  cases m.symmetricDecrypt payload with
  | some v => rfl
  | none => simp

theorem decodePermanentPasswordH1FromStorage_closed (h : payload ≠ [])
    (hclosed : m.symmetricDecrypt payload = none) :
    m.decodePermanentPasswordH1FromStorage
      (String.ofList ('0' :: '1' :: Base64.encode payload)) = none := by
  rw [decodePermanentPasswordH1FromStorage, startsWithVersion_ofList,
    decryptPermanentPasswordStrOrOriginal_payload h, hclosed]
  rfl

theorem decodePermanentPasswordH1FromStorage_other
    (h : startsWithVersion permanentPasswordEncVersion storage = false) :
    m.decodePermanentPasswordH1FromStorage storage = none := by
  rw [decodePermanentPasswordH1FromStorage, h]
  rfl

theorem usable_of_closed_hash (h : payload ≠ []) (hclosed : m.symmetricDecrypt payload = none)
    (salt : String) :
    m.localPermanentPasswordStorageIsUsableForAuth
      (String.ofList ('0' :: '1' :: Base64.encode payload)) salt = true := by
  have hversion : startsWithVersion passwordEncVersion
      (String.ofList ('0' :: '1' :: Base64.encode payload)) = false := by
    rw [startsWithVersion_ofList]
    decide
  rw [localPermanentPasswordStorageIsUsableForAuth, if_neg (ofList_cons_ne_empty _ _),
    decodePermanentPasswordH1FromStorage_closed h hclosed,
    decryptPermanentPasswordStrOrOriginal_payload h, hclosed]
  simp only [Option.isSome_none, Bool.and_false, hversion, Bool.false_and, Bool.not_false,
    if_neg Bool.false_ne_true]

theorem not_usable_of_closed_text (h : macBytes ≤ payload.length)
    (hclosed : m.symmetricDecrypt payload = none) :
    m.localPermanentPasswordStorageIsUsableForAuth
      (String.ofList ('0' :: '0' :: Base64.encode payload)) salt = false := by
  have hne : payload ≠ [] := by
    rintro rfl
    simp [macBytes] at h
  have hversion : startsWithVersion permanentPasswordEncVersion
      (String.ofList ('0' :: '0' :: Base64.encode payload)) = false := by
    rw [startsWithVersion_ofList]
    decide
  rw [localPermanentPasswordStorageIsUsableForAuth, if_neg (ofList_cons_ne_empty _ _),
    decodePermanentPasswordH1FromStorage_other hversion, hversion,
    decryptStrOrOriginal_payload hne, hclosed]
  simp only [Option.isSome_none, Bool.false_and, if_neg Bool.false_ne_true,
    isEncrypted_payload h, startsWithVersion_ofList, Bool.not_true, Bool.not_false, Bool.and_true]
  decide

/-- The machine `u` has a key that `m` does not try, and the box is ideal between them. -/
structure Stranger (m u : Machine) : Prop where
  box : u.box = m.box
  ideal : m.box.Ideal {k | k = u.key ∨ k ∈ m.triedKeys}
  untried : u.key ∉ m.triedKeys

theorem Stranger.closed (h : Stranger m u) {data : Bytes} :
    m.symmetricDecrypt (u.symmetricEncrypt nonce data) = none :=
  symmetricDecrypt_foreign h.box h.ideal (.inl rfl) (fun _ hk => .inr hk) h.untried

/-- A ciphertext that a stranger stored: the hash of a password, or some text that
`encrypt_str_or_original` did encrypt. -/
inductive Foreign (m : Machine) : String → Prop
  | hash {u : Machine} {nonce : Nonce} {h1 : Bytes} {storage : String} (stranger : Stranger m u)
      (length : h1.length = permanentPasswordH1Len)
      (made : u.encodePermanentPasswordEncryptedStorageFromH1 nonce h1 = some storage) :
      Foreign m storage
  | text {u : Machine} {nonce : Nonce} {s : String} {maxLen : Nat} (stranger : Stranger m u)
      (plain : isEncrypted s = false) (short : s.length ≤ maxLen) (nonempty : s ≠ "") :
      Foreign m (u.encryptStrOrOriginal nonce s maxLen)

/-- The storage is of no use for authentication: with it, whatever login request a
connection holds and whether or not the permanent password is allowed, only the
temporary password is accepted. -/
def NeverAPassword (m : Machine) (storage salt : String) : Prop :=
  m.localPermanentPasswordStorageIsUsableForAuth storage salt = false ∧
    ∀ (p : Platform) (env : Env (m.platform p)) (c : Connection) (allow : Bool),
      env.localPassword = (storage, salt) →
        (c.validatePassword env allow).1 = (env.temporaryEnabled
          && c.validatePasswordPlain (m.platform p) c.shared.temporaryPassword)

theorem neverAPassword_of_not_usable (hne : storage ≠ "")
    (h : m.localPermanentPasswordStorageIsUsableForAuth storage salt = false) :
    NeverAPassword m storage salt := by
  refine ⟨h, fun p env c allow hlocal => ?_⟩
  have hpermanent : c.validatePermanentPassword env = false := by
    rw [Connection.validatePermanentPassword, hlocal]
    simp only [ne_eq, hne, not_false_eq_true, if_true]
    rw [show (m.platform p).localPermanentPasswordStorageIsUsableForAuth storage salt = false from h,
      Bool.false_and]
  rw [Connection.validatePassword, hpermanent, Bool.and_false, if_neg Bool.false_ne_true]
  split <;> simp_all

def presenting (p : Platform) (c : Connection) (password : String) : Connection :=
  let h1 := p.sha256 (asBytes password ++ asBytes c.salt)
  { c with lr := { c.lr with password := p.sha256 (h1 ++ asBytes c.challenge) } }

theorem closed_hash_opens {p : Platform} {env : Env (m.platform p)} {c : Connection}
    (h : payload ≠ []) (hclosed : m.symmetricDecrypt payload = none)
    (hlocal : env.localPassword = (String.ofList ('0' :: '1' :: Base64.encode payload), salt)) :
    (presenting p c (String.ofList ('0' :: '1' :: Base64.encode payload))).validatePermanentPassword
      env = true := by
  have husable := usable_of_closed_hash h hclosed salt
  have hdecode := decodePermanentPasswordH1FromStorage_closed h hclosed
  have hne := ofList_cons_ne_empty '0' ('1' :: Base64.encode payload)
  generalize String.ofList ('0' :: '1' :: Base64.encode payload) = storage at *
  simp only [Connection.validatePermanentPassword, hlocal, ne_eq, hne, not_false_eq_true, if_true]
  rw [show (m.platform p).localPermanentPasswordStorageIsUsableForAuth storage salt = true
    from husable, Bool.true_and, Connection.validatePasswordStorage,
    show (m.platform p).decodePermanentPasswordH1FromStorage storage = none from hdecode]
  simp [hne, Connection.validatePasswordPlain, Connection.verifyH1, presenting, platform]

/-- **A stored ciphertext is no password, unless it is a hash.**  A ciphertext of another
machine is never accepted exactly when it does not begin with `01`. -/
theorem ciphertext_never_a_password (h : Foreign m storage) (salt : String) :
    NeverAPassword m storage salt ↔
      startsWithVersion permanentPasswordEncVersion storage = false := by
  cases h with
  | hash stranger length made =>
    rw [encodePermanentPasswordEncryptedStorageFromH1_eq length] at made
    obtain rfl := Option.some.inj made
    refine iff_of_false (fun hnever => ?_) ?_
    · rw [NeverAPassword,
        usable_of_closed_hash symmetricEncrypt_ne_nil stranger.closed salt] at hnever
      cases hnever.1
    · rw [startsWithVersion_ofList]
      decide
  | text stranger plain short nonempty =>
    rw [encryptStrOrOriginal_eq plain short nonempty]
    refine iff_of_true ?_ ?_
    · refine neverAPassword_of_not_usable (ofList_cons_ne_empty _ _) ?_
      refine not_usable_of_closed_text ?_ stranger.closed
      rw [symmetricEncrypt_length]
      omega
    · rw [startsWithVersion_ofList]
      decide

end Machine

namespace Machine

def openTag (key : Bytes) : Bytes := 2 :: (key ++ List.replicate 15 0).take 15

theorem openTag_length (key : Bytes) : (openTag key).length = macBytes := by
  simp [openTag, macBytes]

theorem openTag_append_length (key data : Bytes) :
    (openTag key ++ data).length = data.length + 16 := by
  rw [List.length_append, openTag_length, macBytes]
  omega

theorem openTag_opens (key data : Bytes) :
    (if (openTag key ++ data).take macBytes = openTag key then
      some ((openTag key ++ data).drop macBytes)
    else none) = some data := by
  rw [List.take_left' (openTag_length key), List.drop_left' (openTag_length key), if_pos rfl]

def openSecretBox : SecretBox where
  sealBox key _ data := openTag key ++ data
  openBox key _ sealed := if sealed.take macBytes = openTag key then some (sealed.drop macBytes)
    else none
  sealBox_length key _ data := openTag_append_length key data
  openBox_sealBox key _ data := openTag_opens key data

theorem openSecretBox_ideal {keys : Set Bytes}
    (h : ∀ k ∈ keys, ∀ k' ∈ keys, k ≠ k' → openTag k ≠ openTag k') : openSecretBox.Ideal keys := by
  intro k hk k' hk' hne nonce nonce' data
  refine ⟨?_, ?_⟩
  · simp only [openSecretBox]
    rw [List.take_left' (openTag_length k), if_neg (h k hk k' hk' hne)]
  · simp only [openSecretBox]
    refine if_neg fun heq => ?_
    have hhead := congrArg List.head? heq
    simp [openTag, macBytes, formatV1] at hhead

def openMachine (n : UInt8) : Machine := ⟨openSecretBox, [n], none, false⟩

theorem openMachine_stranger : Stranger (openMachine 1) (openMachine 2) where
  box := rfl
  ideal := by
    have hkeys : (openMachine 1).triedKeys = [(openMachine 1).key] := rfl
    refine openSecretBox_ideal fun k hk k' hk' hne => ?_
    simp only [hkeys, List.mem_singleton, Set.mem_ofPred_eq] at hk hk'
    rcases hk with rfl | rfl <;> rcases hk' with rfl | rfl
    · exact absurd rfl hne
    · decide
    · decide
    · exact absurd rfl hne
  untried := by decide

def zeroNonce : Nonce := ⟨List.replicate 24 0, length_zeros⟩

/-- The pin `1234` that the other machine encrypted is no password here. -/
theorem foreign_pin_never_a_password :
    Foreign (openMachine 1) ((openMachine 2).encryptStrOrOriginal zeroNonce "1234" 128) ∧
      (NeverAPassword (openMachine 1)
          ((openMachine 2).encryptStrOrOriginal zeroNonce "1234" 128) "salt" ↔
        startsWithVersion permanentPasswordEncVersion
          ((openMachine 2).encryptStrOrOriginal zeroNonce "1234" 128) = false) :=
  have h : Foreign (openMachine 1) ((openMachine 2).encryptStrOrOriginal zeroNonce "1234" 128) :=
    .text openMachine_stranger (by decide) (by decide) (by decide)
  ⟨h, ciphertext_never_a_password h "salt"⟩

def firstPlatform : Platform := Platform.idle ⟨.linux, true, false, false⟩

def hashPayload : Bytes :=
  (openMachine 2).symmetricEncrypt zeroNonce
    (asBytes (encodePermanentPasswordStorageFromH1 (List.replicate 32 7)))

def foreignHash : String := String.ofList ('0' :: '1' :: Base64.encode hashPayload)

def afterCloning : Env ((openMachine 1).platform firstPlatform) :=
  { Env.idle ((openMachine 1).platform firstPlatform) with
    localPassword := (foreignHash, "salt") }

/-- The hash that another machine stored is a password here: who has read it and types it
is let in. -/
theorem foreign_hash_is_a_password :
    (openMachine 2).encodePermanentPasswordEncryptedStorageFromH1 zeroNonce (List.replicate 32 7)
        = some foreignHash ∧
      Stranger (openMachine 1) (openMachine 2) ∧
      (openMachine 1).localPermanentPasswordStorageIsUsableForAuth foreignHash "salt" = true ∧
      ((presenting firstPlatform (Connection.new afterCloning .idle)
        foreignHash).validatePassword afterCloning true).1 = true := by
  have hclosed : (openMachine 1).symmetricDecrypt hashPayload = none := openMachine_stranger.closed
  have hopens : (presenting firstPlatform (Connection.new afterCloning .idle)
      foreignHash).validatePermanentPassword afterCloning = true :=
    closed_hash_opens symmetricEncrypt_ne_nil hclosed rfl
  refine ⟨encodePermanentPasswordEncryptedStorageFromH1_eq rfl, openMachine_stranger,
    usable_of_closed_hash symmetricEncrypt_ne_nil hclosed _, ?_⟩
  rw [Connection.validatePassword, hopens, Bool.or_true, Bool.true_and]
  split <;> rfl

end Machine
end RustDesk
