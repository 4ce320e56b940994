import RustDesk.Lib.Base64
import RustDesk.Lib.Utf8
import RustDesk.Server.Config

/-!
# Encrypting what is stored

`password_security`: short texts are kept in the configuration under a key of the
machine, as a version, then base64 of a format byte, a nonce and a secret box.  Reading
tries two keys, and a text that is no box of either is taken as it is.

The secret box itself is a parameter.  `SecretBox.Ideal` says what is expected of it for
the keys that machines have: a box of one key does not open under another.
-/

namespace RustDesk

open List

/-- `secretbox::seal` and `secretbox::open`, with the key and the nonce first. -/
structure SecretBox where
  sealBox : Bytes → Bytes → Bytes → Bytes
  openBox : Bytes → Bytes → Bytes → Option Bytes
  sealBox_length : ∀ key nonce data, (sealBox key nonce data).length = data.length + 16
  openBox_sealBox : ∀ key nonce data, openBox key nonce (sealBox key nonce data) = some data

def formatV1 : UInt8 := 1

def nonceBytes : Nat := 24

def macBytes : Nat := 16

/-- `Vec::resize(KEYBYTES, 0)`. -/
def resizeKey (v : Bytes) : Bytes := (v ++ List.replicate 32 0).take 32

/-- Between these keys the box is ideal: what is sealed under one of them opens under no
other, neither alone nor behind a format byte and a nonce. -/
def SecretBox.Ideal (box : SecretBox) (keys : Set Bytes) : Prop :=
  ∀ key ∈ keys, ∀ key' ∈ keys, key ≠ key' → ∀ nonce nonce' data,
    box.openBox key' nonce' (box.sealBox key nonce data) = none ∧
      box.openBox key' nonce' (formatV1 :: (nonce ++ box.sealBox key nonce data)) = none

structure Machine where
  box : SecretBox
  /-- `get_uuid`. -/
  uuid : Bytes
  /-- `Config::get_existing_key_pair`. -/
  existingKeyPair : Option (Bytes × Bytes)
  mobile : Bool

/-- A nonce, as `gen_nonce` draws it. -/
abbrev Nonce := { v : Bytes // v.length = nonceBytes }

theorem length_zeros : (List.replicate 24 (0 : UInt8)).length = nonceBytes := rfl

def fromUtf8Lossy (v : Bytes) : String := String.ofList (Utf8.lossy v)

/-- `open_secretbox_payload`. -/
def SecretBox.openPayload (box : SecretBox) (data key : Bytes) : Option Bytes :=
  let current :=
    if data.head? = some formatV1 ∧ 1 + nonceBytes + macBytes ≤ data.length then
      box.openBox key ((data.drop 1).take nonceBytes) (data.drop (1 + nonceBytes))
    else none
  match current with
  | some decrypted => some decrypted
  | none => box.openBox key (List.replicate nonceBytes 0) data

def afterVersion (version : Char × Char) (s : String) : Option (List Char) :=
  match s.toList with
  | a :: b :: c :: cs => if (a, b) = version then some (c :: cs) else none
  | _ => none

def passwordEncVersion : Char × Char := ('0', '0')

def isEncrypted (s : String) : Bool :=
  match (afterVersion passwordEncVersion s).bind Base64.decode with
  | some decoded => macBytes ≤ decoded.length
  | none => false

namespace Machine

variable (m : Machine)

/-- The key that `symmetric_crypt` encrypts with. -/
def key : Bytes := resizeKey m.uuid

/-- The key that `symmetric_crypt` falls back to when it decrypts. -/
def fallbackKey : Option Bytes :=
  if m.mobile then none
  else
    match m.existingKeyPair with
    | some (_, pk) => if pk ≠ m.uuid then some (resizeKey pk) else none
    | none => none

/-- The keys that `symmetric_crypt` tries when it decrypts. -/
def triedKeys : List Bytes := m.key :: m.fallbackKey.toList

/-- `symmetric_crypt` with `encrypt`, for the nonce that is drawn. -/
def symmetricEncrypt (nonce : Nonce) (data : Bytes) : Bytes :=
  formatV1 :: (nonce.1 ++ m.box.sealBox m.key nonce.1 data)

/-- `symmetric_crypt` without `encrypt`. -/
def symmetricDecrypt (data : Bytes) : Option Bytes :=
  match m.box.openPayload data m.key with
  | some decrypted => some decrypted
  | none =>
    match m.fallbackKey with
    | some pkKey => m.box.openPayload data pkKey
    | none => none

def encrypt (nonce : Nonce) (v : Bytes) : Option (List Char) :=
  if v ≠ [] then some (Base64.encode (m.symmetricEncrypt nonce v)) else none

def decrypt (v : List Char) : Option Bytes :=
  if v ≠ [] then (Base64.decode v).bind m.symmetricDecrypt else none

/-- `encrypt_str_or_original`, with the version `00` that all callers pass. -/
def encryptStrOrOriginal (nonce : Nonce) (s : String) (maxLen : Nat) : String :=
  if isEncrypted s then s
  else if maxLen < s.length then ""
  else
    match m.encrypt nonce (asBytes s) with
    | some v => String.ofList ('0' :: '0' :: v)
    | none => s

/-- `decrypt_str_or_original`, with the version `00` that all callers pass: the text,
whether it was decrypted, and whether it should be stored again. -/
def decryptStrOrOriginal (s : String) : String × Bool × Bool :=
  match (afterVersion passwordEncVersion s).bind m.decrypt with
  | some v => (fromUtf8Lossy v, true, false)
  | none => (s, false, s ≠ "" && !isEncrypted s)

end Machine

theorem fromUtf8Lossy_asBytes (s : String) : fromUtf8Lossy (asBytes s) = s := by
  rw [fromUtf8Lossy, asBytes, Utf8.toUTF8_toList, Utf8.lossy_bytes, String.ofList_toList]

theorem asBytes_eq_nil {s : String} : asBytes s = [] ↔ s = "" := by
  constructor
  · intro h
    rw [← fromUtf8Lossy_asBytes s, h]
    rfl
  · rintro rfl
    rfl

theorem asBytes_injective : Function.Injective asBytes := by
  intro s t h
  rw [← fromUtf8Lossy_asBytes s, h, fromUtf8Lossy_asBytes]

theorem afterVersion_ofList {a b : Char} {cs : List Char} (h : cs ≠ []) :
    afterVersion (a, b) (String.ofList (a :: b :: cs)) = some cs := by
  obtain ⟨c, cs, rfl⟩ := exists_cons_of_ne_nil h
  simp [afterVersion]

namespace Machine

variable {m u : Machine} {nonce : Nonce} {data : Bytes} {s : String}

theorem symmetricEncrypt_length :
    (m.symmetricEncrypt nonce data).length = 1 + nonceBytes + (data.length + macBytes) := by
  rw [symmetricEncrypt, length_cons, length_append, m.box.sealBox_length, nonce.2]
  simp only [nonceBytes, macBytes]
  omega

theorem symmetricEncrypt_ne_nil : m.symmetricEncrypt nonce data ≠ [] := cons_ne_nil _ _

theorem encrypt_eq_some {v : Bytes} (h : v ≠ []) :
    m.encrypt nonce v = some (Base64.encode (m.symmetricEncrypt nonce v)) := if_pos h

variable {payload : Bytes}

theorem decrypt_encode (h : payload ≠ []) :
    m.decrypt (Base64.encode payload) = m.symmetricDecrypt payload := by
  rw [decrypt, if_pos (Base64.encode_ne_nil h), Base64.decode_encode, Option.bind_some]

theorem openPayload_symmetricEncrypt {box : SecretBox} {key : Bytes} :
    box.openPayload (m.symmetricEncrypt nonce data) key
      = (box.openBox key nonce.1 (m.box.sealBox m.key nonce.1 data)).or
          (box.openBox key (List.replicate nonceBytes 0) (m.symmetricEncrypt nonce data)) := by
  have hlength : 1 + nonceBytes + macBytes ≤ (m.symmetricEncrypt nonce data).length := by
    rw [symmetricEncrypt_length]
    omega
  have htake : ((m.symmetricEncrypt nonce data).drop 1).take nonceBytes = nonce.1 := by
    rw [symmetricEncrypt, drop_succ_cons, drop_zero, take_left' nonce.2]
  have hdrop : (m.symmetricEncrypt nonce data).drop (1 + nonceBytes)
      = m.box.sealBox m.key nonce.1 data := by
    rw [symmetricEncrypt, Nat.add_comm, drop_succ_cons, drop_left' nonce.2]
  unfold SecretBox.openPayload
  have hhead : (m.symmetricEncrypt nonce data).head? = some formatV1 := rfl
  simp only [htake, hdrop, hlength, hhead, and_true, if_true]
  cases box.openBox key nonce.1 (m.box.sealBox m.key nonce.1 data) <;> rfl

theorem symmetricDecrypt_symmetricEncrypt :
    m.symmetricDecrypt (m.symmetricEncrypt nonce data) = some data := by
  rw [symmetricDecrypt, openPayload_symmetricEncrypt, m.box.openBox_sealBox, Option.some_or]

theorem symmetricDecrypt_foreign {keys : Set Bytes} (hbox : u.box = m.box)
    (hideal : m.box.Ideal keys) (hkey : u.key ∈ keys) (htried : ∀ k ∈ m.triedKeys, k ∈ keys)
    (hforeign : u.key ∉ m.triedKeys) :
    m.symmetricDecrypt (u.symmetricEncrypt nonce data) = none := by
  have hopen : ∀ k ∈ m.triedKeys, m.box.openPayload (u.symmetricEncrypt nonce data) k = none := by
    intro k hk
    have hne : u.key ≠ k := fun heq => hforeign (heq ▸ hk)
    have h := hideal u.key hkey k (htried k hk) hne
    rw [openPayload_symmetricEncrypt, hbox, (h nonce.1 nonce.1 data).1, Option.none_or,
      symmetricEncrypt, hbox, (h nonce.1 _ data).2]
  rw [symmetricDecrypt, hopen m.key (mem_cons_self ..)]
  cases hfallback : m.fallbackKey with
  | none => rfl
  | some k =>
    refine hopen k ?_
    rw [triedKeys, hfallback]
    simp

theorem encryptStrOrOriginal_eq {maxLen : Nat} (hnew : isEncrypted s = false)
    (hlength : s.length ≤ maxLen) (hne : s ≠ "") :
    m.encryptStrOrOriginal nonce s maxLen
      = String.ofList ('0' :: '0' :: Base64.encode (m.symmetricEncrypt nonce (asBytes s))) := by
  have hbytes : asBytes s ≠ [] := fun h => hne (asBytes_eq_nil.mp h)
  rw [encryptStrOrOriginal, hnew, if_neg (by simp), if_neg (by omega), encrypt_eq_some hbytes]

theorem decryptStrOrOriginal_payload (h : payload ≠ []) :
    m.decryptStrOrOriginal (String.ofList ('0' :: '0' :: Base64.encode payload))
      = match m.symmetricDecrypt payload with
        | some v => (fromUtf8Lossy v, true, false)
        | none => (String.ofList ('0' :: '0' :: Base64.encode payload), false,
            !isEncrypted (String.ofList ('0' :: '0' :: Base64.encode payload))) := by
  rw [decryptStrOrOriginal, passwordEncVersion, afterVersion_ofList (Base64.encode_ne_nil h),
    Option.bind_some, decrypt_encode h]
  cases m.symmetricDecrypt payload with
  | some v => rfl
  | none => simp

theorem isEncrypted_payload (h : macBytes ≤ payload.length) :
    isEncrypted (String.ofList ('0' :: '0' :: Base64.encode payload)) = true := by
  have hne : payload ≠ [] := by
    rintro rfl
    simp [macBytes] at h
  rw [isEncrypted, passwordEncVersion, afterVersion_ofList (Base64.encode_ne_nil hne),
    Option.bind_some, Base64.decode_encode]
  simpa using h

end Machine
end RustDesk
