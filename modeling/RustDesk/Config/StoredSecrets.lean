import RustDesk.Config.PasswordSecurity

/-!
# Stored secrets decrypt to themselves

A secret is stored as `00` and base64 of a payload.  A payload is a box alone, as older
versions wrote it, or a box behind a format byte and its nonce.  Nothing but trying tells
the two apart when a box happens to begin with the format byte, and nothing but trying
tells which of the two keys of a machine a box was sealed under.

`SecretBox.Exact` is the ideal secret box for this: opening fails wherever it is tried at
something else than a box of that key.  Under it every payload opens to what was sealed,
and the round trip follows from the branches that `encrypt_*_or_original` and
`decrypt_*_or_original` take for texts and for bytes.
-/

namespace RustDesk

open List

def base64Chars (v : Bytes) : List Char := v.map fun b => Char.ofNat b.toNat

/-- `is_encrypted`, on bytes. -/
def isEncryptedVec (v : Bytes) : Bool :=
  if v.length ≤ 2 ∨ v.take 2 ≠ asBytes "00" then false
  else
    match Base64.decode (base64Chars (v.drop 2)) with
    | some decoded => macBytes ≤ decoded.length
    | none => false

/-- `encrypt_vec_or_original`, with the version `00` that all callers pass. -/
def Machine.encryptVecOrOriginal (m : Machine) (nonce : Nonce) (v : Bytes) (maxLen : Nat) : Bytes :=
  if isEncryptedVec v then v
  else if maxLen < v.length then []
  else
    match m.encrypt nonce v with
    | some s => asBytes "00" ++ asBytes (String.ofList s)
    | none => v

/-- `decrypt_vec_or_original`, with the version `00` that all callers pass. -/
def Machine.decryptVecOrOriginal (m : Machine) (v : Bytes) : Bytes × Bool × Bool :=
  let decrypted :=
    if 2 < v.length ∧ fromUtf8Lossy (v.take 2) = "00" then m.decrypt (base64Chars (v.drop 2))
    else none
  match decrypted with
  | some v => (v, true, false)
  | none => (v, false, v ≠ [] && !isEncryptedVec v)

def storedText (payload : Bytes) : String := String.ofList ('0' :: '0' :: Base64.encode payload)

theorem asBytes_ofList (cs : List Char) : asBytes (String.ofList cs) = Utf8.bytes cs := by
  rw [asBytes, Utf8.toUTF8_toList, String.toList_ofList]

theorem ascii_of_mem_encode {payload : Bytes} {c : Char} (h : c ∈ Base64.encode payload) :
    c.toNat < 128 := by
  have hdigits : ∀ n < 64, (Base64.digit n).toNat < 128 := by decide +kernel
  rcases Base64.mem_encode h with ⟨n, hn, rfl⟩ | rfl
  · exact hdigits n hn
  · decide

theorem base64Chars_bytes {cs : List Char} (h : ∀ c ∈ cs, c.toNat < 128) :
    base64Chars (Utf8.bytes cs) = cs := by
  induction cs with
  | nil => rfl
  | cons c cs ih =>
    have hc := h c mem_cons_self
    have hbyte : (UInt8.ofNat c.toNat).toNat = c.toNat := by
      rw [UInt8.toNat_ofNat']
      omega
    have hcs : base64Chars (Utf8.bytes cs) = cs := ih fun d hd => h d (mem_cons_of_mem _ hd)
    rw [Utf8.bytes_cons, Utf8.utf8EncodeChar_ascii hc]
    change Char.ofNat _ :: base64Chars (Utf8.bytes cs) = c :: cs
    rw [hbyte, Char.ofNat_toNat, hcs]

theorem base64Chars_encode (payload : Bytes) :
    base64Chars (Utf8.bytes (Base64.encode payload)) = Base64.encode payload :=
  base64Chars_bytes fun _ h => ascii_of_mem_encode h

theorem asBytes_storedText (payload : Bytes) :
    asBytes (storedText payload) = asBytes "00" ++ Utf8.bytes (Base64.encode payload) := by
  rw [storedText, asBytes_ofList]
  rfl

theorem storedText_parts {payload : Bytes} (h : payload ≠ []) :
    2 < (asBytes (storedText payload)).length ∧
      (asBytes (storedText payload)).take 2 = asBytes "00" ∧
      base64Chars ((asBytes (storedText payload)).drop 2) = Base64.encode payload := by
  have hzeros : (asBytes "00").length = 2 := rfl
  have hne : Utf8.bytes (Base64.encode payload) ≠ [] := by
    intro hnil
    have hchars := base64Chars_encode payload
    rw [hnil] at hchars
    exact Base64.encode_ne_nil h hchars.symm
  have hpos := length_pos_iff.mpr hne
  rw [asBytes_storedText]
  refine ⟨?_, take_left' hzeros, ?_⟩
  · rw [length_append]
    omega
  · rw [drop_left' hzeros, base64Chars_encode]

theorem base64Chars_injective : Function.Injective base64Chars := by
  refine map_injective_iff.mpr fun b b' h => ?_
  have hchars : ∀ n < 256, (Char.ofNat n).toNat = n := by decide +kernel
  have hnat := congrArg Char.toNat h
  rw [hchars _ b.toNat_lt, hchars _ b'.toNat_lt] at hnat
  exact UInt8.toNat_inj.mp hnat

/-- **What looks encrypted** is `00` and base64 of something as long as a box. -/
theorem isEncrypted_iff {s : String} :
    isEncrypted s = true ↔ ∃ payload, macBytes ≤ payload.length ∧ s = storedText payload := by
  constructor
  · intro h
    rw [isEncrypted] at h
    cases hdecode : (afterVersion passwordEncVersion s).bind Base64.decode with
    | none => simp [hdecode] at h
    | some payload =>
      rw [hdecode] at h
      obtain ⟨text, htext, hpayload⟩ := Option.bind_eq_some_iff.mp hdecode
      refine ⟨payload, by simpa using h, ?_⟩
      have hs : s.toList = '0' :: '0' :: text := by
        unfold afterVersion passwordEncVersion at htext
        grind
      rw [storedText, Base64.decode_eq_some_iff.mp hpayload, ← hs, String.ofList_toList]
  · rintro ⟨payload, hlength, rfl⟩
    exact Machine.isEncrypted_payload hlength

theorem isEncryptedVec_iff {v : Bytes} :
    isEncryptedVec v = true ↔
      ∃ payload, macBytes ≤ payload.length ∧ v = asBytes (storedText payload) := by
  constructor
  · intro h
    unfold isEncryptedVec at h
    split at h
    · cases h
    case isFalse hversion =>
      cases hdecode : Base64.decode (base64Chars (v.drop 2)) with
      | none => simp [hdecode] at h
      | some payload =>
        rw [hdecode] at h
        have hrest : v.drop 2 = Utf8.bytes (Base64.encode payload) := by
          refine base64Chars_injective ?_
          rw [base64Chars_encode, Base64.decode_eq_some_iff.mp hdecode]
        have htake : v.take 2 = asBytes "00" := by
          by_contra hne
          exact hversion (Or.inr hne)
        refine ⟨payload, by simpa using h, ?_⟩
        rw [asBytes_storedText, ← htake, ← hrest, take_append_drop]
  · rintro ⟨payload, hlength, rfl⟩
    have hne : payload ≠ [] := by
      rintro rfl
      simp [macBytes] at hlength
    obtain ⟨hlong, htake, hdrop⟩ := storedText_parts hne
    rw [isEncryptedVec, if_neg, hdrop, Base64.decode_encode]
    · simpa using hlength
    · rw [not_or, not_not]
      exact ⟨by omega, htake⟩

theorem isEncryptedVec_asBytes (s : String) : isEncryptedVec (asBytes s) = isEncrypted s := by
  rw [Bool.eq_iff_iff, isEncryptedVec_iff, isEncrypted_iff]
  constructor
  · rintro ⟨payload, hlength, heq⟩
    exact ⟨payload, hlength, asBytes_injective heq⟩
  · rintro ⟨payload, hlength, rfl⟩
    exact ⟨payload, hlength, rfl⟩

def legacyNonce : Nonce := ⟨List.replicate nonceBytes 0, length_replicate⟩

inductive SecretBox.SealedBy (box : SecretBox) (key data : Bytes) : Bytes → Prop
  | legacy : SealedBy box key data (box.sealBox key legacyNonce.1 data)
  /-- `FORMAT_V1`, the nonce and the box. -/
  | v1 (nonce : Nonce) :
      SealedBy box key data (formatV1 :: (nonce.1 ++ box.sealBox key nonce.1 data))

/-- Between these keys opening fails at everything it is tried at but a box of that key:
at a box of another key, at a whole payload of another key, and at what follows the first
bytes of a box. -/
structure SecretBox.Exact (box : SecretBox) (keys : Set Bytes) : Prop where
  otherKey : ∀ key ∈ keys, ∀ key' ∈ keys, key ≠ key' → ∀ (nonce nonce' : Nonce) data,
    box.openBox key' nonce'.1 (box.sealBox key nonce.1 data) = none
  otherPayload : ∀ key ∈ keys, ∀ key' ∈ keys, key ≠ key' → ∀ (nonce nonce' : Nonce) data,
    box.openBox key' nonce'.1 (formatV1 :: (nonce.1 ++ box.sealBox key nonce.1 data)) = none
  inside : ∀ key ∈ keys, ∀ key' ∈ keys, ∀ (nonce : Nonce) data,
    box.openBox key' (((box.sealBox key nonce.1 data).drop 1).take nonceBytes)
      ((box.sealBox key nonce.1 data).drop (1 + nonceBytes)) = none

namespace SecretBox

variable {box : SecretBox} {keys : Set Bytes} {key key' data payload : Bytes}

theorem SealedBy.macBytes_le (h : box.SealedBy key data payload) : macBytes ≤ payload.length := by
  cases h with
  | legacy =>
    rw [box.sealBox_length, macBytes]
    omega
  | v1 nonce =>
    rw [length_cons, length_append, box.sealBox_length, macBytes]
    omega

theorem SealedBy.ne_nil (h : box.SealedBy key data payload) : payload ≠ [] := by
  rintro rfl
  have := h.macBytes_le
  simp [macBytes] at this

theorem openPayload_v1 (nonce : Nonce) :
    box.openPayload (formatV1 :: (nonce.1 ++ box.sealBox key nonce.1 data)) key'
      = (box.openBox key' nonce.1 (box.sealBox key nonce.1 data)).or
          (box.openBox key' legacyNonce.1
            (formatV1 :: (nonce.1 ++ box.sealBox key nonce.1 data))) := by
  have hlength : 1 + nonceBytes + macBytes
      ≤ (formatV1 :: (nonce.1 ++ box.sealBox key nonce.1 data)).length := by
    rw [length_cons, length_append, nonce.2, box.sealBox_length, macBytes]
    omega
  have hguard : (formatV1 :: (nonce.1 ++ box.sealBox key nonce.1 data)).head? = some formatV1 ∧
      1 + nonceBytes + macBytes ≤ (formatV1 :: (nonce.1 ++ box.sealBox key nonce.1 data)).length :=
    ⟨rfl, hlength⟩
  rw [openPayload, if_pos hguard, Nat.add_comm, drop_succ_cons, drop_succ_cons,
    drop_zero, take_left' nonce.2, drop_left' nonce.2]
  cases box.openBox key' nonce.1 (box.sealBox key nonce.1 data) <;> rfl

theorem Exact.openPayload_legacy (hbox : box.Exact keys) (hkey : key ∈ keys)
    (hkey' : key' ∈ keys) :
    box.openPayload (box.sealBox key legacyNonce.1 data) key'
      = box.openBox key' legacyNonce.1 (box.sealBox key legacyNonce.1 data) := by
  rw [openPayload, hbox.inside key hkey key' hkey' legacyNonce data, ite_self]
  rfl

theorem Exact.openPayload_own (hbox : box.Exact keys) (hkey : key ∈ keys)
    (h : box.SealedBy key data payload) : box.openPayload payload key = some data := by
  cases h with
  | legacy => rw [hbox.openPayload_legacy hkey hkey, box.openBox_sealBox]
  | v1 nonce => rw [openPayload_v1, box.openBox_sealBox, Option.some_or]

theorem Exact.openPayload_other (hbox : box.Exact keys) (hkey : key ∈ keys) (hkey' : key' ∈ keys)
    (hne : key ≠ key') (h : box.SealedBy key data payload) :
    box.openPayload payload key' = none := by
  cases h with
  | legacy =>
    rw [hbox.openPayload_legacy hkey hkey', hbox.otherKey key hkey key' hkey' hne]
  | v1 nonce =>
    rw [openPayload_v1, hbox.otherKey key hkey key' hkey' hne nonce nonce,
      hbox.otherPayload key hkey key' hkey' hne, Option.none_or]

end SecretBox

namespace Machine

variable {m : Machine} {key data payload : Bytes} {nonce : Nonce} {s : String} {v : Bytes}
  {maxLen : Nat}

theorem symmetricDecrypt_sealedBy (hbox : m.box.Exact {k | k ∈ m.triedKeys})
    (hkey : key ∈ m.triedKeys) (h : m.box.SealedBy key data payload) :
    m.symmetricDecrypt payload = some data := by
  have hown : m.key ∈ m.triedKeys := mem_cons_self
  by_cases hm : key = m.key
  · subst hm
    rw [symmetricDecrypt, hbox.openPayload_own hown h]
  · have hfallback : m.fallbackKey = some key := by
      rcases mem_cons.mp hkey with heq | hmem
      · exact absurd heq hm
      · exact Option.mem_toList.mp hmem
    rw [symmetricDecrypt, hbox.openPayload_other hkey hown hm h]
    simp only [hfallback]
    exact hbox.openPayload_own hkey h

theorem sealedBy_symmetricEncrypt : m.box.SealedBy m.key data (m.symmetricEncrypt nonce data) :=
  .v1 nonce

theorem decryptStrOrOriginal_storedText (hne : payload ≠ [])
    (h : m.symmetricDecrypt payload = some data) :
    m.decryptStrOrOriginal (storedText payload) = (fromUtf8Lossy data, true, false) := by
  rw [storedText, decryptStrOrOriginal_payload hne, h]

theorem decryptVecOrOriginal_storedText (hne : payload ≠ [])
    (h : m.symmetricDecrypt payload = some data) :
    m.decryptVecOrOriginal (asBytes (storedText payload)) = (data, true, false) := by
  obtain ⟨hlong, htake, hdrop⟩ := storedText_parts hne
  have hversion : fromUtf8Lossy ((asBytes (storedText payload)).take 2) = "00" := by
    rw [htake, fromUtf8Lossy_asBytes]
  rw [decryptVecOrOriginal, if_pos ⟨hlong, hversion⟩, hdrop, decrypt_encode hne, h]

theorem encryptStrOrOriginal_cases (m : Machine) (nonce : Nonce)
    (hplain : isEncrypted s = false) (hlength : s.length ≤ maxLen) :
    (s = "" ∧ m.encryptStrOrOriginal nonce s maxLen = s) ∨
      m.encryptStrOrOriginal nonce s maxLen
        = storedText (m.symmetricEncrypt nonce (asBytes s)) := by
  by_cases hs : s = ""
  · subst hs
    refine Or.inl ⟨rfl, ?_⟩
    rw [encryptStrOrOriginal, hplain, if_neg Bool.false_ne_true, if_neg (by omega)]
    rfl
  · exact Or.inr (encryptStrOrOriginal_eq hplain hlength hs)

theorem encryptVecOrOriginal_cases (m : Machine) (nonce : Nonce)
    (hplain : isEncryptedVec v = false) (hlength : v.length ≤ maxLen) :
    (v = [] ∧ m.encryptVecOrOriginal nonce v maxLen = v) ∨
      m.encryptVecOrOriginal nonce v maxLen
        = asBytes (storedText (m.symmetricEncrypt nonce v)) := by
  rw [encryptVecOrOriginal, hplain, if_neg Bool.false_ne_true, if_neg (by omega)]
  by_cases hv : v = []
  · subst hv
    exact Or.inl ⟨rfl, rfl⟩
  · refine Or.inr ?_
    simp only [encrypt_eq_some hv]
    rw [asBytes_storedText, asBytes_ofList (Base64.encode _)]

theorem encryptStrOrOriginal_storedText (h : macBytes ≤ payload.length) :
    m.encryptStrOrOriginal nonce (storedText payload) maxLen = storedText payload := by
  rw [encryptStrOrOriginal, if_pos (isEncrypted_iff.mpr ⟨payload, h, rfl⟩)]

theorem encryptVecOrOriginal_storedText (h : macBytes ≤ payload.length) :
    m.encryptVecOrOriginal nonce (asBytes (storedText payload)) maxLen
      = asBytes (storedText payload) := by
  rw [encryptVecOrOriginal, if_pos (isEncryptedVec_iff.mpr ⟨payload, h, rfl⟩)]

/-- A text is kept when it is encrypted under some nonce: it decrypts to itself, needs no
storing again, and is not encrypted twice. -/
structure KeepsStr (m : Machine) (nonce : Nonce) (s : String) (maxLen : Nat) : Prop where
  first : (m.decryptStrOrOriginal (m.encryptStrOrOriginal nonce s maxLen)).1 = s
  noStore : (m.decryptStrOrOriginal (m.encryptStrOrOriginal nonce s maxLen)).2.2 = false
  again : ∀ nonce' maxLen', m.encryptStrOrOriginal nonce'
    (m.encryptStrOrOriginal nonce s maxLen) maxLen' = m.encryptStrOrOriginal nonce s maxLen

/-- What is stored opens again, and is not stored a second time. -/
structure KeepsVec (m : Machine) (nonce : Nonce) (v : Bytes) (maxLen : Nat) : Prop where
  first : (m.decryptVecOrOriginal (m.encryptVecOrOriginal nonce v maxLen)).1 = v
  noStore : (m.decryptVecOrOriginal (m.encryptVecOrOriginal nonce v maxLen)).2.2 = false
  again : ∀ nonce' maxLen', m.encryptVecOrOriginal nonce'
    (m.encryptVecOrOriginal nonce v maxLen) maxLen' = m.encryptVecOrOriginal nonce v maxLen

theorem keepsStr (hplain : isEncrypted s = false) (hlength : s.length ≤ maxLen) :
    KeepsStr m nonce s maxLen := by
  rcases encryptStrOrOriginal_cases m nonce hplain hlength with ⟨rfl, hsame⟩ | hstored
  · refine ⟨?_, ?_, fun nonce' maxLen' => ?_⟩
    · rw [hsame]
      rfl
    · rw [hsame]
      rfl
    · rw [hsame]
      rcases encryptStrOrOriginal_cases m nonce' hplain (Nat.zero_le maxLen') with ⟨-, h⟩ | h
      · exact h
      · rfl
  · have hdecrypt : m.symmetricDecrypt (m.symmetricEncrypt nonce (asBytes s)) = some (asBytes s) :=
      symmetricDecrypt_symmetricEncrypt
    have hopen := decryptStrOrOriginal_storedText symmetricEncrypt_ne_nil hdecrypt
    refine ⟨?_, ?_, fun nonce' maxLen' => ?_⟩
    · rw [hstored, hopen, fromUtf8Lossy_asBytes]
    · rw [hstored, hopen]
    · rw [hstored]
      exact encryptStrOrOriginal_storedText sealedBy_symmetricEncrypt.macBytes_le

theorem keepsVec (hplain : isEncryptedVec v = false) (hlength : v.length ≤ maxLen) :
    KeepsVec m nonce v maxLen := by
  rcases encryptVecOrOriginal_cases m nonce hplain hlength with ⟨rfl, hsame⟩ | hstored
  · refine ⟨?_, ?_, fun nonce' maxLen' => ?_⟩
    · rw [hsame]
      rfl
    · rw [hsame]
      rfl
    · rw [hsame]
      rfl
  · have hdecrypt : m.symmetricDecrypt (m.symmetricEncrypt nonce v) = some v :=
      symmetricDecrypt_symmetricEncrypt
    have hopen := decryptVecOrOriginal_storedText symmetricEncrypt_ne_nil hdecrypt
    refine ⟨?_, ?_, fun nonce' maxLen' => ?_⟩
    · rw [hstored, hopen]
    · rw [hstored, hopen]
    · rw [hstored]
      exact encryptVecOrOriginal_storedText sealedBy_symmetricEncrypt.macBytes_le

/-- **Stored secrets decrypt to themselves.**  Every text and every byte string that is
short enough and not already encrypted comes back as it was, under any nonce, is not
stored again and not encrypted twice; and every payload of either format, sealed under any
key that the machine tries, opens to its plaintext, alone and as it is stored. -/
theorem stored_secrets_open (m : Machine) (hbox : m.box.Exact {k | k ∈ m.triedKeys}) :
    (∀ nonce s maxLen, isEncrypted s = false → s.length ≤ maxLen → KeepsStr m nonce s maxLen) ∧
      (∀ nonce v maxLen, isEncryptedVec v = false → v.length ≤ maxLen → KeepsVec m nonce v maxLen) ∧
      ∀ key ∈ m.triedKeys, ∀ data payload, m.box.SealedBy key data payload →
        m.symmetricDecrypt payload = some data ∧
          m.decryptStrOrOriginal (storedText payload) = (fromUtf8Lossy data, true, false) ∧
          m.decryptVecOrOriginal (asBytes (storedText payload)) = (data, true, false) := by
  refine ⟨fun _ _ _ => keepsStr, fun _ _ _ => keepsVec, fun key hkey data payload h => ?_⟩
  have hopen := symmetricDecrypt_sealedBy hbox hkey h
  exact ⟨hopen, decryptStrOrOriginal_storedText h.ne_nil hopen,
    decryptVecOrOriginal_storedText h.ne_nil hopen⟩

end Machine

/-- The first bytes of a box: one more than the nonce begins with, one more than the tenth
byte of the text, and the first byte of the key. -/
def namedTag (key nonce data : Bytes) : Bytes :=
  [nonce.headD 0 + 1, data.getD 9 0 + 1, key.headD 0] ++ List.replicate 13 0

theorem namedTag_length (key nonce data : Bytes) : (namedTag key nonce data).length = macBytes :=
  rfl

theorem namedTag_append_length (key nonce data : Bytes) :
    (namedTag key nonce data ++ data).length = data.length + 16 := by
  rw [length_append, namedTag_length, macBytes]
  omega

theorem namedTag_opens (key nonce data : Bytes) :
    (if (namedTag key nonce data ++ data).take macBytes =
        namedTag key nonce ((namedTag key nonce data ++ data).drop macBytes) then
      some ((namedTag key nonce data ++ data).drop macBytes)
    else none) = some data := by
  rw [take_left' (namedTag_length ..), drop_left' (namedTag_length ..), if_pos rfl]

def namedSecretBox : SecretBox where
  sealBox key nonce data := namedTag key nonce data ++ data
  openBox key nonce sealed :=
    if sealed.take macBytes = namedTag key nonce (sealed.drop macBytes) then
      some (sealed.drop macBytes)
    else none
  sealBox_length key nonce data := namedTag_append_length key nonce data
  openBox_sealBox key nonce data := namedTag_opens key nonce data

theorem namedSecretBox_open_eq_none {key nonce sealed : Bytes}
    (h : sealed.take 3 ≠ [nonce.headD 0 + 1, (sealed.drop macBytes).getD 9 0 + 1, key.headD 0]) :
    namedSecretBox.openBox key nonce sealed = none := by
  refine if_neg fun heq => h ?_
  have hthree := congrArg (List.take 3) heq
  rwa [take_take] at hthree

theorem ne_add_two (b : UInt8) : b ≠ b + 1 + 1 := by
  intro h
  have := congrArg UInt8.toNat h
  simp only [UInt8.toNat_add, UInt8.reduceToNat] at this
  omega

theorem namedSecretBox_exact {keys : Set Bytes}
    (h : ∀ k ∈ keys, ∀ k' ∈ keys, k ≠ k' → k.headD 0 ≠ k'.headD 0) : namedSecretBox.Exact keys where
  otherKey key hkey key' hkey' hne nonce nonce' data := by
    refine namedSecretBox_open_eq_none fun heq => h key hkey key' hkey' hne ?_
    have hthird := congrArg (List.getD · 2 0) heq
    simpa [namedSecretBox, namedTag] using hthird
  otherPayload key hkey key' hkey' hne nonce nonce' data := by
    refine namedSecretBox_open_eq_none fun heq => ?_
    obtain ⟨nonce, hnonce⟩ := nonce
    cases nonce with
    | nil => cases hnonce
    | cons n ns =>
      -- The tenth byte behind the assumed tag is where the real box begins.
      have hlength : ns.length = 23 := by simpa [nonceBytes] using hnonce
      have hsecond := congrArg (List.getD · 1 0) heq
      simp [namedSecretBox, namedTag, macBytes, hlength] at hsecond
      exact ne_add_two n hsecond
  inside key hkey key' hkey' nonce data := by
    refine namedSecretBox_open_eq_none fun heq => ?_
    have hfirst := congrArg (List.getD · 0 0) heq
    simp [namedSecretBox, namedTag, macBytes, nonceBytes] at hfirst
    exact ne_add_two _ hfirst

def namedMachine : Machine := ⟨namedSecretBox, [1], some ([], [2]), false⟩

theorem namedMachine_exact : namedMachine.box.Exact {k | k ∈ namedMachine.triedKeys} := by
  have hkeys : namedMachine.triedKeys = [resizeKey [1], resizeKey [2]] := rfl
  refine namedSecretBox_exact fun k hk k' hk' hne => ?_
  simp only [hkeys, mem_cons, not_mem_nil, or_false, Set.mem_ofPred_eq] at hk hk'
  rcases hk with rfl | rfl <;> rcases hk' with rfl | rfl
  · exact absurd rfl hne
  · decide
  · decide
  · exact absurd rfl hne

/-- A text and its bytes on that machine, and an old box of the fallback key that begins
with the format byte and is long enough for the new format. -/
theorem stored_secrets_open_named :
    namedMachine.KeepsStr legacyNonce "1ü1111" 128 ∧
      namedMachine.KeepsVec legacyNonce (asBytes "1ü1111") 128 ∧
      namedMachine.symmetricDecrypt
          (namedSecretBox.sealBox (resizeKey [2]) legacyNonce.1 (List.replicate 30 7))
        = some (List.replicate 30 7) := by
  obtain ⟨hstr, hvec, hpayload⟩ := Machine.stored_secrets_open namedMachine namedMachine_exact
  refine ⟨hstr legacyNonce "1ü1111" 128 (by decide) (by decide),
    hvec legacyNonce (asBytes "1ü1111") 128 ?_ (by decide), ?_⟩
  · rw [isEncryptedVec_asBytes]
    decide
  · exact (hpayload (resizeKey [2]) (by decide) _ _ .legacy).1

end RustDesk
