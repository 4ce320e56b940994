import RustDesk.Config.PasswordSecurity

/-!
# Trusted devices

The devices that skip the second factor are kept twice: encrypted in `CONFIG2`, and as a
list in `TRUSTED_DEVICES`, which is empty until somebody asks.  Every operation reads the
list, works on its copy and writes the whole list back, and each of these is a step of
its own: other threads may act in between.

The file models the operations as programs of lock-protected steps and any number of
threads that run them.  A step may write over what another operation wrote since this
one began (`Current` excludes it).  Where no step does, a device that was revoked stays
revoked, no device gets lost, and the two lists agree whenever nothing is in progress.
-/

namespace RustDesk

open List

/-- How a list of devices is stored: as JSON, encrypted.  What does not `fit` into a
megabyte is not stored. -/
structure DeviceStore (σ : Type) where
  encode : Nonce → List TrustedDevice → σ
  decode : σ → Option (List TrustedDevice)
  fits : List TrustedDevice → Bool
  decode_encode : ∀ nonce devices, fits devices = true → decode (encode nonce devices) = some devices

/-- What `serde_json` does for lists of devices. -/
structure DeviceJson where
  toString : List TrustedDevice → String
  fromStr : String → Option (List TrustedDevice)
  fromStr_toString : ∀ devices, fromStr (toString devices) = some devices
  nonempty : ∀ devices, toString devices ≠ ""
  plain : ∀ devices, isEncrypted (toString devices) = false

theorem length_le_asBytes (s : String) : s.length ≤ (asBytes s).length := by
  rw [asBytes, Utf8.toUTF8_toList, ← String.length_toList]
  induction s.toList with
  | nil => exact Nat.le_refl _
  | cons c cs ih =>
    have hpos : 0 < (String.utf8EncodeChar c).length :=
      length_pos_of_ne_nil String.utf8EncodeChar_ne_nil
    rw [Utf8.bytes_cons, length_append, length_cons]
    omega

/-- The devices as this machine stores them in `CONFIG2`. -/
def Machine.deviceStore (m : Machine) (json : DeviceJson) : DeviceStore String where
  encode nonce devices := m.encryptStrOrOriginal nonce (json.toString devices) (1024 * 1024)
  decode stored :=
    match m.decryptStrOrOriginal stored with
    | (text, true, _) => some ((json.fromStr text).getD [])
    | (_, false, _) => none
  fits devices := (asBytes (json.toString devices)).length ≤ 1024 * 1024
  decode_encode nonce devices hfits := by
    have hlength := length_le_asBytes (json.toString devices)
    have hbytes : (asBytes (json.toString devices)).length ≤ 1024 * 1024 := by simpa using hfits
    rw [encryptStrOrOriginal_eq (json.plain devices) (by omega) (json.nonempty devices),
      decryptStrOrOriginal_payload symmetricEncrypt_ne_nil, symmetricDecrypt_symmetricEncrypt]
    simp only [fromUtf8Lossy_asBytes, json.fromStr_toString, Option.getD_some]

inductive DeviceCall where
  | get
  | add (device : TrustedDevice)
  | remove (hwids : List Bytes)
  | clear
  deriving DecidableEq

/-- The list that an operation writes back, from the list that it read; `get` writes none. -/
def DeviceCall.edit : DeviceCall → List TrustedDevice → Option (List TrustedDevice)
  | .get, _ => none
  | .add device, devices => some (devices.filter (·.hwid ≠ device.hwid) ++ [device])
  | .remove hwids, devices => some (devices.filter fun d => !hwids.contains d.hwid)
  | .clear, _ => some []

inductive DevicePc where
  /-- `get_trusted_devices`: read `CONFIG2`. -/
  | loading
  /-- `get_trusted_devices` calls `set_trusted_devices`: write `CONFIG2`. -/
  | refreshing (devices : List TrustedDevice)
  /-- Still in that call: write `TRUSTED_DEVICES`, with `CONFIG2` locked. -/
  | refreshed (devices pruned : List TrustedDevice)
  /-- `get_trusted_devices`: write `TRUSTED_DEVICES`. -/
  | caching (devices : List TrustedDevice)
  /-- `set_trusted_devices`: write `CONFIG2`. -/
  | writing (devices : List TrustedDevice)
  /-- `set_trusted_devices`: write `TRUSTED_DEVICES`, with `CONFIG2` locked. -/
  | written (devices : List TrustedDevice)

/-- Whether `CONFIG2` is locked here. -/
def DevicePc.locks : DevicePc → Bool
  | .refreshed .. | .written _ => true
  | _ => false

/-- Whether the operation is still in `get_trusted_devices`. -/
def DevicePc.asking : DevicePc → Bool
  | .writing _ | .written _ => false
  | _ => true

/-- An operation in progress.  The last two fields only record: how many writes there had
been when it began, and which devices were revoked then. -/
structure DeviceOp where
  call : DeviceCall
  pc : DevicePc
  seen : Nat
  revoked : Bytes → Bool

/-- What a `get_trusted_devices` returned, and which devices were revoked when it began. -/
structure DeviceAnswer where
  revoked : Bytes → Bool
  devices : List TrustedDevice

/-- `TRUSTED_DEVICES`, `CONFIG2`, and the operations of all threads.  The last three fields
only record: the number of writes, the devices that were removed or cleared and for which
`add_trusted_device` was not called since, and what was returned. -/
structure DeviceState (σ : Type) where
  cache : List TrustedDevice × Bool
  stored : σ
  lock : Option Nat
  ops : Nat → Option DeviceOp
  writes : Nat
  revoked : Bytes → Bool
  answers : List DeviceAnswer

inductive DeviceInput where
  | call (thread : Nat) (call : DeviceCall)
  | next (thread : Nat) (now : Int) (nonce : Nonce)

namespace DeviceState

open Run

variable {σ : Type} (v : DeviceStore σ) (s : DeviceState σ)

def withOp (t : Nat) (op : Option DeviceOp) : DeviceState σ :=
  { s with ops := Function.update s.ops t op }

/-- The end of `get_trusted_devices`, in an operation of its own or in another. -/
def gotDevices (t : Nat) (op : DeviceOp) (devices : List TrustedDevice) : DeviceState σ :=
  match op.call.edit devices with
  | some edited => s.withOp t (some { op with pc := .writing edited })
  | none => { s.withOp t none with answers := s.answers ++ [⟨op.revoked, devices⟩] }

/-- Calling `add_trusted_device` lifts the revocation of its device. -/
def lift : DeviceCall → Bytes → Bool
  | .add device => fun hwid => s.revoked hwid && hwid ≠ device.hwid
  | _ => s.revoked

def revoke : DeviceCall → Bytes → Bool
  | .remove hwids => fun hwid => s.revoked hwid || hwids.contains hwid
  | .clear => fun _ => true
  | _ => s.revoked

/-- The first step of an operation: all but `clear_trusted_devices` read
`TRUSTED_DEVICES`. -/
def begin (t : Nat) (call : DeviceCall) : DeviceState σ :=
  if call = .clear then s.withOp t (some ⟨call, .writing [], s.writes, s.revoked⟩)
  else
    let s := { s with revoked := s.lift call }
    if s.cache.2 then s.gotDevices t ⟨call, .loading, s.writes, s.revoked⟩ s.cache.1
    else s.withOp t (some ⟨call, .loading, s.writes, s.revoked⟩)

def prune (devices : List TrustedDevice) (now : Int) : List TrustedDevice :=
  devices.filter fun d => !d.outdate now

/-- `get_trusted_devices` reads `CONFIG2`. -/
def loadDevices (t : Nat) (op : DeviceOp) (now : Int) : DeviceState σ :=
  match v.decode s.stored with
  | none => s.gotDevices t op []
  | some devices =>
    let pruned := prune devices now
    let pc : DevicePc :=
      if pruned.length ≠ devices.length then .refreshing pruned else .caching pruned
    s.withOp t (some { op with pc := pc })

/-- `set_trusted_devices` writes `CONFIG2` and keeps it locked. -/
def writeStored (t : Nat) (op : DeviceOp) (devices : List TrustedDevice) (nonce : Nonce) :
    DeviceState σ :=
  { s.withOp t (some { op with seen := s.writes + 1 }) with
    stored := v.encode nonce devices
    lock := some t
    writes := s.writes + 1 }

/-- `set_trusted_devices` writes `TRUSTED_DEVICES` and returns. -/
def writeCache (t : Nat) (op : Option DeviceOp) (devices : List TrustedDevice) : DeviceState σ :=
  { s.withOp t op with
    cache := (devices, true)
    lock := none
    writes := s.writes + 1 }

/-- The next step of an operation; where it has to wait for `CONFIG2`, nothing happens. -/
def advance (t : Nat) (op : DeviceOp) (now : Int) (nonce : Nonce) : DeviceState σ :=
  match op.pc with
  | .loading => if s.lock ≠ none then s else s.loadDevices v t op now
  | .refreshing devices =>
    if s.lock ≠ none then s
    else if v.fits (prune devices now) then
      s.writeStored v t { op with pc := .refreshed devices (prune devices now) }
        (prune devices now) nonce
    else s.withOp t (some { op with pc := .caching devices })
  | .refreshed devices pruned =>
    s.writeCache t (some { op with pc := .caching devices, seen := s.writes + 1 }) pruned
  | .caching devices => { s with cache := (devices, true) }.gotDevices t op devices
  | .writing devices =>
    if s.lock ≠ none then s
    else if v.fits (prune devices now) then
      s.writeStored v t { op with pc := .written (prune devices now) } (prune devices now) nonce
    else s.withOp t none
  | .written devices => { s.writeCache t none devices with revoked := s.revoke op.call }

def step : DeviceInput → DeviceState σ
  | .call t call => if s.ops t = none then s.begin t call else s
  | .next t now nonce =>
    match s.ops t with
    | some op => s.advance v t op now nonce
    | none => s

def start (stored : σ) : DeviceState σ := ⟨([], false), stored, none, fun _ => none, 0,
  fun _ => false, []⟩

/-- Nobody has written since the operation read. -/
def Fresh (op : DeviceOp) : Prop := op.seen = s.writes

/-- The step writes over nothing that the operation did not see.  An operation that writes
the list back, or fills the cache, began after the last write of another; and what
`get_trusted_devices` stores after it dropped expired devices is what it will cache. -/
def Current : DeviceInput → Prop
  | .call .. => True
  | .next t now _ =>
    match s.ops t with
    | some op =>
      match op.pc with
      | .refreshing devices => s.lock = none →
          s.Fresh op ∧ prune devices now = devices ∧ v.fits devices = true
      | .caching _ => s.Fresh op
      | .writing _ => s.lock = none → op.call ≠ .clear → s.Fresh op
      | _ => True
    | none => True

/-- None of the devices is revoked. -/
def Avoids (revoked : Bytes → Bool) (devices : List TrustedDevice) : Prop :=
  ∀ d ∈ devices, revoked d.hwid = false

/-- **Revoked devices stay revoked.**  Nobody who asked after a removal was told a device
that it removed and that was not added again. -/
def StayRevoked : Prop := ∀ a ∈ s.answers, Avoids a.revoked a.devices

/-- **The lists agree.**  Whenever nothing is in progress, a list in memory is the list that
is stored. -/
def Agree : Prop :=
  (∀ t, s.ops t = none) → s.cache.2 = true → v.decode s.stored = some s.cache.1

def devices : List TrustedDevice :=
  if s.cache.2 then s.cache.1 else (v.decode s.stored).getD []

/-- **No device gets lost.**  Where a step of `add_trusted_device` stores a list, the other
devices there are, but for expired ones, are on it, and the added one is. -/
def KeepsOthers : DeviceInput → Prop
  | .call .. => True
  | .next t now nonce =>
    ∀ op device edited, s.ops t = some op → op.call = .add device → op.pc = .writing edited →
      s.lock = none → v.fits (prune edited now) = true →
        ∃ devices, v.decode (s.step v (.next t now nonce)).stored = some devices ∧
          (∀ d ∈ s.devices v, d.hwid ≠ device.hwid → d.outdate now = false → d ∈ devices) ∧
          (device.outdate now = false → device ∈ devices)

variable {v s} {t u : Nat} {op other : DeviceOp}

def Base (v : DeviceStore σ) (s : DeviceState σ) (base : List TrustedDevice) : Prop :=
  s.cache = (base, true) ∨ s.cache.2 = false ∧ v.decode s.stored = none ∧ base = []

def Knows (v : DeviceStore σ) (s : DeviceState σ) (op : DeviceOp) : Prop :=
  match op.pc with
  | .loading => True
  | .refreshing devices => s.Fresh op →
      s.lock = none ∧ ∃ loaded, v.decode s.stored = some loaded ∧ ∀ d ∈ devices, d ∈ loaded
  | .refreshed devices pruned => s.Fresh op ∧ pruned = devices ∧
      v.decode s.stored = some devices ∧ Avoids s.revoked devices
  | .caching devices => s.Fresh op → s.lock = none ∧ v.decode s.stored = some devices
  | .writing devices => op.call = .clear ∧ devices = [] ∨
      op.call ≠ .clear ∧ (s.Fresh op → ∃ base, op.call.edit base = some devices ∧ Base v s base)
  | .written devices => v.decode s.stored = some devices ∧ Avoids (s.revoke op.call) devices

structure OpGood (v : DeviceStore σ) (s : DeviceState σ) (t : Nat) (op : DeviceOp) : Prop where
  seen : op.seen ≤ s.writes
  locks : op.pc.locks = true ↔ s.lock = some t
  knows : Knows v s op
  asking : op.pc.asking = true → op.call ≠ .clear ∧ ∀ hwid, op.revoked hwid = false
  adding : ∀ device, op.call = .add device → s.Fresh op → s.revoked device.hwid = false

structure Good (v : DeviceStore σ) (s : DeviceState σ) : Prop where
  ops : ∀ t op, s.ops t = some op → OpGood v s t op
  owner : ∀ t, s.lock = some t → s.ops t ≠ none
  agree : s.lock = none → s.cache.2 = true → v.decode s.stored = some s.cache.1
  revoked : ∀ hwid, s.revoked hwid = true → s.cache.2 = true ∧ ∀ d ∈ s.cache.1, d.hwid ≠ hwid
  answers : s.StayRevoked

theorem OpGood.overtaken {s' : DeviceState σ} (h : OpGood v s u other)
    (hlocks : other.pc.locks = false) (hwrites : s.writes < s'.writes)
    (hlock : s'.lock ≠ some u) : OpGood v s' u other := by
  have hstale : ¬s'.Fresh other := by
    have hseen := h.seen
    unfold Fresh
    omega
  have hknows := h.knows
  refine ⟨by have := h.seen; omega, by simp [hlocks, hlock], ?_, h.asking,
    fun device _ hfresh => absurd hfresh hstale⟩
  unfold Knows at hknows ⊢
  cases hpc : other.pc with
  | loading => trivial
  | refreshing devices => exact fun hfresh => absurd hfresh hstale
  | refreshed devices pruned =>
    rw [hpc] at hlocks
    cases hlocks
  | caching devices => exact fun hfresh => absurd hfresh hstale
  | writing devices =>
    rw [hpc] at hknows
    exact hknows.imp_right fun ⟨hcall, _⟩ => ⟨hcall, fun hfresh => absurd hfresh hstale⟩
  | written devices =>
    rw [hpc] at hlocks
    cases hlocks

theorem OpGood.frame {s' : DeviceState σ} (h : OpGood v s u other) (hstored : s'.stored = s.stored)
    (hlock : s'.lock = s.lock) (hwrites : s'.writes = s.writes)
    (hrevoked : ∀ hwid, s'.revoked hwid = true → s.revoked hwid = true)
    (hbase : ∀ base, Base v s base → Base v s' base) : OpGood v s' u other := by
  have hfresh : s'.Fresh other ↔ s.Fresh other := by simp [Fresh, hwrites]
  have hlift : ∀ hwid, s.revoked hwid = false → s'.revoked hwid = false := by
    intro hwid hfalse
    cases hr : s'.revoked hwid with
    | false => rfl
    | true => rw [hrevoked hwid hr] at hfalse; cases hfalse
  have hknows := h.knows
  refine ⟨hwrites ▸ h.seen, hlock ▸ h.locks, ?_, h.asking,
    fun device hcall hf => hlift _ (h.adding device hcall (hfresh.mp hf))⟩
  unfold Knows at hknows ⊢
  cases hpc : other.pc with
  | loading => trivial
  | refreshing devices =>
    rw [hpc] at hknows
    rw [hlock, hstored]
    exact fun hf => hknows (hfresh.mp hf)
  | refreshed devices pruned =>
    rw [hpc] at hknows
    obtain ⟨hf, hpruned, hdecode, havoids⟩ := hknows
    exact ⟨hfresh.mpr hf, hpruned, hstored ▸ hdecode, fun d hd => hlift _ (havoids d hd)⟩
  | caching devices =>
    rw [hpc] at hknows
    rw [hlock, hstored]
    exact fun hf => hknows (hfresh.mp hf)
  | writing devices =>
    rw [hpc] at hknows
    refine hknows.imp_right fun ⟨hcall, hread⟩ => ⟨hcall, fun hf => ?_⟩
    obtain ⟨base, hedit, hb⟩ := hread (hfresh.mp hf)
    exact ⟨base, hedit, hbase base hb⟩
  | written devices =>
    rw [hpc] at hknows
    refine ⟨hstored ▸ hknows.1, fun d hd => ?_⟩
    have hd' := hknows.2 d hd
    unfold revoke at hd' ⊢
    cases hcall : other.call with
    | get => rw [hcall] at hd'; exact hlift _ hd'
    | add device => rw [hcall] at hd'; exact hlift _ hd'
    | remove hwids =>
      rw [hcall] at hd'
      simp only [Bool.or_eq_false_iff] at hd' ⊢
      exact ⟨hlift _ hd'.1, hd'.2⟩
    | clear => rw [hcall] at hd'; cases hd'

theorem Good.unlocked (h : Good v s) (hlock : s.lock = none ∨ s.lock = some t) (hne : u ≠ t)
    (hother : s.ops u = some other) : other.pc.locks = false := by
  cases hl : other.pc.locks with
  | false => rfl
  | true =>
    have howner := (h.ops u other hother).locks.mp hl
    rcases hlock with hlock | hlock
    · rw [hlock] at howner
      cases howner
    · rw [hlock] at howner
      exact absurd (Option.some.inj howner).symm hne

theorem withOp_ops_ne (hne : u ≠ t) (o : Option DeviceOp) : (s.withOp t o).ops u = s.ops u :=
  Function.update_of_ne hne _ _

theorem withOp_ops_self (o : Option DeviceOp) : (s.withOp t o).ops t = o :=
  Function.update_self ..

theorem Good.withOp (h : Good v s) {o : Option DeviceOp}
    (ho : ∀ op ∈ o, OpGood v s t op) (hlock : o = none → s.lock ≠ some t) :
    Good v (s.withOp t o) where
  ops u other hother := by
    by_cases hut : u = t
    · subst hut
      rw [withOp_ops_self] at hother
      exact (ho other hother).frame rfl rfl rfl (fun _ => id) (fun _ => id)
    · rw [withOp_ops_ne hut] at hother
      exact (h.ops u other hother).frame rfl rfl rfl (fun _ => id) (fun _ => id)
  owner u hu := by
    by_cases hut : u = t
    · subst hut
      rw [withOp_ops_self]
      exact fun hnone => hlock hnone hu
    · rw [withOp_ops_ne hut]
      exact h.owner u hu
  agree := h.agree
  revoked := h.revoked
  answers := h.answers

theorem Good.lock_of_idle (h : Good v s) (hidle : s.ops t = none) : s.lock ≠ some t :=
  fun hlock => h.owner t hlock hidle

theorem Good.avoids (h : Good v s) : Avoids s.revoked s.cache.1 := by
  intro d hd
  cases hr : s.revoked d.hwid with
  | false => rfl
  | true => exact absurd rfl ((h.revoked d.hwid hr).2 d hd)

theorem Good.gotDevices (h : Good v s) {devices : List TrustedDevice}
    (hcall : op.call ≠ .clear) (hseen : op.seen ≤ s.writes) (hlock : s.lock ≠ some t)
    (hbase : s.Fresh op → Base v s devices)
    (hadding : ∀ device, op.call = .add device → s.Fresh op → s.revoked device.hwid = false)
    (havoids : Avoids op.revoked devices) : Good v (s.gotDevices t op devices) := by
  unfold DeviceState.gotDevices
  cases hedit : op.call.edit devices with
  | some edited =>
    refine h.withOp (fun new hnew => ?_) (fun hnone => by cases hnone)
    obtain rfl := Option.some.inj hnew.symm
    refine ⟨hseen, by simp [DevicePc.locks, hlock], .inr ⟨hcall, fun hf => ?_⟩,
      fun hasking => (Bool.false_ne_true hasking).elim, hadding⟩
    exact ⟨devices, hedit, hbase hf⟩
  | none =>
    have hgood : Good v (s.withOp t none) :=
      h.withOp (fun new hnew => by cases hnew) (fun _ => hlock)
    refine ⟨fun u other hother => ?_, hgood.owner, hgood.agree, hgood.revoked, ?_⟩
    · exact (hgood.ops u other hother).frame rfl rfl rfl (fun _ => id) (fun _ => id)
    · intro a ha
      rcases mem_append.mp ha with ha | ha
      · exact h.answers a ha
      · obtain rfl := mem_singleton.mp ha
        exact havoids

theorem Good.lift (h : Good v s) (call : DeviceCall) :
    Good v { s with revoked := s.lift call } := by
  have hlift : ∀ hwid, s.lift call hwid = true → s.revoked hwid = true := by
    intro hwid
    cases call with
    | add device => exact fun hr => (Bool.and_eq_true_iff.mp hr).1
    | get => exact id
    | remove hwids => exact id
    | clear => exact id
  exact ⟨fun u other hother => (h.ops u other hother).frame rfl rfl rfl hlift (fun _ => id),
    h.owner, h.agree, fun hwid hr => h.revoked hwid (hlift hwid hr), h.answers⟩

theorem Good.begin (h : Good v s) (hidle : s.ops t = none) (call : DeviceCall) :
    Good v (s.begin t call) := by
  have hlock : s.lock ≠ some t := h.lock_of_idle hidle
  unfold DeviceState.begin
  split_ifs with hclear
  · subst hclear
    refine h.withOp (fun new hnew => ?_) (fun hnone => by cases hnone)
    obtain rfl := Option.some.inj hnew.symm
    exact ⟨Nat.le_refl _, by simp [DevicePc.locks, hlock], .inl ⟨rfl, rfl⟩,
      fun hasking => (Bool.false_ne_true hasking).elim, fun device hcall _ => nomatch hcall⟩
  · have hgood := h.lift call
    have hadding : ∀ device, call = .add device → s.lift call device.hwid = false := by
      rintro device rfl
      simp [DeviceState.lift]
    simp only
    split_ifs with hsynced
    · exact hgood.gotDevices hclear (Nat.le_refl _) hlock
        (fun _ => .inl (Prod.ext rfl hsynced)) (fun device hcall _ => hadding device hcall)
        hgood.avoids
    · refine hgood.withOp (fun new hnew => ?_) (fun hnone => by cases hnone)
      obtain rfl := Option.some.inj hnew.symm
      refine ⟨Nat.le_refl _, by simp [DevicePc.locks, hlock], trivial, fun _ => ⟨hclear, ?_⟩,
        fun device hcall _ => hadding device hcall⟩
      intro hwid
      by_contra hr
      exact hsynced (hgood.revoked hwid (Bool.eq_true_of_not_eq_false hr)).1

theorem Good.loadDevices (h : Good v s) (hop : s.ops t = some op) (hpc : op.pc = .loading)
    (hlock : s.lock = none) (now : Int) : Good v (s.loadDevices v t op now) := by
  obtain ⟨hseen, -, -, hasking, hadding⟩ := h.ops t op hop
  have hne : s.lock ≠ some t := by simp [hlock]
  rw [hpc] at hasking
  obtain ⟨hcall, hnone⟩ := hasking rfl
  unfold DeviceState.loadDevices
  cases hdecode : v.decode s.stored with
  | none =>
    refine h.gotDevices hcall hseen hne (fun _ => ?_) hadding (fun d hd => by cases hd)
    refine .inr ⟨?_, hdecode, rfl⟩
    cases hsynced : s.cache.2 with
    | false => rfl
    | true =>
      have hagree := h.agree hlock hsynced
      rw [hdecode] at hagree
      cases hagree
  | some devices =>
    simp only
    refine h.withOp (fun new hnew => ?_) (fun hnone => by cases hnone)
    obtain rfl := Option.some.inj hnew.symm
    by_cases hlength : (prune devices now).length = devices.length
    · have hpruned : prune devices now = devices := by
        rw [prune, filter_eq_self, ← length_filter_eq_length_iff]
        exact hlength
      simp only [hlength, ne_eq, not_true_eq_false, if_false]
      refine ⟨hseen, by simp [DevicePc.locks, hne], fun _ => ⟨hlock, ?_⟩, fun _ => ⟨hcall, hnone⟩,
        hadding⟩
      rw [hpruned]
      exact hdecode
    · simp only [ne_eq, hlength, not_false_eq_true, if_true]
      refine ⟨hseen, by simp [DevicePc.locks, hne], fun _ => ⟨hlock, devices, hdecode, ?_⟩,
        fun _ => ⟨hcall, hnone⟩, hadding⟩
      exact fun d hd => mem_of_mem_filter hd

variable {nonce : Nonce}

theorem Good.writeStored (h : Good v s) {devices : List TrustedDevice}
    (hlock : s.lock = none) (hlocks : op.pc.locks = true)
    (hknows : Knows v (s.writeStored v t op devices nonce) { op with seen := s.writes + 1 })
    (hasking : op.pc.asking = true → op.call ≠ .clear ∧ ∀ hwid, op.revoked hwid = false)
    (hadding : ∀ device, op.call = .add device → s.revoked device.hwid = false) :
    Good v (s.writeStored v t op devices nonce) where
  ops u other hother := by
    by_cases hut : u = t
    · subst hut
      have hop : (s.writeStored v u op devices nonce).ops u
          = some { op with seen := s.writes + 1 } := withOp_ops_self _
      obtain rfl := Option.some.inj (hop.symm.trans hother)
      exact ⟨Nat.le_refl _, by simp [hlocks, DeviceState.writeStored], hknows, hasking,
        fun device hcall _ => hadding device hcall⟩
    · have hsame : (s.writeStored v t op devices nonce).ops u = s.ops u := withOp_ops_ne hut _
      rw [hsame] at hother
      exact (h.ops u other hother).overtaken (h.unlocked (.inl hlock) hut hother)
        (Nat.lt_succ_self _) (by simpa [DeviceState.writeStored] using Ne.symm hut)
  owner u hu := by
    obtain rfl : t = u := Option.some.inj hu
    have hop : (s.writeStored v t op devices nonce).ops t
        = some { op with seen := s.writes + 1 } := withOp_ops_self _
    rw [hop]
    exact Option.some_ne_none _
  agree hnone := nomatch hnone
  revoked := h.revoked
  answers := h.answers

theorem Good.writeCache (h : Good v s) {devices : List TrustedDevice} {o : Option DeviceOp}
    {revoked : Bytes → Bool} (hlock : s.lock = some t) (hdecode : v.decode s.stored = some devices)
    (havoids : Avoids revoked devices)
    (ho : ∀ op ∈ o, OpGood v { s.writeCache t o devices with revoked := revoked } t op) :
    Good v { s.writeCache t o devices with revoked := revoked } where
  ops u other hother := by
    by_cases hut : u = t
    · subst hut
      have hop : (s.writeCache u o devices).ops u = o := withOp_ops_self _
      exact ho other (hop.symm.trans hother)
    · have hsame : (s.writeCache t o devices).ops u = s.ops u := withOp_ops_ne hut _
      exact (h.ops u other (hsame.symm.trans hother)).overtaken
        (h.unlocked (.inr hlock) hut (hsame.symm.trans hother)) (Nat.lt_succ_self _) (nofun)
  owner u hu := nomatch hu
  agree _ _ := hdecode
  revoked hwid hr := by
    refine ⟨rfl, fun d hd heq => ?_⟩
    have hfalse := havoids d hd
    rw [heq] at hfalse
    exact Bool.false_ne_true (hfalse.symm.trans hr)
  answers := h.answers

theorem Good.cacheStored (h : Good v s) {devices : List TrustedDevice} (hnone : s.lock = none)
    (hdecode : v.decode s.stored = some devices) : Good v { s with cache := (devices, true) } := by
  have hsame : s.cache.2 = true → s.cache.1 = devices := by
    intro hsynced
    have hagree := h.agree hnone hsynced
    rw [hdecode] at hagree
    exact (Option.some.inj hagree).symm
  refine ⟨fun u other hother => ?_, h.owner, fun _ _ => hdecode, fun hwid hr => ?_, h.answers⟩
  · refine (h.ops u other hother).frame rfl rfl rfl (fun _ => id) fun base hbase => ?_
    rcases hbase with hcache | ⟨-, hundecoded, -⟩
    · refine .inl ?_
      have heq := hsame (by rw [hcache])
      rw [hcache] at heq
      exact congrArg (·, true) heq.symm
    · rw [hdecode] at hundecoded
      cases hundecoded
  · obtain ⟨hsynced, hout⟩ := h.revoked hwid hr
    rw [hsame hsynced] at hout
    exact ⟨rfl, hout⟩

theorem Good.edit_avoids (h : Good v s) {base edited : List TrustedDevice}
    (hbase : Base v s base) (hedit : op.call.edit base = some edited)
    (hadding : ∀ device, op.call = .add device → s.revoked device.hwid = false) :
    Avoids (s.revoke op.call) edited := by
  have hold : Avoids s.revoked base := by
    rcases hbase with hcache | ⟨-, -, rfl⟩
    · have havoids := h.avoids
      rw [hcache] at havoids
      exact havoids
    · exact fun d hd => by cases hd
  intro d hd
  cases hcall : op.call with
  | get => rw [hcall] at hedit; cases hedit
  | add device =>
    rw [hcall] at hedit
    cases hedit
    rcases mem_append.mp hd with hd | hd
    · exact hold d (mem_of_mem_filter hd)
    · obtain rfl := mem_singleton.mp hd
      exact hadding d hcall
  | remove hwids =>
    rw [hcall] at hedit
    cases hedit
    obtain ⟨hd, hout⟩ := mem_filter.mp hd
    simp only [revoke, Bool.or_eq_false_iff]
    exact ⟨hold d hd, by simpa using hout⟩
  | clear =>
    rw [hcall] at hedit
    cases hedit
    cases hd

theorem Good.advance (h : Good v s) (hop : s.ops t = some op) {now : Int}
    (hcurrent : s.Current v (.next t now nonce)) : Good v (s.advance v t op now nonce) := by
  obtain ⟨hseen, hlocks, hknows, hasking, hadding⟩ := h.ops t op hop
  unfold DeviceState.advance
  simp only [Current, hop] at hcurrent
  unfold Knows at hknows
  cases hpc : op.pc with
  | loading =>
    simp only
    split_ifs with hlock
    · exact h
    · exact h.loadDevices hop hpc (by simpa using hlock) now
  | refreshing devices =>
    simp only [hpc] at hcurrent hknows hasking ⊢
    split_ifs with hlock hfits
    · exact h
    · have hnone : s.lock = none := by simpa using hlock
      obtain ⟨hfresh, hpruned, -⟩ := hcurrent hnone
      obtain ⟨-, loaded, hloaded, hsub⟩ := hknows hfresh
      refine h.writeStored hnone rfl ⟨rfl, hpruned, ?_, ?_⟩ (fun _ => hasking rfl)
        (fun device hcall => hadding device hcall hfresh)
      · have hdecode := v.decode_encode nonce _ hfits
        rwa [hpruned] at hdecode ⊢
      · intro d hd
        by_contra hr
        obtain ⟨hsynced, hout⟩ := h.revoked d.hwid (Bool.eq_true_of_not_eq_false hr)
        have hagree := h.agree hnone hsynced
        rw [hloaded] at hagree
        exact hout d (Option.some.inj hagree ▸ hsub d hd) rfl
    · obtain ⟨-, hpruned, hfit⟩ := hcurrent (by simpa using hlock)
      exact absurd (hpruned.symm ▸ hfit) hfits
  | refreshed devices pruned =>
    simp only [hpc] at hknows hasking hlocks ⊢
    obtain ⟨hfresh, rfl, hdecode, havoids⟩ := hknows
    refine h.writeCache (hlocks.mp rfl) hdecode havoids fun new hnew => ?_
    obtain rfl := Option.some.inj hnew.symm
    exact ⟨Nat.le_refl _, by simp [DevicePc.locks, DeviceState.writeCache],
      fun _ => ⟨rfl, hdecode⟩, fun _ => hasking rfl,
      fun device hcall _ => hadding device hcall hfresh⟩
  | caching devices =>
    simp only [hpc] at hcurrent hknows hasking hlocks ⊢
    obtain ⟨hnone, hdecode⟩ := hknows hcurrent
    have hgood := h.cacheStored hnone hdecode
    exact hgood.gotDevices (hasking rfl).1 hseen (by simp [hnone]) (fun _ => .inl rfl) hadding
      (fun d _ => (hasking rfl).2 d.hwid)
  | writing devices =>
    simp only [hpc] at hcurrent hknows ⊢
    split_ifs with hlock hfits
    · exact h
    · have hnone : s.lock = none := by simpa using hlock
      have hedited : Avoids (s.revoke op.call) devices := by
        rcases hknows with ⟨-, rfl⟩ | ⟨hcall, hread⟩
        · exact fun d hd => by cases hd
        · have hfresh := hcurrent hnone hcall
          obtain ⟨base, hedit, hbase⟩ := hread hfresh
          exact h.edit_avoids hbase hedit fun device hadd => hadding device hadd hfresh
      refine h.writeStored hnone rfl ⟨v.decode_encode nonce _ hfits, ?_⟩
        (fun hask => (Bool.false_ne_true hask).elim) ?_
      · exact fun d hd => hedited d (mem_of_mem_filter hd)
      · intro device hcall
        exact hadding device hcall (hcurrent hnone (by rw [show op.call = _ from hcall]; nofun))
    · exact h.withOp (fun new hnew => by cases hnew) (fun _ => by
        rw [show s.lock = none by simpa using hlock]; nofun)
  | written devices =>
    simp only [hpc] at hknows hlocks ⊢
    exact h.writeCache (hlocks.mp rfl) hknows.1 hknows.2 fun new hnew => by cases hnew

theorem Good.step (h : Good v s) {i : DeviceInput} (hcurrent : s.Current v i) :
    Good v (s.step v i) := by
  cases i with
  | call t call =>
    simp only [DeviceState.step]
    split_ifs with hidle
    · exact h.begin hidle call
    · exact h
  | next t now nonce =>
    simp only [DeviceState.step]
    cases hop : s.ops t with
    | none => exact h
    | some op => exact h.advance hop hcurrent

theorem start_good (stored : σ) : Good v (start stored) where
  ops _ _ hop := nomatch hop
  owner _ hlock := nomatch hlock
  agree _ hsynced := nomatch hsynced
  revoked _ hr := nomatch hr
  answers _ ha := nomatch ha

theorem step_stored {edited : List TrustedDevice} {now : Int}
    (hop : s.ops t = some op) (hpc : op.pc = .writing edited) (hlock : s.lock = none)
    (hfits : v.fits (prune edited now) = true) :
    (s.step v (.next t now nonce)).stored = v.encode nonce (prune edited now) := by
  simp only [step, hop, advance, hpc, hlock, ne_eq, not_true_eq_false, if_false, hfits, if_true]
  rfl

theorem Base.devices {base : List TrustedDevice} (h : Base v s base) : s.devices v = base := by
  unfold DeviceState.devices
  rcases h with hcache | ⟨hunsynced, hdecode, rfl⟩
  · rw [hcache]
    rfl
  · rw [hunsynced, hdecode]
    rfl

theorem Good.keepsOthers (h : Good v s) {i : DeviceInput} (hcurrent : s.Current v i) :
    s.KeepsOthers v i := by
  cases i with
  | call t call => trivial
  | next t now nonce =>
    intro op device edited hop hcall hpc hlock hfits
    have hknows := (h.ops t op hop).knows
    simp only [Current, hop, hpc] at hcurrent
    simp only [Knows, hpc, hcall] at hknows
    have hfresh := hcurrent hlock (by rw [hcall]; nofun)
    obtain ⟨base, hedit, hbase⟩ : ∃ base, (DeviceCall.add device).edit base = some edited ∧
        Base v s base := by
      rcases hknows with ⟨hclear, -⟩ | ⟨-, hread⟩
      · cases hclear
      · exact hread hfresh
    have hdecode := v.decode_encode nonce _ hfits
    rw [← step_stored hop hpc hlock hfits] at hdecode
    cases hedit
    refine ⟨_, hdecode, fun d hd hne hvalid => ?_, fun hvalid => ?_⟩
    · rw [hbase.devices] at hd
      refine mem_filter.mpr ⟨mem_append_left _ ?_, by simp [hvalid]⟩
      exact mem_filter.mpr ⟨hd, by simpa using hne⟩
    · exact mem_filter.mpr ⟨mem_append_right _ (mem_singleton_self _),
        by simp [hvalid]⟩

theorem Good.lists_agree (h : Good v s) : s.Agree v := by
  intro hidle hsynced
  refine h.agree ?_ hsynced
  cases hlock : s.lock with
  | none => rfl
  | some t => exact absurd (hidle t) (h.owner t hlock)

/-- **Trusted devices stay revoked.**  Along every run in which no operation writes over
what it did not see: nobody who asks after a removal is told a device that it removed,
unless the device was added since; no addition loses another device; and the two lists
agree whenever nothing is in progress. -/
theorem devices_stay_revoked (v : DeviceStore σ) (stored : σ) (is : List DeviceInput)
    (h : Along (step v) (Current v) (start stored) is) :
    Always (step v) (fun s => s.StayRevoked ∧ s.Agree v) (start stored) is ∧
      Along (step v) (KeepsOthers v) (start stored) is := by
  have hgood : Always (step v) (Good v) (start stored) is :=
    always_of_along (fun s i hs hcurrent => hs.step hcurrent) (start_good stored) h
  refine ⟨fun pre hpre => ⟨(hgood pre hpre).answers, (hgood pre hpre).lists_agree⟩, ?_⟩
  exact Along.of_invariant (fun s i hs hcurrent => hs.step hcurrent)
    (fun s i hs hcurrent => hs.keepsOthers hcurrent) (start_good stored) h

def openStore : DeviceStore (Option (List TrustedDevice)) where
  encode _ devices := some devices
  decode stored := stored
  fits _ := true
  decode_encode _ _ _ := rfl

def phone : TrustedDevice := ⟨[1], 0, "phone", "", ""⟩

def laptop : TrustedDevice := ⟨[2], 0, "laptop", "", ""⟩

def goes (t : Nat) : DeviceInput := .next t 0 ⟨List.replicate 24 0, length_zeros⟩

def oneAfterAnother : List DeviceInput :=
  [.call 1 (.add phone), goes 1, goes 1, goes 1, .call 2 (.remove [[1]]), goes 2, goes 2,
    .call 3 .get]

/-- One operation after another: the phone that was removed is not told. -/
theorem removed_phone_not_told :
    Along (step openStore) (Current openStore) (start none) oneAfterAnother ∧
      (exec (step openStore) (start none) oneAfterAnother).StayRevoked := by
  have h : Along (step openStore) (Current openStore) (start none) oneAfterAnother :=
    ⟨trivial, trivial, fun _ _ => rfl, trivial, trivial, fun _ _ => rfl, trivial, trivial, trivial⟩
  exact ⟨h, ((devices_stay_revoked openStore none oneAfterAnother h).1 oneAfterAnother
    (prefix_refl _)).1⟩

def overlapping : List DeviceInput :=
  [.call 1 (.add phone), goes 1, goes 1, goes 1, .call 2 (.add laptop), .call 3 (.remove [[1]]),
    goes 3, goes 3, goes 2, goes 2, .call 4 .get]

/-- Adding the laptop brings the phone back. -/
theorem removed_phone_told : ¬(exec (step openStore) (start none) overlapping).StayRevoked := by
  intro h
  have hanswers : (exec (step openStore) (start none) overlapping).answers
      = [⟨(exec (step openStore) (start none) overlapping).revoked, [phone, laptop]⟩] := rfl
  have hrevoked : (exec (step openStore) (start none) overlapping).revoked phone.hwid = true := rfl
  have havoids := h _ (by rw [hanswers]; exact mem_singleton_self _) phone (mem_cons_self ..)
  exact Bool.false_ne_true (havoids.symm.trans hrevoked)

end DeviceState
end RustDesk
