import RustDesk.Basic
import RustDesk.Lib.CheckedArith

/-!
# Mangled addresses

Some routers replace addresses they know in the packets they pass on, so an address is
mangled before it is sent.  An IPv4 address, the time and the port are packed into one
number of 128 bits, the time on its own and added to both of the others; the bytes are sent
without the zeros at the end.  An IPv6 address is sent as it is.
-/

open CheckedArith LittleEndian

namespace RustDesk

structure Ipv4Addr where
  octets : Bytes
  length_octets : octets.length = 4
  deriving DecidableEq

structure Ipv6Addr where
  octets : Bytes
  length_octets : octets.length = 16
  deriving DecidableEq

namespace Ipv6Addr

def isLoopback (ip : Ipv6Addr) : Bool := ip.octets = List.replicate 15 0 ++ [1]

/-- `Ipv6Addr::to_ipv4`: an address of IPv4 that is mapped or compatible. -/
def toIpv4 (ip : Ipv6Addr) : Option Ipv4Addr :=
  if ip.octets.take 12 = List.replicate 10 0 ++ [0xFF, 0xFF] ∨
      ip.octets.take 12 = List.replicate 12 0 then
    some ⟨ip.octets.drop 12, by rw [List.length_drop, ip.length_octets]⟩
  else none

end Ipv6Addr

inductive SocketAddr where
  | v4 (ip : Ipv4Addr) (port : UInt16)
  | v6 (ip : Ipv6Addr) (port : UInt16) (flowinfo scopeId : UInt32)
  deriving DecidableEq

def tryIntoV4 (addr : SocketAddr) : SocketAddr :=
  match addr with
  | .v6 ip port _ _ =>
    if !ip.isLoopback then
      match ip.toIpv4 with
      | some v4 => .v4 v4 port
      | none => addr
    else addr
  | .v4 _ _ => addr

namespace AddrMangle

def shl (n k : Nat) : Nat := n <<< k % 2 ^ 128

/-- `AddrMangle::encode`, at a time in microseconds. -/
def encode (micros : Nat) (addr : SocketAddr) : Except Trap Bytes :=
  match tryIntoV4 addr with
  | .v4 ip port => do
      let tm := micros % 2 ^ 32
      let sum ← add 128 (leNumber ip.octets) tm
      let low ← add 128 port.toNat (tm &&& 0xFFFF)
      let v := shl sum 49 ||| shl tm 17 ||| low
      let bytes := leBytes v 16
      let nPadding := (bytes.reverse.takeWhile (· = 0)).length
      slice (16 - nPadding) bytes
  | .v6 ip port _ _ => .ok (ip.octets ++ leBytes port.toNat 2)

/-- `Config::get_any_listen_addr` for IPv6. -/
def anyListenAddr : SocketAddr := .v6 ⟨List.replicate 16 0, List.length_replicate⟩ 0 0 0

def decode (bytes : Bytes) : Except Trap SocketAddr :=
  if 16 < bytes.length then
    if h : bytes.length = 18 then
      .ok (.v6 ⟨bytes.take 16, by rw [List.length_take, h]; rfl⟩
        (UInt16.ofNat (leNumber (bytes.drop 16))) 0 0)
    else .ok anyListenAddr
  else do
    let padded := bytes ++ List.replicate (16 - bytes.length) 0
    let number := leNumber padded
    let tm := number >>> 17 &&& (2 ^ 32 - 1)
    let ip ← sub (number >>> 49) tm
    let port ← sub (number &&& 0xFFFFFF) (tm &&& 0xFFFF)
    return .v4 ⟨leBytes (ip % 2 ^ 32) 4, length_leBytes _ _⟩ (UInt16.ofNat port)

theorem packed_eq {sum tm low : Nat} (hsum : sum < 2 ^ 33) (htm : tm < 2 ^ 32)
    (hlow : low < 2 ^ 17) :
    shl sum 49 ||| shl tm 17 ||| low = sum * 2 ^ 49 + tm * 2 ^ 17 + low := by
  have hhigh : shl sum 49 = sum <<< 49 := by
    rw [shl, Nat.shiftLeft_eq]
    omega
  have hmiddle : shl tm 17 = tm <<< 17 := by
    rw [shl, Nat.shiftLeft_eq]
    omega
  have htime : tm <<< 17 < 2 ^ 49 := by
    rw [Nat.shiftLeft_eq]
    omega
  have hparts : sum <<< 49 ||| tm <<< 17 = (sum * 2 ^ 32 + tm) <<< 17 := by
    rw [← Nat.shiftLeft_add_eq_or_of_lt htime, Nat.shiftLeft_eq, Nat.shiftLeft_eq, Nat.shiftLeft_eq]
    omega
  rw [hhigh, hmiddle, hparts, ← Nat.shiftLeft_add_eq_or_of_lt hlow, Nat.shiftLeft_eq]
  omega

theorem leNumber_sent {v : Nat} (hv : v < 2 ^ 128) {bytes : Bytes} (h : bytes = leBytes v 16) :
    leNumber (bytes.take (16 - (bytes.reverse.takeWhile (· = 0)).length)) = v := by
  have hlength : bytes.length = 16 := by rw [h, length_leBytes]
  have hfill := take_append_zeros bytes
  rw [hlength] at hfill
  rw [← leNumber_append_zeros, hfill, h, leNumber_leBytes]
  omega

theorem high_part {high low k : Nat} (h : low < 2 ^ k) : (high * 2 ^ k + low) >>> k = high := by
  rw [Nat.shiftRight_eq_div_pow, Nat.add_comm, Nat.add_mul_div_right low high (Nat.two_pow_pos k),
    Nat.div_eq_of_lt h, Nat.zero_add]

theorem decode_packed {bytes : Bytes} (hbytes : bytes.length ≤ 16) {ip port tm : Nat}
    (hip : ip < 2 ^ 32) (hport : port < 2 ^ 16) (htm : tm < 2 ^ 32)
    (h : leNumber bytes = (ip + tm) * 2 ^ 49 + tm * 2 ^ 17 + (port + tm % 2 ^ 16)) :
    decode bytes = .ok (.v4 ⟨leBytes ip 4, length_leBytes _ _⟩ (UInt16.ofNat port)) := by
  have hmask (n : Nat) : n &&& 0xFFFF = n % 2 ^ 16 := Nat.and_two_pow_sub_one_eq_mod n 16
  have hmask24 (n : Nat) : n &&& 0xFFFFFF = n % 2 ^ 24 := Nat.and_two_pow_sub_one_eq_mod n 24
  have hlow : port + tm % 2 ^ 16 < 2 ^ 17 := by omega
  have htime : leNumber bytes >>> 17 &&& (2 ^ 32 - 1) = tm := by
    have hparts : leNumber bytes = ((ip + tm) * 2 ^ 32 + tm) * 2 ^ 17 + (port + tm % 2 ^ 16) := by
      rw [h, Nat.add_mul _ tm (2 ^ 17), Nat.mul_assoc, ← Nat.pow_add]
    rw [hparts, high_part hlow, Nat.and_two_pow_sub_one_eq_mod]
    omega
  have haddress : leNumber bytes >>> 49 = ip + tm := by
    rw [h, Nat.add_assoc]
    exact high_part (by omega)
  -- the mask is wider than the port and its sum with the time: seven bits of the time
  -- come with them, and are cut off with the port
  have hcut : leNumber bytes % 2 ^ 24 - tm % 2 ^ 16 = tm % 2 ^ 7 * 2 ^ 17 + port := by
    omega
  have hbelow : tm % 2 ^ 16 ≤ leNumber bytes % 2 ^ 24 := by omega
  have hport' : UInt16.ofNat (tm % 2 ^ 7 * 2 ^ 17 + port) = UInt16.ofNat port := by
    apply UInt16.toNat_inj.mp
    rw [UInt16.toNat_ofNat', UInt16.toNat_ofNat']
    omega
  have hip' : (ip + tm - tm) % 2 ^ 32 = ip := by omega
  unfold decode
  rw [if_neg (by omega)]
  dsimp only
  rw [leNumber_append_zeros, htime, haddress, sub_ok (by omega), ok_bind, hmask, hmask24,
    sub_ok hbelow, ok_bind, hcut]
  simp only [hip', hport']
  rfl

theorem decode_v6 (ip : Ipv6Addr) (port : UInt16) :
    decode (ip.octets ++ leBytes port.toNat 2) = .ok (.v6 ip port 0 0) := by
  have hlength : (ip.octets ++ leBytes port.toNat 2).length = 18 := by
    rw [List.length_append, ip.length_octets, length_leBytes]
  have htake : (ip.octets ++ leBytes port.toNat 2).take 16 = ip.octets :=
    List.take_left' ip.length_octets
  have hdrop : (ip.octets ++ leBytes port.toNat 2).drop 16 = leBytes port.toNat 2 :=
    List.drop_left' ip.length_octets
  have hport : UInt16.ofNat (leNumber (leBytes port.toNat 2)) = port := by
    have hlt := port.toNat_lt
    rw [leNumber_leBytes, Nat.mod_eq_of_lt (by omega)]
    exact UInt16.ofNat_toNat
  unfold decode
  rw [if_pos (by omega), dif_pos hlength]
  simp only [htake, hdrop, hport]

theorem tryIntoV4_v6 {addr : SocketAddr} {ip : Ipv6Addr} {port : UInt16}
    {flowinfo scopeId : UInt32} (h : tryIntoV4 addr = .v6 ip port flowinfo scopeId) :
    addr = .v6 ip port flowinfo scopeId := by
  unfold tryIntoV4 at h
  split at h
  · split at h
    · split at h
      · cases h
      · exact h
    · exact h
  · cases h

/-- **Mangled addresses decode to the address they came from**, as an address of IPv4 if
it is one, and nothing underflows on the way. -/
theorem decode_encode_addr (micros : Nat) (addr : SocketAddr)
    (hplain : ∀ ip port flowinfo scopeId, addr = .v6 ip port flowinfo scopeId →
      flowinfo = 0 ∧ scopeId = 0) :
    (encode micros addr >>= decode) = .ok (tryIntoV4 addr) := by
  unfold encode
  split
  · rename_i ip port haddr
    have hip := leNumber_lt ip.octets
    rw [ip.length_octets] at hip
    have hport := port.toNat_lt
    have htm : micros % 2 ^ 32 < 2 ^ 32 := Nat.mod_lt _ (by decide)
    have hmask (n : Nat) : n &&& 0xFFFF = n % 2 ^ 16 := Nat.and_two_pow_sub_one_eq_mod n 16
    have hoctets := leBytes_leNumber ip.octets
    rw [ip.length_octets] at hoctets
    dsimp only
    rw [add_ok (by omega), ok_bind, hmask, add_ok (by omega), ok_bind,
      packed_eq (by omega) (by omega) (by omega), slice_ok (by rw [length_leBytes]; omega),
      ok_bind, decode_packed ?_ hip hport htm (leNumber_sent (by omega) rfl)]
    · simp only [hoctets, UInt16.ofNat_toNat, haddr]
    · rw [List.length_take]
      omega
  · rename_i ip port flowinfo scopeId haddr
    obtain ⟨rfl, rfl⟩ := hplain ip port flowinfo scopeId (tryIntoV4_v6 haddr)
    rw [ok_bind, decode_v6, haddr]

/-- `192.168.16.32:21116` and a time at which the port and the time exceed 16 bits, and
an address of IPv4 that is mapped into IPv6. -/
theorem decode_encode_mapped :
    (encode 0xF000 (.v4 ⟨[192, 168, 16, 32], rfl⟩ 21116) >>= decode) =
        .ok (.v4 ⟨[192, 168, 16, 32], rfl⟩ 21116) ∧
      (encode 1 (.v6 ⟨List.replicate 10 0 ++ [0xFF, 0xFF, 127, 0, 0, 1], rfl⟩ 8080 0 0) >>=
        decode) = .ok (.v4 ⟨[127, 0, 0, 1], rfl⟩ 8080) := by
  refine ⟨decode_encode_addr 0xF000 _ nofun, (decode_encode_addr 1 _ ?_).trans (by decide)⟩
  intro ip port flowinfo scopeId h
  cases h
  exact ⟨rfl, rfl⟩

end AddrMangle
end RustDesk
