import Atlas.Urls
import Mathlib.Data.BitVec

/-!
# Addresses a crawler may not connect to

`_is_blocked_ip` rests on `ipaddress` of the standard library (CPython 3.12.9 and later): how an
address is read from a text, the networks that are not globally reachable, and the
multicast networks.  Both tables stand here as the library has them, since the guard is
only worth what they contain.

An IPv4 address that comes wrapped in an IPv6 one is judged as the address it wraps.
-/

namespace Atlas

namespace IpAddresses

open Cuts Urls

/-- A network: the addresses that agree with `address` in the first `length` bits. -/
structure IpNetwork (w : Nat) where
  address : BitVec w
  length : Nat
deriving DecidableEq, Repr

namespace IpNetwork

variable {w : Nat}

/-- `netmask`. -/
def mask (net : IpNetwork w) : BitVec w := BitVec.allOnes w <<< (w - net.length)

/-- `address in network`. -/
def contains (net : IpNetwork w) (a : BitVec w) : Bool := a &&& net.mask == net.address

/-- No address is in both networks: they differ where both fix the bits. -/
def disjoint (net net' : IpNetwork w) : Bool :=
  net.address &&& net'.mask != net'.address &&& net.mask

theorem not_contains_of_disjoint {net net' : IpNetwork w} (h : net.disjoint net' = true)
    {a : BitVec w} (ha : net.contains a = true) : net'.contains a = false := by
  rw [Bool.eq_false_iff]
  intro ha'
  unfold contains at ha ha'
  rw [beq_iff_eq] at ha ha'
  unfold disjoint at h
  apply bne_iff_ne.mp h
  calc net.address &&& net'.mask
      = a &&& net.mask &&& net'.mask := by rw [ha]
    _ = a &&& net'.mask &&& net.mask := by rw [BitVec.and_assoc, BitVec.and_comm net.mask, ← BitVec.and_assoc]
    _ = net'.address &&& net.mask := by rw [ha']

end IpNetwork

/-- An address as `ipaddress` reads it, with the scope of an IPv6 address. -/
inductive IpAddress where
  | v4 (value : BitVec 32)
  | v6 (value : BitVec 128) (scope : Option Text)
deriving DecidableEq, Repr

/-! ## Reading an address -/

/-- The four bytes of an IPv4 address. -/
def ipv4Value (host : Text) : BitVec 32 :=
  BitVec.ofNat 32 (((host.splitOn '.').map fun part => Nat.ofDigitChars 10 part 0).foldl
    (fun n byte => n * 256 + byte) 0)

def hexDigit (c : Char) : Nat :=
  if c.isDigit then c.toNat - '0'.toNat
  else if 'a' ≤ c then c.toNat - 'a'.toNat + 10
  else c.toNat - 'A'.toNat + 10

/-- `_parse_hextet`. -/
def hextetValue (part : Text) : Nat := part.foldl (fun n c => n * 16 + hexDigit c) 0

/-- The parts between the colons, an ending in the notation of IPv4 as two hextets. -/
def hextets (addr : Text) : List Text :=
  let parts := addr.splitOn ':'
  match parts.getLast? with
  | some last =>
      if '.' ∈ last then
        let value := (ipv4Value last).toNat
        parts.dropLast ++ [Nat.toDigits 16 (value / 65536), Nat.toDigits 16 (value % 65536)]
      else parts
  | none => parts

/-- The eight hextets, those a `::` leaves out put in. -/
def allHextets (parts : List Text) : List Nat :=
  match parts.tail.dropLast.findIdx? List.isEmpty with
  | none => parts.map hextetValue
  | some i =>
      let front := parts.take (i + 1)
      let back := parts.drop (i + 2)
      let high := if front = [[]] then [] else front
      let low := if back = [[]] then [] else back
      high.map hextetValue ++ List.replicate (8 - (high.length + low.length)) 0 ++
        low.map hextetValue

/-- `IPv6Address._ip_int_from_string`. -/
def ipv6Value (addr : Text) : BitVec 128 :=
  BitVec.ofNat 128 ((allHextets (hextets addr)).foldl (fun n part => n * 65536 + part) 0)

/-- `ipaddress.ip_address(host)`; `none` is the `ValueError`. -/
def ipAddress (host : Text) : Option IpAddress :=
  if isIpv4 host then some (.v4 (ipv4Value host))
  else if isIpv6 host then
    some (.v6 (ipv6Value (before '%' host)) (if '%' ∈ host then some (behind '%' host) else none))
  else none

/-! ## The registries -/

/-- A network given by its text. -/
def network4 (host : String) (length : Nat) : IpNetwork 32 := ⟨ipv4Value host.toList, length⟩

def network6 (host : String) (length : Nat) : IpNetwork 128 := ⟨ipv6Value host.toList, length⟩

/-- `_IPv4Constants._private_networks`. -/
def privateNetworks4 : List (IpNetwork 32) :=
  [network4 "0.0.0.0" 8, network4 "10.0.0.0" 8, network4 "127.0.0.0" 8,
    network4 "169.254.0.0" 16, network4 "172.16.0.0" 12, network4 "192.0.0.0" 24,
    network4 "192.0.0.170" 31, network4 "192.0.2.0" 24, network4 "192.168.0.0" 16,
    network4 "198.18.0.0" 15, network4 "198.51.100.0" 24, network4 "203.0.113.0" 24,
    network4 "240.0.0.0" 4, network4 "255.255.255.255" 32]

def privateExceptions4 : List (IpNetwork 32) :=
  [network4 "192.0.0.9" 32, network4 "192.0.0.10" 32]

/-- `_public_network`, and `_CGNAT_RANGE` of the guard. -/
def cgnatRange : IpNetwork 32 := network4 "100.64.0.0" 10

def multicastNetwork4 : IpNetwork 32 := network4 "224.0.0.0" 4

/-- `_IPv6Constants._private_networks`. -/
def privateNetworks6 : List (IpNetwork 128) :=
  [network6 "::1" 128, network6 "::" 128, network6 "::ffff:0:0" 96, network6 "64:ff9b:1::" 48,
    network6 "100::" 64, network6 "2001::" 23, network6 "2001:db8::" 32, network6 "2002::" 16,
    network6 "3fff::" 20, network6 "fc00::" 7, network6 "fe80::" 10]

def privateExceptions6 : List (IpNetwork 128) :=
  [network6 "2001:1::1" 128, network6 "2001:1::2" 128, network6 "2001:3::" 32,
    network6 "2001:4:112::" 48, network6 "2001:20::" 28, network6 "2001:30::" 28]

def multicastNetwork6 : IpNetwork 128 := network6 "ff00::" 8

/-- In one of the networks and in none of the exceptions. -/
def listed {w : Nat} (networks exceptions : List (IpNetwork w)) (a : BitVec w) : Bool :=
  networks.any (·.contains a) && exceptions.all fun net => !net.contains a

/-- `IPv4Address.is_global`. -/
def isGlobal4 (a : BitVec 32) : Bool :=
  !cgnatRange.contains a && !listed privateNetworks4 privateExceptions4 a

/-- `ipv4_mapped`: the IPv4 address an IPv6 address wraps. -/
def ipv4Mapped (a : BitVec 128) : Option (BitVec 32) :=
  if a >>> 32 = 0xFFFF then some (a.setWidth 32) else none

namespace IpAddress

/-- `is_global`. -/
def isGlobal : IpAddress → Bool
  | .v4 a => isGlobal4 a
  | .v6 a _ =>
      match ipv4Mapped a with
      | some wrapped => isGlobal4 wrapped
      | none => !listed privateNetworks6 privateExceptions6 a

/-- `is_multicast`. -/
def isMulticast : IpAddress → Bool
  | .v4 a => multicastNetwork4.contains a
  | .v6 a _ =>
      match ipv4Mapped a with
      | some wrapped => multicastNetwork4.contains wrapped
      | none => multicastNetwork6.contains a

/-- `_is_blocked_ip`. -/
def isBlocked (ip : IpAddress) : Bool :=
  let inCgnat :=
    match ip with
    | .v4 a => cgnatRange.contains a
    | .v6 _ _ => false
  if inCgnat then true else ip.isMulticast || !ip.isGlobal

end IpAddress

/-! ## What is blocked -/

/-- The IPv4 networks inside which a service of one's own may answer: this host, the
private ones, those of the link and of the carrier, and multicast. -/
def internalNetworks4 : List (IpNetwork 32) :=
  [network4 "0.0.0.0" 8, network4 "127.0.0.0" 8, network4 "10.0.0.0" 8, network4 "172.16.0.0" 12,
    network4 "192.168.0.0" 16, network4 "169.254.0.0" 16, cgnatRange, multicastNetwork4]

/-- The same for IPv6: unspecified, loopback, unique local, of the link, multicast. -/
def internalNetworks6 : List (IpNetwork 128) :=
  [network6 "::" 128, network6 "::1" 128, network6 "fc00::" 7, network6 "fe80::" 10,
    multicastNetwork6]

/-- An address inside an internal network, by itself or as what it wraps. -/
def IsInternal : IpAddress → Prop
  | .v4 a => ∃ net ∈ internalNetworks4, net.contains a = true
  | .v6 a _ =>
      (∃ net ∈ internalNetworks6, net.contains a = true) ∨
        ∃ wrapped, ipv4Mapped a = some wrapped ∧
          ∃ net ∈ internalNetworks4, net.contains wrapped = true

/-- A listed network that no exception touches. -/
theorem listed_of_mem {w : Nat} {networks exceptions : List (IpNetwork w)} {net : IpNetwork w}
    (hnet : net ∈ networks) (hclear : exceptions.all (net.disjoint ·) = true) {a : BitVec w}
    (ha : net.contains a = true) : listed networks exceptions a = true := by
  unfold listed
  rw [Bool.and_eq_true]
  constructor
  · exact List.any_eq_true.mpr ⟨net, hnet, ha⟩
  · apply List.all_eq_true.mpr
    intro other hother
    rw [IpNetwork.not_contains_of_disjoint (List.all_eq_true.mp hclear other hother) ha]
    rfl

/-- Every internal network is listed, or is the carrier's or the multicast one. -/
theorem internalNetworks4_listed : ∀ net ∈ internalNetworks4,
    net = cgnatRange ∨ net = multicastNetwork4 ∨
      net ∈ privateNetworks4 ∧ privateExceptions4.all (net.disjoint ·) = true := by
  decide +kernel

theorem internalNetworks6_listed : ∀ net ∈ internalNetworks6, net = multicastNetwork6 ∨
    net ∈ privateNetworks6 ∧ privateExceptions6.all (net.disjoint ·) = true := by
  decide +kernel

theorem multicast_or_not_global {a : BitVec 32}
    (h : ∃ net ∈ internalNetworks4, net.contains a = true) :
    (multicastNetwork4.contains a || !isGlobal4 a) = true := by
  obtain ⟨net, hnet, ha⟩ := h
  unfold isGlobal4
  cases internalNetworks4_listed net hnet with
  | inl hcarrier =>
      rw [hcarrier] at ha
      simp [ha]
  | inr hrest =>
      cases hrest with
      | inl hmulticast =>
          rw [hmulticast] at ha
          simp [ha]
      | inr hlisted =>
          have hin := listed_of_mem hlisted.1 hlisted.2 ha
          simp [hin]

/-- The leading bits of an address are what a shift there and back leaves of it. -/
theorem and_allOnes_shift {w : Nat} (a : BitVec w) (n : Nat) :
    a &&& BitVec.allOnes w <<< n = a >>> n <<< n := by
  ext i hi
  rw [BitVec.getElem_and, BitVec.getElem_shiftLeft, BitVec.getElem_shiftLeft]
  by_cases hlow : i < n
  · simp [hlow]
  · have hsum : n + (i - n) = i := by omega
    simp [hlow, hsum, hi]

/-- A wrapped address is in none of the internal IPv6 networks. -/
theorem not_mapped_of_internal6 {a : BitVec 128} {net : IpNetwork 128}
    (hnet : net ∈ internalNetworks6) (ha : net.contains a = true) : ipv4Mapped a = none := by
  have hapart : ∀ net ∈ internalNetworks6, net.disjoint (network6 "::ffff:0:0" 96) = true := by
    decide +kernel
  have hnot := IpNetwork.not_contains_of_disjoint (hapart net hnet) ha
  unfold ipv4Mapped
  apply if_neg
  intro hshift
  apply Bool.eq_false_iff.mp hnot
  have hmask : (network6 "::ffff:0:0" 96).mask = BitVec.allOnes 128 <<< 32 := by decide +kernel
  have haddress : (network6 "::ffff:0:0" 96).address = 0xFFFF#128 <<< 32 := by decide +kernel
  unfold IpNetwork.contains
  rw [hmask, haddress, and_allOnes_shift, hshift]
  rfl

/-- **No internal address passes the guard.** -/
theorem isBlocked_of_isInternal {ip : IpAddress} (h : IsInternal ip) : ip.isBlocked = true := by
  cases ip with
  | v4 a =>
      have hblocked := multicast_or_not_global h
      change (if cgnatRange.contains a = true then true else
        multicastNetwork4.contains a || !isGlobal4 a) = true
      split
      · rfl
      · exact hblocked
  | v6 a scope =>
      change (if false = true then true else
        (IpAddress.v6 a scope).isMulticast || !(IpAddress.v6 a scope).isGlobal) = true
      rw [if_neg Bool.false_ne_true]
      unfold IpAddress.isMulticast IpAddress.isGlobal
      dsimp only
      cases h with
      | inl hinternal =>
          obtain ⟨net, hnet, ha⟩ := hinternal
          rw [not_mapped_of_internal6 hnet ha]
          dsimp only
          cases internalNetworks6_listed net hnet with
          | inl hmulticast =>
              rw [hmulticast] at ha
              simp [ha]
          | inr hlisted =>
              have hin := listed_of_mem hlisted.1 hlisted.2 ha
              simp [hin]
      | inr hmapped =>
          obtain ⟨wrapped, hwrapped, hinternal⟩ := hmapped
          rw [hwrapped]
          exact multicast_or_not_global hinternal

example : (ipAddress "::ffff:10.0.0.1".toList).map IpAddress.isBlocked = some true := by
  decide +kernel

end IpAddresses

end Atlas
