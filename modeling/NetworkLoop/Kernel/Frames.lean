import NetworkLoop.Observation.Fingerprints

/-! What the kernel programs read from a frame (`packet.rs` and `fingerprint.rs` of the
common crate, `programs.rs`): the traffic class, the sampled hash and the fields of a
fingerprint key.

The programs read fixed offsets of the first sixty bytes, once for untagged and once for
tagged frames; here one definition has the offset of the network header as a parameter
and each of the source's functions is a case of it. `outerVlanId_cases` says which VLAN
IDs a frame can carry into its key: the mask of the source leaves 4095 in. -/
namespace NetworkLoop.Kernel
open Observation

/-- A frame at a hook: its length, and the bytes the program may read, which are all of
them or (TC) the linear part. -/
structure Frame where
  bytes : Nat
  data : List UInt8
  linear : data.length ≤ bytes

namespace Frame

def byte (f : Frame) (offset : Nat) : Nat := (f.data.getD offset 0).toNat

/-- `u16::from_be_bytes` of two neighbouring bytes. -/
def word (f : Frame) (offset : Nat) : Nat := f.byte offset * 256 + f.byte (offset + 1)

end Frame

def isVlanTpid (etherType : Nat) : Bool := etherType == 0x8100 || etherType == 0x88a8

/-! ### The traffic class -/

namespace TrafficClass

def all : Nat := 1
def l2Broadcast : Nat := 2
def ipv4Multicast : Nat := 3
def ipv6Multicast : Nat := 4
def otherL2Multicast : Nat := 5
def linkLocalControl : Nat := 6
def unicastOrUnclassified : Nat := 7

end TrafficClass

/-- `ParsedL2Word`, unpacked. -/
inductive ParsedL2Word where
  | success (trafficClass outerVlanId : Nat) (nestedVlan : Bool)
  | truncatedEthernet
  | truncatedVlan
  deriving DecidableEq, Repr

def multicastOrUnclassified (f : Frame) : Nat :=
  if f.byte 0 &&& 1 = 1 then TrafficClass.otherL2Multicast else TrafficClass.unicastOrUnclassified

def isLinkLocalControl (f : Frame) : Bool :=
  f.byte 0 == 0x01 && f.byte 1 == 0x80 && f.byte 2 == 0xc2 && f.byte 3 == 0 && f.byte 4 == 0 && f.byte 5 ≤ 0x0f

def isIpv4Multicast (f : Frame) : Bool :=
  f.byte 0 == 0x01 && f.byte 1 == 0 && f.byte 2 == 0x5e && f.byte 3 &&& 0x80 == 0

def isIpv6Multicast (f : Frame) : Bool := f.byte 0 == 0x33 && f.byte 1 == 0x33

def classify (f : Frame) (etherType : Nat) (nestedVlan : Bool) : Nat :=
  if (List.range 6).all (f.byte · == 0xff) then TrafficClass.l2Broadcast
  else if isLinkLocalControl f then TrafficClass.linkLocalControl
  else if nestedVlan then multicastOrUnclassified f
  else if etherType == 0x0800 && isIpv4Multicast f then TrafficClass.ipv4Multicast
  else if etherType == 0x86dd && isIpv6Multicast f then TrafficClass.ipv6Multicast
  else multicastOrUnclassified f

/-- `parse_packet`, with the part of `parse_l2_word` that is left after the lengths. -/
def parsePacket (f : Frame) : ParsedL2Word :=
  if f.data.length < 14 then .truncatedEthernet
  else if isVlanTpid (f.word 12) then
    if f.data.length < 18 then .truncatedVlan
    else .success (classify f (f.word 16) (isVlanTpid (f.word 16))) (f.word 14 &&& 0x0fff) (isVlanTpid (f.word 16))
  else .success (classify f (f.word 12) false) noVlan false

namespace ParsedL2Word

def isError : ParsedL2Word → Bool
  | success .. => false
  | _ => true

def trafficClass : ParsedL2Word → Nat
  | success c _ _ => c
  | _ => 0

def hasOuterVlan : ParsedL2Word → Bool
  | success _ vlan _ => vlan != noVlan
  | _ => false

end ParsedL2Word

/-! ### The hash -/

def fingerprintPrefixLen : Nat := 60

def fingerprintHashStep (hash : BitVec 64) (byte : Nat) : BitVec 64 :=
  (hash ^^^ BitVec.ofNat 64 byte) * 0x00000100000001b3#64

def fingerprintHashInit (frameLen : Nat) : BitVec 64 :=
  fingerprintHashStep (fingerprintHashStep 0xcbf29ce484222325#64 (frameLen / 256)) (frameLen % 256)

/-- `fixed_fingerprint_hash`, whose sixty steps are written out in the source. -/
def fixedFingerprintHash (frameLen : Nat) (f : Frame) : BitVec 64 :=
  (List.range fingerprintPrefixLen).foldl (fun hash offset => fingerprintHashStep hash (f.byte offset))
    (fingerprintHashInit frameLen)

def fingerprintSelected (fingerprint : BitVec 64) : Bool := fingerprint.toNat % 2 ^ fingerprintSampleShift == 0

/-! ### The fields of a key -/

structure FingerprintMetadata where
  sourceMac : List Nat
  destinationMac : List Nat
  outerVlanId : Nat
  etherType : Nat
  vlanDepth : Nat
  protocol : Nat
  subtype : Nat
  deriving DecidableEq, Repr

/-- The ICMP type behind an IPv4 header of `words` words, for the lengths that leave it
within the first sixty bytes. -/
def fixedIpv4Subtype (network maximum : Nat) (f : Frame) : Nat :=
  let words := f.byte network &&& 0x0f
  if 5 ≤ words ∧ words ≤ maximum then f.byte (network + 4 * words) else 0

def fixedIpv4SubtypeUntagged (f : Frame) : Nat := fixedIpv4Subtype 14 11 f
def fixedIpv4SubtypeTagged (f : Frame) : Nat := fixedIpv4Subtype 18 10 f

def fixedProtocolSubtype (network : Nat) (ipv4Subtype : Frame → Nat) (f : Frame) (etherType : Nat) : Nat × Nat :=
  if etherType = 0x0800 then
    let first := f.byte network
    let protocol := f.byte (network + 9)
    if first >>> 4 ≠ 4 ∨ first &&& 0x0f < 5 then (0, 0)
    else (protocol, if protocol = 1 then ipv4Subtype f else 0)
  else if etherType = 0x86dd then
    let protocol := f.byte (network + 6)
    if f.byte network >>> 4 ≠ 6 then (0, 0) else (protocol, if protocol = 58 then f.byte (network + 40) else 0)
  else if etherType = 0x0806 then
    let opcode := f.word (network + 6)
    (0, if opcode ≤ 255 then opcode else 0)
  else (0, 0)

def fixedProtocolSubtypeUntagged : Frame → Nat → Nat × Nat := fixedProtocolSubtype 14 fixedIpv4SubtypeUntagged
def fixedProtocolSubtypeTagged : Frame → Nat → Nat × Nat := fixedProtocolSubtype 18 fixedIpv4SubtypeTagged

def fixedFingerprintMetadata (f : Frame) : FingerprintMetadata :=
  let outer := f.word 12
  let (etherType, outerVlanId, vlanDepth) :=
    if isVlanTpid outer then (f.word 16, f.word 14 &&& 0x0fff, if isVlanTpid (f.word 16) then 2 else 1)
    else (outer, noVlan, 0)
  let (protocol, subtype) :=
    if vlanDepth = 2 then (0, 0)
    else if vlanDepth = 1 then fixedProtocolSubtypeTagged f etherType
    else fixedProtocolSubtypeUntagged f etherType
  { sourceMac := [6, 7, 8, 9, 10, 11].map f.byte
    destinationMac := [0, 1, 2, 3, 4, 5].map f.byte
    outerVlanId := outerVlanId
    etherType := etherType
    vlanDepth := vlanDepth
    protocol := protocol
    subtype := subtype }

/-- The outer tag of the frame names VLAN 4095, which no VLAN may have. -/
def Frame.reservedVlan (f : Frame) : Bool := isVlanTpid (f.word 12) && f.word 14 &&& 0x0fff == 4095

/-- The key of a frame that is sampled: at least sixty bytes to read, a length of sixteen
bits and a selected hash. -/
def fingerprintKey? (interfaceGeneration ifindex direction : Nat) (f : Frame) : Option FingerprintKey :=
  if f.bytes < 2 ^ 16 then
    if f.data.length < fingerprintPrefixLen then none
    else
      let fingerprint := fixedFingerprintHash f.bytes f
      if fingerprintSelected fingerprint then
        let metadata := fixedFingerprintMetadata f
        some {
          interfaceGeneration := interfaceGeneration
          fingerprint := fingerprint.toNat
          ifindex := ifindex
          outerVlanId := metadata.outerVlanId
          etherType := metadata.etherType
          frameLen := f.bytes
          direction := direction
          vlanDepth := metadata.vlanDepth
          protocol := metadata.protocol
          subtype := metadata.subtype
          reserved := [0, 0] }
      else none
  else none

/-! ### What a key can hold -/

theorem vlanDepth_le (f : Frame) : (fixedFingerprintMetadata f).vlanDepth ≤ 2 := by
  unfold fixedFingerprintMetadata
  dsimp only
  split
  · dsimp only
    split <;> omega
  · exact Nat.zero_le 2

/-- **The VLAN ID of a key** is a legal one, none, or the reserved 4095. -/
theorem outerVlanId_cases (f : Frame) :
    ((fixedFingerprintMetadata f).outerVlanId = noVlan ∨ (fixedFingerprintMetadata f).outerVlanId ≤ 4094) ↔
      f.reservedVlan = false := by
  have hmask : f.word 14 &&& 0x0fff ≤ 4095 := Nat.and_le_right
  unfold fixedFingerprintMetadata Frame.reservedVlan
  dsimp only
  cases hvlan : isVlanTpid (f.word 12) with
  | false => simp
  | true =>
    simp only [if_true, Bool.true_and, beq_eq_false_iff_ne, noVlan]
    omega

variable {generation ifindex direction : Nat} {f : Frame} {key : FingerprintKey}

/-- What is true of every key, whatever the frame. -/
theorem fingerprintKey?_spec (h : fingerprintKey? generation ifindex direction f = some key) :
    key.interfaceGeneration = generation ∧ key.ifindex = ifindex ∧ key.direction = direction ∧ key.frameLen = f.bytes ∧
      key.outerVlanId = (fixedFingerprintMetadata f).outerVlanId ∧ key.vlanDepth ≤ 2 ∧ key.reserved = [0, 0] ∧
      60 ≤ f.bytes := by
  unfold fingerprintKey? at h
  split at h
  · split at h
    · cases h
    · rename_i hlong
      dsimp only at h
      split at h
      · cases h
        exact ⟨rfl, rfl, rfl, rfl, rfl, vlanDepth_le f, rfl, (Nat.not_lt.mp hlong).trans f.linear⟩
      · cases h
  · cases h

end NetworkLoop.Kernel
