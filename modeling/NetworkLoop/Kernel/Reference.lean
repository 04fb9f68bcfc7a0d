import NetworkLoop.Kernel.Frames

/-! The reference parsers of the common crate (`packet.rs`, `fingerprint.rs`), which take
a whole slice, next to the ones of the kernel programs, which have every offset written
out.

The metadata parsers agree on every frame but one kind: where an IPv4 header claims to be
longer than the sixty bytes, the reference gives no protocol and the kernel gives the one
it reads (`parseFingerprintMetadata_iff`). The class parser only looks at the first
fourteen or eighteen bytes and packs what it finds into a word, and the hash is a loop
over sixty bytes; there is no difference in these (`fast_paths_eq`). -/
namespace NetworkLoop.Kernel
open Observation

/-! ### Reading a slice -/

/-- `frame.get(offset).copied()`. -/
def readByte (frame : List UInt8) (offset : Nat) : Option Nat := frame[offset]?.map (·.toNat)

def readU16 (frame : List UInt8) (offset : Nat) : Option Nat := do
  let high ← readByte frame offset
  let low ← readByte frame (offset + 1)
  some (high * 256 + low)

def copyMac (frame : List UInt8) (offset : Nat) : Option (List Nat) := do
  let a ← readByte frame offset
  let b ← readByte frame (offset + 1)
  let c ← readByte frame (offset + 2)
  let d ← readByte frame (offset + 3)
  let e ← readByte frame (offset + 4)
  let f ← readByte frame (offset + 5)
  some [a, b, c, d, e, f]

/-! ### The metadata -/

def ipv4ProtocolAndSubtype (frame : List UInt8) (offset : Nat) : Nat × Nat :=
  match readByte frame offset with
  | none => (0, 0)
  | some first =>
    let headerLen := (first &&& 0x0f) * 4
    if first >>> 4 ≠ 4 ∨ headerLen < 20 ∨ offset + headerLen > frame.length then (0, 0)
    else
      match readByte frame (offset + 9) with
      | none => (0, 0)
      | some protocol => (protocol, if protocol = 1 then (readByte frame (offset + headerLen)).getD 0 else 0)

def ipv6ProtocolAndSubtype (frame : List UInt8) (offset : Nat) : Nat × Nat :=
  if (readByte frame offset).getD 0 >>> 4 ≠ 6 ∨ offset + 40 > frame.length then (0, 0)
  else
    let protocol := (readByte frame (offset + 6)).getD 0
    (protocol, if protocol = 58 then (readByte frame (offset + 40)).getD 0 else 0)

def protocolAndSubtype (frame : List UInt8) (offset etherType : Nat) : Nat × Nat :=
  if etherType = 0x0800 then ipv4ProtocolAndSubtype frame offset
  else if etherType = 0x86dd then ipv6ProtocolAndSubtype frame offset
  else if etherType = 0x0806 then (0, ((readU16 frame (offset + 6)).filter (· ≤ 255)).getD 0)
  else (0, 0)

def parseFingerprintMetadata (frame : List UInt8) : Option FingerprintMetadata :=
  if frame.length < 14 then none
  else do
    let destinationMac ← copyMac frame 0
    let sourceMac ← copyMac frame 6
    let outerEtherType ← readU16 frame 12
    let (etherType, outerVlanId, vlanDepth, networkOffset) ←
      if isVlanTpid outerEtherType then
        if frame.length < 18 then none
        else do
          let innerEtherType ← readU16 frame 16
          let tci ← readU16 frame 14
          some (innerEtherType, tci &&& 0x0fff, if isVlanTpid innerEtherType then 2 else 1, 18)
      else some (outerEtherType, noVlan, 0, 14)
    let (protocol, subtype) :=
      if vlanDepth = 2 then (0, 0) else protocolAndSubtype frame networkOffset etherType
    some {
      sourceMac := sourceMac
      destinationMac := destinationMac
      outerVlanId := outerVlanId
      etherType := etherType
      vlanDepth := vlanDepth
      protocol := protocol
      subtype := subtype }

/-- Where the network header of a frame with at most one tag starts. -/
def Frame.network (f : Frame) : Nat := if isVlanTpid (f.word 12) then 18 else 14

/-- An IPv4 header that claims to reach beyond the first sixty bytes, with a protocol. -/
def Frame.overlongHeader (f : Frame) : Prop :=
  f.word (f.network - 2) = 0x0800 ∧ f.byte f.network >>> 4 = 4 ∧
    fingerprintPrefixLen < f.network + 4 * (f.byte f.network &&& 0x0f) ∧ f.byte (f.network + 9) ≠ 0

instance (f : Frame) : Decidable f.overlongHeader := inferInstanceAs (Decidable (_ ∧ _))

/-! ### Within the first sixty bytes -/

section
variable {f : Frame} (h : fingerprintPrefixLen ≤ f.data.length)
include h

theorem readByte_take {offset : Nat} (hoffset : offset < fingerprintPrefixLen) :
    readByte (f.data.take fingerprintPrefixLen) offset = some (f.byte offset) := by
  have hin : offset < f.data.length := hoffset.trans_le h
  rw [readByte, List.getElem?_take_of_lt hoffset, List.getElem?_eq_getElem hin, Option.map_some, Frame.byte,
    List.getD_eq_getElem _ _ hin]

theorem readU16_take {offset : Nat} (hoffset : offset + 1 < fingerprintPrefixLen) :
    readU16 (f.data.take fingerprintPrefixLen) offset = some (f.word offset) := by
  rw [readU16, readByte_take h (Nat.lt_of_succ_lt hoffset), readByte_take h hoffset]
  rfl

theorem copyMac_take {offset : Nat} (hoffset : offset + 5 < fingerprintPrefixLen) :
    copyMac (f.data.take fingerprintPrefixLen) offset =
      some [f.byte offset, f.byte (offset + 1), f.byte (offset + 2), f.byte (offset + 3), f.byte (offset + 4),
        f.byte (offset + 5)] := by
  rw [copyMac, readByte_take h (by omega), readByte_take h (by omega), readByte_take h (by omega),
    readByte_take h (by omega), readByte_take h (by omega), readByte_take h hoffset]
  rfl

theorem length_prefix : (f.data.take fingerprintPrefixLen).length = fingerprintPrefixLen := by
  rw [List.length_take, Nat.min_eq_left h]

/-- The two readings of an IPv4 header, at an offset that leaves room for `maximum` words
but for no more. -/
theorem ipv4_iff {network maximum : Nat} (hfits : network + 4 * maximum < fingerprintPrefixLen)
    (hends : fingerprintPrefixLen < network + 4 * (maximum + 1)) (hmaximum : 5 ≤ maximum) :
    ipv4ProtocolAndSubtype (f.data.take fingerprintPrefixLen) network =
        fixedProtocolSubtype network (fixedIpv4Subtype network maximum) f 0x0800 ↔
      ¬(f.byte network >>> 4 = 4 ∧ fingerprintPrefixLen < network + 4 * (f.byte network &&& 0x0f) ∧
        f.byte (network + 9) ≠ 0) := by
  have hlength := length_prefix h
  have hread := @readByte_take f h
  rw [fingerprintPrefixLen] at *
  unfold ipv4ProtocolAndSubtype fixedProtocolSubtype fixedIpv4Subtype
  rw [hread (by omega)]
  dsimp only
  rw [hlength, if_pos rfl]
  generalize hwords : f.byte network &&& 0x0f = words
  by_cases hshape : f.byte network >>> 4 ≠ 4 ∨ words < 5
  · rw [if_pos (by omega), if_pos hshape]
    refine iff_of_true rfl ?_
    rintro ⟨hversion, hlong, -⟩
    omega
  · rw [if_neg hshape]
    push Not at hshape
    have hprotocol : readByte (f.data.take 60) (network + 9) = some (f.byte (network + 9)) := hread (by omega)
    by_cases hlong : words ≤ maximum
    · have hshort : ¬(f.byte network >>> 4 ≠ 4 ∨ words * 4 < 20 ∨ network + words * 4 > 60) := by omega
      have hsubtype : readByte (f.data.take 60) (network + words * 4) = some (f.byte (network + 4 * words)) := by
        rw [Nat.mul_comm words 4]
        exact hread (by omega)
      have hrange : 5 ≤ words ∧ words ≤ maximum := ⟨hshape.2, hlong⟩
      rw [if_neg hshort, hprotocol, hsubtype, if_pos hrange, Option.getD_some]
      refine iff_of_true rfl ?_
      rintro ⟨-, hlonger, -⟩
      omega
    · have hbeyond : f.byte network >>> 4 ≠ 4 ∨ words * 4 < 20 ∨ network + words * 4 > 60 := by omega
      have hrange : ¬(5 ≤ words ∧ words ≤ maximum) := fun hin => hlong hin.2
      rw [if_pos hbeyond, if_neg hrange, ite_self, Prod.mk.injEq, and_iff_left rfl]
      constructor
      · rintro hzero ⟨-, -, hne⟩
        exact hne hzero.symm
      · intro hno
        by_contra hne
        exact hno ⟨hshape.1, by omega, fun hzero => hne hzero.symm⟩

theorem ipv6_eq {network : Nat} {ipv4Subtype : Frame → Nat} (hfits : network + 40 < fingerprintPrefixLen) :
    ipv6ProtocolAndSubtype (f.data.take fingerprintPrefixLen) network =
      fixedProtocolSubtype network ipv4Subtype f 0x86dd := by
  have hlength := length_prefix h
  have hread := @readByte_take f h
  rw [fingerprintPrefixLen] at *
  unfold ipv6ProtocolAndSubtype fixedProtocolSubtype
  rw [hread (by omega), hread (by omega), hread (by omega), hlength, if_neg (by decide : (0x86dd : Nat) ≠ 0x0800),
    if_pos rfl]
  simp only [Option.getD_some]
  by_cases hversion : f.byte network >>> 4 ≠ 6
  · rw [if_pos (Or.inl hversion), if_pos hversion]
  · have hshort : ¬(f.byte network >>> 4 ≠ 6 ∨ network + 40 > 60) := by omega
    rw [if_neg hshort, if_neg hversion]

/-- The two readings of a network header. -/
theorem protocolAndSubtype_iff {network maximum etherType : Nat} (hfits : network + 4 * maximum < fingerprintPrefixLen)
    (hends : fingerprintPrefixLen < network + 4 * (maximum + 1)) (hmaximum : 10 ≤ maximum) :
    protocolAndSubtype (f.data.take fingerprintPrefixLen) network etherType =
        fixedProtocolSubtype network (fixedIpv4Subtype network maximum) f etherType ↔
      ¬(etherType = 0x0800 ∧ f.byte network >>> 4 = 4 ∧
        fingerprintPrefixLen < network + 4 * (f.byte network &&& 0x0f) ∧ f.byte (network + 9) ≠ 0) := by
  unfold protocolAndSubtype
  split
  · rename_i hipv4
    rw [hipv4, ipv4_iff h hfits hends (by omega), and_iff_right rfl]
  · rename_i hipv4
    refine iff_of_true ?_ fun hno => hipv4 hno.1
    split
    · rename_i hipv6
      rw [hipv6, ipv6_eq h (by omega)]
    · rename_i hipv6
      unfold fixedProtocolSubtype
      rw [if_neg hipv4, if_neg hipv6]
      split
      · have hopcode : network + 6 + 1 < fingerprintPrefixLen := by omega
        rw [readU16_take h hopcode]
        by_cases hsmall : f.word (network + 6) ≤ 255
        · simp [Option.filter_some, hsmall]
        · simp [Option.filter_some, hsmall]
      · rfl

end

/-- **When the two metadata parsers agree** on the first sixty bytes of a frame. -/
theorem parseFingerprintMetadata_iff {f : Frame} (h : fingerprintPrefixLen ≤ f.data.length) :
    parseFingerprintMetadata (f.data.take fingerprintPrefixLen) = some (fixedFingerprintMetadata f) ↔
      ¬f.overlongHeader := by
  have hlength := length_prefix h
  have hmac := @copyMac_take f h
  have hread := @readU16_take f h
  have h14 := @protocolAndSubtype_iff f h 14 11 (f.word 12) (by decide) (by decide) (by decide)
  have h18 := @protocolAndSubtype_iff f h 18 10 (f.word 16) (by decide) (by decide) (by decide)
  rw [fingerprintPrefixLen] at *
  unfold parseFingerprintMetadata fixedFingerprintMetadata Frame.overlongHeader Frame.network
  rw [hlength, hmac (by decide), hmac (by decide), hread (by decide), hread (by decide), hread (by decide)]
  simp only [Option.bind_eq_bind, Option.bind_some]
  cases htagged : isVlanTpid (f.word 12) with
  | false =>
    simp only [Nat.reduceLT, ↓reduceIte, Bool.false_eq_true, Nat.reduceAdd, zero_add, OfNat.zero_ne_ofNat,
      List.map_cons, List.map_nil, zero_ne_one, Option.some.injEq, FingerprintMetadata.mk.injEq, true_and]
    rw [← Prod.ext_iff]
    exact h14
  | true =>
    cases hnested : isVlanTpid (f.word 16) with
    | false =>
      simp only [Nat.reduceLT, ↓reduceIte, Nat.reduceAdd, zero_add, Bool.false_eq_true, OfNat.one_ne_ofNat,
        List.map_cons, List.map_nil, Option.some.injEq, FingerprintMetadata.mk.injEq, true_and]
      rw [← Prod.ext_iff]
      exact h18
    | true =>
      refine iff_of_true rfl ?_
      rintro ⟨hipv4, -⟩
      simp only [if_true] at hipv4
      rw [hipv4] at hnested
      cases hnested

/-- An untagged IPv4 frame of sixty bytes with this first header byte and protocol. -/
def ipv4Frame (first protocol : UInt8) : Frame where
  bytes := 60
  data := [2, 0, 0, 0, 0, 2, 2, 0, 0, 0, 0, 1, 8, 0, first] ++ List.replicate 8 0 ++ [protocol] ++ List.replicate 36 0
  linear := le_of_eq rfl

/-- A plain header of five words. -/
theorem parse_plain_header :
    parseFingerprintMetadata ((ipv4Frame 0x45 17).data.take fingerprintPrefixLen) =
      some (fixedFingerprintMetadata (ipv4Frame 0x45 17)) :=
  (parseFingerprintMetadata_iff (by decide)).mpr (by decide)

/-- A header of twelve words with UDP: only the kernel stores the protocol. -/
theorem parse_overlong_header :
    ((parseFingerprintMetadata ((ipv4Frame 0x4c 17).data.take fingerprintPrefixLen)).map fun m => m.protocol) = some 0 ∧
      (fixedFingerprintMetadata (ipv4Frame 0x4c 17)).protocol = 17 ∧
      parseFingerprintMetadata ((ipv4Frame 0x4c 17).data.take fingerprintPrefixLen) ≠
        some (fixedFingerprintMetadata (ipv4Frame 0x4c 17)) := by
  decide

/-! ### The word of `parse_l2_word` -/

/-- A slice as a frame. -/
def Frame.ofBytes (data : List UInt8) : Frame := ⟨data.length, data, le_refl _⟩

/-- `ParsedL2`. -/
structure ParsedL2 where
  trafficClass : Nat
  outerVlanId : Option Nat
  nestedVlan : Bool
  deriving DecidableEq, Repr

inductive ParseError where
  | truncatedEthernet | truncatedVlan
  deriving DecidableEq, Repr

namespace Packed

/-- `ParsedL2Word` as the source has it, a `u64` that fields are shifted into. No shift
below leaves the 64 bits. -/
abbrev ParsedL2Word := Nat

namespace ParsedL2Word

def success (trafficClass outerVlanId : Nat) (nestedVlan : Bool) : ParsedL2Word :=
  trafficClass ||| (outerVlanId <<< 8) ||| (nestedVlan.toNat <<< 24)

def failure (error : Nat) : ParsedL2Word := error <<< 25
def truncatedEthernet : ParsedL2Word := failure 1
def truncatedVlan : ParsedL2Word := failure 2

def trafficClass (w : ParsedL2Word) : Nat := w % 2 ^ 8
def outerVlanId (w : ParsedL2Word) : Nat := (w >>> 8) % 2 ^ 16
def hasOuterVlan (w : ParsedL2Word) : Bool := outerVlanId w != noVlan
def nestedVlan (w : ParsedL2Word) : Bool := (w >>> 24) &&& 1 != 0
def errorCode (w : ParsedL2Word) : Nat := (w >>> 25) &&& 3
def isError (w : ParsedL2Word) : Bool := errorCode w != 0

/-- The fields of a word do not overlap. -/
theorem success_eq {trafficClass outerVlanId : Nat} (hclass : trafficClass < 2 ^ 8) (hvlan : outerVlanId < 2 ^ 16)
    (nestedVlan : Bool) :
    success trafficClass outerVlanId nestedVlan = trafficClass + outerVlanId * 2 ^ 8 + nestedVlan.toNat * 2 ^ 24 := by
  have hlow : trafficClass ||| outerVlanId <<< 8 = trafficClass + outerVlanId * 2 ^ 8 := by
    rw [Nat.or_comm, ← Nat.shiftLeft_add_eq_or_of_lt hclass, Nat.shiftLeft_eq, Nat.add_comm]
  have hbound : trafficClass + outerVlanId * 2 ^ 8 < 2 ^ 24 := by omega
  rw [success, hlow, Nat.or_comm, ← Nat.shiftLeft_add_eq_or_of_lt hbound, Nat.shiftLeft_eq, Nat.add_comm]

/-- **What is packed is unpacked**: the class, the VLAN ID and the nesting of a word, and no error. -/
theorem unpack_success {c v : Nat} (hclass : c < 2 ^ 8) (hvlan : v < 2 ^ 16) (nested : Bool) :
    trafficClass (success c v nested) = c ∧ outerVlanId (success c v nested) = v ∧
      nestedVlan (success c v nested) = nested ∧ errorCode (success c v nested) = 0 := by
  have hbit : nested.toNat < 2 := Bool.toNat_lt nested
  unfold trafficClass outerVlanId nestedVlan errorCode
  rw [success_eq hclass hvlan, Nat.shiftRight_eq_div_pow, Nat.shiftRight_eq_div_pow, Nat.shiftRight_eq_div_pow,
    Nat.and_one_is_mod, show (3 : Nat) = 2 ^ 2 - 1 from rfl, Nat.and_two_pow_sub_one_eq_mod]
  refine ⟨by omega, by omega, ?_, by omega⟩
  have hfield : (c + v * 2 ^ 8 + nested.toNat * 2 ^ 24) / 2 ^ 24 % 2 = nested.toNat := by omega
  show ((c + v * 2 ^ 8 + nested.toNat * 2 ^ 24) / 2 ^ 24 % 2 != 0) = nested
  rw [hfield]
  cases nested <;> rfl

end ParsedL2Word

def parseL2Word (frame : List UInt8) : ParsedL2Word :=
  let f := Frame.ofBytes frame
  if frame.length < 14 then .truncatedEthernet
  else if isVlanTpid (f.word 12) then
    if frame.length < 18 then .truncatedVlan
    else .success (classify f (f.word 16) (isVlanTpid (f.word 16))) (f.word 14 &&& 0x0fff) (isVlanTpid (f.word 16))
  else .success (classify f (f.word 12) false) noVlan false

/-- `packet_prefix`: the first `n` bytes, when they are there. -/
def packetPrefix (n : Nat) (data : List UInt8) : Option (List UInt8) :=
  if data.length < n then none else some (data.take n)

def parsePacket (data : List UInt8) : ParsedL2Word :=
  match packetPrefix 14 data with
  | none => .truncatedEthernet
  | some ethernet =>
    if isVlanTpid ((Frame.ofBytes ethernet).word 12) then
      match packetPrefix 18 data with
      | none => .truncatedVlan
      | some tagged => parseL2Word tagged
    else parseL2Word ethernet

def parseL2 (frame : List UInt8) : Except ParseError ParsedL2 :=
  let parsed := parseL2Word frame
  if parsed.errorCode = 1 then .error .truncatedEthernet
  else if parsed.errorCode = 2 then .error .truncatedVlan
  else .ok ⟨parsed.trafficClass, if parsed.hasOuterVlan then some parsed.outerVlanId else none, parsed.nestedVlan⟩

end Packed

/-! ### The prefixes suffice -/

theorem byte_take {data : List UInt8} {n offset : Nat} (h : offset < n) :
    (Frame.ofBytes (data.take n)).byte offset = (Frame.ofBytes data).byte offset := by
  simp only [Frame.byte, Frame.ofBytes, List.getD_eq_getElem?_getD, List.getElem?_take_of_lt h]

theorem word_take {data : List UInt8} {n offset : Nat} (h : offset + 1 < n) :
    (Frame.ofBytes (data.take n)).word offset = (Frame.ofBytes data).word offset := by
  rw [Frame.word, byte_take (Nat.lt_of_succ_lt h), byte_take h, Frame.word]

/-- The class depends on the destination only, the first six bytes. -/
theorem classify_take {data : List UInt8} {n : Nat} (h : 6 ≤ n) (etherType : Nat) (nestedVlan : Bool) :
    classify (Frame.ofBytes (data.take n)) etherType nestedVlan = classify (Frame.ofBytes data) etherType nestedVlan := by
  have hbyte : ∀ {offset : Nat}, offset < 6 → (Frame.ofBytes (data.take n)).byte offset = (Frame.ofBytes data).byte offset :=
    fun hoffset => byte_take (hoffset.trans_le h)
  have hbroadcast : ((List.range 6).all fun offset => (Frame.ofBytes (data.take n)).byte offset == 0xff) =
      (List.range 6).all fun offset => (Frame.ofBytes data).byte offset == 0xff := by
    rw [Bool.eq_iff_iff, List.all_eq_true, List.all_eq_true]
    refine forall₂_congr fun offset hoffset => ?_
    rw [hbyte (List.mem_range.mp hoffset)]
  unfold classify multicastOrUnclassified isLinkLocalControl isIpv4Multicast isIpv6Multicast
  rw [hbroadcast]
  simp only [hbyte (by decide : 0 < 6), hbyte (by decide : 1 < 6), hbyte (by decide : 2 < 6), hbyte (by decide : 3 < 6),
    hbyte (by decide : 4 < 6), hbyte (by decide : 5 < 6)]

/-- The class of a frame is a byte. -/
theorem classify_lt (f : Frame) (etherType : Nat) (nestedVlan : Bool) : classify f etherType nestedVlan < 2 ^ 8 := by
  have hmulticast : multicastOrUnclassified f < 2 ^ 8 := by
    unfold multicastOrUnclassified
    split <;> decide
  unfold classify
  split
  · decide
  · split
    · decide
    · split
      · exact hmulticast
      · split
        · decide
        · split
          · decide
          · exact hmulticast

namespace Packed

/-- The word as the rest of the model has it, packed. -/
def pack : Kernel.ParsedL2Word → ParsedL2Word
  | .success trafficClass outerVlanId nestedVlan => .success trafficClass outerVlanId nestedVlan
  | .truncatedEthernet => .truncatedEthernet
  | .truncatedVlan => .truncatedVlan

theorem parseL2Word_eq (data : List UInt8) : parseL2Word data = pack (Kernel.parsePacket (Frame.ofBytes data)) := by
  have hlength : (Frame.ofBytes data).data.length = data.length := rfl
  unfold parseL2Word Kernel.parsePacket
  dsimp only
  rw [hlength]
  by_cases hethernet : data.length < 14
  · rw [if_pos hethernet, if_pos hethernet]
    rfl
  · rw [if_neg hethernet, if_neg hethernet]
    cases isVlanTpid ((Frame.ofBytes data).word 12) with
    | false => rfl
    | true =>
      rw [if_pos rfl, if_pos rfl]
      by_cases hvlan : data.length < 18
      · rw [if_pos hvlan, if_pos hvlan]
        rfl
      · rw [if_neg hvlan, if_neg hvlan]
        rfl

/-- The parser of the programs, which sees a prefix only, is the parser of the slice. -/
theorem parsePacket_eq (data : List UInt8) : parsePacket data = parseL2Word data := by
  unfold parsePacket packetPrefix
  by_cases hethernet : data.length < 14
  · rw [if_pos hethernet]
    unfold parseL2Word
    rw [if_pos hethernet]
  · rw [if_neg hethernet]
    dsimp only
    have hlength : ¬(data.take 14).length < 14 := by
      rw [List.length_take]
      omega
    rw [word_take (by decide)]
    cases htagged : isVlanTpid ((Frame.ofBytes data).word 12) with
    | false =>
      rw [if_neg Bool.false_ne_true]
      unfold parseL2Word
      rw [if_neg hethernet, if_neg hlength, word_take (by decide), htagged, if_neg Bool.false_ne_true,
        if_neg Bool.false_ne_true, classify_take (by decide)]
    | true =>
      rw [if_pos rfl]
      by_cases hvlan : data.length < 18
      · rw [if_pos hvlan]
        unfold parseL2Word
        rw [if_neg hethernet, htagged, if_pos rfl, if_pos hvlan]
      · have hlength' : ¬(data.take 18).length < 14 ∧ ¬(data.take 18).length < 18 := by
          rw [List.length_take]
          omega
        rw [if_neg hvlan]
        dsimp only
        unfold parseL2Word
        rw [if_neg hethernet, if_neg hlength'.1, word_take (by decide), htagged, if_pos rfl, if_pos rfl, if_neg hlength'.2,
          if_neg hvlan, word_take (by decide), word_take (by decide), classify_take (by decide)]

/-- What `parse_l2` decodes is what `parse_l2_word` encoded. -/
theorem parseL2_eq (data : List UInt8) :
    parseL2 data =
      match Kernel.parsePacket (Frame.ofBytes data) with
      | .truncatedEthernet => .error .truncatedEthernet
      | .truncatedVlan => .error .truncatedVlan
      | .success trafficClass outerVlanId nestedVlan =>
        .ok ⟨trafficClass, if isVlanTpid ((Frame.ofBytes data).word 12) then some outerVlanId else none, nestedVlan⟩ := by
  have hdecode : ∀ {c v : Nat} (nested : Bool), c < 2 ^ 8 → v < 2 ^ 16 →
      (if (ParsedL2Word.success c v nested).errorCode = 1 then (.error .truncatedEthernet : Except ParseError ParsedL2)
        else if (ParsedL2Word.success c v nested).errorCode = 2 then .error .truncatedVlan
        else .ok ⟨(ParsedL2Word.success c v nested).trafficClass,
          if (ParsedL2Word.success c v nested).hasOuterVlan then some (ParsedL2Word.success c v nested).outerVlanId else none,
          (ParsedL2Word.success c v nested).nestedVlan⟩) =
        .ok ⟨c, if v != noVlan then some v else none, nested⟩ := by
    intro c v nested hc hv
    obtain ⟨hclass, hvlan, hnested, herror⟩ := ParsedL2Word.unpack_success hc hv nested
    rw [ParsedL2Word.hasOuterVlan, hclass, hvlan, hnested, herror, if_neg (by decide), if_neg (by decide)]
  have htci : (Frame.ofBytes data).word 14 &&& 0x0fff ≤ 0x0fff := Nat.and_le_right
  have hlegal : ((Frame.ofBytes data).word 14 &&& 0x0fff != noVlan) = true := by
    rw [bne_iff_ne, noVlan]
    omega
  unfold parseL2
  rw [parseL2Word_eq]
  unfold Kernel.parsePacket
  dsimp only
  by_cases hethernet : (Frame.ofBytes data).data.length < 14
  · rw [if_pos hethernet]
    rfl
  · rw [if_neg hethernet]
    cases htagged : isVlanTpid ((Frame.ofBytes data).word 12) with
    | false =>
      rw [if_neg Bool.false_ne_true]
      exact hdecode false (classify_lt _ _ _) (by decide)
    | true =>
      rw [if_pos rfl]
      by_cases hvlan : (Frame.ofBytes data).data.length < 18
      · rw [if_pos hvlan]
        rfl
      · rw [if_neg hvlan]
        refine (hdecode _ (classify_lt _ _ _) (by omega)).trans ?_
        rw [if_pos hlegal]
        rfl

end Packed

/-! ### The hash -/

/-- `fingerprint_hash_with_length`. -/
def fingerprintHashWithLength (frameLen : Nat) (bytes : List UInt8) : Option (BitVec 64) :=
  if bytes.length ≠ min frameLen fingerprintPrefixLen then none
  else some (bytes.foldl (fun hash byte => fingerprintHashStep hash byte.toNat) (fingerprintHashInit frameLen))

def fingerprintHash (frame : List UInt8) : Option (BitVec 64) :=
  if frame.length < 2 ^ 16 then
    fingerprintHashWithLength frame.length (frame.take (min frame.length fingerprintPrefixLen))
  else none

/-- A loop over the first bytes, byte by byte or offset by offset. -/
theorem foldl_offsets {data : List UInt8} {n : Nat} (h : n ≤ data.length) (step : BitVec 64 → Nat → BitVec 64)
    (start : BitVec 64) :
    (List.range n).foldl (fun hash offset => step hash ((Frame.ofBytes data).byte offset)) start =
      (data.take n).foldl (fun hash byte => step hash byte.toNat) start := by
  have hmap : (data.take n).map (fun byte => byte.toNat) = (List.range n).map (Frame.ofBytes data).byte := by
    refine List.ext_getElem (by rw [List.length_map, List.length_map, List.length_range, List.length_take, Nat.min_eq_left h])
      fun i hi hi' => ?_
    rw [List.length_map, List.length_range] at hi'
    rw [List.getElem_map, List.getElem_map, List.getElem_take, List.getElem_range, Frame.byte, Frame.ofBytes,
      List.getD_eq_getElem]
  rw [← List.foldl_map (f := fun byte : UInt8 => byte.toNat) (g := step), hmap, List.foldl_map]

theorem fixedFingerprintHash_eq {data : List UInt8} (hlow : fingerprintPrefixLen ≤ data.length)
    (hhigh : data.length < 2 ^ 16) :
    fingerprintHash data = some (fixedFingerprintHash data.length (Frame.ofBytes (data.take fingerprintPrefixLen))) := by
  have hlength : (data.take fingerprintPrefixLen).length = fingerprintPrefixLen := by
    rw [List.length_take, Nat.min_eq_left hlow]
  unfold fingerprintHash fingerprintHashWithLength fixedFingerprintHash
  rw [if_pos hhigh, Nat.min_eq_right hlow, if_neg (fun hne => hne hlength), foldl_offsets hlength.ge, List.take_take,
    Nat.min_self]

/-- **The fast paths are the reference functions**: the class parser on a prefix, what
is decoded from its word, and the hash. -/
theorem fast_paths_eq (data : List UInt8) :
    Packed.parsePacket data = Packed.parseL2Word data ∧
      (Packed.parseL2 data =
        match parsePacket (Frame.ofBytes data) with
        | .truncatedEthernet => .error .truncatedEthernet
        | .truncatedVlan => .error .truncatedVlan
        | .success trafficClass outerVlanId nestedVlan =>
          .ok ⟨trafficClass, if isVlanTpid ((Frame.ofBytes data).word 12) then some outerVlanId else none, nestedVlan⟩) ∧
      (fingerprintPrefixLen ≤ data.length → data.length < 2 ^ 16 →
        fingerprintHash data = some (fixedFingerprintHash data.length (Frame.ofBytes (data.take fingerprintPrefixLen)))) :=
  ⟨Packed.parsePacket_eq data, Packed.parseL2_eq data, fixedFingerprintHash_eq⟩

/-- A frame of exactly sixty bytes takes all three paths. -/
theorem fast_paths_ipv4 :
    Packed.parsePacket (ipv4Frame 0x45 17).data = Packed.parseL2Word (ipv4Frame 0x45 17).data ∧
      fingerprintHash (ipv4Frame 0x45 17).data =
        some (fixedFingerprintHash 60 (Frame.ofBytes ((ipv4Frame 0x45 17).data.take fingerprintPrefixLen))) :=
  ⟨(fast_paths_eq (ipv4Frame 0x45 17).data).1, (fast_paths_eq (ipv4Frame 0x45 17).data).2.2 (by decide) (by decide)⟩

end NetworkLoop.Kernel
