import NetworkLoop.Kernel.Accounting

/-! Fingerprints in a map that evicts (`account_fingerprint` on the LRU map
`FINGERPRINTS`, and two scans of it by `fingerprint_window.rs`).

A live entry only grows: its first sighting and its addresses stay, its counters and its
last sighting do not go back (`Grown`). An eviction ends an entry, and an entry that is
gone at the second scan does no harm. One that was evicted and came back does: it is
another entry under the same key. `window_ready` has the run in which no scanned key is
inserted again; `storm_rejected` fills the map and lets one key come back. -/
namespace NetworkLoop.Kernel
open Library Observation Detection

/-- A packet that `account_fingerprint` is called for, and what the map evicts if the
packet's key has to be inserted. -/
structure Packet where
  interfaceGeneration : Nat
  ifindex : Nat
  direction : Nat
  frame : Frame
  nowNs : Nat
  evicted : List FingerprintKey

namespace Packet

def key? (p : Packet) : Option FingerprintKey := fingerprintKey? p.interfaceGeneration p.ifindex p.direction p.frame

def account (m : FingerprintMap) (p : Packet) : FingerprintMap :=
  accountFingerprint m p.interfaceGeneration p.ifindex p.direction p.frame p.nowNs p.evicted

end Packet

/-- The map after some packets, one after the other. -/
def accounted (m : FingerprintMap) (packets : List Packet) : FingerprintMap := packets.foldl Packet.account m

theorem accounted_append (m : FingerprintMap) (packets packets' : List Packet) :
    accounted m (packets ++ packets') = accounted (accounted m packets) packets' := List.foldl_append

@[simp] theorem accounted_cons (m : FingerprintMap) (p : Packet) (rest : List Packet) :
    accounted m (p :: rest) = accounted (p.account m) rest := rfl

@[simp] theorem accounted_nil (m : FingerprintMap) : accounted m [] = m := rfl

theorem Packet.account_some {m : FingerprintMap} {p : Packet} {key : FingerprintKey} (h : p.key? = some key) :
    p.account m = sighted m key p.frame p.nowNs p.evicted := by
  unfold Packet.key? at h
  unfold Packet.account accountFingerprint
  rw [h]

theorem Packet.account_cases {m : FingerprintMap} {p : Packet} :
    (p.key? = none ∧ p.account m = m) ∨
      ∃ key, p.key? = some key ∧ p.account m = sighted m key p.frame p.nowNs p.evicted ∧
        1 ≤ p.frame.bytes ∧ p.frame.bytes < u64Bound := by
  cases hkey : p.key? with
  | none =>
    refine .inl ⟨rfl, ?_⟩
    unfold Packet.key? at hkey
    rw [Packet.account, accountFingerprint, hkey]
  | some key =>
    have hbytes := (fingerprintKey?_spec hkey).2.2.2.2.2.2.2
    have hlength := (fingerprintKey?_isSome.mp (Option.isSome_iff_exists.mpr ⟨key, hkey⟩)).1
    exact .inr ⟨key, rfl, Packet.account_some hkey, by omega, hlength.trans (by decide)⟩

/-! ### What an entry becomes -/

/-- What the counters of a live entry do. -/
structure Grown (old new : FingerprintValue) : Prop where
  first : new.firstSeenNs = old.firstSeenNs
  source : new.sourceMac = old.sourceMac
  destination : new.destinationMac = old.destinationMac
  last : old.lastSeenNs ≤ new.lastSeenNs
  packets : old.packets ≤ new.packets
  bytes : old.bytes ≤ new.bytes
  gained : new.packets = old.packets → new.bytes = old.bytes

theorem Grown.refl (value : FingerprintValue) : Grown value value :=
  ⟨rfl, rfl, rfl, le_refl _, le_refl _, le_refl _, fun _ => rfl⟩

theorem Grown.trans {a b c : FingerprintValue} (h : Grown a b) (h' : Grown b c) : Grown a c where
  first := h'.first.trans h.first
  source := h'.source.trans h.source
  destination := h'.destination.trans h.destination
  last := h.last.trans h'.last
  packets := h.packets.trans h'.packets
  bytes := h.bytes.trans h'.bytes
  gained := by
    intro hsame
    have hmid : b.packets = a.packets := le_antisymm (hsame ▸ h'.packets) h.packets
    rw [h'.gained (hsame.trans hmid.symm), h.gained hmid]

/-- An entry whose counters are `u64`s. -/
structure Held (nowNs : Nat) (value : FingerprintValue) : Prop extends Sane nowNs value where
  capped : value.bytes < u64Bound

/-- A further packet only adds. A count of packets that is already at its maximum has as
many bytes, so it stays with them. -/
theorem Held.grown {nowNs laterNs bytes : Nat} {value : FingerprintValue} (h : Held nowNs value) (hle : nowNs ≤ laterNs) :
    Grown value (touched value laterNs bytes) where
  first := rfl
  source := rfl
  destination := rfl
  last := h.past.trans hle
  packets := by
    have := h.bytes
    have := h.capped
    simp only [touched, saturatingAdd, u64Bound] at *
    omega
  bytes := by
    have := h.capped
    simp only [touched, saturatingAdd, u64Bound] at *
    omega
  gained := by
    have := h.bytes
    have := h.capped
    simp only [touched, saturatingAdd, u64Bound] at *
    omega

theorem Held.later {nowNs laterNs : Nat} {value : FingerprintValue} (h : Held nowNs value) (hle : nowNs ≤ laterNs) :
    Held laterNs value := ⟨h.toSane.later hle, h.capped⟩

/-- An entry is sane at its own last sighting. -/
theorem Held.last {nowNs : Nat} {value : FingerprintValue} (h : Held nowNs value) : Held value.lastSeenNs value :=
  ⟨{h.toSane with past := le_refl _}, h.capped⟩

theorem Held.touched {nowNs laterNs bytes : Nat} {value : FingerprintValue} (h : Held nowNs value) (hle : nowNs ≤ laterNs)
    (hbytes : 1 ≤ bytes) : Held laterNs (touched value laterNs bytes) :=
  ⟨h.toSane.touched hle hbytes, by simp only [Kernel.touched, saturatingAdd, u64Bound]; omega⟩

/-! ### One packet, and a run of them -/

/-- Every entry of the map is sane at this time. -/
def FingerprintMap.HeldAt (m : FingerprintMap) (nowNs : Nat) : Prop :=
  ∀ key value, m.lookup key = some value → Held nowNs value

/-- What is in both maps only grew. -/
def FingerprintMap.GrownFrom (m scanned : FingerprintMap) : Prop :=
  ∀ key old new, scanned.lookup key = some old → m.lookup key = some new → Grown old new

/-- No packet inserts a key that was scanned: while such a key is missing from the map,
no packet of it comes. -/
def Lasting (scanned : FingerprintMap) : FingerprintMap → List Packet → Prop
  | _, [] => True
  | m, p :: rest => (∀ key, p.key? = some key → key ∈ scanned → key ∈ m) ∧ Lasting scanned (p.account m) rest

variable {m scanned : FingerprintMap} {nowNs : Nat} {p : Packet}

theorem FingerprintMap.HeldAt.account (h : m.HeldAt nowNs) (hle : nowNs ≤ p.nowNs) :
    (p.account m).HeldAt p.nowNs := by
  obtain ⟨-, hsame⟩ | ⟨key, -, hsighted, hbytes, hcapped⟩ := @Packet.account_cases m p
  · rw [hsame]
    exact fun key value hvalue => (h key value hvalue).later hle
  · rw [hsighted]
    intro key' value' hvalue'
    obtain ⟨-, ⟨value, hvalue, rfl⟩ | ⟨-, rfl⟩⟩ | ⟨-, hold⟩ := sighted_cases hvalue'
    · exact (h key value hvalue).touched hle hbytes
    · exact ⟨sane_fresh p.nowNs hbytes, hcapped⟩
    · exact (h key' value' hold).later hle

/-- A packet that does not insert a scanned key only makes the scanned entries grow. -/
theorem FingerprintMap.GrownFrom.account (h : m.GrownFrom scanned) (hheld : m.HeldAt nowNs) (hle : nowNs ≤ p.nowNs)
    (hlasting : ∀ key, p.key? = some key → key ∈ scanned → key ∈ m) : (p.account m).GrownFrom scanned := by
  obtain ⟨-, hsame⟩ | ⟨key, hkey, hsighted, -, -⟩ := @Packet.account_cases m p
  · rwa [hsame]
  · rw [hsighted]
    intro key' old new hold hnew
    obtain ⟨rfl, ⟨value, hvalue, rfl⟩ | ⟨hnone, -⟩⟩ | ⟨-, hkept⟩ := sighted_cases hnew
    · exact (h key' old value hold hvalue).trans ((hheld key' value hvalue).grown hle)
    · have hmem := hlasting key' hkey (AList.lookup_isSome.mp (Option.isSome_iff_exists.mpr ⟨old, hold⟩))
      exact absurd hmem (AList.lookup_eq_none.mp hnone)
    · exact h key' old new hold hkept

theorem FingerprintMap.HeldAt.accounted {packets : List Packet} (h : m.HeldAt nowNs)
    (hafter : ∀ p ∈ packets, nowNs ≤ p.nowNs) (hclock : packets.Pairwise fun p q => p.nowNs ≤ q.nowNs) :
    ∃ laterNs, (accounted m packets).HeldAt laterNs ∧ ∀ later, nowNs ≤ later → (∀ p ∈ packets, p.nowNs ≤ later) →
      laterNs ≤ later := by
  induction packets generalizing m nowNs with
  | nil => exact ⟨nowNs, h, fun later hle _ => hle⟩
  | cons p rest ih =>
    obtain ⟨hrest, hclock⟩ := List.pairwise_cons.mp hclock
    obtain ⟨laterNs, hheld, hmin⟩ := ih (h.account (hafter p List.mem_cons_self)) hrest hclock
    refine ⟨laterNs, hheld, fun later _ hall => ?_⟩
    obtain ⟨hp, hall⟩ := List.forall_mem_cons.mp hall
    exact hmin later hp hall

/-- **The scanned entries only grow** in a run in which they last. -/
theorem FingerprintMap.GrownFrom.accounted {packets : List Packet} (h : m.GrownFrom scanned) (hheld : m.HeldAt nowNs)
    (hafter : ∀ p ∈ packets, nowNs ≤ p.nowNs) (hclock : packets.Pairwise fun p q => p.nowNs ≤ q.nowNs)
    (hlasting : Lasting scanned m packets) : (accounted m packets).GrownFrom scanned := by
  induction packets generalizing m nowNs with
  | nil => exact h
  | cons p rest ih =>
    obtain ⟨hrest, hclock⟩ := List.pairwise_cons.mp hclock
    obtain ⟨hfirst, hlasting⟩ := hlasting
    have hle := hafter p List.mem_cons_self
    exact ih (h.account hheld hle hfirst) (hheld.account hle) hrest hclock hlasting

/-! ### Two scans -/

/-- What a scan of the map lists, in any order. -/
structure Scanned (m : FingerprintMap) (identity : RateIdentity) (evidence : List FingerprintEvidence) : Prop where
  complete : evidence.Perm m.scan
  valid : ∀ e ∈ evidence, validateEvidence e identity.ifindex identity.generation = .ok ()

variable {identity : RateIdentity} {evidence : List FingerprintEvidence}

theorem Scanned.lookup (h : Scanned m identity evidence) {e : FingerprintEvidence} (he : e ∈ evidence) :
    m.lookup e.key = some e.value := mem_scan.mp (h.complete.mem_iff.mp he)

theorem nodup_scan (m : FingerprintMap) : (m.scan.map (·.key)).Nodup := by
  rw [FingerprintMap.scan, List.map_map]
  exact m.nodupKeys

theorem Scanned.distinct (h : Scanned m identity evidence) : (evidence.map (·.key.exact)).Nodup := by
  have hkeys : (evidence.map (·.key)).Nodup := ((h.complete.map _).nodup_iff).mpr (nodup_scan m)
  rw [List.nodup_iff_pairwise_ne, List.pairwise_map] at hkeys ⊢
  exact hkeys.imp_of_mem fun he he' hne hexact => hne (key_eq (h.valid _ he) (h.valid _ he') hexact)

/-- The sums of the bytes of each direction fit in the report. -/
def Fits (evidence : List FingerprintEvidence) : Prop :=
  carried directionIngress (·.value.bytes) evidence < u64Bound ∧ carried directionEgress (·.value.bytes) evidence < u64Bound

theorem Scanned.sized (h : Scanned m identity evidence) (hlength : m.entries.length ≤ fingerprintCapacity)
    (hfits : Fits evidence) : Sized evidence where
  length := by rwa [h.complete.length_eq, FingerprintMap.scan, List.length_map]
  directions := fun e he => validateEvidence_direction (h.valid e he)
  ingressPackets := (carried_le fun e he => (validateEvidence_counts (h.valid e he)).2).trans_lt hfits.1
  ingressBytes := hfits.1
  egressPackets := (carried_le fun e he => (validateEvidence_counts (h.valid e he)).2).trans_lt hfits.2
  egressBytes := hfits.2

/-- What an entry of the later scan gained, when the entries of the earlier one only grew. -/
theorem entryDelta_grown {first second : List FingerprintEvidence} (hfirst : Scanned scanned identity first)
    (hsecond : Scanned m identity second) (hgrown : m.GrownFrom scanned) {item : FingerprintEvidence}
    (hitem : item ∈ second) :
    ∃ delta, entryDelta (sortEntries first) item = .ok delta ∧ (delta.packets = 0 → delta.bytes = 0) := by
  unfold entryDelta
  cases hfind : (sortEntries first).find? fun old => old.key.exact = item.key.exact with
  | none => exact ⟨_, rfl, fun hzero => absurd hzero (validateEvidence_counts (hsecond.valid item hitem)).1⟩
  | some old =>
    have hold : old ∈ first := (List.perm_insertionSort _ first).mem_iff.mp (List.mem_of_find?_eq_some hfind)
    have hkey : old.key = item.key :=
      key_eq (hfirst.valid old hold) (hsecond.valid item hitem) (by simpa using List.find?_some hfind)
    have hg := hgrown item.key old.value item.value (hkey ▸ hfirst.lookup hold) (hsecond.lookup hitem)
    have hlast := hg.last
    have hpackets := hg.packets
    have hbytes := hg.bytes
    have hsame : ¬(old.value.firstSeenNs ≠ item.value.firstSeenNs ∨ old.value.sourceMac ≠ item.value.sourceMac ∨
        old.value.destinationMac ≠ item.value.destinationMac) := by
      rw [hg.first, hg.source, hg.destination]
      simp
    dsimp only
    rw [if_neg hsame, if_neg (by omega)]
    refine ⟨_, rfl, fun hzero => ?_⟩
    have := hg.gained (le_antisymm (Nat.sub_eq_zero_iff_le.mp hzero) hpackets)
    dsimp only
    omega

/-- **A window over a map that evicts.** Two complete scans of valid entries, ten to
fifteen seconds apart, make a ready window if no packet between them inserts a key of the
first scan and the bytes in each scan fit. -/
theorem window_ready {before between : List Packet} {first second : List FingerprintEvidence}
    {startNs startMs endNs endMs : Nat}
    (hclock : (before ++ between).Pairwise fun p q => p.nowNs ≤ q.nowNs)
    (hlasting : Lasting (accounted ∅ before) (accounted ∅ before) between)
    (hfirst : Scanned (accounted ∅ before) identity first)
    (hsecond : Scanned (accounted ∅ (before ++ between)) identity second)
    (hlength : (accounted ∅ before).entries.length ≤ fingerprintCapacity)
    (hlength' : (accounted ∅ (before ++ between)).entries.length ≤ fingerprintCapacity)
    (hfits : Fits first) (hfits' : Fits second)
    (hwall : startMs ≤ endMs) (hlow : startNs + 10000000000 ≤ endNs) (hhigh : endNs ≤ startNs + 15000000000) :
    ∃ w w', (FingerprintWindowHistory.new identity).recordScan startNs startMs first = (.ok (), w) ∧
      w.recordScan endNs endMs second = (.ok (), w') ∧ w'.report.state = .ready := by
  obtain ⟨hbefore, hbetween, hacross⟩ := List.pairwise_append.mp hclock
  have hempty : FingerprintMap.HeldAt (∅ : FingerprintMap) 0 := fun key value h => by
    rw [AList.lookup_empty] at h
    cases h
  obtain ⟨nowNs, hheld, hmin⟩ := hempty.accounted (fun p _ => Nat.zero_le p.nowNs) hbefore
  have hstart : (accounted ∅ before).GrownFrom (accounted ∅ before) := by
    intro key old new hold hnew
    rw [hold] at hnew
    cases hnew
    exact .refl old
  have hgrown := hstart.accounted hheld
    (fun p hp => hmin p.nowNs (Nat.zero_le _) fun q hq => hacross q hq p hp) hbetween hlasting
  rw [← accounted_append] at hgrown
  have hok := validateScan_ok hfirst.valid hfirst.distinct (hfirst.sized hlength hfits)
  have hok' := validateScan_ok hsecond.valid hsecond.distinct (hsecond.sized hlength' hfits')
  have hdelta : ∀ item ∈ sortEntries second, ∃ delta, entryDelta (sortEntries first) item = .ok delta ∧
      (delta.packets = 0 → delta.bytes = 0) := fun item hitem =>
    entryDelta_grown hfirst hsecond hgrown ((List.perm_insertionSort _ second).mem_iff.mp hitem)
  have hregress : NonRegressing (sortEntries first) (sortEntries second) := by
    intro item hitem
    obtain ⟨delta, hok, -⟩ := hdelta item hitem
    rw [hok]
    rfl
  have hlopsided : lopsided (sortEntries first) (sortEntries second) = false := by
    refine not_lopsided fun item hitem delta hok => ?_
    obtain ⟨delta', hok', hbytes⟩ := hdelta item hitem
    cases hok.symm.trans hok'
    exact hbytes
  obtain ⟨report, hrecord, hready, -⟩ := FingerprintWindowHistory.recordScan_ready
    (w := ⟨identity, some ⟨startNs, startMs, sortEntries first⟩, .warming⟩) rfl hok' hregress hlopsided hwall hlow hhigh
  exact ⟨_, _, FingerprintWindowHistory.recordScan_first rfl hok, hrecord, hready⟩

/-! ### A storm -/

/-- The first 59 bytes of a broadcast with its own EtherType. -/
def stormPrefix (n : Nat) : List UInt8 :=
  [0xff, 0xff, 0xff, 0xff, 0xff, 0xff, 2, 0, 0, 0, 0, 1, UInt8.ofNat ((0x9000 + n) / 256), UInt8.ofNat ((0x9000 + n) % 256)] ++
    List.replicate 45 0

/-- The hash of the first 59 bytes. -/
def stormHash (n : Nat) : BitVec 64 :=
  (List.range 59).foldl (fun hash offset => fingerprintHashStep hash ((stormPrefix n).getD offset 0).toNat)
    (fingerprintHashInit 60)

/-- A broadcast of sixty bytes. The last byte is the one that makes the hash a selected one. -/
def stormFrame (n : Nat) : Frame where
  bytes := 60
  data := stormPrefix n ++ [UInt8.ofNat ((stormHash n).toNat % 16)]
  linear := le_of_eq (by rw [stormPrefix, List.length_append, List.length_append, List.length_replicate]; rfl)

theorem stormFrame_byte (n : Nat) {offset : Nat} (h : offset < 59) :
    (stormFrame n).byte offset = ((stormPrefix n).getD offset 0).toNat := by
  rw [Frame.byte, stormFrame, List.getD_append]
  exact h

theorem stormFrame_last (n : Nat) : (stormFrame n).byte 59 = (stormHash n).toNat % 16 := by
  have hlength : (stormPrefix n).length = 59 := rfl
  rw [Frame.byte, stormFrame, List.getD_append_right _ _ _ _ (le_of_eq hlength), hlength]
  show (UInt8.ofNat ((stormHash n).toNat % 16)).toNat = _
  rw [UInt8.toNat_ofNat']
  omega

/-- A byte that has the low bits of the hash clears them. -/
theorem fingerprintHashStep_selected (hash : BitVec 64) :
    fingerprintSelected (fingerprintHashStep hash (hash.toNat % 16)) = true := by
  have hclear : (hash ^^^ BitVec.ofNat 64 (hash.toNat % 16)).toNat % 2 ^ 4 = 0 := by
    have hlow : hash.toNat % 16 % 2 ^ 64 = hash.toNat % 16 := Nat.mod_eq_of_lt (by omega)
    rw [BitVec.toNat_xor, BitVec.toNat_ofNat, hlow, Nat.xor_mod_two_pow, Nat.mod_mod, Nat.xor_self]
  rw [fingerprintSelected, fingerprintHashStep, fingerprintSampleShift, BitVec.toNat_mul, beq_iff_eq,
    Nat.mod_mod_of_dvd _ (by norm_num), Nat.mul_mod, hclear, Nat.zero_mul, Nat.zero_mod]

theorem stormFrame_selected (n : Nat) : fingerprintSelected (fixedFingerprintHash 60 (stormFrame n)) = true := by
  have hprefix : (List.range 59).foldl (fun hash offset => fingerprintHashStep hash ((stormFrame n).byte offset))
      (fingerprintHashInit 60) = stormHash n := by
    refine List.foldl_ext _ _ _ fun hash offset hoffset => ?_
    rw [stormFrame_byte n (List.mem_range.mp hoffset)]
  rw [fixedFingerprintHash, fingerprintPrefixLen, List.range_succ, List.foldl_append, hprefix, List.foldl_cons,
    List.foldl_nil, stormFrame_last]
  exact fingerprintHashStep_selected (stormHash n)

def stormKey (n : Nat) : FingerprintKey where
  interfaceGeneration := 7
  fingerprint := (fixedFingerprintHash 60 (stormFrame n)).toNat
  ifindex := 2
  outerVlanId := noVlan
  etherType := 0x9000 + n
  frameLen := 60
  direction := directionIngress
  vlanDepth := 0
  protocol := 0
  subtype := 0
  reserved := [0, 0]

theorem stormFrame_word {n : Nat} (h : n ≤ 8192) : (stormFrame n).word 12 = 0x9000 + n := by
  rw [Frame.word, stormFrame_byte n (by decide), stormFrame_byte n (by decide)]
  show (UInt8.ofNat ((0x9000 + n) / 256)).toNat * 256 + (UInt8.ofNat ((0x9000 + n) % 256)).toNat = _
  rw [UInt8.toNat_ofNat', UInt8.toNat_ofNat']
  omega

theorem stormFrame_key {n : Nat} (h : n ≤ 8192) :
    fingerprintKey? 7 2 directionIngress (stormFrame n) = some (stormKey n) := by
  have hlength : (stormFrame n).data.length = 60 := rfl
  have htag : isVlanTpid (0x9000 + n) = false := by
    unfold isVlanTpid
    simp only [Bool.or_eq_false_iff, beq_eq_false_iff_ne]
    omega
  have hprotocol : fixedProtocolSubtypeUntagged (stormFrame n) (0x9000 + n) = (0, 0) := by
    rw [fixedProtocolSubtypeUntagged, fixedProtocolSubtype, if_neg (by omega), if_neg (by omega), if_neg (by omega)]
  have hmetadata : fixedFingerprintMetadata (stormFrame n) =
      {(fixedFingerprintMetadata (stormFrame n)) with
        outerVlanId := noVlan
        etherType := 0x9000 + n
        vlanDepth := 0
        protocol := 0
        subtype := 0} := by
    unfold fixedFingerprintMetadata
    simp [stormFrame_word h, htag, hprotocol]
  have hbytes : (stormFrame n).bytes = 60 := rfl
  unfold fingerprintKey?
  rw [if_pos (by rw [hbytes]; decide), if_neg (by rw [hlength]; decide), hbytes]
  dsimp only
  rw [if_pos (stormFrame_selected n), hmetadata]
  rfl

theorem stormKey_injective : Function.Injective stormKey := by
  intro n n' h
  have := congrArg FingerprintKey.etherType h
  simp only [stormKey] at this
  omega

def stormPacket (n nowNs : Nat) (evicted : List FingerprintKey) : Packet :=
  ⟨7, 2, directionIngress, stormFrame n, nowNs, evicted⟩

theorem stormPacket_account {n : Nat} (h : n ≤ 8192) (m : FingerprintMap) (nowNs : Nat) (evicted : List FingerprintKey) :
    (stormPacket n nowNs evicted).account m = sighted m (stormKey n) (stormFrame n) nowNs evicted :=
  Packet.account_some (p := stormPacket n nowNs evicted) (stormFrame_key h)

/-- Different frames, all at once. -/
def storm (n : Nat) : List Packet := (List.range n).map fun i => stormPacket i 5 []

theorem storm_entries {n : Nat} (h : n ≤ 8192) :
    (accounted ∅ (storm n)).entries = ((List.range n).map fun i => ⟨stormKey i, fresh (stormFrame i) 5⟩).reverse := by
  induction n with
  | zero => rfl
  | succ n ih =>
    have ih := ih (Nat.le_of_succ_le h)
    have hnew : stormKey n ∉ accounted ∅ (storm n) := by
      rw [AList.mem_keys, AList.keys, ih, List.keys, List.map_reverse, List.mem_reverse, List.map_map]
      rintro hmem
      obtain ⟨i, hi, hkey⟩ := List.mem_map.mp hmem
      have := stormKey_injective hkey
      have := List.mem_range.mp hi
      omega
    have hstep : accounted ∅ (storm (n + 1)) = (stormPacket n 5 []).account (accounted ∅ (storm n)) := by
      rw [storm, List.range_succ, List.map_append, List.map_singleton, accounted_append, accounted_cons, accounted_nil,
        storm]
    rw [hstep, stormPacket_account (Nat.le_of_succ_le h), sighted, AList.lookup_eq_none.mpr hnew]
    dsimp only
    rw [List.foldl_nil, AList.entries_insert_of_notMem hnew, ih, List.range_succ, List.map_append, List.reverse_append,
      List.map_singleton, List.reverse_singleton, List.singleton_append]

/-- An insertion for which one entry goes leaves the map as large as it was. -/
theorem sighted_length {m : FingerprintMap} {key old : FingerprintKey} {f : Frame} {nowNs : Nat} (hnew : key ∉ m)
    (hold : old ∈ m) : (sighted m key f nowNs [old]).entries.length = m.entries.length := by
  have hnew' : key ∉ m.erase old := fun hmem => hnew (AList.mem_erase.mp hmem).2
  have hkeys : (m.erase old).entries.length = m.entries.length - 1 := by
    have := List.length_erase_of_mem (AList.mem_keys.mp hold)
    rw [AList.keys, ← List.keys_kerase] at this
    show (m.entries.kerase old).length = _
    simpa only [List.keys, List.length_map] using this
  have hpos : 0 < m.entries.length := by
    have := List.length_pos_of_mem (AList.mem_keys.mp hold)
    simpa only [AList.keys, List.keys, List.length_map] using this
  rw [sighted, AList.lookup_eq_none.mpr hnew]
  dsimp only
  rw [List.foldl_cons, List.foldl_nil, AList.entries_insert_of_notMem hnew', List.length_cons, hkeys]
  omega

/-- What the map lists of a frame seen once. -/
def stormEntry (n nowNs : Nat) : FingerprintEvidence := ⟨stormKey n, fresh (stormFrame n) nowNs⟩

theorem stormEntry_valid (n nowNs : Nat) : validateEvidence (stormEntry n nowNs) 2 7 = .ok () := by
  have hbytes : (stormFrame n).bytes = 60 := rfl
  unfold validateEvidence stormEntry
  rw [if_neg]
  simp [stormKey, fresh, hbytes, noVlan]

theorem stormKey_exact {n n' : Nat} (h : (stormKey n).exact = (stormKey n').exact) : n = n' := by
  have hrelation := congrArg (fun k : RelationKey × Nat => k.1.etherType) h
  simp only [stormKey, FingerprintKey.exact, FingerprintKey.relation] at hrelation
  omega

variable {previous : List FingerprintEvidence}

/-- What stands for a frame in a scan of the storm is the frame itself, seen once. -/
theorem find_stormEntry (hprevious : ∀ old ∈ previous, ∃ i, old = stormEntry i 5) {n nowNs : Nat} {old : FingerprintEvidence}
    (hfind : previous.find? (fun old => old.key.exact = (stormEntry n nowNs).key.exact) = some old) : old = stormEntry n 5 := by
  obtain ⟨i, rfl⟩ := hprevious old (List.mem_of_find?_eq_some hfind)
  have hexact := List.find?_some hfind
  rw [decide_eq_true_eq] at hexact
  rw [show i = n from stormKey_exact hexact]

/-- After a scan of the storm, an entry either is as it was or has a new first sighting. -/
theorem entryDelta_storm (hprevious : ∀ old ∈ previous, ∃ i, old = stormEntry i 5) (n nowNs : Nat) :
    (∃ delta, entryDelta previous (stormEntry n nowNs) = .ok delta) ∨
      entryDelta previous (stormEntry n nowNs) = .error .immutableValueChanged := by
  unfold entryDelta
  cases hfind : previous.find? fun old => old.key.exact = (stormEntry n nowNs).key.exact with
  | none => exact .inl ⟨_, rfl⟩
  | some old =>
    obtain rfl := find_stormEntry hprevious hfind
    dsimp only
    by_cases hclock : 5 = nowNs
    · subst hclock
      rw [if_neg (by simp), if_neg (by simp)]
      exact .inl ⟨_, rfl⟩
    · rw [if_pos (.inl hclock)]
      exact .inr rfl

theorem entryDelta_returned (hprevious : ∀ old ∈ previous, ∃ i, old = stormEntry i 5) {n nowNs : Nat}
    (hmem : stormEntry n 5 ∈ previous) (hclock : 5 ≠ nowNs) :
    entryDelta previous (stormEntry n nowNs) = .error .immutableValueChanged := by
  unfold entryDelta
  cases hfind : previous.find? fun old => old.key.exact = (stormEntry n nowNs).key.exact with
  | none => exact absurd (List.find?_eq_none.mp hfind _ hmem) (by simp [stormEntry])
  | some old =>
    obtain rfl := find_stormEntry hprevious hfind
    dsimp only
    rw [if_pos (.inl hclock)]

/-- A new fingerprint takes the place of the first one of the storm, and then the first
one comes back and takes the place of the second. -/
def returning (size : Nat) : List Packet := [stormPacket size 20 [stormKey 0], stormPacket 0 30 [stormKey 1]]

variable {size : Nat}

theorem mem_storm_scan (hsize : size ≤ 8192) {e : FingerprintEvidence} :
    e ∈ (accounted ∅ (storm size)).scan ↔ ∃ i < size, e = stormEntry i 5 := by
  rw [FingerprintMap.scan, storm_entries hsize, List.map_reverse, List.mem_reverse, List.map_map, List.mem_map]
  simp only [List.mem_range, Function.comp_apply]
  constructor
  · rintro ⟨i, hi, rfl⟩
    exact ⟨i, hi, rfl⟩
  · rintro ⟨i, hi, rfl⟩
    exact ⟨i, hi, rfl⟩

theorem mem_storm (hsize : size ≤ 8192) {n : Nat} : stormKey n ∈ accounted ∅ (storm size) ↔ n < size := by
  rw [← AList.lookup_isSome, Option.isSome_iff_exists]
  constructor
  · rintro ⟨value, hvalue⟩
    obtain ⟨i, hi, he⟩ := (mem_storm_scan hsize).mp (mem_scan (e := ⟨stormKey n, value⟩).mpr hvalue)
    rwa [stormKey_injective (congrArg FingerprintEvidence.key he)]
  · intro h
    exact ⟨fresh (stormFrame n) 5, mem_scan.mp ((mem_storm_scan hsize).mpr ⟨n, h, rfl⟩)⟩

theorem returning_eq (hsize : size ≤ 8192) : accounted ∅ (storm size ++ returning size) =
    sighted (sighted (accounted ∅ (storm size)) (stormKey size) (stormFrame size) 20 [stormKey 0]) (stormKey 0)
      (stormFrame 0) 30 [stormKey 1] := by
  rw [accounted_append, returning, accounted_cons, accounted_cons, accounted_nil, stormPacket_account hsize,
    @stormPacket_account 0 (Nat.zero_le _)]

theorem mem_sighted_new {m : FingerprintMap} {key old key' : FingerprintKey} {f : Frame} {nowNs : Nat} (hnew : key ∉ m) :
    key' ∈ sighted m key f nowNs [old] ↔ key' = key ∨ (key' ≠ old ∧ key' ∈ m) := by
  rw [sighted, AList.lookup_eq_none.mpr hnew]
  dsimp only
  rw [List.foldl_cons, List.foldl_nil, AList.mem_insert, AList.mem_erase]

/-- Both insertions are of keys that are not there, and evict one that is. -/
theorem returning_spec (hsize : size ≤ 8192) (htwo : 2 ≤ size) :
    (stormKey size ∉ accounted ∅ (storm size) ∧ stormKey 0 ∈ accounted ∅ (storm size)) ∧
      stormKey 0 ∉ sighted (accounted ∅ (storm size)) (stormKey size) (stormFrame size) 20 [stormKey 0] ∧
      stormKey 1 ∈ sighted (accounted ∅ (storm size)) (stormKey size) (stormFrame size) 20 [stormKey 0] := by
  have hnew : stormKey size ∉ accounted ∅ (storm size) := (mem_storm hsize).not.mpr (lt_irrefl size)
  have hne : ∀ {i j : Nat}, i ≠ j → stormKey i ≠ stormKey j := fun h heq => h (stormKey_injective heq)
  refine ⟨⟨hnew, (mem_storm hsize).mpr (by omega)⟩, ?_, ?_⟩
  · rw [mem_sighted_new hnew]
    rintro (h | ⟨h, -⟩)
    · exact hne (by omega) h
    · exact h rfl
  · rw [mem_sighted_new hnew]
    exact .inr ⟨hne (by omega), (mem_storm hsize).mpr (by omega)⟩

theorem returning_length (hsize : size ≤ 8192) (htwo : 2 ≤ size) : (accounted ∅ (storm size)).entries.length = size ∧
    (accounted ∅ (storm size ++ returning size)).entries.length = size := by
  obtain ⟨⟨hnew, hold⟩, hnew', hold'⟩ := returning_spec hsize htwo
  have hfull : (accounted ∅ (storm size)).entries.length = size := by
    rw [storm_entries hsize, List.length_reverse, List.length_map, List.length_range]
  rw [returning_eq hsize, sighted_length hnew' hold', sighted_length hnew hold]
  exact ⟨hfull, hfull⟩

theorem returning_scan (hsize : size ≤ 8192) (htwo : 2 ≤ size) :
    (∀ e ∈ (accounted ∅ (storm size ++ returning size)).scan, ∃ n nowNs, e = stormEntry n nowNs) ∧
      stormEntry 0 30 ∈ (accounted ∅ (storm size ++ returning size)).scan := by
  obtain ⟨⟨hnew, -⟩, hnew', -⟩ := returning_spec hsize htwo
  rw [returning_eq hsize]
  constructor
  · intro e he
    obtain ⟨hkey, ⟨value, hvalue, -⟩ | ⟨-, hvalue⟩⟩ | ⟨-, he⟩ := sighted_cases (mem_scan.mp he)
    · exact absurd (AList.lookup_isSome.mp (Option.isSome_iff_exists.mpr ⟨value, hvalue⟩)) hnew'
    · exact ⟨0, 30, by rw [stormEntry, ← hkey, ← hvalue]⟩
    · obtain ⟨hkey, ⟨value, hvalue, -⟩ | ⟨-, hvalue⟩⟩ | ⟨-, he⟩ := sighted_cases he
      · exact absurd (AList.lookup_isSome.mp (Option.isSome_iff_exists.mpr ⟨value, hvalue⟩)) hnew
      · exact ⟨size, 20, by rw [stormEntry, ← hkey, ← hvalue]⟩
      · obtain ⟨i, -, he⟩ := (mem_storm_scan hsize).mp (mem_scan.mpr he)
        exact ⟨i, 5, he⟩
  · refine mem_scan.mpr ?_
    rw [sighted, AList.lookup_eq_none.mpr hnew']
    exact AList.lookup_insert _

/-- The sums of a scan of the storm are far below their bound. -/
theorem storm_fits {evidence : List FingerprintEvidence} (h : ∀ e ∈ evidence, ∃ n nowNs, e = stormEntry n nowNs)
    (hlength : evidence.length ≤ fingerprintCapacity) : Fits evidence := by
  have hbound : ∀ direction, carried direction (·.value.bytes) evidence < u64Bound := by
    intro direction
    have hsum : carried direction (·.value.bytes) evidence ≤ (ofDirection direction evidence).length * 60 := by
      refine (List.sum_le_card_nsmul _ 60 fun bytes hbytes => ?_).trans_eq (by rw [List.length_map, smul_eq_mul])
      obtain ⟨e, he, rfl⟩ := List.mem_map.mp hbytes
      obtain ⟨n, nowNs, rfl⟩ := h e (List.mem_filter.mp he).1
      exact le_refl 60
    have hfilter : (ofDirection direction evidence).length ≤ evidence.length := List.length_filter_le _ _
    rw [fingerprintCapacity] at hlength
    rw [u64Bound]
    omega
  exact ⟨hbound directionIngress, hbound directionEgress⟩

theorem stormIfindex_ne : 2 ≠ 0 := by decide

theorem stormGeneration_ne : 7 ≠ 0 := by decide

/-- The interface of the storm. -/
def stormIdentity : RateIdentity := ⟨2, 7, stormIfindex_ne, stormGeneration_ne⟩

/-- Two sightings of one frame, with a scan after each. -/
theorem window_ready_storm :
    ∃ w w', (FingerprintWindowHistory.new stormIdentity).recordScan 10 10 (accounted ∅ (storm 1)).scan = (.ok (), w) ∧
      w.recordScan 10000000010 10010 (accounted ∅ (storm 1 ++ [stormPacket 0 20 []])).scan = (.ok (), w') ∧
      w'.report.state = .ready := by
  have hvalid : ∀ e ∈ (accounted ∅ (storm 1)).scan, validateEvidence e 2 7 = .ok () := by decide +kernel
  have hvalid' : ∀ e ∈ (accounted ∅ (storm 1 ++ [stormPacket 0 20 []])).scan, validateEvidence e 2 7 = .ok () := by
    decide +kernel
  have hclock : (storm 1 ++ [stormPacket 0 20 []]).Pairwise fun p q => p.nowNs ≤ q.nowNs :=
    List.pairwise_pair.mpr (by decide : 5 ≤ 20)
  have hlasting : Lasting (accounted ∅ (storm 1)) (accounted ∅ (storm 1)) [stormPacket 0 20 []] :=
    ⟨fun _ _ h => h, trivial⟩
  refine window_ready hclock hlasting ⟨.refl _, hvalid⟩ ⟨.refl _, hvalid'⟩ ?_ ?_ ?_ ?_ (by decide) (by decide) (by decide)
  all_goals
    unfold Fits at *
    decide +kernel

/-- With the map full, a new fingerprint evicts one that the first scan listed; that one
comes back and evicts another. All entries of both scans are valid, yet the second scan
is rejected. -/
theorem returning_rejected (hsize : size ≤ 8192) (htwo : 2 ≤ size) :
    ((storm size ++ returning size).Pairwise fun p q => p.nowNs ≤ q.nowNs) ∧
      ((∀ e ∈ (accounted ∅ (storm size)).scan, validateEvidence e 2 7 = .ok ()) ∧
        ∀ e ∈ (accounted ∅ (storm size ++ returning size)).scan, validateEvidence e 2 7 = .ok ()) ∧
      ∃ w, (FingerprintWindowHistory.new stormIdentity).recordScan 10 10 (accounted ∅ (storm size)).scan = (.ok (), w) ∧
        (w.recordScan 10000000010 10010 (accounted ∅ (storm size ++ returning size)).scan).1 =
          .error .immutableValueChanged := by
  have hfirst : ∀ e ∈ (accounted ∅ (storm size)).scan, ∃ n nowNs, e = stormEntry n nowNs := by
    intro e he
    obtain ⟨i, -, rfl⟩ := (mem_storm_scan hsize).mp he
    exact ⟨i, 5, rfl⟩
  obtain ⟨hsecond, hreturned⟩ := returning_scan hsize htwo
  obtain ⟨hlength, hlength'⟩ := returning_length hsize htwo
  have hvalid : ∀ {evidence : List FingerprintEvidence}, (∀ e ∈ evidence, ∃ n nowNs, e = stormEntry n nowNs) →
      ∀ e ∈ evidence, validateEvidence e 2 7 = .ok () := by
    intro evidence h e he
    obtain ⟨n, nowNs, rfl⟩ := h e he
    exact stormEntry_valid n nowNs
  have hscan : ∀ {m : FingerprintMap}, (∀ e ∈ m.scan, ∃ n nowNs, e = stormEntry n nowNs) →
      m.entries.length = size → validateScan stormIdentity m.scan = .ok (sortEntries m.scan) := by
    intro m h hm
    have hscanned : Scanned m stormIdentity m.scan := ⟨.refl _, hvalid h⟩
    exact validateScan_ok hscanned.valid hscanned.distinct (hscanned.sized (hm.trans_le hsize)
      (storm_fits h (by rwa [FingerprintMap.scan, List.length_map, hm, fingerprintCapacity])))
  refine ⟨?_, ⟨hvalid hfirst, hvalid hsecond⟩, _,
    FingerprintWindowHistory.recordScan_first rfl (hscan hfirst hlength), ?_⟩
  · refine List.pairwise_append.mpr ⟨?_, ?_, fun p hp q hq => ?_⟩
    · exact List.pairwise_map.mpr (List.pairwise_of_forall fun _ _ => le_refl 5)
    · exact List.pairwise_pair.mpr (by decide : 20 ≤ 30)
    · obtain ⟨i, -, rfl⟩ := List.mem_map.mp hp
      obtain rfl | hq := List.mem_cons.mp hq
      · exact (by decide : 5 ≤ 20)
      · rw [List.mem_singleton.mp hq]
        exact (by decide : 5 ≤ 30)
  · have hprevious : ∀ old ∈ sortEntries (accounted ∅ (storm size)).scan, ∃ i, old = stormEntry i 5 := by
      intro old hold
      obtain ⟨i, -, rfl⟩ := (mem_storm_scan hsize).mp ((List.perm_insertionSort _ _).mem_iff.mp hold)
      exact ⟨i, rfl⟩
    have hmem : stormEntry 0 5 ∈ sortEntries (accounted ∅ (storm size)).scan :=
      (List.perm_insertionSort _ _).mem_iff.mpr ((mem_storm_scan hsize).mpr ⟨0, by omega, rfl⟩)
    refine FingerprintWindowHistory.recordScan_fails rfl (hscan hsecond hlength') (by norm_num : 10 ≤ 10010)
      (by norm_num : 10 + 10000000000 ≤ 10000000010) (by norm_num : 10000000010 ≤ 10 + 15000000000) fun coverageMs => buildWindow_fails coverageMs (fun item hitem => ?_) ?_
    · obtain ⟨n, nowNs, rfl⟩ := hsecond item ((List.perm_insertionSort _ _).mem_iff.mp hitem)
      exact ⟨rfl, entryDelta_storm hprevious n nowNs⟩
    · exact ⟨stormEntry 0 30, (List.perm_insertionSort _ _).mem_iff.mpr hreturned,
        entryDelta_returned hprevious hmem (by decide)⟩

/-- **A storm of more fingerprints than the map holds**: 8192 fill it, two more packets
follow, and the next window fails. -/
theorem storm_rejected :
    ((accounted ∅ (storm 8192)).entries.length = fingerprintCapacity ∧
        (accounted ∅ (storm 8192 ++ returning 8192)).entries.length = fingerprintCapacity) ∧
      ((storm 8192 ++ returning 8192).Pairwise fun p q => p.nowNs ≤ q.nowNs) ∧
      ((∀ e ∈ (accounted ∅ (storm 8192)).scan, validateEvidence e 2 7 = .ok ()) ∧
        ∀ e ∈ (accounted ∅ (storm 8192 ++ returning 8192)).scan, validateEvidence e 2 7 = .ok ()) ∧
      ∃ w, (FingerprintWindowHistory.new stormIdentity).recordScan 10 10 (accounted ∅ (storm 8192)).scan = (.ok (), w) ∧
        (w.recordScan 10000000010 10010 (accounted ∅ (storm 8192 ++ returning 8192)).scan).1 =
          .error .immutableValueChanged :=
  ⟨returning_length le_rfl (by norm_num), returning_rejected le_rfl (by norm_num)⟩

end NetworkLoop.Kernel
