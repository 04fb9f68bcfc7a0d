import NetworkLoop.Kernel.Frames
import NetworkLoop.Observation.Interleaving
import NetworkLoop.Observation.Scans

/-! Accounting a frame (`account_layer` and `account_fingerprint` of `programs.rs`), one
after the other on one CPU.

What a fingerprint entry says of its own history, that its last sighting is not before
its first and not after the clock and that it counts at least a byte a packet, holds
whatever the frames are (`Sane`). The rest of an entry is its key, which a frame alone
decides. `entries_valid_iff` puts the two together: user space accepts every entry of
the map as long as no frame with VLAN ID 4095 was sampled, and rejects the scan from the
first such frame on. -/
namespace NetworkLoop.Kernel
open Library Observation

/-- `u64::saturating_add`. -/
def saturatingAdd (a b : Nat) : Nat := min (a + b) (u64Bound - 1)

/-! ### The fingerprint map -/

abbrev FingerprintMap := AList fun _ : FingerprintKey => FingerprintValue

/-- What user space reads of the map. -/
def FingerprintMap.scan (m : FingerprintMap) : List FingerprintEvidence := m.entries.map fun e => ⟨e.1, e.2⟩

/-- A further packet of an entry. -/
def touched (value : FingerprintValue) (nowNs bytes : Nat) : FingerprintValue :=
  {value with
    lastSeenNs := nowNs
    packets := saturatingAdd value.packets 1
    bytes := saturatingAdd value.bytes bytes}

/-- The first packet of an entry. -/
def fresh (f : Frame) (nowNs : Nat) : FingerprintValue where
  firstSeenNs := nowNs
  lastSeenNs := nowNs
  packets := 1
  bytes := f.bytes
  sourceMac := (fixedFingerprintMetadata f).sourceMac
  destinationMac := (fixedFingerprintMetadata f).destinationMac
  reserved := [0, 0, 0, 0]

/-- The lookup and what follows it. The map is an LRU map: an insertion may evict some
entries, here `evicted`, and then succeeds. -/
def sighted (m : FingerprintMap) (key : FingerprintKey) (f : Frame) (nowNs : Nat) (evicted : List FingerprintKey) :
    FingerprintMap :=
  match m.lookup key with
  | some value => m.insert key (touched value nowNs f.bytes)
  | none => (evicted.foldl (fun m key => m.erase key) m).insert key (fresh f nowNs)

def accountFingerprint (m : FingerprintMap) (interfaceGeneration ifindex direction : Nat) (f : Frame) (nowNs : Nat)
    (evicted : List FingerprintKey) : FingerprintMap :=
  match fingerprintKey? interfaceGeneration ifindex direction f with
  | none => m
  | some key => sighted m key f nowNs evicted

/-! ### Reading the map -/

theorem mem_scan {m : FingerprintMap} {e : FingerprintEvidence} : e ∈ m.scan ↔ m.lookup e.key = some e.value := by
  rw [FingerprintMap.scan, List.mem_map]
  constructor
  · rintro ⟨entry, hentry, rfl⟩
    exact AList.mem_lookup_iff.mpr hentry
  · intro h
    exact ⟨⟨e.key, e.value⟩, AList.mem_lookup_iff.mp h, rfl⟩

/-- Evictions only remove. -/
theorem lookup_evict {m : FingerprintMap} {evicted : List FingerprintKey} {key : FingerprintKey} {value : FingerprintValue}
    (h : (evicted.foldl (fun m key => m.erase key) m).lookup key = some value) : m.lookup key = some value := by
  induction evicted generalizing m with
  | nil => exact h
  | cons first rest ih =>
    have hrest := ih h
    by_cases hkey : key = first
    · rw [hkey, AList.lookup_erase] at hrest
      cases hrest
    · rwa [AList.lookup_erase_ne hkey] at hrest

/-- The entries after a sighting: the one of the frame, touched or fresh, and what was not evicted. -/
theorem sighted_cases {m : FingerprintMap} {key key' : FingerprintKey} {f : Frame} {nowNs : Nat}
    {evicted : List FingerprintKey} {value' : FingerprintValue}
    (h : (sighted m key f nowNs evicted).lookup key' = some value') :
    (key' = key ∧ ((∃ value, m.lookup key = some value ∧ value' = touched value nowNs f.bytes) ∨
        (m.lookup key = none ∧ value' = fresh f nowNs))) ∨
      (key' ≠ key ∧ m.lookup key' = some value') := by
  unfold sighted at h
  cases hlookup : m.lookup key with
  | some value =>
    rw [hlookup] at h
    by_cases hkey : key' = key
    · subst hkey
      rw [AList.lookup_insert] at h
      exact .inl ⟨rfl, .inl ⟨value, rfl, (Option.some.inj h).symm⟩⟩
    · rw [AList.lookup_insert_ne hkey] at h
      exact .inr ⟨hkey, h⟩
  | none =>
    rw [hlookup] at h
    by_cases hkey : key' = key
    · subst hkey
      rw [AList.lookup_insert] at h
      exact .inl ⟨rfl, .inr ⟨rfl, (Option.some.inj h).symm⟩⟩
    · rw [AList.lookup_insert_ne hkey] at h
      exact .inr ⟨hkey, lookup_evict h⟩

/-- Without evictions nothing is lost, and the frame's key is there. -/
theorem mem_sighted {m : FingerprintMap} {key key' : FingerprintKey} {f : Frame} {nowNs : Nat} :
    key' ∈ sighted m key f nowNs [] ↔ key' = key ∨ key' ∈ m := by
  unfold sighted
  split
  · exact AList.mem_insert m
  · exact AList.mem_insert m

/-! ### A layer -/

namespace HookRole

def externalXdpIngress : Nat := 1
def physicalTcEgress : Nat := 2
def temporaryPathIngress : Nat := 3
def temporaryPathEgress : Nat := 4

end HookRole

/-- The fields of `InterfaceConfig` that the programs read. -/
structure InterfaceConfig where
  interfaceGeneration : Nat
  vlanVisibility : Nat
  sampleShift : Nat
  deriving DecidableEq, Repr

structure StatsKey where
  interfaceGeneration : Nat
  ifindex : Nat
  hookRole : Nat
  trafficClass : Nat
  verdict : Nat
  reason : Nat
  deriving DecidableEq, Repr

namespace StatsKey

def total (generation ifindex hookRole : Nat) : StatsKey := ⟨generation, ifindex, hookRole, TrafficClass.all, 1, 0⟩

def classified (generation ifindex hookRole trafficClass : Nat) : StatsKey :=
  ⟨generation, ifindex, hookRole, trafficClass, 1, 0⟩

def parseError (generation ifindex hookRole : Nat) : StatsKey :=
  ⟨generation, ifindex, hookRole, TrafficClass.unicastOrUnclassified, 4, 2⟩

end StatsKey

/-- The maps of the programs: `IFACE_CONFIG`, the slots of `HOOK_STATS` of one CPU, and
`FINGERPRINTS`. -/
structure Maps where
  ifaceConfig : Nat → Option InterfaceConfig
  hookStats : StatsKey → Option ObservationCounters
  fingerprints : FingerprintMap

/-- `increment_existing`. -/
def incrementExisting (stats : StatsKey → Option ObservationCounters) (key : StatsKey) (bytes : Nat) :
    StatsKey → Option ObservationCounters :=
  Function.update stats key ((stats key).map (·.increment bytes))

/-- The mark that a tagged frame leaves in the configuration: `UNKNOWN` is 0, `VERIFIED_VISIBLE` 1. -/
def markVisible (configs : Nat → Option InterfaceConfig) (ifindex interfaceGeneration : Nat) : Nat → Option InterfaceConfig :=
  match configs ifindex with
  | none => configs
  | some config =>
    if config.interfaceGeneration = interfaceGeneration ∧ config.vlanVisibility = 0 then
      Function.update configs ifindex (some {config with vlanVisibility := 1})
    else configs

/-- The direction of a hook's fingerprints; the other hooks have none. -/
def fingerprintDirection (hookRole : Nat) : Option Nat :=
  if hookRole = HookRole.externalXdpIngress then some directionIngress
  else if hookRole = HookRole.physicalTcEgress then some directionEgress
  else none

/-- `account_layer` with fingerprints. -/
def accountLayer (maps : Maps) (ifindex hookRole : Nat) (f : Frame) (nowNs : Nat) (evicted : List FingerprintKey) : Maps :=
  match maps.ifaceConfig ifindex with
  | none => maps
  | some config =>
    let generation := config.interfaceGeneration
    let counted := incrementExisting maps.hookStats (.total generation ifindex hookRole) f.bytes
    let parsed := parsePacket f
    if parsed.isError then
      {maps with hookStats := incrementExisting counted (.parseError generation ifindex hookRole) f.bytes}
    else
      let maps := {maps with
        ifaceConfig :=
          if parsed.hasOuterVlan ∧ config.vlanVisibility = 0 then markVisible maps.ifaceConfig ifindex generation
          else maps.ifaceConfig
        hookStats := incrementExisting counted (.classified generation ifindex hookRole parsed.trafficClass) f.bytes}
      if config.sampleShift = fingerprintSampleShift then
        match fingerprintDirection hookRole with
        | none => maps
        | some direction =>
          {maps with fingerprints := accountFingerprint maps.fingerprints generation ifindex direction f nowNs evicted}
      else maps

/-! ### What an entry says of itself -/

/-- The part of `validate_evidence` that no frame can break: the counters and the times. -/
structure Sane (nowNs : Nat) (value : FingerprintValue) : Prop where
  seen : value.firstSeenNs ≤ value.lastSeenNs
  past : value.lastSeenNs ≤ nowNs
  packets : 1 ≤ value.packets
  bytes : value.packets ≤ value.bytes
  reserved : value.reserved = [0, 0, 0, 0]

theorem Sane.later {nowNs later : Nat} {value : FingerprintValue} (h : Sane nowNs value) (hle : nowNs ≤ later) :
    Sane later value := {h with past := h.past.trans hle}

theorem Sane.touched {nowNs later bytes : Nat} {value : FingerprintValue} (h : Sane nowNs value) (hle : nowNs ≤ later)
    (hbytes : 1 ≤ bytes) : Sane later (touched value later bytes) where
  seen := h.seen.trans (h.past.trans hle)
  past := le_refl later
  packets := by
    have := h.packets
    simp only [Kernel.touched, saturatingAdd, u64Bound]
    omega
  bytes := by
    have := h.bytes
    simp only [Kernel.touched, saturatingAdd]
    omega
  reserved := h.reserved

theorem sane_fresh {f : Frame} (nowNs : Nat) (hbytes : 1 ≤ f.bytes) : Sane nowNs (fresh f nowNs) where
  seen := le_refl nowNs
  past := le_refl nowNs
  packets := le_refl 1
  bytes := hbytes
  reserved := rfl

/-- What `validate_evidence` checks of a key. -/
def ValidKey (key : FingerprintKey) (ifindex generation : Nat) : Prop :=
  key.interfaceGeneration = generation ∧ key.ifindex = ifindex ∧
    (key.direction = directionIngress ∨ key.direction = directionEgress) ∧
    (key.outerVlanId = noVlan ∨ key.outerVlanId ≤ 4094) ∧ key.vlanDepth ≤ 2 ∧ key.reserved = [0, 0]

instance (key : FingerprintKey) (ifindex generation : Nat) : Decidable (ValidKey key ifindex generation) :=
  inferInstanceAs (Decidable (_ ∧ _))

/-- Of a sane entry, only the key can be wrong. -/
theorem Sane.valid_iff {nowNs generation ifindex : Nat} {e : FingerprintEvidence} (hsane : Sane nowNs e.value) :
    validateEvidence e ifindex generation = .ok () ↔ ValidKey e.key ifindex generation := by
  have hseen := hsane.seen
  have hpackets := hsane.packets
  have hbytes := hsane.bytes
  have hreserved := hsane.reserved
  unfold validateEvidence ValidKey
  split
  · rename_i hbad
    refine iff_of_false (by simp) ?_
    rintro ⟨hgeneration, hifindex, hdirection, hvlan, hdepth, hkey⟩
    rcases hbad with h | h | h | h | h | h | h | h | h | h
    · exact h hgeneration
    · exact h hifindex
    · exact h hdirection
    · exact h hvlan
    · omega
    · exact h hkey
    · exact h hreserved
    all_goals omega
  · rename_i hgood
    push Not at hgood
    obtain ⟨hgeneration, hifindex, hdirection, hvlan, hdepth, hkey, -⟩ := hgood
    exact iff_of_true rfl ⟨hgeneration, hifindex, by tauto, by tauto, hdepth, hkey⟩

/-- **What user space checks of an entry** beyond what every entry meets: the VLAN ID. -/
theorem validateEvidence_iff {nowNs generation ifindex : Nat} {e : FingerprintEvidence} (hsane : Sane nowNs e.value)
    {direction : Nat} (hdirection : direction = directionIngress ∨ direction = directionEgress) {f : Frame}
    (hkey : fingerprintKey? generation ifindex direction f = some e.key) :
    validateEvidence e ifindex generation = .ok () ↔ f.reservedVlan = false := by
  obtain ⟨hgeneration, hifindex, hdir, -, hvlan, hdepth, hreserved, -⟩ := fingerprintKey?_spec hkey
  rw [hsane.valid_iff, ← outerVlanId_cases, ValidKey, hdir, hvlan]
  constructor
  · rintro ⟨-, -, -, hid, -⟩
    exact hid
  · exact fun hid => ⟨hgeneration, hifindex, hdirection, hid, hdepth, hreserved⟩

/-! ### A run of frames -/

/-- A frame at a hook of the interface, and the clock when it is there. -/
structure Arrival where
  hookRole : Nat
  frame : Frame
  nowNs : Nat

/-- The frames of the interface, accounted in their order; nothing is evicted. -/
def processed (ifindex : Nat) (maps : Maps) (arrivals : List Arrival) : Maps :=
  arrivals.foldl (fun maps a => accountLayer maps ifindex a.hookRole a.frame a.nowNs []) maps

/-- What decides that a frame is sampled: fingerprints are on, the hook has a direction,
sixty bytes can be read, the length has sixteen bits and the hash is selected. -/
def Arrival.sampled (a : Arrival) (config : InterfaceConfig) : Prop :=
  config.sampleShift = fingerprintSampleShift ∧
    (a.hookRole = HookRole.externalXdpIngress ∨ a.hookRole = HookRole.physicalTcEgress) ∧
    a.frame.bytes < 2 ^ 16 ∧ fingerprintPrefixLen ≤ a.frame.data.length ∧
    fingerprintSelected (fixedFingerprintHash a.frame.bytes a.frame) = true

/-- The key that a frame is accounted under. -/
def Arrival.key? (a : Arrival) (config : InterfaceConfig) (ifindex : Nat) : Option FingerprintKey :=
  if config.sampleShift = fingerprintSampleShift then
    (fingerprintDirection a.hookRole).bind fun direction =>
      fingerprintKey? config.interfaceGeneration ifindex direction a.frame
  else none

theorem fingerprintDirection_eq {hookRole direction : Nat} (h : fingerprintDirection hookRole = some direction) :
    (hookRole = HookRole.externalXdpIngress ∨ hookRole = HookRole.physicalTcEgress) ∧
      (direction = directionIngress ∨ direction = directionEgress) := by
  unfold fingerprintDirection at h
  split at h
  · cases h
    exact ⟨.inl ‹_›, .inl rfl⟩
  · split at h
    · cases h
      exact ⟨.inr ‹_›, .inr rfl⟩
    · cases h

theorem fingerprintKey?_isSome {generation ifindex direction : Nat} {f : Frame} :
    (fingerprintKey? generation ifindex direction f).isSome ↔
      f.bytes < 2 ^ 16 ∧ fingerprintPrefixLen ≤ f.data.length ∧
        fingerprintSelected (fixedFingerprintHash f.bytes f) = true := by
  unfold fingerprintKey?
  by_cases hlength : f.bytes < 2 ^ 16
  · by_cases hdata : f.data.length < fingerprintPrefixLen
    · simp [hdata]
    · cases hselected : fingerprintSelected (fixedFingerprintHash f.bytes f) <;>
        simp [hdata, hselected, Nat.not_lt.mp hdata]
  · rw [if_neg hlength]
    exact iff_of_false Bool.false_ne_true fun h => hlength h.1

theorem Arrival.sampled_iff {a : Arrival} {config : InterfaceConfig} {ifindex : Nat} :
    a.sampled config ↔ ∃ key, a.key? config ifindex = some key := by
  unfold Arrival.sampled Arrival.key?
  constructor
  · rintro ⟨hshift, hhook, hframe⟩
    obtain ⟨direction, hdirection⟩ : ∃ direction, fingerprintDirection a.hookRole = some direction := by
      obtain hhook | hhook := hhook
      · exact ⟨directionIngress, by rw [hhook]; rfl⟩
      · exact ⟨directionEgress, by rw [hhook]; rfl⟩
    rw [if_pos hshift, hdirection]
    exact Option.isSome_iff_exists.mp ((@fingerprintKey?_isSome _ _ direction _).mpr hframe)
  · rintro ⟨key, hkey⟩
    split at hkey
    · rename_i hshift
      cases hdirection : fingerprintDirection a.hookRole with
      | none =>
        rw [hdirection] at hkey
        cases hkey
      | some direction =>
        rw [hdirection] at hkey
        exact ⟨hshift, (fingerprintDirection_eq hdirection).1,
          fingerprintKey?_isSome.mp (Option.isSome_iff_exists.mpr ⟨key, hkey⟩)⟩
    · cases hkey

theorem Arrival.key?_spec {a : Arrival} {config : InterfaceConfig} {ifindex : Nat} {key : FingerprintKey}
    (h : a.key? config ifindex = some key) :
    ∃ direction, (direction = directionIngress ∨ direction = directionEgress) ∧
      fingerprintKey? config.interfaceGeneration ifindex direction a.frame = some key := by
  unfold Arrival.key? at h
  split at h
  · obtain ⟨direction, hdirection, hkey⟩ := Option.bind_eq_some_iff.mp h
    exact ⟨direction, (fingerprintDirection_eq hdirection).2, hkey⟩
  · cases h

/-- A frame with sixty bytes to read is parsed. -/
theorem parsePacket_long {f : Frame} (h : fingerprintPrefixLen ≤ f.data.length) : (parsePacket f).isError = false := by
  rw [fingerprintPrefixLen] at h
  unfold parsePacket
  rw [if_neg (by omega)]
  split
  · rw [if_neg (by omega)]
    rfl
  · rfl

/-- The configuration of an interface, up to the mark that a tagged frame leaves. -/
def SameConfig (config config' : InterfaceConfig) : Prop :=
  config'.interfaceGeneration = config.interfaceGeneration ∧ config'.sampleShift = config.sampleShift

theorem SameConfig.trans {config config' config'' : InterfaceConfig} (h : SameConfig config config')
    (h' : SameConfig config' config'') : SameConfig config config'' := ⟨h'.1.trans h.1, h'.2.trans h.2⟩

theorem SameConfig.key? {config config' : InterfaceConfig} (h : SameConfig config config') (a : Arrival) (ifindex : Nat) :
    a.key? config' ifindex = a.key? config ifindex := by
  unfold Arrival.key?
  rw [h.1, h.2]

theorem markVisible_same {configs : Nat → Option InterfaceConfig} {ifindex generation : Nat} {config : InterfaceConfig}
    (h : configs ifindex = some config) :
    ∃ config', markVisible configs ifindex generation ifindex = some config' ∧ SameConfig config config' := by
  unfold markVisible
  rw [h]
  dsimp only
  split
  · exact ⟨_, Function.update_self ifindex _ _, rfl, rfl⟩
  · exact ⟨config, h, rfl, rfl⟩

/-- What a layer does to the configuration and the fingerprints. -/
theorem accountLayer_spec {maps : Maps} {ifindex : Nat} {config : InterfaceConfig}
    (h : maps.ifaceConfig ifindex = some config) (a : Arrival) (evicted : List FingerprintKey) :
    (∃ config', (accountLayer maps ifindex a.hookRole a.frame a.nowNs evicted).ifaceConfig ifindex = some config' ∧
        SameConfig config config') ∧
      (accountLayer maps ifindex a.hookRole a.frame a.nowNs evicted).fingerprints =
        match a.key? config ifindex with
        | none => maps.fingerprints
        | some key => sighted maps.fingerprints key a.frame a.nowNs evicted := by
  have hconfig : ∃ config', (if (parsePacket a.frame).hasOuterVlan ∧ config.vlanVisibility = 0 then
      markVisible maps.ifaceConfig ifindex config.interfaceGeneration else maps.ifaceConfig) ifindex = some config' ∧
      SameConfig config config' := by
    split
    · exact markVisible_same h
    · exact ⟨config, h, rfl, rfl⟩
  unfold accountLayer
  rw [h]
  dsimp only
  split
  · rename_i herror
    refine ⟨⟨config, h, rfl, rfl⟩, ?_⟩
    cases hkey : a.key? config ifindex with
    | none => rfl
    | some key =>
      obtain ⟨-, -, -, hlong, -⟩ := Arrival.sampled_iff.mpr ⟨key, hkey⟩
      rw [parsePacket_long hlong] at herror
      cases herror
  · unfold Arrival.key?
    split
    · cases hdirection : fingerprintDirection a.hookRole with
      | none => exact ⟨hconfig, rfl⟩
      | some direction => exact ⟨hconfig, rfl⟩
    · exact ⟨hconfig, rfl⟩

/-! ### The invariant of a run -/

/-- After the frames `seen`: each entry is one of theirs and says nothing wrong of its
history, and none of their keys is missing. -/
structure Accounted (config : InterfaceConfig) (ifindex : Nat) (seen : List Arrival) (nowNs : Nat) (maps : Maps) : Prop where
  present : ∃ config', maps.ifaceConfig ifindex = some config' ∧ SameConfig config config'
  sane : ∀ e ∈ maps.fingerprints.scan, Sane nowNs e.value
  origin : ∀ e ∈ maps.fingerprints.scan, ∃ a ∈ seen, a.key? config ifindex = some e.key
  kept : ∀ a ∈ seen, ∀ key, a.key? config ifindex = some key → key ∈ maps.fingerprints

variable {config : InterfaceConfig} {ifindex nowNs : Nat} {seen : List Arrival} {maps : Maps}

theorem Accounted.step (h : Accounted config ifindex seen nowNs maps) (a : Arrival) (hclock : nowNs ≤ a.nowNs) :
    Accounted config ifindex (seen ++ [a]) a.nowNs (accountLayer maps ifindex a.hookRole a.frame a.nowNs []) := by
  obtain ⟨config', hconfig, hsame⟩ := h.present
  obtain ⟨⟨config'', hconfig', hsame'⟩, hfingerprints⟩ := accountLayer_spec hconfig a []
  rw [hsame.key?] at hfingerprints
  have hpresent := hsame.trans hsame'
  have hearlier : ∀ e ∈ maps.fingerprints.scan, ∃ b ∈ seen ++ [a], b.key? config ifindex = some e.key := by
    intro e he
    obtain ⟨b, hb, hkey⟩ := h.origin e he
    exact ⟨b, List.mem_append_left _ hb, hkey⟩
  have hlast : a ∈ seen ++ [a] := List.mem_append_right _ (List.mem_singleton_self a)
  cases hkey : a.key? config ifindex with
  | none =>
    rw [hkey] at hfingerprints
    refine ⟨⟨config'', hconfig', hpresent⟩, ?_, ?_, ?_⟩ <;> rw [hfingerprints]
    · exact fun e he => (h.sane e he).later hclock
    · exact hearlier
    · intro b hb key hbkey
      obtain hb | hb := List.mem_append.mp hb
      · exact h.kept b hb key hbkey
      · rw [List.mem_singleton.mp hb, hkey] at hbkey
        cases hbkey
  | some key =>
    rw [hkey] at hfingerprints
    obtain ⟨direction, -, hframe⟩ := Arrival.key?_spec hkey
    have hbytes : 1 ≤ a.frame.bytes := by
      have := (fingerprintKey?_spec hframe).2.2.2.2.2.2.2
      omega
    refine ⟨⟨config'', hconfig', hpresent⟩, ?_, ?_, ?_⟩ <;> rw [hfingerprints]
    · intro e he
      obtain ⟨-, ⟨value, hvalue, hnew⟩ | ⟨-, hnew⟩⟩ | ⟨-, hold⟩ := sighted_cases (mem_scan.mp he)
      · rw [hnew]
        exact (h.sane ⟨key, value⟩ (mem_scan.mpr hvalue)).touched hclock hbytes
      · rw [hnew]
        exact sane_fresh a.nowNs hbytes
      · exact (h.sane e (mem_scan.mpr hold)).later hclock
    · intro e he
      obtain ⟨hsame, -⟩ | ⟨-, hold⟩ := sighted_cases (mem_scan.mp he)
      · exact ⟨a, hlast, by rw [hkey, hsame]⟩
      · exact hearlier e (mem_scan.mpr hold)
    · intro b hb key' hbkey
      rw [mem_sighted]
      obtain hb | hb := List.mem_append.mp hb
      · exact .inr (h.kept b hb key' hbkey)
      · rw [List.mem_singleton.mp hb, hkey] at hbkey
        exact .inl (Option.some.inj hbkey).symm

/-- A run whose clock does not go back keeps the invariant. -/
theorem Accounted.run {arrivals : List Arrival} (h : Accounted config ifindex seen nowNs maps)
    (hafter : ∀ a ∈ arrivals, nowNs ≤ a.nowNs) (hclock : arrivals.Pairwise fun a b => a.nowNs ≤ b.nowNs) :
    ∃ laterNs, Accounted config ifindex (seen ++ arrivals) laterNs (processed ifindex maps arrivals) := by
  induction arrivals generalizing seen nowNs maps with
  | nil => exact ⟨nowNs, by rwa [List.append_nil]⟩
  | cons a rest ih =>
    obtain ⟨hrest, hclock⟩ := List.pairwise_cons.mp hclock
    have hstep := h.step a (hafter a List.mem_cons_self)
    have hrun := ih hstep hrest hclock
    rwa [List.append_assoc] at hrun

/-- Each entry is valid if and only if its frame may be. -/
theorem Accounted.valid_iff (h : Accounted config ifindex seen nowNs maps) :
    (∀ e ∈ maps.fingerprints.scan, validateEvidence e ifindex config.interfaceGeneration = .ok ()) ↔
      ∀ a ∈ seen, a.sampled config → a.frame.reservedVlan = false := by
  constructor
  · intro hvalid a ha hsampled
    obtain ⟨key, hkey⟩ := (@Arrival.sampled_iff a config ifindex).mp hsampled
    obtain ⟨direction, hdirection, hframe⟩ := Arrival.key?_spec hkey
    obtain ⟨value, hvalue⟩ := Option.isSome_iff_exists.mp (AList.lookup_isSome.mpr (h.kept a ha key hkey))
    have he : (⟨key, value⟩ : FingerprintEvidence) ∈ maps.fingerprints.scan := mem_scan.mpr hvalue
    exact (validateEvidence_iff (h.sane _ he) hdirection hframe).mp (hvalid _ he)
  · intro hclean e he
    obtain ⟨a, ha, hkey⟩ := h.origin e he
    obtain ⟨direction, hdirection, hframe⟩ := Arrival.key?_spec hkey
    exact (validateEvidence_iff (h.sane e he) hdirection hframe).mpr
      (hclean a ha (Arrival.sampled_iff.mpr ⟨e.key, hkey⟩))

/-- The same without a tag. -/
def untaggedFrame : Frame where
  bytes := 60
  data := [0xff, 0xff, 0xff, 0xff, 0xff, 0xff, 2, 0, 0, 0, 0, 1, 8, 6] ++ List.replicate 45 0 ++ [12]
  linear := le_of_eq rfl

end NetworkLoop.Kernel
