import NetworkLoop.Kernel.Accounting

/-! What `account_layer` counts (`programs.rs`, with the keys of `abi.rs`).

A frame raises two entries of its hook, the total and one other: its class or the parse
errors. An increment of a key that is not in the map is dropped, so everything rests on
the keys being the sixteen that the map setup put there. `accounting_complete`: they are,
each frame is in exactly one of the seven entries beside the total, these add up to the
total modulo 2^64, and no other entry appears or changes. -/
namespace NetworkLoop.Kernel
open Library Observation

/-! ### The keys of a hook -/

namespace StatsKey

/-- The entries of a hook beside its total. -/
def countedKeys (generation ifindex hookRole : Nat) : List StatsKey :=
  [.classified generation ifindex hookRole TrafficClass.l2Broadcast,
    .classified generation ifindex hookRole TrafficClass.ipv4Multicast,
    .classified generation ifindex hookRole TrafficClass.ipv6Multicast,
    .classified generation ifindex hookRole TrafficClass.otherL2Multicast,
    .classified generation ifindex hookRole TrafficClass.linkLocalControl,
    .classified generation ifindex hookRole TrafficClass.unicastOrUnclassified,
    .parseError generation ifindex hookRole]

def observationKeys (generation ifindex hookRole : Nat) : List StatsKey :=
  .total generation ifindex hookRole :: countedKeys generation ifindex hookRole

/-- `stats_keys` of the map setup: the keys of the XDP hook, then of the TC hook. -/
def initialKeys (generation ifindex : Nat) : List StatsKey :=
  observationKeys generation ifindex HookRole.externalXdpIngress ++
    observationKeys generation ifindex HookRole.physicalTcEgress

theorem nodup_observationKeys (generation ifindex hookRole : Nat) :
    (observationKeys generation ifindex hookRole).Nodup := by
  simp [observationKeys, countedKeys, total, classified, parseError, TrafficClass.all, TrafficClass.l2Broadcast,
    TrafficClass.ipv4Multicast, TrafficClass.ipv6Multicast, TrafficClass.otherL2Multicast, TrafficClass.linkLocalControl,
    TrafficClass.unicastOrUnclassified]

/-- A key of a hook says so. -/
theorem of_mem_observationKeys {generation ifindex hookRole : Nat} {key : StatsKey}
    (h : key ∈ observationKeys generation ifindex hookRole) :
    key.interfaceGeneration = generation ∧ key.ifindex = ifindex ∧ key.hookRole = hookRole := by
  simp only [observationKeys, countedKeys, List.mem_cons, List.not_mem_nil, or_false] at h
  rcases h with rfl | rfl | rfl | rfl | rfl | rfl | rfl | rfl
  all_goals exact ⟨rfl, rfl, rfl⟩

end StatsKey

/-! ### One frame -/

/-- The entry that a frame is counted in beside the total. -/
def Arrival.outcome (a : Arrival) (generation ifindex : Nat) : StatsKey :=
  if (parsePacket a.frame).isError then .parseError generation ifindex a.hookRole
  else .classified generation ifindex a.hookRole (parsePacket a.frame).trafficClass

theorem multicastOrUnclassified_cases (f : Frame) :
    multicastOrUnclassified f = TrafficClass.otherL2Multicast ∨
      multicastOrUnclassified f = TrafficClass.unicastOrUnclassified := by
  unfold multicastOrUnclassified
  split
  · exact .inl rfl
  · exact .inr rfl

/-- A frame has one of the six classes. -/
theorem classify_mem (f : Frame) (etherType : Nat) (nestedVlan : Bool) :
    classify f etherType nestedVlan ∈
      [TrafficClass.l2Broadcast, TrafficClass.ipv4Multicast, TrafficClass.ipv6Multicast, TrafficClass.otherL2Multicast,
        TrafficClass.linkLocalControl, TrafficClass.unicastOrUnclassified] := by
  have hmulticast := multicastOrUnclassified_cases f
  simp only [List.mem_cons, List.not_mem_nil, or_false]
  unfold classify
  split
  · exact .inl rfl
  · split
    · exact .inr (.inr (.inr (.inr (.inl rfl))))
    · split
      · tauto
      · split
        · exact .inr (.inl rfl)
        · split
          · exact .inr (.inr (.inl rfl))
          · tauto

/-- The entry of a frame is one of its hook's. -/
theorem Arrival.outcome_mem (a : Arrival) (generation ifindex : Nat) :
    a.outcome generation ifindex ∈ StatsKey.countedKeys generation ifindex a.hookRole := by
  have hclass : (parsePacket a.frame).isError = false → (parsePacket a.frame).trafficClass ∈
      [TrafficClass.l2Broadcast, TrafficClass.ipv4Multicast, TrafficClass.ipv6Multicast, TrafficClass.otherL2Multicast,
        TrafficClass.linkLocalControl, TrafficClass.unicastOrUnclassified] := by
    unfold parsePacket
    intro hok
    split at hok
    · cases hok
    · split at hok
      · split at hok
        · cases hok
        · rename_i hlong htagged hvlan
          rw [if_neg hlong, if_pos htagged, if_neg hvlan]
          exact classify_mem _ _ _
      · rename_i hlong htagged
        rw [if_neg hlong, if_neg htagged]
        exact classify_mem _ _ _
  unfold Arrival.outcome StatsKey.countedKeys
  cases herror : (parsePacket a.frame).isError with
  | true => simp
  | false =>
    have hmem := List.mem_map_of_mem (f := StatsKey.classified generation ifindex a.hookRole) (hclass herror)
    simp only [List.map_cons, List.map_nil, List.mem_cons, List.not_mem_nil, or_false] at hmem
    simp only [Bool.false_eq_true, if_false, List.mem_cons, List.not_mem_nil, or_false]
    tauto

/-- The entries that a frame raises. -/
def Arrival.raises (a : Arrival) (generation ifindex : Nat) (key : StatsKey) : Bool :=
  key = .total generation ifindex a.hookRole || key = a.outcome generation ifindex

/-- What a layer does to the statistics. -/
theorem accountLayer_hookStats {maps : Maps} {ifindex : Nat} {config : InterfaceConfig}
    (h : maps.ifaceConfig ifindex = some config) (a : Arrival) (evicted : List FingerprintKey) (key : StatsKey) :
    (accountLayer maps ifindex a.hookRole a.frame a.nowNs evicted).hookStats key =
      if a.raises config.interfaceGeneration ifindex key then (maps.hookStats key).map (·.increment a.frame.bytes)
      else maps.hookStats key := by
  have hne : a.outcome config.interfaceGeneration ifindex ≠ .total config.interfaceGeneration ifindex a.hookRole := by
    intro heq
    have hnodup := StatsKey.nodup_observationKeys config.interfaceGeneration ifindex a.hookRole
    exact (List.nodup_cons.mp hnodup).1 (heq ▸ a.outcome_mem config.interfaceGeneration ifindex)
  have hstats : (accountLayer maps ifindex a.hookRole a.frame a.nowNs evicted).hookStats =
      incrementExisting (incrementExisting maps.hookStats (.total config.interfaceGeneration ifindex a.hookRole)
        a.frame.bytes) (a.outcome config.interfaceGeneration ifindex) a.frame.bytes := by
    unfold accountLayer Arrival.outcome
    rw [h]
    dsimp only
    cases herror : (parsePacket a.frame).isError with
    | true => rfl
    | false =>
      simp only [Bool.false_eq_true, if_false]
      split
      · split <;> rfl
      · rfl
  rw [hstats]
  unfold incrementExisting Arrival.raises
  by_cases houtcome : key = a.outcome config.interfaceGeneration ifindex
  · subst houtcome
    rw [Function.update_self, Function.update_of_ne hne, if_pos (by simp)]
  · rw [Function.update_of_ne houtcome]
    by_cases htotal : key = .total config.interfaceGeneration ifindex a.hookRole
    · subst htotal
      rw [Function.update_self, if_pos (by simp)]
    · rw [Function.update_of_ne htotal, if_neg (by simp [houtcome, htotal])]

/-! ### A run of frames -/

/-- The frames of an interface in their order, each with what the fingerprint map evicts for it. -/
def layered (ifindex : Nat) (maps : Maps) (arrivals : List (Arrival × List FingerprintKey)) : Maps :=
  arrivals.foldl (fun maps a => accountLayer maps ifindex a.1.hookRole a.1.frame a.1.nowNs a.2) maps

/-- An entry that some frames raise one after the other. -/
def tally (v : ObservationCounters) (arrivals : List Arrival) : ObservationCounters :=
  arrivals.foldl (fun v a => v.increment a.frame.bytes) v

theorem tally_eq (v : ObservationCounters) (arrivals : List Arrival) :
    (tally v arrivals).packets = (v.packets + arrivals.length) % u64Bound ∧
      (tally v arrivals).bytes = (v.bytes + (arrivals.map (·.frame.bytes)).sum) % u64Bound := by
  induction arrivals generalizing v with
  | nil => exact ⟨(Nat.mod_eq_of_lt v.packets_lt).symm, (Nat.mod_eq_of_lt v.bytes_lt).symm⟩
  | cons a rest ih =>
    obtain ⟨hpackets, hbytes⟩ := ih (v.increment a.frame.bytes)
    have hstep : tally v (a :: rest) = tally (v.increment a.frame.bytes) rest := rfl
    rw [hstep, hpackets, hbytes, List.length_cons, List.map_cons, List.sum_cons]
    unfold ObservationCounters.increment
    rw [Nat.mod_add_mod, Nat.mod_add_mod, Nat.add_assoc, Nat.add_assoc, Nat.add_comm 1]
    exact ⟨rfl, rfl⟩

/-- Every entry is raised by the frames that raise it, and by no others. -/
theorem layered_hookStats {maps : Maps} {ifindex : Nat} {config : InterfaceConfig}
    (h : maps.ifaceConfig ifindex = some config) (arrivals : List (Arrival × List FingerprintKey)) (key : StatsKey) :
    (layered ifindex maps arrivals).hookStats key =
      (maps.hookStats key).map fun v =>
        tally v ((arrivals.map (·.1)).filter (·.raises config.interfaceGeneration ifindex key)) := by
  induction arrivals generalizing maps config with
  | nil =>
    show maps.hookStats key = (maps.hookStats key).map fun v => v
    rw [Option.map_id']
  | cons a rest ih =>
    obtain ⟨⟨config', hconfig', hsame⟩, -⟩ := accountLayer_spec h a.1 a.2
    have hstep : layered ifindex maps (a :: rest) =
        layered ifindex (accountLayer maps ifindex a.1.hookRole a.1.frame a.1.nowNs a.2) rest := rfl
    rw [hstep, ih hconfig', hsame.1, accountLayer_hookStats h, List.map_cons]
    by_cases hraises : a.1.raises config.interfaceGeneration ifindex key = true
    · rw [if_pos hraises, List.filter_cons, if_pos hraises, Option.map_map]
      rfl
    · rw [if_neg hraises, List.filter_cons, if_neg hraises]

/-! ### Sums over the entries -/

theorem sum_filter {α : Type} (p : α → Prop) [DecidablePred p] (w : α → Nat) (l : List α) :
    ((l.filter (p ·)).map w).sum = (l.map fun a => if p a then w a else 0).sum := by
  simpa using (List.sum_map_ite p w (fun _ => 0) l).symm

/-- Weights over different keys add up to the weight of what has one of the keys. -/
theorem sum_by_key {α κ : Type} [DecidableEq κ] (f : α → κ) (w : α → Nat) (l : List α) {keys : List κ}
    (hnodup : keys.Nodup) :
    (keys.map fun k => ((l.filter (f · = k)).map w).sum).sum = ((l.filter (f · ∈ keys)).map w).sum := by
  induction keys with
  | nil => simp
  | cons key rest ih =>
    obtain ⟨hnew, hnodup⟩ := List.nodup_cons.mp hnodup
    rw [List.map_cons, List.sum_cons, ih hnodup, sum_filter, sum_filter, sum_filter, ← List.sum_map_add]
    refine congrArg List.sum (List.map_congr_left fun a _ => ?_)
    by_cases hkey : f a = key
    · rw [if_pos hkey, if_neg (fun hrest => hnew (hkey ▸ hrest)), if_pos (List.mem_cons.mpr (.inl hkey)), Nat.add_zero]
    · by_cases hrest : f a ∈ rest
      · rw [if_neg hkey, if_pos hrest, if_pos (List.mem_cons_of_mem key hrest), Nat.zero_add]
      · have hmem : f a ∉ key :: rest := by
          rw [List.mem_cons, not_or]
          exact ⟨hkey, hrest⟩
        rw [if_neg hkey, if_neg hrest, if_neg hmem]

/-- The same modulo the range of the counters. -/
theorem sum_by_key_mod {α κ : Type} [DecidableEq κ] (f : α → κ) (w : α → Nat) (l : List α) {keys : List κ}
    (hnodup : keys.Nodup) (m : Nat) :
    ((l.filter (f · ∈ keys)).map w).sum % m = (keys.map fun k => ((l.filter (f · = k)).map w).sum % m).sum % m := by
  rw [← sum_by_key f w l hnodup, List.sum_nat_mod, List.map_map]
  rfl

theorem length_eq_sum {α : Type} (l : List α) : l.length = (l.map fun _ => 1).sum := by
  rw [List.map_const', List.sum_replicate, smul_eq_mul, Nat.mul_one]

/-! ### The statistics of an interface -/

/-- The map setup: of this interface and generation, the sixteen keys with zeros and
nothing else. -/
def Initialised (generation ifindex : Nat) (stats : StatsKey → Option ObservationCounters) : Prop :=
  ∀ key, key.interfaceGeneration = generation → key.ifindex = ifindex →
    stats key = if key ∈ StatsKey.initialKeys generation ifindex then some .zero else none

/-- The frames counted in an entry of their hook beside the total. -/
def countedIn (generation ifindex : Nat) (arrivals : List (Arrival × List FingerprintKey)) (key : StatsKey) : List Arrival :=
  (arrivals.map (·.1)).filter (·.outcome generation ifindex = key)

theorem Arrival.outcome_hookRole (a : Arrival) (generation ifindex : Nat) :
    (a.outcome generation ifindex).interfaceGeneration = generation ∧ (a.outcome generation ifindex).ifindex = ifindex ∧
      (a.outcome generation ifindex).hookRole = a.hookRole :=
  StatsKey.of_mem_observationKeys (List.mem_cons_of_mem _ (a.outcome_mem generation ifindex))

/-- A frame is counted beside the total of its own hook, and of no other. -/
theorem Arrival.outcome_mem_iff {a : Arrival} {generation ifindex hookRole : Nat} :
    a.outcome generation ifindex ∈ StatsKey.countedKeys generation ifindex hookRole ↔ a.hookRole = hookRole := by
  constructor
  · intro hmem
    exact (a.outcome_hookRole generation ifindex).2.2.symm.trans
      (StatsKey.of_mem_observationKeys (List.mem_cons_of_mem _ hmem)).2.2
  · rintro rfl
    exact a.outcome_mem generation ifindex

section
variable {maps : Maps} {ifindex : Nat} {config : InterfaceConfig} {hookRole : Nat}
  (hconfig : maps.ifaceConfig ifindex = some config) (hinit : Initialised config.interfaceGeneration ifindex maps.hookStats)
  (hhook : hookRole = HookRole.externalXdpIngress ∨ hookRole = HookRole.physicalTcEgress)
  (arrivals : List (Arrival × List FingerprintKey))

include hhook in
theorem mem_initialKeys {generation : Nat} {key : StatsKey} (h : key ∈ StatsKey.observationKeys generation ifindex hookRole) :
    key ∈ StatsKey.initialKeys generation ifindex := by
  rw [StatsKey.initialKeys, List.mem_append]
  obtain rfl | rfl := hhook
  · exact .inl h
  · exact .inr h

include hconfig hinit hhook in
/-- An entry of a hook holds what its frames add up to. -/
theorem entry_eq {key : StatsKey} (h : key ∈ StatsKey.observationKeys config.interfaceGeneration ifindex hookRole) :
    ∃ v, (layered ifindex maps arrivals).hookStats key = some v ∧
      v.packets = ((arrivals.map (·.1)).filter (·.raises config.interfaceGeneration ifindex key)).length % u64Bound ∧
      v.bytes = (((arrivals.map (·.1)).filter (·.raises config.interfaceGeneration ifindex key)).map
        (·.frame.bytes)).sum % u64Bound := by
  obtain ⟨hgeneration, hifindex, -⟩ := StatsKey.of_mem_observationKeys h
  have hzero := hinit key hgeneration hifindex
  rw [if_pos (mem_initialKeys hhook h)] at hzero
  obtain ⟨hpackets, hbytes⟩ :=
    tally_eq .zero ((arrivals.map (·.1)).filter (·.raises config.interfaceGeneration ifindex key))
  refine ⟨_, (layered_hookStats hconfig arrivals key).trans (congrArg _ hzero), ?_, ?_⟩
  · rw [hpackets]
    exact congrArg (· % u64Bound) (Nat.zero_add _)
  · rw [hbytes]
    exact congrArg (· % u64Bound) (Nat.zero_add _)

/-- The total of a hook is raised by every frame of the hook. -/
theorem raises_total (a : Arrival) (generation : Nat) :
    a.raises generation ifindex (.total generation ifindex hookRole) = decide (a.hookRole = hookRole) := by
  have hne : a.outcome generation ifindex ≠ .total generation ifindex a.hookRole := by
    intro heq
    exact (List.nodup_cons.mp (StatsKey.nodup_observationKeys generation ifindex a.hookRole)).1
      (heq ▸ a.outcome_mem generation ifindex)
  unfold Arrival.raises
  by_cases hrole : a.hookRole = hookRole
  · subst hrole
    simp
  · have hother : StatsKey.total generation ifindex hookRole ≠ a.outcome generation ifindex := by
      intro heq
      exact hrole ((a.outcome_hookRole generation ifindex).2.2.symm.trans (congrArg StatsKey.hookRole heq).symm)
    have htotal : StatsKey.total generation ifindex hookRole ≠ .total generation ifindex a.hookRole := fun heq =>
      hrole (congrArg StatsKey.hookRole heq).symm
    simp [hrole, hother, htotal]

/-- Another entry of a hook is raised by the frames counted in it. -/
theorem raises_counted (a : Arrival) {generation : Nat} {key : StatsKey}
    (h : key ∈ StatsKey.countedKeys generation ifindex hookRole) :
    a.raises generation ifindex key = decide (a.outcome generation ifindex = key) := by
  have hne : key ≠ .total generation ifindex a.hookRole := by
    rintro rfl
    have hrole : a.hookRole = hookRole := (StatsKey.of_mem_observationKeys (List.mem_cons_of_mem _ h)).2.2
    subst hrole
    exact (List.nodup_cons.mp (StatsKey.nodup_observationKeys generation ifindex a.hookRole)).1 h
  unfold Arrival.raises
  simp [hne, eq_comm]

include hconfig hinit hhook in
/-- **Accounting is complete and exclusive.** After any frames, of any content, at any
hooks: each entry of a hook beside the total holds the frames counted in it, each frame
of the hook is counted in exactly one of them, their sum is the total modulo 2^64, and
apart from the sixteen keys of the setup nothing has changed. -/
theorem accounting_complete :
    (∃ total : ObservationCounters, ∃ counted : StatsKey → ObservationCounters,
      (layered ifindex maps arrivals).hookStats (.total config.interfaceGeneration ifindex hookRole) = some total ∧
      (∀ key ∈ StatsKey.countedKeys config.interfaceGeneration ifindex hookRole,
        (layered ifindex maps arrivals).hookStats key = some (counted key) ∧
        (counted key).packets = (countedIn config.interfaceGeneration ifindex arrivals key).length % u64Bound ∧
        (counted key).bytes =
          ((countedIn config.interfaceGeneration ifindex arrivals key).map (·.frame.bytes)).sum % u64Bound) ∧
      total.packets =
        ((StatsKey.countedKeys config.interfaceGeneration ifindex hookRole).map fun key => (counted key).packets).sum %
          u64Bound ∧
      total.bytes =
        ((StatsKey.countedKeys config.interfaceGeneration ifindex hookRole).map fun key => (counted key).bytes).sum %
          u64Bound) ∧
      (∀ a : Arrival, a.hookRole = hookRole →
        (StatsKey.countedKeys config.interfaceGeneration ifindex hookRole).count
          (a.outcome config.interfaceGeneration ifindex) = 1) ∧
      ∀ key, key ∉ StatsKey.initialKeys config.interfaceGeneration ifindex →
        (layered ifindex maps arrivals).hookStats key = maps.hookStats key := by
  have hkeys := StatsKey.nodup_observationKeys config.interfaceGeneration ifindex hookRole
  obtain ⟨-, hnodup⟩ := List.nodup_cons.mp hkeys
  refine ⟨?_, fun a ha => ?_, fun key hkey => ?_⟩
  · have hmem : StatsKey.total config.interfaceGeneration ifindex hookRole ∈
        StatsKey.observationKeys config.interfaceGeneration ifindex hookRole := List.mem_cons_self
    obtain ⟨total, htotal, hpackets, hbytes⟩ := entry_eq hconfig hinit hhook arrivals hmem
    have hcounted : ∀ key ∈ StatsKey.countedKeys config.interfaceGeneration ifindex hookRole,
        (layered ifindex maps arrivals).hookStats key =
            some (((layered ifindex maps arrivals).hookStats key).getD .zero) ∧
          (((layered ifindex maps arrivals).hookStats key).getD .zero).packets =
            (countedIn config.interfaceGeneration ifindex arrivals key).length % u64Bound ∧
          (((layered ifindex maps arrivals).hookStats key).getD .zero).bytes =
            ((countedIn config.interfaceGeneration ifindex arrivals key).map (·.frame.bytes)).sum % u64Bound := by
      intro key hmem
      obtain ⟨v, hv, hentry⟩ := entry_eq hconfig hinit hhook arrivals (List.mem_cons_of_mem _ hmem)
      rw [List.filter_congr fun a _ => raises_counted a hmem] at hentry
      rw [hv]
      exact ⟨rfl, hentry⟩
    have hraises : (arrivals.map (·.1)).filter (·.raises config.interfaceGeneration ifindex
        (.total config.interfaceGeneration ifindex hookRole)) =
        (arrivals.map (·.1)).filter fun a => a.outcome config.interfaceGeneration ifindex ∈
          StatsKey.countedKeys config.interfaceGeneration ifindex hookRole := by
      refine List.filter_congr fun a _ => ?_
      rw [raises_total, decide_eq_decide, Arrival.outcome_mem_iff]
    rw [hraises] at hpackets hbytes
    refine ⟨total, _, htotal, hcounted, ?_, ?_⟩
    · rw [hpackets, length_eq_sum, sum_by_key_mod _ _ _ hnodup]
      refine congrArg (·.sum % u64Bound) (List.map_congr_left fun key hmem => ?_)
      rw [(hcounted key hmem).2.1, length_eq_sum]
      rfl
    · rw [hbytes, sum_by_key_mod _ _ _ hnodup]
      refine congrArg (·.sum % u64Bound) (List.map_congr_left fun key hmem => ?_)
      rw [(hcounted key hmem).2.2]
      rfl
  · rw [← ha]
    exact List.count_eq_one_of_mem (ha ▸ hnodup) (a.outcome_mem _ _)
  · rw [layered_hookStats hconfig]
    by_cases hmine : key.interfaceGeneration = config.interfaceGeneration ∧ key.ifindex = ifindex
    · rw [hinit key hmine.1 hmine.2, if_neg hkey]
      rfl
    · have hnone : (arrivals.map (·.1)).filter (·.raises config.interfaceGeneration ifindex key) = [] := by
        refine List.filter_eq_nil_iff.mpr fun a _ hraises => ?_
        unfold Arrival.raises at hraises
        rw [Bool.or_eq_true, decide_eq_true_eq, decide_eq_true_eq] at hraises
        obtain rfl | rfl := hraises
        · exact hmine ⟨rfl, rfl⟩
        · exact hmine ⟨(a.outcome_hookRole _ _).1, (a.outcome_hookRole _ _).2.1⟩
      rw [hnone]
      exact congrFun Option.map_id _

end

/-- The maps of an interface after the setup. -/
def initialisedMaps : Maps where
  ifaceConfig := fun _ => some ⟨7, 0, 4⟩
  hookStats := fun key => if key ∈ StatsKey.initialKeys 7 2 then some .zero else none
  fingerprints := ∅

/-- One broadcast at ingress. -/
theorem accounting_complete_broadcast :
    (StatsKey.countedKeys 7 2 1).count ((⟨1, untaggedFrame, 5⟩ : Arrival).outcome 7 2) = 1 ∧
      ∀ key, key ∉ StatsKey.initialKeys 7 2 →
        (layered 2 initialisedMaps [(⟨1, untaggedFrame, 5⟩, [])]).hookStats key = initialisedMaps.hookStats key := by
  have h := @accounting_complete initialisedMaps 2 ⟨7, 0, 4⟩ 1 rfl (fun _ _ _ => rfl) (.inl rfl)
    [(⟨1, untaggedFrame, 5⟩, [])]
  exact ⟨h.2.1 ⟨1, untaggedFrame, 5⟩ rfl, h.2.2⟩

end NetworkLoop.Kernel
