import NetworkLoop.Observation.BumRates
import NetworkLoop.Observation.PacketCounts

/-! What the signals of a tick say, in exact numbers.

`derive` compares sums of rates, maxima of saturated ratios in thousandths and counts with
fixed thresholds. `HookCandidate`, `LoopSuspected` and `LoopHighConfidence` state the same
conditions on the windows, the baselines and the two scans themselves, with rational numbers
in place of the ratios; `derive_exact` says that the signals are those. -/
namespace NetworkLoop.Observation
open Library Detection

/-! ### The conditions -/

def bumClasses : List TrafficClass := [.l2Broadcast, .ipv4Multicast, .ipv6Multicast, .otherL2Multicast]

/-- A rate over the broadcast and multicast classes of a hook. -/
def bumRate (rate : RateCounters → Nat) (rates : HookRate) : Nat :=
  (((List.ofFn rates.classes).filter fun c => c.trafficClass ∈ bumClasses).map fun c => rate c.counters).sum

section
variable (windows : Fin 3 → DetailedRateWindow) (baseline : BaselineReport) (role : HookRole)

/-- The rates of a hook in the window of a length, which is ready. -/
def ReadyRates (windowMs : Nat) (rates : HookRate) : Prop :=
  ∃ i hooks k, (windows i).windowMs = windowMs ∧ (windows i).state = .ready ∧ (windows i).hooks = some hooks ∧
    hooks k = rates ∧ rates.role = role

/-- The baseline of a class of a hook. -/
def BaselineOf (class' : TrafficClass) (subject : BaselineSubjectReport) : Prop :=
  ∃ i, baseline.subjects i = subject ∧ subject.hook = role ∧ subject.subject = .trafficClass class'

/-- Past learning, with one class elevated, and the rate at an adaptive floor. -/
structure AdaptiveStorm : Prop where
  learned : ∀ c ∈ bumClasses, ∃ s, BaselineOf baseline role c s ∧ (s.state = .withinBaseline ∨ s.state = .elevated)
  elevated : ∃ c ∈ bumClasses, ∃ s, BaselineOf baseline role c s ∧ (s.packets.elevated = some true ∨ s.bytes.elevated = some true)
  floor : ∃ rates, ReadyRates windows role 10000 rates ∧
    (1000 ≤ bumRate (·.packetsPerSecond) rates ∨ 1048576 ≤ bumRate (·.bytesPerSecond) rates)

def AbsoluteStorm : Prop :=
  ∃ rates, ReadyRates windows role 1000 rates ∧
    (100000 ≤ bumRate (·.packetsPerSecond) rates ∨ 104857600 ≤ bumRate (·.bytesPerSecond) rates)

def HookCandidate : Prop := AdaptiveStorm windows baseline role ∨ AbsoluteStorm windows role

end

section
variable (windows : Fin 3 → DetailedRateWindow) (baseline : BaselineReport) (previous current : FingerprintEndpoint) (nowMs : Nat)

/-- The packets an entry gained between the scans. -/
def gainedPackets (e : FingerprintEvidence) : Nat := (gainOf previous.entries e).packets

def ingressSamples : Nat := carried directionIngress (gainedPackets previous) current.entries

/-- A relation that gained packets on both sides, by its two entries. -/
structure Returns (ingress egress : FingerprintEvidence) : Prop where
  mem : ingress ∈ current.entries ∧ egress ∈ current.entries
  directions : ingress.key.direction = directionIngress ∧ egress.key.direction = directionEgress
  relation : ingress.key.relation = egress.key.relation
  gained : 0 < gainedPackets previous ingress ∧ 0 < gainedPackets previous egress

structure LoopSuspected : Prop where
  fresh : nowMs ≤ current.capturedAtUnixMs + 15000
  candidate : HookCandidate windows baseline .externalXdpIngress
  share : ∃ rates, ReadyRates windows .externalXdpIngress 10000 rates ∧ rates.total.packetsPerSecond ≠ 0 ∧
    (4 : ℚ) / 5 ≤ bumRate (·.packetsPerSecond) rates / rates.total.packetsPerSecond
  samples : 16 ≤ ingressSamples previous current
  repeated : ∃ e ∈ current.entries, 1 < gainedPackets previous e
  dominant : ∃ e ∈ current.entries, e.key.direction = directionIngress ∧
    (4 : ℚ) / 5 ≤ gainedPackets previous e / ingressSamples previous current

structure LoopHighConfidence : Prop where
  suspected : LoopSuspected windows baseline previous current nowMs
  egressFirst : ∃ ingress egress, Returns previous current ingress egress ∧ egress.value.firstSeenNs < ingress.value.firstSeenNs
  amplified : ∃ ingress egress, Returns previous current ingress egress ∧
    (4 : ℚ) ≤ gainedPackets previous ingress / gainedPackets previous egress

end

/-! ### Rates -/

section
variable {windows : Fin 3 → DetailedRateWindow} {w : DetailedRateWindow} {i : Fin 3} {k : Fin 2}

/-- The fixed durations, roles and classes of windows that are accepted. -/
theorem windows_fixed (h : validateDetailedRateWindows windows = .ok ()) :
    (∀ i, (windows i).windowMs = rateWindowMs i) ∧ ∀ i hooks, (windows i).hooks = some hooks →
      (∀ k, (hooks k).role = hookOrder k) ∧ ∀ k c, ((hooks k).classes c).trafficClass = classOrder c := by
  unfold validateDetailedRateWindows at h
  obtain ⟨h0, h⟩ := bind_unit_eq_ok.mp h
  obtain ⟨h1, h2⟩ := bind_unit_eq_ok.mp h
  have hall : ∀ i, validateWindowAt windows i = .ok () := by
    intro i
    match i with
    | 0 => exact h0
    | 1 => exact h1
    | 2 => exact h2
  refine ⟨fun i => ?_, fun i hooks hhooks => ?_⟩
  · have hi := hall i
    unfold validateWindowAt at hi
    split at hi
    · cases hi
    · exact not_not.mp ‹_›
  · have hi := hall i
    unfold validateWindowAt at hi
    split at hi
    · cases hi
    · obtain ⟨-, hi⟩ := bind_unit_eq_ok.mp hi
      rw [hhooks] at hi
      unfold validateHookRates at hi
      dsimp only at hi
      split at hi
      · split at hi
        · exact ⟨‹_›, ‹_›⟩
        · cases hi
      · cases hi

theorem rateWindowMs_injective : Function.Injective rateWindowMs := by decide

theorem hookOrder_injective : Function.Injective hookOrder := by decide

theorem fixedWindow_eq (hms : ∀ i, (windows i).windowMs = rateWindowMs i) (h : fixedWindow windows (rateWindowMs i) = .ok w) :
    w = windows i := by
  unfold fixedWindow at h
  split at h
  · rename_i found hfound
    cases h
    have hmem := List.mem_of_find?_eq_some hfound
    have hsome := List.find?_some hfound
    obtain ⟨k, rfl⟩ := (List.mem_ofFn' _ _).mp hmem
    rw [rateWindowMs_injective ((hms k).symm.trans (of_decide_eq_true hsome))]
  · cases h

/-- `hook_rates` finds the rates of a ready window. -/
theorem hookRates_iff (hvalid : validateDetailedRateWindows windows = .ok ()) {found : Option HookRate}
    (h : hookRates (windows i) (hookOrder k) = .ok found) (rates : HookRate) :
    found = some rates ↔ ReadyRates windows (hookOrder k) (rateWindowMs i) rates := by
  obtain ⟨hms, hordered⟩ := windows_fixed hvalid
  unfold hookRates at h
  split at h
  · rename_i hstate
    cases h
    refine ⟨nofun, ?_⟩
    rintro ⟨i', hooks, k', hwindow, hready, -⟩
    rw [rateWindowMs_injective ((hms i').symm.trans hwindow)] at hready
    exact absurd hready hstate
  · rename_i hstate
    split at h
    · rename_i rates' hfound
      cases h
      obtain ⟨hooks, hhooks, hfind⟩ := Option.bind_eq_some_iff.mp hfound
      have hmem := List.mem_of_find?_eq_some hfind
      have hrole : rates'.role = hookOrder k := by simpa using List.find?_some hfind
      obtain ⟨k', rfl⟩ := (List.mem_ofFn' _ _).mp hmem
      constructor
      · intro heq
        cases heq
        exact ⟨i, hooks, k', hms i, not_not.mp hstate, hhooks, rfl, hrole⟩
      · rintro ⟨i', hooks', k'', hwindow, -, hhooks', rfl, hrole'⟩
        have hi := rateWindowMs_injective ((hms i').symm.trans hwindow)
        rw [hi, hhooks] at hhooks'
        cases hhooks'
        have hroles := (hordered i hooks hhooks).1
        rw [hookOrder_injective ((hroles k').symm.trans (hrole.trans (hrole'.symm.trans (hroles k''))))]
    · cases h

/-- What `bum_rates` adds up. -/
theorem bumRates_eq {rates : HookRate} {sum : Nat × Nat} (hclasses : ∀ c, (rates.classes c).trafficClass = classOrder c)
    (h : bumRates rates = .ok sum) :
    sum = (bumRate (·.packetsPerSecond) rates, bumRate (·.bytesPerSecond) rates) := by
  have hadds : ∀ (l : List ClassRate) (start final : Nat × Nat), l.foldlM addClassRate start = .ok final →
      final = (start.1 + (l.map (·.counters.packetsPerSecond)).sum, start.2 + (l.map (·.counters.bytesPerSecond)).sum) := by
    intro l start final hfold
    refine foldlM_relates (fun l start final => final = (start.1 + (l.map (·.counters.packetsPerSecond)).sum,
      start.2 + (l.map (·.counters.bytesPerSecond)).sum)) (fun _ => by simp) ?_ hfold
    intro c rest start next final hstep hrest
    unfold addClassRate at hstep
    split at hstep
    · rename_i packets bytes hpackets hbytes
      cases hstep
      rw [hrest, checkedAdd_eq_some hpackets, checkedAdd_eq_some hbytes]
      simp [Nat.add_assoc]
    · cases hstep
  have hlist : (List.ofFn rates.classes).filter (fun c => c.trafficClass ∈ bumClasses) = (List.ofFn rates.classes).take 4 := by
    have hofFn : List.ofFn rates.classes = [rates.classes 0, rates.classes 1, rates.classes 2, rates.classes 3, rates.classes 4,
      rates.classes 5] := rfl
    rw [hofFn]
    simp [hclasses, classOrder, bumClasses]
  obtain ⟨sum', hsum', h⟩ := bind_eq_ok.mp h
  split at h
  · cases h
  · cases h
    rw [hadds _ _ _ hsum', bumRate, bumRate, hlist]
    simp

end

/-! ### Baselines -/

section
variable {baseline : BaselineReport} {role : HookRole}

/-- The fixed order of the subjects of a baseline that is accepted. -/
theorem subjects_fixed (h : baseline.validate = .ok ()) (i : Fin 16) :
    (baseline.subjects i).hook = hookForIndex i ∧ (baseline.subjects i).subject = subjectForIndex i := by
  unfold BaselineReport.validate at h
  split at h
  · cases h
  · obtain ⟨_, hsubjects, -⟩ := bind_eq_ok.mp h
    have hi := tryFromFn_eq_ok.mp hsubjects i
    unfold BaselineReport.validateSubject at hi
    split at hi
    · cases hi
    · rename_i hfixed
      exact ⟨not_not.mp fun hno => hfixed (.inl hno), not_not.mp fun hno => hfixed (.inr hno)⟩

theorem subject_injective : ∀ i j : Fin 16, hookForIndex i = hookForIndex j → subjectForIndex i = subjectForIndex j → i = j := by
  decide

/-- The subject found for a class is its only baseline. -/
theorem baselineOf_iff (hvalid : baseline.validate = .ok ()) {class' : TrafficClass} {subject : BaselineSubjectReport}
    (hfound : (List.ofFn baseline.subjects).find? (fun s => s.hook = role ∧ s.subject = .trafficClass class') = some subject)
    (s : BaselineSubjectReport) : BaselineOf baseline role class' s ↔ s = subject := by
  obtain ⟨i, rfl⟩ := (List.mem_ofFn' _ _).mp (List.mem_of_find?_eq_some hfound)
  have hsubject : (baseline.subjects i).hook = role ∧ (baseline.subjects i).subject = .trafficClass class' := by
    simpa using List.find?_some hfound
  constructor
  · rintro ⟨j, rfl, hhook, hclass⟩
    obtain ⟨hhooki, hclassi⟩ := subjects_fixed hvalid i
    obtain ⟨hhookj, hclassj⟩ := subjects_fixed hvalid j
    rw [subject_injective j i (hhookj.symm.trans (hhook.trans (hsubject.1.symm.trans hhooki)))
      (hclassj.symm.trans (hclass.trans (hsubject.2.symm.trans hclassi)))]
  · rintro rfl
    exact ⟨i, rfl, hsubject⟩

/-- The loop over the classes: learned all of them, and elevated one of them. -/
theorem bumElevatedFrom_iff (hvalid : baseline.validate = .ok ()) {classes : List TrafficClass} {start : Bool}
    {found : Option Bool} (h : bumElevatedFrom baseline role classes start = .ok found) :
    found = some true ↔
      (∀ c ∈ classes, ∃ s, BaselineOf baseline role c s ∧ (s.state = .withinBaseline ∨ s.state = .elevated)) ∧
      (start = true ∨ ∃ c ∈ classes, ∃ s, BaselineOf baseline role c s ∧
        (s.packets.elevated = some true ∨ s.bytes.elevated = some true)) := by
  induction classes generalizing start with
  | nil =>
    cases h
    simp
  | cons c rest ih =>
    unfold bumElevatedFrom at h
    split at h
    · cases h
    · rename_i subject hfound
      have honly := baselineOf_iff hvalid hfound
      simp only [List.forall_mem_cons, List.exists_mem_cons_iff, honly, exists_eq_left]
      split at h
      · rename_i hstate
        cases h
        simp [hstate]
      · rename_i hstate
        cases h
        simp [hstate]
      · rename_i hstate
        rw [ih h]
        simp [hstate, or_assoc]
      · rename_i hstate
        rw [ih h]
        simp [hstate, or_assoc]

end

/-! ### Hooks -/

section
variable {windows : Fin 3 → DetailedRateWindow} {baseline : BaselineReport} {k : Fin 2} {s : HookDetectionSignals}

/-- A ratio in thousandths that is rounded down is at a threshold when the ratio itself is. -/
theorem milli_le_iff (threshold numerator : Nat) {denominator : Nat} (h : denominator ≠ 0) :
    threshold ≤ numerator * 1000 / denominator ↔ (threshold : ℚ) / 1000 ≤ numerator / denominator := by
  have hpos : (0 : ℚ) < denominator := by exact_mod_cast Nat.pos_of_ne_zero h
  rw [Nat.le_div_iff_mul_le (Nat.pos_of_ne_zero h), div_le_div_iff₀ (by norm_num) hpos]
  exact_mod_cast Iff.rfl

theorem bumRatio_ge {numerator denominator ratio : Nat} (h : bumRatio numerator denominator = .ok ratio) :
    DetectionConfig.fixed.bumRatioMilli ≤ ratio ↔ denominator ≠ 0 ∧ (4 : ℚ) / 5 ≤ numerator / denominator := by
  have hmilli : ((800 : Nat) : ℚ) / 1000 = 4 / 5 := by norm_num
  unfold bumRatio at h
  split at h
  · rename_i hzero
    split at h
    · cases h
      simp [DetectionConfig.fixed, hzero]
    · cases h
  · rename_i hnonzero
    split at h
    · cases h
      rw [← hmilli, ← milli_le_iff 800 numerator hnonzero]
      exact ⟨fun hle => ⟨hnonzero, hle⟩, fun hle => hle.2⟩
    · cases h

theorem absoluteCandidateOf_iff {found : Option HookRate} {candidate : Option Bool} (h : absoluteCandidateOf found = .ok candidate)
    (hclasses : ∀ rates, found = some rates → ∀ c, (rates.classes c).trafficClass = classOrder c) :
    candidate = some true ↔ ∃ rates, found = some rates ∧
      (100000 ≤ bumRate (·.packetsPerSecond) rates ∨ 104857600 ≤ bumRate (·.bytesPerSecond) rates) := by
  cases found with
  | none =>
    cases h
    simp
  | some rates =>
    obtain ⟨sum, hsum, h⟩ := bind_eq_ok.mp h
    cases h
    rw [bumRates_eq (hclasses rates rfl) hsum]
    simp [DetectionConfig.fixed]

/-- What `bumSignals` says of the ten-second window. -/
theorem bumSignals_eq {found : Option HookRate} {bum : Option (Nat × Nat × Nat)} (h : bumSignals found = .ok bum)
    (hclasses : ∀ rates, found = some rates → ∀ c, (rates.classes c).trafficClass = classOrder c) :
    found = none ∧ bum = none ∨ ∃ rates ratio, found = some rates ∧
      bumRatio (bumRate (·.packetsPerSecond) rates) rates.total.packetsPerSecond = .ok ratio ∧
      bum = some (bumRate (·.packetsPerSecond) rates, bumRate (·.bytesPerSecond) rates, ratio) := by
  cases found with
  | none =>
    cases h
    exact .inl ⟨rfl, rfl⟩
  | some rates =>
    obtain ⟨sum, hsum, h⟩ := bind_eq_ok.mp h
    obtain ⟨ratio, hratio, h⟩ := bind_eq_ok.mp h
    cases h
    rw [bumRates_eq (hclasses rates rfl) hsum] at hratio ⊢
    exact .inr ⟨rates, ratio, rfl, hratio, rfl⟩

/-- **The signals of a hook.** -/
theorem deriveHook_iff (hrates : validateDetailedRateWindows windows = .ok ()) (hbaseline : baseline.validate = .ok ())
    (h : deriveHook (windows 0) (windows 1) baseline (hookOrder k) = .ok s) :
    (hookIsCandidate s = true ↔ HookCandidate windows baseline (hookOrder k)) ∧
      (s.bumRatioMilli.any (fun ratio => DetectionConfig.fixed.bumRatioMilli ≤ ratio) = true ↔
        ∃ rates, ReadyRates windows (hookOrder k) 10000 rates ∧ rates.total.packetsPerSecond ≠ 0 ∧
          (4 : ℚ) / 5 ≤ bumRate (·.packetsPerSecond) rates / rates.total.packetsPerSecond) := by
  obtain ⟨tenSecond, hten, h⟩ := bind_eq_ok.mp h
  obtain ⟨oneSecond, hone, h⟩ := bind_eq_ok.mp h
  obtain ⟨elevated, helevated, h⟩ := bind_eq_ok.mp h
  obtain ⟨bum, hbum, h⟩ := bind_eq_ok.mp h
  obtain ⟨absolute, habsolute, h⟩ := bind_eq_ok.mp h
  cases h
  have htenReady : ∀ rates, tenSecond = some rates ↔ ReadyRates windows (hookOrder k) 10000 rates := hookRates_iff hrates hten
  have honeReady : ∀ rates, oneSecond = some rates ↔ ReadyRates windows (hookOrder k) 1000 rates := hookRates_iff hrates hone
  have hclasses : ∀ {windowMs rates}, ReadyRates windows (hookOrder k) windowMs rates →
      ∀ c, (rates.classes c).trafficClass = classOrder c := by
    rintro windowMs rates ⟨i, hooks, k', -, -, hhooks, rfl, -⟩ c
    exact ((windows_fixed hrates).2 i hooks hhooks).2 k' c
  have habsolute' := absoluteCandidateOf_iff habsolute fun rates hrates => hclasses ((honeReady rates).mp hrates)
  have helevated' := bumElevatedFrom_iff hbaseline helevated
  simp only [honeReady] at habsolute'
  have hbaselines : elevated = some true ↔
      (∀ c ∈ bumClasses, ∃ s, BaselineOf baseline (hookOrder k) c s ∧ (s.state = .withinBaseline ∨ s.state = .elevated)) ∧
      ∃ c ∈ bumClasses, ∃ s, BaselineOf baseline (hookOrder k) c s ∧
        (s.packets.elevated = some true ∨ s.bytes.elevated = some true) := by
    rw [helevated']
    simp [bumClasses]
  rcases bumSignals_eq hbum fun rates hfound => hclasses ((htenReady rates).mp hfound) with
    ⟨rfl, rfl⟩ | ⟨rates, ratio, rfl, hratio, rfl⟩
  · have hnone : ∀ rates, ¬ReadyRates windows (hookOrder k) 10000 rates := fun rates hready => nomatch (htenReady rates).mpr hready
    have hcalm : ¬AdaptiveStorm windows baseline (hookOrder k) := by
      rintro ⟨-, -, rates, hready, -⟩
      exact hnone rates hready
    refine ⟨?_, ?_⟩
    · rw [HookCandidate, or_iff_right hcalm, AbsoluteStorm, ← habsolute']
      simp [hookIsCandidate]
    · refine ⟨nofun, ?_⟩
      rintro ⟨rates, hready, -⟩
      exact absurd hready (hnone rates)
  · have honly : ∀ rates', ReadyRates windows (hookOrder k) 10000 rates' ↔ rates = rates' :=
      fun rates' => (htenReady rates').symm.trans (by rw [Option.some.injEq])
    have hstorm : AdaptiveStorm windows baseline (hookOrder k) ↔ elevated = some true ∧
        (1000 ≤ bumRate (·.packetsPerSecond) rates ∨ 1048576 ≤ bumRate (·.bytesPerSecond) rates) := by
      rw [hbaselines]
      constructor
      · rintro ⟨hlearned, helevated, rates', hready, hfloor⟩
        cases (honly rates').mp hready
        exact ⟨⟨hlearned, helevated⟩, hfloor⟩
      · rintro ⟨⟨hlearned, helevated⟩, hfloor⟩
        exact ⟨hlearned, helevated, rates, (honly rates).mpr rfl, hfloor⟩
    refine ⟨?_, ?_⟩
    · rw [HookCandidate, hstorm, AbsoluteStorm, ← habsolute']
      cases elevated with
      | none => simp [hookIsCandidate]
      | some elevated => simp [hookIsCandidate, DetectionConfig.fixed]
    · simp only [honly, exists_eq_left', Option.map_some, Option.any_some, decide_eq_true_eq]
      exact bumRatio_ge hratio

end

/-! ### Windows -/

section
variable {previous entries : List FingerprintEvidence}

/-- The sides in one direction are the gains of the entries in it. -/
theorem exists_side (h : Distinct entries) {direction : Nat} (sideIn : Relation SideDelta → Option SideDelta)
    (hside : ∀ key, sideIn ⟨(entryIn directionIngress (movers previous entries) key).map (gainOf previous),
        (entryIn directionEgress (movers previous entries) key).map (gainOf previous)⟩ =
      (entryIn direction (movers previous entries) key).map (gainOf previous)) (p : SideDelta → Prop) :
    (∃ r ∈ (gainedRelations previous entries).map (·.2), ∃ side, sideIn r = some side ∧ p side) ↔
      ∃ e ∈ movers previous entries, e.key.direction = direction ∧ p (gainOf previous e) := by
  constructor
  · rintro ⟨r, hr, side, hin, hp⟩
    rw [gainedRelations, relationsOf_eq _ (h.movers previous), List.map_map] at hr
    obtain ⟨key, -, rfl⟩ := List.mem_map.mp hr
    obtain ⟨e, he, rfl⟩ := Option.map_eq_some_iff.mp ((hside key).symm.trans hin)
    obtain ⟨hmem, -, hdirection⟩ := entryIn_mem he
    exact ⟨e, hmem, hdirection, hp⟩
  · rintro ⟨e, he, hdirection, hp⟩
    obtain ⟨⟨ingress, egress⟩, hr, hingress, hegress⟩ := gained_side h he
    have hself := (h.movers previous).entryIn he
    rw [hdirection] at hself
    refine ⟨_, hr, gainOf previous e, ?_, hp⟩
    rw [show ingress = _ from hingress, show egress = _ from hegress, hside, hself]
    rfl

theorem exists_ingress (h : Distinct entries) (p : SideDelta → Prop) :
    (∃ r ∈ (gainedRelations previous entries).map (·.2), ∃ side, r.ingress = some side ∧ p side) ↔
      ∃ e ∈ movers previous entries, e.key.direction = directionIngress ∧ p (gainOf previous e) :=
  exists_side h Relation.ingress (fun _ => rfl) p

theorem exists_egress (h : Distinct entries) (p : SideDelta → Prop) :
    (∃ r ∈ (gainedRelations previous entries).map (·.2), ∃ side, r.egress = some side ∧ p side) ↔
      ∃ e ∈ movers previous entries, e.key.direction = directionEgress ∧ p (gainOf previous e) :=
  exists_side h Relation.egress (fun _ => rfl) p

/-- Two entries of a relation are its sides. -/
theorem exists_sides (h : Distinct entries) (p : SideDelta → SideDelta → Prop) :
    (∃ r ∈ (gainedRelations previous entries).map (·.2), ∃ ingress egress, r.ingress = some ingress ∧ r.egress = some egress ∧
      p ingress egress) ↔
      ∃ ingress ∈ movers previous entries, ∃ egress ∈ movers previous entries, ingress.key.direction = directionIngress ∧
        egress.key.direction = directionEgress ∧ ingress.key.relation = egress.key.relation ∧
        p (gainOf previous ingress) (gainOf previous egress) := by
  constructor
  · rintro ⟨r, hr, ingress, egress, hingress, hegress, hp⟩
    rw [gainedRelations, relationsOf_eq _ (h.movers previous), List.map_map] at hr
    obtain ⟨key, -, rfl⟩ := List.mem_map.mp hr
    obtain ⟨i, hi, rfl⟩ := Option.map_eq_some_iff.mp hingress
    obtain ⟨e, he, rfl⟩ := Option.map_eq_some_iff.mp hegress
    obtain ⟨himem, hirelation, hidirection⟩ := entryIn_mem hi
    obtain ⟨hemem, herelation, hedirection⟩ := entryIn_mem he
    exact ⟨i, himem, e, hemem, hidirection, hedirection, hirelation.trans herelation.symm, hp⟩
  · rintro ⟨i, hi, e, he, hidirection, hedirection, hrelation, hp⟩
    obtain ⟨r, hr, hin, hout⟩ := gained_side h hi
    have hselfi := (h.movers previous).entryIn hi
    have hselfe := (h.movers previous).entryIn he
    rw [hidirection] at hselfi
    rw [hedirection, ← hrelation] at hselfe
    exact ⟨r, hr, _, _, by rw [hin, hselfi]; rfl, by rw [hout, hselfe]; rfl, hp⟩

theorem repeats_iff (r : Relation SideDelta) : r.repeats (·.packets) = true ↔
    (∃ side, r.ingress = some side ∧ 1 < side.packets) ∨ ∃ side, r.egress = some side ∧ 1 < side.packets := by
  simp only [Relation.repeats, Bool.or_eq_true, Option.any_eq_true, decide_eq_true_eq]

theorem compares_iff (p : SideDelta → SideDelta → Bool) (r : Relation SideDelta) : r.compares p = true ↔
    ∃ ingress egress, r.ingress = some ingress ∧ r.egress = some egress ∧ p ingress egress = true := by
  simp only [Relation.compares, Option.any_eq_true, exists_and_left]

theorem repeated_pos (h : Distinct entries) :
    (totalsOf previous entries).repeatedRelationCount > 0 ↔ ∃ e ∈ entries, 1 < (gainOf previous e).packets := by
  simp only [totalsOf, WindowTotals.counted, WindowTotals.zero, Nat.zero_add, gt_iff_lt, List.countP_pos_iff, repeats_iff,
    and_or_left, exists_or]
  rw [exists_ingress h fun side => 1 < side.packets, exists_egress h fun side => 1 < side.packets]
  constructor
  · rintro (⟨e, he, -, hmore⟩ | ⟨e, he, -, hmore⟩)
    · exact ⟨e, (mem_movers.mp he).1, hmore⟩
    · exact ⟨e, (mem_movers.mp he).1, hmore⟩
  · rintro ⟨e, he, hmore⟩
    have hmoved : e ∈ movers previous entries := mem_movers.mpr ⟨he, fun hboth => by rw [hboth.1] at hmore; cases hmore⟩
    rcases h.directions e he with hdirection | hdirection
    · exact .inl ⟨e, hmoved, hdirection, hmore⟩
    · exact .inr ⟨e, hmoved, hdirection, hmore⟩

theorem egressFirst_pos (h : Distinct entries) :
    (totalsOf previous entries).egressFirstCorrelatedRelationCount > 0 ↔
      ∃ ingress ∈ movers previous entries, ∃ egress ∈ movers previous entries, ingress.key.direction = directionIngress ∧
        egress.key.direction = directionEgress ∧ ingress.key.relation = egress.key.relation ∧
        egress.value.firstSeenNs < ingress.value.firstSeenNs := by
  simp only [totalsOf, WindowTotals.counted, WindowTotals.zero, Nat.zero_add, gt_iff_lt, List.countP_pos_iff, compares_iff,
    decide_eq_true_eq]
  rw [exists_sides h fun ingress egress => egress.firstSeenNs < ingress.firstSeenNs]
  simp only [gainOf_firstSeen]

/-- A maximum of saturated ratios is at a threshold when one of the ratios is. -/
theorem maximumRatio_ge (threshold : Nat) (hpos : 0 < threshold) (hfits : threshold < u64Bound) (relations : List (Relation SideDelta))
    (maximum : Option Nat) :
    (relations.foldl (Relation.maximize fun maximum ingress egress =>
      maximizeDirectionalRatio maximum ingress.packets egress.packets) maximum).any (fun ratio => threshold ≤ ratio) = true ↔
      maximum.any (fun ratio => threshold ≤ ratio) = true ∨ ∃ r ∈ relations, ∃ ingress egress, r.ingress = some ingress ∧
        r.egress = some egress ∧ (egress.packets = 0 ∨ threshold ≤ ingress.packets * 1000 / egress.packets) := by
  induction relations generalizing maximum with
  | nil => simp
  | cons r rest ih =>
    have hhead : (Relation.maximize (fun maximum ingress egress =>
        maximizeDirectionalRatio maximum ingress.packets egress.packets) maximum r).any (fun ratio => threshold ≤ ratio) = true ↔
        maximum.any (fun ratio => threshold ≤ ratio) = true ∨ ∃ ingress egress, r.ingress = some ingress ∧
          r.egress = some egress ∧ (egress.packets = 0 ∨ threshold ≤ ingress.packets * 1000 / egress.packets) := by
      obtain ⟨ingress, egress⟩ := r
      cases ingress with
      | none => simp [Relation.maximize]
      | some ingress =>
        cases egress with
        | none => simp [Relation.maximize]
        | some egress =>
          have hmaximum : threshold ≤ maximum.getD 0 ↔ maximum.any (fun ratio => threshold ≤ ratio) = true := by
            cases maximum with
            | none => simpa using hpos.ne'
            | some maximum => simp
          have hratio : threshold ≤ (if egress.packets = 0 then u64Bound - 1
              else min (ingress.packets * 1000 / egress.packets) (u64Bound - 1)) ↔
              egress.packets = 0 ∨ threshold ≤ ingress.packets * 1000 / egress.packets := by
            split
            · rename_i hzero
              exact ⟨fun _ => .inl hzero, fun _ => Nat.le_sub_one_of_lt hfits⟩
            · rename_i hnonzero
              rw [le_min_iff, or_iff_right hnonzero]
              exact and_iff_left (Nat.le_sub_one_of_lt hfits)
          simp only [Relation.maximize, maximizeDirectionalRatio, Option.any_some, decide_eq_true_eq, le_max_iff, hratio, hmaximum,
            Option.some.injEq, exists_and_left, exists_eq_left']
    rw [List.foldl_cons, ih, hhead, List.exists_mem_cons_iff, or_assoc]

theorem amplified_iff (h : Distinct entries) :
    (totalsOf previous entries).maximumRatio.any (fun ratio => DetectionConfig.fixed.amplificationRatioMilli ≤ ratio) = true ↔
      ∃ ingress ∈ movers previous entries, ∃ egress ∈ movers previous entries, ingress.key.direction = directionIngress ∧
        egress.key.direction = directionEgress ∧ ingress.key.relation = egress.key.relation ∧
        ((gainOf previous egress).packets = 0 ∨
          4000 ≤ (gainOf previous ingress).packets * 1000 / (gainOf previous egress).packets) := by
  rw [← exists_sides h fun ingress egress => egress.packets = 0 ∨ 4000 ≤ ingress.packets * 1000 / egress.packets]
  refine (maximumRatio_ge 4000 (by decide) (by decide) _ none).trans ?_
  simp

/-- The maximum of a list is one of its values, or the start. -/
theorem foldl_max_le {α : Type} (f : α → Nat) (l : List α) (start : Nat) :
    (start ≤ l.foldl (fun m a => max m (f a)) start ∧ ∀ a ∈ l, f a ≤ l.foldl (fun m a => max m (f a)) start) ∧
      (l.foldl (fun m a => max m (f a)) start = start ∨ ∃ a ∈ l, l.foldl (fun m a => max m (f a)) start = f a) := by
  induction l generalizing start with
  | nil => exact ⟨⟨le_rfl, fun _ ha => absurd ha List.not_mem_nil⟩, .inl rfl⟩
  | cons a rest ih =>
    obtain ⟨⟨hstart, hall⟩, hone⟩ := ih (max start (f a))
    rw [List.foldl_cons]
    refine ⟨⟨(le_max_left _ _).trans hstart, List.forall_mem_cons.mpr ⟨(le_max_right _ _).trans hstart, hall⟩⟩, ?_⟩
    rcases hone with heq | ⟨b, hb, heq⟩
    · rcases max_choice start (f a) with hmax | hmax
      · exact .inl (heq.trans hmax)
      · exact .inr ⟨a, List.mem_cons_self, heq.trans hmax⟩
    · exact .inr ⟨b, List.mem_cons_of_mem _ hb, heq⟩

theorem ingressPackets_eq (h : Distinct entries) :
    (totalsOf previous entries).ingress.packets = carried directionIngress (fun e => (gainOf previous e).packets) entries := by
  have hmoved : carried directionIngress (fun e => (gainOf previous e).packets) (movers previous entries) =
      carried directionIngress (fun e => (gainOf previous e).packets) entries := by
    clear h
    induction entries with
    | nil => rfl
    | cons e rest ih =>
      rw [carried_cons, ← ih]
      by_cases hgained : (gainOf previous e).packets = 0 ∧ (gainOf previous e).bytes = 0
      · rw [movers, List.filter_cons_of_neg (by simpa using hgained), ← movers, hgained.1, ite_self, Nat.zero_add]
      · rw [movers, List.filter_cons_of_pos (by rw [decide_eq_true_iff]; exact hgained), ← movers, carried_cons]
  simp only [totalsOf, WindowTotals.counted, WindowTotals.zero, Nat.zero_add]
  rw [gainedRelations, (gained_relationsOf (gainOf previous) (·.packets) (h.movers previous)).1, ← hmoved]
  rfl

theorem dominant_iff (h : Distinct entries) (hsamples : 0 < carried directionIngress (fun e => (gainOf previous e).packets) entries) :
    (dominantRatioMilli (totalsOf previous entries).dominantIngressPackets (totalsOf previous entries).ingress.packets).any
        (fun ratio => DetectionConfig.fixed.dominantRatioMilli ≤ ratio) = true ↔
      ∃ e ∈ entries, e.key.direction = directionIngress ∧ (4 : ℚ) / 5 ≤
        ((gainOf previous e).packets : ℚ) / carried directionIngress (fun e => (gainOf previous e).packets) entries := by
  have hmilli : ((800 : Nat) : ℚ) / 1000 = 4 / 5 := by norm_num
  have hpos : (0 : ℚ) < carried directionIngress (fun e => (gainOf previous e).packets) entries := by exact_mod_cast hsamples
  have hfits : 800 ≤ u64Bound - 1 := by decide
  rw [ingressPackets_eq h, dominantRatioMilli, if_neg hsamples.ne', Option.any_some, decide_eq_true_eq]
  show 800 ≤ min _ _ ↔ _
  rw [le_min_iff, and_iff_left hfits, milli_le_iff 800 _ hsamples.ne', hmilli]
  obtain ⟨⟨-, hall⟩, hone⟩ := foldl_max_le (fun r : Relation SideDelta => (r.ingress.map (·.packets)).getD 0)
    ((gainedRelations previous entries).map (·.2)) 0
  change (4 : ℚ) / 5 ≤ (((gainedRelations previous entries).map (·.2)).foldl
    (fun m r => max m ((r.ingress.map (·.packets)).getD 0)) 0 : Nat) / _ ↔ _
  constructor
  · intro hdominant
    rcases hone with hzero | ⟨r, hr, heq⟩
    · rw [hzero] at hdominant
      norm_num at hdominant
    · rw [heq] at hdominant
      cases hside : r.ingress with
      | none =>
        rw [hside] at hdominant
        norm_num at hdominant
      | some side =>
        rw [hside] at hdominant
        obtain ⟨e, he, hdirection, hratio⟩ := (exists_ingress h fun side => (4 : ℚ) / 5 ≤ (side.packets : ℚ) /
          carried directionIngress (fun e => (gainOf previous e).packets) entries).mp ⟨r, hr, side, hside, hdominant⟩
        exact ⟨e, (mem_movers.mp he).1, hdirection, hratio⟩
  · rintro ⟨e, he, hdirection, hratio⟩
    refine hratio.trans ((div_le_div_iff_of_pos_right hpos).mpr ?_)
    norm_cast
    by_cases hzero : (gainOf previous e).packets = 0
    · rw [hzero]
      exact Nat.zero_le _
    · obtain ⟨r, hr, side, hside, hpackets⟩ := (exists_ingress h fun side => side.packets = (gainOf previous e).packets).mpr
        ⟨e, mem_movers.mpr ⟨he, fun hboth => hzero hboth.1⟩, hdirection, rfl⟩
      have hle := hall r hr
      rw [hside, Option.map_some, Option.getD_some, hpackets] at hle
      exact hle

end

/-! ### Signals -/

section
variable {windows : Fin 3 → DetailedRateWindow} {baseline : BaselineReport} {nowMs : Nat}

theorem mapErr_eq_ok {ε δ α : Type} {error : δ} {x : Except ε α} {a : α} : mapErr error x = .ok a ↔ x = .ok a := by
  cases x with
  | error e => exact ⟨nofun, nofun⟩
  | ok a' => rw [mapErr, Except.ok.injEq, Except.ok.injEq]

/-- What `derive` puts its signals together from. -/
theorem deriveSignals_eq_ok {fingerprint : FingerprintWindowReport} {signals : DetectionSignals}
    (h : deriveSignals windows baseline fingerprint nowMs = .ok signals) :
    validateDetailedRateWindows windows = .ok () ∧ baseline.validate = .ok () ∧
      deriveHook (windows 0) (windows 1) baseline .externalXdpIngress = .ok signals.ingress ∧
      deriveHook (windows 0) (windows 1) baseline .physicalTcEgress = .ok signals.egress ∧
      signals.candidate = stormCandidate (hookIsCandidate signals.ingress) (hookIsCandidate signals.egress) ∧
      deriveRelationshipSignals signals.candidate signals.ingress fingerprint nowMs =
        .ok (signals.loopSuspected, signals.loopHighConfidence) := by
  obtain ⟨_, hwindows, h⟩ := bind_eq_ok.mp h
  obtain ⟨_, hbaseline, h⟩ := bind_eq_ok.mp h
  obtain ⟨_, -, h⟩ := bind_eq_ok.mp h
  obtain ⟨oneSecond, hone, h⟩ := bind_eq_ok.mp h
  obtain ⟨tenSecond, hten, h⟩ := bind_eq_ok.mp h
  obtain ⟨sourceEnd, -, h⟩ := bind_eq_ok.mp h
  obtain ⟨ingress, hingress, h⟩ := bind_eq_ok.mp h
  obtain ⟨egress, hegress, h⟩ := bind_eq_ok.mp h
  obtain ⟨relationship, hrelationship, h⟩ := bind_eq_ok.mp h
  obtain ⟨_, -, h⟩ := bind_eq_ok.mp h
  cases h
  have hvalid := mapErr_eq_ok.mp hwindows
  have hms := (windows_fixed hvalid).1
  rw [fixedWindow_eq (i := 0) hms hone, fixedWindow_eq (i := 1) hms hten] at hingress hegress
  exact ⟨hvalid, mapErr_eq_ok.mp hbaseline, hingress, hegress, rfl, hrelationship⟩

/-- The hooks of a storm candidate. -/
theorem stormCandidate_iff (ingress egress : Bool) :
    (stormCandidate ingress egress = .ingress ∨ stormCandidate ingress egress = .bidirectional ↔ ingress = true) ∧
      (stormCandidate ingress egress = .egress ∨ stormCandidate ingress egress = .bidirectional ↔ egress = true) := by
  cases ingress <;> cases egress <;> decide

/-- The comparisons of `derive_relationship_signals`, on the window that two scans make. -/
theorem deriveRelationshipSignals_iff {previous current : FingerprintEndpoint} {coverageMs count : Nat} {totals : WindowTotals}
    {candidate : StormCandidate} {ingress : HookDetectionSignals} {suspected highConfidence : Option Bool}
    (h : deriveRelationshipSignals candidate ingress (windowReport previous current coverageMs count totals) nowMs =
      .ok (suspected, highConfidence)) :
    (suspected = some true ↔ nowMs ≤ current.capturedAtUnixMs + 15000 ∧ (candidate = .ingress ∨ candidate = .bidirectional) ∧
      ingress.bumRatioMilli.any (fun ratio => DetectionConfig.fixed.bumRatioMilli ≤ ratio) = true ∧
      16 ≤ totals.ingress.packets ∧ totals.repeatedRelationCount > 0 ∧
      (dominantRatioMilli totals.dominantIngressPackets totals.ingress.packets).any
        (fun ratio => DetectionConfig.fixed.dominantRatioMilli ≤ ratio) = true) ∧
    (highConfidence = some true ↔ suspected = some true ∧ totals.egressFirstCorrelatedRelationCount > 0 ∧
      totals.maximumRatio.any (fun ratio => DetectionConfig.fixed.amplificationRatioMilli ≤ ratio) = true) := by
  unfold deriveRelationshipSignals at h
  have hready : ¬(windowReport previous current coverageMs count totals).state ≠ .ready := not_not_intro rfl
  rw [if_neg hready] at h
  unfold windowReport at h
  dsimp only at h
  split at h
  · cases h
  · rename_i hpast
    split at h
    · rename_i hold
      have hstale : ¬nowMs ≤ current.capturedAtUnixMs + 15000 := by
        rw [detectionFingerprintFreshnessMs] at hold
        omega
      cases h
      exact ⟨⟨fun hnone => (by cases hnone), fun hfresh => absurd hfresh.1 hstale⟩,
        ⟨fun hnone => (by cases hnone), fun hsuspected => (by cases hsuspected.1)⟩⟩
    · rename_i hfresh
      have hfresh' : nowMs ≤ current.capturedAtUnixMs + 15000 := by
        rw [detectionFingerprintFreshnessMs] at hfresh
        omega
      have hsamples : DetectionConfig.fixed.minimumIngressSamples = 16 := rfl
      cases h
      simp only [hsamples, ge_iff_le, Option.some.injEq, Bool.and_eq_true, Bool.or_eq_true, beq_iff_eq, decide_eq_true_eq, hfresh',
        true_and, and_assoc, and_self]

/-- Where no entry gained bytes alone, the totals of a window meet the thresholds when the entries do. -/
theorem totals_exact {previous current : FingerprintEndpoint} (hdistinct : Distinct current.entries)
    (huntorn : Untorn previous.entries current.entries) :
    (totalsOf previous.entries current.entries).ingress.packets = ingressSamples previous current ∧
      ((totalsOf previous.entries current.entries).egressFirstCorrelatedRelationCount > 0 ↔
        ∃ ingress egress, Returns previous current ingress egress ∧ egress.value.firstSeenNs < ingress.value.firstSeenNs) ∧
      ((totalsOf previous.entries current.entries).maximumRatio.any
          (fun ratio => DetectionConfig.fixed.amplificationRatioMilli ≤ ratio) = true ↔
        ∃ ingress egress, Returns previous current ingress egress ∧
          (4 : ℚ) ≤ gainedPackets previous ingress / gainedPackets previous egress) := by
  have hmoved : ∀ e, e ∈ movers previous.entries current.entries ↔ e ∈ current.entries ∧ 0 < gainedPackets previous e := by
    intro e
    rw [mem_movers, Nat.pos_iff_ne_zero]
    refine and_congr_right fun he => ⟨fun hgained hzero => hgained ⟨hzero, huntorn e he hzero⟩, fun hpackets hboth => hpackets hboth.1⟩
  have hreturns : ∀ p : FingerprintEvidence → FingerprintEvidence → Prop,
      (∃ ingress ∈ movers previous.entries current.entries, ∃ egress ∈ movers previous.entries current.entries,
        ingress.key.direction = directionIngress ∧ egress.key.direction = directionEgress ∧
        ingress.key.relation = egress.key.relation ∧ p ingress egress) ↔
      ∃ ingress egress, Returns previous current ingress egress ∧ p ingress egress := by
    intro p
    simp only [hmoved]
    constructor
    · rintro ⟨i, ⟨hi, hipackets⟩, e, ⟨he, hepackets⟩, hidirection, hedirection, hrelation, hp⟩
      exact ⟨i, e, ⟨⟨hi, he⟩, ⟨hidirection, hedirection⟩, hrelation, ⟨hipackets, hepackets⟩⟩, hp⟩
    · rintro ⟨i, e, ⟨⟨hi, he⟩, ⟨hidirection, hedirection⟩, hrelation, ⟨hipackets, hepackets⟩⟩, hp⟩
      exact ⟨i, ⟨hi, hipackets⟩, e, ⟨he, hepackets⟩, hidirection, hedirection, hrelation, hp⟩
  have hmilli : ((4000 : Nat) : ℚ) / 1000 = 4 := by norm_num
  refine ⟨ingressPackets_eq hdistinct, (egressFirst_pos hdistinct).trans (hreturns _), ?_⟩
  rw [amplified_iff hdistinct, hreturns]
  refine exists_congr fun i => exists_congr fun e => and_congr_right fun hreturn => ?_
  have hpackets := hreturn.gained.2.ne'
  rw [gainedPackets] at hpackets
  rw [or_iff_right hpackets, milli_le_iff 4000 _ hpackets, hmilli]
  exact Iff.rfl

/-- **The signals are what the windows, the baselines and the scans say.** -/
theorem derive_exact {fingerprint : FingerprintWindowReport} {signals : DetectionSignals}
    (h : deriveSignals windows baseline fingerprint nowMs = .ok signals) :
    (signals.candidate = .ingress ∨ signals.candidate = .bidirectional ↔ HookCandidate windows baseline .externalXdpIngress) ∧
    (signals.candidate = .egress ∨ signals.candidate = .bidirectional ↔ HookCandidate windows baseline .physicalTcEgress) ∧
    ∀ identity evidence previous current coverageMs, validateScan identity evidence = .ok current.entries →
      Untorn previous.entries current.entries → buildWindow previous current coverageMs = .ok fingerprint →
      (signals.loopSuspected = some true ↔ LoopSuspected windows baseline previous current nowMs) ∧
        (signals.loopHighConfidence = some true ↔ LoopHighConfidence windows baseline previous current nowMs) := by
  obtain ⟨hrates, hbaseline, hingress, hegress, hcandidate, hrelationship⟩ := deriveSignals_eq_ok h
  obtain ⟨hingressCandidate, hshare⟩ := deriveHook_iff (k := 0) hrates hbaseline hingress
  obtain ⟨hegressCandidate, -⟩ := deriveHook_iff (k := 1) hrates hbaseline hegress
  obtain ⟨hstormIngress, hstormEgress⟩ := stormCandidate_iff (hookIsCandidate signals.ingress) (hookIsCandidate signals.egress)
  rw [← hcandidate] at hstormIngress hstormEgress
  refine ⟨hstormIngress.trans hingressCandidate, hstormEgress.trans hegressCandidate, ?_⟩
  intro identity evidence previous current coverageMs hscan huntorn hbuild
  obtain ⟨hreportable, hentries⟩ := validateScan_eq_ok.mp hscan
  have hdistinct : Distinct current.entries := by
    rw [hentries]
    exact hreportable.sorted.distinct
  obtain ⟨-, hreport⟩ := buildWindow_eq hdistinct.directions hbuild
  rw [hreport] at hrelationship
  obtain ⟨hsuspected, hhigh⟩ := deriveRelationshipSignals_iff hrelationship
  obtain ⟨hsamples, hegressFirst, hamplified⟩ := totals_exact hdistinct huntorn
  have hloop : signals.loopSuspected = some true ↔ LoopSuspected windows baseline previous current nowMs := by
    rw [hsuspected, hstormIngress, hingressCandidate, hshare, repeated_pos hdistinct]
    constructor
    · rintro ⟨hfresh, hcandidate, hshare, hsixteen, hrepeated, hdominant⟩
      rw [hsamples] at hsixteen
      have hpos : 0 < ingressSamples previous current := Nat.lt_of_lt_of_le (by decide) hsixteen
      exact ⟨hfresh, hcandidate, hshare, hsixteen, hrepeated, (dominant_iff hdistinct hpos).mp hdominant⟩
    · rintro ⟨hfresh, hcandidate, hshare, hsixteen, hrepeated, hdominant⟩
      have hpos : 0 < ingressSamples previous current := Nat.lt_of_lt_of_le (by decide) hsixteen
      rw [hsamples]
      exact ⟨hfresh, hcandidate, hshare, hsixteen, hrepeated, hsamples ▸ (dominant_iff hdistinct hpos).mpr hdominant⟩
  refine ⟨hloop, ?_⟩
  rw [hhigh, hloop, hegressFirst, hamplified]
  exact ⟨fun ⟨h, h', h''⟩ => ⟨h, h', h''⟩, fun ⟨h, h', h''⟩ => ⟨h, h', h''⟩⟩

/-! ### A storm -/

def stormRates (role : HookRole) : HookRate :=
  ⟨role, ⟨2000000, 128000000, 200000, 12800000⟩,
    fun c => ⟨classOrder c, if c = 0 then ⟨2000000, 128000000, 200000, 12800000⟩ else ⟨0, 0, 0, 0⟩⟩, ⟨0, 0, 0, 0⟩⟩

def stormWindows (i : Fin 3) : DetailedRateWindow :=
  ⟨rateWindowMs i, .ready, rateWindowMs i, some (rateWindowMs i * 1000000), some 2000, some 12000, some fun k => stormRates (hookOrder k)⟩

/-- A broadcast storm that comes back on one relation is suspected to be a loop while the baselines still learn. -/
theorem derive_exact_storm : LoopSuspected stormWindows (.learning 0) ⟨0, 0, sortEntries [flowEntry 1 5 320, flowEntry 2 5 320]⟩
    ⟨10000000000, 10000, sortEntries [flowEntry 1 25 1600, flowEntry 2 6 384]⟩ 12000 :=
  ((@derive_exact stormWindows (.learning 0) 12000 _ _ rfl).2.2 ⟨3, 1, by decide, by decide⟩ [flowEntry 1 25 1600, flowEntry 2 6 384]
    ⟨0, 0, sortEntries [flowEntry 1 5 320, flowEntry 2 5 320]⟩
    ⟨10000000000, 10000, sortEntries [flowEntry 1 25 1600, flowEntry 2 6 384]⟩ 10000 rfl (by unfold Untorn; decide) rfl).1.mp rfl

end

end NetworkLoop.Observation
