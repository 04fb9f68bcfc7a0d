import NetworkLoop.Observation.Fingerprints

/-! When a scan makes a window.

Valid entries with different keys make a report as long as they are within the capacity
and their sums fit (`build_ok`). The other way round, a scan that `validate_scan` accepts
bounds its own sums: what its entries gained since the previous scan is at most what they
carry, so the sums of the window cannot overflow and its counts stay below the capacity. If no entry went back, the only thing left that
`build_window` can refuse is a relation that gained on both sides while no egress packet
was gained at all (`lopsided`); `recordScan_ready` puts this together. -/
namespace NetworkLoop.Observation
open Library Detection

/-! ### What an accepted scan bounds -/

/-- The items of one direction. -/
def ofDirection (direction : Nat) (evidence : List FingerprintEvidence) : List FingerprintEvidence :=
  evidence.filter fun item => item.key.direction = direction

/-- A sum over the items of one direction. -/
def carried (direction : Nat) (amount : FingerprintEvidence → Nat) (evidence : List FingerprintEvidence) : Nat :=
  ((ofDirection direction evidence).map amount).sum

theorem carried_cons (direction : Nat) (amount : FingerprintEvidence → Nat) (item : FingerprintEvidence)
    (rest : List FingerprintEvidence) :
    carried direction amount (item :: rest) =
      (if item.key.direction = direction then amount item else 0) + carried direction amount rest := by
  unfold carried ofDirection
  by_cases h : item.key.direction = direction
  · rw [List.filter_cons_of_pos (by simpa using h), if_pos h, List.map_cons, List.sum_cons]
  · rw [List.filter_cons_of_neg (by simpa using h), if_neg h, Nat.zero_add]

theorem carried_perm {direction : Nat} {amount : FingerprintEvidence → Nat} {a b : List FingerprintEvidence}
    (h : a.Perm b) : carried direction amount a = carried direction amount b :=
  ((h.filter _).map _).sum_eq

theorem carried_le {direction : Nat} {amount amount' : FingerprintEvidence → Nat} {evidence : List FingerprintEvidence}
    (h : ∀ e ∈ evidence, amount e ≤ amount' e) : carried direction amount evidence ≤ carried direction amount' evidence :=
  List.sum_le_sum fun e he => h e (List.mem_filter.mp he).1

/-- An item's direction is one of the two. -/
theorem validateEvidence_direction {item : FingerprintEvidence} {ifindex generation : Nat}
    (h : validateEvidence item ifindex generation = .ok ()) :
    item.key.direction = directionIngress ∨ item.key.direction = directionEgress := by
  unfold validateEvidence at h
  split at h
  · cases h
  · rename_i hshape
    by_contra hdirection
    exact hshape (.inr (.inr (.inl hdirection)))

/-- A valid entry has a packet, and a byte a packet. -/
theorem validateEvidence_counts {e : FingerprintEvidence} {ifindex generation : Nat}
    (h : validateEvidence e ifindex generation = .ok ()) : e.value.packets ≠ 0 ∧ e.value.packets ≤ e.value.bytes := by
  unfold validateEvidence at h
  split at h
  · cases h
  · omega

/-- Valid entries with the same exact key have the same key. -/
theorem key_eq {e e' : FingerprintEvidence} {ifindex generation : Nat}
    (h : validateEvidence e ifindex generation = .ok ()) (h' : validateEvidence e' ifindex generation = .ok ())
    (hexact : e.key.exact = e'.key.exact) : e.key = e'.key := by
  have hreserved : ∀ {x : FingerprintEvidence}, validateEvidence x ifindex generation = .ok () → x.key.reserved = [0, 0] := by
    intro x hx
    unfold validateEvidence at hx
    split at hx
    · cases hx
    · rename_i hshape
      by_contra hne
      exact hshape (.inr (.inr (.inr (.inr (.inr (.inl hne))))))
  obtain ⟨hrelation, hdirection⟩ := Prod.ext_iff.mp hexact
  have h1 := hreserved h
  have h2 := hreserved h'
  generalize e.key = key at *
  generalize e'.key = key' at *
  obtain ⟨⟩ := key
  obtain ⟨⟩ := key'
  simp only [FingerprintKey.exact, FingerprintKey.relation, RelationKey.mk.injEq] at *
  grind

theorem addCounters_ok {c c' : FingerprintCounters} {packets bytes : Nat} (h : addCounters c packets bytes = .ok c') :
    c'.packets = c.packets + packets ∧ c'.bytes = c.bytes + bytes ∧
      c.packets + packets < u64Bound ∧ c.bytes + bytes < u64Bound := by
  unfold addCounters checkedAdd at h
  split at h
  · rename_i p b hp hb
    split at hp
    · split at hb
      · cases hp
        cases hb
        cases h
        exact ⟨rfl, rfl, ‹_›, ‹_›⟩
      · cases hb
    · cases hp
  · cases h
  · cases h

/-- The totals of `build` are the sums over the evidence, and fit. -/
structure Bounded (evidence : List FingerprintEvidence) (start final : FingerprintReport.Collected) : Prop where
  directions : ∀ item ∈ evidence, item.key.direction = directionIngress ∨ item.key.direction = directionEgress
  ingressPackets : final.ingress.packets = start.ingress.packets + carried directionIngress (·.value.packets) evidence
  ingressBytes : final.ingress.bytes = start.ingress.bytes + carried directionIngress (·.value.bytes) evidence
  egressPackets : final.egress.packets = start.egress.packets + carried directionEgress (·.value.packets) evidence
  egressBytes : final.egress.bytes = start.egress.bytes + carried directionEgress (·.value.bytes) evidence
  fits : (start.ingress.packets < u64Bound ∧ start.ingress.bytes < u64Bound ∧ start.egress.packets < u64Bound ∧
      start.egress.bytes < u64Bound) →
    final.ingress.packets < u64Bound ∧ final.ingress.bytes < u64Bound ∧ final.egress.packets < u64Bound ∧
      final.egress.bytes < u64Bound

theorem collect_ok {ifindex generation : Nat} {c c' : FingerprintReport.Collected} {item : FingerprintEvidence}
    (h : FingerprintReport.collect ifindex generation c item = .ok c') : Bounded [item] c c' := by
  unfold FingerprintReport.collect at h
  cases hv : validateEvidence item ifindex generation with
  | error e => rw [hv] at h; cases h
  | ok u =>
    rw [hv] at h
    dsimp only [bind, Except.bind] at h
    have hdir := validateEvidence_direction hv
    split at h
    · cases h
    · split at h
      · rename_i hin
        split at h
        · cases h
        · rename_i ingress hadd
          cases h
          obtain ⟨hp, hb, hpf, hbf⟩ := addCounters_ok hadd
          refine ⟨by simpa using hdir, ?_, ?_, ?_, ?_, fun hs => ⟨by rw [hp]; exact hpf, by rw [hb]; exact hbf, hs.2.2⟩⟩
          all_goals simp [hin, hp, hb, carried, ofDirection, directionEgress, directionIngress]
      · rename_i hin
        have hout : item.key.direction = directionEgress := hdir.resolve_left hin
        split at h
        · cases h
        · rename_i egress hadd
          cases h
          obtain ⟨hp, hb, hpf, hbf⟩ := addCounters_ok hadd
          refine ⟨by simpa using hdir, ?_, ?_, ?_, ?_,
            fun hs => ⟨hs.1, hs.2.1, by rw [hp]; exact hpf, by rw [hb]; exact hbf⟩⟩
          all_goals simp [hout, hp, hb, carried, ofDirection, directionEgress, directionIngress]

theorem Bounded.cons {item : FingerprintEvidence} {rest : List FingerprintEvidence}
    {c next c' : FingerprintReport.Collected} (h : Bounded [item] c next) (h' : Bounded rest next c') :
    Bounded (item :: rest) c c' where
  directions := by
    intro x hx
    obtain rfl | hx := List.mem_cons.mp hx
    · exact h.directions x (List.mem_singleton.mpr rfl)
    · exact h'.directions x hx
  ingressPackets := by
    rw [h'.ingressPackets, h.ingressPackets, carried_cons, carried_cons, Nat.add_assoc]
    rfl
  ingressBytes := by
    rw [h'.ingressBytes, h.ingressBytes, carried_cons, carried_cons, Nat.add_assoc]
    rfl
  egressPackets := by
    rw [h'.egressPackets, h.egressPackets, carried_cons, carried_cons, Nat.add_assoc]
    rfl
  egressBytes := by
    rw [h'.egressBytes, h.egressBytes, carried_cons, carried_cons, Nat.add_assoc]
    rfl
  fits := fun hs => h'.fits (h.fits hs)

/-- A scan that is accepted is small enough for the arithmetic of a window. -/
structure Sized (entries : List FingerprintEvidence) : Prop where
  length : entries.length ≤ fingerprintCapacity
  directions : ∀ item ∈ entries, item.key.direction = directionIngress ∨ item.key.direction = directionEgress
  ingressPackets : carried directionIngress (·.value.packets) entries < u64Bound
  ingressBytes : carried directionIngress (·.value.bytes) entries < u64Bound
  egressPackets : carried directionEgress (·.value.packets) entries < u64Bound
  egressBytes : carried directionEgress (·.value.bytes) entries < u64Bound

/-- Evidence that the loop of `build` has come through is small enough. -/
theorem collected_sized {ifindex generation : Nat} {evidence : List FingerprintEvidence} {c : FingerprintReport.Collected}
    (hlength : evidence.length ≤ fingerprintCapacity)
    (h : evidence.foldlM (FingerprintReport.collect ifindex generation) ⟨⟨0, 0⟩, ⟨0, 0⟩, [], []⟩ = .ok c) : Sized evidence := by
  have hb : Bounded evidence ⟨⟨0, 0⟩, ⟨0, 0⟩, [], []⟩ c := by
    refine foldlM_relates Bounded (fun b => ?_) (fun a rest b next b' hf hr => (collect_ok hf).cons hr) h
    exact ⟨nofun, rfl, rfl, rfl, rfl, id⟩
  obtain ⟨hip, hib, hep, heb⟩ := hb.fits (by decide)
  rw [hb.ingressPackets, Nat.zero_add] at hip
  rw [hb.ingressBytes, Nat.zero_add] at hib
  rw [hb.egressPackets, Nat.zero_add] at hep
  rw [hb.egressBytes, Nat.zero_add] at heb
  exact ⟨hlength, hb.directions, hip, hib, hep, heb⟩

/-- It is valid, entry by entry. -/
theorem collected_valid {ifindex generation : Nat} {evidence : List FingerprintEvidence} {c c' : FingerprintReport.Collected}
    (h : evidence.foldlM (FingerprintReport.collect ifindex generation) c = .ok c') :
    ∀ e ∈ evidence, validateEvidence e ifindex generation = .ok () := by
  refine foldlM_relates (fun evidence _ _ => ∀ e ∈ evidence, validateEvidence e ifindex generation = .ok ())
    (fun _ e he => absurd he List.not_mem_nil) (fun a rest b next b' hf hrest e he => ?_) h
  obtain rfl | he := List.mem_cons.mp he
  · unfold FingerprintReport.collect at hf
    cases hv : validateEvidence e ifindex generation with
    | error err => rw [hv] at hf; cases hf
    | ok u => rfl
  · exact hrest e he

/-- A report is built of evidence that the loop comes through. -/
theorem build_collects {ifindex generation : Nat} {evidence : List FingerprintEvidence} {report : FingerprintReport}
    (h : FingerprintReport.build ifindex generation evidence = .ok report) : evidence.length ≤ fingerprintCapacity ∧
      ∃ c, evidence.foldlM (FingerprintReport.collect ifindex generation) ⟨⟨0, 0⟩, ⟨0, 0⟩, [], []⟩ = .ok c := by
  unfold FingerprintReport.build at h
  split at h
  · cases h
  · split at h
    · cases h
    · rename_i hlength
      obtain ⟨captured, -, h⟩ := bind_eq_ok.mp h
      obtain ⟨c, hcollect, -⟩ := bind_eq_ok.mp h
      exact ⟨Nat.not_lt.mp hlength, c, hcollect⟩

theorem build_sized {ifindex generation : Nat} {evidence : List FingerprintEvidence} {report : FingerprintReport}
    (h : FingerprintReport.build ifindex generation evidence = .ok report) : Sized evidence := by
  obtain ⟨hlength, c, hcollect⟩ := build_collects h
  exact collected_sized hlength hcollect

/-- A report is built of valid entries only. -/
theorem build_valid {ifindex generation : Nat} {evidence : List FingerprintEvidence} {report : FingerprintReport}
    (h : FingerprintReport.build ifindex generation evidence = .ok report) :
    ∀ e ∈ evidence, validateEvidence e ifindex generation = .ok () := by
  obtain ⟨-, c, hcollect⟩ := build_collects h
  exact collected_valid hcollect

theorem Sized.perm {a b : List FingerprintEvidence} (h : Sized a) (hp : a.Perm b) : Sized b where
  length := hp.length_eq ▸ h.length
  directions := fun item hitem => h.directions item (hp.mem_iff.mpr hitem)
  ingressPackets := carried_perm hp ▸ h.ingressPackets
  ingressBytes := carried_perm hp ▸ h.ingressBytes
  egressPackets := carried_perm hp ▸ h.egressPackets
  egressBytes := carried_perm hp ▸ h.egressBytes

theorem validateScan_sized {identity : RateIdentity} {evidence entries : List FingerprintEvidence}
    (h : validateScan identity evidence = .ok entries) : entries = sortEntries evidence ∧ Sized entries := by
  unfold validateScan at h
  split at h
  · cases h
  · rename_i report hbuild
    split at h
    · cases h
      exact ⟨rfl, (build_sized hbuild).perm (List.perm_insertionSort _ evidence).symm⟩
    · cases h

/-! ### When a report is built -/

/-- The counts of a report. -/
def FingerprintReport.counts (r : FingerprintReport) : List Nat :=
  [r.repeatedRelationCount, r.ingressOnlyRelationCount, r.egressOnlyRelationCount, r.correlatedRelationCount,
    r.ingressFirstRelationCount, r.egressFirstRelationCount, r.simultaneousRelationCount]

theorem increment_ok {value n : Nat} (h : value + (n + 1) < 2 ^ 16) : increment value = .ok (value + 1) := by
  rw [increment, if_pos (by omega)]

/-- A relation with a side raises counts by one at most, and needs room for no more. -/
theorem accumulateRelation_ok {r : FingerprintReport} {relation : Relation Side} {n : Nat}
    (hside : relation.ingress.isSome ∨ relation.egress.isSome) (hroom : ∀ c ∈ r.counts, c + (n + 1) < 2 ^ 16) :
    ∃ r', FingerprintReport.accumulateRelation r relation = .ok r' ∧ ∀ c ∈ r'.counts, c + n < 2 ^ 16 := by
  simp only [FingerprintReport.counts, List.forall_mem_cons, List.not_mem_nil, false_implies, implies_true, and_true] at hroom ⊢
  obtain ⟨hrepeated, hingress, hegress, hcorrelated, hfirst, hsecond, hboth⟩ := hroom
  obtain ⟨ingress, egress⟩ := relation
  have hrepeated' := increment_ok hrepeated
  have hcorrelated' := increment_ok hcorrelated
  unfold FingerprintReport.accumulateRelation
  generalize (Option.any (fun side : Side => decide (side.counters.packets > 1)) ingress ||
    Option.any (fun side : Side => decide (side.counters.packets > 1)) egress) = repeats
  cases ingress with
  | none =>
    cases egress with
    | none => simp at hside
    | some egress =>
      have hegress' := increment_ok hegress
      cases repeats <;> simp [hrepeated', hegress', bind, Except.bind] <;> omega
  | some ingress =>
    cases egress with
    | none =>
      have hingress' := increment_ok hingress
      cases repeats <;> simp [hrepeated', hingress', bind, Except.bind] <;> omega
    | some egress =>
      have hfirst' := increment_ok hfirst
      have hsecond' := increment_ok hsecond
      have hboth' := increment_ok hboth
      by_cases hlt : ingress.firstSeenNs < egress.firstSeenNs
      · cases repeats <;> simp [hrepeated', hcorrelated', hlt, hfirst', bind, Except.bind] <;> omega
      · by_cases hgt : ingress.firstSeenNs > egress.firstSeenNs
        · cases repeats <;> simp [hrepeated', hcorrelated', hlt, hgt, hsecond', bind, Except.bind] <;> omega
        · cases repeats <;> simp [hrepeated', hcorrelated', hlt, hgt, hboth', bind, Except.bind] <;> omega

/-- Setting a side leaves every relation with a side. -/
theorem set_sides {relations : Relations Side} {key : RelationKey} {direction : Nat} {side : Side}
    (h : ∀ g ∈ relations, g.2.ingress.isSome ∨ g.2.egress.isSome) :
    (∀ g ∈ relations.set key direction side, g.2.ingress.isSome ∨ g.2.egress.isSome) ∧
      (relations.set key direction side).length ≤ relations.length + 1 := by
  induction relations with
  | nil => by_cases hd : direction = directionIngress <;> simp [Relations.set, hd]
  | cons head rest ih =>
    obtain ⟨hhead, hrest⟩ := List.forall_mem_cons.mp h
    obtain ⟨hsides, hlength⟩ := ih hrest
    unfold Relations.set
    split
    · refine ⟨List.forall_mem_cons.mpr ⟨?_, hrest⟩, Nat.le_succ _⟩
      split
      · exact .inl rfl
      · exact .inr rfl
    · exact ⟨List.forall_mem_cons.mpr ⟨hhead, hsides⟩, Nat.succ_le_succ hlength⟩

/-- The loop over the evidence, with the items still to come: they are valid and new, and
their sums fit on top of what was collected. -/
structure Collecting (ifindex generation n : Nat) (rest : List FingerprintEvidence) (c : FingerprintReport.Collected) :
    Prop where
  valid : ∀ e ∈ rest, validateEvidence e ifindex generation = .ok ()
  distinct : (rest.map (·.key.exact)).Nodup
  apart : ∀ e ∈ rest, e.key.exact ∉ c.exact
  ingressPackets : c.ingress.packets + carried directionIngress (·.value.packets) rest < u64Bound
  ingressBytes : c.ingress.bytes + carried directionIngress (·.value.bytes) rest < u64Bound
  egressPackets : c.egress.packets + carried directionEgress (·.value.packets) rest < u64Bound
  egressBytes : c.egress.bytes + carried directionEgress (·.value.bytes) rest < u64Bound
  length : c.groups.length + rest.length ≤ n
  sides : ∀ g ∈ c.groups, g.2.ingress.isSome ∨ g.2.egress.isSome

theorem addCounters_fits {c : FingerprintCounters} {packets bytes : Nat} (hp : c.packets + packets < u64Bound)
    (hb : c.bytes + bytes < u64Bound) : addCounters c packets bytes = .ok ⟨c.packets + packets, c.bytes + bytes⟩ := by
  rw [addCounters, checkedAdd, checkedAdd, if_pos hp, if_pos hb]

theorem Collecting.step {ifindex generation n : Nat} {item : FingerprintEvidence} {rest : List FingerprintEvidence}
    {c : FingerprintReport.Collected} (h : Collecting ifindex generation n (item :: rest) c) :
    ∃ c', FingerprintReport.collect ifindex generation c item = .ok c' ∧ Collecting ifindex generation n rest c' := by
  obtain ⟨hvalid, hvalidRest⟩ := List.forall_mem_cons.mp h.valid
  obtain ⟨hapart, hapartRest⟩ := List.forall_mem_cons.mp h.apart
  obtain ⟨hnew, hdistinct⟩ := List.nodup_cons.mp h.distinct
  obtain ⟨hsides, hgroups⟩ := @set_sides c.groups item.key.relation item.key.direction
    ⟨item.value.firstSeenNs, ⟨item.value.packets, item.value.bytes⟩⟩ h.sides
  have hlength := h.length
  rw [List.length_cons] at hlength
  have hfresh : ∀ e ∈ rest, e.key.exact ∉ item.key.exact :: c.exact := by
    intro e he hmem
    obtain heq | hmem := List.mem_cons.mp hmem
    · exact hnew (List.mem_map.mpr ⟨e, he, heq⟩)
    · exact hapartRest e he hmem
  have hip := h.ingressPackets
  have hib := h.ingressBytes
  have hep := h.egressPackets
  have heb := h.egressBytes
  rw [carried_cons] at hip hib hep heb
  unfold FingerprintReport.collect
  rw [hvalid]
  dsimp only [bind, Except.bind]
  rw [if_neg hapart]
  by_cases hin : item.key.direction = directionIngress
  · have hout : item.key.direction ≠ directionEgress := hin ▸ by decide
    rw [if_pos hin] at hip hib
    rw [if_neg hout, Nat.zero_add] at hep heb
    rw [if_pos hin, addCounters_fits (by omega) (by omega)]
    exact ⟨_, rfl, hvalidRest, hdistinct, hfresh, by dsimp only; omega, by dsimp only; omega, hep, heb,
      by dsimp only; omega, hsides⟩
  · have hout : item.key.direction = directionEgress := (validateEvidence_direction hvalid).resolve_left hin
    rw [if_neg hin, Nat.zero_add] at hip hib
    rw [if_pos hout] at hep heb
    rw [if_neg hin, addCounters_fits (by omega) (by omega)]
    exact ⟨_, rfl, hvalidRest, hdistinct, hfresh, hip, hib, by dsimp only; omega, by dsimp only; omega,
      by dsimp only; omega, hsides⟩

theorem countU16_ok {n : Nat} (h : n ≤ fingerprintCapacity) : countU16 n = .ok n := by
  rw [countU16, if_pos (Nat.lt_of_le_of_lt h (by decide))]

/-- **When a report is built**: of valid entries with different keys, within the capacity,
whose sums fit. -/
theorem build_ok {ifindex generation : Nat} {evidence : List FingerprintEvidence} (hifindex : ifindex ≠ 0)
    (hgeneration : generation ≠ 0) (hvalid : ∀ e ∈ evidence, validateEvidence e ifindex generation = .ok ())
    (hdistinct : (evidence.map (·.key.exact)).Nodup) (hsized : Sized evidence) :
    ∃ report, FingerprintReport.build ifindex generation evidence = .ok report := by
  have hstart : Collecting ifindex generation evidence.length evidence ⟨⟨0, 0⟩, ⟨0, 0⟩, [], []⟩ := by
    refine ⟨hvalid, hdistinct, fun _ _ => List.not_mem_nil, ?_, ?_, ?_, ?_, ?_, fun _ hg => absurd hg List.not_mem_nil⟩
    · simpa using hsized.ingressPackets
    · simpa using hsized.ingressBytes
    · simpa using hsized.egressPackets
    · simpa using hsized.egressBytes
    · simp
  obtain ⟨c, hcollect, hc⟩ := foldlM_ok (Collecting ifindex generation evidence.length) (fun _ _ _ h => h.step) _ _ hstart
  have hrelations : c.groups.length ≤ fingerprintCapacity := hc.length.trans hsized.length
  obtain ⟨r, haccumulate, -⟩ := foldlM_ok
    (fun rest (r : FingerprintReport) => (∀ relation ∈ rest, relation.ingress.isSome ∨ relation.egress.isSome) ∧
      ∀ count ∈ r.counts, count + rest.length < 2 ^ 16)
    (fun relation rest r h => by
      obtain ⟨hside, hsides⟩ := List.forall_mem_cons.mp h.1
      obtain ⟨r', hr', hroom⟩ := accumulateRelation_ok hside h.2
      exact ⟨r', hr', hsides, hroom⟩)
    (c.groups.map (·.2))
    {FingerprintReport.empty with
      capturedEntryCount := evidence.length
      relationCount := c.groups.length
      ingress := c.ingress
      egress := c.egress} (by
      refine ⟨fun relation hrelation => ?_, ?_⟩
      · obtain ⟨g, hg, rfl⟩ := List.mem_map.mp hrelation
        exact hc.sides g hg
      · rw [fingerprintCapacity] at hrelations
        simp only [FingerprintReport.counts, FingerprintReport.empty, List.forall_mem_cons, List.length_map]
        refine ⟨?_, ?_, ?_, ?_, ?_, ?_, ?_, fun _ h => absurd h List.not_mem_nil⟩ <;> omega)
  unfold FingerprintReport.build
  rw [if_neg (by omega), if_neg (Nat.not_lt.mpr hsized.length), countU16_ok hsized.length]
  dsimp only [bind, Except.bind]
  rw [hcollect]
  dsimp only
  rw [countU16_ok hrelations]
  dsimp only
  rw [haccumulate]
  exact ⟨_, rfl⟩

/-- Such a scan is accepted as the endpoint of a window. -/
theorem validateScan_ok {identity : RateIdentity} {evidence : List FingerprintEvidence}
    (hvalid : ∀ e ∈ evidence, validateEvidence e identity.ifindex identity.generation = .ok ())
    (hdistinct : (evidence.map (·.key.exact)).Nodup) (hsized : Sized evidence) :
    validateScan identity evidence = .ok (sortEntries evidence) := by
  obtain ⟨report, hbuild⟩ := build_ok identity.ifindex_ne identity.generation_ne hvalid hdistinct hsized
  rw [validateScan, hbuild]
  exact if_pos hdistinct

/-- No entry of the previous scan went back or became another one. -/
def NonRegressing (previous current : List FingerprintEvidence) : Prop :=
  ∀ item ∈ current, (entryDelta previous item).isOk = true

instance (previous current : List FingerprintEvidence) : Decidable (NonRegressing previous current) :=
  inferInstanceAs (Decidable (∀ item ∈ current, _))

/-- What an entry gained is part of what it carries. -/
theorem entryDelta_le {previous : List FingerprintEvidence} {item : FingerprintEvidence} {delta : SideDelta}
    (h : entryDelta previous item = .ok delta) : delta.packets ≤ item.value.packets ∧ delta.bytes ≤ item.value.bytes := by
  unfold entryDelta at h
  split at h
  · split at h
    · cases h
    · split at h
      · cases h
      · cases h
        exact ⟨Nat.sub_le _ _, Nat.sub_le _ _⟩
  · cases h
    exact ⟨Nat.le_refl _, Nat.le_refl _⟩

/-- A sum over one side of the relations. -/
def gained (side : Relation SideDelta → Option SideDelta) (amount : SideDelta → Nat) (relations : List (Relation SideDelta)) :
    Nat :=
  (relations.map fun r => ((side r).map amount).getD 0).sum

/-- Setting a side adds no more than the side. -/
theorem gained_set_le (amount : SideDelta → Nat) (relations : Relations SideDelta) (key : RelationKey) (direction : Nat)
    (delta : SideDelta) :
    gained (·.ingress) amount ((relations.set key direction delta).map (·.2)) ≤
        gained (·.ingress) amount (relations.map (·.2)) + (if direction = directionIngress then amount delta else 0) ∧
      gained (·.egress) amount ((relations.set key direction delta).map (·.2)) ≤
        gained (·.egress) amount (relations.map (·.2)) + (if direction = directionIngress then 0 else amount delta) ∧
      (relations.set key direction delta).length ≤ relations.length + 1 := by
  induction relations with
  | nil => by_cases hd : direction = directionIngress <;> simp [Relations.set, gained, hd]
  | cons head rest ih =>
    obtain ⟨k, r⟩ := head
    obtain ⟨hin, hout, hlen⟩ := ih
    unfold Relations.set
    by_cases hk : k = key
    · rw [if_pos hk]
      by_cases hd : direction = directionIngress
      · simp only [hd, if_true, gained, List.map_cons, List.sum_cons, Option.map_some, Option.getD_some, List.length_cons]
        omega
      · simp only [hd, if_false, gained, List.map_cons, List.sum_cons, Option.map_some, Option.getD_some, List.length_cons]
        omega
    · rw [if_neg hk]
      simp only [gained, List.map_cons, List.sum_cons, List.length_cons] at hin hout ⊢
      omega

/-- What one turn of the first loop of `build_window` adds. -/
theorem collectDelta_cases {previous : List FingerprintEvidence} {relations relations' : Relations SideDelta}
    {item : FingerprintEvidence} (h : collectDelta previous relations item = .ok relations') :
    relations' = relations ∨ ∃ delta, entryDelta previous item = .ok delta ∧
      (item.key.direction = directionIngress ∨ item.key.direction = directionEgress) ∧
      relations' = relations.set item.key.relation item.key.direction delta := by
  unfold collectDelta at h
  cases hd : entryDelta previous item with
  | error e => rw [hd] at h; cases h
  | ok delta =>
    rw [hd] at h
    dsimp only [bind, Except.bind] at h
    split at h
    · cases h
      exact .inl rfl
    · split at h
      · cases h
        exact .inr ⟨delta, rfl, ‹_›, rfl⟩
      · cases h

/-- The relations gained no more than the entries carry. -/
theorem collectDelta_bounds {previous entries : List FingerprintEvidence} {start relations : Relations SideDelta}
    (amount : SideDelta → Nat) (amount' : FingerprintEvidence → Nat)
    (hle : ∀ item delta, entryDelta previous item = .ok delta → amount delta ≤ amount' item)
    (h : entries.foldlM (collectDelta previous) start = .ok relations) :
    gained (·.ingress) amount (relations.map (·.2)) ≤
        gained (·.ingress) amount (start.map (·.2)) + carried directionIngress amount' entries ∧
      gained (·.egress) amount (relations.map (·.2)) ≤
        gained (·.egress) amount (start.map (·.2)) + carried directionEgress amount' entries ∧
      relations.length ≤ start.length + entries.length := by
  refine foldlM_relates (fun entries start relations =>
    gained (·.ingress) amount (relations.map (·.2)) ≤
        gained (·.ingress) amount (start.map (·.2)) + carried directionIngress amount' entries ∧
      gained (·.egress) amount (relations.map (·.2)) ≤
        gained (·.egress) amount (start.map (·.2)) + carried directionEgress amount' entries ∧
      relations.length ≤ start.length + entries.length)
    (fun b => ⟨Nat.le_refl _, Nat.le_refl _, Nat.le_refl _⟩) ?_ h
  intro item rest b next b' hf hrest
  obtain ⟨hin, hout, hlen⟩ := hrest
  rw [carried_cons, carried_cons, List.length_cons]
  obtain rfl | ⟨delta, hdelta, hdir, rfl⟩ := collectDelta_cases hf
  · omega
  · obtain ⟨hsin, hsout, hslen⟩ := gained_set_le amount b item.key.relation item.key.direction delta
    have hdelta := hle item delta hdelta
    obtain hd | hd := hdir <;> rw [hd] at hsin hsout hslen hin hout hlen ⊢
    · have hne : directionIngress ≠ directionEgress := by decide
      rw [if_pos rfl] at hsin hsout
      rw [if_pos rfl, if_neg hne]
      omega
    · have hne : directionEgress ≠ directionIngress := by decide
      rw [if_neg hne] at hsin hsout
      rw [if_pos rfl, if_neg hne]
      omega

/-- The first loop comes to its end when no entry went back. -/
theorem collectDelta_ok {previous entries : List FingerprintEvidence} (hs : Sized entries)
    (hn : NonRegressing previous entries) : ∃ relations, entries.foldlM (collectDelta previous) [] = .ok relations := by
  have hstep : ∀ item rest relations, item :: rest ⊆ entries →
      ∃ relations', collectDelta previous relations item = .ok relations' ∧ rest ⊆ entries := by
    intro item rest relations hsub
    have hmem := hsub List.mem_cons_self
    have hrest := List.Subset.trans (List.subset_cons_self item rest) hsub
    unfold collectDelta
    cases hdelta : entryDelta previous item with
    | error e =>
      have := hn item hmem
      rw [hdelta] at this
      cases this
    | ok delta =>
      dsimp only [bind, Except.bind]
      split
      · exact ⟨_, rfl, hrest⟩
      · rw [if_pos (hs.directions item hmem)]
        exact ⟨_, rfl, hrest⟩
  obtain ⟨relations, hok, -⟩ := foldlM_ok (fun rest _ => rest ⊆ entries) hstep entries [] (List.Subset.refl _)
  exact ⟨relations, hok⟩

/-! ### The sums of the window -/

/-- The second loop, with the relations still to come: the sums it will reach, its counts
and its maxima. -/
structure Summing (all : List (Relation SideDelta)) (goal : WindowTotals) (n : Nat)
    (rest : List (Relation SideDelta)) (t : WindowTotals) : Prop where
  subset : rest ⊆ all
  ingressPackets : t.ingress.packets + gained (·.ingress) (·.packets) rest = goal.ingress.packets
  ingressBytes : t.ingress.bytes + gained (·.ingress) (·.bytes) rest = goal.ingress.bytes
  egressPackets : t.egress.packets + gained (·.egress) (·.packets) rest = goal.egress.packets
  egressBytes : t.egress.bytes + gained (·.egress) (·.bytes) rest = goal.egress.bytes
  repeated : t.repeatedRelationCount + rest.length ≤ n
  egressFirst : t.egressFirstCorrelatedRelationCount + rest.length ≤ n
  dominant : t.dominantIngressPackets ≤ t.ingress.packets
  ratio : t.maximumRatio.isSome → ∃ r ∈ all, r.ingress.isSome ∧ r.egress.isSome

theorem addSide?_ok (c : FingerprintCounters) (side : Option SideDelta) {packets bytes : Nat}
    (hp : c.packets + (side.map (·.packets)).getD 0 + packets < u64Bound)
    (hb : c.bytes + (side.map (·.bytes)).getD 0 + bytes < u64Bound) :
    addSide? c side = .ok ⟨c.packets + (side.map (·.packets)).getD 0, c.bytes + (side.map (·.bytes)).getD 0⟩ := by
  cases side with
  | none => rfl
  | some side =>
    simp only [Option.map_some, Option.getD_some] at hp hb
    have hp' : c.packets + side.packets < u64Bound := by omega
    have hb' : c.bytes + side.bytes < u64Bound := by omega
    simp [addSide?, addSide, checkedAdd, hp', hb']

/-- A count that is raised or not stays within the relations it counts. -/
theorem raise_if_ok {value rest n : Nat} (p : Bool) (h : value + (rest + 1) ≤ n) (hn : n < 2 ^ 16) :
    ∃ value', (if p = true then raise value else .ok value) = .ok value' ∧ value' + rest ≤ n := by
  cases p with
  | false => exact ⟨value, rfl, by omega⟩
  | true =>
    refine ⟨value + 1, ?_, by omega⟩
    rw [if_pos rfl, raise, if_pos (by omega)]

theorem gained_cons (side : Relation SideDelta → Option SideDelta) (amount : SideDelta → Nat) (r : Relation SideDelta)
    (rest : List (Relation SideDelta)) :
    gained side amount (r :: rest) = ((side r).map amount).getD 0 + gained side amount rest := by
  unfold gained
  rw [List.map_cons, List.sum_cons]

/-- The end of a turn of the second loop, on totals that already count the sides. -/
def correlate (t : WindowTotals) (r : Relation SideDelta) : Except FingerprintWindowError WindowTotals :=
  match r.ingress, r.egress with
  | some ingressSide, some egressSide =>
    (if egressSide.firstSeenNs < ingressSide.firstSeenNs then raise t.egressFirstCorrelatedRelationCount
      else .ok t.egressFirstCorrelatedRelationCount) >>= fun egressFirst =>
    .ok {t with
      egressFirstCorrelatedRelationCount := egressFirst
      maximumRatio := maximizeDirectionalRatio t.maximumRatio ingressSide.packets egressSide.packets}
  | _, _ => .ok t

theorem accumulateDelta_eq (t : WindowTotals) (r : Relation SideDelta) :
    accumulateDelta t r =
      (addSide? t.ingress r.ingress >>= fun ingress => addSide? t.egress r.egress >>= fun egress =>
        (if r.ingress.any (fun side => side.packets > 1) || r.egress.any (fun side => side.packets > 1) then
          raise t.repeatedRelationCount else .ok t.repeatedRelationCount) >>= fun repeated =>
        correlate {t with
          ingress := ingress
          egress := egress
          repeatedRelationCount := repeated
          dominantIngressPackets := max t.dominantIngressPackets ((r.ingress.map (·.packets)).getD 0)} r) := by
  unfold accumulateDelta correlate
  refine bind_congr fun ingress => bind_congr fun egress => ?_
  generalize (r.ingress.any (fun side => side.packets > 1) || r.egress.any (fun side => side.packets > 1)) = repeats
  cases r.ingress with
  | none => cases repeats <;> rfl
  | some ingressSide =>
    cases r.egress with
    | none => cases repeats <;> rfl
    | some egressSide =>
      dsimp only
      by_cases hfirst : egressSide.firstSeenNs < ingressSide.firstSeenNs
      · simp only [if_pos hfirst]
        cases repeats <;> rfl
      · simp only [if_neg hfirst]
        cases repeats <;> rfl

/-- One turn of the second loop succeeds while the sums fit. -/
theorem Summing.step {all rest : List (Relation SideDelta)} {goal t : WindowTotals} {n : Nat} {r : Relation SideDelta}
    (h : Summing all goal n (r :: rest) t) (hn : n < 2 ^ 16)
    (hfits : goal.ingress.packets < u64Bound ∧ goal.ingress.bytes < u64Bound ∧ goal.egress.packets < u64Bound ∧
      goal.egress.bytes < u64Bound) :
    ∃ t', accumulateDelta t r = .ok t' ∧ Summing all goal n rest t' := by
  obtain ⟨hip, hib, hep, heb⟩ := hfits
  have hmem : r ∈ all := h.subset List.mem_cons_self
  have hsub : rest ⊆ all := List.Subset.trans (List.subset_cons_self r rest) h.subset
  have hsum := h.ingressPackets
  have hsumb := h.ingressBytes
  have hsum' := h.egressPackets
  have hsumb' := h.egressBytes
  rw [gained_cons, ← Nat.add_assoc] at hsum hsumb hsum' hsumb'
  have hin := addSide?_ok t.ingress r.ingress (by rw [hsum]; exact hip) (by rw [hsumb]; exact hib)
  have hout := addSide?_ok t.egress r.egress (by rw [hsum']; exact hep) (by rw [hsumb']; exact heb)
  obtain ⟨repeated, hrepeated, hrn⟩ := raise_if_ok
    (r.ingress.any (fun side => side.packets > 1) || r.egress.any (fun side => side.packets > 1)) h.repeated hn
  have hdominant : max t.dominantIngressPackets ((r.ingress.map (·.packets)).getD 0) ≤
      t.ingress.packets + (r.ingress.map (·.packets)).getD 0 := by
    have := h.dominant
    omega
  rw [accumulateDelta_eq, hin, hout]
  dsimp only [bind, Except.bind]
  rw [hrepeated]
  dsimp only
  have hstay : t.egressFirstCorrelatedRelationCount + rest.length ≤ n := by
    have := h.egressFirst
    rw [List.length_cons] at this
    omega
  unfold correlate
  cases hri : r.ingress with
  | none =>
    rw [hri] at hsum hsumb hdominant
    exact ⟨_, rfl, ⟨hsub, hsum, hsumb, hsum', hsumb', hrn, hstay, hdominant, h.ratio⟩⟩
  | some ingressSide =>
    rw [hri] at hsum hsumb hdominant
    cases hre : r.egress with
    | none =>
      rw [hre] at hsum' hsumb'
      exact ⟨_, rfl, ⟨hsub, hsum, hsumb, hsum', hsumb', hrn, hstay, hdominant, h.ratio⟩⟩
    | some egressSide =>
      rw [hre] at hsum' hsumb'
      obtain ⟨first, hfirst, hfn⟩ := raise_if_ok (decide (egressSide.firstSeenNs < ingressSide.firstSeenNs)) h.egressFirst hn
      simp only [decide_eq_true_eq] at hfirst
      dsimp only
      rw [hfirst]
      exact ⟨_, rfl, ⟨hsub, hsum, hsumb, hsum', hsumb', hrn, hfn, hdominant,
        fun _ => ⟨r, hmem, by rw [hri]; rfl, by rw [hre]; rfl⟩⟩⟩

/-- A relation gained on both sides, and no relation gained an egress packet. -/
def lopsided (previous current : List FingerprintEvidence) : Bool :=
  match current.foldlM (collectDelta previous) [] with
  | .ok relations =>
    (relations.map (·.2)).any (fun r => r.ingress.isSome && r.egress.isSome) &&
      gained (·.egress) (·.packets) (relations.map (·.2)) == 0
  | .error _ => false

/-- A property of sides, of every side of the relations. -/
def Relations.AllSides {σ : Type} (p : σ → Prop) (relations : Relations σ) : Prop :=
  ∀ g ∈ relations, (∀ side, g.2.ingress = some side → p side) ∧ ∀ side, g.2.egress = some side → p side

theorem Relations.AllSides.set {σ : Type} {p : σ → Prop} {relations : Relations σ} (h : relations.AllSides p)
    {key : RelationKey} {direction : Nat} {side : σ} (hside : p side) :
    (relations.set key direction side).AllSides p := by
  induction relations with
  | nil =>
    intro g hg
    rw [Relations.set, List.mem_singleton] at hg
    subst hg
    by_cases hd : direction = directionIngress <;> simp [hd, hside]
  | cons head rest ih =>
    obtain ⟨hhead, hrest⟩ := List.forall_mem_cons.mp h
    unfold Relations.set
    split
    · refine List.forall_mem_cons.mpr ⟨?_, hrest⟩
      by_cases hd : direction = directionIngress
      · simpa [hd, hside] using hhead.2
      · simpa [hd, hside] using hhead.1
    · exact List.forall_mem_cons.mpr ⟨hhead, ih hrest⟩

/-- Where no entry gained bytes without packets, a window is not lopsided. -/
theorem not_lopsided {previous current : List FingerprintEvidence}
    (h : ∀ item ∈ current, ∀ delta, entryDelta previous item = .ok delta → delta.packets = 0 → delta.bytes = 0) :
    lopsided previous current = false := by
  unfold lopsided
  split
  · rename_i relations hfold
    have hpositive : relations.AllSides fun side => 1 ≤ side.packets := by
      refine foldlM_relates
        (fun rest (b b' : Relations SideDelta) => rest ⊆ current → b.AllSides (fun side => 1 ≤ side.packets) →
          b'.AllSides fun side => 1 ≤ side.packets)
        (fun b _ hb => hb) (fun item rest b next b' hstep hrest hsub hb => ?_) hfold (List.Subset.refl _)
        (fun g hg => absurd hg List.not_mem_nil)
      refine hrest (List.Subset.trans (List.subset_cons_self item rest) hsub) ?_
      unfold collectDelta at hstep
      cases hdelta : entryDelta previous item with
      | error e => rw [hdelta] at hstep; cases hstep
      | ok delta =>
        rw [hdelta] at hstep
        dsimp only [bind, Except.bind] at hstep
        split at hstep
        · cases hstep
          exact hb
        · rename_i hgained
          split at hstep
          · cases hstep
            refine hb.set ?_
            by_contra hzero
            have hpackets : delta.packets = 0 := by omega
            exact hgained ⟨hpackets, h item (hsub List.mem_cons_self) delta hdelta hpackets⟩
          · cases hstep
    rw [Bool.and_eq_false_iff]
    by_contra hno
    push Not at hno
    obtain ⟨hany, hsum⟩ := hno
    obtain ⟨r, hr, hboth⟩ := List.any_eq_true.mp (Bool.eq_true_of_not_eq_false hany)
    obtain ⟨-, hout⟩ := Bool.and_eq_true_iff.mp hboth
    obtain ⟨g, hg, rfl⟩ := List.mem_map.mp hr
    obtain ⟨side, hside⟩ := Option.isSome_iff_exists.mp hout
    have hone := (hpositive g hg).2 side hside
    have hle : side.packets ≤ gained (·.egress) (·.packets) (relations.map (·.2)) := by
      unfold gained
      refine List.single_le_sum (fun _ _ => Nat.zero_le _) _ (List.mem_map.mpr ⟨g.2, hr, ?_⟩)
      show (g.2.egress.map (·.packets)).getD 0 = side.packets
      rw [hside]
      rfl
    have hzero := beq_iff_eq.mp (Bool.eq_true_of_not_eq_false hsum)
    omega
  · rfl

/-- The report of such sums passes its own check. -/
theorem windowReport_valid {previous current : FingerprintEndpoint} {coverageMs n : Nat} {t : WindowTotals}
    (hclock : previous.capturedAtUnixMs ≤ current.capturedAtUnixMs)
    (hlow : detectionFingerprintWindowMs ≤ coverageMs) (hhigh : coverageMs ≤ detectionFingerprintFreshnessMs)
    (hlength : current.entries.length ≤ fingerprintCapacity) (hr : t.repeatedRelationCount ≤ n)
    (he : t.egressFirstCorrelatedRelationCount ≤ n) (hd : t.dominantIngressPackets ≤ t.ingress.packets)
    (hratio : t.maximumRatio.isSome → t.egress.packets ≠ 0) :
    (windowReport previous current coverageMs n t).validate = .ok () := by
  have hdominant : (dominantRatioMilli t.dominantIngressPackets t.ingress.packets).any (· > 1000) = false := by
    unfold dominantRatioMilli
    split
    · rfl
    · have hle : t.dominantIngressPackets * 1000 / t.ingress.packets ≤ 1000 :=
        Nat.div_le_of_le_mul (Nat.mul_le_mul_right 1000 hd)
      simp only [Option.any_some, decide_eq_false_iff_not, Nat.not_lt]
      exact Nat.le_trans (Nat.min_le_left _ _) hle
  have hnone : (t.ingress.packets == 0 && (dominantRatioMilli t.dominantIngressPackets t.ingress.packets).isSome) = false := by
    unfold dominantRatioMilli
    by_cases hz : t.ingress.packets = 0 <;> simp [hz]
  have hegress : (t.egress.packets == 0 && t.maximumRatio.isSome) = false := by
    cases hm : t.maximumRatio with
    | none => simp
    | some ratio => simpa using hratio (by rw [hm]; rfl)
  unfold FingerprintWindowReport.validate windowReport
  dsimp only
  rw [hdominant, hnone, hegress]
  simp [FingerprintWindowReport.optionGt, Nat.not_lt.mpr hclock, Nat.not_lt.mpr hlength, Nat.not_lt.mpr hr,
    Nat.not_lt.mpr he, hlow, hhigh]

/-- The sums that the relations of a scan reach. -/
def sums (relations : List (Relation SideDelta)) : WindowTotals :=
  {WindowTotals.zero with
    ingress := ⟨gained (·.ingress) (·.packets) relations, gained (·.ingress) (·.bytes) relations⟩
    egress := ⟨gained (·.egress) (·.packets) relations, gained (·.egress) (·.bytes) relations⟩}

theorem buildWindow_ok (previous current : FingerprintEndpoint) {coverageMs : Nat} (hs : Sized current.entries)
    (hn : NonRegressing previous.entries current.entries) (hl : lopsided previous.entries current.entries = false)
    (hclock : previous.capturedAtUnixMs ≤ current.capturedAtUnixMs)
    (hlow : detectionFingerprintWindowMs ≤ coverageMs) (hhigh : coverageMs ≤ detectionFingerprintFreshnessMs) :
    ∃ n t, buildWindow previous current coverageMs = .ok (windowReport previous current coverageMs n t) := by
  obtain ⟨relations, hcollect⟩ := collectDelta_ok hs hn
  obtain ⟨hip, hep, hlength⟩ :=
    collectDelta_bounds (·.packets) (·.value.packets) (fun item delta h => (entryDelta_le h).1) hcollect
  obtain ⟨hib, heb, -⟩ :=
    collectDelta_bounds (·.bytes) (·.value.bytes) (fun item delta h => (entryDelta_le h).2) hcollect
  have hempty : ∀ side amount, gained side amount ([] : List (Relation SideDelta)) = 0 := fun _ _ => rfl
  simp only [List.map_nil, hempty, Nat.zero_add, List.length_nil] at hip hep hib heb hlength
  have hcapacity : relations.length < 2 ^ 16 :=
    Nat.lt_of_le_of_lt (Nat.le_trans hlength hs.length) (by decide)
  have hstart : Summing (relations.map (·.2)) (sums (relations.map (·.2))) relations.length (relations.map (·.2)) .zero := by
    refine ⟨List.Subset.refl _, ?_, ?_, ?_, ?_, ?_, ?_, Nat.le_refl _, nofun⟩
    all_goals simp [sums, WindowTotals.zero]
  obtain ⟨t, haccumulate, ht⟩ := foldlM_ok (Summing _ _ relations.length)
    (fun r rest t h => h.step hcapacity ⟨Nat.lt_of_le_of_lt hip hs.ingressPackets, Nat.lt_of_le_of_lt hib hs.ingressBytes,
      Nat.lt_of_le_of_lt hep hs.egressPackets, Nat.lt_of_le_of_lt heb hs.egressBytes⟩) _ _ hstart
  have hratio : t.maximumRatio.isSome → t.egress.packets ≠ 0 := by
    intro hsome hzero
    obtain ⟨r, hr, hin, hout⟩ := ht.ratio hsome
    have hsum := ht.egressPackets
    rw [hempty, Nat.add_zero, hzero] at hsum
    have htrue : lopsided previous.entries current.entries = true := by
      unfold lopsided
      rw [hcollect]
      refine Bool.and_eq_true_iff.mpr ⟨List.any_eq_true.mpr ⟨r, hr, by rw [hin, hout]; rfl⟩, beq_iff_eq.mpr hsum.symm⟩
    rw [hl] at htrue
    cases htrue
  have hvalid := windowReport_valid (n := relations.length) hclock hlow hhigh hs.length ht.repeated ht.egressFirst
    ht.dominant hratio
  have hsmall : ¬(relations.length ≥ 2 ^ 16 ∨ current.entries.length ≥ 2 ^ 16) := by
    intro h
    obtain h | h := h
    · omega
    · have := hs.length
      rw [fingerprintCapacity] at this
      omega
  refine ⟨relations.length, t, ?_⟩
  unfold buildWindow
  rw [hcollect]
  dsimp only [bind, Except.bind]
  rw [haccumulate]
  dsimp only
  rw [if_neg hsmall, hvalid]

/-- A window fails when its only failing entries fail alike. -/
theorem buildWindow_fails {before after : FingerprintEndpoint} {e : FingerprintWindowError} (coverageMs : Nat)
    (hstep : ∀ item ∈ after.entries, item.key.direction = directionIngress ∧
      ((∃ delta, entryDelta before.entries item = .ok delta) ∨ entryDelta before.entries item = .error e))
    (hbad : ∃ item ∈ after.entries, entryDelta before.entries item = .error e) :
    buildWindow before after coverageMs = .error e := by
  have hfails : ∀ item relations, entryDelta before.entries item = .error e →
      collectDelta before.entries relations item = .error e := by
    intro item relations h
    rw [collectDelta, h]
    rfl
  have hcollect : after.entries.foldlM (collectDelta before.entries) [] = .error e := by
    refine foldlM_fails (fun item hitem relations => ?_) ?_ []
    · obtain ⟨hdirection, ⟨delta, hok⟩ | herror⟩ := hstep item hitem
      · rw [collectDelta, hok]
        dsimp only [bind, Except.bind]
        split
        · exact .inl ⟨_, rfl⟩
        · rw [if_pos (.inl hdirection)]
          exact .inl ⟨_, rfl⟩
      · exact .inr (hfails item relations herror)
    · obtain ⟨item, hitem, herror⟩ := hbad
      exact ⟨item, hitem, fun relations => hfails item relations herror⟩
  unfold buildWindow
  rw [hcollect]
  rfl

/-! ### Scans of a window history -/

namespace FingerprintWindowHistory
variable {w : FingerprintWindowHistory} {previous : FingerprintEndpoint} {nowNs nowMs : Nat}
  {evidence entries : List FingerprintEvidence}

/-- The first scan of a window history becomes its endpoint. -/
theorem recordScan_first (he : w.endpoint = none) (hv : validateScan w.identity evidence = .ok entries) :
    w.recordScan nowNs nowMs evidence =
      (.ok (), {w with endpoint := some ⟨nowNs, nowMs, entries⟩, report := .warming}) := by
  unfold recordScan
  rw [hv, he]

/-- A later scan makes a ready window when it comes 10 to 15 seconds after the endpoint. -/
theorem recordScan_ready (he : w.endpoint = some previous) (hv : validateScan w.identity evidence = .ok entries)
    (hn : NonRegressing previous.entries entries) (hl : lopsided previous.entries entries = false)
    (hclock : previous.capturedAtUnixMs ≤ nowMs) (hlow : previous.capturedAtMonotonicNs + 10000000000 ≤ nowNs)
    (hhigh : nowNs ≤ previous.capturedAtMonotonicNs + 15000000000) :
    ∃ report, w.recordScan nowNs nowMs evidence =
        (.ok (), {w with endpoint := some ⟨nowNs, nowMs, entries⟩, report := report}) ∧
      report.state = .ready ∧ 10000 ≤ report.coverageMs ∧ report.coverageMs ≤ 15000 := by
  have hpast : ¬(nowNs ≤ previous.capturedAtMonotonicNs ∨ nowMs < previous.capturedAtUnixMs) := by omega
  have hcoverage : detectionFingerprintWindowMs ≤ (nowNs - previous.capturedAtMonotonicNs) / 1000000 ∧
      (nowNs - previous.capturedAtMonotonicNs) / 1000000 ≤ detectionFingerprintFreshnessMs := by
    rw [detectionFingerprintWindowMs, detectionFingerprintFreshnessMs]
    omega
  obtain ⟨n, t, hbuild⟩ := buildWindow_ok previous ⟨nowNs, nowMs, entries⟩ (validateScan_sized hv).2 hn hl hclock
    hcoverage.1 hcoverage.2
  refine ⟨windowReport previous ⟨nowNs, nowMs, entries⟩ _ n t, ?_, rfl, hcoverage⟩
  unfold recordScan
  rw [hv, he]
  dsimp only
  rw [if_neg hpast, if_neg (Nat.not_lt.mpr hcoverage.1), if_neg (Nat.not_lt.mpr hcoverage.2), hbuild]

/-- A later scan in time fails when its window does. -/
theorem recordScan_fails {w : FingerprintWindowHistory} {previous : FingerprintEndpoint}
    {nowNs nowMs : Nat} {evidence entries : List FingerprintEvidence} {e : FingerprintWindowError}
    (he : w.endpoint = some previous) (hv : validateScan w.identity evidence = .ok entries)
    (hclock : previous.capturedAtUnixMs ≤ nowMs) (hlow : previous.capturedAtMonotonicNs + 10000000000 ≤ nowNs)
    (hhigh : nowNs ≤ previous.capturedAtMonotonicNs + 15000000000)
    (hbuild : ∀ coverageMs, buildWindow previous ⟨nowNs, nowMs, entries⟩ coverageMs = .error e) :
    (w.recordScan nowNs nowMs evidence).1 = .error e := by
  have hpast : ¬(nowNs ≤ previous.capturedAtMonotonicNs ∨ nowMs < previous.capturedAtUnixMs) := by omega
  have hcoverage : detectionFingerprintWindowMs ≤ (nowNs - previous.capturedAtMonotonicNs) / 1000000 ∧
      (nowNs - previous.capturedAtMonotonicNs) / 1000000 ≤ detectionFingerprintFreshnessMs := by
    rw [detectionFingerprintWindowMs, detectionFingerprintFreshnessMs]
    omega
  unfold recordScan
  rw [hv, he]
  dsimp only
  rw [if_neg hpast, if_neg (Nat.not_lt.mpr hcoverage.1), if_neg (Nat.not_lt.mpr hcoverage.2), hbuild]
  rfl

end FingerprintWindowHistory

end NetworkLoop.Observation
