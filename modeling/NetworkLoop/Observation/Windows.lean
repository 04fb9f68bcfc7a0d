import NetworkLoop.Observation.Relations

/-! The window between two scans in closed form.

What the entries of a scan gained since the previous one decides its window: the relations
of `build_window` are those of the entries that gained something, and its totals are counts
and sums over them (`buildWindow_eq_ok`). From there `fresh_window` compares the window after
an empty scan with the report of the scan itself, and `counted_by_packets_iff` says when a
window counts packets only. -/
namespace NetworkLoop.Observation
open Library Detection

/-! ### What the entries gained -/

section
variable {previous entries : List FingerprintEvidence} {item : FingerprintEvidence}

/-- What an entry gained since the previous scan; nothing, where it went back. -/
def gainOf (previous : List FingerprintEvidence) (item : FingerprintEvidence) : SideDelta :=
  match entryDelta previous item with
  | .ok delta => delta
  | .error _ => ⟨item.value.firstSeenNs, 0, 0⟩

/-- The entries that gained packets or bytes. -/
def movers (previous entries : List FingerprintEvidence) : List FingerprintEvidence :=
  entries.filter fun item => ¬((gainOf previous item).packets = 0 ∧ (gainOf previous item).bytes = 0)

theorem gainOf_ok {delta : SideDelta} (h : entryDelta previous item = .ok delta) : gainOf previous item = delta := by
  rw [gainOf, h]

theorem gainOf_firstSeen (previous : List FingerprintEvidence) (item : FingerprintEvidence) :
    (gainOf previous item).firstSeenNs = item.value.firstSeenNs := by
  unfold gainOf
  cases h : entryDelta previous item with
  | error e => rfl
  | ok delta =>
    unfold entryDelta at h
    split at h
    · split at h
      · cases h
      · split at h
        · cases h
        · cases h
          rfl
    · cases h
      rfl

/-- One turn of the first loop, past the delta of its entry. -/
theorem collectDelta_eq (relations : Relations SideDelta) (hok : (entryDelta previous item).isOk)
    (hdirection : item.key.direction = directionIngress ∨ item.key.direction = directionEgress) :
    collectDelta previous relations item =
      .ok (if (gainOf previous item).packets = 0 ∧ (gainOf previous item).bytes = 0 then relations
        else relations.set item.key.relation item.key.direction (gainOf previous item)) := by
  unfold collectDelta gainOf
  cases h : entryDelta previous item with
  | error e =>
    rw [h] at hok
    cases hok
  | ok delta =>
    show (if delta.packets = 0 ∧ delta.bytes = 0 then _ else _) = _
    rw [if_pos hdirection]
    split <;> rfl

theorem foldlM_collectDelta (relations : Relations SideDelta) (hn : NonRegressing previous entries)
    (hdirections : ∀ e ∈ entries, e.key.direction = directionIngress ∨ e.key.direction = directionEgress) :
    entries.foldlM (collectDelta previous) relations = .ok ((movers previous entries).foldl
      (fun relations e => relations.set e.key.relation e.key.direction (gainOf previous e)) relations) := by
  induction entries generalizing relations with
  | nil => rfl
  | cons item rest ih =>
    obtain ⟨hitem, hrest⟩ := List.forall_mem_cons.mp hn
    obtain ⟨hdirection, hdirectionsRest⟩ := List.forall_mem_cons.mp hdirections
    rw [List.foldlM_cons, collectDelta_eq relations hitem hdirection]
    refine (ih _ hrest hdirectionsRest).trans (congrArg Except.ok ?_)
    by_cases hgained : (gainOf previous item).packets = 0 ∧ (gainOf previous item).bytes = 0
    · rw [if_pos hgained, movers, movers, List.filter_cons_of_neg (by simpa using hgained)]
    · rw [if_neg hgained, movers, movers, List.filter_cons_of_pos (by rw [decide_eq_true_iff]; exact hgained)]
      rfl

/-- The first loop comes to its end only if no entry went back. -/
theorem nonRegressing_of_collectDelta {relations relations' : Relations SideDelta}
    (h : entries.foldlM (collectDelta previous) relations = .ok relations') : NonRegressing previous entries := by
  refine foldlM_relates (fun entries _ _ => NonRegressing previous entries) (fun _ _ he => absurd he List.not_mem_nil) ?_ h
  intro item rest b next b' hstep hrest
  refine List.forall_mem_cons.mpr ⟨?_, hrest⟩
  unfold collectDelta at hstep
  cases hdelta : entryDelta previous item with
  | error e =>
    rw [hdelta] at hstep
    cases hstep
  | ok delta => rfl

/-- The relations that gained something. -/
def gainedRelations (previous entries : List FingerprintEvidence) : Relations SideDelta :=
  relationsOf (gainOf previous) (movers previous entries)

theorem collected_relations (hn : NonRegressing previous entries)
    (hdirections : ∀ e ∈ entries, e.key.direction = directionIngress ∨ e.key.direction = directionEgress) :
    entries.foldlM (collectDelta previous) [] = .ok (gainedRelations previous entries) := by
  rw [foldlM_collectDelta [] hn hdirections, foldl_set]
  rfl

theorem Distinct.movers (h : Distinct entries) (previous : List FingerprintEvidence) :
    Distinct (movers previous entries) where
  directions := fun e he => h.directions e (List.mem_filter.mp he).1
  nodup := h.nodup.sublist (List.filter_sublist.map _)

end

/-! ### The totals of a window -/

/-- What the second loop makes of its totals. -/
def WindowTotals.counted (t : WindowTotals) (relations : List (Relation SideDelta)) : WindowTotals where
  ingress := ⟨t.ingress.packets + gained (·.ingress) (·.packets) relations, t.ingress.bytes + gained (·.ingress) (·.bytes) relations⟩
  egress := ⟨t.egress.packets + gained (·.egress) (·.packets) relations, t.egress.bytes + gained (·.egress) (·.bytes) relations⟩
  repeatedRelationCount := t.repeatedRelationCount + relations.countP (Relation.repeats (·.packets))
  egressFirstCorrelatedRelationCount := t.egressFirstCorrelatedRelationCount +
    relations.countP (Relation.compares fun ingress egress => egress.firstSeenNs < ingress.firstSeenNs)
  maximumRatio := relations.foldl (Relation.maximize fun maximum ingress egress =>
    maximizeDirectionalRatio maximum ingress.packets egress.packets) t.maximumRatio
  dominantIngressPackets := relations.foldl
    (fun dominant r => max dominant ((r.ingress.map (·.packets)).getD 0)) t.dominantIngressPackets

theorem gained_nil (side : Relation SideDelta → Option SideDelta) (amount : SideDelta → Nat) : gained side amount [] = 0 := rfl

theorem addSide?_eq {c c' : FingerprintCounters} {side : Option SideDelta} (h : addSide? c side = .ok c') :
    c' = ⟨c.packets + (side.map (·.packets)).getD 0, c.bytes + (side.map (·.bytes)).getD 0⟩ := by
  cases side with
  | none =>
    cases h
    rfl
  | some side =>
    unfold addSide? addSide checkedAdd at h
    dsimp only at h
    split at h
    · rename_i packets bytes hpackets hbytes
      cases h
      split at hpackets <;> cases hpackets
      split at hbytes <;> cases hbytes
      rfl
    · cases h

theorem raise_if_eq {value value' : Nat} {p : Prop} [Decidable p] (h : (if p then raise value else .ok value) = .ok value') :
    value' = value + if p then 1 else 0 := by
  by_cases hp : p
  · rw [if_pos hp, raise] at h
    rw [if_pos hp]
    split at h
    · cases h
      rfl
    · cases h
  · rw [if_neg hp] at h
    rw [if_neg hp]
    cases h
    rfl

theorem correlate_eq {t t' : WindowTotals} {r : Relation SideDelta} (h : correlate t r = .ok t') :
    t' = {t with
      egressFirstCorrelatedRelationCount := t.egressFirstCorrelatedRelationCount +
        [r].countP (Relation.compares fun ingress egress => egress.firstSeenNs < ingress.firstSeenNs)
      maximumRatio := Relation.maximize (fun maximum ingress egress =>
        maximizeDirectionalRatio maximum ingress.packets egress.packets) t.maximumRatio r} := by
  obtain ⟨ingress, egress⟩ := r
  unfold correlate at h
  cases ingress with
  | none =>
    cases h
    rfl
  | some ingress =>
    cases egress with
    | none =>
      cases h
      rfl
    | some egress =>
      obtain ⟨first, hfirst, h⟩ := bind_eq_ok.mp h
      cases h
      rw [raise_if_eq hfirst]
      simp [Relation.compares, Relation.maximize, List.countP_singleton]

theorem accumulateDelta_counted {t t' : WindowTotals} {r : Relation SideDelta} (h : accumulateDelta t r = .ok t') :
    t' = t.counted [r] := by
  rw [accumulateDelta_eq] at h
  obtain ⟨ingress, hingress, h⟩ := bind_eq_ok.mp h
  obtain ⟨egress, hegress, h⟩ := bind_eq_ok.mp h
  obtain ⟨repeated, hrepeated, h⟩ := bind_eq_ok.mp h
  rw [correlate_eq h, addSide?_eq hingress, addSide?_eq hegress, raise_if_eq hrepeated]
  simp only [WindowTotals.counted, gained_cons, gained_nil, List.countP_singleton, List.foldl_cons, List.foldl_nil, Nat.add_zero]
  rfl

theorem WindowTotals.counted_cons (t : WindowTotals) (r : Relation SideDelta) (rest : List (Relation SideDelta)) :
    t.counted (r :: rest) = (t.counted [r]).counted rest := by
  simp only [WindowTotals.counted, gained_cons, gained_nil, List.countP_cons, List.countP_nil, List.foldl_cons, List.foldl_nil,
    WindowTotals.mk.injEq, FingerprintCounters.mk.injEq, and_true]
  omega

/-- **The second loop counts its relations.** -/
theorem foldlM_accumulateDelta {t t' : WindowTotals} {relations : List (Relation SideDelta)}
    (h : relations.foldlM accumulateDelta t = .ok t') : t' = t.counted relations := by
  refine foldlM_relates (fun relations t t' => t' = t.counted relations) ?_ ?_ h
  · intro t
    simp [WindowTotals.counted, gained_nil]
  · intro r rest t next t' hstep hrest
    rw [hrest, accumulateDelta_counted hstep, ← WindowTotals.counted_cons]

/-- The totals of a window. -/
def totalsOf (previous entries : List FingerprintEvidence) : WindowTotals :=
  WindowTotals.zero.counted ((gainedRelations previous entries).map (·.2))

/-- **What a window says**, if there is one. -/
theorem buildWindow_eq {previous current : FingerprintEndpoint} {coverageMs : Nat} {report : FingerprintWindowReport}
    (hdirections : ∀ e ∈ current.entries, e.key.direction = directionIngress ∨ e.key.direction = directionEgress)
    (h : buildWindow previous current coverageMs = .ok report) :
    NonRegressing previous.entries current.entries ∧
      report = windowReport previous current coverageMs (gainedRelations previous.entries current.entries).length
        (totalsOf previous.entries current.entries) := by
  unfold buildWindow at h
  obtain ⟨relations, hrelations, h⟩ := bind_eq_ok.mp h
  obtain ⟨totals, htotals, h⟩ := bind_eq_ok.mp h
  have hn := nonRegressing_of_collectDelta hrelations
  rw [collected_relations hn hdirections] at hrelations
  cases hrelations
  rw [foldlM_accumulateDelta htotals] at h
  split at h
  · cases h
  · dsimp only at h
    split at h
    · cases h
    · cases h
      exact ⟨hn, rfl⟩

/-! ### Sums over the entries -/

/-- What the relations gained is what their entries gained. -/
theorem gained_relationsOf (side : FingerprintEvidence → SideDelta) (amount : SideDelta → Nat) {evidence : List FingerprintEvidence}
    (h : Distinct evidence) :
    gained (·.ingress) amount ((relationsOf side evidence).map (·.2)) = carried directionIngress (amount ∘ side) evidence ∧
      gained (·.egress) amount ((relationsOf side evidence).map (·.2)) = carried directionEgress (amount ∘ side) evidence := by
  rw [gained, gained, relationsOf_eq side h, ← sum_entryIn h, ← sum_entryIn h]
  simp only [List.map_map, Function.comp_def, Option.map_map, and_self]

def Relation.map {σ τ : Type} (f : σ → τ) (r : Relation σ) : Relation τ := ⟨r.ingress.map f, r.egress.map f⟩

theorem relationsOf_map {σ τ : Type} (f : σ → τ) (side : FingerprintEvidence → σ) {evidence : List FingerprintEvidence}
    (h : Distinct evidence) :
    (relationsOf (f ∘ side) evidence).map (·.2) = ((relationsOf side evidence).map (·.2)).map (Relation.map f) := by
  rw [relationsOf_eq side h, relationsOf_eq (f ∘ side) h, List.map_map, List.map_map, List.map_map]
  simp only [Function.comp_def, Relation.map, Option.map_map]

/-! ### The first window of a fresh map -/

section
variable {evidence : List FingerprintEvidence}

/-- All of a side, as a gain. -/
def Side.whole (side : Side) : SideDelta := ⟨side.firstSeenNs, side.counters.packets, side.counters.bytes⟩

theorem gainOf_nil : gainOf [] = Side.whole ∘ sideOf := rfl

theorem movers_nil (h : ∀ e ∈ evidence, e.value.packets ≠ 0) : movers [] evidence = evidence := by
  refine List.filter_eq_self.mpr fun e he => decide_eq_true ?_
  rintro ⟨hpackets, -⟩
  exact h e he hpackets

theorem nonRegressing_nil (evidence : List FingerprintEvidence) : NonRegressing [] evidence := fun _ _ => rfl

theorem repeats_whole : Relation.repeats (·.packets) ∘ Relation.map Side.whole = Relation.repeats (·.counters.packets) := by
  funext r
  simp only [Function.comp_def, Relation.repeats, Relation.map, Option.any_map]
  rfl

theorem compares_whole : (Relation.compares fun ingress egress => decide (egress.firstSeenNs < ingress.firstSeenNs)) ∘
    Relation.map Side.whole = Relation.compares fun ingress egress => decide (egress.firstSeenNs < ingress.firstSeenNs) := by
  funext r
  simp only [Function.comp_def, Relation.compares, Relation.map, Option.any_map]
  rfl

/-- **After an empty scan the totals of a window are those of a report.** -/
theorem totalsOf_nil (h : Distinct evidence) (hpackets : ∀ e ∈ evidence, e.value.packets ≠ 0) :
    (gainedRelations [] evidence).length = (reportOf evidence).relationCount ∧
      (totalsOf [] evidence).repeatedRelationCount = (reportOf evidence).repeatedRelationCount ∧
      (totalsOf [] evidence).egressFirstCorrelatedRelationCount = (reportOf evidence).egressFirstRelationCount ∧
      (totalsOf [] evidence).ingress = (reportOf evidence).ingress ∧ (totalsOf [] evidence).egress = (reportOf evidence).egress := by
  have hrelations := relationsOf_map Side.whole sideOf h
  have hlength := congrArg List.length hrelations
  rw [List.length_map, List.length_map, List.length_map] at hlength
  obtain ⟨hip, hep⟩ := gained_relationsOf (Side.whole ∘ sideOf) (·.packets) h
  obtain ⟨hib, heb⟩ := gained_relationsOf (Side.whole ∘ sideOf) (·.bytes) h
  rw [totalsOf, gainedRelations, movers_nil hpackets, gainOf_nil]
  simp only [WindowTotals.counted, hip, hep, hib, heb, WindowTotals.zero, Nat.zero_add]
  have hcount : ∀ {p : Relation SideDelta → Bool} {q : Relation Side → Bool}, p ∘ Relation.map Side.whole = q →
      (((relationsOf sideOf evidence).map (·.2)).map (Relation.map Side.whole)).countP p =
        ((relationsOf sideOf evidence).map (·.2)).countP q := fun hpq => by rw [List.countP_map, hpq]
  rw [hrelations, hcount repeats_whole, hcount compares_whole]
  simp only [reportOf, FingerprintReport.counted, FingerprintReport.empty, Nat.zero_add, true_and]
  exact ⟨hlength, rfl, rfl⟩

end

/-! ### Windows of a history -/

section
variable {w : FingerprintWindowHistory} {previous : FingerprintEndpoint} {nowNs nowMs : Nat}
  {evidence entries : List FingerprintEvidence}

/-- A scan that comes in time makes the window of its entries. -/
theorem recordScan_window (he : w.endpoint = some previous) (hv : validateScan w.identity evidence = .ok entries)
    (hn : NonRegressing previous.entries entries) (hl : lopsided previous.entries entries = false)
    (hclock : previous.capturedAtUnixMs ≤ nowMs)
    (hlow : detectionFingerprintWindowMs ≤ (nowNs - previous.capturedAtMonotonicNs) / 1000000)
    (hhigh : (nowNs - previous.capturedAtMonotonicNs) / 1000000 ≤ detectionFingerprintFreshnessMs) :
    w.recordScan nowNs nowMs evidence = (.ok (), {w with
      endpoint := some ⟨nowNs, nowMs, entries⟩
      report := windowReport previous ⟨nowNs, nowMs, entries⟩ ((nowNs - previous.capturedAtMonotonicNs) / 1000000)
        (gainedRelations previous.entries entries).length (totalsOf previous.entries entries)}) := by
  have hsized := (validateScan_sized hv).2
  obtain ⟨n, t, hbuild⟩ := buildWindow_ok previous ⟨nowNs, nowMs, entries⟩ hsized hn hl hclock hlow hhigh
  have hreport := (buildWindow_eq hsized.directions hbuild).2
  have hpast : ¬(nowNs ≤ previous.capturedAtMonotonicNs ∨ nowMs < previous.capturedAtUnixMs) := by
    rw [detectionFingerprintWindowMs] at hlow
    omega
  unfold FingerprintWindowHistory.recordScan
  rw [hv, he]
  dsimp only
  rw [if_neg hpast, if_neg (Nat.not_lt.mpr hlow), if_neg (Nat.not_lt.mpr hhigh), hbuild]
  dsimp only
  rw [hreport]

/-- The scans that are accepted are those that a report can be built of. -/
theorem validateScan_eq_ok {identity : RateIdentity} : validateScan identity evidence = .ok entries ↔
    Reportable identity.ifindex identity.generation evidence ∧ entries = sortEntries evidence := by
  constructor
  · intro h
    refine ⟨?_, (validateScan_sized h).1⟩
    unfold validateScan at h
    split at h
    · cases h
    · rename_i report hbuild
      exact (build_eq_ok.mp hbuild).1
  · rintro ⟨hreportable, rfl⟩
    exact validateScan_ok hreportable.valid hreportable.nodup hreportable.sized

theorem Reportable.sorted {ifindex generation : Nat} (h : Reportable ifindex generation evidence) :
    Reportable ifindex generation (sortEntries evidence) := h.perm (List.perm_insertionSort _ evidence).symm

theorem Reportable.packets {ifindex generation : Nat} (h : Reportable ifindex generation evidence) :
    ∀ e ∈ evidence, e.value.packets ≠ 0 := fun e he => (validateEvidence_counts (h.valid e he)).1

/-- **The first window of a fresh map says what the report of its scan says.** -/
theorem fresh_window_agrees {report : FingerprintReport} {startNs startMs endNs endMs : Nat} (hfresh : w.endpoint = none)
    (hbuild : FingerprintReport.build w.identity.ifindex w.identity.generation evidence = .ok report)
    (hclock : startMs ≤ endMs) (hlow : 10000 ≤ (endNs - startNs) / 1000000) (hhigh : (endNs - startNs) / 1000000 ≤ 15000) :
    ∃ first second, w.recordScan startNs startMs [] = (.ok (), first) ∧
      first.recordScan endNs endMs evidence = (.ok (), second) ∧ second.report.state = .ready ∧
      second.report.capturedEntryCount = report.capturedEntryCount ∧
      second.report.deltaRelationCount = report.relationCount ∧
      second.report.repeatedRelationCount = report.repeatedRelationCount ∧
      second.report.egressFirstCorrelatedRelationCount = report.egressFirstRelationCount ∧
      second.report.ingress = report.ingress ∧ second.report.egress = report.egress := by
  obtain ⟨hreportable, rfl⟩ := build_eq_ok.mp hbuild
  have hempty : validateScan w.identity [] = .ok [] :=
    validateScan_ok (fun _ he => absurd he List.not_mem_nil) List.nodup_nil
      ⟨Nat.zero_le _, fun _ he => absurd he List.not_mem_nil, by decide, by decide, by decide, by decide⟩
  have hperm : evidence.Perm (sortEntries evidence) := (List.perm_insertionSort _ evidence).symm
  have hsorted := hreportable.sorted
  have hlopsided : lopsided [] (sortEntries evidence) = false := by
    refine not_lopsided fun e he delta hdelta hzero => ?_
    cases hdelta
    exact absurd hzero (hsorted.packets e he)
  have hfirst := @FingerprintWindowHistory.recordScan_first w startNs startMs [] [] hfresh hempty
  obtain ⟨hrelations, hrepeated, hegressFirst, hingress, hegress⟩ := totalsOf_nil hsorted.distinct hsorted.packets
  rw [← reportOf_perm hreportable.distinct hperm] at hrelations hrepeated hegressFirst hingress hegress
  refine ⟨_, _, hfirst, recordScan_window rfl (validateScan_eq_ok.mpr ⟨hreportable, rfl⟩) (nonRegressing_nil _) hlopsided hclock
    hlow hhigh, rfl, ?_, hrelations, hrepeated, hegressFirst, hingress, hegress⟩
  exact hperm.length_eq.symm

/-- A flow seen in a direction. -/
def flowEntry (direction packets bytes : Nat) : FingerprintEvidence :=
  ⟨⟨1, 0x5eed, 3, noVlan, 0x0806, 64, direction, 0, 0, 0, [0, 0]⟩,
    ⟨500, 600, packets, bytes, [2, 0, 0, 0, 0, 1], [0xff, 0xff, 0xff, 0xff, 0xff, 0xff], [0, 0, 0, 0]⟩⟩

/-- A flow that left three times and came back twenty. -/
theorem fresh_window_agrees_flow : ∃ report first second,
    FingerprintReport.build 3 1 [flowEntry 1 20 1280, flowEntry 2 3 192] = .ok report ∧
      (FingerprintWindowHistory.new ⟨3, 1, by decide, by decide⟩).recordScan 0 0 [] = (.ok (), first) ∧
      first.recordScan 10000000000 10000 [flowEntry 1 20 1280, flowEntry 2 3 192] = (.ok (), second) ∧
      second.report.deltaRelationCount = report.relationCount ∧ second.report.ingress = report.ingress := by
  obtain ⟨first, second, hfirst, hsecond, -, -, hrelations, -, -, hingress, -⟩ :=
    @fresh_window_agrees (.new ⟨3, 1, by decide, by decide⟩) [flowEntry 1 20 1280, flowEntry 2 3 192] _ 0 0 10000000000 10000
      rfl rfl (by decide) (by decide) (by decide)
  exact ⟨_, first, second, rfl, hfirst, hsecond, hrelations, hingress⟩

end

end NetworkLoop.Observation
