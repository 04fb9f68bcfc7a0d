import NetworkLoop.Library.Grouping
import NetworkLoop.Observation.Scans

/-! The report of a scan in closed form.

`build` walks the evidence in the order of the map's scan, but what it makes of it depends
on the evidence alone: its relations are the evidence grouped under the keys without the
direction (`relationsOf`), every count of the report is a count of relations (`reportOf`),
and a report is built exactly from what `Reportable` says (`build_eq_ok`). So the order does
not matter, and the counts balance (`build_balanced`). -/
namespace NetworkLoop.Observation
open Library Detection

/-! ### Relations -/

section
variable {σ : Type}

def Relation.setSide (direction : Nat) (side : σ) (r : Relation σ) : Relation σ :=
  if direction = directionIngress then {r with ingress := some side} else {r with egress := some side}

theorem Relations.set_eq_upsert (relations : Relations σ) (key : RelationKey) (direction : Nat) (side : σ) :
    relations.set key direction side = Grouping.upsert ⟨none, none⟩ (Relation.setSide direction side) key relations := by
  induction relations with
  | nil => rfl
  | cons head rest ih =>
    show (if head.1 = key then (head.1, _) :: rest else head :: Relations.set rest key direction side) = _
    rw [ih]
    rfl

/-- The relations of some evidence, of which each entry is a side. -/
def relationsOf (side : FingerprintEvidence → σ) (evidence : List FingerprintEvidence) : Relations σ :=
  Grouping.group ⟨none, none⟩ (·.key.relation) (fun e => Relation.setSide e.key.direction (side e)) evidence

theorem foldl_set (side : FingerprintEvidence → σ) (evidence : List FingerprintEvidence) :
    evidence.foldl (fun (relations : Relations σ) e => relations.set e.key.relation e.key.direction (side e)) [] =
      relationsOf side evidence := by
  simp only [Relations.set_eq_upsert]
  rfl

/-- No exact key twice, and each entry in one of the two directions. -/
structure Distinct (evidence : List FingerprintEvidence) : Prop where
  directions : ∀ e ∈ evidence, e.key.direction = directionIngress ∨ e.key.direction = directionEgress
  nodup : (evidence.map (·.key.exact)).Nodup

/-- Two entries of one relation are two sides of it. -/
theorem Distinct.apart {evidence : List FingerprintEvidence} (h : Distinct evidence) {x y : FingerprintEvidence}
    (hx : x ∈ evidence) (hy : y ∈ evidence) (hkey : x.key.relation = y.key.relation) :
    x = y ∨ (x.key.direction = directionIngress ↔ ¬y.key.direction = directionIngress) := by
  by_cases hdirection : x.key.direction = y.key.direction
  · exact .inl (List.inj_on_of_nodup_map h.nodup hx hy (Prod.ext hkey hdirection))
  · have hne : directionIngress ≠ directionEgress := by decide
    refine .inr ?_
    rcases h.directions x hx with hin | hout <;> rcases h.directions y hy with hin' | hout' <;> grind

/-- **The order of the evidence does not matter to its relations.** -/
theorem relationsOf_perm (side : FingerprintEvidence → σ) {evidence evidence' : List FingerprintEvidence}
    (h : Distinct evidence) (hperm : evidence.Perm evidence') :
    (relationsOf side evidence).Perm (relationsOf side evidence') := by
  refine Grouping.group_perm hperm fun x hx y hy hkey r => ?_
  rcases h.apart hx hy hkey with rfl | hsides
  · rfl
  · unfold Relation.setSide
    by_cases hin : y.key.direction = directionIngress
    · have hout : ¬x.key.direction = directionIngress := fun hx' => hsides.mp hx' hin
      simp [hin, hout]
    · simp [hin, hsides.mpr hin]

/-! ### Sides -/

def Relation.sides (r : Relation σ) : Nat := r.ingress.toList.length + r.egress.toList.length

/-- The two entries of a relation, or the one. -/
theorem Distinct.under {evidence : List FingerprintEvidence} (h : Distinct evidence) (key : RelationKey) :
    (Grouping.under (·.key.relation) evidence key).Pairwise fun x y =>
      x.key.direction = directionIngress ↔ ¬y.key.direction = directionIngress := by
  have hnodup : evidence.Nodup := List.Nodup.of_map _ h.nodup
  have hmem : ∀ x ∈ Grouping.under (·.key.relation) evidence key, x ∈ evidence ∧ x.key.relation = key := by
    intro x hx
    obtain ⟨hin, hkey⟩ := List.mem_filter.mp hx
    exact ⟨hin, of_decide_eq_true hkey⟩
  refine (hnodup.filter _).imp_of_mem fun hx hy hne => ?_
  obtain ⟨hx, hkx⟩ := hmem _ hx
  obtain ⟨hy, hky⟩ := hmem _ hy
  exact (h.apart hx hy (hkx.trans hky.symm)).resolve_left hne

/-- What two sides or one make of a relation. -/
theorem folded_sides (side : FingerprintEvidence → σ) {entries : List FingerprintEvidence}
    (h : entries.Pairwise fun x y => x.key.direction = directionIngress ↔ ¬y.key.direction = directionIngress) :
    entries.foldl (fun r e => Relation.setSide e.key.direction (side e) r) ⟨none, none⟩ =
      ⟨(entries.find? fun e => e.key.direction = directionIngress).map side,
        (entries.find? fun e => ¬e.key.direction = directionIngress).map side⟩ := by
  match entries with
  | [] => rfl
  | [x] => by_cases hx : x.key.direction = directionIngress <;> simp [Relation.setSide, hx]
  | [x, y] =>
    have hxy := List.rel_of_pairwise_cons h (List.mem_cons_self (a := y))
    by_cases hx : x.key.direction = directionIngress
    · have hy := hxy.mp hx
      simp [Relation.setSide, hx, hy]
    · have hy : y.key.direction = directionIngress := not_not.mp fun hno => hx (hxy.mpr hno)
      simp [Relation.setSide, hx, hy]
  | x :: y :: z :: rest =>
    -- there are only two directions
    exfalso
    simp only [List.pairwise_cons, List.mem_cons, forall_eq_or_imp] at h
    obtain ⟨⟨hxy, hxz, -⟩, ⟨hyz, -⟩, -⟩ := h
    tauto

/-- The entry of a relation in one direction. -/
def entryIn (direction : Nat) (evidence : List FingerprintEvidence) (key : RelationKey) : Option FingerprintEvidence :=
  evidence.find? fun e => e.key.relation = key ∧ e.key.direction = direction

theorem entryIn_mem {direction : Nat} {evidence : List FingerprintEvidence} {key : RelationKey} {e : FingerprintEvidence}
    (h : entryIn direction evidence key = some e) : e ∈ evidence ∧ e.key.relation = key ∧ e.key.direction = direction := by
  refine ⟨List.mem_of_find?_eq_some h, ?_⟩
  simpa using List.find?_some h

theorem Distinct.entryIn {evidence : List FingerprintEvidence} (h : Distinct evidence) {e : FingerprintEvidence}
    (he : e ∈ evidence) : entryIn e.key.direction evidence e.key.relation = some e := by
  cases hfound : Observation.entryIn e.key.direction evidence e.key.relation with
  | none => exact absurd (decide_eq_true ⟨rfl, rfl⟩) (List.find?_eq_none.mp hfound e he)
  | some found =>
    obtain ⟨hmem, hrelation, hdirection⟩ := entryIn_mem hfound
    exact congrArg some (List.inj_on_of_nodup_map h.nodup hmem he (Prod.ext hrelation hdirection))

/-- **The relations of some evidence**: each key once, with its entries as sides. -/
theorem relationsOf_eq (side : FingerprintEvidence → σ) {evidence : List FingerprintEvidence} (h : Distinct evidence) :
    relationsOf side evidence = (Grouping.keysOf (·.key.relation) evidence).map fun key =>
      (key, ⟨(entryIn directionIngress evidence key).map side, (entryIn directionEgress evidence key).map side⟩) := by
  have hother : ∀ key, (evidence.find? fun e => e.key.relation = key ∧ ¬e.key.direction = directionIngress) =
      entryIn directionEgress evidence key := by
    intro key
    refine List.find?_congr fun e he => decide_eq_decide.mpr (and_congr_right fun _ => ?_)
    have hne : directionIngress ≠ directionEgress := by decide
    rcases h.directions e he with hin | hout
    · simp [hin, hne]
    · simp [hout, hne.symm]
  rw [relationsOf, Grouping.group_eq]
  apply List.map_congr_left
  intro key _
  rw [Grouping.folded, folded_sides side (h.under key), Grouping.under, List.find?_filter, List.find?_filter, ← hother key]
  simp only [entryIn, Bool.decide_and, Bool.decide_eq_true]

theorem entryIn_filter {evidence : List FingerprintEvidence} (h : Distinct evidence) (direction : Nat) (key : RelationKey) :
    Grouping.under (·.key.relation) (ofDirection direction evidence) key = (entryIn direction evidence key).toList := by
  have halone : evidence.Pairwise fun x y => ¬(decide (x.key.relation = key ∧ x.key.direction = direction) = true ∧
      decide (y.key.relation = key ∧ y.key.direction = direction) = true) := by
    refine (List.pairwise_map.mp h.nodup).imp ?_
    intro x y hne hboth
    obtain ⟨hx, hy⟩ := hboth
    obtain ⟨hxkey, hxdirection⟩ := of_decide_eq_true hx
    obtain ⟨hykey, hydirection⟩ := of_decide_eq_true hy
    exact hne (Prod.ext (hxkey.trans hykey.symm) (hxdirection.trans hydirection.symm))
  rw [Grouping.under, ofDirection, List.filter_filter, entryIn, ← Grouping.filter_eq_find _ halone]
  simp only [Bool.decide_and]

/-- Adding up the sides of one direction is adding up its entries. -/
theorem sum_entryIn {evidence : List FingerprintEvidence} (h : Distinct evidence) (direction : Nat)
    (amount : FingerprintEvidence → Nat) :
    ((Grouping.keysOf (·.key.relation) evidence).map fun key => ((entryIn direction evidence key).map amount).getD 0).sum =
      carried direction amount evidence := by
  rw [carried, ← @Grouping.sum_under _ _ _ (fun e : FingerprintEvidence => e.key.relation) amount (ofDirection direction evidence) _
    (Grouping.keysOf_nodup evidence) fun e he => Grouping.mem_keysOf.mpr ⟨e, (List.mem_filter.mp he).1, rfl⟩]
  refine congrArg List.sum (List.map_congr_left fun key _ => ?_)
  rw [entryIn_filter h]
  cases entryIn direction evidence key with
  | none => rfl
  | some e => simp

/-- Every relation has a side. -/
theorem relationsOf_sides (side : FingerprintEvidence → σ) {evidence : List FingerprintEvidence} (h : Distinct evidence) :
    ∀ g ∈ relationsOf side evidence, g.2.ingress.isSome ∨ g.2.egress.isSome := by
  rw [relationsOf_eq side h, List.forall_mem_map]
  intro key hkey
  obtain ⟨e, he, rfl⟩ := Grouping.mem_keysOf.mp hkey
  have hentry := h.entryIn he
  rcases h.directions e he with hin | hout
  · rw [hin] at hentry
    exact .inl (by rw [hentry]; rfl)
  · rw [hout] at hentry
    exact .inr (by rw [hentry]; rfl)

/-- **Every entry is a side of a relation.** -/
theorem sum_sides (side : FingerprintEvidence → σ) {evidence : List FingerprintEvidence} (h : Distinct evidence) :
    ((relationsOf side evidence).map fun g => g.2.sides).sum = evidence.length := by
  have hlength : ∀ entry : Option FingerprintEvidence, (entry.map side).toList.length = (entry.map fun _ => 1).getD 0 := by
    intro entry
    cases entry <;> rfl
  have hdirections : carried directionIngress (fun _ => 1) evidence + carried directionEgress (fun _ => 1) evidence =
      evidence.length := by
    have hdirs := h.directions
    clear h
    induction evidence with
    | nil => rfl
    | cons e rest ih =>
      obtain ⟨he, hrest⟩ := List.forall_mem_cons.mp hdirs
      rw [carried_cons, carried_cons, List.length_cons, ← ih hrest]
      rcases he with hin | hout
      · simp [hin, directionIngress, directionEgress]
        omega
      · simp [hout, directionIngress, directionEgress]
        omega
  rw [relationsOf_eq side h, List.map_map]
  simp only [Function.comp_def, Relation.sides, hlength]
  rw [List.sum_map_add, sum_entryIn h, sum_entryIn h, hdirections]

end

/-! ### The loop over the evidence -/

def sideOf (e : FingerprintEvidence) : Side := ⟨e.value.firstSeenNs, ⟨e.value.packets, e.value.bytes⟩⟩

/-- What a turn of the loop over the evidence does to the relations and the keys. -/
theorem collect_next {ifindex generation : Nat} {c c' : FingerprintReport.Collected} {item : FingerprintEvidence}
    (h : FingerprintReport.collect ifindex generation c item = .ok c') :
    item.key.exact ∉ c.exact ∧ c'.exact = item.key.exact :: c.exact ∧
      c'.groups = c.groups.set item.key.relation item.key.direction (sideOf item) := by
  unfold FingerprintReport.collect at h
  cases hvalid : validateEvidence item ifindex generation with
  | error error => rw [hvalid] at h; cases h
  | ok _ =>
    rw [hvalid] at h
    dsimp only [bind, Except.bind] at h
    split at h
    · cases h
    · rename_i hnew
      split at h
      · split at h
        · cases h
        · cases h
          exact ⟨hnew, rfl, rfl⟩
      · split at h
        · cases h
        · cases h
          exact ⟨hnew, rfl, rfl⟩

theorem collect_all {ifindex generation : Nat} {evidence : List FingerprintEvidence} {c c' : FingerprintReport.Collected}
    (h : evidence.foldlM (FingerprintReport.collect ifindex generation) c = .ok c') :
    c'.groups = evidence.foldl (fun relations e => relations.set e.key.relation e.key.direction (sideOf e)) c.groups ∧
      (evidence.map (·.key.exact)).Nodup ∧ ∀ e ∈ evidence, e.key.exact ∉ c.exact := by
  refine foldlM_relates (fun evidence c c' =>
    c'.groups = evidence.foldl (fun relations e => relations.set e.key.relation e.key.direction (sideOf e)) c.groups ∧
      (evidence.map (·.key.exact)).Nodup ∧ ∀ e ∈ evidence, e.key.exact ∉ c.exact) ?_ ?_ h
  · intro c
    exact ⟨rfl, List.nodup_nil, fun e he => absurd he List.not_mem_nil⟩
  · rintro item rest c next c' hstep ⟨hgroups, hnodup, hapart⟩
    obtain ⟨hnew, hexact, hset⟩ := collect_next hstep
    rw [hexact] at hapart
    refine ⟨by rw [hgroups, hset]; rfl, ?_, ?_⟩
    · rw [List.map_cons, List.nodup_cons]
      refine ⟨fun hmem => ?_, hnodup⟩
      obtain ⟨e, he, heq⟩ := List.mem_map.mp hmem
      exact hapart e he (heq ▸ List.mem_cons_self)
    · intro e he
      rcases List.mem_cons.mp he with rfl | he
      · exact hnew
      · exact fun hmem => hapart e he (List.mem_cons_of_mem _ hmem)

/-! ### The loop over the relations -/

/-- More than one packet on either side. -/
def Relation.repeats {σ : Type} (packets : σ → Nat) (r : Relation σ) : Bool :=
  r.ingress.any (fun side => packets side > 1) || r.egress.any (fun side => packets side > 1)

def Relation.ingressOnly {σ : Type} (r : Relation σ) : Bool := r.ingress.isSome && r.egress.isNone

def Relation.egressOnly {σ : Type} (r : Relation σ) : Bool := r.ingress.isNone && r.egress.isSome

def Relation.correlated {σ : Type} (r : Relation σ) : Bool := r.ingress.isSome && r.egress.isSome

/-- A comparison of the two sides, for a relation that has both. -/
def Relation.compares {σ : Type} (p : σ → σ → Bool) (r : Relation σ) : Bool :=
  r.ingress.any fun ingress => r.egress.any fun egress => p ingress egress

/-- A maximum over the relations that have both sides. -/
def Relation.maximize {σ : Type} (ratio : Option Nat → σ → σ → Option Nat) (maximum : Option Nat) (r : Relation σ) : Option Nat :=
  match r.ingress, r.egress with
  | some ingress, some egress => ratio maximum ingress egress
  | _, _ => maximum

def FingerprintReport.counted (r : FingerprintReport) (relations : List (Relation Side)) : FingerprintReport :=
  {r with
    ingressOnlyRelationCount := r.ingressOnlyRelationCount + relations.countP Relation.ingressOnly
    egressOnlyRelationCount := r.egressOnlyRelationCount + relations.countP Relation.egressOnly
    correlatedRelationCount := r.correlatedRelationCount + relations.countP Relation.correlated
    ingressFirstRelationCount := r.ingressFirstRelationCount +
      relations.countP (Relation.compares fun ingress egress => ingress.firstSeenNs < egress.firstSeenNs)
    egressFirstRelationCount := r.egressFirstRelationCount +
      relations.countP (Relation.compares fun ingress egress => egress.firstSeenNs < ingress.firstSeenNs)
    simultaneousRelationCount := r.simultaneousRelationCount +
      relations.countP (Relation.compares fun ingress egress => ingress.firstSeenNs == egress.firstSeenNs)
    repeatedRelationCount := r.repeatedRelationCount + relations.countP (Relation.repeats (·.counters.packets))
    maximumPacketRatioMilli := relations.foldl (Relation.maximize fun maximum ingress egress =>
      maximizeRatio maximum ingress.counters.packets egress.counters.packets) r.maximumPacketRatioMilli
    maximumByteRatioMilli := relations.foldl (Relation.maximize fun maximum ingress egress =>
      maximizeRatio maximum ingress.counters.bytes egress.counters.bytes) r.maximumByteRatioMilli}

theorem increment_eq {value value' : Nat} (h : increment value = .ok value') : value' = value + 1 := by
  unfold increment at h
  split at h
  · cases h
    rfl
  · cases h

/-- The end of a turn of the loop over the relations, past the count of repetitions. -/
def classify (r : FingerprintReport) (relation : Relation Side) : Except DomainError FingerprintReport :=
  match relation.ingress, relation.egress with
  | some _, none => increment r.ingressOnlyRelationCount >>= fun n => .ok {r with ingressOnlyRelationCount := n}
  | none, some _ => increment r.egressOnlyRelationCount >>= fun n => .ok {r with egressOnlyRelationCount := n}
  | some ingress, some egress =>
    increment r.correlatedRelationCount >>= fun n =>
    (if ingress.firstSeenNs < egress.firstSeenNs then
      increment r.ingressFirstRelationCount >>= fun m =>
        .ok {r with correlatedRelationCount := n, ingressFirstRelationCount := m}
    else if ingress.firstSeenNs > egress.firstSeenNs then
      increment r.egressFirstRelationCount >>= fun m =>
        .ok {r with correlatedRelationCount := n, egressFirstRelationCount := m}
    else
      increment r.simultaneousRelationCount >>= fun m =>
        .ok {r with correlatedRelationCount := n, simultaneousRelationCount := m}) >>= fun r =>
    .ok {r with
      maximumPacketRatioMilli :=
        maximizeRatio r.maximumPacketRatioMilli ingress.counters.packets egress.counters.packets
      maximumByteRatioMilli := maximizeRatio r.maximumByteRatioMilli ingress.counters.bytes egress.counters.bytes}
  | none, none => .error (.invalidObservation "fingerprint relation has no evidence")

theorem accumulateRelation_classify (r : FingerprintReport) (relation : Relation Side) :
    FingerprintReport.accumulateRelation r relation =
      (if relation.repeats (·.counters.packets) then increment r.repeatedRelationCount else .ok r.repeatedRelationCount) >>= fun repeated =>
        classify {r with repeatedRelationCount := repeated} relation := by
  obtain ⟨ingress, egress⟩ := relation
  unfold FingerprintReport.accumulateRelation classify Relation.repeats
  generalize (Option.any (fun side : Side => decide (side.counters.packets > 1)) ingress ||
    Option.any (fun side : Side => decide (side.counters.packets > 1)) egress) = repeats
  cases ingress with
  | none => cases egress <;> cases repeats <;> rfl
  | some ingress =>
    cases egress with
    | none => cases repeats <;> rfl
    | some egress =>
      dsimp only
      by_cases hlt : ingress.firstSeenNs < egress.firstSeenNs
      · simp only [if_pos hlt, bind_assoc]
        cases repeats <;> rfl
      · by_cases hgt : ingress.firstSeenNs > egress.firstSeenNs
        · simp only [if_neg hlt, if_pos hgt, bind_assoc]
          cases repeats <;> rfl
        · simp only [if_neg hlt, if_neg hgt, bind_assoc]
          cases repeats <;> rfl

theorem classify_eq {r r' : FingerprintReport} {relation : Relation Side} (h : classify r relation = .ok r') :
    r' = {r.counted [relation] with repeatedRelationCount := r.repeatedRelationCount} := by
  obtain ⟨ingress, egress⟩ := relation
  cases ingress with
  | none =>
    cases egress with
    | none => cases h
    | some egress =>
      obtain ⟨n, hn, h⟩ := bind_eq_ok.mp h
      cases h
      rw [increment_eq hn]
      rfl
  | some ingress =>
    cases egress with
    | none =>
      obtain ⟨n, hn, h⟩ := bind_eq_ok.mp h
      cases h
      rw [increment_eq hn]
      rfl
    | some egress =>
      obtain ⟨n, hn, h⟩ := bind_eq_ok.mp h
      obtain ⟨ordered, hordered, h⟩ := bind_eq_ok.mp h
      cases h
      rw [increment_eq hn] at hordered
      rcases lt_trichotomy ingress.firstSeenNs egress.firstSeenNs with hlt | heq | hgt
      · have hgt : ¬egress.firstSeenNs < ingress.firstSeenNs := Nat.lt_asymm hlt
        rw [if_pos hlt] at hordered
        obtain ⟨m, hm, hordered⟩ := bind_eq_ok.mp hordered
        cases hordered
        rw [increment_eq hm]
        simp [FingerprintReport.counted, Relation.ingressOnly, Relation.egressOnly, Relation.correlated, Relation.compares,
          Relation.maximize, hlt, hgt, hlt.ne]
      · rw [if_neg (by omega), if_neg (by omega)] at hordered
        obtain ⟨m, hm, hordered⟩ := bind_eq_ok.mp hordered
        cases hordered
        rw [increment_eq hm]
        simp [FingerprintReport.counted, Relation.ingressOnly, Relation.egressOnly, Relation.correlated, Relation.compares,
          Relation.maximize, heq]
      · have hlt : ¬ingress.firstSeenNs < egress.firstSeenNs := Nat.lt_asymm hgt
        rw [if_neg hlt, if_pos hgt] at hordered
        obtain ⟨m, hm, hordered⟩ := bind_eq_ok.mp hordered
        cases hordered
        rw [increment_eq hm]
        simp [FingerprintReport.counted, Relation.ingressOnly, Relation.egressOnly, Relation.correlated, Relation.compares,
          Relation.maximize, hlt, hgt, hgt.ne']

/-- A turn of the loop counts its relation. -/
theorem accumulateRelation_eq {r r' : FingerprintReport} {relation : Relation Side}
    (h : FingerprintReport.accumulateRelation r relation = .ok r') : r' = r.counted [relation] := by
  rw [accumulateRelation_classify] at h
  obtain ⟨repeated, hrepeated, h⟩ := bind_eq_ok.mp h
  have hrepeats : repeated = r.repeatedRelationCount + [relation].countP (Relation.repeats (·.counters.packets)) := by
    rw [List.countP_singleton]
    split at hrepeated
    case isTrue hyes => rw [increment_eq hrepeated, if_pos hyes]
    case isFalse hno =>
      cases hrepeated
      rw [if_neg hno]
      rfl
  rw [classify_eq h, hrepeats]
  rfl

theorem counted_cons (r : FingerprintReport) (relation : Relation Side) (rest : List (Relation Side)) :
    r.counted (relation :: rest) = (r.counted [relation]).counted rest := by
  simp only [FingerprintReport.counted, List.countP_cons, List.countP_nil, List.foldl_cons, List.foldl_nil,
    FingerprintReport.mk.injEq, true_and, and_true]
  omega

/-- **The report counts its relations.** -/
theorem foldlM_accumulateRelation {r r' : FingerprintReport} {relations : List (Relation Side)}
    (h : relations.foldlM FingerprintReport.accumulateRelation r = .ok r') : r' = r.counted relations := by
  refine foldlM_relates (fun relations r r' => r' = r.counted relations) ?_ ?_ h
  · intro r
    simp [FingerprintReport.counted]
  · intro relation rest r next r' hstep hrest
    rw [hrest, accumulateRelation_eq hstep, ← counted_cons]

/-! ### The report -/

/-- The packets and bytes that the entries of one direction carry. -/
def countersOf (direction : Nat) (evidence : List FingerprintEvidence) : FingerprintCounters :=
  ⟨carried direction (·.value.packets) evidence, carried direction (·.value.bytes) evidence⟩

/-- The report of some evidence. -/
def reportOf (evidence : List FingerprintEvidence) : FingerprintReport :=
  FingerprintReport.counted {FingerprintReport.empty with
    state := if evidence.length ≠ 0 then .observed else .empty
    capturedEntryCount := evidence.length
    relationCount := (relationsOf sideOf evidence).length
    ingress := countersOf directionIngress evidence
    egress := countersOf directionEgress evidence} ((relationsOf sideOf evidence).map (·.2))

/-- Evidence that a report can be built of. -/
structure Reportable (ifindex generation : Nat) (evidence : List FingerprintEvidence) : Prop where
  identity : ifindex ≠ 0 ∧ generation ≠ 0
  valid : ∀ e ∈ evidence, validateEvidence e ifindex generation = .ok ()
  nodup : (evidence.map (·.key.exact)).Nodup
  sized : Sized evidence

theorem Reportable.distinct {ifindex generation : Nat} {evidence : List FingerprintEvidence}
    (h : Reportable ifindex generation evidence) : Distinct evidence := ⟨h.sized.directions, h.nodup⟩

theorem Reportable.perm {ifindex generation : Nat} {evidence evidence' : List FingerprintEvidence}
    (h : Reportable ifindex generation evidence) (hperm : evidence.Perm evidence') :
    Reportable ifindex generation evidence' :=
  ⟨h.identity, fun e he => h.valid e (hperm.mem_iff.mpr he), (hperm.map _).nodup_iff.mp h.nodup, h.sized.perm hperm⟩

section
variable {ifindex generation : Nat} {evidence evidence' : List FingerprintEvidence} {report : FingerprintReport}

theorem countU16_eq {value value' : Nat} (h : countU16 value = .ok value') : value' = value := by
  unfold countU16 at h
  split at h
  · cases h
    rfl
  · cases h

/-- The totals that the loop over the evidence collects. -/
theorem collect_totals {c : FingerprintReport.Collected}
    (h : evidence.foldlM (FingerprintReport.collect ifindex generation) ⟨⟨0, 0⟩, ⟨0, 0⟩, [], []⟩ = .ok c) :
    c.ingress = countersOf directionIngress evidence ∧ c.egress = countersOf directionEgress evidence := by
  have hb : Bounded evidence ⟨⟨0, 0⟩, ⟨0, 0⟩, [], []⟩ c :=
    foldlM_relates Bounded (fun b => ⟨nofun, rfl, rfl, rfl, rfl, id⟩) (fun a rest b next b' hf hr => (collect_ok hf).cons hr) h
  have hip := hb.ingressPackets
  have hib := hb.ingressBytes
  have hep := hb.egressPackets
  have heb := hb.egressBytes
  rw [Nat.zero_add] at hip hib hep heb
  generalize c.ingress = ingress at *
  generalize c.egress = egress at *
  obtain ⟨ip, ib⟩ := ingress
  obtain ⟨ep, eb⟩ := egress
  exact ⟨congr (congrArg _ hip) hib, congr (congrArg _ hep) heb⟩

/-- **What a report is built from, and what it says.** -/
theorem build_eq_ok : FingerprintReport.build ifindex generation evidence = .ok report ↔
    Reportable ifindex generation evidence ∧ report = reportOf evidence := by
  have honly : ∀ {r}, FingerprintReport.build ifindex generation evidence = .ok r →
      Reportable ifindex generation evidence ∧ r = reportOf evidence := by
    intro r h
    have hsized := build_sized h
    have hvalid := build_valid h
    unfold FingerprintReport.build at h
    split at h
    · cases h
    · rename_i hidentity
      split at h
      · cases h
      · obtain ⟨captured, hcaptured, h⟩ := bind_eq_ok.mp h
        obtain ⟨c, hcollect, h⟩ := bind_eq_ok.mp h
        obtain ⟨relations, hrelations, h⟩ := bind_eq_ok.mp h
        obtain ⟨counted, hcounted, h⟩ := bind_eq_ok.mp h
        cases h
        obtain ⟨hgroups, hnodup, -⟩ := collect_all hcollect
        obtain ⟨hingress, hegress⟩ := collect_totals hcollect
        rw [foldl_set] at hgroups
        rw [countU16_eq hcaptured] at hcounted ⊢
        rw [countU16_eq hrelations, hgroups, hingress, hegress] at hcounted
        rw [foldlM_accumulateRelation hcounted]
        exact ⟨⟨not_or.mp hidentity, hvalid, hnodup, hsized⟩, rfl⟩
  constructor
  · exact honly
  · rintro ⟨h, rfl⟩
    obtain ⟨r, hr⟩ := build_ok h.identity.1 h.identity.2 h.valid h.nodup h.sized
    rw [hr, (honly hr).2]

/-! ### Order and balance -/

theorem maximizeRatio_comm (maximum : Option Nat) (a b c d : Nat) :
    maximizeRatio (maximizeRatio maximum a b) c d = maximizeRatio (maximizeRatio maximum c d) a b := by
  simp only [maximizeRatio, Option.getD_some, Nat.max_right_comm]

theorem maximize_comm {σ : Type} (ratio : Option Nat → σ → σ → Option Nat)
    (hcomm : ∀ maximum a b c d, ratio (ratio maximum a b) c d = ratio (ratio maximum c d) a b) (maximum : Option Nat)
    (x y : Relation σ) :
    Relation.maximize ratio (Relation.maximize ratio maximum x) y = Relation.maximize ratio (Relation.maximize ratio maximum y) x := by
  obtain ⟨ingress, egress⟩ := x
  obtain ⟨ingress', egress'⟩ := y
  cases ingress <;> cases egress <;> cases ingress' <;> cases egress' <;> first | rfl | exact hcomm ..

theorem counted_perm {relations relations' : List (Relation Side)} (h : relations.Perm relations') (r : FingerprintReport) :
    r.counted relations = r.counted relations' := by
  have hmaximum : ∀ (amount : Side → Nat) (maximum : Option Nat),
      relations.foldl (Relation.maximize fun m ingress egress => maximizeRatio m (amount ingress) (amount egress)) maximum =
        relations'.foldl (Relation.maximize fun m ingress egress => maximizeRatio m (amount ingress) (amount egress)) maximum :=
    fun amount maximum => h.foldl_eq' (fun x _ y _ m => maximize_comm
      (fun m ingress egress => maximizeRatio m (amount ingress) (amount egress)) (fun _ _ _ _ _ => maximizeRatio_comm ..) m x y)
      maximum
  have hpackets := hmaximum (·.counters.packets) r.maximumPacketRatioMilli
  have hbytes := hmaximum (·.counters.bytes) r.maximumByteRatioMilli
  simp only [FingerprintReport.counted, h.countP_eq, hpackets, hbytes]

/-- The report does not depend on the order of the evidence. -/
theorem reportOf_perm (h : Distinct evidence) (hperm : evidence.Perm evidence') : reportOf evidence = reportOf evidence' := by
  have hrelations := relationsOf_perm sideOf h hperm
  have hingress : countersOf directionIngress evidence = countersOf directionIngress evidence' := by
    simp only [countersOf, carried_perm hperm]
  have hegress : countersOf directionEgress evidence = countersOf directionEgress evidence' := by
    simp only [countersOf, carried_perm hperm]
  simp only [reportOf, hperm.length_eq, hrelations.length_eq, hingress, hegress, counted_perm (hrelations.map (·.2))]

/-- A count of relations, by the sides they have. -/
theorem counts_balance {σ : Type} {relations : List (Relation σ)} (h : ∀ r ∈ relations, r.ingress.isSome ∨ r.egress.isSome) :
    relations.length = relations.countP Relation.ingressOnly + relations.countP Relation.egressOnly +
        relations.countP Relation.correlated ∧
      (relations.map Relation.sides).sum = relations.length + relations.countP Relation.correlated := by
  induction relations with
  | nil => exact ⟨rfl, rfl⟩
  | cons r rest ih =>
    obtain ⟨hr, hrest⟩ := List.forall_mem_cons.mp h
    obtain ⟨hlength, hsum⟩ := ih hrest
    obtain ⟨ingress, egress⟩ := r
    rw [List.map_cons, List.sum_cons, hsum]
    simp only [List.countP_cons, List.length_cons]
    cases ingress with
    | none =>
      cases egress with
      | none => simp at hr
      | some egress =>
        simp [Relation.ingressOnly, Relation.egressOnly, Relation.correlated, Relation.sides] at hlength ⊢
        omega
    | some ingress =>
      cases egress with
      | none =>
        simp [Relation.ingressOnly, Relation.egressOnly, Relation.correlated, Relation.sides] at hlength ⊢
        omega
      | some egress =>
        simp [Relation.ingressOnly, Relation.egressOnly, Relation.correlated, Relation.sides] at hlength ⊢
        omega

/-- Of two sides, one was seen first, or neither. -/
theorem countP_compares (relations : List (Relation Side)) :
    relations.countP Relation.correlated =
      relations.countP (Relation.compares fun ingress egress => ingress.firstSeenNs < egress.firstSeenNs) +
      relations.countP (Relation.compares fun ingress egress => egress.firstSeenNs < ingress.firstSeenNs) +
      relations.countP (Relation.compares fun ingress egress => ingress.firstSeenNs == egress.firstSeenNs) := by
  induction relations with
  | nil => rfl
  | cons r rest ih =>
    obtain ⟨ingress, egress⟩ := r
    simp only [List.countP_cons, ih]
    cases ingress with
    | none => simp [Relation.correlated, Relation.compares]
    | some ingress =>
      cases egress with
      | none => simp [Relation.correlated, Relation.compares]
      | some egress =>
        rcases lt_trichotomy ingress.firstSeenNs egress.firstSeenNs with hlt | heq | hgt
        · simp [Relation.correlated, Relation.compares, hlt, hlt.ne, hlt.not_gt]
          omega
        · simp [Relation.correlated, Relation.compares, heq]
          omega
        · simp [Relation.correlated, Relation.compares, hgt, hgt.ne', hgt.not_gt]
          omega

/-- Why a turn of the loop over the evidence fails. -/
theorem collect_error {c : FingerprintReport.Collected} {item : FingerprintEvidence} {error : DomainError}
    (h : FingerprintReport.collect ifindex generation c item = .error error) :
    error ∈ [.invalidObservation "fingerprint evidence shape is invalid",
      .invalidObservation "duplicate fingerprint evidence key", .invalidObservation "fingerprint packet aggregate overflow",
      .invalidObservation "fingerprint byte aggregate overflow"] := by
  have hadd : ∀ {counters : FingerprintCounters} {error : DomainError},
      addCounters counters item.value.packets item.value.bytes = .error error →
        error ∈ [.invalidObservation "fingerprint packet aggregate overflow",
          .invalidObservation "fingerprint byte aggregate overflow"] := by
    intro counters error hfails
    unfold addCounters at hfails
    split at hfails
    · cases hfails
    · cases hfails
      exact List.mem_cons_self
    · cases hfails
      exact List.mem_cons_of_mem _ List.mem_cons_self
  unfold FingerprintReport.collect at h
  cases hvalid : validateEvidence item ifindex generation with
  | error err =>
    rw [hvalid] at h
    cases h
    unfold validateEvidence at hvalid
    split at hvalid
    · cases hvalid
      exact List.mem_cons_self
    · cases hvalid
  | ok _ =>
    rw [hvalid] at h
    dsimp only [bind, Except.bind] at h
    split at h
    · cases h
      exact List.mem_cons_of_mem _ List.mem_cons_self
    · split at h
      · split at h
        · rename_i hfails
          cases h
          exact List.mem_cons_of_mem _ (List.mem_cons_of_mem _ (hadd hfails))
        · cases h
      · split at h
        · rename_i hfails
          cases h
          exact List.mem_cons_of_mem _ (List.mem_cons_of_mem _ (hadd hfails))
        · cases h

/-- Why no report is built: no count is ever at fault. -/
theorem build_error {error : DomainError} (h : FingerprintReport.build ifindex generation evidence = .error error) :
    error ∈ [.invalidObservation "fingerprint identity must be non-zero",
      .invalidObservation "fingerprint evidence exceeds fixed capacity",
      .invalidObservation "fingerprint evidence shape is invalid", .invalidObservation "duplicate fingerprint evidence key",
      .invalidObservation "fingerprint packet aggregate overflow", .invalidObservation "fingerprint byte aggregate overflow"] := by
  by_cases hidentity : ifindex = 0 ∨ generation = 0
  · rw [FingerprintReport.build, if_pos hidentity] at h
    cases h
    exact List.mem_cons_self
  by_cases hlength : evidence.length > fingerprintCapacity
  · rw [FingerprintReport.build, if_neg hidentity, if_pos hlength] at h
    cases h
    exact List.mem_cons_of_mem _ List.mem_cons_self
  have hcount := countU16_ok (Nat.not_lt.mp hlength)
  cases hcollect : evidence.foldlM (FingerprintReport.collect ifindex generation) ⟨⟨0, 0⟩, ⟨0, 0⟩, [], []⟩ with
  | ok c =>
    -- the rest of `build` cannot fail
    obtain ⟨-, hnodup, -⟩ := collect_all hcollect
    have hbuilds := build_eq_ok.mpr ⟨⟨not_or.mp hidentity, collected_valid hcollect, hnodup,
      collected_sized (Nat.not_lt.mp hlength) hcollect⟩, rfl⟩
    cases hbuilds.symm.trans h
  | error err =>
    rw [FingerprintReport.build, if_neg hidentity, if_neg hlength, hcount] at h
    dsimp only [bind, Except.bind] at h
    rw [hcollect] at h
    cases h
    obtain ⟨item, -, c, hfails⟩ := foldlM_error hcollect
    exact List.mem_cons_of_mem _ (List.mem_cons_of_mem _ (collect_error hfails))

/-- **A report does not depend on the order of its evidence, and its counts balance.** -/
theorem build_balanced (ifindex generation : Nat) (evidence : List FingerprintEvidence) :
    (∀ evidence', evidence.Perm evidence' →
      (∃ report, FingerprintReport.build ifindex generation evidence = .ok report ∧
        FingerprintReport.build ifindex generation evidence' = .ok report) ∨
      (∃ error error', FingerprintReport.build ifindex generation evidence = .error error ∧
        FingerprintReport.build ifindex generation evidence' = .error error')) ∧
    (∀ report, FingerprintReport.build ifindex generation evidence = .ok report →
      report.relationCount = report.ingressOnlyRelationCount + report.egressOnlyRelationCount + report.correlatedRelationCount ∧
      report.correlatedRelationCount =
        report.ingressFirstRelationCount + report.egressFirstRelationCount + report.simultaneousRelationCount ∧
      report.capturedEntryCount = report.relationCount + report.correlatedRelationCount ∧
      report.ingress = countersOf directionIngress evidence ∧ report.egress = countersOf directionEgress evidence) ∧
    (∀ error, FingerprintReport.build ifindex generation evidence = .error error →
      error ≠ .invalidObservation "fingerprint relation count overflow" ∧
        error ≠ .invalidObservation "fingerprint evidence count is not representable") := by
  refine ⟨?_, ?_, ?_⟩
  · intro evidence' hperm
    cases hbuild : FingerprintReport.build ifindex generation evidence with
    | ok report =>
      obtain ⟨h, rfl⟩ := build_eq_ok.mp hbuild
      exact .inl ⟨_, rfl, build_eq_ok.mpr ⟨h.perm hperm, reportOf_perm h.distinct hperm⟩⟩
    | error error =>
      cases hbuild' : FingerprintReport.build ifindex generation evidence' with
      | error error' => exact .inr ⟨error, error', rfl, rfl⟩
      | ok report =>
        have hreportable := (build_eq_ok.mp hbuild').1.perm hperm.symm
        cases hbuild.symm.trans (build_eq_ok.mpr ⟨hreportable, rfl⟩)
  · intro report hbuild
    obtain ⟨h, rfl⟩ := build_eq_ok.mp hbuild
    have hsides : ∀ r ∈ (relationsOf sideOf evidence).map (·.2), r.ingress.isSome ∨ r.egress.isSome :=
      List.forall_mem_map.mpr (relationsOf_sides sideOf h.distinct)
    obtain ⟨hlength, hsum⟩ := counts_balance hsides
    have hentries := sum_sides sideOf h.distinct
    rw [List.map_map] at hsum
    rw [List.length_map] at hlength hsum
    have hcompares := countP_compares ((relationsOf sideOf evidence).map (·.2))
    simp only [reportOf, FingerprintReport.counted, FingerprintReport.empty, Nat.zero_add, and_true]
    exact ⟨hlength, hcompares, hentries.symm.trans hsum⟩
  · intro error hbuild
    have hmem := build_error hbuild
    constructor
    · rintro rfl
      simp at hmem
    · rintro rfl
      simp at hmem

end

end NetworkLoop.Observation
