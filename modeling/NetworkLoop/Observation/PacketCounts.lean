import NetworkLoop.Observation.Windows

/-! When a window counts packets.

A window keeps every entry that gained packets or bytes, and so it also has relations of
entries that gained bytes alone: a map value is written packets first, bytes second, and a
scan can come between the two. `counted_by_packets_iff` says that this is the only way for a
window to count anything else than packets, and `torn_scan_not_counted` shows a pair of scans
where it does. -/
namespace NetworkLoop.Observation
open Library Detection

/-! ### What is asked of a window -/

/-- The relations with a packet gained on a side at least. -/
def packetRelations (previous entries : List FingerprintEvidence) : Finset RelationKey :=
  ((entries.filter fun e => 0 < (gainOf previous e).packets).map (·.key.relation)).toFinset

/-- A sum of gained packets or bytes that does not fit. -/
def Overflowing (previous entries : List FingerprintEvidence) : Prop :=
  ∃ direction amount, u64Bound ≤ carried direction (fun e => amount (gainOf previous e)) entries ∧
    (direction = directionIngress ∨ direction = directionEgress) ∧ (amount = SideDelta.packets ∨ amount = SideDelta.bytes)

/-- The side is there, with a packet. -/
def GainedPackets (side : Option SideDelta) : Prop := ∃ delta, side = some delta ∧ 0 < delta.packets

/-- A window whose relations are counted by packets. -/
structure CountedByPackets (previous current : FingerprintEndpoint) (coverageMs : Nat) : Prop where
  /-- The relations counted are those with a packet. -/
  relations : ∀ report, buildWindow previous current coverageMs = .ok report →
    report.deltaRelationCount = (packetRelations previous.entries current.entries).card
  /-- A relation that raises the egress-first count or sets the ratio has packets on both sides. -/
  correlated : ∀ relations, current.entries.foldlM (collectDelta previous.entries) [] = .ok relations →
    ∀ r ∈ relations.map (·.2), ∀ t t', accumulateDelta t r = .ok t' →
      t'.egressFirstCorrelatedRelationCount ≠ t.egressFirstCorrelatedRelationCount ∨ t'.maximumRatio ≠ t.maximumRatio →
      GainedPackets r.ingress ∧ GainedPackets r.egress
  /-- Only a sum that does not fit fails the calculation. -/
  fails : buildWindow previous current coverageMs = .error .calculationFailed → Overflowing previous.entries current.entries

/-! ### The calculation -/

section
variable {previous entries : List FingerprintEvidence} {item : FingerprintEvidence}

theorem gainOf_le (previous : List FingerprintEvidence) (item : FingerprintEvidence) :
    (gainOf previous item).packets ≤ item.value.packets ∧ (gainOf previous item).bytes ≤ item.value.bytes := by
  unfold gainOf
  cases h : entryDelta previous item with
  | error e => exact ⟨Nat.zero_le _, Nat.zero_le _⟩
  | ok delta => exact entryDelta_le h

theorem Sized.not_overflowing (h : Sized entries) (previous : List FingerprintEvidence) : ¬Overflowing previous entries := by
  rintro ⟨direction, amount, hover, hdirection, hamount⟩
  have hip : carried directionIngress (fun e => (gainOf previous e).packets) entries < u64Bound :=
    (carried_le fun e _ => (gainOf_le previous e).1).trans_lt h.ingressPackets
  have hib : carried directionIngress (fun e => (gainOf previous e).bytes) entries < u64Bound :=
    (carried_le fun e _ => (gainOf_le previous e).2).trans_lt h.ingressBytes
  have hep : carried directionEgress (fun e => (gainOf previous e).packets) entries < u64Bound :=
    (carried_le fun e _ => (gainOf_le previous e).1).trans_lt h.egressPackets
  have heb : carried directionEgress (fun e => (gainOf previous e).bytes) entries < u64Bound :=
    (carried_le fun e _ => (gainOf_le previous e).2).trans_lt h.egressBytes
  rcases hdirection with rfl | rfl <;> rcases hamount with rfl | rfl
  · exact absurd hover (Nat.not_le.mpr hip)
  · exact absurd hover (Nat.not_le.mpr hib)
  · exact absurd hover (Nat.not_le.mpr hep)
  · exact absurd hover (Nat.not_le.mpr heb)

/-- What an entry of an accepted scan gained is a `u64`. -/
theorem gainOf_fits (h : Sized entries) (hitem : item ∈ entries) (previous : List FingerprintEvidence) :
    (gainOf previous item).packets < u64Bound ∧ (gainOf previous item).bytes < u64Bound := by
  have hle : ∀ amount : FingerprintEvidence → Nat, amount item ≤ carried item.key.direction amount entries := by
    intro amount
    refine List.single_le_sum (fun _ _ => Nat.zero_le _) _ (List.mem_map.mpr ⟨item, ?_, rfl⟩)
    exact List.mem_filter.mpr ⟨hitem, decide_eq_true rfl⟩
  obtain ⟨hpackets, hbytes⟩ := gainOf_le previous item
  have hp := hpackets.trans (hle (·.value.packets))
  have hb := hbytes.trans (hle (·.value.bytes))
  rcases h.directions item hitem with hdirection | hdirection <;> rw [hdirection] at hp hb
  · exact ⟨hp.trans_lt h.ingressPackets, hb.trans_lt h.ingressBytes⟩
  · exact ⟨hp.trans_lt h.egressPackets, hb.trans_lt h.egressBytes⟩

theorem raise_error {value : Nat} {e : FingerprintWindowError} (h : raise value = .error e) : e = .calculationFailed := by
  unfold raise at h
  split at h <;> cases h
  rfl

theorem addSide?_error {c : FingerprintCounters} {side : Option SideDelta} {e : FingerprintWindowError}
    (h : addSide? c side = .error e) : e = .calculationFailed := by
  cases side with
  | none => cases h
  | some side =>
    unfold addSide? addSide at h
    dsimp only at h
    split at h <;> cases h
    rfl

theorem bind_error {ε α β : Type} {x : Except ε α} {f : α → Except ε β} {e : ε} (h : x >>= f = .error e) :
    x = .error e ∨ ∃ a, x = .ok a ∧ f a = .error e := by
  cases x with
  | error e' => exact .inl (congrArg Except.error (Except.error.inj h))
  | ok a => exact .inr ⟨a, rfl, h⟩

/-- A turn of the second loop fails in its arithmetic only. -/
theorem accumulateDelta_error {t : WindowTotals} {r : Relation SideDelta} {e : FingerprintWindowError}
    (h : accumulateDelta t r = .error e) : e = .calculationFailed := by
  have hraise : ∀ {value : Nat} {p : Prop} [Decidable p], (if p then raise value else .ok value) = .error e →
      e = .calculationFailed := by
    intro value p _ hfails
    split at hfails
    · exact raise_error hfails
    · cases hfails
  rw [accumulateDelta_eq] at h
  obtain h | ⟨ingress, -, h⟩ := bind_error h
  · exact addSide?_error h
  obtain h | ⟨egress, -, h⟩ := bind_error h
  · exact addSide?_error h
  obtain h | ⟨repeated, -, h⟩ := bind_error h
  · exact hraise h
  unfold correlate at h
  split at h
  · obtain h | ⟨first, -, h⟩ := bind_error h
    · exact hraise h
    · cases h
  · cases h

/-- Once no entry went back, a window fails in its arithmetic only. -/
theorem buildWindow_error {previous current : FingerprintEndpoint} {coverageMs : Nat} {e : FingerprintWindowError}
    (hdirections : ∀ e ∈ current.entries, e.key.direction = directionIngress ∨ e.key.direction = directionEgress)
    (hn : NonRegressing previous.entries current.entries) (h : buildWindow previous current coverageMs = .error e) :
    e = .calculationFailed := by
  unfold buildWindow at h
  obtain h | ⟨relations, -, h⟩ := bind_error h
  · rw [collected_relations hn hdirections] at h
    cases h
  obtain h | ⟨totals, -, h⟩ := bind_error h
  · obtain ⟨r, -, t, hfails⟩ := foldlM_error h
    exact accumulateDelta_error hfails
  split at h
  · cases h
    rfl
  · dsimp only at h
    split at h <;> cases h
    rfl

/-- A first turn of the second loop, on sides that fit. -/
theorem accumulateDelta_zero {r : Relation SideDelta}
    (hin : ∀ side, r.ingress = some side → side.packets < u64Bound ∧ side.bytes < u64Bound)
    (hout : ∀ side, r.egress = some side → side.packets < u64Bound ∧ side.bytes < u64Bound) :
    ∃ t, accumulateDelta .zero r = .ok t := by
  have hside : ∀ side : Option SideDelta, (∀ delta, side = some delta → delta.packets < u64Bound ∧ delta.bytes < u64Bound) →
      ∃ c, addSide? ⟨0, 0⟩ side = .ok c := by
    intro side hfits
    refine ⟨_, @addSide?_ok ⟨0, 0⟩ side 0 0 ?_ ?_⟩
    · cases side with
      | none => decide
      | some delta => simpa using (hfits delta rfl).1
    · cases side with
      | none => decide
      | some delta => simpa using (hfits delta rfl).2
  have hraise : ∀ {p : Prop} [Decidable p], ∃ n, (if p then raise 0 else .ok 0) = .ok n := by
    intro p _
    by_cases hp : p
    · exact ⟨1, by rw [if_pos hp]; rfl⟩
    · exact ⟨0, by rw [if_neg hp]⟩
  obtain ⟨ingress, hingress⟩ := hside r.ingress hin
  obtain ⟨egress, hegress⟩ := hside r.egress hout
  obtain ⟨repeated, hrepeated⟩ := @hraise
    ((r.ingress.any (fun side => side.packets > 1) || r.egress.any (fun side => side.packets > 1)) = true) _
  simp only [accumulateDelta_eq, WindowTotals.zero, hingress, hegress, hrepeated, bind, Except.bind]
  unfold correlate
  split
  · rename_i ingressSide egressSide _ _
    obtain ⟨first, hfirst⟩ := @hraise (egressSide.firstSeenNs < ingressSide.firstSeenNs) _
    dsimp only
    rw [hfirst]
    exact ⟨_, rfl⟩
  · exact ⟨_, rfl⟩

/-! ### Entries that gained bytes alone -/

/-- No entry gained bytes without a packet. -/
def Untorn (previous entries : List FingerprintEvidence) : Prop :=
  ∀ e ∈ entries, (gainOf previous e).packets = 0 → (gainOf previous e).bytes = 0

/-- A window counts the keys of the entries that gained something. -/
theorem gainedRelations_length (h : Distinct entries) (previous : List FingerprintEvidence) :
    (gainedRelations previous entries).length = ((movers previous entries).map (·.key.relation)).toFinset.card := by
  have hkeys : (Grouping.keysOf (·.key.relation) (movers previous entries)).toFinset =
      ((movers previous entries).map (·.key.relation)).toFinset := by
    ext key
    rw [List.mem_toFinset, List.mem_toFinset, Grouping.mem_keysOf, List.mem_map]
  rw [gainedRelations, relationsOf_eq _ (h.movers previous), List.length_map, ← hkeys,
    List.toFinset_card_of_nodup (Grouping.keysOf_nodup _)]

theorem mem_movers {e : FingerprintEvidence} : e ∈ movers previous entries ↔
    e ∈ entries ∧ ¬((gainOf previous e).packets = 0 ∧ (gainOf previous e).bytes = 0) := by
  rw [movers, List.mem_filter, decide_eq_true_iff]

/-- The relation of an entry that gained something has its gain as a side. -/
theorem gained_side (h : Distinct entries) {e : FingerprintEvidence} (he : e ∈ movers previous entries) :
    ∃ r ∈ (gainedRelations previous entries).map (·.2),
      r.ingress = (entryIn directionIngress (movers previous entries) e.key.relation).map (gainOf previous) ∧
      r.egress = (entryIn directionEgress (movers previous entries) e.key.relation).map (gainOf previous) := by
  refine ⟨⟨_, _⟩, ?_, rfl, rfl⟩
  rw [gainedRelations, relationsOf_eq _ (h.movers previous), List.map_map]
  exact List.mem_map.mpr ⟨_, Grouping.mem_keysOf.mpr ⟨e, he, rfl⟩, rfl⟩

/-- Every side of a relation is the gain of an entry that gained something. -/
theorem side_gained (h : Distinct entries) {r : Relation SideDelta}
    (hr : r ∈ (gainedRelations previous entries).map (·.2)) {side : SideDelta}
    (hside : r.ingress = some side ∨ r.egress = some side) : ∃ e ∈ movers previous entries, side = gainOf previous e := by
  rw [gainedRelations, relationsOf_eq _ (h.movers previous), List.map_map] at hr
  obtain ⟨key, -, rfl⟩ := List.mem_map.mp hr
  rcases hside with hside | hside
  · obtain ⟨e, he, rfl⟩ := Option.map_eq_some_iff.mp hside
    exact ⟨e, (entryIn_mem he).1, rfl⟩
  · obtain ⟨e, he, rfl⟩ := Option.map_eq_some_iff.mp hside
    exact ⟨e, (entryIn_mem he).1, rfl⟩

/-! ### The exact condition -/

/-- Entries that gained bytes with packets only are counted by packets. -/
theorem Untorn.length (h : Untorn previous entries) (hdistinct : Distinct entries) :
    (gainedRelations previous entries).length = (packetRelations previous entries).card := by
  have hmovers : movers previous entries = entries.filter fun e => 0 < (gainOf previous e).packets := by
    refine List.filter_congr fun e he => decide_eq_decide.mpr ⟨fun hgained => ?_, fun hpackets hboth => ?_⟩
    · exact Nat.pos_of_ne_zero fun hzero => hgained ⟨hzero, h e he hzero⟩
    · exact absurd hboth.1 hpackets.ne'
  rw [gainedRelations_length hdistinct, hmovers, packetRelations]

theorem Untorn.sides (h : Untorn previous entries) (hdistinct : Distinct entries) {r : Relation SideDelta}
    (hr : r ∈ (gainedRelations previous entries).map (·.2)) {side : SideDelta}
    (hside : r.ingress = some side ∨ r.egress = some side) : 0 < side.packets := by
  obtain ⟨e, he, rfl⟩ := side_gained hdistinct hr hside
  obtain ⟨hmem, hgained⟩ := mem_movers.mp he
  exact Nat.pos_of_ne_zero fun hzero => hgained ⟨hzero, h e hmem hzero⟩

/-- A turn that counts a relation as correlated has found both its sides. -/
theorem correlated_of_changed {t t' : WindowTotals} {r : Relation SideDelta} (h : accumulateDelta t r = .ok t')
    (hchanged : t'.egressFirstCorrelatedRelationCount ≠ t.egressFirstCorrelatedRelationCount ∨
      t'.maximumRatio ≠ t.maximumRatio) : ∃ ingress egress, r.ingress = some ingress ∧ r.egress = some egress := by
  obtain ⟨ingress, egress⟩ := r
  rw [accumulateDelta_counted h] at hchanged
  simp only [WindowTotals.counted, List.countP_singleton, List.foldl_cons, List.foldl_nil] at hchanged
  cases ingress with
  | none =>
    rcases hchanged with hcount | hratio
    · exact absurd rfl hcount
    · exact absurd rfl hratio
  | some ingress =>
    cases egress with
    | none =>
      rcases hchanged with hcount | hratio
      · exact absurd rfl hcount
      · exact absurd rfl hratio
    | some egress => exact ⟨ingress, egress, rfl, rfl⟩

/-- The condition in the values of the entries. -/
theorem untorn_iff (hvalid : ∀ e ∈ entries, e.value.packets ≠ 0) (hprevious : (previous.map (·.key.exact)).Nodup)
    (hn : NonRegressing previous entries) :
    Untorn previous entries ↔ ∀ e ∈ entries, ∀ old ∈ previous, old.key.exact = e.key.exact →
      old.value.packets = e.value.packets → old.value.bytes = e.value.bytes := by
  refine forall₂_congr fun e he => ?_
  have hok := hn e he
  cases hfound : previous.find? (fun old => old.key.exact = e.key.exact) with
  | none =>
    have hgain : gainOf previous e = ⟨e.value.firstSeenNs, e.value.packets, e.value.bytes⟩ := by
      rw [gainOf, entryDelta, hfound]
    rw [hgain]
    refine ⟨fun _ old hold hkey => ?_, fun _ hzero => absurd hzero (hvalid e he)⟩
    exact absurd (decide_eq_true hkey) (List.find?_eq_none.mp hfound old hold)
  | some old =>
    have hkey : old.key.exact = e.key.exact := by simpa using List.find?_some hfound
    have honly : ∀ old' ∈ previous, old'.key.exact = e.key.exact → old' = old := fun old' hold' hkey' =>
      List.inj_on_of_nodup_map hprevious hold' (List.mem_of_find?_eq_some hfound) (hkey'.trans hkey.symm)
    unfold entryDelta at hok
    unfold gainOf entryDelta
    rw [hfound] at hok ⊢
    dsimp only at hok ⊢
    split at hok
    · cases hok
    · rename_i himmutable
      split at hok
      · cases hok
      · rename_i hregressed
        rw [if_neg himmutable, if_neg hregressed]
        dsimp only
        constructor
        · intro huntorn old' hold' hkey' hpackets
          rw [honly old' hold' hkey'] at hpackets ⊢
          omega
        · intro huntorn hzero
          have hbytes := huntorn old (List.mem_of_find?_eq_some hfound) hkey (by omega)
          omega

/-- An entry that gained bytes alone, of a relation with both sides, shows in what is counted as correlated. -/
theorem torn_alone (hdistinct : Distinct entries) (hsized : Sized entries)
    (hcorrelated : ∀ r ∈ (gainedRelations previous entries).map (·.2), ∀ t t', accumulateDelta t r = .ok t' →
      t'.egressFirstCorrelatedRelationCount ≠ t.egressFirstCorrelatedRelationCount ∨ t'.maximumRatio ≠ t.maximumRatio →
      GainedPackets r.ingress ∧ GainedPackets r.egress)
    (hmoved : item ∈ movers previous entries) (hzero : (gainOf previous item).packets = 0) :
    ¬((entryIn directionIngress (movers previous entries) item.key.relation).isSome ∧
      (entryIn directionEgress (movers previous entries) item.key.relation).isSome) := by
  rintro ⟨hsomeIn, hsomeOut⟩
  obtain ⟨r, hr, hin, hout⟩ := gained_side hdistinct hmoved
  have hself := (hdistinct.movers previous).entryIn hmoved
  have hfits : ∀ side, r.ingress = some side ∨ r.egress = some side → side.packets < u64Bound ∧ side.bytes < u64Bound := by
    intro side hside
    obtain ⟨x, hx, rfl⟩ := side_gained hdistinct hr hside
    exact gainOf_fits hsized (mem_movers.mp hx).1 _
  obtain ⟨t, ht⟩ := accumulateDelta_zero (fun side hside => hfits side (.inl hside)) (fun side hside => hfits side (.inr hside))
  have hratio : t.maximumRatio ≠ WindowTotals.zero.maximumRatio := by
    obtain ⟨ingress, hingress⟩ := Option.isSome_iff_exists.mp hsomeIn
    obtain ⟨egress, hegress⟩ := Option.isSome_iff_exists.mp hsomeOut
    rw [hingress] at hin
    rw [hegress] at hout
    rw [accumulateDelta_counted ht]
    simp only [WindowTotals.counted, List.foldl_cons, List.foldl_nil, Relation.maximize, hin, hout, Option.map_some]
    exact Option.some_ne_none _
  obtain ⟨hgainedIn, hgainedOut⟩ := hcorrelated r hr _ _ ht (.inr hratio)
  rcases hdistinct.directions item (mem_movers.mp hmoved).1 with hdirection | hdirection
  · obtain ⟨delta, hdelta, hpackets⟩ := hgainedIn
    rw [hin, ← hdirection, hself] at hdelta
    cases hdelta
    exact absurd hzero hpackets.ne'
  · obtain ⟨delta, hdelta, hpackets⟩ := hgainedOut
    rw [hout, ← hdirection, hself] at hdelta
    cases hdelta
    exact absurd hzero hpackets.ne'

/-- One that is alone in its relation makes a relation without packets. -/
theorem torn_counted (hdistinct : Distinct entries) (hmoved : item ∈ movers previous entries)
    (hzero : (gainOf previous item).packets = 0)
    (halone : ¬((entryIn directionIngress (movers previous entries) item.key.relation).isSome ∧
      (entryIn directionEgress (movers previous entries) item.key.relation).isSome)) :
    (packetRelations previous entries).card < (gainedRelations previous entries).length := by
  have hmover : ∀ x ∈ entries, 0 < (gainOf previous x).packets → x ∈ movers previous entries :=
    fun x hx hpackets => mem_movers.mpr ⟨hx, fun hboth => absurd hboth.1 hpackets.ne'⟩
  rw [gainedRelations_length hdistinct]
  refine Finset.card_lt_card (Finset.ssubset_iff_of_subset ?_ |>.mpr ⟨item.key.relation, ?_, ?_⟩)
  · intro key hkey
    obtain ⟨x, hx, rfl⟩ := List.mem_map.mp (List.mem_toFinset.mp hkey)
    obtain ⟨hmem, hpackets⟩ := List.mem_filter.mp hx
    exact List.mem_toFinset.mpr (List.mem_map.mpr ⟨x, hmover x hmem (of_decide_eq_true hpackets), rfl⟩)
  · exact List.mem_toFinset.mpr (List.mem_map.mpr ⟨item, hmoved, rfl⟩)
  · intro hkey
    obtain ⟨x, hx, hrelation⟩ := List.mem_map.mp (List.mem_toFinset.mp hkey)
    obtain ⟨hmem, hpackets⟩ := List.mem_filter.mp hx
    have hpositive := of_decide_eq_true hpackets
    have hself := (hdistinct.movers previous).entryIn hmoved
    have hselfx := (hdistinct.movers previous).entryIn (hmover x hmem hpositive)
    rw [hrelation] at hselfx
    by_cases hdirection : x.key.direction = item.key.direction
    · rw [hdirection, hself] at hselfx
      cases hselfx
      exact absurd hzero hpositive.ne'
    · refine halone ?_
      rcases hdistinct.directions item (mem_movers.mp hmoved).1 with hin | hout <;>
        rcases hdistinct.directions x hmem with hinx | houtx
      · exact absurd (hinx.trans hin.symm) hdirection
      · rw [← hin, ← houtx, hself, hselfx]
        exact ⟨rfl, rfl⟩
      · rw [← hout, ← hinx, hself, hselfx]
        exact ⟨rfl, rfl⟩
      · exact absurd (houtx.trans hout.symm) hdirection

end

/-- **When a window counts packets**: exactly when no entry gained bytes without a packet. -/
theorem counted_by_packets_iff (identity : RateIdentity) {before after previous current : List FingerprintEvidence}
    (hbefore : validateScan identity before = .ok previous) (hafter : validateScan identity after = .ok current)
    (hn : NonRegressing previous current) {startNs startMs endNs endMs coverageMs : Nat} (hclock : startMs ≤ endMs)
    (hlow : 10000 ≤ coverageMs) (hhigh : coverageMs ≤ 15000) :
    CountedByPackets ⟨startNs, startMs, previous⟩ ⟨endNs, endMs, current⟩ coverageMs ↔
      ∀ e ∈ current, ∀ old ∈ previous, old.key.exact = e.key.exact →
        old.value.packets = e.value.packets → old.value.bytes = e.value.bytes := by
  obtain ⟨hreportable, rfl⟩ := validateScan_eq_ok.mp hbefore
  obtain ⟨hreportable', rfl⟩ := validateScan_eq_ok.mp hafter
  have hsorted := hreportable'.sorted
  have hdistinct := hsorted.distinct
  have hcollect := collected_relations hn hdistinct.directions
  rw [← untorn_iff hsorted.packets hreportable.sorted.nodup hn]
  constructor
  · intro hcounted e he hzero
    by_contra hbytes
    have hmoved : e ∈ movers (sortEntries before) (sortEntries after) := mem_movers.mpr ⟨he, fun hboth => hbytes hboth.2⟩
    have halone := torn_alone hdistinct hsorted.sized (hcounted.correlated _ hcollect) hmoved hzero
    have hfewer := torn_counted hdistinct hmoved hzero halone
    cases hbuild : buildWindow ⟨startNs, startMs, sortEntries before⟩ ⟨endNs, endMs, sortEntries after⟩ coverageMs with
    | ok report =>
      have hcount := hcounted.relations report hbuild
      rw [(buildWindow_eq hdistinct.directions hbuild).2] at hcount
      exact absurd hcount hfewer.ne'
    | error error =>
      rw [buildWindow_error hdistinct.directions hn hbuild] at hbuild
      exact hsorted.sized.not_overflowing _ (hcounted.fails hbuild)
  · intro huntorn
    have hlopsided : lopsided (sortEntries before) (sortEntries after) = false := by
      refine not_lopsided fun e he delta hdelta hzero => ?_
      rw [← gainOf_ok hdelta] at hzero ⊢
      exact huntorn e he hzero
    obtain ⟨n, t, hbuild⟩ := buildWindow_ok ⟨startNs, startMs, sortEntries before⟩ ⟨endNs, endMs, sortEntries after⟩ hsorted.sized
      hn hlopsided hclock hlow hhigh
    refine ⟨fun report hreport => ?_, fun relations hrelations r hr t t' hturn hchanged => ?_, fun hfails => ?_⟩
    · rw [(buildWindow_eq hdistinct.directions hreport).2]
      exact huntorn.length hdistinct
    · rw [hcollect] at hrelations
      cases hrelations
      obtain ⟨ingress, egress, hingress, hegress⟩ := correlated_of_changed hturn hchanged
      exact ⟨⟨ingress, hingress, huntorn.sides hdistinct hr (.inl hingress)⟩,
        ⟨egress, hegress, huntorn.sides hdistinct hr (.inr hegress)⟩⟩
    · rw [hbuild] at hfails
      cases hfails

/-! ### A torn scan -/

/-- Both directions gain packets with their bytes. -/
theorem whole_scan_counted : CountedByPackets ⟨0, 0, sortEntries [flowEntry 1 5 320, flowEntry 2 5 320]⟩
    ⟨10000000000, 10000, sortEntries [flowEntry 1 25 1600, flowEntry 2 6 384]⟩ 10000 :=
  (@counted_by_packets_iff ⟨3, 1, by decide, by decide⟩ [flowEntry 1 5 320, flowEntry 2 5 320]
    [flowEntry 1 25 1600, flowEntry 2 6 384] _ _ rfl rfl (by decide) _ _ _ _ _ (by decide) (by decide) (by decide)).mpr (by decide)

/-- The first scan came between the packets and the bytes of an egress sample: the window fails. -/
theorem torn_scan_not_counted :
    NonRegressing (sortEntries [flowEntry 1 5 320, flowEntry 2 6 320]) (sortEntries [flowEntry 1 25 1600, flowEntry 2 6 384]) ∧
      buildWindow ⟨0, 0, sortEntries [flowEntry 1 5 320, flowEntry 2 6 320]⟩
        ⟨10000000000, 10000, sortEntries [flowEntry 1 25 1600, flowEntry 2 6 384]⟩ 10000 = .error .calculationFailed ∧
      ¬CountedByPackets ⟨0, 0, sortEntries [flowEntry 1 5 320, flowEntry 2 6 320]⟩
        ⟨10000000000, 10000, sortEntries [flowEntry 1 25 1600, flowEntry 2 6 384]⟩ 10000 := by
  refine ⟨by decide, by rfl, fun hcounted => ?_⟩
  have hsized : Sized (sortEntries [flowEntry 1 25 1600, flowEntry 2 6 384]) :=
    ⟨by decide, by decide, by decide, by decide, by decide, by decide⟩
  exact hsized.not_overflowing _ (hcounted.fails (by rfl))

end NetworkLoop.Observation
