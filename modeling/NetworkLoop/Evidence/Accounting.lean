import NetworkLoop.Library.Table
import NetworkLoop.Evidence.Recovery

/-! The counters of the store against its index.

`recover` and `put` leave the counters right whatever happens outside
(`kept_recover`, `kept_put`). `enforce_retention` takes an event out of the index as soon
as it is gone from the disk, but settles the counters only after its loop: a removal that
does not go through leaves them as they were before the call (`reclaim_cases`,
`reclaim_stuck`). -/
namespace NetworkLoop.Evidence
open Library Observation Table

def bytesOf (eventId : EventId) (detail : Indexed eventId) : Nat := detail.bundleBytes

/-- The counters of the health are those of the index. -/
def LinuxEvidenceStore.Accounted (s : LinuxEvidenceStore) : Prop :=
  s.health.eventCount = s.index.keys.length ∧ s.health.totalBytes = tally bytesOf s.index

/-- No counter has come near its width. -/
structure LinuxEvidenceStore.Kept (s : LinuxEvidenceStore) : Prop where
  accounted : s.Accounted
  count : s.index.keys.length ≤ evidenceMaxEvents
  bytes : s.health.totalBytes < u64Bound

variable {F : Formats} {o : Outside} {t : Disk}

/-! ### Recovery -/

/-- The bytes that one event can have on disk. -/
def maxBundleBytes : Nat := evidenceMaxRevisionsPerEvent * evidenceMaxEventBytes

theorem manifest_totalBytes_le {m : EvidenceManifestV1} (h : m.validate = true) : m.totalBytes ≤ evidenceMaxEventBytes := by
  simp only [EvidenceManifestV1.validate, Bool.not_eq_true', Bool.or_eq_false_iff, decide_eq_false_iff_not] at h
  omega

theorem adoptRevision_totals {eventId : EventId} (found : RecoveredEvent eventId) (name : String) :
    (adoptRevision F o eventId t found name).health.totalBytes = found.health.totalBytes := by
  unfold adoptRevision
  split
  · rfl
  · split
    · rfl
    · split <;> rfl

theorem adoptRevision_bytes {eventId : EventId} (found : RecoveredEvent eventId) (name : String) :
    (adoptRevision F o eventId t found name).eventBytes ≤
      found.eventBytes + (revisionsIn [name]).length * evidenceMaxEventBytes := by
  unfold adoptRevision
  split
  · exact Nat.le_add_right ..
  · split
    · exact Nat.le_add_right ..
    · rename_i revisionNumber hparse
      have hlength : (revisionsIn [name]).length = 1 := by
        rw [revisionsIn, List.filterMap_cons_some hparse]
        rfl
      rw [hlength, Nat.one_mul]
      split
      · rename_i stored hread
        obtain ⟨_, _, -, -, -, hmatches⟩ := (readRevision_eq_ok hread).files
        have hbytes := manifest_totalBytes_le hmatches.manifest
        exact Nat.le_trans (Nat.min_le_left ..) (Nat.add_le_add_left hbytes _)
      · exact Nat.le_add_right ..
      · exact Nat.le_add_right ..

theorem foldl_adoptRevision {eventId : EventId} (names : List String) (found : RecoveredEvent eventId) :
    (names.foldl (adoptRevision F o eventId t) found).health.totalBytes = found.health.totalBytes ∧
      (names.foldl (adoptRevision F o eventId t) found).eventBytes ≤
        found.eventBytes + (revisionsIn names).length * evidenceMaxEventBytes := by
  induction names generalizing found with
  | nil => exact ⟨rfl, Nat.le_add_right ..⟩
  | cons name rest ih =>
    obtain ⟨htotals, hbytes⟩ := ih (adoptRevision F o eventId t found name)
    refine ⟨htotals.trans (adoptRevision_totals found name), ?_⟩
    have hfirst := adoptRevision_bytes (F := F) (o := o) (t := t) found name
    have hlength : (revisionsIn (name :: rest)).length = (revisionsIn [name]).length + (revisionsIn rest).length := by
      rw [revisionsIn, revisionsIn, revisionsIn, ← List.length_append, ← List.filterMap_append]
      rfl
    rw [hlength, Nat.add_mul]
    show (rest.foldl _ (adoptRevision F o eventId t found name)).eventBytes ≤ _
    omega

/-- An event on disk is small, and reading it moves no totals. -/
theorem recoverEvent_bounds {eventId : EventId} {health health' : EvidenceStoreHealth} {detail : Option (Indexed eventId)}
    (h : recoverEvent F o eventId health t = .ok (detail, health')) :
    health'.totalBytes = health.totalBytes ∧ ∀ x ∈ detail, x.bundleBytes ≤ maxBundleBytes := by
  unfold recoverEvent at h
  split at h
  · cases h
    simp
  · split at h
    · cases h
    · rename_i names hnames
      cases h
      obtain ⟨htotals, hbytes⟩ := foldl_adoptRevision (F := F) (o := o) (t := t) names
        (⟨health, none, 0⟩ : RecoveredEvent eventId)
      refine ⟨htotals, ?_⟩
      intro x hx
      obtain ⟨stored, -, rfl⟩ := Option.map_eq_some_iff.mp hx
      have hlength : (revisionsIn names).length ≤ evidenceMaxRevisionsPerEvent := by
        rw [(readDirectory_eq_ok.mp hnames).2.2]
        exact length_revisionsIn (sortedNames_nodup ..)
      calc (names.foldl (adoptRevision F o eventId t) ⟨health, none, 0⟩).eventBytes
          ≤ 0 + (revisionsIn names).length * evidenceMaxEventBytes := hbytes
        _ ≤ maxBundleBytes := by
          rw [Nat.zero_add]
          exact Nat.mul_le_mul_right _ hlength

/-- The counters of the loop of `recover`. -/
structure Recovering.Counted (found : Recovering) : Prop where
  totals : found.health.totalBytes = tally bytesOf found.index
  count : found.index.keys.length ≤ found.canonicalEvents
  canonical : found.canonicalEvents ≤ evidenceMaxEvents
  small : tally bytesOf found.index ≤ found.index.keys.length * maxBundleBytes

theorem keys_insert_new {index : Index} {eventId : EventId} (h : index.lookup eventId = none) (detail : Indexed eventId) :
    (index.insert eventId detail).keys.length = index.keys.length + 1 := by
  rw [length_eq_tally, length_eq_tally]
  have hinsert := tally_insert (fun _ _ => 1) index detail
  rwa [measure_of_none _ _ h] at hinsert

theorem keys_insert_old {index : Index} {eventId : EventId} (h : index.lookup eventId ≠ none) (detail : Indexed eventId) :
    (index.insert eventId detail).keys.length = index.keys.length := by
  obtain ⟨old, hold⟩ := Option.ne_none_iff_exists'.mp h
  rw [length_eq_tally, length_eq_tally]
  have hinsert := tally_insert (fun _ _ => 1) index detail
  rw [measure_of_lookup _ _ hold] at hinsert
  exact Nat.add_right_cancel hinsert

theorem adoptEvent_counted {found found' : Recovering} {name : String} (hc : found.Counted)
    (hnew : ∀ eventId, name = eventName eventId → found.index.lookup eventId = none)
    (h : adoptEvent F o t found name = .ok found') :
    found'.Counted ∧ ∀ eventId, found'.index.lookup eventId ≠ none →
      found.index.lookup eventId ≠ none ∨ name = eventName eventId := by
  unfold adoptEvent at h
  split at h
  · cases h
    exact ⟨⟨hc.totals, hc.count, hc.canonical, hc.small⟩, fun _ hmem => .inl hmem⟩
  · rename_i eventId hname
    have hnone := hnew eventId (canonicalEvent_iff.mp hname)
    split at h
    case isTrue =>
      cases h
      exact ⟨⟨hc.totals, hc.count, hc.canonical, hc.small⟩, fun _ hmem => .inl hmem⟩
    case isFalse hroom =>
      obtain ⟨⟨detail, health⟩, hevent, hrest⟩ := bind_eq_ok.mp h
      obtain ⟨htotals, hsmall⟩ := recoverEvent_bounds hevent
      have hcanonical := Nat.not_le.mp hroom
      cases detail with
      | none =>
        cases hrest
        exact ⟨⟨htotals.trans hc.totals, Nat.le_succ_of_le hc.count, hcanonical, hc.small⟩, fun _ hmem => .inl hmem⟩
      | some detail =>
        cases hrest
        have hbytes := hsmall detail rfl
        have htally := tally_insert bytesOf found.index detail
        rw [measure_of_none _ _ hnone, Nat.add_zero] at htally
        change _ = _ + detail.bundleBytes at htally
        have hkeys := keys_insert_new hnone detail
        have hcount := hc.count
        have hsmall' := hc.small
        have hfits : found.index.keys.length * maxBundleBytes ≤ evidenceMaxEvents * maxBundleBytes :=
          Nat.mul_le_mul_right _ (hcount.trans hcanonical.le)
        have hwidth : evidenceMaxEvents * maxBundleBytes + maxBundleBytes < u64Bound := by decide
        refine ⟨⟨?_, ?_, hcanonical, ?_⟩, ?_⟩
        · show saturatingAdd health.totalBytes detail.bundleBytes = _
          rw [saturatingAdd, htotals, hc.totals, htally]
          omega
        · rw [hkeys]
          exact Nat.succ_le_succ hcount
        · rw [hkeys, htally, Nat.add_mul, Nat.one_mul]
          omega
        · intro eventId' hmem
          by_cases heq : eventId' = eventId
          · exact .inr (heq ▸ canonicalEvent_iff.mp hname)
          · rw [AList.lookup_insert_ne heq] at hmem
            exact .inl hmem

theorem foldlM_adoptEvent {names : List String} {found found' : Recovering} (hnodup : names.Nodup) (hc : found.Counted)
    (hnew : ∀ eventId, eventName eventId ∈ names → found.index.lookup eventId = none)
    (h : names.foldlM (adoptEvent F o t) found = .ok found') : found'.Counted := by
  induction names generalizing found with
  | nil =>
    cases h
    exact hc
  | cons name rest ih =>
    rw [List.foldlM_cons] at h
    obtain ⟨next, hnext, hrest⟩ := bind_eq_ok.mp h
    obtain ⟨hnotin, hrestNodup⟩ := List.nodup_cons.mp hnodup
    obtain ⟨hcounted, hmem⟩ := adoptEvent_counted hc
      (fun eventId hname => hnew eventId (hname ▸ List.mem_cons_self)) hnext
    refine ih hrestNodup hcounted ?_ hrest
    intro eventId hin
    by_contra hne
    rcases hmem eventId hne with hold | hname
    · exact hold (hnew eventId (List.mem_cons_of_mem _ hin))
    · exact hnotin (hname ▸ hin)

/-- What `recover` reads has its counters right. -/
theorem kept_recovered {packageVersion : PackageVersion} {index : Index} {health : EvidenceStoreHealth}
    (h : LinuxEvidenceStore.recovered F o t = .ok (index, health)) :
    (⟨packageVersion, index, health⟩ : LinuxEvidenceStore).Kept := by
  obtain ⟨-, -, hrest⟩ := bind_eq_ok.mp h
  obtain ⟨names, hnames, hrest⟩ := bind_eq_ok.mp hrest
  obtain ⟨found, hfound, hlast⟩ := bind_eq_ok.mp hrest
  have hsorted := (readDirectory_eq_ok.mp (mapError_eq_ok.mp hnames)).2.2
  have hnodup : names.Nodup := hsorted ▸ sortedNames_nodup t []
  have hcounted := foldlM_adoptEvent hnodup ⟨rfl, le_rfl, Nat.zero_le _, Nat.zero_le _⟩ (fun _ _ => rfl) hfound
  cases hlast
  have hcount := hcounted.count.trans hcounted.canonical
  have hwidth : evidenceMaxEvents * maxBundleBytes < u64Bound ∧ evidenceMaxEvents ≤ 65535 := by decide
  have hfits : found.index.keys.length * maxBundleBytes ≤ evidenceMaxEvents * maxBundleBytes :=
    Nat.mul_le_mul_right _ hcount
  refine ⟨⟨Nat.min_eq_left (hcount.trans hwidth.2), hcounted.totals⟩, hcount, ?_⟩
  show found.health.totalBytes < u64Bound
  rw [hcounted.totals]
  exact (hcounted.small.trans hfits).trans_lt hwidth.1

theorem kept_recover {s : LinuxEvidenceStore} (hk : s.Kept) : (s.recover F o t).2.Kept := by
  unfold LinuxEvidenceStore.recover
  split
  · exact hk
  · rename_i index health h
    exact kept_recovered h

theorem kept_openRoot {packageVersion : PackageVersion} {s : LinuxEvidenceStore}
    (h : LinuxEvidenceStore.openRoot F o packageVersion t = .ok s) : s.Kept := by
  obtain ⟨⟨index, health⟩, hrecovered, hs⟩ := bind_eq_ok.mp h
  cases hs
  exact kept_recovered hrecovered

/-! ### Storing -/

theorem increment_of_lt {n : Nat} (h : n < 65535) : increment n = n + 1 := Nat.min_eq_left h

theorem saturatingAdd_of_lt {a b : Nat} (h : a + b < u64Bound) : saturatingAdd a b = a + b :=
  Nat.min_eq_left (Nat.le_sub_one_of_lt h)

/-- What `admission` checks. -/
structure Admits (F : Formats) (s : LinuxEvidenceStore) (revision : IncidentRevisionV1) (admitted : Admitted) : Prop where
  valid : revision.validate = true
  next : revision.revision = s.expected revision.eventId
  identity : ∀ previous ∈ s.index.lookup revision.eventId, previous.latest.interface = revision.interface ∧
    previous.latest.ifindex = revision.ifindex ∧ previous.latest.interfaceGeneration = revision.interfaceGeneration ∧
    previous.latest.openedAtUnixMs = revision.openedAtUnixMs
  json : F.revisionJson revision = some admitted.evidence
  evidence : admitted.evidence ≠ [] ∧ admitted.evidence.length ≤ evidenceMaxRevisionBytes
  manifest : buildManifest F revision admitted.evidence s.packageVersion = .ok (admitted.manifest, admitted.manifestBytes)
  eventBytes : admitted.eventBytes = measure bytesOf s.index revision.eventId + admitted.manifest.totalBytes
  event : admitted.eventBytes ≤ evidenceMaxEventBytes
  total : s.health.totalBytes + admitted.manifest.totalBytes ≤ evidenceMaxStoreBytes
  room : s.index.lookup revision.eventId = none → s.index.keys.length < evidenceMaxEvents

theorem checkedAdd_any {a b : Nat} {p : Nat → Bool} : (checkedAdd a b).any p = true ↔ a + b < u64Bound ∧ p (a + b) = true := by
  unfold checkedAdd
  split <;> simp [*]

theorem fits_total {a b : Nat} : (checkedAdd a b).any (· ≤ evidenceMaxStoreBytes) = true ↔ a + b ≤ evidenceMaxStoreBytes := by
  have hstore : evidenceMaxStoreBytes < u64Bound := by decide
  rw [checkedAdd_any, decide_eq_true_iff]
  exact ⟨And.right, fun h => ⟨h.trans_lt hstore, h⟩⟩

theorem checkedAdd_of_lt {a b : Nat} (h : a + b < u64Bound) : checkedAdd a b = some (a + b) := if_pos h

theorem admission_eq_ok {s : LinuxEvidenceStore} {revision : IncidentRevisionV1} {admitted : Admitted} :
    s.admission F revision = .ok admitted ↔ Admits F s revision admitted := by
  unfold LinuxEvidenceStore.admission
  simp only [bind_eq_ok, exists_unit_iff, require_eq_ok, required_eq_ok, Except.ok.injEq, fits_total]
  constructor
  · rintro ⟨hvalid, hconflict, hsequence, hidentity, evidence, hjson, hevidence, ⟨manifest, manifestBytes⟩, hmanifest,
      eventBytes, hbytes, hevent, htotal, hroom, rfl⟩
    refine ⟨hvalid, by omega, hidentity, hjson, hevidence, hmanifest, checkedAdd_eq_some hbytes, hevent, htotal, ?_⟩
    intro hnone
    by_contra hfull
    exact hroom ⟨hnone, Nat.not_lt.mp hfull⟩
  · intro h
    have hmax : evidenceMaxEventBytes < u64Bound := by decide
    have hbytes := h.eventBytes
    have hwidth : measure bytesOf s.index revision.eventId + admitted.manifest.totalBytes < u64Bound :=
      hbytes ▸ h.event.trans_lt hmax
    refine ⟨h.valid, by rw [h.next]; exact lt_irrefl _, by rw [h.next]; exact lt_irrefl _, h.identity, admitted.evidence, h.json,
      h.evidence, (admitted.manifest, admitted.manifestBytes), h.manifest, admitted.eventBytes, ?_, h.event, h.total, ?_, rfl⟩
    · rw [hbytes]
      exact checkedAdd_of_lt hwidth
    · rintro ⟨hnone, hfull⟩
      exact absurd (h.room hnone) (Nat.not_lt.mpr hfull)

/-- What `admission` has checked of the sizes. -/
structure Sized (s : LinuxEvidenceStore) (revision : IncidentRevisionV1) (admitted : Admitted) : Prop where
  eventBytes : admitted.eventBytes = measure bytesOf s.index revision.eventId + admitted.manifest.totalBytes
  total : s.health.totalBytes + admitted.manifest.totalBytes ≤ evidenceMaxStoreBytes
  room : s.index.lookup revision.eventId = none → s.index.keys.length < evidenceMaxEvents

theorem sized_of_admission {s : LinuxEvidenceStore} {revision : IncidentRevisionV1} {admitted : Admitted}
    (h : s.admission F revision = .ok admitted) : Sized s revision admitted :=
  have hadmits := admission_eq_ok.mp h
  ⟨hadmits.eventBytes, hadmits.total, hadmits.room⟩

namespace Sized
variable {s : LinuxEvidenceStore} {revision : IncidentRevisionV1} {admitted : Admitted} (h : Sized s revision admitted)
include h

theorem fits : s.health.totalBytes + admitted.manifest.totalBytes < u64Bound :=
  h.total.trans_lt (by decide)

/-- The sizes that are admitted are not saturated. -/
theorem saturatingAdd_eq : saturatingAdd s.health.totalBytes admitted.manifest.totalBytes =
    s.health.totalBytes + admitted.manifest.totalBytes :=
  saturatingAdd_of_lt h.fits

/-- The event that is admitted has room. -/
theorem count_stored (hcount : s.index.keys.length ≤ evidenceMaxEvents) :
    (s.stored revision admitted).index.keys.length ≤ evidenceMaxEvents := by
  by_cases hnone : s.index.lookup revision.eventId = none
  · rw [LinuxEvidenceStore.stored, keys_insert_new hnone]
    exact h.room hnone
  · rw [LinuxEvidenceStore.stored, keys_insert_old hnone]
    exact hcount

theorem bytes_stored : (s.stored revision admitted).health.totalBytes < u64Bound := by
  show saturatingAdd s.health.totalBytes admitted.manifest.totalBytes < u64Bound
  rw [h.saturatingAdd_eq]
  exact h.fits

end Sized

theorem kept_stored {s : LinuxEvidenceStore} (hk : s.Kept) {revision : IncidentRevisionV1} {admitted : Admitted}
    (h : Sized s revision admitted) : (s.stored revision admitted).Kept := by
  have hevents : evidenceMaxEvents < 65535 := by decide
  have htally := tally_insert bytesOf s.index (⟨revision, admitted.eventBytes, rfl⟩ : Indexed revision.eventId)
  have hbytes := h.eventBytes
  change _ = _ + admitted.eventBytes at htally
  have haccounted := hk.accounted
  refine ⟨⟨?_, ?_⟩, h.count_stored hk.count, h.bytes_stored⟩
  · show (if s.index.lookup revision.eventId = none then increment s.health.eventCount else s.health.eventCount) = _
    split
    case isTrue hnone =>
      rw [LinuxEvidenceStore.stored, keys_insert_new hnone, haccounted.1]
      exact increment_of_lt ((h.room hnone).trans hevents)
    case isFalse hsome => rw [LinuxEvidenceStore.stored, keys_insert_old hsome, haccounted.1]
  · show saturatingAdd s.health.totalBytes admitted.manifest.totalBytes = tally bytesOf (s.index.insert _ _)
    rw [h.saturatingAdd_eq, haccounted.2]
    omega

theorem kept_put {s : LinuxEvidenceStore} (hk : s.Kept) (temporary : Temporary) (revision : IncidentRevisionV1) :
    (s.put o F temporary revision t).2.1.Kept := by
  unfold LinuxEvidenceStore.put
  split
  · exact hk
  · rename_i admitted hadmitted
    obtain ⟨-, -, hadmission⟩ := bind_eq_ok.mp hadmitted
    split
    · exact hk
    · exact kept_stored hk (sized_of_admission hadmission)

/-! ### Retention -/

/-- The removal of an event goes through, from the look at its directory to the sync of
the root. -/
structure Removable (o : Outside) (t : Disk) (c : Candidate) : Prop where
  directory : o.validatePrivateDirectory [eventName c.eventId] .retentionUnavailable t = .ok ()
  removal : o.failure .removeEventDirectory [eventName c.eventId] = none
  sync : o.failure .syncAfterRemoval [eventName c.eventId] = none

/-- Each of the candidates has to go once those before it are gone. -/
def Needed (request : RetentionRequest) (health : EvidenceStoreHealth) : Nat → Nat → List Candidate → Prop
  | _, _, [] => True
  | reclaimed, deleted, c :: rest =>
    request.suffices health reclaimed deleted c = false ∧
      Needed request health (reclaimed + c.bundleBytes) (deleted + 1) rest

/-- The candidates are events of the index, each once, and nothing overflows. -/
structure Reclaims (candidates : List Candidate) (s : Reclaiming) : Prop where
  lookup : ∀ c ∈ candidates, (s.index.lookup c.eventId).map (·.bundleBytes) = some c.bundleBytes
  nodup : (candidates.map Candidate.eventId).Nodup
  width : s.reclaimed + tally bytesOf s.index < u64Bound

/-- The loop state after a removal that went through. -/
def Reclaiming.without (s : Reclaiming) (c : Candidate) : Reclaiming where
  disk := s.disk.prune [eventName c.eventId] fun _ => false
  index := s.index.erase c.eventId
  reclaimed := s.reclaimed + c.bundleBytes
  deletedEventIds := s.deletedEventIds ++ [c.eventId]

variable {request : RetentionRequest} {health : EvidenceStoreHealth} {s : Reclaiming} {c : Candidate}
  {rest : List Candidate}

theorem measure_of_map {index : Index} (h : (index.lookup c.eventId).map (·.bundleBytes) = some c.bundleBytes) :
    measure bytesOf index c.eventId = c.bundleBytes := by
  obtain ⟨detail, hdetail, hbytes⟩ := Option.map_eq_some_iff.mp h
  rw [measure_of_lookup _ _ hdetail]
  exact hbytes

theorem tally_without (h : (s.index.lookup c.eventId).map (·.bundleBytes) = some c.bundleBytes) :
    (s.without c).reclaimed + tally bytesOf (s.without c).index = s.reclaimed + tally bytesOf s.index := by
  have herase := tally_erase bytesOf s.index (k := c.eventId)
  rw [measure_of_map h] at herase
  show s.reclaimed + c.bundleBytes + tally bytesOf (s.index.erase c.eventId) = _
  omega

theorem length_without (h : (s.index.lookup c.eventId).map (·.bundleBytes) = some c.bundleBytes) :
    (s.without c).index.keys.length + 1 = s.index.keys.length := by
  obtain ⟨detail, hdetail, -⟩ := Option.map_eq_some_iff.mp h
  have herase := tally_erase (fun _ _ => 1) s.index (k := c.eventId)
  rw [measure_of_lookup _ _ hdetail, ← length_eq_tally, ← length_eq_tally] at herase
  exact herase

theorem Reclaims.without (h : Reclaims (c :: rest) s) : Reclaims rest (s.without c) := by
  obtain ⟨hnotin, hnodup⟩ := List.nodup_cons.mp h.nodup
  refine ⟨?_, hnodup, (tally_without (h.lookup c List.mem_cons_self)).trans_lt h.width⟩
  intro d hd
  have hne : d.eventId ≠ c.eventId := fun heq => hnotin (heq ▸ List.mem_map_of_mem hd)
  show ((s.index.erase c.eventId).lookup d.eventId).map (·.bundleBytes) = _
  rw [AList.lookup_erase_ne hne]
  exact h.lookup d (List.mem_cons_of_mem _ hd)

/-- The removal of one event is nothing to another one's directory. -/
theorem removable_without (h : Reclaims (c :: rest) s) {d : Candidate} (hd : d ∈ rest) :
    Removable o (s.without c).disk d ↔ Removable o s.disk d := by
  have hne : ¬[eventName c.eventId] <+: [eventName d.eventId] := by
    intro hprefix
    have heq := eventName_injective (List.cons_prefix_cons.mp hprefix).1
    exact (List.nodup_cons.mp h.nodup).1 (heq ▸ List.mem_map_of_mem hd)
  have hdirectory : o.validatePrivateDirectory [eventName d.eventId] .retentionUnavailable (s.without c).disk =
      o.validatePrivateDirectory [eventName d.eventId] .retentionUnavailable s.disk := by
    unfold Outside.validatePrivateDirectory Outside.metadata
    rw [Reclaiming.without, FileTree.get_prune_elsewhere hne]
  constructor
  · intro hr
    exact ⟨hdirectory ▸ hr.directory, hr.removal, hr.sync⟩
  · intro hr
    exact ⟨hdirectory.trans hr.directory, hr.removal, hr.sync⟩

theorem reclaimEvent_removable (h : Reclaims (c :: rest) s) (hr : Removable o s.disk c) :
    reclaimEvent o c s = (.ok (), s.without c) := by
  have hlookup := h.lookup c List.mem_cons_self
  have hnode := (validatePrivateDirectory_eq_ok.mp hr.directory).2
  have hremove : o.removeDirectory .removeEventDirectory [eventName c.eventId] s.disk =
      (.ok (), s.disk.prune [eventName c.eventId] fun _ => false) := by
    unfold Outside.removeDirectory
    rw [hnode, hr.removal]
    rfl
  have hwidth : s.reclaimed + c.bundleBytes < u64Bound := by
    have hle := measure_le_tally bytesOf s.index (k := c.eventId)
    rw [measure_of_map hlookup] at hle
    exact (Nat.add_le_add_left hle _).trans_lt h.width
  unfold reclaimEvent
  rw [hr.directory, hremove, hr.sync]
  simp only [hlookup, checkedAdd, hwidth, if_true, ne_eq, not_true_eq_false, if_false]
  rfl

/-- A removal that does not go through leaves the index as it is. -/
theorem reclaimEvent_stuck (h : Reclaims (c :: rest) s) (hr : ¬Removable o s.disk c) :
    ∃ disk, reclaimEvent o c s = (.error .retentionUnavailable, { s with disk }) := by
  have hlookup := h.lookup c List.mem_cons_self
  unfold reclaimEvent
  cases hdirectory : o.validatePrivateDirectory [eventName c.eventId] .retentionUnavailable s.disk with
  | error error =>
    have herror : error = .retentionUnavailable := by
      unfold Outside.validatePrivateDirectory at hdirectory
      split at hdirectory
      · cases hdirectory
        rfl
      · split at hdirectory
        · cases hdirectory
          rfl
        · cases hdirectory
    rw [herror]
    exact ⟨s.disk, rfl⟩
  | ok _ =>
    simp only [hlookup, ne_eq, not_true_eq_false, if_false]
    have hnode := (validatePrivateDirectory_eq_ok.mp hdirectory).2
    cases hremoval : o.failure .removeEventDirectory [eventName c.eventId] with
    | some failure =>
      have hremove : o.removeDirectory .removeEventDirectory [eventName c.eventId] s.disk =
          (.error .other, s.disk.prune [eventName c.eventId] failure.kept) := by
        unfold Outside.removeDirectory
        rw [hnode, hremoval]
        rfl
      rw [hremove]
      exact ⟨_, rfl⟩
    | none =>
      have hremove : o.removeDirectory .removeEventDirectory [eventName c.eventId] s.disk =
          (.ok (), s.disk.prune [eventName c.eventId] fun _ => false) := by
        unfold Outside.removeDirectory
        rw [hnode, hremoval]
        rfl
      rw [hremove]
      cases hsync : o.failure .syncAfterRemoval [eventName c.eventId] with
      | some failure => exact ⟨_, rfl⟩
      | none => exact absurd ⟨hdirectory, hremoval, hsync⟩ hr

/-- The loop goes through the candidates it needs, or stops at the first of them whose
removal does not go through. -/
theorem reclaim_cases (candidates : List Candidate) (s : Reclaiming) (h : Reclaims candidates s) :
    (∃ s', reclaim o request health candidates s = (.ok (), s') ∧
      s'.reclaimed + tally bytesOf s'.index = s.reclaimed + tally bytesOf s.index ∧
      s'.index.keys.length ≤ s.index.keys.length) ∨
    ∃ done c rest s', candidates = done ++ c :: rest ∧
      Needed request health s.reclaimed s.deletedEventIds.length (done ++ [c]) ∧ (∀ d ∈ done, Removable o s.disk d) ∧
      ¬Removable o s.disk c ∧ reclaim o request health candidates s = (.error .retentionUnavailable, s') ∧
      s'.index.keys.length + done.length = s.index.keys.length ∧ (done = [] → s'.index = s.index) := by
  induction candidates generalizing s with
  | nil => exact .inl ⟨s, rfl, rfl, le_rfl⟩
  | cons c rest ih =>
    rw [reclaim]
    cases hsuffices : request.suffices health s.reclaimed s.deletedEventIds.length c with
    | true => exact .inl ⟨s, rfl, rfl, le_rfl⟩
    | false =>
      by_cases hr : Removable o s.disk c
      · rw [reclaimEvent_removable h hr]
        have hlookup := h.lookup c List.mem_cons_self
        have hlength := length_without hlookup
        rcases ih (s.without c) h.without with ⟨s', hrun, htally, hle⟩ |
          ⟨done, d, rest', s', hsplit, hneeded, hdone, hd, hrun, hcount, -⟩
        · exact .inl ⟨s', hrun, htally.trans (tally_without hlookup), hle.trans (by omega)⟩
        · refine .inr ⟨c :: done, d, rest', s', congrArg _ hsplit, ⟨hsuffices, ?_⟩, ?_, ?_, hrun, ?_, ?_⟩
          · show Needed request health (s.reclaimed + c.bundleBytes) (s.deletedEventIds.length + 1) (done ++ [d])
            rwa [Reclaiming.without, List.length_append] at hneeded
          · intro x hx
            rcases List.mem_cons.mp hx with rfl | hx
            · exact hr
            · exact (removable_without h (hsplit ▸ List.mem_append_left _ hx)).mp (hdone x hx)
          · exact fun hremovable => hd ((removable_without h (by simp [hsplit])).mpr hremovable)
          · rw [List.length_cons]
            omega
          · intro hempty
            cases hempty
      · obtain ⟨disk, hstuck⟩ := reclaimEvent_stuck h hr
        rw [hstuck]
        exact .inr ⟨[], c, rest, _, rfl, ⟨hsuffices, trivial⟩, fun _ hx => absurd hx List.not_mem_nil, hr, rfl, rfl, fun _ => rfl⟩

/-- The loop stops at a candidate that it comes to and that does not go. -/
theorem reclaim_stuck (done : List Candidate) (s : Reclaiming) (h : Reclaims (done ++ c :: rest) s)
    (hneeded : Needed request health s.reclaimed s.deletedEventIds.length (done ++ [c]))
    (hdone : ∀ d ∈ done, Removable o s.disk d) (hc : ¬Removable o s.disk c) :
    ∃ s', reclaim o request health (done ++ c :: rest) s = (.error .retentionUnavailable, s') ∧
      s'.index.keys.length + done.length = s.index.keys.length := by
  induction done generalizing s with
  | nil =>
    obtain ⟨disk, hstuck⟩ := reclaimEvent_stuck h hc
    rw [List.nil_append, reclaim, hneeded.1, hstuck]
    exact ⟨_, rfl, rfl⟩
  | cons d done ih =>
    have hr := hdone d List.mem_cons_self
    have hlength := length_without (h.lookup d List.mem_cons_self)
    rw [List.cons_append, reclaim, hneeded.1, reclaimEvent_removable h hr]
    obtain ⟨s', hrun, hcount⟩ := ih (s.without d) h.without
      (by simpa [Reclaiming.without] using hneeded.2)
      (fun x hx => (removable_without h (List.mem_append_left _ hx)).mpr (hdone x (List.mem_cons_of_mem _ hx)))
      (fun hremovable => hc ((removable_without h (by simp)).mp hremovable))
    refine ⟨s', hrun, ?_⟩
    rw [List.length_cons]
    omega

/-! ### The candidates -/

theorem mem_candidates {index : Index} (hc : c ∈ index.candidates) :
    (index.lookup c.eventId).map (·.bundleBytes) = some c.bundleBytes := by
  rw [Index.candidates, List.mem_mergeSort, List.mem_filterMap] at hc
  obtain ⟨⟨eventId, detail⟩, hentry, hclosed⟩ := hc
  obtain ⟨closedAt, -, rfl⟩ := Option.map_eq_some_iff.mp hclosed
  rw [AList.mem_lookup_iff.mpr hentry]
  rfl

theorem candidates_nodup (index : Index) : (index.candidates.map Candidate.eventId).Nodup := by
  have hperm := (List.mergeSort_perm (index.entries.filterMap fun entry =>
    entry.2.latest.closedAtUnixMs.map fun closedAt => (⟨closedAt, entry.1, entry.2.bundleBytes⟩ : Candidate))
    fun a b => decide (a.closedAt < b.closedAt) || (a.closedAt == b.closedAt && decide (a.eventId ≤ b.eventId))).map
      Candidate.eventId
  rw [Index.candidates, hperm.nodup_iff]
  have hkeys := index.nodupKeys
  generalize index.entries = entries at hkeys
  induction entries with
  | nil => exact List.nodup_nil
  | cons entry rest ih =>
    obtain ⟨hnotin, hrest⟩ := List.nodupKeys_cons.mp hkeys
    rw [List.filterMap_cons]
    split
    · exact ih hrest
    · rename_i candidate hcandidate
      obtain ⟨closedAt, -, rfl⟩ := Option.map_eq_some_iff.mp hcandidate
      rw [List.map_cons, List.nodup_cons]
      refine ⟨?_, ih hrest⟩
      intro hmem
      obtain ⟨d, hd, heq⟩ := List.mem_map.mp hmem
      obtain ⟨entry', hentry', hd'⟩ := List.mem_filterMap.mp hd
      obtain ⟨_, -, rfl⟩ := Option.map_eq_some_iff.mp hd'
      exact hnotin (List.mem_map.mpr ⟨entry', hentry', heq⟩)

theorem reclaims_candidates {s : LinuxEvidenceStore} (hk : s.Kept) (t : Disk) :
    Reclaims s.index.candidates ⟨t, s.index, 0, []⟩ := by
  refine ⟨fun c hc => mem_candidates hc, candidates_nodup s.index, ?_⟩
  show 0 + tally bytesOf s.index < u64Bound
  rw [Nat.zero_add, ← hk.accounted.2]
  exact hk.bytes

end NetworkLoop.Evidence
