import NetworkLoop.Library.Wire
import NetworkLoop.Evidence.Durable

/-! A store on which nothing fails.

Its disk holds what its index says and nothing besides (`Tidy`). From there every revision
that `admission` lets in is stored (`put_tidy`), and nothing is in the way of the next one. -/
namespace NetworkLoop.Evidence
open Library Observation Table

/-- The directories of the disk are the events of the index, with room for their next revisions. -/
structure Tidy (uid : Nat) (s : LinuxEvidenceStore) (t : Disk) : Prop where
  root : t.get [] = some (.directory 0o700 uid)
  absent : ∀ eventId, s.index.lookup eventId = none → t.get [eventName eventId] = none
  present : ∀ eventId, s.index.lookup eventId ≠ none → t.get [eventName eventId] = some (.directory 0o700 uid)
  settled : ∀ eventId name, isTemporary name = true → t.get [eventName eventId, name] = none
  free : ∀ eventId detail, s.index.lookup eventId = some detail → ∀ revision, detail.latest.revision < revision →
    revision ≤ evidenceMaxRevisionsPerEvent → t.get (revisionPath eventId revision) = none
  numbers : ∀ eventId detail, s.index.lookup eventId = some detail → detail.latest.revision ≤ evidenceMaxRevisionsPerEvent

section
variable {F : Formats} {uid : Nat} {s : LinuxEvidenceStore} {t : Disk} {revision : IncidentRevisionV1} {admitted : Admitted}

theorem revisionName_injective {a b : Nat} (ha : a ≤ evidenceMaxRevisionsPerEvent) (hb : b ≤ evidenceMaxRevisionsPerEvent)
    (h : revisionName a = revisionName b) : a = b :=
  Hex.digits_injective (revisionName_lt ha) (revisionName_lt hb) (String.ofList_injective h)

/-- What `admission` has checked of the revision's number. -/
theorem numbered_of_admission (h : s.admission F revision = .ok admitted) :
    revision.revision = s.expected revision.eventId ∧ revision.revision ≤ evidenceMaxRevisionsPerEvent := by
  have hadmits := admission_eq_ok.mp h
  have hvalid := hadmits.valid
  simp only [IncidentRevisionV1.validate, Bool.and_eq_true, Bool.not_eq_true', Bool.or_eq_false_iff,
    decide_eq_false_iff_not] at hvalid
  exact ⟨hadmits.next, by omega⟩

/-- Nothing lies at the names of the next revision and of those after it. -/
theorem Tidy.later (ht : Tidy uid s t) (h : s.admission F revision = .ok admitted) {number : Nat} (hle : revision.revision ≤ number)
    (hmax : number ≤ evidenceMaxRevisionsPerEvent) : t.get (revisionPath revision.eventId number) = none := by
  cases hlookup : s.index.lookup revision.eventId with
  | none => exact FileTree.get_under_none (ht.absent _ hlookup) ⟨[revisionName number], rfl⟩
  | some detail =>
    refine ht.free _ detail hlookup _ ?_ hmax
    have hnumber := ht.numbers _ detail hlookup
    have hwidth : evidenceMaxRevisionsPerEvent < u64Bound - 1 := by decide
    rw [(numbered_of_admission h).1, LinuxEvidenceStore.expected, hlookup] at hle
    change min (detail.latest.revision + 1) (u64Bound - 1) ≤ number at hle
    omega

theorem Tidy.target (ht : Tidy uid s t) (h : s.admission F revision = .ok admitted) :
    t.get (revisionPath revision.eventId revision.revision) = none :=
  ht.later h le_rfl (numbered_of_admission h).2

/-- What lies under other paths than the revision's own after it is written. -/
theorem Written.get_of_ne {b : Disk} (h : Written uid revision admitted b t) {path : Path} (hevent : path ≠ [eventName revision.eventId])
    (hpath : ¬revisionPath revision.eventId revision.revision <+: path) : t.get path = b.get path := by
  obtain ⟨between, hentered, -, hmade⟩ := h
  rw [hmade.elsewhere path hpath]
  rcases hentered with rfl | ⟨-, mode, hget⟩
  · rfl
  · rw [hget, Function.update_of_ne hevent]

theorem Written.directory {b : Disk} (h : Written uid revision admitted b t) :
    t.get [eventName revision.eventId] = some (.directory 0o700 uid) := by
  obtain ⟨between, -, hthere, hmade⟩ := h
  rw [← hthere]
  exact hmade.elsewhere _ (by simp [revisionPath])

theorem tidy_written {b : Disk} (ht : Tidy uid s b) (hadmission : s.admission F revision = .ok admitted)
    (h : Written uid revision admitted b t) : Tidy uid (s.stored revision admitted) t := by
  have hle := (numbered_of_admission hadmission).2
  have hother : ∀ eventId, eventId ≠ revision.eventId → ∀ rest, t.get (eventName eventId :: rest) = b.get (eventName eventId :: rest) := by
    intro eventId hne rest
    have hname : eventName eventId ≠ eventName revision.eventId := fun heq => hne (eventName_injective heq)
    exact h.get_of_ne (fun heq => hname (List.cons.inj heq).1) fun hprefix => hname (List.cons_prefix_cons.mp hprefix).1.symm
  refine ⟨?_, ?_, ?_, ?_, ?_, ?_⟩
  · rw [h.get_of_ne (by simp) (by simp [revisionPath])]
    exact ht.root
  · intro eventId hnone
    have hne : eventId ≠ revision.eventId := by
      rintro rfl
      rw [LinuxEvidenceStore.stored, AList.lookup_insert] at hnone
      cases hnone
    rw [LinuxEvidenceStore.stored, AList.lookup_insert_ne hne] at hnone
    rw [hother eventId hne]
    exact ht.absent eventId hnone
  · intro eventId hsome
    by_cases hne : eventId = revision.eventId
    · rw [hne]
      exact h.directory
    · rw [LinuxEvidenceStore.stored, AList.lookup_insert_ne hne] at hsome
      rw [hother eventId hne]
      exact ht.present eventId hsome
  · intro eventId name hname
    rw [h.get_of_ne (by simp)]
    · exact ht.settled eventId name hname
    · intro hprefix
      have hrevision := (List.cons_prefix_cons.mp (List.cons_prefix_cons.mp hprefix).2).1
      rw [← hrevision, revisionName_not_temporary] at hname
      cases hname
  · intro eventId detail hlookup number hlt hmax
    by_cases hne : eventId = revision.eventId
    · subst hne
      rw [LinuxEvidenceStore.stored, AList.lookup_insert] at hlookup
      cases hlookup
      change revision.revision < number at hlt
      have hnames : revisionName revision.revision ≠ revisionName number :=
        fun heq => hlt.ne (revisionName_injective hle hmax heq)
      rw [h.get_of_ne (by simp [revisionPath]) (by simpa [revisionPath] using hnames)]
      exact ht.later hadmission hlt.le hmax
    · rw [LinuxEvidenceStore.stored, AList.lookup_insert_ne hne] at hlookup
      rw [revisionPath, hother eventId hne]
      exact ht.free eventId detail hlookup number hlt hmax
  · intro eventId detail hlookup
    by_cases hne : eventId = revision.eventId
    · subst hne
      rw [LinuxEvidenceStore.stored, AList.lookup_insert] at hlookup
      cases hlookup
      exact hle
    · rw [LinuxEvidenceStore.stored, AList.lookup_insert_ne hne] at hlookup
      exact ht.numbers eventId detail hlookup

/-- **Where nothing fails, what is let in is stored.** -/
theorem put_tidy (ht : Tidy uid s t) (hadmission : s.admission F revision = .ok admitted) (temporary : Temporary) :
    ∃ t', s.put (.calm uid) F temporary revision t =
        (.ok (detailFromRevision revision admitted.eventBytes).summary, s.stored revision admitted, t') ∧
      Written uid revision admitted t t' ∧ Tidy uid (s.stored revision admitted) t' := by
  have hroot : (Outside.calm uid).validateRoot t = .ok () := validatePrivateDirectory_eq_ok.mpr ⟨rfl, ht.root⟩
  have hevent : t.get [eventName revision.eventId] = none ∨
      t.get [eventName revision.eventId] = some (.directory 0o700 (Outside.calm uid).uid) := by
    by_cases hlookup : s.index.lookup revision.eventId = none
    · exact .inl (ht.absent _ hlookup)
    · exact .inr (ht.present _ hlookup)
  obtain ⟨t', hwrite⟩ := @writeRevision_calm (.calm uid) t revision temporary admitted (Outside.calm_calm uid)
    (by rw [ht.root]; rfl) hevent (ht.settled _ _ temporary.temporary) (ht.target hadmission)
  have hwritten := writeRevision_meets.ok rfl hwrite
  refine ⟨t', ?_, hwritten, tidy_written ht hadmission hwritten⟩
  rw [LinuxEvidenceStore.put_admitted hroot hadmission, hwrite]

/-! ### A restart -/

/-- A restart finds what the index holds. -/
def Mirrors (F : Formats) (uid : Nat) (s : LinuxEvidenceStore) (t : Disk) : Prop :=
  ∀ eventId, foundEvent F uid t eventId = s.index.lookup eventId

theorem revisionsAt_written {b : Disk} (hadmission : s.admission F revision = .ok admitted) (h : Written uid revision admitted b t)
    (hfree : ∀ number, revision.revision ≤ number → number ≤ evidenceMaxRevisionsPerEvent →
      b.get (revisionPath revision.eventId number) = none) :
    revisionsAt F uid t revision.eventId =
      revisionsAt F uid b revision.eventId ++ [⟨revision, admitted.manifest, rfl⟩] := by
  obtain ⟨-, hle⟩ := numbered_of_admission hadmission
  have hpos : 1 ≤ revision.revision := by
    have hvalid := (admission_eq_ok.mp hadmission).valid
    by_contra hzero
    simp [IncidentRevisionV1.validate, Nat.lt_one_iff.mp (Nat.not_le.mp hzero)] at hvalid
  have hother : ∀ number, number ≤ evidenceMaxRevisionsPerEvent → number ≠ revision.revision →
      revisionAt F uid t revision.eventId number = revisionAt F uid b revision.eventId number := by
    intro number hnumber hne
    refine revisionAt_congr fun rest => h.get_of_ne (by simp [revisionPath]) fun hprefix => hne ?_
    have hname := (List.cons_prefix_cons.mp (List.cons_prefix_cons.mp hprefix).2).1
    exact (revisionName_injective hle hnumber hname).symm
  have hnew : revisionAt F uid t revision.eventId revision.revision = some ⟨revision, admitted.manifest, rfl⟩ :=
    revisionAt_eq_some.mpr (onDisk_written hadmission h)
  have hrange : List.range' 1 evidenceMaxRevisionsPerEvent = List.range' 1 (revision.revision - 1) ++
      revision.revision :: List.range' (revision.revision + 1) (evidenceMaxRevisionsPerEvent - revision.revision) := by
    have hsplit := List.range'_append_1 (s := 1) (m := revision.revision - 1)
      (n := evidenceMaxRevisionsPerEvent - revision.revision + 1)
    rw [List.range'_succ, show 1 + (revision.revision - 1) = revision.revision by omega] at hsplit
    rw [hsplit]
    congr 1
    omega
  have hfront : ∀ number ∈ List.range' 1 (revision.revision - 1),
      revisionAt F uid t revision.eventId number = revisionAt F uid b revision.eventId number := by
    intro number hmem
    rw [List.mem_range'_1] at hmem
    exact hother number (by omega) (by omega)
  have hbackNew : ∀ number ∈ List.range' (revision.revision + 1) (evidenceMaxRevisionsPerEvent - revision.revision),
      revisionAt F uid b revision.eventId number = none := by
    intro number hmem
    rw [List.mem_range'_1] at hmem
    exact revisionAt_missing (hfree number (by omega) (by omega))
  have hback : ∀ number ∈ List.range' (revision.revision + 1) (evidenceMaxRevisionsPerEvent - revision.revision),
      revisionAt F uid t revision.eventId number = none := by
    intro number hmem
    have hnone := hbackNew number hmem
    rw [List.mem_range'_1] at hmem
    rwa [hother number (by omega) (by omega)]
  rw [revisionsAt, revisionsAt, hrange, List.filterMap_append, List.filterMap_append, List.filterMap_congr hfront,
    List.filterMap_cons_some hnew, List.filterMap_cons_none (revisionAt_missing (hfree _ le_rfl hle)),
    List.filterMap_eq_nil_iff.mpr hback, List.filterMap_eq_nil_iff.mpr hbackNew, List.append_nil]

/-- The revisions on disk are those of the index entry. -/
theorem Mirrors.bytes (hm : Mirrors F uid s t) (ht : Tidy uid s t) (eventId : EventId) :
    ((revisionsAt F uid t eventId).map (·.manifest.totalBytes)).sum = measure bytesOf s.index eventId := by
  cases hlookup : s.index.lookup eventId with
  | none =>
    have hnothing : revisionsAt F uid t eventId = [] := by
      rw [revisionsAt, List.filterMap_eq_nil_iff]
      intro number _
      exact revisionAt_missing (FileTree.get_under_none (ht.absent _ hlookup) ⟨[revisionName number], rfl⟩)
    rw [measure_of_none _ _ hlookup, hnothing]
    rfl
  | some detail =>
    have hfound := hm eventId
    rw [hlookup, foundEvent, if_pos (ht.present _ (by rw [hlookup]; simp)), indexed] at hfound
    obtain ⟨x, -, heq⟩ := Option.map_eq_some_iff.mp hfound
    rw [measure_of_lookup _ _ hlookup, ← heq]
    rfl

theorem mirrors_written {b : Disk} (hm : Mirrors F uid s b) (ht : Tidy uid s b) (hadmission : s.admission F revision = .ok admitted)
    (h : Written uid revision admitted b t) : Mirrors F uid (s.stored revision admitted) t := by
  intro eventId
  by_cases hne : eventId = revision.eventId
  · subst hne
    rw [foundEvent, if_pos h.directory, revisionsAt_written hadmission h fun number => ht.later hadmission, indexed, List.getLast?_concat, Option.map_some,
      List.map_append, List.sum_append, hm.bytes ht]
    rw [LinuxEvidenceStore.stored, AList.lookup_insert]
    have hbytes := (admission_eq_ok.mp hadmission).eventBytes
    simp only [List.map_cons, List.map_nil, List.sum_cons, List.sum_nil, Nat.add_zero]
    rw [hbytes]
  · have hname : eventName eventId ≠ eventName revision.eventId := fun heq => hne (eventName_injective heq)
    have hsame : ∀ rest, t.get (eventName eventId :: rest) = b.get (eventName eventId :: rest) := fun rest =>
      h.get_of_ne (fun heq => hname (List.cons.inj heq).1) fun hprefix => hname (List.cons_prefix_cons.mp hprefix).1.symm
    rw [LinuxEvidenceStore.stored, AList.lookup_insert_ne hne, ← hm eventId]
    exact foundEvent_congr (hsame []) fun number rest => hsame (revisionName number :: rest)

/-- The canonical names before an event's own are other events of the index. -/
theorem place_lt (ht : Tidy uid s t) {eventId : EventId} (h : s.index.lookup eventId ≠ none) :
    place t eventId < s.index.keys.length := by
  have hkey : eventId ∈ s.index.keys := by
    by_contra hnot
    exact h (AList.lookup_eq_none.mpr hnot)
  have hsub : eventName eventId :: (sortedNames t []).filter (fun name => (canonicalEvent name).isSome && decide (name < eventName eventId)) ⊆
      s.index.keys.map eventName := by
    intro name hname
    rcases List.mem_cons.mp hname with rfl | hname
    · exact List.mem_map_of_mem hkey
    · obtain ⟨hmem, hcanonical⟩ := List.mem_filter.mp hname
      obtain ⟨other, hother⟩ := Option.isSome_iff_exists.mp (Bool.and_eq_true _ _ |>.mp hcanonical).1
      rw [canonicalEvent_iff.mp hother] at hmem ⊢
      refine List.mem_map_of_mem ?_
      by_contra hnot
      exact mem_sortedNames.mp hmem (ht.absent _ (AList.lookup_eq_none.mpr hnot))
  have hnodup : (eventName eventId :: (sortedNames t []).filter (fun name => (canonicalEvent name).isSome &&
      decide (name < eventName eventId))).Nodup := by
    refine List.nodup_cons.mpr ⟨?_, (sortedNames_nodup t []).filter _⟩
    intro hmem
    exact absurd (of_decide_eq_true (Bool.and_eq_true _ _ |>.mp (List.mem_filter.mp hmem).2).2) (lt_irrefl _)
  have hlength := (hnodup.subperm hsub).length_le
  rw [List.length_cons, List.length_map, ← List.countP_eq_length_filter] at hlength
  exact hlength

/-- **A restart finds the index again.** -/
theorem restart_tidy (hm : Mirrors F uid s t) (ht : Tidy uid s t) (hcount : s.index.keys.length ≤ evidenceMaxEvents)
    (packageVersion : PackageVersion) :
    ∃ s', LinuxEvidenceStore.openRoot F (.calm uid) packageVersion t = .ok s' ∧ s'.packageVersion = packageVersion ∧
      ∀ eventId, s'.index.lookup eventId = s.index.lookup eventId := by
  obtain ⟨index, health, hrecovered, hfound⟩ := @recovered_calm F uid t ht.root
  refine ⟨⟨packageVersion, index, health⟩, ?_, rfl, fun eventId => ?_⟩
  · rw [LinuxEvidenceStore.openRoot, hrecovered]
    rfl
  · show index.lookup eventId = _
    rw [hfound, hm eventId]
    cases hlookup : s.index.lookup eventId with
    | none => rw [ite_self]
    | some detail => rw [if_pos ((place_lt ht (by rw [hlookup]; simp)).trans_le hcount)]

/-! ### An empty store -/

/-- A root with nothing in it. -/
def emptyRoot (uid : Nat) : Disk where
  table := AList.singleton [] (.directory 0o700 uid)
  closed := by
    intro p name n h
    have hnone : List.dlookup (p ++ [name]) [(⟨[], .directory 0o700 uid⟩ : Sigma fun _ : Path => Node)] = none := by
      simp
    rw [AList.singleton, AList.lookup, hnone] at h
    cases h

/-- The store that a start on an empty root opens. -/
def emptyStore (packageVersion : PackageVersion) : LinuxEvidenceStore :=
  ⟨packageVersion, ∅, { EvidenceStoreHealth.default with available := true }⟩

theorem get_emptyRoot {path : Path} (h : path ≠ []) : (emptyRoot uid).get path = none := by
  show List.dlookup path [(⟨[], .directory 0o700 uid⟩ : Sigma fun _ : Path => Node)] = none
  rw [List.dlookup_cons_ne [] (⟨[], .directory 0o700 uid⟩ : Sigma fun _ : Path => Node) h]
  rfl

theorem openRoot_empty (F : Formats) (packageVersion : PackageVersion) :
    LinuxEvidenceStore.openRoot F (.calm uid) packageVersion (emptyRoot uid) = .ok (emptyStore packageVersion) := by
  have hroot : (Outside.calm uid).validateRoot (emptyRoot uid) = .ok () := validatePrivateDirectory_eq_ok.mpr ⟨rfl, rfl⟩
  have hempty : sortedNames (emptyRoot uid) [] = [] := by
    rw [List.eq_nil_iff_forall_not_mem]
    intro name hmem
    exact mem_sortedNames.mp hmem (get_emptyRoot (by simp))
  have hnames : (Outside.calm uid).readDirectory [] (emptyRoot uid) = .ok [] :=
    readDirectory_eq_ok.mpr ⟨rfl, rfl, hempty.symm⟩
  rw [LinuxEvidenceStore.openRoot, LinuxEvidenceStore.recovered, hroot, hnames]
  rfl

theorem tidy_empty (packageVersion : PackageVersion) : Tidy uid (emptyStore packageVersion) (emptyRoot uid) where
  root := rfl
  absent _ _ := get_emptyRoot (by simp)
  present _ h := absurd rfl h
  settled _ _ _ := get_emptyRoot (by simp)
  free _ _ h := by cases h
  numbers _ _ h := by cases h

theorem mirrors_empty {F : Formats} (packageVersion : PackageVersion) : Mirrors F uid (emptyStore packageVersion) (emptyRoot uid) := by
  intro eventId
  rw [foundEvent, get_emptyRoot (by simp), if_neg (by simp)]
  rfl

end

/-! ### A format

The laws of `Formats` can be met: numbers of a fixed width for what can differ between the
revisions of a sample event, and for its manifests. The digest is the number of the data, as far as it fits. -/

def sampleManifest (eventId : EventId) (revision evidenceBytes digest totalBytes : Nat) : EvidenceManifestV1 where
  schemaVersion := evidenceSchemaVersion
  eventId := eventId
  revision := revision
  currentState := .ingressStormConfirmed
  evidenceFile := "evidence.json"
  evidenceBytes := evidenceBytes
  evidenceSha256 := String.ofList (Hex.digits 64 digest)
  totalBytes := totalBytes
  packageVersion := "1.0.0"

def sampleVersion : PackageVersion := ⟨"1.0.0", by decide⟩

def revisionFields (revision : IncidentRevisionV1) : List (Nat × Nat) :=
  [(16, revision.eventId.toNat), (2, revision.revision), (8, revision.occurredAtUnixMs),
    (1, if revision.closedAtUnixMs.isSome then 1 else 0), (8, revision.closedAtUnixMs.getD 0)]

def manifestFields (manifest : EvidenceManifestV1) : List (Nat × Nat) :=
  [(16, manifest.eventId.toNat), (2, manifest.revision), (8, manifest.evidenceBytes),
    (32, (Hex.value manifest.evidenceSha256.toList).getD 0), (8, manifest.totalBytes)]

def SampleRevision (revision : IncidentRevisionV1) : Prop :=
  revision = sampleRevision revision.eventId revision.revision revision.occurredAtUnixMs revision.closedAtUnixMs ∧
    ∀ field ∈ revisionFields revision, field.2 < 256 ^ field.1

instance (revision : IncidentRevisionV1) : Decidable (SampleRevision revision) := inferInstanceAs (Decidable (_ ∧ _))

def SampleManifest (manifest : EvidenceManifestV1) : Prop :=
  manifest = sampleManifest manifest.eventId manifest.revision manifest.evidenceBytes
      ((Hex.value manifest.evidenceSha256.toList).getD 0) manifest.totalBytes ∧
    ∀ field ∈ manifestFields manifest, field.2 < 256 ^ field.1

instance (manifest : EvidenceManifestV1) : Decidable (SampleManifest manifest) := inferInstanceAs (Decidable (_ ∧ _))

def readSampleRevision (data : Bytes) : Option IncidentRevisionV1 :=
  match BigEndian.unpack [16, 2, 8, 1, 8] data with
  | [eventId, revision, occurredAt, closed, closedAt] =>
    some (sampleRevision (BitVec.ofNat 128 eventId) revision occurredAt (if closed = 1 then some closedAt else none))
  | _ => none

def readSampleManifest (data : Bytes) : Option EvidenceManifestV1 :=
  match BigEndian.unpack [16, 2, 8, 32, 8] data with
  | [eventId, revision, evidenceBytes, digest, totalBytes] =>
    some (sampleManifest (BitVec.ofNat 128 eventId) revision evidenceBytes digest totalBytes)
  | _ => none

theorem readSampleRevision_pack {revision : IncidentRevisionV1} (h : SampleRevision revision) :
    readSampleRevision (BigEndian.pack (revisionFields revision)) = some revision := by
  obtain ⟨hsample, hfields⟩ := h
  have hunpack := BigEndian.unpack_pack _ hfields
  change BigEndian.unpack [16, 2, 8, 1, 8] _ = _ at hunpack
  unfold readSampleRevision
  rw [hunpack]
  cases hclosed : revision.closedAtUnixMs with
  | none =>
    rw [hclosed] at hsample
    simp [revisionFields, hclosed, ← hsample]
  | some closedAt =>
    rw [hclosed] at hsample
    simp [revisionFields, hclosed, ← hsample]

theorem readSampleManifest_pack {manifest : EvidenceManifestV1} (h : SampleManifest manifest) :
    readSampleManifest (BigEndian.pack (manifestFields manifest)) = some manifest := by
  obtain ⟨hsample, hfields⟩ := h
  have hunpack := BigEndian.unpack_pack _ hfields
  change BigEndian.unpack [16, 2, 8, 32, 8] _ = _ at hunpack
  unfold readSampleManifest
  rw [hunpack]
  simp only [manifestFields, List.map_cons, List.map_nil, BitVec.ofNat_toNat, BitVec.setWidth_eq]
  exact congrArg some hsample.symm

theorem utf8ByteSize_digits (w n : Nat) : (String.ofList (Hex.digits w n)).utf8ByteSize = w := by
  have hdigit : ∀ d < 16, (String.ofList [Hex.digit d]).utf8ByteSize = 1 := by decide
  induction w generalizing n with
  | zero => rfl
  | succ w ih =>
    rw [Hex.digits, String.ofList_append, String.utf8ByteSize_append, ih, hdigit _ (Nat.mod_lt _ (by decide))]

theorem isLowerHex_digits (w n : Nat) : isLowerHex (String.ofList (Hex.digits w n)) w = true := by
  have hdigit : ∀ d < 16, ((Hex.digit d).isDigit || ('a' ≤ Hex.digit d && Hex.digit d ≤ 'f')) = true := by decide
  unfold isLowerHex
  rw [utf8ByteSize_digits, String.toList_ofList, Bool.and_eq_true, List.all_eq_true]
  refine ⟨beq_self_eq_true w, ?_⟩
  intro c hc
  obtain ⟨d, hd, rfl⟩ := Hex.mem_digits hc
  exact hdigit d hd

theorem length_packManifest (manifest : EvidenceManifestV1) : (BigEndian.pack (manifestFields manifest)).length = 66 := by
  rw [BigEndian.length_pack]
  rfl

theorem length_packRevision (revision : IncidentRevisionV1) : (BigEndian.pack (revisionFields revision)).length = 35 := by
  rw [BigEndian.length_pack]
  rfl

def packRevision (revision : IncidentRevisionV1) : Option Bytes :=
  if SampleRevision revision then some (BigEndian.pack (revisionFields revision)) else none

def packManifest (manifest : EvidenceManifestV1) : Option Bytes :=
  if SampleManifest manifest then some (BigEndian.pack (manifestFields manifest)) else none

theorem packRevision_eq_some {revision : IncidentRevisionV1} {data : Bytes} :
    packRevision revision = some data ↔ SampleRevision revision ∧ BigEndian.pack (revisionFields revision) = data := by
  rw [packRevision, Option.ite_none_right_eq_some, Option.some_inj]

theorem packManifest_eq_some {manifest : EvidenceManifestV1} {data : Bytes} :
    packManifest manifest = some data ↔ SampleManifest manifest ∧ BigEndian.pack (manifestFields manifest) = data := by
  rw [packManifest, Option.ite_none_right_eq_some, Option.some_inj]

def compactFormats : Formats where
  revisionJson := packRevision
  readRevision := readSampleRevision
  manifestJson := packManifest
  readManifest := readSampleManifest
  sha256Hex data := String.ofList (Hex.digits 64 (BigEndian.value data % 16 ^ 64))
  readRevision_json := by
    intro revision data h
    obtain ⟨hsample, rfl⟩ := packRevision_eq_some.mp h
    exact readSampleRevision_pack hsample
  readManifest_json := by
    intro manifest data h
    obtain ⟨hsample, rfl⟩ := packManifest_eq_some.mp h
    exact readSampleManifest_pack hsample
  sha256Hex_hex _ := isLowerHex_digits 64 _
  manifestJson_length := by
    intro manifest data h _ _ _
    obtain ⟨-, rfl⟩ := packManifest_eq_some.mp h
    rw [length_packManifest]
    decide
  manifestJson_mono := by
    intro manifest total total' data data' _ h h'
    obtain ⟨-, rfl⟩ := packManifest_eq_some.mp h
    obtain ⟨-, rfl⟩ := packManifest_eq_some.mp h'
    rw [length_packManifest, length_packManifest]

/-- The times of a sample revision are those of a `u64`, and not before its event was opened. -/
structure SampleTimes (occurredAt : Nat) (closedAt : Option Nat) : Prop where
  occurred : 1000 ≤ occurredAt ∧ occurredAt < u64Bound
  closed : ∀ at' ∈ closedAt, 1000 ≤ at' ∧ at' < u64Bound

section
variable {s : LinuxEvidenceStore} {eventId : EventId} {number occurredAt : Nat} {closedAt : Option Nat}

theorem sampleRevision_valid (h : SampleTimes occurredAt closedAt)
    (hnumber : 1 ≤ number ∧ number ≤ evidenceMaxRevisionsPerEvent) :
    (sampleRevision eventId number occurredAt closedAt).validate = true := by
  obtain ⟨hoccurred, -⟩ := h.occurred
  have hclosed : closedAt.any (· < 1000) = false := by
    rw [Option.any_eq_false]
    intro at' hat
    exact decide_eq_false (Nat.not_lt.mpr (h.closed at' hat).1)
  have hpos : number ≠ 0 := by omega
  have hle : ¬number > evidenceMaxRevisionsPerEvent := by omega
  have hopened : ¬1000 > occurredAt := by omega
  have hdetection : (Detection.DetectionReport.warming 1000).validate.isOk = true := by decide
  unfold IncidentRevisionV1.validate
  rw [Bool.and_eq_true]
  refine ⟨?_, hdetection⟩
  show (!(_ || decide (number = 0) || decide (number > _) || _ || _ || _ || decide (1000 > occurredAt) ||
    closedAt.any (· < 1000) || _)) = true
  rw [hclosed, decide_eq_false hpos, decide_eq_false hle, decide_eq_false hopened]
  rfl

theorem sampleRevision_sample (h : SampleTimes occurredAt closedAt)
    (hnumber : 1 ≤ number ∧ number ≤ evidenceMaxRevisionsPerEvent) :
    SampleRevision (sampleRevision eventId number occurredAt closedAt) := by
  refine ⟨rfl, ?_⟩
  have hmax : evidenceMaxRevisionsPerEvent < 256 ^ 2 := by decide
  have hwidth : u64Bound = 256 ^ 8 := by decide
  have hclosed : (closedAt.getD 0) < 256 ^ 8 := by
    cases closedAt with
    | none => decide
    | some at' => exact hwidth ▸ (h.closed at' rfl).2
  have hflag : (if closedAt.isSome then 1 else 0) < 256 ^ 1 := by split <;> decide
  simp only [revisionFields, List.forall_mem_cons, List.not_mem_nil, false_implies, implies_true, and_true]
  exact ⟨eventId.isLt, hnumber.2.trans_lt hmax, hwidth ▸ h.occurred.2, hflag, hclosed⟩

/-- The bytes of a sample revision with its manifest. -/
def sampleBytes : Nat := 101

theorem packManifest_sample {evidenceBytes digest totalBytes : Nat} (hnumber : number ≤ evidenceMaxRevisionsPerEvent)
    (hevidence : evidenceBytes < u64Bound) (hdigest : digest < 16 ^ 64) (htotal : totalBytes < u64Bound) :
    packManifest (sampleManifest eventId number evidenceBytes digest totalBytes) =
      some (BigEndian.pack (manifestFields (sampleManifest eventId number evidenceBytes digest totalBytes))) := by
  have hvalue : Hex.value (sampleManifest eventId number evidenceBytes digest totalBytes).evidenceSha256.toList = some digest := by
    rw [sampleManifest, String.toList_ofList]
    exact Hex.value_digits hdigest
  have hmax : evidenceMaxRevisionsPerEvent < 256 ^ 2 := by decide
  have hwidth : u64Bound = 256 ^ 8 := by decide
  have hhex : (16 : Nat) ^ 64 = 256 ^ 32 := by decide
  refine packManifest_eq_some.mpr ⟨⟨?_, ?_⟩, rfl⟩
  · rw [hvalue]
    rfl
  · simp only [manifestFields, hvalue, List.forall_mem_cons, List.not_mem_nil, false_implies, implies_true, and_true]
    exact ⟨eventId.isLt, hnumber.trans_lt hmax, hwidth ▸ hevidence, hhex ▸ hdigest, hwidth ▸ htotal⟩

/-- The total is right at the second try: it does not change the length. -/
theorem settleManifest_sample (fuel : Nat) {digest : Nat} (hnumber : number ≤ evidenceMaxRevisionsPerEvent)
    (hdigest : digest < 16 ^ 64) :
    settleManifest compactFormats (fuel + 2) (sampleManifest eventId number 35 digest 35) =
      .ok (sampleManifest eventId number 35 digest sampleBytes,
        BigEndian.pack (manifestFields (sampleManifest eventId number 35 digest sampleBytes))) := by
  have hwidth : 35 < u64Bound ∧ 35 + 66 < u64Bound := by decide
  have hfirst : compactFormats.manifestJson (sampleManifest eventId number 35 digest 35) = _ :=
    packManifest_sample hnumber hwidth.1 hdigest hwidth.1
  have hsecond : compactFormats.manifestJson (sampleManifest eventId number 35 digest sampleBytes) = _ :=
    packManifest_sample hnumber hwidth.1 hdigest hwidth.2
  have hsum : checkedAdd 35 66 = some sampleBytes := checkedAdd_of_lt hwidth.2
  have hbytes : ∀ totalBytes, (sampleManifest eventId number 35 digest totalBytes).evidenceBytes = 35 := fun _ => rfl
  have htotal : ∀ totalBytes, (sampleManifest eventId number 35 digest totalBytes).totalBytes = totalBytes := fun _ => rfl
  rw [settleManifest, hfirst]
  dsimp only
  rw [length_packManifest, hbytes, hsum]
  dsimp only
  rw [htotal, if_neg (by decide)]
  show settleManifest compactFormats (fuel + 1) (sampleManifest eventId number 35 digest sampleBytes) = _
  rw [settleManifest, hsecond]
  dsimp only
  rw [length_packManifest, hbytes, hsum]
  exact if_pos rfl

theorem sampleManifest_valid {digest : Nat} (hnumber : 1 ≤ number ∧ number ≤ evidenceMaxRevisionsPerEvent) :
    (sampleManifest eventId number 35 digest sampleBytes).validate = true := by
  have hpos : number ≠ 0 := by omega
  have hle : ¬number > evidenceMaxRevisionsPerEvent := by omega
  unfold EvidenceManifestV1.validate
  simp [sampleManifest, hpos, hle, isLowerHex_digits, sampleBytes, evidenceMaxRevisionBytes, evidenceMaxEventBytes]

theorem buildManifest_sample {evidence : Bytes} (hevidence : evidence.length = 35)
    (hnumber : 1 ≤ number ∧ number ≤ evidenceMaxRevisionsPerEvent) :
    ∃ manifest data, buildManifest compactFormats (sampleRevision eventId number occurredAt closedAt) evidence sampleVersion =
      .ok (manifest, data) ∧ manifest.totalBytes = sampleBytes := by
  have hdigest : BigEndian.value evidence % 16 ^ 64 < 16 ^ 64 := Nat.mod_lt _ (by decide)
  refine ⟨sampleManifest eventId number 35 (BigEndian.value evidence % 16 ^ 64) sampleBytes,
    BigEndian.pack (manifestFields (sampleManifest eventId number 35 (BigEndian.value evidence % 16 ^ 64) sampleBytes)), ?_, rfl⟩
  unfold buildManifest
  rw [hevidence]
  show (settleManifest compactFormats (evidenceMaxRevisionBytes + 2) (sampleManifest eventId number 35
    (BigEndian.value evidence % 16 ^ 64) 35) >>= _) = _
  rw [settleManifest_sample _ hnumber.2 hdigest]
  exact if_pos (sampleManifest_valid hnumber)

/-- **A sample revision is let in whenever it is the next one and there is room.** -/
theorem admit_sample (hversion : s.packageVersion = sampleVersion) (htimes : SampleTimes occurredAt closedAt)
    (hnumber : number = s.expected eventId) (hmax : number ≤ evidenceMaxRevisionsPerEvent)
    (hprevious : ∀ previous ∈ s.index.lookup eventId, ∃ n at' closed, previous.latest = sampleRevision eventId n at' closed)
    (hevent : measure bytesOf s.index eventId + sampleBytes ≤ evidenceMaxEventBytes)
    (htotal : s.health.totalBytes + sampleBytes ≤ evidenceMaxStoreBytes)
    (hroom : s.index.lookup eventId = none → s.index.keys.length < evidenceMaxEvents) :
    ∃ admitted, s.admission compactFormats (sampleRevision eventId number occurredAt closedAt) = .ok admitted ∧
      admitted.manifest.totalBytes = sampleBytes ∧ admitted.eventBytes = measure bytesOf s.index eventId + sampleBytes := by
  have hpos : 1 ≤ number := by
    rw [hnumber, LinuxEvidenceStore.expected]
    split
    · exact le_rfl
    · exact le_min (Nat.le_add_left ..) (by decide)
  have hlength := length_packRevision (sampleRevision eventId number occurredAt closedAt)
  have hjson := packRevision_eq_some.mpr ⟨@sampleRevision_sample eventId _ _ _ htimes ⟨hpos, hmax⟩, rfl⟩
  generalize BigEndian.pack (revisionFields (sampleRevision eventId number occurredAt closedAt)) = evidence at hlength hjson
  obtain ⟨manifest, data, hmanifest, hbytes⟩ := @buildManifest_sample eventId number occurredAt closedAt _ hlength ⟨hpos, hmax⟩
  refine ⟨⟨evidence, manifest, data, measure bytesOf s.index eventId + sampleBytes⟩, admission_eq_ok.mpr ?_, hbytes, rfl⟩
  refine ⟨sampleRevision_valid htimes ⟨hpos, hmax⟩, hnumber, ?_, ?_, ⟨?_, ?_⟩, hversion ▸ hmanifest,
    ?_, hevent, hbytes.symm ▸ htotal, hroom⟩
  · intro previous hmem
    obtain ⟨n, at', closed, heq⟩ := hprevious previous hmem
    rw [heq]
    exact ⟨rfl, rfl, rfl, rfl⟩
  · exact hjson
  · rintro rfl
    cases hlength
  · rw [hlength]
    decide
  · show measure bytesOf s.index eventId + sampleBytes = measure bytesOf s.index eventId + manifest.totalBytes
    rw [hbytes]

end

/-! ### Sample events -/

/-- An event of one revision: its ID, its time and its close. -/
structure SampleEvent where
  eventId : EventId
  occurredAt : Nat
  closedAt : Option Nat

def SampleEvent.revision (x : SampleEvent) : IncidentRevisionV1 := sampleRevision x.eventId 1 x.occurredAt x.closedAt

def sampleTemporary : Temporary := ⟨".tmp-1-1", by decide, by decide⟩

def SampleEvent.put (uid : Nat) (x : SampleEvent) : StoreCall := .put (.calm uid) sampleTemporary x.revision

/-- The store that holds some events, the last one first. -/
def sampleIndex : List SampleEvent → Index
  | [] => ∅
  | x :: earlier => (sampleIndex earlier).insert x.eventId ⟨x.revision, sampleBytes, rfl⟩

def sampleStore (events : List SampleEvent) : LinuxEvidenceStore where
  packageVersion := sampleVersion
  index := sampleIndex events
  health := { EvidenceStoreHealth.default with
    available := true, eventCount := events.length, totalBytes := events.length * sampleBytes }

theorem lookup_sampleIndex {eventId : EventId} {events : List SampleEvent} :
    (sampleIndex events).lookup eventId = none ↔ eventId ∉ events.map SampleEvent.eventId := by
  induction events with
  | nil => simp [sampleIndex]
  | cons x earlier ih =>
    rw [sampleIndex, List.map_cons, List.mem_cons, not_or]
    by_cases heq : eventId = x.eventId
    · subst heq
      simp
    · rw [AList.lookup_insert_ne heq, ih]
      simp [heq]

/-- The events of a store without failures: each with its own ID and at its times. -/
structure Stored (events : List SampleEvent) : Prop where
  distinct : (events.map SampleEvent.eventId).Nodup
  times : ∀ x ∈ events, SampleTimes x.occurredAt x.closedAt
  few : events.length ≤ evidenceMaxEvents

theorem length_sampleIndex {events : List SampleEvent} (h : (events.map SampleEvent.eventId).Nodup) :
    (sampleIndex events).keys.length = events.length := by
  induction events with
  | nil => rfl
  | cons x earlier ih =>
    obtain ⟨hnot, hearlier⟩ := List.nodup_cons.mp h
    rw [sampleIndex, keys_insert_new (lookup_sampleIndex.mpr hnot), ih hearlier, List.length_cons]

/-- There is room for the bytes of one more sample event. -/
theorem room_new {events : List SampleEvent} (hfew : events.length < evidenceMaxEvents) :
    events.length * sampleBytes + sampleBytes ≤ evidenceMaxStoreBytes := by
  have hstore : evidenceMaxEvents * sampleBytes ≤ evidenceMaxStoreBytes := by decide
  calc events.length * sampleBytes + sampleBytes = (events.length + 1) * sampleBytes := by rw [Nat.add_mul, Nat.one_mul]
    _ ≤ evidenceMaxEvents * sampleBytes := Nat.mul_le_mul_right _ hfew
    _ ≤ evidenceMaxStoreBytes := hstore

/-- A new sample event is let in while the store is not full. -/
theorem admit_new {events : List SampleEvent} {x : SampleEvent} (h : Stored events) (hnew : x.eventId ∉ events.map SampleEvent.eventId)
    (htimes : SampleTimes x.occurredAt x.closedAt) (hfew : events.length < evidenceMaxEvents) :
    ∃ admitted, (sampleStore events).admission compactFormats x.revision = .ok admitted ∧
      admitted.manifest.totalBytes = sampleBytes ∧
      admitted.eventBytes = measure bytesOf (sampleStore events).index x.eventId + sampleBytes := by
  have hnone : (sampleStore events).index.lookup x.eventId = none := lookup_sampleIndex.mpr hnew
  exact @admit_sample (sampleStore events) x.eventId 1 x.occurredAt x.closedAt rfl htimes
    (by rw [LinuxEvidenceStore.expected, hnone]) (by decide) (by rw [hnone]; simp) (by rw [measure_of_none _ _ hnone]; decide)
    (room_new hfew) (fun _ => (length_sampleIndex h.distinct).trans_lt hfew)

/-- **Sample events put one after the other are what the store holds then.** -/
theorem after_puts (uid : Nat) {events : List SampleEvent} (h : Stored events) :
    ∃ t, afterCalls compactFormats (emptyStore sampleVersion, emptyRoot uid) (events.reverse.map (SampleEvent.put uid)) =
        (sampleStore events, t) ∧ Tidy uid (sampleStore events) t ∧ Mirrors compactFormats uid (sampleStore events) t := by
  induction events with
  | nil => exact ⟨emptyRoot uid, rfl, tidy_empty sampleVersion, mirrors_empty sampleVersion⟩
  | cons x earlier ih =>
    obtain ⟨hnot, hearlier⟩ := List.nodup_cons.mp h.distinct
    have hfew := h.few
    rw [List.length_cons] at hfew
    have hnone : (sampleStore earlier).index.lookup x.eventId = none := lookup_sampleIndex.mpr hnot
    have hbefore : Stored earlier := ⟨hearlier, fun y hy => h.times y (List.mem_cons_of_mem _ hy), Nat.le_of_succ_le hfew⟩
    obtain ⟨t, hafter, htidy, hmirrors⟩ := ih hbefore
    have hroom := room_new hfew
    obtain ⟨admitted, hadmission, hmanifest, hbytes⟩ := admit_new hbefore hnot (h.times x List.mem_cons_self) hfew
    obtain ⟨t', hput, hwritten, htidy'⟩ := put_tidy htidy hadmission sampleTemporary
    have hmirrors' := mirrors_written hmirrors htidy hadmission hwritten
    have hstored : (sampleStore earlier).stored x.revision admitted =
        sampleStore (x :: earlier) := by
      rw [measure_of_none _ _ hnone, Nat.zero_add] at hbytes
      have hstore : evidenceMaxStoreBytes < u64Bound ∧ evidenceMaxEvents < 65535 := by decide
      have htotal : saturatingAdd (earlier.length * sampleBytes) admitted.manifest.totalBytes =
          (x :: earlier).length * sampleBytes := by
        rw [hmanifest, saturatingAdd_of_lt (hroom.trans_lt hstore.1), List.length_cons, Nat.add_mul, Nat.one_mul]
      have hcount : (if (sampleStore earlier).index.lookup x.eventId = none then increment earlier.length else earlier.length) =
          (x :: earlier).length := by
        rw [if_pos hnone]
        exact increment_of_lt (by omega)
      have hindex : (sampleStore earlier).index.insert x.eventId
          (⟨sampleRevision x.eventId 1 x.occurredAt x.closedAt, admitted.eventBytes, rfl⟩ : Indexed x.eventId) =
          sampleIndex (x :: earlier) := by
        rw [hbytes]
        rfl
      show LinuxEvidenceStore.mk sampleVersion ((sampleStore earlier).index.insert x.eventId _) ⟨true, 0, 0, 0,
          if (sampleStore earlier).index.lookup x.eventId = none then increment earlier.length else earlier.length,
          saturatingAdd (earlier.length * sampleBytes) admitted.manifest.totalBytes⟩ =
        LinuxEvidenceStore.mk sampleVersion (sampleIndex (x :: earlier)) ⟨true, 0, 0, 0, _, _⟩
      rw [htotal, hcount]
      exact congrArg (fun index => LinuxEvidenceStore.mk sampleVersion index _) hindex
    rw [hstored] at hput htidy' hmirrors'
    refine ⟨t', ?_, htidy', hmirrors'⟩
    rw [afterCalls] at hafter
    rw [List.reverse_cons, List.map_append, afterCalls, List.foldl_append, hafter]
    show ((sampleStore earlier).put _ _ _ _ t).2 = _
    rw [hput]

end NetworkLoop.Evidence
