import NetworkLoop.Evidence.Accounting
import NetworkLoop.Evidence.Restart

/-! What was stored is what a restart reads.

The manifest that `build_manifest` settles on describes the evidence beside it (`Built`), so
the directory that a put has written reads back as its revision (`onDisk_written`). -/
namespace NetworkLoop.Evidence
open Library Observation Table

variable {F : Formats} {uid : Nat} {s : LinuxEvidenceStore} {t : Disk} {revision : IncidentRevisionV1} {admitted : Admitted}

/-! ### The manifest -/

theorem settleManifest_eq_ok {fuel : Nat} {m manifest : EvidenceManifestV1} {data : Bytes}
    (h : settleManifest F fuel m = .ok (manifest, data)) :
    (∃ total, manifest = { m with totalBytes := total }) ∧ F.manifestJson manifest = some data ∧
      manifest.totalBytes = m.evidenceBytes + data.length := by
  induction fuel generalizing m with
  | zero => cases h
  | succ fuel ih =>
    rw [settleManifest] at h
    split at h
    · cases h
    · rename_i text hjson
      split at h
      · cases h
      · rename_i total hsum
        split at h
        case isTrue heq =>
          cases h
          exact ⟨⟨manifest.totalBytes, rfl⟩, hjson, heq.trans (checkedAdd_eq_some hsum)⟩
        case isFalse =>
          obtain ⟨⟨total', heq⟩, hrest⟩ := ih h
          exact ⟨⟨total', heq⟩, hrest⟩

/-- The strings of a manifest as `build_manifest` fills them in. -/
structure Short (m : EvidenceManifestV1) : Prop where
  file : m.evidenceFile = "evidence.json"
  sha256 : m.evidenceSha256.utf8ByteSize = 64
  version : m.packageVersion.utf8ByteSize ≤ 64

/-- With evidence that is not too large the loop fails in the encoding alone. -/
theorem settleManifest_eq_error {fuel : Nat} {m : EvidenceManifestV1} {error : EvidenceStoreError} (hm : Short m)
    (hevidence : m.evidenceBytes ≤ evidenceMaxRevisionBytes) (h : settleManifest F fuel m = .error error) : error = .io := by
  induction fuel generalizing m with
  | zero =>
    cases h
    rfl
  | succ fuel ih =>
    rw [settleManifest] at h
    split at h
    · cases h
      rfl
    · rename_i data hjson
      have hlength := (F.manifestJson_length m data hjson hm.file hm.sha256 hm.version).2
      have hwidth : evidenceMaxRevisionBytes + evidenceMaxRevisionBytes < u64Bound := by decide
      have hsum : checkedAdd m.evidenceBytes data.length = some (m.evidenceBytes + data.length) := if_pos (by omega)
      rw [hsum] at h
      dsimp only at h
      split at h
      case isTrue => cases h
      case isFalse => exact @ih { m with totalBytes := m.evidenceBytes + data.length } ⟨hm.file, hm.sha256, hm.version⟩ hevidence h

/-- The loop ends: while the total is not right, the text gets longer. So more rounds than the
longest text has bytes change nothing. -/
theorem settleManifest_ends {fuel : Nat} {m : EvidenceManifestV1} (hm : Short m)
    (hbelow : ∀ data, F.manifestJson m = some data → m.totalBytes ≤ m.evidenceBytes + data.length)
    (hfuel : ∀ data, F.manifestJson m = some data →
      evidenceMaxRevisionBytes + 2 ≤ fuel + data.length ∨ m.totalBytes = m.evidenceBytes + data.length)
    (more : Nat) : settleManifest F (fuel + 1 + more) m = settleManifest F (fuel + 1) m := by
  induction fuel generalizing m with
  | zero =>
    rw [Nat.add_right_comm, settleManifest, settleManifest]
    cases hjson : F.manifestJson m with
    | none => rfl
    | some data =>
      have hlength := (F.manifestJson_length m data hjson hm.file hm.sha256 hm.version).2
      have htotal : m.totalBytes = m.evidenceBytes + data.length := (hfuel data hjson).resolve_left (by omega)
      dsimp only
      cases hsum : checkedAdd m.evidenceBytes data.length with
      | none => rfl
      | some total =>
        have hright : m.totalBytes = total := htotal.trans (checkedAdd_eq_some hsum).symm
        dsimp only
        rw [if_pos hright, if_pos hright]
  | succ fuel ih =>
    rw [Nat.add_right_comm, settleManifest, settleManifest]
    cases hjson : F.manifestJson m with
    | none => rfl
    | some data =>
      dsimp only
      cases hsum : checkedAdd m.evidenceBytes data.length with
      | none => rfl
      | some total =>
        dsimp only
        split
        case isTrue => rfl
        case isFalse hnot =>
          have htotal := checkedAdd_eq_some hsum
          have hle : m.totalBytes ≤ total := htotal ▸ hbelow data hjson
          -- the next text is at least as long, and as long only if its total is right
          have hnext : ∀ data', F.manifestJson { m with totalBytes := total } = some data' → data.length ≤ data'.length :=
            fun data' hjson' => F.manifestJson_mono m m.totalBytes total data data' hle hjson hjson'
          refine @ih { m with totalBytes := total } ⟨hm.file, hm.sha256, hm.version⟩ ?_ ?_
          · intro data' hjson'
            show total ≤ m.evidenceBytes + data'.length
            have := hnext data' hjson'
            omega
          · intro data' hjson'
            show _ ∨ total = m.evidenceBytes + data'.length
            have := hnext data' hjson'
            have := (hfuel data hjson).resolve_right (htotal ▸ hnot)
            omega

/-- The manifest that the loop starts with. -/
def firstManifest (F : Formats) (revision : IncidentRevisionV1) (evidence : Bytes) (packageVersion : PackageVersion) :
    EvidenceManifestV1 where
  schemaVersion := evidenceSchemaVersion
  eventId := revision.eventId
  revision := revision.revision
  currentState := revision.currentState
  evidenceFile := "evidence.json"
  evidenceBytes := evidence.length
  evidenceSha256 := F.sha256Hex evidence
  totalBytes := evidence.length
  packageVersion := packageVersion.text

theorem short_firstManifest (evidence : Bytes) (packageVersion : PackageVersion) :
    Short (firstManifest F revision evidence packageVersion) := by
  have hhex := F.sha256Hex_hex evidence
  unfold isLowerHex at hhex
  exact ⟨rfl, beq_iff_eq.mp (Bool.and_eq_true _ _ |>.mp hhex).1, packageVersion.bounded.2.1⟩

/-- **A manifest does not take more rounds than it is given.** -/
theorem buildManifest_ends (F : Formats) (revision : IncidentRevisionV1) (evidence : Bytes) (packageVersion : PackageVersion)
    (more : Nat) : buildManifest F revision evidence packageVersion =
      settleManifest F (evidenceMaxRevisionBytes + 2 + more) (firstManifest F revision evidence packageVersion) >>= fun (manifest, data) =>
        if manifest.validate then .ok (manifest, data) else .error .invalidRevision := by
  have hshort : Short (firstManifest F revision evidence packageVersion) := short_firstManifest evidence packageVersion
  have hends := @settleManifest_ends F (evidenceMaxRevisionBytes + 1) (firstManifest F revision evidence packageVersion) hshort
    (fun data _ => Nat.le_add_right ..) ?_ more
  · show settleManifest F (evidenceMaxRevisionBytes + 1 + 1) (firstManifest F revision evidence packageVersion) >>= _ = _
    rw [← hends]
  · intro data hjson
    have := (F.manifestJson_length _ data hjson hshort.file hshort.sha256 hshort.version).1
    exact .inl (by omega)

/-- With evidence that is not too large it is not the manifest that is. -/
theorem buildManifest_eq_error {evidence : Bytes} {packageVersion : PackageVersion} {error : EvidenceStoreError}
    (hevidence : evidence.length ≤ evidenceMaxRevisionBytes)
    (h : buildManifest F revision evidence packageVersion = .error error) : error = .io ∨ error = .invalidRevision := by
  rcases bind_eq_error.mp h with hsettle | ⟨⟨manifest, data⟩, -, hrest⟩
  · exact .inl (settleManifest_eq_error (@short_firstManifest F revision evidence packageVersion) hevidence hsettle)
  · dsimp only at hrest
    split at hrest
    case isTrue => cases hrest
    case isFalse =>
      cases hrest
      exact .inr rfl

/-- The manifest of a revision. -/
structure Built (F : Formats) (revision : IncidentRevisionV1) (evidence : Bytes) (packageVersion : PackageVersion)
    (manifest : EvidenceManifestV1) (data : Bytes) : Prop where
  valid : manifest.validate = true
  fields : manifest = {
    schemaVersion := evidenceSchemaVersion
    eventId := revision.eventId
    revision := revision.revision
    currentState := revision.currentState
    evidenceFile := "evidence.json"
    evidenceBytes := evidence.length
    evidenceSha256 := F.sha256Hex evidence
    totalBytes := evidence.length + data.length
    packageVersion := packageVersion.text }
  json : F.manifestJson manifest = some data

theorem buildManifest_eq_ok {evidence data : Bytes} {packageVersion : PackageVersion} {manifest : EvidenceManifestV1}
    (h : buildManifest F revision evidence packageVersion = .ok (manifest, data)) :
    Built F revision evidence packageVersion manifest data := by
  obtain ⟨⟨settled, text⟩, hsettle, hvalid⟩ := bind_eq_ok.mp h
  obtain ⟨⟨total, hfields⟩, hjson, htotal⟩ := settleManifest_eq_ok hsettle
  dsimp only at hvalid
  split at hvalid
  case isFalse => cases hvalid
  case isTrue hok =>
    cases hvalid
    refine ⟨hok, ?_, hjson⟩
    rw [hfields] at htotal
    rw [hfields]
    exact congrArg (fun total => EvidenceManifestV1.mk _ _ _ _ _ _ _ total _) htotal

/-- The text of a manifest is short. -/
theorem Built.length {evidence data : Bytes} {packageVersion : PackageVersion} {manifest : EvidenceManifestV1}
    (h : Built F revision evidence packageVersion manifest data) : 0 < data.length ∧ data.length ≤ evidenceMaxRevisionBytes := by
  have hhex := F.sha256Hex_hex evidence
  have hsha : (F.sha256Hex evidence).utf8ByteSize = 64 := by
    unfold isLowerHex at hhex
    exact beq_iff_eq.mp (Bool.and_eq_true _ _ |>.mp hhex).1
  refine F.manifestJson_length manifest data h.json ?_ ?_ ?_
  · rw [h.fields]
  · rw [h.fields]
    exact hsha
  · rw [h.fields]
    exact packageVersion.bounded.2.1

/-! ### The revision that was written -/

theorem Written.at {b : Disk} (h : Written uid revision admitted b t) (rest : Path) :
    t.get (revisionPath revision.eventId revision.revision ++ rest) =
      bundle uid admitted.evidence admitted.manifestBytes rest := by
  obtain ⟨_, -, -, hmade⟩ := h
  exact hmade.contents rest

/-- **What `put` has written reads back as the revision it was given.** -/
theorem onDisk_written {b : Disk} (hadmission : s.admission F revision = .ok admitted) (h : Written uid revision admitted b t) :
    OnDisk F uid t (revisionPath revision.eventId revision.revision) revision.eventId revision.revision
      ⟨revision, admitted.manifest, rfl⟩ := by
  have hadmits := admission_eq_ok.mp hadmission
  have hbuilt := buildManifest_eq_ok hadmits.manifest
  have hlength := hbuilt.length
  have hnames : sortedNames t (revisionPath revision.eventId revision.revision) = ["evidence.json", "manifest.json"] := by
    have hmem : ∀ name, name ∈ sortedNames t (revisionPath revision.eventId revision.revision) ↔
        name ∈ ["evidence.json", "manifest.json"] := by
      intro name
      rw [mem_sortedNames, h.at]
      by_cases hmanifest : name = "manifest.json"
      · simp [bundle, hmanifest]
      · by_cases hevidence : name = "evidence.json"
        · simp [bundle, hevidence]
        · simp [bundle, hmanifest, hevidence]
    have hperm : (sortedNames t (revisionPath revision.eventId revision.revision)).Perm ["evidence.json", "manifest.json"] :=
      (List.perm_ext_iff_of_nodup (sortedNames_nodup ..) (by decide)).mpr hmem
    exact hperm.eq_of_pairwise (fun a b _ _ hab hba => le_antisymm hab hba) (sortedNames_pairwise ..) (by decide)
  refine ⟨?_, hnames, admitted.evidence, admitted.manifestBytes, ⟨?_, ?_, hadmits.evidence.2⟩, ⟨?_, ?_, hlength.2⟩, ?_, ?_⟩
  · have hroot := h.at []
    rw [List.append_nil] at hroot
    rw [hroot]
    rfl
  · rw [h.at]
    rfl
  · exact fun hzero => hadmits.evidence.1 (List.length_eq_zero_iff.mp hzero)
  · rw [h.at]
    rfl
  · exact hlength.1.ne'
  · exact F.readManifest_json _ _ hbuilt.json
  · have hfields := hbuilt.fields
    refine ⟨hbuilt.valid, ?_, ?_, ?_, ?_, F.readRevision_json _ _ hadmits.json, hadmits.valid, rfl, ?_, ?_⟩
    · rw [hfields]
    · rw [hfields]
    · rw [hfields]
    · rw [hfields]
    · rw [hfields]
    · rw [hfields]
      by_contra hschema
      have hvalid := hadmits.valid
      simp [IncidentRevisionV1.validate, hschema] at hvalid

end NetworkLoop.Evidence
