import NetworkLoop.Evidence.Store

/-! What `recover` reads back from a disk.

The names of events and revisions are what they were written as (`canonicalEvent_iff`,
`parseRevisionName_iff`), so a directory holds at most sixteen revisions and no event
twice. `readRevision_eq_ok` is what a readable revision looks like on disk. -/
namespace NetworkLoop.Evidence
open Library Observation

/-! ### Checks -/

theorem require_eq_ok {ε : Type} {condition : Prop} [Decidable condition] {error : ε} :
    require condition error = .ok () ↔ condition := by
  rw [require]
  split
  case isTrue h => exact ⟨fun _ => h, fun _ => rfl⟩
  case isFalse h => exact ⟨fun hok => (by cases hok), fun hc => absurd hc h⟩

/-- What a check returns is `()`. -/
theorem exists_unit_iff {p : Unit → Prop} : (∃ a, p a) ↔ p () := ⟨fun ⟨_, h⟩ => h, fun h => ⟨(), h⟩⟩

theorem required_eq_ok {ε α : Type} {value : Option α} {error : ε} {a : α} :
    required value error = .ok a ↔ value = some a := by
  cases value with
  | none => simp [required]
  | some b => simp [required]

theorem mapError_eq_ok {ε ε' α : Type} {x : Except ε α} {f : ε → ε'} {a : α} :
    x.mapError f = .ok a ↔ x = .ok a := by
  cases x with
  | ok b => simp [Except.mapError]
  | error e => simp [Except.mapError]

/-- A chain of fallible steps fails with the error of the first step that does. -/
theorem bind_eq_error {ε α β : Type} {x : Except ε α} {f : α → Except ε β} {e : ε} :
    (x >>= f) = .error e ↔ x = .error e ∨ ∃ a, x = .ok a ∧ f a = .error e := by
  cases x with
  | error e' =>
    show Except.error e' = Except.error e ↔ _
    simp
  | ok a =>
    show f a = Except.error e ↔ _
    simp

theorem require_eq_error {ε : Type} {condition : Prop} [Decidable condition] {error e : ε} :
    require condition error = .error e ↔ ¬condition ∧ error = e := by
  rw [require]
  split
  case isTrue h => simp [h]
  case isFalse h => simp [h]

theorem required_eq_error {ε α : Type} {value : Option α} {error e : ε} :
    required value error = .error e ↔ value = none ∧ error = e := by
  cases value with
  | none => simp [required]
  | some b => simp [required]

/-! ### Names -/

theorem eventName_injective {a b : EventId} (h : eventName a = eventName b) : a = b :=
  eventIdText_injective (String.ofList_injective h)

theorem canonicalEvent_iff {name : String} {eventId : EventId} :
    canonicalEvent name = some eventId ↔ name = eventName eventId := by
  rw [canonicalEvent]
  constructor
  · intro h
    split at h
    · split at h
      case isTrue hname =>
        cases h
        exact hname.symm
      case isFalse => cases h
    · cases h
  · rintro rfl
    rw [eventName, String.toList_ofList, parseEventId_text]
    exact if_pos rfl

theorem revisionName_lt {revision : Nat} (h : revision ≤ evidenceMaxRevisionsPerEvent) : revision < 16 ^ 16 :=
  Nat.lt_of_le_of_lt h (by decide)

theorem parseRevisionName_iff {name : String} {revision : Nat} :
    parseRevisionName name = some revision ↔
      name = revisionName revision ∧ 0 < revision ∧ revision ≤ evidenceMaxRevisionsPerEvent := by
  rw [parseRevisionName]
  constructor
  · intro h
    split at h
    case isTrue hhex =>
      obtain ⟨hvalue, hbounds⟩ := Option.filter_eq_some_iff.mp h
      have hlength : name.toList.length = 16 := by
        rw [isFixedHex, Bool.and_eq_true, beq_iff_eq] at hhex
        exact hhex.1
      refine ⟨?_, of_decide_eq_true hbounds⟩
      rw [revisionName, ← hlength, Hex.digits_of_value hvalue, String.ofList_toList]
    case isFalse => cases h
  · rintro ⟨rfl, hpos, hle⟩
    rw [revisionName, String.toList_ofList, if_pos (isFixedHex_digits 16 revision),
      Hex.value_digits (revisionName_lt hle), Option.filter_some, if_pos]
    exact decide_eq_true ⟨hpos, hle⟩

theorem revisionName_not_temporary (revision : Nat) : isTemporary (revisionName revision) = false := by
  have hhead : '.' ∉ Hex.digits 16 revision := by
    intro hmem
    have := Hex.nibble_of_mem_digits hmem
    cases this
  rw [isTemporary, revisionName]
  simp only [String.toList_ofList]
  cases hdigits : Hex.digits 16 revision with
  | nil => rfl
  | cons c rest =>
    have hne : ('.' == c) = false := by
      rw [beq_eq_false_iff_ne]
      rintro rfl
      exact hhead (hdigits ▸ List.mem_cons_self)
    show List.isPrefixOf ['.', 't', 'm', 'p', '-'] (c :: rest) = false
    rw [List.isPrefixOf, hne]
    rfl

/-- The revisions among some names. -/
def revisionsIn (names : List String) : List Nat := names.filterMap parseRevisionName

theorem mem_revisionsIn {names : List String} {revision : Nat} : revision ∈ revisionsIn names ↔
    revisionName revision ∈ names ∧ 0 < revision ∧ revision ≤ evidenceMaxRevisionsPerEvent := by
  simp only [revisionsIn, List.mem_filterMap, parseRevisionName_iff]
  constructor
  · rintro ⟨name, hmem, rfl, hbounds⟩
    exact ⟨hmem, hbounds⟩
  · rintro ⟨hmem, hbounds⟩
    exact ⟨_, hmem, rfl, hbounds⟩

theorem revisionsIn_nodup {names : List String} (h : names.Nodup) : (revisionsIn names).Nodup := by
  apply h.filterMap
  intro a b revision ha hb
  rw [(parseRevisionName_iff.mp ha).1, (parseRevisionName_iff.mp hb).1]

/-- A directory holds at most sixteen revisions. -/
theorem length_revisionsIn {names : List String} (h : names.Nodup) :
    (revisionsIn names).length ≤ evidenceMaxRevisionsPerEvent := by
  have hsub : revisionsIn names ⊆ List.range' 1 evidenceMaxRevisionsPerEvent := by
    intro revision hmem
    obtain ⟨-, hpos, hle⟩ := mem_revisionsIn.mp hmem
    rw [List.mem_range'_1]
    omega
  simpa using (List.subperm_of_subset (revisionsIn_nodup h) hsub).length_le

/-! ### Directories -/

/-- The names in a directory, as `read_directory` sorts them. -/
def sortedNames (t : Disk) (path : Path) : List String := (t.children path).mergeSort fun a b => decide (a ≤ b)

theorem mem_sortedNames {t : Disk} {path : Path} {name : String} :
    name ∈ sortedNames t path ↔ t.get (path ++ [name]) ≠ none := by
  rw [sortedNames, List.mem_mergeSort, FileTree.mem_children]

theorem sortedNames_nodup (t : Disk) (path : Path) : (sortedNames t path).Nodup :=
  (List.mergeSort_perm ..).nodup_iff.mpr FileTree.children_nodup

theorem sortedNames_pairwise (t : Disk) (path : Path) : (sortedNames t path).Pairwise (· ≤ ·) := by
  have hsorted := @List.pairwise_mergeSort String (fun a b => decide (a ≤ b))
    (fun a b c hab hbc => decide_eq_true ((of_decide_eq_true hab).trans (of_decide_eq_true hbc)))
    (fun a b => by simpa using le_total a b) (t.children path)
  exact hsorted.imp of_decide_eq_true

/-- Directories with the same names list them in the same order. -/
theorem sortedNames_congr {t t' : Disk} {path : Path}
    (h : ∀ name, t.get (path ++ [name]) ≠ none ↔ t'.get (path ++ [name]) ≠ none) :
    sortedNames t path = sortedNames t' path := by
  have hperm : (sortedNames t path).Perm (sortedNames t' path) := by
    rw [List.perm_ext_iff_of_nodup (sortedNames_nodup ..) (sortedNames_nodup ..)]
    intro name
    rw [mem_sortedNames, mem_sortedNames, h]
  exact hperm.eq_of_pairwise (fun a b _ _ hab hba => le_antisymm hab hba) (sortedNames_pairwise ..)
    (sortedNames_pairwise ..)

section
variable {F : Formats} {o : Outside} {t : Disk}

theorem readDirectory_eq_ok {path : Path} {names : List String} : o.readDirectory path t = .ok names ↔
    o.failure .readDirectory path = none ∧ (t.get path).any Node.isDirectory = true ∧ names = sortedNames t path := by
  rw [Outside.readDirectory]
  cases o.failure .readDirectory path with
  | some failure => simp
  | none =>
    by_cases h : (t.get path).any Node.isDirectory = true
    · simp [h, sortedNames, eq_comm]
    · simp [h]

theorem metadata_eq_ok {call : IoCall} {path : Path} {metadata : EvidenceMetadata} :
    o.metadata call path t = .ok metadata ↔
      o.failure call path = none ∧ ∃ node, t.get path = some node ∧ node.metadata = metadata := by
  rw [Outside.metadata]
  cases o.failure call path with
  | some failure => simp
  | none =>
    cases t.get path with
    | none => simp
    | some node => simp

theorem readFile_eq_ok {path : Path} {data : Bytes} : o.readFile path t = .ok data ↔
    o.failure .readFile path = none ∧ (∃ mode uid, t.get path = some (.file mode uid data)) ∧
      data.length ≤ evidenceMaxRevisionBytes := by
  rw [Outside.readFile]
  cases o.failure .readFile path with
  | some failure => simp
  | none =>
    cases t.get path with
    | none => simp
    | some node =>
      cases node with
      | file mode uid found =>
        by_cases hlength : found.length > evidenceMaxRevisionBytes
        · simp only [hlength, if_true, reduceCtorEq, false_iff, not_and, true_and]
          rintro ⟨_, _, heq⟩
          cases heq
          omega
        · simp only [hlength, if_false, Except.ok.injEq, true_and, Option.some.injEq, Node.file.injEq]
          constructor
          · rintro rfl
            exact ⟨⟨_, _, rfl, rfl, rfl⟩, Nat.not_lt.mp hlength⟩
          · rintro ⟨⟨_, _, -, -, heq⟩, -⟩
            exact heq
      | _ => simp

theorem validatePrivateDirectory_eq_ok {path : Path} {error : EvidenceStoreError} :
    o.validatePrivateDirectory path error t = .ok () ↔
      o.failure .validate path = none ∧ t.get path = some (.directory 0o700 o.uid) := by
  rw [Outside.validatePrivateDirectory, Outside.metadata]
  cases o.failure .validate path with
  | some failure => simp
  | none =>
    cases t.get path with
    | none => simp
    | some node =>
      cases node with
      | directory mode uid =>
        by_cases h : mode = 0o700 ∧ uid = o.uid
        · simp [Node.metadata, h]
        · simp only [Node.metadata, not_true_eq_false, false_or, ne_eq, Option.some.injEq, Node.directory.injEq, true_and, h,
            iff_false, ite_eq_right_iff, reduceCtorEq, imp_false]
          tauto
      | _ => simp [Node.metadata]

/-! ### A revision on disk -/

/-- A private file that is neither empty nor too long. -/
def PrivateFile (uid : Nat) (t : Disk) (path : Path) (data : Bytes) : Prop :=
  t.get path = some (.file 0o600 uid data) ∧ data.length ≠ 0 ∧ data.length ≤ evidenceMaxRevisionBytes

/-- What `read_revision` asks of a manifest and its evidence. -/
structure Matches (F : Formats) (eventId : EventId) (revisionNumber : Nat) (evidence : Bytes)
    (x : StoredRevision eventId) : Prop where
  manifest : x.manifest.validate = true
  manifestEvent : x.manifest.eventId = eventId
  manifestRevision : x.manifest.revision = revisionNumber
  evidenceBytes : evidence.length = x.manifest.evidenceBytes
  sha256 : F.sha256Hex evidence = x.manifest.evidenceSha256
  read : F.readRevision evidence = some x.revision
  revision : x.revision.validate = true
  revisionNumber : x.revision.revision = revisionNumber
  currentState : x.revision.currentState = x.manifest.currentState
  schemaVersion : x.revision.schemaVersion = x.manifest.schemaVersion

/-- A revision in its directory: the two files and nothing else. -/
structure OnDisk (F : Formats) (uid : Nat) (t : Disk) (path : Path) (eventId : EventId) (revisionNumber : Nat)
    (x : StoredRevision eventId) : Prop where
  directory : t.get path = some (.directory 0o700 uid)
  names : sortedNames t path = ["evidence.json", "manifest.json"]
  files : ∃ evidence manifest, PrivateFile uid t (path ++ ["evidence.json"]) evidence ∧
    PrivateFile uid t (path ++ ["manifest.json"]) manifest ∧ F.readManifest manifest = some x.manifest ∧
    Matches F eventId revisionNumber evidence x

/-- No call fails that `read_revision` makes for a directory. -/
structure Outside.Reads (o : Outside) (path : Path) : Prop where
  validate : o.failure .validate path = none
  readDirectory : o.failure .readDirectory path = none
  metadata : ∀ file, o.failure .metadata (path ++ [file]) = none
  readFile : ∀ file, o.failure .readFile (path ++ [file]) = none

theorem validatePrivateFile_eq_ok {path : Path} : validatePrivateFile o path t = .ok () ↔
    o.failure .metadata path = none ∧ ∃ data, PrivateFile o.uid t path data := by
  rw [validatePrivateFile, bind_eq_ok]
  simp only [mapError_eq_ok, metadata_eq_ok, require_eq_ok]
  constructor
  · rintro ⟨_, ⟨hcall, node, hnode, rfl⟩, htype, hmode, huid, hpos, hle⟩
    cases node with
    | file mode uid data =>
      cases hmode
      cases huid
      exact ⟨hcall, data, hnode, hpos, hle⟩
    | _ => cases htype
  · rintro ⟨hcall, data, hnode, hpos, hle⟩
    exact ⟨_, ⟨hcall, _, hnode, rfl⟩, rfl, rfl, rfl, hpos, hle⟩

/-- Two names in order are all there is. -/
theorem names_of_pair {path : Path} (hevidence : "evidence.json" ∈ sortedNames t path)
    (hmanifest : "manifest.json" ∈ sortedNames t path) (hlength : (sortedNames t path).length = 2) :
    sortedNames t path = ["evidence.json", "manifest.json"] := by
  have hsub : ["evidence.json", "manifest.json"] ⊆ sortedNames t path := by
    intro name hname
    simp only [List.mem_cons, List.not_mem_nil, or_false] at hname
    rcases hname with rfl | rfl
    · exact hevidence
    · exact hmanifest
  have hperm : ["evidence.json", "manifest.json"].Perm (sortedNames t path) :=
    (List.subperm_of_subset (by decide) hsub).perm_of_length_le (by simp [hlength])
  exact (hperm.eq_of_pairwise (fun a b _ _ hab hba => le_antisymm hab hba) (by decide) (sortedNames_pairwise ..)).symm

theorem readRevision_eq_ok {eventId : EventId} {revisionNumber : Nat} {path : Path} {x : StoredRevision eventId}
    (h : readRevision F o eventId revisionNumber path t = .ok x) :
    OnDisk F o.uid t path eventId revisionNumber x := by
  rw [readRevision] at h
  simp only [bind_eq_ok, exists_unit_iff, mapError_eq_ok, require_eq_ok, required_eq_ok, validatePrivateDirectory_eq_ok,
    readDirectory_eq_ok, readFile_eq_ok, validatePrivateFile_eq_ok] at h
  obtain ⟨⟨-, hdirectory⟩, _, ⟨-, -, rfl⟩, ⟨hevidenceName, hmanifestName⟩, hlength, ⟨-, evidence, hevidence⟩,
    ⟨-, manifestBytes, hmanifest⟩, _, ⟨-, ⟨_, _, hread⟩, -⟩, manifest, hmanifestRead, hvalid, ⟨hevent, hnumber⟩,
    _, ⟨-, ⟨_, _, hread'⟩, -⟩, ⟨hbytes, hsha⟩, revision, hrevisionRead, hrevision, hlast⟩ := h
  cases hmanifest.1.symm.trans hread
  cases hevidence.1.symm.trans hread'
  split at hlast
  case isTrue hfields =>
    cases hlast
    exact ⟨hdirectory, names_of_pair hevidenceName hmanifestName hlength, evidence, manifestBytes, hevidence, hmanifest,
      hmanifestRead, hvalid, hevent, hnumber, hbytes, hsha, hrevisionRead, hrevision, hfields.2.1, hfields.2.2.1,
      hfields.2.2.2⟩
  case isFalse => cases hlast

/-- What is on disk is read, if no call fails. -/
theorem readRevision_of_onDisk {eventId : EventId} {revisionNumber : Nat} {path : Path} {x : StoredRevision eventId}
    (ho : o.Reads path) (h : OnDisk F o.uid t path eventId revisionNumber x) :
    readRevision F o eventId revisionNumber path t = .ok x := by
  obtain ⟨evidence, manifestBytes, hevidence, hmanifest, hread, hmatches⟩ := h.files
  rw [readRevision]
  simp only [bind_eq_ok, exists_unit_iff, mapError_eq_ok, require_eq_ok, required_eq_ok, validatePrivateDirectory_eq_ok,
    readDirectory_eq_ok, readFile_eq_ok, validatePrivateFile_eq_ok]
  refine ⟨⟨ho.validate, h.directory⟩, _, ⟨ho.readDirectory, ?_, rfl⟩, ?_, ?_, ⟨ho.metadata _, evidence, hevidence⟩,
    ⟨ho.metadata _, manifestBytes, hmanifest⟩, manifestBytes, ⟨ho.readFile _, ⟨_, _, hmanifest.1⟩, hmanifest.2.2⟩, x.manifest,
    hread, hmatches.manifest, ⟨hmatches.manifestEvent, hmatches.manifestRevision⟩, evidence,
    ⟨ho.readFile _, ⟨_, _, hevidence.1⟩, hevidence.2.2⟩, ⟨hmatches.evidenceBytes, hmatches.sha256⟩, x.revision, hmatches.read,
    hmatches.revision, dif_pos ⟨x.named, hmatches.revisionNumber, hmatches.currentState, hmatches.schemaVersion⟩⟩
  · rw [h.directory]
    rfl
  · rw [h.names]
    decide
  · rw [h.names]
    rfl

end

end NetworkLoop.Evidence
