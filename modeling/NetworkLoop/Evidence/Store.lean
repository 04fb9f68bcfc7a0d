import NetworkLoop.Library.Recorder
import NetworkLoop.Evidence.Index
import NetworkLoop.Evidence.Disk

/-! The evidence store (`evidence_store.rs`): `recover`, `put` and `enforce_retention`.

`put` checks a revision against the index (`admission`), writes it to the disk
(`writeRevision`) and only then enters it into the index; a failure on the way leaves index
and counters alone. `enforce_retention` removes closed events one by one, each from the disk
first and then from the index, and settles the counters after the last one. `recover` reads
the index back from the disk. -/
namespace NetworkLoop.Evidence
open Library Observation

/-! ### The store -/

structure EvidenceStoreHealth where
  available : Bool
  corruptObjectCount : Nat
  incompleteObjectCount : Nat
  unknownObjectCount : Nat
  eventCount : Nat
  totalBytes : Nat
  deriving DecidableEq, Repr

def EvidenceStoreHealth.default : EvidenceStoreHealth := ⟨false, 0, 0, 0, 0, 0⟩

structure LinuxEvidenceStore where
  packageVersion : PackageVersion
  index : Index
  health : EvidenceStoreHealth

/-- `saturating_add` of a `u64`. -/
def saturatingAdd (a b : Nat) : Nat := min (a + b) (u64Bound - 1)

/-- `increment` of a `u16`. -/
def increment (n : Nat) : Nat := min (n + 1) 65535

/-- A check of the source with its error. -/
def require {ε : Type} (condition : Prop) [Decidable condition] (error : ε) : Except ε Unit :=
  if condition then .ok () else .error error

def required {ε α : Type} (value : Option α) (error : ε) : Except ε α :=
  match value with
  | some a => .ok a
  | none => .error error

/-! ### Recovery -/

section
variable (F : Formats) (o : Outside)

inductive RevisionReadError where
  | incomplete | corrupt
  deriving DecidableEq, Repr

def validatePrivateFile (path : Path) (t : Disk) : Except RevisionReadError Unit :=
  (o.metadata .metadata path t).mapError (fun _ => .incomplete) >>= fun metadata =>
  require (metadata.fileType = .file ∧ metadata.mode = 0o600 ∧ metadata.uid = o.uid ∧ metadata.length ≠ 0 ∧
    metadata.length ≤ evidenceMaxRevisionBytes) .corrupt

/-- What `read_revision` returns: it has compared the event with the directory's. -/
structure StoredRevision (eventId : EventId) where
  revision : IncidentRevisionV1
  manifest : EvidenceManifestV1
  named : revision.eventId = eventId

def readRevision (eventId : EventId) (revisionNumber : Nat) (path : Path) (t : Disk) :
    Except RevisionReadError (StoredRevision eventId) :=
  (o.validatePrivateDirectory path .io t).mapError (fun _ => .corrupt) >>= fun _ =>
  (o.readDirectory path t).mapError (fun _ => .corrupt) >>= fun entries =>
  require ("evidence.json" ∈ entries ∧ "manifest.json" ∈ entries) .incomplete >>= fun _ =>
  require (entries.length = 2) .corrupt >>= fun _ =>
  validatePrivateFile o (path ++ ["evidence.json"]) t >>= fun _ =>
  validatePrivateFile o (path ++ ["manifest.json"]) t >>= fun _ =>
  (o.readFile (path ++ ["manifest.json"]) t).mapError (fun _ => .corrupt) >>= fun manifestBytes =>
  required (F.readManifest manifestBytes) .corrupt >>= fun manifest =>
  require (manifest.validate = true) .corrupt >>= fun _ =>
  require (manifest.eventId = eventId ∧ manifest.revision = revisionNumber) .corrupt >>= fun _ =>
  (o.readFile (path ++ ["evidence.json"]) t).mapError (fun _ => .corrupt) >>= fun evidence =>
  require (evidence.length = manifest.evidenceBytes ∧ F.sha256Hex evidence = manifest.evidenceSha256) .corrupt >>= fun _ =>
  required (F.readRevision evidence) .corrupt >>= fun revision =>
  require (revision.validate = true) .corrupt >>= fun _ =>
  if h : revision.eventId = eventId ∧ revision.revision = revisionNumber ∧
      revision.currentState = manifest.currentState ∧ revision.schemaVersion = manifest.schemaVersion then
    .ok ⟨revision, manifest, h.1⟩
  else .error .corrupt

/-- The loop state of `recover_event`. -/
structure RecoveredEvent (eventId : EventId) where
  health : EvidenceStoreHealth
  latest : Option (StoredRevision eventId)
  eventBytes : Nat

def adoptRevision (eventId : EventId) (t : Disk) (found : RecoveredEvent eventId) (name : String) :
    RecoveredEvent eventId :=
  if isTemporary name then
    { found with health.incompleteObjectCount := increment found.health.incompleteObjectCount }
  else
    match parseRevisionName name with
    | none => { found with health.unknownObjectCount := increment found.health.unknownObjectCount }
    | some revisionNumber =>
      match readRevision F o eventId revisionNumber [eventName eventId, name] t with
      | .ok stored =>
        { found with
          eventBytes := saturatingAdd found.eventBytes stored.manifest.totalBytes
          latest := if found.latest.all fun current => decide (current.revision.revision < stored.revision.revision)
            then some stored else found.latest }
      | .error .incomplete =>
        { found with health.incompleteObjectCount := increment found.health.incompleteObjectCount }
      | .error .corrupt => { found with health.corruptObjectCount := increment found.health.corruptObjectCount }

def recoverEvent (eventId : EventId) (health : EvidenceStoreHealth) (t : Disk) :
    Except EvidenceStoreError (Option (Indexed eventId) × EvidenceStoreHealth) :=
  match o.validatePrivateDirectory [eventName eventId] .io t with
  | .error _ => .ok (none, { health with corruptObjectCount := increment health.corruptObjectCount })
  | .ok () =>
    match o.readDirectory [eventName eventId] t with
    | .error _ => .error .io
    | .ok names =>
      let found := names.foldl (adoptRevision F o eventId t) ⟨health, none, 0⟩
      .ok (found.latest.map fun stored => ⟨stored.revision, found.eventBytes, stored.named⟩, found.health)

/-- The loop state of `recover`. -/
structure Recovering where
  index : Index
  health : EvidenceStoreHealth
  canonicalEvents : Nat

def adoptEvent (t : Disk) (found : Recovering) (name : String) : Except EvidenceStoreError Recovering :=
  match canonicalEvent name with
  | none => .ok { found with health.unknownObjectCount := increment found.health.unknownObjectCount }
  | some eventId =>
    if found.canonicalEvents ≥ evidenceMaxEvents then
      .ok { found with health.unknownObjectCount := increment found.health.unknownObjectCount }
    else
      recoverEvent F o eventId found.health t >>= fun
      | (none, health) => .ok ⟨found.index, health, found.canonicalEvents + 1⟩
      | (some detail, health) =>
        .ok ⟨found.index.insert eventId detail,
          { health with totalBytes := saturatingAdd health.totalBytes detail.bundleBytes }, found.canonicalEvents + 1⟩

namespace LinuxEvidenceStore

/-- What `recover` finds. -/
def recovered (t : Disk) : Except EvidenceStoreError (Index × EvidenceStoreHealth) :=
  o.validateRoot t >>= fun _ =>
  (o.readDirectory [] t).mapError (fun _ => .unsafeRoot) >>= fun names =>
  names.foldlM (adoptEvent F o t) ⟨∅, { EvidenceStoreHealth.default with available := true }, 0⟩ >>= fun found =>
  -- the count is a `u16`
  .ok (found.index, { found.health with eventCount := min found.index.keys.length 65535 })

def recover (store : LinuxEvidenceStore) (t : Disk) : Except EvidenceStoreError Unit × LinuxEvidenceStore :=
  match recovered F o t with
  | .error error => (.error error, store)
  | .ok (index, health) => (.ok (), { store with index, health })

def openRoot (packageVersion : PackageVersion) (t : Disk) : Except EvidenceStoreError LinuxEvidenceStore :=
  recovered F o t >>= fun (index, health) => .ok ⟨packageVersion, index, health⟩

end LinuxEvidenceStore

end

/-! ### Storing a revision -/

/-- What `put` has made of a revision by the time it turns to the disk. -/
structure Admitted where
  evidence : Bytes
  manifest : EvidenceManifestV1
  manifestBytes : Bytes
  eventBytes : Nat

namespace LinuxEvidenceStore

/-- The revision that comes next for an event. -/
def expected (store : LinuxEvidenceStore) (eventId : EventId) : Nat :=
  match store.index.lookup eventId with
  | none => 1
  | some detail => saturatingAdd detail.latest.revision 1

/-- The checks of `put`, up to its first change. -/
def admission (F : Formats) (store : LinuxEvidenceStore) (revision : IncidentRevisionV1) :
    Except EvidenceStoreError Admitted :=
  require (revision.validate = true) .invalidRevision >>= fun _ =>
  require (¬ revision.revision < store.expected revision.eventId) .revisionConflict >>= fun _ =>
  require (¬ store.expected revision.eventId < revision.revision) .revisionSequence >>= fun _ =>
  require (∀ previous ∈ store.index.lookup revision.eventId, previous.latest.interface = revision.interface ∧
    previous.latest.ifindex = revision.ifindex ∧
    previous.latest.interfaceGeneration = revision.interfaceGeneration ∧
    previous.latest.openedAtUnixMs = revision.openedAtUnixMs) .invalidRevision >>= fun _ =>
  required (F.revisionJson revision) .invalidRevision >>= fun evidence =>
  require (evidence ≠ [] ∧ evidence.length ≤ evidenceMaxRevisionBytes) .revisionTooLarge >>= fun _ =>
  buildManifest F revision evidence store.packageVersion >>= fun (manifest, manifestBytes) =>
  let previousEventBytes := (store.index.lookup revision.eventId).elim 0 (·.bundleBytes)
  required (checkedAdd previousEventBytes manifest.totalBytes) .revisionTooLarge >>= fun eventBytes =>
  require (eventBytes ≤ evidenceMaxEventBytes) .revisionTooLarge >>= fun _ =>
  require ((checkedAdd store.health.totalBytes manifest.totalBytes).any (· ≤ evidenceMaxStoreBytes) = true)
    .revisionTooLarge >>= fun _ =>
  require (¬ (store.index.lookup revision.eventId = none ∧ store.index.keys.length ≥ evidenceMaxEvents))
    .revisionTooLarge >>= fun _ =>
  .ok ⟨evidence, manifest, manifestBytes, eventBytes⟩

/-- The index and the counters after a stored revision. -/
def stored (store : LinuxEvidenceStore) (revision : IncidentRevisionV1) (admitted : Admitted) : LinuxEvidenceStore where
  packageVersion := store.packageVersion
  index := store.index.insert revision.eventId ⟨revision, admitted.eventBytes, rfl⟩
  health := { store.health with
    available := true
    totalBytes := saturatingAdd store.health.totalBytes admitted.manifest.totalBytes
    eventCount := if store.index.lookup revision.eventId = none then increment store.health.eventCount
      else store.health.eventCount }

end LinuxEvidenceStore

section
variable (o : Outside)

def Outside.syncDirectory (call : IoCall) (path : Path) : Effect Disk IoErrorKind Unit :=
  .ask fun t =>
    match o.failure call path with
    | some _ => .error .other
    | none => if t.get path = none then .error .notFound else .ok ()

def Outside.checkpoint (step : EvidenceIoStep) (path : Path) : Effect Disk IoErrorKind Unit :=
  o.check (.checkpoint step) path

/-- `map_err(|_| EvidenceStoreError::Io)`. -/
def asIo {α : Type} (x : Effect Disk IoErrorKind α) : Effect Disk EvidenceStoreError α := x.orElseError fun _ => .io

def ensureEventDirectory (eventId : EventId) : Effect Disk EvidenceStoreError Unit := fun t =>
  match o.metadata .metadata [eventName eventId] t with
  | .ok _ => (o.validatePrivateDirectory [eventName eventId] .io t, t)
  | .error .notFound =>
    (asIo (o.checkpoint .createEvent [eventName eventId]) >>= fun _ =>
      asIo (o.createDirectory [eventName eventId] 0o700) >>= fun _ =>
      asIo (o.syncDirectory .syncDirectory [])) t
  | .error _ => (.error .io, t)

/-- The commit up to the rename that publishes it. -/
def stageRevision (directory : Path) (target temporary : String) (evidence manifest : Bytes) :
    Effect Disk EvidenceStoreError Unit :=
  asIo (o.checkpoint .createTemporary directory) >>= fun _ =>
  asIo (o.createDirectory (directory ++ [temporary]) 0o700) >>= fun _ =>
  asIo (o.checkpoint .writeEvidence directory) >>= fun _ =>
  asIo (o.writeFile (directory ++ [temporary] ++ ["evidence.json"]) evidence 0o600) >>= fun _ =>
  asIo (o.checkpoint .writeManifest directory) >>= fun _ =>
  asIo (o.writeFile (directory ++ [temporary] ++ ["manifest.json"]) manifest 0o600) >>= fun _ =>
  asIo (o.checkpoint .syncTemporary directory) >>= fun _ =>
  asIo (o.syncDirectory .syncDirectory (directory ++ [temporary])) >>= fun _ =>
  asIo (o.checkpoint .publish directory) >>= fun _ =>
  (o.renameNoreplace (directory ++ [temporary]) (directory ++ [target])).orElseError fun error =>
    if error = .alreadyExists then .revisionConflict else .io

/-- The sync of the event directory, after the rename. -/
def settleRevision (directory : Path) : Effect Disk EvidenceStoreError Unit :=
  asIo (o.checkpoint .syncEvent directory) >>= fun _ =>
  asIo (o.syncDirectory .syncDirectory directory)

/-- The cleanup of a failed commit. The temporary directory has its canonical name, so
`remove_private_directory` looks at its type and mode only. -/
def removeTemporary (path : Path) (t : Disk) : Disk :=
  match o.metadata .metadata path t with
  | .ok _ => (o.removeDirectory .removePrivateDirectory path t).2
  | .error _ => t

def commitRevision (directory : Path) (revision : Nat) (temporary : Temporary) (evidence manifest : Bytes) :
    Effect Disk EvidenceStoreError Unit := fun t =>
  match o.metadata .metadata (directory ++ [revisionName revision]) t with
  | .ok _ => (.error .revisionConflict, t)
  | .error _ =>
    ((stageRevision o directory (revisionName revision) temporary.name evidence manifest >>= fun _ =>
      settleRevision o directory).cleaning (removeTemporary o (directory ++ [temporary.name]))) t

/-- What `put` does to the disk. -/
def writeRevision (revision : IncidentRevisionV1) (temporary : Temporary) (admitted : Admitted) :
    Effect Disk EvidenceStoreError Unit :=
  ensureEventDirectory o revision.eventId >>= fun _ =>
  commitRevision o [eventName revision.eventId] revision.revision temporary admitted.evidence admitted.manifestBytes

def LinuxEvidenceStore.put (F : Formats) (temporary : Temporary) (store : LinuxEvidenceStore)
    (revision : IncidentRevisionV1) (t : Disk) : Except EvidenceStoreError EvidenceSummaryV1 × LinuxEvidenceStore × Disk :=
  match o.validateRoot t >>= fun _ => store.admission F revision with
  | .error error => (.error error, store, t)
  | .ok admitted =>
    match writeRevision o revision temporary admitted t with
    | (.error error, t') => (.error error, store, t')
    | (.ok (), t') =>
      (.ok (detailFromRevision revision admitted.eventBytes).summary, store.stored revision admitted, t')

section
variable {o} {F : Formats} {temporary : Temporary} {store : LinuxEvidenceStore} {revision : IncidentRevisionV1} {t : Disk}

theorem LinuxEvidenceStore.put_refused {error : EvidenceStoreError} (hroot : o.validateRoot t = .ok ())
    (h : store.admission F revision = .error error) : store.put o F temporary revision t = (.error error, store, t) := by
  rw [put, hroot]
  simp only [bind, Except.bind, h]

theorem LinuxEvidenceStore.put_admitted {admitted : Admitted} (hroot : o.validateRoot t = .ok ())
    (h : store.admission F revision = .ok admitted) : store.put o F temporary revision t =
      match writeRevision o revision temporary admitted t with
      | (.error error, t') => (.error error, store, t')
      | (.ok (), t') =>
        (.ok (detailFromRevision revision admitted.eventBytes).summary, store.stored revision admitted, t') := by
  rw [put, hroot]
  simp only [bind, Except.bind, h]

end

/-! ### Retention -/

structure FilesystemSpace where
  totalBytes : Nat
  availableBytes : Nat
  deriving DecidableEq, Repr

structure StoreUsage where
  eventCount : Nat
  totalBytes : Nat
  filesystem : FilesystemSpace
  requiredFreeReserve : Nat
  deriving DecidableEq, Repr

structure RetentionOutcome where
  deletedEventIds : List EventId
  usage : StoreUsage
  deriving DecidableEq

def minimumFreeReserve (totalBytes : Nat) : Nat :=
  let percent := totalBytes / 100 * evidenceMinFreeReservePercent +
    totalBytes % 100 * evidenceMinFreeReservePercent / 100
  if percent > evidenceMinFreeReserveBytes then percent else evidenceMinFreeReserveBytes

/-- A closed event: when it was closed, its ID and its bytes. -/
structure Candidate where
  closedAt : Nat
  eventId : EventId
  bundleBytes : Nat
  deriving DecidableEq

/-- The closed events, oldest close first, then by ID. -/
def Index.candidates (index : Index) : List Candidate :=
  (index.entries.filterMap fun entry =>
    entry.2.latest.closedAtUnixMs.map fun closedAt => ⟨closedAt, entry.1, entry.2.bundleBytes⟩).mergeSort
    fun a b => decide (a.closedAt < b.closedAt) || (a.closedAt == b.closedAt && decide (a.eventId ≤ b.eventId))

/-- What one call of retention is asked for. -/
structure RetentionRequest where
  nowUnixMs : Nat
  incomingBytes : Nat
  filesystem : FilesystemSpace
  deriving DecidableEq

/-- The loop state of `enforce_retention`. -/
structure Reclaiming where
  disk : Disk
  index : Index
  reclaimed : Nat
  deletedEventIds : List EventId

/-- The event need not go, and everything fits. -/
def RetentionRequest.suffices (request : RetentionRequest) (health : EvidenceStoreHealth) (reclaimed deleted : Nat)
    (candidate : Candidate) : Bool :=
  !(candidate.closedAt ≤ request.nowUnixMs && evidenceMaxClosedAgeMs < request.nowUnixMs - candidate.closedAt) &&
    (checkedAdd (health.totalBytes - reclaimed) request.incomingBytes).any (· ≤ evidenceMaxStoreBytes) &&
    (checkedAdd request.filesystem.availableBytes reclaimed).any (fun bytes =>
      request.incomingBytes ≤ bytes &&
        minimumFreeReserve request.filesystem.totalBytes ≤ bytes - request.incomingBytes) &&
    health.eventCount - deleted < evidenceMaxEvents

/-- One round: the event's directory goes, then its entry in the index. -/
def reclaimEvent (candidate : Candidate) (s : Reclaiming) : Except EvidenceStoreError Unit × Reclaiming :=
  match o.validatePrivateDirectory [eventName candidate.eventId] .retentionUnavailable s.disk with
  | .error error => (.error error, s)
  | .ok () =>
    if (s.index.lookup candidate.eventId).map (·.bundleBytes) ≠ some candidate.bundleBytes then
      (.error .retentionUnavailable, s)
    else
      match o.removeDirectory .removeEventDirectory [eventName candidate.eventId] s.disk with
      | (.error _, disk) => (.error .retentionUnavailable, { s with disk })
      | (.ok (), disk) =>
        match o.failure .syncAfterRemoval [eventName candidate.eventId] with
        | some _ => (.error .retentionUnavailable, { s with disk })
        | none =>
          match checkedAdd s.reclaimed candidate.bundleBytes with
          | none => (.error .retentionUnavailable, { s with disk, index := s.index.erase candidate.eventId })
          | some reclaimed =>
            (.ok (), ⟨disk, s.index.erase candidate.eventId, reclaimed, s.deletedEventIds ++ [candidate.eventId]⟩)

/-- The loop of `enforce_retention`. -/
def reclaim (request : RetentionRequest) (health : EvidenceStoreHealth) :
    List Candidate → Reclaiming → Except EvidenceStoreError Unit × Reclaiming
  | [], s => (.ok (), s)
  | candidate :: rest, s =>
    if request.suffices health s.reclaimed s.deletedEventIds.length candidate then (.ok (), s)
    else
      match reclaimEvent o candidate s with
      | (.error error, s) => (.error error, s)
      | (.ok (), s) => reclaim request health rest s

/-- The counters after the loop, and whether the incoming bytes fit. -/
def LinuxEvidenceStore.settleRetention (store : LinuxEvidenceStore) (request : RetentionRequest) (s : Reclaiming) :
    Except EvidenceStoreError RetentionOutcome × LinuxEvidenceStore :=
  let reserve := minimumFreeReserve request.filesystem.totalBytes
  let totalBytes := store.health.totalBytes - s.reclaimed
  let eventCount := min s.index.keys.length 65535
  let availableAfter := saturatingAdd request.filesystem.availableBytes s.reclaimed
  let fits := (checkedAdd totalBytes request.incomingBytes).any (· ≤ evidenceMaxStoreBytes) &&
    (decide (request.incomingBytes ≤ availableAfter) && decide (reserve ≤ availableAfter - request.incomingBytes)) &&
    decide (eventCount < evidenceMaxEvents)
  let store' : LinuxEvidenceStore :=
    ⟨store.packageVersion, s.index, { store.health with available := fits, eventCount, totalBytes }⟩
  if fits then
    (.ok ⟨s.deletedEventIds, eventCount, totalBytes, ⟨request.filesystem.totalBytes, availableAfter⟩, reserve⟩, store')
  else (.error .retentionUnavailable, store')

/-- The checks of `enforce_retention` before its loop, with the answer of `capacity`. -/
def requestRetention (nowUnixMs incomingBytes : Nat) (capacity : Option FilesystemSpace) (t : Disk) :
    Except EvidenceStoreError RetentionRequest :=
  o.validateRoot t >>= fun _ =>
  require (incomingBytes ≤ evidenceMaxEventBytes) .retentionUnavailable >>= fun _ =>
  required capacity .retentionUnavailable >>= fun filesystem =>
  require (filesystem.availableBytes ≤ filesystem.totalBytes) .retentionUnavailable >>= fun _ =>
  .ok ⟨nowUnixMs, incomingBytes, filesystem⟩

/-- `enforce_retention`. -/
def LinuxEvidenceStore.enforceRetention (store : LinuxEvidenceStore) (nowUnixMs incomingBytes : Nat)
    (capacity : Option FilesystemSpace) (t : Disk) :
    Except EvidenceStoreError RetentionOutcome × LinuxEvidenceStore × Disk :=
  match requestRetention o nowUnixMs incomingBytes capacity t with
  | .error error => (.error error, store, t)
  | .ok request =>
    match reclaim o request store.health store.index.candidates ⟨t, store.index, 0, []⟩ with
    | (.error error, s) => (.error error, { store with index := s.index }, s.disk)
    | (.ok (), s) =>
      let (outcome, store) := store.settleRetention request s
      (outcome, store, s.disk)

end

/-! ### Runs -/

/-- One call to the store, with what happens outside during it. -/
inductive StoreCall where
  | recover (o : Outside)
  | put (o : Outside) (temporary : Temporary) (revision : IncidentRevisionV1)
  | enforceRetention (o : Outside) (nowUnixMs incomingBytes : Nat) (capacity : Option FilesystemSpace)

/-- The store and the disk after a call, whether it returned `Ok` or `Err`. -/
def StoreCall.apply (F : Formats) (s : LinuxEvidenceStore × Disk) : StoreCall → LinuxEvidenceStore × Disk
  | .recover o => ((s.1.recover F o s.2).2, s.2)
  | .put o temporary revision => (s.1.put o F temporary revision s.2).2
  | .enforceRetention o nowUnixMs incomingBytes capacity =>
    (s.1.enforceRetention o nowUnixMs incomingBytes capacity s.2).2

/-- The store as a machine; nothing is written down beside it. -/
def keeping (F : Formats) : Recorder (LinuxEvidenceStore × Disk) StoreCall Unit where
  step := StoreCall.apply F
  note _ _ log := log

/-- The store and the disk after some calls. -/
def afterCalls (F : Formats) (s : LinuxEvidenceStore × Disk) (calls : List StoreCall) : LinuxEvidenceStore × Disk :=
  calls.foldl (StoreCall.apply F) s

end NetworkLoop.Evidence
