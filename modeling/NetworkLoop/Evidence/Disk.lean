import NetworkLoop.Library.Effect
import NetworkLoop.Library.FileTree
import NetworkLoop.Evidence.Cursor

/-! The disk under the evidence store (`evidence_store.rs`): the names and the manifest,
and the calls of `StdEvidenceIo`.

The store's root is the root of a file tree: a directory for each event, in it a directory
for each revision with two files, and whatever else lies there. Every call to the outside
may fail, each for itself: an `Outside` says which calls do, and what a failed creation or
removal leaves behind. A failed write leaves part of a file, a failed removal part of a
tree, a failed rename nothing.

JSON and SHA-256 are parameters (`Formats`), with the laws that the store relies on. -/
namespace NetworkLoop.Evidence
open Library Observation

def evidenceMaxStoreBytes : Nat := 1073741824
def evidenceMaxEvents : Nat := 1000
def evidenceMaxRevisionBytes : Nat := 1048576
def evidenceMaxEventBytes : Nat := 16777216
def evidenceMaxClosedAgeMs : Nat := 30 * 24 * 60 * 60 * 1000
def evidenceMinFreeReserveBytes : Nat := 536870912
def evidenceMinFreeReservePercent : Nat := 5

abbrev Bytes := List UInt8

inductive EvidenceStoreError where
  | unsafeRoot | invalidRevision | revisionTooLarge | revisionConflict | revisionSequence | notFound | io
  | retentionUnavailable
  deriving DecidableEq, Repr

/-! ### Names -/

def eventName (eventId : EventId) : String := String.ofList (eventIdText eventId)

/-- The event that a canonical directory name names. -/
def canonicalEvent (name : String) : Option EventId :=
  match parseEventId name.toList with
  | .ok eventId => if eventName eventId = name then some eventId else none
  | .error _ => none

/-- `format!("{revision:016x}")`. -/
def revisionName (revision : Nat) : String := String.ofList (Hex.digits 16 revision)

def parseRevisionName (name : String) : Option Nat :=
  if isFixedHex 16 name.toList then
    (Hex.value name.toList).filter fun revision => 0 < revision ∧ revision ≤ evidenceMaxRevisionsPerEvent
  else none

/-- `starts_with(".tmp-")`. -/
def isTemporary (name : String) : Bool := ".tmp-".toList.isPrefixOf name.toList

/-- The name of a commit's temporary directory: the process ID has at most ten digits, and
no two commits of a process have one sequence number. -/
structure Temporary where
  name : String
  temporary : isTemporary name = true
  short : name.utf8ByteSize ≤ 80

/-! ### The manifest -/

structure EvidenceManifestV1 where
  schemaVersion : Nat
  eventId : EventId
  revision : Nat
  currentState : Detection.DetectionState
  evidenceFile : String
  evidenceBytes : Nat
  evidenceSha256 : String
  totalBytes : Nat
  packageVersion : String
  deriving DecidableEq

/-- `EvidenceManifestV1::validate`; its error carries no data. -/
def EvidenceManifestV1.validate (m : EvidenceManifestV1) : Bool :=
  !(m.schemaVersion ≠ evidenceSchemaVersion || m.revision = 0 || m.revision > evidenceMaxRevisionsPerEvent ||
      m.evidenceFile ≠ "evidence.json" || m.evidenceBytes = 0 || m.evidenceBytes > evidenceMaxRevisionBytes ||
      m.totalBytes < m.evidenceBytes || m.totalBytes > evidenceMaxEventBytes || !isLowerHex m.evidenceSha256 64)

/-- The package version that a store is opened with: 1 to 64 ASCII characters. -/
structure PackageVersion where
  text : String
  bounded : text.isEmpty = false ∧ text.utf8ByteSize ≤ 64 ∧ text.toList.all (·.toNat < 128) = true

/-- `serde_json::to_vec_pretty` and `from_slice` at the two models, and `sha256_hex`. -/
structure Formats where
  revisionJson : IncidentRevisionV1 → Option Bytes
  readRevision : Bytes → Option IncidentRevisionV1
  manifestJson : EvidenceManifestV1 → Option Bytes
  readManifest : Bytes → Option EvidenceManifestV1
  sha256Hex : Bytes → String
  readRevision_json : ∀ r data, revisionJson r = some data → readRevision data = some r
  readManifest_json : ∀ m data, manifestJson m = some data → readManifest data = some m
  sha256Hex_hex : ∀ data, isLowerHex (sha256Hex data) 64 = true
  /-- A manifest is some text, and the text of a store's manifests is short: its strings are. -/
  manifestJson_length : ∀ (m : EvidenceManifestV1) data, manifestJson m = some data → m.evidenceFile = "evidence.json" →
    m.evidenceSha256.utf8ByteSize = 64 → m.packageVersion.utf8ByteSize ≤ 64 →
    0 < data.length ∧ data.length ≤ evidenceMaxRevisionBytes
  /-- A larger total does not make the text shorter. -/
  manifestJson_mono : ∀ (m : EvidenceManifestV1) total total' data data', total ≤ total' →
    manifestJson { m with totalBytes := total } = some data →
    manifestJson { m with totalBytes := total' } = some data' → data.length ≤ data'.length

/-- The loop of `build_manifest`: the total counts the manifest's own text, which has the
total in it. -/
def settleManifest (F : Formats) : Nat → EvidenceManifestV1 → Except EvidenceStoreError (EvidenceManifestV1 × Bytes)
  | 0, _ => .error .io
  | fuel + 1, manifest =>
    match F.manifestJson manifest with
    | none => .error .io
    | some data =>
      match checkedAdd manifest.evidenceBytes data.length with
      | none => .error .revisionTooLarge
      | some total =>
        if manifest.totalBytes = total then .ok (manifest, data)
        else settleManifest F fuel { manifest with totalBytes := total }

def buildManifest (F : Formats) (revision : IncidentRevisionV1) (evidence : Bytes) (packageVersion : PackageVersion) :
    Except EvidenceStoreError (EvidenceManifestV1 × Bytes) :=
  -- the text of a manifest has at most `evidenceMaxRevisionBytes` bytes and never gets shorter
  settleManifest F (evidenceMaxRevisionBytes + 2) {
    schemaVersion := evidenceSchemaVersion
    eventId := revision.eventId
    revision := revision.revision
    currentState := revision.currentState
    evidenceFile := "evidence.json"
    evidenceBytes := evidence.length
    evidenceSha256 := F.sha256Hex evidence
    totalBytes := evidence.length
    packageVersion := packageVersion.text } >>= fun (manifest, data) =>
  if manifest.validate then .ok (manifest, data) else .error .invalidRevision

/-! ### The outside -/

inductive EvidenceFileType where
  | file | directory | symlink | other
  deriving DecidableEq, Repr

structure EvidenceMetadata where
  fileType : EvidenceFileType
  mode : Nat
  uid : Nat
  length : Nat
  deriving DecidableEq

inductive Node where
  | file (mode uid : Nat) (data : Bytes)
  | directory (mode uid : Nat)
  | symlink (uid : Nat)
  | other (mode uid : Nat)
  deriving DecidableEq

namespace Node

def isDirectory : Node → Bool
  | .directory _ _ => true
  | _ => false

def metadata : Node → EvidenceMetadata
  | .file mode uid data => ⟨.file, mode, uid, data.length⟩
  | .directory mode uid => ⟨.directory, mode, uid, 0⟩
  | .symlink uid => ⟨.symlink, 0o777, uid, 0⟩
  | .other mode uid => ⟨.other, mode, uid, 0⟩

end Node

/-- What lies under the root of the store. -/
abbrev Disk := FileTree Node Node.isDirectory

inductive EvidenceIoStep where
  | createEvent | createTemporary | writeEvidence | writeManifest | syncTemporary | publish | syncEvent
  deriving DecidableEq, Repr

/-- The calls to the outside. `metadata` is called in three places on one path at most once
each; the root is synced once for each event that retention removes. -/
inductive IoCall where
  | checkpoint (step : EvidenceIoStep)
  | metadata | validate | readDirectory | readFile | createDirectory | writeFile | syncDirectory
  | renameNoreplace | removePrivateDirectory | removeEventDirectory | syncAfterRemoval
  deriving DecidableEq, Repr

/-- What a failed call has done nevertheless: the node it was to create may be there, with
some mode and some of its data, and what it was to remove may be there in part. -/
structure Failure where
  made : Option (Nat × Bytes)
  kept : Path → Bool

/-- Which calls fail in one operation, and whose files are the store's own. -/
structure Outside where
  uid : Nat
  failure : IoCall → Path → Option Failure

inductive IoErrorKind where
  | notFound | alreadyExists | other
  deriving DecidableEq, Repr

namespace Outside
variable (o : Outside)

/-- A call that changes nothing. -/
def check (call : IoCall) (path : Path) : Effect Disk IoErrorKind Unit :=
  .ask fun _ => if o.failure call path = none then .ok () else .error .other

def metadata (call : IoCall) (path : Path) (t : Disk) : Except IoErrorKind EvidenceMetadata :=
  match o.failure call path with
  | some _ => .error .other
  | none =>
    match t.get path with
    | none => .error .notFound
    | some node => .ok node.metadata

/-- The names in a directory, sorted. -/
def readDirectory (path : Path) (t : Disk) : Except IoErrorKind (List String) :=
  match o.failure .readDirectory path with
  | some _ => .error .other
  | none =>
    if (t.get path).any Node.isDirectory then .ok ((t.children path).mergeSort fun a b => decide (a ≤ b))
    else .error .other

def readFile (path : Path) (t : Disk) : Except IoErrorKind Bytes :=
  match o.failure .readFile path with
  | some _ => .error .other
  | none =>
    match t.get path with
    | some (.file _ _ data) => if data.length > evidenceMaxRevisionBytes then .error .other else .ok data
    | some _ => .error .other
    | none => .error .notFound

/-- A new node at a free path. A failed creation leaves the node that `left` says, if there
is room for it. -/
def create (call : IoCall) (path : Path) (node : Node) (left : Nat × Bytes → Node) : Effect Disk IoErrorKind Unit := fun t =>
  match t.get path with
  | some _ => (.error .alreadyExists, t)
  | none =>
    match o.failure call path with
    | some failure => (.error .other, (failure.made.bind fun made => t.put path (left made)).getD t)
    | none =>
      match t.put path node with
      | some t' => (.ok (), t')
      | none => (.error .notFound, t)

def createDirectory (path : Path) (mode : Nat) : Effect Disk IoErrorKind Unit :=
  o.create .createDirectory path (.directory mode o.uid) fun made => .directory made.1 o.uid

def writeFile (path : Path) (data : Bytes) (mode : Nat) : Effect Disk IoErrorKind Unit :=
  o.create .writeFile path (.file mode o.uid data) fun made => .file made.1 o.uid made.2

def renameNoreplace (src dst : Path) : Effect Disk IoErrorKind Unit := fun t =>
  match o.failure .renameNoreplace src with
  | some _ => (.error .other, t)
  | none =>
    match t.get dst with
    | some _ => (.error .alreadyExists, t)
    | none =>
      match t.graft src dst with
      | some t' => (.ok (), t')
      | none => (.error .notFound, t)

/-- A directory of mode 0700 with all that lies in it. -/
def removeDirectory (call : IoCall) (path : Path) : Effect Disk IoErrorKind Unit := fun t =>
  match (t.get path).map Node.metadata with
  | some ⟨.directory, 0o700, _, _⟩ =>
    match o.failure call path with
    | some failure => (.error .other, t.prune path failure.kept)
    | none => (.ok (), t.prune path fun _ => false)
  | _ => (.error .other, t)

/-! ### What the store asks -/

/-- `validate_root` and `validate_private_directory`, which differ in the error. -/
def validatePrivateDirectory (path : Path) (error : EvidenceStoreError) (t : Disk) : Except EvidenceStoreError Unit :=
  match o.metadata .validate path t with
  | .error _ => .error error
  | .ok metadata =>
    if metadata.fileType ≠ .directory ∨ metadata.mode ≠ 0o700 ∨ metadata.uid ≠ o.uid then .error error else .ok ()

def validateRoot : Disk → Except EvidenceStoreError Unit := o.validatePrivateDirectory [] .unsafeRoot

end Outside

end NetworkLoop.Evidence
