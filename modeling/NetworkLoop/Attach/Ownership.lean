import NetworkLoop.Library.Text
import NetworkLoop.Attach.AllOrNothing

/-! The journals of attachments on the disk (`ownership.rs`).

A record is written to a new file beside its journal, synced and renamed onto it, and it is read back
only from a private file, as what was written there and with all its pins in place. The calls of
`std::fs` are parameters. `Behaves` is what they do to the entries of the directory of the journals, in
which no one else is at work, and from it each operation of the repository has one lemma that says how
it can end. -/
namespace NetworkLoop.Attach
open Library Custody
open Effect (Meets)

abbrev Bytes := List UInt8

/-! ### The file system -/

inductive OwnershipFileType where
  | file | directory | symlink | other
  deriving DecidableEq, Repr

structure OwnershipMetadata where
  fileType : OwnershipFileType
  mode : Nat
  deriving DecidableEq, Repr

structure OwnershipFileSystem (τ : Type) where
  metadata : PathBuf → Effect τ IoError OwnershipMetadata
  read : PathBuf → Effect τ IoError Bytes
  writeNewSync : PathBuf → Bytes → Nat → Effect τ IoError Unit
  renameReplace : PathBuf → PathBuf → Effect τ IoError Unit
  syncDirectory : PathBuf → Effect τ IoError Unit

/-- The calls of `std::fs`. A file that is open is named by its path. -/
structure StdFs (τ : Type) where
  symlinkMetadata : PathBuf → Effect τ IoError OwnershipMetadata
  read : PathBuf → Effect τ IoError Bytes
  createDirAll : PathBuf → Effect τ IoError Unit
  openNew : PathBuf → Nat → Effect τ IoError Unit
  setPermissions : PathBuf → Nat → Effect τ IoError Unit
  writeAll : PathBuf → Bytes → Effect τ IoError Unit
  syncAll : PathBuf → Effect τ IoError Unit
  rename : PathBuf → PathBuf → Effect τ IoError Unit
  syncDirectory : PathBuf → Effect τ IoError Unit
  removeFile : PathBuf → Effect τ IoError Unit

section
variable {τ : Type} (fs : StdFs τ)

def stdMetadata (path : PathBuf) : Effect τ IoError OwnershipMetadata := do
  let metadata ← fs.symlinkMetadata path
  return { metadata with mode := metadata.mode &&& 0o777 }

def stdWriteNewSync (path : PathBuf) (contents : Bytes) (mode : Nat) : Effect τ IoError Unit :=
  match path.parent with
  | none => Effect.ask fun _ => .error ⟨.invalidInput, "missing parent"⟩
  | some parent => do
    fs.createDirAll parent
    let parentMetadata ← fs.symlinkMetadata parent
    Effect.ask fun _ =>
      if parentMetadata.fileType = .symlink || parentMetadata.fileType ≠ .directory then
        .error ⟨.invalidInput, "journal parent is not a directory"⟩
      else .ok ()
    fs.openNew path mode
    fs.setPermissions path mode
    fs.writeAll path contents
    fs.syncAll path

def stdOwnershipFileSystem : OwnershipFileSystem τ where
  metadata := stdMetadata fs
  read := fs.read
  writeNewSync := stdWriteNewSync fs
  renameReplace := fs.rename
  syncDirectory := fs.syncDirectory

end

/-- Records as JSON. -/
structure RecordJson where
  toVecPretty : OwnershipRecord → Except String Bytes
  fromSlice : Bytes → Except String OwnershipRecord

/-- What is written is read back. -/
def RecordJson.RoundTrips (json : RecordJson) : Prop := ∀ record contents, json.toVecPretty record = .ok contents → json.fromSlice contents = .ok record

/-! ### The store of one run -/

section
variable {τ : Type} (filesystem : OwnershipFileSystem τ)

def rejectSymlink (path : PathBuf) : Effect τ OwnershipError Unit := do
  let metadata ← (filesystem.metadata path).orElseError (.io path)
  Effect.ask fun _ => if metadata.fileType = .symlink then .error (.symlink path) else .ok ()

namespace TestPinRoot

/-- The loop of `validate_existing`, below `current`. -/
def validateComponents (current : PathBuf) : List Component → Effect τ OwnershipError Unit
  | [] => pure ()
  | .normal name :: rest => do
    rejectSymlink filesystem (current.push name)
    validateComponents (current.push name) rest
  | _ :: _ => Effect.ask fun _ => .error .invalidPinPath

def validateExisting (pins : TestPinRoot) (target : PathBuf) : Effect τ OwnershipError Unit := do
  Effect.ask fun _ => pins.validateLexical target
  rejectSymlink filesystem pins.path
  match PathBuf.stripPrefix? pins.path target with
  | none => Effect.ask fun _ => .error .invalidPinPath
  | some suffix => validateComponents filesystem pins.path suffix

def validateAllExisting (pins : TestPinRoot) : List OwnedMapPin → Effect τ OwnershipError Unit
  | [] => pure ()
  | pin :: rest => do
    pins.validateExisting filesystem pin.path
    pins.validateAllExisting rest

end TestPinRoot

/-- The checks of `validate_record` that look at nothing but the record. -/
def OwnershipRecord.validateIdentity (record : OwnershipRecord) (expectedAbiVersion expectedIfindex expectedGeneration : Nat) :
    Except OwnershipError Unit :=
  if record.schemaVersion ≠ ownershipSchemaVersion then .error (.schemaMismatch ownershipSchemaVersion record.schemaVersion)
  else if record.abiVersion ≠ expectedAbiVersion || record.abiVersion ≠ NetworkLoop.Attach.abiVersion then
    .error (.abiMismatch expectedAbiVersion record.abiVersion)
  else if record.ifindex = 0 || record.generation = 0 || record.ifindex ≠ expectedIfindex || record.generation ≠ expectedGeneration then
    .error (.identityMismatch "journal generation or ifindex does not match")
  else if (record.xdp.any fun xdp => xdp.ifindex ≠ record.ifindex) || record.tc.any fun tc => tc.ifindex ≠ record.ifindex then
    .error (.identityMismatch "owned hook ifindex does not match journal")
  else record.validateOwnedMaps

structure OwnershipStore (τ : Type) where
  filesystem : OwnershipFileSystem τ
  journal : JournalPath
  pins : TestPinRoot

namespace OwnershipStore
variable (store : OwnershipStore τ) (json : RecordJson)

def validateRecord (record : OwnershipRecord) (expectedAbiVersion expectedIfindex expectedGeneration : Nat) : Effect τ OwnershipError Unit := do
  Effect.ask fun _ => record.validateIdentity expectedAbiVersion expectedIfindex expectedGeneration
  store.pins.validateAllExisting store.filesystem record.mapPins

/-- What `save` finds in its place must be a file, if it is there. -/
def checkPlace : Effect τ OwnershipError Unit := fun w =>
  match store.filesystem.metadata store.journal.path w with
  | (.ok metadata, w') => (if metadata.fileType ≠ .file then .error .invalidJournalPath else .ok (), w')
  | (.error error, w') => (if error.kind = .notFound then .ok () else .error (.io store.journal.path error), w')

def save (record : OwnershipRecord) : Effect τ OwnershipError Unit := do
  store.validateRecord record record.abiVersion record.ifindex record.generation
  store.checkPlace
  let contents ← Effect.ask fun _ => (json.toVecPretty record).mapError .json
  (store.filesystem.writeNewSync store.journal.temporaryPath contents 0o600).orElseError (.io store.journal.temporaryPath)
  (store.filesystem.renameReplace store.journal.temporaryPath store.journal.path).orElseError (.io store.journal.path)
  (store.filesystem.syncDirectory store.journal.root).orElseError (.io store.journal.root)

def loadCurrent : Effect τ OwnershipError OwnershipRecord := do
  let metadata ← (store.filesystem.metadata store.journal.path).orElseError (.io store.journal.path)
  Effect.ask fun _ =>
    if metadata.fileType = .symlink then .error (.symlink store.journal.path)
    else if metadata.fileType ≠ .file || metadata.mode ≠ 0o600 then .error .invalidJournalPath
    else .ok ()
  let contents ← (store.filesystem.read store.journal.path).orElseError (.io store.journal.path)
  let record ← Effect.ask fun _ => (json.fromSlice contents).mapError .json
  store.validateRecord record abiVersion record.ifindex record.generation
  return record

def loadValidated (expectedAbiVersion expectedIfindex expectedGeneration : Nat) : Effect τ OwnershipError OwnershipRecord := do
  let record ← store.loadCurrent json
  store.validateRecord record expectedAbiVersion expectedIfindex expectedGeneration
  return record

end OwnershipStore

end

/-! ### The repository -/

namespace FileOwnershipRepository
variable {τ : Type} (fs : StdFs τ) (json : RecordJson)

def load (runId : RunId) : Effect τ PortError OwnershipRecord := do
  let journal ← Effect.ask fun _ => (JournalPath.new runId).mapError ownershipPortError
  let pins ← Effect.ask fun _ => (TestPinRoot.new runId).mapError ownershipPortError
  (OwnershipStore.loadCurrent ⟨stdOwnershipFileSystem fs, journal, pins⟩ json).orElseError ownershipPortError

def pathsForRecord (record : OwnershipRecord) : Except PortError (JournalPath × TestPinRoot) :=
  match record.mapPins.head? with
  | none => .error (.adapter "ownership record has no pin identity")
  | some first =>
    match first.path.parent with
    | none => .error (.adapter "owned pin has no run root")
    | some parent =>
      match parent.fileName with
      | none => .error (.adapter "owned pin run ID is invalid")
      | some value => do
        let runId ← (RunId.parse value).mapError ownershipPortError
        let journal ← (JournalPath.new runId).mapError ownershipPortError
        let pins ← (TestPinRoot.new runId).mapError ownershipPortError
        if parent ≠ pins.path || record.mapPins.any fun pin => !(pins.validateLexical pin.path).isOk then
          .error (.adapter "ownership record contains a pin outside its isolated run")
        else .ok (journal, pins)

def save (record : OwnershipRecord) : Effect τ PortError Unit := do
  let (journal, pins) ← Effect.ask fun _ => pathsForRecord record
  (OwnershipStore.save ⟨stdOwnershipFileSystem fs, journal, pins⟩ json record).orElseError ownershipPortError

def removeExact (record : OwnershipRecord) : Effect τ PortError Unit := do
  let (journal, pins) ← Effect.ask fun _ => pathsForRecord record
  let current ← (OwnershipStore.loadValidated ⟨stdOwnershipFileSystem fs, journal, pins⟩ json record.abiVersion record.ifindex
    record.generation).orElseError ownershipPortError
  Effect.ask fun _ =>
    if current ≠ record then .error (.adapter "ownership journal changed identity and was retained") else .ok ()
  (fs.removeFile journal.path).orElseError fun source => ownershipPortError (.io journal.path source)
  (fs.syncDirectory journal.root).orElseError fun source => ownershipPortError (.io journal.root source)

end FileOwnershipRepository

/-! ### The directory of the journals -/

inductive Node where
  | file (mode : Nat) (contents : Bytes)
  | directory | symlink | other
  deriving DecidableEq, Repr

def Node.fileType : Node → OwnershipFileType
  | .file _ _ => .file
  | .directory => .directory
  | .symlink => .symlink
  | .other => .other

abbrev Entries := String → Option Node

/-- A place in the directory of the journals. -/
def entryPath (name : String) : PathBuf := testJournalRoot.push name

/-- What the calls do to the entries. A failed one changes nothing, but for a write, which may stop
after some of its bytes. -/
structure StdFs.Behaves {τ : Type} (fs : StdFs τ) (entries : τ → Entries) : Prop where
  metadata : ∀ path, Quiet entries (fs.symlinkMetadata path)
  metadataOf : ∀ name w metadata w', fs.symlinkMetadata (entryPath name) w = (.ok metadata, w') →
    ∃ node, entries w name = some node ∧ metadata.fileType = node.fileType ∧ ∀ mode contents, node = .file mode contents → metadata.mode = mode
  read : ∀ name, Quiet entries (fs.read (entryPath name))
  readOf : ∀ name w mode contents found w', entries w name = some (.file mode contents) →
    fs.read (entryPath name) w = (.ok found, w') → found = contents
  createDirAll : Quiet entries (fs.createDirAll testJournalRoot)
  openNew : ∀ name mode d, Meets (entries · = d) (fs.openNew (entryPath name) mode)
    (fun _ w => d name = none ∧ ∃ bits, entries w = Function.update d name (some (.file bits []))) fun _ w => entries w = d
  setPermissions : ∀ name mode d bits contents, d name = some (.file bits contents) →
    Meets (entries · = d) (fs.setPermissions (entryPath name) mode)
      (fun _ w => entries w = Function.update d name (some (.file mode contents))) fun _ w => entries w = d
  writeAll : ∀ name contents d bits, d name = some (.file bits []) → Meets (entries · = d) (fs.writeAll (entryPath name) contents)
    (fun _ w => entries w = Function.update d name (some (.file bits contents)))
    fun _ w => ∃ n, entries w = Function.update d name (some (.file bits (contents.take n)))
  syncAll : ∀ name, Quiet entries (fs.syncAll (entryPath name))
  rename : ∀ source target d, source ≠ target → Meets (entries · = d) (fs.rename (entryPath source) (entryPath target))
    (fun _ w => ∃ node, d source = some node ∧ entries w = Function.update (Function.update d target (some node)) source none)
    fun _ w => entries w = d
  syncDirectory : Quiet entries (fs.syncDirectory testJournalRoot)
  removeFile : ∀ name d, Meets (entries · = d) (fs.removeFile (entryPath name)) (fun _ w => entries w = Function.update d name none)
    fun _ w => entries w = d

namespace RunId

def journalName (runId : RunId) : String := runId.text ++ ".json"
def temporaryName (runId : RunId) : String := runId.journalName ++ ".tmp"
def journal (runId : RunId) : JournalPath := ⟨testJournalRoot, entryPath runId.journalName⟩
def pinRoot (runId : RunId) : TestPinRoot := ⟨testPinBase.push runId.text⟩

theorem journalName_inj {a b : RunId} (h : a.journalName = b.journalName) : a = b := by
  have hlists := congrArg String.toList h
  simp only [journalName, String.toList_append, List.append_cancel_right_eq] at hlists
  cases a
  cases b
  exact congrArg _ (String.toList_injective hlists)

theorem temporaryName_inj {a b : RunId} (h : a.temporaryName = b.temporaryName) : a = b := by
  refine journalName_inj (String.toList_injective ?_)
  have hlists := congrArg String.toList h
  simp only [temporaryName, String.toList_append, List.append_cancel_right_eq] at hlists
  exact hlists

/-- One ends in `n`, the other in `p`. -/
theorem journalName_ne_temporaryName (a b : RunId) : a.journalName ≠ b.temporaryName := by
  intro h
  have hlast := congrArg (·.toList.getLast?) h
  simp [journalName, temporaryName] at hlast

theorem journal_temporaryPath (runId : RunId) : runId.journal.temporaryPath = entryPath runId.temporaryName := by
  simp [JournalPath.temporaryPath, journal, entryPath, PathBuf.fileName, PathBuf.push, temporaryName]

end RunId

section
variable {τ : Type} {fs : StdFs τ} {entries : τ → Entries} {json : RecordJson} {d : Entries}

theorem update_moved {name target : String} {node : Node} (hfree : d name = none) (hne : name ≠ target) :
    Function.update (Function.update (Function.update d name (some node)) target (some node)) name none =
      Function.update d target (some node) := by
  rw [Function.update_comm hne, Function.update_idem, Function.update_comm hne.symm, ← hfree, Function.update_eq_self]

/-! ### Looking -/

theorem stdMetadata_quiet (hfs : fs.Behaves entries) (path : PathBuf) : Quiet entries (stdMetadata fs path) := by
  intro w
  have hsame := hfs.metadata path w
  unfold stdMetadata
  rcases hrun : fs.symlinkMetadata path w with ⟨error | metadata, w'⟩
  · rw [Effect.bind_of_error hrun]
    exact (congrArg (entries ∘ Prod.snd) hrun).symm.trans hsame
  · rw [Effect.bind_of_ok hrun]
    exact (congrArg (entries ∘ Prod.snd) hrun).symm.trans hsame

/-- The error tells what was found, or could not be found, in the file system, and nothing of a record. -/
def OwnershipError.Outside : OwnershipError → Prop
  | .io _ _ | .symlink _ => True
  | _ => False

theorem TestPinRoot.validateLexical_eq_ok {pins : TestPinRoot} {target : PathBuf} (h : pins.validateLexical target = .ok ()) :
    ∃ suffix, PathBuf.stripPrefix? pins.path target = some suffix ∧ ∀ component ∈ suffix, ∃ name, component = .normal name := by
  unfold validateLexical at h
  split at h
  case isTrue => cases h
  case isFalse =>
    split at h
    case h_1 => cases h
    case h_2 => cases h
    case h_3 components _ hsuffix =>
      split at h
      case isFalse => cases h
      case isTrue hnormal =>
        refine ⟨components, hsuffix, fun component hmem => ?_⟩
        have hmatches := List.all_eq_true.mp hnormal component hmem
        cases component with
        | normal name => exact ⟨name, rfl⟩
        | _ => cases hmatches

section
variable {filesystem : OwnershipFileSystem τ} (hquiet : ∀ path, Quiet entries (filesystem.metadata path))
include hquiet

theorem rejectSymlink_meets (path : PathBuf) :
    Meets (entries · = d) (rejectSymlink filesystem path) (fun _ w => entries w = d) (fun e w => entries w = d ∧ e.Outside) := by
  refine Meets.bind (((hquiet path).meets d).orElseError fun _ _ h => ⟨h, trivial⟩) fun metadata => ?_
  refine Meets.ask (fun _ _ h _ => h) fun w e h he => ⟨h, ?_⟩
  split at he
  · cases he
    exact trivial
  · cases he

theorem TestPinRoot.validateComponents_meets {components : List Component} (hnormal : ∀ component ∈ components, ∃ name, component = .normal name)
    (current : PathBuf) :
    Meets (entries · = d) (validateComponents filesystem current components) (fun _ w => entries w = d)
      (fun e w => entries w = d ∧ e.Outside) := by
  induction components generalizing current with
  | nil => exact fun _ h => h
  | cons component rest ih =>
    obtain ⟨⟨name, rfl⟩, hrest⟩ := List.forall_mem_cons.mp hnormal
    exact Meets.bind (rejectSymlink_meets hquiet _) fun _ => ih hrest _

theorem TestPinRoot.validateExisting_meets (pins : TestPinRoot) (target : PathBuf) :
    Meets (entries · = d) (pins.validateExisting filesystem target) (fun _ w => entries w = d ∧ pins.validateLexical target = .ok ())
      (fun e w => entries w = d ∧ (pins.validateLexical target = .ok () → e.Outside)) := by
  refine Meets.bind (Q := fun _ w => pins.validateLexical target = .ok () ∧ entries w = d)
    (Meets.ask (fun _ _ h hok => ⟨hok, h⟩) fun _ _ h herror => ⟨h, fun hok => nomatch hok.symm.trans herror⟩) fun _ => Meets.assume fun hok => ?_
  refine Meets.bind ((rejectSymlink_meets hquiet _).imp_error fun _ _ h => ⟨h.1, fun _ => h.2⟩) fun _ => ?_
  obtain ⟨suffix, hsuffix, hnormal⟩ := validateLexical_eq_ok hok
  rw [hsuffix]
  exact (validateComponents_meets hquiet hnormal pins.path).mono (fun _ h => h) (fun _ _ h => ⟨h, hok⟩) fun _ _ h => ⟨h.1, fun _ => h.2⟩

theorem TestPinRoot.validateAllExisting_meets (pins : TestPinRoot) (all : List OwnedMapPin) :
    Meets (entries · = d) (pins.validateAllExisting filesystem all)
      (fun _ w => entries w = d ∧ ∀ pin ∈ all, pins.validateLexical pin.path = .ok ())
      (fun e w => entries w = d ∧ ((∀ pin ∈ all, pins.validateLexical pin.path = .ok ()) → e.Outside)) := by
  induction all with
  | nil => exact fun _ h => ⟨h, fun _ hmem => absurd hmem List.not_mem_nil⟩
  | cons pin rest ih =>
    refine Meets.bind (Q := fun _ w => pins.validateLexical pin.path = .ok () ∧ entries w = d)
      ((validateExisting_meets hquiet pins pin.path).mono (fun _ h => h) (fun _ _ h => h.symm) fun _ _ h => ?_)
      fun _ => Meets.assume fun hpin => ?_
    · exact ⟨h.1, fun hall => h.2 (hall pin List.mem_cons_self)⟩
    · refine ih.mono (fun _ h => h) (fun _ _ h => ⟨h.1, List.forall_mem_cons.mpr ⟨hpin, h.2⟩⟩) fun _ _ h => ?_
      exact ⟨h.1, fun hall => h.2 (List.forall_mem_cons.mp hall).2⟩

/-- What `validate_record` asks of the record alone. -/
structure OwnershipRecord.Fits (record : OwnershipRecord) (pins : TestPinRoot) (expectedAbiVersion expectedIfindex expectedGeneration : Nat) :
    Prop where
  identity : record.validateIdentity expectedAbiVersion expectedIfindex expectedGeneration = .ok ()
  lexical : ∀ pin ∈ record.mapPins, pins.validateLexical pin.path = .ok ()

theorem OwnershipStore.validateRecord_meets {journal : JournalPath} {pins : TestPinRoot} (record : OwnershipRecord)
    (abiVersion ifindex generation : Nat) :
    Meets (entries · = d) (OwnershipStore.validateRecord ⟨filesystem, journal, pins⟩ record abiVersion ifindex generation)
      (fun _ w => entries w = d ∧ record.Fits pins abiVersion ifindex generation)
      (fun e w => entries w = d ∧ (record.Fits pins abiVersion ifindex generation → e.Outside)) := by
  refine Meets.bind (Q := fun _ w => record.validateIdentity abiVersion ifindex generation = .ok () ∧ entries w = d)
    (Meets.ask (fun _ _ h hok => ⟨hok, h⟩) fun _ _ h herror => ⟨h, fun hfits => nomatch hfits.identity.symm.trans herror⟩)
    fun _ => Meets.assume fun hok => ?_
  exact (TestPinRoot.validateAllExisting_meets hquiet pins record.mapPins).mono (fun _ h => h) (fun _ _ h => ⟨h.1, hok, h.2⟩)
    fun _ _ h => ⟨h.1, fun hfits => h.2 hfits.lexical⟩

end

/-! ### Writing -/

theorem stdWriteNewSync_meets (hfs : fs.Behaves entries) (name : String) (contents : Bytes) (mode : Nat) :
    Meets (entries · = d) (stdWriteNewSync fs (entryPath name) contents mode)
      (fun _ w => d name = none ∧ entries w = Function.update d name (some (.file mode contents)))
      (fun _ w => entries w = d ∨ d name = none ∧ ∃ node, entries w = Function.update d name (some node)) := by
  refine Meets.bind ((hfs.createDirAll.meets d).imp_error fun _ _ h => .inl h) fun _ => ?_
  refine Meets.bind (((hfs.metadata _).meets d).imp_error fun _ _ h => .inl h) fun _ => ?_
  refine Meets.bind (Q := fun _ w => entries w = d) (Meets.ask (fun _ _ h _ => h) fun _ _ h _ => .inl h) fun _ => ?_
  refine Meets.bind ((hfs.openNew name mode d).imp_error fun _ _ h => .inl h) fun _ => Meets.assume fun hfree => Meets.choose fun bits => ?_
  -- from here on the file is there, whatever happens
  have hpermissions := hfs.setPermissions name mode (Function.update d name (some (.file bits []))) bits [] (Function.update_self ..)
  have hwrite := hfs.writeAll name contents (Function.update d name (some (.file mode []))) mode (Function.update_self ..)
  simp only [Function.update_idem] at hpermissions hwrite
  refine Meets.bind (hpermissions.imp_error fun _ _ h => .inr ⟨hfree, _, h⟩) fun _ => ?_
  refine Meets.bind (hwrite.imp_error fun _ _ h => .inr ⟨hfree, _, h.choose_spec⟩) fun _ => ?_
  exact ((hfs.syncAll name).meets _).mono (fun _ h => h) (fun _ _ h => ⟨hfree, h⟩) fun _ _ h => .inr ⟨hfree, _, h⟩

namespace OwnershipStore

theorem checkPlace_meets {store : OwnershipStore τ} (hquiet : ∀ path, Quiet entries (store.filesystem.metadata path)) :
    Meets (entries · = d) store.checkPlace (fun _ w => entries w = d) (fun _ w => entries w = d) := by
  intro w hw
  have hsame := (hquiet store.journal.path w).trans hw
  unfold checkPlace
  rcases hrun : store.filesystem.metadata store.journal.path w with ⟨error | metadata, w'⟩
  · rw [hrun] at hsame
    dsimp only
    cases if error.kind = .notFound then .ok () else Except.error (OwnershipError.io store.journal.path error) <;> exact hsame
  · rw [hrun] at hsame
    dsimp only
    cases if metadata.fileType ≠ .file then Except.error OwnershipError.invalidJournalPath else .ok () <;> exact hsame

end OwnershipStore

/-- The record is one that a run may have. -/
def OwnershipRecord.Sound (record : OwnershipRecord) (runId : RunId) : Prop :=
  record.Fits runId.pinRoot NetworkLoop.Attach.abiVersion record.ifindex record.generation

/-- The journal is the record now, whatever it was. -/
def Replaced (json : RecordJson) (runId : RunId) (record : OwnershipRecord) (d d' : Entries) : Prop :=
  d runId.temporaryName = none ∧ record.Sound runId ∧
    ∃ contents, json.toVecPretty record = .ok contents ∧ d' = Function.update d runId.journalName (some (.file 0o600 contents))

/-- A file is left beside the journal. -/
def TemporaryLeft (runId : RunId) (d d' : Entries) : Prop :=
  d runId.temporaryName = none ∧ ∃ node, d' = Function.update d runId.temporaryName (some node)

def StdFs.SyncsDirectory (fs : StdFs τ) : Prop := ∀ w, (fs.syncDirectory testJournalRoot w).1.isOk = true

theorem syncDirectory_meets (hfs : fs.Behaves entries) : Meets (entries · = d) (fs.syncDirectory testJournalRoot)
    (fun _ w => entries w = d) (fun _ w => entries w = d ∧ ¬fs.SyncsDirectory) := by
  intro w hw
  have hsame := (hfs.syncDirectory w).trans hw
  rcases hrun : fs.syncDirectory testJournalRoot w with ⟨error | _, w'⟩
  · rw [hrun] at hsame
    refine ⟨hsame, fun hsyncs => ?_⟩
    have hok := hsyncs w
    rw [hrun] at hok
    cases hok
  · rw [hrun] at hsame
    exact hsame

theorem OwnershipRecord.Fits.sound {record : OwnershipRecord} {runId : RunId}
    (h : record.Fits runId.pinRoot record.abiVersion record.ifindex record.generation) : record.Sound runId := by
  refine ⟨?_, h.lexical⟩
  have hidentity := h.identity
  unfold validateIdentity at hidentity ⊢
  split
  case isTrue hschema =>
    rw [if_pos hschema] at hidentity
    cases hidentity
  case isFalse hschema =>
    rw [if_neg hschema] at hidentity
    split at hidentity
    case isTrue => cases hidentity
    case isFalse habi =>
      have hsame : record.abiVersion = NetworkLoop.Attach.abiVersion := by simpa using habi
      rw [if_neg (by simp [hsame])]
      exact hidentity

/-- The store of a run, on the file system of the agent. -/
def StdFs.store (fs : StdFs τ) (runId : RunId) : OwnershipStore τ := ⟨stdOwnershipFileSystem fs, runId.journal, runId.pinRoot⟩

theorem OwnershipStore.save_meets (hfs : fs.Behaves entries) (runId : RunId) (record : OwnershipRecord) :
    Meets (entries · = d) ((fs.store runId).save json record) (fun _ w => Replaced json runId record d (entries w))
      (fun _ w => entries w = d ∨ TemporaryLeft runId d (entries w) ∨ Replaced json runId record d (entries w) ∧ ¬fs.SyncsDirectory) := by
  have hquiet : ∀ path, Quiet entries ((fs.store runId).filesystem.metadata path) := stdMetadata_quiet hfs
  refine Meets.bind ((validateRecord_meets hquiet record _ _ _).mono (fun _ h => h) (fun _ _ h => And.comm.mp h) fun _ _ h => .inl h.1)
    fun _ => Meets.assume fun hfits => ?_
  refine Meets.bind ((checkPlace_meets hquiet).imp_error fun _ _ h => .inl h) fun _ => ?_
  refine Meets.bind (Q := fun contents w => json.toVecPretty record = .ok contents ∧ entries w = d)
    (Meets.ask (fun w contents h hok => ⟨?_, h⟩) fun _ _ h _ => .inl h) fun contents => Meets.assume fun hcontents => ?_
  · cases hjson : json.toVecPretty record with
    | error text =>
      rw [hjson] at hok
      cases hok
    | ok written =>
      rw [hjson] at hok
      cases hok
      rfl
  have htemporary : (fs.store runId).journal.temporaryPath = entryPath runId.temporaryName := runId.journal_temporaryPath
  rw [htemporary]
  refine Meets.bind ((stdWriteNewSync_meets hfs runId.temporaryName contents 0o600).orElseError fun _ _ h => ?_)
    fun _ => Meets.assume fun hfree => ?_
  · exact h.imp_right .inl
  have hne : runId.temporaryName ≠ runId.journalName := (RunId.journalName_ne_temporaryName runId runId).symm
  have hrename := hfs.rename runId.temporaryName runId.journalName (Function.update d runId.temporaryName (some (.file 0o600 contents))) hne
  refine Meets.bind (Q := fun _ w => entries w = Function.update d runId.journalName (some (.file 0o600 contents)))
    ((hrename.mono (fun _ h => h) (fun _ w h => ?_) fun _ _ h => h).orElseError fun _ _ h => .inr (.inl ⟨hfree, _, h⟩)) fun _ => ?_
  · obtain ⟨node, hnode, hentries⟩ := h
    rw [Function.update_self] at hnode
    cases hnode
    exact hentries.trans (update_moved hfree hne)
  · have hreplaced : ∀ w, entries w = Function.update d runId.journalName (some (.file 0o600 contents)) →
        Replaced json runId record d (entries w) := fun w h => ⟨hfree, hfits.sound, contents, hcontents, h⟩
    exact ((syncDirectory_meets hfs).mono (fun _ h => h) (fun _ w h => hreplaced w h) fun _ w h => h).orElseError
      fun _ w h => .inr (.inr ⟨hreplaced w h.1, h.2⟩)

/-! ### Reading -/

/-- The journal of the run is a private file with this record. -/
def Journaled (json : RecordJson) (d : Entries) (runId : RunId) (record : OwnershipRecord) : Prop :=
  ∃ mode contents, d runId.journalName = some (.file mode contents) ∧ mode &&& 0o777 = 0o600 ∧ json.fromSlice contents = .ok record

theorem Journaled.unique {runId : RunId} {a b : OwnershipRecord} (ha : Journaled json d runId a) (hb : Journaled json d runId b) : a = b := by
  obtain ⟨_, contents, hentry, -, hdecoded⟩ := ha
  obtain ⟨_, contents', hentry', -, hdecoded'⟩ := hb
  cases hentry.symm.trans hentry'
  exact Except.ok.inj (hdecoded.symm.trans hdecoded')

theorem stdMetadata_meets (hfs : fs.Behaves entries) (name : String) :
    Meets (entries · = d) (stdMetadata fs (entryPath name))
      (fun metadata w => (∃ node, d name = some node ∧ metadata.fileType = node.fileType ∧
        ∀ mode contents, node = .file mode contents → metadata.mode = mode &&& 0o777) ∧ entries w = d)
      (fun _ w => entries w = d) := by
  intro w hw
  have hsame := (hfs.metadata (entryPath name) w).trans hw
  unfold stdMetadata
  rcases hrun : fs.symlinkMetadata (entryPath name) w with ⟨error | metadata, w'⟩
  · rw [hrun] at hsame
    rw [Effect.bind_of_error hrun]
    exact hsame
  · rw [hrun] at hsame
    rw [Effect.bind_of_ok hrun]
    obtain ⟨node, hnode, htype, hmode⟩ := hfs.metadataOf name w metadata w' hrun
    exact ⟨⟨node, hw ▸ hnode, htype, fun mode contents hfile => congrArg (· &&& 0o777) (hmode mode contents hfile)⟩, hsame⟩

theorem read_meets (hfs : fs.Behaves entries) (name : String) :
    Meets (entries · = d) (fs.read (entryPath name))
      (fun found w => (∀ mode contents, d name = some (.file mode contents) → found = contents) ∧ entries w = d)
      (fun _ w => entries w = d) := by
  intro w hw
  have hsame := (hfs.read name w).trans hw
  rcases hrun : fs.read (entryPath name) w with ⟨error | found, w'⟩
  · rw [hrun] at hsame
    exact hsame
  · rw [hrun] at hsame
    exact ⟨fun mode contents hentry => hfs.readOf name w mode contents found w' (hw ▸ hentry) hrun, hsame⟩

/-- What is read is what is there, and of a sound journal nothing but the file system prevents it. -/
theorem OwnershipStore.loadCurrent_meets (hfs : fs.Behaves entries) (runId : RunId) :
    Meets (entries · = d) ((fs.store runId).loadCurrent json)
      (fun record w => entries w = d ∧ Journaled json d runId record ∧ record.Sound runId)
      (fun e w => entries w = d ∧ ∀ record, Journaled json d runId record → record.Sound runId → e.Outside) := by
  have hquiet : ∀ path, Quiet entries ((fs.store runId).filesystem.metadata path) := stdMetadata_quiet hfs
  refine Meets.bind ((stdMetadata_meets hfs runId.journalName).orElseError fun _ _ h => ⟨h, fun _ _ _ => trivial⟩)
    fun metadata => Meets.assume fun ⟨node, hnode, htype, hmode⟩ => ?_
  refine Meets.bind (Q := fun _ w => (metadata.fileType = .file ∧ metadata.mode = 0o600) ∧ entries w = d)
    (Meets.ask (fun _ _ h hok => ⟨?_, h⟩) fun w e h he => ⟨h, fun record hjournaled hsound => ?_⟩) fun _ => Meets.assume fun hprivate => ?_
  · split at hok
    case isTrue => cases hok
    case isFalse =>
      split at hok
      case isTrue => cases hok
      case isFalse hfile => simpa using hfile
  · obtain ⟨mode, contents, hentry, hbits, -⟩ := hjournaled
    cases hnode.symm.trans hentry
    have hfile : metadata.fileType = .file := htype
    rw [hfile, hmode mode contents rfl, hbits] at he
    cases he
  refine Meets.bind ((read_meets hfs runId.journalName).orElseError fun _ _ h => ⟨h, fun _ _ _ => trivial⟩)
    fun contents => Meets.assume fun hread => ?_
  refine Meets.bind (Q := fun record w => json.fromSlice contents = .ok record ∧ entries w = d)
    (Meets.ask (fun _ record h hok => ⟨?_, h⟩) fun w e h he => ⟨h, fun record hjournaled hsound => ?_⟩)
    fun record => Meets.assume fun hdecoded => ?_
  · cases hjson : json.fromSlice contents with
    | error text =>
      rw [hjson] at hok
      cases hok
    | ok decoded =>
      rw [hjson] at hok
      cases hok
      rfl
  · obtain ⟨mode, held, hentry, -, hdecoded⟩ := hjournaled
    rw [hread mode held hentry, hdecoded] at he
    cases he
  · have hjournaled : Journaled json d runId record := by
      cases node with
      | file mode held => exact ⟨mode, held, hnode, hmode mode held rfl ▸ hprivate.2, hread mode held hnode ▸ hdecoded⟩
      | _ => cases htype.symm.trans hprivate.1
    refine Meets.bind ((validateRecord_meets hquiet record _ _ _).imp_error fun _ _ h => ⟨h.1, fun other hother hsound => ?_⟩) fun _ => ?_
    · cases hother.unique hjournaled
      exact h.2 hsound
    · exact fun _ h => ⟨h.1, hjournaled, h.2⟩

theorem OwnershipStore.loadValidated_meets (hfs : fs.Behaves entries) (runId : RunId) (abiVersion ifindex generation : Nat) :
    Meets (entries · = d) ((fs.store runId).loadValidated json abiVersion ifindex generation)
      (fun record w => Journaled json d runId record ∧ entries w = d) (fun _ w => entries w = d) := by
  refine Meets.bind (Q := fun record w => Journaled json d runId record ∧ entries w = d)
    ((loadCurrent_meets hfs runId).mono (fun _ h => h) (fun _ _ h => ⟨h.2.1, h.1⟩) fun _ _ h => h.1) fun record =>
    Meets.assume fun hjournaled => ?_
  refine Meets.bind ((validateRecord_meets (stdMetadata_quiet hfs) record _ _ _).imp_error fun _ _ h => h.1) fun _ => ?_
  exact fun _ h => ⟨hjournaled, h.1⟩

/-! ### The repository -/

/-- The record's pins are those of the run. -/
def OwnershipRecord.IsOf (record : OwnershipRecord) (runId : RunId) : Prop := record.runRoot = some runId.pinRoot.path

theorem OwnershipRecord.IsOf.unique {record : OwnershipRecord} {a b : RunId} (ha : record.IsOf a) (hb : record.IsOf b) : a = b := by
  have hpaths := Option.some.inj (ha.symm.trans hb)
  simp only [RunId.pinRoot, PathBuf.push, List.append_cancel_left_eq, List.cons.injEq, Component.normal.injEq, and_true] at hpaths
  cases a
  cases b
  exact congrArg _ hpaths

theorem OwnershipRecord.IsOf.ne {record : OwnershipRecord} {a b : RunId} (ha : record.IsOf a) (hb : ¬record.IsOf b) : b ≠ a :=
  fun h => hb (h ▸ ha)

namespace FileOwnershipRepository

theorem pathsForRecord_eq_ok {record : OwnershipRecord} {journal : JournalPath} {pins : TestPinRoot}
    (h : pathsForRecord record = .ok (journal, pins)) : ∃ runId : RunId, (journal, pins) = (runId.journal, runId.pinRoot) ∧ record.IsOf runId := by
  unfold pathsForRecord at h
  split at h
  case h_1 => cases h
  case h_2 first hfirst =>
    split at h
    case h_1 => cases h
    case h_2 parent hparent =>
      split at h
      case h_1 => cases h
      case h_2 value hvalue =>
        unfold RunId.parse at h
        split at h
        case isFalse => cases h
        case isTrue =>
          change (if _ then _ else Except.ok (RunId.journal ⟨value⟩, RunId.pinRoot ⟨value⟩)) = _ at h
          split at h
          case isTrue => cases h
          case isFalse hplace =>
            cases h
            have hroot : parent = (RunId.pinRoot ⟨value⟩).path := by
              by_contra hne
              exact hplace ((Bool.or_eq_true _ _).mpr (.inl (decide_eq_true hne)))
            refine ⟨⟨value⟩, rfl, ?_⟩
            rw [OwnershipRecord.IsOf, OwnershipRecord.runRoot, hfirst, Option.bind_some, hparent, hroot]

theorem load_meets (hfs : fs.Behaves entries) (json : RecordJson) (runId : RunId) :
    Meets (entries · = d) (load fs json runId)
      (fun record w => entries w = d ∧ Journaled json d runId record ∧ record.Sound runId)
      (fun e w => entries w = d ∧ ∀ record, Journaled json d runId record → record.Sound runId → ∃ outside, outside.Outside ∧ e = ownershipPortError outside) :=
  (OwnershipStore.loadCurrent_meets hfs runId).orElseError fun e _ h => ⟨h.1, fun record hjournaled hsound => ⟨e, h.2 record hjournaled hsound, rfl⟩⟩

theorem save_meets (hfs : fs.Behaves entries) (json : RecordJson) (record : OwnershipRecord) :
    Meets (entries · = d) (save fs json record) (fun _ w => ∃ runId, record.IsOf runId ∧ Replaced json runId record d (entries w))
      (fun _ w => entries w = d ∨ ∃ runId, record.IsOf runId ∧
        (TemporaryLeft runId d (entries w) ∨ Replaced json runId record d (entries w) ∧ ¬fs.SyncsDirectory)) := by
  refine Meets.bind (Q := fun paths w => pathsForRecord record = .ok paths ∧ entries w = d)
    (Meets.ask (fun _ _ h hok => ⟨hok, h⟩) fun _ _ h _ => .inl h) fun ⟨journal, pins⟩ => Meets.assume fun hpaths => ?_
  obtain ⟨runId, heq, hof⟩ := pathsForRecord_eq_ok hpaths
  cases heq
  exact ((OwnershipStore.save_meets hfs runId record).mono (fun _ h => h) (fun _ _ h => ⟨runId, hof, h⟩) fun _ _ h => h).orElseError
    fun _ _ h => h.imp_right fun hchanged => ⟨runId, hof, hchanged⟩

/-- The journal is gone, and it was the record's. -/
def Removed (json : RecordJson) (runId : RunId) (record : OwnershipRecord) (d d' : Entries) : Prop :=
  Journaled json d runId record ∧ d' = Function.update d runId.journalName none

theorem removeExact_meets (hfs : fs.Behaves entries) (json : RecordJson) (record : OwnershipRecord) :
    Meets (entries · = d) (removeExact fs json record) (fun _ w => ∃ runId, record.IsOf runId ∧ Removed json runId record d (entries w))
      (fun _ w => entries w = d ∨ ∃ runId, record.IsOf runId ∧ Removed json runId record d (entries w) ∧ ¬fs.SyncsDirectory) := by
  refine Meets.bind (Q := fun paths w => pathsForRecord record = .ok paths ∧ entries w = d)
    (Meets.ask (fun _ _ h hok => ⟨hok, h⟩) fun _ _ h _ => .inl h) fun ⟨journal, pins⟩ => Meets.assume fun hpaths => ?_
  obtain ⟨runId, heq, hof⟩ := pathsForRecord_eq_ok hpaths
  cases heq
  refine Meets.bind ((OwnershipStore.loadValidated_meets hfs runId _ _ _).orElseError fun _ _ h => .inl h) fun current =>
    Meets.assume fun hcurrent => ?_
  refine Meets.bind (Q := fun _ w => current = record ∧ entries w = d) (Meets.ask (fun _ _ h hok => ⟨?_, h⟩) fun _ _ h _ => .inl h)
    fun _ => Meets.assume fun hsame => ?_
  · by_contra hne
    rw [if_pos hne] at hok
    cases hok
  · subst hsame
    refine Meets.bind ((hfs.removeFile runId.journalName d).orElseError fun _ _ h => .inl h) fun _ => ?_
    exact ((syncDirectory_meets hfs).mono (fun _ h => h) (fun _ _ h => ⟨runId, hof, hcurrent, h⟩) fun _ _ h => h).orElseError
      fun _ _ h => .inr ⟨runId, hof, ⟨hcurrent, h.1⟩, h.2⟩

end FileOwnershipRepository

end

/-! ### A plain disk -/

abbrev PlainDisk := PathBuf → Option Node

namespace PlainDisk

def notFound : IoError := ⟨.notFound, "No such file or directory (os error 2)"⟩
def alreadyExists : IoError := ⟨.alreadyExists, "File exists (os error 17)"⟩
def notPermitted : IoError := ⟨.other, "Operation not permitted (os error 1)"⟩

def mode : Node → Nat
  | .file mode _ => mode
  | .directory => 0o755
  | .symlink | .other => 0o777

/-- Change the file at the path. -/
def change (path : PathBuf) (f : Nat → Bytes → Except IoError Node) (w : PlainDisk) : Except IoError Unit × PlainDisk :=
  match w path with
  | some (.file mode contents) =>
    match f mode contents with
    | .ok node => (.ok (), Function.update w path (some node))
    | .error e => (.error e, w)
  | some _ => (.error notPermitted, w)
  | none => (.error notFound, w)

def fs : StdFs PlainDisk where
  symlinkMetadata path w :=
    match w path with
    | some node => (.ok ⟨node.fileType, mode node⟩, w)
    | none => (.error notFound, w)
  read path w :=
    match w path with
    | some (.file _ contents) => (.ok contents, w)
    | some _ => (.error notPermitted, w)
    | none => (.error notFound, w)
  createDirAll _ w := (.ok (), w)
  openNew path mode w :=
    match w path with
    | none => (.ok (), Function.update w path (some (.file mode [])))
    | some _ => (.error alreadyExists, w)
  setPermissions path mode := change path fun _ contents => .ok (.file mode contents)
  writeAll path contents := change path fun mode held => .ok (.file mode (held ++ contents))
  syncAll _ w := (.ok (), w)
  rename source target w :=
    match w source with
    | some node => (.ok (), Function.update (Function.update w target (some node)) source none)
    | none => (.error notFound, w)
  syncDirectory _ w := (.ok (), w)
  removeFile path w :=
    match w path with
    | some (.file _ _) => (.ok (), Function.update w path none)
    | some _ => (.error notPermitted, w)
    | none => (.error notFound, w)

def entries (w : PlainDisk) : Entries := fun name => w (entryPath name)

theorem entries_update (w : PlainDisk) (name : String) (node : Option Node) :
    entries (Function.update w (entryPath name) node) = Function.update (entries w) name node := by
  have hinjective : Function.Injective entryPath := fun a b h => by simpa [entryPath, PathBuf.push] using h
  exact Function.update_comp_eq_of_injective w hinjective name node

theorem change_eq (f : Nat → Bytes → Except IoError Node) {w : PlainDisk} {name : String} {mode : Nat} {contents : Bytes} {node : Node}
    (hentry : entries w name = some (.file mode contents)) (hf : f mode contents = .ok node) :
    change (entryPath name) f w = (.ok (), Function.update w (entryPath name) (some node)) := by
  have hentry : w (entryPath name) = some (.file mode contents) := hentry
  rw [change, hentry]
  dsimp only
  rw [hf]

theorem fs_behaves : fs.Behaves entries where
  metadata path w := by
    unfold fs
    dsimp only
    cases w path <;> rfl
  metadataOf name w metadata w' h := by
    unfold fs at h
    dsimp only at h
    cases hentry : w (entryPath name) with
    | none =>
      rw [hentry] at h
      cases h
    | some node =>
      rw [hentry] at h
      cases h
      exact ⟨node, hentry, rfl, fun bits contents hfile => hfile ▸ rfl⟩
  read name w := by
    unfold fs
    dsimp only
    rcases w (entryPath name) with _ | _ | _ | _ | _ <;> rfl
  readOf name w mode contents found w' hentry h := by
    have hentry : w (entryPath name) = some (.file mode contents) := hentry
    unfold fs at h
    dsimp only at h
    rw [hentry] at h
    cases h
    rfl
  createDirAll _ := rfl
  openNew name mode d w hw := by
    subst hw
    unfold fs
    dsimp only
    cases hentry : w (entryPath name) with
    | none => exact ⟨hentry, mode, entries_update w name _⟩
    | some node => rfl
  setPermissions name mode d bits contents hentry w hw := by
    subst hw
    have hrun : fs.setPermissions (entryPath name) mode w = (.ok (), Function.update w (entryPath name) (some (.file mode contents))) :=
      change_eq (fun _ held => .ok (.file mode held)) hentry rfl
    rw [hrun]
    exact entries_update w name _
  writeAll name contents d bits hentry w hw := by
    subst hw
    have hrun : fs.writeAll (entryPath name) contents w = (.ok (), Function.update w (entryPath name) (some (.file bits contents))) :=
      change_eq (fun mode held => .ok (.file mode (held ++ contents))) hentry rfl
    rw [hrun]
    exact entries_update w name _
  syncAll _ _ := rfl
  rename source target d _ w hw := by
    subst hw
    unfold fs
    dsimp only
    cases hentry : w (entryPath source) with
    | none => rfl
    | some node => exact ⟨node, hentry, (entries_update _ source none).trans (by rw [entries_update])⟩
  syncDirectory _ := rfl
  removeFile name d w hw := by
    subst hw
    unfold fs
    dsimp only
    rcases w (entryPath name) with _ | _ | _ | _ | _
    · rfl
    · exact entries_update w name none
    all_goals rfl

end PlainDisk

/-! ### A run's journal on it -/

def sampleRecord : OwnershipRecord :=
  ⟨ownershipSchemaVersion, abiVersion, 1, 7, none, [], ownedMapNames.mapIdx fun i name => ⟨name, sampleRun.pinRoot.path.push name, i + 1⟩, 100⟩

/-- As `serde_json` writes it. -/
def sampleText : String :=
  "\x7b\n  \"schema_version\": 2,\n  \"abi_version\": 1,\n  \"generation\": 1,\n  \"ifindex\": 7,\n  \"xdp\": null,\n  \"tc\": [],\n" ++
    "  \"map_pins\": [\n" ++ ",\n".intercalate (sampleRecord.mapPins.map pinText) ++ "\n  ],\n  \"created_at_unix_seconds\": 100\n\x7d"
where
  pinText (pin : OwnedMapPin) : String :=
    "    \x7b\n      \"name\": \"" ++ pin.name ++ "\",\n      \"path\": \"" ++ pin.path.display ++ "\",\n      \"map_id\": " ++
      toString pin.mapId ++ "\n    \x7d"

/-- JSON, of this record only. -/
def sampleJson : RecordJson where
  toVecPretty record := if record = sampleRecord then .ok (Text.encode sampleText.toList) else .error "not the sample"
  fromSlice contents := if contents = Text.encode sampleText.toList then .ok sampleRecord else .error "expected value at line 1 column 1"

theorem sampleJson_roundTrips : sampleJson.RoundTrips := by
  intro record contents h
  unfold sampleJson at h ⊢
  dsimp only at h ⊢
  split at h
  case isFalse => cases h
  case isTrue hsample => rw [if_pos (Except.ok.inj h).symm, hsample]

/-- The pins of the run are there, and no journal. -/
def sampleDisk : PlainDisk := fun path =>
  if path = testJournalRoot || path = sampleRun.pinRoot.path then some .directory
  else if sampleRecord.mapPins.any fun pin => pin.path = path then some (.file 0o600 [])
  else none

end NetworkLoop.Attach
