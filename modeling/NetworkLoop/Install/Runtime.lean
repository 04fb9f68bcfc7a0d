import NetworkLoop.Install.Filesystem

/-! The installer's commands (`installation_runtime.rs`) and its planner (`installation.rs`).

`inspectLayout` and `InstallPlanner.plan` decide what a transaction is to do,
`applyPlan` does it and `rollbackJournal` takes it back. The two programs put the steps of
the file system and of the journal together; where the source throws an error away
(`map_err(|_| ())`), so does the model. A `while let` loop is run for as many rounds as the
journal has steps left. -/
namespace NetworkLoop.Install
open Library

inductive InstallOperationV1 where
  | install | upgrade | rollback
  deriving DecidableEq, Repr

/-- `PreparedSystemInstall`: the authorization's identifiers and operation, the digests of the
source documents, the bundle's digests by file name, and what opening the payload of a role
finds, if it can be opened. -/
structure PreparedSystemInstall where
  transactionId : String
  authorizationId : String
  operation : InstallOperationV1
  hostIdentitySha256 : String
  artifact : DeploymentArtifactIdentityV1
  bundleManifestSha256 : String
  deploymentAuthorizationSha256 : String
  performanceEvidenceSha256 : String
  bundleFiles : String → Option String
  payloads : InstallRoleV1 → Option Fs.Payload

/-! ### Planning -/

inductive InstallDestinationStateV1 where
  | absentDirectory | absentFile | priorOwnedFile | existingPrerequisiteDirectory
  deriving DecidableEq, Repr

structure InstallDestinationSnapshotV1 where
  role : InstallRoleV1
  state : InstallDestinationStateV1
  deriving DecidableEq, Repr

inductive InstallActionV1 where
  | createDirectory (role : InstallRoleV1)
  | installAbsentFile (role : InstallRoleV1)
  | upgradeOwnedFile (role : InstallRoleV1)
  | verifyInstalledObject (role : InstallRoleV1)
  | removeOwnedEmptyDirectory (role : InstallRoleV1)
  deriving DecidableEq, Repr

namespace InstallActionV1

def role : InstallActionV1 → InstallRoleV1
  | .createDirectory role | .installAbsentFile role | .upgradeOwnedFile role | .verifyInstalledObject role
  | .removeOwnedEmptyDirectory role => role

def isVerify : InstallActionV1 → Bool
  | .verifyInstalledObject _ => true
  | _ => false

end InstallActionV1

structure InstallJournalSnapshotV1 where
  transactionId : String
  completedActions : List InstallActionV1
  deriving DecidableEq, Repr

structure InstallPlanV1 where
  authorizationId : String
  transactionId : String
  operation : InstallOperationV1
  artifact : DeploymentArtifactIdentityV1
  actions : List InstallActionV1
  deriving DecidableEq, Repr

inductive InstallPlanningError where
  | invalidSource | invalidDestination | transactionConflict
  deriving DecidableEq, Repr

namespace InstallPlanner

/-- What one destination contributes to the plan. -/
def actionsFor (operation : InstallOperationV1) (destination : InstallDestinationSnapshotV1) :
    Except InstallPlanningError (List InstallActionV1) :=
  let withVerify (action : InstallActionV1) := [action, .verifyInstalledObject destination.role]
  match destination.state with
  | .absentDirectory => .ok (withVerify (.createDirectory destination.role))
  | .absentFile => .ok (withVerify (.installAbsentFile destination.role))
  | .priorOwnedFile =>
    if operation = .upgrade then .ok (withVerify (.upgradeOwnedFile destination.role)) else .error .invalidDestination
  | .existingPrerequisiteDirectory =>
    if destination.role.installOrder < 20 then .ok [] else .error .invalidDestination

/-- The loop over the destinations. -/
def actionsForAll (operation : InstallOperationV1) :
    List InstallDestinationSnapshotV1 → Except InstallPlanningError (List InstallActionV1)
  | [] => .ok []
  | destination :: rest =>
    actionsFor operation destination >>= fun actions =>
      actionsForAll operation rest >>= fun more => .ok (actions ++ more)

/-- `sort_by_key(|destination| destination.role)`: roles are ordered as they are declared. -/
def sortDestinations (destinations : List InstallDestinationSnapshotV1) : List InstallDestinationSnapshotV1 :=
  destinations.insertionSort fun a b => a.role.ctorIdx ≤ b.role.ctorIdx

/-- `windows(2).any(..)` with equal roles. -/
def repeatsRole : List InstallDestinationSnapshotV1 → Bool
  | a :: b :: rest => a.role = b.role || repeatsRole (b :: rest)
  | _ => false

def plan (source : PreparedSystemInstall) (destinations : List InstallDestinationSnapshotV1)
    (priorJournal : Option InstallJournalSnapshotV1) : Except InstallPlanningError InstallPlanV1 :=
  if priorJournal.isSome then .error .transactionConflict
  else if source.operation = .rollback then .error .invalidSource
  else if repeatsRole (sortDestinations destinations) then .error .invalidDestination
  else
    actionsForAll source.operation (sortDestinations destinations) >>= fun actions =>
      .ok ⟨source.authorizationId, source.transactionId, source.operation, source.artifact, actions⟩

end InstallPlanner

/-! ### The state of the host -/

inductive InstallServiceError where
  | inputUnavailable
  deriving DecidableEq, Repr

def giTransactionConflict : String := "GI_TRANSACTION_CONFLICT"
def giDestinationForeign : String := "GI_DESTINATION_FOREIGN"

def inputUnavailable {α : Type} (x : Except InstallIoError α) : Except InstallServiceError α :=
  x.mapError fun _ => .inputUnavailable

/-- The current identity of a role in a journal. -/
def journalIdentity (journal : Option InstallJournalV1) (role : InstallRoleV1) : Option InstallObjectIdentityV1 :=
  journal.bind fun j => (j.entries.find? (·.role == role)).bind (·.currentIdentity)

def isStandardPrerequisite : InstallRoleV1 → Bool
  | .usrRoot | .usrBinRoot | .usrLibRoot | .usrLibexecRoot | .usrLibSystemdRoot | .systemdUnitRoot | .usrShareRoot
  | .usrShareDocRoot | .etcRoot | .varRoot | .varLibRoot => true
  | _ => false

/-- The object of an entry is still the one that the journal knows. -/
def entryMatches (d : Disk) (entry : InstallJournalEntryV1) : Bool :=
  match entry.currentIdentity, Disk.inspectOptionalExact d entry.role with
  | some expected, .ok (some observed) => expected.matchesPersistentObject observed
  | _, _ => false

/-- The loop of `current_installed_journal`. -/
def currentInstalledFrom (d : Disk) :
    Option InstallJournalV1 → List String → Except InstallServiceError (Option InstallJournalV1)
  | current, [] => .ok current
  | current, transactionId :: rest =>
    inputUnavailable (Disk.loadJournalExact d transactionId) >>= fun journal =>
      match journal.state with
      | .rolledBack => currentInstalledFrom d current rest
      | .installed =>
        if journal.entries.all (entryMatches d) then
          if current.isSome then .error .inputUnavailable else currentInstalledFrom d (some journal) rest
        else currentInstalledFrom d current rest
      | _ => .error .inputUnavailable

def currentInstalledJournal (d : Disk) : Except InstallServiceError (Option InstallJournalV1) :=
  inputUnavailable (Disk.transactionIds d) >>= currentInstalledFrom d none

/-- The state of one destination, or nothing if it is foreign. -/
def destinationState (operation : InstallOperationV1) (current : Option InstallJournalV1) (role : InstallRoleV1)
    (observed : Option InstallObjectIdentityV1) : Option InstallDestinationStateV1 :=
  match role.layoutKind, observed with
  | .directory, none => some .absentDirectory
  | .regular, none => some .absentFile
  | .directory, some identity =>
    if isStandardPrerequisite role || (journalIdentity current role).any (·.matchesPersistentObject identity) then
      some .existingPrerequisiteDirectory
    else none
  | .regular, some identity =>
    if operation = .upgrade ∧ journalIdentity current role = some identity then some .priorOwnedFile else none

/-- The loop of `inspect_layout` over the layout. -/
def inspectEntries (d : Disk) (operation : InstallOperationV1) (current : Option InstallJournalV1) :
    List InstallRoleV1 → Except InstallServiceError (Except String (List InstallDestinationSnapshotV1))
  | [] => .ok (.ok [])
  | role :: rest =>
    inputUnavailable (Disk.inspectOptionalExact d role) >>= fun observed =>
      match destinationState operation current role observed with
      | none => .ok (.error giDestinationForeign)
      | some state =>
        inspectEntries d operation current rest >>= fun more =>
          .ok (more >>= fun destinations => .ok (⟨role, state⟩ :: destinations))

def inspectLayout (d : Disk) (operation : InstallOperationV1) :
    Except InstallServiceError (Except String (List InstallDestinationSnapshotV1 × Option InstallJournalV1)) :=
  currentInstalledJournal d >>= fun current =>
    if operation = .rollback ∨ (operation = .install ∧ current.isSome) ∨ (operation = .upgrade ∧ current.isNone) then
      .ok (.error giTransactionConflict)
    else
      inspectEntries d operation current InstallRoleV1.all >>= fun found =>
        .ok (found >>= fun destinations => .ok (destinations, current))

/-! ### Entries of a plan -/

def payloadSha256 (p : PreparedSystemInstall) (role : InstallRoleV1) : Except Unit String :=
  match role.layoutSource with
  | .bundle filename => (p.bundleFiles filename).elim (.error ()) .ok
  | .deploymentAuthorization => .ok p.deploymentAuthorizationSha256
  | .performanceEvidence => .ok p.performanceEvidenceSha256
  | .none => .error ()

def payloadFile (p : PreparedSystemInstall) (role : InstallRoleV1) : Except InstallIoError (Option Fs.Payload) :=
  match role.layoutSource with
  | .none => .ok none
  | _ => (p.payloads role).elim (.error .unavailable) fun payload => .ok (some payload)

/-- `map_err(|_| ())`. -/
def discard {ε α : Type} (x : Except ε α) : Except Unit α := x.mapError fun _ => ()

def intendedIdentity (p : PreparedSystemInstall) (role : InstallRoleV1) : Except Unit InstallIntendedIdentityV1 :=
  match role.layoutKind with
  | .directory => discard (InstallIntendedIdentityV1.directory role.expectedMode 0 0)
  | .regular =>
    payloadSha256 p role >>= fun digest => discard (InstallIntendedIdentityV1.regularFile digest role.expectedMode 0 0)

def journalEntry (p : PreparedSystemInstall) (prior : Option InstallJournalV1) (action : InstallActionV1) :
    Except Unit InstallJournalEntryV1 :=
  intendedIdentity p action.role >>= fun intended =>
    let sibling := siblingBasename p.transactionId action.role
    match action with
    | .createDirectory role => discard (InstallJournalEntryV1.absentDirectory role intended)
    | .installAbsentFile role => discard (InstallJournalEntryV1.absentFile role intended sibling)
    | .upgradeOwnedFile role =>
      match journalIdentity prior role with
      | none => .error ()
      | some identity =>
        discard (InstallJournalEntryV1.priorOwnedFile role intended sibling (backupBasename p.transactionId role) identity)
    | .verifyInstalledObject _ | .removeOwnedEmptyDirectory _ => .error ()

def journalEntries (p : PreparedSystemInstall) (prior : Option InstallJournalV1) :
    List InstallActionV1 → Except Unit (List InstallJournalEntryV1)
  | [] => .ok []
  | action :: rest =>
    journalEntry p prior action >>= fun entry =>
      journalEntries p prior rest >>= fun more => .ok (entry :: more)

def bindingsOf (p : PreparedSystemInstall) : InstallJournalBindingsV1 :=
  ⟨p.transactionId, p.authorizationId, p.hostIdentitySha256, p.artifact, p.bundleManifestSha256,
    p.deploymentAuthorizationSha256, p.performanceEvidenceSha256⟩

/-- `InstallJournalBindingsV1::new`. -/
def newBindings (p : PreparedSystemInstall) : Except InstallJournalError InstallJournalBindingsV1 :=
  (bindingsOf p).validate >>= fun _ => .ok (bindingsOf p)

/-! ### The two programs -/

/-- The programs of the command runner: what an error was is lost in them. -/
abbrev Runner := Program Site Disk Unit

namespace Runner
open Program Disk Fs

def fs {α : Type} (p : Fs α) : Runner α := mapError (fun _ => ()) p

/-- An operation of the journal. -/
def record (reply : JournalReply) : Runner InstallJournalV1 :=
  require .journal (match reply with
    | (.ok _, journal) => .ok journal
    | (.error _, _) => .error ())

/-- The rounds of a loop never run out. -/
def exhausted {α : Type} : Runner α := require .journal (.error ())

def publishIf (condition early : Bool) (journal : InstallJournalV1) : Runner Unit :=
  if condition then fs (publishJournal early journal) else pure ()

/-- One round of the loop of `apply_plan`. -/
def forwardRound (p : PreparedSystemInstall) (finalParentExists : Bool) (journal : InstallJournalV1) :
    InstallJournalForwardActionV1 → Runner InstallJournalV1
  | .apply _ role => do
    let entry ← require .journal ((journal.entries.find? (·.role == role)).elim (.error ()) .ok)
    let payload ← fs (look (.payload role) fun _ => payloadFile p role)
    let identity ← fs (applyEntry entry payload)
    let journal ← record (journal.recordApplied role identity none)
    fs (persistJournal (.applied role) journal)
    return journal
  | .verify _ role expectedIdentity => do
    fs (verifyExact role expectedIdentity)
    let journal ← record (journal.recordVerified role expectedIdentity)
    fs (persistJournal (.verified role) journal)
    publishIf (role = .transactionsRoot && !finalParentExists) false journal
    return journal

/-- `apply_plan`, from the journal that has been prepared. -/
def applyPrepared (p : PreparedSystemInstall) (prepared : InstallJournalV1) : Runner Unit := do
  fs (bootstrapJournal prepared)
  let finalParent ← fs (look .probe fun d => inspectOptionalExact d .transactionsRoot)
  publishIf finalParent.isSome true prepared
  let started ← record prepared.startApplying
  fs (persistJournal .started started)
  let applied ← loop (fun journal => journal.nextForwardAction.map (forwardRound p finalParent.isSome journal))
    exhausted (2 * started.entries.length) started
  let installed ← record applied.markInstalled
  fs (persistJournal .installed installed)

def applyPlan (p : PreparedSystemInstall) (actions : List InstallActionV1) (prior : Option InstallJournalV1) :
    Runner Unit := do
  let entries ← require .journal (journalEntries p prior (actions.filter fun action => !action.isVerify))
  let bindings ← require .journal (discard (newBindings p))
  let prepared ← record ((InstallJournalV1.new bindings).prepare entries)
  applyPrepared p prepared

def retainExact (role : InstallRoleV1) (expectedCurrent : InstallObjectIdentityV1) : Fs Unit :=
  look (.rollback role .check) fun d =>
    inspectExact d role >>= fun observed =>
      if !expectedCurrent.matchesPersistentObject observed then .error .identityChanged else .ok ()

def undo : InstallJournalRollbackActionV1 → Fs Unit
  | .removeExact _ role expectedCurrent _ => rollbackRemoveExact role expectedCurrent
  | .restoreExact _ role expectedCurrent backupBasename expectedBackup _ =>
    rollbackRestoreExact role expectedCurrent backupBasename expectedBackup
  | .retainExact _ role expectedCurrent => retainExact role expectedCurrent

/-- One round of the loop of `rollback_journal`. -/
def rollbackRound (journal : InstallJournalV1) (action : InstallJournalRollbackActionV1) : Runner InstallJournalV1 := do
  fs (undo action)
  let journal ← record (journal.recordRollbackCompleted action)
  fs (persistJournal (.undone action.role) journal)
  return journal

/-- The head of `rollback_journal`. -/
def ensureRollingBack (journal : InstallJournalV1) : Runner InstallJournalV1 :=
  if journal.state ≠ .rollingBack then do
    let begun ← record journal.beginRollback
    fs (persistJournal .begun begun)
    return begun
  else pure journal

def rollbackJournal (journal : InstallJournalV1) : Runner InstallJournalV1 := do
  let rolling ← ensureRollingBack journal
  let undone ← loop (fun journal => journal.nextRollbackAction.map (rollbackRound journal)) exhausted
    rolling.entries.length rolling
  let rolledBack ← record undone.markRolledBack
  fs (persistJournal .rolledBack rolledBack)
  return rolledBack

end Runner

end NetworkLoop.Install
