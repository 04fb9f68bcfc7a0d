import Mathlib
import NetworkLoop.Install.Role

/-! The installation journal of `install_journal.rs`.

A journal is the durable record of one transaction: what it is bound to, what it
installs, how far it got. Every operation of the source takes `&mut self` and may
have changed the journal before it fails, so an operation here returns its reply
together with the journal it leaves. -/
namespace NetworkLoop.Install

def installJournalSchemaVersion : Nat := 1

inductive InstallJournalError where
  | invalidJournal | invalidTransition
  deriving DecidableEq, Repr

/-- `safe_basename`. A character of more than one byte has no byte in common with the refused ones. -/
def safeBasename (value : String) : Bool :=
  !value.isEmpty && value != "." && value != ".." && value.utf8ByteSize ≤ 255 &&
    !value.toList.any (fun c => c == '/' || c == '\\' || c == '*' || c == '?' || c == '[' || c == ']' || c == '\x00')

/-- `is_safe_text` of `deployment.rs`: graphic ASCII without slashes. -/
def isSafeText (value : String) (maximumLength : Nat) : Bool :=
  !value.isEmpty && value.utf8ByteSize ≤ maximumLength &&
    value.toList.all (fun c => '!' ≤ c && c ≤ '~' && c != '/' && c != '\\')

/-- The codes a finding may carry. -/
def installFindingCodes : List String :=
  ["GI_AUTH_SCHEMA", "GI_AUTH_EXPIRED", "GI_AUTH_HOST", "GI_AUTH_ARTIFACT", "GI_BUNDLE_INVALID",
    "GI_DESTINATION_FOREIGN", "GI_METADATA_UNSAFE", "GI_TRANSACTION_CONFLICT", "GI_WRITE_FAILED",
    "GI_ROLLBACK_IDENTITY", "GI_LAYOUT_VERIFY", "GI_SERVICE_STATE", "GI_SERVICE_LIFECYCLE",
    "GI_PHYSICAL_BLOCKED", "GI_INTERNAL"]

/-- `InstallFindingV1::blocker` succeeds: it checks nothing but the code. -/
def isFindingCode (code : String) : Bool := installFindingCodes.contains code

structure DeploymentArtifactIdentityV1 where
  commitSha : String
  packageVersion : String
  deriving DecidableEq, Repr

/-- `DeploymentArtifactIdentityV1::validate`, of which the journal only asks whether it succeeds. -/
def DeploymentArtifactIdentityV1.isValid (a : DeploymentArtifactIdentityV1) : Bool :=
  isLowerHex a.commitSha 40 && isSafeText a.packageVersion 64

/-! ### Identities -/

inductive InstallObjectKindV1 where
  | directory | regularFile
  deriving DecidableEq, Repr

/-- What a transaction means to put at a role's path. -/
structure InstallIntendedIdentityV1 where
  kind : InstallObjectKindV1
  sha256 : Option String
  mode : Nat
  uid : Nat
  gid : Nat
  deriving DecidableEq, Repr

namespace InstallIntendedIdentityV1

def digestValid (i : InstallIntendedIdentityV1) : Bool :=
  match i.kind, i.sha256 with
  | .regularFile, some digest => isLowerHex digest 64
  | .directory, none => true
  | _, _ => false

def validate (i : InstallIntendedIdentityV1) : Except InstallJournalError Unit :=
  if !i.digestValid || i.mode > 0o7777 then .error .invalidJournal else .ok ()

def regularFile (sha256 : String) (mode uid gid : Nat) :
    Except InstallJournalError InstallIntendedIdentityV1 := do
  let identity : InstallIntendedIdentityV1 := ⟨.regularFile, some sha256, mode, uid, gid⟩
  identity.validate
  return identity

def directory (mode uid gid : Nat) : Except InstallJournalError InstallIntendedIdentityV1 := do
  let identity : InstallIntendedIdentityV1 := ⟨.directory, none, mode, uid, gid⟩
  identity.validate
  return identity

end InstallIntendedIdentityV1

/-- What a transaction saw at a path. -/
structure InstallObjectIdentityV1 where
  kind : InstallObjectKindV1
  device : Nat
  inode : Nat
  hardLinks : Nat
  sha256 : Option String
  mode : Nat
  uid : Nat
  gid : Nat
  deriving DecidableEq, Repr

namespace InstallObjectIdentityV1

def shapeValid (i : InstallObjectIdentityV1) : Bool :=
  match i.kind, i.sha256 with
  | .regularFile, some digest => i.hardLinks == 1 && isLowerHex digest 64
  | .directory, none => i.hardLinks > 0
  | _, _ => false

def validate (i : InstallObjectIdentityV1) : Except InstallJournalError Unit :=
  if i.device == 0 || i.inode == 0 || i.mode > 0o7777 || !i.shapeValid then .error .invalidJournal
  else .ok ()

/-- Equality up to what a directory's contents change. -/
def matchesPersistentObject (i observed : InstallObjectIdentityV1) : Bool :=
  i.kind == observed.kind && i.device == observed.device && i.inode == observed.inode &&
    i.mode == observed.mode && i.uid == observed.uid && i.gid == observed.gid &&
    match i.kind with
    | .regularFile => i.hardLinks == observed.hardLinks && i.sha256 == observed.sha256
    | .directory => true

def matchesIntended (i : InstallObjectIdentityV1) (intended : InstallIntendedIdentityV1) : Bool :=
  i.kind == intended.kind && i.sha256 == intended.sha256 && i.mode == intended.mode &&
    i.uid == intended.uid && i.gid == intended.gid

end InstallObjectIdentityV1

/-! ### Entries -/

inductive InstallPriorStateV1 where
  | absent
  | priorOwned (identity : InstallObjectIdentityV1) (backupBasename : String)
  deriving DecidableEq, Repr

inductive InstallJournalEntryPhaseV1 where
  | pending | applied | verified | rolledBack
  deriving DecidableEq, Repr

structure InstallJournalEntryV1 where
  role : InstallRoleV1
  fixedPath : String
  intended : InstallIntendedIdentityV1
  siblingBasename : Option String
  priorState : InstallPriorStateV1
  currentIdentity : Option InstallObjectIdentityV1
  createdParentIdentity : Option InstallObjectIdentityV1
  phase : InstallJournalEntryPhaseV1
  deriving DecidableEq, Repr

namespace InstallJournalEntryV1

/-- The checks of `validate` on the intended identity and the names. -/
def validateLayout (e : InstallJournalEntryV1) : Except InstallJournalError Unit :=
  if e.fixedPath != e.role.fixedDestination || e.intended.mode != e.role.expectedMode ||
      e.intended.uid != 0 || e.intended.gid != 0 ||
      e.role.isDirectory != (e.intended.kind == .directory) then
    .error .invalidJournal
  else if e.role.isDirectory then
    if e.siblingBasename.isSome || e.priorState != .absent then .error .invalidJournal else .ok ()
  else if !e.siblingBasename.any safeBasename then .error .invalidJournal
  else .ok ()

def validatePrior (e : InstallJournalEntryV1) : Except InstallJournalError Unit :=
  match e.priorState with
  | .absent => .ok ()
  | .priorOwned identity backupBasename =>
    identity.validate >>= fun _ =>
      if e.role.isDirectory || identity.kind != .regularFile || identity.mode != e.role.expectedMode ||
          identity.uid != 0 || identity.gid != 0 || !safeBasename backupBasename then
        .error .invalidJournal
      else .ok ()

/-- The check of a parent directory that applying the entry has created. -/
def validateCreatedParent (parent : Option InstallObjectIdentityV1) (refusal : InstallJournalError) :
    Except InstallJournalError Unit :=
  match parent with
  | none => .ok ()
  | some parent =>
    parent.validate >>= fun _ =>
      if parent.kind != .directory || parent.uid != 0 || parent.gid != 0 then .error refusal else .ok ()

def validatePhase (e : InstallJournalEntryV1) : Except InstallJournalError Unit :=
  match e.phase with
  | .pending =>
    if e.currentIdentity.isSome || e.createdParentIdentity.isSome then .error .invalidJournal else .ok ()
  | .applied | .verified | .rolledBack =>
    match e.currentIdentity with
    | none => .error .invalidJournal
    | some current =>
      current.validate >>= fun _ =>
        if !current.matchesIntended e.intended then .error .invalidJournal
        else validateCreatedParent e.createdParentIdentity .invalidJournal

def validate (e : InstallJournalEntryV1) : Except InstallJournalError Unit :=
  e.intended.validate >>= fun _ => e.validateLayout >>= fun _ => e.validatePrior >>= fun _ => e.validatePhase

def new (role : InstallRoleV1) (intended : InstallIntendedIdentityV1) (siblingBasename : Option String)
    (priorState : InstallPriorStateV1) : Except InstallJournalError InstallJournalEntryV1 := do
  let entry : InstallJournalEntryV1 :=
    ⟨role, role.fixedDestination, intended, siblingBasename, priorState, none, none, .pending⟩
  entry.validate
  return entry

def absentDirectory (role : InstallRoleV1) (intended : InstallIntendedIdentityV1) :
    Except InstallJournalError InstallJournalEntryV1 :=
  new role intended none .absent

def absentFile (role : InstallRoleV1) (intended : InstallIntendedIdentityV1) (siblingBasename : String) :
    Except InstallJournalError InstallJournalEntryV1 :=
  new role intended (some siblingBasename) .absent

def priorOwnedFile (role : InstallRoleV1) (intended : InstallIntendedIdentityV1)
    (siblingBasename backupBasename : String) (priorIdentity : InstallObjectIdentityV1) :
    Except InstallJournalError InstallJournalEntryV1 :=
  new role intended (some siblingBasename) (.priorOwned priorIdentity backupBasename)

/-- The entry is in force: applied, and not rolled back. -/
def inForce (e : InstallJournalEntryV1) : Bool := e.phase == .applied || e.phase == .verified

end InstallJournalEntryV1

/-! ### The journal -/

structure InstallJournalBindingsV1 where
  transactionId : String
  authorizationId : String
  hostIdentitySha256 : String
  artifact : DeploymentArtifactIdentityV1
  bundleManifestSha256 : String
  deploymentAuthorizationSha256 : String
  performanceEvidenceSha256 : String
  deriving DecidableEq, Repr

def InstallJournalBindingsV1.validate (b : InstallJournalBindingsV1) : Except InstallJournalError Unit :=
  if !isLowerHex b.transactionId 32 || !isLowerHex b.authorizationId 32 ||
      !isLowerHex b.hostIdentitySha256 64 || !isLowerHex b.bundleManifestSha256 64 ||
      !isLowerHex b.deploymentAuthorizationSha256 64 || !isLowerHex b.performanceEvidenceSha256 64 ||
      !b.artifact.isValid then
    .error .invalidJournal
  else .ok ()

inductive InstallJournalStateV1 where
  | planned | prepared | applying | installed | failed | rollingBack | rolledBack
  deriving DecidableEq, Repr

inductive InstallJournalForwardActionV1 where
  | apply (durableStep : Nat) (role : InstallRoleV1)
  | verify (durableStep : Nat) (role : InstallRoleV1) (expectedIdentity : InstallObjectIdentityV1)
  deriving DecidableEq, Repr

inductive InstallJournalRollbackActionV1 where
  | removeExact (durableStep : Nat) (role : InstallRoleV1) (expectedCurrent : InstallObjectIdentityV1)
      (createdParentIdentity : Option InstallObjectIdentityV1)
  | restoreExact (durableStep : Nat) (role : InstallRoleV1) (expectedCurrent : InstallObjectIdentityV1)
      (backupBasename : String) (expectedBackup : InstallObjectIdentityV1)
      (createdParentIdentity : Option InstallObjectIdentityV1)
  | retainExact (durableStep : Nat) (role : InstallRoleV1) (expectedCurrent : InstallObjectIdentityV1)
  deriving DecidableEq, Repr

def InstallJournalRollbackActionV1.role : InstallJournalRollbackActionV1 → InstallRoleV1
  | .removeExact _ role _ _ => role
  | .restoreExact _ role _ _ _ _ => role
  | .retainExact _ role _ => role

/-- The journal. The seven binding fields of the source are one field here; its
`validate` puts them together again to check them. -/
structure InstallJournalV1 where
  schemaVersion : Nat
  bindings : InstallJournalBindingsV1
  state : InstallJournalStateV1
  durableStep : Nat
  entries : List InstallJournalEntryV1
  failureCode : Option String
  rollbackPossible : Bool
  deriving DecidableEq, Repr

/-- The loop of `validate_entries`: `prior` is the order of the entry before. -/
def validateEntriesFrom : Option Nat → List InstallJournalEntryV1 → Except InstallJournalError Unit
  | _, [] => .ok ()
  | prior, entry :: rest =>
    entry.validate >>= fun _ =>
      if prior.any (· ≥ entry.role.installOrder) then .error .invalidJournal
      else validateEntriesFrom (some entry.role.installOrder) rest

def validateEntries (entries : List InstallJournalEntryV1) : Except InstallJournalError Unit :=
  if entries.isEmpty then .error .invalidJournal else validateEntriesFrom none entries

/-- The loop of `validate_forward_prefix`, with the three variables it updates. -/
def validateForwardPrefixFrom (progress : Nat) (sawApplied sawPending : Bool) :
    List InstallJournalEntryPhaseV1 → Except InstallJournalError Nat
  | [] => .ok progress
  | .verified :: rest =>
    if !sawApplied && !sawPending then validateForwardPrefixFrom (progress + 2) sawApplied sawPending rest
    else .error .invalidJournal
  | .applied :: rest =>
    if !sawApplied && !sawPending then validateForwardPrefixFrom (progress + 1) true sawPending rest
    else .error .invalidJournal
  | .pending :: rest => validateForwardPrefixFrom progress sawApplied true rest
  | .rolledBack :: _ => .error .invalidJournal

def validateForwardPrefix (phases : List InstallJournalEntryPhaseV1) : Except InstallJournalError Nat :=
  validateForwardPrefixFrom 0 false false phases

/-- The loop of `validate_rollback_shape`. -/
def validateRollbackShapeFrom (terminal sawRolledBack sawPending : Bool) :
    List InstallJournalEntryPhaseV1 → Except InstallJournalError Unit
  | [] => .ok ()
  | .verified :: rest | .applied :: rest =>
    if !sawRolledBack && !sawPending && !terminal then
      validateRollbackShapeFrom terminal sawRolledBack sawPending rest
    else .error .invalidJournal
  | .rolledBack :: rest =>
    if !sawPending then validateRollbackShapeFrom terminal true sawPending rest else .error .invalidJournal
  | .pending :: rest => validateRollbackShapeFrom terminal sawRolledBack true rest

def validateRollbackShape (phases : List InstallJournalEntryPhaseV1) (terminal : Bool) :
    Except InstallJournalError Unit :=
  validateRollbackShapeFrom terminal false false phases

/-- What an operation replies, and the journal it leaves. -/
abbrev JournalReply := Except InstallJournalError Unit × InstallJournalV1

namespace InstallJournalV1

def new (bindings : InstallJournalBindingsV1) : InstallJournalV1 where
  schemaVersion := installJournalSchemaVersion
  bindings := bindings
  state := .planned
  durableStep := 0
  entries := []
  failureCode := none
  rollbackPossible := true

def phases (j : InstallJournalV1) : List InstallJournalEntryPhaseV1 := j.entries.map (·.phase)

/-- The second match of `validate_entries_for_state`, past `Planned`. -/
def validateProgress (j : InstallJournalV1) : Except InstallJournalError Unit :=
  match j.state with
  | .planned => .ok ()
  | .prepared =>
    if j.durableStep != 1 || j.phases.any (· != .pending) || j.failureCode.isSome then .error .invalidJournal
    else .ok ()
  | .applying =>
    validateForwardPrefix j.phases >>= fun progress =>
      if j.durableStep != 2 + progress || j.failureCode.isSome then .error .invalidJournal else .ok ()
  | .installed =>
    -- `3_u64.checked_add(2_u64.saturating_mul(len))`
    match checkedAdd 3 (min (2 * j.entries.length) (u64Bound - 1)) with
    | none => .error .invalidJournal
    | some expected =>
      if j.durableStep != expected || j.phases.any (· != .verified) || j.failureCode.isSome then
        .error .invalidJournal
      else .ok ()
  | .failed =>
    validateForwardPrefix j.phases >>= fun progress =>
      if j.durableStep != 3 + progress || j.failureCode.isNone then .error .invalidJournal else .ok ()
  | .rollingBack =>
    validateRollbackShape j.phases false >>= fun _ =>
      if j.durableStep < 3 then .error .invalidJournal else .ok ()
  | .rolledBack =>
    validateRollbackShape j.phases true >>= fun _ =>
      if j.durableStep < 4 then .error .invalidJournal else .ok ()

def validateEntriesForState (j : InstallJournalV1) : Except InstallJournalError Unit :=
  if !j.failureCode.all isFindingCode || (!j.rollbackPossible && j.failureCode.isNone) then
    .error .invalidJournal
  else if j.state = .planned then
    if j.durableStep != 0 || !j.entries.isEmpty || j.failureCode.isSome || !j.rollbackPossible then
      .error .invalidJournal
    else .ok ()
  else validateEntries j.entries >>= fun _ => j.validateProgress

/-- What `Deserialize` asks of a journal that it reads. -/
def validate (j : InstallJournalV1) : Except InstallJournalError Unit :=
  j.bindings.validate >>= fun _ =>
    if j.schemaVersion != installJournalSchemaVersion then .error .invalidJournal
    else j.validateEntriesForState

/-! ### Operations -/

def advanceStep (j : InstallJournalV1) : JournalReply :=
  match checkedAdd j.durableStep 1 with
  | none => (.error .invalidTransition, j)
  | some step => (.ok (), {j with durableStep := step})

def entryIndex (j : InstallJournalV1) (role : InstallRoleV1) : Except InstallJournalError Nat :=
  match j.entries.findIdx? (·.role == role) with
  | none => .error .invalidTransition
  | some index => .ok index

/-- The entry of a role, changed in place: the assignments to `self.entries[index]`. -/
def modifyEntry (j : InstallJournalV1) (index : Nat) (f : InstallJournalEntryV1 → InstallJournalEntryV1) :
    InstallJournalV1 :=
  {j with entries := j.entries.modify index f}

/-- `sort_by_key` with the install order. -/
def sortEntries (entries : List InstallJournalEntryV1) : List InstallJournalEntryV1 :=
  entries.insertionSort (fun a b => a.role.installOrder ≤ b.role.installOrder)

def prepare (j : InstallJournalV1) (entries : List InstallJournalEntryV1) : JournalReply :=
  match validateEntries (sortEntries entries) with
  | .error err => (.error err, j)
  | .ok _ =>
    match j.state with
    | .planned => advanceStep {j with entries := sortEntries entries, state := .prepared}
    | .prepared => if j.entries = sortEntries entries then (.ok (), j) else (.error .invalidTransition, j)
    | _ => (.error .invalidTransition, j)

def startApplying (j : InstallJournalV1) : JournalReply :=
  if j.state ≠ .prepared then (.error .invalidTransition, j)
  else advanceStep {j with state := .applying}

/-- The action that takes an entry further, by its phase. -/
def forwardActionOf (entry : InstallJournalEntryV1) (durableStep : Nat) :
    Option InstallJournalForwardActionV1 :=
  match entry.phase with
  | .pending => some (.apply durableStep entry.role)
  | .applied => entry.currentIdentity.map (.verify durableStep entry.role)
  | .verified | .rolledBack => none

def nextForwardAction (j : InstallJournalV1) : Option InstallJournalForwardActionV1 :=
  if j.state ≠ .applying then none
  else do
    let entry ← j.entries.find? (·.phase != .verified)
    let durableStep ← checkedAdd j.durableStep 1
    forwardActionOf entry durableStep

/-- The entry that the repeated-call check at the head of `record_applied` and
`record_verified` finds. -/
def recordedEntry (j : InstallJournalV1) (role : InstallRoleV1) (phase : InstallJournalEntryPhaseV1) :
    Option InstallJournalEntryV1 :=
  (j.entries.find? (·.role == role)).filter (·.phase == phase)

def recordApplied (j : InstallJournalV1) (role : InstallRoleV1) (currentIdentity : InstallObjectIdentityV1)
    (createdParentIdentity : Option InstallObjectIdentityV1) : JournalReply :=
  match j.recordedEntry role .applied with
  | some entry =>
    if entry.currentIdentity = some currentIdentity ∧ entry.createdParentIdentity = createdParentIdentity then
      (.ok (), j)
    else (.error .invalidTransition, j)
  | none =>
    match j.nextForwardAction with
    | some (.apply _ expectedRole) =>
      if role ≠ expectedRole then (.error .invalidTransition, j)
      else
        match j.entryIndex role with
        | .error err => (.error err, j)
        | .ok index =>
          match currentIdentity.validate with
          | .error err => (.error err, j)
          | .ok _ =>
            if !(j.entries[index]?.any fun e => currentIdentity.matchesIntended e.intended) then
              (.error .invalidTransition, j)
            else
              match InstallJournalEntryV1.validateCreatedParent createdParentIdentity .invalidTransition with
              | .error err => (.error err, j)
              | .ok _ =>
                advanceStep (j.modifyEntry index fun e =>
                  {e with
                    currentIdentity := some currentIdentity
                    createdParentIdentity := createdParentIdentity
                    phase := .applied})
    | _ => (.error .invalidTransition, j)

def recordVerified (j : InstallJournalV1) (role : InstallRoleV1) (observedIdentity : InstallObjectIdentityV1) :
    JournalReply :=
  match j.recordedEntry role .verified with
  | some entry =>
    if entry.currentIdentity = some observedIdentity then (.ok (), j) else (.error .invalidTransition, j)
  | none =>
    match j.nextForwardAction with
    | some (.verify _ expectedRole expectedIdentity) =>
      if role ≠ expectedRole ∨ observedIdentity ≠ expectedIdentity then (.error .invalidTransition, j)
      else
        match j.entryIndex role with
        | .error err => (.error err, j)
        | .ok index => advanceStep (j.modifyEntry index fun e => {e with phase := .verified})
    | _ => (.error .invalidTransition, j)

def markInstalled (j : InstallJournalV1) : JournalReply :=
  if j.state ≠ .applying ∨ j.nextForwardAction.isSome ∨ j.entries.isEmpty then
    (.error .invalidTransition, j)
  else advanceStep {j with state := .installed}

def recordFailure (j : InstallJournalV1) (code : String) (rollbackPossible : Bool) : JournalReply :=
  if !isFindingCode code then (.error .invalidJournal, j)
  else if j.state = .failed then
    if j.failureCode = some code ∧ j.rollbackPossible = rollbackPossible then (.ok (), j)
    else (.error .invalidTransition, j)
  else if j.state ≠ .applying then (.error .invalidTransition, j)
  else
    advanceStep {j with failureCode := some code, rollbackPossible := rollbackPossible, state := .failed}

def beginRollback (j : InstallJournalV1) : JournalReply :=
  if !j.rollbackPossible ∨ ¬(j.state = .applying ∨ j.state = .installed ∨ j.state = .failed) then
    (.error .invalidTransition, j)
  else advanceStep {j with state := .rollingBack}

/-- The action that takes an entry back, by its prior state and its role. -/
def rollbackActionOf (entry : InstallJournalEntryV1) (durableStep : Nat)
    (expectedCurrent : InstallObjectIdentityV1) : InstallJournalRollbackActionV1 :=
  match entry.priorState with
  | .absent =>
    if entry.role.isJournalRetentionDirectory then .retainExact durableStep entry.role expectedCurrent
    else .removeExact durableStep entry.role expectedCurrent entry.createdParentIdentity
  | .priorOwned identity backupBasename =>
    .restoreExact durableStep entry.role expectedCurrent backupBasename identity entry.createdParentIdentity

def nextRollbackAction (j : InstallJournalV1) : Option InstallJournalRollbackActionV1 :=
  if j.state ≠ .rollingBack ∨ !j.rollbackPossible then none
  else do
    let entry ← j.entries.reverse.find? (·.inForce)
    let durableStep ← checkedAdd j.durableStep 1
    let expectedCurrent ← entry.currentIdentity
    return rollbackActionOf entry durableStep expectedCurrent

def recordRollbackCompleted (j : InstallJournalV1) (action : InstallJournalRollbackActionV1) : JournalReply :=
  if j.nextRollbackAction ≠ some action then (.error .invalidTransition, j)
  else
    match j.entryIndex action.role with
    | .error err => (.error err, j)
    | .ok index => advanceStep (j.modifyEntry index fun e => {e with phase := .rolledBack})

def markRolledBack (j : InstallJournalV1) : JournalReply :=
  if j.state ≠ .rollingBack ∨ j.nextRollbackAction.isSome then (.error .invalidTransition, j)
  else advanceStep {j with state := .rolledBack}

end InstallJournalV1

end NetworkLoop.Install
