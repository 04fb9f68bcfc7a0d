import NetworkLoop.Install.Disk
import NetworkLoop.Library.Interrupt

/-! The steps of `LinuxInstallationFilesystem` that change the disk.

Every system call that can fail is a step with a site of its own, so that a strike can
hit it; calls that only look and follow each other without a change between them are
one step, since nothing distinguishes a failure of one from a failure of the next. The
fault injector of the source does nothing outside its tests and is left out: a strike
can hit wherever it could, and elsewhere too. -/
namespace NetworkLoop.Install
open Library

/-! ### Sites -/

/-- The steps of `write_new_journal`. -/
inductive WriteSite where
  | create | write | own | mode | fileSync
  deriving DecidableEq, Repr

inductive BootstrapSite where
  | check | create | open | own | mode | write (step : WriteSite) | sync | parentSync
  deriving DecidableEq, Repr

inductive PublishSite where
  | check | move | sync | parentSync
  deriving DecidableEq, Repr

inductive PersistSite where
  | check | write (step : WriteSite) | rename | sync | validate
  deriving DecidableEq, Repr

/-- The steps of `apply_directory` and `apply_file`. -/
inductive EntrySite where
  | check | create | open | write | own | mode | validate | hash | fileSync | sync | backup | backupSync | place
  | placeSync | inspect
  deriving DecidableEq, Repr

inductive RollbackSite where
  | check | change | sync | confirm
  deriving DecidableEq, Repr

/-- Which change of the journal is being made durable. -/
inductive PersistReason where
  | started | applied (role : InstallRoleV1) | verified (role : InstallRoleV1) | installed
  | begun | undone (role : InstallRoleV1) | rolledBack
  deriving DecidableEq, Repr

inductive Site where
  | journal
  | bootstrap (step : BootstrapSite)
  | probe
  | publish (early : Bool) (step : PublishSite)
  | payload (role : InstallRoleV1)
  | entry (role : InstallRoleV1) (step : EntrySite)
  | verify (role : InstallRoleV1)
  | persist (reason : PersistReason) (step : PersistSite)
  | rollback (role : InstallRoleV1) (step : RollbackSite)
  deriving DecidableEq, Repr

/-- `final_moved`, by the step that returned the error: the new file is in place. -/
def EntrySite.finalMoved : EntrySite → Bool
  | .placeSync | .inspect => true
  | _ => false

/-- `backup_moved`, by the step that returned the error, if there is a prior file. -/
def EntrySite.backupMoved : EntrySite → Bool
  | .backupSync | .place | .placeSync | .inspect => true
  | _ => false

/-- Out of the sites of an entry. -/
def Site.entryStep : Site → EntrySite
  | .entry _ step => step
  | _ => .check

abbrev Fs := Program Site Disk InstallIoError

namespace Fs
open Program Disk

/-- `sync_all`: on an undisturbed disk it changes nothing that can be seen. -/
def syncAll (site : Site) : Fs Unit := look site fun _ => .ok ()

/-- `set_owner_mode`. -/
def setOwnerMode (own mode : Site) (file : Path) (uid gid bits : Nat) : Fs Unit := do
  perform own fun d => fchown d file uid gid
  perform mode fun d => fchmod d file bits

/-! ### The journal -/

/-- `write_new_journal`; the bound on the size of the document is left out. -/
def writeNewJournal (site : WriteSite → Site) (directory : Path) (journal : InstallJournalV1) (basename : String) :
    Fs Unit := do
  perform (site .create) fun d => createatFile d directory basename 0o600
  perform (site .write) fun d => writeAll d (directory ++ [basename]) (.journal journal)
  setOwnerMode (site .own) (site .mode) (directory ++ [basename]) 0 0 0o600
  syncAll (site .fileSync)

/-- What `bootstrap_journal` looks at first. -/
def bootstrapCheck (journal : InstallJournalV1) (d : Disk) : Except InstallIoError (Path × String) :=
  ensureSelinuxIsNotEnforcing d >>= fun _ =>
    openStaticDirectory d InstallRoleV1.varLibRoot.path >>= fun varLib =>
      bootstrapBasename journal.bindings.transactionId >>= fun bootstrap =>
        if entryExistsAt d varLib bootstrap then .error .unsafeObject
        else
          openStaticDirectoryOptional d InstallRoleV1.transactionsRoot.path >>= fun finalParent =>
            if finalParent.any fun p => entryExistsAt d p journal.bindings.transactionId then .error .unsafeObject
            else .ok (varLib, bootstrap)

def bootstrapJournal (journal : InstallJournalV1) : Fs Unit := do
  let (varLib, bootstrap) ← look (.bootstrap .check) (bootstrapCheck journal)
  perform (.bootstrap .create) fun d => mkdirat d varLib bootstrap 0o700
  let directory ← look (.bootstrap .open) fun d => openatDirectory d varLib bootstrap
  setOwnerMode (.bootstrap .own) (.bootstrap .mode) directory 0 0 0o700
  writeNewJournal (fun step => .bootstrap (.write step)) directory journal journalBasename
  syncAll (.bootstrap .sync)
  syncAll (.bootstrap .parentSync)

/-- What `publish_journal` looks at first: where the journal is, and where it goes. -/
def publishCheck (journal : InstallJournalV1) (d : Disk) : Except InstallIoError (Path × Path) :=
  openStaticDirectory d InstallRoleV1.varLibRoot.path >>= fun varLib =>
    openStaticDirectory d InstallRoleV1.transactionsRoot.path >>= fun finalParent =>
      bootstrapBasename journal.bindings.transactionId >>= fun bootstrap =>
        openPrivateDirectory d varLib bootstrap >>= fun directory =>
          validateJournalFile d directory journal >>= fun _ =>
            if entryExistsAt d finalParent journal.bindings.transactionId then .error .unsafeObject
            else .ok (directory, finalParent ++ [journal.bindings.transactionId])

def publishJournal (early : Bool) (journal : InstallJournalV1) : Fs Unit := do
  let (src, dst) ← look (.publish early .check) (publishCheck journal)
  perform (.publish early .move) fun d => renameatNoreplace d src dst
  syncAll (.publish early .sync)
  syncAll (.publish early .parentSync)

/-- What `persist_journal` looks at first. -/
def persistCheck (journal : InstallJournalV1) (d : Disk) : Except InstallIoError Path :=
  openTransactionDirectory d journal.bindings.transactionId >>= fun directory =>
    validateExistingJournalBinding d directory journal.bindings.transactionId >>= fun _ =>
      if entryExistsAt d directory journalSiblingBasename then .error .unsafeObject else .ok directory

def persistJournal (reason : PersistReason) (journal : InstallJournalV1) : Fs Unit := do
  let directory ← look (.persist reason .check) (persistCheck journal)
  writeNewJournal (fun step => .persist reason (.write step)) directory journal journalSiblingBasename
  perform (.persist reason .rename) fun d =>
    renameat d (directory ++ [journalSiblingBasename]) (directory ++ [journalBasename])
  syncAll (.persist reason .sync)
  look (.persist reason .validate) fun d => validateJournalFile d directory journal

/-! ### Entries -/

/-- What there is to read from an open payload: its bytes, of which only the digest
matters, or an error on the way (or more than the 64 MiB that `copy_bounded` takes). -/
inductive Payload where
  | blob (digest : Digest)
  | unreadable
  deriving DecidableEq

/-- What `apply_directory` looks at first. -/
def directoryCheck (entry : InstallJournalEntryV1) (payload : Option Payload) (d : Disk) : Except InstallIoError Path :=
  ensureSelinuxIsNotEnforcing d >>= fun _ =>
    if payload.isSome ∨ entry.priorState ≠ .absent then .error .unsafeObject
    else
      openRoleParent d entry.role >>= fun parent =>
        if entryExistsAt d parent entry.role.basename then .error .unsafeObject else .ok parent

/-- A change whose error is ignored. -/
def tryTo (change : Disk → Except InstallIoError Disk) (d : Disk) : Disk :=
  match change d with
  | .ok d' => d'
  | .error _ => d

/-- The error path of `apply_directory`. -/
def removeDirectory (parent : Path) (name : String) : Disk → Disk := tryTo (unlinkat · parent name true)

def applyDirectory (entry : InstallJournalEntryV1) (payload : Option Payload) : Fs InstallObjectIdentityV1 := do
  let site := Site.entry entry.role
  let parent ← look (site .check) (directoryCheck entry payload)
  perform (site .create) fun d => mkdirat d parent entry.role.basename entry.intended.mode
  let directory ← look (site .open) fun d => openatDirectory d parent entry.role.basename
  protect (do
      setOwnerMode (site .own) (site .mode) directory entry.intended.uid entry.intended.gid entry.intended.mode
      look (site .validate) fun d => validateDirectory d directory entry.intended.mode
      syncAll (site .sync)
      look (site .inspect) fun d => inspectAt d directory)
    (fun _ => removeDirectory parent entry.role.basename)

/-- The part of `apply_file` that looks at the prior state. -/
def priorCheck (entry : InstallJournalEntryV1) (parent : Path) (d : Disk) :
    Except InstallIoError (Option (InstallObjectIdentityV1 × String)) :=
  match entry.priorState with
  | .absent => if entryExistsAt d parent entry.role.basename then .error .unsafeObject else .ok none
  | .priorOwned identity backupBasename =>
    ensureSafeBasename backupBasename >>= fun _ =>
      if entryExistsAt d parent backupBasename then .error .identityChanged
      else
        inspectAt d (parent ++ [entry.role.basename]) >>= fun found =>
          if found ≠ identity then .error .identityChanged else .ok (some (identity, backupBasename))

/-- What `apply_file` looks at first. -/
def fileCheck (entry : InstallJournalEntryV1) (payload : Option Payload) (d : Disk) :
    Except InstallIoError (Payload × Path × String × Option (InstallObjectIdentityV1 × String)) :=
  ensureSelinuxIsNotEnforcing d >>= fun _ =>
    match payload with
    | none => .error .unavailable
    | some payload =>
      openRoleParent d entry.role >>= fun parent =>
        match entry.siblingBasename with
        | none => .error .unsafeObject
        | some sibling =>
          ensureSafeBasename sibling >>= fun _ =>
            priorCheck entry parent d >>= fun prior =>
              if entryExistsAt d parent sibling then .error .unsafeObject else .ok (payload, parent, sibling, prior)

/-- `copy_bounded`. -/
def copyBounded (payload : Payload) (file : Path) (d : Disk) : Except InstallIoError Disk :=
  match payload with
  | .blob digest => writeAll d file (.blob digest)
  | .unreadable => .error .unavailable

/-- The end of the error path of `apply_file`: the prior file goes back to its name. -/
def restoreBackup (entry : InstallJournalEntryV1) (parent : Path) (identity : InstallObjectIdentityV1)
    (backupBasename : String) (d : Disk) : Disk :=
  if inspectAt d (parent ++ [backupBasename]) = .ok identity ∧ ¬entryExistsAt d parent entry.role.basename then
    tryTo (renameatNoreplace · (parent ++ [backupBasename]) (parent ++ [entry.role.basename])) d
  else d

/-- The error path of `apply_file`. -/
def removeFile (entry : InstallJournalEntryV1) (parent : Path) (sibling : String)
    (prior : Option (InstallObjectIdentityV1 × String)) (site : EntrySite) (d : Disk) : Disk :=
  let removed :=
    if site.finalMoved then tryTo (unlinkat · parent entry.role.basename false) d
    else tryTo (unlinkat · parent sibling false) d
  match prior with
  | some (identity, backupBasename) =>
    if site.backupMoved then restoreBackup entry parent identity backupBasename removed else removed
  | none => removed

/-- `apply_file` from the new file to the point where nothing has been replaced yet. -/
def prepareFile (entry : InstallJournalEntryV1) (payload : Payload) (temporary : Path) : Fs Unit := do
  let site := Site.entry entry.role
  perform (site .write) (copyBounded payload temporary)
  setOwnerMode (site .own) (site .mode) temporary entry.intended.uid entry.intended.gid entry.intended.mode
  look (site .hash) fun d =>
    inspectAt d temporary >>= fun identity =>
      if !identity.matchesIntended entry.intended then .error .identityChanged else .ok ()
  syncAll (site .fileSync)
  syncAll (site .sync)

/-- The part of `apply_file` that moves a prior file out of the way. -/
def moveBackup (entry : InstallJournalEntryV1) (parent : Path) :
    Option (InstallObjectIdentityV1 × String) → Fs Unit
  | none => pure ()
  | some (_, backupBasename) => do
    perform (.entry entry.role .backup) fun d =>
      renameatNoreplace d (parent ++ [entry.role.basename]) (parent ++ [backupBasename])
    syncAll (.entry entry.role .backupSync)

/-- `apply_file` from there to its end. -/
def replaceFile (entry : InstallJournalEntryV1) (parent : Path) (sibling : String)
    (prior : Option (InstallObjectIdentityV1 × String)) : Fs InstallObjectIdentityV1 := do
  let site := Site.entry entry.role
  moveBackup entry parent prior
  perform (site .place) fun d => renameatNoreplace d (parent ++ [sibling]) (parent ++ [entry.role.basename])
  syncAll (site .placeSync)
  look (site .inspect) fun d =>
    inspectAt d (parent ++ [entry.role.basename]) >>= fun current =>
      if !current.matchesIntended entry.intended then .error .identityChanged else .ok current

def applyFile (entry : InstallJournalEntryV1) (payload : Option Payload) : Fs InstallObjectIdentityV1 := do
  let site := Site.entry entry.role
  let (payload, parent, sibling, prior) ← look (site .check) (fileCheck entry payload)
  perform (site .create) fun d => createatFile d parent sibling 0o600
  protect (do
      prepareFile entry payload (parent ++ [sibling])
      replaceFile entry parent sibling prior)
    (fun stop => removeFile entry parent sibling prior stop.entryStep)

/-- `apply_entry`. The outcome's second field is always `None`. -/
def applyEntry (entry : InstallJournalEntryV1) (payload : Option Payload) : Fs InstallObjectIdentityV1 :=
  match entry.intended.kind with
  | .directory => applyDirectory entry payload
  | .regularFile => applyFile entry payload

def verifyExact (role : InstallRoleV1) (expected : InstallObjectIdentityV1) : Fs Unit :=
  look (.verify role) fun d =>
    inspectExact d role >>= fun observed => if observed ≠ expected then .error .identityChanged else .ok ()

/-! ### Rollback -/

def removeCheck (role : InstallRoleV1) (expected : InstallObjectIdentityV1) (d : Disk) : Except InstallIoError Path :=
  inspectExact d role >>= fun observed =>
    if observed ≠ expected then .error .identityChanged else openRoleParent d role

def rollbackRemoveExact (role : InstallRoleV1) (expected : InstallObjectIdentityV1) : Fs Unit := do
  let parent ← look (.rollback role .check) (removeCheck role expected)
  perform (.rollback role .change) fun d => unlinkat d parent role.basename (expected.kind = .directory)
  syncAll (.rollback role .sync)

def restoreCheck (role : InstallRoleV1) (expectedCurrent : InstallObjectIdentityV1) (backupBasename : String)
    (expectedBackup : InstallObjectIdentityV1) (d : Disk) : Except InstallIoError Path :=
  ensureSafeBasename backupBasename >>= fun _ =>
    openRoleParent d role >>= fun parent =>
      inspectAt d (parent ++ [role.basename]) >>= fun current =>
        inspectAt d (parent ++ [backupBasename]) >>= fun backup =>
          if current ≠ expectedCurrent ∨ backup ≠ expectedBackup then .error .identityChanged else .ok parent

def rollbackRestoreExact (role : InstallRoleV1) (expectedCurrent : InstallObjectIdentityV1) (backupBasename : String)
    (expectedBackup : InstallObjectIdentityV1) : Fs Unit := do
  let parent ← look (.rollback role .check) (restoreCheck role expectedCurrent backupBasename expectedBackup)
  perform (.rollback role .change) fun d => renameat d (parent ++ [backupBasename]) (parent ++ [role.basename])
  syncAll (.rollback role .sync)
  look (.rollback role .confirm) fun d =>
    inspectAt d (parent ++ [role.basename]) >>= fun restored =>
      if restored ≠ expectedBackup then .error .identityChanged else .ok ()

end Fs

end NetworkLoop.Install
