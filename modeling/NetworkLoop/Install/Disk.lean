import NetworkLoop.Install.Layout

/-! The file system under the installer, as `installation_fs.rs` sees it.

A disk is a tree of nodes with the metadata that the code reads. The first half has
the system calls the code makes, each with the checks of the kernel that matter here;
the second half has the helpers of the source that only look: opening a directory of
the layout, inspecting an object, reading a journal. An open file is the path it was
opened at, since nothing moves under the installer while it holds one. -/
namespace NetworkLoop.Install
open Library

/-- The errors of `InstallIoError`; an injected fault is no error value here but a strike. -/
inductive InstallIoError where
  | unavailable | unsafeObject | identityChanged | unsupportedMetadata
  deriving DecidableEq, Repr

/-- A SHA-256 digest in lower-case hexadecimal. -/
abbrev Digest := {text : String // isLowerHex text 64 = true}

/-- The digest of no bytes at all. -/
def emptyDigest : Digest := ⟨"e3b0c44298fc1c149afbf4c8996fb92427ae41e4649b934ca495991b7852b855", by decide⟩

/-- What the code asks `fstat`, `flistxattr` and `FS_IOC_GETFLAGS` for. The mode is
`st_mode & 0o7777`; a node is plain if it has no extended attribute and neither of the
unsupported flags. -/
structure Metadata where
  device : Nat
  inode : Nat
  mode : Nat
  uid : Nat
  gid : Nat
  plain : Bool
  device_ne : device ≠ 0
  inode_ne : inode ≠ 0
  mode_le : mode ≤ 0o7777
  deriving DecidableEq

/-- What a file holds: a payload, of which the code reads only the digest; a journal;
or the switch at `/sys/fs/selinux/enforce`. -/
inductive Content where
  | blob (digest : Digest)
  | journal (journal : InstallJournalV1)
  | enforce (on : Bool)
  deriving DecidableEq

inductive Node where
  | directory (info : Metadata)
  | file (info : Metadata) (hardLinks : Nat) (content : Content)
  | symlink (info : Metadata)
  | special (info : Metadata)
  deriving DecidableEq

namespace Node

def isDirectory : Node → Bool
  | .directory _ => true
  | _ => false

def info : Node → Metadata
  | .directory info | .file info _ _ | .symlink info | .special info => info

def withInfo (f : Metadata → Metadata) : Node → Node
  | .directory info => .directory (f info)
  | .file info hardLinks content => .file (f info) hardLinks content
  | .symlink info => .symlink (f info)
  | .special info => .special (f info)

@[simp] theorem isDirectory_withInfo (n : Node) (f : Metadata → Metadata) :
    (n.withInfo f).isDirectory = n.isDirectory := by
  cases n <;> rfl

end Node

abbrev Disk := FileTree Node Node.isDirectory

namespace Disk

/-! ### System calls -/

def inode (n : Node) : Nat := n.info.inode

theorem permissionBits_le (mode : Nat) : mode % 0o10000 ≤ 0o7777 := Nat.le_of_lt_succ (Nat.mod_lt _ (by decide))

/-- A new node: the device of its directory, a number of its own, root's. -/
def newInfo (d : Disk) (parent : Metadata) (mode : Nat) : Metadata where
  device := parent.device
  inode := d.highest inode + 1
  mode := mode % 0o10000
  uid := 0
  gid := 0
  plain := true
  device_ne := parent.device_ne
  inode_ne := Nat.succ_ne_zero _
  mode_le := permissionBits_le mode

/-- An operation that the tree refuses is an error of the system call. -/
def done (result : Option Disk) : Except InstallIoError Disk := result.elim (.error .unavailable) .ok

/-- A new node under a directory, where there is none. -/
def create (d : Disk) (parent : Path) (name : String) (node : Metadata → Node) : Except InstallIoError Disk :=
  match d.get parent, d.get (parent ++ [name]) with
  | some (.directory info), none => done (d.put (parent ++ [name]) (node info))
  | _, _ => .error .unavailable

def mkdirat (d : Disk) (parent : Path) (name : String) (mode : Nat) : Except InstallIoError Disk :=
  create d parent name fun info => .directory (newInfo d info mode)

/-- `openat` with `O_CREAT | O_EXCL`. -/
def createatFile (d : Disk) (parent : Path) (name : String) (mode : Nat) : Except InstallIoError Disk :=
  create d parent name fun info => .file (newInfo d info mode) 1 (.blob emptyDigest)

def alter (d : Disk) (p : Path) (f : Node → Node) : Except InstallIoError Disk :=
  match d.get p with
  | some n => done (d.put p (f n))
  | none => .error .unavailable

def fchown (d : Disk) (p : Path) (uid gid : Nat) : Except InstallIoError Disk :=
  alter d p (Node.withInfo fun info => {info with uid := uid, gid := gid})

def fchmod (d : Disk) (p : Path) (mode : Nat) : Except InstallIoError Disk :=
  alter d p (Node.withInfo fun info =>
    {info with mode := mode % 0o10000, mode_le := permissionBits_le mode})

/-- `write_all` on a new file. -/
def writeAll (d : Disk) (p : Path) (content : Content) : Except InstallIoError Disk :=
  match d.get p with
  | some (.file info hardLinks _) => done (d.put p (.file info hardLinks content))
  | _ => .error .unavailable

/-- `unlinkat`, with `AT_REMOVEDIR` for a directory. -/
def unlinkat (d : Disk) (parent : Path) (name : String) (directory : Bool) : Except InstallIoError Disk :=
  match d.get (parent ++ [name]) with
  | some n => if n.isDirectory = directory then done (d.remove (parent ++ [name])) else .error .unavailable
  | none => .error .unavailable

/-- `renameat`. A directory is moved with what lies in it, and only to a free name. -/
def renameat (d : Disk) (src dst : Path) : Except InstallIoError Disk :=
  match d.get src with
  | none => .error .unavailable
  | some n =>
    if n.isDirectory then done (d.graft src dst)
    else if (d.get dst).any Node.isDirectory then .error .unavailable
    else done ((d.remove src).bind (·.put dst n))

/-- `renameat2` with `RENAME_NOREPLACE`. -/
def renameatNoreplace (d : Disk) (src dst : Path) : Except InstallIoError Disk :=
  if (d.get dst).isSome then .error .unsafeObject else renameat d src dst

/-! ### Looking -/

def ensureSafeBasename (value : String) : Except InstallIoError Unit :=
  if !value.isEmpty && value != "." && value != ".." && !value.toList.contains '/' && !value.toList.contains '\x00' then
    .ok ()
  else .error .unsafeObject

def ensureTransactionId (value : String) : Except InstallIoError Unit :=
  if isLowerHex value 32 then .ok () else .error .unsafeObject

def entryExistsAt (d : Disk) (parent : Path) (name : String) : Bool := (d.get (parent ++ [name])).isSome

/-- `/sys/fs/selinux/enforce`. -/
def selinuxPath : Path := ["sys", "fs", "selinux", "enforce"]

def ensureSelinuxIsNotEnforcing (d : Disk) : Except InstallIoError Unit :=
  match d.get selinuxPath with
  | none => .ok ()
  | some (.file _ _ (.enforce on)) => if on then .error .unsupportedMetadata else .ok ()
  | some (.file ..) => .ok ()
  | some _ => .error .unavailable

def ensureSupportedMetadata (info : Metadata) : Except InstallIoError Unit :=
  if info.plain then .ok () else .error .unsupportedMetadata

def openatDirectoryOptional (d : Disk) (parent : Path) (name : String) : Except InstallIoError (Option Path) :=
  match d.get (parent ++ [name]) with
  | none => .ok none
  | some (.directory _) => .ok (some (parent ++ [name]))
  | some _ => .error .unsafeObject

def openatDirectory (d : Disk) (parent : Path) (name : String) : Except InstallIoError Path :=
  openatDirectoryOptional d parent name >>= fun opened => opened.elim (.error .unavailable) .ok

def validateDirectory (d : Disk) (p : Path) (expectedMode : Nat) : Except InstallIoError Unit :=
  match d.get p with
  | some (.directory info) =>
    if info.uid != 0 || info.gid != 0 || info.mode != expectedMode then .error .unsafeObject
    else ensureSupportedMetadata info
  | _ => .error .unsafeObject

/-- The loop of `open_static_directory_optional`: `current` is the directory reached so far. -/
def openStaticFrom (d : Disk) (current : Path) : List String → Except InstallIoError (Option Path)
  | [] => .ok (some current)
  | component :: rest =>
    ensureSafeBasename component >>= fun _ =>
      openatDirectoryOptional d current component >>= fun opened =>
        match opened with
        | none => .ok none
        | some next =>
          match InstallRoleV1.all.find? fun entry => entry.path = next with
          | none => .error .unsafeObject
          | some entry => validateDirectory d next entry.expectedMode >>= fun _ => openStaticFrom d next rest

def openStaticDirectoryOptional (d : Disk) (absolute : Path) : Except InstallIoError (Option Path) :=
  openStaticFrom d [] absolute

def openStaticDirectory (d : Disk) (absolute : Path) : Except InstallIoError Path :=
  openStaticDirectoryOptional d absolute >>= fun opened => opened.elim (.error .unavailable) .ok

def openRoleParent (d : Disk) (role : InstallRoleV1) : Except InstallIoError Path :=
  openStaticDirectory d role.directory

/-- `hash_open_file`. The other contents stand where no object of the layout does. -/
def hashOpenFile : Content → Except InstallIoError String
  | .blob digest => .ok digest.val
  | _ => .error .unavailable

/-- `inspect_open_file`, given the number of links if it is a directory. -/
def inspectNode (links : Nat) : Node → Except InstallIoError InstallObjectIdentityV1
  | .directory info =>
    ensureSupportedMetadata info >>= fun _ =>
      .ok ⟨.directory, info.device, info.inode, links, none, info.mode, info.uid, info.gid⟩
  | .file info hardLinks content =>
    ensureSupportedMetadata info >>= fun _ =>
      if hardLinks ≠ 1 then .error .unsafeObject
      else
        hashOpenFile content >>= fun digest =>
          .ok ⟨.regularFile, info.device, info.inode, hardLinks, some digest, info.mode, info.uid, info.gid⟩
  | .symlink _ => .error .unavailable
  | .special info => ensureSupportedMetadata info >>= fun _ => .error .unsafeObject

/-- `inspect_at`. A directory has a link from itself, one from its name and one from
each directory in it. -/
def inspectAt (d : Disk) (p : Path) : Except InstallIoError InstallObjectIdentityV1 :=
  match d.get p with
  | none => .error .unavailable
  | some n => inspectNode (2 + d.subdirectories p) n

def inspectExact (d : Disk) (role : InstallRoleV1) : Except InstallIoError InstallObjectIdentityV1 :=
  ensureSelinuxIsNotEnforcing d >>= fun _ =>
    openRoleParent d role >>= fun parent => inspectAt d (parent ++ [role.basename])

def inspectOptionalExact (d : Disk) (role : InstallRoleV1) :
    Except InstallIoError (Option InstallObjectIdentityV1) :=
  ensureSelinuxIsNotEnforcing d >>= fun _ =>
    openStaticDirectoryOptional d role.directory >>= fun opened =>
      match opened with
      | none => .ok none
      | some parent =>
        if entryExistsAt d parent role.basename then
          inspectAt d (parent ++ [role.basename]) >>= fun identity => .ok (some identity)
        else .ok none

/-! ### Journals on disk -/

def journalBasename : String := "journal-v1.json"

def journalSiblingBasename : String := ".journal-v1.json.new"

/-- What `validate_journal_file`, `validate_existing_journal_binding` and
`read_journal_file` have in common: the checks of the file, and `Deserialize`, which
accepts a valid journal only. -/
def decodeJournal (d : Disk) (directory : Path) : Except InstallIoError InstallJournalV1 :=
  match d.get (directory ++ [journalBasename]) with
  | some (.file info hardLinks content) =>
    if hardLinks != 1 || info.uid != 0 || info.gid != 0 || info.mode != 0o600 then .error .unsafeObject
    else
      ensureSupportedMetadata info >>= fun _ =>
        match content with
        | .journal journal => if journal.validate = .ok () then .ok journal else .error .unsafeObject
        | _ => .error .unsafeObject
  | some (.symlink _) | none => .error .unavailable
  | some _ => .error .unsafeObject

def validateJournalFile (d : Disk) (directory : Path) (expected : InstallJournalV1) : Except InstallIoError Unit :=
  decodeJournal d directory >>= fun decoded => if decoded ≠ expected then .error .identityChanged else .ok ()

def readJournalFile (d : Disk) (directory : Path) (transactionId : String) : Except InstallIoError InstallJournalV1 :=
  decodeJournal d directory >>= fun journal =>
    if journal.bindings.transactionId ≠ transactionId then .error .identityChanged else .ok journal

def validateExistingJournalBinding (d : Disk) (directory : Path) (transactionId : String) :
    Except InstallIoError Unit :=
  readJournalFile d directory transactionId >>= fun _ => .ok ()

def bootstrapBasename (transactionId : String) : Except InstallIoError String :=
  ensureTransactionId transactionId >>= fun _ => .ok (bootstrapName transactionId)

/-- `openat_directory` and `validate_directory` with mode 0700. -/
def openPrivateDirectory (d : Disk) (parent : Path) (name : String) : Except InstallIoError Path :=
  openatDirectory d parent name >>= fun directory => validateDirectory d directory 0o700 >>= fun _ => .ok directory

def openTransactionDirectory (d : Disk) (transactionId : String) : Except InstallIoError Path :=
  ensureTransactionId transactionId >>= fun _ =>
    openStaticDirectory d InstallRoleV1.varLibRoot.path >>= fun varLib =>
      if entryExistsAt d varLib (bootstrapName transactionId) then
        openPrivateDirectory d varLib (bootstrapName transactionId)
      else
        openStaticDirectory d InstallRoleV1.transactionsRoot.path >>= fun finalParent =>
          if entryExistsAt d finalParent transactionId then openPrivateDirectory d finalParent transactionId
          else .error .unavailable

def loadJournalExact (d : Disk) (transactionId : String) : Except InstallIoError InstallJournalV1 :=
  openTransactionDirectory d transactionId >>= fun directory => readJournalFile d directory transactionId

/-- The checks of `read_transaction_ids` on one name. -/
def checkTransactionName (d : Disk) (directory : Path) (name : String) : Except InstallIoError Unit :=
  ensureTransactionId name >>= fun _ => openPrivateDirectory d directory name >>= fun _ => .ok ()

def checkTransactionNames (d : Disk) (directory : Path) : List String → Except InstallIoError Unit
  | [] => .ok ()
  | name :: rest => checkTransactionName d directory name >>= fun _ => checkTransactionNames d directory rest

/-- `read_transaction_ids`: the order of the names on disk is lost in the sort. -/
def readTransactionIds (d : Disk) (directory : Path) : Except InstallIoError (List String) :=
  checkTransactionNames d directory (d.children directory) >>= fun _ =>
    if (d.children directory).length > 128 then .error .unsafeObject
    else .ok ((d.children directory).insertionSort (· ≤ ·))

def transactionIds (d : Disk) : Except InstallIoError (List String) :=
  openStaticDirectoryOptional d InstallRoleV1.transactionsRoot.path >>= fun opened =>
    match opened with
    | none => .ok []
    | some directory => readTransactionIds d directory

end Disk

end NetworkLoop.Install
