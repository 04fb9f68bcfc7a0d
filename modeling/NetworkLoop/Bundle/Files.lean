import NetworkLoop.Library.Effect
import NetworkLoop.Library.FileTree

/-! The file system that a bundle is made on and read from (`bundle.rs`, `deployment_fs.rs`).

A node of the tree has what `symlink_metadata` tells of it. Who opens a file looks at it
before, at the opened file, and at it again after the last byte, since the file may change
in between: a `Reading` is what these calls answer. A file that nobody changes answers the same
each time (`Disk.reading`).

The calls that make a bundle may fail, each for itself, and a failed write may leave a part of
its file: a `Host` says which calls do, and what the kernel gives a new node. -/
namespace NetworkLoop.Bundle
open Library

abbrev Bytes := List UInt8

/-- `as_bytes`. -/
def utf8 (text : String) : Bytes := text.toList.flatMap String.utf8EncodeChar

@[simp] theorem utf8_append (a b : String) : utf8 (a ++ b) = utf8 a ++ utf8 b := by
  rw [utf8, String.toList_append, List.flatMap_append]
  rfl

/-! ### Files -/

inductive FileType where
  | file | directory | symlink | other
  deriving DecidableEq, Repr

/-- What a node has beside its type and its length. The mode is `st_mode & 0o7777`, a time is
in seconds and nanoseconds. -/
structure Stat where
  device : Nat
  inode : Nat
  hardLinks : Nat
  mode : Nat
  uid : Nat
  gid : Nat
  modified : Int × Int
  changed : Int × Int
  deriving DecidableEq

structure Metadata where
  fileType : FileType
  length : Nat
  stat : Stat
  deriving DecidableEq

/-- A symbolic link has the path that `canonicalize` makes of it, if it leads anywhere. -/
inductive Node where
  | file (stat : Stat) (data : Bytes)
  | directory (stat : Stat)
  | symlink (stat : Stat) (target : Option Path)
  | other (stat : Stat)
  deriving DecidableEq

namespace Node

def isDirectory : Node → Bool
  | .directory _ => true
  | _ => false

def stat : Node → Stat
  | .file stat _ | .directory stat | .symlink stat _ | .other stat => stat

def withStat (f : Stat → Stat) : Node → Node
  | .file stat data => .file (f stat) data
  | .directory stat => .directory (f stat)
  | .symlink stat target => .symlink (f stat) target
  | .other stat => .other (f stat)

def metadata : Node → Metadata
  | .file stat data => ⟨.file, data.length, stat⟩
  | .directory stat => ⟨.directory, 0, stat⟩
  | .symlink stat _ => ⟨.symlink, 0, stat⟩
  | .other stat => ⟨.other, 0, stat⟩

end Node

abbrev Disk := FileTree Node Node.isDirectory

/-- What the calls answer that open a file and read it to its end. -/
structure Reading where
  before : Option Metadata
  opens : Bool
  opened : Option Metadata
  data : Option Bytes
  after : Option Metadata

namespace Disk

def symlinkMetadata (t : Disk) (path : Path) : Option Metadata := (t.get path).map Node.metadata

/-- `canonicalize`, for a path whose directories are no links. -/
def canonicalize (t : Disk) (path : Path) : Option Path :=
  match t.get path with
  | none => none
  | some (.symlink _ target) => target
  | some _ => some path

/-- The reading of a file that nobody changes. A link does not open under `O_NOFOLLOW`. -/
def reading (t : Disk) (path : Path) : Reading :=
  match t.get path with
  | some (.file stat data) =>
    let metadata := (Node.file stat data).metadata
    ⟨some metadata, true, some metadata, some data, some metadata⟩
  | node => ⟨node.map Node.metadata, false, none, none, none⟩

/-- The sorted names of a directory. -/
def readDir (t : Disk) (path : Path) : Option (List String) :=
  if (t.get path).any Node.isDirectory then some ((t.children path).insertionSort fun a b => a ≤ b) else none

end Disk

/-! ### Calls -/

inductive Call where
  | createDir | write | setPermissions | metadata | readDir
  deriving DecidableEq, Repr

/-- The file that a failed write has left, if any. -/
structure Failure where
  left : Option Bytes

structure Host where
  /-- What the input files answer. -/
  reading : Path → Reading
  failure : Call → Path → Option Failure
  /-- What the kernel gives a new node: one link, and on its device a number of its own. -/
  created : Disk → Path → Stat
  changed : Disk → Path → Int × Int
  created_links : ∀ t path, (created t path).hardLinks = 1
  created_apart : ∀ (t : Disk) path q n, t.get q = some n → n.stat.device = (created t path).device →
    n.stat.inode ≠ (created t path).inode

/-- The variants of `BundleError`, without the errors of the system under `Io`. -/
inductive BundleError where
  | invalidCommitSha | invalidPackageVersion | unexpectedChecksumFiles
  | invalidChecksum (filename : String)
  | unexpectedOutputInventory | outputExists
  | invalidInput (path : Path)
  | io (operation : String) (path : Path)
  | serialize
  deriving DecidableEq, Repr

namespace Host
variable (host : Host)

/-- What the tree refuses is an error of the system call. -/
def done (operation : String) (path : Path) (t : Disk) : Option Disk → Except BundleError Unit × Disk
  | some t' => (.ok (), t')
  | none => (.error (.io operation path), t)

def createDir (path : Path) : Effect Disk BundleError Unit := fun t =>
  match host.failure .createDir path, t.get path with
  | none, none => done "creating output directory" path t (t.put path (.directory (host.created t path)))
  | _, _ => (.error (.io "creating output directory" path), t)

/-- `fs::write`: a new file, or the same one with other bytes. -/
def write (path : Path) (data : Bytes) : Effect Disk BundleError Unit := fun t =>
  match host.failure .write path with
  | some failure =>
    (.error (.io "writing bundle payload" path),
      (failure.left.bind fun left => t.put path (.file (host.created t path) left)).getD t)
  | none =>
    match t.get path with
    | none => done "writing bundle payload" path t (t.put path (.file (host.created t path) data))
    | some (.file stat _) =>
      done "writing bundle payload" path t
        (t.put path (.file { stat with modified := host.changed t path, changed := host.changed t path } data))
    -- the directory is new, so nothing else lies where a payload goes
    | some _ => (.error (.io "writing bundle payload" path), t)

def setMode (path : Path) (mode : Nat) : Effect Disk BundleError Unit := fun t =>
  match host.failure .setPermissions path, t.get path with
  | none, some node =>
    done "setting payload mode" path t
      (t.put path (node.withStat fun stat => { stat with mode, changed := host.changed t path }))
  | _, _ => (.error (.io "setting payload mode" path), t)

def metadata (path : Path) (error : BundleError) : Effect Disk BundleError Metadata :=
  .ask fun t =>
    match host.failure .metadata path, t.symlinkMetadata path with
    | none, some metadata => .ok metadata
    | _, _ => .error error

def readDir (path : Path) : Effect Disk BundleError (List String) :=
  .ask fun t =>
    match host.failure .readDir path, t.readDir path with
    | none, some names => .ok names
    | _, _ => .error (.io "reading output inventory" path)

/-! ### Calls that end well -/

variable {host} {t t' : Disk} {path : Path}

theorem done_eq_ok {operation : String} {next : Option Disk} : done operation path t next = (.ok (), t') ↔ next = some t' := by
  cases next with
  | none => simp [done]
  | some next => simp [done]

theorem createDir_get (h : host.createDir path t = (.ok (), t')) :
    t.get path = none ∧ t'.get = Function.update t.get path (some (.directory (host.created t path))) := by
  unfold createDir at h
  split at h
  · rename_i hfree
    exact ⟨hfree, FileTree.get_put (done_eq_ok.mp h)⟩
  · cases h

theorem write_get {data : Bytes} (hfree : t.get path = none) (h : host.write path data t = (.ok (), t')) :
    t'.get = Function.update t.get path (some (.file (host.created t path) data)) := by
  unfold write at h
  split at h
  · cases h
  · rw [hfree] at h
    exact FileTree.get_put (done_eq_ok.mp h)

theorem setMode_get {mode : Nat} {node : Node} (hget : t.get path = some node) (h : host.setMode path mode t = (.ok (), t')) :
    t'.get = Function.update t.get path
      (some (node.withStat fun stat => { stat with mode, changed := host.changed t path })) := by
  unfold setMode at h
  rw [hget] at h
  split at h
  · rename_i hnode
    cases hnode
    exact FileTree.get_put (done_eq_ok.mp h)
  · cases h

end Host

end NetworkLoop.Bundle
