import NetworkLoop.Core.Domain
import NetworkLoop.Control.Commands
import NetworkLoop.Tc.SafeTc
import NetworkLoop.Xdp.SafeXdp

/-! What the agent writes down about an attachment (`ownership.rs`), and the errors of its ports.

A record names the programs that were attached, by their identities in the kernel, and the maps
that were pinned, by their names, paths and ids. A path is the list of its components, as which
paths are compared; `TestPinRoot` and `JournalPath` are the two places that belong to one run. -/
namespace NetworkLoop.Attach
open Tc Xdp

def ownershipSchemaVersion : Nat := 2
def abiVersion : Nat := 1
def ownedMapNames : List String := ["IFACE_CONFIG", "HOOK_STATS", "FINGERPRINTS", "PROBE_REGISTRY", "PROBE_STATS", "RATE_POLICY"]

/-! ### Paths -/

inductive Component where
  | rootDir | curDir | parentDir
  | normal (name : String)
  deriving DecidableEq, Repr

abbrev PathBuf := List Component

namespace PathBuf

def isAbsolute (path : PathBuf) : Bool := path.head? = some .rootDir

/-- `join` with one plain name. -/
def push (path : PathBuf) (name : String) : PathBuf := path ++ [.normal name]

def fileName (path : PathBuf) : Option String :=
  match path.getLast? with
  | some (.normal name) => some name
  | _ => none

def parent (path : PathBuf) : Option PathBuf :=
  match path.getLast? with
  | none | some .rootDir => none
  | some _ => some path.dropLast

def stripPrefix? (base path : PathBuf) : Option PathBuf := if base <+: path then some (path.drop base.length) else none

/-- A component that leaves the path, or stays at it. -/
def hasDots (path : PathBuf) : Bool := path.any fun component => component = .parentDir || component = .curDir

def display (path : PathBuf) : String :=
  match path with
  | .rootDir :: rest => "/" ++ "/".intercalate (rest.map text)
  | rest => "/".intercalate (rest.map text)
where
  text : Component → String
    | .rootDir => ""
    | .curDir => "."
    | .parentDir => ".."
    | .normal name => name

end PathBuf

def testJournalRoot : PathBuf := [.rootDir, .normal "run", .normal "l2-loop", .normal "tests"]
def testPinBase : PathBuf := [.rootDir, .normal "sys", .normal "fs", .normal "bpf", .normal "l2-loop", .normal "test"]

/-! ### Errors -/

inductive IoErrorKind where
  | notFound | alreadyExists | invalidInput | other
  deriving DecidableEq, Repr

/-- `io::Error`. -/
structure IoError where
  kind : IoErrorKind
  text : String
  deriving DecidableEq, Repr

inductive OwnershipError where
  | invalidRunId
  | invalidJournalPath
  | invalidPinPath
  | pinRootTarget
  | symlink (path : PathBuf)
  | schemaMismatch (expected actual : Nat)
  | abiMismatch (expected actual : Nat)
  | identityMismatch (what : String)
  | json (text : String)
  | io (path : PathBuf) (source : IoError)
  deriving DecidableEq, Repr

def OwnershipError.text : OwnershipError → String
  | .invalidRunId => "run ID must be 32 lowercase hexadecimal characters"
  | .invalidJournalPath => "journal path is outside the isolated journal root or is not a private file"
  | .invalidPinPath => "pin path is outside the active isolated run"
  | .pinRootTarget => "the isolated pin root itself is not a cleanup target"
  | .symlink path => "symlink is forbidden in owned path: " ++ path.display
  | .schemaMismatch expected actual => "ownership schema mismatch: expected " ++ toString expected ++ ", found " ++ toString actual
  | .abiMismatch expected actual => "ownership ABI mismatch: expected " ++ toString expected ++ ", found " ++ toString actual
  | .identityMismatch what => "ownership identity mismatch: " ++ what
  | .json text => "ownership JSON is malformed: " ++ text
  | .io path source => "ownership filesystem error at " ++ path.display ++ ": " ++ source.text

/-- `PortError`, which every port of the agent fails with. -/
inductive PortError where
  | adapter (evidence : String)
  | codedAdapter (code evidence : String)
  | invalidReport (evidence : String)
  deriving DecidableEq, Repr

namespace PortError

def text : PortError → String
  | .adapter evidence => "adapter error: " ++ evidence
  | .codedAdapter code evidence => "adapter error: " ++ code ++ ": " ++ evidence
  | .invalidReport evidence => "invalid preflight report: " ++ evidence

def stableCode : PortError → Option String
  | .codedAdapter code _ => some code
  | .adapter _ | .invalidReport _ => none

end PortError

def ownershipPortError (error : OwnershipError) : PortError := .adapter error.text

/-! ### The places of a run -/

structure RunId where
  text : String
  deriving DecidableEq, Repr

def RunId.parse (value : String) : Except OwnershipError RunId := if isLowerHex value 32 then .ok ⟨value⟩ else .error .invalidRunId

def validateAbsoluteRoot (root : PathBuf) (error : OwnershipError) : Except OwnershipError Unit :=
  if !root.isAbsolute || root.hasDots then .error error else .ok ()

structure JournalPath where
  root : PathBuf
  path : PathBuf
  deriving DecidableEq, Repr

namespace JournalPath

def forRoot (root : PathBuf) (runId : RunId) : Except OwnershipError JournalPath :=
  (validateAbsoluteRoot root .invalidJournalPath).map fun _ => ⟨root, root.push (runId.text ++ ".json")⟩

def new (runId : RunId) : Except OwnershipError JournalPath := forRoot testJournalRoot runId

/-- `with_extension`, for a name that ends in `.json`. -/
def temporaryPath (journal : JournalPath) : PathBuf :=
  match journal.path.fileName with
  | some name => PathBuf.push journal.path.dropLast (name ++ ".tmp")
  | none => journal.path

end JournalPath

structure TestPinRoot where
  path : PathBuf
  deriving DecidableEq, Repr

namespace TestPinRoot

def forRoot (root : PathBuf) (runId : RunId) : Except OwnershipError TestPinRoot :=
  (validateAbsoluteRoot root .invalidPinPath).map fun _ => ⟨root.push runId.text⟩

def new (runId : RunId) : Except OwnershipError TestPinRoot := forRoot testPinBase runId

def validateLexical (pins : TestPinRoot) (target : PathBuf) : Except OwnershipError Unit :=
  if !target.isAbsolute then .error .invalidPinPath
  else
    match PathBuf.stripPrefix? pins.path target with
    | none => .error .invalidPinPath
    | some [] => .error .pinRootTarget
    | some components => if components.all fun component => component matches .normal _ then .ok () else .error .invalidPinPath

end TestPinRoot

/-! ### Records -/

structure OwnedMapPin where
  name : String
  path : PathBuf
  mapId : Nat
  deriving DecidableEq, Repr

def OwnedMapPin.validate (pin : OwnedMapPin) : Except OwnershipError Unit :=
  if pin.mapId = 0 || !ownedMapNames.contains pin.name || !pin.path.isAbsolute || pin.path.hasDots || pin.path.fileName ≠ some pin.name then
    .error (.identityMismatch "invalid owned map identity")
  else .ok ()

structure OwnershipRecord where
  schemaVersion : Nat
  abiVersion : Nat
  generation : Nat
  ifindex : Nat
  xdp : Option OwnedXdp
  tc : List OwnedTc
  mapPins : List OwnedMapPin
  createdAtUnixSeconds : Nat
  deriving DecidableEq, Repr

namespace OwnershipRecord

/-- The loop of `validate_owned_maps`: each pin against itself and those before it. -/
def validatePins (previous : List OwnedMapPin) : List OwnedMapPin → Except OwnershipError Unit
  | [] => .ok ()
  | pin :: rest =>
    pin.validate >>= fun _ =>
      if previous.any fun other => other.name = pin.name || other.path = pin.path || other.mapId = pin.mapId then
        .error (.identityMismatch "owned map identities are not unique")
      else validatePins (previous ++ [pin]) rest

def validateOwnedMaps (record : OwnershipRecord) : Except OwnershipError Unit :=
  if record.mapPins.length ≠ ownedMapNames.length then .error (.identityMismatch "owned map set is incomplete")
  else
    validatePins [] record.mapPins >>= fun _ =>
      if ownedMapNames.any fun required => !record.mapPins.any fun pin => pin.name = required then
        .error (.identityMismatch "owned map set does not match the public ABI")
      else .ok ()

end OwnershipRecord

structure LoadedBpfObject where
  xdp : LoadedXdp
  tcEgress : LoadedTc
  mapPins : List OwnedMapPin
  deriving DecidableEq, Repr

/-! ### What the validation lets pass -/

section
variable {pin : OwnedMapPin} {record : OwnershipRecord}

/-- The pin is of a map of the agent, under its name. -/
structure OwnedMapPin.Valid (pin : OwnedMapPin) : Prop where
  mapId : pin.mapId ≠ 0
  name : pin.name ∈ ownedMapNames
  absolute : pin.path.isAbsolute = true
  plain : pin.path.hasDots = false
  fileName : pin.path.fileName = some pin.name

theorem OwnedMapPin.validate_eq_ok : pin.validate = .ok () ↔ pin.Valid := by
  unfold OwnedMapPin.validate
  split
  case isTrue hbad =>
    refine ⟨fun h => (by cases h), fun h => absurd hbad ?_⟩
    simp [h.mapId, h.name, h.absolute, h.plain, h.fileName]
  case isFalse hgood =>
    simp only [Bool.or_eq_true, decide_eq_true_eq, Bool.not_eq_true', not_or, Bool.not_eq_false, List.contains_iff_mem, not_not,
      Bool.not_eq_true] at hgood
    obtain ⟨⟨⟨⟨hid, hname⟩, habsolute⟩, hplain⟩, hfile⟩ := hgood
    exact ⟨fun _ => ⟨hid, hname, habsolute, hplain, hfile⟩, fun _ => rfl⟩

/-- The two pins have nothing in common. -/
def Distinct (a b : OwnedMapPin) : Prop := a.name ≠ b.name ∧ a.path ≠ b.path ∧ a.mapId ≠ b.mapId

theorem OwnershipRecord.validatePins_eq_ok {previous pins : List OwnedMapPin} :
    validatePins previous pins = .ok () ↔
      (∀ pin ∈ pins, pin.Valid ∧ ∀ old ∈ previous, Distinct old pin) ∧ pins.Pairwise Distinct := by
  induction pins generalizing previous with
  | nil => exact ⟨fun _ => ⟨fun _ hmem => absurd hmem List.not_mem_nil, .nil⟩, fun _ => rfl⟩
  | cons pin rest ih =>
    have hany : (previous.any fun other => other.name = pin.name || other.path = pin.path || other.mapId = pin.mapId) = true ↔
        ¬∀ old ∈ previous, Distinct old pin := by
      simp only [List.any_eq_true, Bool.or_eq_true, decide_eq_true_eq, Distinct, not_forall, not_and_or, not_not, exists_prop, or_assoc]
    rw [validatePins]
    cases hpin : pin.validate with
    | error e =>
      refine ⟨fun h => (by cases h), fun h => ?_⟩
      rw [OwnedMapPin.validate_eq_ok.mpr (h.1 pin List.mem_cons_self).1] at hpin
      cases hpin
    | ok _ =>
      show (if _ then _ else validatePins (previous ++ [pin]) rest) = _ ↔ _
      split
      case isTrue htaken =>
        exact ⟨fun h => (by cases h), fun h => absurd (h.1 pin List.mem_cons_self).2 (hany.mp htaken)⟩
      case isFalse hfree =>
        have hapart : ∀ old ∈ previous, Distinct old pin := not_not.mp fun hno => hfree (hany.mpr hno)
        rw [ih]
        constructor
        · rintro ⟨heach, hpairwise⟩
          refine ⟨List.forall_mem_cons.mpr ⟨⟨OwnedMapPin.validate_eq_ok.mp hpin, hapart⟩, fun later hlater => ⟨(heach later hlater).1,
            fun old hold => (heach later hlater).2 old (List.mem_append_left _ hold)⟩⟩, List.pairwise_cons.mpr ⟨fun later hlater => ?_, hpairwise⟩⟩
          exact (heach later hlater).2 pin (List.mem_append_right _ (List.mem_singleton_self pin))
        · rintro ⟨heach, hpairwise⟩
          obtain ⟨hfirst, hrest⟩ := List.pairwise_cons.mp hpairwise
          refine ⟨fun later hlater => ⟨(heach later (List.mem_cons_of_mem _ hlater)).1, fun old hold => ?_⟩, hrest⟩
          rcases List.mem_append.mp hold with hold | hold
          · exact (heach later (List.mem_cons_of_mem _ hlater)).2 old hold
          · rw [List.mem_singleton.mp hold]
            exact hfirst later hlater

/-- **The pins that pass are one for each of the agent's maps**, in some order, with different paths
and ids. -/
theorem OwnershipRecord.validateOwnedMaps_eq_ok : record.validateOwnedMaps = .ok () ↔
    (record.mapPins.map (·.name)).Perm ownedMapNames ∧ (∀ pin ∈ record.mapPins, pin.Valid) ∧ record.mapPins.Pairwise Distinct := by
  have hnames : ownedMapNames.Nodup := by decide
  unfold validateOwnedMaps
  split
  case isTrue hlength =>
    refine ⟨fun h => (by cases h), fun h => absurd ?_ hlength⟩
    rw [← h.1.length_eq, List.length_map]
  case isFalse hlength =>
    have hlength : record.mapPins.length = ownedMapNames.length := not_not.mp hlength
    cases hpins : validatePins [] record.mapPins with
    | error e =>
      refine ⟨fun h => (by cases h), fun h => ?_⟩
      rw [validatePins_eq_ok.mpr ⟨fun pin hpin => ⟨h.2.1 pin hpin, fun _ hold => absurd hold List.not_mem_nil⟩, h.2.2⟩] at hpins
      cases hpins
    | ok _ =>
      obtain ⟨heach, hpairwise⟩ := validatePins_eq_ok.mp hpins
      have hvalid : ∀ pin ∈ record.mapPins, pin.Valid := fun pin hpin => (heach pin hpin).1
      have hnodup : (record.mapPins.map (·.name)).Nodup := List.pairwise_map.mpr (hpairwise.imp And.left)
      -- As many different names as there are maps, and each of them a map's: all of them.
      have hperm : (record.mapPins.map (·.name)).Perm ownedMapNames := by
        refine List.Subperm.perm_of_length_le (List.subperm_of_subset hnodup fun name hname => ?_) (by rw [List.length_map, hlength])
        obtain ⟨pin, hpin, rfl⟩ := List.mem_map.mp hname
        exact (hvalid pin hpin).name
      show (if _ then _ else _) = _ ↔ _
      split
      case isTrue hmissing =>
        obtain ⟨required, hrequired, hnone⟩ := List.any_eq_true.mp hmissing
        obtain ⟨pin, hpin, hname⟩ := List.mem_map.mp (hperm.mem_iff.mpr hrequired)
        rw [Bool.not_eq_true', List.any_eq_false] at hnone
        exact absurd (decide_eq_true hname) (hnone pin hpin)
      case isFalse => exact ⟨fun _ => ⟨hperm, hvalid, hpairwise⟩, fun _ => rfl⟩

end

end NetworkLoop.Attach
