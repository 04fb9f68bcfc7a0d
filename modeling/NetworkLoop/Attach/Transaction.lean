import NetworkLoop.Library.Custody
import NetworkLoop.Install.Documents
import NetworkLoop.Attach.Records
import NetworkLoop.Xdp.Links

/-! The attachment transaction (`attach.rs`).

`execute` loads the object, attaches the XDP program and the traffic-control filter and looks at
each, initializes the maps, writes the journal and publishes the interface's configuration, which
switches the programs on; a failure is followed by the clean-up of all that was acquired, in the
reverse order. `executeAcceptancePassThrough` does the same with the maps first and without the
last step, and the two detach functions clean up after a session. The ports are parameters.
`AttachmentPorts.Keeps` is what `ports.rs` asks of them, but for what a failed acquisition may
leave behind: that is a parameter too, empty where a port is as documented. -/
namespace NetworkLoop.Attach
open Library Custody Tc Xdp
open Control (InterfaceName)
open Install (InterfaceKind)

/-! ### The preflight report -/

structure InterfaceRef where
  name : InterfaceName
  ifindex : Nat
  deriving DecidableEq, Repr

/-- What attaching reads of an `InterfaceInspection`. -/
structure InterfaceInspection where
  requested : InterfaceRef
  kind : InterfaceKind
  isolated : Bool
  liveShared : Bool
  deriving DecidableEq, Repr

inductive FindingSeverity where
  | blocker | warning | information
  deriving DecidableEq, Repr

structure PreflightFinding where
  code : String
  severity : FindingSeverity
  deriving DecidableEq, Repr

inductive PreflightDecision where
  | ready | readyWithWarnings | blocked
  deriving DecidableEq, Repr

structure PreflightReport where
  decision : PreflightDecision
  interface : InterfaceInspection
  findings : List PreflightFinding
  deriving DecidableEq, Repr

/-! ### Ports -/

structure PlatformInspector (τ : Type) where
  inspect : InterfaceName → Effect τ PortError PreflightReport

structure ResourceLimits (τ : Type) where
  raiseMemlockToInfinity : Effect τ PortError Unit

structure BpfObjectLoader (τ : Type) where
  loadAndValidateAbi : TestPinRoot → Effect τ PortError LoadedBpfObject
  unloadExact : LoadedBpfObject → Effect τ PortError Unit

structure SafeXdpPort (τ : Type) where
  attachNoReplace : Nat → XdpAttachMode → LoadedXdp → Effect τ PortError OwnedXdp
  verifyExact : OwnedXdp → Effect τ PortError Unit
  detachExact : OwnedXdp → Effect τ PortError Unit

structure SafeTcPort (τ : Type) where
  attachExplicit : Nat → TcHook → LoadedTc → Effect τ PortError OwnedTc
  verifyExact : OwnedTc → Effect τ PortError Unit
  detachExact : OwnedTc → Effect τ PortError Unit

structure MapPublisher (τ : Type) where
  initializeDependent : LoadedBpfObject → Nat → Nat → Effect τ PortError Unit
  publishIfaceConfig : LoadedBpfObject → Nat → Nat → Effect τ PortError Unit
  rollbackInitializedExact : LoadedBpfObject → Nat → Nat → Effect τ PortError Unit

structure EphemeralOwnershipStore (τ : Type) where
  save : OwnershipRecord → Effect τ PortError Unit
  removeExact : OwnershipRecord → Effect τ PortError Unit

/-- The ports of an `AttachmentTransaction`. -/
structure AttachmentPorts (τ : Type) where
  preflight : PlatformInspector τ
  limits : ResourceLimits τ
  loader : BpfObjectLoader τ
  xdp : SafeXdpPort τ
  tc : SafeTcPort τ
  maps : MapPublisher τ
  ownership : EphemeralOwnershipStore τ

/-! ### Sessions and errors -/

def attachPreflightFailed : String := "ATTACH_PREFLIGHT_FAILED"
def preflightBlocked : String := "PREFLIGHT_BLOCKED"
def bpfLoadFailed : String := "BPF_LOAD_FAILED"
def xdpAttachFailed : String := "XDP_ATTACH_FAILED"
def xdpVerifyFailed : String := "XDP_VERIFY_FAILED"
def tcAttachFailed : String := "TC_ATTACH_FAILED"
def tcVerifyFailed : String := "TC_VERIFY_FAILED"
def mapInitializeFailed : String := "MAP_INITIALIZE_FAILED"
def ownershipJournalFailed : String := "OWNERSHIP_JOURNAL_FAILED"
def ifaceConfigPublishFailed : String := "IFACE_CONFIG_PUBLISH_FAILED"
def ownedCleanupIncomplete : String := "OWNED_CLEANUP_INCOMPLETE"
def pfLiveInterface : String := "PF_LIVE_INTERFACE"
def pfMemlockTooLow : String := "PF_MEMLOCK_TOO_LOW"
def pfOwnershipMismatch : String := "PF_OWNERSHIP_MISMATCH"

inductive InterfaceState where
  | detached | attaching | observing | policing | error
  deriving DecidableEq, Repr

structure AttachmentSession where
  state : InterfaceState
  generation : Nat
  ownership : OwnershipRecord
  loaded : LoadedBpfObject
  deriving DecidableEq, Repr

structure AttachmentError where
  code : String
  evidence : String
  cleanupEvidence : List String
  deriving DecidableEq, Repr

def AttachmentError.withoutCleanup (code evidence : String) : AttachmentError := ⟨code, evidence, []⟩

def validateIsolatedTarget (requested : InterfaceName) (report : PreflightReport) : Except AttachmentError Unit :=
  let interface := report.interface
  if interface.requested.name ≠ requested || interface.requested.ifindex = 0 || interface.kind ≠ .veth || !interface.isolated ||
      interface.liveShared then
    .error (.withoutCleanup pfLiveInterface "attachment is restricted to the exact isolated veth target")
  else if report.decision = .blocked then
    let code := ((report.findings.find? fun finding => finding.severity = .blocker).map (·.code)).getD preflightBlocked
    .error (.withoutCleanup code "preflight blocked isolated attachment")
  else .ok ()

/-! ### Cleaning up -/

/-- One call of `collect_cleanup`. -/
inductive Cleanup where
  | journal (record : OwnershipRecord)
  | maps (loaded : LoadedBpfObject) (ifindex generation : Nat)
  | tc (owned : OwnedTc)
  | xdp (owned : OwnedXdp)
  | object (loaded : LoadedBpfObject)
  deriving DecidableEq, Repr

namespace Cleanup

def label : Cleanup → String
  | .journal _ => "ephemeral ownership journal"
  | .maps _ _ _ => "initialized maps"
  | .tc _ => "TC egress filter"
  | .xdp _ => "XDP link"
  | .object _ => "loaded eBPF object"

def perform {τ : Type} (p : AttachmentPorts τ) : Cleanup → Effect τ PortError Unit
  | .journal record => p.ownership.removeExact record
  | .maps loaded ifindex generation => p.maps.rollbackInitializedExact loaded ifindex generation
  | .tc owned => p.tc.detachExact owned
  | .xdp owned => p.xdp.detachExact owned
  | .object loaded => p.loader.unloadExact loaded

/-- What `collect_cleanup` writes of the failed ones. -/
def evidence (failures : List (Cleanup × PortError)) : List String :=
  failures.map fun failure => failure.1.label ++ ": " ++ failure.2.text

end Cleanup

structure RollbackState where
  loaded : Option LoadedBpfObject
  xdp : Option OwnedXdp
  tc : Option OwnedTc
  mapsInitialized : Bool
  journal : Option OwnershipRecord

namespace RollbackState

def mapsCleanup (state : RollbackState) (ifindex generation : Nat) : List Cleanup :=
  if state.mapsInitialized then state.loaded.toList.map (.maps · ifindex generation) else []

/-- The order of `rollback`. -/
def cleanups (state : RollbackState) (ifindex generation : Nat) : List Cleanup :=
  state.journal.toList.map .journal ++ state.mapsCleanup ifindex generation ++ state.tc.toList.map .tc ++
    state.xdp.toList.map .xdp ++ state.loaded.toList.map .object

end RollbackState

namespace AcceptancePassThroughPermit

end AcceptancePassThroughPermit

namespace AttachmentPorts
variable {τ α : Type} (p : AttachmentPorts τ)

/-- A step of the transaction whose failure is rolled back. -/
def orRollback (steps : List Cleanup) (code : PortError → String) (x : Effect τ PortError α) : Effect τ AttachmentError α :=
  Custody.backedOut (Cleanup.perform p) steps x fun e failures => ⟨code e, e.text, Cleanup.evidence failures⟩

/-- `self.generation.saturating_add(1).max(1)`. -/
def nextGeneration (previous : Nat) : Nat := max (min (previous + 1) (u64Bound - 1)) 1

def record (generation ifindex : Nat) (xdp : OwnedXdp) (tc : OwnedTc) (loaded : LoadedBpfObject) (createdAtUnixSeconds : Nat) :
    OwnershipRecord :=
  ⟨ownershipSchemaVersion, abiVersion, generation, ifindex, some xdp, [tc], loaded.mapPins, createdAtUnixSeconds⟩

/-- The steps of both variants before anything is acquired. -/
def prepare (interface : InterfaceName) : Effect τ AttachmentError PreflightReport := do
  let report ← (p.preflight.inspect interface).orElseError fun e => .withoutCleanup attachPreflightFailed e.text
  Effect.ask fun _ => validateIsolatedTarget interface report
  return report

/-- The memory limit, and the object. -/
def load (runId : RunId) : Effect τ AttachmentError LoadedBpfObject := do
  p.limits.raiseMemlockToInfinity.orElseError fun e => .withoutCleanup pfMemlockTooLow e.text
  let pins ← Effect.ask fun _ => (TestPinRoot.new runId).mapError fun e => .withoutCleanup bpfLoadFailed e.text
  (p.loader.loadAndValidateAbi pins).orElseError fun e => .withoutCleanup bpfLoadFailed e.text

/-- Attach the XDP program and look at it. -/
def attachXdp (steps : RollbackState → List Cleanup) (state : RollbackState) (ifindex : Nat) (loaded : LoadedBpfObject) :
    Effect τ AttachmentError OwnedXdp := do
  let xdp ← p.orRollback (steps state) (fun e => e.stableCode.getD xdpAttachFailed) (p.xdp.attachNoReplace ifindex .generic loaded.xdp)
  p.orRollback (steps { state with xdp := some xdp }) (fun e => e.stableCode.getD xdpVerifyFailed) (p.xdp.verifyExact xdp)
  return xdp

/-- Attach the filter and look at it. -/
def attachTc (steps : RollbackState → List Cleanup) (state : RollbackState) (ifindex : Nat) (loaded : LoadedBpfObject) :
    Effect τ AttachmentError OwnedTc := do
  let tc ← p.orRollback (steps state) (fun e => e.stableCode.getD tcAttachFailed) (p.tc.attachExplicit ifindex .egress loaded.tcEgress)
  p.orRollback (steps { state with tc := some tc }) (fun e => e.stableCode.getD tcVerifyFailed) (p.tc.verifyExact tc)
  return tc

/-- `execute`, after the generation `previous`. -/
def execute (previous : Nat) (interface : InterfaceName) (runId : RunId) (createdAtUnixSeconds : Nat) :
    Effect τ AttachmentError AttachmentSession := do
  let report ← p.prepare interface
  let loaded ← p.load runId
  let ifindex := report.interface.requested.ifindex
  let bare : RollbackState := ⟨some loaded, none, none, false, none⟩
  let xdp ← p.attachXdp (·.cleanups ifindex 0) bare ifindex loaded
  let tc ← p.attachTc (·.cleanups ifindex 0) { bare with xdp := some xdp } ifindex loaded
  let generation := nextGeneration previous
  let hooked : RollbackState := { bare with xdp := some xdp, tc := some tc }
  p.orRollback (hooked.cleanups ifindex generation) (fun _ => mapInitializeFailed) (p.maps.initializeDependent loaded ifindex generation)
  let initialized : RollbackState := { hooked with mapsInitialized := true }
  let record := record generation ifindex xdp tc loaded createdAtUnixSeconds
  p.orRollback (initialized.cleanups ifindex generation) (fun _ => ownershipJournalFailed) (p.ownership.save record)
  p.orRollback ({ initialized with journal := some record }.cleanups ifindex generation) (fun _ => ifaceConfigPublishFailed)
    (p.maps.publishIfaceConfig loaded ifindex generation)
  return ⟨.observing, generation, record, loaded⟩

end AttachmentPorts

/-! ### Detaching -/

namespace AttachmentSession

/-- The order of `detach_exact`. -/
def cleanups (session : AttachmentSession) : List Cleanup :=
  [.journal session.ownership, .maps session.loaded session.ownership.ifindex session.generation] ++
    session.ownership.tc.reverse.map .tc ++ session.ownership.xdp.toList.map .xdp ++ [.object session.loaded]

end AttachmentSession

namespace AttachmentPorts
variable {τ : Type} (p : AttachmentPorts τ)

/-- All the steps, and `cleanup_result`. -/
def cleanUp (steps : List Cleanup) : Effect τ AttachmentError Unit := fun w =>
  let (failures, w') := sweep (Cleanup.perform p) steps w
  (if (Cleanup.evidence failures).isEmpty then .ok ()
    else .error ⟨ownedCleanupIncomplete, "one or more exact owned cleanup steps were retained", Cleanup.evidence failures⟩, w')

def detachExact (session : AttachmentSession) : Effect τ AttachmentError Unit := p.cleanUp session.cleanups

end AttachmentPorts

end NetworkLoop.Attach
