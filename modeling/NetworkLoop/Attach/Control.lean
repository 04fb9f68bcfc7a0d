import NetworkLoop.Observation.Deadlines
import NetworkLoop.Evidence.Output
import NetworkLoop.Attach.AllOrNothing

/-! The control of the one attachment that the daemon has (`TransactionIsolatedControl` in `daemon.rs`).

The control drives a transaction, samples what is attached and hands the jobs of its incidents to the
output. A call reads the clocks and asks the observer; what they reply is its input here, as it is for
the sampling service. The journal is read through a parameter, `load`: it belongs to the world that the
transaction works on. -/
namespace NetworkLoop.Attach
open Library Observation
open Control (InterfaceName)

/-! ### The transaction as a driver -/

/-- `AttachmentTransaction`: its generation, and the world that its ports work on. -/
structure AttachmentTransaction (τ : Type) where
  generation : Nat
  world : τ

structure IsolatedControlError where
  code : String
  blocked : Bool
  deriving DecidableEq, Repr

namespace IsolatedControlError

def blocking (code : String) : IsolatedControlError := ⟨code, true⟩
def internal (code : String) : IsolatedControlError := ⟨code, false⟩

end IsolatedControlError

/-- `attachment_control_error`: only the code gets through. -/
def attachmentControlError (error : AttachmentError) : IsolatedControlError :=
  if "PF_".toList.isPrefixOf error.code.toList then .blocking error.code else .internal error.code

def observationControlError (error : ObservationError) : IsolatedControlError := .internal error.code

namespace AttachmentPorts
variable {τ : Type} (p : AttachmentPorts τ)

/-- A failed attachment keeps the generation. -/
def driveAttach (interface : InterfaceName) (runId : RunId) (createdAtUnixSeconds : Nat) (t : AttachmentTransaction τ) :
    Except AttachmentError AttachmentSession × AttachmentTransaction τ :=
  match p.execute t.generation interface runId createdAtUnixSeconds t.world with
  | (.ok session, world) => (.ok session, ⟨session.generation, world⟩)
  | (.error error, world) => (.error error, ⟨t.generation, world⟩)

def driveDetach (session : AttachmentSession) (t : AttachmentTransaction τ) : Except AttachmentError Unit × AttachmentTransaction τ :=
  ((p.detachExact session t.world).1, { t with world := (p.detachExact session t.world).2 })

end AttachmentPorts

/-! ### What a call is given -/

/-- The wall clock in seconds, then as the sampling starts; event ids are drawn from the source later. -/
structure AttachInput where
  createdAtUnixSeconds : Option Nat
  startedAtUnixMs : Option Nat
  startedAtMonotonicNs : Nat
  idSource : Nat → Except IncidentRecorderError EventId

structure DetachInput where
  pausedAtMonotonicNs : Nat
  baselineUnixMs : Option Nat
  detectionUnixMs : Option Nat
  endedAtUnixMs : Option Nat

/-! ### The state -/

structure ActiveIsolatedSession where
  runId : RunId
  interface : InterfaceName
  attachment : AttachmentSession
  samplingPaused : Bool
  deriving DecidableEq

structure TransactionIsolatedControl (τ : Type) where
  transaction : AttachmentTransaction τ
  sampling : SamplingService
  /-- Whether there is an output. -/
  incidentOutput : Bool
  /-- What was submitted to it, the newest first. -/
  submitted : List IncidentWriteJob
  active : Option ActiveIsolatedSession

inductive IsolatedSamplingOutcome where
  | idle | sampled | rejected
  deriving DecidableEq, Repr

/-- What `status` fills an `InterfaceStatus` from. -/
structure IsolatedStatus where
  snapshot : ObservationSnapshot
  rateWindows : Fin 3 → StatusRateWindow
  outputHealth : Evidence.OutputHealth
  activeIncident : Option ActiveIncidentMetadata

/-- The part of the record that the sampling service reads. -/
def OwnershipRecord.observed (record : OwnershipRecord) : Observation.OwnershipRecord := ⟨record.ifindex, record.generation⟩

namespace TransactionIsolatedControl
variable {τ : Type} (p : AttachmentPorts τ) (load : RunId → τ → Except PortError OwnershipRecord)

def new (world : τ) (incidentOutput : Bool) : TransactionIsolatedControl τ := ⟨⟨0, world⟩, .new, incidentOutput, [], none⟩

/-! ### The calls -/

/-- The journal of the active session, if it is the one that the session was attached with. -/
def canonicalOwnership (c : TransactionIsolatedControl τ) (active : ActiveIsolatedSession) : Except IsolatedControlError OwnershipRecord :=
  match load active.runId c.transaction.world with
  | .error _ => .error (.internal "OBS_OWNERSHIP_MISMATCH")
  | .ok committed =>
    if committed = active.attachment.ownership then .ok committed else .error (.internal "OBS_OWNERSHIP_MISMATCH")

/-- Jobs without an output are dropped; what the output makes of a job is not asked. -/
def flushIncidentJobs (c : TransactionIsolatedControl τ) : TransactionIsolatedControl τ :=
  { c with
    sampling := c.sampling.takeIncidentJobs.2
    submitted := if c.incidentOutput then c.sampling.takeIncidentJobs.1.reverse ++ c.submitted else c.submitted }

/-- The session becomes active once it is sampled. -/
def activate (interface : InterfaceName) (runId : RunId) (i : AttachInput) (session : AttachmentSession)
    (c : TransactionIsolatedControl τ) : Except IsolatedControlError Unit × TransactionIsolatedControl τ :=
  match c.sampling.start session.ownership.observed i.startedAtUnixMs i.startedAtMonotonicNs with
  | (.error error, sampling) => (.error (observationControlError error), { c with sampling := sampling })
  | (.ok _, sampling) =>
    match sampling.startIncidentGeneration interface.value session.ownership.observed i.idSource with
    | (.error error, sampling) => (.error (observationControlError error), { c with sampling := sampling })
    | (.ok _, sampling) => (.ok (), { c with sampling := sampling, active := some ⟨runId, interface, session, false⟩ })

def attach (interface : InterfaceName) (runId : RunId) (i : AttachInput) (c : TransactionIsolatedControl τ) :
    Except IsolatedControlError Unit × TransactionIsolatedControl τ :=
  if c.active.isSome then (.error (.blocking pfOwnershipMismatch), c)
  else
    match i.createdAtUnixSeconds with
    | none => (.error (.internal "SYSTEM_CLOCK_INVALID"), c)
    | some createdAtUnixSeconds =>
      match p.driveAttach interface runId createdAtUnixSeconds c.transaction with
      | (.error error, transaction) => (.error (attachmentControlError error), { c with transaction := transaction })
      | (.ok session, transaction) => activate interface runId i session { c with transaction := transaction }

/-- Sampling is paused, and what it had to say of that is passed on. -/
def pause (active : ActiveIsolatedSession) (i : DetachInput) (c : TransactionIsolatedControl τ) : TransactionIsolatedControl τ :=
  { ({ c with sampling := c.sampling.pause i.pausedAtMonotonicNs i.baselineUnixMs i.detectionUnixMs }).flushIncidentJobs with
    active := some { active with samplingPaused := true } }

/-- The session is gone, and its last incident with it. -/
def finish (i : DetachInput) (c : TransactionIsolatedControl τ) : TransactionIsolatedControl τ :=
  let ended := ({ c with sampling := c.sampling.generationEnded i.endedAtUnixMs }).flushIncidentJobs
  { ended with sampling := ended.sampling.clear, active := none }

/-- The active session, if it is the one that is meant and its journal is still its own: the checks of
`detach`, which all fail in the same way. -/
def detachable (runId : RunId) (c : TransactionIsolatedControl τ) : Option ActiveIsolatedSession :=
  match c.active with
  | none => none
  | some active =>
    if active.runId ≠ runId then none
    else
      match load runId c.transaction.world with
      | .error _ => none
      | .ok committed => if committed ≠ active.attachment.ownership then none else some active

def detach (runId : RunId) (i : DetachInput) (c : TransactionIsolatedControl τ) :
    Except IsolatedControlError Unit × TransactionIsolatedControl τ :=
  match c.detachable load runId with
  | none => (.error (.blocking pfOwnershipMismatch), c)
  | some active =>
    match p.driveDetach active.attachment c.transaction with
    | (.error error, transaction) => (.error (attachmentControlError error), { c.pause active i with transaction := transaction })
    | (.ok _, transaction) => (.ok (), ({ c.pause active i with transaction := transaction }).finish i)

def sampleTick (i : TickInput) (c : TransactionIsolatedControl τ) :
    Except IsolatedControlError IsolatedSamplingOutcome × TransactionIsolatedControl τ :=
  match c.active with
  | none => (.ok .idle, c)
  | some active =>
    if active.samplingPaused then (.ok .rejected, c)
    else
      match c.canonicalOwnership load active with
      | .error error => (.error error, c)
      | .ok ownership =>
        let outcome : IsolatedSamplingOutcome :=
          match (c.sampling.sampleTickInner ownership.observed i).2.outcome with
          | .sampled => .sampled
          | .rejected => .rejected
        (.ok outcome, ({ c with sampling := c.sampling.sampleTick ownership.observed i }).flushIncidentJobs)

def observe (interface : InterfaceName) (i : RequestInput) (c : TransactionIsolatedControl τ) :
    Except IsolatedControlError ObservationSnapshot × TransactionIsolatedControl τ :=
  match c.active with
  | none => (.error (.internal "OBS_SESSION_NOT_FOUND"), c)
  | some active =>
    match c.canonicalOwnership load active with
    | .error error => (.error error, c)
    | .ok ownership =>
      let observed := c.sampling.observe interface.value active.interface.value ownership.observed i
      (observed.1.mapError observationControlError, { c with sampling := observed.2 })

/-- The handle tells the health of its output. -/
def status (interface : Option InterfaceName) (i : RequestInput) (health : Evidence.OutputHealth) (c : TransactionIsolatedControl τ) :
    Except IsolatedControlError (List IsolatedStatus) × TransactionIsolatedControl τ :=
  match c.active with
  | none => (if interface.isNone then .ok [] else .error (observationControlError sessionError), c)
  | some active =>
    if interface.any (· ≠ active.interface) then (.error (.internal "OBS_SESSION_NOT_FOUND"), c)
    else
      match c.canonicalOwnership load active with
      | .error error => (.error error, c)
      | .ok ownership =>
        let current := c.sampling.status (interface.map (·.value)) active.interface.value ownership.observed i
        let c := { c with sampling := current.2 }
        (match current.1 with
          | .error error => .error (observationControlError error)
          | .ok (snapshot, rateWindows) => .ok [⟨snapshot, rateWindows,
              if c.incidentOutput then health else .unavailable "OUTPUT_NOT_CONFIGURED", c.sampling.activeIncident⟩], c)

def shutdown (i : DetachInput) (c : TransactionIsolatedControl τ) : Except IsolatedControlError Unit × TransactionIsolatedControl τ :=
  match c.active with
  | none => (.ok (), c)
  | some active => detach p load active.runId i c

end TransactionIsolatedControl

/-! ### Runs -/

inductive ControlCall where
  | attach (interface : InterfaceName) (runId : RunId) (i : AttachInput)
  | detach (runId : RunId) (i : DetachInput)
  | sampleTick (i : TickInput)
  | observe (interface : InterfaceName) (i : RequestInput)
  | status (interface : Option InterfaceName) (i : RequestInput) (health : Evidence.OutputHealth)
  | shutdown (i : DetachInput)

inductive ControlReply where
  | done
  | sampled (outcome : IsolatedSamplingOutcome)
  | observed (snapshot : ObservationSnapshot)
  | statuses (interfaces : List IsolatedStatus)
  | failed (error : IsolatedControlError)

namespace ControlReply

def of {α : Type} (reply : α → ControlReply) : Except IsolatedControlError α → ControlReply
  | .ok a => reply a
  | .error error => .failed error

end ControlReply

namespace ControlCall
variable {τ : Type} (p : AttachmentPorts τ) (load : RunId → τ → Except PortError OwnershipRecord)

def run (c : TransactionIsolatedControl τ) : ControlCall → ControlReply × TransactionIsolatedControl τ
  | .attach interface runId i => (c.attach p interface runId i).map (.of fun _ => .done) id
  | .detach runId i => (c.detach p load runId i).map (.of fun _ => .done) id
  | .sampleTick i => (c.sampleTick load i).map (.of .sampled) id
  | .observe interface i => (c.observe load interface i).map (.of .observed) id
  | .status interface i health => (c.status load interface i health).map (.of .statuses) id
  | .shutdown i => (c.shutdown p load i).map (.of fun _ => .done) id

/-- The control after these calls. -/
def runAll (c : TransactionIsolatedControl τ) (calls : List ControlCall) : TransactionIsolatedControl τ :=
  calls.foldl (fun c call => (call.run p load c).2) c

end ControlCall

end NetworkLoop.Attach
