import NetworkLoop.Observation.Derive
import NetworkLoop.Observation.Fingerprints

/-! Incidents: the snapshot that documents one (`observation.rs` of the domain crate),
its revisions (`evidence.rs`) and the recorder that turns the transitions of the
detection engine into them (`incident.rs`). -/
namespace NetworkLoop.Observation
open Library Detection

/-! ### The snapshot -/

inductive ObservationHealth where
  | healthy | degraded
  deriving DecidableEq, Repr

def observationSchemaVersion : Nat := 5

structure ObservationSnapshot where
  schemaVersion : Nat
  interface : String
  ifindex : Nat
  generation : Nat
  capturedAtUnixMs : Nat
  vlanVisibility : VlanVisibility
  health : ObservationHealth
  hooks : Fin 2 → HookObservation
  sampling : SamplingStatus
  rateWindows : Fin 3 → DetailedRateWindow
  baseline : BaselineReport
  fingerprints : FingerprintReport
  detection : DetectionReport
  deriving DecidableEq

/-- `ObservationSnapshot::new`. -/
def ObservationSnapshot.new (interface : String) (ifindex generation capturedAtUnixMs : Nat)
    (vlanVisibility : VlanVisibility) (hooks : Fin 2 → HookObservation) (sampling : SamplingStatus)
    (rateWindows : Fin 3 → DetailedRateWindow) : Except DomainError ObservationSnapshot :=
  if ifindex = 0 then .error (.invalidObservation "ifindex must be non-zero")
  else if generation = 0 then .error (.invalidObservation "interface generation must be non-zero")
  else if ∀ i, (hooks i).role = hookOrder i then
    if ∀ i c, ((hooks i).classes c).trafficClass = classOrder c then
      validateDetailedRateWindows rateWindows >>= fun _ =>
        .ok {
          schemaVersion := observationSchemaVersion
          interface := interface
          ifindex := ifindex
          generation := generation
          capturedAtUnixMs := capturedAtUnixMs
          vlanVisibility := vlanVisibility
          health := .healthy
          hooks := hooks
          sampling := sampling
          rateWindows := rateWindows
          baseline := .learning capturedAtUnixMs
          fingerprints := .empty
          detection := .warming capturedAtUnixMs }
    else .error (.invalidObservation "class observations do not match the fixed class order")
  else .error (.invalidObservation "hook observations must be ordered XDP ingress then TC egress")

/-! ### Revisions -/

/-- `EventId`: sixteen random bytes. -/
abbrev EventId := BitVec 128

def evidenceSchemaVersion : Nat := 1
def evidenceMaxRevisionsPerEvent : Nat := 16

inductive AlertSeverity where
  | information | notice | warning
  deriving DecidableEq, Repr

inductive AlertCode where
  | stormConfirmed | externalLoopSuspected | externalLoopHighConfidence | incidentCooldown | incidentClosed
  | generationEnded | outputDegraded
  deriving DecidableEq, Repr

namespace AlertCode

def forState : DetectionState → Option AlertCode
  | .ingressStormConfirmed | .egressStormConfirmed | .bidirectionalStormConfirmed => some .stormConfirmed
  | .externalLoopSuspected => some .externalLoopSuspected
  | .externalLoopHighConfidence => some .externalLoopHighConfidence
  | .cooldown => some .incidentCooldown
  | .normal => some .incidentClosed
  | .warmingUp | .unavailable => none

def severity : AlertCode → AlertSeverity
  | .stormConfirmed | .externalLoopSuspected => .notice
  | .externalLoopHighConfidence | .outputDegraded => .warning
  | .incidentCooldown | .incidentClosed | .generationEnded => .information

end AlertCode

inductive EvidenceStatus where
  | stored | unavailable
  deriving DecidableEq, Repr

structure IncidentRevisionV1 where
  schemaVersion : Nat
  eventId : EventId
  revision : Nat
  interface : String
  ifindex : Nat
  interfaceGeneration : Nat
  transitionSequence : Nat
  previousState : DetectionState
  currentState : DetectionState
  transitionReason : DetectionTransitionReason
  openedAtUnixMs : Nat
  occurredAtUnixMs : Nat
  closedAtUnixMs : Option Nat
  alertCode : AlertCode
  severity : AlertSeverity
  evidenceStatus : EvidenceStatus
  xdpIngress : ObservationCounters
  tcEgress : ObservationCounters
  rateWindows : Fin 3 → StatusRateWindow
  baseline : BaselineSummary
  fingerprintWindow : FingerprintWindowReport
  detection : DetectionReport
  observationHealth : ObservationHealth
  vlanVisibility : VlanVisibility
  lastErrorCode : Option String
  deriving DecidableEq

/-- `IncidentRevisionV1::validate`; its error carries no data. -/
def IncidentRevisionV1.validate (r : IncidentRevisionV1) : Bool :=
  !(r.schemaVersion ≠ evidenceSchemaVersion || r.revision = 0 || r.revision > evidenceMaxRevisionsPerEvent ||
      r.ifindex = 0 || r.interfaceGeneration = 0 || r.transitionSequence = 0 ||
      r.openedAtUnixMs > r.occurredAtUnixMs || r.closedAtUnixMs.any (· < r.openedAtUnixMs) ||
      r.severity ≠ r.alertCode.severity) &&
    r.detection.validate.isOk

/-! ### The recorder -/

@[ext] structure IncidentIdentity where
  interface : String
  ifindex : Nat
  generation : Nat
  ifindex_ne : ifindex ≠ 0
  generation_ne : generation ≠ 0

instance : DecidableEq IncidentIdentity := fun _ _ => decidable_of_iff _ IncidentIdentity.ext_iff.symm

inductive IncidentRecorderError where
  | invalidIdentity | idUnavailable | transitionGap | revisionLimit | clockRegression | invalidSnapshot
  deriving DecidableEq, Repr

/-- `IncidentIdentity::new`. -/
def IncidentIdentity.new (interface : String) (ifindex generation : Nat) :
    Except IncidentRecorderError IncidentIdentity :=
  if h : ifindex ≠ 0 ∧ generation ≠ 0 then .ok ⟨interface, ifindex, generation, h.1, h.2⟩
  else .error .invalidIdentity

/-- `IncidentWriteJob` holds a revision and nothing else. -/
abbrev IncidentWriteJob := IncidentRevisionV1

structure ActiveIncident where
  eventId : EventId
  revision : Nat
  openedAtUnixMs : Nat
  lastState : DetectionState
  deriving DecidableEq

/-- The source of event IDs is the sequence of its replies, and how many were drawn. -/
structure IncidentRecorder where
  identity : IncidentIdentity
  idSource : Nat → Except IncidentRecorderError EventId
  drawn : Nat
  active : Option ActiveIncident
  lastTransitionSequence : Nat
  suppressedDuplicateCount : Nat

/-- What a status tells of an open incident. -/
structure ActiveIncidentMetadata where
  eventId : EventId
  revision : Nat
  deriving DecidableEq, Repr

/-- `u64::saturating_add(1)`. -/
def saturatingSucc (n : Nat) : Nat := min (n + 1) (u64Bound - 1)

namespace IncidentRecorder

def new (identity : IncidentIdentity) (idSource : Nat → Except IncidentRecorderError EventId) : IncidentRecorder where
  identity := identity
  idSource := idSource
  drawn := 0
  active := none
  lastTransitionSequence := 0
  suppressedDuplicateCount := 0

def activeMetadata (r : IncidentRecorder) : Option ActiveIncidentMetadata := r.active.map fun active => ⟨active.eventId, active.revision⟩

/-- A transition that was seen before. -/
def suppress (r : IncidentRecorder) : IncidentRecorder :=
  {r with suppressedDuplicateCount := saturatingSucc r.suppressedDuplicateCount}

def acknowledgeWithoutOutput (r : IncidentRecorder) (t : DetectionTransition) :
    Except IncidentRecorderError Unit × IncidentRecorder :=
  if t.sequence ≤ r.lastTransitionSequence then (.ok (), r.suppress)
  else if t.sequence ≠ saturatingSucc r.lastTransitionSequence then (.error .transitionGap, r)
  else (.ok (), {r with
    active := r.active.map fun active => {active with lastState := t.currentState}
    lastTransitionSequence := t.sequence})

/-- `validate_snapshot`. -/
def snapshotMatches (r : IncidentRecorder) (s : ObservationSnapshot) : Bool :=
  s.interface = r.identity.interface && s.ifindex = r.identity.ifindex && s.generation = r.identity.generation

/-- The revision that `job` assembles, before its own check of it. -/
def revisionOf (r : IncidentRecorder) (active : ActiveIncident) (t : DetectionTransition) (code : AlertCode)
    (closedAtUnixMs : Option Nat) (s : ObservationSnapshot) : IncidentRevisionV1 where
  schemaVersion := evidenceSchemaVersion
  eventId := active.eventId
  revision := active.revision
  interface := r.identity.interface
  ifindex := r.identity.ifindex
  interfaceGeneration := r.identity.generation
  transitionSequence := t.sequence
  previousState := t.previousState
  currentState := t.currentState
  transitionReason := t.reason
  openedAtUnixMs := active.openedAtUnixMs
  occurredAtUnixMs := t.occurredAtUnixMs
  closedAtUnixMs := closedAtUnixMs
  alertCode := code
  severity := code.severity
  evidenceStatus := .stored
  xdpIngress := (s.hooks 0).total
  tcEgress := (s.hooks 1).total
  rateWindows := fun i => (s.rateWindows i).toStatus
  baseline := .fromReport s.baseline
  fingerprintWindow := s.detection.signals.fingerprintWindow
  detection := s.detection
  observationHealth := s.health
  vlanVisibility := s.vlanVisibility
  lastErrorCode := s.detection.lastErrorCode.or (s.baseline.lastErrorCode.or s.sampling.lastErrorCode)

def job (r : IncidentRecorder) (active : ActiveIncident) (t : DetectionTransition) (code : AlertCode)
    (closedAtUnixMs : Option Nat) (s : ObservationSnapshot) : Except IncidentRecorderError IncidentWriteJob :=
  if (r.revisionOf active t code closedAtUnixMs s).validate then .ok (r.revisionOf active t code closedAtUnixMs s)
  else .error .invalidSnapshot

/-- The code of a further revision of an open incident. -/
def followUpCode : DetectionState → Option AlertCode
  | .unavailable => some .outputDegraded
  | .cooldown => some .incidentCooldown
  | .normal => some .incidentClosed
  | .warmingUp => none
  | state => AlertCode.forState state

/-- An anomalous transition without an active incident opens one. An ID that was drawn is
gone even if the job is refused. -/
def openIncident (r : IncidentRecorder) (t : DetectionTransition) (s : ObservationSnapshot) :
    Except IncidentRecorderError (Option IncidentWriteJob) × IncidentRecorder :=
  let drawn := {r with drawn := r.drawn + 1}
  match r.idSource r.drawn with
  | .error error => (.error error, drawn)
  | .ok eventId =>
    let active : ActiveIncident := ⟨eventId, 1, t.occurredAtUnixMs, t.currentState⟩
    match r.job active t ((AlertCode.forState t.currentState).getD .stormConfirmed) none s with
    | .error error => (.error error, drawn)
    | .ok job => (.ok (some job), {drawn with active := some active, lastTransitionSequence := t.sequence})

/-- A transition of an open incident. -/
def continueIncident (r : IncidentRecorder) (active : ActiveIncident) (t : DetectionTransition)
    (s : ObservationSnapshot) : Except IncidentRecorderError (Option IncidentWriteJob) × IncidentRecorder :=
  match followUpCode t.currentState with
  | none => (.ok none, {r with
      active := some {active with lastState := t.currentState}
      lastTransitionSequence := t.sequence})
  | some code =>
    if active.revision ≥ evidenceMaxRevisionsPerEvent then (.error .revisionLimit, r)
    else
      let next := {active with revision := active.revision + 1, lastState := t.currentState}
      let closedAt := if code = .incidentClosed then some t.occurredAtUnixMs else none
      match r.job next t code closedAt s with
      | .error error => (.error error, r)
      | .ok job => (.ok (some job), {r with
          active := if closedAt.isSome then none else some next
          lastTransitionSequence := t.sequence})

def record (r : IncidentRecorder) (t : DetectionTransition) (s : ObservationSnapshot) :
    Except IncidentRecorderError (Option IncidentWriteJob) × IncidentRecorder :=
  if !r.snapshotMatches s then (.error .invalidSnapshot, r)
  else if t.sequence ≤ r.lastTransitionSequence then (.ok none, r.suppress)
  else if t.sequence ≠ saturatingSucc r.lastTransitionSequence then (.error .transitionGap, r)
  else
    match r.active with
    | some active => r.continueIncident active t s
    | none =>
      if t.currentState.isAnomalous then r.openIncident t s
      else (.ok none, {r with lastTransitionSequence := t.sequence})

def generationEnded (r : IncidentRecorder) (occurredAtUnixMs : Nat) (s : ObservationSnapshot) :
    Except IncidentRecorderError (Option IncidentWriteJob) × IncidentRecorder :=
  if !r.snapshotMatches s then (.error .invalidSnapshot, r)
  else
    match r.active with
    | none => (.ok none, r)
    | some active =>
      if active.revision ≥ evidenceMaxRevisionsPerEvent then (.error .revisionLimit, r)
      else if occurredAtUnixMs < active.openedAtUnixMs then (.error .clockRegression, r)
      else
        match r.job {active with revision := active.revision + 1}
            ⟨r.lastTransitionSequence, active.lastState, active.lastState, .samplerPaused, occurredAtUnixMs⟩
            .generationEnded (some occurredAtUnixMs) s with
        | .error error => (.error error, r)
        | .ok job => (.ok (some job), {r with active := none})

end IncidentRecorder

end NetworkLoop.Observation
