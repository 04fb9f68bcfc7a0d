import NetworkLoop.Observation.Incident

/-! The sampling service (`observation.rs` of the agent crate).

A call reads the clocks and asks the reader; what it is given is its input here
(`TickInput`, `RequestInput`). The four components of a session are set together by
`start` and dropped together by `clear`, so they are one option. `sample_tick_inner`
leaves by a dozen exits, and which one it took is part of its result (`TickExit`): the
outcome that the source returns is a function of it. -/
namespace NetworkLoop.Observation
open Library Detection

/-! ### What a call is given -/

inductive ObservationReadPurpose where
  | request | backgroundSample | backgroundAnalysis
  deriving DecidableEq, Repr

inductive RawFingerprints where
  | notRequested
  | available (evidence : List FingerprintEvidence)
  | unavailable (code : String)
  deriving DecidableEq, Repr

structure RawObservation where
  ifindex : Nat
  generation : Nat
  vlanVisibility : VlanVisibility
  hooks : Fin 2 → HookObservation
  fingerprints : RawFingerprints

/-- A failure of the reader; only its stable code matters. -/
structure PortError where
  stableCode : Option String
  deriving DecidableEq, Repr

/-- What the reader replies at one moment. A background sample does not scan the
fingerprints. -/
structure Reader where
  reply : ObservationReadPurpose → Except PortError RawObservation
  plain : ∀ raw, reply .backgroundSample = .ok raw → raw.fingerprints = .notRequested

/-- The part of an ownership record that the service reads. -/
structure OwnershipRecord where
  ifindex : Nat
  generation : Nat
  deriving DecidableEq, Repr

/-- A tick: the monotonic clock, the reader, and the wall clock twice after the read
(`wall_time_ms`, which can fail). -/
structure TickInput where
  nowNs : Nat
  reader : Reader
  evaluatedAtUnixMs : Option Nat
  capturedAtUnixMs : Option Nat

/-- An `observe` or `status` request: every path of it reads the wall clock once. -/
structure RequestInput where
  nowNs : Nat
  reply : Except PortError RawObservation
  wallMs : Option Nat

/-- `is_identity_code`. -/
def isIdentityCode (code : String) : Bool :=
  code == "OBS_OWNERSHIP_MISMATCH" || code == "OBS_MAP_IDENTITY_MISMATCH"

def rateErrorCode : RateHistoryError → String
  | .identityMismatch => "OBS_OWNERSHIP_MISMATCH"
  | .clockRegression => "OBS_RATE_CLOCK_REGRESSION"
  | .counterRegression => "OBS_RATE_COUNTER_REGRESSION"
  | .calculationFailed => "OBS_RATE_CALCULATION_FAILED"

def baselineCodeForRateError : RateHistoryError → String
  | .identityMismatch => "BASELINE_IDENTITY_CHANGED"
  | .clockRegression => "BASELINE_CLOCK_REGRESSION"
  | .counterRegression => "BASELINE_COUNTER_REGRESSION"
  | .calculationFailed => "BASELINE_CALCULATION_FAILED"

def recordHistoryFailure (h : RateHistory) (nowNs : Nat) (error : RateHistoryError) : RateHistory :=
  if error = .identityMismatch then h.recordIdentityFailure nowNs (rateErrorCode error)
  else h.recordRateFailure nowNs (rateErrorCode error)

/-- `rate_sample`; its error carries no data. -/
def rateSample (raw : RawObservation) (nowNs unixMs : Nat) : Option RateSample :=
  match newIdentity raw.ifindex raw.generation with
  | .error _ => none
  | .ok identity =>
    match RateSample.new identity nowNs unixMs raw.vlanVisibility raw.hooks with
    | .error _ => none
    | .ok sample => some sample

/-! ### The components -/

structure Components where
  history : RateHistory
  baseline : BaselineEngine
  fingerprintWindow : FingerprintWindowHistory
  detection : DetectionEngine
  deriving DecidableEq

inductive DetectionOutcome where
  | skipped | evaluated | signalsRefused | engineRefused
  deriving DecidableEq, Repr

/-- Where `sample_tick_inner` returned. -/
inductive TickExit where
  | notStarted
  | deadlineOverflow
  | identityFailure
  | transientFailure
  | ownershipMismatch
  | wallClockUnavailable
  | sampleInvalid
  | historyRefused
  | windowsFailed
  | baselineRefused
  | fingerprintsRefused
  | judged (outcome : DetectionOutcome)
  deriving DecidableEq, Repr

inductive SamplingTickOutcome where
  | sampled | rejected
  deriving DecidableEq, Repr

namespace TickExit

def outcome : TickExit → SamplingTickOutcome
  | .fingerprintsRefused | .judged _ => .sampled
  | _ => .rejected

/-- The exits that go through `clear_detection_integrity`. -/
def clears : TickExit → Bool
  | .identityFailure | .ownershipMismatch | .wallClockUnavailable | .sampleInvalid | .historyRefused | .windowsFailed
  | .baselineRefused | .judged .signalsRefused | .judged .engineRefused => true
  | _ => false

end TickExit

namespace Components

def start (identity : RateIdentity) (startedAtMonotonicNs startedAtUnixMs : Nat) : Components where
  history := .new identity startedAtMonotonicNs
  baseline := .new identity startedAtUnixMs
  fingerprintWindow := .new identity
  detection := .new identity startedAtMonotonicNs startedAtUnixMs

def clearDetectionIntegrity (c : Components) (own : OwnershipRecord) (atNs atMs : Nat) (code : String) : Components :=
  match newIdentity own.ifindex own.generation with
  | .error _ => {c with fingerprintWindow := c.fingerprintWindow.clear}
  | .ok identity => {c with
      fingerprintWindow := c.fingerprintWindow.clear
      detection := (c.detection.clear identity atNs atMs code).2}

/-- `clear_request_integrity`, which is also what the exits of a tick do by hand before the
sample is in the history: the baseline, the fingerprint window and the engine are cleared. -/
def clearIntegrity (c : Components) (own : OwnershipRecord) (atNs atMs : Nat) (baselineCode detectionCode : String) :
    Components :=
  ({c with baseline := c.baseline.clearIntegrity c.baseline.identity atMs baselineCode}).clearDetectionIntegrity
    own atNs atMs detectionCode

def markDetectionUnavailable (c : Components) (atMs : Nat) (code : String) : Components :=
  {c with detection := (c.detection.unavailable atMs code).2}

def recordAnalysisFingerprints (c : Components) (fingerprints : RawFingerprints) (nowNs nowMs : Nat) :
    Components × Bool :=
  match fingerprints with
  | .available evidence =>
    match c.fingerprintWindow.recordScan nowNs nowMs evidence with
    | (.error error, w) => (({c with fingerprintWindow := w}).markDetectionUnavailable nowMs error.stableCode, false)
    | (.ok _, w) => ({c with fingerprintWindow := w}, true)
  | .unavailable code =>
    (({c with fingerprintWindow := c.fingerprintWindow.unavailable code}).markDetectionUnavailable nowMs code, false)
  | .notRequested =>
    (({c with fingerprintWindow := c.fingerprintWindow.unavailable "DETECTION_FINGERPRINT_UNAVAILABLE"}).markDetectionUnavailable
      nowMs "DETECTION_FINGERPRINT_UNAVAILABLE", false)

def evaluateDetection (c : Components) (own : OwnershipRecord) (windows : Fin 3 → DetailedRateWindow)
    (nowNs nowMs : Nat) : Components × DetectionOutcome :=
  match deriveSignals windows c.baseline.cached c.fingerprintWindow.report nowMs with
  | .error _ => (c.clearDetectionIntegrity own nowNs nowMs "DETECTION_RATE_INVALID", .signalsRefused)
  | .ok signals =>
    if nowNs = 0 ∧ c.detection.report.lastTrustworthyAtUnixMs.isNone then (c, .skipped)
    else
      match c.detection.evaluate nowNs nowMs signals with
      | (.error _, d) =>
        (({c with detection := d}).clearDetectionIntegrity own nowNs nowMs "DETECTION_RATE_INVALID", .engineRefused)
      | (.ok _, d) => ({c with detection := d}, .evaluated)

/-- A tick whose windows are calculated: the baseline, the fingerprints when an analysis is
due, the engine. -/
def judge (c : Components) (own : OwnershipRecord) (due : Bool) (fingerprints : RawFingerprints)
    (windows : Fin 3 → DetailedRateWindow) (nowNs nowMs : Nat) : Components × TickExit :=
  let based : Except BaselineError Unit × BaselineEngine :=
    if (windows 1).state = .ready then c.baseline.evaluateReadyWindow (windows 1) nowMs else (.ok (), c.baseline)
  let c := {c with baseline := based.2}
  match based.1 with
  | .error _ => (c.clearDetectionIntegrity own nowNs nowMs "DETECTION_RATE_INVALID", .baselineRefused)
  | .ok _ =>
    let scanned : Components × Bool :=
      if due then c.recordAnalysisFingerprints fingerprints nowNs nowMs else (c, true)
    if scanned.2 then
      let judged := scanned.1.evaluateDetection own windows nowNs nowMs
      (judged.1, .judged judged.2)
    else (scanned.1, .fingerprintsRefused)

/-- A tick whose read succeeded, from the sample on. -/
def absorb (c : Components) (own : OwnershipRecord) (due : Bool) (raw : RawObservation) (nowNs nowMs : Nat) :
    Components × TickExit :=
  match rateSample raw nowNs nowMs with
  | none =>
    (({c with history := c.history.recordRateFailure nowNs "OBS_RATE_CALCULATION_FAILED"}).clearIntegrity own nowNs nowMs
      "BASELINE_CALCULATION_FAILED" "DETECTION_RATE_INVALID", .sampleInvalid)
  | some sample =>
    match c.history.insert sample with
    | (.error error, h) =>
      (({c with history := recordHistoryFailure h nowNs error}).clearIntegrity own nowNs nowMs
        (baselineCodeForRateError error) "DETECTION_RATE_INVALID", .historyRefused)
    | (.ok _, h) =>
      match h.detailedWindows nowNs with
      | .error error =>
        (({c with history := recordHistoryFailure h nowNs error}).clearIntegrity own nowNs nowMs
          (baselineCodeForRateError error) "DETECTION_RATE_INVALID", .windowsFailed)
      | .ok windows => ({c with history := h}).judge own due raw.fingerprints windows nowNs nowMs

/-- `sample_tick_inner` on its components, from the read on. -/
def tick (c : Components) (own : OwnershipRecord) (due : Bool) (i : TickInput) : Components × TickExit :=
  let evaluatedAtUnixMs := i.evaluatedAtUnixMs.getD 0
  match i.reader.reply (if due then .backgroundAnalysis else .backgroundSample) with
  | .error error =>
    let code := error.stableCode.getD "OBS_MAP_UNAVAILABLE"
    if isIdentityCode code then
      (({c with history := c.history.recordIdentityFailure i.nowNs code}).clearIntegrity own i.nowNs evaluatedAtUnixMs
        "BASELINE_IDENTITY_CHANGED" "DETECTION_IDENTITY_CHANGED", .identityFailure)
    else
      (({c with
          history := c.history.recordTransientFailure code
          baseline := c.baseline.unavailable evaluatedAtUnixMs "BASELINE_SOURCE_UNAVAILABLE"}).markDetectionUnavailable
        evaluatedAtUnixMs "DETECTION_SOURCE_UNAVAILABLE", .transientFailure)
  | .ok raw =>
    if raw.ifindex ≠ own.ifindex ∨ raw.generation ≠ own.generation then
      (({c with history := c.history.recordIdentityFailure i.nowNs "OBS_OWNERSHIP_MISMATCH"}).clearIntegrity own i.nowNs
        evaluatedAtUnixMs "BASELINE_IDENTITY_CHANGED" "DETECTION_IDENTITY_CHANGED", .ownershipMismatch)
    else
      match i.capturedAtUnixMs with
      | none =>
        (({c with history := c.history.recordRateFailure i.nowNs "OBS_SNAPSHOT_FAILED"}).clearIntegrity own i.nowNs
          evaluatedAtUnixMs "BASELINE_CLOCK_REGRESSION" "DETECTION_RATE_INVALID", .wallClockUnavailable)
      | some capturedAtUnixMs => c.absorb own due raw i.nowNs capturedAtUnixMs

/-- `pause`; it reads the monotonic clock once and the wall clock twice. -/
def pause (c : Components) (nowNs : Nat) (baselineMs detectionMs : Option Nat) : Components where
  history := c.history.pause nowNs "OBS_RATE_SAMPLER_PAUSED"
  baseline := c.baseline.unavailable (baselineMs.getD 0) "BASELINE_SAMPLER_PAUSED"
  fingerprintWindow := c.fingerprintWindow.unavailable "DETECTION_SAMPLER_PAUSED"
  detection := (c.detection.pause (detectionMs.getD 0)).2

end Components

/-! ### Requests -/

structure ObservationError where
  code : String
  evidence : String
  deriving DecidableEq, Repr

def snapshotError : ObservationError := ⟨"OBS_SNAPSHOT_FAILED", "observation snapshot construction failed"⟩

def ownershipError : ObservationError :=
  ⟨"OBS_OWNERSHIP_MISMATCH", "observation identity does not match the ownership journal"⟩

def sessionError : ObservationError :=
  ⟨"OBS_SESSION_NOT_FOUND", "no active isolated session matches the request"⟩

def interfaceError : ObservationError :=
  ⟨"OBS_INTERFACE_MISMATCH", "requested interface does not match the active session"⟩

def readerError (error : PortError) : ObservationError :=
  ⟨error.stableCode.getD "OBS_MAP_UNAVAILABLE", "observation reader failed"⟩

def rateHistoryError (error : RateHistoryError) : ObservationError :=
  ⟨rateErrorCode error, "rate history validation failed"⟩

/-- `observation_health`. -/
def observationHealth (sampling : SamplingStatus) (windows : Fin 3 → DetailedRateWindow)
    (baselineState : BaselineState) (fingerprintState : FingerprintState) (detectionState : DetectionState) :
    ObservationHealth :=
  if sampling.samplingPaused ∨ sampling.lastErrorCode.isSome ∨ (∃ i, (windows i).state = .stale) ∨
      baselineState = .unavailable ∨ fingerprintState = .unavailable ∨ detectionState = .unavailable then .degraded
  else .healthy

/-- `fingerprint_report`; any failure becomes `snapshot_error`. -/
def fingerprintReport (ifindex generation : Nat) : RawFingerprints → Option FingerprintReport
  | .notRequested => some .empty
  | .available evidence => (FingerprintReport.build ifindex generation evidence).toOption
  | .unavailable code => (FingerprintReport.unavailable code).toOption

namespace Components

/-- The tail of `current_snapshot` and of `cache_background_snapshot`: the snapshot of
what the components hold, with the raw counters of this read. -/
def snapshotOf (c : Components) (interface : String) (raw : RawObservation) (windows : Fin 3 → DetailedRateWindow)
    (unixMs : Nat) : Option ObservationSnapshot :=
  match fingerprintReport raw.ifindex raw.generation raw.fingerprints with
  | none => none
  | some fingerprints =>
    match ObservationSnapshot.new interface raw.ifindex raw.generation unixMs raw.vlanVisibility raw.hooks
        c.history.samplingStatus windows with
    | .error _ => none
    | .ok snapshot => some {snapshot with
        health := observationHealth c.history.samplingStatus windows c.baseline.cached.state fingerprints.state
          c.detection.report.state
        baseline := c.baseline.cached
        fingerprints := fingerprints
        detection := c.detection.report}

/-- A request whose windows cannot be calculated, or whose sample the history refuses. -/
def refuseCurrent (c : Components) (own : OwnershipRecord) (nowNs nowMs : Nat) (error : RateHistoryError) :
    Components :=
  ({c with history := recordHistoryFailure c.history nowNs error}).clearIntegrity own nowNs nowMs
    (baselineCodeForRateError error) "DETECTION_RATE_INVALID"

/-- `current_snapshot` from the sample on. -/
def currentFrom (c : Components) (interface : String) (own : OwnershipRecord) (raw : RawObservation)
    (nowNs nowMs : Nat) :
    Except ObservationError (ObservationSnapshot × (Fin 3 → StatusRateWindow)) × Components :=
  match newIdentity raw.ifindex raw.generation with
  | .error _ => (.error ownershipError, c)
  | .ok identity =>
    match RateSample.new identity nowNs nowMs raw.vlanVisibility raw.hooks with
    | .error _ =>
      (.error snapshotError,
        ({c with history := c.history.recordRateFailure nowNs "OBS_RATE_CALCULATION_FAILED"}).clearIntegrity own nowNs
          nowMs "BASELINE_CALCULATION_FAILED" "DETECTION_RATE_INVALID")
    | .ok current =>
      match c.history.validateCurrent current with
      | (.error error, h) =>
        (.error (rateHistoryError error), ({c with history := h}).refuseCurrent own nowNs nowMs error)
      | (.ok _, h) =>
        let c := {c with history := h}
        match h.detailedWindows nowNs with
        | .error error => (.error (rateHistoryError error), c.refuseCurrent own nowNs nowMs error)
        | .ok windows =>
          match h.statusWindows nowNs with
          | .error error => (.error (rateHistoryError error), c.refuseCurrent own nowNs nowMs error)
          | .ok statusWindows =>
            match c.snapshotOf interface raw windows nowMs with
            | none => (.error snapshotError, c)
            | some snapshot => (.ok (snapshot, statusWindows), c)

/-- `current_snapshot`, past its comparison of the interface names. -/
def currentSnapshot (c : Components) (interface : String) (own : OwnershipRecord) (i : RequestInput) :
    Except ObservationError (ObservationSnapshot × (Fin 3 → StatusRateWindow)) × Components :=
  match i.reply with
  | .error error =>
    let code := error.stableCode.getD "OBS_MAP_UNAVAILABLE"
    if isIdentityCode code then
      (.error (readerError error),
        ({c with history := c.history.recordIdentityFailure i.nowNs code}).clearIntegrity own i.nowNs (i.wallMs.getD 0)
          "BASELINE_IDENTITY_CHANGED" "DETECTION_IDENTITY_CHANGED")
    else (.error (readerError error), c)
  | .ok raw =>
    if raw.ifindex ≠ own.ifindex ∨ raw.generation ≠ own.generation then
      (.error ownershipError,
        ({c with history := c.history.recordIdentityFailure i.nowNs "OBS_OWNERSHIP_MISMATCH"}).clearIntegrity own i.nowNs
          (i.wallMs.getD 0) "BASELINE_IDENTITY_CHANGED" "DETECTION_IDENTITY_CHANGED")
    else
      match i.wallMs with
      | none =>
        (.error snapshotError,
          ({c with history := c.history.recordRateFailure i.nowNs "OBS_SNAPSHOT_FAILED"}).clearIntegrity own i.nowNs 0
            "BASELINE_CLOCK_REGRESSION" "DETECTION_RATE_INVALID")
      | some nowMs => c.currentFrom interface own raw i.nowNs nowMs

end Components

/-! ### The service -/

def analysisPeriodNs : Nat := 10000000000
def incidentOutputQueueCapacity : Nat := 32

structure SamplingService where
  components : Option Components
  nextAnalysisAtNs : Option Nat
  incidentRecorder : Option IncidentRecorder
  /-- The jobs that `take_incident_jobs` will hand out, the oldest first. -/
  incidentJobs : List IncidentWriteJob
  latestIncidentSnapshot : Option ObservationSnapshot

/-- `advance_analysis_deadline`, at a time that is not before the deadline. -/
def advanceAnalysisDeadline (deadline nowNs : Nat) : Option Nat :=
  let advance := ((nowNs - deadline) / analysisPeriodNs + 1) * analysisPeriodNs
  if advance < u64Bound then checkedAdd deadline advance else none

/-- The transitions that the recorder has not seen. -/
def IncidentRecorder.unseen (r : IncidentRecorder) (transitions : List DetectionTransition) : List DetectionTransition :=
  transitions.filter fun t => t.sequence > r.lastTransitionSequence

/-- The loop of `capture_incident_transitions`: without a snapshot a transition is only
acknowledged, and the first one that cannot be recorded ends the loop. -/
def IncidentRecorder.captureAll (r : IncidentRecorder) (snapshot : Option ObservationSnapshot) :
    List DetectionTransition → IncidentRecorder × List IncidentWriteJob
  | [] => (r, [])
  | t :: rest =>
    match snapshot with
    | none => captureAll (r.acknowledgeWithoutOutput t).2 none rest
    | some s =>
      match r.record t s with
      | (.error _, r') => (r', [])
      | (.ok job, r') =>
        let captured := captureAll r' (some s) rest
        (captured.1, job.toList ++ captured.2)

/-- The loop of `acknowledge_request_transitions`. -/
def IncidentRecorder.acknowledgeAll (r : IncidentRecorder) : List DetectionTransition → IncidentRecorder
  | [] => r
  | t :: rest =>
    match r.acknowledgeWithoutOutput t with
    | (.error _, r') => r'
    | (.ok _, r') => acknowledgeAll r' rest

/-- `push_incident_job`: a full queue drops the job. -/
def pushIncidentJob (jobs : List IncidentWriteJob) (job : IncidentWriteJob) : List IncidentWriteJob :=
  if jobs.length < incidentOutputQueueCapacity then jobs ++ [job] else jobs

namespace SamplingService

def new : SamplingService := ⟨none, none, none, [], none⟩

/-- `start`. A deadline that does not fit is reported, with the components already set. -/
def start (s : SamplingService) (own : OwnershipRecord) (wallMs : Option Nat) (nowNs : Nat) :
    Except ObservationError Unit × SamplingService :=
  match newIdentity own.ifindex own.generation, wallMs with
  | .error _, _ => (.error ownershipError, s)
  | .ok _, none => (.error snapshotError, s)
  | .ok identity, some startedAtUnixMs =>
    let started := {s with components := some (.start identity nowNs startedAtUnixMs)}
    match checkedAdd nowNs analysisPeriodNs with
    | none => (.error snapshotError, started)
    | some deadline => (.ok (), {started with nextAnalysisAtNs := some deadline})

/-- `start_incident_generation_with_source`. -/
def startIncidentGeneration (s : SamplingService) (interface : String) (own : OwnershipRecord)
    (idSource : Nat → Except IncidentRecorderError EventId) : Except ObservationError Unit × SamplingService :=
  match IncidentIdentity.new interface own.ifindex own.generation with
  | .error _ => (.error ownershipError, s)
  | .ok identity => (.ok (), {s with
      incidentRecorder := some (.new identity idSource)
      incidentJobs := []
      latestIncidentSnapshot := none})

/-- `cache_background_snapshot`. -/
def cacheBackgroundSnapshot (s : SamplingService) (c : Components) (raw : RawObservation) (nowNs nowMs : Nat) :
    SamplingService :=
  match s.incidentRecorder with
  | none => s
  | some recorder =>
    match c.history.detailedWindows nowNs with
    | .error _ => s
    | .ok windows =>
      match c.snapshotOf recorder.identity.interface raw windows nowMs with
      | none => s
      | some snapshot => {s with latestIncidentSnapshot := some snapshot}

/-- The read that a tick asks for, and the deadline it leaves. -/
def schedule (s : SamplingService) (nowNs : Nat) : Option (Bool × Option Nat) :=
  match s.nextAnalysisAtNs with
  | none => some (false, none)
  | some deadline =>
    if nowNs ≥ deadline then (advanceAnalysisDeadline deadline nowNs).map fun next => (true, some next)
    else some (false, some deadline)

/-- `sample_tick_inner`. -/
def sampleTickInner (s : SamplingService) (own : OwnershipRecord) (i : TickInput) : SamplingService × TickExit :=
  match s.components with
  | none => (s, .notStarted)
  | some c =>
    match s.schedule i.nowNs with
    | none => (s, .deadlineOverflow)
    | some (due, next) =>
      let ticked := c.tick own due i
      let s := {s with components := some ticked.1, nextAnalysisAtNs := next}
      match ticked.2, i.reader.reply (if due then .backgroundAnalysis else .backgroundSample), i.capturedAtUnixMs with
      | .judged outcome, .ok raw, some nowMs =>
        (s.cacheBackgroundSnapshot ticked.1 raw i.nowNs nowMs, .judged outcome)
      | exit, _, _ => (s, exit)

/-- The snapshot as the capture refreshes it before it uses it. -/
def refreshSnapshot (snapshot : ObservationSnapshot) (report : DetectionReport) : ObservationSnapshot :=
  {snapshot with
    detection := report
    health := if report.state = .unavailable then .degraded else snapshot.health}

/-- `capture_incident_transitions`. -/
def captureIncidentTransitions (s : SamplingService) : SamplingService :=
  match s.components with
  | none => s
  | some c =>
    let snapshot := s.latestIncidentSnapshot.map fun snapshot => refreshSnapshot snapshot c.detection.report
    match s.incidentRecorder with
    | none => {s with latestIncidentSnapshot := snapshot}
    | some recorder =>
      let captured := recorder.captureAll snapshot (recorder.unseen c.detection.report.transitions)
      {s with
        latestIncidentSnapshot := snapshot
        incidentRecorder := some captured.1
        incidentJobs := captured.2.foldl pushIncidentJob s.incidentJobs}

/-- `sample_tick`. -/
def sampleTick (s : SamplingService) (own : OwnershipRecord) (i : TickInput) : SamplingService :=
  (s.sampleTickInner own i).1.captureIncidentTransitions

/-- `acknowledge_request_transitions`. -/
def acknowledgeRequestTransitions (s : SamplingService) : SamplingService :=
  match s.components, s.incidentRecorder with
  | some c, some recorder =>
    {s with incidentRecorder := some (recorder.acknowledgeAll (recorder.unseen c.detection.report.transitions))}
  | _, _ => s

/-- `observe`. -/
def observe (s : SamplingService) (requested active : String) (own : OwnershipRecord) (i : RequestInput) :
    Except ObservationError ObservationSnapshot × SamplingService :=
  if requested ≠ active then (.error interfaceError, s.acknowledgeRequestTransitions)
  else
    match s.components with
    | none => (.error sessionError, s.acknowledgeRequestTransitions)
    | some c =>
      let current := c.currentSnapshot requested own i
      (current.1.map (·.1), ({s with components := some current.2}).acknowledgeRequestTransitions)

/-- `status` for a session that is active: the reply carries the snapshot and the status
windows that `InterfaceStatus` is filled from. -/
def status (s : SamplingService) (requested : Option String) (active : String) (own : OwnershipRecord)
    (i : RequestInput) :
    Except ObservationError (ObservationSnapshot × (Fin 3 → StatusRateWindow)) × SamplingService :=
  if requested.getD active ≠ active then (.error sessionError, s)
  else
    match s.components with
    | none => (.error sessionError, s.acknowledgeRequestTransitions)
    | some c =>
      let current := c.currentSnapshot active own i
      (current.1, ({s with components := some current.2}).acknowledgeRequestTransitions)

def pause (s : SamplingService) (nowNs : Nat) (baselineMs detectionMs : Option Nat) : SamplingService :=
  ({s with components := s.components.map fun (c : Components) => c.pause nowNs baselineMs detectionMs}).captureIncidentTransitions

def generationEnded (s : SamplingService) (wallMs : Option Nat) : SamplingService :=
  match s.latestIncidentSnapshot, s.incidentRecorder with
  | some snapshot, some recorder =>
    match recorder.generationEnded (wallMs.getD snapshot.capturedAtUnixMs) snapshot with
    | (.ok (some job), r) => {s with incidentRecorder := some r, incidentJobs := pushIncidentJob s.incidentJobs job}
    | (_, r) => {s with incidentRecorder := some r}
  | _, _ => s

def takeIncidentJobs (s : SamplingService) : List IncidentWriteJob × SamplingService :=
  (s.incidentJobs, {s with incidentJobs := []})

def activeIncident (s : SamplingService) : Option ActiveIncidentMetadata := s.incidentRecorder.bind IncidentRecorder.activeMetadata

def clear (s : SamplingService) : SamplingService := {s with
  components := none
  nextAnalysisAtNs := none
  incidentRecorder := none
  incidentJobs := []
  latestIncidentSnapshot := none}

end SamplingService

end NetworkLoop.Observation
