import NetworkLoop.Detection.Signals

/-! The passive detection engine of `detection.rs`.

Every operation of the source takes `&mut self` and returns a `Result`, and it may
have changed the engine before it fails; so an operation here returns the reply
together with the engine it leaves. `evaluate` is cut where the source's function
changes its subject: `decision` picks the next state, `absorb` stores what the tick
brought, `commit` publishes. -/
namespace NetworkLoop.Detection

def detectionAssertTicks : Nat := 3
def detectionClearTicks : Nat := 10
def detectionCooldownMs : Nat := 30000
def detectionTransitionCapacity : Nat := 16

structure DetectionConfig where
  fingerprintWindowMs : Nat
  fingerprintFreshnessMs : Nat
  adaptivePacketFloorPps : Nat
  adaptiveByteFloorBps : Nat
  absolutePacketThresholdPps : Nat
  absoluteByteThresholdBps : Nat
  bumRatioMilli : Nat
  dominantRatioMilli : Nat
  minimumIngressSamples : Nat
  amplificationRatioMilli : Nat
  assertTicks : Nat
  clearTicks : Nat
  cooldownMs : Nat
  transitionCapacity : Nat
  deriving DecidableEq, Repr

def DetectionConfig.fixed : DetectionConfig where
  fingerprintWindowMs := detectionFingerprintWindowMs
  fingerprintFreshnessMs := detectionFingerprintFreshnessMs
  adaptivePacketFloorPps := 1000
  adaptiveByteFloorBps := 1048576
  absolutePacketThresholdPps := 100000
  absoluteByteThresholdBps := 104857600
  bumRatioMilli := 800
  dominantRatioMilli := 800
  minimumIngressSamples := 16
  amplificationRatioMilli := 4000
  assertTicks := detectionAssertTicks
  clearTicks := detectionClearTicks
  cooldownMs := detectionCooldownMs
  transitionCapacity := detectionTransitionCapacity

inductive DetectionState where
  | warmingUp
  | normal
  | ingressStormConfirmed
  | egressStormConfirmed
  | bidirectionalStormConfirmed
  | externalLoopSuspected
  | externalLoopHighConfidence
  | cooldown
  | unavailable
  deriving DecidableEq, Repr

def DetectionState.isAnomalous : DetectionState → Bool
  | .ingressStormConfirmed | .egressStormConfirmed | .bidirectionalStormConfirmed
  | .externalLoopSuspected | .externalLoopHighConfidence => true
  | _ => false

inductive DetectionTransitionReason where
  | evidenceReady | stormAsserted | relationshipSuspected | relationshipHighConfidence
  | evidenceCleared | cooldownCompleted | evidenceUnavailable | evidenceRecovered
  | samplerPaused | integrityFailure
  deriving DecidableEq, Repr

inductive DetectionEngineError where
  | clockRegression | invalidSignals | invalidErrorCode | sequenceOverflow
  deriving DecidableEq, Repr

structure DetectionTransition where
  sequence : Nat
  previousState : DetectionState
  currentState : DetectionState
  reason : DetectionTransitionReason
  occurredAtUnixMs : Nat
  deriving DecidableEq, Repr

/-! ### Which anomaly a tick supports -/

/-- `candidate_state`. -/
def candidateState : StormCandidate → Option DetectionState
  | .none => none
  | .ingress => some .ingressStormConfirmed
  | .egress => some .egressStormConfirmed
  | .bidirectional => some .bidirectionalStormConfirmed

/-- The local `supports_relationship` of `strongest_anomaly`. -/
def supportsRelationship (s : DetectionSignals) : Bool :=
  s.candidate == .ingress || s.candidate == .bidirectional

def strongestAnomaly (candidate : Option DetectionState) (s : DetectionSignals) :
    Option DetectionState :=
  if supportsRelationship s && s.loopHighConfidence == some true then
    some .externalLoopHighConfidence
  else if supportsRelationship s && s.loopSuspected == some true then
    some .externalLoopSuspected
  else candidate

/-- What `evaluate` calls the desired anomaly of a tick. -/
def desiredAnomaly (s : DetectionSignals) : Option DetectionState :=
  strongestAnomaly (candidateState s.candidate) s

def isRelationshipState : DetectionState → Bool
  | .externalLoopSuspected | .externalLoopHighConfidence => true
  | _ => false

def stateSupportsRelationship : DetectionState → Bool
  | .ingressStormConfirmed | .bidirectionalStormConfirmed
  | .externalLoopSuspected | .externalLoopHighConfidence => true
  | _ => false

def anomalyRank : DetectionState → Nat
  | .egressStormConfirmed => 1
  | .ingressStormConfirmed => 2
  | .bidirectionalStormConfirmed => 3
  | .externalLoopSuspected => 4
  | .externalLoopHighConfidence => 5
  | _ => 0

def reasonForAssertion : DetectionState → DetectionTransitionReason
  | .externalLoopSuspected => .relationshipSuspected
  | .externalLoopHighConfidence => .relationshipHighConfidence
  | _ => .stormAsserted

/-! ### The report -/

structure DetectionReport where
  state : DetectionState
  retainedAnomalousState : Option DetectionState
  evaluatedAtUnixMs : Nat
  stateSinceUnixMs : Nat
  lastTrustworthyAtUnixMs : Option Nat
  config : DetectionConfig
  signals : DetectionSignals
  candidateStreak : Nat
  clearStreak : Nat
  transitionSequence : Nat
  transitions : List DetectionTransition
  lastErrorCode : Option String
  deriving DecidableEq, Repr

/-- `validate_retained_state`. -/
def validateRetainedState (state : DetectionState) (retained : Option DetectionState) :
    Except DomainError Unit :=
  if retained.any (fun value => !value.isAnomalous) ||
      (retained.isSome && !(state == .cooldown || state == .unavailable)) ||
      (state == .cooldown && retained.isNone) then
    .error (.invalidObservation "detection retained state is invalid")
  else .ok ()

/-- The loop over the transitions in `DetectionReport::validate`: `previous` is the
sequence number of the transition before, and the reply is the last one's. -/
def validateTransitions : Option Nat → List DetectionTransition → Except DomainError (Option Nat)
  | previous, [] => .ok previous
  | previous, t :: rest =>
    if t.sequence == 0 || previous.any (fun s => checkedAdd s 1 != some t.sequence) ||
        t.previousState == t.currentState then
      .error (.invalidObservation "detection transition history is invalid")
    else validateTransitions (some t.sequence) rest

namespace DetectionReport

def warming (evaluatedAtUnixMs : Nat) : DetectionReport where
  state := .warmingUp
  retainedAnomalousState := none
  evaluatedAtUnixMs := evaluatedAtUnixMs
  stateSinceUnixMs := evaluatedAtUnixMs
  lastTrustworthyAtUnixMs := none
  config := .fixed
  signals := .warming
  candidateStreak := 0
  clearStreak := 0
  transitionSequence := 0
  transitions := []
  lastErrorCode := none

/-- The match on the state and the error code in `validate`. -/
def validateErrorField (r : DetectionReport) : Except DomainError Unit :=
  match r.state, r.lastErrorCode with
  | .unavailable, some code => validateErrorCode code
  | .unavailable, none => .error (.invalidObservation "unavailable detection requires an error code")
  | _, some code => validateErrorCode code >>= fun _ =>
    if r.signals.fingerprintWindow.state != .unavailable then
      .error (.invalidObservation "available detection has an unrelated error code")
    else .ok ()
  | _, none => .ok ()

/-- The checks of the transition history in `validate`. -/
def validateHistory (r : DetectionReport) : Except DomainError Unit :=
  if r.transitions.isEmpty then
    if r.transitionSequence != 0 then
      .error (.invalidObservation "empty detection history has a non-zero sequence")
    else .ok ()
  else
    validateTransitions none r.transitions >>= fun previous =>
      if previous != some r.transitionSequence then
        .error (.invalidObservation "detection transition sequence is inconsistent")
      else .ok ()

def validate (r : DetectionReport) : Except DomainError Unit :=
  if r.config != .fixed || r.candidateStreak > detectionAssertTicks ||
      r.clearStreak > detectionClearTicks || r.transitions.length > detectionTransitionCapacity then
    .error (.invalidObservation "detection report fixed bounds are invalid")
  else
    r.signals.validate >>= fun _ =>
    validateRetainedState r.state r.retainedAnomalousState >>= fun _ =>
    r.validateErrorField >>= fun _ => r.validateHistory

end DetectionReport

/-! ### The engine -/

structure DetectionEngine where
  identity : RateIdentity
  lastTrustworthyMonotonicNs : Nat
  resumeState : DetectionState
  lastCandidate : StormCandidate
  candidateStreak : Nat
  clearStreak : Nat
  cooldownStartedAtMonotonicNs : Option Nat
  lastAnomalousState : Option DetectionState
  transitionSequence : Nat
  transitions : List DetectionTransition
  report : DetectionReport
  deriving DecidableEq

/-- What a call returns, and the engine it leaves. -/
abbrev Reply := Except DetectionEngineError DetectionReport × DetectionEngine

namespace DetectionEngine

def new (identity : RateIdentity) (startedAtMonotonicNs startedAtUnixMs : Nat) : DetectionEngine where
  identity := identity
  lastTrustworthyMonotonicNs := startedAtMonotonicNs
  resumeState := .warmingUp
  lastCandidate := .none
  candidateStreak := 0
  clearStreak := 0
  cooldownStartedAtMonotonicNs := none
  lastAnomalousState := none
  transitionSequence := 0
  transitions := []
  report := .warming startedAtUnixMs

/-- The published state, or the state to resume from while `Unavailable` is
published: the local `current_state` of `evaluate`. -/
def effectiveState (e : DetectionEngine) : DetectionState :=
  if e.report.state = .unavailable then e.resumeState else e.report.state

def updateCandidateStreak (e : DetectionEngine) (candidate : StormCandidate) : DetectionEngine :=
  if candidate = .none then {e with lastCandidate := .none, candidateStreak := 0}
  else if candidate = e.lastCandidate then
    {e with candidateStreak := min (e.candidateStreak + 1) detectionAssertTicks}
  else {e with lastCandidate := candidate, candidateStreak := 1}

def cooldownElapsed (e : DetectionEngine) (evaluatedAtMonotonicNs : Nat) :
    Except DetectionEngineError Bool :=
  match e.cooldownStartedAtMonotonicNs with
  | none => .error .invalidSignals
  | some started =>
    if evaluatedAtMonotonicNs < started then .error .clockRegression
    else .ok (decide (evaluatedAtMonotonicNs - started ≥ detectionCooldownMs * 1000000))

def recordTransition (e : DetectionEngine) (previousState currentState : DetectionState)
    (reason : DetectionTransitionReason) (occurredAtUnixMs : Nat) :
    Except DetectionEngineError DetectionEngine :=
  match checkedAdd e.transitionSequence 1 with
  | none => .error .sequenceOverflow
  | some sequence =>
    let kept := if e.transitions.length = detectionTransitionCapacity then e.transitions.tail
      else e.transitions
    .ok {e with
      transitionSequence := sequence
      transitions := kept ++ [⟨sequence, previousState, currentState, reason, occurredAtUnixMs⟩]
      report := {e.report with state := currentState, stateSinceUnixMs := occurredAtUnixMs}}

def syncRetainedState (e : DetectionEngine) : DetectionEngine :=
  {e with report := {e.report with
    retainedAnomalousState :=
      match e.report.state with
      | .cooldown => e.lastAnomalousState
      | .unavailable =>
        if e.resumeState.isAnomalous then some e.resumeState
        else if e.resumeState = .cooldown then e.lastAnomalousState
        else none
      | _ => none}}

def syncHistory (e : DetectionEngine) : DetectionEngine :=
  {e with report := {e.report with
    transitionSequence := e.transitionSequence
    transitions := e.transitions}}

/-- The common tail of `evaluate` and `publish_unavailable`: both copies of the
state are brought in line and the report is checked before it is handed out. -/
def finish (e : DetectionEngine) : Reply :=
  let synced := e.syncRetainedState.syncHistory
  match synced.report.validate with
  | .error _ => (.error .invalidSignals, synced)
  | .ok _ => (.ok synced.report, synced)

/-! ### `evaluate` -/

/-- What the state machine of `evaluate` settles for a tick. -/
structure Decision where
  nextState : DetectionState
  reason : Option DetectionTransitionReason
  clearStreak : Nat
  cooldownStarted : Option Nat
  deriving DecidableEq, Repr

/-- The tick's anomaly outranks the current one and may be published at once: it is
loop evidence on top of a state that supports it, or it has been seen long enough. -/
def upgrades (e : DetectionEngine) (current desired : DetectionState) : Bool :=
  anomalyRank desired > anomalyRank current &&
    ((isRelationshipState desired && stateSupportsRelationship current) ||
      e.candidateStreak ≥ detectionAssertTicks)

/-- The branch for an anomalous state. -/
def anomalousDecision (e : DetectionEngine) (current : DetectionState)
    (desired : Option DetectionState) (nowNs : Nat) : Decision :=
  if desired = some current then ⟨current, none, 0, e.cooldownStartedAtMonotonicNs⟩
  else if desired.any (e.upgrades current) then
    ⟨desired.getD current, some (reasonForAssertion (desired.getD current)), 0,
      e.cooldownStartedAtMonotonicNs⟩
  else
    let clear := min (e.clearStreak + 1) detectionClearTicks
    if clear ≥ detectionClearTicks then
      match desired with
      | some weaker => ⟨weaker, some .evidenceCleared, 0, e.cooldownStartedAtMonotonicNs⟩
      | none => ⟨.cooldown, some .evidenceCleared, clear, some nowNs⟩
    else ⟨current, none, clear, e.cooldownStartedAtMonotonicNs⟩

/-- The branch for `Cooldown`, the only one that can fail. -/
def cooldownDecision (e : DetectionEngine) (desired : Option DetectionState) (nowNs : Nat) :
    Except DetectionEngineError Decision :=
  let stay : Decision := ⟨.cooldown, none, e.clearStreak, e.cooldownStartedAtMonotonicNs⟩
  match desired with
  | some d =>
    .ok (if e.candidateStreak ≥ detectionAssertTicks then ⟨d, some (reasonForAssertion d), 0, none⟩
      else stay)
  | none =>
    e.cooldownElapsed nowNs >>= fun elapsed =>
      .ok (if elapsed then ⟨.normal, some .cooldownCompleted, 0, none⟩ else stay)

/-- The branches for every other state. -/
def quietDecision (e : DetectionEngine) (current : DetectionState)
    (desired : Option DetectionState) (s : DetectionSignals) : Decision :=
  let stay : Decision := ⟨current, none, e.clearStreak, e.cooldownStartedAtMonotonicNs⟩
  if e.candidateStreak ≥ detectionAssertTicks ∧ desired.isSome then
    {stay with
      nextState := desired.getD current
      reason := some (reasonForAssertion (desired.getD current))
      clearStreak := 0}
  else if current = .warmingUp ∧ s.candidate = .none ∧ evidenceReady s then
    {stay with nextState := .normal, reason := some .evidenceReady}
  else stay

/-- The state machine, on an engine whose candidate streak already counts the tick. -/
def decision (e : DetectionEngine) (current : DetectionState) (nowNs : Nat) (s : DetectionSignals) :
    Except DetectionEngineError Decision :=
  if current.isAnomalous then .ok (e.anomalousDecision current (desiredAnomaly s) nowNs)
  else if current = .cooldown then e.cooldownDecision (desiredAnomaly s) nowNs
  else .ok (e.quietDecision current (desiredAnomaly s) s)

/-- The assignments of `evaluate` between the state machine and the publication. -/
def absorb (e : DetectionEngine) (d : Decision) (nowNs nowMs : Nat) (s : DetectionSignals) :
    DetectionEngine :=
  {e with
    clearStreak := d.clearStreak
    cooldownStartedAtMonotonicNs := d.cooldownStarted
    lastAnomalousState := if d.nextState.isAnomalous then some d.nextState else e.lastAnomalousState
    lastTrustworthyMonotonicNs := nowNs
    resumeState := d.nextState
    report := {e.report with
      evaluatedAtUnixMs := nowMs
      lastTrustworthyAtUnixMs := some nowMs
      signals := s
      candidateStreak := e.candidateStreak
      clearStreak := d.clearStreak
      lastErrorCode := none}}

/-- The reason `evaluate` gives for a change of the published state. -/
def Decision.publishedReason (d : Decision) (published current : DetectionState) :
    DetectionTransitionReason :=
  if published = .unavailable ∧ d.nextState = current then .evidenceRecovered
  else d.reason.getD .evidenceRecovered

/-- The publication of `evaluate`: a change of the published state is a transition. -/
def commit (e : DetectionEngine) (published current : DetectionState) (d : Decision) (nowMs : Nat) :
    Reply :=
  if published ≠ d.nextState then
    match e.recordTransition published d.nextState (d.publishedReason published current) nowMs with
    | .error err => (.error err, e)
    | .ok recorded => recorded.finish
  else finish {e with report := {e.report with state := d.nextState}}

/-- The clock check of `evaluate`. -/
def clockRegressed (e : DetectionEngine) (nowNs nowMs : Nat) : Bool :=
  nowNs ≤ e.lastTrustworthyMonotonicNs ||
    e.report.lastTrustworthyAtUnixMs.any (fun previous => nowMs < previous)

/-- The tick passes both checks at the head of `evaluate`. -/
def trusts (e : DetectionEngine) (nowNs nowMs : Nat) (s : DetectionSignals) : Bool :=
  s.validate.isOk && !e.clockRegressed nowNs nowMs

def evaluate (e : DetectionEngine) (nowNs nowMs : Nat) (s : DetectionSignals) : Reply :=
  match s.validate with
  | .error _ => (.error .invalidSignals, e)
  | .ok _ =>
    if e.clockRegressed nowNs nowMs then (.error .clockRegression, e)
    else
      let counted := e.updateCandidateStreak s.candidate
      match counted.decision e.effectiveState nowNs s with
      | .error err => (.error err, counted)
      | .ok d => (counted.absorb d nowNs nowMs s).commit e.report.state e.effectiveState d nowMs

/-! ### The other calls -/

/-- The assignments of `publish_unavailable` before the transition is recorded. -/
def markUnavailable (e : DetectionEngine) (nowMs : Nat) (code : String) (resetSignals : Bool) :
    DetectionEngine :=
  let signals := if resetSignals then DetectionSignals.warming else e.report.signals
  {e with
    resumeState := if e.report.state ≠ .unavailable ∧ resetSignals = false then e.report.state
      else e.resumeState
    report := {e.report with
      evaluatedAtUnixMs := nowMs
      lastErrorCode := some code
      signals := {signals with fingerprintWindow := .unavailableWith code}
      candidateStreak := e.candidateStreak
      clearStreak := e.clearStreak}}

def publishUnavailable (e : DetectionEngine) (nowMs : Nat) (code : String)
    (reason : DetectionTransitionReason) (resetSignals : Bool) : Reply :=
  match validateErrorCode code with
  | .error _ => (.error .invalidErrorCode, e)
  | .ok _ =>
    let marked := e.markUnavailable nowMs code resetSignals
    if e.report.state ≠ .unavailable then
      match marked.recordTransition e.report.state .unavailable reason nowMs with
      | .error err => (.error err, marked)
      | .ok recorded => recorded.finish
    else marked.finish

def unavailable (e : DetectionEngine) (nowMs : Nat) (code : String) : Reply :=
  e.publishUnavailable nowMs code .evidenceUnavailable false

def pause (e : DetectionEngine) (nowMs : Nat) : Reply :=
  e.publishUnavailable nowMs "SAMPLER_PAUSED" .samplerPaused false

/-- The resets of `clear` for an unchanged identity. -/
def reset (e : DetectionEngine) (clearedAtMonotonicNs : Nat) : DetectionEngine :=
  {e with
    lastTrustworthyMonotonicNs := clearedAtMonotonicNs
    resumeState := .warmingUp
    lastCandidate := .none
    candidateStreak := 0
    clearStreak := 0
    cooldownStartedAtMonotonicNs := none
    lastAnomalousState := none
    report := {e.report with lastTrustworthyAtUnixMs := none}}

def clear (e : DetectionEngine) (identity : RateIdentity) (clearedAtMonotonicNs clearedAtUnixMs : Nat)
    (code : String) : Reply :=
  match validateErrorCode code with
  | .error _ => (.error .invalidErrorCode, e)
  | .ok _ =>
    if identity ≠ e.identity then
      let fresh := new identity clearedAtMonotonicNs clearedAtUnixMs
      (.ok fresh.report, fresh)
    else (e.reset clearedAtMonotonicNs).publishUnavailable clearedAtUnixMs code .integrityFailure true

end DetectionEngine

end NetworkLoop.Detection
