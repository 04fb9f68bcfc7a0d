import NetworkLoop.Detection.Engine
import NetworkLoop.Observation.Baseline

/-! `DetectionSignals::derive` (`detection.rs`): the signals of a tick from its rate
windows, the cached baseline report and the cached fingerprint window. -/
namespace NetworkLoop.Observation
open Detection

inductive DetectionError where
  | invalidRateEvidence | invalidBaselineEvidence | invalidFingerprintEvidence | sourceEndpointMismatch
  | clockRegression | calculationFailed
  deriving DecidableEq, Repr

/-- `Result::map_err` to a fixed error. -/
def mapErr {ε δ α : Type} (error : δ) : Except ε α → Except δ α
  | .ok a => .ok a
  | .error _ => .error error

/-- `fixed_window`. -/
def fixedWindow (windows : Fin 3 → DetailedRateWindow) (windowMs : Nat) : Except DetectionError DetailedRateWindow :=
  match (List.ofFn windows).find? (fun w => w.windowMs = windowMs) with
  | some w => .ok w
  | none => .error .invalidRateEvidence

/-- One turn of the loop over the ready windows in `validate_source_endpoints`. -/
def joinEndpoint (evaluatedAtUnixMs : Nat) (sourceEnd : Option Nat) (w : DetailedRateWindow) :
    Except DetectionError (Option Nat) :=
  if w.state ≠ .ready then .ok sourceEnd
  else
    match w.endUnixMs with
    | none => .error .invalidRateEvidence
    | some windowEnd =>
      if sourceEnd.any (· ≠ windowEnd) then .error .sourceEndpointMismatch
      else if windowEnd > evaluatedAtUnixMs then .error .clockRegression
      else .ok (some windowEnd)

def validateSourceEndpoints (windows : Fin 3 → DetailedRateWindow) (baseline : BaselineReport)
    (fingerprintWindow : FingerprintWindowReport) (evaluatedAtUnixMs : Nat) : Except DetectionError (Option Nat) := do
  let sourceEnd ← (List.ofFn windows).foldlM (joinEndpoint evaluatedAtUnixMs) none
  match baseline.sourceEndUnixMs with
  | some baselineEnd =>
    if sourceEnd ≠ some baselineEnd then .error .sourceEndpointMismatch
    else if baselineEnd > evaluatedAtUnixMs then .error .clockRegression
    else if fingerprintWindow.endUnixMs.any (· > evaluatedAtUnixMs) then .error .clockRegression
    else .ok sourceEnd
  | none =>
    if fingerprintWindow.endUnixMs.any (· > evaluatedAtUnixMs) then .error .clockRegression else .ok sourceEnd

/-- `hook_rates`. -/
def hookRates (w : DetailedRateWindow) (role : HookRole) : Except DetectionError (Option HookRate) :=
  if w.state ≠ .ready then .ok none
  else
    match w.hooks.bind (fun hooks => (List.ofFn hooks).find? (fun hook => hook.role = role)) with
    | some rates => .ok (some rates)
    | none => .error .invalidRateEvidence

/-- One turn of the loop over the first four classes in `bum_rates`. -/
def addClassRate (sum : Nat × Nat) (class' : ClassRate) : Except DetectionError (Nat × Nat) :=
  match checkedAdd sum.1 class'.counters.packetsPerSecond, checkedAdd sum.2 class'.counters.bytesPerSecond with
  | some packets, some bytes => .ok (packets, bytes)
  | _, _ => .error .calculationFailed

/-- `bum_rates`. -/
def bumRates (rates : HookRate) : Except DetectionError (Nat × Nat) :=
  ((List.ofFn rates.classes).take 4).foldlM addClassRate (0, 0) >>= fun sum =>
    if sum.1 > rates.total.packetsPerSecond ∨ sum.2 > rates.total.bytesPerSecond then .error .invalidRateEvidence
    else .ok sum

/-- `ratio_milli` of `detection.rs`. -/
def bumRatio (numerator denominator : Nat) : Except DetectionError Nat :=
  if denominator = 0 then if numerator = 0 then .ok 0 else .error .invalidRateEvidence
  else if numerator * 1000 / denominator < u64Bound then .ok (numerator * 1000 / denominator)
  else .error .calculationFailed

/-- `baseline_bum_elevated`, over the classes still to look at. -/
def bumElevatedFrom (baseline : BaselineReport) (role : HookRole) :
    List TrafficClass → Bool → Except DetectionError (Option Bool)
  | [], elevated => .ok (some elevated)
  | class' :: rest, elevated =>
    match (List.ofFn baseline.subjects).find? (fun s => s.hook = role ∧ s.subject = .trafficClass class') with
    | none => .error .invalidBaselineEvidence
    | some subject =>
      match subject.state with
      | .learning | .unavailable => .ok none
      | .withinBaseline | .elevated =>
        bumElevatedFrom baseline role rest
          (elevated || subject.packets.elevated == some true || subject.bytes.elevated == some true)

def baselineBumElevated (baseline : BaselineReport) (role : HookRole) : Except DetectionError (Option Bool) :=
  bumElevatedFrom baseline role [.l2Broadcast, .ipv4Multicast, .ipv6Multicast, .otherL2Multicast] false

/-- The rates and the ratio of the ten-second window, when it is ready. -/
def bumSignals : Option HookRate → Except DetectionError (Option (Nat × Nat × Nat))
  | some rates =>
    bumRates rates >>= fun sum =>
    bumRatio sum.1 rates.total.packetsPerSecond >>= fun ratio => .ok (some (sum.1, sum.2, ratio))
  | none => .ok none

/-- The absolute path: the one-second window alone. -/
def absoluteCandidateOf : Option HookRate → Except DetectionError (Option Bool)
  | some rates =>
    bumRates rates >>= fun sum =>
      .ok (some (decide (sum.1 ≥ DetectionConfig.fixed.absolutePacketThresholdPps ∨
        sum.2 ≥ DetectionConfig.fixed.absoluteByteThresholdBps)))
  | none => .ok none

/-- `derive_hook`. -/
def deriveHook (oneSecond tenSecond : DetailedRateWindow) (baseline : BaselineReport) (role : HookRole) :
    Except DetectionError HookDetectionSignals := do
  let tenSecondRates ← hookRates tenSecond role
  let oneSecondRates ← hookRates oneSecond role
  let baselineElevated ← baselineBumElevated baseline role
  let bum ← bumSignals tenSecondRates
  let absoluteCandidate ← absoluteCandidateOf oneSecondRates
  .ok {
    bumPacketsPerSecond := bum.map (·.1)
    bumBytesPerSecond := bum.map (·.2.1)
    bumRatioMilli := bum.map (·.2.2)
    baselineElevated := baselineElevated
    adaptiveCandidate :=
      match bum, baselineElevated with
      | some (packets, bytes, _), some elevated =>
        some (elevated && (decide (packets ≥ DetectionConfig.fixed.adaptivePacketFloorPps) ||
          decide (bytes ≥ DetectionConfig.fixed.adaptiveByteFloorBps)))
      | _, _ => none
    absoluteCandidate := absoluteCandidate }

/-- `hook_is_candidate`. -/
def hookIsCandidate (s : HookDetectionSignals) : Bool :=
  s.adaptiveCandidate == some true || s.absoluteCandidate == some true

def stormCandidate (ingress egress : Bool) : StormCandidate :=
  match ingress, egress with
  | false, false => .none
  | true, false => .ingress
  | false, true => .egress
  | true, true => .bidirectional

/-- `derive_relationship_signals`. -/
def deriveRelationshipSignals (candidate : StormCandidate) (ingress : HookDetectionSignals)
    (fingerprint : FingerprintWindowReport) (evaluatedAtUnixMs : Nat) :
    Except DetectionError (Option Bool × Option Bool) :=
  if fingerprint.state ≠ .ready then .ok (none, none)
  else
    match fingerprint.endUnixMs with
    | none => .error .invalidFingerprintEvidence
    | some windowEnd =>
      if evaluatedAtUnixMs < windowEnd then .error .clockRegression
      else if evaluatedAtUnixMs - windowEnd > detectionFingerprintFreshnessMs then .ok (none, none)
      else
        let suspected := (candidate == .ingress || candidate == .bidirectional) &&
          ingress.bumRatioMilli.any (· ≥ DetectionConfig.fixed.bumRatioMilli) &&
          fingerprint.ingress.packets ≥ DetectionConfig.fixed.minimumIngressSamples &&
          fingerprint.repeatedRelationCount > 0 &&
          fingerprint.dominantIngressPacketRatioMilli.any (· ≥ DetectionConfig.fixed.dominantRatioMilli)
        let highConfidence := suspected && fingerprint.egressFirstCorrelatedRelationCount > 0 &&
          fingerprint.maximumIngressToEgressPacketRatioMilli.any (· ≥ DetectionConfig.fixed.amplificationRatioMilli)
        .ok (some suspected, some highConfidence)

/-- `DetectionSignals::derive`. -/
def deriveSignals (windows : Fin 3 → DetailedRateWindow) (baseline : BaselineReport)
    (fingerprintWindow : FingerprintWindowReport) (evaluatedAtUnixMs : Nat) : Except DetectionError DetectionSignals := do
  mapErr .invalidRateEvidence (validateDetailedRateWindows windows)
  mapErr .invalidBaselineEvidence baseline.validate
  mapErr .invalidFingerprintEvidence fingerprintWindow.validate
  let oneSecond ← fixedWindow windows 1000
  let tenSecond ← fixedWindow windows 10000
  let sourceEnd ← validateSourceEndpoints windows baseline fingerprintWindow evaluatedAtUnixMs
  let ingress ← deriveHook oneSecond tenSecond baseline .externalXdpIngress
  let egress ← deriveHook oneSecond tenSecond baseline .physicalTcEgress
  let candidate := stormCandidate (hookIsCandidate ingress) (hookIsCandidate egress)
  let relationship ← deriveRelationshipSignals candidate ingress fingerprintWindow evaluatedAtUnixMs
  let signals : DetectionSignals :=
    { sourceWindowEndUnixMs := sourceEnd
      ingress := ingress
      egress := egress
      candidate := candidate
      fingerprintWindow := fingerprintWindow
      loopSuspected := relationship.1
      loopHighConfidence := relationship.2 }
  mapErr .calculationFailed signals.validate
  return signals

end NetworkLoop.Observation
