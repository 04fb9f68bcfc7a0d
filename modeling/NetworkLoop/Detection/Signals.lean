import NetworkLoop.Core.Domain

/-! The evidence a detection tick is given: the privacy-reduced fingerprint window
(`fingerprint_window.rs`) and the signals derived from rates and baselines
(`detection.rs`), with the checks the engine runs before it trusts them. -/
namespace NetworkLoop.Detection

def detectionFingerprintWindowMs : Nat := 10000
def detectionFingerprintFreshnessMs : Nat := 15000
def fingerprintCapacity : Nat := 8192

inductive FingerprintWindowState where
  | warmingUp | ready | unavailable
  deriving DecidableEq, Repr

structure FingerprintCounters where
  packets : Nat
  bytes : Nat
  deriving DecidableEq, Repr

structure FingerprintWindowReport where
  state : FingerprintWindowState
  windowMs : Nat
  coverageMs : Nat
  startUnixMs : Option Nat
  endUnixMs : Option Nat
  capturedEntryCount : Nat
  deltaRelationCount : Nat
  repeatedRelationCount : Nat
  egressFirstCorrelatedRelationCount : Nat
  ingress : FingerprintCounters
  egress : FingerprintCounters
  dominantIngressPacketRatioMilli : Option Nat
  maximumIngressToEgressPacketRatioMilli : Option Nat
  lastErrorCode : Option String
  deriving DecidableEq, Repr

namespace FingerprintWindowReport

def warming : FingerprintWindowReport where
  state := .warmingUp
  windowMs := detectionFingerprintWindowMs
  coverageMs := 0
  startUnixMs := none
  endUnixMs := none
  capturedEntryCount := 0
  deltaRelationCount := 0
  repeatedRelationCount := 0
  egressFirstCorrelatedRelationCount := 0
  ingress := ⟨0, 0⟩
  egress := ⟨0, 0⟩
  dominantIngressPacketRatioMilli := none
  maximumIngressToEgressPacketRatioMilli := none
  lastErrorCode := none

/-- `unavailable`, past its check of the code. -/
def unavailableWith (code : String) : FingerprintWindowReport :=
  {warming with state := .unavailable, lastErrorCode := some code}

def unavailable (code : String) : Except DomainError FingerprintWindowReport := do
  validateErrorCode code
  return unavailableWith code

/-- The local `counters_are_empty` of `validate`. -/
def countersAreEmpty (r : FingerprintWindowReport) : Bool :=
  r.deltaRelationCount == 0 && r.repeatedRelationCount == 0 &&
    r.egressFirstCorrelatedRelationCount == 0 && r.ingress == ⟨0, 0⟩ && r.egress == ⟨0, 0⟩ &&
    r.dominantIngressPacketRatioMilli.isNone && r.maximumIngressToEgressPacketRatioMilli.isNone

/-- `Option<u64>` as the source orders it: `None` below every `Some`. -/
def optionGt (a b : Option Nat) : Bool :=
  match a, b with
  | some x, some y => x > y
  | some _, none => true
  | none, _ => false

def validate (r : FingerprintWindowReport) : Except DomainError Unit :=
  if r.windowMs != detectionFingerprintWindowMs || r.capturedEntryCount > fingerprintCapacity ||
      r.repeatedRelationCount > r.deltaRelationCount ||
      r.egressFirstCorrelatedRelationCount > r.deltaRelationCount ||
      r.dominantIngressPacketRatioMilli.any (· > 1000) then
    .error (.invalidObservation "fingerprint window fixed contract is invalid")
  else
    match r.state with
    | .warmingUp =>
      if r.coverageMs != 0 || r.startUnixMs.isSome || r.endUnixMs.isSome ||
          r.capturedEntryCount != 0 || !r.countersAreEmpty || r.lastErrorCode.isSome then
        .error (.invalidObservation "warming fingerprint window contains evidence")
      else .ok ()
    | .ready =>
      if !(detectionFingerprintWindowMs ≤ r.coverageMs && r.coverageMs ≤ detectionFingerprintFreshnessMs) ||
          r.startUnixMs.isNone || r.endUnixMs.isNone || optionGt r.startUnixMs r.endUnixMs ||
          r.lastErrorCode.isSome ||
          (r.ingress.packets == 0 && r.dominantIngressPacketRatioMilli.isSome) ||
          (r.egress.packets == 0 && r.maximumIngressToEgressPacketRatioMilli.isSome) then
        .error (.invalidObservation "ready fingerprint window evidence is invalid")
      else .ok ()
    | .unavailable =>
      if r.coverageMs != 0 || r.startUnixMs.isSome || r.endUnixMs.isSome ||
          r.capturedEntryCount != 0 || !r.countersAreEmpty || r.lastErrorCode.isNone then
        .error (.invalidObservation "unavailable fingerprint window shape is invalid")
      else validateErrorCode (r.lastErrorCode.getD "")

theorem validate_warming : warming.validate = .ok () := rfl

/-- An unavailable window is valid exactly when its code is. -/
theorem validate_unavailableWith (code : String) :
    (unavailableWith code).validate = validateErrorCode code := by
  simp [validate, unavailableWith, warming, countersAreEmpty]

end FingerprintWindowReport

/-! ### Signals -/

inductive StormCandidate where
  | none | ingress | egress | bidirectional
  deriving DecidableEq, Repr

structure HookDetectionSignals where
  bumPacketsPerSecond : Option Nat
  bumBytesPerSecond : Option Nat
  bumRatioMilli : Option Nat
  baselineElevated : Option Bool
  adaptiveCandidate : Option Bool
  absoluteCandidate : Option Bool
  deriving DecidableEq, Repr

def HookDetectionSignals.warming : HookDetectionSignals :=
  ⟨none, none, none, none, none, none⟩

structure DetectionSignals where
  sourceWindowEndUnixMs : Option Nat
  ingress : HookDetectionSignals
  egress : HookDetectionSignals
  candidate : StormCandidate
  fingerprintWindow : FingerprintWindowReport
  loopSuspected : Option Bool
  loopHighConfidence : Option Bool
  deriving DecidableEq, Repr

namespace DetectionSignals

def warming : DetectionSignals where
  sourceWindowEndUnixMs := none
  ingress := .warming
  egress := .warming
  candidate := .none
  fingerprintWindow := .warming
  loopSuspected := none
  loopHighConfidence := none

/-- The loop over the two hooks in `validate`. -/
def bumRatiosValid (s : DetectionSignals) : Bool :=
  !(s.ingress.bumRatioMilli.any (· > 1000)) && !(s.egress.bumRatioMilli.any (· > 1000))

def validate (s : DetectionSignals) : Except DomainError Unit :=
  s.fingerprintWindow.validate >>= fun _ =>
    if !s.bumRatiosValid then
      .error (.invalidObservation "detection BUM ratio exceeds one thousand milli")
    else if s.loopHighConfidence == some true && s.loopSuspected != some true then
      .error (.invalidObservation "high-confidence detection requires suspected evidence")
    else .ok ()

theorem validate_warming : warming.validate = .ok () := rfl

/-- Valid signals claim high confidence only on top of suspicion. -/
theorem suspected_of_highConfidence {s : DetectionSignals} (h : s.validate = .ok ())
    (hhigh : s.loopHighConfidence = some true) : s.loopSuspected = some true := by
  unfold validate at h
  cases hf : s.fingerprintWindow.validate with
  | error e => rw [hf] at h; cases h
  | ok u =>
    rw [hf] at h
    by_contra hne
    cases hr : s.bumRatiosValid <;> simp [bind, Except.bind, hr, hhigh, hne] at h

/-- Replacing the fingerprint window by a valid one keeps valid signals valid. -/
theorem validate_fingerprintWindow {s : DetectionSignals} {f : FingerprintWindowReport}
    (h : s.validate = .ok ()) (hf : f.validate = .ok ()) :
    ({s with fingerprintWindow := f} : DetectionSignals).validate = .ok () := by
  unfold validate at h ⊢
  cases hs : s.fingerprintWindow.validate with
  | error e => rw [hs] at h; cases h
  | ok u =>
    rw [hs] at h
    rw [hf]
    exact h

end DetectionSignals

/-- `evidence_ready`: the adaptive evidence of both hooks is there. -/
def evidenceReady (s : DetectionSignals) : Bool :=
  s.sourceWindowEndUnixMs.isSome && s.ingress.bumPacketsPerSecond.isSome &&
    s.egress.bumPacketsPerSecond.isSome && s.ingress.baselineElevated.isSome &&
    s.egress.baselineElevated.isSome

end NetworkLoop.Detection
