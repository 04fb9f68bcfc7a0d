import Mathlib
import NetworkLoop.Observation.Rates

/-! The rate baselines of `baseline.rs`: sixteen series, one for the total, each
class and the parse errors of each hook, learned from the ready ten-second windows
and compared with the next one. -/
namespace NetworkLoop.Observation

def baselineSourceWindowMs : Nat := 10000
def baselineCapacity : Nat := 300
def baselineMinimumSamples : Nat := 60
def baselinePacketNoiseFloorPps : Nat := 10
def baselineByteNoiseFloorBps : Nat := 16384

inductive BaselineState where
  | learning | withinBaseline | elevated | unavailable
  deriving DecidableEq, Repr

inductive BaselineMetric where
  | packets | bytes
  deriving DecidableEq, Repr

inductive BaselineSubject where
  | total
  | trafficClass (trafficClass : TrafficClass)
  | parseErrors
  deriving DecidableEq, Repr

structure BaselineMetricReport where
  current : Option Nat
  median : Option Nat
  mad : Option Nat
  threshold : Option Nat
  ratioMilli : Option Nat
  elevated : Option Bool
  deriving DecidableEq, Repr

namespace BaselineMetricReport

def absent : BaselineMetricReport := ⟨none, none, none, none, none, none⟩

def learning (current : Nat) : BaselineMetricReport := {absent with current := some current}

def validateFor (m : BaselineMetricReport) (state : BaselineState) : Except DomainError Unit :=
  match state with
  | .learning =>
    if m.median.isNone && m.mad.isNone && m.threshold.isNone && m.ratioMilli.isNone && m.elevated.isNone then
      .ok ()
    else .error (.invalidObservation "learning baseline metric contains evaluated evidence")
  | .withinBaseline | .elevated =>
    if m.current.isSome && m.median.isSome && m.mad.isSome && m.threshold.isSome && m.elevated.isSome then
      .ok ()
    else .error (.invalidObservation "evaluated baseline metric requires complete evidence")
  | .unavailable =>
    if m = absent then .ok ()
    else .error (.invalidObservation "unavailable baseline metric must not contain evidence")

end BaselineMetricReport

/-! ### One series -/

structure BaselineSamplePair where
  packetsPerSecond : Nat
  bytesPerSecond : Nat
  acceptedAtUnixMs : Nat
  deriving DecidableEq, Repr

structure BaselineSeriesEvaluation where
  state : BaselineState
  packets : BaselineMetricReport
  bytes : BaselineMetricReport
  deriving DecidableEq, Repr

/-- The accepted samples, the oldest first. -/
abbrev BaselineSeries := List BaselineSamplePair

def upperMedian (values : List Nat) : Option Nat :=
  (values.insertionSort (· ≤ ·))[values.length / 2]?

def medianAbsoluteDeviation (values : List Nat) : Option Nat :=
  (upperMedian values).bind fun median => upperMedian (values.map fun v => (v - median) + (median - v))

def evaluateMetric (current median mad noiseFloor : Nat) : BaselineMetricReport :=
  let threshold := min (max (max (median + 6 * mad) (4 * median)) noiseFloor) (u64Bound - 1)
  { current := some current
    median := some median
    mad := some mad
    threshold := some threshold
    ratioMilli := if median = 0 then none else some (min (current * 1000 / median) (u64Bound - 1))
    elevated := some (decide (current > threshold)) }

namespace BaselineSeries

def latestAcceptedAtUnixMs (s : BaselineSeries) : Option Nat :=
  s.getLast?.map (·.acceptedAtUnixMs)

def accept (s : BaselineSeries) (packetsPerSecond bytesPerSecond acceptedAtUnixMs : Nat) : BaselineSeries :=
  (if s.length = baselineCapacity then s.tail else s) ++ [⟨packetsPerSecond, bytesPerSecond, acceptedAtUnixMs⟩]

def evaluate (s : BaselineSeries) (packetsPerSecond bytesPerSecond : Nat) : BaselineSeriesEvaluation :=
  if s.length < baselineMinimumSamples then
    ⟨.learning, .learning packetsPerSecond, .learning bytesPerSecond⟩
  else
    let packetSamples := s.map (·.packetsPerSecond)
    let byteSamples := s.map (·.bytesPerSecond)
    let packets := evaluateMetric packetsPerSecond ((upperMedian packetSamples).getD 0)
      ((medianAbsoluteDeviation packetSamples).getD 0) baselinePacketNoiseFloorPps
    let bytes := evaluateMetric bytesPerSecond ((upperMedian byteSamples).getD 0)
      ((medianAbsoluteDeviation byteSamples).getD 0) baselineByteNoiseFloorBps
    ⟨if packets.elevated = some true ∨ bytes.elevated = some true then .elevated else .withinBaseline,
      packets, bytes⟩

end BaselineSeries

/-! ### Reports -/

/-- `hook_for_index`. -/
def hookForIndex (index : Fin 16) : HookRole := hookOrder (if index.val < 8 then 0 else 1)

/-- `subject_for_index`. -/
def subjectForIndex (index : Fin 16) : BaselineSubject :=
  ![.total, .trafficClass (classOrder 0), .trafficClass (classOrder 1), .trafficClass (classOrder 2),
    .trafficClass (classOrder 3), .trafficClass (classOrder 4), .trafficClass (classOrder 5),
    .parseErrors] (Fin.ofNat 8 index.val)

structure BaselineSubjectReport where
  hook : HookRole
  subject : BaselineSubject
  state : BaselineState
  sampleCount : Nat
  latestAcceptedAtUnixMs : Option Nat
  packets : BaselineMetricReport
  bytes : BaselineMetricReport
  deriving DecidableEq, Repr

structure BaselineReport where
  sourceWindowMs : Nat
  capacity : Nat
  minimumSamples : Nat
  packetNoiseFloorPps : Nat
  byteNoiseFloorBps : Nat
  state : BaselineState
  evaluatedAtUnixMs : Option Nat
  sourceEndUnixMs : Option Nat
  lastSuccessfulEvaluationAtUnixMs : Option Nat
  lastErrorCode : Option String
  learningSubjectCount : Nat
  elevatedMetricCount : Nat
  subjects : Fin 16 → BaselineSubjectReport
  deriving DecidableEq

def aggregateBaselineState (subjects : Fin 16 → BaselineSubjectReport) : BaselineState :=
  if ∃ i, (subjects i).state = .unavailable then .unavailable
  else if ∃ i, (subjects i).state = .elevated then .elevated
  else if ∃ i, (subjects i).state = .learning then .learning
  else .withinBaseline

def countLearning (subjects : Fin 16 → BaselineSubjectReport) : Nat :=
  (List.ofFn subjects).countP fun s => s.state = .learning

def countElevated (subjects : Fin 16 → BaselineSubjectReport) : Nat :=
  ((List.ofFn subjects).flatMap fun s => [s.packets.elevated, s.bytes.elevated]).countP (· = some true)

namespace BaselineReport

/-- What every report says of the fixed configuration. -/
def fixedConfig (state : BaselineState) (subjects : Fin 16 → BaselineSubjectReport) : BaselineReport where
  sourceWindowMs := baselineSourceWindowMs
  capacity := baselineCapacity
  minimumSamples := baselineMinimumSamples
  packetNoiseFloorPps := baselinePacketNoiseFloorPps
  byteNoiseFloorBps := baselineByteNoiseFloorBps
  state := state
  evaluatedAtUnixMs := none
  sourceEndUnixMs := none
  lastSuccessfulEvaluationAtUnixMs := none
  lastErrorCode := none
  learningSubjectCount := 0
  elevatedMetricCount := 0
  subjects := subjects

def learning (evaluatedAtUnixMs : Nat) : BaselineReport :=
  {fixedConfig .learning (fun i => ⟨hookForIndex i, subjectForIndex i, .learning, 0, none, .absent, .absent⟩) with
    evaluatedAtUnixMs := some evaluatedAtUnixMs
    learningSubjectCount := 16}

/-- One turn of the loop over the subjects in `validate`. -/
def validateSubject (r : BaselineReport) (i : Fin 16) : Except DomainError Unit :=
  if (r.subjects i).hook ≠ hookForIndex i ∨ (r.subjects i).subject ≠ subjectForIndex i then
    .error (.invalidObservation "baseline subjects do not match fixed order")
  else if (r.subjects i).sampleCount > baselineCapacity then
    .error (.invalidObservation "baseline subject exceeds fixed capacity")
  else
    (r.subjects i).packets.validateFor (r.subjects i).state >>= fun _ =>
      (r.subjects i).bytes.validateFor (r.subjects i).state

def validate (r : BaselineReport) : Except DomainError Unit :=
  if r.sourceWindowMs ≠ baselineSourceWindowMs ∨ r.capacity ≠ baselineCapacity ∨
      r.minimumSamples ≠ baselineMinimumSamples ∨ r.packetNoiseFloorPps ≠ baselinePacketNoiseFloorPps ∨
      r.byteNoiseFloorBps ≠ baselineByteNoiseFloorBps then
    .error (.invalidObservation "baseline report configuration is not fixed")
  else
    Library.tryFromFn r.validateSubject >>= fun _ =>
    if r.state ≠ aggregateBaselineState r.subjects then
      .error (.invalidObservation "baseline aggregate state does not match subjects")
    else if r.learningSubjectCount ≠ countLearning r.subjects then
      .error (.invalidObservation "baseline learning subject count is inconsistent")
    else if r.elevatedMetricCount ≠ countElevated r.subjects then
      .error (.invalidObservation "baseline elevated metric count is inconsistent")
    else .ok ()

end BaselineReport

structure BaselineElevatedIdentifier where
  hook : HookRole
  subject : BaselineSubject
  metric : BaselineMetric
  deriving DecidableEq, Repr

structure BaselineSubjectSampleCount where
  hook : HookRole
  subject : BaselineSubject
  sampleCount : Nat
  latestAcceptedAtUnixMs : Option Nat
  deriving DecidableEq, Repr

structure BaselineSummary where
  state : BaselineState
  evaluatedAtUnixMs : Option Nat
  sourceEndUnixMs : Option Nat
  lastSuccessfulEvaluationAtUnixMs : Option Nat
  lastErrorCode : Option String
  learningSubjectCount : Nat
  elevatedMetricCount : Nat
  subjectSampleCounts : Fin 16 → BaselineSubjectSampleCount
  elevated : List BaselineElevatedIdentifier
  deriving DecidableEq

def BaselineSummary.fromReport (r : BaselineReport) : BaselineSummary where
  state := r.state
  evaluatedAtUnixMs := r.evaluatedAtUnixMs
  sourceEndUnixMs := r.sourceEndUnixMs
  lastSuccessfulEvaluationAtUnixMs := r.lastSuccessfulEvaluationAtUnixMs
  lastErrorCode := r.lastErrorCode
  learningSubjectCount := r.learningSubjectCount
  elevatedMetricCount := r.elevatedMetricCount
  subjectSampleCounts := fun i =>
    ⟨(r.subjects i).hook, (r.subjects i).subject, (r.subjects i).sampleCount, (r.subjects i).latestAcceptedAtUnixMs⟩
  elevated := (List.ofFn r.subjects).flatMap fun s =>
    (if s.packets.elevated = some true then [⟨s.hook, s.subject, .packets⟩] else []) ++
      (if s.bytes.elevated = some true then [⟨s.hook, s.subject, .bytes⟩] else [])

/-! ### The engine -/

inductive BaselineError where
  | invalidSourceWindow | sourceEndpointNotAdvancing
  deriving DecidableEq, Repr

structure BaselineEngine where
  identity : RateIdentity
  series : Fin 16 → BaselineSeries
  cached : BaselineReport
  lastSourceEndUnixMs : Option Nat
  lastSuccessfulEvaluationAtUnixMs : Option Nat
  deriving DecidableEq

/-- `subject_rates`. -/
def subjectRates (hooks : Fin 2 → HookRate) (index : Fin 16) : Nat × Nat :=
  let hook := hooks (if index.val < 8 then 0 else 1)
  let counters := ![hook.total, (hook.classes 0).counters, (hook.classes 1).counters, (hook.classes 2).counters,
    (hook.classes 3).counters, (hook.classes 4).counters, (hook.classes 5).counters,
    hook.parseErrors] (Fin.ofNat 8 index.val)
  (counters.packetsPerSecond, counters.bytesPerSecond)

namespace BaselineEngine

def new (identity : RateIdentity) (startedAtUnixMs : Nat) : BaselineEngine where
  identity := identity
  series := fun _ => []
  cached := .learning startedAtUnixMs
  lastSourceEndUnixMs := none
  lastSuccessfulEvaluationAtUnixMs := none

def unavailableReport (b : BaselineEngine) (evaluatedAtUnixMs : Nat) (code : String) : BaselineReport :=
  {BaselineReport.fixedConfig .unavailable (fun i =>
      ⟨hookForIndex i, subjectForIndex i, .unavailable, (b.series i).length,
        (b.series i).latestAcceptedAtUnixMs, .absent, .absent⟩) with
    evaluatedAtUnixMs := some evaluatedAtUnixMs
    lastSuccessfulEvaluationAtUnixMs := b.lastSuccessfulEvaluationAtUnixMs
    lastErrorCode := some code}

def unavailable (b : BaselineEngine) (evaluatedAtUnixMs : Nat) (code : String) : BaselineEngine :=
  {b with cached := b.unavailableReport evaluatedAtUnixMs code}

def clearIntegrity (b : BaselineEngine) (identity : RateIdentity) (evaluatedAtUnixMs : Nat) (code : String) :
    BaselineEngine :=
  let emptied : BaselineEngine :=
    {b with
      identity := identity
      series := fun _ => []
      lastSourceEndUnixMs := none
      lastSuccessfulEvaluationAtUnixMs := none}
  {emptied with cached := emptied.unavailableReport evaluatedAtUnixMs code}

/-- What one series becomes on the rates of a window: an elevated rate is not learned. -/
def learn (b : BaselineEngine) (hooks : Fin 2 → HookRate) (sourceEndUnixMs : Nat) (i : Fin 16) : BaselineSeries :=
  let rates := subjectRates hooks i
  if ((b.series i).evaluate rates.1 rates.2).state = .elevated then b.series i
  else (b.series i).accept rates.1 rates.2 sourceEndUnixMs

/-- The evaluation a series reports: against the samples before the window, or with
the window's own sample when that one completes the minimum. -/
def evaluation (b : BaselineEngine) (hooks : Fin 2 → HookRate) (sourceEndUnixMs : Nat) (i : Fin 16) :
    BaselineSeriesEvaluation :=
  let rates := subjectRates hooks i
  let before := (b.series i).evaluate rates.1 rates.2
  if before.state = .learning ∧ (b.learn hooks sourceEndUnixMs i).length ≥ baselineMinimumSamples then
    (b.learn hooks sourceEndUnixMs i).evaluate rates.1 rates.2
  else before

/-- The window passes the checks at the head of `evaluate_ready_window`; its reply is
the end of the window and its rates. -/
def sourceOf (window : DetailedRateWindow) : Option (Nat × (Fin 2 → HookRate)) :=
  if window.windowMs ≠ baselineSourceWindowMs ∨ window.state ≠ .ready ∨ window.validate ≠ .ok () then none
  else
    match window.endUnixMs, window.hooks with
    | some sourceEndUnixMs, some hooks => some (sourceEndUnixMs, hooks)
    | _, _ => none

def accepted (b : BaselineEngine) (sourceEndUnixMs : Nat) (hooks : Fin 2 → HookRate) (evaluatedAtUnixMs : Nat) :
    BaselineEngine :=
  let subjects : Fin 16 → BaselineSubjectReport := fun i =>
    let evaluation := b.evaluation hooks sourceEndUnixMs i
    ⟨hookForIndex i, subjectForIndex i, evaluation.state, (b.learn hooks sourceEndUnixMs i).length,
      (b.learn hooks sourceEndUnixMs i).latestAcceptedAtUnixMs, evaluation.packets, evaluation.bytes⟩
  {b with
    series := b.learn hooks sourceEndUnixMs
    lastSourceEndUnixMs := some sourceEndUnixMs
    lastSuccessfulEvaluationAtUnixMs := some evaluatedAtUnixMs
    cached := {BaselineReport.fixedConfig (aggregateBaselineState subjects) subjects with
      evaluatedAtUnixMs := some evaluatedAtUnixMs
      sourceEndUnixMs := some sourceEndUnixMs
      lastSuccessfulEvaluationAtUnixMs := some evaluatedAtUnixMs
      learningSubjectCount := countLearning subjects
      elevatedMetricCount := countElevated subjects}}

def evaluateReadyWindow (b : BaselineEngine) (window : DetailedRateWindow) (evaluatedAtUnixMs : Nat) :
    Except BaselineError Unit × BaselineEngine :=
  match sourceOf window with
  | none =>
    (.error .invalidSourceWindow, b.clearIntegrity b.identity evaluatedAtUnixMs "baseline_invalid_source_window")
  | some (sourceEndUnixMs, hooks) =>
    if b.lastSourceEndUnixMs.any (fun last => sourceEndUnixMs ≤ last) then
      (.error .sourceEndpointNotAdvancing,
        b.clearIntegrity b.identity evaluatedAtUnixMs "baseline_source_endpoint_not_advancing")
    else (.ok (), b.accepted sourceEndUnixMs hooks evaluatedAtUnixMs)

end BaselineEngine

end NetworkLoop.Observation
