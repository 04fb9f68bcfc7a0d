import Mathlib
import NetworkLoop.Detection.Signals
import NetworkLoop.Observation.Rates

/-! Fingerprint evidence (`fingerprint.rs`) and the window between two scans of it
(`fingerprint_window.rs`).

The `BTreeMap`s of the source are lists: a scan is sorted by its exact key when it
becomes an endpoint, so that walking the list is walking the map, and the relations
collected on that walk come out in the order of their keys. -/
namespace NetworkLoop.Observation
open Library Detection

/-- `direction::INGRESS` and `direction::EGRESS`. -/
def directionIngress : Nat := 1
def directionEgress : Nat := 2
def noVlan : Nat := 0xffff
def fingerprintSampleShift : Nat := 4

structure FingerprintKey where
  interfaceGeneration : Nat
  fingerprint : Nat
  ifindex : Nat
  outerVlanId : Nat
  etherType : Nat
  frameLen : Nat
  direction : Nat
  vlanDepth : Nat
  protocol : Nat
  subtype : Nat
  reserved : List Nat
  deriving DecidableEq, Repr

/-- A sampled flow; its two counters are `u64`. -/
structure FingerprintValue where
  firstSeenNs : Nat
  lastSeenNs : Nat
  packets : Nat
  bytes : Nat
  sourceMac : List Nat
  destinationMac : List Nat
  reserved : List Nat
  deriving DecidableEq, Repr

structure FingerprintEvidence where
  key : FingerprintKey
  value : FingerprintValue
  deriving DecidableEq, Repr

/-- `RelationKey`: the key without its direction. -/
structure RelationKey where
  interfaceGeneration : Nat
  fingerprint : Nat
  ifindex : Nat
  outerVlanId : Nat
  etherType : Nat
  frameLen : Nat
  vlanDepth : Nat
  protocol : Nat
  subtype : Nat
  deriving DecidableEq, Repr

def FingerprintKey.relation (k : FingerprintKey) : RelationKey :=
  ⟨k.interfaceGeneration, k.fingerprint, k.ifindex, k.outerVlanId, k.etherType, k.frameLen, k.vlanDepth,
    k.protocol, k.subtype⟩

/-- `ExactKey`: a relation and a direction, in the order its `Ord` compares them. -/
def FingerprintKey.exact (k : FingerprintKey) : RelationKey × Nat := (k.relation, k.direction)

def FingerprintKey.order (k : FingerprintKey) : List Nat :=
  [k.interfaceGeneration, k.fingerprint, k.ifindex, k.outerVlanId, k.etherType, k.frameLen, k.vlanDepth,
    k.protocol, k.subtype, k.direction]

/-! ### Relations -/

/-- What is known of a relation in each direction. -/
structure Relation (σ : Type) where
  ingress : Option σ
  egress : Option σ
  deriving DecidableEq, Repr

abbrev Relations (σ : Type) := List (RelationKey × Relation σ)

section
variable {σ : Type}

/-- `entry(key).or_default()` with one side set. -/
def Relations.set (relations : Relations σ) (key : RelationKey) (direction : Nat) (side : σ) : Relations σ :=
  match relations with
  | [] => [(key, if direction = directionIngress then ⟨some side, none⟩ else ⟨none, some side⟩)]
  | (k, r) :: rest =>
    if k = key then
      (k, if direction = directionIngress then {r with ingress := some side} else {r with egress := some side}) :: rest
    else (k, r) :: set rest key direction side

end

/-! ### The report of one scan -/

inductive FingerprintState where
  | empty | observed | unavailable
  deriving DecidableEq, Repr

structure FingerprintReport where
  state : FingerprintState
  capacity : Nat
  sampleShift : Nat
  capturedEntryCount : Nat
  relationCount : Nat
  ingressOnlyRelationCount : Nat
  egressOnlyRelationCount : Nat
  correlatedRelationCount : Nat
  ingressFirstRelationCount : Nat
  egressFirstRelationCount : Nat
  simultaneousRelationCount : Nat
  repeatedRelationCount : Nat
  ingress : FingerprintCounters
  egress : FingerprintCounters
  maximumPacketRatioMilli : Option Nat
  maximumByteRatioMilli : Option Nat
  lastErrorCode : Option String
  deriving DecidableEq, Repr

/-- A side of a relation in `fingerprint.rs`. -/
structure Side where
  firstSeenNs : Nat
  counters : FingerprintCounters
  deriving DecidableEq, Repr

/-- `FingerprintCounters::checked_add`. -/
def addCounters (c : FingerprintCounters) (packets bytes : Nat) : Except DomainError FingerprintCounters :=
  match checkedAdd c.packets packets, checkedAdd c.bytes bytes with
  | some p, some b => .ok ⟨p, b⟩
  | none, _ => .error (.invalidObservation "fingerprint packet aggregate overflow")
  | some _, none => .error (.invalidObservation "fingerprint byte aggregate overflow")

/-- `validate_evidence`. -/
def validateEvidence (e : FingerprintEvidence) (ifindex generation : Nat) : Except DomainError Unit :=
  if e.key.interfaceGeneration ≠ generation ∨ e.key.ifindex ≠ ifindex ∨
      ¬(e.key.direction = directionIngress ∨ e.key.direction = directionEgress) ∨
      ¬(e.key.outerVlanId = noVlan ∨ e.key.outerVlanId ≤ 4094) ∨ e.key.vlanDepth > 2 ∨
      e.key.reserved ≠ [0, 0] ∨ e.value.reserved ≠ [0, 0, 0, 0] ∨ e.value.packets = 0 ∨
      e.value.bytes < e.value.packets ∨ e.value.firstSeenNs > e.value.lastSeenNs then
    .error (.invalidObservation "fingerprint evidence shape is invalid")
  else .ok ()

/-- `maximize_ratio`. -/
def maximizeRatio (maximum : Option Nat) (left right : Nat) : Option Nat :=
  let ratio := if min left right = 0 then u64Bound - 1 else min (max left right * 1000 / min left right) (u64Bound - 1)
  some (max (maximum.getD 0) ratio)

/-- `increment`, on a `u16`. -/
def increment (value : Nat) : Except DomainError Nat :=
  if value + 1 < 2 ^ 16 then .ok (value + 1)
  else .error (.invalidObservation "fingerprint relation count overflow")

/-- `count`. -/
def countU16 (value : Nat) : Except DomainError Nat :=
  if value < 2 ^ 16 then .ok value
  else .error (.invalidObservation "fingerprint evidence count is not representable")

namespace FingerprintReport

def empty : FingerprintReport where
  state := .empty
  capacity := fingerprintCapacity
  sampleShift := fingerprintSampleShift
  capturedEntryCount := 0
  relationCount := 0
  ingressOnlyRelationCount := 0
  egressOnlyRelationCount := 0
  correlatedRelationCount := 0
  ingressFirstRelationCount := 0
  egressFirstRelationCount := 0
  simultaneousRelationCount := 0
  repeatedRelationCount := 0
  ingress := ⟨0, 0⟩
  egress := ⟨0, 0⟩
  maximumPacketRatioMilli := none
  maximumByteRatioMilli := none
  lastErrorCode := none

/-- `unavailable`; its check of the code is that of `validate_error_code` with a text of its own. -/
def unavailable (code : String) : Except DomainError FingerprintReport :=
  match validateErrorCode code with
  | .error _ => .error (.invalidObservation "fingerprint error code is invalid")
  | .ok _ => .ok {empty with state := .unavailable, lastErrorCode := some code}

/-- `accumulate_relation`. -/
def accumulateRelation (r : FingerprintReport) (relation : Relation Side) : Except DomainError FingerprintReport := do
  let repeated ←
    if relation.ingress.any (fun side => side.counters.packets > 1) ||
        relation.egress.any (fun side => side.counters.packets > 1) then
      increment r.repeatedRelationCount
    else .ok r.repeatedRelationCount
  let r := {r with repeatedRelationCount := repeated}
  match relation.ingress, relation.egress with
  | some _, none =>
    let n ← increment r.ingressOnlyRelationCount
    .ok {r with ingressOnlyRelationCount := n}
  | none, some _ =>
    let n ← increment r.egressOnlyRelationCount
    .ok {r with egressOnlyRelationCount := n}
  | some ingress, some egress =>
    let n ← increment r.correlatedRelationCount
    let r := {r with correlatedRelationCount := n}
    let r ←
      if ingress.firstSeenNs < egress.firstSeenNs then do
        let n ← increment r.ingressFirstRelationCount
        .ok {r with ingressFirstRelationCount := n}
      else if ingress.firstSeenNs > egress.firstSeenNs then do
        let n ← increment r.egressFirstRelationCount
        .ok {r with egressFirstRelationCount := n}
      else do
        let n ← increment r.simultaneousRelationCount
        .ok {r with simultaneousRelationCount := n}
    .ok {r with
      maximumPacketRatioMilli :=
        maximizeRatio r.maximumPacketRatioMilli ingress.counters.packets egress.counters.packets
      maximumByteRatioMilli := maximizeRatio r.maximumByteRatioMilli ingress.counters.bytes egress.counters.bytes}
  | none, none => .error (.invalidObservation "fingerprint relation has no evidence")

/-- What the loop over the evidence in `build` carries. -/
structure Collected where
  ingress : FingerprintCounters
  egress : FingerprintCounters
  groups : Relations Side
  exact : List (RelationKey × Nat)

/-- One turn of the loop over the evidence. -/
def collect (ifindex generation : Nat) (c : Collected) (item : FingerprintEvidence) : Except DomainError Collected :=
  validateEvidence item ifindex generation >>= fun _ =>
    if item.key.exact ∈ c.exact then .error (.invalidObservation "duplicate fingerprint evidence key")
    else
      let groups := c.groups.set item.key.relation item.key.direction
        ⟨item.value.firstSeenNs, ⟨item.value.packets, item.value.bytes⟩⟩
      if item.key.direction = directionIngress then
        addCounters c.ingress item.value.packets item.value.bytes >>= fun ingress =>
          .ok {c with ingress := ingress, groups := groups, exact := item.key.exact :: c.exact}
      else
        addCounters c.egress item.value.packets item.value.bytes >>= fun egress =>
          .ok {c with egress := egress, groups := groups, exact := item.key.exact :: c.exact}

def build (ifindex generation : Nat) (evidence : List FingerprintEvidence) : Except DomainError FingerprintReport :=
  if ifindex = 0 ∨ generation = 0 then .error (.invalidObservation "fingerprint identity must be non-zero")
  else if evidence.length > fingerprintCapacity then
    .error (.invalidObservation "fingerprint evidence exceeds fixed capacity")
  else do
    let captured ← countU16 evidence.length
    let c ← evidence.foldlM (collect ifindex generation) ⟨⟨0, 0⟩, ⟨0, 0⟩, [], []⟩
    let relations ← countU16 c.groups.length
    let r ← (c.groups.map (·.2)).foldlM accumulateRelation
      {empty with capturedEntryCount := captured, relationCount := relations, ingress := c.ingress, egress := c.egress}
    .ok {r with state := if captured ≠ 0 then .observed else r.state}

end FingerprintReport

/-! ### The window between two scans -/

inductive FingerprintWindowError where
  | invalidEvidence | clockRegression | counterRegression | immutableValueChanged | calculationFailed
  deriving DecidableEq, Repr

def FingerprintWindowError.stableCode : FingerprintWindowError → String
  | .invalidEvidence => "DETECTION_FINGERPRINT_INVALID"
  | .clockRegression => "DETECTION_FINGERPRINT_CLOCK_REGRESSION"
  | .counterRegression => "DETECTION_FINGERPRINT_COUNTER_REGRESSION"
  | .immutableValueChanged => "DETECTION_FINGERPRINT_IMMUTABLE_CHANGED"
  | .calculationFailed => "DETECTION_FINGERPRINT_CALCULATION_FAILED"

/-- The entries in the order of their exact keys. -/
def sortEntries (evidence : List FingerprintEvidence) : List FingerprintEvidence :=
  evidence.insertionSort fun a b => a.key.order ≤ b.key.order

structure FingerprintEndpoint where
  capturedAtMonotonicNs : Nat
  capturedAtUnixMs : Nat
  entries : List FingerprintEvidence
  deriving DecidableEq

/-- `validate_scan`. A scan that passes `build` has no key twice, so the insertions
into the map of the source never replace one. -/
def validateScan (identity : RateIdentity) (evidence : List FingerprintEvidence) :
    Except FingerprintWindowError (List FingerprintEvidence) :=
  match FingerprintReport.build identity.ifindex identity.generation evidence with
  | .error _ => .error .invalidEvidence
  | .ok _ =>
    if (evidence.map fun e => e.key.exact).Nodup then .ok (sortEntries evidence) else .error .invalidEvidence

/-- A side of a relation in `fingerprint_window.rs`: what it gained. -/
structure SideDelta where
  firstSeenNs : Nat
  packets : Nat
  bytes : Nat
  deriving DecidableEq, Repr

/-- What an entry gained since the previous scan. -/
def entryDelta (previous : List FingerprintEvidence) (item : FingerprintEvidence) :
    Except FingerprintWindowError SideDelta :=
  match previous.find? (fun old => old.key.exact = item.key.exact) with
  | some old =>
    if old.value.firstSeenNs ≠ item.value.firstSeenNs ∨ old.value.sourceMac ≠ item.value.sourceMac ∨
        old.value.destinationMac ≠ item.value.destinationMac then .error .immutableValueChanged
    else if item.value.lastSeenNs < old.value.lastSeenNs ∨ item.value.packets < old.value.packets ∨
        item.value.bytes < old.value.bytes then .error .counterRegression
    else .ok ⟨item.value.firstSeenNs, item.value.packets - old.value.packets, item.value.bytes - old.value.bytes⟩
  | none => .ok ⟨item.value.firstSeenNs, item.value.packets, item.value.bytes⟩

/-- One turn of the first loop of `build_window`. -/
def collectDelta (previous : List FingerprintEvidence) (relations : Relations SideDelta) (item : FingerprintEvidence) :
    Except FingerprintWindowError (Relations SideDelta) :=
  entryDelta previous item >>= fun side =>
    if side.packets = 0 ∧ side.bytes = 0 then .ok relations
    else if item.key.direction = directionIngress ∨ item.key.direction = directionEgress then
      .ok (relations.set item.key.relation item.key.direction side)
    else .error .invalidEvidence

/-- `add_side`. -/
def addSide (counters : FingerprintCounters) (side : SideDelta) : Except FingerprintWindowError FingerprintCounters :=
  match checkedAdd counters.packets side.packets, checkedAdd counters.bytes side.bytes with
  | some packets, some bytes => .ok ⟨packets, bytes⟩
  | _, _ => .error .calculationFailed

/-- `maximize_directional_ratio`. -/
def maximizeDirectionalRatio (maximum : Option Nat) (ingress egress : Nat) : Option Nat :=
  let ratio := if egress = 0 then u64Bound - 1 else min (ingress * 1000 / egress) (u64Bound - 1)
  some (max (maximum.getD 0) ratio)

/-- What the second loop of `build_window` carries. -/
structure WindowTotals where
  ingress : FingerprintCounters
  egress : FingerprintCounters
  repeatedRelationCount : Nat
  egressFirstCorrelatedRelationCount : Nat
  maximumRatio : Option Nat
  dominantIngressPackets : Nat
  deriving DecidableEq, Repr

def WindowTotals.zero : WindowTotals := ⟨⟨0, 0⟩, ⟨0, 0⟩, 0, 0, none, 0⟩

/-- A `u16` count that the source raises with `checked_add`. -/
def raise (value : Nat) : Except FingerprintWindowError Nat :=
  if value + 1 < 2 ^ 16 then .ok (value + 1) else .error .calculationFailed

/-- An optional side added to the counters. -/
def addSide? (counters : FingerprintCounters) : Option SideDelta → Except FingerprintWindowError FingerprintCounters
  | some side => addSide counters side
  | none => .ok counters

/-- One turn of the second loop of `build_window`. -/
def accumulateDelta (t : WindowTotals) (relation : Relation SideDelta) : Except FingerprintWindowError WindowTotals := do
  let ingress ← addSide? t.ingress relation.ingress
  let egress ← addSide? t.egress relation.egress
  let repeated ←
    if relation.ingress.any (fun side => side.packets > 1) || relation.egress.any (fun side => side.packets > 1) then
      raise t.repeatedRelationCount
    else .ok t.repeatedRelationCount
  let t := {t with
    ingress := ingress
    egress := egress
    repeatedRelationCount := repeated
    dominantIngressPackets := max t.dominantIngressPackets ((relation.ingress.map (·.packets)).getD 0)}
  match relation.ingress, relation.egress with
  | some ingressSide, some egressSide =>
    let egressFirst ←
      if egressSide.firstSeenNs < ingressSide.firstSeenNs then raise t.egressFirstCorrelatedRelationCount
      else .ok t.egressFirstCorrelatedRelationCount
    .ok {t with
      egressFirstCorrelatedRelationCount := egressFirst
      maximumRatio := maximizeDirectionalRatio t.maximumRatio ingressSide.packets egressSide.packets}
  | _, _ => .ok t

/-- `ratio_milli` of `fingerprint_window.rs`. -/
def dominantRatioMilli (numerator denominator : Nat) : Option Nat :=
  if denominator = 0 then none else some (min (numerator * 1000 / denominator) (u64Bound - 1))

/-- The report `build_window` assembles, before its own check of it. -/
def windowReport (previous current : FingerprintEndpoint) (coverageMs relationCount : Nat) (t : WindowTotals) :
    FingerprintWindowReport where
  state := .ready
  windowMs := detectionFingerprintWindowMs
  coverageMs := coverageMs
  startUnixMs := some previous.capturedAtUnixMs
  endUnixMs := some current.capturedAtUnixMs
  capturedEntryCount := current.entries.length
  deltaRelationCount := relationCount
  repeatedRelationCount := t.repeatedRelationCount
  egressFirstCorrelatedRelationCount := t.egressFirstCorrelatedRelationCount
  ingress := t.ingress
  egress := t.egress
  dominantIngressPacketRatioMilli := dominantRatioMilli t.dominantIngressPackets t.ingress.packets
  maximumIngressToEgressPacketRatioMilli := t.maximumRatio
  lastErrorCode := none

def buildWindow (previous current : FingerprintEndpoint) (coverageMs : Nat) :
    Except FingerprintWindowError FingerprintWindowReport := do
  let relations ← current.entries.foldlM (collectDelta previous.entries) []
  let totals ← (relations.map (·.2)).foldlM accumulateDelta .zero
  if relations.length ≥ 2 ^ 16 ∨ current.entries.length ≥ 2 ^ 16 then .error .calculationFailed
  else
    let report := windowReport previous current coverageMs relations.length totals
    match report.validate with
    | .error _ => .error .calculationFailed
    | .ok _ => .ok report

structure FingerprintWindowHistory where
  identity : RateIdentity
  endpoint : Option FingerprintEndpoint
  report : FingerprintWindowReport
  deriving DecidableEq

namespace FingerprintWindowHistory

def new (identity : RateIdentity) : FingerprintWindowHistory := ⟨identity, none, .warming⟩

def clear (h : FingerprintWindowHistory) : FingerprintWindowHistory :=
  {h with endpoint := none, report := .warming}

/-- `unavailable` drops the endpoint before it looks at the code. -/
def unavailable (h : FingerprintWindowHistory) (code : String) : FingerprintWindowHistory :=
  match FingerprintWindowReport.unavailable code with
  | .error _ => {h with endpoint := none}
  | .ok report => {h with endpoint := none, report := report}

/-- `fail`. The fixed codes are valid, so the report is always there. -/
def fail (h : FingerprintWindowHistory) (error : FingerprintWindowError) :
    Except FingerprintWindowError Unit × FingerprintWindowHistory :=
  (.error error, {h with endpoint := none, report := .unavailableWith error.stableCode})

def recordScan (h : FingerprintWindowHistory) (nowNs nowMs : Nat) (evidence : List FingerprintEvidence) :
    Except FingerprintWindowError Unit × FingerprintWindowHistory :=
  match validateScan h.identity evidence with
  | .error error => h.fail error
  | .ok entries =>
    let current : FingerprintEndpoint := ⟨nowNs, nowMs, entries⟩
    match h.endpoint with
    | none => (.ok (), {h with endpoint := some current, report := .warming})
    | some previous =>
      if nowNs ≤ previous.capturedAtMonotonicNs ∨ nowMs < previous.capturedAtUnixMs then h.fail .clockRegression
      else
        let coverageMs := (nowNs - previous.capturedAtMonotonicNs) / 1000000
        if coverageMs < detectionFingerprintWindowMs then (.ok (), {h with report := .warming})
        else if coverageMs > detectionFingerprintFreshnessMs then
          (.ok (), {h with endpoint := some current, report := .warming})
        else
          match buildWindow previous current coverageMs with
          | .error error => h.fail error
          | .ok report => (.ok (), {h with endpoint := some current, report := report})

end FingerprintWindowHistory

end NetworkLoop.Observation
