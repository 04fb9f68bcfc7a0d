import Mathlib
import NetworkLoop.Core.Domain
import NetworkLoop.Library.Arrays

/-! The counters that a background read brings home and the history of rates kept
over them (`observation.rs` and `rate.rs` of the domain crate).

Arrays are functions of their index. A history operation that takes `&mut self`
returns its result together with the history it leaves, because a refused sample
still empties the history. A counter is a `u64`: its bound is a field, so that the
arithmetic of a rate can rely on it. -/
namespace NetworkLoop.Observation
open Library

inductive HookRole where
  | externalXdpIngress | physicalTcEgress | temporaryPathIngress | temporaryPathEgress
  deriving DecidableEq, Repr

inductive TrafficClass where
  | all | l2Broadcast | ipv4Multicast | ipv6Multicast | otherL2Multicast | linkLocalControl
  | unicastOrUnclassified
  deriving DecidableEq, Repr

inductive VlanVisibility where
  | unknown | verifiedVisible | unavailable
  deriving DecidableEq, Repr

/-- `CLASS_ORDER`. -/
def classOrder : Fin 6 → TrafficClass :=
  ![.l2Broadcast, .ipv4Multicast, .ipv6Multicast, .otherL2Multicast, .linkLocalControl, .unicastOrUnclassified]

/-- The roles of the two observed hooks, in order. -/
def hookOrder : Fin 2 → HookRole := ![.externalXdpIngress, .physicalTcEgress]

structure ObservationCounters where
  packets : Nat
  bytes : Nat
  packets_lt : packets < u64Bound
  bytes_lt : bytes < u64Bound
  deriving DecidableEq

namespace ObservationCounters

def zero : ObservationCounters := ⟨0, 0, by decide, by decide⟩

def checkedAdd (a b : ObservationCounters) : Except DomainError ObservationCounters :=
  if hp : a.packets + b.packets < u64Bound then
    if hb : a.bytes + b.bytes < u64Bound then .ok ⟨a.packets + b.packets, a.bytes + b.bytes, hp, hb⟩
    else .error (.invalidObservation "byte counter overflow")
  else .error (.invalidObservation "packet counter overflow")

/-- `counters_are_monotonic`. -/
def Monotonic (previous current : ObservationCounters) : Prop :=
  previous.packets ≤ current.packets ∧ previous.bytes ≤ current.bytes

instance (a b : ObservationCounters) : Decidable (Monotonic a b) := inferInstanceAs (Decidable (_ ∧ _))

theorem Monotonic.trans {a b c : ObservationCounters} (h : Monotonic a b) (h' : Monotonic b c) :
    Monotonic a c :=
  ⟨h.1.trans h'.1, h.2.trans h'.2⟩

end ObservationCounters

structure ClassObservation where
  trafficClass : TrafficClass
  counters : ObservationCounters
  deriving DecidableEq

structure HookObservation where
  role : HookRole
  total : ObservationCounters
  classes : Fin 6 → ClassObservation
  parseErrors : ObservationCounters
  deriving DecidableEq

/-- The hooks come in the fixed order and so do the classes of each. -/
def HooksOrdered (hooks : Fin 2 → HookObservation) : Prop :=
  (∀ i, (hooks i).role = hookOrder i) ∧ ∀ i c, ((hooks i).classes c).trafficClass = classOrder c

instance (hooks : Fin 2 → HookObservation) : Decidable (HooksOrdered hooks) :=
  inferInstanceAs (Decidable (_ ∧ _))

/-- `hooks_are_monotonic`. -/
def HooksMonotonic (previous current : Fin 2 → HookObservation) : Prop :=
  ∀ i, (previous i).total.Monotonic (current i).total ∧
    (previous i).parseErrors.Monotonic (current i).parseErrors ∧
    ∀ c, ((previous i).classes c).trafficClass = ((current i).classes c).trafficClass ∧
      ((previous i).classes c).counters.Monotonic ((current i).classes c).counters

instance (a b : Fin 2 → HookObservation) : Decidable (HooksMonotonic a b) :=
  inferInstanceAs (Decidable (∀ _, _))

theorem HooksMonotonic.trans {a b c : Fin 2 → HookObservation} (h : HooksMonotonic a b)
    (h' : HooksMonotonic b c) : HooksMonotonic a c := by
  intro i
  obtain ⟨ht, he, hc⟩ := h i
  obtain ⟨ht', he', hc'⟩ := h' i
  exact ⟨ht.trans ht', he.trans he', fun k => ⟨(hc k).1.trans (hc' k).1, (hc k).2.trans (hc' k).2⟩⟩

/-! ### Samples -/

/-- `RateIdentity::new`. -/
def newIdentity (ifindex generation : Nat) : Except DomainError RateIdentity :=
  if hi : ifindex = 0 then .error (.invalidObservation "ifindex must be non-zero")
  else if hg : generation = 0 then
    .error (.invalidObservation "interface generation must be non-zero")
  else .ok ⟨ifindex, generation, hi, hg⟩

structure RateSample where
  identity : RateIdentity
  capturedAtMonotonicNs : Nat
  capturedAtUnixMs : Nat
  vlanVisibility : VlanVisibility
  hooks : Fin 2 → HookObservation
  ordered : HooksOrdered hooks
  deriving DecidableEq

/-- `validate_observation_hooks`: the roles are checked before the classes. -/
def RateSample.new (identity : RateIdentity) (capturedAtMonotonicNs capturedAtUnixMs : Nat)
    (vlanVisibility : VlanVisibility) (hooks : Fin 2 → HookObservation) :
    Except DomainError RateSample :=
  if hr : ∀ i, (hooks i).role = hookOrder i then
    if hc : ∀ i c, ((hooks i).classes c).trafficClass = classOrder c then
      .ok ⟨identity, capturedAtMonotonicNs, capturedAtUnixMs, vlanVisibility, hooks, hr, hc⟩
    else .error (.invalidObservation "rate sample classes do not match the fixed class order")
  else .error (.invalidObservation "rate samples must be ordered XDP ingress then TC egress")

/-! ### Windows -/

def rateWindowMs : Fin 3 → Nat := ![1000, 10000, 60000]
def rateHistoryCapacity : Nat := 64
def rateSamplePeriodNs : Nat := 1000000000
def rateStaleAfterNs : Nat := 3000000000

inductive RateHistoryError where
  | identityMismatch | clockRegression | counterRegression | calculationFailed
  deriving DecidableEq, Repr

inductive RateWindowState where
  | warmingUp | ready | stale
  deriving DecidableEq, Repr

structure RateCounters where
  packetDelta : Nat
  byteDelta : Nat
  packetsPerSecond : Nat
  bytesPerSecond : Nat
  deriving DecidableEq, Repr

structure ClassRate where
  trafficClass : TrafficClass
  counters : RateCounters
  deriving DecidableEq

structure HookRate where
  role : HookRole
  total : RateCounters
  classes : Fin 6 → ClassRate
  parseErrors : RateCounters
  deriving DecidableEq

structure DetailedRateWindow where
  windowMs : Nat
  state : RateWindowState
  coverageMs : Nat
  elapsedNs : Option Nat
  startUnixMs : Option Nat
  endUnixMs : Option Nat
  hooks : Option (Fin 2 → HookRate)
  deriving DecidableEq

/-- `validate_evidence_shape`. -/
def validateEvidenceShape (windowMs : Nat) (state : RateWindowState) (coverageMs : Nat)
    (elapsedNs startUnixMs endUnixMs : Option Nat) (hasRates : Bool) : Except DomainError Unit :=
  if ∃ i, rateWindowMs i = windowMs then
    match state with
    | .ready =>
      if !(elapsedNs.isSome && startUnixMs.isSome && endUnixMs.isSome && hasRates) then
        .error (.invalidObservation "ready rate window requires complete rate evidence")
      else if elapsedNs = some 0 ∨ elapsedNs.getD 0 < windowMs * 1000000 ∨ coverageMs < windowMs then
        .error (.invalidObservation "ready rate window does not cover its fixed duration")
      else .ok ()
    | .warmingUp | .stale =>
      if !(elapsedNs.isNone && startUnixMs.isNone && endUnixMs.isNone && !hasRates) then
        .error (.invalidObservation "non-ready rate window must not contain rate evidence")
      else .ok ()
  else .error (.invalidObservation "rate window is not one of the fixed durations")

/-- `validate_hook_rates`. -/
def validateHookRates (hooks : Fin 2 → HookRate) : Except DomainError Unit :=
  if ∀ i, (hooks i).role = hookOrder i then
    if ∀ i c, ((hooks i).classes c).trafficClass = classOrder c then .ok ()
    else .error (.invalidObservation "rate classes do not match the fixed class order")
  else .error (.invalidObservation "rate hooks must be ordered XDP ingress then TC egress")

def DetailedRateWindow.validate (w : DetailedRateWindow) : Except DomainError Unit :=
  validateEvidenceShape w.windowMs w.state w.coverageMs w.elapsedNs w.startUnixMs w.endUnixMs
      w.hooks.isSome >>= fun _ =>
    match w.hooks with
    | some hooks => validateHookRates hooks
    | none => .ok ()

/-- One turn of the loop in `validate_detailed_rate_windows`. -/
def validateWindowAt (windows : Fin 3 → DetailedRateWindow) (i : Fin 3) : Except DomainError Unit :=
  if (windows i).windowMs ≠ rateWindowMs i then
    .error (.invalidObservation "rate windows do not match the fixed duration order")
  else (windows i).validate

def validateDetailedRateWindows (windows : Fin 3 → DetailedRateWindow) : Except DomainError Unit :=
  validateWindowAt windows 0 >>= fun _ => validateWindowAt windows 1 >>= fun _ =>
    validateWindowAt windows 2

/-! ### Rates -/

/-- `u64::checked_sub`. -/
def checkedSub (a b : Nat) : Option Nat := if b ≤ a then some (a - b) else none

/-- `calculate_rate`. The product of two `u64` fits the `u128` of the source. -/
def calculateRate (delta elapsedNs : Nat) : Except RateHistoryError Nat :=
  if elapsedNs = 0 then .error .calculationFailed
  else if delta * rateSamplePeriodNs / elapsedNs < u64Bound then .ok (delta * rateSamplePeriodNs / elapsedNs)
  else .error .calculationFailed

def calculateRateCounters (start final : ObservationCounters) (elapsedNs : Nat) :
    Except RateHistoryError RateCounters :=
  if elapsedNs = 0 then .error .calculationFailed
  else if final.packets < start.packets then .error .counterRegression
  else if final.bytes < start.bytes then .error .counterRegression
  else
    calculateRate (final.packets - start.packets) elapsedNs >>= fun packetsPerSecond =>
    calculateRate (final.bytes - start.bytes) elapsedNs >>= fun bytesPerSecond =>
      .ok ⟨final.packets - start.packets, final.bytes - start.bytes, packetsPerSecond, bytesPerSecond⟩

def calculateClassRate (start final : ClassObservation) (elapsedNs : Nat) :
    Except RateHistoryError ClassRate :=
  if start.trafficClass ≠ final.trafficClass then .error .calculationFailed
  else
    calculateRateCounters start.counters final.counters elapsedNs >>= fun counters =>
      .ok ⟨final.trafficClass, counters⟩

def calculateClassRates (start final : Fin 6 → ClassObservation) (elapsedNs : Nat) :
    Except RateHistoryError (Fin 6 → ClassRate) :=
  tryFromFn fun c => calculateClassRate (start c) (final c) elapsedNs

def calculateHookRate (start final : HookObservation) (elapsedNs : Nat) :
    Except RateHistoryError HookRate :=
  if start.role ≠ final.role then .error .calculationFailed
  else
    calculateRateCounters start.total final.total elapsedNs >>= fun total =>
    calculateClassRates start.classes final.classes elapsedNs >>= fun classes =>
    calculateRateCounters start.parseErrors final.parseErrors elapsedNs >>= fun parseErrors =>
      .ok ⟨final.role, total, classes, parseErrors⟩

def calculateHookRates (start final : Fin 2 → HookObservation) (elapsedNs : Nat) :
    Except RateHistoryError (Fin 2 → HookRate) :=
  tryFromFn fun i => calculateHookRate (start i) (final i) elapsedNs

/-! ### The history -/

structure SamplingStatus where
  latestSuccessAtUnixMs : Option Nat
  lastErrorCode : Option String
  consecutiveFailures : Nat
  samplingPaused : Bool
  deriving DecidableEq, Repr

structure RateHistory where
  identity : RateIdentity
  historyEpochStartedAtMonotonicNs : Nat
  latestSuccessAtUnixMs : Option Nat
  lastErrorCode : Option String
  consecutiveFailures : Nat
  samplingPaused : Bool
  /-- The oldest first. -/
  samples : List RateSample
  deriving DecidableEq

namespace RateHistory

def new (identity : RateIdentity) (startedAtMonotonicNs : Nat) : RateHistory where
  identity := identity
  historyEpochStartedAtMonotonicNs := startedAtMonotonicNs
  latestSuccessAtUnixMs := none
  lastErrorCode := none
  consecutiveFailures := 0
  samplingPaused := false
  samples := []

def clearAt (h : RateHistory) (atNs : Nat) : RateHistory :=
  {h with samples := [], historyEpochStartedAtMonotonicNs := atNs}

/-- `record_failure`; the count is a `u32` that saturates. -/
def recordFailure (h : RateHistory) (code : String) : RateHistory :=
  {h with lastErrorCode := some code, consecutiveFailures := min (h.consecutiveFailures + 1) (2 ^ 32 - 1)}

def recordTransientFailure (h : RateHistory) (code : String) : RateHistory := h.recordFailure code

def recordIdentityFailure (h : RateHistory) (nowNs : Nat) (code : String) : RateHistory :=
  (h.clearAt nowNs).recordFailure code

def recordRateFailure (h : RateHistory) (nowNs : Nat) (code : String) : RateHistory :=
  (h.clearAt nowNs).recordFailure code

def pause (h : RateHistory) (nowNs : Nat) (code : String) : RateHistory :=
  {h.clearAt nowNs with lastErrorCode := some code, samplingPaused := true}

def samplingStatus (h : RateHistory) : SamplingStatus :=
  ⟨h.latestSuccessAtUnixMs, h.lastErrorCode, h.consecutiveFailures, h.samplingPaused⟩

/-- The clock of a sample against the latest one: `insert` asks it to have moved on,
`validate_current` only not to have gone back. -/
def clockBehind (strict : Bool) (s latest : RateSample) : Bool :=
  if strict then s.capturedAtMonotonicNs ≤ latest.capturedAtMonotonicNs
  else s.capturedAtMonotonicNs < latest.capturedAtMonotonicNs

/-- What `insert` (`strict`) and `validate_current` refuse a sample for. -/
def refusal (h : RateHistory) (s : RateSample) (strict : Bool) : Option RateHistoryError :=
  if s.identity ≠ h.identity then some .identityMismatch
  else if s.capturedAtMonotonicNs < h.historyEpochStartedAtMonotonicNs ∨
      h.samples.getLast?.any (clockBehind strict s) then some .clockRegression
  else if h.samples.getLast?.any (fun latest => ¬HooksMonotonic latest.hooks s.hooks) then
    some .counterRegression
  else none

/-- The samples with one more, the oldest dropped beyond the capacity. -/
def push (h : RateHistory) (s : RateSample) : List RateSample :=
  if (h.samples ++ [s]).length > rateHistoryCapacity then (h.samples ++ [s]).tail else h.samples ++ [s]

def insert (h : RateHistory) (s : RateSample) : Except RateHistoryError Unit × RateHistory :=
  match h.refusal s true with
  | some error => (.error error, h.clearAt s.capturedAtMonotonicNs)
  | none => (.ok (), {h with
      samples := h.push s
      latestSuccessAtUnixMs := some s.capturedAtUnixMs
      lastErrorCode := none
      consecutiveFailures := 0})

def validateCurrent (h : RateHistory) (s : RateSample) : Except RateHistoryError Unit × RateHistory :=
  match h.refusal s false with
  | some error => (.error error, h.clearAt s.capturedAtMonotonicNs)
  | none => (.ok (), h)

def coverageMs (h : RateHistory) : Except RateHistoryError Nat :=
  match h.samples.head?, h.samples.getLast? with
  | some first, some latest =>
    match checkedSub latest.capturedAtMonotonicNs first.capturedAtMonotonicNs with
    | some coverageNs => .ok (coverageNs / 1000000)
    | none => .error .calculationFailed
  | _, _ => .ok 0

/-- The time the freshness of the history is measured from. -/
def freshnessReference (h : RateHistory) : Nat :=
  match h.samples.getLast? with
  | some latest => latest.capturedAtMonotonicNs
  | none => h.historyEpochStartedAtMonotonicNs

def isStale (h : RateHistory) (nowNs : Nat) : Except RateHistoryError Bool :=
  if h.samplingPaused then .ok true
  else
    match checkedSub nowNs h.freshnessReference with
    | none => .error .clockRegression
    | some ageNs => .ok (decide (ageNs > rateStaleAfterNs))

/-- A window without rates. -/
def emptyWindow (state : RateWindowState) (windowMs coverageMs : Nat) : DetailedRateWindow :=
  ⟨windowMs, state, coverageMs, none, none, none, none⟩

/-- `calculate_window`, already in its detailed form. -/
def calculateWindow (h : RateHistory) (windowMs coverageMs : Nat) :
    Except RateHistoryError DetailedRateWindow :=
  match h.samples.getLast? with
  | none => .ok (emptyWindow .warmingUp windowMs coverageMs)
  | some latest =>
    if latest.capturedAtMonotonicNs < windowMs * 1000000 then .ok (emptyWindow .warmingUp windowMs coverageMs)
    else
      match h.samples.reverse.find?
        (fun s => s.capturedAtMonotonicNs ≤ latest.capturedAtMonotonicNs - windowMs * 1000000) with
      | none => .ok (emptyWindow .warmingUp windowMs coverageMs)
      | some start =>
        if latest.capturedAtMonotonicNs < start.capturedAtMonotonicNs then .error .calculationFailed
        else if latest.capturedAtMonotonicNs - start.capturedAtMonotonicNs < windowMs * 1000000 ∨
            latest.capturedAtMonotonicNs - start.capturedAtMonotonicNs = 0 then
          .ok (emptyWindow .warmingUp windowMs coverageMs)
        else
          calculateHookRates start.hooks latest.hooks
              (latest.capturedAtMonotonicNs - start.capturedAtMonotonicNs) >>= fun hooks =>
            .ok ⟨windowMs, .ready, coverageMs, some (latest.capturedAtMonotonicNs - start.capturedAtMonotonicNs),
              some start.capturedAtUnixMs, some latest.capturedAtUnixMs, some hooks⟩

/-- `detailed_windows`. -/
def detailedWindows (h : RateHistory) (nowNs : Nat) :
    Except RateHistoryError (Fin 3 → DetailedRateWindow) :=
  h.coverageMs >>= fun coverageMs =>
  h.isStale nowNs >>= fun stale =>
    if stale then .ok fun i => emptyWindow .stale (rateWindowMs i) coverageMs
    else tryFromFn fun i => h.calculateWindow (rateWindowMs i) coverageMs

end RateHistory

/-- A window as the status reply and an incident revision carry it: the two totals
instead of the rates of each class. -/
structure StatusRateWindow where
  windowMs : Nat
  state : RateWindowState
  coverageMs : Nat
  elapsedNs : Option Nat
  startUnixMs : Option Nat
  endUnixMs : Option Nat
  xdpIngress : Option RateCounters
  tcEgress : Option RateCounters
  deriving DecidableEq

def DetailedRateWindow.toStatus (w : DetailedRateWindow) : StatusRateWindow :=
  ⟨w.windowMs, w.state, w.coverageMs, w.elapsedNs, w.startUnixMs, w.endUnixMs,
    w.hooks.map fun hooks => (hooks 0).total, w.hooks.map fun hooks => (hooks 1).total⟩

/-- `status_windows` runs the same calculation as `detailed_windows`. -/
def RateHistory.statusWindows (h : RateHistory) (nowNs : Nat) :
    Except RateHistoryError (Fin 3 → StatusRateWindow) :=
  h.detailedWindows nowNs >>= fun windows => .ok fun i => (windows i).toStatus

end NetworkLoop.Observation
