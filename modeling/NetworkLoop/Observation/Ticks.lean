import NetworkLoop.Observation.Service
import NetworkLoop.Observation.History

/-! What one tick can do.

`Ticked` lists the ways a tick leaves, with all that each of them requires and with the
components it leaves; `Judged` does it for a tick whose windows are calculated and
`Evaluated` for the last step of such a tick. Nothing after this module looks inside
`Components.tick`. -/
namespace NetworkLoop.Observation
open Library Detection

theorem RateHistory.insert_identity (h : RateHistory) (s : RateSample) : (h.insert s).2.identity = h.identity := by
  obtain ⟨-, -, -, -, -, hid⟩ | ⟨error, -, hcleared⟩ := insert_cases h s
  · exact hid
  · rw [hcleared]
    rfl

theorem FingerprintWindowHistory.unavailable_frame (w : FingerprintWindowHistory) (code : String) :
    (w.unavailable code).identity = w.identity ∧ (w.unavailable code).endpoint = none := by
  unfold FingerprintWindowHistory.unavailable
  split <;> exact ⟨rfl, rfl⟩

/-- A refused scan drops the endpoint. -/
theorem FingerprintWindowHistory.recordScan_error {w w' : FingerprintWindowHistory} {nowNs nowMs : Nat}
    {evidence : List FingerprintEvidence} {error : FingerprintWindowError}
    (h : w.recordScan nowNs nowMs evidence = (.error error, w')) : w'.identity = w.identity ∧ w'.endpoint = none := by
  unfold recordScan at h
  cases hv : validateScan w.identity evidence with
  | error err =>
    rw [hv] at h
    cases h
    exact ⟨rfl, rfl⟩
  | ok entries =>
    rw [hv] at h
    dsimp only at h
    split at h
    · cases h
    · split at h
      · cases h
        exact ⟨rfl, rfl⟩
      · split at h
        · cases h
        · split at h
          · cases h
          · split at h
            · cases h
              exact ⟨rfl, rfl⟩
            · cases h

/-- The exits before the sample is in the history. -/
def TickExit.early : TickExit → Bool
  | .identityFailure | .ownershipMismatch | .wallClockUnavailable | .sampleInvalid | .historyRefused | .windowsFailed => true
  | _ => false

namespace Components
variable {c : Components} {own : OwnershipRecord} {due : Bool} {nowNs nowMs : Nat}
  {windows : Fin 3 → DetailedRateWindow} {fingerprints : RawFingerprints}

/-! ### From the windows on -/

/-- The verdict of the baseline on the windows of a tick, and the baseline it leaves. -/
def baselineAfter (c : Components) (windows : Fin 3 → DetailedRateWindow) (nowMs : Nat) :
    Except BaselineError Unit × BaselineEngine :=
  if (windows 1).state = .ready then c.baseline.evaluateReadyWindow (windows 1) nowMs else (.ok (), c.baseline)

/-- The fingerprint window that the engine is shown, unless an analysis is due and its
scan is not good. -/
def windowAfter (c : Components) (due : Bool) (fingerprints : RawFingerprints) (nowNs nowMs : Nat) :
    Option FingerprintWindowHistory :=
  if due then
    match fingerprints with
    | .available evidence =>
      match c.fingerprintWindow.recordScan nowNs nowMs evidence with
      | (.error _, _) => none
      | (.ok _, w) => some w
    | _ => none
  else some c.fingerprintWindow

/-- The last step of a tick. -/
inductive Evaluated (c : Components) (own : OwnershipRecord) (windows : Fin 3 → DetailedRateWindow)
    (nowNs nowMs : Nat) : Components × DetectionOutcome → Prop where
  | signalsRefused (error : DetectionError) :
      deriveSignals windows c.baseline.cached c.fingerprintWindow.report nowMs = .error error →
      Evaluated c own windows nowNs nowMs
        (c.clearDetectionIntegrity own nowNs nowMs "DETECTION_RATE_INVALID", .signalsRefused)
  | skipped (signals : DetectionSignals) :
      deriveSignals windows c.baseline.cached c.fingerprintWindow.report nowMs = .ok signals →
      nowNs = 0 → c.detection.report.lastTrustworthyAtUnixMs = none →
      Evaluated c own windows nowNs nowMs (c, .skipped)
  | engineRefused (signals : DetectionSignals) (error : DetectionEngineError) :
      deriveSignals windows c.baseline.cached c.fingerprintWindow.report nowMs = .ok signals →
      ¬(nowNs = 0 ∧ c.detection.report.lastTrustworthyAtUnixMs = none) →
      (c.detection.evaluate nowNs nowMs signals).1 = .error error →
      Evaluated c own windows nowNs nowMs
        (({c with detection := (c.detection.evaluate nowNs nowMs signals).2}).clearDetectionIntegrity own nowNs nowMs
          "DETECTION_RATE_INVALID", .engineRefused)
  | evaluated (signals : DetectionSignals) (report : DetectionReport) :
      deriveSignals windows c.baseline.cached c.fingerprintWindow.report nowMs = .ok signals →
      ¬(nowNs = 0 ∧ c.detection.report.lastTrustworthyAtUnixMs = none) →
      (c.detection.evaluate nowNs nowMs signals).1 = .ok report →
      Evaluated c own windows nowNs nowMs
        ({c with detection := (c.detection.evaluate nowNs nowMs signals).2}, .evaluated)

theorem evaluateDetection_cases (c : Components) (own : OwnershipRecord) (windows : Fin 3 → DetailedRateWindow)
    (nowNs nowMs : Nat) : Evaluated c own windows nowNs nowMs (c.evaluateDetection own windows nowNs nowMs) := by
  unfold evaluateDetection
  cases hs : deriveSignals windows c.baseline.cached c.fingerprintWindow.report nowMs with
  | error error => exact .signalsRefused error hs
  | ok signals =>
    dsimp only
    by_cases hskip : nowNs = 0 ∧ c.detection.report.lastTrustworthyAtUnixMs.isNone = true
    · rw [if_pos hskip]
      exact .skipped signals hs hskip.1 (Option.isNone_iff_eq_none.mp hskip.2)
    · rw [if_neg hskip]
      have hskip' : ¬(nowNs = 0 ∧ c.detection.report.lastTrustworthyAtUnixMs = none) := fun h =>
        hskip ⟨h.1, Option.isNone_iff_eq_none.mpr h.2⟩
      cases he : c.detection.evaluate nowNs nowMs signals with
      | mk reply d =>
        cases reply with
        | error error =>
          have h : Evaluated c own windows nowNs nowMs _ := .engineRefused signals error hs hskip' (by rw [he])
          rw [he] at h
          exact h
        | ok report =>
          have h : Evaluated c own windows nowNs nowMs _ := .evaluated signals report hs hskip' (by rw [he])
          rw [he] at h
          exact h

/-- A scan that is not good leaves a window without an endpoint and an engine that is told. -/
theorem recordAnalysisFingerprints_cases (c : Components) (fingerprints : RawFingerprints) (nowNs nowMs : Nat) :
    (∃ w, c.windowAfter true fingerprints nowNs nowMs = some w ∧
      c.recordAnalysisFingerprints fingerprints nowNs nowMs = ({c with fingerprintWindow := w}, true)) ∨
    ∃ w code, c.windowAfter true fingerprints nowNs nowMs = none ∧ w.identity = c.fingerprintWindow.identity ∧
      w.endpoint = none ∧
      c.recordAnalysisFingerprints fingerprints nowNs nowMs =
        (({c with fingerprintWindow := w}).markDetectionUnavailable nowMs code, false) := by
  unfold recordAnalysisFingerprints windowAfter
  rw [if_pos rfl]
  cases fingerprints with
  | notRequested =>
    obtain ⟨hid, hend⟩ := FingerprintWindowHistory.unavailable_frame c.fingerprintWindow "DETECTION_FINGERPRINT_UNAVAILABLE"
    exact .inr ⟨_, _, rfl, hid, hend, rfl⟩
  | unavailable code =>
    obtain ⟨hid, hend⟩ := FingerprintWindowHistory.unavailable_frame c.fingerprintWindow code
    exact .inr ⟨_, _, rfl, hid, hend, rfl⟩
  | available evidence =>
    dsimp only
    cases hs : c.fingerprintWindow.recordScan nowNs nowMs evidence with
    | mk reply w =>
      cases reply with
      | ok _ => exact .inl ⟨w, rfl, rfl⟩
      | error error =>
        obtain ⟨hid, hend⟩ := FingerprintWindowHistory.recordScan_error hs
        exact .inr ⟨w, error.stableCode, rfl, hid, hend, rfl⟩

/-- A tick whose windows are calculated. -/
inductive Judged (c : Components) (own : OwnershipRecord) (due : Bool) (fingerprints : RawFingerprints)
    (windows : Fin 3 → DetailedRateWindow) (nowNs nowMs : Nat) : Components × TickExit → Prop where
  | baselineRefused (error : BaselineError) (b : BaselineEngine) :
      c.baselineAfter windows nowMs = (.error error, b) →
      Judged c own due fingerprints windows nowNs nowMs
        (({c with baseline := b}).clearDetectionIntegrity own nowNs nowMs "DETECTION_RATE_INVALID", .baselineRefused)
  | fingerprintsRefused (b : BaselineEngine) (w : FingerprintWindowHistory) (code : String) :
      c.baselineAfter windows nowMs = (.ok (), b) → due = true →
      c.windowAfter due fingerprints nowNs nowMs = none →
      w.identity = c.fingerprintWindow.identity → w.endpoint = none →
      Judged c own due fingerprints windows nowNs nowMs
        (({c with baseline := b, fingerprintWindow := w}).markDetectionUnavailable nowMs code, .fingerprintsRefused)
  | judged (b : BaselineEngine) (w : FingerprintWindowHistory) (left : Components) (outcome : DetectionOutcome) :
      c.baselineAfter windows nowMs = (.ok (), b) →
      c.windowAfter due fingerprints nowNs nowMs = some w →
      Evaluated {c with baseline := b, fingerprintWindow := w} own windows nowNs nowMs (left, outcome) →
      Judged c own due fingerprints windows nowNs nowMs (left, .judged outcome)

theorem judge_cases (c : Components) (own : OwnershipRecord) (due : Bool) (fingerprints : RawFingerprints)
    (windows : Fin 3 → DetailedRateWindow) (nowNs nowMs : Nat) :
    Judged c own due fingerprints windows nowNs nowMs (c.judge own due fingerprints windows nowNs nowMs) := by
  unfold judge
  rw [← baselineAfter]
  cases hb : c.baselineAfter windows nowMs with
  | mk verdict b =>
    cases verdict with
    | error error => exact .baselineRefused error b hb
    | ok _ =>
      dsimp only
      cases due with
      | false =>
        exact .judged b c.fingerprintWindow _ _ hb rfl
          (evaluateDetection_cases {c with baseline := b} own windows nowNs nowMs)
      | true =>
        rw [if_pos rfl]
        obtain ⟨w, hw, hr⟩ | ⟨w, code, hw, hid, hend, hr⟩ :=
          recordAnalysisFingerprints_cases {c with baseline := b} fingerprints nowNs nowMs
        · rw [hr]
          exact .judged b w _ _ hb hw (evaluateDetection_cases _ own windows nowNs nowMs)
        · rw [hr]
          exact .fingerprintsRefused b w code hb rfl hw hid hend

/-! ### From the read on -/

/-- A tick. An early refusal empties the history, and then the other three components are
cleared with it; a sample that is accepted leads to its windows and to `Judged`. -/
inductive Ticked (c : Components) (own : OwnershipRecord) (due : Bool) (i : TickInput) :
    Components × TickExit → Prop where
  | transient (error : PortError) (code : String) :
      i.reader.reply (if due then .backgroundAnalysis else .backgroundSample) = .error error →
      isIdentityCode code = false →
      Ticked c own due i
        (({c with
            history := c.history.recordTransientFailure code
            baseline := c.baseline.unavailable (i.evaluatedAtUnixMs.getD 0)
              "BASELINE_SOURCE_UNAVAILABLE"}).markDetectionUnavailable (i.evaluatedAtUnixMs.getD 0)
          "DETECTION_SOURCE_UNAVAILABLE", .transientFailure)
  | refused (exit : TickExit) (h : RateHistory) (atMs : Nat) (baselineCode detectionCode : String) :
      exit.early = true → h.identity = c.history.identity → h.samples = [] →
      detectionCode ∈ ["DETECTION_IDENTITY_CHANGED", "DETECTION_RATE_INVALID"] →
      Ticked c own due i
        (({c with history := h}).clearIntegrity own i.nowNs atMs baselineCode detectionCode, exit)
  | accepted (raw : RawObservation) (nowMs : Nat) (sample : RateSample) (windows : Fin 3 → DetailedRateWindow)
      (left : Components) (exit : TickExit) :
      i.reader.reply (if due then .backgroundAnalysis else .backgroundSample) = .ok raw →
      raw.ifindex = own.ifindex → raw.generation = own.generation →
      i.capturedAtUnixMs = some nowMs → rateSample raw i.nowNs nowMs = some sample →
      c.history.refusal sample true = none →
      (c.history.insert sample).2.detailedWindows i.nowNs = .ok windows →
      Judged {c with history := (c.history.insert sample).2} own due raw.fingerprints windows i.nowNs nowMs
        (left, exit) →
      Ticked c own due i (left, exit)

theorem recordHistoryFailure_frame (h : RateHistory) (ns : Nat) (error : RateHistoryError) :
    (recordHistoryFailure h ns error).identity = h.identity ∧ (recordHistoryFailure h ns error).samples = [] := by
  unfold recordHistoryFailure
  split <;> exact ⟨rfl, rfl⟩

theorem absorb_cases {i : TickInput} {raw : RawObservation}
    (hr : i.reader.reply (if due then .backgroundAnalysis else .backgroundSample) = .ok raw)
    (hif : raw.ifindex = own.ifindex) (hgen : raw.generation = own.generation) (hms : i.capturedAtUnixMs = some nowMs) :
    Ticked c own due i (c.absorb own due raw i.nowNs nowMs) := by
  unfold absorb
  cases hs : rateSample raw i.nowNs nowMs with
  | none => exact .refused .sampleInvalid _ _ _ _ rfl rfl rfl (by decide)
  | some sample =>
    dsimp only
    cases hi : c.history.insert sample with
    | mk verdict h =>
      have hsnd : (c.history.insert sample).2 = h := by rw [hi]
      obtain ⟨hok, hrefusal, -⟩ | ⟨error, herr, hcleared⟩ := RateHistory.insert_cases c.history sample
      · rw [hi] at hok
        cases hok
        dsimp only
        cases hw : h.detailedWindows i.nowNs with
        | error error =>
          obtain ⟨hid, hnil⟩ := recordHistoryFailure_frame h i.nowNs error
          refine .refused .windowsFailed _ _ _ _ rfl (hid.trans ?_) hnil (by decide)
          rw [← hsnd, RateHistory.insert_identity]
        | ok windows =>
          refine .accepted raw nowMs sample windows _ _ hr hif hgen hms hs hrefusal (by rw [hsnd, hw]) ?_
          rw [hsnd]
          exact judge_cases _ own due raw.fingerprints windows i.nowNs nowMs
      · rw [hi] at herr
        cases herr
        obtain ⟨hid, hnil⟩ := recordHistoryFailure_frame h i.nowNs error
        refine .refused .historyRefused _ _ _ _ rfl (hid.trans ?_) hnil (by decide)
        rw [← hsnd, RateHistory.insert_identity]

/-- **A tick leaves in no other way.** -/
theorem tick_cases (c : Components) (own : OwnershipRecord) (due : Bool) (i : TickInput) :
    Ticked c own due i (c.tick own due i) := by
  unfold tick
  cases hr : i.reader.reply (if due then .backgroundAnalysis else .backgroundSample) with
  | error error =>
    dsimp only
    by_cases hcode : isIdentityCode (error.stableCode.getD "OBS_MAP_UNAVAILABLE") = true
    · rw [if_pos hcode]
      exact .refused .identityFailure _ _ _ _ rfl rfl rfl (by decide)
    · rw [if_neg hcode]
      exact .transient error _ hr (by simpa using hcode)
  | ok raw =>
    dsimp only
    by_cases hown : raw.ifindex ≠ own.ifindex ∨ raw.generation ≠ own.generation
    · rw [if_pos hown]
      exact .refused .ownershipMismatch _ _ _ _ rfl rfl rfl (by decide)
    · rw [if_neg hown]
      rw [not_or, Classical.not_not, Classical.not_not] at hown
      cases hms : i.capturedAtUnixMs with
      | none => exact .refused .wallClockUnavailable _ _ _ _ rfl rfl rfl (by decide)
      | some nowMs => exact absorb_cases hr hown.1 hown.2 hms

end Components

/-! ### A quiet interface -/

def quietOwner : OwnershipRecord := ⟨7, 11⟩

/-- Hooks that have seen nothing. -/
def quietHooks : Fin 2 → HookObservation :=
  fun k => ⟨hookOrder k, .zero, fun c => ⟨classOrder c, .zero⟩, .zero⟩

/-- A reader that finds nothing, and no fingerprint when it is asked to scan. -/
def quietReader : Reader where
  reply := fun purpose => .ok ⟨7, 11, .unknown, quietHooks,
    if purpose = .backgroundSample then .notRequested else .available []⟩
  plain := by
    intro raw h
    cases h
    rfl

/-- A tick of the quiet interface, with both clocks. -/
def quietTick (nowNs nowMs : Nat) : TickInput := ⟨nowNs, quietReader, some nowMs, some nowMs⟩

/-- The service just after the start of a session on it. -/
def quietStart : SamplingService := (SamplingService.new.start quietOwner (some 1000) 0).2

end NetworkLoop.Observation
