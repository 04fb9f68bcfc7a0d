import NetworkLoop.Detection.Moves
import NetworkLoop.Observation.Ticks

/-! Integrity failures against transient ones.

A tick that clears the engine for an integrity failure is meant to forget all that was
gathered (`Components.Cleared`); a transient failure is meant to keep it
(`Components.Kept`). The exits before the sample is in the history do it, and so does
the transient exit. The three exits after it clear the engine and the fingerprint window
but leave the sample where it is: `tickContract_iff` says that a tick meets the contract
exactly when none of these three refusals happens (`RefusedLate`). -/
namespace NetworkLoop.Observation
open Library Detection

/-! ### The contract -/

/-- Nothing that was gathered is left. -/
structure Components.Cleared (c : Components) : Prop where
  samples : c.history.samples = []
  series : ∀ k, c.baseline.series k = []
  endpoint : c.fingerprintWindow.endpoint = none
  streaks : c.detection.lastCandidate = .none ∧ c.detection.candidateStreak = 0 ∧ c.detection.clearStreak = 0
  cooldown : c.detection.cooldownStartedAtMonotonicNs = none

/-- All that was gathered is still there. -/
structure Components.Kept (before after : Components) : Prop where
  samples : after.history.samples = before.history.samples
  series : after.baseline.series = before.baseline.series
  endpoint : after.fingerprintWindow.endpoint = before.fingerprintWindow.endpoint
  streaks : after.detection.lastCandidate = before.detection.lastCandidate ∧
    after.detection.candidateStreak = before.detection.candidateStreak ∧
    after.detection.clearStreak = before.detection.clearStreak
  cooldown : after.detection.cooldownStartedAtMonotonicNs = before.detection.cooldownStartedAtMonotonicNs

/-- An exit through `clear_detection_integrity` reaches the engine when the ownership
record makes an identity. -/
def TickExit.ClearsEngine (exit : TickExit) (own : OwnershipRecord) : Prop :=
  exit.clears = true ∧ ∃ identity, newIdentity own.ifindex own.generation = .ok identity

/-- What a tick owes its components. -/
def SamplingService.TickContract (s : SamplingService) (own : OwnershipRecord) (i : TickInput) : Prop :=
  ∀ before after, s.components = some before → (s.sampleTick own i).components = some after →
    ((s.sampleTickInner own i).2.ClearsEngine own → after.Cleared) ∧
    ((s.sampleTickInner own i).2 = .transientFailure → before.Kept after)

namespace Components
variable {c left : Components} {own : OwnershipRecord} {due : Bool} {nowNs nowMs : Nat}
  {windows : Fin 3 → DetailedRateWindow} {fingerprints : RawFingerprints} {exit : TickExit} {i : TickInput}

/-! ### Late refusals -/

/-- The engine does not take the signals of a tick that it is given. -/
def engineRefuses (d : DetectionEngine) (nowNs nowMs : Nat) (signals : DetectionSignals) : Bool :=
  !(nowNs == 0 && d.report.lastTrustworthyAtUnixMs.isNone) && !(d.evaluate nowNs nowMs signals).1.isOk

/-- One of the three components after the history refuses: the baseline its window, `derive`
the windows, or the engine the signals. -/
def refuses (c : Components) (due : Bool) (fingerprints : RawFingerprints) (windows : Fin 3 → DetailedRateWindow)
    (nowNs nowMs : Nat) : Bool :=
  match c.baselineAfter windows nowMs, c.windowAfter due fingerprints nowNs nowMs with
  | (.error _, _), _ => true
  | (.ok _, _), none => false
  | (.ok _, b), some w =>
    match deriveSignals windows b.cached w.report nowMs with
    | .error _ => true
    | .ok signals => engineRefuses c.detection nowNs nowMs signals

/-- The history accepts the sample of the tick and one of the others then refuses. -/
def RefusedLate (c : Components) (own : OwnershipRecord) (due : Bool) (i : TickInput) : Prop :=
  ∃ raw nowMs sample windows,
    i.reader.reply (if due then .backgroundAnalysis else .backgroundSample) = .ok raw ∧
    raw.ifindex = own.ifindex ∧ raw.generation = own.generation ∧
    i.capturedAtUnixMs = some nowMs ∧ rateSample raw i.nowNs nowMs = some sample ∧
    c.history.refusal sample true = none ∧ (c.history.insert sample).2.detailedWindows i.nowNs = .ok windows ∧
    c.refuses due raw.fingerprints windows i.nowNs nowMs = true

theorem Evaluated.refuses_iff {outcome : DetectionOutcome} (h : Evaluated c own windows nowNs nowMs (left, outcome)) :
    (TickExit.judged outcome).clears = true ↔
      ∀ signals, deriveSignals windows c.baseline.cached c.fingerprintWindow.report nowMs = .ok signals →
        engineRefuses c.detection nowNs nowMs signals = true := by
  cases h with
  | signalsRefused error hs =>
    refine iff_of_true rfl (fun signals hs' => ?_)
    rw [hs] at hs'
    cases hs'
  | skipped signals hs hzero hnone =>
    refine iff_of_false (by decide) (fun h => ?_)
    have := h signals hs
    rw [engineRefuses, hzero, hnone] at this
    cases this
  | engineRefused signals error hs hskip he =>
    refine iff_of_true rfl (fun signals' hs' => ?_)
    rw [hs] at hs'
    cases hs'
    rw [engineRefuses, he]
    simpa [Except.isOk, Except.toBool, Option.isSome_iff_ne_none, imp_iff_not_or] using hskip
  | evaluated signals report hs hskip he =>
    refine iff_of_false (by decide) (fun h => ?_)
    have := h signals hs
    rw [engineRefuses, he] at this
    simp [Except.isOk, Except.toBool] at this

/-- After the history, a tick clears the engine exactly when another component refuses. -/
theorem Judged.clears_iff (h : Judged c own due fingerprints windows nowNs nowMs (left, exit)) :
    exit.clears = true ↔ c.refuses due fingerprints windows nowNs nowMs = true := by
  unfold refuses
  cases h with
  | baselineRefused error b hb => simp only [hb, TickExit.clears]
  | fingerprintsRefused b w code hb hdue hw _ _ => simp [hb, hw, TickExit.clears]
  | judged b w _ outcome hb hw he =>
    simp only [hb, hw]
    rw [he.refuses_iff]
    cases hs : deriveSignals windows b.cached w.report nowMs with
    | error error => simp
    | ok signals => simp

theorem Judged.not_transient (h : Judged c own due fingerprints windows nowNs nowMs (left, exit)) :
    exit ≠ .transientFailure := by
  cases h <;> nofun

/-- When nothing refuses, the fingerprint window is the one that the engine was shown. -/
theorem Judged.window {w : FingerprintWindowHistory}
    (h : Judged c own due fingerprints windows nowNs nowMs (left, exit))
    (hrefuses : c.refuses due fingerprints windows nowNs nowMs = false)
    (hw : c.windowAfter due fingerprints nowNs nowMs = some w) : left.fingerprintWindow = w := by
  have hclears : exit.clears ≠ true := fun hc => by
    rw [h.clears_iff.mp hc] at hrefuses
    cases hrefuses
  cases h with
  | baselineRefused error b hb => exact absurd rfl hclears
  | fingerprintsRefused b w' code hb hdue hnone _ _ =>
    rw [hnone] at hw
    cases hw
  | judged b w' _ outcome hb hw' he =>
    rw [hw'] at hw
    cases hw
    cases he with
    | signalsRefused error _ => exact absurd rfl hclears
    | skipped _ _ _ _ => rfl
    | engineRefused _ _ _ _ _ => exact absurd rfl hclears
    | evaluated _ _ _ _ _ => rfl

theorem clearDetectionIntegrity_history (c : Components) (own : OwnershipRecord) (atNs atMs : Nat) (code : String) :
    (c.clearDetectionIntegrity own atNs atMs code).history = c.history := by
  unfold clearDetectionIntegrity
  split <;> rfl

/-- Whatever is refused after the history, the history stays. -/
theorem Judged.history (h : Judged c own due fingerprints windows nowNs nowMs (left, exit)) :
    left.history = c.history := by
  cases h with
  | baselineRefused error b _ => exact clearDetectionIntegrity_history ..
  | fingerprintsRefused b w code _ _ _ _ _ => rfl
  | judged b w _ outcome _ _ he =>
    cases he with
    | signalsRefused error _ => exact clearDetectionIntegrity_history ..
    | skipped _ _ _ _ => rfl
    | engineRefused _ _ _ _ _ => exact clearDetectionIntegrity_history ..
    | evaluated _ _ _ _ _ => rfl

/-! ### The exits -/

/-- `refuses` does not look at the history. -/
theorem refuses_history (c : Components) (h : RateHistory) (due : Bool) (fingerprints : RawFingerprints)
    (windows : Fin 3 → DetailedRateWindow) (nowNs nowMs : Nat) :
    ({c with history := h}).refuses due fingerprints windows nowNs nowMs =
      c.refuses due fingerprints windows nowNs nowMs :=
  rfl

/-- A tick whose sample is accepted. -/
theorem tick_of_accepted {raw : RawObservation} {sample : RateSample}
    (hr : i.reader.reply (if due then .backgroundAnalysis else .backgroundSample) = .ok raw)
    (hif : raw.ifindex = own.ifindex) (hgen : raw.generation = own.generation) (hms : i.capturedAtUnixMs = some nowMs)
    (hs : rateSample raw i.nowNs nowMs = some sample) (hrefusal : c.history.refusal sample true = none)
    (hw : (c.history.insert sample).2.detailedWindows i.nowNs = .ok windows) :
    c.tick own due i =
      ({c with history := (c.history.insert sample).2}).judge own due raw.fingerprints windows i.nowNs nowMs := by
  have hown : ¬(raw.ifindex ≠ own.ifindex ∨ raw.generation ≠ own.generation) := fun h =>
    h.elim (fun h => h hif) (fun h => h hgen)
  unfold tick absorb
  rw [hr]
  dsimp only
  rw [if_neg hown, hms]
  dsimp only
  rw [hs]
  obtain ⟨h, hins⟩ : ∃ h, c.history.insert sample = (.ok (), h) := by
    unfold RateHistory.insert
    rw [hrefusal]
    exact ⟨_, rfl⟩
  dsimp only
  rw [hins] at hw ⊢
  dsimp only at hw ⊢
  rw [hw]

/-- The sample that a tick inserts is in the history. -/
theorem insert_samples_ne_nil {h : RateHistory} {sample : RateSample} (hr : h.refusal sample true = none) :
    (h.insert sample).2.samples ≠ [] := by
  obtain ⟨-, -, hsamples, -⟩ | ⟨error, herr, -⟩ := RateHistory.insert_cases h sample
  · intro hnil
    have := RateHistory.push_getLast h sample
    rw [← hsamples, hnil] at this
    cases this
  · unfold RateHistory.insert at herr
    rw [hr] at herr
    cases herr

/-- A sample is made only under a valid identity. -/
theorem newIdentity_of_rateSample {raw : RawObservation} {sample : RateSample}
    (h : rateSample raw nowNs nowMs = some sample) : ∃ identity, newIdentity raw.ifindex raw.generation = .ok identity := by
  unfold rateSample at h
  cases hid : newIdentity raw.ifindex raw.generation with
  | ok identity => exact ⟨identity, rfl⟩
  | error _ => rw [hid] at h; cases h

/-- An early refusal forgets everything. -/
theorem clearIntegrity_cleared {h : RateHistory} {atNs atMs : Nat} {baselineCode detectionCode : String}
    (hsamples : h.samples = []) (hcode : detectionCode ∈ ["DETECTION_IDENTITY_CHANGED", "DETECTION_RATE_INVALID"])
    {identity : RateIdentity} (hid : newIdentity own.ifindex own.generation = .ok identity) :
    (({c with history := h}).clearIntegrity own atNs atMs baselineCode detectionCode).Cleared := by
  have hvalid : validateErrorCode detectionCode = .ok () := by
    simp only [List.mem_cons, List.not_mem_nil, or_false] at hcode
    obtain rfl | rfl := hcode <;> decide
  unfold clearIntegrity clearDetectionIntegrity
  rw [hid]
  dsimp only
  obtain ⟨effective, hmem⟩ := DetectionEngine.clear_memory c.detection identity atNs atMs detectionCode hvalid
  exact {
    samples := hsamples
    series := fun _ => rfl
    endpoint := rfl
    streaks := ⟨congrArg DetectionEngine.Memory.lastCandidate hmem,
      congrArg DetectionEngine.Memory.candidateStreak hmem, congrArg DetectionEngine.Memory.clearStreak hmem⟩
    cooldown := congrArg DetectionEngine.Memory.cooldownStarted hmem }

/-- A transient failure keeps everything. -/
theorem transient_kept (c : Components) (code baselineCode detectionCode : String) (ms : Nat) :
    c.Kept (({c with
      history := c.history.recordTransientFailure code
      baseline := c.baseline.unavailable ms baselineCode}).markDetectionUnavailable ms detectionCode) := by
  have hmem := DetectionEngine.publishUnavailable_memory c.detection ms detectionCode .evidenceUnavailable
  exact {
    samples := rfl
    series := rfl
    endpoint := rfl
    streaks := ⟨congrArg DetectionEngine.Memory.lastCandidate hmem,
      congrArg DetectionEngine.Memory.candidateStreak hmem, congrArg DetectionEngine.Memory.clearStreak hmem⟩
    cooldown := congrArg DetectionEngine.Memory.cooldownStarted hmem }

/-- A tick that is refused late clears the engine and keeps its sample. -/
theorem tick_of_refusedLate (h : c.RefusedLate own due i) :
    (c.tick own due i).2.ClearsEngine own ∧ ¬(c.tick own due i).1.Cleared := by
  obtain ⟨raw, nowMs, sample, windows, hr, hif, hgen, hms, hs, hrefusal, hw, hrefuses⟩ := h
  rw [tick_of_accepted hr hif hgen hms hs hrefusal hw]
  have hj := judge_cases {c with history := (c.history.insert sample).2} own due raw.fingerprints windows i.nowNs nowMs
  generalize ({c with history := (c.history.insert sample).2} : Components).judge own due raw.fingerprints windows
    i.nowNs nowMs = ticked at hj
  obtain ⟨left, exit⟩ := ticked
  obtain ⟨identity, hid⟩ := newIdentity_of_rateSample hs
  refine ⟨⟨hj.clears_iff.mpr hrefuses, identity, by rw [← hif, ← hgen]; exact hid⟩, fun hcleared => ?_⟩
  have hsamples := hcleared.samples
  rw [hj.history] at hsamples
  exact insert_samples_ne_nil hrefusal hsamples

/-- Any other tick meets its contract. -/
theorem tick_of_not_refusedLate (h : ¬c.RefusedLate own due i) :
    ((c.tick own due i).2.ClearsEngine own → (c.tick own due i).1.Cleared) ∧
      ((c.tick own due i).2 = .transientFailure → c.Kept (c.tick own due i).1) := by
  have ht := tick_cases c own due i
  generalize c.tick own due i = ticked at ht
  cases ht with
  | transient error code hr hcode => exact ⟨fun h => Bool.noConfusion h.1, fun _ => transient_kept ..⟩
  | refused exit h atMs baselineCode detectionCode hearly _ hsamples hcode =>
    refine ⟨fun hclears => ?_, fun htransient => ?_⟩
    · obtain ⟨identity, hid⟩ := hclears.2
      exact clearIntegrity_cleared hsamples hcode hid
    · dsimp only at htransient
      rw [htransient] at hearly
      cases hearly
  | accepted raw nowMs sample windows left exit hr hif hgen hms hs hrefusal hw hj =>
    refine ⟨fun hclears => ?_, fun htransient => absurd htransient hj.not_transient⟩
    have hrefuses := hj.clears_iff.mp hclears.1
    rw [refuses_history] at hrefuses
    exact absurd ⟨raw, nowMs, sample, windows, hr, hif, hgen, hms, hs, hrefusal, hw, hrefuses⟩ h

end Components

/-! ### The service -/

namespace SamplingService
variable {s : SamplingService} {own : OwnershipRecord} {i : TickInput}

/-- Recording transitions leaves the components and the deadline alone. -/
theorem captureIncidentTransitions_frame (s : SamplingService) :
    s.captureIncidentTransitions.components = s.components ∧
      s.captureIncidentTransitions.nextAnalysisAtNs = s.nextAnalysisAtNs := by
  unfold captureIncidentTransitions
  split
  · exact ⟨rfl, rfl⟩
  · dsimp only
    split <;> exact ⟨rfl, rfl⟩

theorem cacheBackgroundSnapshot_frame (s : SamplingService) (c : Components) (raw : RawObservation)
    (nowNs nowMs : Nat) :
    (s.cacheBackgroundSnapshot c raw nowNs nowMs).components = s.components ∧
      (s.cacheBackgroundSnapshot c raw nowNs nowMs).nextAnalysisAtNs = s.nextAnalysisAtNs := by
  unfold cacheBackgroundSnapshot
  split
  · exact ⟨rfl, rfl⟩
  · split
    · exact ⟨rfl, rfl⟩
    · split <;> exact ⟨rfl, rfl⟩

/-- A tick of the service is a tick of its components. -/
theorem sampleTickInner_of_schedule (own : OwnershipRecord) {c : Components} {due : Bool} {next : Option Nat}
    (hc : s.components = some c) (hs : s.schedule i.nowNs = some (due, next)) :
    (s.sampleTickInner own i).1.components = some (c.tick own due i).1 ∧
      (s.sampleTickInner own i).1.nextAnalysisAtNs = next ∧ (s.sampleTickInner own i).2 = (c.tick own due i).2 := by
  unfold sampleTickInner
  rw [hc]
  dsimp only
  rw [hs]
  dsimp only
  split
  · rename_i hexit _ _
    obtain ⟨hcomponents, hnext⟩ := cacheBackgroundSnapshot_frame
      {s with components := some (c.tick own due i).1, nextAnalysisAtNs := next} (c.tick own due i).1 _ i.nowNs _
    exact ⟨hcomponents, hnext, hexit.symm⟩
  · exact ⟨rfl, rfl, rfl⟩

/-- A tick whose deadline cannot be moved on does nothing. -/
theorem sampleTickInner_of_overflow (own : OwnershipRecord) {c : Components} (hc : s.components = some c)
    (hs : s.schedule i.nowNs = none) : s.sampleTickInner own i = (s, .deadlineOverflow) := by
  unfold sampleTickInner
  rw [hc]
  dsimp only
  rw [hs]

/-- The components refuse the tick after its sample is in the history. -/
def RefusedLate (s : SamplingService) (own : OwnershipRecord) (i : TickInput) : Prop :=
  ∃ c due next, s.components = some c ∧ s.schedule i.nowNs = some (due, next) ∧ c.RefusedLate own due i

/-- **A tick forgets everything on an integrity failure and nothing on a transient one,
unless it is refused after its sample is in the history.** -/
theorem tickContract_iff (s : SamplingService) (own : OwnershipRecord) (i : TickInput) :
    s.TickContract own i ↔ ¬s.RefusedLate own i := by
  constructor
  · intro hcontract hlate
    obtain ⟨c, due, next, hc, hs, hl⟩ := hlate
    obtain ⟨hcomponents, -, hexit⟩ := sampleTickInner_of_schedule own hc hs
    obtain ⟨hclears, hkept⟩ := Components.tick_of_refusedLate hl
    refine hkept ((hcontract c _ hc ?_).1 (by rw [hexit]; exact hclears))
    rw [sampleTick, (captureIncidentTransitions_frame _).1, hcomponents]
  · intro hlate before after hc hafter
    rw [sampleTick, (captureIncidentTransitions_frame _).1] at hafter
    cases hs : s.schedule i.nowNs with
    | none =>
      rw [sampleTickInner_of_overflow own hc hs]
      exact ⟨fun h => Bool.noConfusion h.1, nofun⟩
    | some scheduled =>
      obtain ⟨due, next⟩ := scheduled
      obtain ⟨hcomponents, -, hexit⟩ := sampleTickInner_of_schedule own hc hs
      rw [hexit]
      rw [hcomponents] at hafter
      cases hafter
      exact Components.tick_of_not_refusedLate fun hl => hlate ⟨before, due, next, hc, hs, hl⟩

/-- The wall clock steps back before the second tick. The engine refuses the tick and is
cleared; both samples stay in the history. -/
theorem tickContract_fails_when_wall_clock_steps_back :
    ¬(quietStart.sampleTick quietOwner (quietTick 1000000000 2000)).TickContract quietOwner
      (quietTick 2000000000 1500) := by
  intro h
  have hexit : ((quietStart.sampleTick quietOwner (quietTick 1000000000 2000)).sampleTickInner quietOwner
      (quietTick 2000000000 1500)).2 = .judged .engineRefused := by
    decide +kernel
  have hbefore : ((quietStart.sampleTick quietOwner (quietTick 1000000000 2000)).components).isSome = true := by
    decide +kernel
  have hafter : (((quietStart.sampleTick quietOwner (quietTick 1000000000 2000)).sampleTick quietOwner
      (quietTick 2000000000 1500)).components.map fun c => c.history.samples.length) = some 2 := by
    decide +kernel
  obtain ⟨before, hb⟩ := Option.isSome_iff_exists.mp hbefore
  obtain ⟨after, ha, hlength⟩ := Option.map_eq_some_iff.mp hafter
  have hcleared := (h before after hb ha).1 ⟨by rw [hexit]; rfl, ⟨7, 11, by decide, by decide⟩, by rfl⟩
  rw [hcleared.samples] at hlength
  cases hlength

end SamplingService

end NetworkLoop.Observation
