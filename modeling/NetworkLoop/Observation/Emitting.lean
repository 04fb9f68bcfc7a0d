import NetworkLoop.Detection.Invariant
import NetworkLoop.Observation.Ticks
import NetworkLoop.Observation.Recording

/-! The jobs of a sampling service.

The service passes transitions on to its recorder and keeps the jobs in a queue, which drops what does
not fit. `Emits` says that nothing is dropped: the jobs in the queue follow those that were taken out of
it, in the order of the recorder. It rests on the bound of the engine's history (`Ringed`), which is half
of the queue's: one call cannot make more jobs than that while the queue is taken out after each. -/
namespace NetworkLoop.Detection.DetectionEngine

/-! ### The history of the engine -/

/-- Neither copy of the history is longer than its capacity. -/
structure Ringed (e : DetectionEngine) : Prop where
  kept : e.transitions.length ≤ detectionTransitionCapacity
  reported : e.report.transitions.length ≤ detectionTransitionCapacity

variable {e e' : DetectionEngine}

theorem ringed_new (identity : RateIdentity) (startNs startMs : Nat) : (new identity startNs startMs).Ringed :=
  ⟨Nat.zero_le _, Nat.zero_le _⟩

theorem recordTransition_kept {previousState currentState : DetectionState} {reason : DetectionTransitionReason} {atMs : Nat}
    (h : e.transitions.length ≤ detectionTransitionCapacity)
    (hrecord : e.recordTransition previousState currentState reason atMs = .ok e') :
    e'.transitions.length ≤ detectionTransitionCapacity := by
  unfold recordTransition at hrecord
  cases hnext : checkedAdd e.transitionSequence 1 with
  | none =>
    rw [hnext] at hrecord
    cases hrecord
  | some sequence =>
    rw [hnext] at hrecord
    cases hrecord
    have hlength := kept_length h
    show (kept e.transitions ++ [_]).length ≤ _
    rw [List.length_append, List.length_singleton]
    exact hlength

theorem finish_ringed (h : e.transitions.length ≤ detectionTransitionCapacity) : e.finish.2.Ringed := by
  unfold finish
  dsimp only
  split <;> exact ⟨h, h⟩

theorem publishUnavailable_ringed (h : e.Ringed) (nowMs : Nat) (code : String) (reason : DetectionTransitionReason) (resetSignals : Bool) :
    (e.publishUnavailable nowMs code reason resetSignals).2.Ringed := by
  unfold publishUnavailable
  split
  · exact h
  · dsimp only
    split
    · split
      case h_1 error heq => exact ⟨h.kept, h.reported⟩
      case h_2 recorded heq => exact finish_ringed (recordTransition_kept (e := e.markUnavailable nowMs code resetSignals) h.kept heq)
    · exact finish_ringed h.kept

theorem clear_ringed (h : e.Ringed) (identity : RateIdentity) (clearedNs clearedMs : Nat) (code : String) :
    (e.clear identity clearedNs clearedMs code).2.Ringed := by
  unfold clear
  split
  · exact h
  · split
    · exact ringed_new identity clearedNs clearedMs
    · exact publishUnavailable_ringed (e := e.reset clearedNs) ⟨h.kept, h.reported⟩ clearedMs code _ _

theorem updateCandidateStreak_ringed (h : e.Ringed) (candidate : StormCandidate) : (e.updateCandidateStreak candidate).Ringed := by
  unfold updateCandidateStreak
  split
  · exact ⟨h.kept, h.reported⟩
  · split <;> exact ⟨h.kept, h.reported⟩

theorem commit_ringed (h : e.Ringed) (published current : DetectionState) (d : Decision) (nowMs : Nat) :
    (e.commit published current d nowMs).2.Ringed := by
  unfold commit
  split
  · split
    case h_1 error heq => exact h
    case h_2 recorded heq => exact finish_ringed (recordTransition_kept h.kept heq)
  · exact finish_ringed h.kept

theorem evaluate_ringed (h : e.Ringed) (nowNs nowMs : Nat) (signals : DetectionSignals) : (e.evaluate nowNs nowMs signals).2.Ringed := by
  have hcounted := updateCandidateStreak_ringed h signals.candidate
  unfold evaluate
  split
  · exact h
  · split
    · exact h
    · dsimp only
      split
      · exact hcounted
      case h_2 d heq =>
        exact commit_ringed (e := (e.updateCandidateStreak signals.candidate).absorb d nowNs nowMs signals)
          ⟨hcounted.kept, hcounted.reported⟩ _ _ d nowMs

end NetworkLoop.Detection.DetectionEngine

namespace NetworkLoop.Observation
open Library Detection

/-! ### The components -/

namespace Components
variable {c : Components} {own : OwnershipRecord} {nowNs nowMs : Nat}

theorem clearDetectionIntegrity_ringed (h : c.detection.Ringed) (own : OwnershipRecord) (atNs atMs : Nat) (code : String) :
    (c.clearDetectionIntegrity own atNs atMs code).detection.Ringed := by
  unfold clearDetectionIntegrity
  split
  · exact h
  · exact DetectionEngine.clear_ringed h _ atNs atMs code

theorem clearIntegrity_ringed (h : c.detection.Ringed) {history : RateHistory} (own : OwnershipRecord) (atNs atMs : Nat)
    (baselineCode detectionCode : String) :
    (({ c with history := history }).clearIntegrity own atNs atMs baselineCode detectionCode).detection.Ringed :=
  clearDetectionIntegrity_ringed (c := { c with history := history, baseline := c.baseline.clearIntegrity c.baseline.identity atMs baselineCode })
    h own atNs atMs detectionCode

theorem Evaluated.ringed {windows : Fin 3 → DetailedRateWindow} {left : Components × DetectionOutcome}
    (h : Evaluated c own windows nowNs nowMs left) (hc : c.detection.Ringed) : left.1.detection.Ringed := by
  cases h with
  | signalsRefused error hsignals => exact clearDetectionIntegrity_ringed hc own nowNs nowMs _
  | skipped signals hsignals hzero hnone => exact hc
  | engineRefused signals error hsignals hskip herror =>
    exact clearDetectionIntegrity_ringed (c := { c with detection := (c.detection.evaluate nowNs nowMs signals).2 })
      (DetectionEngine.evaluate_ringed hc nowNs nowMs signals) own nowNs nowMs _
  | evaluated signals report hsignals hskip hok => exact DetectionEngine.evaluate_ringed hc nowNs nowMs signals

theorem Judged.ringed {due : Bool} {fingerprints : RawFingerprints} {windows : Fin 3 → DetailedRateWindow}
    {left : Components × TickExit} (h : Judged c own due fingerprints windows nowNs nowMs left) (hc : c.detection.Ringed) :
    left.1.detection.Ringed := by
  cases h with
  | baselineRefused error b hbaseline => exact clearDetectionIntegrity_ringed (c := { c with baseline := b }) hc own nowNs nowMs _
  | fingerprintsRefused b w code => exact DetectionEngine.publishUnavailable_ringed hc nowMs code _ _
  | judged b w left outcome hbaseline hwindow hevaluated => exact hevaluated.ringed hc

/-- A tick keeps the engine's history within its capacity. -/
theorem tick_ringed (hc : c.detection.Ringed) (own : OwnershipRecord) (due : Bool) (i : TickInput) :
    (c.tick own due i).1.detection.Ringed := by
  have hticked := tick_cases c own due i
  generalize c.tick own due i = left at hticked
  cases hticked with
  | transient error code hreply hcode => exact DetectionEngine.publishUnavailable_ringed hc _ _ _ _
  | refused exit h atMs baselineCode detectionCode =>
    exact clearIntegrity_ringed hc own i.nowNs atMs baselineCode detectionCode
  | accepted raw nowMs sample windows left exit hreply hifindex hgeneration hms hsample hrefusal hwindows hjudged => exact hjudged.ringed hc

theorem refuseCurrent_ringed (hc : c.detection.Ringed) {history : RateHistory} (own : OwnershipRecord) (nowNs nowMs : Nat)
    (error : RateHistoryError) : (({ c with history := history }).refuseCurrent own nowNs nowMs error).detection.Ringed :=
  clearIntegrity_ringed (c := { c with history := history }) hc own nowNs nowMs _ _

theorem currentFrom_ringed (hc : c.detection.Ringed) (interface : String) (own : OwnershipRecord) (raw : RawObservation) (nowNs nowMs : Nat) :
    (c.currentFrom interface own raw nowNs nowMs).2.detection.Ringed := by
  unfold currentFrom
  split
  · exact hc
  · split
    · exact clearIntegrity_ringed hc own nowNs nowMs _ _
    · split
      · exact refuseCurrent_ringed hc own nowNs nowMs _
      · dsimp only
        split
        · exact refuseCurrent_ringed hc own nowNs nowMs _
        · split
          · exact refuseCurrent_ringed hc own nowNs nowMs _
          · split <;> exact hc

/-- So does a request. -/
theorem currentSnapshot_ringed (hc : c.detection.Ringed) (interface : String) (own : OwnershipRecord) (i : RequestInput) :
    (c.currentSnapshot interface own i).2.detection.Ringed := by
  unfold currentSnapshot
  split
  · dsimp only
    split
    · exact clearIntegrity_ringed hc own i.nowNs _ _ _
    · exact hc
  · split
    · exact clearIntegrity_ringed hc own i.nowNs _ _ _
    · split
      · exact clearIntegrity_ringed hc own i.nowNs _ _ _
      · exact currentFrom_ringed hc interface own _ i.nowNs _

theorem pause_ringed (hc : c.detection.Ringed) (nowNs : Nat) (baselineMs detectionMs : Option Nat) :
    (c.pause nowNs baselineMs detectionMs).detection.Ringed :=
  DetectionEngine.publishUnavailable_ringed hc _ _ _ _

end Components

/-! ### The recorder behind the service -/

section
variable {taken : EventId → Prop} {ids : Nat → Except IncidentRecorderError EventId} {r : IncidentRecorder}
  {log : List IncidentWriteJob}

/-- The loop of a capture makes one job for each transition at most, in the order of the recorder. -/
theorem captureAll_recorded (h : Recorded taken ids r log) (hids : DrawsNew taken ids) (snapshot : Option ObservationSnapshot)
    (transitions : List DetectionTransition) :
    Recorded taken ids (r.captureAll snapshot transitions).1 ((r.captureAll snapshot transitions).2.reverse ++ log) ∧
      (r.captureAll snapshot transitions).2.length ≤ transitions.length := by
  induction transitions generalizing r log with
  | nil => exact ⟨h, le_rfl⟩
  | cons t rest ih =>
    cases snapshot with
    | none =>
      have hafter := ih (h.silent (r.acknowledgeWithoutOutput_called t))
      exact ⟨hafter.1, hafter.2.trans (Nat.le_succ _)⟩
    | some s =>
      have hstep := h.step hids (.record t s)
      rw [IncidentRecorder.captureAll]
      rcases hrecord : r.record t s with ⟨error | job, r'⟩
      · have hstep : Recorded taken ids (r.record t s).2 ((r.record t s).1.toOption.join.toList ++ log) := hstep
        rw [hrecord] at hstep
        exact ⟨hstep, Nat.zero_le _⟩
      · have hstep : Recorded taken ids (r.record t s).2 ((r.record t s).1.toOption.join.toList ++ log) := hstep
        rw [hrecord] at hstep
        obtain ⟨hafter, hlength⟩ := ih hstep
        have hjob : job.toList.length ≤ 1 := by cases job <;> simp
        have hself : job.toList.reverse = job.toList := by cases job <;> rfl
        refine ⟨?_, ?_⟩
        · dsimp only
          rw [List.reverse_append, List.append_assoc, hself]
          exact hafter
        · show (job.toList ++ (r'.captureAll (some s) rest).2).length ≤ _
          rw [List.length_append, List.length_cons]
          dsimp only at hlength
          omega

theorem acknowledgeAll_recorded (h : Recorded taken ids r log) (transitions : List DetectionTransition) :
    Recorded taken ids (r.acknowledgeAll transitions) log := by
  induction transitions generalizing r with
  | nil => exact h
  | cons t rest ih =>
    have hstep := h.silent (r.acknowledgeWithoutOutput_called t)
    rw [IncidentRecorder.acknowledgeAll]
    rcases hacknowledge : r.acknowledgeWithoutOutput t with ⟨error | _, r'⟩
    · rw [hacknowledge] at hstep
      exact hstep
    · rw [hacknowledge] at hstep
      exact ih hstep

/-- A queue with room for all jobs drops none. -/
theorem foldl_pushIncidentJob (queue jobs : List IncidentWriteJob) (h : queue.length + jobs.length ≤ incidentOutputQueueCapacity) :
    jobs.foldl pushIncidentJob queue = queue ++ jobs := by
  induction jobs generalizing queue with
  | nil => exact (List.append_nil queue).symm
  | cons job rest ih =>
    rw [List.length_cons] at h
    have hroom : pushIncidentJob queue job = queue ++ [job] := if_pos (by omega)
    rw [List.foldl_cons, hroom, ih _ (by rw [List.length_append, List.length_singleton]; omega), List.append_assoc]
    rfl

end

/-! ### The service -/

/-- The service's recorder and its jobs, those in the queue and those that were taken out before. -/
structure SamplingService.Emits (taken : EventId → Prop) (ids : Nat → Except IncidentRecorderError EventId) (s : SamplingService)
    (log : List IncidentWriteJob) : Prop where
  fresh : DrawsNew taken ids
  ringed : ∀ c ∈ s.components, c.detection.Ringed
  recorded : ∀ r ∈ s.incidentRecorder, Recorded taken ids r (s.incidentJobs.reverse ++ log)
  queued : s.incidentRecorder = none → s.incidentJobs = []

namespace SamplingService.Emits
variable {taken : EventId → Prop} {ids : Nat → Except IncidentRecorderError EventId} {s : SamplingService} {log : List IncidentWriteJob}

/-- The room that a capture may need. -/
def captureRoom : Nat := incidentOutputQueueCapacity - detectionTransitionCapacity

theorem with_components (h : s.Emits taken ids log) {s' : SamplingService} (hrecorder : s'.incidentRecorder = s.incidentRecorder)
    (hjobs : s'.incidentJobs = s.incidentJobs) (hringed : ∀ c ∈ s'.components, c.detection.Ringed) : s'.Emits taken ids log where
  fresh := h.fresh
  ringed := hringed
  recorded := by
    rw [hrecorder, hjobs]
    exact h.recorded
  queued := by
    rw [hrecorder, hjobs]
    exact h.queued

theorem with_recorder (h : s.Emits taken ids log) {r : IncidentRecorder} {jobs : List IncidentWriteJob}
    {snapshot : Option ObservationSnapshot} (hrecorded : Recorded taken ids r (jobs.reverse ++ log)) :
    ({ s with incidentRecorder := some r, incidentJobs := jobs, latestIncidentSnapshot := snapshot } : SamplingService).Emits taken ids log where
  fresh := h.fresh
  ringed := h.ringed
  recorded := by
    rintro _ ⟨⟩
    exact hrecorded
  queued := fun hnone => nomatch hnone

theorem captureIncidentTransitions (h : s.Emits taken ids log) (hroom : s.incidentJobs.length ≤ captureRoom) :
    s.captureIncidentTransitions.Emits taken ids log := by
  unfold SamplingService.captureIncidentTransitions
  split
  · exact h
  case h_2 c hc =>
    dsimp only
    split
    · exact h.with_components rfl rfl h.ringed
    case h_2 r hr =>
      have hrecorded := h.recorded r hr
      obtain ⟨hafter, hlength⟩ := captureAll_recorded hrecorded h.fresh
        (s.latestIncidentSnapshot.map fun snapshot => refreshSnapshot snapshot c.detection.report) (r.unseen c.detection.report.transitions)
      have hunseen : (r.unseen c.detection.report.transitions).length ≤ detectionTransitionCapacity :=
        (List.length_filter_le _ _).trans (h.ringed c hc).reported
      have hfits : s.incidentJobs.length + (r.captureAll (s.latestIncidentSnapshot.map fun snapshot =>
          refreshSnapshot snapshot c.detection.report) (r.unseen c.detection.report.transitions)).2.length ≤ incidentOutputQueueCapacity := by
        unfold captureRoom at hroom
        have hhalf : detectionTransitionCapacity ≤ incidentOutputQueueCapacity := by decide
        omega
      refine h.with_recorder ?_
      rw [foldl_pushIncidentJob _ _ hfits, List.reverse_append, List.append_assoc]
      exact hafter

theorem cacheBackgroundSnapshot_jobs (s : SamplingService) (c : Components) (raw : RawObservation) (nowNs nowMs : Nat) :
    (s.cacheBackgroundSnapshot c raw nowNs nowMs).incidentRecorder = s.incidentRecorder ∧
      (s.cacheBackgroundSnapshot c raw nowNs nowMs).incidentJobs = s.incidentJobs ∧
      (s.cacheBackgroundSnapshot c raw nowNs nowMs).components = s.components := by
  unfold cacheBackgroundSnapshot
  split
  · exact ⟨rfl, rfl, rfl⟩
  · split
    · exact ⟨rfl, rfl, rfl⟩
    · split <;> exact ⟨rfl, rfl, rfl⟩

/-- A tick before its capture. -/
theorem sampleTickInner (h : s.Emits taken ids log) (own : OwnershipRecord) (i : TickInput) :
    (s.sampleTickInner own i).1.Emits taken ids log ∧ (s.sampleTickInner own i).1.incidentJobs = s.incidentJobs := by
  unfold SamplingService.sampleTickInner
  cases hc : s.components with
  | none => exact ⟨h, rfl⟩
  | some c =>
    dsimp only
    split
    case h_1 => exact ⟨h, rfl⟩
    case h_2 due next hschedule =>
      have hringed : ∀ c' ∈ some (c.tick own due i).1, c'.detection.Ringed := fun c' hc' => by
        cases hc'
        exact Components.tick_ringed (h.ringed c hc) own due i
      split
      case h_1 outcome raw nowMs hexit hreply hclock =>
        obtain ⟨hrecorder, hjobs, hcomponents⟩ := cacheBackgroundSnapshot_jobs
          { s with components := some (c.tick own due i).1, nextAnalysisAtNs := next } (c.tick own due i).1 raw i.nowNs nowMs
        exact ⟨h.with_components hrecorder hjobs (hcomponents ▸ hringed), hjobs⟩
      case h_2 => exact ⟨h.with_components rfl rfl hringed, rfl⟩

theorem sampleTick (h : s.Emits taken ids log) (hroom : s.incidentJobs.length ≤ captureRoom) (own : OwnershipRecord) (i : TickInput) :
    (s.sampleTick own i).Emits taken ids log := by
  obtain ⟨hticked, hjobs⟩ := h.sampleTickInner own i
  exact hticked.captureIncidentTransitions (hjobs ▸ hroom)

theorem pause (h : s.Emits taken ids log) (hroom : s.incidentJobs.length ≤ captureRoom) (nowNs : Nat) (baselineMs detectionMs : Option Nat) :
    (s.pause nowNs baselineMs detectionMs).Emits taken ids log := by
  refine captureIncidentTransitions (h.with_components rfl rfl fun c' hc' => ?_) hroom
  obtain ⟨c, hc, rfl⟩ := Option.map_eq_some_iff.mp hc'
  exact Components.pause_ringed (h.ringed c hc) nowNs baselineMs detectionMs

theorem acknowledgeRequestTransitions (h : s.Emits taken ids log) : s.acknowledgeRequestTransitions.Emits taken ids log := by
  unfold SamplingService.acknowledgeRequestTransitions
  split
  case h_1 c r hc hr =>
    have hrecorded := h.recorded r hr
    exact h.with_recorder (acknowledgeAll_recorded hrecorded _)
  case h_2 => exact h

/-- A request answers from the components, which it may change. -/
theorem answered (h : s.Emits taken ids log) {c : Components} (hc : s.components = some c) (interface : String) (own : OwnershipRecord)
    (i : RequestInput) :
    ({ s with components := some (c.currentSnapshot interface own i).2 } : SamplingService).acknowledgeRequestTransitions.Emits taken ids log := by
  refine acknowledgeRequestTransitions (h.with_components rfl rfl fun c' hc' => ?_)
  cases hc'
  exact Components.currentSnapshot_ringed (h.ringed c hc) interface own i

theorem observe (h : s.Emits taken ids log) (requested active : String) (own : OwnershipRecord) (i : RequestInput) :
    (s.observe requested active own i).2.Emits taken ids log := by
  unfold SamplingService.observe
  split
  · exact h.acknowledgeRequestTransitions
  · split
    · exact h.acknowledgeRequestTransitions
    case h_2 c hc => exact h.answered hc requested own i

theorem status (h : s.Emits taken ids log) (requested : Option String) (active : String) (own : OwnershipRecord) (i : RequestInput) :
    (s.status requested active own i).2.Emits taken ids log := by
  unfold SamplingService.status
  split
  · exact h
  · split
    · exact h.acknowledgeRequestTransitions
    case h_2 c hc => exact h.answered hc active own i

theorem generationEnded (h : s.Emits taken ids log) (hroom : s.incidentJobs.length < incidentOutputQueueCapacity) (wallMs : Option Nat) :
    (s.generationEnded wallMs).Emits taken ids log := by
  unfold SamplingService.generationEnded
  split
  case h_2 => exact h
  case h_1 snapshot r hsnapshot hr =>
    have hrecorded := h.recorded r hr
    have hstep : Recorded taken ids (r.generationEnded (wallMs.getD snapshot.capturedAtUnixMs) snapshot).2
        ((r.generationEnded (wallMs.getD snapshot.capturedAtUnixMs) snapshot).1.toOption.join.toList ++ (s.incidentJobs.reverse ++ log)) :=
      hrecorded.step h.fresh (.generationEnded (wallMs.getD snapshot.capturedAtUnixMs) snapshot)
    rcases hended : r.generationEnded (wallMs.getD snapshot.capturedAtUnixMs) snapshot with ⟨error | job, r'⟩
    · rw [hended] at hstep
      exact h.with_recorder hstep
    · rw [hended] at hstep
      cases job with
      | none => exact h.with_recorder hstep
      | some job =>
        have hpushed : pushIncidentJob s.incidentJobs job = s.incidentJobs ++ [job] := if_pos hroom
        refine h.with_recorder ?_
        rw [hpushed, List.reverse_append]
        exact hstep

theorem takeIncidentJobs (h : s.Emits taken ids log) : s.takeIncidentJobs.2.Emits taken ids (s.takeIncidentJobs.1.reverse ++ log) :=
  ⟨h.fresh, h.ringed, h.recorded, fun _ => rfl⟩

theorem start (h : s.Emits taken ids log) (own : OwnershipRecord) (wallMs : Option Nat) (nowNs : Nat) :
    (s.start own wallMs nowNs).2.Emits taken ids log ∧ (s.start own wallMs nowNs).2.incidentRecorder = s.incidentRecorder ∧
      (s.start own wallMs nowNs).2.incidentJobs = s.incidentJobs := by
  unfold SamplingService.start
  -- the deadline is a large numeral, which nothing may compute with
  generalize checkedAdd nowNs analysisPeriodNs = deadline
  cases newIdentity own.ifindex own.generation with
  | error error => exact ⟨h, rfl, rfl⟩
  | ok identity =>
    cases wallMs with
    | none => exact ⟨h, rfl, rfl⟩
    | some startedAtUnixMs =>
      have hringed : ∀ c ∈ some (Components.start identity nowNs startedAtUnixMs), c.detection.Ringed := fun c hc => by
        cases hc
        exact DetectionEngine.ringed_new identity nowNs startedAtUnixMs
      cases deadline with
      | none => exact ⟨h.with_components rfl rfl hringed, rfl, rfl⟩
      | some deadline => exact ⟨h.with_components rfl rfl hringed, rfl, rfl⟩

end SamplingService.Emits

/-- A service without a recorder emits nothing, whatever it starts with later. -/
theorem SamplingService.emits_idle {taken : EventId → Prop} {ids : Nat → Except IncidentRecorderError EventId} {s : SamplingService}
    (hids : DrawsNew taken ids) (hcomponents : ∀ c ∈ s.components, c.detection.Ringed) (hrecorder : s.incidentRecorder = none)
    (hjobs : s.incidentJobs = []) (log : List IncidentWriteJob) : s.Emits taken ids log :=
  ⟨hids, hcomponents, fun _ hr => absurd (hrecorder ▸ hr) (Option.not_mem_none _), fun _ => hjobs⟩

end NetworkLoop.Observation
