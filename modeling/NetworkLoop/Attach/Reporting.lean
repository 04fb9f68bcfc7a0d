import NetworkLoop.Observation.Emitting
import NetworkLoop.Attach.Sessions

/-! The incidents that the control reports.

Every call leaves the queue of the sampling service empty, so no job is dropped on the way from the
recorder to the output. `reported_in_order` says of every run, over all its attachments, that what was
submitted is a stream of jobs in the order of the recorders, and that the incident a status calls active
is the one of the last job. -/
namespace NetworkLoop.Attach
open Library Observation JobStream
open Control (InterfaceName)

/-! ### The sources of event IDs -/

abbrev EventIdSource := Nat → Except IncidentRecorderError EventId

/-- The sources that the attach calls of a run have, in their order. -/
def eventIdSources (calls : List ControlCall) : List EventIdSource :=
  calls.filterMap fun call =>
    match call with
    | .attach _ _ i => some i.idSource
    | _ => none

def DrawnBy (used : List EventIdSource) (eventId : EventId) : Prop := ∃ ids ∈ used, ∃ k, ids k = .ok eventId

/-- No ID is drawn twice, from one source or from two. -/
inductive Unrepeated : List EventIdSource → Prop where
  | nil : Unrepeated []
  | cons {ids : EventIdSource} {used : List EventIdSource} (new : DrawsNew (DrawnBy used) ids) (earlier : Unrepeated used) :
      Unrepeated (ids :: used)

/-! ### What the control has reported -/

/-- The recorder has made the jobs that are submitted and those that are queued, and their IDs come from
the sources so far. -/
structure Reporting {τ : Type} (used : List EventIdSource) (c : TransactionIsolatedControl τ) : Prop where
  output : c.incidentOutput = true
  stream : JobStream c.submitted
  drawn : ∀ job ∈ c.submitted, DrawnBy used job.eventId
  emits : ∃ taken ids, (∀ eventId, taken eventId → DrawnBy used eventId) ∧ (∀ k eventId, ids k = .ok eventId → DrawnBy used eventId) ∧
    c.sampling.Emits taken ids c.submitted

/-- Between two calls nothing is queued, and there is a recorder at most while there is a session. -/
structure Reported {τ : Type} (used : List EventIdSource) (c : TransactionIsolatedControl τ) : Prop extends Reporting used c where
  flushed : c.sampling.incidentJobs = []
  idle : c.active = none → c.sampling.incidentRecorder = none

section
variable {τ : Type} {p : AttachmentPorts τ} {load : RunId → τ → Except PortError OwnershipRecord} {c : TransactionIsolatedControl τ}
  {used : List EventIdSource}

theorem DrawnBy.later {eventId : EventId} (h : DrawnBy used eventId) (ids : EventIdSource) : DrawnBy (ids :: used) eventId := by
  obtain ⟨source, hmem, hdrawn⟩ := h
  exact ⟨source, List.mem_cons_of_mem _ hmem, hdrawn⟩

theorem Reported.later (h : Reported used c) (ids : EventIdSource) : Reported (ids :: used) c := by
  obtain ⟨taken, source, htaken, hsource, hemits⟩ := h.emits
  exact ⟨⟨h.output, h.stream, fun job hjob => (h.drawn job hjob).later ids, taken, source,
    fun eventId hid => (htaken eventId hid).later ids, fun k eventId hid => (hsource k eventId hid).later ids, hemits⟩, h.flushed, h.idle⟩

/-- A change of the service that keeps its account. -/
theorem Reporting.sampling (h : Reporting used c) {sampling : SamplingService}
    (hsampling : ∀ {taken : EventId → Prop} {ids : EventIdSource}, c.sampling.Emits taken ids c.submitted →
      sampling.Emits taken ids c.submitted) : Reporting used { c with sampling := sampling } := by
  obtain ⟨taken, ids, htaken, hids, hemits⟩ := h.emits
  exact ⟨h.output, h.stream, h.drawn, taken, ids, htaken, hids, hsampling hemits⟩

/-- The jobs that are flushed continue the stream. -/
theorem Reporting.flush (h : Reporting used c) : Reporting used c.flushIncidentJobs := by
  obtain ⟨taken, ids, htaken, hids, hemits⟩ := h.emits
  have hsubmitted : c.flushIncidentJobs.submitted = c.sampling.incidentJobs.reverse ++ c.submitted := if_pos h.output
  have hjobs : JobStream (c.sampling.incidentJobs.reverse ++ c.submitted) ∧
      ∀ job ∈ c.sampling.incidentJobs.reverse ++ c.submitted, DrawnBy used job.eventId := by
    cases hr : c.sampling.incidentRecorder with
    | none =>
      rw [hemits.queued hr]
      exact ⟨h.stream, h.drawn⟩
    | some r =>
      have hrecorded := hemits.recorded r hr
      refine ⟨hrecorded.stream, fun job hjob => ?_⟩
      rcases hrecorded.drawn job hjob with hold | ⟨k, -, hid⟩
      · exact htaken _ hold
      · exact hids k _ hid
  refine ⟨h.output, hsubmitted ▸ hjobs.1, hsubmitted ▸ hjobs.2, taken, ids, htaken, hids, ?_⟩
  rw [hsubmitted]
  exact hemits.takeIncidentJobs

theorem reported_of_flush (h : Reporting used c) (hidle : c.active = none → c.sampling.incidentRecorder = none) :
    Reported used c.flushIncidentJobs :=
  ⟨h.flush, rfl, hidle⟩

theorem no_room {s : SamplingService} (h : s.incidentJobs = []) : s.incidentJobs.length ≤ SamplingService.Emits.captureRoom := by
  rw [h]
  exact Nat.zero_le _

/-! ### The calls -/

theorem Reported.sampleTick (h : Reported used c) (i : TickInput) : Reported used (c.sampleTick load i).2 := by
  unfold TransactionIsolatedControl.sampleTick
  split
  · exact h
  case h_2 active hactive =>
    split
    · exact h
    · split
      · exact h
      case h_2 ownership hownership =>
        exact reported_of_flush (h.toReporting.sampling fun hemits => hemits.sampleTick (no_room h.flushed) ownership.observed i)
          fun hnone => absurd (hactive.symm.trans hnone) (Option.some_ne_none active)

theorem acknowledgeRequestTransitions_jobs (s : SamplingService) : s.acknowledgeRequestTransitions.incidentJobs = s.incidentJobs := by
  unfold SamplingService.acknowledgeRequestTransitions
  split <;> rfl

theorem observe_jobs (s : SamplingService) (requested active : String) (own : Observation.OwnershipRecord) (i : RequestInput) :
    (s.observe requested active own i).2.incidentJobs = s.incidentJobs := by
  unfold SamplingService.observe
  split
  · exact acknowledgeRequestTransitions_jobs s
  · split
    · exact acknowledgeRequestTransitions_jobs s
    · exact acknowledgeRequestTransitions_jobs _

theorem status_jobs (s : SamplingService) (requested : Option String) (active : String) (own : Observation.OwnershipRecord) (i : RequestInput) :
    (s.status requested active own i).2.incidentJobs = s.incidentJobs := by
  unfold SamplingService.status
  split
  · rfl
  · split
    · exact acknowledgeRequestTransitions_jobs s
    · exact acknowledgeRequestTransitions_jobs _

theorem Reported.observe (h : Reported used c) (interface : InterfaceName) (i : RequestInput) :
    Reported used (c.observe load interface i).2 := by
  unfold TransactionIsolatedControl.observe
  split
  · exact h
  case h_2 active hactive =>
    split
    · exact h
    case h_2 ownership hownership =>
      exact ⟨h.toReporting.sampling fun hemits => hemits.observe _ _ _ i, (observe_jobs ..).trans h.flushed,
        fun hnone => absurd (hactive.symm.trans hnone) (Option.some_ne_none active)⟩

theorem Reported.status (h : Reported used c) (interface : Option InterfaceName) (i : RequestInput) (health : Evidence.OutputHealth) :
    Reported used (c.status load interface i health).2 := by
  unfold TransactionIsolatedControl.status
  split
  · exact h
  case h_2 active hactive =>
    split
    · exact h
    · split
      · exact h
      case h_2 ownership hownership =>
        exact ⟨h.toReporting.sampling fun hemits => hemits.status _ _ _ i, (status_jobs ..).trans h.flushed,
          fun hnone => absurd (hactive.symm.trans hnone) (Option.some_ne_none active)⟩

/-- The session is paused, and has been flushed. -/
theorem Reported.pause (h : Reported used c) (active : ActiveIsolatedSession) (i : DetachInput) (transaction : AttachmentTransaction τ) :
    Reported used { c.pause active i with transaction := transaction } := by
  have hpaused := (h.toReporting.sampling fun hemits =>
    hemits.pause (no_room h.flushed) i.pausedAtMonotonicNs i.baselineUnixMs i.detectionUnixMs).flush
  exact ⟨⟨hpaused.output, hpaused.stream, hpaused.drawn, hpaused.emits⟩, rfl, fun hnone => nomatch hnone⟩

/-- The last job is flushed before the service forgets its recorder. -/
theorem Reported.finish (h : Reported used c) (i : DetachInput) : Reported used (c.finish i) := by
  have hroom : c.sampling.incidentJobs.length < incidentOutputQueueCapacity := by
    rw [h.flushed]
    decide
  have hended := (h.toReporting.sampling fun hemits => hemits.generationEnded hroom i.endedAtUnixMs).flush
  obtain ⟨taken, ids, htaken, hids, hemits⟩ := hended.emits
  exact ⟨⟨hended.output, hended.stream, hended.drawn, taken, ids, htaken, hids,
    SamplingService.emits_idle hemits.fresh (fun _ hc => absurd hc (Option.not_mem_none _)) rfl rfl _⟩, rfl, fun _ => rfl⟩

theorem Reported.detach (h : Reported used c) (runId : RunId) (i : DetachInput) : Reported used (c.detach p load runId i).2 := by
  unfold TransactionIsolatedControl.detach
  split
  · exact h
  case h_2 active hdetachable =>
    split
    · exact h.pause active i _
    · exact (h.pause active i _).finish i

theorem Reported.shutdown (h : Reported used c) (i : DetachInput) : Reported used (c.shutdown p load i).2 := by
  unfold TransactionIsolatedControl.shutdown
  split
  · exact h
  · exact h.detach _ i

/-- A session starts with a recorder of its own. -/
theorem Reported.activate (h : Reported used c) (hidle : c.active = none) {i : AttachInput} (hnew : DrawsNew (DrawnBy used) i.idSource)
    (interface : InterfaceName) (runId : RunId) (session : AttachmentSession) :
    Reported (i.idSource :: used) (c.activate interface runId i session).2 := by
  obtain ⟨taken, ids, htaken, hids, hemits⟩ := h.emits
  obtain ⟨hstarted, hrecorder, hjobs⟩ := hemits.start session.ownership.observed i.startedAtUnixMs i.startedAtMonotonicNs
  have hnone := hrecorder.trans (h.idle hidle)
  have hempty := hjobs.trans h.flushed
  have hstays : Reported (i.idSource :: used) { c with
      sampling := (c.sampling.start session.ownership.observed i.startedAtUnixMs i.startedAtMonotonicNs).2 } :=
    Reported.later (c := { c with sampling := (c.sampling.start session.ownership.observed i.startedAtUnixMs i.startedAtMonotonicNs).2 })
      ⟨⟨h.output, h.stream, h.drawn, taken, ids, htaken, hids, hstarted⟩, hempty, fun _ => hnone⟩ i.idSource
  unfold TransactionIsolatedControl.activate
  rcases hstart : c.sampling.start session.ownership.observed i.startedAtUnixMs i.startedAtMonotonicNs with ⟨error | _, sampling⟩
  · rw [hstart] at hstays
    exact hstays
  · rw [hstart] at hstays hstarted
    dsimp only
    unfold SamplingService.startIncidentGeneration
    cases IncidentIdentity.new interface.value session.ownership.observed.ifindex session.ownership.observed.generation with
    | error error => exact hstays
    | ok identity =>
      refine ⟨⟨h.output, h.stream, hstays.drawn, DrawnBy used, i.idSource, fun eventId hid => hid.later i.idSource,
        fun k eventId hid => ⟨i.idSource, List.mem_cons_self, k, hid⟩, hnew, hstarted.ringed, fun r hr => ?_, fun _ => rfl⟩, rfl,
        fun hactive => nomatch hactive⟩
      cases hr
      exact recorded_new h.stream h.drawn identity

theorem Reported.attach (h : Reported used c) {i : AttachInput} (hnew : DrawsNew (DrawnBy used) i.idSource) (interface : InterfaceName)
    (runId : RunId) : Reported (i.idSource :: used) (c.attach p interface runId i).2 := by
  unfold TransactionIsolatedControl.attach
  split
  · exact h.later i.idSource
  case isFalse hbusy =>
    have hidle : c.active = none := by simpa using hbusy
    split
    · exact h.later i.idSource
    · split
      case h_1 error transaction hattach =>
        exact Reported.later (c := { c with transaction := transaction }) ⟨⟨h.output, h.stream, h.drawn, h.emits⟩, h.flushed, h.idle⟩ i.idSource
      case h_2 session transaction hattach =>
        exact Reported.activate (c := { c with transaction := transaction })
          ⟨⟨h.output, h.stream, h.drawn, h.emits⟩, h.flushed, h.idle⟩ hidle hnew interface runId session

/-! ### Runs -/

theorem Unrepeated.of_append {later used : List EventIdSource} (h : Unrepeated (later ++ used)) : Unrepeated used := by
  induction later with
  | nil => exact h
  | cons ids rest ih =>
    cases h with
    | cons new earlier => exact ih earlier

theorem Reported.call (h : Reported used c) (call : ControlCall) {rest : List ControlCall}
    (hids : Unrepeated ((eventIdSources (call :: rest)).reverse ++ used)) :
    ∃ used', (eventIdSources (call :: rest)).reverse ++ used = (eventIdSources rest).reverse ++ used' ∧
      Reported used' (call.run p load c).2 := by
  cases call with
  | attach interface runId i =>
    have hsources : (eventIdSources (.attach interface runId i :: rest)).reverse ++ used =
        (eventIdSources rest).reverse ++ (i.idSource :: used) := by
      rw [show eventIdSources (.attach interface runId i :: rest) = i.idSource :: eventIdSources rest from rfl, List.reverse_cons,
        List.append_assoc]
      rfl
    rw [hsources] at hids ⊢
    cases hids.of_append with
    | cons new earlier => exact ⟨_, rfl, h.attach new interface runId⟩
  | detach runId i => exact ⟨used, rfl, h.detach runId i⟩
  | sampleTick i => exact ⟨used, rfl, h.sampleTick i⟩
  | observe interface i => exact ⟨used, rfl, h.observe interface i⟩
  | status interface i health => exact ⟨used, rfl, h.status interface i health⟩
  | shutdown i => exact ⟨used, rfl, h.shutdown i⟩

theorem Reported.run (h : Reported used c) (calls : List ControlCall) (hids : Unrepeated ((eventIdSources calls).reverse ++ used)) :
    ∃ used', Reported used' (ControlCall.runAll p load c calls) := by
  induction calls generalizing c used with
  | nil => exact ⟨used, h⟩
  | cons call rest ih =>
    obtain ⟨used', hsources, hafter⟩ : ∃ used', (eventIdSources (call :: rest)).reverse ++ used = (eventIdSources rest).reverse ++ used' ∧
      Reported used' (call.run p load c).2 := h.call call hids
    exact ih hafter (hsources ▸ hids)

end

end NetworkLoop.Attach
