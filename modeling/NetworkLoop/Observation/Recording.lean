import NetworkLoop.Library.Recorder
import NetworkLoop.Observation.Incident

/-! The jobs of an incident recorder.

An incident is opened by a first revision, goes on with the next ones and ends with a revision
that closes it; nothing else is written in between (`JobStream`). `jobs_in_order` says that the
jobs of every run of a recorder are such a stream, whatever transitions and snapshots it is
given and whichever calls fail, and `no_job_past_the_limit` what the revision limit does: an
incident that has spent it is never closed, and no other one is opened before `reset_identity`. -/
namespace NetworkLoop.Observation
open Library Detection

/-! ### The calls -/

/-- `reset_identity`. An incident that is still open ends without another revision. -/
def IncidentRecorder.resetIdentity (r : IncidentRecorder) (identity : IncidentIdentity) : IncidentRecorder :=
  {r with
    identity := identity
    active := none
    lastTransitionSequence := 0
    suppressedDuplicateCount := 0}

inductive RecorderCall where
  | record (t : DetectionTransition) (s : ObservationSnapshot)
  | acknowledgeWithoutOutput (t : DetectionTransition)
  | generationEnded (occurredAtUnixMs : Nat) (s : ObservationSnapshot)
  | resetIdentity (identity : IncidentIdentity)

namespace RecorderCall

def apply (r : IncidentRecorder) : RecorderCall → IncidentRecorder
  | .record t s => (r.record t s).2
  | .acknowledgeWithoutOutput t => (r.acknowledgeWithoutOutput t).2
  | .generationEnded occurredAtUnixMs s => (r.generationEnded occurredAtUnixMs s).2
  | .resetIdentity identity => r.resetIdentity identity

/-- The job that the call returns. -/
def job (r : IncidentRecorder) : RecorderCall → Option IncidentWriteJob
  | .record t s => (r.record t s).1.toOption.join
  | .generationEnded occurredAtUnixMs s => (r.generationEnded occurredAtUnixMs s).1.toOption.join
  | _ => none

def resets : RecorderCall → Bool
  | .resetIdentity _ => true
  | _ => false

end RecorderCall

/-- The observer keeps the jobs. -/
def recording : Recorder IncidentRecorder RecorderCall IncidentWriteJob where
  step := RecorderCall.apply
  note := fun r call log => (call.job r).toList ++ log

/-! ### Streams of jobs -/

/-- The codes of the revisions that close an incident. -/
def AlertCode.closes : AlertCode → Bool
  | .incidentClosed | .generationEnded => true
  | _ => false

/-- A job that is valid and closes its incident exactly if its code says so. -/
structure SoundJob (job : IncidentWriteJob) : Prop where
  valid : job.validate = true
  closed : job.closedAtUnixMs = if job.alertCode.closes then some job.occurredAtUnixMs else none

/-- The job is the next revision of the incident that `last` has left open. -/
structure Continues (last job : IncidentWriteJob) : Prop where
  isOpen : last.closedAtUnixMs = none
  eventId : job.eventId = last.eventId
  revision : job.revision = last.revision + 1
  interface : job.interface = last.interface
  ifindex : job.ifindex = last.ifindex
  interfaceGeneration : job.interfaceGeneration = last.interfaceGeneration
  openedAtUnixMs : job.openedAtUnixMs = last.openedAtUnixMs
  transitionSequence : last.transitionSequence ≤ job.transitionSequence

/-- Jobs, the newest first: each opens an incident of its own or continues the one before it. -/
inductive JobStream : List IncidentWriteJob → Prop where
  | nil : JobStream []
  | opens {job : IncidentWriteJob} {log : List IncidentWriteJob} (earlier : JobStream log) (sound : SoundJob job)
      (new : ∀ old ∈ log, old.eventId ≠ job.eventId) (revision : job.revision = 1)
      (isOpen : job.closedAtUnixMs = none) : JobStream (job :: log)
  | continues {job last : IncidentWriteJob} {log : List IncidentWriteJob} (earlier : JobStream (last :: log))
      (sound : SoundJob job) (next : Continues last job) : JobStream (job :: last :: log)

namespace JobStream
variable {job last : IncidentWriteJob} {log : List IncidentWriteJob}

theorem sound (h : JobStream log) : ∀ job ∈ log, SoundJob job := by
  induction h with
  | nil => exact fun _ hmem => absurd hmem List.not_mem_nil
  | opens _ sound _ _ _ ih => exact List.forall_mem_cons.mpr ⟨sound, ih⟩
  | continues _ sound _ ih => exact List.forall_mem_cons.mpr ⟨sound, ih⟩

/-- The revisions of an event in a stream, the newest first. -/
def revisionsOf (eventId : EventId) (log : List IncidentWriteJob) : List Nat :=
  (log.filter fun job => job.eventId = eventId).map (·.revision)

theorem revisionsOf_cons_self : revisionsOf job.eventId (job :: log) = job.revision :: revisionsOf job.eventId log := by
  rw [revisionsOf, List.filter_cons_of_pos (by simp)]
  rfl

theorem revisionsOf_cons_ne {eventId : EventId} (h : job.eventId ≠ eventId) :
    revisionsOf eventId (job :: log) = revisionsOf eventId log := by
  rw [revisionsOf, List.filter_cons_of_neg (by simpa using h)]
  rfl

theorem revisionsOf_eq_nil {eventId : EventId} (h : ∀ job ∈ log, job.eventId ≠ eventId) : revisionsOf eventId log = [] := by
  rw [revisionsOf, List.filter_eq_nil_iff.mpr fun job hmem => by simpa using h job hmem]
  rfl

/-- The newest job has the newest revision of its event. -/
theorem revisionsOf_head (h : JobStream log) :
    ∀ job ∈ log.head?, revisionsOf job.eventId log = (List.range' 1 job.revision).reverse := by
  induction h with
  | nil => exact fun _ hmem => absurd hmem (Option.not_mem_none _)
  | opens _ _ new revision _ _ =>
    rintro _ ⟨⟩
    rw [revisionsOf_cons_self, revisionsOf_eq_nil new, revision]
    rfl
  | continues _ _ next ih =>
    rintro _ ⟨⟩
    rw [revisionsOf_cons_self, next.eventId, ih _ rfl, next.revision, List.range'_concat, List.reverse_append, Nat.one_mul,
      Nat.add_comm]
    rfl

/-- **The revisions of every event are numbered from one on, without a gap.** -/
theorem revisions (h : JobStream log) (eventId : EventId) : ∃ n, revisionsOf eventId log = (List.range' 1 n).reverse := by
  induction h with
  | nil => exact ⟨0, rfl⟩
  | @opens job log earlier sound new revision isOpen ih =>
    by_cases heq : job.eventId = eventId
    · subst heq
      exact ⟨_, (opens earlier sound new revision isOpen).revisionsOf_head job rfl⟩
    · rw [revisionsOf_cons_ne heq]
      exact ih
  | @continues job last log earlier sound next ih =>
    by_cases heq : job.eventId = eventId
    · subst heq
      exact ⟨_, (continues earlier sound next).revisionsOf_head job rfl⟩
    · rw [revisionsOf_cons_ne heq]
      exact ih

/-- `old` is an earlier revision of the job's event. -/
structure Earlier (old job : IncidentWriteJob) : Prop where
  isOpen : old.closedAtUnixMs = none
  revision : old.revision < job.revision
  interface : old.interface = job.interface
  ifindex : old.ifindex = job.ifindex
  interfaceGeneration : old.interfaceGeneration = job.interfaceGeneration
  openedAtUnixMs : old.openedAtUnixMs = job.openedAtUnixMs

theorem earlier_of_continues (h : Continues last job) : Earlier last job :=
  ⟨h.isOpen, h.revision ▸ Nat.lt_succ_self _, h.interface.symm, h.ifindex.symm, h.interfaceGeneration.symm, h.openedAtUnixMs.symm⟩

theorem Earlier.trans {old : IncidentWriteJob} (h : Earlier old last) (h' : Earlier last job) : Earlier old job :=
  ⟨h.isOpen, h.revision.trans h'.revision, h.interface.trans h'.interface, h.ifindex.trans h'.ifindex,
    h.interfaceGeneration.trans h'.interfaceGeneration, h.openedAtUnixMs.trans h'.openedAtUnixMs⟩

/-- What has gone before of an event is open and has a smaller revision. -/
theorem pairwise (h : JobStream log) : log.Pairwise fun job old => old.eventId = job.eventId → Earlier old job := by
  induction h with
  | nil => exact .nil
  | opens _ _ new _ _ ih => exact .cons (fun old hold heq => absurd heq (new old hold)) ih
  | continues _ _ next ih =>
    refine .cons (fun old hold heq => ?_) ih
    rcases List.mem_cons.mp hold with rfl | hold
    · exact earlier_of_continues next
    · exact ((List.rel_of_pairwise_cons ih hold) (heq.trans next.eventId)).trans (earlier_of_continues next)

/-- Two revisions of one event come one after the other. -/
theorem compare (h : JobStream log) {x y : IncidentWriteJob} (hx : x ∈ log) (hy : y ∈ log) (heq : x.eventId = y.eventId) :
    x = y ∨ Earlier x y ∨ Earlier y x := by
  have : Std.Symm fun x y : IncidentWriteJob => x.eventId = y.eventId → x = y ∨ Earlier x y ∨ Earlier y x := by
    refine ⟨fun x y hxy heq => ?_⟩
    rcases hxy heq.symm with rfl | hxy | hyx
    · exact .inl rfl
    · exact .inr (.inr hxy)
    · exact .inr (.inl hyx)
  have hpairwise : log.Pairwise fun x y => x.eventId = y.eventId → x = y ∨ Earlier x y ∨ Earlier y x :=
    h.pairwise.imp fun hrel heq => .inr (.inr (hrel heq.symm))
  exact hpairwise.forall_of_forall (fun _ _ _ => .inl rfl) hx hy heq

theorem revision_le (h : SoundJob job) : job.revision ≤ evidenceMaxRevisionsPerEvent := by
  have hvalid := h.valid
  simp only [IncidentRevisionV1.validate, Bool.and_eq_true, Bool.not_eq_true', Bool.or_eq_false_iff, decide_eq_false_iff_not] at hvalid
  omega

theorem revision_pos (h : SoundJob job) : 0 < job.revision := by
  have hvalid := h.valid
  simp only [IncidentRevisionV1.validate, Bool.and_eq_true, Bool.not_eq_true', Bool.or_eq_false_iff, decide_eq_false_iff_not] at hvalid
  omega

/-- No event has more revisions than the limit. -/
theorem revisions_le (h : JobStream log) {eventId : EventId} {n : Nat} (hn : revisionsOf eventId log = (List.range' 1 n).reverse) :
    n ≤ evidenceMaxRevisionsPerEvent := by
  rcases Nat.eq_zero_or_pos n with rfl | hpos
  · exact Nat.zero_le _
  · have hmem : n ∈ revisionsOf eventId log := by
      rw [hn, List.mem_reverse, List.mem_range'_1]
      omega
    obtain ⟨job, hjob, rfl⟩ := List.mem_map.mp hmem
    exact revision_le (h.sound job (List.mem_of_mem_filter hjob))

end JobStream

/-! ### One call -/

namespace IncidentRecorder
variable {r : IncidentRecorder} {active : ActiveIncident} {t : DetectionTransition} {code : AlertCode}
  {closedAtUnixMs : Option Nat} {s : ObservationSnapshot} {job : IncidentWriteJob}

theorem job_eq_ok : r.job active t code closedAtUnixMs s = .ok job ↔
    job = r.revisionOf active t code closedAtUnixMs s ∧ job.validate = true := by
  rw [IncidentRecorder.job]
  split
  case isTrue hvalid =>
    constructor
    · rintro ⟨⟩
      exact ⟨rfl, hvalid⟩
    · rintro ⟨rfl, -⟩
      rfl
  case isFalse hinvalid =>
    constructor
    · rintro ⟨⟩
    · rintro ⟨rfl, hvalid⟩
      exact absurd hvalid hinvalid

/-- The incident is the same one and has the same revision. -/
structure SameIncident (active active' : ActiveIncident) : Prop where
  eventId : active'.eventId = active.eventId
  revision : active'.revision = active.revision
  openedAtUnixMs : active'.openedAtUnixMs = active.openedAtUnixMs

theorem SameIncident.refl (active : ActiveIncident) : SameIncident active active := ⟨rfl, rfl, rfl⟩

theorem sameIncident_refl (active : Option ActiveIncident) : Option.Rel SameIncident active active := by
  cases active with
  | none => exact .none
  | some active => exact .some (.refl active)

/-- What a call does other than `reset_identity`: it returns no job and leaves the incident, or
its job opens an incident or continues the active one. -/
inductive Called (r : IncidentRecorder) : Option IncidentWriteJob → IncidentRecorder → Prop where
  | silent {r' : IncidentRecorder} (identity : r'.identity = r.identity) (idSource : r'.idSource = r.idSource)
      (drawn : r.drawn ≤ r'.drawn) (sequence : r.lastTransitionSequence ≤ r'.lastTransitionSequence)
      (active : Option.Rel SameIncident r.active r'.active) : Called r none r'
  | opened {eventId : EventId} {t : DetectionTransition} {code : AlertCode} {s : ObservationSnapshot} {job : IncidentWriteJob}
      (idle : r.active = none) (drew : r.idSource r.drawn = .ok eventId) (stays : code.closes = false)
      (made : r.job ⟨eventId, 1, t.occurredAtUnixMs, t.currentState⟩ t code none s = .ok job) :
      Called r (some job) {r with
        drawn := r.drawn + 1
        active := some ⟨eventId, 1, t.occurredAtUnixMs, t.currentState⟩
        lastTransitionSequence := t.sequence}
  | continued {active next : ActiveIncident} {t : DetectionTransition} {code : AlertCode} {s : ObservationSnapshot}
      {job : IncidentWriteJob} (busy : r.active = some active) (room : active.revision < evidenceMaxRevisionsPerEvent)
      (later : r.lastTransitionSequence ≤ t.sequence) (eventId : next.eventId = active.eventId)
      (revision : next.revision = active.revision + 1) (openedAt : next.openedAtUnixMs = active.openedAtUnixMs)
      (made : r.job next t code (if code.closes then some t.occurredAtUnixMs else none) s = .ok job) :
      Called r (some job) {r with
        active := if code.closes then none else some next
        lastTransitionSequence := t.sequence}

theorem Called.same (r : IncidentRecorder) : Called r none r :=
  .silent rfl rfl le_rfl le_rfl (sameIncident_refl _)

theorem Called.suppress (r : IncidentRecorder) : Called r none r.suppress :=
  .silent rfl rfl le_rfl le_rfl (sameIncident_refl _)

theorem acknowledgeWithoutOutput_called (r : IncidentRecorder) (t : DetectionTransition) :
    Called r none (r.acknowledgeWithoutOutput t).2 := by
  rw [acknowledgeWithoutOutput]
  split
  case isTrue => exact .suppress r
  case isFalse hlater =>
    split
    case isTrue => exact .same r
    case isFalse =>
      refine .silent rfl rfl le_rfl (Nat.le_of_not_le hlater) ?_
      show Option.Rel SameIncident r.active (r.active.map _)
      cases r.active with
      | none => exact .none
      | some active => exact .some ⟨rfl, rfl, rfl⟩

theorem forState_stays {state : DetectionState} (h : state.isAnomalous = true) :
    ((AlertCode.forState state).getD .stormConfirmed).closes = false := by
  cases state <;> first | rfl | cases h

theorem openIncident_called (hidle : r.active = none) (hanomalous : t.currentState.isAnomalous = true) :
    Called r (r.openIncident t s).1.toOption.join (r.openIncident t s).2 := by
  have hdrawn : Called r none {r with drawn := r.drawn + 1} := .silent rfl rfl (Nat.le_succ _) le_rfl (sameIncident_refl _)
  rw [openIncident]
  dsimp only
  cases hid : r.idSource r.drawn with
  | error error => exact hdrawn
  | ok eventId =>
    dsimp only
    cases hjob : r.job ⟨eventId, 1, t.occurredAtUnixMs, t.currentState⟩ t
        ((AlertCode.forState t.currentState).getD .stormConfirmed) none s with
    | error error => exact hdrawn
    | ok job => exact .opened hidle hid (forState_stays hanomalous) hjob

theorem followUpCode_closes {state : DetectionState} (h : followUpCode state = some code) :
    code.closes = true ↔ code = .incidentClosed := by
  cases state <;> cases h <;> decide

theorem continueIncident_called (hbusy : r.active = some active) (hlater : r.lastTransitionSequence ≤ t.sequence) :
    Called r (r.continueIncident active t s).1.toOption.join (r.continueIncident active t s).2 := by
  rw [continueIncident]
  cases hcode : followUpCode t.currentState with
  | none =>
    refine .silent rfl rfl le_rfl hlater ?_
    rw [hbusy]
    exact .some ⟨rfl, rfl, rfl⟩
  | some code =>
    dsimp only
    split
    case isTrue => exact .same r
    case isFalse hroom =>
      have hcloses : (if code = .incidentClosed then some t.occurredAtUnixMs else none) =
          if code.closes then some t.occurredAtUnixMs else none := by simp only [followUpCode_closes hcode]
      rw [hcloses]
      cases hjob : r.job {active with revision := active.revision + 1, lastState := t.currentState} t code
          (if code.closes then some t.occurredAtUnixMs else none) s with
      | error error => exact .same r
      | ok job =>
        have hcalled := @Called.continued r active {active with revision := active.revision + 1, lastState := t.currentState} t
          code s job hbusy (Nat.not_le.mp hroom) hlater rfl rfl rfl hjob
        cases hclosed : code.closes
        · rw [hclosed] at hcalled
          exact hcalled
        · rw [hclosed] at hcalled
          exact hcalled

theorem record_called (r : IncidentRecorder) (t : DetectionTransition) (s : ObservationSnapshot) :
    Called r (r.record t s).1.toOption.join (r.record t s).2 := by
  rw [record]
  split
  case isTrue => exact .same r
  case isFalse =>
    split
    case isTrue => exact .suppress r
    case isFalse hlater =>
      have hlater := Nat.le_of_not_le hlater
      split
      case isTrue => exact .same r
      case isFalse =>
        cases hactive : r.active with
        | some active => exact continueIncident_called hactive hlater
        | none =>
          dsimp only
          split
          case isTrue hanomalous => exact openIncident_called hactive hanomalous
          case isFalse =>
            refine .silent rfl rfl le_rfl hlater ?_
            rw [hactive]
            exact .none

theorem generationEnded_called (r : IncidentRecorder) (occurredAtUnixMs : Nat) (s : ObservationSnapshot) :
    Called r (r.generationEnded occurredAtUnixMs s).1.toOption.join (r.generationEnded occurredAtUnixMs s).2 := by
  rw [generationEnded]
  split
  case isTrue => exact .same r
  case isFalse =>
    cases hactive : r.active with
    | none => exact .same r
    | some active =>
      dsimp only
      split
      case isTrue => exact .same r
      case isFalse hroom =>
        split
        case isTrue => exact .same r
        case isFalse =>
          cases hjob : r.job {active with revision := active.revision + 1}
              ⟨r.lastTransitionSequence, active.lastState, active.lastState, .samplerPaused, occurredAtUnixMs⟩
              .generationEnded (some occurredAtUnixMs) s with
          | error error => exact .same r
          | ok job =>
            exact @Called.continued r active {active with revision := active.revision + 1}
              ⟨r.lastTransitionSequence, active.lastState, active.lastState, .samplerPaused, occurredAtUnixMs⟩
              .generationEnded s job hactive (Nat.not_le.mp hroom) le_rfl rfl rfl rfl hjob

theorem called {call : RecorderCall} (h : call.resets = false) (r : IncidentRecorder) :
    Called r (call.job r) (call.apply r) := by
  cases call with
  | record t s => exact r.record_called t s
  | acknowledgeWithoutOutput t => exact r.acknowledgeWithoutOutput_called t
  | generationEnded occurredAtUnixMs s => exact r.generationEnded_called occurredAtUnixMs s
  | resetIdentity identity => cases h

end IncidentRecorder

/-! ### Runs -/

variable {taken : EventId → Prop} {ids : Nat → Except IncidentRecorderError EventId} {r : IncidentRecorder}
  {log : List IncidentWriteJob} {active : ActiveIncident}

/-- The source does not draw an ID twice. -/
def DrawsFresh (ids : Nat → Except IncidentRecorderError EventId) : Prop :=
  ∀ i j eventId, ids i = .ok eventId → ids j = .ok eventId → i = j

/-- The source draws no ID twice, and none that is taken. -/
structure DrawsNew (taken : EventId → Prop) (ids : Nat → Except IncidentRecorderError EventId) : Prop where
  fresh : DrawsFresh ids
  apart : ∀ k eventId, ids k = .ok eventId → ¬taken eventId

/-- The newest job is the last revision of the active incident. -/
structure Documents (r : IncidentRecorder) (active : ActiveIncident) (last : IncidentWriteJob) : Prop where
  isOpen : last.closedAtUnixMs = none
  eventId : last.eventId = active.eventId
  revision : last.revision = active.revision
  openedAtUnixMs : last.openedAtUnixMs = active.openedAtUnixMs
  interface : last.interface = r.identity.interface
  ifindex : last.ifindex = r.identity.ifindex
  interfaceGeneration : last.interfaceGeneration = r.identity.generation
  transitionSequence : last.transitionSequence ≤ r.lastTransitionSequence

/-- What a recorder and the jobs so far, its own and those with taken IDs, have to do with each other. -/
structure Recorded (taken : EventId → Prop) (ids : Nat → Except IncidentRecorderError EventId) (r : IncidentRecorder)
    (log : List IncidentWriteJob) : Prop where
  stream : JobStream log
  idSource : r.idSource = ids
  drawn : ∀ job ∈ log, taken job.eventId ∨ ∃ k < r.drawn, ids k = .ok job.eventId
  active : ∀ active ∈ r.active, ∃ last ∈ log.head?, Documents r active last

/-- A revision that was made is sound and has what the recorder put in. -/
theorem soundJob_of_made {next : ActiveIncident} {t : DetectionTransition} {code : AlertCode} {s : ObservationSnapshot}
    {job : IncidentWriteJob} (h : r.job next t code (if code.closes then some t.occurredAtUnixMs else none) s = .ok job) :
    SoundJob job := by
  obtain ⟨rfl, hvalid⟩ := IncidentRecorder.job_eq_ok.mp h
  exact ⟨hvalid, rfl⟩

/-- A recorder that starts where all IDs so far are taken. -/
theorem recorded_new (hstream : JobStream log) (htaken : ∀ job ∈ log, taken job.eventId) (identity : IncidentIdentity) :
    Recorded taken ids (.new identity ids) log :=
  ⟨hstream, rfl, fun job hjob => .inl (htaken job hjob), fun _ hactive => absurd hactive (Option.not_mem_none _)⟩

theorem Recorded.reset (h : Recorded taken ids r log) (identity : IncidentIdentity) : Recorded taken ids (r.resetIdentity identity) log :=
  ⟨h.stream, h.idSource, h.drawn, fun _ hactive => absurd hactive (Option.not_mem_none _)⟩

theorem Recorded.silent (h : Recorded taken ids r log) {r' : IncidentRecorder} (hcalled : IncidentRecorder.Called r none r') :
    Recorded taken ids r' log := by
  cases hcalled with
  | silent identity idSource drawn sequence active =>
    refine ⟨h.stream, idSource.trans h.idSource, fun job hjob => ?_, fun active' hactive' => ?_⟩
    · exact (h.drawn job hjob).imp_right fun ⟨k, hk, hid⟩ => ⟨k, hk.trans_le drawn, hid⟩
    · rw [Option.mem_def] at hactive'
      rw [hactive'] at active
      generalize hbefore : r.active = before at active
      cases active with
      | some same =>
        obtain ⟨last, hlast, hdoc⟩ := h.active _ hbefore
        refine ⟨last, hlast, ⟨hdoc.isOpen, hdoc.eventId.trans same.eventId.symm, hdoc.revision.trans same.revision.symm,
          hdoc.openedAtUnixMs.trans same.openedAtUnixMs.symm, ?_, ?_, ?_, hdoc.transitionSequence.trans sequence⟩⟩
        · rw [identity]
          exact hdoc.interface
        · rw [identity]
          exact hdoc.ifindex
        · rw [identity]
          exact hdoc.interfaceGeneration

/-- A job that the recorder returns is the next one of the stream. -/
theorem Recorded.made (h : Recorded taken ids r log) (hids : DrawsNew taken ids) {job : IncidentWriteJob} {r' : IncidentRecorder}
    (hcalled : IncidentRecorder.Called r (some job) r') : Recorded taken ids r' (job :: log) := by
  cases hcalled with
  | @opened eventId t code s _ idle drew stays made =>
    have hmade : r.job ⟨eventId, 1, t.occurredAtUnixMs, t.currentState⟩ t code
        (if code.closes then some t.occurredAtUnixMs else none) s = .ok job := by
      rw [stays]
      exact made
    have hsound := soundJob_of_made hmade
    obtain ⟨rfl, -⟩ := IncidentRecorder.job_eq_ok.mp made
    rw [h.idSource] at drew
    refine ⟨.opens h.stream hsound (fun old hold heq => ?_) rfl rfl, h.idSource, fun job hjob => ?_, fun active hactive => ?_⟩
    · rcases h.drawn old hold with htaken | ⟨k, hk, hid⟩
      · rw [heq] at htaken
        exact hids.apart r.drawn eventId drew htaken
      · rw [heq] at hid
        exact absurd (hids.fresh k r.drawn eventId hid drew) hk.ne
    · rcases List.mem_cons.mp hjob with rfl | hjob
      · exact .inr ⟨r.drawn, Nat.lt_succ_self _, drew⟩
      · exact (h.drawn job hjob).imp_right fun ⟨k, hk, hid⟩ => ⟨k, Nat.lt_succ_of_lt hk, hid⟩
    · cases hactive
      exact ⟨_, rfl, ⟨rfl, rfl, rfl, rfl, rfl, rfl, rfl, le_rfl⟩⟩
  | @continued active next t code s _ busy room later eventId revision openedAt made =>
    have hsound := soundJob_of_made made
    obtain ⟨rfl, -⟩ := IncidentRecorder.job_eq_ok.mp made
    obtain ⟨last, hlast, hdoc⟩ := h.active active busy
    obtain ⟨rest, rfl⟩ : ∃ rest, log = last :: rest := List.head?_eq_some_iff.mp hlast
    have hnext : Continues last (r.revisionOf next t code (if code.closes then some t.occurredAtUnixMs else none) s) :=
      ⟨hdoc.isOpen, eventId.trans hdoc.eventId.symm, revision.trans (congrArg (· + 1) hdoc.revision.symm), hdoc.interface.symm,
        hdoc.ifindex.symm, hdoc.interfaceGeneration.symm, openedAt.trans hdoc.openedAtUnixMs.symm,
        hdoc.transitionSequence.trans later⟩
    refine ⟨.continues h.stream hsound hnext, h.idSource, fun job hjob => ?_, fun active' hactive' => ?_⟩
    · rcases List.mem_cons.mp hjob with rfl | hjob
      · exact hnext.eventId.symm ▸ h.drawn last List.mem_cons_self
      · exact h.drawn job hjob
    · cases hcloses : code.closes with
      | true =>
        rw [hcloses] at hactive'
        cases hactive'
      | false =>
        rw [hcloses] at hactive'
        cases hactive'
        exact ⟨_, rfl, ⟨rfl, rfl, rfl, rfl, rfl, rfl, rfl, le_rfl⟩⟩

theorem Recorded.step (h : Recorded taken ids r log) (hids : DrawsNew taken ids) (call : RecorderCall) :
    Recorded taken ids (recording.step r call) (recording.note r call log) := by
  cases hresets : call.resets with
  | true =>
    cases call with
    | resetIdentity identity => exact h.reset identity
    | _ => cases hresets
  | false =>
    have hcalled := IncidentRecorder.called hresets r
    show Recorded taken ids (call.apply r) ((call.job r).toList ++ log)
    cases hjob : call.job r with
    | none =>
      rw [hjob] at hcalled
      exact h.silent hcalled
    | some job =>
      rw [hjob] at hcalled
      exact h.made hids hcalled

theorem recorded_run (hids : DrawsFresh ids) (identity : IncidentIdentity) (calls : List RecorderCall) :
    Recorded (fun _ => False) ids (recording.run (.new identity ids, []) calls).1 (recording.run (.new identity ids, []) calls).2 :=
  recording.run_invariant (Recorded (fun _ => False) ids) (fun _ _ call h => h.step ⟨hids, fun _ _ _ => id⟩ call) (.new identity ids, [])
    calls (recorded_new .nil (fun _ hmem => absurd hmem List.not_mem_nil) identity)

/-- **The jobs of every run of a recorder open, continue and close one incident after the other**,
and the revisions of each are numbered from one on, to at most the limit. -/
theorem jobs_in_order (hids : DrawsFresh ids) (identity : IncidentIdentity) (calls : List RecorderCall) :
    JobStream (recording.run (.new identity ids, []) calls).2 ∧
      ∀ eventId, ∃ n ≤ evidenceMaxRevisionsPerEvent,
        JobStream.revisionsOf eventId (recording.run (.new identity ids, []) calls).2 = (List.range' 1 n).reverse := by
  have hstream := (recorded_run hids identity calls).stream
  refine ⟨hstream, fun eventId => ?_⟩
  obtain ⟨n, hn⟩ := hstream.revisions eventId
  exact ⟨n, hstream.revisions_le hn, hn⟩

/-- Five IDs and no more. -/
def fewIds (n : Nat) : Except IncidentRecorderError EventId := if n < 5 then .ok (BitVec.ofNat 128 n) else .error .idUnavailable

theorem fewIds_fresh : DrawsFresh fewIds := by
  intro i j eventId hi hj
  unfold fewIds at hi hj
  split at hi
  case isFalse => cases hi
  case isTrue hiLt =>
    split at hj
    case isFalse => cases hj
    case isTrue hjLt =>
      have heq := (Except.ok.inj hi).trans (Except.ok.inj hj).symm
      have htoNat := congrArg BitVec.toNat heq
      simp only [BitVec.toNat_ofNat] at htoNat
      omega

def wanSnapshot : ObservationSnapshot where
  schemaVersion := observationSchemaVersion
  interface := "wan0"
  ifindex := 3
  generation := 2
  capturedAtUnixMs := 500
  vlanVisibility := .unknown
  health := .healthy
  hooks := fun i => ⟨hookOrder i, .zero, fun c => ⟨classOrder c, .zero⟩, .zero⟩
  sampling := ⟨some 500, none, 0, false⟩
  rateWindows := fun _ => ⟨1000, .warmingUp, 0, none, none, none, none⟩
  baseline := .learning 500
  fingerprints := .empty
  detection := .warming 500

def wanIdentity : IncidentIdentity := ⟨"wan0", 3, 2, Nat.succ_ne_zero 2, Nat.succ_ne_zero 1⟩

/-- An incident of three revisions, a repeated transition, then a second incident that the
generation's end closes. -/
def twoIncidents : List RecorderCall := [
  .record ⟨1, .normal, .ingressStormConfirmed, .stormAsserted, 600⟩ wanSnapshot,
  .record ⟨1, .normal, .ingressStormConfirmed, .stormAsserted, 600⟩ wanSnapshot,
  .record ⟨2, .ingressStormConfirmed, .cooldown, .evidenceCleared, 700⟩ wanSnapshot,
  .record ⟨3, .cooldown, .normal, .cooldownCompleted, 800⟩ wanSnapshot,
  .record ⟨4, .normal, .ingressStormConfirmed, .stormAsserted, 900⟩ wanSnapshot,
  .generationEnded 1000 wanSnapshot]

theorem jobs_in_order_two :
    ((recording.run (.new wanIdentity fewIds, []) twoIncidents).2.map fun job => (job.eventId, job.revision)) =
        [(1, 2), (1, 1), (0, 3), (0, 2), (0, 1)] ∧
      JobStream (recording.run (.new wanIdentity fewIds, []) twoIncidents).2 :=
  ⟨by decide, (jobs_in_order fewIds_fresh wanIdentity twoIncidents).1⟩

/-! ### The revision limit -/

/-- The recorder has an incident that has spent its revisions. -/
def IncidentRecorder.Spent (eventId : EventId) (r : IncidentRecorder) : Prop :=
  ∃ active ∈ r.active, active.eventId = eventId ∧ evidenceMaxRevisionsPerEvent ≤ active.revision

theorem IncidentRecorder.Called.spent {eventId : EventId} {job : Option IncidentWriteJob} {r' : IncidentRecorder}
    (hcalled : IncidentRecorder.Called r job r') (hspent : r.Spent eventId) : job = none ∧ r'.Spent eventId := by
  obtain ⟨active, hactive, rfl, hrevision⟩ := hspent
  cases hcalled with
  | silent identity idSource drawn sequence same =>
    rw [Option.mem_def.mp hactive] at same
    generalize hafter : r'.active = after at same
    cases same with
    | some same => exact ⟨rfl, _, hafter, same.eventId, same.revision ▸ hrevision⟩
  | opened idle drew stays made =>
    rw [Option.mem_def.mp hactive] at idle
    cases idle
  | continued busy room later eventId revision openedAt made =>
    rw [Option.mem_def.mp hactive] at busy
    cases busy
    exact absurd room (Nat.not_lt.mpr hrevision)

/-- **Past the revision limit nothing is written.** Until the identity is reset, an incident that
has spent its revisions is never closed and no other incident is opened. -/
theorem no_job_past_the_limit {eventId : EventId} {c : IncidentRecorder × List IncidentWriteJob} (hspent : c.1.Spent eventId)
    (calls : List RecorderCall) (hcalls : recording.Obeys (fun _ call => call.resets = false) c.1 calls) :
    (recording.run c calls).2 = c.2 ∧ (recording.run c calls).1.Spent eventId := by
  refine recording.run_invariant_under (fun r' log' => log' = c.2 ∧ r'.Spent eventId) ?_ c calls hcalls ⟨rfl, hspent⟩
  rintro r' _ call hresets ⟨rfl, hspent'⟩
  obtain ⟨hjob, hafter⟩ := (IncidentRecorder.called hresets r').spent hspent'
  refine ⟨?_, hafter⟩
  show (call.job r').toList ++ _ = _
  rw [hjob]
  rfl

/-- An incident that turns between two anomalous states. -/
def wavering : List RecorderCall := (List.range 16).map fun n =>
  .record ⟨n + 1, .normal, if n % 2 = 0 then .ingressStormConfirmed else .bidirectionalStormConfirmed, .stormAsserted, 600⟩ wanSnapshot

/-- The transition back to normal and the end of the generation after sixteen revisions: the
event's last revision is the sixteenth, and it is open. -/
theorem no_job_past_the_limit_wavering :
    let spent := recording.run (.new wanIdentity fewIds, []) wavering
    let after := recording.run spent [.record ⟨17, .bidirectionalStormConfirmed, .normal, .evidenceCleared, 900⟩ wanSnapshot,
      .generationEnded 1000 wanSnapshot]
    after.2 = spent.2 ∧ spent.2.head?.map (fun job => (job.revision, job.closedAtUnixMs)) = some (16, none) ∧ after.1.Spent 0 := by
  intro spent after
  have hspent : spent.1.Spent 0 := ⟨⟨0, 16, 600, .bidirectionalStormConfirmed⟩, by decide +kernel, rfl, by decide⟩
  have hafter := no_job_past_the_limit hspent [.record ⟨17, .bidirectionalStormConfirmed, .normal, .evidenceCleared, 900⟩ wanSnapshot,
    .generationEnded 1000 wanSnapshot] ⟨rfl, rfl, trivial⟩
  exact ⟨hafter.1, by decide +kernel, hafter.2⟩

end NetworkLoop.Observation
