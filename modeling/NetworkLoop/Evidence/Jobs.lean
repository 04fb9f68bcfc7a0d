import NetworkLoop.Evidence.Capacity
import NetworkLoop.Observation.Recording

/-! What the store makes of a recorder's jobs (`persist_revision` in `incident_output.rs`).

Jobs get lost on their way to the store, and a call of the store may fail at any point. The
store keeps the order of each event all the same: it has the first revisions of the event and
none after one that it has missed (`stored_prefix`). It takes a job of the stream for the next
one of its event exactly if it has the job's predecessor (`next_iff`). -/
namespace NetworkLoop.Evidence
open Library Observation JobStream

/-! ### Persisting -/

inductive IncidentOutputError where
  | storeUnavailable
  deriving DecidableEq, Repr

/-- What happens outside during one `persist_revision`; the clock has no time if it is out of
range. -/
structure Persisting where
  nowUnixMs : Option Nat
  retention : Outside
  capacity : Option FilesystemSpace
  put : Outside
  temporary : Temporary

/-- The store as `put` finds it, if the job comes so far. -/
def LinuxEvidenceStore.makeRoom (p : Persisting) (s : LinuxEvidenceStore × Disk) :
    Except IncidentOutputError Unit × LinuxEvidenceStore × Disk :=
  match p.nowUnixMs with
  | none => (.error .storeUnavailable, s)
  | some nowUnixMs =>
    match s.1.enforceRetention p.retention nowUnixMs evidenceMaxRevisionBytes p.capacity s.2 with
    | (.error _, s) => (.error .storeUnavailable, s)
    | (.ok _, s) => (.ok (), s)

/-- `persist_revision`. -/
def LinuxEvidenceStore.persistRevision (F : Formats) (p : Persisting) (s : LinuxEvidenceStore × Disk) (revision : IncidentRevisionV1) :
    Except IncidentOutputError Unit × LinuxEvidenceStore × Disk :=
  match makeRoom p s with
  | (.error error, s) => (.error error, s)
  | (.ok _, s) =>
    match s.1.put p.put F p.temporary revision s.2 with
    | (.error _, s) => (.error .storeUnavailable, s)
    | (.ok _, s) => (.ok (), s)

/-- The observer keeps the jobs that were stored. -/
def persisting (F : Formats) : Recorder (LinuxEvidenceStore × Disk) (Persisting × IncidentWriteJob) IncidentWriteJob where
  step := fun s i => (LinuxEvidenceStore.persistRevision F i.1 s i.2).2
  note := fun s i log => if (LinuxEvidenceStore.persistRevision F i.1 s i.2).1.isOk then i.2 :: log else log

/-! ### One call -/

section
variable {F : Formats} {o : Outside} {p : Persisting} {store : LinuxEvidenceStore} {s : LinuxEvidenceStore × Disk} {t : Disk}
  {eventId : EventId} {detail : Indexed eventId} {job : IncidentWriteJob}

/-- Retention leaves open events alone, also when it fails. -/
theorem lookup_open (hb : store.Bounded) (hlookup : store.index.lookup eventId = some detail)
    (hopen : detail.latest.closedAtUnixMs = none) (nowUnixMs incomingBytes : Nat) (capacity : Option FilesystemSpace) :
    (store.enforceRetention o nowUnixMs incomingBytes capacity t).2.1.index.lookup eventId = some detail := by
  cases hrequest : requestRetention o nowUnixMs incomingBytes capacity t with
  | error error =>
    rw [LinuxEvidenceStore.enforceRetention, hrequest]
    exact hlookup
  | ok request =>
    obtain ⟨gone, rest, hd⟩ := enforceRetention_deletes hb hrequest
    have hnot : eventId ∉ gone.map Candidate.eventId := by
      intro hgone
      obtain ⟨c, hc, rfl⟩ := List.mem_map.mp hgone
      obtain ⟨detail', hlookup', hclosed, -⟩ := mem_candidates_iff.mp (hd.candidates ▸ List.mem_append_left rest hc)
      rw [hlookup] at hlookup'
      cases hlookup'
      rw [hopen] at hclosed
      cases hclosed
    have hkept := mt (hd.lost eventId).mp hnot
    rw [Lost, not_or, not_not] at hkept
    exact hkept.1.trans hlookup

theorem makeRoom_bounded (hb : s.1.Bounded) : (LinuxEvidenceStore.makeRoom p s).2.1.Bounded := by
  rw [LinuxEvidenceStore.makeRoom]
  cases p.nowUnixMs with
  | none => exact hb
  | some nowUnixMs =>
    have hafter := bounded_enforceRetention (o := p.retention) (t := s.2) hb nowUnixMs evidenceMaxRevisionBytes p.capacity
    dsimp only
    split <;> (rename_i heq; rw [heq] at hafter; exact hafter)

theorem bounded_persist (hb : s.1.Bounded) (F : Formats) (p : Persisting) (job : IncidentWriteJob) : (LinuxEvidenceStore.persistRevision F p s job).2.1.Bounded := by
  have hroom := makeRoom_bounded (p := p) hb
  rw [LinuxEvidenceStore.persistRevision]
  rcases hcall : LinuxEvidenceStore.makeRoom p s with ⟨error | _, s'⟩
  · rw [hcall] at hroom
    exact hroom
  · rw [hcall] at hroom
    have hafter := bounded_put (F := F) (o := p.put) (t := s'.2) hroom p.temporary job
    dsimp only
    split <;> (rename_i heq; rw [heq] at hafter; exact hafter)

/-- Retention puts nothing into the index and leaves the open events in it. -/
theorem makeRoom_lookup (hb : s.1.Bounded) (p : Persisting) (eventId : EventId) : (LinuxEvidenceStore.makeRoom p s).2.1.index.lookup eventId = s.1.index.lookup eventId ∨
    (LinuxEvidenceStore.makeRoom p s).2.1.index.lookup eventId = none ∧
      ∃ detail ∈ s.1.index.lookup eventId, detail.latest.closedAtUnixMs ≠ none := by
  rw [LinuxEvidenceStore.makeRoom]
  cases p.nowUnixMs with
  | none => exact .inl rfl
  | some nowUnixMs =>
    have hkeeps : (s.1.enforceRetention p.retention nowUnixMs evidenceMaxRevisionBytes p.capacity s.2).2.1.index.lookup eventId =
          s.1.index.lookup eventId ∨
        (s.1.enforceRetention p.retention nowUnixMs evidenceMaxRevisionBytes p.capacity s.2).2.1.index.lookup eventId = none ∧
          ∃ detail ∈ s.1.index.lookup eventId, detail.latest.closedAtUnixMs ≠ none := by
      cases hafter : (s.1.enforceRetention p.retention nowUnixMs evidenceMaxRevisionBytes p.capacity s.2).2.1.index.lookup eventId with
      | some detail => exact .inl (lookup_enforceRetention hb _ _ _ hafter).symm
      | none =>
        cases hbefore : s.1.index.lookup eventId with
        | none => exact .inl rfl
        | some detail =>
          refine .inr ⟨rfl, detail, rfl, fun hopen => ?_⟩
          rw [lookup_open hb hbefore hopen] at hafter
          cases hafter
    dsimp only
    split <;> (rename_i heq; rw [heq] at hkeeps; exact hkeeps)

/-- How `persist_revision` ends: the job was stored after the retention, or nothing but the
retention has changed the store. -/
inductive Persisted (F : Formats) (p : Persisting) (s : LinuxEvidenceStore × Disk) (job : IncidentWriteJob) : Prop where
  | stored (admitted : Admitted) (ok : (LinuxEvidenceStore.persistRevision F p s job).1.isOk = true)
      (admits : Admits F (LinuxEvidenceStore.makeRoom p s).2.1 job admitted)
      (after : (LinuxEvidenceStore.persistRevision F p s job).2.1 = (LinuxEvidenceStore.makeRoom p s).2.1.stored job admitted)
  | lost (error : (LinuxEvidenceStore.persistRevision F p s job).1.isOk = false)
      (after : (LinuxEvidenceStore.persistRevision F p s job).2.1 = (LinuxEvidenceStore.makeRoom p s).2.1)

theorem makeRoom_of_ok {nowUnixMs : Nat} {outcome : RetentionOutcome} {s' : LinuxEvidenceStore × Disk} (hclock : p.nowUnixMs = some nowUnixMs)
    (h : s.1.enforceRetention p.retention nowUnixMs evidenceMaxRevisionBytes p.capacity s.2 = (.ok outcome, s')) :
    LinuxEvidenceStore.makeRoom p s = (.ok (), s') := by
  rw [LinuxEvidenceStore.makeRoom, hclock]
  dsimp only
  rw [h]

theorem persistRevision_of_ok {s' s'' : LinuxEvidenceStore × Disk} {summary : EvidenceSummaryV1}
    (hroom : LinuxEvidenceStore.makeRoom p s = (.ok (), s')) (h : s'.1.put p.put F p.temporary job s'.2 = (.ok summary, s'')) :
    LinuxEvidenceStore.persistRevision F p s job = (.ok (), s'') := by
  rw [LinuxEvidenceStore.persistRevision, hroom]
  dsimp only
  rw [h]

theorem put_cases (F : Formats) (o : Outside) (store : LinuxEvidenceStore) (t : Disk) (revision : IncidentRevisionV1) (temporary : Temporary) :
    (∃ error, (store.put o F temporary revision t).1 = .error error ∧ (store.put o F temporary revision t).2.1 = store) ∨
      ∃ admitted summary, Admits F store revision admitted ∧ (store.put o F temporary revision t).1 = .ok summary ∧
        (store.put o F temporary revision t).2.1 = store.stored revision admitted := by
  cases hroot : o.validateRoot t with
  | error error =>
    left
    rw [LinuxEvidenceStore.put, hroot]
    exact ⟨error, rfl, rfl⟩
  | ok =>
    cases hadmission : store.admission F revision with
    | error error =>
      left
      rw [LinuxEvidenceStore.put_refused hroot hadmission]
      exact ⟨error, rfl, rfl⟩
    | ok admitted =>
      rw [LinuxEvidenceStore.put_admitted hroot hadmission]
      rcases hwrite : writeRevision o revision temporary admitted t with ⟨error | _, t'⟩
      · exact .inl ⟨error, rfl, rfl⟩
      · exact .inr ⟨admitted, _, admission_eq_ok.mp hadmission, rfl, rfl⟩

theorem persisted (F : Formats) (p : Persisting) (s : LinuxEvidenceStore × Disk) (job : IncidentWriteJob) : Persisted F p s job := by
  rcases hroom : LinuxEvidenceStore.makeRoom p s with ⟨error | _, s'⟩
  · refine .lost ?_ ?_
    · rw [LinuxEvidenceStore.persistRevision, hroom]
      rfl
    · rw [LinuxEvidenceStore.persistRevision, hroom]
  · have hpersist : LinuxEvidenceStore.persistRevision F p s job =
        match s'.1.put p.put F p.temporary job s'.2 with
        | (.error _, s) => (.error .storeUnavailable, s)
        | (.ok _, s) => (.ok (), s) := by
      rw [LinuxEvidenceStore.persistRevision, hroom]
    rcases hput : s'.1.put p.put F p.temporary job s'.2 with ⟨error | summary, after⟩
    · have hcases := put_cases F p.put s'.1 s'.2 job p.temporary
      rw [hput] at hcases hpersist
      rcases hcases with ⟨_, -, hsame⟩ | ⟨_, _, -, hok, -⟩
      · refine .lost ?_ ?_
        · rw [hpersist]
          rfl
        · rw [hpersist, hroom]
          exact hsame
      · cases hok
    · have hcases := put_cases F p.put s'.1 s'.2 job p.temporary
      rw [hput] at hcases hpersist
      rcases hcases with ⟨_, herror, -⟩ | ⟨admitted, _, hadmits, -, hstored⟩
      · cases herror
      · refine .stored admitted ?_ ?_ ?_
        · rw [hpersist]
          rfl
        · rw [hroom]
          exact hadmits
        · rw [hpersist, hroom]
          exact hstored

end

/-! ### The store along a stream -/

/-- The last job of an event that was stored. -/
def newest (eventId : EventId) (stored : List IncidentWriteJob) : Option IncidentWriteJob :=
  (stored.filter fun job => job.eventId = eventId).head?

/-- What the store's index has to do with the jobs that were stored, for the events that it did
not know before. -/
structure Follows (New : EventId → Prop) (store : LinuxEvidenceStore) (stored : List IncidentWriteJob) : Prop where
  bounded : store.Bounded
  isNew : ∀ job ∈ stored, New job.eventId
  numbered : ∀ eventId, ∃ n, revisionsOf eventId stored = (List.range' 1 n).reverse
  held : ∀ eventId, New eventId → ∀ detail ∈ store.index.lookup eventId, newest eventId stored = some detail.latest
  gone : ∀ eventId, New eventId → store.index.lookup eventId = none →
    ∀ job ∈ newest eventId stored, job.closedAtUnixMs ≠ none

section
variable {New : EventId → Prop} {store : LinuxEvidenceStore} {stored : List IncidentWriteJob} {job : IncidentWriteJob}
  {eventId : EventId} {F : Formats} {p : Persisting} {s : LinuxEvidenceStore × Disk}

theorem newest_mem (h : job ∈ newest eventId stored) : job ∈ stored ∧ job.eventId = eventId := by
  obtain ⟨hmem, heq⟩ := List.mem_filter.mp (List.mem_of_mem_head? h)
  exact ⟨hmem, of_decide_eq_true heq⟩

theorem newest_cons_self : newest job.eventId (job :: stored) = some job := by
  rw [newest, List.filter_cons_of_pos (by simp)]
  rfl

theorem newest_cons_ne (h : job.eventId ≠ eventId) : newest eventId (job :: stored) = newest eventId stored := by
  rw [newest, List.filter_cons_of_neg (by simpa using h)]
  rfl

/-- The last revision has the highest number. -/
theorem revisionsOf_newest {n : Nat} (hn : revisionsOf eventId stored = (List.range' 1 n).reverse) (h : job ∈ newest eventId stored) :
    n = job.revision := by
  have hhead : (revisionsOf eventId stored).head? = some job.revision := by
    rw [revisionsOf, List.head?_map]
    exact congrArg (Option.map (·.revision)) h
  rw [hn, List.head?_reverse, List.getLast?_range'] at hhead
  split at hhead
  case isTrue => cases hhead
  case isFalse hne =>
    have := Option.some.inj hhead
    omega

theorem revisionsOf_none (h : newest eventId stored = none) : revisionsOf eventId stored = [] := by
  rw [newest, List.head?_eq_none_iff] at h
  rw [revisionsOf, h]
  rfl

theorem Follows.makeRoom (h : Follows New s.1 stored) : Follows New (LinuxEvidenceStore.makeRoom p s).2.1 stored := by
  refine ⟨makeRoom_bounded h.bounded, h.isNew, h.numbered, fun eventId hnew detail hdetail => ?_, fun eventId hnew hnone job hjob => ?_⟩
  · rcases makeRoom_lookup h.bounded p eventId with hsame | ⟨hgone, -⟩
    · exact h.held eventId hnew detail (hsame ▸ hdetail)
    · rw [hgone] at hdetail
      cases hdetail
  · rcases makeRoom_lookup h.bounded p eventId with hsame | ⟨-, detail, hdetail, hclosed⟩
    · exact h.gone eventId hnew (hsame ▸ hnone) job hjob
    · rw [h.held eventId hnew detail hdetail] at hjob
      cases hjob
      exact hclosed

/-- The store expects the revision after the last one that was stored, and a job that comes along
is not below it. -/
theorem Follows.expected (h : Follows New store stored) (hnew : New job.eventId) (hrevision : job.revision ≤ evidenceMaxRevisionsPerEvent)
    (hpos : 0 < job.revision) (hearlier : ∀ old ∈ stored, old.eventId = job.eventId → Earlier old job) {n : Nat}
    (hn : revisionsOf job.eventId stored = (List.range' 1 n).reverse) : store.expected job.eventId = n + 1 ∧ n < job.revision := by
  cases hnewest : newest job.eventId stored with
  | some last =>
    obtain ⟨hmem, heq⟩ := newest_mem hnewest
    have hlast := revisionsOf_newest hn hnewest
    have hless := (hearlier last hmem heq).revision
    refine ⟨?_, hlast ▸ hless⟩
    rw [LinuxEvidenceStore.expected]
    cases hlookup : store.index.lookup job.eventId with
    | none => exact absurd (hearlier last hmem heq).isOpen (h.gone job.eventId hnew hlookup last hnewest)
    | some detail =>
      have hdetail := h.held job.eventId hnew detail hlookup
      rw [hnewest] at hdetail
      have hwidth : evidenceMaxRevisionsPerEvent + 1 < u64Bound := by decide
      show saturatingAdd detail.latest.revision 1 = n + 1
      rw [← Option.some.inj hdetail, ← hlast, saturatingAdd]
      omega
  | none =>
    have hzero : n = 0 := by
      have hnone := revisionsOf_none hnewest
      rw [hn, List.reverse_eq_nil_iff, List.range'_eq_nil_iff] at hnone
      exact hnone
    refine ⟨?_, hzero ▸ hpos⟩
    rw [LinuxEvidenceStore.expected, hzero]
    cases hlookup : store.index.lookup job.eventId with
    | none => rfl
    | some detail =>
      have hdetail := h.held job.eventId hnew detail hlookup
      rw [hnewest] at hdetail
      cases hdetail

/-- A job that is stored is the next one of its event. -/
theorem Follows.next (h : Follows New store stored) (hnew : New job.eventId)
    (hearlier : ∀ old ∈ stored, old.eventId = job.eventId → Earlier old job) {admitted : Admitted}
    (hadmits : Admits F store job admitted) (hsound : job.revision ≤ evidenceMaxRevisionsPerEvent ∧ 0 < job.revision)
    (hb : (store.stored job admitted).Bounded) : Follows New (store.stored job admitted) (job :: stored) := by
  obtain ⟨n, hn⟩ := h.numbered job.eventId
  obtain ⟨hexpected, -⟩ := h.expected hnew hsound.1 hsound.2 hearlier hn
  have hrevision : job.revision = n + 1 := hadmits.next.trans hexpected
  refine ⟨hb, List.forall_mem_cons.mpr ⟨hnew, h.isNew⟩, fun eventId => ?_, fun eventId hnew' detail hdetail => ?_,
    fun eventId hnew' hnone last hlast => ?_⟩
  · by_cases heq : job.eventId = eventId
    · subst heq
      refine ⟨n + 1, ?_⟩
      rw [revisionsOf_cons_self, hn, hrevision, List.range'_concat, List.reverse_append, Nat.one_mul, Nat.add_comm]
      rfl
    · rw [revisionsOf_cons_ne heq]
      exact h.numbered eventId
  · change detail ∈ (store.index.insert job.eventId _).lookup eventId at hdetail
    by_cases heq : eventId = job.eventId
    · subst heq
      rw [AList.lookup_insert] at hdetail
      cases hdetail
      exact newest_cons_self
    · rw [AList.lookup_insert_ne heq] at hdetail
      rw [newest_cons_ne (Ne.symm heq)]
      exact h.held eventId hnew' detail hdetail
  · change (store.index.insert job.eventId _).lookup eventId = none at hnone
    by_cases heq : eventId = job.eventId
    · subst heq
      rw [AList.lookup_insert] at hnone
      cases hnone
    · rw [AList.lookup_insert_ne heq] at hnone
      rw [newest_cons_ne (Ne.symm heq)] at hlast
      exact h.gone eventId hnew' hnone last hlast

/-- A persisted job is stored as the next one of its event, or it changes nothing. -/
theorem Follows.step (h : Follows New s.1 stored) (hnew : New job.eventId) (hsound : SoundJob job)
    (hearlier : ∀ old ∈ stored, old.eventId = job.eventId → Earlier old job) (p : Persisting) :
    Follows New ((persisting F).step s (p, job)).1 ((persisting F).note s (p, job) stored) := by
  have hroom := h.makeRoom (p := p)
  show Follows New (LinuxEvidenceStore.persistRevision F p s job).2.1
    (if (LinuxEvidenceStore.persistRevision F p s job).1.isOk then job :: stored else stored)
  cases persisted F p s job with
  | stored admitted ok admits after =>
    rw [after, if_pos ok]
    have hb := bounded_persist h.bounded F p job
    rw [after] at hb
    exact hroom.next hnew hearlier admits ⟨revision_le hsound, revision_pos hsound⟩ hb
  | lost error after =>
    rw [after, if_neg (by rw [error]; exact Bool.false_ne_true)]
    exact hroom

end

/-- What a run has done with the jobs that were offered. -/
structure Kept (New : EventId → Prop) (offered : List IncidentWriteJob) (after : (LinuxEvidenceStore × Disk) × List IncidentWriteJob)
    (before : List IncidentWriteJob) : Prop where
  follows : Follows New after.1.1 after.2
  order : ∃ taken : List IncidentWriteJob, taken.Sublist offered ∧ after.2 = taken.reverse ++ before

theorem kept_run {New : EventId → Prop} {F : Formats} (inputs : List (Persisting × IncidentWriteJob))
    {c : (LinuxEvidenceStore × Disk) × List IncidentWriteJob} (h : Follows New c.1.1 c.2)
    (hinputs : ∀ i ∈ inputs, New i.2.eventId ∧ SoundJob i.2 ∧ ∀ old ∈ c.2, old.eventId = i.2.eventId → Earlier old i.2)
    (hpairwise : inputs.Pairwise fun i j => i.2.eventId = j.2.eventId → Earlier i.2 j.2) :
    Kept New (inputs.map Prod.snd) ((persisting F).run c inputs) c.2 := by
  induction inputs generalizing c with
  | nil => exact ⟨h, [], .slnil, rfl⟩
  | cons i rest ih =>
    obtain ⟨⟨hnew, hsound, hearlier⟩, hrest⟩ := List.forall_mem_cons.mp hinputs
    obtain ⟨hfirst, hlater⟩ := List.pairwise_cons.mp hpairwise
    have hstep : Follows New ((persisting F).step c.1 i).1 ((persisting F).note c.1 i c.2) := h.step hnew hsound hearlier i.1
    have hnote : (persisting F).note c.1 i c.2 = i.2 :: c.2 ∨ (persisting F).note c.1 i c.2 = c.2 := by
      show (if _ then _ else _) = _ ∨ (if _ then _ else _) = _
      split
      · exact .inl rfl
      · exact .inr rfl
    have hnext := ih (c := ((persisting F).step c.1 i, (persisting F).note c.1 i c.2)) hstep (fun j hj => by
      obtain ⟨hnew', hsound', hearlier'⟩ := hrest j hj
      refine ⟨hnew', hsound', fun old hold => ?_⟩
      rcases hnote with heq | heq
      · rw [heq] at hold
        rcases List.mem_cons.mp hold with rfl | hold
        · exact hfirst j hj
        · exact hearlier' old hold
      · rw [heq] at hold
        exact hearlier' old hold) hlater
    obtain ⟨taken, htaken, hafter⟩ := hnext.order
    refine ⟨hnext.follows, ?_⟩
    rcases hnote with heq | heq
    · refine ⟨i.2 :: taken, htaken.cons_cons _, ?_⟩
      rw [List.reverse_cons, List.append_assoc]
      exact hafter.trans (congrArg (taken.reverse ++ ·) heq)
    · exact ⟨taken, htaken.cons _, hafter.trans (congrArg (taken.reverse ++ ·) heq)⟩

/-! ### Streams with losses -/

section
variable {F : Formats} {log : List IncidentWriteJob} {inputs : List (Persisting × IncidentWriteJob)} {s : LinuxEvidenceStore × Disk}
  {New : EventId → Prop} {after : (LinuxEvidenceStore × Disk) × List IncidentWriteJob}

/-- The events of the stream are new to the store. -/
def Unknown (store : LinuxEvidenceStore) (eventId : EventId) : Prop := store.index.lookup eventId = none

theorem follows_start (hb : s.1.Bounded) : Follows (Unknown s.1) s.1 [] := by
  refine ⟨hb, fun _ hmem => absurd hmem List.not_mem_nil, fun _ => ⟨0, rfl⟩, fun eventId hnew detail hdetail => ?_,
    fun _ _ _ _ hmem => absurd hmem (Option.not_mem_none _)⟩
  rw [Option.mem_def, show s.1.index.lookup eventId = none from hnew] at hdetail
  cases hdetail

theorem offered_pairwise (hstream : JobStream log) (hinputs : (inputs.map Prod.snd).Sublist log.reverse) :
    inputs.Pairwise fun i j => i.2.eventId = j.2.eventId → Earlier i.2 j.2 :=
  List.pairwise_map.mp ((List.pairwise_reverse.mpr hstream.pairwise).sublist hinputs)

/-- The offered part of the stream, run to its end. -/
theorem kept_stream (hb : s.1.Bounded) (hstream : JobStream log) (hnew : ∀ job ∈ log, Unknown s.1 job.eventId)
    (hinputs : (inputs.map Prod.snd).Sublist log.reverse) :
    Kept (Unknown s.1) (inputs.map Prod.snd) ((persisting F).run (s, []) inputs) [] := by
  refine kept_run inputs (follows_start hb) (fun i hi => ?_) (offered_pairwise hstream hinputs)
  have hmem : i.2 ∈ log := List.mem_reverse.mp (hinputs.subset (List.mem_map_of_mem hi))
  exact ⟨hnew _ hmem, hstream.sound _ hmem, fun _ hold => absurd hold List.not_mem_nil⟩

/-- A job that was lost is later than what is stored of its event. -/
theorem Kept.compare (hkept : Kept New (inputs.map Prod.snd) after []) (hstream : JobStream log)
    (hinputs : (inputs.map Prod.snd).Sublist log.reverse) {job later : IncidentWriteJob} (hjob : job ∈ inputs.map Prod.snd)
    (hlost : job ∉ after.2) (hlater : later ∈ after.2) (heq : later.eventId = job.eventId) : Earlier later job := by
  obtain ⟨taken, htaken, hafter⟩ := hkept.order
  rw [List.append_nil] at hafter
  have hlog : ∀ x ∈ inputs.map Prod.snd, x ∈ log := fun x hx => List.mem_reverse.mp (hinputs.subset hx)
  have hstored : ∀ x ∈ after.2, x ∈ log := fun x hx => hlog x (htaken.subset (List.mem_reverse.mp (hafter ▸ hx)))
  rcases hstream.compare (hstored later hlater) (hlog job hjob) heq with rfl | hearlier | hearlier
  · exact absurd hlater hlost
  · exact hearlier
  · -- the revision of the lost job is among those stored, and the stream has it once only
    obtain ⟨n, hn⟩ := hkept.follows.numbered job.eventId
    have hmem : later.revision ∈ revisionsOf job.eventId after.2 :=
      List.mem_map_of_mem (List.mem_filter.mpr ⟨hlater, decide_eq_true heq⟩)
    rw [hn, List.mem_reverse, List.mem_range'_1] at hmem
    have hpos := revision_pos (hstream.sound job (hlog job hjob))
    have hless := hearlier.revision
    have hnumber : job.revision ∈ revisionsOf job.eventId after.2 := by
      rw [hn, List.mem_reverse, List.mem_range'_1]
      omega
    obtain ⟨same, hsame, hrevision⟩ := List.mem_map.mp hnumber
    obtain ⟨hsameStored, hsameEvent⟩ := List.mem_filter.mp hsame
    rcases hstream.compare (hstored same hsameStored) (hlog job hjob) (of_decide_eq_true hsameEvent) with rfl | hrel | hrel
    · exact absurd hsameStored hlost
    · exact absurd hrel.revision (hrevision ▸ lt_irrefl _)
    · exact absurd hrel.revision (hrevision ▸ lt_irrefl _)

/-- **The store has the first revisions of every event and none past one that it missed.** Of the
jobs of a recorder's stream any may be lost on the way, and any call of the store may fail. -/
theorem stored_prefix (F : Formats) (packageVersion : PackageVersion) (opening : Outside) (t₀ : Disk) (store : LinuxEvidenceStore)
    (hopen : LinuxEvidenceStore.openRoot F opening packageVersion t₀ = .ok store) (calls : List StoreCall)
    (log : List IncidentWriteJob) (hstream : JobStream log) (inputs : List (Persisting × IncidentWriteJob))
    (hinputs : (inputs.map Prod.snd).Sublist log.reverse) :
    let s := afterCalls F (store, t₀) calls
    let after := (persisting F).run (s, []) inputs
    (∀ job ∈ log, s.1.index.lookup job.eventId = none) →
      (∀ eventId, ∃ n, revisionsOf eventId after.2 = (List.range' 1 n).reverse) ∧
      (∀ eventId, s.1.index.lookup eventId = none → ∀ detail ∈ after.1.1.index.lookup eventId,
        newest eventId after.2 = some detail.latest) ∧
      ∀ job ∈ inputs.map Prod.snd, job ∉ after.2 →
        (∀ later ∈ after.2, later.eventId = job.eventId → later.revision < job.revision) ∧
          ∀ detail ∈ after.1.1.index.lookup job.eventId, detail.latest.closedAtUnixMs = none := by
  intro s after hnew
  have hb : s.1.Bounded := bounded_reachable hopen calls
  have hkept : Kept (Unknown s.1) (inputs.map Prod.snd) after [] := kept_stream hb hstream hnew hinputs
  refine ⟨hkept.follows.numbered, fun eventId hunknown detail hdetail => hkept.follows.held eventId hunknown detail hdetail,
    fun job hjob hlost => ⟨fun later hlater heq => (hkept.compare hstream hinputs hjob hlost hlater heq).revision, fun detail hdetail => ?_⟩⟩
  have hmem : job ∈ log := List.mem_reverse.mp (hinputs.subset hjob)
  have hnewest := newest_mem (hkept.follows.held job.eventId (hnew job hmem) detail hdetail)
  exact (hkept.compare hstream hinputs hjob hlost hnewest.1 hnewest.2).isOpen

/-! ### A revision that is lost -/

def calmly (nowUnixMs : Nat) : Persisting := ⟨some nowUnixMs, .calm 0, some commonCapacity, .calm 0, sampleTemporary⟩

/-- The clock fails. -/
def timeless : Persisting := ⟨none, .calm 0, some commonCapacity, .calm 0, sampleTemporary⟩

/-- Three revisions of one event, the newest first. -/
def threeRevisions : List IncidentWriteJob := [sampleRevision 5 3 1300 none, sampleRevision 5 2 1200 none, sampleRevision 5 1 1000 none]

theorem threeRevisions_stream : JobStream threeRevisions := by
  refine .continues (.continues (.opens .nil ?_ ?_ rfl rfl) ?_ ?_) ?_ ?_
  · exact ⟨by decide, rfl⟩
  · exact fun _ hmem => absurd hmem List.not_mem_nil
  · exact ⟨by decide, rfl⟩
  · exact ⟨rfl, rfl, rfl, rfl, rfl, rfl, rfl, le_rfl⟩
  · exact ⟨by decide, rfl⟩
  · exact ⟨rfl, rfl, rfl, rfl, rfl, rfl, rfl, le_rfl⟩

/-- The first revision comes to the store, the second one meets a clock that fails. -/
def twoOffered : List (Persisting × IncidentWriteJob) :=
  [(calmly 1000, sampleRevision 5 1 1000 none), (timeless, sampleRevision 5 2 1200 none)]

/-- Of the two the first one is stored. -/
theorem twoOffered_stored : ((persisting compactFormats).run ((emptyStore sampleVersion, emptyRoot 0), []) twoOffered).2 =
    [sampleRevision 5 1 1000 none] := by
  have hroom : LinuxEvidenceStore.makeRoom (calmly 1000) (emptyStore sampleVersion, emptyRoot 0) =
      (.ok (), emptyStore sampleVersion, emptyRoot 0) := by
    have hrequest : requestRetention (.calm 0) 1000 evidenceMaxRevisionBytes (some commonCapacity) (emptyRoot 0) =
        .ok ⟨1000, evidenceMaxRevisionBytes, commonCapacity⟩ := rfl
    have hretention : (emptyStore sampleVersion).enforceRetention (.calm 0) 1000 evidenceMaxRevisionBytes (some commonCapacity)
        (emptyRoot 0) = (.ok ⟨[], 0, 0, commonCapacity, 54975581388⟩, emptyStore sampleVersion, emptyRoot 0) := by
      rw [enforceRetention_nothing (by simp [emptyStore, Index.candidates]) hrequest]
      unfold LinuxEvidenceStore.settleRetention
      dsimp only
      split
      case isTrue hfits =>
        rw [hfits]
        rfl
      case isFalse hno => exact absurd (by decide) hno
    exact makeRoom_of_ok rfl hretention
  have hnothing : Stored [] := ⟨List.nodup_nil, fun _ hmem => absurd hmem List.not_mem_nil, Nat.zero_le _⟩
  obtain ⟨admitted, hadmission, -⟩ := admit_new (x := ⟨5, 1000, none⟩) hnothing List.not_mem_nil ⟨by decide, by decide⟩ (by decide)
  obtain ⟨t, hput, -⟩ := put_tidy (tidy_empty sampleVersion) hadmission sampleTemporary
  have hfirst : (persisting compactFormats).run ((emptyStore sampleVersion, emptyRoot 0), []) twoOffered =
      (persisting compactFormats).run (((emptyStore sampleVersion).stored (sampleRevision 5 1 1000 none) admitted, t),
        [sampleRevision 5 1 1000 none]) [(timeless, sampleRevision 5 2 1200 none)] := by
    have hpersist : LinuxEvidenceStore.persistRevision compactFormats (calmly 1000) (emptyStore sampleVersion, emptyRoot 0)
        (sampleRevision 5 1 1000 none) = _ := persistRevision_of_ok hroom hput
    show (persisting compactFormats).run ((LinuxEvidenceStore.persistRevision compactFormats (calmly 1000)
      (emptyStore sampleVersion, emptyRoot 0) (sampleRevision 5 1 1000 none)).2, if (LinuxEvidenceStore.persistRevision compactFormats
        (calmly 1000) (emptyStore sampleVersion, emptyRoot 0) (sampleRevision 5 1 1000 none)).1.isOk then _ else _) _ = _
    rw [hpersist]
    rfl
  rw [hfirst]
  rfl

/-- The third revision comes to a store that has missed the second. -/
theorem stored_prefix_three :
    let after := (persisting compactFormats).run ((emptyStore sampleVersion, emptyRoot 0), [])
      (twoOffered ++ [(calmly 1300, sampleRevision 5 3 1300 none)])
    sampleRevision 5 1 1000 none ∈ after.2 ∧ ∀ later ∈ after.2, later.eventId = 5 → later.revision < 2 := by
  intro after
  have hlog : after.2 = [sampleRevision 5 3 1300 none, sampleRevision 5 1 1000 none] ∨ after.2 = [sampleRevision 5 1 1000 none] := by
    have hrun := (persisting compactFormats).run_snoc ((emptyStore sampleVersion, emptyRoot 0), []) twoOffered
      (calmly 1300, sampleRevision 5 3 1300 none)
    have hafter : after.2 = _ := congrArg Prod.snd hrun
    rw [hafter, twoOffered_stored]
    show (if _ then _ else _) = _ ∨ (if _ then _ else _) = _
    split
    · exact .inl rfl
    · exact .inr rfl
  have hlost : sampleRevision 5 2 1200 none ∉ after.2 := by
    rcases hlog with heq | heq <;> (rw [heq]; decide)
  have hstored := stored_prefix compactFormats sampleVersion (.calm 0) (emptyRoot 0) (emptyStore sampleVersion)
    (openRoot_empty compactFormats sampleVersion) [] threeRevisions threeRevisions_stream
    (twoOffered ++ [(calmly 1300, sampleRevision 5 3 1300 none)]) (List.Sublist.refl _) (fun _ _ => rfl)
  refine ⟨?_, (hstored.2.2 _ (List.mem_of_elem_eq_true (by decide)) hlost).1⟩
  rcases hlog with heq | heq <;> (rw [heq]; decide)

/-! ### What is refused -/

/-- Which errors the admission has for the order of an event. -/
theorem admission_order {store : LinuxEvidenceStore} {job : IncidentWriteJob} (hvalid : job.validate = true) :
    (store.admission F job = .error .revisionConflict ↔ job.revision < store.expected job.eventId) ∧
      (store.admission F job = .error .revisionSequence ↔ store.expected job.eventId < job.revision) := by
  have hmanifest : ∀ error evidence, error = .revisionConflict ∨ error = .revisionSequence →
      evidence ≠ [] ∧ evidence.length ≤ evidenceMaxRevisionBytes → buildManifest F job evidence store.packageVersion ≠ .error error := by
    intro error evidence herror hevidence hfails
    rcases herror with rfl | rfl <;> rcases buildManifest_eq_error hevidence.2 hfails with heq | heq <;> cases heq
  unfold LinuxEvidenceStore.admission
  simp only [bind_eq_error, exists_unit_iff, require_eq_error, require_eq_ok, required_eq_error, required_eq_ok, hvalid,
    not_true_eq_false, reduceCtorEq, and_false, and_true, false_or, or_false, true_and, not_not]
  constructor
  · constructor
    · rintro (hless | ⟨-, -, -, evidence, -, hevidence, hbuilt | ⟨_, -, ⟨_, -, ⟨-, -, -, -⟩⟩⟩⟩)
      · exact hless
      · exact absurd hbuilt (hmanifest _ _ (.inl rfl) hevidence)
    · exact .inl
  · constructor
    · rintro ⟨-, hmore | ⟨-, -, evidence, -, hevidence, hbuilt | ⟨_, -, ⟨_, -, ⟨-, -, -, -⟩⟩⟩⟩⟩
      · exact hmore
      · exact absurd hbuilt (hmanifest _ _ (.inr rfl) hevidence)
    · exact fun hmore => ⟨Nat.lt_asymm hmore, .inl hmore⟩

/-- **A job of the stream is refused for its order exactly if the store has not its predecessor.**
It is never taken for a revision that the store has, nor for one of another incident. -/
theorem refused_for_order_iff (F : Formats) (packageVersion : PackageVersion) (opening : Outside) (t₀ : Disk) (store : LinuxEvidenceStore)
    (hopen : LinuxEvidenceStore.openRoot F opening packageVersion t₀ = .ok store) (calls : List StoreCall)
    (log : List IncidentWriteJob) (hstream : JobStream log) (inputs : List (Persisting × IncidentWriteJob)) (p : Persisting)
    (job : IncidentWriteJob) (hinputs : ((inputs ++ [(p, job)]).map Prod.snd).Sublist log.reverse) :
    let s := afterCalls F (store, t₀) calls
    let before := (persisting F).run (s, []) inputs
    let room := (LinuxEvidenceStore.makeRoom p before.1).2.1
    (∀ job ∈ log, s.1.index.lookup job.eventId = none) →
      room.admission F job ≠ .error .revisionConflict ∧
      (room.admission F job = .error .revisionSequence ↔
        job.revision ≠ 1 ∧ ∀ old ∈ before.2, old.eventId = job.eventId → old.revision + 1 ≠ job.revision) ∧
      ∀ previous ∈ room.index.lookup job.eventId, previous.latest.interface = job.interface ∧ previous.latest.ifindex = job.ifindex ∧
        previous.latest.interfaceGeneration = job.interfaceGeneration ∧ previous.latest.openedAtUnixMs = job.openedAtUnixMs := by
  intro s before room hnew
  have hb : s.1.Bounded := bounded_reachable hopen calls
  have hoffered : (inputs.map Prod.snd).Sublist log.reverse := by
    rw [List.map_append] at hinputs
    exact (List.sublist_append_left _ _).trans hinputs
  have hlog : job ∈ log := by
    refine List.mem_reverse.mp (hinputs.subset ?_)
    rw [List.map_append]
    exact List.mem_append_right _ List.mem_cons_self
  have hsound := hstream.sound job hlog
  have hkept : Kept (Unknown s.1) (inputs.map Prod.snd) before [] := kept_stream hb hstream hnew hoffered
  have hroom : Follows (Unknown s.1) room before.2 := hkept.follows.makeRoom
  have hearlier : ∀ old ∈ before.2, old.eventId = job.eventId → Earlier old job := by
    intro old hold heq
    obtain ⟨taken, htaken, hafter⟩ := hkept.order
    rw [List.append_nil] at hafter
    have hmem : old ∈ inputs.map Prod.snd := htaken.subset (List.mem_reverse.mp (hafter ▸ hold))
    obtain ⟨i, hi, rfl⟩ := List.mem_map.mp hmem
    exact (List.pairwise_append.mp (offered_pairwise hstream hinputs)).2.2 i hi (p, job) List.mem_cons_self heq
  obtain ⟨n, hn⟩ := hroom.numbered job.eventId
  obtain ⟨hexpected, hless⟩ := hroom.expected (hnew job hlog) (revision_le hsound) (revision_pos hsound) hearlier hn
  refine ⟨fun hconflict => ?_, ?_, fun previous hprevious => ?_⟩
  · have hbelow := (admission_order hsound.valid).1.mp hconflict
    omega
  · rw [(admission_order hsound.valid).2, hexpected]
    constructor
    · refine fun hmore => ⟨by omega, fun old hold heq hnext => ?_⟩
      have hmem : old.revision ∈ revisionsOf job.eventId before.2 :=
        List.mem_map_of_mem (List.mem_filter.mpr ⟨hold, decide_eq_true heq⟩)
      rw [hn, List.mem_reverse, List.mem_range'_1] at hmem
      omega
    · rintro ⟨hfirst, hmissing⟩
      by_contra hnext
      -- then the job comes right after the `n` revisions that were stored
      have hmem : n ∈ revisionsOf job.eventId before.2 := by
        rw [hn, List.mem_reverse, List.mem_range'_1]
        omega
      obtain ⟨old, hold, hrevision⟩ := List.mem_map.mp hmem
      obtain ⟨hstored, hevent⟩ := List.mem_filter.mp hold
      exact hmissing old hstored (of_decide_eq_true hevent) (by omega)
  · have hnewest := newest_mem (hroom.held job.eventId (hnew job hlog) previous hprevious)
    have hsame := hearlier previous.latest hnewest.1 hnewest.2
    exact ⟨hsame.interface, hsame.ifindex, hsame.interfaceGeneration, hsame.openedAtUnixMs⟩

theorem refused_for_order_iff_three :
    (LinuxEvidenceStore.makeRoom (calmly 1300) ((persisting compactFormats).run ((emptyStore sampleVersion, emptyRoot 0), [])
      twoOffered).1).2.1.admission compactFormats (sampleRevision 5 3 1300 none) = .error .revisionSequence := by
  have hrefused := refused_for_order_iff compactFormats sampleVersion (.calm 0) (emptyRoot 0) (emptyStore sampleVersion)
    (openRoot_empty compactFormats sampleVersion) [] threeRevisions threeRevisions_stream twoOffered (calmly 1300)
    (sampleRevision 5 3 1300 none) (List.Sublist.refl _) (fun _ _ => rfl)
  refine hrefused.2.1.mpr ⟨by decide, fun old hold _ => ?_⟩
  change old ∈ ((persisting compactFormats).run ((emptyStore sampleVersion, emptyRoot 0), []) twoOffered).2 at hold
  rw [twoOffered_stored] at hold
  rw [List.mem_singleton.mp hold]
  decide

end

end NetworkLoop.Evidence
