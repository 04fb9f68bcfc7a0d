import NetworkLoop.Evidence.Retention

/-! How long evidence stays.

A successful retention leaves no closed event whose close is more than thirty days old, in
whatever state earlier runs of the daemon have left the disk and the calls of this one the
store (`closed_events_age_out`). An event whose last revision carries no close it does not
touch, however old it is: one that no recorder will ever close stays
(`abandoned_event_stays`). -/
namespace NetworkLoop.Evidence
open Library Observation Table

variable {F : Formats} {o : Outside} {t : Disk} {store : LinuxEvidenceStore} {nowUnixMs incomingBytes : Nat}
  {capacity : Option FilesystemSpace} {eventId : EventId} {detail : Indexed eventId}

/-- A call that returns `Ok` has passed its checks. -/
theorem request_of_ok {outcome : RetentionOutcome}
    (h : (store.enforceRetention o nowUnixMs incomingBytes capacity t).1 = .ok outcome) :
    ∃ space, capacity = some space ∧
      requestRetention o nowUnixMs incomingBytes capacity t = .ok ⟨nowUnixMs, incomingBytes, space⟩ := by
  unfold LinuxEvidenceStore.enforceRetention at h
  cases hrequest : requestRetention o nowUnixMs incomingBytes capacity t with
  | error error =>
    rw [hrequest] at h
    cases h
  | ok request =>
    obtain ⟨space, hspace, rfl⟩ := requestRetention_eq_ok hrequest
    exact ⟨space, hspace, rfl⟩

theorem old_event_deleted (hb : store.Bounded) {outcome : RetentionOutcome}
    (h : (store.enforceRetention o nowUnixMs incomingBytes capacity t).1 = .ok outcome)
    (hlookup : store.index.lookup eventId = some detail) {closedAt : Nat} (hclosed : detail.latest.closedAtUnixMs = some closedAt)
    (hold : closedAt + evidenceMaxClosedAgeMs < nowUnixMs) :
    eventId ∈ outcome.deletedEventIds ∧
      (store.enforceRetention o nowUnixMs incomingBytes capacity t).2.1.index.lookup eventId = none ∧
      ∀ path, [eventName eventId] <+: path →
        (store.enforceRetention o nowUnixMs incomingBytes capacity t).2.2.get path = none := by
  obtain ⟨space, -, hrequest⟩ := request_of_ok h
  obtain ⟨gone, rest, hd⟩ := enforceRetention_deletes hb hrequest
  have hfitting := hd.fitting outcome h
  have hgone : eventId ∈ gone.map Candidate.eventId := by
    by_contra hnot
    have hkept := mt (hd.lost eventId).mp hnot
    rw [Lost, not_or, not_not] at hkept
    exact hfitting.fresh ⟨closedAt, eventId, detail.bundleBytes⟩ ⟨detail, hkept.1.trans hlookup, hclosed, rfl⟩ hold
  obtain ⟨c, hc, rfl⟩ := List.mem_map.mp hgone
  exact ⟨hfitting.deleted ▸ hgone, hd.removed outcome h c hc⟩

theorem open_event_kept (hb : store.Bounded) {outcome : RetentionOutcome}
    (h : (store.enforceRetention o nowUnixMs incomingBytes capacity t).1 = .ok outcome)
    (hlookup : store.index.lookup eventId = some detail) (hopen : detail.latest.closedAtUnixMs = none) :
    (store.enforceRetention o nowUnixMs incomingBytes capacity t).2.1.index.lookup eventId = some detail ∧
      ∀ path, [eventName eventId] <+: path →
        (store.enforceRetention o nowUnixMs incomingBytes capacity t).2.2.get path = t.get path := by
  obtain ⟨space, -, hrequest⟩ := request_of_ok h
  obtain ⟨gone, rest, hd⟩ := enforceRetention_deletes hb hrequest
  have hnot : eventId ∉ gone.map Candidate.eventId := by
    intro hgone
    obtain ⟨c, hc, rfl⟩ := List.mem_map.mp hgone
    obtain ⟨detail', hlookup', hclosed, -⟩ := mem_candidates_iff.mp (hd.candidates ▸ List.mem_append_left rest hc)
    rw [hlookup] at hlookup'
    cases hlookup'
    rw [hopen] at hclosed
    cases hclosed
  have hkept := mt (hd.lost eventId).mp hnot
  rw [Lost, not_or, not_not] at hkept
  refine ⟨hkept.1.trans hlookup, fun path hpath => ?_⟩
  by_contra hchanged
  exact hkept.2 ⟨path, hpath, hchanged⟩

/-- **Closed evidence ages out, open evidence does not.** Whatever disk earlier runs of the
daemon have left, and whatever calls this one has made, a successful retention deletes every
event whose close is more than thirty days old, and leaves every event without a close as it is. -/
theorem closed_events_age_out (F : Formats) (packageVersion : PackageVersion) (opening : Outside) (t₀ : Disk)
    (store : LinuxEvidenceStore) (hopen : LinuxEvidenceStore.openRoot F opening packageVersion t₀ = .ok store)
    (calls : List StoreCall) (o : Outside) (nowUnixMs incomingBytes : Nat) (capacity : Option FilesystemSpace)
    (outcome : RetentionOutcome) :
    let s := afterCalls F (store, t₀) calls
    let after := s.1.enforceRetention o nowUnixMs incomingBytes capacity s.2
    after.1 = .ok outcome → ∀ eventId detail, s.1.index.lookup eventId = some detail →
      (∀ closedAt, detail.latest.closedAtUnixMs = some closedAt → closedAt + evidenceMaxClosedAgeMs < nowUnixMs →
        eventId ∈ outcome.deletedEventIds ∧ after.2.1.index.lookup eventId = none ∧
          ∀ path, [eventName eventId] <+: path → after.2.2.get path = none) ∧
      (detail.latest.closedAtUnixMs = none → after.2.1.index.lookup eventId = some detail ∧
        ∀ path, [eventName eventId] <+: path → after.2.2.get path = s.2.get path) := by
  intro s after hok eventId detail hlookup
  have hb : s.1.Bounded := bounded_reachable hopen calls
  exact ⟨fun closedAt hclosed hold => old_event_deleted hb hok hlookup hclosed hold, fun hnone => open_event_kept hb hok hlookup hnone⟩

/-! ### Nothing but age -/

/-- A store without closed events has nothing to go through. -/
theorem enforceRetention_nothing {request : RetentionRequest} (hcandidates : store.index.candidates = [])
    (hrequest : requestRetention o nowUnixMs incomingBytes capacity t = .ok request) :
    store.enforceRetention o nowUnixMs incomingBytes capacity t =
      ((store.settleRetention request (store.reclaiming t)).1, (store.settleRetention request (store.reclaiming t)).2, t) := by
  rw [enforceRetention_eq hrequest, hcandidates]
  rfl

/-- The closed events that are too old: the first ones. -/
def oldEvents (request : RetentionRequest) (index : Index) : List Candidate :=
  index.candidates.takeWhile fun c => decide (request.Expired c)

section
variable {request : RetentionRequest} {done rest : List Candidate}

theorem oldEvents_eq (hsplit : store.index.candidates = done ++ rest) (hold : ∀ c ∈ done, request.Expired c)
    (hyoung : ∀ c back, rest = c :: back → ¬request.Expired c) : oldEvents request store.index = done := by
  have hrest : rest.takeWhile (fun c => decide (request.Expired c)) = [] := by
    cases rest with
    | nil => rfl
    | cons c back => exact List.takeWhile_cons_of_neg (by simpa using hyoung c back rfl)
  rw [oldEvents, hsplit, List.takeWhile_append_of_pos (by simpa using hold), hrest, List.append_nil]

theorem oldEvents_split (request : RetentionRequest) (index : Index) :
    ∃ young, index.candidates = oldEvents request index ++ young ∧ (∀ c ∈ oldEvents request index, request.Expired c) ∧
      ∀ c back, young = c :: back → ¬request.Expired c := by
  refine ⟨index.candidates.dropWhile fun c => decide (request.Expired c), List.takeWhile_append_dropWhile.symm, ?_, ?_⟩
  · intro c hc
    exact of_decide_eq_true (List.mem_takeWhile_imp (p := fun c => decide (request.Expired c)) hc)
  · intro c back heq hexpired
    have hhead := List.head?_dropWhile_not (fun c => decide (request.Expired c)) index.candidates
    rw [heq] at hhead
    simp [hexpired] at hhead

/-- Everything but the age of some events is as it should be. -/
structure Roomy (store : LinuxEvidenceStore) (request : RetentionRequest) : Prop where
  total : store.health.totalBytes + request.incomingBytes ≤ evidenceMaxStoreBytes
  space : request.incomingBytes + max evidenceMinFreeReserveBytes (request.filesystem.totalBytes * 5 / 100) ≤
    request.filesystem.availableBytes
  width : request.filesystem.availableBytes < u64Bound

/-- In a roomy store the loop stops when the count and the sum of the free bytes are right. -/
theorem suffices_roomy (hr : Roomy store request) {c : Candidate} (gone : List Candidate) :
    request.suffices store.health (bytesIn gone) gone.length c = true ↔
      ¬request.Expired c ∧ store.health.eventCount - gone.length < evidenceMaxEvents ∧
        request.filesystem.availableBytes + bytesIn gone < u64Bound := by
  rw [suffices_iff]
  constructor
  · rintro ⟨hyoung, hmeets, hwidth⟩
    exact ⟨hyoung, hmeets.count, hwidth⟩
  · rintro ⟨hyoung, hcount, hwidth⟩
    have htotal := hr.total
    have hspace := hr.space
    refine ⟨hyoung, ⟨?_, hcount, ?_⟩, hwidth⟩
    · show store.health.totalBytes - _ + _ ≤ _
      omega
    · omega

theorem settle_roomy (hb : store.Bounded) (hr : Roomy store request) (hsplit : store.index.candidates = done ++ rest) :
    (∃ outcome, (store.settleRetention request ((store.reclaiming t).withoutAll done)).1 = .ok outcome ∧
      outcome.deletedEventIds = done.map Candidate.eventId) ↔ store.index.keys.length - done.length < evidenceMaxEvents := by
  have hreclaims : Reclaims (done ++ rest) (store.reclaiming t) := hsplit ▸ reclaims_bounded hb t
  obtain ⟨-, hlength, -⟩ := tally_withoutAll hreclaims
  have hdeleted := @reclaiming_deleted t store done
  generalize (store.reclaiming t).withoutAll done = S at *
  change S.index.keys.length + done.length = store.index.keys.length at hlength
  have htotal := hr.total
  have hspace := hr.space
  have hwidth := hr.width
  have hcount := hb.count
  have hmax : evidenceMaxEvents ≤ 65535 := by decide
  have hfits : ((checkedAdd (store.health.totalBytes - S.reclaimed) request.incomingBytes).any (· ≤ evidenceMaxStoreBytes) &&
      (decide (request.incomingBytes ≤ saturatingAdd request.filesystem.availableBytes S.reclaimed) &&
        decide (minimumFreeReserve request.filesystem.totalBytes ≤
          saturatingAdd request.filesystem.availableBytes S.reclaimed - request.incomingBytes)) &&
      decide (min S.index.keys.length 65535 < evidenceMaxEvents)) = true ↔
        store.index.keys.length - done.length < evidenceMaxEvents := by
    have hle : request.filesystem.availableBytes ≤ saturatingAdd request.filesystem.availableBytes S.reclaimed :=
      le_min (Nat.le_add_right ..) (Nat.le_sub_one_of_lt hwidth)
    rw [Bool.and_eq_true, Bool.and_eq_true, fits_total, Bool.and_eq_true, decide_eq_true_iff, decide_eq_true_iff,
      decide_eq_true_iff, minimumFreeReserve_eq]
    omega
  unfold LinuxEvidenceStore.settleRetention
  dsimp only
  split
  case isTrue hyes =>
    exact ⟨fun _ => hfits.mp hyes, fun _ => ⟨_, rfl, hdeleted⟩⟩
  case isFalse hno =>
    constructor
    · rintro ⟨outcome, hok, -⟩
      cases hok
    · intro hroom
      exact absurd (hfits.mpr hroom) hno

/-- What makes a roomy store get rid of its old events, and of nothing else. -/
structure Renews (o : Outside) (store : LinuxEvidenceStore) (request : RetentionRequest) (t : Disk) : Prop where
  removable : ∀ c ∈ oldEvents request store.index, Removable o t c
  room : store.index.keys.length - (oldEvents request store.index).length < evidenceMaxEvents
  /-- If a closed event is left, the loop has to see that it need not go. -/
  young : oldEvents request store.index = store.index.candidates ∨
    store.health.eventCount - (oldEvents request store.index).length < evidenceMaxEvents ∧
      request.filesystem.availableBytes + bytesIn (oldEvents request store.index) < u64Bound

/-- The loop of a roomy store that renews itself goes through the old events. -/
theorem walked_old (hb : store.Bounded) (hr : Roomy store request) (hn : Renews o store request t)
    (hw : Walked o store request t done rest) {result : Except EvidenceStoreError Unit × Reclaiming}
    (hends : Ends o request store.health ((store.reclaiming t).withoutAll done) rest result) :
    oldEvents request store.index = done ∧ result = (.ok (), (store.reclaiming t).withoutAll done) := by
  obtain ⟨young, hsplit, hold, hyoung⟩ := oldEvents_split request store.index
  -- the first young event need not go
  have hstop : ∀ c back, young = c :: back → request.suffices store.health
      (bytesIn (oldEvents request store.index)) (oldEvents request store.index).length c = true := by
    intro c back heq
    rcases hn.young with hall | ⟨hcount, hwidth⟩
    · rw [← hall, heq] at hsplit
      exact absurd (List.self_eq_append_right.mp hsplit) (List.cons_ne_nil c back)
    · exact (suffices_roomy hr _).mpr ⟨hyoung c back heq, hcount, hwidth⟩
  have hsame := hsplit.symm.trans hw.candidates
  have hdone : oldEvents request store.index = done := by
    rcases List.append_eq_append_iff.mp hsame with ⟨middle, hfront, hmiddle⟩ | ⟨middle, hfront, hmiddle⟩
    · -- the loop would go beyond the old events
      cases middle with
      | nil => rw [hfront, List.append_nil]
      | cons c middle =>
        have hneeded := (hw.needed _ c middle hfront).1
        rw [hstop c (middle ++ rest) hmiddle] at hneeded
        cases hneeded
    · -- the loop would stop before
      cases middle with
      | nil => rw [hfront, List.append_nil]
      | cons c middle =>
        have hmem : c ∈ oldEvents request store.index := hfront ▸ List.mem_append_right _ List.mem_cons_self
        rw [List.cons_append] at hmiddle
        subst hmiddle
        cases hends with
        | enough h =>
          rw [reclaiming_reclaimed, reclaiming_deleted, List.length_map] at h
          exact absurd (hold c hmem) ((suffices_roomy hr done).mp h).1
        | stuck h hevent => exact absurd (hn.removable c hmem) (hw.stuck hb hevent)
  refine ⟨hdone, ?_⟩
  rw [hdone] at hstop hsplit
  obtain rfl := List.append_cancel_left (hsplit.symm.trans hw.candidates)
  cases hends with
  | all => rfl
  | enough h => rfl
  | stuck h hevent =>
    rw [reclaiming_reclaimed, reclaiming_deleted, List.length_map, hstop _ _ rfl] at h
    cases h

/-- **In a roomy store retention succeeds and deletes nothing but what is too old, exactly if
the old events can be removed and the sums are right after that.** -/
theorem renews_iff (hb : store.Bounded) (hr : Roomy store request)
    (hrequest : requestRetention o nowUnixMs incomingBytes capacity t = .ok request) :
    (∃ outcome, (store.enforceRetention o nowUnixMs incomingBytes capacity t).1 = .ok outcome ∧
      ∀ eventId ∈ outcome.deletedEventIds, ∃ c, store.index.Closed c ∧ c.eventId = eventId ∧ request.Expired c) ↔
      Renews o store request t := by
  obtain ⟨done, rest, hw, hends⟩ := @walked_reclaim o t request store hb
  have hcall := @enforceRetention_eq o t request store _ _ _ hrequest
  generalize reclaim o request store.health store.index.candidates (store.reclaiming t) = result at hends hcall
  rw [hcall]
  have hsettle := @settle_roomy t store request done rest hb hr hw.candidates
  constructor
  · rintro ⟨outcome, hok, hdeleted⟩
    -- the events that went are the old ones
    have hfinish : result = (.ok (), (store.reclaiming t).withoutAll done) → (∀ c back, rest = c :: back →
        request.suffices store.health (bytesIn done) done.length c = true) → Renews o store request t := by
      rintro rfl hstop
      have hids : outcome.deletedEventIds = done.map Candidate.eventId :=
        (fitting_settle hb hw.candidates hstop outcome hok).deleted
      have hold : ∀ c ∈ done, request.Expired c := by
        intro c hc
        obtain ⟨c', hclosed, hsame, hexpired⟩ := hdeleted c.eventId (hids ▸ List.mem_map_of_mem hc)
        have hmem : c ∈ store.index.candidates := hw.candidates ▸ List.mem_append_left _ hc
        rwa [← List.inj_on_of_nodup_map (candidates_nodup store.index) (mem_candidates_iff.mpr hclosed) hmem hsame]
      have hE := oldEvents_eq hw.candidates hold fun c back heq => ((suffices_roomy hr done).mp (hstop c back heq)).1
      refine ⟨hE ▸ hw.removable, hE ▸ hsettle.mp ⟨outcome, hok, hids⟩, ?_⟩
      rw [hE]
      cases rest with
      | nil => exact .inl (hw.candidates.trans (List.append_nil _)).symm
      | cons c back => exact .inr ((suffices_roomy hr done).mp (hstop c back rfl)).2
    cases hends with
    | all => exact hfinish rfl fun c back heq => by cases heq
    | enough h =>
      rw [reclaiming_reclaimed, reclaiming_deleted, List.length_map] at h
      refine hfinish rfl fun c back heq => ?_
      cases heq
      exact h
    | stuck h hevent => cases hok
  · intro hn
    obtain ⟨hE, rfl⟩ := walked_old hb hr hn hw hends
    obtain ⟨outcome, hok, hids⟩ := hsettle.mpr (hE ▸ hn.room)
    refine ⟨outcome, hok, ?_⟩
    intro eventId hmem
    rw [hids, ← hE] at hmem
    obtain ⟨c, hc, rfl⟩ := List.mem_map.mp hmem
    obtain ⟨young, hsplit, hold, -⟩ := oldEvents_split request store.index
    exact ⟨c, mem_candidates_iff.mp (hsplit ▸ List.mem_append_left _ hc), rfl, hold c hc⟩

end

def commonCapacity : FilesystemSpace := ⟨2 ^ 40, 2 ^ 40⟩

theorem commonRequest_ok {uid nowUnixMs : Nat} (ht : t.get [] = some (.directory 0o700 uid)) :
    requestRetention (.calm uid) nowUnixMs evidenceMaxRevisionBytes (some commonCapacity) t =
      .ok ⟨nowUnixMs, evidenceMaxRevisionBytes, commonCapacity⟩ := by
  have hvalid : (Outside.calm uid).validateRoot t = .ok () := validatePrivateDirectory_eq_ok.mpr ⟨rfl, ht⟩
  rw [requestRetention, hvalid]
  rfl

/-- A month and a moment after the sample events. -/
def lateRequest : RetentionRequest := ⟨2592001001, evidenceMaxRevisionBytes, commonCapacity⟩

/-- The first of two closed events is old. -/
theorem closed_events_age_out_two : ∃ t outcome,
    afterCalls compactFormats (emptyStore sampleVersion, emptyRoot 0) (twoClosed.reverse.map (SampleEvent.put 0)) =
        (sampleStore twoClosed, t) ∧
      ((sampleStore twoClosed).enforceRetention (.calm 0) 2592001001 evidenceMaxRevisionBytes (some commonCapacity) t).1 =
        .ok outcome ∧
      1 ∈ outcome.deletedEventIds := by
  have hopen := @openRoot_empty 0 compactFormats sampleVersion
  have hb := bounded_reachable hopen (twoClosed.reverse.map (SampleEvent.put 0))
  have hage := closed_events_age_out compactFormats sampleVersion (.calm 0) (emptyRoot 0) (emptyStore sampleVersion) hopen
    (twoClosed.reverse.map (SampleEvent.put 0)) (.calm 0) 2592001001 evidenceMaxRevisionBytes (some commonCapacity)
  obtain ⟨t, hafter, htidy, -⟩ := after_puts 0 twoClosed_stored
  rw [hafter] at hb hage
  have hroomy : Roomy (sampleStore twoClosed) lateRequest := ⟨by decide, by decide, by decide⟩
  have hremovable : ∀ c ∈ (sampleStore twoClosed).index.candidates, Removable (.calm 0) t c :=
    fun c hc => removable_tidy htidy (mem_candidates_iff.mp hc)
  have hrenews : Renews (.calm 0) (sampleStore twoClosed) lateRequest t := by
    have hE : oldEvents lateRequest (sampleStore twoClosed).index = [⟨1000, 1, sampleBytes⟩] := by
      refine @oldEvents_eq _ _ _ [⟨2000, 2, sampleBytes⟩] twoClosed_candidates ?_ ?_
      · intro c hc
        rw [List.mem_singleton.mp hc]
        decide
      · rintro c back ⟨⟩
        decide
    refine ⟨fun c hc => hremovable c ?_, ?_, .inr ⟨?_, ?_⟩⟩
    · rw [hE] at hc
      show c ∈ (sampleIndex twoClosed).candidates
      rw [twoClosed_candidates]
      exact List.mem_append_left _ hc
    · exact (Nat.sub_le ..).trans_lt (by decide)
    · exact (Nat.sub_le ..).trans_lt (by decide)
    · rw [hE]
      decide
  obtain ⟨outcome, hok, -⟩ := (renews_iff hb hroomy (commonRequest_ok htidy.root)).mpr hrenews
  exact ⟨t, outcome, hafter, hok, ((hage outcome hok 1 _ rfl).1 1000 rfl (by decide)).1⟩

/-! ### An abandoned event -/

theorem sampleIfindex_ne : (7 : Nat) ≠ 0 := by decide

theorem sampleGeneration_ne : (11 : Nat) ≠ 0 := by decide

def sampleIdentity : IncidentIdentity := ⟨"lan0", 7, 11, sampleIfindex_ne, sampleGeneration_ne⟩

def stormTransition : Detection.DetectionTransition := ⟨1, .normal, .ingressStormConfirmed, .stormAsserted, 1000⟩

def stormSnapshot : ObservationSnapshot where
  schemaVersion := observationSchemaVersion
  interface := "lan0"
  ifindex := 7
  generation := 11
  capturedAtUnixMs := 1000
  vlanVisibility := .unknown
  health := .healthy
  hooks := fun i => ⟨hookOrder i, .zero, fun c => ⟨classOrder c, .zero⟩, .zero⟩
  sampling := ⟨some 1000, none, 0, false⟩
  rateWindows := fun _ => ⟨1000, .warmingUp, 0, none, none, none, none⟩
  baseline := .learning 1000
  fingerprints := .empty
  detection := .warming 1000

def abandonedEvent : SampleEvent := ⟨1, 1000, none⟩

/-- The calls of the first run: the retention and the put for its recorder's first job. -/
def firstRun : List StoreCall :=
  [.enforceRetention (.calm 0) 1000 evidenceMaxRevisionBytes (some commonCapacity), abandonedEvent.put 0]

/-- A recorder opens an incident and its first revision is stored; then the daemon is gone. The
next run finds the event, its recorder has no active incident, and a month later a successful
retention leaves the event where it is. -/
theorem abandoned_event_stays :
    ((IncidentRecorder.new sampleIdentity fun _ => .ok 1).record stormTransition stormSnapshot).1 =
        .ok (some abandonedEvent.revision) ∧
      (IncidentRecorder.new sampleIdentity fun _ => .ok 2).active = none ∧
      ∃ t store outcome detail,
        (afterCalls compactFormats (emptyStore sampleVersion, emptyRoot 0) firstRun).2 = t ∧
        LinuxEvidenceStore.openRoot compactFormats (.calm 0) sampleVersion t = .ok store ∧
        (store.enforceRetention (.calm 0) 2592001001 evidenceMaxRevisionBytes (some commonCapacity) t).1 = .ok outcome ∧
        (store.enforceRetention (.calm 0) 2592001001 evidenceMaxRevisionBytes (some commonCapacity) t).2.1.index.lookup 1 =
          some detail ∧
        detail.latest.occurredAtUnixMs + evidenceMaxClosedAgeMs < 2592001001 := by
  have hstored : Stored [abandonedEvent] := by
    refine ⟨by decide, ?_, by decide⟩
    intro x hx
    rw [List.mem_singleton.mp hx]
    exact ⟨by decide, by decide⟩
  have hnothing : ∀ x ∈ [abandonedEvent], x.closedAt = none := fun x hx => List.mem_singleton.mp hx ▸ rfl
  have hretention : StoreCall.apply compactFormats (emptyStore sampleVersion, emptyRoot 0)
      (.enforceRetention (.calm 0) 1000 evidenceMaxRevisionBytes (some commonCapacity)) =
      (emptyStore sampleVersion, emptyRoot 0) := by
    have hrequest : requestRetention (.calm 0) 1000 evidenceMaxRevisionBytes (some commonCapacity) (emptyRoot 0) =
        .ok ⟨1000, evidenceMaxRevisionBytes, commonCapacity⟩ := rfl
    rw [StoreCall.apply, enforceRetention_nothing (by simp [emptyStore, Index.candidates]) hrequest]
    unfold LinuxEvidenceStore.settleRetention
    dsimp only
    split
    case isTrue hfits =>
      rw [hfits]
      rfl
    case isFalse hno => exact absurd (by decide) hno
  obtain ⟨t, hafter, htidy, hmirrors⟩ := after_puts 0 hstored
  obtain ⟨store, hopen, -, hlookups⟩ := restart_tidy hmirrors htidy (by decide) sampleVersion
  have hkept := kept_openRoot hopen
  have hclosed : ∀ c, ¬store.index.Closed c := by
    rintro c ⟨detail, hdetail, hat, -⟩
    rw [hlookups] at hdetail
    have hin : (sampleIndex [abandonedEvent]).Closed ⟨c.closedAt, c.eventId, detail.bundleBytes⟩ := ⟨detail, hdetail, hat, rfl⟩
    obtain ⟨x, hx, -, hsome, -⟩ := (closed_sampleIndex hstored.distinct).mp hin
    rw [hnothing x hx] at hsome
    cases hsome
  have hcandidates : store.index.candidates = [] :=
    List.eq_nil_iff_forall_not_mem.mpr fun c hc => hclosed c (mem_candidates_iff.mp hc)
  have htotal : store.health.totalBytes = sampleBytes := by
    rw [hkept.accounted.2, tally_congr bytesOf store.index hlookups]
    rfl
  have hcount : store.index.keys.length = 1 := by
    rw [length_eq_tally, tally_congr _ store.index hlookups]
    rfl
  have hroomy : Roomy store lateRequest := by
    refine ⟨?_, by decide, by decide⟩
    rw [htotal]
    decide
  have hold : oldEvents lateRequest store.index = [] := by
    rw [oldEvents, hcandidates]
    rfl
  have hrenews : Renews (.calm 0) store lateRequest t := by
    refine ⟨fun c hc => ?_, ?_, .inl (hold.trans hcandidates.symm)⟩
    · rw [hold] at hc
      cases hc
    · rw [hcount]
      exact (Nat.sub_le ..).trans_lt (by decide)
  obtain ⟨outcome, hok, -⟩ := (renews_iff hkept.bounded hroomy (commonRequest_ok htidy.root)).mpr hrenews
  have hlookup : store.index.lookup 1 = some ⟨abandonedEvent.revision, sampleBytes, rfl⟩ := hlookups 1
  refine ⟨by decide, rfl, t, store, outcome, ⟨abandonedEvent.revision, sampleBytes, rfl⟩, ?_, hopen, hok,
    (open_event_kept hkept.bounded hok hlookup rfl).1, by decide⟩
  rw [afterCalls, firstRun, List.foldl_cons, hretention]
  exact congrArg Prod.snd hafter

end NetworkLoop.Evidence
