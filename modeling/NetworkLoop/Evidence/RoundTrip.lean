import NetworkLoop.Evidence.Drift

/-! A restart after a run on which every call went through.

The disk then holds the events of the index and nothing besides (`Plain`), so `recover` counts
nothing as corrupt, incomplete or unknown (`recovered_plain`). A put and a retention that
succeed keep disk and index together (`exact_put`, `exact_retention`); `restart_exact` is about
whole runs. -/
namespace NetworkLoop.Evidence
open Library Observation Table

/-- Every name in the root is that of an event's directory, and every name in there that of a
revision that can be read. -/
structure Plain (F : Formats) (uid : Nat) (t : Disk) : Prop where
  events : ∀ name, t.get [name] ≠ none →
    ∃ eventId, name = eventName eventId ∧ t.get [name] = some (.directory 0o700 uid)
  revisions : ∀ eventId name, t.get [eventName eventId, name] ≠ none → ∃ x, named F uid t eventId name = some x

variable {F : Formats} {o : Outside} {uid : Nat} {t t' b : Disk} {s : LinuxEvidenceStore} {eventId : EventId}

/-! ### Recovery -/

theorem foldl_adoptRevision_health (names : List String) (found : RecoveredEvent eventId)
    (hnamed : ∀ name ∈ names, ∃ x, named F uid t eventId name = some x) :
    (names.foldl (adoptRevision F (.calm uid) eventId t) found).health = found.health := by
  induction names generalizing found with
  | nil => rfl
  | cons name rest ih =>
    obtain ⟨x, hx⟩ := hnamed name List.mem_cons_self
    rw [List.foldl_cons, ih _ fun other hother => hnamed other (List.mem_cons_of_mem _ hother), adoptRevision_some hx]

/-- An event of a plain disk adds nothing to the oddities. -/
theorem recoverEvent_plain (hp : Plain F uid t) (hthere : t.get [eventName eventId] = some (.directory 0o700 uid))
    (health : EvidenceStoreHealth) :
    recoverEvent F (.calm uid) eventId health t = .ok (foundEvent F uid t eventId, health) := by
  obtain ⟨health', hfound⟩ := @recoverEvent_calm F uid t eventId health
  have hvalid : (Outside.calm uid).validatePrivateDirectory [eventName eventId] .io t = .ok () :=
    validatePrivateDirectory_eq_ok.mpr ⟨rfl, hthere⟩
  have hnames : (Outside.calm uid).readDirectory [eventName eventId] t = .ok (sortedNames t [eventName eventId]) :=
    readDirectory_eq_ok.mpr ⟨rfl, by rw [hthere]; rfl, rfl⟩
  have hhealth := @foldl_adoptRevision_health F uid t eventId (sortedNames t [eventName eventId]) ⟨health, none, 0⟩
    fun name hname => hp.revisions eventId name (mem_sortedNames.mp hname)
  have hsame : health = health' := by
    unfold recoverEvent at hfound
    rw [hvalid, hnames] at hfound
    exact hhealth.symm.trans (Prod.mk.inj (Except.ok.inj hfound)).2
  rw [hfound, hsame]

/-- The health with other bytes. -/
def EvidenceStoreHealth.SameButBytes (a b : EvidenceStoreHealth) : Prop := a = { b with totalBytes := a.totalBytes }

theorem foldlM_adoptEvent_plain (hp : Plain F uid t) (names : List String) (hnames : ∀ name ∈ names, t.get [name] ≠ none)
    (found : Recovering) (hroom : found.canonicalEvents + names.length ≤ evidenceMaxEvents) :
    ∃ found', names.foldlM (adoptEvent F (.calm uid) t) found = .ok found' ∧ found'.health.SameButBytes found.health := by
  induction names generalizing found with
  | nil => exact ⟨found, rfl, rfl⟩
  | cons name rest ih =>
    obtain ⟨eventId, hname, hthere⟩ := hp.events name (hnames name List.mem_cons_self)
    subst hname
    rw [List.length_cons] at hroom
    have hfree : ¬found.canonicalEvents ≥ evidenceMaxEvents := by omega
    have hrest := ih fun other hother => hnames other (List.mem_cons_of_mem _ hother)
    rw [List.foldlM_cons, adoptEvent, canonicalEvent_eventName]
    dsimp only
    rw [if_neg hfree, recoverEvent_plain hp hthere]
    cases foundEvent F uid t eventId with
    | none =>
      obtain ⟨found', hfold, hsame⟩ := hrest ⟨found.index, found.health, found.canonicalEvents + 1⟩
        (by show found.canonicalEvents + 1 + rest.length ≤ _; omega)
      exact ⟨found', hfold, hsame⟩
    | some detail =>
      obtain ⟨found', hfold, hsame⟩ := hrest ⟨found.index.insert eventId detail,
        { found.health with totalBytes := saturatingAdd found.health.totalBytes detail.bundleBytes }, found.canonicalEvents + 1⟩
        (by show found.canonicalEvents + 1 + rest.length ≤ _; omega)
      exact ⟨found', hfold, hsame⟩

/-- **A restart on a plain disk counts nothing as corrupt, incomplete or unknown.** -/
theorem recovered_plain (hroot : t.get [] = some (.directory 0o700 uid)) (hp : Plain F uid t)
    (hfew : (sortedNames t []).length ≤ evidenceMaxEvents) :
    ∃ index health, LinuxEvidenceStore.recovered F (.calm uid) t = .ok (index, health) ∧
      health.corruptObjectCount = 0 ∧ health.incompleteObjectCount = 0 ∧ health.unknownObjectCount = 0 := by
  have hvalid : (Outside.calm uid).validateRoot t = .ok () := validatePrivateDirectory_eq_ok.mpr ⟨rfl, hroot⟩
  have hnames : (Outside.calm uid).readDirectory [] t = .ok (sortedNames t []) :=
    readDirectory_eq_ok.mpr ⟨rfl, by rw [hroot]; rfl, rfl⟩
  obtain ⟨found, hfold, hsame⟩ := foldlM_adoptEvent_plain hp (sortedNames t []) (fun name hname => mem_sortedNames.mp hname)
    ⟨∅, { EvidenceStoreHealth.default with available := true }, 0⟩ ((Nat.zero_add _).trans_le hfew)
  refine ⟨found.index, { found.health with eventCount := min found.index.keys.length 65535 }, ?_, ?_, ?_, ?_⟩
  · rw [LinuxEvidenceStore.recovered, hvalid, hnames]
    show ((sortedNames t []).foldlM (adoptEvent F (.calm uid) t) _ >>= _) = _
    rw [hfold]
    rfl
  · exact congrArg EvidenceStoreHealth.corruptObjectCount hsame
  · exact congrArg EvidenceStoreHealth.incompleteObjectCount hsame
  · exact congrArg EvidenceStoreHealth.unknownObjectCount hsame

/-- The names in the root of a plain disk are events of the index. -/
theorem length_sortedNames_plain (ht : Tidy uid s t) (hp : Plain F uid t) : (sortedNames t []).length ≤ s.index.keys.length := by
  have hsub : sortedNames t [] ⊆ s.index.keys.map eventName := by
    intro name hname
    have hthere := mem_sortedNames.mp hname
    obtain ⟨eventId, rfl, -⟩ := hp.events name hthere
    refine List.mem_map_of_mem ?_
    by_contra hnot
    exact hthere (ht.absent _ (AList.lookup_eq_none.mpr hnot))
  have hlength := ((sortedNames_nodup t []).subperm hsub).length_le
  rwa [List.length_map] at hlength

/-! ### A disk that mirrors the index -/

/-- The index with its counters is what a restart finds. -/
structure Exact (F : Formats) (uid : Nat) (s : LinuxEvidenceStore) (t : Disk) : Prop where
  kept : s.Kept
  tidy : Tidy uid s t
  mirrors : Mirrors F uid s t
  plain : Plain F uid t

/-- What a restart answers. -/
structure Restored (F : Formats) (uid : Nat) (s : LinuxEvidenceStore) (t : Disk) (index : Index) (health : EvidenceStoreHealth) :
    Prop where
  recovered : ∀ s' : LinuxEvidenceStore, s'.recover F (.calm uid) t = (.ok (), { s' with index, health })
  lookup : ∀ eventId, index.lookup eventId = s.index.lookup eventId
  totalBytes : health.totalBytes = s.health.totalBytes
  eventCount : health.eventCount = s.health.eventCount
  corrupt : health.corruptObjectCount = 0
  incomplete : health.incompleteObjectCount = 0
  unknown : health.unknownObjectCount = 0

theorem Exact.restored (h : Exact F uid s t) : ∃ index health, Restored F uid s t index health := by
  have hfew := (length_sortedNames_plain h.tidy h.plain).trans h.kept.count
  obtain ⟨index, health, hrecovered, hcorrupt, hincomplete, hunknown⟩ := recovered_plain h.tidy.root h.plain hfew
  have hlookup : ∀ eventId, index.lookup eventId = s.index.lookup eventId := by
    obtain ⟨s', hopen, -, hsame⟩ := restart_tidy h.mirrors h.tidy h.kept.count s.packageVersion
    rw [LinuxEvidenceStore.openRoot, hrecovered] at hopen
    cases hopen
    exact hsame
  have hkept := @kept_recovered F (.calm uid) t s.packageVersion index health hrecovered
  refine ⟨index, health, ?_, hlookup, ?_, ?_, hcorrupt, hincomplete, hunknown⟩
  · intro s'
    rw [LinuxEvidenceStore.recover, hrecovered]
  · calc health.totalBytes = tally bytesOf index := hkept.accounted.2
      _ = tally bytesOf s.index := tally_congr bytesOf index hlookup
      _ = s.health.totalBytes := h.kept.accounted.2.symm
  · calc health.eventCount = index.keys.length := hkept.accounted.1
      _ = s.index.keys.length := by rw [length_eq_tally, length_eq_tally, tally_congr _ index hlookup]
      _ = s.health.eventCount := h.kept.accounted.1.symm

/-! ### A put that succeeds -/

theorem named_congr {name : String}
    (h : ∀ rest, t'.get (eventName eventId :: name :: rest) = t.get (eventName eventId :: name :: rest)) :
    named F uid t' eventId name = named F uid t eventId name := by
  unfold named
  cases hparse : parseRevisionName name with
  | none => rfl
  | some number =>
    have hname := (parseRevisionName_iff.mp hparse).1
    subst hname
    exact revisionAt_congr h

section
variable {revision : IncidentRevisionV1} {admitted : Admitted}

theorem plain_written (hp : Plain F uid b) (hadmission : s.admission F revision = .ok admitted)
    (h : Written uid revision admitted b t) : Plain F uid t := by
  have hevent : ∀ name, name ≠ eventName revision.eventId → t.get [name] = b.get [name] := by
    intro name hne
    exact h.get_of_ne (by simpa using hne) fun hunder => by simpa [revisionPath] using hunder.length_le
  have hrevision : ∀ eventId name, ¬(eventId = revision.eventId ∧ name = revisionName revision.revision) → ∀ rest,
      t.get (eventName eventId :: name :: rest) = b.get (eventName eventId :: name :: rest) := by
    intro eventId name hne rest
    refine h.get_of_ne (by simp) fun hunder => hne ?_
    obtain ⟨hfirst, hrest⟩ := List.cons_prefix_cons.mp hunder
    exact ⟨(eventName_injective hfirst).symm, (List.cons_prefix_cons.mp hrest).1.symm⟩
  constructor
  · intro name hthere
    by_cases hname : name = eventName revision.eventId
    · subst hname
      exact ⟨_, rfl, h.directory⟩
    · rw [hevent name hname] at hthere ⊢
      exact hp.events name hthere
  · intro eventId name hthere
    by_cases hown : eventId = revision.eventId ∧ name = revisionName revision.revision
    · obtain ⟨rfl, rfl⟩ := hown
      have hpos : 0 < revision.revision := by
        by_contra hzero
        have hvalid := (admission_eq_ok.mp hadmission).valid
        simp [IncidentRevisionV1.validate, Nat.eq_zero_of_not_pos hzero] at hvalid
      have hparse : parseRevisionName (revisionName revision.revision) = some revision.revision :=
        parseRevisionName_iff.mpr ⟨rfl, hpos, (numbered_of_admission hadmission).2⟩
      refine ⟨⟨revision, admitted.manifest, rfl⟩, ?_⟩
      rw [named, hparse]
      exact revisionAt_eq_some.mpr (onDisk_written hadmission h)
    · have hsame := hrevision eventId name hown
      rw [hsame []] at hthere
      rw [named_congr hsame]
      exact hp.revisions eventId name hthere

/-- A put that returns an error leaves the store as it was. -/
theorem put_refusal {temporary : Temporary} {error : EvidenceStoreError}
    (h : (s.put o F temporary revision t).1 = .error error) : (s.put o F temporary revision t).2.1 = s := by
  unfold LinuxEvidenceStore.put at h ⊢
  cases hchecked : o.validateRoot t >>= fun _ => s.admission F revision with
  | error error => rfl
  | ok admitted =>
    rw [hchecked] at h
    dsimp only at h ⊢
    cases hwrite : writeRevision o revision temporary admitted t with
    | mk result t' =>
      rw [hwrite] at h
      cases result with
      | error error => rfl
      | ok _ => cases h

/-- A put that returns `Ok` has written its revision, under the root's own user. -/
theorem put_ok {temporary : Temporary} {summary : EvidenceSummaryV1} (ht : Tidy uid s t)
    (h : (s.put o F temporary revision t).1 = .ok summary) :
    ∃ admitted, s.admission F revision = .ok admitted ∧ (s.put o F temporary revision t).2.1 = s.stored revision admitted ∧
      Written uid revision admitted t (s.put o F temporary revision t).2.2 := by
  unfold LinuxEvidenceStore.put at h ⊢
  cases hchecked : o.validateRoot t >>= fun _ => s.admission F revision with
  | error error =>
    rw [hchecked] at h
    cases h
  | ok admitted =>
    obtain ⟨_, hroot, hadmission⟩ := bind_eq_ok.mp hchecked
    have huid : o.uid = uid := by
      have hthere := (validatePrivateDirectory_eq_ok.mp hroot).2
      rw [ht.root] at hthere
      cases hthere
      rfl
    rw [hchecked] at h
    dsimp only at h ⊢
    cases hwrite : writeRevision o revision temporary admitted t with
    | mk result t' =>
      rw [hwrite] at h
      cases result with
      | error error => cases h
      | ok _ => exact ⟨admitted, hadmission, rfl, huid ▸ writeRevision_meets.ok rfl hwrite⟩

theorem exact_put (hx : Exact F uid s t) {temporary : Temporary} {summary : EvidenceSummaryV1}
    (h : (s.put o F temporary revision t).1 = .ok summary) :
    Exact F uid (s.put o F temporary revision t).2.1 (s.put o F temporary revision t).2.2 := by
  have hkept := @kept_put F o t s hx.kept temporary revision
  obtain ⟨admitted, hadmission, hstored, hwritten⟩ := put_ok hx.tidy h
  rw [hstored] at hkept ⊢
  exact ⟨hkept, tidy_written hx.tidy hadmission hwritten, mirrors_written hx.mirrors hx.tidy hadmission hwritten,
    plain_written hx.plain hadmission hwritten⟩

end

/-! ### A retention that succeeds -/

section
variable {gone : List Candidate} {after : LinuxEvidenceStore × Disk} {nowUnixMs incomingBytes : Nat}
  {capacity : Option FilesystemSpace} {outcome : RetentionOutcome}

/-- Some events are gone from the index and from the disk, and nothing else is. -/
structure Swept (gone : List Candidate) (s : LinuxEvidenceStore) (t : Disk) (after : LinuxEvidenceStore × Disk) : Prop where
  lookup : ∀ eventId, after.1.index.lookup eventId =
    if eventId ∈ gone.map Candidate.eventId then none else s.index.lookup eventId
  disk : ∀ path, after.2.get path = if ∃ c ∈ gone, [eventName c.eventId] <+: path then none else t.get path

theorem Swept.under (h : Swept gone s t after) (eventId : EventId) (rest : Path) :
    after.2.get (eventName eventId :: rest) =
      if eventId ∈ gone.map Candidate.eventId then none else t.get (eventName eventId :: rest) := by
  rw [h.disk]
  refine if_congr ?_ rfl rfl
  constructor
  · rintro ⟨c, hc, hunder⟩
    have heq := eventName_injective (List.cons_prefix_cons.mp hunder).1
    exact heq ▸ List.mem_map_of_mem hc
  · intro hmem
    obtain ⟨c, hc, rfl⟩ := List.mem_map.mp hmem
    exact ⟨c, hc, ⟨rest, rfl⟩⟩

theorem Swept.kept_event (h : Swept gone s t after) (hsome : after.1.index.lookup eventId ≠ none) :
    eventId ∉ gone.map Candidate.eventId ∧ after.1.index.lookup eventId = s.index.lookup eventId := by
  have hlookup := h.lookup eventId
  by_cases hgone : eventId ∈ gone.map Candidate.eventId
  · rw [if_pos hgone] at hlookup
    exact absurd hlookup hsome
  · rw [if_neg hgone] at hlookup
    exact ⟨hgone, hlookup⟩

theorem tidy_swept (ht : Tidy uid s t) (h : Swept gone s t after) : Tidy uid after.1 after.2 where
  root := by
    rw [h.disk, if_neg]
    · exact ht.root
    · rintro ⟨c, -, hunder⟩
      simpa using hunder.length_le
  absent eventId hnone := by
    rw [h.under]
    split
    case isTrue => rfl
    case isFalse hgone =>
      rw [h.lookup, if_neg hgone] at hnone
      exact ht.absent eventId hnone
  present eventId hsome := by
    obtain ⟨hgone, hlookup⟩ := h.kept_event hsome
    rw [h.under, if_neg hgone]
    exact ht.present eventId (hlookup ▸ hsome)
  settled eventId name hname := by
    rw [h.under, ht.settled eventId name hname, ite_self]
  free eventId detail hdetail number hlt hmax := by
    obtain ⟨-, hlookup⟩ := h.kept_event (hdetail ▸ Option.some_ne_none detail)
    rw [revisionPath, h.under, ← revisionPath, ht.free eventId detail (hlookup ▸ hdetail) number hlt hmax, ite_self]
  numbers eventId detail hdetail := by
    obtain ⟨-, hlookup⟩ := h.kept_event (hdetail ▸ Option.some_ne_none detail)
    exact ht.numbers eventId detail (hlookup ▸ hdetail)

theorem mirrors_swept (hm : Mirrors F uid s t) (h : Swept gone s t after) : Mirrors F uid after.1 after.2 := by
  intro eventId
  rw [h.lookup]
  by_cases hgone : eventId ∈ gone.map Candidate.eventId
  · have hnone := h.under eventId []
    rw [if_pos hgone] at hnone
    rw [if_pos hgone, foundEvent, hnone]
    simp
  · have hsame : ∀ rest, after.2.get (eventName eventId :: rest) = t.get (eventName eventId :: rest) := fun rest => by
      rw [h.under, if_neg hgone]
    rw [if_neg hgone, ← hm eventId]
    exact foundEvent_congr (hsame []) fun number rest => hsame (revisionName number :: rest)

theorem plain_swept (hp : Plain F uid t) (h : Swept gone s t after) : Plain F uid after.2 := by
  constructor
  · intro name hthere
    have hdisk := h.disk [name]
    split at hdisk
    · exact absurd hdisk hthere
    · rw [hdisk] at hthere ⊢
      exact hp.events name hthere
  · intro eventId name hthere
    have hunder := h.under eventId
    by_cases hgone : eventId ∈ gone.map Candidate.eventId
    · rw [hunder, if_pos hgone] at hthere
      exact absurd rfl hthere
    · simp only [if_neg hgone] at hunder
      rw [named_congr fun rest => hunder (name :: rest)]
      rw [hunder] at hthere
      exact hp.revisions eventId name hthere

theorem settleRetention_index (s : LinuxEvidenceStore) (request : RetentionRequest) (r : Reclaiming) :
    (s.settleRetention request r).2.index = r.index := by
  unfold LinuxEvidenceStore.settleRetention
  dsimp only
  split
  · rfl
  · rfl

theorem swept_of_ok (hb : s.Bounded) (h : (s.enforceRetention o nowUnixMs incomingBytes capacity t).1 = .ok outcome) :
    ∃ gone, Swept gone s t (s.enforceRetention o nowUnixMs incomingBytes capacity t).2 := by
  obtain ⟨space, -, hrequest⟩ := request_of_ok h
  obtain ⟨done, rest, -, hends⟩ := @walked_reclaim o t ⟨nowUnixMs, incomingBytes, space⟩ s hb
  have hcall := @enforceRetention_eq o t _ s _ _ _ hrequest
  generalize reclaim o _ s.health s.index.candidates (s.reclaiming t) = result at hends hcall
  have hfinish : result = (.ok (), (s.reclaiming t).withoutAll done) →
      Swept done s t (s.enforceRetention o nowUnixMs incomingBytes capacity t).2 := by
    rintro rfl
    rw [hcall]
    constructor
    · intro eventId
      rw [settleRetention_index]
      exact withoutAll_lookup done (s.reclaiming t) eventId
    · exact withoutAll_disk done (s.reclaiming t)
  cases hends with
  | all => exact ⟨done, hfinish rfl⟩
  | enough hstop => exact ⟨done, hfinish rfl⟩
  | stuck hstop hevent =>
    rw [hcall] at h
    cases h

/-- An interrupted retention returns an error. -/
theorem uninterrupted_of_ok (hk : s.Kept) (h : (s.enforceRetention o nowUnixMs incomingBytes capacity t).1 = .ok outcome) :
    Uninterrupted (s, t) (.enforceRetention o nowUnixMs incomingBytes capacity) := by
  rintro request hrequest ⟨done, c, rest, hsplit, -, hneeded, hdone, hc⟩
  have hreclaims := reclaims_candidates hk t
  rw [hsplit] at hreclaims
  obtain ⟨r, hrun, -⟩ := @reclaim_stuck o _ s.health _ _ done _ hreclaims hneeded hdone hc
  rw [← hsplit] at hrun
  unfold LinuxEvidenceStore.enforceRetention at h
  rw [hrequest] at h
  dsimp only at h
  rw [hrun] at h
  cases h

theorem exact_retention (hx : Exact F uid s t)
    (h : (s.enforceRetention o nowUnixMs incomingBytes capacity t).1 = .ok outcome) :
    Exact F uid (s.enforceRetention o nowUnixMs incomingBytes capacity t).2.1
      (s.enforceRetention o nowUnixMs incomingBytes capacity t).2.2 := by
  obtain ⟨gone, hswept⟩ := swept_of_ok hx.kept.bounded h
  exact ⟨kept_enforceRetention hx.kept (uninterrupted_of_ok hx.kept h), tidy_swept hx.tidy hswept, mirrors_swept hx.mirrors hswept,
    plain_swept hx.plain hswept⟩

end

/-! ### Runs -/

/-- The call is a put or a retention, and returns `Ok`. -/
def Succeeds (F : Formats) (s : LinuxEvidenceStore × Disk) : StoreCall → Prop
  | .recover _ => False
  | .put o temporary revision => ∃ summary, (s.1.put o F temporary revision s.2).1 = .ok summary
  | .enforceRetention o nowUnixMs incomingBytes capacity =>
    ∃ outcome, (s.1.enforceRetention o nowUnixMs incomingBytes capacity s.2).1 = .ok outcome

theorem exact_apply {s : LinuxEvidenceStore × Disk} (hx : Exact F uid s.1 s.2) {call : StoreCall} (h : Succeeds F s call) :
    Exact F uid (call.apply F s).1 (call.apply F s).2 := by
  cases call with
  | recover o => exact absurd h id
  | put o temporary revision =>
    obtain ⟨summary, hok⟩ := h
    exact exact_put hx hok
  | enforceRetention o nowUnixMs incomingBytes capacity =>
    obtain ⟨outcome, hok⟩ := h
    exact exact_retention hx hok

theorem exact_run (calls : List StoreCall) {s : LinuxEvidenceStore × Disk} (hx : Exact F uid s.1 s.2)
    (hcalls : (keeping F).Obeys (Succeeds F) s calls) :
    Exact F uid (afterCalls F s calls).1 (afterCalls F s calls).2 := by
  induction calls generalizing s with
  | nil => exact hx
  | cons call rest ih => exact ih (exact_apply hx hcalls.1) hcalls.2

theorem sortedNames_emptyRoot : sortedNames (emptyRoot uid) [] = [] :=
  List.eq_nil_iff_forall_not_mem.mpr fun _ hname => mem_sortedNames.mp hname (get_emptyRoot (by simp))

/-- What is opened on an empty root is the empty store. -/
theorem openRoot_emptyRoot {packageVersion : PackageVersion}
    (h : LinuxEvidenceStore.openRoot F o packageVersion (emptyRoot uid) = .ok s) : s = emptyStore packageVersion := by
  obtain ⟨⟨index, health⟩, hrecovered, hs⟩ := bind_eq_ok.mp h
  obtain ⟨-, -, hrest⟩ := bind_eq_ok.mp hrecovered
  obtain ⟨names, hnames, hrest⟩ := bind_eq_ok.mp hrest
  have hnone : names = [] := (readDirectory_eq_ok.mp (mapError_eq_ok.mp hnames)).2.2.trans sortedNames_emptyRoot
  subst hnone
  cases hrest
  cases hs
  rfl

theorem exact_empty (packageVersion : PackageVersion) : Exact F uid (emptyStore packageVersion) (emptyRoot uid) where
  kept := kept_openRoot (@openRoot_empty uid F packageVersion)
  tidy := tidy_empty packageVersion
  mirrors := mirrors_empty packageVersion
  plain := ⟨fun _ hthere => absurd (get_emptyRoot (by simp)) hthere, fun _ _ hthere => absurd (get_emptyRoot (by simp)) hthere⟩

/-- **A restart gives back the index.** After any puts and retentions that all succeed, on a
store opened on an empty root, `recover` finds the same events with the same last revisions and
bytes, the same counters, and nothing corrupt, incomplete or unknown. -/
theorem restart_exact (F : Formats) (packageVersion : PackageVersion) (uid : Nat) (o : Outside) (s : LinuxEvidenceStore)
    (hopen : LinuxEvidenceStore.openRoot F o packageVersion (emptyRoot uid) = .ok s) (calls : List StoreCall)
    (hcalls : (keeping F).Obeys (Succeeds F) (s, emptyRoot uid) calls) :
    ∃ index health, Restored F uid (afterCalls F (s, emptyRoot uid) calls).1 (afterCalls F (s, emptyRoot uid) calls).2
      index health := by
  have hempty := openRoot_emptyRoot hopen
  subst hempty
  exact (exact_run calls (exact_empty packageVersion) hcalls).restored

/-! ### Two closed events -/

/-- The puts of sample events return `Ok`: each of them changes the store. -/
theorem puts_succeed {events : List SampleEvent} (h : Stored events) :
    (keeping compactFormats).Obeys (Succeeds compactFormats) (emptyStore sampleVersion, emptyRoot 0)
      (events.reverse.map (SampleEvent.put 0)) := by
  induction events with
  | nil => trivial
  | cons x earlier ih =>
    have hfew := h.few
    rw [List.length_cons] at hfew
    have hearlier : Stored earlier :=
      ⟨(List.nodup_cons.mp h.distinct).2, fun y hy => h.times y (List.mem_cons_of_mem _ hy), by omega⟩
    obtain ⟨t, hbefore, -⟩ := after_puts 0 hearlier
    obtain ⟨t', hafter, -⟩ := after_puts 0 h
    rw [List.reverse_cons, List.map_append] at hafter ⊢
    rw [Recorder.obeys_append]
    refine ⟨ih hearlier, ?_, trivial⟩
    rw [afterCalls] at hbefore
    rw [afterCalls, List.foldl_append, hbefore] at hafter
    show Succeeds compactFormats (List.foldl (StoreCall.apply compactFormats) _ _) _
    rw [hbefore]
    show ∃ summary, ((sampleStore earlier).put (.calm 0) compactFormats sampleTemporary x.revision t).1 = .ok summary
    cases hput : ((sampleStore earlier).put (.calm 0) compactFormats sampleTemporary x.revision t).1 with
    | ok summary => exact ⟨summary, rfl⟩
    | error error =>
      have hcounts := congrArg (fun s : LinuxEvidenceStore × Disk => s.1.health.eventCount) hafter
      change ((sampleStore earlier).put (.calm 0) compactFormats sampleTemporary x.revision t).2.1.health.eventCount =
        earlier.length + 1 at hcounts
      rw [put_refusal hput] at hcounts
      change earlier.length = earlier.length + 1 at hcounts
      omega

/-- Two events are stored, and a restart finds both of them. -/
theorem restart_exact_two : ∃ index health,
    Restored compactFormats 0
      (afterCalls compactFormats (emptyStore sampleVersion, emptyRoot 0) (twoClosed.reverse.map (SampleEvent.put 0))).1
      (afterCalls compactFormats (emptyStore sampleVersion, emptyRoot 0) (twoClosed.reverse.map (SampleEvent.put 0))).2
      index health ∧ health.eventCount = 2 := by
  obtain ⟨index, health, hrestored⟩ := restart_exact compactFormats sampleVersion 0 (.calm 0) (emptyStore sampleVersion)
    (openRoot_empty compactFormats sampleVersion) (twoClosed.reverse.map (SampleEvent.put 0)) (puts_succeed twoClosed_stored)
  obtain ⟨t, hafter, -⟩ := after_puts 0 twoClosed_stored
  refine ⟨index, health, hrestored, ?_⟩
  rw [hrestored.eventCount, hafter]
  rfl

end NetworkLoop.Evidence
