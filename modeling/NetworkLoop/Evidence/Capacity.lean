import NetworkLoop.Evidence.Ageing

/-! Room for one more revision.

Before a revision is stored, retention makes room for the largest evidence. The put that
follows counts the manifest too, and the number of events for a new one only. `capacity_agrees_iff`
says exactly when the two agree: when what retention leaves has room for the manifest as well, and
when a revision of a known event finds fewer events than a store may hold (`full_store_refused`
is one that does not). -/
namespace NetworkLoop.Evidence
open Library Observation Table

/-! ### Valid revisions -/

/-- The index holds valid revisions. -/
def LinuxEvidenceStore.Validated (s : LinuxEvidenceStore) : Prop :=
  ∀ eventId detail, s.index.lookup eventId = some detail → detail.latest.validate = true

section
variable {F : Formats} {o : Outside} {t : Disk}

theorem foldl_adoptRevision_valid {eventId : EventId} (names : List String) (found : RecoveredEvent eventId)
    (h : ∀ x ∈ found.latest, x.revision.validate = true) :
    ∀ x ∈ (names.foldl (adoptRevision F o eventId t) found).latest, x.revision.validate = true := by
  induction names generalizing found with
  | nil => exact h
  | cons name rest ih =>
    refine ih (adoptRevision F o eventId t found name) ?_
    intro x hx
    unfold adoptRevision at hx
    split at hx
    · exact h x hx
    · split at hx
      · exact h x hx
      · split at hx
        · rename_i stored hread
          obtain ⟨_, _, -, -, -, hmatches⟩ := (readRevision_eq_ok hread).files
          change x ∈ (if _ then some stored else found.latest) at hx
          split at hx
          case isTrue =>
            cases hx
            exact hmatches.revision
          case isFalse => exact h x hx
        · exact h x hx
        · exact h x hx

theorem recoverEvent_valid {eventId : EventId} {health health' : EvidenceStoreHealth} {detail : Option (Indexed eventId)}
    (h : recoverEvent F o eventId health t = .ok (detail, health')) : ∀ x ∈ detail, x.latest.validate = true := by
  unfold recoverEvent at h
  split at h
  · cases h
    simp
  · split at h
    · cases h
    · rename_i names hnames
      cases h
      intro x hx
      obtain ⟨stored, hstored, rfl⟩ := Option.map_eq_some_iff.mp hx
      exact foldl_adoptRevision_valid names ⟨health, none, 0⟩ (by simp) stored hstored

theorem foldlM_adoptEvent_valid {names : List String} {found found' : Recovering}
    (hv : ∀ eventId detail, found.index.lookup eventId = some detail → detail.latest.validate = true)
    (h : names.foldlM (adoptEvent F o t) found = .ok found') :
    ∀ eventId detail, found'.index.lookup eventId = some detail → detail.latest.validate = true := by
  induction names generalizing found with
  | nil =>
    cases h
    exact hv
  | cons name rest ih =>
    rw [List.foldlM_cons] at h
    obtain ⟨next, hnext, hrest⟩ := bind_eq_ok.mp h
    refine ih ?_ hrest
    unfold adoptEvent at hnext
    split at hnext
    · cases hnext
      exact hv
    · rename_i event hname
      split at hnext
      · cases hnext
        exact hv
      · obtain ⟨⟨read, health⟩, hevent, hlast⟩ := bind_eq_ok.mp hnext
        have hread := recoverEvent_valid hevent
        cases read with
        | none =>
          cases hlast
          exact hv
        | some read =>
          cases hlast
          intro eventId detail hlookup
          by_cases heq : eventId = event
          · subst heq
            rw [AList.lookup_insert] at hlookup
            cases hlookup
            exact hread detail rfl
          · rw [AList.lookup_insert_ne heq] at hlookup
            exact hv eventId detail hlookup

theorem validated_recovered {packageVersion : PackageVersion} {index : Index} {health : EvidenceStoreHealth}
    (h : LinuxEvidenceStore.recovered F o t = .ok (index, health)) :
    (⟨packageVersion, index, health⟩ : LinuxEvidenceStore).Validated := by
  obtain ⟨-, -, hrest⟩ := bind_eq_ok.mp h
  obtain ⟨names, -, hrest⟩ := bind_eq_ok.mp hrest
  obtain ⟨found, hfound, hlast⟩ := bind_eq_ok.mp hrest
  cases hlast
  exact foldlM_adoptEvent_valid (fun eventId detail hlookup => by cases hlookup) hfound

theorem validated_recover {s : LinuxEvidenceStore} (hv : s.Validated) : (s.recover F o t).2.Validated := by
  unfold LinuxEvidenceStore.recover
  split
  · exact hv
  · rename_i index health h
    exact @validated_recovered F o t s.packageVersion index health h

theorem validated_put {s : LinuxEvidenceStore} (hv : s.Validated) (temporary : Temporary) (revision : IncidentRevisionV1) :
    (s.put o F temporary revision t).2.1.Validated := by
  unfold LinuxEvidenceStore.put
  split
  · exact hv
  · rename_i admitted hadmission
    obtain ⟨-, -, hadmission⟩ := bind_eq_ok.mp hadmission
    split
    · exact hv
    · intro eventId detail hlookup
      change (s.index.insert revision.eventId _).lookup eventId = some detail at hlookup
      by_cases heq : eventId = revision.eventId
      · subst heq
        rw [AList.lookup_insert] at hlookup
        cases hlookup
        exact (admission_eq_ok.mp hadmission).valid
      · rw [AList.lookup_insert_ne heq] at hlookup
        exact hv eventId detail hlookup

/-- Retention takes events out of the index, and puts none in. -/
theorem lookup_enforceRetention {s : LinuxEvidenceStore} (hb : s.Bounded) (nowUnixMs incomingBytes : Nat)
    (capacity : Option FilesystemSpace) {eventId : EventId} {detail : Indexed eventId}
    (h : (s.enforceRetention o nowUnixMs incomingBytes capacity t).2.1.index.lookup eventId = some detail) :
    s.index.lookup eventId = some detail := by
  unfold LinuxEvidenceStore.enforceRetention at h
  cases hrequest : requestRetention o nowUnixMs incomingBytes capacity t with
  | error error =>
    rw [hrequest] at h
    exact h
  | ok request =>
    obtain ⟨done, rest, hw, hends⟩ := @walked_reclaim o t request s hb
    rw [hrequest] at h
    dsimp only at h
    rw [← LinuxEvidenceStore.reclaiming] at h
    have hindex : ((s.reclaiming t).withoutAll done).index.lookup eventId = some detail → s.index.lookup eventId = some detail := by
      rw [withoutAll_lookup]
      split
      · intro hnone
        cases hnone
      · exact id
    have hsettle : (s.settleRetention request ((s.reclaiming t).withoutAll done)).2.index =
        ((s.reclaiming t).withoutAll done).index := by
      unfold LinuxEvidenceStore.settleRetention
      dsimp only
      split <;> rfl
    generalize reclaim o request s.health s.index.candidates (s.reclaiming t) = result at hends h
    cases hends with
    | all => exact hindex (hsettle ▸ h)
    | enough hstop => exact hindex (hsettle ▸ h)
    | stuck hstop hevent => exact hindex h

/-- **In every state a store can come to, the index holds valid revisions.** -/
theorem validated_reachable {packageVersion : PackageVersion} {store : LinuxEvidenceStore}
    (hopen : LinuxEvidenceStore.openRoot F o packageVersion t = .ok store) (calls : List StoreCall) :
    (afterCalls F (store, t) calls).1.Validated := by
  have hstart : store.Validated := by
    obtain ⟨⟨index, health⟩, hrecovered, hs⟩ := bind_eq_ok.mp hopen
    cases hs
    exact validated_recovered hrecovered
  have hrun := (keeping F).run_invariant (fun s _ => s.1.Bounded ∧ s.1.Validated) (fun s _ call hs => ⟨bounded_apply hs.1 call, ?_⟩)
    ((store, t), []) calls ⟨(kept_openRoot hopen).bounded, hstart⟩
  · rw [Recorder.run_fst] at hrun
    exact hrun.2
  · cases call with
    | recover o => exact validated_recover hs.2
    | put o temporary revision => exact validated_put hs.2 temporary revision
    | enforceRetention o nowUnixMs incomingBytes capacity =>
      exact fun eventId detail h => hs.2 eventId detail (lookup_enforceRetention hs.1 nowUnixMs incomingBytes capacity h)

end

/-! ### What a put finds too large -/

section
variable {F : Formats} {o : Outside} {s : LinuxEvidenceStore} {revision : IncidentRevisionV1} {evidence : Bytes} {t t' : Disk}

/-- A valid next revision of its event: its evidence is not too large, and with it the event is
not. -/
structure Offered (F : Formats) (s : LinuxEvidenceStore) (revision : IncidentRevisionV1) (evidence : Bytes) : Prop where
  valid : revision.validate = true
  next : revision.revision = s.expected revision.eventId
  identity : ∀ previous ∈ s.index.lookup revision.eventId, previous.latest.interface = revision.interface ∧
    previous.latest.ifindex = revision.ifindex ∧ previous.latest.interfaceGeneration = revision.interfaceGeneration ∧
    previous.latest.openedAtUnixMs = revision.openedAtUnixMs
  json : F.revisionJson revision = some evidence
  /-- The text of a revision is not empty. -/
  text : evidence ≠ []
  length : evidence.length ≤ evidenceMaxRevisionBytes
  event : ∀ manifest data, buildManifest F revision evidence s.packageVersion = .ok (manifest, data) →
    measure bytesOf s.index revision.eventId + manifest.totalBytes ≤ evidenceMaxEventBytes

theorem admit_tooLarge (h : Offered F s revision evidence) :
    s.admission F revision = .error .revisionTooLarge ↔
      ∃ manifest data, buildManifest F revision evidence s.packageVersion = .ok (manifest, data) ∧
        (evidenceMaxStoreBytes < s.health.totalBytes + manifest.totalBytes ∨
          s.index.lookup revision.eventId = none ∧ evidenceMaxEvents ≤ s.index.keys.length) := by
  have hmanifest : buildManifest F revision evidence s.packageVersion ≠ .error .revisionTooLarge := by
    intro hfails
    rcases buildManifest_eq_error h.length hfails with heq | heq <;> cases heq
  have hconflict : ¬revision.revision < s.expected revision.eventId := h.next ▸ lt_irrefl _
  have hsequence : ¬s.expected revision.eventId < revision.revision := h.next ▸ lt_irrefl _
  have hevidence : evidence ≠ [] ∧ evidence.length ≤ evidenceMaxRevisionBytes := ⟨h.text, h.length⟩
  have hwidth : evidenceMaxEventBytes < u64Bound := by decide
  unfold LinuxEvidenceStore.admission
  simp only [bind_eq_error, exists_unit_iff, require_eq_error, require_eq_ok, required_eq_error, required_eq_ok, h.valid, hconflict,
    hsequence, h.json, hmanifest, fits_total, Option.some.injEq, exists_eq_left', not_true_eq_false, not_false_eq_true, true_and,
    and_true, false_or, or_false, reduceCtorEq, and_false, Prod.exists, not_not]
  constructor
  · rintro ⟨-, hno | ⟨-, manifest, data, hbuilt, hsum | ⟨eventBytes, hsum, hevent | ⟨-, htotal | ⟨-, hfull⟩⟩⟩⟩⟩
    · exact absurd hevidence hno
    · have hsome := checkedAdd_of_lt ((h.event manifest data hbuilt).trans_lt hwidth)
      cases hsum.symm.trans hsome
    · exact absurd (checkedAdd_eq_some hsum ▸ h.event manifest data hbuilt) hevent
    · exact ⟨manifest, data, hbuilt, .inl (Nat.not_le.mp htotal)⟩
    · exact ⟨manifest, data, hbuilt, .inr hfull⟩
  · rintro ⟨manifest, data, hbuilt, hlarge⟩
    have hevent := h.event manifest data hbuilt
    refine ⟨h.identity, .inr ⟨hevidence, manifest, data, hbuilt, .inr ⟨_, checkedAdd_of_lt (hevent.trans_lt hwidth),
      .inr ⟨hevent, ?_⟩⟩⟩⟩
    by_cases htotal : s.health.totalBytes + manifest.totalBytes ≤ evidenceMaxStoreBytes
    · exact .inr ⟨htotal, hlarge.resolve_left (Nat.not_lt.mpr htotal)⟩
    · exact .inl htotal

/-- A program that does not fail over sizes. -/
def Sizeless {α : Type} (x : Effect Disk EvidenceStoreError α) : Prop :=
  Effect.Meets (fun _ => True) x (fun _ _ => True) fun error _ => error ≠ .revisionTooLarge

theorem sizeless_orElseError {α : Type} (x : Effect Disk IoErrorKind α) {f : IoErrorKind → EvidenceStoreError}
    (hf : ∀ error, f error ≠ .revisionTooLarge) : Sizeless (x.orElseError f) := by
  have hany : Effect.Meets (fun _ => True) x (fun _ _ => True) (fun _ _ => True) := by
    intro t _
    split <;> trivial
  exact hany.orElseError fun error _ _ => hf error

theorem sizeless_asIo {α : Type} (x : Effect Disk IoErrorKind α) : Sizeless (asIo x) := sizeless_orElseError x fun _ => by simp

theorem Sizeless.bind {α β : Type} {x : Effect Disk EvidenceStoreError α} {f : α → Effect Disk EvidenceStoreError β}
    (hx : Sizeless x) (hf : ∀ a, Sizeless (f a)) : Sizeless (x >>= f) := Effect.Meets.bind hx hf

theorem validatePrivateDirectory_eq_error {path : Path} {error e : EvidenceStoreError}
    (h : o.validatePrivateDirectory path error t = .error e) : e = error := by
  unfold Outside.validatePrivateDirectory at h
  split at h
  · cases h
    rfl
  · split at h
    · cases h
      rfl
    · cases h

theorem sizeless_ensureEventDirectory (eventId : EventId) : Sizeless (ensureEventDirectory o eventId) := by
  intro t _
  have hio : EvidenceStoreError.io ≠ .revisionTooLarge := by decide
  unfold ensureEventDirectory
  cases o.metadata .metadata [eventName eventId] t with
  | ok metadata =>
    cases hvalid : o.validatePrivateDirectory [eventName eventId] .io t with
    | ok _ => trivial
    | error error => exact validatePrivateDirectory_eq_error hvalid ▸ hio
  | error error =>
    cases error with
    | notFound => exact ((sizeless_asIo _).bind fun _ => (sizeless_asIo _).bind fun _ => sizeless_asIo _) t trivial
    | alreadyExists => exact hio
    | other => exact hio

theorem sizeless_commitRevision {directory : Path} {number : Nat} {temporary : Temporary} {manifest : Bytes} :
    Sizeless (commitRevision o directory number temporary evidence manifest) := by
  intro t _
  unfold commitRevision
  cases o.metadata .metadata (directory ++ [revisionName number]) t with
  | ok metadata => exact (by decide : EvidenceStoreError.revisionConflict ≠ .revisionTooLarge)
  | error error =>
    have hstage : Sizeless (stageRevision o directory (revisionName number) temporary.name evidence manifest) := by
      refine (sizeless_asIo _).bind fun _ => (sizeless_asIo _).bind fun _ => (sizeless_asIo _).bind fun _ =>
        (sizeless_asIo _).bind fun _ => (sizeless_asIo _).bind fun _ => (sizeless_asIo _).bind fun _ =>
        (sizeless_asIo _).bind fun _ => (sizeless_asIo _).bind fun _ => (sizeless_asIo _).bind fun _ => ?_
      refine sizeless_orElseError _ fun error => ?_
      split <;> simp
    have hsettle : Sizeless (settleRevision o directory) := (sizeless_asIo _).bind fun _ => sizeless_asIo _
    exact Effect.Meets.cleaning (hstage.bind fun _ => hsettle) (fun _ _ herror => herror) t trivial

/-- **A put finds a revision too large by its sizes alone**: the disk is not asked. -/
theorem put_tooLarge {temporary : Temporary} : (s.put o F temporary revision t).1 = .error .revisionTooLarge ↔
    o.validateRoot t = .ok () ∧ s.admission F revision = .error .revisionTooLarge := by
  cases hroot : o.validateRoot t with
  | error error =>
    have hother : error ≠ .revisionTooLarge := by
      rw [validatePrivateDirectory_eq_error hroot]
      decide
    rw [LinuxEvidenceStore.put, hroot]
    simp [bind, Except.bind, hother]
  | ok _ =>
    cases hadmission : s.admission F revision with
    | error error =>
      rw [LinuxEvidenceStore.put_refused hroot hadmission]
      simp
    | ok admitted =>
      have hwrite : Sizeless (writeRevision o revision temporary admitted) :=
        (sizeless_ensureEventDirectory _).bind fun _ => sizeless_commitRevision
      rw [LinuxEvidenceStore.put_admitted hroot hadmission]
      cases hrun : writeRevision o revision temporary admitted t with
      | mk result t' =>
        cases result with
        | ok _ => simp
        | error error =>
          have hother := hwrite.error trivial hrun
          simp [hother]

/-! ### What retention leaves -/

/-- The closed events that have to go, after some that have gone. -/
def RetentionRequest.leaving (request : RetentionRequest) (health : EvidenceStoreHealth) (gone : List Candidate) :
    List Candidate → List Candidate
  | [] => gone
  | c :: rest =>
    if request.suffices health (bytesIn gone) gone.length c then gone
    else request.leaving health (gone ++ [c]) rest

variable {request : RetentionRequest} {done rest gone : List Candidate}

theorem leaving_eq (hneeded : ∀ front c back, done = front ++ c :: back →
      request.suffices s.health (bytesIn (gone ++ front)) (gone ++ front).length c = false)
    (hstop : ∀ c back, rest = c :: back →
      request.suffices s.health (bytesIn (gone ++ done)) (gone ++ done).length c = true) :
    request.leaving s.health gone (done ++ rest) = gone ++ done := by
  induction done generalizing gone with
  | nil =>
    rw [List.append_nil] at hstop ⊢
    cases rest with
    | nil => rfl
    | cons c back =>
      rw [List.nil_append, RetentionRequest.leaving]
      exact if_pos (hstop c back rfl)
  | cons c done ih =>
    have hfirst := hneeded [] c done rfl
    rw [List.append_nil] at hfirst
    rw [List.cons_append, RetentionRequest.leaving, if_neg (by rw [hfirst]; decide)]
    rw [List.append_cons gone c done] at hstop ⊢
    refine ih ?_ hstop
    intro front d back heq
    rw [List.append_assoc, List.singleton_append]
    exact hneeded (c :: front) d back (congrArg (c :: ·) heq)

theorem mem_leaving {health : EvidenceStoreHealth} {candidates : List Candidate} {c : Candidate}
    (h : c ∈ request.leaving health gone candidates) : c ∈ gone ∨ c ∈ candidates := by
  induction candidates generalizing gone with
  | nil => exact .inl h
  | cons d rest ih =>
    rw [RetentionRequest.leaving] at h
    split at h
    case isTrue => exact .inl h
    case isFalse =>
      rcases ih h with hgone | hrest
      · rcases List.mem_append.mp hgone with hgone | hd
        · exact .inl hgone
        · exact .inr (List.mem_singleton.mp hd ▸ List.mem_cons_self)
      · exact .inr (List.mem_cons_of_mem d hrest)

/-- What a retention that succeeds leaves of a store. -/
structure Left (s : LinuxEvidenceStore) (t : Disk) (gone : List Candidate) (after : LinuxEvidenceStore × Disk) : Prop where
  version : after.1.packageVersion = s.packageVersion
  total : after.1.health.totalBytes = s.health.totalBytes - bytesIn gone
  room : after.1.index.keys.length < evidenceMaxEvents
  lookup : ∀ eventId, after.1.index.lookup eventId =
    if eventId ∈ gone.map Candidate.eventId then none else s.index.lookup eventId
  root : after.2.get [] = t.get []

theorem left_settle {outcome : RetentionOutcome}
    (h : (s.settleRetention request ((s.reclaiming t).withoutAll done)).1 = .ok outcome) :
    Left s t done ((s.settleRetention request ((s.reclaiming t).withoutAll done)).2, ((s.reclaiming t).withoutAll done).disk) := by
  have hreclaimed := @reclaiming_reclaimed t s done
  have hlookup := withoutAll_lookup done (s.reclaiming t)
  have hroot := withoutAll_disk done (s.reclaiming t) []
  generalize (s.reclaiming t).withoutAll done = S at *
  have hmax : evidenceMaxEvents ≤ 65535 := by decide
  unfold LinuxEvidenceStore.settleRetention at h ⊢
  dsimp only at h ⊢
  split at h
  case isFalse => cases h
  case isTrue hfits =>
    rw [if_pos hfits]
    rw [Bool.and_eq_true, decide_eq_true_iff] at hfits
    refine ⟨rfl, congrArg (s.health.totalBytes - ·) hreclaimed, ?_, hlookup, ?_⟩
    · have := hfits.2
      show S.index.keys.length < _
      omega
    · rw [hroot]
      refine if_neg ?_
      rintro ⟨c, -, hprefix⟩
      exact absurd hprefix.length_le (by simp)

theorem left_of_ok (hb : s.Bounded) {nowUnixMs incomingBytes : Nat} {capacity : Option FilesystemSpace} {outcome : RetentionOutcome}
    (hrequest : requestRetention o nowUnixMs incomingBytes capacity t = .ok request)
    (h : (s.enforceRetention o nowUnixMs incomingBytes capacity t).1 = .ok outcome) :
    Left s t (request.leaving s.health [] s.index.candidates) (s.enforceRetention o nowUnixMs incomingBytes capacity t).2 := by
  obtain ⟨done, rest, hw, hends⟩ := @walked_reclaim o t request s hb
  have hcall := @enforceRetention_eq o t request s _ _ _ hrequest
  generalize reclaim o request s.health s.index.candidates (s.reclaiming t) = result at hends hcall
  have hfinish : result = (.ok (), (s.reclaiming t).withoutAll done) → (∀ c back, rest = c :: back →
      request.suffices s.health (bytesIn done) done.length c = true) →
      Left s t (request.leaving s.health [] s.index.candidates) (s.enforceRetention o nowUnixMs incomingBytes capacity t).2 := by
    rintro rfl hstop
    have hgone : request.leaving s.health [] (done ++ rest) = [] ++ done :=
      @leaving_eq s request done rest [] (fun front c back heq => (hw.needed front c back heq).1) hstop
    rw [← hw.candidates, List.nil_append] at hgone
    rw [hcall] at h ⊢
    rw [hgone]
    exact left_settle h
  rw [hcall] at h
  cases hends with
  | all => exact hfinish rfl fun c back heq => by cases heq
  | enough hstop =>
    rw [reclaiming_reclaimed, reclaiming_deleted, List.length_map] at hstop
    refine hfinish rfl fun c back heq => ?_
    cases heq
    exact hstop
  | stuck hstop hevent => cases h

/-- What retention leaves has room for a revision of an event that it leaves, the manifest
counted too. -/
def Fits (F : Formats) (s : LinuxEvidenceStore) (request : RetentionRequest) (revision : IncidentRevisionV1)
    (evidence : Bytes) : Prop :=
  let gone := request.leaving s.health [] s.index.candidates
  revision.eventId ∉ gone.map Candidate.eventId → ∀ manifest data,
    buildManifest F revision evidence s.packageVersion = .ok (manifest, data) →
    s.health.totalBytes - bytesIn gone + manifest.totalBytes ≤ evidenceMaxStoreBytes

section
variable {after : LinuxEvidenceStore × Disk}

/-- A revision is still the next one of its event if the event is left. -/
theorem Left.offered (hl : Left s t gone after) (h : Offered F s revision evidence)
    (hleft : revision.eventId ∉ gone.map Candidate.eventId) : Offered F after.1 revision evidence := by
  have hlookup := (hl.lookup revision.eventId).trans (if_neg hleft)
  refine ⟨h.valid, ?_, ?_, h.json, h.text, h.length, ?_⟩
  · rw [LinuxEvidenceStore.expected, hlookup]
    exact h.next
  · rw [hlookup]
    exact h.identity
  · rw [hl.version, Table.measure, hlookup]
    exact h.event

/-- The revision of an event that is gone is out of order. -/
theorem Left.out_of_order (hl : Left s t gone after) (h : Offered F s revision evidence) (hv : s.Validated)
    (hlookup : s.index.lookup revision.eventId ≠ none) (hgone : revision.eventId ∈ gone.map Candidate.eventId) :
    after.1.admission F revision = .error .revisionSequence := by
  obtain ⟨detail, hdetail⟩ := Option.ne_none_iff_exists'.mp hlookup
  have hpos : 1 ≤ detail.latest.revision := by
    have hvalid := hv revision.eventId detail hdetail
    simp only [IncidentRevisionV1.validate, Bool.and_eq_true, Bool.not_eq_true', Bool.or_eq_false_iff,
      decide_eq_false_iff_not] at hvalid
    omega
  have hafter : after.1.expected revision.eventId = 1 := by
    rw [LinuxEvidenceStore.expected, hl.lookup, if_pos hgone]
  have hsecond : 1 < revision.revision := by
    rw [h.next, LinuxEvidenceStore.expected, hdetail]
    exact lt_min (Nat.lt_add_of_pos_left hpos) (by decide)
  have hconflict : ¬revision.revision < after.1.expected revision.eventId := by omega
  have hsequence : after.1.expected revision.eventId < revision.revision := by omega
  unfold LinuxEvidenceStore.admission
  simp only [bind_eq_error, exists_unit_iff, require_eq_error, require_eq_ok, h.valid, hconflict, hsequence]
  simp

/-- **The put after a retention finds its revision too large exactly if the manifest does not
fit.** -/
theorem put_left_iff (hl : Left s t (request.leaving s.health [] s.index.candidates) after) (h : Offered F s revision evidence)
    (hv : s.Validated) (hroot : o.validateRoot t = .ok ()) :
    (∀ o' temporary, (after.1.put o' F temporary revision after.2).1 ≠ .error .revisionTooLarge) ↔
      Fits F s request revision evidence := by
  have hadmission : (∀ o' temporary, (after.1.put o' F temporary revision after.2).1 ≠ .error .revisionTooLarge) ↔
      after.1.admission F revision ≠ .error .revisionTooLarge := by
    constructor
    · intro hnever hlarge
      have hagain : o.validateRoot after.2 = .ok () := by
        obtain ⟨hcall, hget⟩ := validatePrivateDirectory_eq_ok.mp hroot
        exact validatePrivateDirectory_eq_ok.mpr ⟨hcall, hl.root.trans hget⟩
      exact hnever o sampleTemporary (put_tooLarge.mpr ⟨hagain, hlarge⟩)
    · intro hfits o' temporary hlarge
      exact hfits (put_tooLarge.mp hlarge).2
  rw [hadmission]
  by_cases hgone : revision.eventId ∈ (request.leaving s.health [] s.index.candidates).map Candidate.eventId
  · obtain ⟨c, hc, hsame⟩ := List.mem_map.mp hgone
    have hmem : c ∈ s.index.candidates := (mem_leaving hc).resolve_left List.not_mem_nil
    obtain ⟨detail, hdetail, -⟩ := mem_candidates_iff.mp hmem
    have hlookup : s.index.lookup revision.eventId ≠ none := hsame ▸ Option.ne_none_iff_exists'.mpr ⟨detail, hdetail⟩
    rw [hl.out_of_order h hv hlookup hgone]
    exact ⟨fun _ hleft => absurd hgone hleft, fun _ heq => by cases heq⟩
  · rw [ne_eq, admit_tooLarge (hl.offered h hgone), hl.version, hl.total]
    constructor
    · intro hnever _ manifest data hbuilt
      by_contra hlarge
      exact hnever ⟨manifest, data, hbuilt, .inl (Nat.not_le.mp hlarge)⟩
    · rintro hfits ⟨manifest, data, hbuilt, hlarge | ⟨-, hfull⟩⟩
      · exact absurd (hfits hgone manifest data hbuilt) (Nat.not_le.mpr hlarge)
      · exact absurd hl.room (Nat.not_lt.mpr hfull)

end

end

/-- The filesystem has room for the largest evidence beside its reserve. -/
structure FilesystemSpace.Ample (space : FilesystemSpace) : Prop where
  available : space.availableBytes ≤ space.totalBytes
  width : space.totalBytes < u64Bound
  room : evidenceMaxRevisionBytes + max evidenceMinFreeReserveBytes (space.totalBytes * 5 / 100) ≤ space.availableBytes

/-- **Retention and put agree on capacity exactly if the manifest fits too and old events make
room.** In every state a store can come to, and for every valid next revision: after a successful
retention the put does not find the revision too large exactly if what is left has room for
the revision with its manifest; and with space on the filesystem and in the store, for a revision
that a put alone would store, retention succeeds and deletes nothing but what is too old exactly
if the old events can be removed and fewer than the maximum are left. -/
theorem capacity_agrees_iff (F : Formats) (packageVersion : PackageVersion) (opening : Outside) (t₀ : Disk)
    (store : LinuxEvidenceStore) (hopen : LinuxEvidenceStore.openRoot F opening packageVersion t₀ = .ok store)
    (calls : List StoreCall) (o : Outside) (nowUnixMs : Nat) (space : FilesystemSpace) (revision : IncidentRevisionV1)
    (evidence : Bytes) :
    let s := afterCalls F (store, t₀) calls
    let request : RetentionRequest := ⟨nowUnixMs, evidenceMaxRevisionBytes, space⟩
    let after := s.1.enforceRetention o nowUnixMs evidenceMaxRevisionBytes (some space) s.2
    Offered F s.1 revision evidence →
      (∀ outcome, after.1 = .ok outcome →
        ((∀ o' temporary, (after.2.1.put o' F temporary revision after.2.2).1 ≠ .error .revisionTooLarge) ↔
          Fits F s.1 request revision evidence)) ∧
      (∀ o' temporary summary, (s.1.put o' F temporary revision s.2).1 = .ok summary → space.Ample →
        s.1.health.totalBytes + 2 * 1024 * 1024 ≤ evidenceMaxStoreBytes →
        ((∃ outcome, after.1 = .ok outcome ∧
          ∀ eventId ∈ outcome.deletedEventIds, ∃ c, s.1.index.Closed c ∧ c.eventId = eventId ∧ request.Expired c) ↔
          o.validateRoot s.2 = .ok () ∧ Renews o s.1 request s.2)) := by
  intro s request after hoffered
  have hb : s.1.Bounded := bounded_reachable hopen calls
  have hv : s.1.Validated := validated_reachable hopen calls
  have hrequested : ∀ outcome, after.1 = .ok outcome →
      requestRetention o nowUnixMs evidenceMaxRevisionBytes (some space) s.2 = .ok request := by
    intro outcome hok
    obtain ⟨_, heq, hrequest⟩ := request_of_ok hok
    cases heq
    exact hrequest
  have hroot : ∀ outcome, after.1 = .ok outcome → o.validateRoot s.2 = .ok () :=
    fun outcome hok => (bind_unit_eq_ok.mp (hrequested outcome hok)).1
  constructor
  · intro outcome hok
    exact put_left_iff (left_of_ok hb (hrequested outcome hok) hok) hoffered hv (hroot outcome hok)
  · intro o' temporary summary _ hspace htotal
    have hroomy : Roomy s.1 request := by
      refine ⟨?_, hspace.room, hspace.available.trans_lt hspace.width⟩
      have hmax : evidenceMaxRevisionBytes ≤ 2 * 1024 * 1024 := by decide
      exact (Nat.add_le_add_left hmax _).trans htotal
    constructor
    · rintro ⟨outcome, hok, hdeleted⟩
      exact ⟨hroot outcome hok, (renews_iff hb hroomy (hrequested outcome hok)).mp ⟨outcome, hok, hdeleted⟩⟩
    · rintro ⟨hvalid, hrenews⟩
      have hrequest : requestRetention o nowUnixMs evidenceMaxRevisionBytes (some space) s.2 = .ok request := by
        unfold requestRetention
        simp only [bind_eq_ok, exists_unit_iff, require_eq_ok, required_eq_ok, Except.ok.injEq, hvalid]
        exact ⟨trivial, by decide, space, rfl, hspace.available, rfl⟩
      exact (renews_iff hb hroomy hrequest).mpr hrenews

section
variable {events : List SampleEvent} {x : SampleEvent} {t : Disk}

/-- The second revision of a sample event. -/
def SampleEvent.second (x : SampleEvent) : IncidentRevisionV1 := sampleRevision x.eventId 2 2000 none

theorem lookup_stored (hx : x ∈ events) (hdistinct : (events.map SampleEvent.eventId).Nodup) :
    (sampleStore events).index.lookup x.eventId = some ⟨x.revision, sampleBytes, rfl⟩ := by
  show (sampleIndex events).lookup x.eventId = _
  induction events with
  | nil => cases hx
  | cons y earlier ih =>
    obtain ⟨hnot, hearlier⟩ := List.nodup_cons.mp hdistinct
    rw [sampleIndex]
    rcases List.mem_cons.mp hx with rfl | hmem
    · exact AList.lookup_insert _
    · have hne : x.eventId ≠ y.eventId := fun heq => hnot (heq ▸ List.mem_map_of_mem hmem)
      rw [AList.lookup_insert_ne hne]
      exact ih hmem hearlier

theorem expected_second (hx : x ∈ events) (h : Stored events) : (sampleStore events).expected x.eventId = 2 := by
  have hwidth : 1 + 1 < u64Bound := by decide
  rw [LinuxEvidenceStore.expected, lookup_stored hx h.distinct]
  exact saturatingAdd_of_lt hwidth

theorem room_second (hx : x ∈ events) (h : Stored events) :
    measure bytesOf (sampleStore events).index x.eventId + sampleBytes ≤ evidenceMaxEventBytes := by
  rw [measure_of_lookup _ _ (lookup_stored hx h.distinct)]
  show sampleBytes + sampleBytes ≤ evidenceMaxEventBytes
  decide

theorem second_times : SampleTimes 2000 none := ⟨by decide, fun _ h => by cases h⟩

theorem identity_second (hx : x ∈ events) (h : Stored events) :
    ∀ previous ∈ (sampleStore events).index.lookup x.second.eventId, previous.latest = x.revision := by
  intro previous hprevious
  rw [Option.mem_def, show (sampleStore events).index.lookup x.second.eventId = _ from lookup_stored hx h.distinct] at hprevious
  cases hprevious
  rfl

theorem offered_second (hx : x ∈ events) (h : Stored events) :
    ∃ evidence, Offered compactFormats (sampleStore events) x.second evidence := by
  have hjson : packRevision x.second = _ :=
    packRevision_eq_some.mpr ⟨@sampleRevision_sample x.eventId 2 2000 none second_times (by decide), rfl⟩
  have hlength := length_packRevision x.second
  generalize BigEndian.pack (revisionFields x.second) = evidence at hjson hlength
  refine ⟨evidence, sampleRevision_valid second_times (by decide), (expected_second hx h).symm, ?_, hjson, ?_, ?_, ?_⟩
  · intro previous hprevious
    rw [identity_second hx h previous hprevious]
    exact ⟨rfl, rfl, rfl, rfl⟩
  · rintro rfl
    cases hlength
  · rw [hlength]
    decide
  · intro manifest data hbuilt
    obtain ⟨manifest', data', hbuilt', hbytes⟩ := @buildManifest_sample x.eventId 2 2000 none _ hlength (by decide)
    obtain ⟨rfl, rfl⟩ := Prod.mk.inj (Except.ok.inj (hbuilt.symm.trans hbuilt'))
    rw [hbytes]
    exact room_second hx h

theorem put_second {uid : Nat} (hx : x ∈ events) (h : Stored events) (htidy : Tidy uid (sampleStore events) t) :
    ∃ summary, ((sampleStore events).put (.calm uid) compactFormats sampleTemporary x.second t).1 = .ok summary := by
  have hstored := lookup_stored hx h.distinct
  have hfew := h.few
  have hroom : (sampleStore events).health.totalBytes + sampleBytes ≤ evidenceMaxStoreBytes := by
    have hstore : evidenceMaxEvents * sampleBytes + sampleBytes ≤ evidenceMaxStoreBytes := by decide
    exact (Nat.add_le_add_right (Nat.mul_le_mul_right sampleBytes hfew) _).trans hstore
  obtain ⟨admitted, hadmission, -⟩ := @admit_sample (sampleStore events) x.eventId 2 2000 none rfl second_times
    (expected_second hx h).symm (by decide) (fun previous hprevious => ⟨1, _, _, identity_second hx h previous hprevious⟩)
    (room_second hx h) hroom (fun hnone => by rw [hstored] at hnone; cases hnone)
  obtain ⟨t', hput, -⟩ := put_tidy htidy hadmission sampleTemporary
  exact ⟨_, congrArg Prod.fst hput⟩

/-- A store of open events has no closed one. -/
theorem candidates_open (h : Stored events) (hopen : ∀ x ∈ events, x.closedAt = none) :
    (sampleStore events).index.candidates = [] := by
  refine List.eq_nil_iff_forall_not_mem.mpr fun c hc => ?_
  obtain ⟨detail, hdetail, hat, -⟩ := mem_candidates_iff.mp hc
  have hclosed : (sampleIndex events).Closed ⟨c.closedAt, c.eventId, detail.bundleBytes⟩ := ⟨detail, hdetail, hat, rfl⟩
  obtain ⟨x, hx, -, hsome, -⟩ := (closed_sampleIndex h.distinct).mp hclosed
  rw [hopen x hx] at hsome
  cases hsome

theorem ample_common : commonCapacity.Ample := ⟨le_rfl, by decide, by decide⟩

theorem spare_stored (h : Stored events) : (sampleStore events).health.totalBytes + 2 * 1024 * 1024 ≤ evidenceMaxStoreBytes := by
  have hmax : evidenceMaxEvents * sampleBytes + 2 * 1024 * 1024 ≤ evidenceMaxStoreBytes := by decide
  have htotal : (sampleStore events).health.totalBytes = events.length * sampleBytes := rfl
  have hfew := Nat.mul_le_mul_right sampleBytes h.few
  rw [htotal]
  omega

/-- Without closed events retention refuses a store that is full. -/
theorem enforceRetention_full {s : LinuxEvidenceStore} {o : Outside} {nowUnixMs incomingBytes : Nat}
    {capacity : Option FilesystemSpace} {request : RetentionRequest} (hnone : s.index.candidates = [])
    (hfull : s.index.keys.length = evidenceMaxEvents)
    (hrequest : requestRetention o nowUnixMs incomingBytes capacity t = .ok request) :
    (s.enforceRetention o nowUnixMs incomingBytes capacity t).1 = .error .retentionUnavailable := by
  have hmax : ¬min evidenceMaxEvents 65535 < evidenceMaxEvents := by decide
  have hkeys : (s.reclaiming t).index.keys.length = evidenceMaxEvents := hfull
  have hrefused : (s.settleRetention request (s.reclaiming t)).1 = .error .retentionUnavailable := by
    unfold LinuxEvidenceStore.settleRetention
    dsimp only
    rw [hkeys, decide_eq_false hmax, Bool.and_false]
    rfl
  have hcall := enforceRetention_nothing hnone hrequest
  generalize s.settleRetention request (s.reclaiming t) = settled at hrefused hcall
  rw [hcall]
  exact hrefused

theorem keys_full (h : Stored events) (hfull : events.length = evidenceMaxEvents) :
    (sampleStore events).index.keys.length = evidenceMaxEvents := by
  show (sampleIndex events).keys.length = evidenceMaxEvents
  rw [length_sampleIndex h.distinct]
  exact hfull

end

/-- With one open event the two agree: the second revision passes both. -/
theorem capacity_agrees_iff_open : ∃ t outcome,
    afterCalls compactFormats (emptyStore sampleVersion, emptyRoot 0) [abandonedEvent.put 0] = (sampleStore [abandonedEvent], t) ∧
      let after := (sampleStore [abandonedEvent]).enforceRetention (.calm 0) 3000 evidenceMaxRevisionBytes (some commonCapacity) t
      after.1 = .ok outcome ∧
      (∀ eventId ∈ outcome.deletedEventIds, ∃ c, (sampleStore [abandonedEvent]).index.Closed c ∧ c.eventId = eventId ∧
        RetentionRequest.Expired ⟨3000, evidenceMaxRevisionBytes, commonCapacity⟩ c) ∧
      ∀ o' temporary, (after.2.1.put o' compactFormats temporary abandonedEvent.second after.2.2).1 ≠ .error .revisionTooLarge := by
  have hstored : Stored [abandonedEvent] := by
    refine ⟨by decide, fun x hx => ?_, by decide⟩
    rw [List.mem_singleton.mp hx]
    exact ⟨by decide, by decide⟩
  have hmem : abandonedEvent ∈ [abandonedEvent] := List.mem_singleton.mpr rfl
  have hnone : (sampleStore [abandonedEvent]).index.candidates = [] :=
    candidates_open hstored fun x hx => List.mem_singleton.mp hx ▸ rfl
  obtain ⟨t, hafter, htidy, -⟩ := after_puts 0 hstored
  obtain ⟨evidence, hoffered⟩ := offered_second hmem hstored
  obtain ⟨summary, hput⟩ := put_second hmem hstored htidy
  have hagree := capacity_agrees_iff compactFormats sampleVersion (.calm 0) (emptyRoot 0) (emptyStore sampleVersion)
    (openRoot_empty compactFormats sampleVersion) [abandonedEvent.put 0] (.calm 0) 3000 commonCapacity abandonedEvent.second evidence
  change afterCalls compactFormats (emptyStore sampleVersion, emptyRoot 0) [abandonedEvent.put 0] = _ at hafter
  rw [hafter] at hagree
  obtain ⟨hfits, hroomy⟩ := hagree hoffered
  have hold : oldEvents ⟨3000, evidenceMaxRevisionBytes, commonCapacity⟩ (sampleStore [abandonedEvent]).index = [] := by
    rw [oldEvents, hnone]
    rfl
  have hrenews : Renews (.calm 0) (sampleStore [abandonedEvent]) ⟨3000, evidenceMaxRevisionBytes, commonCapacity⟩ t := by
    refine ⟨fun c hc => ?_, ?_, .inl (hold.trans hnone.symm)⟩
    · rw [hold] at hc
      cases hc
    · exact (Nat.sub_le ..).trans_lt (by decide)
  have hroot : (Outside.calm 0).validateRoot t = .ok () := validatePrivateDirectory_eq_ok.mpr ⟨rfl, htidy.root⟩
  obtain ⟨outcome, hok, hdeleted⟩ := (hroomy _ _ summary hput ample_common (spare_stored hstored)).mpr ⟨hroot, hrenews⟩
  refine ⟨t, outcome, hafter, hok, hdeleted, (hfits outcome hok).mpr ?_⟩
  intro _ manifest data hbuilt
  have hevent := (Nat.le_add_left ..).trans (hoffered.event manifest data hbuilt)
  have hmax : (sampleStore [abandonedEvent]).health.totalBytes + evidenceMaxEventBytes ≤ evidenceMaxStoreBytes := by decide
  exact (Nat.add_le_add (Nat.sub_le ..) hevent).trans hmax

/-! ### A full store -/

/-- As many open events as a store may hold. -/
def fullEvents : List SampleEvent := (List.range evidenceMaxEvents).map fun n => ⟨BitVec.ofNat 128 n, 1000, none⟩

theorem fullEvents_stored : Stored fullEvents := by
  refine ⟨?_, ?_, ?_⟩
  · rw [fullEvents, List.map_map]
    refine List.nodup_range.map_on fun a ha b hb heq => ?_
    have hsmall : evidenceMaxEvents < 2 ^ 128 := by decide
    have hvalue := congrArg BitVec.toNat heq
    simp only [Function.comp_apply, BitVec.toNat_ofNat] at hvalue
    rw [List.mem_range] at ha hb
    rwa [Nat.mod_eq_of_lt (ha.trans hsmall), Nat.mod_eq_of_lt (hb.trans hsmall)] at hvalue
  · intro x hx
    obtain ⟨n, -, rfl⟩ := List.mem_map.mp hx
    have htime : 1000 < u64Bound := by decide
    exact ⟨⟨le_rfl, htime⟩, fun at' hat => by cases hat⟩
  · rw [fullEvents, List.length_map, List.length_range]

/-- A store that is full of open events lets in the next revision of each of them, and has
gibibytes to spare; but retention refuses to make room for it. -/
theorem full_store_refused : ∃ t evidence summary,
    LinuxEvidenceStore.openRoot compactFormats (.calm 0) sampleVersion (emptyRoot 0) = .ok (emptyStore sampleVersion) ∧
      afterCalls compactFormats (emptyStore sampleVersion, emptyRoot 0) (fullEvents.reverse.map (SampleEvent.put 0)) =
        (sampleStore fullEvents, t) ∧
      Offered compactFormats (sampleStore fullEvents) (SampleEvent.second ⟨0, 1000, none⟩) evidence ∧
      ((sampleStore fullEvents).put (.calm 0) compactFormats sampleTemporary (SampleEvent.second ⟨0, 1000, none⟩) t).1 = .ok summary ∧
      commonCapacity.Ample ∧
      (sampleStore fullEvents).health.totalBytes + 2 * 1024 * 1024 ≤ evidenceMaxStoreBytes ∧
      ((sampleStore fullEvents).enforceRetention (.calm 0) 3000 evidenceMaxRevisionBytes (some commonCapacity) t).1 =
        .error .retentionUnavailable := by
  have hmem : (⟨0, 1000, none⟩ : SampleEvent) ∈ fullEvents := List.mem_map.mpr ⟨0, List.mem_range.mpr (by decide), rfl⟩
  have hlength : fullEvents.length = evidenceMaxEvents := by rw [fullEvents, List.length_map, List.length_range]
  have hopen : ∀ x ∈ fullEvents, x.closedAt = none := by
    intro x hx
    obtain ⟨n, -, rfl⟩ := List.mem_map.mp hx
    rfl
  obtain ⟨t, hafter, htidy, -⟩ := after_puts 0 fullEvents_stored
  obtain ⟨evidence, hoffered⟩ := offered_second hmem fullEvents_stored
  obtain ⟨summary, hput⟩ := put_second hmem fullEvents_stored htidy
  exact ⟨t, evidence, summary, openRoot_empty compactFormats sampleVersion, hafter, hoffered, hput, ample_common,
    spare_stored fullEvents_stored, enforceRetention_full (candidates_open fullEvents_stored hopen) (keys_full fullEvents_stored hlength)
      (commonRequest_ok htidy.root)⟩

end NetworkLoop.Evidence
