import NetworkLoop.Evidence.Refused

/-! What a restart finds of the index.

`recover` counts the canonical names of the root, `put` the events of the index, and a removal
that does not go through leaves its event in the index. So an event of the index may be missing
after a restart; `restart_keeps_events` says when none is, for whole runs. -/
namespace NetworkLoop.Evidence
open Library Observation Table

/-- Every event of the index can be read from the disk, and is among the first ones. -/
structure Covered (F : Formats) (uid : Nat) (s : LinuxEvidenceStore) (t : Disk) : Prop where
  root : t.get [] = some (.directory 0o700 uid)
  found : ∀ eventId, s.index.lookup eventId ≠ none → foundEvent F uid t eventId ≠ none
  placed : ∀ eventId, s.index.lookup eventId ≠ none → place t eventId < evidenceMaxEvents

/-- A restart finds every event of the index. -/
def Keeps (F : Formats) (uid : Nat) (s : LinuxEvidenceStore) (t : Disk) : Prop :=
  ∃ index health, LinuxEvidenceStore.recovered F (.calm uid) t = .ok (index, health) ∧
    ∀ eventId, s.index.lookup eventId ≠ none → index.lookup eventId ≠ none

variable {F : Formats} {o : Outside} {uid : Nat} {t t' b : Disk} {s : LinuxEvidenceStore} {eventId : EventId}

theorem Covered.keeps (h : Covered F uid s t) : Keeps F uid s t := by
  obtain ⟨index, health, hrecovered, hlookup⟩ := @recovered_calm F uid t h.root
  refine ⟨index, health, hrecovered, fun eventId hsome => ?_⟩
  rw [hlookup, if_pos (h.placed eventId hsome)]
  exact h.found eventId hsome

/-! ### What is recovered is covered -/

theorem found_of_revision {number : Nat} {x : StoredRevision eventId} (hthere : t.get [eventName eventId] = some (.directory 0o700 uid))
    (hbounds : 0 < number ∧ number ≤ evidenceMaxRevisionsPerEvent) (hx : revisionAt F uid t eventId number = some x) :
    foundEvent F uid t eventId ≠ none := by
  have hmem : x ∈ revisionsAt F uid t eventId :=
    List.mem_filterMap.mpr ⟨number, List.mem_range'_1.mpr ⟨hbounds.1, by omega⟩, hx⟩
  rw [foundEvent, if_pos hthere, indexed, Ne, Option.map_eq_none_iff, List.getLast?_eq_none_iff]
  exact List.ne_nil_of_mem hmem

/-- A revision that `recover_event` has read is one of the directory. -/
theorem foldl_adoptRevision_found (names : List String) (found : RecoveredEvent eventId)
    (h : (names.foldl (adoptRevision F o eventId t) found).latest ≠ none) :
    found.latest ≠ none ∨ ∃ name ∈ names, ∃ x, named F o.uid t eventId name = some x := by
  induction names generalizing found with
  | nil => exact .inl h
  | cons name rest ih =>
    rcases ih _ h with hlatest | ⟨other, hother, hx⟩
    · unfold adoptRevision at hlatest
      split at hlatest
      · exact .inl hlatest
      · cases hparse : parseRevisionName name with
        | none =>
          rw [hparse] at hlatest
          exact .inl hlatest
        | some number =>
          rw [hparse] at hlatest
          dsimp only at hlatest
          cases hread : readRevision F o eventId number [eventName eventId, name] t with
          | error error =>
            rw [hread] at hlatest
            cases error with
            | incomplete => exact .inl hlatest
            | corrupt => exact .inl hlatest
          | ok x =>
            have hname := (parseRevisionName_iff.mp hparse).1
            refine .inr ⟨name, List.mem_cons_self, x, ?_⟩
            rw [named, hparse]
            refine revisionAt_eq_some.mpr ?_
            rw [revisionPath, ← hname]
            exact readRevision_eq_ok hread
    · exact .inr ⟨other, List.mem_cons_of_mem _ hother, hx⟩

theorem recoverEvent_found {health health' : EvidenceStoreHealth} {detail : Indexed eventId}
    (h : recoverEvent F o eventId health t = .ok (some detail, health')) : foundEvent F o.uid t eventId ≠ none := by
  unfold recoverEvent at h
  cases hvalid : o.validatePrivateDirectory [eventName eventId] .io t with
  | error error =>
    rw [hvalid] at h
    cases h
  | ok _ =>
    rw [hvalid] at h
    dsimp only at h
    cases hnames : o.readDirectory [eventName eventId] t with
    | error error =>
      rw [hnames] at h
      cases h
    | ok names =>
      rw [hnames] at h
      have hlatest : (names.foldl (adoptRevision F o eventId t) ⟨health, none, 0⟩).latest ≠ none := by
        intro hnone
        have hdetail := (Prod.mk.inj (Except.ok.inj h)).1
        rw [hnone] at hdetail
        cases hdetail
      rcases foldl_adoptRevision_found names _ hlatest with habsurd | ⟨name, -, x, hx⟩
      · exact absurd rfl habsurd
      · obtain ⟨number, hparse, hat⟩ := Option.bind_eq_some_iff.mp hx
        exact found_of_revision (validatePrivateDirectory_eq_ok.mp hvalid).2 (parseRevisionName_iff.mp hparse).2 hat

/-- An event that the loop of `recover` takes into the index is found, among the first ones. -/
theorem foldlM_adoptEvent_found (names : List String) (hsorted : names.Pairwise (· < ·)) (found found' : Recovering)
    (hfold : names.foldlM (adoptEvent F o t) found = .ok found') (hsome : found'.index.lookup eventId ≠ none) :
    found.index.lookup eventId ≠ none ∨ eventName eventId ∈ names ∧ foundEvent F o.uid t eventId ≠ none ∧
      found.canonicalEvents + canonicalBefore names eventId < evidenceMaxEvents := by
  induction names generalizing found with
  | nil =>
    cases hfold
    exact .inl hsome
  | cons name rest ih =>
    obtain ⟨hfirst, hrest⟩ := List.pairwise_cons.mp hsorted
    rw [List.foldlM_cons] at hfold
    obtain ⟨next, hadopt, hfold⟩ := bind_eq_ok.mp hfold
    have hnext := ih hrest next hfold
    rw [adoptEvent] at hadopt
    cases hname : canonicalEvent name with
    | none =>
      rw [hname] at hadopt
      cases hadopt
      rw [canonicalBefore_foreign hname]
      rcases hnext with hindex | ⟨hmem, hlater⟩
      · exact .inl hindex
      · exact .inr ⟨List.mem_cons_of_mem _ hmem, hlater⟩
    | some other =>
      have hother := canonicalEvent_iff.mp hname
      subst hother
      rw [hname] at hadopt
      dsimp only at hadopt
      by_cases hfull : found.canonicalEvents ≥ evidenceMaxEvents
      · rw [if_pos hfull] at hadopt
        cases hadopt
        rcases hnext with hindex | ⟨-, -, hlt⟩
        · exact .inl hindex
        · exact absurd hlt (by dsimp only; omega)
      · rw [if_neg hfull] at hadopt
        obtain ⟨⟨detail, health⟩, hevent, hadopt⟩ := bind_eq_ok.mp hadopt
        have hlater : next.canonicalEvents = found.canonicalEvents + 1 →
            (eventName eventId ∈ rest ∧ foundEvent F o.uid t eventId ≠ none ∧
              next.canonicalEvents + canonicalBefore rest eventId < evidenceMaxEvents) →
            eventName eventId ∈ eventName other :: rest ∧ foundEvent F o.uid t eventId ≠ none ∧
              found.canonicalEvents + canonicalBefore (eventName other :: rest) eventId < evidenceMaxEvents := by
          rintro hcount ⟨hmem, hfound, hlt⟩
          have hbefore : canonicalBefore (eventName other :: rest) eventId = canonicalBefore rest eventId + 1 :=
            canonicalBefore_earlier (hfirst _ hmem)
          exact ⟨List.mem_cons_of_mem _ hmem, hfound, by omega⟩
        cases detail with
        | none =>
          cases hadopt
          exact hnext.imp_right (hlater rfl)
        | some detail =>
          cases hadopt
          rcases hnext with hindex | hrest
          · by_cases heq : eventId = other
            · subst heq
              have hbefore := canonicalBefore_head hfirst
              exact .inr ⟨List.mem_cons_self, recoverEvent_found hevent, by omega⟩
            · dsimp only at hindex
              rw [AList.lookup_insert_ne heq] at hindex
              exact .inl hindex
          · exact .inr (hlater rfl hrest)

theorem covered_recovered {packageVersion : PackageVersion} {index : Index} {health : EvidenceStoreHealth}
    (h : LinuxEvidenceStore.recovered F o t = .ok (index, health)) : Covered F o.uid ⟨packageVersion, index, health⟩ t := by
  obtain ⟨_, hroot, hrest⟩ := bind_eq_ok.mp h
  obtain ⟨names, hnames, hrest⟩ := bind_eq_ok.mp hrest
  obtain ⟨found, hfold, hlast⟩ := bind_eq_ok.mp hrest
  cases hlast
  have hsorted := (readDirectory_eq_ok.mp (mapError_eq_ok.mp hnames)).2.2
  subst hsorted
  have hfound := fun eventId hsome => @foldlM_adoptEvent_found F o t eventId _ (sortedNames_strict t []) _ found hfold hsome
  refine ⟨(validatePrivateDirectory_eq_ok.mp hroot).2, fun eventId hsome => ?_, fun eventId hsome => ?_⟩
  · rcases hfound eventId hsome with hempty | ⟨-, hevent, -⟩
    · exact absurd rfl hempty
    · exact hevent
  · rcases hfound eventId hsome with hempty | ⟨-, -, hlt⟩
    · exact absurd rfl hempty
    · rwa [Nat.zero_add] at hlt

/-! ### A put -/

/-- A new directory for the event would displace one of the index. -/
def Displaces (s : LinuxEvidenceStore) (t : Disk) (eventId : EventId) : Prop :=
  t.get [eventName eventId] = none ∧ ∃ other, s.index.lookup other ≠ none ∧ eventName eventId < eventName other ∧
    place t other + 1 = evidenceMaxEvents

/-- The event is new to the index, and its name is not among the first ones of the root. -/
def Late (s : LinuxEvidenceStore) (t : Disk) (eventId : EventId) : Prop :=
  s.index.lookup eventId = none ∧ evidenceMaxEvents ≤ place t eventId

theorem covered_entered {new : EventId} (hc : Covered F uid s t) (h : Entered uid [eventName new] t t')
    (hroom : ¬Displaces s t new) : Covered F uid s t' where
  root := by
    rw [h.sameBut [] (by simp)]
    exact hc.root
  found eventId hsome := by
    rw [foundEvent_entered h]
    exact hc.found eventId hsome
  placed eventId hsome := by
    have hplaced := hc.placed eventId hsome
    rcases h with rfl | ⟨hfree, mode, hget⟩
    · exact hplaced
    · rw [place_update hfree hget]
      by_cases hlt : eventName new < eventName eventId
      · have hlast : place t eventId + 1 ≠ evidenceMaxEvents := fun hlast => hroom ⟨hfree, eventId, hsome, hlt, hlast⟩
        rw [if_pos hlt]
        omega
      · rwa [if_neg hlt, Nat.add_zero]

theorem covered_temporary {other : EventId} {name : String} (hc : Covered F uid s t) (hname : isTemporary name = true)
    (h : SameBut [eventName other, name] t t') : Covered F uid s t' where
  root := by
    rw [h [] (by simp)]
    exact hc.root
  found eventId hsome := by
    rw [(restart_temporary hname h eventId).1]
    exact hc.found eventId hsome
  placed eventId hsome := by
    rw [(@restart_temporary F uid _ _ _ hname _ h eventId).2]
    exact hc.placed eventId hsome

section
variable {revision : IncidentRevisionV1} {admitted : Admitted} {temporary : Temporary}

/-- The event of a revision that is written is found. -/
theorem found_written (hadmission : s.admission F revision = .ok admitted) (h : Written uid revision admitted b t) :
    foundEvent F uid t revision.eventId ≠ none := by
  have hpos : 0 < revision.revision := by
    by_contra hzero
    have hvalid := (admission_eq_ok.mp hadmission).valid
    simp [IncidentRevisionV1.validate, Nat.eq_zero_of_not_pos hzero] at hvalid
  exact found_of_revision h.directory ⟨hpos, (numbered_of_admission hadmission).2⟩
    (revisionAt_eq_some.mpr (onDisk_written hadmission h))

/-- A revision that is written moves no event, its own apart. -/
theorem place_written (h : Written uid revision admitted b t) :
    ∃ between, Entered uid [eventName revision.eventId] b between ∧ ∀ eventId, place t eventId = place between eventId := by
  obtain ⟨between, hentered, -, hmade⟩ := h
  refine ⟨between, hentered, fun eventId => place_congr (fun name => ?_) eventId⟩
  rw [hmade.elsewhere [name] fun hunder => by simpa [revisionPath] using hunder.length_le]

theorem covered_written (hc : Covered F uid s b) (hadmission : s.admission F revision = .ok admitted)
    (h : Written uid revision admitted b t) (hroom : ¬Displaces s b revision.eventId) : Covered F uid s t where
  root := by
    rw [h.get_of_ne (by simp) (by simp [revisionPath])]
    exact hc.root
  found eventId hsome := by
    by_cases heq : eventId = revision.eventId
    · subst heq
      exact found_written hadmission h
    · have hname : eventName eventId ≠ eventName revision.eventId := fun hsame => heq (eventName_injective hsame)
      have hsame : ∀ rest, t.get (eventName eventId :: rest) = b.get (eventName eventId :: rest) := fun rest =>
        h.get_of_ne (fun hpath => hname (List.cons.inj hpath).1) fun hunder => hname (List.cons_prefix_cons.mp hunder).1.symm
      rw [foundEvent_congr (hsame []) fun number rest => hsame (revisionName number :: rest)]
      exact hc.found eventId hsome
  placed eventId hsome := by
    obtain ⟨between, hentered, hplace⟩ := place_written h
    rw [hplace]
    exact (covered_entered hc hentered hroom).placed eventId hsome

/-- The place of an event's own directory is the same before and after. -/
theorem place_own (h : Written uid revision admitted b t) : place t revision.eventId = place b revision.eventId := by
  obtain ⟨between, hentered, hplace⟩ := place_written h
  rw [hplace]
  rcases hentered with rfl | ⟨hfree, mode, hget⟩
  · rfl
  · rw [place_update hfree hget, if_neg (lt_irrefl _), Nat.add_zero]

theorem covered_stored (hc : Covered F uid s b) (hadmission : s.admission F revision = .ok admitted)
    (h : Written uid revision admitted b t) (hroom : ¬Displaces s b revision.eventId) (hlate : ¬Late s b revision.eventId) :
    Covered F uid (s.stored revision admitted) t := by
  have hcovered := covered_written hc hadmission h hroom
  have hother : ∀ eventId, eventId ≠ revision.eventId → (s.stored revision admitted).index.lookup eventId ≠ none →
      s.index.lookup eventId ≠ none := by
    intro eventId hne hsome
    rwa [LinuxEvidenceStore.stored, AList.lookup_insert_ne hne] at hsome
  refine ⟨hcovered.root, fun eventId hsome => ?_, fun eventId hsome => ?_⟩
  · by_cases heq : eventId = revision.eventId
    · subst heq
      exact found_written hadmission h
    · exact hcovered.found eventId (hother eventId heq hsome)
  · by_cases heq : eventId = revision.eventId
    · subst heq
      rw [place_own h]
      by_cases hnone : s.index.lookup revision.eventId = none
      · exact Nat.lt_of_not_le fun hle => hlate ⟨hnone, hle⟩
      · exact hc.placed _ hnone
    · exact hcovered.placed eventId (hother eventId heq hsome)

/-- No call of a write that succeeds has failed. -/
theorem writeRevision_passed (h : writeRevision o revision temporary admitted t = (.ok (), t')) :
    o.Passes (commitCalls [eventName revision.eventId] temporary.name) ∧ o.Passes (settleCalls [eventName revision.eventId]) := by
  obtain ⟨_, between, -, hcommit⟩ := Effect.bind_eq_ok.mp h
  unfold commitRevision at hcommit
  cases hmetadata : o.metadata .metadata ([eventName revision.eventId] ++ [revisionName revision.revision]) between with
  | ok metadata =>
    rw [hmetadata] at hcommit
    cases hcommit
  | error error =>
    rw [hmetadata] at hcommit
    dsimp only at hcommit
    obtain ⟨_, published, hstage, hsettle⟩ := Effect.bind_eq_ok.mp (Effect.cleaning_eq_ok.mp hcommit)
    refine ⟨(stageRevision_eq_ok.mp hstage).1, ?_⟩
    simp only [settleRevision, Effect.bind_eq_ok, exists_unit_iff, asIo_eq_ok, checkpoint_eq_ok, syncDirectory_eq_ok] at hsettle
    obtain ⟨_, ⟨hcheckpoint, rfl⟩, hsync, -⟩ := hsettle
    simpa [Outside.Passes, settleCalls] using ⟨hcheckpoint, hsync⟩

end

/-! ### Calls -/

/-- What a removal leaves that does not go through. -/
def Outside.scarred (o : Outside) (t : Disk) (c : Candidate) : Disk :=
  match o.validatePrivateDirectory [eventName c.eventId] .retentionUnavailable t with
  | .ok () => (o.removeDirectory .removeEventDirectory [eventName c.eventId] t).2
  | .error _ => t

/-- The call displaces no event of the index, stores none whose name is too late, and stops at no
removal that leaves nothing of its event to be read. -/
def Sparing (F : Formats) (s : LinuxEvidenceStore × Disk) : StoreCall → Prop
  | .recover _ => True
  | .put o temporary revision => ∀ admitted, s.1.admission F revision = .ok admitted →
    ¬(o.Enters revision.eventId ∧ Displaces s.1 s.2 revision.eventId) ∧
      (o.Passes (commitCalls [eventName revision.eventId] temporary.name) →
        o.Passes (settleCalls [eventName revision.eventId]) → ¬Late s.1 s.2 revision.eventId)
  | .enforceRetention o nowUnixMs incomingBytes capacity => ∀ request,
    requestRetention o nowUnixMs incomingBytes capacity s.2 = .ok request →
    ∀ done c rest, Walked o s.1 request s.2 done (c :: rest) → request.suffices s.1.health (bytesIn done) done.length c = false →
      ¬Removable o s.2 c → foundEvent F o.uid (o.scarred s.2 c) c.eventId ≠ none

theorem covered_put {temporary : Temporary} {revision : IncidentRevisionV1} (hc : Covered F uid s t)
    (h : Sparing F (s, t) (.put o temporary revision)) :
    Covered F uid (s.put o F temporary revision t).2.1 (s.put o F temporary revision t).2.2 := by
  unfold LinuxEvidenceStore.put
  cases hchecked : o.validateRoot t >>= fun _ => s.admission F revision with
  | error error => exact hc
  | ok admitted =>
    obtain ⟨_, hroot, hadmission⟩ := bind_eq_ok.mp hchecked
    have huid : o.uid = uid := by
      have hthere := (validatePrivateDirectory_eq_ok.mp hroot).2
      rw [hc.root] at hthere
      cases hthere
      rfl
    subst huid
    obtain ⟨hdisplaces, hlate⟩ := h admitted hadmission
    dsimp only
    by_cases hout : t.get [eventName revision.eventId] = none ∧ ¬o.Enters revision.eventId
    · rw [writeRevision_kept_out hout.1 hout.2]
      exact hc
    · have hroom : ¬Displaces s t revision.eventId := fun hd =>
        hout ⟨hd.1, fun henters => hdisplaces ⟨henters, hd⟩⟩
      cases hwrite : writeRevision o revision temporary admitted t with
      | mk result t' =>
        cases result with
        | error error =>
          rcases writeRevision_meets.error rfl hwrite with ⟨between, hentered, hsame⟩ | ⟨hwritten, -⟩
          · exact covered_temporary (covered_entered hc hentered hroom) temporary.temporary hsame
          · exact covered_written hc hadmission hwritten hroom
        | ok _ =>
          obtain ⟨hcommits, hsettles⟩ := writeRevision_passed hwrite
          exact covered_stored hc hadmission (writeRevision_meets.ok rfl hwrite) hroom (hlate hcommits hsettles)

/-- Fewer names in the root bring every event forward. -/
theorem place_mono (h : ∀ name, t'.get [name] ≠ none → t.get [name] ≠ none) (eventId : EventId) :
    place t' eventId ≤ place t eventId := by
  have hsub : sortedNames t' [] ⊆ sortedNames t [] := fun name hname => mem_sortedNames.mpr (h name (mem_sortedNames.mp hname))
  obtain ⟨kept, hperm, hsublist⟩ := (sortedNames_nodup t' []).subperm hsub
  rw [place, place, canonicalBefore, canonicalBefore, ← hperm.countP_eq]
  exact hsublist.countP_le

/-! ### A retention -/

theorem covered_swept {gone : List Candidate} {after : LinuxEvidenceStore × Disk} (hc : Covered F uid s t)
    (h : Swept gone s t after) : Covered F uid after.1 after.2 where
  root := by
    rw [h.disk, if_neg]
    · exact hc.root
    · rintro ⟨c, -, hunder⟩
      simpa using hunder.length_le
  found eventId hsome := by
    obtain ⟨hgone, hlookup⟩ := h.kept_event hsome
    have hsame : ∀ rest, after.2.get (eventName eventId :: rest) = t.get (eventName eventId :: rest) := fun rest => by
      rw [h.under, if_neg hgone]
    rw [foundEvent_congr (hsame []) fun number rest => hsame (revisionName number :: rest)]
    exact hc.found eventId (hlookup ▸ hsome)
  placed eventId hsome := by
    obtain ⟨-, hlookup⟩ := h.kept_event hsome
    refine (place_mono (fun name hthere => ?_) eventId).trans_lt (hc.placed eventId (hlookup ▸ hsome))
    have hdisk := h.disk [name]
    split at hdisk
    · exact absurd hdisk hthere
    · exact hdisk ▸ hthere

variable {c : Candidate}

theorem scarred_elsewhere {path : Path} (h : ¬[eventName c.eventId] <+: path) : (o.scarred t c).get path = t.get path := by
  unfold Outside.scarred
  split
  · exact removeDirectory_elsewhere h
  · rfl

theorem scarred_mono {path : Path} (h : (o.scarred t c).get path ≠ none) : t.get path ≠ none := by
  unfold Outside.scarred at h
  split at h
  · unfold Outside.removeDirectory at h
    split at h
    · split at h
      · exact fun hnone => h ((FileTree.get_prune_cases t _ _ path).elim (·.trans hnone) id)
      · exact fun hnone => h ((FileTree.get_prune_cases t _ _ path).elim (·.trans hnone) id)
    · exact h
  · exact h

/-- What is left of an event depends on its own directory alone. -/
theorem scarred_agree (h : ∀ path, [eventName c.eventId] <+: path → t'.get path = t.get path) {path : Path}
    (hpath : [eventName c.eventId] <+: path) : (o.scarred t' c).get path = (o.scarred t c).get path := by
  have hvalid : o.validatePrivateDirectory [eventName c.eventId] .retentionUnavailable t' =
      o.validatePrivateDirectory [eventName c.eventId] .retentionUnavailable t := by
    unfold Outside.validatePrivateDirectory Outside.metadata
    rw [h _ List.prefix_rfl]
  unfold Outside.scarred
  rw [hvalid]
  cases o.validatePrivateDirectory [eventName c.eventId] .retentionUnavailable t with
  | ok _ => exact removeDirectory_agree h hpath
  | error error => exact h path hpath

theorem reclaimEvent_scarred {r : Reclaiming} (hlookup : (r.index.lookup c.eventId).map (·.bundleBytes) = some c.bundleBytes) :
    (reclaimEvent o c r).2.disk = o.scarred r.disk c := by
  rw [reclaimEvent_disk hlookup]
  unfold Outside.scarred
  cases o.validatePrivateDirectory [eventName c.eventId] .retentionUnavailable r.disk with
  | ok _ => rw [if_pos rfl]
  | error error => rw [if_neg (by simp)]

theorem covered_scarred (hc : Covered F uid s t) (hfound : foundEvent F uid (o.scarred t c) c.eventId ≠ none) :
    Covered F uid s (o.scarred t c) where
  root := by
    rw [scarred_elsewhere (by simp)]
    exact hc.root
  found eventId hsome := by
    by_cases heq : eventId = c.eventId
    · rwa [heq]
    · have hname : eventName c.eventId ≠ eventName eventId := fun hsame => heq (eventName_injective hsame).symm
      have hsame : ∀ rest, (o.scarred t c).get (eventName eventId :: rest) = t.get (eventName eventId :: rest) := fun rest =>
        scarred_elsewhere fun hunder => hname (List.cons_prefix_cons.mp hunder).1
      rw [foundEvent_congr (hsame []) fun number rest => hsame (revisionName number :: rest)]
      exact hc.found eventId hsome
  placed eventId hsome := (place_mono (fun _ => scarred_mono) eventId).trans_lt (hc.placed eventId hsome)

theorem covered_retention (hb : s.Bounded) (hc : Covered F uid s t) {nowUnixMs incomingBytes : Nat}
    {capacity : Option FilesystemSpace} (h : Sparing F (s, t) (.enforceRetention o nowUnixMs incomingBytes capacity)) :
    Covered F uid (s.enforceRetention o nowUnixMs incomingBytes capacity t).2.1
      (s.enforceRetention o nowUnixMs incomingBytes capacity t).2.2 := by
  cases hrequest : requestRetention o nowUnixMs incomingBytes capacity t with
  | error error =>
    unfold LinuxEvidenceStore.enforceRetention
    rw [hrequest]
    exact hc
  | ok request =>
    have huid : o.uid = uid := by
      obtain ⟨_, hroot, -⟩ := bind_eq_ok.mp hrequest
      have hthere := (validatePrivateDirectory_eq_ok.mp hroot).2
      rw [hc.root] at hthere
      cases hthere
      rfl
    subst huid
    obtain ⟨done, rest, hw, hends⟩ := @walked_reclaim o t request s hb
    have hsplit := hw.candidates
    have hreclaims : Reclaims (done ++ rest) (s.reclaiming t) := hsplit ▸ reclaims_bounded hb t
    obtain ⟨-, -, hleft⟩ := tally_withoutAll hreclaims
    have hswept : ∀ health, Swept done s t (⟨s.packageVersion, ((s.reclaiming t).withoutAll done).index, health⟩,
        ((s.reclaiming t).withoutAll done).disk) := fun _ =>
      ⟨withoutAll_lookup done (s.reclaiming t), withoutAll_disk done (s.reclaiming t)⟩
    have hcall := @enforceRetention_eq o t request s _ _ _ hrequest
    generalize reclaim o request s.health s.index.candidates (s.reclaiming t) = result at hends hcall
    rw [hcall]
    have hsettled : ∀ (store : LinuxEvidenceStore), store.index = ((s.reclaiming t).withoutAll done).index →
        Covered F o.uid store ((s.reclaiming t).withoutAll done).disk := by
      rintro ⟨packageVersion, index, health⟩ rfl
      have hcovered := covered_swept hc (hswept health)
      exact ⟨hcovered.root, hcovered.found, hcovered.placed⟩
    cases hends with
    | all => exact hsettled _ (settleRetention_index _ _ _)
    | enough hstop => exact hsettled _ (settleRetention_index _ _ _)
    | @stuck c back disk hstop hevent =>
      have hlookup := hleft.lookup c List.mem_cons_self
      have hdisk : disk = o.scarred ((s.reclaiming t).withoutAll done).disk c := by
        rw [← reclaimEvent_scarred hlookup, hevent]
      have hnot : c.eventId ∉ done.map Candidate.eventId := by
        have hnodup := hreclaims.nodup
        rw [List.map_append, List.map_cons] at hnodup
        exact fun hmem => (List.nodup_append.mp hnodup).2.2 _ hmem _ List.mem_cons_self rfl
      have hsame : ∀ path, [eventName c.eventId] <+: path → ((s.reclaiming t).withoutAll done).disk.get path = t.get path := by
        rintro path ⟨rest, rfl⟩
        exact ((hswept s.health).under c.eventId rest).trans (if_neg hnot)
      have hstuck : ¬Removable o t c := by
        intro hr
        have hr' : Removable o ((s.reclaiming t).withoutAll done).disk c := by
          refine ⟨?_, hr.removal, hr.sync⟩
          have hdirectory := validatePrivateDirectory_eq_ok.mp hr.directory
          exact validatePrivateDirectory_eq_ok.mpr ⟨hdirectory.1, (hsame _ List.prefix_rfl).trans hdirectory.2⟩
        rw [reclaimEvent_removable hleft hr'] at hevent
        cases hevent
      rw [reclaiming_reclaimed, reclaiming_deleted, List.length_map] at hstop
      have hfound := h request hrequest done c back hw hstop hstuck
      show Covered F o.uid { s with index := ((s.reclaiming t).withoutAll done).index } disk
      rw [hdisk]
      refine covered_scarred (hsettled { s with index := ((s.reclaiming t).withoutAll done).index } rfl) ?_
      have hagree : ∀ rest, (o.scarred ((s.reclaiming t).withoutAll done).disk c).get (eventName c.eventId :: rest) =
          (o.scarred t c).get (eventName c.eventId :: rest) := fun rest => scarred_agree hsame ⟨rest, rfl⟩
      rwa [foundEvent_congr (hagree []) fun number rest => hagree (revisionName number :: rest)]

/-! ### Runs -/

theorem covered_recover {s : LinuxEvidenceStore} (hc : Covered F uid s t) : Covered F uid (s.recover F o t).2 t := by
  unfold LinuxEvidenceStore.recover
  cases hrecovered : LinuxEvidenceStore.recovered F o t with
  | error error => exact hc
  | ok found =>
    have hcovered := @covered_recovered F o t s.packageVersion found.1 found.2 hrecovered
    have huid : o.uid = uid := by
      have hroot := hcovered.root
      rw [hc.root] at hroot
      cases hroot
      rfl
    exact huid ▸ hcovered

theorem covered_apply {s : LinuxEvidenceStore × Disk} (hb : s.1.Bounded) (hc : Covered F uid s.1 s.2) {call : StoreCall}
    (h : Sparing F s call) : Covered F uid (call.apply F s).1 (call.apply F s).2 := by
  cases call with
  | recover o => exact covered_recover hc
  | put o temporary revision => exact covered_put hc h
  | enforceRetention o nowUnixMs incomingBytes capacity => exact covered_retention hb hc h

/-- **A restart finds every event of the index, in every run whose calls are sparing.** -/
theorem restart_keeps_events (F : Formats) (packageVersion : PackageVersion) (o : Outside) (t : Disk) (s : LinuxEvidenceStore)
    (hopen : LinuxEvidenceStore.openRoot F o packageVersion t = .ok s) (calls : List StoreCall)
    (hcalls : (keeping F).Obeys (Sparing F) (s, t) calls) :
    Keeps F o.uid (afterCalls F (s, t) calls).1 (afterCalls F (s, t) calls).2 := by
  have hstart : Covered F o.uid s t := by
    obtain ⟨⟨index, health⟩, hrecovered, hs⟩ := bind_eq_ok.mp hopen
    cases hs
    exact covered_recovered hrecovered
  have hrun := (keeping F).run_invariant_under (fun s _ => s.1.Bounded ∧ Covered F o.uid s.1 s.2)
    (fun state _ call hcall hstate => ⟨bounded_apply hstate.1 call, covered_apply hstate.1 hstate.2 hcall⟩)
    ((s, t), []) calls hcalls ⟨(kept_openRoot hopen).bounded, hstart⟩
  rw [Recorder.run_fst] at hrun
  exact hrun.2.keeps

/-- One event is put on an empty root. -/
theorem restart_keeps_events_one : Keeps compactFormats 0
    (afterCalls compactFormats (emptyStore sampleVersion, emptyRoot 0) [abandonedEvent.put 0]).1
    (afterCalls compactFormats (emptyStore sampleVersion, emptyRoot 0) [abandonedEvent.put 0]).2 := by
  refine restart_keeps_events compactFormats sampleVersion (.calm 0) (emptyRoot 0) (emptyStore sampleVersion)
    (openRoot_empty compactFormats sampleVersion) _ ⟨fun admitted _ => ⟨?_, fun _ _ => ?_⟩, trivial⟩
  · rintro ⟨-, -, other, hsome, -⟩
    exact hsome rfl
  · rintro ⟨-, hle⟩
    rw [place, sortedNames_emptyRoot] at hle
    exact absurd hle (by decide)

/-! ### One directory too many -/

/-- All but one of the events that a store may hold, with the IDs from 1 on. -/
def manyEvents : List SampleEvent := (List.range (evidenceMaxEvents - 1)).map fun n => ⟨BitVec.ofNat 128 (n + 1), 1000, none⟩

theorem eventId_toNat {n : Nat} (h : n ≤ evidenceMaxEvents) : (BitVec.ofNat 128 n : EventId).toNat = n := by
  have hsmall : evidenceMaxEvents < 2 ^ 128 := by decide
  rw [BitVec.toNat_ofNat, Nat.mod_eq_of_lt (h.trans_lt hsmall)]

theorem mem_manyEvents {n : Nat} (hpos : 0 < n) (hlt : n < evidenceMaxEvents) :
    (BitVec.ofNat 128 n : EventId) ∈ manyEvents.map SampleEvent.eventId := by
  rw [manyEvents, List.map_map, List.mem_map]
  exact ⟨n - 1, List.mem_range.mpr (by omega), congrArg (BitVec.ofNat 128) (Nat.sub_add_cancel hpos)⟩

theorem not_mem_manyEvents {n : Nat} (hle : n ≤ evidenceMaxEvents) (h : n = 0 ∨ n = evidenceMaxEvents) :
    (BitVec.ofNat 128 n : EventId) ∉ manyEvents.map SampleEvent.eventId := by
  rw [manyEvents, List.map_map, List.mem_map]
  rintro ⟨m, hm, heq⟩
  rw [List.mem_range] at hm
  have hvalue := congrArg BitVec.toNat heq
  simp only [Function.comp_apply] at hvalue
  rw [eventId_toNat hle, eventId_toNat (by omega)] at hvalue
  omega

theorem lookup_sampleStore {events : List SampleEvent} :
    (sampleStore events).index.lookup eventId = none ↔ eventId ∉ events.map SampleEvent.eventId := lookup_sampleIndex

theorem length_manyEvents : manyEvents.length = evidenceMaxEvents - 1 := by rw [manyEvents, List.length_map, List.length_range]

theorem times_open : SampleTimes 1000 none := by
  have htime : 1000 < u64Bound := by decide
  exact ⟨⟨le_rfl, htime⟩, fun at' hat => by cases hat⟩

theorem manyEvents_stored : Stored manyEvents := by
  refine ⟨?_, fun x hx => ?_, ?_⟩
  · rw [manyEvents, List.map_map]
    refine List.nodup_range.map_on fun a ha b hb heq => ?_
    rw [List.mem_range] at ha hb
    have hvalue := congrArg BitVec.toNat heq
    simp only [Function.comp_apply] at hvalue
    rw [eventId_toNat (by omega), eventId_toNat (by omega)] at hvalue
    omega
  · obtain ⟨n, -, rfl⟩ := List.mem_map.mp hx
    exact times_open
  · rw [length_manyEvents]
    exact Nat.sub_le ..

/-- The event whose put fails once its directory is there. -/
def failedEvent : SampleEvent := ⟨BitVec.ofNat 128 0, 1000, none⟩

/-- The last event that there is room for in the index. -/
def lastEvent : SampleEvent := ⟨BitVec.ofNat 128 evidenceMaxEvents, 1000, none⟩

def crowdedRun : List StoreCall :=
  manyEvents.reverse.map (SampleEvent.put 0) ++
    [.put (failingAt .createTemporary failedEvent.revision.eventId) sampleTemporary failedEvent.revision, lastEvent.put 0]

/-- A commit whose first checkpoint fails has changed nothing. -/
theorem commitRevision_unstarted {directory : Path} {number : Nat} {temporary : Temporary} {evidence manifest : Bytes}
    (hfails : o.failure (.checkpoint .createTemporary) directory ≠ none)
    (htemporary : t.get (directory ++ [temporary.name]) = none) (htarget : t.get (directory ++ [revisionName number]) = none) :
    commitRevision o directory number temporary evidence manifest t = (.error .io, t) := by
  have hstop : stageRevision o directory (revisionName number) temporary.name evidence manifest t = (.error .io, t) := by
    refine Effect.bind_of_error ?_
    unfold asIo Outside.checkpoint Outside.check Effect.orElseError Effect.ask
    dsimp only
    rw [if_neg hfails]
  unfold commitRevision Effect.cleaning
  cases hmetadata : o.metadata .metadata (directory ++ [revisionName number]) t with
  | ok metadata =>
    obtain ⟨-, node, hnode, -⟩ := metadata_eq_ok.mp hmetadata
    rw [htarget] at hnode
    cases hnode
  | error error =>
    dsimp only
    rw [Effect.bind_of_error hstop]
    dsimp only
    rw [removeTemporary_absent htemporary]

/-- The put of a new event that fails at its first checkpoint leaves the event's directory. -/
theorem put_unstarted {revision : IncidentRevisionV1} {admitted : Admitted} (ht : Tidy 0 s t)
    (hadmission : s.admission F revision = .ok admitted) (hnew : s.index.lookup revision.eventId = none) :
    ∃ t', s.put (failingAt .createTemporary revision.eventId) F sampleTemporary revision t = (.error .io, s, t') ∧
      Entered 0 [eventName revision.eventId] t t' ∧ t'.get [eventName revision.eventId] = some (.directory 0o700 0) := by
  have hroot : (failingAt .createTemporary revision.eventId).validateRoot t = .ok () :=
    validatePrivateDirectory_eq_ok.mpr ⟨rfl, ht.root⟩
  have hfree := ht.absent _ hnew
  obtain ⟨t', hensure⟩ := ensureEventDirectory_passes (@failingAt_ensures revision.eventId .createTemporary (by decide))
    (by rw [ht.root]; rfl) (.inl hfree)
  obtain ⟨hentered, hthere⟩ := ensureEventDirectory_meets.ok rfl hensure
  have hempty : ∀ name, t'.get [eventName revision.eventId, name] = none := by
    intro name
    have hnone := FileTree.get_under_none hfree (List.prefix_append [eventName revision.eventId] [name])
    rcases hentered with rfl | ⟨-, mode, hget⟩
    · exact hnone
    · rw [hget, Function.update_of_ne (by simp)]
      exact hnone
  refine ⟨t', ?_, hentered, hthere⟩
  rw [LinuxEvidenceStore.put_admitted hroot hadmission, writeRevision, Effect.bind_of_ok hensure,
    commitRevision_unstarted failingAt_fails (hempty _) (hempty _)]

theorem lastEvent_late (h : ∀ n < evidenceMaxEvents, t.get [eventName (BitVec.ofNat 128 n)] ≠ none) :
    evidenceMaxEvents ≤ place t lastEvent.eventId := by
  have hsub : (List.range evidenceMaxEvents).map (fun n => eventName (BitVec.ofNat 128 n)) ⊆
      (sortedNames t []).filter fun name => (canonicalEvent name).isSome && decide (name < eventName lastEvent.eventId) := by
    intro name hname
    obtain ⟨n, hn, rfl⟩ := List.mem_map.mp hname
    rw [List.mem_range] at hn
    have hlt : eventName (BitVec.ofNat 128 n) < eventName lastEvent.eventId := by
      have hwidth : evidenceMaxEvents < 16 ^ 32 := by decide
      rw [String.lt_iff, eventName, eventName, String.toList_ofList, String.toList_ofList, eventIdText, eventIdText, lastEvent,
        eventId_toNat hn.le, eventId_toNat le_rfl]
      exact Hex.digits_lt hwidth hn
    rw [List.mem_filter, mem_sortedNames, canonicalEvent_eventName]
    exact ⟨h n hn, by simpa using hlt⟩
  have hnodup : ((List.range evidenceMaxEvents).map fun n => eventName (BitVec.ofNat 128 n)).Nodup := by
    refine List.nodup_range.map_on fun a ha b hb heq => ?_
    rw [List.mem_range] at ha hb
    have hvalue := congrArg BitVec.toNat (eventName_injective heq)
    rwa [eventId_toNat ha.le, eventId_toNat hb.le] at hvalue
  have hlength := (hnodup.subperm hsub).length_le
  rwa [List.length_map, List.length_range, ← List.countP_eq_length_filter] at hlength

/-- **The put of one event fails and leaves its empty directory; with the events that the
index still has room for, the root then holds one name more than a restart looks at.** -/
theorem crowded_event_dropped :
    ¬Keeps compactFormats 0 (afterCalls compactFormats (emptyStore sampleVersion, emptyRoot 0) crowdedRun).1
      (afterCalls compactFormats (emptyStore sampleVersion, emptyRoot 0) crowdedRun).2 := by
  have hstored := manyEvents_stored
  have hpos : 0 < evidenceMaxEvents := by decide
  have hfew : manyEvents.length < evidenceMaxEvents := by
    rw [length_manyEvents]
    omega
  obtain ⟨t, hafter, htidy, -⟩ := after_puts 0 hstored
  have hfailed : failedEvent.revision.eventId ∉ manyEvents.map SampleEvent.eventId :=
    not_mem_manyEvents (Nat.zero_le _) (.inl rfl)
  have hlast : lastEvent.revision.eventId ∉ manyEvents.map SampleEvent.eventId := not_mem_manyEvents le_rfl (.inr rfl)
  -- the put that fails
  obtain ⟨admitted₁, hadmission₁, -⟩ := @admit_new _ failedEvent hstored hfailed times_open hfew
  obtain ⟨t₁, hput₁, hentered₁, hthere₁⟩ := put_unstarted htidy hadmission₁ (lookup_sampleStore.mpr hfailed)
  have hkept : ∀ path, path ≠ [eventName failedEvent.revision.eventId] → t₁.get path = t.get path := by
    intro path hpath
    rcases hentered₁ with rfl | ⟨-, mode, hget⟩
    · rfl
    · rw [hget, Function.update_of_ne hpath]
  -- the put that succeeds
  obtain ⟨admitted₂, hadmission₂, -⟩ := @admit_new _ lastEvent hstored hlast times_open hfew
  have hnew : ∀ rest, t₁.get (eventName lastEvent.revision.eventId :: rest) = none := by
    intro rest
    rw [hkept]
    · exact FileTree.get_under_none (htidy.absent _ (lookup_sampleStore.mpr hlast)) ⟨rest, rfl⟩
    · intro hpath
      have hids := congrArg BitVec.toNat (eventName_injective (List.cons.inj hpath).1)
      change (BitVec.ofNat 128 evidenceMaxEvents : EventId).toNat = (BitVec.ofNat 128 0 : EventId).toNat at hids
      rw [eventId_toNat le_rfl, eventId_toNat (Nat.zero_le _)] at hids
      omega
  have hroot₁ : t₁.get [] = some (.directory 0o700 0) := by
    rw [hkept [] (by simp)]
    exact htidy.root
  obtain ⟨t₂, hwrite₂⟩ := @writeRevision_calm (.calm 0) t₁ lastEvent.revision sampleTemporary admitted₂ (Outside.calm_calm 0)
    (by rw [hroot₁]; rfl) (.inl (hnew [])) (hnew _) (hnew _)
  have hwritten := writeRevision_meets.ok rfl hwrite₂
  have hput₂ : (sampleStore manyEvents).put (.calm 0) compactFormats sampleTemporary lastEvent.revision t₁ =
      (.ok (detailFromRevision lastEvent.revision admitted₂.eventBytes).summary,
        (sampleStore manyEvents).stored lastEvent.revision admitted₂, t₂) := by
    rw [LinuxEvidenceStore.put_admitted (validatePrivateDirectory_eq_ok.mpr ⟨rfl, hroot₁⟩) hadmission₂, hwrite₂]
  have hrun : afterCalls compactFormats (emptyStore sampleVersion, emptyRoot 0) crowdedRun =
      ((sampleStore manyEvents).stored lastEvent.revision admitted₂, t₂) := by
    rw [afterCalls] at hafter
    rw [afterCalls, crowdedRun, List.foldl_append, hafter]
    show StoreCall.apply compactFormats ((sampleStore manyEvents).put _ _ _ _ t).2 (lastEvent.put 0) = _
    rw [hput₁]
    exact congrArg Prod.snd hput₂
  have hthere₂ : ∀ n < evidenceMaxEvents, t₂.get [eventName (BitVec.ofNat 128 n)] ≠ none := by
    intro n hn
    have hne : eventName (BitVec.ofNat 128 n) ≠ eventName lastEvent.revision.eventId := by
      intro heq
      have hids := congrArg BitVec.toNat (eventName_injective heq)
      change (BitVec.ofNat 128 n : EventId).toNat = (BitVec.ofNat 128 evidenceMaxEvents : EventId).toNat at hids
      rw [eventId_toNat hn.le, eventId_toNat le_rfl] at hids
      omega
    rw [hwritten.get_of_ne (by simpa using hne) fun hunder => by simpa [revisionPath] using hunder.length_le]
    rcases Nat.eq_zero_or_pos n with rfl | hn₀
    · exact hthere₁ ▸ Option.some_ne_none _
    · rw [hkept]
      · rw [htidy.present _ (mt lookup_sampleStore.mp (not_not.mpr (mem_manyEvents hn₀ hn)))]
        exact Option.some_ne_none _
      · intro hpath
        have hids := congrArg BitVec.toNat (eventName_injective (List.cons.inj hpath).1)
        change (BitVec.ofNat 128 n : EventId).toNat = (BitVec.ofNat 128 0 : EventId).toNat at hids
        rw [eventId_toNat hn.le, eventId_toNat (Nat.zero_le _)] at hids
        omega
  rw [hrun]
  rintro ⟨index, health, hrecovered, hall⟩
  have hroot₂ : t₂.get [] = some (.directory 0o700 0) := by
    rw [hwritten.get_of_ne (by simp) (by simp [revisionPath])]
    exact hroot₁
  have hdropped := @recoveredEvent_eq compactFormats 0 t₂ hroot₂ lastEvent.eventId
  rw [if_neg (Nat.not_lt.mpr (lastEvent_late hthere₂)), recoveredEvent, hrecovered] at hdropped
  have hindexed : ((sampleStore manyEvents).stored lastEvent.revision admitted₂).index.lookup lastEvent.revision.eventId ≠ none := by
    rw [LinuxEvidenceStore.stored, AList.lookup_insert]
    exact Option.some_ne_none _
  exact hall lastEvent.eventId hindexed (Except.ok.inj hdropped)

end NetworkLoop.Evidence
