import NetworkLoop.Evidence.Writing

/-! What a restart finds: `recover` when no call fails.

Under each event's directory the revisions that can be read are `revisionsAt`; the event is
found with the last of them and the bytes of all (`recoverEvent_calm`). The root may have
more canonical names than the index has room for: an event is looked at when fewer than
`evidenceMaxEvents` of them come before its own (`recoveredEvent_eq`). -/
namespace NetworkLoop.Evidence
open Library Observation

/-- Nothing fails. -/
def Outside.calm (uid : Nat) : Outside := ⟨uid, fun _ _ => none⟩

theorem Outside.calm_calm (uid : Nat) : (Outside.calm uid).Calm := fun _ _ => rfl

theorem Outside.calm_reads (uid : Nat) (path : Path) : (Outside.calm uid).Reads path := ⟨rfl, rfl, fun _ => rfl, fun _ => rfl⟩

variable {F : Formats} {uid : Nat} {t : Disk} {eventId : EventId}

/-! ### One event -/

/-- The revision that can be read under a number. -/
def revisionAt (F : Formats) (uid : Nat) (t : Disk) (eventId : EventId) (revision : Nat) : Option (StoredRevision eventId) :=
  (readRevision F (.calm uid) eventId revision (revisionPath eventId revision) t).toOption

/-- The revisions that can be read, in order. -/
def revisionsAt (F : Formats) (uid : Nat) (t : Disk) (eventId : EventId) : List (StoredRevision eventId) :=
  (List.range' 1 evidenceMaxRevisionsPerEvent).filterMap (revisionAt F uid t eventId)

/-- What an event amounts to: its last revision, and the bytes of all. -/
def indexed {eventId : EventId} (revisions : List (StoredRevision eventId)) : Option (Indexed eventId) :=
  revisions.getLast?.map fun x => ⟨x.revision, (revisions.map (·.manifest.totalBytes)).sum, x.named⟩

/-- What a restart makes of an event's directory. -/
def foundEvent (F : Formats) (uid : Nat) (t : Disk) (eventId : EventId) : Option (Indexed eventId) :=
  if t.get [eventName eventId] = some (.directory 0o700 uid) then indexed (revisionsAt F uid t eventId) else none

theorem revisionAt_eq_some {revision : Nat} {x : StoredRevision eventId} : revisionAt F uid t eventId revision = some x ↔
    OnDisk F uid t (revisionPath eventId revision) eventId revision x := by
  rw [revisionAt]
  constructor
  · intro h
    cases hread : readRevision F (.calm uid) eventId revision (revisionPath eventId revision) t with
    | ok found =>
      rw [hread] at h
      cases h
      exact readRevision_eq_ok hread
    | error error =>
      rw [hread] at h
      cases h
  · intro h
    rw [readRevision_of_onDisk (Outside.calm_reads uid _) h]
    rfl

theorem revisionAt_number {revision : Nat} {x : StoredRevision eventId} (h : revisionAt F uid t eventId revision = some x) :
    x.revision.revision = revision := by
  obtain ⟨_, _, -, -, -, hmatches⟩ := (revisionAt_eq_some.mp h).files
  exact hmatches.revisionNumber

theorem revisionAt_bytes {revision : Nat} {x : StoredRevision eventId} (h : revisionAt F uid t eventId revision = some x) :
    x.manifest.totalBytes ≤ evidenceMaxEventBytes := by
  obtain ⟨_, _, -, -, -, hmatches⟩ := (revisionAt_eq_some.mp h).files
  have hvalid := hmatches.manifest
  simp only [EvidenceManifestV1.validate, Bool.not_eq_true', Bool.or_eq_false_iff, decide_eq_false_iff_not] at hvalid
  omega

/-- The revision that a name stands for, if it can be read. -/
def named (F : Formats) (uid : Nat) (t : Disk) (eventId : EventId) (name : String) : Option (StoredRevision eventId) :=
  (parseRevisionName name).bind (revisionAt F uid t eventId)

theorem adoptRevision_none {found : RecoveredEvent eventId} {name : String} (h : named F uid t eventId name = none) :
    (adoptRevision F (.calm uid) eventId t found name).latest = found.latest ∧
      (adoptRevision F (.calm uid) eventId t found name).eventBytes = found.eventBytes := by
  unfold adoptRevision
  split
  · exact ⟨rfl, rfl⟩
  · cases hparse : parseRevisionName name with
    | none => exact ⟨rfl, rfl⟩
    | some revision =>
      rw [named, hparse, Option.bind_some, revisionAt, revisionPath, ← (parseRevisionName_iff.mp hparse).1] at h
      dsimp only
      cases hread : readRevision F (.calm uid) eventId revision [eventName eventId, name] t with
      | ok x =>
        rw [hread] at h
        cases h
      | error error =>
        cases error with
        | incomplete => exact ⟨rfl, rfl⟩
        | corrupt => exact ⟨rfl, rfl⟩

theorem adoptRevision_some {found : RecoveredEvent eventId} {name : String} {x : StoredRevision eventId}
    (h : named F uid t eventId name = some x) :
    adoptRevision F (.calm uid) eventId t found name = { found with
      eventBytes := saturatingAdd found.eventBytes x.manifest.totalBytes
      latest := if found.latest.all fun current => decide (current.revision.revision < x.revision.revision) then some x
        else found.latest } := by
  obtain ⟨revision, hparse, hat⟩ := Option.bind_eq_some_iff.mp h
  have hname := (parseRevisionName_iff.mp hparse).1
  have hread := readRevision_of_onDisk (Outside.calm_reads uid _) (revisionAt_eq_some.mp hat)
  have htemporary : isTemporary name = false := hname ▸ revisionName_not_temporary revision
  rw [revisionPath, ← hname] at hread
  unfold adoptRevision
  rw [htemporary, hparse]
  dsimp only
  rw [hread]
  rfl

/-- The loop of `recover_event` over names in the order of their revisions. -/
theorem foldl_adoptRevision_calm (names : List String) (found : RecoveredEvent eventId)
    (hsorted : ((found.latest.toList ++ names.filterMap (named F uid t eventId)).map (·.revision.revision)).Pairwise (· < ·))
    (hbytes : found.eventBytes + ((names.filterMap (named F uid t eventId)).map (·.manifest.totalBytes)).sum < u64Bound) :
    (names.foldl (adoptRevision F (.calm uid) eventId t) found).latest =
        (found.latest.toList ++ names.filterMap (named F uid t eventId)).getLast? ∧
      (names.foldl (adoptRevision F (.calm uid) eventId t) found).eventBytes =
        found.eventBytes + ((names.filterMap (named F uid t eventId)).map (·.manifest.totalBytes)).sum := by
  induction names generalizing found with
  | nil =>
    refine ⟨?_, rfl⟩
    show found.latest = (found.latest.toList ++ []).getLast?
    cases found.latest with
    | none => rfl
    | some x => rfl
  | cons name rest ih =>
    rw [List.foldl_cons]
    cases hname : named F uid t eventId name with
    | none =>
      rw [List.filterMap_cons_none hname] at hsorted hbytes ⊢
      obtain ⟨hlatest, htotal⟩ := @adoptRevision_none F uid t eventId found _ hname
      obtain ⟨hlast, hsum⟩ := ih (adoptRevision F (.calm uid) eventId t found name) (by rwa [hlatest]) (by rwa [htotal])
      rw [hlatest] at hlast
      rw [htotal] at hsum
      exact ⟨hlast, hsum⟩
    | some x =>
      rw [List.filterMap_cons_some hname] at hsorted hbytes ⊢
      rw [List.map_cons, List.sum_cons] at hbytes ⊢
      have hsum : saturatingAdd found.eventBytes x.manifest.totalBytes = found.eventBytes + x.manifest.totalBytes := by
        rw [saturatingAdd]
        omega
      have hlater : (found.latest.all fun current => decide (current.revision.revision < x.revision.revision)) = true := by
        cases hlatest : found.latest with
        | none => rfl
        | some current =>
          rw [hlatest] at hsorted
          have hlt := List.rel_of_pairwise_cons hsorted (List.mem_cons_self (a := x.revision.revision))
          simpa using hlt
      rw [adoptRevision_some hname, hlater, hsum, if_pos rfl]
      have hrest : ((some x).toList ++ rest.filterMap (named F uid t eventId)).getLast? =
          (found.latest.toList ++ x :: rest.filterMap (named F uid t eventId)).getLast? := by
        rw [Option.toList_some, List.singleton_append, List.getLast?_append, Option.or_of_isSome (by simp)]
      obtain ⟨hlatest, htotal⟩ := ih ⟨found.health, some x, found.eventBytes + x.manifest.totalBytes⟩
        (hsorted.sublist ((List.sublist_append_right ..).map _)) (by rwa [Nat.add_assoc])
      exact ⟨hlatest.trans hrest, htotal.trans (Nat.add_assoc ..)⟩

/-! ### The revisions of a directory -/

theorem revisionName_succ : ∀ n ∈ List.range 16, revisionName n < revisionName (n + 1) := by
  decide +kernel

theorem revisionName_mono {a b : Nat} (hlt : a < b) (hb : b < 17) : revisionName a < revisionName b := by
  induction b, hlt using Nat.le_induction with
  | base => exact revisionName_succ a (List.mem_range.mpr (by omega))
  | succ b _ ih => exact (ih (by omega)).trans (revisionName_succ b (List.mem_range.mpr (by omega)))

theorem revisionName_order : ∀ a ∈ List.range 17, ∀ b ∈ List.range 17, revisionName a < revisionName b → a < b := by
  intro a ha b _ hlt
  by_contra hle
  obtain heq | hgt := Nat.eq_or_lt_of_le (Nat.not_lt.mp hle)
  · rw [heq] at hlt
    exact lt_irrefl _ hlt
  · exact lt_asymm hlt (revisionName_mono hgt (List.mem_range.mp ha))

theorem sortedNames_strict (t : Disk) (path : Path) : (sortedNames t path).Pairwise (· < ·) :=
  (sortedNames_pairwise t path).imp₂ (fun _ _ hle hne => lt_of_le_of_ne hle hne) (sortedNames_nodup t path)

theorem revisionsIn_sorted {names : List String} (h : names.Pairwise (· < ·)) : (revisionsIn names).Pairwise (· < ·) := by
  refine h.filterMap parseRevisionName fun name name' hlt revision hrevision revision' hrevision' => ?_
  obtain ⟨rfl, -, hle⟩ := parseRevisionName_iff.mp hrevision
  obtain ⟨rfl, -, hle'⟩ := parseRevisionName_iff.mp hrevision'
  have hbound : evidenceMaxRevisionsPerEvent < 17 := by decide
  exact revisionName_order revision (List.mem_range.mpr (hle.trans_lt hbound)) revision'
    (List.mem_range.mpr (hle'.trans_lt hbound)) hlt

/-- The names of a directory, in order, are its revisions in order. -/
theorem revisionsIn_sortedNames (path : Path) : revisionsIn (sortedNames t path) =
    (List.range' 1 evidenceMaxRevisionsPerEvent).filter fun revision => (t.get (path ++ [revisionName revision])).isSome := by
  have hrange : ((List.range' 1 evidenceMaxRevisionsPerEvent).filter fun revision =>
      (t.get (path ++ [revisionName revision])).isSome).Pairwise (· < ·) := (List.pairwise_lt_range' (s := 1)).sublist List.filter_sublist
  have hsorted := revisionsIn_sorted (sortedNames_strict t path)
  have hperm : (revisionsIn (sortedNames t path)).Perm ((List.range' 1 evidenceMaxRevisionsPerEvent).filter fun revision =>
      (t.get (path ++ [revisionName revision])).isSome) := by
    rw [List.perm_ext_iff_of_nodup (hsorted.imp ne_of_lt) (hrange.imp ne_of_lt)]
    intro revision
    rw [mem_revisionsIn, mem_sortedNames, List.mem_filter, List.mem_range'_1, Option.isSome_iff_ne_none, Nat.add_comm,
      Nat.lt_succ_iff, and_comm]
    rfl
  exact hperm.eq_of_pairwise (fun a b _ _ hab hba => absurd hab (lt_asymm hba)) hsorted hrange

theorem revisionAt_missing {revision : Nat} (h : t.get (revisionPath eventId revision) = none) :
    revisionAt F uid t eventId revision = none := by
  cases hat : revisionAt F uid t eventId revision with
  | none => rfl
  | some x =>
    have := (revisionAt_eq_some.mp hat).directory
    rw [h] at this
    cases this

/-- Reading the names of an event's directory is reading its revisions. -/
theorem filterMap_named : (sortedNames t [eventName eventId]).filterMap (named F uid t eventId) = revisionsAt F uid t eventId := by
  have hnames : (sortedNames t [eventName eventId]).filterMap (named F uid t eventId) =
      (revisionsIn (sortedNames t [eventName eventId])).filterMap (revisionAt F uid t eventId) := by
    rw [revisionsIn, List.filterMap_filterMap]
    rfl
  rw [hnames, revisionsIn_sortedNames, List.filterMap_filter, revisionsAt]
  apply List.filterMap_congr
  intro revision _
  split
  · rfl
  · rename_i hmissing
    exact (revisionAt_missing (Option.not_isSome_iff_eq_none.mp hmissing)).symm

theorem revisionsAt_sorted : ((revisionsAt F uid t eventId).map (·.revision.revision)).Pairwise (· < ·) := by
  rw [revisionsAt, List.map_filterMap]
  refine (List.pairwise_lt_range' (s := 1) (n := evidenceMaxRevisionsPerEvent)).filterMap _ fun a b hlt n hn m hm => ?_
  obtain ⟨x, hx, rfl⟩ := Option.map_eq_some_iff.mp hn
  obtain ⟨y, hy, rfl⟩ := Option.map_eq_some_iff.mp hm
  rw [revisionAt_number hx, revisionAt_number hy]
  exact hlt

/-- The bytes of an event's revisions are far from the width of a counter. -/
theorem revisionsAt_bytes : ((revisionsAt F uid t eventId).map (·.manifest.totalBytes)).sum < u64Bound := by
  have hlength : (revisionsAt F uid t eventId).length ≤ evidenceMaxRevisionsPerEvent := by
    rw [revisionsAt]
    exact (List.length_filterMap_le ..).trans (by simp)
  have hsum := List.sum_le_card_nsmul ((revisionsAt F uid t eventId).map (·.manifest.totalBytes)) evidenceMaxEventBytes (by
    intro bytes hbytes
    obtain ⟨x, hx, rfl⟩ := List.mem_map.mp hbytes
    obtain ⟨revision, -, hat⟩ := List.mem_filterMap.mp hx
    exact revisionAt_bytes hat)
  rw [List.length_map, smul_eq_mul] at hsum
  have hwidth : evidenceMaxRevisionsPerEvent * evidenceMaxEventBytes < u64Bound := by decide
  exact (hsum.trans (Nat.mul_le_mul_right _ hlength)).trans_lt hwidth

/-- **What `recover_event` finds when no call fails.** -/
theorem recoverEvent_calm (health : EvidenceStoreHealth) :
    ∃ health', recoverEvent F (.calm uid) eventId health t = .ok (foundEvent F uid t eventId, health') := by
  unfold recoverEvent foundEvent
  cases hvalid : (Outside.calm uid).validatePrivateDirectory [eventName eventId] .io t with
  | error error =>
    have hinvalid : t.get [eventName eventId] ≠ some (.directory 0o700 uid) := by
      intro hthere
      rw [validatePrivateDirectory_eq_ok.mpr ⟨rfl, hthere⟩] at hvalid
      cases hvalid
    rw [if_neg hinvalid]
    exact ⟨_, rfl⟩
  | ok _ =>
    have hthere : t.get [eventName eventId] = some (.directory 0o700 uid) := (validatePrivateDirectory_eq_ok.mp hvalid).2
    have hnames : (Outside.calm uid).readDirectory [eventName eventId] t = .ok (sortedNames t [eventName eventId]) :=
      readDirectory_eq_ok.mpr ⟨rfl, by rw [hthere]; rfl, rfl⟩
    rw [if_pos hthere, hnames]
    have hfold := @foldl_adoptRevision_calm F uid t eventId (sortedNames t [eventName eventId])
      (⟨health, none, 0⟩ : RecoveredEvent eventId) (by rw [filterMap_named]; exact revisionsAt_sorted)
      (by rw [filterMap_named, Nat.zero_add]; exact revisionsAt_bytes)
    rw [filterMap_named, Nat.zero_add] at hfold
    refine ⟨((sortedNames t [eventName eventId]).foldl (adoptRevision F (.calm uid) eventId t) ⟨health, none, 0⟩).health, ?_⟩
    dsimp only
    rw [hfold.1, hfold.2]
    rfl

/-! ### The events of the root -/

/-- How many canonical names come before an event's own. -/
def canonicalBefore (names : List String) (eventId : EventId) : Nat :=
  names.countP fun name => (canonicalEvent name).isSome && decide (name < eventName eventId)

theorem canonicalEvent_eventName (eventId : EventId) : canonicalEvent (eventName eventId) = some eventId :=
  canonicalEvent_iff.mpr rfl

/-- A name that is not canonical is not counted. -/
theorem canonicalBefore_foreign {name : String} {rest : List String} (hname : canonicalEvent name = none) :
    canonicalBefore (name :: rest) eventId = canonicalBefore rest eventId :=
  List.countP_cons_of_neg (by simp [hname])

theorem canonicalBefore_earlier {other : EventId} {rest : List String} (hlt : eventName other < eventName eventId) :
    canonicalBefore (eventName other :: rest) eventId = canonicalBefore rest eventId + 1 :=
  List.countP_cons_of_pos (by simp [canonicalEvent_eventName, hlt])

/-- No name comes before the first one. -/
theorem canonicalBefore_head {rest : List String} (hfirst : ∀ name ∈ rest, eventName eventId < name) :
    canonicalBefore (eventName eventId :: rest) eventId = 0 := by
  rw [canonicalBefore, List.countP_eq_zero]
  intro name hmem
  rcases List.mem_cons.mp hmem with rfl | hmem
  · simp
  · simp [lt_asymm (hfirst name hmem)]

/-- A canonical name that there is room for is counted, and brings what is found. -/
theorem adoptEvent_calm {found : Recovering} (hroom : ¬found.canonicalEvents ≥ evidenceMaxEvents) :
    ∃ next, adoptEvent F (.calm uid) t found (eventName eventId) = .ok next ∧
      next.canonicalEvents = found.canonicalEvents + 1 ∧
      ∀ e, next.index.lookup e = if e = eventId then foundEvent F uid t e <|> found.index.lookup e
        else found.index.lookup e := by
  obtain ⟨health, hevent⟩ := @recoverEvent_calm F uid t eventId found.health
  rw [adoptEvent, canonicalEvent_eventName]
  dsimp only
  rw [if_neg hroom, hevent]
  cases hfound : foundEvent F uid t eventId with
  | none =>
    refine ⟨_, rfl, rfl, fun e => ?_⟩
    split
    case isTrue heq =>
      subst heq
      rw [hfound]
      rfl
    case isFalse => rfl
  | some detail =>
    refine ⟨_, rfl, rfl, fun e => ?_⟩
    split
    case isTrue heq =>
      subst heq
      rw [hfound]
      exact AList.lookup_insert _
    case isFalse hne => exact AList.lookup_insert_ne hne

theorem foldlM_adoptEvent_calm (names : List String) (hsorted : names.Pairwise (· < ·)) (found : Recovering)
    (hnew : eventName eventId ∈ names → found.index.lookup eventId = none) :
    ∃ found', names.foldlM (adoptEvent F (.calm uid) t) found = .ok found' ∧
      found'.index.lookup eventId =
        if eventName eventId ∈ names then
          if found.canonicalEvents + canonicalBefore names eventId < evidenceMaxEvents then foundEvent F uid t eventId else none
        else found.index.lookup eventId := by
  induction names generalizing found with
  | nil => exact ⟨found, rfl, rfl⟩
  | cons name rest ih =>
    obtain ⟨hfirst, hrest⟩ := List.pairwise_cons.mp hsorted
    rw [List.foldlM_cons]
    cases hname : canonicalEvent name with
    | none =>
      -- not an event's name
      have hne : eventName eventId ≠ name := by
        rintro rfl
        rw [canonicalEvent_eventName] at hname
        cases hname
      have hmem : eventName eventId ∈ name :: rest ↔ eventName eventId ∈ rest := by simp [hne]
      obtain ⟨found', hfold, hlookup⟩ := ih hrest
        { found with health.unknownObjectCount := increment found.health.unknownObjectCount } fun hin => hnew (hmem.mpr hin)
      refine ⟨found', ?_, ?_⟩
      · rw [adoptEvent, hname]
        exact hfold
      · rw [canonicalBefore_foreign hname]
        simp only [hmem]
        exact hlookup
    | some other =>
      have hother := canonicalEvent_iff.mp hname
      subst hother
      by_cases hfull : found.canonicalEvents ≥ evidenceMaxEvents
      · -- no room for any more
        obtain ⟨found', hfold, hlookup⟩ := ih hrest
          { found with health.unknownObjectCount := increment found.health.unknownObjectCount }
          fun hin => hnew (List.mem_cons_of_mem _ hin)
        refine ⟨found', ?_, ?_⟩
        · rw [adoptEvent, hname]
          dsimp only
          rw [if_pos hfull]
          exact hfold
        · have hnoroom : ∀ before, ¬found.canonicalEvents + before < evidenceMaxEvents := fun before => by omega
          rw [hlookup]
          dsimp only
          by_cases hin : eventName eventId ∈ eventName other :: rest
          · rw [if_pos hin, if_neg (hnoroom _), if_neg (hnoroom _), hnew hin, ite_self]
          · rw [if_neg hin, if_neg fun hmem => hin (List.mem_cons_of_mem _ hmem)]
      · obtain ⟨next, hadopt, hcount, hlookups⟩ := @adoptEvent_calm F uid t other _ hfull
        rw [hadopt]
        by_cases heq : eventId = other
        · -- the event itself
          subst heq
          have hnotin : eventName eventId ∉ rest := fun hin => lt_irrefl _ (hfirst _ hin)
          obtain ⟨found', hfold, hlookup⟩ := ih hrest next fun hin => absurd hin hnotin
          refine ⟨found', hfold, ?_⟩
          rw [hlookup, if_neg hnotin, hlookups, if_pos rfl, hnew List.mem_cons_self, if_pos List.mem_cons_self,
            canonicalBefore_head hfirst, if_pos (by omega)]
          cases foundEvent F uid t eventId with
          | none => rfl
          | some detail => rfl
        · have hne : eventName eventId ≠ eventName other := fun hsame => heq (eventName_injective hsame)
          have hmem : eventName eventId ∈ eventName other :: rest ↔ eventName eventId ∈ rest := by simp [hne]
          obtain ⟨found', hfold, hlookup⟩ := ih hrest next fun hin => by
            rw [hlookups, if_neg heq]
            exact hnew (hmem.mpr hin)
          refine ⟨found', hfold, ?_⟩
          rw [hlookup, hlookups, if_neg heq, hcount]
          simp only [hmem]
          split
          case isTrue hin => rw [canonicalBefore_earlier (hfirst _ hin), Nat.add_assoc, Nat.add_comm 1]
          case isFalse => rfl

/-- How many canonical names of the root come before an event's own. -/
def place (t : Disk) (eventId : EventId) : Nat := canonicalBefore (sortedNames t []) eventId

/-- What a restart finds for an event. -/
def recoveredEvent (F : Formats) (uid : Nat) (t : Disk) (eventId : EventId) :
    Except EvidenceStoreError (Option (Indexed eventId)) :=
  (LinuxEvidenceStore.recovered F (.calm uid) t).map fun found => found.1.lookup eventId

/-- **An event is found after a restart by its own directory alone, if fewer than
`evidenceMaxEvents` canonical names come before its own.** -/
theorem recoveredEvent_eq (hroot : t.get [] = some (.directory 0o700 uid)) (eventId : EventId) :
    recoveredEvent F uid t eventId =
      .ok (if place t eventId < evidenceMaxEvents then foundEvent F uid t eventId else none) := by
  have hvalid : (Outside.calm uid).validateRoot t = .ok () := validatePrivateDirectory_eq_ok.mpr ⟨rfl, hroot⟩
  have hnames : (Outside.calm uid).readDirectory [] t = .ok (sortedNames t []) :=
    readDirectory_eq_ok.mpr ⟨rfl, by rw [hroot]; rfl, rfl⟩
  obtain ⟨found, hfold, hlookup⟩ := @foldlM_adoptEvent_calm F uid t eventId
    (sortedNames t []) (sortedNames_strict t []) ⟨∅, { EvidenceStoreHealth.default with available := true }, 0⟩ fun _ => rfl
  have hrecovered : LinuxEvidenceStore.recovered F (.calm uid) t =
      .ok (found.index, { found.health with eventCount := min found.index.keys.length 65535 }) := by
    rw [LinuxEvidenceStore.recovered, hvalid, hnames]
    show ((sortedNames t []).foldlM (adoptEvent F (.calm uid) t) _ >>= _) = _
    rw [hfold]
    rfl
  rw [recoveredEvent, hrecovered]
  show Except.ok (found.index.lookup eventId) = _
  rw [hlookup, Nat.zero_add]
  split
  case isTrue => rfl
  case isFalse hmissing =>
    have hnone : t.get [eventName eventId] = none := by
      by_contra hthere
      exact hmissing (mem_sortedNames.mpr hthere)
    rw [foundEvent, hnone]
    simp

/-- A restart recovers a root that is there, and finds in it what `recoveredEvent` says. -/
theorem recovered_calm (hroot : t.get [] = some (.directory 0o700 uid)) :
    ∃ index health, LinuxEvidenceStore.recovered F (.calm uid) t = .ok (index, health) ∧
      ∀ eventId, index.lookup eventId = if place t eventId < evidenceMaxEvents then foundEvent F uid t eventId else none := by
  have hfound := fun eventId => @recoveredEvent_eq F uid t hroot eventId
  cases hrecovered : LinuxEvidenceStore.recovered F (.calm uid) t with
  | error error =>
    have hnone := hfound 0
    rw [recoveredEvent, hrecovered] at hnone
    cases hnone
  | ok found =>
    refine ⟨found.1, found.2, rfl, fun eventId => ?_⟩
    have hevent := hfound eventId
    rw [recoveredEvent, hrecovered] at hevent
    exact Except.ok.inj hevent

/-! ### What the answer depends on -/

section
variable {t' : Disk}

theorem onDisk_congr {path : Path} {revision : Nat} {x : StoredRevision eventId}
    (h : ∀ rest, t'.get (path ++ rest) = t.get (path ++ rest)) (hx : OnDisk F uid t path eventId revision x) :
    OnDisk F uid t' path eventId revision x := by
  obtain ⟨evidence, manifest, hevidence, hmanifest, hmatches⟩ := hx.files
  have hroot := h []
  rw [List.append_nil] at hroot
  refine ⟨hroot.trans hx.directory, ?_, evidence, manifest, ?_, ?_, hmatches⟩
  · rw [← hx.names]
    exact sortedNames_congr fun name => by rw [h]
  · rwa [PrivateFile, h]
  · rwa [PrivateFile, h]

/-- A revision is what lies in its directory. -/
theorem revisionAt_congr {revision : Nat}
    (h : ∀ rest, t'.get (revisionPath eventId revision ++ rest) = t.get (revisionPath eventId revision ++ rest)) :
    revisionAt F uid t' eventId revision = revisionAt F uid t eventId revision := by
  ext x
  rw [← Option.mem_def, ← Option.mem_def, Option.mem_def, Option.mem_def, revisionAt_eq_some, revisionAt_eq_some]
  exact ⟨onDisk_congr fun rest => (h rest).symm, onDisk_congr h⟩

/-- An event is its directory, and what lies in the directories of its revisions. -/
theorem foundEvent_congr (hdirectory : t'.get [eventName eventId] = t.get [eventName eventId])
    (h : ∀ revision rest, t'.get (revisionPath eventId revision ++ rest) = t.get (revisionPath eventId revision ++ rest)) :
    foundEvent F uid t' eventId = foundEvent F uid t eventId := by
  have hall : revisionsAt F uid t' eventId = revisionsAt F uid t eventId :=
    List.filterMap_congr fun revision _ => revisionAt_congr (h revision)
  rw [foundEvent, foundEvent, hdirectory, hall]

theorem place_congr (h : ∀ name, t.get [name] ≠ none ↔ t'.get [name] ≠ none) (eventId : EventId) :
    place t' eventId = place t eventId := by
  have hnames : sortedNames t [] = sortedNames t' [] := sortedNames_congr h
  rw [place, place, hnames]

/-- A new directory moves those of later names. -/
theorem place_update {new : EventId} {node : Node} (hfree : t.get [eventName new] = none)
    (h : t'.get = Function.update t.get [eventName new] (some node)) (eventId : EventId) :
    place t' eventId = place t eventId + if eventName new < eventName eventId then 1 else 0 := by
  have hperm : (sortedNames t' []).Perm (eventName new :: sortedNames t []) := by
    have hnotin : eventName new ∉ sortedNames t [] := fun hin => mem_sortedNames.mp hin hfree
    rw [List.perm_ext_iff_of_nodup (sortedNames_nodup ..) (List.nodup_cons.mpr ⟨hnotin, sortedNames_nodup ..⟩)]
    intro name
    rw [List.mem_cons, mem_sortedNames, mem_sortedNames, h, List.nil_append]
    by_cases hname : name = eventName new
    · simp [hname]
    · rw [Function.update_of_ne (by simpa using hname)]
      simp [hname]
  rw [place, place, canonicalBefore, hperm.countP_eq, List.countP_cons, canonicalEvent_eventName]
  simp [canonicalBefore]

/-- What lies in a temporary directory is nothing to a restart. -/
theorem restart_temporary {name : String} (hname : isTemporary name = true) {other : EventId}
    (h : SameBut [eventName other, name] t t') (eventId : EventId) :
    foundEvent F uid t' eventId = foundEvent F uid t eventId ∧ place t' eventId = place t eventId := by
  have hshort : ∀ single, ¬[eventName other, name] <+: [single] := fun single hprefix => by simpa using hprefix.length_le
  refine ⟨foundEvent_congr (h _ (hshort _)) fun revision rest => h _ fun hunder => ?_,
    place_congr (fun single => by rw [h _ (hshort single)]) eventId⟩
  obtain ⟨-, htail⟩ := List.cons_prefix_cons.mp hunder
  have heq := (List.cons_prefix_cons.mp htail).1
  rw [heq, revisionName_not_temporary] at hname
  cases hname

/-- A new event directory holds nothing yet. -/
theorem foundEvent_entered {other : EventId} (h : Entered uid [eventName other] t t') (eventId : EventId) :
    foundEvent F uid t' eventId = foundEvent F uid t eventId := by
  rcases h with rfl | ⟨hfree, mode, hget⟩
  · rfl
  · have hbelow : ∀ revision rest,
        t'.get (revisionPath eventId revision ++ rest) = t.get (revisionPath eventId revision ++ rest) := fun revision rest => by
      rw [hget, Function.update_of_ne]
      simp [revisionPath]
    by_cases heq : eventId = other
    · subst heq
      have hnothing : revisionsAt F uid t' eventId = [] := by
        rw [revisionsAt, List.filterMap_eq_nil_iff]
        intro revision _
        apply revisionAt_missing
        have hempty := hbelow revision []
        rw [List.append_nil] at hempty
        rw [hempty]
        exact FileTree.get_under_none hfree ⟨[revisionName revision], rfl⟩
      rw [foundEvent, foundEvent, hnothing, hfree]
      simp [indexed]
    · refine foundEvent_congr ?_ hbelow
      rw [hget, Function.update_of_ne]
      intro hsame
      exact heq (eventName_injective (List.cons.inj hsame).1)

end

end NetworkLoop.Evidence
