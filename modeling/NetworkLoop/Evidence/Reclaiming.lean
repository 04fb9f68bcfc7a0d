import NetworkLoop.Evidence.Calm

/-! The loop of `enforce_retention`.

It goes through the closed events in their order, each of which it needs and can remove, and
ends with the last one, at one that need not go, or at a removal that does not go through
(`reclaim_ends`). The counters it starts from may be too high, as an interrupted retention
leaves them, but are never too low (`Bounded`). -/
namespace NetworkLoop.Evidence
open Library Observation Table

/-! ### The counters from above -/

/-- The counters are not below what the index holds. -/
structure LinuxEvidenceStore.Bounded (s : LinuxEvidenceStore) : Prop where
  count : s.index.keys.length ≤ evidenceMaxEvents
  counted : s.index.keys.length ≤ s.health.eventCount
  totalled : tally bytesOf s.index ≤ s.health.totalBytes
  bytes : s.health.totalBytes < u64Bound

variable {F : Formats} {o : Outside} {t : Disk} {request : RetentionRequest} {health : EvidenceStoreHealth}
  {s : Reclaiming} {c : Candidate} {rest : List Candidate}

theorem LinuxEvidenceStore.Kept.bounded {s : LinuxEvidenceStore} (h : s.Kept) : s.Bounded :=
  ⟨h.count, h.accounted.1.ge, h.accounted.2.ge, h.bytes⟩

theorem bounded_recover {s : LinuxEvidenceStore} (h : s.Bounded) : (s.recover F o t).2.Bounded := by
  unfold LinuxEvidenceStore.recover
  split
  · exact h
  · rename_i index health hrecovered
    exact (kept_recovered hrecovered).bounded

theorem bounded_stored {s : LinuxEvidenceStore} (hb : s.Bounded) {revision : IncidentRevisionV1} {admitted : Admitted}
    (h : Sized s revision admitted) : (s.stored revision admitted).Bounded := by
  have hevents : evidenceMaxEvents < 65535 := by decide
  have htally := tally_insert bytesOf s.index (⟨revision, admitted.eventBytes, rfl⟩ : Indexed revision.eventId)
  change _ = _ + admitted.eventBytes at htally
  have hbytes := h.eventBytes
  have hcounted := hb.counted
  have htotalled := hb.totalled
  refine ⟨h.count_stored hb.count, ?_, ?_, h.bytes_stored⟩
  · show (s.index.insert _ _).keys.length ≤
      if s.index.lookup revision.eventId = none then increment s.health.eventCount else s.health.eventCount
    split
    case isTrue hnone =>
      rw [keys_insert_new hnone]
      have hroom := h.room hnone
      exact le_min (Nat.succ_le_succ hcounted) (Nat.succ_le_of_lt (hroom.trans hevents))
    case isFalse hsome =>
      rw [keys_insert_old hsome]
      exact hcounted
  · show tally bytesOf (s.index.insert _ _) ≤ saturatingAdd s.health.totalBytes admitted.manifest.totalBytes
    rw [h.saturatingAdd_eq]
    omega

theorem bounded_put {s : LinuxEvidenceStore} (hb : s.Bounded) (temporary : Temporary) (revision : IncidentRevisionV1) :
    (s.put o F temporary revision t).2.1.Bounded := by
  unfold LinuxEvidenceStore.put
  split
  · exact hb
  · rename_i admitted hadmitted
    obtain ⟨-, -, hadmission⟩ := bind_eq_ok.mp hadmitted
    split
    · exact hb
    · exact bounded_stored hb (sized_of_admission hadmission)

/-! ### The events that are gone -/

def bytesIn (gone : List Candidate) : Nat := (gone.map Candidate.bundleBytes).sum

/-- The loop state once some events are gone. -/
def Reclaiming.withoutAll (s : Reclaiming) (gone : List Candidate) : Reclaiming := gone.foldl Reclaiming.without s

theorem withoutAll_reclaimed (gone : List Candidate) (s : Reclaiming) :
    (s.withoutAll gone).reclaimed = s.reclaimed + bytesIn gone := by
  induction gone generalizing s with
  | nil => rfl
  | cons c gone ih =>
    rw [Reclaiming.withoutAll, List.foldl_cons, ← Reclaiming.withoutAll, ih, bytesIn, bytesIn, List.map_cons, List.sum_cons,
      ← Nat.add_assoc]
    rfl

theorem withoutAll_deleted (gone : List Candidate) (s : Reclaiming) :
    (s.withoutAll gone).deletedEventIds = s.deletedEventIds ++ gone.map Candidate.eventId := by
  induction gone generalizing s with
  | nil => exact (List.append_nil _).symm
  | cons c gone ih =>
    rw [Reclaiming.withoutAll, List.foldl_cons, ← Reclaiming.withoutAll, ih, Reclaiming.without, List.append_assoc]
    rfl

theorem withoutAll_lookup (gone : List Candidate) (s : Reclaiming) (eventId : EventId) :
    (s.withoutAll gone).index.lookup eventId =
      if eventId ∈ gone.map Candidate.eventId then none else s.index.lookup eventId := by
  induction gone generalizing s with
  | nil => rfl
  | cons c gone ih =>
    rw [Reclaiming.withoutAll, List.foldl_cons, ← Reclaiming.withoutAll, ih, List.map_cons, Reclaiming.without]
    by_cases heq : eventId = c.eventId
    · subst heq
      simp
    · simp [heq, AList.lookup_erase_ne heq]

theorem eventId_of_under {a b : EventId} {path : Path} (ha : [eventName a] <+: path) (hb : [eventName b] <+: path) :
    a = b := by
  obtain ⟨rest, rfl⟩ := ha
  exact (eventName_injective (List.cons_prefix_cons.mp hb).1).symm

theorem withoutAll_disk (gone : List Candidate) (s : Reclaiming) (path : Path) :
    (s.withoutAll gone).disk.get path =
      if ∃ c ∈ gone, [eventName c.eventId] <+: path then none else s.disk.get path := by
  induction gone generalizing s with
  | nil => simp [Reclaiming.withoutAll]
  | cons c gone ih =>
    rw [Reclaiming.withoutAll, List.foldl_cons, ← Reclaiming.withoutAll, ih, Reclaiming.without]
    by_cases hc : [eventName c.eventId] <+: path
    · rw [FileTree.get_prune_all hc]
      simp [hc]
    · rw [FileTree.get_prune_elsewhere hc]
      simp [hc]

theorem tally_withoutAll {gone : List Candidate} {s : Reclaiming} (h : Reclaims (gone ++ rest) s) :
    (s.withoutAll gone).reclaimed + tally bytesOf (s.withoutAll gone).index = s.reclaimed + tally bytesOf s.index ∧
      (s.withoutAll gone).index.keys.length + gone.length = s.index.keys.length ∧ Reclaims rest (s.withoutAll gone) := by
  induction gone generalizing s with
  | nil => exact ⟨rfl, rfl, h⟩
  | cons c gone ih =>
    have hlookup := h.lookup c (List.mem_append_left _ List.mem_cons_self)
    obtain ⟨htally, hlength, hrest⟩ := ih (s := s.without c) (by exact h.without)
    have hstep := length_without hlookup
    refine ⟨htally.trans (tally_without hlookup), ?_, hrest⟩
    show ((s.without c).withoutAll gone).index.keys.length + (gone.length + 1) = _
    omega

/-! ### The loop -/

/-- How the loop ends with some candidates left. -/
inductive Ends (o : Outside) (request : RetentionRequest) (health : EvidenceStoreHealth) (s : Reclaiming) :
    List Candidate → Except EvidenceStoreError Unit × Reclaiming → Prop
  | all : Ends o request health s [] (.ok (), s)
  | enough {c : Candidate} {rest : List Candidate} (h : request.suffices health s.reclaimed s.deletedEventIds.length c = true) :
    Ends o request health s (c :: rest) (.ok (), s)
  | stuck {c : Candidate} {rest : List Candidate} {disk : Disk}
    (h : request.suffices health s.reclaimed s.deletedEventIds.length c = false)
    (hevent : reclaimEvent o c s = (.error .retentionUnavailable, { s with disk })) :
    Ends o request health s (c :: rest) (.error .retentionUnavailable, { s with disk })

/-- The loop goes through some candidates, each of which it needs and can remove, and ends. -/
theorem reclaim_ends (candidates : List Candidate) (s : Reclaiming) (h : Reclaims candidates s) :
    ∃ done rest, candidates = done ++ rest ∧ Needed request health s.reclaimed s.deletedEventIds.length done ∧
      (∀ d ∈ done, Removable o s.disk d) ∧
      Ends o request health (s.withoutAll done) rest (reclaim o request health candidates s) := by
  induction candidates generalizing s with
  | nil => exact ⟨[], [], rfl, trivial, fun _ hd => absurd hd List.not_mem_nil, .all⟩
  | cons c rest ih =>
    rw [reclaim]
    cases hsuffices : request.suffices health s.reclaimed s.deletedEventIds.length c with
    | true => exact ⟨[], c :: rest, rfl, trivial, fun _ hd => absurd hd List.not_mem_nil, .enough hsuffices⟩
    | false =>
      by_cases hr : Removable o s.disk c
      · obtain ⟨done, rest', hsplit, hneeded, hdone, hends⟩ := ih (s.without c) h.without
        rw [reclaimEvent_removable h hr]
        refine ⟨c :: done, rest', congrArg _ hsplit, ⟨hsuffices, ?_⟩, ?_, hends⟩
        · show Needed request health (s.reclaimed + c.bundleBytes) (s.deletedEventIds.length + 1) done
          rwa [Reclaiming.without, List.length_append] at hneeded
        · intro x hx
          rcases List.mem_cons.mp hx with rfl | hx
          · exact hr
          · exact (removable_without h (hsplit ▸ List.mem_append_left _ hx)).mp (hdone x hx)
      · obtain ⟨disk, hstuck⟩ := reclaimEvent_stuck h hr
        rw [hstuck]
        exact ⟨[], c :: rest, rfl, trivial, fun _ hd => absurd hd List.not_mem_nil, .stuck hsuffices hstuck⟩

theorem needed_split {reclaimed deleted : Nat} (done : List Candidate)
    (h : Needed request health reclaimed deleted (done ++ c :: rest)) :
    request.suffices health (reclaimed + bytesIn done) (deleted + done.length) c = false := by
  induction done generalizing reclaimed deleted with
  | nil => exact h.1
  | cons d done ih =>
    have hrest := ih h.2
    rw [bytesIn, List.map_cons, List.sum_cons, List.length_cons]
    rwa [Nat.add_assoc, Nat.add_assoc, Nat.add_comm 1] at hrest

/-! ### What a removal changes -/

/-- The removal of an event's directory removes something. -/
def Strikes (o : Outside) (t : Disk) (c : Candidate) : Prop :=
  o.validatePrivateDirectory [eventName c.eventId] .retentionUnavailable t = .ok () ∧
    ∃ path, (o.removeDirectory .removeEventDirectory [eventName c.eventId] t).2.get path ≠ t.get path

theorem removeDirectory_elsewhere {call : IoCall} {p q : Path} (h : ¬p <+: q) :
    (o.removeDirectory call p t).2.get q = t.get q := by
  unfold Outside.removeDirectory
  split
  · split
    · exact FileTree.get_prune_elsewhere h
    · exact FileTree.get_prune_elsewhere h
  · rfl

/-- A removal looks at nothing but what it removes. -/
theorem removeDirectory_agree {call : IoCall} {p q : Path} {t' : Disk} (h : ∀ q, p <+: q → t'.get q = t.get q) (hq : p <+: q) :
    (o.removeDirectory call p t').2.get q = (o.removeDirectory call p t).2.get q := by
  unfold Outside.removeDirectory
  rw [h p List.prefix_rfl]
  split
  · split
    · rw [FileTree.get_prune, FileTree.get_prune, h q hq]
    · rw [FileTree.get_prune, FileTree.get_prune, h q hq]
  · exact h q hq

theorem Strikes.of_agree {t' : Disk} (h : ∀ q, [eventName c.eventId] <+: q → t'.get q = t.get q) (hs : Strikes o t c) :
    Strikes o t' c := by
  obtain ⟨hdirectory, path, hpath⟩ := hs
  have hunder : [eventName c.eventId] <+: path := by
    by_contra hnot
    exact hpath (removeDirectory_elsewhere hnot)
  refine ⟨?_, path, ?_⟩
  · rw [validatePrivateDirectory_eq_ok] at hdirectory ⊢
    exact ⟨hdirectory.1, (h _ List.prefix_rfl).trans hdirectory.2⟩
  · rwa [removeDirectory_agree h hunder, h path hunder]

theorem Removable.strikes (h : Removable o t c) : Strikes o t c := by
  have hnode := (validatePrivateDirectory_eq_ok.mp h.directory).2
  refine ⟨h.directory, [eventName c.eventId], ?_⟩
  have hremove : (o.removeDirectory .removeEventDirectory [eventName c.eventId] t).2 =
      t.prune [eventName c.eventId] fun _ => false := by
    unfold Outside.removeDirectory
    rw [hnode, h.removal]
    rfl
  rw [hremove, FileTree.get_prune_all List.prefix_rfl, hnode]
  exact Option.some_ne_none _ |>.symm

/-- The disk after a round of the loop. -/
theorem reclaimEvent_disk (hlookup : (s.index.lookup c.eventId).map (·.bundleBytes) = some c.bundleBytes) :
    (reclaimEvent o c s).2.disk =
      if o.validatePrivateDirectory [eventName c.eventId] .retentionUnavailable s.disk = .ok () then
        (o.removeDirectory .removeEventDirectory [eventName c.eventId] s.disk).2 else s.disk := by
  unfold reclaimEvent
  cases o.validatePrivateDirectory [eventName c.eventId] .retentionUnavailable s.disk with
  | error error => rfl
  | ok _ =>
    simp only [hlookup, ne_eq, not_true_eq_false, if_false, if_true]
    cases o.removeDirectory .removeEventDirectory [eventName c.eventId] s.disk with
    | mk result disk =>
      cases result with
      | error error => rfl
      | ok _ =>
        dsimp only
        split
        · rfl
        · split <;> rfl

theorem reclaimEvent_elsewhere (hlookup : (s.index.lookup c.eventId).map (·.bundleBytes) = some c.bundleBytes) {path : Path}
    (h : ¬[eventName c.eventId] <+: path) : (reclaimEvent o c s).2.disk.get path = s.disk.get path := by
  rw [reclaimEvent_disk hlookup]
  split
  · exact removeDirectory_elsewhere h
  · rfl

theorem strikes_iff (hlookup : (s.index.lookup c.eventId).map (·.bundleBytes) = some c.bundleBytes) :
    Strikes o s.disk c ↔ ∃ path, (reclaimEvent o c s).2.disk.get path ≠ s.disk.get path := by
  rw [reclaimEvent_disk hlookup, Strikes]
  by_cases hdirectory : o.validatePrivateDirectory [eventName c.eventId] .retentionUnavailable s.disk = .ok ()
  · simp [hdirectory]
  · simp [hdirectory]

end NetworkLoop.Evidence
