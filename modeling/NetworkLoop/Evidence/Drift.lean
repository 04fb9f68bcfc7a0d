import NetworkLoop.Evidence.Ageing

/-! The counters over a run.

A retention whose removal fails after an earlier one in the same call has taken events out
of the index and leaves the counters as they were. `accounted_iff` says that this is all
that can go wrong with them. -/
namespace NetworkLoop.Evidence
open Library Observation Table

variable {F : Formats} {o : Outside} {t : Disk} {request : RetentionRequest}


/-- A removal of this call does not go through, and an earlier one has. -/
def Interrupted (o : Outside) (s : LinuxEvidenceStore) (request : RetentionRequest) (t : Disk) : Prop :=
  ∃ done c rest, s.index.candidates = done ++ c :: rest ∧ done ≠ [] ∧
    Needed request s.health 0 0 (done ++ [c]) ∧ (∀ d ∈ done, Removable o t d) ∧ ¬Removable o t c

/-- The call is not a retention that is interrupted. -/
def Uninterrupted (s : LinuxEvidenceStore × Disk) : StoreCall → Prop
  | .enforceRetention o nowUnixMs incomingBytes capacity => ∀ request,
    requestRetention o nowUnixMs incomingBytes capacity s.2 = .ok request → ¬Interrupted o s.1 request s.2
  | _ => True

theorem kept_settleRetention {s : LinuxEvidenceStore} (hk : s.Kept) {r : Reclaiming}
    (htally : r.reclaimed + tally bytesOf r.index = tally bytesOf s.index)
    (hlength : r.index.keys.length ≤ s.index.keys.length) : (s.settleRetention request r).2.Kept := by
  have hcount := hlength.trans hk.count
  have hwidth : evidenceMaxEvents ≤ 65535 := by decide
  have htotal := hk.accounted.2
  have hbytes := hk.bytes
  have hkept : ∀ available, (⟨s.packageVersion, r.index, { s.health with
      available, eventCount := min r.index.keys.length 65535, totalBytes := s.health.totalBytes - r.reclaimed }⟩ :
      LinuxEvidenceStore).Kept := by
    intro available
    refine ⟨⟨Nat.min_eq_left (hcount.trans hwidth), ?_⟩, hcount, (Nat.sub_le ..).trans_lt hbytes⟩
    show s.health.totalBytes - r.reclaimed = tally bytesOf r.index
    omega
  unfold LinuxEvidenceStore.settleRetention
  dsimp only
  split
  · exact hkept _
  · exact hkept _

theorem kept_enforceRetention {s : LinuxEvidenceStore} (hk : s.Kept) {nowUnixMs incomingBytes : Nat}
    {capacity : Option FilesystemSpace}
    (h : Uninterrupted (s, t) (.enforceRetention o nowUnixMs incomingBytes capacity)) :
    (s.enforceRetention o nowUnixMs incomingBytes capacity t).2.1.Kept := by
  unfold LinuxEvidenceStore.enforceRetention
  cases hrequest : requestRetention o nowUnixMs incomingBytes capacity t with
  | error error => exact hk
  | ok request =>
    dsimp only
    rcases @reclaim_cases o request s.health _ _ (reclaims_candidates hk t) with
      ⟨r, hrun, htally, hlength⟩ | ⟨done, c, rest, r, hsplit, hneeded, hdone, hc, hrun, -, hindex⟩
    · rw [hrun]
      exact kept_settleRetention hk (htally.trans (Nat.zero_add _)) hlength
    · rw [hrun]
      have hempty : done = [] := by
        by_contra hne
        exact h request hrequest ⟨done, c, rest, hsplit, hne, hneeded, hdone, hc⟩
      have hsame : r.index = s.index := hindex hempty
      show ({ s with index := r.index } : LinuxEvidenceStore).Kept
      rw [hsame]
      exact hk

theorem kept_apply {s : LinuxEvidenceStore × Disk} (hk : s.1.Kept) {call : StoreCall} (h : Uninterrupted s call) :
    (call.apply F s).1.Kept := by
  cases call with
  | recover o => exact kept_recover hk
  | put o temporary revision => exact kept_put hk temporary revision
  | enforceRetention o nowUnixMs incomingBytes capacity => exact kept_enforceRetention hk h

/-- An interrupted retention has taken events out of the index and left their number. -/
theorem not_accounted_of_interrupted {s : LinuxEvidenceStore × Disk} (hk : s.1.Kept) {call : StoreCall}
    (h : ¬Uninterrupted s call) : ¬(call.apply F s).1.Accounted := by
  cases call with
  | recover o => exact absurd trivial h
  | put o temporary revision => exact absurd trivial h
  | enforceRetention o nowUnixMs incomingBytes capacity =>
    simp only [Uninterrupted, not_forall, not_not] at h
    obtain ⟨request, hrequest, done, c, rest, hsplit, hne, hneeded, hdone, hc⟩ := h
    have hreclaims := reclaims_candidates hk s.2
    rw [hsplit] at hreclaims
    obtain ⟨r, hrun, hcount⟩ := @reclaim_stuck o _ s.1.health _ _ done _ hreclaims hneeded hdone hc
    rw [← hsplit] at hrun
    have hafter : (s.1.enforceRetention o nowUnixMs incomingBytes capacity s.2).2.1 = { s.1 with index := r.index } := by
      unfold LinuxEvidenceStore.enforceRetention
      rw [hrequest]
      dsimp only
      rw [hrun]
    have hpos : 0 < done.length := List.length_pos_iff.mpr hne
    intro haccounted
    have hcounted := haccounted.1
    rw [StoreCall.apply, hafter] at hcounted
    change s.1.health.eventCount = r.index.keys.length at hcounted
    have hbefore := hk.accounted.1
    change r.index.keys.length + done.length = s.1.index.keys.length at hcount
    omega

theorem kept_afterCalls {s : LinuxEvidenceStore × Disk} (hk : s.1.Kept) {calls : List StoreCall}
    (h : (keeping F).Obeys Uninterrupted s calls) : (afterCalls F s calls).1.Kept := by
  induction calls generalizing s with
  | nil => exact hk
  | cons call rest ih => exact ih (kept_apply hk h.1) h.2

/-- Where the counters are right all along, no retention is interrupted. -/
theorem uninterrupted_of_accounted {s : LinuxEvidenceStore × Disk} (hk : s.1.Kept) {calls : List StoreCall}
    (h : ∀ front, front <+: calls → (afterCalls F s front).1.Accounted) : (keeping F).Obeys Uninterrupted s calls := by
  induction calls generalizing s with
  | nil => trivial
  | cons call rest ih =>
    have hcall : Uninterrupted s call := by
      by_contra hinterrupted
      exact not_accounted_of_interrupted hk hinterrupted (h [call] ⟨rest, rfl⟩)
    refine ⟨hcall, ih (kept_apply hk hcall) fun front hfront => ?_⟩
    exact h (call :: front) (List.cons_prefix_cons.mpr ⟨rfl, hfront⟩)

/-- **The counters are right in every state of a run exactly if no retention of the run is
interrupted**: no removal fails after an earlier one of the same call. -/
theorem accounted_iff (F : Formats) (packageVersion : PackageVersion) (o : Outside) (t : Disk) (s : LinuxEvidenceStore)
    (hopen : LinuxEvidenceStore.openRoot F o packageVersion t = .ok s) (calls : List StoreCall) :
    (∀ front, front <+: calls → (afterCalls F (s, t) front).1.Accounted) ↔
      (keeping F).Obeys Uninterrupted (s, t) calls := by
  have hkept : (s, t).1.Kept := kept_openRoot hopen
  constructor
  · exact uninterrupted_of_accounted hkept
  · rintro hobeys front ⟨rest, rfl⟩
    exact (kept_afterCalls hkept (((keeping F).obeys_append ..).mp hobeys).1).accounted

/-! ### Two closed events -/

theorem sampleRun_uninterrupted (events : List SampleEvent) (s : LinuxEvidenceStore × Disk) :
    (keeping compactFormats).Obeys Uninterrupted s (events.map (SampleEvent.put 0)) := by
  induction events generalizing s with
  | nil => trivial
  | cons x rest ih => exact ⟨trivial, ih _⟩

/-- The counters are right after the puts of the two events. -/
theorem accounted_iff_puts :
    (afterCalls compactFormats (emptyStore sampleVersion, emptyRoot 0) [abandonedEvent.put 0]).1.Accounted ∧
    (afterCalls compactFormats (emptyStore sampleVersion, emptyRoot 0) (twoClosed.reverse.map (SampleEvent.put 0))).1.Accounted := by
  constructor
  · exact (accounted_iff compactFormats sampleVersion (.calm 0) (emptyRoot 0) (emptyStore sampleVersion)
      (openRoot_empty compactFormats sampleVersion) _).mpr (sampleRun_uninterrupted [abandonedEvent] _) _ (List.prefix_refl _)
  · exact (accounted_iff compactFormats sampleVersion (.calm 0) (emptyRoot 0) (emptyStore sampleVersion)
      (openRoot_empty compactFormats sampleVersion) _).mpr (sampleRun_uninterrupted _ _) _ (List.prefix_refl _)

/-- The directory of the second event cannot be removed. -/
def stubborn : Outside where
  uid := 0
  failure := fun call path =>
    if call = .removeEventDirectory ∧ path = [eventName 2] then some ⟨none, fun _ => true⟩ else none

/-- The moment at which both events are too old. -/
def bothOld : Nat := 2592002001

/-- **Both events are too old, and only the first one goes**: the index then holds one event
and the health still counts two. -/
theorem stubborn_event_miscounted :
    ¬(afterCalls compactFormats (emptyStore sampleVersion, emptyRoot 0)
      (twoClosed.reverse.map (SampleEvent.put 0) ++
        [.enforceRetention stubborn bothOld evidenceMaxRevisionBytes (some commonCapacity)])).1.Accounted := by
  obtain ⟨t, hafter, htidy, -⟩ := after_puts 0 twoClosed_stored
  have hempty : (emptyStore sampleVersion).Kept := kept_openRoot (@openRoot_empty 0 compactFormats sampleVersion)
  have hputs := (@kept_afterCalls compactFormats (emptyStore sampleVersion, emptyRoot 0) hempty _
    (sampleRun_uninterrupted twoClosed.reverse _)).accounted
  rw [hafter] at hputs
  rw [afterCalls] at hafter
  rw [afterCalls, List.foldl_append, hafter]
  have hkept : (sampleStore twoClosed).Kept := ⟨hputs, by decide, by decide⟩
  refine @not_accounted_of_interrupted compactFormats (sampleStore twoClosed, t) hkept
    (.enforceRetention stubborn bothOld evidenceMaxRevisionBytes (some commonCapacity)) fun huninterrupted => ?_
  have hroot : stubborn.validateRoot t = .ok () := validatePrivateDirectory_eq_ok.mpr ⟨rfl, htidy.root⟩
  have hrequest : requestRetention stubborn bothOld evidenceMaxRevisionBytes (some commonCapacity) t =
      .ok ⟨bothOld, evidenceMaxRevisionBytes, commonCapacity⟩ := by
    rw [requestRetention, hroot]
    rfl
  have hfirst : Removable stubborn t ⟨1000, 1, sampleBytes⟩ := by
    refine ⟨validatePrivateDirectory_eq_ok.mpr ⟨rfl, htidy.present 1 ?_⟩, by decide, by decide⟩
    exact fun h => (lookup_sampleIndex.mp h) (by decide)
  have hneeded : Needed ⟨bothOld, evidenceMaxRevisionBytes, commonCapacity⟩ (sampleStore twoClosed).health 0 0
      [⟨1000, 1, sampleBytes⟩, ⟨2000, 2, sampleBytes⟩] := ⟨by decide, by decide, trivial⟩
  refine huninterrupted _ hrequest ⟨[⟨1000, 1, sampleBytes⟩], ⟨2000, 2, sampleBytes⟩, [], twoClosed_candidates, by simp,
    hneeded, ?_, ?_⟩
  · intro d hd
    rw [List.mem_singleton.mp hd]
    exact hfirst
  · intro hsecond
    have hfails : stubborn.failure .removeEventDirectory [eventName 2] ≠ none := by simp [stubborn]
    exact hfails hsecond.removal

end NetworkLoop.Evidence
