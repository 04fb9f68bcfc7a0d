import NetworkLoop.Evidence.Reclaiming

/-! What `enforce_retention` deletes, in every state that a store can come to.

The loop removes closed events in the order of their close until an event need not go and
everything fits. It asks with its own sums: the counters of the health, which are too high
after an interrupted retention, and the free bytes with the reclaimed ones added, which are
no free bytes at all when they exceed a `u64`. `retained_iff` says that these two are all
that can make it delete an event that need not go; when it returns `Ok` everything fits
(`Fitting`). -/
namespace NetworkLoop.Evidence
open Library Observation Table

variable {F : Formats} {o : Outside} {t : Disk} {request : RetentionRequest} {health : EvidenceStoreHealth}
  {s : Reclaiming} {c : Candidate} {rest : List Candidate}

/-! ### What retention is for -/

/-- What a store holds: its bytes and its events. -/
structure Counters where
  totalBytes : Nat
  eventCount : Nat

def EvidenceStoreHealth.counters (health : EvidenceStoreHealth) : Counters := ⟨health.totalBytes, health.eventCount⟩

def Index.counters (index : Index) : Counters := ⟨tally bytesOf index, index.keys.length⟩

def RetentionRequest.Expired (request : RetentionRequest) (c : Candidate) : Prop :=
  c.closedAt + evidenceMaxClosedAgeMs < request.nowUnixMs

instance (request : RetentionRequest) (c : Candidate) : Decidable (request.Expired c) := inferInstanceAs (Decidable (_ < _))

/-- Everything fits once some events are gone. -/
structure RetentionRequest.Meets (request : RetentionRequest) (counters : Counters) (gone : List Candidate) : Prop where
  total : counters.totalBytes - bytesIn gone + request.incomingBytes ≤ evidenceMaxStoreBytes
  count : counters.eventCount - gone.length < evidenceMaxEvents
  space : request.incomingBytes + max evidenceMinFreeReserveBytes (request.filesystem.totalBytes * 5 / 100) ≤
    request.filesystem.availableBytes + bytesIn gone

/-- An event has to go when some others are gone. -/
def RetentionRequest.Due (request : RetentionRequest) (counters : Counters) (gone : List Candidate) (c : Candidate) : Prop :=
  request.Expired c ∨ ¬request.Meets counters gone

/-- Each of the events had to go when those before it were gone. -/
def RetentionRequest.EachDue (request : RetentionRequest) (counters : Counters) (gone : List Candidate) : Prop :=
  ∀ done c rest, gone = done ++ c :: rest → request.Due counters done c

/-- The candidate is a closed event of the index. -/
def Index.Closed (index : Index) (c : Candidate) : Prop :=
  ∃ detail, index.lookup c.eventId = some detail ∧ detail.latest.closedAtUnixMs = some c.closedAt ∧
    detail.bundleBytes = c.bundleBytes

def Candidate.key (c : Candidate) : ℕ ×ₗ ℕ := toLex (c.closedAt, c.eventId.toNat)

/-- The closed events of the index, by their close and then by their ID. -/
structure Index.InOrder (index : Index) (closed : List Candidate) : Prop where
  mem : ∀ c, c ∈ closed ↔ index.Closed c
  sorted : closed.Pairwise fun a b => a.key < b.key

/-- Something of an event is not as it was: its entry in the index, or its directory. -/
def Lost (before after : LinuxEvidenceStore × Disk) (eventId : EventId) : Prop :=
  after.1.index.lookup eventId ≠ before.1.index.lookup eventId ∨
    ∃ path, [eventName eventId] <+: path ∧ after.2.get path ≠ before.2.get path

/-- What `Ok` says of the store. -/
structure Fitting (request : RetentionRequest) (gone : List Candidate) (outcome : RetentionOutcome)
    (after : LinuxEvidenceStore) : Prop where
  deleted : outcome.deletedEventIds = gone.map Candidate.eventId
  fresh : ∀ c, after.index.Closed c → ¬request.Expired c
  health : after.health.totalBytes = outcome.usage.totalBytes ∧ after.health.eventCount = outcome.usage.eventCount
  held : tally bytesOf after.index ≤ outcome.usage.totalBytes ∧ after.index.keys.length = outcome.usage.eventCount
  total : outcome.usage.totalBytes + request.incomingBytes ≤ evidenceMaxStoreBytes
  count : outcome.usage.eventCount < evidenceMaxEvents
  available : outcome.usage.filesystem.availableBytes =
    min (request.filesystem.availableBytes + bytesIn gone) (u64Bound - 1)
  reserve : outcome.usage.requiredFreeReserve = max evidenceMinFreeReserveBytes (request.filesystem.totalBytes * 5 / 100)
  space : request.incomingBytes + outcome.usage.requiredFreeReserve ≤ outcome.usage.filesystem.availableBytes

/-- **What a call of `enforce_retention` should do**, by some counters: of the closed events in
their order it deletes some first ones, each of which has to go, and returns `Ok` only if all is
well then. -/
def Retained (o : Outside) (s : LinuxEvidenceStore) (nowUnixMs incomingBytes : Nat) (capacity : Option FilesystemSpace)
    (t : Disk) (counters : Counters) : Prop :=
  let after := s.enforceRetention o nowUnixMs incomingBytes capacity t
  ∃ closed gone, s.index.InOrder closed ∧ gone <+: closed ∧
    (∀ eventId, Lost (s, t) after.2 eventId ↔ eventId ∈ gone.map Candidate.eventId) ∧
    (∀ path, after.2.2.get path ≠ t.get path → ∃ c ∈ gone, [eventName c.eventId] <+: path) ∧
    ∀ space ∈ capacity,
      space.totalBytes / 100 * 5 + space.totalBytes % 100 * 5 / 100 < u64Bound ∧
      bytesIn gone < u64Bound ∧
      RetentionRequest.EachDue ⟨nowUnixMs, incomingBytes, space⟩ counters gone ∧
      ∀ outcome, after.1 = .ok outcome → Fitting ⟨nowUnixMs, incomingBytes, space⟩ gone outcome after.2.1

/-! ### The order of the candidates -/

theorem mem_candidates_iff {index : Index} : c ∈ index.candidates ↔ index.Closed c := by
  rw [Index.candidates, List.mem_mergeSort, List.mem_filterMap]
  constructor
  · rintro ⟨⟨eventId, detail⟩, hentry, hclosed⟩
    obtain ⟨closedAt, hat, rfl⟩ := Option.map_eq_some_iff.mp hclosed
    exact ⟨detail, AList.mem_lookup_iff.mpr hentry, hat, rfl⟩
  · rintro ⟨detail, hdetail, hat, hbytes⟩
    refine ⟨⟨c.eventId, detail⟩, AList.mem_lookup_iff.mp hdetail, ?_⟩
    rw [hat, hbytes]
    rfl

theorem candidates_inOrder (index : Index) : index.InOrder index.candidates := by
  refine ⟨fun _ => mem_candidates_iff, ?_⟩
  have hle : ∀ a b : Candidate, (decide (a.closedAt < b.closedAt) ||
      (a.closedAt == b.closedAt && decide (a.eventId ≤ b.eventId))) = decide (a.key ≤ b.key) := by
    intro a b
    rw [Bool.eq_iff_iff, decide_eq_true_iff, Candidate.key, Candidate.key, Prod.Lex.toLex_le_toLex]
    simp [BitVec.le_def]
  have hsorted : index.candidates.Pairwise fun a b => a.key ≤ b.key := by
    rw [Index.candidates, funext fun a => funext (hle a)]
    refine (List.pairwise_mergeSort ?_ ?_ _).imp of_decide_eq_true
    · intro a b c hab hbc
      exact decide_eq_true ((of_decide_eq_true hab).trans (of_decide_eq_true hbc))
    · intro a b
      simpa using le_total a.key b.key
  have hdistinct := List.pairwise_map.mp (candidates_nodup index)
  refine (hsorted.and hdistinct).imp fun {a b} hboth => lt_of_le_of_ne hboth.1 ?_
  intro heq
  apply hboth.2
  have hids := congrArg (fun key => (ofLex key).2) heq
  exact BitVec.eq_of_toNat_eq hids

theorem eq_candidates {index : Index} {closed : List Candidate} (h : index.InOrder closed) : closed = index.candidates := by
  have hirrefl : Std.Irrefl fun a b : Candidate => a.key < b.key := ⟨fun a => lt_irrefl a.key⟩
  have hasymm : Std.Antisymm fun a b : Candidate => a.key < b.key := ⟨fun a b hab hba => absurd hab hba.asymm⟩
  have hcandidates := candidates_inOrder index
  exact h.sorted.eq_of_mem_iff hcandidates.sorted fun c => (h.mem c).trans (hcandidates.mem c).symm

/-! ### The sums of the loop -/

theorem minimumFreeReserve_eq (totalBytes : Nat) :
    minimumFreeReserve totalBytes = max evidenceMinFreeReserveBytes (totalBytes * 5 / 100) := by
  have hpercent : totalBytes / 100 * evidenceMinFreeReservePercent + totalBytes % 100 * evidenceMinFreeReservePercent / 100 =
      totalBytes * 5 / 100 := by
    show totalBytes / 100 * 5 + totalBytes % 100 * 5 / 100 = _
    omega
  unfold minimumFreeReserve
  rw [hpercent]
  dsimp only
  split
  · rw [Nat.max_eq_right (by omega)]
  · rw [Nat.max_eq_left (by omega)]

theorem suffices_iff {gone : List Candidate} : request.suffices health (bytesIn gone) gone.length c = true ↔
    ¬request.Expired c ∧ request.Meets health.counters gone ∧
      request.filesystem.availableBytes + bytesIn gone < u64Bound := by
  unfold RetentionRequest.suffices
  rw [Bool.and_eq_true, Bool.and_eq_true, Bool.and_eq_true, fits_total, checkedAdd_any, minimumFreeReserve_eq]
  simp only [Bool.not_eq_true', Bool.and_eq_false_iff, Bool.and_eq_true, decide_eq_false_iff_not, decide_eq_true_iff]
  constructor
  · rintro ⟨⟨⟨hage, htotal⟩, hwidth, hincoming, hspace⟩, hcount⟩
    refine ⟨?_, ⟨htotal, hcount, by omega⟩, hwidth⟩
    unfold RetentionRequest.Expired
    omega
  · rintro ⟨hage, ⟨htotal, hcount, hspace⟩, hwidth⟩
    unfold RetentionRequest.Expired at hage
    refine ⟨⟨⟨by omega, htotal⟩, hwidth, by omega, by omega⟩, hcount⟩

/-- What is due by counters that are not too high is due by those of the health. -/
theorem not_suffices_of_due {counters : Counters} (hbytes : counters.totalBytes ≤ health.totalBytes)
    (hcount : counters.eventCount ≤ health.eventCount) {gone : List Candidate} (h : request.Due counters gone c) :
    request.suffices health (bytesIn gone) gone.length c = false := by
  rw [← Bool.not_eq_true, suffices_iff]
  rintro ⟨hfresh, hmeets, -⟩
  rcases h with hexpired | hunmet
  · exact hfresh hexpired
  · apply hunmet
    have htotal := hmeets.total
    have heventCount := hmeets.count
    change health.totalBytes - _ + _ ≤ _ at htotal
    change health.eventCount - _ < _ at heventCount
    exact ⟨by omega, by omega, hmeets.space⟩

/-! ### What a call deletes -/

/-- What a call that passes its first checks deletes, and where it stops. -/
structure Deletes (o : Outside) (s : LinuxEvidenceStore) (request : RetentionRequest) (t : Disk)
    (after : Except EvidenceStoreError RetentionOutcome × LinuxEvidenceStore × Disk) (gone rest : List Candidate) : Prop where
  candidates : s.index.candidates = gone ++ rest
  needed : ∀ done c back, gone = done ++ c :: back →
    request.suffices s.health (bytesIn done) done.length c = false ∧ ∀ d ∈ done, Removable o t d
  strikes : ∀ c ∈ gone, Strikes o t c
  lost : ∀ eventId, Lost (s, t) after.2 eventId ↔ eventId ∈ gone.map Candidate.eventId
  elsewhere : ∀ path, after.2.2.get path ≠ t.get path → ∃ c ∈ gone, [eventName c.eventId] <+: path
  stopped : ∀ c back, rest = c :: back → request.suffices s.health (bytesIn gone) gone.length c = true ∨
    ¬Strikes o t c ∨ ∃ d ∈ gone, ¬Removable o t d
  fitting : ∀ outcome, after.1 = .ok outcome → Fitting request gone outcome after.2.1
  removed : ∀ outcome, after.1 = .ok outcome → ∀ c ∈ gone, after.2.1.index.lookup c.eventId = none ∧
    ∀ path, [eventName c.eventId] <+: path → after.2.2.get path = none

section
variable {store : LinuxEvidenceStore} {done : List Candidate}

/-- The loop state that a call starts with. -/
def LinuxEvidenceStore.reclaiming (store : LinuxEvidenceStore) (t : Disk) : Reclaiming := ⟨t, store.index, 0, []⟩

theorem reclaiming_reclaimed (done : List Candidate) : ((store.reclaiming t).withoutAll done).reclaimed = bytesIn done := by
  rw [withoutAll_reclaimed]
  exact Nat.zero_add _

theorem reclaiming_deleted (done : List Candidate) :
    ((store.reclaiming t).withoutAll done).deletedEventIds = done.map Candidate.eventId := by
  rw [withoutAll_deleted]
  exact List.nil_append _

theorem reclaims_bounded (hb : store.Bounded) (t : Disk) : Reclaims store.index.candidates (store.reclaiming t) := by
  refine ⟨fun c hc => mem_candidates hc, candidates_nodup store.index, ?_⟩
  show 0 + tally bytesOf store.index < u64Bound
  rw [Nat.zero_add]
  exact hb.totalled.trans_lt hb.bytes

theorem withoutAll_agree {d : Candidate} (h : d.eventId ∉ done.map Candidate.eventId) {path : Path}
    (hpath : [eventName d.eventId] <+: path) : ((store.reclaiming t).withoutAll done).disk.get path = t.get path := by
  rw [withoutAll_disk]
  apply if_neg
  rintro ⟨c, hc, hunder⟩
  apply h
  rw [eventId_of_under hpath hunder]
  exact List.mem_map_of_mem hc

theorem Removable.of_agree {t' : Disk} (h : t'.get [eventName c.eventId] = t.get [eventName c.eventId]) (hr : Removable o t c) :
    Removable o t' c := by
  refine ⟨?_, hr.removal, hr.sync⟩
  have hdirectory := hr.directory
  rw [validatePrivateDirectory_eq_ok] at hdirectory ⊢
  exact ⟨hdirectory.1, h.trans hdirectory.2⟩

/-- The lost events are those the loop removed, and those it changed the directories of. -/
theorem lost_iff {extra : List Candidate} {after : LinuxEvidenceStore × Disk}
    (hlookup : ∀ c ∈ done, store.index.lookup c.eventId ≠ none)
    (hindex : after.1.index = ((store.reclaiming t).withoutAll done).index)
    (hdisk : ∀ path, after.2.get path ≠ ((store.reclaiming t).withoutAll done).disk.get path →
      ∃ c ∈ extra, [eventName c.eventId] <+: path)
    (hextra : ∀ c ∈ extra, ∃ path, [eventName c.eventId] <+: path ∧ after.2.get path ≠ t.get path) (eventId : EventId) :
    Lost (store, t) after eventId ↔ eventId ∈ (done ++ extra).map Candidate.eventId := by
  rw [List.map_append, List.mem_append]
  constructor
  · intro hlost
    by_contra hnot
    obtain ⟨hdone, hextra⟩ := not_or.mp hnot
    rcases hlost with hentry | ⟨path, hunder, hpath⟩
    · apply hentry
      rw [hindex, withoutAll_lookup, if_neg hdone]
      rfl
    · by_cases hsame : after.2.get path = ((store.reclaiming t).withoutAll done).disk.get path
      · rw [hsame] at hpath
        apply hpath
        rw [withoutAll_disk]
        apply if_neg
        rintro ⟨c, hc, hunder'⟩
        exact hdone (eventId_of_under hunder hunder' ▸ List.mem_map_of_mem hc)
      · obtain ⟨c, hc, hunder'⟩ := hdisk path hsame
        exact hextra (eventId_of_under hunder hunder' ▸ List.mem_map_of_mem hc)
  · rintro (hmem | hmem)
    · obtain ⟨c, hc, rfl⟩ := List.mem_map.mp hmem
      left
      rw [hindex, withoutAll_lookup, if_pos hmem]
      exact (hlookup c hc).symm
    · obtain ⟨c, hc, rfl⟩ := List.mem_map.mp hmem
      exact .inr (hextra c hc)

theorem elsewhere_iff {extra : List Candidate} {after : LinuxEvidenceStore × Disk}
    (hdisk : ∀ path, after.2.get path ≠ ((store.reclaiming t).withoutAll done).disk.get path →
      ∃ c ∈ extra, [eventName c.eventId] <+: path) (path : Path) (hpath : after.2.get path ≠ t.get path) :
    ∃ c ∈ done ++ extra, [eventName c.eventId] <+: path := by
  by_cases hsame : after.2.get path = ((store.reclaiming t).withoutAll done).disk.get path
  · rw [hsame, withoutAll_disk] at hpath
    by_contra hnone
    apply hpath
    apply if_neg
    rintro ⟨c, hc, hunder⟩
    exact hnone ⟨c, List.mem_append_left _ hc, hunder⟩
  · obtain ⟨c, hc, hunder⟩ := hdisk path hsame
    exact ⟨c, List.mem_append_right _ hc, hunder⟩

/-- Whatever is left of the closed events once the loop has stopped is young. -/
theorem fresh_rest {c d : Candidate} (h : ¬request.Expired c) (hle : c.key ≤ d.key) : ¬request.Expired d := by
  rw [Candidate.key, Candidate.key, Prod.Lex.toLex_le_toLex] at hle
  unfold RetentionRequest.Expired at h ⊢
  rcases hle with hlt | ⟨heq, -⟩
  · have hclosed : c.closedAt < d.closedAt := hlt
    omega
  · have hclosed : c.closedAt = d.closedAt := heq
    omega

theorem closed_withoutAll {d : Candidate} (hd : ((store.reclaiming t).withoutAll done).index.Closed d) :
    store.index.Closed d ∧ d.eventId ∉ done.map Candidate.eventId := by
  obtain ⟨detail, hdetail, hat, hbytes⟩ := hd
  rw [withoutAll_lookup] at hdetail
  split at hdetail
  · cases hdetail
  · rename_i hnot
    exact ⟨⟨detail, hdetail, hat, hbytes⟩, hnot⟩

/-- Where the loop stops without an error, all that is left is young. -/
theorem fresh_of_ends (hsplit : store.index.candidates = done ++ rest)
    (hstop : ∀ c back, rest = c :: back → request.suffices store.health (bytesIn done) done.length c = true) {d : Candidate}
    (hd : ((store.reclaiming t).withoutAll done).index.Closed d) : ¬request.Expired d := by
  obtain ⟨hclosed, hnot⟩ := closed_withoutAll hd
  have hmem : d ∈ done ++ rest := hsplit ▸ mem_candidates_iff.mpr hclosed
  have hrest : d ∈ rest := (List.mem_append.mp hmem).resolve_left fun hdone => hnot (List.mem_map_of_mem hdone)
  cases rest with
  | nil => cases hrest
  | cons c back =>
    have hfresh := (suffices_iff.mp (hstop c back rfl)).1
    rcases List.mem_cons.mp hrest with rfl | hback
    · exact hfresh
    · have hsorted := (candidates_inOrder store.index).sorted
      rw [hsplit] at hsorted
      exact fresh_rest hfresh (List.rel_of_pairwise_cons (List.pairwise_append.mp hsorted).2.1 hback).le

theorem fitting_settle (hb : store.Bounded) (hsplit : store.index.candidates = done ++ rest)
    (hstop : ∀ c back, rest = c :: back → request.suffices store.health (bytesIn done) done.length c = true)
    (outcome : RetentionOutcome)
    (h : (store.settleRetention request ((store.reclaiming t).withoutAll done)).1 = .ok outcome) :
    Fitting request done outcome (store.settleRetention request ((store.reclaiming t).withoutAll done)).2 := by
  have hreclaims : Reclaims (done ++ rest) (store.reclaiming t) := hsplit ▸ reclaims_bounded hb t
  obtain ⟨htally, hlength, -⟩ := tally_withoutAll hreclaims
  have hreclaimed := @reclaiming_reclaimed t store done
  have hdeleted := @reclaiming_deleted t store done
  have hfresh := fun d => @fresh_of_ends t request rest store done hsplit hstop d
  generalize (store.reclaiming t).withoutAll done = S at *
  unfold LinuxEvidenceStore.settleRetention at h ⊢
  dsimp only at h ⊢
  split at h
  case isFalse => cases h
  case isTrue hfits =>
    cases h
    rw [if_pos hfits]
    rw [Bool.and_eq_true, Bool.and_eq_true, fits_total, Bool.and_eq_true, decide_eq_true_iff, decide_eq_true_iff,
      decide_eq_true_iff] at hfits
    obtain ⟨⟨htotal, hincoming, hspace⟩, hcount⟩ := hfits
    have hkeys : S.index.keys.length ≤ 65535 := by
      have hmax : evidenceMaxEvents ≤ 65535 := by decide
      have hstore := hb.count
      change S.index.keys.length + done.length = store.index.keys.length at hlength
      omega
    refine ⟨hdeleted, hfresh, ⟨rfl, rfl⟩, ⟨?_, (Nat.min_eq_left hkeys).symm⟩, htotal, hcount, ?_, minimumFreeReserve_eq _, ?_⟩
    · have htotalled := hb.totalled
      change S.reclaimed + tally bytesOf S.index = 0 + tally bytesOf store.index at htally
      show tally bytesOf S.index ≤ store.health.totalBytes - S.reclaimed
      omega
    · show saturatingAdd _ S.reclaimed = _
      rw [hreclaimed]
      rfl
    · show request.incomingBytes + minimumFreeReserve _ ≤ saturatingAdd _ _
      omega

/-- How far the loop gets. -/
structure Walked (o : Outside) (store : LinuxEvidenceStore) (request : RetentionRequest) (t : Disk)
    (done rest : List Candidate) : Prop where
  candidates : store.index.candidates = done ++ rest
  needed : ∀ front c back, done = front ++ c :: back →
    request.suffices store.health (bytesIn front) front.length c = false ∧ ∀ d ∈ front, Removable o t d
  removable : ∀ d ∈ done, Removable o t d

theorem walked_reclaim (hb : store.Bounded) : ∃ done rest, Walked o store request t done rest ∧
    Ends o request store.health ((store.reclaiming t).withoutAll done) rest
      (reclaim o request store.health store.index.candidates (store.reclaiming t)) := by
  obtain ⟨done, rest, hsplit, hneeded, hdone, hends⟩ :=
    @reclaim_ends o request store.health store.index.candidates (store.reclaiming t) (reclaims_bounded hb t)
  refine ⟨done, rest, ⟨hsplit, ?_, hdone⟩, hends⟩
  rintro front c back rfl
  have hsuffices := needed_split front hneeded
  rw [LinuxEvidenceStore.reclaiming, Nat.zero_add, List.length_nil, Nat.zero_add] at hsuffices
  exact ⟨hsuffices, fun d hd => hdone d (List.mem_append_left _ hd)⟩

theorem Walked.lookup (hw : Walked o store request t done rest) {c : Candidate} (hc : c ∈ done) :
    store.index.lookup c.eventId ≠ none := by
  obtain ⟨detail, hdetail, -⟩ := mem_candidates_iff.mp (hw.candidates ▸ List.mem_append_left _ hc)
  rw [hdetail]
  exact Option.some_ne_none _

/-- The loop comes to its end. -/
theorem deletes_ok (hb : store.Bounded) (hw : Walked o store request t done rest)
    (hstop : ∀ c back, rest = c :: back → request.suffices store.health (bytesIn done) done.length c = true) :
    Deletes o store request t ((store.settleRetention request ((store.reclaiming t).withoutAll done)).1,
      (store.settleRetention request ((store.reclaiming t).withoutAll done)).2,
      ((store.reclaiming t).withoutAll done).disk) done rest := by
  have hindex : (store.settleRetention request ((store.reclaiming t).withoutAll done)).2.index =
      ((store.reclaiming t).withoutAll done).index := by
    unfold LinuxEvidenceStore.settleRetention
    dsimp only
    split <;> rfl
  have hlost := @lost_iff t store done [] (_, ((store.reclaiming t).withoutAll done).disk) (fun c => hw.lookup) hindex
    (fun path hpath => absurd rfl hpath) (fun c hc => absurd hc List.not_mem_nil)
  have helsewhere := @elsewhere_iff t store done [] (store, ((store.reclaiming t).withoutAll done).disk)
    (fun path hpath => absurd rfl hpath)
  rw [List.append_nil] at hlost helsewhere
  refine ⟨hw.candidates, hw.needed, fun c hc => (hw.removable c hc).strikes, hlost, helsewhere,
    fun c back heq => .inl (hstop c back heq), fitting_settle hb hw.candidates hstop, ?_⟩
  intro outcome _ c hc
  refine ⟨?_, fun path hpath => ?_⟩
  · rw [hindex, withoutAll_lookup, if_pos (List.mem_map_of_mem hc)]
  · rw [withoutAll_disk, if_pos ⟨c, hc, hpath⟩]

/-- What a restart of the loop at its first candidate would see is what lies on the disk. -/
theorem Walked.agree (hb : store.Bounded) {c : Candidate} {back : List Candidate}
    (hw : Walked o store request t done (c :: back)) {path : Path} (hpath : [eventName c.eventId] <+: path) :
    ((store.reclaiming t).withoutAll done).disk.get path = t.get path := by
  have hreclaims : Reclaims (done ++ c :: back) (store.reclaiming t) := hw.candidates ▸ reclaims_bounded hb t
  have hnodup := hreclaims.nodup
  rw [List.map_append, List.map_cons] at hnodup
  exact withoutAll_agree (fun hmem => List.disjoint_of_nodup_append hnodup hmem List.mem_cons_self) hpath

theorem Walked.reclaims (hb : store.Bounded) (hw : Walked o store request t done rest) :
    Reclaims rest ((store.reclaiming t).withoutAll done) := by
  have hreclaims : Reclaims (done ++ rest) (store.reclaiming t) := hw.candidates ▸ reclaims_bounded hb t
  exact (tally_withoutAll hreclaims).2.2

/-- A removal that stops the loop could not go through. -/
theorem Walked.stuck (hb : store.Bounded) {c : Candidate} {back : List Candidate} {disk : Disk}
    (hw : Walked o store request t done (c :: back))
    (hevent : reclaimEvent o c ((store.reclaiming t).withoutAll done) =
      (.error .retentionUnavailable, { (store.reclaiming t).withoutAll done with disk })) : ¬Removable o t c := by
  intro hr
  have hgo := reclaimEvent_removable (hw.reclaims hb) (hr.of_agree (hw.agree hb List.prefix_rfl))
  rw [hevent] at hgo
  cases hgo

/-- The loop stops at a removal that does not go through. -/
theorem deletes_stuck (hb : store.Bounded) {c : Candidate} {back : List Candidate} {disk : Disk}
    (hw : Walked o store request t done (c :: back))
    (hneeded : request.suffices store.health (bytesIn done) done.length c = false)
    (hevent : reclaimEvent o c ((store.reclaiming t).withoutAll done) =
      (.error .retentionUnavailable, { (store.reclaiming t).withoutAll done with disk })) :
    ∃ gone rest, Deletes o store request t (.error .retentionUnavailable,
      { store with index := ((store.reclaiming t).withoutAll done).index }, disk) gone rest := by
  have hlookup := (hw.reclaims hb).lookup c List.mem_cons_self
  have hagree : ∀ path, [eventName c.eventId] <+: path →
      ((store.reclaiming t).withoutAll done).disk.get path = t.get path := fun path => hw.agree hb
  have hstuck := hw.stuck hb hevent
  have hdisk : (reclaimEvent o c ((store.reclaiming t).withoutAll done)).2.disk = disk := by rw [hevent]
  have hunder : ∀ path, disk.get path ≠ ((store.reclaiming t).withoutAll done).disk.get path →
      [eventName c.eventId] <+: path := by
    intro path hpath
    by_contra hnot
    rw [← hdisk] at hpath
    exact hpath (reclaimEvent_elsewhere hlookup hnot)
  by_cases hstrikes : Strikes o t c
  · have hchanged : ∃ path, [eventName c.eventId] <+: path ∧ disk.get path ≠ t.get path := by
      obtain ⟨path, hpath⟩ := (strikes_iff hlookup).mp (hstrikes.of_agree hagree)
      rw [hdisk] at hpath
      exact ⟨path, hunder path hpath, hagree path (hunder path hpath) ▸ hpath⟩
    have hextra : ∀ path, disk.get path ≠ ((store.reclaiming t).withoutAll done).disk.get path →
        ∃ d ∈ [c], [eventName d.eventId] <+: path := fun path hpath => ⟨c, List.mem_singleton_self c, hunder path hpath⟩
    refine ⟨done ++ [c], back, ?_, ?_, ?_, ?_, ?_, ?_, ?_, ?_⟩
    · rw [hw.candidates, List.append_assoc]
      rfl
    · intro front d after heq
      rcases List.eq_nil_or_concat after with rfl | ⟨after, last, rfl⟩
      · obtain ⟨rfl, hd⟩ := List.append_inj' heq rfl
        cases hd
        exact ⟨hneeded, hw.removable⟩
      · rw [List.concat_eq_append, ← List.cons_append, ← List.append_assoc] at heq
        exact hw.needed front d after (List.append_inj' heq rfl).1
    · intro d hd
      rcases List.mem_append.mp hd with hd | hd
      · exact (hw.removable d hd).strikes
      · rw [List.mem_singleton.mp hd]
        exact hstrikes
    · exact lost_iff (fun d => hw.lookup) rfl hextra fun d hd => List.mem_singleton.mp hd ▸ hchanged
    · exact fun path => @elsewhere_iff t store done _ ({ store with index := _ }, disk) hextra path
    · exact fun d after _ => .inr (.inr ⟨c, List.mem_append_right _ (List.mem_singleton_self c), hstuck⟩)
    · intro outcome hok
      cases hok
    · intro outcome hok
      cases hok
  · have hsame : ∀ path, disk.get path = ((store.reclaiming t).withoutAll done).disk.get path := by
      intro path
      by_contra hpath
      apply hstrikes
      refine Strikes.of_agree (fun q hq => (hagree q hq).symm) ((strikes_iff hlookup).mpr ⟨path, ?_⟩)
      rwa [hdisk]
    refine ⟨done, c :: back, hw.candidates, hw.needed, fun d hd => (hw.removable d hd).strikes, ?_, ?_, ?_, ?_, ?_⟩
    · have hlost := @lost_iff t store done [] ({ store with index := ((store.reclaiming t).withoutAll done).index }, disk)
        (fun d => hw.lookup) rfl (fun path hpath => absurd (hsame path) hpath) (fun d hd => absurd hd List.not_mem_nil)
      rwa [List.append_nil] at hlost
    · have helsewhere := @elsewhere_iff t store done [] (store, disk) (fun path hpath => absurd (hsame path) hpath)
      rwa [List.append_nil] at helsewhere
    · intro d after heq
      cases heq
      exact .inr (.inl hstrikes)
    · intro outcome hok
      cases hok
    · intro outcome hok
      cases hok

theorem enforceRetention_eq {nowUnixMs incomingBytes : Nat} {capacity : Option FilesystemSpace}
    (hrequest : requestRetention o nowUnixMs incomingBytes capacity t = .ok request) :
    store.enforceRetention o nowUnixMs incomingBytes capacity t =
      match reclaim o request store.health store.index.candidates (store.reclaiming t) with
      | (.error error, s) => (.error error, { store with index := s.index }, s.disk)
      | (.ok (), s) => ((store.settleRetention request s).1, (store.settleRetention request s).2, s.disk) := by
  unfold LinuxEvidenceStore.enforceRetention
  rw [hrequest]
  rfl

/-- The call, once it has passed its first checks. -/
theorem enforceRetention_deletes (hb : store.Bounded) {nowUnixMs incomingBytes : Nat} {capacity : Option FilesystemSpace}
    (hrequest : requestRetention o nowUnixMs incomingBytes capacity t = .ok request) :
    ∃ gone rest, Deletes o store request t (store.enforceRetention o nowUnixMs incomingBytes capacity t) gone rest := by
  obtain ⟨done, rest, hw, hends⟩ := @walked_reclaim o t request store hb
  have hcall := @enforceRetention_eq o t request store _ _ _ hrequest
  generalize hrun : reclaim o request store.health store.index.candidates (store.reclaiming t) = result at hends hcall
  rw [hcall]
  cases hends with
  | all => exact ⟨done, [], deletes_ok hb hw fun c back heq => by cases heq⟩
  | enough h =>
    rw [reclaiming_reclaimed, reclaiming_deleted, List.length_map] at h
    refine ⟨done, _, deletes_ok hb hw ?_⟩
    intro c back heq
    cases heq
    exact h
  | stuck h hevent =>
    rw [reclaiming_reclaimed, reclaiming_deleted, List.length_map] at h
    exact deletes_stuck hb hw h hevent

theorem bounded_withoutAll (hb : store.Bounded) (hw : Walked o store request t done rest) (available : Bool) :
    (⟨store.packageVersion, ((store.reclaiming t).withoutAll done).index, store.health⟩ : LinuxEvidenceStore).Bounded ∧
      (⟨store.packageVersion, ((store.reclaiming t).withoutAll done).index, { store.health with
        available, eventCount := min ((store.reclaiming t).withoutAll done).index.keys.length 65535,
        totalBytes := store.health.totalBytes - ((store.reclaiming t).withoutAll done).reclaimed }⟩ :
        LinuxEvidenceStore).Bounded := by
  have hreclaims : Reclaims (done ++ rest) (store.reclaiming t) := hw.candidates ▸ reclaims_bounded hb t
  obtain ⟨htally, hlength, -⟩ := tally_withoutAll hreclaims
  generalize (store.reclaiming t).withoutAll done = S at *
  have hcount := hb.count
  have hcounted := hb.counted
  have htotalled := hb.totalled
  have hbytes := hb.bytes
  have hmax : evidenceMaxEvents ≤ 65535 := by decide
  change S.index.keys.length + done.length = store.index.keys.length at hlength
  change S.reclaimed + tally bytesOf S.index = 0 + tally bytesOf store.index at htally
  refine ⟨⟨?_, ?_, ?_, hbytes⟩, ⟨?_, ?_, ?_, ?_⟩⟩
  · show S.index.keys.length ≤ _
    omega
  · show S.index.keys.length ≤ store.health.eventCount
    omega
  · show tally bytesOf S.index ≤ store.health.totalBytes
    omega
  · show S.index.keys.length ≤ _
    omega
  · show S.index.keys.length ≤ min S.index.keys.length 65535
    omega
  · show tally bytesOf S.index ≤ store.health.totalBytes - S.reclaimed
    omega
  · show store.health.totalBytes - S.reclaimed < u64Bound
    omega

theorem bounded_enforceRetention (hb : store.Bounded) (nowUnixMs incomingBytes : Nat) (capacity : Option FilesystemSpace) :
    (store.enforceRetention o nowUnixMs incomingBytes capacity t).2.1.Bounded := by
  unfold LinuxEvidenceStore.enforceRetention
  cases hrequest : requestRetention o nowUnixMs incomingBytes capacity t with
  | error error => exact hb
  | ok request =>
    obtain ⟨done, rest, hw, hends⟩ := @walked_reclaim o t request store hb
    have hsettle : (store.settleRetention request ((store.reclaiming t).withoutAll done)).2.Bounded := by
      unfold LinuxEvidenceStore.settleRetention
      dsimp only
      split
      · exact (bounded_withoutAll hb hw _).2
      · exact (bounded_withoutAll hb hw _).2
    dsimp only
    rw [← LinuxEvidenceStore.reclaiming]
    generalize reclaim o request store.health store.index.candidates (store.reclaiming t) = result at hends
    cases hends with
    | all => exact hsettle
    | enough h => exact hsettle
    | stuck h hevent => exact (bounded_withoutAll hb hw true).1

end

/-- Every call keeps the counters from falling below what the index holds. -/
theorem bounded_apply {s : LinuxEvidenceStore × Disk} (hb : s.1.Bounded) (call : StoreCall) : (call.apply F s).1.Bounded := by
  cases call with
  | recover o => exact bounded_recover hb
  | put o temporary revision => exact bounded_put hb temporary revision
  | enforceRetention o nowUnixMs incomingBytes capacity => exact bounded_enforceRetention hb nowUnixMs incomingBytes capacity

/-- **In every state a store can come to, the counters are not below what the index holds.** -/
theorem bounded_reachable {packageVersion : PackageVersion} {store : LinuxEvidenceStore}
    (hopen : LinuxEvidenceStore.openRoot F o packageVersion t = .ok store) (calls : List StoreCall) :
    (afterCalls F (store, t) calls).1.Bounded := by
  have hrun := (keeping F).run_invariant (fun s _ => s.1.Bounded) (fun s _ call hb => bounded_apply hb call)
    ((store, t), []) calls (kept_openRoot hopen).bounded
  rwa [Recorder.run_fst] at hrun

section
variable {store : LinuxEvidenceStore} {done : List Candidate}

/-! ### Exactly what has to go -/

/-- Where an event need not go, and the loop comes to it and could remove it, its own sums
say so too. -/
def Spared (o : Outside) (store : LinuxEvidenceStore) (request : RetentionRequest) (t : Disk) (counters : Counters) : Prop :=
  ∀ done c rest, store.index.candidates = done ++ c :: rest → (∀ d ∈ done, Removable o t d) →
    request.EachDue counters done → ¬request.Due counters done c → Strikes o t c →
    request.Meets store.health.counters done ∧ request.filesystem.availableBytes + bytesIn done < u64Bound

theorem requestRetention_eq_ok {nowUnixMs incomingBytes : Nat} {capacity : Option FilesystemSpace}
    (h : requestRetention o nowUnixMs incomingBytes capacity t = .ok request) :
    ∃ space, capacity = some space ∧ request = ⟨nowUnixMs, incomingBytes, space⟩ := by
  unfold requestRetention at h
  simp only [bind_eq_ok, exists_unit_iff, require_eq_ok, required_eq_ok, Except.ok.injEq] at h
  obtain ⟨-, -, space, hspace, -, rfl⟩ := h
  exact ⟨space, hspace, rfl⟩

/-- One event after the other: what the loop removes had to go. -/
theorem eachDue_of_spared {counters : Counters} {gone : List Candidate} {after}
    (hd : Deletes o store request t after gone rest) (hs : Spared o store request t counters) :
    request.EachDue counters gone := by
  intro done
  induction hlength : done.length using Nat.strong_induction_on generalizing done with
  | _ n ih =>
    intro c back hsplit
    obtain ⟨hneeded, hremovable⟩ := hd.needed done c back hsplit
    have hdone : request.EachDue counters done := by
      intro front d middle hfront
      refine ih front.length ?_ front rfl d (middle ++ c :: back) ?_
      · rw [← hlength, hfront, List.length_append, List.length_cons]
        omega
      · rw [hsplit, hfront, List.append_assoc, List.cons_append]
    by_contra hnot
    have hmem : c ∈ gone := hsplit ▸ List.mem_append_right _ List.mem_cons_self
    have hcandidates : store.index.candidates = done ++ c :: (back ++ rest) := by
      rw [hd.candidates, hsplit, List.append_assoc, List.cons_append]
    obtain ⟨hmeets, hwidth⟩ := hs done c (back ++ rest) hcandidates hremovable hdone hnot (hd.strikes c hmem)
    have hsuffices := suffices_iff.mpr ⟨fun hexpired => hnot (.inl hexpired), hmeets, hwidth⟩
    rw [hneeded] at hsuffices
    cases hsuffices

/-- Nothing goes that its own sums would have kept. -/
theorem spared_of_eachDue {counters : Counters} (hbytes : counters.totalBytes ≤ store.health.totalBytes)
    (hcount : counters.eventCount ≤ store.health.eventCount) {gone : List Candidate} {after}
    (hd : Deletes o store request t after gone rest) (hdue : request.EachDue counters gone) :
    Spared o store request t counters := by
  intro done c back hsplit hremovable hdone hnot hstrikes
  suffices hstop : request.suffices store.health (bytesIn done) done.length c = true from (suffices_iff.mp hstop).2
  by_contra hgo
  rw [Bool.not_eq_true] at hgo
  have hsame := hd.candidates.symm.trans hsplit
  rcases List.append_eq_append_iff.mp hsame with ⟨middle, hfront, hmiddle⟩ | ⟨middle, hfront, hmiddle⟩
  · -- the loop stops at `c` or before
    cases middle with
    | nil =>
      rw [List.append_nil] at hfront
      subst hfront
      rcases hd.stopped c back hmiddle with hstop | hno | ⟨d, hmem, hno⟩
      · rw [hgo] at hstop
        cases hstop
      · exact hno hstrikes
      · exact hno (hremovable d hmem)
    | cons d middle =>
      rcases hd.stopped d (middle ++ c :: back) hmiddle with hstop | hno | ⟨d', hmem, hno⟩
      · rw [not_suffices_of_due hbytes hcount (hdone gone d middle hfront)] at hstop
        cases hstop
      · exact hno (hremovable d (hfront ▸ List.mem_append_right _ List.mem_cons_self)).strikes
      · exact hno (hremovable d' (hfront ▸ List.mem_append_left _ hmem))
  · -- the loop goes beyond `c`
    cases middle with
    | nil =>
      rw [List.append_nil] at hfront
      subst hfront
      rcases hd.stopped c back hmiddle.symm with hstop | hno | ⟨d, hmem, hno⟩
      · rw [hgo] at hstop
        cases hstop
      · exact hno hstrikes
      · exact hno (hremovable d hmem)
    | cons d middle =>
      obtain ⟨rfl, -⟩ := List.cons.inj hmiddle
      exact hnot (hdue done c middle hfront)

/-- Two prefixes with the same events are one. -/
theorem prefix_unique {closed a b : List Candidate} (hnodup : (closed.map Candidate.eventId).Nodup) (ha : a <+: closed)
    (hb : b <+: closed) (h : ∀ eventId, eventId ∈ a.map Candidate.eventId ↔ eventId ∈ b.map Candidate.eventId) : a = b := by
  have hle : ∀ {a b : List Candidate}, a <+: closed → b <+: closed →
      (∀ eventId, eventId ∈ a.map Candidate.eventId → eventId ∈ b.map Candidate.eventId) → a.length ≤ b.length := by
    intro a b ha hb h
    have hsub := ((hnodup.sublist (ha.sublist.map _)).subperm h).length_le
    rwa [List.length_map, List.length_map] at hsub
  have hlength := Nat.le_antisymm (hle ha hb fun eventId => (h eventId).mp) (hle hb ha fun eventId => (h eventId).mpr)
  exact (List.prefix_of_prefix_length_le ha hb hlength.le).eq_of_length hlength

/-- **Retention does what it should exactly if its own sums are right where it matters.** -/
theorem retained_iff (hb : store.Bounded) (counters : Counters) (hbytes : counters.totalBytes ≤ store.health.totalBytes)
    (hcount : counters.eventCount ≤ store.health.eventCount) (nowUnixMs incomingBytes : Nat)
    (capacity : Option FilesystemSpace) (hwidth : ∀ space ∈ capacity, space.totalBytes < u64Bound) :
    Retained o store nowUnixMs incomingBytes capacity t counters ↔
      ∀ request, requestRetention o nowUnixMs incomingBytes capacity t = .ok request → Spared o store request t counters := by
  constructor
  · rintro ⟨closed, gone, hclosed, hprefix, hlost, -, hspace⟩ request hrequest
    obtain ⟨gone', rest, hd⟩ := enforceRetention_deletes hb hrequest
    obtain ⟨space, rfl, rfl⟩ := requestRetention_eq_ok hrequest
    obtain rfl := eq_candidates hclosed
    have hsame := prefix_unique (candidates_nodup store.index) hprefix ⟨rest, hd.candidates.symm⟩
      fun eventId => (hlost eventId).symm.trans (hd.lost eventId)
    subst hsame
    exact spared_of_eachDue hbytes hcount hd (hspace space rfl).2.2.1
  · intro hs
    have hreserve : ∀ space ∈ capacity, space.totalBytes / 100 * 5 + space.totalBytes % 100 * 5 / 100 < u64Bound := by
      intro space hspace
      have htotal := hwidth space hspace
      omega
    cases hrequest : requestRetention o nowUnixMs incomingBytes capacity t with
    | error error =>
      have hcall : store.enforceRetention o nowUnixMs incomingBytes capacity t = (.error error, store, t) := by
        unfold LinuxEvidenceStore.enforceRetention
        rw [hrequest]
      refine ⟨store.index.candidates, [], candidates_inOrder _, List.nil_prefix, ?_, ?_, ?_⟩
      · intro eventId
        rw [hcall]
        simp [Lost]
      · intro path hpath
        rw [hcall] at hpath
        exact absurd rfl hpath
      · intro space hspace
        refine ⟨hreserve space hspace, by decide, ?_, ?_⟩
        · intro done c rest heq
          simp at heq
        · intro outcome hok
          rw [hcall] at hok
          cases hok
    | ok request =>
      obtain ⟨gone, rest, hd⟩ := enforceRetention_deletes hb hrequest
      have hspared := hs request hrequest
      obtain ⟨space, rfl, rfl⟩ := requestRetention_eq_ok hrequest
      refine ⟨store.index.candidates, gone, candidates_inOrder _, ⟨rest, hd.candidates.symm⟩, hd.lost, hd.elsewhere, ?_⟩
      intro space' hspace
      cases hspace
      refine ⟨hreserve space rfl, ?_, eachDue_of_spared hd hspared, hd.fitting⟩
      have hreclaims : Reclaims (gone ++ rest) (store.reclaiming t) := hd.candidates ▸ reclaims_bounded hb t
      obtain ⟨htally, -⟩ := tally_withoutAll hreclaims
      have hall := hreclaims.width
      rw [reclaiming_reclaimed] at htally
      omega

end

/-- **What retention deletes in every state that a store can come to.** By the counters of the
store, and by what its index really holds: it deletes what it should exactly if its sums are
right where it matters. -/
theorem retention_exact (F : Formats) (packageVersion : PackageVersion) (opening : Outside) (t₀ : Disk)
    (store : LinuxEvidenceStore) (hopen : LinuxEvidenceStore.openRoot F opening packageVersion t₀ = .ok store)
    (calls : List StoreCall) (o : Outside) (nowUnixMs incomingBytes : Nat) (capacity : Option FilesystemSpace)
    (hcapacity : ∀ space ∈ capacity, space.totalBytes < u64Bound) :
    let s := afterCalls F (store, t₀) calls
    (Retained o s.1 nowUnixMs incomingBytes capacity s.2 s.1.health.counters ↔
      ∀ request, requestRetention o nowUnixMs incomingBytes capacity s.2 = .ok request →
        Spared o s.1 request s.2 s.1.health.counters) ∧
    (Retained o s.1 nowUnixMs incomingBytes capacity s.2 s.1.index.counters ↔
      ∀ request, requestRetention o nowUnixMs incomingBytes capacity s.2 = .ok request →
        Spared o s.1 request s.2 s.1.index.counters) := by
  have hb := bounded_reachable hopen calls
  exact ⟨retained_iff hb _ le_rfl le_rfl nowUnixMs incomingBytes capacity hcapacity,
    retained_iff hb _ hb.totalled hb.counted nowUnixMs incomingBytes capacity hcapacity⟩

/-- There is no more in the closed events than the store counts. -/
theorem bytesIn_le {store : LinuxEvidenceStore} (hb : store.Bounded) {done : List Candidate}
    (h : store.index.candidates = done ++ rest) : bytesIn done ≤ store.health.totalBytes := by
  have hreclaims : Reclaims (done ++ rest) (store.reclaiming (emptyRoot 0)) := h ▸ reclaims_bounded hb _
  obtain ⟨htally, -⟩ := tally_withoutAll hreclaims
  rw [reclaiming_reclaimed] at htally
  have htotalled := hb.totalled
  change _ = 0 + tally bytesOf store.index at htally
  omega

/-- Retention does what it should by the store's own counters wherever the free bytes and the
store's together are a `u64`. -/
theorem spared_of_width {store : LinuxEvidenceStore} (hb : store.Bounded)
    (hwidth : request.filesystem.availableBytes + store.health.totalBytes < u64Bound) :
    Spared o store request t store.health.counters := by
  intro done c rest hsplit _ _ hnot _
  have hbytes := bytesIn_le hb hsplit
  exact ⟨not_not.mp fun hunmet => hnot (.inr hunmet), by omega⟩

theorem closed_sampleIndex {events : List SampleEvent} (h : (events.map SampleEvent.eventId).Nodup) :
    (sampleIndex events).Closed c ↔
      ∃ x ∈ events, x.eventId = c.eventId ∧ x.closedAt = some c.closedAt ∧ c.bundleBytes = sampleBytes := by
  induction events with
  | nil => simp [sampleIndex, Index.Closed]
  | cons x earlier ih =>
    obtain ⟨hnot, hearlier⟩ := List.nodup_cons.mp h
    obtain ⟨closedAt, eventId, bundleBytes⟩ := c
    by_cases heq : eventId = x.eventId
    · subst heq
      have hothers : ∀ y ∈ earlier, y.eventId ≠ x.eventId := fun y hy hsame => hnot (hsame ▸ List.mem_map_of_mem hy)
      rw [sampleIndex, Index.Closed]
      constructor
      · rintro ⟨detail, hlookup, hclosed, hbytes⟩
        rw [AList.lookup_insert] at hlookup
        cases hlookup
        exact ⟨x, List.mem_cons_self, rfl, hclosed, hbytes.symm⟩
      · rintro ⟨y, hy, hid, hclosed, hbytes⟩
        rcases List.mem_cons.mp hy with rfl | hy
        · exact ⟨⟨y.revision, sampleBytes, rfl⟩, AList.lookup_insert _, hclosed, hbytes.symm⟩
        · exact absurd hid (hothers y hy)
    · have hsame : (sampleIndex (x :: earlier)).Closed ⟨closedAt, eventId, bundleBytes⟩ ↔
          (sampleIndex earlier).Closed ⟨closedAt, eventId, bundleBytes⟩ := by
        rw [sampleIndex, Index.Closed, Index.Closed, AList.lookup_insert_ne heq]
      rw [hsame, ih hearlier]
      simp [Ne.symm heq]

/-- Nothing is in the way of a removal where nothing fails. -/
theorem removable_tidy {uid : Nat} {store : LinuxEvidenceStore} (ht : Tidy uid store t) (hc : store.index.Closed c) :
    Removable (.calm uid) t c := by
  obtain ⟨detail, hlookup, -⟩ := hc
  refine ⟨validatePrivateDirectory_eq_ok.mpr ⟨rfl, ht.present _ ?_⟩, rfl, rfl⟩
  rw [hlookup]
  exact Option.some_ne_none _

/-! Two closed events, of which the first is old, on a file system that reports as many free
bytes as a `u64` can hold. -/

def twoClosed : List SampleEvent := [⟨2, 2000, some 2000⟩, ⟨1, 1000, some 1000⟩]

theorem twoClosed_stored : Stored twoClosed := by
  refine ⟨by decide, ?_, by decide⟩
  intro x hx
  simp only [twoClosed, List.mem_cons, List.not_mem_nil, or_false] at hx
  rcases hx with rfl | rfl
  · exact ⟨by decide, by decide⟩
  · exact ⟨by decide, by decide⟩

theorem twoClosed_candidates :
    (sampleIndex twoClosed).candidates = [⟨1000, 1, sampleBytes⟩, ⟨2000, 2, sampleBytes⟩] := by
  refine (eq_candidates ⟨?_, ?_⟩).symm
  · rintro ⟨closedAt, eventId, bundleBytes⟩
    rw [closed_sampleIndex twoClosed_stored.distinct]
    simp only [twoClosed, List.mem_cons, List.not_mem_nil, or_false, exists_eq_or_imp, exists_eq_left, Candidate.mk.injEq,
      Option.some.injEq]
    tauto
  · simp [Candidate.key, Prod.Lex.toLex_lt_toLex]

def fullCapacity : FilesystemSpace := ⟨u64Bound - 1, u64Bound - 1⟩

/-- One event goes on a file system of a common size. -/
theorem retention_exact_common :
    let s := afterCalls compactFormats (emptyStore sampleVersion, emptyRoot 0) (twoClosed.reverse.map (SampleEvent.put 0))
    Retained (.calm 0) s.1 2592001001 1048576 (some ⟨2 ^ 40, 2 ^ 40⟩) s.2 s.1.health.counters := by
  have hopen := @openRoot_empty 0 compactFormats sampleVersion
  have hb := bounded_reachable hopen (twoClosed.reverse.map (SampleEvent.put 0))
  obtain ⟨t, hafter, -⟩ := after_puts 0 twoClosed_stored
  refine (retention_exact compactFormats sampleVersion (.calm 0) (emptyRoot 0) (emptyStore sampleVersion) hopen
    (twoClosed.reverse.map (SampleEvent.put 0)) (.calm 0) 2592001001 1048576 (some ⟨2 ^ 40, 2 ^ 40⟩) ?_).1.mpr ?_
  · simp [u64Bound]
  · intro request hrequest
    obtain ⟨space, hspace, rfl⟩ := requestRetention_eq_ok hrequest
    cases hspace
    refine spared_of_width hb ?_
    rw [hafter]
    show 2 ^ 40 + (sampleStore twoClosed).health.totalBytes < u64Bound
    decide

/-- **With 2 ^ 64 - 1 free bytes the second event goes too**: it is not old, and everything
would fit without that, but what is free with the first one's bytes is no `u64`. -/
theorem young_event_deleted : ∃ t,
    afterCalls compactFormats (emptyStore sampleVersion, emptyRoot 0) (twoClosed.reverse.map (SampleEvent.put 0)) =
        (sampleStore twoClosed, t) ∧
      ¬Retained (.calm 0) (sampleStore twoClosed) 2592001001 1048576 (some fullCapacity) t
        (sampleStore twoClosed).health.counters ∧
      ¬Retained (.calm 0) (sampleStore twoClosed) 2592001001 1048576 (some fullCapacity) t
        (sampleStore twoClosed).index.counters := by
  have hb := bounded_reachable (@openRoot_empty 0 compactFormats sampleVersion)
    (twoClosed.reverse.map (SampleEvent.put 0))
  obtain ⟨t, hafter, htidy, -⟩ := after_puts 0 twoClosed_stored
  rw [hafter] at hb
  have hwidth : ∀ space ∈ some fullCapacity, space.totalBytes < u64Bound := by simp [fullCapacity, u64Bound]
  have hroot : (Outside.calm 0).validateRoot t = .ok () := validatePrivateDirectory_eq_ok.mpr ⟨rfl, htidy.root⟩
  have hrequest : requestRetention (.calm 0) 2592001001 1048576 (some fullCapacity) t =
      .ok ⟨2592001001, 1048576, fullCapacity⟩ := by
    rw [requestRetention, hroot]
    rfl
  have hclosed : ∀ c ∈ (sampleStore twoClosed).index.candidates, Removable (.calm 0) t c :=
    fun c hc => removable_tidy htidy (mem_candidates_iff.mp hc)
  have hsplit : (sampleStore twoClosed).index.candidates = [⟨1000, 1, sampleBytes⟩] ++ ⟨2000, 2, sampleBytes⟩ :: [] :=
    twoClosed_candidates
  -- the first event is old, the second one is not, and everything fits without the first
  have hwrong : ∀ counters : Counters, counters.totalBytes ≤ 2 * sampleBytes → counters.eventCount ≤ 2 →
      ¬Spared (.calm 0) (sampleStore twoClosed) ⟨2592001001, 1048576, fullCapacity⟩ t counters := by
    intro counters hbytes hcount hspared
    have hfirst : RetentionRequest.EachDue ⟨2592001001, 1048576, fullCapacity⟩ counters [⟨1000, 1, sampleBytes⟩] := by
      intro done c rest heq
      cases done with
      | nil =>
        cases heq
        exact .inl (by decide)
      | cons d done => simp at heq
    have hsecond : ¬RetentionRequest.Due ⟨2592001001, 1048576, fullCapacity⟩ counters [⟨1000, 1, sampleBytes⟩]
        ⟨2000, 2, sampleBytes⟩ := by
      rintro (hexpired | hunmet)
      · exact absurd hexpired (by decide)
      · refine hunmet ⟨?_, ?_, by decide⟩
        · have hstore : 2 * sampleBytes + 1048576 ≤ evidenceMaxStoreBytes := by decide
          show counters.totalBytes - _ + 1048576 ≤ _
          omega
        · have hfew : 2 < evidenceMaxEvents := by decide
          omega
    have hmem := hsplit ▸ hclosed
    have hover := (hspared _ _ _ hsplit (fun d hd => hmem d (List.mem_append_left _ hd)) hfirst hsecond
      (hmem _ (by simp)).strikes).2
    exact absurd hover (by decide)
  refine ⟨t, hafter, ?_, ?_⟩
  · intro hretained
    exact hwrong _ le_rfl le_rfl ((retained_iff hb _ le_rfl le_rfl _ _ _ hwidth).mp hretained _ hrequest)
  · intro hretained
    exact hwrong _ hb.totalled hb.counted ((retained_iff hb _ hb.totalled hb.counted _ _ _ hwidth).mp hretained _ hrequest)

end NetworkLoop.Evidence
