import NetworkLoop.Library.Paging
import NetworkLoop.Evidence.Cursor

/-! The index of the evidence store (`evidence_store.rs`), and its `list`.

The index keeps the latest revision of every stored event and the bytes of all its
revisions; an entry stands under the ID of its own revision, so it cannot be built for
another one. `list` sorts by time, latest first, then by event ID. That order is the
lexicographic order of `listKey`, a page is what the library calls one
(`controlList_eq`), and so following the cursors as the caller sees them reads the whole
answer (`list_complete`). -/
namespace NetworkLoop.Evidence
open Library Observation

inductive EvidenceIntegrity where
  | valid | corrupt | incomplete
  deriving DecidableEq, Repr

structure EvidenceSummaryV1 where
  schemaVersion : Nat
  eventId : EventId
  latestRevision : Nat
  interface : String
  ifindex : Nat
  interfaceGeneration : Nat
  currentState : Detection.DetectionState
  alertCode : AlertCode
  severity : AlertSeverity
  openedAtUnixMs : Nat
  lastTransitionAtUnixMs : Nat
  closedAtUnixMs : Option Nat
  bundleBytes : Nat
  integrity : EvidenceIntegrity
  deriving DecidableEq

structure EvidenceDetailV1 where
  summary : EvidenceSummaryV1
  latest : IncidentRevisionV1
  deriving DecidableEq

/-- `detail_from_revision`. -/
def detailFromRevision (revision : IncidentRevisionV1) (bundleBytes : Nat) : EvidenceDetailV1 where
  summary := {
    schemaVersion := evidenceSchemaVersion
    eventId := revision.eventId
    latestRevision := revision.revision
    interface := revision.interface
    ifindex := revision.ifindex
    interfaceGeneration := revision.interfaceGeneration
    currentState := revision.currentState
    alertCode := revision.alertCode
    severity := revision.severity
    openedAtUnixMs := revision.openedAtUnixMs
    lastTransitionAtUnixMs := revision.occurredAtUnixMs
    closedAtUnixMs := revision.closedAtUnixMs
    bundleBytes := bundleBytes
    integrity := .valid }
  latest := revision

/-- What the index holds for an event: the detail of a revision of that event. -/
structure Indexed (eventId : EventId) where
  latest : IncidentRevisionV1
  bundleBytes : Nat
  named : latest.eventId = eventId

def Indexed.detail {eventId : EventId} (x : Indexed eventId) : EvidenceDetailV1 :=
  detailFromRevision x.latest x.bundleBytes

/-- `BTreeMap<EventId, EvidenceDetailV1>`. Every reader of the source sorts what it takes
from the map, so the order of the entries is left open. -/
abbrev Index := AList Indexed

def Index.summaries (index : Index) : List EvidenceSummaryV1 := index.entries.map fun e => e.2.detail.summary

/-! ### Pages -/

structure EvidencePage where
  items : List EvidenceSummaryV1
  nextCursor : Option EvidenceCursor

def ofInterface (interface : Option String) (summary : EvidenceSummaryV1) : Bool :=
  interface.all fun interface => summary.interface == interface

def beyondCursor (cursor : Option EvidenceCursor) (summary : EvidenceSummaryV1) : Bool :=
  cursor.all fun cursor =>
    decide (summary.lastTransitionAtUnixMs < cursor.lastTransitionAtUnixMs) ||
      (summary.lastTransitionAtUnixMs == cursor.lastTransitionAtUnixMs && decide (cursor.eventId < summary.eventId))

/-- The comparison of `sort_by`, of which a stable sort asks whether it is not `Greater`. -/
def precedes (left right : EvidenceSummaryV1) : Bool :=
  decide (right.lastTransitionAtUnixMs < left.lastTransitionAtUnixMs) ||
    (right.lastTransitionAtUnixMs == left.lastTransitionAtUnixMs && decide (left.eventId ≤ right.eventId))

/-- `LinuxEvidenceStore::list`. A query's limit is not zero, so a page with more items has a last one. -/
def Index.list (index : Index) (query : EvidenceListQuery) : EvidencePage :=
  let items := ((index.summaries.filter (ofInterface query.interface)).filter (beyondCursor query.cursor)).mergeSort precedes
  let hasMore := query.limit < items.length
  let items := items.take query.limit
  ⟨items, if hasMore then items.getLast?.map fun last =>
    EvidenceCursor.new query.interface last.lastTransitionAtUnixMs last.eventId else none⟩

inductive EvidenceControlError where
  | invalidRequest | notFound | unavailable
  deriving DecidableEq, Repr

structure EvidenceListPageV1 where
  items : List EvidenceSummaryV1
  nextCursor : Option String

/-- The cursor of a request, if it has one. -/
def requestCursor (interface : Option String) : Option String → Except EvidenceControlError (Option EvidenceCursor)
  | none => .ok none
  | some value => ((EvidenceCursor.parseFor value interface).mapError fun _ => .invalidRequest).map some

/-- `EvidenceControl::list` of the shared store, whose lock is not poisoned. -/
def Index.controlList (index : Index) (interface : Option String) (limit : Nat) (cursor : Option String) :
    Except EvidenceControlError EvidenceListPageV1 :=
  requestCursor interface cursor >>= fun cursor =>
  ((EvidenceListQuery.new interface (some limit) cursor).mapError fun _ => .invalidRequest) >>= fun query =>
  let page := index.list query
  .ok ⟨page.items, page.nextCursor.map (·.toText)⟩

/-- Asking for page after page, each with the cursor of the one before and a limit of its
own, until one has none; `none` if there are more than `fuel` pages. -/
def Index.follow (index : Index) (interface : Option String) (limits : Nat → Nat) :
    Nat → Nat → Option String → Except EvidenceControlError (Option (List EvidenceSummaryV1))
  | 0, _, _ => .ok none
  | fuel + 1, n, cursor =>
    index.controlList interface (limits n) cursor >>= fun page =>
    match page.nextCursor with
    | none => .ok (some page.items)
    | some next => (index.follow interface limits fuel (n + 1) (some next)).map fun rest => rest.map (page.items ++ ·)

/-! ### The order of a list -/

/-- The place of an event in a list: its last transition, latest first, then its ID. -/
def listKey (summary : EvidenceSummaryV1) : ℕᵒᵈ ×ₗ ℕ :=
  toLex (OrderDual.toDual summary.lastTransitionAtUnixMs, summary.eventId.toNat)

theorem precedes_eq (a b : EvidenceSummaryV1) : precedes a b = decide (listKey a ≤ listKey b) := by
  rw [Bool.eq_iff_iff, decide_eq_true_iff, listKey, listKey, Prod.Lex.toLex_le_toLex, OrderDual.toDual_inj,
    eq_comm (a := a.lastTransitionAtUnixMs)]
  simp [precedes, BitVec.le_def]

theorem beyondCursor_eq (interface : Option String) (last s : EvidenceSummaryV1) :
    beyondCursor (some (.new interface last.lastTransitionAtUnixMs last.eventId)) s =
      Paging.beyond listKey (some (listKey last)) s := by
  rw [Bool.eq_iff_iff, Paging.beyond, Option.all_some, decide_eq_true_iff, listKey, listKey, Prod.Lex.toLex_lt_toLex,
    OrderDual.toDual_inj, eq_comm (a := last.lastTransitionAtUnixMs)]
  simp [beyondCursor, EvidenceCursor.new, BitVec.lt_def]

/-! ### Following the cursors -/

def Index.matching (index : Index) (interface : Option String) : List EvidenceSummaryV1 :=
  index.summaries.filter (ofInterface interface)

/-- The cursor of a page that ends with `last`, as the caller gets it. -/
def cursorText (interface : Option String) (last : EvidenceSummaryV1) : String :=
  (EvidenceCursor.new interface last.lastTransitionAtUnixMs last.eventId).toText

/-- The last event of a page that another one follows. -/
def lastOf (limit : Nat) (left : List EvidenceSummaryV1) : Option EvidenceSummaryV1 :=
  if limit < left.length then (left.take limit).getLast? else none

section
variable {index : Index} {interface : Option String}

theorem next_eq (limit : Nat) (left : List EvidenceSummaryV1) : Paging.next listKey limit left = (lastOf limit left).map listKey := by
  rw [Paging.next, lastOf]
  split
  · rfl
  · rfl

theorem mem_of_lastOf {limit : Nat} {left : List EvidenceSummaryV1} {s : EvidenceSummaryV1} (h : lastOf limit left = some s) :
    s ∈ left := by
  unfold lastOf at h
  split at h
  · exact List.mem_of_mem_take (List.mem_of_getLast? h)
  · cases h

theorem requestCursor_text (last : Option EvidenceSummaryV1) (htime : ∀ s ∈ last, s.lastTransitionAtUnixMs < u64Bound) :
    requestCursor interface (last.map (cursorText interface)) =
      .ok (last.map fun s => .new interface s.lastTransitionAtUnixMs s.eventId) := by
  cases last with
  | none => rfl
  | some s =>
    rw [Option.map_some, requestCursor, cursorText, EvidenceCursor.parseFor_toText (htime s rfl)]
    rfl

theorem beyondCursor_last (last : Option EvidenceSummaryV1) :
    beyondCursor (last.map fun s => .new interface s.lastTransitionAtUnixMs s.eventId) =
      Paging.beyond listKey (last.map listKey) := by
  cases last with
  | none => rfl
  | some last =>
    funext s
    exact beyondCursor_eq interface last s

theorem list_eq {limit : Nat} (last : Option EvidenceSummaryV1) :
    index.list ⟨interface, limit, last.map fun s => .new interface s.lastTransitionAtUnixMs s.eventId⟩ =
      let left := Paging.remaining listKey (last.map listKey) (index.matching interface)
      ⟨left.take limit, (lastOf limit left).map fun s => .new interface s.lastTransitionAtUnixMs s.eventId⟩ := by
  have hsort : precedes = fun a b => decide (listKey a ≤ listKey b) := by
    funext a b
    exact precedes_eq a b
  rw [Index.list, beyondCursor_last, hsort, ← Paging.ordered, ← Index.matching, ← Paging.remaining]
  dsimp only [lastOf]
  split
  · rfl
  · rfl

theorem query_ok {limit : Nat} (hlimit : 1 ≤ limit ∧ limit ≤ 200) (last : Option EvidenceSummaryV1) :
    EvidenceListQuery.new interface (some limit) (last.map fun s => .new interface s.lastTransitionAtUnixMs s.eventId) =
      .ok ⟨interface, limit, last.map fun s => .new interface s.lastTransitionAtUnixMs s.eventId⟩ := by
  refine (if_neg ?_).trans (if_neg ?_)
  · simp [evidenceListMaxLimit, hlimit.1, hlimit.2]
  · cases last with
    | none => simp
    | some s => simp [EvidenceCursor.new]

/-- **A page as the caller gets it is a page of the order of `listKey`.** -/
theorem controlList_eq {limit : Nat} (hlimit : 1 ≤ limit ∧ limit ≤ 200) (last : Option EvidenceSummaryV1)
    (htime : ∀ s ∈ last, s.lastTransitionAtUnixMs < u64Bound) :
    index.controlList interface limit (last.map (cursorText interface)) =
      let left := Paging.remaining listKey (last.map listKey) (index.matching interface)
      .ok ⟨left.take limit, (lastOf limit left).map (cursorText interface)⟩ := by
  rw [Index.controlList, requestCursor_text last htime]
  show (((EvidenceListQuery.new _ _ _).mapError _) >>= _) = _
  rw [query_ok hlimit]
  show Except.ok (EvidenceListPageV1.mk _ _) = _
  rw [list_eq]
  dsimp only
  rw [Option.map_map]
  rfl

/-- Following the cursors is the walk through the order of `listKey`. -/
theorem follow_eq {limits : Nat → Nat} (hlimits : ∀ n, 1 ≤ limits n ∧ limits n ≤ 200)
    (htimes : ∀ s ∈ index.summaries, s.lastTransitionAtUnixMs < u64Bound) (fuel n : Nat) (last : Option EvidenceSummaryV1)
    (htime : ∀ s ∈ last, s.lastTransitionAtUnixMs < u64Bound) :
    index.follow interface limits fuel n (last.map (cursorText interface)) =
      .ok (Paging.walk listKey (index.matching interface) limits fuel n (last.map listKey)) := by
  induction fuel generalizing n last with
  | zero => rfl
  | succ fuel ih =>
    rw [Index.follow, controlList_eq (hlimits n) last htime, Paging.walk, next_eq]
    dsimp only [bind, Except.bind]
    cases hlast : lastOf (limits n) (Paging.remaining listKey (last.map listKey) (index.matching interface)) with
    | none => rfl
    | some s =>
      have hmem : s ∈ index.summaries := by
        have hleft := List.mem_mergeSort.mp (mem_of_lastOf hlast)
        exact (List.mem_filter.mp (List.mem_filter.mp hleft).1).1
      have hrest := ih (n + 1) (some s) fun x hx => htimes x (by cases hx; exact hmem)
      rw [Option.map_some, Option.map_some] at hrest
      rw [Option.map_some, Option.map_some]
      dsimp only
      rw [hrest]
      rfl

theorem nodup_matching : ((index.matching interface).map (·.eventId)).Nodup := by
  have hkeys : index.summaries.map (·.eventId) = index.keys := by
    rw [Index.summaries, List.map_map]
    apply List.map_congr_left
    intro e _
    exact e.2.named
  have hids : (index.summaries.map (·.eventId)).Nodup := hkeys ▸ index.keys_nodup
  exact hids.sublist (List.filter_sublist.map _)

theorem nodup_listKeys : ((index.matching interface).map listKey).Nodup := by
  refine List.Nodup.of_map (fun key : ℕᵒᵈ ×ₗ ℕ => BitVec.ofNat 128 (ofLex key).2) ?_
  have hback : ∀ s : EvidenceSummaryV1, BitVec.ofNat 128 (ofLex (listKey s)).2 = s.eventId := fun s =>
    BitVec.eq_of_toNat_eq (Nat.mod_eq_of_lt s.eventId.isLt)
  rw [List.map_map]
  simpa [Function.comp_def, hback] using nodup_matching

/-- **Reading a list to its end.** Whatever the limits of the single pages, the cursors
come to an end, and the pages hold every event of the filter once, in the order of their
last transitions. -/
theorem list_complete (index : Index) (interface : Option String) (limits : Nat → Nat)
    (hlimits : ∀ n, 1 ≤ limits n ∧ limits n ≤ 200)
    (htimes : ∀ s ∈ index.summaries, s.lastTransitionAtUnixMs < u64Bound) :
    ∃ items, (∀ fuel, index.summaries.length < fuel → index.follow interface limits fuel 0 none = .ok (some items)) ∧
      items.Perm (index.summaries.filter (ofInterface interface)) ∧ (items.map (·.eventId)).Nodup ∧
      items.Pairwise fun a b => b.lastTransitionAtUnixMs ≤ a.lastTransitionAtUnixMs := by
  have hkeys : ((index.matching interface).map listKey).Nodup := nodup_listKeys
  have hperm : (Paging.ordered listKey (index.matching interface)).Perm (index.matching interface) := List.mergeSort_perm _ _
  refine ⟨Paging.ordered listKey (index.matching interface), ?_, hperm, ?_, ?_⟩
  · intro fuel hfuel
    have hlength : (index.matching interface).length < fuel := lt_of_le_of_lt (List.length_filter_le _ _) hfuel
    have hfollow := @follow_eq index interface limits hlimits htimes fuel 0 none (by simp)
    rw [Option.map_none, Option.map_none, Paging.walk_eq (fun n => by have := hlimits n; omega) hkeys hlength] at hfollow
    exact hfollow
  · exact (hperm.map _).nodup_iff.mpr nodup_matching
  · refine (Paging.arranged_ordered hkeys).imp fun {a b} h => ?_
    rw [listKey, listKey, Prod.Lex.toLex_lt_toLex] at h
    rcases h with h | h
    · exact (OrderDual.toDual_lt_toDual.mp h).le
    · exact (OrderDual.toDual_inj.mp h.1).ge

/-- A revision that documents nothing but its event and its times. -/
def sampleRevision (eventId : EventId) (revision occurredAtUnixMs : Nat) (closedAtUnixMs : Option Nat) :
    IncidentRevisionV1 where
  schemaVersion := evidenceSchemaVersion
  eventId := eventId
  revision := revision
  interface := "lan0"
  ifindex := 7
  interfaceGeneration := 11
  transitionSequence := 1
  previousState := .normal
  currentState := .ingressStormConfirmed
  transitionReason := .stormAsserted
  openedAtUnixMs := 1000
  occurredAtUnixMs := occurredAtUnixMs
  closedAtUnixMs := closedAtUnixMs
  alertCode := .stormConfirmed
  severity := .notice
  evidenceStatus := .stored
  xdpIngress := .zero
  tcEgress := .zero
  rateWindows := fun _ => ⟨1000, .warmingUp, 0, none, none, none, none, none⟩
  baseline := .fromReport (.learning 1000)
  fingerprintWindow := (Detection.DetectionReport.warming 1000).signals.fingerprintWindow
  detection := .warming 1000
  observationHealth := .healthy
  vlanVisibility := .unknown
  lastErrorCode := none

/-- Three events, two of them with the same last transition. -/
def tiedIndex : Index :=
  AList.insert 3#128 ⟨sampleRevision 3 1 1000 none, 500, rfl⟩
    (AList.insert 1#128 ⟨sampleRevision 1 1 1000 none, 500, rfl⟩
      (AList.insert 2#128 ⟨sampleRevision 2 1 2000 none, 500, rfl⟩ ∅))

/-- One event a page, with a page boundary between the two events of one time. -/
theorem list_complete_tied :
    ∃ items, tiedIndex.follow none (fun _ => 1) 4 0 none = .ok (some items) ∧
      items.Perm (tiedIndex.summaries.filter (ofInterface none)) := by
  obtain ⟨items, hfollow, hperm, -⟩ := list_complete tiedIndex none (fun _ => 1) (fun _ => ⟨le_refl 1, by decide⟩) (by decide)
  exact ⟨items, hfollow 4 (by decide), hperm⟩
end

end NetworkLoop.Evidence
