import NetworkLoop.Install.Accepted

/-! From an accepted layout to a prepared journal.

The checks of the source documents leave identifiers and digests that are well formed and a
payload for every file (`Supplied`). With these, every action of a plan becomes an entry
that the journal accepts, and the whole plan a journal that is prepared
(`prepared_succeeds`): `apply_plan` refuses nothing before it touches the disk. -/
namespace NetworkLoop.Install
open Library Program Disk

variable {p : PreparedSystemInstall} {d : Disk} {operation : InstallOperationV1} {current : Option InstallJournalV1}
  {x : InstallDestinationSnapshotV1} {found : List InstallDestinationSnapshotV1}

/-! ### Names -/

/-- A character that no safe name holds. -/
def refusedInNames (c : Char) : Bool :=
  c == '/' || c == '\\' || c == '*' || c == '?' || c == '[' || c == ']' || c == '\x00'

theorem safeBasename_of_parts {name : String} (hlong : 2 < name.toList.length) (hsize : name.utf8ByteSize ≤ 255)
    (hchars : name.toList.any refusedInNames = false) : safeBasename name = true := by
  have hne : ∀ other : String, other.toList.length ≤ 2 → name ≠ other := by
    intro other hother heq
    rw [heq] at hlong
    omega
  have hdot : (name != ".") = true := bne_iff_ne.mpr (hne "." (by decide))
  have hdots : (name != "..") = true := bne_iff_ne.mpr (hne ".." (by decide))
  have hempty : name.isEmpty = false := by
    rw [Bool.eq_false_iff, Ne, String.isEmpty_iff]
    exact hne "" (by decide)
  have hany : safeBasename name = (!name.isEmpty && name != "." && name != ".." && decide (name.utf8ByteSize ≤ 255) &&
    !name.toList.any refusedInNames) := rfl
  rw [hany, hempty, hdot, hdots, decide_eq_true hsize, hchars]
  rfl

theorem lowerHex_chars {text : String} {n : Nat} (h : isLowerHex text n = true) :
    text.toList.any refusedInNames = false := by
  unfold isLowerHex at h
  rw [Bool.and_eq_true, List.all_eq_true] at h
  refine List.any_eq_false.mpr fun c hc hrefused => ?_
  have hhex := h.2 c hc
  unfold refusedInNames at hrefused
  simp only [Bool.or_eq_true, beq_iff_eq] at hrefused
  rcases hrefused with (((((rfl | rfl) | rfl) | rfl) | rfl) | rfl) | rfl <;> revert hhex <;> decide

theorem order_text : ∀ r : InstallRoleV1, (toString r.installOrder).toList.any refusedInNames = false ∧
    (toString r.installOrder).utf8ByteSize ≤ 2 := by
  decide

theorem safeBasename_name {tx suffix : String} {r : InstallRoleV1} (hid : isLowerHex tx 32 = true)
    (hsuffix : suffix.toList.any refusedInNames = false ∧ suffix.utf8ByteSize = 4) :
    safeBasename (".l2-loop-" ++ tx ++ "-" ++ toString r.installOrder ++ suffix) = true := by
  obtain ⟨horder, hsize⟩ := order_text r
  have hfront : ".l2-loop-".toList.length = 9 ∧ ".l2-loop-".utf8ByteSize = 9 ∧ ".l2-loop-".toList.any refusedInNames = false ∧
    "-".utf8ByteSize = 1 ∧ "-".toList.any refusedInNames = false := by decide
  obtain ⟨hlength, hnine, hplain, hone, hdash⟩ := hfront
  have htx : tx.utf8ByteSize = 32 := by
    unfold isLowerHex at hid
    simp only [Bool.and_eq_true, beq_iff_eq] at hid
    exact hid.1
  refine safeBasename_of_parts ?_ ?_ ?_
  · simp only [String.toList_append, List.length_append]
    omega
  · simp only [String.utf8ByteSize_append]
    omega
  · simp only [String.toList_append, List.any_append, hplain, lowerHex_chars hid, hdash, horder, hsuffix.1, Bool.or_self]

theorem safe_siblingBasename {tx : String} {r : InstallRoleV1} (hid : isLowerHex tx 32 = true) :
    safeBasename (siblingBasename tx r) = true := safeBasename_name hid (by decide)

theorem safe_backupBasename {tx : String} {r : InstallRoleV1} (hid : isLowerHex tx 32 = true) :
    safeBasename (backupBasename tx r) = true := safeBasename_name hid (by decide)

/-! ### Entries -/

theorem expectedMode_le : ∀ r : InstallRoleV1, r.expectedMode ≤ 0o7777 := by
  decide

/-- The prior file of an upgrade, as its entry may name it. -/
def PriorOk (r : InstallRoleV1) : InstallPriorStateV1 → Prop
  | .absent => True
  | .priorOwned identity backup =>
    r.isDirectory = false ∧ identity.validate = .ok () ∧ identity.kind = .regularFile ∧ identity.mode = r.expectedMode ∧
      identity.uid = 0 ∧ identity.gid = 0 ∧ safeBasename backup = true

/-- A new entry for the layout's own mode and owner is accepted. -/
theorem new_succeeds {intended : InstallIntendedIdentityV1} {b : Option String} {q : InstallPriorStateV1}
    {r : InstallRoleV1} (hmode : intended.mode = r.expectedMode) (howner : intended.uid = 0 ∧ intended.gid = 0)
    (hkind : r.isDirectory = (intended.kind == .directory)) (hdigest : intended.digestValid = true)
    (hsibling : if r.isDirectory then b = none ∧ q = .absent else b.any safeBasename = true)
    (hprior : PriorOk r q) : ∃ e, InstallJournalEntryV1.new r intended b q = .ok e := by
  have hle : ¬4095 < r.expectedMode := Nat.not_lt.mpr (expectedMode_le r)
  refine ⟨_, bind_unit_eq_ok.mpr ⟨?_, rfl⟩⟩
  unfold InstallJournalEntryV1.validate
  simp only [bind_unit_eq_ok]
  refine ⟨?_, ?_, ?_, rfl⟩
  · simp [InstallIntendedIdentityV1.validate, hdigest, hmode, hle]
  · unfold InstallJournalEntryV1.validateLayout
    simp only [hmode, howner.1, howner.2, hkind, bne_self_eq_false, Bool.or_self, Bool.false_eq_true, if_false]
    rw [← hkind]
    cases hdir : r.isDirectory with
    | true =>
      rw [hdir, if_pos rfl] at hsibling
      simp [hsibling.1, hsibling.2]
    | false =>
      rw [hdir, if_neg (by simp)] at hsibling
      simp [hsibling]
  · cases q with
    | absent => rfl
    | priorOwned identity backup =>
      obtain ⟨hfile, hvalid, hregular, hmode', huid, hgid, hsafe⟩ := hprior
      refine bind_unit_eq_ok.mpr ⟨hvalid, ?_⟩
      simp [hfile, hregular, hmode', huid, hgid, hsafe]

/-- What the checks of the source documents have made sure of: the identifiers and digests
are well formed, and every file of the layout has a payload of the right digest. -/
structure Supplied (p : PreparedSystemInstall) : Prop where
  bindings : (bindingsOf p).validate = .ok ()
  payloads : ∀ r : InstallRoleV1, r.isDirectory = false →
    ∃ digest : Digest, p.payloads r = some (.blob digest) ∧ payloadSha256 p r = .ok digest.val

theorem Supplied.id (h : Supplied p) : isLowerHex p.transactionId 32 = true := by
  have := h.bindings
  unfold InstallJournalBindingsV1.validate at this
  split at this
  · cases this
  · rename_i hno
    simp only [Bool.or_eq_true, not_or, Bool.not_eq_true', Bool.not_eq_false] at hno
    exact hno.1.1.1.1.1.1

theorem layoutSource_none : ∀ r : InstallRoleV1, r.layoutSource = .none ↔ r.isDirectory = true := by
  decide

theorem intendedIdentity_ok (h : Supplied p) (r : InstallRoleV1) : ∃ intended, intendedIdentity p r = .ok intended ∧
    intended.mode = r.expectedMode ∧ intended.uid = 0 ∧ intended.gid = 0 ∧
    r.isDirectory = (intended.kind == .directory) ∧ intended.digestValid = true := by
  have hle : ¬4095 < r.expectedMode := Nat.not_lt.mpr (expectedMode_le r)
  unfold intendedIdentity InstallRoleV1.layoutKind
  cases hdir : r.isDirectory with
  | true =>
    refine ⟨⟨.directory, none, r.expectedMode, 0, 0⟩, ?_, rfl, rfl, rfl, rfl, rfl⟩
    simp [discard, InstallIntendedIdentityV1.directory, InstallIntendedIdentityV1.validate,
      InstallIntendedIdentityV1.digestValid, hle, bind, Except.bind, Except.mapError]
    rfl
  | false =>
    obtain ⟨digest, -, hdigest⟩ := h.payloads r hdir
    refine ⟨⟨.regularFile, some digest.val, r.expectedMode, 0, 0⟩, ?_, rfl, rfl, rfl, rfl, digest.2⟩
    simp [hdigest, discard, InstallIntendedIdentityV1.regularFile, InstallIntendedIdentityV1.validate,
      InstallIntendedIdentityV1.digestValid, hle, digest.2, bind, Except.bind, Except.mapError]
    rfl

/-- **Every action of the plan becomes an entry.** -/
theorem journalEntry_succeeds {action : InstallActionV1} (h : Supplied p) (hx : actionOf x = some action)
    (hseen : Seen d operation current x)
    (hprior : ∀ identity, x.role.isDirectory = false → journalIdentity current x.role = some identity →
      identity.validate = .ok () ∧ identity.kind = .regularFile ∧ identity.mode = x.role.expectedMode ∧ identity.uid = 0 ∧
        identity.gid = 0) : ∃ e, journalEntry p current action = .ok e := by
  obtain ⟨intended, hintended, hmode, huid, hgid, hkind, hdigest⟩ := intendedIdentity_ok h x.role
  obtain ⟨hrole, -⟩ := actionOf_role hx
  obtain ⟨observed, -, hstate⟩ := hseen
  have hsibling := safe_siblingBasename (r := x.role) h.id
  unfold journalEntry
  rw [hrole, hintended]
  rcases destinationState_some hstate with ⟨hstate, hdir, -⟩ | ⟨hstate, hdir, -⟩ | ⟨hstate, -⟩ |
    ⟨hstate, hdir, -, identity, -, hidentity⟩
  · simp only [actionOf, hstate, Option.some.injEq] at hx
    obtain ⟨e, he⟩ := new_succeeds (b := none) (q := .absent) hmode ⟨huid, hgid⟩ hkind hdigest
      (by simp [hdir]) trivial
    refine ⟨e, ?_⟩
    rw [← hx]
    simp only [bind, Except.bind, InstallJournalEntryV1.absentDirectory, he]
    rfl
  · simp only [actionOf, hstate, Option.some.injEq] at hx
    obtain ⟨e, he⟩ := new_succeeds (b := some (siblingBasename p.transactionId x.role)) (q := .absent) hmode
      ⟨huid, hgid⟩ hkind hdigest (by simp [hdir, hsibling]) trivial
    refine ⟨e, ?_⟩
    rw [← hx]
    simp only [bind, Except.bind, InstallJournalEntryV1.absentFile, he]
    rfl
  · simp [actionOf, hstate] at hx
  · simp only [actionOf, hstate, Option.some.injEq] at hx
    obtain ⟨hvalid, hregular, hmode', huid', hgid'⟩ := hprior identity hdir hidentity
    obtain ⟨e, he⟩ := new_succeeds (b := some (siblingBasename p.transactionId x.role))
      (q := .priorOwned identity (backupBasename p.transactionId x.role)) hmode ⟨huid, hgid⟩ hkind hdigest
      (by simp [hdir, hsibling]) ⟨hdir, hvalid, hregular, hmode', huid', hgid', safe_backupBasename h.id⟩
    refine ⟨e, ?_⟩
    rw [← hx]
    simp only [bind, Except.bind, hidentity, InstallJournalEntryV1.priorOwnedFile, he]
    rfl


/-- What a journal knows of the file of a role. -/
theorem journalIdentity_file {j : InstallJournalV1} {r : InstallRoleV1} {identity : InstallObjectIdentityV1} (hj : j.Valid)
    (hstate : j.state = .installed) (hfile : r.isDirectory = false) (h : journalIdentity (some j) r = some identity) :
    identity.validate = .ok () ∧ identity.kind = .regularFile ∧ identity.mode = r.expectedMode ∧ identity.uid = 0 ∧
      identity.gid = 0 := by
  obtain ⟨e, hfind, hidentity⟩ : ∃ e, j.entries.find? (·.role == r) = some e ∧ e.currentIdentity = some identity :=
    Option.bind_eq_some_iff.mp h
  have hrole : e.role = r := by simpa using List.find?_some hfind
  have hvalid := (hj.entries (by simp [hstate])).valid e (List.mem_of_find?_eq_some hfind)
  have hall : AllIn .verified j.entries := (InstallJournalV1.progress_of_state hj hstate).2.1
  have hphase : e.phase ≠ .pending := by simp [hall e (List.mem_of_find?_eq_some hfind)]
  obtain ⟨found, hfound, hcheck, hintended⟩ := InstallJournalEntryV1.matchesIntended_of_validate hvalid hphase
  rw [hidentity] at hfound
  cases hfound
  have hlayout := entryLayout_of_validate hvalid
  unfold InstallObjectIdentityV1.matchesIntended at hintended
  simp only [Bool.and_eq_true, beq_iff_eq] at hintended
  obtain ⟨⟨⟨⟨hkind, -⟩, hmode⟩, huid⟩, hgid⟩ := hintended
  rw [← hrole] at hfile ⊢
  have hregular : e.intended.kind = .regularFile := by
    cases hintent : e.intended.kind with
    | regularFile => rfl
    | directory =>
      rw [hlayout.kind.mp hintent] at hfile
      cases hfile
  exact ⟨hcheck, hkind.trans hregular, hmode.trans hlayout.mode, huid.trans hlayout.uid, hgid.trans hlayout.gid⟩

/-! ### The journal -/

theorem filter_actionsOf (l : List InstallDestinationSnapshotV1) :
    (l.flatMap actionsOf).filter (fun action => !action.isVerify) = l.filterMap actionOf := by
  induction l with
  | nil => rfl
  | cons x rest ih =>
    rw [List.flatMap_cons, List.filter_append, ih, List.filterMap_cons]
    unfold actionsOf
    cases hx : actionOf x with
    | none => rfl
    | some action =>
      rw [Option.elim_some, List.filter_cons_of_pos (by simp [(actionOf_role hx).2]),
        List.filter_cons_of_neg (by simp [InstallActionV1.isVerify])]
      rfl

theorem roles_sublist (l : List InstallDestinationSnapshotV1) :
    ((l.filterMap actionOf).map (·.role)).Sublist (l.map (·.role)) := by
  induction l with
  | nil => exact List.Sublist.refl _
  | cons x rest ih =>
    rw [List.filterMap_cons, List.map_cons]
    cases hx : actionOf x with
    | none => exact ih.cons _
    | some action =>
      rw [List.map_cons, (actionOf_role hx).1]
      exact ih.cons_cons _

theorem journalEntries_succeeds {actions : List InstallActionV1} {prior : Option InstallJournalV1}
    (h : ∀ action ∈ actions, ∃ e, journalEntry p prior action = .ok e) :
    ∃ entries, journalEntries p prior actions = .ok entries ∧ entries.map (·.role) = actions.map (·.role) ∧
      ∀ e ∈ entries, e.validate = .ok () := by
  induction actions with
  | nil => exact ⟨[], rfl, rfl, by simp⟩
  | cons action rest ih =>
    obtain ⟨e, he⟩ := h action (by simp)
    obtain ⟨more, hmore, hroles, hvalid⟩ := ih fun other hother => h other (by simp [hother])
    refine ⟨e :: more, ?_, by simp [hroles, (journalEntry_spec he).1], fun y hy => ?_⟩
    · rw [journalEntries, he, hmore]
      rfl
    · rcases List.mem_cons.mp hy with rfl | hy
      · exact (journalEntry_built he).spec.1
      · exact hvalid y hy

/-- A file of the layout is never left as it is. -/
theorem Accepted.acts_on_file {r : InstallRoleV1} (h : Accepted d operation found current) (hfile : r.isDirectory = false) :
    ∃ x ∈ found, x.role = r ∧ x.state ≠ .existingPrerequisiteDirectory := by
  have hmem : r ∈ found.map (·.role) := by
    rw [h.roles]
    exact InstallRoleV1.mem_all r
  obtain ⟨x, hx, rfl⟩ := List.mem_map.mp hmem
  refine ⟨x, hx, rfl, fun hstate => ?_⟩
  obtain ⟨observed, -, hseen⟩ := h.seen x hx
  rcases destinationState_some hseen with ⟨heq, -⟩ | ⟨heq, -⟩ | ⟨-, hdir, -⟩ | ⟨heq, -⟩
  · rw [hstate] at heq
    cases heq
  · rw [hstate] at heq
    cases heq
  · rw [hfile] at hdir
    cases hdir
  · rw [hstate] at heq
    cases heq

/-- **The plan has a journal.** -/
theorem prepared_succeeds (h : Supplied p) (haccepted : Accepted d p.operation found current) : ∃ entries prepared,
    journalEntries p current (((InstallPlanner.sortDestinations found).flatMap actionsOf).filter fun action => !action.isVerify) =
      .ok entries ∧ (InstallJournalV1.new (bindingsOf p)).prepare entries = (.ok (), prepared) := by
  rw [filter_actionsOf]
  have hperm : (InstallPlanner.sortDestinations found).Perm found := List.perm_insertionSort _ _
  have hentry : ∀ action ∈ (InstallPlanner.sortDestinations found).filterMap actionOf, ∃ e, journalEntry p current action = .ok e := by
    intro action haction
    obtain ⟨x, hx, hmade⟩ := List.mem_filterMap.mp haction
    refine journalEntry_succeeds h hmade (haccepted.seen x (mem_sortDestinations.mp hx)) fun identity hfile hidentity => ?_
    cases hcurrent : current with
    | none =>
      rw [hcurrent] at hidentity
      cases hidentity
    | some j =>
      rw [hcurrent] at hidentity
      obtain ⟨hvalid, hinstalled, -⟩ := current_some (hcurrent ▸ haccepted.installed)
      exact journalIdentity_file hvalid hinstalled.1 hfile hidentity
  obtain ⟨entries, hentries, hroles, hvalid⟩ := journalEntries_succeeds hentry
  have hnodup : (entries.map (·.role)).Nodup := by
    rw [hroles]
    refine (roles_sublist _).nodup ?_
    rw [(hperm.map _).nodup_iff, haccepted.roles]
    decide
  have hne : entries ≠ [] := by
    intro hnil
    rw [hnil] at hroles
    have hnone : (InstallPlanner.sortDestinations found).filterMap actionOf = [] := by simpa using hroles.symm
    obtain ⟨action, haction, hverify, -⟩ := actsOn_planned.mpr (haccepted.acts_on_file (r := .cli) rfl)
    have hmem : action ∈ ((InstallPlanner.sortDestinations found).flatMap actionsOf).filter fun a => !a.isVerify :=
      List.mem_filter.mpr ⟨haction, by simp [hverify]⟩
    rw [filter_actionsOf, hnone] at hmem
    cases hmem
  have hok := entriesOk_sortEntries hne hvalid hnodup
  refine ⟨entries, (InstallJournalV1.new (bindingsOf p)).moved .prepared (InstallJournalV1.sortEntries entries), hentries, ?_⟩
  rw [InstallJournalV1.prepare, (validateEntries_iff _).mpr hok]
  rfl

end NetworkLoop.Install
