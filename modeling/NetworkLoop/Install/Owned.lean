import NetworkLoop.Install.Fresh

/-! What the product owns once it has been installed.

`Owned` is the state that an install leaves: every directory of the layout stands, and every
object of the product is the one in the journal. It is a fact about the disk and one
journal, so it survives whatever else happens elsewhere. An owned disk admits an upgrade
(`Owned.accepted`). What the upgrade leaves is a disk that its own journal describes and the
older one does not (`Upgraded.current`, `Upgraded.not_current`), and on which no journal accounts
for the product's directories any more (`Upgraded.foreign`). -/
namespace NetworkLoop.Install
open Library Program Disk

structure Owned (s : Disk) (j : InstallJournalV1) : Prop where
  selinux : ensureSelinuxIsNotEnforcing s = .ok ()
  stands : ∀ a : InstallRoleV1, a.isDirectory = true → Stands s a
  valid : j.Valid
  state : j.state = .installed
  inPlace : ∀ e ∈ j.entries, InPlace s e
  covers : ∀ r, isStandardPrerequisite r = false → ∃ e ∈ j.entries, e.role = r

variable {d s t : Disk} {p : PreparedSystemInstall} {tx : String} {found : List InstallDestinationSnapshotV1}
  {prior : Option InstallJournalV1} {prepared j j' : InstallJournalV1} {e : InstallJournalEntryV1} {r : InstallRoleV1}

/-! ### Objects in place -/

/-- Looking at an object that is in place. -/
theorem InPlace.inspect (h : InPlace s e) (hselinux : ensureSelinuxIsNotEnforcing s = .ok ()) (hreach : Reach s e.role) :
    ∃ known observed, e.currentIdentity = some known ∧ inspectOptionalExact s e.role = .ok (some observed) ∧
      known.matchesPersistentObject observed = true ∧ (known.kind = .regularFile → observed = known) := by
  obtain ⟨n, known, hget, hident, hseen⟩ := h
  have hkind := inspectNode_kind hseen
  cases n with
  | directory info =>
    obtain ⟨hplain, rfl⟩ := inspectNode_directory hseen
    refine ⟨_, _, hident, inspectOptionalExact_some.mpr (inspectExact_ok.mpr ⟨hselinux, hreach, inspectAt_directory hget hplain⟩), ?_, ?_⟩
    · simp [InstallObjectIdentityV1.matchesPersistentObject]
    · intro hno
      cases hno
  | file | symlink | special =>
    refine ⟨known, known, hident, inspectOptionalExact_some.mpr (inspectExact_ok.mpr ⟨hselinux, hreach, ?_⟩), ?_, fun _ => rfl⟩
    · rw [inspectAt_file hget rfl, hseen]
    · cases hk : known.kind <;> simp [InstallObjectIdentityV1.matchesPersistentObject, hk]

theorem InPlace.matches (h : InPlace s e) (hselinux : ensureSelinuxIsNotEnforcing s = .ok ()) (hreach : Reach s e.role) :
    entryMatches s e = true := by
  obtain ⟨known, observed, hident, hlook, hmatch, -⟩ := h.inspect hselinux hreach
  simp [entryMatches, hident, hlook, hmatch]

theorem journalIdentity_mem (hok : EntriesOk j.entries) (he : e ∈ j.entries) :
    journalIdentity (some j) e.role = e.currentIdentity := by
  obtain ⟨front, rest, hsplit⟩ := List.append_of_mem he
  have hfind : j.entries.find? (·.role == e.role) = some e := InstallJournalV1.find_role_split hsplit hok
  simp [journalIdentity, hfind]

theorem journalIdentity_none (h : ∀ e ∈ j.entries, e.role ≠ r) : journalIdentity (some j) r = none := by
  have hfind : j.entries.find? (·.role == r) = none := List.find?_eq_none.mpr fun e he => by simp [h e he]
  simp [journalIdentity, hfind]

/-- The object of a file is a file. -/
theorem kind_of_inPlace {known : InstallObjectIdentityV1} (hvalid : e.validate = .ok ()) (hphase : e.phase ≠ .pending)
    (hident : e.currentIdentity = some known) (hfile : e.role.isDirectory = false) : known.kind = .regularFile := by
  obtain ⟨same, hsame, -, hintended⟩ := InstallJournalEntryV1.matchesIntended_of_validate hvalid hphase
  rw [hident] at hsame
  cases hsame
  unfold InstallObjectIdentityV1.matchesIntended at hintended
  simp only [Bool.and_eq_true, beq_iff_eq] at hintended
  rw [hintended.1.1.1.1]
  cases hkind : e.intended.kind with
  | regularFile => rfl
  | directory =>
    rw [(entryLayout_of_validate hvalid).kind.mp hkind] at hfile
    cases hfile

/-- Another object has taken the place of the entry's. -/
def Stale (t : Disk) (e : InstallJournalEntryV1) : Prop :=
  ∃ n known, t.get e.role.path = some n ∧ e.currentIdentity = some known ∧ known.inode ≠ n.info.inode

theorem Stale.inspect (h : Stale t e) {known observed : InstallObjectIdentityV1} (hident : e.currentIdentity = some known)
    (hlook : inspectAt t e.role.path = .ok observed) : known.inode ≠ observed.inode := by
  obtain ⟨n, same, hget, hsame, hne⟩ := h
  rw [hident] at hsame
  cases hsame
  simp only [inspectAt, hget] at hlook
  rwa [inspectNode_inode hlook]

theorem Stale.not_matches (h : Stale t e) : entryMatches t e = false := by
  rw [Bool.eq_false_iff]
  intro hmatch
  unfold entryMatches at hmatch
  split at hmatch
  · rename_i known observed hident hlook
    have hne := h.inspect hident (inspectExact_ok.mp (inspectOptionalExact_some.mp hlook)).2.2
    unfold InstallObjectIdentityV1.matchesPersistentObject at hmatch
    simp only [Bool.and_eq_true, beq_iff_eq] at hmatch
    exact hne hmatch.1.1.1.1.2
  · cases hmatch

/-! ### An owned disk -/

section Owned
variable (h : Owned s j)
include h

theorem Owned.entries : EntriesOk j.entries := h.valid.entries (by simp [h.state])

theorem Owned.verified : AllIn .verified j.entries := (InstallJournalV1.progress_of_state h.valid h.state).2.1

theorem Owned.reach (r : InstallRoleV1) : Reach s r := fun a ha => h.stands a (isDirectory_of_above a r ha)

/-- The journal of an owned disk describes it. -/
theorem Owned.current : Current s j :=
  ⟨h.state, List.all_eq_true.mpr fun e he => (h.inPlace e he).matches h.selinux (h.reach e.role)⟩

/-- A file of the product, as it is and as the journal has it. -/
theorem Owned.file (hfile : r.isDirectory = false) :
    ∃ e known, e ∈ j.entries ∧ e.role = r ∧ journalIdentity (some j) r = some known ∧
      inspectOptionalExact s r = .ok (some known) := by
  have hproduct : isStandardPrerequisite r = false := Bool.eq_false_iff.mpr fun hno => by
    rw [standard_directory r hno] at hfile
    cases hfile
  obtain ⟨e, he, rfl⟩ := h.covers r hproduct
  obtain ⟨known, observed, hident, hlook, -, hsame⟩ := (h.inPlace e he).inspect h.selinux (h.reach e.role)
  have hkind := kind_of_inPlace (h.entries.valid e he) (by simp [h.verified e he]) hident hfile
  rw [hsame hkind] at hlook
  exact ⟨e, known, he, rfl, by rw [journalIdentity_mem h.entries he, hident], hlook⟩

end Owned

/-- Ownership is a matter of the layout's own paths. -/
theorem Owned.congr (h : Owned s j) (hselinux : t.get selinuxPath = s.get selinuxPath)
    (hpath : ∀ a : InstallRoleV1, t.get a.path = s.get a.path) : Owned t j where
  selinux := by
    have := h.selinux
    unfold ensureSelinuxIsNotEnforcing at this ⊢
    rwa [hselinux]
  stands := fun a ha => (h.stands a ha).congr (hpath a)
  valid := h.valid
  state := h.state
  inPlace := by
    intro e he
    obtain ⟨n, known, hget, hrest⟩ := h.inPlace e he
    exact ⟨n, known, by rw [hpath, hget], hrest⟩
  covers := h.covers

def ownedState (r : InstallRoleV1) : InstallDestinationStateV1 :=
  if r.isDirectory then .existingPrerequisiteDirectory else .priorOwnedFile

/-- What an upgrade finds on an owned disk. -/
def ownedLayout : List InstallDestinationSnapshotV1 := InstallRoleV1.all.map fun r => ⟨r, ownedState r⟩

theorem Owned.destination (h : Owned s j) (r : InstallRoleV1) :
    ∃ observed, inspectOptionalExact s r = .ok observed ∧ destinationState .upgrade (some j) r observed = some (ownedState r) := by
  cases hdir : r.isDirectory with
  | false =>
    obtain ⟨e, known, -, -, hknown, hlook⟩ := h.file hdir
    refine ⟨_, hlook, ?_⟩
    simp [destinationState, InstallRoleV1.layoutKind, hdir, hknown, ownedState]
  | true =>
    obtain ⟨info, hget, -, -, -, hplain⟩ := h.stands r hdir
    refine ⟨_, inspectOptionalExact_some.mpr (inspectExact_ok.mpr ⟨h.selinux, h.reach r, inspectAt_directory hget hplain⟩), ?_⟩
    by_cases hstandard : isStandardPrerequisite r = true
    · simp [destinationState, InstallRoleV1.layoutKind, hdir, hstandard, ownedState]
    · rw [Bool.not_eq_true] at hstandard
      obtain ⟨e, he, rfl⟩ := h.covers r hstandard
      obtain ⟨known, observed, hident, hlook, hmatch, -⟩ := (h.inPlace e he).inspect h.selinux (h.reach e.role)
      have hsame := inspectOptionalExact_some.mpr
        (inspectExact_ok.mpr ⟨h.selinux, h.reach e.role, inspectAt_directory hget hplain⟩)
      rw [hlook] at hsame
      cases hsame
      simp [destinationState, InstallRoleV1.layoutKind, hdir, hstandard, ownedState, journalIdentity_mem h.entries he, hident,
        hmatch]

/-- **An owned disk admits an upgrade.** -/
theorem Owned.accepted (h : Owned s j) (hinstalled : currentInstalledJournal s = .ok (some j)) :
    Accepted s .upgrade ownedLayout (some j) where
  installed := hinstalled
  admits := .inr ⟨rfl, rfl⟩
  roles := by simp [ownedLayout, Function.comp_def]
  seen := by
    intro x hx
    obtain ⟨r, -, rfl⟩ := List.mem_map.mp hx
    exact h.destination r

/-- There is one answer only. -/
theorem Accepted.unique {operation : InstallOperationV1} {found' : List InstallDestinationSnapshotV1} {prior' : Option InstallJournalV1}
    (h : Accepted d operation found prior) (h' : Accepted d operation found' prior') : found = found' ∧ prior = prior' := by
  have hsame := (inspectLayout_ok.mpr h).symm.trans (inspectLayout_ok.mpr h')
  cases hsame
  exact ⟨rfl, rfl⟩

theorem actsOn_owned : ActsOn ((InstallPlanner.sortDestinations ownedLayout).flatMap actionsOf) r ↔ r.isDirectory = false := by
  rw [actsOn_planned]
  constructor
  · intro ⟨x, hx, hrole, hstate⟩
    obtain ⟨a, -, rfl⟩ := List.mem_map.mp hx
    cases hrole
    by_contra hno
    rw [Bool.not_eq_false] at hno
    simp [ownedState, hno] at hstate
  · intro hr
    exact ⟨⟨r, ownedState r⟩, List.mem_map.mpr ⟨r, InstallRoleV1.mem_all r, rfl⟩, rfl, by simp [ownedState, hr]⟩

/-! ### After an install -/

/-- An install finds nothing of the product. -/
theorem Accepted.absent (h : Accepted d .install found none) (hr : isStandardPrerequisite r = false) : d.get r.path = none := by
  obtain ⟨x, hx, rfl⟩ := h.mem r
  obtain ⟨observed, hobserved, hstate⟩ := h.seen x hx
  rcases destinationState_some hstate with ⟨-, -, rfl⟩ | ⟨-, -, rfl⟩ | ⟨-, -, identity, -, hown⟩ | ⟨-, -, hop, -⟩
  · exact (inspectOptionalExact_none.mp hobserved).2.2
  · exact (inspectOptionalExact_none.mp hobserved).2.2
  · rcases hown with hstandard | hjournal
    · rw [hr] at hstandard
      cases hstandard
    · cases hjournal
  · cases hop

/-- What the plan does not act on is there. -/
theorem there_of_not_acts {operation : InstallOperationV1} (h : Accepted d operation found prior)
    (hr : ¬ActsOn ((InstallPlanner.sortDestinations found).flatMap actionsOf) r) : d.get r.path ≠ none := by
  obtain ⟨x, hx, rfl⟩ := h.mem r
  obtain ⟨observed, hobserved, hstate⟩ := h.seen x hx
  intro hgone
  refine hr (actsOn_planned.mpr ⟨x, hx, rfl, fun hexists => ?_⟩)
  rcases destinationState_some hstate with ⟨hx', -⟩ | ⟨hx', -⟩ | ⟨-, -, identity, rfl, -⟩ | ⟨hx', -⟩
  · rw [hx'] at hexists
    cases hexists
  · rw [hx'] at hexists
    cases hexists
  · have := (inspectExact_ok.mp (inspectOptionalExact_some.mp hobserved)).2.2
    simp [inspectAt, hgone] at this
  · rw [hx'] at hexists
    cases hexists

theorem under_directory : ∀ a : InstallRoleV1, isStandardPrerequisite a = true → ∃ r, InstallRoleV1.Above a r := by
  decide

theorem standard_not_retention : ∀ a : InstallRoleV1, isStandardPrerequisite a = true → a.isJournalRetentionDirectory = false := by
  decide

theorem Runner.Installed.inPlace (h : Runner.Installed d tx prepared j s) : ∀ e ∈ j.entries, InPlace s e := fun e he =>
  h.toRecorded.inPlace (by simp [h.state]) he (by simp [InstallJournalEntryV1.inForce, h.verified e he])

/-- **What an install leaves is owned.** -/
theorem Owned.of_installed (haccepted : Accepted d .install found none)
    (hplanned : Planned p ((InstallPlanner.sortDestinations found).flatMap actionsOf) none prepared)
    (hinstalled : Runner.Installed d tx prepared j s) : Owned s j where
  selinux := hinstalled.standing.selinux
  valid := hinstalled.toRecorded.valid_journal
  state := hinstalled.state
  inPlace := hinstalled.inPlace
  covers := by
    intro r hr
    refine (hplanned.acts_iff hinstalled.origin r).mpr (by_contra fun hno => ?_)
    exact there_of_not_acts haccepted hno (haccepted.absent hr)
  stands := by
    intro a hdir
    by_cases hacts : ActsOn ((InstallPlanner.sortDestinations found).flatMap actionsOf) a
    · obtain ⟨e, he, rfl⟩ := (hplanned.acts_iff hinstalled.origin a).mpr hacts
      have hok : EntriesOk j.entries := hinstalled.toRecorded.valid_journal.entries (by simp [hinstalled.state])
      exact (hinstalled.inPlace e he).stands (hok.valid e he) (by simp [hinstalled.verified e he]) hdir
    · have hthere := there_of_not_acts haccepted hacts
      have hstandard : isStandardPrerequisite a = true := by
        by_contra hno
        exact hthere (haccepted.absent (by simpa using hno))
      obtain ⟨r, hr⟩ := under_directory a hstandard
      have hstands := haccepted.stands hr hthere
      obtain ⟨info, hget⟩ := hstands.exists_directory
      obtain ⟨f, hstack, hagree⟩ := hinstalled.standing.stacked
      refine hstands.congr ?_
      rw [hagree _ (visible_path tx (standard_not_retention a hstandard)) (unknown_none _),
        hstack.keeps hinstalled.standing.named hget]

/-- An install makes the directory for the journals, so its own is published. -/
theorem homeOf_install (haccepted : Accepted d .install found none)
    (hplanned : Planned p ((InstallPlanner.sortDestinations found).flatMap actionsOf) none prepared)
    (hinstalled : Runner.Installed d tx prepared j s) : homeOf d tx j.entries = finalHome tx := by
  obtain ⟨e, he, hrole⟩ := (Owned.of_installed haccepted hplanned hinstalled).covers .transactionsRoot rfl
  have hany : (j.entries.any fun e => e.role = .transactionsRoot && e.phase = .verified) = true :=
    List.any_eq_true.mpr ⟨e, he, by simp [hrole, hinstalled.verified e he]⟩
  simp [homeOf, published, hany]

/-- What a journal has from the source of its transaction. -/
structure FromSource (p : PreparedSystemInstall) (j : InstallJournalV1) : Prop where
  bindings : j.bindings = bindingsOf p
  digests : ∀ e ∈ j.entries, e.role.isDirectory = false → ∃ known digest, e.currentIdentity = some known ∧
    payloadSha256 p e.role = .ok digest ∧ known.sha256 = some digest

theorem FromSource.of_installed {actions : List InstallActionV1} (hplanned : Planned p actions prior prepared)
    (hinstalled : Runner.Installed d tx prepared j s) : FromSource p j where
  bindings := by rw [hinstalled.bindings, hplanned.bindings]
  digests := by
    intro e he hfile
    have hok : EntriesOk j.entries := hinstalled.toRecorded.valid_journal.entries (by simp [hinstalled.state])
    obtain ⟨known, hident, -, hintended⟩ :=
      InstallJournalEntryV1.matchesIntended_of_validate (hok.valid e he) (by simp [hinstalled.verified e he])
    have hmem : blank e ∈ prepared.entries.map blank := hinstalled.origin ▸ List.mem_map_of_mem he
    obtain ⟨x, hx, hblank⟩ := List.mem_map.mp hmem
    have hrole : (blank x).role = (blank e).role := by rw [hblank]
    have hsame : (blank x).intended = (blank e).intended := by rw [hblank]
    change x.role = e.role at hrole
    change x.intended = e.intended at hsame
    obtain ⟨action, -, -, hentry⟩ := hplanned.source x hx
    obtain ⟨haction, -, hmade⟩ := journalEntry_spec hentry
    rw [← haction, hrole, hsame] at hmade
    unfold intendedIdentity InstallRoleV1.layoutKind at hmade
    rw [hfile, if_neg (by simp)] at hmade
    obtain ⟨digest, hdigest, hidentity⟩ := bind_eq_ok.mp hmade
    obtain ⟨-, hret⟩ := bind_unit_eq_ok.mp (discard_ok hidentity)
    refine ⟨known, digest, hident, hdigest, ?_⟩
    unfold InstallObjectIdentityV1.matchesIntended at hintended
    simp only [Bool.and_eq_true, beq_iff_eq] at hintended
    rw [hintended.1.1.1.2, ← Except.ok.inj hret]

/-! ### After an upgrade -/

/-- What an upgrade of an owned disk leaves. -/
structure Upgraded (s t : Disk) (tx : String) (j j' : InstallJournalV1) : Prop extends
    Recorded s.get tx none (finalHome tx) j' t where
  owned : Owned s j
  state : j'.state = .installed
  verified : AllIn .verified j'.entries
  roles : ∀ r, (∃ e ∈ j'.entries, e.role = r) ↔ r.isDirectory = false

theorem homeOf_final (h : (d.get InstallRoleV1.transactionsRoot.path).isSome = true) (entries : List InstallJournalEntryV1) :
    homeOf d tx entries = finalHome tx := by
  simp [homeOf, published, h]

theorem Upgraded.of_installed (howned : Owned s j) (haccepted : Accepted s .upgrade found (some j))
    (hplanned : Planned p ((InstallPlanner.sortDestinations found).flatMap actionsOf) (some j) prepared)
    (hinstalled : Runner.Installed s tx prepared j' t) : Upgraded s t tx j j' := by
  obtain ⟨rfl, -⟩ := haccepted.unique (howned.accepted haccepted.installed)
  obtain ⟨info, hget⟩ := (howned.stands .transactionsRoot rfl).exists_directory
  have hrec := hinstalled.toRecorded
  rw [homeOf_final (by simp [hget])] at hrec
  exact ⟨hrec, howned, hinstalled.state, hinstalled.verified, fun r => (hplanned.acts_iff hinstalled.origin r).trans actsOn_owned⟩

section Upgraded
variable (h : Upgraded s t tx j j')
include h

theorem Upgraded.entries : EntriesOk j'.entries := h.valid_journal.entries (by simp [h.state])

/-- An upgrade leaves the directories alone. -/
theorem Upgraded.directory {a : InstallRoleV1} (hdir : a.isDirectory = true) : t.get a.path = s.get a.path := by
  cases hret : a.isJournalRetentionDirectory with
  | true =>
    refine h.kept a hret fun e he heq => ?_
    have := (h.roles a).mp ⟨e, he, heq⟩
    rw [hdir] at this
    cases this
  | false =>
    obtain ⟨f, hstack, hagree⟩ := h.standing.stacked
    obtain ⟨info, hget⟩ := (h.owned.stands a hdir).exists_directory
    rw [hagree _ (visible_path tx hret) (unknown_none _), hstack.keeps h.standing.named hget]

theorem Upgraded.stands {a : InstallRoleV1} (hdir : a.isDirectory = true) : Stands t a :=
  (h.owned.stands a hdir).congr (h.directory hdir)

theorem Upgraded.reach (r : InstallRoleV1) : Reach t r := fun a ha => h.stands (isDirectory_of_above a r ha)

/-- The upgrade's journal describes the disk. -/
theorem Upgraded.current : Current t j' := by
  refine ⟨h.state, List.all_eq_true.mpr fun e he => ?_⟩
  have hplace : InPlace t e :=
    h.toRecorded.inPlace (by simp [h.state]) he (by simp [InstallJournalEntryV1.inForce, h.verified e he])
  exact hplace.matches h.standing.selinux (h.reach e.role)

/-- The files of the install have been replaced. -/
theorem Upgraded.stale (he : e ∈ j.entries) (hfile : e.role.isDirectory = false) : Stale t e := by
  obtain ⟨e', he', hrole⟩ := (h.roles e.role).mpr hfile
  have hret : e.role.isJournalRetentionDirectory = false := Bool.eq_false_iff.mpr fun hno => by
    rw [Runner.isDirectory_of_retention e.role hno] at hfile
    cases hfile
  obtain ⟨f, hstack, hagree⟩ := h.standing.stacked
  have hmem : settled e' ∈ onOf j'.entries :=
    mem_onOf.mpr ⟨e', he', by simp [InstallJournalEntryV1.inForce, h.verified e' he'], rfl⟩
  have hsame : (settled e').role = e.role := hrole
  obtain ⟨n', -, hget', -, -, hnewer⟩ := hstack.lookup h.standing.named (onOf_roles_ne h.entries) hmem (by rw [hsame]; exact hret)
  rw [hsame] at hget' hnewer
  obtain ⟨n, known, hget, hident, hseen⟩ := h.owned.inPlace e he
  refine ⟨n', known, by rw [hagree _ (visible_path tx hret) (unknown_none _), hget'], hident, ?_⟩
  rw [inspectNode_inode hseen]
  exact (hnewer n hget).ne

/-- The journal of the install does not describe the disk any more. -/
theorem Upgraded.not_current : ¬Current t j := by
  intro hno
  obtain ⟨e, known, he, hrole, -⟩ := h.owned.file (r := .cli) rfl
  have := List.all_eq_true.mp hno.2 e he
  rw [(h.stale he (by rw [hrole]; rfl)).not_matches] at this
  cases this

/-- **No journal accounts for the product's directories any more.** -/
theorem Upgraded.foreign : inspectEntries t .upgrade (some j') InstallRoleV1.all = .ok (.error giDestinationForeign) := by
  have hlook : ∀ a : InstallRoleV1, a.isDirectory = true → ∃ identity, inspectOptionalExact t a = .ok (some identity) := by
    intro a hdir
    obtain ⟨info, hget, -, -, -, hplain⟩ := h.stands hdir
    exact ⟨_, inspectOptionalExact_some.mpr (inspectExact_ok.mpr ⟨h.standing.selinux, h.reach a, inspectAt_directory hget hplain⟩)⟩
  obtain ⟨identity, hforeign⟩ := hlook .productLibexecRoot rfl
  have hunknown : journalIdentity (some j') .productLibexecRoot = none := by
    refine journalIdentity_none fun e he heq => ?_
    have := (h.roles .productLibexecRoot).mp ⟨e, he, heq⟩
    cases this
  have hall : InstallRoleV1.all =
      [.usrRoot, .usrBinRoot, .usrLibRoot, .usrLibexecRoot] ++ .productLibexecRoot :: InstallRoleV1.all.drop 5 := rfl
  rw [hall]
  refine inspectEntries_foreign (fun a ha => ?_) hforeign ?_
  · have hstandard : isStandardPrerequisite a = true := by revert a; decide
    obtain ⟨seen, hseen⟩ := hlook a (standard_directory a hstandard)
    refine ⟨some seen, .existingPrerequisiteDirectory, hseen, ?_⟩
    simp [destinationState, InstallRoleV1.layoutKind, standard_directory a hstandard, hstandard]
  · simp [destinationState, InstallRoleV1.layoutKind, InstallRoleV1.isDirectory, InstallRoleV1.installOrder, hunknown,
      isStandardPrerequisite]

end Upgraded

end NetworkLoop.Install
