import NetworkLoop.Install.Ready

/-! Hosts on which the product has never been.

A fresh host has the directories that every host has and nothing of the product. Its layout
is accepted for an install (`Fresh.accepted`), so a supplied install goes through
(`Fresh.install_done`), and the first object that it makes is the product's directory under
`/usr/libexec` (`Fresh.first_entry`). `sampleHost` is such a host. -/
namespace NetworkLoop.Install
open Library Program Disk

structure Fresh (d : Disk) : Prop where
  root : ∃ info, d.get [] = some (.directory info)
  selinux : ensureSelinuxIsNotEnforcing d = .ok ()
  standard : ∀ r, isStandardPrerequisite r = true → Stands d r
  product : ∀ r, isStandardPrerequisite r = false → d.get r.path = none

/-- The state of a role's object on a fresh host. -/
def freshState (r : InstallRoleV1) : InstallDestinationStateV1 :=
  if isStandardPrerequisite r then .existingPrerequisiteDirectory
  else if r.isDirectory then .absentDirectory
  else .absentFile

def freshLayout : List InstallDestinationSnapshotV1 := InstallRoleV1.all.map fun r => ⟨r, freshState r⟩

/-- The plan of an install on a fresh host. -/
def freshActions : List InstallActionV1 := (InstallPlanner.sortDestinations freshLayout).flatMap actionsOf

variable {d s : Disk} {p : PreparedSystemInstall} {prepared : InstallJournalV1}

theorem standard_above : ∀ a r : InstallRoleV1, InstallRoleV1.Above a r → isStandardPrerequisite r = true →
    isStandardPrerequisite a = true := by
  decide

theorem standard_directory : ∀ r : InstallRoleV1, isStandardPrerequisite r = true → r.isDirectory = true := by
  decide

theorem Fresh.clear (h : Fresh d) (r : InstallRoleV1) : Clear d r := by
  intro a _
  by_cases ha : isStandardPrerequisite a = true
  · exact .inr (h.standard a ha)
  · exact .inl (h.product a (by simpa using ha))

theorem Fresh.current (h : Fresh d) : currentInstalledJournal d = .ok none := by
  obtain ⟨opened, hopen⟩ := (openStaticDirectoryOptional_ok (d := d) (List.prefix_refl InstallRoleV1.transactionsRoot.path)).mpr
    fun a _ => by
      by_cases ha : isStandardPrerequisite a = true
      · exact .inr (h.standard a ha)
      · exact .inl (h.product a (by simpa using ha))
  have hnone : opened = none := by
    cases opened with
    | none => rfl
    | some directory =>
      obtain ⟨-, habove⟩ := (openStaticDirectoryOptional_some (List.prefix_refl _)).mp hopen
      obtain ⟨info, hget⟩ := (habove .transactionsRoot (List.prefix_refl _)).exists_directory
      rw [h.product .transactionsRoot rfl] at hget
      cases hget
  rw [currentInstalledJournal, transactionIds, hopen, hnone]
  rfl

/-- **A fresh host is accepted for an install.** -/
theorem Fresh.accepted (h : Fresh d) : Accepted d .install freshLayout none where
  installed := h.current
  admits := .inl ⟨rfl, rfl⟩
  roles := by simp [freshLayout, Function.comp_def]
  seen := by
    intro x hx
    obtain ⟨r, -, rfl⟩ := List.mem_map.mp hx
    by_cases hr : isStandardPrerequisite r = true
    · obtain ⟨info, hget, -, -, -, hplain⟩ := h.standard r hr
      have hreach : Reach d r := fun a ha => h.standard a (standard_above a r ha hr)
      refine ⟨_, inspectOptionalExact_some.mpr (inspectExact_ok.mpr ⟨h.selinux, hreach, inspectAt_directory hget hplain⟩), ?_⟩
      simp [destinationState, InstallRoleV1.layoutKind, standard_directory r hr, hr, freshState]
    · rw [Bool.not_eq_true] at hr
      refine ⟨none, inspectOptionalExact_none.mpr ⟨h.selinux, h.clear r, h.product r hr⟩, ?_⟩
      cases hdir : r.isDirectory <;>
        simp [destinationState, InstallRoleV1.layoutKind, hdir, hr, freshState]

theorem actsOn_fresh {r : InstallRoleV1} : ActsOn freshActions r ↔ isStandardPrerequisite r = false := by
  unfold freshActions
  rw [actsOn_planned]
  constructor
  · intro ⟨x, hx, hrole, hstate⟩
    obtain ⟨a, -, rfl⟩ := List.mem_map.mp hx
    cases hrole
    by_contra hno
    rw [Bool.not_eq_false] at hno
    simp [freshState, hno] at hstate
  · intro hr
    refine ⟨⟨r, freshState r⟩, List.mem_map.mpr ⟨r, InstallRoleV1.mem_all r, rfl⟩, rfl, ?_⟩
    cases hdir : r.isDirectory <;> simp [freshState, hr, hdir]

theorem Fresh.unclaimed (h : Fresh d) {tx : String} (hboot : d.get (bootstrapHome tx) = none) : Fs.Unclaimed d tx :=
  ⟨hboot, FileTree.get_under_none (h.product .transactionsRoot rfl) (List.prefix_append ..)⟩

/-- An install on a fresh host refuses nothing. -/
theorem Fresh.install_meets (h : Fresh d) (hsupplied : Supplied p) (hop : p.operation = .install)
    (hboot : d.get (bootstrapHome p.transactionId) = none) (hnames : NamesFree d p.transactionId) :
    ∃ prepared, Planned p freshActions none prepared ∧
      Runner.applyPlan p freshActions none = Runner.applyPrepared p prepared ∧
      Meets (· = d) (Runner.applyPrepared p prepared) (fun _ s => ∃ j, Runner.Installed d p.transactionId prepared j s)
        (fun cause site s => (∃ hit, cause = .fault hit) ∧ ApplyStop d p.transactionId prepared cause site s) := by
  have haccepted : Accepted d p.operation freshLayout none := by
    rw [hop]
    exact h.accepted
  obtain ⟨info, hvar⟩ := (h.standard .varLibRoot rfl).exists_directory
  exact Runner.ready_meets hsupplied haccepted h.root (by simp [hvar]) (h.unclaimed hboot) hnames

/-- **A supplied install on a fresh host goes through.** -/
theorem Fresh.install_done (h : Fresh d) (hsupplied : Supplied p) (hop : p.operation = .install)
    (hboot : d.get (bootstrapHome p.transactionId) = none) (hnames : NamesFree d p.transactionId) :
    ∃ s, Applies p d s ∧ Runner.applyPlan p freshActions none none d = .done () s := by
  have haccepted : Accepted d p.operation freshLayout none := by
    rw [hop]
    exact h.accepted
  obtain ⟨prepared, -, hplan, hmeets⟩ := h.install_meets hsupplied hop hboot hnames
  obtain ⟨_, s, hrun, -⟩ := hmeets.unstruck (fun err at_ t hstop => by obtain ⟨⟨hit, hno⟩, -⟩ := hstop; cases hno) rfl
  rw [← hplan] at hrun
  exact ⟨s, ⟨freshLayout, none, _, inspectLayout_ok.mpr haccepted, plan_succeeds haccepted, hrun⟩, hrun⟩

theorem productLibexecRoot_first : ∀ r : InstallRoleV1, isStandardPrerequisite r = false →
    InstallRoleV1.productLibexecRoot.installOrder ≤ r.installOrder := by
  decide

/-- The first entry of an install on a fresh host. -/
theorem first_entry (h : Planned p freshActions none prepared) :
    ∃ e rest, prepared.entries = e :: rest ∧ e.role = .productLibexecRoot ∧ e.intended.kind = .directory := by
  have hok : EntriesOk prepared.entries := h.valid.entries (by simp [h.state])
  obtain ⟨x, hx, hrole⟩ := (h.acts_iff rfl .productLibexecRoot).mpr (actsOn_fresh.mpr rfl)
  cases hentries : prepared.entries with
  | nil => exact absurd hentries hok.nonempty
  | cons e rest =>
    rw [hentries] at hx hok
    have he : e.role = .productLibexecRoot := by
      rcases List.mem_cons.mp hx with rfl | hx
      · exact hrole
      · have hlt := List.rel_of_pairwise_cons hok.sorted hx
        have hproduct := actsOn_fresh.mp ((h.acts_iff rfl e.role).mp ⟨e, by simp [hentries], rfl⟩)
        have hle := productLibexecRoot_first e.role hproduct
        rw [hrole] at hlt
        omega
    refine ⟨e, rest, rfl, he, ?_⟩
    rw [(entryLayout_of_validate (hok.valid e (by simp))).kind, he]
    rfl

/-! ### A host -/

/-- The number of a directory, and all else as the layout has it for the directories of a host. -/
def hostInfo (number : Nat) : Metadata :=
  ⟨1, number + 1, 0o755, 0, 0, true, by decide, Nat.succ_ne_zero _, by decide⟩

def directoryTable (paths : List Path) : List (Sigma fun _ : Path => Node) :=
  paths.zipIdx.map fun entry => ⟨entry.1, .directory (hostInfo entry.2)⟩

theorem keys_directoryTable (paths : List Path) : (directoryTable paths).keys = paths := by
  simp [directoryTable, List.keys, Function.comp_def]

section Directories
variable {paths : List Path} (hnodup : paths.Nodup)
include hnodup

theorem nodupKeys_directoryTable : (directoryTable paths).NodupKeys := by
  rw [List.NodupKeys, keys_directoryTable]
  exact hnodup

theorem lookup_directoryTable {q : Path} {n : Node}
    (h : (AList.mk (directoryTable paths) (nodupKeys_directoryTable hnodup)).lookup q = some n) :
    q ∈ paths ∧ ∃ number, n = .directory (hostInfo number) := by
  have hmem : (⟨q, n⟩ : Sigma fun _ : Path => Node) ∈ directoryTable paths := AList.mem_lookup_iff.mp h
  obtain ⟨⟨q', number⟩, hentry, heq⟩ := List.mem_map.mp hmem
  cases heq
  exact ⟨List.fst_mem_of_mem_zipIdx hentry, number, rfl⟩

theorem lookup_directoryTable_isSome {q : Path} (h : q ∈ paths) :
    ∃ number, (AList.mk (directoryTable paths) (nodupKeys_directoryTable hnodup)).lookup q = some (.directory (hostInfo number)) := by
  have hkey : q ∈ AList.mk (directoryTable paths) (nodupKeys_directoryTable hnodup) := by
    rw [AList.mem_keys, AList.keys, keys_directoryTable]
    exact h
  obtain ⟨n, hn⟩ := Option.isSome_iff_exists.mp (AList.lookup_isSome.mpr hkey)
  obtain ⟨-, number, rfl⟩ := lookup_directoryTable hnodup hn
  exact ⟨number, hn⟩

/-- A disk of directories and nothing else. -/
def directories (hclosed : ∀ q ∈ paths, q.dropLast ∈ paths) : Disk where
  table := ⟨directoryTable paths, nodupKeys_directoryTable hnodup⟩
  closed := by
    intro q name n h
    have hq : q ∈ paths := by
      have := hclosed _ (lookup_directoryTable hnodup h).1
      rwa [List.dropLast_concat] at this
    obtain ⟨number, hget⟩ := lookup_directoryTable_isSome hnodup hq
    rw [hget]
    rfl

end Directories

def hostPaths : List Path := [] :: (InstallRoleV1.all.filter isStandardPrerequisite).map InstallRoleV1.path

theorem nodup_hostPaths : hostPaths.Nodup := by
  decide

theorem closed_hostPaths : ∀ q ∈ hostPaths, q.dropLast ∈ hostPaths := by
  decide

/-- A host with nothing but the directories that every host has. -/
def sampleHost : Disk := directories nodup_hostPaths closed_hostPaths

theorem sampleHost_get {q : Path} {n : Node} (h : sampleHost.get q = some n) :
    q = [] ∨ ∃ r, isStandardPrerequisite r = true ∧ q = r.path := by
  obtain ⟨hq, -⟩ := lookup_directoryTable nodup_hostPaths h
  rcases List.mem_cons.mp hq with rfl | hq
  · exact .inl rfl
  · obtain ⟨r, hr, rfl⟩ := List.mem_map.mp hq
    exact .inr ⟨r, (List.mem_filter.mp hr).2, rfl⟩

theorem sampleHost_free {q : Path} (hroot : q ≠ []) (h : ∀ r : InstallRoleV1, q ≠ r.path) : sampleHost.get q = none := by
  cases hget : sampleHost.get q with
  | none => rfl
  | some n =>
    rcases sampleHost_get hget with hno | ⟨r, -, hr⟩
    · exact absurd hno hroot
    · exact absurd hr (h r)

theorem standard_mode : ∀ r : InstallRoleV1, isStandardPrerequisite r = true → r.expectedMode = 0o755 := by
  decide

theorem fresh_sampleHost : Fresh sampleHost where
  root := by
    obtain ⟨number, hget⟩ := lookup_directoryTable_isSome nodup_hostPaths (List.mem_cons_self ..)
    exact ⟨_, hget⟩
  selinux := by
    have hfree : sampleHost.get selinuxPath = none :=
      sampleHost_free (by decide) fun r heq => @not_named_selinux "" r (.inl heq)
    simp [ensureSelinuxIsNotEnforcing, hfree]
  standard := by
    intro r hr
    have hmem : r.path ∈ hostPaths :=
      List.mem_cons_of_mem _ (List.mem_map.mpr ⟨r, List.mem_filter.mpr ⟨InstallRoleV1.mem_all r, hr⟩, rfl⟩)
    obtain ⟨number, hget⟩ := lookup_directoryTable_isSome nodup_hostPaths hmem
    exact ⟨_, hget, rfl, rfl, (standard_mode r hr).symm, rfl⟩
  product := by
    intro r hr
    cases hget : sampleHost.get r.path with
    | none => rfl
    | some n =>
      rcases sampleHost_get hget with hno | ⟨a, ha, heq⟩
      · simp [r.path_eq] at hno
      · rw [InstallRoleV1.path_injective heq, ha] at hr
        cases hr

theorem sampleHost_dot {q : Path} {name : String} (hname : name.toList.head? = some '.') : sampleHost.get (q ++ [name]) = none :=
  sampleHost_free (by simp) fun r heq => InstallRoleV1.path_ne_dot hname r heq.symm

theorem namesFree_sampleHost (tx : String) : NamesFree sampleHost tx := fun _ _ =>
  ⟨sampleHost_dot siblingBasename_head, sampleHost_dot backupBasename_head⟩

def sampleDigest : Digest := ⟨sampleHex 64, sampleHex_valid 64⟩

/-- A source with the same text for every digest. -/
def sampleSource (operation : InstallOperationV1) (transactionId : String) : PreparedSystemInstall where
  transactionId := transactionId
  authorizationId := sampleHex 32
  operation := operation
  hostIdentitySha256 := sampleHex 64
  artifact := ⟨sampleHex 40, "1.0.0"⟩
  bundleManifestSha256 := sampleHex 64
  deploymentAuthorizationSha256 := sampleHex 64
  performanceEvidenceSha256 := sampleHex 64
  bundleFiles := fun _ => some (sampleHex 64)
  payloads := fun _ => some (.blob sampleDigest)

theorem supplied_sampleSource {o : InstallOperationV1} {tx : String} (htx : isLowerHex tx 32 = true) :
    Supplied (sampleSource o tx) where
  bindings := by
    have hvalid := sampleBindings_valid
    unfold InstallJournalBindingsV1.validate at hvalid ⊢
    simp only [sampleBindings, sampleHex_valid, Bool.not_true, Bool.false_or] at hvalid
    simp only [bindingsOf, sampleSource, sampleHex_valid, htx, Bool.not_true, Bool.false_or]
    exact hvalid
  payloads := by
    intro r hr
    refine ⟨sampleDigest, rfl, ?_⟩
    have hsource : r.layoutSource ≠ .none := fun hno => by
      rw [(layoutSource_none r).mp hno] at hr
      cases hr
    unfold payloadSha256
    split
    · rfl
    · rfl
    · rfl
    · rename_i hno
      exact absurd hno hsource

end NetworkLoop.Install
