import NetworkLoop.Install.Chains

/-! The other reader of the transaction store (`deployment_fs.rs`).

The deployment checker asks the store on its own which transaction owns the installed files.
Its loop differs from the installer's in one thing: an installed journal that does not
describe the disk, or a second one, is an error to it and not a journal to pass over.
Whatever it reports is what the installer reports, too (`ownership_current`); the other
direction is a matter of the history (`readers_agree_iff`). -/
namespace NetworkLoop.Install
open Library Program Disk

/-- `DeploymentIoError`, as far as the checks of the ownership return it. -/
inductive DeploymentIoError where
  | unavailable
  deriving DecidableEq, Repr

structure InstalledOwnershipSnapshotV1 where
  transactionId : String
  authorizationId : String
  artifact : DeploymentArtifactIdentityV1
  deriving DecidableEq, Repr

def InstalledOwnershipSnapshotV1.new (transactionId authorizationId : String) (artifact : DeploymentArtifactIdentityV1) :
    Except DeploymentIoError InstalledOwnershipSnapshotV1 :=
  if !isLowerHex transactionId 32 || !isLowerHex authorizationId 32 || !artifact.isValid then .error .unavailable
  else .ok ⟨transactionId, authorizationId, artifact⟩

/-- The loop over the entries of one journal. -/
def checkOwnedEntries (d : Disk) : List InstallJournalEntryV1 → Except DeploymentIoError Unit
  | [] => .ok ()
  | entry :: rest =>
    match entry.currentIdentity, inspectOptionalExact d entry.role with
    | some expected, .ok (some observed) =>
      if !expected.matchesPersistentObject observed then .error .unavailable else checkOwnedEntries d rest
    | _, _ => .error .unavailable

/-- `journal_entry_sha256`: the digest of the only entry for a role. -/
def journalEntrySha256 (journal : InstallJournalV1) (role : InstallRoleV1) : Option String :=
  match journal.entries.filter (·.role = role) with
  | [entry] => entry.currentIdentity.bind (·.sha256)
  | _ => none

/-- The digests of the three documents are those of the journal's own entries. -/
def digestsBound (journal : InstallJournalV1) : Bool :=
  journalEntrySha256 journal .bundleManifest = some journal.bindings.bundleManifestSha256 &&
    journalEntrySha256 journal .deploymentAuthorization = some journal.bindings.deploymentAuthorizationSha256 &&
    journalEntrySha256 journal .performanceEvidence = some journal.bindings.performanceEvidenceSha256

/-- The loop of `inspect_installed_ownership`. -/
def ownershipFrom (d : Disk) (expectedArtifact : DeploymentArtifactIdentityV1) :
    Option InstalledOwnershipSnapshotV1 → List String → Except DeploymentIoError (Option InstalledOwnershipSnapshotV1)
  | installed, [] => .ok installed
  | installed, transactionId :: rest =>
    (loadJournalExact d transactionId).mapError (fun _ => DeploymentIoError.unavailable) >>= fun journal =>
      match journal.state with
      | .rolledBack => ownershipFrom d expectedArtifact installed rest
      | .installed =>
        if journal.bindings.artifact ≠ expectedArtifact ∨ installed.isSome then .error .unavailable
        else
          checkOwnedEntries d journal.entries >>= fun _ =>
            if !digestsBound journal then .error .unavailable
            else
              InstalledOwnershipSnapshotV1.new journal.bindings.transactionId journal.bindings.authorizationId
                journal.bindings.artifact >>= fun snapshot => ownershipFrom d expectedArtifact (some snapshot) rest
      | _ => .error .unavailable

def inspectInstalledOwnership (d : Disk) (expectedArtifact : DeploymentArtifactIdentityV1) :
    Except DeploymentIoError InstalledOwnershipSnapshotV1 :=
  (transactionIds d).mapError (fun _ => DeploymentIoError.unavailable) >>= fun ids =>
    ownershipFrom d expectedArtifact none ids >>= fun installed => installed.elim (.error .unavailable) .ok

/-- What one reader reports, so does the other. -/
def ReadersAgree (s : Disk) : Prop :=
  ∀ artifact,
    (∀ j, currentInstalledJournal s = .ok (some j) → j.bindings.artifact = artifact →
      ∃ snapshot, inspectInstalledOwnership s artifact = .ok snapshot ∧
        snapshot.transactionId = j.bindings.transactionId ∧ snapshot.artifact = artifact) ∧
    ∀ snapshot, inspectInstalledOwnership s artifact = .ok snapshot →
      ∃ j, currentInstalledJournal s = .ok (some j) ∧ j.bindings.transactionId = snapshot.transactionId

variable {d d₀ s t : Disk} {tx tx' : String} {p : PreparedSystemInstall} {j j' : InstallJournalV1} {ids front rest : List String}
  {journals : String → InstallJournalV1} {artifact : DeploymentArtifactIdentityV1} {e : InstallJournalEntryV1}
  {installed : Option InstalledOwnershipSnapshotV1} {current : Option InstallJournalV1}

/-! ### One journal -/

theorem mapError_eq_ok {ε ε' α : Type} {x : Except ε α} {f : ε → ε'} {a : α} : x.mapError f = .ok a ↔ x = .ok a := by
  cases x with
  | error err => exact ⟨fun h => (by cases h), fun h => by cases h⟩
  | ok b => exact ⟨fun h => (by cases h; rfl), fun h => by cases h; rfl⟩

/-- Both readers ask the same of an entry. -/
theorem checkOwnedEntries_ok {entries : List InstallJournalEntryV1} :
    checkOwnedEntries d entries = .ok () ↔ entries.all (entryMatches d) = true := by
  induction entries with
  | nil => exact iff_of_true rfl rfl
  | cons e rest ih =>
    rw [checkOwnedEntries, List.all_cons, entryMatches, Bool.and_eq_true, ← ih]
    cases e.currentIdentity with
    | none => simp
    | some expected =>
      cases inspectOptionalExact d e.role with
      | error err => simp
      | ok found =>
        cases found with
        | none => simp
        | some observed => cases hmatch : expected.matchesPersistentObject observed <;> simp [hmatch]

/-- What the loop does with a journal. -/
theorem ownershipFrom_cons (h : loadJournalExact d tx = .ok j) :
    ownershipFrom d artifact installed (tx :: rest) =
      match j.state with
      | .rolledBack => ownershipFrom d artifact installed rest
      | .installed =>
        if j.bindings.artifact ≠ artifact ∨ installed.isSome then .error .unavailable
        else
          checkOwnedEntries d j.entries >>= fun _ =>
            if !digestsBound j then .error .unavailable
            else
              InstalledOwnershipSnapshotV1.new j.bindings.transactionId j.bindings.authorizationId j.bindings.artifact >>=
                fun snapshot => ownershipFrom d artifact (some snapshot) rest
      | _ => .error .unavailable := by
  rw [ownershipFrom, h]
  rfl

/-- A journal that the loop has got past. -/
theorem ownershipFrom_inv {result : Option InstalledOwnershipSnapshotV1}
    (h : ownershipFrom d artifact installed (tx :: rest) = .ok result) :
    ∃ j, loadJournalExact d tx = .ok j ∧
      ((j.state = .rolledBack ∧ ownershipFrom d artifact installed rest = .ok result) ∨
        (Current d j ∧ j.bindings.artifact = artifact ∧ installed = none ∧
          ownershipFrom d artifact (some ⟨j.bindings.transactionId, j.bindings.authorizationId, j.bindings.artifact⟩) rest =
            .ok result)) := by
  obtain ⟨j, hload, -⟩ := bind_eq_ok.mp h
  rw [mapError_eq_ok] at hload
  rw [ownershipFrom_cons hload] at h
  refine ⟨j, hload, ?_⟩
  cases hstate : j.state with
  | rolledBack =>
    rw [hstate] at h
    exact .inl ⟨rfl, h⟩
  | installed =>
    simp only [hstate] at h
    split at h
    · cases h
    · rename_i hno
      obtain ⟨hartifact, hnone⟩ := not_or.mp hno
      obtain ⟨hcheck, hrest⟩ := bind_unit_eq_ok.mp h
      split at hrest
      · cases hrest
      · obtain ⟨snapshot, hnew, hlater⟩ := bind_eq_ok.mp hrest
        unfold InstalledOwnershipSnapshotV1.new at hnew
        split at hnew
        · cases hnew
        · cases hnew
          exact .inr ⟨⟨hstate, checkOwnedEntries_ok.mp hcheck⟩, not_not.mp hartifact, by simpa using hnone, hlater⟩
  | planned | prepared | applying | failed | rollingBack =>
    rw [hstate] at h
    cases h

/-! ### The two loops -/

/-- What the readers have found so far. -/
def Found (installed : Option InstalledOwnershipSnapshotV1) (current : Option InstallJournalV1) : Prop :=
  installed = current.map fun j => ⟨j.bindings.transactionId, j.bindings.authorizationId, j.bindings.artifact⟩

/-- The installer's loop follows the checker's. -/
theorem ownershipFrom_current {c : Option InstallJournalV1} {result : Option InstalledOwnershipSnapshotV1} (hfound : Found installed c)
    (h : ownershipFrom d artifact installed ids = .ok result) :
    ∃ current', currentInstalledFrom d c ids = .ok current' ∧ Found result current' := by
  induction ids generalizing installed c with
  | nil =>
    cases h
    exact ⟨c, rfl, hfound⟩
  | cons tx rest ih =>
    obtain ⟨j, hload, hcases⟩ := ownershipFrom_inv h
    rw [currentInstalledFrom_cons hload]
    rcases hcases with ⟨hstate, hlater⟩ | ⟨hcurrent, -, hnone, hlater⟩
    · simp only [hstate]
      exact ih hfound hlater
    · have hfree : c = none := by
        rw [hnone] at hfound
        cases c with
        | none => rfl
        | some j => cases hfound
      simp only [hcurrent.1, hcurrent.2, hfree, if_true]
      exact ih rfl hlater

/-- The checker passes over no installed journal. -/
theorem ownershipFrom_all {result : Option InstalledOwnershipSnapshotV1} (h : ownershipFrom d artifact installed ids = .ok result)
    (htx : tx ∈ ids) (hload : loadJournalExact d tx = .ok j) (hstate : j.state = .installed) : Current d j := by
  induction ids generalizing installed with
  | nil => cases htx
  | cons first rest ih =>
    obtain ⟨found, hfound, hcases⟩ := ownershipFrom_inv h
    rcases List.mem_cons.mp htx with rfl | hmem
    · rw [hload] at hfound
      cases hfound
      rcases hcases with ⟨hrolled, -⟩ | ⟨hcurrent, -⟩
      · rw [hstate] at hrolled
        cases hrolled
      · exact hcurrent
    · rcases hcases with ⟨-, hlater⟩ | ⟨-, -, -, hlater⟩
      · exact ih hlater hmem
      · exact ih hlater hmem

/-- **What the checker reports, the installer reports.** On every disk. -/
theorem ownership_current {snapshot : InstalledOwnershipSnapshotV1} (h : inspectInstalledOwnership d artifact = .ok snapshot) :
    ∃ j, currentInstalledJournal d = .ok (some j) ∧ j.bindings.transactionId = snapshot.transactionId := by
  obtain ⟨ids, hids, hrest⟩ := bind_eq_ok.mp h
  obtain ⟨result, hresult, hret⟩ := bind_eq_ok.mp hrest
  cases result with
  | none => cases hret
  | some found =>
    cases hret
    obtain ⟨current, hcurrent, hfound⟩ := ownershipFrom_current (c := none) rfl hresult
    cases current with
    | none => cases hfound
    | some j =>
      cases hfound
      refine ⟨j, ?_, rfl⟩
      rw [currentInstalledJournal, mapError_eq_ok.mp hids]
      exact hcurrent

/-! ### One installed journal in the store -/

theorem ownershipFrom_over (h : ∀ tx ∈ front, ∃ j, loadJournalExact d tx = .ok j ∧ j.state = .rolledBack) :
    ownershipFrom d artifact installed (front ++ rest) = ownershipFrom d artifact installed rest := by
  induction front with
  | nil => rfl
  | cons tx front ih =>
    obtain ⟨j, hload, hstate⟩ := h tx (by simp)
    rw [List.cons_append, ownershipFrom_cons hload, hstate]
    exact ih fun other hother => h other (by simp [hother])

theorem filter_role (hok : EntriesOk j.entries) (he : e ∈ j.entries) : j.entries.filter (·.role = e.role) = [e] := by
  obtain ⟨front, rest, hsplit⟩ := List.append_of_mem he
  have hsorted := hok.sorted
  rw [hsplit] at hsorted ⊢
  obtain ⟨-, hrest, hfront⟩ := List.pairwise_append.mp hsorted
  have hbefore : front.filter (·.role = e.role) = [] := List.filter_eq_nil_iff.mpr fun x hx => by
    have hlt := hfront x hx e (by simp)
    simp only [decide_eq_true_eq]
    intro heq
    rw [heq] at hlt
    exact Nat.lt_irrefl _ hlt
  have hafter : rest.filter (·.role = e.role) = [] := List.filter_eq_nil_iff.mpr fun x hx => by
    have hlt := List.rel_of_pairwise_cons hrest hx
    simp only [decide_eq_true_eq]
    intro heq
    rw [heq] at hlt
    exact Nat.lt_irrefl _ hlt
  rw [List.filter_append, hbefore, List.filter_cons_of_pos (by simp), hafter]
  rfl

theorem FromSource.entrySha256 (h : FromSource p j) (howned : Owned d j) {r : InstallRoleV1} (hfile : r.isDirectory = false)
    {x : String} (hpayload : payloadSha256 p r = .ok x) : journalEntrySha256 j r = some x := by
  obtain ⟨e, known, he, rfl, -⟩ := howned.file hfile
  obtain ⟨identity, same, hident, hsame, hdigest⟩ := h.digests e he hfile
  rw [hpayload] at hsame
  cases hsame
  rw [journalEntrySha256, filter_role howned.entries he]
  simp [hident, hdigest]

/-- The journal of an install binds the documents that it has put in place. -/
theorem FromSource.digestsBound (h : FromSource p j) (howned : Owned d j)
    (hsame : p.bundleFiles "manifest.json" = some p.bundleManifestSha256) : digestsBound j = true := by
  have hmanifest : payloadSha256 p .bundleManifest = .ok p.bundleManifestSha256 := by
    simp [payloadSha256, InstallRoleV1.layoutSource, hsame]
  unfold Install.digestsBound
  rw [h.entrySha256 howned rfl hmanifest,
    h.entrySha256 (r := .deploymentAuthorization) (x := p.deploymentAuthorizationSha256) howned rfl rfl,
    h.entrySha256 (r := .performanceEvidence) (x := p.performanceEvidenceSha256) howned rfl rfl, h.bindings]
  simp [bindingsOf]

theorem new_of_valid (hvalid : j.bindings.validate = .ok ()) :
    InstalledOwnershipSnapshotV1.new j.bindings.transactionId j.bindings.authorizationId j.bindings.artifact =
      .ok ⟨j.bindings.transactionId, j.bindings.authorizationId, j.bindings.artifact⟩ := by
  unfold InstallJournalBindingsV1.validate at hvalid
  split at hvalid
  · cases hvalid
  · rename_i hno
    simp only [Bool.or_eq_true, Bool.not_eq_true', not_or, Bool.not_eq_false] at hno
    simp [InstalledOwnershipSnapshotV1.new, hno.1.1.1.1.1.1, hno.1.1.1.1.1.2, hno.2]

/-- The checker finds the install. -/
theorem Installation.ownership (h : Installation d tx j ids journals) (hsource : FromSource p j)
    (hsame : p.bundleFiles "manifest.json" = some p.bundleManifestSha256) (hfew : (tx :: ids).length ≤ 128) :
    inspectInstalledOwnership d j.bindings.artifact =
      .ok ⟨j.bindings.transactionId, j.bindings.authorizationId, j.bindings.artifact⟩ := by
  have hmem : tx ∈ (d.children InstallRoleV1.transactionsRoot.path).insertionSort (· ≤ ·) := h.store.mem_sorted.mpr (by simp)
  have hnodup : ((d.children InstallRoleV1.transactionsRoot.path).insertionSort (· ≤ ·)).Nodup :=
    (List.perm_insertionSort _ _).nodup_iff.mpr FileTree.children_nodup
  obtain ⟨front, rest, hsplit⟩ := List.append_of_mem hmem
  have hothers : ∀ other ∈ front ++ rest, ∃ k, loadJournalExact d other = .ok k ∧ k.state = .rolledBack := by
    intro other hother
    have hin : other ∈ tx :: ids := h.store.mem_sorted.mp (by rw [hsplit]; simp at hother ⊢; tauto)
    have hne : other ≠ tx := fun heq => by
      rw [hsplit, List.nodup_middle, List.nodup_cons, heq.symm] at hnodup
      exact hnodup.1 hother
    exact ⟨journals other, (h.store.holds other hin).load, h.finished other ((List.mem_cons.mp hin).resolve_left hne)⟩
  have hload : loadJournalExact d tx = .ok j := by
    rw [(h.store.holds tx (by simp)).load, h.own]
  have hfrom : ownershipFrom d j.bindings.artifact none ((d.children InstallRoleV1.transactionsRoot.path).insertionSort (· ≤ ·)) =
      .ok (some ⟨j.bindings.transactionId, j.bindings.authorizationId, j.bindings.artifact⟩) := by
    rw [hsplit, ownershipFrom_over fun other hother => hothers other (by simp [hother]), ownershipFrom_cons hload]
    simp only [h.owned.state, checkOwnedEntries_ok.mpr h.owned.current.2, hsource.digestsBound h.owned hsame,
      new_of_valid h.owned.valid.bindings, ne_eq, not_true_eq_false, Option.isSome_none, Bool.false_eq_true, or_self, if_false,
      Bool.not_true]
    show ownershipFrom d j.bindings.artifact (some _) rest = _
    rw [← List.append_nil rest, ownershipFrom_over fun other hother => hothers other (by simp [hother])]
    rfl
  rw [inspectInstalledOwnership, h.store.transactionIds, if_neg (Nat.not_lt.mpr hfew)]
  show (ownershipFrom d j.bindings.artifact none _ >>= _) = _
  rw [hfrom]
  rfl

/-! ### Histories -/

theorem agree_of_not_current (h : ∀ j, currentInstalledJournal s ≠ .ok (some j)) : ReadersAgree s := fun _ =>
  ⟨fun j hj => absurd hj (h j), fun _ => ownership_current⟩

theorem Store.agree_of_many (h : Store s ids journals) (hmany : 128 < ids.length) : ReadersAgree s :=
  agree_of_not_current fun j => h.current_error hmany (some j)

theorem Installation.agree (h : Installation s tx j ids journals) (hsource : FromSource p j)
    (hsame : p.bundleFiles "manifest.json" = some p.bundleManifestSha256) : ReadersAgree s := by
  by_cases hfew : (tx :: ids).length ≤ 128
  · intro artifact
    refine ⟨fun k hk hartifact => ?_, fun _ => ownership_current⟩
    rw [h.current hfew] at hk
    cases hk
    rw [← hartifact]
    exact ⟨_, h.ownership hsource hsame hfew, rfl, rfl⟩
  · exact h.store.agree_of_many (Nat.not_le.mp hfew)

/-- The journal of the install is still installed, and no longer describes the disk: only one reader minds. -/
theorem Upgrade.disagree (h : Upgrade t tx j ids journals tx' j') (hfew : ids.length + 2 ≤ 128) : ¬ReadersAgree t := by
  intro hagree
  obtain ⟨snapshot, hown, -⟩ := (hagree j'.bindings.artifact).1 j' (h.current hfew) rfl
  obtain ⟨s, hinst, hup⟩ := h.before
  obtain ⟨hstore, -⟩ := h.store
  obtain ⟨names, hnames, hrest⟩ := bind_eq_ok.mp hown
  obtain ⟨result, hresult, -⟩ := bind_eq_ok.mp hrest
  have hroom : ¬128 < (tx' :: tx :: ids).length := Nat.not_lt.mpr hfew
  rw [mapError_eq_ok, hstore.transactionIds, if_neg hroom] at hnames
  cases hnames
  have hne : tx ≠ tx' := fun heq => h.new (by simp [heq])
  have hload := (hstore.holds tx (by simp)).load
  rw [Function.update_of_ne hne, hinst.own] at hload
  exact hup.not_current (ownershipFrom_all hresult (hstore.mem_sorted.mpr (by simp)) hload hinst.owned.state)

/-- **When the two readers agree.** For every history of installs, upgrades and rollbacks on an
untouched host: they agree on what is installed if and only if the last command was not an
upgrade, or there are more transactions than either of them reads. -/
theorem readers_agree_iff (d₀ s : Disk) (commands : List Command) (hd₀ : Untouched d₀) (h : History d₀ commands s)
    (hsame : ∀ p, .apply p ∈ commands → p.bundleFiles "manifest.json" = some p.bundleManifestSha256) :
    ReadersAgree s ↔ commands.getLast?.any (·.isUpgrade) = false ∨ 128 < commands.countP (·.isApply) := by
  have hsituation := h.situation hd₀
  generalize commands.getLast?.any (·.isUpgrade) = upgraded at hsituation ⊢
  generalize commands.countP (·.isApply) = count at hsituation ⊢
  cases hsituation with
  | untouched hs =>
    refine iff_of_true (agree_of_not_current fun j hj => ?_) (.inl rfl)
    cases current_of_absent hj hs.store
  | installed hp hsource hs => exact iff_of_true (hs.agree hsource (hsame _ hp)) (.inl rfl)
  | @upgraded p j j' ids journals tx' _ _ hs =>
    by_cases hfew : ids.length + 2 ≤ 128
    · exact iff_of_false (hs.disagree hfew) (by simp; omega)
    · exact iff_of_true (hs.store.1.agree_of_many (Nat.not_le.mp hfew)) (.inr (by omega))
  | removed hs =>
    refine iff_of_true (agree_of_not_current fun j hj => ?_) (.inl rfl)
    cases hs.current hj

/-- After an install and an upgrade, the installer reports the upgrade and the checker nothing. -/
theorem readers_disagree_after_upgrade :
    ∃ t j, History sampleHost [.apply (sampleSource .install (sampleHex 32)), .apply (sampleSource .upgrade secondId)] t ∧
      currentInstalledJournal t = .ok (some j) ∧ j.bindings.transactionId = secondId ∧ ¬ReadersAgree t := by
  obtain ⟨s, hfirst⟩ := sampleInstall_done
  obtain ⟨t, hsecond⟩ := sampleUpgrade_done hfirst
  obtain ⟨-, j, journals, -, hinst⟩ := untouched_sampleHost.applies hfirst
  obtain ⟨-, -, j', hup⟩ := hinst.applies hsecond
  have hhistory : History sampleHost ([.apply (sampleSource .install (sampleHex 32))] ++ [.apply (sampleSource .upgrade secondId)]) t :=
    .step (.step .start hfirst) hsecond
  obtain ⟨s', -, hrec⟩ := hup.before
  exact ⟨t, j', hhistory, hup.current (by simp), hrec.bound, hup.disagree (by simp)⟩

/-- After the install alone they agree. -/
theorem readers_agree_install :
    ∃ s, History sampleHost [.apply (sampleSource .install (sampleHex 32))] s ∧ ReadersAgree s := by
  obtain ⟨s, hfirst⟩ := sampleInstall_done
  have hhistory : History sampleHost [.apply (sampleSource .install (sampleHex 32))] s :=
    @History.step _ [] _ _ _ .start hfirst
  refine ⟨s, hhistory, (readers_agree_iff sampleHost s _ untouched_sampleHost hhistory fun p hp => ?_).mpr (.inl rfl)⟩
  cases List.mem_singleton.mp hp
  rfl

end NetworkLoop.Install
