import NetworkLoop.Install.Histories

/-! Chains of transactions.

Two things that an operator does with a host: one upgrade after the other, and a new install
after a rollback. Neither goes on. After an upgrade no further one can be planned
(`upgrade_chain_iff`), since the journal of an upgrade has no entries for the directories; after
a rollback no install can (`reinstall_refused`), since the directories that it leaves behind
belong to no journal either. -/
namespace NetworkLoop.Install
open Library Program Disk

variable {d d₀ s t u : Disk} {tx tx' : String} {p : PreparedSystemInstall} {j j' prepared : InstallJournalV1} {ids : List String}
  {journals : String → InstallJournalV1} {q : Path} {found : List InstallDestinationSnapshotV1}

/-! ### Chains of upgrades -/

/-- The latest transaction is the installed one, and whatever upgrade is authorized next can be planned. -/
def Continues (s : Disk) (latest : String) : Prop :=
  ∃ j found, currentInstalledJournal s = .ok (some j) ∧ j.bindings.transactionId = latest ∧
    inspectLayout s .upgrade = .ok (.ok (found, some j)) ∧
    ∀ p : PreparedSystemInstall, p.operation = .upgrade → ∃ plan, InstallPlanner.plan p found none = .ok plan

theorem Installation.continues (h : Installation s tx j ids journals) (hfew : (tx :: ids).length ≤ 128) : Continues s tx := by
  obtain ⟨base, hrec⟩ := h.recorded
  have haccepted := h.owned.accepted (h.current hfew)
  refine ⟨j, ownedLayout, h.current hfew, hrec.bound, inspectLayout_ok.mpr haccepted, fun p hop => ?_⟩
  have hplan : Accepted s p.operation ownedLayout (some j) := by
    rw [hop]
    exact haccepted
  exact ⟨_, plan_succeeds hplan⟩

theorem Upgrade.not_continues (h : Upgrade t tx j ids journals tx' j') (latest : String) : ¬Continues t latest := by
  intro ⟨k, found, hcurrent, _, hlayout, _⟩
  by_cases hfew : ids.length + 2 ≤ 128
  · rw [h.foreign hfew] at hlayout
    cases hlayout
  · exact h.store.1.current_error (Nat.not_le.mp hfew) _ hcurrent

/-- **How far a chain of upgrades goes.** For every list of transactions that `apply_plan` has
applied one after the other on an untouched host: the last one is the installed one and can be
upgraded again if and only if it is the install. -/
theorem upgrade_chain_iff (d₀ s : Disk) (first : PreparedSystemInstall) (rest : List PreparedSystemInstall)
    (hd₀ : Untouched d₀) (h : History d₀ ((first :: rest).map .apply) s) :
    Continues s (rest.getLast?.getD first).transactionId ↔ rest = [] := by
  rcases List.eq_nil_or_concat' rest with rfl | ⟨front, last, rfl⟩
  · obtain ⟨d, hbefore, hstep⟩ := History.last_step (c := []) (by simpa using h)
    obtain rfl := hbefore.nil_inv
    obtain ⟨-, j, journals, -, hinst⟩ := hd₀.applies hstep
    exact iff_of_true (hinst.continues (by simp)) rfl
  · refine iff_of_false ?_ (by simp)
    obtain ⟨d, hbefore, hstep⟩ := History.last_step (c := (first :: front).map .apply) (x := .apply last)
      (by simpa using h)
    have hcount : ((first :: front).map Command.apply).countP (·.isApply) = front.length + 1 := by
      rw [List.countP_eq_length.mpr fun c hc => ?_]
      · simp
      · obtain ⟨p, -, rfl⟩ := List.mem_map.mp hc
        rfl
    obtain ⟨upgraded, count, hnext, hsituation⟩ : ∃ upgraded count, 0 < count ∧
        Situation ((first :: front).map .apply) d upgraded count :=
      ⟨_, _, by omega, hbefore.situation hd₀⟩
    cases hsituation with
    | untouched => cases hnext
    | installed _ _ hd =>
      obtain ⟨-, -, j', hup⟩ := hd.applies hstep
      exact hup.not_continues _
    | upgraded _ _ hd => exact absurd hstep hd.not_applies
    | removed hd => exact absurd hstep hd.not_applies

/-! ### An install and an upgrade -/

/-- A transaction leaves alone what is not its own. -/
theorem Applies.elsewhere (h : Applies p d s) (hq : Visible p.transactionId q) (hnamed : ∀ r, ¬Named p.transactionId r q) :
    s.get q = d.get q := by
  obtain ⟨found, current, prepared, j, -, -, -, hinstalled⟩ := h.installed
  obtain ⟨f, hstack, hagree⟩ := hinstalled.standing.stacked
  rw [hagree q hq (unknown_none q), hstack.other hinstalled.standing.named fun x _ _ => hnamed x.role]

theorem visible_root : Visible tx [] := by
  refine ⟨fun h => ?_, fun a _ heq => ?_⟩
  · rcases h with h | h <;> simp [bootstrapHome, finalHome] at h
  · simp [a.path_eq] at heq

theorem not_named_root (r : InstallRoleV1) : ¬Named tx r [] := by
  intro h
  obtain ⟨name, hname⟩ := h.exists_name
  simp at hname

/-- The names of two transactions differ. -/
theorem basename_ne {a a' b b' : String} (hlength : tx.toList.length = tx'.toList.length) (hne : tx ≠ tx') :
    ".l2-loop-" ++ tx ++ "-" ++ a ++ b ≠ ".l2-loop-" ++ tx' ++ "-" ++ a' ++ b' := by
  intro h
  have hchars := congrArg String.toList h
  simp only [String.toList_append, List.append_assoc] at hchars
  exact hne (String.toList_injective (List.append_inj (List.append_cancel_left hchars) hlength).1)

theorem not_named_other {r r' : InstallRoleV1} (hlength : tx.toList.length = tx'.toList.length) (hne : tx ≠ tx')
    (hq : q = siblingPath tx' r' ∨ q = backupPath tx' r') : ¬Named tx r q := by
  intro hnamed
  rcases hq with rfl | rfl <;> rcases hnamed with heq | heq | heq
  · exact InstallRoleV1.path_ne_dot siblingBasename_head r heq.symm
  · exact basename_ne hlength hne (List.singleton_inj.mp (List.append_inj' heq rfl).2).symm
  · exact basename_ne hlength hne (List.singleton_inj.mp (List.append_inj' heq rfl).2).symm
  · exact InstallRoleV1.path_ne_dot backupBasename_head r heq.symm
  · exact basename_ne hlength hne (List.singleton_inj.mp (List.append_inj' heq rfl).2).symm
  · exact basename_ne hlength hne (List.singleton_inj.mp (List.append_inj' heq rfl).2).symm

/-- The names that a second transaction uses are as free as they were before the first. -/
theorem Applies.namesFree (h : Applies p d s) (hlength : p.transactionId.toList.length = tx'.toList.length)
    (hne : p.transactionId ≠ tx') (hfree : NamesFree d tx') : NamesFree s tx' := by
  intro r hfile
  have hret : r.isJournalRetentionDirectory = false := Bool.eq_false_iff.mpr fun hno => by
    rw [Runner.isDirectory_of_retention r hno] at hfile
    cases hfile
  have hsame : ∀ name, name.toList.head? = some '.' → (r.directory ++ [name] = siblingPath tx' r ∨ r.directory ++ [name] = backupPath tx' r) →
      s.get (r.directory ++ [name]) = d.get (r.directory ++ [name]) := by
    intro name hdot hname
    exact h.elsewhere ⟨not_private_beside hret name, fun a _ heq => InstallRoleV1.path_ne_dot hdot a heq.symm⟩
      fun r' => not_named_other hlength hne hname
  obtain ⟨hsibling, hbackup⟩ := hfree r hfile
  exact ⟨by rw [siblingPath, hsame _ siblingBasename_head (.inl rfl)]; exact hsibling,
    by rw [backupPath, hsame _ backupBasename_head (.inr rfl)]; exact hbackup⟩

/-- **A supplied upgrade of an installation goes through.** -/
theorem Installation.upgrade_done (h : Installation d tx j ids journals) (hfew : (tx :: ids).length ≤ 128)
    (hsupplied : Supplied p) (hop : p.operation = .upgrade) (hroot : ∃ info, d.get [] = some (.directory info))
    (hnew : p.transactionId ∉ tx :: ids) (hnames : NamesFree d p.transactionId) : ∃ s, Applies p d s := by
  have haccepted : Accepted d p.operation ownedLayout (some j) := by
    rw [hop]
    exact h.owned.accepted (h.current hfew)
  obtain ⟨info, hvar⟩ := (h.owned.stands .varLibRoot rfl).exists_directory
  have hclaim : Fs.Unclaimed d p.transactionId :=
    ⟨h.homes _, by_contra fun hthere => hnew ((h.store.children p.transactionId).mpr hthere)⟩
  obtain ⟨prepared, -, hplan, hmeets⟩ := Runner.ready_meets hsupplied haccepted hroot (by simp [hvar]) hclaim hnames
  obtain ⟨_, s, hrun, -⟩ := hmeets.unstruck (fun err at_ t hstop => by obtain ⟨⟨hit, hno⟩, -⟩ := hstop; cases hno) rfl
  rw [← hplan] at hrun
  exact ⟨s, ownedLayout, some j, _, inspectLayout_ok.mpr haccepted, plan_succeeds haccepted, hrun⟩

theorem untouched_sampleHost : Untouched sampleHost :=
  ⟨fresh_sampleHost.product .transactionsRoot rfl, fun _ => sampleHost_dot bootstrapName_head⟩

/-- Another transaction id. -/
def secondId : String := "0123456789abcdef0123456789abcdef"

theorem secondId_valid : isLowerHex secondId 32 = true := by
  decide

theorem secondId_length : (sampleHex 32).toList.length = secondId.toList.length := by
  rw [sampleHex, String.toList_ofList, List.length_replicate]
  decide

theorem sampleHex_ne_secondId : sampleHex 32 ≠ secondId := by
  intro h
  have hhead := congrArg (fun text : String => text.toList.head?) h
  simp [sampleHex, secondId] at hhead

theorem sampleInstall_done : ∃ s, Applies (sampleSource .install (sampleHex 32)) sampleHost s := by
  obtain ⟨s, happlies, -⟩ := fresh_sampleHost.install_done (p := sampleSource .install (sampleHex 32))
    (supplied_sampleSource (sampleHex_valid 32)) rfl (sampleHost_dot bootstrapName_head) (namesFree_sampleHost _)
  exact ⟨s, happlies⟩

/-- An upgrade of the installed sample host. -/
theorem sampleUpgrade_done (happlies : Applies (sampleSource .install (sampleHex 32)) sampleHost s) :
    ∃ t, Applies (sampleSource .upgrade secondId) s t := by
  obtain ⟨-, j, journals, -, hinst⟩ := untouched_sampleHost.applies happlies
  obtain ⟨info, hroot⟩ := fresh_sampleHost.root
  refine hinst.upgrade_done (by simp) (supplied_sampleSource secondId_valid) rfl ⟨info, ?_⟩ ?_ ?_
  · rw [happlies.elsewhere visible_root not_named_root, hroot]
  · intro hmem
    exact sampleHex_ne_secondId (List.mem_singleton.mp hmem).symm
  · exact happlies.namesFree secondId_length sampleHex_ne_secondId (namesFree_sampleHost _)

/-- An install and one upgrade: the next upgrade is refused at a directory of the product. -/
theorem second_upgrade_foreign :
    ∃ t, History sampleHost [.apply (sampleSource .install (sampleHex 32)), .apply (sampleSource .upgrade secondId)] t ∧
      inspectLayout t .upgrade = .ok (.error giDestinationForeign) ∧ ¬Continues t secondId := by
  obtain ⟨s, hfirst⟩ := sampleInstall_done
  obtain ⟨t, hsecond⟩ := sampleUpgrade_done hfirst
  obtain ⟨-, j, journals, -, hinst⟩ := untouched_sampleHost.applies hfirst
  obtain ⟨-, -, j', hup⟩ := hinst.applies hsecond
  have hhistory : History sampleHost ([.apply (sampleSource .install (sampleHex 32))] ++ [.apply (sampleSource .upgrade secondId)]) t :=
    .step (.step .start hfirst) hsecond
  exact ⟨t, hhistory, hup.foreign (by simp), hup.not_continues _⟩

/-- The install alone can be upgraded. -/
theorem upgrade_chain_install :
    ∃ s, History sampleHost ([sampleSource .install (sampleHex 32)].map .apply) s ∧ Continues s (sampleHex 32) := by
  obtain ⟨s, hfirst⟩ := sampleInstall_done
  have hhistory : History sampleHost ([sampleSource .install (sampleHex 32)].map .apply) s :=
    @History.step _ [] _ _ _ .start hfirst
  exact ⟨s, hhistory, (upgrade_chain_iff sampleHost s (sampleSource .install (sampleHex 32)) [] untouched_sampleHost hhistory).mpr rfl⟩

/-! ### Install, rollback, install -/

/-- The roles before the first directory that a rollback leaves behind. -/
def beforeState : List InstallRoleV1 :=
  [.usrRoot, .usrBinRoot, .usrLibRoot, .usrLibexecRoot, .productLibexecRoot, .usrLibSystemdRoot, .systemdUnitRoot, .usrShareRoot,
    .usrShareDocRoot, .productDocRoot, .etcRoot, .configRoot, .varRoot, .varLibRoot]

theorem beforeState_kept : ∀ r ∈ beforeState, r.isJournalRetentionDirectory = false ∧
    ∀ a, InstallRoleV1.Above a r → a.isJournalRetentionDirectory = false := by
  decide

/-- The paths of the layout are as they were before the transaction, but for the directories that stay. -/
theorem Recorded.back {base : Path → Option Node} {home : Path} (h : Recorded base tx none home j s) (hempty : onOf j.entries = [])
    {a : InstallRoleV1} (ha : a.isJournalRetentionDirectory = false) : s.get a.path = base a.path := by
  obtain ⟨f, hstack, hagree⟩ := h.standing.stacked
  rw [hempty] at hstack
  rw [hagree _ (visible_path tx ha) (unknown_none _), hstack.nil_inv]

/-- A role on the way to the state directory looks to an install as it did at first. -/
theorem seen_again (haccepted : Accepted d .install found none) (hselinux : ensureSelinuxIsNotEnforcing s = .ok ())
    (hback : ∀ a : InstallRoleV1, a.isJournalRetentionDirectory = false → s.get a.path = d.get a.path) {r : InstallRoleV1}
    (hr : r ∈ beforeState) :
    ∃ seen state, inspectOptionalExact s r = .ok seen ∧ destinationState .install none r seen = some state := by
  obtain ⟨hret, hway⟩ := beforeState_kept r hr
  have hclear := (haccepted.clear r).2
  by_cases hthere : d.get r.path = none
  · refine ⟨none, if r.isDirectory then .absentDirectory else .absentFile, inspectOptionalExact_none.mpr ⟨hselinux, ?_, ?_⟩, ?_⟩
    · intro a ha
      rcases hclear a ha with hnone | hstands
      · exact .inl (by rw [hback a (hway a ha), hnone])
      · exact .inr (hstands.congr (hback a (hway a ha)))
    · rw [hback r hret, hthere]
    · cases hdir : r.isDirectory <;> simp [destinationState, InstallRoleV1.layoutKind, hdir]
  · have hstandard : isStandardPrerequisite r = true := by
      by_contra hno
      exact hthere (haccepted.absent (by simpa using hno))
    have hreach : Reach s r := fun a ha => by
      rcases hclear a ha with hnone | hstands
      · exact absurd (FileTree.get_under_none hnone ha.1) hthere
      · exact hstands.congr (hback a (hway a ha))
    obtain ⟨x, hx⟩ := under_directory r hstandard
    obtain ⟨info, hget, -, -, -, hplain⟩ := (haccepted.stands hx hthere).congr (hback r hret)
    refine ⟨_, .existingPrerequisiteDirectory,
      inspectOptionalExact_some.mpr (inspectExact_ok.mpr ⟨hselinux, hreach, inspectAt_directory hget hplain⟩), ?_⟩
    simp [destinationState, InstallRoleV1.layoutKind, standard_directory r hstandard, hstandard]

/-- Once an install has been rolled back, its own directory is in the way of the next one. -/
theorem foreign_after_rollback (haccepted : Accepted d .install found none)
    (hrec : Recorded d.get tx none (finalHome tx) j s) (hrolled : j.state = .rolledBack) (hempty : onOf j.entries = []) :
    inspectLayout s .install = .ok (.error giDestinationForeign) := by
  have hopened : ∀ a : InstallRoleV1, a.path <+: InstallRoleV1.transactionsRoot.path → Stands s a := fun a ha =>
    hrec.above a (ha.trans (List.prefix_append ..))
  have hnone : ∀ other, other ≠ tx → s.get (finalHome other) = none := fun other hne => by
    rw [hrec.aside hne (.inr (List.prefix_refl _))]
    exact FileTree.get_under_none (haccepted.absent rfl) (List.prefix_append ..)
  have hcurrent := (Store.first hopened hnone hrec.toHolds).current_none (by simp) fun _ _ => quiet_of_rolledBack hrolled
  have hreach : Reach s .stateRoot := fun a ha => hopened a (ha.1.trans (by decide))
  obtain ⟨info, hget, -, -, -, hplain⟩ := hopened .stateRoot (by decide)
  have hforeign := inspectOptionalExact_some.mpr
    (inspectExact_ok.mpr ⟨hrec.standing.selinux, hreach, inspectAt_directory hget hplain⟩)
  have hentries : inspectEntries s .install none (beforeState ++ .stateRoot :: InstallRoleV1.all.drop 15) =
      .ok (.error giDestinationForeign) := by
    refine inspectEntries_foreign (fun a ha => ?_) hforeign ?_
    · exact seen_again haccepted hrec.standing.selinux (fun a ha => hrec.back hempty ha) ha
    · simp [destinationState, InstallRoleV1.layoutKind, InstallRoleV1.isDirectory, InstallRoleV1.installOrder, journalIdentity,
        isStandardPrerequisite]
  rw [inspectLayout, hcurrent]
  show (inspectEntries s .install none (beforeState ++ .stateRoot :: InstallRoleV1.all.drop 15) >>= _) = _
  rw [hentries]
  rfl

/-- An install that has gone through, with its journal among the transactions. -/
theorem Applies.of_install (h : Applies p d s) (hop : p.operation = .install) : ∃ found j, Accepted d .install found none ∧
    Recorded d.get p.transactionId none (finalHome p.transactionId) j s ∧ j.state = .installed := by
  obtain ⟨found, current, prepared, j, haccepted, -, hplanned, hinstalled⟩ := h.installed
  rw [hop] at haccepted
  obtain rfl : current = none := by
    rcases haccepted.admits with ⟨-, hnone⟩ | ⟨hno, -⟩
    · exact hnone
    · cases hno
  have hrec := hinstalled.toRecorded
  rw [homeOf_install haccepted hplanned hinstalled] at hrec
  exact ⟨found, j, haccepted, hrec, hinstalled.state⟩

/-- **No install after a rollback.** Whatever the host was like on which an install was applied and
then rolled back: the next install finds an object that it takes for foreign. -/
theorem reinstall_refused (p : PreparedSystemInstall) (d s s' : Disk) (hop : p.operation = .install) (happlies : Applies p d s)
    (hrollsBack : RollsBack p.transactionId s s') : inspectLayout s' .install = .ok (.error giDestinationForeign) := by
  obtain ⟨found, j, haccepted, hrec, hstate⟩ := happlies.of_install hop
  obtain ⟨j', k, hload, hrun⟩ := hrollsBack
  rw [hrec.load] at hload
  cases hload
  obtain ⟨hrec', hrolled, hempty, -⟩ := (Runner.rollback_meets hrec (.inr (.inl hstate))).done rfl hrun
  exact foreign_after_rollback haccepted hrec' hrolled hempty

/-- An install that has gone through can be rolled back. -/
theorem Applies.rolledBack (h : Applies p d s) (hop : p.operation = .install) : ∃ s' j, RollsBack p.transactionId s s' ∧
    Recorded d.get p.transactionId none (finalHome p.transactionId) j s' ∧ j.state = .rolledBack ∧ onOf j.entries = [] := by
  obtain ⟨found, j, -, hrec, hstate⟩ := h.of_install hop
  obtain ⟨j', s', hrun, hrec', hrolled, hempty⟩ := Runner.rollback_done hrec (.inr (.inl hstate)) Runner.not_blocked_none
  exact ⟨s', j', ⟨j, j', hrec.load, hrun⟩, hrec', hrolled, hempty⟩

/-- The sample host takes an install, and after the rollback of it no other. -/
theorem reinstall_foreign :
    ∃ s s', inspectLayout sampleHost .install = .ok (.ok (freshLayout, none)) ∧
      Applies (sampleSource .install (sampleHex 32)) sampleHost s ∧ RollsBack (sampleHex 32) s s' ∧
      inspectLayout s' .install = .ok (.error giDestinationForeign) := by
  obtain ⟨s, happlies⟩ := sampleInstall_done
  obtain ⟨s', j, hrollsBack, hrec, hrolled, hempty⟩ := happlies.rolledBack rfl
  exact ⟨s, s', inspectLayout_ok.mpr fresh_sampleHost.accepted, happlies, hrollsBack,
    foreign_after_rollback fresh_sampleHost.accepted hrec hrolled hempty⟩

theorem reinstall_refused_sampleHost :
    ∃ s s', Applies (sampleSource .install (sampleHex 32)) sampleHost s ∧ RollsBack (sampleHex 32) s s' ∧
      inspectLayout s' .install = .ok (.error giDestinationForeign) := by
  obtain ⟨s, happlies⟩ := sampleInstall_done
  obtain ⟨s', j, hrollsBack, -⟩ := happlies.rolledBack rfl
  exact ⟨s, s', happlies, hrollsBack,
    reinstall_refused (sampleSource .install (sampleHex 32)) sampleHost s s' rfl happlies hrollsBack⟩

end NetworkLoop.Install
