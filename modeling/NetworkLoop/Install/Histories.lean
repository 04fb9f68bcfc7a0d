import NetworkLoop.Install.Transactions
import NetworkLoop.Install.Recovery

/-! What a host goes through.

A history is a list of commands that succeed one after the other, on a host that no
transaction has touched before. There are only four situations (`Situation`): nothing has
happened; the product is installed, with the journals of upgrades that were rolled back
beside its own; it is upgraded; it is gone. Each command that succeeds leads from one of them
to another (`step`), so every history ends in one of them (`History.situation`). -/
namespace NetworkLoop.Install
open Library Program Disk

/-- `rollback` has gone through. -/
def RollsBack (tx : String) (d s : Disk) : Prop :=
  ∃ j j', loadJournalExact d tx = .ok j ∧ Runner.rollbackJournal j none d = .done j' s

inductive Command where
  | apply (p : PreparedSystemInstall)
  | rollback (transactionId : String)

def Command.Succeeds : Command → Disk → Disk → Prop
  | .apply p => Applies p
  | .rollback tx => RollsBack tx

def Command.isApply : Command → Bool
  | .apply _ => true
  | .rollback _ => false

def Command.isUpgrade : Command → Bool
  | .apply p => p.operation = .upgrade
  | .rollback _ => false

/-- The commands, the last one at the end, and where they have led. -/
inductive History (d₀ : Disk) : List Command → Disk → Prop where
  | start : History d₀ [] d₀
  | step {commands : List Command} {command : Command} {d s : Disk} : History d₀ commands d → command.Succeeds d s →
      History d₀ (commands ++ [command]) s

/-- No transaction has ever been here. -/
structure Untouched (d : Disk) : Prop where
  store : d.get InstallRoleV1.transactionsRoot.path = none
  homes : ∀ tx, d.get (bootstrapHome tx) = none

/-- The product is installed; the other transactions of the store have been rolled back. -/
structure Installation (d : Disk) (tx : String) (j : InstallJournalV1) (ids : List String)
    (journals : String → InstallJournalV1) : Prop where
  owned : Owned d j
  recorded : ∃ base, Recorded base tx none (finalHome tx) j d
  store : Store d (tx :: ids) journals
  own : journals tx = j
  finished : ∀ other ∈ ids, (journals other).state = .rolledBack
  homes : ∀ other, d.get (bootstrapHome other) = none

/-- The product is upgraded; rolling that back leads to the installation. -/
structure Upgrade (t : Disk) (tx : String) (j : InstallJournalV1) (ids : List String) (journals : String → InstallJournalV1)
    (tx' : String) (j' : InstallJournalV1) : Prop where
  before : ∃ s, Installation s tx j ids journals ∧ Upgraded s t tx' j j'
  new : tx' ∉ tx :: ids

/-- Every transaction of the store has been rolled back. -/
structure Removed (d : Disk) (ids : List String) (journals : String → InstallJournalV1) : Prop where
  store : Store d ids journals
  finished : ∀ tx ∈ ids, (journals tx).state = .rolledBack
  homes : ∀ tx, d.get (bootstrapHome tx) = none

variable {d d₀ s t u : Disk} {tx tx' : String} {p : PreparedSystemInstall} {j j' : InstallJournalV1} {ids : List String}
  {journals : String → InstallJournalV1} {e : InstallJournalEntryV1}

/-- The four situations of a host: whether it is upgraded, and how many transactions its store holds. -/
inductive Situation (commands : List Command) (d : Disk) : Bool → Nat → Prop where
  | untouched : Untouched d → Situation commands d false 0
  | installed {p : PreparedSystemInstall} {j : InstallJournalV1} {ids : List String} {journals : String → InstallJournalV1} :
      .apply p ∈ commands → FromSource p j → Installation d p.transactionId j ids journals →
      Situation commands d false (ids.length + 1)
  | upgraded {p : PreparedSystemInstall} {j j' : InstallJournalV1} {ids : List String} {journals : String → InstallJournalV1}
      {tx' : String} : .apply p ∈ commands → FromSource p j → Upgrade d p.transactionId j ids journals tx' j' →
      Situation commands d true (ids.length + 2)
  | removed {ids : List String} {journals : String → InstallJournalV1} : Removed d ids journals →
      Situation commands d false ids.length

/-! ### Commands that cannot succeed -/

/-- What has been rolled back is not rolled back again. -/
theorem Runner.stuck_of_rolledBack (h : j.state = .rolledBack) : Runner.Stuck j s := by
  have hnever : Ends (· = s) (Runner.rollbackJournal j) (fun _ _ => False) := by
    refine Ends.bind_never ?_
    unfold Runner.ensureRollingBack
    rw [if_pos (by simp [h])]
    refine Ends.bind_never (Runner.record_ends fun next hok => ?_)
    rw [InstallJournalV1.beginRollback, if_pos (by simp [h])] at hok
    cases hok
  exact fun strike j' s' hrun => hnever strike s j' s' rfl hrun

/-- What is not the object in the journal is not taken back. -/
theorem Runner.undo_stale {step : Nat} {known : InstallObjectIdentityV1} {Q : Unit → Disk → Prop}
    (hret : e.role.isJournalRetentionDirectory = false) (hident : e.currentIdentity = some known) (hstale : Stale t e) :
    Ends (· = t) (Runner.undo (InstallJournalV1.rollbackActionOf e step known)) Q := by
  cases hprior : e.priorState with
  | absent =>
    simp only [InstallJournalV1.rollbackActionOf, hprior, hret, Bool.false_eq_true, if_false, Runner.undo]
    refine Ends.bind_never (Ends.look fun s' parent hs' hok => ?_)
    rw [hs'] at hok
    obtain ⟨observed, hobserved, hrest⟩ := bind_eq_ok.mp hok
    split at hrest
    · cases hrest
    · rename_i hsame
      exact hstale.inspect hident (inspectExact_ok.mp hobserved).2.2 (by rw [not_not.mp hsame])
  | priorOwned identity name =>
    simp only [InstallJournalV1.rollbackActionOf, hprior, Runner.undo]
    refine Ends.bind_never (Ends.look fun s' parent hs' hok => ?_)
    rw [hs'] at hok
    obtain ⟨-, hrest⟩ := bind_unit_eq_ok.mp hok
    obtain ⟨found, hfound, hrest⟩ := bind_eq_ok.mp hrest
    obtain ⟨observed, hobserved, hrest⟩ := bind_eq_ok.mp hrest
    obtain ⟨backup, -, hrest⟩ := bind_eq_ok.mp hrest
    rw [(openRoleParent_ok.mp hfound).1, ← e.role.path_eq] at hobserved
    split at hrest
    · cases hrest
    · rename_i hsame
      exact hstale.inspect hident hobserved (by rw [not_not.mp (not_or.mp hsame).1])

/-- A rollback stops at its first entry if that is stale. -/
theorem Runner.stuck_of_stale {home : Path} {front : List InstallJournalEntryV1} {known : InstallObjectIdentityV1}
    (h : Holds t tx home j) (halone : t.get (home ++ [journalSiblingBasename]) = none) (hstate : j.state = .installed)
    (hpossible : j.rollbackPossible = true) (hstep : j.durableStep + 2 < u64Bound) (hsplit : j.entries = front ++ [e])
    (hret : e.role.isJournalRetentionDirectory = false) (hforce : e.inForce = true) (hident : e.currentIdentity = some known)
    (hstale : Stale t e) : Runner.Stuck j t := by
  have hvalid := (InstallJournalV1.validate_iff j).mp h.readable
  have hbegin := InstallJournalV1.beginRollback_eq (j := j) (by tauto) hpossible (by omega)
  have hrolling := valid_of_ok (o := .beginRollback) hvalid hbegin fun hslip => hslip
  have hnever : Ends (· = t) (Runner.rollbackJournal j) (fun _ _ => False) := by
    unfold rollbackJournal
    refine Ends.bind (Q := fun rolling u => rolling = j.moved .rollingBack j.entries ∧ u.get e.role.path = t.get e.role.path) ?_
      fun rolling => Ends.intro fun u hu => ?_
    · unfold ensureRollingBack
      rw [if_pos (by simp [hstate])]
      refine Ends.bind (Q := fun begun u => begun = j.moved .rollingBack j.entries ∧ u = t) (record_ends fun next hok u hu => ?_)
        fun begun => Ends.intro fun u hu => ?_
      · rw [hbegin] at hok
        cases hok
        exact ⟨rfl, hu⟩
      · obtain ⟨rfl, rfl⟩ := hu
        have hpersist := (Fs.persist_meets (w := .begun) h halone (j := j.moved .rollingBack j.entries) h.bound
          ((InstallJournalV1.validate_iff _).mpr hrolling)).ends
        refine Ends.bind (Q := fun _ v => v.get e.role.path = u.get e.role.path) (Ends.mapError (hpersist.mono (fun _ hv => hv) ?_))
          fun _ => Ends.pure fun v hv => ⟨rfl, hv⟩
        intro _ v hv
        obtain ⟨node, -, hget⟩ := hv
        rw [hget, Function.update_of_ne fun heq => not_private_path e.role (heq ▸ h.toAtHome.private [journalBasename])]
    · obtain ⟨rfl, hpath⟩ := hu
      have hnext := InstallJournalV1.nextRollbackAction_split (j := j.moved .rollingBack j.entries) (e := e) rfl hpossible hsplit
        (fun x hx => by cases hx) hforce (show j.durableStep + 1 + 1 < u64Bound by omega)
      rw [hident, Option.map_some] at hnext
      obtain ⟨n, same, hget, hrest⟩ := hstale
      have hlength : (j.moved .rollingBack j.entries).entries.length = front.length + 1 := by
        show j.entries.length = _
        simp [hsplit]
      rw [hlength]
      refine Ends.bind_never ?_
      rw [loop_some (by rw [hnext]; rfl)]
      exact Ends.bind_never (Ends.bind_never (Ends.mapError (undo_stale hret hident ⟨n, same, by rw [hpath, hget], hrest⟩)))
  exact fun strike j' s' hrun => hnever strike t j' s' rfl hrun

theorem Untouched.not_rollsBack (h : Untouched d) : ¬RollsBack tx d s := by
  intro ⟨j, j', hload, _⟩
  have hclaim : Fs.Unclaimed d tx := ⟨h.homes tx, FileTree.get_under_none h.store (List.prefix_append ..)⟩
  exact Runner.load_of_unclaimed hclaim hload

/-- A store with too many transactions is not read at all. -/
theorem Store.current_error (h : Store d ids journals) (hmany : 128 < ids.length) (current : Option InstallJournalV1) :
    Install.currentInstalledJournal d ≠ .ok current := by
  intro hcurrent
  obtain ⟨names, hnames, -⟩ := bind_eq_ok.mp hcurrent
  rw [inputUnavailable_ok, h.transactionIds, if_pos hmany] at hnames
  cases hnames

theorem quiet_of_rolledBack (h : j.state = .rolledBack) : Quiet d j :=
  ⟨.inl h, fun hno => by have := hno.1; rw [h] at this; cases this⟩

theorem Removed.current (h : Removed d ids journals) {current : Option InstallJournalV1}
    (hcurrent : currentInstalledJournal d = .ok current) : current = none := by
  by_cases hmany : 128 < ids.length
  · exact absurd hcurrent (h.store.current_error hmany current)
  · rw [h.store.current_none (Nat.not_lt.mp hmany) fun tx htx => quiet_of_rolledBack (h.finished tx htx)] at hcurrent
    exact (Except.ok.inj hcurrent).symm

theorem Removed.not_applies (h : Removed d ids journals) : ¬Applies p d s := by
  intro happlies
  obtain ⟨found, current, prepared, j, haccepted, -⟩ := happlies.installed
  obtain rfl := h.current haccepted.installed
  have hop : p.operation = .install := by
    rcases haccepted.admits with ⟨hop, -⟩ | ⟨-, hno⟩
    · exact hop
    · cases hno
  rw [hop] at haccepted
  obtain ⟨info, hget⟩ := (h.store.opened .stateRoot (by decide)).exists_directory
  rw [haccepted.absent rfl] at hget
  cases hget

theorem Removed.not_rollsBack (h : Removed d ids journals) : ¬RollsBack tx d s := by
  intro ⟨j, j', hload, hrun⟩
  obtain ⟨hmem, rfl⟩ := h.store.load_inv (h.homes tx) hload
  exact Runner.stuck_of_rolledBack (h.finished tx hmem) none j' s hrun

/-! ### From one situation to the next -/

theorem directory_of_store : ∀ a : InstallRoleV1, a.path <+: InstallRoleV1.transactionsRoot.path → a.isDirectory = true := by
  decide

theorem Installation.current (h : Installation d tx j ids journals) (hfew : (tx :: ids).length ≤ 128) :
    currentInstalledJournal d = .ok (some j) := by
  have hone := h.store.current_one hfew (List.mem_cons_self ..) (by rw [h.own]; exact h.owned.current) fun other hother hne =>
    quiet_of_rolledBack (h.finished other ((List.mem_cons.mp hother).resolve_left hne))
  rwa [h.own] at hone

theorem Recorded.homes {base : Path → Option Node} (h : Recorded base tx none (finalHome tx) j s)
    (hbase : ∀ other, other ≠ tx → base (bootstrapHome other) = none) (other : String) : s.get (bootstrapHome other) = none := by
  by_cases hother : other = tx
  · rw [hother]
    exact h.toHolds.toAtHome.no_bootstrap
  · rw [h.aside hother (private_bootstrapHome other), hbase other hother]

/-- **An install** of an untouched host. -/
theorem Untouched.applies (h : Untouched d) (happlies : Applies p d s) :
    p.operation = .install ∧ ∃ j journals, FromSource p j ∧ Installation s p.transactionId j [] journals := by
  obtain ⟨found, current, prepared, j, haccepted, hclaim, hplanned, hinstalled⟩ := happlies.installed
  obtain rfl := current_of_absent haccepted.installed h.store
  have hop : p.operation = .install := by
    rcases haccepted.admits with ⟨hop, -⟩ | ⟨-, hno⟩
    · exact hop
    · cases hno
  rw [hop] at haccepted
  have howned := Owned.of_installed haccepted hplanned hinstalled
  have hrec := hinstalled.toRecorded
  rw [homeOf_install haccepted hplanned hinstalled] at hrec
  have hnone : ∀ other, other ≠ p.transactionId → s.get (finalHome other) = none := fun other hne => by
    rw [hrec.aside hne (.inr (List.prefix_refl _))]
    exact FileTree.get_under_none h.store (List.prefix_append ..)
  have hstore := Store.first (fun a ha => howned.stands a (directory_of_store a ha)) hnone hrec.toHolds
  exact ⟨hop, j, _, .of_installed hplanned hinstalled, howned, ⟨_, hrec⟩, hstore, rfl, fun other hother => (by cases hother),
    hrec.homes fun other _ => h.homes other⟩

/-- What an upgrade leaves in the store. -/
theorem Upgrade.store (h : Upgrade t tx j ids journals tx' j') :
    Store t (tx' :: tx :: ids) (Function.update journals tx' j') ∧ ∀ other, t.get (bootstrapHome other) = none := by
  obtain ⟨s, hinst, hup⟩ := h.before
  have hrec := hup.toRecorded
  refine ⟨hinst.store.put (fun a ha => hup.stands (directory_of_store a ha)) (fun other q hne hq => hrec.aside hne hq)
    hrec.toHolds (List.nodup_cons.mpr ⟨h.new, hinst.store.nodup⟩) fun other => List.mem_cons, ?_⟩
  exact hrec.homes fun other _ => hinst.homes other

/-- **An upgrade** of an installation. -/
theorem Installation.applies (h : Installation d tx j ids journals) (happlies : Applies p d s) :
    p.operation = .upgrade ∧ ids.length + 1 ≤ 128 ∧ ∃ j', Upgrade s tx j ids journals p.transactionId j' := by
  obtain ⟨found, current, prepared, j', haccepted, hclaim, hplanned, hinstalled⟩ := happlies.installed
  have hfew : (tx :: ids).length ≤ 128 := by
    by_contra hmany
    exact h.store.current_error (Nat.not_le.mp hmany) current haccepted.installed
  have hcurrent := h.current hfew
  rw [haccepted.installed] at hcurrent
  cases hcurrent
  have hop : p.operation = .upgrade := by
    rcases haccepted.admits with ⟨-, hno⟩ | ⟨hop, -⟩
    · cases hno
    · exact hop
  rw [hop] at haccepted
  refine ⟨hop, hfew, j', ⟨d, h, Upgraded.of_installed h.owned haccepted hplanned hinstalled⟩, fun hmem => ?_⟩
  exact (h.store.children p.transactionId).mp hmem hclaim.2

/-- **A rollback** of the install itself. -/
theorem Installation.rollsBack (h : Installation d tx j ids journals) (hroll : RollsBack tx' d s) :
    ∃ journals', Removed s (tx :: ids) journals' := by
  obtain ⟨found, j', hload, hrun⟩ := hroll
  obtain ⟨hmem, rfl⟩ := h.store.load_inv (h.homes tx') hload
  by_cases hother : tx' = tx
  · rw [hother, h.own] at hrun
    obtain ⟨base, hrec⟩ := h.recorded
    obtain ⟨hrec', hrolled, -⟩ := (Runner.rollback_meets hrec (.inr (.inl h.owned.state))).done rfl hrun
    have haside : ∀ other q, other ≠ tx → Private other q → s.get q = d.get q := fun other q hne hq => by
      rw [hrec'.aside hne hq, hrec.aside hne hq]
    refine ⟨_, h.store.put (fun a ha => hrec'.above a (ha.trans (List.prefix_append ..))) haside hrec'.toHolds h.store.nodup
      fun other => by simp, fun other hmem' => ?_, fun other => ?_⟩
    · by_cases hsame : other = tx
      · rw [hsame, Function.update_self]
        exact hrolled
      · rw [Function.update_of_ne hsame]
        exact h.finished other ((List.mem_cons.mp hmem').resolve_left hsame)
    · by_cases hsame : other = tx
      · rw [hsame]
        exact hrec'.toHolds.toAtHome.no_bootstrap
      · rw [haside other _ hsame (private_bootstrapHome other)]
        exact h.homes other
  · have hover := h.finished tx' ((List.mem_cons.mp hmem).resolve_left hother)
    exact absurd hrun (Runner.stuck_of_rolledBack hover none j' s)

theorem Upgrade.current (h : Upgrade t tx j ids journals tx' j') (hfew : ids.length + 2 ≤ 128) :
    currentInstalledJournal t = .ok (some j') := by
  obtain ⟨s, hinst, hup⟩ := h.before
  have hone := h.store.1.current_one (hfew) (List.mem_cons_self ..)
    (by rw [Function.update_self]; exact hup.current) fun other hother hne => ?_
  · rwa [Function.update_self] at hone
  · rw [Function.update_of_ne hne]
    rcases List.mem_cons.mp ((List.mem_cons.mp hother).resolve_left hne) with rfl | hmem
    · rw [hinst.own]
      exact ⟨.inr hinst.owned.state, hup.not_current⟩
    · exact quiet_of_rolledBack (hinst.finished other hmem)

/-- **No further upgrade** can be planned. -/
theorem Upgrade.foreign (h : Upgrade t tx j ids journals tx' j') (hfew : ids.length + 2 ≤ 128) :
    inspectLayout t .upgrade = .ok (.error giDestinationForeign) := by
  obtain ⟨s, -, hup⟩ := h.before
  rw [inspectLayout, h.current hfew]
  show (inspectEntries t .upgrade (some j') InstallRoleV1.all >>= _) = _
  rw [hup.foreign]
  rfl

theorem Upgrade.not_applies (h : Upgrade t tx j ids journals tx' j') : ¬Applies p t u := by
  intro happlies
  obtain ⟨found, current, prepared, k, haccepted, -⟩ := happlies.installed
  by_cases hfew : ids.length + 2 ≤ 128
  · have hcurrent := h.current hfew
    rw [haccepted.installed] at hcurrent
    cases hcurrent
    rcases haccepted.admits with ⟨-, hno⟩ | ⟨hop, -⟩
    · cases hno
    · rw [hop] at haccepted
      have := (inspectLayout_ok.mpr haccepted).symm.trans (h.foreign hfew)
      cases this
  · exact h.store.1.current_error (Nat.not_le.mp hfew) current haccepted.installed

/-- The last entry of a journal that covers the product is a file's. -/
theorem Owned.last (h : Owned s j) : ∃ front e, j.entries = front ++ [e] ∧ e.role.isDirectory = false := by
  obtain ⟨x, hx, hrole⟩ := h.covers .performanceEvidence rfl
  obtain ⟨front, e, hsplit⟩ := (List.eq_nil_or_concat' j.entries).resolve_left (List.ne_nil_of_mem hx)
  refine ⟨front, e, hsplit, ?_⟩
  have hlast : x.role.installOrder ≤ e.role.installOrder := by
    rw [hsplit] at hx
    rcases List.mem_append.mp hx with hx | hx
    · have hsorted := h.entries.sorted
      rw [hsplit] at hsorted
      exact ((List.pairwise_append.mp hsorted).2.2 x hx e (by simp)).le
    · rw [List.mem_singleton.mp hx]
  rw [hrole, InstallRoleV1.installOrder] at hlast
  simp only [InstallRoleV1.isDirectory, decide_eq_false_iff_not]
  omega

/-- **A rollback of the upgrade** leads back to the installation; no other rollback completes. -/
theorem Upgrade.rollsBack {tx'' : String} (h : Upgrade t tx j ids journals tx' j') (hroll : RollsBack tx'' t u) :
    ∃ journals', Installation u tx j (tx' :: ids) journals' := by
  obtain ⟨found, k, hload, hrun⟩ := hroll
  obtain ⟨hstore, hhomes⟩ := h.store
  obtain ⟨hmem, rfl⟩ := hstore.load_inv (hhomes tx'') hload
  obtain ⟨s, hinst, hup⟩ := h.before
  have hne : tx ≠ tx' := fun heq => h.new (by simp [heq])
  rcases List.mem_cons.mp hmem with rfl | hmem
  · rw [Function.update_self] at hrun
    obtain ⟨hrec, hrolled, hempty, -, hroles⟩ := (Runner.rollback_meets hup.toRecorded (.inr (.inl hup.state))).done rfl hrun
    have hback : ∀ q, ¬Private tx'' q → u.get q = s.get q := by
      intro q hq
      by_cases hkept : ∃ a : InstallRoleV1, a.isJournalRetentionDirectory = true ∧ q = a.path
      · obtain ⟨a, hret, rfl⟩ := hkept
        refine hrec.kept a hret fun x hx heq => ?_
        have hmem : a ∈ j'.entries.map (·.role) := hroles ▸ List.mem_map.mpr ⟨x, hx, heq⟩
        have hfile := (hup.roles a).mp (List.mem_map.mp hmem)
        rw [Runner.isDirectory_of_retention a hret] at hfile
        cases hfile
      · obtain ⟨f, hstack, hagree⟩ := hrec.standing.stacked
        rw [hempty] at hstack
        rw [hagree q ⟨hq, fun a ha heq => hkept ⟨a, ha, heq⟩⟩ (unknown_none q), hstack.nil_inv]
    have howned := hinst.owned.congr (hback _ selinux_visible.1) fun a => hback _ (not_private_path a)
    obtain ⟨base, hrecorded⟩ := hinst.recorded
    refine ⟨Function.update journals tx'' k, howned, hrecorded.rebase hne.symm hback, ?_, ?_, ?_, ?_⟩
    · refine hinst.store.put (fun a ha => howned.stands a (directory_of_store a ha)) (fun other q hother hq => hback q fun hno =>
        hother (private_unique hq hno)) hrec.toHolds ?_ fun other => ?_
      · obtain ⟨hnot, hnodup⟩ := List.nodup_cons.mp hinst.store.nodup
        exact List.nodup_cons.mpr ⟨by simp [hne, hnot], List.nodup_cons.mpr ⟨fun hin => h.new (by simp [hin]), hnodup⟩⟩
      · simp only [List.mem_cons]
        tauto
    · rw [Function.update_of_ne hne, hinst.own]
    · intro other hother
      by_cases hsame : other = tx''
      · rw [hsame, Function.update_self]
        exact hrolled
      · rw [Function.update_of_ne hsame]
        exact hinst.finished other ((List.mem_cons.mp hother).resolve_left hsame)
    · exact hrec.homes fun other _ => hinst.homes other
  · have hold : tx'' ≠ tx' := fun heq => h.new (heq ▸ hmem)
    rw [Function.update_of_ne hold] at hrun
    rcases List.mem_cons.mp hmem with rfl | hmem
    · obtain ⟨front, e, hsplit, hfile⟩ := hinst.owned.last
      obtain ⟨base, hrecorded⟩ := hinst.recorded
      have he : e ∈ j.entries := by simp [hsplit]
      have hstale := hup.stale he hfile
      obtain ⟨n, known, -, hident, -⟩ := hstale
      have hret : e.role.isJournalRetentionDirectory = false := Bool.eq_false_iff.mpr fun hno => by
        rw [Runner.isDirectory_of_retention e.role hno] at hfile
        cases hfile
      have hholds := hstore.holds tx'' (by simp)
      rw [Function.update_of_ne hold, hinst.own] at hholds
      rw [hinst.own] at hrun
      have halone : t.get (finalHome tx'' ++ [journalSiblingBasename]) = none := by
        rw [hup.toRecorded.aside hold (private_finalHome tx'' _), hrecorded.alone]
      have hroom := hrecorded.room
      have hbig : 256 < u64Bound := by decide
      exact absurd hrun (Runner.stuck_of_stale hholds halone hinst.owned.state hrecorded.possible (by omega) hsplit hret
        (by simp [InstallJournalEntryV1.inForce, hinst.owned.verified e he]) hident (hup.stale he hfile) none k u)
    · exact absurd hrun (Runner.stuck_of_rolledBack (hinst.finished tx'' hmem) none k u)

/-! ### Histories -/

/-- **One step.** -/
theorem Situation.step {commands : List Command} {command : Command} {upgraded : Bool} {count : Nat}
    (h : Situation commands d upgraded count) (hstep : command.Succeeds d s) :
    Situation (commands ++ [command]) s command.isUpgrade (count + [command].countP (·.isApply)) := by
  cases command with
  | apply p =>
    have hmem : Command.apply p ∈ commands ++ [.apply p] := by simp
    cases h with
    | untouched hd =>
      obtain ⟨hop, j, journals, hsource, hinst⟩ := hd.applies hstep
      simpa [Command.isUpgrade, Command.isApply, hop] using Situation.installed hmem hsource hinst
    | @installed q j ids journals hq hsource hd =>
      obtain ⟨hop, -, j', hup⟩ := hd.applies hstep
      have hq' : Command.apply q ∈ commands ++ [.apply p] := by simp [hq]
      simpa [Command.isUpgrade, Command.isApply, hop] using Situation.upgraded hq' hsource hup
    | upgraded _ _ hd => exact absurd hstep hd.not_applies
    | removed hd => exact absurd hstep hd.not_applies
  | rollback tx =>
    cases h with
    | untouched hd => exact absurd hstep hd.not_rollsBack
    | installed _ _ hd =>
      obtain ⟨journals', hremoved⟩ := hd.rollsBack hstep
      simpa [Command.isUpgrade, Command.isApply] using Situation.removed hremoved
    | @upgraded q j j' ids journals tx' hq hsource hd =>
      obtain ⟨journals', hinst⟩ := hd.rollsBack hstep
      have hq' : Command.apply q ∈ commands ++ [.rollback tx] := by simp [hq]
      simpa [Command.isUpgrade, Command.isApply] using Situation.installed hq' hsource hinst
    | removed hd => exact absurd hstep hd.not_rollsBack

/-- **Every history ends in one of the four situations**, and its last command decides which. -/
theorem History.situation {commands : List Command} (h : History d₀ commands s) (hd₀ : Untouched d₀) :
    Situation commands s (commands.getLast?.any (·.isUpgrade)) (commands.countP (·.isApply)) := by
  induction h with
  | start => exact .untouched hd₀
  | @step commands command d s _ hstep ih =>
    rw [List.getLast?_concat, List.countP_append]
    exact ih.step hstep

theorem History.nil_inv (h : History d₀ [] s) : s = d₀ := by
  generalize hcommands : ([] : List Command) = commands at h
  cases h with
  | start => rfl
  | step => simp at hcommands

theorem History.last_step {c : List Command} {x : Command} (h : History d₀ (c ++ [x]) s) :
    ∃ d, History d₀ c d ∧ x.Succeeds d s := by
  generalize hcommands : c ++ [x] = all at h
  cases h with
  | start => simp at hcommands
  | step hbefore hstep =>
    obtain ⟨rfl, hlast⟩ := List.append_inj' hcommands rfl
    cases hlast
    exact ⟨_, hbefore, hstep⟩

end NetworkLoop.Install
