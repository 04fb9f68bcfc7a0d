import NetworkLoop.Install.Fresh

/-! Interrupted transactions.

Two questions about a stop of `apply_plan` or of `rollback_journal`, wherever it is. Does a
rollback that completes give back the paths of the transaction (`rollback_restores_iff`)?
And is there such a rollback (`interrupted_recovers_iff`)? The answer to both is in the
aftermath of the stop. An object without a record stays where it is, unless it keeps the
rollback from completing; and a journal whose own update was cut off is lost. -/
namespace NetworkLoop.Install
open Library Program Disk

/-- The three paths of every role are as they were, except for the directories that stay. -/
def Restored (tx : String) (d₀ s : Disk) : Prop :=
  ∀ r : InstallRoleV1, r.isJournalRetentionDirectory = false → s.get r.path = d₀.get r.path ∧
    s.get (siblingPath tx r) = d₀.get (siblingPath tx r) ∧ s.get (backupPath tx r) = d₀.get (backupPath tx r)

/-- The object of the role lies in a directory that the plan makes and that a rollback removes. -/
def InCreatedDirectory (actions : List InstallActionV1) (r : InstallRoleV1) : Prop :=
  ∃ b : InstallRoleV1, b.isJournalRetentionDirectory = false ∧ b.path = r.directory ∧ ActsOn actions b

instance (actions : List InstallActionV1) (r : InstallRoleV1) : Decidable (InCreatedDirectory actions r) :=
  inferInstanceAs (Decidable (∃ _ : InstallRoleV1, _))

/-- What can still be rolled back. -/
def Aftermath.Recoverable (actions : List InstallActionV1) : Aftermath → Prop
  | .clean => True
  | .lost => False
  | .orphan r => ¬InCreatedDirectory actions r

/-- The journal on disk is rolled back, or a rollback of it completes. -/
def Recovers (tx : String) (s : Disk) : Prop :=
  ∃ j, loadJournalExact s tx = .ok j ∧
    (j.state = .rolledBack ∨ ∃ j' s', Runner.rollbackJournal j none s = .done j' s' ∧
      loadJournalExact s' tx = .ok j' ∧ j'.state = .rolledBack)

/-- `plan`, `apply` and `status` refuse, since all of them ask for the installed journal first, and no
rollback of the transaction completes. -/
def Refuses (tx : String) (s : Disk) : Prop :=
  (∃ err, currentInstalledJournal s = .error err) ∧ Runner.Lost tx s

variable {p : PreparedSystemInstall} {actions : List InstallActionV1} {prior : Option InstallJournalV1}
  {d₀ s : Disk} {tx : String} {left : Option InstallRoleV1} {home : Path} {prepared j : InstallJournalV1} {r : InstallRoleV1}

theorem restored_iff : Restored tx d₀ s ↔
    ∀ r : InstallRoleV1, r.isJournalRetentionDirectory = false → ∀ q, Named tx r q → s.get q = d₀.get q := by
  constructor
  · intro h r hr q hq
    obtain ⟨hpath, hsibling, hbackup⟩ := h r hr
    rcases hq with rfl | rfl | rfl
    · exact hpath
    · exact hsibling
    · exact hbackup
  · intro h r hr
    exact ⟨h r hr _ (.inl rfl), h r hr _ (.inr (.inl rfl)), h r hr _ (.inr (.inr rfl))⟩

/-- With no entry in force, only what the journal missed is different. -/
theorem Recorded.restored (h : Recorded d₀.get tx left home j s) (hempty : onOf j.entries = [])
    (hr : r.isJournalRetentionDirectory = false) {q : Path} (hq : Named tx r q) (hknown : ¬unknown tx left q) :
    s.get q = d₀.get q := by
  obtain ⟨f, hstack, hagree⟩ := h.standing.stacked
  rw [hempty] at hstack
  rw [hagree q (hq.visible hr) hknown, hstack.nil_inv]

/-- The missed object is in the way of the rollback. -/
theorem blocked_iff (hplanned : Planned p actions prior prepared) (horigin : j.entries.map blank = prepared.entries.map blank)
    (hall : ∀ e ∈ j.entries, e.role.installOrder < r.installOrder → e.inForce = true) :
    Blocked (some r) j.entries ↔ InCreatedDirectory actions r := by
  constructor
  · intro ⟨r', hr', x, hx, hret, hpath⟩
    obtain rfl := Option.mem_some.mp hr'
    obtain ⟨y, hy, -, rfl⟩ := mem_onOf.mp hx
    exact ⟨y.role, hret, hpath, (hplanned.acts_iff horigin y.role).mp ⟨y, hy, rfl⟩⟩
  · intro ⟨b, hret, hpath, hacts⟩
    obtain ⟨y, hy, rfl⟩ := (hplanned.acts_iff horigin b).mpr hacts
    have habove : InstallRoleV1.Above y.role r :=
      InstallRoleV1.above_iff_directory.mpr (by rw [hpath])
    exact ⟨r, rfl, settled y, mem_onOf.mpr ⟨y, hy, hall y hy (InstallRoleV1.installOrder_lt_of_above habove), rfl⟩, hret, hpath⟩

namespace Runner
open Fs

theorem load_of_unclaimed (hclaim : Unclaimed d₀ tx) : loadJournalExact d₀ tx ≠ .ok j := by
  intro hload
  obtain ⟨dir, hopen, -⟩ := bind_eq_ok.mp hload
  obtain ⟨hdir, info, hget, -⟩ := openTransactionDirectory_inv hopen
  rcases hdir with rfl | rfl
  · rw [hclaim.1] at hget
    cases hget
  · rw [hclaim.2] at hget
    cases hget

/-- A rollback that nothing strikes completes, unless it is blocked. -/
theorem rollback_done (h : Recorded d₀.get tx left home j s)
    (hstate : j.state = .applying ∨ j.state = .installed ∨ j.state = .rollingBack) (hfree : ¬Blocked left j.entries) :
    ∃ j' s', rollbackJournal j none s = .done j' s' ∧ Recorded d₀.get tx left home j' s' ∧ j'.state = .rolledBack ∧
      onOf j'.entries = [] := by
  obtain ⟨j', s', hrun, hrec, hrolled, hempty, -⟩ :=
    (rollback_meets h hstate).unstruck (fun err at_ t hstops => hfree (hstops.1 err rfl)) rfl
  exact ⟨j', s', hrun, hrec, hrolled, hempty⟩

theorem recovers_of_recorded (h : Recorded d₀.get tx left home j s)
    (hstate : j.state = .applying ∨ j.state = .installed ∨ j.state = .rollingBack ∨ j.state = .rolledBack)
    (hfree : ¬Blocked left j.entries) : Recovers tx s := by
  refine ⟨j, h.load, ?_⟩
  by_cases hrolled : j.state = .rolledBack
  · exact .inl hrolled
  · obtain ⟨j', s', hrun, hrec, hdone, -⟩ := rollback_done h (by tauto) hfree
    exact .inr ⟨j', s', hrun, hrec.load, hdone⟩

theorem not_recovers_of_lost (h : Lost tx s) : ¬Recovers tx s := by
  intro ⟨j, hload, hrun⟩
  obtain ⟨hstate, hstuck⟩ := h j hload
  rcases hrun with hrolled | ⟨j', s', hrun, -⟩
  · exact hstate hrolled
  · exact hstuck none j' s' hrun

theorem not_blocked_none {entries : List InstallJournalEntryV1} : ¬Blocked none entries := fun ⟨_, hr, _⟩ => by cases hr

theorem recovers_not_refuses : Recovers tx s ∧ ¬Refuses tx s ↔ Recovers tx s :=
  ⟨fun h => h.1, fun h => ⟨h, fun hno => not_recovers_of_lost hno.2 h⟩⟩

/-- The journal missed an object, and whether the rollback gets past it is a question of the plan. -/
theorem recovers_orphan_iff (h : Recorded d₀.get tx (some r) home j s) (hstate : j.state = .applying)
    (hblocked : Blocked (some r) j.entries ↔ InCreatedDirectory actions r) :
    Recovers tx s ↔ ¬InCreatedDirectory actions r := by
  rw [← hblocked]
  constructor
  · intro ⟨found, hload, hrun⟩ hno
    rw [h.load] at hload
    cases hload
    rcases hrun with hrolled | ⟨j', s', hrun, -⟩
    · rw [hstate] at hrolled
      cases hrolled
    · exact ((rollback_meets h (.inl hstate)).done rfl hrun).2.2.2.1 hno
  · intro hfree
    exact recovers_of_recorded h (.inl hstate) hfree

/-- The journal missed an object that is not in the way of the rollback: it completes, and the object stays. -/
theorem orphan_stays (h : Recorded d₀.get tx (some r) home j s) (hstate : j.state = .applying)
    (hret : r.isJournalRetentionDirectory = false) (hfree : ¬Blocked (some r) j.entries) :
    ∃ j' s', rollbackJournal j none s = .done j' s' ∧ j'.state = .rolledBack ∧ ¬Restored tx d₀ s' := by
  obtain ⟨j', s', hdone, hrec, hrolled, -⟩ := rollback_done h (.inl hstate) hfree
  obtain ⟨⟨q, hq, hleft, hat⟩, -⟩ := hrec.leftovers r rfl
  refine ⟨j', s', hdone, hrolled, fun hrestored => hleft ?_⟩
  rw [← hat hret]
  exact restored_iff.mp hrestored r hret q hq

/-- A prepared journal is refused at once. -/
theorem rollback_prepared {strike : Option (Fault × Site)} {hit : Fault} {site : Site} {s' : Disk}
    (hstate : j.state = .prepared) : rollbackJournal j strike s ≠ .stopped (.fault hit) site s' := by
  have hmeets : Meets (· = s) (rollbackJournal j) (fun _ _ => False) (fun cause _ _ => ∃ err, cause = .refusal err) := by
    refine Meets.bind (Q := fun _ _ => False) ?_ fun _ _ _ hfalse => hfalse.elim
    unfold ensureRollingBack
    rw [if_pos (by simp [hstate])]
    refine Meets.bind (Q := fun _ _ => False) ?_ fun _ _ _ hfalse => hfalse.elim
    rw [InstallJournalV1.beginRollback, if_pos (by simp [hstate])]
    exact Meets.require (fun _ err _ _ => ⟨err, rfl⟩) fun _ _ _ hok => by cases hok
  intro hrun
  obtain ⟨err, herr⟩ := hmeets.stopped rfl hrun
  cases herr

/-- **When a rollback gives back what was there.** For every plan, every disk on which the transaction
is new and every stop of `apply_plan`: whatever rollback of the journal on disk completes leaves the
three paths of every role as they were, if and only if the stop did not come between the change of
an object and its record, or the object is a directory that stays, or it lies in a directory of the
transaction and so keeps every rollback from completing. -/
theorem rollback_restores_iff (p : PreparedSystemInstall) (actions : List InstallActionV1) (prior : Option InstallJournalV1)
    (d₀ s : Disk) (strike : Option (Fault × Site)) (cause : Cause Unit) (site : Site) (hclaim : Unclaimed d₀ p.transactionId)
    (hrun : applyPlan p actions prior strike d₀ = .stopped cause site s) :
    (∀ j strike' j' s', loadJournalExact s p.transactionId = .ok j → rollbackJournal j strike' s = .done j' s' →
        Restored p.transactionId d₀ s') ↔
      ∀ r, applyAftermath cause site = .orphan r → r.isJournalRetentionDirectory = true ∨ InCreatedDirectory actions r := by
  rcases (apply_meets hclaim).stopped rfl hrun with ⟨prepared, hplanned, -, hstop⟩ | ⟨rfl, rfl, -⟩
  · unfold ApplyStop at hstop
    cases haft : applyAftermath cause site with
    | clean =>
      rw [haft] at hstop
      obtain ⟨home, j, hrec, hstate⟩ := hstop
      refine ⟨fun _ r hr => (by cases hr), fun _ found strike' j' s' hload hdone => restored_iff.mpr fun r hr q hq => ?_⟩
      rw [hrec.load] at hload
      cases hload
      obtain ⟨hrec', -, hempty, -⟩ := (rollback_meets hrec (by tauto)).done rfl hdone
      exact hrec'.restored hempty hr hq (unknown_none q)
    | lost =>
      rw [haft] at hstop
      refine ⟨fun _ r hr => (by cases hr), fun _ found strike' j' s' hload hdone => ?_⟩
      exact absurd hdone ((hstop.1 found hload).2 strike' j' s')
    | orphan r =>
      rw [haft] at hstop
      obtain ⟨-, home, j, hrec, hstate, hall, horigin⟩ := hstop
      have hblocked := blocked_iff hplanned horigin hall
      constructor
      · intro hrestores r' hr'
        cases hr'
        by_contra hno
        obtain ⟨hret, hout⟩ := not_or.mp hno
        rw [Bool.not_eq_true] at hret
        obtain ⟨j', s', hdone, -, hno'⟩ := orphan_stays hrec hstate hret fun hb => hout (hblocked.mp hb)
        exact hno' (hrestores j none j' s' hrec.load hdone)
      · intro hsafe found strike' j' s' hload hdone
        rw [hrec.load] at hload
        cases hload
        obtain ⟨hrec', -, hempty, hfree, -⟩ := (rollback_meets hrec (.inl hstate)).done rfl hdone
        rcases hsafe r rfl with hret | hin
        · refine restored_iff.mpr fun r' hr' q hq => hrec'.restored hempty hr' hq ?_
          intro ⟨r'', hr'', hq'⟩
          obtain rfl := Option.mem_some.mp hr''
          rw [Named.eq_role hq hq', hret] at hr'
          cases hr'
        · exact absurd (hblocked.mpr hin) hfree
  · refine ⟨fun _ r hr => (by cases hr), fun _ found strike' j' s' hload _ => ?_⟩
    exact absurd hload (load_of_unclaimed hclaim)

/-- A crash in the first directory, when it has been made and not recorded yet. -/
theorem applyPrepared_hit {P : Disk → Prop} {e : InstallJournalEntryV1} {rest : List InstallJournalEntryV1}
    (hvalid : prepared.Valid) (hstate : prepared.state = .prepared) (hentries : prepared.entries = e :: rest)
    (hkind : e.intended.kind = .directory) : HitAt (.entry e.role .own) P (applyPrepared p prepared) := by
  obtain ⟨hone, hpending, -⟩ : prepared.durableStep = 1 ∧ AllIn .pending prepared.entries ∧ prepared.failureCode = none :=
    InstallJournalV1.progress_of_state hvalid hstate
  have hbig : 256 < u64Bound := by decide
  have hstart := InstallJournalV1.startApplying_eq hstate (by omega)
  have hsplit : (prepared.moved .applying prepared.entries).entries = [] ++ e :: rest := hentries
  have hnext : (prepared.moved .applying prepared.entries).nextForwardAction = some (.apply (prepared.durableStep + 1 + 1) e.role) := by
    rw [InstallJournalV1.nextForwardAction_split rfl hsplit (by simp [AllIn]) (by simp [hpending e (by simp [hentries])])]
    · simp [InstallJournalV1.forwardActionOf, hpending e (by simp [hentries]), InstallJournalV1.moved]
    · show prepared.durableStep + 1 + 1 < u64Bound
      omega
  have hfind : prepared.entries.find? (·.role == e.role) = some e := by
    rw [hentries, List.find?_cons_of_pos (by simp)]
  have hentry : ∀ payload, HitAt (.entry e.role .own) (fun _ => True) (fs (applyEntry e payload)) := by
    intro payload
    unfold applyEntry
    rw [hkind]
    unfold applyDirectory setOwnerMode
    refine HitAt.mapError (HitAt.right Ends.any fun parent => HitAt.right Ends.any fun _ => HitAt.right Ends.any fun directory => ?_)
    exact HitAt.protect (HitAt.left (HitAt.left HitAt.step))
  refine HitAt.right Ends.any fun _ => HitAt.right Ends.any fun parent => HitAt.right Ends.any fun _ => ?_
  refine HitAt.right (Q := fun started _ => started = prepared.moved .applying prepared.entries) ?_ fun started => ?_
  · exact record_ends fun next hok _ _ => by rw [hstart] at hok; cases hok; rfl
  · refine HitAt.intro fun s hstarted => ?_
    rw [hstarted]
    refine HitAt.right Ends.any fun _ => HitAt.left (HitAt.loop (by rw [hnext]; rfl) (by simp [InstallJournalV1.moved, hentries]) ?_)
    unfold forwardRound
    refine HitAt.right (Q := fun found _ => found = e) (Ends.require fun _ found _ hok => ?_) fun found => HitAt.intro fun _ hfound => ?_
    · rw [show (prepared.moved .applying prepared.entries).entries = prepared.entries from rfl, hfind] at hok
      cases hok
      rfl
    · rw [hfound]
      exact HitAt.right Ends.any fun payload => HitAt.left (hentry payload)

theorem install_struck (h : Fresh d₀) (hsupplied : Supplied p) (hop : p.operation = .install)
    (hboot : d₀.get (bootstrapHome p.transactionId) = none) (hnames : NamesFree d₀ p.transactionId) :
    ∃ prepared s, Planned p freshActions none prepared ∧
      applyPlan p freshActions none (some (.crash, .entry .productLibexecRoot .own)) d₀ =
        .stopped (.fault .crash) (.entry .productLibexecRoot .own) s ∧
      ApplyStop d₀ p.transactionId prepared (.fault .crash) (.entry .productLibexecRoot .own) s := by
  obtain ⟨prepared, hplanned, hplan, hmeets⟩ := h.install_meets hsupplied hop hboot hnames
  obtain ⟨e, rest, hentries, hrole, hkind⟩ := first_entry hplanned
  have hhit := applyPrepared_hit (P := (· = d₀)) (p := p) hplanned.valid hplanned.state hentries hkind
  rw [hrole] at hhit
  obtain ⟨s, hrun, -, hstop⟩ :=
    hmeets.struck_at (fun err at_ t hno => by obtain ⟨⟨hit, heq⟩, -⟩ := hno; cases heq) hhit .crash rfl
  rw [← hplan] at hrun
  exact ⟨prepared, s, hplanned, hrun, hstop⟩

theorem not_inCreatedDirectory_libexec : ¬InCreatedDirectory freshActions .productLibexecRoot := by
  have hroles : ∀ b : InstallRoleV1, b.path = InstallRoleV1.productLibexecRoot.directory → isStandardPrerequisite b = true := by
    decide
  intro h
  obtain ⟨b, -, hpath, hacts⟩ := h
  rw [actsOn_fresh, hroles b hpath] at hacts
  cases hacts

theorem sampleInstall_struck :
    ∃ prepared s, Planned (sampleSource .install (sampleHex 32)) freshActions none prepared ∧
      applyPlan (sampleSource .install (sampleHex 32)) freshActions none (some (.crash, .entry .productLibexecRoot .own))
        sampleHost = .stopped (.fault .crash) (.entry .productLibexecRoot .own) s ∧
      ApplyStop sampleHost (sampleHex 32) prepared (.fault .crash) (.entry .productLibexecRoot .own) s :=
  install_struck fresh_sampleHost (supplied_sampleSource (sampleHex_valid 32)) rfl (sampleHost_dot bootstrapName_head)
    (namesFree_sampleHost _)

/-- The process stops after the `mkdir` of the first directory; the rollback then completes without it. -/
theorem crashed_install_leaves_directory :
    ∃ s j j' s', inspectLayout sampleHost .install = .ok (.ok (freshLayout, none)) ∧
      InstallPlanner.plan (sampleSource .install (sampleHex 32)) freshLayout none =
        .ok ⟨sampleHex 32, sampleHex 32, .install, ⟨sampleHex 40, "1.0.0"⟩, freshActions⟩ ∧
      applyPlan (sampleSource .install (sampleHex 32)) freshActions none (some (.crash, .entry .productLibexecRoot .own))
        sampleHost = .stopped (.fault .crash) (.entry .productLibexecRoot .own) s ∧
      loadJournalExact s (sampleHex 32) = .ok j ∧ rollbackJournal j none s = .done j' s' ∧ j'.state = .rolledBack ∧
      ¬Restored (sampleHex 32) sampleHost s' := by
  obtain ⟨prepared, s, hplanned, hrun, hstop⟩ := sampleInstall_struck
  obtain ⟨-, home, j, hrec, hstate, hall, horigin⟩ := hstop
  have hfree : ¬Blocked (some .productLibexecRoot) j.entries := fun hb =>
    not_inCreatedDirectory_libexec ((blocked_iff hplanned horigin hall).mp hb)
  obtain ⟨j', s', hdone, hrolled, hno⟩ := orphan_stays hrec hstate rfl hfree
  exact ⟨s, j, j', s', inspectLayout_ok.mpr fresh_sampleHost.accepted,
    plan_succeeds (p := sampleSource .install (sampleHex 32)) fresh_sampleHost.accepted, hrun, hrec.load, hdone, hrolled, hno⟩

/-- The condition fails at that stop, as the theorem says. -/
theorem rollback_restores_not_crashed_install :
    ∃ s, applyPlan (sampleSource .install (sampleHex 32)) freshActions none (some (.crash, .entry .productLibexecRoot .own))
        sampleHost = .stopped (.fault .crash) (.entry .productLibexecRoot .own) s ∧
      ¬∀ j strike' j' s', loadJournalExact s (sampleHex 32) = .ok j → rollbackJournal j strike' s = .done j' s' →
        Restored (sampleHex 32) sampleHost s' := by
  obtain ⟨prepared, s, -, hrun, -⟩ := sampleInstall_struck
  have hclaim : Unclaimed sampleHost (sampleHex 32) := fresh_sampleHost.unclaimed (sampleHost_dot bootstrapName_head)
  have hiff := rollback_restores_iff (sampleSource .install (sampleHex 32)) freshActions none sampleHost s
    (some (.crash, .entry .productLibexecRoot .own)) (.fault .crash) (.entry .productLibexecRoot .own) hclaim hrun
  refine ⟨s, hrun, fun hrestores => ?_⟩
  rcases hiff.mp hrestores .productLibexecRoot rfl with hret | hin
  · cases hret
  · exact not_inCreatedDirectory_libexec hin

/-! ### Rollbacks of interrupted transactions -/

theorem apply_recovers_iff {strike : Option (Fault × Site)} {cause : Cause Unit} {site : Site}
    (hclaim : Unclaimed d₀ p.transactionId) (hrun : applyPlan p actions prior strike d₀ = .stopped cause site s) :
    Recovers p.transactionId s ↔ (applyAftermath cause site).Recoverable actions := by
  rcases (apply_meets hclaim).stopped rfl hrun with ⟨prepared, hplanned, -, hstop⟩ | ⟨rfl, rfl, -⟩
  · unfold ApplyStop at hstop
    cases haft : applyAftermath cause site with
    | clean =>
      rw [haft] at hstop
      obtain ⟨home, j, hrec, hstate⟩ := hstop
      exact iff_of_true (recovers_of_recorded hrec (by tauto) not_blocked_none) trivial
    | lost =>
      rw [haft] at hstop
      exact iff_of_false (not_recovers_of_lost hstop.1) id
    | orphan r =>
      rw [haft] at hstop
      obtain ⟨-, home, j, hrec, hstate, hall, horigin⟩ := hstop
      exact recovers_orphan_iff hrec hstate (blocked_iff hplanned horigin hall)
  · refine iff_of_false (fun ⟨j, hload, _⟩ => load_of_unclaimed hclaim hload) id

/-- What an apply that nothing has struck leaves: a journal that describes the disk, or one that is
only prepared. -/
theorem apply_unstruck (hclaim : Unclaimed d₀ p.transactionId)
    (hrun : applyPlan p actions prior none d₀ = .done () s ∨
      ∃ cause site, applyPlan p actions prior none d₀ = .stopped cause site s)
    (hload : loadJournalExact s p.transactionId = .ok j) :
    (∃ home, Recorded d₀.get p.transactionId none home j s ∧ (j.state = .applying ∨ j.state = .installed)) ∨ j.state = .prepared := by
  rcases hrun with hrun | ⟨cause, site, hrun⟩
  · obtain ⟨prepared, installed, -, hdone⟩ := (apply_meets hclaim).done rfl hrun
    rw [hdone.load] at hload
    cases hload
    exact .inl ⟨_, hdone.toRecorded, .inr hdone.state⟩
  · cases cause with
    | fault hit => cases (apply_meets hclaim).struck rfl hrun
    | refusal err =>
      rcases (apply_meets hclaim).stopped rfl hrun with ⟨prepared, hplanned, -, hstop⟩ | ⟨rfl, rfl, -⟩
      · unfold ApplyStop at hstop
        cases haft : applyAftermath (Cause.refusal err) site with
        | clean =>
          rw [haft] at hstop
          obtain ⟨home, found, hrec, hstate⟩ := hstop
          rw [hrec.load] at hload
          cases hload
          exact .inl ⟨home, hrec, hstate⟩
        | lost =>
          rw [haft] at hstop
          exact .inr (hstop.2 err rfl j hload)
        | orphan r =>
          rw [haft] at hstop
          obtain ⟨⟨hit, hfault⟩, -⟩ := hstop
          cases hfault
      · exact absurd hload (load_of_unclaimed hclaim)

/-- **When an interrupted transaction can be rolled back.** For every plan and every disk on which the
transaction is new. A stop of `apply_plan` anywhere: the journal on disk can be rolled back, and the
installer is not locked, if and only if the journal was not lost and no object without a record
lies in a directory of the transaction. A fault of `rollback_journal` anywhere, after an apply
that nothing had struck: the same, if and only if the journal was not lost. -/
theorem interrupted_recovers_iff (p : PreparedSystemInstall) (actions : List InstallActionV1) (prior : Option InstallJournalV1)
    (d₀ : Disk) (hclaim : Unclaimed d₀ p.transactionId) :
    (∀ strike cause site s, applyPlan p actions prior strike d₀ = .stopped cause site s →
      ((Recovers p.transactionId s ∧ ¬Refuses p.transactionId s) ↔ (applyAftermath cause site).Recoverable actions)) ∧
    ∀ s, (applyPlan p actions prior none d₀ = .done () s ∨
        ∃ cause site, applyPlan p actions prior none d₀ = .stopped cause site s) →
      ∀ j strike hit site s', loadJournalExact s p.transactionId = .ok j →
        rollbackJournal j strike s = .stopped (.fault hit) site s' →
        ((Recovers p.transactionId s' ∧ ¬Refuses p.transactionId s') ↔ rollbackAftermath site = .clean) := by
  constructor
  · intro strike cause site s hrun
    rw [recovers_not_refuses]
    exact apply_recovers_iff hclaim hrun
  · intro s hrun j strike hit site s' hload hstruck
    rw [recovers_not_refuses]
    rcases apply_unstruck hclaim hrun hload with ⟨home, hrec, hstate⟩ | hprepared
    · have hstop := ((rollback_meets hrec (by tauto)).stopped rfl hstruck).2 hit rfl
      unfold RollbackStop at hstop
      cases haft : rollbackAftermath site with
      | clean =>
        rw [haft] at hstop
        obtain ⟨j', hrec', hstate'⟩ := hstop
        exact iff_of_true (recovers_of_recorded hrec' hstate' not_blocked_none) rfl
      | lost | orphan =>
        rw [haft] at hstop
        exact iff_of_false (not_recovers_of_lost hstop) (by simp)
    · exact absurd hstruck (rollback_prepared hprepared)

/-- A crash before the new journal takes the old one's name, at the head of a rollback. -/
theorem rollbackJournal_hit {P : Disk → Prop} (hstate : j.state = .installed) :
    HitAt (.persist .begun .rename) P (rollbackJournal j) := by
  unfold rollbackJournal ensureRollingBack
  rw [if_pos (by simp [hstate])]
  refine HitAt.left (HitAt.right Ends.any fun begun => HitAt.left (HitAt.mapError ?_))
  exact HitAt.right Ends.any fun directory => HitAt.right Ends.any fun _ => HitAt.left HitAt.step

/-- An install, and a rollback of it that is struck there. -/
theorem rollback_struck (h : Fresh d₀) (hsupplied : Supplied p) (hop : p.operation = .install)
    (hboot : d₀.get (bootstrapHome p.transactionId) = none) (hnames : NamesFree d₀ p.transactionId) :
    ∃ s j s', applyPlan p freshActions none none d₀ = .done () s ∧ loadJournalExact s p.transactionId = .ok j ∧
      rollbackJournal j (some (.crash, .persist .begun .rename)) s = .stopped (.fault .crash) (.persist .begun .rename) s' ∧
      Lost p.transactionId s' := by
  obtain ⟨s, -, hrun⟩ := h.install_done hsupplied hop hboot hnames
  obtain ⟨prepared, j, -, hdone⟩ := (apply_meets (h.unclaimed hboot)).done rfl hrun
  obtain ⟨s', hstruck, -, hstop⟩ := (rollback_meets hdone.toRecorded (.inr (.inl hdone.state))).struck_at
    (fun err at_ t hstops => not_blocked_none (hstops.1 err rfl)) (rollbackJournal_hit hdone.state) .crash rfl
  exact ⟨s, j, s', hrun, hdone.load, hstruck, hstop .crash rfl⟩

theorem sampleRollback_struck :
    ∃ s j s', applyPlan (sampleSource .install (sampleHex 32)) freshActions none none sampleHost = .done () s ∧
      loadJournalExact s (sampleHex 32) = .ok j ∧
      rollbackJournal j (some (.crash, .persist .begun .rename)) s = .stopped (.fault .crash) (.persist .begun .rename) s' ∧
      Lost (sampleHex 32) s' :=
  rollback_struck fresh_sampleHost (supplied_sampleSource (sampleHex_valid 32)) rfl (sampleHost_dot bootstrapName_head)
    (namesFree_sampleHost _)

/-- The leftover of one interrupted update of the journal: every later rollback stops at it. -/
theorem struck_rollback_locks_installer :
    ∃ s j s', applyPlan (sampleSource .install (sampleHex 32)) freshActions none none sampleHost = .done () s ∧
      loadJournalExact s (sampleHex 32) = .ok j ∧
      rollbackJournal j (some (.crash, .persist .begun .rename)) s = .stopped (.fault .crash) (.persist .begun .rename) s' ∧
      ¬Recovers (sampleHex 32) s' := by
  obtain ⟨s, j, s', hrun, hload, hstruck, hlost⟩ := sampleRollback_struck
  exact ⟨s, j, s', hrun, hload, hstruck, not_recovers_of_lost hlost⟩

theorem interrupted_recovers_not_struck_rollback :
    ∃ s j s', applyPlan (sampleSource .install (sampleHex 32)) freshActions none none sampleHost = .done () s ∧
      loadJournalExact s (sampleHex 32) = .ok j ∧
      rollbackJournal j (some (.crash, .persist .begun .rename)) s = .stopped (.fault .crash) (.persist .begun .rename) s' ∧
      ¬(Recovers (sampleHex 32) s' ∧ ¬Refuses (sampleHex 32) s') := by
  obtain ⟨s, j, s', hrun, hload, hstruck, -⟩ := sampleRollback_struck
  have hclaim : Unclaimed sampleHost (sampleHex 32) := fresh_sampleHost.unclaimed (sampleHost_dot bootstrapName_head)
  have hiff := (interrupted_recovers_iff (sampleSource .install (sampleHex 32)) freshActions none sampleHost hclaim).2 s
    (.inl hrun) j _ _ _ s' hload hstruck
  exact ⟨s, j, s', hrun, hload, hstruck, fun hno => by cases hiff.mp hno⟩

end Runner

end NetworkLoop.Install
