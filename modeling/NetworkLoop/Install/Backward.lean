import NetworkLoop.Install.Recorded

/-! What `rollback_journal` does to the disk.

Taking back the entry on top of the stack leaves the stack below it (`undo_meets`), and
the journal follows one entry at a time, so that a rollback that nothing stops gives back
the disk before the transaction. `rollback_meets` is the whole command. It refuses in one
case, when a role that the journal missed lies in a directory it has to remove; and some
of its steps must not be struck: between the change of an object and the end of the
journal's update the disk and the journal disagree, and no later rollback accepts that. -/
namespace NetworkLoop.Install
open Library Program Disk

variable {base : Path → Option Node} {d s : Disk} {tx : String} {X : Path → Prop} {home : Path} {on : List InstallJournalEntryV1}
  {e : InstallJournalEntryV1} {cur : InstallObjectIdentityV1}

/-! ### One entry -/

/-- What stands at the path of the last entry. -/
theorem Standing.seen (h : Standing base tx X d home (on ++ [e])) (hret : e.role.isJournalRetentionDirectory = false)
    (hapart : Apart tx X e) (hcur : e.currentIdentity = some cur) :
    ∃ n, d.get e.role.path = some n ∧ (n.isDirectory = true ↔ cur.kind = .directory) ∧
      (n.isDirectory = true ↔ e.intended.kind = .directory) ∧
      ((n.isDirectory = true → ∀ child, ¬X (e.role.path ++ [child])) →
        inspectAt d e.role.path = .ok cur ∧ ∀ child, d.get (e.role.path ++ [child]) = none) := by
  obtain ⟨f, hstack, hagree⟩ := h.stacked
  rcases hstack.inv with ⟨hkeep, -⟩ | ⟨-, g, n, current, htop⟩
  · rw [hret] at hkeep
    cases hkeep
  have hident := htop.identity
  rw [hcur] at hident
  cases hident
  have hget : d.get e.role.path = some n := by
    rw [hagree _ (visible_path tx hret) (hapart.names _ (.inl rfl)), htop.eq, placedOn_path]
  refine ⟨n, hget, inspectNode_kind htop.seen, htop.kind, fun hclear => ?_⟩
  cases hdir : n.isDirectory with
  | false => exact ⟨by rw [inspectAt_file hget hdir, htop.seen], get_under_file hget hdir⟩
  | true =>
    have hempty : ∀ child, d.get (e.role.path ++ [child]) = none := by
      intro child
      have hother : ¬Named tx e.role (e.role.path ++ [child]) := fun hn => by
        obtain ⟨name, hname⟩ := hn.exists_name
        have := congrArg List.length hname
        simp [e.role.path_eq] at this
      have hvacant := htop.vacant
      rw [Vacant, ((h.layout e (by simp)).absent (htop.kind.mp hdir)).1] at hvacant
      rw [hagree _ (visible_child hret (h.rooted e (by simp)).2 child) (hclear hdir child), htop.eq,
        placedOn_other (h.named e (by simp)) hother]
      exact hvacant.2 child
    exact ⟨by rw [inspectAt_of_empty hget hempty, htop.seen], hempty⟩

/-- The object that a rollback would look for is not there. -/
def Gone (s : Disk) (e : InstallJournalEntryV1) : Prop :=
  match e.priorState with
  | .absent => s.get e.role.path = none
  | .priorOwned _ name => s.get (e.role.directory ++ [name]) = none

theorem Gone.congr {t : Disk} (h : Gone t e) (hnamed : NamedEntry tx e) (hs : ∀ q, Named tx e.role q → s.get q = t.get q) :
    Gone s e := by
  cases hprior : e.priorState with
  | absent =>
    simp only [Gone, hprior] at h ⊢
    rw [hs _ (.inl rfl), h]
  | priorOwned identity name =>
    simp only [Gone, hprior] at h ⊢
    rw [hs _ (Fs.named_backup hnamed hprior), h]

/-- What taking back an entry leaves. -/
structure Undone (base : Path → Option Node) (tx : String) (X : Path → Prop) (home : Path) (on : List InstallJournalEntryV1)
    (e : InstallJournalEntryV1) (d s : Disk) : Prop where
  standing : Standing base tx X s home on
  outside : ∀ q, ¬Named tx e.role q → s.get q = d.get q
  empty : e.role.isJournalRetentionDirectory = false → ∀ child, d.get (e.role.path ++ [child]) = none
  gone : e.role.isJournalRetentionDirectory = false → Gone s e
  same : e.role.isJournalRetentionDirectory = true → s = d

namespace Fs

theorem remove_undone (h : Standing base tx X d home (on ++ [e])) (hret : e.role.isJournalRetentionDirectory = false)
    (habsent : e.priorState = .absent) (hempty : ∀ child, d.get (e.role.path ++ [child]) = none)
    (hs : s.get = Function.update d.get e.role.path none) : Undone base tx X home on e d s := by
  have houtside : ∀ q, ¬Named tx e.role q → s.get q = d.get q := fun q hq => by
    rw [hs, Function.update_of_ne fun heq => hq (.inl heq)]
  have hgone : Gone s e := by
    rw [Gone, habsent]
    exact (congrFun hs _).trans (Function.update_self ..)
  refine ⟨?_, houtside, fun _ => hempty, fun _ => hgone, fun hkeep => by rw [hret] at hkeep; cases hkeep⟩
  obtain ⟨f, hstack, hagree⟩ := h.stacked
  rcases hstack.inv with ⟨hkeep, -⟩ | ⟨-, g, n, current, htop⟩
  · rw [hret] at hkeep
    cases hkeep
  · refine h.lower htop.below hret houtside fun q hq hX => ?_
    have hvacant := htop.vacant
    rw [Vacant, habsent] at hvacant
    by_cases heq : q = e.role.path
    · rw [hs, heq, Function.update_self, hvacant.1]
    · rw [hs, Function.update_of_ne heq, hagree q hq hX, htop.eq]
      simp only [placedOn, habsent]
      rw [Function.update_of_ne heq]

/-- **Removing an entry's object.** -/
theorem rollbackRemoveExact_meets (h : Standing base tx X d home (on ++ [e]))
    (hret : e.role.isJournalRetentionDirectory = false) (habsent : e.priorState = .absent) (hapart : Apart tx X e)
    (hcur : e.currentIdentity = some cur) :
    Meets (· = d) (rollbackRemoveExact e.role cur) (fun _ s => Undone base tx X home on e d s)
      (fun cause at_ s => ∃ step, at_ = .rollback e.role step ∧
        (match step with
          | .check | .change => s = d
          | .sync | .confirm => Undone base tx X home on e d s) ∧
        ∀ err, cause = .refusal err → ∃ child, X (e.role.path ++ [child])) := by
  obtain ⟨n, hget, hkind, -, hclear⟩ := h.seen hret hapart hcur
  have hreach := h.reach hapart
  -- if it refuses, something unknown is in the way
  have hobstructed : ∀ {x : Prop}, (inspectAt d e.role.path = .ok cur → (∀ child, d.get (e.role.path ++ [child]) = none) → ¬x) →
      x → ∃ child, X (e.role.path ++ [child]) := by
    intro x hno hx
    by_contra hfree
    obtain ⟨hinspect, hempty⟩ := hclear fun _ child hX => hfree ⟨child, hX⟩
    exact hno hinspect hempty hx
  unfold rollbackRemoveExact
  refine Meets.bind (Q := fun parent s => parent = e.role.directory ∧ s = d) ?_ fun parent => ?_
  · refine Meets.look (fun hit s hs => ⟨.check, rfl, hs, fun err herr => by cases herr⟩) ?_ ?_
    · intro s err hs herr
      rw [hs] at herr
      refine ⟨.check, rfl, hs, fun _ _ => hobstructed (fun hinspect _ hfail => ?_) herr⟩
      rw [removeCheck, inspectExact_ok.mpr ⟨h.selinux, hreach, hinspect⟩] at hfail
      simp only [bind, Except.bind, ne_eq, not_true_eq_false, if_false, openRoleParent_ok.mpr ⟨rfl, hreach⟩] at hfail
      cases hfail
    · intro s parent hs hok
      rw [hs] at hok
      obtain ⟨observed, -, hrest⟩ := bind_eq_ok.mp hok
      split at hrest
      · cases hrest
      · exact ⟨(openRoleParent_ok.mp hrest).1, hs⟩
  refine Meets.intro fun s₀ ⟨hparent, hs₀⟩ => ?_
  rw [hparent, hs₀]
  have hdirectory : decide (cur.kind = .directory) = n.isDirectory := by
    by_cases hdir : n.isDirectory = true
    · rw [hdir, decide_eq_true (hkind.mp hdir)]
    · rw [Bool.not_eq_true] at hdir
      rw [hdir, decide_eq_false fun hk => by rw [hkind.mpr hk] at hdir; cases hdir]
  refine Meets.bind (Q := fun _ s => Undone base tx X home on e d s) ?_ fun _ => ?_
  · refine Meets.perform (fun hit s hs => ⟨.change, rfl, hs, fun err herr => by cases herr⟩) ?_ ?_
    · intro s err hs herr
      rw [hs] at herr
      refine ⟨.change, rfl, hs, fun _ _ => hobstructed (fun _ hempty hfail => ?_) herr⟩
      obtain ⟨d', hok⟩ := unlinkat_succeeds (by rw [← e.role.path_eq]; exact hget) (by rw [← e.role.path_eq]; exact hempty)
      rw [hdirectory, hok] at hfail
      cases hfail
    · intro s s' hs hok
      rw [hs] at hok
      obtain ⟨-, hempty, hs'⟩ := unlinkat_ok hok
      rw [← e.role.path_eq] at hempty hs'
      exact remove_undone h hret habsent hempty hs'
  exact syncAll_meets fun hit s hs => ⟨.sync, rfl, hs, fun err herr => by cases herr⟩

/-- The file that an entry has replaced, under its other name. -/
theorem backup_seen {identity : InstallObjectIdentityV1} {name : String} (h : Standing base tx X d home (on ++ [e]))
    (hret : e.role.isJournalRetentionDirectory = false) (howned : e.priorState = .priorOwned identity name)
    (hapart : Apart tx X e) : ∃ g m, Stacked base on g ∧ g e.role.path = some m ∧ g (e.role.directory ++ [name]) = none ∧
      d.get (e.role.directory ++ [name]) = some m ∧ m.isDirectory = false ∧ inspectNode 2 m = .ok identity ∧
      ∀ q, Visible tx q → ¬X q → q ≠ e.role.path → q ≠ e.role.directory ++ [name] → d.get q = g q := by
  obtain ⟨f, hstack, hagree⟩ := h.stacked
  rcases hstack.inv with ⟨hkeep, -⟩ | ⟨-, g, n, current, htop⟩
  · rw [hret] at hkeep
    cases hkeep
  have hvacant := htop.vacant
  rw [Vacant, howned] at hvacant
  obtain ⟨hfree, m, hm, hfile, hseen⟩ := hvacant
  have hbackup : Named tx e.role (e.role.directory ++ [name]) := named_backup (h.named e (by simp)) howned
  have hne : e.role.directory ++ [name] ≠ e.role.path := fun heq => by
    rw [heq, hm] at hfree
    cases hfree
  refine ⟨g, m, htop.below, hm, hfree, ?_, hfile, hseen, fun q hq hX hpath hback => ?_⟩
  · rw [hagree _ (hbackup.visible hret) (hapart.names _ hbackup), htop.eq]
    simp only [placedOn, howned]
    rw [Function.update_of_ne hne, Function.update_self, hm]
  · rw [hagree q hq hX, htop.eq]
    simp only [placedOn, howned]
    rw [Function.update_of_ne hpath, Function.update_of_ne hback]

/-- **Restoring the file that an entry has replaced.** -/
theorem rollbackRestoreExact_meets {identity : InstallObjectIdentityV1} {name : String}
    (h : Standing base tx X d home (on ++ [e])) (hret : e.role.isJournalRetentionDirectory = false)
    (howned : e.priorState = .priorOwned identity name) (hapart : Apart tx X e) (hcur : e.currentIdentity = some cur) :
    Meets (· = d) (rollbackRestoreExact e.role cur name identity) (fun _ s => Undone base tx X home on e d s)
      (fun cause at_ s => (∃ hit, cause = .fault hit) ∧ ∃ step, at_ = .rollback e.role step ∧
        match step with
          | .check | .change => s = d
          | .sync | .confirm => Undone base tx X home on e d s) := by
  obtain ⟨n, hget, -, hkind, hclear⟩ := h.seen hret hapart hcur
  obtain ⟨g, m, hbelow, hm, hfree, hbackup, hfile, hseen, hagree⟩ := backup_seen h hret howned hapart
  have hlayout := h.layout e (by simp)
  have hplain : n.isDirectory = false := by
    rw [← Bool.not_eq_true, hkind]
    intro hdir
    rw [(hlayout.absent hdir).1] at howned
    cases howned
  obtain ⟨hinspect, hempty⟩ := hclear fun hdir => by rw [hplain] at hdir; cases hdir
  have hreach := h.reach hapart
  have hnamed : Named tx e.role (e.role.directory ++ [name]) := named_backup (h.named e (by simp)) howned
  have hne : e.role.directory ++ [name] ≠ e.role.path := fun heq => by
    rw [heq, hm] at hfree
    cases hfree
  have hcheck : restoreCheck e.role cur name identity d = .ok e.role.directory := by
    simp only [restoreCheck, ensureSafeBasename_of_safe (hlayout.backup identity name howned).1,
      openRoleParent_ok.mpr ⟨rfl, hreach⟩, ← e.role.path_eq, hinspect, inspectAt_file hbackup hfile, hseen, bind, Except.bind]
    simp
  -- the disk once the old file is back
  have hundone : ∀ {s : Disk}, s.get = Function.update (Function.update d.get (e.role.directory ++ [name]) none)
      e.role.path (some m) → Undone base tx X home on e d s ∧ inspectAt s e.role.path = .ok identity := by
    intro s hs
    have houtside : ∀ q, ¬Named tx e.role q → s.get q = d.get q := fun q hq => by
      have hpath : q ≠ e.role.path := fun heq => hq (.inl heq)
      have hback : q ≠ e.role.directory ++ [name] := fun heq => hq (heq ▸ hnamed)
      rw [hs, Function.update_of_ne hpath, Function.update_of_ne hback]
    refine ⟨⟨h.lower hbelow hret houtside fun q hq hX => ?_, houtside, fun _ => hempty, fun _ => ?_, fun hkeep => ?_⟩, ?_⟩
    · by_cases hpath : q = e.role.path
      · rw [hs, hpath, Function.update_self, hm]
      · by_cases hback : q = e.role.directory ++ [name]
        · rw [hs, Function.update_of_ne hpath, hback, Function.update_self, hfree]
        · rw [hs, Function.update_of_ne hpath, Function.update_of_ne hback, hagree q hq hX hpath hback]
    · simp only [Gone, howned]
      rw [hs, Function.update_of_ne hne, Function.update_self]
    · rw [hret] at hkeep
      cases hkeep
    · rw [inspectAt_file (by rw [hs, Function.update_self]) hfile, hseen]
  unfold rollbackRestoreExact
  refine Meets.bind (Q := fun parent s => parent = e.role.directory ∧ s = d) ?_ fun parent => ?_
  · refine Meets.look (fun hit s hs => ⟨⟨hit, rfl⟩, .check, rfl, hs⟩) ?_ ?_
    · intro s err hs herr
      rw [hs, hcheck] at herr
      cases herr
    · intro s parent hs hok
      rw [hs, hcheck] at hok
      cases hok
      exact ⟨rfl, hs⟩
  refine Meets.intro fun s₀ ⟨hparent, hs₀⟩ => ?_
  rw [hparent, hs₀, ← e.role.path_eq]
  refine Meets.bind (Q := fun _ s => Undone base tx X home on e d s ∧ inspectAt s e.role.path = .ok identity) ?_ fun _ => ?_
  · refine Meets.perform (fun hit s hs => ⟨⟨hit, rfl⟩, .change, rfl, hs⟩) ?_ ?_
    · intro s err hs herr
      obtain ⟨info, hdir⟩ := directory_of_child hbackup
      obtain ⟨s', hok⟩ := renameat_file_succeeds hbackup hfile hdir
        (show (d.get (e.role.directory ++ [e.role.basename])).any Node.isDirectory = false by
          rw [← e.role.path_eq, hget]
          exact hplain)
      rw [hs, e.role.path_eq, hok] at herr
      cases herr
    · intro s s' hs hok
      rw [hs] at hok
      exact hundone (renameat_file_ok hbackup hfile hok)
  refine Meets.bind (syncAll_meets fun hit s hs => ⟨⟨hit, rfl⟩, .sync, rfl, hs.1⟩) fun _ => ?_
  refine Meets.look (fun hit s hs => ⟨⟨hit, rfl⟩, .confirm, rfl, hs.1⟩) ?_ (fun s _ hs _ => hs.1)
  intro s err hs herr
  rw [hs.2] at herr
  simp [bind, Except.bind] at herr

end Fs

namespace Runner
open Fs

/-- **Looking at an entry that stays.** -/
theorem retainExact_meets (h : Standing base tx X d home (on ++ [e])) (hret : e.role.isJournalRetentionDirectory = true)
    (hapart : Apart tx X e) (hcur : e.currentIdentity = some cur) :
    Meets (· = d) (retainExact e.role cur) (fun _ s => Undone base tx X home on e d s)
      (fun cause at_ s => (∃ hit, cause = .fault hit) ∧ at_ = .rollback e.role .check ∧ s = d) := by
  obtain ⟨info, current, hget, hident, hseen⟩ := h.retained e (by simp) hret
  rw [hcur] at hident
  cases hident
  obtain ⟨hplain, hcurrent⟩ := inspectNode_directory hseen
  have hinspect := inspectAt_directory hget hplain
  unfold retainExact
  refine Meets.look (fun hit s hs => ⟨⟨hit, rfl⟩, rfl, hs⟩) ?_ ?_
  · intro s err hs herr
    rw [hs, inspectExact_ok.mpr ⟨h.selinux, h.reach hapart, hinspect⟩, hcurrent] at herr
    simp [bind, Except.bind, InstallObjectIdentityV1.matchesPersistentObject] at herr
  · intro s _ hs _
    rw [hs]
    refine ⟨h.forget hret, fun _ _ => rfl, fun hno => ?_, fun hno => ?_, fun _ => rfl⟩ <;>
      (rw [hret] at hno; cases hno)

theorem isDirectory_of_retention : ∀ r : InstallRoleV1, r.isJournalRetentionDirectory = true → r.isDirectory = true := by
  decide

/-- **Taking back an entry.** -/
theorem undo_meets {step : Nat} (h : Standing base tx X d home (on ++ [e])) (hapart : Apart tx X e)
    (hcur : e.currentIdentity = some cur) :
    Meets (· = d) (undo (InstallJournalV1.rollbackActionOf e step cur)) (fun _ s => Undone base tx X home on e d s)
      (fun cause at_ s => ∃ step, at_ = .rollback e.role step ∧
        (match step with
          | .check | .change => s = d
          | .sync | .confirm => e.role.isJournalRetentionDirectory = false ∧ Undone base tx X home on e d s) ∧
        ∀ err, cause = .refusal err → e.role.isJournalRetentionDirectory = false ∧ ∃ child, X (e.role.path ++ [child])) := by
  have hlayout := h.layout e (by simp)
  cases hret : e.role.isJournalRetentionDirectory with
  | true =>
    have habsent := (hlayout.absent (hlayout.kind.mpr (isDirectory_of_retention _ hret))).1
    simp only [InstallJournalV1.rollbackActionOf, habsent, hret, if_true, undo]
    refine Meets.mono (retainExact_meets h hret hapart hcur) (fun s hs => hs) (fun _ s hs => hs) ?_
    intro cause at_ s ⟨⟨hit, hfault⟩, hat, hs⟩
    exact ⟨.check, hat, hs, fun err herr => by rw [hfault] at herr; cases herr⟩
  | false =>
    cases hprior : e.priorState with
    | absent =>
      simp only [InstallJournalV1.rollbackActionOf, hprior, hret, Bool.false_eq_true, if_false, undo]
      refine Meets.mono (rollbackRemoveExact_meets h hret hprior hapart hcur) (fun s hs => hs) (fun _ s hs => hs) ?_
      intro cause at_ s ⟨step, hat, hstop, hrefuse⟩
      refine ⟨step, hat, ?_, fun err herr => ⟨trivial, hrefuse err herr⟩⟩
      cases step with
      | check | change => exact hstop
      | sync | confirm => exact ⟨trivial, hstop⟩
    | priorOwned identity name =>
      simp only [InstallJournalV1.rollbackActionOf, hprior, undo]
      refine Meets.mono (rollbackRestoreExact_meets h hret hprior hapart hcur) (fun s hs => hs) (fun _ s hs => hs) ?_
      intro cause at_ s ⟨⟨hit, hfault⟩, step, hat, hstop⟩
      refine ⟨step, hat, ?_, fun err herr => by rw [hfault] at herr; cases herr⟩
      cases step with
      | check | change => exact hstop
      | sync | confirm => exact ⟨trivial, hstop⟩

/-- What is gone cannot be taken back. -/
theorem undo_gone {step : Nat} {Q : Unit → Disk → Prop} (hgone : Gone s e) (hret : e.role.isJournalRetentionDirectory = false) :
    Ends (· = s) (undo (InstallJournalV1.rollbackActionOf e step cur)) Q := by
  cases hprior : e.priorState with
  | absent =>
    simp only [Gone, hprior] at hgone
    simp only [InstallJournalV1.rollbackActionOf, hprior, hret, Bool.false_eq_true, if_false, undo]
    refine Ends.bind_never (Ends.look fun s' parent hs' hok => ?_)
    rw [hs'] at hok
    obtain ⟨observed, hobserved, -⟩ := bind_eq_ok.mp hok
    have := (inspectExact_ok.mp hobserved).2.2
    simp only [inspectAt, hgone] at this
    cases this
  | priorOwned identity name =>
    simp only [Gone, hprior] at hgone
    simp only [InstallJournalV1.rollbackActionOf, hprior, undo]
    refine Ends.bind_never (Ends.look fun s' parent hs' hok => ?_)
    rw [hs'] at hok
    obtain ⟨-, hrest⟩ := bind_unit_eq_ok.mp hok
    obtain ⟨found, hfound, hrest⟩ := bind_eq_ok.mp hrest
    obtain ⟨current, -, hrest⟩ := bind_eq_ok.mp hrest
    obtain ⟨backup, hbackup, -⟩ := bind_eq_ok.mp hrest
    rw [(openRoleParent_ok.mp hfound).1] at hbackup
    simp only [inspectAt, hgone] at hbackup
    cases hbackup

end Runner

/-! ### The whole command -/

/-- What a command leaves where it stops: a disk that the journal describes, a journal that cannot
be rolled back any more, or an object that the journal does not know of. -/
inductive Aftermath where
  | clean | lost | orphan (role : InstallRoleV1)
  deriving DecidableEq, Repr

/-- Where a stop of `rollback_journal` loses the journal. -/
def rollbackAftermath : Site → Aftermath
  | .rollback _ .sync | .rollback _ .confirm => .lost
  | .persist (.undone role) .check | .persist (.undone role) (.write .create) =>
    if role.isJournalRetentionDirectory then .clean else .lost
  | .persist _ (.write .create) => .clean
  | .persist _ (.write _) | .persist _ .rename => .lost
  | _ => .clean

/-- The missed object lies in a directory that is to be removed. -/
def Blocked (left : Option InstallRoleV1) (entries : List InstallJournalEntryV1) : Prop :=
  ∃ r ∈ left, ∃ e ∈ onOf entries, e.role.isJournalRetentionDirectory = false ∧ e.role.path = r.directory

variable {left : Option InstallRoleV1} {j j' : InstallJournalV1} {front rest : List InstallJournalEntryV1}

/-- Another entry of the same role in its place does not matter for the roles. -/
theorem forall_role_ne_of_split {entries : List InstallJournalEntryV1} {e' : InstallJournalEntryV1} {a : InstallRoleV1}
    (hsplit : entries = front ++ e :: rest) (hrole : e'.role = e.role) (h : ∀ x ∈ front ++ e' :: rest, x.role ≠ a) :
    ∀ x ∈ entries, x.role ≠ a := by
  intro x hx
  rw [hsplit] at hx
  rcases List.mem_append.mp hx with hx | hx
  · exact h x (by simp [hx])
  · rcases List.mem_cons.mp hx with rfl | hx
    · rw [← hrole]
      exact h e' (by simp)
    · exact h x (by simp [hx])

theorem onOf_split (he : e.inForce = true) (hrest : ∀ x ∈ rest, x.inForce = false) :
    onOf (front ++ e :: rest) = onOf front ++ [settled e] := by
  have hnone : rest.filter (·.inForce) = [] := List.filter_eq_nil_iff.mpr fun x hx => by simp [hrest x hx]
  simp [onOf, List.filter_append, he, hnone]

theorem onOf_undone (hrest : ∀ x ∈ rest, x.inForce = false) :
    onOf (front ++ {e with phase := .rolledBack} :: rest) = onOf front := by
  have hnone : rest.filter (·.inForce) = [] := List.filter_eq_nil_iff.mpr fun x hx => by simp [hrest x hx]
  have hno : ({e with phase := .rolledBack} : InstallJournalEntryV1).inForce = false := rfl
  simp [onOf, List.filter_append, hno, hnone]

theorem onOf_eq_nil {entries : List InstallJournalEntryV1} (h : onOf entries = []) : ∀ e ∈ entries, e.inForce = false := by
  intro e he
  have := List.filter_eq_nil_iff.mp (List.map_eq_nil_iff.mp h) e he
  simpa using this

/-- The missed object came after every entry in force, so it is in the way of none but its directory. -/
theorem Records.apart (h : Records base tx left home j d) (he : e ∈ onOf j.entries) : Apart tx (unknown tx left) e where
  names := by
    intro q hq ⟨r, hr, hname⟩
    have hlt := (h.leftovers r hr).2 e he
    rw [Named.eq_role hq hname] at hlt
    exact absurd hlt (Nat.lt_irrefl _)
  above := by
    intro a ha ⟨r, hr, hname⟩
    have hlt := (h.leftovers r hr).2 e he
    have hsame : a = r := Named.eq_role (.inl rfl) hname
    have := InstallRoleV1.installOrder_lt_of_above ha
    rw [hsame] at this
    omega

theorem Runner.lost_of_holds (h : Holds s tx home j) (hstate : j.state ≠ .rolledBack) (hstuck : Runner.Stuck j s) : Runner.Lost tx s := by
  intro found hload
  rw [h.load] at hload
  cases hload
  exact ⟨hstate, hstuck⟩

/-- What a stop of `rollback_journal` leaves. -/
def RollbackStop (base : Path → Option Node) (tx : String) (left : Option InstallRoleV1) (home : Path) (site : Site) (s : Disk) : Prop :=
  match rollbackAftermath site with
  | .clean => ∃ j, Recorded base tx left home j s ∧ (j.state = .applying ∨ j.state = .installed ∨ j.state = .rollingBack ∨ j.state = .rolledBack)
  | _ => Runner.Lost tx s

/-- The stops of `rollback_journal`: it refuses nothing unless it is blocked. -/
def RollbackStops (base : Path → Option Node) (tx : String) (left : Option InstallRoleV1) (home : Path) (blocked : Prop)
    (cause : Cause Unit) (site : Site) (s : Disk) : Prop :=
  (∀ err, cause = .refusal err → blocked) ∧ ∀ hit, cause = .fault hit → RollbackStop base tx left home site s

namespace Runner
open Fs

/-- A journal that is only an entry behind: the object is gone. -/
theorem lost_of_gone {action : InstallJournalRollbackActionV1} (h : Holds s tx home j) (hstate : j.state = .rollingBack)
    (hnext : j.nextRollbackAction = some action) (hundo : ∀ {Q : Unit → Disk → Prop}, Ends (· = s) (undo action) Q) :
    Lost tx s := by
  have hvalid := (InstallJournalV1.validate_iff j).mp h.readable
  refine lost_of_holds h (by simp [hstate]) (stuck_of_stray h.bound hvalid.entries ?_ ?_)
  · intro hno
    rw [hnext] at hno
    rcases hno with hno | hno
    · exact absurd hstate hno
    · cases hno
  · intro found hfound
    rw [hnext] at hfound
    cases hfound
    exact hundo

/-- The update of the journal is struck while the sibling is there. -/
theorem lost_of_stray {node : Node} (h : Holds d tx home j) (hstate : j.state ≠ .rolledBack)
    (hs : s.get = Function.update d.get (home ++ [journalSiblingBasename]) (some node))
    (hundo : ∀ action, j.nextRollbackAction = some action → Ends (· = s) (undo action) (fun _ s' => Stray tx s')) :
    Lost tx s := by
  have hvalid := (InstallJournalV1.validate_iff j).mp h.readable
  have hne : home ++ [journalBasename] ≠ home ++ [journalSiblingBasename] := fun heq =>
    journalSiblingBasename_ne (List.singleton_inj.mp (List.append_cancel_left heq)).symm
  have hholds : Holds s tx home j := by
    refine ⟨h.toAtHome.update hs, ?_, h.bound, h.readable⟩
    rw [hs, Function.update_of_ne hne]
    exact h.file
  exact lost_of_holds hholds hstate (stuck_of_stray h.bound hvalid.entries (fun _ => stray_of_update h.toAtHome hs) hundo)

/-- One more record, on a disk that does not change, of a journal that still can be rolled back. -/
theorem persist_stops {reason : PersistReason} {blocked : Prop} (h : Recorded base tx left home j d)
    (hstate : j.state = .applying ∨ j.state = .installed ∨ j.state = .rollingBack) (hnext : j.nextRollbackAction = none)
    (hreason : ∀ r, reason ≠ .undone r) (hnew : Records base tx left home j' d) (hbound : j'.bindings.transactionId = tx)
    (hvalid : j'.Valid) (hstate' : j'.state = .rollingBack ∨ j'.state = .rolledBack) :
    Meets (· = d) (fs (Fs.persistJournal reason j')) (fun _ s => Recorded base tx left home j' s)
      (RollbackStops base tx left home blocked) := by
  refine Meets.mono (persist_recorded h.toHolds h.alone hnew hbound hvalid) (fun s hs => hs) (fun _ s hs => hs.1) ?_
  intro cause at_ s ⟨⟨hit, hfault⟩, step, hat, hend⟩
  refine ⟨fun err herr => (by rw [hfault] at herr; cases herr), fun _ _ => ?_⟩
  rw [hat]
  have hold : s.get = d.get → ∃ j, Recorded base tx left home j s ∧
      (j.state = .applying ∨ j.state = .installed ∨ j.state = .rollingBack ∨ j.state = .rolledBack) := fun hs =>
    ⟨j, h.of_get hs, by tauto⟩
  have hstray : ∀ {node : Node}, s.get = Function.update d.get (home ++ [journalSiblingBasename]) (some node) → Lost tx s :=
    fun hs => lost_of_stray h.toHolds (by rcases hstate with h | h | h <;> simp [h]) hs
      fun action haction => by rw [hnext] at haction; cases haction
  have hnewer : Recorded base tx left home j' s → ∃ j, Recorded base tx left home j s ∧
      (j.state = .applying ∨ j.state = .installed ∨ j.state = .rollingBack ∨ j.state = .rolledBack) := fun hs =>
    ⟨j', hs, by tauto⟩
  cases reason with
  | undone r => exact absurd rfl (hreason r)
  | started | applied | verified | installed | begun | rolledBack =>
    cases step with
    | check => exact hold hend
    | write step =>
      cases step with
      | create => exact hold hend
      | write | own | mode | fileSync =>
        obtain ⟨node, hs⟩ := hend
        exact hstray hs
    | rename =>
      obtain ⟨node, hs⟩ := hend
      exact hstray hs
    | sync | validate => exact hnewer hend.1

/-- **One round.** -/
theorem rollbackRound_meets {action : InstallJournalRollbackActionV1} (h : Recorded base tx left home j d)
    (hnext : j.nextRollbackAction = some action) :
    Meets (· = d) (rollbackRound j action)
      (fun j' s => Recorded base tx left home j' s ∧ j'.state = .rollingBack ∧
        (onOf j'.entries).length + 1 = (onOf j.entries).length ∧ (Blocked left j'.entries ↔ Blocked left j.entries) ∧
        j'.entries.map (·.role) = j.entries.map (·.role))
      (RollbackStops base tx left home (Blocked left j.entries)) := by
  obtain ⟨hstate, hpossible, hstep, front, e, rest, cur, hsplit, hrest, he, hcur, rfl⟩ :=
    InstallJournalV1.nextRollbackAction_some hnext
  have hvalid := h.valid_journal
  have hok : EntriesOk j.entries := hvalid.entries (by simp [hstate])
  have hon : onOf j.entries = onOf front ++ [settled e] := by rw [hsplit, onOf_split he hrest]
  have hmem : settled e ∈ onOf j.entries := by simp [hon]
  have hapart := h.toRecords.apart hmem
  have hstanding : Standing base tx (unknown tx left) d home (onOf front ++ [settled e]) := hon ▸ h.standing
  -- the journal after this round
  obtain ⟨last, hlast⟩ : ∃ last, last = j.moved .rollingBack (front ++ {e with phase := .rolledBack} :: rest) := ⟨_, rfl⟩
  have hrecord : j.recordRollbackCompleted (InstallJournalV1.rollbackActionOf e (j.durableStep + 1) cur) = (.ok (), last) := by
    rw [hlast, InstallJournalV1.recordRollbackCompleted_eq hok hstate hpossible hsplit hrest he hcur hstep]
  have hlastValid : last.Valid :=
    valid_of_ok (o := .recordRollbackCompleted _) hvalid hrecord fun hslip => hslip
  have hlastOn : onOf last.entries = onOf front := by
    rw [hlast]
    exact onOf_undone hrest
  have hlength : (onOf last.entries).length + 1 = (onOf j.entries).length := by simp [hlastOn, hon]
  have hbelow : ∀ x ∈ onOf last.entries, x ∈ onOf j.entries := fun x hx => by
    rw [hlastOn] at hx
    simp [hon, hx]
  have hroles : last.entries.map (·.role) = j.entries.map (·.role) := by
    rw [hlast, hsplit]
    simp [InstallJournalV1.moved]
  -- the disk after the entry has been taken back, in the terms of the new journal
  have hrecords : ∀ {s : Disk}, Undone base tx (unknown tx left) home (onOf front) (settled e) d s →
      Records base tx left home last s := by
    intro s hs
    refine ⟨hlastOn ▸ hs.standing, ?_, by rw [hlast]; exact hpossible, ?_, ?_, ?_⟩
    · intro x hx
      have hold : ∀ y ∈ j.entries, NamedEntry tx y := h.named
      rw [hlast] at hx
      rw [hsplit] at hold
      rcases List.mem_append.mp hx with hx | hx
      · exact hold x (by simp [hx])
      · rcases List.mem_cons.mp hx with rfl | hx
        · exact hold e (by simp)
        · exact hold x (by simp [hx])
    · have hroom := h.room
      rw [hstate] at hroom
      have hstep' : last.durableStep = j.durableStep + 1 := by rw [hlast]; rfl
      have hstate' : last.state = .rollingBack := by rw [hlast]; rfl
      rw [hstep', hstate']
      omega
    · intro r hr
      obtain ⟨⟨q, hq, hleft, hfree⟩, horder⟩ := h.leftovers r hr
      have hother : ¬Named tx (settled e).role q := fun hn => hapart.names q hn ⟨r, hr, hq⟩
      exact ⟨⟨q, hq, by rwa [hs.outside q hother], hfree⟩, fun x hx => horder x (hbelow x hx)⟩
    · intro a ha hother
      rw [hlast] at hother
      change ∀ x ∈ front ++ {e with phase := .rolledBack} :: rest, x.role ≠ a at hother
      have hnot : ¬Named tx (settled e).role a.path := fun hn =>
        hother {e with phase := .rolledBack} (by simp) (Named.eq_role hn (.inl rfl))
      rw [hs.outside _ hnot]
      exact h.kept a ha (forall_role_ne_of_split hsplit (by rfl) hother)
  -- the old journal is still there
  have hholds : ∀ {s : Disk}, Undone base tx (unknown tx left) home (onOf front) (settled e) d s →
      Holds s tx home j ∧ s.get (home ++ [journalSiblingBasename]) = none := by
    intro s hs
    have hprivate : ∀ name, s.get (home ++ [name]) = d.get (home ++ [name]) := fun name =>
      hs.outside _ fun hn => hn.not_private (h.toAtHome.private [name])
    exact ⟨⟨hs.standing.toAtHome, by rw [hprivate]; exact h.file, h.bound, h.readable⟩, by rw [hprivate, h.alone]⟩
  have hblocked : ∀ {s : Disk}, Undone base tx (unknown tx left) home (onOf front) (settled e) d s →
      (Blocked left last.entries ↔ Blocked left j.entries) := by
    intro s hs
    constructor
    · rintro ⟨r, hr, x, hx, hrest⟩
      exact ⟨r, hr, x, hbelow x hx, hrest⟩
    · rintro ⟨r, hr, x, hx, hkeep, hpath⟩
      rw [hon] at hx
      rcases List.mem_append.mp hx with hx | hx
      · exact ⟨r, hr, x, by rw [hlastOn]; exact hx, hkeep, hpath⟩
      · -- the directory was not empty
        obtain rfl := List.mem_singleton.mp hx
        obtain ⟨⟨q, hq, hleft, -⟩, -⟩ := h.leftovers r hr
        obtain ⟨name, rfl⟩ := hq.exists_name
        rw [← hpath] at hleft
        exact absurd (hs.empty hkeep name) hleft
  have hundoGone : ∀ {s : Disk}, Gone s e → e.role.isJournalRetentionDirectory = false → ∀ {Q : Unit → Disk → Prop},
      Ends (· = s) (undo (InstallJournalV1.rollbackActionOf e (j.durableStep + 1) cur)) Q := fun hgone hret =>
    undo_gone hgone hret
  unfold rollbackRound
  refine Meets.bind (Q := fun _ s => Undone base tx (unknown tx left) home (onOf front) (settled e) d s) ?_ fun _ => ?_
  · refine fs_meets (undo_meets (e := settled e) hstanding hapart hcur) ?_ ?_
    · rintro hit at_ s ⟨step, hat, hstop, _⟩
      refine ⟨fun err herr => (by cases herr), fun _ _ => ?_⟩
      rw [hat]
      cases step with
      | check | change => exact ⟨j, hstop ▸ h, .inr (.inr (.inl hstate))⟩
      | sync | confirm =>
        exact lost_of_gone (hholds hstop.2).1 hstate hnext (hundoGone (hstop.2.gone hstop.1) hstop.1)
    · rintro err at_ s ⟨step, hat, _, hrefuse⟩
      obtain ⟨hkeep, child, r, hr, hname⟩ := hrefuse err rfl
      obtain ⟨name, hpath⟩ := hname.exists_name
      exact ⟨fun _ _ => ⟨r, hr, settled e, hmem, hkeep, (List.append_inj' hpath rfl).1⟩, fun _ hfault => by cases hfault⟩
  refine Meets.bind (record_ok hrecord) fun found => ?_
  refine Meets.intro fun t hmet => ?_
  obtain ⟨hfound, ht⟩ := hmet
  rw [hfound]
  refine Meets.bind (Q := fun _ s => Recorded base tx left home last s ∧ (Blocked left last.entries ↔ Blocked left j.entries)) ?_
    fun _ => Meets.pure fun s hs => ⟨hs.1, by rw [hlast]; rfl, hlength, hs.2, hroles⟩
  have hbound : last.bindings.transactionId = tx := by
    rw [hlast]
    exact h.bound
  refine Meets.mono (persist_recorded (hholds ht).1 (hholds ht).2 (hrecords ht) hbound hlastValid) (fun s hs => hs)
    (fun _ s hs => ⟨hs.1, hblocked ht⟩) ?_
  rintro cause at_ s ⟨⟨hit, hfault⟩, step, hat, hend⟩
  refine ⟨fun err herr => (by rw [hfault] at herr; cases herr), fun _ _ => ?_⟩
  rw [hat, InstallJournalV1.rollbackActionOf_role]
  have hnewer : Recorded base tx left home last s → ∃ j, Recorded base tx left home j s ∧
      (j.state = .applying ∨ j.state = .installed ∨ j.state = .rollingBack ∨ j.state = .rolledBack) := fun hs =>
    ⟨last, hs, .inr (.inr (.inl (by rw [hlast]; rfl)))⟩
  have hstray : ∀ {node : Node}, s.get = Function.update t.get (home ++ [journalSiblingBasename]) (some node) → Lost tx s := by
    intro node hs
    refine lost_of_stray (hholds ht).1 (by simp [hstate]) hs fun action haction => ?_
    rw [hnext] at haction
    cases haction
    cases hret : e.role.isJournalRetentionDirectory with
    | true =>
      -- it is only looked at again
      have habsent := ((h.standing.layout (settled e) hmem).absent
        ((h.standing.layout (settled e) hmem).kind.mpr (isDirectory_of_retention _ hret))).1
      simp only [InstallJournalV1.rollbackActionOf, show e.priorState = .absent from habsent, hret, if_true, undo]
      refine Ends.look fun s' _ hs' _ => ?_
      rw [hs']
      exact stray_of_update (hholds ht).1.toAtHome hs
    | false =>
      refine hundoGone ((ht.gone hret).congr (h.standing.named _ hmem) fun q hq => ?_) hret
      have hne : q ≠ home ++ [journalSiblingBasename] := fun heq =>
        hq.not_private (heq ▸ h.toAtHome.private [journalSiblingBasename])
      rw [hs, Function.update_of_ne hne]
  have hbefore : s.get = t.get → RollbackStop base tx left home (.persist (.undone e.role) .check) s := by
    intro hs
    cases hret : e.role.isJournalRetentionDirectory with
    | true =>
      simp only [RollbackStop, rollbackAftermath, hret, if_true]
      refine ⟨j, h.of_get ?_, .inr (.inr (.inl hstate))⟩
      rw [hs, ht.same hret]
    | false =>
      simp only [RollbackStop, rollbackAftermath, hret, Bool.false_eq_true, if_false]
      have hgone : Gone s e := (ht.gone hret).congr (h.standing.named _ hmem) fun q _ => by rw [hs]
      exact lost_of_gone ((hholds ht).1.of_get hs) hstate hnext (hundoGone hgone hret)
  cases step with
  | check => exact hbefore hend
  | write step =>
    cases step with
    | create => exact hbefore hend
    | write | own | mode | fileSync =>
      obtain ⟨node, hs⟩ := hend
      exact hstray hs
  | rename =>
    obtain ⟨node, hs⟩ := hend
    exact hstray hs
  | sync | validate => exact hnewer hend.1

/-- **Rolling back.** The way back refuses nothing unless it is blocked, and then it does not end. -/
theorem rollback_meets (h : Recorded base tx left home j d)
    (hstate : j.state = .applying ∨ j.state = .installed ∨ j.state = .rollingBack) :
    Meets (· = d) (rollbackJournal j)
      (fun j' s => Recorded base tx left home j' s ∧ j'.state = .rolledBack ∧ onOf j'.entries = [] ∧ ¬Blocked left j.entries ∧
        j'.entries.map (·.role) = j.entries.map (·.role))
      (RollbackStops base tx left home (Blocked left j.entries)) := by
  unfold rollbackJournal
  refine Meets.bind (Q := fun rolling s => Recorded base tx left home rolling s ∧ rolling.state = .rollingBack ∧
    rolling.entries = j.entries) ?_ fun rolling => ?_
  · unfold ensureRollingBack
    by_cases hrolling : j.state = .rollingBack
    · rw [if_neg (not_not_intro hrolling)]
      exact Meets.pure fun s hs => ⟨hs ▸ h, hrolling, rfl⟩
    · rw [if_pos hrolling]
      have hbegin := InstallJournalV1.beginRollback_eq (by tauto) h.possible h.toRecords.step_lt
      refine Meets.bind (record_ok hbegin) fun begun => Meets.intro fun s ⟨hbegun, hs⟩ => ?_
      rw [hbegun, hs]
      have hrecords : Records base tx left home (j.moved .rollingBack j.entries) d := by
        refine ⟨h.standing, h.named, h.possible, ?_, h.leftovers, h.kept⟩
        have hroom := h.room
        have hslack : slack j.state = 2 := by rcases hstate with hj | hj | hj <;> simp_all [slack]
        rw [hslack] at hroom
        show j.durableStep + 1 + (onOf j.entries).length + 1 ≤ 128
        omega
      refine Meets.bind (persist_stops h hstate ?_ (fun r hr => by cases hr) hrecords h.bound
        (valid_of_ok (o := .beginRollback) h.valid_journal hbegin fun hslip => hslip) (.inl rfl)) fun _ =>
          Meets.pure fun s hs => ⟨hs, rfl, rfl⟩
      unfold InstallJournalV1.nextRollbackAction
      rw [if_pos (.inl hrolling)]
  refine Meets.intro fun s ⟨hrec, hrolling, hentries⟩ => ?_
  refine Meets.bind (Q := fun undone t => Recorded base tx left home undone t ∧ undone.state = .rollingBack ∧
    onOf undone.entries = [] ∧ ¬Blocked left j.entries ∧ undone.entries.map (·.role) = j.entries.map (·.role)) ?_ fun undone => ?_
  · have hloop := Meets.loop (f := fun journal => journal.nextRollbackAction.map (rollbackRound journal))
      (x := exhausted) (I := RollbackStops base tx left home (Blocked left j.entries))
      (J := fun k journal t => Recorded base tx left home journal t ∧ journal.state = .rollingBack ∧
        (onOf journal.entries).length = k ∧ (Blocked left journal.entries ↔ Blocked left j.entries) ∧
        journal.entries.map (·.role) = j.entries.map (·.role)) ?_ ?_
      rolling.entries.length (onOf rolling.entries).length ?_ rolling
    · refine Meets.mono hloop (fun t ht => ?_) ?_ (fun _ _ _ hI => hI)
      · rw [ht]
        exact ⟨hrec, hrolling, rfl, by rw [hentries], by rw [hentries]⟩
      · intro undone t ⟨hnext, k, hrec', hstate', hlength, hblocked, hroles⟩
        have hnone := hrec'.valid_journal.none_inForce hstate' hrec'.possible (by simpa using hnext) hrec'.toRecords.step_lt
        have hempty : onOf undone.entries = [] :=
          List.map_eq_nil_iff.mpr (List.filter_eq_nil_iff.mpr fun x hx => by simp [hnone x hx])
        refine ⟨hrec', hstate', hempty, fun hb => ?_, hroles⟩
        obtain ⟨r, hr, x, hx, -⟩ := hblocked.mpr hb
        rw [hempty] at hx
        cases hx
    · intro k journal body hbody
      obtain ⟨action, hnext, rfl⟩ := Option.map_eq_some_iff.mp hbody
      refine Meets.intro fun t ⟨hrec', hstate', hlength, hblocked, hroles⟩ => ?_
      refine Meets.mono (rollbackRound_meets hrec' hnext) (fun u hu => hu) ?_ ?_
      · intro journal' u ⟨hrec'', hstate'', hlength', hblocked', hroles'⟩
        exact ⟨hrec'', hstate'', by omega, hblocked'.trans hblocked, hroles'.trans hroles⟩
      · intro cause at_ u hstops
        exact ⟨fun err herr => hblocked.mp (hstops.1 err herr), hstops.2⟩
    · intro journal t ⟨_, _, hlength, _⟩
      have hno := onOf_eq_nil (List.length_eq_zero_iff.mp hlength)
      show journal.nextRollbackAction.map (rollbackRound journal) = none
      rw [nextRollbackAction_none hno]
      rfl
    · rw [onOf, List.length_map]
      exact List.length_filter_le ..
  refine Meets.intro fun t ⟨hrec', hstate', hempty, hblocked, hroles⟩ => ?_
  have hnext := nextRollbackAction_none (onOf_eq_nil hempty)
  have hmark := InstallJournalV1.markRolledBack_eq hstate' hnext hrec'.toRecords.step_lt
  refine Meets.bind (record_ok hmark) fun final => Meets.intro fun u ⟨hfinal, hu⟩ => ?_
  rw [hfinal, hu]
  have hrecords : Records base tx left home (undone.moved .rolledBack undone.entries) t := by
    refine ⟨hrec'.standing, hrec'.named, hrec'.possible, ?_, hrec'.leftovers, hrec'.kept⟩
    have hroom := hrec'.room
    rw [hstate', slack] at hroom
    show undone.durableStep + 1 + (onOf undone.entries).length + 0 ≤ 128
    omega
  have hno : ¬JournalOperation.markRolledBack.Slips undone := fun hslip => by
    have := hslip.1
    rw [hrec'.possible] at this
    cases this
  refine Meets.bind (persist_stops hrec' (.inr (.inr hstate')) hnext (fun r hr => by cases hr) hrecords hrec'.bound
    (valid_of_ok (o := .markRolledBack) hrec'.valid_journal hmark hno) (.inr rfl)) fun _ => ?_
  exact Meets.pure fun v hv => ⟨hv, rfl, hempty, hblocked, hroles⟩

end Runner

end NetworkLoop.Install
