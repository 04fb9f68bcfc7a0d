import NetworkLoop.Install.Placing

/-! What a failed step of `apply_entry` leaves.

`Placing` follows entries whose names are those of their transaction. Here the names are
whatever the journal accepts. Names that coincide do no harm: the checks leave two ways
for it, and in both a rename that replaces nothing refuses before anything has moved
(`replaceFile_clash`). So every failure is cleaned up, but for one that comes too early for
the clean-up: the opening of a directory that has just been made (`applyEntry_kept_iff`). -/
namespace NetworkLoop.Install
open Library Program Disk

/-- The three names of an entry have what they had. -/
structure NamesKept (e : InstallJournalEntryV1) (d s : Disk) : Prop where
  destination : s.get e.role.path = d.get e.role.path
  sibling : ∀ name, e.siblingBasename = some name → s.get (e.role.directory ++ [name]) = d.get (e.role.directory ++ [name])
  backup : ∀ identity name, e.priorState = .priorOwned identity name →
    s.get (e.role.directory ++ [name]) = d.get (e.role.directory ++ [name])

namespace Fs
variable {d : Disk} {e : InstallJournalEntryV1} {payload : Option Payload}

/-! ### Names that coincide -/

section Clash
variable {s : Disk} {sibling : String} {n : Node}

/-- The new file is made where something else is to go. -/
def Clash (e : InstallJournalEntryV1) (sibling : String) : Prop :=
  (e.priorState = .absent ∧ e.role.directory ++ [sibling] = e.role.path) ∨
    ∃ identity name, e.priorState = .priorOwned identity name ∧ e.role.directory ++ [sibling] = e.role.directory ++ [name]

/-- What the checks find free or taken tells the names apart, as far as it matters. -/
theorem distinct_or_clash (hsib : e.siblingBasename = some sibling) (hvacant : Vacant d.get e)
    (hfree : d.get (e.role.directory ++ [sibling]) = none) : DistinctNames e ∨ Clash e sibling := by
  rw [Vacant] at hvacant
  cases hprior : e.priorState with
  | absent =>
    by_cases heq : e.role.directory ++ [sibling] = e.role.path
    · exact .inr (.inl ⟨hprior, heq⟩)
    · refine .inl ⟨fun {name} hname => ?_, fun h => ?_, fun _ h => ?_⟩
      · rw [hsib] at hname
        cases hname
        exact heq
      · rw [hprior] at h
        cases h
      · rw [hprior] at h
        cases h
  | priorOwned identity name =>
    simp only [hprior] at hvacant
    obtain ⟨hbackup, m, hpath, -⟩ := hvacant
    have htaken : ∀ {p : Path}, d.get p = none → p ≠ e.role.path := fun hnone heq => by
      rw [heq, hpath] at hnone
      cases hnone
    by_cases heq : e.role.directory ++ [sibling] = e.role.directory ++ [name]
    · exact .inr (.inr ⟨identity, name, hprior, heq⟩)
    · refine .inl ⟨fun {other} hother => ?_, fun {i other} hother => ?_, fun {x i other} hx hother => ?_⟩
      · rw [hsib] at hother
        cases hother
        exact htaken hfree
      · rw [hprior] at hother
        cases hother
        exact htaken hbackup
      · rw [hsib] at hx
        rw [hprior] at hother
        cases hx
        cases hother
        exact heq

/-- While nothing has moved, the error path removes the new file. -/
theorem removeFile_beside {k : EntrySite} (hfree : d.get (e.role.directory ++ [sibling]) = none) (hfile : n.isDirectory = false)
    (hs : s.get = Function.update d.get (e.role.directory ++ [sibling]) (some n)) (hfinal : k.finalMoved = false)
    (hbackup : k.backupMoved = true → priorOf e = none) :
    (removeFile e e.role.directory sibling (priorOf e) k s).get = d.get := by
  have hcleared : Function.update d.get (e.role.directory ++ [sibling]) none = d.get :=
    Function.update_eq_self_iff.mpr hfree.symm
  have hremoved : (tryTo (unlinkat · e.role.directory sibling false) s).get = d.get := by
    rw [unlinkFile_get (n := n) (by rw [hs, Function.update_self]) hfile, hs, Function.update_idem, hcleared]
  unfold removeFile
  rw [hfinal]
  dsimp only [Bool.false_eq_true, if_false]
  cases hprior : priorOf e with
  | none => exact hremoved
  | some prior =>
    have hkept : k.backupMoved = false := by
      cases hk : k.backupMoved with
      | false => rfl
      | true =>
        rw [hbackup hk] at hprior
        cases hprior
    simp only [hkept]
    exact hremoved

/-- The rename to the name that the new file has taken refuses. -/
theorem replaceFile_clash (hclash : Clash e sibling)
    (hfree : d.get (e.role.directory ++ [sibling]) = none) (hfile : n.isDirectory = false) :
    Meets (fun s => s.get = Function.update d.get (e.role.directory ++ [sibling]) (some n))
      (replaceFile e e.role.directory sibling (priorOf e)) (fun _ _ => True)
      (fun _ site s => (removeFile e e.role.directory sibling (priorOf e) site.entryStep s).get = d.get) := by
  rw [replaceFile]
  rcases hclash with ⟨hprior, hsame⟩ | ⟨identity, name, hprior, hsame⟩
  · have hnone : priorOf e = none := by rw [priorOf, hprior]
    have hclean : ∀ {s : Disk}, s.get = Function.update d.get (e.role.directory ++ [sibling]) (some n) →
        (removeFile e e.role.directory sibling (priorOf e) (Site.entry e.role .place).entryStep s).get = d.get :=
      fun hs => removeFile_beside hfree hfile hs rfl fun _ => hnone
    rw [hnone] at hclean ⊢
    refine Meets.bind (Q := fun _ s => s.get = Function.update d.get (e.role.directory ++ [sibling]) (some n))
      (Meets.pure fun s hs => hs) fun _ => ?_
    refine Meets.bind (Q := fun _ _ => False) ?_ fun _ => fun _ _ h => h.elim
    refine Meets.perform (fun hit s hs => hclean hs) (fun s err hs _ => hclean hs) ?_
    intro s s' hs hok
    have hthere : (s.get (e.role.directory ++ [e.role.basename])).isSome = true := by
      rw [← e.role.path_eq, ← hsame, hs, Function.update_self]
      rfl
    rw [renameatNoreplace, if_pos hthere] at hok
    cases hok
  · have hsome : priorOf e = some (identity, name) := by rw [priorOf, hprior]
    have hclean : ∀ {s : Disk}, s.get = Function.update d.get (e.role.directory ++ [sibling]) (some n) →
        (removeFile e e.role.directory sibling (priorOf e) (Site.entry e.role .backup).entryStep s).get = d.get :=
      fun hs => removeFile_beside hfree hfile hs rfl fun hk => (by cases hk)
    rw [hsome] at hclean ⊢
    rw [moveBackup]
    refine Meets.bind (Q := fun _ _ => False) ?_ fun _ => fun _ _ h => h.elim
    refine Meets.bind (Q := fun _ _ => False) ?_ fun _ => fun _ _ h => h.elim
    refine Meets.perform (fun hit s hs => hclean hs) (fun s err hs _ => hclean hs) ?_
    intro s s' hs hok
    have hthere : (s.get (e.role.directory ++ [name])).isSome = true := by
      rw [← hsame, hs, Function.update_self]
      rfl
    rw [renameatNoreplace, if_pos hthere] at hok
    cases hok

end Clash

/-! ### Every failure is cleaned up -/

/-- From the new file to the end, whatever the names are. -/
theorem fileBody_meets {sibling : String} {pl : Payload} {info : Metadata} {content : Content} (hlayout : EntryLayout e)
    (hkind : e.intended.kind = .regularFile) (hsib : e.siblingBasename = some sibling) (hvacant : Vacant d.get e)
    (hfree : d.get (e.role.directory ++ [sibling]) = none) (hplain : info.plain = true) :
    Meets (fun s => s.get = Function.update d.get (e.role.directory ++ [sibling]) (some (.file info 1 content)))
      (do
        prepareFile e pl (e.role.directory ++ [sibling])
        replaceFile e e.role.directory sibling (priorOf e))
      (fun _ _ => True)
      (fun _ site s => (removeFile e e.role.directory sibling (priorOf e) site.entryStep s).get = d.get) := by
  have hfinal : ∀ {k : EntrySite}, k.backupMoved = false → k.finalMoved = false := fun {k} h => by
    revert h
    cases k <;> decide
  refine Meets.bind (Meets.mono (prepareFile_meets hlayout hkind hplain) (fun _ hs => hs) (fun _ _ hs => hs) ?_) fun _ => ?_
  · rintro cause site s ⟨⟨⟨step, rfl, -, -, n, hfile, hs⟩, -⟩, hbackup⟩
    have hbackup : step.backupMoved = false := hbackup
    have hbeside : s.get = Function.update d.get (e.role.directory ++ [sibling]) (some n) := by
      rw [hs, stageOn, hfinal hbackup, hbackup]
      rfl
    exact removeFile_beside hfree hfile hbeside (hfinal hbackup) fun hk => Bool.noConfusion (hbackup.symm.trans hk)
  · refine Meets.intro fun s₀ hmet => ?_
    obtain ⟨n, identity, hfile, hseen, -, hintended, hs₀⟩ := hmet
    rcases distinct_or_clash hsib hvacant hfree with hnames | hclash
    · refine Meets.mono (@replaceFile_meets d e sibling pl n identity hnames hsib hvacant hfree hfile hseen hintended)
        (fun s hs => by rw [hs]; exact hs₀) (fun _ _ _ => trivial) ?_
      rintro cause site s ⟨⟨step, rfl, -, -, m, hfile, hs⟩, -⟩
      exact removeFile_get hnames hsib hvacant hfree hfile hs
    · exact Meets.mono (replaceFile_clash hclash hfree hfile) (fun s hs => by rw [hs]; exact hs₀)
        (fun _ _ _ => trivial) fun _ _ _ h => h

/-- A file is applied, or the disk is as it was. -/
theorem applyFile_kept (hlayout : EntryLayout e) (hkind : e.intended.kind = .regularFile) :
    Meets (· = d) (applyFile e payload) (fun _ _ => True) (fun cause _ s => cause ≠ .fault .crash → s.get = d.get) := by
  rw [applyFile]
  refine Meets.bind (Q := fun found s => s = d ∧ fileCheck e payload d = .ok found) ?_ fun found => ?_
  · refine Meets.look (fun hit s hs _ => by rw [hs]) (fun s err hs _ _ => by rw [hs]) ?_
    intro s found hs hok
    rw [hs] at hok
    exact ⟨hs, hok⟩
  obtain ⟨pl, parent, sibling, prior⟩ := found
  refine Meets.intro fun s₀ hmet => ?_
  obtain ⟨rfl, hcheck⟩ := hmet
  obtain ⟨-, rfl, hsib, rfl, hfree, hvacant, -⟩ := (fileCheck_ok hlayout hkind).mp hcheck
  refine Meets.bind (Q := fun _ s => ∃ info, info.plain = true ∧ s.get =
      Function.update s₀.get (e.role.directory ++ [sibling]) (some (.file info 1 (.blob emptyDigest)))) ?_ fun _ => ?_
  · refine Meets.perform (fun hit s hs _ => by rw [hs]) (fun s err hs _ _ => by rw [hs]) ?_
    intro s s' hs hok
    rw [hs] at hok
    obtain ⟨info, -, -, hs'⟩ := create_ok hok
    exact ⟨_, rfl, hs'⟩
  refine Meets.intro fun s₁ hmet => ?_
  obtain ⟨info, hplain, hs₁⟩ := hmet
  refine Meets.mono (Meets.protect (fileBody_meets hlayout hkind hsib hvacant hfree hplain) ?_ ?_)
    (fun s hs => by rw [hs]; exact hs₁) (fun _ _ _ => trivial) fun _ _ _ h => h
  · exact fun _ _ _ hno => absurd rfl hno
  · exact fun _ _ _ _ hclean _ => hclean

/-- A directory is applied, or the disk is as it was, unless its opening fails. -/
theorem applyDirectory_kept (hlayout : EntryLayout e) (hkind : e.intended.kind = .directory) :
    Meets (· = d) (applyDirectory e payload) (fun _ _ => True)
      (fun cause site s => cause ≠ .fault .crash → ¬(cause = .fault .failure ∧ site = .entry e.role .open) → s.get = d.get) := by
  refine Meets.mono (@applyDirectory_meets d "" e payload hlayout hkind) (fun _ hs => hs) (fun _ _ _ => trivial) ?_
  rintro cause site s ⟨step, rfl, hleft, -⟩ hcrash hopen
  have hno : leavesResidue cause step = false := by
    refine leavesResidue_of_cleaned hcrash fun hfailure => ?_
    cases step with
    | «open» => exact absurd ⟨hfailure, rfl⟩ hopen
    | _ => rfl
  rw [hno] at hleft
  exact hleft

/-! ### The failure that comes too early -/

/-- How far `apply_directory` gets when the opening of the directory fails. -/
theorem applyDirectory_open : applyDirectory e payload (some (.failure, .entry e.role .open)) d =
    match directoryCheck e payload d with
    | .error err => .stopped (.refusal err) (.entry e.role .check) d
    | .ok parent =>
      match mkdirat d parent e.role.basename e.intended.mode with
      | .error err => .stopped (.refusal err) (.entry e.role .create) d
      | .ok made => .stopped (.fault .failure) (.entry e.role .open) made := by
  have hhits : ∀ k : EntrySite, hits (some (Fault.failure, Site.entry e.role .open)) (.entry e.role k) =
      if k = .open then some .failure else none := by
    intro k
    cases k <;> simp [hits]
  rw [applyDirectory]
  simp only [bind, look, perform, step, hhits, reduceCtorEq, if_false, if_true]
  cases directoryCheck e payload d with
  | error err => rfl
  | ok parent =>
    simp only [Except.map]
    cases mkdirat d parent e.role.basename e.intended.mode with
    | error err => rfl
    | ok made => rfl

/-- The directory that has been made and could not be opened stays. -/
theorem opened_not_kept {parent : Path} {made : Disk} (hcheck : directoryCheck e payload d = .ok parent)
    (hmade : mkdirat d parent e.role.basename e.intended.mode = .ok made) : ¬NamesKept e d made := by
  intro hkept
  obtain ⟨rfl, -, -, hfree, -⟩ := directoryCheck_inv hcheck
  obtain ⟨info, -, -, hget⟩ := create_ok hmade
  rw [← e.role.path_eq] at hget
  have hthere := hkept.destination
  rw [hfree, hget, Function.update_self] at hthere
  cases hthere

/-- **`apply_entry` is all or nothing**, whichever of its steps fails, unless that step is
the opening of the directory that it has just made. -/
theorem applyEntry_kept_iff (d : Disk) (e : InstallJournalEntryV1) (payload : Option Payload) (failing : Option Site)
    (hvalid : e.validate = .ok ()) :
    (∀ cause site s, applyEntry e payload (failing.map fun site => (.failure, site)) d = .stopped cause site s →
      NamesKept e d s) ↔
      ¬(e.intended.kind = .directory ∧ failing = some (.entry e.role .open) ∧
        ∃ parent made, directoryCheck e payload d = .ok parent ∧
          mkdirat d parent e.role.basename e.intended.mode = .ok made) := by
  have hlayout := entryLayout_of_validate hvalid
  have hfailure : ∀ {site : Site} {f : Fault}, (failing.map fun site => (Fault.failure, site)) = some (f, site) →
      f = .failure ∧ failing = some site := fun h => by
    obtain ⟨hit, hhit, heq⟩ := Option.map_eq_some_iff.mp h
    cases heq
    exact ⟨rfl, hhit⟩
  have hnames : ∀ {s : Disk}, s.get = d.get → NamesKept e d s := fun h =>
    ⟨congrFun h _, fun _ _ => congrFun h _, fun _ _ _ => congrFun h _⟩
  constructor
  · rintro hkept ⟨hkind, rfl, parent, made, hcheck, hmade⟩
    refine opened_not_kept hcheck hmade (hkept (.fault .failure) (.entry e.role .open) made ?_)
    have hrun : applyEntry e payload = applyDirectory e payload := by rw [applyEntry, hkind]
    rw [hrun, Option.map_some, applyDirectory_open, hcheck]
    dsimp only
    rw [hmade]
  · intro hearly cause site s hrun
    cases hkind : e.intended.kind with
    | regularFile =>
      have hentry : applyEntry e payload = applyFile e payload := by rw [applyEntry, hkind]
      rw [hentry] at hrun
      refine hnames ((applyFile_kept hlayout hkind).stopped rfl hrun ?_)
      rintro rfl
      exact Fault.noConfusion (hfailure ((applyFile_kept hlayout hkind).struck rfl hrun)).1
    | directory =>
      have hentry : applyEntry e payload = applyDirectory e payload := by rw [applyEntry, hkind]
      rw [hentry] at hrun
      refine hnames ((applyDirectory_kept hlayout hkind).stopped rfl hrun ?_ ?_)
      · rintro rfl
        exact Fault.noConfusion (hfailure ((applyDirectory_kept hlayout hkind).struck rfl hrun)).1
      · rintro ⟨rfl, rfl⟩
        obtain ⟨-, hfailing⟩ := hfailure ((applyDirectory_kept hlayout hkind).struck rfl hrun)
        rw [hfailing, Option.map_some, applyDirectory_open] at hrun
        split at hrun
        · cases hrun
        · rename_i parent hcheck
          split at hrun
          · cases hrun
          · rename_i made hmade
            exact hearly ⟨hkind, hfailing, parent, made, hcheck, hmade⟩

/-! A disk with nothing on it, and the entry for a directory there. -/

theorem bareNumber_ne : (1 : Nat) ≠ 0 := by decide

theorem bareMode_le : (0o755 : Nat) ≤ 0o7777 := by decide

def bareRoot : Disk where
  table := AList.singleton [] (.directory ⟨1, 1, 0o755, 0, 0, true, bareNumber_ne, bareNumber_ne, bareMode_le⟩)
  closed := by
    intro q name n h
    have hmem := List.mem_singleton.mp (AList.mem_lookup_iff.mp h)
    exact absurd (congrArg Sigma.fst hmem) (by simp)

def usrEntry : InstallJournalEntryV1 where
  role := .usrRoot
  fixedPath := "/usr"
  intended := ⟨.directory, none, 0o755, 0, 0⟩
  siblingBasename := none
  priorState := .absent
  currentIdentity := none
  createdParentIdentity := none
  phase := .pending

theorem directoryCheck_bare : directoryCheck usrEntry none bareRoot = .ok [] := rfl

theorem mkdirat_bare : ∃ made, mkdirat bareRoot [] usrEntry.role.basename usrEntry.intended.mode = .ok made := by
  have hroot : bareRoot.get [] =
      some (.directory ⟨1, 1, 0o755, 0, 0, true, bareNumber_ne, bareNumber_ne, bareMode_le⟩) := rfl
  exact create_succeeds hroot rfl

theorem applyEntry_kept_mode : ¬∃ s, applyEntry usrEntry none (some (.failure, .entry .usrRoot .mode)) bareRoot =
    .stopped (.fault .failure) (.entry .usrRoot .mode) s ∧ ¬NamesKept usrEntry bareRoot s := by
  rintro ⟨s, hrun, hlost⟩
  refine hlost ((applyEntry_kept_iff bareRoot usrEntry none (some (.entry .usrRoot .mode)) rfl).mpr ?_ _ _ s hrun)
  rintro ⟨-, hsite, -⟩
  cases hsite

/-- A directory that could not be opened once it was made is left behind. -/
theorem directory_left : usrEntry.validate = .ok () ∧ ∃ s,
    applyEntry usrEntry none (some (.failure, .entry .usrRoot .open)) bareRoot =
      .stopped (.fault .failure) (.entry .usrRoot .open) s ∧ ¬NamesKept usrEntry bareRoot s := by
  obtain ⟨made, hmade⟩ := mkdirat_bare
  refine ⟨rfl, made, ?_, opened_not_kept directoryCheck_bare hmade⟩
  show applyDirectory usrEntry none (some (.failure, .entry usrEntry.role .open)) bareRoot = _
  rw [applyDirectory_open, directoryCheck_bare]
  dsimp only
  rw [hmade]
  rfl

end Fs
end NetworkLoop.Install
