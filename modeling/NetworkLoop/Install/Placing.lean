import NetworkLoop.Install.JournalFile

/-! What `apply_entry` does to the disk.

Done, it has placed the entry's object, with the replaced file beside it. Stopped, it has
changed nothing, or it has left something under one of the role's names: that happens in
every crash past the first change, and when a new directory cannot be opened, which is the
one error that does not clean up (`leavesResidue`). `applyEntry_meets` has it all. -/
namespace NetworkLoop.Install
open Library Program Disk

/-! ### An entry and its place -/

/-- The names in the entry are those of the transaction. -/
def NamedEntry (tx : String) (e : InstallJournalEntryV1) : Prop :=
  (∀ name, e.siblingBasename = some name → name = siblingBasename tx e.role) ∧
    ∀ identity name, e.priorState = .priorOwned identity name → name = backupBasename tx e.role

/-- The paths, with the entry's object placed on them. -/
def placedOn (f : Path → Option Node) (e : InstallJournalEntryV1) (n : Node) : Path → Option Node :=
  match e.priorState with
  | .absent => Function.update f e.role.path (some n)
  | .priorOwned _ name =>
    Function.update (Function.update f (e.role.directory ++ [name]) (f e.role.path)) e.role.path (some n)

/-- The place is as the entry's prior state says. -/
def Vacant (f : Path → Option Node) (e : InstallJournalEntryV1) : Prop :=
  match e.priorState with
  | .absent => f e.role.path = none ∧ ∀ child, f (e.role.path ++ [child]) = none
  | .priorOwned identity name =>
    f (e.role.directory ++ [name]) = none ∧
      ∃ n, f e.role.path = some n ∧ n.isDirectory = false ∧ inspectNode 2 n = .ok identity

theorem Vacant.not_directory {f : Path → Option Node} {e : InstallJournalEntryV1} (h : Vacant f e) (info : Metadata) :
    f e.role.path ≠ some (.directory info) := by
  intro hdir
  unfold Vacant at h
  split at h
  · rw [h.1] at hdir
    cases hdir
  · obtain ⟨-, n, hget, hfile, -⟩ := h
    rw [hget] at hdir
    cases hdir
    cases hfile

/-- What `apply_entry` has done when it returns an identity. -/
structure Placed (d : Disk) (e : InstallJournalEntryV1) (current : InstallObjectIdentityV1) (n : Node) (s : Disk) :
    Prop where
  get : s.get = placedOn d.get e n
  vacant : Vacant d.get e
  seen : inspectNode 2 n = .ok current
  newer : ∀ m, d.get e.role.path = some m → m.info.inode < n.info.inode
  intended : current.matchesIntended e.intended = true
  reach : Reach d e.role
  selinux : ensureSelinuxIsNotEnforcing d = .ok ()

/-- Something stands under a name of the role that was free. -/
structure Residue (d : Disk) (tx : String) (r : InstallRoleV1) (s : Disk) : Prop where
  free : ∀ info, d.get r.path ≠ some (.directory info)
  outside : ∀ q, ¬Named tx r q → s.get q = d.get q
  left : ∃ q, Named tx r q ∧ d.get q = none ∧ s.get q ≠ none

/-- Where a stop leaves something behind. -/
def leavesResidue {ε : Type} : Cause ε → EntrySite → Bool
  | .fault .crash, .check | .fault .crash, .create => false
  | .fault .crash, _ => true
  | .fault .failure, .open => true
  | _, _ => false

/-- Where it is not killed, an operation cleans up unless its own failure does not. -/
theorem leavesResidue_of_cleaned {ε : Type} {cause : Cause ε} {step : EntrySite} (hcrash : cause ≠ .fault .crash)
    (hfailure : cause = .fault .failure → leavesResidue (.fault .failure : Cause ε) step = false) : leavesResidue cause step = false := by
  cases cause with
  | refusal err => cases step <;> rfl
  | fault hit =>
    cases hit with
    | crash => exact absurd rfl hcrash
    | failure => exact hfailure rfl

/-- What it takes for `apply_entry` not to refuse. -/
structure Able (d : Disk) (e : InstallJournalEntryV1) (payload : Option Fs.Payload) : Prop where
  selinux : ensureSelinuxIsNotEnforcing d = .ok ()
  parent : ∃ info, d.get e.role.directory = some (.directory info)
  reach : Reach d e.role
  vacant : Vacant d.get e
  payload : match e.intended.kind with
    | .directory => payload = none
    | .regularFile => ∃ digest, payload = some (.blob digest) ∧ e.intended.sha256 = some digest.val
  sibling : ∀ name, e.siblingBasename = some name → d.get (e.role.directory ++ [name]) = none

/-- The parts of an entry's validity that placing it needs. -/
structure EntryLayout (e : InstallJournalEntryV1) : Prop where
  mode : e.intended.mode = e.role.expectedMode
  uid : e.intended.uid = 0
  gid : e.intended.gid = 0
  kind : e.intended.kind = .directory ↔ e.role.isDirectory = true
  digest : e.intended.kind = .directory → e.intended.sha256 = none
  absent : e.intended.kind = .directory → e.priorState = .absent ∧ e.siblingBasename = none
  sibling : e.intended.kind = .regularFile → ∃ name, e.siblingBasename = some name ∧ safeBasename name = true
  backup : ∀ identity name, e.priorState = .priorOwned identity name →
    safeBasename name = true ∧ identity.kind = .regularFile

theorem entryLayout_of_validate {e : InstallJournalEntryV1} (h : e.validate = .ok ()) : EntryLayout e := by
  unfold InstallJournalEntryV1.validate at h
  simp only [bind_unit_eq_ok] at h
  obtain ⟨hintended, hlayout, hprior, -⟩ := h
  have hdigest : e.intended.digestValid = true := by
    unfold InstallIntendedIdentityV1.validate at hintended
    split at hintended
    · cases hintended
    · rename_i hno
      simp only [Bool.or_eq_true, Bool.not_eq_true', not_or, Bool.not_eq_false] at hno
      exact hno.1
  unfold InstallJournalEntryV1.validateLayout at hlayout
  split at hlayout
  · cases hlayout
  · rename_i hfields
    simp only [bne_iff_ne, Bool.or_eq_true, not_or, not_not] at hfields
    obtain ⟨⟨⟨⟨-, hmode⟩, huid⟩, hgid⟩, hkind⟩ := hfields
    have hkind' : e.intended.kind = .directory ↔ e.role.isDirectory = true := by
      rw [hkind]
      simp
    refine ⟨hmode, huid, hgid, hkind', ?_, ?_, ?_, ?_⟩
    · intro hdir
      unfold InstallIntendedIdentityV1.digestValid at hdigest
      rw [hdir] at hdigest
      cases hsha : e.intended.sha256 with
      | none => rfl
      | some text => rw [hsha] at hdigest; cases hdigest
    · intro hdir
      rw [if_pos (hkind'.mp hdir)] at hlayout
      split at hlayout
      · cases hlayout
      · rename_i hno
        simp only [bne_iff_ne, Bool.or_eq_true, not_or, not_not, Option.not_isSome_iff_eq_none] at hno
        exact ⟨hno.2, hno.1⟩
    · intro hfile
      have hnot : ¬e.role.isDirectory = true := fun hdir => by
        rw [hkind'.mpr hdir] at hfile
        cases hfile
      rw [if_neg hnot] at hlayout
      split at hlayout
      · cases hlayout
      · rename_i hsafe
        cases hsib : e.siblingBasename with
        | none => rw [hsib] at hsafe; simp at hsafe
        | some name =>
          rw [hsib] at hsafe
          exact ⟨name, rfl, by simpa using hsafe⟩
    · intro identity name howned
      rw [InstallJournalEntryV1.validatePrior, howned] at hprior
      obtain ⟨-, hrest⟩ := bind_unit_eq_ok.mp hprior
      split at hrest
      · cases hrest
      · rename_i hno
        simp only [bne_iff_ne, Bool.or_eq_true, Bool.not_eq_true', not_or, Bool.not_eq_false, not_not] at hno
        exact ⟨hno.2, hno.1.1.1.1.2⟩

/-- A name that the journal accepts is safe for the file system. -/
theorem ensureSafeBasename_of_safe {name : String} (h : safeBasename name = true) : ensureSafeBasename name = .ok () := by
  unfold safeBasename at h
  simp only [Bool.and_eq_true, Bool.not_eq_true', List.any_eq_false, Bool.or_eq_true, beq_iff_eq, not_or] at h
  obtain ⟨⟨⟨⟨hempty, hdot⟩, hdots⟩, -⟩, hchars⟩ := h
  unfold ensureSafeBasename
  have hslash : '/' ∉ name.toList := fun hmem => (hchars '/' hmem).1.1.1.1.1.1 rfl
  have hnul : '\x00' ∉ name.toList := fun hmem => (hchars '\x00' hmem).2 rfl
  simp [hempty, hdot, hdots, hslash, hnul]

namespace Fs
variable {d : Disk} {tx : String} {e : InstallJournalEntryV1} {payload : Option Payload}

/-- A change that is tried and that works. -/
theorem tryTo_ok {change : Disk → Except InstallIoError Disk} {s s' : Disk} (h : change s = .ok s') : tryTo change s = s' := by
  rw [tryTo, h]

/-! ### Directories -/

theorem directoryCheck_inv {parent : Path} (h : directoryCheck e payload d = .ok parent) :
    parent = e.role.directory ∧ payload = none ∧ e.priorState = .absent ∧ d.get e.role.path = none ∧ Reach d e.role ∧
      ensureSelinuxIsNotEnforcing d = .ok () := by
  obtain ⟨hselinux, hrest⟩ := bind_unit_eq_ok.mp h
  split at hrest
  · cases hrest
  · rename_i hno
    simp only [not_or, Bool.not_eq_true, Option.isSome_eq_false_iff, Option.isNone_iff_eq_none, not_not] at hno
    obtain ⟨found, hfound, hrest⟩ := bind_eq_ok.mp hrest
    obtain ⟨rfl, hreach⟩ := openRoleParent_ok.mp hfound
    split at hrest
    · cases hrest
    · rename_i hfree
      cases hrest
      refine ⟨rfl, hno.1, hno.2, ?_, hreach, hselinux⟩
      rw [e.role.path_eq]
      exact Option.not_isSome_iff_eq_none.mp hfree

theorem directoryCheck_able (h : Able d e payload) (hkind : e.intended.kind = .directory)
    (habsent : e.priorState = .absent) : directoryCheck e payload d = .ok e.role.directory := by
  have hpayload : payload = none := by
    have := h.payload
    rwa [hkind] at this
  have hfree : d.get e.role.path = none := by
    have := h.vacant
    rw [Vacant, habsent] at this
    exact this.1
  rw [directoryCheck, h.selinux]
  refine bind_unit_eq_ok.mpr ⟨rfl, ?_⟩
  rw [if_neg (by simp [hpayload, habsent]), openRoleParent_ok.mpr ⟨rfl, h.reach⟩]
  simp only [bind, Except.bind, entryExistsAt, ← e.role.path_eq, hfree]
  rfl

/-- A directory that has been made and not cleaned up. -/
theorem residue_directory {s : Disk} {n : Node} (hfree : d.get e.role.path = none)
    (hs : s.get = Function.update d.get e.role.path (some n)) : Residue d tx e.role s where
  free := fun info hdir => by
    rw [hfree] at hdir
    cases hdir
  outside := fun q hq => by rw [hs, Function.update_of_ne fun heq => hq (.inl heq)]
  left := ⟨e.role.path, .inl rfl, hfree, by rw [hs, Function.update_self]; simp⟩

theorem removeDirectory_get {s : Disk} {n : Node} (hfree : d.get e.role.path = none) (hdir : n.isDirectory = true)
    (hs : s.get = Function.update d.get e.role.path (some n)) :
    (removeDirectory e.role.directory e.role.basename s).get = d.get := by
  have hget : s.get (e.role.directory ++ [e.role.basename]) = some n := by
    rw [← e.role.path_eq, hs, Function.update_self]
  have hempty : ∀ child, s.get (e.role.directory ++ [e.role.basename] ++ [child]) = none := fun child => by
    rw [← e.role.path_eq, hs, Function.update_of_ne (by simp)]
    exact FileTree.get_under_none hfree (List.prefix_append ..)
  obtain ⟨s', hok⟩ := unlinkat_succeeds hget hempty
  rw [hdir] at hok
  rw [removeDirectory, tryTo_ok hok, (unlinkat_ok hok).2.2, ← e.role.path_eq, hs, Function.update_idem]
  exact Function.update_eq_self_iff.mpr hfree.symm

/-- What a stop of `apply_entry` leaves. -/
def EntryStop (d : Disk) (tx : String) (e : InstallJournalEntryV1) (payload : Option Payload)
    (cause : Cause InstallIoError) (site : Site) (s : Disk) : Prop :=
  ∃ step, site = .entry e.role step ∧ (if leavesResidue cause step then Residue d tx e.role s else s.get = d.get) ∧
    ∀ err, cause = .refusal err → ¬Able d e payload

/-- The part of `apply_directory` that cleans up after itself. -/
theorem finishDirectory_meets {info : Metadata} (hlayout : EntryLayout e) (hkind : e.intended.kind = .directory)
    (hfree : d.get e.role.path = none) (hplain : info.plain = true) :
    Meets (fun s => s.get = Function.update d.get e.role.path (some (.directory info)))
      (do
        setOwnerMode (.entry e.role .own) (.entry e.role .mode) e.role.path e.intended.uid e.intended.gid e.intended.mode
        look (.entry e.role .validate) fun s => validateDirectory s e.role.path e.intended.mode
        syncAll (.entry e.role .sync)
        look (.entry e.role .inspect) fun s => inspectAt s e.role.path)
      (fun current s => current.matchesIntended e.intended = true ∧ ∃ n, inspectNode 2 n = .ok current ∧
        s.get = Function.update d.get e.role.path (some n))
      (fun cause site s => (∃ hit, cause = .fault hit) ∧
        (∃ step, site = .entry e.role step ∧ leavesResidue (ε := InstallIoError) (.fault .crash) step = true ∧
          leavesResidue (ε := InstallIoError) (.fault .failure) step = false) ∧
        ∃ n, n.isDirectory = true ∧ s.get = Function.update d.get e.role.path (some n)) := by
  have hmode : e.intended.mode % 0o10000 = e.intended.mode := by
    rw [hlayout.mode]
    cases e.role <;> rfl
  generalize hnew : owned e.intended.uid e.intended.gid e.intended.mode info = made
  have hmade : made.uid = 0 ∧ made.gid = 0 ∧ made.mode = e.intended.mode ∧ made.plain = true := by
    rw [← hnew]
    exact ⟨hlayout.uid, hlayout.gid, hmode, hplain⟩
  have hat : ∀ {s : Disk}, s.get = Function.update d.get e.role.path (some (.directory made)) →
      s.get e.role.path = some (.directory made) := fun hs => by rw [hs, Function.update_self]
  have hinspect : ∀ {s : Disk}, s.get = Function.update d.get e.role.path (some (.directory made)) →
      inspectAt s e.role.path = .ok ⟨.directory, made.device, made.inode, 2, none, made.mode, made.uid, made.gid⟩ := by
    intro s hs
    rw [inspectAt_of_empty (hat hs) fun child => by
      rw [hs, Function.update_of_ne (by simp)]
      exact FileTree.get_under_none hfree (List.prefix_append ..)]
    simp only [inspectNode, ensureSupportedMetadata, hmade.2.2.2, if_true]
    rfl
  have hstop : ∀ {s : Disk} (hit : Fault) (step : EntrySite), leavesResidue (ε := InstallIoError) (.fault .crash) step = true →
      leavesResidue (ε := InstallIoError) (.fault .failure) step = false → s.get = Function.update d.get e.role.path (some (.directory made)) →
      (∃ hit', Cause.fault hit = Cause.fault (ε := InstallIoError) hit') ∧
        (∃ step', Site.entry e.role step = .entry e.role step' ∧ leavesResidue (ε := InstallIoError) (.fault .crash) step' = true ∧
          leavesResidue (ε := InstallIoError) (.fault .failure) step' = false) ∧
        ∃ n, n.isDirectory = true ∧ s.get = Function.update d.get e.role.path (some n) :=
    fun hit step hcrash hfail hs => ⟨⟨hit, rfl⟩, ⟨step, rfl, hcrash, hfail⟩, _, rfl, hs⟩
  refine Meets.bind (Q := fun _ s => s.get = Function.update d.get e.role.path (some (.directory made))) ?_ fun _ => ?_
  · have hset := setOwnerMode_meets (f := d.get) (p := e.role.directory) (b := e.role.basename)
      (n := .directory info) (u := .entry e.role .own) (v := .entry e.role .mode) (x := e.intended.uid)
      (y := e.intended.gid) (z := e.intended.mode)
    rw [← e.role.path_eq] at hset
    refine Meets.mono hset (fun s hs => hs) (fun _ s hs => by rw [hs, ← hnew]; rfl) ?_
    rintro cause site s ⟨hfault, hsite, g, hs⟩
    refine ⟨hfault, ?_, _, rfl, hs⟩
    rcases hsite with hsite | hsite
    · exact ⟨.own, hsite, rfl, rfl⟩
    · exact ⟨.mode, hsite, rfl, rfl⟩
  refine Meets.bind (Q := fun _ s => s.get = Function.update d.get e.role.path (some (.directory made))) ?_ fun _ => ?_
  · refine Meets.look (fun hit s hs => hstop hit .validate rfl rfl hs) ?_ (fun s _ hs _ => hs)
    intro s err hs herr
    rw [validateDirectory_iff.mpr ⟨made, hat hs, hmade.1, hmade.2.1, hmade.2.2.1, hmade.2.2.2⟩] at herr
    cases herr
  refine Meets.bind (syncAll_meets fun hit s hs => hstop hit .sync rfl rfl hs) fun _ => ?_
  refine Meets.look (fun hit s hs => hstop hit .inspect rfl rfl hs) ?_ ?_
  · intro s err hs herr
    rw [hinspect hs] at herr
    cases herr
  · intro s current hs hok
    rw [hinspect hs] at hok
    cases hok
    refine ⟨?_, _, ?_, hs⟩
    · simp [InstallObjectIdentityV1.matchesIntended, hkind, hlayout.digest hkind, hmade.1, hmade.2.1, hmade.2.2.1,
        hlayout.uid, hlayout.gid]
    · simp only [inspectNode, ensureSupportedMetadata, hmade.2.2.2, if_true]
      rfl

theorem applyDirectory_meets (hlayout : EntryLayout e) (hkind : e.intended.kind = .directory) :
    Meets (· = d) (applyDirectory e payload) (fun current s => ∃ n, Placed d e current n s)
      (fun cause site s => EntryStop d tx e payload cause site s) := by
  have habsent := (hlayout.absent hkind).1
  unfold applyDirectory
  refine Meets.bind (Q := fun parent s => s = d ∧ directoryCheck e payload d = .ok parent) ?_ fun parent => ?_
  · refine Meets.look (fun hit s hs => ⟨.check, rfl, by rw [hs]; cases hit <;> rfl, fun err herr => by cases herr⟩) ?_ ?_
    · intro s err hs herr
      rw [hs] at herr
      refine ⟨.check, rfl, by rw [hs]; rfl, fun _ _ hable => ?_⟩
      rw [directoryCheck_able hable hkind habsent] at herr
      cases herr
    · intro s parent hs hok
      rw [hs] at hok
      exact ⟨hs, hok⟩
  refine Meets.intro fun s₀ hmet => ?_
  obtain ⟨hs₀, hcheck⟩ := hmet
  obtain ⟨rfl, -, -, hfree, hreach, hselinux⟩ := directoryCheck_inv hcheck
  have hunder : ∀ child, d.get (e.role.path ++ [child]) = none := fun child =>
    FileTree.get_under_none hfree (List.prefix_append ..)
  refine Meets.bind (Q := fun _ s => ∃ info, info.plain = true ∧
      s.get = Function.update d.get e.role.path (some (.directory info))) ?_ fun _ => ?_
  · refine Meets.perform (fun hit s hs => ⟨.create, rfl, by rw [hs, hs₀]; cases hit <;> rfl, fun err herr => by cases herr⟩)
      ?_ ?_
    · intro s err hs herr
      refine ⟨.create, rfl, by rw [hs, hs₀]; rfl, fun _ _ hable => ?_⟩
      rw [hs, hs₀] at herr
      obtain ⟨info, hparent⟩ := hable.parent
      obtain ⟨s', hok⟩ := create_succeeds (b := e.role.basename)
        (g := fun info => .directory (newInfo d info e.intended.mode)) hparent (by rw [← e.role.path_eq]; exact hfree)
      rw [mkdirat, hok] at herr
      cases herr
    · intro s s' hs hok
      rw [hs, hs₀] at hok
      obtain ⟨info, -, -, hs'⟩ := create_ok hok
      rw [← e.role.path_eq] at hs'
      exact ⟨_, rfl, hs'⟩
  refine Meets.bind (Q := fun directory s => directory = e.role.path ∧ ∃ info, info.plain = true ∧
      s.get = Function.update d.get e.role.path (some (.directory info))) ?_ fun directory => ?_
  · have hopen : ∀ {s : Disk} {info : Metadata}, s.get = Function.update d.get e.role.path (some (.directory info)) →
        openatDirectory s e.role.directory e.role.basename = .ok e.role.path := by
      intro s info hs
      have hget : s.get e.role.path = some (.directory info) := by rw [hs, Function.update_self]
      simp only [openatDirectory, openatDirectoryOptional, ← e.role.path_eq, hget]
      rfl
    refine Meets.look ?_ ?_ ?_
    · rintro hit s ⟨info, _, hs⟩
      refine ⟨.open, rfl, ?_, fun err herr => by cases herr⟩
      cases hit <;> exact residue_directory hfree hs
    · rintro s err ⟨info, _, hs⟩ herr
      rw [hopen hs] at herr
      cases herr
    · rintro s directory ⟨info, hplain, hs⟩ hok
      rw [hopen hs] at hok
      cases hok
      exact ⟨rfl, info, hplain, hs⟩
  refine Meets.intro fun s₁ hmet => ?_
  obtain ⟨hpath, info, hplain, hs₁⟩ := hmet
  rw [hpath]
  refine Meets.mono (Meets.protect (finishDirectory_meets hlayout hkind hfree hplain) ?_ ?_) (fun s hs => by rw [hs]; exact hs₁)
    ?_ (fun _ _ _ h => h)
  · rintro site s ⟨_, ⟨step, hsite, hcrash, _⟩, n, _, hs⟩
    exact ⟨step, hsite, by rw [if_pos hcrash]; exact residue_directory hfree hs, fun err herr => by cases herr⟩
  · rintro cause site s hcrash ⟨⟨hit, hfault⟩, ⟨step, hsite, _, hfail⟩, n, hdir, hs⟩
    subst hfault
    cases hit with
    | crash => exact absurd rfl hcrash
    | failure =>
      exact ⟨step, hsite, by rw [hfail]; exact removeDirectory_get hfree hdir hs, fun err herr => by cases herr⟩
  · rintro current s ⟨hintended, n, hseen, hs⟩
    refine ⟨n, ?_, ?_, hseen, fun m hm => (by rw [hfree] at hm; cases hm), hintended, hreach, hselinux⟩
    · rw [placedOn, habsent]
      exact hs
    · rw [Vacant, habsent]
      exact ⟨hfree, hunder⟩

/-! ### Files -/

/-- The prior state, as `apply_file` carries it along. -/
def priorOf (e : InstallJournalEntryV1) : Option (InstallObjectIdentityV1 × String) :=
  match e.priorState with
  | .absent => none
  | .priorOwned identity name => some (identity, name)

theorem priorCheck_ok {prior : Option (InstallObjectIdentityV1 × String)} (hlayout : EntryLayout e) :
    priorCheck e e.role.directory d = .ok prior ↔ prior = priorOf e ∧ Vacant d.get e := by
  unfold priorCheck Vacant priorOf
  cases hprior : e.priorState with
  | absent =>
    simp only [entryExistsAt, ← e.role.path_eq]
    cases hget : d.get e.role.path with
    | none =>
      have hunder : ∀ child, d.get (e.role.path ++ [child]) = none := fun child =>
        FileTree.get_under_none hget (List.prefix_append ..)
      simp [hunder, eq_comm]
    | some n => simp
  | priorOwned identity name =>
    obtain ⟨hsafe, hkind⟩ := hlayout.backup identity name hprior
    simp only [ensureSafeBasename_of_safe hsafe, bind, Except.bind, entryExistsAt, ← e.role.path_eq]
    cases hbak : d.get (e.role.directory ++ [name]) with
    | some n => simp
    | none =>
      simp only [Option.isSome_none, Bool.false_eq_true, if_false, true_and]
      constructor
      · intro h
        split at h
        · cases h
        · rename_i found hfound
          split at h
          · cases h
          · rename_i heq
            cases h
            rw [of_not_not heq] at hfound
            unfold inspectAt at hfound
            cases hget : d.get e.role.path with
            | none => rw [hget] at hfound; cases hfound
            | some n =>
              rw [hget] at hfound
              have hfile : n.isDirectory = false := by
                rw [← Bool.not_eq_true, inspectNode_kind hfound, hkind]
                simp
              exact ⟨rfl, n, rfl, hfile, by rw [inspectNode_file hfile]; exact hfound⟩
      · rintro ⟨hret, n, hget, hfile, hseen⟩
        rw [inspectAt_file hget hfile, hseen, hret]
        simp

theorem fileCheck_ok {pl : Payload} {parent : Path} {sibling : String}
    {prior : Option (InstallObjectIdentityV1 × String)} (hlayout : EntryLayout e)
    (hkind : e.intended.kind = .regularFile) :
    fileCheck e payload d = .ok (pl, parent, sibling, prior) ↔
      payload = some pl ∧ parent = e.role.directory ∧ e.siblingBasename = some sibling ∧ prior = priorOf e ∧
        d.get (e.role.directory ++ [sibling]) = none ∧ Vacant d.get e ∧ Reach d e.role ∧
        ensureSelinuxIsNotEnforcing d = .ok () := by
  obtain ⟨name, hname, hsafe⟩ := hlayout.sibling hkind
  unfold fileCheck
  rw [bind_unit_eq_ok]
  constructor
  · intro ⟨hselinux, hrest⟩
    cases payload with
    | none => cases hrest
    | some found =>
      obtain ⟨opened, hopen, hrest⟩ := bind_eq_ok.mp hrest
      obtain ⟨rfl, hreach⟩ := openRoleParent_ok.mp hopen
      simp only [hname] at hrest
      obtain ⟨-, hrest⟩ := bind_unit_eq_ok.mp hrest
      obtain ⟨prior', hprior, hrest⟩ := bind_eq_ok.mp hrest
      obtain ⟨rfl, hvacant⟩ := (priorCheck_ok hlayout).mp hprior
      split at hrest
      · cases hrest
      · rename_i hfree
        cases hrest
        exact ⟨rfl, rfl, hname, rfl, Option.not_isSome_iff_eq_none.mp hfree, hvacant, hreach, hselinux⟩
  · intro ⟨hpayload, hparent, hsibling, hprior, hfree, hvacant, hreach, hselinux⟩
    refine ⟨hselinux, ?_⟩
    rw [hname] at hsibling
    cases hsibling
    rw [hpayload]
    refine bind_eq_ok.mpr ⟨_, openRoleParent_ok.mpr ⟨rfl, hreach⟩, ?_⟩
    simp only [hname]
    refine bind_unit_eq_ok.mpr ⟨ensureSafeBasename_of_safe hsafe, ?_⟩
    refine bind_eq_ok.mpr ⟨_, (priorCheck_ok hlayout).mpr ⟨rfl, hvacant⟩, ?_⟩
    rw [entryExistsAt, hfree, hparent, hprior]
    rfl

/-- The paths once the prior file is out of the way, with the new file still beside it. -/
def movedOn (f : Path → Option Node) (e : InstallJournalEntryV1) (temporary : Path) (n : Node) : Path → Option Node :=
  match e.priorState with
  | .absent => Function.update f temporary (some n)
  | .priorOwned _ name =>
    Function.update (Function.update (Function.update f temporary (some n)) e.role.path none)
      (e.role.directory ++ [name]) (f e.role.path)

/-- The paths just before a step of `apply_file`, past the creation of the new file. -/
def stageOn (f : Path → Option Node) (e : InstallJournalEntryV1) (temporary : Path) (n : Node) (step : EntrySite) :
    Path → Option Node :=
  if step.finalMoved then placedOn f e n
  else if step.backupMoved then movedOn f e temporary n
  else Function.update f temporary (some n)

/-- The names that an entry's file goes through are different. -/
structure DistinctNames (e : InstallJournalEntryV1) : Prop where
  temporary : ∀ {sibling}, e.siblingBasename = some sibling → e.role.directory ++ [sibling] ≠ e.role.path
  backup : ∀ {identity name}, e.priorState = .priorOwned identity name → e.role.directory ++ [name] ≠ e.role.path
  apart : ∀ {sibling identity name}, e.siblingBasename = some sibling → e.priorState = .priorOwned identity name →
    e.role.directory ++ [sibling] ≠ e.role.directory ++ [name]

section Names
variable {sibling : String}

theorem distinctNames_of_named (h : NamedEntry tx e) : DistinctNames e where
  temporary := fun {sibling} hsib => by
    rw [h.1 sibling hsib]
    exact (InstallRoleV1.path_ne_dot siblingBasename_head e.role).symm
  backup := fun {identity name} hprior => by
    rw [h.2 identity name hprior]
    exact (InstallRoleV1.path_ne_dot backupBasename_head e.role).symm
  apart := fun {sibling identity name} hsib hprior heq => by
    have := (InstallRoleV1.directory_append_eq heq).2
    rw [h.1 sibling hsib, h.2 identity name hprior] at this
    exact siblingBasename_ne_backupBasename this

theorem named_temporary (h : NamedEntry tx e) (hsib : e.siblingBasename = some sibling) :
    Named tx e.role (e.role.directory ++ [sibling]) := by
  rw [h.1 sibling hsib]
  exact .inr (.inl rfl)

theorem named_backup (h : NamedEntry tx e) {identity : InstallObjectIdentityV1} {name : String}
    (hprior : e.priorState = .priorOwned identity name) : Named tx e.role (e.role.directory ++ [name]) := by
  rw [h.2 identity name hprior]
  exact .inr (.inr rfl)

end Names

/-! ### The error path -/

theorem unlinkFile_get {s : Disk} {parent : Path} {name : String} {n : Node} (hget : s.get (parent ++ [name]) = some n)
    (hfile : n.isDirectory = false) :
    (tryTo (unlinkat · parent name false) s).get = Function.update s.get (parent ++ [name]) none := by
  obtain ⟨s', hok⟩ := unlinkat_succeeds hget (get_under_file hget hfile)
  rw [hfile] at hok
  rw [tryTo_ok hok, (unlinkat_ok hok).2.2]

section ErrorPath
variable {s : Disk} {sibling : String} {n : Node}

theorem restoreBackup_get {identity : InstallObjectIdentityV1} {name : String} {prior : Node}
    (hpath : d.get e.role.path = some prior) (hfile : prior.isDirectory = false)
    (hseen : inspectNode 2 prior = .ok identity) (hfree : d.get (e.role.directory ++ [name]) = none)
    (hne : e.role.directory ++ [name] ≠ e.role.path)
    (hs : s.get = Function.update (Function.update d.get (e.role.directory ++ [name]) (some prior)) e.role.path none) :
    (restoreBackup e e.role.directory identity name s).get = d.get := by
  have hbak : s.get (e.role.directory ++ [name]) = some prior := by
    rw [hs, Function.update_of_ne hne, Function.update_self]
  have hgone : s.get e.role.path = none := by rw [hs, Function.update_self]
  obtain ⟨info, hparent⟩ := directory_of_child (d := d) (a := e.role.directory) (b := e.role.basename)
    (by rw [← e.role.path_eq]; exact hpath)
  have hparent' : s.get e.role.directory = some (.directory info) := by
    rw [hs, Function.update_of_ne (by rw [e.role.path_eq]; simp), Function.update_of_ne (by simp), hparent]
  have hcond : inspectAt s (e.role.directory ++ [name]) = .ok identity ∧
      ¬entryExistsAt s e.role.directory e.role.basename = true := by
    refine ⟨by rw [inspectAt_file hbak hfile, hseen], ?_⟩
    rw [entryExistsAt, ← e.role.path_eq, hgone]
    simp
  obtain ⟨s', hok⟩ := renameat_file_succeeds (b := e.role.basename) hbak hfile hparent'
    (by rw [← e.role.path_eq, hgone]; rfl)
  have hmove : renameatNoreplace s (e.role.directory ++ [name]) (e.role.directory ++ [e.role.basename]) = .ok s' := by
    rw [renameatNoreplace_eq (by rw [← e.role.path_eq]; exact hgone), hok]
  have hcleared : Function.update d.get (e.role.directory ++ [name]) none = d.get :=
    Function.update_eq_self_iff.mpr hfree.symm
  rw [restoreBackup, if_pos hcond, tryTo_ok hmove, renameat_file_ok hbak hfile hok, ← e.role.path_eq, hs,
    Function.update_comm hne.symm, Function.update_idem, Function.update_idem, hcleared]
  exact Function.update_eq_self_iff.mpr hpath.symm

/-- **An error leaves nothing behind.** -/
theorem removeFile_get {k : EntrySite} (hnames : DistinctNames e) (hsib : e.siblingBasename = some sibling)
    (hvacant : Vacant d.get e) (hfree : d.get (e.role.directory ++ [sibling]) = none) (hfile : n.isDirectory = false)
    (hs : s.get = stageOn d.get e (e.role.directory ++ [sibling]) n k) :
    (removeFile e e.role.directory sibling (priorOf e) k s).get = d.get := by
  have hne := hnames.temporary hsib
  have hcleared : Function.update d.get (e.role.directory ++ [sibling]) none = d.get :=
    Function.update_eq_self_iff.mpr hfree.symm
  have hfinal : k.finalMoved = true → k.backupMoved = true := by
    cases k <;> simp [EntrySite.finalMoved, EntrySite.backupMoved]
  unfold removeFile priorOf
  unfold Vacant at hvacant
  unfold stageOn placedOn movedOn at hs
  cases hprior : e.priorState with
  | absent =>
    simp only [hprior, ite_self] at hs hvacant ⊢
    by_cases hmoved : k.finalMoved = true
    · rw [if_pos hmoved] at hs ⊢
      rw [unlinkFile_get (n := n) (by rw [← e.role.path_eq, hs, Function.update_self]) hfile, ← e.role.path_eq, hs,
        Function.update_idem]
      exact Function.update_eq_self_iff.mpr hvacant.1.symm
    · rw [if_neg hmoved] at hs ⊢
      rw [unlinkFile_get (n := n) (by rw [hs, Function.update_self]) hfile, hs, Function.update_idem, hcleared]
  | priorOwned identity name =>
    have hbne := hnames.backup hprior
    have htne := hnames.apart hsib hprior
    simp only [hprior] at hs hvacant ⊢
    obtain ⟨hbfree, prior, hpath, hpfile, hseen⟩ := hvacant
    by_cases hmoved : k.finalMoved = true
    · rw [if_pos hmoved] at hs ⊢
      rw [if_pos (hfinal hmoved)]
      refine restoreBackup_get hpath hpfile hseen hbfree hbne ?_
      rw [unlinkFile_get (n := n) (by rw [← e.role.path_eq, hs, Function.update_self]) hfile, ← e.role.path_eq, hs,
        Function.update_idem, hpath]
    · rw [if_neg hmoved] at hs ⊢
      by_cases hbackup : k.backupMoved = true
      · rw [if_pos hbackup] at hs ⊢
        refine restoreBackup_get hpath hpfile hseen hbfree hbne ?_
        have hthere : s.get (e.role.directory ++ [sibling]) = some n := by
          rw [hs, Function.update_of_ne htne, Function.update_of_ne hne, Function.update_self]
        rw [unlinkFile_get hthere hfile, hs, hpath, Function.update_comm htne.symm, Function.update_comm hne.symm,
          Function.update_idem, hcleared, Function.update_comm hbne.symm]
      · rw [if_neg hbackup] at hs ⊢
        rw [unlinkFile_get (n := n) (by rw [hs, Function.update_self]) hfile, hs, Function.update_idem, hcleared]

/-- A crash leaves something behind. -/
theorem residue_file {step : EntrySite} (hnamed : NamedEntry tx e) (hsib : e.siblingBasename = some sibling)
    (hvacant : Vacant d.get e) (hfree : d.get (e.role.directory ++ [sibling]) = none)
    (hs : s.get = stageOn d.get e (e.role.directory ++ [sibling]) n step) : Residue d tx e.role s := by
  have hne := (distinctNames_of_named hnamed).temporary hsib
  have hnt : ∀ {q}, ¬Named tx e.role q → q ≠ e.role.directory ++ [sibling] :=
    fun hq heq => hq (heq ▸ named_temporary hnamed hsib)
  have hnp : ∀ {q}, ¬Named tx e.role q → q ≠ e.role.path := fun hq heq => hq (.inl heq)
  have hnodir := hvacant.not_directory
  have hbeside : s.get = Function.update d.get (e.role.directory ++ [sibling]) (some n) → Residue d tx e.role s :=
    fun hs => ⟨hnodir, fun q hq => by rw [hs, Function.update_of_ne (hnt hq)],
      _, named_temporary hnamed hsib, hfree, by rw [hs, Function.update_self]; simp⟩
  unfold Vacant at hvacant
  unfold stageOn placedOn movedOn at hs
  cases hprior : e.priorState with
  | absent =>
    simp only [hprior, ite_self] at hs hvacant
    by_cases hmoved : step.finalMoved = true
    · rw [if_pos hmoved] at hs
      exact ⟨hnodir, fun q hq => by rw [hs, Function.update_of_ne (hnp hq)],
        e.role.path, .inl rfl, hvacant.1, by rw [hs, Function.update_self]; simp⟩
    · rw [if_neg hmoved] at hs
      exact hbeside hs
  | priorOwned identity name =>
    have hbne := (distinctNames_of_named hnamed).backup hprior
    have htne := (distinctNames_of_named hnamed).apart hsib hprior
    have hnb : ∀ {q}, ¬Named tx e.role q → q ≠ e.role.directory ++ [name] :=
      fun hq heq => hq (heq ▸ named_backup hnamed hprior)
    simp only [hprior] at hs hvacant
    obtain ⟨hbfree, prior, hpath, -⟩ := hvacant
    by_cases hmoved : step.finalMoved = true
    · rw [if_pos hmoved] at hs
      refine ⟨hnodir, fun q hq => by rw [hs, Function.update_of_ne (hnp hq), Function.update_of_ne (hnb hq)],
        _, named_backup hnamed hprior, hbfree, ?_⟩
      rw [hs, Function.update_of_ne hbne, Function.update_self, hpath]
      simp
    · rw [if_neg hmoved] at hs
      by_cases hbackup : step.backupMoved = true
      · rw [if_pos hbackup] at hs
        refine ⟨hnodir, fun q hq => by rw [hs, Function.update_of_ne (hnb hq), Function.update_of_ne (hnp hq),
          Function.update_of_ne (hnt hq)], _, named_temporary hnamed hsib, hfree, ?_⟩
        rw [hs, Function.update_of_ne htne, Function.update_of_ne hne, Function.update_self]
        simp
      · rw [if_neg hbackup] at hs
        exact hbeside hs

end ErrorPath

/-! ### Writing the new file -/

/-- The payload is what the entry intends. -/
def RightPayload (e : InstallJournalEntryV1) (payload : Payload) : Prop :=
  ∃ digest, payload = .blob digest ∧ e.intended.sha256 = some digest.val

/-- A stop of `apply_file` before its error path: the stage it had reached, and a refusal
only of a wrong payload. -/
def FileStop (d : Disk) (e : InstallJournalEntryV1) (temporary : Path) (payload : Payload) (cause : Cause InstallIoError)
    (site : Site) (s : Disk) : Prop :=
  (∃ step, site = .entry e.role step ∧ leavesResidue (ε := InstallIoError) (.fault .crash) step = true ∧
    leavesResidue (ε := InstallIoError) (.fault .failure) step = false ∧
    ∃ n, n.isDirectory = false ∧ s.get = stageOn d.get e temporary n step) ∧
  ∀ err, cause = .refusal err → ¬RightPayload e payload

section NewFile
variable {temporary : Path} {pl : Payload}

/-- A fault past the creation of the new file. -/
theorem fileStop_fault {s : Disk} {n : Node} (hit : Fault) (step : EntrySite)
    (hcrash : leavesResidue (ε := InstallIoError) (.fault .crash) step = true) (hfailure : leavesResidue (ε := InstallIoError) (.fault .failure) step = false)
    (hfile : n.isDirectory = false) (hs : s.get = stageOn d.get e temporary n step) :
    FileStop d e temporary pl (.fault hit) (.entry e.role step) s :=
  ⟨⟨step, rfl, hcrash, hfailure, n, hfile, hs⟩, fun err herr => by cases herr⟩

theorem prepareFile_meets {parent : Path} {name : String} {info : Metadata} {content : Content}
    (hlayout : EntryLayout e) (hkind : e.intended.kind = .regularFile) (hplain : info.plain = true) :
    Meets (fun s => s.get = Function.update d.get (parent ++ [name]) (some (.file info 1 content)))
      (prepareFile e pl (parent ++ [name]))
      (fun _ s => ∃ n identity, n.isDirectory = false ∧ inspectNode 2 n = .ok identity ∧ n.info.inode = info.inode ∧
        identity.matchesIntended e.intended = true ∧ s.get = Function.update d.get (parent ++ [name]) (some n))
      (fun cause site s => FileStop d e (parent ++ [name]) pl cause site s ∧ site.entryStep.backupMoved = false) := by
  have hmode : e.intended.mode % 0o10000 = e.intended.mode := by
    rw [hlayout.mode]
    cases e.role <;> rfl
  unfold prepareFile
  refine Meets.bind (Q := fun _ s => ∃ digest, pl = .blob digest ∧
      s.get = Function.update d.get (parent ++ [name]) (some (.file info 1 (.blob digest)))) ?_ fun _ => ?_
  · refine Meets.perform (fun hit s hs => ⟨fileStop_fault hit .write rfl rfl rfl hs, rfl⟩) ?_ ?_
    · intro s err hs herr
      refine ⟨⟨⟨.write, rfl, rfl, rfl, _, rfl, hs⟩, fun _ _ hright => ?_⟩, rfl⟩
      obtain ⟨digest, hpl, -⟩ := hright
      obtain ⟨s', hok⟩ := writeAll_succeeds (d := s) (c := .blob digest) (by rw [hs, Function.update_self])
      cases hpl
      have hcopy : copyBounded (.blob digest) (parent ++ [name]) s = .ok s' := hok
      rw [hcopy] at herr
      cases herr
    · intro s s' hs hok
      cases pl with
      | unreadable => cases hok
      | blob digest =>
        obtain ⟨info', links, old, hold, hs'⟩ := writeAll_ok hok
        rw [hs, Function.update_self] at hold
        cases hold
        exact ⟨digest, rfl, by rw [hs', hs, Function.update_idem]⟩
  refine Meets.intro fun s₀ hmet => ?_
  obtain ⟨digest, hpl, hs₀⟩ := hmet
  generalize hnew : owned e.intended.uid e.intended.gid e.intended.mode info = made
  have hmade : made.uid = e.intended.uid ∧ made.gid = e.intended.gid ∧ made.mode = e.intended.mode ∧ made.plain = true := by
    rw [← hnew]
    exact ⟨rfl, rfl, hmode, hplain⟩
  have hseen : inspectNode 2 (.file made 1 (.blob digest)) =
      .ok ⟨.regularFile, made.device, made.inode, 1, some digest.val, made.mode, made.uid, made.gid⟩ := by
    simp only [inspectNode, ensureSupportedMetadata, hmade.2.2.2, if_true, ne_eq, not_true_eq_false, if_false]
    rfl
  refine Meets.bind (Q := fun _ s => s.get = Function.update d.get (parent ++ [name]) (some (.file made 1 (.blob digest))))
    ?_ fun _ => ?_
  · refine Meets.mono (setOwnerMode_meets (f := d.get) (n := .file info 1 (.blob digest))) (fun s hs => by rw [hs, hs₀])
      (fun _ s hs => by rw [hs, ← hnew]; rfl) ?_
    rintro cause site s ⟨⟨hit, hfault⟩, hsite, g, hs⟩
    rw [hfault]
    rcases hsite with rfl | rfl
    · exact ⟨fileStop_fault hit .own rfl rfl rfl hs, rfl⟩
    · exact ⟨fileStop_fault hit .mode rfl rfl rfl hs, rfl⟩
  have hat : ∀ {s : Disk}, s.get = Function.update d.get (parent ++ [name]) (some (.file made 1 (.blob digest))) →
      inspectAt s (parent ++ [name]) =
        .ok ⟨.regularFile, made.device, made.inode, 1, some digest.val, made.mode, made.uid, made.gid⟩ := by
    intro s hs
    rw [inspectAt_file (by rw [hs, Function.update_self]) rfl, hseen]
  refine Meets.bind (Q := fun _ s => ∃ n identity, n.isDirectory = false ∧ inspectNode 2 n = .ok identity ∧
      n.info.inode = info.inode ∧ identity.matchesIntended e.intended = true ∧
      s.get = Function.update d.get (parent ++ [name]) (some n)) ?_ fun _ => ?_
  · refine Meets.look (fun hit s hs => ⟨fileStop_fault hit .hash rfl rfl rfl hs, rfl⟩) ?_ ?_
    · intro s err hs herr
      refine ⟨⟨⟨.hash, rfl, rfl, rfl, _, rfl, hs⟩, fun _ _ hright => ?_⟩, rfl⟩
      obtain ⟨digest', hpl', hsha⟩ := hright
      rw [hpl] at hpl'
      cases hpl'
      rw [hat hs] at herr
      simp [bind, Except.bind, InstallObjectIdentityV1.matchesIntended, hkind, hsha, hmade.1, hmade.2.1, hmade.2.2.1] at herr
    · intro s _ hs hok
      rw [hat hs] at hok
      simp only [bind, Except.bind] at hok
      split at hok
      · cases hok
      · rename_i hmatch
        exact ⟨_, _, rfl, hseen, by rw [← hnew]; rfl, by simpa using hmatch, hs⟩
  refine Meets.bind (syncAll_meets fun hit s hmet => ?_) fun _ => syncAll_meets fun hit s hmet => ?_
  · obtain ⟨n, -, hfile, -, -, -, hs⟩ := hmet
    exact ⟨fileStop_fault hit .fileSync rfl rfl hfile hs, rfl⟩
  · obtain ⟨n, -, hfile, -, -, -, hs⟩ := hmet
    exact ⟨fileStop_fault hit .sync rfl rfl hfile hs, rfl⟩

end NewFile

/-! ### Replacing -/

section Replace
variable {sibling : String} {pl : Payload} {n : Node}

theorem moveBackup_meets (hnames : DistinctNames e) (hsib : e.siblingBasename = some sibling)
    (hvacant : Vacant d.get e) (hfile : n.isDirectory = false) :
    Meets (fun s => s.get = Function.update d.get (e.role.directory ++ [sibling]) (some n))
      (moveBackup e e.role.directory (priorOf e))
      (fun _ s => s.get = movedOn d.get e (e.role.directory ++ [sibling]) n)
      (FileStop d e (e.role.directory ++ [sibling]) pl) := by
  have hne := hnames.temporary hsib
  unfold priorOf movedOn
  unfold Vacant at hvacant
  cases hprior : e.priorState with
  | absent => exact Meets.pure fun s hs => hs
  | priorOwned identity name =>
    have hbne := hnames.backup hprior
    have htne := hnames.apart hsib hprior
    simp only [hprior] at hvacant
    obtain ⟨hbfree, prior, hpath, hpfile, -⟩ := hvacant
    have hgets : ∀ {s : Disk}, s.get = Function.update d.get (e.role.directory ++ [sibling]) (some n) →
        s.get e.role.path = some prior ∧ s.get (e.role.directory ++ [name]) = none := fun hs => by
      rw [hs, Function.update_of_ne hne.symm, Function.update_of_ne htne.symm]
      exact ⟨hpath, hbfree⟩
    unfold moveBackup
    refine Meets.bind (Q := fun _ s => s.get = Function.update (Function.update (Function.update d.get
        (e.role.directory ++ [sibling]) (some n)) e.role.path none) (e.role.directory ++ [name]) (d.get e.role.path)) ?_
      fun _ => ?_
    · refine Meets.perform (fun hit s hs => fileStop_fault hit .backup rfl rfl hfile hs) ?_ ?_
      · intro s err hs herr
        obtain ⟨hget, hfree⟩ := hgets hs
        obtain ⟨info, hparent⟩ := directory_of_child (d := s) (a := e.role.directory) (b := e.role.basename)
          (by rw [← e.role.path_eq]; exact hget)
        obtain ⟨s', hok⟩ := renameat_file_succeeds (b := name) hget hpfile hparent (by rw [hfree]; rfl)
        rw [← e.role.path_eq, renameatNoreplace_eq hfree, hok] at herr
        cases herr
      · intro s s' hs hok
        obtain ⟨hget, hfree⟩ := hgets hs
        rw [← e.role.path_eq, renameatNoreplace_eq hfree] at hok
        rw [renameat_file_ok hget hpfile hok, hs, hpath]
    · refine syncAll_meets fun hit s hs => fileStop_fault hit .backupSync rfl rfl hfile ?_
      rw [hs, stageOn, movedOn, hprior]
      rfl

/-- From either stage the new file goes to its place. -/
theorem place_get {s u : Disk} (hnames : DistinctNames e) (hsib : e.siblingBasename = some sibling)
    (hvacant : Vacant d.get e) (hfree : d.get (e.role.directory ++ [sibling]) = none) (hfile : n.isDirectory = false)
    (hs : s.get = movedOn d.get e (e.role.directory ++ [sibling]) n) :
    s.get (e.role.directory ++ [sibling]) = some n ∧ s.get e.role.path = none ∧
      (renameat s (e.role.directory ++ [sibling]) e.role.path = .ok u → u.get = placedOn d.get e n) := by
  have hne := hnames.temporary hsib
  have hcleared : Function.update d.get (e.role.directory ++ [sibling]) none = d.get :=
    Function.update_eq_self_iff.mpr hfree.symm
  unfold Vacant at hvacant
  unfold movedOn at hs
  unfold placedOn
  cases hprior : e.priorState with
  | absent =>
    simp only [hprior] at hs hvacant ⊢
    have hthere : s.get (e.role.directory ++ [sibling]) = some n := by rw [hs, Function.update_self]
    refine ⟨hthere, by rw [hs, Function.update_of_ne hne.symm, hvacant.1], fun hok => ?_⟩
    rw [renameat_file_ok hthere hfile hok, hs, Function.update_idem, hcleared]
  | priorOwned identity name =>
    have hbne := hnames.backup hprior
    have htne := hnames.apart hsib hprior
    simp only [hprior] at hs ⊢
    have hthere : s.get (e.role.directory ++ [sibling]) = some n := by
      rw [hs, Function.update_of_ne htne, Function.update_of_ne hne, Function.update_self]
    refine ⟨hthere, by rw [hs, Function.update_of_ne hbne.symm, Function.update_self], fun hok => ?_⟩
    rw [renameat_file_ok hthere hfile hok, hs, Function.update_comm htne.symm, Function.update_comm hne.symm,
      Function.update_idem, hcleared, Function.update_comm hbne.symm, Function.update_idem]

theorem replaceFile_meets {identity : InstallObjectIdentityV1} (hnames : DistinctNames e)
    (hsib : e.siblingBasename = some sibling) (hvacant : Vacant d.get e)
    (hfree : d.get (e.role.directory ++ [sibling]) = none) (hfile : n.isDirectory = false)
    (hseen : inspectNode 2 n = .ok identity) (hintended : identity.matchesIntended e.intended = true) :
    Meets (fun s => s.get = Function.update d.get (e.role.directory ++ [sibling]) (some n))
      (replaceFile e e.role.directory sibling (priorOf e))
      (fun current s => current = identity ∧ s.get = placedOn d.get e n)
      (FileStop d e (e.role.directory ++ [sibling]) pl) := by
  have hplaced : ∀ {s : Disk}, s.get = placedOn d.get e n → s.get e.role.path = some n := fun hs => by
    rw [hs, placedOn]
    cases e.priorState <;> exact Function.update_self ..
  unfold replaceFile
  refine Meets.bind (moveBackup_meets hnames hsib hvacant hfile) fun _ => ?_
  refine Meets.bind (Q := fun _ s => s.get = placedOn d.get e n) ?_ fun _ => ?_
  · refine Meets.perform (fun hit s hs => fileStop_fault hit .place rfl rfl hfile hs) ?_ ?_
    · intro s err hs herr
      obtain ⟨hthere, hgone, -⟩ := place_get (u := s) hnames hsib hvacant hfree hfile hs
      obtain ⟨info, hparent⟩ := directory_of_child hthere
      obtain ⟨s', hok⟩ := renameat_file_succeeds (b := e.role.basename) hthere hfile hparent
        (by rw [← e.role.path_eq, hgone]; rfl)
      rw [renameatNoreplace_eq (by rw [← e.role.path_eq]; exact hgone), hok] at herr
      cases herr
    · intro s s' hs hok
      obtain ⟨hthere, hgone, hmove⟩ := place_get (u := s') hnames hsib hvacant hfree hfile hs
      rw [← e.role.path_eq, renameatNoreplace_eq hgone] at hok
      exact hmove hok
  refine Meets.bind (syncAll_meets fun hit s hs => fileStop_fault hit .placeSync rfl rfl hfile hs) fun _ => ?_
  have hat : ∀ {s : Disk}, s.get = placedOn d.get e n → inspectAt s (e.role.directory ++ [e.role.basename]) = .ok identity :=
    fun hs => by rw [← e.role.path_eq, inspectAt_file (hplaced hs) hfile, hseen]
  refine Meets.look (fun hit s hs => fileStop_fault hit .inspect rfl rfl hfile hs) ?_ ?_
  · intro s err hs herr
    rw [hat hs] at herr
    simp [bind, Except.bind, hintended] at herr
  · intro s current hs hok
    rw [hat hs] at hok
    simp only [bind, Except.bind, hintended, Bool.not_true, Bool.false_eq_true, if_false, Except.ok.injEq] at hok
    exact ⟨hok.symm, hs⟩

end Replace

theorem applyFile_meets (hlayout : EntryLayout e) (hkind : e.intended.kind = .regularFile) (hnamed : NamedEntry tx e) :
    Meets (· = d) (applyFile e payload) (fun current s => ∃ n, Placed d e current n s)
      (fun cause site s => EntryStop d tx e payload cause site s) := by
  unfold applyFile
  refine Meets.bind (Q := fun found s => s = d ∧ fileCheck e payload d = .ok found) ?_ fun found => ?_
  · refine Meets.look (fun hit s hs => ⟨.check, rfl, by rw [hs]; cases hit <;> rfl, fun err herr => by cases herr⟩) ?_ ?_
    · intro s err hs herr
      rw [hs] at herr
      refine ⟨.check, rfl, by rw [hs]; rfl, fun _ _ hable => ?_⟩
      obtain ⟨name, hname, -⟩ := hlayout.sibling hkind
      have hpayload := hable.payload
      rw [hkind] at hpayload
      obtain ⟨digest, hblob, -⟩ := hpayload
      rw [(fileCheck_ok hlayout hkind).mpr ⟨hblob, rfl, hname, rfl, hable.sibling name hname, hable.vacant, hable.reach,
        hable.selinux⟩] at herr
      cases herr
    · intro s found hs hok
      rw [hs] at hok
      exact ⟨hs, hok⟩
  obtain ⟨pl, parent, sibling, prior⟩ := found
  refine Meets.intro fun s₀ hmet => ?_
  obtain ⟨hs₀, hcheck⟩ := hmet
  obtain ⟨hpayload, rfl, hsib, rfl, hfree, hvacant, hreach, hselinux⟩ := (fileCheck_ok hlayout hkind).mp hcheck
  refine Meets.bind (Q := fun _ s => ∃ info, info.plain = true ∧ info.inode = d.highest inode + 1 ∧ s.get =
      Function.update d.get (e.role.directory ++ [sibling]) (some (.file info 1 (.blob emptyDigest)))) ?_ fun _ => ?_
  · refine Meets.perform (fun hit s hs => ⟨.create, rfl, by rw [hs, hs₀]; cases hit <;> rfl, fun err herr => by cases herr⟩)
      ?_ ?_
    · intro s err hs herr
      refine ⟨.create, rfl, by rw [hs, hs₀]; rfl, fun _ _ hable => ?_⟩
      rw [hs, hs₀] at herr
      obtain ⟨info, hparent⟩ := hable.parent
      obtain ⟨s', hok⟩ := create_succeeds (g := fun info => .file (newInfo d info 0o600) 1 (.blob emptyDigest))
        hparent hfree
      rw [createatFile, hok] at herr
      cases herr
    · intro s s' hs hok
      rw [hs, hs₀] at hok
      obtain ⟨info, -, -, hs'⟩ := create_ok hok
      exact ⟨_, rfl, rfl, hs'⟩
  refine Meets.intro fun s₁ hmet => ?_
  obtain ⟨info, hplain, hnumber, hs₁⟩ := hmet
  have hreplace : ∀ s₂ : Disk, (∃ n identity, n.isDirectory = false ∧ inspectNode 2 n = .ok identity ∧
      n.info.inode = info.inode ∧ identity.matchesIntended e.intended = true ∧
      s₂.get = Function.update d.get (e.role.directory ++ [sibling]) (some n)) →
      Meets (· = s₂) (replaceFile e e.role.directory sibling (priorOf e))
        (fun current s => ∃ n, inspectNode 2 n = .ok current ∧ n.info.inode = info.inode ∧
          current.matchesIntended e.intended = true ∧ s.get = placedOn d.get e n)
        (FileStop d e (e.role.directory ++ [sibling]) pl) := by
    rintro s₂ ⟨n, identity, hfile, hseen, hsame, hintended, hs₂⟩
    refine Meets.mono (replaceFile_meets (distinctNames_of_named hnamed) hsib hvacant hfree hfile hseen hintended) (fun s hs => by rw [hs]; exact hs₂)
      ?_ (fun _ _ _ h => h)
    intro current s hmet
    exact ⟨n, by rw [hmet.1]; exact hseen, hsame, by rw [hmet.1]; exact hintended, hmet.2⟩
  refine Meets.mono (Meets.protect (I := FileStop d e (e.role.directory ++ [sibling]) pl) (Meets.bind
    (Meets.mono (prepareFile_meets hlayout hkind hplain) (fun _ hs => hs) (fun _ _ hs => hs) fun _ _ _ hstop => hstop.1)
    fun _ => Meets.intro hreplace) ?_ ?_) (fun s hs => by rw [hs]; exact hs₁) ?_
    (fun _ _ _ h => h)
  · rintro site s ⟨⟨step, hsite, hcrash, _, n, hfile, hs⟩, _⟩
    exact ⟨step, hsite, by rw [if_pos hcrash]; exact residue_file hnamed hsib hvacant hfree hs, fun err herr => by cases herr⟩
  · rintro cause site s hcrash ⟨⟨step, hsite, _, hfailure, n, hfile, hs⟩, hrefuse⟩
    have hclean := removeFile_get (k := step) (distinctNames_of_named hnamed) hsib hvacant hfree hfile hs
    have hno : leavesResidue cause step = false := leavesResidue_of_cleaned hcrash fun _ => hfailure
    refine ⟨step, hsite, ?_, fun err herr hable => ?_⟩
    · rw [hno, hsite]
      exact hclean
    · have hright := hable.payload
      rw [hkind, hpayload] at hright
      obtain ⟨digest, hblob, hsha⟩ := hright
      exact hrefuse err herr ⟨digest, Option.some.inj hblob, hsha⟩
  · rintro current s ⟨n, hseen, hsame, hintended, hs⟩
    refine ⟨n, hs, hvacant, hseen, fun m hm => ?_, hintended, hreach, hselinux⟩
    have := FileTree.le_highest inode hm
    rw [hsame, hnumber]
    exact Nat.lt_succ_of_le this

/-- **Applying an entry.** -/
theorem applyEntry_meets (hvalid : e.validate = .ok ()) (hnamed : NamedEntry tx e) :
    Meets (· = d) (applyEntry e payload) (fun current s => ∃ n, Placed d e current n s)
      (fun cause site s => EntryStop d tx e payload cause site s) := by
  have hlayout := entryLayout_of_validate hvalid
  unfold applyEntry
  cases hkind : e.intended.kind with
  | directory => exact applyDirectory_meets hlayout hkind
  | regularFile => exact applyFile_meets hlayout hkind hnamed

end Fs

end NetworkLoop.Install
