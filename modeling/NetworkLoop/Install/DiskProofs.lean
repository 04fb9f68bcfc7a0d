import NetworkLoop.Install.Disk

/-! What the system calls do to a disk, and when the helpers that only look succeed.

A system call that succeeded is one equation between the two disks; a helper that
succeeded is a fact about a few nodes. The directories on the way to an object count
only through `Reach`, which asks of each that it stands as the layout has it. -/
namespace NetworkLoop.Install
open Library

namespace Disk
variable {d d' : Disk} {p q src dst parent : Path} {name : String} {n : Node} {info : Metadata}

/-! ### System calls -/

theorem done_eq_ok {result : Option Disk} : done result = .ok d ↔ result = some d := by
  cases result with
  | none => exact ⟨fun h => (by cases h), fun h => by cases h⟩
  | some t => simp [done]

theorem create_ok {node : Metadata → Node} (h : create d parent name node = .ok d') :
    ∃ info, d.get parent = some (.directory info) ∧ d.get (parent ++ [name]) = none ∧
      d'.get = Function.update d.get (parent ++ [name]) (some (node info)) := by
  unfold create at h
  split at h
  · rename_i info hparent hfree
    exact ⟨info, hparent, hfree, FileTree.get_put (done_eq_ok.mp h)⟩
  · cases h

theorem create_succeeds {b : String} {g : Metadata → Node} (hparent : d.get parent = some (.directory info))
    (hfree : d.get (parent ++ [b]) = none) : ∃ d', create d parent b g = .ok d' := by
  have hfits : d.Fits (parent ++ [b]) (g info) := by
    refine ⟨.inr ?_, .inr ?_⟩
    · rw [List.dropLast_concat, hparent]
      rfl
    · rw [hfree]
      rfl
  obtain ⟨d', hput⟩ := FileTree.put_isSome hfits
  refine ⟨d', ?_⟩
  simp only [create, hparent, hfree, hput]
  rfl

/-- A node of the same kind fits where a node stands. -/
theorem fits_of_get {m : Node} (hget : d.get (parent ++ [name]) = some n) (hkind : m.isDirectory = n.isDirectory) :
    d.Fits (parent ++ [name]) m := by
  refine ⟨.inr ?_, ?_⟩
  · rw [List.dropLast_concat]
    exact FileTree.parent_of_get hget
  · rw [hget, Option.any_some, hkind]
    exact Bool.eq_false_or_eq_true n.isDirectory

theorem alter_ok {f : Node → Node} (h : alter d p f = .ok d') :
    ∃ n, d.get p = some n ∧ d'.get = Function.update d.get p (some (f n)) := by
  unfold alter at h
  split at h
  · rename_i n hget
    exact ⟨n, hget, FileTree.get_put (done_eq_ok.mp h)⟩
  · cases h

theorem alter_succeeds {f : Node → Node} (hget : d.get (parent ++ [name]) = some n)
    (hkind : (f n).isDirectory = n.isDirectory) : ∃ d', alter d (parent ++ [name]) f = .ok d' := by
  obtain ⟨d', hput⟩ := FileTree.put_isSome (fits_of_get hget hkind)
  refine ⟨d', ?_⟩
  simp only [alter, hget, hput]
  rfl

theorem writeAll_ok {content : Content} (h : writeAll d p content = .ok d') :
    ∃ info links old, d.get p = some (.file info links old) ∧
      d'.get = Function.update d.get p (some (.file info links content)) := by
  unfold writeAll at h
  split at h
  · rename_i info links old hget
    exact ⟨info, links, old, hget, FileTree.get_put (done_eq_ok.mp h)⟩
  · cases h

theorem writeAll_succeeds {c old : Content} {links : Nat}
    (hget : d.get (parent ++ [name]) = some (.file info links old)) :
    ∃ d', writeAll d (parent ++ [name]) c = .ok d' := by
  obtain ⟨d', hput⟩ := FileTree.put_isSome (fits_of_get (m := .file info links c) hget rfl)
  refine ⟨d', ?_⟩
  simp only [writeAll, hget, hput]
  rfl

theorem unlinkat_ok {directory : Bool} (h : unlinkat d parent name directory = .ok d') :
    (∃ n, d.get (parent ++ [name]) = some n ∧ n.isDirectory = directory) ∧
      (∀ child, d.get (parent ++ [name] ++ [child]) = none) ∧
      d'.get = Function.update d.get (parent ++ [name]) none := by
  unfold unlinkat at h
  split at h
  · rename_i n hget
    split at h
    · rename_i hkind
      have hremove := done_eq_ok.mp h
      refine ⟨⟨n, hget, hkind⟩, ?_, FileTree.get_remove hremove⟩
      intro child
      by_contra hchild
      rw [FileTree.remove_eq_none hchild] at hremove
      cases hremove
    · cases h
  · cases h

theorem unlinkat_succeeds (hget : d.get (parent ++ [name]) = some n)
    (hempty : ∀ child, d.get (parent ++ [name] ++ [child]) = none) :
    ∃ d', unlinkat d parent name n.isDirectory = .ok d' := by
  obtain ⟨d', hremove⟩ := FileTree.remove_isSome hempty
  refine ⟨d', ?_⟩
  simp only [unlinkat, hget, if_true, hremove]
  rfl

/-- What has something under it is a directory. -/
theorem directory_of_child {a : Path} {b : String} (h : d.get (a ++ [b]) = some n) : ∃ info, d.get a = some (.directory info) := by
  have hdir := FileTree.parent_of_get h
  cases hget : d.get a with
  | none => rw [hget] at hdir; cases hdir
  | some found =>
    rw [hget] at hdir
    cases found with
    | directory info => exact ⟨info, rfl⟩
    | file | symlink | special => cases hdir

/-- Nothing lies under a file. -/
theorem get_under_file (hget : d.get p = some n) (hfile : n.isDirectory = false) (child : String) :
    d.get (p ++ [child]) = none := by
  cases hchild : d.get (p ++ [child]) with
  | none => rfl
  | some m =>
    have := FileTree.parent_of_get hchild
    rw [hget, Option.any_some, hfile] at this
    cases this

theorem renameat_file_ok (hget : d.get src = some n) (hfile : n.isDirectory = false)
    (h : renameat d src dst = .ok d') :
    d'.get = Function.update (Function.update d.get src none) dst (some n) := by
  unfold renameat at h
  simp only [hget, hfile, Bool.false_eq_true, if_false] at h
  split at h
  · cases h
  · obtain ⟨t, hremove, hput⟩ := Option.bind_eq_some_iff.mp (done_eq_ok.mp h)
    rw [FileTree.get_put hput, FileTree.get_remove hremove]

theorem renameat_file_succeeds {b : String} (hget : d.get src = some n) (hfile : n.isDirectory = false)
    (hparent : d.get parent = some (.directory info)) (hdst : (d.get (parent ++ [b])).any Node.isDirectory = false) :
    ∃ d', renameat d src (parent ++ [b]) = .ok d' := by
  obtain ⟨t, hremove⟩ := FileTree.remove_isSome (get_under_file hget hfile)
  have hsrc : parent ≠ src := by
    intro heq
    rw [heq, hget] at hparent
    cases hparent
    cases hfile
  have hfits : t.Fits (parent ++ [b]) n := by
    refine ⟨.inr ?_, .inr ?_⟩
    · rw [List.dropLast_concat, FileTree.get_remove hremove, Function.update_of_ne hsrc, hparent]
      rfl
    · rw [FileTree.get_remove hremove]
      by_cases heq : parent ++ [b] = src
      · rw [heq, Function.update_self]
        rfl
      · rwa [Function.update_of_ne heq]
  obtain ⟨d', hput⟩ := FileTree.put_isSome hfits
  refine ⟨d', ?_⟩
  simp only [renameat, hget, hfile, hdst, hremove, Option.bind_some, hput, Bool.false_eq_true, if_false]
  rfl

theorem renameatNoreplace_eq (hfree : d.get dst = none) : renameatNoreplace d src dst = renameat d src dst := by
  simp [renameatNoreplace, hfree]

theorem renameat_directory_ok (hget : d.get src = some n) (hdir : n.isDirectory = true)
    (h : renameat d src dst = .ok d') (q : Path) :
    d'.get q = if dst <+: q then d.get (src ++ q.drop dst.length) else if src <+: q then none else d.get q := by
  unfold renameat at h
  simp only [hget, hdir, if_true] at h
  exact FileTree.get_graft (done_eq_ok.mp h) q

theorem renameat_directory_succeeds {b : String} (hget : d.get src = some n) (hdir : n.isDirectory = true)
    (hparent : d.get parent = some (.directory info)) (hfree : d.get (parent ++ [b]) = none)
    (hout : ¬src <+: parent ++ [b]) : ∃ d', renameat d src (parent ++ [b]) = .ok d' := by
  have hgrafts : d.Grafts src (parent ++ [b]) := by
    refine ⟨by simp [hget], hfree, ?_, hout⟩
    rw [List.dropLast_concat, hparent]
    rfl
  obtain ⟨d', hgraft⟩ := FileTree.graft_isSome hgrafts
  refine ⟨d', ?_⟩
  simp only [renameat, hget, hdir, if_true, hgraft]
  rfl

/-! ### Directories of the layout -/

/-- A directory as `validate_directory` asks for it. -/
def ValidDirectory (node : Option Node) (mode : Nat) : Prop :=
  ∃ info, node = some (.directory info) ∧ info.uid = 0 ∧ info.gid = 0 ∧ info.mode = mode ∧ info.plain = true

theorem validateDirectory_iff {mode : Nat} : validateDirectory d p mode = .ok () ↔ ValidDirectory (d.get p) mode := by
  unfold validateDirectory ValidDirectory ensureSupportedMetadata
  split
  · rename_i info hget
    rw [hget]
    constructor
    · intro h
      split at h
      · cases h
      · split at h
        · rename_i hmeta hplain
          simp only [bne_iff_ne, Bool.or_eq_true, not_or, not_not] at hmeta
          exact ⟨info, rfl, hmeta.1.1, hmeta.1.2, hmeta.2, hplain⟩
        · cases h
    · intro ⟨info', heq, huid, hgid, hmode, hplain⟩
      cases heq
      simp [huid, hgid, hmode, hplain]
  · rename_i hno
    constructor
    · intro h
      cases h
    · intro ⟨info, hget, _⟩
      exact absurd hget (hno info)

/-- The directory of a role stands as the layout has it. -/
def Stands (d : Disk) (a : InstallRoleV1) : Prop := ValidDirectory (d.get a.path) a.expectedMode

/-- Every directory on the way to a role's object stands. -/
def Reach (d : Disk) (r : InstallRoleV1) : Prop := ∀ a, InstallRoleV1.Above a r → Stands d a

theorem Stands.exists_directory {a : InstallRoleV1} (h : Stands d a) : ∃ info, d.get a.path = some (.directory info) := by
  obtain ⟨info, hget, -⟩ := h
  exact ⟨info, hget⟩

theorem Stands.congr {a : InstallRoleV1} (h : Stands d a) (heq : d'.get a.path = d.get a.path) : Stands d' a := by
  unfold Stands
  rwa [heq]

theorem ensureSafeBasename_component : ∀ (r : InstallRoleV1), ∀ component ∈ r.path,
    ensureSafeBasename component = .ok () := by
  decide

theorem find_layout (a : InstallRoleV1) : InstallRoleV1.all.find? (fun entry => entry.path = a.path) = some a := by
  cases hfind : InstallRoleV1.all.find? (fun entry => entry.path = a.path) with
  | none =>
    have := List.find?_eq_none.mp hfind a (InstallRoleV1.mem_all a)
    simp at this
  | some b =>
    have hb : b.path = a.path := by simpa using List.find?_some hfind
    rw [InstallRoleV1.path_injective hb]

/-- The directories of the layout from one path down to another are the next one and those below it. -/
theorem forall_layout_cons {P : InstallRoleV1 → Prop} {current : Path} {component : String} {rest : List String}
    {a : InstallRoleV1} (ha : a.path = current ++ [component]) :
    (∀ b : InstallRoleV1, current <+: b.path → b.path ≠ current → b.path <+: current ++ component :: rest → P b) ↔
      P a ∧ ∀ b : InstallRoleV1, a.path <+: b.path → b.path ≠ a.path → b.path <+: a.path ++ rest → P b := by
  have hassoc : current ++ component :: rest = a.path ++ rest := by simp [ha]
  rw [hassoc]
  constructor
  · intro h
    refine ⟨h a (ha ▸ List.prefix_append ..) (by simp [ha]) (List.prefix_append ..), ?_⟩
    intro b hb _ hle
    refine h b ((ha ▸ List.prefix_append ..).trans hb) ?_ hle
    intro heq
    have := hb.length_le
    rw [heq, ha, List.length_append, List.length_singleton] at this
    omega
  · intro ⟨hnext, h⟩ b hb hne hle
    by_cases heq : b.path = a.path
    · rwa [InstallRoleV1.path_injective heq]
    · refine h b ?_ heq hle
      obtain ⟨tail, htail⟩ := hb
      cases tail with
      | nil => exact absurd (by simpa using htail.symm) hne
      | cons c tail =>
        have hc : c = component := by
          obtain ⟨more, hmore⟩ := hle
          rw [← htail, ha] at hmore
          simp only [List.append_assoc, List.append_cancel_left_eq, List.cons_append, List.nil_append,
            List.cons.injEq] at hmore
          exact hmore.1
        exact ⟨tail, by rw [ha, ← htail, hc]; simp⟩

/-- One round of the loop, at a directory of the layout. -/
theorem openStaticFrom_cons {current : Path} {component : String} {rest : List String} {a : InstallRoleV1}
    (ha : a.path = current ++ [component]) :
    openStaticFrom d current (component :: rest) =
      match d.get a.path with
      | none => .ok none
      | some (.directory _) => validateDirectory d a.path a.expectedMode >>= fun _ => openStaticFrom d a.path rest
      | some _ => .error .unsafeObject := by
  have hsafe := ensureSafeBasename_component a component (by simp [ha])
  rw [openStaticFrom, hsafe]
  show (openatDirectoryOptional d current component >>= _) = _
  unfold openatDirectoryOptional
  rw [← ha]
  cases d.get a.path with
  | none => rfl
  | some n =>
    cases n with
    | directory info => simp only [bind, Except.bind, find_layout]
    | file | symlink | special => rfl

/-- The next directory on the way to a role's object is in the layout. -/
theorem next_role {current : Path} {component : String} {rest : List String} {r : InstallRoleV1}
    (hr : current ++ component :: rest <+: r.path) :
    ∃ a : InstallRoleV1, a.path = current ++ [component] ∧ a.path ++ rest <+: r.path := by
  have hassoc : current ++ component :: rest = (current ++ [component]) ++ rest := by simp
  rw [hassoc] at hr
  obtain ⟨a, ha⟩ := InstallRoleV1.prefix_role r _ ((List.prefix_append ..).trans hr) (by simp)
  exact ⟨a, ha, by rwa [ha]⟩

theorem openStaticFrom_some {current : Path} {rest : List String} {r : InstallRoleV1}
    (hr : current ++ rest <+: r.path) : openStaticFrom d current rest = .ok (some q) ↔
      q = current ++ rest ∧
        ∀ a : InstallRoleV1, current <+: a.path → a.path ≠ current → a.path <+: current ++ rest → Stands d a := by
  induction rest generalizing current with
  | nil =>
    rw [openStaticFrom, List.append_nil]
    constructor
    · intro h
      cases h
      exact ⟨rfl, fun a h hne hle => absurd (hle.eq_of_length_le h.length_le) hne⟩
    · intro ⟨h, _⟩
      rw [h]
  | cons component rest ih =>
    obtain ⟨a, ha, hr⟩ := next_role hr
    rw [forall_layout_cons ha, openStaticFrom_cons ha, show current ++ component :: rest = a.path ++ rest by simp [ha]]
    cases hget : d.get a.path with
    | none =>
      refine iff_of_false (fun h => (by cases h)) fun ⟨_, hstands, _⟩ => ?_
      obtain ⟨info, hdir⟩ := hstands.exists_directory
      rw [hget] at hdir
      cases hdir
    | some n =>
      cases n with
      | directory info =>
        show (validateDirectory d a.path a.expectedMode >>= fun _ => openStaticFrom d a.path rest) = _ ↔ _
        rw [bind_unit_eq_ok, validateDirectory_iff, ih hr]
        exact and_left_comm
      | file | symlink | special =>
        refine iff_of_false (fun h => (by cases h)) fun ⟨_, hstands, _⟩ => ?_
        obtain ⟨info, hdir⟩ := hstands.exists_directory
        rw [hget] at hdir
        cases hdir

/-- Opening a directory of the layout, or one on the way to it. -/
theorem openStaticDirectoryOptional_some {r : InstallRoleV1} (hr : p <+: r.path) :
    openStaticDirectoryOptional d p = .ok (some q) ↔ q = p ∧ ∀ a : InstallRoleV1, a.path <+: p → Stands d a := by
  have hne : ∀ a : InstallRoleV1, a.path ≠ [] := fun a => by simp [a.path_eq]
  rw [openStaticDirectoryOptional, openStaticFrom_some (by simpa using hr)]
  simp [hne]

theorem openStaticDirectory_ok {r : InstallRoleV1} (hr : p <+: r.path) :
    openStaticDirectory d p = .ok q ↔ q = p ∧ ∀ a : InstallRoleV1, a.path <+: p → Stands d a := by
  rw [← openStaticDirectoryOptional_some hr, openStaticDirectory, bind_eq_ok]
  constructor
  · intro ⟨opened, hopen, hsome⟩
    cases opened with
    | none => cases hsome
    | some next =>
      cases hsome
      exact hopen
  · intro hopen
    exact ⟨some q, hopen, rfl⟩

theorem directory_extends (r : InstallRoleV1) : r.directory <+: r.path := by
  rw [r.path_eq]
  exact List.prefix_append ..

theorem openRoleParent_ok {r : InstallRoleV1} : openRoleParent d r = .ok q ↔ q = r.directory ∧ Reach d r := by
  unfold openRoleParent Reach
  rw [openStaticDirectory_ok (directory_extends r)]
  simp only [InstallRoleV1.above_iff_directory]

/-! ### Inspection -/

theorem inspectExact_ok {r : InstallRoleV1} {identity : InstallObjectIdentityV1} :
    inspectExact d r = .ok identity ↔
      ensureSelinuxIsNotEnforcing d = .ok () ∧ Reach d r ∧ inspectAt d r.path = .ok identity := by
  unfold inspectExact
  rw [bind_unit_eq_ok, bind_eq_ok]
  constructor
  · intro ⟨hselinux, parent, hparent, hinspect⟩
    obtain ⟨rfl, hreach⟩ := openRoleParent_ok.mp hparent
    exact ⟨hselinux, hreach, by rwa [r.path_eq]⟩
  · intro ⟨hselinux, hreach, hinspect⟩
    exact ⟨hselinux, r.directory, openRoleParent_ok.mpr ⟨rfl, hreach⟩, by rwa [← r.path_eq]⟩

theorem inspectOptionalExact_some {r : InstallRoleV1} {identity : InstallObjectIdentityV1} :
    inspectOptionalExact d r = .ok (some identity) ↔ inspectExact d r = .ok identity := by
  rw [inspectExact_ok]
  unfold inspectOptionalExact
  rw [bind_unit_eq_ok, bind_eq_ok]
  constructor
  · intro ⟨hselinux, opened, hopen, hinspect⟩
    cases opened with
    | none => cases hinspect
    | some parent =>
      obtain ⟨rfl, habove⟩ := (openStaticDirectoryOptional_some (directory_extends r)).mp hopen
      refine ⟨hselinux, fun a ha => habove a (InstallRoleV1.above_iff_directory.mp ha), ?_⟩
      simp only [] at hinspect
      split at hinspect
      · obtain ⟨found, hfound, hret⟩ := bind_eq_ok.mp hinspect
        cases hret
        rwa [r.path_eq]
      · cases hinspect
  · intro ⟨hselinux, hreach, hinspect⟩
    refine ⟨hselinux, some r.directory, ?_, ?_⟩
    · exact (openStaticDirectoryOptional_some (directory_extends r)).mpr
        ⟨rfl, fun a ha => hreach a (InstallRoleV1.above_iff_directory.mpr ha)⟩
    · have hthere : entryExistsAt d r.directory r.basename = true := by
        unfold entryExistsAt
        rw [← r.path_eq]
        unfold inspectAt at hinspect
        cases hget : d.get r.path with
        | none => rw [hget] at hinspect; cases hinspect
        | some n => rfl
      simp only [hthere, if_true]
      exact bind_eq_ok.mpr ⟨identity, by rwa [← r.path_eq], rfl⟩

/-- A directory of the layout that cannot be opened because it, or one above it, is not there. -/
theorem openStaticFrom_none {current : Path} {rest : List String} (h : openStaticFrom d current rest = .ok none) :
    ∃ p, p <+: current ++ rest ∧ d.get p = none := by
  induction rest generalizing current with
  | nil => cases h
  | cons component rest ih =>
    obtain ⟨-, hrest⟩ := bind_unit_eq_ok.mp h
    obtain ⟨opened, hopen, hrest⟩ := bind_eq_ok.mp hrest
    cases hget : d.get (current ++ [component]) with
    | none => exact ⟨current ++ [component], by simp, hget⟩
    | some n =>
      unfold openatDirectoryOptional at hopen
      rw [hget] at hopen
      cases n with
      | directory info =>
        cases hopen
        simp only [] at hrest
        split at hrest
        · cases hrest
        · obtain ⟨-, hrest⟩ := bind_unit_eq_ok.mp hrest
          obtain ⟨p, hp, hnone⟩ := ih hrest
          exact ⟨p, by simpa using hp, hnone⟩
      | file | symlink | special => cases hopen

/-- Every directory on the way to a role's object that is there stands. -/
def Clear (d : Disk) (r : InstallRoleV1) : Prop := ∀ a, InstallRoleV1.Above a r → d.get a.path = none ∨ Stands d a

theorem Reach.clear {r : InstallRoleV1} (h : Reach d r) : Clear d r := fun a ha => .inr (h a ha)

/-- Opening a directory of the layout finds nothing, or the directory. -/
theorem openStaticFrom_ok {current : Path} {rest : List String} {r : InstallRoleV1} (hr : current ++ rest <+: r.path) :
    (∃ opened, openStaticFrom d current rest = .ok opened) ↔ ∀ a : InstallRoleV1, current <+: a.path → a.path ≠ current →
      a.path <+: current ++ rest → d.get a.path = none ∨ Stands d a := by
  induction rest generalizing current with
  | nil =>
    rw [List.append_nil]
    exact ⟨fun _ a h hne hle => absurd (hle.eq_of_length_le h.length_le) hne, fun _ => ⟨_, rfl⟩⟩
  | cons component rest ih =>
    obtain ⟨a, ha, hr⟩ := next_role hr
    rw [forall_layout_cons ha, openStaticFrom_cons ha]
    cases hget : d.get a.path with
    | none =>
      exact iff_of_true ⟨none, rfl⟩ ⟨.inl rfl, fun b hb _ _ => .inl (FileTree.get_under_none hget hb)⟩
    | some n =>
      cases n with
      | directory info =>
        rw [← ih hr]
        constructor
        · intro ⟨opened, hopened⟩
          obtain ⟨hvalid, hrest⟩ := bind_unit_eq_ok.mp hopened
          exact ⟨.inr (validateDirectory_iff.mp hvalid), opened, hrest⟩
        · intro ⟨hhere, opened, hrest⟩
          rcases hhere with hno | hstands
          · cases hno
          · exact ⟨opened, bind_unit_eq_ok.mpr ⟨validateDirectory_iff.mpr hstands, hrest⟩⟩
      | file | symlink | special =>
        refine iff_of_false (fun ⟨_, h⟩ => (by cases h)) fun ⟨hhere, _⟩ => ?_
        rcases hhere with hno | hstands
        · cases hno
        · obtain ⟨info, hdir⟩ := hstands.exists_directory
          rw [hget] at hdir
          cases hdir

theorem openStaticDirectoryOptional_ok {r : InstallRoleV1} (hr : p <+: r.path) :
    (∃ opened, openStaticDirectoryOptional d p = .ok opened) ↔
      ∀ a : InstallRoleV1, a.path <+: p → d.get a.path = none ∨ Stands d a := by
  have hne : ∀ a : InstallRoleV1, a.path ≠ [] := fun a => by simp [a.path_eq]
  rw [openStaticDirectoryOptional, openStaticFrom_ok (by simpa using hr)]
  simp [hne]

/-- What `inspect_optional_exact` finds is there. -/
theorem inspectOptionalExact_isSome {r : InstallRoleV1} {found : Option InstallObjectIdentityV1}
    (h : inspectOptionalExact d r = .ok found) : found.isSome = (d.get r.path).isSome := by
  obtain ⟨-, hrest⟩ := bind_unit_eq_ok.mp h
  obtain ⟨opened, hopen, hrest⟩ := bind_eq_ok.mp hrest
  cases opened with
  | none =>
    cases hrest
    obtain ⟨p, hp, hnone⟩ := openStaticFrom_none hopen
    rw [FileTree.get_under_none hnone (hp.trans (directory_extends r))]
    rfl
  | some parent =>
    obtain ⟨rfl, -⟩ := (openStaticDirectoryOptional_some (directory_extends r)).mp hopen
    rw [r.path_eq]
    by_cases hthere : (d.get (r.directory ++ [r.basename])).isSome = true
    · rw [hthere]
      simp only [entryExistsAt, hthere, if_true] at hrest
      obtain ⟨identity, -, hret⟩ := bind_eq_ok.mp hrest
      cases hret
      rfl
    · simp only [entryExistsAt, hthere] at hrest
      cases hrest
      rw [Bool.not_eq_true] at hthere
      rw [hthere]
      rfl

/-- **An object that is not there.** -/
theorem inspectOptionalExact_none {r : InstallRoleV1} : inspectOptionalExact d r = .ok none ↔
    ensureSelinuxIsNotEnforcing d = .ok () ∧ Clear d r ∧ d.get r.path = none := by
  have hclear : (∃ opened, openStaticDirectoryOptional d r.directory = .ok opened) ↔ Clear d r := by
    rw [openStaticDirectoryOptional_ok (directory_extends r)]
    simp only [Clear, InstallRoleV1.above_iff_directory]
  constructor
  · intro h
    have hsome := inspectOptionalExact_isSome h
    obtain ⟨hselinux, hrest⟩ := bind_unit_eq_ok.mp h
    obtain ⟨opened, hopen, -⟩ := bind_eq_ok.mp hrest
    exact ⟨hselinux, hclear.mp ⟨opened, hopen⟩, by simpa using hsome.symm⟩
  · intro ⟨hselinux, hpath, hgone⟩
    obtain ⟨opened, hopen⟩ := hclear.mpr hpath
    unfold inspectOptionalExact
    rw [hselinux, hopen]
    cases opened with
    | none => rfl
    | some parent =>
      obtain ⟨rfl, -⟩ := (openStaticDirectoryOptional_some (directory_extends r)).mp hopen
      rw [r.path_eq] at hgone
      simp only [bind, Except.bind, entryExistsAt, hgone]
      rfl

/-- What an inspection returns is a valid identity. -/
theorem inspectNode_valid {links : Nat} {identity : InstallObjectIdentityV1} (h : inspectNode links n = .ok identity)
    (hlinks : 0 < links) : identity.validate = .ok () := by
  cases n with
  | directory info =>
    obtain ⟨-, hret⟩ := bind_unit_eq_ok.mp h
    cases hret
    have hmode : ¬4095 < info.mode := Nat.not_lt.mpr info.mode_le
    simp [InstallObjectIdentityV1.validate, InstallObjectIdentityV1.shapeValid, info.device_ne, info.inode_ne, hmode,
      Nat.pos_iff_ne_zero.mp hlinks]
  | file info hardLinks content =>
    obtain ⟨-, hrest⟩ := bind_unit_eq_ok.mp h
    split at hrest
    · cases hrest
    · rename_i hone
      obtain ⟨digest, hdigest, hret⟩ := bind_eq_ok.mp hrest
      cases hret
      cases content with
      | blob text =>
        cases hdigest
        have hmode : ¬4095 < info.mode := Nat.not_lt.mpr info.mode_le
        simp [InstallObjectIdentityV1.validate, InstallObjectIdentityV1.shapeValid, info.device_ne, info.inode_ne,
          hmode, of_not_not hone, text.2]
      | journal | enforce => cases hdigest
  | symlink info => cases h
  | special info =>
    obtain ⟨-, hret⟩ := bind_unit_eq_ok.mp h
    cases hret

/-- An object with nothing under it is inspected by its node alone. -/
theorem inspectAt_of_empty (hget : d.get p = some n) (hempty : ∀ child, d.get (p ++ [child]) = none) :
    inspectAt d p = inspectNode 2 n := by
  simp only [inspectAt, hget, FileTree.subdirectories_eq_zero hempty, Nat.add_zero]

theorem inspectAt_directory (hget : d.get p = some (.directory info)) (hplain : info.plain = true) :
    inspectAt d p =
      .ok ⟨.directory, info.device, info.inode, 2 + d.subdirectories p, none, info.mode, info.uid, info.gid⟩ := by
  simp only [inspectAt, hget, inspectNode, ensureSupportedMetadata, hplain, if_true]
  rfl

theorem inspectAt_file (hget : d.get p = some n) (hfile : n.isDirectory = false) : inspectAt d p = inspectNode 2 n :=
  inspectAt_of_empty hget (get_under_file hget hfile)

/-- The number of links counts for a directory only. -/
theorem inspectNode_file {links links' : Nat} (hfile : n.isDirectory = false) :
    inspectNode links n = inspectNode links' n := by
  cases n with
  | directory => cases hfile
  | file | symlink | special => rfl

theorem inspectNode_directory {links : Nat} {identity : InstallObjectIdentityV1}
    (h : inspectNode links (.directory info) = .ok identity) :
    info.plain = true ∧ identity = ⟨.directory, info.device, info.inode, links, none, info.mode, info.uid, info.gid⟩ := by
  obtain ⟨hplain, hret⟩ := bind_unit_eq_ok.mp h
  cases hret
  refine ⟨?_, rfl⟩
  unfold ensureSupportedMetadata at hplain
  split at hplain
  · assumption
  · cases hplain

/-- An identity has the number and the kind of the object that it was taken of. -/
theorem inspectNode_seen {links : Nat} {identity : InstallObjectIdentityV1} (h : inspectNode links n = .ok identity) :
    identity.inode = n.info.inode ∧ (n.isDirectory = true ↔ identity.kind = .directory) := by
  cases n with
  | directory info =>
    obtain ⟨-, rfl⟩ := inspectNode_directory h
    exact ⟨rfl, by simp [Node.isDirectory]⟩
  | file info hardLinks content =>
    obtain ⟨-, hrest⟩ := bind_unit_eq_ok.mp h
    split at hrest
    · cases hrest
    · obtain ⟨digest, -, hret⟩ := bind_eq_ok.mp hrest
      cases hret
      exact ⟨rfl, by simp [Node.isDirectory]⟩
  | symlink => cases h
  | special info =>
    obtain ⟨-, hret⟩ := bind_unit_eq_ok.mp h
    cases hret

theorem inspectNode_inode {links : Nat} {identity : InstallObjectIdentityV1} (h : inspectNode links n = .ok identity) :
    identity.inode = n.info.inode := (inspectNode_seen h).1

theorem inspectNode_kind {links : Nat} {identity : InstallObjectIdentityV1} (h : inspectNode links n = .ok identity) :
    n.isDirectory = true ↔ identity.kind = .directory := (inspectNode_seen h).2

end Disk

end NetworkLoop.Install
