import NetworkLoop.Install.Store

/-! Plans for what `inspect_layout` has found.

`inspect_layout` looks at every role of the layout and gives each a state, or refuses at
the first object that is neither the product's nor a directory that any host has. From the
states it returns, `plan` always makes a plan (`plan_succeeds`): one action, and its
verification, for every role but the directories that are there already. `Applies` is the whole
command from there to its end. -/
namespace NetworkLoop.Install
open Library Program Disk

/-- The state of a destination is what the disk shows. -/
def Seen (d : Disk) (operation : InstallOperationV1) (current : Option InstallJournalV1)
    (x : InstallDestinationSnapshotV1) : Prop :=
  ∃ observed, inspectOptionalExact d x.role = .ok observed ∧
    destinationState operation current x.role observed = some x.state

/-- What `inspect_layout` returns is the layout, for an operation that the installed journal admits. -/
structure Accepted (d : Disk) (operation : InstallOperationV1) (found : List InstallDestinationSnapshotV1)
    (current : Option InstallJournalV1) : Prop where
  installed : currentInstalledJournal d = .ok current
  admits : (operation = .install ∧ current = none) ∨ (operation = .upgrade ∧ current.isSome = true)
  roles : found.map (·.role) = InstallRoleV1.all
  seen : ∀ x ∈ found, Seen d operation current x

variable {d s : Disk} {operation : InstallOperationV1} {current : Option InstallJournalV1}
  {found : List InstallDestinationSnapshotV1} {x : InstallDestinationSnapshotV1} {roles front rest : List InstallRoleV1}
  {r : InstallRoleV1} {p : PreparedSystemInstall}

/-! ### Inspecting the layout -/

/-- The four ways for an object not to be foreign. -/
theorem destinationState_some {observed : Option InstallObjectIdentityV1} {state : InstallDestinationStateV1}
    (h : destinationState operation current r observed = some state) :
    (state = .absentDirectory ∧ r.isDirectory = true ∧ observed = none) ∨
      (state = .absentFile ∧ r.isDirectory = false ∧ observed = none) ∨
      (state = .existingPrerequisiteDirectory ∧ r.isDirectory = true ∧ ∃ identity, observed = some identity ∧
        (isStandardPrerequisite r = true ∨ (journalIdentity current r).any (·.matchesPersistentObject identity) = true)) ∨
      (state = .priorOwnedFile ∧ r.isDirectory = false ∧ operation = .upgrade ∧
        ∃ identity, observed = some identity ∧ journalIdentity current r = some identity) := by
  have hkind : r.layoutKind = if r.isDirectory then .directory else .regular := rfl
  unfold destinationState at h
  cases hdir : r.isDirectory with
  | true =>
    rw [hkind, hdir, if_pos rfl] at h
    cases observed with
    | none =>
      cases h
      exact .inl ⟨rfl, rfl, rfl⟩
    | some identity =>
      simp only [] at h
      split at h
      · rename_i hown
        cases h
        exact .inr (.inr (.inl ⟨rfl, rfl, identity, rfl, by simpa using hown⟩))
      · cases h
  | false =>
    rw [hkind, hdir, if_neg (by simp)] at h
    cases observed with
    | none =>
      cases h
      exact .inr (.inl ⟨rfl, rfl, rfl⟩)
    | some identity =>
      simp only [] at h
      split at h
      · rename_i hown
        cases h
        exact .inr (.inr (.inr ⟨rfl, rfl, hown.1, identity, rfl, hown.2⟩))
      · cases h

/-- One round of the loop. -/
theorem inspectEntries_cons {observed : Option InstallObjectIdentityV1} (h : inspectOptionalExact d r = .ok observed) :
    inspectEntries d operation current (r :: rest) =
      match destinationState operation current r observed with
      | none => .ok (.error giDestinationForeign)
      | some state =>
        inspectEntries d operation current rest >>= fun more =>
          .ok (more >>= fun destinations => .ok (⟨r, state⟩ :: destinations)) := by
  rw [inspectEntries, h]
  rfl

theorem inspectEntries_ok : inspectEntries d operation current roles = .ok (.ok found) ↔
    found.map (·.role) = roles ∧ ∀ x ∈ found, Seen d operation current x := by
  induction roles generalizing found with
  | nil =>
    rw [inspectEntries, List.map_eq_nil_iff]
    constructor
    · intro h
      cases h
      simp
    · intro ⟨h, _⟩
      rw [h]
  | cons r rest ih =>
    constructor
    · intro h
      obtain ⟨observed, hobserved, -⟩ := bind_eq_ok.mp h
      rw [inspectEntries_cons (inputUnavailable_ok.mp hobserved)] at h
      cases hstate : destinationState operation current r observed with
      | none =>
        rw [hstate] at h
        cases h
      | some state =>
        simp only [hstate] at h
        obtain ⟨more, hmore, hret⟩ := bind_eq_ok.mp h
        obtain ⟨destinations, rfl, hcons⟩ := bind_eq_ok.mp (Except.ok.inj hret)
        cases hcons
        obtain ⟨hroles, hseen⟩ := ih.mp hmore
        refine ⟨by simp [hroles], fun x hx => ?_⟩
        rcases List.mem_cons.mp hx with rfl | hx
        · exact ⟨observed, inputUnavailable_ok.mp hobserved, hstate⟩
        · exact hseen x hx
    · intro ⟨hroles, hseen⟩
      cases found with
      | nil => cases hroles
      | cons x more =>
        obtain ⟨hhead, htail⟩ := List.cons.inj hroles
        obtain ⟨observed, hobserved, hstate⟩ := hseen x (by simp)
        rw [← hhead, inspectEntries_cons hobserved, hstate, ih.mpr ⟨htail, fun y hy => hseen y (by simp [hy])⟩]
        rfl

/-- The layout is refused at the first object that is foreign. -/
theorem inspectEntries_foreign {observed : Option InstallObjectIdentityV1}
    (hfront : ∀ a ∈ front, ∃ seen state, inspectOptionalExact d a = .ok seen ∧
      destinationState operation current a seen = some state)
    (hr : inspectOptionalExact d r = .ok observed) (hforeign : destinationState operation current r observed = none) :
    inspectEntries d operation current (front ++ r :: rest) = .ok (.error giDestinationForeign) := by
  induction front with
  | nil => rw [List.nil_append, inspectEntries_cons hr, hforeign]
  | cons a front ih =>
    obtain ⟨seen, state, hseen, hstate⟩ := hfront a (by simp)
    rw [List.cons_append, inspectEntries_cons hseen, hstate, ih fun b hb => hfront b (by simp [hb])]
    rfl

/-- **What `inspect_layout` accepts.** -/
theorem inspectLayout_ok :
    inspectLayout d operation = .ok (.ok (found, current)) ↔ Accepted d operation found current := by
  unfold inspectLayout
  rw [bind_eq_ok]
  constructor
  · intro ⟨now, hnow, hrest⟩
    split at hrest
    · cases hrest
    · rename_i hadmits
      obtain ⟨result, hresult, hret⟩ := bind_eq_ok.mp hrest
      obtain ⟨destinations, rfl, hpair⟩ := bind_eq_ok.mp (Except.ok.inj hret)
      cases hpair
      obtain ⟨hroles, hseen⟩ := inspectEntries_ok.mp hresult
      refine ⟨hnow, ?_, hroles, hseen⟩
      simp only [not_or, not_and, Bool.not_eq_true, Option.isSome_eq_false_iff,
        Option.isNone_iff_eq_none] at hadmits
      cases operation with
      | install => exact .inl ⟨rfl, hadmits.2.1 rfl⟩
      | upgrade => exact .inr ⟨rfl, Option.isSome_iff_ne_none.mpr (hadmits.2.2 rfl)⟩
      | rollback => exact absurd rfl hadmits.1
  · intro h
    refine ⟨current, h.installed, ?_⟩
    rw [if_neg, inspectEntries_ok.mpr ⟨h.roles, h.seen⟩]
    · rfl
    · rcases h.admits with ⟨rfl, rfl⟩ | ⟨rfl, hsome⟩
      · simp
      · simpa using Option.isSome_iff_ne_none.mp hsome

/-! ### Planning -/

/-- What is to be done about a destination. -/
def actionOf (x : InstallDestinationSnapshotV1) : Option InstallActionV1 :=
  match x.state with
  | .absentDirectory => some (.createDirectory x.role)
  | .absentFile => some (.installAbsentFile x.role)
  | .priorOwnedFile => some (.upgradeOwnedFile x.role)
  | .existingPrerequisiteDirectory => none

/-- What a destination adds to the plan. -/
def actionsOf (x : InstallDestinationSnapshotV1) : List InstallActionV1 :=
  (actionOf x).elim [] fun action => [action, .verifyInstalledObject x.role]

theorem actionOf_role {action : InstallActionV1} (h : actionOf x = some action) :
    action.role = x.role ∧ action.isVerify = false := by
  unfold actionOf at h
  split at h <;> cases h <;> exact ⟨rfl, rfl⟩

/-- A state that the disk shows can be planned for. -/
theorem actionsFor_eq (h : Seen d operation current x) : InstallPlanner.actionsFor operation x = .ok (actionsOf x) := by
  obtain ⟨observed, -, hstate⟩ := h
  unfold InstallPlanner.actionsFor actionsOf actionOf
  rcases destinationState_some hstate with ⟨hx, -⟩ | ⟨hx, -⟩ | ⟨hx, hdir, -⟩ | ⟨hx, -, hop, -⟩
  · rw [hx]
    rfl
  · rw [hx]
    rfl
  · rw [hx]
    have horder : x.role.installOrder < 20 := by simpa [InstallRoleV1.isDirectory] using hdir
    simp [horder]
  · rw [hx]
    simp [hop]

theorem actionsForAll_eq (h : ∀ x ∈ found, Seen d operation current x) :
    InstallPlanner.actionsForAll operation found = .ok (found.flatMap actionsOf) := by
  induction found with
  | nil => rfl
  | cons x rest ih =>
    rw [InstallPlanner.actionsForAll, actionsFor_eq (h x (by simp)), ih fun y hy => h y (by simp [hy])]
    rfl

theorem repeatsRole_eq_false (h : (found.map (·.role)).Nodup) : InstallPlanner.repeatsRole found = false := by
  induction found with
  | nil => rfl
  | cons x rest ih =>
    cases rest with
    | nil => rfl
    | cons y rest =>
      obtain ⟨hx, hrest⟩ := List.nodup_cons.mp h
      have hne : x.role ≠ y.role := fun heq => hx (by simp [heq])
      rw [InstallPlanner.repeatsRole, ih hrest]
      simp [hne]

theorem mem_sortDestinations : x ∈ InstallPlanner.sortDestinations found ↔ x ∈ found :=
  (List.perm_insertionSort _ _).mem_iff

/-- **What has been accepted can be planned.** -/
theorem plan_succeeds (h : Accepted d p.operation found current) :
    InstallPlanner.plan p found none = .ok ⟨p.authorizationId, p.transactionId, p.operation, p.artifact,
      (InstallPlanner.sortDestinations found).flatMap actionsOf⟩ := by
  have hforward : p.operation ≠ .rollback := by
    rcases h.admits with ⟨hop, -⟩ | ⟨hop, -⟩ <;> simp [hop]
  have hnodup : ((InstallPlanner.sortDestinations found).map (·.role)).Nodup := by
    have hperm : (InstallPlanner.sortDestinations found).Perm found := List.perm_insertionSort _ _
    rw [(hperm.map _).nodup_iff, h.roles]
    decide
  rw [InstallPlanner.plan, repeatsRole_eq_false hnodup, actionsForAll_eq fun x hx => h.seen x (mem_sortDestinations.mp hx)]
  simp [hforward]
  rfl

theorem mem_planned {action : InstallActionV1} (hverify : action.isVerify = false) :
    action ∈ (InstallPlanner.sortDestinations found).flatMap actionsOf ↔ ∃ x ∈ found, actionOf x = some action := by
  rw [List.mem_flatMap]
  have hone : ∀ x : InstallDestinationSnapshotV1, action ∈ actionsOf x ↔ actionOf x = some action := by
    intro x
    unfold actionsOf
    cases actionOf x with
    | none => simp
    | some made =>
      simp only [Option.elim_some, List.mem_cons, List.not_mem_nil, or_false, Option.some.injEq]
      constructor
      · intro h
        rcases h with h | h
        · exact h.symm
        · rw [h] at hverify
          cases hverify
      · intro h
        exact .inl h.symm
  simp only [hone, mem_sortDestinations]

/-- The plan acts on a role unless its directory is there. -/
theorem actsOn_planned : ActsOn ((InstallPlanner.sortDestinations found).flatMap actionsOf) r ↔
    ∃ x ∈ found, x.role = r ∧ x.state ≠ .existingPrerequisiteDirectory := by
  constructor
  · intro ⟨action, haction, hverify, hrole⟩
    obtain ⟨x, hx, hmade⟩ := (mem_planned hverify).mp haction
    refine ⟨x, hx, by rw [← (actionOf_role hmade).1, hrole], fun hstate => ?_⟩
    rw [actionOf, hstate] at hmade
    cases hmade
  · intro ⟨x, hx, hrole, hstate⟩
    cases hmade : actionOf x with
    | none =>
      unfold actionOf at hmade
      split at hmade
      · cases hmade
      · cases hmade
      · cases hmade
      · rename_i heq
        exact absurd heq hstate
    | some action =>
      obtain ⟨hsame, hverify⟩ := actionOf_role hmade
      exact ⟨action, (mem_planned hverify).mpr ⟨x, hx, hmade⟩, hverify, by rw [hsame, hrole]⟩

/-! ### The command -/

/-- `apply` has gone through. -/
def Applies (p : PreparedSystemInstall) (d s : Disk) : Prop :=
  ∃ found current plan, inspectLayout d p.operation = .ok (.ok (found, current)) ∧
    InstallPlanner.plan p found none = .ok plan ∧ Runner.applyPlan p plan.actions current none d = .done () s

namespace Runner
open Fs

/-- A transaction that has gone through was new. -/
theorem unclaimed_of_done {actions : List InstallActionV1} {prior : Option InstallJournalV1} {strike : Option (Fault × Site)}
    (h : applyPlan p actions prior strike d = .done () s) : Unclaimed d p.transactionId := by
  have hends : Ends (· = d) (applyPlan p actions prior) (fun _ _ => Unclaimed d p.transactionId) := by
    unfold applyPlan
    refine Ends.bind (Q := fun _ t => t = d) (Ends.require fun t _ ht _ => ht) fun entries => ?_
    refine Ends.bind (Q := fun bindings t => t = d ∧ bindings = bindingsOf p) (Ends.require fun t bindings ht hok => ⟨ht, ?_⟩)
      fun bindings => ?_
    · obtain ⟨-, hret⟩ := bind_unit_eq_ok.mp (discard_ok hok)
      cases hret
      rfl
    refine Ends.intro fun t ⟨ht, hbindings⟩ => ?_
    rw [ht, hbindings]
    refine Ends.bind (Q := fun prepared t => t = d ∧ prepared.bindings.transactionId = p.transactionId)
      (Ends.require fun t prepared ht hok => ⟨ht, ?_⟩) fun prepared => ?_
    · split at hok
      · rename_i journal hprepare
        cases hok
        have hsame := bindings_of_ok (o := .prepare entries) (j := .new (bindingsOf p)) (fun hno => absurd rfl hno) hprepare
        rw [hsame]
        rfl
      · cases hok
    refine Ends.intro fun t ⟨ht, hbound⟩ => ?_
    rw [ht]
    unfold applyPrepared
    refine Ends.bind (Q := fun _ _ => Unclaimed d p.transactionId) (Ends.mapError ?_) fun _ => ?_
    · refine Ends.bind (Q := fun _ _ => Unclaimed d p.transactionId) (Ends.look fun t found ht hok => ?_) fun found => ?_
      · rw [ht] at hok
        exact ((bootstrapCheck_ok hbound).mp ⟨found, hok⟩).2.2.1
      · exact Ends.intro fun _ hclaim _ _ _ _ _ _ => hclaim
    · exact Ends.intro fun _ hclaim _ _ _ _ _ _ => hclaim
  exact hends strike d () s rfl h

end Runner

/-- **What an `apply` that has gone through was given, and what it leaves.** -/
theorem Applies.installed (h : Applies p d s) : ∃ found current prepared j,
    Accepted d p.operation found current ∧ Fs.Unclaimed d p.transactionId ∧
      Planned p ((InstallPlanner.sortDestinations found).flatMap actionsOf) current prepared ∧
      Runner.Installed d p.transactionId prepared j s := by
  obtain ⟨found, current, plan, hinspect, hplan, hrun⟩ := h
  have haccepted := inspectLayout_ok.mp hinspect
  rw [plan_succeeds haccepted] at hplan
  cases hplan
  have hclaim := Runner.unclaimed_of_done hrun
  obtain ⟨prepared, j, hplanned, hinstalled⟩ := (Runner.apply_meets hclaim).done rfl hrun
  exact ⟨found, current, prepared, j, haccepted, hclaim, hplanned, hinstalled⟩

end NetworkLoop.Install
