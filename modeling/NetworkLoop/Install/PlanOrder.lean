import NetworkLoop.Install.Accepted

/-! The order of a plan, and the paths.

`plan` sorts the destinations as the roles are declared, the journal by the install
order. The two orders agree but for the three roles declared first: `evidenceRoot`,
`daemon` and `cli` are planned before the directories that they lie in. So a plan
respects the nesting of the paths exactly where it creates none of these directories
together with them (`plan_nested_iff`). `InstallService.apply` hands the actions to its
writer in the order of the plan (`applied_prefix`). -/
namespace NetworkLoop.Install
open InstallPlanner

/-! ### The service's loop -/

/-- The calls of `InstallTransactionWriter` that `apply` makes. -/
structure InstallTransactionWriter (σ : Type) where
  beginTransaction : InstallPlanV1 → σ → Except InstallIoError Unit × σ
  applyAction : InstallActionV1 → σ → Except InstallIoError Unit × σ
  recordCompleted : InstallActionV1 → σ → Except InstallIoError Unit × σ
  completeTransaction : InstallPlanV1 → σ → Except InstallIoError Unit × σ

namespace InstallService
variable {σ : Type} (w : InstallTransactionWriter σ)

/-- The loop over `plan.actions`: whether it came to its end, the actions that were handed
to the writer, and the state of the writer. -/
def applyActions : List InstallActionV1 → σ → Bool × List InstallActionV1 × σ
  | [], s => (true, [], s)
  | action :: rest, s =>
    match w.applyAction action s with
    | (.error _, s') => (false, [action], s')
    | (.ok _, s') =>
      match w.recordCompleted action s' with
      | (.error _, s'') => (false, [action], s'')
      | (.ok _, s'') =>
        let (finished, handed, last) := applyActions rest s''
        (finished, action :: handed, last)

/-- The part of `apply` behind `InstallPlanner::plan`: whether the report is the one
without a blocker, and the actions that were handed to the writer. -/
def apply (plan : InstallPlanV1) (s : σ) : Bool × List InstallActionV1 :=
  match w.beginTransaction plan s with
  | (.error _, _) => (false, [])
  | (.ok _, s') =>
    match applyActions w plan.actions s' with
    | (false, handed, _) => (false, handed)
    | (true, handed, s'') =>
      match w.completeTransaction plan s'' with
      | (.error _, _) => (false, handed)
      | (.ok _, _) => (true, handed)

variable {w}

theorem applyActions_initial (actions : List InstallActionV1) (s : σ) :
    (applyActions w actions s).2.1 <+: actions ∧
      ((applyActions w actions s).1 = true → (applyActions w actions s).2.1 = actions) := by
  induction actions generalizing s with
  | nil => exact ⟨List.nil_prefix, fun _ => rfl⟩
  | cons action rest ih =>
    have hone : [action] <+: action :: rest := List.prefix_append [action] rest
    rw [applyActions]
    split
    · exact ⟨hone, fun h => (by cases h)⟩
    · split
      · exact ⟨hone, fun h => (by cases h)⟩
      · rename_i last _
        obtain ⟨hinitial, hall⟩ := ih last
        exact ⟨(List.prefix_cons_inj action).mpr hinitial, fun h => congrArg (action :: ·) (hall h)⟩

/-- **The actions are executed in the order of the plan.** -/
theorem applied_prefix (plan : InstallPlanV1) (s : σ) :
    (apply w plan s).2 <+: plan.actions ∧ ((apply w plan s).1 = true → (apply w plan s).2 = plan.actions) := by
  rw [apply]
  split
  · exact ⟨List.nil_prefix, fun h => (by cases h)⟩
  · rename_i s' _
    obtain ⟨hinitial, hall⟩ := @applyActions_initial σ w plan.actions s'
    split
    · rename_i heq
      rw [heq] at hinitial
      exact ⟨hinitial, fun h => (by cases h)⟩
    · rename_i heq
      rw [heq] at hinitial hall
      split
      · exact ⟨hinitial, fun h => (by cases h)⟩
      · exact ⟨hinitial, fun _ => hall rfl⟩

end InstallService

/-! ### What the order should be -/

/-- Each role's action is directly followed by its verification. -/
def VerifiedNext (actions : List InstallActionV1) : Prop :=
  ∀ (i : Nat) (action : InstallActionV1), actions[i]? = some action → action.isVerify = false →
    actions[i + 1]? = some (.verifyInstalledObject action.role)

/-- A directory is created before anything is done about what lies in it. -/
def Nested (actions : List InstallActionV1) : Prop :=
  ∀ (i j : Nat) (outer : InstallRoleV1) (action : InstallActionV1), actions[i]? = some (.createDirectory outer) →
    actions[j]? = some action → InstallRoleV1.Under action.role outer → i < j

/-- No action comes before the creation of a directory that its role lies in. -/
theorem nested_iff_pairwise (actions : List InstallActionV1) : Nested actions ↔
    actions.Pairwise fun earlier later => ∀ outer, later = .createDirectory outer → ¬InstallRoleV1.Under earlier.role outer := by
  rw [List.pairwise_iff_getElem]
  constructor
  · intro h i j hi hj hlt outer houter hunder
    have hcreate : actions[j]? = some (.createDirectory outer) := by rw [List.getElem?_eq_getElem hj, houter]
    exact Nat.lt_asymm hlt (h j i outer actions[i] hcreate (List.getElem?_eq_getElem hi) hunder)
  · intro h i j outer action hcreate haction hunder
    obtain ⟨hi, hcreate⟩ := List.getElem?_eq_some_iff.mp hcreate
    obtain ⟨hj, haction⟩ := List.getElem?_eq_some_iff.mp haction
    rcases Nat.lt_trichotomy i j with hlt | rfl | hgt
    · exact hlt
    · rw [← haction, hcreate] at hunder
      exact absurd (InstallRoleV1.installOrder_lt_of_under _ _ hunder).2 (Nat.lt_irrefl _)
    · rw [← haction] at hunder
      exact absurd hunder (h j i hj hi hgt outer hcreate)

/-! ### What a plan holds -/

variable {found : List InstallDestinationSnapshotV1} {x y : InstallDestinationSnapshotV1} {p : PreparedSystemInstall}
  {operation : InstallOperationV1} {actions : List InstallActionV1}

theorem actionsFor_ok (h : actionsFor operation x = .ok actions) : actions = actionsOf x := by
  cases hstate : x.state with
  | absentDirectory =>
    simp only [actionsFor, hstate] at h
    simpa [actionsOf, actionOf, hstate] using (Except.ok.inj h).symm
  | absentFile =>
    simp only [actionsFor, hstate] at h
    simpa [actionsOf, actionOf, hstate] using (Except.ok.inj h).symm
  | priorOwnedFile =>
    simp only [actionsFor, hstate] at h
    split at h
    · simpa [actionsOf, actionOf, hstate] using (Except.ok.inj h).symm
    · cases h
  | existingPrerequisiteDirectory =>
    simp only [actionsFor, hstate] at h
    split at h
    · simpa [actionsOf, actionOf, hstate] using (Except.ok.inj h).symm
    · cases h

theorem actionsForAll_ok (h : actionsForAll operation found = .ok actions) : actions = found.flatMap actionsOf := by
  induction found generalizing actions with
  | nil => exact (Except.ok.inj h).symm
  | cons x rest ih =>
    obtain ⟨first, hfirst, hrest⟩ := bind_eq_ok.mp h
    obtain ⟨more, hmore, heq⟩ := bind_eq_ok.mp hrest
    rw [List.flatMap_cons, ← actionsFor_ok hfirst, ← ih hmore]
    exact (Except.ok.inj heq).symm

theorem verifiedNext_flatMap (found : List InstallDestinationSnapshotV1) : VerifiedNext (found.flatMap actionsOf) := by
  induction found with
  | nil =>
    intro i action h
    cases h
  | cons x rest ih =>
    rw [List.flatMap_cons, actionsOf]
    cases hmade : actionOf x with
    | none => exact ih
    | some made =>
      intro i action haction hverify
      rw [Option.elim_some, List.cons_append, List.cons_append, List.nil_append] at haction ⊢
      match i with
      | 0 =>
        cases haction
        rw [(actionOf_role hmade).1]
        rfl
      | 1 =>
        cases haction
        cases hverify
      | i + 2 => exact ih i action haction hverify

/-- An action of the plan is one on the role of its destination. -/
theorem role_of_mem_actionsOf {action : InstallActionV1} (h : action ∈ actionsOf x) :
    action.role = x.role ∧ x.state ≠ .existingPrerequisiteDirectory := by
  rw [actionsOf] at h
  cases hmade : actionOf x with
  | none =>
    rw [hmade] at h
    cases h
  | some made =>
    have hstate : x.state ≠ .existingPrerequisiteDirectory := by
      intro hstate
      rw [actionOf, hstate] at hmade
      cases hmade
    rw [hmade, Option.elim_some, List.mem_cons, List.mem_singleton] at h
    rcases h with rfl | rfl
    · exact ⟨(actionOf_role hmade).1, hstate⟩
    · exact ⟨rfl, hstate⟩

theorem createDirectory_mem {outer : InstallRoleV1} :
    InstallActionV1.createDirectory outer ∈ actionsOf x ↔ x.state = .absentDirectory ∧ x.role = outer := by
  rw [actionsOf, actionOf]
  cases x.state with
  | absentDirectory => simp [eq_comm]
  | absentFile => simp
  | priorOwnedFile => simp
  | existingPrerequisiteDirectory => simp

theorem exists_mem_actionsOf (h : x.state ≠ .existingPrerequisiteDirectory) : ∃ action ∈ actionsOf x, action.role = x.role := by
  rw [actionsOf, actionOf]
  cases hstate : x.state with
  | absentDirectory => exact ⟨_, List.mem_cons_self, rfl⟩
  | absentFile => exact ⟨_, List.mem_cons_self, rfl⟩
  | priorOwnedFile => exact ⟨_, List.mem_cons_self, rfl⟩
  | existingPrerequisiteDirectory => exact absurd hstate h

/-- The roles that are declared before the directories they lie in. -/
def InstallRoleV1.declaredEarly : List InstallRoleV1 := [.evidenceRoot, .daemon, .cli]

theorem InstallRoleV1.ctorIdx_lt_iff {inner outer : InstallRoleV1} (h : Under inner outer) :
    inner.ctorIdx < outer.ctorIdx ↔ inner ∈ declaredEarly := by
  have horder := installOrder_lt_of_under inner outer h
  constructor
  · intro hlt
    have hearly : ∀ a b : InstallRoleV1, b.isDirectory = true → b.installOrder < a.installOrder → a.ctorIdx < b.ctorIdx →
        a ∈ declaredEarly := by decide
    exact hearly inner outer horder.1 horder.2 hlt
  · intro hmem
    have hlate : ∀ a ∈ declaredEarly, ∀ b : InstallRoleV1, b.isDirectory = true → b.installOrder < a.installOrder →
        a.ctorIdx < b.ctorIdx ∨ b = .evidenceRoot := by decide
    rcases hlate inner hmem outer horder.1 horder.2 with hlt | rfl
    · exact hlt
    · have hout : ∀ a ∈ declaredEarly, ¬Under a .evidenceRoot := by decide
      exact absurd h (hout inner hmem)

theorem InstallRoleV1.ctorIdx_injective {a b : InstallRoleV1} (h : a.ctorIdx = b.ctorIdx) : a = b := by
  revert a b
  decide

/-- Sorted and without a repetition, the destinations are sorted strictly. -/
theorem pairwise_of_repeatsRole (h : repeatsRole found = false)
    (hsorted : found.Pairwise fun a b => a.role.ctorIdx ≤ b.role.ctorIdx) :
    found.Pairwise fun a b => a.role.ctorIdx < b.role.ctorIdx := by
  induction found with
  | nil => exact List.Pairwise.nil
  | cons a rest ih =>
    obtain ⟨hfirst, hrest⟩ := List.pairwise_cons.mp hsorted
    cases rest with
    | nil => exact List.pairwise_singleton _ _
    | cons b rest =>
      rw [repeatsRole, Bool.or_eq_false_iff, decide_eq_false_iff_not] at h
      have hstrict := ih h.2 hrest
      have hlt : a.role.ctorIdx < b.role.ctorIdx :=
        Nat.lt_of_le_of_ne (hfirst b List.mem_cons_self) fun heq => h.1 (InstallRoleV1.ctorIdx_injective heq)
      refine List.pairwise_cons.mpr ⟨fun c hc => ?_, hstrict⟩
      rcases List.mem_cons.mp hc with rfl | hc
      · exact hlt
      · exact Nat.lt_trans hlt ((List.pairwise_cons.mp hstrict).1 c hc)

/-- No directory is created together with one of the early roles in it. -/
def NoEarlyRole (found : List InstallDestinationSnapshotV1) : Prop :=
  ∀ outer ∈ found, ∀ inner ∈ found, outer.state = .absentDirectory → inner.state ≠ .existingPrerequisiteDirectory →
    InstallRoleV1.Under inner.role outer.role → inner.role ∉ InstallRoleV1.declaredEarly

theorem nested_flatMap_iff (hsorted : found.Pairwise fun a b => a.role.ctorIdx < b.role.ctorIdx) :
    Nested (found.flatMap actionsOf) ↔ NoEarlyRole found := by
  rw [nested_iff_pairwise, List.pairwise_flatMap]
  constructor
  · rintro ⟨-, hpairs⟩ outer houter inner hinner hcreated hacts hunder hearly
    have hlt := (InstallRoleV1.ctorIdx_lt_iff hunder).mpr hearly
    rw [List.pairwise_iff_getElem] at hpairs hsorted
    obtain ⟨i, hi, rfl⟩ := List.getElem_of_mem hinner
    obtain ⟨j, hj, rfl⟩ := List.getElem_of_mem houter
    rcases Nat.lt_trichotomy i j with hij | rfl | hji
    · obtain ⟨action, haction, hrole⟩ := exists_mem_actionsOf hacts
      exact hpairs i j hi hj hij action haction _ (createDirectory_mem.mpr ⟨hcreated, rfl⟩) _ rfl (hrole ▸ hunder)
    · exact Nat.lt_irrefl _ hlt
    · exact Nat.lt_asymm hlt (hsorted j i hj hi hji)
  · intro h
    constructor
    · intro x _
      rw [actionsOf]
      cases actionOf x with
      | none => exact List.Pairwise.nil
      | some made =>
        refine List.pairwise_cons.mpr ⟨fun later hlater outer heq => ?_, List.pairwise_singleton _ _⟩
        rw [List.mem_singleton.mp hlater] at heq
        cases heq
    · refine List.Pairwise.imp_of_mem ?_ hsorted
      intro x y hx hy hlt action haction later hlater outer heq hunder
      rw [heq] at hlater
      obtain ⟨hcreated, rfl⟩ := createDirectory_mem.mp hlater
      obtain ⟨hrole, hacts⟩ := role_of_mem_actionsOf haction
      rw [hrole] at hunder
      exact h y hy x hx hcreated hacts hunder ((InstallRoleV1.ctorIdx_lt_iff hunder).mp hlt)

theorem noEarlyRole_sorted : NoEarlyRole (sortDestinations found) ↔ NoEarlyRole found := by
  constructor
  · exact fun h outer houter inner hinner =>
      h outer (mem_sortDestinations.mpr houter) inner (mem_sortDestinations.mpr hinner)
  · exact fun h outer houter inner hinner =>
      h outer (mem_sortDestinations.mp houter) inner (mem_sortDestinations.mp hinner)

/-- What an accepted plan is. -/
theorem plan_ok {journal : Option InstallJournalSnapshotV1} {plan : InstallPlanV1}
    (h : InstallPlanner.plan p found journal = .ok plan) :
    repeatsRole (sortDestinations found) = false ∧ plan.actions = (sortDestinations found).flatMap actionsOf := by
  rw [InstallPlanner.plan] at h
  split at h
  case isTrue => cases h
  case isFalse =>
    split at h
    case isTrue => cases h
    case isFalse =>
      split at h
      case isTrue => cases h
      case isFalse hrepeats =>
        obtain ⟨actions, hactions, hplan⟩ := bind_eq_ok.mp h
        cases hplan
        exact ⟨Bool.eq_false_iff.mpr hrepeats, actionsForAll_ok hactions⟩

/-- **A plan respects the nesting of the paths** where it creates no directory together
with one of the three roles that are declared before theirs. -/
theorem plan_nested_iff (p : PreparedSystemInstall) (found : List InstallDestinationSnapshotV1)
    (journal : Option InstallJournalSnapshotV1) (plan : InstallPlanV1) (h : InstallPlanner.plan p found journal = .ok plan) :
    (VerifiedNext plan.actions ∧ Nested plan.actions ∧
      ∀ (σ : Type) (w : InstallTransactionWriter σ) (s : σ), (InstallService.apply w plan s).2 <+: plan.actions) ↔
      NoEarlyRole found := by
  obtain ⟨hrepeats, hactions⟩ := plan_ok h
  have hsorted : (sortDestinations found).Pairwise fun a b => a.role.ctorIdx ≤ b.role.ctorIdx :=
    List.pairwise_insertionSort _ found
  have hnested := nested_flatMap_iff (pairwise_of_repeatsRole hrepeats hsorted)
  rw [← noEarlyRole_sorted, ← hnested, hactions]
  exact ⟨fun hall => hall.2.1, fun hnest =>
    ⟨verifiedNext_flatMap _, hnest, fun σ w s => hactions ▸ (InstallService.applied_prefix plan s).1⟩⟩

/-! Two lists of destinations. -/

def plainInstall : PreparedSystemInstall where
  transactionId := ""
  authorizationId := ""
  operation := .install
  hostIdentitySha256 := ""
  artifact := ⟨"", ""⟩
  bundleManifestSha256 := ""
  deploymentAuthorizationSha256 := ""
  performanceEvidenceSha256 := ""
  bundleFiles := fun _ => none
  payloads := fun _ => none

/-- The plan for these destinations. -/
def planOf (actions : List InstallActionV1) : InstallPlanV1 := ⟨"", "", .install, ⟨"", ""⟩, actions⟩

def missingRoots : List InstallDestinationSnapshotV1 := [⟨.usrBinRoot, .absentDirectory⟩, ⟨.usrRoot, .absentDirectory⟩]

theorem plan_nested_roots : Nested [.createDirectory .usrRoot, .verifyInstalledObject .usrRoot, .createDirectory .usrBinRoot,
    .verifyInstalledObject .usrBinRoot] :=
  ((plan_nested_iff plainInstall missingRoots none (planOf [.createDirectory .usrRoot, .verifyInstalledObject .usrRoot,
    .createDirectory .usrBinRoot, .verifyInstalledObject .usrBinRoot]) (by simp [InstallPlanner.plan]; rfl)).mpr
      (by unfold NoEarlyRole; decide)).2.1

def missingEvidence : List InstallDestinationSnapshotV1 :=
  [⟨.evidenceParent, .absentDirectory⟩, ⟨.evidenceRoot, .absentDirectory⟩]

/-- With the whole evidence tree missing, its root is planned before the directory it lies in. -/
theorem evidenceRoot_planned_first :
    InstallPlanner.plan plainInstall missingEvidence none = .ok (planOf [.createDirectory .evidenceRoot,
      .verifyInstalledObject .evidenceRoot, .createDirectory .evidenceParent, .verifyInstalledObject .evidenceParent]) ∧
    ¬Nested [.createDirectory .evidenceRoot, .verifyInstalledObject .evidenceRoot, .createDirectory .evidenceParent,
      .verifyInstalledObject .evidenceParent] :=
  ⟨by simp [InstallPlanner.plan]; rfl,
    fun h => absurd (h 2 0 .evidenceParent (.createDirectory .evidenceRoot) rfl rfl (by decide)) (by decide)⟩

end NetworkLoop.Install
