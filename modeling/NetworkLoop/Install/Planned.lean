import NetworkLoop.Install.Forward

/-! From a plan to its journal.

`apply_plan` makes an entry of every action that changes something and prepares a journal
of them. `Planned` is what such a journal has, whatever the plan; with it the triple of
`Forward` becomes one of the whole command, `apply_meets`. -/
namespace NetworkLoop.Install
open Library Program Disk

/-- The plan changes the object of this role. -/
def ActsOn (actions : List InstallActionV1) (r : InstallRoleV1) : Prop :=
  ∃ action ∈ actions, action.isVerify = false ∧ action.role = r

instance (actions : List InstallActionV1) (r : InstallRoleV1) : Decidable (ActsOn actions r) :=
  inferInstanceAs (Decidable (∃ action ∈ actions, _))

/-- The journal of a plan. -/
structure Planned (p : PreparedSystemInstall) (actions : List InstallActionV1) (prior : Option InstallJournalV1)
    (prepared : InstallJournalV1) : Prop where
  bindings : prepared.bindings = bindingsOf p
  valid : prepared.Valid
  state : prepared.state = .prepared
  source : ∀ e ∈ prepared.entries, ∃ action ∈ actions, action.isVerify = false ∧ journalEntry p prior action = .ok e
  target : ∀ action ∈ actions, action.isVerify = false → ∃ e ∈ prepared.entries, journalEntry p prior action = .ok e

variable {p : PreparedSystemInstall} {actions : List InstallActionV1} {prior : Option InstallJournalV1}
  {prepared j : InstallJournalV1} {e : InstallJournalEntryV1} {action : InstallActionV1} {d₀ s : Disk}

theorem discard_ok {ε α : Type} {x : Except ε α} {a : α} (h : discard x = .ok a) : x = .ok a := by
  cases x with
  | error err => cases h
  | ok b =>
    cases h
    rfl

/-- What one action becomes. -/
theorem journalEntry_ok (h : journalEntry p prior action = .ok e) :
    ∃ intended, intendedIdentity p action.role = .ok intended ∧
      ((action = .createDirectory action.role ∧ InstallJournalEntryV1.absentDirectory action.role intended = .ok e) ∨
        (action = .installAbsentFile action.role ∧
          InstallJournalEntryV1.absentFile action.role intended (siblingBasename p.transactionId action.role) = .ok e) ∨
        (action = .upgradeOwnedFile action.role ∧ ∃ identity, journalIdentity prior action.role = some identity ∧
          InstallJournalEntryV1.priorOwnedFile action.role intended (siblingBasename p.transactionId action.role)
            (backupBasename p.transactionId action.role) identity = .ok e)) := by
  obtain ⟨intended, hintended, hrest⟩ := bind_eq_ok.mp h
  refine ⟨intended, hintended, ?_⟩
  cases action with
  | createDirectory role => exact .inl ⟨rfl, discard_ok hrest⟩
  | installAbsentFile role => exact .inr (.inl ⟨rfl, discard_ok hrest⟩)
  | upgradeOwnedFile role =>
    cases hident : journalIdentity prior role with
    | none =>
      simp only [hident] at hrest
      cases hrest
    | some identity =>
      simp only [hident] at hrest
      exact .inr (.inr ⟨rfl, identity, hident, discard_ok hrest⟩)
  | verifyInstalledObject role => cases hrest
  | removeOwnedEmptyDirectory role => cases hrest

theorem journalEntry_built (h : journalEntry p prior action = .ok e) : Built e := by
  obtain ⟨intended, -, ⟨-, hnew⟩ | ⟨-, hnew⟩ | ⟨-, identity, -, hnew⟩⟩ := journalEntry_ok h
  · exact .inl ⟨_, _, hnew⟩
  · exact .inr (.inl ⟨_, _, _, hnew⟩)
  · exact .inr (.inr ⟨_, _, _, _, _, hnew⟩)

/-- A new entry is made of what it is given. -/
theorem new_ok {role : InstallRoleV1} {intended : InstallIntendedIdentityV1} {sibling : Option String}
    {priorState : InstallPriorStateV1} (h : InstallJournalEntryV1.new role intended sibling priorState = .ok e) :
    e = ⟨role, role.fixedDestination, intended, sibling, priorState, none, none, .pending⟩ ∧ e.validate = .ok () := by
  obtain ⟨hvalid, hret⟩ := bind_unit_eq_ok.mp h
  cases hret
  exact ⟨rfl, hvalid⟩

theorem journalEntry_spec (h : journalEntry p prior action = .ok e) :
    e.role = action.role ∧ NamedEntry p.transactionId e ∧ intendedIdentity p action.role = .ok e.intended := by
  obtain ⟨intended, hintended, ⟨-, hnew⟩ | ⟨-, hnew⟩ | ⟨-, identity, -, hnew⟩⟩ := journalEntry_ok h
  · obtain ⟨rfl, -⟩ := new_ok hnew
    exact ⟨rfl, ⟨fun name hname => (by cases hname), fun identity name hname => (by cases hname)⟩, hintended⟩
  · obtain ⟨rfl, -⟩ := new_ok hnew
    exact ⟨rfl, ⟨fun name hname => (by cases hname; rfl), fun identity name hname => (by cases hname)⟩, hintended⟩
  · obtain ⟨rfl, -⟩ := new_ok hnew
    exact ⟨rfl, ⟨fun name hname => (by cases hname; rfl), fun identity name hname => (by cases hname; rfl)⟩, hintended⟩

theorem journalEntries_ok {entries : List InstallJournalEntryV1} (h : journalEntries p prior actions = .ok entries) :
    (∀ e ∈ entries, ∃ action ∈ actions, journalEntry p prior action = .ok e) ∧
      ∀ action ∈ actions, ∃ e ∈ entries, journalEntry p prior action = .ok e := by
  induction actions generalizing entries with
  | nil =>
    cases h
    simp
  | cons action rest ih =>
    obtain ⟨e, he, hrest⟩ := bind_eq_ok.mp h
    obtain ⟨more, hmore, hret⟩ := bind_eq_ok.mp hrest
    cases hret
    obtain ⟨hsource, htarget⟩ := ih hmore
    constructor
    · intro x hx
      rcases List.mem_cons.mp hx with rfl | hx
      · exact ⟨action, by simp, he⟩
      · obtain ⟨a, ha, hax⟩ := hsource x hx
        exact ⟨a, by simp [ha], hax⟩
    · intro a ha
      rcases List.mem_cons.mp ha with rfl | ha
      · exact ⟨e, by simp, he⟩
      · obtain ⟨x, hx, hax⟩ := htarget a ha
        exact ⟨x, by simp [hx], hax⟩

/-- **A journal that `prepare` accepts is the plan's.** -/
theorem planned_of_prepare {entries : List InstallJournalEntryV1}
    (hentries : journalEntries p prior (actions.filter fun action => !action.isVerify) = .ok entries)
    (hbindings : (bindingsOf p).validate = .ok ())
    (hprepare : (InstallJournalV1.new (bindingsOf p)).prepare entries = (.ok (), prepared)) :
    Planned p actions prior prepared := by
  obtain ⟨hsource, htarget⟩ := journalEntries_ok hentries
  have hnew : (InstallJournalV1.new (bindingsOf p)).Valid := (InstallJournalV1.validate_iff _).mp (new_valid hbindings)
  have hdone := InstallJournalV1.performed hnew.entries (.prepare entries) (by rw [JournalOperation.run, hprepare])
  rw [JournalOperation.run, hprepare] at hdone
  have hvalid : prepared.Valid := by
    refine hnew.performed hdone fun hslip => ?_
    obtain ⟨-, e, he, hne⟩ := hslip
    obtain ⟨action, -, hentry⟩ := hsource e he
    exact hne (journalEntry_built hentry).spec.2
  cases hdone with
  | reprepared _ hno => cases hno
  | prepared _ _ hok =>
    refine ⟨rfl, hvalid, rfl, ?_, ?_⟩
    · intro e he
      obtain ⟨action, haction, hentry⟩ := hsource e (InstallJournalV1.sortEntries_mem.mp he)
      obtain ⟨hmem, hverify⟩ := List.mem_filter.mp haction
      exact ⟨action, hmem, by simpa using hverify, hentry⟩
    · intro action haction hverify
      obtain ⟨e, he, hentry⟩ := htarget action (List.mem_filter.mpr ⟨haction, by simpa using hverify⟩)
      exact ⟨e, InstallJournalV1.sortEntries_mem.mpr he, hentry⟩

theorem Planned.named (h : Planned p actions prior prepared) : ∀ e ∈ prepared.entries, NamedEntry p.transactionId e := by
  intro e he
  obtain ⟨action, -, -, hentry⟩ := h.source e he
  exact (journalEntry_spec hentry).2.1

theorem Planned.acts_iff (h : Planned p actions prior prepared) (horigin : j.entries.map blank = prepared.entries.map blank)
    (r : InstallRoleV1) : (∃ e ∈ j.entries, e.role = r) ↔ ActsOn actions r := by
  have hroles : j.entries.map (·.role) = prepared.entries.map (·.role) := by
    have := congrArg (List.map (·.role)) horigin
    simpa [List.map_map, Function.comp_def, blank] using this
  have hmem : (∃ e ∈ j.entries, e.role = r) ↔ ∃ e ∈ prepared.entries, e.role = r := by
    rw [← List.mem_map, ← List.mem_map, hroles]
  rw [hmem]
  constructor
  · rintro ⟨e, he, hrole⟩
    obtain ⟨action, haction, hverify, hentry⟩ := h.source e he
    exact ⟨action, haction, hverify, by rw [← (journalEntry_spec hentry).1, hrole]⟩
  · rintro ⟨action, haction, hverify, hrole⟩
    obtain ⟨e, he, hentry⟩ := h.target action haction hverify
    exact ⟨e, he, by rw [(journalEntry_spec hentry).1, hrole]⟩

namespace Runner

/-- What a stop of `apply_plan` leaves, by its plan. -/
def PlanStop (p : PreparedSystemInstall) (actions : List InstallActionV1) (prior : Option InstallJournalV1) (d₀ : Disk)
    (cause : Cause Unit) (site : Site) (s : Disk) : Prop :=
  (∃ prepared, Planned p actions prior prepared ∧ ApplyStops p d₀ p.transactionId prepared cause site s) ∨
    (site = .journal ∧ s = d₀ ∧ ∃ err, cause = .refusal err)

/-- **Applying a plan.** -/
theorem apply_meets (hclaim : Fs.Unclaimed d₀ p.transactionId) :
    Meets (· = d₀) (applyPlan p actions prior)
      (fun _ s => ∃ prepared j, Planned p actions prior prepared ∧ Installed d₀ p.transactionId prepared j s)
      (PlanStop p actions prior d₀) := by
  unfold applyPlan
  refine Meets.bind (Q := fun entries s => s = d₀ ∧
    journalEntries p prior (actions.filter fun action => !action.isVerify) = .ok entries) ?_ fun entries => ?_
  · exact Meets.require (fun s err hs _ => .inr ⟨rfl, hs, err, rfl⟩) fun s entries hs hok => ⟨hs, hok⟩
  refine Meets.intro fun s ⟨hs, hentries⟩ => ?_
  rw [hs]
  refine Meets.bind (Q := fun bindings s => s = d₀ ∧ bindings = bindingsOf p ∧ (bindingsOf p).validate = .ok ()) ?_
    fun bindings => ?_
  · refine Meets.require (fun s err hs _ => .inr ⟨rfl, hs, err, rfl⟩) fun s bindings hs hok => ?_
    obtain ⟨hvalid, hret⟩ := bind_unit_eq_ok.mp (discard_ok hok)
    cases hret
    exact ⟨hs, rfl, hvalid⟩
  refine Meets.intro fun s ⟨hs, hbindings, hvalid⟩ => ?_
  rw [hs, hbindings]
  refine Meets.bind (Q := fun prepared s => s = d₀ ∧ Planned p actions prior prepared) ?_ fun prepared => ?_
  · cases hprepare : (InstallJournalV1.new (bindingsOf p)).prepare entries with
    | mk result prepared =>
      cases result with
      | error err => exact Meets.require (fun s err hs _ => .inr ⟨rfl, hs, err, rfl⟩) fun s _ _ hok => by cases hok
      | ok u =>
        refine Meets.mono (record_ok rfl) (fun s hs => hs) ?_ (fun _ _ _ hI => hI)
        intro found s ⟨hfound, hs⟩
        rw [hfound]
        exact ⟨hs, planned_of_prepare hentries hvalid hprepare⟩
  refine Meets.intro fun s ⟨hs, hplanned⟩ => ?_
  rw [hs]
  refine Meets.mono (applyPrepared_meets hclaim (by rw [hplanned.bindings]; rfl) hplanned.valid hplanned.state hplanned.named)
    (fun s hs => hs) ?_ fun cause site s hstop => .inl ⟨prepared, hplanned, hstop⟩
  intro _ s ⟨j, hj⟩
  exact ⟨prepared, j, hplanned, hj⟩

end Runner

end NetworkLoop.Install
