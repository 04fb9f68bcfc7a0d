import NetworkLoop.Install.JournalShape

/-! What an accepted operation does.

`Performed` lists everything that an operation which returns `Ok` can have done to a
valid journal, and `performed` says that there is nothing else. The repeated calls
that the source accepts without a change are part of the list. -/
namespace NetworkLoop.Install

/-- The operations, with their arguments. -/
inductive JournalOperation where
  | prepare (entries : List InstallJournalEntryV1)
  | startApplying
  | recordApplied (role : InstallRoleV1) (currentIdentity : InstallObjectIdentityV1)
      (createdParentIdentity : Option InstallObjectIdentityV1)
  | recordVerified (role : InstallRoleV1) (observedIdentity : InstallObjectIdentityV1)
  | markInstalled
  | recordFailure (code : String) (rollbackPossible : Bool)
  | beginRollback
  | recordRollbackCompleted (action : InstallJournalRollbackActionV1)
  | markRolledBack
  deriving DecidableEq

def JournalOperation.run (j : InstallJournalV1) : JournalOperation → JournalReply
  | .prepare entries => j.prepare entries
  | .startApplying => j.startApplying
  | .recordApplied role current parent => j.recordApplied role current parent
  | .recordVerified role observed => j.recordVerified role observed
  | .markInstalled => j.markInstalled
  | .recordFailure code possible => j.recordFailure code possible
  | .beginRollback => j.beginRollback
  | .recordRollbackCompleted action => j.recordRollbackCompleted action
  | .markRolledBack => j.markRolledBack

/-- The entry once its object is in place. -/
def InstallJournalEntryV1.asApplied (e : InstallJournalEntryV1) (current : InstallObjectIdentityV1)
    (parent : Option InstallObjectIdentityV1) : InstallJournalEntryV1 :=
  {e with currentIdentity := some current, createdParentIdentity := parent, phase := .applied}

namespace InstallJournalV1
variable {j : InstallJournalV1}

/-- One step further, with these entries in this state. -/
def moved (j : InstallJournalV1) (state : InstallJournalStateV1) (entries : List InstallJournalEntryV1) :
    InstallJournalV1 :=
  {j with state := state, entries := entries, durableStep := j.durableStep + 1}

/-! ### The step counter and the entry of a role -/

theorem advanceStep_eq (h : j.durableStep + 1 < u64Bound) :
    j.advanceStep = (.ok (), {j with durableStep := j.durableStep + 1}) := by
  unfold advanceStep checkedAdd
  rw [if_pos h]

theorem advanceStep_entries (h : j.durableStep + 1 < u64Bound) (entries : List InstallJournalEntryV1) :
    advanceStep {j with entries := entries} = (.ok (), j.moved j.state entries) :=
  advanceStep_eq (j := {j with entries := entries}) h

theorem advanceStep_ok (h : j.advanceStep.1 = .ok ()) :
    j.durableStep + 1 < u64Bound ∧ j.advanceStep.2 = {j with durableStep := j.durableStep + 1} := by
  by_cases hlt : j.durableStep + 1 < u64Bound
  · rw [advanceStep_eq hlt]
    exact ⟨hlt, rfl⟩
  · unfold advanceStep checkedAdd at h
    rw [if_neg hlt] at h
    cases h

variable {done todo : List InstallJournalEntryV1} {e : InstallJournalEntryV1}

/-- In a sorted journal no earlier entry has the same role. -/
theorem role_ne_before (hsplit : j.entries = done ++ e :: todo) (h : EntriesOk j.entries) :
    ∀ x ∈ done, (x.role == e.role) = false := by
  intro x hx
  have hsorted := h.sorted
  rw [hsplit, List.pairwise_append] at hsorted
  have hlt := hsorted.2.2 x hx e (by simp)
  exact beq_false_of_ne fun heq => Nat.ne_of_lt hlt (congrArg _ heq)

theorem entryIndex_split (hsplit : j.entries = done ++ e :: todo) (h : EntriesOk j.entries) :
    j.entryIndex e.role = .ok done.length := by
  have hbefore := role_ne_before hsplit h
  have hfind : j.entries.findIdx? (·.role == e.role) = some done.length := by
    rw [hsplit, List.findIdx?_append, List.findIdx?_eq_none_iff.mpr hbefore, List.findIdx?_cons]
    simp
  rw [entryIndex, hfind]

theorem modifyEntry_split (hsplit : j.entries = done ++ e :: todo)
    (f : InstallJournalEntryV1 → InstallJournalEntryV1) :
    j.modifyEntry done.length f = {j with entries := done ++ f e :: todo} := by
  unfold modifyEntry
  rw [hsplit]
  congr 1
  rw [List.modify, ← Nat.add_zero done.length, List.modifyTailIdx_add]
  rfl

theorem find_role_split (hsplit : j.entries = done ++ e :: todo) (h : EntriesOk j.entries) :
    j.entries.find? (·.role == e.role) = some e := by
  rw [hsplit, List.find?_append, List.find?_eq_none.mpr, List.find?_cons_of_pos (by simp)]
  · rfl
  · intro x hx
    simp [role_ne_before hsplit h x hx]

/-! ### The way forward -/

/-- The first entry that is not verified decides the next action. -/
theorem nextForwardAction_split (hstate : j.state = .applying) (hsplit : j.entries = done ++ e :: todo)
    (hdone : AllIn .verified done) (he : e.phase ≠ .verified) (hstep : j.durableStep + 1 < u64Bound) :
    j.nextForwardAction = forwardActionOf e (j.durableStep + 1) := by
  have hfind : j.entries.find? (·.phase != .verified) = some e := by
    rw [hsplit, List.find?_append, List.find?_eq_none.mpr (fun x hx => by simp [hdone x hx]),
      List.find?_cons_of_pos (by simpa using he)]
    rfl
  unfold nextForwardAction checkedAdd
  simp only [hstate, hfind, if_pos hstep, Option.bind_eq_bind, Option.bind_some]
  simp

theorem nextForwardAction_some {a : InstallJournalForwardActionV1} (h : j.nextForwardAction = some a) :
    j.state = .applying ∧ j.durableStep + 1 < u64Bound ∧ ∃ done e todo, j.entries = done ++ e :: todo ∧
      AllIn .verified done ∧ ((e.phase = .pending ∧ a = .apply (j.durableStep + 1) e.role) ∨
        (e.phase = .applied ∧ ∃ cur, e.currentIdentity = some cur ∧ a = .verify (j.durableStep + 1) e.role cur)) := by
  have hstate : j.state = .applying := by
    by_contra hne
    unfold nextForwardAction at h
    rw [if_pos hne] at h
    cases h
  have hstep : j.durableStep + 1 < u64Bound := by
    by_contra hlt
    unfold nextForwardAction checkedAdd at h
    rw [if_neg (not_not_intro hstate), if_neg hlt] at h
    cases hf : j.entries.find? (·.phase != .verified) <;> simp [hf] at h
  refine ⟨hstate, hstep, ?_⟩
  cases hf : j.entries.find? (·.phase != .verified) with
  | none =>
    unfold nextForwardAction at h
    simp [hf] at h
  | some e =>
    obtain ⟨hp, done, todo, hsplit, hdone⟩ := List.find?_eq_some_iff_append.mp hf
    have hver : AllIn .verified done := fun x hx => by simpa using hdone x hx
    have hne : e.phase ≠ .verified := by simpa using hp
    refine ⟨done, e, todo, hsplit, hver, ?_⟩
    rw [nextForwardAction_split hstate hsplit hver hne hstep, forwardActionOf] at h
    cases hphase : e.phase with
    | pending =>
      rw [hphase] at h
      exact .inl ⟨rfl, (Option.some.inj h).symm⟩
    | applied =>
      rw [hphase] at h
      obtain ⟨cur, hcur, rfl⟩ := Option.map_eq_some_iff.mp h
      exact .inr ⟨rfl, cur, hcur, rfl⟩
    | verified => exact absurd hphase hne
    | rolledBack =>
      rw [hphase] at h
      cases h

/-- The checks of `record_applied` on what was seen at the path. -/
structure Acceptable (e : InstallJournalEntryV1) (current : InstallObjectIdentityV1)
    (parent : Option InstallObjectIdentityV1) : Prop where
  valid : current.validate = .ok ()
  intended : current.matchesIntended e.intended = true
  parent : InstallJournalEntryV1.validateCreatedParent parent .invalidTransition = .ok ()

theorem recordApplied_eq {current : InstallObjectIdentityV1} {parent : Option InstallObjectIdentityV1}
    (hok : EntriesOk j.entries) (hstate : j.state = .applying) (hsplit : j.entries = done ++ e :: todo)
    (hdone : AllIn .verified done) (he : e.phase = .pending) (hstep : j.durableStep + 1 < u64Bound)
    (hseen : Acceptable e current parent) :
    j.recordApplied e.role current parent =
      (.ok (), j.moved .applying (done ++ e.asApplied current parent :: todo)) := by
  have hrec : j.recordedEntry e.role .applied = none := by
    rw [recordedEntry, find_role_split hsplit hok]
    simp [he]
  have hnext : j.nextForwardAction = some (.apply (j.durableStep + 1) e.role) := by
    rw [nextForwardAction_split hstate hsplit hdone (by simp [he]) hstep, forwardActionOf, he]
  have hat : j.entries[done.length]? = some e := by
    rw [hsplit, List.getElem?_append_right (Nat.le_refl _), Nat.sub_self]
    rfl
  unfold recordApplied
  rw [hrec, hnext]
  simp only [ne_eq, not_true_eq_false, if_false, entryIndex_split hsplit hok, hseen.valid, hat, Option.any_some,
    hseen.intended, Bool.not_true, Bool.false_eq_true, hseen.parent, modifyEntry_split hsplit]
  rw [advanceStep_entries hstep, hstate]
  rfl

theorem recordVerified_eq {current : InstallObjectIdentityV1} (hok : EntriesOk j.entries)
    (hstate : j.state = .applying) (hsplit : j.entries = done ++ e :: todo) (hdone : AllIn .verified done)
    (he : e.phase = .applied) (hcur : e.currentIdentity = some current) (hstep : j.durableStep + 1 < u64Bound) :
    j.recordVerified e.role current =
      (.ok (), j.moved .applying (done ++ {e with phase := .verified} :: todo)) := by
  have hrec : j.recordedEntry e.role .verified = none := by
    rw [recordedEntry, find_role_split hsplit hok]
    simp [he]
  have hnext : j.nextForwardAction = some (.verify (j.durableStep + 1) e.role current) := by
    rw [nextForwardAction_split hstate hsplit hdone (by simp [he]) hstep, forwardActionOf, he, hcur]
    rfl
  unfold recordVerified
  rw [hrec, hnext]
  simp only [ne_eq, not_true_eq_false, or_self, if_false, entryIndex_split hsplit hok, modifyEntry_split hsplit]
  rw [advanceStep_entries hstep, hstate]

/-! ### The way back -/

/-- The last entry in force decides the next action. -/
theorem nextRollbackAction_split (hstate : j.state = .rollingBack) (hpossible : j.rollbackPossible = true)
    (hsplit : j.entries = done ++ e :: todo) (htodo : ∀ x ∈ todo, x.inForce = false) (he : e.inForce = true)
    (hstep : j.durableStep + 1 < u64Bound) :
    j.nextRollbackAction = e.currentIdentity.map (rollbackActionOf e (j.durableStep + 1)) := by
  have hfind : j.entries.reverse.find? (·.inForce) = some e := by
    rw [hsplit, List.reverse_append, List.reverse_cons, List.append_assoc, List.find?_append,
      List.find?_eq_none.mpr (fun x hx => by simp [htodo x (List.mem_reverse.mp hx)])]
    simp [he]
  unfold nextRollbackAction checkedAdd
  simp only [hstate, hpossible, hfind, if_pos hstep, Option.bind_eq_bind, Option.bind_some]
  cases e.currentIdentity <;> simp

theorem nextRollbackAction_some {a : InstallJournalRollbackActionV1} (h : j.nextRollbackAction = some a) :
    j.state = .rollingBack ∧ j.rollbackPossible = true ∧ j.durableStep + 1 < u64Bound ∧
      ∃ done e todo cur, j.entries = done ++ e :: todo ∧ (∀ x ∈ todo, x.inForce = false) ∧ e.inForce = true ∧
        e.currentIdentity = some cur ∧ a = rollbackActionOf e (j.durableStep + 1) cur := by
  have hready : j.state = .rollingBack ∧ j.rollbackPossible = true := by
    by_contra hne
    unfold nextRollbackAction at h
    rw [if_pos (by simpa [imp_iff_not_or] using hne)] at h
    cases h
  have hstep : j.durableStep + 1 < u64Bound := by
    by_contra hlt
    unfold nextRollbackAction checkedAdd at h
    rw [if_neg (by simp [hready.1, hready.2]), if_neg hlt] at h
    cases hf : j.entries.reverse.find? (·.inForce) <;> simp [hf] at h
  refine ⟨hready.1, hready.2, hstep, ?_⟩
  cases hf : j.entries.reverse.find? (·.inForce) with
  | none =>
    unfold nextRollbackAction at h
    simp [hf] at h
  | some e =>
    obtain ⟨hp, last, first, hsplit, hlast⟩ := List.find?_eq_some_iff_append.mp hf
    have hsplit' : j.entries = first.reverse ++ e :: last.reverse := by
      rw [← List.reverse_reverse j.entries, hsplit]
      simp
    have hout : ∀ x ∈ last.reverse, x.inForce = false := fun x hx => by simpa using hlast x (List.mem_reverse.mp hx)
    rw [nextRollbackAction_split hready.1 hready.2 hsplit' hout hp hstep] at h
    obtain ⟨cur, hcur, rfl⟩ := Option.map_eq_some_iff.mp h
    exact ⟨first.reverse, e, last.reverse, cur, hsplit', hout, hp, hcur, rfl⟩

theorem rollbackActionOf_role (e : InstallJournalEntryV1) (step : Nat) (cur : InstallObjectIdentityV1) :
    (rollbackActionOf e step cur).role = e.role := by
  unfold rollbackActionOf
  split
  · split <;> rfl
  · rfl

theorem recordRollbackCompleted_eq {cur : InstallObjectIdentityV1} (hok : EntriesOk j.entries)
    (hstate : j.state = .rollingBack) (hpossible : j.rollbackPossible = true)
    (hsplit : j.entries = done ++ e :: todo) (htodo : ∀ x ∈ todo, x.inForce = false) (he : e.inForce = true)
    (hcur : e.currentIdentity = some cur) (hstep : j.durableStep + 1 < u64Bound) :
    j.recordRollbackCompleted (rollbackActionOf e (j.durableStep + 1) cur) =
      (.ok (), j.moved .rollingBack (done ++ {e with phase := .rolledBack} :: todo)) := by
  have hnext := nextRollbackAction_split hstate hpossible hsplit htodo he hstep
  rw [hcur, Option.map_some] at hnext
  unfold recordRollbackCompleted
  simp only [hnext, ne_eq, not_true_eq_false, if_false, rollbackActionOf_role, entryIndex_split hsplit hok,
    modifyEntry_split hsplit]
  rw [advanceStep_entries hstep, hstate]

/-! ### Changes of state -/

theorem markInstalled_eq (hstate : j.state = .applying) (hnext : j.nextForwardAction = none) (hne : j.entries ≠ [])
    (hstep : j.durableStep + 1 < u64Bound) : j.markInstalled = (.ok (), j.moved .installed j.entries) := by
  unfold markInstalled
  rw [if_neg (by simp [hstate, hnext, hne])]
  exact advanceStep_eq hstep

theorem startApplying_eq (hstate : j.state = .prepared) (hstep : j.durableStep + 1 < u64Bound) :
    j.startApplying = (.ok (), j.moved .applying j.entries) := by
  unfold startApplying
  rw [if_neg (not_not_intro hstate)]
  exact advanceStep_eq hstep

theorem beginRollback_eq (hstate : j.state = .applying ∨ j.state = .installed ∨ j.state = .failed)
    (hpossible : j.rollbackPossible = true) (hstep : j.durableStep + 1 < u64Bound) :
    j.beginRollback = (.ok (), j.moved .rollingBack j.entries) := by
  unfold beginRollback
  rw [if_neg (by simp only [hpossible]; tauto)]
  exact advanceStep_eq hstep

theorem markRolledBack_eq (hstate : j.state = .rollingBack) (hnext : j.nextRollbackAction = none)
    (hstep : j.durableStep + 1 < u64Bound) : j.markRolledBack = (.ok (), j.moved .rolledBack j.entries) := by
  unfold markRolledBack
  rw [if_neg (by simp [hstate, hnext])]
  exact advanceStep_eq hstep

/-! ### Everything an accepted operation can do -/

inductive Performed (j : InstallJournalV1) : JournalOperation → InstallJournalV1 → Prop where
  | prepared (entries : List InstallJournalEntryV1) : j.state = .planned → EntriesOk (sortEntries entries) →
      Performed j (.prepare entries) (j.moved .prepared (sortEntries entries))
  | reprepared (entries : List InstallJournalEntryV1) : j.state = .prepared → j.entries = sortEntries entries →
      Performed j (.prepare entries) j
  | started : j.state = .prepared → Performed j .startApplying (j.moved .applying j.entries)
  | applied (done todo : List InstallJournalEntryV1) (e : InstallJournalEntryV1)
      (current : InstallObjectIdentityV1) (parent : Option InstallObjectIdentityV1) : j.state = .applying →
      j.entries = done ++ e :: todo → AllIn .verified done → e.phase = .pending → Acceptable e current parent →
      Performed j (.recordApplied e.role current parent)
        (j.moved .applying (done ++ e.asApplied current parent :: todo))
  | reapplied (role : InstallRoleV1) (current : InstallObjectIdentityV1)
      (parent : Option InstallObjectIdentityV1) : Performed j (.recordApplied role current parent) j
  | verified (done todo : List InstallJournalEntryV1) (e : InstallJournalEntryV1)
      (current : InstallObjectIdentityV1) : j.state = .applying → j.entries = done ++ e :: todo →
      AllIn .verified done → e.phase = .applied → e.currentIdentity = some current →
      Performed j (.recordVerified e.role current)
        (j.moved .applying (done ++ {e with phase := .verified} :: todo))
  | reverified (role : InstallRoleV1) (current : InstallObjectIdentityV1) :
      Performed j (.recordVerified role current) j
  | installed : j.state = .applying → j.nextForwardAction = none → j.durableStep + 1 < u64Bound →
      Performed j .markInstalled (j.moved .installed j.entries)
  | failed (code : String) (possible : Bool) : j.state = .applying → isFindingCode code = true →
      Performed j (.recordFailure code possible)
        {j.moved .failed j.entries with failureCode := some code, rollbackPossible := possible}
  | refailed (code : String) (possible : Bool) : Performed j (.recordFailure code possible) j
  | rollingBack : j.rollbackPossible = true → (j.state = .applying ∨ j.state = .installed ∨ j.state = .failed) →
      Performed j .beginRollback (j.moved .rollingBack j.entries)
  | undone (kept rest : List InstallJournalEntryV1) (e : InstallJournalEntryV1)
      (current : InstallObjectIdentityV1) : j.state = .rollingBack → j.entries = kept ++ e :: rest →
      (∀ x ∈ rest, x.inForce = false) → e.inForce = true → e.currentIdentity = some current →
      Performed j (.recordRollbackCompleted (rollbackActionOf e (j.durableStep + 1) current))
        (j.moved .rollingBack (kept ++ {e with phase := .rolledBack} :: rest))
  | rolledBack : j.state = .rollingBack → j.nextRollbackAction = none → j.durableStep + 1 < u64Bound →
      Performed j .markRolledBack (j.moved .rolledBack j.entries)

theorem performed_prepare {entries : List InstallJournalEntryV1} (h : (j.prepare entries).1 = .ok ()) :
    Performed j (.prepare entries) (j.prepare entries).2 := by
  unfold prepare at h ⊢
  cases hval : validateEntries (sortEntries entries) with
  | error err => rw [hval] at h; cases h
  | ok _ =>
    have hok := (validateEntries_iff _).mp hval
    simp only [hval] at h ⊢
    cases hstate : j.state with
    | planned =>
      simp only [hstate] at h ⊢
      rw [(advanceStep_ok h).2]
      exact .prepared entries hstate hok
    | prepared =>
      simp only [hstate] at h ⊢
      by_cases heq : j.entries = sortEntries entries
      · rw [if_pos heq]
        exact .reprepared entries hstate heq
      · rw [if_neg heq] at h
        cases h
    | applying | installed | failed | rollingBack | rolledBack => simp only [hstate] at h; cases h

theorem performed_startApplying (h : j.startApplying.1 = .ok ()) : Performed j .startApplying j.startApplying.2 := by
  unfold startApplying at h ⊢
  by_cases hstate : j.state = .prepared
  · rw [if_neg (not_not_intro hstate)] at h ⊢
    rw [(advanceStep_ok h).2]
    exact .started hstate
  · rw [if_pos hstate] at h
    cases h

theorem performed_recordApplied (hok : j.state ≠ .planned → EntriesOk j.entries) {role : InstallRoleV1}
    {current : InstallObjectIdentityV1} {parent : Option InstallObjectIdentityV1}
    (h : (j.recordApplied role current parent).1 = .ok ()) :
    Performed j (.recordApplied role current parent) (j.recordApplied role current parent).2 := by
  cases hrec : j.recordedEntry role .applied with
  | some entry =>
    unfold recordApplied at h ⊢
    rw [hrec] at h ⊢
    simp only [] at h ⊢
    split at h
    · rename_i hsame
      rw [if_pos hsame]
      exact .reapplied role current parent
    · cases h
  | none =>
    -- every check below passed, or the reply is an error
    have hnext : j.nextForwardAction = some (.apply (j.durableStep + 1) role) := by
      unfold recordApplied at h
      rw [hrec] at h
      simp only [] at h
      split at h
      · rename_i step expected hnext
        split at h
        · cases h
        · rename_i hrole
          obtain ⟨-, -, done, e, todo, -, -, ⟨-, ha⟩ | ⟨-, cur, -, ha⟩⟩ := nextForwardAction_some hnext
          · cases ha
            rw [hnext, of_not_not hrole]
          · cases ha
      · cases h
    obtain ⟨hstate, hstep, done, e, todo, hsplit, hdone, ⟨he, ha⟩ | ⟨-, cur, -, ha⟩⟩ := nextForwardAction_some hnext
    · cases ha
      have hok' := hok (by simp [hstate])
      have hat : j.entries[done.length]? = some e := by
        rw [hsplit, List.getElem?_append_right (Nat.le_refl _), Nat.sub_self]
        rfl
      have hseen : Acceptable e current parent := by
        unfold recordApplied at h
        simp only [hrec, hnext, ne_eq, not_true_eq_false, if_false, entryIndex_split hsplit hok', hat,
          Option.any_some] at h
        cases hval : current.validate with
        | error err => simp [hval] at h
        | ok _ =>
          simp only [hval] at h
          by_cases hint : current.matchesIntended e.intended = true
          · simp only [hint, Bool.not_true, Bool.false_eq_true, if_false] at h
            cases hpar : InstallJournalEntryV1.validateCreatedParent parent .invalidTransition with
            | error err => simp [hpar] at h
            | ok _ => exact ⟨hval, hint, hpar⟩
          · simp [hint] at h
      rw [recordApplied_eq hok' hstate hsplit hdone he hstep hseen]
      exact .applied done todo e current parent hstate hsplit hdone he hseen
    · cases ha

theorem performed_recordVerified (hok : j.state ≠ .planned → EntriesOk j.entries) {role : InstallRoleV1}
    {observed : InstallObjectIdentityV1} (h : (j.recordVerified role observed).1 = .ok ()) :
    Performed j (.recordVerified role observed) (j.recordVerified role observed).2 := by
  cases hrec : j.recordedEntry role .verified with
  | some entry =>
    unfold recordVerified at h ⊢
    rw [hrec] at h ⊢
    simp only [] at h ⊢
    split at h
    · rename_i hsame
      rw [if_pos hsame]
      exact .reverified role observed
    · cases h
  | none =>
    have hnext : j.nextForwardAction = some (.verify (j.durableStep + 1) role observed) := by
      unfold recordVerified at h
      rw [hrec] at h
      simp only [] at h
      split at h
      · rename_i step expected identity hnext
        split at h
        · cases h
        · rename_i hsame
          obtain ⟨hrole, hident⟩ := not_or.mp hsame
          obtain ⟨-, -, done, e, todo, -, -, ⟨-, ha⟩ | ⟨-, cur, -, ha⟩⟩ := nextForwardAction_some hnext
          · cases ha
          · cases ha
            rw [hnext, of_not_not hrole, of_not_not hident]
      · cases h
    obtain ⟨hstate, hstep, done, e, todo, hsplit, hdone, ⟨-, ha⟩ | ⟨he, cur, hcur, ha⟩⟩ :=
      nextForwardAction_some hnext
    · cases ha
    · cases ha
      rw [recordVerified_eq (hok (by simp [hstate])) hstate hsplit hdone he hcur hstep]
      exact .verified done todo e observed hstate hsplit hdone he hcur

theorem performed_recordRollbackCompleted (hok : j.state ≠ .planned → EntriesOk j.entries)
    {action : InstallJournalRollbackActionV1} (h : (j.recordRollbackCompleted action).1 = .ok ()) :
    Performed j (.recordRollbackCompleted action) (j.recordRollbackCompleted action).2 := by
  have hnext : j.nextRollbackAction = some action := by
    by_contra hne
    unfold recordRollbackCompleted at h
    rw [if_pos hne] at h
    cases h
  obtain ⟨hstate, hpossible, hstep, kept, e, rest, cur, hsplit, hrest, he, hcur, rfl⟩ := nextRollbackAction_some hnext
  rw [recordRollbackCompleted_eq (hok (by simp [hstate])) hstate hpossible hsplit hrest he hcur hstep]
  exact .undone kept rest e cur hstate hsplit hrest he hcur

/-- An accepted operation has done one of these things. -/
theorem performed (hok : j.state ≠ .planned → EntriesOk j.entries) (op : JournalOperation)
    (h : (op.run j).1 = .ok ()) : Performed j op (op.run j).2 := by
  cases op with
  | prepare entries => exact performed_prepare h
  | startApplying => exact performed_startApplying h
  | recordApplied role current parent => exact performed_recordApplied hok h
  | recordVerified role observed => exact performed_recordVerified hok h
  | markInstalled =>
    simp only [JournalOperation.run, markInstalled] at h ⊢
    split at h
    · cases h
    · rename_i hno
      simp only [not_or, ne_eq, not_not, Bool.not_eq_true, Option.isSome_eq_false_iff, Option.isNone_iff_eq_none] at hno
      rw [if_neg (by simp [hno.1, hno.2.1, hno.2.2])]
      obtain ⟨hstep, hnew⟩ := advanceStep_ok h
      rw [hnew]
      exact .installed hno.1 hno.2.1 hstep
  | recordFailure code possible =>
    simp only [JournalOperation.run, recordFailure] at h ⊢
    by_cases hcode : isFindingCode code = true
    · simp only [hcode, Bool.not_true, Bool.false_eq_true, if_false] at h ⊢
      by_cases hfailed : j.state = .failed
      · rw [if_pos hfailed] at h ⊢
        split at h
        · rename_i hsame
          rw [if_pos hsame]
          exact .refailed code possible
        · cases h
      · rw [if_neg hfailed] at h ⊢
        by_cases hstate : j.state = .applying
        · rw [if_neg (not_not_intro hstate)] at h ⊢
          rw [(advanceStep_ok h).2]
          exact .failed code possible hstate hcode
        · rw [if_pos hstate] at h
          cases h
    · simp [hcode] at h
  | beginRollback =>
    simp only [JournalOperation.run, beginRollback] at h ⊢
    split at h
    · cases h
    · rename_i hno
      rw [if_neg hno]
      simp only [not_or, Bool.not_eq_true', Bool.not_eq_false] at hno
      rw [(advanceStep_ok h).2]
      exact .rollingBack hno.1 (by tauto)
  | recordRollbackCompleted action => exact performed_recordRollbackCompleted hok h
  | markRolledBack =>
    simp only [JournalOperation.run, markRolledBack] at h ⊢
    split at h
    · cases h
    · rename_i hno
      rw [if_neg hno]
      simp only [not_or, ne_eq, not_not, Bool.not_eq_true, Option.isSome_eq_false_iff, Option.isNone_iff_eq_none] at hno
      obtain ⟨hstep, hnew⟩ := advanceStep_ok h
      rw [hnew]
      exact .rolledBack hno.1 hno.2 hstep

end InstallJournalV1

end NetworkLoop.Install
