import NetworkLoop.Install.JournalValid

/-! What a refused operation leaves.

Every operation of a journal changes it first and counts the step last, and counting
fails at the largest `u64`. The states on the way forward fix the count, so a valid
journal is far from it there; on the way back `validate` asks for a lower bound only.
`next_rollback_action` then has no number to give and says `None`, which
`mark_rolled_back` reads as nothing left to do (`refused_unchanged_iff`,
`refused_rolledBack`). -/
namespace NetworkLoop.Install

theorem ForwardShape.le_length {entries : List InstallJournalEntryV1} {n : Nat} (h : ForwardShape entries n) :
    n ≤ 2 * entries.length := by
  induction h with
  | pending => exact Nat.zero_le _
  | applied =>
    rw [List.length_cons]
    omega
  | verified _ _ ih =>
    rw [List.length_cons]
    omega

/-- A refusal of this reply leaves the journal `j`. -/
def Unchanged (j : InstallJournalV1) (reply : JournalReply) : Prop := ∀ err, reply.1 = .error err → reply.2 = j

namespace InstallJournalV1
variable {j : InstallJournalV1}

theorem unchanged_error (err : InstallJournalError) : Unchanged j (.error err, j) := fun _ _ => rfl

theorem unchanged_ok {k : InstallJournalV1} : Unchanged j (.ok (), k) := fun _ h => (by cases h)

/-- Where the count has room, counting is no refusal. -/
theorem unchanged_advance {k : InstallJournalV1} (h : k.durableStep + 1 < u64Bound) : Unchanged j k.advanceStep := by
  rw [advanceStep_eq h]
  exact unchanged_ok

/-! ### One lemma for each operation -/

theorem prepare_unchanged (hroom : j.state = .planned → j.durableStep + 1 < u64Bound)
    (entries : List InstallJournalEntryV1) : Unchanged j (j.prepare entries) := by
  rw [prepare]
  split
  · exact unchanged_error _
  · split
    case h_1 hstate => exact unchanged_advance (hroom hstate)
    case h_2 =>
      split
      · exact unchanged_ok
      · exact unchanged_error _
    case h_3 => exact unchanged_error _

theorem startApplying_unchanged (hroom : j.state = .prepared → j.durableStep + 1 < u64Bound) :
    Unchanged j j.startApplying := by
  rw [startApplying]
  split
  · exact unchanged_error _
  · rename_i hstate
    exact unchanged_advance (hroom (not_not.mp hstate))

/-- `record_applied` and `record_verified` have asked for the next action, which has a number. -/
theorem recordApplied_unchanged (role : InstallRoleV1) (current : InstallObjectIdentityV1)
    (parent : Option InstallObjectIdentityV1) : Unchanged j (j.recordApplied role current parent) := by
  rw [recordApplied]
  split
  · split
    · exact unchanged_ok
    · exact unchanged_error _
  · split
    case h_1 step expected hnext =>
      have hroom := (nextForwardAction_some hnext).2.1
      split
      · exact unchanged_error _
      · split
        · exact unchanged_error _
        · split
          · exact unchanged_error _
          · split
            · exact unchanged_error _
            · split
              · exact unchanged_error _
              · exact unchanged_advance hroom
    case h_2 => exact unchanged_error _

theorem recordVerified_unchanged (role : InstallRoleV1) (observed : InstallObjectIdentityV1) :
    Unchanged j (j.recordVerified role observed) := by
  rw [recordVerified]
  split
  · split
    · exact unchanged_ok
    · exact unchanged_error _
  · split
    case h_1 step expected identity hnext =>
      have hroom := (nextForwardAction_some hnext).2.1
      split
      · exact unchanged_error _
      · split
        · exact unchanged_error _
        · exact unchanged_advance hroom
    case h_2 => exact unchanged_error _

theorem markInstalled_unchanged (hroom : j.state = .applying → j.durableStep + 1 < u64Bound) :
    Unchanged j j.markInstalled := by
  rw [markInstalled]
  split
  · exact unchanged_error _
  · rename_i hready
    simp only [not_or, not_not] at hready
    exact unchanged_advance (hroom hready.1)

theorem recordFailure_unchanged (hroom : j.state = .applying → j.durableStep + 1 < u64Bound) (code : String)
    (rollbackPossible : Bool) : Unchanged j (j.recordFailure code rollbackPossible) := by
  rw [recordFailure]
  split
  · exact unchanged_error _
  · split
    · split
      · exact unchanged_ok
      · exact unchanged_error _
    · split
      · exact unchanged_error _
      · rename_i hstate
        exact unchanged_advance (hroom (not_not.mp hstate))

theorem beginRollback_unchanged
    (hroom : j.state = .applying ∨ j.state = .installed ∨ j.state = .failed → j.durableStep + 1 < u64Bound) :
    Unchanged j j.beginRollback := by
  rw [beginRollback]
  split
  · exact unchanged_error _
  · rename_i hready
    exact unchanged_advance (hroom (not_not.mp fun hstate => hready (.inr hstate)))

theorem recordRollbackCompleted_unchanged (action : InstallJournalRollbackActionV1) :
    Unchanged j (j.recordRollbackCompleted action) := by
  rw [recordRollbackCompleted]
  split
  · exact unchanged_error _
  · rename_i hnext
    have hroom := (nextRollbackAction_some (not_not.mp hnext)).2.2.1
    split
    · exact unchanged_error _
    · exact unchanged_advance hroom

/-- Out of numbers there is no next action, so `mark_rolled_back` goes on. -/
theorem markRolledBack_unchanged_iff :
    Unchanged j j.markRolledBack ↔ ¬(j.state = .rollingBack ∧ u64Bound ≤ j.durableStep + 1) := by
  rw [markRolledBack]
  split
  case isTrue hready =>
    refine ⟨fun _ hfull => ?_, fun _ => unchanged_error _⟩
    obtain ⟨action, hnext⟩ := Option.isSome_iff_exists.mp (hready.resolve_left (not_not_intro hfull.1))
    exact Nat.not_le_of_lt (nextRollbackAction_some hnext).2.2.1 hfull.2
  case isFalse hready =>
    simp only [not_or, not_not] at hready
    by_cases hroom : j.durableStep + 1 < u64Bound
    · exact ⟨fun _ hfull => Nat.not_le_of_lt hroom hfull.2, fun _ => unchanged_advance hroom⟩
    · have hrefused : advanceStep {j with state := .rolledBack} =
          (.error .invalidTransition, {j with state := .rolledBack}) := by
        rw [advanceStep, checkedAdd, if_neg hroom]
      refine ⟨fun h => ?_, fun h => absurd ⟨hready.1, Nat.le_of_not_lt hroom⟩ h⟩
      rw [hrefused] at h
      have hstate := congrArg InstallJournalV1.state (h _ rfl)
      rw [hready.1] at hstate
      cases hstate

/-! ### The count of a valid journal -/

/-- On the way forward the number of entries bounds the count. -/
theorem Valid.room (h : j.Valid) (hback : j.state ≠ .rollingBack) (hdone : j.state ≠ .rolledBack) :
    j.durableStep + 1 < u64Bound := by
  have hbound : 128 < u64Bound := by decide
  have hfew : j.state ≠ .planned → j.entries.length ≤ 32 := fun hstate => (h.entries hstate).length_le
  have hcount : ∀ n, ForwardShape j.entries n → n ≤ 2 * j.entries.length := fun n hshape => hshape.le_length
  suffices j.durableStep ≤ 100 by omega
  cases hstate : j.state with
  | planned => exact (progress_of_state h hstate).1.trans_le (by decide)
  | prepared => exact (progress_of_state h hstate).1.trans_le (by decide)
  | applying =>
    obtain ⟨n, hshape, hstep, -⟩ := h.applying hstate
    have := hfew (by simp [hstate])
    have := hcount n hshape
    omega
  | installed =>
    obtain ⟨hstep, -, -⟩ := progress_of_state h hstate
    have hstep : j.durableStep = 3 + 2 * j.entries.length := hstep
    have := hfew (by simp [hstate])
    omega
  | failed =>
    obtain ⟨n, hshape, hstep, -⟩ := progress_of_state h hstate
    have hstep : j.durableStep = 3 + n := hstep
    have := hfew (by simp [hstate])
    have := hcount n hshape
    omega
  | rollingBack => exact absurd hstate hback
  | rolledBack => exact absurd hstate hdone

end InstallJournalV1

/-- **A refused operation leaves the journal as it was**, except `mark_rolled_back` on a
journal that rolls back and has used up its numbers. -/
theorem refused_unchanged_iff (j : InstallJournalV1) (op : JournalOperation) (hvalid : j.validate = .ok ()) :
    (∀ err, (op.run j).1 = .error err → (op.run j).2 = j) ↔
      ¬(op = .markRolledBack ∧ j.state = .rollingBack ∧ u64Bound ≤ j.durableStep + 1) := by
  have h := (InstallJournalV1.validate_iff j).mp hvalid
  have hroom : ∀ state, j.state = state → state ≠ .rollingBack → state ≠ .rolledBack → j.durableStep + 1 < u64Bound :=
    fun state hstate hback hdone => h.room (hstate ▸ hback) (hstate ▸ hdone)
  have hforward : ∀ {reply : JournalReply}, Unchanged j reply → op ≠ .markRolledBack →
      ((∀ err, reply.1 = .error err → reply.2 = j) ↔
        ¬(op = .markRolledBack ∧ j.state = .rollingBack ∧ u64Bound ≤ j.durableStep + 1)) :=
    fun hunchanged hop => ⟨fun _ hfull => hop hfull.1, fun _ => hunchanged⟩
  cases op with
  | prepare entries =>
    exact hforward (InstallJournalV1.prepare_unchanged (fun hs => hroom _ hs (by simp) (by simp)) entries) (by simp)
  | startApplying =>
    exact hforward (InstallJournalV1.startApplying_unchanged fun hs => hroom _ hs (by simp) (by simp)) (by simp)
  | recordApplied role current parent =>
    exact hforward (InstallJournalV1.recordApplied_unchanged role current parent) (by simp)
  | recordVerified role observed =>
    exact hforward (InstallJournalV1.recordVerified_unchanged role observed) (by simp)
  | markInstalled =>
    exact hforward (InstallJournalV1.markInstalled_unchanged fun hs => hroom _ hs (by simp) (by simp)) (by simp)
  | recordFailure code possible =>
    exact hforward (InstallJournalV1.recordFailure_unchanged (fun hs => hroom _ hs (by simp) (by simp)) code possible)
      (by simp)
  | beginRollback =>
    refine hforward (InstallJournalV1.beginRollback_unchanged fun hs => ?_) (by simp)
    rcases hs with hs | hs | hs <;> exact hroom _ hs (by simp) (by simp)
  | recordRollbackCompleted action =>
    exact hforward (InstallJournalV1.recordRollbackCompleted_unchanged action) (by simp)
  | markRolledBack =>
    rw [eq_self_iff_true, true_and]
    exact InstallJournalV1.markRolledBack_unchanged_iff

theorem refused_unchanged_planned :
    (InstallJournalV1.new sampleBindings).startApplying = (.error .invalidTransition, .new sampleBindings) :=
  Prod.ext rfl ((refused_unchanged_iff (.new sampleBindings) .startApplying (new_valid sampleBindings_valid)).mpr
    (by simp) .invalidTransition rfl)

/-- A journal that rolls back one entry and has used up its numbers. -/
def exhaustedRollback : InstallJournalV1 where
  schemaVersion := 1
  bindings := sampleBindings
  state := .rollingBack
  durableStep := u64Bound - 1
  entries := [sampleApplied]
  failureCode := none
  rollbackPossible := true

/-- It can be read back, and `mark_rolled_back` refuses it and leaves it rolled back. -/
theorem refused_rolledBack : exhaustedRollback.validate = .ok () ∧
    exhaustedRollback.markRolledBack = (.error .invalidTransition, {exhaustedRollback with state := .rolledBack}) ∧
    {exhaustedRollback with state := .rolledBack} ≠ exhaustedRollback := by
  refine ⟨(InstallJournalV1.validate_iff _).mpr ⟨sampleBindings_valid, rfl, rfl, fun h => (by cases h),
    fun _ => entriesOk_singleton sampleApplied_valid, ⟨[sampleApplied], [], [], rfl, ?_, allIn_nil, allIn_nil⟩, ?_⟩, ?_, ?_⟩
  · simp [sampleApplied, InstallJournalEntryV1.asApplied, InstallJournalEntryV1.inForce]
  · exact Nat.le_of_ble_eq_true rfl
  · rfl
  · intro h
    have hstate := congrArg InstallJournalV1.state h
    cases hstate

end NetworkLoop.Install
