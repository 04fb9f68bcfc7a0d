import NetworkLoop.Install.JournalSteps

/-! Which operations keep a journal valid.

A journal that `Deserialize` accepted must be acceptable again after every operation
that returns `Ok`: it is written back and read again. `operation_keeps_valid_iff`
says that this holds of all nine operations but for two omissions: `prepare` takes
entries in any phase, and `mark_rolled_back` does not look at the entries of a
journal whose rollback is not possible. -/
namespace NetworkLoop.Install

namespace InstallJournalEntryV1
variable {e : InstallJournalEntryV1}

/-- Past `Pending` the phase does not matter to an entry's validity. -/
theorem validate_withPhase {phase : InstallJournalEntryPhaseV1} (h : e.validate = .ok ())
    (he : e.phase ≠ .pending) (hphase : phase ≠ .pending) : {e with phase := phase}.validate = .ok () := by
  unfold validate at h ⊢
  simp only [bind_unit_eq_ok] at h ⊢
  refine ⟨h.1, h.2.1, h.2.2.1, ?_⟩
  have hlast := h.2.2.2
  unfold validatePhase at hlast ⊢
  cases hp : e.phase <;> cases phase <;> simp_all

/-- A valid entry past `Pending` knows what it put in place. -/
theorem currentIdentity_of_validate (h : e.validate = .ok ()) (he : e.phase ≠ .pending) :
    ∃ current, e.currentIdentity = some current := by
  unfold validate at h
  simp only [bind_unit_eq_ok] at h
  have hlast := h.2.2.2
  unfold validatePhase at hlast
  cases hcur : e.currentIdentity with
  | some current => exact ⟨current, rfl⟩
  | none => cases hp : e.phase <;> simp_all

theorem matchesIntended_of_validate (h : e.validate = .ok ()) (he : e.phase ≠ .pending) :
    ∃ current, e.currentIdentity = some current ∧ current.validate = .ok () ∧ current.matchesIntended e.intended = true := by
  obtain ⟨current, hcur⟩ := currentIdentity_of_validate h he
  unfold validate at h
  simp only [bind_unit_eq_ok] at h
  have hlast := h.2.2.2
  unfold validatePhase at hlast
  refine ⟨current, hcur, ?_⟩
  rw [hcur] at hlast
  cases hphase : e.phase with
  | pending => exact absurd hphase he
  | applied | verified | rolledBack =>
    simp only [hphase, bind_unit_eq_ok] at hlast
    obtain ⟨hvalid, hrest⟩ := hlast
    refine ⟨hvalid, ?_⟩
    by_contra hno
    rw [if_pos (by simpa using hno)] at hrest
    cases hrest

theorem validateCreatedParent_refusal {parent : Option InstallObjectIdentityV1} {a b : InstallJournalError}
    (h : validateCreatedParent parent a = .ok ()) : validateCreatedParent parent b = .ok () := by
  unfold validateCreatedParent at h ⊢
  cases parent with
  | none => rfl
  | some parent =>
    simp only [bind_unit_eq_ok] at h ⊢
    refine ⟨h.1, ?_⟩
    have hlast := h.2
    split at hlast
    · cases hlast
    · rw [if_neg ‹_›]

theorem validate_asApplied {current : InstallObjectIdentityV1} {parent : Option InstallObjectIdentityV1}
    (h : e.validate = .ok ()) (hseen : InstallJournalV1.Acceptable e current parent) :
    (e.asApplied current parent).validate = .ok () := by
  unfold validate at h ⊢
  simp only [bind_unit_eq_ok] at h ⊢
  refine ⟨h.1, h.2.1, h.2.2.1, ?_⟩
  have hparent : validateCreatedParent parent .invalidJournal = .ok () := validateCreatedParent_refusal hseen.parent
  simp [validatePhase, asApplied, bind_unit_eq_ok, hseen.valid, hseen.intended, hparent]

theorem phase_ne_pending_of_inForce (h : e.inForce = true) : e.phase ≠ .pending := by
  intro hp
  simp [inForce, hp] at h

end InstallJournalEntryV1

/-- Replacing an entry by a valid one of the same role. -/
theorem EntriesOk.replace {done todo : List InstallJournalEntryV1} {e e' : InstallJournalEntryV1}
    (h : EntriesOk (done ++ e :: todo)) (hrole : e'.role = e.role) (hvalid : e'.validate = .ok ()) :
    EntriesOk (done ++ e' :: todo) where
  nonempty := by simp
  valid := by
    intro x hx
    simp only [List.mem_append, List.mem_cons] at hx
    rcases hx with hx | rfl | hx
    · exact h.valid x (by simp [hx])
    · exact hvalid
    · exact h.valid x (by simp [hx])
  sorted := by
    have := h.sorted
    rw [List.pairwise_append, List.pairwise_cons] at this ⊢
    simp only [List.mem_cons, forall_eq_or_imp, hrole] at this ⊢
    exact this

namespace ForwardShape
variable {done todo : List InstallJournalEntryV1} {e : InstallJournalEntryV1} {n : Nat}

/-- The verified entries are two steps each. -/
theorem after_verified {rest : List InstallJournalEntryV1} (h : ForwardShape (done ++ rest) n) (hdone : AllIn .verified done) :
    ∃ m, ForwardShape rest m ∧ n = 2 * done.length + m := by
  induction done generalizing n with
  | nil => exact ⟨n, h, by simp⟩
  | cons d done ih =>
    obtain ⟨hd, hdone⟩ := allIn_cons.mp hdone
    cases h with
    | pending hall => rw [(allIn_cons.mp hall).1] at hd; cases hd
    | applied happ _ => rw [hd] at happ; cases happ
    | verified _ hrest =>
      obtain ⟨m, hafter, rfl⟩ := ih hrest hdone
      exact ⟨m, hafter, by simp; omega⟩

/-- What stands before and after the first pending entry. -/
theorem at_pending (h : ForwardShape (done ++ e :: todo) n) (hdone : AllIn .verified done)
    (he : e.phase = .pending) : AllIn .pending todo ∧ n = 2 * done.length := by
  obtain ⟨m, hrest, rfl⟩ := h.after_verified hdone
  cases hrest with
  | pending hall => exact ⟨(allIn_cons.mp hall).2, rfl⟩
  | applied happ _ => rw [he] at happ; cases happ
  | verified hver _ => rw [he] at hver; cases hver

/-- What stands before and after the applied entry. -/
theorem at_applied (h : ForwardShape (done ++ e :: todo) n) (hdone : AllIn .verified done)
    (he : e.phase = .applied) : AllIn .pending todo ∧ n = 2 * done.length + 1 := by
  obtain ⟨m, hrest, rfl⟩ := h.after_verified hdone
  cases hrest with
  | pending hall => rw [(allIn_cons.mp hall).1] at he; cases he
  | applied _ hall => exact ⟨hall, rfl⟩
  | verified hver _ => rw [he] at hver; cases hver

/-- What a way forward got done is what a way back has to undo. -/
theorem toRollback {entries : List InstallJournalEntryV1} (h : ForwardShape entries n) :
    ∃ kept undone todo, RollbackShape entries kept undone todo := by
  obtain ⟨done, rest, rfl, hdone, hrest⟩ := h.cut
  have hforce : ∀ x ∈ done, x.inForce = true := fun x hx => by simp [InstallJournalEntryV1.inForce, hdone x hx]
  rcases hrest with ⟨hall, -⟩ | ⟨e, todo, rfl, he, hall, -⟩
  · exact ⟨done, [], rest, rfl, hforce, allIn_nil, hall⟩
  · refine ⟨done ++ [e], [], todo, by simp, ?_, allIn_nil, hall⟩
    intro x hx
    rcases List.mem_append.mp hx with hx | hx
    · exact hforce x hx
    · rw [List.mem_singleton.mp hx]
      simp [InstallJournalEntryV1.inForce, he]

end ForwardShape

/-- The last entry in force ends the kept part. -/
theorem RollbackShape.at_last {kept undone todo front rest : List InstallJournalEntryV1}
    {e : InstallJournalEntryV1} (h : RollbackShape (front ++ e :: rest) kept undone todo)
    (he : e.inForce = true) (hrest : ∀ x ∈ rest, x.inForce = false) :
    kept = front ++ [e] ∧ rest = undone ++ todo := by
  have hout : ∀ x ∈ undone ++ todo, x.inForce = false := by
    intro x hx
    exact (⟨rfl, by simp, h.undone, h.todo⟩ : RollbackShape (undone ++ todo) [] undone todo).not_inForce hx
  rcases List.append_eq_append_iff.mp h.split with ⟨a, hkept, hsplit⟩ | ⟨a, hfront, hsplit⟩
  · cases a with
    | nil =>
      rw [List.nil_append] at hsplit
      rw [hout e (by rw [← hsplit]; simp)] at he
      cases he
    | cons x a =>
      obtain ⟨rfl, rfl⟩ := List.cons.inj hsplit
      have hnil : a = [] := by
        rw [List.eq_nil_iff_forall_not_mem]
        intro y hy
        have hin := h.kept y (by rw [hkept]; simp [hy])
        rw [hrest y (by simp [hy])] at hin
        cases hin
      subst hnil
      exact ⟨hkept, rfl⟩
  · rw [hout e (by rw [hsplit]; simp)] at he
    cases he

/-! ### The omissions -/

/-- The operation goes where a check is missing: `prepare` is given an entry that is
not pending, or `mark_rolled_back` finds entries in force and no rollback possible. -/
def JournalOperation.Slips (j : InstallJournalV1) : JournalOperation → Prop
  | .prepare entries => j.state = .planned ∧ ∃ e ∈ entries, e.phase ≠ .pending
  | .markRolledBack => j.rollbackPossible = false ∧ ∃ e ∈ j.entries, e.inForce = true
  | _ => False

namespace InstallJournalV1
variable {j j' : InstallJournalV1} {op : JournalOperation}

theorem progress_of_state {state : InstallJournalStateV1} (h : j.Valid) (hstate : j.state = state) :
    Progress {j with state := state} := by
  subst hstate
  exact h.progress

/-- A valid journal that is applying, and the count of its steps. -/
theorem Valid.applying (h : j.Valid) (hstate : j.state = .applying) :
    ∃ n, ForwardShape j.entries n ∧ j.durableStep = 2 + n ∧ j.failureCode = none :=
  progress_of_state h hstate

/-- Nothing to do next means that every entry is verified. -/
theorem Valid.all_verified (h : j.Valid) (hstate : j.state = .applying) (hnext : j.nextForwardAction = none)
    (hstep : j.durableStep + 1 < u64Bound) :
    AllIn .verified j.entries ∧ j.durableStep = 2 + 2 * j.entries.length := by
  obtain ⟨n, hshape, hn, -⟩ := h.applying hstate
  obtain ⟨done, rest, hsplit, hdone, ⟨hall, hcount⟩ | ⟨e, todo, rfl, he, -, -⟩⟩ := hshape.cut
  · cases rest with
    | nil =>
      rw [List.append_nil] at hsplit
      rw [hsplit]
      exact ⟨hdone, by omega⟩
    | cons e todo =>
      have he := (allIn_cons.mp hall).1
      rw [nextForwardAction_split hstate hsplit hdone (by simp [he]) hstep, forwardActionOf, he] at hnext
      cases hnext
  · have hvalid := (h.entries (by simp [hstate])).valid e (by rw [hsplit]; simp)
    obtain ⟨current, hcur⟩ := InstallJournalEntryV1.currentIdentity_of_validate hvalid (by simp [he])
    rw [nextForwardAction_split hstate hsplit hdone (by simp [he]) hstep, forwardActionOf, he, hcur] at hnext
    cases hnext

/-- Nothing left to take back means that no entry is in force, if a rollback is possible at all. -/
theorem Valid.none_inForce (h : j.Valid) (hstate : j.state = .rollingBack) (hpossible : j.rollbackPossible = true)
    (hnext : j.nextRollbackAction = none) (hstep : j.durableStep + 1 < u64Bound) :
    ∀ e ∈ j.entries, e.inForce = false := by
  cases hfind : j.entries.reverse.find? (·.inForce) with
  | none => exact fun e he => by simpa using List.find?_eq_none.mp hfind e (List.mem_reverse.mpr he)
  | some e =>
    obtain ⟨he, last, front, hsplit, hlast⟩ := List.find?_eq_some_iff_append.mp hfind
    have hsplit' : j.entries = front.reverse ++ e :: last.reverse := by
      rw [← List.reverse_reverse j.entries, hsplit]
      simp
    have hout : ∀ x ∈ last.reverse, x.inForce = false :=
      fun x hx => by simpa using hlast x (List.mem_reverse.mp hx)
    have hvalid := (h.entries (by simp [hstate])).valid e (by rw [hsplit']; simp)
    obtain ⟨current, hcur⟩ := InstallJournalEntryV1.currentIdentity_of_validate hvalid
      (InstallJournalEntryV1.phase_ne_pending_of_inForce he)
    rw [nextRollbackAction_split hstate hpossible hsplit' hout he hstep, hcur] at hnext
    cases hnext

theorem sortEntries_mem {entries : List InstallJournalEntryV1} {e : InstallJournalEntryV1} :
    e ∈ sortEntries entries ↔ e ∈ entries :=
  (List.perm_insertionSort _ entries).mem_iff

/-- One accepted operation, case by case, where no check is missing. -/
theorem Valid.performed (h : j.Valid) (hdone : Performed j op j') (hno : ¬op.Slips j) : j'.Valid := by
  cases hdone with
  | reprepared | reapplied | reverified | refailed => exact h
  | prepared entries hstate hok =>
    obtain ⟨hstep, -, hcode, hpos⟩ := progress_of_state h hstate
    refine ⟨h.bindings, h.schema, h.code, h.possible, fun _ => hok, ?_, ?_, hcode⟩
    · exact congrArg (· + 1) hstep
    · intro e he
      by_contra hne
      exact hno ⟨hstate, e, sortEntries_mem.mp he, hne⟩
  | started hstate =>
    obtain ⟨hstep, hall, hcode⟩ := progress_of_state h hstate
    exact ⟨h.bindings, h.schema, h.code, h.possible, fun _ => h.entries (by simp [hstate]), 0, .pending hall,
      congrArg (· + 1) hstep, hcode⟩
  | applied done todo e current parent hstate hsplit hver he hseen =>
    obtain ⟨n, hshape, hstep, hcode⟩ := h.applying hstate
    have hok := h.entries (by simp [hstate])
    rw [hsplit] at hshape hok
    obtain ⟨htodo, rfl⟩ := hshape.at_pending hver he
    have hvalid := InstallJournalEntryV1.validate_asApplied (hok.valid e (by simp)) hseen
    refine ⟨h.bindings, h.schema, h.code, h.possible, fun _ => hok.replace rfl hvalid, _,
      .append hver (.applied rfl htodo), ?_, hcode⟩
    show j.durableStep + 1 = _
    omega
  | verified done todo e current hstate hsplit hver he hcur =>
    obtain ⟨n, hshape, hstep, hcode⟩ := h.applying hstate
    have hok := h.entries (by simp [hstate])
    rw [hsplit] at hshape hok
    obtain ⟨htodo, rfl⟩ := hshape.at_applied hver he
    have hvalid : {e with phase := .verified}.validate = .ok () :=
      InstallJournalEntryV1.validate_withPhase (hok.valid e (by simp)) (by simp [he]) (by simp)
    refine ⟨h.bindings, h.schema, h.code, h.possible, fun _ => hok.replace rfl hvalid, _,
      .append hver (.verified rfl (.pending htodo)), ?_, hcode⟩
    show j.durableStep + 1 = _
    omega
  | installed hstate hnext hstep =>
    obtain ⟨n, -, -, hcode⟩ := h.applying hstate
    obtain ⟨hall, hcount⟩ := h.all_verified hstate hnext hstep
    refine ⟨h.bindings, h.schema, h.code, h.possible, fun _ => h.entries (by simp [hstate]), ?_, hall, hcode⟩
    show j.durableStep + 1 = 3 + 2 * j.entries.length
    omega
  | failed code possible hstate hcode =>
    obtain ⟨n, hshape, hstep, -⟩ := h.applying hstate
    refine ⟨h.bindings, h.schema, by simpa using hcode, by simp, fun _ => h.entries (by simp [hstate]), n, hshape,
      ?_, by simp⟩
    show j.durableStep + 1 = 3 + n
    omega
  | rollingBack hpossible hstates =>
    have hne : j.state ≠ .planned := by rcases hstates with hs | hs | hs <;> simp [hs]
    have hshape : (∃ kept undone todo, RollbackShape j.entries kept undone todo) ∧ 2 ≤ j.durableStep := by
      rcases hstates with hs | hs | hs
      · obtain ⟨n, hshape, hstep, -⟩ := h.applying hs
        exact ⟨hshape.toRollback, by omega⟩
      · obtain ⟨hstep, hall, -⟩ := progress_of_state h hs
        have hstep : j.durableStep = 3 + 2 * j.entries.length := hstep
        have hshape : ForwardShape (j.entries ++ []) _ := .append hall (.pending allIn_nil)
        rw [List.append_nil] at hshape
        exact ⟨hshape.toRollback, by omega⟩
      · obtain ⟨n, hshape, hstep, -⟩ := progress_of_state h hs
        have hstep : j.durableStep = 3 + n := hstep
        exact ⟨hshape.toRollback, by omega⟩
    exact ⟨h.bindings, h.schema, h.code, h.possible, fun _ => h.entries hne, hshape.1, Nat.succ_le_succ hshape.2⟩
  | undone front rest e current hstate hsplit hrest he hcur =>
    obtain ⟨⟨kept, undone, todo, hshape⟩, hstep⟩ := progress_of_state h hstate
    have hok := h.entries (by simp [hstate])
    have hshape : RollbackShape j.entries kept undone todo := hshape
    rw [hsplit] at hshape hok
    obtain ⟨rfl, rfl⟩ := hshape.at_last he hrest
    have hvalid : {e with phase := .rolledBack}.validate = .ok () :=
      InstallJournalEntryV1.validate_withPhase (hok.valid e (by simp))
        (InstallJournalEntryV1.phase_ne_pending_of_inForce he) (by simp)
    refine ⟨h.bindings, h.schema, h.code, h.possible, fun _ => hok.replace rfl hvalid,
      ⟨front, {e with phase := .rolledBack} :: undone, todo, rfl, ?_, allIn_cons.mpr ⟨rfl, hshape.undone⟩,
        hshape.todo⟩, Nat.le_succ_of_le hstep⟩
    exact fun x hx => hshape.kept x (by simp [hx])
  | rolledBack hstate hnext hstep =>
    obtain ⟨⟨kept, undone, todo, hshape⟩, hthree⟩ := progress_of_state h hstate
    have hshape : RollbackShape j.entries kept undone todo := hshape
    have hout : ∀ e ∈ j.entries, e.inForce = false := by
      cases hpossible : j.rollbackPossible with
      | true => exact h.none_inForce hstate hpossible hnext hstep
      | false =>
        intro e he
        by_contra hin
        exact hno ⟨hpossible, e, he, by simpa using hin⟩
    have hnil : kept = [] := by
      rw [List.eq_nil_iff_forall_not_mem]
      intro x hx
      have hin := hshape.kept x hx
      rw [hout x (by rw [hshape.split]; simp [hx])] at hin
      cases hin
    subst hnil
    exact ⟨h.bindings, h.schema, h.code, h.possible, fun _ => h.entries (by simp [hstate]), ⟨undone, todo, hshape⟩,
      Nat.succ_le_succ hthree⟩

end InstallJournalV1

/-- Where a check is missing, the result is not valid. -/
theorem not_valid_of_slips {j j' : InstallJournalV1} {op : JournalOperation}
    (hdone : InstallJournalV1.Performed j op j') (hslip : op.Slips j) : ¬j'.Valid := by
  intro h
  cases hdone with
  | prepared entries hstate hok =>
    obtain ⟨-, e, he, hne⟩ := hslip
    obtain ⟨-, hall, -⟩ := h.progress
    exact hne (hall e (InstallJournalV1.sortEntries_mem.mpr he))
  | reprepared entries hstate _ =>
    cases hslip.1.symm.trans hstate
  | rolledBack hstate _ _ =>
    obtain ⟨-, e, he, hin⟩ := hslip
    obtain ⟨⟨undone, todo, hshape⟩, -⟩ := h.progress
    rw [hshape.not_inForce he] at hin
    cases hin
  | started | applied | reapplied | verified | reverified | installed | failed | refailed | rollingBack | undone =>
    exact hslip

/-- Under a valid `RolledBack` journal nothing is in force. -/
theorem rolledBack_entries {j : InstallJournalV1} (h : j.Valid) (hstate : j.state = .rolledBack) :
    ∀ e ∈ j.entries, e.phase = .pending ∨ e.phase = .rolledBack := by
  obtain ⟨⟨undone, todo, hshape⟩, -⟩ := InstallJournalV1.progress_of_state h hstate
  intro e he
  have hno := RollbackShape.not_inForce hshape he
  cases hp : e.phase with
  | pending => exact .inl rfl
  | rolledBack => exact .inr rfl
  | applied | verified => simp [InstallJournalEntryV1.inForce, hp] at hno

/-- **Journals stay valid.** An operation that a valid journal accepts leaves a valid
journal, and `mark_rolled_back` leaves nothing in force, exactly where the operation
does not go past a missing check. -/
theorem operation_keeps_valid_iff (j : InstallJournalV1) (op : JournalOperation) (hvalid : j.validate = .ok ())
    (hok : (op.run j).1 = .ok ()) :
    ((op.run j).2.validate = .ok () ∧ (op = .markRolledBack →
        ∀ e ∈ (op.run j).2.entries, e.phase = .pending ∨ e.phase = .rolledBack)) ↔ ¬op.Slips j := by
  have h := (InstallJournalV1.validate_iff j).mp hvalid
  have hdone := InstallJournalV1.performed h.entries op hok
  generalize (op.run j).2 = j' at hdone ⊢
  constructor
  · rintro ⟨hafter, -⟩ hslip
    exact not_valid_of_slips hdone hslip ((InstallJournalV1.validate_iff _).mp hafter)
  · intro hno
    have hafter := h.performed hdone hno
    refine ⟨(InstallJournalV1.validate_iff _).mpr hafter, ?_⟩
    rintro rfl
    have hstate : j'.state = .rolledBack := by
      cases hdone
      rfl
    exact rolledBack_entries hafter hstate

/-! Two small journals: a planned one, and one that rolls back an entry in force. -/

def sampleHex (n : Nat) : String := String.ofList (List.replicate n 'a')

theorem sampleHex_valid (n : Nat) : isLowerHex (sampleHex n) n = true := by
  have hsize : (sampleHex n).utf8ByteSize = n := by
    induction n with
    | zero => rfl
    | succ n ih =>
      rw [sampleHex, List.replicate_succ', String.ofList_append, String.utf8ByteSize_append]
      exact congrArg₂ (· + ·) ih rfl
  simp [isLowerHex, hsize]
  simp [sampleHex]

def sampleBindings : InstallJournalBindingsV1 where
  transactionId := sampleHex 32
  authorizationId := sampleHex 32
  hostIdentitySha256 := sampleHex 64
  artifact := ⟨sampleHex 40, "1.0.0"⟩
  bundleManifestSha256 := sampleHex 64
  deploymentAuthorizationSha256 := sampleHex 64
  performanceEvidenceSha256 := sampleHex 64

theorem sampleBindings_valid : sampleBindings.validate = .ok () := by
  have htext : isSafeText "1.0.0" 64 = true := by decide
  simp [InstallJournalBindingsV1.validate, sampleBindings, DeploymentArtifactIdentityV1.isValid, sampleHex_valid,
    htext]

/-- The entry for the command-line tool, as `absent_file` builds it. -/
def sampleEntry : InstallJournalEntryV1 where
  role := .cli
  fixedPath := "/usr/bin/l2-loopctl"
  intended := ⟨.regularFile, some (sampleHex 64), 0o755, 0, 0⟩
  siblingBasename := some ".l2-loopctl.new"
  priorState := .absent
  currentIdentity := none
  createdParentIdentity := none
  phase := .pending

theorem sampleEntry_valid : sampleEntry.validate = .ok () := by
  have hname : safeBasename ".l2-loopctl.new" = true := by decide
  simp [InstallJournalEntryV1.validate, InstallJournalEntryV1.validateLayout, InstallJournalEntryV1.validatePrior,
    InstallJournalEntryV1.validatePhase, InstallIntendedIdentityV1.validate, InstallIntendedIdentityV1.digestValid,
    sampleEntry, sampleHex_valid, InstallRoleV1.fixedDestination, InstallRoleV1.expectedMode,
    InstallRoleV1.isDirectory, InstallRoleV1.installOrder, hname, bind, Except.bind]

theorem sampleEntry_acceptable :
    InstallJournalV1.Acceptable sampleEntry ⟨.regularFile, 1, 2, 1, some (sampleHex 64), 0o755, 0, 0⟩ none where
  valid := by simp [InstallObjectIdentityV1.validate, InstallObjectIdentityV1.shapeValid, sampleHex_valid]
  intended := by simp [InstallObjectIdentityV1.matchesIntended, sampleEntry]
  parent := rfl

def sampleApplied : InstallJournalEntryV1 :=
  sampleEntry.asApplied ⟨.regularFile, 1, 2, 1, some (sampleHex 64), 0o755, 0, 0⟩ none

theorem sampleApplied_valid : sampleApplied.validate = .ok () :=
  InstallJournalEntryV1.validate_asApplied sampleEntry_valid sampleEntry_acceptable

/-- A journal as a disk may hold it: it rolls back, although that is not possible. -/
def impossibleRollback : InstallJournalV1 where
  schemaVersion := 1
  bindings := sampleBindings
  state := .rollingBack
  durableStep := 3
  entries := [sampleApplied]
  failureCode := some "GI_WRITE_FAILED"
  rollbackPossible := false

theorem new_valid {b : InstallJournalBindingsV1} (h : b.validate = .ok ()) :
    (InstallJournalV1.new b).validate = .ok () :=
  (InstallJournalV1.validate_iff _).mpr
    ⟨h, rfl, rfl, fun h => (by cases h), fun h => absurd rfl h, rfl, rfl, rfl, rfl⟩

theorem entriesOk_singleton {e : InstallJournalEntryV1} (h : e.validate = .ok ()) : EntriesOk [e] :=
  ⟨by simp, by simpa using h, by simp⟩

theorem prepare_single {b : InstallJournalBindingsV1} {e : InstallJournalEntryV1} (h : e.validate = .ok ()) :
    (InstallJournalV1.new b).prepare [e] = (.ok (), (InstallJournalV1.new b).moved .prepared [e]) := by
  have hentries : validateEntries (InstallJournalV1.sortEntries [e]) = .ok () :=
    (validateEntries_iff _).mpr (entriesOk_singleton h)
  unfold InstallJournalV1.prepare
  rw [hentries]
  rfl

theorem prepare_keeps_valid :
    ((InstallJournalV1.new sampleBindings).prepare [sampleEntry]).2.validate = .ok () := by
  refine ((operation_keeps_valid_iff (.new sampleBindings) (.prepare [sampleEntry]) (new_valid sampleBindings_valid)
    (congrArg Prod.fst (prepare_single sampleEntry_valid))).mpr ?_).1
  rintro ⟨-, e, he, hne⟩
  rw [List.mem_singleton.mp he] at hne
  exact hne rfl

/-- `prepare` accepts an applied entry and leaves a journal that cannot be read back;
`mark_rolled_back` accepts one with an applied entry and leaves it in force. -/
theorem omissions_break_valid :
    ((InstallJournalV1.new sampleBindings).validate = .ok () ∧
      ((InstallJournalV1.new sampleBindings).prepare [sampleApplied]).1 = .ok () ∧
      ((InstallJournalV1.new sampleBindings).prepare [sampleApplied]).2.validate ≠ .ok ()) ∧
    (impossibleRollback.validate = .ok () ∧ impossibleRollback.markRolledBack.1 = .ok () ∧
      impossibleRollback.markRolledBack.2.validate ≠ .ok () ∧
      ∃ e ∈ impossibleRollback.markRolledBack.2.entries, e.phase = .applied) := by
  refine ⟨⟨new_valid sampleBindings_valid, ?_, ?_⟩, ?_, rfl, ?_, sampleApplied, List.Mem.head _, rfl⟩
  · rw [prepare_single sampleApplied_valid]
  · rw [prepare_single sampleApplied_valid, ne_eq, InstallJournalV1.validate_iff]
    intro h
    exact absurd (h.progress.2.1 sampleApplied (by simp [InstallJournalV1.moved])) (by simp [sampleApplied, InstallJournalEntryV1.asApplied])
  · refine (InstallJournalV1.validate_iff _).mpr ⟨sampleBindings_valid, rfl, by decide, by decide,
      fun _ => entriesOk_singleton sampleApplied_valid, ⟨[sampleApplied], [], [], rfl, ?_, allIn_nil, allIn_nil⟩,
      Nat.le_refl _⟩
    simp [sampleApplied, InstallJournalEntryV1.asApplied, InstallJournalEntryV1.inForce]
  · rw [ne_eq, InstallJournalV1.validate_iff]
    intro h
    obtain ⟨⟨undone, todo, hshape⟩, -⟩ := h.progress
    exact absurd (hshape.not_inForce (e := sampleApplied) (List.Mem.head _)) (by decide)

end NetworkLoop.Install
