import Mathlib
import NetworkLoop.Install.Journal

/-! Which journals `validate` accepts.

The checks are unfolded once: a valid journal is well formed entry by entry, and
its phases have the shape that its state asks for. On the way forward that is
`ForwardShape`, on the way back `RollbackShape`; the two loops of the source that
walk over the phases accept exactly these (`validateForwardPrefix_iff`,
`validateRollbackShape_iff`), and `validate_iff` puts the parts together. -/
namespace NetworkLoop.Install

/-! ### Shapes of an entry list -/

def AllIn (phase : InstallJournalEntryPhaseV1) (entries : List InstallJournalEntryV1) : Prop :=
  ∀ e ∈ entries, e.phase = phase

/-- Verified entries, then at most one applied entry, then pending ones: two steps
of progress for each verified entry and one for the applied one. -/
inductive ForwardShape : List InstallJournalEntryV1 → Nat → Prop where
  | pending {todo : List InstallJournalEntryV1} : AllIn .pending todo → ForwardShape todo 0
  | applied {e : InstallJournalEntryV1} {todo : List InstallJournalEntryV1} : e.phase = .applied →
      AllIn .pending todo → ForwardShape (e :: todo) 1
  | verified {e : InstallJournalEntryV1} {rest : List InstallJournalEntryV1} {progress : Nat} :
      e.phase = .verified → ForwardShape rest progress → ForwardShape (e :: rest) (progress + 2)

/-- Entries in force, then rolled back ones, then those that were never applied. -/
structure RollbackShape (entries kept undone todo : List InstallJournalEntryV1) : Prop where
  split : entries = kept ++ (undone ++ todo)
  kept : ∀ e ∈ kept, e.inForce = true
  undone : AllIn .rolledBack undone
  todo : AllIn .pending todo

/-- Every entry is well formed, and they stand in strict install order. -/
structure EntriesOk (entries : List InstallJournalEntryV1) : Prop where
  nonempty : entries ≠ []
  valid : ∀ e ∈ entries, e.validate = .ok ()
  sorted : entries.Pairwise (fun a b => a.role.installOrder < b.role.installOrder)

theorem validateEntriesFrom_iff (prior : Option Nat) (entries : List InstallJournalEntryV1) :
    validateEntriesFrom prior entries = .ok () ↔
      (∀ e ∈ entries, e.validate = .ok ()) ∧ (∀ p ∈ prior, ∀ e ∈ entries, p < e.role.installOrder) ∧
        entries.Pairwise (fun a b => a.role.installOrder < b.role.installOrder) := by
  induction entries generalizing prior with
  | nil => simp [validateEntriesFrom]
  | cons e rest ih =>
    rw [validateEntriesFrom, bind_unit_eq_ok, List.pairwise_cons]
    simp only [List.mem_cons, forall_eq_or_imp]
    constructor
    · rintro ⟨hvalid, hrest⟩
      split at hrest
      · cases hrest
      · rename_i hprior
        obtain ⟨hall, hfirst, hsorted⟩ := (ih _).mp hrest
        have hlt : ∀ p ∈ prior, p < e.role.installOrder := by
          intro p hp
          rw [Option.mem_def.mp hp] at hprior
          simpa using hprior
        have hbelow := hfirst _ rfl
        exact ⟨⟨hvalid, hall⟩, fun p hp => ⟨hlt p hp, fun x hx => Nat.lt_trans (hlt p hp) (hbelow x hx)⟩,
          hbelow, hsorted⟩
    · rintro ⟨⟨hvalid, hall⟩, hprior, hbelow, hsorted⟩
      refine ⟨hvalid, ?_⟩
      have hno : prior.any (· ≥ e.role.installOrder) = false := by
        cases prior with
        | none => rfl
        | some p => simpa using (hprior p rfl).1
      rw [hno]
      refine (ih _).mpr ⟨hall, ?_, hsorted⟩
      intro p hp x hx
      cases Option.mem_def.mp hp
      exact hbelow x hx

theorem validateEntries_iff (entries : List InstallJournalEntryV1) :
    validateEntries entries = .ok () ↔ EntriesOk entries := by
  unfold validateEntries
  cases entries with
  | nil => exact ⟨fun h => (by cases h), fun h => absurd rfl h.nonempty⟩
  | cons e rest =>
    rw [List.isEmpty_cons, if_neg (by simp), validateEntriesFrom_iff]
    constructor
    · rintro ⟨hvalid, -, hsorted⟩
      exact ⟨by simp, hvalid, hsorted⟩
    · intro h
      exact ⟨h.valid, by simp, h.sorted⟩

/-- Distinct roles: a journal has at most as many entries as there are roles. -/
theorem EntriesOk.length_le {entries : List InstallJournalEntryV1} (h : EntriesOk entries) :
    entries.length ≤ 32 := by
  have hnodup : (entries.map (·.role)).Nodup := by
    rw [List.Nodup, List.pairwise_map]
    exact h.sorted.imp fun {a b} hlt heq => Nat.ne_of_lt hlt (congrArg _ heq)
  have := List.Nodup.length_le_card hnodup
  rwa [List.length_map] at this

/-! ### The two loops over the phases -/

theorem allIn_nil {phase : InstallJournalEntryPhaseV1} : AllIn phase [] := by
  simp [AllIn]

theorem allIn_cons {phase : InstallJournalEntryPhaseV1} {e : InstallJournalEntryV1}
    {rest : List InstallJournalEntryV1} : AllIn phase (e :: rest) ↔ e.phase = phase ∧ AllIn phase rest := by
  simp [AllIn]

theorem allIn_append {phase : InstallJournalEntryPhaseV1} {a b : List InstallJournalEntryV1} :
    AllIn phase (a ++ b) ↔ AllIn phase a ∧ AllIn phase b := by
  simp [AllIn, or_imp, forall_and]

/-- Past the first pending entry the loop accepts only pending ones. -/
theorem forwardPrefix_pending (entries : List InstallJournalEntryV1) (p q : Nat) (applied : Bool) :
    validateForwardPrefixFrom p applied true (entries.map (·.phase)) = .ok q ↔ AllIn .pending entries ∧ q = p := by
  induction entries with
  | nil => simp [validateForwardPrefixFrom, allIn_nil, eq_comm]
  | cons e rest ih =>
    rw [List.map_cons, allIn_cons]
    cases hp : e.phase with
    | pending => simp only [validateForwardPrefixFrom, ih, true_and]
    | applied | verified | rolledBack => simp [validateForwardPrefixFrom]

/-- And likewise past the applied entry. -/
theorem forwardPrefix_applied (entries : List InstallJournalEntryV1) (p q : Nat) :
    validateForwardPrefixFrom p true false (entries.map (·.phase)) = .ok q ↔ AllIn .pending entries ∧ q = p := by
  cases entries with
  | nil => simp [validateForwardPrefixFrom, allIn_nil, eq_comm]
  | cons e rest =>
    rw [List.map_cons, allIn_cons]
    cases hp : e.phase with
    | pending => simp only [validateForwardPrefixFrom, forwardPrefix_pending, true_and]
    | applied | verified | rolledBack => simp [validateForwardPrefixFrom]

theorem validateForwardPrefixFrom_iff (entries : List InstallJournalEntryV1) (p q : Nat) :
    validateForwardPrefixFrom p false false (entries.map (·.phase)) = .ok q ↔
      ∃ n, ForwardShape entries n ∧ q = p + n := by
  induction entries generalizing p with
  | nil =>
    simp only [List.map_nil, validateForwardPrefixFrom, Except.ok.injEq]
    constructor
    · rintro rfl
      exact ⟨0, .pending allIn_nil, rfl⟩
    · rintro ⟨n, hshape, rfl⟩
      cases hshape
      rfl
  | cons e rest ih =>
    rw [List.map_cons]
    cases hp : e.phase with
    | verified =>
      simp only [validateForwardPrefixFrom, Bool.not_false, Bool.and_self, if_true, ih]
      constructor
      · rintro ⟨n, hshape, rfl⟩
        exact ⟨n + 2, .verified hp hshape, by omega⟩
      · rintro ⟨n, hshape, rfl⟩
        cases hshape with
        | pending hall => rw [(allIn_cons.mp hall).1] at hp; cases hp
        | applied happ _ => rw [happ] at hp; cases hp
        | verified _ hrest => exact ⟨_, hrest, by omega⟩
    | applied =>
      simp only [validateForwardPrefixFrom, Bool.not_false, Bool.and_self, if_true, forwardPrefix_applied]
      constructor
      · rintro ⟨hall, rfl⟩
        exact ⟨1, .applied hp hall, rfl⟩
      · rintro ⟨n, hshape, rfl⟩
        cases hshape with
        | pending hall => rw [(allIn_cons.mp hall).1] at hp; cases hp
        | applied _ hall => exact ⟨hall, rfl⟩
        | verified hver _ => rw [hver] at hp; cases hp
    | pending =>
      simp only [validateForwardPrefixFrom, forwardPrefix_pending]
      constructor
      · rintro ⟨hall, rfl⟩
        exact ⟨0, .pending (allIn_cons.mpr ⟨hp, hall⟩), rfl⟩
      · rintro ⟨n, hshape, rfl⟩
        cases hshape with
        | pending hall => exact ⟨(allIn_cons.mp hall).2, rfl⟩
        | applied happ _ => rw [happ] at hp; cases hp
        | verified hver _ => rw [hver] at hp; cases hp
    | rolledBack =>
      simp only [validateForwardPrefixFrom, reduceCtorEq, false_iff]
      rintro ⟨n, hshape, -⟩
      cases hshape with
      | pending hall => rw [(allIn_cons.mp hall).1] at hp; cases hp
      | applied happ _ => rw [happ] at hp; cases hp
      | verified hver _ => rw [hver] at hp; cases hp

theorem validateForwardPrefix_iff (entries : List InstallJournalEntryV1) (q : Nat) :
    validateForwardPrefix (entries.map (·.phase)) = .ok q ↔ ForwardShape entries q := by
  rw [validateForwardPrefix, validateForwardPrefixFrom_iff]
  simp

/-- The shape, cut at the first entry that is not verified. -/
theorem ForwardShape.cut {entries : List InstallJournalEntryV1} {n : Nat} (h : ForwardShape entries n) :
    ∃ done rest, entries = done ++ rest ∧ AllIn .verified done ∧
      ((AllIn .pending rest ∧ n = 2 * done.length) ∨
        ∃ e todo, rest = e :: todo ∧ e.phase = .applied ∧ AllIn .pending todo ∧ n = 2 * done.length + 1) := by
  induction h with
  | pending hall => exact ⟨[], _, rfl, allIn_nil, .inl ⟨hall, rfl⟩⟩
  | applied happ hall => exact ⟨[], _, rfl, allIn_nil, .inr ⟨_, _, rfl, happ, hall, rfl⟩⟩
  | @verified e rest progress hver _ ih =>
    obtain ⟨done, tail, rfl, hdone, htail⟩ := ih
    refine ⟨e :: done, tail, rfl, allIn_cons.mpr ⟨hver, hdone⟩, ?_⟩
    rcases htail with ⟨hall, rfl⟩ | ⟨x, todo, rfl, hx, hall, rfl⟩
    · exact .inl ⟨hall, by simp; omega⟩
    · exact .inr ⟨x, todo, rfl, hx, hall, by simp; omega⟩

theorem ForwardShape.append {done rest : List InstallJournalEntryV1} {n : Nat} (hdone : AllIn .verified done)
    (h : ForwardShape rest n) : ForwardShape (done ++ rest) (2 * done.length + n) := by
  induction done with
  | nil => simpa using h
  | cons e done ih =>
    obtain ⟨he, hdone⟩ := allIn_cons.mp hdone
    have := ForwardShape.verified he (ih hdone)
    rwa [show 2 * (e :: done).length + n = 2 * done.length + n + 2 by simp; omega]

/-- With nothing kept, no entry is in force. -/
theorem RollbackShape.not_inForce {entries undone todo : List InstallJournalEntryV1} {e : InstallJournalEntryV1}
    (h : RollbackShape entries [] undone todo) (he : e ∈ entries) : e.inForce = false := by
  rw [h.split, List.nil_append] at he
  rcases List.mem_append.mp he with hin | hin
  · simp [InstallJournalEntryV1.inForce, h.undone e hin]
  · simp [InstallJournalEntryV1.inForce, h.todo e hin]

/-- Past the first pending entry only pending ones are accepted here too. -/
theorem rollbackShape_pending (terminal sawRolledBack : Bool) (entries : List InstallJournalEntryV1) :
    validateRollbackShapeFrom terminal sawRolledBack true (entries.map (·.phase)) = .ok () ↔
      AllIn .pending entries := by
  induction entries with
  | nil => simp [validateRollbackShapeFrom, allIn_nil]
  | cons e rest ih =>
    rw [List.map_cons, allIn_cons]
    cases hp : e.phase with
    | pending => simp only [validateRollbackShapeFrom, ih, true_and]
    | applied | verified | rolledBack => simp [validateRollbackShapeFrom]

theorem rollbackShape_undone (terminal : Bool) (entries : List InstallJournalEntryV1) :
    validateRollbackShapeFrom terminal true false (entries.map (·.phase)) = .ok () ↔
      ∃ undone todo, RollbackShape entries [] undone todo := by
  induction entries with
  | nil =>
    refine iff_of_true rfl ⟨[], [], rfl, by simp, allIn_nil, allIn_nil⟩
  | cons e rest ih =>
    rw [List.map_cons]
    cases hp : e.phase with
    | pending =>
      simp only [validateRollbackShapeFrom, rollbackShape_pending]
      constructor
      · intro hall
        exact ⟨[], e :: rest, rfl, by simp, allIn_nil, allIn_cons.mpr ⟨hp, hall⟩⟩
      · rintro ⟨undone, todo, hsplit, -, hundone, htodo⟩
        cases undone with
        | nil =>
          rw [List.nil_append, List.nil_append] at hsplit
          rw [← hsplit] at htodo
          exact (allIn_cons.mp htodo).2
        | cons u undone =>
          obtain ⟨rfl, -⟩ := List.cons.inj hsplit
          rw [(allIn_cons.mp hundone).1] at hp
          cases hp
    | rolledBack =>
      simp only [validateRollbackShapeFrom, Bool.not_false, if_true, ih]
      constructor
      · rintro ⟨undone, todo, hsplit, -, hundone, htodo⟩
        exact ⟨e :: undone, todo, by rw [hsplit]; rfl, by simp, allIn_cons.mpr ⟨hp, hundone⟩, htodo⟩
      · rintro ⟨undone, todo, hsplit, -, hundone, htodo⟩
        cases undone with
        | nil =>
          rw [List.nil_append, List.nil_append] at hsplit
          rw [← hsplit] at htodo
          rw [(allIn_cons.mp htodo).1] at hp
          cases hp
        | cons u undone =>
          obtain ⟨rfl, rfl⟩ := List.cons.inj hsplit
          exact ⟨undone, todo, rfl, by simp, (allIn_cons.mp hundone).2, htodo⟩
    | applied | verified =>
      simp only [validateRollbackShapeFrom, Bool.not_true, Bool.false_and, Bool.false_eq_true, if_false,
        reduceCtorEq, false_iff]
      rintro ⟨undone, todo, hshape⟩
      have hno := hshape.not_inForce (List.mem_cons_self ..)
      simp [InstallJournalEntryV1.inForce, hp] at hno

theorem validateRollbackShape_iff (entries : List InstallJournalEntryV1) (terminal : Bool) :
    validateRollbackShape (entries.map (·.phase)) terminal = .ok () ↔
      ∃ kept undone todo, RollbackShape entries kept undone todo ∧ (terminal = true → kept = []) := by
  unfold validateRollbackShape
  induction entries with
  | nil => exact iff_of_true rfl ⟨[], [], [], ⟨rfl, by simp, allIn_nil, allIn_nil⟩, fun _ => rfl⟩
  | cons e rest ih =>
    rw [List.map_cons]
    have hhead : ∀ {kept undone todo}, RollbackShape (e :: rest) kept undone todo → e.inForce = false → kept = [] := by
      intro kept undone todo h hforce
      cases kept with
      | nil => rfl
      | cons k kept =>
        obtain ⟨rfl, -⟩ := List.cons.inj h.split
        rw [h.kept e (by simp)] at hforce
        cases hforce
    cases hp : e.phase with
    | pending =>
      simp only [validateRollbackShapeFrom, rollbackShape_pending]
      constructor
      · intro hall
        exact ⟨[], [], e :: rest, ⟨rfl, by simp, allIn_nil, allIn_cons.mpr ⟨hp, hall⟩⟩, fun _ => rfl⟩
      · rintro ⟨kept, undone, todo, hshape, -⟩
        obtain rfl := hhead hshape (by simp [InstallJournalEntryV1.inForce, hp])
        have hstart := (rollbackShape_undone terminal (e :: rest)).mpr ⟨undone, todo, hshape⟩
        rw [List.map_cons, hp] at hstart
        exact (rollbackShape_pending _ _ _).mp hstart
    | rolledBack =>
      simp only [validateRollbackShapeFrom, Bool.not_false, if_true]
      constructor
      · intro h
        have hstart : validateRollbackShapeFrom terminal true false ((e :: rest).map (·.phase)) = .ok () := by
          rw [List.map_cons, hp]
          exact h
        obtain ⟨undone, todo, hshape⟩ := (rollbackShape_undone terminal (e :: rest)).mp hstart
        exact ⟨[], undone, todo, hshape, fun _ => rfl⟩
      · rintro ⟨kept, undone, todo, hshape, -⟩
        obtain rfl := hhead hshape (by simp [InstallJournalEntryV1.inForce, hp])
        have hstart := (rollbackShape_undone terminal (e :: rest)).mpr ⟨undone, todo, hshape⟩
        rw [List.map_cons, hp] at hstart
        exact hstart
    | applied | verified =>
      have hforce : e.inForce = true := by simp [InstallJournalEntryV1.inForce, hp]
      simp only [validateRollbackShapeFrom, Bool.not_false, Bool.true_and]
      cases terminal with
      | true =>
        refine iff_of_false (by simp) ?_
        rintro ⟨kept, undone, todo, hshape, hnil⟩
        obtain rfl := hnil rfl
        rw [hshape.not_inForce (List.mem_cons_self ..)] at hforce
        cases hforce
      | false =>
        rw [Bool.not_false, if_pos rfl, ih]
        constructor
        · rintro ⟨kept, undone, todo, hshape, -⟩
          refine ⟨e :: kept, undone, todo, ⟨by rw [hshape.split]; rfl, ?_, hshape.undone, hshape.todo⟩, by simp⟩
          simpa [hforce] using hshape.kept
        · rintro ⟨kept, undone, todo, hshape, -⟩
          cases kept with
          | nil =>
            rw [hshape.not_inForce (List.mem_cons_self ..)] at hforce
            cases hforce
          | cons k kept =>
            obtain ⟨rfl, htail⟩ := List.cons.inj hshape.split
            exact ⟨kept, undone, todo, ⟨htail, fun x hx => hshape.kept x (by simp [hx]), hshape.undone,
              hshape.todo⟩, by simp⟩

/-! ### Valid journals -/

namespace InstallJournalV1

/-- The shape and the step count that each state asks for. -/
def Progress (j : InstallJournalV1) : Prop :=
  match j.state with
  | .planned => j.durableStep = 0 ∧ j.entries = [] ∧ j.failureCode = none ∧ j.rollbackPossible = true
  | .prepared => j.durableStep = 1 ∧ AllIn .pending j.entries ∧ j.failureCode = none
  | .applying => ∃ n, ForwardShape j.entries n ∧ j.durableStep = 2 + n ∧ j.failureCode = none
  | .installed => j.durableStep = 3 + 2 * j.entries.length ∧ AllIn .verified j.entries ∧ j.failureCode = none
  | .failed => ∃ n, ForwardShape j.entries n ∧ j.durableStep = 3 + n ∧ j.failureCode ≠ none
  | .rollingBack => (∃ kept undone todo, RollbackShape j.entries kept undone todo) ∧ 3 ≤ j.durableStep
  | .rolledBack => (∃ undone todo, RollbackShape j.entries [] undone todo) ∧ 4 ≤ j.durableStep

structure Valid (j : InstallJournalV1) : Prop where
  bindings : j.bindings.validate = .ok ()
  schema : j.schemaVersion = installJournalSchemaVersion
  code : j.failureCode.all isFindingCode = true
  possible : j.rollbackPossible = false → j.failureCode ≠ none
  entries : j.state ≠ .planned → EntriesOk j.entries
  progress : j.Progress

theorem validateProgress_iff {j : InstallJournalV1} (hstate : j.state ≠ .planned) (h : EntriesOk j.entries) :
    j.validateProgress = .ok () ↔ j.Progress := by
  unfold validateProgress Progress
  cases hs : j.state with
  | planned => exact absurd hs hstate
  | prepared =>
    simp [phases, AllIn, and_assoc]
  | applying =>
    simp only [bind_eq_ok, phases, validateForwardPrefix_iff]
    simp
  | installed =>
    have hlen : checkedAdd 3 (min (2 * j.entries.length) (u64Bound - 1)) = some (3 + 2 * j.entries.length) := by
      have := h.length_le
      have hmin : min (2 * j.entries.length) (u64Bound - 1) = 2 * j.entries.length :=
        Nat.min_eq_left (by unfold u64Bound; omega)
      rw [hmin, checkedAdd, if_pos (by unfold u64Bound; omega)]
    simp [hlen, phases, AllIn, and_assoc]
  | failed =>
    simp only [bind_eq_ok, phases, validateForwardPrefix_iff]
    simp [Option.ne_none_iff_isSome]
  | rollingBack =>
    simp only [bind_unit_eq_ok, phases, validateRollbackShape_iff]
    simp
  | rolledBack =>
    simp only [bind_unit_eq_ok, phases, validateRollbackShape_iff]
    simp

theorem validate_iff (j : InstallJournalV1) : j.validate = .ok () ↔ j.Valid := by
  unfold validate validateEntriesForState
  rw [bind_unit_eq_ok]
  constructor
  · rintro ⟨hbind, h⟩
    split at h
    · cases h
    · rename_i hschema
      split at h
      · cases h
      · rename_i hcode
        simp only [Bool.or_eq_true, not_or, Bool.not_eq_true', Bool.not_eq_false, Bool.and_eq_true, not_and,
          Option.isNone_iff_eq_none] at hcode
        split at h
        · rename_i hstate
          refine ⟨hbind, by simpa using hschema, hcode.1, hcode.2, fun hne => absurd hstate hne, ?_⟩
          unfold Progress
          rw [hstate]
          simpa [and_assoc] using h
        · rename_i hstate
          obtain ⟨hentries, hprog⟩ := bind_unit_eq_ok.mp h
          have hok := (validateEntries_iff _).mp hentries
          exact ⟨hbind, by simpa using hschema, hcode.1, hcode.2, fun _ => hok,
            (validateProgress_iff hstate hok).mp hprog⟩
  · intro h
    refine ⟨h.bindings, ?_⟩
    rw [if_neg (by simp [h.schema])]
    have hcode : ¬((!j.failureCode.all isFindingCode || !j.rollbackPossible && j.failureCode.isNone) = true) := by
      simp only [Bool.or_eq_true, not_or, Bool.not_eq_true', Bool.not_eq_false, Bool.and_eq_true, not_and,
        Option.isNone_iff_eq_none]
      exact ⟨h.code, h.possible⟩
    rw [if_neg hcode]
    by_cases hstate : j.state = .planned
    · rw [if_pos hstate]
      have hprog := h.progress
      unfold Progress at hprog
      rw [hstate] at hprog
      simpa [and_assoc] using hprog
    · rw [if_neg hstate]
      have hok := h.entries hstate
      exact bind_unit_eq_ok.mpr ⟨(validateEntries_iff _).mpr hok, (validateProgress_iff hstate hok).mpr h.progress⟩

end InstallJournalV1

end NetworkLoop.Install
