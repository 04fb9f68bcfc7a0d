import Mathlib
import NetworkLoop.Install.JournalValid

/-! Whole runs of a journal: forward to the last verified entry, and back from any
point of the way.

A run asks the journal for its next action, performs it with what is seen at the
path, and records it. `journal_run_exact` says that the forward run applies and then
verifies every entry once, in install order, that a rollback begun after any number
of steps takes back exactly the entries in force, in reverse, and that the step
counter counts the operations. -/
namespace NetworkLoop.Install
open InstallJournalV1

/-! ### Runs -/

/-- What an action does to a role's object. -/
inductive Verb where
  | apply | verify | remove | restore | retain
  deriving DecidableEq, Repr

def InstallJournalForwardActionV1.deed : InstallJournalForwardActionV1 → Verb × InstallRoleV1
  | .apply _ role => (.apply, role)
  | .verify _ role _ => (.verify, role)

def InstallJournalRollbackActionV1.deed : InstallJournalRollbackActionV1 → Verb × InstallRoleV1
  | .removeExact _ role _ _ => (.remove, role)
  | .restoreExact _ role _ _ _ _ => (.restore, role)
  | .retainExact _ role _ => (.retain, role)

/-- What is seen at each role's path once its object is in place. -/
structure Observations where
  current : InstallRoleV1 → InstallObjectIdentityV1
  parent : InstallRoleV1 → Option InstallObjectIdentityV1

/-- A recorded deed: the reply must be `Ok`. -/
def recorded (deed : Verb × InstallRoleV1) : JournalReply → Option ((Verb × InstallRoleV1) × InstallJournalV1)
  | (.ok _, j) => some (deed, j)
  | (.error _, _) => none

/-- Perform the next action on the way forward and record it. -/
def forwardStep (obs : Observations) (j : InstallJournalV1) :
    Option ((Verb × InstallRoleV1) × InstallJournalV1) :=
  match j.nextForwardAction with
  | none => none
  | some (.apply step role) =>
    recorded (InstallJournalForwardActionV1.apply step role).deed
      (j.recordApplied role (obs.current role) (obs.parent role))
  | some (.verify step role expected) =>
    recorded (InstallJournalForwardActionV1.verify step role expected).deed
      (j.recordVerified role (obs.current role))

/-- Perform the next action on the way back and record it. -/
def rollbackStep (j : InstallJournalV1) : Option ((Verb × InstallRoleV1) × InstallJournalV1) :=
  match j.nextRollbackAction with
  | none => none
  | some action => recorded action.deed (j.recordRollbackCompleted action)

/-- `k` steps in a row, and what they did. -/
def drive (step : InstallJournalV1 → Option ((Verb × InstallRoleV1) × InstallJournalV1)) :
    Nat → InstallJournalV1 → Option (List (Verb × InstallRoleV1) × InstallJournalV1)
  | 0, j => some ([], j)
  | k + 1, j => do
    let (deed, next) ← step j
    let (deeds, last) ← drive step k next
    return (deed :: deeds, last)

theorem drive_succ {step : InstallJournalV1 → Option ((Verb × InstallRoleV1) × InstallJournalV1)}
    {j next last : InstallJournalV1} {deed : Verb × InstallRoleV1} {deeds : List (Verb × InstallRoleV1)} {k : Nat}
    (hstep : step j = some (deed, next)) (hrest : drive step k next = some (deeds, last)) :
    drive step (k + 1) j = some (deed :: deeds, last) := by
  simp [drive, hstep, hrest]

/-! ### Forward -/

/-- What the forward run has to do for these entries. -/
def forwardDeeds (entries : List InstallJournalEntryV1) : List (Verb × InstallRoleV1) :=
  entries.flatMap fun e => [(.apply, e.role), (.verify, e.role)]

/-- The entry once its object is in place and has been checked. -/
def InstallJournalEntryV1.asVerified (e : InstallJournalEntryV1) (obs : Observations) : InstallJournalEntryV1 :=
  {e.asApplied (obs.current e.role) (obs.parent e.role) with phase := .verified}

/-- The entries after `k` steps. -/
def progressed (obs : Observations) : List InstallJournalEntryV1 → Nat → List InstallJournalEntryV1
  | [], _ => []
  | e :: rest, 0 => e :: rest
  | e :: rest, 1 => e.asApplied (obs.current e.role) (obs.parent e.role) :: rest
  | e :: rest, k + 2 => e.asVerified obs :: progressed obs rest k

/-- A journal with other entries and a later step. -/
def InstallJournalV1.at (j : InstallJournalV1) (entries : List InstallJournalEntryV1) (step : Nat) :
    InstallJournalV1 :=
  {j with entries := entries, durableStep := step}

section
variable {j : InstallJournalV1} (obs : Observations) {done todo : List InstallJournalEntryV1}
  {e : InstallJournalEntryV1}

theorem moved_eq_at {state : InstallJournalStateV1} (h : j.state = state) (entries : List InstallJournalEntryV1) :
    j.moved state entries = j.at entries (j.durableStep + 1) := by
  subst h
  rfl

theorem at_self {entries : List InstallJournalEntryV1} (h : j.entries = entries) : j.at entries j.durableStep = j := by
  subst h
  rfl

theorem forwardStep_apply (hok : EntriesOk j.entries) (hstate : j.state = .applying)
    (hsplit : j.entries = done ++ e :: todo) (hdone : AllIn .verified done) (he : e.phase = .pending)
    (hstep : j.durableStep + 1 < u64Bound) (hseen : Acceptable e (obs.current e.role) (obs.parent e.role)) :
    forwardStep obs j = some ((.apply, e.role),
      j.at (done ++ e.asApplied (obs.current e.role) (obs.parent e.role) :: todo) (j.durableStep + 1)) := by
  have hnext : j.nextForwardAction = some (.apply (j.durableStep + 1) e.role) := by
    rw [nextForwardAction_split hstate hsplit hdone (by simp [he]) hstep, forwardActionOf, he]
  unfold forwardStep
  rw [hnext]
  simp only []
  rw [recordApplied_eq hok hstate hsplit hdone he hstep hseen, moved_eq_at hstate]
  rfl

theorem forwardStep_verify (hok : EntriesOk j.entries) (hstate : j.state = .applying)
    (hsplit : j.entries = done ++ e.asApplied (obs.current e.role) (obs.parent e.role) :: todo)
    (hdone : AllIn .verified done) (hstep : j.durableStep + 1 < u64Bound) :
    forwardStep obs j = some ((.verify, e.role), j.at (done ++ e.asVerified obs :: todo) (j.durableStep + 1)) := by
  have hnext : j.nextForwardAction = some (.verify (j.durableStep + 1) e.role (obs.current e.role)) := by
    rw [nextForwardAction_split hstate hsplit hdone (by simp [InstallJournalEntryV1.asApplied]) hstep]
    rfl
  have hrec : j.recordVerified e.role (obs.current e.role) =
      (.ok (), j.at (done ++ e.asVerified obs :: todo) (j.durableStep + 1)) := by
    have h := recordVerified_eq hok hstate hsplit hdone rfl rfl hstep
    rw [moved_eq_at hstate] at h
    exact h
  unfold forwardStep
  rw [hnext]
  simp only []
  rw [hrec]
  rfl

end

/-- The forward run over the pending entries that follow the verified ones. -/
theorem drive_forward (obs : Observations) (todo : List InstallJournalEntryV1) :
    ∀ (done : List InstallJournalEntryV1) (j : InstallJournalV1) (k : Nat), j.state = .applying →
      j.entries = done ++ todo → EntriesOk j.entries → AllIn .verified done → AllIn .pending todo →
      (∀ e ∈ todo, Acceptable e (obs.current e.role) (obs.parent e.role)) → j.durableStep + k < u64Bound →
      k ≤ 2 * todo.length →
      EntriesOk (done ++ progressed obs todo k) ∧
        drive (forwardStep obs) k j =
          some ((forwardDeeds todo).take k, j.at (done ++ progressed obs todo k) (j.durableStep + k)) := by
  induction todo with
  | nil =>
    intro done j k _ hsplit hok _ _ _ _ hk
    obtain rfl : k = 0 := by simpa using hk
    have hself : j.entries = done := by simpa using hsplit
    exact ⟨by simpa [progressed, hself] using hok, by simp [drive, progressed, at_self hself]⟩
  | cons e rest ih =>
    intro done j k hstate hsplit hok hdone htodo hseen hbound hk
    obtain ⟨he, hrest⟩ := allIn_cons.mp htodo
    have hseen_e := hseen e (by simp)
    have hok0 : EntriesOk (done ++ e :: rest) := hsplit ▸ hok
    have hvalid := InstallJournalEntryV1.validate_asApplied (hok0.valid e (by simp)) hseen_e
    have hok1 : EntriesOk (done ++ e.asApplied (obs.current e.role) (obs.parent e.role) :: rest) :=
      hok0.replace rfl hvalid
    match k with
    | 0 => exact ⟨hok0, by simp [drive, progressed, at_self hsplit]⟩
    | 1 =>
      have happly := forwardStep_apply obs hok hstate hsplit hdone he hbound hseen_e
      refine ⟨hok1, ?_⟩
      rw [drive_succ happly rfl]
      simp [forwardDeeds, progressed]
    | k + 2 =>
      have happly := forwardStep_apply obs hok hstate hsplit hdone he (by omega) hseen_e
      have hverify := forwardStep_verify obs (e := e)
        (j := j.at (done ++ e.asApplied (obs.current e.role) (obs.parent e.role) :: rest) (j.durableStep + 1))
        hok1 hstate rfl hdone (by show j.durableStep + 1 + 1 < u64Bound; omega)
      have hverified : (e.asVerified obs).validate = .ok () :=
        InstallJournalEntryV1.validate_withPhase hvalid (by simp [InstallJournalEntryV1.asApplied]) (by simp)
      -- two steps further, with one more verified entry in front
      obtain ⟨hok2, hih⟩ := ih (done ++ [e.asVerified obs])
        (j.at (done ++ e.asVerified obs :: rest) (j.durableStep + 2)) k
        hstate (by simp [InstallJournalV1.at]) (hok1.replace rfl hverified)
        (allIn_append.mpr ⟨hdone, allIn_cons.mpr ⟨rfl, allIn_nil⟩⟩) hrest (fun x hx => hseen x (by simp [hx]))
        (by show j.durableStep + 2 + k < u64Bound; omega) (by simp at hk; omega)
      refine ⟨by simpa [progressed] using hok2, ?_⟩
      rw [drive_succ happly (drive_succ hverify hih)]
      simp only [forwardDeeds, List.flatMap_cons, List.cons_append, List.nil_append, List.take_succ_cons,
        progressed, InstallJournalV1.at, List.append_assoc, Option.some.injEq, Prod.mk.injEq, true_and]
      congr 1
      omega

/-! ### Back -/

/-- What the way back does for an entry, by its prior state and its role. -/
def undoDeed (e : InstallJournalEntryV1) : Verb × InstallRoleV1 :=
  match e.priorState with
  | .priorOwned _ _ => (.restore, e.role)
  | .absent => if e.role ∈ [.stateRoot, .installRoot, .transactionsRoot] then (.retain, e.role) else (.remove, e.role)

theorem rollbackActionOf_deed (e : InstallJournalEntryV1) (step : Nat) (cur : InstallObjectIdentityV1) :
    (rollbackActionOf e step cur).deed = undoDeed e := by
  unfold rollbackActionOf undoDeed
  cases e.priorState with
  | priorOwned identity backup => rfl
  | absent =>
    have hret : e.role.isJournalRetentionDirectory = true ↔
        e.role ∈ [InstallRoleV1.stateRoot, .installRoot, .transactionsRoot] := by
      cases e.role <;> simp [InstallRoleV1.isJournalRetentionDirectory]
    by_cases h : e.role.isJournalRetentionDirectory = true
    · simp only [if_pos h, if_pos (hret.mp h)]
      rfl
    · simp only [if_neg h, if_neg (fun hmem => h (hret.mpr hmem))]
      rfl

def InstallJournalEntryV1.asRolledBack (e : InstallJournalEntryV1) : InstallJournalEntryV1 :=
  {e with phase := .rolledBack}

theorem rollbackStep_eq {j : InstallJournalV1} {front rest : List InstallJournalEntryV1}
    {e : InstallJournalEntryV1} (hok : EntriesOk j.entries) (hstate : j.state = .rollingBack)
    (hpossible : j.rollbackPossible = true) (hsplit : j.entries = front ++ e :: rest)
    (hrest : ∀ x ∈ rest, x.inForce = false) (he : e.inForce = true) (hstep : j.durableStep + 1 < u64Bound) :
    rollbackStep j = some (undoDeed e, j.at (front ++ e.asRolledBack :: rest) (j.durableStep + 1)) := by
  obtain ⟨cur, hcur⟩ := InstallJournalEntryV1.currentIdentity_of_validate (hok.valid e (by rw [hsplit]; simp))
    (InstallJournalEntryV1.phase_ne_pending_of_inForce he)
  have hnext := nextRollbackAction_split hstate hpossible hsplit hrest he hstep
  rw [hcur, Option.map_some] at hnext
  unfold rollbackStep
  rw [hnext]
  simp only []
  rw [recordRollbackCompleted_eq hok hstate hpossible hsplit hrest he hcur hstep, moved_eq_at hstate,
    rollbackActionOf_deed]
  rfl

/-- The way back over the entries in force, from the last one. -/
theorem drive_back (kept : List InstallJournalEntryV1) :
    ∀ (rest : List InstallJournalEntryV1) (j : InstallJournalV1) (i : Nat), j.state = .rollingBack →
      j.rollbackPossible = true → j.entries = kept ++ rest → EntriesOk j.entries →
      (∀ e ∈ kept, e.inForce = true) → (∀ e ∈ rest, e.inForce = false) → j.durableStep + i < u64Bound →
      i ≤ kept.length →
      ∃ undone, undone.length = i ∧ (∀ e ∈ undone, e.inForce = false) ∧
        drive rollbackStep i j = some ((kept.reverse.map undoDeed).take i,
          j.at (kept.take (kept.length - i) ++ (undone ++ rest)) (j.durableStep + i)) := by
  induction kept using List.reverseRecOn with
  | nil =>
    intro rest j i _ _ hsplit _ _ _ _ hi
    obtain rfl : i = 0 := by simpa using hi
    exact ⟨[], rfl, by simp, by simp [drive, at_self (show j.entries = rest from hsplit)]⟩
  | append_singleton front e ih =>
    intro rest j i hstate hpossible hsplit hok hkept hrest hbound hi
    match i with
    | 0 =>
      refine ⟨[], rfl, by simp, ?_⟩
      rw [Nat.sub_zero, List.take_length, List.nil_append, Nat.add_zero, at_self hsplit]
      rfl
    | i + 1 =>
      have he := hkept e (by simp)
      rw [List.append_assoc, List.singleton_append] at hsplit
      have hstep := rollbackStep_eq hok hstate hpossible hsplit hrest he (by omega)
      rw [hsplit] at hok
      have hvalid : e.asRolledBack.validate = .ok () :=
        InstallJournalEntryV1.validate_withPhase (hok.valid e (by simp))
          (InstallJournalEntryV1.phase_ne_pending_of_inForce he) (by simp)
      obtain ⟨undone, hlen, hout, hdrive⟩ := ih (e.asRolledBack :: rest)
        (j.at (front ++ e.asRolledBack :: rest) (j.durableStep + 1)) i hstate hpossible rfl
        (hok.replace rfl hvalid) (fun x hx => hkept x (by simp [hx]))
        (by
          intro x hx
          rcases List.mem_cons.mp hx with rfl | hx
          · rfl
          · exact hrest x hx)
        (by show j.durableStep + 1 + i < u64Bound; omega) (by simp at hi; omega)
      refine ⟨undone ++ [e.asRolledBack], by simp [hlen], ?_, ?_⟩
      · intro x hx
        rcases List.mem_append.mp hx with hx | hx
        · exact hout x hx
        · rw [List.mem_singleton.mp hx]
          rfl
      · rw [drive_succ hstep hdrive]
        have hle : i ≤ front.length := by simpa using hi
        simp only [List.reverse_append, List.reverse_cons, List.reverse_nil, List.nil_append, List.singleton_append,
          List.map_cons, List.take_succ_cons, List.length_append, List.length_cons, List.length_nil,
          InstallJournalV1.at, List.append_assoc, Option.some.injEq, Prod.mk.injEq, true_and]
        have htake : (front ++ [e]).take (front.length + (0 + 1) - (i + 1)) = front.take (front.length - i) := by
          rw [show front.length + (0 + 1) - (i + 1) = front.length - i by omega,
            List.take_append_of_le_length (Nat.sub_le _ _)]
        rw [htake]
        congr 1
        omega

/-! ### From the start -/

/-- The entry comes out of one of the three constructors. -/
def Built (e : InstallJournalEntryV1) : Prop :=
  (∃ role intended, InstallJournalEntryV1.absentDirectory role intended = .ok e) ∨
    (∃ role intended sibling, InstallJournalEntryV1.absentFile role intended sibling = .ok e) ∨
    (∃ role intended sibling backup prior,
      InstallJournalEntryV1.priorOwnedFile role intended sibling backup prior = .ok e)

theorem Built.spec {e : InstallJournalEntryV1} (h : Built e) : e.validate = .ok () ∧ e.phase = .pending := by
  have hnew : ∀ role intended sibling prior, InstallJournalEntryV1.new role intended sibling prior = .ok e →
      e.validate = .ok () ∧ e.phase = .pending := by
    intro role intended sibling prior h
    unfold InstallJournalEntryV1.new at h
    obtain ⟨hvalid, hret⟩ := bind_unit_eq_ok.mp h
    cases hret
    exact ⟨hvalid, rfl⟩
  rcases h with ⟨role, intended, h⟩ | ⟨role, intended, sibling, h⟩ | ⟨role, intended, sibling, backup, prior, h⟩
  · exact hnew _ _ _ _ h
  · exact hnew _ _ _ _ h
  · exact hnew _ _ _ _ h

/-- Sorting entries of distinct roles makes a valid entry list of them. -/
theorem entriesOk_sortEntries {entries : List InstallJournalEntryV1} (hne : entries ≠ [])
    (hvalid : ∀ e ∈ entries, e.validate = .ok ()) (hroles : (entries.map (·.role)).Nodup) :
    EntriesOk (sortEntries entries) := by
  have hperm := List.perm_insertionSort (fun a b : InstallJournalEntryV1 => a.role.installOrder ≤ b.role.installOrder)
    entries
  refine ⟨fun h => hne ?_, fun e he => hvalid e (sortEntries_mem.mp he), ?_⟩
  · rw [sortEntries] at h
    rw [h] at hperm
    exact hperm.nil_eq.symm
  · have hsorted : (sortEntries entries).Pairwise (fun a b => a.role.installOrder ≤ b.role.installOrder) :=
      List.pairwise_insertionSort (r := fun a b : InstallJournalEntryV1 => a.role.installOrder ≤ b.role.installOrder) entries
    have hdistinct : (sortEntries entries).Pairwise (fun a b => a.role ≠ b.role) := by
      have := ((hperm.map (·.role)).nodup_iff).mpr hroles
      rwa [List.Nodup, List.pairwise_map] at this
    exact (hsorted.and hdistinct).imp fun {a b} h =>
      Nat.lt_of_le_of_ne h.1 fun heq => h.2 (InstallRoleV1.installOrder_injective heq)

/-- In install order no entry comes before a directory it lies in. -/
theorem EntriesOk.sorted_under {entries : List InstallJournalEntryV1} (h : EntriesOk entries) :
    entries.Pairwise (fun a b => a.role.installOrder < b.role.installOrder ∧ ¬InstallRoleV1.Under a.role b.role) := by
  refine h.sorted.imp ?_
  intro a b hlt
  exact ⟨hlt, fun hunder => Nat.lt_asymm hlt (InstallRoleV1.installOrder_lt_of_under _ _ hunder).2⟩

/-- After any number of steps the entries in force are a first part of the list. -/
theorem progressed_split (obs : Observations) (entries : List InstallJournalEntryV1) (h : AllIn .pending entries)
    (k : Nat) : ∃ kept rest, progressed obs entries k = kept ++ rest ∧ (∀ e ∈ kept, e.inForce = true) ∧
      (∀ e ∈ rest, e.inForce = false) := by
  have hpending : ∀ {es}, AllIn .pending es → ∀ e ∈ es, e.inForce = false :=
    fun hall e he => by simp [InstallJournalEntryV1.inForce, hall e he]
  induction entries generalizing k with
  | nil => exact ⟨[], [], rfl, by simp, by simp⟩
  | cons e rest ih =>
    obtain ⟨-, hrest⟩ := allIn_cons.mp h
    obtain _ | _ | k := k
    · exact ⟨[], e :: rest, rfl, by simp, hpending h⟩
    · exact ⟨[e.asApplied (obs.current e.role) (obs.parent e.role)], rest, rfl,
        by simp [InstallJournalEntryV1.asApplied, InstallJournalEntryV1.inForce], hpending hrest⟩
    · obtain ⟨kept, tail, hsplit, hkept, htail⟩ := ih hrest k
      refine ⟨e.asVerified obs :: kept, tail, by rw [progressed, hsplit]; rfl, ?_, htail⟩
      simp only [List.mem_cons, forall_eq_or_imp]
      exact ⟨rfl, hkept⟩

theorem progressed_all (obs : Observations) (entries : List InstallJournalEntryV1) :
    AllIn .verified (progressed obs entries (2 * entries.length)) := by
  induction entries with
  | nil => exact allIn_nil
  | cons e rest ih =>
    rw [List.length_cons, show 2 * (rest.length + 1) = 2 * rest.length + 2 by omega, progressed]
    exact allIn_cons.mpr ⟨rfl, ih⟩

/-- A rollback that begins here takes back the entries in force, the last one first,
each with its own deed, and completes; every operation is one durable step. -/
def RollsBackExactly (j : InstallJournalV1) : Prop :=
  ∃ begun, j.beginRollback = (.ok (), begun) ∧ begun.durableStep = j.durableStep + 1 ∧
    ∀ i ≤ (j.entries.filter (·.inForce)).length, ∃ last,
      drive rollbackStep i begun = some (((j.entries.filter (·.inForce)).reverse.map undoDeed).take i, last) ∧
      last.durableStep = j.durableStep + 1 + i ∧
      (i = (j.entries.filter (·.inForce)).length → last.nextRollbackAction = none ∧
        ∃ final, last.markRolledBack = (.ok (), final) ∧ final.durableStep = j.durableStep + 1 + i + 1)

theorem nextRollbackAction_none {j : InstallJournalV1} (h : ∀ e ∈ j.entries, e.inForce = false) :
    j.nextRollbackAction = none := by
  have hfind : j.entries.reverse.find? (·.inForce) = none :=
    List.find?_eq_none.mpr fun e he => by simp [h e (List.mem_reverse.mp he)]
  unfold nextRollbackAction
  simp [hfind]

theorem rollsBackExactly {j : InstallJournalV1} {kept rest : List InstallJournalEntryV1}
    (hstate : j.state = .applying ∨ j.state = .installed) (hpossible : j.rollbackPossible = true)
    (hok : EntriesOk j.entries) (hsplit : j.entries = kept ++ rest) (hkept : ∀ e ∈ kept, e.inForce = true)
    (hrest : ∀ e ∈ rest, e.inForce = false) (hbound : j.durableStep + 35 < u64Bound) : RollsBackExactly j := by
  have hfilter : j.entries.filter (·.inForce) = kept := by
    rw [hsplit, List.filter_append, List.filter_eq_self.mpr hkept,
      List.filter_eq_nil_iff.mpr (fun e he => by simp [hrest e he]), List.append_nil]
  have hlen : kept.length ≤ 32 := by
    have := hok.length_le
    rw [hsplit, List.length_append] at this
    omega
  refine ⟨_, beginRollback_eq (by tauto) hpossible (by omega), rfl, ?_⟩
  rw [hfilter]
  intro i hi
  obtain ⟨undone, -, hout, hdrive⟩ := drive_back kept rest (j.moved .rollingBack j.entries) i rfl hpossible hsplit hok
    hkept hrest (by show j.durableStep + 1 + i < u64Bound; omega) hi
  refine ⟨_, hdrive, rfl, ?_⟩
  rintro rfl
  generalize hlast : (j.moved .rollingBack j.entries).at
    (kept.take (kept.length - kept.length) ++ (undone ++ rest))
    ((j.moved .rollingBack j.entries).durableStep + kept.length) = last
  have hnone : last.nextRollbackAction = none := by
    apply nextRollbackAction_none
    intro e he
    subst hlast
    simp only [InstallJournalV1.at, Nat.sub_self, List.take_zero, List.nil_append] at he
    rcases List.mem_append.mp he with he | he
    · exact hout e he
    · exact hrest e he
  have hstep : last.durableStep = j.durableStep + 1 + kept.length := by
    subst hlast
    rfl
  have hrolling : last.state = .rollingBack := by
    subst hlast
    rfl
  refine ⟨hnone, _, markRolledBack_eq hrolling hnone (by omega), ?_⟩
  show last.durableStep + 1 = _
  rw [hstep]

theorem nextForwardAction_none {j : InstallJournalV1} (h : AllIn .verified j.entries) :
    j.nextForwardAction = none := by
  have hfind : j.entries.find? (·.phase != .verified) = none :=
    List.find?_eq_none.mpr fun e he => by simp [h e he]
  unfold nextForwardAction
  simp [hfind]

/-- **Runs of a journal.** For all bindings and all distinct entries, given in any
order: the forward run applies and then verifies each entry once, in increasing install
order, so that no entry comes before a directory it lies in; after any number `k` of its
steps a rollback takes back exactly the entries in force; and the step counter counts
the operations throughout. -/
theorem journal_run_exact (b : InstallJournalBindingsV1) (entries : List InstallJournalEntryV1)
    (obs : Observations) (hne : entries ≠ []) (hbuilt : ∀ e ∈ entries, Built e)
    (hroles : (entries.map (·.role)).Nodup)
    (hseen : ∀ e ∈ entries, Acceptable e (obs.current e.role) (obs.parent e.role)) :
    (sortEntries entries).Perm entries ∧
    (sortEntries entries).Pairwise (fun a b => a.role.installOrder < b.role.installOrder ∧
      ¬InstallRoleV1.Under a.role b.role) ∧
    ∃ prepared started, (InstallJournalV1.new b).prepare entries = (.ok (), prepared) ∧ prepared.durableStep = 1 ∧
      prepared.startApplying = (.ok (), started) ∧ started.durableStep = 2 ∧
      ∀ k ≤ 2 * entries.length, ∃ last,
        drive (forwardStep obs) k started = some ((forwardDeeds (sortEntries entries)).take k, last) ∧
        last.durableStep = 2 + k ∧ RollsBackExactly last ∧
        (k = 2 * entries.length → last.nextForwardAction = none ∧
          ∃ installed, last.markInstalled = (.ok (), installed) ∧ installed.durableStep = 3 + k ∧
            RollsBackExactly installed) := by
  have hok := entriesOk_sortEntries hne (fun e he => (hbuilt e he).spec.1) hroles
  have hpending : AllIn .pending (sortEntries entries) := fun e he => (hbuilt e (sortEntries_mem.mp he)).spec.2
  have hperm : (sortEntries entries).Perm entries := List.perm_insertionSort _ entries
  refine ⟨hperm, hok.sorted_under, ?_⟩
  have hprepare : (InstallJournalV1.new b).prepare entries =
      (.ok (), (InstallJournalV1.new b).moved .prepared (sortEntries entries)) := by
    unfold prepare
    rw [(validateEntries_iff _).mpr hok]
    rfl
  refine ⟨_, _, hprepare, rfl, rfl, rfl, ?_⟩
  intro k hk
  have hcount := hok.length_le
  rw [hperm.length_eq] at hcount
  have hbound : 2 + k + 36 < u64Bound := by unfold u64Bound; omega
  obtain ⟨hokk, hdrive⟩ := drive_forward obs (sortEntries entries) []
    (((InstallJournalV1.new b).moved .prepared (sortEntries entries)).moved .applying (sortEntries entries)) k rfl rfl hok
    allIn_nil hpending (fun e he => hseen e (sortEntries_mem.mp he)) (by show 2 + k < u64Bound; omega)
    (by rw [hperm.length_eq]; exact hk)
  obtain ⟨kept, rest, hsplit, hkept, hrest⟩ := progressed_split obs (sortEntries entries) hpending k
  refine ⟨_, hdrive, rfl, rollsBackExactly (.inl rfl) rfl hokk hsplit hkept hrest (Nat.lt_of_succ_lt hbound), ?_⟩
  rintro rfl
  have hall : AllIn .verified (progressed obs (sortEntries entries) (2 * entries.length)) := by
    rw [← hperm.length_eq]
    exact progressed_all obs _
  have hnone := nextForwardAction_none (j := (((InstallJournalV1.new b).moved .prepared
    (sortEntries entries)).moved .applying (sortEntries entries)).at
      ([] ++ progressed obs (sortEntries entries) (2 * entries.length)) (2 + 2 * entries.length))
      (by simpa [InstallJournalV1.at] using hall)
  refine ⟨hnone, _, markInstalled_eq rfl hnone hokk.nonempty ?_, ?_, ?_⟩
  · show 2 + 2 * entries.length + 1 < u64Bound
    omega
  · show 2 + 2 * entries.length + 1 = 3 + 2 * entries.length
    omega
  · refine rollsBackExactly (.inr rfl) rfl hokk hsplit hkept hrest ?_
    show 2 + 2 * entries.length + 1 + 35 < u64Bound
    omega

/-- What a run of the sampled entry sees at its path. -/
def sampleObservations : Observations where
  current := fun _ => ⟨.regularFile, 1, 2, 1, some (sampleHex 64), 0o755, 0, 0⟩
  parent := fun _ => none

theorem built_sampleEntry : Built sampleEntry :=
  .inr (.inl ⟨.cli, _, _, bind_unit_eq_ok.mpr ⟨sampleEntry_valid, rfl⟩⟩)

theorem journal_run_exact_cli :
    ∃ prepared started last, (InstallJournalV1.new sampleBindings).prepare [sampleEntry] = (.ok (), prepared) ∧
      prepared.startApplying = (.ok (), started) ∧
      drive (forwardStep sampleObservations) 2 started = some ([(.apply, .cli), (.verify, .cli)], last) ∧
      RollsBackExactly last := by
  obtain ⟨-, -, prepared, started, hprepare, -, hstart, -, hrun⟩ :=
    journal_run_exact sampleBindings [sampleEntry] sampleObservations (by simp)
      (by simpa using built_sampleEntry) (by simp)
      (fun e he => by rw [List.mem_singleton.mp he]; exact sampleEntry_acceptable)
  obtain ⟨last, hdrive, -, hback, -⟩ := hrun 2 (Nat.le_refl _)
  exact ⟨prepared, started, last, hprepare, hstart, hdrive, hback⟩

end NetworkLoop.Install
