import NetworkLoop.Tc.Foreign

/-! Detaching twice.

After a detach that has gone well the filter is gone, and the second detach should find
the hook empty and have nothing to do. `detach_repeat_iff` says when that is so: the
record must not say that the qdisc was ours, since the second detach would remove it once
more, and a hook is only empty if some priority is free on it. -/
namespace NetworkLoop.Tc
open Library

variable {σ : Type} {k : TcKernel σ} {w w' : Wire σ} {owned : OwnedTc}

/-! ### The hook without our filter -/

section Erased
variable {filters : List TcFilterSlot} {hook : TcHook} {slot : TcFilterSlot} {p : Nat} {c : Bool}

/-- Without some filter no fewer priorities are free. -/
theorem freePriority_erase (h : freePriority filters hook = some p) : (freePriority (filters.erase slot) hook).isSome := by
  rw [freePriority, List.find?_isSome]
  refine ⟨p, List.mem_of_find?_eq_some h, ?_⟩
  have hfree := (freePriority_spec h).2.2
  rw [priorityTaken, List.any_eq_false] at hfree
  rw [priorityTaken, Bool.not_eq_true', List.any_eq_false]
  exact fun x hx => hfree x (List.mem_of_mem_erase hx)

theorem reservedSlots_erase (h : reservedSlots filters hook = [slot]) : reservedSlots (filters.erase slot) hook = [] := by
  rw [reservedSlots, ← List.erase_filter]
  rw [reservedSlots] at h
  rw [h, List.erase_cons_head]

variable {inventory : TcInventory}

/-- Without our filter the hook is empty, where a priority is free. -/
theorem emptyHook_erased (h : classifyInventory inventory owned.hook (some owned) = .owned) :
    (∃ p c, EmptyHook ⟨inventory.clsact, inventory.filters.erase (.bpf owned.identity)⟩ owned.hook p c) ↔
      (freePriority (inventory.filters.erase (.bpf owned.identity)) owned.hook).isSome := by
  obtain ⟨hknown, hbare, hreserved⟩ := classify_eq_owned.mp h
  constructor
  · rintro ⟨p, c, hempty⟩
    rw [hempty.priority]
    rfl
  · intro hfree
    obtain ⟨p, hp⟩ := Option.isSome_iff_exists.mp hfree
    refine ⟨p, _, ?_, fun habsent => ?_, reservedSlots_erase hreserved, hp, rfl⟩
    · rw [TcInventory.hasUnknown, Bool.or_eq_false_iff, List.any_eq_false] at hknown
      rw [TcInventory.hasUnknown, Bool.or_eq_false_iff, List.any_eq_false]
      exact ⟨hknown.1, fun x hx => hknown.2 x (List.mem_of_mem_erase hx)⟩
    · rw [hbare habsent]
      rfl

end Erased

/-! ### The first detach -/

theorem queryOrUnknown_ok (hk : k.Behaves) {i : Nat} {found : TcInventory}
    (h : SafeTc.queryOrUnknown (rtnetlinkTcIo k) i w = (.ok found, w')) : w' = w ∧ found = k.inventory w.now i := by
  obtain ⟨hfound, heq⟩ := Effect.ask_eq_ok.mp (Effect.orElseError_eq_ok.mp h)
  exact ⟨heq, hk.query _ _ _ hfound⟩

theorem removeClsactIfEmptyExact_ok (hk : k.Behaves) {i : Nat}
    (h : (rtnetlinkTcIo k).removeClsactIfEmptyExact i w = (.ok (), w')) : k.inventory w'.now i = ⟨.absent, []⟩ := by
  obtain ⟨current, between, -, hrest⟩ := Effect.bind_eq_ok.mp h
  split at hrest
  case isTrue => cases hrest
  case isFalse =>
    obtain ⟨hdeleted, rfl⟩ := Prod.mk.inj hrest
    exact (hk.deleteQdisc _ _ _ (Prod.ext hdeleted rfl)).2.1

theorem removeCreatedClsact_completed (hk : k.Behaves) {i : Nat}
    (h : SafeTc.removeCreatedClsact (rtnetlinkTcIo k) i w = (.completed, w')) : k.inventory w'.now i = ⟨.absent, []⟩ := by
  rw [SafeTc.removeCreatedClsact] at h
  split at h
  case h_1 hrun =>
    cases h
    exact removeClsactIfEmptyExact_ok hk hrun
  all_goals cases h

theorem detachExact_ok (hk : k.Behaves) {identity : TcKernelIdentity} (h : (rtnetlinkTcIo k).detachExact identity w = (.ok (), w'))
    (hmem : .bpf identity ∈ (k.inventory w.now identity.ifindex).filters) :
    k.inventory w'.now identity.ifindex =
      ⟨(k.inventory w.now identity.ifindex).clsact, (k.inventory w.now identity.ifindex).filters.erase (.bpf identity)⟩ := by
  obtain ⟨current, between, hquery, hrest⟩ := Effect.bind_eq_ok.mp h
  obtain ⟨-, rfl⟩ := Effect.ask_eq_ok.mp hquery
  split at hrest
  case isTrue => cases hrest
  case isFalse =>
    obtain ⟨hdeleted, rfl⟩ := Prod.mk.inj hrest
    exact (hk.deleteFilter _ _ _ hmem (Prod.ext hdeleted rfl)).1

/-- How a detach goes well, and what it leaves on the interface. -/
inductive WentWell (owned : OwnedTc) (before after : TcInventory) : Prop where
  /-- The qdisc was ours and has gone. -/
  | bare (created : owned.createdClsact = true) (here : after = ⟨.absent, []⟩)
  | absent (created : owned.createdClsact = false) (same : after = before) (empty : ∃ p c, EmptyHook before owned.hook p c)
  | detached (created : owned.createdClsact = false) (was : classifyInventory before owned.hook (some owned) = .owned)
      (erased : after = ⟨before.clsact, before.filters.erase (.bpf owned.identity)⟩)

theorem detach_wentWell (hk : k.Behaves) {outcome : TcDetachOutcome}
    (h : SafeTc.detach (rtnetlinkTcIo k) owned w = (.ok outcome, w')) (hgone : outcome ≠ .retainedIdentityMismatch) :
    WentWell owned (k.inventory w.now owned.ifindex) (k.inventory w'.now owned.ifindex) := by
  obtain ⟨current, between, hquery, hrest⟩ := Effect.bind_eq_ok.mp h
  obtain ⟨heq, hfound⟩ := queryOrUnknown_ok hk hquery
  rw [heq, hfound] at hrest
  cases hclass : classifyInventory (k.inventory w.now owned.ifindex) owned.hook (some owned) with
  | empty p c =>
    rw [hclass] at hrest
    dsimp only at hrest
    rw [SafeTc.detachAbsent] at hrest
    split at hrest
    case isTrue hcreated =>
      split at hrest
      case h_1 hremove =>
        cases hrest
        exact .bare hcreated (removeCreatedClsact_completed hk hremove)
      case h_2 => cases hrest
    case isFalse hcreated =>
      cases hrest
      exact .absent (by simpa using hcreated) rfl ⟨p, c, classify_eq_empty.mp hclass⟩
  | owned =>
    rw [hclass] at hrest
    dsimp only at hrest
    rw [SafeTc.detachOwned] at hrest
    split at hrest
    case h_1 => cases hrest
    case h_2 t' hdetach =>
      have hmem := mem_of_classify_owned hclass
      split at hrest
      case isTrue hcreated =>
        split at hrest
        case h_1 hremove =>
          cases hrest
          exact .bare hcreated (removeCreatedClsact_completed hk hremove)
        case h_2 => cases hrest
      case isFalse hcreated =>
        cases hrest
        exact .detached (by simpa using hcreated) hclass (detachExact_ok hk hdetach hmem)
  | foreign =>
    rw [hclass] at hrest
    cases hrest
    exact absurd rfl hgone
  | unknown =>
    rw [hclass] at hrest
    cases hrest

/-- Where its filter is there, a detach does not find it absent. -/
theorem detachOwned_ne : SafeTc.detachOwned (rtnetlinkTcIo k) owned w ≠ (.ok .alreadyAbsent, w') := by
  intro h
  rw [SafeTc.detachOwned] at h
  split at h
  case h_1 => cases h
  case h_2 =>
    split at h
    case isTrue => split at h <;> cases h
    case isFalse => cases h

/-! ### The second detach -/

section Again
variable (hanswers : k.queryInventory owned.ifindex w.now = .ok (k.inventory w.now owned.ifindex))
include hanswers

theorem queryOrUnknown_answers :
    SafeTc.queryOrUnknown (rtnetlinkTcIo k) owned.ifindex w = (.ok (k.inventory w.now owned.ifindex), w) := by
  apply Effect.orElseError_eq_ok.mpr
  show (k.queryInventory owned.ifindex w.now, w) = _
  rw [hanswers]

/-- The qdisc is to be removed once more, and is not there. -/
theorem detach_bare (hcreated : owned.createdClsact = true) (hbare : k.inventory w.now owned.ifindex = ⟨.absent, []⟩) :
    SafeTc.detach (rtnetlinkTcIo k) owned w = (.error (.new tcClsactRemoveFailed
      "transaction-created clsact was retained after its filter disappeared"), w) := by
  have hclass : ∃ p c, classifyInventory ⟨.absent, []⟩ owned.hook (some owned) = .empty p c := by
    cases owned.hook with
    | ingress => exact ⟨_, _, rfl⟩
    | egress => exact ⟨_, _, rfl⟩
  obtain ⟨p, c, hclass⟩ := hclass
  have hremove : SafeTc.removeCreatedClsact (rtnetlinkTcIo k) owned.ifindex w = (.retainedIdentityMismatch, w) := by
    have hquery := hanswers
    rw [hbare] at hquery
    simp [SafeTc.removeCreatedClsact, rtnetlinkTcIo, RtnetlinkTcIo.removeClsactIfEmptyExact, RtnetlinkTcIo.query, bind,
      Effect.ask, hquery]
  simp only [SafeTc.detach, bind, queryOrUnknown_answers hanswers, hbare, hclass, SafeTc.detachAbsent, hcreated, if_true, hremove]

/-- Nothing is to be done where the hook is empty, and nowhere else. -/
theorem detach_eq_alreadyAbsent (hcreated : owned.createdClsact = false) :
    (∃ w', SafeTc.detach (rtnetlinkTcIo k) owned w = (.ok .alreadyAbsent, w') ∧ k.inventory w'.now = k.inventory w.now) ↔
      ∃ p c, EmptyHook (k.inventory w.now owned.ifindex) owned.hook p c := by
  simp only [← @classify_eq_empty _ _ (some owned), SafeTc.detach, bind, queryOrUnknown_answers hanswers]
  cases hclass : classifyInventory (k.inventory w.now owned.ifindex) owned.hook (some owned) with
  | empty p c => simp [SafeTc.detachAbsent, hcreated]
  | owned => simp [detachOwned_ne]
  | foreign => simp [pure]
  | unknown => simp [Effect.ask]

end Again

/-- **When a detach may be repeated.** -/
theorem detach_repeat_iff (hk : k.Behaves) {outcome : TcDetachOutcome}
    (h : SafeTc.detach (rtnetlinkTcIo k) owned w = (.ok outcome, w')) (hgone : outcome = .detached ∨ outcome = .alreadyAbsent)
    (hanswers : k.queryInventory owned.ifindex w'.now = .ok (k.inventory w'.now owned.ifindex)) :
    (∃ w'', SafeTc.detach (rtnetlinkTcIo k) owned w' = (.ok .alreadyAbsent, w'') ∧ k.inventory w''.now = k.inventory w'.now) ↔
      owned.createdClsact = false ∧
        (freePriority ((k.inventory w.now owned.ifindex).filters.erase (.bpf owned.identity)) owned.hook).isSome := by
  have hwell := detach_wentWell hk h (by rcases hgone with rfl | rfl <;> simp)
  cases hwell with
  | bare hcreated hbare =>
    rw [detach_bare hanswers hcreated hbare, hcreated]
    simp
  | absent hcreated hsame hempty =>
    rw [detach_eq_alreadyAbsent hanswers hcreated, hsame, hcreated]
    obtain ⟨p, c, hempty⟩ := hempty
    exact iff_of_true ⟨p, c, hempty⟩ ⟨rfl, freePriority_erase hempty.priority⟩
  | detached hcreated hclass herased =>
    rw [detach_eq_alreadyAbsent hanswers hcreated, herased, emptyHook_erased hclass, hcreated]
    simp

/-- The record of an attach that has created the qdisc, and what it left. -/
def createdRecord : OwnedTc := ⟨3, .ingress, 49600, tcIngressHandle, 7, true⟩

/-- The same, where the qdisc was there before. -/
def keptRecord : OwnedTc := { createdRecord with createdClsact := false }

def createdPort : Nat → TcInventory := fun i =>
  if i = 3 then ⟨.present, [.bpf createdRecord.identity]⟩ else ⟨.absent, []⟩

theorem detach_repeat_iff_kept : ∃ w' w'',
    SafeTc.detach (rtnetlinkTcIo plainKernel) keptRecord ⟨createdPort, []⟩ = (.ok .detached, w') ∧
      SafeTc.detach (rtnetlinkTcIo plainKernel) keptRecord w' = (.ok .alreadyAbsent, w'') ∧
        plainKernel.inventory w''.now = plainKernel.inventory w'.now := by
  obtain ⟨w'', hagain⟩ := (@detach_repeat_iff _ _ ⟨createdPort, []⟩ _ keptRecord plainKernel_behaves
    _ rfl (.inl rfl) rfl).mpr ⟨rfl, rfl⟩
  exact ⟨_, w'', rfl, hagain⟩

/-- Whoever has created the qdisc cannot detach twice. -/
theorem detach_twice_failed : ∃ w',
    SafeTc.detach (rtnetlinkTcIo plainKernel) createdRecord ⟨createdPort, []⟩ = (.ok .detached, w') ∧
      SafeTc.detach (rtnetlinkTcIo plainKernel) createdRecord w' = (.error (.new tcClsactRemoveFailed
        "transaction-created clsact was retained after its filter disappeared"), w') :=
  ⟨_, rfl, rfl⟩

end NetworkLoop.Tc
