import NetworkLoop.Tc.SafeTc

/-! Other people's filters.

A hook is taken for empty only where no filter has the reserved handle, and the priority
of the new filter is one that no filter has. So the new filter is found again whatever
else stands on the interface (`classify_inserted`), and taking it away leaves what was
there. `attach_detach_frame` follows a whole run, state by state. -/
namespace NetworkLoop.Tc
open Library

/-! ### Classification -/

section Classify
variable {inventory : TcInventory} {hook : TcHook} {owned : Option OwnedTc} {filters front rest : List TcFilterSlot}

theorem freePriority_spec {p : Nat} (h : freePriority filters hook = some p) :
    tcPriorityFirst ≤ p ∧ p ≤ tcPriorityLast ∧ priorityTaken filters hook p = false := by
  have hfree := List.find?_some h
  have hmem := List.mem_range'_1.mp (List.mem_of_find?_eq_some h)
  have hlast : tcPriorityFirst + (tcPriorityLast - tcPriorityFirst + 1) = tcPriorityLast + 1 := rfl
  rw [hlast] at hmem
  exact ⟨hmem.1, Nat.le_of_lt_succ hmem.2, by simpa using hfree⟩

/-- What an empty hook is. -/
structure EmptyHook (inventory : TcInventory) (hook : TcHook) (p : Nat) (clsactPresent : Bool) : Prop where
  known : inventory.hasUnknown = false
  bare : inventory.clsact = .absent → inventory.filters = []
  reserved : reservedSlots inventory.filters hook = []
  priority : freePriority inventory.filters hook = some p
  clsact : clsactPresent = (inventory.clsact == .present)

/-- What `classify_inventory` asks of an inventory first. -/
theorem readable_iff : (inventory.hasUnknown || inventory.clsact == .absent && !inventory.filters.isEmpty) = false ↔
    inventory.hasUnknown = false ∧ (inventory.clsact = .absent → inventory.filters = []) := by
  rw [Bool.or_eq_false_iff]
  refine and_congr_right fun _ => ?_
  cases inventory.clsact with
  | absent => simp
  | present => simp
  | unknown => simp

theorem classify_eq_empty {p : Nat} {c : Bool} : classifyInventory inventory hook owned = .empty p c ↔ EmptyHook inventory hook p c := by
  rw [classifyInventory]
  constructor
  · intro h
    split at h
    case isTrue => cases h
    case isFalse hunknown =>
      have hknown := readable_iff.mp (Bool.eq_false_of_not_eq_true hunknown)
      split at h
      case h_1 => split at h <;> cases h
      case h_2 => cases h
      case h_3 hreserved =>
        split at h
        case h_1 found hfound =>
          cases h
          exact ⟨hknown.1, hknown.2, hreserved, hfound, rfl⟩
        case h_2 => cases h
  · rintro ⟨hknown, hbare, hreserved, hpriority, rfl⟩
    rw [readable_iff.mpr ⟨hknown, hbare⟩, hreserved, hpriority]
    rfl

/-- Something on the hook with the reserved handle, one filter of ours and no other. -/
theorem classify_eq_owned {record : OwnedTc} : classifyInventory inventory hook (some record) = .owned ↔
    inventory.hasUnknown = false ∧ (inventory.clsact = .absent → inventory.filters = []) ∧
      reservedSlots inventory.filters hook = [.bpf record.identity] := by
  rw [classifyInventory]
  constructor
  · intro h
    split at h
    case isTrue => cases h
    case isFalse hunknown =>
      have hknown := readable_iff.mp (Bool.eq_false_of_not_eq_true hunknown)
      split at h
      case h_1 identity hreserved =>
        split at h
        case isTrue hmatch =>
          have heq : record.identity = identity := by simpa [OwnedTc.matches] using hmatch
          exact ⟨hknown.1, hknown.2, heq ▸ hreserved⟩
        case isFalse => cases h
      case h_2 => cases h
      case h_3 => split at h <;> cases h
  · rintro ⟨hknown, hbare, hreserved⟩
    rw [readable_iff.mpr ⟨hknown, hbare⟩, hreserved]
    simp [OwnedTc.matches]

/-- Our filter is there. -/
theorem mem_of_classify_owned {record : OwnedTc} (h : classifyInventory inventory hook (some record) = .owned) :
    TcFilterSlot.bpf record.identity ∈ inventory.filters := by
  have hslot : TcFilterSlot.bpf record.identity ∈ reservedSlots inventory.filters hook := by
    rw [(classify_eq_owned.mp h).2.2]
    exact List.mem_singleton_self _
  exact List.mem_of_mem_filter hslot

/-- A filter of the hook with a free priority is not there yet. -/
theorem not_mem_of_free {identity : TcKernelIdentity} (h : priorityTaken filters identity.hook identity.priority = false) :
    TcFilterSlot.bpf identity ∉ filters := by
  intro hmem
  rw [priorityTaken, List.any_eq_false] at h
  exact h _ hmem (by simp [TcFilterSlot.hook, TcFilterSlot.priority])

theorem reservedSlots_inserted {identity : TcKernelIdentity} (hhook : identity.hook = hook)
    (hhandle : identity.handle = handleFor hook) (h : reservedSlots (front ++ rest) hook = []) :
    reservedSlots (front ++ .bpf identity :: rest) hook = [.bpf identity] := by
  rw [reservedSlots, List.filter_append, List.append_eq_nil_iff] at h
  rw [reservedSlots, List.filter_append, List.filter_cons_of_pos (by simp [TcFilterSlot.hook, TcFilterSlot.handle, hhook, hhandle]),
    h.1, h.2]
  rfl

/-- **The new filter is found again**, whatever else stands there. -/
theorem classify_inserted {p : Nat} {c : Bool} {record : OwnedTc} {identity : TcKernelIdentity}
    (h : EmptyHook inventory hook p c) (hfilters : inventory.filters = front ++ rest) (hhook : identity.hook = hook)
    (hhandle : identity.handle = handleFor hook) :
    classifyInventory ⟨.present, front ++ .bpf identity :: rest⟩ hook (some record) = .owned ↔ identity = record.identity := by
  have hreserved := h.reserved
  rw [hfilters] at hreserved
  have hknown : (TcInventory.mk .present (front ++ .bpf identity :: rest)).hasUnknown = false := by
    have hall := h.known
    rw [TcInventory.hasUnknown, hfilters, Bool.or_eq_false_iff, List.any_append, Bool.or_eq_false_iff] at hall
    rw [TcInventory.hasUnknown, List.any_append, List.any_cons, hall.2.1, hall.2.2]
    rfl
  rw [classify_eq_owned, reservedSlots_inserted hhook hhandle hreserved]
  constructor
  · rintro ⟨-, -, heq⟩
    exact TcFilterSlot.bpf.inj (List.cons.inj heq).1
  · rintro rfl
    exact ⟨hknown, fun hno => (by cases hno), rfl⟩

end Classify

/-! ### What a run leaves alone -/

variable {σ : Type} {k : TcKernel σ} {s₀ : σ} {ifindex : Nat} {hook : TcHook}

/-- Every foreign filter is where it was: nothing has changed on the other interfaces, and
on this one at most a filter has been added, on the hook, with the reserved handle and a
priority that was free. -/
def ForeignKept (k : TcKernel σ) (s₀ : σ) (ifindex : Nat) (hook : TcHook) (s : σ) : Prop :=
  k.Elsewhere ifindex s₀ s ∧ ((k.inventory s ifindex).filters = (k.inventory s₀ ifindex).filters ∨
    ∃ front rest identity, (k.inventory s₀ ifindex).filters = front ++ rest ∧
      (k.inventory s ifindex).filters = front ++ .bpf identity :: rest ∧ identity.ifindex = ifindex ∧ identity.hook = hook ∧
      identity.handle = handleFor hook ∧ priorityTaken (k.inventory s₀ ifindex).filters hook identity.priority = false)

/-- The same at every point of a run. -/
def KeptThroughout (k : TcKernel σ) (s₀ : σ) (ifindex : Nat) (hook : TcHook) (w : Wire σ) : Prop :=
  ∀ s ∈ w.now :: w.past, ForeignKept k s₀ ifindex hook s

/-- With these filters on the interface, and nothing else changed. -/
structure Stands (k : TcKernel σ) (s₀ : σ) (ifindex : Nat) (clsact : TcClsactState) (filters : List TcFilterSlot) (s : σ) :
    Prop where
  here : k.inventory s ifindex = ⟨clsact, filters⟩
  elsewhere : k.Elsewhere ifindex s₀ s

theorem Stands.same {s : σ} {clsact : TcClsactState} (h : Stands k s₀ ifindex clsact (k.inventory s₀ ifindex).filters s) :
    ForeignKept k s₀ ifindex hook s :=
  ⟨h.elsewhere, .inl (by rw [h.here])⟩

theorem Stands.of_eq {s s' : σ} {clsact : TcClsactState} {filters : List TcFilterSlot}
    (h : Stands k s₀ ifindex clsact filters s) (heq : k.inventory s' = k.inventory s) : Stands k s₀ ifindex clsact filters s' :=
  ⟨by rw [heq]; exact h.here, fun j hj => by rw [heq]; exact h.elsewhere j hj⟩

theorem ForeignKept.of_eq {s s' : σ} (h : ForeignKept k s₀ ifindex hook s) (heq : k.inventory s' = k.inventory s) :
    ForeignKept k s₀ ifindex hook s' := by
  rw [ForeignKept, TcKernel.Elsewhere, heq]
  exact h

theorem KeptThroughout.step {w : Wire σ} {s : σ} (h : KeptThroughout k s₀ ifindex hook w) (hs : ForeignKept k s₀ ifindex hook s) :
    KeptThroughout k s₀ ifindex hook ⟨s, w.now :: w.past⟩ := by
  intro x hx
  rcases List.mem_cons.mp hx with rfl | hx
  · exact hs
  · exact h x hx

/-- Kept so far, and now with these filters on the interface. -/
def Within (k : TcKernel σ) (s₀ : σ) (ifindex : Nat) (hook : TcHook) (clsact : TcClsactState) (filters : List TcFilterSlot)
    (w : Wire σ) : Prop :=
  KeptThroughout k s₀ ifindex hook w ∧ Stands k s₀ ifindex clsact filters w.now

/-! ### The calls of the layer below -/

section Calls
variable {clsact clsact' : TcClsactState} {filters filters' front rest : List TcFilterSlot} {identity : TcKernelIdentity}

/-- A request does what it is named for, or nothing; and the latter not where it is
`certain` to be obeyed. -/
theorem sendRequest_meets {request : σ → Except TcIoError Unit × σ} {certain : Prop}
    (hok : ∀ s s', Stands k s₀ ifindex clsact filters s → request s = (.ok (), s') → Stands k s₀ ifindex clsact' filters' s')
    (hkept : ∀ s, Stands k s₀ ifindex clsact' filters' s → ForeignKept k s₀ ifindex hook s)
    (hfailed : ∀ s s' e, request s = (.error e, s') → k.inventory s' = k.inventory s)
    (hcertain : certain → ∀ s, Stands k s₀ ifindex clsact filters s → (request s).1 = .ok ()) :
    (RtnetlinkTcIo.sendRequest request).Meets (Within k s₀ ifindex hook clsact filters)
      (fun _ => Within k s₀ ifindex hook clsact' filters')
      (fun _ w => Within k s₀ ifindex hook clsact filters w ∧ ¬certain) := by
  rintro w ⟨hbefore, hstands⟩
  cases hrequest : request w.now with
  | mk result s =>
    cases result with
    | ok _ =>
      have hafter := hok _ _ hstands hrequest
      simp only [RtnetlinkTcIo.sendRequest, hrequest]
      exact ⟨hbefore.step (hkept s hafter), hafter⟩
    | error e =>
      have heq := hfailed _ _ _ hrequest
      simp only [RtnetlinkTcIo.sendRequest, hrequest]
      refine ⟨⟨hbefore.step ((hbefore _ (List.mem_cons_self ..)).of_eq heq), hstands.of_eq heq⟩, fun hsure => ?_⟩
      have hno := hcertain hsure _ hstands
      rw [hrequest] at hno
      cases hno

theorem query_meets (hk : k.Behaves) :
    (RtnetlinkTcIo.query k ifindex).Meets (Within k s₀ ifindex hook clsact filters)
      (fun found w => found = ⟨clsact, filters⟩ ∧ Within k s₀ ifindex hook clsact filters w)
      (fun _ w => Within k s₀ ifindex hook clsact filters w ∧ ¬k.Reliable) := by
  apply Effect.Meets.ask
  · intro w found hw hfound
    exact ⟨by rw [hk.query _ _ _ hfound, hw.2.here], hw⟩
  · intro w e hw hfailed
    refine ⟨hw, fun hreliable => ?_⟩
    rw [hreliable.query] at hfailed
    cases hfailed

theorem queryOrUnknown_meets (hk : k.Behaves) :
    (SafeTc.queryOrUnknown (rtnetlinkTcIo k) ifindex).Meets (Within k s₀ ifindex hook clsact filters)
      (fun found w => found = ⟨clsact, filters⟩ ∧ Within k s₀ ifindex hook clsact filters w)
      (fun _ w => Within k s₀ ifindex hook clsact filters w ∧ ¬k.Reliable) :=
  (query_meets hk).orElseError fun _ _ he => he

/-- Our qdisc goes, where nobody else has put a filter. -/
theorem removeClsactIfEmptyExact_meets (hk : k.Behaves) (hnone : (k.inventory s₀ ifindex).filters = []) :
    ((rtnetlinkTcIo k).removeClsactIfEmptyExact ifindex).Meets (Within k s₀ ifindex hook .present [])
      (fun _ => Within k s₀ ifindex hook .absent [])
      (fun _ w => Within k s₀ ifindex hook .present [] w ∧ ¬k.Reliable) := by
  refine (query_meets hk).bind fun found => Effect.Meets.intro ?_
  rintro w ⟨rfl, hw⟩
  rw [if_neg (by simp)]
  refine Effect.Meets.mono (sendRequest_meets ?_ ?_ ?_ ?_) (fun w' heq => heq ▸ hw) (fun _ _ h => h) (fun _ _ h => h)
  · intro s s' hs hdelete
    obtain ⟨-, hgone, helsewhere⟩ := hk.deleteQdisc _ _ _ hdelete
    exact ⟨hgone, fun j hj => by rw [helsewhere j hj, hs.elsewhere j hj]⟩
  · intro s hs
    exact ⟨hs.elsewhere, .inl (by rw [hs.here, hnone])⟩
  · exact hk.deleteQdisc_failed ifindex
  · intro hreliable s hs
    exact hreliable.deleteQdisc _ _ (by rw [hs.here])

theorem removeCreatedClsact_cases (hk : k.Behaves) (hnone : (k.inventory s₀ ifindex).filters = []) {w : Wire σ}
    (hw : Within k s₀ ifindex hook .present [] w) :
    ∃ rollback w', SafeTc.removeCreatedClsact (rtnetlinkTcIo k) ifindex w = (rollback, w') ∧
      ((rollback = .completed ∧ Within k s₀ ifindex hook .absent [] w') ∨
        (rollback ≠ .completed ∧ Within k s₀ ifindex hook .present [] w' ∧ ¬k.Reliable)) := by
  have hmeets := @removeClsactIfEmptyExact_meets _ _ _ _ hook hk hnone
  rw [SafeTc.removeCreatedClsact]
  cases hrun : (rtnetlinkTcIo k).removeClsactIfEmptyExact ifindex w with
  | mk result w' =>
    cases result with
    | ok _ => exact ⟨_, _, rfl, .inl ⟨rfl, Effect.Meets.ok hmeets hw hrun⟩⟩
    | error e =>
      have hafter := Effect.Meets.error hmeets hw hrun
      cases e with
      | existing => exact ⟨_, _, rfl, .inr ⟨fun hno => (by cases hno), hafter⟩⟩
      | identityMismatch => exact ⟨_, _, rfl, .inr ⟨fun hno => (by cases hno), hafter⟩⟩
      | failed message => exact ⟨_, _, rfl, .inr ⟨fun hno => (by cases hno), hafter⟩⟩

end Calls

/-! ### The hook with our filter -/

section Inserted
variable {inventory : TcInventory} {front rest : List TcFilterSlot} {p : Nat} {c : Bool}

/-- The filter of ours that the kernel then has. -/
structure Ours (i : Nat) (h : TcHook) (p : Nat) (identity : TcKernelIdentity) : Prop where
  ifindex : identity.ifindex = i
  hook : identity.hook = h
  handle : identity.handle = handleFor h
  priority : identity.priority = p

variable {identity : TcKernelIdentity}

theorem Ours.not_mem (h : Ours ifindex hook p identity) (hempty : EmptyHook (k.inventory s₀ ifindex) hook p c) :
    TcFilterSlot.bpf identity ∉ (k.inventory s₀ ifindex).filters := by
  apply not_mem_of_free
  rw [h.hook, h.priority]
  exact (freePriority_spec hempty.priority).2.2

theorem Ours.kept (h : Ours ifindex hook p identity) (hempty : EmptyHook (k.inventory s₀ ifindex) hook p c)
    (hfilters : (k.inventory s₀ ifindex).filters = front ++ rest) {s : σ}
    (hs : Stands k s₀ ifindex .present (front ++ .bpf identity :: rest) s) : ForeignKept k s₀ ifindex hook s := by
  refine ⟨hs.elsewhere, .inr ⟨front, rest, identity, hfilters, by rw [hs.here], h.ifindex, h.hook, h.handle, ?_⟩⟩
  rw [h.priority]
  exact (freePriority_spec hempty.priority).2.2

/-- Our filter goes, and what was there before is left. -/
theorem detachExact_meets (hk : k.Behaves) (h : Ours ifindex hook p identity)
    (hempty : EmptyHook (k.inventory s₀ ifindex) hook p c) (hfilters : (k.inventory s₀ ifindex).filters = front ++ rest) :
    ((rtnetlinkTcIo k).detachExact identity).Meets (Within k s₀ ifindex hook .present (front ++ .bpf identity :: rest))
      (fun _ => Within k s₀ ifindex hook .present (front ++ rest))
      (fun _ w => Within k s₀ ifindex hook .present (front ++ .bpf identity :: rest) w ∧ ¬k.Reliable) := by
  obtain rfl := h.ifindex
  obtain rfl := h.hook
  refine (query_meets hk).bind fun found => Effect.Meets.intro ?_
  rintro w ⟨rfl, hw⟩
  have howned : classifyInventory ⟨.present, front ++ .bpf identity :: rest⟩ identity.hook
      (some ⟨identity.ifindex, identity.hook, identity.priority, identity.handle, identity.programId, false⟩) = .owned :=
    (classify_inserted hempty hfilters rfl h.handle).mpr rfl
  rw [if_neg (not_not.mpr howned)]
  have hmem : TcFilterSlot.bpf identity ∈ front ++ .bpf identity :: rest := by simp
  have herase : (front ++ .bpf identity :: rest).erase (.bpf identity) = front ++ rest := by
    have hfront : TcFilterSlot.bpf identity ∉ front := fun hin =>
      h.not_mem hempty (by rw [hfilters]; exact List.mem_append_left _ hin)
    rw [List.erase_append_right _ hfront, List.erase_cons_head]
  refine Effect.Meets.mono (sendRequest_meets ?_ ?_ ?_ ?_) (fun w' heq => heq ▸ hw) (fun _ _ h => h) (fun _ _ h => h)
  · intro s s' hs hdelete
    obtain ⟨hgone, helsewhere⟩ := hk.deleteFilter _ _ _ (by rw [hs.here]; exact hmem) hdelete
    refine ⟨?_, fun j hj => by rw [helsewhere j hj, hs.elsewhere j hj]⟩
    rw [hgone, hs.here, herase]
  · intro s hs
    exact ⟨hs.elsewhere, .inl (by rw [hs.here, hfilters])⟩
  · exact hk.deleteFilter_failed identity
  · intro hreliable s hs
    exact hreliable.deleteFilter _ _ (by rw [hs.here]; exact hmem)

/-! ### Attach -/

theorem EmptyHook.present (h : EmptyHook inventory hook p true) : inventory.clsact = .present := by
  simpa using h.clsact.symm

theorem EmptyHook.absent (h : EmptyHook inventory hook p false) : inventory = ⟨.absent, []⟩ := by
  have habsent : inventory.clsact = .absent := by
    cases hclsact : inventory.clsact with
    | absent => rfl
    | present =>
      have hno := h.clsact
      rw [hclsact] at hno
      cases hno
    | unknown =>
      have hno := h.known
      rw [TcInventory.hasUnknown, hclsact] at hno
      cases hno
  exact TcInventory.ext habsent (h.bare habsent)

theorem emptyPlan_eq_ok {plan : Nat × Bool} : emptyPlan inventory hook = .ok plan ↔ EmptyHook inventory hook plan.1 plan.2 := by
  rw [← @classify_eq_empty _ _ none, emptyPlan]
  cases hclass : classifyInventory inventory hook none with
  | empty priority clsactPresent => simp [Prod.ext_iff]
  | owned => simp
  | foreign => simp
  | unknown => simp

/-- A qdisc that is there already is somebody else's and stays. -/
theorem ensureClsact_meets (hk : k.Behaves) (hempty : EmptyHook (k.inventory s₀ ifindex) hook p c) :
    (SafeTc.ensureClsact (rtnetlinkTcIo k) ifindex hook p c).Meets
      (Within k s₀ ifindex hook (k.inventory s₀ ifindex).clsact (k.inventory s₀ ifindex).filters)
      (fun ready w => ready = (p, !c) ∧ Within k s₀ ifindex hook .present (k.inventory s₀ ifindex).filters w)
      (fun _ => KeptThroughout k s₀ ifindex hook) := by
  cases c with
  | true =>
    rw [hempty.present]
    intro w hw
    exact ⟨rfl, hw⟩
  | false =>
    have hbare := hempty.absent
    have hcreate : ((rtnetlinkTcIo k).ensureClsactExclusive ifindex).Meets (Within k s₀ ifindex hook .absent [])
        (fun _ => Within k s₀ ifindex hook .present []) (fun _ w => Within k s₀ ifindex hook .absent [] w ∧ ¬False) := by
      apply sendRequest_meets
      · intro s s' hs hcreated
        obtain ⟨-, hnow, helsewhere⟩ := hk.newQdisc _ _ _ hcreated
        exact ⟨by rw [hnow, hs.here], fun j hj => by rw [helsewhere j hj, hs.elsewhere j hj]⟩
      · intro s hs
        exact ⟨hs.elsewhere, .inl (by rw [hs.here, hbare])⟩
      · exact hk.newQdisc_failed ifindex
      · exact False.elim
    -- the plan made again from what still stands there is the old one, which had no qdisc
    have hraced : (SafeTc.queryOrUnknown (rtnetlinkTcIo k) ifindex >>= fun raced =>
        Effect.ask (fun _ => emptyPlan raced hook) >>= fun plan =>
          if plan.2 then pure (plan.1, false)
          else Effect.ask fun _ => .error (.occupied "clsact is occupied by a different qdisc") :
        Effect (Wire σ) TcError (Nat × Bool)).Meets (Within k s₀ ifindex hook .absent []) (fun _ _ => False)
        (fun _ => KeptThroughout k s₀ ifindex hook) := by
      refine Effect.Meets.bind ((queryOrUnknown_meets hk).mono (fun _ h => h) (fun _ _ h => h) fun _ _ h => h.1.1)
        fun raced => Effect.Meets.intro ?_
      rintro w ⟨rfl, hw⟩ w' rfl
      have hplan : emptyPlan ⟨.absent, []⟩ hook = .ok (p, false) := emptyPlan_eq_ok.mpr (hbare ▸ hempty)
      simp only [hplan]
      exact hw.1
    intro w hw
    rw [hbare] at hw
    rw [SafeTc.ensureClsact, if_neg (by simp), hbare]
    cases hrun : (rtnetlinkTcIo k).ensureClsactExclusive ifindex w with
    | mk result w' =>
      cases result with
      | ok _ => exact ⟨rfl, Effect.Meets.ok hcreate hw hrun⟩
      | error e =>
        have hafter := (Effect.Meets.error hcreate hw hrun).1
        cases e with
        | existing =>
          have hno := hraced w' hafter
          dsimp only
          split
          case h_1 heq =>
            rw [heq] at hno
            exact hno.elim
          case h_2 heq =>
            rw [heq] at hno
            exact hno
        | identityMismatch => exact hafter.1
        | failed message => exact hafter.1

theorem attachFailure_kept (hk : k.Behaves) (hempty : EmptyHook (k.inventory s₀ ifindex) hook p c) (code evidence : String)
    {w : Wire σ} (hw : Within k s₀ ifindex hook .present (k.inventory s₀ ifindex).filters w) :
    KeptThroughout k s₀ ifindex hook (SafeTc.attachFailure (rtnetlinkTcIo k) code evidence ifindex (!c) w).2 := by
  cases c with
  | true => exact hw.1
  | false =>
    have hnone : (k.inventory s₀ ifindex).filters = [] := by rw [hempty.absent]
    rw [hnone] at hw
    obtain ⟨rollback, w', hrun, hends⟩ := removeCreatedClsact_cases hk hnone hw
    simp only [SafeTc.attachFailure, Bool.not_false, if_true, hrun]
    rcases hends with ⟨-, hafter⟩ | ⟨-, hafter, -⟩
    · exact hafter.1
    · exact hafter.1

/-- The record is that of the filter which the kernel has: a filter with another program
is not taken for ours, and nothing is done about it. -/
theorem verifyAttached_meets (hk : k.Behaves) (hempty : EmptyHook (k.inventory s₀ ifindex) hook p c)
    (hfilters : (k.inventory s₀ ifindex).filters = front ++ rest) (h : Ours ifindex hook p identity) {owned : OwnedTc}
    (howned : Ours ifindex hook p owned.identity) :
    (SafeTc.verifyAttached (rtnetlinkTcIo k) owned).Meets (Within k s₀ ifindex hook .present (front ++ .bpf identity :: rest))
      (fun found w => found = owned ∧ owned.identity = identity ∧
        Within k s₀ ifindex hook .present (front ++ .bpf identity :: rest) w)
      (fun _ => KeptThroughout k s₀ ifindex hook) := by
  intro w hw
  have hindex : owned.ifindex = ifindex := howned.ifindex
  have hhook : owned.hook = hook := howned.hook
  rw [SafeTc.verifyAttached, hindex, hhook]
  cases hrun : (rtnetlinkTcIo k).query ifindex w with
  | mk result w' =>
    cases result with
    | error e => exact (Effect.Meets.error (query_meets hk) hw hrun).1.1
    | ok after =>
      obtain ⟨rfl, hafter⟩ := Effect.Meets.ok (query_meets hk) hw hrun
      dsimp only
      by_cases hsame : identity = owned.identity
      · rw [if_pos ((classify_inserted hempty hfilters h.hook h.handle).mpr hsame)]
        exact ⟨rfl, hsame.symm, hafter⟩
      · rw [if_neg fun hno => hsame ((classify_inserted hempty hfilters h.hook h.handle).mp hno)]
        have habsent : TcInventory.hasExact ⟨.present, front ++ .bpf identity :: rest⟩ owned.identity = false := by
          have hnew := howned.not_mem hempty
          rw [hfilters, List.mem_append, not_or] at hnew
          rw [TcInventory.hasExact, ← Bool.not_eq_true, List.contains_iff_mem, List.mem_append, List.mem_cons]
          rintro (hin | hin | hin)
          · exact hnew.1 hin
          · exact hsame (TcFilterSlot.bpf.inj hin).symm
          · exact hnew.2 hin
        rw [if_neg (by rw [habsent]; exact Bool.false_ne_true)]
        by_cases hunknown : TcInventory.hasUnknown ⟨.present, front ++ .bpf identity :: rest⟩ = true
        · rw [if_pos hunknown]
          exact hafter.1
        · rw [if_neg hunknown]
          exact hafter.1

/-- What a successful attach leaves. -/
structure Attached (k : TcKernel σ) (s₀ : σ) (ifindex : Nat) (hook : TcHook) (owned : OwnedTc) (w : Wire σ) : Prop where
  empty : EmptyHook (k.inventory s₀ ifindex) hook owned.priority (!owned.createdClsact)
  ours : Ours ifindex hook owned.priority owned.identity
  inserted : ∃ front rest, (k.inventory s₀ ifindex).filters = front ++ rest ∧
    Within k s₀ ifindex hook .present (front ++ .bpf owned.identity :: rest) w

theorem attachFilter_meets (hk : k.Behaves) (hempty : EmptyHook (k.inventory s₀ ifindex) hook p c) (loaded : LoadedTc) :
    (SafeTc.attachFilter (rtnetlinkTcIo k) ifindex hook loaded p (!c)).Meets
      (Within k s₀ ifindex hook .present (k.inventory s₀ ifindex).filters)
      (fun owned => Attached k s₀ ifindex hook owned) (fun _ => KeptThroughout k s₀ ifindex hook) := by
  intro w hw
  rw [SafeTc.attachFilter]
  cases hadd : k.newFilter ifindex hook p (handleFor hook) loaded.programFd w.now with
  | mk result s =>
    have hrun : (rtnetlinkTcIo k).attachExclusive ifindex hook p (handleFor hook) loaded.programFd w =
        (result, ⟨s, w.now :: w.past⟩) := by
      simp only [rtnetlinkTcIo, RtnetlinkTcIo.sendRequest, hadd]
    rw [hrun]
    cases result with
    | error e =>
      have heq := hk.newFilter_failed _ _ _ _ _ _ _ _ hadd
      have hafter : Within k s₀ ifindex hook .present (k.inventory s₀ ifindex).filters ⟨s, w.now :: w.past⟩ :=
        ⟨hw.1.step (hw.2.of_eq heq).same, hw.2.of_eq heq⟩
      cases e with
      | existing => exact attachFailure_kept hk hempty _ _ hafter
      | identityMismatch => exact attachFailure_kept hk hempty _ _ hafter
      | failed message => exact attachFailure_kept hk hempty _ _ hafter
    | ok _ =>
      obtain ⟨⟨front, rest, hfilters, hnow⟩, helsewhere⟩ := hk.newFilter _ _ _ _ _ _ _ hadd
      rw [hw.2.here] at hfilters hnow
      dsimp only at hfilters hnow
      have hours : Ours ifindex hook p ⟨ifindex, hook, p, handleFor hook, k.programOf loaded.programFd⟩ := ⟨rfl, rfl, rfl, rfl⟩
      have hstands : Stands k s₀ ifindex .present (front ++ .bpf ⟨ifindex, hook, p, handleFor hook,
          k.programOf loaded.programFd⟩ :: rest) s :=
        ⟨hnow, fun j hj => by rw [helsewhere j hj, hw.2.elsewhere j hj]⟩
      have hverified := verifyAttached_meets hk hempty hfilters hours
        (show Ours ifindex hook p (OwnedTc.mk ifindex hook p (handleFor hook) loaded.programId (!c)).identity from ⟨rfl, rfl, rfl, rfl⟩)
      refine Effect.Meets.mono hverified (fun _ h => h) ?_ (fun _ _ h => h) _ ⟨hw.1.step (hours.kept hempty hfilters hstands), hstands⟩
      rintro owned w' ⟨rfl, hidentity, hafter⟩
      exact ⟨by rw [Bool.not_not]; exact hempty, ⟨rfl, rfl, rfl, rfl⟩, front, rest, hfilters, by rw [hidentity]; exact hafter⟩

theorem attach_meets (hk : k.Behaves) (loaded : LoadedTc) :
    (SafeTc.attach (rtnetlinkTcIo k) ifindex hook loaded).Meets
      (Within k s₀ ifindex hook (k.inventory s₀ ifindex).clsact (k.inventory s₀ ifindex).filters)
      (fun owned => Attached k s₀ ifindex hook owned) (fun _ => KeptThroughout k s₀ ifindex hook) := by
  refine Effect.Meets.bind ((queryOrUnknown_meets hk).mono (fun _ h => h) (fun _ _ h => h) fun _ _ h => h.1.1) fun before => ?_
  refine Effect.Meets.bind (Effect.Meets.ask (Q := fun plan w => EmptyHook (k.inventory s₀ ifindex) hook plan.1 plan.2 ∧
    Within k s₀ ifindex hook (k.inventory s₀ ifindex).clsact (k.inventory s₀ ifindex).filters w) ?_ ?_) fun plan => ?_
  · rintro w plan ⟨rfl, hw⟩ hplan
    exact ⟨emptyPlan_eq_ok.mp hplan, hw⟩
  · rintro w e ⟨-, hw⟩ -
    exact hw.1
  apply Effect.Meets.intro
  rintro w ⟨hempty, hw⟩
  refine Effect.Meets.bind ((ensureClsact_meets hk hempty).mono (fun _ heq => heq ▸ hw) (fun _ _ h => h) fun _ _ h => h) fun ready => ?_
  apply Effect.Meets.intro
  rintro w' ⟨rfl, hw'⟩
  exact (attachFilter_meets hk hempty loaded).mono (fun _ heq => heq ▸ hw') (fun _ _ h => h) fun _ _ h => h

/-! ### Detach -/

theorem detachOwned_meets (hk : k.Behaves) (owned : OwnedTc) :
    (SafeTc.detachOwned (rtnetlinkTcIo k) owned).Meets (Attached k s₀ ifindex hook owned)
      (fun outcome w => outcome = .detached ∧
        Within k s₀ ifindex hook (k.inventory s₀ ifindex).clsact (k.inventory s₀ ifindex).filters w)
      (fun _ w => KeptThroughout k s₀ ifindex hook w ∧ ¬k.Reliable) := by
  rintro w ⟨hempty, hours, front, rest, hfilters, hw⟩
  have hdetach := detachExact_meets hk hours hempty hfilters
  rw [SafeTc.detachOwned]
  cases hrun : (rtnetlinkTcIo k).detachExact owned.identity w with
  | mk result w' =>
    cases result with
    | error e =>
      obtain ⟨hafter, hfailed⟩ := Effect.Meets.error hdetach hw hrun
      exact ⟨hafter.1, hfailed⟩
    | ok _ =>
      have hafter := Effect.Meets.ok hdetach hw hrun
      rw [← hfilters] at hafter
      have hindex : owned.ifindex = ifindex := hours.ifindex
      dsimp only
      cases hcreated : owned.createdClsact with
      | false =>
        rw [hcreated] at hempty
        rw [if_neg Bool.false_ne_true, hempty.present]
        exact ⟨rfl, hafter⟩
      | true =>
        rw [hcreated] at hempty
        have hnone : (k.inventory s₀ ifindex).filters = [] := by rw [hempty.absent]
        rw [hnone] at hafter
        obtain ⟨rollback, w'', hremove, hends⟩ := removeCreatedClsact_cases hk hnone hafter
        rw [if_pos rfl, hindex, hremove]
        rcases hends with ⟨rfl, hend⟩ | ⟨hretained, hend, hfailed⟩
        · refine ⟨rfl, ?_⟩
          rw [hempty.absent]
          exact hend
        · cases rollback with
          | completed => exact absurd rfl hretained
          | failed => exact ⟨hend.1, hfailed⟩
          | retainedIdentityMismatch => exact ⟨hend.1, hfailed⟩
          | retainedUnknownState => exact ⟨hend.1, hfailed⟩

theorem detach_meets (hk : k.Behaves) (owned : OwnedTc) :
    (SafeTc.detach (rtnetlinkTcIo k) owned).Meets (Attached k s₀ ifindex hook owned)
      (fun outcome w => outcome = .detached ∧
        Within k s₀ ifindex hook (k.inventory s₀ ifindex).clsact (k.inventory s₀ ifindex).filters w)
      (fun _ w => KeptThroughout k s₀ ifindex hook w ∧ ¬k.Reliable) := by
  apply Effect.Meets.intro
  intro w hattached
  obtain ⟨hempty, hours, front, rest, hfilters, hw⟩ := id hattached
  have hindex : owned.ifindex = ifindex := hours.ifindex
  have hhook : owned.hook = hook := hours.hook
  rw [SafeTc.detach, hindex, hhook]
  refine Effect.Meets.bind (Q := fun found w' => found = ⟨.present, front ++ .bpf owned.identity :: rest⟩ ∧
    Attached k s₀ ifindex hook owned w') ?_ fun current => ?_
  · refine Effect.Meets.mono (queryOrUnknown_meets hk) (fun _ heq => heq ▸ hw) ?_ fun _ _ h => ⟨h.1.1, h.2⟩
    rintro found w' ⟨hfound, hw'⟩
    exact ⟨hfound, hempty, hours, front, rest, hfilters, hw'⟩
  · apply Effect.Meets.intro
    rintro w' ⟨rfl, hattached'⟩
    rw [(classify_inserted hempty hfilters hours.hook hours.handle).mpr rfl]
    exact (detachOwned_meets hk owned).mono (fun _ heq => heq ▸ hattached') (fun _ _ h => h) fun _ _ h => h

end Inserted

/-! ### The whole run -/

theorem Within.start : Within k s₀ ifindex hook (k.inventory s₀ ifindex).clsact (k.inventory s₀ ifindex).filters ⟨s₀, []⟩ := by
  refine ⟨fun s hs => ?_, rfl, fun _ _ => rfl⟩
  obtain rfl : s = s₀ := by simpa using hs
  exact ⟨fun _ _ => rfl, .inl rfl⟩

theorem Attached.kept {owned : OwnedTc} {w : Wire σ} (h : Attached k s₀ ifindex hook owned w) :
    KeptThroughout k s₀ ifindex hook w := by
  obtain ⟨front, rest, -, hw⟩ := h.inserted
  exact hw.1

/-- **Nobody else's filter is disturbed**, whatever stands on the interfaces at first. -/
theorem attach_detach_frame (hk : k.Behaves) (s₀ : σ) (ifindex : Nat) (hook : TcHook) (loaded : LoadedTc) :
    ∀ result w₁, SafeTc.attach (rtnetlinkTcIo k) ifindex hook loaded ⟨s₀, []⟩ = (result, w₁) →
      KeptThroughout k s₀ ifindex hook w₁ ∧
      ∀ owned, result = .ok owned →
        (owned.ifindex = ifindex ∧ owned.hook = hook ∧ owned.handle = handleFor hook ∧
          tcPriorityFirst ≤ owned.priority ∧ owned.priority ≤ tcPriorityLast ∧
          priorityTaken (k.inventory s₀ ifindex).filters hook owned.priority = false ∧
          ∃ front rest, (k.inventory s₀ ifindex).filters = front ++ rest ∧
            k.inventory w₁.now ifindex = ⟨.present, front ++ .bpf owned.identity :: rest⟩) ∧
        ∀ outcome w₂, SafeTc.detach (rtnetlinkTcIo k) owned w₁ = (outcome, w₂) →
          KeptThroughout k s₀ ifindex hook w₂ ∧
          (∀ x, outcome = .ok x → x = .detached ∧ k.inventory w₂.now = k.inventory s₀) ∧
          (k.Reliable → outcome = .ok .detached) := by
  intro result w₁ hattach
  have hmeets := @attach_meets _ k s₀ ifindex hook hk loaded
  cases result with
  | error e =>
    exact ⟨hmeets.error Within.start hattach, fun owned hno => (by cases hno)⟩
  | ok owned =>
    have hattached := hmeets.ok Within.start hattach
    refine ⟨hattached.kept, ?_⟩
    rintro _ ⟨⟩
    obtain ⟨hfirst, hlast, hfree⟩ := freePriority_spec hattached.empty.priority
    obtain ⟨front, rest, hfilters, hw⟩ := hattached.inserted
    refine ⟨⟨hattached.ours.ifindex, hattached.ours.hook, hattached.ours.handle, hfirst, hlast, hfree, front, rest, hfilters,
      hw.2.here⟩, ?_⟩
    intro outcome w₂ hdetach
    cases outcome with
    | error e =>
      obtain ⟨hkept, hfailed⟩ := (detach_meets hk owned).error hattached hdetach
      exact ⟨hkept, fun x hno => (by cases hno), fun hreliable => absurd hreliable hfailed⟩
    | ok x =>
      obtain ⟨rfl, hafter⟩ := (detach_meets hk owned).ok hattached hdetach
      refine ⟨hafter.1, ?_, fun _ => rfl⟩
      rintro _ ⟨⟩
      refine ⟨rfl, funext fun j => ?_⟩
      by_cases hj : j = ifindex
      · rw [hj, hafter.2.here]
      · exact hafter.2.elsewhere j hj

/-- A port with a foreign filter on each hook, in the slots that ours would take on the
other one. -/
def occupiedPort : Nat → TcInventory := fun i =>
  if i = 3 then ⟨.present, [.other .ingress 49600 tcEgressHandle, .other .egress 49600 tcIngressHandle]⟩ else ⟨.absent, []⟩

theorem attach_detach_frame_occupied : ∃ owned w₁ w₂,
    SafeTc.attach (rtnetlinkTcIo plainKernel) 3 .ingress ⟨7, 7⟩ ⟨occupiedPort, []⟩ = (.ok owned, w₁) ∧ owned.priority = 49601 ∧
      SafeTc.detach (rtnetlinkTcIo plainKernel) owned w₁ = (.ok .detached, w₂) ∧ w₂.now = occupiedPort := by
  obtain ⟨-, hattached⟩ := attach_detach_frame plainKernel_behaves occupiedPort 3 .ingress ⟨7, 7⟩ _ _ rfl
  obtain ⟨-, hdetached⟩ := hattached _ rfl
  obtain ⟨-, hsame, hdone⟩ := hdetached _ _ rfl
  exact ⟨_, _, _, rfl, rfl, Prod.ext (hdone plainKernel_reliable) rfl, (hsame _ (hdone plainKernel_reliable)).2⟩

end NetworkLoop.Tc
