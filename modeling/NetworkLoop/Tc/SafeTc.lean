import NetworkLoop.Library.Effect

/-! The traffic-control adapter (`tc.rs` of the agent).

`classifyInventory` decides from what stands on an interface whether a hook is empty,
ours, or someone else's. `SafeTc` attaches and detaches one filter over a `TcIo`;
`RtnetlinkTcIo` is that layer over the kernel's requests, with its own checks before
each deletion. The kernel is a parameter: `TcKernel.Behaves` says of its requests what
their names say. Every state that a request finds is kept, so that one can speak of all
the states a run goes through. -/
namespace NetworkLoop.Tc
open Library

/-! ### What stands on an interface -/

inductive TcHook where
  | ingress | egress
  deriving DecidableEq, Repr

structure TcKernelIdentity where
  ifindex : Nat
  hook : TcHook
  priority : Nat
  handle : Nat
  programId : Nat
  deriving DecidableEq, Repr

structure OwnedTc where
  ifindex : Nat
  hook : TcHook
  priority : Nat
  handle : Nat
  programId : Nat
  createdClsact : Bool
  deriving DecidableEq, Repr

/-- `TcKernelIdentity::from`. -/
def OwnedTc.identity (owned : OwnedTc) : TcKernelIdentity :=
  ⟨owned.ifindex, owned.hook, owned.priority, owned.handle, owned.programId⟩

def OwnedTc.matches (owned : OwnedTc) (current : TcKernelIdentity) : Bool := owned.identity == current

def tcIngressHandle : Nat := 0x4c320001
def tcEgressHandle : Nat := 0x4c320002
def tcPriorityFirst : Nat := 49600
def tcPriorityLast : Nat := 49699

structure LoadedTc where
  programFd : Nat
  programId : Nat
  deriving DecidableEq, Repr

inductive TcClsactState where
  | absent | present | unknown
  deriving DecidableEq, Repr

inductive TcFilterSlot where
  | bpf (identity : TcKernelIdentity)
  | other (hook : TcHook) (priority handle : Nat)
  | unknown (hook : TcHook)
  deriving DecidableEq, Repr

namespace TcFilterSlot

def hook : TcFilterSlot → TcHook
  | .bpf identity => identity.hook
  | .other hook _ _ | .unknown hook => hook

def priority : TcFilterSlot → Option Nat
  | .bpf identity => some identity.priority
  | .other _ priority _ => some priority
  | .unknown _ => none

def handle : TcFilterSlot → Option Nat
  | .bpf identity => some identity.handle
  | .other _ _ handle => some handle
  | .unknown _ => none

end TcFilterSlot

@[ext] structure TcInventory where
  clsact : TcClsactState
  filters : List TcFilterSlot
  deriving DecidableEq, Repr

namespace TcInventory

def hasExact (inventory : TcInventory) (expected : TcKernelIdentity) : Bool :=
  inventory.filters.contains (.bpf expected)

def hasUnknown (inventory : TcInventory) : Bool :=
  inventory.clsact == .unknown || inventory.filters.any fun slot => slot matches .unknown _

end TcInventory

inductive TcState where
  | empty (priority : Nat) (clsactPresent : Bool)
  | owned | foreign | unknown
  deriving DecidableEq, Repr

def handleFor : TcHook → Nat
  | .ingress => tcIngressHandle
  | .egress => tcEgressHandle

/-- A filter of this hook has this priority. -/
def priorityTaken (filters : List TcFilterSlot) (hook : TcHook) (candidate : Nat) : Bool :=
  filters.any fun slot => slot.hook == hook && slot.priority == some candidate

/-- `TC_PRIORITY_FIRST..=TC_PRIORITY_LAST`, the first that no filter of the hook has. -/
def freePriority (filters : List TcFilterSlot) (hook : TcHook) : Option Nat :=
  (List.range' tcPriorityFirst (tcPriorityLast - tcPriorityFirst + 1)).find? fun candidate =>
    !priorityTaken filters hook candidate

/-- The filters of the hook with the handle that is reserved for ours. -/
def reservedSlots (filters : List TcFilterSlot) (hook : TcHook) : List TcFilterSlot :=
  filters.filter fun slot => slot.hook == hook && slot.handle == some (handleFor hook)

def classifyInventory (inventory : TcInventory) (hook : TcHook) (owned : Option OwnedTc) : TcState :=
  if inventory.hasUnknown || (inventory.clsact == .absent && !inventory.filters.isEmpty) then .unknown
  else
    match reservedSlots inventory.filters hook with
    | [.bpf identity] => if owned.any (·.matches identity) then .owned else .foreign
    | _ :: _ => .foreign
    | [] =>
      match freePriority inventory.filters hook with
      | some priority => .empty priority (inventory.clsact == .present)
      | none => .foreign

/-! ### The layer below -/

inductive TcIoError where
  | existing | identityMismatch
  | failed (message : String)
  deriving DecidableEq, Repr

/-- `TcIo`, over the state that its calls change. -/
structure TcIo (τ : Type) where
  query : Nat → Effect τ TcIoError TcInventory
  ensureClsactExclusive : Nat → Effect τ TcIoError Unit
  attachExclusive : Nat → TcHook → Nat → Nat → Nat → Effect τ TcIoError Unit
  detachExact : TcKernelIdentity → Effect τ TcIoError Unit
  removeClsactIfEmptyExact : Nat → Effect τ TcIoError Unit

inductive TcRollback where
  | completed | failed | retainedIdentityMismatch | retainedUnknownState
  deriving DecidableEq, Repr

inductive TcDetachOutcome where
  | detached | alreadyAbsent | retainedIdentityMismatch
  deriving DecidableEq, Repr

structure TcError where
  code : String
  evidence : String
  rollback : Option TcRollback
  deriving DecidableEq, Repr

def pfTcHandleCollision : String := "PF_TC_HANDLE_COLLISION"
def pfTcStateUnknown : String := "PF_TC_STATE_UNKNOWN"
def tcClsactCreateFailed : String := "TC_CLSACT_CREATE_FAILED"
def tcFilterCreateFailed : String := "TC_FILTER_CREATE_FAILED"
def tcVerifyFailed : String := "TC_VERIFY_FAILED"
def tcDetachFailed : String := "TC_DETACH_FAILED"
def tcClsactRemoveFailed : String := "TC_CLSACT_REMOVE_FAILED"

namespace TcError

def new (code evidence : String) : TcError := ⟨code, evidence, none⟩

def verification (evidence : String) (rollback : TcRollback) : TcError := ⟨tcVerifyFailed, evidence, some rollback⟩

def mutation (code evidence : String) (rollback : TcRollback) : TcError := ⟨code, evidence, some rollback⟩

def occupied (evidence : String) : TcError := new pfTcHandleCollision evidence

def unknownState : TcError := new pfTcStateUnknown "TC state could not be determined safely"

end TcError

def emptyPlan (inventory : TcInventory) (hook : TcHook) : Except TcError (Nat × Bool) :=
  match classifyInventory inventory hook none with
  | .empty priority clsactPresent => .ok (priority, clsactPresent)
  | .owned | .foreign => .error (.occupied "TC reserved identity is occupied")
  | .unknown => .error .unknownState

namespace SafeTc
variable {τ : Type} (io : TcIo τ)

def queryOrUnknown (ifindex : Nat) : Effect τ TcError TcInventory :=
  (io.query ifindex).orElseError fun _ => .unknownState

def removeCreatedClsact (ifindex : Nat) (t : τ) : TcRollback × τ :=
  match io.removeClsactIfEmptyExact ifindex t with
  | (.ok _, t') => (.completed, t')
  | (.error .existing, t') | (.error .identityMismatch, t') => (.retainedIdentityMismatch, t')
  | (.error (.failed _), t') => (.failed, t')

def attachFailure (code evidence : String) (ifindex : Nat) (createdClsact : Bool) (t : τ) : TcError × τ :=
  if createdClsact then
    let (rollback, t') := removeCreatedClsact io ifindex t
    (.mutation code evidence rollback, t')
  else (.new code evidence, t)

/-- The part of `attach` that sees to the clsact qdisc: the priority to use, and whether
the qdisc is ours. -/
def ensureClsact (ifindex : Nat) (hook : TcHook) (priority : Nat) (clsactPresent : Bool) :
    Effect τ TcError (Nat × Bool) := fun t =>
  if clsactPresent then (.ok (priority, false), t)
  else
    match io.ensureClsactExclusive ifindex t with
    | (.ok _, t') => (.ok (priority, true), t')
    | (.error .existing, t') =>
      (queryOrUnknown io ifindex >>= fun raced =>
        Effect.ask (fun _ => emptyPlan raced hook) >>= fun plan =>
          if plan.2 then pure (plan.1, false)
          else Effect.ask fun _ => .error (.occupied "clsact is occupied by a different qdisc")) t'
    | (.error .identityMismatch, t') | (.error (.failed _), t') =>
      (.error (.new tcClsactCreateFailed "exclusive clsact creation failed"), t')

/-- The part of `attach` that looks at what it has done. -/
def verifyAttached (owned : OwnedTc) : Effect τ TcError OwnedTc := fun t =>
  match io.query owned.ifindex t with
  | (.error _, t') =>
    (.error (.verification "TC identity could not be verified after attach" .retainedUnknownState), t')
  | (.ok after, t') =>
    if classifyInventory after owned.hook (some owned) = .owned then (.ok owned, t')
    else
      let (rollback, t'') :=
        if after.hasExact owned.identity then
          match io.detachExact owned.identity t' with
          | (.ok _, t'') => if owned.createdClsact then removeCreatedClsact io owned.ifindex t'' else (.completed, t'')
          | (.error _, t'') => (.failed, t'')
        else if after.hasUnknown then (.retainedUnknownState, t')
        else (.retainedIdentityMismatch, t')
      (.error (.verification "post-attach TC identity did not match the loaded program" rollback), t'')

/-- The part of `attach` behind the clsact qdisc. -/
def attachFilter (ifindex : Nat) (hook : TcHook) (loaded : LoadedTc) (priority : Nat) (createdClsact : Bool) :
    Effect τ TcError OwnedTc := fun t =>
  match io.attachExclusive ifindex hook priority (handleFor hook) loaded.programFd t with
  | (.error .existing, t') =>
    let (error, t'') := attachFailure io pfTcHandleCollision "exclusive TC filter creation found an occupied slot" ifindex
      createdClsact t'
    (.error error, t'')
  | (.error .identityMismatch, t') | (.error (.failed _), t') =>
    let (error, t'') := attachFailure io tcFilterCreateFailed "exclusive TC filter creation failed" ifindex createdClsact t'
    (.error error, t'')
  | (.ok _, t') =>
    verifyAttached io ⟨ifindex, hook, priority, handleFor hook, loaded.programId, createdClsact⟩ t'

def attach (ifindex : Nat) (hook : TcHook) (loaded : LoadedTc) : Effect τ TcError OwnedTc :=
  queryOrUnknown io ifindex >>= fun before =>
    Effect.ask (fun _ => emptyPlan before hook) >>= fun plan =>
      ensureClsact io ifindex hook plan.1 plan.2 >>= fun ready =>
        attachFilter io ifindex hook loaded ready.1 ready.2

/-- `detach` where its filter is gone. -/
def detachAbsent (owned : OwnedTc) : Effect τ TcError TcDetachOutcome := fun t =>
  if owned.createdClsact then
    match removeCreatedClsact io owned.ifindex t with
    | (.completed, t') => (.ok .alreadyAbsent, t')
    | (_, t') =>
      (.error (.new tcClsactRemoveFailed "transaction-created clsact was retained after its filter disappeared"), t')
  else (.ok .alreadyAbsent, t)

/-- `detach` where its filter is there. -/
def detachOwned (owned : OwnedTc) : Effect τ TcError TcDetachOutcome := fun t =>
  match io.detachExact owned.identity t with
  | (.error _, t') => (.error (.new tcDetachFailed "exact owned TC detach failed without broad cleanup"), t')
  | (.ok _, t') =>
    if owned.createdClsact then
      match removeCreatedClsact io owned.ifindex t' with
      | (.completed, t'') => (.ok .detached, t'')
      | (_, t'') =>
        (.error (.new tcClsactRemoveFailed "transaction-created clsact was retained after exact filter detach"), t'')
    else (.ok .detached, t')

def detach (owned : OwnedTc) : Effect τ TcError TcDetachOutcome :=
  queryOrUnknown io owned.ifindex >>= fun current =>
    match classifyInventory current owned.hook (some owned) with
    | .empty _ _ => detachAbsent io owned
    | .owned => detachOwned io owned
    | .foreign => pure .retainedIdentityMismatch
    | .unknown => Effect.ask fun _ => .error .unknownState

end SafeTc

/-! ### The kernel -/

/-- The requests that `send_request` makes, and the dumps of `query_inventory`. -/
structure TcKernel (σ : Type) where
  /-- What stands on each interface. -/
  inventory : σ → Nat → TcInventory
  queryInventory : Nat → σ → Except TcIoError TcInventory
  newQdisc : Nat → σ → Except TcIoError Unit × σ
  newFilter : Nat → TcHook → Nat → Nat → Nat → σ → Except TcIoError Unit × σ
  deleteFilter : TcKernelIdentity → σ → Except TcIoError Unit × σ
  deleteQdisc : Nat → σ → Except TcIoError Unit × σ
  /-- The program behind a descriptor. -/
  programOf : Nat → Nat

namespace TcKernel
variable {σ : Type}

/-- Nothing on the other interfaces has changed. -/
def Elsewhere (k : TcKernel σ) (ifindex : Nat) (s s' : σ) : Prop := ∀ j ≠ ifindex, k.inventory s' j = k.inventory s j

/-- The requests do what they are named for, or they fail and do nothing. Deleting the
qdisc takes all its filters along. -/
structure Behaves (k : TcKernel σ) : Prop where
  query : ∀ i s found, k.queryInventory i s = .ok found → found = k.inventory s i
  newQdisc : ∀ i s s', k.newQdisc i s = (.ok (), s') → (k.inventory s i).clsact = .absent ∧
    k.inventory s' i = ⟨.present, (k.inventory s i).filters⟩ ∧ k.Elsewhere i s s'
  newFilter : ∀ i hook priority handle fd s s', k.newFilter i hook priority handle fd s = (.ok (), s') →
    (∃ front rest, (k.inventory s i).filters = front ++ rest ∧ k.inventory s' i =
      ⟨(k.inventory s i).clsact, front ++ .bpf ⟨i, hook, priority, handle, k.programOf fd⟩ :: rest⟩) ∧ k.Elsewhere i s s'
  deleteFilter : ∀ identity s s', .bpf identity ∈ (k.inventory s identity.ifindex).filters →
    k.deleteFilter identity s = (.ok (), s') → k.inventory s' identity.ifindex =
      ⟨(k.inventory s identity.ifindex).clsact, (k.inventory s identity.ifindex).filters.erase (.bpf identity)⟩ ∧
        k.Elsewhere identity.ifindex s s'
  deleteQdisc : ∀ i s s', k.deleteQdisc i s = (.ok (), s') → (k.inventory s i).clsact = .present ∧
    k.inventory s' i = ⟨.absent, []⟩ ∧ k.Elsewhere i s s'
  newQdisc_failed : ∀ i s s' e, k.newQdisc i s = (.error e, s') → k.inventory s' = k.inventory s
  newFilter_failed : ∀ i hook priority handle fd s s' e, k.newFilter i hook priority handle fd s = (.error e, s') →
    k.inventory s' = k.inventory s
  deleteFilter_failed : ∀ identity s s' e, k.deleteFilter identity s = (.error e, s') → k.inventory s' = k.inventory s
  deleteQdisc_failed : ∀ i s s' e, k.deleteQdisc i s = (.error e, s') → k.inventory s' = k.inventory s

/-- Questions and deletions of what is there never fail. -/
structure Reliable (k : TcKernel σ) : Prop where
  query : ∀ i s, k.queryInventory i s = .ok (k.inventory s i)
  deleteFilter : ∀ identity s, .bpf identity ∈ (k.inventory s identity.ifindex).filters → (k.deleteFilter identity s).1 = .ok ()
  deleteQdisc : ∀ i s, (k.inventory s i).clsact = .present → (k.deleteQdisc i s).1 = .ok ()

end TcKernel

/-- The kernel's state, and the states that the requests so far have found, the last one
first. -/
structure Wire (σ : Type) where
  now : σ
  past : List σ

namespace RtnetlinkTcIo
variable {σ : Type} (k : TcKernel σ)

/-- `send_request`. -/
def sendRequest (request : σ → Except TcIoError Unit × σ) : Effect (Wire σ) TcIoError Unit := fun w =>
  ((request w.now).1, ⟨(request w.now).2, w.now :: w.past⟩)

def query (ifindex : Nat) : Effect (Wire σ) TcIoError TcInventory :=
  Effect.ask fun w => k.queryInventory ifindex w.now

def detachExact (identity : TcKernelIdentity) : Effect (Wire σ) TcIoError Unit :=
  query k identity.ifindex >>= fun current =>
    let owned : OwnedTc :=
      ⟨identity.ifindex, identity.hook, identity.priority, identity.handle, identity.programId, false⟩
    if classifyInventory current identity.hook (some owned) ≠ .owned then Effect.ask fun _ => .error .identityMismatch
    else sendRequest (k.deleteFilter identity)

def removeClsactIfEmptyExact (ifindex : Nat) : Effect (Wire σ) TcIoError Unit :=
  query k ifindex >>= fun current =>
    if current.clsact ≠ .present ∨ ¬current.filters.isEmpty then Effect.ask fun _ => .error .identityMismatch
    else sendRequest (k.deleteQdisc ifindex)

end RtnetlinkTcIo

open RtnetlinkTcIo in
def rtnetlinkTcIo {σ : Type} (k : TcKernel σ) : TcIo (Wire σ) where
  query := query k
  ensureClsactExclusive := fun ifindex => sendRequest (k.newQdisc ifindex)
  attachExclusive := fun ifindex hook priority handle programFd =>
    sendRequest (k.newFilter ifindex hook priority handle programFd)
  detachExact := detachExact k
  removeClsactIfEmptyExact := removeClsactIfEmptyExact k

/-! ### A kernel that behaves -/

/-- The state is what stands on the interfaces, and a descriptor is its program's number. -/
def plainKernel : TcKernel (Nat → TcInventory) where
  inventory := id
  queryInventory := fun i s => .ok (s i)
  newQdisc := fun i s =>
    if (s i).clsact = .absent then (.ok (), Function.update s i ⟨.present, (s i).filters⟩) else (.error .existing, s)
  newFilter := fun i hook priority handle fd s =>
    if (s i).clsact ≠ .present then (.error (.failed "no qdisc"), s)
    else if (s i).filters.any fun slot => slot.hook == hook && slot.priority == some priority && slot.handle == some handle then
      (.error .existing, s)
    else (.ok (), Function.update s i ⟨.present, (s i).filters ++ [.bpf ⟨i, hook, priority, handle, fd⟩]⟩)
  deleteFilter := fun identity s =>
    if .bpf identity ∈ (s identity.ifindex).filters then
      (.ok (), Function.update s identity.ifindex
        ⟨(s identity.ifindex).clsact, (s identity.ifindex).filters.erase (.bpf identity)⟩)
    else (.error (.failed "no filter"), s)
  deleteQdisc := fun i s =>
    if (s i).clsact = .present then (.ok (), Function.update s i ⟨.absent, []⟩) else (.error (.failed "no qdisc"), s)
  programOf := id

/-- A request that updates one interface, or refuses. -/
theorem updated_or_same {c : Prop} [Decidable c] {s s' : Nat → TcInventory} {i : Nat} {found : TcInventory} {e : TcIoError}
    {result : Except TcIoError Unit} (h : (if c then ((.ok () : Except TcIoError Unit), Function.update s i found) else (.error e, s)) = (result, s')) :
    (c ∧ result = .ok () ∧ s' i = found ∧ ∀ j ≠ i, s' j = s j) ∨ (¬c ∧ result = .error e ∧ s' = s) := by
  split at h
  case isTrue hc =>
    cases h
    exact .inl ⟨hc, rfl, Function.update_self .., fun j hj => Function.update_of_ne hj ..⟩
  case isFalse hc =>
    cases h
    exact .inr ⟨hc, rfl, rfl⟩

theorem plainKernel_behaves : plainKernel.Behaves where
  query := fun i s found h => (Except.ok.inj h).symm
  newQdisc := fun i s s' h => by
    rcases updated_or_same h with ⟨hc, -, hnow, helse⟩ | ⟨-, hno, -⟩
    · exact ⟨hc, hnow, helse⟩
    · cases hno
  newFilter := fun i hook priority handle fd s s' h => by
    simp only [plainKernel] at h
    split at h
    case isTrue => cases h
    case isFalse hpresent =>
      split at h
      case isTrue => cases h
      case isFalse =>
        cases h
        refine ⟨⟨(s i).filters, [], (List.append_nil _).symm, ?_⟩, fun j hj => Function.update_of_ne hj ..⟩
        rw [show plainKernel.inventory s i = s i from rfl, not_not.mp hpresent]
        exact Function.update_self ..
  deleteFilter := fun identity s s' hmem h => by
    rcases updated_or_same h with ⟨-, -, hnow, helse⟩ | ⟨-, hno, -⟩
    · exact ⟨hnow, helse⟩
    · cases hno
  deleteQdisc := fun i s s' h => by
    rcases updated_or_same h with ⟨hc, -, hnow, helse⟩ | ⟨-, hno, -⟩
    · exact ⟨hc, hnow, helse⟩
    · cases hno
  newQdisc_failed := fun i s s' e h => by
    rcases updated_or_same h with ⟨-, hno, -⟩ | ⟨-, -, rfl⟩
    · cases hno
    · rfl
  newFilter_failed := fun i hook priority handle fd s s' e h => by
    simp only [plainKernel] at h
    split at h
    case isTrue =>
      cases h
      rfl
    case isFalse =>
      split at h
      case isTrue =>
        cases h
        rfl
      case isFalse => cases h
  deleteFilter_failed := fun identity s s' e h => by
    rcases updated_or_same h with ⟨-, hno, -⟩ | ⟨-, -, rfl⟩
    · cases hno
    · rfl
  deleteQdisc_failed := fun i s s' e h => by
    rcases updated_or_same h with ⟨-, hno, -⟩ | ⟨-, -, rfl⟩
    · cases hno
    · rfl

theorem plainKernel_reliable : plainKernel.Reliable where
  query := fun _ _ => rfl
  deleteFilter := fun identity s hmem => by
    have hhere : TcFilterSlot.bpf identity ∈ (s identity.ifindex).filters := hmem
    simp only [plainKernel, if_pos hhere]
  deleteQdisc := fun i s hpresent => by
    have hhere : (s i).clsact = .present := hpresent
    simp only [plainKernel, if_pos hhere]

end NetworkLoop.Tc
