import NetworkLoop.Evidence.Cursor

/-! The commands of the control socket (`command.rs`, `interface.rs`, `policy.rs` and
`probe.rs` of the domain crate).

`InterfaceName`, `PolicyRequest` and `ProbeRequest` are made by constructors that check
their bounds, but the types carry no proof of it: the derived decoders build them from
the fields of a payload without a check. The two ways of making a value are here side by
side, and `PolicyRequest.accepted_iff` and `ProbeRequest.accepted_iff` say which fields
give a value that the constructor gives too. -/
namespace NetworkLoop

/-- `supports_policing`. -/
def Observation.TrafficClass.supportsPolicing : Observation.TrafficClass → Bool
  | .all | .unicastOrUnclassified => false
  | _ => true

/-- The discriminant of `repr(u8)`. -/
def Observation.TrafficClass.toNat : Observation.TrafficClass → Nat
  | .all => 1
  | .l2Broadcast => 2
  | .ipv4Multicast => 3
  | .ipv6Multicast => 4
  | .otherL2Multicast => 5
  | .linkLocalControl => 6
  | .unicastOrUnclassified => 7

namespace Control
open Observation

/-- A `std::time::Duration`, in nanoseconds. -/
abbrev Duration := Nat

def Duration.fromMillis (ms : Nat) : Duration := ms * 1000000
def Duration.fromSecs (secs : Nat) : Duration := Duration.fromMillis (secs * 1000)
def Duration.asMillis (d : Duration) : Nat := d / 1000000

/-! ### Names and VLANs -/

structure InterfaceName where
  value : String
  deriving DecidableEq, Repr

namespace InterfaceName

/-- `valid` in the constructor. A character outside ASCII fails the byte test of the
source and the test here. -/
def valid (value : String) : Bool :=
  !value.isEmpty && value.utf8ByteSize ≤ 15 &&
    value.toList.all fun c => c.isAlphanum || c == '.' || c == '_' || c == '-' || c == ':'

def new (value : String) : Except DomainError InterfaceName :=
  if valid value then .ok ⟨value⟩ else .error .invalidInterfaceName

/-- The constructor gives this value for some argument. -/
def Accepted (name : InterfaceName) : Prop := ∃ value, new value = .ok name

theorem new_eq_ok {value : String} {name : InterfaceName} :
    new value = .ok name ↔ valid value = true ∧ name = ⟨value⟩ := by
  rw [new]
  split
  case isTrue h => exact ⟨fun hok => ⟨h, (Except.ok.inj hok).symm⟩, fun hok => congrArg Except.ok hok.2.symm⟩
  case isFalse h => exact ⟨fun hok => (by cases hok), fun hok => absurd hok.1 h⟩

theorem accepted_iff (value : String) : Accepted ⟨value⟩ ↔ valid value = true := by
  constructor
  · rintro ⟨argument, h⟩
    obtain ⟨hvalid, hname⟩ := new_eq_ok.mp h
    cases hname
    exact hvalid
  · intro h
    exact ⟨value, new_eq_ok.mpr ⟨h, rfl⟩⟩

end InterfaceName

def validVlan (vlan : Option Nat) : Prop := ∀ value ∈ vlan, 1 ≤ value ∧ value ≤ 4094

instance (vlan : Option Nat) : Decidable (validVlan vlan) :=
  inferInstanceAs (Decidable (∀ value ∈ vlan, 1 ≤ value ∧ value ≤ 4094))

def validateVlan : Option Nat → Except DomainError Unit
  | none => .ok ()
  | some value => if 1 ≤ value ∧ value ≤ 4094 then .ok () else .error (.invalidVlan value)

theorem validateVlan_eq_ok {vlan : Option Nat} : validateVlan vlan = .ok () ↔ validVlan vlan := by
  cases vlan with
  | none => simp [validateVlan, validVlan]
  | some value =>
    rw [validateVlan, validVlan]
    split
    case isTrue h => simpa using h
    case isFalse h => simpa using h

/-- A check followed by the rest of a constructor. -/
theorem guarded_eq_ok {α : Type} {refused : Prop} [Decidable refused] {error : DomainError}
    {rest : Except DomainError α} {a : α} :
    (if refused then .error error else rest) = .ok a ↔ ¬ refused ∧ rest = .ok a := by
  split
  case isTrue h => simp [h]
  case isFalse h => simp [h]

/-! ### Policy requests -/

def minPolicyTtl : Duration := .fromSecs 1
def maxPolicyTtl : Duration := .fromSecs (24 * 60 * 60)

structure PolicyRequest where
  interface : InterfaceName
  vlan : Option Nat
  trafficClass : TrafficClass
  pps : Option Nat
  bps : Option Nat
  ttl : Duration
  deriving DecidableEq, Repr

/-- The fields of a policy request as a payload has them. -/
@[ext] structure WirePolicyRequest where
  interface : String
  vlan : Option Nat
  trafficClass : TrafficClass
  pps : Option Nat
  bps : Option Nat
  ttl : Duration
  deriving DecidableEq, Repr

/-- The derived decoder of `PolicyRequest`, with the transparent one of its name. -/
def WirePolicyRequest.deserialize (wire : WirePolicyRequest) : PolicyRequest where
  interface := ⟨wire.interface⟩
  vlan := wire.vlan
  trafficClass := wire.trafficClass
  pps := wire.pps
  bps := wire.bps
  ttl := wire.ttl

namespace PolicyRequest

def new (interface : String) (vlan : Option Nat) (trafficClass : TrafficClass) (pps bps : Option Nat)
    (ttl : Duration) : Except DomainError PolicyRequest :=
  InterfaceName.new interface >>= fun interface =>
  validateVlan vlan >>= fun _ =>
  if trafficClass.supportsPolicing = false then .error (.unsupportedPolicyClass trafficClass.toNat)
  else if pps = none ∧ bps = none then .error .missingRateLimit
  else if pps = some 0 then .error (.zeroRateLimit "packet")
  else if bps = some 0 then .error (.zeroRateLimit "byte")
  else if ¬ (minPolicyTtl ≤ ttl ∧ ttl ≤ maxPolicyTtl) then .error (.invalidPolicyTtl ttl.asMillis)
  else .ok { interface, vlan, trafficClass, pps, bps, ttl }

/-- The constructor gives this request for some arguments. -/
def Accepted (request : PolicyRequest) : Prop :=
  ∃ interface vlan trafficClass pps bps ttl, new interface vlan trafficClass pps bps ttl = .ok request

end PolicyRequest

/-- The bounds of a policy request, on the fields of a payload. -/
structure WirePolicyRequest.InBounds (wire : WirePolicyRequest) : Prop where
  interface : InterfaceName.valid wire.interface = true
  vlan : validVlan wire.vlan
  trafficClass : wire.trafficClass ≠ .all ∧ wire.trafficClass ≠ .unicastOrUnclassified
  limited : ¬ (wire.pps = none ∧ wire.bps = none)
  pps : wire.pps ≠ some 0
  bps : wire.bps ≠ some 0
  ttl : minPolicyTtl ≤ wire.ttl ∧ wire.ttl ≤ maxPolicyTtl

namespace PolicyRequest

theorem supportsPolicing_eq_false {trafficClass : TrafficClass} :
    trafficClass.supportsPolicing = false ↔ trafficClass = .all ∨ trafficClass = .unicastOrUnclassified := by
  cases trafficClass <;> decide

theorem new_eq_ok {wire : WirePolicyRequest} {request : PolicyRequest} :
    new wire.interface wire.vlan wire.trafficClass wire.pps wire.bps wire.ttl = .ok request ↔
      wire.InBounds ∧ request = wire.deserialize := by
  rw [new, bind_eq_ok]
  simp only [bind_unit_eq_ok, validateVlan_eq_ok, guarded_eq_ok, InterfaceName.new_eq_ok,
    supportsPolicing_eq_false, not_or, not_not, Except.ok.injEq]
  constructor
  · rintro ⟨_, ⟨hname, rfl⟩, hvlan, hclass, hlimited, hpps, hbps, httl, rfl⟩
    exact ⟨⟨hname, hvlan, hclass, hlimited, hpps, hbps, httl⟩, rfl⟩
  · rintro ⟨h, rfl⟩
    exact ⟨_, ⟨h.interface, rfl⟩, h.vlan, h.trafficClass, h.limited, h.pps, h.bps, h.ttl, rfl⟩

/-- What the decoder fills in is what the constructor gives exactly if the fields are in
their bounds. -/
theorem accepted_iff (wire : WirePolicyRequest) : wire.deserialize.Accepted ↔ wire.InBounds := by
  constructor
  · rintro ⟨interface, vlan, trafficClass, pps, bps, ttl, h⟩
    let argument : WirePolicyRequest := ⟨interface, vlan, trafficClass, pps, bps, ttl⟩
    obtain ⟨hbounds, hrequest⟩ : argument.InBounds ∧ wire.deserialize = argument.deserialize := new_eq_ok.mp h
    have hwire : wire = argument := by
      simpa [argument, WirePolicyRequest.deserialize, WirePolicyRequest.ext_iff] using hrequest
    rw [hwire]
    exact hbounds
  · intro h
    exact ⟨_, _, _, _, _, _, new_eq_ok.mpr ⟨h, rfl⟩⟩

end PolicyRequest

/-! ### Probe requests -/

def minProbeTimeout : Duration := .fromMillis 100
def maxProbeTimeout : Duration := .fromSecs 30

inductive ProbeScope where
  | external | internal
  deriving DecidableEq, Repr

structure ProbeRequest where
  interface : InterfaceName
  scope : ProbeScope
  vlan : Option Nat
  timeout : Duration
  deriving DecidableEq, Repr

/-- The fields of a probe request as a payload has them. -/
@[ext] structure WireProbeRequest where
  interface : String
  scope : ProbeScope
  vlan : Option Nat
  timeout : Duration
  deriving DecidableEq, Repr

/-- The derived decoder of `ProbeRequest`. -/
def WireProbeRequest.deserialize (wire : WireProbeRequest) : ProbeRequest where
  interface := ⟨wire.interface⟩
  scope := wire.scope
  vlan := wire.vlan
  timeout := wire.timeout

/-- The bounds of a probe request, on the fields of a payload. -/
structure WireProbeRequest.InBounds (wire : WireProbeRequest) : Prop where
  interface : InterfaceName.valid wire.interface = true
  vlan : validVlan wire.vlan
  timeout : minProbeTimeout ≤ wire.timeout ∧ wire.timeout ≤ maxProbeTimeout

namespace ProbeRequest

def new (interface : String) (scope : ProbeScope) (vlan : Option Nat) (timeout : Duration) :
    Except DomainError ProbeRequest :=
  InterfaceName.new interface >>= fun interface =>
  validateVlan vlan >>= fun _ =>
  if ¬ (minProbeTimeout ≤ timeout ∧ timeout ≤ maxProbeTimeout) then
    .error (.invalidProbeTimeout timeout.asMillis)
  else .ok { interface, scope, vlan, timeout }

/-- The constructor gives this request for some arguments. -/
def Accepted (request : ProbeRequest) : Prop :=
  ∃ interface scope vlan timeout, new interface scope vlan timeout = .ok request

theorem new_eq_ok {wire : WireProbeRequest} {request : ProbeRequest} :
    new wire.interface wire.scope wire.vlan wire.timeout = .ok request ↔
      wire.InBounds ∧ request = wire.deserialize := by
  rw [new, bind_eq_ok]
  simp only [bind_unit_eq_ok, validateVlan_eq_ok, guarded_eq_ok, InterfaceName.new_eq_ok, not_not,
    Except.ok.injEq]
  constructor
  · rintro ⟨_, ⟨hname, rfl⟩, hvlan, htimeout, rfl⟩
    exact ⟨⟨hname, hvlan, htimeout⟩, rfl⟩
  · rintro ⟨h, rfl⟩
    exact ⟨_, ⟨h.interface, rfl⟩, h.vlan, h.timeout, rfl⟩

/-- As for a policy request. -/
theorem accepted_iff (wire : WireProbeRequest) : wire.deserialize.Accepted ↔ wire.InBounds := by
  constructor
  · rintro ⟨interface, scope, vlan, timeout, h⟩
    let argument : WireProbeRequest := ⟨interface, scope, vlan, timeout⟩
    obtain ⟨hbounds, hrequest⟩ : argument.InBounds ∧ wire.deserialize = argument.deserialize := new_eq_ok.mp h
    have hwire : wire = argument := by
      simpa [argument, WireProbeRequest.deserialize, WireProbeRequest.ext_iff] using hrequest
    rw [hwire]
    exact hbounds
  · intro h
    exact ⟨_, _, _, _, new_eq_ok.mpr ⟨h, rfl⟩⟩

end ProbeRequest

/-! ### Commands -/

inductive AgentCommand where
  | preflight (interface : InterfaceName)
  | isolatedAttach (interface : InterfaceName) (runId : String)
  | isolatedDetach (runId : String)
  | observe (interface : InterfaceName)
  | status (interface : Option InterfaceName)
  | probe (request : ProbeRequest)
  | applyPolicy (request : PolicyRequest)
  | disablePolicy (ruleId : String)
  | evidenceList (interface : Option InterfaceName) (limit : Nat) (cursor : Option String)
  | evidenceShow (eventId : EventId)
  deriving DecidableEq

/-- A command as a payload has it: the variant its `kind` names and the variant's fields. -/
inductive WireCommand where
  | preflight (interface : String)
  | isolatedAttach (interface runId : String)
  | isolatedDetach (runId : String)
  | observe (interface : String)
  | status (interface : Option String)
  | probe (request : WireProbeRequest)
  | applyPolicy (request : WirePolicyRequest)
  | disablePolicy (ruleId : String)
  | evidenceList (interface : Option String) (limit : Nat) (cursor : Option String)
  | evidenceShow (eventId : String)
  deriving DecidableEq

namespace WireCommand

/-- The derived decoder of `AgentCommand`. Of the values a command carries only the event
ID has a decoder of its own, which parses the text. -/
def deserialize : WireCommand → Except String AgentCommand
  | .preflight interface => .ok (.preflight ⟨interface⟩)
  | .isolatedAttach interface runId => .ok (.isolatedAttach ⟨interface⟩ runId)
  | .isolatedDetach runId => .ok (.isolatedDetach runId)
  | .observe interface => .ok (.observe ⟨interface⟩)
  | .status interface => .ok (.status (interface.map InterfaceName.mk))
  | .probe request => .ok (.probe request.deserialize)
  | .applyPolicy request => .ok (.applyPolicy request.deserialize)
  | .disablePolicy ruleId => .ok (.disablePolicy ruleId)
  | .evidenceList interface limit cursor => .ok (.evidenceList (interface.map InterfaceName.mk) limit cursor)
  | .evidenceShow eventId =>
    match Evidence.parseEventId eventId.toList with
    | .ok eventId => .ok (.evidenceShow eventId)
    | .error _ => .error "event ID must be 32 lowercase hexadecimal characters"

/-- Every name, policy and probe that the payload has is in the bounds of its constructor. -/
def InBounds : WireCommand → Prop
  | .preflight interface | .isolatedAttach interface _ | .observe interface => InterfaceName.valid interface = true
  | .status interface | .evidenceList interface _ _ => ∀ name ∈ interface, InterfaceName.valid name = true
  | .probe request => request.InBounds
  | .applyPolicy request => request.InBounds
  | .isolatedDetach _ | .disablePolicy _ | .evidenceShow _ => True

end WireCommand

namespace AgentCommand

/-- Every interface name inside a command. -/
def interfaceNames : AgentCommand → List InterfaceName
  | .preflight interface | .isolatedAttach interface _ | .observe interface => [interface]
  | .status interface | .evidenceList interface _ _ => interface.toList
  | .probe request => [request.interface]
  | .applyPolicy request => [request.interface]
  | .isolatedDetach _ | .disablePolicy _ | .evidenceShow _ => []

def policyRequests : AgentCommand → List PolicyRequest
  | .applyPolicy request => [request]
  | _ => []

def probeRequests : AgentCommand → List ProbeRequest
  | .probe request => [request]
  | _ => []

/-- Every value inside the command is one that its constructor accepts. -/
structure Constructed (command : AgentCommand) : Prop where
  interfaceNames : ∀ name ∈ command.interfaceNames, name.Accepted
  policyRequests : ∀ request ∈ command.policyRequests, request.Accepted
  probeRequests : ∀ request ∈ command.probeRequests, request.Accepted

theorem constructed_iff {command : AgentCommand} : command.Constructed ↔
    (∀ name ∈ command.interfaceNames, name.Accepted) ∧ (∀ request ∈ command.policyRequests, request.Accepted) ∧
      ∀ request ∈ command.probeRequests, request.Accepted :=
  ⟨fun h => ⟨h.1, h.2, h.3⟩, fun h => ⟨h.1, h.2.1, h.2.2⟩⟩

end AgentCommand

/-- A decoded command is one the constructors could have built exactly if its payload kept
their bounds. -/
theorem WireCommand.constructed_iff {wire : WireCommand} {command : AgentCommand}
    (h : wire.deserialize = .ok command) : command.Constructed ↔ wire.InBounds := by
  rw [AgentCommand.constructed_iff]
  cases wire with
  | evidenceShow eventId =>
    rw [deserialize] at h
    split at h
    · cases h
      simp [AgentCommand.interfaceNames, AgentCommand.policyRequests, AgentCommand.probeRequests, InBounds]
    · cases h
  | probe request =>
    cases h
    have hname : request.InBounds → request.deserialize.interface.Accepted :=
      fun hbounds => (InterfaceName.accepted_iff _).mpr hbounds.interface
    simpa [AgentCommand.interfaceNames, AgentCommand.policyRequests, AgentCommand.probeRequests, InBounds,
      ProbeRequest.accepted_iff] using hname
  | applyPolicy request =>
    cases h
    have hname : request.InBounds → request.deserialize.interface.Accepted :=
      fun hbounds => (InterfaceName.accepted_iff _).mpr hbounds.interface
    simpa [AgentCommand.interfaceNames, AgentCommand.policyRequests, AgentCommand.probeRequests, InBounds,
      PolicyRequest.accepted_iff] using hname
  | _ =>
    cases h
    simp [AgentCommand.interfaceNames, AgentCommand.policyRequests, AgentCommand.probeRequests, InBounds,
      InterfaceName.accepted_iff]

end Control

end NetworkLoop
