import NetworkLoop.Library.Effect

/-! The XDP adapter (`xdp.rs` of the agent).

`inventoryFromMessage` reads from the kernel's answer which programs are attached to an
interface, and `classifyInventory` decides whether the hook is empty, ours, or someone else's.
`SafeXdp` attaches, verifies and detaches one program over an `XdpIo`; `RtnetlinkXdpIo` is that
layer over the kernel's requests. The kernel is a parameter: `XdpKernel.Behaves` says what its
answers tell and what a request that succeeds has done. Others may act before each of our
requests. -/
namespace NetworkLoop.Xdp
open Library

/-! ### What is attached to an interface -/

inductive XdpAttachMode where
  | native | generic
  deriving DecidableEq, Repr

/-- `[u8; 8]`. -/
abbrev ProgramTag := BitVec 64

structure XdpKernelIdentity where
  ifindex : Nat
  mode : XdpAttachMode
  programId : Nat
  programTag : ProgramTag
  linkId : Option Nat
  deriving DecidableEq, Repr

structure OwnedXdp where
  ifindex : Nat
  mode : XdpAttachMode
  programId : Nat
  programTag : ProgramTag
  linkId : Option Nat
  deriving DecidableEq, Repr

/-- `XdpKernelIdentity::from`. -/
def OwnedXdp.identity (owned : OwnedXdp) : XdpKernelIdentity :=
  ⟨owned.ifindex, owned.mode, owned.programId, owned.programTag, owned.linkId⟩

def OwnedXdp.matches (owned : OwnedXdp) (current : XdpKernelIdentity) : Bool := owned.identity == current

structure LoadedXdp where
  programFd : Nat
  programId : Nat
  programTag : ProgramTag
  deriving DecidableEq, Repr

inductive XdpSlot where
  | empty
  | attached (identity : XdpKernelIdentity)
  | unknown
  deriving DecidableEq, Repr

structure XdpInventory where
  native : XdpSlot
  generic : XdpSlot
  deriving DecidableEq, Repr

def XdpInventory.slot (inventory : XdpInventory) : XdpAttachMode → XdpSlot
  | .native => inventory.native
  | .generic => inventory.generic

inductive XdpState where
  | empty | owned | foreign | unknown
  deriving DecidableEq, Repr

def classifyInventory (inventory : XdpInventory) (owned : Option OwnedXdp) : XdpState :=
  match inventory.native, inventory.generic with
  | .unknown, _ | _, .unknown => .unknown
  | .empty, .empty => .empty
  | .attached _, .attached _ => .foreign
  | .attached first, .empty | .empty, .attached first => if owned.any (·.matches first) then .owned else .foreign

/-! ### The messages of the kernel -/

def xdpFlagsUpdateIfNoexist : Nat := 1 <<< 0
def xdpFlagsSkbMode : Nat := 1 <<< 1
def xdpFlagsDrvMode : Nat := 1 <<< 2

inductive XdpAttached where
  | none | driver | socketBuffer | hardware | multiple
  | other (value : Nat)
  deriving DecidableEq, Repr

inductive LinkXdp where
  | fd (fd : Int)
  | expectedFd (fd : Nat)
  | attached (value : XdpAttached)
  | flags (flags : Nat)
  | progId (id : Nat)
  | drvProgId (id : Nat)
  | skbProgId (id : Nat)
  | hwProgId (id : Nat)
  | other (kind : Nat)
  deriving DecidableEq, Repr

inductive LinkAttribute where
  | xdp (values : List LinkXdp)
  | other (kind : Nat)
  deriving DecidableEq, Repr

structure LinkMessage where
  index : Nat
  attributes : List LinkAttribute
  deriving DecidableEq, Repr

def modeFlags : XdpAttachMode → Nat
  | .native => xdpFlagsDrvMode
  | .generic => xdpFlagsSkbMode

def encodeRequest (ifindex : Nat) (programFd : Int) (flags : Nat) (expectedFd : Option Nat) : LinkMessage :=
  ⟨ifindex, [.xdp ([.fd programFd, .flags flags] ++ expectedFd.toList.map .expectedFd)]⟩

def encodeAttachRequest (ifindex : Nat) (mode : XdpAttachMode) (programFd : Nat) : LinkMessage :=
  encodeRequest ifindex programFd (modeFlags mode ||| xdpFlagsUpdateIfNoexist) none

def encodeDetachRequest (ifindex : Nat) (mode : XdpAttachMode) (expectedFd : Nat) : LinkMessage :=
  encodeRequest ifindex (-1) (modeFlags mode) (some expectedFd)

/-- All values of the message's XDP attributes, in their order. -/
def LinkMessage.xdpValues (message : LinkMessage) : List LinkXdp :=
  message.attributes.flatMap fun | .xdp values => values | .other _ => []

/-- The variables of the loop in `inventory_from_message`. -/
structure XdpScan where
  attached : Option XdpAttached
  programId : Option Nat
  nativeId : Option Nat
  genericId : Option Nat
  hardwareId : Option Nat

def XdpScan.read (scan : XdpScan) : LinkXdp → XdpScan
  | .attached value => { scan with attached := some value }
  | .progId id => if id ≠ 0 then { scan with programId := some id } else scan
  | .drvProgId id => if id ≠ 0 then { scan with nativeId := some id } else scan
  | .skbProgId id => if id ≠ 0 then { scan with genericId := some id } else scan
  | .hwProgId id => if id ≠ 0 then { scan with hardwareId := some id } else scan
  | .fd _ | .expectedFd _ | .flags _ | .other _ => scan

/-- `program_tag` is the question for a program's tag, which may go unanswered. -/
def slotFromProgram (programTag : Nat → Option ProgramTag) (ifindex : Nat) (mode : XdpAttachMode) : Option Nat → XdpSlot
  | none => .empty
  | some programId =>
    match programTag programId with
    | some tag => .attached ⟨ifindex, mode, programId, tag, none⟩
    | none => .unknown

def inventoryFromMessage (programTag : Nat → Option ProgramTag) (message : LinkMessage) : XdpInventory :=
  let scan := message.xdpValues.foldl XdpScan.read ⟨none, none, none, none, none⟩
  if scan.hardwareId.isSome then ⟨.unknown, .unknown⟩
  else
    let native := slotFromProgram programTag message.index .native scan.nativeId
    let generic := slotFromProgram programTag message.index .generic scan.genericId
    match scan.attached with
    | some .driver =>
      if scan.nativeId.isNone then ⟨slotFromProgram programTag message.index .native scan.programId, generic⟩ else ⟨native, generic⟩
    | some .socketBuffer =>
      if scan.genericId.isNone then ⟨native, slotFromProgram programTag message.index .generic scan.programId⟩ else ⟨native, generic⟩
    | some .multiple =>
      ⟨if scan.nativeId.isNone then .unknown else native, if scan.genericId.isNone then .unknown else generic⟩
    | some .hardware | some (.other _) => ⟨.unknown, .unknown⟩
    | none =>
      if scan.programId.isSome && scan.nativeId.isNone && scan.genericId.isNone then ⟨.unknown, .unknown⟩ else ⟨native, generic⟩
    | some .none => ⟨native, generic⟩

/-! ### The layer below -/

inductive XdpIoError where
  | existing
  | failed (message : String)
  deriving DecidableEq, Repr

/-- `XdpIo`, over the state that its calls change. -/
structure XdpIo (τ : Type) where
  query : Nat → Effect τ XdpIoError XdpInventory
  attachNoReplace : Nat → XdpAttachMode → Nat → Effect τ XdpIoError Unit
  detachIfMatches : Nat → XdpAttachMode → Nat → Effect τ XdpIoError Unit

inductive XdpRollback where
  | completed | failed | retainedIdentityMismatch | retainedUnknownState
  deriving DecidableEq, Repr

inductive XdpDetachOutcome where
  | detached | alreadyAbsent | retainedIdentityMismatch
  deriving DecidableEq, Repr

structure XdpError where
  code : String
  evidence : String
  rollback : Option XdpRollback
  deriving DecidableEq, Repr

def pfXdpOccupied : String := "PF_XDP_OCCUPIED"
def pfXdpStateUnknown : String := "PF_XDP_STATE_UNKNOWN"
def xdpAttachFailed : String := "XDP_ATTACH_FAILED"
def xdpVerifyFailed : String := "XDP_VERIFY_FAILED"
def xdpDetachFailed : String := "XDP_DETACH_FAILED"

namespace XdpError

def new (code evidence : String) : XdpError := ⟨code, evidence, none⟩

def verification (evidence : String) (rollback : XdpRollback) : XdpError := ⟨xdpVerifyFailed, evidence, some rollback⟩

def unknownState : XdpError := new pfXdpStateUnknown "XDP state could not be determined safely"

end XdpError

namespace SafeXdp
variable {τ : Type} (io : XdpIo τ)

def queryOrUnknown (ifindex : Nat) : Effect τ XdpError XdpInventory :=
  (io.query ifindex).orElseError fun _ => .unknownState

/-- The part of `attach` that looks before it acts. -/
def requireEmpty (inventory : XdpInventory) : Except XdpError Unit :=
  match classifyInventory inventory none with
  | .empty => .ok ()
  | .foreign | .owned => .error (.new pfXdpOccupied "an XDP hook is already occupied")
  | .unknown => .error .unknownState

/-- What the error of a failed attach request is told as. -/
def attachError : XdpIoError → XdpError
  | .existing => .new pfXdpOccupied "atomic XDP no-replace attach found an occupied hook"
  | .failed _ => .new xdpAttachFailed "atomic XDP no-replace attach failed"

/-- The part of `attach` that looks at what it has done. -/
def verifyAttached (owned : OwnedXdp) : Effect τ XdpError OwnedXdp := fun t =>
  match io.query owned.ifindex t with
  | (.error _, t') =>
    (.error (.verification "XDP identity could not be verified after attach" .retainedUnknownState), t')
  | (.ok after, t') =>
    if classifyInventory after (some owned) = .owned then (.ok owned, t')
    else
      let (rollback, t'') :=
        match after.slot owned.mode with
        | .attached current =>
          if current.programId = owned.programId then
            match io.detachIfMatches owned.ifindex owned.mode owned.programId t' with
            | (.ok _, t'') => (XdpRollback.completed, t'')
            | (.error _, t'') => (.failed, t'')
          else (.retainedIdentityMismatch, t')
        | .unknown => (.retainedUnknownState, t')
        | .empty => (.retainedIdentityMismatch, t')
      (.error (.verification "post-attach XDP identity did not match the loaded program" rollback), t'')

def attach (ifindex : Nat) (mode : XdpAttachMode) (loaded : LoadedXdp) : Effect τ XdpError OwnedXdp :=
  queryOrUnknown io ifindex >>= fun before =>
    Effect.ask (fun _ => requireEmpty before) >>= fun _ =>
      (io.attachNoReplace ifindex mode loaded.programFd).orElseError attachError >>= fun _ =>
        verifyAttached io ⟨ifindex, mode, loaded.programId, loaded.programTag, none⟩

def detach (owned : OwnedXdp) : Effect τ XdpError XdpDetachOutcome :=
  queryOrUnknown io owned.ifindex >>= fun current =>
    match classifyInventory current (some owned) with
    | .empty => pure .alreadyAbsent
    | .owned =>
      (io.detachIfMatches owned.ifindex owned.mode owned.programId).orElseError
          (fun _ => .new xdpDetachFailed "atomic owned XDP detach failed without broad cleanup") >>= fun _ => pure .detached
    | .foreign => pure .retainedIdentityMismatch
    | .unknown => Effect.ask fun _ => .error .unknownState

def verify (owned : OwnedXdp) : Effect τ XdpError Unit :=
  queryOrUnknown io owned.ifindex >>= fun current =>
    Effect.ask fun _ =>
      match classifyInventory current (some owned) with
      | .owned => .ok ()
      | .empty | .foreign => .error (.new xdpVerifyFailed "current XDP identity does not match the owned link")
      | .unknown => .error .unknownState

end SafeXdp

/-! ### The kernel -/

/-- The programs that are attached to an interface, by their ids. -/
@[ext] structure XdpPrograms where
  native : Option Nat
  generic : Option Nat
  hardware : Option Nat
  deriving DecidableEq, Repr

namespace XdpPrograms

def slot (programs : XdpPrograms) : XdpAttachMode → Option Nat
  | .native => programs.native
  | .generic => programs.generic

def set (programs : XdpPrograms) (mode : XdpAttachMode) (program : Option Nat) : XdpPrograms :=
  match mode with
  | .native => { programs with native := program }
  | .generic => { programs with generic := program }

def attached (programs : XdpPrograms) : XdpAttached :=
  match programs.native, programs.generic, programs.hardware with
  | none, none, none => .none
  | some _, none, none => .driver
  | none, some _, none => .socketBuffer
  | none, none, some _ => .hardware
  | _, _, _ => .multiple

/-- The id that is told where there is one program only. -/
def single (programs : XdpPrograms) : Option Nat :=
  if programs.attached = .multiple then none else programs.native <|> programs.generic <|> programs.hardware

/-- What an older kernel tells of its programs. -/
def reportedBriefly (programs : XdpPrograms) : List LinkXdp := .attached programs.attached :: programs.single.toList.map .progId

/-- What a kernel tells of its programs. -/
def reported (programs : XdpPrograms) : List LinkXdp :=
  programs.generic.toList.map .skbProgId ++ programs.native.toList.map .drvProgId ++ programs.hardware.toList.map .hwProgId ++
    programs.reportedBriefly

end XdpPrograms

/-- The requests for links, and those of `bpf` for programs. -/
structure XdpKernel (σ : Type) where
  programs : σ → Nat → XdpPrograms
  getLink : Nat → σ → Except XdpIoError LinkMessage
  setLink : LinkMessage → σ → Except XdpIoError Unit × σ
  programFdById : Nat → σ → Option Nat
  programTag : σ → Nat → Option ProgramTag
  /-- The program behind a descriptor. -/
  programOf : Nat → Nat

namespace XdpKernel
variable {σ : Type}

/-- From `s` to `s'` one slot has been set and no other one. -/
def Sets (k : XdpKernel σ) (ifindex : Nat) (mode : XdpAttachMode) (program : Option Nat) (s s' : σ) : Prop :=
  k.programs s' = Function.update (k.programs s) ifindex ((k.programs s ifindex).set mode program)

/-- A request to attach that succeeds has found the slot empty, for it is made under
`XDP_FLAGS_UPDATE_IF_NOEXIST`. Nothing is said of what a request to detach has found. -/
structure Behaves (k : XdpKernel σ) : Prop where
  getLink : ∀ i s message, k.getLink i s = .ok message → message.index = i →
    message.xdpValues = (k.programs s i).reported ∨ message.xdpValues = (k.programs s i).reportedBriefly
  nonzero : ∀ s i mode, (k.programs s i).slot mode ≠ some 0
  hardware : ∀ s i, (k.programs s i).hardware ≠ some 0
  attach : ∀ i mode fd s s', k.setLink (encodeAttachRequest i mode fd) s = (.ok (), s') →
    (k.programs s i).slot mode = none ∧ k.Sets i mode (some (k.programOf fd)) s s'
  detach : ∀ i mode fd s s', k.setLink (encodeDetachRequest i mode fd) s = (.ok (), s') → k.Sets i mode none s s'
  failed : ∀ message s s' e, k.setLink message s = (.error e, s') → k.programs s' = k.programs s

end XdpKernel

/-- The kernel's state, what others do before each of our requests, and the states before and
after each request to change something, the last one first. -/
structure Wire (σ : Type) where
  now : σ
  others : Nat → σ → σ
  turn : Nat
  changes : List (σ × σ)

/-- Others have their turn. -/
def Wire.yield {σ : Type} (w : Wire σ) : Wire σ := { w with now := w.others w.turn w.now, turn := w.turn + 1 }

namespace RtnetlinkXdpIo
variable {σ : Type} (k : XdpKernel σ)

def query (ifindex : Nat) : Effect (Wire σ) XdpIoError XdpInventory := fun w =>
  (k.getLink ifindex w.yield.now >>= fun message =>
    if message.index ≠ ifindex then .error (.failed "XDP query returned a different interface")
    else .ok (inventoryFromMessage (k.programTag w.yield.now) message), w.yield)

/-- `run_set`. -/
def runSet (message : LinkMessage) : Effect (Wire σ) XdpIoError Unit := fun w =>
  let (result, after) := k.setLink message w.yield.now
  (result, { w.yield with now := after, changes := (w.yield.now, after) :: w.changes })

def attachNoReplace (ifindex : Nat) (mode : XdpAttachMode) (programFd : Nat) : Effect (Wire σ) XdpIoError Unit :=
  runSet k (encodeAttachRequest ifindex mode programFd)

def detachIfMatches (ifindex : Nat) (mode : XdpAttachMode) (expectedProgramId : Nat) : Effect (Wire σ) XdpIoError Unit := fun w =>
  match k.programFdById expectedProgramId w.yield.now with
  | none => (.error (.failed "owned XDP program identity is no longer available"), w.yield)
  | some expectedFd => runSet k (encodeDetachRequest ifindex mode expectedFd) w.yield

end RtnetlinkXdpIo

open RtnetlinkXdpIo in
def rtnetlinkXdpIo {σ : Type} (k : XdpKernel σ) : XdpIo (Wire σ) where
  query := query k
  attachNoReplace := attachNoReplace k
  detachIfMatches := detachIfMatches k

end NetworkLoop.Xdp
