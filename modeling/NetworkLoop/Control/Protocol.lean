import NetworkLoop.Control.Commands
import NetworkLoop.Library.Wire

/-! The frames of the control socket (`protocol.rs`).

A frame is the payload's length in four bytes and the payload, at most 1 MiB of JSON.
The JSON itself is not modelled: encoding a message and reading one back are parameters,
and a `Codec` is a pair of them in which reading undoes encoding.

`decodeRequest_encodeRequest` and its twin for responses say that an accepted message
comes back from its frame. What a request that came over the socket may contain is
another matter: `decoded_constructed_iff` says that its values have met the bounds of
their constructors exactly if the payload's own fields did. -/
namespace NetworkLoop.Control
open Library

def protocolVersion : Nat := 1
def maxPayloadLen : Nat := 1024 * 1024

/-! ### Messages -/

structure ControlRequest where
  protocolVersion : Nat
  command : AgentCommand
  deriving DecidableEq

def ControlRequest.new (command : AgentCommand) : ControlRequest where
  protocolVersion := Control.protocolVersion
  command := command

/-- `ResponseBody`, over the results a command can have. -/
inductive ResponseBody (Result : Type) where
  | success (result : Result)
  | error (code message : String)
  deriving DecidableEq

structure ControlResponse (Result : Type) where
  protocolVersion : Nat
  body : ResponseBody Result
  deriving DecidableEq

namespace ControlResponse
variable {Result : Type}

def success (result : Result) : ControlResponse Result where
  protocolVersion := Control.protocolVersion
  body := .success result

def error (code message : String) : ControlResponse Result where
  protocolVersion := Control.protocolVersion
  body := .error code message

end ControlResponse

inductive ProtocolError where
  | missingLengthPrefix
  | payloadTooLarge (declared maximum : Nat)
  | lengthMismatch (declared actual : Nat)
  | invalidJson (error : String)
  | unsupportedVersion (version : Nat)
  deriving DecidableEq, Repr

/-- `serde_json::to_vec` and `serde_json::from_slice` at one type. -/
structure Codec (Message : Type) where
  toVec : Message → Except String (List UInt8)
  fromSlice : List UInt8 → Except String Message
  fromSlice_toVec : ∀ message payload, toVec message = .ok payload → fromSlice payload = .ok message

/-- The codec of one message and its text. -/
def Codec.single {Message : Type} [DecidableEq Message] (message : Message) (payload : List UInt8) :
    Codec Message where
  toVec m := if m = message then .ok payload else .error "no text"
  fromSlice p := if p = payload then .ok message else .error "expected value at line 1 column 1"
  fromSlice_toVec m p h := by
    split at h
    case isTrue hm =>
      cases h
      rw [hm, if_pos rfl]
    case isFalse => cases h

/-! ### Frames -/

section
variable {Message : Type}

def ensureVersion (version : Nat) : Except ProtocolError Unit :=
  if version = protocolVersion then .ok () else .error (.unsupportedVersion version)

def encodeFrame (toVec : Message → Except String (List UInt8)) (value : Message) :
    Except ProtocolError (List UInt8) :=
  match toVec value with
  | .error error => .error (.invalidJson error)
  | .ok payload =>
    if payload.length > maxPayloadLen then .error (.payloadTooLarge payload.length maxPayloadLen)
    -- the cast to `u32` keeps the low four bytes
    else .ok (BigEndian.bytes 4 payload.length ++ payload)

def decodeFrame (fromSlice : List UInt8 → Except String Message) (frame : List UInt8) :
    Except ProtocolError Message :=
  if frame.length < 4 then .error .missingLengthPrefix
  else
    let declared := BigEndian.value (frame.take 4)
    if declared > maxPayloadLen then .error (.payloadTooLarge declared maxPayloadLen)
    else
      let actual := frame.length - 4
      if actual ≠ declared then .error (.lengthMismatch declared actual)
      else
        match fromSlice (frame.drop 4) with
        | .error error => .error (.invalidJson error)
        | .ok value => .ok value

/-- `encode_request` and `encode_response`: the version is checked first. -/
def encodeMessage (version : Message → Nat) (toVec : Message → Except String (List UInt8)) (message : Message) :
    Except ProtocolError (List UInt8) :=
  ensureVersion (version message) >>= fun _ => encodeFrame toVec message

/-- `decode_request` and `decode_response`: the version is checked last. -/
def decodeMessage (version : Message → Nat) (fromSlice : List UInt8 → Except String Message) (frame : List UInt8) :
    Except ProtocolError Message :=
  decodeFrame fromSlice frame >>= fun message => ensureVersion (version message) >>= fun _ => .ok message

end

def encodeRequest (toVec : ControlRequest → Except String (List UInt8)) :
    ControlRequest → Except ProtocolError (List UInt8) :=
  encodeMessage ControlRequest.protocolVersion toVec

def decodeRequest (fromSlice : List UInt8 → Except String ControlRequest) :
    List UInt8 → Except ProtocolError ControlRequest :=
  decodeMessage ControlRequest.protocolVersion fromSlice

section
variable {Result : Type}

def encodeResponse (toVec : ControlResponse Result → Except String (List UInt8)) :
    ControlResponse Result → Except ProtocolError (List UInt8) :=
  encodeMessage ControlResponse.protocolVersion toVec

def decodeResponse (fromSlice : List UInt8 → Except String (ControlResponse Result)) :
    List UInt8 → Except ProtocolError (ControlResponse Result) :=
  decodeMessage ControlResponse.protocolVersion fromSlice

end

section
variable {Message : Type}

theorem ensureVersion_eq_ok {version : Nat} : ensureVersion version = .ok () ↔ version = protocolVersion := by
  rw [ensureVersion]
  split
  case isTrue h => simp [h]
  case isFalse h => simp [h]

theorem encodeFrame_eq_ok {toVec : Message → Except String (List UInt8)} {value : Message} {frame : List UInt8} :
    encodeFrame toVec value = .ok frame ↔ ∃ payload, toVec value = .ok payload ∧
      payload.length ≤ maxPayloadLen ∧ frame = BigEndian.bytes 4 payload.length ++ payload := by
  rw [encodeFrame]
  cases toVec value with
  | error error => simp
  | ok payload =>
    by_cases h : payload.length > maxPayloadLen
    · simp [h]
    · simp [h, Nat.le_of_not_gt h, eq_comm]

/-- A payload that the limit admits fits the four bytes of its length. -/
theorem value_payload_length {payload : List UInt8} (h : payload.length ≤ maxPayloadLen) :
    BigEndian.value (BigEndian.bytes 4 payload.length) = payload.length :=
  BigEndian.value_bytes (Nat.lt_of_le_of_lt h (by decide))

theorem decodeFrame_eq_ok {fromSlice : List UInt8 → Except String Message} {frame : List UInt8} {value : Message} :
    decodeFrame fromSlice frame = .ok value ↔ 4 ≤ frame.length ∧
      BigEndian.value (frame.take 4) ≤ maxPayloadLen ∧ frame.length - 4 = BigEndian.value (frame.take 4) ∧
      fromSlice (frame.drop 4) = .ok value := by
  rw [decodeFrame]
  by_cases hshort : frame.length < 4
  · simp [hshort, Nat.not_le.mpr hshort]
  by_cases hlarge : BigEndian.value (frame.take 4) > maxPayloadLen
  · simp [hshort, hlarge, Nat.not_le.mpr hlarge]
  by_cases hactual : frame.length - 4 = BigEndian.value (frame.take 4)
  · cases fromSlice (frame.drop 4) with
    | error error => simp [hshort, hlarge, hactual]
    | ok value => simp [hshort, hlarge, hactual, Nat.le_of_not_lt hshort, Nat.le_of_not_gt hlarge]
  · simp [hshort, hlarge, hactual]

/-- **A message comes back from its frame.** -/
theorem decodeMessage_encodeMessage (version : Message → Nat) (codec : Codec Message) {message : Message}
    {frame : List UInt8} (h : encodeMessage version codec.toVec message = .ok frame) :
    decodeMessage version codec.fromSlice frame = .ok message := by
  obtain ⟨hversion, hframe⟩ := bind_unit_eq_ok.mp h
  obtain ⟨payload, hvec, hlength, rfl⟩ := encodeFrame_eq_ok.mp hframe
  have hvalue := value_payload_length hlength
  have hdecoded : decodeFrame codec.fromSlice (BigEndian.bytes 4 payload.length ++ payload) = .ok message := by
    rw [decodeFrame_eq_ok, List.take_left' (BigEndian.length_bytes ..), List.drop_left' (BigEndian.length_bytes ..),
      hvalue, List.length_append, BigEndian.length_bytes]
    exact ⟨Nat.le_add_right .., hlength, Nat.add_sub_cancel_left .., codec.fromSlice_toVec _ _ hvec⟩
  rw [decodeMessage, hdecoded]
  exact bind_unit_eq_ok.mpr ⟨hversion, rfl⟩

theorem decodeMessage_eq_ok {version : Message → Nat} {fromSlice : List UInt8 → Except String Message}
    {frame : List UInt8} {message : Message} (h : decodeMessage version fromSlice frame = .ok message) :
    fromSlice (frame.drop 4) = .ok message ∧ version message = protocolVersion := by
  obtain ⟨decoded, hdecoded, hrest⟩ := bind_eq_ok.mp h
  obtain ⟨hversion, heq⟩ := bind_unit_eq_ok.mp hrest
  cases heq
  exact ⟨(decodeFrame_eq_ok.mp hdecoded).2.2.2, ensureVersion_eq_ok.mp hversion⟩

end

/-! ### What a decoded request contains -/

/-- A request as a payload has it. -/
structure WireRequest where
  protocolVersion : Nat
  command : WireCommand
  deriving DecidableEq

/-- The derived decoder of `ControlRequest`. -/
def WireRequest.deserialize (wire : WireRequest) : Except String ControlRequest :=
  match wire.command.deserialize with
  | .ok command => .ok ⟨wire.protocolVersion, command⟩
  | .error error => .error error

/-- `serde_json::from_slice` at `ControlRequest`: `read` finds the fields in the text, and
the derived decoders fill them in as they are. -/
def requestFromSlice (read : List UInt8 → Except String WireRequest) (payload : List UInt8) :
    Except String ControlRequest :=
  match read payload with
  | .ok wire => wire.deserialize
  | .error error => .error error

theorem requestFromSlice_eq_ok {read : List UInt8 → Except String WireRequest} {payload : List UInt8}
    {request : ControlRequest} (h : requestFromSlice read payload = .ok request) :
    ∃ wire, read payload = .ok wire ∧ wire.command.deserialize = .ok request.command := by
  rw [requestFromSlice] at h
  split at h
  case h_1 wire hread =>
    rw [WireRequest.deserialize] at h
    split at h
    case h_1 command hcommand =>
      cases h
      exact ⟨wire, hread, hcommand⟩
    case h_2 => cases h
  case h_2 => cases h

/-- **What comes over the socket has met its bounds exactly if the payload kept them.** No
decoder on the way runs a constructor. -/
theorem decoded_constructed_iff (read : List UInt8 → Except String WireRequest) (frame : List UInt8)
    (request : ControlRequest) (h : decodeRequest (requestFromSlice read) frame = .ok request) :
    request.command.Constructed ↔ ∃ wire, read (frame.drop 4) = .ok wire ∧ wire.command.InBounds := by
  obtain ⟨hpayload, -⟩ := decodeMessage_eq_ok h
  obtain ⟨wire, hread, hcommand⟩ := requestFromSlice_eq_ok hpayload
  rw [WireCommand.constructed_iff hcommand]
  constructor
  · intro hbounds
    exact ⟨wire, hread, hbounds⟩
  · rintro ⟨_, hread', hbounds⟩
    cases hread.symm.trans hread'
    exact hbounds

/-! A name that is a path: the text decodes, the constructor refuses the name. -/

def pathPayload : List UInt8 :=
  "\x7b\"protocol_version\":1,\"kind\":\"observe\",\"interface\":\"../../bus\"\x7d".toUTF8.data.toList

/-- What `serde_json` reads from that text, and it reads nothing else. -/
def readPath (payload : List UInt8) : Except String WireRequest :=
  if payload = pathPayload then .ok ⟨1, .observe "../../bus"⟩ else .error "expected value at line 1 column 1"

def pathFrame : List UInt8 := BigEndian.bytes 4 pathPayload.length ++ pathPayload

theorem decode_pathFrame : decodeRequest (requestFromSlice readPath) pathFrame =
    .ok ⟨1, .observe ⟨"../../bus"⟩⟩ := rfl

theorem path_not_valid : InterfaceName.valid "../../bus" = false := by decide

theorem decoded_constructed_iff_path : ∃ request,
    decodeRequest (requestFromSlice readPath) pathFrame = .ok request ∧
      (request.command.Constructed ↔ ∃ wire, readPath (pathFrame.drop 4) = .ok wire ∧ wire.command.InBounds) :=
  ⟨_, decode_pathFrame, decoded_constructed_iff readPath pathFrame _ decode_pathFrame⟩

theorem decoded_path_not_constructed : ¬ ∀ read frame request,
    decodeRequest (requestFromSlice read) frame = .ok request → request.command.Constructed := by
  intro hall
  have hname := (hall readPath pathFrame _ decode_pathFrame).interfaceNames ⟨"../../bus"⟩ (List.mem_singleton.mpr rfl)
  rw [InterfaceName.accepted_iff, path_not_valid] at hname
  cases hname

end NetworkLoop.Control
