import NetworkLoop.Control.Protocol

/-! Frames on the socket (`transport.rs`).

The socket gives its bytes in whatever pieces they arrive, so a buffer is filled by
reading until it is full or a read comes back empty. `readBounded_full` and
`readBounded_short` say what that loop makes of the stream's contents, however they are
cut; from there `readFrame` is three cases: a whole frame, a frame that ends early, a
length that is refused before a byte of its payload is read.

`transport_round_trip` puts the codec on top: what a peer encodes is what the other side
decodes, and it leaves on the socket whatever follows. -/
namespace NetworkLoop.Control
open Library

def lengthPrefixLen : Nat := 4

inductive TransportError (ε : Type) where
  | earlyEof (declared received : Nat)
  | payloadTooLarge (declared maximum : Nat)
  | io (error : ε)
  deriving DecidableEq, Repr

variable {ε : Type}

/-- The loop of `read_bounded`: `received` holds what is in the buffer so far. A read that
comes back empty ends it, the buffer being full or not. -/
def readBoundedFrom (size : Nat) (received : List UInt8) (reader : Incoming UInt8 ε) :
    Except ε (List UInt8) × Incoming UInt8 ε :=
  if received.length < size then
    match Incoming.read (size - received.length) reader with
    | (.error error, reader) => (.error error, reader)
    | (.ok [], reader) => (.ok received, reader)
    | (.ok (byte :: data), reader) => readBoundedFrom size (received ++ byte :: data) reader
  else (.ok received, reader)
termination_by size - received.length
decreasing_by
  simp only [List.length_append, List.length_cons]
  omega

/-- `read_bounded` into a buffer of `size` bytes. -/
def readBounded (size : Nat) (reader : Incoming UInt8 ε) : Except ε (List UInt8) × Incoming UInt8 ε :=
  readBoundedFrom size [] reader

def readFrame (reader : Incoming UInt8 ε) : Except (TransportError ε) (List UInt8) × Incoming UInt8 ε :=
  match readBounded lengthPrefixLen reader with
  | (.error error, reader) => (.error (.io error), reader)
  | (.ok lengthPrefix, reader) =>
    if lengthPrefix.length ≠ lengthPrefixLen then
      (.error (.earlyEof lengthPrefixLen lengthPrefix.length), reader)
    else
      let declared := BigEndian.value lengthPrefix
      if declared > maxPayloadLen then (.error (.payloadTooLarge declared maxPayloadLen), reader)
      else
        match readBounded declared reader with
        | (.error error, reader) => (.error (.io error), reader)
        | (.ok payload, reader) =>
          if payload.length ≠ declared then (.error (.earlyEof declared payload.length), reader)
          else (.ok (lengthPrefix ++ payload), reader)

/-! ### Filling a buffer -/

/-- Bytes as they stand in the contents of a stream. -/
abbrev sent (data : List UInt8) : List (UInt8 ⊕ ε) := data.map .inl

theorem sent_append (a b : List UInt8) : (sent (a ++ b) : List (UInt8 ⊕ ε)) = sent a ++ sent b := List.map_append

/-- The loop reads on until the buffer is full or the stream has ended, whatever the
pieces: it takes `data` if that fills the room or is all there is. The induction is on
what is still to come of `data`. -/
theorem readBoundedFrom_spec {size : Nat} {received data : List UInt8} {rest : List (UInt8 ⊕ ε)}
    {reader : Incoming UInt8 ε} (hroom : received.length + data.length ≤ size)
    (hstop : received.length + data.length = size ∨ rest = []) (h : reader.contents = sent data ++ rest) :
    ∃ reader', readBoundedFrom size received reader = (.ok (received ++ data), reader') ∧
      reader'.contents = rest := by
  induction hlength : data.length using Nat.strong_induction_on generalizing received data reader with
  | _ length ih =>
    rw [readBoundedFrom]
    by_cases hfull : received.length < size
    · rw [if_pos hfull]
      rcases Incoming.read_cases (Nat.sub_pos_of_lt hfull) reader with
        ⟨rfl, hread⟩ | ⟨error, reader', -, hfault⟩ | ⟨piece, reader', hread, hne, hle, hpiece⟩
      · obtain ⟨hdata, hrest⟩ := List.append_eq_nil_iff.mp h.symm
        cases List.map_eq_nil_iff.mp hdata
        rw [hread, List.append_nil]
        exact ⟨[], rfl, hrest.symm⟩
      · -- a failure comes only after `data`, and by then the loop has stopped
        exfalso
        cases data with
        | nil =>
          rcases hstop with hend | hend
          · exact absurd hend (by simpa using hfull.ne)
          · simp [hfault, hend] at h
        | cons byte data => simp [hfault] at h
      · have hshort : piece.length ≤ data.length := by
          rcases hstop with hend | hend
          · omega
          · have := congrArg List.length (hpiece.symm.trans h)
            simp only [hend, List.length_append, List.length_map, List.length_nil] at this
            omega
        obtain ⟨remaining, rfl, hlater⟩ := Incoming.append_split hshort (hpiece.symm.trans h)
        obtain ⟨byte, piece, rfl⟩ := List.exists_cons_of_ne_nil hne
        rw [hread, ← List.append_assoc]
        simp only [List.length_append, List.length_cons] at hroom hstop hlength
        exact ih remaining.length (by omega) (by simp; omega) (by simpa [Nat.add_assoc] using hstop) hlater rfl
    · have hempty : data = [] := List.eq_nil_of_length_eq_zero (by omega)
      subst hempty
      rw [if_neg hfull, List.append_nil]
      exact ⟨reader, rfl, h⟩

theorem readBounded_full {data : List UInt8} {rest : List (UInt8 ⊕ ε)} {reader : Incoming UInt8 ε}
    (h : reader.contents = sent data ++ rest) :
    ∃ reader', readBounded data.length reader = (.ok data, reader') ∧ reader'.contents = rest :=
  readBoundedFrom_spec (by simp) (.inl (by simp)) h

theorem readBounded_short {size : Nat} {data : List UInt8} {reader : Incoming UInt8 ε} (hsize : data.length ≤ size)
    (h : reader.contents = sent data) : readBounded size reader = (.ok data, []) := by
  obtain ⟨reader', hread, hend⟩ : ∃ reader', readBounded size reader = (.ok data, reader') ∧ reader'.contents = [] :=
    readBoundedFrom_spec (by simpa using hsize) (.inr rfl) (by simpa using h)
  rw [hread, Incoming.contents_eq_nil.mp hend]

/-! ### Frames -/

section
variable {lengthPrefix payload part : List UInt8} {rest : List (UInt8 ⊕ ε)} {reader : Incoming UInt8 ε}

/-- Once the prefix is there, what is left of `readFrame` is a check and the payload. -/
theorem readFrame_after_length (hwidth : lengthPrefix.length = lengthPrefixLen)
    (h : reader.contents = sent lengthPrefix ++ rest) :
    ∃ reader', reader'.contents = rest ∧ readFrame reader =
      if BigEndian.value lengthPrefix > maxPayloadLen then
        (.error (.payloadTooLarge (BigEndian.value lengthPrefix) maxPayloadLen), reader')
      else
        match readBounded (BigEndian.value lengthPrefix) reader' with
        | (.error error, reader) => (.error (.io error), reader)
        | (.ok payload, reader) =>
          if payload.length ≠ BigEndian.value lengthPrefix then
            (.error (.earlyEof (BigEndian.value lengthPrefix) payload.length), reader)
          else (.ok (lengthPrefix ++ payload), reader) := by
  obtain ⟨reader', hread, hrest⟩ := readBounded_full h
  rw [hwidth] at hread
  refine ⟨reader', hrest, ?_⟩
  rw [readFrame, hread]
  exact if_neg (not_not.mpr hwidth)

/-- A whole frame is read, and nothing after it. -/
theorem readFrame_whole (hwidth : lengthPrefix.length = lengthPrefixLen)
    (hdeclared : BigEndian.value lengthPrefix = payload.length) (hlength : payload.length ≤ maxPayloadLen)
    (h : reader.contents = sent (lengthPrefix ++ payload) ++ rest) :
    ∃ reader', readFrame reader = (.ok (lengthPrefix ++ payload), reader') ∧ reader'.contents = rest := by
  rw [sent_append, List.append_assoc] at h
  obtain ⟨middle, hmiddle, hframe⟩ := readFrame_after_length hwidth h
  obtain ⟨reader', hread, hrest⟩ := readBounded_full hmiddle
  refine ⟨reader', ?_, hrest⟩
  rw [hframe, hdeclared, if_neg (Nat.not_lt.mpr hlength), hread]
  exact if_neg (not_not.mpr rfl)

/-- A length above the limit is refused with the payload still on the stream. -/
theorem readFrame_too_large (hwidth : lengthPrefix.length = lengthPrefixLen)
    (hlarge : maxPayloadLen < BigEndian.value lengthPrefix) (h : reader.contents = sent lengthPrefix ++ rest) :
    ∃ reader', readFrame reader =
        (.error (.payloadTooLarge (BigEndian.value lengthPrefix) maxPayloadLen), reader') ∧
      reader'.contents = rest := by
  obtain ⟨reader', hrest, hframe⟩ := readFrame_after_length hwidth h
  exact ⟨reader', hframe.trans (if_pos hlarge), hrest⟩

/-- The stream ends inside the length. -/
theorem readFrame_short_length (hshort : part.length < lengthPrefixLen) (h : reader.contents = sent part) :
    readFrame reader = (.error (.earlyEof lengthPrefixLen part.length), []) := by
  rw [readFrame, readBounded_short hshort.le h]
  exact if_pos hshort.ne

/-- The stream ends inside the payload. -/
theorem readFrame_short_payload (hwidth : lengthPrefix.length = lengthPrefixLen)
    (hlength : BigEndian.value lengthPrefix ≤ maxPayloadLen) (hshort : part.length < BigEndian.value lengthPrefix)
    (h : reader.contents = sent (lengthPrefix ++ part)) :
    readFrame reader = (.error (.earlyEof (BigEndian.value lengthPrefix) part.length), []) := by
  rw [sent_append] at h
  obtain ⟨middle, hmiddle, hframe⟩ := readFrame_after_length hwidth h
  rw [hframe, if_neg (Nat.not_lt.mpr hlength), readBounded_short hshort.le hmiddle]
  exact if_pos hshort.ne

end

/-- What the reading side makes of a frame, however the stream is cut. -/
structure Arrives (frame : List UInt8) : Prop where
  /-- The frame is read exactly, with whatever follows left on the stream. -/
  whole : ∀ {ε : Type} (reader : Incoming UInt8 ε) rest, reader.contents = sent frame ++ rest →
    ∃ reader', readFrame reader = (.ok frame, reader') ∧ reader'.contents = rest
  /-- A proper beginning of it and then the end of the stream is an early end. -/
  cut : ∀ {ε : Type} (reader : Incoming UInt8 ε) part, part <+: frame → part ≠ frame → reader.contents = sent part →
    readFrame reader = (.error (if part.length < lengthPrefixLen then .earlyEof lengthPrefixLen part.length
      else .earlyEof (frame.length - lengthPrefixLen) (part.length - lengthPrefixLen)), [])

theorem arrives_of_encodeMessage {Message : Type} {version : Message → Nat}
    {toVec : Message → Except String (List UInt8)} {message : Message} {frame : List UInt8}
    (h : encodeMessage version toVec message = .ok frame) : Arrives frame := by
  obtain ⟨payload, -, hlength, rfl⟩ := encodeFrame_eq_ok.mp (bind_unit_eq_ok.mp h).2
  have hwidth : (BigEndian.bytes 4 payload.length).length = lengthPrefixLen := BigEndian.length_bytes ..
  have hdeclared := value_payload_length hlength
  constructor
  case whole =>
    intro ε reader rest hcontents
    exact readFrame_whole hwidth hdeclared hlength hcontents
  case cut =>
    intro ε reader part hpart hne hcontents
    by_cases hshort : part.length < lengthPrefixLen
    · rw [if_pos hshort]
      exact readFrame_short_length hshort hcontents
    · rw [if_neg hshort]
      obtain ⟨remaining, rfl⟩ : BigEndian.bytes 4 payload.length <+: part :=
        List.prefix_of_prefix_length_le (List.prefix_append ..) hpart (hwidth ▸ Nat.not_lt.mp hshort)
      have hremaining : remaining <+: payload := (List.prefix_append_right_inj _).mp hpart
      have hfewer : remaining.length < payload.length := by
        apply lt_of_le_of_ne hremaining.length_le
        intro heq
        exact hne (congrArg _ (hremaining.eq_of_length heq))
      have hread := readFrame_short_payload hwidth (hdeclared.trans_le hlength) (hfewer.trans_eq hdeclared.symm) hcontents
      rw [hread, hdeclared, List.length_append, List.length_append, hwidth, Nat.add_sub_cancel_left,
        Nat.add_sub_cancel_left]

/-- What `readFrame` returns has the shape that `decodeFrame` asks for: of the checks made
on both sides, the second ones never fail. -/
theorem readFrame_eq_ok {reader reader' : Incoming UInt8 ε} {frame : List UInt8}
    (h : readFrame reader = (.ok frame, reader')) :
    4 ≤ frame.length ∧ BigEndian.value (frame.take 4) ≤ maxPayloadLen ∧
      frame.length - 4 = BigEndian.value (frame.take 4) := by
  rw [readFrame] at h
  split at h
  case h_1 => cases h
  case h_2 lengthPrefix middle _ =>
    split at h
    case isTrue => cases h
    case isFalse hwidth =>
      have hfour : lengthPrefix.length = 4 := not_not.mp hwidth
      dsimp only at h
      split at h
      case isTrue => cases h
      case isFalse hlength =>
        split at h
        case h_1 => cases h
        case h_2 payload _ _ =>
          split at h
          case isTrue => cases h
          case isFalse hpayload =>
            cases h
            rw [List.take_left' hfour, List.length_append, hfour, Nat.add_sub_cancel_left]
            exact ⟨Nat.le_add_right .., Nat.not_lt.mp hlength, not_not.mp hpayload⟩

/-- **The framed round trip.** A message that encodes is read back from its frame however
the stream is cut and whatever follows, a cut frame is an early end, and a length above the
limit is refused with nothing read behind it. -/
theorem transport_round_trip {Result : Type} (requests : Codec ControlRequest)
    (responses : Codec (ControlResponse Result)) :
    (∀ request frame, encodeRequest requests.toVec request = .ok frame →
      Arrives frame ∧ decodeRequest requests.fromSlice frame = .ok request) ∧
    (∀ response frame, encodeResponse responses.toVec response = .ok frame →
      Arrives frame ∧ decodeResponse responses.fromSlice frame = .ok response) ∧
    ∀ {ε : Type} (reader : Incoming UInt8 ε) lengthPrefix rest, lengthPrefix.length = lengthPrefixLen →
      maxPayloadLen < BigEndian.value lengthPrefix → reader.contents = sent lengthPrefix ++ rest →
      ∃ reader', readFrame reader =
          (.error (.payloadTooLarge (BigEndian.value lengthPrefix) maxPayloadLen), reader') ∧
        reader'.contents = rest := by
  refine ⟨?_, ?_, ?_⟩
  · intro request frame h
    exact ⟨arrives_of_encodeMessage h, decodeMessage_encodeMessage _ requests h⟩
  · intro response frame h
    exact ⟨arrives_of_encodeMessage h, decodeMessage_encodeMessage _ responses h⟩
  · intro ε reader lengthPrefix rest hwidth hlarge h
    exact readFrame_too_large hwidth hlarge h

/-! A request and an answer in their JSON, and a length of one byte too many in two pieces. -/

def observeRequest : ControlRequest := .new (.observe ⟨"eth0"⟩)

def observePayload : List UInt8 :=
  "\x7b\"protocol_version\":1,\"kind\":\"observe\",\"interface\":\"eth0\"\x7d".toUTF8.data.toList

def endedEarly : ControlResponse Unit := .error "EARLY_EOF" "request frame ended early"

def endedEarlyPayload : List UInt8 :=
  ("\x7b\"protocol_version\":1,\"kind\":\"error\",\"code\":\"EARLY_EOF\"," ++
    "\"message\":\"request frame ended early\"\x7d").toUTF8.data.toList

def framed (payload : List UInt8) : List UInt8 := BigEndian.bytes 4 payload.length ++ payload

theorem transport_round_trip_observe :
    (Arrives (framed observePayload) ∧
      decodeRequest (Codec.single observeRequest observePayload).fromSlice (framed observePayload) = .ok observeRequest) ∧
    (Arrives (framed endedEarlyPayload) ∧
      decodeResponse (Codec.single endedEarly endedEarlyPayload).fromSlice (framed endedEarlyPayload) =
        .ok endedEarly) ∧
    ∃ reader' : Incoming UInt8 Unit, readFrame [.chunk 0 [16], .chunk 0 [1, 123]] =
        (.error (.payloadTooLarge (BigEndian.value [0, 16, 0, 1]) maxPayloadLen), reader') ∧
      reader'.contents = sent [123] := by
  obtain ⟨hrequest, hresponse, hlarge⟩ := transport_round_trip (Codec.single observeRequest observePayload)
    (Codec.single endedEarly endedEarlyPayload)
  refine ⟨hrequest _ _ rfl, hresponse _ _ rfl, hlarge _ [0, 16, 0, 1] (sent [123]) rfl ?_ rfl⟩
  decide

end NetworkLoop.Control
