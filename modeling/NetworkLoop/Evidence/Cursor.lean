import NetworkLoop.Library.Hex
import NetworkLoop.Observation.Incident

/-! The list contract of the evidence (`evidence.rs` of the domain crate): event IDs and
cursors as text, and the query.

A cursor names the last event of a page and the filter the page was made with. Its text
is four fields between dashes; `parseFor_toText` says that it comes back for the same
filter. -/
namespace NetworkLoop.Evidence
open Library Observation

def evidenceListDefaultLimit : Nat := 50
def evidenceListMaxLimit : Nat := 200

inductive EvidenceContractError where
  | invalidEventId | invalidListLimit | invalidCursor | invalidModel
  deriving DecidableEq, Repr

/-- `value.len() == width` and only lower-case hexadecimal digits. A character outside
ASCII fails the second test, so characters and bytes count alike. -/
def isFixedHex (width : Nat) (value : List Char) : Bool :=
  value.length == width && value.all fun c => (Hex.nibble c).isSome

/-! ### Event IDs -/

/-- `EventId::to_string`: two digits for each of the sixteen bytes, the first byte first. -/
def eventIdText (eventId : EventId) : List Char := Hex.digits 32 eventId.toNat

/-- `EventId::from_str`. -/
def parseEventId (value : List Char) : Except EvidenceContractError EventId :=
  if isFixedHex 32 value then
    match Hex.value value with
    | some n => .ok (BitVec.ofNat 128 n)
    | none => .error .invalidEventId
  else .error .invalidEventId

/-! ### Cursors -/

/-- `interface_filter_hash`, with `-` in the place of a missing filter. -/
def interfaceFilterHash (interface : Option String) : BitVec 64 :=
  ((interface.getD "-").toUTF8.data.toList).foldl
    (fun value byte => (value ^^^ byte.toBitVec.setWidth 64) * 0x00000100000001b3#64) 0xcbf29ce484222325#64

structure EvidenceCursor where
  filterHash : BitVec 64
  lastTransitionAtUnixMs : Nat
  eventId : EventId
  deriving DecidableEq, Repr

namespace EvidenceCursor

def new (interface : Option String) (lastTransitionAtUnixMs : Nat) (eventId : EventId) : EvidenceCursor where
  filterHash := interfaceFilterHash interface
  lastTransitionAtUnixMs := lastTransitionAtUnixMs
  eventId := eventId

/-- `Display` of the cursor: version, time, event and filter. -/
def toText (c : EvidenceCursor) : String :=
  String.ofList (['-'].intercalate
    [['1'], Hex.digits 16 c.lastTransitionAtUnixMs, eventIdText c.eventId, Hex.digits 16 c.filterHash.toNat])

/-- `parse_fixed_hex_u64`. -/
def parseFixedHexU64 (value : List Char) : Except EvidenceContractError Nat :=
  if isFixedHex 16 value then
    match Hex.value value with
    | some n => .ok n
    | none => .error .invalidCursor
  else .error .invalidCursor

def parseFor (value : String) (interface : Option String) : Except EvidenceContractError EvidenceCursor :=
  if !value.toList.all (·.toNat < 128) || value.toList.length > 80 then .error .invalidCursor
  else
    match value.toList.splitOn '-' with
    | [version, timestamp, eventId, filter] =>
      if version ≠ ['1'] then .error .invalidCursor
      else
        parseFixedHexU64 filter >>= fun filterHash =>
        parseFixedHexU64 timestamp >>= fun lastTransitionAtUnixMs =>
        match parseEventId eventId with
        | .error _ => .error .invalidCursor
        | .ok eventId =>
          let parsed : EvidenceCursor := ⟨BitVec.ofNat 64 filterHash, lastTransitionAtUnixMs, eventId⟩
          if parsed.filterHash ≠ interfaceFilterHash interface then .error .invalidCursor else .ok parsed
    | _ => .error .invalidCursor

end EvidenceCursor

/-! ### Queries -/

structure EvidenceListQuery where
  interface : Option String
  limit : Nat
  cursor : Option EvidenceCursor

/-- `EvidenceListQuery::new`. -/
def EvidenceListQuery.new (interface : Option String) (limit : Option Nat) (cursor : Option EvidenceCursor) :
    Except EvidenceContractError EvidenceListQuery :=
  let limit := limit.getD evidenceListDefaultLimit
  if !(1 ≤ limit && limit ≤ evidenceListMaxLimit) then .error .invalidListLimit
  else if cursor.any fun value => value.filterHash ≠ interfaceFilterHash interface then .error .invalidCursor
  else .ok ⟨interface, limit, cursor⟩

/-! ### The texts come back -/

theorem isFixedHex_digits (width n : Nat) : isFixedHex width (Hex.digits width n) = true := by
  rw [isFixedHex, Hex.length_digits, beq_self_eq_true, Bool.true_and, List.all_eq_true]
  intro c hc
  exact Hex.nibble_of_mem_digits hc

theorem eventId_lt (eventId : EventId) : eventId.toNat < 16 ^ 32 := by
  have hpow : 2 ^ 128 = 16 ^ 32 := by norm_num
  exact hpow ▸ eventId.isLt

theorem parseEventId_text (eventId : EventId) : parseEventId (eventIdText eventId) = .ok eventId := by
  have hvalue : Hex.value (Hex.digits 32 eventId.toNat) = some eventId.toNat := Hex.value_digits (eventId_lt eventId)
  have hback : BitVec.ofNat 128 eventId.toNat = eventId := BitVec.eq_of_toNat_eq (Nat.mod_eq_of_lt eventId.isLt)
  simp only [parseEventId, eventIdText, isFixedHex_digits, ↓reduceIte, hvalue, hback]

theorem eventIdText_injective {a b : EventId} (h : eventIdText a = eventIdText b) : a = b :=
  BitVec.eq_of_toNat_eq (Hex.digits_injective (eventId_lt a) (eventId_lt b) h)

namespace EvidenceCursor

theorem parseFixedHexU64_digits {n : Nat} (h : n < u64Bound) : parseFixedHexU64 (Hex.digits 16 n) = .ok n := by
  have hpow : u64Bound = 16 ^ 16 := by norm_num [u64Bound]
  have hvalue : Hex.value (Hex.digits 16 n) = some n := Hex.value_digits (hpow ▸ h)
  rw [parseFixedHexU64, isFixedHex_digits, if_pos rfl, hvalue]

theorem splitOn_toText (c : EvidenceCursor) : c.toText.toList.splitOn '-' =
    [['1'], Hex.digits 16 c.lastTransitionAtUnixMs, eventIdText c.eventId, Hex.digits 16 c.filterHash.toNat] := by
  rw [toText, String.toList_ofList]
  apply List.splitOn_intercalate
  · rw [List.forall_mem_cons, List.forall_mem_cons, List.forall_mem_cons, List.forall_mem_singleton]
    exact ⟨by decide, Hex.dash_not_mem_digits _ _, Hex.dash_not_mem_digits _ _, Hex.dash_not_mem_digits _ _⟩
  · exact List.cons_ne_nil _ _

theorem digit_ascii {n : Nat} (h : n < 16) : (Hex.digit n).toNat < 128 := by
  revert n
  decide

theorem toText_ascii (c : EvidenceCursor) : c.toText.toList.all (·.toNat < 128) = true := by
  have hdigits : ∀ w n, ∀ x ∈ Hex.digits w n, x.toNat < 128 := by
    intro w n x hx
    obtain ⟨d, hd, rfl⟩ := Hex.mem_digits hx
    exact digit_ascii hd
  rw [List.all_eq_true]
  intro x hx
  apply decide_eq_true
  simp only [toText, String.toList_ofList, List.intercalate, List.intersperse, List.flatten_cons, List.flatten_nil, List.mem_append,
    List.mem_singleton, List.not_mem_nil, or_false] at hx
  rcases hx with rfl | rfl | hx | rfl | hx | rfl | hx
  · decide
  · decide
  · exact hdigits _ _ x hx
  · decide
  · exact hdigits _ _ x hx
  · decide
  · exact hdigits _ _ x hx

theorem length_toText (c : EvidenceCursor) : c.toText.toList.length = 68 := by
  simp only [toText, String.toList_ofList, List.intercalate, List.intersperse, List.flatten_cons, List.flatten_nil, List.length_append,
    List.length_singleton, List.length_nil, Hex.length_digits, eventIdText]

/-- **The text of a cursor is that cursor again**, for the filter it was made with. -/
theorem parseFor_toText {interface : Option String} {time : Nat} (htime : time < u64Bound) (eventId : EventId) :
    parseFor (new interface time eventId).toText interface = .ok (new interface time eventId) := by
  have hhash : parseFixedHexU64 (Hex.digits 16 (interfaceFilterHash interface).toNat) =
      .ok (interfaceFilterHash interface).toNat := parseFixedHexU64_digits (interfaceFilterHash interface).isLt
  have hshort : ((!(new interface time eventId).toText.toList.all (·.toNat < 128)) ||
      decide ((new interface time eventId).toText.toList.length > 80)) = false := by
    rw [toText_ascii, length_toText]
    rfl
  rw [parseFor, hshort, splitOn_toText]
  dsimp only [new]
  rw [hhash, parseFixedHexU64_digits htime, parseEventId_text]
  simp [bind, Except.bind]

end EvidenceCursor

end NetworkLoop.Evidence
