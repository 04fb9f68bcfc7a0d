import NetworkLoop.Evidence.Cursor
import NetworkLoop.Control.Commands

/-! What the texts of event IDs and cursors are.

`parseEventId_eq_ok` and `parseFor_eq_ok` say it in one line each: a text is accepted
where it is the display of the value that it parses to, and a cursor only under a filter
with its hash. The hash is FNV-1a, and no filter is hashed as the name `-`, which is a
name like any other (`cursor_texts_exact`, `dash_filter_accepted`). -/
namespace NetworkLoop.Evidence
open Library Observation Control

/-- The 64-bit FNV-1a hash. -/
def fnv1a (bytes : List UInt8) : BitVec 64 :=
  bytes.foldl (fun value byte => (value ^^^ byte.toBitVec.setWidth 64) * 0x00000100000001b3#64) 0xcbf29ce484222325#64

theorem interfaceFilterHash_eq (interface : Option String) :
    interfaceFilterHash interface = fnv1a (interface.getD "-").toUTF8.data.toList := rfl

/-! ### Event IDs -/

/-- Text of digits has a value. -/
theorem value_of_fixedHex {width : Nat} {text : List Char} (h : isFixedHex width text = true) :
    ∃ n, Hex.value text = some n ∧ n < 16 ^ width ∧ text = Hex.digits width n := by
  rw [isFixedHex, Bool.and_eq_true, beq_iff_eq, List.all_eq_true] at h
  obtain ⟨hlength, hdigits⟩ := h
  obtain ⟨n, hvalue⟩ := Hex.value_of_nibbles hdigits
  have hback := Hex.digits_of_value hvalue
  rw [hlength] at hback
  exact ⟨n, hvalue, hlength ▸ Hex.value_lt hvalue, hback.symm⟩

/-- **The text of an event ID is its display, and nothing else is.** -/
theorem parseEventId_eq_ok {text : List Char} {eventId : EventId} :
    parseEventId text = .ok eventId ↔ text = eventIdText eventId := by
  constructor
  · intro h
    rw [parseEventId] at h
    split at h
    case isTrue hhex =>
      obtain ⟨n, hvalue, hlt, htext⟩ := value_of_fixedHex hhex
      rw [hvalue] at h
      have hsmall : n < 2 ^ 128 := by
        have hpow : 16 ^ 32 = 2 ^ 128 := by norm_num
        exact hpow ▸ hlt
      have hback : eventId.toNat = n := by
        rw [← Except.ok.inj h]
        exact Nat.mod_eq_of_lt hsmall
      rw [eventIdText, hback]
      exact htext
    case isFalse => cases h
  · intro h
    rw [h]
    exact parseEventId_text eventId

/-! ### Cursors -/

namespace EvidenceCursor

theorem parseFixedHexU64_eq_ok {text : List Char} {n : Nat} :
    parseFixedHexU64 text = .ok n ↔ n < u64Bound ∧ text = Hex.digits 16 n := by
  have hpow : u64Bound = 16 ^ 16 := by norm_num [u64Bound]
  constructor
  · intro h
    rw [parseFixedHexU64] at h
    split at h
    case isTrue hhex =>
      obtain ⟨m, hvalue, hlt, htext⟩ := value_of_fixedHex hhex
      rw [hvalue] at h
      cases h
      exact ⟨hpow ▸ hlt, htext⟩
    case isFalse => cases h
  · rintro ⟨hlt, htext⟩
    rw [htext]
    exact parseFixedHexU64_digits hlt

/-- A text of four fields is the four fields between dashes. -/
theorem eq_of_splitOn {value : String} {fields : List (List Char)} (h : value.toList.splitOn '-' = fields) :
    value = String.ofList (['-'].intercalate fields) := by
  rw [← h, List.intercalate_splitOn, String.ofList_toList]

/-- **A text is accepted as a cursor where it is the display of that cursor**, under the
filters with the hash of the cursor. -/
theorem parseFor_eq_ok {value : String} {interface : Option String} {c : EvidenceCursor} :
    parseFor value interface = .ok c ↔
      c.filterHash = interfaceFilterHash interface ∧ c.lastTransitionAtUnixMs < u64Bound ∧ value = c.toText := by
  constructor
  · intro h
    rw [parseFor] at h
    split at h
    case isTrue => cases h
    case isFalse =>
      split at h
      case h_2 => cases h
      case h_1 version timestamp eventId filter hfields =>
        split at h
        case isTrue => cases h
        case isFalse hversion =>
          obtain ⟨filterHash, hfilter, h⟩ := bind_eq_ok.mp h
          obtain ⟨time, htime, h⟩ := bind_eq_ok.mp h
          split at h
          case h_1 => cases h
          case h_2 event hevent =>
            dsimp only at h
            split at h
            case isTrue => cases h
            case isFalse hbound =>
              cases h
              obtain ⟨hsmall, hfilterText⟩ := parseFixedHexU64_eq_ok.mp hfilter
              obtain ⟨hlt, htimeText⟩ := parseFixedHexU64_eq_ok.mp htime
              have hback : (BitVec.ofNat 64 filterHash).toNat = filterHash := Nat.mod_eq_of_lt hsmall
              refine ⟨not_not.mp hbound, hlt, ?_⟩
              rw [toText, hback, ← parseEventId_eq_ok.mp hevent, ← not_not.mp hversion, ← hfilterText, ← htimeText]
              exact eq_of_splitOn hfields
  · rintro ⟨hbound, hlt, rfl⟩
    obtain ⟨filterHash, time, eventId⟩ := c
    obtain rfl : filterHash = interfaceFilterHash interface := hbound
    exact parseFor_toText hlt eventId

theorem filterHash_of_toText {c c' : EvidenceCursor} (h : c.toText = c'.toText) : c.filterHash = c'.filterHash := by
  have hfields : c.toText.toList.splitOn '-' = c'.toText.toList.splitOn '-' := by rw [h]
  rw [splitOn_toText, splitOn_toText] at hfields
  simp only [List.cons.injEq] at hfields
  obtain ⟨-, -, -, hhash, -⟩ := hfields
  have hpow : 2 ^ 64 = 16 ^ 16 := by norm_num
  exact BitVec.eq_of_toNat_eq (Hex.digits_injective (hpow ▸ c.filterHash.isLt) (hpow ▸ c'.filterHash.isLt) hhash)

end EvidenceCursor

/-! ### What a cursor is bound to -/

/-- A cursor made without a filter is not accepted with this name, nor one made with the
name without a filter: not as a text, and not in a query. -/
def FilterBound (name : InterfaceName) : Prop :=
  ∀ time < u64Bound, ∀ eventId, ∀ filter ∈ [(none, some name.value), (some name.value, none)],
    (∀ c, EvidenceCursor.parseFor (EvidenceCursor.new filter.1 time eventId).toText filter.2 ≠ .ok c) ∧
      ∀ limit query, EvidenceListQuery.new filter.2 limit (some (EvidenceCursor.new filter.1 time eventId)) ≠ .ok query

/-- Two filters with one hash share their cursors, others do not. -/
theorem accepted_iff_hash {minted used : Option String} {time : Nat} (htime : time < u64Bound) (eventId : EventId) :
    (∃ c, EvidenceCursor.parseFor (EvidenceCursor.new minted time eventId).toText used = .ok c) ↔
      interfaceFilterHash minted = interfaceFilterHash used := by
  constructor
  · rintro ⟨c, h⟩
    obtain ⟨hbound, -, htext⟩ := EvidenceCursor.parseFor_eq_ok.mp h
    rw [← hbound]
    exact EvidenceCursor.filterHash_of_toText htext
  · intro h
    exact ⟨_, EvidenceCursor.parseFor_eq_ok.mpr ⟨h, htime, rfl⟩⟩

theorem query_iff_hash {minted used : Option String} {time : Nat} (eventId : EventId) :
    (∃ limit query, EvidenceListQuery.new used limit (some (EvidenceCursor.new minted time eventId)) = .ok query) ↔
      interfaceFilterHash minted = interfaceFilterHash used := by
  constructor
  · rintro ⟨limit, query, h⟩
    by_contra hne
    have hrefused : (some (EvidenceCursor.new minted time eventId)).any
        (fun value => decide (value.filterHash ≠ interfaceFilterHash used)) = true := decide_eq_true hne
    rw [EvidenceListQuery.new, hrefused] at h
    split at h <;> cases h
  · intro h
    have hkept : (some (EvidenceCursor.new minted time eventId)).any
        (fun value => decide (value.filterHash ≠ interfaceFilterHash used)) = false := decide_eq_false (not_not_intro h)
    exact ⟨none, _, by rw [EvidenceListQuery.new, hkept]; rfl⟩

theorem filterBound_iff (name : InterfaceName) :
    FilterBound name ↔ fnv1a name.value.toUTF8.data.toList ≠ fnv1a "-".toUTF8.data.toList := by
  constructor
  · intro h heq
    obtain ⟨htext, -⟩ := h 0 (by decide) 0 (none, some name.value) List.mem_cons_self
    obtain ⟨c, hc⟩ := (@accepted_iff_hash none (some name.value) 0 (by decide) 0).mpr heq.symm
    exact htext c hc
  · intro hne time htime eventId filter hfilter
    have hhash : interfaceFilterHash filter.1 ≠ interfaceFilterHash filter.2 := by
      rcases List.mem_cons.mp hfilter with rfl | hfilter
      · exact fun heq => hne heq.symm
      · rw [List.mem_singleton.mp hfilter]
        exact hne
    exact ⟨fun c hc => hhash ((accepted_iff_hash htime eventId).mp ⟨c, hc⟩),
      fun limit query hq => hhash ((query_iff_hash eventId).mp ⟨limit, query, hq⟩)⟩

/-- **Texts are exact, and cursors are bound to their filter** unless the name has the
hash of the text that stands for no filter. -/
theorem cursor_texts_exact (name : InterfaceName) (_ : name.Accepted) :
    ((∀ eventId, parseEventId (eventIdText eventId) = .ok eventId) ∧
      (∀ text eventId, parseEventId text = .ok eventId → eventIdText eventId = text) ∧
      (∀ interface time eventId, time < u64Bound →
        EvidenceCursor.parseFor (EvidenceCursor.new interface time eventId).toText interface =
          .ok (EvidenceCursor.new interface time eventId)) ∧
      (∀ value interface c, EvidenceCursor.parseFor value interface = .ok c → c.toText = value) ∧ FilterBound name) ↔
      fnv1a name.value.toUTF8.data.toList ≠ fnv1a "-".toUTF8.data.toList := by
  constructor
  · rintro ⟨-, -, -, -, hbound⟩
    exact (filterBound_iff name).mp hbound
  · intro hne
    exact ⟨parseEventId_text, fun _ _ h => (parseEventId_eq_ok.mp h).symm,
      fun _ _ eventId htime => EvidenceCursor.parseFor_toText htime eventId,
      fun _ _ _ h => (EvidenceCursor.parseFor_eq_ok.mp h).2.2.symm, (filterBound_iff name).mpr hne⟩

theorem cursor_texts_exact_eth0 : FilterBound ⟨"eth0"⟩ :=
  ((cursor_texts_exact ⟨"eth0"⟩ ((InterfaceName.accepted_iff "eth0").mpr (by decide))).mpr (by decide)).2.2.2.2

/-- A cursor of the whole list is accepted for the interface named `-`. -/
theorem dash_filter_accepted : InterfaceName.new "-" = .ok ⟨"-"⟩ ∧
    EvidenceCursor.parseFor (EvidenceCursor.new none 1000 0).toText (some "-") = .ok (EvidenceCursor.new none 1000 0) ∧
    ¬FilterBound ⟨"-"⟩ :=
  ⟨by decide, EvidenceCursor.parseFor_toText (by decide) 0, fun h => (filterBound_iff ⟨"-"⟩).mp h rfl⟩

end NetworkLoop.Evidence
