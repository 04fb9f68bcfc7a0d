import Mathlib

/-! What a protocol over a byte stream rests on: numbers of a fixed width, most
significant byte first, one or several of them, and a stream that arrives in pieces.

A reader takes what has arrived so far and never more than it asks for, so the same
data can take one read or many. What the pieces spell out is the stream's `contents`,
and `read_cases` says what one read does to them: how they were cut into pieces does
not matter. -/
namespace NetworkLoop.Library

/-! ### Big-endian numbers -/

namespace BigEndian

/-- The low `width` bytes of `n`, as `to_be_bytes` gives them. -/
def bytes : Nat → Nat → List UInt8
  | 0, _ => []
  | width + 1, n => bytes width (n / 256) ++ [UInt8.ofNat n]

/-- `from_be_bytes`. -/
def value (data : List UInt8) : Nat := data.foldl (fun acc byte => 256 * acc + byte.toNat) 0

@[simp] theorem length_bytes (width n : Nat) : (bytes width n).length = width := by
  induction width generalizing n with
  | zero => rfl
  | succ width ih => rw [bytes, List.length_append, ih, List.length_singleton]

theorem value_concat (data : List UInt8) (byte : UInt8) :
    value (data ++ [byte]) = 256 * value data + byte.toNat := by
  rw [value, List.foldl_append, List.foldl_cons, List.foldl_nil]
  rfl

/-- A number that fits its width comes back. -/
theorem value_bytes {width n : Nat} (h : n < 256 ^ width) : value (bytes width n) = n := by
  induction width generalizing n with
  | zero =>
    have hzero : n = 0 := Nat.lt_one_iff.mp h
    rw [hzero]
    rfl
  | succ width ih =>
    have hfront : n / 256 < 256 ^ width := by
      apply Nat.div_lt_of_lt_mul
      rwa [Nat.mul_comm, ← Nat.pow_succ]
    rw [bytes, value_concat, ih hfront, UInt8.toNat_ofNat']
    exact Nat.div_add_mod n 256

/-- Numbers one after the other, each with its width. -/
def pack (fields : List (Nat × Nat)) : List UInt8 := fields.flatMap fun field => bytes field.1 field.2

def unpack : List Nat → List UInt8 → List Nat
  | [], _ => []
  | width :: widths, data => value (data.take width) :: unpack widths (data.drop width)

theorem length_pack (fields : List (Nat × Nat)) : (pack fields).length = (fields.map Prod.fst).sum := by
  simp [pack, List.length_flatMap]

theorem unpack_pack (fields : List (Nat × Nat)) (h : ∀ field ∈ fields, field.2 < 256 ^ field.1) :
    unpack (fields.map Prod.fst) (pack fields) = fields.map Prod.snd := by
  induction fields with
  | nil => rfl
  | cons field rest ih =>
    have hfront : pack (field :: rest) = bytes field.1 field.2 ++ pack rest := rfl
    rw [List.map_cons, List.map_cons, unpack, hfront, List.take_left' (length_bytes ..), List.drop_left' (length_bytes ..),
      value_bytes (h field List.mem_cons_self), ih fun f hf => h f (List.mem_cons_of_mem _ hf)]

end BigEndian

/-! ### A stream in pieces -/

/-- What a reader meets next: a chunk, which has at least one element because an empty
read is the end of the stream, or a failure of the transport. -/
inductive Arrival (β ε : Type) where
  | chunk (first : β) (rest : List β)
  | fault (error : ε)

abbrev Incoming (β ε : Type) := List (Arrival β ε)

namespace Incoming
variable {β ε : Type}

/-- The elements and failures of the stream in order, without the cuts. -/
def contents : Incoming β ε → List (β ⊕ ε)
  | [] => []
  | .chunk first rest :: s => (first :: rest).map .inl ++ contents s
  | .fault error :: s => .inr error :: contents s

/-- What is left of a chunk goes back in front. -/
def pushBack : List β → Incoming β ε → Incoming β ε
  | [], s => s
  | first :: rest, s => .chunk first rest :: s

/-- One read into a buffer of `size` elements. It returns as soon as it has something. -/
def read (size : Nat) : Incoming β ε → Except ε (List β) × Incoming β ε
  | [] => (.ok [], [])
  | .chunk first rest :: s => (.ok ((first :: rest).take size), pushBack ((first :: rest).drop size) s)
  | .fault error :: s => (.error error, s)

@[simp] theorem contents_nil : contents ([] : Incoming β ε) = [] := rfl

@[simp] theorem contents_chunk (first : β) (rest : List β) (s : Incoming β ε) :
    contents (.chunk first rest :: s) = (first :: rest).map .inl ++ contents s := rfl

@[simp] theorem contents_fault (error : ε) (s : Incoming β ε) :
    contents (.fault error :: s) = .inr error :: contents s := rfl

theorem contents_pushBack (rest : List β) (s : Incoming β ε) :
    contents (pushBack rest s) = rest.map .inl ++ contents s := by
  cases rest with
  | nil => rfl
  | cons first rest => rfl

theorem contents_eq_nil {s : Incoming β ε} : contents s = [] ↔ s = [] := by
  constructor
  · intro h
    cases s with
    | nil => rfl
    | cons arrival s =>
      cases arrival with
      | chunk first rest => simp at h
      | fault error => simp at h
  · intro h
    rw [h]
    rfl

/-- If the stream begins with `data` and with a piece no longer than it, the piece is the
beginning of `data`. -/
theorem append_split {piece data : List β} {later rest : List (β ⊕ ε)} (hle : piece.length ≤ data.length)
    (h : piece.map .inl ++ later = data.map .inl ++ rest) :
    ∃ remaining, data = piece ++ remaining ∧ later = remaining.map .inl ++ rest := by
  have hcut : data.map Sum.inl ++ rest =
      (data.take piece.length).map .inl ++ ((data.drop piece.length).map .inl ++ rest) := by
    rw [← List.append_assoc, ← List.map_append, List.take_append_drop]
  obtain ⟨hpiece, hlater⟩ := List.append_inj (h.trans hcut) (by simp [hle])
  have htake : piece = data.take piece.length := List.map_injective_iff.mpr Sum.inl_injective hpiece
  refine ⟨data.drop piece.length, ?_, hlater⟩
  exact (List.take_append_drop piece.length data).symm.trans (congrArg (· ++ _) htake.symm)

/-- What one read does: it meets the end, or a failure, or it takes some elements and no
more than its buffer holds. -/
theorem read_cases {size : Nat} (hsize : 0 < size) (s : Incoming β ε) :
    (s = [] ∧ read size s = (.ok [], [])) ∨
    (∃ error s', read size s = (.error error, s') ∧ contents s = .inr error :: contents s') ∨
    (∃ data s', read size s = (.ok data, s') ∧ data ≠ [] ∧ data.length ≤ size ∧
      contents s = data.map .inl ++ contents s') := by
  cases s with
  | nil => exact .inl ⟨rfl, rfl⟩
  | cons arrival s =>
    right
    cases arrival with
    | fault error => exact .inl ⟨error, s, rfl, rfl⟩
    | chunk first rest =>
      refine .inr ⟨_, _, rfl, ?_, List.length_take_le .., ?_⟩
      · intro hempty
        rcases List.take_eq_nil_iff.mp hempty with hzero | hnil
        · exact hsize.ne' hzero
        · cases hnil
      · rw [contents_chunk, contents_pushBack, ← List.append_assoc, ← List.map_append, List.take_append_drop]

end Incoming

end NetworkLoop.Library
