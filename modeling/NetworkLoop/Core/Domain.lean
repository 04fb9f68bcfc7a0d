import Mathlib

/-! What the domain crate's modules share: the error type of its validators, the
bounds of the machine integers where a checked operation can meet them, and the
two textual checks that the reports, the journal and the transaction store all
use. Times, rates and counters are `u64` in the source and `Nat` here; a bound
appears exactly where the code checks one. -/
namespace NetworkLoop

/-- `u64::MAX + 1`. -/
def u64Bound : Nat := 2 ^ 64

/-- `u64::checked_add`. -/
def checkedAdd (a b : Nat) : Option Nat :=
  if a + b < u64Bound then some (a + b) else none

theorem checkedAdd_eq_some {a b c : Nat} (h : checkedAdd a b = some c) : c = a + b := by
  unfold checkedAdd at h
  split at h
  · exact (Option.some.inj h).symm
  · cases h

/-- A chain of fallible steps succeeds exactly if every step does. -/
theorem bind_eq_ok {ε α β : Type} {x : Except ε α} {f : α → Except ε β} {b : β} :
    (x >>= f) = .ok b ↔ ∃ a, x = .ok a ∧ f a = .ok b := by
  cases x with
  | error e => exact ⟨fun h => (by cases h), fun ⟨_, h, _⟩ => by cases h⟩
  | ok a => exact ⟨fun h => ⟨a, rfl, h⟩, fun ⟨_, h, hf⟩ => by cases h; exact hf⟩

theorem bind_unit_eq_ok {ε β : Type} {x : Except ε Unit} {f : Unit → Except ε β} {b : β} :
    (x >>= f) = .ok b ↔ x = .ok () ∧ f () = .ok b := by
  rw [bind_eq_ok]
  exact ⟨fun ⟨_, hx, hf⟩ => ⟨hx, hf⟩, fun ⟨hx, hf⟩ => ⟨(), hx, hf⟩⟩

/-- The variants of `DomainError` that the modelled validators return. -/
inductive DomainError where
  | invalidInterfaceName
  | invalidObservation (text : String)
  | invalidVlan (vlan : Nat)
  | missingRateLimit
  | zeroRateLimit (limit : String)
  | unsupportedPolicyClass (trafficClass : Nat)
  | invalidPolicyTtl (ms : Nat)
  | invalidProbeTimeout (ms : Nat)
  deriving DecidableEq, Repr

/-- `validate_error_code`: one to 64 bytes of upper-case ASCII, digits and `_`. A
character outside ASCII fails the byte test of the source and the test here. -/
def validateErrorCode (code : String) : Except DomainError Unit :=
  if code.isEmpty || code.utf8ByteSize > 64 ||
      !code.toList.all (fun c => c.isUpper || c.isDigit || c == '_') then
    .error (.invalidObservation "detection error code is invalid")
  else .ok ()

/-- `is_lower_hex`. -/
def isLowerHex (value : String) (length : Nat) : Bool :=
  value.utf8ByteSize == length && value.toList.all (fun c => c.isDigit || ('a' ≤ c && c ≤ 'f'))

/-- `RateIdentity`: one generation of the attachment to one interface. Its
constructor refuses a zero in either field. -/
@[ext] structure RateIdentity where
  ifindex : Nat
  generation : Nat
  ifindex_ne : ifindex ≠ 0
  generation_ne : generation ≠ 0

instance : DecidableEq RateIdentity := fun _ _ => decidable_of_iff _ RateIdentity.ext_iff.symm

/-! The indices of the small fixed arrays. -/

instance neZeroTwo : NeZero 2 := ⟨by decide⟩
instance neZeroThree : NeZero 3 := ⟨by decide⟩
instance neZeroSix : NeZero 6 := ⟨by decide⟩

end NetworkLoop
