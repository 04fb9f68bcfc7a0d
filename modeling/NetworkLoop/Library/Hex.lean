import Mathlib

/-! Numbers as lower-case hexadecimal text of a fixed width.

`digits w n` is the text of `n` in `w` digits, `value` reads a text of any width, digit
by digit. A number that fits its width comes back (`value_digits`), so no two such
numbers have the same text (`digits_injective`), and the texts are in the order of the numbers
(`digits_lt`). -/
namespace NetworkLoop.Library.Hex

def digit (n : Nat) : Char := if n < 10 then Char.ofNat (48 + n) else Char.ofNat (87 + n)

/-- The value of one digit. -/
def nibble (c : Char) : Option Nat :=
  if '0' ≤ c && c ≤ '9' then some (c.toNat - 48)
  else if 'a' ≤ c && c ≤ 'f' then some (c.toNat - 87)
  else none

def digits : Nat → Nat → List Char
  | 0, _ => []
  | w + 1, n => digits w (n / 16) ++ [digit (n % 16)]

/-- Reading from the left, `acc` being the value of what was read. -/
def valueFrom : Nat → List Char → Option Nat
  | acc, [] => some acc
  | acc, c :: rest => (nibble c).bind fun d => valueFrom (16 * acc + d) rest

def value (text : List Char) : Option Nat := valueFrom 0 text

theorem nibble_digit {n : Nat} (h : n < 16) : nibble (digit n) = some n := by
  revert n
  decide

theorem digit_ne_dash {n : Nat} (h : n < 16) : digit n ≠ '-' := by
  revert n
  decide

theorem length_digits (w n : Nat) : (digits w n).length = w := by
  induction w generalizing n with
  | zero => rfl
  | succ w ih => rw [digits, List.length_append, ih, List.length_singleton]

theorem mem_digits {w n : Nat} {c : Char} (h : c ∈ digits w n) : ∃ d < 16, c = digit d := by
  induction w generalizing n with
  | zero => cases h
  | succ w ih =>
    rcases List.mem_append.mp h with hfront | hlast
    · exact ih hfront
    · exact ⟨n % 16, Nat.mod_lt _ (by decide), List.mem_singleton.mp hlast⟩

theorem dash_not_mem_digits (w n : Nat) : '-' ∉ digits w n := by
  intro h
  obtain ⟨d, hd, heq⟩ := mem_digits h
  exact digit_ne_dash hd heq.symm

theorem nibble_of_mem_digits {w n : Nat} {c : Char} (h : c ∈ digits w n) : (nibble c).isSome = true := by
  obtain ⟨d, hd, rfl⟩ := mem_digits h
  rw [nibble_digit hd]
  rfl

theorem valueFrom_append (acc : Nat) (front rest : List Char) :
    valueFrom acc (front ++ rest) = (valueFrom acc front).bind fun v => valueFrom v rest := by
  induction front generalizing acc with
  | nil => rfl
  | cons c front ih =>
    rw [List.cons_append, valueFrom, valueFrom]
    cases nibble c with
    | none => rfl
    | some d => exact ih _

/-- **A number that fits its width comes back.** -/
theorem value_digits {w n : Nat} (h : n < 16 ^ w) : value (digits w n) = some n := by
  induction w generalizing n with
  | zero =>
    have hn : n = 0 := by simpa using h
    rw [hn]
    rfl
  | succ w ih =>
    have hfront : n / 16 < 16 ^ w := by
      apply Nat.div_lt_of_lt_mul
      rw [Nat.pow_succ] at h
      omega
    have hvalue : valueFrom 0 (digits w (n / 16)) = some (n / 16) := ih hfront
    have hback : 16 * (n / 16) + n % 16 = n := by omega
    show valueFrom 0 (digits w (n / 16) ++ [digit (n % 16)]) = some n
    rw [valueFrom_append, hvalue, Option.bind_some, valueFrom, nibble_digit (Nat.mod_lt _ (by decide)), Option.bind_some,
      hback]
    rfl

theorem digits_injective {w n m : Nat} (hn : n < 16 ^ w) (hm : m < 16 ^ w) (h : digits w n = digits w m) : n = m := by
  have hvalue := value_digits hn
  rw [h, value_digits hm] at hvalue
  exact (Option.some.inj hvalue).symm

theorem digit_of_nibble {c : Char} {d : Nat} (h : nibble c = some d) : d < 16 ∧ digit d = c := by
  rw [nibble] at h
  split at h
  case isTrue hc =>
    simp only [Bool.and_eq_true, decide_eq_true_eq, Char.le_def, UInt32.le_iff_toNat_le] at hc
    obtain ⟨hlo, hhi⟩ := hc
    change 48 ≤ c.toNat at hlo
    change c.toNat ≤ 57 at hhi
    cases h
    rw [digit, if_pos (by omega), Nat.add_sub_cancel' hlo]
    exact ⟨by omega, Char.ofNat_toNat c⟩
  case isFalse =>
    split at h
    case isTrue hc =>
      simp only [Bool.and_eq_true, decide_eq_true_eq, Char.le_def, UInt32.le_iff_toNat_le] at hc
      obtain ⟨hlo, hhi⟩ := hc
      change 97 ≤ c.toNat at hlo
      change c.toNat ≤ 102 at hhi
      cases h
      rw [digit, if_neg (by omega), Nat.add_sub_cancel' (by omega)]
      exact ⟨by omega, Char.ofNat_toNat c⟩
    case isFalse => cases h

/-- **Text of digits is the text of its value**, in its own width. -/
theorem digits_of_value {text : List Char} {n : Nat} (h : value text = some n) : digits text.length n = text := by
  induction text using List.reverseRecOn generalizing n with
  | nil => rfl
  | append_singleton front c ih =>
    rw [value, valueFrom_append] at h
    obtain ⟨v, hfront, hlast⟩ := Option.bind_eq_some_iff.mp h
    rw [valueFrom] at hlast
    obtain ⟨d, hd, hn⟩ := Option.bind_eq_some_iff.mp hlast
    obtain ⟨hlt, hdigit⟩ := digit_of_nibble hd
    have hvalue : n = 16 * v + d := (Option.some.inj hn).symm
    have hquotient : n / 16 = v := by omega
    have hremainder : n % 16 = d := by omega
    rw [List.length_append, List.length_singleton, digits, hquotient, hremainder, ih hfront, hdigit]

theorem valueFrom_of_nibbles {text : List Char} (h : ∀ c ∈ text, (nibble c).isSome = true) (acc : Nat) :
    ∃ n, valueFrom acc text = some n := by
  induction text generalizing acc with
  | nil => exact ⟨acc, rfl⟩
  | cons c rest ih =>
    obtain ⟨d, hd⟩ := Option.isSome_iff_exists.mp (h c List.mem_cons_self)
    obtain ⟨n, hn⟩ := ih (fun x hx => h x (List.mem_cons_of_mem _ hx)) (16 * acc + d)
    exact ⟨n, by rw [valueFrom, hd, Option.bind_some, hn]⟩

/-- Text of digits has a value. -/
theorem value_of_nibbles {text : List Char} (h : ∀ c ∈ text, (nibble c).isSome = true) : ∃ n, value text = some n :=
  valueFrom_of_nibbles h 0

theorem value_lt {text : List Char} {n : Nat} (h : value text = some n) : n < 16 ^ text.length := by
  induction text using List.reverseRecOn generalizing n with
  | nil =>
    cases h
    exact Nat.one_pos
  | append_singleton front c ih =>
    rw [value, valueFrom_append] at h
    obtain ⟨v, hfront, hlast⟩ := Option.bind_eq_some_iff.mp h
    rw [valueFrom] at hlast
    obtain ⟨d, hd, hn⟩ := Option.bind_eq_some_iff.mp hlast
    have hlt := (digit_of_nibble hd).1
    have hvalue : n = 16 * v + d := (Option.some.inj hn).symm
    have hv := ih hfront
    rw [List.length_append, List.length_singleton, Nat.pow_succ]
    omega

/-! ### Order -/

/-- Texts of one length are compared before what follows them. -/
theorem append_lt_append {α : Type} [LT α] {a b : List α} (hlength : a.length = b.length) (h : a < b) (c d : List α) :
    a ++ c < b ++ d := by
  induction a generalizing b with
  | nil =>
    rw [List.length_nil, eq_comm, List.length_eq_zero_iff] at hlength
    subst hlength
    cases h
  | cons x a ih =>
    cases b with
    | nil => cases hlength
    | cons y b =>
      rw [List.cons_append, List.cons_append, List.cons_lt_cons_iff]
      rcases List.cons_lt_cons_iff.mp h with hlt | ⟨heq, hrest⟩
      · exact .inl hlt
      · exact .inr ⟨heq, ih (Nat.succ.inj hlength) hrest⟩

theorem digit_lt {n m : Nat} (hm : m < 16) (h : n < m) : digit n < digit m := by
  have hall : ∀ m < 16, ∀ n < m, digit n < digit m := by decide
  exact hall m hm n h

theorem digits_lt {w n m : Nat} (hm : m < 16 ^ w) (h : n < m) : digits w n < digits w m := by
  induction w generalizing n m with
  | zero =>
    rw [Nat.pow_zero] at hm
    omega
  | succ w ih =>
    rw [digits, digits]
    have hfront : m / 16 < 16 ^ w := Nat.div_lt_of_lt_mul (by rwa [Nat.pow_succ'] at hm)
    rcases Nat.lt_or_ge (n / 16) (m / 16) with hlt | hge
    · exact append_lt_append (by rw [length_digits, length_digits]) (ih hfront hlt) _ _
    · have heq : n / 16 = m / 16 := Nat.le_antisymm (Nat.div_le_div_right h.le) hge
      rw [heq]
      refine List.append_left_lt (List.cons_lt_cons_iff.mpr (.inl (digit_lt (Nat.mod_lt _ (by decide)) ?_)))
      omega

end NetworkLoop.Library.Hex
