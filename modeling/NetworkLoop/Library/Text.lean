import Mathlib

/-! Texts: their bytes in UTF-8, their lines, and what is cut off them.

`lines` takes a text apart after each newline and drops the line's end, which is the
newline and one carriage return before it. Where no line has a newline inside, it undoes
`unlines` but for those carriage returns (`lines_unlines`). -/
namespace NetworkLoop.Library.Text

/-! ### UTF-8 -/

def encode (text : List Char) : List UInt8 := text.flatMap String.utf8EncodeChar

def decode (bytes : List UInt8) : Option (List Char) := bytes.toByteArray.utf8Decode?.map Array.toList

theorem toByteArray_encode (text : List Char) : (encode text).toByteArray = text.utf8Encode := rfl

theorem decode_encode (text : List Char) : decode (encode text) = some text := by
  rw [decode, toByteArray_encode, List.utf8Decode?_utf8Encode]
  rfl

/-- A text is all that its bytes can be read as. -/
theorem decode_eq_some {bytes : List UInt8} {text : List Char} : decode bytes = some text ↔ bytes = encode text := by
  constructor
  · intro h
    obtain ⟨found, hfound, rfl⟩ := Option.map_eq_some_iff.mp h
    have hsome : bytes.toByteArray.utf8Decode?.isSome := by rw [hfound]; rfl
    have hback := @ByteArray.utf8Encode_get_utf8Decode? _ hsome
    rw [Option.get_of_eq_some hsome hfound] at hback
    exact List.toByteArray_inj.mp (hback.symm.trans (toByteArray_encode _).symm)
  · rintro rfl
    exact decode_encode text

@[simp] theorem encode_nil : encode [] = [] := rfl

@[simp] theorem encode_append (a b : List Char) : encode (a ++ b) = encode a ++ encode b := List.flatMap_append

@[simp] theorem encode_cons (c : Char) (text : List Char) : encode (c :: text) = String.utf8EncodeChar c ++ encode text :=
  List.flatMap_cons

theorem encodeChar_ascii {c : Char} (h : c.toNat ≤ 127) : String.utf8EncodeChar c = [UInt8.ofNat c.toNat] := by
  rw [String.utf8EncodeChar]
  exact if_pos h

/-- The last byte of a longer code is no ASCII. -/
theorem encodeChar_last {c : Char} (h : 127 < c.toNat) : ∃ front b, String.utf8EncodeChar c = front ++ [b] ∧ 127 < b.toNat := by
  have hlast : ∀ n : Nat, 127 < (UInt8.ofNat (n % 64 + 128)).toNat := fun n => by
    rw [UInt8.toNat_ofNat']
    have := Nat.mod_lt n (show 64 > 0 by decide)
    omega
  rw [String.utf8EncodeChar]
  have hlong : ¬c.val.toNat ≤ 0x7f := Nat.not_le.mpr h
  simp only [if_neg hlong]
  split
  · exact ⟨[_], _, rfl, hlast _⟩
  · split
    · exact ⟨[_, _], _, rfl, hlast _⟩
    · exact ⟨[_, _, _], _, rfl, hlast _⟩

/-- Where the bytes end in an ASCII, so does the text. -/
theorem getLast?_of_encode {text : List Char} {c : Char} (hc : c.toNat ≤ 127)
    (h : (encode text).getLast? = some (UInt8.ofNat c.toNat)) : text.getLast? = some c := by
  rcases List.eq_nil_or_concat text with rfl | ⟨front, d, rfl⟩
  · cases h
  · rw [List.concat_eq_append, encode_append, encode_cons, encode_nil, List.append_nil] at h
    rw [List.concat_eq_append, List.getLast?_concat]
    by_cases hd : d.toNat ≤ 127
    · rw [encodeChar_ascii hd, List.getLast?_concat, Option.some_inj] at h
      have hnat := congrArg UInt8.toNat h
      rw [UInt8.toNat_ofNat', UInt8.toNat_ofNat', Nat.mod_eq_of_lt (by omega), Nat.mod_eq_of_lt (by omega)] at hnat
      rw [Char.toNat_inj.mp hnat]
    · obtain ⟨rest, b, hcode, hb⟩ := encodeChar_last (Nat.not_le.mp hd)
      rw [hcode, ← List.append_assoc, List.getLast?_concat, Option.some_inj] at h
      rw [h, UInt8.toNat_ofNat', Nat.mod_eq_of_lt (by omega)] at hb
      omega

theorem mem_encode {text : List Char} {c : Char} (hc : c.toNat ≤ 127) (h : c ∈ text) : UInt8.ofNat c.toNat ∈ encode text := by
  rw [encode, List.mem_flatMap]
  exact ⟨c, h, by rw [encodeChar_ascii hc]; exact List.mem_singleton_self _⟩

/-- The bytes of a text of ASCII characters are these. -/
theorem encode_ascii {text : List Char} (h : ∀ c ∈ text, c.toNat ≤ 127) : encode text = text.map fun c => UInt8.ofNat c.toNat := by
  induction text with
  | nil => rfl
  | cons c rest ih =>
    rw [encode_cons, encodeChar_ascii (h c (List.mem_cons_self ..)), ih fun d hd => h d (List.mem_cons_of_mem _ hd)]
    rfl

theorem isSome_decode {bytes : List UInt8} : (decode bytes).isSome = true ↔ ∃ text, bytes = encode text := by
  rw [Option.isSome_iff_exists]
  exact exists_congr fun text => decode_eq_some

theorem isSome_decode_append {a b : List UInt8} (ha : (decode a).isSome = true) (hb : (decode b).isSome = true) :
    (decode (a ++ b)).isSome = true := by
  obtain ⟨x, rfl⟩ := isSome_decode.mp ha
  obtain ⟨y, rfl⟩ := isSome_decode.mp hb
  exact isSome_decode.mpr ⟨x ++ y, (encode_append x y).symm⟩

/-! ### Lines -/

section Lines
variable {α : Type} {newline carriage : α} {text line : List α} {texts : List (List α)}

def unlines (newline : α) (texts : List (List α)) : List α := texts.flatMap (· ++ [newline])

@[simp] theorem unlines_cons : unlines newline (line :: texts) = line ++ newline :: unlines newline texts := by
  rw [unlines, List.flatMap_cons, List.append_assoc]
  rfl

theorem mem_unlines_of_mem {a : α} (hline : line ∈ texts) (ha : a ∈ line) : a ∈ unlines newline texts := by
  rw [unlines, List.mem_flatMap]
  exact ⟨line, hline, List.mem_append_left _ ha⟩

variable [DecidableEq α]

/-- Each line with its separator; the last one may lack it. -/
def splitInclusive (separator : α) : List α → List (List α)
  | [] => []
  | a :: rest =>
    if a = separator then [a] :: splitInclusive separator rest
    else
      match splitInclusive separator rest with
      | [] => [[a]]
      | line :: others => (a :: line) :: others

def stripSuffix (a : α) (line : List α) : List α := if line.getLast? = some a then line.dropLast else line

def lines (newline carriage : α) (text : List α) : List (List α) :=
  (splitInclusive newline text).map fun line =>
    if line.getLast? = some newline then stripSuffix carriage line.dropLast else line

theorem splitInclusive_append (h : newline ∉ line) (rest : List α) :
    splitInclusive newline (line ++ newline :: rest) = (line ++ [newline]) :: splitInclusive newline rest := by
  induction line with
  | nil => rw [List.nil_append, splitInclusive, if_pos rfl]; rfl
  | cons a line ih =>
    rw [List.mem_cons, not_or] at h
    rw [List.cons_append, splitInclusive, if_neg (Ne.symm h.1), ih h.2]
    rfl

theorem splitInclusive_unlines (h : ∀ line ∈ texts, newline ∉ line) :
    splitInclusive newline (unlines newline texts) = texts.map (· ++ [newline]) := by
  induction texts with
  | nil => rfl
  | cons line texts ih =>
    rw [unlines_cons, splitInclusive_append (h line (List.mem_cons_self ..)), ih fun l hl => h l (List.mem_cons_of_mem _ hl)]
    rfl

theorem lines_unlines (h : ∀ line ∈ texts, newline ∉ line) :
    lines newline carriage (unlines newline texts) = texts.map (stripSuffix carriage) := by
  rw [lines, splitInclusive_unlines h, List.map_map]
  apply List.map_congr_left
  intro line _
  rw [Function.comp_apply, List.getLast?_concat, if_pos rfl, List.dropLast_concat]

/-- A text that ends in a newline is put together from lines. -/
theorem exists_unlines (h : text.getLast? = some newline) :
    ∃ texts, (∀ line ∈ texts, newline ∉ line) ∧ text = unlines newline texts := by
  induction text with
  | nil => cases h
  | cons a rest ih =>
    by_cases hrest : rest = []
    · subst hrest
      rw [List.getLast?_singleton, Option.some_inj] at h
      exact ⟨[[]], by simp, by rw [h]; rfl⟩
    · rw [List.getLast?_cons_of_ne_nil hrest] at h
      obtain ⟨texts, htexts, hrest⟩ := ih h
      by_cases ha : a = newline
      · refine ⟨[] :: texts, ?_, by rw [unlines_cons, ← hrest, ha]; rfl⟩
        intro line hline
        rcases List.mem_cons.mp hline with rfl | hline
        · exact List.not_mem_nil
        · exact htexts line hline
      · cases texts with
        | nil => exact absurd hrest ‹rest ≠ []›
        | cons first others =>
          refine ⟨(a :: first) :: others, ?_, by rw [hrest, unlines_cons, unlines_cons]; rfl⟩
          intro line hline
          rcases List.mem_cons.mp hline with rfl | hline
          · rw [List.mem_cons, not_or]
            exact ⟨Ne.symm ha, htexts first (List.mem_cons_self ..)⟩
          · exact htexts line (List.mem_cons_of_mem _ hline)

theorem stripSuffix_of_not_mem (h : carriage ∉ line) : stripSuffix carriage line = line := by
  rw [stripSuffix, if_neg fun hlast => h (List.mem_of_getLast? hlast)]

theorem lines_unlines_of_not_mem (h : ∀ line ∈ texts, newline ∉ line) (hcarriage : ∀ line ∈ texts, carriage ∉ line) :
    lines newline carriage (unlines newline texts) = texts := by
  rw [lines_unlines h]
  calc texts.map (stripSuffix carriage)
    _ = texts.map id := List.map_congr_left fun line hline => stripSuffix_of_not_mem (hcarriage line hline)
    _ = texts := List.map_id texts

/-- What a line was before the carriage return went. -/
theorem stripSuffix_eq {original : List α} (h : carriage ∉ line) :
    stripSuffix carriage original = line ↔ original = line ∨ original = line ++ [carriage] := by
  constructor
  · intro heq
    rw [stripSuffix] at heq
    split at heq
    case isTrue hlast =>
      rw [← heq]
      exact .inr (List.dropLast_append_getLast? carriage hlast).symm
    case isFalse => exact .inl heq
  · rintro (rfl | rfl)
    · exact stripSuffix_of_not_mem h
    · rw [stripSuffix, List.getLast?_concat, if_pos rfl, List.dropLast_concat]

/-- The line, with a carriage return or without. -/
def Ended (carriage : α) (line original : List α) : Prop := original = line ∨ original = line ++ [carriage]

theorem map_stripSuffix_eq {originals : List (List α)} (h : ∀ line ∈ texts, carriage ∉ line) :
    originals.map (stripSuffix carriage) = texts ↔ List.Forall₂ (Ended carriage) texts originals := by
  induction texts generalizing originals with
  | nil => rw [List.map_eq_nil_iff, List.forall₂_nil_left_iff]
  | cons line texts ih =>
    rw [List.forall_mem_cons] at h
    cases originals with
    | nil => exact iff_of_false (fun hno => (by cases hno)) fun hno => (by cases hno)
    | cons original originals =>
      rw [List.map_cons, List.cons.injEq, List.forall₂_cons, stripSuffix_eq h.1, ih h.2]
      rfl

omit [DecidableEq α] in
theorem exists_ended {originals : List (List α)} {original : List α} (h : List.Forall₂ (Ended carriage) texts originals)
    (hmem : original ∈ originals) : ∃ line ∈ texts, Ended carriage line original := by
  induction h with
  | nil => exact absurd hmem List.not_mem_nil
  | cons hfirst _ ih =>
    rcases List.mem_cons.mp hmem with rfl | hmem
    · exact ⟨_, List.mem_cons_self .., hfirst⟩
    · obtain ⟨line, hline, hended⟩ := ih hmem
      exact ⟨line, List.mem_cons_of_mem _ hline, hended⟩

/-- Lines put together are one text in one way. -/
theorem unlines_inj {others : List (List α)} (h : ∀ line ∈ texts, newline ∉ line) (h' : ∀ line ∈ others, newline ∉ line) :
    unlines newline texts = unlines newline others ↔ texts = others := by
  constructor
  · intro heq
    have hsplit := congrArg (splitInclusive newline) heq
    rw [splitInclusive_unlines h, splitInclusive_unlines h'] at hsplit
    exact (List.map_injective_iff.mpr fun a b hab => List.append_cancel_right hab) hsplit
  · rintro rfl
    rfl

theorem isSome_decode_unlines {lines : List (List UInt8)} (h : ∀ line ∈ lines, (decode line).isSome = true) :
    (decode (unlines 10 lines)).isSome = true := by
  induction lines with
  | nil => rfl
  | cons line rest ih =>
    rw [List.forall_mem_cons] at h
    have hnewline : (decode [10]).isSome = true := isSome_decode.mpr ⟨['\n'], rfl⟩
    rw [unlines_cons]
    exact isSome_decode_append h.1 (isSome_decode_append hnewline (ih h.2))

/-! ### Cutting -/

def splitOnce (a : α) (text : List α) : Option (List α × List α) :=
  if a ∈ text then some (text.takeWhile (· ≠ a), (text.dropWhile (· ≠ a)).tail) else none

theorem splitOnce_eq_some {a : α} {key value : List α} : splitOnce a text = some (key, value) ↔ a ∉ key ∧ text = key ++ a :: value := by
  induction text generalizing key with
  | nil => simp [splitOnce]
  | cons b rest ih =>
    by_cases hb : b = a
    · subst hb
      cases key with
      | nil => simp [splitOnce]
      | cons c key =>
        simp only [splitOnce, List.mem_cons, true_or, if_true, List.takeWhile_cons, ne_eq, not_true_eq_false, decide_false,
          Bool.false_eq_true, if_false, Option.some.injEq, Prod.mk.injEq, List.cons_append, List.cons.injEq, not_or]
        constructor
        · rintro ⟨hno, -⟩
          cases hno
        · rintro ⟨⟨hne, -⟩, heq, -⟩
          exact absurd heq hne
    · cases key with
      | nil => simp [splitOnce, hb, Ne.symm hb]
      | cons c key =>
        have hrest := @ih key
        rw [splitOnce] at hrest
        simp only [splitOnce, List.mem_cons, Ne.symm hb, false_or, List.takeWhile_cons, List.dropWhile_cons, ne_eq, hb,
          not_false_eq_true, decide_true, if_true, List.cons_append, List.cons.injEq, not_or]
        split at hrest
        case isTrue hmem =>
          rw [if_pos hmem]
          simp only [Option.some.injEq, Prod.mk.injEq, List.cons.injEq] at hrest ⊢
          constructor
          · rintro ⟨⟨rfl, hkey⟩, hvalue⟩
            obtain ⟨hnot, heq⟩ := hrest.mp ⟨hkey, hvalue⟩
            exact ⟨⟨Ne.symm hb, hnot⟩, rfl, heq⟩
          · rintro ⟨⟨-, hnot⟩, rfl, heq⟩
            obtain ⟨hkey, hvalue⟩ := hrest.mpr ⟨hnot, heq⟩
            exact ⟨⟨rfl, hkey⟩, hvalue⟩
        case isFalse hmem =>
          rw [if_neg hmem]
          simp only [reduceCtorEq, false_iff, not_and] at hrest ⊢
          rintro ⟨-, hnot⟩ rfl heq
          exact hrest hnot heq

end Lines

/-- Without the characters at both ends for which `white` holds. -/
def trim (white : Char → Bool) (text : List Char) : List Char := ((text.dropWhile white).reverse.dropWhile white).reverse

theorem trim_of_ends {white : Char → Bool} {text : List Char} (hfirst : ∀ c, text.head? = some c → white c = false)
    (hlast : ∀ c, text.getLast? = some c → white c = false) : trim white text = text := by
  have hdrop : ∀ l : List Char, (∀ c, l.head? = some c → white c = false) → l.dropWhile white = l := by
    intro l hl
    cases l with
    | nil => rfl
    | cons c l => rw [List.dropWhile_cons_of_neg (by rw [hl c rfl]; exact Bool.false_ne_true)]
  rw [trim, hdrop text hfirst, hdrop text.reverse (by rw [List.head?_reverse]; exact hlast), List.reverse_reverse]

end NetworkLoop.Library.Text
