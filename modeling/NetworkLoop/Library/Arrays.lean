import Mathlib

/-! Fixed-size arrays as functions of their index.

`[T; N]` of the source is `Fin N → T`: `std::array::from_fn` is then the function
itself, and a comparison of two arrays entry by entry is a bounded quantifier.
`tryFromFn` builds an array whose entries can fail; it stops at the first failing
index, and `tryFromFn_eq_ok` says when there is none. A loop over a list that can
fail is `foldlM`: `foldlM_ok` runs one to its end under an invariant of the items still
to come, `foldlM_relates` says what a loop that came to its end has done, and `foldlM_fails`
when one does not. -/
namespace NetworkLoop.Library

variable {ε α β : Type}

/-- The entries in index order, up to the first failure. -/
def tryFromFn : {n : Nat} → (Fin n → Except ε α) → Except ε (Fin n → α)
  | 0, _ => .ok Fin.elim0
  | _ + 1, f =>
    f 0 >>= fun first => tryFromFn (fun i => f i.succ) >>= fun rest => .ok (Fin.cons first rest)

theorem tryFromFn_eq_ok {n : Nat} {f : Fin n → Except ε α} {g : Fin n → α} :
    tryFromFn f = .ok g ↔ ∀ i, f i = .ok (g i) := by
  induction n with
  | zero =>
    constructor
    · intro _ i
      exact i.elim0
    · intro _
      exact congrArg Except.ok (funext fun i => i.elim0)
  | succ n ih =>
    have htail : tryFromFn f = .ok g ↔ f 0 = .ok (g 0) ∧ tryFromFn (fun i => f i.succ) = .ok (fun i => g i.succ) := by
      simp only [tryFromFn, bind, Except.bind]
      cases f 0 with
      | error e => simp
      | ok a =>
        cases tryFromFn (fun i => f i.succ) with
        | error e => simp
        | ok rest =>
          simp only [Except.ok.injEq]
          constructor
          · intro h
            subst h
            exact ⟨rfl, rfl⟩
          · intro ⟨ha, hrest⟩
            rw [ha, hrest]
            exact Fin.cons_self_tail g
    rw [htail, ih]
    exact ⟨fun ⟨h0, hs⟩ i => Fin.cases h0 hs i, fun h => ⟨h 0, fun i => h i.succ⟩⟩

/-- If no entry fails, the array is built. -/
theorem tryFromFn_ok {n : Nat} {f : Fin n → Except ε α} (h : ∀ i, ∃ a, f i = .ok a) :
    ∃ g, tryFromFn f = .ok g := by
  choose g hg using h
  exact ⟨g, tryFromFn_eq_ok.mpr hg⟩

/-! ### Loops that can fail -/

section
variable {f : β → α → Except ε β}

/-- A loop whose every turn succeeds under the invariant comes to its end. -/
theorem foldlM_ok (Inv : List α → β → Prop)
    (hstep : ∀ a rest b, Inv (a :: rest) b → ∃ b', f b a = .ok b' ∧ Inv rest b') (l : List α) (b : β)
    (h : Inv l b) : ∃ b', l.foldlM f b = .ok b' ∧ Inv [] b' := by
  induction l generalizing b with
  | nil => exact ⟨b, rfl, h⟩
  | cons a rest ih =>
    obtain ⟨next, hnext, hinv⟩ := hstep a rest b h
    rw [List.foldlM_cons, hnext]
    exact ih next hinv

/-- What each turn adds, a loop that came to its end has added for all its items. -/
theorem foldlM_relates (R : List α → β → β → Prop) (hnil : ∀ b, R [] b b)
    (hcons : ∀ a rest b next b', f b a = .ok next → R rest next b' → R (a :: rest) b b') {l : List α} {b b' : β}
    (h : l.foldlM f b = .ok b') : R l b b' := by
  induction l generalizing b with
  | nil =>
    cases h
    exact hnil _
  | cons a rest ih =>
    rw [List.foldlM_cons] at h
    cases hf : f b a with
    | error e => rw [hf] at h; cases h
    | ok next =>
      rw [hf] at h
      exact hcons a rest b next b' hf (ih h)

/-- A loop fails with the error of one of its turns. -/
theorem foldlM_error {e : ε} {l : List α} {b : β} (h : l.foldlM f b = .error e) : ∃ a ∈ l, ∃ b', f b' a = .error e := by
  induction l generalizing b with
  | nil => cases h
  | cons first rest ih =>
    rw [List.foldlM_cons] at h
    cases hf : f b first with
    | error error =>
      rw [hf] at h
      cases h
      exact ⟨first, List.mem_cons_self, b, hf⟩
    | ok next =>
      rw [hf] at h
      obtain ⟨a, ha, hfails⟩ := ih h
      exact ⟨a, List.mem_cons_of_mem _ ha, hfails⟩

/-- A loop in which every turn succeeds or fails with one error, and some turn always fails. -/
theorem foldlM_fails {e : ε} {l : List α} (hstep : ∀ a ∈ l, ∀ b, (∃ b', f b a = .ok b') ∨ f b a = .error e)
    (hbad : ∃ a ∈ l, ∀ b, f b a = .error e) (b : β) : l.foldlM f b = .error e := by
  induction l generalizing b with
  | nil =>
    obtain ⟨a, ha, -⟩ := hbad
    exact absurd ha List.not_mem_nil
  | cons first rest ih =>
    obtain ⟨hfirst, hrest⟩ := List.forall_mem_cons.mp hstep
    rw [List.foldlM_cons]
    obtain ⟨next, hnext⟩ | herror := hfirst b
    · rw [hnext]
      refine ih hrest ?_ next
      obtain ⟨a, ha, hfails⟩ := hbad
      obtain rfl | ha := List.mem_cons.mp ha
      · cases hnext.symm.trans (hfails b)
      · exact ⟨a, ha, hfails⟩
    · rw [herror]
      rfl

end

end NetworkLoop.Library
