import Mathlib

/-! Machines with an observer.

A law about a machine's past, such as "the last three inputs agreed", is not a
property of its state: it speaks of inputs the state has forgotten. A `Recorder`
is a machine together with what an observer writes down at each step, newest
entry first, so that such a law becomes an invariant between the state and the
log. `run_invariant` is the only induction over runs that a client needs.

`Streak P n log` says that the `n` newest entries exist and satisfy `P`: it is
what a counter that is incremented on `P` and reset otherwise remembers. -/
namespace NetworkLoop.Library

structure Recorder (S I L : Type) where
  step : S → I → S
  note : S → I → List L → List L

namespace Recorder
variable {S I L : Type} (r : Recorder S I L)

def run : S × List L → List I → S × List L
  | c, [] => c
  | (s, log), i :: rest => run (r.step s i, r.note s i log) rest

@[simp] theorem run_nil (c : S × List L) : r.run c [] = c := by
  unfold run
  rfl

theorem run_append (c : S × List L) (a b : List I) : r.run c (a ++ b) = r.run (r.run c a) b := by
  induction a generalizing c with
  | nil => rw [List.nil_append, run_nil]
  | cons i rest ih => exact ih _

/-- One more step at the end of a run. -/
theorem run_snoc (c : S × List L) (a : List I) (i : I) :
    r.run c (a ++ [i]) = (r.step (r.run c a).1 i, r.note (r.run c a).1 i (r.run c a).2) := by
  rw [run_append]
  rfl

/-- The observer does not disturb the machine. -/
theorem run_fst (c : S × List L) (is : List I) : (r.run c is).1 = is.foldl r.step c.1 := by
  induction is generalizing c with
  | nil => rw [run_nil]; rfl
  | cons i rest ih => exact ih _

/-- Every step of the run is taken in a state that satisfies the rule with its input. -/
def Obeys (Rule : S → I → Prop) : S → List I → Prop
  | _, [] => True
  | s, i :: rest => Rule s i ∧ Obeys Rule (r.step s i) rest

instance decidableObeys (Rule : S → I → Prop) [∀ s i, Decidable (Rule s i)] :
    (s : S) → (is : List I) → Decidable (r.Obeys Rule s is)
  | _, [] => .isTrue trivial
  | s, i :: rest =>
    have := decidableObeys Rule (r.step s i) rest
    inferInstanceAs (Decidable (_ ∧ _))

theorem obeys_append {Rule : S → I → Prop} (s : S) (a b : List I) :
    r.Obeys Rule s (a ++ b) ↔ r.Obeys Rule s a ∧ r.Obeys Rule (a.foldl r.step s) b := by
  induction a generalizing s with
  | nil => exact ⟨fun h => ⟨trivial, h⟩, fun h => h.2⟩
  | cons i rest ih =>
    show Rule s i ∧ r.Obeys Rule (r.step s i) (rest ++ b) ↔ (Rule s i ∧ r.Obeys Rule (r.step s i) rest) ∧ _
    rw [ih, and_assoc]
    rfl

theorem obeys_congr {Rule Rule' : S → I → Prop} (h : ∀ s i, Rule s i ↔ Rule' s i) (s : S) (is : List I) :
    r.Obeys Rule s is ↔ r.Obeys Rule' s is := by
  induction is generalizing s with
  | nil => rfl
  | cons i rest ih => exact and_congr (h s i) (ih _)

/-- What one step preserves under a rule, a run whose steps all meet the rule preserves. -/
theorem run_invariant_under {Rule : S → I → Prop} (Inv : S → List L → Prop)
    (hstep : ∀ s log i, Rule s i → Inv s log → Inv (r.step s i) (r.note s i log))
    (c : S × List L) (is : List I) (hrule : r.Obeys Rule c.1 is) (hc : Inv c.1 c.2) :
    Inv (r.run c is).1 (r.run c is).2 := by
  induction is generalizing c with
  | nil => rw [run_nil]; exact hc
  | cons i rest ih => exact ih _ hrule.2 (hstep _ _ _ hrule.1 hc)

theorem obeys_of_forall {Rule : I → Prop} {is : List I} (h : ∀ i ∈ is, Rule i) (s : S) : r.Obeys (fun _ => Rule) s is := by
  induction is generalizing s with
  | nil => exact trivial
  | cons i rest ih =>
    obtain ⟨hfirst, hrest⟩ := List.forall_mem_cons.mp h
    exact ⟨hfirst, ih hrest (r.step s i)⟩

theorem obeys_true (s : S) (is : List I) : r.Obeys (fun _ _ => True) s is := by
  induction is generalizing s with
  | nil => trivial
  | cons i rest ih => exact ⟨trivial, ih _⟩

/-- What every step preserves, every run preserves. -/
theorem run_invariant (Inv : S → List L → Prop)
    (hstep : ∀ s log i, Inv s log → Inv (r.step s i) (r.note s i log))
    (c : S × List L) (is : List I) (hc : Inv c.1 c.2) : Inv (r.run c is).1 (r.run c is).2 :=
  r.run_invariant_under Inv (fun s log i _ => hstep s log i) c is (r.obeys_true _ is) hc

end Recorder

/-! ### Streaks -/

section Streak
variable {L : Type} {P Q : L → Prop}

/-- The `n` newest entries of the log exist and satisfy `P`. -/
def Streak (P : L → Prop) (n : Nat) (log : List L) : Prop :=
  n ≤ log.length ∧ ∀ x ∈ log.take n, P x

instance [DecidablePred P] (n : Nat) (log : List L) : Decidable (Streak P n log) :=
  inferInstanceAs (Decidable (_ ∧ _))

theorem streak_zero (log : List L) : Streak P 0 log :=
  ⟨Nat.zero_le _, fun _ hx => absurd hx (by simp)⟩

theorem streak_cons {n : Nat} {x : L} {log : List L} :
    Streak P (n + 1) (x :: log) ↔ P x ∧ Streak P n log := by
  simp only [Streak, List.length_cons, Nat.add_le_add_iff_right, List.take_succ_cons, List.mem_cons,
    forall_eq_or_imp]
  tauto

theorem Streak.mono {m n : Nat} {log : List L} (h : Streak P n log) (hm : m ≤ n) : Streak P m log :=
  ⟨Nat.le_trans hm h.1, fun x hx => h.2 x (List.take_subset_take_left log hm hx)⟩

end Streak

end NetworkLoop.Library
