import Mathlib

/-! Sums over a finite table.

`tally` adds up a measure of the entries. An entry that goes takes its measure with it,
a new one brings its own (`tally_erase`, `tally_insert`); counting is the tally of one
(`length_eq_tally`). -/
namespace NetworkLoop.Library.Table
variable {κ : Type} {β : κ → Type} [DecidableEq κ] (f : (k : κ) → β k → Nat) (t : AList β) {k : κ}

/-- The sum of a measure over the entries. -/
def tally : Nat := (t.entries.map fun entry => f entry.1 entry.2).sum

/-- The measure of the entry under a key. -/
def measure (k : κ) : Nat := (t.lookup k).elim 0 (f k)

theorem sum_kerase (entries : List (Sigma β)) (k : κ) :
    ((entries.kerase k).map fun entry => f entry.1 entry.2).sum + (entries.dlookup k).elim 0 (f k) =
      (entries.map fun entry => f entry.1 entry.2).sum := by
  induction entries with
  | nil => rfl
  | cons entry rest ih =>
    obtain ⟨k', b⟩ := entry
    by_cases hk : k = k'
    · subst hk
      rw [List.kerase_cons_eq (s := ⟨k, b⟩) rfl, List.dlookup_cons_eq, List.map_cons, List.sum_cons]
      exact Nat.add_comm _ _
    · rw [List.kerase_cons_ne (s := ⟨k', b⟩) hk, List.dlookup_cons_ne _ _ hk, List.map_cons, List.sum_cons, List.map_cons, List.sum_cons,
        ← ih, Nat.add_assoc]

/-- What goes takes its measure with it. -/
theorem tally_erase : tally f (t.erase k) + measure f t k = tally f t := sum_kerase f t.entries k

/-- What comes brings its measure, and replaces what was there. -/
theorem tally_insert (b : β k) : tally f (t.insert k b) + measure f t k = tally f t + f k b := by
  have herase := tally_erase f t (k := k)
  have hinsert : tally f (t.insert k b) = f k b + tally f (t.erase k) := by
    show ((t.insert k b).entries.map fun entry => f entry.1 entry.2).sum = _
    rw [AList.entries_insert, List.map_cons, List.sum_cons]
    rfl
  omega

omit [DecidableEq κ] in
theorem length_eq_tally : t.keys.length = tally (fun _ _ => 1) t := by
  rw [tally, List.map_const', List.sum_replicate, AList.keys, List.keys, List.length_map]
  simp

theorem measure_of_lookup {b : β k} (h : t.lookup k = some b) : measure f t k = f k b := by
  rw [measure, h]
  rfl

theorem measure_of_none (h : t.lookup k = none) : measure f t k = 0 := by
  rw [measure, h]
  rfl

/-- Tables with the same entries have the same sums. -/
theorem tally_congr {t' : AList β} (h : ∀ k, t.lookup k = t'.lookup k) : tally f t = tally f t' := by
  have hperm : t.entries.Perm t'.entries := List.lookup_ext t.nodupKeys t'.nodupKeys fun k b => by
    show b ∈ t.lookup k ↔ b ∈ t'.lookup k
    rw [h]
  exact (hperm.map _).sum_eq

/-- No entry measures more than all of them. -/
theorem measure_le_tally : measure f t k ≤ tally f t := by
  rw [← tally_erase f t (k := k)]
  exact Nat.le_add_left ..

end NetworkLoop.Library.Table
