import Mathlib

/-! Items grouped under keys, as a loop over an ordered map does it.

`upsert` is `entry(key).or_default()` with a change of the value. A table built by such
a loop has each key once, in the order of first sight, with the changes of its own items
(`group_eq`); so if the changes of one key commute, the order of the items does not matter
(`group_perm`), and adding up over the items is adding up key by key (`sum_under`). -/
namespace NetworkLoop.Library.Grouping
variable {κ ρ ι : Type} [DecidableEq κ]

def upsert (default : ρ) (f : ρ → ρ) (k : κ) : List (κ × ρ) → List (κ × ρ)
  | [] => [(k, f default)]
  | (k', r) :: rest => if k' = k then (k', f r) :: rest else (k', r) :: upsert default f k rest

section
variable (default : ρ) (key : ι → κ) (f : ι → ρ → ρ)

def group (items : List ι) : List (κ × ρ) := items.foldl (fun table x => upsert default (f x) (key x) table) []

/-- A key is added where it is new. -/
def addKey (keys : List κ) (k : κ) : List κ := if k ∈ keys then keys else keys ++ [k]

/-- The keys in the order of first sight. -/
def keysOf (items : List ι) : List κ := items.foldl (fun keys x => addKey keys (key x)) []

/-- The items of one key. -/
def under (items : List ι) (k : κ) : List ι := items.filter fun x => key x = k

/-- The changes of one key, one after the other. -/
def folded (items : List ι) (k : κ) : ρ := (under key items k).foldl (fun r x => f x r) default

end

variable {default : ρ} {key : ι → κ} {f : ι → ρ → ρ}

/-! ### The table -/

theorem upsert_map (keys : List κ) (hnodup : keys.Nodup) (g : κ → ρ) (change : ρ → ρ) (k : κ) :
    upsert default change k (keys.map fun k' => (k', g k')) =
      (addKey keys k).map fun k' => (k', if k' = k then change (if k ∈ keys then g k else default) else g k') := by
  induction keys with
  | nil => simp [upsert, addKey]
  | cons first rest ih =>
    obtain ⟨hnotin, hrest⟩ := List.nodup_cons.mp hnodup
    rw [List.map_cons, upsert]
    by_cases hk : first = k
    · subst hk
      have hmap : (rest.map fun k' => (k', g k')) =
          rest.map fun k' => (k', if k' = first then change (g first) else g k') := by
        apply List.map_congr_left
        intro k' hk'
        rw [if_neg (fun heq : k' = first => hnotin (heq ▸ hk'))]
      simp [addKey, hmap]
    · rw [if_neg hk, ih hrest]
      by_cases hin : k ∈ rest
      · simp [addKey, hin, hk]
      · have hne : ¬k = first := fun heq => hk heq.symm
        simp [addKey, hin, hne, hk]

theorem addKey_nodup {keys : List κ} (h : keys.Nodup) (k : κ) : (addKey keys k).Nodup := by
  unfold addKey
  split
  case isTrue => exact h
  case isFalse hnotin => exact h.append (List.nodup_singleton k) (by simpa using hnotin)

theorem mem_addKey {keys : List κ} {k k' : κ} : k' ∈ addKey keys k ↔ k' ∈ keys ∨ k' = k := by
  unfold addKey
  split
  case isTrue hin =>
    refine ⟨.inl, fun h => h.elim id ?_⟩
    rintro rfl
    exact hin
  case isFalse => simp

theorem keysOf_append (items : List ι) (x : ι) : keysOf key (items ++ [x]) = addKey (keysOf key items) (key x) := by
  simp [keysOf, List.foldl_append]

theorem keysOf_nodup (items : List ι) : (keysOf key items).Nodup := by
  induction items using List.reverseRecOn with
  | nil => exact List.nodup_nil
  | append_singleton front x ih =>
    rw [keysOf_append]
    exact addKey_nodup ih _

theorem mem_keysOf {items : List ι} {k : κ} : k ∈ keysOf key items ↔ ∃ x ∈ items, key x = k := by
  induction items using List.reverseRecOn with
  | nil => simp [keysOf]
  | append_singleton front x ih =>
    rw [keysOf_append, mem_addKey, ih]
    simp [or_and_right, exists_or, eq_comm (a := k)]

/-- What is under a key that no item has. -/
theorem folded_missing {items : List ι} {k : κ} (h : k ∉ keysOf key items) : folded default key f items k = default := by
  have hnone : under key items k = [] := by
    rw [under, List.filter_eq_nil_iff]
    intro x hx
    rw [decide_eq_true_iff]
    exact fun heq => h (mem_keysOf.mpr ⟨x, hx, heq⟩)
  rw [folded, hnone]
  rfl

/-- **A table has each key once, with the changes of its own items.** -/
theorem group_eq (items : List ι) :
    group default key f items = (keysOf key items).map fun k => (k, folded default key f items k) := by
  induction items using List.reverseRecOn with
  | nil => rfl
  | append_singleton front x ih =>
    have hgroup : group default key f (front ++ [x]) = upsert default (f x) (key x) (group default key f front) := by
      simp [group, List.foldl_append]
    rw [hgroup, ih, upsert_map _ (keysOf_nodup front), keysOf_append]
    apply List.map_congr_left
    intro k _
    by_cases hk : k = key x
    · subst hk
      have hunder : under key (front ++ [x]) (key x) = under key front (key x) ++ [x] := by simp [under]
      have hlast : folded default key f (front ++ [x]) (key x) = f x (folded default key f front (key x)) := by
        rw [folded, hunder, List.foldl_append]
        rfl
      rw [if_pos rfl, hlast]
      by_cases hin : key x ∈ keysOf key front
      · rw [if_pos hin]
      · rw [if_neg hin, folded_missing hin]
    · have hne : ¬key x = k := fun heq => hk heq.symm
      have hunder : under key (front ++ [x]) k = under key front k := by simp [under, hne]
      rw [if_neg hk, folded, folded, hunder]

/-! ### The order of the items -/

theorem keysOf_perm {items items' : List ι} (h : items.Perm items') : (keysOf key items).Perm (keysOf key items') := by
  rw [List.perm_ext_iff_of_nodup (keysOf_nodup items) (keysOf_nodup items')]
  intro k
  simp only [mem_keysOf, h.mem_iff]

/-- **The order of the items does not matter** if the changes of one key commute. -/
theorem group_perm {items items' : List ι} (h : items.Perm items')
    (hcomm : ∀ x ∈ items, ∀ y ∈ items, key x = key y → ∀ r, f y (f x r) = f x (f y r)) :
    (group default key f items).Perm (group default key f items') := by
  have hfolded : ∀ k, folded default key f items k = folded default key f items' k := by
    intro k
    refine (h.filter _).foldl_eq' (fun x hx y hy r => ?_) default
    obtain ⟨hx, hkx⟩ := List.mem_filter.mp hx
    obtain ⟨hy, hky⟩ := List.mem_filter.mp hy
    exact hcomm x hx y hy ((of_decide_eq_true hkx).trans (of_decide_eq_true hky).symm) r
  rw [group_eq, group_eq]
  simp only [hfolded]
  exact (keysOf_perm h).map _

/-! ### Sums -/

/-- Where no two items pass a test, the ones that do are the first that does. -/
theorem filter_eq_find {items : List ι} (p : ι → Bool) (h : items.Pairwise fun x y => ¬(p x ∧ p y)) :
    items.filter p = (items.find? p).toList := by
  induction items with
  | nil => rfl
  | cons x rest ih =>
    obtain ⟨hx, hrest⟩ := List.pairwise_cons.mp h
    by_cases hp : p x
    · have hnone : rest.filter p = [] := List.filter_eq_nil_iff.mpr fun y hy hpy => hx y hy ⟨hp, hpy⟩
      rw [List.filter_cons_of_pos hp, List.find?_cons_of_pos hp, hnone]
      rfl
    · rw [List.filter_cons_of_neg hp, List.find?_cons_of_neg hp, ih hrest]

theorem sum_indicator {keys : List κ} (hnodup : keys.Nodup) {k : κ} (hmem : k ∈ keys) (n : Nat) :
    (keys.map fun k' => if k = k' then n else 0).sum = n := by
  induction keys with
  | nil => cases hmem
  | cons first rest ih =>
    obtain ⟨hnotin, hrest⟩ := List.nodup_cons.mp hnodup
    rw [List.map_cons, List.sum_cons]
    by_cases hk : k = first
    · have hzero : (rest.map fun k' => if k = k' then n else 0) = rest.map fun _ => 0 := by
        apply List.map_congr_left
        intro k' hk'
        exact if_neg fun heq : k = k' => hnotin (hk.symm.trans heq ▸ hk')
      rw [if_pos hk, hzero]
      simp
    · rw [if_neg hk, Nat.zero_add]
      exact ih hrest ((List.mem_cons.mp hmem).resolve_left hk)

/-- Adding up over the items is adding up key by key. -/
theorem sum_under (weight : ι → Nat) (items : List ι) {keys : List κ} (hnodup : keys.Nodup) (hall : ∀ x ∈ items, key x ∈ keys) :
    (keys.map fun k => ((under key items k).map weight).sum).sum = (items.map weight).sum := by
  induction items with
  | nil => simp [under]
  | cons x rest ih =>
    obtain ⟨hx, hrest⟩ := List.forall_mem_cons.mp hall
    have hcons : (keys.map fun k => ((under key (x :: rest) k).map weight).sum) =
        keys.map fun k => (if key x = k then weight x else 0) + ((under key rest k).map weight).sum := by
      apply List.map_congr_left
      intro k _
      by_cases hk : key x = k
      · simp [under, hk]
      · simp [under, hk]
    rw [hcons, List.sum_map_add, sum_indicator hnodup hx (weight x), ih hrest, List.map_cons, List.sum_cons]

end NetworkLoop.Library.Grouping
