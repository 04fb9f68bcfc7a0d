import Mathlib

/-! The element of a rank.

`orderStat` sorts and takes the element at an index. What it takes is told by counting: no
more elements are smaller than the rank says, and more than the rank says are not larger
(`countP_lt_le`, `lt_countP_le`). So whoever replaces too few elements leaves some that
were not replaced on either side of it (`orderStat_kept`). -/
namespace NetworkLoop.Library
variable {α : Type} [LinearOrder α] {l l' : List α} {k : Nat} {m : α}

def orderStat (l : List α) (k : Nat) : Option α := (l.insertionSort (· ≤ ·))[k]?

namespace OrderStat

/-- The order of the elements does not matter. -/
theorem perm (h : l.Perm l') (k : Nat) : orderStat l k = orderStat l' k := by
  have hsorted : l.insertionSort (· ≤ ·) = l'.insertionSort (· ≤ ·) := by
    apply List.Perm.eq_of_pairwise' (List.pairwise_insertionSort _ l) (List.pairwise_insertionSort _ l')
    exact (List.perm_insertionSort _ l).trans (h.trans (List.perm_insertionSort _ l').symm)
  rw [orderStat, orderStat, hsorted]

theorem exists_of_lt (h : k < l.length) : ∃ m, orderStat l k = some m := by
  rw [← List.length_insertionSort (· ≤ ·) l] at h
  exact ⟨_, List.getElem?_eq_getElem h⟩

theorem mem (h : orderStat l k = some m) : m ∈ l :=
  (List.perm_insertionSort _ l).mem_iff.mp (List.mem_of_getElem? h)

/-- Below the element there are no more than its rank says. -/
theorem countP_lt_le (h : orderStat l k = some m) : l.countP (· < m) ≤ k := by
  rw [← (List.perm_insertionSort (· ≤ ·) l).countP_eq]
  have hsorted := List.pairwise_insertionSort (· ≤ ·) l
  rw [orderStat] at h
  generalize l.insertionSort (· ≤ ·) = s at hsorted h
  have hdrop : (s.drop k).countP (· < m) = 0 := by
    rw [List.countP_eq_zero]
    intro x hx
    obtain ⟨i, hi⟩ := List.mem_iff_getElem?.mp hx
    rw [List.getElem?_drop] at hi
    have hle : m ≤ x := by
      rcases Nat.eq_zero_or_pos i with rfl | hpos
      · rw [Nat.add_zero, h] at hi
        exact (Option.some_inj.mp hi).le
      · obtain ⟨hk, rfl⟩ := List.getElem?_eq_some_iff.mp h
        obtain ⟨hki, rfl⟩ := List.getElem?_eq_some_iff.mp hi
        exact List.pairwise_iff_getElem.mp hsorted _ _ hk hki (by omega)
    simpa using hle
  calc s.countP (· < m)
    _ = (s.take k).countP (· < m) + (s.drop k).countP (· < m) := by rw [← List.countP_append, List.take_append_drop]
    _ ≤ (s.take k).length := by rw [hdrop]; exact List.countP_le_length
    _ ≤ k := List.length_take_le k s

/-- And up to it there are more. -/
theorem lt_countP_le (h : orderStat l k = some m) : k < l.countP (· ≤ m) := by
  rw [← (List.perm_insertionSort (· ≤ ·) l).countP_eq]
  have hsorted := List.pairwise_insertionSort (· ≤ ·) l
  rw [orderStat] at h
  generalize l.insertionSort (· ≤ ·) = s at hsorted h
  obtain ⟨hk, hm⟩ := List.getElem?_eq_some_iff.mp h
  have htake : (s.take (k + 1)).countP (· ≤ m) = k + 1 := by
    rw [List.countP_eq_length.mpr, List.length_take_of_le hk]
    intro x hx
    obtain ⟨i, hi, rfl⟩ := List.getElem_of_mem hx
    rw [List.length_take] at hi
    rw [List.getElem_take, decide_eq_true_eq, ← hm]
    rcases Nat.lt_or_eq_of_le (show i ≤ k by omega) with hlt | rfl
    · exact List.pairwise_iff_getElem.mp hsorted _ _ (by omega) hk hlt
    · exact le_refl _
  calc k
    _ < (s.take (k + 1)).countP (· ≤ m) := by rw [htake]; exact Nat.lt_succ_self k
    _ ≤ s.countP (· ≤ m) := (List.take_sublist _ _).countP_le

/-! ### Replacing elements -/

/-- The elements at the indices that nobody has touched. -/
def untouched (l : List α) (touched : Finset Nat) : List α := (l.zipIdx.filter fun entry => entry.2 ∉ touched).map Prod.fst

omit [LinearOrder α] in
theorem mem_untouched {touched : Finset Nat} {x : α} : x ∈ untouched l touched ↔ ∃ i, i ∉ touched ∧ l[i]? = some x := by
  simp only [untouched, List.mem_map, List.mem_filter, decide_eq_true_eq, Prod.exists, exists_and_right, exists_eq_right,
    List.mem_zipIdx_iff_getElem?]
  exact exists_congr fun i => and_comm

omit [LinearOrder α] in
/-- Where more elements have a property than are touched, one that is not touched has it. -/
theorem exists_untouched {touched : Finset Nat} {p : α → Bool} (h : touched.card < l.countP p) :
    ∃ x ∈ untouched l touched, p x = true := by
  by_contra hno
  have hsub : ((l.zipIdx.filter fun entry => p entry.1).map Prod.snd).toFinset ⊆ touched := by
    intro i hi
    obtain ⟨⟨x, j⟩, hentry, rfl⟩ := List.mem_map.mp (List.mem_toFinset.mp hi)
    obtain ⟨hmem, hp⟩ := List.mem_filter.mp hentry
    by_contra hj
    exact hno ⟨x, mem_untouched.mpr ⟨j, hj, List.mem_zipIdx_iff_getElem?.mp hmem⟩, hp⟩
  have hnodup : ((l.zipIdx.filter fun entry => p entry.1).map Prod.snd).Nodup :=
    (List.nodup_zipIdx_map_snd l).sublist (List.filter_sublist.map _)
  have hcount : l.countP p = (l.zipIdx.filter fun entry => p entry.1).length := by
    conv_lhs => rw [← List.zipIdx_map_fst 0 l]
    rw [List.countP_map, List.countP_eq_length_filter]
    rfl
  have hcard := Finset.card_le_card hsub
  rw [List.toFinset_card_of_nodup hnodup, List.length_map, ← hcount] at hcard
  omega

/-- **An element of a middle rank stays among the untouched ones.** -/
theorem kept {touched : Finset Nat} (h : orderStat l k = some m) (hbelow : touched.card ≤ k) (habove : touched.card + k < l.length) :
    (∃ x ∈ untouched l touched, x ≤ m) ∧ ∃ x ∈ untouched l touched, m ≤ x := by
  constructor
  · obtain ⟨x, hx, hle⟩ := exists_untouched (p := (· ≤ m)) (Nat.lt_of_le_of_lt hbelow (lt_countP_le h))
    exact ⟨x, hx, by simpa using hle⟩
  · have hsplit : l.length = l.countP (· < m) + l.countP (fun x => ¬decide (x < m)) := by
      have := List.length_eq_countP_add_countP (fun x => decide (x < m)) (l := l)
      simpa using this
    have hfew := countP_lt_le h
    obtain ⟨x, hx, hge⟩ := @exists_untouched _ l touched (fun x => ¬decide (x < m)) (by omega)
    exact ⟨x, hx, by simpa using hge⟩

end OrderStat

end NetworkLoop.Library
