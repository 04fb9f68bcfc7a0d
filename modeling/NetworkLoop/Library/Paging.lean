import Mathlib

/-! Reading a collection page by page, in the order of its keys.

A page holds the first elements beyond a cursor, and the key of its last element is the
cursor of the next page if there is one. No two elements share a key, so nothing can
stand on a page boundary twice: whatever the limits of the single pages are, the pages
put together are the collection in its order (`walk_eq`). -/
namespace NetworkLoop.Library.Paging

section
variable {α κ : Type} [LinearOrder κ] (key : α → κ)

def ordered (items : List α) : List α := items.mergeSort fun a b => decide (key a ≤ key b)

/-- The element comes after the cursor, or there is none. -/
def beyond (cursor : Option κ) (a : α) : Bool := cursor.all fun c => decide (c < key a)

def remaining (cursor : Option κ) (items : List α) : List α := ordered key (items.filter (beyond key cursor))

def next (limit : Nat) (left : List α) : Option κ :=
  if limit < left.length then (left.take limit).getLast?.map key else none

/-- Page after page, until one has no successor; `none` if there are more than `fuel` of them. -/
def walk (items : List α) (limits : Nat → Nat) : Nat → Nat → Option κ → Option (List α)
  | 0, _, _ => none
  | fuel + 1, n, cursor =>
    let left := remaining key cursor items
    match next key (limits n) left with
    | none => some (left.take (limits n))
    | some following => (walk items limits fuel (n + 1) (some following)).map (left.take (limits n) ++ ·)

/-- The list is in the order of its keys, all of them different. -/
def Arranged (l : List α) : Prop := l.Pairwise fun a b => key a < key b

variable {key} {items front back : List α}

theorem arranged_ordered (hkeys : (items.map key).Nodup) : Arranged key (ordered key items) := by
  have hsorted : (ordered key items).Pairwise fun a b => key a ≤ key b := by
    have htrans : ∀ a b c : α, decide (key a ≤ key b) = true → decide (key b ≤ key c) = true → decide (key a ≤ key c) = true := by
      intro a b c hab hbc
      exact decide_eq_true ((of_decide_eq_true hab).trans (of_decide_eq_true hbc))
    have htotal : ∀ a b : α, (decide (key a ≤ key b) || decide (key b ≤ key a)) = true := by
      intro a b
      simpa using le_total (key a) (key b)
    exact (List.pairwise_mergeSort htrans htotal items).imp fun h => of_decide_eq_true h
  have hdistinct : (ordered key items).Pairwise fun a b => key a ≠ key b := by
    have hperm : ((ordered key items).map key).Perm (items.map key) := (List.mergeSort_perm _ _).map key
    exact List.pairwise_map.mp (hperm.nodup_iff.mpr hkeys)
  exact (hsorted.and hdistinct).imp fun h => lt_of_le_of_ne h.1 h.2

theorem ordered_eq {l : List α} (hl : Arranged key l) (hperm : l.Perm items) : ordered key items = l := by
  have hkeys : (items.map key).Nodup := (hperm.map key).nodup_iff.mp (List.pairwise_map.mpr (hl.imp fun h => h.ne))
  have hasymm : ∀ a b, a ∈ ordered key items → b ∈ l → key a < key b → key b < key a → a = b := fun a b _ _ h h' =>
    absurd h' h.asymm
  exact List.Perm.eq_of_pairwise hasymm (arranged_ordered hkeys) hl ((List.mergeSort_perm _ _).trans hperm.symm)

/-- Beyond the last element of a front part of the order is the rest of it. -/
theorem filter_beyond (h : Arranged key (front ++ back)) :
    (front ++ back).filter (beyond key (front.getLast?.map key)) = back := by
  rcases front.eq_nil_or_concat with rfl | ⟨init, last, rfl⟩
  · exact List.filter_eq_self.mpr fun a _ => rfl
  · obtain ⟨hfront, -, hacross⟩ := List.pairwise_append.mp h
    have hcursor : (init.concat last).getLast?.map key = some (key last) := by
      rw [List.concat_eq_append, List.getLast?_append]
      rfl
    rw [hcursor, List.filter_append, List.filter_eq_nil_iff.mpr, List.nil_append, List.filter_eq_self]
    · intro a ha
      exact decide_eq_true (hacross last (by simp) a ha)
    · intro a ha
      have hle : key a ≤ key last := by
        rw [List.concat_eq_append] at ha hfront
        rcases List.mem_append.mp ha with hin | hlast
        · exact ((List.pairwise_append.mp hfront).2.2 a hin last (by simp)).le
        · rw [List.mem_singleton.mp hlast]
      simpa [beyond] using hle

theorem remaining_eq (h : Arranged key (front ++ back)) (hperm : (front ++ back).Perm items) :
    remaining key (front.getLast?.map key) items = back := by
  apply ordered_eq (List.pairwise_append.mp h).2.1
  have hfilter := hperm.filter (beyond key (front.getLast?.map key))
  rwa [filter_beyond h] at hfilter

/-- **The pages put together** from any point of the order on. -/
theorem walk_eq_rest {limits : Nat → Nat} (hlimits : ∀ n, limits n ≠ 0) (fuel n : Nat) (h : Arranged key (front ++ back))
    (hperm : (front ++ back).Perm items) (hfuel : back.length < fuel) :
    walk key items limits fuel n (front.getLast?.map key) = some back := by
  induction fuel generalizing n front back with
  | zero => omega
  | succ fuel ih =>
    rw [walk, remaining_eq h hperm]
    by_cases hmore : limits n < back.length
    · have hne : back.take (limits n) ≠ [] := by
        intro hnil
        have hlength := congrArg List.length hnil
        rw [List.length_take, List.length_nil] at hlength
        have := hlimits n
        omega
      have hcursor : next key (limits n) back = (front ++ back.take (limits n)).getLast?.map key := by
        rw [next, if_pos hmore, List.getLast?_append_of_ne_nil front hne]
      have hsplit : front ++ back = front ++ back.take (limits n) ++ back.drop (limits n) := by
        rw [List.append_assoc, List.take_append_drop]
      have hfewer : (back.drop (limits n)).length < fuel := by
        have := hlimits n
        rw [List.length_drop]
        omega
      have hrest : walk key items limits fuel (n + 1) ((front ++ back.take (limits n)).getLast?.map key) =
          some (back.drop (limits n)) := ih (n + 1) (hsplit ▸ h) (hsplit ▸ hperm) hfewer
      rw [← hcursor] at hrest
      cases hnext : next key (limits n) back with
      | none =>
        rw [next, if_pos hmore, List.getLast?_eq_some_getLast hne] at hnext
        cases hnext
      | some following =>
        rw [hnext] at hrest
        show (walk key items limits fuel (n + 1) (some following)).map _ = _
        rw [hrest, Option.map_some, List.take_append_drop]
    · have hlast : next key (limits n) back = none := if_neg hmore
      rw [hlast]
      show some (back.take (limits n)) = some back
      rw [List.take_of_length_le (Nat.not_lt.mp hmore)]

/-- **The pages put together are the collection in its order.** -/
theorem walk_eq {limits : Nat → Nat} (hlimits : ∀ n, limits n ≠ 0) {fuel : Nat} (hkeys : (items.map key).Nodup)
    (hfuel : items.length < fuel) : walk key items limits fuel 0 none = some (ordered key items) := by
  have hperm : (ordered key items).Perm items := List.mergeSort_perm _ _
  show walk key items limits fuel 0 (([] : List α).getLast?.map key) = _
  exact walk_eq_rest hlimits fuel 0 (arranged_ordered hkeys) hperm (hperm.length_eq ▸ hfuel)

end

end NetworkLoop.Library.Paging
