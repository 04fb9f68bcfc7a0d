import Mathlib

/-! A tree of named nodes, kept as a finite table from paths to nodes.

A path is the list of names from the root. The one invariant is that whatever has
a parent has a directory for a parent; the four operations check what they need to
keep it and return nothing otherwise. `get` says all there is to know about a tree:
every operation has one equation for it (`get_put`, `get_remove`, `get_graft`), and
the questions that look at more than one path (`children`, `subdirectories`,
`highest`) are answered in terms of it. -/
namespace NetworkLoop.Library

abbrev Path := List String

structure FileTree (ν : Type) (isDirectory : ν → Bool) where
  table : AList (fun _ : Path => ν)
  closed : ∀ (p : Path) (name : String) (n : ν), table.lookup (p ++ [name]) = some n →
    (table.lookup p).any isDirectory = true

namespace FileTree
variable {ν : Type} {isDirectory : ν → Bool} {t t' : FileTree ν isDirectory} {p q src dst : Path} {n m : ν}

def get (t : FileTree ν isDirectory) (p : Path) : Option ν := t.table.lookup p

theorem parent_of_get {name : String} (h : t.get (p ++ [name]) = some n) : (t.get p).any isDirectory = true :=
  t.closed p name n h

/-- Nothing lies under a path that is not there. -/
theorem get_under_none (h : t.get p = none) (hpq : p <+: q) : t.get q = none := by
  obtain ⟨rest, rfl⟩ := hpq
  induction rest using List.reverseRecOn with
  | nil => simpa using h
  | append_singleton rest name ih =>
    cases hq : t.get (p ++ (rest ++ [name])) with
    | none => rfl
    | some n =>
      rw [← List.append_assoc] at hq
      have := parent_of_get hq
      rw [ih] at this
      cases this

/-! ### What lies in a directory -/

/-- The names directly under a path. -/
def children (t : FileTree ν isDirectory) (p : Path) : List String :=
  t.table.keys.filterMap fun k => if k.dropLast = p then k.getLast? else none

theorem mem_children {name : String} : name ∈ t.children p ↔ t.get (p ++ [name]) ≠ none := by
  unfold children get
  rw [Ne, AList.lookup_eq_none, not_not, AList.mem_keys, List.mem_filterMap]
  constructor
  · intro ⟨k, hk, hname⟩
    by_cases hp : k.dropLast = p
    · rw [if_pos hp] at hname
      obtain ⟨front, rfl⟩ := List.getLast?_eq_some_iff.mp hname
      rw [List.dropLast_concat] at hp
      rwa [← hp]
    · rw [if_neg hp] at hname
      cases hname
  · intro hk
    exact ⟨p ++ [name], hk, by simp⟩

theorem children_eq_nil : t.children p = [] ↔ ∀ name, t.get (p ++ [name]) = none := by
  rw [List.eq_nil_iff_forall_not_mem]
  simp only [mem_children, not_not]

theorem children_nodup : (t.children p).Nodup := by
  unfold children
  refine t.table.keys_nodup.filterMap ?_
  have hat : ∀ {k : Path} {name : String}, name ∈ (if k.dropLast = p then k.getLast? else none) → k = p ++ [name] := by
    intro k name hk
    by_cases hp : k.dropLast = p
    · rw [if_pos hp] at hk
      obtain ⟨front, rfl⟩ := List.getLast?_eq_some_iff.mp hk
      rw [← hp, List.dropLast_concat]
    · rw [if_neg hp] at hk
      cases hk
  intro a b name ha hb
  rw [hat ha, hat hb]

/-- How many directories lie directly under a path. -/
def subdirectories (t : FileTree ν isDirectory) (p : Path) : Nat :=
  (t.children p).countP fun name => (t.get (p ++ [name])).any isDirectory

theorem subdirectories_eq_zero (h : ∀ name, t.get (p ++ [name]) = none) : t.subdirectories p = 0 := by
  rw [subdirectories, children_eq_nil.mpr h, List.countP_nil]

/-! ### A number that no node has -/

/-- The highest of the numbers of the nodes. -/
def highest (t : FileTree ν isDirectory) (number : ν → Nat) : Nat :=
  (t.table.entries.map fun entry => number entry.2).foldr max 0

theorem le_highest (number : ν → Nat) (h : t.get p = some n) : number n ≤ t.highest number := by
  have hmem : number n ∈ t.table.entries.map fun entry => number entry.2 :=
    List.mem_map.mpr ⟨⟨p, n⟩, AList.mem_lookup_iff.mp h, rfl⟩
  unfold highest
  generalize t.table.entries.map (fun entry => number entry.2) = numbers at hmem
  induction numbers with
  | nil => cases hmem
  | cons x rest ih =>
    rcases List.mem_cons.mp hmem with hx | hx
    · rw [hx]
      exact Nat.le_max_left ..
    · exact Nat.le_trans (ih hx) (Nat.le_max_right ..)

/-! ### Putting and removing one node -/

/-- The node may stand at the path: its parent is a directory, and it hides nothing. -/
def Fits (t : FileTree ν isDirectory) (p : Path) (n : ν) : Prop :=
  (p = [] ∨ (t.get p.dropLast).any isDirectory = true) ∧
    (isDirectory n = true ∨ (t.get p).any isDirectory = false)

instance : Decidable (t.Fits p n) := inferInstanceAs (Decidable (_ ∧ _))

theorem closed_insert (h : t.Fits p n) (q : Path) (name : String) (m : ν)
    (hq : (t.table.insert p n).lookup (q ++ [name]) = some m) :
    ((t.table.insert p n).lookup q).any isDirectory = true := by
  by_cases heq : q ++ [name] = p
  · -- the parent of the new node
    have hne : q ≠ p := fun hqp => by simp [hqp] at heq
    rw [AList.lookup_insert_ne hne]
    rcases h.1 with hroot | hparent
    · simp [hroot] at heq
    · rwa [← heq, List.dropLast_concat] at hparent
  · rw [AList.lookup_insert_ne heq] at hq
    have hdir := t.closed q name m hq
    by_cases hqp : q = p
    · -- the new node has a child
      subst hqp
      rw [AList.lookup_insert]
      rcases h.2 with hn | hold
      · exact hn
      · rw [get, hdir] at hold
        cases hold
    · rwa [AList.lookup_insert_ne hqp]

def put (t : FileTree ν isDirectory) (p : Path) (n : ν) : Option (FileTree ν isDirectory) :=
  if h : t.Fits p n then some ⟨t.table.insert p n, closed_insert h⟩ else none

theorem get_put (h : t.put p n = some t') : t'.get = Function.update t.get p (some n) := by
  unfold put at h
  split at h
  · cases h
    funext q
    by_cases hq : q = p
    · subst hq
      simp [get]
    · rw [Function.update_of_ne hq, get, AList.lookup_insert_ne hq, get]
  · cases h

theorem put_isSome (h : t.Fits p n) : ∃ t', t.put p n = some t' := ⟨_, dif_pos h⟩

theorem closed_erase (h : t.children p = []) (q : Path) (name : String) (m : ν)
    (hq : (t.table.erase p).lookup (q ++ [name]) = some m) : ((t.table.erase p).lookup q).any isDirectory = true := by
  have hne : q ++ [name] ≠ p := by
    intro heq
    rw [heq, AList.lookup_erase] at hq
    cases hq
  rw [AList.lookup_erase_ne hne] at hq
  have hqp : q ≠ p := by
    intro heq
    have := children_eq_nil.mp h name
    rw [get, ← heq, hq] at this
    cases this
  rw [AList.lookup_erase_ne hqp]
  exact t.closed q name m hq

def remove (t : FileTree ν isDirectory) (p : Path) : Option (FileTree ν isDirectory) :=
  if h : t.children p = [] then some ⟨t.table.erase p, closed_erase h⟩ else none

theorem get_remove (h : t.remove p = some t') : t'.get = Function.update t.get p none := by
  unfold remove at h
  split at h
  · cases h
    funext q
    by_cases hq : q = p
    · subst hq
      simp [get]
    · rw [Function.update_of_ne hq, get, AList.lookup_erase_ne hq, get]
  · cases h

theorem remove_isSome (h : ∀ name, t.get (p ++ [name]) = none) : ∃ t', t.remove p = some t' :=
  ⟨_, dif_pos (children_eq_nil.mpr h)⟩

/-- A node with something under it cannot be removed. -/
theorem remove_eq_none {name : String} (h : t.get (p ++ [name]) ≠ none) : t.remove p = none :=
  dif_neg fun hnil => h (children_eq_nil.mp hnil name)

/-! ### Moving a node with all that lies under it -/

/-- Where a path goes when `src` is moved to `dst`. -/
def rekey (src dst k : Path) : Path := if src <+: k then dst ++ k.drop src.length else k

/-- `src` is there, `dst` is free, has a directory for a parent, and does not lie under `src`. -/
def Grafts (t : FileTree ν isDirectory) (src dst : Path) : Prop :=
  t.get src ≠ none ∧ t.get dst = none ∧ (t.get dst.dropLast).any isDirectory = true ∧ ¬src <+: dst

instance : Decidable (t.Grafts src dst) := inferInstanceAs (Decidable (¬_ = _ ∧ _))

theorem rekey_injOn (h : t.get dst = none) {a b : Path} (ha : t.get a ≠ none) (hb : t.get b ≠ none)
    (hab : rekey src dst a = rekey src dst b) : a = b := by
  have hout : ∀ {k x}, t.get k ≠ none → k ≠ dst ++ x := fun hk heq =>
    hk (get_under_none h (heq ▸ List.prefix_append dst _))
  unfold rekey at hab
  by_cases hsa : src <+: a <;> by_cases hsb : src <+: b
  · rw [if_pos hsa, if_pos hsb, List.append_cancel_left_eq] at hab
    rw [List.prefix_iff_eq_append.mp hsa |>.symm, hab, List.prefix_iff_eq_append.mp hsb]
  · rw [if_pos hsa, if_neg hsb] at hab
    exact absurd hab.symm (hout hb)
  · rw [if_neg hsa, if_pos hsb] at hab
    exact absurd hab (hout ha)
  · rwa [if_neg hsa, if_neg hsb] at hab

def moved (t : FileTree ν isDirectory) (src dst : Path) : List (Sigma fun _ : Path => ν) :=
  t.table.entries.map fun entry => ⟨rekey src dst entry.1, entry.2⟩

theorem nodupKeys_moved (h : t.get dst = none) : (t.moved src dst).NodupKeys := by
  have hkeys : (t.moved src dst).keys = t.table.keys.map (rekey src dst) := by
    simp [moved, AList.keys, List.keys]
  rw [List.NodupKeys, hkeys]
  refine List.Nodup.map_on ?_ t.table.keys_nodup
  have hin : ∀ {k}, k ∈ t.table.keys → t.get k ≠ none := fun hk hnone =>
    (AList.lookup_eq_none.mp hnone) (AList.mem_keys.mpr hk)
  intro a ha b hb hab
  exact rekey_injOn h (hin ha) (hin hb) hab

theorem mem_moved : (⟨q, n⟩ : Sigma fun _ : Path => ν) ∈ t.moved src dst ↔
    ∃ k, t.get k = some n ∧ rekey src dst k = q := by
  unfold moved get
  rw [List.mem_map]
  constructor
  · intro ⟨⟨k, x⟩, hmem, heq⟩
    obtain ⟨hk, hn⟩ := Sigma.mk.inj_iff.mp heq
    exact ⟨k, AList.mem_lookup_iff.mpr (eq_of_heq hn ▸ hmem), hk⟩
  · intro ⟨k, hk, hq⟩
    exact ⟨⟨k, n⟩, AList.mem_lookup_iff.mp hk, by rw [hq]⟩

/-- What stands at a path after the move. -/
theorem lookup_moved (h : t.get dst = none) (q : Path) :
    (AList.mk (t.moved src dst) (nodupKeys_moved h)).lookup q =
      if dst <+: q then t.get (src ++ q.drop dst.length) else if src <+: q then none else t.get q := by
  ext n
  rw [← Option.mem_def, AList.mem_lookup_iff]
  show _ ∈ t.moved src dst ↔ _
  rw [mem_moved]
  by_cases hd : dst <+: q
  · rw [if_pos hd]
    obtain ⟨rest, rfl⟩ := hd
    rw [List.drop_left]
    constructor
    · intro ⟨k, hk, hq⟩
      unfold rekey at hq
      split at hq
      · rename_i hs
        rw [List.append_cancel_left_eq] at hq
        rwa [← hq, List.prefix_iff_eq_append.mp hs]
      · have := get_under_none h (hq ▸ List.prefix_append dst rest : dst <+: k)
        rw [this] at hk
        cases hk
    · intro hk
      exact ⟨src ++ rest, hk, by simp [rekey]⟩
  · rw [if_neg hd]
    by_cases hs : src <+: q
    · rw [if_pos hs]
      constructor
      · intro ⟨k, hk, hq⟩
        unfold rekey at hq
        split at hq
        · exact absurd (hq ▸ List.prefix_append dst _) hd
        · rename_i hns
          exact absurd (hq ▸ hs) hns
      · intro hk
        cases hk
    · rw [if_neg hs]
      constructor
      · intro ⟨k, hk, hq⟩
        unfold rekey at hq
        split at hq
        · exact absurd (hq ▸ List.prefix_append dst _) hd
        · rwa [← hq]
      · intro hk
        exact ⟨q, hk, if_neg hs⟩

theorem closed_moved (h : t.Grafts src dst) (q : Path) (name : String) (m : ν)
    (hq : (AList.mk (t.moved src dst) (nodupKeys_moved h.2.1)).lookup (q ++ [name]) = some m) :
    ((AList.mk (t.moved src dst) (nodupKeys_moved h.2.1)).lookup q).any isDirectory = true := by
  have hfree := h.2.1
  have hparent := h.2.2.1
  have hout := h.2.2.2
  rw [lookup_moved hfree] at hq ⊢
  by_cases hd : dst <+: q
  · have hlen := hd.length_le
    rw [if_pos (hd.trans (List.prefix_append ..)), List.drop_append_of_le_length hlen, ← List.append_assoc] at hq
    rw [if_pos hd]
    exact t.closed _ _ _ hq
  · rw [if_neg hd]
    by_cases hdq : dst <+: q ++ [name]
    · -- `q` is the parent of `dst`
      obtain rfl : q ++ [name] = dst := by
        rcases List.prefix_concat_iff.mp hdq with heq | hpre
        · exact heq.symm
        · exact absurd hpre hd
      rw [if_neg fun hs => hout (hs.trans (List.prefix_append ..))]
      rwa [List.dropLast_concat] at hparent
    · rw [if_neg hdq] at hq
      by_cases hs : src <+: q ++ [name]
      · rw [if_pos hs] at hq
        cases hq
      · rw [if_neg hs] at hq
        rw [if_neg fun hsq => hs (hsq.trans (List.prefix_append ..))]
        exact t.closed _ _ _ hq

def graft (t : FileTree ν isDirectory) (src dst : Path) : Option (FileTree ν isDirectory) :=
  if h : t.Grafts src dst then some ⟨⟨t.moved src dst, nodupKeys_moved h.2.1⟩, closed_moved h⟩ else none

theorem get_graft (h : t.graft src dst = some t') (q : Path) :
    t'.get q = if dst <+: q then t.get (src ++ q.drop dst.length) else if src <+: q then none else t.get q := by
  unfold graft at h
  split at h
  · rename_i hg
    cases h
    exact lookup_moved hg.2.1 q
  · cases h

theorem graft_isSome (h : t.Grafts src dst) : ∃ t', t.graft src dst = some t' := ⟨_, dif_pos h⟩

/-! ### Removing a node with all that lies under it -/

/-- A removal that may stop midway keeps what lies elsewhere, and of what lies under `p`
the nodes that `kept` says, with all their parents. -/
def survives (p : Path) (kept : Path → Bool) (q : Path) : Bool :=
  !p.isPrefixOf q || (q.drop p.length).inits.all fun front => kept (p ++ front)

theorem survives_elsewhere {kept : Path → Bool} (h : ¬p <+: q) : survives p kept q = true := by
  have hout : p.isPrefixOf q = false := by
    rw [← Bool.not_eq_true, List.isPrefixOf_iff_prefix]
    exact h
  rw [survives, hout]
  rfl

theorem survives_append {kept : Path → Bool} {rest : Path} :
    survives p kept (p ++ rest) = rest.inits.all fun front => kept (p ++ front) := by
  rw [survives, List.isPrefixOf_iff_prefix.mpr (List.prefix_append ..), List.drop_left]
  rfl

theorem survives_dropLast {kept : Path → Bool} {name : String} (h : survives p kept (q ++ [name]) = true) :
    survives p kept q = true := by
  by_cases hpq : p <+: q
  · obtain ⟨rest, rfl⟩ := hpq
    rw [List.append_assoc, survives_append, List.all_eq_true] at h
    rw [survives_append, List.all_eq_true]
    intro front hfront
    rw [List.mem_inits] at hfront
    exact h front ((List.mem_inits ..).mpr (hfront.trans (List.prefix_append ..)))
  · exact survives_elsewhere hpq

def prunedEntries (t : FileTree ν isDirectory) (p : Path) (kept : Path → Bool) : List (Sigma fun _ : Path => ν) :=
  t.table.entries.filter fun entry => survives p kept entry.1

theorem nodupKeys_pruned (t : FileTree ν isDirectory) (p : Path) (kept : Path → Bool) :
    (t.prunedEntries p kept).NodupKeys :=
  t.table.nodupKeys.sublist List.filter_sublist

theorem lookup_pruned (t : FileTree ν isDirectory) (p : Path) (kept : Path → Bool) (q : Path) :
    (AList.mk (t.prunedEntries p kept) (t.nodupKeys_pruned p kept)).lookup q =
      if survives p kept q = true then t.get q else none := by
  ext n
  rw [← Option.mem_def, AList.mem_lookup_iff]
  show _ ∈ t.prunedEntries p kept ↔ _
  rw [prunedEntries, List.mem_filter]
  split
  case isTrue hq => simp [hq, get, ← AList.mem_lookup_iff]
  case isFalse hq => simp [hq]

theorem closed_pruned (t : FileTree ν isDirectory) (p : Path) (kept : Path → Bool) (q : Path) (name : String) (m : ν)
    (hq : (AList.mk (t.prunedEntries p kept) (t.nodupKeys_pruned p kept)).lookup (q ++ [name]) = some m) :
    ((AList.mk (t.prunedEntries p kept) (t.nodupKeys_pruned p kept)).lookup q).any isDirectory = true := by
  rw [lookup_pruned] at hq ⊢
  split at hq
  case isTrue hname =>
    rw [if_pos (survives_dropLast hname)]
    exact t.closed q name m hq
  case isFalse => cases hq

/-- `remove_dir_all`, which may stop midway. -/
def prune (t : FileTree ν isDirectory) (p : Path) (kept : Path → Bool) : FileTree ν isDirectory :=
  ⟨⟨t.prunedEntries p kept, t.nodupKeys_pruned p kept⟩, t.closed_pruned p kept⟩

theorem get_prune (t : FileTree ν isDirectory) (p : Path) (kept : Path → Bool) (q : Path) :
    (t.prune p kept).get q = if survives p kept q = true then t.get q else none :=
  t.lookup_pruned p kept q

theorem get_prune_elsewhere {kept : Path → Bool} (h : ¬p <+: q) : (t.prune p kept).get q = t.get q := by
  rw [get_prune, if_pos (survives_elsewhere h)]

/-- A node is kept as it was, or is gone. -/
theorem get_prune_cases (t : FileTree ν isDirectory) (p : Path) (kept : Path → Bool) (q : Path) :
    (t.prune p kept).get q = t.get q ∨ (t.prune p kept).get q = none := by
  rw [get_prune]
  split
  · exact .inl rfl
  · exact .inr rfl

/-- Nothing is kept. -/
theorem get_prune_all (h : p <+: q) : (t.prune p fun _ => false).get q = none := by
  obtain ⟨rest, rfl⟩ := h
  rw [get_prune, survives_append]
  apply if_neg
  intro hall
  have := List.all_eq_true.mp hall [] ((List.mem_inits ..).mpr List.nil_prefix)
  cases this

end FileTree

end NetworkLoop.Library
