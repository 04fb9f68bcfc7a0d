import NetworkLoop.Install.Owned

/-! Transactions side by side.

Every transaction has its own homes for its journal, and no other transaction goes there
(`Recorded.aside`). So a store grows by one journal at a time (`Store.put`), and what one
journal records is still recorded when another transaction has come and gone
(`Recorded.rebase`): the other's journal becomes part of what was there before. -/
namespace NetworkLoop.Install
open Library Program Disk

variable {d s t u : Disk} {tx other : String} {q home : Path} {base base' f : Path → Option Node}
  {on : List InstallJournalEntryV1} {e : InstallJournalEntryV1} {j j' : InstallJournalV1} {ids ids' : List String}
  {journals : String → InstallJournalV1}

/-! ### Homes -/

theorem bootstrapHome_prefix_finalHome : ¬(bootstrapHome tx <+: q ∧ finalHome other <+: q) := by
  intro ⟨hboot, hfinal⟩
  have hthird : q[2]? = some (bootstrapName tx) ∧ q[2]? = some "l2-loop" := by
    obtain ⟨rest, rfl⟩ := hboot
    obtain ⟨rest', hrest⟩ := hfinal
    exact ⟨rfl, by rw [← hrest]; rfl⟩
  have heq := Option.some.inj (hthird.1.symm.trans hthird.2)
  have hhead := @bootstrapName_head tx
  rw [heq] at hhead
  revert hhead
  decide

/-- No two transactions share a home. -/
theorem private_unique (h : Private tx q) (h' : Private other q) : tx = other := by
  have hlength : ∀ {p p' : Path}, p <+: q → p' <+: q → p.length = p'.length → p = p' := fun hp hp' hlen =>
    (List.prefix_of_prefix_length_le hp hp' hlen.le).eq_of_length hlen
  rcases h with h | h <;> rcases h' with h' | h'
  · have heq := hlength h h' (by simp [bootstrapHome])
    exact bootstrapName_injective (List.singleton_inj.mp (List.append_cancel_left heq))
  · exact absurd ⟨h, h'⟩ bootstrapHome_prefix_finalHome
  · exact absurd ⟨h', h⟩ bootstrapHome_prefix_finalHome
  · exact List.singleton_inj.mp (List.append_cancel_left (hlength h h' (by simp)))

theorem private_visible (hne : other ≠ tx) (hq : Private other q) : Visible tx q :=
  ⟨fun h => hne (private_unique hq h), fun a _ heq => not_private_path a (heq ▸ hq)⟩

theorem not_named_of_private {r : InstallRoleV1} (hr : r.isJournalRetentionDirectory = false) (hq : Private other q) : ¬Named tx r q := by
  intro hn
  obtain ⟨name, rfl⟩ := hn.exists_name
  exact not_private_beside hr name hq

/-- A transaction leaves the homes of the others alone. -/
theorem Recorded.aside (h : Recorded base tx none home j s) (hne : other ≠ tx) (hq : Private other q) : s.get q = base q := by
  obtain ⟨f, hstack, hagree⟩ := h.standing.stacked
  rw [hagree q (private_visible hne hq) (unknown_none q),
    hstack.other h.standing.named fun x _ hret => not_named_of_private hret hq]

theorem private_bootstrapHome (tx : String) : Private tx (bootstrapHome tx) := .inl (List.prefix_refl _)

theorem private_finalHome (tx : String) (rest : List String) : Private tx (finalHome tx ++ rest) := .inr (List.prefix_append ..)

theorem AtHome.no_bootstrap (h : AtHome d tx (finalHome tx)) : d.get (bootstrapHome tx) = none := by
  rcases h.place with heq | ⟨-, hnone⟩
  · have := congrArg List.length heq
    simp [finalHome, bootstrapHome, InstallRoleV1.path] at this
  · exact hnone

/-! ### The store -/

theorem above_finalHome {a : InstallRoleV1} (h : a.path <+: finalHome tx) : a.path <+: InstallRoleV1.transactionsRoot.path := by
  rcases List.prefix_concat_iff.mp h with heq | hin
  · have hfinal : finalHome tx <+: a.path := by
      rw [heq]
      exact List.prefix_refl _
    exact absurd hfinal (not_finalHome_prefix_path a)
  · exact hin

/-- **One more journal in the store**, or another one in the place of an old one. -/
theorem Store.put (h : Store d ids journals) (hopened : ∀ a : InstallRoleV1, a.path <+: InstallRoleV1.transactionsRoot.path → Stands s a)
    (haside : ∀ other q, other ≠ tx → Private other q → s.get q = d.get q) (hholds : Holds s tx (finalHome tx) j)
    (hnodup : ids'.Nodup) (hids : ∀ other, other ∈ ids' ↔ other = tx ∨ other ∈ ids) :
    Store s ids' (Function.update journals tx j) where
  opened := hopened
  nodup := hnodup
  children := by
    intro name
    rw [hids]
    by_cases hname : name = tx
    · rw [hname]
      refine iff_of_true (.inl rfl) ?_
      obtain ⟨info, hget, -⟩ := hholds.valid
      rw [show InstallRoleV1.transactionsRoot.path ++ [tx] = finalHome tx from rfl, hget]
      simp
    · have hsame := haside name (finalHome name) hname (.inr (List.prefix_refl _))
      have hchild := h.children name
      rw [show InstallRoleV1.transactionsRoot.path ++ [name] = finalHome name from rfl] at hchild ⊢
      rw [hsame, ← hchild]
      simp [hname]
  holds := by
    intro other hother
    by_cases hname : other = tx
    · rw [hname, Function.update_self]
      exact hholds
    · rw [Function.update_of_ne hname]
      have hold := h.holds other (((hids other).mp hother).resolve_left hname)
      have hsame : ∀ {q}, Private other q → s.get q = d.get q := haside other _ hname
      refine ⟨⟨hold.id, .inr ⟨rfl, ?_⟩, fun a ha => hopened a (above_finalHome ha), ?_⟩, ?_, hold.bound, hold.readable⟩
      · rw [hsame (private_bootstrapHome other), hold.toAtHome.no_bootstrap]
      · rw [hsame (.inr (List.prefix_refl _))]
        exact hold.valid
      · rw [hsame (private_finalHome other _)]
        exact hold.file

/-- The first journal in the store. -/
theorem Store.first (hopened : ∀ a : InstallRoleV1, a.path <+: InstallRoleV1.transactionsRoot.path → Stands s a)
    (hnone : ∀ other, other ≠ tx → s.get (finalHome other) = none) (hholds : Holds s tx (finalHome tx) j) :
    Store s [tx] (fun _ => j) where
  opened := hopened
  nodup := List.nodup_singleton tx
  children := by
    intro name
    rw [List.mem_singleton, show InstallRoleV1.transactionsRoot.path ++ [name] = finalHome name from rfl]
    constructor
    · intro hname
      obtain ⟨info, hget, -⟩ := hholds.valid
      rw [hname, hget]
      simp
    · intro hthere
      exact by_contra fun hname => hthere (hnone name hname)
  holds := by
    intro other hother
    rw [List.mem_singleton.mp hother]
    exact hholds

/-- What can be read is in the store. -/
theorem Store.load_inv (h : Store d ids journals) (hboot : d.get (bootstrapHome tx) = none) (hload : loadJournalExact d tx = .ok j) :
    tx ∈ ids ∧ j = journals tx := by
  obtain ⟨dir, hopen, -⟩ := bind_eq_ok.mp hload
  obtain ⟨hdir, info, hget, -⟩ := Fs.openTransactionDirectory_inv hopen
  have hmem : tx ∈ ids := by
    rcases hdir with rfl | rfl
    · rw [hboot] at hget
      cases hget
    · rw [h.children, show InstallRoleV1.transactionsRoot.path ++ [tx] = finalHome tx from rfl, hget]
      simp
  rw [(h.holds tx hmem).load] at hload
  exact ⟨hmem, (Except.ok.inj hload).symm⟩

/-! ### Another base -/

/-- The base may be changed in the homes of another transaction. -/
theorem Stacked.rebase (h : Stacked base on f) (hbase : ∀ q, ¬Private other q → base' q = base q)
    (hnamed : ∀ e ∈ on, NamedEntry tx e) (hrooted : ∀ e ∈ on, e.role ≠ .varLibRoot) :
    ∃ f', Stacked base' on f' ∧ (∀ q, ¬Private other q → f' q = f q) ∧ ∀ q, Private other q → f' q = base' q := by
  induction h with
  | base => exact ⟨base', .base, hbase, fun q _ => rfl⟩
  | retained _ hret ih =>
    obtain ⟨f', hstack, hrest⟩ := ih (fun x hx => hnamed x (by simp [hx])) (fun x hx => hrooted x (by simp [hx]))
    exact ⟨f', .retained hstack hret, hrest⟩
  | @placed on f e n current _ hret hcur hseen hkind hvacant habove hnewer ih =>
    obtain ⟨f', hstack, houtside, hinside⟩ := ih (fun x hx => hnamed x (by simp [hx])) (fun x hx => hrooted x (by simp [hx]))
    have hpath : f' e.role.path = f e.role.path := houtside _ (not_private_path e.role)
    refine ⟨placedOn f' e n, .placed hstack hret hcur hseen hkind ?_ ?_ (by rw [hpath]; exact hnewer), fun q hq => ?_, fun q hq => ?_⟩
    · unfold Vacant at hvacant ⊢
      split
      · rename_i habsent
        rw [habsent] at hvacant
        refine ⟨by rw [hpath]; exact hvacant.1, fun child => ?_⟩
        rw [houtside _ (visible_child hret (hrooted e (by simp)) child).1]
        exact hvacant.2 child
      · rename_i identity name howned
        rw [howned] at hvacant
        rw [hpath, houtside _ (not_private_beside hret name)]
        exact hvacant
    · intro a ha hnot
      rw [houtside _ (not_private_path a)]
      exact habove a ha hnot
    · exact placedOn_congr hpath (houtside q hq)
    · rw [placedOn_other (hnamed e (by simp)) (not_named_of_private hret hq), hinside q hq]

/-- **What is recorded is still recorded** when another transaction has come and gone. -/
theorem Recorded.rebase (h : Recorded base tx none home j s) (hne : other ≠ tx)
    (hs : ∀ q, ¬Private other q → u.get q = s.get q) : ∃ base', Recorded base' tx none home j u := by
  classical
  have hmine : ∀ {q}, Private tx q → u.get q = s.get q := fun hq => hs _ fun hno => hne (private_unique hno hq)
  have hpath : ∀ a : InstallRoleV1, u.get a.path = s.get a.path := fun a => hs _ (not_private_path a)
  have hprivate : ∀ rest, Private tx (home ++ rest) := h.toHolds.toAtHome.private
  have hat : AtHome u tx home := by
    refine h.toHolds.toAtHome.congr (fun a _ => hpath a) (hmine (private_bootstrapHome tx)) ?_
    have := hmine (hprivate [])
    rwa [List.append_nil] at this
  obtain ⟨f, hstack, hagree⟩ := h.standing.stacked
  let base' : Path → Option Node := fun q => if Private other q then u.get q else base q
  have hout : ∀ q, ¬Private other q → base' q = base q := fun q hq => if_neg hq
  have hin : ∀ q, Private other q → base' q = u.get q := fun q hq => if_pos hq
  obtain ⟨f', hstack', houtside, hinside⟩ := hstack.rebase hout h.standing.named fun x hx => (h.standing.rooted x hx).2
  refine ⟨base', ⟨⟨hat, by rw [hmine (hprivate _)]; exact h.file, h.bound, h.readable⟩, ⟨⟨hat, ?_, ⟨f', hstack', ?_⟩, ?_, ?_,
    h.standing.named, h.standing.layout, h.standing.rooted⟩, h.named, h.possible, h.room, fun r hr => (by cases hr), ?_⟩,
    by rw [hmine (hprivate _)]; exact h.alone⟩⟩
  · have := h.standing.selinux
    unfold ensureSelinuxIsNotEnforcing at this ⊢
    rwa [hs _ selinux_visible.1]
  · intro q hq _
    by_cases hother : Private other q
    · rw [hinside q hother, hin q hother]
    · rw [houtside q hother, hs q hother, hagree q hq (unknown_none q)]
  · intro x hx hret
    obtain ⟨info, current, hget, hrest⟩ := h.standing.retained x hx hret
    exact ⟨info, current, by rw [hpath, hget], hrest⟩
  · intro x hx a ha habove
    exact (h.standing.anchors x hx a ha habove).congr (hpath a)
  · intro a ha hno
    rw [hpath, h.kept a ha hno, hout _ (not_private_path a)]

end NetworkLoop.Install
