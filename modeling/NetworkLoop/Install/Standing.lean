import NetworkLoop.Install.JournalRun
import NetworkLoop.Install.Placing

/-! What stands on the disk while a transaction is under way.

The entries in force have been placed one on top of the other, so what a rollback meets
is a stack: `Stacked` says that the disk is the one before the transaction with these
entries placed on it in order, each on a vacant place, and taking back the last one gives
the disk below it. `Standing` adds what the stack does not show: the journal's own
directory, and the three directories that a rollback leaves behind. It allows for a set of
paths of which nothing is known, where a crash has left something. -/
namespace NetworkLoop.Install
open Library Program Disk

/-- An entry without the difference between applied and verified. -/
def settled (e : InstallJournalEntryV1) : InstallJournalEntryV1 := {e with phase := .verified}

/-- The entries in force. -/
def onOf (entries : List InstallJournalEntryV1) : List InstallJournalEntryV1 := (entries.filter (·.inForce)).map settled

/-- Entries placed on a disk, the last one on top. -/
inductive Stacked (base : Path → Option Node) : List InstallJournalEntryV1 → (Path → Option Node) → Prop where
  | base : Stacked base [] base
  | retained {on : List InstallJournalEntryV1} {f : Path → Option Node} {e : InstallJournalEntryV1} : Stacked base on f →
      e.role.isJournalRetentionDirectory = true → Stacked base (on ++ [e]) f
  | placed {on : List InstallJournalEntryV1} {f : Path → Option Node} {e : InstallJournalEntryV1} {n : Node}
      {current : InstallObjectIdentityV1} : Stacked base on f → e.role.isJournalRetentionDirectory = false →
      e.currentIdentity = some current → inspectNode 2 n = .ok current →
      (n.isDirectory = true ↔ e.intended.kind = .directory) → Vacant f e →
      (∀ a, InstallRoleV1.Above a e.role → a.isJournalRetentionDirectory = false →
        ValidDirectory (f a.path) a.expectedMode) → (∀ m, f e.role.path = some m → m.info.inode < n.info.inode) →
      Stacked base (on ++ [e]) (placedOn f e n)

/-- The transaction's entries in force, on the disk. -/
structure Standing (base : Path → Option Node) (tx : String) (X : Path → Prop) (d : Disk) (home : Path)
    (on : List InstallJournalEntryV1) : Prop extends AtHome d tx home where
  selinux : ensureSelinuxIsNotEnforcing d = .ok ()
  stacked : ∃ f, Stacked base on f ∧ ∀ q, Visible tx q → ¬X q → d.get q = f q
  retained : ∀ e ∈ on, e.role.isJournalRetentionDirectory = true →
    ∃ info current, d.get e.role.path = some (.directory info) ∧ e.currentIdentity = some current ∧
      inspectNode 2 (.directory info) = .ok current
  anchors : ∀ e ∈ on, ∀ a, a.isJournalRetentionDirectory = true → InstallRoleV1.Above a e.role → Stands d a
  named : ∀ e ∈ on, NamedEntry tx e
  layout : ∀ e ∈ on, EntryLayout e
  rooted : ∀ e ∈ on, e.role ≠ .varRoot ∧ e.role ≠ .varLibRoot

variable {base : Path → Option Node} {d s : Disk} {tx : String} {X Y : Path → Prop} {home : Path} {on : List InstallJournalEntryV1}
  {e : InstallJournalEntryV1} {j j' : InstallJournalV1}

/-! ### Paths -/

theorem directory_ne_selinux : ∀ r : InstallRoleV1, r.directory ≠ ["sys", "fs", "selinux"] := by
  decide

theorem not_named_selinux (r : InstallRoleV1) : ¬Named tx r selinuxPath := by
  intro h
  obtain ⟨name, hname⟩ := h.exists_name
  have hsplit : selinuxPath = ["sys", "fs", "selinux"] ++ ["enforce"] := rfl
  rw [hsplit] at hname
  exact directory_ne_selinux r (List.append_inj' hname rfl).1.symm

theorem private_first {q : Path} (h : Private tx q) : q.head? = some "var" := by
  rcases h with ⟨rest, rfl⟩ | ⟨rest, rfl⟩ <;> rfl

theorem selinux_visible : Visible tx selinuxPath := by
  refine ⟨fun h => ?_, fun a _ heq => not_named_selinux a (.inl heq : Named tx a selinuxPath)⟩
  exact absurd (private_first h) (by decide)

/-- What lies directly in a directory that a rollback removes. -/
theorem child_of_removed : ∀ r a : InstallRoleV1, r.isJournalRetentionDirectory = false → r ≠ .varLibRoot →
    a.isJournalRetentionDirectory = true → a.directory ≠ r.path := by
  decide

theorem visible_child {r : InstallRoleV1} (hr : r.isJournalRetentionDirectory = false) (hroot : r ≠ .varLibRoot)
    (child : String) : Visible tx (r.path ++ [child]) := by
  constructor
  · intro h
    rcases h with h | h
    · rcases List.prefix_concat_iff.mp h with heq | hin
      · exact hroot (InstallRoleV1.path_injective (List.append_inj' heq rfl).1.symm)
      · exact not_bootstrapHome_prefix_path r hin
    · rcases List.prefix_concat_iff.mp h with heq | hin
      · have := InstallRoleV1.path_injective (List.append_inj' heq rfl).1.symm
        rw [this] at hr
        cases hr
      · exact not_finalHome_prefix_path r hin
  · intro a ha heq
    rw [a.path_eq] at heq
    exact child_of_removed r a hr hroot ha (List.append_inj' heq rfl).1.symm

theorem visible_path (tx : String) {r : InstallRoleV1} (hr : r.isJournalRetentionDirectory = false) : Visible tx r.path :=
  Named.visible (.inl rfl) hr

/-- The directories that lead to the journal. -/
theorem above_home {a : InstallRoleV1} (h : AtHome d tx home) (ha : a.path <+: home) :
    a = .varRoot ∨ a = .varLibRoot ∨ a.isJournalRetentionDirectory = true := by
  have hdecide : ∀ a : InstallRoleV1, a.path <+: InstallRoleV1.transactionsRoot.path →
      a = .varRoot ∨ a = .varLibRoot ∨ a.isJournalRetentionDirectory = true := by decide
  rcases h.place with rfl | ⟨rfl, -⟩
  · exact hdecide a ((Fs.above_bootstrapHome ha).trans (by decide))
  · rcases List.prefix_concat_iff.mp ha with heq | hin
    · have hfinal : finalHome tx <+: a.path := by
        rw [heq]
        exact List.prefix_refl _
      exact absurd hfinal (not_finalHome_prefix_path a)
    · exact hdecide a hin

/-! ### The stack -/

/-- What the entry on top has been placed on. -/
structure Topped (base f : Path → Option Node) (on : List InstallJournalEntryV1) (e : InstallJournalEntryV1)
    (g : Path → Option Node) (n : Node) (current : InstallObjectIdentityV1) : Prop where
  eq : f = placedOn g e n
  below : Stacked base on g
  identity : e.currentIdentity = some current
  seen : inspectNode 2 n = .ok current
  kind : n.isDirectory = true ↔ e.intended.kind = .directory
  vacant : Vacant g e
  above : ∀ a, InstallRoleV1.Above a e.role → a.isJournalRetentionDirectory = false →
    ValidDirectory (g a.path) a.expectedMode

theorem Stacked.inv {base f : Path → Option Node} (h : Stacked base (on ++ [e]) f) :
    (e.role.isJournalRetentionDirectory = true ∧ Stacked base on f) ∨
      (e.role.isJournalRetentionDirectory = false ∧ ∃ g n current, Topped base f on e g n current) := by
  generalize hl : on ++ [e] = l at h
  cases h with
  | base => simp at hl
  | retained hbelow hret =>
    obtain ⟨rfl, hlast⟩ := List.append_inj' hl rfl
    cases hlast
    exact .inl ⟨hret, hbelow⟩
  | placed hbelow hret hcur hseen hkind hvacant habove _ =>
    obtain ⟨rfl, hlast⟩ := List.append_inj' hl rfl
    cases hlast
    exact .inr ⟨hret, _, _, _, rfl, hbelow, hcur, hseen, hkind, hvacant, habove⟩

theorem Stacked.nil_inv {base f : Path → Option Node} (h : Stacked base [] f) : f = base := by
  generalize hl : ([] : List InstallJournalEntryV1) = l at h
  cases h with
  | base => rfl
  | retained | placed => simp at hl

/-- Placing an entry changes its own names only. -/
theorem placedOn_other {f : Path → Option Node} {n : Node} {q : Path} (hnamed : NamedEntry tx e)
    (hq : ¬Named tx e.role q) : placedOn f e n q = f q := by
  have hpath : q ≠ e.role.path := fun heq => hq (.inl heq)
  cases hprior : e.priorState with
  | absent =>
    simp only [placedOn, hprior]
    rw [Function.update_of_ne hpath]
  | priorOwned identity name =>
    have hback : q ≠ e.role.directory ++ [name] := fun heq => hq (heq ▸ Fs.named_backup hnamed hprior)
    simp only [placedOn, hprior]
    rw [Function.update_of_ne hpath, Function.update_of_ne hback]

theorem placedOn_path {f : Path → Option Node} {n : Node} : placedOn f e n e.role.path = some n := by
  cases hprior : e.priorState with
  | absent | priorOwned =>
    simp only [placedOn, hprior]
    exact Function.update_self ..

theorem placedOn_congr {f g : Path → Option Node} {n : Node} {q : Path} (hpath : f e.role.path = g e.role.path)
    (hq : f q = g q) : placedOn f e n q = placedOn g e n q := by
  cases hprior : e.priorState with
  | absent =>
    simp only [placedOn, hprior, Function.update_apply, hq]
  | priorOwned identity name =>
    simp only [placedOn, hprior, Function.update_apply, hq, hpath]

/-- What no entry names is as it was. The directories that stay are not on the stack. -/
theorem Stacked.other {base f : Path → Option Node} {q : Path} (h : Stacked base on f)
    (hnamed : ∀ e ∈ on, NamedEntry tx e)
    (hq : ∀ e ∈ on, e.role.isJournalRetentionDirectory = false → ¬Named tx e.role q) : f q = base q := by
  induction h with
  | base => rfl
  | retained _ _ ih =>
    exact ih (fun x hx => hnamed x (by simp [hx])) (fun x hx => hq x (by simp [hx]))
  | @placed on f e n current _ hret _ _ _ _ _ _ ih =>
    rw [placedOn_other (hnamed e (by simp)) (hq e (by simp) hret)]
    exact ih (fun x hx => hnamed x (by simp [hx])) (fun x hx => hq x (by simp [hx]))

/-! ### Changes that leave the stack alone -/

/-- **The frame rule.** A change is allowed where nothing is known, in the journal's own
directory, and wherever else no directory stood. -/
theorem Standing.frame (h : Standing base tx X d home on) (hX : ∀ q, Visible tx q → ¬Y q → ¬X q ∧ s.get q = d.get q)
    (hdirs : ∀ (a : InstallRoleV1) (info : Metadata), a.isJournalRetentionDirectory = true ∨ a.path <+: home →
      d.get a.path = some (.directory info) → s.get a.path = d.get a.path)
    (hboot : s.get (bootstrapHome tx) = d.get (bootstrapHome tx)) (hhome : s.get home = d.get home)
    (hselinux : ¬Y selinuxPath) : Standing base tx Y s home on where
  toAtHome := by
    refine h.toAtHome.congr ?_ hboot hhome
    intro a ha
    obtain ⟨info, hget⟩ := (h.above a ha).exists_directory
    exact hdirs a info (.inr ha) hget
  selinux := by
    have := h.selinux
    unfold ensureSelinuxIsNotEnforcing at this ⊢
    rwa [(hX _ selinux_visible hselinux).2]
  stacked := by
    obtain ⟨f, hstack, hagree⟩ := h.stacked
    refine ⟨f, hstack, fun q hq hY => ?_⟩
    obtain ⟨hXq, hs⟩ := hX q hq hY
    rw [hs, hagree q hq hXq]
  retained := by
    intro e he hret
    obtain ⟨info, current, hget, hrest⟩ := h.retained e he hret
    exact ⟨info, current, by rw [hdirs e.role info (.inl hret) hget, hget], hrest⟩
  anchors := by
    intro e he a ha habove
    have hstands := h.anchors e he a ha habove
    obtain ⟨info, hget⟩ := hstands.exists_directory
    exact hstands.congr (hdirs a info (.inl ha) hget)
  named := h.named
  layout := h.layout
  rooted := h.rooted

/-- Whatever happens among the journal's own paths, the stack does not see it. -/
theorem Standing.move {home' : Path} (h : Standing base tx X d home on) (hat : AtHome s tx home')
    (hs : ∀ q, ¬Private tx q → s.get q = d.get q) : Standing base tx X s home' on where
  toAtHome := hat
  selinux := by
    have := h.selinux
    unfold ensureSelinuxIsNotEnforcing at this ⊢
    rwa [hs _ selinux_visible.1]
  stacked := by
    obtain ⟨f, hstack, hagree⟩ := h.stacked
    exact ⟨f, hstack, fun q hq hX => by rw [hs q hq.1, hagree q hq hX]⟩
  retained := by
    intro e he hret
    obtain ⟨info, current, hget, hrest⟩ := h.retained e he hret
    exact ⟨info, current, by rw [hs _ (not_private_path e.role), hget], hrest⟩
  anchors := fun e he a ha habove => (h.anchors e he a ha habove).congr (hs _ (not_private_path a))
  named := h.named
  layout := h.layout
  rooted := h.rooted

/-- A change under the names of a role that is no directory yet. -/
theorem Standing.frame_named (h : Standing base tx X d home on) {r : InstallRoleV1}
    (hfree : ∀ info, d.get r.path ≠ some (.directory info)) (hs : ∀ q, ¬Named tx r q → s.get q = d.get q)
    (hX : ∀ q, X q → Named tx r q) : Standing base tx (Named tx r) s home on := by
  have hprivate : ∀ {q : Path}, Private tx q → s.get q = d.get q := fun hq => hs _ fun hn => hn.not_private hq
  refine h.frame (fun q _ hq => ⟨fun hx => hq (hX q hx), hs q hq⟩) ?_ (hprivate (.inl (List.prefix_refl _))) ?_
    (not_named_selinux r)
  · intro a info _ hget
    refine hs _ fun hn => ?_
    have hsame : a = r := Named.eq_role (.inl rfl) hn
    rw [hsame] at hget
    exact hfree info hget
  · have := hprivate (h.toAtHome.private [])
    rwa [List.append_nil] at this

theorem Standing.mono (h : Standing base tx X d home on) (hX : ∀ q, Visible tx q → X q → Y q) : Standing base tx Y d home on where
  toAtHome := h.toAtHome
  selinux := h.selinux
  stacked := by
    obtain ⟨f, hstack, hagree⟩ := h.stacked
    exact ⟨f, hstack, fun q hq hY => hagree q hq fun hXq => hY (hX q hq hXq)⟩
  retained := h.retained
  anchors := h.anchors
  named := h.named
  layout := h.layout
  rooted := h.rooted

/-! ### Placing one more entry -/

theorem Placed.role_ne {current : InstallObjectIdentityV1} {n : Node} (h : Placed d e current n s)
    {a : InstallRoleV1} (ha : Stands d a) : a ≠ e.role := by
  intro heq
  obtain ⟨info, hget⟩ := ha.exists_directory
  rw [heq] at hget
  exact h.vacant.not_directory info hget

theorem Standing.extend {current : InstallObjectIdentityV1} {n : Node} {z : InstallJournalEntryV1}
    (h : Standing base tx X d home on) (hX : ∀ q, ¬X q) (hplaced : Placed d e current n s) (hnamed : NamedEntry tx e)
    (hlayout : EntryLayout e) (hrole : z.role = e.role) (hprior : z.priorState = e.priorState)
    (hintended : z.intended = e.intended) (hcur : z.currentIdentity = some current) (hnamed' : NamedEntry tx z) (hlayout' : EntryLayout z) :
    Standing base tx X s home (on ++ [z]) := by
  have hother : ∀ q, ¬Named tx e.role q → s.get q = d.get q := fun q hq => by
    rw [hplaced.get, placedOn_other hnamed hq]
  have hbelow := h.frame_named hplaced.vacant.not_directory hother (fun q hq => absurd hq (hX q))
  have hmem : ∀ {x : InstallJournalEntryV1}, x ∈ on ++ [z] → x ∈ on ∨ x = z := fun hx => by simpa using hx
  have hroots : e.role ≠ .varRoot ∧ e.role ≠ .varLibRoot := by
    have hvar := varLibRoot_prefix_home h.toAtHome
    refine ⟨fun heq => ?_, fun heq => ?_⟩
    · exact hplaced.role_ne (h.above .varRoot (List.IsPrefix.trans (by decide) hvar)) heq.symm
    · exact hplaced.role_ne (h.above .varLibRoot hvar) heq.symm
  have hsame : ∀ g : Path → Option Node, placedOn g z n = placedOn g e n := fun g => by
    unfold placedOn
    rw [hprior, hrole]
  have hdirectory : e.role.isJournalRetentionDirectory = true → e.intended.kind = .directory := by
    intro hret
    rw [hlayout.kind]
    revert hret
    cases e.role <;> decide
  have hkind : n.isDirectory = true ↔ e.intended.kind = .directory := by
    have := hplaced.intended
    unfold InstallObjectIdentityV1.matchesIntended at this
    simp only [Bool.and_eq_true, beq_iff_eq] at this
    rw [inspectNode_kind hplaced.seen, this.1.1.1.1]
  refine ⟨hbelow.toAtHome, hbelow.selinux, ?_, ?_, ?_, ?_, ?_, ?_⟩
  · obtain ⟨f, hstack, hagree⟩ := h.stacked
    have hagree : ∀ q, Visible tx q → d.get q = f q := fun q hq => hagree q hq (hX q)
    cases hret : e.role.isJournalRetentionDirectory with
    | true =>
      refine ⟨f, .retained hstack (by rw [hrole]; exact hret), fun q hq _ => ?_⟩
      have hne : q ≠ e.role.path := hq.2 e.role hret
      rw [hplaced.get, ← hagree q hq]
      simp only [placedOn, (hlayout.absent (hdirectory hret)).1]
      rw [Function.update_of_ne hne]
    | false =>
      have hpath := hagree _ (visible_path tx hret)
      refine ⟨placedOn f z n, .placed hstack (by rw [hrole]; exact hret) hcur hplaced.seen (by rw [hintended]; exact hkind)
        ?_ ?_ (by rw [hrole, ← hpath]; exact hplaced.newer), fun q hq _ => ?_⟩
      · -- the place was vacant on the stack, too
        have hvacant := hplaced.vacant
        unfold Vacant at hvacant ⊢
        rw [hprior, hrole]
        split
        · rename_i habsent
          rw [habsent] at hvacant
          refine ⟨by rw [← hpath]; exact hvacant.1, fun child => ?_⟩
          rw [← hagree _ (visible_child hret hroots.2 child)]
          exact hvacant.2 child
        · rename_i identity name howned
          rw [howned] at hvacant
          rw [← hpath, ← hagree _ (Named.visible (Fs.named_backup hnamed howned) hret)]
          exact hvacant
      · intro a ha hnot
        rw [hrole] at ha
        rw [← hagree _ (visible_path tx hnot)]
        exact hplaced.reach a ha
      · rw [hsame, hplaced.get]
        exact placedOn_congr hpath (hagree q hq)
  · intro x hx hret
    rcases hmem hx with hx | rfl
    · exact hbelow.retained x hx hret
    · rw [hrole] at hret ⊢
      have hnode := hkind.mpr (hdirectory hret)
      cases n with
      | directory info => exact ⟨info, current, by rw [hplaced.get, placedOn_path], hcur, hplaced.seen⟩
      | file | symlink | special => cases hnode
  · intro x hx a ha habove
    rcases hmem hx with hx | rfl
    · exact hbelow.anchors x hx a ha habove
    · rw [hrole] at habove
      have hstands := hplaced.reach a habove
      refine hstands.congr (hother _ fun hn => ?_)
      exact hplaced.role_ne hstands (Named.eq_role (.inl rfl) hn)
  · intro x hx
    rcases hmem hx with hx | rfl
    · exact h.named x hx
    · exact hnamed'
  · intro x hx
    rcases hmem hx with hx | rfl
    · exact h.layout x hx
    · exact hlayout'
  · intro x hx
    rcases hmem hx with hx | rfl
    · exact h.rooted x hx
    · rw [hrole]
      exact hroots

/-! ### Taking back the last entry -/

/-- Nothing unknown is in the way of the entry. -/
structure Apart (tx : String) (X : Path → Prop) (e : InstallJournalEntryV1) : Prop where
  names : ∀ q, Named tx e.role q → ¬X q
  above : ∀ a, InstallRoleV1.Above a e.role → ¬X a.path

theorem above_retention : ∀ a r : InstallRoleV1, r.isJournalRetentionDirectory = true → InstallRoleV1.Above a r →
    a.isJournalRetentionDirectory = false → a.path <+: InstallRoleV1.varLibRoot.path := by
  decide

/-- The way to the entry's object is open. -/
theorem Standing.reach (h : Standing base tx X d home (on ++ [e])) (hapart : Apart tx X e) : Reach d e.role := by
  intro a habove
  cases hret : a.isJournalRetentionDirectory with
  | true => exact h.anchors e (by simp) a hret habove
  | false =>
    obtain ⟨f, hstack, hagree⟩ := h.stacked
    rcases hstack.inv with ⟨hkeep, -⟩ | ⟨hkeep, g, n, current, htop⟩
    · exact h.above a ((above_retention a e.role hkeep habove hret).trans (varLibRoot_prefix_home h.toAtHome))
    · have hother : ¬Named tx e.role a.path := fun hn => habove.2 (Named.eq_role (.inl rfl) hn)
      unfold Stands
      rw [hagree _ (visible_path tx hret) (hapart.above a habove), htop.eq, placedOn_other (h.named e (by simp)) hother]
      exact htop.above a habove hret

/-- The entries without the last one. -/
theorem Standing.lower (h : Standing base tx X d home (on ++ [e])) {g : Path → Option Node} (hbelow : Stacked base on g)
    (hret : e.role.isJournalRetentionDirectory = false) (hother : ∀ q, ¬Named tx e.role q → s.get q = d.get q)
    (hagree : ∀ q, Visible tx q → ¬X q → s.get q = g q) : Standing base tx X s home on := by
  have hne : ∀ {a : InstallRoleV1}, a ≠ e.role → s.get a.path = d.get a.path := fun ha =>
    hother _ fun hn => ha (Named.eq_role (.inl rfl) hn)
  have hprivate : ∀ {q : Path}, Private tx q → s.get q = d.get q := fun hq => hother _ fun hn => hn.not_private hq
  have hkeep : ∀ {a : InstallRoleV1}, a.isJournalRetentionDirectory = true → a ≠ e.role := fun ha heq => by
    rw [heq, hret] at ha
    cases ha
  refine ⟨h.toAtHome.congr ?_ (hprivate (.inl (List.prefix_refl _))) ?_, ?_, ⟨g, hbelow, hagree⟩, ?_, ?_,
    fun x hx => h.named x (by simp [hx]), fun x hx => h.layout x (by simp [hx]), fun x hx => h.rooted x (by simp [hx])⟩
  · intro a ha
    obtain ⟨hvar, hlib⟩ := h.rooted e (by simp)
    rcases above_home h.toAtHome ha with rfl | rfl | hkept
    · exact hne hvar.symm
    · exact hne hlib.symm
    · exact hne (hkeep hkept)
  · have := hprivate (h.toAtHome.private [])
    rwa [List.append_nil] at this
  · have hselinux := h.selinux
    unfold ensureSelinuxIsNotEnforcing at hselinux ⊢
    rwa [hother _ (not_named_selinux e.role)]
  · intro x hx hkept
    obtain ⟨info, current, hget, hrest⟩ := h.retained x (by simp [hx]) hkept
    exact ⟨info, current, by rw [hne (hkeep hkept), hget], hrest⟩
  · intro x hx a ha habove
    exact (h.anchors x (by simp [hx]) a ha habove).congr (hne (hkeep ha))

/-- An entry that is left behind is forgotten. -/
theorem Standing.forget (h : Standing base tx X d home (on ++ [e])) (hret : e.role.isJournalRetentionDirectory = true) :
    Standing base tx X d home on where
  toAtHome := h.toAtHome
  selinux := h.selinux
  stacked := by
    obtain ⟨f, hstack, hagree⟩ := h.stacked
    rcases hstack.inv with ⟨-, hbelow⟩ | ⟨hno, -⟩
    · exact ⟨f, hbelow, hagree⟩
    · rw [hret] at hno
      cases hno
  retained := fun x hx => h.retained x (by simp [hx])
  anchors := fun x hx => h.anchors x (by simp [hx])
  named := fun x hx => h.named x (by simp [hx])
  layout := fun x hx => h.layout x (by simp [hx])
  rooted := fun x hx => h.rooted x (by simp [hx])

end NetworkLoop.Install
