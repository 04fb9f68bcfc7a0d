import NetworkLoop.Install.Supplied

/-! Transactions that nothing obstructs.

`Ready` lists what a disk and a plan have to offer for `apply_plan` to go through: the way to
every entry stands or is made by the plan itself, every place is vacant, every payload is
there. All of it is about the disk before the transaction; since an entry is placed on
what the earlier ones have left, `Ready.unobstructed` reads it off the stack at each round,
and with it a plan that `inspect_layout` has accepted refuses nothing (`ready_meets`). -/
namespace NetworkLoop.Install
open Library Program Disk

structure Ready (p : PreparedSystemInstall) (d₀ : Disk) (prepared : InstallJournalV1) : Prop where
  root : ∃ info, d₀.get [] = some (.directory info)
  start : ∃ found, Fs.bootstrapCheck prepared d₀ = .ok found
  probe : ∃ found, inspectOptionalExact d₀ .transactionsRoot = .ok found
  transactions : (d₀.get InstallRoleV1.transactionsRoot.path).isSome = true → Stands d₀ .transactionsRoot
  way : ∀ e ∈ prepared.entries, ∀ a, InstallRoleV1.Above a e.role → (∃ x ∈ prepared.entries, x.role = a) ∨
    (Stands d₀ a ∧ (a.isJournalRetentionDirectory = true → (d₀.get InstallRoleV1.transactionsRoot.path).isSome = true))
  vacant : ∀ e ∈ prepared.entries, Vacant d₀.get e
  siblings : ∀ e ∈ prepared.entries, ∀ name, e.siblingBasename = some name → d₀.get (e.role.directory ++ [name]) = none
  payloads : ∀ e ∈ prepared.entries, ∃ payload, payloadFile p e.role = .ok payload ∧ match e.intended.kind with
    | .directory => payload = none
    | .regularFile => ∃ digest, payload = some (.blob digest) ∧ e.intended.sha256 = some digest.val

variable {p : PreparedSystemInstall} {d₀ d s : Disk} {tx : String} {prepared j : InstallJournalV1}
  {e : InstallJournalEntryV1} {on done todo : List InstallJournalEntryV1} {X : Path → Prop} {home : Path}

/-! ### Looking into the stack -/

/-- The object of an entry in force is at its path, whatever has been placed since, and newer than what was there. -/
theorem Stacked.lookup {base f : Path → Option Node} {x : InstallJournalEntryV1} (h : Stacked base on f)
    (hnamed : ∀ e ∈ on, NamedEntry tx e) (hroles : on.Pairwise fun a b => a.role ≠ b.role) (hx : x ∈ on)
    (hret : x.role.isJournalRetentionDirectory = false) :
    ∃ n current, f x.role.path = some n ∧ x.currentIdentity = some current ∧ inspectNode 2 n = .ok current ∧
      ∀ m, base x.role.path = some m → m.info.inode < n.info.inode := by
  induction h with
  | base => cases hx
  | @retained on f e _ hkeep ih =>
    rcases List.mem_append.mp hx with hx | hx
    · exact ih (fun y hy => hnamed y (by simp [hy])) (List.pairwise_append.mp hroles).1 hx
    · rw [List.mem_singleton.mp hx, hkeep] at hret
      cases hret
  | @placed on f e n current hbelow _ hcur hseen _ _ _ hnewer ih =>
    have hother : ∀ y ∈ on, ¬Named tx e.role y.role.path := fun y hy hn =>
      (List.pairwise_append.mp hroles).2.2 y hy e (by simp) (Named.eq_role (.inl rfl) hn)
    rcases List.mem_append.mp hx with hx | hx
    · rw [placedOn_other (hnamed e (by simp)) (hother x hx)]
      exact ih (fun y hy => hnamed y (by simp [hy])) (List.pairwise_append.mp hroles).1 hx
    · obtain rfl := List.mem_singleton.mp hx
      refine ⟨n, current, placedOn_path, hcur, hseen, fun m hm => hnewer m ?_⟩
      rw [hbelow.other (fun y hy => hnamed y (by simp [hy])) fun y hy _ hn => hother y hy ?_, hm]
      rw [Named.eq_role hn (.inl rfl)]
      exact .inl rfl

/-- Nothing is placed on a directory. -/
theorem Stacked.keeps {base f : Path → Option Node} {a : InstallRoleV1} {info : Metadata} (h : Stacked base on f)
    (hnamed : ∀ e ∈ on, NamedEntry tx e) (hbase : base a.path = some (.directory info)) : f a.path = base a.path := by
  induction h with
  | base => rfl
  | retained _ _ ih => exact ih fun y hy => hnamed y (by simp [hy])
  | @placed on f e n current _ _ _ _ _ hvacant _ _ ih =>
    have hbelow := ih fun y hy => hnamed y (by simp [hy])
    have hother : ¬Named tx e.role a.path := fun hn => by
      rw [← Named.eq_role hn (.inl rfl)] at hbase hbelow
      exact hvacant.not_directory info (hbelow.trans hbase)
    rw [placedOn_other (hnamed e (by simp)) hother, hbelow]

theorem onOf_roles_ne {entries : List InstallJournalEntryV1} (h : EntriesOk entries) :
    (onOf entries).Pairwise fun a b => a.role ≠ b.role := by
  rw [onOf, List.pairwise_map]
  refine (h.sorted.sublist List.filter_sublist).imp fun {a b} hlt heq => ?_
  rw [show a.role = b.role from heq] at hlt
  exact Nat.lt_irrefl _ hlt

/-- The object of an entry is at its path, as the entry says. -/
def InPlace (s : Disk) (e : InstallJournalEntryV1) : Prop :=
  ∃ n current, s.get e.role.path = some n ∧ e.currentIdentity = some current ∧ inspectNode 2 n = .ok current

theorem Recorded.inPlace {base : Path → Option Node} (h : Recorded base tx none home j s) (hstate : j.state ≠ .planned)
    (he : e ∈ j.entries) (hforce : e.inForce = true) : InPlace s e := by
  have hmem : settled e ∈ onOf j.entries := mem_onOf.mpr ⟨e, he, hforce, rfl⟩
  cases hret : e.role.isJournalRetentionDirectory with
  | true =>
    obtain ⟨info, current, hget, hident, hseen⟩ := h.standing.retained (settled e) hmem hret
    exact ⟨.directory info, current, hget, hident, hseen⟩
  | false =>
    obtain ⟨f, hstack, hagree⟩ := h.standing.stacked
    obtain ⟨n, current, hget, hident, hseen, -⟩ :=
      hstack.lookup h.standing.named (onOf_roles_ne (h.valid_journal.entries hstate)) hmem hret
    refine ⟨n, current, ?_, hident, hseen⟩
    rw [hagree _ (visible_path tx hret) (unknown_none _)]
    exact hget

/-- A directory that is where its entry says stands. -/
theorem InPlace.stands (h : InPlace s e) (hvalid : e.validate = .ok ()) (hphase : e.phase ≠ .pending)
    (hdir : e.role.isDirectory = true) : Stands s e.role := by
  obtain ⟨n, current, hget, hident, hseen⟩ := h
  obtain ⟨found, hcur, -, hintended⟩ := InstallJournalEntryV1.matchesIntended_of_validate hvalid hphase
  rw [hident] at hcur
  cases hcur
  rw [Stands, hget]
  exact validDirectory_of_seen (entryLayout_of_validate hvalid) hdir hseen hintended

/-- A directory that an entry in force has made stands. -/
theorem Forward.stands (h : Forward d₀ tx prepared j s) (he : e ∈ j.entries) (hforce : e.inForce = true)
    (hdir : e.role.isDirectory = true) : Stands s e.role := by
  have hstate : j.state ≠ .planned := by simp [h.state]
  have hvalid := (h.toRecorded.valid_journal.entries hstate).valid e he
  exact (h.toRecorded.inPlace hstate he hforce).stands hvalid
    (InstallJournalEntryV1.phase_ne_pending_of_inForce hforce) hdir

/-! ### The next entry -/

theorem blank_eq (h : e.validate = .ok ()) (he : e.phase = .pending) : blank e = e := by
  unfold InstallJournalEntryV1.validate at h
  simp only [bind_unit_eq_ok] at h
  have hlast := h.2.2.2
  simp only [InstallJournalEntryV1.validatePhase, he] at hlast
  split at hlast
  · cases hlast
  · rename_i hno
    simp only [Bool.or_eq_true, not_or, Bool.not_eq_true, Option.isSome_eq_false_iff, Option.isNone_iff_eq_none] at hno
    cases e
    simp_all [blank]

/-- A pending entry is one of the plan's, unchanged. -/
theorem Forward.planned (h : Forward d₀ tx prepared j s) (hprepared : prepared.Valid) (hstate : prepared.state = .prepared)
    (he : e ∈ j.entries) (hpending : e.phase = .pending) : e ∈ prepared.entries := by
  have hok : EntriesOk j.entries := h.toRecorded.valid_journal.entries (by simp [h.state])
  have hok' : EntriesOk prepared.entries := hprepared.entries (by simp [hstate])
  have hall : AllIn .pending prepared.entries := (InstallJournalV1.progress_of_state hprepared hstate).2.1
  have hmem : e ∈ prepared.entries.map blank := by
    rw [← h.origin]
    exact List.mem_map.mpr ⟨e, he, blank_eq (hok.valid e he) hpending⟩
  obtain ⟨x, hx, hxe⟩ := List.mem_map.mp hmem
  rw [blank_eq (hok'.valid x hx) (hall x hx)] at hxe
  rwa [← hxe]

theorem isDirectory_of_above : ∀ a r : InstallRoleV1, InstallRoleV1.Above a r → a.isDirectory = true := by
  decide

theorem retention_extends : ∀ a : InstallRoleV1, a.isJournalRetentionDirectory = true →
    a.path <+: InstallRoleV1.transactionsRoot.path := by
  decide

/-- A path that none of the entries in force names, and that a rollback would have to give back. -/
theorem Forward.untouched (h : Forward d₀ tx prepared j s) {q : Path} (hq : Visible tx q)
    (hnamed : ∀ x ∈ onOf j.entries, ¬Named tx x.role q) : s.get q = d₀.get q := by
  obtain ⟨f, hstack, hagree⟩ := h.standing.stacked
  rw [hagree q hq (unknown_none q), hstack.other h.standing.named fun x hx _ => hnamed x hx]

/-- The way to the next entry is open. -/
theorem Forward.reach_next (h : Forward d₀ tx prepared j s) (hready : Ready p d₀ prepared)
    (hsplit : j.entries = done ++ e :: todo) (hdone : AllIn .verified done) (htodo : AllIn .pending (e :: todo))
    (hplan : e ∈ prepared.entries) : Reach s e.role := by
  have hok : EntriesOk j.entries := h.toRecorded.valid_journal.entries (by simp [h.state])
  have hroles : j.entries.map (·.role) = prepared.entries.map (·.role) := by
    have := congrArg (List.map (·.role)) h.origin
    simpa [List.map_map, Function.comp_def, blank] using this
  intro a habove
  rcases hready.way e hplan a habove with ⟨x, hx, rfl⟩ | ⟨hstands, hexists⟩
  · have hmem : x.role ∈ j.entries.map (·.role) := by
      rw [hroles]
      exact List.mem_map.mpr ⟨x, hx, rfl⟩
    obtain ⟨y, hy, hyx⟩ := List.mem_map.mp hmem
    rw [← hyx] at habove ⊢
    have hforce := (order_lt_of_split hok hsplit hdone htodo).2 y hy (InstallRoleV1.installOrder_lt_of_above habove)
    exact h.stands hy hforce (isDirectory_of_above _ _ habove)
  · cases hret : a.isJournalRetentionDirectory with
    | true =>
      have hhome : homeOf d₀ tx j.entries = finalHome tx := by simp [homeOf, published, hexists hret]
      refine h.above a ?_
      rw [hhome]
      exact (retention_extends a hret).trans (List.prefix_append ..)
    | false =>
      obtain ⟨info, hget⟩ := hstands.exists_directory
      obtain ⟨f, hstack, hagree⟩ := h.standing.stacked
      refine hstands.congr ?_
      rw [hagree _ (visible_path tx hret) (unknown_none _), hstack.keeps h.standing.named hget]

theorem Forward.able_next {payload : Option Fs.Payload} (h : Forward d₀ tx prepared j s) (hready : Ready p d₀ prepared)
    (hsplit : j.entries = done ++ e :: todo) (hdone : AllIn .verified done) (htodo : AllIn .pending (e :: todo))
    (hplan : e ∈ prepared.entries) (hpayload : match e.intended.kind with
      | .directory => payload = none
      | .regularFile => ∃ digest, payload = some (.blob digest) ∧ e.intended.sha256 = some digest.val) : Able s e payload := by
  have hok : EntriesOk j.entries := h.toRecorded.valid_journal.entries (by simp [h.state])
  have hmem : e ∈ j.entries := by simp [hsplit]
  have hnamed := h.named e hmem
  have hlayout := entryLayout_of_validate (hok.valid e hmem)
  have hreach := h.reach_next hready hsplit hdone htodo hplan
  have hvacant := hready.vacant e hplan
  have hunnamed : ∀ {q : Path}, Named tx e.role q → ∀ x ∈ onOf j.entries, ¬Named tx x.role q := fun hq x hx hn => by
    have hlt := (order_lt_of_split hok hsplit hdone htodo).1 x hx
    rw [Named.eq_role hn hq] at hlt
    exact Nat.lt_irrefl _ hlt
  have hsame : ∀ {q : Path}, Named tx e.role q → e.role.isJournalRetentionDirectory = false → s.get q = d₀.get q :=
    fun hq hret => h.untouched (hq.visible hret) (hunnamed hq)
  have hpath : s.get e.role.path = d₀.get e.role.path := by
    cases hret : e.role.isJournalRetentionDirectory with
    | true => exact h.ahead e hmem (allIn_cons.mp htodo).1 hret
    | false => exact hsame (.inl rfl) hret
  refine ⟨h.standing.selinux, ?_, hreach, ?_, hpayload, ?_⟩
  · by_cases hroot : e.role.directory = []
    · obtain ⟨info, hget⟩ := hready.root
      refine ⟨info, ?_⟩
      rw [hroot, h.untouched ?_ ?_, hget]
      · refine ⟨fun hp => ?_, fun a _ heq => ?_⟩
        · rcases hp with hp | hp <;> simp [bootstrapHome, finalHome] at hp
        · simp [a.path_eq] at heq
      · intro x _ hn
        obtain ⟨name, hname⟩ := hn.exists_name
        simp at hname
    · obtain ⟨a, ha⟩ := InstallRoleV1.prefix_role e.role e.role.directory (directory_extends e.role) hroot
      have := hreach a (InstallRoleV1.above_iff_directory.mpr (by rw [ha]))
      rw [← ha]
      exact this.exists_directory
  · cases hprior : e.priorState with
    | absent =>
      simp only [Vacant, hprior] at hvacant ⊢
      have hfree : s.get e.role.path = none := by rw [hpath, hvacant.1]
      exact ⟨hfree, fun child => FileTree.get_under_none hfree (List.prefix_append ..)⟩
    | priorOwned identity name =>
      have hret : e.role.isJournalRetentionDirectory = false := by
        by_contra hno
        rw [Bool.not_eq_false] at hno
        rw [(hlayout.absent (hlayout.kind.mpr (Runner.isDirectory_of_retention _ hno))).1] at hprior
        cases hprior
      simp only [Vacant, hprior] at hvacant ⊢
      rw [hpath, hsame (Fs.named_backup hnamed hprior) hret]
      exact hvacant
  · intro name hname
    have hret : e.role.isJournalRetentionDirectory = false := by
      by_contra hno
      rw [Bool.not_eq_false] at hno
      rw [(hlayout.absent (hlayout.kind.mpr (Runner.isDirectory_of_retention _ hno))).2] at hname
      cases hname
    have hsibling : Named tx e.role (e.role.directory ++ [name]) := .inr (.inl (by rw [hnamed.1 name hname]; rfl))
    rw [hsame hsibling hret, hready.siblings e hplan name hname]

/-! ### The whole command -/

/-- **What is ready is not obstructed.** -/
theorem Ready.unobstructed (h : Ready p d₀ prepared) (hprepared : prepared.Valid) (hstate : prepared.state = .prepared) :
    Unobstructed p d₀ tx prepared := by
  have hopened : ∀ {s : Disk}, (d₀.get InstallRoleV1.transactionsRoot.path).isSome = true → Fs.Bootstrapped d₀ tx prepared s →
      Fs.TransactionsOpen s := by
    intro s hexists hs a ha
    have hsame : s.get a.path = d₀.get a.path := hs.outside _ (not_bootstrapHome_prefix_path a)
    by_cases heq : a = .transactionsRoot
    · subst heq
      exact (h.transactions hexists).congr hsame
    · obtain ⟨found, hfound⟩ := h.probe
      have hsome := inspectOptionalExact_isSome hfound
      rw [hexists] at hsome
      obtain ⟨identity, rfl⟩ := Option.isSome_iff_exists.mp hsome
      exact ((inspectExact_ok.mp (inspectOptionalExact_some.mp hfound)).2.1 a ⟨ha, heq⟩).congr hsame
  refine ⟨h.start, fun s hs => ?_, fun hexists s hs => hopened hexists hs, ?_⟩
  · have hsame : ∀ a : InstallRoleV1, s.get a.path = d₀.get a.path := fun a => hs.outside _ (not_bootstrapHome_prefix_path a)
    have hselinux : s.get selinuxPath = d₀.get selinuxPath := hs.outside _ fun hp => selinux_visible.1 (.inl hp)
    by_cases hexists : (d₀.get InstallRoleV1.transactionsRoot.path).isSome = true
    · have hopen := hopened hexists hs
      obtain ⟨info, hget, -, -, -, hplain⟩ := hopen .transactionsRoot (List.prefix_refl _)
      refine ⟨some _, inspectOptionalExact_some.mpr (inspectExact_ok.mpr
        ⟨?_, fun a ha => hopen a ha.1, inspectAt_directory hget hplain⟩)⟩
      have := hs.selinux
      unfold ensureSelinuxIsNotEnforcing at this ⊢
      rwa [hselinux]
    · obtain ⟨found, hfound⟩ := h.probe
      have hsome := inspectOptionalExact_isSome hfound
      rw [Bool.not_eq_true] at hexists
      rw [hexists, Option.isSome_eq_false_iff, Option.isNone_iff_eq_none] at hsome
      rw [hsome] at hfound
      obtain ⟨hsel, hclear, hgone⟩ := inspectOptionalExact_none.mp hfound
      refine ⟨none, inspectOptionalExact_none.mpr ⟨?_, fun a ha => ?_, by rw [hsame, hgone]⟩⟩
      · unfold ensureSelinuxIsNotEnforcing at hsel ⊢
        rwa [hselinux]
      · rcases hclear a ha with hno | hstands
        · exact .inl (by rw [hsame, hno])
        · exact .inr (hstands.congr (hsame a))
  · intro j s done todo e hforward hsplit hdone he
    have hvalid := hforward.toRecorded.valid_journal
    obtain ⟨n, hshape, -, -⟩ := hvalid.applying hforward.state
    rw [hsplit] at hshape
    have htodo : AllIn .pending (e :: todo) := allIn_cons.mpr ⟨he, (hshape.at_pending hdone he).1⟩
    have hplan := hforward.planned hprepared hstate (e := e) (by simp [hsplit]) he
    obtain ⟨payload, hpayload, hright⟩ := h.payloads e hplan
    exact ⟨payload, hpayload, hforward.able_next h hsplit hdone htodo hplan hright⟩

/-! ### Accepted plans -/

section Accepted
variable {operation : InstallOperationV1} {current : Option InstallJournalV1} {found : List InstallDestinationSnapshotV1}
  {x : InstallDestinationSnapshotV1}

/-- The names that a transaction uses beside its files are free. -/
def NamesFree (d : Disk) (tx : String) : Prop :=
  ∀ r : InstallRoleV1, r.isDirectory = false → d.get (siblingPath tx r) = none ∧ d.get (backupPath tx r) = none

theorem Accepted.mem (h : Accepted d operation found current) (r : InstallRoleV1) : ∃ x ∈ found, x.role = r := by
  have hmem : r ∈ found.map (·.role) := by
    rw [h.roles]
    exact InstallRoleV1.mem_all r
  obtain ⟨x, hx, hrole⟩ := List.mem_map.mp hmem
  exact ⟨x, hx, hrole⟩

theorem Accepted.inspected (h : Accepted d operation found current) (r : InstallRoleV1) :
    ∃ observed, inspectOptionalExact d r = .ok observed := by
  obtain ⟨x, hx, rfl⟩ := h.mem r
  obtain ⟨observed, hobserved, -⟩ := h.seen x hx
  exact ⟨observed, hobserved⟩

theorem Accepted.clear (h : Accepted d operation found current) (r : InstallRoleV1) :
    ensureSelinuxIsNotEnforcing d = .ok () ∧ Clear d r := by
  obtain ⟨observed, hobserved⟩ := h.inspected r
  cases observed with
  | none =>
    obtain ⟨hselinux, hclear, -⟩ := inspectOptionalExact_none.mp hobserved
    exact ⟨hselinux, hclear⟩
  | some identity =>
    obtain ⟨hselinux, hreach, -⟩ := inspectExact_ok.mp (inspectOptionalExact_some.mp hobserved)
    exact ⟨hselinux, hreach.clear⟩

/-- A directory of the layout that is there and has something of the layout under it stands. -/
theorem Accepted.stands {a r : InstallRoleV1} (h : Accepted d operation found current) (ha : InstallRoleV1.Above a r)
    (hthere : d.get a.path ≠ none) : Stands d a :=
  ((h.clear r).2 a ha).resolve_left hthere

/-- An entry of the plan, with the destination it is for. -/
theorem Planned.destination (h : Planned p ((InstallPlanner.sortDestinations found).flatMap actionsOf) current prepared)
    (he : e ∈ prepared.entries) : ∃ x ∈ found, ∃ action, actionOf x = some action ∧ journalEntry p current action = .ok e := by
  obtain ⟨action, haction, hverify, hentry⟩ := h.source e he
  obtain ⟨x, hx, hmade⟩ := (mem_planned hverify).mp haction
  exact ⟨x, hx, action, hmade, hentry⟩

/-- The place of an entry is vacant where its destination has been seen. -/
theorem vacant_of_seen {action : InstallActionV1} (hseen : Seen d p.operation current x) (hmade : actionOf x = some action)
    (hentry : journalEntry p current action = .ok e) (hnames : NamesFree d p.transactionId) : Vacant d.get e := by
  obtain ⟨observed, hobserved, hstate⟩ := hseen
  obtain ⟨hrole, -⟩ := actionOf_role hmade
  have habsent : observed = none → e.priorState = .absent → e.role = x.role → Vacant d.get e := by
    intro hnone hprior heq
    rw [hnone] at hobserved
    have hgone : d.get x.role.path = none := (inspectOptionalExact_none.mp hobserved).2.2
    rw [Vacant, hprior, heq]
    exact ⟨hgone, fun child => FileTree.get_under_none hgone (List.prefix_append ..)⟩
  obtain ⟨intended, -, hcases⟩ := journalEntry_ok hentry
  rcases destinationState_some hstate with ⟨hx, -, hnone⟩ | ⟨hx, -, hnone⟩ | ⟨hx, -⟩ |
    ⟨hx, hfile, -, identity, hsome, hidentity⟩
  · simp only [actionOf, hx, Option.some.injEq] at hmade
    rcases hcases with ⟨-, hnew⟩ | ⟨hno, -⟩ | ⟨hno, -⟩
    · obtain ⟨rfl, -⟩ := new_ok hnew
      exact habsent hnone rfl hrole
    · rw [← hmade] at hno
      cases hno
    · rw [← hmade] at hno
      cases hno
  · simp only [actionOf, hx, Option.some.injEq] at hmade
    rcases hcases with ⟨hno, -⟩ | ⟨-, hnew⟩ | ⟨hno, -⟩
    · rw [← hmade] at hno
      cases hno
    · obtain ⟨rfl, -⟩ := new_ok hnew
      exact habsent hnone rfl hrole
    · rw [← hmade] at hno
      cases hno
  · simp [actionOf, hx] at hmade
  · simp only [actionOf, hx, Option.some.injEq] at hmade
    rcases hcases with ⟨hno, -⟩ | ⟨hno, -⟩ | ⟨-, prior, hprior, hnew⟩
    · rw [← hmade] at hno
      cases hno
    · rw [← hmade] at hno
      cases hno
    · obtain ⟨rfl, hvalid⟩ := new_ok hnew
      rw [hrole, hidentity] at hprior
      cases hprior
      rw [hsome] at hobserved
      obtain ⟨-, -, hinspect⟩ := inspectExact_ok.mp (inspectOptionalExact_some.mp hobserved)
      have hkind := ((entryLayout_of_validate hvalid).backup _ _ rfl).2
      show d.get (action.role.directory ++ [backupBasename p.transactionId action.role]) = none ∧ _
      rw [hrole]
      refine ⟨(hnames x.role hfile).2, ?_⟩
      unfold inspectAt at hinspect
      cases hget : d.get x.role.path with
      | none =>
        rw [hget] at hinspect
        cases hinspect
      | some n =>
        rw [hget] at hinspect
        have hnode : n.isDirectory = false := by
          by_contra hno
          rw [Bool.not_eq_false] at hno
          rw [(inspectNode_kind hinspect).mp hno] at hkind
          cases hkind
        exact ⟨n, rfl, hnode, by rw [← hinspect]; exact inspectNode_file hnode⟩

/-- **What has been accepted and supplied is ready**, if the names of the transaction are free. -/
theorem Ready.of_accepted (hsupplied : Supplied p) (haccepted : Accepted d p.operation found current)
    (hplanned : Planned p ((InstallPlanner.sortDestinations found).flatMap actionsOf) current prepared)
    (hroot : ∃ info, d.get [] = some (.directory info)) (hvar : d.get InstallRoleV1.varLibRoot.path ≠ none)
    (hclaim : Fs.Unclaimed d p.transactionId) (hnames : NamesFree d p.transactionId) : Ready p d prepared where
  root := hroot
  start := by
    refine (Fs.bootstrapCheck_ok (by rw [hplanned.bindings]; rfl)).mpr
      ⟨by simp [ensureTransactionId, hsupplied.id], (haccepted.clear .cli).1, hclaim, fun a ha => ?_,
        clear_of_current haccepted.installed⟩
    refine haccepted.stands (r := .stateRoot) (InstallRoleV1.above_iff_directory.mpr ha) fun hno => hvar ?_
    exact FileTree.get_under_none hno ha
  probe := haccepted.inspected .transactionsRoot
  transactions := by
    intro hthere
    refine (clear_of_current haccepted.installed .transactionsRoot (List.prefix_refl _)).resolve_left fun hno => ?_
    rw [hno] at hthere
    cases hthere
  way := by
    intro e he a ha
    obtain ⟨x, hx, rfl⟩ := haccepted.mem a
    by_cases hstate : x.state = .existingPrerequisiteDirectory
    · obtain ⟨observed, hobserved, hseen⟩ := haccepted.seen x hx
      rw [hstate] at hseen
      rcases destinationState_some hseen with ⟨hno, -⟩ | ⟨hno, -⟩ | ⟨-, -, identity, rfl, hown⟩ | ⟨hno, -⟩
      · cases hno
      · cases hno
      · have hthere := inspectOptionalExact_isSome hobserved
        refine .inr ⟨haccepted.stands ha (Option.isSome_iff_ne_none.mp hthere.symm), fun hret => ?_⟩
        have hforeign : isStandardPrerequisite x.role = false := by
          revert hret
          cases x.role <;> decide
        rcases hown with hstandard | hjournal
        · rw [hforeign] at hstandard
          cases hstandard
        · cases hcurrent : current with
          | none =>
            rw [hcurrent] at hjournal
            cases hjournal
          | some j => exact (current_some (hcurrent ▸ haccepted.installed)).2.2
      · cases hno
    · left
      obtain ⟨action, haction, hverify, hrole⟩ := actsOn_planned.mpr ⟨x, hx, rfl, hstate⟩
      obtain ⟨y, hy, hentry⟩ := hplanned.target action haction hverify
      exact ⟨y, hy, by rw [(journalEntry_spec hentry).1, hrole]⟩
  vacant := by
    intro e he
    obtain ⟨x, hx, action, hmade, hentry⟩ := hplanned.destination he
    exact vacant_of_seen (haccepted.seen x hx) hmade hentry hnames
  siblings := by
    intro e he name hname
    have hlayout := entryLayout_of_validate ((hplanned.valid.entries (by simp [hplanned.state])).valid e he)
    have hfile : e.role.isDirectory = false := by
      by_contra hno
      rw [Bool.not_eq_false] at hno
      rw [(hlayout.absent (hlayout.kind.mpr hno)).2] at hname
      cases hname
    rw [(hplanned.named e he).1 name hname]
    exact (hnames e.role hfile).1
  payloads := by
    intro e he
    obtain ⟨x, hx, action, hmade, hentry⟩ := hplanned.destination he
    obtain ⟨hrole, -, hintended⟩ := journalEntry_spec hentry
    rw [← hrole] at hintended
    have hlayout := entryLayout_of_validate ((hplanned.valid.entries (by simp [hplanned.state])).valid e he)
    cases hdir : e.role.isDirectory with
    | true =>
      rw [hlayout.kind.mpr hdir]
      exact ⟨none, by simp [payloadFile, (layoutSource_none e.role).mpr hdir], rfl⟩
    | false =>
      obtain ⟨digest, hpayload, hdigest⟩ := hsupplied.payloads e.role hdir
      have hsource : e.role.layoutSource ≠ .none := fun hno => by
        rw [(layoutSource_none e.role).mp hno] at hdir
        cases hdir
      have hkind : e.intended.kind = .regularFile := by
        cases hkind : e.intended.kind with
        | regularFile => rfl
        | directory =>
          rw [hlayout.kind.mp hkind] at hdir
          cases hdir
      rw [hkind]
      refine ⟨some (.blob digest), ?_, digest, rfl, ?_⟩
      · unfold payloadFile
        split
        · rename_i hno
          exact absurd hno hsource
        · rw [hpayload]
          rfl
      · unfold intendedIdentity InstallRoleV1.layoutKind at hintended
        rw [hdir, if_neg (by simp)] at hintended
        obtain ⟨text, htext, hmake⟩ := bind_eq_ok.mp hintended
        rw [hdigest] at htext
        cases htext
        obtain ⟨-, hret⟩ := bind_unit_eq_ok.mp (discard_ok hmake)
        rw [← Except.ok.inj hret]

end Accepted

namespace Runner
open Fs

/-- Once there is a prepared journal, `apply_plan` is about nothing else. -/
theorem applyPlan_eq {actions : List InstallActionV1} {prior : Option InstallJournalV1} {entries : List InstallJournalEntryV1}
    (hentries : journalEntries p prior (actions.filter fun action => !action.isVerify) = .ok entries)
    (hbindings : (bindingsOf p).validate = .ok ())
    (hprepare : (InstallJournalV1.new (bindingsOf p)).prepare entries = (.ok (), prepared)) :
    applyPlan p actions prior = applyPrepared p prepared := by
  have hnew : discard (newBindings p) = .ok (bindingsOf p) := by
    rw [newBindings, hbindings]
    rfl
  funext strike d
  unfold applyPlan
  rw [hentries, hnew]
  show (record _ >>= _) strike d = _
  rw [hprepare]
  rfl

/-- **A plan that is ready refuses nothing.** It goes through unless it is struck. -/
theorem ready_meets {found : List InstallDestinationSnapshotV1} {current : Option InstallJournalV1} (hsupplied : Supplied p)
    (haccepted : Accepted d p.operation found current) (hroot : ∃ info, d.get [] = some (.directory info))
    (hvar : d.get InstallRoleV1.varLibRoot.path ≠ none) (hclaim : Unclaimed d p.transactionId)
    (hnames : NamesFree d p.transactionId) :
    ∃ prepared, Planned p ((InstallPlanner.sortDestinations found).flatMap actionsOf) current prepared ∧
      applyPlan p ((InstallPlanner.sortDestinations found).flatMap actionsOf) current = applyPrepared p prepared ∧
      Meets (· = d) (applyPrepared p prepared) (fun _ s => ∃ j, Installed d p.transactionId prepared j s)
        (fun cause site s => (∃ hit, cause = .fault hit) ∧ ApplyStop d p.transactionId prepared cause site s) := by
  obtain ⟨entries, prepared, hentries, hprepare⟩ := prepared_succeeds hsupplied haccepted
  have hplanned := planned_of_prepare hentries hsupplied.bindings hprepare
  have hready := Ready.of_accepted hsupplied haccepted hplanned hroot hvar hclaim hnames
  have hunobstructed : Unobstructed p d p.transactionId prepared := hready.unobstructed hplanned.valid hplanned.state
  refine ⟨prepared, hplanned, applyPlan_eq hentries hsupplied.bindings hprepare, ?_⟩
  refine Meets.mono (applyPrepared_meets hclaim (by rw [hplanned.bindings]; rfl) hplanned.valid hplanned.state hplanned.named)
    (fun s hs => hs) (fun _ s hs => hs) fun cause site s hstops => ⟨?_, hstops.2⟩
  cases cause with
  | refusal err => exact absurd hunobstructed (hstops.1 err rfl)
  | fault hit => exact ⟨hit, rfl⟩

end Runner

end NetworkLoop.Install
