import NetworkLoop.Install.Backward

/-! What `apply_plan` does to the disk.

Between two rounds the disk is the one before the transaction with the entries in force
placed on it, and the journal says so (`Forward`). Inside a round the object comes before
its record: a stop in between leaves an object that the journal does not know of. The other
gap is in the journal's own update, where a stop leaves the sibling. `apply_meets` goes
through all steps of the command and says for each of them what a stop there leaves. -/
namespace NetworkLoop.Install
open Library Program Disk

/-- What a stop of `apply_plan` leaves, by where it is and what caused it. -/
def applyAftermath {ε : Type} (cause : Cause ε) : Site → Aftermath
  | .journal | .bootstrap _ | .probe | .publish true _ => .lost
  | .entry role step => if leavesResidue cause step then .orphan role else .clean
  | .persist .started .check | .persist .started (.write .create) => .lost
  | .persist (.applied role) .check | .persist (.applied role) (.write .create) => .orphan role
  | .persist _ (.write .create) => .clean
  | .persist _ (.write _) | .persist _ .rename => .lost
  | _ => .clean

/-- An entry as it was planned. -/
def blank (e : InstallJournalEntryV1) : InstallJournalEntryV1 :=
  {e with currentIdentity := none, createdParentIdentity := none, phase := .pending}

/-- The journal has been moved among the transactions: they were there before, or their
directory has been made and verified. -/
def published (d₀ : Disk) (entries : List InstallJournalEntryV1) : Bool :=
  (d₀.get InstallRoleV1.transactionsRoot.path).isSome ||
    entries.any fun e => e.role = .transactionsRoot && e.phase = .verified

def homeOf (d₀ : Disk) (tx : String) (entries : List InstallJournalEntryV1) : Path :=
  if published d₀ entries then finalHome tx else bootstrapHome tx

/-- The state between two rounds of `apply_plan`. -/
structure Forward (d₀ : Disk) (tx : String) (prepared j : InstallJournalV1) (s : Disk) : Prop extends
    Recorded d₀.get tx none (homeOf d₀ tx j.entries) j s where
  state : j.state = .applying
  free : published d₀ j.entries = false → s.get (finalHome tx) = none
  fresh : ∀ e ∈ j.entries, e.phase = .applied → ∀ child, s.get (e.role.path ++ [child]) = none
  ahead : ∀ e ∈ j.entries, e.phase = .pending → e.role.isJournalRetentionDirectory = true →
    s.get e.role.path = d₀.get e.role.path
  origin : j.entries.map blank = prepared.entries.map blank
  bindings : j.bindings = prepared.bindings

/-- What it takes for `apply_plan` not to refuse. -/
structure Unobstructed (p : PreparedSystemInstall) (d₀ : Disk) (tx : String) (prepared : InstallJournalV1) : Prop where
  start : ∃ found, Fs.bootstrapCheck prepared d₀ = .ok found
  probe : ∀ s, Fs.Bootstrapped d₀ tx prepared s → ∃ found, inspectOptionalExact s .transactionsRoot = .ok found
  opened : (d₀.get InstallRoleV1.transactionsRoot.path).isSome = true → ∀ s, Fs.Bootstrapped d₀ tx prepared s →
    Fs.TransactionsOpen s
  entries : ∀ (j : InstallJournalV1) (s : Disk) (done todo : List InstallJournalEntryV1) (e : InstallJournalEntryV1),
    Forward d₀ tx prepared j s → j.entries = done ++ e :: todo → AllIn .verified done → e.phase = .pending →
    ∃ payload, payloadFile p e.role = .ok payload ∧ Able s e payload

/-- What a stop of `apply_plan` leaves. -/
def ApplyStop (d₀ : Disk) (tx : String) (prepared : InstallJournalV1) (cause : Cause Unit) (site : Site) (s : Disk) : Prop :=
  match applyAftermath cause site with
  | .clean => ∃ home j, Recorded d₀.get tx none home j s ∧ (j.state = .applying ∨ j.state = .installed)
  | .lost => Runner.Lost tx s ∧ ∀ err, cause = .refusal err → ∀ j, loadJournalExact s tx = .ok j → j.state = .prepared
  | .orphan r => (∃ hit, cause = .fault hit) ∧ ∃ home j, Recorded d₀.get tx (some r) home j s ∧ j.state = .applying ∧
      (∀ e ∈ j.entries, e.role.installOrder < r.installOrder → e.inForce = true) ∧
      j.entries.map blank = prepared.entries.map blank

def ApplyStops (p : PreparedSystemInstall) (d₀ : Disk) (tx : String) (prepared : InstallJournalV1) (cause : Cause Unit)
    (site : Site) (s : Disk) : Prop :=
  (∀ err, cause = .refusal err → ¬Unobstructed p d₀ tx prepared) ∧ ApplyStop d₀ tx prepared cause site s

variable {p : PreparedSystemInstall} {d₀ d s : Disk} {tx : String} {home : Path} {prepared j j' : InstallJournalV1}
  {e : InstallJournalEntryV1} {done todo : List InstallJournalEntryV1}

/-! ### Entries -/

theorem onOf_pending (htodo : AllIn .pending todo) : onOf todo = [] :=
  List.map_eq_nil_iff.mpr (List.filter_eq_nil_iff.mpr fun x hx => by simp [InstallJournalEntryV1.inForce, htodo x hx])

theorem onOf_append {front rest : List InstallJournalEntryV1} : onOf (front ++ rest) = onOf front ++ onOf rest := by
  simp [onOf]

theorem mem_onOf {x : InstallJournalEntryV1} {entries : List InstallJournalEntryV1} :
    x ∈ onOf entries ↔ ∃ y ∈ entries, y.inForce = true ∧ settled y = x := by
  simp [onOf, and_assoc]

theorem length_onOf_le (entries : List InstallJournalEntryV1) : (onOf entries).length ≤ entries.length := by
  rw [onOf, List.length_map]
  exact List.length_filter_le ..

theorem namedEntry_congr {e' : InstallJournalEntryV1} (h : NamedEntry tx e) (hrole : e'.role = e.role)
    (hsibling : e'.siblingBasename = e.siblingBasename) (hprior : e'.priorState = e.priorState) : NamedEntry tx e' := by
  unfold NamedEntry
  rw [hrole, hsibling, hprior]
  exact h

/-- The number of a journal's steps is small. -/
theorem room_of_valid (h : j.Valid) (hstate : j.state = .applying ∨ j.state = .installed) :
    j.durableStep + (onOf j.entries).length + slack j.state ≤ 128 := by
  have hlength := (h.entries (by rcases hstate with h | h <;> simp [h])).length_le
  have hon := length_onOf_le j.entries
  rcases hstate with hstate | hstate
  · obtain ⟨n, hshape, hstep, -⟩ := h.applying hstate
    obtain ⟨done, rest, hsplit, -, hcount⟩ := hshape.cut
    have hsum : j.entries.length = done.length + rest.length := by rw [hsplit, List.length_append]
    rw [hstate, slack, hstep]
    · rcases hcount with ⟨-, hn⟩ | ⟨e, todo, rfl, -, -, hn⟩
      · omega
      · rw [List.length_cons] at hsum
        omega
    all_goals simp
  · obtain ⟨hstep, -, -⟩ := InstallJournalV1.progress_of_state h hstate
    have hstep' : j.durableStep = 3 + 2 * j.entries.length := hstep
    rw [hstate, slack, hstep']
    · omega
    all_goals simp

theorem published_congr {e' : InstallJournalEntryV1} (hrole : e'.role = e.role) (he : e.phase ≠ .verified)
    (he' : e'.phase ≠ .verified ∨ e.role ≠ .transactionsRoot) :
    published d₀ (done ++ e' :: todo) = published d₀ (done ++ e :: todo) := by
  unfold published
  simp only [List.any_append, List.any_cons]
  rcases he' with he' | he'
  · simp [he, he']
  · simp [he, hrole, he']

/-! ### Objects that the journal misses -/

/-- An object in its place, for a journal that does not know of it. -/
theorem Placed.residue {current : InstallObjectIdentityV1} {n : Node} (h : Placed d e current n s)
    (hnamed : NamedEntry tx e) : Residue d tx e.role s where
  free := h.vacant.not_directory
  outside := fun q hq => by rw [h.get, placedOn_other hnamed hq]
  left := by
    have hvacant := h.vacant
    cases hprior : e.priorState with
    | absent =>
      simp only [Vacant, hprior] at hvacant
      exact ⟨e.role.path, .inl rfl, hvacant.1, by rw [h.get, placedOn_path]; simp⟩
    | priorOwned identity name =>
      simp only [Vacant, hprior] at hvacant
      obtain ⟨hfree, m, hm, -⟩ := hvacant
      refine ⟨_, Fs.named_backup hnamed hprior, hfree, ?_⟩
      have hne : e.role.directory ++ [name] ≠ e.role.path := fun heq => by
        rw [heq, hm] at hfree
        cases hfree
      rw [h.get]
      simp only [placedOn, hprior]
      rw [Function.update_of_ne hne, Function.update_self, hm]
      simp

/-- The role of a pending entry comes after those in force. -/
theorem order_lt_of_split (hok : EntriesOk j.entries) (hsplit : j.entries = done ++ e :: todo) (hdone : AllIn .verified done)
    (htodo : AllIn .pending (e :: todo)) :
    (∀ x ∈ onOf j.entries, x.role.installOrder < e.role.installOrder) ∧
      ∀ x ∈ j.entries, x.role.installOrder < e.role.installOrder → x.inForce = true := by
  have hsorted := hok.sorted
  rw [hsplit, List.pairwise_append] at hsorted
  obtain ⟨-, htail, hbetween⟩ := hsorted
  constructor
  · intro x hx
    rw [hsplit, onOf_append, onOf_pending htodo, List.append_nil] at hx
    obtain ⟨y, hy, -, rfl⟩ := mem_onOf.mp hx
    exact hbetween y hy e (by simp)
  · intro x hx hlt
    rw [hsplit] at hx
    rcases List.mem_append.mp hx with hx | hx
    · simp [InstallJournalEntryV1.inForce, hdone x hx]
    · rcases List.mem_cons.mp hx with rfl | hx
      · exact absurd hlt (Nat.lt_irrefl _)
      · have := List.rel_of_pairwise_cons htail hx
        omega

/-- **An orphan.** Something is left under the names of the next entry's role. -/
theorem Recorded.orphan (h : Recorded d₀.get tx none home j d) (hstate : j.state = .applying)
    (hsplit : j.entries = done ++ e :: todo) (hdone : AllIn .verified done) (htodo : AllIn .pending (e :: todo))
    (hleft : Residue d tx e.role s) : Recorded d₀.get tx (some e.role) home j s := by
  have hok : EntriesOk j.entries := h.valid_journal.entries (by simp [hstate])
  have horder := (order_lt_of_split hok hsplit hdone htodo).1
  have hprivate : ∀ name, s.get (home ++ [name]) = d.get (home ++ [name]) := fun name =>
    hleft.outside _ fun hn => hn.not_private (h.toAtHome.private [name])
  have hstanding : Standing d₀.get tx (unknown tx (some e.role)) s home (onOf j.entries) := by
    refine (h.standing.frame_named hleft.free hleft.outside fun q hq => absurd hq (unknown_none q)).mono ?_
    exact fun q _ hq => ⟨e.role, rfl, hq⟩
  refine ⟨⟨hstanding.toAtHome, by rw [hprivate]; exact h.file, h.bound, h.readable⟩,
    ⟨hstanding, h.named, h.possible, h.room, ?_, fun a ha hother => ?_⟩, by rw [hprivate, h.alone]⟩
  case refine_2 =>
    have hnot : ¬Named tx e.role a.path := fun hn => hother e (by simp [hsplit]) (Named.eq_role hn (.inl rfl))
    rw [hleft.outside _ hnot, h.kept a ha hother]
  intro r hr
  obtain rfl := Option.mem_some.mp hr
  refine ⟨?_, horder⟩
  obtain ⟨q, hq, hfree, hget⟩ := hleft.left
  refine ⟨q, hq, hget, fun hret => ?_⟩
  obtain ⟨f, hstack, hagree⟩ := h.standing.stacked
  rw [← hfree, hagree q (hq.visible hret) (unknown_none q)]
  refine (hstack.other h.standing.named fun x hx _ hn => ?_).symm
  have hlt := horder x hx
  rw [Named.eq_role hn hq] at hlt
  exact Nat.lt_irrefl _ hlt

/-! ### From one round to the next -/

theorem finalHome_ne_bootstrapHome (name : String) : finalHome tx ≠ bootstrapHome tx ++ [name] := by
  intro heq
  have := congrArg List.length heq
  simp [finalHome, bootstrapHome, InstallRoleV1.path] at this

theorem not_named_child {r : InstallRoleV1} (child : String) : ¬Named tx r (r.path ++ [child]) := by
  intro hn
  obtain ⟨name, hname⟩ := hn.exists_name
  have := congrArg List.length hname
  simp [r.path_eq] at this

theorem Vacant.no_children (h : Vacant d.get e) (child : String) : d.get (e.role.path ++ [child]) = none := by
  cases hprior : e.priorState with
  | absent =>
    simp only [Vacant, hprior] at h
    exact h.2 child
  | priorOwned identity name =>
    simp only [Vacant, hprior] at h
    obtain ⟨-, n, hget, hfile, -⟩ := h
    exact get_under_file hget hfile child

/-- The object of the next entry has been placed: the old journal is still there, and the
new one describes the disk. -/
theorem Forward.applied {current : InstallObjectIdentityV1} {n : Node} {t : Disk} {next : InstallJournalV1}
    (h : Forward d₀ tx prepared j d) (hsplit : j.entries = done ++ e :: todo) (htodo : AllIn .pending (e :: todo))
    (ht : Placed d e current n t) (hnext : next = j.moved .applying (done ++ e.asApplied current none :: todo))
    (hvalid : next.Valid) : Holds t tx (homeOf d₀ tx j.entries) j ∧ t.get (homeOf d₀ tx j.entries ++ [journalSiblingBasename]) = none ∧
      Records d₀.get tx none (homeOf d₀ tx j.entries) next t := by
  have hentries : next.entries = done ++ e.asApplied current none :: todo := by
    rw [hnext]
    rfl
  have hstate : next.state = .applying := by
    rw [hnext]
    rfl
  have hmem : e ∈ j.entries := by simp [hsplit]
  have hnamed := h.named e hmem
  have hlayout : ∀ {x : InstallJournalEntryV1}, x ∈ next.entries → EntryLayout x := fun hx =>
    entryLayout_of_validate ((hvalid.entries (by simp [hstate])).valid _ hx)
  have hentry : EntryLayout e :=
    entryLayout_of_validate ((h.toRecorded.valid_journal.entries (by simp [h.state])).valid e hmem)
  have hentry' : EntryLayout (settled (e.asApplied current none)) := by
    have := hlayout (x := e.asApplied current none) (by simp [hentries])
    exact ⟨this.mode, this.uid, this.gid, this.kind, this.digest, this.absent, this.sibling, this.backup⟩
  have hon : onOf next.entries = onOf j.entries ++ [settled (e.asApplied current none)] := by
    rw [hentries, onOf_split rfl fun x hx => by simp [InstallJournalEntryV1.inForce, (allIn_cons.mp htodo).2 x hx], hsplit,
      onOf_append, onOf_pending htodo, List.append_nil]
  have hstanding := h.standing.extend (z := settled (e.asApplied current none)) unknown_none ht hnamed hentry rfl rfl rfl rfl
    (namedEntry_congr hnamed rfl rfl rfl) hentry'
  have hprivate : ∀ name, t.get (homeOf d₀ tx j.entries ++ [name]) = d.get (homeOf d₀ tx j.entries ++ [name]) := fun name => by
    rw [ht.get, placedOn_other hnamed fun hn => hn.not_private (h.toAtHome.private [name])]
  refine ⟨⟨hstanding.toAtHome, by rw [hprivate]; exact h.file, h.bound, h.readable⟩, by rw [hprivate, h.alone],
    ⟨by rw [hon]; exact hstanding, ?_, by rw [hnext]; exact h.possible, room_of_valid hvalid (.inl hstate),
      fun r hr => (by cases hr), fun a ha hother => ?_⟩⟩
  case refine_2 =>
    rw [hentries] at hother
    have hnot : ¬Named tx e.role a.path := fun hn =>
      hother (e.asApplied current none) (by simp) (Named.eq_role hn (.inl rfl))
    rw [ht.get, placedOn_other hnamed hnot]
    exact h.kept a ha (forall_role_ne_of_split hsplit (by rfl) hother)
  intro x hx
  rw [hentries] at hx
  have hold : ∀ y ∈ done ++ e :: todo, NamedEntry tx y := hsplit ▸ h.named
  rcases List.mem_append.mp hx with hx | hx
  · exact hold x (by simp [hx])
  · rcases List.mem_cons.mp hx with rfl | hx
    · exact namedEntry_congr hnamed rfl rfl rfl
    · exact hold x (by simp [hx])

theorem Forward.next_applied {current : InstallObjectIdentityV1} {n : Node} {t : Disk} {next : InstallJournalV1}
    (h : Forward d₀ tx prepared j d) (hsplit : j.entries = done ++ e :: todo) (hdone : AllIn .verified done)
    (htodo : AllIn .pending (e :: todo)) (ht : Placed d e current n t)
    (hnext : next = j.moved .applying (done ++ e.asApplied current none :: todo))
    (hrec : Recorded d₀.get tx none (homeOf d₀ tx j.entries) next s) (honly : Runner.OnlyAt (homeOf d₀ tx j.entries) t s) :
    Forward d₀ tx prepared next s := by
  have hentries : next.entries = done ++ e.asApplied current none :: todo := by
    rw [hnext]
    rfl
  have hpublished : published d₀ next.entries = published d₀ j.entries := by
    rw [hentries, hsplit]
    exact published_congr rfl (by simp [(allIn_cons.mp htodo).1]) (.inl (by simp [InstallJournalEntryV1.asApplied]))
  have hhome : homeOf d₀ tx next.entries = homeOf d₀ tx j.entries := by
    unfold homeOf
    rw [hpublished]
  have hok : EntriesOk j.entries := h.toRecorded.valid_journal.entries (by simp [h.state])
  have hnamed := h.named e (by simp [hsplit])
  have houtside : ∀ q, ¬Named tx e.role q → t.get q = d.get q := fun q hq => by rw [ht.get, placedOn_other hnamed hq]
  refine ⟨hhome.symm ▸ hrec, by rw [hnext]; rfl, ?_, ?_, ?_, ?_, by rw [hnext]; exact h.bindings⟩
  · intro hno
    rw [hpublished] at hno
    have hboot : homeOf d₀ tx j.entries = bootstrapHome tx := by simp [homeOf, hno]
    rw [honly _ fun name => by rw [hboot]; exact finalHome_ne_bootstrapHome name,
      houtside _ fun hn => hn.not_private (.inr (List.prefix_refl _)), h.free hno]
  · intro x hx happlied child
    rw [hentries] at hx
    rcases List.mem_append.mp hx with hx | hx
    · rw [hdone x hx] at happlied
      cases happlied
    · rcases List.mem_cons.mp hx with rfl | hx
      · show s.get (e.role.path ++ [child]) = none
        have hother : ¬Named tx e.role (e.role.path ++ [child]) := not_named_child child
        rw [honly.child hrec.toAtHome, houtside _ hother]
        exact ht.vacant.no_children child
      · rw [(allIn_cons.mp htodo).2 x hx] at happlied
        cases happlied
  · intro x hx hpending hret
    rw [hentries] at hx
    rcases List.mem_append.mp hx with hx | hx
    · rw [hdone x hx] at hpending
      cases hpending
    · rcases List.mem_cons.mp hx with rfl | hx
      · cases hpending
      · have hsorted := hok.sorted
        rw [hsplit, List.pairwise_append] at hsorted
        have hlt := List.rel_of_pairwise_cons hsorted.2.1 hx
        have hother : ¬Named tx e.role x.role.path := fun hn => by
          rw [Named.eq_role hn (.inl rfl)] at hlt
          exact Nat.lt_irrefl _ hlt
        rw [honly.path hrec.toAtHome, houtside _ hother]
        exact h.ahead x (by simp [hsplit, hx]) hpending hret
  · rw [hentries, ← h.origin, hsplit]
    simp [blank, InstallJournalEntryV1.asApplied]

/-- The object of an applied entry is what the journal says. -/
theorem Forward.inspect {current : InstallObjectIdentityV1} (h : Forward d₀ tx prepared j d) (hsplit : j.entries = done ++ e :: todo)
    (he : e.phase = .applied) (htodo : AllIn .pending todo) (hcur : e.currentIdentity = some current) :
    inspectExact d e.role = .ok current := by
  have hforce : e.inForce = true := by simp [InstallJournalEntryV1.inForce, he]
  have hon : onOf j.entries = onOf done ++ [settled e] := by
    rw [hsplit, onOf_split hforce fun x hx => by simp [InstallJournalEntryV1.inForce, htodo x hx]]
  have hstanding : Standing d₀.get tx (unknown tx none) d (homeOf d₀ tx j.entries) (onOf done ++ [settled e]) := hon ▸ h.standing
  have hapart := h.toRecords.apart (e := settled e) (by simp [hon])
  refine inspectExact_ok.mpr ⟨h.standing.selinux, hstanding.reach hapart, ?_⟩
  cases hret : e.role.isJournalRetentionDirectory with
  | true =>
    obtain ⟨info, found, hget, hident, hseen⟩ := hstanding.retained (settled e) (by simp) hret
    rw [show (settled e).currentIdentity = some current from hcur] at hident
    cases hident
    exact (inspectAt_of_empty hget (h.fresh e (by simp [hsplit]) he)).trans hseen
  | false =>
    obtain ⟨n, -, -, -, hclear⟩ := hstanding.seen hret hapart (show (settled e).currentIdentity = some current from hcur)
    exact (hclear fun _ child => unknown_none _).1

/-- A directory that is as it was meant to be. -/
theorem validDirectory_of_seen {n : Node} {links : Nat} {current : InstallObjectIdentityV1} (hlayout : EntryLayout e)
    (hdir : e.role.isDirectory = true) (hseen : inspectNode links n = .ok current)
    (hintended : current.matchesIntended e.intended = true) : ValidDirectory (some n) e.role.expectedMode := by
  unfold InstallObjectIdentityV1.matchesIntended at hintended
  simp only [Bool.and_eq_true, beq_iff_eq] at hintended
  obtain ⟨⟨⟨⟨hkind, -⟩, hmode⟩, huid⟩, hgid⟩ := hintended
  rw [hlayout.kind.mpr hdir] at hkind
  have hnode := (inspectNode_kind hseen).mpr hkind
  cases n with
  | directory info =>
    obtain ⟨hplain, rfl⟩ := inspectNode_directory hseen
    exact ⟨info, rfl, huid.trans hlayout.uid, hgid.trans hlayout.gid, hmode.trans hlayout.mode, hplain⟩
  | file | symlink | special => cases hnode

/-- Verifying an entry changes nothing that the journal describes. -/
theorem Forward.verified (h : Forward d₀ tx prepared j d) (hsplit : j.entries = done ++ e :: todo) (he : e.phase = .applied)
    (htodo : AllIn .pending todo) (hvalid : (j.moved .applying (done ++ {e with phase := .verified} :: todo)).Valid) :
    Records d₀.get tx none (homeOf d₀ tx j.entries) (j.moved .applying (done ++ {e with phase := .verified} :: todo)) d := by
  have hrest : ∀ x ∈ todo, x.inForce = false := fun x hx => by simp [InstallJournalEntryV1.inForce, htodo x hx]
  have hforce : e.inForce = true := by simp [InstallJournalEntryV1.inForce, he]
  have hon : onOf (done ++ {e with phase := .verified} :: todo) = onOf j.entries := by
    rw [hsplit, onOf_split hforce hrest, onOf_split rfl hrest]
    rfl
  refine ⟨?_, ?_, h.possible, room_of_valid hvalid (.inl rfl), fun r hr => (by cases hr),
    fun a ha hother => h.kept a ha (forall_role_ne_of_split hsplit (by rfl) hother)⟩
  · show Standing d₀.get tx (unknown tx none) d (homeOf d₀ tx j.entries) (onOf (done ++ {e with phase := .verified} :: todo))
    rw [hon]
    exact h.standing
  · intro x hx
    have hold : ∀ y ∈ done ++ e :: todo, NamedEntry tx y := hsplit ▸ h.named
    rcases List.mem_append.mp hx with hx | hx
    · exact hold x (by simp [hx])
    · rcases List.mem_cons.mp hx with rfl | hx
      · exact namedEntry_congr (hold e (by simp)) rfl rfl rfl
      · exact hold x (by simp [hx])

theorem Forward.next_verified {next : InstallJournalV1} (h : Forward d₀ tx prepared j d)
    (hsplit : j.entries = done ++ e :: todo) (hdone : AllIn .verified done) (htodo : AllIn .pending todo)
    (hnext : next = j.moved .applying (done ++ {e with phase := .verified} :: todo))
    (hrec : Recorded d₀.get tx none (homeOf d₀ tx next.entries) next s) (hsame : ∀ a : InstallRoleV1, s.get a.path = d.get a.path)
    (hfree : published d₀ next.entries = false → s.get (finalHome tx) = none) : Forward d₀ tx prepared next s := by
  have hentries : next.entries = done ++ {e with phase := .verified} :: todo := by
    rw [hnext]
    rfl
  refine ⟨hrec, by rw [hnext]; rfl, hfree, ?_, ?_, ?_, by rw [hnext]; exact h.bindings⟩
  · intro x hx happlied
    rw [hentries] at hx
    rcases List.mem_append.mp hx with hx | hx
    · rw [hdone x hx] at happlied
      cases happlied
    · rcases List.mem_cons.mp hx with rfl | hx
      · cases happlied
      · rw [htodo x hx] at happlied
        cases happlied
  · intro x hx hpending hret
    rw [hentries] at hx
    rw [hsame]
    rcases List.mem_append.mp hx with hx | hx
    · exact h.ahead x (by simp [hsplit, hx]) hpending hret
    · rcases List.mem_cons.mp hx with rfl | hx
      · cases hpending
      · exact h.ahead x (by simp [hsplit, hx]) hpending hret
  · rw [hentries, ← h.origin, hsplit]
    simp [blank]

namespace Runner
open Fs

/-! ### Rounds -/

/-- The next record of a journal on its way forward. -/
theorem persist_forward {reason : PersistReason} (hold : Holds d tx home j)
    (hfree : d.get (home ++ [journalSiblingBasename]) = none) (hstate : j.state = .prepared ∨ j.state = .applying)
    (hnew : Records d₀.get tx none home j' d) (hbound : j'.bindings.transactionId = tx) (hvalid : j'.Valid)
    (hstate' : j'.state = .applying ∨ j'.state = .installed)
    (hbefore : ∀ hit s, s.get = d.get → ApplyStop d₀ tx prepared (.fault hit) (.persist reason .check) s) :
    Meets (· = d) (fs (persistJournal reason j'))
      (fun _ s => Recorded d₀.get tx none home j' s ∧ OnlyAt home d s)
      (ApplyStops p d₀ tx prepared) := by
  refine Meets.mono (persist_recorded hold hfree hnew hbound hvalid) (fun s hs => hs) (fun _ s hs => hs) ?_
  intro cause at_ s ⟨⟨hit, hfault⟩, step, hat, hend⟩
  subst hfault
  refine ⟨fun err herr => (by cases herr), ?_⟩
  rw [hat]
  have hstray : ∀ {node : Node}, s.get = Function.update d.get (home ++ [journalSiblingBasename]) (some node) →
      Lost tx s ∧ ∀ err, (.fault hit : Cause Unit) = .refusal err → ∀ j, loadJournalExact s tx = .ok j → j.state = .prepared := by
    intro node hs
    refine ⟨lost_of_stray hold (by rcases hstate with h | h <;> simp [h]) hs fun action haction => ?_, fun err herr => by cases herr⟩
    obtain ⟨hrolling, -⟩ := InstallJournalV1.nextRollbackAction_some haction
    rcases hstate with h | h <;> (rw [h] at hrolling; cases hrolling)
  cases step with
  | check => exact hbefore hit s hend
  | write step =>
    cases step with
    | create =>
      have := hbefore hit s hend
      cases reason <;> exact this
    | write | own | mode | fileSync =>
      obtain ⟨node, hs⟩ := hend
      cases reason <;> exact hstray hs
  | rename =>
    obtain ⟨node, hs⟩ := hend
    cases reason <;> exact hstray hs
  | sync | validate =>
    have : ∃ home j, Recorded d₀.get tx none home j s ∧ (j.state = .applying ∨ j.state = .installed) :=
      ⟨home, j', hend.1, hstate'⟩
    cases reason <;> exact this

/-- A disk that the journal still describes. -/
theorem clean_of_get {cause : Cause Unit} {site : Site} (h : Forward d₀ tx prepared j d) (hs : s.get = d.get)
    (hclean : applyAftermath cause site = .clean) : ApplyStop d₀ tx prepared cause site s := by
  unfold ApplyStop
  rw [hclean]
  exact ⟨_, j, h.toRecorded.of_get hs, .inl h.state⟩

theorem leavesResidue_fault {ε ε' : Type} (hit : Fault) (step : EntrySite) :
    leavesResidue (.fault hit : Cause ε) step = leavesResidue (.fault hit : Cause ε') step := by
  cases hit <;> cases step <;> rfl

/-- **The round that applies an entry.** -/
theorem forwardRound_apply {step : Nat} {existed : Bool} (h : Forward d₀ tx prepared j d)
    (hsplit : j.entries = done ++ e :: todo) (hdone : AllIn .verified done) (he : e.phase = .pending)
    (hstep : j.durableStep + 1 < u64Bound) :
    Meets (· = d) (forwardRound p existed j (.apply step e.role))
      (fun j' s => Forward d₀ tx prepared j' s ∧ j'.durableStep = j.durableStep + 1 ∧ j'.entries.length = j.entries.length)
      (ApplyStops p d₀ tx prepared) := by
  have hvalid := h.toRecorded.valid_journal
  have hok : EntriesOk j.entries := hvalid.entries (by simp [h.state])
  have hmem : e ∈ j.entries := by simp [hsplit]
  have hentry := hok.valid e hmem
  have hnamed := h.named e hmem
  obtain ⟨n, hshape, -, -⟩ := hvalid.applying h.state
  rw [hsplit] at hshape
  have htodo : AllIn .pending (e :: todo) := allIn_cons.mpr ⟨he, (hshape.at_pending hdone he).1⟩
  have hon : onOf j.entries = onOf done := by rw [hsplit, onOf_append, onOf_pending htodo, List.append_nil]
  have horphan : ∀ {s : Disk}, Residue d tx e.role s → ∃ home j, Recorded d₀.get tx (some e.role) home j s ∧ j.state = .applying ∧
      (∀ x ∈ j.entries, x.role.installOrder < e.role.installOrder → x.inForce = true) ∧
      j.entries.map blank = prepared.entries.map blank := fun hs =>
    ⟨_, j, h.toRecorded.orphan h.state hsplit hdone htodo hs, h.state, (order_lt_of_split hok hsplit hdone htodo).2, h.origin⟩
  unfold forwardRound
  refine Meets.bind (Q := fun found s => found = e ∧ s = d) ?_ fun found => ?_
  · rw [InstallJournalV1.find_role_split hsplit hok]
    refine Meets.require (fun s err _ herr => ?_) fun s found hs hfound => ?_
    · cases herr
    · cases hfound
      exact ⟨rfl, hs⟩
  refine Meets.intro fun s₀ ⟨hfound, hs₀⟩ => ?_
  rw [hfound, hs₀]
  refine Meets.bind (Q := fun payload s => payloadFile p e.role = .ok payload ∧ s = d) ?_ fun payload => ?_
  · refine fs_meets (I := fun cause at_ s => at_ = .payload e.role ∧ s = d ∧
      ∀ err, cause = .refusal err → payloadFile p e.role = .error err) (Meets.look (fun hit s hs => ⟨rfl, hs, fun err herr => by
        cases herr⟩) (fun s err hs herr => ⟨rfl, hs, fun err' herr' => by cases herr'; exact herr⟩)
        (fun s payload hs hok => ⟨hok, hs⟩)) ?_ ?_
    · intro hit at_ s ⟨hat, hs, _⟩
      exact ⟨fun err herr => (by cases herr), clean_of_get h (by rw [hs]) (by rw [hat]; rfl)⟩
    · intro err at_ s ⟨hat, hs, hrefuse⟩
      refine ⟨fun _ _ hunobstructed => ?_, clean_of_get h (by rw [hs]) (by rw [hat]; rfl)⟩
      obtain ⟨payload, hpayload, -⟩ := hunobstructed.entries j d done todo e h hsplit hdone he
      rw [hrefuse err rfl] at hpayload
      cases hpayload
  refine Meets.intro fun s₁ ⟨hpayload, hs₁⟩ => ?_
  rw [hs₁]
  refine Meets.bind (Q := fun current s => ∃ n, Placed d e current n s) ?_ fun current => ?_
  · refine fs_meets (applyEntry_meets hentry hnamed) ?_ ?_
    · intro hit at_ s ⟨step, hat, hstop, _⟩
      refine ⟨fun err herr => (by cases herr), ?_⟩
      rw [hat]
      cases hres : leavesResidue (Cause.fault hit : Cause Unit) step with
      | true =>
        rw [leavesResidue_fault hit step, hres] at hstop
        simp only [ApplyStop, applyAftermath, hres, if_true]
        exact ⟨⟨hit, rfl⟩, horphan hstop⟩
      | false =>
        rw [leavesResidue_fault hit step, hres] at hstop
        exact clean_of_get h hstop (by simp [applyAftermath, hres])
    · intro err at_ s ⟨step, hat, hstop, hrefuse⟩
      refine ⟨fun _ _ hunobstructed => ?_, clean_of_get h hstop (by rw [hat]; rfl)⟩
      obtain ⟨payload', hpayload', hable⟩ := hunobstructed.entries j d done todo e h hsplit hdone he
      rw [hpayload] at hpayload'
      cases hpayload'
      exact hrefuse err rfl hable
  refine Meets.intro fun t ⟨n, ht⟩ => ?_
  have hseen : InstallJournalV1.Acceptable e current none := ⟨inspectNode_valid ht.seen (by decide), ht.intended, rfl⟩
  have hrecord := InstallJournalV1.recordApplied_eq hok h.state hsplit hdone he hstep hseen
  have hvalid' : (j.moved .applying (done ++ e.asApplied current none :: todo)).Valid :=
    valid_of_ok (o := .recordApplied e.role current none) hvalid hrecord fun hslip => hslip
  refine Meets.bind (record_ok hrecord) fun next => Meets.intro fun t' ⟨hnext, ht'⟩ => ?_
  rw [hnext, ht']
  obtain ⟨hholds, halone, hrecords⟩ := h.applied hsplit htodo ht rfl hvalid'
  refine Meets.bind (persist_forward hholds halone (.inr h.state) hrecords h.bound hvalid' (.inl rfl) fun hit s hs => ⟨⟨hit, rfl⟩, ?_⟩)
    fun _ => Meets.pure fun s hs => ⟨h.next_applied hsplit hdone htodo ht rfl hs.1 hs.2, rfl, by simp [InstallJournalV1.moved, hsplit]⟩
  have hresidue := ht.residue hnamed
  refine horphan ⟨hresidue.free, fun q hq => by rw [hs, hresidue.outside q hq], ?_⟩
  obtain ⟨q, hq, hfree, hleft⟩ := hresidue.left
  exact ⟨q, hq, hfree, by rwa [hs]⟩

theorem recorded_of_published (hrec : Recorded d₀.get tx none (bootstrapHome tx) j d) (hs : Published d tx j s) :
    Recorded d₀.get tx none (finalHome tx) j s where
  toHolds := hs.toHolds
  toRecords := hrec.toRecords.move hs.toAtHome hs.outside
  alone := by rw [hs.inside, hrec.alone]

/-- The directory of the transactions stands once it has been applied. -/
theorem transactionsOpen (h : Forward d₀ tx prepared j d) (hsplit : j.entries = done ++ e :: todo) (he : e.phase = .applied)
    (htodo : AllIn .pending todo) (hrole : e.role = .transactionsRoot) : TransactionsOpen d := by
  have hmem : e ∈ j.entries := by simp [hsplit]
  have hvalid := (h.toRecorded.valid_journal.entries (by simp [h.state])).valid e hmem
  obtain ⟨current, hcur, -, hintended⟩ := InstallJournalEntryV1.matchesIntended_of_validate hvalid (by simp [he])
  obtain ⟨-, hreach, hinspect⟩ := inspectExact_ok.mp (h.inspect hsplit he htodo hcur)
  intro a ha
  by_cases heq : a = .transactionsRoot
  · unfold inspectAt at hinspect
    split at hinspect
    · cases hinspect
    · rename_i n hget
      rw [heq, ← hrole, Stands, hget]
      exact validDirectory_of_seen (entryLayout_of_validate hvalid) (by rw [hrole]; rfl) hinspect hintended
  · exact hreach a ⟨by rw [hrole]; exact ha, by rw [hrole]; exact heq⟩

/-- **The round that verifies an entry.** -/
theorem forwardRound_verify {step : Nat} {current : InstallObjectIdentityV1} (h : Forward d₀ tx prepared j d)
    (hsplit : j.entries = done ++ e :: todo) (hdone : AllIn .verified done) (he : e.phase = .applied)
    (hcur : e.currentIdentity = some current) (hstep : j.durableStep + 1 < u64Bound) :
    Meets (· = d) (forwardRound p (d₀.get InstallRoleV1.transactionsRoot.path).isSome j (.verify step e.role current))
      (fun j' s => Forward d₀ tx prepared j' s ∧ j'.durableStep = j.durableStep + 1 ∧ j'.entries.length = j.entries.length)
      (ApplyStops p d₀ tx prepared) := by
  have hvalid := h.toRecorded.valid_journal
  have hok : EntriesOk j.entries := hvalid.entries (by simp [h.state])
  obtain ⟨n, hshape, -, -⟩ := hvalid.applying h.state
  rw [hsplit] at hshape
  have htodo : AllIn .pending todo := (hshape.at_applied hdone he).1
  have hinspect := h.inspect hsplit he htodo hcur
  unfold forwardRound
  refine Meets.bind (Q := fun _ s => s = d) ?_ fun _ => ?_
  · refine fs_meets (I := fun cause at_ s => (∃ hit, cause = .fault hit) ∧ at_ = .verify e.role ∧ s = d)
      (Meets.look (fun hit s hs => ⟨⟨hit, rfl⟩, rfl, hs⟩) ?_ (fun s _ hs _ => hs)) ?_ ?_
    · intro s err hs herr
      rw [hs, hinspect] at herr
      simp [bind, Except.bind] at herr
    · rintro hit at_ s ⟨_, hat, hs⟩
      exact ⟨fun err herr => (by cases herr), clean_of_get h (by rw [hs]) (by rw [hat]; rfl)⟩
    · rintro err at_ s ⟨⟨hit, hfault⟩, _⟩
      cases hfault
  have hrecord := InstallJournalV1.recordVerified_eq hok h.state hsplit hdone he hcur hstep
  have hvalid' : (j.moved .applying (done ++ {e with phase := .verified} :: todo)).Valid :=
    valid_of_ok (o := .recordVerified e.role current) hvalid hrecord fun hslip => hslip
  refine Meets.bind (record_ok hrecord) fun next => Meets.intro fun t hmet => ?_
  obtain ⟨hnext, ht⟩ := hmet
  rw [hnext, ht]
  have hrecords : Records d₀.get tx none (homeOf d₀ tx j.entries) (j.moved .applying (done ++ {e with phase := .verified} :: todo)) d :=
    h.verified hsplit he htodo hvalid'
  refine Meets.bind (persist_forward h.toHolds h.alone (.inr h.state) hrecords h.bound hvalid' (.inl rfl)
    fun cause s hs => clean_of_get h hs rfl) fun _ => Meets.intro fun t hmet => ?_
  obtain ⟨hrec, honly⟩ := hmet
  have hat := h.toAtHome
  refine Meets.bind (Q := fun _ s => Forward d₀ tx prepared (j.moved .applying (done ++ {e with phase := .verified} :: todo)) s)
    ?_ fun _ => Meets.pure fun s hs => ⟨hs, rfl, by simp [InstallJournalV1.moved, hsplit]⟩
  generalize hnext : j.moved .applying (done ++ {e with phase := .verified} :: todo) = next at hrec hvalid'
  have hentries : next.entries = done ++ {e with phase := .verified} :: todo := by
    rw [← hnext]
    rfl
  have hunpublished : published d₀ j.entries = false → t.get (finalHome tx) = none := by
    intro hno
    have hboot : homeOf d₀ tx j.entries = bootstrapHome tx := by simp [homeOf, hno]
    rw [honly _ fun name => by rw [hboot]; exact finalHome_ne_bootstrapHome name, h.free hno]
  unfold publishIf
  by_cases hpub : (e.role = .transactionsRoot && !(d₀.get InstallRoleV1.transactionsRoot.path).isSome) = true
  · -- the journal moves among the transactions
    rw [if_pos hpub]
    simp only [Bool.and_eq_true, decide_eq_true_eq, Bool.not_eq_true'] at hpub
    have hno : published d₀ j.entries = false := by
      have hbefore := InstallJournalV1.role_ne_before hsplit hok
      have hdone' : ∀ x ∈ done, ¬x.role = .transactionsRoot := fun x hx heq => by
        have := hbefore x hx
        rw [heq, hpub.1] at this
        simp at this
      have htodo' : ∀ x ∈ todo, x.phase ≠ .verified := fun x hx => by simp [htodo x hx]
      simp only [published, hsplit, hpub.2, Bool.false_or, List.any_append, List.any_cons, Bool.or_eq_false_iff,
        List.any_eq_false, Bool.and_eq_true, decide_eq_true_eq, not_and]
      exact ⟨fun x hx hrole => absurd hrole (hdone' x hx), by simp [he], fun x hx _ => htodo' x hx⟩
    have hyes : homeOf d₀ tx next.entries = finalHome tx := by
      simp [homeOf, published, hentries, hpub.1]
    have hboot : homeOf d₀ tx j.entries = bootstrapHome tx := by simp [homeOf, hno]
    rw [hboot] at hrec
    have hopen : TransactionsOpen t := fun a ha =>
      (transactionsOpen h hsplit he htodo hpub.1 a ha).congr (honly.path hat a)
    refine fs_meets (Meets.mono (publish_meets hrec.toHolds (hunpublished hno)) (fun s hs => hs) ?_ (fun _ _ _ hI => hI)) ?_ ?_
    · rintro _ s ⟨hs, _⟩
      refine h.next_verified hsplit hdone htodo hnext.symm ?_ ?_ ?_
      · rw [hyes]
        exact recorded_of_published hrec hs
      · intro a
        rw [hs.outside _ (not_private_path a), honly.path hat a]
      · intro hfalse
        simp [published, hentries, hpub.1] at hfalse
    · rintro hit at_ s ⟨⟨step, hat, hstop⟩, _⟩
      refine ⟨fun err herr => (by cases herr), ?_⟩
      rw [hat]
      cases step with
      | check | move => exact ⟨_, next, hrec.of_get hstop, .inl (by rw [← hnext]; rfl)⟩
      | sync | parentSync => exact ⟨_, next, recorded_of_published hrec hstop, .inl (by rw [← hnext]; rfl)⟩
    · rintro err at_ s ⟨_, hrefuse⟩
      exact absurd hopen (hrefuse err rfl)
  · rw [if_neg hpub]
    have hsame : published d₀ next.entries = published d₀ j.entries := by
      rw [hentries, hsplit]
      by_cases hrole : e.role = .transactionsRoot
      · have hexisted : (d₀.get InstallRoleV1.transactionsRoot.path).isSome = true := by
          rw [hrole] at hpub
          simpa [Option.isSome_iff_ne_none] using hpub
        simp [published, hexisted]
      · exact published_congr rfl (by simp [he]) (.inr hrole)
    have hhome : homeOf d₀ tx next.entries = homeOf d₀ tx j.entries := by
      unfold homeOf
      rw [hsame]
    refine Meets.pure fun s hs => ?_
    rw [hs]
    exact h.next_verified hsplit hdone htodo hnext.symm (hhome.symm ▸ hrec) (honly.path hat) (hsame ▸ hunpublished)

/-- The disk before the first round: nothing has changed but the journal's own paths. -/
structure Opened (d₀ : Disk) (tx : String) (prepared : InstallJournalV1) (s : Disk) : Prop extends
    Holds s tx (homeOf d₀ tx prepared.entries) prepared where
  alone : s.get (homeOf d₀ tx prepared.entries ++ [journalSiblingBasename]) = none
  outside : ∀ q, ¬Private tx q → s.get q = d₀.get q
  free : published d₀ prepared.entries = false → s.get (finalHome tx) = none
  selinux : ensureSelinuxIsNotEnforcing d₀ = .ok ()

theorem lost_of_prepared {cause : Cause Unit} (h : Holds s tx home prepared) (hstate : prepared.state = .prepared) :
    Lost tx s ∧ ∀ err, cause = .refusal err → ∀ j, loadJournalExact s tx = .ok j → j.state = .prepared := by
  refine ⟨lost_of_holds h (by simp [hstate]) (stuck_of_prepared hstate), fun _ _ j hload => ?_⟩
  rw [h.load] at hload
  cases hload
  exact hstate

/-- The journal is written, and moved at once if the transactions have a directory already. -/
theorem open_meets (hclaim : Unclaimed d₀ tx) (hbound : prepared.bindings.transactionId = tx) (hvalid : prepared.Valid)
    (hstate : prepared.state = .prepared) {β : Type} {k : Option InstallObjectIdentityV1 → Runner β} {Q : β → Disk → Prop}
    (hk : ∀ found, found.isSome = (d₀.get InstallRoleV1.transactionsRoot.path).isSome →
      Meets (Opened d₀ tx prepared) (k found) Q (ApplyStops p d₀ tx prepared)) :
    Meets (· = d₀) (do
        fs (bootstrapJournal prepared)
        let found ← fs (look .probe fun d => inspectOptionalExact d .transactionsRoot)
        publishIf found.isSome true prepared
        k found) Q (ApplyStops p d₀ tx prepared) := by
  have hreadable : prepared.validate = .ok () := (InstallJournalV1.validate_iff prepared).mpr hvalid
  have hpending : AllIn .pending prepared.entries := (InstallJournalV1.progress_of_state hvalid hstate).2.1
  have hpublished : published d₀ prepared.entries = (d₀.get InstallRoleV1.transactionsRoot.path).isSome := by
    have hnone : (prepared.entries.any fun e => e.role = .transactionsRoot && e.phase = .verified) = false :=
      List.any_eq_false.mpr fun x hx => by simp [hpending x hx]
    rw [published, hnone, Bool.or_false]
  refine Meets.bind (Q := fun _ s => Bootstrapped d₀ tx prepared s) ?_ fun _ => ?_
  · have hlost : ∀ {s : Disk} {step : BootstrapSite} {cause : Cause Unit}, Drafted d₀ tx prepared s →
        ApplyStop d₀ tx prepared cause (.bootstrap step) s := by
      intro s step cause hs
      have hsame : ∀ j, loadJournalExact s tx = .ok j → j = prepared := fun j hload => hs.load hclaim hload
      refine ⟨fun j hload => ?_, fun _ _ j hload => by rw [hsame j hload, hstate]⟩
      rw [hsame j hload]
      exact ⟨by simp [hstate], stuck_of_prepared hstate⟩
    refine fs_meets (bootstrap_meets hclaim hbound hreadable) ?_ ?_
    · intro hit at_ s ⟨⟨step, hat⟩, hs, _⟩
      exact ⟨fun err herr => (by cases herr), by rw [hat]; exact hlost hs⟩
    · intro err at_ s ⟨⟨step, hat⟩, hs, hrefuse⟩
      refine ⟨fun _ _ hunobstructed => ?_, by rw [hat]; exact hlost hs⟩
      obtain ⟨found, hfound⟩ := hunobstructed.start
      rw [hrefuse err rfl] at hfound
      cases hfound
  refine Meets.bind (Q := fun found s => found.isSome = (d₀.get InstallRoleV1.transactionsRoot.path).isSome ∧
    Bootstrapped d₀ tx prepared s) ?_ fun found => ?_
  · refine fs_meets (I := fun cause at_ s => at_ = .probe ∧ Bootstrapped d₀ tx prepared s ∧
      ∀ err, cause = .refusal err → inspectOptionalExact s .transactionsRoot = .error err)
      (Meets.look (fun hit s hs => ⟨rfl, hs, fun err herr => by cases herr⟩)
        (fun s err hs herr => ⟨rfl, hs, fun err' herr' => by cases herr'; exact herr⟩) fun s found hs hfound => ⟨?_, hs⟩) ?_ ?_
    · rw [inspectOptionalExact_isSome hfound, hs.outside _ (not_bootstrapHome_prefix_path _)]
    · intro hit at_ s ⟨hat, hs, _⟩
      exact ⟨fun err herr => (by cases herr), by rw [hat]; exact lost_of_prepared hs.toHolds hstate⟩
    · intro err at_ s ⟨hat, hs, hrefuse⟩
      refine ⟨fun _ _ hunobstructed => ?_, by rw [hat]; exact lost_of_prepared hs.toHolds hstate⟩
      obtain ⟨found, hfound⟩ := hunobstructed.probe s hs
      rw [hrefuse err rfl] at hfound
      cases hfound
  refine Meets.intro fun s ⟨hfound, hs⟩ => ?_
  have houtside : ∀ q, ¬Private tx q → s.get q = d₀.get q := fun q hq => hs.outside q fun hb => hq (.inl hb)
  have hfree : s.get (finalHome tx) = none := by rw [hs.outside _ not_bootstrapHome_prefix_finalHome, hclaim.2]
  refine Meets.bind (Q := fun _ => Opened d₀ tx prepared) ?_ fun _ => hk found hfound
  unfold publishIf
  by_cases hexists : found.isSome = true
  · rw [if_pos hexists]
    rw [hexists] at hfound
    have hhome : homeOf d₀ tx prepared.entries = finalHome tx := by simp [homeOf, hpublished, ← hfound]
    refine fs_meets (Meets.mono (publish_meets hs.toHolds hfree) (fun t ht => ht) ?_ (fun _ _ _ hI => hI)) ?_ ?_
    · intro _ t ⟨ht, _⟩
      refine ⟨hhome.symm ▸ ht.toHolds, by rw [hhome, ht.inside, hs.alone], fun q hq => by rw [ht.outside q hq, houtside q hq],
        fun hno => ?_, hs.selinux⟩
      rw [hpublished, ← hfound] at hno
      cases hno
    · intro hit at_ t ⟨⟨step, hat, hstop⟩, _⟩
      refine ⟨fun err herr => (by cases herr), ?_⟩
      rw [hat]
      cases step with
      | check | move => exact lost_of_prepared (hs.toHolds.of_get hstop) hstate
      | sync | parentSync => exact lost_of_prepared hstop.toHolds hstate
    · intro err at_ t ⟨⟨step, hat, hstop⟩, hrefuse⟩
      refine ⟨fun _ _ hunobstructed => hrefuse err rfl (hunobstructed.opened hfound.symm s hs), ?_⟩
      rw [hat]
      cases step with
      | check | move => exact lost_of_prepared (hs.toHolds.of_get hstop) hstate
      | sync | parentSync => exact lost_of_prepared hstop.toHolds hstate
  · rw [if_neg hexists]
    rw [Bool.not_eq_true] at hexists
    rw [hexists] at hfound
    have hhome : homeOf d₀ tx prepared.entries = bootstrapHome tx := by simp [homeOf, hpublished, ← hfound]
    refine Meets.pure fun t ht => ?_
    rw [ht]
    exact ⟨hhome.symm ▸ hs.toHolds, by rw [hhome]; exact hs.alone, houtside, fun _ => hfree, hs.selinux⟩

/-- On the disk of `Opened` no entry is in force. -/
theorem Opened.standing (h : Opened d₀ tx prepared s) : Standing d₀.get tx (unknown tx none) s (homeOf d₀ tx prepared.entries) [] where
  toAtHome := h.toAtHome
  selinux := by
    have := h.selinux
    unfold ensureSelinuxIsNotEnforcing at this ⊢
    rwa [h.outside _ selinux_visible.1]
  stacked := ⟨d₀.get, .base, fun q hq _ => h.outside q hq.1⟩
  retained := fun e he => by cases he
  anchors := fun e he => by cases he
  named := fun e he => by cases he
  layout := fun e he => by cases he
  rooted := fun e he => by cases he

/-- The entries once all rounds are done. -/
structure Installed (d₀ : Disk) (tx : String) (prepared j : InstallJournalV1) (s : Disk) : Prop extends
    Recorded d₀.get tx none (homeOf d₀ tx j.entries) j s where
  state : j.state = .installed
  verified : AllIn .verified j.entries
  origin : j.entries.map blank = prepared.entries.map blank
  bindings : j.bindings = prepared.bindings

/-- The last step of a journal on its way forward is its second one for the last entry. -/
theorem nextForwardAction_of_full (h : j.Valid) (hstate : j.state = .applying)
    (hfull : j.durableStep = 2 + 2 * j.entries.length) : j.nextForwardAction = none := by
  obtain ⟨n, hshape, hstep, -⟩ := h.applying hstate
  obtain ⟨done, rest, hsplit, hdone, hrest⟩ := hshape.cut
  have hsum : j.entries.length = done.length + rest.length := by rw [hsplit, List.length_append]
  refine nextForwardAction_none ?_
  rcases hrest with ⟨-, hn⟩ | ⟨e, todo, rfl, -, -, hn⟩
  · have hnil : rest = [] := List.length_eq_zero_iff.mp (by omega)
    rw [hsplit, hnil, List.append_nil]
    exact hdone
  · rw [List.length_cons] at hsum
    omega

/-- **Applying a prepared journal.** -/
theorem applyPrepared_meets (hclaim : Unclaimed d₀ tx) (hbound : prepared.bindings.transactionId = tx)
    (hvalid : prepared.Valid) (hstate : prepared.state = .prepared) (hnamed : ∀ e ∈ prepared.entries, NamedEntry tx e) :
    Meets (· = d₀) (applyPrepared p prepared) (fun _ s => ∃ j, Installed d₀ tx prepared j s)
      (ApplyStops p d₀ tx prepared) := by
  obtain ⟨hone, hpending, hcode⟩ : prepared.durableStep = 1 ∧ AllIn .pending prepared.entries ∧ prepared.failureCode = none :=
    InstallJournalV1.progress_of_state hvalid hstate
  have hpossible : prepared.rollbackPossible = true := by
    cases hp : prepared.rollbackPossible with
    | true => rfl
    | false => exact absurd hcode (hvalid.possible hp)
  have hbig : 256 < u64Bound := by decide
  have hstart := InstallJournalV1.startApplying_eq hstate (by omega)
  have hstarted : (prepared.moved .applying prepared.entries).Valid :=
    valid_of_ok (o := .startApplying) hvalid hstart fun hslip => hslip
  unfold applyPrepared
  refine open_meets hclaim hbound hvalid hstate fun found hfound => Meets.intro fun s hs => ?_
  refine Meets.bind (record_ok hstart) fun started => Meets.intro fun s' ⟨hstarted', hs'⟩ => ?_
  rw [hstarted', hs']
  have hrecords : Records d₀.get tx none (homeOf d₀ tx prepared.entries) (prepared.moved .applying prepared.entries) s := by
    refine ⟨?_, hnamed, hpossible, room_of_valid hstarted (.inl rfl), fun r hr => (by cases hr),
      fun a _ _ => hs.outside _ (not_private_path a)⟩
    show Standing d₀.get tx (unknown tx none) s (homeOf d₀ tx prepared.entries) (onOf prepared.entries)
    rw [onOf_pending hpending]
    exact hs.standing
  refine Meets.bind (persist_forward hs.toHolds hs.alone (.inl hstate) hrecords hbound hstarted (.inl rfl)
    fun cause t ht => lost_of_prepared (hs.toHolds.of_get ht) hstate) fun _ => Meets.intro fun t ⟨hrec, honly⟩ => ?_
  have hforward : Forward d₀ tx prepared (prepared.moved .applying prepared.entries) t := by
    refine ⟨hrec, rfl, fun hno => ?_, fun e he happlied => ?_, fun e he _ _ => ?_, rfl, rfl⟩
    · have hboot : homeOf d₀ tx prepared.entries = bootstrapHome tx := by
        rw [homeOf, if_neg]
        rw [Bool.not_eq_true]
        exact hno
      rw [honly _ fun name => by rw [hboot]; exact finalHome_ne_bootstrapHome name, hs.free hno]
    · rw [hpending e he] at happlied
      cases happlied
    · rw [honly.path hs.toAtHome, hs.outside _ (not_private_path _)]
  refine Meets.bind (Q := fun applied u => Forward d₀ tx prepared applied u ∧ applied.nextForwardAction = none) ?_
    fun applied => ?_
  · refine Meets.mono (Meets.loop (I := ApplyStops p d₀ tx prepared)
      (J := fun k journal u => Forward d₀ tx prepared journal u ∧ journal.durableStep + k = 2 + 2 * journal.entries.length)
      ?_ ?_ _ (2 * prepared.entries.length) (Nat.le_refl _) _) (fun u hu => ?_) ?_ (fun _ _ _ hI => hI)
    · intro k journal body hbody
      obtain ⟨action, hnext, rfl⟩ := Option.map_eq_some_iff.mp hbody
      refine Meets.intro fun u ⟨hu, hcount⟩ => ?_
      obtain ⟨-, hstep, done, e, todo, hsplit, hdone, hcases⟩ := InstallJournalV1.nextForwardAction_some hnext
      have hafter : ∀ (j' : InstallJournalV1) (v : Disk), Forward d₀ tx prepared j' v ∧ j'.durableStep = journal.durableStep + 1 ∧
          j'.entries.length = journal.entries.length →
          Forward d₀ tx prepared j' v ∧ j'.durableStep + k = 2 + 2 * j'.entries.length := fun j' v ⟨hv, hstep', hlength⟩ =>
        ⟨hv, by omega⟩
      rcases hcases with ⟨he, rfl⟩ | ⟨he, current, hcur, rfl⟩
      · exact Meets.mono (forwardRound_apply hu hsplit hdone he hstep) (fun v hv => hv) hafter (fun _ _ _ hI => hI)
      · rw [hfound]
        exact Meets.mono (forwardRound_verify hu hsplit hdone he hcur hstep) (fun v hv => hv) hafter (fun _ _ _ hI => hI)
    · intro journal u ⟨hu, hcount⟩
      show journal.nextForwardAction.map _ = none
      rw [nextForwardAction_of_full hu.toRecorded.valid_journal hu.state (by omega)]
      rfl
    · rw [hu]
      refine ⟨hforward, ?_⟩
      show prepared.durableStep + 1 + 2 * prepared.entries.length = 2 + 2 * prepared.entries.length
      omega
    · intro journal u ⟨hnext, k, hu, _⟩
      exact ⟨hu, by simpa using hnext⟩
  refine Meets.intro fun u ⟨hu, hnext⟩ => ?_
  have hvalid' := hu.toRecorded.valid_journal
  obtain ⟨hverified, hlast⟩ := hvalid'.all_verified hu.state hnext hu.toRecords.step_lt
  have hmark := InstallJournalV1.markInstalled_eq hu.state hnext (hvalid'.entries (by simp [hu.state])).nonempty
    hu.toRecords.step_lt
  have hinstalled : (applied.moved .installed applied.entries).Valid :=
    valid_of_ok (o := .markInstalled) hvalid' hmark fun hslip => hslip
  refine Meets.bind (record_ok hmark) fun final => Meets.intro fun v ⟨hfinal, hv⟩ => ?_
  rw [hfinal, hv]
  refine Meets.mono (persist_forward hu.toHolds hu.alone (.inr hu.state)
    ⟨hu.standing, hu.named, hu.possible, room_of_valid hinstalled (.inr rfl), fun r hr => (by cases hr), hu.kept⟩ hu.bound hinstalled
    (.inr rfl) fun cause w hw => clean_of_get hu hw rfl) (fun w hw => hw) ?_ (fun _ _ _ hI => hI)
  intro _ w ⟨hw, _⟩
  exact ⟨applied.moved .installed applied.entries, hw, rfl, hverified, hu.origin, hu.bindings⟩

end Runner

end NetworkLoop.Install
