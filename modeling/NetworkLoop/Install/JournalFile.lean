import NetworkLoop.Install.DiskProofs
import NetworkLoop.Install.Filesystem

/-! What the steps on the journal's own files do.

A journal lies in its home, first under a name of its own in `/var/lib`, later among the
transactions. Each of the three operations leaves every other path alone, and for each of
them its triple says what the home looks like wherever it stops: `persist_meets` is where
a stop can leave the journal's sibling behind, which no later `persist_journal` accepts. -/
namespace NetworkLoop.Install
open Library Program Disk

/-! ### A journal at home -/

/-- The directory in which `open_transaction_directory` finds the journal. -/
structure AtHome (d : Disk) (tx : String) (home : Path) : Prop where
  id : ensureTransactionId tx = .ok ()
  place : home = bootstrapHome tx ∨ home = finalHome tx ∧ d.get (bootstrapHome tx) = none
  above : ∀ a : InstallRoleV1, a.path <+: home → Stands d a
  valid : ValidDirectory (d.get home) 0o700

/-- The file of a journal, as `write_new_journal` leaves it. -/
def WrittenJournal (j : InstallJournalV1) (node : Node) : Prop :=
  ∃ info, node = .file info 1 (.journal j) ∧ info.uid = 0 ∧ info.gid = 0 ∧ info.mode = 0o600 ∧ info.plain = true

/-- The journal is on disk, alone in its home. -/
structure Holds (d : Disk) (tx : String) (home : Path) (j : InstallJournalV1) : Prop extends AtHome d tx home where
  file : ∃ node, d.get (home ++ [journalBasename]) = some node ∧ WrittenJournal j node
  bound : j.bindings.transactionId = tx
  readable : j.validate = .ok ()

variable {d s : Disk} {tx : String} {home : Path} {j j' : InstallJournalV1}

theorem journalSiblingBasename_ne : journalSiblingBasename ≠ journalBasename := by
  decide

theorem varLibRoot_prefix_home (h : AtHome d tx home) : InstallRoleV1.varLibRoot.path <+: home := by
  rcases h.place with rfl | ⟨rfl, -⟩
  · exact List.prefix_append ..
  · have hvar : InstallRoleV1.varLibRoot.path <+: InstallRoleV1.transactionsRoot.path := by decide
    exact hvar.trans (List.prefix_append ..)

theorem openPrivateDirectory_ok {parent : Path} {name : String} (h : ValidDirectory (d.get (parent ++ [name])) 0o700) :
    openPrivateDirectory d parent name = .ok (parent ++ [name]) := by
  have ⟨info, hget, _⟩ := h
  have hopen : openatDirectory d parent name = .ok (parent ++ [name]) := by
    simp only [openatDirectory, openatDirectoryOptional, hget]
    rfl
  have hvalid : validateDirectory d (parent ++ [name]) 0o700 = .ok () := validateDirectory_iff.mpr h
  rw [openPrivateDirectory, hopen]
  exact bind_unit_eq_ok.mpr ⟨hvalid, rfl⟩

theorem Disk.ValidDirectory.isSome {node : Option Node} {mode : Nat} (h : ValidDirectory node mode) : node.isSome = true := by
  obtain ⟨info, rfl, -⟩ := h
  rfl

theorem AtHome.open (h : AtHome d tx home) : openTransactionDirectory d tx = .ok home := by
  have hvar : openStaticDirectory d InstallRoleV1.varLibRoot.path = .ok InstallRoleV1.varLibRoot.path :=
    (openStaticDirectory_ok (List.prefix_refl _)).mpr ⟨rfl, fun a ha => h.above a (ha.trans (varLibRoot_prefix_home h))⟩
  unfold openTransactionDirectory
  rw [h.id, hvar]
  simp only [bind, Except.bind]
  rcases h.place with rfl | ⟨rfl, hboot⟩
  · have hthere : entryExistsAt d InstallRoleV1.varLibRoot.path (bootstrapName tx) = true := h.valid.isSome
    rw [if_pos hthere]
    exact openPrivateDirectory_ok h.valid
  · have hnot : ¬entryExistsAt d InstallRoleV1.varLibRoot.path (bootstrapName tx) = true := by
      simp only [entryExistsAt]
      rw [show d.get (InstallRoleV1.varLibRoot.path ++ [bootstrapName tx]) = none from hboot]
      simp
    have hfinal : openStaticDirectory d InstallRoleV1.transactionsRoot.path = .ok InstallRoleV1.transactionsRoot.path :=
      (openStaticDirectory_ok (List.prefix_refl _)).mpr ⟨rfl, fun a ha => h.above a (ha.trans (List.prefix_append ..))⟩
    have hthere : entryExistsAt d InstallRoleV1.transactionsRoot.path tx = true := h.valid.isSome
    rw [if_neg hnot, hfinal]
    simp only [hthere, if_true]
    exact openPrivateDirectory_ok h.valid

theorem AtHome.congr (h : AtHome d tx home) (habove : ∀ a : InstallRoleV1, a.path <+: home → s.get a.path = d.get a.path)
    (hboot : s.get (bootstrapHome tx) = d.get (bootstrapHome tx)) (hhome : s.get home = d.get home) :
    AtHome s tx home where
  id := h.id
  place := by
    rw [hboot]
    exact h.place
  above := fun a ha => (h.above a ha).congr (habove a ha)
  valid := by
    rw [hhome]
    exact h.valid

theorem decodeJournal_of_written {node : Node} (hget : d.get (home ++ [journalBasename]) = some node)
    (hnode : WrittenJournal j node) (hvalid : j.validate = .ok ()) : decodeJournal d home = .ok j := by
  obtain ⟨info, rfl, huid, hgid, hmode, hplain⟩ := hnode
  simp only [decodeJournal, hget, huid, hgid, hmode, ensureSupportedMetadata, hplain, if_true, hvalid]
  rfl

theorem Holds.decode (h : Holds d tx home j) : decodeJournal d home = .ok j := by
  obtain ⟨node, hget, hnode⟩ := h.file
  exact decodeJournal_of_written hget hnode h.readable

theorem Holds.read (h : Holds d tx home j) : readJournalFile d home tx = .ok j := by
  rw [readJournalFile, h.decode]
  simp [bind, Except.bind, h.bound]

theorem Holds.load (h : Holds d tx home j) : loadJournalExact d tx = .ok j := by
  rw [loadJournalExact, h.toAtHome.open]
  exact h.read

/-- A path under the home is none of those that lead to it. -/
theorem home_append_ne (name : String) (a : InstallRoleV1) (ha : a.path <+: home) : a.path ≠ home ++ [name] := by
  intro heq
  have := ha.length_le
  rw [heq, List.length_append, List.length_singleton] at this
  omega

theorem AtHome.bootstrapHome_ne (h : AtHome d tx home) (name : String) : bootstrapHome tx ≠ home ++ [name] := by
  intro heq
  have hlen := congrArg List.length heq
  rcases h.place with rfl | ⟨rfl, -⟩
  · rw [List.length_append, List.length_singleton] at hlen
    omega
  · simp [bootstrapHome, finalHome, InstallRoleV1.path] at hlen

/-- A change of one name in the home does not move it. -/
theorem AtHome.update (h : AtHome d tx home) {name : String} {node : Option Node}
    (hs : s.get = Function.update d.get (home ++ [name]) node) : AtHome s tx home := by
  refine h.congr ?_ ?_ ?_
  · intro a ha
    rw [hs, Function.update_of_ne (home_append_ne name a ha)]
  · rw [hs, Function.update_of_ne (h.bootstrapHome_ne name)]
  · rw [hs, Function.update_of_ne (by simp)]

theorem AtHome.private (h : AtHome d tx home) (rest : List String) : Private tx (home ++ rest) := by
  rcases h.place with rfl | ⟨rfl, -⟩
  · exact .inl (List.prefix_append ..)
  · exact .inr (List.prefix_append ..)

namespace Fs

/-! ### Small steps -/

theorem syncAll_meets {P : Disk → Prop} {I : Cause InstallIoError → Site → Disk → Prop} {site : Site}
    (hfault : ∀ f s, P s → I (.fault f) site s) : Meets P (syncAll site) (fun _ => P) I :=
  Meets.look hfault (fun _ _ _ h => by cases h) (fun _ _ hs _ => hs)

/-- The owner and the mode, set. -/
def owned (uid gid bits : Nat) (info : Metadata) : Metadata :=
  {info with
    uid := uid
    gid := gid
    mode := bits % 0o10000
    mode_le := permissionBits_le bits}

/-- `set_owner_mode` on a node that stands there does not refuse. -/
theorem setOwnerMode_meets {f : Path → Option Node} {p : Path} {b : String} {n : Node} {u v : Site}
    {x y z : Nat} : Meets (fun s => s.get = Function.update f (p ++ [b]) (some n))
      (setOwnerMode u v (p ++ [b]) x y z)
      (fun _ s => s.get = Function.update f (p ++ [b]) (some (n.withInfo (owned x y z))))
      (fun cause site s => (∃ hit, cause = .fault hit) ∧ (site = u ∨ site = v) ∧
        ∃ g, s.get = Function.update f (p ++ [b]) (some (n.withInfo g))) := by
  have hat : ∀ {s : Disk} {m : Node}, s.get = Function.update f (p ++ [b]) (some m) →
      s.get (p ++ [b]) = some m := fun hs => by rw [hs, Function.update_self]
  have hset : ∀ {s s' : Disk} {m : Node} {g : Node → Node}, s.get = Function.update f (p ++ [b]) (some m) →
      alter s (p ++ [b]) g = .ok s' → s'.get = Function.update f (p ++ [b]) (some (g m)) := by
    intro s s' m g hs hok
    obtain ⟨m', hm', hs'⟩ := alter_ok hok
    rw [hat hs] at hm'
    cases hm'
    rw [hs', hs, Function.update_idem]
  have hno : ∀ {s : Disk} {m : Node} {g : Metadata → Metadata} {e : InstallIoError},
      s.get = Function.update f (p ++ [b]) (some m) → alter s (p ++ [b]) (Node.withInfo g) ≠ .error e := by
    intro s m g e hs herr
    obtain ⟨s', hok⟩ := alter_succeeds (f := Node.withInfo g) (hat hs) (by simp)
    rw [hok] at herr
    cases herr
  unfold setOwnerMode
  refine Meets.bind (Q := fun _ s => s.get = Function.update f (p ++ [b])
      (some (n.withInfo fun info => {info with uid := x, gid := y}))) ?_ fun _ => ?_
  · refine Meets.perform (fun hit s hs => ⟨⟨hit, rfl⟩, .inl rfl, id, ?_⟩) (fun s e hs herr => absurd herr (hno hs))
      (fun s s' hs hok => hset hs hok)
    rw [hs]
    cases n <;> rfl
  · refine Meets.perform (fun hit s hs => ⟨⟨hit, rfl⟩, .inr rfl, _, hs⟩)
      (fun s e hs herr => absurd herr (hno hs)) ?_
    intro s s' hs hok
    rw [hset hs hok]
    cases n <;> rfl

/-- A file of the journal that may not be finished. -/
def DraftJournal (j : InstallJournalV1) (node : Node) : Prop :=
  ∃ info content, node = .file info 1 content ∧ (content = .blob emptyDigest ∨ content = .journal j)

theorem writeNewJournal_meets {f : Path → Option Node} {directory : Path} {basename : String} {site : WriteSite → Site}
    {i : Metadata} (hdir : f directory = some (.directory i)) (hfree : f (directory ++ [basename]) = none) :
    Meets (fun s => s.get = f) (writeNewJournal site directory j basename)
      (fun _ s => ∃ node, WrittenJournal j node ∧ s.get = Function.update f (directory ++ [basename]) (some node))
      (fun cause at_ s => (∃ hit, cause = .fault hit) ∧ ∃ step, at_ = site step ∧
        (step = .create ∧ s.get = f ∨
          step ≠ .create ∧ ∃ node, DraftJournal j node ∧ s.get = Function.update f (directory ++ [basename]) (some node))) := by
  have hat : ∀ {s : Disk} {m : Node}, s.get = Function.update f (directory ++ [basename]) (some m) →
      s.get (directory ++ [basename]) = some m := fun hs => by rw [hs, Function.update_self]
  unfold writeNewJournal
  refine Meets.bind (Q := fun _ s => ∃ i, i.plain = true ∧
      s.get = Function.update f (directory ++ [basename]) (some (.file i 1 (.blob emptyDigest)))) ?_ fun _ => ?_
  · refine Meets.perform (fun hit s hs => ⟨⟨hit, rfl⟩, .create, rfl, .inl ⟨rfl, hs⟩⟩) ?_ ?_
    · intro s e hs herr
      obtain ⟨s', hok⟩ := create_succeeds (d := s) (b := basename)
        (g := fun i => .file (newInfo s i 0o600) 1 (.blob emptyDigest)) (by rw [hs, hdir]) (by rw [hs, hfree])
      rw [createatFile, hok] at herr
      cases herr
    · intro s s' hs hok
      obtain ⟨parent, -, -, hs'⟩ := create_ok hok
      exact ⟨_, rfl, by rw [hs', hs]⟩
  refine Meets.bind (Q := fun _ s => ∃ i, i.plain = true ∧
      s.get = Function.update f (directory ++ [basename]) (some (.file i 1 (.journal j)))) ?_ fun _ => ?_
  · refine Meets.perform ?_ ?_ ?_
    · intro hit s ⟨i, _, hs⟩
      exact ⟨⟨hit, rfl⟩, .write, rfl, .inr ⟨by simp, _, ⟨i, _, rfl, .inl rfl⟩, hs⟩⟩
    · intro s e ⟨i, _, hs⟩ herr
      obtain ⟨s', hok⟩ := writeAll_succeeds (c := .journal j) (hat hs)
      rw [hok] at herr
      cases herr
    · intro s s' ⟨i, hplain, hs⟩ hok
      obtain ⟨info', links, old, hold, hs'⟩ := writeAll_ok hok
      rw [hat hs] at hold
      cases hold
      exact ⟨i, hplain, by rw [hs', hs, Function.update_idem]⟩
  refine Meets.bind (Q := fun _ s => ∃ node, WrittenJournal j node ∧
      s.get = Function.update f (directory ++ [basename]) (some node)) ?_ fun _ => ?_
  · refine Meets.intro fun s₀ ⟨i, hplain, hs₀⟩ => ?_
    refine Meets.mono (setOwnerMode_meets (f := f) (n := .file i 1 (.journal j))) (fun s hs => by rw [hs, hs₀]) ?_ ?_
    · intro _ s hs
      exact ⟨_, ⟨owned 0 0 0o600 i, rfl, rfl, rfl, rfl, hplain⟩, hs⟩
    · intro cause at_ s ⟨hfault, hat, g, hs⟩
      have hdraft : DraftJournal j ((Node.file i 1 (.journal j)).withInfo g) := ⟨g i, _, rfl, .inr rfl⟩
      rcases hat with rfl | rfl
      · exact ⟨hfault, .own, rfl, .inr ⟨by simp, _, hdraft, hs⟩⟩
      · exact ⟨hfault, .mode, rfl, .inr ⟨by simp, _, hdraft, hs⟩⟩
  · refine syncAll_meets fun hit s ⟨node, ⟨i, hnode, _⟩, hs⟩ => ?_
    exact ⟨⟨hit, rfl⟩, .fileSync, rfl, .inr ⟨by simp, node, ⟨i, _, hnode, .inr rfl⟩, hs⟩⟩

/-! ### Persisting -/

/-- What a stop of `persist_journal` leaves of the home: the old journal, the old one
with the sibling beside it, or the new one. -/
def PersistStop (d : Disk) (home : Path) (j : InstallJournalV1) (s : Disk) : PersistSite → Prop
  | .check | .write .create => s.get = d.get
  | .write _ | .rename => ∃ node, s.get = Function.update d.get (home ++ [journalSiblingBasename]) (some node)
  | .sync | .validate =>
    ∃ node, WrittenJournal j node ∧ s.get = Function.update d.get (home ++ [journalBasename]) (some node)

theorem persistCheck_ok (h : Holds d tx home j') (hfree : d.get (home ++ [journalSiblingBasename]) = none)
    (hbound : j.bindings.transactionId = tx) : persistCheck j d = .ok home := by
  have hbinding : validateExistingJournalBinding d home tx = .ok () := by
    rw [validateExistingJournalBinding, h.read]
    rfl
  have hexists : entryExistsAt d home journalSiblingBasename = false := by
    rw [entryExistsAt, hfree]
    rfl
  rw [persistCheck, hbound, h.toAtHome.open]
  simp only [bind, Except.bind, hbinding, hexists]
  rfl

/-- `persist_journal` refuses as long as the sibling lies there. -/
theorem persistCheck_stray (h : AtHome d tx home) (hstray : d.get (home ++ [journalSiblingBasename]) ≠ none)
    (hbound : j.bindings.transactionId = tx) (at_ : Path) : persistCheck j d ≠ .ok at_ := by
  intro hok
  rw [persistCheck, hbound, h.open] at hok
  obtain ⟨-, hrest⟩ := bind_unit_eq_ok.mp hok
  have hexists : entryExistsAt d home journalSiblingBasename = true := Option.isSome_iff_ne_none.mpr hstray
  rw [hexists] at hrest
  cases hrest

/-- **Persisting a journal.** It refuses nothing at home and without a sibling, and where
it is struck decides what stays. -/
theorem persist_meets {w : PersistReason} (h : Holds d tx home j')
    (hfree : d.get (home ++ [journalSiblingBasename]) = none) (hbound : j.bindings.transactionId = tx)
    (hvalid : j.validate = .ok ()) :
    Meets (· = d) (persistJournal w j)
      (fun _ s => ∃ node, WrittenJournal j node ∧ s.get = Function.update d.get (home ++ [journalBasename]) (some node))
      (fun cause at_ s => (∃ hit, cause = .fault hit) ∧ ∃ step, at_ = .persist w step ∧
        PersistStop d home j s step) := by
  obtain ⟨dirInfo, hdir, -⟩ := h.valid
  have hne : home ++ [journalSiblingBasename] ≠ home ++ [journalBasename] := fun heq =>
    journalSiblingBasename_ne (List.singleton_inj.mp (List.append_cancel_left heq))
  -- the new journal under its own name, and the sibling gone
  have hmoved : ∀ {s s' : Disk} {node : Node}, WrittenJournal j node →
      s.get = Function.update d.get (home ++ [journalSiblingBasename]) (some node) →
      renameat s (home ++ [journalSiblingBasename]) (home ++ [journalBasename]) = .ok s' →
      s'.get = Function.update d.get (home ++ [journalBasename]) (some node) := by
    intro s s' node ⟨info, hnode, _⟩ hs hok
    have hsrc : s.get (home ++ [journalSiblingBasename]) = some node := by rw [hs, Function.update_self]
    have hgone : Function.update d.get (home ++ [journalSiblingBasename]) none = d.get :=
      Function.update_eq_self_iff.mpr hfree.symm
    rw [renameat_file_ok hsrc (by rw [hnode]; rfl) hok, hs, Function.update_idem, hgone]
  unfold persistJournal
  refine Meets.bind (Q := fun directory s => directory = home ∧ s = d) ?_ fun directory => ?_
  · refine Meets.look (fun hit s hs => ⟨⟨hit, rfl⟩, .check, rfl, by rw [hs]; rfl⟩) ?_ ?_
    · intro s e hs herr
      rw [hs, persistCheck_ok h hfree hbound] at herr
      cases herr
    · intro s directory hs hok
      rw [hs, persistCheck_ok h hfree hbound] at hok
      cases hok
      exact ⟨rfl, hs⟩
  refine Meets.intro fun s₀ ⟨hhome, hs₀⟩ => ?_
  rw [hhome]
  refine Meets.bind (Q := fun _ s => ∃ node, WrittenJournal j node ∧
      s.get = Function.update d.get (home ++ [journalSiblingBasename]) (some node)) ?_ fun _ => ?_
  · refine Meets.mono (writeNewJournal_meets (f := d.get) hdir hfree) (fun s hs => by rw [hs, hs₀]) (fun _ _ hs => hs) ?_
    intro cause at_ s ⟨hfault, step, hat, hstep⟩
    refine ⟨hfault, .write step, hat, ?_⟩
    rcases hstep with ⟨rfl, hs⟩ | ⟨hne, node, -, hs⟩
    · exact hs
    · cases step with
      | create => exact absurd rfl hne
      | write | own | mode | fileSync => exact ⟨node, hs⟩
  refine Meets.bind (Q := fun _ s => ∃ node, WrittenJournal j node ∧
      s.get = Function.update d.get (home ++ [journalBasename]) (some node)) ?_ fun _ => ?_
  · refine Meets.perform ?_ ?_ ?_
    · intro hit s ⟨node, _, hs⟩
      exact ⟨⟨hit, rfl⟩, .rename, rfl, node, hs⟩
    · intro s e ⟨node, ⟨info, hnode, _⟩, hs⟩ herr
      obtain ⟨old, hold, oldInfo, rfl, -⟩ := h.file
      have hsrc : s.get (home ++ [journalSiblingBasename]) = some node := by rw [hs, Function.update_self]
      have hparent : s.get home = some (.directory dirInfo) := by rw [hs, Function.update_of_ne (by simp), hdir]
      obtain ⟨s', hok⟩ := renameat_file_succeeds (b := journalBasename) hsrc (by rw [hnode]; rfl) hparent
        (by rw [hs, Function.update_of_ne hne.symm, hold]; rfl)
      rw [hok] at herr
      cases herr
    · intro s s' ⟨node, hnode, hs⟩ hok
      exact ⟨node, hnode, hmoved hnode hs hok⟩
  refine Meets.bind (syncAll_meets fun hit s hs => ⟨⟨hit, rfl⟩, .sync, rfl, hs⟩) fun _ => ?_
  refine Meets.look (fun hit s hs => ⟨⟨hit, rfl⟩, .validate, rfl, hs⟩) ?_ (fun s _ hs _ => hs)
  intro s e ⟨node, hnode, hs⟩ herr
  have hdecode : decodeJournal s home = .ok j :=
    decodeJournal_of_written (by rw [hs, Function.update_self]) hnode hvalid
  rw [validateJournalFile, hdecode] at herr
  simp [bind, Except.bind] at herr

/-! ### The first journal -/

/-- No transaction of this name has been here. -/
def Unclaimed (d : Disk) (tx : String) : Prop := d.get (bootstrapHome tx) = none ∧ d.get (finalHome tx) = none

theorem not_bootstrapHome_prefix_finalHome : ¬bootstrapHome tx <+: finalHome tx := by
  intro h
  rcases List.prefix_concat_iff.mp h with heq | hin
  · have := congrArg List.length heq
    simp [bootstrapHome, InstallRoleV1.path] at this
  · exact not_bootstrapHome_prefix_path _ hin

theorem not_finalHome_prefix_bootstrapHome : ¬finalHome tx <+: bootstrapHome tx := by
  intro h
  have := h.length_le
  simp [bootstrapHome, finalHome, InstallRoleV1.path] at this

theorem openPrivateDirectory_inv {parent dir : Path} {name : String} (h : openPrivateDirectory d parent name = .ok dir) :
    dir = parent ++ [name] ∧ ValidDirectory (d.get dir) 0o700 := by
  obtain ⟨opened, hopen, hrest⟩ := bind_eq_ok.mp h
  obtain ⟨hvalid, hret⟩ := bind_unit_eq_ok.mp hrest
  cases hret
  refine ⟨?_, validateDirectory_iff.mp hvalid⟩
  obtain ⟨found, hfound, hsome⟩ := bind_eq_ok.mp hopen
  cases found with
  | none => cases hsome
  | some next =>
    cases hsome
    unfold openatDirectoryOptional at hfound
    split at hfound
    · cases hfound
    · cases hfound
      rfl
    · cases hfound

theorem openTransactionDirectory_inv {dir : Path} (h : openTransactionDirectory d tx = .ok dir) :
    (dir = bootstrapHome tx ∨ dir = finalHome tx) ∧ ValidDirectory (d.get dir) 0o700 := by
  obtain ⟨-, hrest⟩ := bind_unit_eq_ok.mp h
  obtain ⟨varLib, hvar, hrest⟩ := bind_eq_ok.mp hrest
  obtain ⟨rfl, -⟩ := (openStaticDirectory_ok (List.prefix_refl _)).mp hvar
  split at hrest
  · obtain ⟨rfl, hvalid⟩ := openPrivateDirectory_inv hrest
    exact ⟨.inl rfl, hvalid⟩
  · obtain ⟨finalParent, hfinal, hrest⟩ := bind_eq_ok.mp hrest
    obtain ⟨rfl, -⟩ := (openStaticDirectory_ok (List.prefix_refl _)).mp hfinal
    split at hrest
    · obtain ⟨rfl, hvalid⟩ := openPrivateDirectory_inv hrest
      exact ⟨.inr rfl, hvalid⟩
    · cases hrest

theorem decodeJournal_inv (h : decodeJournal d home = .ok j) :
    ∃ node, d.get (home ++ [journalBasename]) = some node ∧ WrittenJournal j node ∧ j.validate = .ok () := by
  unfold decodeJournal at h
  split at h
  · rename_i info links content hget
    split at h
    · cases h
    · rename_i hmeta
      simp only [bne_iff_ne, Bool.or_eq_true, not_or, not_not] at hmeta
      obtain ⟨hplain, hcontent⟩ := bind_unit_eq_ok.mp h
      split at hcontent
      · split at hcontent
        · rename_i hvalid
          cases hcontent
          refine ⟨_, hget, ⟨info, by rw [hmeta.1.1.1], hmeta.1.1.2, hmeta.1.2, hmeta.2, ?_⟩, hvalid⟩
          unfold ensureSupportedMetadata at hplain
          split at hplain
          · assumption
          · cases hplain
        · cases hcontent
      · cases hcontent
  · cases h
  · cases h
  · cases h

/-- What a stop of `bootstrap_journal` leaves: nothing outside the home, and in it at most
this journal. -/
structure Drafted (d : Disk) (tx : String) (j : InstallJournalV1) (s : Disk) : Prop where
  outside : ∀ q, ¬bootstrapHome tx <+: q → s.get q = d.get q
  inside : ∀ node, s.get (bootstrapHome tx ++ [journalBasename]) = some node → DraftJournal j node

theorem Drafted.load (h : Drafted d tx j s) (hclaim : Unclaimed d tx) (hload : loadJournalExact s tx = .ok j') :
    j' = j := by
  obtain ⟨dir, hopen, hread⟩ := bind_eq_ok.mp hload
  obtain ⟨hdir, hvalid⟩ := openTransactionDirectory_inv hopen
  obtain ⟨found, hfound, hret⟩ := bind_eq_ok.mp hread
  split at hret
  · cases hret
  · cases hret
    rcases hdir with rfl | rfl
    · obtain ⟨node, hget, ⟨info, rfl, -⟩, -⟩ := decodeJournal_inv hfound
      obtain ⟨info', content, heq, hcontent⟩ := h.inside _ hget
      cases heq
      rcases hcontent with hblob | hjournal
      · cases hblob
      · cases hjournal
        rfl
    · obtain ⟨info, hget, -⟩ := hvalid
      rw [h.outside _ not_bootstrapHome_prefix_finalHome, hclaim.2] at hget
      cases hget

/-- What `bootstrap_journal` leaves when it is done. -/
structure Bootstrapped (d : Disk) (tx : String) (j : InstallJournalV1) (s : Disk) : Prop extends
    Holds s tx (bootstrapHome tx) j where
  alone : s.get (bootstrapHome tx ++ [journalSiblingBasename]) = none
  outside : ∀ q, ¬bootstrapHome tx <+: q → s.get q = d.get q
  selinux : ensureSelinuxIsNotEnforcing d = .ok ()

theorem above_bootstrapHome {a : InstallRoleV1} (h : a.path <+: bootstrapHome tx) :
    a.path <+: InstallRoleV1.varLibRoot.path := by
  rcases List.prefix_concat_iff.mp h with heq | hin
  · exact absurd heq (InstallRoleV1.path_ne_dot bootstrapName_head a)
  · exact hin

theorem bootstrapCheck_inv {varLib : Path} {bootstrap : String} (hbound : j.bindings.transactionId = tx)
    (h : bootstrapCheck j d = .ok (varLib, bootstrap)) :
    varLib = InstallRoleV1.varLibRoot.path ∧ bootstrap = bootstrapName tx ∧ ensureTransactionId tx = .ok () ∧
      ensureSelinuxIsNotEnforcing d = .ok () ∧ ∀ a : InstallRoleV1, a.path <+: InstallRoleV1.varLibRoot.path → Stands d a := by
  rw [bootstrapCheck, hbound] at h
  obtain ⟨hselinux, hrest⟩ := bind_unit_eq_ok.mp h
  obtain ⟨opened, hopen, hrest⟩ := bind_eq_ok.mp hrest
  obtain ⟨rfl, habove⟩ := (openStaticDirectory_ok (List.prefix_refl _)).mp hopen
  obtain ⟨name, hname, hrest⟩ := bind_eq_ok.mp hrest
  obtain ⟨hid, hret⟩ := bind_unit_eq_ok.mp hname
  cases hret
  split at hrest
  · cases hrest
  · obtain ⟨finalParent, -, hrest⟩ := bind_eq_ok.mp hrest
    split at hrest
    · cases hrest
    · cases hrest
      exact ⟨rfl, rfl, hid, hselinux, habove⟩

/-- What `bootstrap_journal` looks at first is in order. -/
theorem bootstrapCheck_ok (hbound : j.bindings.transactionId = tx) : (∃ found, bootstrapCheck j d = .ok found) ↔
    ensureTransactionId tx = .ok () ∧ ensureSelinuxIsNotEnforcing d = .ok () ∧ Unclaimed d tx ∧
      (∀ a : InstallRoleV1, a.path <+: InstallRoleV1.varLibRoot.path → Stands d a) ∧
      ∀ a : InstallRoleV1, a.path <+: InstallRoleV1.transactionsRoot.path → d.get a.path = none ∨ Stands d a := by
  have hopened := openStaticDirectoryOptional_ok (d := d) (List.prefix_refl InstallRoleV1.transactionsRoot.path)
  constructor
  · rintro ⟨⟨varLib, bootstrap⟩, h⟩
    obtain ⟨-, -, hid, hselinux, habove⟩ := bootstrapCheck_inv hbound h
    rw [bootstrapCheck, hbound] at h
    obtain ⟨-, hrest⟩ := bind_unit_eq_ok.mp h
    obtain ⟨opened, hopen, hrest⟩ := bind_eq_ok.mp hrest
    obtain ⟨rfl, -⟩ := (openStaticDirectory_ok (List.prefix_refl _)).mp hopen
    obtain ⟨name, hname, hrest⟩ := bind_eq_ok.mp hrest
    obtain ⟨-, hret⟩ := bind_unit_eq_ok.mp hname
    cases hret
    split at hrest
    · cases hrest
    · rename_i hboot
      obtain ⟨finalParent, hfinal, hrest⟩ := bind_eq_ok.mp hrest
      refine ⟨hid, hselinux, ⟨by simpa [entryExistsAt, bootstrapHome] using hboot, ?_⟩, habove, hopened.mp ⟨_, hfinal⟩⟩
      split at hrest
      · cases hrest
      · rename_i hno
        cases finalParent with
        | none =>
          obtain ⟨q, hq, hnone⟩ := openStaticFrom_none hfinal
          exact FileTree.get_under_none hnone (hq.trans (List.prefix_append ..))
        | some parent =>
          obtain ⟨rfl, -⟩ := (openStaticDirectoryOptional_some (List.prefix_refl _)).mp hfinal
          simpa [entryExistsAt, finalHome] using hno
  · rintro ⟨hid, hselinux, hclaim, habove, hfinal⟩
    obtain ⟨finalParent, hfinal⟩ := hopened.mpr hfinal
    have hvar : openStaticDirectory d InstallRoleV1.varLibRoot.path = .ok InstallRoleV1.varLibRoot.path :=
      (openStaticDirectory_ok (List.prefix_refl _)).mpr ⟨rfl, habove⟩
    have hboot : entryExistsAt d InstallRoleV1.varLibRoot.path (bootstrapName tx) = false := by
      rw [entryExistsAt, show d.get (InstallRoleV1.varLibRoot.path ++ [bootstrapName tx]) = none from hclaim.1]
      rfl
    have hfree : (finalParent.any fun p => entryExistsAt d p tx) = false := by
      cases finalParent with
      | none => rfl
      | some parent =>
        obtain ⟨rfl, -⟩ := (openStaticDirectoryOptional_some (List.prefix_refl _)).mp hfinal
        rw [Option.any_some, entryExistsAt, show d.get (InstallRoleV1.transactionsRoot.path ++ [tx]) = none from hclaim.2]
        rfl
    refine ⟨(InstallRoleV1.varLibRoot.path, bootstrapName tx), ?_⟩
    rw [bootstrapCheck, hbound, hselinux, hvar]
    simp only [bind, Except.bind, bootstrapBasename, hid, hboot, hfinal, hfree]
    rfl

/-- **Writing the first journal.** -/
theorem bootstrap_meets (hclaim : Unclaimed d tx) (hbound : j.bindings.transactionId = tx)
    (hvalid : j.validate = .ok ()) :
    Meets (· = d) (bootstrapJournal j) (fun _ s => Bootstrapped d tx j s)
      (fun cause at_ s => (∃ step, at_ = .bootstrap step) ∧ Drafted d tx j s ∧
        ∀ e, cause = .refusal e → bootstrapCheck j d = .error e) := by
  have hnone : ∀ rest, d.get (bootstrapHome tx ++ rest) = none := fun rest =>
    FileTree.get_under_none hclaim.1 (List.prefix_append ..)
  have hjournal : bootstrapHome tx ++ [journalBasename] ≠ bootstrapHome tx := by simp
  have hout : ∀ {q : Path} (rest : List String), ¬bootstrapHome tx <+: q → q ≠ bootstrapHome tx ++ rest :=
    fun rest hq heq => hq (heq ▸ List.prefix_append ..)
  have hout' : ∀ {q : Path}, ¬bootstrapHome tx <+: q → q ≠ bootstrapHome tx :=
    fun hq heq => hq (heq ▸ List.prefix_refl _)
  -- the three looks of the home before the journal is finished
  have hempty : ∀ {s : Disk}, s.get = d.get → Drafted d tx j s := by
    intro s hs
    refine ⟨fun q _ => by rw [hs], fun node hnode => ?_⟩
    rw [hs, hnone] at hnode
    cases hnode
  have hmade : ∀ {s : Disk} {n : Node}, s.get = Function.update d.get (bootstrapHome tx) (some n) → Drafted d tx j s := by
    intro s n hs
    refine ⟨fun q hq => ?_, fun node hnode => ?_⟩
    · rw [hs, Function.update_of_ne (hout' hq)]
    · rw [hs, Function.update_of_ne hjournal, hnone] at hnode
      cases hnode
  have hdraft : ∀ {s : Disk} {n node : Node}, DraftJournal j node →
      s.get = Function.update (Function.update d.get (bootstrapHome tx) (some n))
        (bootstrapHome tx ++ [journalBasename]) (some node) → Drafted d tx j s := by
    intro s n node hnode hs
    refine ⟨fun q hq => ?_, fun found hfound => ?_⟩
    · rw [hs, Function.update_of_ne (hout _ hq), Function.update_of_ne (hout' hq)]
    · rw [hs, Function.update_self] at hfound
      cases hfound
      exact hnode
  unfold bootstrapJournal
  refine Meets.bind (Q := fun found s => s = d ∧ bootstrapCheck j d = .ok found) ?_ fun ⟨varLib, bootstrap⟩ => ?_
  · refine Meets.look (fun hit s hs => ⟨⟨.check, rfl⟩, hempty (by rw [hs]), fun e he => by cases he⟩) ?_ ?_
    · intro s e hs herr
      rw [hs] at herr
      exact ⟨⟨.check, rfl⟩, hempty (by rw [hs]), fun e' he => by cases he; exact herr⟩
    · intro s found hs hok
      rw [hs] at hok
      exact ⟨hs, hok⟩
  refine Meets.intro fun s₀ ⟨hs₀, hcheck⟩ => ?_
  obtain ⟨rfl, rfl, hid, hselinux, habove⟩ := bootstrapCheck_inv hbound hcheck
  obtain ⟨varInfo, hvar⟩ := (habove .varLibRoot (List.prefix_refl _)).exists_directory
  refine Meets.bind (Q := fun _ s => ∃ info, info.plain = true ∧
      s.get = Function.update d.get (bootstrapHome tx) (some (.directory info))) ?_ fun _ => ?_
  · refine Meets.perform (fun hit s hs => ⟨⟨.create, rfl⟩, hempty (by rw [hs, hs₀]), fun e he => by cases he⟩) ?_ ?_
    · intro s e hs herr
      rw [hs, hs₀] at herr
      obtain ⟨s', hok⟩ := create_succeeds (g := fun info => .directory (newInfo d info 0o700)) hvar hclaim.1
      rw [mkdirat, hok] at herr
      cases herr
    · intro s s' hs hok
      rw [hs, hs₀] at hok
      obtain ⟨info, -, -, hs'⟩ := create_ok hok
      exact ⟨_, rfl, hs'⟩
  refine Meets.bind (Q := fun directory s => directory = bootstrapHome tx ∧ ∃ info, info.plain = true ∧
      s.get = Function.update d.get (bootstrapHome tx) (some (.directory info))) ?_ fun directory => ?_
  · have hopen : ∀ {s : Disk} {info : Metadata}, s.get = Function.update d.get (bootstrapHome tx) (some (.directory info)) →
        openatDirectory s InstallRoleV1.varLibRoot.path (bootstrapName tx) = .ok (bootstrapHome tx) := by
      intro s info hs
      have hget : s.get (InstallRoleV1.varLibRoot.path ++ [bootstrapName tx]) = some (.directory info) := by
        rw [hs]
        exact Function.update_self ..
      simp only [openatDirectory, openatDirectoryOptional, hget]
      rfl
    refine Meets.look ?_ ?_ ?_
    · intro hit s ⟨info, _, hs⟩
      exact ⟨⟨.open, rfl⟩, hmade hs, fun e he => by cases he⟩
    · intro s e ⟨info, _, hs⟩ herr
      rw [hopen hs] at herr
      cases herr
    · intro s directory ⟨info, hplain, hs⟩ hok
      rw [hopen hs] at hok
      cases hok
      exact ⟨rfl, info, hplain, hs⟩
  refine Meets.intro fun s₁ ⟨hhome, info, hplain, hs₁⟩ => ?_
  rw [hhome]
  refine Meets.bind (Q := fun _ s => s.get = Function.update d.get (bootstrapHome tx)
      (some (.directory (owned 0 0 0o700 info)))) ?_ fun _ => ?_
  · refine Meets.mono (setOwnerMode_meets (f := d.get) (n := .directory info)) (fun s hs => by rw [hs]; exact hs₁)
      (fun _ _ hs => hs) ?_
    intro cause at_ s ⟨⟨hit, hfault⟩, hat, g, hs⟩
    refine ⟨?_, hmade hs, fun e he => by rw [hfault] at he; cases he⟩
    rcases hat with hat | hat
    · exact ⟨.own, hat⟩
    · exact ⟨.mode, hat⟩
  refine Meets.bind (Q := fun _ s => ∃ node, WrittenJournal j node ∧ s.get =
      Function.update (Function.update d.get (bootstrapHome tx) (some (.directory (owned 0 0 0o700 info))))
        (bootstrapHome tx ++ [journalBasename]) (some node)) ?_ fun _ => ?_
  · refine Meets.mono (writeNewJournal_meets (i := owned 0 0 0o700 info) (Function.update_self ..)
      (by rw [Function.update_of_ne hjournal, hnone])) (fun s hs => hs) (fun _ _ hs => hs) ?_
    intro cause at_ s ⟨⟨hit, hfault⟩, step, hat, hstep⟩
    refine ⟨⟨.write step, hat⟩, ?_, fun e he => by rw [hfault] at he; cases he⟩
    rcases hstep with ⟨-, hs⟩ | ⟨-, node, hnode, hs⟩
    · exact hmade hs
    · exact hdraft hnode hs
  have hwritten : ∀ {node : Node}, WrittenJournal j node → DraftJournal j node := fun ⟨info, hnode, _⟩ =>
    ⟨info, _, hnode, .inr rfl⟩
  refine Meets.bind (syncAll_meets fun hit s ⟨node, hnode, hs⟩ =>
    ⟨⟨.sync, rfl⟩, hdraft (hwritten hnode) hs, fun e he => by cases he⟩) fun _ => ?_
  refine Meets.mono (syncAll_meets (I := fun cause at_ s => (∃ step, at_ = .bootstrap step) ∧ Drafted d tx j s ∧
    ∀ e, cause = .refusal e → bootstrapCheck j d = .error e) fun hit s ⟨node, hnode, hs⟩ =>
      ⟨⟨.parentSync, rfl⟩, hdraft (hwritten hnode) hs, fun e he => by cases he⟩) (fun s hs => hs) ?_ (fun _ _ _ h => h)
  intro _ s ⟨node, hnode, hs⟩
  have houtside := (hdraft (hwritten hnode) hs).outside
  have hat : s.get (bootstrapHome tx) = some (.directory (owned 0 0 0o700 info)) := by
    rw [hs, Function.update_of_ne hjournal.symm, Function.update_self]
  refine ⟨⟨⟨hid, .inl rfl, ?_, ⟨_, hat, rfl, rfl, rfl, hplain⟩⟩, ⟨node, by rw [hs, Function.update_self], hnode⟩, hbound,
    hvalid⟩, ?_, houtside, hselinux⟩
  · intro a ha
    refine (habove a (above_bootstrapHome ha)).congr (houtside _ ?_)
    exact not_bootstrapHome_prefix_path a
  · rw [hs, Function.update_of_ne fun heq => journalSiblingBasename_ne
      (List.singleton_inj.mp (List.append_cancel_left heq)), Function.update_of_ne (by simp), hnone]

/-! ### Publishing -/

/-- The home has moved among the transactions, and nothing else has changed. -/
structure Published (d : Disk) (tx : String) (j : InstallJournalV1) (s : Disk) : Prop extends
    Holds s tx (finalHome tx) j where
  inside : ∀ rest, s.get (finalHome tx ++ rest) = d.get (bootstrapHome tx ++ rest)
  outside : ∀ q, ¬Private tx q → s.get q = d.get q

def PublishStop (d : Disk) (tx : String) (j : InstallJournalV1) (s : Disk) : PublishSite → Prop
  | .check | .move => s.get = d.get
  | .sync | .parentSync => Published d tx j s

/-- The directory of the transactions can be opened. -/
def TransactionsOpen (d : Disk) : Prop :=
  ∀ a : InstallRoleV1, a.path <+: InstallRoleV1.transactionsRoot.path → Stands d a

theorem published_of_move (h : Holds d tx (bootstrapHome tx) j) (hopen : TransactionsOpen d)
    (hs : ∀ q, s.get q = if finalHome tx <+: q then d.get (bootstrapHome tx ++ q.drop (finalHome tx).length)
      else if bootstrapHome tx <+: q then none else d.get q) : Published d tx j s := by
  have hinside : ∀ rest, s.get (finalHome tx ++ rest) = d.get (bootstrapHome tx ++ rest) := fun rest => by
    rw [hs, if_pos (List.prefix_append ..), List.drop_left]
  have houtside : ∀ q, ¬Private tx q → s.get q = d.get q := fun q hq => by
    rw [hs, if_neg fun hf => hq (.inr hf), if_neg fun hb => hq (.inl hb)]
  refine ⟨⟨⟨h.id, .inr ⟨rfl, ?_⟩, ?_, ?_⟩, ?_, h.bound, h.readable⟩, hinside, houtside⟩
  · rw [hs, if_neg not_finalHome_prefix_bootstrapHome, if_pos (List.prefix_refl _)]
  · intro a ha
    have habove : a.path <+: InstallRoleV1.transactionsRoot.path := by
      rcases List.prefix_concat_iff.mp ha with heq | hin
      · exact absurd (heq ▸ List.prefix_refl _) (@not_finalHome_prefix_path tx a)
      · exact hin
    exact (hopen a habove).congr (houtside _ (not_private_path a))
  · have := hinside []
    rw [List.append_nil, List.append_nil] at this
    rw [this]
    exact h.valid
  · obtain ⟨node, hget, hnode⟩ := h.file
    exact ⟨node, by rw [hinside, hget], hnode⟩

/-- **Publishing a journal.** It refuses only if the transactions cannot be opened. -/
theorem publish_meets {early : Bool} (h : Holds d tx (bootstrapHome tx) j) (hfree : d.get (finalHome tx) = none) :
    Meets (· = d) (publishJournal early j) (fun _ s => Published d tx j s ∧ TransactionsOpen d)
      (fun cause at_ s => (∃ step, at_ = .publish early step ∧ PublishStop d tx j s step) ∧
        ∀ e, cause = .refusal e → ¬TransactionsOpen d) := by
  have hvar : openStaticDirectory d InstallRoleV1.varLibRoot.path = .ok InstallRoleV1.varLibRoot.path :=
    (openStaticDirectory_ok (List.prefix_refl _)).mpr
      ⟨rfl, fun a ha => h.above a (ha.trans (varLibRoot_prefix_home h.toAtHome))⟩
  have hboot : bootstrapBasename tx = .ok (bootstrapName tx) := by
    rw [bootstrapBasename, h.id]
    rfl
  have hprivate : openPrivateDirectory d InstallRoleV1.varLibRoot.path (bootstrapName tx) = .ok (bootstrapHome tx) :=
    openPrivateDirectory_ok h.valid
  have hjournal : validateJournalFile d (bootstrapHome tx) j = .ok () := by
    rw [validateJournalFile, h.decode]
    simp [bind, Except.bind]
  have hnotyet : entryExistsAt d InstallRoleV1.transactionsRoot.path tx = false := by
    rw [entryExistsAt, show InstallRoleV1.transactionsRoot.path ++ [tx] = finalHome tx from rfl, hfree]
    rfl
  have hcheck : publishCheck j d = openStaticDirectory d InstallRoleV1.transactionsRoot.path >>= fun _ =>
      .ok (bootstrapHome tx, finalHome tx) := by
    rw [publishCheck, hvar, h.bound]
    cases hfinal : openStaticDirectory d InstallRoleV1.transactionsRoot.path with
    | error e => rfl
    | ok finalParent =>
      obtain ⟨rfl, -⟩ := (openStaticDirectory_ok (List.prefix_refl _)).mp hfinal
      simp only [bind, Except.bind, hboot, hprivate, hjournal, hnotyet]
      rfl
  unfold publishJournal
  refine Meets.bind (Q := fun found s => s = d ∧ found = (bootstrapHome tx, finalHome tx) ∧ TransactionsOpen d) ?_
    fun found => ?_
  · refine Meets.look (fun hit s hs => ⟨⟨.check, rfl, by rw [hs]; rfl⟩, fun e he => by cases he⟩) ?_ ?_
    · intro s e hs herr
      refine ⟨⟨.check, rfl, by rw [hs]; rfl⟩, fun _ _ hopen => ?_⟩
      rw [hs, hcheck, (openStaticDirectory_ok (List.prefix_refl _)).mpr ⟨rfl, hopen⟩] at herr
      cases herr
    · intro s found hs hok
      rw [hs, hcheck] at hok
      obtain ⟨finalParent, hfinal, hret⟩ := bind_eq_ok.mp hok
      cases hret
      exact ⟨hs, rfl, ((openStaticDirectory_ok (List.prefix_refl _)).mp hfinal).2⟩
  refine Meets.intro fun s₀ hmet => ?_
  obtain ⟨hs₀, hpaths, hopen⟩ := hmet
  rw [hpaths]
  obtain ⟨homeInfo, hhome, -⟩ := h.valid
  obtain ⟨parentInfo, hparent⟩ := (hopen .transactionsRoot (List.prefix_refl _)).exists_directory
  refine Meets.bind (Q := fun _ s => Published d tx j s ∧ TransactionsOpen d) ?_ fun _ => ?_
  · refine Meets.perform (fun hit s hs => ⟨⟨.move, rfl, by rw [hs, hs₀]; rfl⟩, fun e he => by cases he⟩) ?_ ?_
    · intro s e hs herr
      rw [hs, hs₀, renameatNoreplace_eq hfree] at herr
      obtain ⟨s', hok⟩ := renameat_directory_succeeds (b := tx) hhome rfl hparent hfree
        not_bootstrapHome_prefix_finalHome
      rw [show InstallRoleV1.transactionsRoot.path ++ [tx] = finalHome tx from rfl] at hok
      rw [hok] at herr
      cases herr
    · intro s s' hs hok
      rw [hs, hs₀, renameatNoreplace_eq hfree] at hok
      exact ⟨published_of_move h hopen (renameat_directory_ok hhome rfl hok), hopen⟩
  refine Meets.bind (syncAll_meets fun hit s hs => ⟨⟨.sync, rfl, hs.1⟩, fun e he => by cases he⟩) fun _ => ?_
  exact syncAll_meets fun hit s hs => ⟨⟨.parentSync, rfl, hs.1⟩, fun e he => by cases he⟩

end Fs

end NetworkLoop.Install
