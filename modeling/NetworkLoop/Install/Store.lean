import NetworkLoop.Install.Planned

/-! The transaction store.

Every published journal lies in a directory of its own under the transactions'
directory. `Store` says which journals those are; from it follow the two answers that all
commands start with: which transactions there are (`Store.transactionIds`), and which of
their journals describes the objects on disk (`Store.current_one`, `Store.current_none`). -/
namespace NetworkLoop.Install
open Library Program Disk

/-- The journals in the store, by transaction. -/
structure Store (d : Disk) (ids : List String) (journals : String → InstallJournalV1) : Prop where
  opened : ∀ a : InstallRoleV1, a.path <+: InstallRoleV1.transactionsRoot.path → Stands d a
  nodup : ids.Nodup
  children : ∀ name, name ∈ ids ↔ d.get (InstallRoleV1.transactionsRoot.path ++ [name]) ≠ none
  holds : ∀ tx ∈ ids, Holds d tx (finalHome tx) (journals tx)

/-- The journal is one of a completed transaction, and its objects are still there. -/
def Current (d : Disk) (j : InstallJournalV1) : Prop := j.state = .installed ∧ j.entries.all (entryMatches d) = true

/-- The journal is one of a transaction that is over, and does not describe the disk. -/
def Quiet (d : Disk) (j : InstallJournalV1) : Prop := (j.state = .rolledBack ∨ j.state = .installed) ∧ ¬Current d j

variable {d s : Disk} {ids front rest : List String} {journals : String → InstallJournalV1} {tx : String}
  {j : InstallJournalV1} {current : Option InstallJournalV1}

theorem inputUnavailable_ok {α : Type} {y : Except InstallIoError α} {a : α} : inputUnavailable y = .ok a ↔ y = .ok a := by
  cases y with
  | error err => exact ⟨fun h => (by cases h), fun h => by cases h⟩
  | ok b => exact ⟨fun h => (by cases h; rfl), fun h => by cases h; rfl⟩

/-! ### Reading the store -/

theorem checkTransactionNames_ok {directory : Path} {names : List String}
    (h : ∀ name ∈ names, ensureTransactionId name = .ok () ∧ ValidDirectory (d.get (directory ++ [name])) 0o700) :
    checkTransactionNames d directory names = .ok () := by
  induction names with
  | nil => rfl
  | cons name rest ih =>
    obtain ⟨hid, hvalid⟩ := h name (by simp)
    refine bind_unit_eq_ok.mpr ⟨?_, ih fun other hother => h other (by simp [hother])⟩
    rw [checkTransactionName, hid, openPrivateDirectory_ok hvalid]
    rfl

theorem Store.perm (h : Store d ids journals) : (d.children InstallRoleV1.transactionsRoot.path).Perm ids := by
  refine (List.perm_ext_iff_of_nodup FileTree.children_nodup h.nodup).mpr fun name => ?_
  rw [FileTree.mem_children, h.children]

/-- **The transactions of the store**, unless there are too many. -/
theorem Store.transactionIds (h : Store d ids journals) : transactionIds d =
    if ids.length > 128 then .error .unsafeObject
    else .ok ((d.children InstallRoleV1.transactionsRoot.path).insertionSort (· ≤ ·)) := by
  have hopen : openStaticDirectoryOptional d InstallRoleV1.transactionsRoot.path = .ok (some InstallRoleV1.transactionsRoot.path) :=
    (openStaticDirectoryOptional_some (List.prefix_refl _)).mpr ⟨rfl, h.opened⟩
  have hnames : checkTransactionNames d InstallRoleV1.transactionsRoot.path
      (d.children InstallRoleV1.transactionsRoot.path) = .ok () := by
    refine checkTransactionNames_ok fun name hname => ?_
    have := h.holds name (h.perm.mem_iff.mp hname)
    exact ⟨this.id, this.valid⟩
  rw [Disk.transactionIds, hopen]
  simp only [bind, Except.bind, readTransactionIds, hnames, h.perm.length_eq]

theorem Store.mem_sorted (h : Store d ids journals) :
    tx ∈ (d.children InstallRoleV1.transactionsRoot.path).insertionSort (· ≤ ·) ↔ tx ∈ ids :=
  (List.perm_insertionSort _ _).mem_iff.trans h.perm.mem_iff

/-! ### The loop over the journals -/

/-- One round of the loop. -/
theorem currentInstalledFrom_cons (h : loadJournalExact d tx = .ok j) :
    currentInstalledFrom d current (tx :: rest) =
      match j.state with
      | .rolledBack => currentInstalledFrom d current rest
      | .installed =>
        if j.entries.all (entryMatches d) then
          if current.isSome then .error .inputUnavailable else currentInstalledFrom d (some j) rest
        else currentInstalledFrom d current rest
      | _ => .error .inputUnavailable := by
  rw [currentInstalledFrom, h]
  rfl

theorem currentInstalledFrom_quiet (h : ∀ tx ∈ front, ∃ j, loadJournalExact d tx = .ok j ∧ Quiet d j) :
    currentInstalledFrom d current (front ++ rest) = currentInstalledFrom d current rest := by
  induction front with
  | nil => rfl
  | cons tx front ih =>
    obtain ⟨j, hload, hover, hno⟩ := h tx (by simp)
    rw [List.cons_append, currentInstalledFrom_cons hload]
    have hrest := ih fun other hother => h other (by simp [hother])
    rcases hover with hstate | hstate
    · simp only [hstate, hrest]
    · have hmiss : j.entries.all (entryMatches d) = false := Bool.eq_false_iff.mpr fun hall => hno ⟨hstate, hall⟩
      simp [hstate, hmiss, hrest]

theorem currentInstalledFrom_current (h : loadJournalExact d tx = .ok j) (hj : Current d j) :
    currentInstalledFrom d none (tx :: rest) = currentInstalledFrom d (some j) rest := by
  rw [currentInstalledFrom_cons h]
  simp [hj.1, hj.2]

/-- What the loop returns is a journal of the store. -/
theorem currentInstalledFrom_some (h : currentInstalledFrom d current ids = .ok (some j)) :
    current = some j ∨ ∃ tx ∈ ids, loadJournalExact d tx = .ok j ∧ Current d j := by
  induction ids generalizing current with
  | nil =>
    cases h
    exact .inl rfl
  | cons tx rest ih =>
    obtain ⟨found, hload, -⟩ := bind_eq_ok.mp h
    rw [inputUnavailable_ok] at hload
    rw [currentInstalledFrom_cons hload] at h
    have hlater : ∀ {now}, currentInstalledFrom d now rest = .ok (some j) →
        now = some j ∨ ∃ tx' ∈ tx :: rest, loadJournalExact d tx' = .ok j ∧ Current d j := by
      intro now hnow
      rcases ih hnow with hsame | ⟨tx', htx, hrest⟩
      · exact .inl hsame
      · exact .inr ⟨tx', by simp [htx], hrest⟩
    cases hstate : found.state with
    | rolledBack =>
      rw [hstate] at h
      exact hlater h
    | installed =>
      simp only [hstate] at h
      split at h
      · rename_i hall
        split at h
        · cases h
        · rcases hlater h with hsame | hrest
          · cases hsame
            exact .inr ⟨tx, by simp, hload, hstate, hall⟩
          · exact .inr hrest
      · exact hlater h
    | planned | prepared | applying | failed | rollingBack =>
      rw [hstate] at h
      cases h

theorem loadJournalExact_inv (h : loadJournalExact d tx = .ok j) : j.validate = .ok () ∧ j.bindings.transactionId = tx := by
  obtain ⟨directory, -, hread⟩ := bind_eq_ok.mp h
  obtain ⟨found, hfound, hret⟩ := bind_eq_ok.mp hread
  split at hret
  · cases hret
  · rename_i hbound
    cases hret
    obtain ⟨-, -, -, hvalid⟩ := Fs.decodeJournal_inv hfound
    exact ⟨hvalid, by simpa using hbound⟩

/-- Whatever the answer, the way to the store is in order. -/
theorem clear_of_current (h : currentInstalledJournal d = .ok current) :
    ∀ a : InstallRoleV1, a.path <+: InstallRoleV1.transactionsRoot.path → d.get a.path = none ∨ Stands d a := by
  obtain ⟨ids, hids, -⟩ := bind_eq_ok.mp h
  obtain ⟨opened, hopen, -⟩ := bind_eq_ok.mp (inputUnavailable_ok.mp hids)
  exact (openStaticDirectoryOptional_ok (List.prefix_refl _)).mp ⟨opened, hopen⟩

/-- Without a store no journal is installed. -/
theorem current_of_absent (h : currentInstalledJournal d = .ok current)
    (hgone : d.get InstallRoleV1.transactionsRoot.path = none) : current = none := by
  obtain ⟨ids, hids, hrest⟩ := bind_eq_ok.mp h
  obtain ⟨opened, hopen, hread⟩ := bind_eq_ok.mp (inputUnavailable_ok.mp hids)
  cases opened with
  | none =>
    cases hread
    cases hrest
    rfl
  | some directory =>
    obtain ⟨-, habove⟩ := (openStaticDirectoryOptional_some (List.prefix_refl _)).mp hopen
    obtain ⟨info, hget⟩ := (habove .transactionsRoot (List.prefix_refl _)).exists_directory
    rw [hgone] at hget
    cases hget

/-- **An installed journal** has been read and describes the disk. -/
theorem current_some (h : currentInstalledJournal d = .ok (some j)) :
    j.Valid ∧ Current d j ∧ (d.get InstallRoleV1.transactionsRoot.path).isSome = true := by
  have hthere : (d.get InstallRoleV1.transactionsRoot.path).isSome = true := by
    by_contra hno
    rw [Bool.not_eq_true, Option.isSome_eq_false_iff, Option.isNone_iff_eq_none] at hno
    cases current_of_absent h hno
  obtain ⟨ids, -, hrest⟩ := bind_eq_ok.mp h
  rcases currentInstalledFrom_some hrest with hno | ⟨tx, -, hload, hcurrent⟩
  · cases hno
  · exact ⟨(InstallJournalV1.validate_iff j).mp (loadJournalExact_inv hload).1, hcurrent, hthere⟩

/-! ### The installed journal of a store -/

section Answers
variable (h : Store d ids journals) (hfew : ids.length ≤ 128)
include h hfew

theorem Store.currentInstalledJournal : currentInstalledJournal d =
    currentInstalledFrom d none ((d.children InstallRoleV1.transactionsRoot.path).insertionSort (· ≤ ·)) := by
  rw [Install.currentInstalledJournal, h.transactionIds, if_neg (Nat.not_lt.mpr hfew)]
  rfl

theorem Store.current_none (hquiet : ∀ tx ∈ ids, Quiet d (journals tx)) : Install.currentInstalledJournal d = .ok none := by
  rw [h.currentInstalledJournal hfew, ← List.append_nil (List.insertionSort ..), currentInstalledFrom_quiet]
  · rfl
  · intro tx htx
    have hmem := h.mem_sorted.mp htx
    exact ⟨journals tx, (h.holds tx hmem).load, hquiet tx hmem⟩

theorem Store.current_one (htx : tx ∈ ids) (hcurrent : Current d (journals tx))
    (hquiet : ∀ other ∈ ids, other ≠ tx → Quiet d (journals other)) :
    Install.currentInstalledJournal d = .ok (some (journals tx)) := by
  obtain ⟨front, rest, hsplit⟩ := List.append_of_mem (h.mem_sorted.mpr htx)
  have hnodup : ((d.children InstallRoleV1.transactionsRoot.path).insertionSort (· ≤ ·)).Nodup :=
    (List.perm_insertionSort _ _).nodup_iff.mpr FileTree.children_nodup
  have hothers : ∀ other ∈ front ++ rest, ∃ j, loadJournalExact d other = .ok j ∧ Quiet d j := by
    intro other hother
    have hmem : other ∈ ids := h.mem_sorted.mp (by rw [hsplit]; simp at hother ⊢; tauto)
    refine ⟨journals other, (h.holds other hmem).load, hquiet other hmem fun heq => ?_⟩
    rw [hsplit, List.nodup_middle, List.nodup_cons, heq.symm] at hnodup
    exact hnodup.1 hother
  rw [h.currentInstalledJournal hfew, hsplit, currentInstalledFrom_quiet fun other hother => hothers other (by simp [hother]),
    currentInstalledFrom_current (h.holds tx htx).load hcurrent, ← List.append_nil rest,
    currentInstalledFrom_quiet fun other hother => hothers other (by simp [hother])]
  rfl

end Answers

end NetworkLoop.Install
