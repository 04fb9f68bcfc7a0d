import Mathlib
import NetworkLoop.Install.Journal
import NetworkLoop.Library.FileTree

/-! The installed layout (`installation_layout.rs`), as paths.

The layout has one entry for each role, in install order, whose destination and mode
are the role's own; `path` is that destination, split at its slashes. Beside the role's
own path a transaction uses two more names in the same directory, for the new file and
for the file it replaces. The lemmas say which of all these paths can meet: a role's
path lies only under the paths of other roles, and the names of a transaction meet
nothing else. -/
namespace NetworkLoop.Install
open Library

inductive InstallLayoutEntryKindV1 where
  | directory | regular
  deriving DecidableEq, Repr

inductive InstallPayloadSourceV1 where
  | none
  | bundle (filename : String)
  | deploymentAuthorization
  | performanceEvidence
  deriving DecidableEq, Repr

namespace InstallRoleV1

/-- The kind of a role's entry in `INSTALL_LAYOUT`. -/
def layoutKind (r : InstallRoleV1) : InstallLayoutEntryKindV1 := if r.isDirectory then .directory else .regular

/-- The payload of a role's entry in `INSTALL_LAYOUT`. -/
def layoutSource : InstallRoleV1 → InstallPayloadSourceV1
  | .cli => .bundle "l2-loopctl"
  | .daemon => .bundle "l2-loopd"
  | .deploymentChecker => .bundle "l2-loop-deploycheck"
  | .installer => .bundle "l2-loop-install"
  | .hostChecker => .bundle "l2-loop-hostcheck"
  | .ebpfObject => .bundle "l2-loop-ebpf.o"
  | .bundleManifest => .bundle "manifest.json"
  | .bundleChecksums => .bundle "SHA256SUMS"
  | .serviceUnit => .bundle "l2-loop.service"
  | .authorizationExample => .bundle "deployment-v1.example.json"
  | .deploymentAuthorization => .deploymentAuthorization
  | .performanceEvidence => .performanceEvidence
  | _ => .none

def path : InstallRoleV1 → Path
  | .usrRoot => ["usr"]
  | .usrBinRoot => ["usr", "bin"]
  | .usrLibRoot => ["usr", "lib"]
  | .usrLibexecRoot => ["usr", "libexec"]
  | .productLibexecRoot => ["usr", "libexec", "l2-loop"]
  | .usrLibSystemdRoot => ["usr", "lib", "systemd"]
  | .systemdUnitRoot => ["usr", "lib", "systemd", "system"]
  | .usrShareRoot => ["usr", "share"]
  | .usrShareDocRoot => ["usr", "share", "doc"]
  | .productDocRoot => ["usr", "share", "doc", "l2-loop"]
  | .etcRoot => ["etc"]
  | .configRoot => ["etc", "l2-loop"]
  | .varRoot => ["var"]
  | .varLibRoot => ["var", "lib"]
  | .stateRoot => ["var", "lib", "l2-loop"]
  | .gatesRoot => ["var", "lib", "l2-loop", "gates"]
  | .evidenceParent => ["var", "lib", "l2-loop", "evidence"]
  | .evidenceRoot => ["var", "lib", "l2-loop", "evidence", "v1"]
  | .installRoot => ["var", "lib", "l2-loop", "install"]
  | .transactionsRoot => ["var", "lib", "l2-loop", "install", "transactions"]
  | .cli => ["usr", "bin", "l2-loopctl"]
  | .daemon => ["usr", "libexec", "l2-loop", "l2-loopd"]
  | .deploymentChecker => ["usr", "libexec", "l2-loop", "l2-loop-deploycheck"]
  | .installer => ["usr", "libexec", "l2-loop", "l2-loop-install"]
  | .hostChecker => ["usr", "libexec", "l2-loop", "l2-loop-hostcheck"]
  | .ebpfObject => ["usr", "libexec", "l2-loop", "l2-loop-ebpf.o"]
  | .bundleManifest => ["usr", "libexec", "l2-loop", "manifest.json"]
  | .bundleChecksums => ["usr", "libexec", "l2-loop", "SHA256SUMS"]
  | .serviceUnit => ["usr", "lib", "systemd", "system", "l2-loop.service"]
  | .authorizationExample => ["usr", "share", "doc", "l2-loop", "deployment-v1.example.json"]
  | .deploymentAuthorization => ["etc", "l2-loop", "deployment-v1.json"]
  | .performanceEvidence => ["var", "lib", "l2-loop", "gates", "performance-v1.json"]

theorem fixedDestination_eq : ∀ r : InstallRoleV1, r.fixedDestination = "/" ++ "/".intercalate r.path := by
  decide

/-- The directory a role's object lies in. -/
def directory (r : InstallRoleV1) : Path := r.path.dropLast

def basename (r : InstallRoleV1) : String := r.path.getLast?.getD ""

theorem path_eq (r : InstallRoleV1) : r.path = r.directory ++ [r.basename] := by
  cases r <;> rfl

theorem path_injective : Function.Injective path := by
  have h : ∀ a b : InstallRoleV1, a.path = b.path → a = b := by decide
  exact fun a b => h a b

/-- `a` is a directory on the way to `r`. -/
def Above (a r : InstallRoleV1) : Prop := a.path <+: r.path ∧ a ≠ r

instance (a r : InstallRoleV1) : Decidable (Above a r) := inferInstanceAs (Decidable (_ ∧ _))

theorem installOrder_lt_of_above : ∀ {a r : InstallRoleV1}, Above a r → a.installOrder < r.installOrder := by
  have h : ∀ a r : InstallRoleV1, Above a r → a.installOrder < r.installOrder := by decide
  exact fun {a r} => h a r

/-- The role of the directory a role's object lies in, if it is not the root. -/
def parentRole (r : InstallRoleV1) : Option InstallRoleV1 := all.find? fun a => a.path = r.directory

theorem parentRole_path {a r : InstallRoleV1} : r.parentRole = some a ↔ a.path = r.directory := by
  unfold parentRole
  constructor
  · intro h
    simpa using List.find?_some h
  · intro h
    cases hfind : all.find? fun a => a.path = r.directory with
    | none => exact absurd h (by simpa using List.find?_eq_none.mp hfind a (mem_all a))
    | some b =>
      have hb : b.path = r.directory := by simpa using List.find?_some hfind
      rw [path_injective (hb.trans h.symm)]

/-- Every directory on the way to a role's object has a role of its own. -/
theorem prefix_role : ∀ (r : InstallRoleV1) (p : Path), p <+: r.path → p ≠ [] → ∃ a : InstallRoleV1, a.path = p := by
  have h : ∀ r : InstallRoleV1, ∀ p ∈ r.path.inits, p ≠ [] → ∃ a : InstallRoleV1, a.path = p := by decide
  exact fun r p hp => h r p ((List.mem_inits p r.path).mpr hp)

theorem above_iff_directory {a r : InstallRoleV1} : Above a r ↔ a.path <+: r.directory := by
  constructor
  · intro ⟨hpre, hne⟩
    rw [path_eq r] at hpre
    rcases List.prefix_concat_iff.mp hpre with heq | hin
    · exact absurd (path_injective (heq.trans (path_eq r).symm)) hne
    · exact hin
  · intro h
    refine ⟨h.trans (by rw [path_eq r]; exact List.prefix_append ..), ?_⟩
    intro heq
    have := h.length_le
    rw [heq, path_eq r, List.length_append, List.length_singleton] at this
    omega

theorem basename_ne_dot : ∀ r : InstallRoleV1, r.basename.toList.head? ≠ some '.' := by
  decide

/-- Two names in two directories of roles. -/
theorem directory_append_eq {r r' : InstallRoleV1} {a b : String} (h : r.directory ++ [a] = r'.directory ++ [b]) :
    r.directory = r'.directory ∧ a = b := by
  obtain ⟨hdir, hname⟩ := List.append_inj' h rfl
  exact ⟨hdir, List.singleton_inj.mp hname⟩

/-- A name with a leading dot is no role's. -/
theorem path_ne_dot {p : Path} {name : String} (hname : name.toList.head? = some '.') (r : InstallRoleV1) :
    r.path ≠ p ++ [name] := by
  intro h
  rw [path_eq] at h
  have := (List.append_inj' h rfl).2
  exact basename_ne_dot r (List.singleton_inj.mp this ▸ hname)

end InstallRoleV1

/-! ### The names of a transaction -/

/-- The name of a role's new file while it is being written, as `journal_entry` forms it. -/
def siblingBasename (transactionId : String) (r : InstallRoleV1) : String :=
  ".l2-loop-" ++ transactionId ++ "-" ++ toString r.installOrder ++ ".new"

/-- The name under which the file that a role's new file replaces is kept. -/
def backupBasename (transactionId : String) (r : InstallRoleV1) : String :=
  ".l2-loop-" ++ transactionId ++ "-" ++ toString r.installOrder ++ ".bak"

def siblingPath (transactionId : String) (r : InstallRoleV1) : Path :=
  r.directory ++ [siblingBasename transactionId r]

def backupPath (transactionId : String) (r : InstallRoleV1) : Path :=
  r.directory ++ [backupBasename transactionId r]

/-- The three paths that a transaction uses for a role. -/
def Named (transactionId : String) (r : InstallRoleV1) (q : Path) : Prop :=
  q = r.path ∨ q = siblingPath transactionId r ∨ q = backupPath transactionId r

/-- The name of the directory in which a transaction keeps its journal at first. -/
def bootstrapName (transactionId : String) : String := ".l2-loop-install-" ++ transactionId

def bootstrapHome (transactionId : String) : Path :=
  InstallRoleV1.varLibRoot.path ++ [bootstrapName transactionId]

/-- The directory in which a published journal lies. -/
def finalHome (transactionId : String) : Path := InstallRoleV1.transactionsRoot.path ++ [transactionId]

section Names
variable {tx : String} {r r' : InstallRoleV1}

theorem head?_append {front rest : String} {c : Char} (h : front.toList.head? = some c) :
    (front ++ rest).toList.head? = some c := by
  rw [String.toList_append, List.head?_append, h, Option.some_or]

theorem siblingBasename_head : (siblingBasename tx r).toList.head? = some '.' :=
  head?_append (head?_append (head?_append (head?_append (by decide))))

theorem backupBasename_head : (backupBasename tx r).toList.head? = some '.' :=
  head?_append (head?_append (head?_append (head?_append (by decide))))

theorem bootstrapName_head : (bootstrapName tx).toList.head? = some '.' :=
  head?_append (by decide)

theorem bootstrapName_injective {other : String} (h : bootstrapName tx = bootstrapName other) : tx = other :=
  (String.append_right_inj ".l2-loop-install-").mp h

theorem toString_installOrder_injective : ∀ a b : InstallRoleV1, toString a.installOrder = toString b.installOrder →
    a = b := by
  decide

theorem siblingBasename_injective (h : siblingBasename tx r = siblingBasename tx r') : r = r' := by
  have := congrArg String.toList h
  simp only [siblingBasename, String.toList_append, List.append_assoc, List.append_cancel_left_eq,
    List.append_cancel_right_eq] at this
  exact toString_installOrder_injective _ _ (String.toList_inj.mp this)

theorem backupBasename_injective (h : backupBasename tx r = backupBasename tx r') : r = r' := by
  have := congrArg String.toList h
  simp only [backupBasename, String.toList_append, List.append_assoc, List.append_cancel_left_eq,
    List.append_cancel_right_eq] at this
  exact toString_installOrder_injective _ _ (String.toList_inj.mp this)

theorem siblingBasename_ne_backupBasename : siblingBasename tx r ≠ backupBasename tx r' := by
  intro h
  have hlist := congrArg String.toList h
  rw [siblingBasename, backupBasename, String.toList_append, String.toList_append (t := ".bak")] at hlist
  have hend : ".new".toList = ".bak".toList := (List.append_inj' hlist (by decide)).2
  exact absurd hend (by decide)

/-- Different roles use different paths. -/
theorem Named.eq_role {q : Path} (h : Named tx r q) (h' : Named tx r' q) : r = r' := by
  unfold Named siblingPath backupPath at h h'
  rcases h with rfl | rfl | rfl
  · rcases h' with h' | h' | h'
    · exact InstallRoleV1.path_injective h'
    · exact absurd h' (InstallRoleV1.path_ne_dot siblingBasename_head r)
    · exact absurd h' (InstallRoleV1.path_ne_dot backupBasename_head r)
  · rcases h' with h' | h' | h'
    · exact absurd h'.symm (InstallRoleV1.path_ne_dot siblingBasename_head r')
    · exact siblingBasename_injective (InstallRoleV1.directory_append_eq h').2
    · exact absurd (InstallRoleV1.directory_append_eq h').2 siblingBasename_ne_backupBasename
  · rcases h' with h' | h' | h'
    · exact absurd h'.symm (InstallRoleV1.path_ne_dot backupBasename_head r')
    · exact absurd (InstallRoleV1.directory_append_eq h').2.symm siblingBasename_ne_backupBasename
    · exact backupBasename_injective (InstallRoleV1.directory_append_eq h').2

theorem Named.exists_name {q : Path} (h : Named tx r q) : ∃ name, q = r.directory ++ [name] := by
  rcases h with rfl | rfl | rfl
  · exact ⟨_, r.path_eq⟩
  · exact ⟨_, rfl⟩
  · exact ⟨_, rfl⟩

/-- The path belongs to the transaction's journal. -/
def Private (tx : String) (q : Path) : Prop := bootstrapHome tx <+: q ∨ finalHome tx <+: q

/-- The path is neither the journal's nor a directory that a rollback leaves behind. -/
def Visible (tx : String) (q : Path) : Prop :=
  ¬Private tx q ∧ ∀ a : InstallRoleV1, a.isJournalRetentionDirectory = true → q ≠ a.path

/-- No role's directory lies in the journal's. -/
theorem not_bootstrapHome_prefix_path (r : InstallRoleV1) : ¬bootstrapHome tx <+: r.path := by
  intro h
  obtain ⟨a, ha⟩ := InstallRoleV1.prefix_role r _ h (by simp [bootstrapHome])
  exact InstallRoleV1.path_ne_dot bootstrapName_head a ha

theorem directory_ne_transactionsRoot : ∀ r : InstallRoleV1, r.directory ≠ InstallRoleV1.transactionsRoot.path := by
  decide

theorem not_finalHome_prefix_path (r : InstallRoleV1) : ¬finalHome tx <+: r.path := by
  intro h
  obtain ⟨a, ha⟩ := InstallRoleV1.prefix_role r _ h (by simp [finalHome])
  rw [finalHome, InstallRoleV1.path_eq a] at ha
  exact directory_ne_transactionsRoot a (List.append_inj' ha rfl).1

theorem not_private_path (r : InstallRoleV1) : ¬Private tx r.path := fun h =>
  h.elim (not_bootstrapHome_prefix_path r) (not_finalHome_prefix_path r)

theorem length_installOrder : ∀ r : InstallRoleV1, (toString r.installOrder).length ≠ 3 := by
  decide

theorem length_bootstrapName : (bootstrapName tx).length = 17 + tx.length := by
  have hfront : ".l2-loop-install-".length = 17 := by decide
  have hlength := String.length_append ".l2-loop-install-" tx
  rw [hfront] at hlength
  exact hlength

/-- A name that ends in four characters is too long or too short for the journal's first home. -/
theorem length_name {suffix : String} (hsuffix : suffix.length = 4) :
    (".l2-loop-" ++ tx ++ "-" ++ toString r.installOrder ++ suffix).length =
      14 + tx.length + (toString r.installOrder).length := by
  have hfront : ".l2-loop-".length = 9 := by decide
  have hdash : "-".length = 1 := by decide
  rw [String.length_append _ suffix, String.length_append _ (toString r.installOrder), String.length_append _ "-",
    String.length_append ".l2-loop-" tx, hfront, hdash, hsuffix]
  omega

theorem siblingBasename_ne_bootstrapName : siblingBasename tx r ≠ bootstrapName tx := by
  intro h
  have hlength := congrArg String.length h
  rw [siblingBasename, length_name (by decide), length_bootstrapName] at hlength
  exact length_installOrder r (by omega)

theorem backupBasename_ne_bootstrapName : backupBasename tx r ≠ bootstrapName tx := by
  intro h
  have hlength := congrArg String.length h
  rw [backupBasename, length_name (by decide), length_bootstrapName] at hlength
  exact length_installOrder r (by omega)

theorem directory_ne_varLibRoot : ∀ r : InstallRoleV1, r.isJournalRetentionDirectory = false →
    r.directory ≠ InstallRoleV1.varLibRoot.path := by
  decide

/-- What lies beside a role's object is the journal's only if it has the name of its first home. -/
theorem private_beside {name : String} (h : Private tx (r.directory ++ [name])) :
    r.directory = InstallRoleV1.varLibRoot.path ∧ name = bootstrapName tx := by
  have hpath : ∀ {p : Path}, p <+: r.directory → p <+: r.path := fun h =>
    h.trans (by rw [r.path_eq]; exact List.prefix_append ..)
  rcases h with h | h
  · rcases List.prefix_concat_iff.mp h with heq | hin
    · obtain ⟨hdir, hname⟩ := List.append_inj' heq rfl
      exact ⟨hdir.symm, (List.singleton_inj.mp hname).symm⟩
    · exact absurd (hpath hin) (not_bootstrapHome_prefix_path r)
  · rcases List.prefix_concat_iff.mp h with heq | hin
    · exact absurd (List.append_inj' heq rfl).1.symm (directory_ne_transactionsRoot r)
    · exact absurd (hpath hin) (not_finalHome_prefix_path r)

theorem not_private_beside (hr : r.isJournalRetentionDirectory = false) (name : String) :
    ¬Private tx (r.directory ++ [name]) := fun h => directory_ne_varLibRoot r hr (private_beside h).1

theorem Named.not_private {q : Path} (h : Named tx r q) : ¬Private tx q := by
  intro hprivate
  rcases h with rfl | rfl | rfl
  · exact not_private_path r hprivate
  · exact siblingBasename_ne_bootstrapName (private_beside hprivate).2
  · exact backupBasename_ne_bootstrapName (private_beside hprivate).2

/-- The paths that a transaction uses for a role it does not leave behind. -/
theorem Named.visible {q : Path} (h : Named tx r q) (hr : r.isJournalRetentionDirectory = false) : Visible tx q := by
  refine ⟨h.not_private, ?_⟩
  intro a ha heq
  have hsame : a = r := Named.eq_role (.inl heq) h
  rw [hsame, hr] at ha
  cases ha

end Names

end NetworkLoop.Install
