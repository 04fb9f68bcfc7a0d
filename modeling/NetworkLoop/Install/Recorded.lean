import NetworkLoop.Install.Runtime
import NetworkLoop.Install.Standing

/-! A journal on disk, and the disk it records.

`Recorded` is what every command finds as long as nothing has gone wrong: the journal can
be read, its sibling is not there, and the entries in force stand as the journal says. It
allows for one role whose object the journal does not know of. `persist_recorded` takes
the journal from one record to the next. The other half of the module is about journals
from which `rollback_journal` does not come back: it stops for good where the journal is
only prepared, where the sibling is there, and where the next object to take back is gone. -/
namespace NetworkLoop.Install
open Library Program Disk

/-- The paths of which nothing is known: the names of the role that the journal missed. -/
def unknown (tx : String) (left : Option InstallRoleV1) (q : Path) : Prop := ∃ r ∈ left, Named tx r q

/-- How many steps of the journal are still to come, apart from the entries'. -/
def slack : InstallJournalStateV1 → Nat
  | .rolledBack => 0
  | .rollingBack => 1
  | _ => 2

/-- The disk, as far as the journal's entries go. -/
structure Records (base : Path → Option Node) (tx : String) (left : Option InstallRoleV1) (home : Path) (j : InstallJournalV1)
    (s : Disk) : Prop where
  standing : Standing base tx (unknown tx left) s home (onOf j.entries)
  named : ∀ e ∈ j.entries, NamedEntry tx e
  possible : j.rollbackPossible = true
  room : j.durableStep + (onOf j.entries).length + slack j.state ≤ 128
  leftovers : ∀ r ∈ left, (∃ q, Named tx r q ∧ s.get q ≠ none ∧ (r.isJournalRetentionDirectory = false → base q = none)) ∧
    ∀ e ∈ onOf j.entries, e.role.installOrder < r.installOrder
  kept : ∀ a : InstallRoleV1, a.isJournalRetentionDirectory = true → (∀ e ∈ j.entries, e.role ≠ a) →
    s.get a.path = base a.path

/-- The journal on disk, and what it records. -/
structure Recorded (base : Path → Option Node) (tx : String) (left : Option InstallRoleV1) (home : Path) (j : InstallJournalV1)
    (s : Disk) : Prop extends Holds s tx home j, Records base tx left home j s where
  alone : s.get (home ++ [journalSiblingBasename]) = none

variable {base : Path → Option Node} {d s : Disk} {tx : String} {left : Option InstallRoleV1} {home : Path} {j j' : InstallJournalV1}

theorem Records.step_lt (h : Records base tx left home j s) : j.durableStep + 1 < u64Bound := by
  have := h.room
  have : 256 < u64Bound := by decide
  omega

theorem Recorded.valid_journal (h : Recorded base tx left home j s) : j.Valid :=
  (InstallJournalV1.validate_iff j).mp h.readable

theorem unknown_none (q : Path) : ¬unknown tx none q := fun ⟨_, hr, _⟩ => by cases hr

theorem Records.move {home' : Path} (h : Records base tx left home j d) (hat : AtHome s tx home')
    (hs : ∀ q, ¬Private tx q → s.get q = d.get q) : Records base tx left home' j s where
  standing := h.standing.move hat hs
  named := h.named
  possible := h.possible
  room := h.room
  leftovers := by
    intro r hr
    obtain ⟨⟨q, hq, hleft, hfree⟩, horder⟩ := h.leftovers r hr
    exact ⟨⟨q, hq, by rwa [hs q hq.not_private], hfree⟩, horder⟩
  kept := fun a ha hother => by rw [hs _ (not_private_path a), h.kept a ha hother]

theorem Records.update_home (h : Records base tx left home j d) {name : String} {node : Option Node}
    (hs : s.get = Function.update d.get (home ++ [name]) node) : Records base tx left home j s := by
  refine h.move (h.standing.toAtHome.update hs) fun q hq => ?_
  have hother : q ≠ home ++ [name] := fun heq => hq (heq ▸ h.standing.toAtHome.private [name])
  rw [hs, Function.update_of_ne hother]

theorem Holds.of_get (h : Holds d tx home j) (hs : s.get = d.get) : Holds s tx home j where
  toAtHome := h.toAtHome.congr (fun a _ => by rw [hs]) (by rw [hs]) (by rw [hs])
  file := by
    rw [hs]
    exact h.file
  bound := h.bound
  readable := h.readable

theorem Recorded.of_get (h : Recorded base tx left home j d) (hs : s.get = d.get) : Recorded base tx left home j s where
  toHolds := h.toHolds.of_get hs
  toRecords := h.toRecords.move (h.toHolds.of_get hs).toAtHome fun q _ => by rw [hs]
  alone := by rw [hs, h.alone]

/-- The sibling of a journal that can be found. -/
def Stray (tx : String) (s : Disk) : Prop := ∃ home, AtHome s tx home ∧ s.get (home ++ [journalSiblingBasename]) ≠ none

namespace Runner
open Fs

theorem fs_meets {α : Type} {P : Disk → Prop} {p : Fs α} {Q : α → Disk → Prop} {I : Cause InstallIoError → Site → Disk → Prop}
    {I' : Cause Unit → Site → Disk → Prop} (h : Meets P p Q I) (hfault : ∀ f at_ s, I (.fault f) at_ s → I' (.fault f) at_ s)
    (hrefuse : ∀ e at_ s, I (.refusal e) at_ s → I' (.refusal ()) at_ s) : Meets P (fs p) Q I' := by
  refine Meets.mapError h fun cause at_ s hI => ?_
  cases cause with
  | refusal e => exact hrefuse e at_ s hI
  | fault f => exact hfault f at_ s hI

/-- Nothing has changed but names in this directory. -/
def OnlyAt (home : Path) (d s : Disk) : Prop := ∀ q, (∀ name, q ≠ home ++ [name]) → s.get q = d.get q

theorem OnlyAt.path {u : Disk} (h : OnlyAt home d s) (hat : AtHome u tx home) (a : InstallRoleV1) :
    s.get a.path = d.get a.path :=
  h _ fun name heq => not_private_path a (heq ▸ hat.private [name])

theorem OnlyAt.child {u : Disk} (h : OnlyAt home d s) (hat : AtHome u tx home) (a : InstallRoleV1) (child : String) :
    s.get (a.path ++ [child]) = d.get (a.path ++ [child]) := by
  have hprivate : Private tx home := by
    have := hat.private []
    rwa [List.append_nil] at this
  refine h _ fun name heq => ?_
  rw [← (List.append_inj' heq rfl).1] at hprivate
  exact not_private_path a hprivate

/-- What a stop of `persist_journal` leaves, seen as records. -/
def PersistEnd (base : Path → Option Node) (tx : String) (left : Option InstallRoleV1) (home : Path) (j : InstallJournalV1) (d s : Disk) :
    PersistSite → Prop
  | .check | .write .create => s.get = d.get
  | .write _ | .rename => ∃ node, s.get = Function.update d.get (home ++ [journalSiblingBasename]) (some node)
  | .sync | .validate => Recorded base tx left home j s ∧ OnlyAt home d s

/-- **From one record to the next.** The disk is already as the new journal says. -/
theorem persist_recorded {reason : PersistReason} (hold : Holds d tx home j)
    (hfree : d.get (home ++ [journalSiblingBasename]) = none) (hnew : Records base tx left home j' d)
    (hbound : j'.bindings.transactionId = tx) (hvalid : j'.Valid) :
    Meets (· = d) (fs (persistJournal reason j'))
      (fun _ s => Recorded base tx left home j' s ∧ OnlyAt home d s)
      (fun cause at_ s => (∃ hit, cause = .fault hit) ∧ ∃ step, at_ = .persist reason step ∧
        PersistEnd base tx left home j' d s step) := by
  have hreadable : j'.validate = .ok () := (InstallJournalV1.validate_iff j').mpr hvalid
  have hdone : ∀ {s : Disk} {node : Node}, WrittenJournal j' node →
      s.get = Function.update d.get (home ++ [journalBasename]) (some node) →
      Recorded base tx left home j' s ∧ OnlyAt home d s := by
    intro s node hnode hs
    have hne : home ++ [journalSiblingBasename] ≠ home ++ [journalBasename] := fun heq =>
      journalSiblingBasename_ne (List.singleton_inj.mp (List.append_cancel_left heq))
    refine ⟨⟨⟨hold.toAtHome.update hs, ⟨node, by rw [hs, Function.update_self], hnode⟩, hbound, hreadable⟩,
      hnew.update_home hs, by rw [hs, Function.update_of_ne hne, hfree]⟩, fun q hq => ?_⟩
    rw [hs, Function.update_of_ne (hq journalBasename)]
  refine fs_meets (Meets.mono (persist_meets hold hfree hbound hreadable) (fun s hs => hs)
    (fun _ s ⟨node, hnode, hs⟩ => hdone hnode hs) (fun _ _ _ h => h)) ?_ ?_
  · intro f at_ s ⟨_, step, hat, hstop⟩
    refine ⟨⟨f, rfl⟩, step, hat, ?_⟩
    cases step with
    | check => exact hstop
    | write step =>
      cases step with
      | create => exact hstop
      | write | own | mode | fileSync => exact hstop
    | rename => exact hstop
    | sync | validate =>
      obtain ⟨node, hnode, hs⟩ := hstop
      exact hdone hnode hs
  · intro e at_ s ⟨⟨hit, hfault⟩, _⟩
    cases hfault

theorem stray_of_update {node : Node} (h : AtHome d tx home)
    (hs : s.get = Function.update d.get (home ++ [journalSiblingBasename]) (some node)) : Stray tx s :=
  ⟨home, h.update hs, by rw [hs, Function.update_self]; simp⟩

/-! ### Rollbacks that do not come back -/

/-- No rollback of this journal completes. -/
def Stuck (j : InstallJournalV1) (s : Disk) : Prop := ∀ strike j' s', rollbackJournal j strike s ≠ .done j' s'

/-- Whatever journal there is, it cannot be rolled back any more. -/
def Lost (tx : String) (s : Disk) : Prop :=
  ∀ j, loadJournalExact s tx = .ok j → j.state ≠ .rolledBack ∧ Stuck j s

/-- As long as the sibling is there, nothing can be recorded. -/
theorem persist_stray {reason : PersistReason} (hbound : j.bindings.transactionId = tx) :
    Ends (Stray tx) (fs (persistJournal reason j)) (fun _ _ => False) := by
  refine Ends.mapError (Ends.bind_never (Ends.look ?_))
  intro s directory ⟨home, hat, hsibling⟩ hok
  exact persistCheck_stray hat hsibling hbound directory hok

theorem record_ends {reply : JournalReply} {P : Disk → Prop} {Q : InstallJournalV1 → Disk → Prop}
    (hok : ∀ next, reply = (.ok (), next) → ∀ s, P s → Q next s) : Ends P (record reply) Q := by
  refine Ends.require fun s found hs hrun => ?_
  obtain ⟨result, next⟩ := reply
  cases result with
  | error err => cases hrun
  | ok =>
    cases hrun
    exact hok _ rfl s hs

/-- A record of an operation that succeeds. -/
theorem record_ok {reply : JournalReply} {P : Disk → Prop} {I : Cause Unit → Site → Disk → Prop}
    (hreply : reply = (.ok (), j)) : Meets P (record reply) (fun next s => next = j ∧ P s) I := by
  subst hreply
  refine Meets.require (fun s _ _ hrun => ?_) (fun s next hs hrun => ?_)
  · cases hrun
  · cases hrun
    exact ⟨rfl, hs⟩

/-- A prepared journal has nothing to roll back. -/
theorem stuck_of_prepared (hstate : j.state = .prepared) : Stuck j s := by
  have hnever : Ends (· = s) (rollbackJournal j) (fun _ _ => False) := by
    refine Ends.bind_never ?_
    unfold ensureRollingBack
    rw [if_pos (by simp [hstate])]
    refine Ends.bind_never (record_ends fun next hok => ?_)
    rw [InstallJournalV1.beginRollback, if_pos (by simp [hstate])] at hok
    cases hok
  exact fun strike j' s' hrun => hnever strike s j' s' rfl hrun

theorem bindings_of_ok {o : JournalOperation} (hok : j.state ≠ .planned → EntriesOk j.entries)
    (h : o.run j = (.ok (), j')) : j'.bindings = j.bindings := by
  have hdone := InstallJournalV1.performed hok o (by rw [h])
  rw [h] at hdone
  cases hdone <;> rfl

theorem valid_of_ok {o : JournalOperation} (hvalid : j.Valid) (h : o.run j = (.ok (), j')) (hno : ¬o.Slips j) :
    j'.Valid := by
  have hdone := InstallJournalV1.performed hvalid.entries o (by rw [h])
  rw [h] at hdone
  exact hvalid.performed hdone hno

/-- The first thing that a rollback has to record cannot be recorded. -/
theorem stuck_of_stray (hbound : j.bindings.transactionId = tx) (hok : j.state ≠ .planned → EntriesOk j.entries)
    (hhead : j.state ≠ .rollingBack ∨ j.nextRollbackAction = none → Stray tx s)
    (hundo : ∀ action, j.nextRollbackAction = some action → Ends (· = s) (undo action) (fun _ s' => Stray tx s')) :
    Stuck j s := by
  have hnever : Ends (· = s) (rollbackJournal j) (fun _ _ => False) := by
    have hlast : ∀ {β : Type} {reason : PersistReason} {o : JournalOperation} {k : InstallJournalV1 → Runner β},
        Ends (Stray tx) (record (o.run j) >>= fun j' => fs (persistJournal reason j') >>= fun _ => k j')
          (fun _ _ => False) := by
      intro β reason o k
      refine Ends.bind (Q := fun j' s' => j'.bindings.transactionId = tx ∧ Stray tx s') ?_ fun j' => ?_
      · exact record_ends fun j' heq s' hs' => ⟨by rw [bindings_of_ok hok heq, hbound], hs'⟩
      · refine Ends.bind_never ?_
        intro strike s' _ t ⟨hbound', hs'⟩ hrun
        exact persist_stray hbound' strike s' _ t hs' hrun
    have hthen : ∀ {β : Type} {p : Runner β}, Stray tx s → Ends (Stray tx) p (fun _ _ => False) →
        Ends (· = s) p (fun _ _ => False) := by
      intro β p hstray hp
      refine hp.mono (fun s' hs' => ?_) fun _ _ h => h
      rw [hs']
      exact hstray
    unfold rollbackJournal ensureRollingBack
    by_cases hstate : j.state = .rollingBack
    · rw [if_neg (not_not_intro hstate)]
      refine Ends.bind (Q := fun rolling s' => rolling = j ∧ s' = s) (Ends.pure fun s' hs' => ⟨rfl, hs'⟩)
        fun rolling => Ends.intro fun s' ⟨hrolling, hs'⟩ => ?_
      rw [hrolling, hs']
      cases hnext : j.nextRollbackAction with
      | none =>
        rw [loop_none (by rw [hnext]; rfl)]
        refine Ends.bind (Q := fun last t => last = j ∧ t = s) (Ends.pure fun t ht => ⟨rfl, ht⟩)
          fun last => Ends.intro fun t ⟨hlast', ht⟩ => ?_
        rw [hlast', ht]
        exact hthen (hhead (.inr hnext)) (hlast (o := .markRolledBack))
      | some action =>
        refine Ends.bind_never ?_
        cases j.entries.length with
        | zero =>
          unfold loop
          rw [hnext]
          exact Ends.require fun _ _ _ h => by cases h
        | succ fuel =>
          rw [loop_some (by rw [hnext]; rfl)]
          refine Ends.bind_never ?_
          exact Ends.bind (Ends.mapError (hundo action hnext)) fun _ => hlast (o := .recordRollbackCompleted action)
    · rw [if_pos hstate]
      exact Ends.bind_never (hthen (hhead (.inl hstate)) (hlast (o := .beginRollback)))
  exact fun strike j' s' hrun => hnever strike s j' s' rfl hrun

end Runner

end NetworkLoop.Install
