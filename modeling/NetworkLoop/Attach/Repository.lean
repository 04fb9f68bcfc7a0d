import NetworkLoop.Attach.Sessions
import NetworkLoop.Attach.Journals

/-! The control over the file repository, as `main.rs` puts them together.

The other ports work in one world and the repository on a disk beside it, where the journals are looked
for: what there is of a run's journal is what can be read of it. Seen so the ports keep their contract
(`Keeps.withRepository`), and the control's reader reads what is there (`loadFrom_reads`), so that what is
known of every run of the control is known of the journals on the disk (`session_journals`). -/
namespace NetworkLoop.Attach
open Library Custody Tc Xdp
open Observation (fewIds)

section
variable {τ δ : Type}

/-! ### The ports -/

/-- The repository is the transaction's ownership port. -/
def AttachmentPorts.withRepository (p : AttachmentPorts τ) (fs : StdFs δ) (json : RecordJson) : AttachmentPorts (τ × δ) where
  preflight := ⟨fun interface => inFirst (p.preflight.inspect interface)⟩
  limits := ⟨inFirst p.limits.raiseMemlockToInfinity⟩
  loader := ⟨fun pins => inFirst (p.loader.loadAndValidateAbi pins), fun loaded => inFirst (p.loader.unloadExact loaded)⟩
  xdp := ⟨fun i mode loaded => inFirst (p.xdp.attachNoReplace i mode loaded), fun owned => inFirst (p.xdp.verifyExact owned),
    fun owned => inFirst (p.xdp.detachExact owned)⟩
  tc := ⟨fun i hook loaded => inFirst (p.tc.attachExplicit i hook loaded), fun owned => inFirst (p.tc.verifyExact owned),
    fun owned => inFirst (p.tc.detachExact owned)⟩
  maps := ⟨fun loaded i generation => inFirst (p.maps.initializeDependent loaded i generation),
    fun loaded i generation => inFirst (p.maps.publishIfaceConfig loaded i generation),
    fun loaded i generation => inFirst (p.maps.rollbackInitializedExact loaded i generation)⟩
  ownership := ⟨fun record => inSecond (FileOwnershipRepository.save fs json record),
    fun record => inSecond (FileOwnershipRepository.removeExact fs json record)⟩

/-- The reader of the control is the repository too. -/
def loadFrom (fs : StdFs δ) (json : RecordJson) (runId : RunId) (w : τ × δ) : Except PortError OwnershipRecord :=
  (FileOwnershipRepository.load fs json runId w.2).1

/-! ### The contract -/

def journals : Set Resource := Set.range .journal

/-- The journals are those on the disk. -/
def presentWith (json : RecordJson) (entries : δ → Entries) (present : τ → Set Resource) : τ × δ → Set Resource :=
  divided journals present (journalsIn json ∘ entries)

def leavesWith (fs : StdFs δ) (leaves : Port → Set Resource) : Port → Set Resource
  | .ownership => unsyncedJournals fs
  | port => leaves port \ journals

variable {p : AttachmentPorts τ} {fs : StdFs δ} {entries : δ → Entries} {json : RecordJson} {present : τ → Set Resource}
  {leaves : Port → Set Resource}

theorem journalsIn_subset (d : Entries) : journalsIn json d ⊆ journals := by
  rintro _ ⟨_, record, rfl, -⟩
  exact ⟨record, rfl⟩

theorem journals_apart {things : Set Resource} (h : ∀ record, .journal record ∉ things) : Disjoint journals things := by
  refine Set.disjoint_left.mpr ?_
  rintro _ ⟨record, rfl⟩
  exact h record

theorem journal_mem_presentWith {record : OwnershipRecord} {w : τ × δ} : .journal record ∈ presentWith json entries present w ↔
    ∃ runId, record.IsOf runId ∧ Journaled json (entries w.2) runId record := by
  constructor
  · rintro (⟨-, hother⟩ | ⟨runId, _, heq, hof, hread⟩)
    · exact absurd ⟨record, rfl⟩ hother
    · cases heq
      exact ⟨runId, hof, hread⟩
  · rintro ⟨runId, hof, hread⟩
    exact .inr ⟨runId, record, rfl, hof, hread⟩

/-- A run's journal is not read for another run. -/
theorem journaled_of_mem {runId : RunId} {record : OwnershipRecord} (hof : record.IsOf runId) {w : τ × δ}
    (h : .journal record ∈ presentWith json entries present w) : Journaled json (entries w.2) runId record := by
  obtain ⟨other, hother, hread⟩ := journal_mem_presentWith.mp h
  exact hof.unique hother ▸ hread

/-- **The ports keep their contract with the repository as one of them.** -/
theorem AttachmentPorts.Keeps.withRepository (hp : p.Keeps present leaves) (hfs : fs.Behaves entries) (hjson : json.RoundTrips) :
    (p.withRepository fs json).Keeps (presentWith json entries present) (leavesWith fs leaves) where
  inspect interface := (hp.inspect interface).inFirst
  limits := hp.limits.inFirst
  load pins := (hp.load pins).inFirst (fun _ => journalsIn_subset _) (fun _ => subset_rfl) fun _ => journals_apart (by simp)
  loaded pins s loaded s' h :=
    have hloaded := hp.loaded pins s.1 loaded s'.1 (inFirst_eq h)
    ⟨hloaded.1, hloaded.2.inFirst (fun _ => journalsIn_subset _) (journals_apart (by simp))⟩
  attachXdp i mode loaded :=
    (hp.attachXdp i mode loaded).inFirst (fun _ => journalsIn_subset _) (fun _ => subset_rfl) fun _ => journals_apart (by simp)
  verifyXdp owned := (hp.verifyXdp owned).inFirst
  detachXdp i mode loaded s owned s' h :=
    (hp.detachXdp i mode loaded s.1 owned s'.1 (inFirst_eq h)).inFirst (fun _ => journalsIn_subset _) (journals_apart (by simp))
  attachTc i hook loaded := (hp.attachTc i hook loaded).inFirst (fun _ => journalsIn_subset _) (fun _ => subset_rfl) fun owned =>
    journals_apart (journal_not_mem_tcThings owned)
  verifyTc owned := (hp.verifyTc owned).inFirst
  detachTc i hook loaded s owned s' h := (hp.detachTc i hook loaded s.1 owned s'.1 (inFirst_eq h)).inFirst
    (fun _ => journalsIn_subset _) (journals_apart (journal_not_mem_tcThings owned))
  initializeMaps loaded i generation := (hp.initializeMaps loaded i generation).inFirst (fun _ => journalsIn_subset _)
    (fun _ => Set.singleton_subset_iff.mpr (.inl rfl)) fun _ => journals_apart (by simp)
  publish loaded i generation :=
    (hp.publish loaded i generation).inFirst (fun _ => journalsIn_subset _) (fun _ => subset_rfl) fun _ => journals_apart (by simp)
  rollbackMaps loaded i generation :=
    (hp.rollbackMaps loaded i generation).inFirst (fun _ => journalsIn_subset _) (journals_apart (by simp))
  save record := (FileOwnershipRepository.save_acquires hfs hjson record).inSecond fun _ => Set.singleton_subset_iff.mpr ⟨record, rfl⟩
  remove record := (FileOwnershipRepository.removeExact_releases hfs record).inSecond (Set.singleton_subset_iff.mpr ⟨record, rfl⟩)

theorem loadFrom_reads (hfs : fs.Behaves entries) : ReadsJournals (loadFrom fs json) (presentWith json entries present) :=
  fun runId w _ hload hroot => .inr (FileOwnershipRepository.load_there hfs runId w.2 hload hroot)

/-! ### The journals of the runs -/

theorem journal_mem_covers {session : AttachmentSession} {record : OwnershipRecord} :
    .journal record ∈ covers session.cleanups ↔ session.ownership = record := by
  constructor
  · rintro ⟨step, hstep, hthing⟩
    cases step with
    | journal owned =>
      cases Set.mem_singleton_iff.mp hthing
      simpa [AttachmentSession.cleanups, eq_comm] using hstep
    | maps loaded ifindex generation => simp [Cleanup.things] at hthing
    | tc owned => exact absurd hthing (journal_not_mem_tcThings owned record)
    | xdp owned => simp [Cleanup.things] at hthing
    | object loaded => simp [Cleanup.things] at hthing
  · rintro rfl
    exact ⟨.journal session.ownership, List.mem_cons_self, rfl⟩

theorem journal_mem_leavesWith {port : Port} {record : OwnershipRecord} (h : .journal record ∈ leavesWith fs leaves port) :
    ¬fs.SyncsDirectory := by
  cases port with
  | ownership => exact h.2
  | _ => exact absurd ⟨record, rfl⟩ h.2

/-- **The journals on the disk are those of the sessions.** What there was stays, and the active session can
be read back until a detach of it has failed; a lost one stays. Beside these there are only journals that an
error names, unless the directory cannot be synced. -/
theorem session_journals (hp : p.Keeps present leaves) (hfs : fs.Behaves entries) (hjson : json.RoundTrips) (w : τ × δ)
    (incidentOutput : Bool) (calls : List ControlCall)
    (hunused : (controlling (p.withRepository fs json) (loadFrom fs json)).Obeys (Unused (presentWith json entries present))
      (.new w incidentOutput) calls) :
    let run := (controlling (p.withRepository fs json) (loadFrom fs json)).run (.new w incidentOutput, []) calls
    let now := entries run.1.transaction.world.2
    (∀ runId record, record.IsOf runId → Journaled json (entries w.2) runId record → Journaled json now runId record) ∧
      (∀ active ∈ run.1.active, active.samplingPaused = false → Journaled json now active.runId active.attachment.ownership) ∧
      (∀ session, .lost session ∈ run.2 → ∃ runId, session.ownership.IsOf runId ∧ Journaled json now runId session.ownership) ∧
      ∀ runId record, record.IsOf runId → Journaled json now runId record → Journaled json (entries w.2) runId record ∨
        (∃ session, .lost session ∈ run.2 ∧ session.ownership = record) ∨
        (∃ active ∈ run.1.active, active.samplingPaused = false ∧ active.runId = runId ∧ active.attachment.ownership = record) ∨
        (∃ error, .failed error ∈ run.2 ∧ error.Names (.journal record)) ∨ ¬fs.SyncsDirectory := by
  intro run now
  have h : Accounted (p.withRepository fs json) (presentWith json entries present) (leavesWith fs leaves)
      (presentWith json entries present w) run.1 run.2 := accounted_run (hp.withRepository hfs hjson) w incidentOutput calls hunused
  have hrooted : ∀ active ∈ run.1.active, active.attachment.ownership.IsOf active.runId := h.rooted
  refine ⟨fun runId record hof hread => ?_, fun active hactive hpaused => ?_, fun session hlost => ?_, fun runId record hof hread => ?_⟩
  · exact journaled_of_mem hof (h.kept (journal_mem_presentWith.mpr ⟨runId, hof, hread⟩))
  · exact journaled_of_mem (hrooted active hactive) (h.whole active hactive hpaused (journal_mem_covers.mpr rfl))
  · exact journal_mem_presentWith.mp (h.lost _ ⟨session, hlost, journal_mem_covers.mpr rfl⟩)
  · rcases h.rest _ (journal_mem_presentWith.mpr ⟨runId, hof, hread⟩) with hbefore | ⟨session, hlost, hcovered⟩ |
      ⟨active, hactive, hpaused, hcovered⟩ | hfailed | ⟨port, hleft⟩
    · exact .inl (journaled_of_mem hof hbefore)
    · exact .inr (.inl ⟨session, hlost, journal_mem_covers.mp hcovered⟩)
    · have hsame : active.attachment.ownership = record := journal_mem_covers.mp hcovered
      exact .inr (.inr (.inl ⟨active, hactive, hpaused, (hrooted active hactive).unique (hsame ▸ hof), hsame⟩))
    · exact .inr (.inr (.inr (.inl hfailed)))
    · exact .inr (.inr (.inr (.inr (journal_mem_leavesWith hleft))))

/-- The sample disk with the journal of its run. -/
def savedDisk : PlainDisk := Function.update sampleDisk (entryPath sampleRun.journalName) (some (.file 0o600 (Text.encode sampleText.toList)))

def otherRun : RunId := ⟨"fedcba9876543210fedcba9876543211"⟩

/-- No other record is ever read. -/
theorem journaled_sample {d : Entries} {runId : RunId} {record : OwnershipRecord} (h : Journaled sampleJson d runId record) :
    record = sampleRecord := by
  obtain ⟨mode, contents, -, -, hdecoded⟩ := h
  unfold sampleJson at hdecoded
  dsimp only at hdecoded
  split at hdecoded <;> cases hdecoded
  rfl

theorem savedDisk_journaled : Journaled sampleJson (PlainDisk.entries savedDisk) sampleRun sampleRecord := by
  have hentry : PlainDisk.entries savedDisk sampleRun.journalName = some (.file 0o600 (Text.encode sampleText.toList)) := by
    unfold PlainDisk.entries savedDisk
    rw [Function.update_self]
  have hdecoded : sampleJson.fromSlice (Text.encode sampleText.toList) = .ok sampleRecord := by
    unfold sampleJson
    dsimp only
    rw [if_pos rfl]
  exact ⟨0o600, Text.encode sampleText.toList, hentry, by decide, hdecoded⟩

/-- Another run's attachment leaves the journal as it is. -/
theorem session_journals_saved :
    let run := (controlling (plainPorts.withRepository PlainDisk.fs sampleJson) (loadFrom PlainDisk.fs sampleJson)).run
      (.new (nothingThere, savedDisk) true, []) [.attach ⟨"veth0"⟩ otherRun ⟨some 100, some 100000, 0, fewIds⟩]
    Journaled sampleJson (PlainDisk.entries run.1.transaction.world.2) sampleRun sampleRecord := by
  have hunjournaled : Unjournaled otherRun (presentWith sampleJson PlainDisk.entries PlainWorld.present (nothingThere, savedDisk)) := by
    intro record hthere
    obtain ⟨runId, -, hread⟩ := journal_mem_presentWith.mp hthere
    rw [journaled_sample hread]
    decide
  -- nothing need run the call
  generalize hcall : ControlCall.attach ⟨"veth0"⟩ otherRun ⟨some 100, some 100000, 0, fewIds⟩ = call
  have hunused : (controlling (plainPorts.withRepository PlainDisk.fs sampleJson) (loadFrom PlainDisk.fs sampleJson)).Obeys
      (Unused (presentWith sampleJson PlainDisk.entries PlainWorld.present)) (.new (nothingThere, savedDisk) true) [call] := by
    subst hcall
    exact ⟨fun _ => hunjournaled, trivial⟩
  exact (session_journals plainPorts_keeps PlainDisk.fs_behaves sampleJson_roundTrips (nothingThere, savedDisk) true [call] hunused).1
    sampleRun sampleRecord (by decide) savedDisk_journaled

end

end NetworkLoop.Attach
