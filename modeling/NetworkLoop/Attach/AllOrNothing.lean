import NetworkLoop.Attach.Transaction

/-! Attaching is all or nothing, as far as its ports keep to what is asked of them.

A failed attachment leaves nothing that was not there before, but for what the failed step itself
leaves and for what its error names as retained; a successful one is there whole, and its session
has all that is needed to take it away again. `Keeps` is the contract of the ports, and the proofs
go through the transaction step by step, over the things that it holds so far. -/
namespace NetworkLoop.Attach
open Library Custody Tc Xdp
open Control (InterfaceName)

/-- What there can be of an attachment, and of others. -/
inductive Resource where
  | object (loaded : LoadedBpfObject)
  | link (link : Link)
  | filter (identity : TcKernelIdentity)
  | clsact (ifindex : Nat)
  | counters (loaded : LoadedBpfObject) (ifindex generation : Nat)
  | gate (loaded : LoadedBpfObject) (ifindex generation : Nat)
  | journal (record : OwnershipRecord)

/-- A filter comes with its qdisc if it was created for it. -/
def tcThings (owned : OwnedTc) : Set Resource :=
  {.filter owned.identity} ∪ if owned.createdClsact then {.clsact owned.ifindex} else ∅

/-- What a clean-up step is to take away. -/
def Cleanup.things : Cleanup → Set Resource
  | .journal record => {.journal record}
  | .maps loaded ifindex generation => {.counters loaded ifindex generation, .gate loaded ifindex generation}
  | .tc owned => tcThings owned
  | .xdp owned => {.link owned.link}
  | .object loaded => {.object loaded}

def covers (steps : List Cleanup) : Set Resource := {r | ∃ step ∈ steps, r ∈ step.things}

/-- The directory of a run's pins, which is also what its journal is found by. -/
def OwnershipRecord.runRoot (record : OwnershipRecord) : Option PathBuf := record.mapPins.head?.bind (·.path.parent)

/-- The journals at the place of this record's. -/
def journalsOf (record : OwnershipRecord) : Set Resource := {r | ∃ other, r = .journal other ∧ other.runRoot = record.runRoot}

/-- Whose failure may leave something behind. -/
inductive Port where
  | loader | xdp | tc | maps | ownership
  deriving DecidableEq, Repr

section
variable {τ : Type}

/-- The ports do what they are named for, in the terms of what is present. A port is as documented if
its failed acquisitions leave nothing. -/
structure AttachmentPorts.Keeps (p : AttachmentPorts τ) (present : τ → Set Resource) (leaves : Port → Set Resource) : Prop where
  inspect : ∀ interface, Quiet present (p.preflight.inspect interface)
  limits : Quiet present p.limits.raiseMemlockToInfinity
  load : ∀ pins, Acquires present (p.loader.loadAndValidateAbi pins) (fun loaded => {.object loaded}) (fun loaded => {.object loaded})
    (leaves .loader) ∅
  loaded : ∀ pins s loaded s', p.loader.loadAndValidateAbi pins s = (.ok loaded, s') →
    loaded.mapPins.head?.bind (·.path.parent) = some pins.path ∧ Releases present {.object loaded} (p.loader.unloadExact loaded)
  attachXdp : ∀ i mode loaded, Acquires present (p.xdp.attachNoReplace i mode loaded) (fun owned => {.link owned.link})
    (fun owned => {.link owned.link}) (leaves .xdp) ∅
  verifyXdp : ∀ owned, Quiet present (p.xdp.verifyExact owned)
  detachXdp : ∀ i mode loaded s owned s', p.xdp.attachNoReplace i mode loaded s = (.ok owned, s') →
    Releases present {.link owned.link} (p.xdp.detachExact owned)
  attachTc : ∀ i hook loaded, Acquires present (p.tc.attachExplicit i hook loaded) tcThings tcThings (leaves .tc) ∅
  verifyTc : ∀ owned, Quiet present (p.tc.verifyExact owned)
  detachTc : ∀ i hook loaded s owned s', p.tc.attachExplicit i hook loaded s = (.ok owned, s') →
    Releases present (tcThings owned) (p.tc.detachExact owned)
  initializeMaps : ∀ loaded i generation, Acquires present (p.maps.initializeDependent loaded i generation)
    (fun _ => {.counters loaded i generation}) (fun _ => {.counters loaded i generation, .gate loaded i generation}) (leaves .maps) ∅
  publish : ∀ loaded i generation, Acquires present (p.maps.publishIfaceConfig loaded i generation)
    (fun _ => {.gate loaded i generation}) (fun _ => {.gate loaded i generation}) (leaves .maps) ∅
  rollbackMaps : ∀ loaded i generation, Releases present {.counters loaded i generation, .gate loaded i generation}
    (p.maps.rollbackInitializedExact loaded i generation)
  save : ∀ record, Acquires present (p.ownership.save record) (fun _ => {.journal record}) (fun _ => {.journal record}) (leaves .ownership)
    (journalsOf record)
  remove : ∀ record, Releases present {.journal record} (p.ownership.removeExact record)

/-- The error says that a step which was to take this away has failed. -/
def AttachmentError.Names (e : AttachmentError) (r : Resource) : Prop :=
  ∃ step : Cleanup, ∃ error : PortError, step.label ++ ": " ++ error.text ∈ e.cleanupEvidence ∧ r ∈ step.things

/-- After a failure there is nothing more than before it, but for what one port left and the error
names. -/
def BackedOut (present : τ → Set Resource) (leaves : Port → Set Resource) (before : Set Resource) (e : AttachmentError) (w : τ) : Prop :=
  before ⊆ present w ∧ ∃ port, ∀ r ∈ present w, r ∈ before ∨ r ∈ leaves port ∨ e.Names r

def Releasable (p : AttachmentPorts τ) (present : τ → Set Resource) (steps : List Cleanup) : Prop :=
  ∀ step ∈ steps, Releases present step.things (step.perform p)

variable {p : AttachmentPorts τ} {present : τ → Set Resource} {leaves : Port → Set Resource} {before held : Set Resource}
  {steps steps' : List Cleanup}

/-! ### One step of the transaction -/

/-- `steps'` has one more step. -/
def Grown (steps : List Cleanup) (step : Cleanup) (steps' : List Cleanup) : Prop := ∀ other, other ∈ steps' ↔ other ∈ steps ∨ other = step

theorem Grown.covers {step : Cleanup} (h : Grown steps step steps') : covers steps' = covers steps ∪ step.things := by
  ext r
  constructor
  · rintro ⟨other, hother, hthing⟩
    rcases (h other).mp hother with hold | rfl
    · exact .inl ⟨other, hold, hthing⟩
    · exact .inr hthing
  · rintro (⟨other, hold, hthing⟩ | hthing)
    · exact ⟨other, (h other).mpr (.inl hold), hthing⟩
    · exact ⟨step, (h step).mpr (.inr rfl), hthing⟩

theorem Grown.releasable {step : Cleanup} (h : Grown steps step steps') (hsteps : Releasable p present steps)
    (hstep : Releases present step.things (step.perform p)) : Releasable p present steps' := by
  intro other hother
  rcases (h other).mp hother with hold | rfl
  · exact hsteps other hold
  · exact hstep

theorem names_of_failure {code text : String} {failures : List (Cleanup × PortError)} {failure : Cleanup × PortError} {r : Resource}
    (hmem : failure ∈ failures) (hthing : r ∈ failure.1.things) : (⟨code, text, Cleanup.evidence failures⟩ : AttachmentError).Names r :=
  ⟨failure.1, failure.2, List.mem_map.mpr ⟨failure, hmem, rfl⟩, hthing⟩

theorem orRollback_meets {α : Type} {x : Effect τ PortError α} {taken cover : α → Set Resource} {port : Port} {blocked : Set Resource}
    {Q : α → Prop} (hx : Acquires present x taken cover (leaves port) blocked) (hresult : ∀ s a s', x s = (.ok a, s') → Q a)
    (htaken : ∀ a, taken a ⊆ cover a) (hblocked : Disjoint (before ∪ held) blocked) (hsteps : Releasable p present steps)
    (code : PortError → String) :
    Effect.Meets (Holding present before held (covers steps)) (p.orRollback steps code x)
      (fun a w => Q a ∧ Holding present before (held ∪ taken a) (covers steps ∪ cover a) w) (BackedOut present leaves before) :=
  (hx.backedOut hresult (fun a _ => htaken a) hblocked hsteps (fun _ => Iff.rfl)).mono (fun _ h => h) (fun _ _ h => h) fun _ w h => by
    obtain ⟨e, failures, rfl, hleft⟩ := h
    refine ⟨hleft.kept, port, fun r hr => ?_⟩
    rcases hleft.rest r hr with hbefore | hleaves | ⟨failure, hmem, hthing⟩
    · exact .inl hbefore
    · exact .inr (.inl hleaves)
    · exact .inr (.inr (names_of_failure hmem hthing))

theorem orRollback_quiet {α : Type} {x : Effect τ PortError α} (hx : Quiet present x) (hsteps : Releasable p present steps)
    (code : PortError → String) :
    Effect.Meets (Holding present before held (covers steps)) (p.orRollback steps code x)
      (fun _ => Holding present before held (covers steps)) (BackedOut present leaves before) := by
  have hnothing : Acquires present x (fun _ => ∅) (fun _ => ∅) (leaves .loader) ∅ := fun s hs => by
    have hrun := hx.acquires s hs
    split at hrun
    · exact hrun
    · exact ⟨hrun.1, hrun.2.trans (Set.union_subset_union_right _ (Set.empty_subset _))⟩
  refine (orRollback_meets (Q := fun _ => True) hnothing (fun _ _ _ _ => trivial) (fun _ => subset_rfl) (Set.disjoint_empty _) hsteps
    code).mono (fun _ h => h) (fun a w h => ?_) fun _ _ h => h
  have hholding := h.2
  rwa [Set.union_empty, Set.union_empty] at hholding

/-- Nothing is held yet, and nothing is cleaned up. -/
theorem quiet_meets {α : Type} {x : Effect τ PortError α} (hx : Quiet present x) (fail : PortError → AttachmentError) :
    Effect.Meets (fun w => present w = before) (x.orElseError fail) (fun _ w => present w = before) (BackedOut present leaves before) := by
  intro w hw
  have hsame := hx w
  unfold Effect.orElseError
  cases hrun : x w with
  | mk result w' =>
    rw [hrun] at hsame
    have hnow : present w' = before := hsame.trans hw
    cases result with
    | ok a => exact hnow
    | error e => exact ⟨hnow.ge, .loader, fun r hr => .inl (hnow ▸ hr)⟩

theorem ask_meets {α : Type} (answer : Except AttachmentError α) :
    Effect.Meets (fun w => present w = before) (Effect.ask fun _ => answer) (fun a w => answer = .ok a ∧ present w = before)
      (BackedOut present leaves before) :=
  Effect.Meets.ask (fun _ _ h hok => ⟨hok, h⟩) fun _ _ h _ => ⟨h.ge, .loader, fun _ hr => .inl (h ▸ hr)⟩

/-! ### The parts of the transaction -/

theorem prepare_meets (hp : p.Keeps present leaves) (interface : InterfaceName) :
    Effect.Meets (fun w => present w = before) (p.prepare interface)
      (fun report w => validateIsolatedTarget interface report = .ok () ∧ present w = before) (BackedOut present leaves before) := by
  refine Effect.Meets.bind (quiet_meets (hp.inspect interface) _) fun report => ?_
  refine Effect.Meets.bind (ask_meets _) fun _ => ?_
  exact fun _ h => h

/-- The object is loaded, from this run's directory. -/
structure LoadedFor (p : AttachmentPorts τ) (present : τ → Set Resource) (runId : RunId) (loaded : LoadedBpfObject) : Prop where
  root : loaded.mapPins.head?.bind (·.path.parent) = some (testPinBase.push runId.text)
  releases : Releases present {.object loaded} (p.loader.unloadExact loaded)

theorem load_meets (hp : p.Keeps present leaves) (runId : RunId) :
    Effect.Meets (fun w => present w = before) (p.load runId)
      (fun loaded w => LoadedFor p present runId loaded ∧ Holding present before {.object loaded} (covers [.object loaded]) w)
      (BackedOut present leaves before) := by
  refine Effect.Meets.bind (quiet_meets hp.limits _) fun _ => ?_
  refine Effect.Meets.bind (ask_meets _) fun pins => ?_
  refine Effect.Meets.intro fun w₀ h₀ => ?_
  obtain ⟨hpins, hbefore⟩ := h₀
  have hpath : pins = ⟨testPinBase.push runId.text⟩ := (Except.ok.inj hpins).symm
  rintro w rfl
  have hload := hp.load pins w (Set.disjoint_empty _)
  unfold Effect.orElseError
  cases hrun : p.loader.loadAndValidateAbi pins w with
  | mk result w' =>
    rw [hrun] at hload
    cases result with
    | error e => exact ⟨hbefore ▸ hload.1, .loader, fun r hr => (hload.2 hr).imp (fun h => hbefore ▸ h) .inl⟩
    | ok loaded =>
      obtain ⟨hnew, hadded⟩ : Disjoint (present w) {Resource.object loaded} ∧ present w' = present w ∪ {.object loaded} := hload
      obtain ⟨hroot, hreleases⟩ := hp.loaded pins w loaded w' hrun
      have hcover : covers [.object loaded] = {.object loaded} := by
        ext r
        simp [covers, Cleanup.things]
      rw [hbefore] at hnew hadded
      exact ⟨⟨hroot.trans (congrArg (fun root : TestPinRoot => some root.path) hpath), hreleases⟩, hadded, hcover.ge, hcover ▸ hnew⟩

/-- Both hooks are attached in this way: what is attached is looked at, and a failure of the look is
rolled back with it. -/
theorem attached_meets {α : Type} {attach : Effect τ PortError α} {verify : α → Effect τ PortError Unit} {cleanup : α → Cleanup}
    {port : Port} {attachSteps : List Cleanup} {verifySteps : α → List Cleanup} {codeA codeV : PortError → String}
    (hattach : Acquires present attach (fun a => (cleanup a).things) (fun a => (cleanup a).things) (leaves port) ∅)
    (hdetach : ∀ s a s', attach s = (.ok a, s') → Releases present (cleanup a).things ((cleanup a).perform p))
    (hverify : ∀ a, Quiet present (verify a)) (hsteps : Releasable p present attachSteps)
    (hgrown : ∀ a, Grown attachSteps (cleanup a) (verifySteps a)) :
    Effect.Meets (Holding present before held (covers attachSteps))
      (p.orRollback attachSteps codeA attach >>= fun a => p.orRollback (verifySteps a) codeV (verify a) >>= fun _ => pure a)
      (fun a w => Releasable p present (verifySteps a) ∧ Holding present before (held ∪ (cleanup a).things) (covers (verifySteps a)) w)
      (BackedOut present leaves before) := by
  refine Effect.Meets.bind (orRollback_meets hattach hdetach (fun _ => subset_rfl) (Set.disjoint_empty _) hsteps codeA) fun a => ?_
  refine Effect.Meets.assume fun hrelease => ?_
  have hreleasable : Releasable p present (verifySteps a) := (hgrown a).releasable hsteps hrelease
  rw [← (hgrown a).covers]
  refine Effect.Meets.bind (orRollback_quiet (hverify a) hreleasable codeV) fun _ => ?_
  exact fun _ h => ⟨hreleasable, h⟩

theorem attachXdp_meets (hp : p.Keeps present leaves) (order : RollbackState → List Cleanup) (state : RollbackState) {ifindex : Nat}
    {loaded : LoadedBpfObject} (hsteps : Releasable p present (order state))
    (hgrown : ∀ owned, Grown (order state) (.xdp owned) (order { state with xdp := some owned })) :
    Effect.Meets (Holding present before held (covers (order state))) (p.attachXdp order state ifindex loaded)
      (fun owned w => Releasable p present (order { state with xdp := some owned }) ∧
        Holding present before (held ∪ {.link owned.link}) (covers (order { state with xdp := some owned })) w)
      (BackedOut present leaves before) :=
  attached_meets (hp.attachXdp ifindex .generic loaded.xdp) (hp.detachXdp ifindex .generic loaded.xdp) hp.verifyXdp hsteps hgrown

theorem attachTc_meets (hp : p.Keeps present leaves) (order : RollbackState → List Cleanup) (state : RollbackState) {ifindex : Nat}
    {loaded : LoadedBpfObject} (hsteps : Releasable p present (order state))
    (hgrown : ∀ owned, Grown (order state) (.tc owned) (order { state with tc := some owned })) :
    Effect.Meets (Holding present before held (covers (order state))) (p.attachTc order state ifindex loaded)
      (fun owned w => Releasable p present (order { state with tc := some owned }) ∧
        Holding present before (held ∪ tcThings owned) (covers (order { state with tc := some owned })) w)
      (BackedOut present leaves before) :=
  attached_meets (hp.attachTc ifindex .egress loaded.tcEgress) (hp.detachTc ifindex .egress loaded.tcEgress) hp.verifyTc hsteps hgrown

theorem initialize_meets (hp : p.Keeps present leaves) {loaded : LoadedBpfObject} {ifindex generation : Nat}
    (steps' : List Cleanup) (hsteps : Releasable p present steps) (hgrown : Grown steps (.maps loaded ifindex generation) steps') :
    Effect.Meets (Holding present before held (covers steps))
      (p.orRollback steps (fun _ => mapInitializeFailed) (p.maps.initializeDependent loaded ifindex generation))
      (fun _ w => Releasable p present steps' ∧
        Holding present before (held ∪ {.counters loaded ifindex generation}) (covers steps') w)
      (BackedOut present leaves before) := by
  have hreleasable : Releasable p present steps' := hgrown.releasable hsteps (hp.rollbackMaps loaded ifindex generation)
  refine (orRollback_meets (Q := fun _ => True) (hp.initializeMaps loaded ifindex generation) (fun _ _ _ _ => trivial)
    (fun _ => Set.singleton_subset_iff.mpr (.inl rfl)) (Set.disjoint_empty _) hsteps _).mono (fun _ h => h) (fun _ w h => ?_) fun _ _ h => h
  rw [hgrown.covers]
  exact ⟨hreleasable, h.2⟩

theorem save_meets (hp : p.Keeps present leaves) {record : OwnershipRecord} (hbefore : Disjoint before (journalsOf record))
    (hheld : ∀ other, .journal other ∉ held) (steps' : List Cleanup) (hsteps : Releasable p present steps) (hgrown : Grown steps (.journal record) steps') :
    Effect.Meets (Holding present before held (covers steps))
      (p.orRollback steps (fun _ => ownershipJournalFailed) (p.ownership.save record))
      (fun _ w => Releasable p present steps' ∧ Holding present before (held ∪ {.journal record}) (covers steps') w)
      (BackedOut present leaves before) := by
  have hreleasable : Releasable p present steps' := hgrown.releasable hsteps (hp.remove record)
  have hblocked : Disjoint (before ∪ held) (journalsOf record) := by
    refine Set.disjoint_union_left.mpr ⟨hbefore, Set.disjoint_left.mpr fun r hr hjournal => ?_⟩
    obtain ⟨other, rfl, -⟩ := hjournal
    exact hheld other hr
  refine (orRollback_meets (Q := fun _ => True) (hp.save record) (fun _ _ _ _ => trivial) (fun _ => subset_rfl) hblocked hsteps
    _).mono (fun _ h => h) (fun _ w h => ?_) fun _ _ h => h
  rw [hgrown.covers]
  exact ⟨hreleasable, h.2⟩

/-- The gate is the last thing that is acquired, and its clean-up is there already. -/
theorem publish_meets (hp : p.Keeps present leaves) {loaded : LoadedBpfObject} {ifindex generation : Nat}
    (hsteps : Releasable p present steps) (hmem : .maps loaded ifindex generation ∈ steps) :
    Effect.Meets (Holding present before held (covers steps))
      (p.orRollback steps (fun _ => ifaceConfigPublishFailed) (p.maps.publishIfaceConfig loaded ifindex generation))
      (fun _ => Holding present before (held ∪ {.gate loaded ifindex generation}) (covers steps)) (BackedOut present leaves before) := by
  have hgate : {Resource.gate loaded ifindex generation} ⊆ covers steps :=
    Set.singleton_subset_iff.mpr ⟨_, hmem, .inr rfl⟩
  refine (orRollback_meets (Q := fun _ => True) (hp.publish loaded ifindex generation) (fun _ _ _ _ => trivial) (fun _ => subset_rfl)
    (Set.disjoint_empty _) hsteps _).mono (fun _ h => h) (fun _ w h => ?_) fun _ _ h => h
  have hholding := h.2
  rwa [Set.union_eq_self_of_subset_right hgate] at hholding

/-! ### The transaction -/

/-- The session is of this run and of the next generation, and its record says so. -/
structure AttachmentSession.IsFor (session : AttachmentSession) (runId : RunId) (previous createdAtUnixSeconds : Nat) : Prop where
  generation : session.generation = AttachmentPorts.nextGeneration previous
  recorded : session.ownership.generation = session.generation
  ifindex : session.ownership.ifindex ≠ 0
  pins : session.ownership.mapPins = session.loaded.mapPins
  root : session.ownership.runRoot = some (testPinBase.push runId.text)
  createdAt : session.ownership.createdAtUnixSeconds = createdAtUnixSeconds

/-- All of the session is there, beside what was there before, and can be taken away again. -/
structure Whole (p : AttachmentPorts τ) (present : τ → Set Resource) (before things : Set Resource) (session : AttachmentSession)
    (w : τ) : Prop where
  things : present w = before ∪ things
  apart : Disjoint before (covers session.cleanups)
  releasable : Releasable p present session.cleanups

/-- No journal is at the place of the run's. -/
def Unjournaled (runId : RunId) (before : Set Resource) : Prop :=
  ∀ other, .journal other ∈ before → other.runRoot ≠ some (testPinBase.push runId.text)

theorem ifindex_ne_zero {interface : InterfaceName} {report : PreflightReport} (h : validateIsolatedTarget interface report = .ok ()) :
    report.interface.requested.ifindex ≠ 0 := by
  intro hzero
  unfold validateIsolatedTarget at h
  simp [hzero] at h

theorem Unjournaled.disjoint {runId : RunId} (h : Unjournaled runId before) {record : OwnershipRecord}
    (hroot : record.runRoot = some (testPinBase.push runId.text)) : Disjoint before (journalsOf record) := by
  refine Set.disjoint_left.mpr fun r hr hjournal => ?_
  obtain ⟨other, rfl, heq⟩ := hjournal
  exact h other hr (heq.trans hroot)

theorem journal_not_mem_tcThings (owned : OwnedTc) (record : OwnershipRecord) : .journal record ∉ tcThings owned := by
  unfold tcThings
  split <;> simp

/-- What a session with one hook of each kind has. -/
theorem covers_cleanups (session : AttachmentSession) {xdp : OwnedXdp} {tc : OwnedTc} (hxdp : session.ownership.xdp = some xdp)
    (htc : session.ownership.tc = [tc]) : covers session.cleanups =
      {.object session.loaded} ∪ {.link xdp.link} ∪ tcThings tc ∪
        {.counters session.loaded session.ownership.ifindex session.generation} ∪ {.journal session.ownership} ∪
          {.gate session.loaded session.ownership.ifindex session.generation} := by
  ext r
  simp only [covers, AttachmentSession.cleanups, hxdp, htc, List.reverse_singleton, List.map_cons, List.map_nil, Option.toList_some,
    List.cons_append, List.nil_append, List.mem_cons, List.not_mem_nil, or_false, exists_eq_or_imp, exists_eq_left, Cleanup.things,
    Set.mem_ofPred_eq, Set.mem_union, Set.mem_insert_iff, Set.mem_singleton_iff]
  tauto

theorem execute_meets (hp : p.Keeps present leaves) (previous : Nat) (interface : InterfaceName) (runId : RunId)
    (createdAtUnixSeconds : Nat) (hjournal : Unjournaled runId before) :
    Effect.Meets (fun w => present w = before) (p.execute previous interface runId createdAtUnixSeconds)
      (fun session w => session.IsFor runId previous createdAtUnixSeconds ∧ session.state = .observing ∧
        Whole p present before (covers session.cleanups) session w)
      (BackedOut present leaves before) := by
  refine Effect.Meets.bind (prepare_meets hp interface) fun report => Effect.Meets.assume fun hreport => ?_
  refine Effect.Meets.bind (load_meets hp runId) fun loaded => Effect.Meets.assume fun hloaded => ?_
  have hbare : Releasable p present [.object loaded] := List.forall_mem_singleton.mpr hloaded.releases
  refine Effect.Meets.bind (attachXdp_meets hp (·.cleanups report.interface.requested.ifindex 0) ⟨some loaded, none, none, false, none⟩
    hbare fun owned other => ?_) fun xdp => Effect.Meets.assume fun hxdp => ?_
  · simp [RollbackState.cleanups, RollbackState.mapsCleanup, or_comm]
  refine Effect.Meets.bind (attachTc_meets hp (·.cleanups report.interface.requested.ifindex 0) ⟨some loaded, some xdp, none, false, none⟩
    hxdp fun owned other => ?_) fun tc => Effect.Meets.assume fun htc => ?_
  · simp [RollbackState.cleanups, RollbackState.mapsCleanup, or_comm]
  refine Effect.Meets.bind (initialize_meets hp (RollbackState.cleanups ⟨some loaded, some xdp, some tc, true, none⟩
    report.interface.requested.ifindex (AttachmentPorts.nextGeneration previous)) htc fun other => ?_)
    fun _ => Effect.Meets.assume fun hmaps => ?_
  · simp [RollbackState.cleanups, RollbackState.mapsCleanup, or_comm]
  have hroot : (AttachmentPorts.record (AttachmentPorts.nextGeneration previous) report.interface.requested.ifindex xdp tc loaded
    createdAtUnixSeconds).runRoot = some (testPinBase.push runId.text) := hloaded.root
  refine Effect.Meets.bind (save_meets hp (hjournal.disjoint hroot) (fun other => ?_) (RollbackState.cleanups
    ⟨some loaded, some xdp, some tc, true, some (AttachmentPorts.record (AttachmentPorts.nextGeneration previous)
      report.interface.requested.ifindex xdp tc loaded createdAtUnixSeconds)⟩
    report.interface.requested.ifindex (AttachmentPorts.nextGeneration previous)) hmaps fun other => ?_)
    fun _ => Effect.Meets.assume fun hsaved => ?_
  · simp [journal_not_mem_tcThings]
  · simp [RollbackState.cleanups, RollbackState.mapsCleanup, or_comm]
  refine Effect.Meets.bind (publish_meets hp hsaved ?_) fun _ => ?_
  · simp [RollbackState.cleanups, RollbackState.mapsCleanup]
  refine fun w hw => ⟨⟨rfl, rfl, ifindex_ne_zero hreport, rfl, hroot, rfl⟩, rfl, ?_, hw.apart, hsaved⟩
  rw [hw.present, covers_cleanups _ rfl rfl]
  rfl

theorem cleanUp_spec (hsteps : Releasable p present steps) (w : τ) :
    match p.cleanUp steps w with
    | (.ok _, w') => present w' = present w \ covers steps
    | (.error e, w') => present w' ⊆ present w ∧ present w \ covers steps ⊆ present w' ∧ ∀ r ∈ present w', r ∈ covers steps → e.Names r := by
  obtain ⟨hshrunk, hkept, hfailed⟩ := sweep_spec steps hsteps w
  unfold AttachmentPorts.cleanUp
  rcases hsweep : sweep (Cleanup.perform p) steps w with ⟨failures, w'⟩
  rw [hsweep] at hshrunk hkept hfailed
  cases failures with
  | nil => exact sweep_clean hsteps hsweep
  | cons first rest =>
    refine ⟨hshrunk, fun r hr => hkept r hr.1 fun step hstep hthing => hr.2 ⟨step, hstep, hthing⟩, fun r hr hcovered => ?_⟩
    obtain ⟨step, hstep, hthing⟩ := hcovered
    obtain ⟨failure, hmem, rfl⟩ := hfailed r hr step hstep hthing
    exact names_of_failure hmem hthing

/-- What a clean-up leaves of a session. -/
def Detached (present : τ → Set Resource) (things : Set Resource) (later : τ) : Except AttachmentError Unit × τ → Prop
  | (.ok _, last) => present last = present later \ things
  | (.error e, last) => present last ⊆ present later ∧ present later \ things ⊆ present last ∧ ∀ r ∈ present last, r ∈ things → e.Names r

end

/-! ### Ports that keep to their contract -/

deriving instance DecidableEq for Resource

/-- A list of what there is. -/
abbrev PlainWorld := List Resource

def PlainWorld.present (w : PlainWorld) : Set Resource := {r | r ∈ w}

/-- Add these things, if none of `cover` is there. -/
def take {α : Type} (taken cover : List Resource) (a : α) : Effect PlainWorld PortError α := fun w =>
  if ∀ r ∈ cover, r ∉ w then (.ok a, taken ++ w) else (.error (.adapter "occupied"), w)

def drop (things : List Resource) : Effect PlainWorld PortError Unit := fun w => (.ok (), w.filter (· ∉ things))

theorem take_acquires {α : Type} {taken cover : List Resource} {a : α} {things covered : α → Set Resource} {leaves blocked : Set Resource}
    (htaken : ∀ r, r ∈ things a ↔ r ∈ taken) (hcover : ∀ r, r ∈ covered a ↔ r ∈ cover) :
    Acquires PlainWorld.present (take taken cover a) things covered leaves blocked := by
  intro w _
  unfold take
  split
  case h_1 b w' heq =>
    split at heq <;> cases heq
    case isTrue hfree =>
      refine ⟨Set.disjoint_left.mpr fun r hr hmem => hfree r ((hcover r).mp hmem) hr, ?_⟩
      ext r
      exact List.mem_append.trans (or_comm.trans (or_congr_right (htaken r).symm))
  case h_2 e w' heq =>
    split at heq <;> cases heq
    exact ⟨subset_rfl, Set.subset_union_left⟩

theorem take_result {α : Type} {taken cover : List Resource} {a b : α} {w w' : PlainWorld} (h : take taken cover a w = (.ok b, w')) :
    b = a := by
  unfold take at h
  split at h <;> cases h
  rfl

theorem drop_releases {things : Set Resource} {dropped : List Resource} (hthings : ∀ r, r ∈ things ↔ r ∈ dropped) :
    Releases PlainWorld.present things (drop dropped) := by
  intro w
  show {r | r ∈ w.filter (· ∉ dropped)} = PlainWorld.present w \ things
  ext r
  simp [PlainWorld.present, hthings]

theorem pure_quiet {α : Type} (a : α) : Quiet PlainWorld.present (pure a : Effect PlainWorld PortError α) := fun _ => rfl

/-- The maps of an object that was loaded for a run. -/
def plainLoaded (pins : TestPinRoot) : LoadedBpfObject :=
  ⟨⟨8, 9, 9⟩, ⟨3, 7⟩, ownedMapNames.zipIdx.map fun named => ⟨named.1, pins.path.push named.1, named.2 + 1⟩⟩

def plainXdp (i : Nat) (mode : XdpAttachMode) (loaded : LoadedXdp) : OwnedXdp := ⟨i, mode, loaded.programId, loaded.programTag, none⟩

def plainTc (i : Nat) (hook : TcHook) (loaded : LoadedTc) (createdClsact : Bool) : OwnedTc :=
  ⟨i, hook, tcPriorityFirst, handleFor hook, loaded.programId, createdClsact⟩

def tcList (owned : OwnedTc) : List Resource := .filter owned.identity :: if owned.createdClsact then [.clsact owned.ifindex] else []

theorem mem_tcList (owned : OwnedTc) (r : Resource) : r ∈ tcThings owned ↔ r ∈ tcList owned := by
  unfold tcThings tcList
  split <;> simp [or_comm]

/-- Every request is granted where nothing is in its way. -/
def plainPorts : AttachmentPorts PlainWorld where
  preflight := ⟨fun interface => pure ⟨.ready, ⟨⟨interface, 5⟩, .veth, true, false⟩, []⟩⟩
  limits := ⟨pure ()⟩
  loader := ⟨fun pins => take [.object (plainLoaded pins)] [.object (plainLoaded pins)] (plainLoaded pins), fun loaded => drop [.object loaded]⟩
  xdp := ⟨fun i mode loaded => take [.link (plainXdp i mode loaded).link] [.link (plainXdp i mode loaded).link] (plainXdp i mode loaded),
    fun _ => pure (), fun owned => drop [.link owned.link]⟩
  tc := ⟨fun i hook loaded w => take (tcList (plainTc i hook loaded (.clsact i ∉ w))) (tcList (plainTc i hook loaded (.clsact i ∉ w)))
    (plainTc i hook loaded (.clsact i ∉ w)) w, fun _ => pure (), fun owned => drop (tcList owned)⟩
  maps := ⟨fun loaded i generation => take [.counters loaded i generation] [.counters loaded i generation, .gate loaded i generation] (),
    fun loaded i generation => take [.gate loaded i generation] [.gate loaded i generation] (),
    fun loaded i generation => drop [.counters loaded i generation, .gate loaded i generation]⟩
  ownership := ⟨fun record => take [.journal record] [.journal record] (), fun record => drop [.journal record]⟩

theorem plainPorts_keeps : plainPorts.Keeps PlainWorld.present fun _ => ∅ where
  inspect _ := pure_quiet _
  limits := pure_quiet ()
  load pins := take_acquires (by simp) (by simp)
  loaded pins s loaded s' h := by
    cases take_result h
    exact ⟨by simp [plainLoaded, ownedMapNames, PathBuf.parent, PathBuf.push], drop_releases (by simp)⟩
  attachXdp i mode loaded := take_acquires (by simp) (by simp)
  verifyXdp _ := pure_quiet ()
  detachXdp _ _ _ _ owned _ _ := drop_releases (by simp)
  attachTc i hook loaded w := take_acquires (mem_tcList _) (mem_tcList _) w
  verifyTc _ := pure_quiet ()
  detachTc _ _ _ _ owned _ _ := drop_releases (mem_tcList owned)
  initializeMaps loaded i generation := take_acquires (by simp) (by simp)
  publish loaded i generation := take_acquires (by simp) (by simp)
  rollbackMaps loaded i generation := drop_releases (by simp)
  save record := take_acquires (by simp) (by simp)
  remove record := drop_releases (by simp)

def sampleRun : RunId := ⟨"0123456789abcdef0123456789abcdef"⟩

def nothingThere : PlainWorld := []

end NetworkLoop.Attach
