import NetworkLoop.Install.Documents

/-! The installed gate of the deployment checker (`deployment.rs`).

The gate holds the installed deployment authorization to the journal of the transaction that
put it there. What it compares are two identifiers: that of the document, and that which the
journal has from the install authorization. Nothing on the way relates them, so the gate
lets an install through exactly if whoever wrote the two documents gave them one
identifier (`installed_identity_iff`). -/
namespace NetworkLoop.Install
open Library Disk

/-! ### The gate -/

inductive GateSlot where
  | layout | service | authorization | evidence | performance
  deriving DecidableEq, Repr

inductive DeploymentServiceError where
  | invalidReport | invalidClock
  deriving DecidableEq, Repr

/-- `DeploymentGateReportV1` for the command `installed`: it is either blocked by one gate with
one finding, or all gates have passed. -/
structure DeploymentGateReportV1 where
  artifact : DeploymentArtifactIdentityV1
  blocked : Option (GateSlot × String)
  capturedAtUnixMs : Nat
  deriving DecidableEq, Repr

/-- `DeploymentGateReportV1::derive`, whose other checks concern the constant parts of a report. -/
def DeploymentGateReportV1.derive (artifact : DeploymentArtifactIdentityV1) (blocked : Option (GateSlot × String))
    (capturedAtUnixMs : Nat) : Except DeploymentServiceError DeploymentGateReportV1 :=
  if !artifact.isValid || capturedAtUnixMs = 0 then .error .invalidReport else .ok ⟨artifact, blocked, capturedAtUnixMs⟩

def unverifiedArtifact : DeploymentArtifactIdentityV1 := ⟨"0000000000000000000000000000000000000000", "unverified"⟩

def blockedReport (artifact : Option DeploymentArtifactIdentityV1) (slot : GateSlot) (code : String) (capturedAtUnixMs : Nat) :
    Except DeploymentServiceError DeploymentGateReportV1 :=
  DeploymentGateReportV1.derive (artifact.getD unverifiedArtifact) (some (slot, code)) capturedAtUnixMs

/-- `authorization_failure`. -/
def authorizationFailure (authorization : DeploymentAuthorizationV1) (artifact : DeploymentArtifactIdentityV1)
    (capturedAtUnixMs : Nat) : Option String :=
  match authorization.validateAt capturedAtUnixMs with
  | .error _ =>
    if capturedAtUnixMs < authorization.issuedAtUnixMs ∨ authorization.expiresAtUnixMs < capturedAtUnixMs then
      some "DG_AUTH_EXPIRED"
    else some "DG_AUTH_SCHEMA"
  | .ok _ =>
    if authorization.artifactCommitSha ≠ artifact.commitSha then some "DG_AUTH_ARTIFACT"
    else
      match authorization.validateFor capturedAtUnixMs artifact with
      | .error _ => some "DG_AUTH_SCHEMA"
      | .ok _ => none

/-- What the gate asks its port, `DeploymentFilesystem`, for. Of the layout it uses the artifact,
of the service and the prerequisites whether they are in order, of the performance
evidence what `staged_performance_failure` says. -/
structure DeploymentFilesystem where
  inspectInstalledOwnership : Except DeploymentIoError InstalledOwnershipSnapshotV1
  inspectInstalledLayout : Except DeploymentIoError DeploymentArtifactIdentityV1
  inspectInstalledService : Except DeploymentIoError Bool
  loadInstalledAuthorization : Except DeploymentIoError DeploymentAuthorizationV1
  loadInstalledPerformance : Except DeploymentIoError (DeploymentArtifactIdentityV1 → Nat → Option String)
  inspectInstalledPrerequisites : Except DeploymentIoError Bool

/-- The gates after that of the authorization. -/
def laterGates (filesystem : DeploymentFilesystem) (artifact : DeploymentArtifactIdentityV1) (capturedAtUnixMs : Nat) :
    Except DeploymentServiceError DeploymentGateReportV1 :=
  match filesystem.loadInstalledPerformance with
  | .error _ => blockedReport (some artifact) .performance "DG_PERFORMANCE_UNAVAILABLE" capturedAtUnixMs
  | .ok failure =>
    match failure artifact capturedAtUnixMs with
    | some code => blockedReport (some artifact) .performance code capturedAtUnixMs
    | none =>
      match filesystem.inspectInstalledPrerequisites with
      | .ok true => DeploymentGateReportV1.derive artifact none capturedAtUnixMs
      | _ => blockedReport (some artifact) .evidence "DG_EVIDENCE_ROOT" capturedAtUnixMs

/-- The gate of the authorization, and those after it. -/
def authorizationGate (filesystem : DeploymentFilesystem) (ownership : InstalledOwnershipSnapshotV1)
    (artifact : DeploymentArtifactIdentityV1) (capturedAtUnixMs : Nat) :
    Except DeploymentServiceError DeploymentGateReportV1 :=
  match filesystem.loadInstalledAuthorization with
  | .error _ => blockedReport (some artifact) .authorization "DG_AUTH_SCHEMA" capturedAtUnixMs
  | .ok authorization =>
    if authorization.authorizationId ≠ ownership.authorizationId then
      blockedReport (some artifact) .authorization "DG_AUTH_IDENTITY" capturedAtUnixMs
    else
      match authorizationFailure authorization artifact capturedAtUnixMs with
      | some code => blockedReport (some artifact) .authorization code capturedAtUnixMs
      | none => laterGates filesystem artifact capturedAtUnixMs

/-- `DeploymentGateService::installed`. -/
def DeploymentGateService.installed (filesystem : DeploymentFilesystem) (capturedAtUnixMs : Nat) :
    Except DeploymentServiceError DeploymentGateReportV1 :=
  match filesystem.inspectInstalledOwnership with
  | .error _ => blockedReport none .layout "DG_LAYOUT_TYPE" capturedAtUnixMs
  | .ok ownership =>
    match filesystem.inspectInstalledLayout with
    | .error _ => blockedReport (some ownership.artifact) .layout "DG_LAYOUT_TYPE" capturedAtUnixMs
    | .ok artifact =>
      if !artifact.isValid || artifact ≠ ownership.artifact then
        blockedReport (some artifact) .layout "DG_ARTIFACT_MANIFEST" capturedAtUnixMs
      else
        match filesystem.inspectInstalledService with
        | .ok true => authorizationGate filesystem ownership artifact capturedAtUnixMs
        | _ => blockedReport (some artifact) .service "DG_SYSTEMD_CONTRACT" capturedAtUnixMs

/-! ### The host's files -/

/-- `read_gate_json` of the installed deployment authorization. The reader of the document
refuses what is longer than the source's bound. -/
def readGateJson (documents : Documents) (d : Disk) : Except DeploymentIoError DeploymentAuthorizationV1 :=
  match d.get InstallRoleV1.deploymentAuthorization.path with
  | some (.file info hardLinks (.blob digest)) =>
    if hardLinks ≠ 1 || info.mode ≠ 0o600 || info.uid ≠ 0 || info.gid ≠ 0 then .error .unavailable
    else (documents.deployment digest).elim (.error .unavailable) .ok
  | _ => .error .unavailable

/-- The results of the other reads of `LinuxDeploymentFilesystem`, whatever they are. -/
structure OtherReads where
  layout : Except DeploymentIoError DeploymentArtifactIdentityV1
  service : Except DeploymentIoError Bool
  performance : Except DeploymentIoError (DeploymentArtifactIdentityV1 → Nat → Option String)
  prerequisites : Except DeploymentIoError Bool

/-- `LinuxDeploymentFilesystem` of a checker that is built for `artifact`. -/
def linuxDeploymentFilesystem (documents : Documents) (d : Disk) (artifact : DeploymentArtifactIdentityV1) (reads : OtherReads) :
    DeploymentFilesystem where
  inspectInstalledOwnership := inspectInstalledOwnership d artifact
  inspectInstalledLayout := reads.layout
  inspectInstalledService := reads.service
  loadInstalledAuthorization := readGateJson documents d
  loadInstalledPerformance := reads.performance
  inspectInstalledPrerequisites := reads.prerequisites

/-- The gate's verdict is the identity check's. -/
def BlocksIdentity (result : Except DeploymentServiceError DeploymentGateReportV1) : Prop :=
  ∃ report, result = .ok report ∧ report.blocked = some (.authorization, "DG_AUTH_IDENTITY")

/-- **The gate's identity check passes** an install: the identifier in the journal is that of the
document, and the gate blocks at no time at which the document is valid, for no checker and
whatever else it reads. -/
def PassesIdentity (documents : Documents) (s : Disk) (transactionId : String) : Prop :=
  (∃ j installed, loadJournalExact s transactionId = .ok j ∧ readGateJson documents s = .ok installed ∧
    j.bindings.authorizationId = installed.authorizationId) ∧
  ∀ artifact reads now installed, readGateJson documents s = .ok installed → installed.validateAt now = .ok () →
    ¬BlocksIdentity (DeploymentGateService.installed (linuxDeploymentFilesystem documents s artifact reads) now)

variable {d s : Disk} {tx : String} {p : PreparedSystemInstall} {j : InstallJournalV1} {ids : List String}
  {artifact : DeploymentArtifactIdentityV1} {e : InstallJournalEntryV1} {r : InstallRoleV1} {documents : Documents}
  {found : Option InstalledOwnershipSnapshotV1} {operation : InstallOperationV1} {prior : Option InstallJournalV1}

/-! ### The reports of the gate -/

theorem derive_ok {blocked : Option (GateSlot × String)} {now : Nat} {report : DeploymentGateReportV1}
    (h : DeploymentGateReportV1.derive artifact blocked now = .ok report) : report.blocked = blocked := by
  unfold DeploymentGateReportV1.derive at h
  split at h
  · cases h
  · cases h
    rfl

theorem not_blocksIdentity_blocked {found : Option DeploymentArtifactIdentityV1} {slot : GateSlot} {code : String} {now : Nat}
    (h : (slot, code) ≠ (.authorization, "DG_AUTH_IDENTITY")) : ¬BlocksIdentity (blockedReport found slot code now) := by
  intro ⟨report, hreport, hblocked⟩
  rw [derive_ok hreport] at hblocked
  exact h (Option.some.inj hblocked)

theorem authorizationFailure_ne {a : DeploymentAuthorizationV1} {now : Nat} {code : String}
    (h : authorizationFailure a artifact now = some code) : code ≠ "DG_AUTH_IDENTITY" := by
  unfold authorizationFailure at h
  split at h
  · split at h <;> cases h <;> decide
  · split at h
    · cases h
      decide
    · split at h
      · cases h
        decide
      · cases h

theorem not_blocksIdentity_later {filesystem : DeploymentFilesystem} {now : Nat} :
    ¬BlocksIdentity (laterGates filesystem artifact now) := by
  unfold laterGates
  split
  · exact not_blocksIdentity_blocked (by simp)
  · split
    · exact not_blocksIdentity_blocked (by simp)
    · split
      · intro ⟨report, hreport, hblocked⟩
        rw [derive_ok hreport] at hblocked
        cases hblocked
      · exact not_blocksIdentity_blocked (by simp)

/-- **When the gate blocks the identity**, its clock and its artifact being in order. -/
theorem blocksIdentity_iff {filesystem : DeploymentFilesystem} {now : Nat} (hnow : now ≠ 0) :
    BlocksIdentity (DeploymentGateService.installed filesystem now) ↔
      ∃ ownership authorization, filesystem.inspectInstalledOwnership = .ok ownership ∧
        filesystem.inspectInstalledLayout = .ok ownership.artifact ∧ ownership.artifact.isValid = true ∧
        filesystem.inspectInstalledService = .ok true ∧ filesystem.loadInstalledAuthorization = .ok authorization ∧
        authorization.authorizationId ≠ ownership.authorizationId := by
  constructor
  · intro h
    unfold DeploymentGateService.installed at h
    split at h
    · exact absurd h (not_blocksIdentity_blocked (by simp))
    · rename_i ownership hownership
      split at h
      · exact absurd h (not_blocksIdentity_blocked (by simp))
      · rename_i artifact hlayout
        split at h
        · exact absurd h (not_blocksIdentity_blocked (by simp))
        · rename_i hno
          simp only [Bool.or_eq_true, Bool.not_eq_true', decide_eq_true_eq, not_or, Bool.not_eq_false, ne_eq, not_not] at hno
          obtain ⟨hvalid, rfl⟩ := hno
          split at h
          · rename_i hservice
            unfold authorizationGate at h
            split at h
            · exact absurd h (not_blocksIdentity_blocked (by simp))
            · rename_i authorization hauthorization
              split at h
              · rename_i hne
                exact ⟨ownership, authorization, hownership, hlayout, hvalid, hservice, hauthorization, hne⟩
              · split at h
                · rename_i code hcode
                  exact absurd h (not_blocksIdentity_blocked fun heq => authorizationFailure_ne hcode (Prod.mk.inj heq).2)
                · exact absurd h not_blocksIdentity_later
          · exact absurd h (not_blocksIdentity_blocked (by simp))
  · intro ⟨ownership, authorization, hownership, hlayout, hvalid, hservice, hauthorization, hne⟩
    refine ⟨⟨ownership.artifact, some (.authorization, "DG_AUTH_IDENTITY"), now⟩, ?_, rfl⟩
    simp [DeploymentGateService.installed, hownership, hlayout, hvalid, hservice, authorizationGate, hauthorization, hne, blockedReport,
      DeploymentGateReportV1.derive, hnow]

theorem validAt_ne_zero {a : DeploymentAuthorizationV1} {now : Nat} (h : a.validateAt now = .ok ()) : now ≠ 0 := by
  obtain ⟨hstructure, hin⟩ := bind_unit_eq_ok.mp h
  have hissued : a.issuedAtUnixMs ≠ 0 := by
    unfold DeploymentAuthorizationV1.validateStructure at hstructure
    split at hstructure
    · cases hstructure
    · simp only at hstructure
      split at hstructure
      · cases hstructure
      · rename_i hno
        simp only [Bool.or_eq_true, decide_eq_true_eq, not_or] at hno
        exact hno.1.1.2
  split at hin
  · cases hin
  · rename_i hno
    simp only [Bool.or_eq_true, decide_eq_true_eq, not_or] at hno
    omega

/-! ### The journal that the gate goes by -/

theorem ownershipFrom_keeps {snapshot : InstalledOwnershipSnapshotV1} {result : Option InstalledOwnershipSnapshotV1}
    (h : ownershipFrom d artifact (some snapshot) ids = .ok result) : result = some snapshot := by
  induction ids with
  | nil =>
    cases h
    rfl
  | cons tx rest ih =>
    obtain ⟨j, -, hcases⟩ := ownershipFrom_inv h
    rcases hcases with ⟨-, hlater⟩ | ⟨-, -, hnone, -⟩
    · exact ih hlater
    · cases hnone

/-- The one journal that is reported is any that is installed. -/
theorem ownershipFrom_reports {result : Option InstalledOwnershipSnapshotV1} (h : ownershipFrom d artifact found ids = .ok result)
    (htx : tx ∈ ids) (hload : loadJournalExact d tx = .ok j) (hstate : j.state = .installed) :
    result = some ⟨j.bindings.transactionId, j.bindings.authorizationId, j.bindings.artifact⟩ := by
  induction ids generalizing found with
  | nil => cases htx
  | cons first rest ih =>
    obtain ⟨k, hk, hcases⟩ := ownershipFrom_inv h
    rcases List.mem_cons.mp htx with rfl | hmem
    · rw [hload] at hk
      cases hk
      rcases hcases with ⟨hrolled, -⟩ | ⟨-, -, -, hlater⟩
      · rw [hstate] at hrolled
        cases hrolled
      · exact ownershipFrom_keeps hlater
    · rcases hcases with ⟨-, hlater⟩ | ⟨-, -, -, hlater⟩
      · exact ih hlater hmem
      · exact ih hlater hmem

theorem mem_transactionIds (h : transactionIds d = .ok ids) (hat : AtHome d tx (finalHome tx)) : tx ∈ ids := by
  have hopen : openStaticDirectoryOptional d InstallRoleV1.transactionsRoot.path = .ok (some InstallRoleV1.transactionsRoot.path) :=
    (openStaticDirectoryOptional_some (List.prefix_refl _)).mpr ⟨rfl, fun a ha => hat.above a (ha.trans (List.prefix_append ..))⟩
  obtain ⟨info, hthere, -⟩ := hat.valid
  unfold transactionIds at h
  rw [hopen] at h
  obtain ⟨-, hret⟩ := bind_unit_eq_ok.mp h
  split at hret
  · cases hret
  · cases hret
    refine (List.perm_insertionSort _ _).mem_iff.mpr (FileTree.mem_children.mpr ?_)
    show d.get (finalHome tx) ≠ none
    simp [hthere]

/-- The files of a transaction that has gone through. -/
theorem covers_file {found : List InstallDestinationSnapshotV1} (h : Accepted d operation found prior) (hfile : r.isDirectory = false) :
    ActsOn ((InstallPlanner.sortDestinations found).flatMap actionsOf) r := by
  obtain ⟨x, hx, rfl⟩ := h.mem r
  obtain ⟨observed, -, hstate⟩ := h.seen x hx
  refine actsOn_planned.mpr ⟨x, hx, rfl, fun hexists => ?_⟩
  rcases destinationState_some hstate with ⟨hno, -⟩ | ⟨hno, -⟩ | ⟨-, hno, -⟩ | ⟨hno, -⟩
  · rw [hno] at hexists
    cases hexists
  · rw [hno] at hexists
    cases hexists
  · rw [hfile] at hno
    cases hno
  · rw [hno] at hexists
    cases hexists

/-- A file that is in place, as it lies on the disk. -/
theorem InPlace.file (h : InPlace s e) (hvalid : e.validate = .ok ()) (hphase : e.phase ≠ .pending)
    (hfile : e.role.isDirectory = false) : ∃ info digest known, s.get e.role.path = some (.file info 1 (.blob digest)) ∧
      e.currentIdentity = some known ∧ known.sha256 = some digest.val ∧ info.mode = e.role.expectedMode ∧ info.uid = 0 ∧
      info.gid = 0 := by
  obtain ⟨n, known, hget, hident, hseen⟩ := h
  obtain ⟨same, hsame, -, hintended⟩ := InstallJournalEntryV1.matchesIntended_of_validate hvalid hphase
  rw [hident] at hsame
  cases hsame
  have hlayout := entryLayout_of_validate hvalid
  have hkind := kind_of_inPlace hvalid hphase hident hfile
  unfold InstallObjectIdentityV1.matchesIntended at hintended
  simp only [Bool.and_eq_true, beq_iff_eq] at hintended
  obtain ⟨⟨⟨-, hmode⟩, huid⟩, hgid⟩ := hintended
  cases n with
  | directory info =>
    rw [(inspectNode_kind hseen).mp rfl] at hkind
    cases hkind
  | symlink info => cases hseen
  | special info =>
    obtain ⟨-, hno⟩ := bind_unit_eq_ok.mp hseen
    cases hno
  | file info hardLinks content =>
    obtain ⟨-, hrest⟩ := bind_unit_eq_ok.mp hseen
    split at hrest
    · cases hrest
    · rename_i hlinks
      obtain ⟨digest, hdigest, hret⟩ := bind_eq_ok.mp hrest
      cases hret
      cases content with
      | blob payload =>
        cases hdigest
        exact ⟨info, payload, _, by rw [hget, not_not.mp hlinks], hident, rfl, hmode.trans hlayout.mode, huid.trans hlayout.uid,
          hgid.trans hlayout.gid⟩
      | journal | enforce => cases hdigest

/-- **What a transaction leaves for the gate**: its journal among the transactions, with the
identifier of the install authorization, and the deployment authorization that it came with. -/
theorem Applies.gate (h : Applies p d s) : ∃ j info digest, Recorded d.get p.transactionId none (finalHome p.transactionId) j s ∧
    j.state = .installed ∧ j.bindings.authorizationId = p.authorizationId ∧
    s.get InstallRoleV1.deploymentAuthorization.path = some (.file info 1 (.blob digest)) ∧ info.mode = 0o600 ∧ info.uid = 0 ∧
    info.gid = 0 ∧ digest.val = p.deploymentAuthorizationSha256 := by
  obtain ⟨found, prior, prepared, j, haccepted, -, hplanned, hinstalled⟩ := h.installed
  have hrec := hinstalled.toRecorded
  have hhome : homeOf d p.transactionId j.entries = finalHome p.transactionId := by
    rcases haccepted.admits with ⟨hop, rfl⟩ | ⟨-, hsome⟩
    · rw [hop] at haccepted
      exact homeOf_install haccepted hplanned hinstalled
    · obtain ⟨k, rfl⟩ := Option.isSome_iff_exists.mp hsome
      exact homeOf_final (current_some haccepted.installed).2.2 _
  rw [hhome] at hrec
  obtain ⟨e, he, hrole⟩ := (hplanned.acts_iff hinstalled.origin .deploymentAuthorization).mpr (covers_file haccepted rfl)
  have hvalid := (hrec.valid_journal.entries (by simp [hinstalled.state])).valid e he
  obtain ⟨info, digest, known, hget, hident, hsha, hmode, huid, hgid⟩ :=
    (hinstalled.inPlace e he).file hvalid (by simp [hinstalled.verified e he]) (by rw [hrole]; rfl)
  have hsource : FromSource p j := .of_installed hplanned hinstalled
  obtain ⟨same, payload, hsame, hpayload, hdigest⟩ := hsource.digests e he (by rw [hrole]; rfl)
  rw [hident] at hsame
  cases hsame
  rw [hrole] at hget hmode hpayload
  cases hpayload
  rw [hsha] at hdigest
  exact ⟨j, info, digest, hrec, hinstalled.state, by rw [hsource.bindings]; rfl, hget, hmode, huid, hgid, Option.some.inj hdigest⟩

/-- **When an install passes the gate's identity check.** For all documents and bundles that the
installer accepts and every transaction that it applies with them: exactly if the install
authorization and the deployment authorization have one identifier. -/
theorem installed_identity_iff (documents : Documents) (bundle : BundleSnapshotV1)
    (authorization deploymentAuthorization performanceEvidence : InstallInputDocumentV1) (hostIdentitySha256 : String)
    (capturedAtUnixMs : Nat) (payloads : InstallRoleV1 → Option Fs.Payload) (p : PreparedSystemInstall) (d s : Disk)
    (granted : InstallAuthorizationV1) (document : DeploymentAuthorizationV1)
    (hgranted : documents.install authorization.content = some granted)
    (hdocument : documents.deployment deploymentAuthorization.content = some document)
    (hprepare : prepare documents bundle authorization deploymentAuthorization performanceEvidence hostIdentitySha256
      capturedAtUnixMs payloads = .ok p) (happlies : Applies p d s) :
    PassesIdentity documents s p.transactionId ↔ granted.authorizationId = document.authorizationId := by
  obtain ⟨parsed, hparsed, hid, hdigest⟩ := prepare_inv hprepare
  rw [hgranted] at hparsed
  cases hparsed
  obtain ⟨j, info, digest, hrec, hstate, hbound, hget, hmode, huid, hgid, hsame⟩ := happlies.gate
  have hcontent : digest = deploymentAuthorization.content := Subtype.ext (hsame.trans hdigest)
  have hread : readGateJson documents s = .ok document := by
    simp [readGateJson, hget, hmode, huid, hgid, hcontent, hdocument]
  constructor
  · intro ⟨⟨k, installed, hload, hinstalled, heq⟩, _⟩
    rw [hrec.load] at hload
    cases hload
    rw [hread] at hinstalled
    cases hinstalled
    rw [← hid, ← hbound, heq]
  · intro heq
    refine ⟨⟨j, document, hrec.load, hread, by rw [hbound, hid, heq]⟩, ?_⟩
    intro artifact reads now installed _ hnow hblocks
    have hpositive : now ≠ 0 := validAt_ne_zero hnow
    obtain ⟨ownership, found, hownership, -, -, -, hfound, hne⟩ := (blocksIdentity_iff hpositive).mp hblocks
    change readGateJson documents s = .ok found at hfound
    rw [hread] at hfound
    cases hfound
    obtain ⟨ids, hids, hrest⟩ := bind_eq_ok.mp hownership
    obtain ⟨result, hresult, hret⟩ := bind_eq_ok.mp hrest
    rw [mapError_eq_ok] at hids
    rw [ownershipFrom_reports hresult (mem_transactionIds hids hrec.toAtHome) hrec.load hstate] at hret
    cases hret
    exact hne (by rw [hbound, hid, heq])

/-! ### Two identifiers -/

def sampleAuthorizationDigest : Digest := ⟨"0123456789abcdef0123456789abcdef0123456789abcdef0123456789abcdef", by decide⟩

def samplePerformanceDigest : Digest := ⟨"fedcba9876543210fedcba9876543210fedcba9876543210fedcba9876543210", by decide⟩

/-- An install authorization of one hour. -/
def sampleGrant : InstallAuthorizationV1 where
  schemaVersion := 1
  authorizationId := sampleHex 32
  transactionId := sampleHex 32
  operation := .install
  artifactCommitSha := sampleHex 40
  bundleManifestSha256 := sampleHex 64
  hostIdentitySha256 := sampleHex 64
  deploymentAuthorizationSha256 := sampleDigest.val
  performanceEvidenceSha256 := samplePerformanceDigest.val
  issuedAtUnixMs := 1000
  expiresAtUnixMs := 3601000
  serviceEnable := false
  serviceStart := false
  physicalAttach := false

/-- A deployment authorization with an identifier of its own. -/
def sampleDeployment (id : String) : DeploymentAuthorizationV1 where
  schemaVersion := 1
  authorizationId := id
  artifactCommitSha := sampleHex 40
  interface := ⟨"eth0", 2, .physical, none, sampleHex 64, "virtio_net", sampleHex 64, sampleHex 64, false, [], []⟩
  issuedAtUnixMs := 1000
  expiresAtUnixMs := 3601000

def sampleDocuments (id : String) : Documents where
  install := fun digest => if digest = sampleAuthorizationDigest then some sampleGrant else none
  deployment := fun digest => if digest = sampleDigest then some (sampleDeployment id) else none

def sampleDocument (content : Digest) : InstallInputDocumentV1 := ⟨content, 512, true, 0o600, 0, 0, 1⟩

/-- A bundle whose files all have one text. -/
def sampleBundle (commit digest : String) : BundleSnapshotV1 where
  artifact := ⟨commit, "1.0.0"⟩
  files := installBundleFiles.mapIdx fun k file => (file.1, ⟨digest, 512, file.2, 1, k + 1, 1⟩)

def samplePayloads : InstallRoleV1 → Option Fs.Payload
  | .performanceEvidence => some (.blob samplePerformanceDigest)
  | _ => some (.blob sampleDigest)

/-- What is prepared from these. -/
def samplePrepared : PreparedSystemInstall :=
  {sampleSource .install (sampleHex 32) with
    performanceEvidenceSha256 := samplePerformanceDigest.val
    bundleFiles := fun name => ((sampleBundle (sampleHex 40) (sampleHex 64)).files.lookup name).map (·.sha256)
    payloads := samplePayloads}

theorem sampleBundle_valid {commit digest : String} (hcommit : isLowerHex commit 40 = true) (hdigest : isLowerHex digest 64 = true) :
    validateBundleSnapshot (sampleBundle commit digest) = .ok () := by
  have htext : isSafeText "1.0.0" 64 = true := by decide
  simp [validateBundleSnapshot, sampleBundle, DeploymentArtifactIdentityV1.isValid, hcommit, hdigest, htext, installBundleFiles,
    checkBundleFiles, List.lookup, maximumBundleSize, maxInstallDocumentBytes]

theorem sampleGrant_valid {now : Nat} (hnow : 1000 ≤ now ∧ now ≤ 3601000) : sampleGrant.validateAt now = .ok () := by
  have hstructure : sampleGrant.validateStructure = .ok () := by
    simp [InstallAuthorizationV1.validateStructure, sampleGrant, sampleHex_valid, sampleDigest, samplePerformanceDigest.2,
      installAuthorizationMaxLifetimeMs]
  rw [InstallAuthorizationV1.validateAt, hstructure]
  show (if _ then _ else _) = _
  rw [if_neg]
  simp [sampleGrant, Nat.not_lt.mpr hnow.1, Nat.not_lt.mpr hnow.2]

theorem sampleDocument_private (content : Digest) : (sampleDocument content).validatePrivate = .ok () := by
  simp [InstallInputDocumentV1.validatePrivate, sampleDocument, maxInstallDocumentBytes]

theorem sampleManifest (commit digest : String) :
    (sampleBundle commit digest).files.lookup "manifest.json" = some ⟨digest, 512, 0o644, 1, 10, 1⟩ := by
  simp [sampleBundle, installBundleFiles, List.lookup]

theorem sampleArtifact_valid : DeploymentArtifactIdentityV1.isValid ⟨sampleHex 40, "1.0.0"⟩ = true := by
  have htext : isSafeText "1.0.0" 64 = true := by decide
  simp [DeploymentArtifactIdentityV1.isValid, sampleHex_valid, htext]

/-- The installer accepts these documents, whatever the identifier of the second. -/
theorem samplePrepare (id : String) :
    prepare (sampleDocuments id) (sampleBundle (sampleHex 40) (sampleHex 64)) (sampleDocument sampleAuthorizationDigest)
      (sampleDocument sampleDigest) (sampleDocument samplePerformanceDigest) (sampleHex 64) 2000 samplePayloads = .ok samplePrepared := by
  have hfor : sampleGrant.validateFor 2000 sampleGrant.operation ⟨sampleHex 40, "1.0.0"⟩ (sampleHex 64) (sampleHex 64)
      sampleDigest.val samplePerformanceDigest.val = .ok () := by
    unfold InstallAuthorizationV1.validateFor
    rw [sampleGrant_valid (by omega)]
    simp only [bind, Except.bind, sampleArtifact_valid, sampleHex_valid, sampleDigest.2, samplePerformanceDigest.2]
    simp [sampleGrant]
  exact prepare_ok (sampleBundle_valid (sampleHex_valid 40) (sampleHex_valid 64)) (sampleDocument_private _)
    (sampleDocument_private _) (sampleDocument_private _) (by simp [sampleDocuments, sampleDocument]) (sampleManifest _ _)
    (sampleGrant_valid (by simp [sampleGrant])) hfor (by simp [sampleGrant])

theorem sampleBundle_lookup (commit digest : String) : ∀ file ∈ installBundleFiles,
    ((sampleBundle commit digest).files.lookup file.1).map (·.sha256) = some digest := by
  simp [installBundleFiles, sampleBundle, List.lookup]

/-- The bundle has every file that the layout takes from it. -/
theorem bundle_source {name : String} (h : r.layoutSource = .bundle name) : ∃ mode, (name, mode) ∈ installBundleFiles := by
  have hnames : ∀ a : InstallRoleV1, ∀ file, a.layoutSource = .bundle file → file ∈ installBundleFiles.map (·.1) := by
    intro a file hfile
    cases a <;> cases hfile <;> decide
  obtain ⟨file, hfile, heq⟩ := List.mem_map.mp (hnames r name h)
  exact ⟨file.2, by rw [← heq]; exact hfile⟩

theorem supplied_samplePrepared : Supplied samplePrepared where
  bindings := by
    have hvalid := (supplied_sampleSource (o := .install) (sampleHex_valid 32)).bindings
    unfold InstallJournalBindingsV1.validate at hvalid ⊢
    simp only [bindingsOf, sampleSource, samplePrepared, sampleHex_valid, samplePerformanceDigest.2, Bool.not_true,
      Bool.false_or] at hvalid ⊢
    exact hvalid
  payloads := by
    intro r hr
    cases hsource : r.layoutSource with
    | none =>
      rw [(layoutSource_none r).mp hsource] at hr
      cases hr
    | bundle name =>
      obtain ⟨mode, hname⟩ := bundle_source hsource
      have hother : samplePrepared.payloads r = some (.blob sampleDigest) := by
        cases r <;> first
          | rfl
          | cases hsource
      refine ⟨sampleDigest, hother, ?_⟩
      rw [payloadSha256, hsource]
      show ((samplePrepared.bundleFiles name).elim _ _) = _
      rw [show samplePrepared.bundleFiles name = some (sampleHex 64) from sampleBundle_lookup _ _ _ hname]
      rfl
    | deploymentAuthorization =>
      have hrole : r = .deploymentAuthorization := by
        cases r <;> first
          | rfl
          | cases hsource
      subst hrole
      exact ⟨sampleDigest, rfl, rfl⟩
    | performanceEvidence =>
      have hrole : r = .performanceEvidence := by
        cases r <;> first
          | rfl
          | cases hsource
      subst hrole
      exact ⟨samplePerformanceDigest, rfl, rfl⟩

theorem samplePrepared_done : ∃ s, Applies samplePrepared sampleHost s := by
  obtain ⟨s, happlies, -⟩ := fresh_sampleHost.install_done (p := samplePrepared) supplied_samplePrepared rfl
    (sampleHost_dot bootstrapName_head) (namesFree_sampleHost _)
  exact ⟨s, happlies⟩

theorem sampleDeployment_valid {id : String} (hid : isLowerHex id 32 = true) : (sampleDeployment id).validateAt 2000 = .ok () := by
  have hname : isInterfaceName "eth0" = true := by decide
  have hdriver : isSafeText "virtio_net" 128 = true := by decide
  simp [DeploymentAuthorizationV1.validateAt, DeploymentAuthorizationV1.validateStructure, sampleDeployment, hid, sampleHex_valid,
    authorizationMaxLifetimeMs, DeploymentAuthorizedInterfaceV1.validate, hname, hdriver, bind, Except.bind]

/-- The other reads of a checker on whose host everything is in order. -/
def sampleReads : OtherReads := ⟨.ok ⟨sampleHex 40, "1.0.0"⟩, .ok true, .ok fun _ _ => none, .ok true⟩

/-- Two documents with an identifier each: the installer takes them, and the gate blocks what it has installed. -/
theorem installed_identity_blocked :
    ∃ s, prepare (sampleDocuments secondId) (sampleBundle (sampleHex 40) (sampleHex 64)) (sampleDocument sampleAuthorizationDigest)
        (sampleDocument sampleDigest) (sampleDocument samplePerformanceDigest) (sampleHex 64) 2000 samplePayloads = .ok samplePrepared ∧
      Applies samplePrepared sampleHost s ∧ readGateJson (sampleDocuments secondId) s = .ok (sampleDeployment secondId) ∧
      (sampleDeployment secondId).validateAt 2000 = .ok () ∧
      BlocksIdentity (DeploymentGateService.installed (linuxDeploymentFilesystem (sampleDocuments secondId) s ⟨sampleHex 40, "1.0.0"⟩ sampleReads) 2000) := by
  obtain ⟨s, happlies⟩ := samplePrepared_done
  obtain ⟨-, j, journals, hsource, hinst⟩ := untouched_sampleHost.applies happlies
  obtain ⟨-, info, digest, -, -, -, hget, hmode, huid, hgid, hsame⟩ := happlies.gate
  have hread : readGateJson (sampleDocuments secondId) s = .ok (sampleDeployment secondId) := by
    have hcontent : digest = sampleDigest := Subtype.ext hsame
    simp [readGateJson, hget, hmode, huid, hgid, hcontent, sampleDocuments]
  have hmanifest : samplePrepared.bundleFiles "manifest.json" = some samplePrepared.bundleManifestSha256 :=
    sampleBundle_lookup (sampleHex 40) (sampleHex 64) ("manifest.json", 0o644) (by simp [installBundleFiles])
  have hown := hinst.ownership hsource hmanifest (by simp)
  rw [hsource.bindings] at hown
  refine ⟨s, samplePrepare secondId, happlies, hread, sampleDeployment_valid secondId_valid, ?_⟩
  exact (blocksIdentity_iff (by omega)).mpr ⟨_, sampleDeployment secondId, hown, rfl, sampleArtifact_valid, rfl, hread,
    fun heq => sampleHex_ne_secondId heq.symm⟩

/-- One identifier for both: the gate lets the install through. -/
theorem installed_identity_shared :
    ∃ s, Applies samplePrepared sampleHost s ∧ PassesIdentity (sampleDocuments (sampleHex 32)) s (sampleHex 32) := by
  obtain ⟨s, happlies⟩ := samplePrepared_done
  refine ⟨s, happlies, ?_⟩
  exact (installed_identity_iff (sampleDocuments (sampleHex 32)) (sampleBundle (sampleHex 40) (sampleHex 64))
    (sampleDocument sampleAuthorizationDigest) (sampleDocument sampleDigest) (sampleDocument samplePerformanceDigest) (sampleHex 64)
    2000 samplePayloads samplePrepared sampleHost s sampleGrant (sampleDeployment (sampleHex 32))
    (by simp [sampleDocuments, sampleDocument]) (by simp [sampleDocuments, sampleDocument]) (samplePrepare _) happlies).mpr rfl

end NetworkLoop.Install
