import NetworkLoop.Install.Ownership

/-! The documents that a transaction is made from (`installation.rs`, `deployment.rs`,
`installation_layout.rs`).

An install comes with three documents. The installer reads the first, the install
authorization, and holds the other two to the digests that it names: the deployment
authorization, which is put on the host unread and is read there by the deployment
checker, and the performance evidence. As on the disk, the bytes of a document are
known by their digest; what a JSON reader makes of them is a parameter. -/
namespace NetworkLoop.Install

/-! ### The install authorization -/

structure InstallAuthorizationV1 where
  schemaVersion : Nat
  authorizationId : String
  transactionId : String
  operation : InstallOperationV1
  artifactCommitSha : String
  bundleManifestSha256 : String
  hostIdentitySha256 : String
  deploymentAuthorizationSha256 : String
  performanceEvidenceSha256 : String
  issuedAtUnixMs : Nat
  expiresAtUnixMs : Nat
  serviceEnable : Bool
  serviceStart : Bool
  physicalAttach : Bool
  deriving DecidableEq, Repr

/-- The only variant of `InstallContractError` that an authorization meets. -/
inductive InstallContractError where
  | invalidAuthorization
  deriving DecidableEq, Repr

def installAuthorizationMaxLifetimeMs : Nat := 60 * 60 * 1000

namespace InstallAuthorizationV1

def validateStructure (a : InstallAuthorizationV1) : Except InstallContractError Unit :=
  if a.expiresAtUnixMs < a.issuedAtUnixMs then .error .invalidAuthorization
  else
    let lifetime := a.expiresAtUnixMs - a.issuedAtUnixMs
    if a.schemaVersion ≠ 1 || !isLowerHex a.authorizationId 32 || !isLowerHex a.transactionId 32 ||
        !isLowerHex a.artifactCommitSha 40 || !isLowerHex a.bundleManifestSha256 64 || !isLowerHex a.hostIdentitySha256 64 ||
        !isLowerHex a.deploymentAuthorizationSha256 64 || !isLowerHex a.performanceEvidenceSha256 64 ||
        a.issuedAtUnixMs = 0 || lifetime = 0 || lifetime > installAuthorizationMaxLifetimeMs ||
        a.serviceEnable || a.serviceStart || a.physicalAttach then .error .invalidAuthorization
    else .ok ()

def validateAt (a : InstallAuthorizationV1) (capturedAtUnixMs : Nat) : Except InstallContractError Unit :=
  a.validateStructure >>= fun _ =>
    if capturedAtUnixMs < a.issuedAtUnixMs || a.expiresAtUnixMs < capturedAtUnixMs then .error .invalidAuthorization
    else .ok ()

def validateFor (a : InstallAuthorizationV1) (capturedAtUnixMs : Nat) (operation : InstallOperationV1)
    (artifact : DeploymentArtifactIdentityV1) (bundleManifestSha256 hostIdentitySha256 deploymentAuthorizationSha256
    performanceEvidenceSha256 : String) : Except InstallContractError Unit :=
  a.validateAt capturedAtUnixMs >>= fun _ =>
    if !artifact.isValid then .error .invalidAuthorization
    else if a.operation ≠ operation || a.artifactCommitSha ≠ artifact.commitSha ||
        a.bundleManifestSha256 ≠ bundleManifestSha256 || a.hostIdentitySha256 ≠ hostIdentitySha256 ||
        a.deploymentAuthorizationSha256 ≠ deploymentAuthorizationSha256 ||
        a.performanceEvidenceSha256 ≠ performanceEvidenceSha256 || !isLowerHex bundleManifestSha256 64 ||
        !isLowerHex hostIdentitySha256 64 || !isLowerHex deploymentAuthorizationSha256 64 ||
        !isLowerHex performanceEvidenceSha256 64 then .error .invalidAuthorization
    else .ok ()

end InstallAuthorizationV1

/-! ### The deployment authorization -/

inductive InterfaceKind where
  | physical | bond | veth | bridge | ovsInternal | tap | unsupported
  deriving DecidableEq, Repr

/-- `InterfaceName::new` succeeds. -/
def isInterfaceName (value : String) : Bool :=
  !value.isEmpty && value.utf8ByteSize ≤ 15 &&
    value.toList.all (fun c => c.isAlphanum || c == '.' || c == '_' || c == '-' || c == ':')

/-- The link and hook states of the source have one value each and are left out. -/
structure DeploymentAuthorizedInterfaceV1 where
  name : String
  ifindex : Nat
  kind : InterfaceKind
  masterIfindex : Option Nat
  macAddressSha256 : String
  driver : String
  deviceIdentitySha256 : String
  networkNamespaceSha256 : String
  tcClsact : Bool
  tcIngress : List String
  tcEgress : List String
  deriving DecidableEq, Repr

inductive DeploymentContractError where
  | invalidAuthorization | invalidArtifactIdentity
  deriving DecidableEq, Repr

def DeploymentAuthorizedInterfaceV1.validate (i : DeploymentAuthorizedInterfaceV1) : Except DeploymentContractError Unit :=
  if !isInterfaceName i.name || i.ifindex = 0 || i.kind ≠ .physical || i.masterIfindex.isSome ||
      !isLowerHex i.macAddressSha256 64 || !isSafeText i.driver 128 || !isLowerHex i.deviceIdentitySha256 64 ||
      !isLowerHex i.networkNamespaceSha256 64 || i.tcClsact || !i.tcIngress.isEmpty || !i.tcEgress.isEmpty then
    .error .invalidAuthorization
  else .ok ()

structure DeploymentAuthorizationV1 where
  schemaVersion : Nat
  authorizationId : String
  artifactCommitSha : String
  interface : DeploymentAuthorizedInterfaceV1
  issuedAtUnixMs : Nat
  expiresAtUnixMs : Nat
  deriving DecidableEq, Repr

def authorizationMaxLifetimeMs : Nat := 24 * 60 * 60 * 1000

namespace DeploymentAuthorizationV1

def validateStructure (a : DeploymentAuthorizationV1) : Except DeploymentContractError Unit :=
  if a.expiresAtUnixMs < a.issuedAtUnixMs then .error .invalidAuthorization
  else
    let lifetime := a.expiresAtUnixMs - a.issuedAtUnixMs
    if a.schemaVersion ≠ 1 || !isLowerHex a.authorizationId 32 || !isLowerHex a.artifactCommitSha 40 ||
        a.issuedAtUnixMs = 0 || lifetime = 0 || lifetime > authorizationMaxLifetimeMs then .error .invalidAuthorization
    else a.interface.validate

def validateAt (a : DeploymentAuthorizationV1) (capturedAtUnixMs : Nat) : Except DeploymentContractError Unit :=
  a.validateStructure >>= fun _ =>
    if capturedAtUnixMs < a.issuedAtUnixMs || a.expiresAtUnixMs < capturedAtUnixMs then .error .invalidAuthorization
    else .ok ()

def validateFor (a : DeploymentAuthorizationV1) (capturedAtUnixMs : Nat) (artifact : DeploymentArtifactIdentityV1) :
    Except DeploymentContractError Unit :=
  a.validateAt capturedAtUnixMs >>= fun _ =>
    if !artifact.isValid then .error .invalidArtifactIdentity
    else if a.artifactCommitSha ≠ artifact.commitSha then .error .invalidAuthorization
    else .ok ()

end DeploymentAuthorizationV1

/-! ### The source of a transaction -/

/-- What a JSON reader makes of the bytes with a given digest. -/
structure Documents where
  install : Digest → Option InstallAuthorizationV1
  deployment : Digest → Option DeploymentAuthorizationV1

/-- `InstallInputDocumentV1`: a file as it was read. -/
structure InstallInputDocumentV1 where
  content : Digest
  length : Nat
  regular : Bool
  mode : Nat
  uid : Nat
  gid : Nat
  hardLinks : Nat
  deriving DecidableEq

inductive InstallValidationError where
  | invalidInput
  deriving DecidableEq, Repr

def maxInstallDocumentBytes : Nat := 1024 * 1024

def InstallInputDocumentV1.validatePrivate (x : InstallInputDocumentV1) : Except InstallValidationError Unit :=
  if !x.regular || x.mode ≠ 0o600 || x.uid ≠ 0 || x.gid ≠ 0 || x.hardLinks ≠ 1 || x.length = 0 ||
      x.length > maxInstallDocumentBytes then .error .invalidInput
  else .ok ()

structure BundleFileIdentityV1 where
  sha256 : String
  size : Nat
  mode : Nat
  device : Nat
  inode : Nat
  hardLinks : Nat
  deriving DecidableEq, Repr

/-- `BundleSnapshotV1`: the files by name, in the order of a `BTreeMap`. -/
structure BundleSnapshotV1 where
  artifact : DeploymentArtifactIdentityV1
  files : List (String × BundleFileIdentityV1)
  deriving DecidableEq, Repr

def installBundleFiles : List (String × Nat) :=
  [("SHA256SUMS", 0o644), ("deployment-v1.example.json", 0o644), ("l2-loop-deploycheck", 0o755), ("l2-loop-ebpf.o", 0o644),
    ("l2-loop-hostcheck", 0o755), ("l2-loop-install", 0o755), ("l2-loop.service", 0o644), ("l2-loopctl", 0o755),
    ("l2-loopd", 0o755), ("manifest.json", 0o644)]

def maximumBundleSize (name : String) : Nat :=
  if name = "manifest.json" then 1024 * 1024
  else if name = "SHA256SUMS" then 64 * 1024
  else if name = "l2-loop-ebpf.o" then 16 * 1024 * 1024
  else if name = "deployment-v1.example.json" ∨ name = "l2-loop.service" then maxInstallDocumentBytes
  else 64 * 1024 * 1024

/-- The loop of `validate_bundle_snapshot`; `identities` are the devices and inodes seen so far. -/
def checkBundleFiles (bundle : BundleSnapshotV1) (identities : List (Nat × Nat)) :
    List (String × Nat) → Except InstallValidationError Unit
  | [] => .ok ()
  | (name, expectedMode) :: rest =>
    match bundle.files.lookup name with
    | none => .error .invalidInput
    | some file =>
      if file.mode ≠ expectedMode || file.hardLinks ≠ 1 || file.size = 0 || file.size > maximumBundleSize name ||
          !isLowerHex file.sha256 64 || identities.contains (file.device, file.inode) then .error .invalidInput
      else checkBundleFiles bundle ((file.device, file.inode) :: identities) rest

def validateBundleSnapshot (bundle : BundleSnapshotV1) : Except InstallValidationError Unit :=
  if !bundle.artifact.isValid then .error .invalidInput
  else if bundle.files.map (·.1) ≠ installBundleFiles.map (·.1) then .error .invalidInput
  else checkBundleFiles bundle [] installBundleFiles

structure InstallSourceSnapshotV1 where
  authorization : InstallAuthorizationV1
  artifact : DeploymentArtifactIdentityV1
  bundleManifestSha256 : String
  deploymentAuthorizationSha256 : String
  performanceEvidenceSha256 : String
  deriving DecidableEq, Repr

/-- `validate_install_source_inputs`, with `InstallSourceSnapshotV1::new` at its end. -/
def validateInstallSourceInputs (documents : Documents) (bundle : BundleSnapshotV1)
    (authorization deploymentAuthorization performanceEvidence : InstallInputDocumentV1) :
    Except InstallValidationError InstallSourceSnapshotV1 :=
  validateBundleSnapshot bundle >>= fun _ => authorization.validatePrivate >>= fun _ =>
    deploymentAuthorization.validatePrivate >>= fun _ => performanceEvidence.validatePrivate >>= fun _ =>
      match documents.install authorization.content, bundle.files.lookup "manifest.json" with
      | some parsed, some manifest =>
        (parsed.validateAt parsed.issuedAtUnixMs).mapError (fun _ => InstallValidationError.invalidInput) >>= fun _ =>
          if parsed.artifactCommitSha ≠ bundle.artifact.commitSha || parsed.bundleManifestSha256 ≠ manifest.sha256 ||
              parsed.deploymentAuthorizationSha256 ≠ deploymentAuthorization.content.val ||
              parsed.performanceEvidenceSha256 ≠ performanceEvidence.content.val then .error .invalidInput
          else if !bundle.artifact.isValid || !isLowerHex manifest.sha256 64 ||
              !isLowerHex deploymentAuthorization.content.val 64 || !isLowerHex performanceEvidence.content.val 64 then
            .error .invalidInput
          else .ok ⟨parsed, bundle.artifact, manifest.sha256, deploymentAuthorization.content.val, performanceEvidence.content.val⟩
      | _, _ => .error .invalidInput

/-- `SystemInstallationCommandRunner::prepare`, from the documents and the bundle as they were
read; what opening the payloads finds later is the caller's. -/
def prepare (documents : Documents) (bundle : BundleSnapshotV1)
    (authorization deploymentAuthorization performanceEvidence : InstallInputDocumentV1) (hostIdentitySha256 : String)
    (capturedAtUnixMs : Nat) (payloads : InstallRoleV1 → Option Fs.Payload) : Except InstallServiceError PreparedSystemInstall :=
  (validateInstallSourceInputs documents bundle authorization deploymentAuthorization performanceEvidence).mapError
      (fun _ => InstallServiceError.inputUnavailable) >>= fun source =>
    (source.authorization.validateFor capturedAtUnixMs source.authorization.operation source.artifact
        source.bundleManifestSha256 hostIdentitySha256 source.deploymentAuthorizationSha256
        source.performanceEvidenceSha256).mapError (fun _ => InstallServiceError.inputUnavailable) >>= fun _ =>
      if source.authorization.operation = .rollback then .error .inputUnavailable
      else
        .ok {
          transactionId := source.authorization.transactionId
          authorizationId := source.authorization.authorizationId
          operation := source.authorization.operation
          hostIdentitySha256 := hostIdentitySha256
          artifact := source.artifact
          bundleManifestSha256 := source.bundleManifestSha256
          deploymentAuthorizationSha256 := source.deploymentAuthorizationSha256
          performanceEvidenceSha256 := source.performanceEvidenceSha256
          bundleFiles := fun name => (bundle.files.lookup name).map (·.sha256)
          payloads := payloads
        }

variable {documents : Documents} {bundle : BundleSnapshotV1}
  {authorization deploymentAuthorization performanceEvidence : InstallInputDocumentV1} {host : String} {captured : Nat}
  {payloads : InstallRoleV1 → Option Fs.Payload} {p : PreparedSystemInstall}

/-- What the installer knows of the documents: one authorization, two digests. -/
theorem prepare_inv
    (h : prepare documents bundle authorization deploymentAuthorization performanceEvidence host captured payloads = .ok p) :
    ∃ parsed, documents.install authorization.content = some parsed ∧ p.authorizationId = parsed.authorizationId ∧
      p.deploymentAuthorizationSha256 = deploymentAuthorization.content.val := by
  obtain ⟨source, hsource, hrest⟩ := bind_eq_ok.mp h
  obtain ⟨-, hrest⟩ := bind_unit_eq_ok.mp hrest
  split at hrest
  · cases hrest
  · cases hrest
    rw [mapError_eq_ok] at hsource
    obtain ⟨-, hsource⟩ := bind_unit_eq_ok.mp hsource
    obtain ⟨-, hsource⟩ := bind_unit_eq_ok.mp hsource
    obtain ⟨-, hsource⟩ := bind_unit_eq_ok.mp hsource
    obtain ⟨-, hsource⟩ := bind_unit_eq_ok.mp hsource
    split at hsource
    · rename_i parsed manifest hparsed _
      obtain ⟨-, hsource⟩ := bind_unit_eq_ok.mp hsource
      split at hsource
      · cases hsource
      · split at hsource
        · cases hsource
        · cases hsource
          exact ⟨parsed, hparsed, rfl, rfl⟩
    · cases hsource

/-- Documents that fit together are accepted. -/
theorem prepare_ok {parsed : InstallAuthorizationV1} {manifest : BundleFileIdentityV1}
    (hbundle : validateBundleSnapshot bundle = .ok ()) (hfirst : authorization.validatePrivate = .ok ())
    (hsecond : deploymentAuthorization.validatePrivate = .ok ()) (hthird : performanceEvidence.validatePrivate = .ok ())
    (hparsed : documents.install authorization.content = some parsed)
    (hmanifest : bundle.files.lookup "manifest.json" = some manifest)
    (hissued : parsed.validateAt parsed.issuedAtUnixMs = .ok ())
    (hfor : parsed.validateFor captured parsed.operation bundle.artifact manifest.sha256 host deploymentAuthorization.content.val
      performanceEvidence.content.val = .ok ()) (hop : parsed.operation ≠ .rollback) :
    prepare documents bundle authorization deploymentAuthorization performanceEvidence host captured payloads =
      .ok ⟨parsed.transactionId, parsed.authorizationId, parsed.operation, host, bundle.artifact, manifest.sha256,
        deploymentAuthorization.content.val, performanceEvidence.content.val,
        fun name => (bundle.files.lookup name).map (·.sha256), payloads⟩ := by
  obtain ⟨-, hbound⟩ := bind_unit_eq_ok.mp hfor
  have hsource : validateInstallSourceInputs documents bundle authorization deploymentAuthorization performanceEvidence =
      .ok ⟨parsed, bundle.artifact, manifest.sha256, deploymentAuthorization.content.val, performanceEvidence.content.val⟩ := by
    split at hbound
    · cases hbound
    · rename_i hartifact
      split at hbound
      · cases hbound
      · rename_i hsame
        simp only [Bool.or_eq_true, Bool.not_eq_true', decide_eq_true_eq, not_or, Bool.not_eq_false, ne_eq, not_not] at hsame hartifact
        obtain ⟨⟨⟨⟨⟨⟨⟨⟨⟨-, hcommit⟩, hbundleSame⟩, -⟩, hdeployment⟩, hperformance⟩, hhex⟩, -⟩, -⟩, -⟩ := hsame
        simp [validateInstallSourceInputs, hbundle, hfirst, hsecond, hthird, hparsed, hmanifest, hissued, bind, Except.bind,
          Except.mapError, hcommit, hbundleSame, hdeployment, hperformance, hartifact, hhex, deploymentAuthorization.content.2,
          performanceEvidence.content.2]
  simp [prepare, hsource, bind, Except.bind, Except.mapError, hfor, hop]

end NetworkLoop.Install
