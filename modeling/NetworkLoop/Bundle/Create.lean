import NetworkLoop.Bundle.Checksums
import NetworkLoop.Core.Domain

/-! The making of a bundle (`create_bundle` of `bundle.rs`).

The input files are read first, then the output directory is made and its files are written one
by one. `createBundle_built` says what lies in the directory when all of it went well: each file
with its bytes and its mode, each on an inode of its own. -/
namespace NetworkLoop.Bundle
open Library

def userspaceTarget : String := "x86_64-unknown-linux-musl"
def ebpfTarget : String := "bpfel-unknown-none"
def abiVersion : Nat := 1

def maxUserspaceBytes : Nat := 64 * 1024 * 1024
def maxEbpfBytes : Nat := 16 * 1024 * 1024
def maxGateAssetBytes : Nat := 1024 * 1024
def maxManifestBytes : Nat := 1024 * 1024

def outputFiles : List String :=
  ["SHA256SUMS", "deployment-v1.example.json", "l2-loop-deploycheck", "l2-loop-ebpf.o", "l2-loop-hostcheck", "l2-loop-install",
    "l2-loop.service", "l2-loopctl", "l2-loopd", "manifest.json"]

/-- `BundleManifest` and `BundleManifestV1`, which have the same fields. -/
structure BundleManifest where
  schemaVersion : Nat
  commitSha : String
  packageVersion : String
  userspaceTarget : String
  ebpfTarget : String
  abiVersion : Nat
  files : BundleFilesV1
  serviceUnitSha256 : String
  authorizationExampleSha256 : String
  deriving DecidableEq, Repr

def BundleManifest.new (commitSha packageVersion serviceUnitSha256 authorizationExampleSha256 : String) : BundleManifest where
  schemaVersion := 1
  commitSha := commitSha
  packageVersion := packageVersion
  userspaceTarget := Bundle.userspaceTarget
  ebpfTarget := Bundle.ebpfTarget
  abiVersion := Bundle.abiVersion
  files := ⟨"l2-loopd", "l2-loopctl", "l2-loop-deploycheck", "l2-loop-install", "l2-loop-hostcheck", "l2-loop-ebpf.o",
    "l2-loop.service", "deployment-v1.example.json"⟩
  serviceUnitSha256 := serviceUnitSha256
  authorizationExampleSha256 := authorizationExampleSha256

/-- The JSON of the manifest and SHA-256 in hexadecimal digits. White space after a JSON text is
read over. -/
structure Formats where
  manifestJson : BundleManifest → Option Bytes
  readManifest : Bytes → Option BundleManifest
  sha256Hex : Bytes → String
  readManifest_json : ∀ manifest text, manifestJson manifest = some text → readManifest (text ++ [10]) = some manifest
  sha256Hex_checksum : ∀ bytes, isChecksum (sha256Hex bytes) = true

structure BundleInputs where
  commitSha : String
  packageVersion : String
  daemon : Path
  cli : Path
  deploymentChecker : Path
  installer : Path
  hostChecker : Path
  ebpf : Path
  serviceUnit : Path
  authorizationExample : Path
  outputDir : Path

/-! ### The inputs -/

def validateMetadata (commitSha packageVersion : String) : Except BundleError Unit :=
  if (utf8 commitSha).length ≠ 40 ∨ ¬(utf8 commitSha).all isLowerHex then .error .invalidCommitSha
  else if packageVersion = "" then .error .invalidPackageVersion
  else .ok ()

/-- `same_file_identity` of `bundle.rs`. -/
def sameFileIdentity (left right : Metadata) : Bool :=
  left.fileType == .file && right.fileType == .file && left.length == right.length &&
    left.stat.device == right.stat.device && left.stat.inode == right.stat.inode &&
    left.stat.hardLinks == right.stat.hardLinks && left.stat.modified == right.stat.modified &&
    left.stat.changed == right.stat.changed

/-- `read_bounded_regular_with_policy`. -/
def readBoundedRegularWithPolicy (r : Reading) (path : Path) (maximum : Nat) (requireSingleLink : Bool) :
    Except BundleError Bytes :=
  match r.before with
  | none => .error (.io "reading input metadata" path)
  | some before =>
    if before.fileType ≠ .file ∨ before.length > maximum ∨ (requireSingleLink ∧ before.stat.hardLinks ≠ 1) then
      .error (.invalidInput path)
    else if !r.opens then .error (.io "opening input" path)
    else
      match r.opened with
      | none => .error (.io "reading opened input metadata" path)
      | some opened =>
        if !sameFileIdentity before opened then .error (.invalidInput path)
        else
          match r.data with
          | none => .error (.io "reading bounded input" path)
          | some data =>
            let bytes := data.take (maximum + 1)
            match r.after with
            | none => .error (.io "re-reading input metadata" path)
            | some after =>
              if bytes.length > maximum ∨ after.length ≠ bytes.length ∨ !sameFileIdentity before after then
                .error (.invalidInput path)
              else .ok bytes

section
variable (host : Host) (F : Formats)

def readBoundedRegular (path : Path) (maximum : Nat) : Except BundleError Bytes :=
  readBoundedRegularWithPolicy (host.reading path) path maximum false

/-- `render_manifest`, as bytes. -/
def renderManifest (manifest : BundleManifest) : Except BundleError Bytes :=
  match F.manifestJson manifest with
  | none => .error .serialize
  | some text => .ok (text ++ [10])

/-- The payload files with their bytes, in the order of their names. -/
def payloads (inputs : BundleInputs) : Except BundleError (List (String × Bytes)) := do
  let daemon ← readBoundedRegular host inputs.daemon maxUserspaceBytes
  let cli ← readBoundedRegular host inputs.cli maxUserspaceBytes
  let deploymentChecker ← readBoundedRegular host inputs.deploymentChecker maxUserspaceBytes
  let installer ← readBoundedRegular host inputs.installer maxUserspaceBytes
  let hostChecker ← readBoundedRegular host inputs.hostChecker maxUserspaceBytes
  let ebpf ← readBoundedRegular host inputs.ebpf maxEbpfBytes
  let serviceUnit ← readBoundedRegular host inputs.serviceUnit maxGateAssetBytes
  let authorizationExample ← readBoundedRegular host inputs.authorizationExample maxGateAssetBytes
  let manifest ← renderManifest F
    (.new inputs.commitSha inputs.packageVersion (F.sha256Hex serviceUnit) (F.sha256Hex authorizationExample))
  if manifest.length > maxManifestBytes then .error .unexpectedOutputInventory
  else .ok [("deployment-v1.example.json", authorizationExample), ("l2-loop-deploycheck", deploymentChecker),
    ("l2-loop-ebpf.o", ebpf), ("l2-loop-hostcheck", hostChecker), ("l2-loop-install", installer),
    ("l2-loop.service", serviceUnit), ("l2-loopctl", cli), ("l2-loopd", daemon), ("manifest.json", manifest)]

/-! ### The output -/

def payloadMode (filename : String) : Nat :=
  if filename ∈ ["l2-loopd", "l2-loopctl", "l2-loop-deploycheck", "l2-loop-install", "l2-loop-hostcheck"] then 0o755 else 0o644

/-- A regular file with one link. -/
def isSingleFile (metadata : Metadata) : Bool := metadata.fileType == .file && metadata.stat.hardLinks == 1

def writePayload (path : Path) (bytes : Bytes) (mode : Nat) : Effect Disk BundleError Unit :=
  host.write path bytes >>= fun _ =>
  host.setMode path mode >>= fun _ =>
  host.metadata path (.io "reading output metadata" path) >>= fun metadata =>
  .ask fun _ => if isSingleFile metadata && metadata.length == bytes.length then .ok () else .error .unexpectedOutputInventory

def writePayloads (output : Path) : List (String × Bytes) → Effect Disk BundleError Unit
  | [] => pure ()
  | (filename, bytes) :: rest =>
    writePayload host (output ++ [filename]) bytes (payloadMode filename) >>= fun _ => writePayloads output rest

def validateOutputFiles (output : Path) : List String → Effect Disk BundleError Unit
  | [] => pure ()
  | name :: rest =>
    host.metadata (output ++ [name]) .unexpectedOutputInventory >>= fun metadata =>
    .ask (fun _ => if isSingleFile metadata then .ok () else .error .unexpectedOutputInventory) >>= fun _ =>
    validateOutputFiles output rest

def validateOutputInventory (output : Path) : Effect Disk BundleError Unit :=
  host.readDir output >>= fun names =>
  .ask (fun _ => if names = outputFiles then .ok () else .error .unexpectedOutputInventory) >>= fun _ =>
  validateOutputFiles host output outputFiles

/-- `Path::exists`, which follows a link. -/
def Disk.exists (t : Disk) (path : Path) : Bool := (t.canonicalize path).isSome

/-- `create_bundle`. -/
def createBundle (inputs : BundleInputs) : Effect Disk BundleError Unit :=
  .ask (fun _ => validateMetadata inputs.commitSha inputs.packageVersion) >>= fun _ =>
  .ask (fun t => if t.exists inputs.outputDir then .error .outputExists else .ok ()) >>= fun _ =>
  .ask (fun _ => payloads host F inputs) >>= fun files =>
  .ask (fun _ => if files.map Prod.fst ≠ checksumPayloads then .error .unexpectedOutputInventory else .ok ()) >>= fun _ =>
  host.createDir inputs.outputDir >>= fun _ =>
  writePayloads host inputs.outputDir files >>= fun _ =>
  .ask (fun _ => renderSha256sums (files.map fun file => (file.1, F.sha256Hex file.2))) >>= fun rendered =>
  writePayload host (inputs.outputDir ++ ["SHA256SUMS"]) (utf8 rendered) 0o644 >>= fun _ =>
  validateOutputInventory host inputs.outputDir

end

/-! ### The input files -/

section Inputs
variable {host : Host} {F : Formats} {inputs : BundleInputs} {path : Path} {maximum : Nat} {bytes : Bytes}
  {files : List (String × Bytes)}

/-- What is read is all that the file has. -/
theorem readBoundedRegular_eq_ok (h : readBoundedRegular host path maximum = .ok bytes) :
    (host.reading path).data = some bytes ∧ bytes.length ≤ maximum := by
  unfold readBoundedRegular readBoundedRegularWithPolicy at h
  cases hbefore : (host.reading path).before with
  | none =>
    rw [hbefore] at h
    cases h
  | some before =>
    simp only [hbefore] at h
    split at h
    case isTrue => cases h
    split at h
    case isTrue => cases h
    cases hopened : (host.reading path).opened with
    | none =>
      simp only [hopened] at h
      cases h
    | some opened =>
      simp only [hopened] at h
      split at h
      case isTrue => cases h
      cases hdata : (host.reading path).data with
      | none =>
        simp only [hdata] at h
        cases h
      | some data =>
        simp only [hdata] at h
        cases hafter : (host.reading path).after with
        | none =>
          simp only [hafter] at h
          cases h
        | some after =>
          simp only [hafter] at h
          split at h
          case isTrue => cases h
          case isFalse hgood =>
            rw [not_or] at hgood
            rw [List.length_take] at hgood
            have hwhole : data.take (maximum + 1) = data := List.take_of_length_le (by omega)
            rw [hwhole] at h
            cases h
            exact ⟨rfl, by omega⟩

/-- The bytes of the input files. -/
structure Contents where
  daemon : Bytes
  cli : Bytes
  deploymentChecker : Bytes
  installer : Bytes
  hostChecker : Bytes
  ebpf : Bytes
  serviceUnit : Bytes
  authorizationExample : Bytes

namespace Contents

/-- The payload files with these bytes and this manifest. -/
def payloads (c : Contents) (manifest : Bytes) : List (String × Bytes) :=
  [("deployment-v1.example.json", c.authorizationExample), ("l2-loop-deploycheck", c.deploymentChecker),
    ("l2-loop-ebpf.o", c.ebpf), ("l2-loop-hostcheck", c.hostChecker), ("l2-loop-install", c.installer),
    ("l2-loop.service", c.serviceUnit), ("l2-loopctl", c.cli), ("l2-loopd", c.daemon), ("manifest.json", manifest)]

/-- The bytes were read from the input files, each within its bound. -/
structure ReadFrom (host : Host) (inputs : BundleInputs) (c : Contents) : Prop where
  daemon : (host.reading inputs.daemon).data = some c.daemon ∧ c.daemon.length ≤ maxUserspaceBytes
  cli : (host.reading inputs.cli).data = some c.cli ∧ c.cli.length ≤ maxUserspaceBytes
  deploymentChecker :
    (host.reading inputs.deploymentChecker).data = some c.deploymentChecker ∧ c.deploymentChecker.length ≤ maxUserspaceBytes
  installer : (host.reading inputs.installer).data = some c.installer ∧ c.installer.length ≤ maxUserspaceBytes
  hostChecker : (host.reading inputs.hostChecker).data = some c.hostChecker ∧ c.hostChecker.length ≤ maxUserspaceBytes
  ebpf : (host.reading inputs.ebpf).data = some c.ebpf ∧ c.ebpf.length ≤ maxEbpfBytes
  serviceUnit : (host.reading inputs.serviceUnit).data = some c.serviceUnit ∧ c.serviceUnit.length ≤ maxGateAssetBytes
  authorizationExample : (host.reading inputs.authorizationExample).data = some c.authorizationExample ∧
    c.authorizationExample.length ≤ maxGateAssetBytes

/-- The manifest of a bundle of these files. -/
def manifest (F : Formats) (inputs : BundleInputs) (c : Contents) : BundleManifest :=
  .new inputs.commitSha inputs.packageVersion (F.sha256Hex c.serviceUnit) (F.sha256Hex c.authorizationExample)

end Contents

/-- What there is to write: the files, with a manifest that is a text of `manifest.json`. -/
theorem payloads_eq_ok (h : payloads host F inputs = .ok files) : ∃ (c : Contents) (text : Bytes), c.ReadFrom host inputs ∧
    F.manifestJson (c.manifest F inputs) = some text ∧ text.length + 1 ≤ maxManifestBytes ∧ files = c.payloads (text ++ [10]) := by
  unfold payloads at h
  obtain ⟨daemon, hdaemon, h⟩ := bind_eq_ok.mp h
  obtain ⟨cli, hcli, h⟩ := bind_eq_ok.mp h
  obtain ⟨deploymentChecker, hdeploymentChecker, h⟩ := bind_eq_ok.mp h
  obtain ⟨installer, hinstaller, h⟩ := bind_eq_ok.mp h
  obtain ⟨hostChecker, hhostChecker, h⟩ := bind_eq_ok.mp h
  obtain ⟨ebpf, hebpf, h⟩ := bind_eq_ok.mp h
  obtain ⟨serviceUnit, hserviceUnit, h⟩ := bind_eq_ok.mp h
  obtain ⟨authorizationExample, hauthorizationExample, h⟩ := bind_eq_ok.mp h
  obtain ⟨manifest, hmanifest, h⟩ := bind_eq_ok.mp h
  split at h
  case isTrue => cases h
  case isFalse hsmall =>
    rw [renderManifest] at hmanifest
    cases htext : F.manifestJson
        (.new inputs.commitSha inputs.packageVersion (F.sha256Hex serviceUnit) (F.sha256Hex authorizationExample)) with
    | none =>
      rw [htext] at hmanifest
      cases hmanifest
    | some text =>
      rw [htext] at hmanifest
      cases hmanifest
      refine ⟨⟨daemon, cli, deploymentChecker, installer, hostChecker, ebpf, serviceUnit, authorizationExample⟩, text, ?_,
        htext, ?_, (Except.ok.inj h).symm⟩
      · exact ⟨readBoundedRegular_eq_ok hdaemon, readBoundedRegular_eq_ok hcli, readBoundedRegular_eq_ok hdeploymentChecker,
          readBoundedRegular_eq_ok hinstaller, readBoundedRegular_eq_ok hhostChecker, readBoundedRegular_eq_ok hebpf,
          readBoundedRegular_eq_ok hserviceUnit, readBoundedRegular_eq_ok hauthorizationExample⟩
      · rw [List.length_append, List.length_singleton] at hsmall
        omega

end Inputs

/-! ### What is written -/

/-- A file of a bundle. -/
structure Entry where
  name : String
  stat : Stat
  data : Bytes

/-- A directory with these files and no others: each has the mode of its name and one link, on
an inode of its own. -/
structure Laid (output : Path) (entries : List Entry) (t : Disk) : Prop where
  directory : ∃ stat, t.get output = some (.directory stat)
  files : ∀ e ∈ entries, t.get (output ++ [e.name]) = some (.file e.stat e.data)
  free : ∀ name, name ∉ entries.map Entry.name → t.get (output ++ [name]) = none
  modes : ∀ e ∈ entries, e.stat.mode = payloadMode e.name
  links : ∀ e ∈ entries, e.stat.hardLinks = 1
  apart : (entries.map fun e => (e.stat.device, e.stat.inode)).Nodup

variable {host : Host} {F : Formats} {inputs : BundleInputs} {output : Path} {t t' : Disk} {files : List (String × Bytes)}
  {entries : List Entry} {name : String} {bytes : Bytes}

theorem metadata_eq_ok {path : Path} {error : BundleError} {metadata : Metadata} :
    host.metadata path error t = (.ok metadata, t') ↔
      host.failure .metadata path = none ∧ t.symlinkMetadata path = some metadata ∧ t' = t := by
  rw [Host.metadata, Effect.ask_eq_ok]
  cases host.failure .metadata path with
  | some failure => simp
  | none =>
    cases t.symlinkMetadata path with
    | none => simp
    | some found => simp

theorem check_eq_ok {error : BundleError} {condition : Prop} [Decidable condition] {u : Unit} :
    (Effect.ask (fun _ => if condition then .ok () else .error error) : Effect Disk BundleError Unit) t = (.ok u, t') ↔
      condition ∧ t' = t := by
  rw [Effect.ask_eq_ok]
  refine and_congr_left fun _ => ?_
  split
  case isTrue h => exact ⟨fun _ => h, fun _ => rfl⟩
  case isFalse h => exact ⟨fun hok => (by cases hok), fun hc => absurd hc h⟩

/-- What stands at a free path when a payload was written there. -/
theorem writePayload_get {path : Path} {mode : Nat} {u : Unit} (hfree : t.get path = none)
    (h : writePayload host path bytes mode t = (.ok u, t')) :
    ∃ stat, t'.get = Function.update t.get path (some (.file stat bytes)) ∧ stat.mode = mode ∧ stat.hardLinks = 1 ∧
      stat.device = (host.created t path).device ∧ stat.inode = (host.created t path).inode := by
  rw [writePayload] at h
  obtain ⟨_, written, hwrite, h⟩ := Effect.bind_eq_ok.mp h
  obtain ⟨_, moded, hmode, h⟩ := Effect.bind_eq_ok.mp h
  obtain ⟨metadata, seen, hmetadata, hcheck⟩ := Effect.bind_eq_ok.mp h
  obtain ⟨-, -, rfl⟩ := metadata_eq_ok.mp hmetadata
  obtain ⟨-, rfl⟩ := check_eq_ok.mp hcheck
  have hwritten := Host.write_get hfree hwrite
  have hnode : written.get path = some (.file (host.created t path) bytes) := by rw [hwritten, Function.update_self]
  have hget := Host.setMode_get hnode hmode
  rw [hwritten, Function.update_idem] at hget
  exact ⟨_, hget, rfl, host.created_links t path, rfl, rfl⟩

/-- One file more. -/
theorem Laid.write {u : Unit} (h : Laid output entries t) (hname : name ∉ entries.map Entry.name)
    (hwrite : writePayload host (output ++ [name]) bytes (payloadMode name) t = (.ok u, t')) :
    ∃ stat, Laid output (entries ++ [⟨name, stat, bytes⟩]) t' := by
  obtain ⟨stat, hget, hmode, hlinks, hdevice, hinode⟩ := writePayload_get (h.free name hname) hwrite
  have hother : ∀ e ∈ entries, output ++ [e.name] ≠ output ++ [name] := by
    intro e he heq
    rw [List.append_cancel_left_eq, List.singleton_inj] at heq
    exact hname (heq ▸ List.mem_map_of_mem he)
  refine ⟨stat, ⟨?_, ?_, ?_, ?_, ?_, ?_⟩⟩
  · obtain ⟨kept, hkept⟩ := h.directory
    exact ⟨kept, by rw [hget, Function.update_of_ne (by simp), hkept]⟩
  · intro e he
    rcases List.mem_append.mp he with he | he
    · rw [hget, Function.update_of_ne (hother e he), h.files e he]
    · rw [List.mem_singleton.mp he, hget, Function.update_self]
  · intro other hother
    rw [List.map_append, List.mem_append, not_or] at hother
    have hne : output ++ [other] ≠ output ++ [name] := by
      intro heq
      rw [List.append_cancel_left_eq, List.singleton_inj] at heq
      exact hother.2 (List.mem_singleton.mpr heq)
    rw [hget, Function.update_of_ne hne, h.free other hother.1]
  · intro e he
    rcases List.mem_append.mp he with he | he
    · exact h.modes e he
    · rw [List.mem_singleton.mp he, hmode]
  · intro e he
    rcases List.mem_append.mp he with he | he
    · exact h.links e he
    · rw [List.mem_singleton.mp he, hlinks]
  · -- the kernel gives the new file a number that no file has
    rw [List.map_append, List.nodup_append]
    refine ⟨h.apart, List.nodup_singleton _, ?_⟩
    intro pair hpair new hnew heq
    obtain ⟨e, he, rfl⟩ := List.mem_map.mp hpair
    rw [List.map_singleton, List.mem_singleton] at hnew
    rw [hnew, Prod.mk.injEq, hdevice, hinode] at heq
    exact host.created_apart t (output ++ [name]) _ _ (h.files e he) heq.1 heq.2

/-- All the files. -/
theorem Laid.writePayloads {u : Unit} (h : Laid output entries t) (hnodup : (entries.map Entry.name ++ files.map Prod.fst).Nodup)
    (hwrite : writePayloads host output files t = (.ok u, t')) :
    ∃ written, (written.map fun e => (e.name, e.data)) = files ∧ Laid output (entries ++ written) t' := by
  induction files generalizing entries t with
  | nil =>
    cases hwrite
    exact ⟨[], rfl, by rwa [List.append_nil]⟩
  | cons file rest ih =>
    obtain ⟨filename, data⟩ := file
    rw [Bundle.writePayloads] at hwrite
    obtain ⟨_, between, hfirst, hrest⟩ := Effect.bind_eq_ok.mp hwrite
    have hname : filename ∉ entries.map Entry.name := fun hin =>
      (List.nodup_append.mp hnodup).2.2 _ hin _ (List.mem_cons_self ..) rfl
    obtain ⟨stat, hlaid⟩ := h.write hname hfirst
    obtain ⟨written, hwritten, hlaid'⟩ := ih hlaid (by simpa using hnodup) hrest
    refine ⟨⟨filename, stat, data⟩ :: written, by rw [List.map_cons, hwritten], ?_⟩
    rwa [List.append_assoc] at hlaid'

/-- The order of the files does not matter. -/
theorem Laid.perm {entries' : List Entry} (h : Laid output entries t) (hperm : entries.Perm entries') : Laid output entries' t where
  directory := h.directory
  files e he := h.files e (hperm.mem_iff.mpr he)
  free name hname := h.free name fun hin => hname ((hperm.map _).mem_iff.mp hin)
  modes e he := h.modes e (hperm.mem_iff.mpr he)
  links e he := h.links e (hperm.mem_iff.mpr he)
  apart := (hperm.map _).nodup_iff.mp h.apart

theorem validateOutputFiles_eq_ok {names : List String} {u : Unit} (h : validateOutputFiles host output names t = (.ok u, t')) :
    t' = t := by
  induction names with
  | nil =>
    cases h
    rfl
  | cons name rest ih =>
    rw [validateOutputFiles] at h
    obtain ⟨metadata, _, hmetadata, hchecks⟩ := Effect.bind_eq_ok.mp h
    obtain ⟨-, -, rfl⟩ := metadata_eq_ok.mp hmetadata
    obtain ⟨_, -, hrest⟩ := Effect.bind_ask_eq_ok.mp hchecks
    exact ih hrest

theorem validateOutputInventory_eq_ok {u : Unit} (h : validateOutputInventory host output t = (.ok u, t')) :
    t.readDir output = some outputFiles ∧ t' = t := by
  rw [validateOutputInventory] at h
  obtain ⟨names, _, hread, hchecks⟩ := Effect.bind_eq_ok.mp h
  obtain ⟨hread, rfl⟩ := Effect.ask_eq_ok.mp hread
  obtain ⟨_, _, hcheck, hfiles⟩ := Effect.bind_eq_ok.mp hchecks
  obtain ⟨rfl, rfl⟩ := check_eq_ok.mp hcheck
  refine ⟨?_, validateOutputFiles_eq_ok hfiles⟩
  split at hread
  case h_1 names _ hnames =>
    rw [hnames, Except.ok.inj hread]
  case h_2 => cases hread

/-- A bundle in its directory: the payload files and their checksums. -/
structure Built (F : Formats) (output : Path) (files : List (String × Bytes)) (rendered : String) (entries : List Entry) (t : Disk) :
    Prop where
  sums : renderSha256sums (files.map fun file => (file.1, F.sha256Hex file.2)) = .ok rendered
  names : files.map Prod.fst = checksumPayloads
  contents : (entries.map fun e => (e.name, e.data)) = ("SHA256SUMS", utf8 rendered) :: files
  laid : Laid output entries t
  inventory : t.readDir output = some outputFiles

/-- **What a making leaves that went well.** -/
theorem createBundle_built {u : Unit} (h : createBundle host F inputs t = (.ok u, t')) :
    ∃ files rendered entries, payloads host F inputs = .ok files ∧ Built F inputs.outputDir files rendered entries t' := by
  rw [createBundle] at h
  obtain ⟨_, -, h⟩ := Effect.bind_ask_eq_ok.mp h
  obtain ⟨_, -, h⟩ := Effect.bind_ask_eq_ok.mp h
  obtain ⟨files, hfiles, h⟩ := Effect.bind_ask_eq_ok.mp h
  obtain ⟨_, hnames, h⟩ := Effect.bind_ask_eq_ok.mp h
  obtain ⟨_, made, hmade, h⟩ := Effect.bind_eq_ok.mp h
  obtain ⟨_, written, hwritten, h⟩ := Effect.bind_eq_ok.mp h
  obtain ⟨rendered, hrendered, h⟩ := Effect.bind_ask_eq_ok.mp h
  obtain ⟨_, summed, hsummed, hinventory⟩ := Effect.bind_eq_ok.mp h
  have hnames : files.map Prod.fst = checksumPayloads := by
    by_contra hno
    rw [if_pos hno] at hnames
    cases hnames
  obtain ⟨hinventory, rfl⟩ := validateOutputInventory_eq_ok hinventory
  obtain ⟨hfree, hget⟩ := Host.createDir_get hmade
  -- nothing lies under a path that is free
  have hempty : Laid inputs.outputDir [] made := by
    refine ⟨⟨_, by rw [hget, Function.update_self]⟩, by simp, fun name _ => ?_, by simp, by simp, List.nodup_nil⟩
    rw [hget, Function.update_of_ne (by simp)]
    exact FileTree.get_under_none hfree (List.prefix_append ..)
  have hnodup : (files.map Prod.fst).Nodup := by
    rw [hnames]
    decide
  obtain ⟨entries, hentries, hlaid⟩ := hempty.writePayloads hnodup hwritten
  rw [List.nil_append] at hlaid
  have hsums : "SHA256SUMS" ∉ entries.map Entry.name := by
    have hmap : entries.map Entry.name = (entries.map fun e => (e.name, e.data)).map Prod.fst := by rw [List.map_map]; rfl
    rw [hmap, hentries, hnames]
    decide
  obtain ⟨stat, hlaid⟩ := hlaid.write hsums hsummed
  refine ⟨files, rendered, ⟨"SHA256SUMS", stat, utf8 rendered⟩ :: entries, hfiles, hrendered, hnames, ?_,
    hlaid.perm (List.perm_append_singleton ..), hinventory⟩
  rw [List.map_cons, hentries]

end NetworkLoop.Bundle
