import NetworkLoop.Bundle.Files
import NetworkLoop.Library.Text

/-! The checksums of a bundle (`render_sha256sums` of `bundle.rs`, `validate_checksums` and
`validate_installed_checksums` of `deployment_fs.rs`).

Both checks take a line apart at fixed byte offsets once its length is right, and a slice
that does not begin and end between two characters is a panic. `checkLines_eq_ok` and
`checkLines_panicked` say when the loop goes well and when it does not come back. -/
namespace NetworkLoop.Bundle
open Library

/-! ### Rendering -/

/-- The payload files in their order, `CHECKSUM_FILES` and `CHECKSUM_PAYLOADS`. -/
def checksumPayloads : List String :=
  ["deployment-v1.example.json", "l2-loop-deploycheck", "l2-loop-ebpf.o", "l2-loop-hostcheck", "l2-loop-install",
    "l2-loop.service", "l2-loopctl", "l2-loopd", "manifest.json"]

/-- `is_lower_hex` and `is_lower_hexadecimal`. -/
def isLowerHex (byte : UInt8) : Bool := (48 ≤ byte && byte ≤ 57) || (97 ≤ byte && byte ≤ 102)

def isChecksum (checksum : String) : Bool := (utf8 checksum).length == 64 && (utf8 checksum).all isLowerHex

/-- The body of the loop, for an entry of the map. -/
def renderLine (rendered : String) (entry : String × String) : Except BundleError String :=
  if isChecksum entry.2 then .ok (rendered ++ entry.2 ++ "  " ++ entry.1 ++ "\n") else .error (.invalidChecksum entry.1)

/-- The map is its entries in the order of the names. -/
def renderSha256sums (checksums : List (String × String)) : Except BundleError String :=
  if checksums.map Prod.fst = checksumPayloads then checksums.foldlM renderLine "" else .error .unexpectedChecksumFiles

/-! ### Checking -/

inductive CheckFailure where
  /-- `DeploymentIoError::Unavailable`. -/
  | unavailable
  /-- The check does not return. -/
  | panicked
  deriving DecidableEq, Repr

/-- `str::is_char_boundary`. -/
def isCharBoundary (s : Bytes) (index : Nat) : Bool :=
  index == 0 || index == s.length || s[index]?.any fun byte => byte < 128 || 192 ≤ byte

/-- `&s[start..stop]`. -/
def slice (s : Bytes) (start stop : Nat) : Except CheckFailure Bytes :=
  if start ≤ stop ∧ isCharBoundary s start ∧ isCharBoundary s stop then .ok ((s.take stop).drop start) else .error .panicked

/-- What both loops ask of a line before they look at its digest. -/
def checksumLine (line : Bytes) (expectedName : String) : Except CheckFailure Bytes :=
  if line.length ≠ 64 + 2 + (utf8 expectedName).length then .error .unavailable
  else do
    let gap ← slice line 64 66
    if gap ≠ utf8 "  " then .error .unavailable
    else
      let name ← slice line 66 line.length
      if name ≠ utf8 expectedName then .error .unavailable
      else
        let digest ← slice line 0 64
        if digest.all isLowerHex then .ok digest else .error .unavailable

/-- The line of a file whose digest is known, if the file is. -/
def checkedLine (digestOf : String → Option String) (line : Bytes) (expectedName : String) : Except CheckFailure String :=
  match checksumLine line expectedName with
  | .error e => .error e
  | .ok digest =>
    match digestOf expectedName with
    | none => .error .unavailable
    | some actual => if utf8 actual = digest then .ok actual else .error .unavailable

/-- The loop over the lines and the names they should have, with what it keeps of a digest. -/
def checkLines {σ : Type} (digestOf : String → Option String) (keep : σ → String → String → σ) :
    List (Bytes × String) → σ → Except CheckFailure σ
  | [], kept => .ok kept
  | (line, expectedName) :: rest, kept =>
    match checkedLine digestOf line expectedName with
    | .error e => .error e
    | .ok actual => checkLines digestOf keep rest (keep kept expectedName actual)

structure BundleFileIdentityV1 where
  sha256 : String
  size : Nat
  mode : Nat
  uid : Nat
  gid : Nat
  device : Nat
  inode : Nat
  hardLinks : Nat
  deriving DecidableEq, Repr

def sha256Of (files : List (String × BundleFileIdentityV1)) (name : String) : Option String := (files.lookup name).map (·.sha256)

/-- `validate_checksums`. -/
def validateChecksums (bytes : Bytes) (files : List (String × BundleFileIdentityV1)) : Except CheckFailure Unit :=
  if (Text.decode bytes).isNone then .error .unavailable
  else if bytes.getLast? ≠ some 10 ∨ 13 ∈ bytes then .error .unavailable
  else
    let lines := Text.lines 10 13 bytes
    if lines.length ≠ checksumPayloads.length then .error .unavailable
    else checkLines (sha256Of files) (fun _ _ _ => ()) (lines.zip checksumPayloads) ()

structure BundleFilesV1 where
  daemon : String
  cli : String
  deploymentChecker : String
  installer : String
  hostChecker : String
  ebpfObject : String
  serviceUnit : String
  authorizationExample : String
  deriving DecidableEq, Repr

def installedPayloadPath (filename : String) (files : BundleFilesV1) : Option String :=
  if filename = files.cli then some "usr/bin/l2-loopctl"
  else if filename = files.serviceUnit then some "usr/lib/systemd/system/l2-loop.service"
  else if filename = files.authorizationExample then some "usr/share/doc/l2-loop/deployment-v1.example.json"
  else if filename = "manifest.json" then some "usr/libexec/l2-loop/manifest.json"
  else if [files.daemon, files.deploymentChecker, files.installer, files.hostChecker, files.ebpfObject].contains filename then
    if filename = "l2-loopd" then some "usr/libexec/l2-loop/l2-loopd"
    else if filename = "l2-loop-deploycheck" then some "usr/libexec/l2-loop/l2-loop-deploycheck"
    else if filename = "l2-loop-install" then some "usr/libexec/l2-loop/l2-loop-install"
    else if filename = "l2-loop-hostcheck" then some "usr/libexec/l2-loop/l2-loop-hostcheck"
    else if filename = "l2-loop-ebpf.o" then some "usr/libexec/l2-loop/l2-loop-ebpf.o"
    else none
  else none

/-- The digest of an installed payload file; `inspect` is that of `inspect_regular_file` under the root. -/
def installedSha256 (files : BundleFilesV1) (inspect : String → Option String) (name : String) : Option String :=
  (installedPayloadPath name files).bind inspect

/-- The parsing in `validate_installed_checksums`, with the digests of the service unit and of the
authorization example. -/
def parseInstalledChecksums (bytes : Bytes) (files : BundleFilesV1) (inspect : String → Option String) :
    Except CheckFailure (Option String × Option String) :=
  if (Text.decode bytes).isNone then .error .unavailable
  else
    let lines := Text.lines 10 13 bytes
    if bytes.getLast? ≠ some 10 ∨ lines.length ≠ checksumPayloads.length then .error .unavailable
    else
      checkLines (installedSha256 files inspect) (fun kept name actual =>
        (if name = files.serviceUnit then some actual else kept.1,
          if name = files.authorizationExample then some actual else kept.2)) (lines.zip checksumPayloads) (none, none)

/-- `validate_installed_checksums`, for the manifest's digests of the service unit and of the
authorization example. -/
def validateInstalledChecksums (bytes : Bytes) (files : BundleFilesV1) (serviceUnitSha256 authorizationExampleSha256 : String)
    (inspect : String → Option String) : Except CheckFailure Unit :=
  match parseInstalledChecksums bytes files inspect with
  | .error e => .error e
  | .ok (serviceDigest, exampleDigest) =>
    if serviceDigest ≠ some serviceUnitSha256 ∨ exampleDigest ≠ some authorizationExampleSha256 then .error .unavailable
    else .ok ()

/-! ### The text -/

section Text
variable {entry : String × String} {checksums : List (String × String)}

/-- The line of a file. -/
def checksumBytes (entry : String × String) : Bytes := utf8 entry.2 ++ 32 :: 32 :: utf8 entry.1

theorem renderLines_eq_ok {acc text : String} (h : checksums.foldlM renderLine acc = .ok text) :
    (∀ entry ∈ checksums, isChecksum entry.2 = true) ∧ utf8 text = utf8 acc ++ Text.unlines 10 (checksums.map checksumBytes) := by
  induction checksums generalizing acc with
  | nil =>
    rw [← Except.ok.inj h]
    exact ⟨by simp, (List.append_nil _).symm⟩
  | cons entry rest ih =>
    rw [List.foldlM_cons, renderLine] at h
    split at h
    case isTrue hgood =>
      obtain ⟨hall, htext⟩ := ih h
      refine ⟨List.forall_mem_cons.mpr ⟨hgood, hall⟩, ?_⟩
      rw [htext, List.map_cons, Text.unlines_cons, checksumBytes]
      have hspaces : utf8 "  " = [32, 32] := by decide
      have hnewline : utf8 "\n" = [10] := by decide
      simp only [utf8_append, hspaces, hnewline, List.append_assoc, List.cons_append, List.nil_append]
    case isFalse => cases h

theorem exists_renderLines {acc : String} (h : ∀ entry ∈ checksums, isChecksum entry.2 = true) :
    ∃ text, checksums.foldlM renderLine acc = .ok text := by
  induction checksums generalizing acc with
  | nil => exact ⟨acc, rfl⟩
  | cons entry rest ih =>
    rw [List.foldlM_cons, renderLine, if_pos (h entry (List.mem_cons_self ..))]
    exact ih fun e he => h e (List.mem_cons_of_mem _ he)

/-- The bytes are those that `renderSha256sums` makes of these digests. -/
def Rendered (digestOf : String → Option String) (bytes : Bytes) : Prop :=
  ∃ checksums text, renderSha256sums checksums = .ok text ∧ (∀ entry ∈ checksums, digestOf entry.1 = some entry.2) ∧
    bytes = utf8 text

/-- The entries that a rendered text has. -/
structure Entries (digestOf : String → Option String) (checksums : List (String × String)) : Prop where
  names : checksums.map Prod.fst = checksumPayloads
  digests : ∀ entry ∈ checksums, digestOf entry.1 = some entry.2 ∧ isChecksum entry.2 = true

theorem rendered_iff {digestOf : String → Option String} {bytes : Bytes} : Rendered digestOf bytes ↔
    ∃ checksums, Entries digestOf checksums ∧ bytes = Text.unlines 10 (checksums.map checksumBytes) := by
  constructor
  · rintro ⟨checksums, text, hrender, hdigests, rfl⟩
    rw [renderSha256sums] at hrender
    split at hrender
    case isTrue hnames =>
      obtain ⟨hall, htext⟩ := renderLines_eq_ok hrender
      exact ⟨checksums, ⟨hnames, fun entry he => ⟨hdigests entry he, hall entry he⟩⟩, htext⟩
    case isFalse => cases hrender
  · rintro ⟨checksums, hentries, rfl⟩
    obtain ⟨text, htext⟩ := @exists_renderLines checksums "" fun entry he => (hentries.digests entry he).2
    refine ⟨checksums, text, ?_, fun entry he => (hentries.digests entry he).1, ?_⟩
    · rw [renderSha256sums, if_pos hentries.names, htext]
    · rw [(renderLines_eq_ok htext).2]
      rfl

end Text

/-! ### One line -/

section Line
variable {line : Bytes} {name : String} {digestOf : String → Option String}

/-- The length is right, and a character stands across one of the two offsets. -/
def Straddling (line : Bytes) (name : String) : Prop :=
  line.length = 66 + (utf8 name).length ∧ (isCharBoundary line 64 = false ∨ isCharBoundary line 66 = false)

theorem slice_ok {s : Bytes} {start stop : Nat} (hle : start ≤ stop) (hstart : isCharBoundary s start = true)
    (hstop : isCharBoundary s stop = true) : slice s start stop = .ok ((s.take stop).drop start) := by
  rw [slice, if_pos ⟨hle, hstart, hstop⟩]

theorem isCharBoundary_zero (s : Bytes) : isCharBoundary s 0 = true := rfl

theorem isCharBoundary_length (s : Bytes) : isCharBoundary s s.length = true := by simp [isCharBoundary]

/-- Where the first slice goes well, so do the others. -/
theorem checksumLine_bounded (hlength : line.length = 66 + (utf8 name).length) (hfirst : isCharBoundary line 64 = true)
    (hsecond : isCharBoundary line 66 = true) : checksumLine line name =
      if (line.take 66).drop 64 = utf8 "  " ∧ line.drop 66 = utf8 name ∧ (line.take 64).all isLowerHex = true then .ok (line.take 64)
      else .error .unavailable := by
  have hgap := slice_ok (show 64 ≤ 66 by decide) hfirst hsecond
  have hname := slice_ok (show 66 ≤ line.length by omega) hsecond (isCharBoundary_length line)
  have hdigest := slice_ok (Nat.zero_le 64) (isCharBoundary_zero line) hfirst
  rw [List.take_length] at hname
  rw [List.drop_zero] at hdigest
  rw [checksumLine, if_neg (by omega), hgap]
  simp only [bind, Except.bind, hname, hdigest]
  by_cases hspaces : (line.take 66).drop 64 = utf8 "  "
  · by_cases hrest : line.drop 66 = utf8 name
    · simp [hspaces, hrest]
    · simp [hspaces, hrest]
  · simp [hspaces]

theorem checksumLine_panicked : checksumLine line name = .error .panicked ↔ Straddling line name := by
  by_cases hlength : line.length = 66 + (utf8 name).length
  · by_cases hbounds : isCharBoundary line 64 = true ∧ isCharBoundary line 66 = true
    · rw [checksumLine_bounded hlength hbounds.1 hbounds.2, Straddling, hbounds.1, hbounds.2]
      split <;> simp
    · have hslice : slice line 64 66 = .error .panicked := by rw [slice, if_neg fun h => hbounds h.2]
      rw [checksumLine, if_neg (by omega), hslice]
      refine iff_of_true rfl ⟨hlength, ?_⟩
      rwa [not_and_or, Bool.not_eq_true, Bool.not_eq_true] at hbounds
  · rw [checksumLine, if_pos (by omega)]
    exact iff_of_false (fun hno => (by cases hno)) fun h => hlength h.1

/-- A name that begins with an ASCII. -/
theorem payload_first : ∀ name ∈ checksumPayloads, (utf8 name).head?.any (· < 128) = true := by decide

theorem checksumLine_eq_ok (hname : name ∈ checksumPayloads) {digest : Bytes} : checksumLine line name = .ok digest ↔
    digest.length = 64 ∧ digest.all isLowerHex = true ∧ line = digest ++ 32 :: 32 :: utf8 name := by
  have hspaces : utf8 "  " = [32, 32] := by decide
  constructor
  · intro h
    have hlength : line.length = 66 + (utf8 name).length := by
      by_contra hno
      rw [checksumLine, if_pos (by omega)] at h
      cases h
    have hbounds : isCharBoundary line 64 = true ∧ isCharBoundary line 66 = true := by
      by_contra hno
      rw [not_and_or, Bool.not_eq_true, Bool.not_eq_true] at hno
      rw [checksumLine_panicked.mpr ⟨hlength, hno⟩] at h
      cases h
    rw [checksumLine_bounded hlength hbounds.1 hbounds.2] at h
    split at h
    case isTrue hgood =>
      obtain ⟨hgap, hrest, hhex⟩ := hgood
      obtain rfl := Except.ok.inj h
      refine ⟨by rw [List.length_take]; omega, hhex, ?_⟩
      have htake : line.take 66 = line.take 64 ++ [32, 32] := by
        calc line.take 66
          _ = (line.take 66).take 64 ++ (line.take 66).drop 64 := (List.take_append_drop 64 _).symm
          _ = line.take 64 ++ [32, 32] := by rw [List.take_take, hgap, hspaces]; rfl
      rw [← hrest]
      calc line
        _ = line.take 66 ++ line.drop 66 := (List.take_append_drop 66 line).symm
        _ = line.take 64 ++ 32 :: 32 :: line.drop 66 := by rw [htake, List.append_assoc]; rfl
    case isFalse => cases h
  · rintro ⟨hlength, hhex, rfl⟩
    have hfirst : isCharBoundary (digest ++ 32 :: 32 :: utf8 name) 64 = true := by
      rw [isCharBoundary, List.getElem?_append_right (by omega), hlength]
      simp
    have hsecond : isCharBoundary (digest ++ 32 :: 32 :: utf8 name) 66 = true := by
      have hhead := payload_first name hname
      rw [isCharBoundary, List.getElem?_append_right (by omega), hlength]
      cases hutf : utf8 name with
      | nil =>
        rw [hutf] at hhead
        cases hhead
      | cons b rest =>
        rw [hutf] at hhead
        have hascii : b < 128 := by simpa using hhead
        simp [hascii]
    rw [checksumLine_bounded (by simp [hlength]; omega) hfirst hsecond, List.take_left' hlength, if_pos]
    refine ⟨?_, ?_, hhex⟩
    · rw [List.take_append, List.drop_append, List.take_of_length_le (by omega), List.drop_of_length_le (by omega), hspaces]
      simp only [hlength]
      rfl
    · rw [List.drop_append, List.drop_of_length_le (by omega)]
      simp only [hlength]
      rfl

/-- The line of a file with this digest. -/
structure RightLine (digestOf : String → Option String) (line : Bytes) (name actual : String) : Prop where
  digest : digestOf name = some actual
  checksum : isChecksum actual = true
  text : line = checksumBytes (name, actual)

theorem checkedLine_eq_ok (hname : name ∈ checksumPayloads) {actual : String} :
    checkedLine digestOf line name = .ok actual ↔ RightLine digestOf line name actual := by
  constructor
  · intro h
    rw [checkedLine] at h
    split at h
    case h_1 => cases h
    case h_2 digest hline =>
      obtain ⟨hlength, hhex, htext⟩ := (checksumLine_eq_ok hname).mp hline
      split at h
      case h_1 => cases h
      case h_2 found hfound =>
        split at h
        case isTrue hsame =>
          cases h
          exact ⟨hfound, by rw [isChecksum, hsame, hlength, hhex]; rfl, by rw [htext, checksumBytes, hsame]⟩
        case isFalse => cases h
  · rintro ⟨hdigest, hchecksum, rfl⟩
    rw [isChecksum, Bool.and_eq_true, beq_iff_eq] at hchecksum
    have hline : checksumLine (checksumBytes (name, actual)) name = .ok (utf8 actual) :=
      (checksumLine_eq_ok hname).mpr ⟨hchecksum.1, hchecksum.2, rfl⟩
    rw [checkedLine, hline, hdigest]
    exact if_pos rfl

theorem checkedLine_panicked : checkedLine digestOf line name = .error .panicked ↔ Straddling line name := by
  rw [← checksumLine_panicked, checkedLine]
  cases checksumLine line name with
  | error e => simp
  | ok digest =>
    dsimp only
    split
    · simp
    · split <;> simp

end Line

/-! ### The loop -/

section Loop
variable {σ : Type} {digestOf : String → Option String} {keep : σ → String → String → σ} {pairs : List (Bytes × String)} {kept : σ}

/-- Behind right lines only, one has a character across an offset. -/
inductive Straddles (digestOf : String → Option String) : List (Bytes × String) → Prop
  | here {line : Bytes} {name : String} {rest : List (Bytes × String)} (across : Straddling line name) :
    Straddles digestOf ((line, name) :: rest)
  | there {line : Bytes} {name : String} {rest : List (Bytes × String)} (actual : String)
    (right : RightLine digestOf line name actual) (later : Straddles digestOf rest) : Straddles digestOf ((line, name) :: rest)

theorem checkLines_panicked (hnames : ∀ p ∈ pairs, p.2 ∈ checksumPayloads) :
    checkLines digestOf keep pairs kept = .error .panicked ↔ Straddles digestOf pairs := by
  induction pairs generalizing kept with
  | nil =>
    constructor
    · intro h
      cases h
    · intro h
      cases h
  | cons p rest ih =>
    obtain ⟨line, name⟩ := p
    rw [List.forall_mem_cons] at hnames
    rw [checkLines]
    cases hline : checkedLine digestOf line name with
    | error e =>
      constructor
      · intro h
        rw [Except.error.inj h] at hline
        exact .here (checkedLine_panicked.mp hline)
      · intro h
        cases h with
        | here across =>
          rw [checkedLine_panicked.mpr across] at hline
          rw [← Except.error.inj hline]
        | there actual right later =>
          rw [(checkedLine_eq_ok hnames.1).mpr right] at hline
          cases hline
    | ok actual =>
      dsimp only
      rw [ih hnames.2]
      constructor
      · exact .there actual ((checkedLine_eq_ok hnames.1).mp hline)
      · intro h
        cases h with
        | here across =>
          rw [checkedLine_panicked.mpr across] at hline
          cases hline
        | there other right later => exact later

theorem checkLines_eq_ok (hnames : ∀ p ∈ pairs, p.2 ∈ checksumPayloads) :
    (∃ k, checkLines digestOf keep pairs kept = .ok k) ↔ ∀ p ∈ pairs, ∃ actual, RightLine digestOf p.1 p.2 actual := by
  induction pairs generalizing kept with
  | nil => exact iff_of_true ⟨kept, rfl⟩ (by simp)
  | cons p rest ih =>
    obtain ⟨line, name⟩ := p
    rw [List.forall_mem_cons] at hnames ⊢
    rw [checkLines, ← @ih (keep kept name ((checkedLine digestOf line name).toOption.getD "")) hnames.2]
    cases hline : checkedLine digestOf line name with
    | error e =>
      refine iff_of_false (fun ⟨k, hno⟩ => (by cases hno)) ?_
      rintro ⟨⟨actual, right⟩, -⟩
      rw [(checkedLine_eq_ok hnames.1).mpr right] at hline
      cases hline
    | ok actual =>
      exact ⟨fun h => ⟨⟨actual, (checkedLine_eq_ok hnames.1).mp hline⟩, h⟩, fun h => h.2⟩

/-- Lines that are right for their names are those of a table of digests. -/
theorem exists_entries {names : List String} {lines : List Bytes} (hlength : lines.length = names.length) :
    (∀ p ∈ lines.zip names, ∃ actual, RightLine digestOf p.1 p.2 actual) ↔
      ∃ checksums : List (String × String), checksums.map Prod.fst = names ∧
        (∀ entry ∈ checksums, digestOf entry.1 = some entry.2 ∧ isChecksum entry.2 = true) ∧ lines = checksums.map checksumBytes := by
  induction names generalizing lines with
  | nil =>
    obtain rfl := List.length_eq_zero_iff.mp hlength
    exact iff_of_true (by simp) ⟨[], rfl, by simp, rfl⟩
  | cons name names ih =>
    cases lines with
    | nil => cases hlength
    | cons line lines =>
      rw [List.zip_cons_cons, List.forall_mem_cons, ih (Nat.succ.inj hlength)]
      constructor
      · rintro ⟨⟨actual, hdigest, hchecksum, htext⟩, checksums, rfl, hall, rfl⟩
        exact ⟨(name, actual) :: checksums, rfl, List.forall_mem_cons.mpr ⟨⟨hdigest, hchecksum⟩, hall⟩,
          congrArg (· :: checksums.map checksumBytes) htext⟩
      · rintro ⟨checksums, hnames, hall, hlines⟩
        cases checksums with
        | nil => cases hnames
        | cons entry checksums =>
          obtain ⟨rfl, rfl⟩ := List.cons.inj hnames
          obtain ⟨rfl, rfl⟩ := List.cons.inj hlines
          rw [List.forall_mem_cons] at hall
          exact ⟨⟨entry.2, hall.1.1, hall.1.2, rfl⟩, checksums, rfl, hall.2, rfl⟩

end Loop

/-! ### The whole file -/

section Whole
variable {bytes : Bytes} {digestOf : String → Option String} {checksums : List (String × String)} {texts : List Bytes}

theorem plain_payloads : ∀ name ∈ checksumPayloads, (utf8 name).all (fun b => b != 10 && b != 13) = true := by decide

/-- No line of digests has an end of a line inside. -/
theorem Entries.plain (h : Entries digestOf checksums) :
    ∀ line ∈ checksums.map checksumBytes, 10 ∉ line ∧ 13 ∉ line := by
  intro line hline
  obtain ⟨entry, hentry, rfl⟩ := List.mem_map.mp hline
  have hname : entry.1 ∈ checksumPayloads := by
    rw [← h.names]
    exact List.mem_map_of_mem hentry
  have hdigest := (h.digests entry hentry).2
  rw [isChecksum, Bool.and_eq_true] at hdigest
  have hplain : ∀ b : UInt8, b ∈ checksumBytes entry → b ≠ 10 ∧ b ≠ 13 := by
    intro b hb
    simp only [checksumBytes, List.mem_append, List.mem_cons] at hb
    rcases hb with hb | rfl | rfl | hb
    · have hhex := List.all_eq_true.mp hdigest.2 b hb
      constructor
      · rintro rfl
        cases hhex
      · rintro rfl
        cases hhex
    · decide
    · decide
    · simpa using List.all_eq_true.mp (plain_payloads entry.1 hname) b hb
  exact ⟨fun hin => (hplain 10 hin).1 rfl, fun hin => (hplain 13 hin).2 rfl⟩

theorem Entries.length (h : Entries digestOf checksums) : (checksums.map checksumBytes).length = checksumPayloads.length := by
  rw [← h.names, List.length_map, List.length_map]

theorem isSome_utf8 (text : String) : (Text.decode (utf8 text)).isSome = true := Text.isSome_decode.mpr ⟨text.toList, rfl⟩

theorem isSome_checksumBytes (entry : String × String) : (Text.decode (checksumBytes entry)).isSome = true := by
  have hspaces : (Text.decode [32, 32]).isSome = true := Text.isSome_decode.mpr ⟨[' ', ' '], rfl⟩
  have htail := Text.isSome_decode_append hspaces (isSome_utf8 entry.1)
  rw [List.cons_append, List.cons_append, List.nil_append] at htail
  rw [checksumBytes]
  exact Text.isSome_decode_append (isSome_utf8 entry.2) htail

theorem payload_of_zip {lines : List Bytes} : ∀ p ∈ lines.zip checksumPayloads, p.2 ∈ checksumPayloads := by
  rintro ⟨line, name⟩ hp
  exact (List.of_mem_zip hp).2

/-- The lines of a file that goes as far as the loop. -/
structure Looped (bytes : Bytes) : Prop where
  valid : (Text.decode bytes).isSome = true
  ended : bytes.getLast? = some 10
  count : (Text.lines 10 13 bytes).length = checksumPayloads.length

instance : Decidable (Looped bytes) :=
  decidable_of_iff ((Text.decode bytes).isSome = true ∧ bytes.getLast? = some 10 ∧
    (Text.lines 10 13 bytes).length = checksumPayloads.length)
    ⟨fun h => ⟨h.1, h.2.1, h.2.2⟩, fun h => ⟨h.valid, h.ended, h.count⟩⟩

/-- The loop comes to a line with a character across an offset. -/
def Across (digestOf : String → Option String) (bytes : Bytes) : Prop :=
  Looped bytes ∧ Straddles digestOf ((Text.lines 10 13 bytes).zip checksumPayloads)

/-- Right lines, each with a carriage return before its newline or without. -/
structure Written (digestOf : String → Option String) (checksums : List (String × String)) (texts : List Bytes) (bytes : Bytes) :
    Prop where
  entries : Entries digestOf checksums
  ends : List.Forall₂ (Text.Ended 13) (checksums.map checksumBytes) texts
  bytes : bytes = Text.unlines 10 texts

theorem Written.text (h : Written digestOf checksums texts bytes) {text : Bytes} (htext : text ∈ texts) :
    10 ∉ text ∧ (Text.decode text).isSome = true := by
  obtain ⟨line, hline, hended⟩ := Text.exists_ended h.ends htext
  have hplain := (h.entries.plain line hline).1
  obtain ⟨entry, -, rfl⟩ := List.mem_map.mp hline
  rcases hended with rfl | rfl
  · exact ⟨hplain, isSome_checksumBytes entry⟩
  · refine ⟨?_, Text.isSome_decode_append (isSome_checksumBytes entry) (Text.isSome_decode.mpr ⟨['\r'], rfl⟩)⟩
    rw [List.mem_append, not_or]
    exact ⟨hplain, by decide⟩

theorem Written.lines (h : Written digestOf checksums texts bytes) : Text.lines 10 13 bytes = checksums.map checksumBytes := by
  rw [h.bytes, Text.lines_unlines fun text htext => (h.text htext).1]
  exact (Text.map_stripSuffix_eq fun line hline => (h.entries.plain line hline).2).mpr h.ends

theorem getLast?_unlines {lines : List Bytes} (h : lines ≠ []) : (Text.unlines 10 lines).getLast? = some 10 := by
  obtain ⟨front, line, rfl⟩ := List.eq_nil_or_concat lines |>.resolve_left h
  rw [Text.unlines, List.concat_eq_append, List.flatMap_append, List.flatMap_singleton, ← List.append_assoc]
  exact List.getLast?_concat

/-- The loop of both checks goes well where the lines are right. -/
theorem loop_ok {σ : Type} {keep : σ → String → String → σ} {kept : σ} :
    (Looped bytes ∧ ∃ k, checkLines digestOf keep ((Text.lines 10 13 bytes).zip checksumPayloads) kept = .ok k) ↔
      ∃ checksums texts, Written digestOf checksums texts bytes := by
  constructor
  · rintro ⟨⟨-, hended, hcount⟩, hloop⟩
    obtain ⟨texts, htexts, rfl⟩ := Text.exists_unlines hended
    obtain ⟨checksums, hnames, hdigests, hlines⟩ := (exists_entries hcount).mp ((checkLines_eq_ok payload_of_zip).mp hloop)
    have hentries : Entries digestOf checksums := ⟨hnames, hdigests⟩
    rw [Text.lines_unlines htexts] at hlines
    exact ⟨checksums, texts, hentries, (Text.map_stripSuffix_eq fun line hline => (hentries.plain line hline).2).mp hlines, rfl⟩
  · rintro ⟨checksums, texts, h⟩
    have hcount : (Text.lines 10 13 bytes).length = checksumPayloads.length := by rw [h.lines, h.entries.length]
    have hsome : texts ≠ [] := by
      rintro rfl
      have hlength := h.ends.length_eq
      rw [h.entries.length] at hlength
      cases hlength
    refine ⟨⟨?_, ?_, hcount⟩, (checkLines_eq_ok payload_of_zip).mpr ?_⟩
    · rw [h.bytes]
      exact Text.isSome_decode_unlines fun text htext => (h.text htext).2
    · rw [h.bytes]
      exact getLast?_unlines hsome
    · rw [h.lines]
      exact (exists_entries h.entries.length).mpr ⟨checksums, h.entries.names, h.entries.digests, rfl⟩

/-- A file that is written without carriage returns is a rendered one. -/
theorem rendered_iff_written : Rendered digestOf bytes ↔ (∃ checksums texts, Written digestOf checksums texts bytes) ∧ 13 ∉ bytes := by
  rw [rendered_iff]
  constructor
  · rintro ⟨checksums, hentries, rfl⟩
    refine ⟨⟨checksums, _, hentries, List.forall₂_same.mpr fun line _ => .inl rfl, rfl⟩, ?_⟩
    intro hin
    obtain ⟨line, hline, hin⟩ := List.mem_flatMap.mp hin
    rcases List.mem_append.mp hin with hin | hin
    · exact (hentries.plain line hline).2 hin
    · cases List.mem_singleton.mp hin
  · rintro ⟨⟨checksums, texts, h⟩, hcarriage⟩
    refine ⟨checksums, h.entries, ?_⟩
    rw [h.bytes, ← h.lines, h.bytes, Text.lines_unlines_of_not_mem fun text htext => (h.text htext).1]
    intro text htext hin
    rw [h.bytes] at hcarriage
    exact hcarriage (Text.mem_unlines_of_mem htext hin)

/-! ### The two checks -/

variable {files : List (String × BundleFileIdentityV1)} {names : BundleFilesV1} {inspect : String → Option String}

/-- Where the tests before it pass, the check is its loop. -/
theorem validateChecksums_eq : validateChecksums bytes files =
    if Looped bytes ∧ 13 ∉ bytes then
      checkLines (sha256Of files) (fun _ _ _ => ()) ((Text.lines 10 13 bytes).zip checksumPayloads) ()
    else .error .unavailable := by
  rw [validateChecksums]
  cases hdecode : Text.decode bytes with
  | none =>
    rw [if_pos Option.isNone_none, if_neg]
    rintro ⟨⟨hvalid, -, -⟩, -⟩
    rw [hdecode] at hvalid
    cases hvalid
  | some input =>
    rw [if_neg (by simp)]
    by_cases hended : bytes.getLast? ≠ some 10 ∨ 13 ∈ bytes
    · rw [if_pos hended, if_neg]
      rintro ⟨hlooped, hcarriage⟩
      exact hended.elim (fun hno => hno hlooped.ended) hcarriage
    · rw [if_neg hended]
      rw [not_or, not_not] at hended
      dsimp only
      by_cases hcount : (Text.lines 10 13 bytes).length = checksumPayloads.length
      · rw [if_neg (not_not.mpr hcount), if_pos ⟨⟨by rw [hdecode]; rfl, hended.1, hcount⟩, hended.2⟩]
      · rw [if_pos hcount, if_neg fun hno => hcount hno.1.count]

theorem parseInstalledChecksums_eq : parseInstalledChecksums bytes names inspect =
    if Looped bytes then
      checkLines (installedSha256 names inspect) (fun kept name actual =>
        (if name = names.serviceUnit then some actual else kept.1,
          if name = names.authorizationExample then some actual else kept.2))
        ((Text.lines 10 13 bytes).zip checksumPayloads) (none, none)
    else .error .unavailable := by
  rw [parseInstalledChecksums]
  cases hdecode : Text.decode bytes with
  | none =>
    rw [if_pos Option.isNone_none, if_neg]
    rintro ⟨hvalid, -, -⟩
    rw [hdecode] at hvalid
    cases hvalid
  | some input =>
    rw [if_neg (by simp)]
    dsimp only
    by_cases hended : bytes.getLast? ≠ some 10 ∨ (Text.lines 10 13 bytes).length ≠ checksumPayloads.length
    · rw [if_pos hended, if_neg]
      intro hlooped
      exact hended.elim (fun hno => hno hlooped.ended) fun hno => hno hlooped.count
    · rw [if_neg hended]
      rw [not_or, not_not, not_not] at hended
      rw [if_pos ⟨by rw [hdecode]; rfl, hended.1, hended.2⟩]

theorem validateChecksums_panicked :
    validateChecksums bytes files = .error .panicked ↔ 13 ∉ bytes ∧ Across (sha256Of files) bytes := by
  rw [validateChecksums_eq]
  split
  case isTrue h =>
    rw [checkLines_panicked payload_of_zip]
    exact ⟨fun hacross => ⟨h.2, h.1, hacross⟩, fun hacross => hacross.2.2⟩
  case isFalse h => exact iff_of_false (fun hno => (by cases hno)) fun hno => h ⟨hno.2.1, hno.1⟩

/-- **The check of a bundle accepts what was rendered.** -/
theorem validateChecksums_ok : (∃ u, validateChecksums bytes files = .ok u) ↔ Rendered (sha256Of files) bytes := by
  rw [rendered_iff_written, validateChecksums_eq]
  split
  case isTrue h =>
    constructor
    · exact fun hloop => ⟨loop_ok.mp ⟨h.1, hloop⟩, h.2⟩
    · exact fun hwritten => (loop_ok.mpr hwritten.1).2
  case isFalse h =>
    exact iff_of_false (fun ⟨_, hno⟩ => (by cases hno)) fun hwritten =>
      h ⟨(@loop_ok _ _ _ (fun _ _ _ => ()) ()).mpr hwritten.1 |>.1, hwritten.2⟩

theorem parseInstalledChecksums_panicked :
    parseInstalledChecksums bytes names inspect = .error .panicked ↔ Across (installedSha256 names inspect) bytes := by
  rw [parseInstalledChecksums_eq]
  split
  case isTrue h =>
    rw [checkLines_panicked payload_of_zip]
    exact ⟨fun hacross => ⟨h, hacross⟩, fun hacross => hacross.2⟩
  case isFalse h => exact iff_of_false (fun hno => (by cases hno)) fun hno => h hno.1

/-- **The check of an installed bundle accepts carriage returns too.** -/
theorem parseInstalledChecksums_ok : (∃ digests, parseInstalledChecksums bytes names inspect = .ok digests) ↔
    ∃ checksums texts, Written (installedSha256 names inspect) checksums texts bytes := by
  rw [parseInstalledChecksums_eq]
  split
  case isTrue h =>
    constructor
    · exact fun hloop => loop_ok.mp ⟨h, hloop⟩
    · exact fun hwritten => (loop_ok.mpr hwritten).2
  case isFalse h =>
    exact iff_of_false (fun ⟨_, hno⟩ => (by cases hno)) fun hwritten =>
      h ((@loop_ok _ _ _ (fun _ _ _ => ()) ()).mpr hwritten |>.1)

end Whole

/-- The check returns, and accepts no other bytes than these. -/
def SafeAndExact {α : Type} (result : Except CheckFailure α) (expected : Prop) : Prop :=
  result ≠ .error .panicked ∧ ((∃ a, result = .ok a) ↔ expected)

/-- The lines are right, and some end in a carriage return and a newline. -/
def CarriageReturns (digestOf : String → Option String) (bytes : Bytes) : Prop :=
  13 ∈ bytes ∧ ∃ checksums texts, Written digestOf checksums texts bytes

/-- **When the two checks are safe and exact.** -/
theorem checksums_safe_exact_iff (bytes : Bytes) (files : List (String × BundleFileIdentityV1)) (names : BundleFilesV1)
    (inspect : String → Option String) :
    (SafeAndExact (validateChecksums bytes files) (Rendered (sha256Of files) bytes) ↔
      ¬(13 ∉ bytes ∧ Across (sha256Of files) bytes)) ∧
    (SafeAndExact (parseInstalledChecksums bytes names inspect) (Rendered (installedSha256 names inspect) bytes) ↔
      ¬Across (installedSha256 names inspect) bytes ∧ ¬CarriageReturns (installedSha256 names inspect) bytes) := by
  constructor
  · rw [SafeAndExact, ne_eq, validateChecksums_panicked, and_iff_left validateChecksums_ok]
  · rw [SafeAndExact, ne_eq, parseInstalledChecksums_panicked, parseInstalledChecksums_ok, rendered_iff_written, CarriageReturns,
      not_and]
    refine and_congr_right fun _ => ?_
    constructor
    · exact fun hexact hcarriage hwritten => (hexact.mp hwritten).2 hcarriage
    · exact fun hfree => ⟨fun hwritten => ⟨hwritten, fun hcarriage => hfree hcarriage hwritten⟩, fun hrendered => hrendered.1⟩

/-- A line of the first file's length, with a character across byte 64. -/
def straddlingLine : Bytes := List.replicate 63 97 ++ [0xc3, 0xa9] ++ List.replicate 27 97

def straddlingBytes : Bytes := Text.unlines 10 (straddlingLine :: List.replicate 8 [120])

/-- The names of a manifest. -/
def bundleFiles : BundleFilesV1 :=
  ⟨"l2-loopd", "l2-loopctl", "l2-loop-deploycheck", "l2-loop-install", "l2-loop-hostcheck", "l2-loop-ebpf.o", "l2-loop.service",
    "deployment-v1.example.json"⟩

def sampleDigest : String := String.ofList (List.replicate 64 'a')

def sampleChecksums : List (String × String) := checksumPayloads.map fun name => (name, sampleDigest)

/-- The right lines, each with a carriage return. -/
def carriageBytes : Bytes := Text.unlines 10 ((sampleChecksums.map checksumBytes).map (· ++ [13]))

theorem isChecksum_sampleDigest : isChecksum sampleDigest = true := by decide +kernel

theorem installedSha256_sample : ∀ name ∈ checksumPayloads,
    installedSha256 bundleFiles (fun _ => some sampleDigest) name = some sampleDigest := by
  decide

theorem sample_entries : Entries (installedSha256 bundleFiles fun _ => some sampleDigest) sampleChecksums where
  names := by decide
  digests := by
    intro entry hentry
    obtain ⟨name, hname, rfl⟩ := List.mem_map.mp hentry
    exact ⟨installedSha256_sample name hname, isChecksum_sampleDigest⟩

theorem straddling_across (digestOf : String → Option String) : Across digestOf straddlingBytes := by
  have hlines : Text.lines 10 13 straddlingBytes = straddlingLine :: List.replicate 8 [120] := by decide +kernel
  refine ⟨⟨?_, by decide +kernel, by rw [hlines]; rfl⟩, ?_⟩
  · apply Text.isSome_decode_unlines
    intro line hline
    rcases List.mem_cons.mp hline with rfl | hline
    · exact Text.isSome_decode.mpr ⟨List.replicate 63 'a' ++ 'é' :: List.replicate 27 'a', by decide +kernel⟩
    · rw [List.eq_of_mem_replicate hline]
      exact Text.isSome_decode.mpr ⟨['x'], rfl⟩
  · rw [hlines]
    exact .here ⟨by decide, .inl (by decide)⟩

/-- Both checks panic on one file, and the second one accepts another that no bundle has. -/
theorem checksums_not_safe_exact :
    (∀ files, validateChecksums straddlingBytes files = .error .panicked) ∧
    (∀ names inspect, parseInstalledChecksums straddlingBytes names inspect = .error .panicked) ∧
    (∃ digests, parseInstalledChecksums carriageBytes bundleFiles (fun _ => some sampleDigest) = .ok digests) ∧
    ¬Rendered (installedSha256 bundleFiles fun _ => some sampleDigest) carriageBytes := by
  refine ⟨fun files => ?_, fun names inspect => ?_, ?_, fun hrendered => ?_⟩
  · exact validateChecksums_panicked.mpr ⟨by decide +kernel, straddling_across _⟩
  · exact parseInstalledChecksums_panicked.mpr (straddling_across _)
  · refine parseInstalledChecksums_ok.mpr ⟨sampleChecksums, _, sample_entries, ?_, rfl⟩
    exact List.forall₂_map_right_iff.mpr (List.forall₂_same.mpr fun line _ => .inr rfl)
  · exact (rendered_iff_written.mp hrendered).2 (by decide +kernel)

end NetworkLoop.Bundle
