import NetworkLoop.Bundle.Files
import NetworkLoop.Library.Text

/-! The service unit (`deployment_unit.rs`).

One loop over the lines keeps the section it is in, three flags and the directives seen so
far. `readLines_start` says which lines it takes: the sections' headers and the 25
directives, each once, the blank line once. But it asks of the blank line only that it
stands somewhere between the two headers. -/
namespace NetworkLoop.Bundle
open Library

def maxServiceUnitBytes : Nat := 64 * 1024

def unitDirectives : List (String × String) := [("Description", "L2 Loop Detection Agent")]

def serviceDirectives : List (String × String) :=
  [("Type", "simple"),
    ("ExecStart", "/usr/libexec/l2-loop/l2-loopd"),
    ("User", "root"),
    ("Group", "root"),
    ("RuntimeDirectory", "l2-loop"),
    ("RuntimeDirectoryMode", "0700"),
    ("UMask", "0077"),
    ("NoNewPrivileges", "yes"),
    ("PrivateTmp", "yes"),
    ("ProtectSystem", "strict"),
    ("ProtectHome", "yes"),
    ("PrivateDevices", "yes"),
    ("ProtectKernelTunables", "yes"),
    ("ProtectKernelModules", "yes"),
    ("ProtectControlGroups", "yes"),
    ("RestrictSUIDSGID", "yes"),
    ("RestrictRealtime", "yes"),
    ("LockPersonality", "yes"),
    ("MemoryDenyWriteExecute", "yes"),
    ("CapabilityBoundingSet", "CAP_BPF CAP_NET_ADMIN CAP_PERFMON CAP_SYS_RESOURCE"),
    ("RestrictAddressFamilies", "AF_UNIX AF_NETLINK"),
    ("ReadWritePaths", "/run/l2-loop /var/lib/l2-loop/evidence/v1"),
    ("TimeoutStopSec", "10s"),
    ("Restart", "no")]

inductive ServiceUnitError where
  | invalidContract
  deriving DecidableEq, Repr

structure ServiceUnitSnapshotV1 where
  contractValid : Bool
  deriving DecidableEq, Repr

def ServiceUnitSnapshotV1.valid : ServiceUnitSnapshotV1 := ⟨true⟩

inductive UnitSection where
  | unit | service
  deriving DecidableEq, Repr

/-- The variables of the loop. -/
structure UnitScan where
  current : Option UnitSection
  unitSeen : Bool
  serviceSeen : Bool
  blankBetweenSections : Bool
  directives : List (Option UnitSection × List Char)
  deriving DecidableEq

def UnitScan.start : UnitScan := ⟨none, false, false, false, []⟩

/-- `char::is_whitespace`. -/
def isWhitespace (c : Char) : Bool :=
  (9 ≤ c.toNat && c.toNat ≤ 13) || c.toNat == 0x20 || c.toNat == 0x85 || c.toNat == 0xa0 || c.toNat == 0x1680 ||
    (0x2000 ≤ c.toNat && c.toNat ≤ 0x200a) || c.toNat == 0x2028 || c.toNat == 0x2029 || c.toNat == 0x202f ||
    c.toNat == 0x205f || c.toNat == 0x3000

def directiveIsExact (current : Option UnitSection) (key value : List Char) : Bool :=
  match current with
  | some .unit => unitDirectives.any fun expected => key == expected.1.toList && value == expected.2.toList
  | some .service => serviceDirectives.any fun expected => key == expected.1.toList && value == expected.2.toList
  | none => false

def unitHeader : List Char := "[Unit]".toList
def serviceHeader : List Char := "[Service]".toList

/-- The last part of the loop's body, for a line that is no section's header. -/
def readDirective (s : UnitScan) (line : List Char) : Except ServiceUnitError UnitScan :=
  match Text.splitOnce '=' line with
  | none => .error .invalidContract
  | some (key, value) =>
    if key = [] ∨ value = [] ∨ '=' ∈ value ∨ (s.current, key) ∈ s.directives ∨ ¬directiveIsExact s.current key value then
      .error .invalidContract
    else .ok { s with directives := (s.current, key) :: s.directives }

/-- The loop's body. -/
def readLine (s : UnitScan) (line : List Char) : Except ServiceUnitError UnitScan :=
  if line = [] then
    if s.current = some .unit ∧ s.unitSeen ∧ ¬s.serviceSeen ∧ ¬s.blankBetweenSections then
      .ok { s with blankBetweenSections := true }
    else .error .invalidContract
  else if Text.trim isWhitespace line ≠ line ∨ line.head? = some '#' ∨ line.head? = some ';' then .error .invalidContract
  else if line = unitHeader ∧ s.current = none ∧ ¬s.unitSeen then .ok { s with current := some .unit, unitSeen := true }
  else if line = serviceHeader ∧ s.current = some .unit ∧ s.blankBetweenSections then
    .ok { s with current := some .service, serviceSeen := true }
  else if line.head? = some '[' ∨ line.getLast? = some ']' then .error .invalidContract
  else readDirective s line

/-- What is asked of the variables behind the loop. -/
def UnitScan.complete (s : UnitScan) : Bool :=
  s.unitSeen && s.serviceSeen && s.directives.length == unitDirectives.length + serviceDirectives.length

def validateServiceUnit (bytes : Bytes) : Except ServiceUnitError ServiceUnitSnapshotV1 :=
  if bytes.isEmpty ∨ maxServiceUnitBytes < bytes.length ∨ bytes.getLast? ≠ some 10 then .error .invalidContract
  else
    match Text.decode bytes with
    | none => .error .invalidContract
    | some input =>
      if bytes.any fun byte => byte = 13 ∨ byte = 0 ∨ byte = 92 then .error .invalidContract
      else
        match (Text.lines '\n' '\r' input).foldlM readLine .start with
        | .error e => .error e
        | .ok s => if s.complete then .ok .valid else .error .invalidContract

/-! ### The grammar -/

/-- `key=value`. -/
def directiveLine (directive : String × String) : List Char := directive.1.toList ++ '=' :: directive.2.toList

def description : String × String := ("Description", "L2 Loop Detection Agent")

/-- The unit with its service directives in some order. -/
def unitLines (directives : List (String × String)) : List (List Char) :=
  unitHeader :: directiveLine description :: [] :: serviceHeader :: directives.map directiveLine

/-- The same with the blank line above the description. -/
def misplacedLines (directives : List (String × String)) : List (List Char) :=
  unitHeader :: [] :: directiveLine description :: serviceHeader :: directives.map directiveLine

def textBytes (lines : List (List Char)) : Bytes := Text.encode (Text.unlines '\n' lines)

/-- The texts that are a service unit. -/
def IsServiceUnit (bytes : Bytes) : Prop :=
  ∃ directives : List (String × String), directives.Perm serviceDirectives ∧ bytes = textBytes (unitLines directives)

/-- The texts that would be one, with the blank line in its place. -/
def BlankMisplaced (bytes : Bytes) : Prop :=
  ∃ directives : List (String × String), directives.Perm serviceDirectives ∧ bytes = textBytes (misplacedLines directives)

/-! ### One line -/

def plainCharacter (c : Char) : Bool := c.toNat ≤ 127 && c != '\n' && c != '\r' && c != '\x00' && c != '\\'

def plainFirst (c : Char) : Bool := !isWhitespace c && c != '#' && c != ';' && c != '['

def plainLast (c : Char) : Bool := !isWhitespace c && c != ']'

/-- What the loop asks of a line that is a directive, and of its characters. -/
structure PlainDirective (directive : String × String) : Prop where
  characters : (directiveLine directive).all plainCharacter = true
  first : (directiveLine directive).head?.all plainFirst = true
  last : (directiveLine directive).getLast?.all plainLast = true
  key : directive.1.toList ≠ [] ∧ '=' ∉ directive.1.toList
  value : directive.2.toList ≠ [] ∧ '=' ∉ directive.2.toList

instance (directive : String × String) : Decidable (PlainDirective directive) :=
  decidable_of_iff (((directiveLine directive).all plainCharacter = true ∧ (directiveLine directive).head?.all plainFirst = true ∧
    (directiveLine directive).getLast?.all plainLast = true) ∧ (directive.1.toList ≠ [] ∧ '=' ∉ directive.1.toList) ∧
    (directive.2.toList ≠ [] ∧ '=' ∉ directive.2.toList))
    ⟨fun h => ⟨h.1.1, h.1.2.1, h.1.2.2, h.2.1, h.2.2⟩, fun h => ⟨⟨h.characters, h.first, h.last⟩, h.key, h.value⟩⟩

theorem plain_description : PlainDirective description := by decide +kernel

theorem plain_service : ∀ directive ∈ serviceDirectives, PlainDirective directive := by decide +kernel

section Line
variable {s s' : UnitScan} {line : List Char} {directive : String × String}

/-- The directives of a section. -/
def directivesOf : Option UnitSection → List (String × String)
  | some .unit => unitDirectives
  | some .service => serviceDirectives
  | none => []

theorem directiveIsExact_iff {current : Option UnitSection} {key value : List Char} :
    directiveIsExact current key value = true ↔
      ∃ directive ∈ directivesOf current, key = directive.1.toList ∧ value = directive.2.toList := by
  cases current with
  | none => simp [directiveIsExact, directivesOf]
  | some which => cases which <;> simp only [directiveIsExact, directivesOf, List.any_eq_true, Bool.and_eq_true, beq_iff_eq]

theorem plain_of_mem {current : Option UnitSection} (h : directive ∈ directivesOf current) : PlainDirective directive := by
  cases current with
  | none => cases h
  | some which =>
    cases which with
    | unit =>
      rw [List.mem_singleton.mp h]
      exact plain_description
    | service => exact plain_service directive h

theorem readDirective_eq_ok : readDirective s line = .ok s' ↔
    ∃ directive ∈ directivesOf s.current, line = directiveLine directive ∧ (s.current, directive.1.toList) ∉ s.directives ∧
      s' = { s with directives := (s.current, directive.1.toList) :: s.directives } := by
  constructor
  · intro h
    rw [readDirective] at h
    split at h
    case h_1 => cases h
    case h_2 key value hsplit =>
      split at h
      case isTrue => cases h
      case isFalse hgood =>
        simp only [not_or, not_not] at hgood
        obtain ⟨-, -, -, hnew, hexact⟩ := hgood
        obtain ⟨directive, hmem, rfl, rfl⟩ := directiveIsExact_iff.mp hexact
        exact ⟨directive, hmem, (Text.splitOnce_eq_some.mp hsplit).2, hnew, (Except.ok.inj h).symm⟩
  · rintro ⟨directive, hmem, rfl, hnew, rfl⟩
    have hplain := plain_of_mem hmem
    have hsplit := Text.splitOnce_eq_some.mpr ⟨hplain.key.2, (rfl : directiveLine directive = _)⟩
    have hexact := directiveIsExact_iff.mpr ⟨directive, hmem, rfl, rfl⟩
    rw [readDirective, hsplit]
    dsimp only
    rw [if_neg (by simp [hplain.key.1, hplain.value, hnew, hexact])]

theorem directiveLine_ne_nil : directiveLine directive ≠ [] := by
  rw [directiveLine]
  exact List.append_ne_nil_of_right_ne_nil _ (List.cons_ne_nil _ _)

/-- A directive's line comes to the last part of the body. -/
theorem readLine_directive (h : PlainDirective directive) :
    readLine s (directiveLine directive) = readDirective s (directiveLine directive) := by
  obtain ⟨c, hfirst⟩ := Option.ne_none_iff_exists'.mp fun hno => directiveLine_ne_nil (List.head?_eq_none_iff.mp hno)
  obtain ⟨d, hlast⟩ := Option.ne_none_iff_exists'.mp fun hno => directiveLine_ne_nil (List.getLast?_eq_none_iff.mp hno)
  have hc := h.first
  have hd := h.last
  rw [hfirst, Option.all_some] at hc
  rw [hlast, Option.all_some] at hd
  simp only [plainFirst, plainLast, Bool.and_eq_true, Bool.not_eq_true', bne_iff_ne] at hc hd
  have htrim : Text.trim isWhitespace (directiveLine directive) = directiveLine directive := by
    apply Text.trim_of_ends
    · intro x hx
      rw [← Option.some_inj.mp (hfirst.symm.trans hx)]
      exact hc.1.1.1
    · intro x hx
      rw [← Option.some_inj.mp (hlast.symm.trans hx)]
      exact hd.1
  have hunit : directiveLine directive ≠ unitHeader := fun heq => hc.2 (by rw [heq] at hfirst; exact (Option.some_inj.mp hfirst).symm)
  have hservice : directiveLine directive ≠ serviceHeader := fun heq =>
    hc.2 (by rw [heq] at hfirst; exact (Option.some_inj.mp hfirst).symm)
  rw [readLine, if_neg directiveLine_ne_nil, htrim, hfirst, hlast, if_neg (by simp [hc]), if_neg (by simp [hunit]),
    if_neg (by simp [hservice]), if_neg (by simp [hc, hd])]

/-- What the body does with a line that it takes. -/
theorem readLine_cases (h : readLine s line = .ok s') :
    (line = [] ∧ s.current = some .unit ∧ s.blankBetweenSections = false ∧ s' = { s with blankBetweenSections := true }) ∨
    (line = unitHeader ∧ s.current = none ∧ s' = { s with current := some .unit, unitSeen := true }) ∨
    (line = serviceHeader ∧ s.current = some .unit ∧ s.blankBetweenSections = true ∧
      s' = { s with current := some .service, serviceSeen := true }) ∨
    ∃ directive ∈ directivesOf s.current, line = directiveLine directive ∧ (s.current, directive.1.toList) ∉ s.directives ∧
      s' = { s with directives := (s.current, directive.1.toList) :: s.directives } := by
  rw [readLine] at h
  split at h
  case isTrue hline =>
    split at h
    case isTrue hblank => exact .inl ⟨hline, hblank.1, by simpa using hblank.2.2.2, (Except.ok.inj h).symm⟩
    case isFalse => cases h
  case isFalse =>
    split at h
    case isTrue => cases h
    case isFalse =>
      split at h
      case isTrue hunit => exact .inr (.inl ⟨hunit.1, hunit.2.1, (Except.ok.inj h).symm⟩)
      case isFalse =>
        split at h
        case isTrue hservice => exact .inr (.inr (.inl ⟨hservice.1, hservice.2.1, hservice.2.2, (Except.ok.inj h).symm⟩))
        case isFalse =>
          split at h
          case isTrue => cases h
          case isFalse => exact .inr (.inr (.inr (readDirective_eq_ok.mp h)))

end Line

/-! ### The loop -/

namespace UnitScan

/-- Behind `[Unit]`. -/
def inUnit (blank : Bool) (directives : List (Option UnitSection × List Char)) : UnitScan :=
  ⟨some .unit, true, false, blank, directives⟩

/-- Behind `[Service]`. -/
def inService (directives : List (Option UnitSection × List Char)) : UnitScan := ⟨some .service, true, true, true, directives⟩

end UnitScan

open UnitScan

section Loop
variable {s' : UnitScan} {line : List Char} {lines : List (List Char)} {seen : List (Option UnitSection × List Char)} {blank : Bool}

theorem readLine_start : readLine .start line = .ok s' ↔ line = unitHeader ∧ s' = inUnit false [] := by
  constructor
  · intro h
    rcases readLine_cases h with ⟨-, hno, -⟩ | ⟨hline, -, hs⟩ | ⟨-, hno, -⟩ | ⟨directive, hno, -⟩
    · cases hno
    · exact ⟨hline, hs⟩
    · cases hno
    · cases hno
  · rintro ⟨rfl, rfl⟩
    rfl

/-- The key that a directive of the section is seen under. -/
def seenAs (current : UnitSection) (directive : String × String) : Option UnitSection × List Char :=
  (some current, directive.1.toList)

theorem readLine_unit : readLine (inUnit blank seen) line = .ok s' ↔
    (line = [] ∧ blank = false ∧ s' = inUnit true seen) ∨ (line = serviceHeader ∧ blank = true ∧ s' = inService seen) ∨
      (line = directiveLine description ∧ seenAs .unit description ∉ seen ∧ s' = inUnit blank (seenAs .unit description :: seen)) := by
  constructor
  · intro h
    rcases readLine_cases h with ⟨hline, -, hblank, hs⟩ | ⟨-, hno, -⟩ | ⟨hline, -, hblank, hs⟩ | ⟨directive, hmem, hline, hnew, hs⟩
    · exact .inl ⟨hline, hblank, hs⟩
    · cases hno
    · obtain rfl : blank = true := hblank
      exact .inr (.inl ⟨hline, rfl, hs⟩)
    · obtain rfl : directive = description := List.mem_singleton.mp hmem
      exact .inr (.inr ⟨hline, hnew, hs⟩)
  · rintro (⟨rfl, rfl, rfl⟩ | ⟨rfl, rfl, rfl⟩ | ⟨rfl, hnew, rfl⟩)
    · rfl
    · rfl
    · rw [readLine_directive plain_description]
      exact readDirective_eq_ok.mpr ⟨description, List.mem_singleton_self _, rfl, hnew, rfl⟩

theorem readLine_service : readLine (inService seen) line = .ok s' ↔
    ∃ directive ∈ serviceDirectives, line = directiveLine directive ∧ seenAs .service directive ∉ seen ∧
      s' = inService (seenAs .service directive :: seen) := by
  constructor
  · intro h
    rcases readLine_cases h with ⟨-, hno, -⟩ | ⟨-, hno, -⟩ | ⟨-, hno, -⟩ | hdirective
    · cases hno
    · cases hno
    · cases hno
    · exact hdirective
  · rintro ⟨directive, hmem, rfl, hnew, rfl⟩
    rw [readLine_directive (plain_service directive hmem)]
    exact readDirective_eq_ok.mpr ⟨directive, hmem, rfl, hnew, rfl⟩

theorem foldlM_cons_eq_ok {s : UnitScan} : (line :: lines).foldlM readLine s = .ok s' ↔
    ∃ between, readLine s line = .ok between ∧ lines.foldlM readLine between = .ok s' := by
  rw [List.foldlM_cons]
  cases readLine s line with
  | error e => simp [bind, Except.bind]
  | ok between => simp [bind, Except.bind]

/-- Behind `[Service]` come directives, each new. -/
theorem readLines_service : lines.foldlM readLine (inService seen) = .ok s' ↔
    ∃ directives : List (String × String), lines = directives.map directiveLine ∧ (∀ d ∈ directives, d ∈ serviceDirectives) ∧
      (directives.map (seenAs .service)).Nodup ∧ (∀ d ∈ directives, seenAs .service d ∉ seen) ∧
      s' = inService ((directives.map (seenAs .service)).reverse ++ seen) := by
  induction lines generalizing seen with
  | nil =>
    constructor
    · intro h
      exact ⟨[], rfl, by simp, by simp, by simp, (Except.ok.inj h).symm⟩
    · rintro ⟨directives, hlines, -, -, -, rfl⟩
      rw [List.map_eq_nil_iff.mp hlines.symm]
      rfl
  | cons line rest ih =>
    rw [foldlM_cons_eq_ok]
    constructor
    · rintro ⟨between, hline, hrest⟩
      obtain ⟨directive, hmem, rfl, hnew, rfl⟩ := readLine_service.mp hline
      obtain ⟨directives, rfl, hall, hnodup, hfresh, rfl⟩ := ih.mp hrest
      refine ⟨directive :: directives, rfl, ?_, ?_, ?_, by simp⟩
      · exact List.forall_mem_cons.mpr ⟨hmem, hall⟩
      · rw [List.map_cons, List.nodup_cons]
        refine ⟨fun hin => ?_, hnodup⟩
        obtain ⟨d, hd, heq⟩ := List.mem_map.mp hin
        exact hfresh d hd (heq ▸ List.mem_cons_self ..)
      · intro d hd
        rcases List.mem_cons.mp hd with rfl | hd
        · exact hnew
        · exact fun hin => hfresh d hd (List.mem_cons_of_mem _ hin)
    · rintro ⟨directives, hlines, hall, hnodup, hfresh, rfl⟩
      cases directives with
      | nil => cases hlines
      | cons directive directives =>
        obtain ⟨rfl, rfl⟩ := List.cons.inj hlines
        rw [List.map_cons, List.nodup_cons] at hnodup
        refine ⟨_, readLine_service.mpr ⟨directive, hall _ (List.mem_cons_self ..), rfl, hfresh _ (List.mem_cons_self ..), rfl⟩,
          ih.mpr ⟨directives, rfl, fun d hd => hall d (List.mem_cons_of_mem _ hd), hnodup.2, ?_, by simp⟩⟩
        intro d hd hin
        rcases List.mem_cons.mp hin with heq | hin
        · exact hnodup.1 (heq ▸ List.mem_map_of_mem hd)
        · exact hfresh d (List.mem_cons_of_mem _ hd) hin

theorem nodup_seenAs : (serviceDirectives.map (seenAs .service)).Nodup := by decide +kernel

/-- All 24 service directives have been read where the count is right. -/
theorem complete_service (hdescription : seen = [] ∨ seen = [seenAs .unit description]) :
    (∃ s, lines.foldlM readLine (inService seen) = .ok s ∧ s.complete = true) ↔
      seen ≠ [] ∧ ∃ directives : List (String × String), directives.Perm serviceDirectives ∧ lines = directives.map directiveLine := by
  constructor
  · rintro ⟨s, hrun, hcomplete⟩
    obtain ⟨directives, hlines, hall, hnodup, -, rfl⟩ := readLines_service.mp hrun
    have hlength : directives.length + seen.length = 25 := by
      simpa [complete, inService, unitDirectives, serviceDirectives] using hcomplete
    have hsub : directives.Subperm serviceDirectives := List.subperm_of_subset (List.Nodup.of_map _ hnodup) hall
    have hle : directives.length ≤ 24 := hsub.length_le
    rcases hdescription with rfl | rfl
    · rw [List.length_nil] at hlength
      omega
    · rw [List.length_singleton] at hlength
      exact ⟨List.cons_ne_nil _ _, directives, hsub.perm_of_length_le (show 24 ≤ _ by omega), hlines⟩
  · rintro ⟨hsome, directives, hperm, rfl⟩
    obtain rfl := hdescription.resolve_left hsome
    refine ⟨_, readLines_service.mpr ⟨directives, rfl, fun d hd => hperm.mem_iff.mp hd, ?_, fun d _ hin => ?_, rfl⟩, ?_⟩
    · exact (hperm.map (seenAs .service)).nodup_iff.mpr nodup_seenAs
    · cases congrArg Prod.fst (List.mem_singleton.mp hin)
    · have hlength : directives.length = 24 := hperm.length_eq
      simp [complete, inService, unitDirectives, serviceDirectives, hlength]

/-- Nothing is complete before `[Service]`. -/
theorem complete_unit : (∃ s, lines.foldlM readLine (inUnit blank seen) = .ok s ∧ s.complete = true) ↔
    ∃ line rest between, lines = line :: rest ∧ readLine (inUnit blank seen) line = .ok between ∧
      ∃ s, rest.foldlM readLine between = .ok s ∧ s.complete = true := by
  constructor
  · rintro ⟨s, hrun, hcomplete⟩
    cases lines with
    | nil =>
      rw [← Except.ok.inj hrun] at hcomplete
      cases hcomplete
    | cons line rest =>
      obtain ⟨between, hline, hrest⟩ := foldlM_cons_eq_ok.mp hrun
      exact ⟨line, rest, between, rfl, hline, s, hrest, hcomplete⟩
  · rintro ⟨line, rest, between, rfl, hline, s, hrest, hcomplete⟩
    exact ⟨s, foldlM_cons_eq_ok.mpr ⟨between, hline, hrest⟩, hcomplete⟩

/-- The service section, from its header on. -/
def IsService (lines : List (List Char)) : Prop :=
  ∃ directives : List (String × String), directives.Perm serviceDirectives ∧ lines = serviceHeader :: directives.map directiveLine

theorem complete_described : (∃ s, lines.foldlM readLine (inUnit true [seenAs .unit description]) = .ok s ∧ s.complete = true) ↔
    IsService lines := by
  rw [complete_unit]
  constructor
  · rintro ⟨line, rest, between, rfl, hline, hend⟩
    rcases readLine_unit.mp hline with ⟨-, hno, -⟩ | ⟨rfl, -, rfl⟩ | ⟨-, hno, -⟩
    · cases hno
    · obtain ⟨-, directives, hperm, rfl⟩ := (complete_service (.inr rfl)).mp hend
      exact ⟨directives, hperm, rfl⟩
    · exact absurd (List.mem_singleton_self _) hno
  · rintro ⟨directives, hperm, rfl⟩
    exact ⟨_, _, _, rfl, readLine_unit.mpr (.inr (.inl ⟨rfl, rfl, rfl⟩)),
      (complete_service (.inr rfl)).mpr ⟨List.cons_ne_nil _ _, directives, hperm, rfl⟩⟩

/-- The blank line has been read, the description has not. -/
theorem complete_blank : (∃ s, lines.foldlM readLine (inUnit true []) = .ok s ∧ s.complete = true) ↔
    ∃ rest, lines = directiveLine description :: rest ∧ IsService rest := by
  rw [complete_unit]
  constructor
  · rintro ⟨line, rest, between, rfl, hline, hend⟩
    rcases readLine_unit.mp hline with ⟨-, hno, -⟩ | ⟨-, -, rfl⟩ | ⟨rfl, -, rfl⟩
    · cases hno
    · exact absurd rfl ((complete_service (.inl rfl)).mp hend).1
    · exact ⟨rest, rfl, complete_described.mp hend⟩
  · rintro ⟨rest, rfl, hservice⟩
    exact ⟨_, _, _, rfl, readLine_unit.mpr (.inr (.inr ⟨rfl, List.not_mem_nil, rfl⟩)), complete_described.mpr hservice⟩

/-- The description has been read, the blank line has not. -/
theorem complete_description :
    (∃ s, lines.foldlM readLine (inUnit false [seenAs .unit description]) = .ok s ∧ s.complete = true) ↔
      ∃ rest, lines = [] :: rest ∧ IsService rest := by
  rw [complete_unit]
  constructor
  · rintro ⟨line, rest, between, rfl, hline, hend⟩
    rcases readLine_unit.mp hline with ⟨rfl, -, rfl⟩ | ⟨-, hno, -⟩ | ⟨-, hno, -⟩
    · exact ⟨rest, rfl, complete_described.mp hend⟩
    · cases hno
    · exact absurd (List.mem_singleton_self _) hno
  · rintro ⟨rest, rfl, hservice⟩
    exact ⟨_, _, _, rfl, readLine_unit.mpr (.inl ⟨rfl, rfl, rfl⟩), complete_described.mpr hservice⟩

/-- **The lines that the loop takes.** -/
theorem readLines_start : (∃ s, lines.foldlM readLine .start = .ok s ∧ s.complete = true) ↔
    ∃ directives : List (String × String), directives.Perm serviceDirectives ∧
      (lines = unitLines directives ∨ lines = misplacedLines directives) := by
  constructor
  · rintro ⟨s, hrun, hcomplete⟩
    cases lines with
    | nil =>
      rw [← Except.ok.inj hrun] at hcomplete
      cases hcomplete
    | cons line rest =>
      obtain ⟨between, hline, hrest⟩ := foldlM_cons_eq_ok.mp hrun
      obtain ⟨rfl, rfl⟩ := readLine_start.mp hline
      obtain ⟨second, rest, between, rfl, hsecond, hend⟩ := complete_unit.mp ⟨s, hrest, hcomplete⟩
      rcases readLine_unit.mp hsecond with ⟨rfl, -, rfl⟩ | ⟨-, hno, -⟩ | ⟨rfl, -, rfl⟩
      · obtain ⟨rest, rfl, directives, hperm, rfl⟩ := complete_blank.mp hend
        exact ⟨directives, hperm, .inr rfl⟩
      · cases hno
      · obtain ⟨rest, rfl, directives, hperm, rfl⟩ := complete_description.mp hend
        exact ⟨directives, hperm, .inl rfl⟩
  · rintro ⟨directives, hperm, hlines⟩
    have hservice : IsService (serviceHeader :: directives.map directiveLine) := ⟨directives, hperm, rfl⟩
    have hunit : ∃ rest s, lines = unitHeader :: rest ∧ rest.foldlM readLine (inUnit false []) = .ok s ∧ s.complete = true := by
      rcases hlines with rfl | rfl
      · obtain ⟨s, hrun, hcomplete⟩ := complete_unit.mpr ⟨_, _, _, rfl, readLine_unit.mpr (.inr (.inr ⟨rfl, List.not_mem_nil, rfl⟩)),
          complete_description.mpr ⟨_, rfl, hservice⟩⟩
        exact ⟨_, s, rfl, hrun, hcomplete⟩
      · obtain ⟨s, hrun, hcomplete⟩ := complete_unit.mpr ⟨_, _, _, rfl, readLine_unit.mpr (.inl ⟨rfl, rfl, rfl⟩),
          complete_blank.mpr ⟨_, rfl, hservice⟩⟩
        exact ⟨_, s, rfl, hrun, hcomplete⟩
    obtain ⟨rest, s, rfl, hrun, hcomplete⟩ := hunit
    exact ⟨s, foldlM_cons_eq_ok.mpr ⟨_, readLine_start.mpr ⟨rfl, rfl⟩, hrun⟩, hcomplete⟩

end Loop

/-! ### The bytes -/

section Bytes
variable {lines : List (List Char)} {directives : List (String × String)}

/-- Lines without a character that the loop is never shown. -/
def PlainLines (lines : List (List Char)) : Prop := ∀ line ∈ lines, ∀ c ∈ line, plainCharacter c = true

theorem plainCharacter_iff {c : Char} :
    plainCharacter c = true ↔ c.toNat ≤ 127 ∧ c ≠ '\n' ∧ c ≠ '\r' ∧ c ≠ '\x00' ∧ c ≠ '\\' := by
  simp only [plainCharacter, Bool.and_eq_true, decide_eq_true_eq, bne_iff_ne, and_assoc]

theorem plain_headers : unitHeader.all plainCharacter = true ∧ serviceHeader.all plainCharacter = true := by decide +kernel

theorem plainLines_service (hperm : directives.Perm serviceDirectives) : PlainLines (serviceHeader :: directives.map directiveLine) := by
  intro line hline
  rcases List.mem_cons.mp hline with rfl | hline
  · exact List.all_eq_true.mp plain_headers.2
  · obtain ⟨directive, hmem, rfl⟩ := List.mem_map.mp hline
    exact List.all_eq_true.mp (plain_service directive (hperm.mem_iff.mp hmem)).characters

/-- A unit's lines are plain, wherever its blank line stands. -/
theorem plainLines_of (hperm : directives.Perm serviceDirectives) (h : lines = unitLines directives ∨ lines = misplacedLines directives) :
    PlainLines lines := by
  intro line hline
  have hcases : line = unitHeader ∨ line = directiveLine description ∨ line = [] ∨
      line ∈ serviceHeader :: directives.map directiveLine := by
    rcases h with rfl | rfl
    · simpa only [unitLines, List.mem_cons] using hline
    · simp only [misplacedLines, List.mem_cons] at hline ⊢
      tauto
  rcases hcases with rfl | rfl | rfl | hservice
  · exact List.all_eq_true.mp plain_headers.1
  · exact List.all_eq_true.mp plain_description.characters
  · exact fun c hc => absurd hc List.not_mem_nil
  · exact plainLines_service hperm line hservice

theorem PlainLines.newline (h : PlainLines lines) : ∀ line ∈ lines, '\n' ∉ line :=
  fun line hline hin => (plainCharacter_iff.mp (h line hline _ hin)).2.1 rfl

/-- The loop is shown these lines again. -/
theorem PlainLines.lines_unlines (h : PlainLines lines) : Text.lines '\n' '\r' (Text.unlines '\n' lines) = lines :=
  Text.lines_unlines_of_not_mem h.newline fun line hline hin => (plainCharacter_iff.mp (h line hline _ hin)).2.2.1 rfl

theorem PlainLines.character (h : PlainLines lines) {c : Char} (hc : c ∈ Text.unlines '\n' lines) :
    c.toNat ≤ 127 ∧ c ≠ '\r' ∧ c ≠ '\x00' ∧ c ≠ '\\' := by
  obtain ⟨line, hline, hin⟩ := List.mem_flatMap.mp hc
  rcases List.mem_append.mp hin with hin | hin
  · obtain ⟨hascii, -, hrest⟩ := plainCharacter_iff.mp (h line hline c hin)
    exact ⟨hascii, hrest⟩
  · rw [List.mem_singleton.mp hin]
    decide

/-- None of the three bytes that are looked for is among them. -/
theorem PlainLines.bytes (h : PlainLines lines) : (textBytes lines).any (fun byte => byte = 13 ∨ byte = 0 ∨ byte = 92) = false := by
  rw [textBytes, Text.encode_ascii fun c hc => (h.character hc).1, List.any_eq_false]
  intro byte hbyte
  obtain ⟨c, hc, rfl⟩ := List.mem_map.mp hbyte
  obtain ⟨hascii, hcarriage, hnull, hslash⟩ := h.character hc
  have hnat : ∀ d : Char, d.toNat ≤ 127 → UInt8.ofNat c.toNat = UInt8.ofNat d.toNat → c = d := by
    intro d hd heq
    have hsame := congrArg UInt8.toNat heq
    rw [UInt8.toNat_ofNat', UInt8.toNat_ofNat', Nat.mod_eq_of_lt (by omega), Nat.mod_eq_of_lt (by omega)] at hsame
    exact Char.toNat_inj.mp hsame
  rw [decide_eq_true_eq]
  rintro (heq | heq | heq)
  · exact hcarriage (hnat '\r' (by decide) heq)
  · exact hnull (hnat '\x00' (by decide) heq)
  · exact hslash (hnat '\\' (by decide) heq)

theorem getLast?_textBytes (h : lines ≠ []) : (textBytes lines).getLast? = some 10 := by
  obtain ⟨front, line, rfl⟩ := List.eq_nil_or_concat lines |>.resolve_left h
  rw [textBytes, Text.unlines, List.concat_eq_append, List.flatMap_append, List.flatMap_singleton, Text.encode_append,
    Text.encode_append, ← List.append_assoc]
  exact List.getLast?_concat

/-- The order of the directives does not change the length. -/
theorem length_textBytes (hperm : directives.Perm serviceDirectives)
    (h : lines = unitLines directives ∨ lines = misplacedLines directives) : (textBytes lines).length ≤ maxServiceUnitBytes := by
  have hlines : lines.Perm (unitLines serviceDirectives) := by
    have htail := hperm.map directiveLine
    rcases h with rfl | rfl
    · exact (((htail.cons _).cons _).cons _).cons _
    · exact (((htail.cons _).cons _).cons _).cons _ |>.trans ((List.Perm.swap _ _ _).cons _)
  have hbytes : (textBytes lines).Perm (textBytes (unitLines serviceDirectives)) :=
    (hlines.flatMap_right _).flatMap_right _
  rw [hbytes.length_eq]
  decide +kernel

/-- **What the validator accepts**: the units, and those with the blank line misplaced. -/
theorem validateServiceUnit_ok {bytes : Bytes} :
    (∃ snapshot, validateServiceUnit bytes = .ok snapshot) ↔ IsServiceUnit bytes ∨ BlankMisplaced bytes := by
  constructor
  · rintro ⟨snapshot, h⟩
    rw [validateServiceUnit] at h
    split at h
    case isTrue => cases h
    case isFalse hbounds =>
      simp only [not_or, not_not] at hbounds
      split at h
      case h_1 => cases h
      case h_2 input hdecode =>
        split at h
        case isTrue => cases h
        case isFalse hforbidden =>
          split at h
          case h_1 => cases h
          case h_2 s hrun =>
            split at h
            case isFalse => cases h
            case isTrue hcomplete =>
              obtain rfl := Text.decode_eq_some.mp hdecode
              obtain ⟨lines, hlines, rfl⟩ := Text.exists_unlines (Text.getLast?_of_encode (c := '\n') (by decide) hbounds.2.2)
              have hcarriage : ∀ line ∈ lines, '\r' ∉ line := by
                intro line hline hin
                have hinput : '\r' ∈ Text.unlines '\n' lines := Text.mem_unlines_of_mem hline hin
                exact hforbidden (List.any_eq_true.mpr ⟨13, Text.mem_encode (by decide) hinput, by decide⟩)
              rw [Text.lines_unlines_of_not_mem hlines hcarriage] at hrun
              obtain ⟨directives, hperm, rfl | rfl⟩ := readLines_start.mp ⟨s, hrun, hcomplete⟩
              · exact .inl ⟨directives, hperm, rfl⟩
              · exact .inr ⟨directives, hperm, rfl⟩
  · intro h
    obtain ⟨directives, lines, hperm, hlines, rfl⟩ : ∃ directives : List (String × String), ∃ lines, directives.Perm serviceDirectives ∧
        (lines = unitLines directives ∨ lines = misplacedLines directives) ∧ bytes = textBytes lines := by
      rcases h with ⟨directives, hperm, rfl⟩ | ⟨directives, hperm, rfl⟩
      · exact ⟨directives, _, hperm, .inl rfl, rfl⟩
      · exact ⟨directives, _, hperm, .inr rfl, rfl⟩
    have hplain := plainLines_of hperm hlines
    have hlast := getLast?_textBytes (show lines ≠ [] by rcases hlines with rfl | rfl <;> exact List.cons_ne_nil _ _)
    have hsome : (textBytes lines).isEmpty = false := by
      rw [List.isEmpty_eq_false_iff]
      intro hno
      rw [hno] at hlast
      cases hlast
    obtain ⟨s, hrun, hcomplete⟩ := readLines_start.mpr ⟨directives, hperm, hlines⟩
    refine ⟨.valid, ?_⟩
    rw [validateServiceUnit, if_neg (by simp [hsome, hlast, length_textBytes hperm hlines]), textBytes, Text.decode_encode]
    dsimp only
    rw [← textBytes, hplain.bytes, if_neg Bool.false_ne_true, hplain.lines_unlines, hrun]
    dsimp only
    rw [if_pos hcomplete]

/-- A blank line has one place in a unit. -/
theorem not_both {bytes : Bytes} (h : BlankMisplaced bytes) : ¬IsServiceUnit bytes := by
  obtain ⟨directives, hperm, rfl⟩ := h
  rintro ⟨others, hothers, heq⟩
  have hinput := congrArg Text.decode heq
  rw [textBytes, textBytes, Text.decode_encode, Text.decode_encode, Option.some_inj,
    Text.unlines_inj (plainLines_of hperm (.inr rfl)).newline (plainLines_of hothers (.inl rfl)).newline] at hinput
  exact directiveLine_ne_nil (List.cons.inj (List.cons.inj hinput).2).1.symm

end Bytes

/-- **When the validator keeps to the grammar.** -/
theorem service_unit_exact_iff (bytes : Bytes) :
    ((∃ snapshot, validateServiceUnit bytes = .ok snapshot) ↔ IsServiceUnit bytes) ↔ ¬BlankMisplaced bytes := by
  rw [validateServiceUnit_ok]
  constructor
  · intro h hmisplaced
    exact not_both hmisplaced (h.mp (.inr hmisplaced))
  · intro h
    exact ⟨fun hor => hor.resolve_right h, .inl⟩

/-- The blank line may stand above the description. -/
theorem misplaced_blank_accepted : (∃ snapshot, validateServiceUnit (textBytes (misplacedLines serviceDirectives)) = .ok snapshot) ∧
    ¬IsServiceUnit (textBytes (misplacedLines serviceDirectives)) := by
  have hmisplaced : BlankMisplaced (textBytes (misplacedLines serviceDirectives)) := ⟨serviceDirectives, .refl _, rfl⟩
  exact ⟨validateServiceUnit_ok.mpr (.inr hmisplaced), not_both hmisplaced⟩

end NetworkLoop.Bundle
