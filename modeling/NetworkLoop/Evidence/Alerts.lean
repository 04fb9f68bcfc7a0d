import NetworkLoop.Library.Recorder
import NetworkLoop.Library.Text
import NetworkLoop.Control.Commands
import NetworkLoop.Evidence.Settling

/-! The alert sink (`alert.rs`): an alert goes to the journal or, as one line of JSON, to stderr.

The journal takes an entry apart at its newlines and each line at its first equals sign.
`journal_reads_back` says that it finds the fourteen fields of the alert and nothing else, and that
they tell everything about it. `sink_run` is about the sink's life: once stderr has been used the
journal never is again. -/
namespace NetworkLoop.Evidence
open Library Observation Detection

/-! ### Alerts -/

structure SanitizedAlertV1 where
  eventId : EventId
  evidenceStatus : EvidenceStatus
  revision : Nat
  transitionSequence : Nat
  code : AlertCode
  severity : AlertSeverity
  previousState : DetectionState
  currentState : DetectionState
  transitionReason : DetectionTransitionReason
  interface : String
  ifindex : Nat
  generation : Nat
  message : String
  deriving DecidableEq

/-- The check of `validate_alert` on the message; `len` counts bytes. -/
def messageAccepted (message : String) : Bool :=
  !message.isEmpty && message.utf8ByteSize ≤ 96 && message.toList.all (·.toNat ≤ 127) &&
    !message.toList.any fun c => c = '\n' || c = '\r' || c = '='

def validateAlert (alert : SanitizedAlertV1) : Bool :=
  !(alert.revision = 0 || alert.transitionSequence = 0 || alert.ifindex = 0 || alert.generation = 0 ||
      alert.severity ≠ alert.code.severity) && messageAccepted alert.message

/-! ### The alert of a revision -/

def alertMessage : AlertCode → String
  | .stormConfirmed => "passive L2 storm confirmed"
  | .externalLoopSuspected => "passive L2 loop relationship suspected"
  | .externalLoopHighConfidence => "passive L2 loop relationship high confidence"
  | .incidentCooldown => "passive L2 incident cooling down"
  | .incidentClosed => "passive L2 incident closed"
  | .generationEnded => "passive L2 observation generation ended"
  | .outputDegraded => "passive L2 incident output degraded"

/-- The alert that `alert` of the two backends makes of a job. -/
def alertOf (revision : IncidentRevisionV1) (evidenceStatus : EvidenceStatus) : SanitizedAlertV1 where
  eventId := revision.eventId
  evidenceStatus := evidenceStatus
  revision := revision.revision
  transitionSequence := revision.transitionSequence
  code := revision.alertCode
  severity := revision.severity
  previousState := revision.previousState
  currentState := revision.currentState
  transitionReason := revision.transitionReason
  interface := revision.interface
  ifindex := revision.ifindex
  generation := revision.interfaceGeneration
  message := alertMessage revision.alertCode

/-- The alert of a valid revision passes the sink's check. -/
theorem validateAlert_alertOf {revision : IncidentRevisionV1} (h : revision.validate = true) (evidenceStatus : EvidenceStatus) :
    validateAlert (alertOf revision evidenceStatus) = true := by
  have hmessage : ∀ code, messageAccepted (alertMessage code) = true := fun code => by cases code <;> decide
  simp only [IncidentRevisionV1.validate, Bool.and_eq_true, Bool.not_eq_true', Bool.or_eq_false_iff, decide_eq_false_iff_not, not_not] at h
  obtain ⟨⟨⟨⟨⟨⟨⟨⟨⟨-, hrevision⟩, -⟩, hifindex⟩, hgeneration⟩, hsequence⟩, -⟩, -⟩, hseverity⟩, -⟩ := h
  simp [validateAlert, alertOf, hmessage, hrevision, hsequence, hifindex, hgeneration, hseverity]

/-! ### The journal -/

namespace Json

def evidenceStatus : EvidenceStatus → String
  | .stored => "stored"
  | .unavailable => "unavailable"

def alertCode : AlertCode → String
  | .stormConfirmed => "storm_confirmed"
  | .externalLoopSuspected => "external_loop_suspected"
  | .externalLoopHighConfidence => "external_loop_high_confidence"
  | .incidentCooldown => "incident_cooldown"
  | .incidentClosed => "incident_closed"
  | .generationEnded => "generation_ended"
  | .outputDegraded => "output_degraded"

def alertSeverity : AlertSeverity → String
  | .information => "information"
  | .notice => "notice"
  | .warning => "warning"

def transitionReason : DetectionTransitionReason → String
  | .evidenceReady => "evidence_ready"
  | .stormAsserted => "storm_asserted"
  | .relationshipSuspected => "relationship_suspected"
  | .relationshipHighConfidence => "relationship_high_confidence"
  | .evidenceCleared => "evidence_cleared"
  | .cooldownCompleted => "cooldown_completed"
  | .evidenceUnavailable => "evidence_unavailable"
  | .evidenceRecovered => "evidence_recovered"
  | .samplerPaused => "sampler_paused"
  | .integrityFailure => "integrity_failure"

end Json

def journalPriority : AlertSeverity → Nat
  | .warning => 4
  | .notice => 5
  | .information => 6

/-- The lines of `journal_payload`, each as its name and its value. -/
def journalFields (alert : SanitizedAlertV1) : List (List Char × List Char) := [
  ("MESSAGE".toList, alert.message.toList),
  ("PRIORITY".toList, Nat.toDigits 10 (journalPriority alert.severity)),
  ("SYSLOG_IDENTIFIER".toList, "l2-loopd".toList),
  ("L2_LOOP_EVENT_ID".toList, eventIdText alert.eventId),
  ("L2_LOOP_EVIDENCE_STATUS".toList, (Json.evidenceStatus alert.evidenceStatus).toList),
  ("L2_LOOP_REVISION".toList, Nat.toDigits 10 alert.revision),
  ("L2_LOOP_TRANSITION_SEQUENCE".toList, Nat.toDigits 10 alert.transitionSequence),
  ("L2_LOOP_CODE".toList, (Json.alertCode alert.code).toList),
  ("L2_LOOP_PREVIOUS_STATE".toList, (stateText alert.previousState).toList),
  ("L2_LOOP_CURRENT_STATE".toList, (stateText alert.currentState).toList),
  ("L2_LOOP_REASON".toList, (Json.transitionReason alert.transitionReason).toList),
  ("L2_LOOP_INTERFACE".toList, alert.interface.toList),
  ("L2_LOOP_IFINDEX".toList, Nat.toDigits 10 alert.ifindex),
  ("L2_LOOP_GENERATION".toList, Nat.toDigits 10 alert.generation)]

def journalPayload (alert : SanitizedAlertV1) : List Char :=
  Text.unlines '\n' ((journalFields alert).map fun field => field.1 ++ '=' :: field.2)

/-- How the journal takes an entry apart. -/
def readJournal (payload : List Char) : Option (List (List Char × List Char)) :=
  (Text.splitInclusive '\n' payload).mapM fun line => Text.splitOnce '=' line.dropLast

section
variable {alert a b : SanitizedAlertV1}

theorem newline_not_mem_toDigits (n : Nat) : '\n' ∉ Nat.toDigits 10 n := fun h => by
  have hdigit := Nat.isDigit_of_mem_toDigits (by decide) (by decide) h
  revert hdigit
  decide

theorem newline_not_mem_eventIdText (eventId : EventId) : '\n' ∉ eventIdText eventId := fun h => by
  have hnibble := Hex.nibble_of_mem_digits h
  revert hnibble
  decide

theorem newline_not_mem_message (h : messageAccepted alert.message = true) : '\n' ∉ alert.message.toList := by
  intro hmem
  simp only [messageAccepted, Bool.and_eq_true, Bool.not_eq_true', List.any_eq_false] at h
  exact absurd (h.2 _ hmem) (by decide)

theorem newline_not_mem_interface (h : Control.InterfaceName.valid alert.interface = true) : '\n' ∉ alert.interface.toList := by
  intro hmem
  simp only [Control.InterfaceName.valid, Bool.and_eq_true, List.all_eq_true] at h
  exact absurd (h.2 _ hmem) (by decide)

/-- A field that the journal reads as it was meant. -/
structure PlainField (name value : List Char) : Prop where
  name : '=' ∉ name ∧ '\n' ∉ name
  value : '\n' ∉ value

theorem journalFields_plain (hmessage : messageAccepted alert.message = true)
    (hinterface : Control.InterfaceName.valid alert.interface = true) : ∀ field ∈ journalFields alert, PlainField field.1 field.2 := by
  have hstate : ∀ state, '\n' ∉ (stateText state).toList := fun state => by cases state <;> decide
  simp only [journalFields, List.forall_mem_cons, List.not_mem_nil, false_implies, implies_true, and_true]
  refine ⟨⟨by decide, newline_not_mem_message hmessage⟩, ⟨by decide, newline_not_mem_toDigits _⟩, ⟨by decide, by decide⟩,
    ⟨by decide, newline_not_mem_eventIdText _⟩, ⟨by decide, ?_⟩, ⟨by decide, newline_not_mem_toDigits _⟩,
    ⟨by decide, newline_not_mem_toDigits _⟩, ⟨by decide, ?_⟩, ⟨by decide, hstate _⟩, ⟨by decide, hstate _⟩, ⟨by decide, ?_⟩,
    ⟨by decide, newline_not_mem_interface hinterface⟩, ⟨by decide, newline_not_mem_toDigits _⟩,
    ⟨by decide, newline_not_mem_toDigits _⟩⟩
  · cases alert.evidenceStatus <;> decide
  · cases alert.code <;> decide
  · cases alert.transitionReason <;> decide

/-- Plain fields come back from a payload. -/
theorem readJournal_plain {fields : List (List Char × List Char)} (h : ∀ field ∈ fields, PlainField field.1 field.2) :
    readJournal (Text.unlines '\n' (fields.map fun field => field.1 ++ '=' :: field.2)) = some fields := by
  have hlines : ∀ line ∈ fields.map (fun field => field.1 ++ '=' :: field.2), '\n' ∉ line := by
    intro line hline
    obtain ⟨field, hfield, rfl⟩ := List.mem_map.mp hline
    have hplain := h field hfield
    simp only [List.mem_append, List.mem_cons, not_or]
    exact ⟨hplain.name.2, by decide, hplain.value⟩
  rw [readJournal, Text.splitInclusive_unlines hlines, List.map_map]
  induction fields with
  | nil => rfl
  | cons field rest ih =>
    obtain ⟨hfirst, hrest⟩ := List.forall_mem_cons.mp h
    have hsplit : Text.splitOnce '=' ((field.1 ++ '=' :: field.2) ++ ['\n']).dropLast = some (field.1, field.2) := by
      rw [List.dropLast_concat]
      exact Text.splitOnce_eq_some.mpr ⟨hfirst.name.1, rfl⟩
    rw [List.map_cons, List.mapM_cons]
    simp only [Function.comp_apply, hsplit, ih hrest (fun line hline => hlines line (List.mem_cons_of_mem _ hline))]
    rfl

theorem readJournal_journalPayload (hvalid : validateAlert alert = true) (hinterface : Control.InterfaceName.valid alert.interface = true) :
    readJournal (journalPayload alert) = some (journalFields alert) := by
  simp only [validateAlert, Bool.and_eq_true] at hvalid
  exact readJournal_plain (journalFields_plain hvalid.2 hinterface)

theorem toDigits_injective {m n : Nat} (h : Nat.toDigits 10 m = Nat.toDigits 10 n) : m = n := by
  rw [← Nat.ofDigitChars_ten_toDigits (n := m), h, Nat.ofDigitChars_ten_toDigits]

/-- A function is injective if every value can be found by its image. -/
theorem injective_of_find {α β : Type} [DecidableEq β] {f : α → β} (values : List α)
    (h : ∀ x, values.find? (fun y => f y = f x) = some x) : Function.Injective f := fun x y heq => by
  have hx := h x
  rw [heq, h y] at hx
  exact (Option.some.inj hx).symm

theorem stateText_injective : Function.Injective stateText :=
  injective_of_find [.warmingUp, .normal, .ingressStormConfirmed, .egressStormConfirmed, .bidirectionalStormConfirmed,
    .externalLoopSuspected, .externalLoopHighConfidence, .cooldown, .unavailable] fun x => by cases x <;> decide

theorem transitionReason_injective : Function.Injective Json.transitionReason :=
  injective_of_find [.evidenceReady, .stormAsserted, .relationshipSuspected, .relationshipHighConfidence, .evidenceCleared,
    .cooldownCompleted, .evidenceUnavailable, .evidenceRecovered, .samplerPaused, .integrityFailure] fun x => by cases x <;> decide

theorem alertCode_injective : Function.Injective Json.alertCode :=
  injective_of_find [.stormConfirmed, .externalLoopSuspected, .externalLoopHighConfidence, .incidentCooldown, .incidentClosed,
    .generationEnded, .outputDegraded] fun x => by cases x <;> decide

theorem evidenceStatus_injective : Function.Injective Json.evidenceStatus :=
  injective_of_find [.stored, .unavailable] fun x => by cases x <;> decide

theorem severity_of_valid (h : validateAlert alert = true) : alert.severity = alert.code.severity := by
  simp only [validateAlert, Bool.and_eq_true, Bool.not_eq_true', Bool.or_eq_false_iff, decide_eq_false_iff_not, not_not] at h
  exact h.1.2

theorem journalFields_injective (ha : validateAlert a = true) (hb : validateAlert b = true) (h : journalFields a = journalFields b) :
    a = b := by
  simp only [journalFields, List.cons.injEq, Prod.mk.injEq, true_and, and_true] at h
  obtain ⟨hmessage, -, hevent, hstatus, hrevision, hsequence, hcode, hprevious, hcurrent, hreason, hinterface, hifindex,
    hgeneration⟩ := h
  have hcode' := alertCode_injective (String.toList_inj.mp hcode)
  have hseverity : a.severity = b.severity := by rw [severity_of_valid ha, severity_of_valid hb, hcode']
  cases a
  cases b
  simp only [SanitizedAlertV1.mk.injEq]
  exact ⟨eventIdText_injective hevent, evidenceStatus_injective (String.toList_inj.mp hstatus), toDigits_injective hrevision,
    toDigits_injective hsequence, hcode', hseverity, stateText_injective (String.toList_inj.mp hprevious),
    stateText_injective (String.toList_inj.mp hcurrent), transitionReason_injective (String.toList_inj.mp hreason),
    String.toList_inj.mp hinterface, toDigits_injective hifindex, toDigits_injective hgeneration, String.toList_inj.mp hmessage⟩

/-- **The journal finds the fields of the alert and no others**, and no two alerts look alike in it. -/
theorem journal_reads_back (hvalid : validateAlert alert = true) (hinterface : Control.InterfaceName.valid alert.interface = true) :
    readJournal (journalPayload alert) = some (journalFields alert) ∧
      ∀ other, validateAlert other = true → Control.InterfaceName.valid other.interface = true →
        journalPayload other = journalPayload alert → other = alert := by
  have hread := readJournal_journalPayload hvalid hinterface
  refine ⟨hread, fun other hother hotherInterface heq => ?_⟩
  have hreadOther := readJournal_journalPayload hother hotherInterface
  rw [heq, hread] at hreadOther
  exact journalFields_injective hother hvalid (Option.some_inj.mp hreadOther).symm

/-- A stored revision and one that was not. -/
theorem journal_reads_back_sample :
    readJournal (journalPayload (alertOf (sampleRevision 5 1 1000 none) .stored)) =
        some (journalFields (alertOf (sampleRevision 5 1 1000 none) .stored)) ∧
      journalPayload (alertOf (sampleRevision 5 1 1000 none) .unavailable) ≠ journalPayload (alertOf (sampleRevision 5 1 1000 none) .stored) :=
  have hsample := @journal_reads_back (alertOf (sampleRevision 5 1 1000 none) .stored) (by decide) (by decide)
  ⟨hsample.1, fun heq => absurd (hsample.2 _ (by decide) (by decide) heq) (by decide)⟩

end

/-! ### The line of JSON -/

/-- A character of a JSON string. -/
def escapeJson (c : Char) : List Char :=
  if c = '"' then ['\\', '"']
  else if c = '\\' then ['\\', '\\']
  else if c.toNat < 32 then
    if c.toNat = 8 then ['\\', 'b']
    else if c.toNat = 9 then ['\\', 't']
    else if c.toNat = 10 then ['\\', 'n']
    else if c.toNat = 12 then ['\\', 'f']
    else if c.toNat = 13 then ['\\', 'r']
    else "\\u".toList ++ Hex.digits 4 c.toNat
  else [c]

def jsonString (text : String) : List Char := '"' :: text.toList.flatMap escapeJson ++ ['"']

/-- The members of `JsonAlert`, each as its name and its text. -/
def jsonMembers (alert : SanitizedAlertV1) : List (String × List Char) := [
  ("schema_version", Nat.toDigits 10 1),
  ("event_id", jsonString (eventName alert.eventId)),
  ("evidence_status", jsonString (Json.evidenceStatus alert.evidenceStatus)),
  ("revision", Nat.toDigits 10 alert.revision),
  ("transition_sequence", Nat.toDigits 10 alert.transitionSequence),
  ("code", jsonString (Json.alertCode alert.code)),
  ("severity", jsonString (Json.alertSeverity alert.severity)),
  ("previous_state", jsonString (stateText alert.previousState)),
  ("current_state", jsonString (stateText alert.currentState)),
  ("transition_reason", jsonString (Json.transitionReason alert.transitionReason)),
  ("interface", jsonString alert.interface),
  ("ifindex", Nat.toDigits 10 alert.ifindex),
  ("generation", Nat.toDigits 10 alert.generation),
  ("message", jsonString alert.message)]

/-- An object without blanks. -/
def jsonObject (members : List (String × List Char)) : List Char :=
  '\x7b' :: [','].intercalate (members.map fun member => jsonString member.1 ++ ':' :: member.2) ++ ['\x7d']

def jsonAlert (alert : SanitizedAlertV1) : List Char := jsonObject (jsonMembers alert)

section
variable {alert : SanitizedAlertV1}

theorem newline_not_mem_escapeJson (c : Char) : '\n' ∉ escapeJson c := by
  unfold escapeJson
  split_ifs with _ _ hcontrol
  all_goals first
    | decide
    | skip
  · intro h
    rcases List.mem_append.mp h with h | h
    · exact absurd h (by decide)
    · have hnibble := Hex.nibble_of_mem_digits h
      revert hnibble
      decide
  · intro h
    rw [List.mem_singleton] at h
    subst h
    exact hcontrol (by decide)

theorem newline_not_mem_jsonString (text : String) : '\n' ∉ jsonString text := by
  simp only [jsonString, List.cons_append, List.mem_cons, List.mem_append, List.mem_flatMap, List.not_mem_nil, or_false, not_or,
    not_exists, not_and]
  exact ⟨by decide, fun c _ => newline_not_mem_escapeJson c, by decide⟩

theorem not_mem_intercalate {α : Type} {x : α} {separator : List α} {texts : List (List α)} (hseparator : x ∉ separator)
    (h : ∀ text ∈ texts, x ∉ text) : x ∉ separator.intercalate texts := by
  induction texts with
  | nil => exact List.not_mem_nil
  | cons text rest ih =>
    obtain ⟨hfirst, hrest⟩ := List.forall_mem_cons.mp h
    cases rest with
    | nil => rwa [List.intercalate_singleton]
    | cons next rest =>
      rw [List.intercalate_cons_cons, List.mem_append, List.mem_append, not_or, not_or]
      exact ⟨⟨hfirst, hseparator⟩, ih hrest⟩

theorem newline_not_mem_jsonObject {members : List (String × List Char)} (h : ∀ member ∈ members, '\n' ∉ member.2) :
    '\n' ∉ jsonObject members := by
  have hinner : '\n' ∉ [','].intercalate (members.map fun member => jsonString member.1 ++ ':' :: member.2) := by
    refine not_mem_intercalate (by decide) fun text htext => ?_
    obtain ⟨member, hmember, rfl⟩ := List.mem_map.mp htext
    rw [List.mem_append, List.mem_cons, not_or, not_or]
    exact ⟨newline_not_mem_jsonString _, by decide, h member hmember⟩
  simp only [jsonObject, List.cons_append, List.mem_cons, List.mem_append, List.not_mem_nil, or_false, not_or]
  exact ⟨by decide, hinner, by decide⟩

/-- **An alert is one line.** -/
theorem newline_not_mem_jsonAlert (alert : SanitizedAlertV1) : '\n' ∉ jsonAlert alert := by
  refine newline_not_mem_jsonObject ?_
  simp only [jsonMembers, List.forall_mem_cons, List.not_mem_nil, false_implies, implies_true, and_true,
    newline_not_mem_jsonString, newline_not_mem_toDigits, not_false_eq_true]

end

/-! ### The sink -/

inductive AlertPublishOutcome where
  | journald | stderrJson
  deriving DecidableEq, Repr

/-- What is handed to the outside. -/
inductive AlertWrite where
  | journal (payload : List Char)
  | stderr (line : List Char)
  deriving DecidableEq

def AlertWrite.isStderr : AlertWrite → Bool
  | .journal _ => false
  | .stderr _ => true

/-- Whether the next write to the journal, and the next one to stderr, succeeds. -/
structure AlertIo where
  journal : Bool
  stderr : Bool

structure LinuxAlertSink where
  stderrFallback : Bool
  publishedHealthCodes : List String
  deriving DecidableEq

namespace LinuxAlertSink

def new : LinuxAlertSink := ⟨false, []⟩

/-- The check of `publish_output_health` on its code; `len` counts bytes. -/
def healthCodeAccepted (code : String) : Bool :=
  !code.isEmpty && code.utf8ByteSize ≤ 64 && code.toList.all fun c => c.isUpper || c.isDigit || c == '_'

def healthLine (code : String) : List Char :=
  "\x7b\"schema_version\":1,\"kind\":\"output_health\",\"code\":".toList ++ jsonString code ++ ['\x7d', '\n']

/-- The flag that is returned, the sink, and what was written. A code counts as published even
if stderr fails. -/
def publishOutputHealth (io : AlertIo) (sink : LinuxAlertSink) (code : String) : Bool × LinuxAlertSink × Option AlertWrite :=
  if !healthCodeAccepted code || sink.publishedHealthCodes.contains code then (false, sink, none)
  else
    let sink := { sink with stderrFallback := true, publishedHealthCodes := code :: sink.publishedHealthCodes }
    if io.stderr then (true, sink, some (.stderr (healthLine code))) else (false, sink, none)

def writeJson (io : AlertIo) (sink : LinuxAlertSink) (alert : SanitizedAlertV1) :
    Option AlertPublishOutcome × LinuxAlertSink × Option AlertWrite :=
  if io.stderr then (some .stderrJson, sink, some (.stderr (jsonAlert alert ++ ['\n']))) else (none, sink, none)

/-- `publish`; an error has no outcome. -/
def publish (io : AlertIo) (sink : LinuxAlertSink) (alert : SanitizedAlertV1) :
    Option AlertPublishOutcome × LinuxAlertSink × Option AlertWrite :=
  if !validateAlert alert then (none, sink, none)
  else if sink.stderrFallback then writeJson io sink alert
  else if io.journal then (some .journald, sink, some (.journal (journalPayload alert)))
  else writeJson io { sink with stderrFallback := true } alert

end LinuxAlertSink

inductive AlertCall where
  | publish (io : AlertIo) (alert : SanitizedAlertV1)
  | publishOutputHealth (io : AlertIo) (code : String)

namespace AlertCall

def apply (sink : LinuxAlertSink) : AlertCall → LinuxAlertSink
  | .publish io alert => (sink.publish io alert).2.1
  | .publishOutputHealth io code => (sink.publishOutputHealth io code).2.1

def write (sink : LinuxAlertSink) : AlertCall → Option AlertWrite
  | .publish io alert => (sink.publish io alert).2.2
  | .publishOutputHealth io code => (sink.publishOutputHealth io code).2.2

end AlertCall

/-- The observer keeps what was written, with the call that wrote it. -/
def alerting : Recorder LinuxAlertSink AlertCall (AlertCall × AlertWrite) where
  step := AlertCall.apply
  note := fun sink call log => ((call.write sink).map fun write => (call, write)).toList ++ log

/-- What a call may write: the text of an alert that passes the check, or the line of a code. -/
inductive Writes : AlertCall → AlertWrite → Prop where
  | journal (io : AlertIo) {alert : SanitizedAlertV1} (valid : validateAlert alert = true) :
      Writes (.publish io alert) (.journal (journalPayload alert))
  | json (io : AlertIo) {alert : SanitizedAlertV1} (valid : validateAlert alert = true) :
      Writes (.publish io alert) (.stderr (jsonAlert alert ++ ['\n']))
  | health (io : AlertIo) {code : String} (accepted : LinuxAlertSink.healthCodeAccepted code = true) :
      Writes (.publishOutputHealth io code) (.stderr (LinuxAlertSink.healthLine code))

def AlertCall.healthCode : AlertCall → Option String
  | .publish _ _ => none
  | .publishOutputHealth _ code => some code

/-- The health codes that were written, the newest first. -/
def healthCodesOf (log : List (AlertCall × AlertWrite)) : List String := log.filterMap fun entry => entry.1.healthCode

section
variable {sink : LinuxAlertSink} {io : AlertIo} {alert : SanitizedAlertV1} {code : String} {call : AlertCall} {write : AlertWrite}
  {log : List (AlertCall × AlertWrite)}

/-- What a publish does: which of the two it writes, and what the sink makes of it. -/
structure PublishStep (sink : LinuxAlertSink) (io : AlertIo) (alert : SanitizedAlertV1) : Prop where
  outcome : (sink.publish io alert).1 =
    (sink.publish io alert).2.2.map fun write => if write.isStderr then .stderrJson else .journald
  codes : (sink.publish io alert).2.1.publishedHealthCodes = sink.publishedHealthCodes
  sticky : sink.stderrFallback = true → (sink.publish io alert).2.1.stderrFallback = true
  journal : ∀ write ∈ (sink.publish io alert).2.2, write.isStderr = false →
    sink.stderrFallback = false ∧ (sink.publish io alert).2.1 = sink
  stderr : ∀ write ∈ (sink.publish io alert).2.2, write.isStderr = true → (sink.publish io alert).2.1.stderrFallback = true
  writes : ∀ write ∈ (sink.publish io alert).2.2, Writes (.publish io alert) write

theorem publishStep (sink : LinuxAlertSink) (io : AlertIo) (alert : SanitizedAlertV1) : PublishStep sink io alert := by
  have hnone : ∀ P : AlertWrite → Prop, ∀ write ∈ (none : Option AlertWrite), P write := fun _ _ h => absurd h (Option.not_mem_none _)
  -- the line of JSON, from a sink that has turned to stderr
  have hjson : ∀ turned : LinuxAlertSink, validateAlert alert = true → turned.stderrFallback = true →
      turned.publishedHealthCodes = sink.publishedHealthCodes → sink.publish io alert = turned.writeJson io alert →
      PublishStep sink io alert := by
    intro turned hvalid hturned hcodes hpublish
    rw [LinuxAlertSink.writeJson] at hpublish
    split at hpublish
    case isTrue =>
      constructor <;> rw [hpublish]
      · rfl
      · exact hcodes
      · exact fun _ => hturned
      · rintro _ ⟨⟩ hno
        cases hno
      · exact fun _ _ _ => hturned
      · rintro _ ⟨⟩
        exact .json io hvalid
    case isFalse =>
      constructor <;> rw [hpublish]
      · rfl
      · exact hcodes
      · exact fun _ => hturned
      · exact hnone _
      · exact hnone _
      · exact hnone _
  have hunfold := LinuxAlertSink.publish.eq_1 io sink alert
  split at hunfold
  case isTrue =>
    constructor <;> rw [hunfold]
    · rfl
    · exact id
    · exact hnone _
    · exact hnone _
    · exact hnone _
  case isFalse hvalid =>
    rw [Bool.not_eq_true', Bool.not_eq_false] at hvalid
    split at hunfold
    case isTrue hfallback => exact hjson sink hvalid hfallback rfl hunfold
    case isFalse hjournald =>
      rw [Bool.not_eq_true] at hjournald
      split at hunfold
      case isTrue =>
        constructor <;> rw [hunfold]
        · rfl
        · exact id
        · exact fun _ _ _ => ⟨hjournald, rfl⟩
        · rintro _ ⟨⟩ hno
          cases hno
        · rintro _ ⟨⟩
          exact .journal io hvalid
      case isFalse => exact hjson { sink with stderrFallback := true } hvalid rfl rfl hunfold

/-- What the publication of a health code does. -/
inductive HealthStep (sink : LinuxAlertSink) (io : AlertIo) (code : String) : LinuxAlertSink → Option AlertWrite → Prop where
  | refused : HealthStep sink io code sink none
  | published {write : Option AlertWrite} (accepted : LinuxAlertSink.healthCodeAccepted code = true)
      (new : code ∉ sink.publishedHealthCodes) (line : ∀ w ∈ write, w = .stderr (LinuxAlertSink.healthLine code)) :
      HealthStep sink io code { sink with stderrFallback := true, publishedHealthCodes := code :: sink.publishedHealthCodes } write

theorem healthStep (sink : LinuxAlertSink) (io : AlertIo) (code : String) :
    HealthStep sink io code (sink.publishOutputHealth io code).2.1 (sink.publishOutputHealth io code).2.2 := by
  rw [LinuxAlertSink.publishOutputHealth]
  split
  case isTrue => exact .refused
  case isFalse haccepted =>
    simp only [Bool.or_eq_true, Bool.not_eq_true', not_or, Bool.not_eq_false, Bool.not_eq_true, List.contains_eq_mem,
      decide_eq_false_iff_not] at haccepted
    dsimp only
    split
    · exact .published haccepted.1 haccepted.2 fun w hw => (Option.some.inj hw).symm
    · exact .published haccepted.1 haccepted.2 fun w hw => absurd hw (Option.not_mem_none _)

theorem healthCodesOf_cons : healthCodesOf ((call, write) :: log) = call.healthCode.toList ++ healthCodesOf log := by
  rw [healthCodesOf, List.filterMap_cons]
  cases call.healthCode <;> rfl

/-- What a sink's past has been. -/
structure Published (sink : LinuxAlertSink) (log : List (AlertCall × AlertWrite)) : Prop where
  ordered : ∃ stderrs journals, log = stderrs ++ journals ∧ (∀ entry ∈ stderrs, entry.2.isStderr = true) ∧
    (∀ entry ∈ journals, entry.2.isStderr = false) ∧ (stderrs ≠ [] → sink.stderrFallback = true)
  codes : (healthCodesOf log).Nodup ∧ ∀ code ∈ healthCodesOf log, code ∈ sink.publishedHealthCodes
  writes : ∀ entry ∈ log, Writes entry.1 entry.2

theorem Published.stays (h : Published sink log) {after : LinuxAlertSink} (hsticky : sink.stderrFallback = true → after.stderrFallback = true)
    (hcodes : ∀ code ∈ sink.publishedHealthCodes, code ∈ after.publishedHealthCodes) : Published after log := by
  obtain ⟨stderrs, journals, hlog, hstderr, hjournal, hfallback⟩ := h.ordered
  exact ⟨⟨stderrs, journals, hlog, hstderr, hjournal, fun hne => hsticky (hfallback hne)⟩,
    ⟨h.codes.1, fun code hcode => hcodes code (h.codes.2 code hcode)⟩, h.writes⟩

/-- One more line on stderr. -/
theorem Published.stderr (h : Published sink log) (hstderr : write.isStderr = true) (hwrites : Writes call write)
    (hfallback : sink.stderrFallback = true)
    (hcode : ∀ code ∈ call.healthCode, code ∉ healthCodesOf log ∧ code ∈ sink.publishedHealthCodes) :
    Published sink ((call, write) :: log) := by
  obtain ⟨stderrs, journals, hlog, hearlier, hjournal, -⟩ := h.ordered
  refine ⟨⟨(call, write) :: stderrs, journals, by rw [hlog]; rfl, List.forall_mem_cons.mpr ⟨hstderr, hearlier⟩, hjournal,
    fun _ => hfallback⟩, ?_, List.forall_mem_cons.mpr ⟨hwrites, h.writes⟩⟩
  cases hcall : call.healthCode with
  | none =>
    rw [healthCodesOf_cons, hcall]
    exact h.codes
  | some code =>
    obtain ⟨hnew, hpublished⟩ := hcode code hcall
    rw [healthCodesOf_cons, hcall]
    exact ⟨List.nodup_cons.mpr ⟨hnew, h.codes.1⟩, List.forall_mem_cons.mpr ⟨hpublished, h.codes.2⟩⟩

/-- One more entry in the journal. -/
theorem Published.journal (h : Published sink log) (hjournal : write.isStderr = false) (hwrites : Writes call write)
    (hjournald : sink.stderrFallback = false) (hcall : call.healthCode = none) : Published sink ((call, write) :: log) := by
  obtain ⟨stderrs, journals, hlog, -, hearlier, hfallback⟩ := h.ordered
  have hnone : stderrs = [] := by
    by_contra hne
    rw [hfallback hne] at hjournald
    cases hjournald
  subst hnone
  refine ⟨⟨[], (call, write) :: journals, by rw [hlog]; rfl, fun _ hmem => absurd hmem List.not_mem_nil,
    List.forall_mem_cons.mpr ⟨hjournal, hearlier⟩, fun hne => absurd rfl hne⟩, ?_, List.forall_mem_cons.mpr ⟨hwrites, h.writes⟩⟩
  rw [healthCodesOf_cons, hcall]
  exact h.codes

theorem Published.step (h : Published sink log) (call : AlertCall) :
    Published (alerting.step sink call) (alerting.note sink call log) := by
  cases call with
  | publish io alert =>
    have hstep := publishStep sink io alert
    have hafter := h.stays hstep.sticky fun code hcode => hstep.codes ▸ hcode
    show Published (sink.publish io alert).2.1 (((sink.publish io alert).2.2.map _).toList ++ log)
    cases hwrite : (sink.publish io alert).2.2 with
    | none => exact hafter
    | some write =>
      have hwrites := hstep.writes write hwrite
      cases hkind : write.isStderr with
      | true =>
        exact hafter.stderr hkind hwrites (hstep.stderr write hwrite hkind) fun code hcode => absurd hcode (Option.not_mem_none _)
      | false =>
        obtain ⟨hjournald, hsame⟩ := hstep.journal write hwrite hkind
        rw [hsame]
        exact h.journal hkind hwrites hjournald rfl
  | publishOutputHealth io code =>
    show Published (sink.publishOutputHealth io code).2.1 (((sink.publishOutputHealth io code).2.2.map _).toList ++ log)
    have hstep := healthStep sink io code
    generalize (sink.publishOutputHealth io code).2.1 = after, (sink.publishOutputHealth io code).2.2 = written at hstep
    cases hstep with
    | refused => exact h
    | published accepted new line =>
      have hafter : Published { sink with stderrFallback := true, publishedHealthCodes := code :: sink.publishedHealthCodes } log :=
        h.stays (fun _ => rfl) fun _ hcode => List.mem_cons_of_mem _ hcode
      cases written with
      | none => exact hafter
      | some write =>
        obtain rfl := line write rfl
        refine hafter.stderr rfl (.health io accepted) rfl fun _ hcode => ?_
        cases hcode
        exact ⟨fun hold => new (h.codes.2 code hold), List.mem_cons_self⟩

/-- **Once stderr has been used the journal never is again**, in every run of a sink; every text
that is written is that of an accepted alert or code, and no code is written twice. -/
theorem sink_run (calls : List AlertCall) :
    let after := alerting.run (LinuxAlertSink.new, []) calls
    (∃ stderrs journals, after.2 = stderrs ++ journals ∧ (∀ entry ∈ stderrs, entry.2.isStderr = true) ∧
      ∀ entry ∈ journals, entry.2.isStderr = false) ∧
      (∀ entry ∈ after.2, Writes entry.1 entry.2) ∧ (healthCodesOf after.2).Nodup := by
  intro after
  have hpublished : Published after.1 after.2 := alerting.run_invariant Published (fun sink log call h => h.step call)
    (LinuxAlertSink.new, []) calls ⟨⟨[], [], rfl, fun _ hmem => absurd hmem List.not_mem_nil,
      fun _ hmem => absurd hmem List.not_mem_nil, fun hne => absurd rfl hne⟩, ⟨List.nodup_nil,
      fun _ hmem => absurd hmem List.not_mem_nil⟩, fun _ hmem => absurd hmem List.not_mem_nil⟩
  obtain ⟨stderrs, journals, hlog, hstderr, hjournal, -⟩ := hpublished.ordered
  exact ⟨⟨stderrs, journals, hlog, hstderr, hjournal⟩, hpublished.writes, hpublished.codes.1⟩

end

end NetworkLoop.Evidence
