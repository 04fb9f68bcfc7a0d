import NetworkLoop.Library.Recorder
import NetworkLoop.Observation.Integrity
import NetworkLoop.Observation.Scans

/-! The analysis schedule.

The deadlines of `advance_analysis_deadline` lie on a grid of ten seconds from the start
of the session; a scan is made by the first tick at or after its deadline. A window is
ready when ten to fifteen seconds lie between two scans. The scan after a late one comes
too early for that, and the one after it too late.

A run is followed together with what its hypotheses speak of: when the last tick was and
what the last scan brought (`Sampler`). `analysis_windows_ready`: when every scan comes
at least ten seconds after the one before, and nothing else disturbs the ticks, every
analysis after the first leaves a ready window. -/
namespace NetworkLoop.Observation
open Library Detection

/-! ### The grid -/

/-- A deadline that is passed moves to the next point of its grid. -/
theorem advanceAnalysisDeadline_eq_some {deadline nowNs next : Nat} (hd : deadline ≤ nowNs)
    (h : advanceAnalysisDeadline deadline nowNs = some next) : nowNs < next ∧ next ≤ nowNs + 10000000000 := by
  unfold advanceAnalysisDeadline analysisPeriodNs at h
  dsimp only at h
  split at h
  · have := checkedAdd_eq_some h
    omega
  · cases h

/-- The end of the clock is final. -/
theorem advanceAnalysisDeadline_none_mono {deadline a b : Nat} (hab : a ≤ b)
    (h : advanceAnalysisDeadline deadline a = none) : advanceAnalysisDeadline deadline b = none := by
  have hmono : ((a - deadline) / analysisPeriodNs + 1) * analysisPeriodNs ≤
      ((b - deadline) / analysisPeriodNs + 1) * analysisPeriodNs :=
    Nat.mul_le_mul_right _ (Nat.add_le_add_right (Nat.div_le_div_right (by omega)) 1)
  unfold advanceAnalysisDeadline checkedAdd at h ⊢
  dsimp only at h ⊢
  split
  · rename_i hb
    rw [if_pos (Nat.lt_of_le_of_lt hmono hb)] at h
    split at h
    · cases h
    · rename_i ha
      rw [if_neg (by omega)]
  · rfl

/-! ### Runs -/

structure Scan where
  nowNs : Nat
  nowMs : Nat
  evidence : List FingerprintEvidence
  deriving DecidableEq

/-- The scan as the window history keeps it. -/
def Scan.endpoint (s : Scan) : FingerprintEndpoint := ⟨s.nowNs, s.nowMs, sortEntries s.evidence⟩

/-- A service and the past of its run. -/
structure Sampler where
  service : SamplingService
  lastTickNs : Option Nat
  lastScan : Option Scan

namespace Sampler

/-- The tick is a `BackgroundAnalysis` tick. -/
def due (st : Sampler) (i : TickInput) : Bool := (st.service.schedule i.nowNs).any (·.1)

/-- What an analysis tick brings home. -/
def scan? (st : Sampler) (i : TickInput) : Option Scan :=
  if st.due i then
    match i.reader.reply .backgroundAnalysis, i.capturedAtUnixMs with
    | .ok raw, some nowMs =>
      match raw.fingerprints with
      | .available evidence => some ⟨i.nowNs, nowMs, evidence⟩
      | _ => none
    | _, _ => none
  else none

def next (own : OwnershipRecord) (st : Sampler) (i : TickInput) : Sampler where
  service := st.service.sampleTick own i
  lastTickNs := some i.nowNs
  lastScan := (st.scan? i).or st.lastScan

/-- The report that is cached. -/
def report (st : Sampler) : Option FingerprintWindowReport := st.service.components.map (·.fingerprintWindow.report)

end Sampler

/-- The observer writes down the report that each analysis tick leaves. -/
def sampling (own : OwnershipRecord) : Recorder Sampler TickInput FingerprintWindowReport where
  step := Sampler.next own
  note := fun st i log => if st.due i then (st.next own i).report.toList ++ log else log

/-- The history accepts the sample of the tick and nothing refuses it after that. -/
def Components.accepts (c : Components) (own : OwnershipRecord) (due : Bool) (i : TickInput) : Bool :=
  match i.reader.reply (if due then .backgroundAnalysis else .backgroundSample), i.capturedAtUnixMs with
  | .ok raw, some nowMs =>
    match rateSample raw i.nowNs nowMs with
    | none => false
    | some sample =>
      raw.ifindex == own.ifindex && raw.generation == own.generation && (c.history.refusal sample true).isNone &&
        match (c.history.insert sample).2.detailedWindows i.nowNs with
        | .ok windows => !c.refuses due raw.fingerprints windows i.nowNs nowMs
        | .error _ => false
  | _, _ => false

/-- What a run of ticks is promised: ticks 1 s to 1.5 s apart, reads that succeed, and
scans that are valid and do not go back. -/
structure Promised (identity : RateIdentity) (st : Sampler) (i : TickInput) : Prop where
  spaced : ∀ last ∈ st.lastTickNs, last + 1000000000 ≤ i.nowNs ∧ i.nowNs ≤ last + 1500000000
  reads : (i.reader.reply (if st.due i then .backgroundAnalysis else .backgroundSample)).isOk = true
  scans : st.due i = true → (st.scan? i).any (fun scan => (validateScan identity scan.evidence).isOk) = true
  forward : ∀ scan ∈ st.scan? i, ∀ last ∈ st.lastScan,
    NonRegressing (sortEntries last.evidence) (sortEntries scan.evidence)

instance (identity : RateIdentity) (st : Sampler) (i : TickInput) : Decidable (Promised identity st i) :=
  decidable_of_iff (_ ∧ _ ∧ _ ∧ _) ⟨fun ⟨a, b, c, d⟩ => ⟨a, b, c, d⟩, fun ⟨a, b, c, d⟩ => ⟨a, b, c, d⟩⟩

/-- What it needs beyond that: no tick is refused, no scan comes earlier than ten seconds
after the one before or with a wall clock behind it, and no window has a relation on both
sides without an egress packet. -/
structure Undisturbed (own : OwnershipRecord) (st : Sampler) (i : TickInput) : Prop where
  accepted : ∀ c ∈ st.service.components, ∀ scheduled ∈ st.service.schedule i.nowNs,
    c.accepts own scheduled.1 i = true
  apart : ∀ scan ∈ st.scan? i, ∀ last ∈ st.lastScan, last.nowNs + 10000000000 ≤ scan.nowNs
  wall : ∀ scan ∈ st.scan? i, ∀ last ∈ st.lastScan, last.nowMs ≤ scan.nowMs
  balanced : ∀ scan ∈ st.scan? i, ∀ last ∈ st.lastScan,
    lopsided (sortEntries last.evidence) (sortEntries scan.evidence) = false

instance (own : OwnershipRecord) (st : Sampler) (i : TickInput) : Decidable (Undisturbed own st i) :=
  decidable_of_iff (_ ∧ _ ∧ _ ∧ _) ⟨fun ⟨a, b, c, d⟩ => ⟨a, b, c, d⟩, fun ⟨a, b, c, d⟩ => ⟨a, b, c, d⟩⟩

/-! ### One tick -/

/-- What holds between the ticks: the endpoint of the window is the last scan, the next
deadline is at most ten seconds after it, and the last tick was before that deadline (or the
clock is too near its end for another one). -/
structure OnSchedule (identity : RateIdentity) (st : Sampler) (log : List FingerprintWindowReport) : Prop where
  components : ∃ c deadline, st.service.components = some c ∧ st.service.nextAnalysisAtNs = some deadline ∧
    c.fingerprintWindow.identity = identity ∧ c.fingerprintWindow.endpoint = st.lastScan.map Scan.endpoint ∧
    ∀ scan, st.lastScan = some scan → deadline ≤ scan.nowNs + 10000000000 ∧
      ∃ last, st.lastTickNs = some last ∧ (last < deadline ∨ advanceAnalysisDeadline deadline last = none)
  first : st.lastScan = none → log = []
  ready : ∀ report ∈ log.dropLast, report.state = .ready ∧ 10000 ≤ report.coverageMs ∧ report.coverageMs ≤ 15000

theorem Components.accepts_eq_true {c : Components} {own : OwnershipRecord} {due : Bool} {i : TickInput}
    (h : c.accepts own due i = true) :
    ∃ raw nowMs sample windows,
      i.reader.reply (if due then .backgroundAnalysis else .backgroundSample) = .ok raw ∧
      raw.ifindex = own.ifindex ∧ raw.generation = own.generation ∧ i.capturedAtUnixMs = some nowMs ∧
      rateSample raw i.nowNs nowMs = some sample ∧ c.history.refusal sample true = none ∧
      (c.history.insert sample).2.detailedWindows i.nowNs = .ok windows ∧
      c.refuses due raw.fingerprints windows i.nowNs nowMs = false := by
  unfold accepts at h
  split at h
  · rename_i raw nowMs hr hms
    split at h
    · cases h
    · rename_i sample hs
      simp only [Bool.and_eq_true, beq_iff_eq, Option.isNone_iff_eq_none] at h
      obtain ⟨⟨⟨hif, hgen⟩, hrefusal⟩, hwindows⟩ := h
      split at hwindows
      · rename_i windows hw
        exact ⟨raw, nowMs, sample, windows, hr, hif, hgen, hms, hs, hrefusal, hw, by simpa using hwindows⟩
      · cases hwindows
  · cases h

/-- The fingerprint window that an accepted tick leaves. -/
theorem Components.tick_window {c : Components} {own : OwnershipRecord} {due : Bool} {i : TickInput}
    (h : c.accepts own due i = true) :
    ∃ raw nowMs, i.reader.reply (if due then .backgroundAnalysis else .backgroundSample) = .ok raw ∧
      i.capturedAtUnixMs = some nowMs ∧
      ∀ w, c.windowAfter due raw.fingerprints i.nowNs nowMs = some w → (c.tick own due i).1.fingerprintWindow = w := by
  obtain ⟨raw, nowMs, sample, windows, hr, hif, hgen, hms, hs, hrefusal, hw, hrefuses⟩ := accepts_eq_true h
  refine ⟨raw, nowMs, hr, hms, fun w hwindow => ?_⟩
  rw [tick_of_accepted hr hif hgen hms hs hrefusal hw]
  have hj := judge_cases {c with history := (c.history.insert sample).2} own due raw.fingerprints windows i.nowNs nowMs
  generalize ({c with history := (c.history.insert sample).2} : Components).judge own due raw.fingerprints windows
    i.nowNs nowMs = ticked at hj
  obtain ⟨left, exit⟩ := ticked
  exact hj.window hrefuses hwindow

/-- The three things `schedule` can say. -/
theorem SamplingService.schedule_cases {s : SamplingService} {deadline : Nat} (h : s.nextAnalysisAtNs = some deadline)
    (nowNs : Nat) :
    (s.schedule nowNs = some (false, some deadline) ∧ nowNs < deadline) ∨
      (∃ next, s.schedule nowNs = some (true, some next) ∧ nowNs < next ∧ next ≤ nowNs + 10000000000 ∧
        deadline ≤ nowNs ∧ advanceAnalysisDeadline deadline nowNs = some next) ∨
      (s.schedule nowNs = none ∧ advanceAnalysisDeadline deadline nowNs = none) := by
  unfold schedule
  rw [h]
  dsimp only
  by_cases hd : nowNs ≥ deadline
  · rw [if_pos hd]
    cases ha : advanceAnalysisDeadline deadline nowNs with
    | none => exact .inr (.inr ⟨rfl, rfl⟩)
    | some next =>
      obtain ⟨hlt, hle⟩ := advanceAnalysisDeadline_eq_some hd ha
      exact .inr (.inl ⟨next, rfl, hlt, hle, hd, rfl⟩)
  · rw [if_neg hd]
    exact .inl ⟨rfl, Nat.not_le.mp hd⟩

section
variable {identity : RateIdentity} {own : OwnershipRecord} {st : Sampler} {log : List FingerprintWindowReport} {i : TickInput}

/-- What `scan?` has of an analysis tick. -/
theorem Sampler.scan?_eq_some {scan : Scan} (h : st.scan? i = some scan) :
    ∃ raw, i.reader.reply .backgroundAnalysis = .ok raw ∧ raw.fingerprints = .available scan.evidence ∧
      i.capturedAtUnixMs = some scan.nowMs ∧ scan.nowNs = i.nowNs := by
  unfold scan? at h
  split at h
  · split at h
    · rename_i raw nowMs hr hms
      split at h
      · rename_i evidence hf
        cases h
        exact ⟨raw, hr, hf, hms, rfl⟩
      · cases h
    · cases h
  · cases h

/-- An analysis tick that nothing disturbs leaves its scan as the endpoint, and a ready
window unless it is the first. -/
theorem OnSchedule.analysed (hp : Promised identity st i) (hu : Undisturbed own st i) {c : Components}
    (hc : st.service.components = some c) {next : Option Nat} (hs : st.service.schedule i.nowNs = some (true, next))
    (hid : c.fingerprintWindow.identity = identity)
    (hend : c.fingerprintWindow.endpoint = st.lastScan.map Scan.endpoint)
    (hlate : ∀ last, st.lastScan = some last → i.nowNs ≤ last.nowNs + 15000000000) :
    ∃ scan, st.scan? i = some scan ∧ scan.nowNs = i.nowNs ∧
      (c.tick own true i).1.fingerprintWindow.identity = identity ∧
      (c.tick own true i).1.fingerprintWindow.endpoint = some scan.endpoint ∧
      (st.lastScan ≠ none → (c.tick own true i).1.fingerprintWindow.report.state = .ready ∧
        10000 ≤ (c.tick own true i).1.fingerprintWindow.report.coverageMs ∧
        (c.tick own true i).1.fingerprintWindow.report.coverageMs ≤ 15000) := by
  have hdue : st.due i = true := by rw [Sampler.due, hs]; rfl
  have hscans := hp.scans hdue
  cases hscan : st.scan? i with
  | none => rw [hscan] at hscans; cases hscans
  | some scan =>
    obtain ⟨raw, hr, hf, hms, hns⟩ := Sampler.scan?_eq_some hscan
    cases hv : validateScan identity scan.evidence with
    | error e =>
      rw [hscan, Option.any_some, hv] at hscans
      cases hscans
    | ok entries =>
      obtain ⟨rfl, -⟩ := validateScan_sized hv
      obtain ⟨raw', nowMs, hr', hms', hwindow⟩ := Components.tick_window (hu.accepted c hc (true, next) hs)
      rw [if_pos rfl, hr] at hr'
      cases hr'
      rw [hms] at hms'
      cases hms'
      -- what the scan makes of the window
      have hrecord : ∃ report, c.fingerprintWindow.recordScan i.nowNs scan.nowMs scan.evidence =
            (.ok (), {c.fingerprintWindow with endpoint := some scan.endpoint, report := report}) ∧
          (st.lastScan ≠ none → report.state = .ready ∧ 10000 ≤ report.coverageMs ∧ report.coverageMs ≤ 15000) := by
        rw [Scan.endpoint, ← hns]
        cases hlast : st.lastScan with
        | none =>
          rw [hlast] at hend
          exact ⟨.warming, FingerprintWindowHistory.recordScan_first hend (hid ▸ hv), fun h => absurd rfl h⟩
        | some last =>
          rw [hlast] at hend
          have hhigh := hlate last hlast
          rw [← hns] at hhigh
          obtain ⟨report, hreport, hready⟩ := FingerprintWindowHistory.recordScan_ready hend (hid ▸ hv)
            (hp.forward scan hscan last hlast) (hu.balanced scan hscan last hlast) (hu.wall scan hscan last hlast)
            (hu.apart scan hscan last hlast) hhigh
          exact ⟨report, hreport, fun _ => hready⟩
      obtain ⟨report, hreport, hready⟩ := hrecord
      have hafter : c.windowAfter true raw.fingerprints i.nowNs scan.nowMs =
          some {c.fingerprintWindow with endpoint := some scan.endpoint, report := report} := by
        unfold Components.windowAfter
        rw [if_pos rfl, hf]
        dsimp only
        rw [hreport]
      rw [hwindow _ hafter]
      exact ⟨scan, rfl, hns, hid, rfl, hready⟩

/-- A tick that is no analysis and leaves the endpoint alone keeps to the schedule. -/
theorem OnSchedule.idle {c : Components} {deadline : Nat} (hdue : st.due i = false)
    (hc : ((sampling own).step st i).service.components = some c)
    (hdeadline : ((sampling own).step st i).service.nextAnalysisAtNs = some deadline)
    (hid : c.fingerprintWindow.identity = identity)
    (hend : c.fingerprintWindow.endpoint = st.lastScan.map Scan.endpoint)
    (hbound : ∀ scan, st.lastScan = some scan → deadline ≤ scan.nowNs + 10000000000)
    (hnow : i.nowNs < deadline ∨ advanceAnalysisDeadline deadline i.nowNs = none)
    (hfirst : st.lastScan = none → log = [])
    (hready : ∀ report ∈ log.dropLast, report.state = .ready ∧ 10000 ≤ report.coverageMs ∧ report.coverageMs ≤ 15000) :
    OnSchedule identity ((sampling own).step st i) ((sampling own).note st i log) := by
  have hscan : st.scan? i = none := by rw [Sampler.scan?, hdue]; rfl
  have hlog : (sampling own).note st i log = log := by simp [sampling, hdue]
  have hlast : ((sampling own).step st i).lastScan = st.lastScan := by simp [sampling, Sampler.next, hscan]
  rw [hlog]
  exact ⟨⟨c, deadline, hc, hdeadline, hid, by rw [hlast]; exact hend, fun scan hscan =>
    ⟨hbound scan (hlast ▸ hscan), i.nowNs, rfl, hnow⟩⟩, fun hnone => hfirst (hlast ▸ hnone), hready⟩

/-- A tick keeps to the schedule. -/
theorem OnSchedule.step (h : OnSchedule identity st log) (hp : Promised identity st i) (hu : Undisturbed own st i) :
    OnSchedule identity ((sampling own).step st i) ((sampling own).note st i log) := by
  obtain ⟨⟨c, deadline, hc, hdeadline, hid, hend, hscans⟩, hfirst, hready⟩ := h
  obtain ⟨hcapture, hcapture'⟩ := SamplingService.captureIncidentTransitions_frame (st.service.sampleTickInner own i).1
  obtain ⟨hs, hlt⟩ | ⟨next, hs, hlt, hle, hpast, hadvance⟩ | ⟨hs, hadvance⟩ :=
    SamplingService.schedule_cases hdeadline i.nowNs
  · -- no analysis is due
    obtain ⟨hcomponents, hnext, -⟩ := SamplingService.sampleTickInner_of_schedule own hc hs
    obtain ⟨raw, nowMs, -, -, hwindow⟩ := Components.tick_window (hu.accepted c hc (false, some deadline) hs)
    have hsame := hwindow c.fingerprintWindow rfl
    exact OnSchedule.idle (by rw [Sampler.due, hs]; rfl) (hcapture.trans hcomponents) (hcapture'.trans hnext)
      (by rw [hsame]; exact hid) (by rw [hsame]; exact hend) (fun scan h => (hscans scan h).1) (.inl hlt) hfirst hready
  · -- an analysis: the last tick was before the deadline that is now passed
    have hlate : ∀ last, st.lastScan = some last → i.nowNs ≤ last.nowNs + 15000000000 := by
      intro last hlast
      obtain ⟨hbound, tick, htick, hbefore⟩ := hscans last hlast
      obtain ⟨hmin, hmax⟩ := hp.spaced tick htick
      obtain hbefore | hnone := hbefore
      · omega
      · rw [advanceAnalysisDeadline_none_mono (by omega) hnone] at hadvance
        cases hadvance
    obtain ⟨scan, hscan, hns, hid', hend', hready'⟩ := OnSchedule.analysed hp hu hc hs hid hend hlate
    have hdue : st.due i = true := by rw [Sampler.due, hs]; rfl
    obtain ⟨hcomponents, hnext, -⟩ := SamplingService.sampleTickInner_of_schedule own hc hs
    have hcomponents' := hcapture.trans hcomponents
    have hlog : (sampling own).note st i log = (c.tick own true i).1.fingerprintWindow.report :: log := by
      simp [sampling, hdue, Sampler.report, Sampler.next, SamplingService.sampleTick, hcomponents']
    have hlast : ((sampling own).step st i).lastScan = some scan := by simp [sampling, Sampler.next, hscan]
    rw [hlog]
    refine ⟨⟨(c.tick own true i).1, next, hcomponents', ?_, hid', ?_, ?_⟩, ?_, ?_⟩
    · exact hcapture'.trans hnext
    · rw [hlast]
      exact hend'
    · intro scan' hscan'
      rw [hlast] at hscan'
      cases hscan'
      exact ⟨by omega, i.nowNs, rfl, .inl hlt⟩
    · intro hnone
      rw [hlast] at hnone
      cases hnone
    · cases hprevious : st.lastScan with
      | none =>
        rw [hfirst hprevious]
        intro report hreport
        cases hreport
      | some last =>
        intro report hreport
        cases hempty : log with
        | nil =>
          rw [hempty] at hreport
          cases hreport
        | cons newest rest =>
          rw [hempty, List.dropLast_cons_cons] at hreport
          obtain rfl | hreport := List.mem_cons.mp hreport
          · exact hready' (by rw [hprevious]; exact Option.some_ne_none last)
          · exact hready report (by rw [hempty]; exact hreport)
  · -- the clock is at its end
    have hinner := SamplingService.sampleTickInner_of_overflow own hc hs
    exact OnSchedule.idle (by rw [Sampler.due, hs]; rfl) (hcapture.trans (by rw [hinner]; exact hc))
      (hcapture'.trans (by rw [hinner]; exact hdeadline)) hid hend (fun scan h => (hscans scan h).1) (.inr hadvance)
      hfirst hready

end

/-! ### Whole runs -/

/-- What a successful `start` leaves, whatever incidents the service then follows. -/
structure Started (identity : RateIdentity) (startNs startMs : Nat) (s : SamplingService) : Prop where
  components : s.components = some (.start identity startNs startMs)
  deadline : s.nextAnalysisAtNs = some (startNs + 10000000000)

/-- The sampler before its first tick. -/
def Sampler.begin (s : SamplingService) : Sampler := ⟨s, none, none⟩

/-- **Every analysis after the first leaves a ready window, in every run whose scans come
ten seconds apart and whose ticks are not disturbed otherwise.** -/
theorem analysis_windows_ready {identity : RateIdentity} {own : OwnershipRecord} {startNs startMs : Nat}
    {s : SamplingService} (hs : Started identity startNs startMs s) (ticks : List TickInput)
    (hrun : (sampling own).Obeys (fun st i => Promised identity st i ∧ Undisturbed own st i) (.begin s) ticks) :
    ∀ report ∈ ((sampling own).run (.begin s, []) ticks).2.dropLast,
      report.state = .ready ∧ 10000 ≤ report.coverageMs ∧ report.coverageMs ≤ 15000 := by
  have hbegin : OnSchedule identity (.begin s) [] :=
    ⟨⟨_, _, hs.components, hs.deadline, rfl, rfl, nofun⟩, fun _ => rfl, nofun⟩
  exact ((sampling own).run_invariant_under (OnSchedule identity) (fun st log i hrule h => h.step hrule.1 hrule.2)
    (.begin s, []) ticks hrun hbegin).ready

/-- Ticks of the quiet interface, a fixed time apart. -/
def quietTicks (periodMs count : Nat) : List TickInput :=
  (List.range count).map fun k => quietTick ((k + 1) * periodMs * 1000000) (1000 + (k + 1) * periodMs)

/-- Ticks 1.5 s apart: the scans are made at 10.5 s and at 21 s. -/
theorem analysis_windows_ready_quiet :
    (((sampling quietOwner).run (.begin quietStart, []) (quietTicks 1500 14)).2.map (·.state)) = [.ready, .warmingUp] ∧
      ∀ report ∈ ((sampling quietOwner).run (.begin quietStart, []) (quietTicks 1500 14)).2.dropLast,
        report.state = .ready ∧ 10000 ≤ report.coverageMs ∧ report.coverageMs ≤ 15000 := by
  refine ⟨by decide +kernel, ?_⟩
  have hs : Started ⟨7, 11, by decide, by decide⟩ 0 1000 quietStart := ⟨rfl, rfl⟩
  exact analysis_windows_ready hs (quietTicks 1500 14) (by decide +kernel)

/-- Ticks 1.4 s apart: the scans are made at 11.2 s and at 21 s, and the second is too early
for a window. -/
theorem analysis_too_early :
    (sampling quietOwner).Obeys (Promised ⟨7, 11, by decide, by decide⟩) (.begin quietStart) (quietTicks 1400 15) ∧
      (((sampling quietOwner).run (.begin quietStart, []) (quietTicks 1400 15)).2.map (·.state)) =
        [.warmingUp, .warmingUp] := by
  decide +kernel

end NetworkLoop.Observation
