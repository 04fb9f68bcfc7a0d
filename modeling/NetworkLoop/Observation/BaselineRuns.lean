import NetworkLoop.Observation.History
import NetworkLoop.Library.Recorder

/-! Runs of the baseline engine.

Sixteen series are learned from the same windows, each on its own: `subjectRates_named`
says that a series is fed with the rates that its report names, `subject_step` that a
call moves a series and its report as these rates say and no others, and
`subjects_independent` compares two runs. `report_valid` holds after any call.

A series learns what it does not report as elevated, with one exception: the sample
that completes the minimum is accepted first and judged against itself afterwards
(`Completing`). `elevated_teaches_nothing_iff` says that there is no other. -/
namespace NetworkLoop.Observation
open Library

namespace BaselineEngine

/-- The calls that change an engine. -/
inductive Call where
  | evaluateReadyWindow (window : DetailedRateWindow) (evaluatedAtUnixMs : Nat)
  | unavailable (evaluatedAtUnixMs : Nat) (code : String)
  | clearIntegrity (identity : RateIdentity) (evaluatedAtUnixMs : Nat) (code : String)

def apply (b : BaselineEngine) : Call → BaselineEngine
  | .evaluateReadyWindow window nowMs => (b.evaluateReadyWindow window nowMs).2
  | .unavailable nowMs code => b.unavailable nowMs code
  | .clearIntegrity identity nowMs code => b.clearIntegrity identity nowMs code

/-- Runs without anything to observe. -/
def recorder : Recorder BaselineEngine Call Unit where
  step := apply
  note := fun _ _ log => log

def after (b : BaselineEngine) (calls : List Call) : BaselineEngine := (recorder.run (b, []) calls).1

variable {b : BaselineEngine}

/-- The rates that a window teaches, when the engine accepts it: its end comes after the
last one's. -/
def admits (b : BaselineEngine) (window : DetailedRateWindow) : Option (Nat × (Fin 2 → HookRate)) :=
  (sourceOf window).filter fun source => !b.lastSourceEndUnixMs.any fun last => source.1 ≤ last

theorem evaluate_admitted {window : DetailedRateWindow} {nowMs sourceEnd : Nat} {hooks : Fin 2 → HookRate}
    (h : b.admits window = some (sourceEnd, hooks)) :
    b.evaluateReadyWindow window nowMs = (.ok (), b.accepted sourceEnd hooks nowMs) := by
  obtain ⟨hsource, hlast⟩ := Option.filter_eq_some_iff.mp h
  unfold evaluateReadyWindow
  rw [hsource]
  exact if_neg (by simpa using hlast)

theorem apply_admitted {window : DetailedRateWindow} (nowMs : Nat) {sourceEnd : Nat} {hooks : Fin 2 → HookRate}
    (h : b.admits window = some (sourceEnd, hooks)) :
    b.apply (.evaluateReadyWindow window nowMs) = b.accepted sourceEnd hooks nowMs :=
  congrArg Prod.snd (evaluate_admitted h)

theorem evaluate_refused {window : DetailedRateWindow} (nowMs : Nat) (h : b.admits window = none) :
    ∃ error code, b.evaluateReadyWindow window nowMs = (.error error, b.clearIntegrity b.identity nowMs code) := by
  unfold evaluateReadyWindow
  cases hsource : sourceOf window with
  | none => exact ⟨_, _, rfl⟩
  | some source =>
    have hlast : b.lastSourceEndUnixMs.any (fun last => source.1 ≤ last) = true := by
      unfold admits at h
      rw [hsource, Option.filter_some] at h
      by_contra hnot
      simp [hnot] at h
    exact ⟨_, _, if_pos hlast⟩

end BaselineEngine

/-! ### One series -/

namespace BaselineSeries
variable {s : BaselineSeries}

theorem accept_length (hs : s.length ≤ baselineCapacity) (packets bytes ms : Nat) :
    (s.accept packets bytes ms).length ≤ baselineCapacity := by
  unfold accept
  have hpos : 0 < baselineCapacity := by decide
  split
  · rw [List.length_append, List.length_tail, List.length_singleton]
    omega
  · rw [List.length_append, List.length_singleton]
    omega

/-- What an evaluation reports fits its state. -/
theorem evaluate_valid (s : BaselineSeries) (packets bytes : Nat) :
    (s.evaluate packets bytes).packets.validateFor (s.evaluate packets bytes).state = .ok () ∧
      (s.evaluate packets bytes).bytes.validateFor (s.evaluate packets bytes).state = .ok () := by
  unfold evaluate
  split
  · exact ⟨rfl, rfl⟩
  · dsimp only
    split
    · exact ⟨rfl, rfl⟩
    · exact ⟨rfl, rfl⟩

theorem evaluate_learning_iff (s : BaselineSeries) (packets bytes : Nat) :
    (s.evaluate packets bytes).state = .learning ↔ s.length < baselineMinimumSamples := by
  unfold evaluate
  split
  · exact ⟨fun _ => ‹_›, fun _ => rfl⟩
  · refine ⟨fun h => ?_, fun h => absurd h ‹_›⟩
    dsimp only at h
    split at h
    · cases h
    · cases h

end BaselineSeries

/-! ### Reports -/

/-- A subject's report that may stand at this place. -/
structure SubjectValid (i : Fin 16) (r : BaselineSubjectReport) : Prop where
  hook : r.hook = hookForIndex i
  subject : r.subject = subjectForIndex i
  bounded : r.sampleCount ≤ baselineCapacity
  packets : r.packets.validateFor r.state = .ok ()
  bytes : r.bytes.validateFor r.state = .ok ()

/-- The report carries the fixed configuration. -/
def FixedConfig (r : BaselineReport) : Prop :=
  r.sourceWindowMs = baselineSourceWindowMs ∧ r.capacity = baselineCapacity ∧
    r.minimumSamples = baselineMinimumSamples ∧ r.packetNoiseFloorPps = baselinePacketNoiseFloorPps ∧
    r.byteNoiseFloorBps = baselineByteNoiseFloorBps

/-- A report is valid if its subjects are and it counts them. -/
theorem report_valid {r : BaselineReport} (hfixed : FixedConfig r) (hsubjects : ∀ i, SubjectValid i (r.subjects i))
    (hstate : r.state = aggregateBaselineState r.subjects) (hlearning : r.learningSubjectCount = countLearning r.subjects)
    (helevated : r.elevatedMetricCount = countElevated r.subjects) : r.validate = .ok () := by
  have hloop : tryFromFn r.validateSubject = .ok fun _ => () := by
    refine tryFromFn_eq_ok.mpr fun i => ?_
    have hi := hsubjects i
    unfold BaselineReport.validateSubject
    rw [if_neg (by simp [hi.hook, hi.subject]), if_neg (Nat.not_lt.mpr hi.bounded), hi.packets, hi.bytes]
    rfl
  obtain ⟨hwindow, hcapacity, hminimum, hpackets, hbytes⟩ := hfixed
  unfold BaselineReport.validate
  rw [if_neg (by simp [hwindow, hcapacity, hminimum, hpackets, hbytes]), hloop]
  simp [bind, Except.bind, hstate, hlearning, helevated]

namespace BaselineEngine
variable {b : BaselineEngine}

/-- No series is longer than its capacity, and the cached report may be handed out. -/
structure Sound (b : BaselineEngine) : Prop where
  bounded : ∀ i, (b.series i).length ≤ baselineCapacity
  valid : b.cached.validate = .ok ()

theorem countLearning_all {subjects : Fin 16 → BaselineSubjectReport} (h : ∀ i, (subjects i).state = .learning) :
    countLearning subjects = 16 := by
  unfold countLearning
  rw [List.countP_eq_length.mpr, List.length_ofFn]
  intro r hr
  obtain ⟨i, rfl⟩ := List.mem_ofFn.mp hr
  exact decide_eq_true (h i)

theorem countLearning_none {subjects : Fin 16 → BaselineSubjectReport} (h : ∀ i, (subjects i).state ≠ .learning) :
    countLearning subjects = 0 := by
  unfold countLearning
  rw [List.countP_eq_zero]
  intro r hr
  obtain ⟨i, rfl⟩ := List.mem_ofFn.mp hr
  simpa using h i

theorem countElevated_absent {subjects : Fin 16 → BaselineSubjectReport}
    (h : ∀ i, (subjects i).packets = .absent ∧ (subjects i).bytes = .absent) : countElevated subjects = 0 := by
  unfold countElevated
  rw [List.countP_eq_zero]
  intro elevated hmem
  obtain ⟨r, hr, hmem⟩ := List.mem_flatMap.mp hmem
  obtain ⟨i, rfl⟩ := List.mem_ofFn.mp hr
  rw [(h i).1, (h i).2] at hmem
  simp [BaselineMetricReport.absent] at hmem
  simp [hmem]

theorem sound_new (identity : RateIdentity) (startMs : Nat) : (new identity startMs).Sound where
  bounded := fun _ => Nat.zero_le _
  valid := by
    refine report_valid ⟨rfl, rfl, rfl, rfl, rfl⟩ (fun i => ⟨rfl, rfl, Nat.zero_le _, rfl, rfl⟩) ?_ ?_ ?_
    · simp [new, aggregateBaselineState, BaselineReport.learning, BaselineReport.fixedConfig]
    · exact (countLearning_all fun _ => rfl).symm
    · exact (countElevated_absent fun _ => ⟨rfl, rfl⟩).symm

/-- A report without evidence is valid. -/
theorem unavailableReport_valid (hb : ∀ i, (b.series i).length ≤ baselineCapacity) (nowMs : Nat) (code : String) :
    (b.unavailableReport nowMs code).validate = .ok () := by
  refine report_valid ⟨rfl, rfl, rfl, rfl, rfl⟩ (fun i => ⟨rfl, rfl, hb i, rfl, rfl⟩) ?_ ?_ ?_
  · simp [aggregateBaselineState, unavailableReport, BaselineReport.fixedConfig]
  · exact (countLearning_none fun _ => by simp [unavailableReport, BaselineReport.fixedConfig]).symm
  · exact (countElevated_absent fun _ => ⟨rfl, rfl⟩).symm

theorem learn_length (hb : ∀ i, (b.series i).length ≤ baselineCapacity) (hooks : Fin 2 → HookRate) (sourceEnd : Nat)
    (i : Fin 16) : (b.learn hooks sourceEnd i).length ≤ baselineCapacity := by
  unfold learn
  dsimp only
  split
  · exact hb i
  · exact BaselineSeries.accept_length (hb i) _ _ _

theorem evaluation_valid (b : BaselineEngine) (hooks : Fin 2 → HookRate) (sourceEnd : Nat) (i : Fin 16) :
    (b.evaluation hooks sourceEnd i).packets.validateFor (b.evaluation hooks sourceEnd i).state = .ok () ∧
      (b.evaluation hooks sourceEnd i).bytes.validateFor (b.evaluation hooks sourceEnd i).state = .ok () := by
  unfold evaluation
  dsimp only
  split
  · exact BaselineSeries.evaluate_valid _ _ _
  · exact BaselineSeries.evaluate_valid _ _ _

theorem Sound.accepted (h : b.Sound) (sourceEnd : Nat) (hooks : Fin 2 → HookRate) (nowMs : Nat) :
    (b.accepted sourceEnd hooks nowMs).Sound where
  bounded := learn_length h.bounded hooks sourceEnd
  valid := by
    refine report_valid ⟨rfl, rfl, rfl, rfl, rfl⟩ (fun i => ?_) rfl rfl rfl
    obtain ⟨hpackets, hbytes⟩ := evaluation_valid b hooks sourceEnd i
    exact ⟨rfl, rfl, learn_length h.bounded hooks sourceEnd i, hpackets, hbytes⟩

theorem sound_clearIntegrity (b : BaselineEngine) (identity : RateIdentity) (nowMs : Nat) (code : String) :
    (b.clearIntegrity identity nowMs code).Sound where
  bounded := fun _ => Nat.zero_le _
  valid := unavailableReport_valid (fun _ => Nat.zero_le _) nowMs code

theorem Sound.apply (h : b.Sound) (c : Call) : (b.apply c).Sound := by
  cases c with
  | evaluateReadyWindow window nowMs =>
    show (b.evaluateReadyWindow window nowMs).2.Sound
    cases hadmits : b.admits window with
    | none =>
      obtain ⟨error, code, hrefused⟩ := evaluate_refused nowMs hadmits
      rw [hrefused]
      exact sound_clearIntegrity b _ nowMs code
    | some source =>
      rw [evaluate_admitted hadmits]
      exact h.accepted _ _ nowMs
  | unavailable nowMs code => exact ⟨h.bounded, unavailableReport_valid h.bounded nowMs code⟩
  | clearIntegrity identity nowMs code => exact sound_clearIntegrity b identity nowMs code

theorem sound_after (identity : RateIdentity) (startMs : Nat) (calls : List Call) :
    ((new identity startMs).after calls).Sound :=
  recorder.run_invariant (fun b _ => b.Sound) (fun _ _ c h => h.apply c) (new identity startMs, []) calls
    (sound_new identity startMs)

end BaselineEngine

/-! ### Subjects -/

/-- The counters of a hook that a subject names. -/
def HookRate.named (hook : HookRate) : BaselineSubject → Option RateCounters
  | .total => some hook.total
  | .trafficClass trafficClass => ((List.ofFn hook.classes).find? (·.trafficClass = trafficClass)).map (·.counters)
  | .parseErrors => some hook.parseErrors

/-- The packet and byte rates of the hook with this role that the subject names. -/
def namedRates (hooks : Fin 2 → HookRate) (role : HookRole) (subject : BaselineSubject) : Option (Nat × Nat) :=
  (((List.ofFn hooks).find? (·.role = role)).bind (·.named subject)).map fun counters =>
    (counters.packetsPerSecond, counters.bytesPerSecond)

/-- **Each series is fed with the rates its report names.** -/
theorem subjectRates_named {hooks : Fin 2 → HookRate} (h : validateHookRates hooks = .ok ()) (i : Fin 16) :
    namedRates hooks (hookForIndex i) (subjectForIndex i) = some (subjectRates hooks i) := by
  unfold validateHookRates at h
  split at h
  · rename_i hroles
    split at h
    · rename_i hclasses
      have hclass : ∀ k c, (hooks k).named (.trafficClass (classOrder c)) = some ((hooks k).classes c).counters := by
        intro k c
        have hk := hclasses k
        unfold HookRate.named
        fin_cases c <;> simp [List.ofFn_succ, hk, classOrder]
      have hhook : ∀ k, (List.ofFn hooks).find? (·.role = hookOrder k) = some (hooks k) := by
        intro k
        fin_cases k <;> simp [List.ofFn_succ, hroles, hookOrder]
      unfold namedRates hookForIndex
      rw [hhook, Option.bind_some]
      fin_cases i
      case «0» | «7» | «8» | «15» => rfl
      case «1» | «2» | «3» | «4» | «5» | «6» => exact congrArg (Option.map _) (hclass 0 _)
      case «9» | «10» | «11» | «12» | «13» | «14» => exact congrArg (Option.map _) (hclass 1 _)
    · cases h
  · cases h

/-- The window is one that `evaluate_ready_window` learns from. -/
def IsSource (w : DetailedRateWindow) : Prop :=
  w.windowMs = baselineSourceWindowMs ∧ w.state = .ready ∧ w.validate = .ok ()

instance (w : DetailedRateWindow) : Decidable (IsSource w) := inferInstanceAs (Decidable (_ ∧ _))

/-- What a window carries for one subject. -/
def ratesFor (w : DetailedRateWindow) (i : Fin 16) : Option (Nat × Nat) :=
  w.hooks.bind (namedRates · (hookForIndex i) (subjectForIndex i))

/-- Windows that are equally valid, end together and carry the same for one subject. -/
structure AgreeOn (i : Fin 16) (w w' : DetailedRateWindow) : Prop where
  source : IsSource w ↔ IsSource w'
  ends : w.endUnixMs = w'.endUnixMs
  rates : ratesFor w i = ratesFor w' i

namespace BaselineEngine
variable {b b' : BaselineEngine} {i : Fin 16}

theorem sourceOf_map (w : DetailedRateWindow) (i : Fin 16) :
    (sourceOf w).map (fun source => (source.1, subjectRates source.2 i)) =
      if IsSource w then w.endUnixMs.bind fun sourceEnd => (ratesFor w i).map (sourceEnd, ·) else none := by
  unfold sourceOf
  by_cases h : IsSource w
  · have hvalid := h.2.2
    rw [if_neg (by simp [h.1, h.2.1, h.2.2]), if_pos h]
    unfold DetailedRateWindow.validate at hvalid
    unfold ratesFor
    cases hends : w.endUnixMs with
    | none => rfl
    | some sourceEnd =>
      cases hhooks : w.hooks with
      | none => rfl
      | some hooks =>
        rw [hhooks] at hvalid
        have hrates := (bind_unit_eq_ok.mp hvalid).2
        simp only [Option.bind_some, Option.map_some, subjectRates_named hrates i]
  · have hnot : w.windowMs ≠ baselineSourceWindowMs ∨ w.state ≠ .ready ∨ w.validate ≠ .ok () := by
      unfold IsSource at h
      tauto
    rw [if_pos hnot, if_neg h]
    rfl

/-- Calls that differ at most in what the other subjects carried. -/
inductive SameFor (i : Fin 16) : Call → Call → Prop where
  | evaluateReadyWindow {w w' : DetailedRateWindow} (nowMs : Nat) :
      AgreeOn i w w' → SameFor i (.evaluateReadyWindow w nowMs) (.evaluateReadyWindow w' nowMs)
  | unavailable (nowMs : Nat) (code : String) : SameFor i (.unavailable nowMs code) (.unavailable nowMs code)
  | clearIntegrity (identity : RateIdentity) (nowMs : Nat) (code : String) :
      SameFor i (.clearIntegrity identity nowMs code) (.clearIntegrity identity nowMs code)

/-- Engines that are the same for one subject. -/
structure AlikeFor (i : Fin 16) (b b' : BaselineEngine) : Prop where
  series : b.series i = b'.series i
  report : b.cached.subjects i = b'.cached.subjects i
  lastEnd : b.lastSourceEndUnixMs = b'.lastSourceEndUnixMs

theorem learn_congr (h : b.series i = b'.series i) {hooks hooks' : Fin 2 → HookRate}
    (hrates : subjectRates hooks i = subjectRates hooks' i) (sourceEnd : Nat) :
    b.learn hooks sourceEnd i = b'.learn hooks' sourceEnd i := by
  unfold learn
  rw [h, hrates]

theorem evaluation_congr (h : b.series i = b'.series i) {hooks hooks' : Fin 2 → HookRate}
    (hrates : subjectRates hooks i = subjectRates hooks' i) (sourceEnd : Nat) :
    b.evaluation hooks sourceEnd i = b'.evaluation hooks' sourceEnd i := by
  unfold evaluation
  rw [learn_congr h hrates, h, hrates]

/-- Both engines accept the windows, with the same rates for the subject, or neither does. -/
theorem admits_agree {w w' : DetailedRateWindow} (hlast : b.lastSourceEndUnixMs = b'.lastSourceEndUnixMs)
    (h : AgreeOn i w w') :
    (b.admits w = none ∧ b'.admits w' = none) ∨ ∃ sourceEnd hooks hooks', b.admits w = some (sourceEnd, hooks) ∧
      b'.admits w' = some (sourceEnd, hooks') ∧ subjectRates hooks i = subjectRates hooks' i := by
  have hmap : (sourceOf w).map (fun source => (source.1, subjectRates source.2 i)) =
      (sourceOf w').map (fun source => (source.1, subjectRates source.2 i)) := by
    simp only [sourceOf_map, h.source, h.ends, h.rates]
  unfold admits
  rw [hlast]
  cases hs : sourceOf w with
  | none =>
    rw [hs, Option.map_none] at hmap
    rw [Option.map_eq_none_iff.mp hmap.symm]
    exact .inl ⟨rfl, rfl⟩
  | some source =>
    rw [hs, Option.map_some] at hmap
    obtain ⟨source', hs', heq⟩ := Option.map_eq_some_iff.mp hmap.symm
    obtain ⟨hend, hrates⟩ := Prod.mk.inj heq
    obtain ⟨sourceEnd, hooks⟩ := source
    obtain ⟨_, hooks'⟩ := source'
    obtain rfl : _ = sourceEnd := hend
    rw [hs', Option.filter_some, Option.filter_some]
    split
    · exact .inr ⟨_, hooks, hooks', rfl, rfl, hrates.symm⟩
    · exact .inl ⟨rfl, rfl⟩

theorem AlikeFor.cleared (i : Fin 16) (b b' : BaselineEngine) (identity identity' : RateIdentity) (nowMs : Nat)
    (code code' : String) :
    AlikeFor i (b.clearIntegrity identity nowMs code) (b'.clearIntegrity identity' nowMs code') :=
  ⟨rfl, rfl, rfl⟩

/-- A call moves a subject as the rates of this subject say. -/
theorem subject_step (h : AlikeFor i b b') {c c' : Call} (hc : SameFor i c c') : AlikeFor i (b.apply c) (b'.apply c') := by
  cases hc with
  | @evaluateReadyWindow w w' nowMs hw =>
    show AlikeFor i (b.evaluateReadyWindow w nowMs).2 (b'.evaluateReadyWindow w' nowMs).2
    obtain ⟨hnone, hnone'⟩ | ⟨sourceEnd, hooks, hooks', hsome, hsome', hrates⟩ := admits_agree h.lastEnd hw
    · obtain ⟨_, code, hrefused⟩ := evaluate_refused nowMs hnone
      obtain ⟨_, code', hrefused'⟩ := evaluate_refused nowMs hnone'
      rw [hrefused, hrefused']
      exact .cleared i b b' _ _ nowMs code code'
    · rw [evaluate_admitted hsome, evaluate_admitted hsome']
      have hlearn := learn_congr h.series hrates sourceEnd
      have hevaluation := evaluation_congr h.series hrates sourceEnd
      refine ⟨hlearn, ?_, rfl⟩
      simp only [accepted, BaselineReport.fixedConfig, hlearn, hevaluation]
  | unavailable nowMs code =>
    refine ⟨h.series, ?_, h.lastEnd⟩
    simp only [apply, unavailable, unavailableReport, BaselineReport.fixedConfig, h.series]
  | clearIntegrity identity nowMs code => exact .cleared i b b' _ _ nowMs code code

theorem alike_after (h : AlikeFor i b b') {calls calls' : List Call} (hcalls : List.Forall₂ (SameFor i) calls calls') :
    AlikeFor i (b.after calls) (b'.after calls') := by
  induction hcalls generalizing b b' with
  | nil => exact h
  | cons hc _ ih => exact ih (subject_step h hc)

/-! ### Sample windows -/

def quietIdentity : RateIdentity := ⟨1, 1, Nat.one_ne_zero, Nat.one_ne_zero⟩

def sampleCounters (pps : Nat) : RateCounters := ⟨0, 0, pps, 0⟩

/-- Two hooks that are silent apart from the total of the ingress. -/
def sampleRates (pps : Nat) (k : Fin 2) : HookRate :=
  ⟨hookOrder k, sampleCounters (if k = 0 then pps else 0), fun c => ⟨classOrder c, sampleCounters 0⟩, sampleCounters 0⟩

def sampleWindow (endMs pps : Nat) : DetailedRateWindow where
  windowMs := 10000
  state := .ready
  coverageMs := 10000
  elapsedNs := some 10000000000
  startUnixMs := some 0
  endUnixMs := some endMs
  hooks := some (sampleRates pps)

def sampleCall (endMs pps : Nat) : Call := .evaluateReadyWindow (sampleWindow endMs pps) endMs

theorem sampleWindow_valid (endMs pps : Nat) : (sampleWindow endMs pps).validate = .ok () := by
  have hlong : rateWindowMs 1 * 1000000 ≤ 10000000000 := by decide
  have hshape := RateHistory.validateEvidenceShape_ready 1 0 endMs hlong (le_refl (rateWindowMs 1))
  exact bind_unit_eq_ok.mpr ⟨hshape, RateHistory.validateHookRates_ok (fun _ => rfl) fun _ _ => rfl⟩

/-! ### The two-run law -/

/-- **Reports stay valid and subjects are independent.** After any calls the cached report
is valid; and in two runs that carry the same for a subject, its accepted samples and its
report are the same after every call. -/
theorem subjects_independent (identity : RateIdentity) (startMs : Nat) :
    (∀ calls, ((new identity startMs).after calls).cached.validate = .ok () ∧
      ∀ i, (((new identity startMs).after calls).series i).length ≤ baselineCapacity) ∧
    ∀ i calls calls', List.Forall₂ (SameFor i) calls calls' → ∀ n,
      ((new identity startMs).after (calls.take n)).series i = ((new identity startMs).after (calls'.take n)).series i ∧
      ((new identity startMs).after (calls.take n)).cached.subjects i =
        ((new identity startMs).after (calls'.take n)).cached.subjects i := by
  refine ⟨fun calls => ?_, fun i calls calls' hcalls n => ?_⟩
  · have hsound := sound_after identity startMs calls
    exact ⟨hsound.valid, hsound.bounded⟩
  · have halike := alike_after (b := new identity startMs) ⟨rfl, rfl, rfl⟩ (List.forall₂_take n hcalls)
    exact ⟨halike.series, halike.report⟩

/-- A loud total beside a silent broadcast class. -/
theorem subjects_independent_loud_total :
    ((new quietIdentity 0).after [sampleCall 1 0]).series 1 = ((new quietIdentity 0).after [sampleCall 1 5000]).series 1 := by
  have hrates : ∀ pps, ratesFor (sampleWindow 1 pps) 1 = some (0, 0) := by
    intro pps
    have hvalid : validateHookRates (sampleRates pps) = .ok () :=
      RateHistory.validateHookRates_ok (fun _ => rfl) fun _ _ => rfl
    exact subjectRates_named hvalid 1
  have hsource : ∀ pps, IsSource (sampleWindow 1 pps) := fun pps => ⟨rfl, rfl, sampleWindow_valid 1 pps⟩
  have hagree : AgreeOn 1 (sampleWindow 1 0) (sampleWindow 1 5000) :=
    ⟨iff_of_true (hsource 0) (hsource 5000), rfl, (hrates 0).trans (hrates 5000).symm⟩
  exact ((subjects_independent quietIdentity 0).2 1 [sampleCall 1 0] [sampleCall 1 5000]
    (.cons (.evaluateReadyWindow 1 hagree) .nil) 1).1

/-! ### What an elevated window teaches -/

/-- The call returns a report that has the subject in this state. -/
def Reports (b : BaselineEngine) (c : Call) (i : Fin 16) (state : BaselineState) : Prop :=
  match c with
  | .evaluateReadyWindow window nowMs =>
    (b.evaluateReadyWindow window nowMs).1 = .ok () ∧
      ((b.evaluateReadyWindow window nowMs).2.cached.subjects i).state = state
  | .unavailable .. | .clearIntegrity .. => False

/-- If the call reports the subject as elevated, it leaves its samples as they are. -/
def TeachesNothing (i : Fin 16) (b : BaselineEngine) (c : Call) : Prop :=
  Reports b c i .elevated → (b.apply c).series i = b.series i

/-- The window brings the subject the last sample of its minimum, and that sample is
above the threshold of the sixty samples it belongs to. -/
def Completing (i : Fin 16) (b : BaselineEngine) (c : Call) : Prop :=
  match c with
  | .evaluateReadyWindow window _ =>
    ∃ sourceEnd hooks, b.admits window = some (sourceEnd, hooks) ∧
      (b.series i).length + 1 = baselineMinimumSamples ∧
      (((b.series i).accept (subjectRates hooks i).1 (subjectRates hooks i).2 sourceEnd).evaluate
        (subjectRates hooks i).1 (subjectRates hooks i).2).state = .elevated
  | .unavailable .. | .clearIntegrity .. => False

theorem reports_iff {window : DetailedRateWindow} {nowMs : Nat} {state : BaselineState} :
    Reports b (.evaluateReadyWindow window nowMs) i state ↔ ∃ sourceEnd hooks,
      b.admits window = some (sourceEnd, hooks) ∧ (b.evaluation hooks sourceEnd i).state = state := by
  cases h : b.admits window with
  | none =>
    obtain ⟨error, code, hrefused⟩ := evaluate_refused nowMs h
    simp [Reports, hrefused]
  | some source =>
    obtain ⟨sourceEnd, hooks⟩ := source
    have hadmitted : b.evaluateReadyWindow window nowMs = (.ok (), b.accepted sourceEnd hooks nowMs) :=
      evaluate_admitted h
    constructor
    · rintro ⟨-, hstate⟩
      rw [hadmitted] at hstate
      exact ⟨sourceEnd, hooks, rfl, hstate⟩
    · rintro ⟨_, _, hsource, hstate⟩
      cases hsource
      show (b.evaluateReadyWindow window nowMs).1 = .ok () ∧
        ((b.evaluateReadyWindow window nowMs).2.cached.subjects i).state = state
      rw [hadmitted]
      exact ⟨rfl, hstate⟩

/-- A series below its minimum learns whatever it is given. -/
theorem learn_learning (h : (b.series i).length < baselineMinimumSamples) (hooks : Fin 2 → HookRate) (sourceEnd : Nat) :
    b.learn hooks sourceEnd i =
      (b.series i).accept (subjectRates hooks i).1 (subjectRates hooks i).2 sourceEnd := by
  unfold learn
  rw [if_neg]
  rw [(BaselineSeries.evaluate_learning_iff _ _ _).mpr h]
  simp

theorem accept_learning_length {s : BaselineSeries} (h : s.length < baselineMinimumSamples) (packets bytes ms : Nat) :
    (s.accept packets bytes ms).length = s.length + 1 := by
  have hroom : s.length ≠ baselineCapacity := by
    unfold baselineMinimumSamples baselineCapacity at *
    omega
  unfold BaselineSeries.accept
  rw [if_neg hroom, List.length_append, List.length_singleton]

/-- A series that is evaluated reports what it was before the window. -/
theorem evaluation_ready (h : baselineMinimumSamples ≤ (b.series i).length) (hooks : Fin 2 → HookRate)
    (sourceEnd : Nat) : b.evaluation hooks sourceEnd i =
      (b.series i).evaluate (subjectRates hooks i).1 (subjectRates hooks i).2 := by
  have hready : ((b.series i).evaluate (subjectRates hooks i).1 (subjectRates hooks i).2).state ≠ .learning := fun heq =>
    Nat.not_lt.mpr h ((BaselineSeries.evaluate_learning_iff _ _ _).mp heq)
  unfold evaluation
  exact if_neg fun hboth => hready hboth.1

/-- A series below its minimum reports learning, or what the completed minimum says. -/
theorem evaluation_learning (h : (b.series i).length < baselineMinimumSamples) (hooks : Fin 2 → HookRate)
    (sourceEnd : Nat) : (b.evaluation hooks sourceEnd i).state = .elevated ↔
      (b.series i).length + 1 = baselineMinimumSamples ∧
        (((b.series i).accept (subjectRates hooks i).1 (subjectRates hooks i).2 sourceEnd).evaluate
          (subjectRates hooks i).1 (subjectRates hooks i).2).state = .elevated := by
  have hbefore := (BaselineSeries.evaluate_learning_iff (b.series i) (subjectRates hooks i).1 (subjectRates hooks i).2).mpr h
  unfold evaluation
  dsimp only
  rw [hbefore, learn_learning h, accept_learning_length h]
  by_cases hfull : baselineMinimumSamples ≤ (b.series i).length + 1
  · rw [if_pos ⟨rfl, hfull⟩]
    exact ⟨fun helevated => ⟨Nat.le_antisymm h hfull, helevated⟩, fun helevated => helevated.2⟩
  · rw [if_neg fun hboth => hfull hboth.2, hbefore]
    exact ⟨fun heq => (by cases heq), fun heq => absurd heq.1.ge hfull⟩

/-- A call teaches an elevated subject exactly if it completes its minimum. -/
theorem teachesNothing_iff (i : Fin 16) (b : BaselineEngine) (c : Call) : TeachesNothing i b c ↔ ¬Completing i b c := by
  cases c with
  | unavailable nowMs code => exact ⟨fun _ => id, fun _ => False.elim⟩
  | clearIntegrity identity nowMs code => exact ⟨fun _ => id, fun _ => False.elim⟩
  | evaluateReadyWindow window nowMs =>
    unfold TeachesNothing
    rw [reports_iff]
    constructor
    · rintro hteaches ⟨sourceEnd, hooks, hadmits, hlength, helevated⟩
      have hlt : (b.series i).length < baselineMinimumSamples := Nat.lt_of_succ_le hlength.le
      have hkept := hteaches ⟨sourceEnd, hooks, hadmits, (evaluation_learning hlt hooks sourceEnd).mpr ⟨hlength, helevated⟩⟩
      rw [apply_admitted nowMs hadmits] at hkept
      have hlearned := learn_learning hlt hooks sourceEnd
      have hgrown := accept_learning_length hlt (subjectRates hooks i).1 (subjectRates hooks i).2 sourceEnd
      rw [← hlearned] at hgrown
      have hsame : (b.learn hooks sourceEnd i).length = (b.series i).length := congrArg List.length hkept
      omega
    · rintro hnot ⟨sourceEnd, hooks, hadmits, helevated⟩
      rw [apply_admitted nowMs hadmits]
      show b.learn hooks sourceEnd i = b.series i
      by_cases hlt : (b.series i).length < baselineMinimumSamples
      · exact absurd ⟨sourceEnd, hooks, hadmits, (evaluation_learning hlt hooks sourceEnd).mp helevated⟩ hnot
      · rw [evaluation_ready (Nat.not_lt.mp hlt)] at helevated
        unfold learn
        exact if_pos helevated

/-- The call reports the subject as elevated, or publishes that the baseline is unavailable. -/
def StaysElevated (i : Fin 16) (b : BaselineEngine) (c : Call) : Prop :=
  Reports b c i .elevated ∨ ∃ nowMs code, c = .unavailable nowMs code

/-- The call teaches the subject the rates of its window. -/
def Learns (i : Fin 16) (b : BaselineEngine) (c : Call) : Prop :=
  ∃ window nowMs sourceEnd packets bytes, c = .evaluateReadyWindow window nowMs ∧
    window.endUnixMs = some sourceEnd ∧ ratesFor window i = some (packets, bytes) ∧
    (b.apply c).series i = (b.series i).accept packets bytes sourceEnd

/-- Where the subject is not reported as elevated it keeps learning. -/
theorem learns_of_reports {c : Call} {state : BaselineState} (h : Reports b c i state) (hstate : state ≠ .elevated) :
    Learns i b c := by
  cases c with
  | unavailable nowMs code => exact h.elim
  | clearIntegrity identity nowMs code => exact h.elim
  | evaluateReadyWindow window nowMs =>
    obtain ⟨sourceEnd, hooks, hadmits, hevaluation⟩ := reports_iff.mp h
    have hsource := (Option.filter_eq_some_iff.mp hadmits).1
    have hmap := sourceOf_map window i
    rw [hsource, Option.map_some] at hmap
    split at hmap
    · obtain ⟨_, hends, hrates⟩ := Option.bind_eq_some_iff.mp hmap.symm
      obtain ⟨rates, hrates, heq⟩ := Option.map_eq_some_iff.mp hrates
      cases heq
      refine ⟨window, nowMs, sourceEnd, _, _, rfl, hends, hrates, ?_⟩
      rw [apply_admitted nowMs hadmits]
      show b.learn hooks sourceEnd i = _
      unfold learn
      refine if_neg fun helevated => hstate ?_
      have hready : baselineMinimumSamples ≤ (b.series i).length := by
        by_contra hlt
        rw [(BaselineSeries.evaluate_learning_iff _ _ _).mpr (Nat.not_le.mp hlt)] at helevated
        cases helevated
      rw [← hevaluation, evaluation_ready hready]
      exact helevated
    · cases hmap

/-- While a subject stays elevated its series stands still. -/
theorem series_still {calls : List Call} (hteaches : recorder.Obeys (TeachesNothing i) b calls)
    (helevated : recorder.Obeys (StaysElevated i) b calls) : (b.after calls).series i = b.series i := by
  induction calls generalizing b with
  | nil => rfl
  | cons c rest ih =>
    have hrest : ((b.apply c).after rest).series i = (b.apply c).series i := ih hteaches.2 helevated.2
    have hstep : (b.apply c).series i = b.series i := by
      obtain hreports | ⟨nowMs, code, rfl⟩ := helevated.1
      · exact hteaches.1 hreports
      · rfl
    exact hrest.trans hstep

theorem obeys_split {Rule : BaselineEngine → Call → Prop} {done more : List Call}
    (h : recorder.Obeys Rule b (done ++ more)) : recorder.Obeys Rule (b.after done) more := by
  have hmore := ((recorder.obeys_append b done more).mp h).2
  rwa [← recorder.run_fst (b, []) done] at hmore

theorem after_append (b : BaselineEngine) (calls more : List Call) :
    b.after (calls ++ more) = (b.after calls).after more := by
  simp only [after, Recorder.run_fst, List.foldl_append]

theorem after_singleton (b : BaselineEngine) (c : Call) : b.after [c] = b.apply c := rfl

/-- **An elevated window teaches nothing, unless it completes the minimum.** A run has the
property exactly if no call of it completes the subject's minimum above its threshold.
Then the subject's evaluation does not change while it stays elevated; and the other
subjects learn from the same windows in any run. -/
theorem elevated_teaches_nothing_iff (identity : RateIdentity) (startMs : Nat) (calls : List Call) (i : Fin 16) :
    (recorder.Obeys (TeachesNothing i) (new identity startMs) calls ↔
      recorder.Obeys (fun b c => ¬Completing i b c) (new identity startMs) calls) ∧
    (recorder.Obeys (fun b c => ¬Completing i b c) (new identity startMs) calls → ∀ done more, calls = done ++ more →
      recorder.Obeys (StaysElevated i) ((new identity startMs).after done) more →
        ((new identity startMs).after calls).series i = ((new identity startMs).after done).series i) ∧
    recorder.Obeys (fun b c => ∀ j state, Reports b c j state → state ≠ .elevated → Learns j b c)
      (new identity startMs) calls := by
  have hiff := recorder.obeys_congr (teachesNothing_iff i) (new identity startMs) calls
  refine ⟨hiff, fun hrule done more hcalls helevated => ?_, ?_⟩
  · have hteaches := hiff.mpr hrule
    subst hcalls
    rw [after_append]
    exact series_still (obeys_split hteaches) helevated
  · have hall : ∀ (b : BaselineEngine) (c : Call), True ↔
        ∀ j state, Reports b c j state → state ≠ .elevated → Learns j b c := fun b c =>
      iff_of_true trivial fun j state h hstate => learns_of_reports h hstate
    exact (recorder.obeys_congr hall _ _).mp (recorder.obeys_true _ _)

/-- The first window of a run. -/
theorem elevated_teaches_nothing_first_window :
    recorder.Obeys (TeachesNothing 0) (new quietIdentity 0) [sampleCall 1 1000] := by
  refine (elevated_teaches_nothing_iff quietIdentity 0 [sampleCall 1 1000] 0).1.mpr ⟨?_, trivial⟩
  rintro ⟨_, _, -, hlength, -⟩
  exact absurd hlength (by decide)

/-! ### Where the minimum is completed -/

theorem sampleWindow_admitted {endMs : Nat} (h : ∀ last, b.lastSourceEndUnixMs = some last → last < endMs) (pps : Nat) :
    b.admits (sampleWindow endMs pps) = some (endMs, sampleRates pps) := by
  have hsource : sourceOf (sampleWindow endMs pps) = some (endMs, sampleRates pps) := by
    unfold sourceOf
    rw [sampleWindow_valid, if_neg (by simp [sampleWindow, baselineSourceWindowMs])]
    rfl
  unfold admits
  rw [hsource, Option.filter_some, if_pos]
  cases hlast : b.lastSourceEndUnixMs with
  | none => rfl
  | some last => simpa using h last hlast

/-- Quiet windows, one a second. -/
def quietCalls (count : Nat) : List Call := (List.range count).map fun k => sampleCall (k + 1) 0

def quietSamples (count : Nat) : BaselineSeries := (List.range count).map fun k => ⟨0, 0, k + 1⟩

/-- Below the minimum a subject learns every quiet window. -/
theorem quiet_after (identity : RateIdentity) {count : Nat} (h : count < baselineMinimumSamples) :
    ((new identity 0).after (quietCalls count)).series 0 = quietSamples count ∧
      ∀ last, ((new identity 0).after (quietCalls count)).lastSourceEndUnixMs = some last → last ≤ count := by
  induction count with
  | zero => exact ⟨rfl, fun _ hlast => by cases hlast⟩
  | succ k ih =>
    obtain ⟨hseries, hlast⟩ := ih (Nat.lt_of_succ_lt h)
    have hcalls : quietCalls (k + 1) = quietCalls k ++ [sampleCall (k + 1) 0] := by
      unfold quietCalls
      rw [List.range_succ, List.map_append]
      rfl
    have hadmitted : ((new identity 0).after (quietCalls k)).admits (sampleWindow (k + 1) 0) =
        some (k + 1, sampleRates 0) :=
      sampleWindow_admitted (fun last heq => Nat.lt_succ_of_le (hlast last heq)) 0
    have hnext : (new identity 0).after (quietCalls (k + 1)) =
        ((new identity 0).after (quietCalls k)).accepted (k + 1) (sampleRates 0) (k + 1) := by
      rw [hcalls, after_append, after_singleton]
      exact apply_admitted (k + 1) hadmitted
    have hlength : (((new identity 0).after (quietCalls k)).series 0).length < baselineMinimumSamples := by
      rw [hseries, quietSamples, List.length_map, List.length_range]
      exact Nat.lt_of_succ_lt h
    rw [hnext]
    constructor
    · show ((new identity 0).after (quietCalls k)).learn (sampleRates 0) (k + 1) 0 = quietSamples (k + 1)
      rw [learn_learning hlength, hseries]
      have hroom : (quietSamples k).length ≠ baselineCapacity := by
        rw [← hseries]
        unfold baselineMinimumSamples baselineCapacity at *
        omega
      unfold BaselineSeries.accept
      rw [if_neg hroom]
      unfold quietSamples
      rw [List.range_succ, List.map_append]
      rfl
    · intro last heq
      cases heq
      exact Nat.le_refl _

/-- Fifty-nine quiet windows, then a loud one. -/
theorem completing_window_teaches :
    ¬recorder.Obeys (TeachesNothing 0) (new quietIdentity 0) (quietCalls 59 ++ [sampleCall 60 1000]) := by
  intro hrun
  obtain ⟨hseries, hlast⟩ := quiet_after quietIdentity (by decide : 59 < baselineMinimumSamples)
  have hstep := (obeys_split hrun).1
  refine (teachesNothing_iff 0 _ _).mp hstep ⟨60, sampleRates 1000, ?_, ?_, ?_⟩
  · exact sampleWindow_admitted (fun last heq => Nat.lt_succ_of_le (hlast last heq)) 1000
  · rw [hseries]
    rfl
  · rw [hseries]
    decide +kernel

end BaselineEngine

end NetworkLoop.Observation
