import NetworkLoop.Observation.Derive

/-! What a rate history guarantees.

Its samples follow each other: the clock moves on and no counter goes back
(`WellFormed`, kept by every operation). From that alone the windows can always be
calculated (`detailedWindows_ok`) and are always valid (`detailedWindows_valid`), and
`calculateWindow_cases` says what a ready window is: the rates between two of the
samples. -/
namespace NetworkLoop.Observation
open Library

/-- One sample may follow another in a history. -/
def Precedes (a b : RateSample) : Prop :=
  a.capturedAtMonotonicNs < b.capturedAtMonotonicNs ∧ HooksMonotonic a.hooks b.hooks

theorem Precedes.trans {a b c : RateSample} (h : Precedes a b) (h' : Precedes b c) : Precedes a c :=
  ⟨h.1.trans h'.1, h.2.trans h'.2⟩

namespace RateHistory
variable {h : RateHistory} {s : RateSample}

structure WellFormed (h : RateHistory) : Prop where
  chained : h.samples.Pairwise Precedes
  since : ∀ s ∈ h.samples, h.historyEpochStartedAtMonotonicNs ≤ s.capturedAtMonotonicNs

theorem wellFormed_of_empty (hempty : h.samples = []) : h.WellFormed := by
  constructor
  · rw [hempty]
    exact .nil
  · intro s hs
    rw [hempty] at hs
    cases hs

theorem wellFormed_new (identity : RateIdentity) (ns : Nat) : (new identity ns).WellFormed := wellFormed_of_empty rfl

theorem WellFormed.clearAt (h : RateHistory) (ns : Nat) : (h.clearAt ns).WellFormed := wellFormed_of_empty rfl

theorem WellFormed.recordFailure (hw : h.WellFormed) (code : String) : (h.recordFailure code).WellFormed :=
  ⟨hw.chained, hw.since⟩

/-- Every sample precedes the latest one, or is it. -/
theorem WellFormed.latest (hw : h.WellFormed) {latest x : RateSample} (hl : h.samples.getLast? = some latest)
    (hx : x ∈ h.samples) : x = latest ∨ Precedes x latest := by
  obtain ⟨init, hinit⟩ := List.getLast?_eq_some_iff.mp hl
  have hchain := hw.chained
  rw [hinit] at hx hchain
  obtain hx | hx := List.mem_append.mp hx
  · exact .inr ((List.pairwise_append.mp hchain).2.2 x hx latest (List.mem_singleton.mpr rfl))
  · exact .inl (List.mem_singleton.mp hx)

/-- What a sample that is not refused has passed. -/
theorem refusal_eq_none {strict : Bool} (hr : h.refusal s strict = none) :
    s.identity = h.identity ∧ h.historyEpochStartedAtMonotonicNs ≤ s.capturedAtMonotonicNs ∧
      ∀ latest, h.samples.getLast? = some latest →
        latest.capturedAtMonotonicNs ≤ s.capturedAtMonotonicNs ∧
        (strict = true → latest.capturedAtMonotonicNs < s.capturedAtMonotonicNs) ∧
        HooksMonotonic latest.hooks s.hooks := by
  unfold refusal at hr
  split at hr
  · cases hr
  · split at hr
    · cases hr
    · split at hr
      · cases hr
      · rename_i hid hclock hmono
        rw [not_or, Nat.not_lt] at hclock
        refine ⟨Classical.not_not.mp hid, hclock.1, fun latest hl => ?_⟩
        have hclock := hclock.2
        rw [hl] at hclock hmono
        simp only [Option.any_some, decide_eq_true_eq, Classical.not_not] at hmono
        cases strict
        · simp only [Option.any_some, clockBehind, Bool.false_eq_true, if_false, decide_eq_true_eq, Nat.not_lt] at hclock
          exact ⟨hclock, nofun, hmono⟩
        · simp only [Option.any_some, clockBehind, if_true, decide_eq_true_eq, Nat.not_le] at hclock
          exact ⟨hclock.le, fun _ => hclock, hmono⟩

theorem push_sublist (h : RateHistory) (s : RateSample) : (h.push s).Sublist (h.samples ++ [s]) := by
  unfold push
  split
  · exact List.tail_sublist _
  · exact List.Sublist.refl _

theorem push_getLast (h : RateHistory) (s : RateSample) : (h.push s).getLast? = some s := by
  unfold push
  split
  · rename_i hlen
    cases hs : h.samples with
    | nil =>
      rw [hs] at hlen
      exact absurd hlen (Nat.not_lt.mpr (by decide : 1 ≤ rateHistoryCapacity))
    | cons x rest => rw [List.cons_append, List.tail_cons, List.getLast?_append, List.getLast?_singleton, Option.some_or]
  · rw [List.getLast?_append, List.getLast?_singleton, Option.some_or]

theorem insert_cases (h : RateHistory) (s : RateSample) :
    ((h.insert s).1 = .ok () ∧ h.refusal s true = none ∧ (h.insert s).2.samples = h.push s ∧
        (h.insert s).2.historyEpochStartedAtMonotonicNs = h.historyEpochStartedAtMonotonicNs ∧
        (h.insert s).2.samplingPaused = h.samplingPaused ∧ (h.insert s).2.identity = h.identity) ∨
      ∃ error, (h.insert s).1 = .error error ∧ (h.insert s).2 = h.clearAt s.capturedAtMonotonicNs := by
  unfold insert
  cases hr : h.refusal s true with
  | none => exact .inl ⟨rfl, rfl, rfl, rfl, rfl, rfl⟩
  | some error => exact .inr ⟨error, rfl, rfl⟩

/-- An accepted sample continues the chain. -/
theorem WellFormed.push (hw : h.WellFormed) (hr : h.refusal s true = none) :
    (h.push s).Pairwise Precedes ∧
      ∀ x ∈ h.push s, h.historyEpochStartedAtMonotonicNs ≤ x.capturedAtMonotonicNs := by
  obtain ⟨-, hepoch, hlast⟩ := refusal_eq_none hr
  have hafter : ∀ x ∈ h.samples, Precedes x s := by
    intro x hx
    obtain ⟨latest, hl⟩ : ∃ latest, h.samples.getLast? = some latest :=
      ⟨_, List.getLast?_eq_some_getLast (List.ne_nil_of_mem hx)⟩
    have hls : Precedes latest s := ⟨(hlast latest hl).2.1 rfl, (hlast latest hl).2.2⟩
    obtain rfl | hxl := hw.latest hl hx
    · exact hls
    · exact hxl.trans hls
  have hall : (h.samples ++ [s]).Pairwise Precedes :=
    List.pairwise_append.mpr ⟨hw.chained, List.pairwise_singleton _ _, fun x hx y hy => by
      rw [List.mem_singleton.mp hy]
      exact hafter x hx⟩
  refine ⟨hall.sublist (push_sublist h s), fun x hx => ?_⟩
  obtain hx | hx := List.mem_append.mp ((push_sublist h s).subset hx)
  · exact hw.since x hx
  · rw [List.mem_singleton.mp hx]
    exact hepoch

theorem WellFormed.insert (hw : h.WellFormed) (s : RateSample) : (h.insert s).2.WellFormed := by
  obtain ⟨-, hr, hsamples, hepoch, -, -⟩ | ⟨error, -, hcleared⟩ := insert_cases h s
  · obtain ⟨hchain, hsince⟩ := hw.push hr
    exact ⟨by rw [hsamples]; exact hchain, by rw [hsamples, hepoch]; exact hsince⟩
  · rw [hcleared]
    exact .clearAt h _

/-! ### Rates between two samples -/

/-- A rate is at most its delta once the window lasts a second. -/
theorem rate_le_delta (delta : Nat) {elapsed : Nat} (he : rateSamplePeriodNs ≤ elapsed) :
    delta * rateSamplePeriodNs / elapsed ≤ delta := by
  have hpos : 0 < elapsed := Nat.lt_of_lt_of_le (by decide) he
  calc delta * rateSamplePeriodNs / elapsed ≤ delta * elapsed / elapsed :=
        Nat.div_le_div_right (Nat.mul_le_mul_left _ he)
    _ = delta := Nat.mul_div_cancel _ hpos

theorem calculateRate_ok {delta elapsed : Nat} (hd : delta < u64Bound) (he : rateSamplePeriodNs ≤ elapsed) :
    calculateRate delta elapsed = .ok (delta * rateSamplePeriodNs / elapsed) := by
  have hpos : 0 < elapsed := Nat.lt_of_lt_of_le (by decide) he
  unfold calculateRate
  rw [if_neg hpos.ne', if_pos ((rate_le_delta delta he).trans_lt hd)]

/-- The rates of a counter that did not go back. -/
def ratesBetween (start final : ObservationCounters) (elapsed : Nat) : RateCounters :=
  ⟨final.packets - start.packets, final.bytes - start.bytes,
    (final.packets - start.packets) * rateSamplePeriodNs / elapsed,
    (final.bytes - start.bytes) * rateSamplePeriodNs / elapsed⟩

theorem calculateRateCounters_ok {start final : ObservationCounters} {elapsed : Nat}
    (hm : start.Monotonic final) (he : rateSamplePeriodNs ≤ elapsed) :
    calculateRateCounters start final elapsed = .ok (ratesBetween start final elapsed) := by
  have hpos : 0 < elapsed := Nat.lt_of_lt_of_le (by decide) he
  unfold calculateRateCounters
  rw [if_neg hpos.ne', if_neg (Nat.not_lt.mpr hm.1), if_neg (Nat.not_lt.mpr hm.2),
    calculateRate_ok (Nat.lt_of_le_of_lt (Nat.sub_le _ _) final.packets_lt) he,
    calculateRate_ok (Nat.lt_of_le_of_lt (Nat.sub_le _ _) final.bytes_lt) he]
  rfl

/-- The rates of one hook between two samples that follow each other. -/
def hookRatesBetween (start final : HookObservation) (elapsed : Nat) : HookRate where
  role := final.role
  total := ratesBetween start.total final.total elapsed
  classes := fun c => ⟨(final.classes c).trafficClass, ratesBetween (start.classes c).counters (final.classes c).counters elapsed⟩
  parseErrors := ratesBetween start.parseErrors final.parseErrors elapsed

theorem calculateHookRates_ok {a b : RateSample} {elapsed : Nat} (hm : HooksMonotonic a.hooks b.hooks)
    (he : rateSamplePeriodNs ≤ elapsed) :
    calculateHookRates a.hooks b.hooks elapsed = .ok fun i => hookRatesBetween (a.hooks i) (b.hooks i) elapsed := by
  refine tryFromFn_eq_ok.mpr fun i => ?_
  obtain ⟨htotal, herrors, hclasses⟩ := hm i
  have hrole : (a.hooks i).role = (b.hooks i).role := (a.ordered.1 i).trans (b.ordered.1 i).symm
  have hc : calculateClassRates (a.hooks i).classes (b.hooks i).classes elapsed =
      .ok (hookRatesBetween (a.hooks i) (b.hooks i) elapsed).classes := by
    refine tryFromFn_eq_ok.mpr fun c => ?_
    unfold calculateClassRate
    rw [if_neg (not_not_intro (hclasses c).1), calculateRateCounters_ok (hclasses c).2 he]
    rfl
  unfold calculateHookRate
  rw [if_neg (not_not_intro hrole), calculateRateCounters_ok htotal he, hc, calculateRateCounters_ok herrors he]
  rfl

/-! ### Windows -/

theorem rateWindowMs_ge (i : Fin 3) : rateSamplePeriodNs ≤ rateWindowMs i * 1000000 := by
  revert i
  decide

/-- The two samples that a ready window of this length lies between: the latest one, and
the latest that is at least the length older. -/
structure Endpoints (h : RateHistory) (windowNs : Nat) (start latest : RateSample) : Prop where
  mem : start ∈ h.samples
  last : h.samples.getLast? = some latest
  precedes : Precedes start latest
  covers : windowNs ≤ latest.capturedAtMonotonicNs - start.capturedAtMonotonicNs
  nearest : ∀ s ∈ h.samples, s.capturedAtMonotonicNs + windowNs ≤ latest.capturedAtMonotonicNs →
    s.capturedAtMonotonicNs ≤ start.capturedAtMonotonicNs

/-- No sample is old enough for a window of this length. -/
def Uncovered (h : RateHistory) (windowNs : Nat) : Prop :=
  ∀ latest, h.samples.getLast? = some latest → ∀ s ∈ h.samples,
    latest.capturedAtMonotonicNs < s.capturedAtMonotonicNs + windowNs

/-- What the search from the newest sample finds. -/
theorem WellFormed.find (hw : h.WellFormed) {target : Nat} {start : RateSample}
    (hf : h.samples.reverse.find? (fun s => s.capturedAtMonotonicNs ≤ target) = some start) :
    start ∈ h.samples ∧ start.capturedAtMonotonicNs ≤ target ∧
      ∀ s ∈ h.samples, s.capturedAtMonotonicNs ≤ target → s.capturedAtMonotonicNs ≤ start.capturedAtMonotonicNs := by
  obtain ⟨hstart, newer, older, hsplit, hnewer⟩ := List.find?_eq_some_iff_append.mp hf
  have hmem : start ∈ h.samples := List.mem_reverse.mp (List.mem_of_find?_eq_some hf)
  refine ⟨hmem, of_decide_eq_true hstart, fun s hs htarget => ?_⟩
  have hchain := List.pairwise_reverse.mpr hw.chained
  have hs := List.mem_reverse.mpr hs
  rw [hsplit] at hchain hs
  obtain hs | hs := List.mem_append.mp hs
  · have hlate := hnewer s hs
    simp only [htarget, decide_true, Bool.not_true, Bool.false_eq_true] at hlate
  · obtain rfl | hs := List.mem_cons.mp hs
    · exact le_rfl
    · exact ((List.pairwise_cons.mp (List.pairwise_append.mp hchain).2.1).1 s hs).1.le

/-- **A calculated window is empty because no sample is old enough, or it holds the rates
between its endpoints.** -/
theorem calculateWindow_cases (hw : h.WellFormed) (i : Fin 3) (coverage : Nat) :
    h.Uncovered (rateWindowMs i * 1000000) ∧
        h.calculateWindow (rateWindowMs i) coverage = .ok (emptyWindow .warmingUp (rateWindowMs i) coverage) ∨
      ∃ start latest, h.Endpoints (rateWindowMs i * 1000000) start latest ∧
        h.calculateWindow (rateWindowMs i) coverage =
          .ok ⟨rateWindowMs i, .ready, coverage, some (latest.capturedAtMonotonicNs - start.capturedAtMonotonicNs),
            some start.capturedAtUnixMs, some latest.capturedAtUnixMs,
            some fun k => hookRatesBetween (start.hooks k) (latest.hooks k)
              (latest.capturedAtMonotonicNs - start.capturedAtMonotonicNs)⟩ := by
  have hlength := rateWindowMs_ge i
  generalize hn : rateWindowMs i * 1000000 = windowNs at hlength ⊢
  have hpos : 0 < windowNs := Nat.lt_of_lt_of_le (by decide) hlength
  unfold calculateWindow Uncovered
  rw [hn]
  cases hl : h.samples.getLast? with
  | none => exact .inl ⟨nofun, rfl⟩
  | some latest =>
    dsimp only
    by_cases hearly : latest.capturedAtMonotonicNs < windowNs
    · rw [if_pos hearly]
      refine .inl ⟨fun l hl' s _ => ?_, rfl⟩
      obtain rfl := Option.some.inj hl'
      exact Nat.lt_of_lt_of_le hearly (Nat.le_add_left _ _)
    rw [if_neg hearly]
    have htarget : ∀ {t : Nat}, t ≤ latest.capturedAtMonotonicNs - windowNs ↔
        t + windowNs ≤ latest.capturedAtMonotonicNs := fun {t} => Nat.le_sub_iff_add_le (Nat.not_lt.mp hearly)
    cases hf : h.samples.reverse.find?
        (fun s => s.capturedAtMonotonicNs ≤ latest.capturedAtMonotonicNs - windowNs) with
    | none =>
      refine .inl ⟨fun l hl' s hs => ?_, rfl⟩
      obtain rfl := Option.some.inj hl'
      have hyoung := List.find?_eq_none.mp hf s (List.mem_reverse.mpr hs)
      rw [decide_eq_true_eq, htarget] at hyoung
      exact Nat.not_le.mp hyoung
    | some start =>
      obtain ⟨hmem, hold, hnearest⟩ := hw.find hf
      rw [htarget] at hold
      have hp : Precedes start latest := by
        obtain rfl | hp := hw.latest hl hmem
        · omega
        · exact hp
      have hcovers : windowNs ≤ latest.capturedAtMonotonicNs - start.capturedAtMonotonicNs :=
        Nat.le_sub_of_add_le (by rw [Nat.add_comm]; exact hold)
      dsimp only
      rw [if_neg (Nat.not_lt.mpr hp.1.le),
        if_neg (not_or.mpr ⟨Nat.not_lt.mpr hcovers, (Nat.sub_pos_of_lt hp.1).ne'⟩)]
      refine .inr ⟨start, latest, ⟨hmem, hl, hp, hcovers, fun s hs h => hnearest s hs (htarget.mpr h)⟩, ?_⟩
      rw [calculateHookRates_ok hp.2 (hlength.trans hcovers)]
      rfl

theorem coverageMs_ok (hw : h.WellFormed) : ∃ coverage, h.coverageMs = .ok coverage ∧
    ∀ first latest, first ∈ h.samples → h.samples.getLast? = some latest →
      (latest.capturedAtMonotonicNs - first.capturedAtMonotonicNs) / 1000000 ≤ coverage := by
  unfold coverageMs
  cases hs : h.samples with
  | nil => exact ⟨0, rfl, fun _ _ hm => absurd hm List.not_mem_nil⟩
  | cons oldest rest =>
    obtain ⟨latest, hl⟩ : ∃ latest, (oldest :: rest).getLast? = some latest :=
      ⟨_, List.getLast?_eq_some_getLast (List.cons_ne_nil _ _)⟩
    have hle : ∀ x ∈ oldest :: rest, oldest.capturedAtMonotonicNs ≤ x.capturedAtMonotonicNs := by
      intro x hx
      have hchain := hw.chained
      rw [hs, List.pairwise_cons] at hchain
      obtain rfl | hx := List.mem_cons.mp hx
      · exact le_rfl
      · exact (hchain.1 x hx).1.le
    have hsub := hle latest (List.mem_of_getLast? hl)
    refine ⟨(latest.capturedAtMonotonicNs - oldest.capturedAtMonotonicNs) / 1000000,
      by simp only [hl, List.head?_cons, checkedSub, if_pos hsub], fun first l hm hl' => ?_⟩
    obtain rfl : latest = l := Option.some.inj (hl.symm.trans hl')
    exact Nat.div_le_div_right (Nat.sub_le_sub_left (hle first hm) _)

/-- **The windows of a well-formed history can be calculated at any time that is not
before its last sample.** -/
theorem detailedWindows_ok (hw : h.WellFormed) {nowNs : Nat} (hn : h.freshnessReference ≤ nowNs) :
    ∃ windows, h.detailedWindows nowNs = .ok windows := by
  obtain ⟨coverage, hcov, -⟩ := coverageMs_ok hw
  have hstale : ∃ stale, h.isStale nowNs = .ok stale := by
    unfold isStale
    split
    · exact ⟨_, rfl⟩
    · simp only [checkedSub, if_pos hn]
      exact ⟨_, rfl⟩
  obtain ⟨stale, hstale⟩ := hstale
  unfold detailedWindows
  rw [hcov, hstale]
  cases stale with
  | true => exact ⟨_, rfl⟩
  | false =>
    suffices hall : ∃ windows, tryFromFn (fun i => h.calculateWindow (rateWindowMs i) coverage) = .ok windows from hall
    refine tryFromFn_ok fun i => ?_
    obtain ⟨-, hwin⟩ | ⟨_, _, -, hwin⟩ := calculateWindow_cases hw i coverage
    · exact ⟨_, hwin⟩
    · exact ⟨_, hwin⟩

/-- What the windows of a well-formed history are made of. -/
theorem detailedWindows_cases (hw : h.WellFormed) {nowNs : Nat} {windows : Fin 3 → DetailedRateWindow}
    (hok : h.detailedWindows nowNs = .ok windows) (i : Fin 3) :
    (∃ state coverage, state ≠ .ready ∧ (state = .warmingUp → h.Uncovered (rateWindowMs i * 1000000)) ∧
        windows i = emptyWindow state (rateWindowMs i) coverage) ∨
      ∃ start latest coverage, h.Endpoints (rateWindowMs i * 1000000) start latest ∧ rateWindowMs i ≤ coverage ∧
        windows i = ⟨rateWindowMs i, .ready, coverage,
          some (latest.capturedAtMonotonicNs - start.capturedAtMonotonicNs), some start.capturedAtUnixMs,
          some latest.capturedAtUnixMs, some fun k => hookRatesBetween (start.hooks k) (latest.hooks k)
            (latest.capturedAtMonotonicNs - start.capturedAtMonotonicNs)⟩ := by
  obtain ⟨coverage, hcov, hcovers⟩ := coverageMs_ok hw
  unfold detailedWindows at hok
  rw [hcov, bind_eq_ok] at hok
  obtain ⟨_, hc, hok⟩ := hok
  obtain rfl := Except.ok.inj hc
  rw [bind_eq_ok] at hok
  obtain ⟨stale, -, hok⟩ := hok
  cases stale with
  | true =>
    obtain rfl := Except.ok.inj hok
    exact .inl ⟨.stale, coverage, nofun, nofun, rfl⟩
  | false =>
    have hwin := tryFromFn_eq_ok.mp hok i
    obtain ⟨huncovered, hempty⟩ | ⟨start, latest, hends, hready⟩ := calculateWindow_cases hw i coverage
    · exact .inl ⟨.warmingUp, coverage, nofun, fun _ => huncovered, Except.ok.inj (hwin.symm.trans hempty)⟩
    · refine .inr ⟨start, latest, coverage, hends, ?_, Except.ok.inj (hwin.symm.trans hready)⟩
      exact ((Nat.le_div_iff_mul_le (by decide)).mpr hends.covers).trans (hcovers start latest hends.mem hends.last)

theorem detailedWindows_windowMs (hw : h.WellFormed) {nowNs : Nat} {windows : Fin 3 → DetailedRateWindow}
    (hok : h.detailedWindows nowNs = .ok windows) (i : Fin 3) : (windows i).windowMs = rateWindowMs i := by
  obtain ⟨_, _, -, -, hi⟩ | ⟨_, _, _, -, -, hi⟩ := detailedWindows_cases hw hok i
  · rw [hi]
    rfl
  · rw [hi]

/-- The shape of a window without rates is valid unless it claims to be ready. -/
theorem validateEvidenceShape_empty (i : Fin 3) {state : RateWindowState} (hs : state ≠ .ready) (coverage : Nat) :
    validateEvidenceShape (rateWindowMs i) state coverage none none none false = .ok () := by
  unfold validateEvidenceShape
  rw [if_pos ⟨i, rfl⟩]
  cases state with
  | ready => exact absurd rfl hs
  | warmingUp => rfl
  | stale => rfl

theorem validateEvidenceShape_ready (i : Fin 3) {coverage elapsed : Nat} (startMs endMs : Nat)
    (he : rateWindowMs i * 1000000 ≤ elapsed) (hc : rateWindowMs i ≤ coverage) :
    validateEvidenceShape (rateWindowMs i) .ready coverage (some elapsed) (some startMs) (some endMs) true = .ok () := by
  have hpos := (rateWindowMs_ge i).trans he
  have hlong : ¬(some elapsed = some 0 ∨ (some elapsed).getD 0 < rateWindowMs i * 1000000 ∨ coverage < rateWindowMs i) := by
    simp only [Option.some.injEq, Option.getD_some, rateSamplePeriodNs] at hpos ⊢
    omega
  unfold validateEvidenceShape
  rw [if_pos ⟨i, rfl⟩]
  simp only [Option.isSome_some, Bool.and_self, Bool.not_true, Bool.false_eq_true, if_false]
  rw [if_neg hlong]

theorem validateHookRates_ok {hooks : Fin 2 → HookRate} (hr : ∀ k, (hooks k).role = hookOrder k)
    (hc : ∀ k c, ((hooks k).classes c).trafficClass = classOrder c) : validateHookRates hooks = .ok () := by
  unfold validateHookRates
  rw [if_pos hr, if_pos hc]

/-- **Every window of a well-formed history passes its own check.** -/
theorem detailedWindows_valid (hw : h.WellFormed) {nowNs : Nat} {windows : Fin 3 → DetailedRateWindow}
    (hok : h.detailedWindows nowNs = .ok windows) (i : Fin 3) : (windows i).validate = .ok () := by
  unfold DetailedRateWindow.validate
  obtain ⟨state, coverage, hstate, -, hi⟩ | ⟨start, latest, coverage, hends, hcov, hi⟩ :=
    detailedWindows_cases hw hok i
  · rw [hi]
    exact bind_unit_eq_ok.mpr ⟨validateEvidenceShape_empty i hstate coverage, rfl⟩
  · rw [hi]
    refine bind_unit_eq_ok.mpr ⟨validateEvidenceShape_ready i _ _ hends.covers hcov, ?_⟩
    exact validateHookRates_ok latest.ordered.1 latest.ordered.2

theorem validateDetailedRateWindows_ok (hw : h.WellFormed) {nowNs : Nat} {windows : Fin 3 → DetailedRateWindow}
    (hok : h.detailedWindows nowNs = .ok windows) : validateDetailedRateWindows windows = .ok () := by
  have hat : ∀ i, validateWindowAt windows i = .ok () := by
    intro i
    unfold validateWindowAt
    rw [if_neg (not_not_intro (detailedWindows_windowMs hw hok i)), detailedWindows_valid hw hok i]
  unfold validateDetailedRateWindows
  rw [hat 0, hat 1, hat 2]
  rfl

end RateHistory

end NetworkLoop.Observation
