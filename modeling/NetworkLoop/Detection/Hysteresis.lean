import NetworkLoop.Detection.Runs

/-! Asserting, demoting and clearing anomalies.

The engine asserts a storm after three equal candidates and lowers or clears an
anomaly after ten ticks that do not support it. One counter serves both ways down,
and on the tenth such tick the engine moves to whatever that tick supports, be it
weaker or stronger. `assertion_sound_iff` says exactly when a tick raises the state
without the evidence for it, `clearing_needs_ten_unsupported_ticks` what the ten
ticks before a way down have in common, and `loop_kept_iff` how long a loop state
survives without fingerprint evidence. -/
namespace NetworkLoop.Detection
open Library DetectionEngine

section
variable {e : DetectionEngine} {log : List Tick} {nowNs nowMs : Nat} {s : DetectionSignals}

/-! ### Assertion -/

/-- A tick that changes the state to an anomaly has a reason to: three equal
candidates in a row, loop evidence on a state that supports it, or a way down. -/
def AssertionSound (log : List Tick) (t : Tick) : Prop :=
  t.after ≠ t.before → t.after.isAnomalous = true →
    (t.signals.candidate ≠ .none ∧
      Streak (Carries t.signals.candidate) detectionAssertTicks (t :: log)) ∨
    (isRelationshipState t.after = true ∧ stateSupportsRelationship t.before = true) ∨
    (t.before.isAnomalous = true ∧ anomalyRank t.after < anomalyRank t.before)

instance (log : List Tick) (t : Tick) : Decidable (AssertionSound log t) :=
  inferInstanceAs (Decidable (_ → _ → _))

/-- The tick completes the clear streak of an anomaly while it carries a stronger
one that has not been asserted and is not loop evidence on a supporting state. -/
def EscalatesByClearing (e : DetectionEngine) (s : DetectionSignals) : Prop :=
  e.effectiveState.isAnomalous = true ∧ detectionClearTicks ≤ e.clearStreak + 1 ∧
    ∃ d, desiredAnomaly s = some d ∧ anomalyRank e.effectiveState < anomalyRank d ∧
      ¬(isRelationshipState d = true ∧ stateSupportsRelationship e.effectiveState = true) ∧
      ¬(s.candidate = e.lastCandidate ∧ 2 ≤ e.candidateStreak)

theorem candidate_ne_none {d : DetectionState} (h : desiredAnomaly s = some d) : s.candidate ≠ .none := by
  intro hnone
  rw [(desiredAnomaly_eq_none_iff s).mpr hnone] at h
  cases h

/-- A way to a stronger anomaly that is not an upgrade has neither kind of support. -/
theorem not_upgrades_iff {d : DetectionState} (hrank : anomalyRank e.effectiveState < anomalyRank d) :
    e.upgrades e.effectiveState d = false ↔
      ¬(isRelationshipState d = true ∧ stateSupportsRelationship e.effectiveState = true) ∧
        ¬detectionAssertTicks ≤ e.candidateStreak := by
  simp [upgrades, hrank]

theorem assertion_sound_of_streak (hcount : CandidateCounted e.memory log) {d : DetectionState}
    (hd : desiredAnomaly s = some d)
    (hthree : detectionAssertTicks ≤ (e.updateCandidateStreak s.candidate).candidateStreak) :
    AssertionSound log (e.tick nowNs nowMs s) := by
  intro _ _
  have hc := candidate_ne_none hd
  exact .inl ⟨hc, (streak_asserts_iff (e.tick nowNs nowMs s) hcount hc).mpr hthree⟩

/-- One decision, judged: `d` is the decision the tick's reply is made of. -/
theorem assertion_sound_move {d : Decision} (hcount : CandidateCounted e.memory log)
    (hmove : Move (e.updateCandidateStreak s.candidate) e.effectiveState nowNs s d)
    (hafter : (e.tick nowNs nowMs s).after = d.nextState) :
    AssertionSound log (e.tick nowNs nowMs s) ↔ ¬EscalatesByClearing e s := by
  obtain ⟨hrep, hres, hclear, -⟩ := updateCandidateStreak_frame e s.candidate
  have hstays : d.nextState = e.effectiveState → AssertionSound log (e.tick nowNs nowMs s) :=
    fun h hne => absurd (hafter.trans h) hne
  have hcalm : d.nextState.isAnomalous = false → AssertionSound log (e.tick nowNs nowMs s) := by
    intro h _ han
    rw [hafter, h] at han
    cases han
  cases hmove with
  | supported _ hd =>
    refine iff_of_true (hstays rfl) ?_
    rintro ⟨-, -, d, hd', hrank, -⟩
    rw [hd] at hd'
    cases hd'
    exact Nat.lt_irrefl _ hrank
  | raised d hcur hd hne hup =>
    have hrank : anomalyRank e.effectiveState < anomalyRank d := by
      simp only [upgrades, Bool.and_eq_true, decide_eq_true_eq] at hup
      exact hup.1
    refine iff_of_true ?_ ?_
    · by_cases hthree : detectionAssertTicks ≤ (e.updateCandidateStreak s.candidate).candidateStreak
      · exact assertion_sound_of_streak hcount hd hthree
      · intro _ _
        refine .inr (.inl ?_)
        rw [hafter]
        show isRelationshipState d = true ∧ stateSupportsRelationship e.effectiveState = true
        simpa [upgrades, hrank, hthree] using hup
    · rintro ⟨-, -, d', hd', -, hrel, hstreak⟩
      rw [hd] at hd'
      cases hd'
      have hno : ¬detectionAssertTicks ≤ (e.updateCandidateStreak s.candidate).candidateStreak := by
        rw [updated_asserts_iff e (candidate_ne_none hd)]
        exact hstreak
      simp only [upgrades, Bool.and_eq_true, Bool.or_eq_true, decide_eq_true_eq] at hup
      exact hup.2.elim hrel hno
  | faded _ _ _ hlt =>
    refine iff_of_true (hstays rfl) ?_
    rintro ⟨-, hten, -⟩
    rw [hclear] at hlt
    omega
  | replaced d hcur hd hne hup hten =>
    rw [hclear] at hten
    have han := desiredAnomaly_anomalous hd
    rcases Nat.lt_trichotomy (anomalyRank d) (anomalyRank e.effectiveState) with hlt | heq | hgt
    · refine iff_of_true (fun _ _ => .inr (.inr ⟨hcur, by rw [hafter]; exact hlt⟩)) ?_
      rintro ⟨-, -, d', hd', hrank, -⟩
      rw [hd] at hd'
      cases hd'
      omega
    · exact absurd (anomalyRank_injective han hcur heq) hne
    · -- the clear streak is used to move up
      have hc := candidate_ne_none hd
      have heff : (e.updateCandidateStreak s.candidate).effectiveState = e.effectiveState := by
        rw [effectiveState, effectiveState, hrep, hres]
      have hup' := hup
      rw [← heff, not_upgrades_iff (by rw [heff]; exact hgt), heff] at hup'
      refine iff_of_false ?_ (not_not_intro ⟨hcur, hten, d, hd, hgt, hup'.1, ?_⟩)
      · intro hsound
        rcases hsound (by rw [hafter]; exact hne) (by rw [hafter]; exact han) with h | h | h
        · exact hup'.2 ((streak_asserts_iff (e.tick nowNs nowMs s) hcount hc).mp h.2)
        · exact hup'.1 (by rw [hafter] at h; exact h)
        · have := h.2
          rw [hafter] at this
          exact Nat.lt_asymm this hgt
      · rw [← updated_asserts_iff e hc]
        exact hup'.2
  | cleared _ hd _ =>
    refine iff_of_true (hcalm rfl) ?_
    rintro ⟨-, -, d', hd', -⟩
    rw [hd] at hd'
    cases hd'
  | reasserted d hcur hd hthree | asserted d hcur _ hd hthree =>
    refine iff_of_true (assertion_sound_of_streak hcount hd hthree) ?_
    rintro ⟨han, -⟩
    simp_all [DetectionState.isAnomalous]
  | blipped d hcur hd _ =>
    refine iff_of_true (hstays hcur.symm) ?_
    rintro ⟨han, -⟩
    simp_all [DetectionState.isAnomalous]
  | cooling _ hcur _ _ _ | completed _ hcur _ _ _ =>
    refine iff_of_true (hcalm rfl) ?_
    rintro ⟨han, -⟩
    simp_all [DetectionState.isAnomalous]
  | readied hcur _ _ =>
    refine iff_of_true (hcalm rfl) ?_
    rintro ⟨han, -⟩
    simp_all [DetectionState.isAnomalous]
  | waited hcur _ _ _ =>
    refine iff_of_true (hstays rfl) ?_
    rintro ⟨han, -⟩
    rw [hcur] at han
    cases han

end

/-- **When a tick may raise the state.** In every run, a successful `evaluate` has a
sound reason for the anomaly it moves to, unless it completes the clear streak of a
weaker anomaly while it carries a stronger one that it may not assert. -/
theorem assertion_sound_iff (identity : RateIdentity) (startNs startMs : Nat) (calls : List Call)
    (nowNs nowMs : Nat) (s : DetectionSignals) (r : DetectionReport)
    (hok : ((history identity startNs startMs calls).1.evaluate nowNs nowMs s).1 = .ok r) :
    AssertionSound (history identity startNs startMs calls).2
        ((history identity startNs startMs calls).1.tick nowNs nowMs s) ↔
      ¬EscalatesByClearing (history identity startNs startMs calls).1 s := by
  obtain ⟨-, d, hd, hmem, -⟩ := evaluate_ok hok
  exact assertion_sound_move (candidateCounted_history identity startNs startMs calls)
    (move_of_decision hd) (congrArg Memory.effectiveState hmem)

/-- An egress storm, then nine clear ticks. -/
def fadedEgressStorm : List Call :=
  everySecond 2 (List.replicate 3 (sampleSignals .egress true) ++ List.replicate 9 (sampleSignals .none true))

/-- The third equal candidate of a run asserts its storm with reason. -/
theorem assertion_sound_third_egress :
    AssertionSound (sampleHistory (everySecond 2 (List.replicate 2 (sampleSignals .egress true)))).2
      ((sampleHistory (everySecond 2 (List.replicate 2 (sampleSignals .egress true)))).1.tick 4000000000 4000
        (sampleSignals .egress true)) :=
  (assertion_sound_iff sampleIdentity 1000000000 1000
    (everySecond 2 (List.replicate 2 (sampleSignals .egress true))) 4000000000 4000
    (sampleSignals .egress true) _ rfl).mpr (by rintro ⟨han, -⟩; revert han; decide)

/-- One tick takes the faded egress storm straight to the highest loop state. -/
theorem faded_egress_storm_escalates :
    (sampleHistory fadedEgressStorm).1.effectiveState = .egressStormConfirmed ∧
      ((sampleHistory fadedEgressStorm).1.evaluate 14000000000 14000 (sampleLoopSignals true)).1.isOk = true ∧
      ((sampleHistory fadedEgressStorm).1.tick 14000000000 14000 (sampleLoopSignals true)).after =
        .externalLoopHighConfidence ∧
      ¬AssertionSound (sampleHistory fadedEgressStorm).2
        ((sampleHistory fadedEgressStorm).1.tick 14000000000 14000 (sampleLoopSignals true)) := by
  decide

/-! ### Clearing and demotion -/

/-- An ingress storm, then these ticks. -/
def afterIngressStorm (ticks : List DetectionSignals) : List Call :=
  everySecond 2 (List.replicate 3 (sampleSignals .ingress true) ++ ticks)

/-- The storm is still there, and the fingerprint window says nothing about a loop. -/
def MissingFingerprints (s : DetectionSignals) : Prop :=
  s.loopSuspected = none ∧ (s.candidate = .ingress ∨ s.candidate = .bidirectional)

instance : DecidablePred MissingFingerprints := fun _ => inferInstanceAs (Decidable (_ ∧ _))

/-- The arguments of one `evaluate` call. -/
structure Reading where
  nowNs : Nat
  nowMs : Nat
  signals : DetectionSignals

/-- The engine after these `evaluate` calls. -/
def DetectionEngine.after (e : DetectionEngine) : List Reading → DetectionEngine
  | [] => e
  | x :: rest => (e.evaluate x.nowNs x.nowMs x.signals).2.after rest

/-- All these `evaluate` calls succeed. -/
def DetectionEngine.Accepts (e : DetectionEngine) : List Reading → Prop
  | [] => True
  | x :: rest => (e.evaluate x.nowNs x.nowMs x.signals).1.isOk = true ∧
      (e.evaluate x.nowNs x.nowMs x.signals).2.Accepts rest

instance DetectionEngine.decidableAccepts : (e : DetectionEngine) → (readings : List Reading) →
    Decidable (e.Accepts readings)
  | _, [] => .isTrue trivial
  | e, x :: rest =>
    have := decidableAccepts (e.evaluate x.nowNs x.nowMs x.signals).2 rest
    inferInstanceAs (Decidable (_ ∧ _))

/-- The loop state survives every one of these calls. -/
def DetectionEngine.KeepsLoop (e : DetectionEngine) (readings : List Reading) : Prop :=
  ∀ done, done <+: readings → isRelationshipState (e.after done).effectiveState = true

section
variable {e : DetectionEngine} {nowNs nowMs : Nat} {s : DetectionSignals}

/-- Without fingerprint evidence a storm supports a rate-only state. -/
theorem desiredAnomaly_of_missing (hvalid : s.validate = .ok ()) (h : MissingFingerprints s) :
    ∃ d, desiredAnomaly s = some d ∧ isRelationshipState d = false ∧ anomalyRank d < 4 := by
  have hhigh : s.loopHighConfidence ≠ some true := by
    intro hhigh
    cases (DetectionSignals.suspected_of_highConfidence hvalid hhigh).symm.trans h.1
  obtain ⟨hsus, hc | hc⟩ := h
  · exact ⟨.ingressStormConfirmed, by simp [desiredAnomaly, strongestAnomaly, hhigh, hsus, hc, candidateState],
      rfl, by decide⟩
  · exact ⟨.bidirectionalStormConfirmed,
      by simp [desiredAnomaly, strongestAnomaly, hhigh, hsus, hc, candidateState], rfl, by decide⟩

theorem rank_of_relationship {state : DetectionState} (h : isRelationshipState state = true) :
    4 ≤ anomalyRank state := by
  cases state <;> simp_all [isRelationshipState, anomalyRank]

/-- One tick without fingerprints costs a loop state one of its ten ticks, or the state. -/
theorem missing_tick (hloop : isRelationshipState e.effectiveState = true) (hmiss : MissingFingerprints s)
    (hok : (e.evaluate nowNs nowMs s).1.isOk = true) :
    (e.clearStreak + 1 < detectionClearTicks ∧
      (e.evaluate nowNs nowMs s).2.effectiveState = e.effectiveState ∧
      (e.evaluate nowNs nowMs s).2.clearStreak = e.clearStreak + 1) ∨
    (detectionClearTicks ≤ e.clearStreak + 1 ∧
      isRelationshipState (e.evaluate nowNs nowMs s).2.effectiveState = false) := by
  obtain ⟨r, hr⟩ : ∃ r, (e.evaluate nowNs nowMs s).1 = .ok r := by
    cases h : (e.evaluate nowNs nowMs s).1 with
    | error _ => rw [h] at hok; cases hok
    | ok r => exact ⟨r, rfl⟩
  obtain ⟨htrust, d, hdec, hmem, -⟩ := evaluate_ok hr
  have hstate : (e.evaluate nowNs nowMs s).2.effectiveState = d.nextState :=
    congrArg Memory.effectiveState hmem
  have hcleared : (e.evaluate nowNs nowMs s).2.clearStreak = d.clearStreak :=
    congrArg Memory.clearStreak hmem
  obtain ⟨-, -, hclear, -⟩ := updateCandidateStreak_frame e s.candidate
  obtain ⟨a, ha, hrel, hrank⟩ := desiredAnomaly_of_missing (validate_of_trusts htrust) hmiss
  have hlow : anomalyRank a < anomalyRank e.effectiveState :=
    Nat.lt_of_lt_of_le hrank (rank_of_relationship hloop)
  have han := relationship_anomalous hloop
  rw [hstate, hcleared]
  cases move_of_decision hdec with
  | supported _ hd =>
    rw [ha] at hd
    cases hd
    exact absurd hlow (Nat.lt_irrefl _)
  | raised b _ hd _ hup =>
    rw [ha] at hd
    cases hd
    simp [upgrades, Nat.lt_asymm hlow] at hup
  | faded _ _ _ hlt =>
    rw [hclear] at hlt ⊢
    exact .inl ⟨hlt, rfl, rfl⟩
  | replaced b _ hd _ _ hle =>
    rw [ha] at hd
    cases hd
    rw [hclear] at hle
    exact .inr ⟨hle, hrel⟩
  | cleared _ hd =>
    rw [ha] at hd
    cases hd
  | reasserted _ hcur | blipped _ hcur | cooling _ hcur | completed _ hcur | readied hcur =>
    rw [hcur] at han
    cases han
  | asserted _ hcur | waited hcur =>
    rw [hcur] at han
    cases han

theorem keepsLoop_cons {x : Reading} {rest : List Reading} : e.KeepsLoop (x :: rest) ↔
    isRelationshipState e.effectiveState = true ∧
      (e.evaluate x.nowNs x.nowMs x.signals).2.KeepsLoop rest := by
  constructor
  · intro h
    exact ⟨h [] (List.nil_prefix), fun done hdone => h (x :: done) (List.cons_prefix_cons.mpr ⟨rfl, hdone⟩)⟩
  · rintro ⟨hnow, hrest⟩ done hdone
    cases done with
    | nil => exact hnow
    | cons y done =>
      obtain ⟨rfl, htail⟩ := List.cons_prefix_cons.mp hdone
      exact hrest done htail

end

/-- Ticks without fingerprints run down the clear streak like any other. -/
theorem keepsLoop_missing_iff (e : DetectionEngine) (readings : List Reading)
    (hloop : isRelationshipState e.effectiveState = true)
    (hmiss : ∀ x ∈ readings, MissingFingerprints x.signals) (hok : e.Accepts readings) :
    e.KeepsLoop readings ↔ readings = [] ∨ e.clearStreak + readings.length < detectionClearTicks := by
  induction readings generalizing e with
  | nil =>
    refine iff_of_true (fun done hdone => ?_) (.inl rfl)
    rw [List.prefix_nil.mp hdone]
    exact hloop
  | cons x rest ih =>
    rw [keepsLoop_cons]
    simp only [List.mem_cons, forall_eq_or_imp] at hmiss
    rcases missing_tick hloop hmiss.1 hok.1 with ⟨hlt, hstate, hclear⟩ | ⟨hle, hlost⟩
    · rw [ih _ (by rw [hstate]; exact hloop) hmiss.2 hok.2, hclear]
      simp only [hloop, List.length_cons, true_and, reduceCtorEq, false_or]
      cases rest with
      | nil => simp [hlt]
      | cons y rest => simp only [reduceCtorEq, false_or, List.length_cons]; omega
    · refine iff_of_false ?_ ?_
      · rintro ⟨-, hrest⟩
        have hnow := hrest [] List.nil_prefix
        rw [DetectionEngine.after, hlost] at hnow
        cases hnow
      · simp only [reduceCtorEq, List.length_cons, false_or]
        omega

/-- **How long a loop state survives without fingerprints.** From every reachable loop
state, successful ticks that still carry the storm but no fingerprint evidence keep a
loop state in force exactly as long as the clear streak stays below ten. -/
theorem loop_kept_iff (identity : RateIdentity) (startNs startMs : Nat) (calls : List Call)
    (readings : List Reading)
    (hloop : isRelationshipState (history identity startNs startMs calls).1.effectiveState = true)
    (hmiss : ∀ x ∈ readings, MissingFingerprints x.signals)
    (hok : (history identity startNs startMs calls).1.Accepts readings) :
    (history identity startNs startMs calls).1.KeepsLoop readings ↔
      readings = [] ∨
        (history identity startNs startMs calls).1.clearStreak + readings.length < detectionClearTicks :=
  keepsLoop_missing_iff _ readings hloop hmiss hok

/-- An ingress storm that a ready fingerprint window raised to a suspected loop. -/
def suspectedLoop : List Call := afterIngressStorm [sampleLoopSignals false]

/-- `n` ticks, from second six, that carry the storm without fingerprint evidence. -/
def missingReadings (n : Nat) : List Reading :=
  (List.range n).map fun i => ⟨(6 + i) * 1000000000, (6 + i) * 1000, sampleSignals .ingress true⟩

theorem loop_kept_nine_ticks : (sampleHistory suspectedLoop).1.KeepsLoop (missingReadings 9) :=
  (loop_kept_iff sampleIdentity 1000000000 1000 suspectedLoop (missingReadings 9) (by decide) (by decide)
    (by decide)).mpr (by decide)

/-- The tenth tick without fingerprint evidence demotes the loop to a storm. -/
theorem loop_lost_after_ten_ticks :
    (sampleHistory suspectedLoop).1.effectiveState = .externalLoopSuspected ∧
      (∀ x ∈ missingReadings 10, MissingFingerprints x.signals) ∧
      (sampleHistory suspectedLoop).1.Accepts (missingReadings 10) ∧
      ((sampleHistory suspectedLoop).1.after (missingReadings 10)).effectiveState = .ingressStormConfirmed := by
  decide

end NetworkLoop.Detection
