import NetworkLoop.Detection.Invariant

/-! Unavailable periods are transparent.

`beneath` forgets what an unavailable period writes: the published `Unavailable` with
its times and error fields, and the transition history. A call of `unavailable` or
`pause` changes nothing else (`inserted_beneath`), and what an `evaluate` or a `clear`
shows depends on nothing else (`common_step`). So what the common calls of a run show
is a function of these calls alone (`shown_run`), and two runs with the same common
calls show the same (`unavailable_transparent`). -/
namespace NetworkLoop.Detection
open Library DetectionEngine

/-- The calls whose evidence the engine acts on. -/
def Call.isCommon : Call → Bool
  | .evaluate .. | .clear .. => true
  | .unavailable .. | .pause _ => false

/-- A report apart from its transition history. -/
def DetectionReport.withoutHistory (r : DetectionReport) : DetectionReport :=
  {r with stateSinceUnixMs := 0, transitionSequence := 0, transitions := []}

/-- The engine with this state published in place of an `Unavailable`, and no history. -/
def DetectionEngine.quieted (e : DetectionEngine) (state : DetectionState) : DetectionEngine :=
  {e with
    transitionSequence := 0
    transitions := []
    report := {e.report with
      state := state
      retainedAnomalousState := if state = .cooldown then e.lastAnomalousState else none
      evaluatedAtUnixMs := 0
      stateSinceUnixMs := 0
      signals := {e.report.signals with fingerprintWindow := .warming}
      transitionSequence := 0
      transitions := []
      lastErrorCode := none}}

/-- The engine as if no unavailable period had ever been published. -/
def DetectionEngine.beneath (e : DetectionEngine) : DetectionEngine := e.quieted e.effectiveState

/-- What a call shows: the state it leaves in force, and its reply. `engine` is the rest
of the engine, so that nothing else can differ. -/
structure Shown where
  effectiveState : DetectionState
  candidateStreak : Nat
  clearStreak : Nat
  cooldownStarted : Option Nat
  lastAnomalousState : Option DetectionState
  reply : Except DetectionEngineError DetectionReport
  engine : DetectionEngine

def Call.shown (e : DetectionEngine) (c : Call) : Shown where
  effectiveState := (c.reply e).2.effectiveState
  candidateStreak := (c.reply e).2.candidateStreak
  clearStreak := (c.reply e).2.clearStreak
  cooldownStarted := (c.reply e).2.cooldownStartedAtMonotonicNs
  lastAnomalousState := (c.reply e).2.lastAnomalousState
  reply := (c.reply e).1.map (·.withoutHistory)
  engine := (c.reply e).2.beneath

namespace DetectionEngine
variable {a b x e : DetectionEngine} {reply : Reply}

/-! ### The engine beneath -/

theorem beneath_effectiveState (e : DetectionEngine) : e.beneath.effectiveState = e.effectiveState := by
  show (if e.effectiveState = .unavailable then e.resumeState else e.effectiveState) = e.effectiveState
  unfold effectiveState
  by_cases h : e.report.state = .unavailable
  · rw [if_pos h, ite_self]
  · rw [if_neg h, if_neg h]

theorem quieted_quieted (e : DetectionEngine) (state next : DetectionState) :
    (e.quieted state).quieted next = e.quieted next := by
  simp only [quieted]

theorem quieted_withoutHistory (e : DetectionEngine) (state : DetectionState) :
    e.withoutHistory.quieted state = e.quieted state := by
  simp only [quieted, withoutHistory]

theorem quieted_synced (e : DetectionEngine) (state : DetectionState) : e.synced.quieted state = e.quieted state := by
  simp only [quieted, synced, syncRetainedState, syncHistory]

theorem beneath_beneath (e : DetectionEngine) : e.beneath.beneath = e.beneath := by
  rw [beneath, beneath_effectiveState, beneath, quieted_quieted]

theorem sound_beneath (h : e.Sound) : e.beneath.Sound where
  steady := {
    config := h.steady.config
    signals := DetectionSignals.validate_fingerprintWindow h.steady.signals FingerprintWindowReport.validate_warming
    bounds := h.steady.bounds
    available := h.steady.available
    cooldown := h.steady.cooldown
    started := h.steady.started
    anomalous := h.steady.anomalous
    remembered := h.steady.remembered
    errorField := by
      have havailable : e.effectiveState ≠ .unavailable := by
        rw [h.steady.resume]
        exact h.steady.available
      unfold DetectionReport.validateErrorField beneath quieted
      cases hstate : e.effectiveState with
      | unavailable => exact absurd hstate havailable
      | _ => rfl
    streaks := h.steady.streaks
    resume := (beneath_effectiveState e).trans h.steady.resume }
  chained := .nil _
  synced_eq := by
    have havailable : e.effectiveState ≠ .unavailable := by
      rw [h.steady.resume]
      exact h.steady.available
    unfold beneath
    cases hstate : e.effectiveState with
    | unavailable => exact absurd hstate havailable
    | _ => simp [quieted, synced, syncRetainedState, syncHistory]

theorem beneath_withoutHistory (e : DetectionEngine) : e.withoutHistory.beneath = e.beneath :=
  quieted_withoutHistory e e.effectiveState

theorem beneath_synced (e : DetectionEngine) : e.synced.beneath = e.beneath :=
  quieted_synced e e.effectiveState

/-- A publication has beneath what the engine it publishes has. -/
theorem Settled.beneath (h : Settled x reply) : reply.2.beneath = x.beneath := by
  rw [← beneath_withoutHistory, h.frame, beneath_withoutHistory, beneath_synced]

theorem Settled.report (h : Settled x reply) :
    reply.1.map (·.withoutHistory) = .ok x.synced.withoutHistory.report := by
  rw [h.ok, ← h.frame]
  rfl

/-- An inserted call changes nothing beneath. -/
theorem inserted_beneath (h : e.Sound) (hroomy : e.Roomy) {nowMs : Nat} {code : String}
    (hcode : validateErrorCode code = .ok ()) (reason : DetectionTransitionReason) :
    (e.publishUnavailable nowMs code reason false).2.beneath = e.beneath := by
  rw [(unavailable_settled h hroomy hcode reason).beneath]
  have hresume : (e.markUnavailable nowMs code false).resumeState = e.resumeState := by
    unfold markUnavailable
    simp only
    split
    · rename_i hstate
      rw [← h.steady.resume, effectiveState, if_neg hstate.1]
    · rfl
  have heffective : ((e.markUnavailable nowMs code false).showing .unavailable).effectiveState = e.effectiveState :=
    hresume.trans h.steady.resume.symm
  have hquieted : ∀ state, ((e.markUnavailable nowMs code false).showing .unavailable).quieted state =
      e.quieted state := by
    intro state
    simp only [markUnavailable] at hresume
    simp only [quieted, showing, markUnavailable, hresume, h.steady.streaks.1, h.steady.streaks.2, Bool.false_eq_true,
      if_false]
  unfold beneath
  rw [heffective, hquieted]

/-! ### The common calls -/

/-- Publications of engines that differ in their histories only show the same. -/
theorem Settled.alike {y : DetectionEngine} {reply' : Reply} (h : Settled x reply) (h' : Settled y reply')
    (hframe : x.synced.withoutHistory = y.synced.withoutHistory) :
    reply.1.map (·.withoutHistory) = reply'.1.map (·.withoutHistory) ∧ reply.2.beneath = reply'.2.beneath := by
  refine ⟨by rw [h.report, h'.report, hframe], ?_⟩
  rw [← beneath_withoutHistory, h.frame, hframe, ← h'.frame, beneath_withoutHistory]

theorem trusts_beneath (e : DetectionEngine) (nowNs nowMs : Nat) (s : DetectionSignals) :
    e.beneath.trusts nowNs nowMs s = e.trusts nowNs nowMs s := rfl

/-- Which check an untrusted tick fails. -/
theorem evaluate_refused {nowNs nowMs : Nat} {s : DetectionSignals} (h : e.trusts nowNs nowMs s = false) :
    e.evaluate nowNs nowMs s = (.error (if s.validate.isOk then .clockRegression else .invalidSignals), e) := by
  unfold trusts at h
  unfold evaluate
  cases hs : s.validate with
  | error err => rfl
  | ok u =>
    have hclock : e.clockRegressed nowNs nowMs = true := by
      simpa [hs, Except.isOk, Except.toBool] using h
    simp [hclock, Except.isOk, Except.toBool]

theorem updateCandidateStreak_eq (e : DetectionEngine) (candidate : StormCandidate) :
    e.updateCandidateStreak candidate = {e with
      lastCandidate := candidate
      candidateStreak := if candidate = .none then 0
        else if candidate = e.lastCandidate then min (e.candidateStreak + 1) detectionAssertTicks
        else 1} := by
  unfold updateCandidateStreak
  by_cases hnone : candidate = .none
  · simp [hnone]
  · by_cases hsame : candidate = e.lastCandidate
    · rw [if_neg hnone, if_pos hsame, if_neg hnone, if_pos hsame, hsame]
    · rw [if_neg hnone, if_neg hsame, if_neg hnone, if_neg hsame]

/-- A decision looks at the streaks and the start of the cooldown only. -/
theorem decision_congr (hcandidate : a.candidateStreak = b.candidateStreak) (hclear : a.clearStreak = b.clearStreak)
    (hcool : a.cooldownStartedAtMonotonicNs = b.cooldownStartedAtMonotonicNs) (current : DetectionState) (nowNs : Nat)
    (s : DetectionSignals) : a.decision current nowNs s = b.decision current nowNs s := by
  have hup : a.upgrades = b.upgrades := by
    funext current desired
    unfold upgrades
    rw [hcandidate]
  unfold decision anomalousDecision cooldownDecision cooldownElapsed quietDecision
  rw [hcandidate, hclear, hcool, hup]

section Step
variable (ha : a.Sound) (hb : b.Sound) (hroomA : a.Roomy) (hroomB : b.Roomy) (h : a.beneath = b.beneath)
include ha hb hroomA hroomB h

theorem evaluate_alike (nowNs nowMs : Nat) (s : DetectionSignals) :
    (a.evaluate nowNs nowMs s).1.map (·.withoutHistory) = (b.evaluate nowNs nowMs s).1.map (·.withoutHistory) ∧
      (a.evaluate nowNs nowMs s).2.beneath = (b.evaluate nowNs nowMs s).2.beneath := by
  have heffective : a.effectiveState = b.effectiveState := by
    rw [← beneath_effectiveState a, h, beneath_effectiveState]
  have htrusts : a.trusts nowNs nowMs s = b.trusts nowNs nowMs s := by
    rw [← trusts_beneath a, h, trusts_beneath]
  cases ht : a.trusts nowNs nowMs s with
  | false =>
    rw [evaluate_refused ht, evaluate_refused (htrusts.symm.trans ht)]
    exact ⟨rfl, h⟩
  | true =>
    obtain ⟨d, hd, hsettled⟩ := evaluate_settled ha hroomA ht
    obtain ⟨d', hd', hsettled'⟩ := evaluate_settled hb hroomB (htrusts.symm.trans ht)
    have hidentity : a.identity = b.identity := congrArg (·.identity) h
    have hlast : a.lastCandidate = b.lastCandidate := congrArg (·.lastCandidate) h
    have hstreak : a.candidateStreak = b.candidateStreak := congrArg (·.candidateStreak) h
    have hclear : a.clearStreak = b.clearStreak := congrArg (·.clearStreak) h
    have hcool : a.cooldownStartedAtMonotonicNs = b.cooldownStartedAtMonotonicNs :=
      congrArg (·.cooldownStartedAtMonotonicNs) h
    have hanomalous : a.lastAnomalousState = b.lastAnomalousState := congrArg (·.lastAnomalousState) h
    have hconfig : a.report.config = b.report.config := congrArg (·.report.config) h
    have hcounted : (a.updateCandidateStreak s.candidate).candidateStreak =
        (b.updateCandidateStreak s.candidate).candidateStreak := by
      simp only [updateCandidateStreak_eq, hlast, hstreak]
    have hdecided : d = d' := by
      have hsame := decision_congr hcounted (by simp only [updateCandidateStreak_eq, hclear])
        (by simp only [updateCandidateStreak_eq, hcool]) a.effectiveState nowNs s
      rw [hd, heffective, hd'] at hsame
      exact Except.ok.inj hsame
    subst hdecided
    refine hsettled.alike hsettled' ?_
    simp only [updateCandidateStreak_eq, absorb, showing, synced, syncRetainedState, syncHistory, withoutHistory,
      hidentity, hlast, hstreak, hanomalous, hconfig]

theorem clear_alike (identity : RateIdentity) (atNs atMs : Nat) (code : String) :
    (a.clear identity atNs atMs code).1.map (·.withoutHistory) = (b.clear identity atNs atMs code).1.map (·.withoutHistory) ∧
      (a.clear identity atNs atMs code).2.beneath = (b.clear identity atNs atMs code).2.beneath := by
  have hidentity : a.identity = b.identity := congrArg (·.identity) h
  have hconfig : a.report.config = b.report.config := congrArg (·.report.config) h
  cases hcode : validateErrorCode code with
  | error err =>
    unfold clear
    rw [hcode]
    exact ⟨rfl, h⟩
  | ok u =>
    by_cases hsame : identity = a.identity
    · have hsettled' := @clear_settled b atNs atMs code hb hroomB hcode
      rw [← hidentity] at hsettled'
      rw [hsame]
      refine (clear_settled ha hroomA hcode).alike hsettled' ?_
      simp [reset, markUnavailable, showing, synced, syncRetainedState, syncHistory, withoutHistory, hidentity, hconfig]
    · have hsame' : identity ≠ b.identity := hidentity ▸ hsame
      have hfresh : a.clear identity atNs atMs code = b.clear identity atNs atMs code := by
        simp only [clear, hcode, ne_eq, hsame, hsame', not_false_eq_true, if_true]
      rw [hfresh]
      exact ⟨rfl, rfl⟩

/-- What a common call shows depends on the engine beneath only. -/
theorem common_step (c : Call) (hc : c.isCommon = true) : c.shown a = c.shown b := by
  have halike : (c.reply a).1.map (·.withoutHistory) = (c.reply b).1.map (·.withoutHistory) ∧
      (c.reply a).2.beneath = (c.reply b).2.beneath := by
    cases c with
    | evaluate nowNs nowMs s => exact evaluate_alike ha hb hroomA hroomB h nowNs nowMs s
    | clear identity atNs atMs code => exact clear_alike ha hb hroomA hroomB h identity atNs atMs code
    | unavailable nowMs code => cases hc
    | pause nowMs => cases hc
  obtain ⟨hreply, hbeneath⟩ := halike
  have heffective : (c.reply a).2.effectiveState = (c.reply b).2.effectiveState := by
    rw [← beneath_effectiveState (c.reply a).2, hbeneath, beneath_effectiveState]
  have hstreak : (c.reply a).2.candidateStreak = (c.reply b).2.candidateStreak :=
    congrArg (·.candidateStreak) hbeneath
  have hclear : (c.reply a).2.clearStreak = (c.reply b).2.clearStreak := congrArg (·.clearStreak) hbeneath
  have hcool : (c.reply a).2.cooldownStartedAtMonotonicNs = (c.reply b).2.cooldownStartedAtMonotonicNs :=
    congrArg (·.cooldownStartedAtMonotonicNs) hbeneath
  have hanomalous : (c.reply a).2.lastAnomalousState = (c.reply b).2.lastAnomalousState :=
    congrArg (·.lastAnomalousState) hbeneath
  simp only [Call.shown, heffective, hstreak, hclear, hcool, hanomalous, hreply, hbeneath]

end Step

end DetectionEngine

/-! ### Runs -/

/-- A run as its common calls show it, newest first. -/
def commonRecorder : Recorder DetectionEngine Call Shown where
  step := fun e c => (c.reply e).2
  note := fun e c log => if c.isCommon then c.shown e :: log else log

/-- The run beneath: every common call meets the engine without its unavailable periods. -/
def beneathRecorder : Recorder DetectionEngine Call Shown where
  step := fun e c => (c.reply e).2.beneath
  note := fun e c log => c.shown e :: log

/-- `pause` brings a code of its own, `unavailable` the caller's. -/
def Call.validCode : Call → Bool
  | .unavailable _ code => validateErrorCode code = .ok ()
  | _ => true

/-- An inserted call publishes a valid code, and no call exhausts the transition sequence. -/
def Undisturbing (e : DetectionEngine) (c : Call) : Prop :=
  (c.reply e).2.Roomy ∧ c.validCode = true

instance : DecidableRel Undisturbing := fun _ _ => inferInstanceAs (Decidable (_ ∧ _))

theorem validate_samplerPaused : validateErrorCode "SAMPLER_PAUSED" = .ok () := by
  simp [validateErrorCode]
  decide

/-- What the common calls show is a function of the common calls. -/
theorem shown_run (calls : List Call) (e : DetectionEngine) (log : List Shown) (hsound : e.Sound) (hroomy : e.Roomy)
    (hrule : commonRecorder.Obeys Undisturbing e calls) :
    (commonRecorder.run (e, log) calls).2 =
      (beneathRecorder.run (e.beneath, log) (calls.filter Call.isCommon)).2 := by
  induction calls generalizing e log with
  | nil => rfl
  | cons c rest ih =>
    obtain ⟨⟨hroom, hcode⟩, hrest⟩ := hrule
    have hnext := ih (c.reply e).2 (commonRecorder.note e c log) (sound_step hsound hroomy c) hroom hrest
    refine hnext.trans ?_
    cases hc : c.isCommon with
    | true =>
      have hzero : e.beneath.Roomy := by
        show 0 + 1 < u64Bound
        decide
      have hshown := common_step hsound (sound_beneath hsound) hroomy hzero (beneath_beneath e).symm c hc
      have hengine : (c.reply e).2.beneath = (c.reply e.beneath).2.beneath := congrArg (·.engine) hshown
      rw [List.filter_cons_of_pos hc]
      simp only [commonRecorder, hc, if_true, hshown, hengine]
      rfl
    | false =>
      have hkept : (c.reply e).2.beneath = e.beneath := by
        cases c with
        | unavailable nowMs code => exact inserted_beneath hsound hroomy (of_decide_eq_true hcode) _
        | pause nowMs => exact inserted_beneath hsound hroomy validate_samplerPaused _
        | evaluate nowNs nowMs s => cases hc
        | clear identity atNs atMs code => cases hc
      rw [List.filter_cons_of_neg (by simp [hc]), hkept]
      simp [commonRecorder, hc]

/-- **Unavailable periods are transparent.** Two runs with the same `evaluate` and `clear`
calls show the same after each of them, wherever `unavailable` and `pause` are inserted. -/
theorem unavailable_transparent (identity : RateIdentity) (startNs startMs : Nat) (calls calls' : List Call)
    (hcommon : calls.filter Call.isCommon = calls'.filter Call.isCommon)
    (hrule : commonRecorder.Obeys Undisturbing (.new identity startNs startMs) calls)
    (hrule' : commonRecorder.Obeys Undisturbing (.new identity startNs startMs) calls') :
    (commonRecorder.run (.new identity startNs startMs, []) calls).2 =
      (commonRecorder.run (.new identity startNs startMs, []) calls').2 := by
  have hsound := sound_new identity startNs startMs
  have hroomy : (new identity startNs startMs).Roomy := by
    show 0 + 1 < u64Bound
    decide
  rw [shown_run calls _ [] hsound hroomy hrule, shown_run calls' _ [] hsound hroomy hrule', hcommon]

/-- An ingress storm that is asserted behind two unavailable periods. -/
def interruptedStorm : List Call :=
  .pause 1500 :: everySecond 2 (List.replicate 2 (sampleSignals .ingress true)) ++
    [.unavailable 3100 "RATE_MAP_UNAVAILABLE", .pause 3200] ++ everySecond 4 [sampleSignals .ingress true]

theorem unavailable_transparent_storm :
    (commonRecorder.run (.new sampleIdentity 1000000000 1000, []) interruptedStorm).2 =
      (commonRecorder.run (.new sampleIdentity 1000000000 1000, []) (afterIngressStorm [])).2 :=
  unavailable_transparent sampleIdentity 1000000000 1000 _ _ (by decide) (by decide) (by decide)

end NetworkLoop.Detection
