import NetworkLoop.Detection.Engine

/-! What one call can do.

`Move` lists the moves of the state machine of `evaluate` with everything each of
them requires, and `move_of_decision` says that there are no others; nothing after
this module looks inside the decision functions. `Memory` is the part of an engine
that later decisions depend on: `evaluate_outcome` and `publishUnavailable_memory`
say what each call leaves of it, whether the call succeeds or fails. -/
namespace NetworkLoop.Detection

/-! ### Facts about anomalies -/

theorem desiredAnomaly_eq_none_iff (s : DetectionSignals) : desiredAnomaly s = none ↔ s.candidate = .none := by
  unfold desiredAnomaly strongestAnomaly supportsRelationship
  cases hc : s.candidate
  · simp [candidateState]
  all_goals
    simp only [candidateState]
    split
    · simp
    · split <;> simp

theorem desiredAnomaly_anomalous {s : DetectionSignals} {d : DetectionState} (h : desiredAnomaly s = some d) :
    d.isAnomalous = true := by
  unfold desiredAnomaly strongestAnomaly at h
  split at h
  · cases h; rfl
  · split at h
    · cases h; rfl
    · cases hc : s.candidate <;> rw [hc] at h <;> cases h <;> rfl

theorem desiredAnomaly_ne_cooldown {s : DetectionSignals} {d : DetectionState} (h : desiredAnomaly s = some d) :
    d ≠ .cooldown := by
  rintro rfl
  cases desiredAnomaly_anomalous h

/-- Two anomalies of one rank are one anomaly. -/
theorem anomalyRank_injective {a b : DetectionState} (ha : a.isAnomalous = true) (hb : b.isAnomalous = true)
    (h : anomalyRank a = anomalyRank b) : a = b := by
  cases a <;> cases b <;> simp_all [DetectionState.isAnomalous, anomalyRank]

theorem relationship_anomalous {s : DetectionState} (h : isRelationshipState s = true) : s.isAnomalous = true := by
  cases s <;> simp_all [isRelationshipState, DetectionState.isAnomalous]

namespace DetectionEngine

/-! ### The moves of the state machine -/

/-- One decision of `evaluate`, with all it requires of the engine (whose candidate
streak counts the tick), of the current state and of the signals. -/
inductive Move (e : DetectionEngine) (current : DetectionState) (nowNs : Nat) (s : DetectionSignals) :
    Decision → Prop where
  | supported : current.isAnomalous = true → desiredAnomaly s = some current →
      Move e current nowNs s ⟨current, none, 0, e.cooldownStartedAtMonotonicNs⟩
  | raised (d : DetectionState) : current.isAnomalous = true → desiredAnomaly s = some d →
      d ≠ current → e.upgrades current d = true →
      Move e current nowNs s ⟨d, some (reasonForAssertion d), 0, e.cooldownStartedAtMonotonicNs⟩
  | faded : current.isAnomalous = true → desiredAnomaly s ≠ some current →
      (∀ d, desiredAnomaly s = some d → e.upgrades current d = false) →
      e.clearStreak + 1 < detectionClearTicks →
      Move e current nowNs s ⟨current, none, e.clearStreak + 1, e.cooldownStartedAtMonotonicNs⟩
  | replaced (d : DetectionState) : current.isAnomalous = true → desiredAnomaly s = some d →
      d ≠ current → e.upgrades current d = false → detectionClearTicks ≤ e.clearStreak + 1 →
      Move e current nowNs s ⟨d, some .evidenceCleared, 0, e.cooldownStartedAtMonotonicNs⟩
  | cleared : current.isAnomalous = true → desiredAnomaly s = none →
      detectionClearTicks ≤ e.clearStreak + 1 →
      Move e current nowNs s ⟨.cooldown, some .evidenceCleared, detectionClearTicks, some nowNs⟩
  | reasserted (d : DetectionState) : current = .cooldown → desiredAnomaly s = some d →
      detectionAssertTicks ≤ e.candidateStreak →
      Move e current nowNs s ⟨d, some (reasonForAssertion d), 0, none⟩
  | blipped (d : DetectionState) : current = .cooldown → desiredAnomaly s = some d →
      e.candidateStreak < detectionAssertTicks →
      Move e current nowNs s ⟨.cooldown, none, e.clearStreak, e.cooldownStartedAtMonotonicNs⟩
  | cooling (started : Nat) : current = .cooldown → desiredAnomaly s = none →
      e.cooldownStartedAtMonotonicNs = some started → nowNs < started + detectionCooldownMs * 1000000 →
      Move e current nowNs s ⟨.cooldown, none, e.clearStreak, e.cooldownStartedAtMonotonicNs⟩
  | completed (started : Nat) : current = .cooldown → desiredAnomaly s = none →
      e.cooldownStartedAtMonotonicNs = some started → started + detectionCooldownMs * 1000000 ≤ nowNs →
      Move e current nowNs s ⟨.normal, some .cooldownCompleted, 0, none⟩
  | asserted (d : DetectionState) : current.isAnomalous = false → current ≠ .cooldown →
      desiredAnomaly s = some d → detectionAssertTicks ≤ e.candidateStreak →
      Move e current nowNs s ⟨d, some (reasonForAssertion d), 0, e.cooldownStartedAtMonotonicNs⟩
  | readied : current = .warmingUp → s.candidate = .none → evidenceReady s = true →
      Move e current nowNs s ⟨.normal, some .evidenceReady, e.clearStreak, e.cooldownStartedAtMonotonicNs⟩
  | waited : current.isAnomalous = false → current ≠ .cooldown →
      (desiredAnomaly s = none ∨ e.candidateStreak < detectionAssertTicks) →
      ¬(current = .warmingUp ∧ s.candidate = .none ∧ evidenceReady s = true) →
      Move e current nowNs s ⟨current, none, e.clearStreak, e.cooldownStartedAtMonotonicNs⟩

variable {e : DetectionEngine} {current : DetectionState} {nowNs nowMs : Nat} {s : DetectionSignals}
  {d : Decision}

theorem move_anomalous (hcurrent : current.isAnomalous = true) :
    Move e current nowNs s (e.anomalousDecision current (desiredAnomaly s) nowNs) := by
  unfold anomalousDecision
  split
  · exact .supported hcurrent ‹_›
  · rename_i hne
    split
    · rename_i hup
      cases hd : desiredAnomaly s with
      | none => rw [hd] at hup; cases hup
      | some d =>
        rw [hd] at hup hne
        exact .raised d hcurrent hd (fun h => hne (by rw [h])) hup
    · rename_i hup
      have hkeeps : ∀ d, desiredAnomaly s = some d → e.upgrades current d = false := by
        intro d hd
        rw [hd] at hup
        simpa using hup
      simp only []
      split
      · rename_i hten
        have hten' : detectionClearTicks ≤ e.clearStreak + 1 := by omega
        cases hd : desiredAnomaly s with
        | some d => exact .replaced d hcurrent hd (fun h => hne (by rw [hd, h])) (hkeeps d hd) hten'
        | none =>
          have hmin : min (e.clearStreak + 1) detectionClearTicks = detectionClearTicks := by omega
          rw [hmin]
          exact .cleared hcurrent hd hten'
      · rename_i hten
        have hmin : min (e.clearStreak + 1) detectionClearTicks = e.clearStreak + 1 := by omega
        rw [hmin] at hten ⊢
        exact .faded hcurrent hne hkeeps (by omega)

theorem move_cooldown (h : e.cooldownDecision (desiredAnomaly s) nowNs = .ok d) :
    Move e .cooldown nowNs s d := by
  unfold cooldownDecision at h
  cases hd : desiredAnomaly s with
  | some a =>
    rw [hd] at h
    simp only [Except.ok.injEq] at h
    subst h
    split
    · exact .reasserted a rfl hd ‹_›
    · exact .blipped a rfl hd (by omega)
  | none =>
    rw [hd] at h
    unfold cooldownElapsed at h
    cases hstart : e.cooldownStartedAtMonotonicNs with
    | none => rw [hstart] at h; cases h
    | some started =>
      rw [hstart] at h
      simp only [bind, Except.bind] at h
      by_cases hearly : nowNs < started
      · rw [if_pos hearly] at h
        cases h
      · rw [if_neg hearly] at h
        simp only [Except.ok.injEq, decide_eq_true_eq] at h
        subst h
        split
        · rename_i helapsed
          exact .completed started rfl hd hstart
            ((Nat.le_sub_iff_add_le' (Nat.not_lt.mp hearly)).mp helapsed)
        · rename_i helapsed
          rw [← hstart]
          exact .cooling started rfl hd hstart
            ((Nat.sub_lt_iff_lt_add' (Nat.not_lt.mp hearly)).mp (Nat.not_le.mp helapsed))

theorem move_quiet (hcurrent : current.isAnomalous = false) (hcool : current ≠ .cooldown) :
    Move e current nowNs s (e.quietDecision current (desiredAnomaly s) s) := by
  unfold quietDecision
  simp only []
  split
  · rename_i h
    obtain ⟨a, ha⟩ := Option.isSome_iff_exists.mp h.2
    rw [ha]
    exact .asserted a hcurrent hcool ha h.1
  · rename_i h
    split
    · rename_i hw
      exact .readied hw.1 hw.2.1 hw.2.2
    · rename_i hw
      refine .waited hcurrent hcool ?_ hw
      cases hd : desiredAnomaly s with
      | none => exact .inl rfl
      | some a => exact .inr (by simpa [hd] using h)

/-- The state machine makes no other move. -/
theorem move_of_decision (h : e.decision current nowNs s = .ok d) : Move e current nowNs s d := by
  unfold decision at h
  split at h
  · cases h
    exact move_anomalous ‹_›
  · rename_i hcurrent
    split at h
    · rename_i hcool
      subst hcool
      exact move_cooldown h
    · cases h
      exact move_quiet (by simpa using hcurrent) ‹_›

/-- What later decisions depend on. -/
structure Memory where
  lastCandidate : StormCandidate
  candidateStreak : Nat
  clearStreak : Nat
  cooldownStarted : Option Nat
  effectiveState : DetectionState

def memory (e : DetectionEngine) : Memory :=
  ⟨e.lastCandidate, e.candidateStreak, e.clearStreak, e.cooldownStartedAtMonotonicNs, e.effectiveState⟩

theorem finish_snd (e : DetectionEngine) : e.finish.2 = e.syncRetainedState.syncHistory := by
  unfold finish
  simp only []
  split <;> rfl

theorem finish_memory (e : DetectionEngine) : e.finish.2.memory = e.memory := by
  rw [finish_snd]
  rfl

theorem finish_state (e : DetectionEngine) : e.finish.2.report.state = e.report.state := by
  rw [finish_snd]
  rfl

/-- A successful reply is the report the engine now caches. -/
theorem finish_reply {r : DetectionReport} (h : e.finish.1 = .ok r) : r = e.finish.2.report := by
  unfold finish at h ⊢
  simp only [] at h ⊢
  split at h
  · cases h
  · cases h
    rfl

/-- A recorded transition changes the published state and nothing that is remembered. -/
theorem recordTransition_ok {e' : DetectionEngine} {previous next : DetectionState}
    {reason : DetectionTransitionReason} (h : e.recordTransition previous next reason nowMs = .ok e') :
    e'.report.state = next ∧ e'.resumeState = e.resumeState ∧ e'.lastCandidate = e.lastCandidate ∧
      e'.candidateStreak = e.candidateStreak ∧ e'.clearStreak = e.clearStreak ∧
      e'.cooldownStartedAtMonotonicNs = e.cooldownStartedAtMonotonicNs := by
  unfold recordTransition at h
  split at h
  · cases h
  · cases h
    exact ⟨rfl, rfl, rfl, rfl, rfl, rfl⟩

theorem updateCandidateStreak_frame (e : DetectionEngine) (c : StormCandidate) :
    (e.updateCandidateStreak c).report = e.report ∧
      (e.updateCandidateStreak c).resumeState = e.resumeState ∧
      (e.updateCandidateStreak c).clearStreak = e.clearStreak ∧
      (e.updateCandidateStreak c).cooldownStartedAtMonotonicNs = e.cooldownStartedAtMonotonicNs := by
  unfold updateCandidateStreak
  split
  · exact ⟨rfl, rfl, rfl, rfl⟩
  · split <;> exact ⟨rfl, rfl, rfl, rfl⟩

/-- The memory a decision asks for, next to the streak that counts the tick. -/
def Decision.memory (d : Decision) (counted : DetectionEngine) (effective : DetectionState) : Memory :=
  ⟨counted.lastCandidate, counted.candidateStreak, d.clearStreak, d.cooldownStarted, effective⟩

theorem validate_of_trusts (h : e.trusts nowNs nowMs s = true) : s.validate = .ok () := by
  unfold trusts at h
  cases hs : s.validate with
  | error _ => rw [hs] at h; cases h
  | ok _ => rfl

/-- A tick the engine does not trust leaves no trace. -/
theorem evaluate_untrusted (h : e.trusts nowNs nowMs s = false) :
    (e.evaluate nowNs nowMs s).2 = e ∧ ∃ err, (e.evaluate nowNs nowMs s).1 = .error err := by
  unfold evaluate
  cases hs : s.validate with
  | error _ => exact ⟨rfl, _, rfl⟩
  | ok u =>
    have hclock : e.clockRegressed nowNs nowMs = true := by
      simpa [trusts, hs, Except.isOk, Except.toBool] using h
    simp only [hclock, if_true]
    exact ⟨trivial, _, rfl⟩

/-- A tick the engine trusts either meets a failing cooldown, or its decision is
published, or the transition sequence is exhausted: then the published state stays
and only the state to resume from moves. -/
inductive Outcome (e : DetectionEngine) (nowNs : Nat) (s : DetectionSignals)
    (counted : DetectionEngine) (reply : Reply) : Prop where
  | stuck (err : DetectionEngineError) : counted.decision e.effectiveState nowNs s = .error err →
      reply = (.error err, counted) → Outcome e nowNs s counted reply
  | published (d : Decision) : counted.decision e.effectiveState nowNs s = .ok d →
      reply.2.memory = d.memory counted d.nextState → reply.2.report.state = d.nextState →
      (∀ r, reply.1 = .ok r → r = reply.2.report) → Outcome e nowNs s counted reply
  | exhausted (d : Decision) : counted.decision e.effectiveState nowNs s = .ok d →
      e.report.state ≠ d.nextState → reply.1 = .error .sequenceOverflow →
      reply.2.memory = d.memory counted
        (if e.report.state = .unavailable then d.nextState else e.report.state) →
      Outcome e nowNs s counted reply

theorem recordTransition_error {err : DetectionEngineError} {previous next : DetectionState}
    {reason : DetectionTransitionReason} (h : e.recordTransition previous next reason nowMs = .error err) :
    err = .sequenceOverflow := by
  unfold recordTransition at h
  split at h
  · cases h
    rfl
  · cases h

theorem evaluate_outcome (h : e.trusts nowNs nowMs s = true) :
    Outcome e nowNs s (e.updateCandidateStreak s.candidate) (e.evaluate nowNs nowMs s) := by
  obtain ⟨hrep, -, -, -⟩ := updateCandidateStreak_frame e s.candidate
  unfold trusts at h
  unfold evaluate
  cases hs : s.validate with
  | error _ => rw [hs] at h; cases h
  | ok u =>
    have hclock : e.clockRegressed nowNs nowMs = false := by
      simpa [hs, Except.isOk, Except.toBool] using h
    simp only [hclock, Bool.false_eq_true, if_false]
    cases hd : (e.updateCandidateStreak s.candidate).decision e.effectiveState nowNs s with
    | error err => exact .stuck err hd rfl
    | ok d =>
      simp only []
      unfold commit
      split
      · rename_i hchange
        cases hrec : recordTransition ((e.updateCandidateStreak s.candidate).absorb d nowNs nowMs s)
            e.report.state d.nextState (d.publishedReason e.report.state e.effectiveState) nowMs with
        | error err =>
          refine .exhausted d hd hchange (by rw [recordTransition_error hrec]) ?_
          simp only [memory, Decision.memory, effectiveState, absorb, hrep]
        | ok e' =>
          obtain ⟨hstate, hresume, hlast, hstreak, hclear, hcool⟩ := recordTransition_ok hrec
          refine .published d hd ?_ ?_ (fun r hr => finish_reply hr)
          · rw [finish_memory]
            simp only [memory, Decision.memory, effectiveState, hstate, hresume, hlast, hstreak, hclear, hcool,
              absorb, ite_self]
          · rw [finish_state, hstate]
      · refine .published d hd ?_ ?_ (fun r hr => finish_reply hr)
        · rw [finish_memory]
          simp only [memory, Decision.memory, effectiveState, absorb, ite_self]
        · rw [finish_state]

/-- A successful reply is a trusted tick whose decision is now in force. -/
theorem evaluate_ok {r : DetectionReport} (h : (e.evaluate nowNs nowMs s).1 = .ok r) :
    e.trusts nowNs nowMs s = true ∧
      ∃ d, (e.updateCandidateStreak s.candidate).decision e.effectiveState nowNs s = .ok d ∧
        (e.evaluate nowNs nowMs s).2.memory = d.memory (e.updateCandidateStreak s.candidate) d.nextState ∧
        r.state = d.nextState := by
  cases ht : e.trusts nowNs nowMs s with
  | false =>
    obtain ⟨-, err, herr⟩ := evaluate_untrusted ht
    rw [herr] at h
    cases h
  | true =>
    refine ⟨rfl, ?_⟩
    cases evaluate_outcome ht with
    | stuck err _ hreply => rw [hreply] at h; cases h
    | published d hd hmem hstate hreply => exact ⟨d, hd, hmem, by rw [hreply r h, hstate]⟩
    | exhausted d _ _ hreply _ => rw [hreply] at h; cases h

/-- Publishing `Unavailable` keeps every counter, whether it succeeds or not. -/
theorem publishUnavailable_counters (e : DetectionEngine) (nowMs : Nat) (code : String)
    (reason : DetectionTransitionReason) (resetSignals : Bool) :
    (e.publishUnavailable nowMs code reason resetSignals).2.memory =
      {e.memory with effectiveState :=
        (e.publishUnavailable nowMs code reason resetSignals).2.effectiveState} := by
  unfold publishUnavailable
  cases validateErrorCode code with
  | error _ => rfl
  | ok _ =>
    simp only []
    split
    · cases hrec : recordTransition (e.markUnavailable nowMs code resetSignals) e.report.state .unavailable
          reason nowMs with
      | error err => rfl
      | ok e' =>
        obtain ⟨-, -, hlast, hstreak, hclear, hcool⟩ := recordTransition_ok hrec
        simp only [finish_snd, syncRetainedState, syncHistory, memory, hlast, hstreak, hclear, hcool,
          markUnavailable]
    · simp only [finish_snd]
      rfl

/-- `unavailable` and `pause` also keep the effective state. -/
theorem publishUnavailable_memory (e : DetectionEngine) (nowMs : Nat) (code : String)
    (reason : DetectionTransitionReason) :
    (e.publishUnavailable nowMs code reason false).2.memory = e.memory := by
  rw [publishUnavailable_counters]
  suffices (e.publishUnavailable nowMs code reason false).2.effectiveState = e.effectiveState by
    rw [this]
    rfl
  unfold publishUnavailable
  cases validateErrorCode code with
  | error _ => rfl
  | ok _ =>
    simp only []
    split
    · rename_i hstate
      cases hrec : recordTransition (e.markUnavailable nowMs code false) e.report.state .unavailable
          reason nowMs with
      | error err => simp [effectiveState, markUnavailable, hstate]
      | ok e' =>
        obtain ⟨hnext, hresume, -⟩ := recordTransition_ok hrec
        simp only [finish_snd, syncRetainedState, syncHistory, effectiveState, hnext, hresume, markUnavailable]
        simp [hstate]
    · rename_i hstate
      have hstate' : e.report.state = .unavailable := by simpa using hstate
      simp [finish_snd, syncRetainedState, syncHistory, effectiveState, markUnavailable, hstate']

/-- A clear with a valid code forgets every streak and the cooldown. -/
theorem clear_memory (e : DetectionEngine) (identity : RateIdentity) (atNs atMs : Nat) (code : String)
    (h : validateErrorCode code = .ok ()) :
    ∃ effective, (e.clear identity atNs atMs code).2.memory = ⟨.none, 0, 0, none, effective⟩ := by
  unfold clear
  rw [h]
  simp only []
  split
  · exact ⟨_, rfl⟩
  · rw [publishUnavailable_counters]
    exact ⟨_, rfl⟩

/-- A clear with an invalid code is refused. -/
theorem clear_refused {e : DetectionEngine} {identity : RateIdentity} {atNs atMs : Nat} {code : String}
    {err : DomainError} (h : validateErrorCode code = .error err) :
    (e.clear identity atNs atMs code).2 = e := by
  unfold clear
  rw [h]

end DetectionEngine

end NetworkLoop.Detection
