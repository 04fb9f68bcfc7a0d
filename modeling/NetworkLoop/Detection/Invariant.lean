import NetworkLoop.Detection.Hysteresis

/-! What holds of an engine between two calls.

The published state, the state to resume from, the start of the cooldown, the last
anomalous state and the transition history are fields of their own, and six paths
write them. `Sound` says how they belong together. Its part `Steady` does not look
at the history, and `Chained` looks at nothing else: a call first moves the steady
part (`steady_absorb`, `steady_unavailable`, `steady_reset`) and then publishes,
which is the same for all of them (`settled_record`, `settled_stay`).

`represented` is the invariant as the report's readers rely on it. -/
namespace NetworkLoop.Detection
open Library DetectionEngine

/-! ### The history -/

/-- The second transition starts where the first one ends, and bears the next number. -/
def Follows (a b : DetectionTransition) : Prop :=
  b.sequence = a.sequence + 1 ∧ b.previousState = a.currentState

instance : DecidableRel Follows := fun _ _ => inferInstanceAs (Decidable (_ ∧ _))

/-- A retained history that ends with this number in this state. -/
structure Chained (transitions : List DetectionTransition) (sequence : Nat) (state : DetectionState) : Prop where
  bounded : transitions.length ≤ detectionTransitionCapacity
  gapless : transitions.IsChain Follows
  numbered : ∀ t ∈ transitions, t.sequence ≠ 0 ∧ t.sequence ≤ sequence ∧ t.previousState ≠ t.currentState
  empty : transitions = [] → sequence = 0
  ends : ∀ t ∈ transitions.getLast?, t.currentState = state ∧ t.sequence = sequence

theorem Chained.nil (state : DetectionState) : Chained [] 0 state where
  bounded := Nat.zero_le _
  gapless := .nil
  numbered := by simp
  empty := fun _ => rfl
  ends := by simp

section Record
variable {transitions : List DetectionTransition} {sequence : Nat} {state next : DetectionState}

/-- What `record_transition` keeps of a full history is its tail. -/
def kept (transitions : List DetectionTransition) : List DetectionTransition :=
  if transitions.length = detectionTransitionCapacity then transitions.tail else transitions

theorem kept_suffix (transitions : List DetectionTransition) : kept transitions <:+ transitions := by
  unfold kept
  split
  · exact List.tail_suffix _
  · exact List.suffix_rfl

theorem kept_length (h : transitions.length ≤ detectionTransitionCapacity) :
    (kept transitions).length < detectionTransitionCapacity := by
  unfold kept
  have hpos : 0 < detectionTransitionCapacity := by decide
  split
  · rw [List.length_tail]
    omega
  · omega

theorem kept_last {t : DetectionTransition} (h : t ∈ (kept transitions).getLast?) :
    t ∈ transitions.getLast? := by
  obtain ⟨front, hfront⟩ := kept_suffix transitions
  have hne : kept transitions ≠ [] := by
    rintro hnil
    rw [hnil] at h
    cases h
  rw [← hfront, List.getLast?_append_of_ne_nil _ hne]
  exact h

/-- A recorded transition keeps the history whole. -/
theorem Chained.record (h : Chained transitions sequence state) (hne : state ≠ next)
    (reason : DetectionTransitionReason) (atMs : Nat) :
    Chained (kept transitions ++ [⟨sequence + 1, state, next, reason, atMs⟩]) (sequence + 1) next where
  bounded := by
    have := kept_length h.bounded
    rw [List.length_append, List.length_singleton]
    omega
  gapless := by
    refine List.isChain_append.mpr ⟨h.gapless.suffix (kept_suffix _), .singleton _, ?_⟩
    intro a ha b hb
    obtain ⟨hstate, hsequence⟩ := h.ends a (kept_last ha)
    cases hb
    exact ⟨by rw [hsequence], hstate.symm⟩
  numbered := by
    intro t ht
    rcases List.mem_append.mp ht with hold | hnew
    · obtain ⟨hzero, hle, hstates⟩ := h.numbered t ((kept_suffix _).mem hold)
      exact ⟨hzero, Nat.le_succ_of_le hle, hstates⟩
    · cases List.mem_singleton.mp hnew
      exact ⟨Nat.succ_ne_zero _, Nat.le_refl _, hne⟩
  empty := by simp
  ends := by
    intro t ht
    rw [List.getLast?_append_of_ne_nil _ (by simp)] at ht
    cases ht
    exact ⟨rfl, rfl⟩

end Record

/-- The loop of `validate` accepts a gapless history. -/
theorem validateTransitions_ok {transitions : List DetectionTransition} {previous : Option Nat}
    (hgapless : transitions.IsChain Follows)
    (hnumbered : ∀ t ∈ transitions, t.sequence ≠ 0 ∧ t.sequence < u64Bound ∧ t.previousState ≠ t.currentState)
    (hfirst : ∀ p ∈ previous, ∀ t ∈ transitions.head?, t.sequence = p + 1) :
    validateTransitions previous transitions = .ok ((transitions.getLast?.map (·.sequence)).or previous) := by
  induction transitions generalizing previous with
  | nil => rfl
  | cons t rest ih =>
    obtain ⟨hzero, hlt, hstates⟩ := hnumbered t List.mem_cons_self
    have hprevious : previous.any (fun s => checkedAdd s 1 != some t.sequence) = false := by
      cases previous with
      | none => rfl
      | some p =>
        have hp := hfirst p rfl t rfl
        simp [checkedAdd, ← hp, hlt]
    rw [validateTransitions, hprevious, if_neg (by simp [hzero, hstates])]
    rw [List.isChain_cons] at hgapless
    rw [ih hgapless.2 (fun u hu => hnumbered u (List.mem_cons_of_mem _ hu)) ?_]
    · cases rest with
      | nil => rfl
      | cons u us => rw [List.getLast?_cons_cons, List.getLast?_eq_some_getLast (List.cons_ne_nil u us)]; rfl
    · intro p hp u hu
      cases hp
      exact (hgapless.1 u hu).1

/-- A whole history passes the report's checks. -/
theorem Chained.valid {r : DetectionReport} {state : DetectionState}
    (h : Chained r.transitions r.transitionSequence state) (hbound : r.transitionSequence < u64Bound) :
    r.validateHistory = .ok () := by
  unfold DetectionReport.validateHistory
  cases hts : r.transitions with
  | nil => simp [h.empty hts]
  | cons t rest =>
    have hlast := List.getLast?_eq_some_getLast (List.cons_ne_nil t rest)
    obtain ⟨-, hsequence⟩ := h.ends _ (by rw [hts]; exact hlast)
    have hloop := @validateTransitions_ok _ none h.gapless
      (fun u hu => ⟨(h.numbered u hu).1, Nat.lt_of_le_of_lt (h.numbered u hu).2.1 hbound, (h.numbered u hu).2.2⟩)
      (by simp)
    rw [hts, hlast] at hloop
    rw [hloop]
    simp [bind, Except.bind, hsequence]

namespace DetectionEngine

/-! ### The invariant -/

/-- Both copies of the state in line: what every publication ends with. -/
def synced (e : DetectionEngine) : DetectionEngine := e.syncRetainedState.syncHistory

/-- What every publication carries over. -/
structure Carried (e : DetectionEngine) : Prop where
  config : e.report.config = .fixed
  signals : e.report.signals.validate = .ok ()
  bounds : e.candidateStreak ≤ detectionAssertTicks ∧ e.clearStreak ≤ detectionClearTicks
  available : e.resumeState ≠ .unavailable
  cooldown : e.cooldownStartedAtMonotonicNs.isSome ↔ e.resumeState = .cooldown
  started : ∀ t ∈ e.cooldownStartedAtMonotonicNs, t ≤ e.lastTrustworthyMonotonicNs
  anomalous : ∀ state ∈ e.lastAnomalousState, state.isAnomalous = true
  remembered : e.resumeState.isAnomalous = true ∨ e.resumeState = .cooldown → e.lastAnomalousState.isSome

/-- The part of the invariant that does not look at the history. -/
structure Steady (e : DetectionEngine) : Prop extends Carried e where
  errorField : e.report.validateErrorField = .ok ()
  streaks : e.report.candidateStreak = e.candidateStreak ∧ e.report.clearStreak = e.clearStreak
  resume : e.effectiveState = e.resumeState

/-- An engine between two calls. -/
structure Sound (e : DetectionEngine) : Prop where
  steady : e.Steady
  chained : Chained e.transitions e.transitionSequence e.report.state
  synced_eq : e.synced = e

/-- The transition sequence can be raised once more. -/
def Roomy (e : DetectionEngine) : Prop := e.transitionSequence + 1 < u64Bound

instance (e : DetectionEngine) : Decidable e.Roomy := inferInstanceAs (Decidable (_ < _))

theorem sound_new (identity : RateIdentity) (startNs startMs : Nat) : (new identity startNs startMs).Sound where
  steady := {
    config := rfl
    signals := rfl
    errorField := rfl
    streaks := ⟨rfl, rfl⟩
    bounds := ⟨Nat.zero_le _, Nat.zero_le _⟩
    resume := rfl
    available := by simp [new]
    cooldown := by simp [new]
    started := by simp [new]
    anomalous := by simp [new]
    remembered := by simp [new, DetectionState.isAnomalous] }
  chained := .nil _
  synced_eq := rfl

/-- The retained state is there exactly where a reader needs it, and names an anomaly. -/
theorem Steady.retained {e : DetectionEngine} (h : e.Steady) :
    (e.synced.report.retainedAnomalousState.isSome ↔ e.report.state = .cooldown ∨
      e.report.state = .unavailable ∧ (e.effectiveState.isAnomalous = true ∨ e.effectiveState = .cooldown)) ∧
      ∀ state ∈ e.synced.report.retainedAnomalousState, state.isAnomalous = true := by
  have hresume := h.resume
  rw [hresume]
  unfold effectiveState at hresume
  unfold synced syncRetainedState syncHistory
  cases hstate : e.report.state with
  | unavailable =>
    by_cases hanomalous : e.resumeState.isAnomalous = true
    · simp [hanomalous]
    · by_cases hcool : e.resumeState = .cooldown
      · simp only [hcool, DetectionState.isAnomalous]
        exact ⟨by simpa using h.remembered (.inr hcool), h.anomalous⟩
      · simp [hanomalous, hcool]
  | cooldown =>
    rw [hstate, if_neg (by simp)] at hresume
    exact ⟨by simpa using h.remembered (.inr hresume.symm), h.anomalous⟩
  | _ => simp

/-- The report of a sound engine may be handed out. -/
theorem Steady.valid {e : DetectionEngine} (h : e.Steady)
    (hchained : Chained e.transitions e.transitionSequence e.report.state)
    (hbound : e.transitionSequence < u64Bound) : e.synced.report.validate = .ok () := by
  have hfixed : ¬(e.report.config != .fixed || decide (e.report.candidateStreak > detectionAssertTicks) ||
      decide (e.report.clearStreak > detectionClearTicks) ||
      decide (e.transitions.length > detectionTransitionCapacity)) = true := by
    have hlength := hchained.bounded
    obtain ⟨hcandidate, hclear⟩ := h.bounds
    rw [h.streaks.1, h.streaks.2, h.config]
    simp only [bne_self_eq_false, Bool.false_or, Bool.or_eq_true, decide_eq_true_eq]
    omega
  have hretained : validateRetainedState e.report.state e.synced.report.retainedAnomalousState = .ok () := by
    obtain ⟨hsome, hanomalous⟩ := h.retained
    unfold validateRetainedState
    cases hr : e.synced.report.retainedAnomalousState with
    | none =>
      rw [hr] at hsome
      have hcool : e.report.state ≠ .cooldown := fun heq => by simpa using hsome.mpr (.inl heq)
      simp [hcool]
    | some state =>
      rw [hr] at hsome
      have hstate : e.report.state = .cooldown ∨ e.report.state = .unavailable := by
        rcases hsome.mp rfl with hcool | ⟨hun, -⟩
        · exact .inl hcool
        · exact .inr hun
      rcases hstate with hcool | hun
      · simp [hanomalous state hr, hcool]
      · simp [hanomalous state hr, hun]
  refine (if_neg hfixed).trans ?_
  refine bind_unit_eq_ok.mpr ⟨h.signals, bind_unit_eq_ok.mpr ⟨hretained, bind_unit_eq_ok.mpr ⟨h.errorField, ?_⟩⟩⟩
  exact hchained.valid hbound

/-! ### Publication -/

/-- The engine with another published state. -/
def showing (e : DetectionEngine) (state : DetectionState) : DetectionEngine :=
  {e with report := {e.report with state := state}}

/-- The engine apart from its transition history. -/
def withoutHistory (e : DetectionEngine) : DetectionEngine :=
  {e with
    transitionSequence := 0
    transitions := []
    report := {e.report with stateSinceUnixMs := 0, transitionSequence := 0, transitions := []}}

/-- A publication of this engine that succeeds: it adds to the history and nothing else. -/
structure Settled (x : DetectionEngine) (reply : Reply) : Prop where
  ok : reply.1 = .ok reply.2.report
  sound : reply.2.Sound
  frame : reply.2.withoutHistory = x.synced.withoutHistory

theorem Steady.synced {x : DetectionEngine} (h : x.Steady) : x.synced.Steady :=
  ⟨⟨h.config, h.signals, h.bounds, h.available, h.cooldown, h.started, h.anomalous, h.remembered⟩, h.errorField,
    h.streaks, h.resume⟩

theorem settled_finish {x : DetectionEngine} (h : x.Steady)
    (hchained : Chained x.transitions x.transitionSequence x.report.state)
    (hbound : x.transitionSequence < u64Bound) : Settled x x.finish := by
  have hfinish : x.finish = (.ok x.synced.report, x.synced) := by
    have hvalid := h.valid hchained hbound
    unfold synced at hvalid
    unfold finish
    simp only [hvalid]
    rfl
  rw [hfinish]
  exact ⟨rfl, ⟨h.synced, hchained, rfl⟩, rfl⟩

/-- A publication that leads to a steady state succeeds. -/
theorem settled_publish {x : DetectionEngine} {next : DetectionState} (h : (x.showing next).Steady)
    (hchained : Chained x.transitions x.transitionSequence x.report.state) (hroomy : x.Roomy)
    (reason : DetectionTransitionReason) (nowMs : Nat) :
    Settled (x.showing next)
      (if x.report.state ≠ next then
        match x.recordTransition x.report.state next reason nowMs with
        | .error err => (.error err, x)
        | .ok recorded => recorded.finish
      else (x.showing next).finish) := by
  by_cases hne : x.report.state = next
  · rw [if_neg (not_not_intro hne)]
    refine settled_finish h ?_ (Nat.lt_of_succ_lt hroomy)
    rw [← hne]
    exact hchained
  · have hnumber : checkedAdd x.transitionSequence 1 = some (x.transitionSequence + 1) := if_pos hroomy
    rw [if_pos hne, recordTransition, hnumber]
    have hrecorded := settled_finish (x := {x with
      transitionSequence := x.transitionSequence + 1
      transitions := kept x.transitions ++ [⟨x.transitionSequence + 1, x.report.state, next, reason, nowMs⟩]
      report := {x.report with state := next, stateSinceUnixMs := nowMs}})
      ⟨⟨h.config, h.signals, h.bounds, h.available, h.cooldown, h.started, h.anomalous, h.remembered⟩, h.errorField,
        h.streaks, h.resume⟩ (hchained.record hne reason nowMs) hroomy
    exact ⟨hrecorded.ok, hrecorded.sound, hrecorded.frame⟩

/-! ### The calls -/

section Calls
variable {e : DetectionEngine} {nowNs nowMs : Nat} {s : DetectionSignals}

theorem updateCandidateStreak_le (e : DetectionEngine) (candidate : StormCandidate) :
    (e.updateCandidateStreak candidate).candidateStreak ≤ detectionAssertTicks := by
  unfold updateCandidateStreak
  split
  · exact Nat.zero_le _
  · split
    · exact Nat.min_le_right _ _
    · show 1 ≤ detectionAssertTicks
      decide

theorem updateCandidateStreak_kept (e : DetectionEngine) (candidate : StormCandidate) :
    (e.updateCandidateStreak candidate).lastAnomalousState = e.lastAnomalousState ∧
      (e.updateCandidateStreak candidate).transitions = e.transitions ∧
      (e.updateCandidateStreak candidate).transitionSequence = e.transitionSequence := by
  unfold updateCandidateStreak
  split
  · exact ⟨rfl, rfl, rfl⟩
  · split <;> exact ⟨rfl, rfl, rfl⟩

/-- Where a move leads, from a state in which the cooldown is timed. -/
structure Lands (e : DetectionEngine) (current : DetectionState) (nowNs : Nat) (d : Decision) : Prop where
  available : d.nextState ≠ .unavailable
  clearStreak : d.clearStreak ≤ detectionClearTicks
  cooldown : d.cooldownStarted.isSome ↔ d.nextState = .cooldown
  started : d.cooldownStarted = some nowNs ∨ d.cooldownStarted = e.cooldownStartedAtMonotonicNs ∨ d.cooldownStarted = none
  source : d.nextState = .cooldown → current.isAnomalous = true ∨ current = .cooldown

theorem Move.lands {current : DetectionState} {d : Decision} (hmove : Move e current nowNs s d)
    (havailable : current ≠ .unavailable) (hclear : e.clearStreak ≤ detectionClearTicks)
    (hcool : e.cooldownStartedAtMonotonicNs.isSome ↔ current = .cooldown) : Lands e current nowNs d := by
  have hanomalous : ∀ {a : DetectionState}, a.isAnomalous = true → a ≠ .unavailable ∧ a ≠ .cooldown := by
    intro a ha
    constructor
    · rintro rfl
      cases ha
    · rintro rfl
      cases ha
  -- outside a cooldown no start is remembered
  have huntimed : current ≠ .cooldown → ∀ {next : DetectionState}, next ≠ .cooldown →
      (e.cooldownStartedAtMonotonicNs.isSome ↔ next = .cooldown) := fun hcurrent _ hnext =>
    ⟨fun hsome => absurd (hcool.mp hsome) hcurrent, fun heq => absurd heq hnext⟩
  cases hmove with
  | supported hcurrent _ =>
    exact ⟨havailable, Nat.zero_le _, hcool, .inr (.inl rfl), fun _ => .inl hcurrent⟩
  | raised d hcurrent hd _ _ | replaced d hcurrent hd _ _ _ =>
    have hnext := hanomalous (desiredAnomaly_anomalous hd)
    exact ⟨hnext.1, Nat.zero_le _, huntimed (hanomalous hcurrent).2 hnext.2, .inr (.inl rfl), fun _ => .inl hcurrent⟩
  | faded hcurrent _ _ hlt =>
    exact ⟨havailable, Nat.le_of_lt hlt, hcool, .inr (.inl rfl), fun _ => .inl hcurrent⟩
  | cleared hcurrent _ _ =>
    exact ⟨by simp, Nat.le_refl _, by simp, .inl rfl, fun _ => .inl hcurrent⟩
  | reasserted d hcurrent hd _ =>
    have hnext := hanomalous (desiredAnomaly_anomalous hd)
    exact ⟨hnext.1, Nat.zero_le _, by simp [hnext.2], .inr (.inr rfl), fun _ => .inr hcurrent⟩
  | blipped _ hcurrent _ _ | cooling _ hcurrent _ _ _ =>
    subst hcurrent
    exact ⟨by simp, hclear, hcool, .inr (.inl rfl), fun _ => .inr rfl⟩
  | completed _ _ _ _ _ =>
    exact ⟨by simp, Nat.zero_le _, by simp, .inr (.inr rfl), by simp⟩
  | asserted d hcurrent hne hd _ =>
    have hnext := hanomalous (desiredAnomaly_anomalous hd)
    exact ⟨hnext.1, Nat.zero_le _, huntimed hne hnext.2, .inr (.inl rfl), fun heq => absurd heq hnext.2⟩
  | readied hcurrent _ _ =>
    subst hcurrent
    exact ⟨by simp, hclear, huntimed (by simp) (by simp), .inr (.inl rfl), by simp⟩
  | waited _ hne _ _ =>
    exact ⟨havailable, hclear, hcool, .inr (.inl rfl), fun heq => absurd heq hne⟩

/-- A tick the state machine decides leads to a steady state. -/
theorem steady_absorb {d : Decision} (h : e.Steady) (hs : s.validate = .ok ())
    (hlater : e.lastTrustworthyMonotonicNs < nowNs)
    (hmove : Move (e.updateCandidateStreak s.candidate) e.effectiveState nowNs s d) :
    (((e.updateCandidateStreak s.candidate).absorb d nowNs nowMs s).showing d.nextState).Steady := by
  obtain ⟨hreport, -, hclear, hcool⟩ := updateCandidateStreak_frame e s.candidate
  obtain ⟨hlast, -, -⟩ := updateCandidateStreak_kept e s.candidate
  rw [h.resume] at hmove
  have hlands := hmove.lands h.available (by rw [hclear]; exact h.bounds.2) (by rw [hcool]; exact h.cooldown)
  exact {
    config := by
      show (e.updateCandidateStreak s.candidate).report.config = .fixed
      rw [hreport]
      exact h.config
    signals := hs
    errorField := by
      have hnext := hlands.available
      unfold DetectionReport.validateErrorField showing absorb
      cases hd : d.nextState with
      | unavailable => exact absurd hd hnext
      | _ => rfl
    streaks := ⟨rfl, rfl⟩
    bounds := ⟨updateCandidateStreak_le e s.candidate, hlands.clearStreak⟩
    resume := ite_self _
    available := hlands.available
    cooldown := hlands.cooldown
    started := by
      intro t ht
      show t ≤ nowNs
      rcases hlands.started with hnow | hkept | hnone
      · cases hnow.symm.trans ht
        exact Nat.le_refl _
      · rw [hcool] at hkept
        exact Nat.le_trans (h.started t (hkept.symm.trans ht)) (Nat.le_of_lt hlater)
      · cases hnone.symm.trans ht
    anomalous := by
      intro state hstate
      unfold showing absorb at hstate
      simp only at hstate
      split at hstate
      · rename_i hanomalous
        cases hstate
        exact hanomalous
      · rw [hlast] at hstate
        exact h.anomalous state hstate
    remembered := by
      intro hnext
      unfold showing absorb
      simp only
      split
      · rfl
      · rename_i hquiet
        rw [hlast]
        rcases hnext with hanomalous | hnext
        · exact absurd hanomalous hquiet
        · exact h.remembered (hlands.source hnext) }

/-- A timed cooldown never makes the state machine fail. -/
theorem decision_ok (h : e.Steady) (hlater : e.lastTrustworthyMonotonicNs < nowNs) :
    ∃ d, (e.updateCandidateStreak s.candidate).decision e.effectiveState nowNs s = .ok d := by
  obtain ⟨-, -, -, hcool⟩ := updateCandidateStreak_frame e s.candidate
  unfold decision
  split
  · exact ⟨_, rfl⟩
  · split
    · rename_i hcurrent
      obtain ⟨started, hstarted⟩ := Option.isSome_iff_exists.mp (h.cooldown.mpr (h.resume.symm.trans hcurrent))
      have hpast : ¬nowNs < started := Nat.not_lt.mpr (Nat.le_trans (h.started _ hstarted) (Nat.le_of_lt hlater))
      unfold cooldownDecision cooldownElapsed
      rw [hcool, hstarted]
      cases desiredAnomaly s with
      | some a => exact ⟨_, rfl⟩
      | none =>
        simp only [if_neg hpast]
        exact ⟨_, rfl⟩
    · exact ⟨_, rfl⟩

/-- A trusted tick publishes its decision. -/
theorem evaluate_settled (h : e.Sound) (hroomy : e.Roomy) (ht : e.trusts nowNs nowMs s = true) :
    ∃ d, (e.updateCandidateStreak s.candidate).decision e.effectiveState nowNs s = .ok d ∧
      Settled (((e.updateCandidateStreak s.candidate).absorb d nowNs nowMs s).showing d.nextState)
        (e.evaluate nowNs nowMs s) := by
  have hs := validate_of_trusts ht
  have hclock : e.clockRegressed nowNs nowMs = false := by
    simpa [trusts, hs, Except.isOk, Except.toBool] using ht
  have hlater : e.lastTrustworthyMonotonicNs < nowNs := by
    unfold clockRegressed at hclock
    rw [Bool.or_eq_false_iff, decide_eq_false_iff_not] at hclock
    exact Nat.not_le.mp hclock.1
  obtain ⟨hreport, -, -, -⟩ := updateCandidateStreak_frame e s.candidate
  obtain ⟨-, htransitions, hsequence⟩ := updateCandidateStreak_kept e s.candidate
  obtain ⟨d, hd⟩ := @decision_ok e nowNs s h.steady hlater
  refine ⟨d, hd, ?_⟩
  have hevaluate : e.evaluate nowNs nowMs s =
      ((e.updateCandidateStreak s.candidate).absorb d nowNs nowMs s).commit e.report.state e.effectiveState d nowMs := by
    unfold evaluate
    simp only [hs, hclock, hd, Bool.false_eq_true, if_false]
  rw [hevaluate]
  have hstate : ((e.updateCandidateStreak s.candidate).absorb d nowNs nowMs s).report.state = e.report.state := by
    show (e.updateCandidateStreak s.candidate).report.state = e.report.state
    rw [hreport]
  have hchained : Chained (e.updateCandidateStreak s.candidate).transitions
      (e.updateCandidateStreak s.candidate).transitionSequence
      ((e.updateCandidateStreak s.candidate).absorb d nowNs nowMs s).report.state := by
    rw [htransitions, hsequence, hstate]
    exact h.chained
  have hroom : ((e.updateCandidateStreak s.candidate).absorb d nowNs nowMs s).Roomy := by
    show (e.updateCandidateStreak s.candidate).transitionSequence + 1 < u64Bound
    rw [hsequence]
    exact hroomy
  have hpublish := settled_publish (@steady_absorb e nowNs nowMs s d h.steady hs hlater (move_of_decision hd))
    hchained hroom (d.publishedReason e.report.state e.effectiveState) nowMs
  rw [hstate] at hpublish
  unfold commit
  cases hrecord : recordTransition ((e.updateCandidateStreak s.candidate).absorb d nowNs nowMs s) e.report.state
      d.nextState (d.publishedReason e.report.state e.effectiveState) nowMs with
  | error err =>
    rw [hrecord] at hpublish
    exact hpublish
  | ok recorded =>
    rw [hrecord] at hpublish
    exact hpublish

theorem showing_self {x : DetectionEngine} {state : DetectionState} (h : x.report.state = state) :
    x.showing state = x := by
  rw [← h]
  rfl

/-- Publishing `Unavailable` with a valid code succeeds. -/
theorem publishUnavailable_settled {code : String} {resetSignals : Bool} (hcode : validateErrorCode code = .ok ())
    (hsteady : ((e.markUnavailable nowMs code resetSignals).showing .unavailable).Steady)
    (hchained : Chained e.transitions e.transitionSequence e.report.state) (hroomy : e.Roomy)
    (reason : DetectionTransitionReason) :
    Settled ((e.markUnavailable nowMs code resetSignals).showing .unavailable)
      (e.publishUnavailable nowMs code reason resetSignals) := by
  have hpublish := settled_publish hsteady hchained hroomy reason nowMs
  unfold publishUnavailable
  rw [hcode]
  by_cases hstate : e.report.state = .unavailable
  · have hmarked : (e.markUnavailable nowMs code resetSignals).report.state = .unavailable := hstate
    rw [if_neg (not_not_intro hmarked), showing_self hmarked] at hpublish
    simp only [if_neg (not_not_intro hstate)]
    rw [showing_self hmarked]
    exact hpublish
  · have hmarked : (e.markUnavailable nowMs code resetSignals).report.state ≠ .unavailable := hstate
    rw [if_pos hmarked] at hpublish
    simp only [if_pos hstate]
    exact hpublish

/-- An engine that publishes `Unavailable` stays steady, with or without fresh signals. -/
theorem steady_markUnavailable {code : String} {resetSignals : Bool} (hcode : validateErrorCode code = .ok ())
    (h : e.Carried)
    (hresume : resetSignals = false → e.report.state ≠ .unavailable → e.resumeState = e.report.state) :
    ((e.markUnavailable nowMs code resetSignals).showing .unavailable).Steady := by
  have hkept : (e.markUnavailable nowMs code resetSignals).resumeState = e.resumeState := by
    unfold markUnavailable
    simp only
    split
    · rename_i hboth
      exact (hresume hboth.2 hboth.1).symm
    · rfl
  have hwindow : (FingerprintWindowReport.unavailableWith code).validate = .ok () := by
    rw [FingerprintWindowReport.validate_unavailableWith]
    exact hcode
  exact {
    config := h.config
    signals := by
      cases resetSignals with
      | true => exact DetectionSignals.validate_fingerprintWindow DetectionSignals.validate_warming hwindow
      | false => exact DetectionSignals.validate_fingerprintWindow h.signals hwindow
    errorField := hcode
    streaks := ⟨rfl, rfl⟩
    bounds := h.bounds
    resume := rfl
    available := by
      show (e.markUnavailable nowMs code resetSignals).resumeState ≠ .unavailable
      rw [hkept]
      exact h.available
    cooldown := by
      show e.cooldownStartedAtMonotonicNs.isSome ↔ (e.markUnavailable nowMs code resetSignals).resumeState = .cooldown
      rw [hkept]
      exact h.cooldown
    started := h.started
    anomalous := h.anomalous
    remembered := by
      show (e.markUnavailable nowMs code resetSignals).resumeState.isAnomalous = true ∨
        (e.markUnavailable nowMs code resetSignals).resumeState = .cooldown → _
      rw [hkept]
      exact h.remembered }

/-- `unavailable` and `pause` keep what the engine resumes from. -/
theorem unavailable_settled {code : String} (h : e.Sound) (hroomy : e.Roomy) (hcode : validateErrorCode code = .ok ())
    (reason : DetectionTransitionReason) :
    Settled ((e.markUnavailable nowMs code false).showing .unavailable)
      (e.publishUnavailable nowMs code reason false) := by
  refine publishUnavailable_settled hcode (steady_markUnavailable hcode h.steady.toCarried ?_) h.chained hroomy reason
  intro _ hstate
  rw [← h.steady.resume, effectiveState, if_neg hstate]

/-- A `clear` for the same identity starts over behind a published `Unavailable`. -/
theorem clear_settled {atNs atMs : Nat} {code : String} (h : e.Sound) (hroomy : e.Roomy)
    (hcode : validateErrorCode code = .ok ()) :
    Settled (((e.reset atNs).markUnavailable atMs code true).showing .unavailable)
      (e.clear e.identity atNs atMs code) := by
  have hreset : (e.reset atNs).Carried :=
    ⟨h.steady.config, h.steady.signals, ⟨Nat.zero_le _, Nat.zero_le _⟩, by simp [reset], by simp [reset],
      by simp [reset], by simp [reset], by simp [reset, DetectionState.isAnomalous]⟩
  have hclear : e.clear e.identity atNs atMs code =
      (e.reset atNs).publishUnavailable atMs code .integrityFailure true := by
    unfold clear
    rw [hcode]
    simp
  rw [hclear]
  exact publishUnavailable_settled hcode (steady_markUnavailable hcode hreset (by simp)) h.chained hroomy _

end Calls

/-! ### Runs -/

theorem sound_unavailable {e : DetectionEngine} (h : e.Sound) (hroomy : e.Roomy) (nowMs : Nat) (code : String)
    (reason : DetectionTransitionReason) : (e.publishUnavailable nowMs code reason false).2.Sound := by
  cases hcode : validateErrorCode code with
  | error err =>
    unfold publishUnavailable
    rw [hcode]
    exact h
  | ok u => exact (unavailable_settled h hroomy hcode reason).sound

/-- Every call keeps a sound engine sound, whether it succeeds or not. -/
theorem sound_step {e : DetectionEngine} (h : e.Sound) (hroomy : e.Roomy) (c : Call) : (c.reply e).2.Sound := by
  cases c with
  | evaluate nowNs nowMs s =>
    show (e.evaluate nowNs nowMs s).2.Sound
    cases ht : e.trusts nowNs nowMs s with
    | false =>
      rw [(evaluate_untrusted ht).1]
      exact h
    | true =>
      obtain ⟨d, -, hsettled⟩ := evaluate_settled h hroomy ht
      exact hsettled.sound
  | unavailable nowMs code => exact sound_unavailable h hroomy nowMs code _
  | pause nowMs => exact sound_unavailable h hroomy nowMs _ _
  | clear identity atNs atMs code =>
    show (e.clear identity atNs atMs code).2.Sound
    cases hcode : validateErrorCode code with
    | error err =>
      rw [clear_refused hcode]
      exact h
    | ok u =>
      by_cases hidentity : identity = e.identity
      · rw [hidentity]
        exact (clear_settled h hroomy hcode).sound
      · unfold clear
        rw [hcode]
        simp only [ne_eq, hidentity, not_false_eq_true, if_true]
        exact sound_new _ _ _

/-! An engine whose transition sequence is exhausted records nothing any more: it
stays exhausted until a clear for another identity replaces it. -/

section Exhausted
variable {e : DetectionEngine}

theorem recordTransition_exhausted (h : ¬e.Roomy) (previous next : DetectionState)
    (reason : DetectionTransitionReason) (nowMs : Nat) :
    e.recordTransition previous next reason nowMs = .error .sequenceOverflow := by
  have hnumber : checkedAdd e.transitionSequence 1 = none := if_neg h
  rw [recordTransition, hnumber]

theorem publishUnavailable_exhausted (h : ¬e.Roomy) (nowMs : Nat) (code : String)
    (reason : DetectionTransitionReason) (resetSignals : Bool) :
    ¬(e.publishUnavailable nowMs code reason resetSignals).2.Roomy := by
  have hmarked : ¬(e.markUnavailable nowMs code resetSignals).Roomy := h
  unfold publishUnavailable
  cases validateErrorCode code with
  | error err => exact h
  | ok u =>
    simp only [recordTransition_exhausted hmarked]
    split
    · exact h
    · rw [finish_snd]
      exact h

theorem evaluate_exhausted (h : ¬e.Roomy) (nowNs nowMs : Nat) (s : DetectionSignals) :
    ¬(e.evaluate nowNs nowMs s).2.Roomy := by
  obtain ⟨-, -, hsequence⟩ := updateCandidateStreak_kept e s.candidate
  have hcounted : ¬(e.updateCandidateStreak s.candidate).Roomy := by
    unfold Roomy
    rw [hsequence]
    exact h
  unfold evaluate
  cases s.validate with
  | error err => exact h
  | ok u =>
    simp only
    split
    · exact h
    · cases (e.updateCandidateStreak s.candidate).decision e.effectiveState nowNs s with
      | error err => exact hcounted
      | ok d =>
        have habsorbed : ¬((e.updateCandidateStreak s.candidate).absorb d nowNs nowMs s).Roomy := hcounted
        simp only [commit, recordTransition_exhausted habsorbed]
        split
        · exact hcounted
        · rw [finish_snd]
          exact hcounted

theorem exhausted_step (h : ¬e.Roomy) (c : Call) : ¬(c.reply e).2.Roomy ∨ (c.reply e).2.Sound := by
  cases c with
  | evaluate nowNs nowMs s => exact .inl (evaluate_exhausted h nowNs nowMs s)
  | unavailable nowMs code => exact .inl (publishUnavailable_exhausted h nowMs code _ _)
  | pause nowMs => exact .inl (publishUnavailable_exhausted h nowMs _ _ _)
  | clear identity atNs atMs code =>
    show ¬(e.clear identity atNs atMs code).2.Roomy ∨ (e.clear identity atNs atMs code).2.Sound
    unfold clear
    cases validateErrorCode code with
    | error err => exact .inl h
    | ok u =>
      simp only
      split
      · exact .inr (sound_new _ _ _)
      · have hreset : ¬(e.reset atNs).Roomy := h
        exact .inl (publishUnavailable_exhausted hreset atMs code _ _)

end Exhausted

end DetectionEngine

/-- In every run, an engine whose transition sequence is not exhausted is sound. -/
theorem sound_history (identity : RateIdentity) (startNs startMs : Nat) (calls : List Call)
    (hroomy : (history identity startNs startMs calls).1.Roomy) : (history identity startNs startMs calls).1.Sound := by
  have hinvariant := tickRecorder.run_invariant (fun e _ => e.Roomy → e.Sound) ?_ (.new identity startNs startMs, [])
    calls (fun _ => sound_new identity startNs startMs)
  · exact hinvariant hroomy
  · intro e log c h hnext
    by_cases hroom : e.Roomy
    · exact sound_step (h hroom) hroom c
    · rcases exhausted_step hroom c with hfull | hsound
      · exact absurd hnext hfull
      · exact hsound

/-! ### What a reader of the report may rely on -/

/-- The cached report is valid, its history is the engine's and has no gap, and the
cooldown and the retained state are there exactly when the states say so. -/
structure Represented (e : DetectionEngine) : Prop where
  valid : e.report.validate = .ok ()
  history : e.report.transitions = e.transitions ∧ e.report.transitionSequence = e.transitionSequence
  bounded : e.transitions.length ≤ detectionTransitionCapacity
  gapless : e.transitions.IsChain Follows
  ends : ∀ t ∈ e.transitions.getLast?, t.currentState = e.report.state ∧ t.sequence = e.transitionSequence
  cooldown : e.cooldownStartedAtMonotonicNs.isSome ↔ e.effectiveState = .cooldown
  retained : e.report.retainedAnomalousState.isSome ↔ e.report.state = .cooldown ∨
    e.report.state = .unavailable ∧ (e.effectiveState.isAnomalous = true ∨ e.effectiveState = .cooldown)
  anomalous : ∀ state ∈ e.report.retainedAnomalousState, state.isAnomalous = true

/-- **The representation invariant.** After any calls, whether they succeeded or not, an
engine whose transition sequence is below its maximum is represented. -/
theorem represented (identity : RateIdentity) (startNs startMs : Nat) (calls : List Call)
    (hroomy : (history identity startNs startMs calls).1.transitionSequence + 1 < u64Bound) :
    Represented (history identity startNs startMs calls).1 := by
  have h := sound_history identity startNs startMs calls hroomy
  generalize (history identity startNs startMs calls).1 = e at h hroomy
  have hvalid := h.steady.valid h.chained (Nat.lt_of_succ_lt hroomy)
  have hretained := h.steady.retained
  rw [h.synced_eq] at hvalid hretained
  have hreport : e.report = e.synced.report := congrArg (·.report) h.synced_eq.symm
  exact {
    valid := hvalid
    history := ⟨congrArg (·.transitions) hreport, congrArg (·.transitionSequence) hreport⟩
    bounded := h.chained.bounded
    gapless := h.chained.gapless
    ends := h.chained.ends
    cooldown := by
      rw [h.steady.resume]
      exact h.steady.cooldown
    retained := hretained.1
    anomalous := hretained.2 }

/-- After a storm, a pause in its cooldown, and a clear that is refused. -/
theorem represented_paused_storm :
    Represented (sampleHistory (afterIngressStorm (List.replicate 10 (sampleSignals .none true)) ++
      [.pause 20000, .clear sampleIdentity 0 0 ""])).1 :=
  represented sampleIdentity 1000000000 1000 _ (by decide)

/-! ### An evaluation that fails -/

/-- **`evaluate` is atomic.** After any calls, an engine whose transition sequence is below
its maximum fails for signals that are not valid and for a clock that has not moved on, and
for nothing else, and a failed call leaves it as it was. -/
theorem evaluate_atomic (identity : RateIdentity) (startNs startMs : Nat) (calls : List Call)
    (hroomy : (history identity startNs startMs calls).1.transitionSequence + 1 < u64Bound) (nowNs nowMs : Nat)
    (s : DetectionSignals) (err : DetectionEngineError)
    (herr : ((history identity startNs startMs calls).1.evaluate nowNs nowMs s).1 = .error err) :
    (s.validate ≠ .ok () ∨ nowNs ≤ (history identity startNs startMs calls).1.lastTrustworthyMonotonicNs ∨
      ∃ previous ∈ (history identity startNs startMs calls).1.report.lastTrustworthyAtUnixMs, nowMs < previous) ∧
      ((history identity startNs startMs calls).1.evaluate nowNs nowMs s).2 = (history identity startNs startMs calls).1 := by
  have h := sound_history identity startNs startMs calls hroomy
  generalize (history identity startNs startMs calls).1 = e at *
  have huntrusted : e.trusts nowNs nowMs s = false := by
    by_contra htrusted
    obtain ⟨d, -, hsettled⟩ := evaluate_settled h hroomy (Bool.eq_true_of_not_eq_false htrusted)
    rw [hsettled.ok] at herr
    cases herr
  refine ⟨?_, (evaluate_untrusted huntrusted).1⟩
  rw [trusts, Bool.and_eq_false_iff, Bool.not_eq_false'] at huntrusted
  rcases huntrusted with hinvalid | hclock
  · refine .inl fun hvalid => ?_
    rw [hvalid] at hinvalid
    cases hinvalid
  · rw [clockRegressed, Bool.or_eq_true, decide_eq_true_eq, Option.any_eq_true] at hclock
    simp only [decide_eq_true_eq] at hclock
    exact .inr hclock

/-- In a cooldown, with a clock that stands still. -/
theorem evaluate_atomic_stopped_clock :
    ((sampleHistory (afterIngressStorm (List.replicate 10 (sampleSignals .none true)))).1.evaluate 0 0
      (sampleSignals .ingress true)).2 = (sampleHistory (afterIngressStorm (List.replicate 10 (sampleSignals .none true)))).1 :=
  (evaluate_atomic sampleIdentity 1000000000 1000 _ (by decide) 0 0 _ .clockRegression (by decide)).2

end NetworkLoop.Detection
