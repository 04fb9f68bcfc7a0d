import NetworkLoop.Detection.Moves
import NetworkLoop.Library.Recorder

/-! Runs of the engine.

A run is any list of calls, with any arguments: calls that fail are part of it. The
observer of `tickRecorder` notes the ticks since the last clear, newest first, each
with the effective state before and after it. A tick is an `evaluate` call that
passes the two checks at its head; a call that fails them leaves the engine as it
was (`evaluate_untrusted`), and so does a clear that is refused. With valid signals
and increasing times every `evaluate` call is a tick.

Two invariants connect the engine's counters with this log: `CandidateCounted` for
the assertion streak and `ClearCounted` for the clear streak. -/
namespace NetworkLoop.Detection
open Library DetectionEngine

inductive Call where
  | evaluate (nowNs nowMs : Nat) (signals : DetectionSignals)
  | unavailable (nowMs : Nat) (code : String)
  | pause (nowMs : Nat)
  | clear (identity : RateIdentity) (atNs atMs : Nat) (code : String)
  deriving DecidableEq

def Call.reply (e : DetectionEngine) : Call → Reply
  | .evaluate nowNs nowMs s => e.evaluate nowNs nowMs s
  | .unavailable nowMs code => e.unavailable nowMs code
  | .pause nowMs => e.pause nowMs
  | .clear identity atNs atMs code => e.clear identity atNs atMs code

structure Tick where
  signals : DetectionSignals
  before : DetectionState
  after : DetectionState

/-- The tick that an `evaluate` call makes of the engine. -/
def DetectionEngine.tick (e : DetectionEngine) (nowNs nowMs : Nat) (s : DetectionSignals) : Tick :=
  ⟨s, e.effectiveState, (e.evaluate nowNs nowMs s).2.effectiveState⟩

def tickRecorder : Recorder DetectionEngine Call Tick where
  step := fun e c => (c.reply e).2
  note := fun e c log =>
    match c with
    | .evaluate nowNs nowMs s =>
      if e.trusts nowNs nowMs s then e.tick nowNs nowMs s :: log else log
    | .clear _ _ _ code => if validateErrorCode code = .ok () then [] else log
    | .unavailable .. => log
    | .pause _ => log

/-- The engine and the ticks since the last clear after a run from `new`. -/
def history (identity : RateIdentity) (startNs startMs : Nat) (calls : List Call) :
    DetectionEngine × List Tick :=
  tickRecorder.run (.new identity startNs startMs, []) calls

/-- A run preserves what a trusted tick preserves and what survives an empty log,
provided the property only looks at what the engine remembers. -/
theorem history_invariant {Inv : Memory → List Tick → Prop}
    (hnew : ∀ effective, Inv ⟨.none, 0, 0, none, effective⟩ [])
    (htick : ∀ (e : DetectionEngine) (log : List Tick) (nowNs nowMs : Nat) (s : DetectionSignals),
      e.trusts nowNs nowMs s = true → Inv e.memory log →
      Inv (e.evaluate nowNs nowMs s).2.memory (e.tick nowNs nowMs s :: log))
    (identity : RateIdentity) (startNs startMs : Nat) (calls : List Call) :
    Inv (history identity startNs startMs calls).1.memory (history identity startNs startMs calls).2 := by
  refine tickRecorder.run_invariant (fun e log => Inv e.memory log) ?_
    (.new identity startNs startMs, []) calls (hnew _)
  intro e log c h
  cases c with
  | evaluate nowNs nowMs s =>
    show Inv (e.evaluate nowNs nowMs s).2.memory (if e.trusts nowNs nowMs s then _ else log)
    cases ht : e.trusts nowNs nowMs s with
    | false =>
      rw [(evaluate_untrusted ht).1]
      exact h
    | true => exact htick e log nowNs nowMs s ht h
  | unavailable nowMs code =>
    show Inv (e.publishUnavailable nowMs code _ false).2.memory log
    rw [publishUnavailable_memory]
    exact h
  | pause nowMs =>
    show Inv (e.publishUnavailable nowMs _ _ false).2.memory log
    rw [publishUnavailable_memory]
    exact h
  | clear identity atNs atMs code =>
    show Inv (e.clear identity atNs atMs code).2.memory (if validateErrorCode code = .ok () then [] else log)
    cases hcode : validateErrorCode code with
    | ok _ =>
      obtain ⟨effective, hmem⟩ := clear_memory e identity atNs atMs code hcode
      rw [hmem]
      exact hnew effective
    | error err =>
      rw [clear_refused hcode]
      exact h

/-! ### The assertion streak -/

/-- The tick carried this candidate. -/
def Carries (c : StormCandidate) (t : Tick) : Prop := t.signals.candidate = c

instance (c : StormCandidate) : DecidablePred (Carries c) :=
  fun t => inferInstanceAs (Decidable (t.signals.candidate = c))

/-- The engine knows how often the candidate was seen in a row, up to the bound. -/
def CandidateCounted (m : Memory) (log : List Tick) : Prop :=
  ∀ c, c ≠ .none → ∀ n, 1 ≤ n → n ≤ detectionAssertTicks →
    (Streak (Carries c) n log ↔ m.lastCandidate = c ∧ n ≤ m.candidateStreak)

/-- What one tick does to the streak, at any log that it counted so far. -/
theorem candidateCounted_update {e : DetectionEngine} {log : List Tick} (t : Tick)
    (h : CandidateCounted e.memory log) :
    CandidateCounted (e.updateCandidateStreak t.signals.candidate).memory (t :: log) := by
  intro c hc n hn hbound
  obtain ⟨m, rfl⟩ : ∃ m, n = m + 1 := ⟨n - 1, by omega⟩
  rw [streak_cons]
  unfold updateCandidateStreak
  by_cases hnone : t.signals.candidate = .none
  · -- no candidate: nothing is on a streak any more
    simp only [hnone, if_true, memory]
    constructor
    · rintro ⟨hcar, -⟩
      exact absurd (hcar.symm.trans hnone) hc
    · rintro ⟨hlast, -⟩
      exact absurd hlast.symm hc
  · rw [if_neg hnone]
    have hbefore := h c hc m
    by_cases hsame : t.signals.candidate = e.lastCandidate
    · have hcar : Carries c t ↔ e.lastCandidate = c := by rw [Carries, hsame]
      simp only [hsame, if_true, memory] at hbefore ⊢
      rw [hcar]
      rcases Nat.eq_zero_or_pos m with rfl | hm
      · simp only [streak_zero, and_true]
        constructor
        · intro hl; exact ⟨hl, by omega⟩
        · exact fun hl => hl.1
      · rw [hbefore hm (by omega)]
        constructor
        · rintro ⟨hl, -, hle⟩; exact ⟨hl, by omega⟩
        · rintro ⟨hl, hle⟩; exact ⟨hl, hl, by omega⟩
    · simp only [hsame, if_false, memory] at hbefore ⊢
      rcases Nat.eq_zero_or_pos m with rfl | hm
      · simp [streak_zero, Carries]
      · rw [hbefore hm (by omega)]
        constructor
        · rintro ⟨hcar, hlast, -⟩
          exact absurd (hcar.trans hlast.symm) hsame
        · rintro ⟨-, hle⟩
          omega

/-- The streak after a trusted tick is the updated one, however the call ends. -/
theorem evaluate_candidate {e : DetectionEngine} {nowNs nowMs : Nat} {s : DetectionSignals}
    (h : e.trusts nowNs nowMs s = true) :
    (e.evaluate nowNs nowMs s).2.memory.lastCandidate = (e.updateCandidateStreak s.candidate).lastCandidate ∧
      (e.evaluate nowNs nowMs s).2.memory.candidateStreak =
        (e.updateCandidateStreak s.candidate).candidateStreak := by
  cases evaluate_outcome h with
  | stuck err _ hreply => rw [hreply]; exact ⟨rfl, rfl⟩
  | published d _ hmem _ _ => rw [hmem]; exact ⟨rfl, rfl⟩
  | exhausted d _ _ _ hmem => rw [hmem]; exact ⟨rfl, rfl⟩

theorem candidateCounted_history (identity : RateIdentity) (startNs startMs : Nat) (calls : List Call) :
    CandidateCounted (history identity startNs startMs calls).1.memory
      (history identity startNs startMs calls).2 := by
  apply history_invariant
  · intro effective c hc n hn _
    constructor
    · intro hs
      exact absurd hs.1 (by simp; omega)
    · rintro ⟨hlast, -⟩
      exact absurd hlast.symm hc
  · intro e log nowNs nowMs s ht h c hc n hn hbound
    obtain ⟨hlast, hstreak⟩ := evaluate_candidate ht
    rw [hlast, hstreak]
    exact candidateCounted_update (e.tick nowNs nowMs s) h c hc n hn hbound

/-- The updated streak reaches the bound exactly if the tick continues a streak of two. -/
theorem updated_asserts_iff (e : DetectionEngine) {c : StormCandidate} (hc : c ≠ .none) :
    detectionAssertTicks ≤ (e.updateCandidateStreak c).candidateStreak ↔
      c = e.lastCandidate ∧ 2 ≤ e.candidateStreak := by
  unfold updateCandidateStreak detectionAssertTicks
  rw [if_neg hc]
  by_cases hsame : c = e.lastCandidate
  · simp only [hsame, if_true, true_and]
    omega
  · simp [hsame]

/-- Three ticks in a row carried the candidate exactly if the updated streak says so. -/
theorem streak_asserts_iff {e : DetectionEngine} {log : List Tick} (t : Tick)
    (h : CandidateCounted e.memory log) (hc : t.signals.candidate ≠ .none) :
    Streak (Carries t.signals.candidate) detectionAssertTicks (t :: log) ↔
      detectionAssertTicks ≤ (e.updateCandidateStreak t.signals.candidate).candidateStreak := by
  have hlast : (e.updateCandidateStreak t.signals.candidate).lastCandidate = t.signals.candidate := by
    unfold updateCandidateStreak
    rw [if_neg hc]
    split
    · exact (‹_› : t.signals.candidate = e.lastCandidate).symm
    · rfl
  rw [candidateCounted_update t h _ hc detectionAssertTicks (by decide) (Nat.le_refl _)]
  exact ⟨fun h => h.2, fun h => ⟨hlast, h⟩⟩

/-! ### The clear streak -/

/-- What a trusted tick leaves of the effective state, however the call ends. -/
theorem exhausted_after {e : DetectionEngine} {d : Decision} (hchange : e.report.state ≠ d.nextState) :
    (if e.report.state = .unavailable then d.nextState else e.report.state) = d.nextState ∨
      (if e.report.state = .unavailable then d.nextState else e.report.state) = e.effectiveState ∧
        d.nextState ≠ e.effectiveState := by
  by_cases hun : e.report.state = .unavailable
  · exact .inl (by rw [if_pos hun])
  · have heff : e.effectiveState = e.report.state := by rw [effectiveState, if_neg hun]
    rw [if_neg hun, heff]
    exact .inr ⟨rfl, hchange.symm⟩

/-- Signals with this candidate, with or without the adaptive evidence. -/
def sampleSignals (candidate : StormCandidate) (ready : Bool) : DetectionSignals :=
  let ingress := candidate == .ingress || candidate == .bidirectional
  let egress := candidate == .egress || candidate == .bidirectional
  let given {α : Type} (value : α) : Option α := if ready then some value else none
  { sourceWindowEndUnixMs := given 1000
    ingress := ⟨given 800, given 0, given 800, given false, given ingress, some (!ready && ingress)⟩
    egress := ⟨given 0, given 0, given 0, given false, given egress, some (!ready && egress)⟩
    candidate := candidate
    fingerprintWindow := .warming
    loopSuspected := none
    loopHighConfidence := none }

/-- A fresh fingerprint window with repeated relations and, for high confidence,
egress-first correlation. -/
def sampleFingerprint (high : Bool) : FingerprintWindowReport where
  state := .ready
  windowMs := 10000
  coverageMs := 10000
  startUnixMs := some 0
  endUnixMs := some 1000
  capturedEntryCount := 2
  deltaRelationCount := 1
  repeatedRelationCount := 1
  egressFirstCorrelatedRelationCount := if high then 1 else 0
  ingress := ⟨16, 1024⟩
  egress := ⟨4, 256⟩
  dominantIngressPacketRatioMilli := some 800
  maximumIngressToEgressPacketRatioMilli := if high then some 4000 else none
  lastErrorCode := none

def sampleLoopSignals (high : Bool) : DetectionSignals :=
  {sampleSignals .ingress true with
    fingerprintWindow := sampleFingerprint high
    loopSuspected := some true
    loopHighConfidence := some high}

def sampleIdentity : RateIdentity := ⟨7, 11, by decide, by decide⟩

/-- One `evaluate` call a second, the first in second `n`. -/
def everySecond (n : Nat) : List DetectionSignals → List Call
  | [] => []
  | s :: rest => .evaluate (n * 1000000000) (n * 1000) s :: everySecond (n + 1) rest

/-- A run of the sampled engine, started in second one. -/
def sampleHistory (calls : List Call) : DetectionEngine × List Tick :=
  history sampleIdentity 1000000000 1000 calls

end NetworkLoop.Detection
