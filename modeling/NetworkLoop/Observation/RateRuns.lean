import NetworkLoop.Observation.History
import NetworkLoop.Library.Recorder

/-! Runs of the rate history.

Any calls, with any samples and times, leave at most sixty-four samples of the
history's own identity that follow each other (`retained_after`); from the samples
alone `ReadyWindow` says what a ready window holds. A window that is covered stays
covered while the samples come a second apart and nothing clears the history:
either the sample that covers it is still there, or the history is full, and then it
is longer than the longest window (`covered_keeps`). `history_correct` is the whole
contract. -/
namespace NetworkLoop.Observation
open Library

namespace RateHistory

/-- The calls that change a history. -/
inductive Call where
  | insert (sample : RateSample)
  | validateCurrent (sample : RateSample)
  | recordTransientFailure (code : String)
  | recordIdentityFailure (nowNs : Nat) (code : String)
  | recordRateFailure (nowNs : Nat) (code : String)
  | pause (nowNs : Nat) (code : String)
  | clearAt (ns : Nat)

def apply (h : RateHistory) : Call → RateHistory
  | .insert s => (h.insert s).2
  | .validateCurrent s => (h.validateCurrent s).2
  | .recordTransientFailure code => h.recordTransientFailure code
  | .recordIdentityFailure nowNs code => h.recordIdentityFailure nowNs code
  | .recordRateFailure nowNs code => h.recordRateFailure nowNs code
  | .pause nowNs code => h.pause nowNs code
  | .clearAt ns => h.clearAt ns

/-- Runs without anything to observe. -/
def recorder : Recorder RateHistory Call Unit where
  step := apply
  note := fun _ _ log => log

def after (h : RateHistory) (calls : List Call) : RateHistory := (recorder.run (h, []) calls).1

theorem after_append (h : RateHistory) (calls more : List Call) :
    h.after (calls ++ more) = (h.after calls).after more := by
  simp only [after, Recorder.run_fst, List.foldl_append]

/-! ### What is retained -/

/-- A well-formed history within its capacity that holds its own samples. -/
structure Retained (h : RateHistory) : Prop extends WellFormed h where
  bounded : h.samples.length ≤ rateHistoryCapacity
  own : ∀ s ∈ h.samples, s.identity = h.identity

variable {h : RateHistory} {s : RateSample}

theorem retained_of_empty (hempty : h.samples = []) : h.Retained := by
  refine ⟨wellFormed_of_empty hempty, ?_, ?_⟩
  · rw [hempty]
    exact Nat.zero_le _
  · intro s hs
    rw [hempty] at hs
    cases hs

theorem retained_clearAt (h : RateHistory) (ns : Nat) : (h.clearAt ns).Retained := retained_of_empty rfl

theorem Retained.recordFailure (hr : h.Retained) (code : String) : (h.recordFailure code).Retained :=
  ⟨hr.toWellFormed.recordFailure code, hr.bounded, hr.own⟩

theorem push_length (hb : h.samples.length ≤ rateHistoryCapacity) (s : RateSample) :
    (h.push s).length = min (h.samples.length + 1) rateHistoryCapacity := by
  unfold push
  split
  · rw [List.length_tail]
    simp only [List.length_append, List.length_singleton] at *
    omega
  · simp only [List.length_append, List.length_singleton] at *
    omega

theorem Retained.insert (hr : h.Retained) (s : RateSample) : (h.insert s).2.Retained := by
  refine ⟨hr.toWellFormed.insert s, ?_, ?_⟩
  · obtain ⟨-, -, hsamples, -, -, -⟩ | ⟨error, -, hcleared⟩ := insert_cases h s
    · rw [hsamples, push_length hr.bounded]
      exact Nat.min_le_right _ _
    · rw [hcleared]
      exact Nat.zero_le _
  · obtain ⟨-, hok, hsamples, -, -, hidentity⟩ | ⟨error, -, hcleared⟩ := insert_cases h s
    · intro x hx
      rw [hsamples] at hx
      rw [hidentity]
      obtain hx | hx := List.mem_append.mp ((push_sublist h s).subset hx)
      · exact hr.own x hx
      · rw [List.mem_singleton.mp hx]
        exact (refusal_eq_none hok).1
    · rw [hcleared]
      exact (retained_clearAt h _).own

theorem Retained.validateCurrent (hr : h.Retained) (s : RateSample) : (h.validateCurrent s).2.Retained := by
  unfold RateHistory.validateCurrent
  cases h.refusal s false with
  | none => exact hr
  | some error => exact retained_clearAt h _

/-- Every call keeps what the history guarantees. -/
theorem Retained.apply (hr : h.Retained) (c : Call) : (h.apply c).Retained := by
  cases c with
  | insert s => exact hr.insert s
  | validateCurrent s => exact hr.validateCurrent s
  | recordTransientFailure code => exact hr.recordFailure code
  | recordIdentityFailure nowNs code => exact (retained_clearAt h nowNs).recordFailure code
  | recordRateFailure nowNs code => exact (retained_clearAt h nowNs).recordFailure code
  | pause nowNs code => exact retained_of_empty rfl
  | clearAt ns => exact retained_clearAt h ns

theorem retained_after (identity : RateIdentity) (startNs : Nat) (calls : List Call) :
    ((new identity startNs).after calls).Retained :=
  recorder.run_invariant (fun h _ => h.Retained) (fun _ _ c hr => hr.apply c) (new identity startNs, []) calls
    (retained_of_empty rfl)

/-! ### What a ready window holds -/

/-- No rate of the hook is beyond a `u64`. -/
def RatesBounded (hook : HookRate) : Prop :=
  ∀ counters ∈ hook.total :: hook.parseErrors :: List.ofFn fun c => (hook.classes c).counters,
    counters.packetsPerSecond < u64Bound ∧ counters.bytesPerSecond < u64Bound

/-- The rates between the endpoints, each of them the floor of its quotient. -/
def ReadyWindow (h : RateHistory) (i : Fin 3) (w : DetailedRateWindow) : Prop :=
  ∃ start latest, h.Endpoints (rateWindowMs i * 1000000) start latest ∧
    w.elapsedNs = some (latest.capturedAtMonotonicNs - start.capturedAtMonotonicNs) ∧
    w.startUnixMs = some start.capturedAtUnixMs ∧ w.endUnixMs = some latest.capturedAtUnixMs ∧
    ∃ hooks, w.hooks = some hooks ∧ ∀ k,
      hooks k = hookRatesBetween (start.hooks k) (latest.hooks k)
        (latest.capturedAtMonotonicNs - start.capturedAtMonotonicNs) ∧ RatesBounded (hooks k)

theorem ratesBetween_lt {start final : ObservationCounters} {elapsed : Nat} (he : rateSamplePeriodNs ≤ elapsed) :
    (ratesBetween start final elapsed).packetsPerSecond < u64Bound ∧
      (ratesBetween start final elapsed).bytesPerSecond < u64Bound := by
  exact ⟨(rate_le_delta _ he).trans_lt (Nat.lt_of_le_of_lt (Nat.sub_le _ _) final.packets_lt),
    (rate_le_delta _ he).trans_lt (Nat.lt_of_le_of_lt (Nat.sub_le _ _) final.bytes_lt)⟩

theorem ratesBounded_between (start final : HookObservation) {elapsed : Nat} (he : rateSamplePeriodNs ≤ elapsed) :
    RatesBounded (hookRatesBetween start final elapsed) := by
  intro counters hmem
  obtain rfl | hmem := List.mem_cons.mp hmem
  · exact ratesBetween_lt he
  · obtain rfl | hmem := List.mem_cons.mp hmem
    · exact ratesBetween_lt he
    · obtain ⟨c, rfl⟩ := List.mem_ofFn.mp hmem
      exact ratesBetween_lt he

/-- **A ready window lies between its endpoints.** -/
theorem readyWindow_of_ready (hw : h.WellFormed) {nowNs : Nat} {windows : Fin 3 → DetailedRateWindow}
    (hok : h.detailedWindows nowNs = .ok windows) {i : Fin 3} (hready : (windows i).state = .ready) :
    h.ReadyWindow i (windows i) := by
  obtain ⟨state, coverage, hstate, -, hi⟩ | ⟨start, latest, coverage, hends, -, hi⟩ := detailedWindows_cases hw hok i
  · rw [hi] at hready
    exact absurd hready hstate
  · rw [hi]
    refine ⟨start, latest, hends, rfl, rfl, rfl, _, rfl, fun k => ⟨rfl, ?_⟩⟩
    exact ratesBounded_between _ _ ((rateWindowMs_ge i).trans hends.covers)

/-! ### Eviction -/

/-- The second sample comes at least a sample period after the first. -/
def Apart (a b : RateSample) : Prop := a.capturedAtMonotonicNs + rateSamplePeriodNs ≤ b.capturedAtMonotonicNs

/-- A sample is inserted at least a sample period after the latest one. -/
def InStep (h : RateHistory) : Call → Prop
  | .insert s => ∀ latest, h.samples.getLast? = some latest → Apart latest s
  | _ => True

/-- A call in step that does not clear the history. -/
def Continues (h : RateHistory) : Call → Prop
  | .insert s => (h.insert s).1 = .ok () ∧ h.InStep (.insert s)
  | .validateCurrent s => (h.validateCurrent s).1 = .ok ()
  | .recordTransientFailure _ => True
  | _ => False

/-- Samples that are apart span as many periods as there are steps between them. -/
theorem apart_span {samples : List RateSample} {oldest latest : RateSample} (hchain : samples.IsChain Apart)
    (hhead : samples.head? = some oldest) (hlast : samples.getLast? = some latest) :
    oldest.capturedAtMonotonicNs + (samples.length - 1) * rateSamplePeriodNs ≤ latest.capturedAtMonotonicNs := by
  induction samples generalizing oldest with
  | nil => cases hhead
  | cons first rest ih =>
    cases hhead
    cases rest with
    | nil =>
      cases hlast
      simp
    | cons second rest =>
      obtain ⟨hstep, hrest⟩ := List.isChain_cons_cons.mp hchain
      rw [List.getLast?_cons_cons] at hlast
      have hspan := ih hrest rfl hlast
      unfold Apart at hstep
      simp only [List.length_cons, Nat.add_sub_cancel] at hspan ⊢
      rw [Nat.add_mul, Nat.one_mul]
      omega

theorem push_suffix (h : RateHistory) (s : RateSample) : h.push s <:+ h.samples ++ [s] := by
  unfold push
  split
  · exact List.tail_suffix _
  · exact List.suffix_rfl

theorem apart_push (hchain : h.samples.IsChain Apart) (hstep : h.InStep (.insert s)) : (h.push s).IsChain Apart := by
  have hall : (h.samples ++ [s]).IsChain Apart := by
    refine List.isChain_append.mpr ⟨hchain, .singleton _, fun latest hlast x hx => ?_⟩
    cases hx
    exact hstep latest hlast
  exact hall.suffix (push_suffix h s)

theorem apart_apply (hchain : h.samples.IsChain Apart) {c : Call} (hstep : h.InStep c) :
    (h.apply c).samples.IsChain Apart := by
  cases c with
  | insert s =>
    show (h.insert s).2.samples.IsChain Apart
    obtain ⟨-, -, hsamples, -, -, -⟩ | ⟨error, -, hcleared⟩ := insert_cases h s
    · rw [hsamples]
      exact apart_push hchain hstep
    · rw [hcleared]
      exact .nil
  | validateCurrent s =>
    show (h.validateCurrent s).2.samples.IsChain Apart
    unfold RateHistory.validateCurrent
    cases h.refusal s false with
    | none => exact hchain
    | some error => exact .nil
  | recordTransientFailure code => exact hchain
  | recordIdentityFailure nowNs code => exact .nil
  | recordRateFailure nowNs code => exact .nil
  | pause nowNs code => exact .nil
  | clearAt ns => exact .nil

/-- A full history whose samples are apart is longer than every window. -/
theorem rateWindowMs_le (i : Fin 3) : rateWindowMs i * 1000000 ≤ (rateHistoryCapacity - 1) * rateSamplePeriodNs := by
  revert i
  decide

/-- **Eviction uncovers no window.** -/
theorem covered_insert (hr : h.Retained) (hchain : h.samples.IsChain Apart) (hstep : h.InStep (.insert s))
    (hok : (h.insert s).1 = .ok ()) {i : Fin 3} (hcovered : ¬h.Uncovered (rateWindowMs i * 1000000)) :
    ¬(h.insert s).2.Uncovered (rateWindowMs i * 1000000) := by
  obtain ⟨-, hrefusal, hsamples, -, -, -⟩ | ⟨error, herror, -⟩ := insert_cases h s
  · intro huncovered
    unfold Uncovered at huncovered
    rw [hsamples] at huncovered
    have hyoung := huncovered s (push_getLast h s)
    by_cases hroom : (h.samples ++ [s]).length ≤ rateHistoryCapacity
    · -- nothing is evicted, and the latest sample is only younger
      refine hcovered fun latest hlast x hx => ?_
      have hpush : h.push s = h.samples ++ [s] := if_neg (Nat.not_lt.mpr hroom)
      rw [hpush] at hyoung
      have hlatest := ((refusal_eq_none hrefusal).2.2 latest hlast).1
      exact Nat.lt_of_le_of_lt hlatest (hyoung x (List.mem_append_left _ hx))
    · -- a full history is longer than the longest window
      have hlength : (h.push s).length = rateHistoryCapacity := by
        rw [push_length hr.bounded]
        rw [List.length_append, List.length_singleton] at hroom
        omega
      obtain ⟨oldest, hhead⟩ : ∃ oldest, (h.push s).head? = some oldest := by
        cases hp : h.push s with
        | nil =>
          rw [hp] at hlength
          cases hlength
        | cons oldest rest => exact ⟨oldest, rfl⟩
      have hspan := apart_span (apart_push hchain hstep) hhead (push_getLast h s)
      have hshort := hyoung oldest (List.mem_of_head? hhead)
      have hwindow := rateWindowMs_le i
      rw [hlength] at hspan
      omega
  · rw [herror] at hok
    cases hok

theorem covered_apply (hr : h.Retained) (hchain : h.samples.IsChain Apart) {c : Call} (hc : h.Continues c) {i : Fin 3}
    (hcovered : ¬h.Uncovered (rateWindowMs i * 1000000)) : ¬(h.apply c).Uncovered (rateWindowMs i * 1000000) := by
  cases c with
  | insert s => exact covered_insert hr hchain hc.2 hc.1 hcovered
  | validateCurrent s =>
    show ¬(h.validateCurrent s).2.Uncovered (rateWindowMs i * 1000000)
    have hok : (h.validateCurrent s).1 = .ok () := hc
    unfold RateHistory.validateCurrent at hok ⊢
    cases hrefusal : h.refusal s false with
    | none => exact hcovered
    | some error =>
      rw [hrefusal] at hok
      cases hok
  | recordTransientFailure code => exact hcovered
  | recordIdentityFailure nowNs code => exact hc.elim
  | recordRateFailure nowNs code => exact hc.elim
  | pause nowNs code => exact hc.elim
  | clearAt ns => exact hc.elim

theorem inStep_of_continues {c : Call} (hc : h.Continues c) : h.InStep c := by
  cases c with
  | insert s => exact hc.2
  | _ => trivial

/-- A covered window stays covered for as long as the run continues. -/
theorem covered_keeps (hr : h.Retained) (hchain : h.samples.IsChain Apart) {i : Fin 3}
    (hcovered : ¬h.Uncovered (rateWindowMs i * 1000000)) (more : List Call) (hmore : recorder.Obeys Continues h more) :
    ¬(h.after more).Uncovered (rateWindowMs i * 1000000) :=
  (recorder.run_invariant_under
    (fun h _ => h.Retained ∧ h.samples.IsChain Apart ∧ ¬h.Uncovered (rateWindowMs i * 1000000))
    (fun _ _ c hc h => ⟨h.1.apply c, apart_apply h.2.1 (inStep_of_continues hc), covered_apply h.1 h.2.1 hc h.2.2⟩)
    (h, []) more hmore ⟨hr, hchain, hcovered⟩).2.2

theorem apart_after (identity : RateIdentity) (startNs : Nat) (calls : List Call)
    (hrule : recorder.Obeys InStep (new identity startNs) calls) :
    ((new identity startNs).after calls).samples.IsChain Apart :=
  recorder.run_invariant_under (fun h _ => h.samples.IsChain Apart)
    (fun _ _ _ hstep hchain => apart_apply hchain hstep) (new identity startNs, []) calls hrule .nil

/-! ### The contract -/

/-- **The rate history.** After any calls it holds at most its capacity of its own
samples, which follow each other; from its freshness reference on its windows can be
calculated, are valid, and hold the rates between their endpoints; and while the samples
come a second apart, a ready window is not warming up again before the history is
cleared. -/
theorem history_correct (identity : RateIdentity) (startNs : Nat) (calls : List Call) :
    ((new identity startNs).after calls).Retained ∧
      (∀ nowNs, ((new identity startNs).after calls).freshnessReference ≤ nowNs →
        ∃ windows, ((new identity startNs).after calls).detailedWindows nowNs = .ok windows ∧
          ∀ i, (windows i).windowMs = rateWindowMs i ∧ (windows i).validate = .ok () ∧
            ((windows i).state = .ready → ((new identity startNs).after calls).ReadyWindow i (windows i))) ∧
      (recorder.Obeys InStep (new identity startNs) calls →
        ∀ nowNs windows i, ((new identity startNs).after calls).detailedWindows nowNs = .ok windows →
          (windows i).state = .ready →
          ∀ more, recorder.Obeys Continues ((new identity startNs).after calls) more →
            ∀ laterNs later, ((new identity startNs).after (calls ++ more)).detailedWindows laterNs = .ok later →
              (later i).state ≠ .warmingUp) := by
  have hr := retained_after identity startNs calls
  refine ⟨hr, fun nowNs hn => ?_, fun hrule nowNs windows i hok hready more hmore laterNs later hlater hwarming => ?_⟩
  · obtain ⟨windows, hok⟩ := detailedWindows_ok hr.toWellFormed hn
    refine ⟨windows, hok, fun i => ?_⟩
    exact ⟨detailedWindows_windowMs hr.toWellFormed hok i, detailedWindows_valid hr.toWellFormed hok i,
      readyWindow_of_ready hr.toWellFormed hok⟩
  · have hcovered : ¬((new identity startNs).after calls).Uncovered (rateWindowMs i * 1000000) := by
      obtain ⟨start, latest, hends, -⟩ := readyWindow_of_ready hr.toWellFormed hok hready
      intro huncovered
      have hyoung := huncovered latest hends.last start hends.mem
      have hcovers := Nat.add_le_of_le_sub hends.precedes.1.le hends.covers
      omega
    have hkept := covered_keeps hr (apart_after identity startNs calls hrule) hcovered more hmore
    have hr' := retained_after identity startNs (calls ++ more)
    obtain ⟨state, coverage, -, huncovered, hi⟩ | ⟨start, latest, coverage, -, -, hi⟩ :=
      detailedWindows_cases hr'.toWellFormed hlater i
    · rw [hi] at hwarming
      rw [after_append] at huncovered
      exact hkept (huncovered hwarming)
    · rw [hi] at hwarming
      cases hwarming

/-! A silent interface that is read once a second. -/

def silentIdentity : RateIdentity := ⟨1, 1, Nat.one_ne_zero, Nat.one_ne_zero⟩

def silentHooks (i : Fin 2) : HookObservation := ⟨hookOrder i, .zero, fun c => ⟨classOrder c, .zero⟩, .zero⟩

theorem silentHooks_ordered : HooksOrdered silentHooks := ⟨fun _ => rfl, fun _ _ => rfl⟩

def silentRead (second : Nat) : Call :=
  .insert ⟨silentIdentity, second * rateSamplePeriodNs, second * 1000, .unknown, silentHooks, silentHooks_ordered⟩

/-- The one-second window is ready after two reads, and still there after a third. -/
theorem history_correct_third_read : ∀ laterNs later,
    ((new silentIdentity 0).after [silentRead 1, silentRead 2, silentRead 3]).detailedWindows laterNs = .ok later →
      (later 0).state ≠ .warmingUp := by
  have h := history_correct silentIdentity 0 [silentRead 1, silentRead 2]
  obtain ⟨windows, hok, -⟩ := h.2.1 2000000000 (by decide)
  have hready : (windows 0).state = .ready := by
    have hstate : (((new silentIdentity 0).after [silentRead 1, silentRead 2]).detailedWindows 2000000000 >>=
        fun w => Except.ok (w 0).state) = .ok .ready := by decide
    rw [hok] at hstate
    exact Except.ok.inj hstate
  have hsteps : recorder.Obeys InStep (new silentIdentity 0) [silentRead 1, silentRead 2] := by
    refine ⟨fun latest hlatest => ?_, fun latest hlatest => ?_, trivial⟩
    · cases hlatest
    · cases hlatest
      exact Nat.le_refl _
  refine h.2.2 hsteps 2000000000 windows 0 hok hready [silentRead 3] ⟨⟨by decide, fun latest hlatest => ?_⟩, trivial⟩
  cases hlatest
  exact Nat.le_refl _

end RateHistory

end NetworkLoop.Observation
