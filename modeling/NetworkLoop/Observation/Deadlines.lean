import NetworkLoop.Library.Grid
import NetworkLoop.Observation.Schedule

/-! The analysis deadlines of a session.

`advance_analysis_deadline` counts the periods that are overdue and moves the deadline past
all of them, each operation checked. The deadlines so stay on the grid of the first one, and a
slot of this grid has at most one `BackgroundAnalysis` read, whatever the times of the ticks
and the calls between them (`analysis_deadlines_on_grid`). No slot is left out either: a tick
that no earlier tick is ahead of finds its slot read, or reads it (`analysis_in_slot`). -/
namespace NetworkLoop.Observation
open Library

/-! ### The source's arithmetic -/

/-- `u64::checked_mul`. -/
def checkedMul (a b : Nat) : Option Nat := if a * b < u64Bound then some (a * b) else none

/-- `u64::checked_div`. -/
def checkedDiv (a b : Nat) : Option Nat := if b = 0 then none else some (a / b)

theorem analysisPeriodNs_pos : 0 < analysisPeriodNs := by decide

namespace SamplingService

/-- The deadline that `advance_analysis_deadline` comes to, with all of its checks. -/
def advancedDeadline (s : SamplingService) (nowNs : Nat) : Option Nat := do
  let deadline ← s.nextAnalysisAtNs
  let overdue ← checkedSub nowNs deadline
  let periods ← (checkedDiv overdue analysisPeriodNs).bind (checkedAdd · 1)
  let advance ← checkedMul periods analysisPeriodNs
  checkedAdd deadline advance

/-- `advance_analysis_deadline` of the service. -/
def advanceAnalysisDeadline (s : SamplingService) (nowNs : Nat) : Except Unit Unit × SamplingService :=
  match s.advancedDeadline nowNs with
  | none => (.error (), s)
  | some next => (.ok (), {s with nextAnalysisAtNs := some next})

/-- `analysis_due` of `sample_tick_inner`. -/
def analysisDue (s : SamplingService) (nowNs : Nat) : Bool :=
  s.nextAnalysisAtNs.any fun deadline => nowNs ≥ deadline

/-- How `sample_tick_inner` begins: the read that it comes to, and the service by then. -/
def purpose (s : SamplingService) (nowNs : Nat) : Option (ObservationReadPurpose × SamplingService) :=
  if s.components.isNone then none
  else if s.analysisDue nowNs then
    match s.advanceAnalysisDeadline nowNs with
    | (.error _, _) => none
    | (.ok _, s) => some (.backgroundAnalysis, s)
  else some (.backgroundSample, s)

variable {s : SamplingService} {deadline nowNs : Nat}

/-- Only the last two of the checks can fail once the deadline is passed. -/
theorem advancedDeadline_eq (h : s.nextAnalysisAtNs = some deadline) (hd : deadline ≤ nowNs) :
    s.advancedDeadline nowNs = Observation.advanceAnalysisDeadline deadline nowNs := by
  have hpos := analysisPeriodNs_pos
  rw [advancedDeadline, Observation.advanceAnalysisDeadline, h]
  -- the rest holds of any period, and no step is to compute with this one
  generalize analysisPeriodNs = period at hpos
  have hsub : checkedSub nowNs deadline = some (nowNs - deadline) := if_pos hd
  have hdiv : checkedDiv (nowNs - deadline) period = some ((nowNs - deadline) / period) := if_neg hpos.ne'
  rw [Option.bind_eq_bind, Option.bind_some, hsub, Option.bind_some, hdiv, Option.bind_some]
  generalize (nowNs - deadline) / period = periods
  by_cases hfits : (periods + 1) * period < u64Bound
  · have hadd : checkedAdd periods 1 = some (periods + 1) := if_pos ((Nat.le_mul_of_pos_right _ hpos).trans_lt hfits)
    have hmul : checkedMul (periods + 1) period = some ((periods + 1) * period) := if_pos hfits
    rw [if_pos hfits, hadd, Option.bind_some, hmul, Option.bind_some]
  · have hmul : checkedMul (periods + 1) period = none := if_neg hfits
    rw [if_neg hfits]
    cases hadd : checkedAdd periods 1 with
    | none => rfl
    | some periods' => rw [checkedAdd_eq_some hadd, Option.bind_some, hmul, Option.bind_none]

/-- A deadline that is passed moves on as long as the clock has a period left. -/
theorem advancedDeadline_of_room (h : s.nextAnalysisAtNs = some deadline) (hd : deadline ≤ nowNs)
    (hroom : nowNs + analysisPeriodNs < u64Bound) :
    s.advancedDeadline nowNs = some (deadline + ((nowNs - deadline) / analysisPeriodNs + 1) * analysisPeriodNs) := by
  have hfloor := Nat.div_mul_le_self (nowNs - deadline) analysisPeriodNs
  rw [advancedDeadline_eq h hd, Observation.advanceAnalysisDeadline, Nat.succ_mul]
  generalize (nowNs - deadline) / analysisPeriodNs * analysisPeriodNs = whole at hfloor ⊢
  rw [if_pos (by omega), checkedAdd, if_pos (by omega)]

/-- What a deadline that moves on moves to. -/
theorem advancedDeadline_eq_some {next : Nat} (h : s.nextAnalysisAtNs = some deadline) (hd : deadline ≤ nowNs)
    (hnext : s.advancedDeadline nowNs = some next) :
    next = deadline + ((nowNs - deadline) / analysisPeriodNs + 1) * analysisPeriodNs := by
  rw [advancedDeadline_eq h hd, Observation.advanceAnalysisDeadline] at hnext
  split at hnext
  · exact checkedAdd_eq_some hnext
  · cases hnext

/-! ### The read of a tick -/

theorem advanceAnalysisDeadline_of_none (h : s.advancedDeadline nowNs = none) :
    s.advanceAnalysisDeadline nowNs = (.error (), s) := by
  rw [advanceAnalysisDeadline, h]

theorem advanceAnalysisDeadline_of_some {next : Nat} (h : s.advancedDeadline nowNs = some next) :
    s.advanceAnalysisDeadline nowNs = (.ok (), {s with nextAnalysisAtNs := some next}) := by
  rw [advanceAnalysisDeadline, h]

/-- A tick samples before its deadline; past it, it comes to an analysis unless the clock is
at its end. -/
theorem purpose_cases {c : Components} (hc : s.components = some c) (h : s.nextAnalysisAtNs = some deadline) (nowNs : Nat) :
    (nowNs < deadline ∧ s.purpose nowNs = some (.backgroundSample, s)) ∨
      (deadline ≤ nowNs ∧ s.advancedDeadline nowNs = none ∧ s.purpose nowNs = none) ∨
      ∃ next, deadline ≤ nowNs ∧ s.advancedDeadline nowNs = some next ∧
        s.purpose nowNs = some (.backgroundAnalysis, {s with nextAnalysisAtNs := some next}) := by
  have hcomponents : s.components.isNone = false := by rw [hc]; rfl
  by_cases hd : deadline ≤ nowNs
  · have hdue : s.analysisDue nowNs = true := by simp [analysisDue, h, hd]
    refine .inr ?_
    cases hnext : s.advancedDeadline nowNs with
    | none => exact .inl ⟨hd, rfl, by simp [purpose, hcomponents, hdue, advanceAnalysisDeadline_of_none hnext]⟩
    | some next => exact .inr ⟨next, hd, rfl, by simp [purpose, hcomponents, hdue, advanceAnalysisDeadline_of_some hnext]⟩
  · have hdue : s.analysisDue nowNs = false := by simpa [analysisDue, h] using hd
    exact .inl ⟨Nat.not_le.mp hd, by simp [purpose, hcomponents, hdue]⟩

/-- It is the decision of `schedule`. -/
theorem purpose_eq_schedule {c : Components} (hc : s.components = some c) (nowNs : Nat) :
    s.purpose nowNs = (s.schedule nowNs).map fun scheduled =>
      (if scheduled.1 then .backgroundAnalysis else .backgroundSample, {s with nextAnalysisAtNs := scheduled.2}) := by
  have hcomponents : s.components.isNone = false := by rw [hc]; rfl
  cases h : s.nextAnalysisAtNs with
  | none =>
    have hdue : s.analysisDue nowNs = false := by rw [analysisDue, h]; rfl
    rw [schedule, h]
    simp [purpose, hcomponents, hdue, ← h]
  | some deadline =>
    rw [schedule, h]
    obtain ⟨hd, hp⟩ | ⟨hd, hnext, hp⟩ | ⟨next, hd, hnext, hp⟩ := purpose_cases hc h nowNs
    · rw [hp]
      simp [Nat.not_le.mpr hd, ← h]
    · rw [hp]
      simp [hd, ← advancedDeadline_eq h hd, hnext]
    · rw [hp]
      simp [hd, ← advancedDeadline_eq h hd, hnext]

/-- A tick leaves the deadline that its read was asked for with. -/
theorem sampleTick_deadline (s : SamplingService) (own : OwnershipRecord) (i : TickInput) :
    (s.sampleTick own i).nextAnalysisAtNs = ((s.purpose i.nowNs).elim s (·.2)).nextAnalysisAtNs := by
  rw [sampleTick, (captureIncidentTransitions_frame _).2]
  cases hc : s.components with
  | none => simp [sampleTickInner, purpose, hc]
  | some c =>
    rw [purpose_eq_schedule hc]
    cases hs : s.schedule i.nowNs with
    | none => simp [sampleTickInner_of_overflow own hc hs]
    | some scheduled => simp [(sampleTickInner_of_schedule own hc hs).2.1]

/-- A tick of a session leaves the session. -/
theorem sampleTick_components (s : SamplingService) (own : OwnershipRecord) (i : TickInput) :
    (s.sampleTick own i).components.isSome = s.components.isSome := by
  rw [sampleTick, (captureIncidentTransitions_frame _).1]
  cases hc : s.components with
  | none => simp [sampleTickInner, hc]
  | some c =>
    cases hs : s.schedule i.nowNs with
    | none => simp [sampleTickInner_of_overflow own hc hs, hc]
    | some scheduled => simp [(sampleTickInner_of_schedule own hc hs).1]

/-- A tick asks its reader for this read and for no other. -/
theorem sampleTickInner_reads (own : OwnershipRecord) (i : TickInput) (reader : Reader)
    (h : ∀ read ∈ s.purpose i.nowNs, reader.reply read.1 = i.reader.reply read.1) :
    s.sampleTickInner own {i with reader := reader} = s.sampleTickInner own i := by
  unfold sampleTickInner
  cases hc : s.components with
  | none => rfl
  | some c =>
    rw [purpose_eq_schedule hc] at h
    dsimp only
    cases hs : s.schedule i.nowNs with
    | none => rfl
    | some scheduled =>
      obtain ⟨due, next⟩ := scheduled
      rw [hs] at h
      have hreply := h _ rfl
      dsimp only at hreply ⊢
      have htick : c.tick own due {i with reader := reader} = c.tick own due i := by
        unfold Components.tick
        dsimp only
        rw [hreply]
      rw [htick, hreply]

/-! ### The other calls -/

/-- The session and its deadline are as they were. -/
structure OnSession (before after : SamplingService) : Prop where
  session : after.components.isSome = before.components.isSome
  deadline : after.nextAnalysisAtNs = before.nextAnalysisAtNs

theorem acknowledgeRequestTransitions_onSession (s : SamplingService) : s.OnSession s.acknowledgeRequestTransitions := by
  unfold acknowledgeRequestTransitions
  split <;> exact ⟨rfl, rfl⟩

/-- A request leaves other components, if it comes to them. -/
theorem answered_onSession {c : Components} (hc : s.components = some c) (after : Components) :
    s.OnSession ({s with components := some after}).acknowledgeRequestTransitions := by
  obtain ⟨hsession, hdeadline⟩ := acknowledgeRequestTransitions_onSession {s with components := some after}
  exact ⟨by rw [hc]; exact hsession, hdeadline⟩

theorem observe_onSession (s : SamplingService) (requested active : String) (own : OwnershipRecord) (i : RequestInput) :
    s.OnSession (s.observe requested active own i).2 := by
  unfold observe
  split
  · exact s.acknowledgeRequestTransitions_onSession
  · cases hc : s.components with
    | none => exact s.acknowledgeRequestTransitions_onSession
    | some c => exact answered_onSession hc _

theorem status_onSession (s : SamplingService) (requested : Option String) (active : String) (own : OwnershipRecord)
    (i : RequestInput) : s.OnSession (s.status requested active own i).2 := by
  unfold status
  split
  · exact ⟨rfl, rfl⟩
  · cases hc : s.components with
    | none => exact s.acknowledgeRequestTransitions_onSession
    | some c => exact answered_onSession hc _

theorem pause_onSession (s : SamplingService) (nowNs : Nat) (baselineMs detectionMs : Option Nat) :
    s.OnSession (s.pause nowNs baselineMs detectionMs) := by
  obtain ⟨hcomponents, hdeadline⟩ := captureIncidentTransitions_frame
    {s with components := s.components.map fun c => c.pause nowNs baselineMs detectionMs}
  exact ⟨(congrArg Option.isSome hcomponents).trans Option.isSome_map, hdeadline⟩

theorem generationEnded_onSession (s : SamplingService) (wallMs : Option Nat) : s.OnSession (s.generationEnded wallMs) := by
  unfold generationEnded
  split
  · split <;> exact ⟨rfl, rfl⟩
  · exact ⟨rfl, rfl⟩

theorem startIncidentGeneration_onSession (s : SamplingService) (interface : String) (own : OwnershipRecord)
    (idSource : Nat → Except IncidentRecorderError EventId) :
    s.OnSession (s.startIncidentGeneration interface own idSource).2 := by
  unfold startIncidentGeneration
  split <;> exact ⟨rfl, rfl⟩

end SamplingService

/-! ### Runs -/

/-- The calls between a `start` and the next, with what they are given. -/
inductive SessionCall where
  | sampleTick (own : OwnershipRecord) (i : TickInput)
  | observe (requested active : String) (own : OwnershipRecord) (i : RequestInput)
  | status (requested : Option String) (active : String) (own : OwnershipRecord) (i : RequestInput)
  | pause (nowNs : Nat) (baselineMs detectionMs : Option Nat)
  | generationEnded (wallMs : Option Nat)
  | takeIncidentJobs
  | startIncidentGeneration (interface : String) (own : OwnershipRecord)
      (idSource : Nat → Except IncidentRecorderError EventId)

namespace SessionCall

def apply (s : SamplingService) : SessionCall → SamplingService
  | .sampleTick own i => s.sampleTick own i
  | .observe requested active own i => (s.observe requested active own i).2
  | .status requested active own i => (s.status requested active own i).2
  | .pause nowNs baselineMs detectionMs => s.pause nowNs baselineMs detectionMs
  | .generationEnded wallMs => s.generationEnded wallMs
  | .takeIncidentJobs => s.takeIncidentJobs.2
  | .startIncidentGeneration interface own idSource => (s.startIncidentGeneration interface own idSource).2

/-- When the call is a tick. -/
def tickedAt : SessionCall → Option Nat
  | .sampleTick _ i => some i.nowNs
  | _ => none

/-- When the call makes a `BackgroundAnalysis` read. -/
def analysisAt (s : SamplingService) : SessionCall → Option Nat
  | .sampleTick _ i =>
    (s.purpose i.nowNs).bind fun read => if read.1 = .backgroundAnalysis then some i.nowNs else none
  | _ => none

end SessionCall

/-- The observer writes down the times of the `BackgroundAnalysis` reads. -/
def session : Recorder SamplingService SessionCall Nat where
  step := SessionCall.apply
  note := fun s call log => (call.analysisAt s).toList ++ log

variable {s : SamplingService} {initial : Nat} {log : List Nat} {own : OwnershipRecord} {i : TickInput}

theorem SessionCall.analysisAt_of_no_tick {call : SessionCall} (h : call.tickedAt = none) (s : SamplingService) :
    call.analysisAt s = none := by
  cases call with
  | sampleTick own i => cases h
  | _ => rfl

theorem SessionCall.tickedAt_of_analysisAt {call : SessionCall} {ns : Nat} (h : call.analysisAt s = some ns) :
    call.tickedAt = some ns := by
  cases call with
  | sampleTick own i =>
    obtain ⟨read, -, hread⟩ := Option.bind_eq_some_iff.mp h
    split at hread
    · exact hread
    · cases hread
  | _ => cases h

theorem SessionCall.onSession_of_no_tick {call : SessionCall} (h : call.tickedAt = none) (s : SamplingService) :
    s.OnSession (call.apply s) := by
  cases call with
  | sampleTick own i => cases h
  | observe requested active own i => exact s.observe_onSession requested active own i
  | status requested active own i => exact s.status_onSession requested active own i
  | pause nowNs baselineMs detectionMs => exact s.pause_onSession nowNs baselineMs detectionMs
  | generationEnded wallMs => exact s.generationEnded_onSession wallMs
  | takeIncidentJobs => exact ⟨rfl, rfl⟩
  | startIncidentGeneration interface own idSource => exact s.startIncidentGeneration_onSession interface own idSource

/-- The grid of a session whose first deadline this is. -/
def analysisGrid (initial : Nat) : Grid := ⟨initial, analysisPeriodNs, analysisPeriodNs_pos⟩

/-- The deadline is the one that the reads so far call for, and they are apart. -/
structure Paced (initial : Nat) (s : SamplingService) (log : List Nat) : Prop where
  deadline : s.nextAnalysisAtNs = some ((analysisGrid initial).due log)
  apart : (analysisGrid initial).Apart log

/-- A tick before its deadline, or at the end of the clock, reads no fingerprints; another one
reads them and catches up. -/
theorem Paced.tick (h : Paced initial s log) :
    Paced initial (s.sampleTick own i) (((SessionCall.sampleTick own i).analysisAt s).toList ++ log) := by
  obtain ⟨hdeadline, hapart⟩ := h
  have hleft := s.sampleTick_deadline own i
  rw [SessionCall.analysisAt]
  cases hc : s.components with
  | none =>
    have hp : s.purpose i.nowNs = none := by simp [SamplingService.purpose, hc]
    rw [hp] at hleft ⊢
    exact ⟨hleft.trans hdeadline, hapart⟩
  | some c =>
    obtain ⟨-, hp⟩ | ⟨-, -, hp⟩ | ⟨next, hd, hnext, hp⟩ := SamplingService.purpose_cases hc hdeadline i.nowNs
    · rw [hp] at hleft ⊢
      exact ⟨hleft.trans hdeadline, hapart⟩
    · rw [hp] at hleft ⊢
      exact ⟨hleft.trans hdeadline, hapart⟩
    · have hcaught := Grid.due_catch_up (g := analysisGrid initial) hd
      have hmoved : next = (analysisGrid initial).due (i.nowNs :: log) :=
        (SamplingService.advancedDeadline_eq_some hdeadline hd hnext).trans hcaught
      rw [hp] at hleft ⊢
      exact ⟨hleft.trans (congrArg some hmoved), hapart.cons hd⟩

theorem Paced.step (h : Paced initial s log) (call : SessionCall) :
    Paced initial (session.step s call) (session.note s call log) := by
  cases htick : call.tickedAt with
  | none =>
    have hnote : session.note s call log = log := by simp [session, SessionCall.analysisAt_of_no_tick htick]
    rw [hnote]
    exact ⟨(SessionCall.onSession_of_no_tick htick s).deadline.trans h.deadline, h.apart⟩
  | some nowNs =>
    cases call <;> cases htick
    exact h.tick

theorem paced_run (h : s.nextAnalysisAtNs = some initial) (calls : List SessionCall) :
    Paced initial (session.run (s, []) calls).1 (session.run (s, []) calls).2 :=
  session.run_invariant (Paced initial) (fun _ _ call h => h.step call) (s, []) calls ⟨h, Grid.apart_nil⟩

/-- **The deadline moves to the first point of its grid after now. In every run it stays on the
grid of the first deadline, and no slot has two `BackgroundAnalysis` reads.** -/
theorem analysis_deadlines_on_grid (h : s.nextAnalysisAtNs = some initial) :
    (∀ nowNs, initial ≤ nowNs → nowNs + analysisPeriodNs < u64Bound → ∃ k > 0,
      s.advanceAnalysisDeadline nowNs = (.ok (), {s with nextAnalysisAtNs := some (initial + k * analysisPeriodNs)}) ∧
      nowNs < initial + k * analysisPeriodNs ∧ initial + k * analysisPeriodNs ≤ nowNs + analysisPeriodNs) ∧
    ∀ calls : List SessionCall,
      (∃ k, (session.run (s, []) calls).1.nextAnalysisAtNs = some (initial + k * analysisPeriodNs)) ∧
      (∀ ns ∈ (session.run (s, []) calls).2, initial ≤ ns) ∧
      ∀ k, (session.run (s, []) calls).2.countP ((analysisGrid initial).Within k) ≤ 1 := by
  refine ⟨fun nowNs hd hroom => ?_, fun calls => ?_⟩
  · have hfloor := Nat.div_mul_le_self (nowNs - initial) analysisPeriodNs
    have hceil := Nat.lt_div_mul_add (a := nowNs - initial) analysisPeriodNs_pos
    have hmoved := SamplingService.advancedDeadline_of_room h hd hroom
    refine ⟨_, Nat.succ_pos _, SamplingService.advanceAnalysisDeadline_of_some hmoved, ?_⟩
    rw [Nat.succ_mul]
    omega
  · obtain ⟨hdeadline, hapart⟩ := paced_run h calls
    obtain ⟨k, hk⟩ := (analysisGrid initial).due_eq_point (session.run (s, []) calls).2
    exact ⟨⟨k, hdeadline.trans (congrArg some hk)⟩, hapart.begun, hapart.once⟩

/-- Ticks of the quiet interface at the deadline, just before the next one, exactly one period
after that one, in the same slot again and after a stall, with other calls between them. -/
def quietCalls : List SessionCall :=
  [.sampleTick quietOwner (quietTick 10000000000 11000), .pause 12000000000 (some 13000) (some 13000),
    .sampleTick quietOwner (quietTick 19999999999 20999), .sampleTick quietOwner (quietTick 30000000000 31000),
    .takeIncidentJobs, .sampleTick quietOwner (quietTick 39000000000 40000),
    .sampleTick quietOwner (quietTick 75000000000 76000)]

theorem analysis_deadlines_on_grid_quiet :
    quietStart.nextAnalysisAtNs = some 10000000000 ∧
      (session.run (quietStart, []) quietCalls).2 = [75000000000, 30000000000, 10000000000] ∧
      (∃ k > 0, quietStart.advanceAnalysisDeadline 30000000000 =
          (.ok (), {quietStart with nextAnalysisAtNs := some (10000000000 + k * analysisPeriodNs)}) ∧
        30000000000 < 10000000000 + k * analysisPeriodNs ∧
        10000000000 + k * analysisPeriodNs ≤ 30000000000 + analysisPeriodNs) ∧
      (∃ k, (session.run (quietStart, []) quietCalls).1.nextAnalysisAtNs = some (10000000000 + k * analysisPeriodNs)) ∧
      ∀ k, (session.run (quietStart, []) quietCalls).2.countP ((analysisGrid 10000000000).Within k) ≤ 1 := by
  have hquiet : quietStart.nextAnalysisAtNs = some 10000000000 := by decide +kernel
  obtain ⟨hmove, hruns⟩ := analysis_deadlines_on_grid hquiet
  obtain ⟨hdeadline, -, honce⟩ := hruns quietCalls
  exact ⟨hquiet, by decide +kernel, hmove 30000000000 (by decide) (by decide), hdeadline, honce⟩

/-! ### No slot is left out -/

/-- What a successful `start` leaves. -/
theorem SamplingService.start_ok {before : SamplingService} {wallMs : Option Nat} {startNs : Nat}
    (h : before.start own wallMs startNs = (.ok (), s)) :
    s.components.isSome = true ∧ s.nextAnalysisAtNs = some (startNs + analysisPeriodNs) := by
  unfold start at h
  generalize hsum : checkedAdd startNs analysisPeriodNs = sum at h
  cases hid : newIdentity own.ifindex own.generation with
  | error error =>
    rw [hid] at h
    cases h
  | ok identity =>
    rw [hid] at h
    cases wallMs with
    | none => cases h
    | some startedAtUnixMs =>
      cases sum with
      | none => cases h
      | some deadline =>
        cases h
        exact ⟨rfl, congrArg some (checkedAdd_eq_some hsum)⟩

theorem SessionCall.apply_components (call : SessionCall) (s : SamplingService) :
    (call.apply s).components.isSome = s.components.isSome := by
  cases call with
  | sampleTick own i => exact s.sampleTick_components own i
  | _ => exact (SessionCall.onSession_of_no_tick rfl s).session

theorem session_run_components (s : SamplingService) (calls : List SessionCall) :
    (session.run (s, []) calls).1.components.isSome = s.components.isSome :=
  session.run_invariant (fun after _ => after.components.isSome = s.components.isSome)
    (fun before _ call h => (call.apply_components before).trans h) (s, []) calls rfl

/-- As long as the clock has a period left, a tick leaves a deadline ahead of it. -/
theorem Paced.tick_ahead (h : Paced initial s log) {c : Components} (hc : s.components = some c)
    (hroom : i.nowNs + analysisPeriodNs < u64Bound) :
    i.nowNs < (analysisGrid initial).due (((SessionCall.sampleTick own i).analysisAt s).toList ++ log) := by
  rw [SessionCall.analysisAt]
  obtain ⟨hlt, hp⟩ | ⟨hd, hnone, -⟩ | ⟨next, hd, -, hp⟩ := SamplingService.purpose_cases hc h.deadline i.nowNs
  · rw [hp]
    exact hlt
  · rw [SamplingService.advancedDeadline_of_room h.deadline hd hroom] at hnone
    cases hnone
  · rw [hp]
    exact (Grid.within_slot (Grid.origin_le_due.trans hd)).2

/-- A read is made by a tick, at its time. -/
theorem reads_ticked (c : SamplingService × List Nat) (calls : List SessionCall) :
    ∀ ns ∈ (session.run c calls).2, ns ∈ c.2 ∨ ns ∈ calls.filterMap SessionCall.tickedAt := by
  induction calls generalizing c with
  | nil =>
    intro ns hns
    exact .inl hns
  | cons call rest ih =>
    intro ns hns
    rcases ih _ ns hns with hnoted | hlater
    · rcases List.mem_append.mp hnoted with hread | hlog
      · refine .inr (List.mem_filterMap.mpr ⟨call, List.mem_cons_self, ?_⟩)
        exact SessionCall.tickedAt_of_analysisAt (Option.mem_toList.mp hread)
      · exact .inl hlog
    · obtain ⟨later, hmem, htick⟩ := List.mem_filterMap.mp hlater
      exact .inr (List.mem_filterMap.mpr ⟨later, List.mem_cons_of_mem _ hmem, htick⟩)

/-- **A tick that no earlier tick of the session is ahead of leaves its slot with one read.** -/
theorem analysis_in_slot {before : SamplingService} {wallMs : Option Nat} {startNs : Nat}
    (hs : before.start own wallMs startNs = (.ok (), s)) (calls : List SessionCall)
    (hpast : ∀ ns ∈ calls.filterMap SessionCall.tickedAt, ns ≤ i.nowNs) (hbegun : startNs + analysisPeriodNs ≤ i.nowNs)
    (hroom : i.nowNs + analysisPeriodNs < u64Bound) :
    (session.run (s, []) (calls ++ [.sampleTick own i])).2.countP
      ((analysisGrid (startNs + analysisPeriodNs)).Within ((analysisGrid (startNs + analysisPeriodNs)).slot i.nowNs)) = 1 := by
  obtain ⟨hcomponents, hdeadline⟩ := SamplingService.start_ok hs
  generalize startNs + analysisPeriodNs = initial at hdeadline hbegun ⊢
  have hpaced := paced_run hdeadline calls
  have hlog := reads_ticked (s, []) calls
  rw [← session_run_components s calls] at hcomponents
  obtain ⟨c, hc⟩ := Option.isSome_iff_exists.mp hcomponents
  rw [session.run_snoc]
  generalize session.run (s, []) calls = reached at hpaced hlog hc ⊢
  refine hpaced.tick.apart.once_within hbegun (fun past hmem => ?_) (hpaced.tick_ahead hc hroom)
  rcases List.mem_append.mp hmem with hread | hpassed
  · exact (Option.some.inj (SessionCall.tickedAt_of_analysisAt (Option.mem_toList.mp hread))).ge
  · rcases hlog past hpassed with hnone | hticked
    · cases hnone
    · exact hpast past hticked

end NetworkLoop.Observation
