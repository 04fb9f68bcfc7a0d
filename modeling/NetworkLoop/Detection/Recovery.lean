import Mathlib
import NetworkLoop.Detection.Runs

/-! The two ways back to `Normal`: through `Cooldown`, and out of `Unavailable`.

The cooldown is one timestamp, set when `Cooldown` is entered. `cooldown_undisturbed`
says what a completed cooldown proves about the thirty seconds before it as long as
nothing disturbs a cooldown; a disturbance leaves the timestamp alone, so it counts
toward the cooldown all the same. `normal_on_ready_iff` says exactly which ticks
publish `Normal` without ready evidence. -/
namespace NetworkLoop.Detection
open Library DetectionEngine

/-! ### Timed runs -/

/-- A call, less the times it is given. -/
inductive Request where
  | evaluate (signals : DetectionSignals)
  | unavailable (code : String)
  | pause
  | clear (identity : RateIdentity) (code : String)
  deriving DecidableEq

/-- A call with the monotonic and the wall-clock time at which it is made. -/
structure Stamped where
  atNs : Nat
  atMs : Nat
  request : Request
  deriving DecidableEq

def Stamped.call (c : Stamped) : Call :=
  match c.request with
  | .evaluate s => .evaluate c.atNs c.atMs s
  | .unavailable code => .unavailable c.atMs code
  | .pause => .pause c.atMs
  | .clear identity code => .clear identity c.atNs c.atMs code

/-- The request interrupts a cooldown: the evidence is gone, or the storm is back. -/
def Request.disturbs : Request → Bool
  | .evaluate s => s.candidate != .none
  | .unavailable _ => true
  | .pause => true
  | .clear .. => false

structure Event where
  atNs : Nat
  request : Request
  after : DetectionState

/-- The observer of this recorder notes every call, failed ones included. -/
def eventRecorder : Recorder DetectionEngine Stamped Event where
  step := fun e c => (c.call.reply e).2
  note := fun e c log => ⟨c.atNs, c.request, (c.call.reply e).2.effectiveState⟩ :: log

def timedHistory (identity : RateIdentity) (startNs startMs : Nat) (calls : List Stamped) :
    DetectionEngine × List Event :=
  eventRecorder.run (.new identity startNs startMs, []) calls

/-- The log keeps the times of the calls, newest first. -/
theorem timedHistory_times (identity : RateIdentity) (startNs startMs : Nat) (calls : List Stamped) :
    (timedHistory identity startNs startMs calls).2.map Event.atNs = (calls.map Stamped.atNs).reverse := by
  induction calls using List.reverseRecOn with
  | nil => rfl
  | append_singleton calls c ih =>
    unfold timedHistory at ih ⊢
    rw [Recorder.run_snoc]
    simp only [eventRecorder, List.map_cons, List.map_append, List.map_nil, List.reverse_append,
      List.reverse_cons, List.reverse_nil, List.nil_append, List.cons_append]
    exact congrArg _ ih

/-! ### The cooldown -/

def cooldownNs : Nat := detectionCooldownMs * 1000000

/-- Over the `cooldownNs` up to `nowNs` the engine was in `Cooldown`, at their start
and after every call since, and no call disturbed it. -/
def UndisturbedCooldown (log : List Event) (nowNs : Nat) (s : DetectionSignals) : Prop :=
  s.candidate = .none ∧
    (log.find? fun x => x.atNs + cooldownNs ≤ nowNs).map Event.after = some .cooldown ∧
    ∀ x ∈ log, nowNs < x.atNs + cooldownNs → x.request.disturbs = false ∧ x.after = .cooldown

instance (log : List Event) (nowNs : Nat) (s : DetectionSignals) : Decidable (UndisturbedCooldown log nowNs s) :=
  inferInstanceAs (Decidable (_ ∧ _ ∧ _))

/-- No call made in `Cooldown` disturbs it. -/
def Undisturbed (e : DetectionEngine) (c : Stamped) : Prop :=
  e.effectiveState = .cooldown → c.request.disturbs = false

instance (e : DetectionEngine) (c : Stamped) : Decidable (Undisturbed e c) :=
  inferInstanceAs (Decidable (_ → _))

/-- A calm event in `Cooldown`. -/
def Calm (x : Event) : Prop := x.request.disturbs = false ∧ x.after = .cooldown

/-- The start of a cooldown is the time of the event that entered it, and every event since is calm. -/
def CooldownLogged (m : Memory) (log : List Event) : Prop :=
  m.effectiveState = .cooldown → ∀ started, m.cooldownStarted = some started →
    ∃ later entry earlier, log = later ++ entry :: earlier ∧ entry.atNs = started ∧
      entry.after = .cooldown ∧ ∀ x ∈ later, Calm x

/-- A call that leaves the memory alone prolongs the calm. -/
theorem cooldownLogged_cons {m : Memory} {log : List Event} {x : Event} (h : CooldownLogged m log)
    (hafter : x.after = m.effectiveState) (hcalm : m.effectiveState = .cooldown → x.request.disturbs = false) :
    CooldownLogged m (x :: log) := by
  intro hcool started hstarted
  obtain ⟨later, entry, earlier, rfl, hat, hentry, hlater⟩ := h hcool started hstarted
  refine ⟨x :: later, entry, earlier, rfl, hat, hentry, ?_⟩
  simp only [List.mem_cons, forall_eq_or_imp]
  exact ⟨⟨hcalm hcool, hafter.trans hcool⟩, hlater⟩

/-- One decision: a cooldown that is in force afterwards was entered now, or was in force before. -/
theorem cooldownLogged_move {e counted : DetectionEngine} {log : List Event} {x : Event} {s : DetectionSignals}
    {d : Decision} {after : DetectionState} (h : CooldownLogged e.memory log)
    (hcalm : e.effectiveState = .cooldown → x.request.disturbs = false) (hx : x.after = after)
    (hstart : counted.cooldownStartedAtMonotonicNs = e.cooldownStartedAtMonotonicNs)
    (hmove : Move counted e.effectiveState x.atNs s d)
    (hafter : after = d.nextState ∨ after = e.effectiveState ∧ d.nextState ≠ e.effectiveState) :
    CooldownLogged (d.memory counted after) (x :: log) := by
  intro (hcool : after = .cooldown) started (hstarted : d.cooldownStarted = some started)
  have hsame : after = e.effectiveState → d.cooldownStarted = counted.cooldownStartedAtMonotonicNs →
      ∃ later entry earlier, x :: log = later ++ entry :: earlier ∧ entry.atNs = started ∧
        entry.after = .cooldown ∧ ∀ x ∈ later, Calm x := by
    intro hstay hd
    have hlogged := cooldownLogged_cons h (hx.trans hstay) hcalm
    exact hlogged (hstay.symm.trans hcool) started (hstart.symm.trans (hd.symm.trans hstarted))
  cases hmove with
  | supported | faded | waited => exact hsame (by rcases hafter with h | h; exacts [h, h.1]) rfl
  | blipped _ hcur | cooling _ hcur =>
    exact hsame (by rcases hafter with h | h; exacts [h.trans hcur.symm, h.1]) rfl
  | raised _ hcur hd | replaced _ hcur hd =>
    rcases hafter with rfl | ⟨rfl, -⟩
    · exact absurd hcool (desiredAnomaly_ne_cooldown hd)
    · rw [hcool] at hcur
      cases hcur
  | cleared hcur =>
    rcases hafter with rfl | ⟨rfl, -⟩
    · refine ⟨[], x, log, rfl, ?_, hx, by simp⟩
      exact Option.some.inj hstarted
    · rw [hcool] at hcur
      cases hcur
  | reasserted | completed => cases hstarted
  | asserted _ _ hcur hd =>
    rcases hafter with rfl | ⟨rfl, -⟩
    · exact absurd hcool (desiredAnomaly_ne_cooldown hd)
    · exact absurd hcool hcur
  | readied hcur =>
    rcases hafter with rfl | ⟨rfl, -⟩
    · cases hcool
    · rw [hcool] at hcur
      cases hcur

theorem cooldownLogged_evaluate {e : DetectionEngine} {log : List Event} {atNs atMs : Nat}
    {s : DetectionSignals} (h : CooldownLogged e.memory log)
    (hrule : e.effectiveState = .cooldown → (Request.evaluate s).disturbs = false) :
    CooldownLogged (e.evaluate atNs atMs s).2.memory
      (⟨atNs, .evaluate s, (e.evaluate atNs atMs s).2.effectiveState⟩ :: log) := by
  obtain ⟨hrep, hres, -, hstart⟩ := updateCandidateStreak_frame e s.candidate
  cases ht : e.trusts atNs atMs s with
  | false =>
    rw [(evaluate_untrusted ht).1]
    exact cooldownLogged_cons h rfl hrule
  | true =>
    cases evaluate_outcome ht with
    | stuck err _ hreply =>
      rw [hreply]
      have heff : (e.updateCandidateStreak s.candidate).effectiveState = e.effectiveState := by
        rw [effectiveState, effectiveState, hrep, hres]
      intro hcool started hstarted
      have hlogged := cooldownLogged_cons (x := ⟨atNs, .evaluate s, _⟩) h heff hrule
      exact hlogged (heff.symm.trans hcool) started (hstart.symm.trans hstarted)
    | published d hd hmem _ _ =>
      rw [hmem]
      exact cooldownLogged_move h hrule (congrArg Memory.effectiveState hmem) hstart (move_of_decision hd)
        (.inl rfl)
    | exhausted d hd hchange _ hmem =>
      rw [hmem]
      exact cooldownLogged_move h hrule (congrArg Memory.effectiveState hmem) hstart (move_of_decision hd)
        (exhausted_after hchange)

/-- What one call preserves, as long as it does not disturb a cooldown. -/
theorem cooldownLogged_step (e : DetectionEngine) (log : List Event) (c : Stamped) (hrule : Undisturbed e c)
    (h : CooldownLogged e.memory log) :
    CooldownLogged (eventRecorder.step e c).memory (eventRecorder.note e c log) := by
  obtain ⟨atNs, atMs, request⟩ := c
  simp only [eventRecorder, Stamped.call]
  cases request with
  | evaluate s => exact cooldownLogged_evaluate h hrule
  | unavailable code =>
    have hmem := publishUnavailable_memory e atMs code .evidenceUnavailable
    simp only [Call.reply, unavailable]
    rw [hmem]
    exact cooldownLogged_cons h (congrArg Memory.effectiveState hmem) hrule
  | pause =>
    have hmem := publishUnavailable_memory e atMs "SAMPLER_PAUSED" .samplerPaused
    simp only [Call.reply, pause]
    rw [hmem]
    exact cooldownLogged_cons h (congrArg Memory.effectiveState hmem) hrule
  | clear identity code =>
    simp only [Call.reply]
    cases hcode : validateErrorCode code with
    | ok _ =>
      obtain ⟨effective, hmem⟩ := clear_memory e identity atNs atMs code hcode
      rw [hmem]
      intro _ started hstarted
      cases hstarted
    | error err =>
      rw [clear_refused hcode]
      exact cooldownLogged_cons h rfl (fun _ => rfl)

/-- Only a completed cooldown takes `Cooldown` to `Normal`. -/
theorem completed_of_normal {e : DetectionEngine} {nowNs nowMs : Nat} {s : DetectionSignals}
    (hbefore : e.effectiveState = .cooldown) (hafter : (e.evaluate nowNs nowMs s).2.effectiveState = .normal) :
    ∃ started, e.cooldownStartedAtMonotonicNs = some started ∧ s.candidate = .none ∧
      started + cooldownNs ≤ nowNs := by
  obtain ⟨hrep, hres, -, hstart⟩ := updateCandidateStreak_frame e s.candidate
  have hmoved : ∀ d, (e.updateCandidateStreak s.candidate).decision e.effectiveState nowNs s = .ok d →
      d.nextState = .normal → ∃ started, e.cooldownStartedAtMonotonicNs = some started ∧
        s.candidate = .none ∧ started + cooldownNs ≤ nowNs := by
    intro d hd hnext
    cases move_of_decision hd with
    | completed started _ hs hstarted helapsed =>
      exact ⟨started, hstart.symm.trans hstarted, (desiredAnomaly_eq_none_iff s).mp hs, helapsed⟩
    | supported hcur | raised _ hcur | faded hcur | replaced _ hcur | cleared hcur =>
      rw [hbefore] at hcur
      cases hcur
    | reasserted a _ ha =>
      cases hnext
      cases desiredAnomaly_anomalous ha
    | blipped | cooling => cases hnext
    | asserted _ _ hcur | waited _ hcur => exact absurd hbefore hcur
    | readied hcur =>
      rw [hbefore] at hcur
      cases hcur
  cases ht : e.trusts nowNs nowMs s with
  | false =>
    rw [(evaluate_untrusted ht).1, hbefore] at hafter
    cases hafter
  | true =>
    cases evaluate_outcome ht with
    | stuck err _ hreply =>
      rw [hreply, effectiveState, hrep, hres, ← effectiveState, hbefore] at hafter
      cases hafter
    | published d hd hmem _ _ =>
      exact hmoved d hd ((congrArg Memory.effectiveState hmem).symm.trans hafter)
    | exhausted d hd hchange _ hmem =>
      have hnext := (congrArg Memory.effectiveState hmem).symm.trans hafter
      rcases exhausted_after hchange with h | ⟨h, -⟩
      · exact hmoved d hd (h.symm.trans hnext)
      · rw [h.symm.trans hnext] at hbefore
        cases hbefore

/-- The start of a cooldown is old enough: what came before it is out of the window. -/
theorem undisturbed_of_logged {log : List Event} {nowNs started : Nat} {s : DetectionSignals}
    {later earlier : List Event} {entry : Event} (hlog : log = later ++ entry :: earlier)
    (hsorted : (log.map Event.atNs).Pairwise (· ≥ ·)) (hat : entry.atNs = started)
    (hentry : entry.after = .cooldown) (hlater : ∀ x ∈ later, Calm x) (hs : s.candidate = .none)
    (helapsed : started + cooldownNs ≤ nowNs) : UndisturbedCooldown log nowNs s := by
  subst hlog
  have hout : ∀ x ∈ entry :: earlier, x.atNs + cooldownNs ≤ nowNs := by
    rw [List.map_append, List.pairwise_append, List.map_cons, List.pairwise_cons] at hsorted
    intro x hx
    have hle : x.atNs ≤ started := by
      rw [← hat]
      rcases List.mem_cons.mp hx with rfl | hx
      · exact Nat.le_refl _
      · exact hsorted.2.1.1 _ (List.mem_map_of_mem hx)
    exact Nat.le_trans (Nat.add_le_add_right hle _) helapsed
  refine ⟨hs, ?_, ?_⟩
  · rw [List.find?_append]
    cases hfind : later.find? (fun x => decide (x.atNs + cooldownNs ≤ nowNs)) with
    | some x => simp [(hlater x (List.mem_of_find?_eq_some hfind)).2]
    | none => simp [hout entry (List.mem_cons_self ..), hentry]
  · intro x hx hin
    rcases List.mem_append.mp hx with hx | hx
    · exact hlater x hx
    · exact absurd (hout x hx) (Nat.not_le.mpr hin)

/-- **A completed cooldown.** In every run whose calls leave a cooldown undisturbed, a
call that takes `Cooldown` to `Normal` ends thirty seconds of clear evidence. -/
theorem cooldown_undisturbed (identity : RateIdentity) (startNs startMs : Nat) (calls : List Stamped)
    (hclock : (calls.map Stamped.atNs).Pairwise (· ≤ ·))
    (hrule : eventRecorder.Obeys Undisturbed (.new identity startNs startMs) calls)
    (nowNs nowMs : Nat) (s : DetectionSignals)
    (hbefore : (timedHistory identity startNs startMs calls).1.effectiveState = .cooldown)
    (hafter : ((timedHistory identity startNs startMs calls).1.evaluate nowNs nowMs s).2.effectiveState = .normal) :
    UndisturbedCooldown (timedHistory identity startNs startMs calls).2 nowNs s := by
  have hlogged : CooldownLogged (timedHistory identity startNs startMs calls).1.memory
      (timedHistory identity startNs startMs calls).2 := by
    refine eventRecorder.run_invariant_under (fun e log => CooldownLogged e.memory log)
      (fun e log c hr h => cooldownLogged_step e log c hr h) (.new identity startNs startMs, []) calls hrule ?_
    intro hcool
    cases hcool
  have hsorted : ((timedHistory identity startNs startMs calls).2.map Event.atNs).Pairwise (· ≥ ·) := by
    rw [timedHistory_times, List.pairwise_reverse]
    exact hclock
  generalize timedHistory identity startNs startMs calls = h at hbefore hafter hlogged hsorted ⊢
  obtain ⟨e, log⟩ := h
  obtain ⟨started, hstarted, hs, helapsed⟩ := completed_of_normal hbefore hafter
  obtain ⟨later, entry, earlier, hlog, hat, hentry, hlater⟩ := hlogged hbefore started hstarted
  exact undisturbed_of_logged hlog hsorted hat hentry hlater hs helapsed

/-- An ingress storm that clears in second fourteen, and this request in second twenty. -/
def coolingWith (request : Request) : List Stamped :=
  ((List.range 13).map fun i =>
    ⟨(2 + i) * 1000000000, (2 + i) * 1000,
      .evaluate (sampleSignals (if i < 3 then .ingress else .none) true)⟩) ++ [⟨20000000000, 20000, request⟩]

theorem cooldown_undisturbed_calm :
    UndisturbedCooldown
      (timedHistory sampleIdentity 1000000000 1000 (coolingWith (.evaluate (sampleSignals .none true)))).2
      44000000000 (sampleSignals .none true) :=
  cooldown_undisturbed sampleIdentity 1000000000 1000 _ (by decide) (by decide) 44000000000 44000 _
    (by decide) (by decide)

/-- The cooldown that the request came into completes thirty seconds after its start. -/
def CompletesDespite (request : Request) : Prop :=
  let h := timedHistory sampleIdentity 1000000000 1000 (coolingWith request)
  h.1.effectiveState = .cooldown ∧
    (h.1.evaluate 44000000000 44000 (sampleSignals .none true)).1.isOk = true ∧
    (h.1.evaluate 44000000000 44000 (sampleSignals .none true)).2.effectiveState = .normal ∧
    ¬UndisturbedCooldown h.2 44000000000 (sampleSignals .none true)

instance (request : Request) : Decidable (CompletesDespite request) := inferInstanceAs (Decidable (_ ∧ _))

/-- A cooldown completes with the engine `Unavailable` or the storm back for a tick in between. -/
theorem disturbed_cooldown_completes :
    CompletesDespite (.unavailable "READ_FAILED") ∧ CompletesDespite .pause ∧
      CompletesDespite (.evaluate (sampleSignals .ingress true)) := by
  decide

/-! ### Normal on ready evidence -/

/-- A tick that publishes `Normal` anew brought ready evidence and no candidate. -/
def NormalSound (published : DetectionState) (s : DetectionSignals) (r : DetectionReport) : Prop :=
  r.state = .normal → published ≠ .normal → evidenceReady s = true ∧ s.candidate = .none

instance (published : DetectionState) (s : DetectionSignals) (r : DetectionReport) :
    Decidable (NormalSound published s r) :=
  inferInstanceAs (Decidable (_ → _ → _))

/-- A cooldown that is over by now. -/
def CooldownOver (e : DetectionEngine) (nowNs : Nat) : Prop :=
  e.effectiveState = .cooldown ∧
    ∃ started, e.cooldownStartedAtMonotonicNs = some started ∧ started + cooldownNs ≤ nowNs

/-- The tick finds a way to `Normal` that does not ask for ready evidence: a clear tick
after the cooldown, or any tick that does not assert a storm while `Unavailable` is
published over `Normal`. -/
def NormalUnasked (e : DetectionEngine) (nowNs : Nat) (s : DetectionSignals) : Prop :=
  (CooldownOver e nowNs ∧ s.candidate = .none) ∨
    (e.report.state = .unavailable ∧ e.resumeState = .normal ∧
      ¬(s.candidate ≠ .none ∧ s.candidate = e.lastCandidate ∧ 2 ≤ e.candidateStreak))

section
variable {e : DetectionEngine} {nowNs nowMs : Nat} {s : DetectionSignals}

theorem normalUnasked_state (h : NormalUnasked e nowNs s) : e.effectiveState = .cooldown ∨ e.effectiveState = .normal := by
  rcases h with ⟨⟨hcool, -⟩, -⟩ | ⟨hpub, hres, -⟩
  · exact .inl hcool
  · exact .inr (by rw [effectiveState, if_pos hpub, hres])

theorem normalUnasked_published (h : NormalUnasked e nowNs s) : e.report.state ≠ .normal := by
  intro hpub
  have heff : e.effectiveState = .normal := by rw [effectiveState, hpub]; simp
  rcases h with ⟨⟨hcool, -⟩, -⟩ | ⟨hun, -⟩
  · rw [heff] at hcool
    cases hcool
  · rw [hpub] at hun
    cases hun

/-- In no other state than these does a tick lead to `Normal` unasked. -/
theorem not_normalUnasked (hcool : e.effectiveState ≠ .cooldown) (hnormal : e.effectiveState ≠ .normal) :
    ¬NormalUnasked e nowNs s :=
  fun h => (normalUnasked_state h).elim hcool hnormal

/-- `Normal` anew is decided in one of the two unasked ways, or on ready evidence. -/
theorem normal_decision {d : Decision} (hpub : e.report.state ≠ .normal)
    (hd : (e.updateCandidateStreak s.candidate).decision e.effectiveState nowNs s = .ok d) :
    (NormalUnasked e nowNs s → d.nextState = .normal) ∧
      (d.nextState = .normal → NormalUnasked e nowNs s ∨ evidenceReady s = true ∧ s.candidate = .none) := by
  obtain ⟨-, -, -, hstart⟩ := updateCandidateStreak_frame e s.candidate
  have hanom : ∀ a, desiredAnomaly s = some a → a ≠ .normal := by
    rintro a ha rfl
    cases desiredAnomaly_anomalous ha
  cases move_of_decision hd with
  | supported hcur | raised _ hcur | faded hcur | replaced _ hcur | cleared hcur =>
    have hno : ¬NormalUnasked e nowNs s :=
      not_normalUnasked (fun h => by rw [h] at hcur; cases hcur) (fun h => by rw [h] at hcur; cases hcur)
    refine ⟨fun h => absurd h hno, fun h => ?_⟩
    first
    | exact absurd h (hanom _ ‹_›)
    | exact absurd hcur (by rw [show e.effectiveState = .normal from h]; decide)
    | cases h
  | reasserted a hcur ha | blipped a hcur ha =>
    have hno : ¬NormalUnasked e nowNs s := by
      rintro (⟨-, hs⟩ | ⟨hun, hres, -⟩)
      · rw [(desiredAnomaly_eq_none_iff s).mpr hs] at ha
        cases ha
      · rw [effectiveState, if_pos hun, hres] at hcur
        cases hcur
    refine ⟨fun h => absurd h hno, fun h => ?_⟩
    first
    | exact absurd h (hanom _ ha)
    | cases h
  | cooling started hcur ha hstarted hearly =>
    refine ⟨?_, fun h => by cases h⟩
    rintro (⟨⟨-, started', hstarted', hover⟩, -⟩ | ⟨hun, hres, -⟩)
    · rw [hstart, hstarted'] at hstarted
      cases hstarted
      exact absurd hearly (Nat.not_lt.mpr hover)
    · rw [effectiveState, if_pos hun, hres] at hcur
      cases hcur
  | completed started hcur ha hstarted hover =>
    refine ⟨fun _ => rfl, fun _ => .inl (.inl ⟨⟨hcur, started, hstart.symm.trans hstarted, hover⟩, ?_⟩)⟩
    exact (desiredAnomaly_eq_none_iff s).mp ha
  | asserted a hcur hcool ha hthree =>
    have hc : s.candidate ≠ .none := fun h => by
      rw [(desiredAnomaly_eq_none_iff s).mpr h] at ha
      cases ha
    refine ⟨?_, fun h => absurd h (hanom _ ha)⟩
    rintro (⟨⟨h, -⟩, -⟩ | ⟨-, -, hno⟩)
    · exact absurd h hcool
    · exact absurd ⟨hc, (updated_asserts_iff e hc).mp hthree⟩ hno
  | readied _ hs hready => exact ⟨fun _ => rfl, fun _ => .inr ⟨hready, hs⟩⟩
  | waited hcur hcool hquiet _ =>
    refine ⟨fun h => (normalUnasked_state h).resolve_left hcool, fun (h : e.effectiveState = .normal) => ?_⟩
    have hun : e.report.state = .unavailable := by
      by_contra hne
      rw [effectiveState, if_neg hne] at h
      exact hpub h
    refine .inl (.inr ⟨hun, by rw [effectiveState, if_pos hun] at h; exact h, ?_⟩)
    rintro ⟨hc, hstreak⟩
    rcases hquiet with hnone | hshort
    · exact hc ((desiredAnomaly_eq_none_iff s).mp hnone)
    · exact absurd ((updated_asserts_iff e hc).mpr hstreak) (Nat.not_le.mpr hshort)

end

/-- **When `Normal` is published on ready evidence.** In every run, a successful
`evaluate` that publishes `Normal` anew had ready and clear evidence, unless it ended a
cooldown or recovered from `Unavailable` without it. -/
theorem normal_on_ready_iff (identity : RateIdentity) (startNs startMs : Nat) (calls : List Call)
    (nowNs nowMs : Nat) (s : DetectionSignals) (r : DetectionReport)
    (hok : ((history identity startNs startMs calls).1.evaluate nowNs nowMs s).1 = .ok r) :
    NormalSound (history identity startNs startMs calls).1.report.state s r ↔
      (NormalUnasked (history identity startNs startMs calls).1 nowNs s →
        evidenceReady s = true ∧ s.candidate = .none) := by
  generalize (history identity startNs startMs calls).1 = e at hok ⊢
  obtain ⟨-, d, hd, -, hstate⟩ := evaluate_ok hok
  unfold NormalSound
  rw [hstate]
  constructor
  · intro h hun
    have hpub := normalUnasked_published hun
    exact h ((normal_decision hpub hd).1 hun) hpub
  · intro h hnormal hpub
    rcases (normal_decision hpub hd).2 hnormal with hun | hready
    · exact h hun
    · exact hready

/-- The first ready tick of a warm engine publishes `Normal` with reason. -/
theorem normal_on_ready_first_tick :
    ∃ r, ((sampleHistory []).1.evaluate 2000000000 2000 (sampleSignals .none true)).1 = .ok r ∧
      r.state = .normal ∧ NormalSound (sampleHistory []).1.report.state (sampleSignals .none true) r :=
  ⟨_, rfl, rfl, (normal_on_ready_iff sampleIdentity 1000000000 1000 [] 2000000000 2000
    (sampleSignals .none true) _ rfl).mpr (fun _ => ⟨rfl, rfl⟩)⟩

/-- A storm that the absolute path asserts during warm-up and that clears again: no
tick of the run has ready evidence. -/
def unreadyStorm : List Call :=
  everySecond 2 (List.replicate 3 (sampleSignals .ingress false) ++ List.replicate 10 (sampleSignals .none false))

/-- A normal engine whose evidence fails in second three. -/
def recoveringNormal : List Call :=
  everySecond 2 [sampleSignals .none true] ++ [.unavailable 3000 "READ_FAILED"]

/-- `Normal` without ready evidence: at the end of a cooldown that never saw any, and
on recovery from `Unavailable` with a storm candidate. -/
theorem normal_without_ready_evidence :
    (∃ r, ((sampleHistory unreadyStorm).1.evaluate 44000000000 44000 (sampleSignals .none false)).1 = .ok r ∧
      ¬NormalSound (sampleHistory unreadyStorm).1.report.state (sampleSignals .none false) r) ∧
    (∃ r, ((sampleHistory recoveringNormal).1.evaluate 4000000000 4000 (sampleSignals .ingress true)).1 = .ok r ∧
      ¬NormalSound (sampleHistory recoveringNormal).1.report.state (sampleSignals .ingress true) r) :=
  ⟨⟨_, rfl, by decide⟩, ⟨_, rfl, by decide⟩⟩

end NetworkLoop.Detection
