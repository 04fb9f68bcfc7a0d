import NetworkLoop.Detection.Runs
import NetworkLoop.Observation.Interleaving

/-! The broadcast and multicast rates of the windows of an interleaved run.

Rates are rounded down one by one, so the four class rates can add up to less than the
rate of their sum and never to more: what decides is whether the deltas add up
(`bumRates_ok`). On a run that counts its packets whole they do, and then nothing that
`derive` asks of the rates can fail (`interleaved_windows_accepted`). A single packet
between the read of the total and the read of its class is enough to break it
(`interleaved_packet_refused`). -/
namespace NetworkLoop.Observation
open Library Detection RateHistory

/-! ### Sums of rounded rates -/

theorem rate_add_le (a b elapsed : Nat) :
    a * rateSamplePeriodNs / elapsed + b * rateSamplePeriodNs / elapsed ≤
      (a + b) * rateSamplePeriodNs / elapsed := by
  rw [Nat.add_mul]
  exact Nat.div_add_div_le_add_div

theorem rate_mono {a b : Nat} (h : a ≤ b) (elapsed : Nat) :
    a * rateSamplePeriodNs / elapsed ≤ b * rateSamplePeriodNs / elapsed :=
  Nat.div_le_div_right (Nat.mul_le_mul_right _ h)

theorem rate_lt {delta elapsed : Nat} (hd : delta < u64Bound) (he : rateSamplePeriodNs ≤ elapsed) :
    delta * rateSamplePeriodNs / elapsed < u64Bound := by
  have h := calculateRate_ok hd he
  unfold calculateRate at h
  split at h
  · cases h
  · split at h
    · assumption
    · cases h

/-- Four rates whose deltas fit into a total fit into its rate. -/
theorem rates_le {a b c d total : Nat} (elapsed : Nat) (h : a + b + c + d ≤ total) :
    a * rateSamplePeriodNs / elapsed + b * rateSamplePeriodNs / elapsed + c * rateSamplePeriodNs / elapsed +
      d * rateSamplePeriodNs / elapsed ≤ total * rateSamplePeriodNs / elapsed := by
  have hab := rate_add_le a b elapsed
  have habc := rate_add_le (a + b) c elapsed
  have habcd := rate_add_le (a + b + c) d elapsed
  have htotal := rate_mono h elapsed
  omega

/-- The loop of `bum_rates` adds up, as long as the sums fit. -/
theorem foldlM_addClassRate (l : List ClassRate) (sum : Nat × Nat)
    (hp : sum.1 + (l.map (·.counters.packetsPerSecond)).sum < u64Bound)
    (hb : sum.2 + (l.map (·.counters.bytesPerSecond)).sum < u64Bound) :
    l.foldlM addClassRate sum = .ok (sum.1 + (l.map (·.counters.packetsPerSecond)).sum,
      sum.2 + (l.map (·.counters.bytesPerSecond)).sum) := by
  induction l generalizing sum with
  | nil => rfl
  | cons r rest ih =>
    simp only [List.map_cons, List.sum_cons] at hp hb ⊢
    have hhead : addClassRate sum r =
        .ok (sum.1 + r.counters.packetsPerSecond, sum.2 + r.counters.bytesPerSecond) := by
      have hp' : sum.1 + r.counters.packetsPerSecond < u64Bound := by omega
      have hb' : sum.2 + r.counters.bytesPerSecond < u64Bound := by omega
      simp only [addClassRate, checkedAdd, if_pos hp', if_pos hb']
    rw [List.foldlM_cons, hhead]
    refine (ih _ (by dsimp only; omega) (by dsimp only; omega)).trans ?_
    simp only [Nat.add_assoc]

/-- `bum_rates` accepts rates that add up. -/
theorem bumRates_ok {r : HookRate}
    (hp : (r.classes 0).counters.packetsPerSecond + (r.classes 1).counters.packetsPerSecond +
      (r.classes 2).counters.packetsPerSecond + (r.classes 3).counters.packetsPerSecond ≤ r.total.packetsPerSecond)
    (hb : (r.classes 0).counters.bytesPerSecond + (r.classes 1).counters.bytesPerSecond +
      (r.classes 2).counters.bytesPerSecond + (r.classes 3).counters.bytesPerSecond ≤ r.total.bytesPerSecond)
    (hpt : r.total.packetsPerSecond < u64Bound) (hbt : r.total.bytesPerSecond < u64Bound) :
    ∃ sum, bumRates r = .ok sum ∧ sum.1 ≤ r.total.packetsPerSecond := by
  have hlist : (List.ofFn r.classes).take 4 = [r.classes 0, r.classes 1, r.classes 2, r.classes 3] := rfl
  have hsum := foldlM_addClassRate [r.classes 0, r.classes 1, r.classes 2, r.classes 3] (0, 0)
    (by simp only [List.map_cons, List.map_nil, List.sum_cons, List.sum_nil]; omega)
    (by simp only [List.map_cons, List.map_nil, List.sum_cons, List.sum_nil]; omega)
  simp only [List.map_cons, List.map_nil, List.sum_cons, List.sum_nil] at hsum
  unfold bumRates
  rw [hlist, hsum]
  refine ⟨_, (if_neg ?_), ?_⟩
  · dsimp only
    omega
  · dsimp only
    omega

/-! ### Rates between two ledgers -/

/-- Between two ledgers the four classes gain no more than the total. -/
theorem classes_le_total {a b : HookObservation} {l l' : Ledger} (ha : Shows a l) (hb : Shows b l')
    (hle : ∀ q o, l q o ≤ l' q o) (q : Quantity) :
    ((b.classes 0).counters.get q - (a.classes 0).counters.get q) +
      ((b.classes 1).counters.get q - (a.classes 1).counters.get q) +
      ((b.classes 2).counters.get q - (a.classes 2).counters.get q) +
      ((b.classes 3).counters.get q - (a.classes 3).counters.get q) ≤ b.total.get q - a.total.get q := by
  rw [(ha q).1, (hb q).1]
  simp only [Fintype.sum_option, Fin.sum_univ_six]
  have hc : ∀ c : Fin 6, c.val < 4 →
      (a.classes c).counters.get q = l q (some c) ∧ (b.classes c).counters.get q = l' q (some c) :=
    fun c hlt => ⟨(ha q).2 c hlt, (hb q).2 c hlt⟩
  rw [(hc 0 (by decide)).1, (hc 0 (by decide)).2, (hc 1 (by decide)).1, (hc 1 (by decide)).2,
    (hc 2 (by decide)).1, (hc 2 (by decide)).2, (hc 3 (by decide)).1, (hc 3 (by decide)).2]
  have h0 := hle q (some 0)
  have h1 := hle q (some 1)
  have h2 := hle q (some 2)
  have h3 := hle q (some 3)
  have h4 := hle q (some 4)
  have h5 := hle q (some 5)
  have hn := hle q none
  omega

/-- The rates between two samples that show ledgers in order are accepted. -/
theorem bumRates_between {a b : HookObservation} {elapsed : Nat} {l l' : Ledger} (ha : Shows a l) (hb : Shows b l')
    (hle : ∀ q o, l q o ≤ l' q o) (he : rateSamplePeriodNs ≤ elapsed) :
    ∃ sum, bumRates (hookRatesBetween a b elapsed) = .ok sum ∧
      sum.1 ≤ (hookRatesBetween a b elapsed).total.packetsPerSecond := by
  refine bumRates_ok ?_ ?_ ?_ ?_
  · exact rates_le elapsed (classes_le_total ha hb hle .packets)
  · exact rates_le elapsed (classes_le_total ha hb hle .bytes)
  · exact rate_lt (Nat.lt_of_le_of_lt (Nat.sub_le _ _) b.total.packets_lt) he
  · exact rate_lt (Nat.lt_of_le_of_lt (Nat.sub_le _ _) b.total.bytes_lt) he

/-- A sample that precedes the latest one, with the ledgers of a hook in both. -/
theorem grows_latest {samples : List RateSample} (hg : samples.Pairwise Grows) {start latest : RateSample} (hs : start ∈ samples) (hl : samples.getLast? = some latest)
    (hp : Precedes start latest) : Grows start latest := by
  obtain ⟨init, rfl⟩ := List.getLast?_eq_some_iff.mp hl
  obtain hs | hs := List.mem_append.mp hs
  · exact (List.pairwise_append.mp hg).2.2 start hs latest (List.mem_singleton.mpr rfl)
  · rw [List.mem_singleton.mp hs] at hp
    exact absurd hp.1 (Nat.lt_irrefl _)

/-- What a reader of the windows can rely on: a ready window has its end and, for each
role, rates that add up. -/
structure Additive (w : DetailedRateWindow) : Prop where
  ends : w.state = .ready → ∃ windowEnd, w.endUnixMs = some windowEnd
  rates : w.state = .ready → ∃ hooks, w.hooks = some hooks ∧ ∀ i, (hooks i).role = hookOrder i ∧
    ∃ sum, bumRates (hooks i) = .ok sum ∧ sum.1 ≤ (hooks i).total.packetsPerSecond

theorem additive_of_accounted {m : Machine} (h : Accounted m) {nowNs : Nat} {windows : Fin 3 → DetailedRateWindow}
    (hok : m.history.detailedWindows nowNs = .ok windows) (i : Fin 3) : Additive (windows i) := by
  obtain ⟨state, coverage, hstate, -, hi⟩ | ⟨start, latest, coverage, hends, -, hi⟩ :=
    detailedWindows_cases h.wellFormed hok i
  · rw [hi]
    exact ⟨fun hr => absurd hr hstate, fun hr => absurd hr hstate⟩
  · rw [hi]
    have hgrows := grows_latest h.grows hends.mem hends.last hends.precedes
    refine ⟨fun _ => ⟨_, rfl⟩, fun _ => ⟨_, rfl, fun k => ⟨latest.ordered.1 k, ?_⟩⟩⟩
    obtain ⟨l, l', hstart, hlatest, hle⟩ := hgrows k
    exact bumRates_between hstart hlatest hle ((rateWindowMs_ge i).trans hends.covers)

/-! ### What `derive` asks of the rates -/

/-- The computation does not fail over the rate evidence. -/
def RatesTrusted {α : Type} (x : Except DetectionError α) : Prop := x ≠ .error .invalidRateEvidence

theorem RatesTrusted.bind {α β : Type} {x : Except DetectionError α} {f : α → Except DetectionError β}
    (hx : RatesTrusted x) (hf : ∀ a, x = .ok a → RatesTrusted (f a)) : RatesTrusted (x >>= f) := by
  cases x with
  | error e => exact fun h => hx (congrArg Except.error (Except.error.inj h))
  | ok a => exact hf a rfl

theorem ratesTrusted_ok {α : Type} (a : α) : RatesTrusted (.ok a : Except DetectionError α) := nofun

theorem ratesTrusted_mapErr {ε α : Type} {error : DetectionError} (he : error ≠ .invalidRateEvidence)
    (x : Except ε α) : RatesTrusted (mapErr error x) := by
  cases x with
  | ok a => exact nofun
  | error e => exact fun h => he (Except.error.inj h)

section
variable {windows : Fin 3 → DetailedRateWindow} {w : DetailedRateWindow}

theorem fixedWindow_mem {ms : Nat} (h : fixedWindow windows ms = .ok w) : ∃ i, w = windows i := by
  unfold fixedWindow at h
  cases hf : (List.ofFn windows).find? (fun w => w.windowMs = ms) with
  | none => rw [hf] at h; cases h
  | some found =>
    rw [hf] at h
    obtain rfl := Except.ok.inj h
    obtain ⟨i, hi⟩ := (List.mem_ofFn' _ _).mp (List.mem_of_find?_eq_some hf)
    exact ⟨i, hi.symm⟩

theorem fixedWindow_trusted (hms : ∀ i, (windows i).windowMs = rateWindowMs i) (i : Fin 3) :
    RatesTrusted (fixedWindow windows (rateWindowMs i)) := by
  unfold fixedWindow
  cases hf : (List.ofFn windows).find? (fun w => w.windowMs = rateWindowMs i) with
  | some found => exact nofun
  | none =>
    have hnot := List.find?_eq_none.mp hf (windows i) ((List.mem_ofFn' _ _).mpr ⟨i, rfl⟩)
    exact absurd (decide_eq_true (hms i)) hnot

theorem joinEndpoint_trusted (hw : Additive w) (ms : Nat) (sourceEnd : Option Nat) :
    RatesTrusted (joinEndpoint ms sourceEnd w) := by
  unfold joinEndpoint
  split
  · exact nofun
  · rename_i hready
    obtain ⟨windowEnd, hend⟩ := hw.ends (Classical.not_not.mp hready)
    rw [hend]
    dsimp only
    split
    · exact nofun
    · split <;> exact nofun

theorem validateSourceEndpoints_trusted (hw : ∀ i, Additive (windows i)) (baseline : BaselineReport)
    (fp : FingerprintWindowReport) (ms : Nat) : RatesTrusted (validateSourceEndpoints windows baseline fp ms) := by
  unfold validateSourceEndpoints
  refine RatesTrusted.bind ?_ fun sourceEnd _ => ?_
  · have hlist : List.ofFn windows = [windows 0, windows 1, windows 2] := rfl
    rw [hlist]
    simp only [List.foldlM_cons, List.foldlM_nil]
    refine .bind (joinEndpoint_trusted (hw 0) _ _) fun _ _ => ?_
    refine .bind (joinEndpoint_trusted (hw 1) _ _) fun _ _ => ?_
    exact .bind (joinEndpoint_trusted (hw 2) _ _) fun _ _ => nofun
  · split
    · split
      · exact nofun
      · split
        · exact nofun
        · split <;> exact nofun
    · split <;> exact nofun

/-- The rates of an additive window, for a role that is observed. -/
theorem hookRates_additive (hw : Additive w) (i : Fin 2) :
    RatesTrusted (hookRates w (hookOrder i)) ∧
      ∀ rates, hookRates w (hookOrder i) = .ok (some rates) →
        ∃ sum, bumRates rates = .ok sum ∧ sum.1 ≤ rates.total.packetsPerSecond := by
  unfold hookRates
  by_cases hready : w.state = .ready
  · rw [if_neg (not_not_intro hready)]
    obtain ⟨hooks, hhooks, hall⟩ := hw.rates hready
    rw [hhooks, Option.bind_some]
    cases hf : (List.ofFn hooks).find? (fun hook => hook.role = hookOrder i) with
    | none =>
      have hnot := List.find?_eq_none.mp hf (hooks i) ((List.mem_ofFn' _ _).mpr ⟨i, rfl⟩)
      exact absurd (decide_eq_true (hall i).1) hnot
    | some found =>
      refine ⟨nofun, fun rates hr => ?_⟩
      obtain rfl := Option.some.inj (Except.ok.inj hr)
      obtain ⟨k, rfl⟩ := (List.mem_ofFn' _ _).mp (List.mem_of_find?_eq_some hf)
      exact (hall k).2
  · rw [if_pos hready]
    exact ⟨nofun, nofun⟩

theorem bumRatio_trusted {numerator denominator : Nat} (h : numerator ≤ denominator) :
    RatesTrusted (bumRatio numerator denominator) := by
  unfold bumRatio
  split
  · rename_i hzero
    rw [if_pos (Nat.eq_zero_of_le_zero (hzero ▸ h))]
    exact nofun
  · split <;> exact nofun

theorem bumElevatedFrom_trusted (baseline : BaselineReport) (role : HookRole) (classes : List TrafficClass)
    (elevated : Bool) : RatesTrusted (bumElevatedFrom baseline role classes elevated) := by
  induction classes generalizing elevated with
  | nil => exact nofun
  | cons c rest ih =>
    unfold bumElevatedFrom
    split
    · exact nofun
    · split
      · exact nofun
      · exact nofun
      · exact ih _
      · exact ih _

theorem deriveHook_trusted {one ten : DetailedRateWindow} (hone : Additive one) (hten : Additive ten)
    (baseline : BaselineReport) (i : Fin 2) : RatesTrusted (deriveHook one ten baseline (hookOrder i)) := by
  obtain ⟨htenT, htenR⟩ := hookRates_additive hten i
  obtain ⟨honeT, honeR⟩ := hookRates_additive hone i
  unfold deriveHook
  refine .bind htenT fun tenRates hten => .bind honeT fun oneRates hone =>
    .bind (bumElevatedFrom_trusted _ _ _ _) fun _ _ => .bind ?_ fun _ _ => .bind ?_ fun _ _ => nofun
  · cases tenRates with
    | none => exact nofun
    | some rates =>
      obtain ⟨sum, hsum, hle⟩ := htenR rates hten
      unfold bumSignals
      dsimp only
      rw [hsum]
      refine .bind (ratesTrusted_ok sum) fun found hfound => ?_
      obtain rfl := Except.ok.inj hfound
      exact .bind (bumRatio_trusted hle) fun _ _ => nofun
  · cases oneRates with
    | none => exact nofun
    | some rates =>
      obtain ⟨sum, hsum, -⟩ := honeR rates hone
      unfold absoluteCandidateOf
      dsimp only
      rw [hsum]
      exact nofun

theorem deriveRelationshipSignals_trusted (candidate : StormCandidate) (ingress : HookDetectionSignals)
    (fp : FingerprintWindowReport) (ms : Nat) : RatesTrusted (deriveRelationshipSignals candidate ingress fp ms) := by
  unfold deriveRelationshipSignals
  split
  · exact nofun
  · split
    · exact nofun
    · split
      · exact nofun
      · split <;> exact nofun

/-- Windows that are valid and add up never fail `derive` over their rates. -/
theorem deriveSignals_trusted (hvalid : validateDetailedRateWindows windows = .ok ())
    (hms : ∀ i, (windows i).windowMs = rateWindowMs i) (hw : ∀ i, Additive (windows i)) (baseline : BaselineReport)
    (fp : FingerprintWindowReport) (ms : Nat) : RatesTrusted (deriveSignals windows baseline fp ms) := by
  unfold deriveSignals
  rw [hvalid]
  refine .bind (ratesTrusted_ok ()) fun _ _ => .bind (ratesTrusted_mapErr (by decide) _) fun _ _ =>
    .bind (ratesTrusted_mapErr (by decide) _) fun _ _ => .bind (fixedWindow_trusted hms 0) fun one hone =>
    .bind (fixedWindow_trusted hms 1) fun ten hten =>
    .bind (validateSourceEndpoints_trusted hw _ _ _) fun _ _ => ?_
  obtain ⟨i, rfl⟩ := fixedWindow_mem hone
  obtain ⟨k, rfl⟩ := fixedWindow_mem hten
  exact .bind (deriveHook_trusted (hw i) (hw k) baseline 0) fun _ _ =>
    .bind (deriveHook_trusted (hw i) (hw k) baseline 1) fun _ _ =>
    .bind (deriveRelationshipSignals_trusted _ _ _ _) fun _ _ =>
    .bind (ratesTrusted_mapErr (by decide) _) fun _ _ => nofun

end

/-- **Samples that count every broadcast and multicast packet whole add up.** In every
run of packets and reader in which no such packet is counted by one side of a sample
only, every ready window of the history is accepted by `bum_rates` for both hooks, and
`derive` does not fail over the rates. -/
theorem interleaved_windows_accepted (identity : RateIdentity) (startedNs cpus : Nat) (steps : List Step)
    (hwhole : interleaving.Obeys Whole (.start identity startedNs cpus) steps) (nowNs : Nat)
    (windows : Fin 3 → DetailedRateWindow)
    (hok : (interleaving.run (.start identity startedNs cpus, []) steps).1.history.detailedWindows nowNs = .ok windows) :
    (∀ i, (windows i).state = .ready → ∃ hooks, (windows i).hooks = some hooks ∧
      ∀ k, ∃ sum, bumRates (hooks k) = .ok sum) ∧
    ∀ baseline fp ms, deriveSignals windows baseline fp ms ≠ .error .invalidRateEvidence := by
  have h := Accounted.run identity startedNs cpus steps hwhole
  have hadd := fun i => additive_of_accounted h hok i
  refine ⟨fun i hready => ?_, fun baseline fp ms => ?_⟩
  · obtain ⟨hooks, hhooks, hall⟩ := (hadd i).rates hready
    refine ⟨hooks, hhooks, fun k => ?_⟩
    obtain ⟨-, sum, hsum, -⟩ := hall k
    exact ⟨sum, hsum⟩
  · exact deriveSignals_trusted (validateDetailedRateWindows_ok h.wellFormed hok)
      (detailedWindows_windowMs h.wellFormed hok) hadd baseline fp ms

/-- A broadcast packet of 64 bytes on the XDP hook. -/
def samplePacket : Packet := ⟨0, 0, 64, some 0⟩

/-- Two samples a second apart, with some steps before the second one is begun and some
more after the total of the XDP hook is read for it. -/
def twoSamples (before between : List Step) : List Step :=
  [Step.begin 1000000000] ++ List.replicate 16 Step.read ++ [Step.finish 1000] ++ before ++
    [Step.begin 2000000000, Step.read] ++ between ++ List.replicate 15 Step.read ++ [Step.finish 2000]

/-- The machine after two such samples, on one CPU. -/
def sampledTwice (before between : List Step) : Machine :=
  (interleaving.run (.start Detection.sampleIdentity 0 1, []) (twoSamples before between)).1

/-- The verdict of `bum_rates` on the XDP rates of the one-second window. -/
def oneSecondVerdict (m : Machine) : Option (Except DetectionError (Nat × Nat)) :=
  match m.history.detailedWindows 2000000000 with
  | .ok windows => (windows 0).hooks.map fun hooks => bumRates (hooks 0)
  | .error _ => none

/-- A packet that is accounted before the second sample is in both of its counts. -/
theorem interleaved_windows_accepted_between :
    ∃ windows, (sampledTwice [.arrive samplePacket, .account 0] []).history.detailedWindows 2000000000 = .ok windows ∧
      (windows 0).state = .ready ∧ ∃ hooks, (windows 0).hooks = some hooks ∧
        ∀ k, ∃ sum, bumRates (hooks k) = .ok sum := by
  have hwhole : interleaving.Obeys Whole (.start Detection.sampleIdentity 0 1)
      (twoSamples [.arrive samplePacket, .account 0] []) := by
    decide +kernel
  have hready : ∃ windows,
      (sampledTwice [.arrive samplePacket, .account 0] []).history.detailedWindows 2000000000 = .ok windows ∧
        (windows 0).state = .ready :=
    ⟨_, rfl, rfl⟩
  obtain ⟨windows, hok, hstate⟩ := hready
  exact ⟨windows, hok, hstate,
    (interleaved_windows_accepted Detection.sampleIdentity 0 1 _ hwhole 2000000000 windows hok).1 0 hstate⟩

/-- The packet arrives and is classified between the read of the total and the read of
its class: a broadcast rate of one packet against a total rate of none. -/
theorem interleaved_packet_refused :
    oneSecondVerdict (sampledTwice [] [.arrive samplePacket, .account 0]) = some (.error .invalidRateEvidence) := by
  decide +kernel

end NetworkLoop.Observation
