import NetworkLoop.Observation.Windows

/-! Which two scans a ready window lies between.

A scan that comes too early keeps the endpoint of the history, one that comes too late
replaces it, and a failed scan, `unavailable` and `clear` drop it. Whatever the order of these
calls, the endpoint is the scan that opened it with successful scans only since, and no ready
window was issued after that scan (`endpoint_opened`). So every ready window is the delta of
two scans of the run, and no two of them overlap (`windows_paired`). -/
namespace NetworkLoop.Observation
open Library Detection

/-! ### Runs -/

inductive WindowCall where
  | recordScan (nowNs nowMs : Nat) (evidence : List FingerprintEvidence)
  | unavailable (code : String)
  | clear

namespace WindowCall

/-- What a call comes to, with the history it leaves. -/
def apply (w : FingerprintWindowHistory) : WindowCall → Except FingerprintWindowError Unit × FingerprintWindowHistory
  | recordScan nowNs nowMs evidence => w.recordScan nowNs nowMs evidence
  | unavailable code => (.ok (), w.unavailable code)
  | clear => (.ok (), w.clear)

def capturedAt : WindowCall → Option Nat
  | recordScan nowNs _ _ => some nowNs
  | unavailable _ => none
  | clear => none

end WindowCall

/-- The history before the call at an index. -/
def historyBefore (identity : RateIdentity) (calls : List WindowCall) (i : Nat) : FingerprintWindowHistory :=
  (calls.take i).foldl (fun w call => (call.apply w).2) (.new identity)

section
variable (identity : RateIdentity) (calls : List WindowCall)

/-- The call at an index is a scan that succeeds, of these entries at these times. -/
def Scanned (i : Nat) (endpoint : FingerprintEndpoint) : Prop :=
  ∃ evidence, calls[i]? = some (.recordScan endpoint.capturedAtMonotonicNs endpoint.capturedAtUnixMs evidence) ∧
    validateScan identity evidence = .ok endpoint.entries ∧
    ((historyBefore identity calls i).recordScan endpoint.capturedAtMonotonicNs endpoint.capturedAtUnixMs evidence).1 = .ok ()

/-- The call at an index is a scan that succeeds with a ready window. -/
def Issued (i : Nat) (report : FingerprintWindowReport) : Prop :=
  ∃ nowNs nowMs evidence w, calls[i]? = some (.recordScan nowNs nowMs evidence) ∧
    (historyBefore identity calls i).recordScan nowNs nowMs evidence = (.ok (), w) ∧ w.report = report ∧ report.state = .ready

/-- A ready window lies between two scans 10 to 15 seconds apart, with successful scans only between them. -/
structure Paired (i j : Nat) (report : FingerprintWindowReport) : Prop where
  before : i < j
  delta : ∃ first last, Scanned identity calls i first ∧ Scanned identity calls j last ∧
    report.coverageMs = (last.capturedAtMonotonicNs - first.capturedAtMonotonicNs) / 1000000 ∧
    buildWindow first last report.coverageMs = .ok report
  covers : 10000 ≤ report.coverageMs ∧ report.coverageMs ≤ 15000
  between : ∀ k, i < k → k < j → ∃ endpoint, Scanned identity calls k endpoint

end

/-! ### One call -/

section
variable {w w' : FingerprintWindowHistory} {nowNs nowMs : Nat} {evidence : List FingerprintEvidence}

theorem buildWindow_ready {previous current : FingerprintEndpoint} {coverageMs : Nat} {report : FingerprintWindowReport}
    (h : buildWindow previous current coverageMs = .ok report) : report.state = .ready ∧ report.coverageMs = coverageMs := by
  unfold buildWindow at h
  obtain ⟨relations, -, h⟩ := bind_eq_ok.mp h
  obtain ⟨totals, -, h⟩ := bind_eq_ok.mp h
  split at h
  · cases h
  · dsimp only at h
    split at h
    · cases h
    · cases h
      exact ⟨rfl, rfl⟩

/-- What a scan does to the endpoint and the report. -/
inductive ScanStep (w : FingerprintWindowHistory) (current : FingerprintEndpoint) : FingerprintWindowHistory → Prop where
  /-- A first scan or a late one starts over. -/
  | opens : ScanStep w current {w with endpoint := some current, report := .warming}
  /-- An early one waits. -/
  | waits (previous : FingerprintEndpoint) (h : w.endpoint = some previous) :
      ScanStep w current {w with endpoint := some previous, report := .warming}
  | closes (previous : FingerprintEndpoint) (report : FingerprintWindowReport) (h : w.endpoint = some previous)
      (hlow : 10000 ≤ (current.capturedAtMonotonicNs - previous.capturedAtMonotonicNs) / 1000000)
      (hhigh : (current.capturedAtMonotonicNs - previous.capturedAtMonotonicNs) / 1000000 ≤ 15000)
      (hbuild : buildWindow previous current
        ((current.capturedAtMonotonicNs - previous.capturedAtMonotonicNs) / 1000000) = .ok report) :
      ScanStep w current {w with endpoint := some current, report := report}

/-- A scan fails and drops the endpoint, or its entries are accepted and it is a step. -/
theorem recordScan_cases (w : FingerprintWindowHistory) (nowNs nowMs : Nat) (evidence : List FingerprintEvidence) :
    (∃ error, w.recordScan nowNs nowMs evidence = w.fail error) ∨
      ∃ entries w', validateScan w.identity evidence = .ok entries ∧ w.recordScan nowNs nowMs evidence = (.ok (), w') ∧
        ScanStep w ⟨nowNs, nowMs, entries⟩ w' := by
  unfold FingerprintWindowHistory.recordScan
  cases hvalid : validateScan w.identity evidence with
  | error error => exact .inl ⟨error, rfl⟩
  | ok entries =>
    dsimp only
    cases hendpoint : w.endpoint with
    | none => exact .inr ⟨entries, _, rfl, rfl, .opens⟩
    | some previous =>
      dsimp only
      split
      · exact .inl ⟨_, rfl⟩
      · split
        · exact .inr ⟨entries, _, rfl, rfl, .waits previous hendpoint⟩
        · rename_i hlow
          split
          · exact .inr ⟨entries, _, rfl, rfl, .opens⟩
          · rename_i hhigh
            cases hbuild : buildWindow previous ⟨nowNs, nowMs, entries⟩ ((nowNs - previous.capturedAtMonotonicNs) / 1000000) with
            | error error => exact .inl ⟨error, rfl⟩
            | ok report =>
              exact .inr ⟨entries, _, rfl, rfl, .closes previous report hendpoint (Nat.not_lt.mp hlow) (Nat.not_lt.mp hhigh) hbuild⟩

theorem ScanStep.identity {current : FingerprintEndpoint} (h : ScanStep w current w') : w'.identity = w.identity := by
  cases h <;> rfl

end

/-! ### The endpoint of a run -/

section
variable {identity : RateIdentity} {calls : List WindowCall} {i j n : Nat}

theorem historyBefore_succ {call : WindowCall} (h : calls[n]? = some call) :
    historyBefore identity calls (n + 1) = (call.apply (historyBefore identity calls n)).2 := by
  rw [historyBefore, List.take_add_one, h, List.foldl_append]
  rfl

theorem apply_identity (w : FingerprintWindowHistory) (call : WindowCall) : (call.apply w).2.identity = w.identity := by
  cases call with
  | recordScan nowNs nowMs evidence =>
    show (w.recordScan nowNs nowMs evidence).2.identity = _
    rcases recordScan_cases w nowNs nowMs evidence with ⟨error, h⟩ | ⟨entries, w', -, h, hstep⟩
    · rw [h]
      rfl
    · rw [h]
      exact hstep.identity
  | unavailable code =>
    show (w.unavailable code).identity = _
    unfold FingerprintWindowHistory.unavailable
    split <;> rfl
  | clear => rfl

theorem historyBefore_identity (identity : RateIdentity) (calls : List WindowCall) (n : Nat) :
    (historyBefore identity calls n).identity = identity := by
  induction n with
  | zero => rfl
  | succ n ih =>
    cases h : calls[n]? with
    | none =>
      rw [historyBefore, List.take_add_one, h, Option.toList_none, List.append_nil]
      exact ih
    | some call => rw [historyBefore_succ h, apply_identity, ih]

/-- The endpoint was opened by the scan at an index, with successful scans only since, and
every ready window was issued up to then. -/
structure Opened (identity : RateIdentity) (calls : List WindowCall) (n i : Nat) (endpoint : FingerprintEndpoint) : Prop where
  before : i < n
  scanned : Scanned identity calls i endpoint
  between : ∀ k, i < k → k < n → ∃ endpoint, Scanned identity calls k endpoint
  issued : ∀ k report, k < n → Issued identity calls k report → k ≤ i

/-- A scan that starts over or closes a window is the endpoint from then on. -/
theorem Opened.last {endpoint : FingerprintEndpoint} (h : Scanned identity calls n endpoint) :
    Opened identity calls (n + 1) n endpoint where
  before := Nat.lt_succ_self n
  scanned := h
  between := fun _ hlow hhigh => absurd hhigh (Nat.not_lt.mpr hlow)
  issued := fun _ _ hk _ => Nat.le_of_lt_succ hk

/-- **The endpoint of a run.** -/
theorem endpoint_opened (identity : RateIdentity) (calls : List WindowCall) (hn : n ≤ calls.length) :
    ∀ endpoint, (historyBefore identity calls n).endpoint = some endpoint → ∃ i, Opened identity calls n i endpoint := by
  induction n with
  | zero => exact fun endpoint h => absurd h (Option.some_ne_none endpoint).symm
  | succ n ih =>
    intro endpoint hendpoint
    have hcall := List.getElem?_eq_getElem hn
    rw [historyBefore_succ hcall] at hendpoint
    cases hkind : calls[n] with
    | clear =>
      rw [hkind] at hendpoint
      cases hendpoint
    | unavailable code =>
      rw [hkind] at hendpoint
      change ((historyBefore identity calls n).unavailable code).endpoint = _ at hendpoint
      unfold FingerprintWindowHistory.unavailable at hendpoint
      split at hendpoint <;> cases hendpoint
    | recordScan nowNs nowMs evidence =>
      rw [hkind] at hcall hendpoint
      change ((historyBefore identity calls n).recordScan nowNs nowMs evidence).2.endpoint = _ at hendpoint
      rcases recordScan_cases (historyBefore identity calls n) nowNs nowMs evidence with
        ⟨error, hfails⟩ | ⟨entries, w', hvalid, hscan, hstep⟩
      · rw [hfails] at hendpoint
        cases hendpoint
      · rw [historyBefore_identity] at hvalid
        have hscanned : Scanned identity calls n ⟨nowNs, nowMs, entries⟩ := ⟨evidence, hcall, hvalid, by rw [hscan]⟩
        rw [hscan] at hendpoint
        cases hstep with
        | opens =>
          cases hendpoint
          exact ⟨n, .last hscanned⟩
        | closes =>
          cases hendpoint
          exact ⟨n, .last hscanned⟩
        | waits previous hprevious =>
          -- an early scan leaves the endpoint where it was
          cases hendpoint
          obtain ⟨i, hopened⟩ := ih (Nat.le_of_succ_le hn) endpoint hprevious
          refine ⟨i, Nat.lt_succ_of_lt hopened.before, hopened.scanned, fun k hlow hhigh => ?_, fun k report hk hissued => ?_⟩
          · obtain hlt | rfl := Nat.lt_succ_iff_lt_or_eq.mp hhigh
            · exact hopened.between k hlow hlt
            · exact ⟨_, hscanned⟩
          · obtain hlt | rfl := Nat.lt_succ_iff_lt_or_eq.mp hk
            · exact hopened.issued k report hlt hissued
            · obtain ⟨ns, ms, ev, w, hcall', hscan', rfl, hready⟩ := hissued
              rw [hcall] at hcall'
              cases hcall'
              rw [hscan] at hscan'
              cases hscan'
              cases hready

/-- A ready window closes what the endpoint opened. -/
theorem Issued.paired {report : FingerprintWindowReport} (h : Issued identity calls j report) :
    ∃ i, Paired identity calls i j report ∧ ∀ k report', k < j → Issued identity calls k report' → k ≤ i := by
  obtain ⟨nowNs, nowMs, evidence, w, hcall, hscan, rfl, hready⟩ := h
  obtain ⟨hj, -⟩ := List.getElem?_eq_some_iff.mp hcall
  rcases recordScan_cases (historyBefore identity calls j) nowNs nowMs evidence with
    ⟨error, hfails⟩ | ⟨entries, w', hvalid, hscan', hstep⟩
  · rw [hfails] at hscan
    cases hscan
  · rw [hscan] at hscan'
    cases hscan'
    rw [historyBefore_identity] at hvalid
    cases hstep with
    | opens => cases hready
    | waits => cases hready
    | closes previous report hprevious hlow hhigh hbuild =>
      obtain ⟨i, hopened⟩ := endpoint_opened identity calls hj.le previous hprevious
      obtain ⟨-, hcoverage⟩ := buildWindow_ready hbuild
      refine ⟨i, ⟨hopened.before, ⟨previous, ⟨nowNs, nowMs, entries⟩, hopened.scanned, ⟨evidence, hcall, hvalid, by rw [hscan]⟩,
        hcoverage, ?_⟩, ?_, hopened.between⟩, hopened.issued⟩
      · dsimp only
        rw [hcoverage]
        exact hbuild
      · dsimp only
        rw [hcoverage]
        exact ⟨hlow, hhigh⟩

/-- A cached ready window was issued earlier. -/
theorem cached_issued (identity : RateIdentity) (calls : List WindowCall) (hn : n ≤ calls.length)
    (h : (historyBefore identity calls n).report.state = .ready) :
    ∃ j < n, Issued identity calls j (historyBefore identity calls n).report := by
  induction n with
  | zero => cases h
  | succ n ih =>
    have hcall := List.getElem?_eq_getElem hn
    have hkept : (historyBefore identity calls (n + 1)).report = (historyBefore identity calls n).report →
        ∃ j < n + 1, Issued identity calls j (historyBefore identity calls (n + 1)).report := by
      intro heq
      rw [heq] at h ⊢
      obtain ⟨j, hj, hissued⟩ := ih (Nat.le_of_succ_le hn) h
      exact ⟨j, Nat.lt_succ_of_lt hj, hissued⟩
    have hsucc := @historyBefore_succ identity calls n _ hcall
    cases hkind : calls[n] with
    | clear =>
      rw [hsucc, hkind] at h
      cases h
    | unavailable code =>
      rw [hkind] at hsucc
      change _ = (historyBefore identity calls n).unavailable code at hsucc
      unfold FingerprintWindowHistory.unavailable at hsucc
      split at hsucc
      · exact hkept (by rw [hsucc])
      · rename_i report hreport
        have hstate : report.state = .unavailable := by
          unfold FingerprintWindowReport.unavailable at hreport
          obtain ⟨_, -, hreport⟩ := bind_eq_ok.mp hreport
          cases hreport
          rfl
        rw [hsucc, hstate] at h
        cases h
    | recordScan nowNs nowMs evidence =>
      rw [hkind] at hcall hsucc
      change _ = ((historyBefore identity calls n).recordScan nowNs nowMs evidence).2 at hsucc
      rcases recordScan_cases (historyBefore identity calls n) nowNs nowMs evidence with
        ⟨error, hfails⟩ | ⟨entries, w', -, hscan, -⟩
      · rw [hsucc, hfails] at h
        cases h
      · rw [hscan] at hsucc
        exact ⟨n, Nat.lt_succ_self n, nowNs, nowMs, evidence, w', hcall, hscan, by rw [hsucc], h⟩

theorem Issued.unique {report report' : FingerprintWindowReport} (h : Issued identity calls j report)
    (h' : Issued identity calls j report') : report = report' := by
  obtain ⟨nowNs, nowMs, evidence, w, hcall, hscan, rfl, -⟩ := h
  obtain ⟨nowNs', nowMs', evidence', w', hcall', hscan', rfl, -⟩ := h'
  rw [hcall] at hcall'
  cases hcall'
  rw [hscan] at hscan'
  cases hscan'
  rfl

/-- Scans of a run come in the order of their times. -/
theorem Scanned.ordered (hclock : (calls.filterMap WindowCall.capturedAt).Pairwise (· ≤ ·)) {first last : FingerprintEndpoint}
    (hfirst : Scanned identity calls i first) (hlast : Scanned identity calls j last) (h : i ≤ j) :
    first.capturedAtMonotonicNs ≤ last.capturedAtMonotonicNs := by
  obtain ⟨_, hcall, -⟩ := hfirst
  obtain ⟨_, hcall', -⟩ := hlast
  obtain hlt | rfl := Nat.lt_or_eq_of_le h
  · obtain ⟨hi, hcall⟩ := List.getElem?_eq_some_iff.mp hcall
    obtain ⟨hj, hcall'⟩ := List.getElem?_eq_some_iff.mp hcall'
    have hpair := List.pairwise_iff_getElem.mp (List.pairwise_filterMap.mp hclock) i j hi hj hlt
    rw [hcall, hcall'] at hpair
    exact hpair _ rfl _ rfl
  · have hsame := Option.some.inj (hcall.symm.trans hcall')
    injection hsame with htime
    exact htime.le

/-- **Ready windows pair the scans of a run**: each is the delta of two successful scans with
nothing but successful scans between them, the report kept is one of them, and no two overlap. -/
theorem windows_paired (identity : RateIdentity) (calls : List WindowCall)
    (hclock : (calls.filterMap WindowCall.capturedAt).Pairwise (· ≤ ·)) :
    ∃ start : Nat → Nat,
      (∀ j report, Issued identity calls j report → Paired identity calls (start j) j report) ∧
      (∀ j j' report report' last first, Issued identity calls j report → Issued identity calls j' report' → j < j' →
        Scanned identity calls j last → Scanned identity calls (start j') first →
        last.capturedAtMonotonicNs ≤ first.capturedAtMonotonicNs) ∧
      ∀ n ≤ calls.length, (historyBefore identity calls n).report.state = .ready →
        ∃ j < n, Issued identity calls j (historyBefore identity calls n).report := by
  have hstart : ∀ j, ∃ i, ∀ report, Issued identity calls j report →
      Paired identity calls i j report ∧ ∀ k report', k < j → Issued identity calls k report' → k ≤ i := by
    intro j
    by_cases hissued : ∃ report, Issued identity calls j report
    · obtain ⟨report, hreport⟩ := hissued
      obtain ⟨i, hpaired, hbefore⟩ := hreport.paired
      refine ⟨i, fun report' hreport' => ?_⟩
      rw [hreport'.unique hreport]
      exact ⟨hpaired, hbefore⟩
    · exact ⟨0, fun report hreport => absurd ⟨report, hreport⟩ hissued⟩
  choose start hstart using hstart
  refine ⟨start, fun j report h => (hstart j report h).1, fun j j' report report' last first h h' hlt hlast hfirst => ?_,
    fun n hn => cached_issued identity calls hn⟩
  exact hlast.ordered hclock hfirst ((hstart j' report' h').2 j report hlt h)

/-- A scan that comes too early between the two of a ready window. -/
theorem windows_paired_early :
    ∃ start : Nat → Nat, ∃ report, Issued ⟨3, 1, by decide, by decide⟩
        [.recordScan 0 0 [], .recordScan 4000000000 4000 [], .recordScan 10000000000 10000 [flowEntry 1 20 1280]] 2 report ∧
      Paired ⟨3, 1, by decide, by decide⟩
        [.recordScan 0 0 [], .recordScan 4000000000 4000 [], .recordScan 10000000000 10000 [flowEntry 1 20 1280]] (start 2) 2
        report := by
  obtain ⟨start, hpaired, -⟩ := windows_paired ⟨3, 1, by decide, by decide⟩
    [.recordScan 0 0 [], .recordScan 4000000000 4000 [], .recordScan 10000000000 10000 [flowEntry 1 20 1280]] (by decide)
  have hissued : Issued ⟨3, 1, by decide, by decide⟩
      [.recordScan 0 0 [], .recordScan 4000000000 4000 [], .recordScan 10000000000 10000 [flowEntry 1 20 1280]] 2 _ :=
    ⟨_, _, _, _, rfl, rfl, rfl, rfl⟩
  exact ⟨start, _, hissued, hpaired 2 _ hissued⟩

end

end NetworkLoop.Observation
