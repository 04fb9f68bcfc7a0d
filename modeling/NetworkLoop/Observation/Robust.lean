import NetworkLoop.Library.OrderStatistic
import NetworkLoop.Observation.Baseline

/-! What the statistics of a baseline promise.

The upper median is the element of the middle rank, so it does not depend on the order of
the samples and stays among the samples that are left when fewer than half of them are
replaced. The threshold is computed in `u128` and narrowed, and nothing in it overflows
(`evaluateMetricU128_eq`). -/
namespace NetworkLoop.Observation
open Library

/-! ### The median -/

section Median
variable {values values' : List Nat} {m : Nat}

theorem upperMedian_eq (values : List Nat) : upperMedian values = orderStat values (values.length / 2) := rfl

theorem upperMedian_perm (h : values.Perm values') : upperMedian values' = upperMedian values := by
  rw [upperMedian_eq, upperMedian_eq, ← h.length_eq, OrderStat.perm h]

theorem medianAbsoluteDeviation_perm (h : values.Perm values') :
    medianAbsoluteDeviation values' = medianAbsoluteDeviation values := by
  rw [medianAbsoluteDeviation, medianAbsoluteDeviation, upperMedian_perm h]
  exact congrArg _ (funext fun median => upperMedian_perm (h.map _))

/-- The median's rank: this many samples are smaller at most, and more are not larger. -/
theorem upperMedian_rank (h : upperMedian values = some m) :
    m ∈ values ∧ values.countP (· < m) ≤ values.length / 2 ∧ values.length / 2 < values.countP (· ≤ m) :=
  ⟨OrderStat.mem h, OrderStat.countP_lt_le h, OrderStat.lt_countP_le h⟩

theorem untouched_eq {touched : Finset Nat} (hsame : ∀ i ∉ touched, values'[i]? = values[i]?) {v : Nat} :
    v ∈ OrderStat.untouched values' touched ↔ v ∈ OrderStat.untouched values touched := by
  rw [OrderStat.mem_untouched, OrderStat.mem_untouched]
  exact exists_congr fun i => and_congr_right fun hi => by rw [hsame i hi]

/-- **Fewer than half of the samples do not move the median away** from the others. -/
theorem upperMedian_breakdown {touched : Finset Nat} (hlength : values'.length = values.length)
    (hfew : 2 * touched.card < values.length) (hsame : ∀ i ∉ touched, values'[i]? = values[i]?) :
    ∃ m, upperMedian values' = some m ∧ (∃ v ∈ OrderStat.untouched values touched, v ≤ m) ∧
      ∃ v ∈ OrderStat.untouched values touched, m ≤ v := by
  obtain ⟨m, hm⟩ := OrderStat.exists_of_lt (show values'.length / 2 < values'.length by omega)
  obtain ⟨⟨low, hlow, hle⟩, high, hhigh, hge⟩ := @OrderStat.kept _ _ _ _ _ touched hm (by omega) (by omega)
  exact ⟨m, hm, ⟨low, (untouched_eq hsame).mp hlow, hle⟩, high, (untouched_eq hsame).mp hhigh, hge⟩

end Median

/-! ### The threshold -/

def u128Bound : Nat := 2 ^ 128

/-- A result in `u128`, if it fits. -/
def fitsU128 (n : Nat) : Option Nat := if n < u128Bound then some n else none

/-- `evaluate_metric`, in the arithmetic of its code: `none` where an intermediate overflows, and
`as u64` cuts off. -/
def evaluateMetricU128 (current median mad noiseFloor : UInt64) : Option BaselineMetricReport := do
  let sixMad ← fitsU128 (6 * mad.toNat)
  let sum ← fitsU128 (median.toNat + sixMad)
  let fourMedian ← fitsU128 (4 * median.toNat)
  let threshold := min (max (max sum fourMedian) noiseFloor.toNat) (u64Bound - 1) % u64Bound
  let scaled ← if median.toNat = 0 then some none else (fitsU128 (current.toNat * 1000)).map some
  pure
    { current := some current.toNat
      median := some median.toNat
      mad := some mad.toNat
      threshold := some threshold
      ratioMilli := scaled.map fun n => min (n / median.toNat) (u64Bound - 1) % u64Bound
      elevated := some (decide (current.toNat > threshold)) }

theorem narrow_min (n : Nat) : min n (u64Bound - 1) % u64Bound = min n (u64Bound - 1) := by
  have hpos : 0 < u64Bound := by decide
  exact Nat.mod_eq_of_lt (by omega)

/-- **Nothing overflows**, and the narrowing cuts nothing off. -/
theorem evaluateMetricU128_eq (current median mad noiseFloor : UInt64) :
    evaluateMetricU128 current median mad noiseFloor =
      some (evaluateMetric current.toNat median.toNat mad.toNat noiseFloor.toNat) := by
  have hwide : 1000 * 2 ^ 64 ≤ u128Bound := by decide
  have hcurrent := current.toNat_lt
  have hmedian := median.toNat_lt
  have hmad := mad.toNat_lt
  have hsix : fitsU128 (6 * mad.toNat) = some (6 * mad.toNat) := if_pos (by omega)
  have hsum : fitsU128 (median.toNat + 6 * mad.toNat) = some (median.toNat + 6 * mad.toNat) := if_pos (by omega)
  have hfour : fitsU128 (4 * median.toNat) = some (4 * median.toNat) := if_pos (by omega)
  have hscaled : fitsU128 (current.toNat * 1000) = some (current.toNat * 1000) := if_pos (by omega)
  rw [evaluateMetricU128, hsix, hscaled, hfour]
  simp only [bind, Option.bind, hsum, narrow_min]
  by_cases hzero : median.toNat = 0
  · simp [hzero, evaluateMetric]
  · simp [hzero, evaluateMetric]

/-- **The statistics of a baseline are robust.** -/
theorem robust_statistics {values : List Nat} (hvalues : values ≠ []) :
    (∀ values', values.Perm values' → upperMedian values' = upperMedian values ∧
      medianAbsoluteDeviation values' = medianAbsoluteDeviation values) ∧
    (∃ m, upperMedian values = some m ∧ m ∈ values ∧ values.countP (· < m) ≤ values.length / 2 ∧
      values.length / 2 < values.countP (· ≤ m)) ∧
    (∀ (values' : List Nat) (touched : Finset Nat), values'.length = values.length → 2 * touched.card < values.length →
      (∀ i ∉ touched, values'[i]? = values[i]?) →
      ∃ m, upperMedian values' = some m ∧ (∃ v ∈ OrderStat.untouched values touched, v ≤ m) ∧
        ∃ v ∈ OrderStat.untouched values touched, m ≤ v) ∧
    (∀ current median mad noiseFloor : UInt64, ∃ report threshold,
      evaluateMetricU128 current median mad noiseFloor = some report ∧ report.threshold = some threshold ∧
        threshold = min (max (max (median.toNat + 6 * mad.toNat) (4 * median.toNat)) noiseFloor.toNat) (2 ^ 64 - 1) ∧
        report.elevated = some (decide (threshold < current.toNat))) := by
  refine ⟨fun values' hperm => ⟨upperMedian_perm hperm, medianAbsoluteDeviation_perm hperm⟩, ?_,
    fun values' touched hlength hfew hsame => upperMedian_breakdown hlength hfew hsame, fun current median mad noiseFloor => ?_⟩
  · have hpos := List.length_pos_of_ne_nil hvalues
    obtain ⟨m, hm⟩ := OrderStat.exists_of_lt (show values.length / 2 < values.length by omega)
    exact ⟨m, hm, upperMedian_rank hm⟩
  · exact ⟨_, _, evaluateMetricU128_eq current median mad noiseFloor, rfl, rfl, rfl⟩

theorem robust_statistics_four : ∃ m, upperMedian [7, 1, 900, 5] = some m ∧ (∃ v ∈ [7, 1, 5], v ≤ m) ∧ ∃ v ∈ [7, 1, 5], m ≤ v := by
  have hsome : [7, 1, 3, 5] ≠ [] := by decide
  have hsame : ∀ i ∉ ({2} : Finset Nat), [7, 1, 900, 5][i]? = [7, 1, 3, 5][i]? := by
    intro i hi
    have hne : i ≠ 2 := by simpa using hi
    rcases i with _ | _ | _ | _ | i
    · rfl
    · rfl
    · exact absurd rfl hne
    · rfl
    · rfl
  have hkept := (robust_statistics hsome).2.2.1 [7, 1, 900, 5] {2} rfl (by decide) hsame
  have huntouched : OrderStat.untouched [7, 1, 3, 5] {2} = [7, 1, 5] := by decide
  rwa [huntouched] at hkept

end NetworkLoop.Observation
