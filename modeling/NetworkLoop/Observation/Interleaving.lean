import Mathlib
import NetworkLoop.Library.Recorder
import NetworkLoop.Observation.History

/-! Packet accounting against the background reader.

A packet runs `account_layer` on some CPU: it raises the total of its hook and then
one class entry or the parse-error entry, in two map operations. The reader walks the
keys of `observation_keys` one lookup at a time, the total of a hook first. Every
single map operation is atomic and nothing else is, so a run is any list of single
operations (`Step`).

The packets are numbered in the order of their first operation, and a reading keeps
how many had arrived when it read each total: that is what tells whether a sample
counted a packet in the total. `interleaved_windows_accepted` says that the windows of
a run add up as long as no broadcast or multicast packet is counted on one side of a
sample only. -/
namespace NetworkLoop.Observation
open Library

/-! ### The machine -/

/-- Where a packet is counted after the total: a class, or the parse errors. -/
abbrev Counted := Option (Fin 6)

/-- The entries of one hook. -/
inductive Entry where
  | total
  | counted (o : Counted)
  deriving DecidableEq

structure Packet where
  hook : Fin 2
  cpu : Nat
  bytes : Nat
  outcome : Counted
  deriving DecidableEq

/-- `increment_counter` on the `CounterValue` of one CPU, a pair of `u64` like the
counters it is read into. -/
def ObservationCounters.increment (v : ObservationCounters) (bytes : Nat) : ObservationCounters :=
  ⟨(v.packets + 1) % u64Bound, (v.bytes + bytes) % u64Bound, Nat.mod_lt _ (by decide), Nat.mod_lt _ (by decide)⟩

/-- `HOOK_STATS`, by hook, entry and CPU. -/
abbrev HookStats := Fin 2 → Entry → Nat → ObservationCounters

/-- `increment_existing` on the packet's CPU. -/
def HookStats.raise (stats : HookStats) (p : Packet) (e : Entry) : HookStats :=
  fun hook entry cpu =>
    if hook = p.hook ∧ entry = e ∧ cpu = p.cpu then (stats hook entry cpu).increment p.bytes
    else stats hook entry cpu

/-- `observation_keys` of the XDP hook, then of the TC hook. -/
def observationKeys : List (Fin 2 × Entry) :=
  [0, 1].flatMap fun hook =>
    [(hook, .total), (hook, .counted (some 0)), (hook, .counted (some 1)), (hook, .counted (some 2)),
      (hook, .counted (some 3)), (hook, .counted (some 4)), (hook, .counted (some 5)), (hook, .counted none)]

/-- The slot of an entry among the keys of its hook. -/
def Entry.slot : Entry → Nat
  | .total => 0
  | .counted (some c) => c.val + 1
  | .counted none => 7

/-- The place of a key in the order of the reads. -/
def place (hook : Fin 2) (e : Entry) : Nat := 8 * hook.val + e.slot

/-- A reading under way. `marks` is the number of packets that had arrived when the
total of each hook was read. -/
structure Reading where
  startedNs : Nat
  position : Nat
  values : Fin 2 → Entry → ObservationCounters
  marks : Fin 2 → Nat

structure Machine where
  cpus : Nat
  stats : HookStats
  arrived : Nat
  /-- The packets between their two operations, each with its number. -/
  inFlight : List (Nat × Packet)
  reading : Option Reading
  history : RateHistory

namespace Machine

def start (identity : RateIdentity) (startedNs cpus : Nat) : Machine where
  cpus := cpus
  stats := fun _ _ _ => .zero
  arrived := 0
  inFlight := []
  reading := none
  history := .new identity startedNs

/-- `read_aggregate`: one lookup, then the sum over the CPUs. -/
def readAggregate (m : Machine) (hook : Fin 2) (e : Entry) : Except DomainError ObservationCounters :=
  (List.range m.cpus).foldlM (fun sum cpu => sum.checkedAdd (m.stats hook e cpu)) .zero

end Machine

/-- One atomic operation, of a packet or of the reader. -/
inductive Step where
  | arrive (p : Packet)
  | account (k : Nat)
  | begin (nowNs : Nat)
  | read
  | finish (unixMs : Nat)
  deriving DecidableEq

namespace Machine

/-- The hooks of a finished reading. -/
def Reading.hooks (r : Reading) (i : Fin 2) : HookObservation where
  role := hookOrder i
  total := r.values i .total
  classes := fun c => ⟨classOrder c, r.values i (.counted (some c))⟩
  parseErrors := r.values i (.counted none)

def Reading.sample (r : Reading) (identity : RateIdentity) (unixMs : Nat) : RateSample :=
  ⟨identity, r.startedNs, unixMs, .unknown, Reading.hooks r, fun _ => rfl, fun _ _ => rfl⟩

def Reading.record (r : Reading) (hook : Fin 2) (e : Entry) (v : ObservationCounters) (arrived : Nat) : Reading :=
  {r with
    position := r.position + 1
    values := fun h e' => if h = hook ∧ e' = e then v else r.values h e'
    marks := fun h => if h = hook ∧ e = .total then arrived else r.marks h}

/-- A failed lookup ends the reading: the tick brings no sample. -/
def step (m : Machine) : Step → Machine
  | .arrive p =>
    if p.cpu < m.cpus then
      {m with
        stats := m.stats.raise p .total
        inFlight := m.inFlight ++ [(m.arrived, p)]
        arrived := m.arrived + 1}
    else m
  | .account k =>
    match m.inFlight[k]? with
    | none => m
    | some (_, p) =>
      {m with stats := m.stats.raise p (.counted p.outcome), inFlight := m.inFlight.eraseIdx k}
  | .begin nowNs => {m with reading := some ⟨nowNs, 0, fun _ _ => .zero, fun _ => 0⟩}
  | .read =>
    match m.reading with
    | none => m
    | some r =>
      match observationKeys[r.position]? with
      | none => m
      | some (hook, e) =>
        match m.readAggregate hook e with
        | .error _ => {m with reading := none}
        | .ok v => {m with reading := some (Reading.record r hook e v m.arrived)}
  | .finish unixMs =>
    match m.reading with
    | none => m
    | some r =>
      if r.position = 16 then
        {m with reading := none, history := (m.history.insert (Reading.sample r m.history.identity unixMs)).2}
      else m

end Machine

/-- The runs of packets and reader; nothing is observed but the machine itself. -/
def interleaving : Recorder Machine Step Empty where
  step := Machine.step
  note := fun _ _ log => log

/-! ### The condition -/

/-- A packet of one of the four classes that `bum_rates` adds up. -/
def Packet.isBum (p : Packet) : Bool := p.outcome.any (fun c => c.val < 4)

/-- The reading has read the total of the hook and not yet the entry. -/
def Reading.within (r : Reading) (hook : Fin 2) (e : Entry) : Bool :=
  place hook .total < r.position && r.position ≤ place hook e

/-- Counting the packet there does not wrap its CPU's slot. -/
def NoWrap (m : Machine) (p : Packet) (e : Entry) : Prop :=
  (m.stats p.hook e p.cpu).packets + 1 < u64Bound ∧ (m.stats p.hook e p.cpu).bytes + p.bytes < u64Bound

/-- No broadcast or multicast packet is counted by one side of a sample only: a packet
that is accounted between the reads of its total and of its class is in that total, and
no packet of that total is missing from its class when the class is read. No slot wraps. -/
def Whole (m : Machine) : Step → Prop
  | .arrive p => NoWrap m p .total
  | .account k =>
    ∀ x ∈ m.inFlight[k]?, NoWrap m x.2 (.counted x.2.outcome) ∧
      (x.2.isBum → ∀ r ∈ m.reading, r.within x.2.hook (.counted x.2.outcome) → x.1 < r.marks x.2.hook)
  | .read =>
    ∀ r ∈ m.reading, ∀ x ∈ m.inFlight, x.2.isBum →
      observationKeys[r.position]? = some (x.2.hook, .counted x.2.outcome) → ¬x.1 < r.marks x.2.hook
  | .begin _ => True
  | .finish _ => True

instance (m : Machine) : DecidablePred (Whole m)
  | .arrive _ => inferInstanceAs (Decidable (_ ∧ _))
  | .account k => inferInstanceAs (Decidable (∀ x ∈ m.inFlight[k]?, (_ ∧ _) ∧ (_ → ∀ r ∈ m.reading, _ → _)))
  | .read => inferInstanceAs (Decidable (∀ r ∈ m.reading, ∀ x ∈ m.inFlight, _ → _ → _))
  | .begin _ => .isTrue trivial
  | .finish _ => .isTrue trivial

/-! ### Units -/

/-- Packets and bytes are counted in the same way. -/
inductive Quantity where
  | packets | bytes
  deriving DecidableEq

def ObservationCounters.get (c : ObservationCounters) : Quantity → Nat
  | .packets => c.packets
  | .bytes => c.bytes

def Packet.weight (p : Packet) : Quantity → Nat
  | .packets => 1
  | .bytes => p.bytes

theorem ObservationCounters.increment_get {v : ObservationCounters} {p : Packet} (q : Quantity)
    (hp : v.packets + 1 < u64Bound) (hb : v.bytes + p.bytes < u64Bound) :
    (v.increment p.bytes).get q = v.get q + p.weight q := by
  cases q with
  | packets => exact Nat.mod_eq_of_lt hp
  | bytes => exact Nat.mod_eq_of_lt hb

/-! ### Sums over the CPUs and over the packets in flight -/

/-- What all CPUs have counted in an entry. -/
def Machine.counted (m : Machine) (q : Quantity) (hook : Fin 2) (e : Entry) : Nat :=
  ∑ cpu ∈ Finset.range m.cpus, (m.stats hook e cpu).get q

/-- A sum that grows at one place. -/
theorem sum_raised {s : Finset Nat} {f g : Nat → Nat} {c w : Nat} (hc : c ∈ s) (hat : g c = f c + w)
    (hoff : ∀ x ∈ s, x ≠ c → g x = f x) : ∑ x ∈ s, g x = ∑ x ∈ s, f x + w := by
  rw [← Finset.add_sum_erase s g hc, ← Finset.add_sum_erase s f hc, hat,
    Finset.sum_congr rfl fun x hx => hoff x (Finset.mem_of_mem_erase hx) (Finset.ne_of_mem_erase hx)]
  exact Nat.add_right_comm _ _ _

/-- One more packet counted in one entry, on any machine with the raised slots. -/
theorem counted_raise {m : Machine} (m' : Machine) {p : Packet} {e : Entry} (hcpus : m'.cpus = m.cpus) (hcpu : p.cpu < m.cpus)
    (hs : m'.stats = m.stats.raise p e) (hw : NoWrap m p e) (q : Quantity) (hook : Fin 2) (e' : Entry) :
    m'.counted q hook e' = m.counted q hook e' + if hook = p.hook ∧ e' = e then p.weight q else 0 := by
  unfold Machine.counted
  rw [hcpus, hs]
  by_cases hkey : hook = p.hook ∧ e' = e
  · obtain ⟨rfl, rfl⟩ := hkey
    rw [if_pos ⟨rfl, rfl⟩]
    refine sum_raised (Finset.mem_range.mpr hcpu) ?_ fun cpu _ hne => ?_
    · rw [HookStats.raise, if_pos ⟨rfl, rfl, rfl⟩]
      exact ObservationCounters.increment_get q hw.1 hw.2
    · rw [HookStats.raise, if_neg fun h => hne h.2.2]
  · rw [if_neg hkey, Nat.add_zero]
    refine Finset.sum_congr rfl fun cpu _ => ?_
    rw [HookStats.raise, if_neg fun h => hkey ⟨h.1, h.2.1⟩]

/-- What the packets in flight still have to count in an entry, among those a test on
their number picks. -/
def Machine.pending (m : Machine) (q : Quantity) (hook : Fin 2) (o : Counted) (pick : Nat → Bool) : Nat :=
  (m.inFlight.map fun x => if x.2.hook = hook ∧ x.2.outcome = o ∧ pick x.1 then x.2.weight q else 0).sum

theorem sum_map_eraseIdx {α : Type} (f : α → Nat) {l : List α} {k : Nat} {x : α} (h : l[k]? = some x) :
    (l.map f).sum = ((l.eraseIdx k).map f).sum + f x := by
  induction l generalizing k with
  | nil => simp at h
  | cons y rest ih =>
    cases k with
    | zero =>
      obtain rfl : y = x := by simpa using h
      simp [Nat.add_comm]
    | succ k =>
      have hget : rest[k]? = some x := by simpa using h
      have hrest := ih hget
      simp only [List.map_cons, List.sum_cons, List.eraseIdx_cons_succ, hrest]
      omega

/-- Everything that has arrived for an entry: counted, or still in flight. -/
def Machine.received (m : Machine) (q : Quantity) (hook : Fin 2) (o : Counted) : Nat :=
  m.counted q hook (.counted o) + m.pending q hook o (fun _ => true)

/-! ### What a run keeps -/

/-- An account of one hook: how much of each kind. -/
abbrev Ledger := Quantity → Counted → Nat

/-- The observation is what one ledger says, the four BUM classes and the total. -/
def Shows (obs : HookObservation) (l : Ledger) : Prop :=
  ∀ q, obs.total.get q = ∑ o, l q o ∧ ∀ c : Fin 6, c.val < 4 → (obs.classes c).counters.get q = l q (some c)

/-- The hook as two samples show it goes from one ledger to a larger one. -/
def Grows (a b : RateSample) : Prop :=
  ∀ i, ∃ l l' : Ledger, Shows (a.hooks i) l ∧ Shows (b.hooks i) l' ∧ ∀ q o, l q o ≤ l' q o

/-- Every sample shows the hook at a ledger below this one. -/
def Below (samples : List RateSample) (i : Fin 2) (bound : Ledger) : Prop :=
  ∀ s ∈ samples, ∃ l : Ledger, Shows (s.hooks i) l ∧ ∀ q o, l q o ≤ bound q o

theorem Below.mono {samples : List RateSample} {i : Fin 2} {l l' : Ledger} (h : Below samples i l)
    (hle : ∀ q o, l q o ≤ l' q o) : Below samples i l' := by
  intro s hs
  obtain ⟨k, hk, hkl⟩ := h s hs
  exact ⟨k, hk, fun q o => (hkl q o).trans (hle q o)⟩

/-- A reading that has read the total of a hook shows the ledger of that moment, class by
class as it goes: what is read is right, and what is not yet read will be, once the packets
of the total that are still in flight have been accounted. -/
structure Follows (m : Machine) (r : Reading) (i : Fin 2) (l : Ledger) : Prop where
  total : ∀ q, (r.values i .total).get q = ∑ o, l q o
  read : ∀ q (c : Fin 6), c.val < 4 → place i (.counted (some c)) < r.position →
    (r.values i (.counted (some c))).get q = l q (some c)
  unread : ∀ q (c : Fin 6), c.val < 4 → r.position ≤ place i (.counted (some c)) →
    m.counted q i (.counted (some c)) + m.pending q i (some c) (· < r.marks i) = l q (some c)
  le : ∀ q o, l q o ≤ m.received q i o
  mark : r.marks i ≤ m.arrived

structure Accounted (m : Machine) : Prop where
  numbered : ∀ x ∈ m.inFlight, x.1 < m.arrived ∧ x.2.cpu < m.cpus
  conserved : ∀ q i, m.counted q i .total = ∑ o, m.received q i o
  wellFormed : m.history.WellFormed
  grows : m.history.samples.Pairwise Grows
  bounded : ∀ i, (∀ r ∈ m.reading, r.position ≤ place i .total) → Below m.history.samples i (m.received · i ·)
  follows : ∀ i, ∀ r ∈ m.reading, place i .total < r.position →
    ∃ l, Follows m r i l ∧ Below m.history.samples i l

namespace Accounted
variable {m : Machine}

/-- Whatever is being read, every sample is below what has arrived. -/
theorem below_received (h : Accounted m) (i : Fin 2) : Below m.history.samples i (m.received · i ·) := by
  by_cases hread : ∀ r ∈ m.reading, r.position ≤ place i .total
  · exact h.bounded i hread
  · push Not at hread
    obtain ⟨r, hr, hlt⟩ := hread
    obtain ⟨l, hl, hbelow⟩ := h.follows i r hr hlt
    exact hbelow.mono hl.le

/-- A machine without a reading only has to account for what has arrived. -/
theorem idle {m' : Machine} (hnum : ∀ x ∈ m'.inFlight, x.1 < m'.arrived ∧ x.2.cpu < m'.cpus)
    (hcons : ∀ q i, m'.counted q i .total = ∑ o, m'.received q i o) (hwf : m'.history.WellFormed)
    (hgrows : m'.history.samples.Pairwise Grows) (hread : ∀ r ∈ m'.reading, r.position = 0)
    (hbelow : ∀ i, Below m'.history.samples i (m'.received · i ·)) : Accounted m' where
  numbered := hnum
  conserved := hcons
  wellFormed := hwf
  grows := hgrows
  bounded := fun i _ => hbelow i
  follows := fun i r hr hlt => absurd hlt (by rw [hread r hr]; exact Nat.not_lt_zero _)

theorem pending_snoc (m' : Machine) {n : Nat} {p : Packet} (hf : m'.inFlight = m.inFlight ++ [(n, p)])
    (q : Quantity) (i : Fin 2) (o : Counted) (pick : Nat → Bool) :
    m'.pending q i o pick = m.pending q i o pick +
      if p.hook = i ∧ p.outcome = o ∧ pick n then p.weight q else 0 := by
  unfold Machine.pending
  rw [hf, List.map_append, List.sum_append]
  rfl

theorem pending_eraseIdx (m' : Machine) {k n : Nat} {p : Packet} (hk : m.inFlight[k]? = some (n, p))
    (hf : m'.inFlight = m.inFlight.eraseIdx k) (q : Quantity) (i : Fin 2) (o : Counted) (pick : Nat → Bool) :
    m.pending q i o pick = m'.pending q i o pick +
      if p.hook = i ∧ p.outcome = o ∧ pick n then p.weight q else 0 := by
  unfold Machine.pending
  rw [hf]
  exact sum_map_eraseIdx _ hk

theorem arrive (h : Accounted m) {p : Packet} (hcpu : p.cpu < m.cpus) (hw : NoWrap m p .total) :
    Accounted (m.step (.arrive p)) := by
  have hstep : m.step (.arrive p) = {m with
      stats := m.stats.raise p .total
      inFlight := m.inFlight ++ [(m.arrived, p)]
      arrived := m.arrived + 1} := if_pos hcpu
  generalize m.step (.arrive p) = m' at hstep
  have hcounted := fun q i e => counted_raise m' (by rw [hstep]) hcpu (by rw [hstep]) hw q i e
  have hpending := fun q i o pick => pending_snoc m' (show _ = m.inFlight ++ [(m.arrived, p)] by rw [hstep]) q i o pick
  have hreceived : ∀ q i o, m'.received q i o = m.received q i o + if i = p.hook ∧ o = p.outcome then p.weight q else 0 := by
    intro q i o
    unfold Machine.received
    rw [hcounted, hpending, if_neg (by simp)]
    simp only [and_true, eq_comm]
    omega
  have hsame : ∀ q i o, m'.counted q i (.counted o) = m.counted q i (.counted o) := by
    intro q i o
    rw [hcounted, if_neg (by simp), Nat.add_zero]
  have hread : m'.reading = m.reading := by rw [hstep]
  have hhist : m'.history = m.history := by rw [hstep]
  refine ⟨?_, ?_, ?_, ?_, ?_, ?_⟩
  · intro x hx
    rw [hstep] at hx ⊢
    obtain hx | hx := List.mem_append.mp hx
    · exact ⟨Nat.lt_succ_of_lt (h.numbered x hx).1, (h.numbered x hx).2⟩
    · rw [List.mem_singleton.mp hx]
      exact ⟨Nat.lt_succ_self _, hcpu⟩
  · intro q i
    simp only [hcounted, hreceived, Finset.sum_add_distrib, h.conserved q i, Nat.add_left_cancel_iff, and_true]
    by_cases hi : i = p.hook
    · simp [hi]
    · simp [hi]
  · rw [hhist]
    exact h.wellFormed
  · rw [hhist]
    exact h.grows
  · intro i hr
    rw [hhist]
    rw [hread] at hr
    exact (h.bounded i hr).mono fun q o => by rw [hreceived]; exact Nat.le_add_right _ _
  · intro i r hr hlt
    rw [hread] at hr
    obtain ⟨l, hl, hbelow⟩ := h.follows i r hr hlt
    refine ⟨l, ⟨hl.total, hl.read, fun q c hc hle => ?_, fun q o => ?_, ?_⟩, by rw [hhist]; exact hbelow⟩
    · rw [hsame, hpending, if_neg, Nat.add_zero]
      · exact hl.unread q c hc hle
      · -- The new packet is not in the total that this reading has read.
        simp only [decide_eq_true_eq, not_and, Nat.not_lt]
        exact fun _ _ => hl.mark
    · rw [hreceived]
      exact (hl.le q o).trans (Nat.le_add_right _ _)
    · rw [hstep]
      exact hl.mark.trans (Nat.le_succ _)

theorem account (h : Accounted m) {k n : Nat} {p : Packet} (hk : m.inFlight[k]? = some (n, p))
    (hw : NoWrap m p (.counted p.outcome))
    (hwhole : p.isBum → ∀ r ∈ m.reading, r.within p.hook (.counted p.outcome) → n < r.marks p.hook) :
    Accounted (m.step (.account k)) := by
  have hmem := List.mem_of_getElem? hk
  have hcpu : p.cpu < m.cpus := (h.numbered _ hmem).2
  have hstep : m.step (.account k) =
      {m with stats := m.stats.raise p (.counted p.outcome), inFlight := m.inFlight.eraseIdx k} := by
    simp only [Machine.step, hk]
  generalize m.step (.account k) = m' at hstep
  have hcounted := fun q i e => counted_raise m' (by rw [hstep]) hcpu (by rw [hstep]) hw q i e
  have hpending := fun q i o pick => pending_eraseIdx m' hk (by rw [hstep]) q i o pick
  have hreceived : ∀ q i o, m'.received q i o = m.received q i o := by
    intro q i o
    unfold Machine.received
    rw [hcounted, hpending]
    simp only [Entry.counted.injEq, and_true, eq_comm]
    omega
  have hread : m'.reading = m.reading := by rw [hstep]
  have hhist : m'.history = m.history := by rw [hstep]
  refine ⟨?_, ?_, ?_, ?_, ?_, ?_⟩
  · intro x hx
    rw [hstep] at hx ⊢
    exact h.numbered x (List.mem_of_mem_eraseIdx hx)
  · intro q i
    simp only [hreceived]
    rw [hcounted, if_neg (by simp), Nat.add_zero]
    exact h.conserved q i
  · rw [hhist]
    exact h.wellFormed
  · rw [hhist]
    exact h.grows
  · intro i hr
    rw [hhist]
    rw [hread] at hr
    exact (h.bounded i hr).mono fun q o => (hreceived q i o).ge
  · intro i r hr hlt
    rw [hread] at hr
    obtain ⟨l, hl, hbelow⟩ := h.follows i r hr hlt
    refine ⟨l, ⟨hl.total, hl.read, fun q c hc hle => ?_, fun q o => ?_, ?_⟩, by rw [hhist]; exact hbelow⟩
    · have hold := hl.unread q c hc hle
      rw [hpending] at hold
      rw [hcounted, ← hold]
      by_cases hkey : i = p.hook ∧ some c = p.outcome
      · -- The packet moves from one side of the sum to the other: it is in the total.
        obtain ⟨rfl, hout⟩ := hkey
        have hbum : p.isBum := by rw [Packet.isBum, ← hout]; simpa using hc
        have hin := hwhole hbum r hr (by
          rw [← hout, Reading.within, Bool.and_eq_true, decide_eq_true_eq, decide_eq_true_eq]
          exact ⟨hlt, hle⟩)
        have hraised : p.hook = p.hook ∧ Entry.counted (some c) = .counted p.outcome := ⟨rfl, by rw [hout]⟩
        have hmoved : p.hook = p.hook ∧ p.outcome = some c ∧ decide (n < r.marks p.hook) = true :=
          ⟨rfl, hout.symm, decide_eq_true hin⟩
        rw [if_pos hraised, if_pos hmoved]
        omega
      · rw [if_neg fun hc' => hkey ⟨hc'.1, Entry.counted.inj hc'.2⟩,
          if_neg fun hc' => hkey ⟨hc'.1.symm, hc'.2.1.symm⟩]
        omega
    · rw [hreceived]
      exact hl.le q o
    · rw [hstep]
      exact hl.mark

/-- What the reader adds up is what the CPUs have counted. -/
theorem readAggregate_get {hook : Fin 2} {e : Entry} {v : ObservationCounters} (hv : m.readAggregate hook e = .ok v)
    (q : Quantity) : v.get q = m.counted q hook e := by
  unfold Machine.readAggregate at hv
  unfold Machine.counted
  generalize m.cpus = n at hv
  induction n generalizing v with
  | zero =>
    obtain rfl := Except.ok.inj hv
    cases q <;> rfl
  | succ n ih =>
    rw [List.range_succ, List.foldlM_append, bind_eq_ok] at hv
    obtain ⟨sum, hsum, hv⟩ := hv
    simp only [List.foldlM_cons, List.foldlM_nil, bind_pure] at hv
    rw [Finset.sum_range_succ, ← ih hsum]
    unfold ObservationCounters.checkedAdd at hv
    split at hv
    · split at hv
      · obtain rfl := Except.ok.inj hv
        cases q <;> rfl
      · cases hv
    · cases hv

/-- The keys are read in the order of their places. -/
theorem place_of_key {position : Nat} {hook : Fin 2} {e : Entry} (h : observationKeys[position]? = some (hook, e)) :
    place hook e = position := by
  have hlt : position < 16 := (List.getElem?_eq_some_iff.mp h).1
  have hall : ∀ k : Fin 16, ∀ x ∈ observationKeys[k.val]?, place x.1 x.2 = k.val := by decide
  exact hall ⟨position, hlt⟩ (hook, e) h

theorem place_total_lt (i : Fin 2) (c : Fin 6) : place i .total < place i (.counted (some c)) := by
  simp only [place, Entry.slot]
  omega

theorem place_lt (i : Fin 2) (c : Fin 6) : place i (.counted (some c)) < 16 := by
  simp only [place, Entry.slot]
  omega

theorem begin (h : Accounted m) (nowNs : Nat) : Accounted (m.step (.begin nowNs)) :=
  idle h.numbered h.conserved h.wellFormed h.grows (fun _ hr => by rw [← Option.some.inj hr]) h.below_received

/-- A class is read when no packet of the total is missing from it. -/
theorem follows_read {r : Reading} {i : Fin 2} {l : Ledger} {hook : Fin 2} {e : Entry}
    {v : ObservationCounters} (hkey : observationKeys[r.position]? = some (hook, e)) (hl : Follows m r i l)
    (hv : m.readAggregate hook e = .ok v) (hother : ¬(i = hook ∧ e = .total))
    (hwhole : ∀ x ∈ m.inFlight, x.2.isBum → (hook, e) = (x.2.hook, Entry.counted x.2.outcome) →
      ¬x.1 < r.marks x.2.hook) :
    Follows {m with reading := some (Machine.Reading.record r hook e v m.arrived)}
      (Machine.Reading.record r hook e v m.arrived) i l where
  total := by
    intro q
    rw [← hl.total q]
    exact congrArg (ObservationCounters.get · q) (if_neg fun hc => hother ⟨hc.1, hc.2.symm⟩)
  read := by
    intro q c hc hlt
    by_cases hsame : i = hook ∧ Entry.counted (some c) = e
    · obtain ⟨rfl, rfl⟩ := hsame
      have hplace := place_of_key hkey
      have hnone : m.pending q i (some c) (· < r.marks i) = 0 := by
        refine List.sum_eq_zero fun w hw => ?_
        obtain ⟨x, hx, rfl⟩ := List.mem_map.mp hw
        refine if_neg fun ⟨hi, ho, hmark⟩ => ?_
        refine hwhole x hx ?_ (by rw [hi, ho]) (by rw [hi]; exact of_decide_eq_true hmark)
        rw [Packet.isBum, ho]
        simpa using hc
      have hunread := hl.unread q c hc hplace.ge
      rw [hnone, Nat.add_zero, ← readAggregate_get hv q] at hunread
      rw [← hunread]
      exact congrArg (ObservationCounters.get · q) (if_pos ⟨rfl, rfl⟩)
    · have hold : place i (.counted (some c)) < r.position := by
        refine Nat.lt_of_le_of_ne (Nat.le_of_lt_succ hlt) fun heq => hsame ?_
        have hplace := (place_of_key hkey).trans heq.symm
        unfold place at hplace
        cases e with
        | total =>
          simp only [Entry.slot] at hplace
          omega
        | counted o =>
          cases o with
          | none =>
            simp only [Entry.slot] at hplace
            omega
          | some c' =>
            simp only [Entry.slot] at hplace
            have h1 := c.isLt
            have h2 := c'.isLt
            exact ⟨Fin.ext (by omega), by rw [show c = c' from Fin.ext (by omega)]⟩
      rw [← hl.read q c hc hold]
      exact congrArg (ObservationCounters.get · q) (if_neg hsame)
  unread := by
    intro q c hc hle
    have hmark : (Machine.Reading.record r hook e v m.arrived).marks i = r.marks i := if_neg hother
    rw [hmark]
    exact hl.unread q c hc ((Nat.le_succ _).trans hle)
  le := hl.le
  mark := by
    have hmark : (Machine.Reading.record r hook e v m.arrived).marks i = r.marks i := if_neg hother
    rw [hmark]
    exact hl.mark

/-- Reading a total opens a ledger: everything that has arrived. -/
theorem follows_total (h : Accounted m) {r : Reading} {i : Fin 2} {v : ObservationCounters}
    (hkey : observationKeys[r.position]? = some (i, .total)) (hv : m.readAggregate i .total = .ok v) :
    Follows {m with reading := some (Machine.Reading.record r i .total v m.arrived)}
      (Machine.Reading.record r i .total v m.arrived) i (m.received · i ·) where
  total := by
    intro q
    rw [← h.conserved q i, ← readAggregate_get hv q]
    exact congrArg (ObservationCounters.get · q) (if_pos ⟨rfl, rfl⟩)
  read := by
    intro q c hc hlt
    have hplace := place_of_key hkey
    have := place_total_lt i c
    have hlt : place i (.counted (some c)) < r.position + 1 := hlt
    omega
  unread := by
    intro q c hc _
    have hmark : (Machine.Reading.record r i .total v m.arrived).marks i = m.arrived := if_pos ⟨rfl, rfl⟩
    rw [hmark]
    unfold Machine.received
    congr 1
    unfold Machine.pending
    congr 1
    refine List.map_congr_left fun x hx => ?_
    simp only [decide_eq_true (h.numbered x hx).1]
  le := fun q o => le_rfl
  mark := by
    have hmark : (Machine.Reading.record r i .total v m.arrived).marks i = m.arrived := if_pos ⟨rfl, rfl⟩
    rw [hmark]

theorem read (h : Accounted m) (hwhole : Whole m .read) : Accounted (m.step .read) := by
  unfold Machine.step
  cases hr : m.reading with
  | none => exact h
  | some r =>
    dsimp only
    cases hkey : observationKeys[r.position]? with
    | none => exact h
    | some key =>
      obtain ⟨hook, e⟩ := key
      dsimp only
      have hplace := place_of_key hkey
      cases hv : m.readAggregate hook e with
      | error _ => exact idle h.numbered h.conserved h.wellFormed h.grows (fun _ hr => by cases hr) h.below_received
      | ok v =>
        refine ⟨h.numbered, h.conserved, h.wellFormed, h.grows, fun i hbefore => ?_, fun i r' hr' hlt => ?_⟩
        · refine h.bounded i fun r' hr' => ?_
          obtain rfl := Option.some.inj (hr.symm.trans hr')
          exact (Nat.le_succ _).trans (hbefore _ rfl)
        · obtain rfl := Option.some.inj hr'
          have hlt : place i .total < r.position + 1 := hlt
          by_cases hopen : i = hook ∧ e = .total
          · obtain ⟨rfl, rfl⟩ := hopen
            refine ⟨_, follows_total h hkey hv, h.bounded i fun r' hr' => ?_⟩
            obtain rfl := Option.some.inj (hr.symm.trans hr')
            exact hplace.ge
          · have hearlier : place i .total < r.position := by
              refine Nat.lt_of_le_of_ne (Nat.le_of_lt_succ hlt) fun heq => hopen ?_
              have hsame := hplace.trans heq.symm
              cases e with
              | total =>
                simp only [place, Entry.slot] at hsame
                exact ⟨Fin.ext (by omega), rfl⟩
              | counted o =>
                cases o with
                | none =>
                  simp only [place, Entry.slot] at hsame
                  omega
                | some c =>
                  simp only [place, Entry.slot] at hsame
                  omega
            obtain ⟨l, hl, hbelow⟩ := h.follows i r hr hearlier
            refine ⟨l, follows_read hkey hl hv hopen fun x hx hbum hsame => ?_, hbelow⟩
            exact hwhole r hr x hx hbum (hkey.trans (congrArg some hsame))

/-- The sample of a finished reading shows the ledgers of its hooks. -/
theorem shows_sample {r : Reading} {i : Fin 2} {l : Ledger} (hl : Follows m r i l) (hdone : r.position = 16)
    (identity : RateIdentity) (unixMs : Nat) : Shows ((Machine.Reading.sample r identity unixMs).hooks i) l :=
  fun q => ⟨hl.total q, fun c hc => hl.read q c hc (by rw [hdone]; exact place_lt i c)⟩

theorem finish (h : Accounted m) (unixMs : Nat) : Accounted (m.step (.finish unixMs)) := by
  unfold Machine.step
  cases hr : m.reading with
  | none => exact h
  | some r =>
    dsimp only
    by_cases hdone : r.position = 16
    · rw [if_pos hdone]
      have hledger : ∀ i, ∃ l, Follows m r i l ∧ Below m.history.samples i l := fun i =>
        h.follows i r hr (by rw [hdone]; exact (place_total_lt i 0).trans (place_lt i 0))
      refine idle h.numbered h.conserved (h.wellFormed.insert _) ?_ (fun _ hr => by cases hr) fun i => ?_
      · obtain ⟨-, -, hsamples, -⟩ | ⟨error, -, hcleared⟩ :=
          RateHistory.insert_cases m.history (Machine.Reading.sample r m.history.identity unixMs)
        · rw [hsamples]
          refine List.Pairwise.sublist (RateHistory.push_sublist _ _)
            (List.pairwise_append.mpr ⟨h.grows, List.pairwise_singleton _ _, fun a ha b hb i => ?_⟩)
          obtain ⟨l, hl, hbelow⟩ := hledger i
          obtain ⟨k, hk, hle⟩ := hbelow a ha
          rw [List.mem_singleton.mp hb]
          exact ⟨k, l, hk, shows_sample hl hdone _ _, hle⟩
        · rw [hcleared]
          exact .nil
      · intro s hs
        obtain ⟨l, hl, hbelow⟩ := hledger i
        obtain ⟨-, -, hsamples, -⟩ | ⟨error, -, hcleared⟩ :=
          RateHistory.insert_cases m.history (Machine.Reading.sample r m.history.identity unixMs)
        · rw [hsamples] at hs
          obtain hs | hs := List.mem_append.mp ((RateHistory.push_sublist _ _).subset hs)
          · exact hbelow.mono hl.le s hs
          · rw [List.mem_singleton.mp hs]
            exact ⟨l, shows_sample hl hdone _ _, hl.le⟩
        · rw [hcleared] at hs
          exact absurd hs List.not_mem_nil
    · rw [if_neg hdone]
      exact h

theorem start (identity : RateIdentity) (startedNs cpus : Nat) : Accounted (.start identity startedNs cpus) := by
  refine idle (fun _ hx => absurd hx List.not_mem_nil) (fun q i => ?_) (RateHistory.wellFormed_new _ _) .nil
    (fun _ hr => by cases hr) fun i s hs => absurd hs List.not_mem_nil
  have hzero : ∀ e, (Machine.start identity startedNs cpus).counted q i e = 0 := fun e =>
    Finset.sum_eq_zero fun cpu _ => by cases q <;> rfl
  have hnone : ∀ o, (Machine.start identity startedNs cpus).received q i o = 0 := fun o => by
    unfold Machine.received
    rw [hzero]
    rfl
  rw [hzero]
  simp only [hnone, Finset.sum_const_zero]

theorem step (h : Accounted m) (s : Step) (hwhole : Whole m s) : Accounted (m.step s) := by
  cases s with
  | arrive p =>
    by_cases hcpu : p.cpu < m.cpus
    · exact h.arrive hcpu hwhole
    · rw [show m.step (.arrive p) = m from if_neg hcpu]
      exact h
  | account k =>
    cases hk : m.inFlight[k]? with
    | none =>
      rw [show m.step (.account k) = m by simp only [Machine.step, hk]]
      exact h
    | some x =>
      obtain ⟨n, p⟩ := x
      obtain ⟨hw, hin⟩ := hwhole (n, p) hk
      exact h.account hk hw hin
  | begin nowNs => exact h.begin nowNs
  | read => exact h.read hwhole
  | finish unixMs => exact h.finish unixMs

/-- Every run that counts its packets whole accounts for its samples. -/
theorem run (identity : RateIdentity) (startedNs cpus : Nat) (steps : List Step)
    (hwhole : interleaving.Obeys Whole (.start identity startedNs cpus) steps) :
    Accounted (interleaving.run (.start identity startedNs cpus, []) steps).1 :=
  interleaving.run_invariant_under (fun m _ => Accounted m) (fun _ _ s hs h => h.step s hs) _ steps hwhole
    (start identity startedNs cpus)

end Accounted

end NetworkLoop.Observation
