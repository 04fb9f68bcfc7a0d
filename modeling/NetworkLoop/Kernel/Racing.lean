import NetworkLoop.Kernel.Churn

/-! Several CPUs in `account_fingerprint`.

A CPU reads the clock, then looks the key up, then updates the entry it found or inserts
one with `BPF_NOEXIST`; the steps of several CPUs interleave. An update writes the clock
it read before the lookup, so it can write a time that is behind the one already there
(`stale_update`). `scans_grow` has the runs in which no update does: whatever the
interleaving, entries are sane and only grow from one scan to the next. -/
namespace NetworkLoop.Kernel
open Library Observation Detection

/-- Where a CPU is in `account_fingerprint`. -/
inductive Progress where
  | idle
  | timed (key : FingerprintKey) (f : Frame) (nowNs : Nat)
  | found (key : FingerprintKey) (f : Frame) (nowNs : Nat)
  | missing (key : FingerprintKey) (f : Frame) (nowNs : Nat)

/-- The clock last read, the map, and the CPUs. -/
structure Machine where
  clock : Nat
  map : FingerprintMap
  cpus : Nat → Progress

def Machine.initial : Machine := ⟨0, ∅, fun _ => .idle⟩

inductive Action where
  | read (cpu interfaceGeneration ifindex direction : Nat) (f : Frame) (nowNs : Nat)
  | lookup (cpu : Nat)
  | write (cpu : Nat)

namespace Machine

def set (s : Machine) (cpu : Nat) (progress : Progress) : Machine :=
  {s with cpus := Function.update s.cpus cpu progress}

/-- One step of one CPU, if it can make it. Nothing is evicted, so the entry that was
found is still there when it is updated. -/
def step (s : Machine) : Action → Option Machine
  | .read cpu interfaceGeneration ifindex direction f nowNs =>
    match s.cpus cpu with
    | .idle =>
      if s.clock ≤ nowNs then
        match fingerprintKey? interfaceGeneration ifindex direction f with
        | none => some s
        | some key => some ({s with clock := nowNs}.set cpu (.timed key f nowNs))
      else none
    | _ => none
  | .lookup cpu =>
    match s.cpus cpu with
    | .timed key f nowNs => some (s.set cpu (if key ∈ s.map then .found key f nowNs else .missing key f nowNs))
    | _ => none
  | .write cpu =>
    match s.cpus cpu with
    | .found key f nowNs =>
      match s.map.lookup key with
      | some value => some ({s with map := s.map.insert key (touched value nowNs f.bytes)}.set cpu .idle)
      | none => none
    | .missing key f nowNs =>
      some ({s with map := if key ∈ s.map then s.map else s.map.insert key (fresh f nowNs)}.set cpu .idle)
    | _ => none

def run (s : Machine) : List Action → Option Machine
  | [] => some s
  | a :: rest => (s.step a).bind fun s' => s'.run rest

/-- An update does not write a time behind the one that is there. -/
def timely (s : Machine) : Action → Bool
  | .write cpu =>
    match s.cpus cpu with
    | .found key _ nowNs => (s.map.lookup key).all fun value => value.lastSeenNs ≤ nowNs
    | _ => true
  | _ => true

/-- Every update of the run is in time. -/
def timelyRun (s : Machine) : List Action → Bool
  | [] => true
  | a :: rest => s.timely a && (s.step a).all fun s' => s'.timelyRun rest

/-- What a CPU carries: a time that the clock has reached, and a frame that counts. -/
def Carries (clock : Nat) : Progress → Prop
  | .idle => True
  | .timed _ f nowNs => nowNs ≤ clock ∧ 1 ≤ f.bytes ∧ f.bytes < u64Bound
  | .found _ f nowNs => nowNs ≤ clock ∧ 1 ≤ f.bytes ∧ f.bytes < u64Bound
  | .missing _ f nowNs => nowNs ≤ clock ∧ 1 ≤ f.bytes ∧ f.bytes < u64Bound

/-- The invariant: every entry is sane at the clock, and so is what the CPUs carry. -/
structure Fine (s : Machine) : Prop where
  held : s.map.HeldAt s.clock
  carries : ∀ cpu, Carries s.clock (s.cpus cpu)

/-- What was in the map is still there, and only grew. -/
def Extends (s s' : Machine) : Prop :=
  ∀ key old, s.map.lookup key = some old → ∃ new, s'.map.lookup key = some new ∧ Grown old new

theorem Extends.refl (s : Machine) : s.Extends s := fun _ old h => ⟨old, h, .refl old⟩

theorem Extends.trans {s s' s'' : Machine} (h : s.Extends s') (h' : s'.Extends s'') : s.Extends s'' := by
  intro key old hold
  obtain ⟨mid, hmid, hgrown⟩ := h key old hold
  obtain ⟨new, hnew, hgrown'⟩ := h' key mid hmid
  exact ⟨new, hnew, hgrown.trans hgrown'⟩

theorem Carries.later {clock clock' : Nat} {progress : Progress} (h : Carries clock progress) (hle : clock ≤ clock') :
    Carries clock' progress := by
  cases progress with
  | idle => trivial
  | timed key f nowNs => exact ⟨h.1.trans hle, h.2⟩
  | found key f nowNs => exact ⟨h.1.trans hle, h.2⟩
  | missing key f nowNs => exact ⟨h.1.trans hle, h.2⟩

/-- A CPU moves on, the others keep what they carry. -/
theorem Fine.set {s : Machine} (h : s.Fine) {cpu : Nat} {progress : Progress} (hcarries : Carries s.clock progress) :
    (s.set cpu progress).Fine where
  held := h.held
  carries := by
    intro other
    show Carries s.clock (Function.update s.cpus cpu progress other)
    by_cases hcpu : other = cpu
    · rwa [hcpu, Function.update_self]
    · rw [Function.update_of_ne hcpu]
      exact h.carries other

/-- An entry that is inserted, the others stay. -/
theorem Fine.insert {s : Machine} (h : s.Fine) {key : FingerprintKey} {value : FingerprintValue}
    (hvalue : Held s.clock value) : Fine {s with map := s.map.insert key value} where
  held := by
    intro key' value' hvalue'
    by_cases hkey : key' = key
    · rw [hkey, AList.lookup_insert] at hvalue'
      cases hvalue'
      exact hvalue
    · rw [AList.lookup_insert_ne hkey] at hvalue'
      exact h.held key' value' hvalue'
  carries := h.carries

theorem Extends.insert {s s' : Machine} {key : FingerprintKey} {value : FingerprintValue}
    (hmap : s'.map = s.map.insert key value) (h : ∀ old, s.map.lookup key = some old → Grown old value) : s.Extends s' := by
  intro key' old hold
  rw [hmap]
  by_cases hkey : key' = key
  · subst hkey
    exact ⟨value, AList.lookup_insert _, h old hold⟩
  · exact ⟨old, (AList.lookup_insert_ne hkey).trans hold, .refl old⟩

/-- One step keeps the invariant and lets the entries grow, if it is in time. -/
theorem Fine.step {s s' : Machine} {a : Action} (h : s.Fine) (htimely : s.timely a = true) (hstep : s.step a = some s') :
    s'.Fine ∧ s.Extends s' := by
  cases a with
  | read cpu interfaceGeneration ifindex direction f nowNs =>
    simp only [Machine.step] at hstep
    split at hstep
    · split at hstep
      · rename_i hclock
        split at hstep
        · cases hstep
          exact ⟨h, .refl s⟩
        · rename_i key hkey
          cases hstep
          have hlater : Fine {s with clock := nowNs} :=
            ⟨fun key value hvalue => (h.held key value hvalue).later hclock, fun cpu => (h.carries cpu).later hclock⟩
          have hbytes := (fingerprintKey?_spec hkey).2.2.2.2.2.2.2
          have hlength := (fingerprintKey?_isSome.mp (Option.isSome_iff_exists.mpr ⟨key, hkey⟩)).1
          exact ⟨hlater.set ⟨le_refl nowNs, by omega, hlength.trans (by decide)⟩, .refl s⟩
      · cases hstep
    · cases hstep
  | lookup cpu =>
    simp only [Machine.step] at hstep
    split at hstep
    · rename_i key f nowNs hcpu
      have hcarries := h.carries cpu
      rw [hcpu] at hcarries
      cases hstep
      refine ⟨h.set ?_, .refl s⟩
      split
      · exact hcarries
      · exact hcarries
    · cases hstep
  | write cpu =>
    simp only [Machine.step] at hstep
    have hcarries := h.carries cpu
    simp only [timely] at htimely
    split at hstep
    · rename_i key f nowNs hcpu
      rw [hcpu] at hcarries htimely
      split at hstep
      · rename_i value hvalue
        cases hstep
        obtain ⟨hpast, hbytes, -⟩ := hcarries
        dsimp only at htimely
        rw [hvalue, Option.all_some, decide_eq_true_iff] at htimely
        have hheld := (h.held key value hvalue).last
        have hgrown : Grown value (touched value nowNs f.bytes) := hheld.grown htimely
        refine ⟨(h.insert ((hheld.touched htimely hbytes).later hpast)).set trivial, .insert rfl ?_⟩
        intro old hold
        cases hvalue.symm.trans hold
        exact hgrown
      · cases hstep
    · rename_i key f nowNs hcpu
      rw [hcpu] at hcarries
      obtain ⟨hpast, hbytes, hcapped⟩ := hcarries
      cases hstep
      by_cases hmem : key ∈ s.map
      · simp only [if_pos hmem]
        exact ⟨h.set trivial, .refl s⟩
      · simp only [if_neg hmem]
        have hfresh : Held s.clock (fresh f nowNs) := ⟨(sane_fresh nowNs hbytes).later hpast, hcapped⟩
        refine ⟨(h.insert hfresh).set trivial, .insert rfl fun old hold => ?_⟩
        exact absurd (AList.lookup_isSome.mp (Option.isSome_iff_exists.mpr ⟨old, hold⟩)) hmem
    · cases hstep

/-- A run in time keeps the invariant and lets the entries grow. -/
theorem Fine.run {s s' : Machine} {actions : List Action} (h : s.Fine) (htimely : s.timelyRun actions = true)
    (hrun : s.run actions = some s') : s'.Fine ∧ s.Extends s' := by
  induction actions generalizing s with
  | nil =>
    obtain rfl := Option.some.inj hrun
    exact ⟨h, .refl s⟩
  | cons a rest ih =>
    obtain ⟨next, hstep, hrest⟩ := Option.bind_eq_some_iff.mp hrun
    rw [timelyRun, hstep, Bool.and_eq_true, Option.all_some] at htimely
    obtain ⟨hnext, hextends⟩ := h.step htimely.1 hstep
    obtain ⟨hfine, hextends'⟩ := ih hnext htimely.2 hrest
    exact ⟨hfine, hextends.trans hextends'⟩

theorem fine_initial : initial.Fine where
  held := fun key value h => by
    rw [initial, AList.lookup_empty] at h
    cases h
  carries := fun _ => trivial

theorem Extends.grownFrom {s s' : Machine} (h : s.Extends s') : s'.map.GrownFrom s.map := by
  intro key old new hold hnew
  obtain ⟨new', hnew', hgrown⟩ := h key old hold
  cases hnew.symm.trans hnew'
  exact hgrown

/-- **Two scans of a run** in which every update is in time. Every entry is sane, so that
only its key can make it invalid; none is lost and none goes back; and where both scans
are valid the window finds nothing that regressed. -/
theorem scans_grow {first second : Machine} {before after : List Action} (hfirst : initial.run before = some first)
    (hsecond : first.run after = some second) (htimely : initial.timelyRun before = true)
    (htimely' : first.timelyRun after = true) :
    (∀ e ∈ second.map.scan, e.value.firstSeenNs ≤ e.value.lastSeenNs ∧ ∀ ifindex generation,
        (validateEvidence e ifindex generation = .ok () ↔ ValidKey e.key ifindex generation)) ∧
      (∀ e ∈ first.map.scan, ∃ e' ∈ second.map.scan, e'.key = e.key ∧ e.value.packets ≤ e'.value.packets ∧
        e.value.bytes ≤ e'.value.bytes ∧ e.value.lastSeenNs ≤ e'.value.lastSeenNs) ∧
      ∀ identity : RateIdentity,
        (∀ e ∈ first.map.scan, validateEvidence e identity.ifindex identity.generation = .ok ()) →
        (∀ e ∈ second.map.scan, validateEvidence e identity.ifindex identity.generation = .ok ()) →
        NonRegressing (sortEntries first.map.scan) (sortEntries second.map.scan) := by
  obtain ⟨hfine, -⟩ := fine_initial.run htimely hfirst
  obtain ⟨hfine', hextends⟩ := hfine.run htimely' hsecond
  refine ⟨fun e he => ?_, fun e he => ?_, fun identity hvalid hvalid' => ?_⟩
  · have hheld := hfine'.held e.key e.value (mem_scan.mp he)
    exact ⟨hheld.seen, fun ifindex generation => hheld.toSane.valid_iff⟩
  · obtain ⟨value, hvalue, hgrown⟩ := hextends e.key e.value (mem_scan.mp he)
    exact ⟨⟨e.key, value⟩, mem_scan.mpr hvalue, rfl, hgrown.packets, hgrown.bytes, hgrown.last⟩
  · intro item hitem
    have hscanned : Scanned first.map identity first.map.scan := ⟨.refl _, hvalid⟩
    have hscanned' : Scanned second.map identity second.map.scan := ⟨.refl _, hvalid'⟩
    obtain ⟨delta, hok, -⟩ := entryDelta_grown hscanned hscanned' hextends.grownFrom
      ((List.perm_insertionSort _ _).mem_iff.mp hitem)
    rw [hok]
    rfl

/-- In turn: the second CPU comes when the first is done. -/
theorem scans_grow_in_turn :
    ∃ first second, initial.run [.read 0 7 2 1 untaggedFrame 5, .lookup 0, .write 0] = some first ∧
      first.run [.read 1 7 2 1 untaggedFrame 6, .lookup 1, .write 1] = some second ∧
      ∀ e ∈ second.map.scan, e.value.firstSeenNs ≤ e.value.lastSeenNs := by
  have hruns : ((initial.run [.read 0 7 2 1 untaggedFrame 5, .lookup 0, .write 0]).any fun first =>
      first.timelyRun [.read 1 7 2 1 untaggedFrame 6, .lookup 1, .write 1] &&
        (first.run [.read 1 7 2 1 untaggedFrame 6, .lookup 1, .write 1]).isSome) = true := by decide +kernel
  obtain ⟨first, hfirst, hafter⟩ := Option.any_eq_true _ _ |>.mp hruns
  rw [Bool.and_eq_true] at hafter
  obtain ⟨second, hsecond⟩ := Option.isSome_iff_exists.mp hafter.2
  have hbefore : initial.timelyRun [.read 0 7 2 1 untaggedFrame 5, .lookup 0, .write 0] = true := by decide +kernel
  have hgrow := scans_grow hfirst hsecond hbefore hafter.1
  exact ⟨first, second, hfirst, hsecond, fun e he => (hgrow.1 e he).1⟩

/-- Two CPUs see the same frame; the one that read the clock first updates last. -/
def staleRun : List Action :=
  [.read 0 7 2 1 untaggedFrame 5, .read 1 7 2 1 untaggedFrame 6, .lookup 1, .write 1, .lookup 0, .write 0]

/-- **A stale update.** The entry was last seen at 5, before it was first seen at 6, and
every report of the interface is refused, though nothing is wrong with the key. -/
theorem stale_update :
    ((initial.run staleRun).map fun s => s.map.scan.map fun e =>
        (e.value.firstSeenNs, e.value.lastSeenNs, decide (ValidKey e.key 2 7))) = some [(6, 5, true)] ∧
      ((initial.run staleRun).map fun s => FingerprintReport.build 2 7 s.map.scan) =
        some (.error (.invalidObservation "fingerprint evidence shape is invalid")) := by
  decide +kernel

end Machine

end NetworkLoop.Kernel
