import Mathlib

/-! Grids of times.

A grid has a point every `period` from its origin on, and slot `k` reaches from point `k`
up to the next one. A job on a grid is due at the origin first and then at the end of the
slot of its last time (`due`): one that is late leaves out the points it has missed and
does not move the grid. The log of such a job, newest time first, is `Apart`, and so no
slot has two of its times (`Apart.once`). -/
namespace NetworkLoop.Library

structure Grid where
  origin : Nat
  period : Nat
  positive : 0 < period

namespace Grid
variable (g : Grid)

def point (k : Nat) : Nat := g.origin + k * g.period

/-- The slot of a time that is not before the origin. -/
def slot (t : Nat) : Nat := (t - g.origin) / g.period

/-- The time lies in slot `k`. -/
def Within (k t : Nat) : Prop := g.point k ≤ t ∧ t < g.point (k + 1)

instance (k : Nat) : DecidablePred (g.Within k) := fun _ => inferInstanceAs (Decidable (_ ∧ _))

variable {g} {k t : Nat}

theorem point_le_iff (h : g.origin ≤ t) : g.point k ≤ t ↔ k ≤ g.slot t := by
  rw [slot, Nat.le_div_iff_mul_le g.positive, point]
  omega

theorem within_iff (h : g.origin ≤ t) : g.Within k t ↔ g.slot t = k := by
  rw [Within, point_le_iff h, ← Nat.not_le, point_le_iff h]
  omega

theorem origin_le_point : g.origin ≤ g.point k := Nat.le_add_right _ _

theorem Within.slot_eq (h : g.Within k t) : g.slot t = k := (within_iff (origin_le_point.trans h.1)).mp h

/-- Every time from the origin on lies in its slot. -/
theorem within_slot (h : g.origin ≤ t) : g.Within (g.slot t) t := (within_iff h).mpr rfl

/-- Whole periods are counted from any point that is passed. -/
theorem slot_eq_add (h : g.point k ≤ t) : g.slot t = (t - g.point k) / g.period + k := by
  have hsplit : t - g.origin = t - g.point k + k * g.period := by
    rw [point] at h ⊢
    omega
  rw [slot, hsplit, Nat.add_mul_div_right _ _ g.positive]

/-- One period more than the whole ones since a point leads to the first point after now. -/
theorem point_catch_up (h : g.point k ≤ t) :
    g.point k + ((t - g.point k) / g.period + 1) * g.period = g.point (g.slot t + 1) := by
  rw [slot_eq_add h, point, point, Nat.add_assoc, ← Nat.add_mul]
  congr 2
  omega

/-! ### The log of a job -/

/-- When a job with this log is due. -/
def due (g : Grid) : List Nat → Nat
  | [] => g.origin
  | last :: _ => g.point (g.slot last + 1)

/-- Each time is from the origin on and in a later slot than the ones before it. -/
structure Apart (g : Grid) (log : List Nat) : Prop where
  begun : ∀ t ∈ log, g.origin ≤ t
  later : log.Pairwise fun newer older => g.slot older < g.slot newer

variable {log : List Nat}

theorem due_eq_point (g : Grid) (log : List Nat) : ∃ k, g.due log = g.point k := by
  cases log with
  | nil => exact ⟨0, by rw [due, point, Nat.zero_mul, Nat.add_zero]⟩
  | cons last rest => exact ⟨g.slot last + 1, rfl⟩

theorem origin_le_due : g.origin ≤ g.due log := by
  obtain ⟨k, hk⟩ := due_eq_point g log
  rw [hk]
  exact origin_le_point

/-- A job that is done when it is due, or later, is due next at the end of that slot. -/
theorem due_catch_up (h : g.due log ≤ t) : g.due log + ((t - g.due log) / g.period + 1) * g.period = g.due (t :: log) := by
  obtain ⟨k, hk⟩ := due_eq_point g log
  rw [hk] at h ⊢
  exact point_catch_up h

theorem apart_nil : g.Apart [] := ⟨nofun, .nil⟩

/-- A job that waits until it is due keeps its times apart. -/
theorem Apart.cons (h : g.Apart log) (ht : g.due log ≤ t) : g.Apart (t :: log) := by
  have horigin : g.origin ≤ t := origin_le_due.trans ht
  refine ⟨List.forall_mem_cons.mpr ⟨horigin, h.begun⟩, List.pairwise_cons.mpr ⟨fun older holder => ?_, h.later⟩⟩
  cases log with
  | nil => cases holder
  | cons last rest =>
    have hlast : g.slot last + 1 ≤ g.slot t := (point_le_iff horigin).mp ht
    rcases List.mem_cons.mp holder with rfl | holder
    · exact hlast
    · have holder := (List.pairwise_cons.mp h.later).1 older holder
      omega

/-- **No slot has two times of the log.** -/
theorem Apart.once (h : g.Apart log) (k : Nat) : log.countP (g.Within k) ≤ 1 := by
  have hslots : (log.map g.slot).Nodup := List.pairwise_map.mpr (h.later.imp fun hlt => hlt.ne')
  calc log.countP (g.Within k)
    _ ≤ log.countP (fun t => g.slot t == k) := List.countP_mono_left fun t _ hwithin => by
        simpa using (of_decide_eq_true hwithin).slot_eq
    _ = (log.map g.slot).count k := by
        rw [List.count_eq_countP, List.countP_map]
        rfl
    _ ≤ 1 := List.nodup_iff_count_le_one.mp hslots k

/-- A time of the last slot at which the job is not due: the slot has had its time. -/
theorem Apart.once_within (h : g.Apart log) (horigin : g.origin ≤ t) (hnow : ∀ past ∈ log, past ≤ t)
    (ht : t < g.due log) : log.countP (g.Within (g.slot t)) = 1 := by
  cases log with
  | nil => exact absurd horigin (Nat.not_le.mpr ht)
  | cons last rest =>
    have hbegun := h.begun last List.mem_cons_self
    have hstart : g.slot last ≤ g.slot t :=
      (point_le_iff horigin).mp ((within_slot hbegun).1.trans (hnow last List.mem_cons_self))
    have hend : g.slot t < g.slot last + 1 := by
      rw [← Nat.not_le, ← point_le_iff horigin]
      exact Nat.not_le.mpr ht
    have hpos : 0 < (last :: rest).countP (g.Within (g.slot t)) :=
      List.countP_pos_iff.mpr ⟨last, List.mem_cons_self, decide_eq_true ((within_iff hbegun).mpr (by omega))⟩
    have := h.once (g.slot t)
    omega

end Grid

end NetworkLoop.Library
