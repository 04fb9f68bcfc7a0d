import Mathlib

/-! Programs of labelled steps, of which one may be struck.

Every step that touches the outside has a site. A strike names one site and what
happens there: the step fails with nothing done, or the process stops just before
it. A step may also refuse by itself. `Meets` is the triple for such programs: what
holds at the end, and what holds wherever the program stops; its rules follow the
ways a program is put together. A program that never refuses runs to its end when it
is not struck (`Meets.unstruck`), and stops where it is struck if it gets there
(`Meets.struck_at`). `Ends` is the same without the stops. -/
namespace NetworkLoop.Library

inductive Fault where
  | failure | crash
  deriving DecidableEq, Repr

/-- Why a program stopped before its end. -/
inductive Cause (ε : Type) where
  | refusal (error : ε)
  | fault (fault : Fault)
  deriving DecidableEq, Repr

inductive Outcome (σ S ε α : Type) where
  | done (value : α) (state : S)
  | stopped (cause : Cause ε) (site : σ) (state : S)

/-- Given the strike and the state. -/
def Program (σ S ε α : Type) : Type := Option (Fault × σ) → S → Outcome σ S ε α

namespace Program
variable {σ S ε ε' α β : Type}

instance : Monad (Program σ S ε) where
  pure a := fun _ s => .done a s
  bind p f := fun strike s =>
    match p strike s with
    | .done a s' => f a strike s'
    | .stopped cause site s' => .stopped cause site s'

/-- What the strike does at a site. -/
def hits [DecidableEq σ] (strike : Option (Fault × σ)) (site : σ) : Option Fault :=
  strike.bind fun hit => if hit.2 = site then some hit.1 else none

theorem hits_eq_some [DecidableEq σ] {strike : Option (Fault × σ)} {site : σ} {f : Fault}
    (h : hits strike site = some f) : strike = some (f, site) := by
  unfold hits at h
  obtain ⟨⟨g, site'⟩, rfl, hhit⟩ := Option.bind_eq_some_iff.mp h
  by_cases heq : site' = site
  · rw [if_pos heq] at hhit
    cases hhit
    rw [heq]
  · rw [if_neg heq] at hhit
    cases hhit

/-- One step: it is struck, or it refuses and leaves the state, or it is done. -/
def step [DecidableEq σ] (site : σ) (act : S → Except ε (α × S)) : Program σ S ε α := fun strike s =>
  match hits strike site with
  | some f => .stopped (.fault f) site s
  | none =>
    match act s with
    | .error e => .stopped (.refusal e) site s
    | .ok (a, s') => .done a s'

/-- A step that only looks. -/
def look [DecidableEq σ] (site : σ) (see : S → Except ε α) : Program σ S ε α :=
  step site fun s => (see s).map fun a => (a, s)

/-- A step that only changes the state. -/
def perform [DecidableEq σ] (site : σ) (change : S → Except ε S) : Program σ S ε Unit :=
  step site fun s => (change s).map fun s' => ((), s')

/-- A computation that touches nothing outside. -/
def require (site : σ) (x : Except ε α) : Program σ S ε α := fun _ s =>
  match x with
  | .error e => .stopped (.refusal e) site s
  | .ok a => .done a s

/-- Clean up after an error, by the site it came from. A crash leaves no time for it. -/
def protect (p : Program σ S ε α) (cleanup : σ → S → S) : Program σ S ε α := fun strike s =>
  match p strike s with
  | .done a s' => .done a s'
  | .stopped (.fault .crash) site s' => .stopped (.fault .crash) site s'
  | .stopped cause site s' => .stopped cause site (cleanup site s')

def Cause.mapError (f : ε → ε') : Cause ε → Cause ε'
  | .refusal e => .refusal (f e)
  | .fault hit => .fault hit

def mapError (f : ε → ε') (p : Program σ S ε α) : Program σ S ε' α := fun strike s =>
  match p strike s with
  | .done a s' => .done a s'
  | .stopped cause site s' => .stopped (Cause.mapError f cause) site s'

/-- `while let Some(body) = next(a) { a = body }`, for at most `fuel` rounds. -/
def loop (next : α → Option (Program σ S ε α)) (exhausted : Program σ S ε α) : Nat → α → Program σ S ε α
  | fuel, a =>
    match next a with
    | none => pure a
    | some body =>
      match fuel with
      | 0 => exhausted
      | fuel + 1 => body >>= loop next exhausted fuel

theorem loop_none {next : α → Option (Program σ S ε α)} {exhausted : Program σ S ε α} {a : α} (h : next a = none)
    (fuel : Nat) : loop next exhausted fuel a = pure a := by
  unfold loop
  rw [h]

theorem loop_some {next : α → Option (Program σ S ε α)} {exhausted body : Program σ S ε α} {a : α}
    (h : next a = some body) (fuel : Nat) : loop next exhausted (fuel + 1) a = body >>= loop next exhausted fuel := by
  rw [loop]
  simp only [h]

/-! ### Triples -/

/-- From a state in `P` the program ends in `Q`, or stops in `I`: where it was struck,
or where it refused. -/
def Meets (P : S → Prop) (p : Program σ S ε α) (Q : α → S → Prop) (I : Cause ε → σ → S → Prop) : Prop :=
  ∀ strike s, P s →
    match p strike s with
    | .done a s' => Q a s'
    | .stopped (.refusal e) site s' => I (.refusal e) site s'
    | .stopped (.fault f) site s' => strike = some (f, site) ∧ I (.fault f) site s'

variable {P P' : S → Prop} {p : Program σ S ε α} {Q Q' : α → S → Prop} {R : β → S → Prop}
  {I I' : Cause ε → σ → S → Prop} {site : σ}

theorem Meets.mono (h : Meets P p Q I) (hP : ∀ s, P' s → P s) (hQ : ∀ a s, Q a s → Q' a s)
    (hI : ∀ cause site s, I cause site s → I' cause site s) : Meets P' p Q' I' := by
  intro strike s hs
  have := h strike s (hP s hs)
  split at this
  · exact hQ _ _ this
  · exact hI _ _ _ this
  · exact ⟨this.1, hI _ _ _ this.2⟩

/-- A fact about the first state may be assumed from the outside. -/
theorem Meets.intro (h : ∀ s, P s → Meets (· = s) p Q I) : Meets P p Q I :=
  fun strike s hs => h s hs strike s rfl

theorem Meets.done (h : Meets P p Q I) {strike : Option (Fault × σ)} {s s' : S} {a : α} (hs : P s)
    (hrun : p strike s = .done a s') : Q a s' := by
  have := h strike s hs
  rwa [hrun] at this

theorem Meets.stopped (h : Meets P p Q I) {strike : Option (Fault × σ)} {s s' : S} {cause : Cause ε} (hs : P s)
    (hrun : p strike s = .stopped cause site s') : I cause site s' := by
  have := h strike s hs
  rw [hrun] at this
  cases cause with
  | refusal e => exact this
  | fault f => exact this.2

/-- Faults happen where the strike says. -/
theorem Meets.struck (h : Meets P p Q I) {strike : Option (Fault × σ)} {s s' : S} {f : Fault} (hs : P s)
    (hrun : p strike s = .stopped (.fault f) site s') : strike = some (f, site) := by
  have := h strike s hs
  rw [hrun] at this
  exact this.1

/-- **A program that never refuses runs to its end when it is not struck.** -/
theorem Meets.unstruck (h : Meets P p Q I) (hI : ∀ e site s, ¬I (.refusal e) site s) {s : S} (hs : P s) :
    ∃ a s', p none s = .done a s' ∧ Q a s' := by
  have := h none s hs
  cases hrun : p none s with
  | done a s' =>
    rw [hrun] at this
    exact ⟨a, s', rfl, this⟩
  | stopped cause site s' =>
    rw [hrun] at this
    cases cause with
    | refusal e => exact absurd this (hI e site s')
    | fault f => cases this.1

theorem Meets.pure {a : α} (h : ∀ s, P s → Q a s) : Meets P (pure a : Program σ S ε α) Q I :=
  fun _ s hs => h s hs

theorem Meets.bind {f : α → Program σ S ε β} (hp : Meets P p Q I) (hf : ∀ a, Meets (Q a) (f a) R I) :
    Meets P (p >>= f) R I := by
  intro strike s hs
  have hfirst := hp strike s hs
  show match (match p strike s with
    | .done a s' => f a strike s'
    | .stopped cause site s' => .stopped cause site s' : Outcome σ S ε β) with
    | .done b s' => R b s'
    | .stopped (.refusal e) site s' => I (.refusal e) site s'
    | .stopped (.fault hit) site s' => strike = some (hit, site) ∧ I (.fault hit) site s'
  cases hrun : p strike s with
  | done a s' =>
    rw [hrun] at hfirst
    exact hf a strike s' hfirst
  | stopped cause site s' =>
    rw [hrun] at hfirst
    cases cause <;> exact hfirst

theorem Meets.step [DecidableEq σ] {act : S → Except ε (α × S)} (hfault : ∀ f s, P s → I (.fault f) site s)
    (hact : ∀ s, P s → match act s with
      | .error e => I (.refusal e) site s
      | .ok (a, s') => Q a s') : Meets P (step site act) Q I := by
  intro strike s hs
  unfold Program.step
  cases hhit : hits strike site with
  | some f => exact ⟨hits_eq_some hhit, hfault f s hs⟩
  | none =>
    have := hact s hs
    cases hrun : act s with
    | error e => rwa [hrun] at this
    | ok r => rwa [hrun] at this

theorem Meets.look [DecidableEq σ] {see : S → Except ε α} (hfault : ∀ f s, P s → I (.fault f) site s)
    (hrefuse : ∀ s e, P s → see s = .error e → I (.refusal e) site s)
    (hsee : ∀ s a, P s → see s = .ok a → Q a s) : Meets P (look site see) Q I := by
  refine Meets.step hfault fun s hs => ?_
  cases hrun : see s with
  | error e => exact hrefuse s e hs hrun
  | ok a => exact hsee s a hs hrun

theorem Meets.perform [DecidableEq σ] {change : S → Except ε S} {Q : Unit → S → Prop}
    (hfault : ∀ f s, P s → I (.fault f) site s) (hrefuse : ∀ s e, P s → change s = .error e → I (.refusal e) site s)
    (hchange : ∀ s s', P s → change s = .ok s' → Q () s') : Meets P (perform site change) Q I := by
  refine Meets.step hfault fun s hs => ?_
  cases hrun : change s with
  | error e => exact hrefuse s e hs hrun
  | ok s' => exact hchange s s' hs hrun

theorem Meets.require {x : Except ε α} (hrefuse : ∀ s e, P s → x = .error e → I (.refusal e) site s)
    (hok : ∀ s a, P s → x = .ok a → Q a s) : Meets P (require site x) Q I := by
  intro strike s hs
  unfold Program.require
  cases x with
  | error e => exact hrefuse s e hs rfl
  | ok a => exact hok s a hs rfl

theorem Meets.protect {cleanup : σ → S → S} (h : Meets P p Q I)
    (hcrash : ∀ site s, I (.fault .crash) site s → I' (.fault .crash) site s)
    (hclean : ∀ cause site s, cause ≠ .fault .crash → I cause site s → I' cause site (cleanup site s)) :
    Meets P (protect p cleanup) Q I' := by
  intro strike s hs
  have hrun := h strike s hs
  unfold Program.protect
  cases hp : p strike s with
  | done a s' => rwa [hp] at hrun
  | stopped cause site s' =>
    rw [hp] at hrun
    cases cause with
    | refusal e => exact hclean _ _ _ (by simp) hrun
    | fault f =>
      cases f with
      | failure => exact ⟨hrun.1, hclean _ _ _ (by simp) hrun.2⟩
      | crash => exact ⟨hrun.1, hcrash _ _ hrun.2⟩

theorem Meets.mapError {f : ε → ε'} {I' : Cause ε' → σ → S → Prop} (h : Meets P p Q I)
    (hI : ∀ cause site s, I cause site s → I' (Cause.mapError f cause) site s) : Meets P (mapError f p) Q I' := by
  intro strike s hs
  have hrun := h strike s hs
  unfold Program.mapError
  cases hp : p strike s with
  | done a s' => rwa [hp] at hrun
  | stopped cause site s' =>
    rw [hp] at hrun
    cases cause with
    | refusal e => exact hI _ _ _ hrun
    | fault hit => exact ⟨hrun.1, hI _ _ _ hrun.2⟩

/-- The loop rule: every round keeps the invariant and lowers the number of rounds
that are left, and with none left there is no next round. -/
theorem Meets.loop {f : α → Option (Program σ S ε α)} {x : Program σ S ε α} {J : Nat → α → S → Prop}
    (hround : ∀ left a body, f a = some body → Meets (J (left + 1) a) body (J left) I)
    (hlast : ∀ a s, J 0 a s → f a = none) (fuel left : Nat) (hfuel : left ≤ fuel) (a : α) :
    Meets (J left a) (loop f x fuel a) (fun a' s => f a' = none ∧ ∃ k, J k a' s) I := by
  induction fuel generalizing left a with
  | zero =>
    obtain rfl : left = 0 := by omega
    intro strike s hs
    unfold Program.loop
    rw [hlast a s hs]
    exact ⟨hlast a s hs, 0, hs⟩
  | succ fuel ih =>
    unfold Program.loop
    cases hnext : f a with
    | none => exact Meets.pure fun s hs => ⟨hnext, left, hs⟩
    | some body =>
      cases left with
      | zero =>
        intro strike s hs
        rw [hlast a s hs] at hnext
        cases hnext
      | succ left => exact Meets.bind (hround left a body hnext) fun a' => ih left (by omega) a'

/-! ### Partial triples -/

/-- From a state in `P` the program ends in `Q`, if it ends. -/
def Ends (P : S → Prop) (p : Program σ S ε α) (Q : α → S → Prop) : Prop :=
  ∀ strike s a s', P s → p strike s = .done a s' → Q a s'

theorem Meets.ends (h : Meets P p Q I) : Ends P p Q := fun _ _ _ _ hs hrun => h.done hs hrun

theorem Ends.mono (h : Ends P p Q) (hP : ∀ s, P' s → P s) (hQ : ∀ a s, Q a s → Q' a s) : Ends P' p Q' :=
  fun strike s a s' hs hrun => hQ a s' (h strike s a s' (hP s hs) hrun)

theorem Ends.intro (h : ∀ s, P s → Ends (· = s) p Q) : Ends P p Q := fun strike s a s' hs hrun => h s hs strike s a s' rfl hrun

theorem Ends.pure {a : α} (h : ∀ s, P s → Q a s) : Ends P (pure a : Program σ S ε α) Q := by
  intro strike s b s' hs hrun
  cases hrun
  exact h s hs

theorem Ends.bind {f : α → Program σ S ε β} (hp : Ends P p Q) (hf : ∀ a, Ends (Q a) (f a) R) : Ends P (p >>= f) R := by
  intro strike s b s' hs hrun
  change (match p strike s with
    | .done a t => f a strike t
    | .stopped cause site t => .stopped cause site t : Outcome σ S ε β) = _ at hrun
  cases hfirst : p strike s with
  | done a t =>
    rw [hfirst] at hrun
    exact hf a strike t b s' (hp strike s a t hs hfirst) hrun
  | stopped cause site t =>
    rw [hfirst] at hrun
    cases hrun

theorem Ends.any : Ends P p (fun _ _ => True) := fun _ _ _ _ _ _ => trivial

/-- A program whose first part never ends. -/
theorem Ends.bind_never {f : α → Program σ S ε β} (hp : Ends P p fun _ _ => False) : Ends P (p >>= f) R :=
  Ends.bind hp fun _ _ _ _ _ h => h.elim

theorem Ends.step [DecidableEq σ] {act : S → Except ε (α × S)} (h : ∀ s a s', P s → act s = .ok (a, s') → Q a s') :
    Ends P (step site act) Q := by
  intro strike s a s' hs hrun
  unfold Program.step at hrun
  split at hrun
  · cases hrun
  · split at hrun
    · cases hrun
    · rename_i hact
      cases hrun
      exact h s a s' hs hact

theorem Ends.look [DecidableEq σ] {see : S → Except ε α} (h : ∀ s a, P s → see s = .ok a → Q a s) :
    Ends P (look site see) Q := by
  refine Ends.step fun s a s' hs hact => ?_
  cases hsee : see s with
  | error e =>
    rw [hsee] at hact
    cases hact
  | ok b =>
    rw [hsee] at hact
    cases hact
    exact h s a hs hsee

theorem Ends.require {x : Except ε α} (h : ∀ s a, P s → x = .ok a → Q a s) : Ends P (require site x) Q := by
  intro strike s a s' hs hrun
  unfold Program.require at hrun
  cases x with
  | error e => cases hrun
  | ok b =>
    cases hrun
    exact h s _ hs rfl

theorem Ends.mapError {f : ε → ε'} (h : Ends P p Q) : Ends P (mapError f p) Q := by
  intro strike s a s' hs hrun
  unfold Program.mapError at hrun
  split at hrun
  · rename_i hp
    cases hrun
    exact h strike s _ _ hs hp
  · cases hrun

/-! ### Being struck -/

/-- Struck at the site, the program does not end. -/
def HitAt (site : σ) (P : S → Prop) (p : Program σ S ε α) : Prop :=
  ∀ f s a s', P s → p (some (f, site)) s ≠ .done a s'

theorem HitAt.intro (h : ∀ s, P s → HitAt site (· = s) p) : HitAt site P p :=
  fun f s a s' hs => h s hs f s a s' rfl

theorem HitAt.step [DecidableEq σ] {act : S → Except ε (α × S)} : HitAt site P (step site act) := by
  intro f s a s' _ hrun
  simp [Program.step, hits] at hrun

theorem HitAt.left {f : α → Program σ S ε β} (h : HitAt site P p) : HitAt site P (p >>= f) := by
  intro hit s b s' hs hrun
  change (match p (some (hit, site)) s with
    | .done a t => f a (some (hit, site)) t
    | .stopped cause at_ t => .stopped cause at_ t : Outcome σ S ε β) = _ at hrun
  cases hfirst : p (some (hit, site)) s with
  | done a t => exact h hit s a t hs hfirst
  | stopped cause at_ t =>
    rw [hfirst] at hrun
    cases hrun

theorem HitAt.right {f : α → Program σ S ε β} (hp : Ends P p Q) (h : ∀ a, HitAt site (Q a) (f a)) :
    HitAt site P (p >>= f) := by
  intro hit s b s' hs hrun
  change (match p (some (hit, site)) s with
    | .done a t => f a (some (hit, site)) t
    | .stopped cause at_ t => .stopped cause at_ t : Outcome σ S ε β) = _ at hrun
  cases hfirst : p (some (hit, site)) s with
  | done a t =>
    rw [hfirst] at hrun
    exact h a hit t b s' (hp _ s a t hs hfirst) hrun
  | stopped cause at_ t =>
    rw [hfirst] at hrun
    cases hrun

theorem HitAt.mapError {f : ε → ε'} (h : HitAt site P p) : HitAt site P (mapError f p) := by
  intro hit s a s' hs hrun
  unfold Program.mapError at hrun
  split at hrun
  · rename_i hp
    exact h hit s _ _ hs hp
  · cases hrun

theorem HitAt.protect {cleanup : σ → S → S} (h : HitAt site P p) : HitAt site P (protect p cleanup) := by
  intro hit s a s' hs hrun
  unfold Program.protect at hrun
  split at hrun
  · rename_i hp
    exact h hit s _ _ hs hp
  · cases hrun
  · cases hrun

theorem HitAt.loop {next : α → Option (Program σ S ε α)} {exhausted body : Program σ S ε α} {a : α} {fuel : Nat}
    (hnext : next a = some body) (hfuel : fuel ≠ 0) (h : HitAt site P body) : HitAt site P (loop next exhausted fuel a) := by
  obtain ⟨fuel, rfl⟩ := Nat.exists_eq_succ_of_ne_zero hfuel
  rw [Nat.succ_eq_add_one, loop_some hnext]
  exact h.left

/-- **A program that never refuses stops where it is struck**, if it gets there. -/
theorem Meets.struck_at (h : Meets P p Q I) (hI : ∀ e at_ s, ¬I (.refusal e) at_ s) (hhit : HitAt site P p) (f : Fault) {s : S}
    (hs : P s) : ∃ s', p (some (f, site)) s = .stopped (.fault f) site s' ∧ I (.fault f) site s' := by
  have hmeets := h (some (f, site)) s hs
  cases hrun : p (some (f, site)) s with
  | done a s' => exact absurd hrun (hhit f s a s' hs)
  | stopped cause at_ s' =>
    rw [hrun] at hmeets
    cases cause with
    | refusal e => exact absurd hmeets (hI e at_ s')
    | fault g =>
      obtain ⟨heq, hI'⟩ := hmeets
      cases heq
      exact ⟨s', rfl, hI'⟩

end Program

end NetworkLoop.Library
