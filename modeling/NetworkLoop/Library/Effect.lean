import Mathlib

/-! Programs that change a state and may fail, with what they changed left as it is.

`Meets` is their triple: what holds of the state when the program ends, and what holds
when it fails. Its rules follow the ways a program is put together. -/
namespace NetworkLoop.Library

def Effect (S ε α : Type) : Type := S → Except ε α × S

namespace Effect
variable {S ε ε' α β : Type}

instance : Monad (Effect S ε) where
  pure a := fun s => (.ok a, s)
  bind x f := fun s =>
    match x s with
    | (.ok a, s') => f a s'
    | (.error e, s') => (.error e, s')

/-- A question to the state, which it answers or refuses. -/
def ask (see : S → Except ε α) : Effect S ε α := fun s => (see s, s)

/-- Another error in the place of the first one. -/
def orElseError (x : Effect S ε α) (f : ε → ε') : Effect S ε' α := fun s =>
  match x s with
  | (.ok a, s') => (.ok a, s')
  | (.error e, s') => (.error (f e), s')

/-- Clean up after a failure. -/
def cleaning (x : Effect S ε α) (cleanup : S → S) : Effect S ε α := fun s =>
  match x s with
  | (.ok a, s') => (.ok a, s')
  | (.error e, s') => (.error e, cleanup s')

/-! ### Runs that end well -/

theorem bind_eq_ok {x : Effect S ε α} {f : α → Effect S ε β} {s s' : S} {b : β} :
    (x >>= f) s = (.ok b, s') ↔ ∃ a between, x s = (.ok a, between) ∧ f a between = (.ok b, s') := by
  show (match x s with
    | (.ok a, s') => f a s'
    | (.error e, s') => (.error e, s') : Except ε β × S) = _ ↔ _
  cases hx : x s with
  | mk result between =>
    cases result with
    | ok a => simp
    | error e => simp

theorem bind_of_ok {x : Effect S ε α} {f : α → Effect S ε β} {s s' : S} {a : α} (h : x s = (.ok a, s')) :
    (x >>= f) s = f a s' := by
  show (match x s with
    | (.ok a, s') => f a s'
    | (.error e, s') => (.error e, s') : Except ε β × S) = _
  rw [h]

theorem bind_of_error {x : Effect S ε α} {f : α → Effect S ε β} {s s' : S} {e : ε} (h : x s = (.error e, s')) :
    (x >>= f) s = (.error e, s') := by
  show (match x s with
    | (.ok a, s') => f a s'
    | (.error e, s') => (.error e, s') : Except ε β × S) = _
  rw [h]

theorem ask_eq_ok {see : S → Except ε α} {s s' : S} {a : α} :
    (ask see : Effect S ε α) s = (.ok a, s') ↔ see s = .ok a ∧ s' = s := by
  rw [ask, Prod.mk.injEq, eq_comm (a := s)]

theorem bind_ask_eq_ok {see : S → Except ε α} {f : α → Effect S ε β} {s s' : S} {b : β} :
    (ask see >>= f) s = (.ok b, s') ↔ ∃ a, see s = .ok a ∧ f a s = (.ok b, s') := by
  rw [bind_eq_ok]
  constructor
  · rintro ⟨a, between, hsee, hf⟩
    obtain ⟨hsee, rfl⟩ := ask_eq_ok.mp hsee
    exact ⟨a, hsee, hf⟩
  · rintro ⟨a, hsee, hf⟩
    exact ⟨a, s, ask_eq_ok.mpr ⟨hsee, rfl⟩, hf⟩

theorem orElseError_eq_ok {x : Effect S ε α} {f : ε → ε'} {s s' : S} {a : α} :
    x.orElseError f s = (.ok a, s') ↔ x s = (.ok a, s') := by
  unfold orElseError
  cases hx : x s with
  | mk result between =>
    cases result with
    | ok a => simp
    | error e => simp

theorem cleaning_eq_ok {x : Effect S ε α} {cleanup : S → S} {s s' : S} {a : α} :
    x.cleaning cleanup s = (.ok a, s') ↔ x s = (.ok a, s') := by
  unfold cleaning
  cases hx : x s with
  | mk result between =>
    cases result with
    | ok a => simp
    | error e => simp

/-! ### Triples -/

/-- From a state in `P` the program ends in `Q` or fails in `E`. -/
def Meets (P : S → Prop) (x : Effect S ε α) (Q : α → S → Prop) (E : ε → S → Prop) : Prop :=
  ∀ s, P s →
    match x s with
    | (.ok a, s') => Q a s'
    | (.error e, s') => E e s'

variable {P P' : S → Prop} {x : Effect S ε α} {Q Q' : α → S → Prop} {R : β → S → Prop} {E E' : ε → S → Prop}

theorem Meets.ok (h : Meets P x Q E) {s s' : S} {a : α} (hs : P s) (hrun : x s = (.ok a, s')) : Q a s' := by
  have := h s hs
  rwa [hrun] at this

theorem Meets.error (h : Meets P x Q E) {s s' : S} {e : ε} (hs : P s) (hrun : x s = (.error e, s')) : E e s' := by
  have := h s hs
  rwa [hrun] at this

theorem Meets.mono (h : Meets P x Q E) (hP : ∀ s, P' s → P s) (hQ : ∀ a s, Q a s → Q' a s)
    (hE : ∀ e s, E e s → E' e s) : Meets P' x Q' E' := by
  intro s hs
  have := h s (hP s hs)
  split at this
  · exact hQ _ _ this
  · exact hE _ _ this

theorem Meets.imp_error (h : Meets P x Q E) (hE : ∀ e s, E e s → E' e s) : Meets P x Q E' := h.mono (fun _ hs => hs) (fun _ _ hq => hq) hE

/-- A fact about the first state may be assumed from the outside. -/
theorem Meets.intro (h : ∀ s, P s → Meets (· = s) x Q E) : Meets P x Q E := fun s hs => h s hs s rfl

/-- What does not depend on the state may be assumed from the outside. -/
theorem Meets.assume {F : Prop} (h : F → Meets P x Q E) : Meets (fun s => F ∧ P s) x Q E := fun s hs => h hs.1 s hs.2

/-- So may what there is. -/
theorem Meets.choose {ι : Type} {P : ι → S → Prop} (h : ∀ i, Meets (P i) x Q E) : Meets (fun s => ∃ i, P i s) x Q E :=
  fun s hs => hs.elim fun i hi => h i s hi

theorem Meets.bind {f : α → Effect S ε β} (hx : Meets P x Q E) (hf : ∀ a, Meets (Q a) (f a) R E) :
    Meets P (x >>= f) R E := by
  intro s hs
  have hfirst := hx s hs
  show match (match x s with
    | (.ok a, s') => f a s'
    | (.error e, s') => (.error e, s') : Except ε β × S) with
    | (.ok b, s') => R b s'
    | (.error e, s') => E e s'
  split at hfirst
  case h_1 a s' hrun => exact hf a s' hfirst
  case h_2 e s' hrun => exact hfirst

theorem Meets.ask {see : S → Except ε α} (hok : ∀ s a, P s → see s = .ok a → Q a s)
    (herror : ∀ s e, P s → see s = .error e → E e s) : Meets P (ask see) Q E := by
  intro s hs
  show match (see s, s) with
    | (.ok a, s') => Q a s'
    | (.error e, s') => E e s'
  cases hsee : see s with
  | ok a => exact hok s a hs hsee
  | error e => exact herror s e hs hsee

theorem Meets.orElseError {f : ε → ε'} {E' : ε' → S → Prop} (h : Meets P x Q E) (hE : ∀ e s, E e s → E' (f e) s) :
    Meets P (x.orElseError f) Q E' := by
  intro s hs
  have hrun := h s hs
  unfold Effect.orElseError
  split at hrun
  case h_1 a s' heq =>
    exact hrun
  case h_2 e s' heq =>
    exact hE e s' hrun

theorem Meets.cleaning {cleanup : S → S} (h : Meets P x Q E) (hE : ∀ e s, E e s → E' e (cleanup s)) :
    Meets P (x.cleaning cleanup) Q E' := by
  intro s hs
  have hrun := h s hs
  unfold Effect.cleaning
  split at hrun
  case h_1 a s' heq =>
    exact hrun
  case h_2 e s' heq =>
    exact hE e s' hrun

/-- A state in which the program ends well is the end of a run. -/
theorem Meets.ran (h : Meets P x Q E) : Meets P x (fun a s' => Q a s' ∧ ∃ s, P s ∧ x s = (.ok a, s')) E := by
  intro s hs
  have hrun := h s hs
  split at hrun
  case h_1 a s' heq =>
    exact ⟨hrun, s, hs, heq⟩
  case h_2 e s' heq =>
    exact hrun

end Effect

end NetworkLoop.Library
