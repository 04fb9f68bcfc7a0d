import NetworkLoop.Library.Effect

/-! Programs that put things into the world and take them away again.

`present s` is what there is in the state `s`, whoever put it there. A program acquires the
things that its result stands for (`Acquires`) or releases given ones (`Releases`); one that
acquires says what may be left of it when it fails. `sweep` carries out a list of clean-up
actions whatever their outcome and tells which of them failed, and `backedOut` runs a program
and sweeps behind its failure. With `Holding` as the assertion between two programs, a
sequence of acquisitions that are all backed out leaves no more than what was there before it,
what the failed program left, and what a failed action was to take away (`LeftOver`). -/
namespace NetworkLoop.Library.Custody

section
variable {S ε ε' R α ι : Type} (present : S → Set R)

/-- What is seen of the state stays as it was. -/
def Quiet {V : Type} (view : S → V) (x : Effect S ε α) : Prop := ∀ s, view (x s).2 = view s

/-- A failed release may have taken some of the things away. -/
def Releases (things : Set R) (x : Effect S ε Unit) : Prop := ∀ s,
  match x s with
  | (.ok _, s') => present s' = present s \ things
  | (.error _, s') => present s' ⊆ present s ∧ present s \ things ⊆ present s'

/-- The program takes the things of its result into a state without the blocked ones; what is to
be released later was not there either. A failed one leaves some of `leaves`. -/
def Acquires (x : Effect S ε α) (taken cover : α → Set R) (leaves blocked : Set R) : Prop := ∀ s, Disjoint (present s) blocked →
  match x s with
  | (.ok a, s') => Disjoint (present s) (cover a) ∧ present s' = present s ∪ taken a
  | (.error _, s') => present s ⊆ present s' ∧ present s' ⊆ present s ∪ leaves

/-- Every action in turn, and the failed ones with their errors. -/
def sweep (act : ι → Effect S ε Unit) : List ι → S → List (ι × ε) × S
  | [], s => ([], s)
  | i :: rest, s =>
    match act i s with
    | (.ok _, s') => sweep act rest s'
    | (.error e, s') => ((i, e) :: (sweep act rest s').1, (sweep act rest s').2)

/-- A failure is followed by a sweep, and told with what the sweep left. -/
def backedOut (act : ι → Effect S ε Unit) (steps : List ι) (x : Effect S ε α) (fail : ε → List (ι × ε) → ε') :
    Effect S ε' α := fun s =>
  match x s with
  | (.ok a, s') => (.ok a, s')
  | (.error e, s') => (.error (fail e (sweep act steps s').1), (sweep act steps s').2)

end

section
variable {S ε ε' R α ι : Type} {present : S → Set R}

/-! ### The sweep -/

section
variable {act : ι → Effect S ε Unit} {things : ι → Set R}

/-- What is left after a sweep was there before it, and if an action was to take it away then
this action has failed. Nothing else is gone. -/
theorem sweep_spec (steps : List ι) (h : ∀ i ∈ steps, Releases present (things i) (act i)) (s : S) :
    present (sweep act steps s).2 ⊆ present s ∧
      (∀ r ∈ present s, (∀ i ∈ steps, r ∉ things i) → r ∈ present (sweep act steps s).2) ∧
      ∀ r ∈ present (sweep act steps s).2, ∀ i ∈ steps, r ∈ things i → ∃ failure ∈ (sweep act steps s).1, failure.1 = i := by
  induction steps generalizing s with
  | nil => exact ⟨subset_rfl, fun _ hr _ => hr, fun _ _ _ hi => absurd hi List.not_mem_nil⟩
  | cons i rest ih =>
    obtain ⟨hfirst, hrest⟩ := List.forall_mem_cons.mp h
    have hrun := hfirst s
    rw [sweep]
    split
    case h_1 s' heq =>
      rw [heq] at hrun
      have hrun : present s' = present s \ things i := hrun
      obtain ⟨hshrunk, hkept, hfailed⟩ := ih hrest s'
      refine ⟨hshrunk.trans (hrun ▸ Set.sdiff_subset), fun r hr hnone => ?_, fun r hr j hj hthing => ?_⟩
      · exact hkept r (hrun ▸ ⟨hr, hnone i List.mem_cons_self⟩) fun j hj => hnone j (List.mem_cons_of_mem _ hj)
      · rcases List.mem_cons.mp hj with rfl | hj
        · exact absurd hthing (hrun ▸ hshrunk hr).2
        · exact hfailed r hr j hj hthing
    case h_2 e s' heq =>
      rw [heq] at hrun
      obtain ⟨hless, hmost⟩ : present s' ⊆ present s ∧ present s \ things i ⊆ present s' := hrun
      obtain ⟨hshrunk, hkept, hfailed⟩ := ih hrest s'
      refine ⟨hshrunk.trans hless, fun r hr hnone => ?_, fun r hr j hj hthing => ?_⟩
      · exact hkept r (hmost ⟨hr, hnone i List.mem_cons_self⟩) fun j hj => hnone j (List.mem_cons_of_mem _ hj)
      · rcases List.mem_cons.mp hj with rfl | hj
        · exact ⟨_, List.mem_cons_self, rfl⟩
        · obtain ⟨failure, hmem, heq⟩ := hfailed r hr j hj hthing
          exact ⟨failure, List.mem_cons_of_mem _ hmem, heq⟩

/-- A sweep without a failure takes away exactly what its actions are to take away. -/
theorem sweep_clean {steps : List ι} (h : ∀ i ∈ steps, Releases present (things i) (act i)) {s s' : S}
    (hclean : sweep act steps s = ([], s')) : present s' = present s \ {r | ∃ i ∈ steps, r ∈ things i} := by
  obtain ⟨hshrunk, hkept, hfailed⟩ := sweep_spec steps h s
  rw [hclean] at hshrunk hkept hfailed
  refine Set.Subset.antisymm (fun r hr => ⟨hshrunk hr, ?_⟩) fun r hr => hkept r hr.1 fun i hi hthing => hr.2 ⟨i, hi, hthing⟩
  rintro ⟨i, hi, hthing⟩
  obtain ⟨_, hmem, -⟩ := hfailed r hr i hi hthing
  exact absurd hmem List.not_mem_nil

end

/-! ### Sequences of acquisitions -/

/-- Beside what there was before, exactly `held` is there; nothing of `cover`, which has it all, was
there before. -/
structure Holding (present : S → Set R) (before held cover : Set R) (s : S) : Prop where
  present : present s = before ∪ held
  covered : held ⊆ cover
  apart : Disjoint before cover

/-- What was there before still is, and anything else is of `leaves` or of a failed action. -/
structure LeftOver (present : S → Set R) (before leaves : Set R) (things : ι → Set R) (left : List (ι × ε)) (s : S) : Prop where
  kept : before ⊆ present s
  rest : ∀ r ∈ present s, r ∈ before ∨ r ∈ leaves ∨ ∃ failure ∈ left, r ∈ things failure.1

variable {before held cover leaves blocked : Set R} {x : Effect S ε α} {taken covers : α → Set R} {act : ι → Effect S ε Unit}
  {things : ι → Set R} {steps : List ι}

/-- The state behind a failed acquisition, swept. -/
theorem LeftOver.swept (hsteps : ∀ i ∈ steps, Releases present (things i) (act i)) (hcover : ∀ r, r ∈ cover ↔ ∃ i ∈ steps, r ∈ things i)
    (hcovered : held ⊆ cover) (hapart : Disjoint before cover) {s : S} (hmost : before ⊆ present s)
    (hleast : present s ⊆ before ∪ held ∪ leaves) :
    LeftOver present before leaves things (sweep act steps s).1 (sweep act steps s).2 := by
  obtain ⟨hshrunk, hkept, hfailed⟩ := sweep_spec steps hsteps s
  refine ⟨fun r hr => hkept r (hmost hr) fun i hi hthing => ?_, fun r hr => ?_⟩
  · exact Set.disjoint_left.mp hapart hr ((hcover r).mpr ⟨i, hi, hthing⟩)
  · rcases hleast (hshrunk hr) with (hbefore | hheld) | hleaves
    · exact .inl hbefore
    · obtain ⟨i, hi, hthing⟩ := (hcover r).mp (hcovered hheld)
      obtain ⟨failure, hmem, rfl⟩ := hfailed r hr i hi hthing
      exact .inr (.inr ⟨failure, hmem, hthing⟩)
    · exact .inr (.inl hleaves)

/-- An acquisition adds to what is held; a failed one is backed out. -/
theorem Acquires.backedOut {Q : α → Prop} (h : Acquires present x taken covers leaves blocked) (hresult : ∀ s a s', x s = (.ok a, s') → Q a)
    (htaken : ∀ a, Q a → taken a ⊆ covers a) (hblocked : Disjoint (before ∪ held) blocked)
    (hsteps : ∀ i ∈ steps, Releases present (things i) (act i)) (hcover : ∀ r, r ∈ cover ↔ ∃ i ∈ steps, r ∈ things i)
    {fail : ε → List (ι × ε) → ε'} :
    Effect.Meets (Holding present before held cover) (Custody.backedOut act steps x fail)
      (fun a s => Q a ∧ Holding present before (held ∪ taken a) (cover ∪ covers a) s)
      fun e' s => ∃ e left, e' = fail e left ∧ LeftOver present before leaves things left s := by
  intro s hs
  have hrun := h s (hs.present ▸ hblocked)
  unfold Custody.backedOut
  cases hx : x s with
  | mk result s' =>
    rw [hx] at hrun
    cases result with
    | ok a =>
      obtain ⟨hnew, hadded⟩ : Disjoint (present s) (covers a) ∧ present s' = present s ∪ taken a := hrun
      have ha : Q a := hresult s a s' hx
      refine ⟨ha, hadded.trans (by rw [hs.present, Set.union_assoc]), Set.union_subset_union hs.covered (htaken a ha), ?_⟩
      exact Set.disjoint_union_right.mpr ⟨hs.apart, hnew.mono_left (hs.present ▸ Set.subset_union_left)⟩
    | error e =>
      obtain ⟨hmost, hleast⟩ : present s ⊆ present s' ∧ present s' ⊆ present s ∪ leaves := hrun
      rw [hs.present] at hmost hleast
      exact ⟨e, _, rfl, LeftOver.swept hsteps hcover hs.covered hs.apart (Set.subset_union_left.trans hmost) hleast⟩

theorem Quiet.meets {V : Type} {view : S → V} (h : Quiet view x) (seen : V) :
    Effect.Meets (view · = seen) x (fun _ s => view s = seen) fun _ s => view s = seen := by
  intro s hs
  have hsame := (h s).trans hs
  split
  case h_1 a s' hrun => exact (congrArg (view ∘ Prod.snd) hrun).symm.trans hsame
  case h_2 e s' hrun => exact (congrArg (view ∘ Prod.snd) hrun).symm.trans hsame

/-- A quiet program is an acquisition of nothing. -/
theorem Quiet.acquires (h : Quiet present x) : Acquires present x (fun _ => ∅) (fun _ => ∅) ∅ ∅ := by
  intro s _
  have hrun := h s
  cases hx : x s with
  | mk result s' =>
    rw [hx] at hrun
    cases result with
    | ok a => exact ⟨Set.disjoint_empty _, hrun.trans (Set.union_empty _).symm⟩
    | error e => exact ⟨hrun.ge, hrun.le.trans Set.subset_union_left⟩

end

/-! ### Two worlds beside each other -/

section
variable {S T ε R α : Type}

/-- A program of the first world. -/
def inFirst (x : Effect S ε α) : Effect (S × T) ε α := fun s => ((x s.1).1, (x s.1).2, s.2)

/-- A program of the second. -/
def inSecond (y : Effect T ε α) : Effect (S × T) ε α := fun s => ((y s.2).1, s.1, (y s.2).2)

/-- What there is of a kind is looked for in the second world, and all else in the first. -/
def divided (kind : Set R) (first : S → Set R) (second : T → Set R) (s : S × T) : Set R := first s.1 \ kind ∪ second s.2

variable {x : Effect S ε α} {y : Effect T ε α} {kind things leaves blocked : Set R} {first : S → Set R} {second : T → Set R}
  {taken cover : α → Set R}

theorem inFirst_eq {s s' : S × T} {result : Except ε α} (h : inFirst x s = (result, s')) : x s.1 = (result, s'.1) := by
  have hresult : (inFirst x s : Except ε α × S × T).1 = result := congrArg Prod.fst h
  have hstate : (inFirst x s : Except ε α × S × T).2.1 = s'.1 := congrArg (·.2.1) h
  exact Prod.ext hresult hstate

theorem Quiet.inFirst (h : Quiet first x) : Quiet (divided kind first second) (Custody.inFirst x) := fun s =>
  congrArg (fun seen => seen \ kind ∪ second s.2) (h s.1)

theorem Releases.inFirst {x : Effect S ε Unit} (h : Releases first things x) (hsecond : ∀ t, second t ⊆ kind)
    (hapart : Disjoint kind things) : Releases (divided kind first second) things (Custody.inFirst x) := by
  intro s
  have hstays : second s.2 \ things = second s.2 := (hapart.mono_left (hsecond s.2)).sdiff_eq_left
  have hrun := h s.1
  unfold Custody.inFirst
  rcases hx : x s.1 with ⟨error | _, s'⟩
  · rw [hx] at hrun
    obtain ⟨hless, hmost⟩ : first s' ⊆ first s.1 ∧ first s.1 \ things ⊆ first s' := hrun
    refine ⟨Set.union_subset_union_left _ (Set.sdiff_subset_sdiff_left hless), ?_⟩
    rintro r ⟨⟨hthere, hother⟩ | hthere, hleft⟩
    · exact .inl ⟨hmost ⟨hthere, hleft⟩, hother⟩
    · exact .inr hthere
  · rw [hx] at hrun
    have hgone : first s' = first s.1 \ things := hrun
    show first s' \ kind ∪ second s.2 = (first s.1 \ kind ∪ second s.2) \ things
    rw [hgone, Set.union_sdiff_distrib, hstays, Set.sdiff_sdiff_comm]

theorem Acquires.inFirst (h : Acquires first x taken cover leaves ∅) (hsecond : ∀ t, second t ⊆ kind)
    (htaken : ∀ a, taken a ⊆ cover a) (hapart : ∀ a, Disjoint kind (cover a)) :
    Acquires (divided kind first second) (Custody.inFirst x) taken cover (leaves \ kind) ∅ := by
  intro s _
  have hrun := h s.1 (Set.disjoint_empty _)
  unfold Custody.inFirst
  rcases hx : x s.1 with ⟨error | a, s'⟩
  · rw [hx] at hrun
    obtain ⟨hmost, hleast⟩ : first s.1 ⊆ first s' ∧ first s' ⊆ first s.1 ∪ leaves := hrun
    refine ⟨Set.union_subset_union_left _ (Set.sdiff_subset_sdiff_left hmost), ?_⟩
    rintro r (⟨hthere, hother⟩ | hthere)
    · exact (hleast hthere).imp (fun hold => .inl ⟨hold, hother⟩) fun hleft => ⟨hleft, hother⟩
    · exact .inl (.inr hthere)
  · rw [hx] at hrun
    obtain ⟨hnew, hadded⟩ : Disjoint (first s.1) (cover a) ∧ first s' = first s.1 ∪ taken a := hrun
    have hother : taken a \ kind = taken a := ((hapart a).symm.mono_left (htaken a)).sdiff_eq_left
    refine ⟨Set.disjoint_union_left.mpr ⟨hnew.mono_left Set.sdiff_subset, (hapart a).mono_left (hsecond s.2)⟩, ?_⟩
    show first s' \ kind ∪ second s.2 = first s.1 \ kind ∪ second s.2 ∪ taken a
    rw [hadded, Set.union_sdiff_distrib, hother, Set.union_right_comm]

theorem Releases.inSecond {y : Effect T ε Unit} (h : Releases second things y) (hkind : things ⊆ kind) :
    Releases (divided kind first second) things (Custody.inSecond y) := by
  intro s
  have hstays : (first s.1 \ kind) \ things = first s.1 \ kind := (Set.disjoint_sdiff_left.mono_right hkind).sdiff_eq_left
  have hrun := h s.2
  unfold Custody.inSecond
  rcases hy : y s.2 with ⟨error | _, t'⟩
  · rw [hy] at hrun
    obtain ⟨hless, hmost⟩ : second t' ⊆ second s.2 ∧ second s.2 \ things ⊆ second t' := hrun
    refine ⟨Set.union_subset_union_right _ hless, ?_⟩
    rintro r ⟨hthere | hthere, hleft⟩
    · exact .inl hthere
    · exact .inr (hmost ⟨hthere, hleft⟩)
  · rw [hy] at hrun
    have hgone : second t' = second s.2 \ things := hrun
    show first s.1 \ kind ∪ second t' = (first s.1 \ kind ∪ second s.2) \ things
    rw [hgone, Set.union_sdiff_distrib, hstays]

theorem Acquires.inSecond (h : Acquires second y taken cover leaves blocked) (hkind : ∀ a, cover a ⊆ kind) :
    Acquires (divided kind first second) (Custody.inSecond y) taken cover leaves blocked := by
  intro s hfree
  have hrun := h s.2 (hfree.mono_left Set.subset_union_right)
  unfold Custody.inSecond
  rcases hy : y s.2 with ⟨error | a, t'⟩
  · rw [hy] at hrun
    obtain ⟨hmost, hleast⟩ : second s.2 ⊆ second t' ∧ second t' ⊆ second s.2 ∪ leaves := hrun
    exact ⟨Set.union_subset_union_right _ hmost, (Set.union_subset_union_right _ hleast).trans (Set.union_assoc _ _ _).ge⟩
  · rw [hy] at hrun
    obtain ⟨hnew, hadded⟩ : Disjoint (second s.2) (cover a) ∧ second t' = second s.2 ∪ taken a := hrun
    refine ⟨Set.disjoint_union_left.mpr ⟨Set.disjoint_sdiff_left.mono_right (hkind a), hnew⟩, ?_⟩
    show first s.1 \ kind ∪ second t' = first s.1 \ kind ∪ second s.2 ∪ taken a
    rw [hadded, Set.union_assoc]

end

end NetworkLoop.Library.Custody
