import NetworkLoop.Evidence.Recovery

/-! What `put` does to the disk.

A commit works in its temporary directory until the rename (`stageRevision_meets`): if it
fails before, nothing else has changed, and the rename puts the whole revision in its place
at once. Only the sync of the event directory comes after it (`commitRevision_cases`). -/
namespace NetworkLoop.Evidence
open Library Observation

variable {o : Outside} {t t' : Disk} {path : Path}

/-- The disks differ at most at the path and under it. -/
def SameBut (path : Path) (t t' : Disk) : Prop := ∀ q, ¬path <+: q → t'.get q = t.get q

theorem SameBut.refl (path : Path) (t : Disk) : SameBut path t t := fun _ _ => rfl

theorem SameBut.trans {t'' : Disk} (h : SameBut path t t') (h' : SameBut path t' t'') : SameBut path t t'' :=
  fun q hq => (h' q hq).trans (h q hq)

theorem SameBut.mono {front : Path} (h : SameBut path t t') (hfront : front <+: path) : SameBut front t t' :=
  fun q hq => h q fun hpath => hq (hfront.trans hpath)

theorem sameBut_update {node : Option Node} (h : t'.get = Function.update t.get path node) : SameBut path t t' := by
  intro q hq
  rw [h, Function.update_of_ne]
  rintro rfl
  exact hq List.prefix_rfl

/-! ### Single calls -/

/-- A call that changes nothing, whatever comes of it. -/
theorem check_meets {P E : Disk → Prop} {call : IoCall} (hE : ∀ s, P s → E s) :
    Effect.Meets P (asIo (o.check call path)) (fun _ => P) (fun _ => E) :=
  .orElseError (.ask (fun _ _ hs _ => hs) (fun s _ hs _ => hE s hs)) fun _ _ hs => hs

theorem syncDirectory_meets {P E : Disk → Prop} {call : IoCall} (hE : ∀ s, P s → E s) :
    Effect.Meets P (asIo (o.syncDirectory call path)) (fun _ => P) (fun _ => E) :=
  .orElseError (.ask (fun _ _ hs _ => hs) (fun s _ hs _ => hE s hs)) fun _ _ hs => hs

/-- A creation makes the node at a free path; a failed one has made what it leaves there,
or nothing. -/
theorem create_meets {call : IoCall} {node : Node} {left : Nat × Bytes → Node} :
    Effect.Meets (· = t) (o.create call path node left)
      (fun _ t' => t.get path = none ∧ t'.get = Function.update t.get path (some node))
      (fun _ t' => t' = t ∨ t.get path = none ∧ ∃ made, t'.get = Function.update t.get path (some (left made))) := by
  intro s hs
  subst hs
  unfold Outside.create
  cases hfree : s.get path with
  | some old => exact .inl rfl
  | none =>
    cases o.failure call path with
    | some failure =>
      cases hmade : failure.made.bind fun made => s.put path (left made) with
      | none =>
        refine .inl ?_
        rw [hmade]
        rfl
      | some s' =>
        obtain ⟨made, -, hput⟩ := Option.bind_eq_some_iff.mp hmade
        refine .inr ⟨rfl, made, ?_⟩
        rw [hmade]
        exact FileTree.get_put hput
    | none =>
      cases hput : s.put path node with
      | none =>
        dsimp only
        exact .inl rfl
      | some s' =>
        dsimp only
        exact ⟨rfl, FileTree.get_put hput⟩

theorem sameBut_of_create {left : Nat × Bytes → Node}
    (h : t' = t ∨ t.get path = none ∧ ∃ made, t'.get = Function.update t.get path (some (left made))) : SameBut path t t' := by
  rcases h with rfl | ⟨-, made, hget⟩
  · exact .refl path t'
  · exact sameBut_update hget

/-! ### A commit, up to the rename -/

/-- What lies in a directory: its nodes by their paths below it. -/
abbrev Contents := Path → Option Node

/-- A revision as `put` writes it: the directory and its two files. -/
def bundle (uid : Nat) (evidence manifest : Bytes) : Contents :=
  Function.update (Function.update (Function.update (fun _ => none) [] (some (.directory 0o700 uid)))
    ["evidence.json"] (some (.file 0o600 uid evidence))) ["manifest.json"] (some (.file 0o600 uid manifest))

/-- At a free path of `b` some nodes have been made, and nothing else. -/
structure Made (path : Path) (contents : Contents) (b t : Disk) : Prop where
  free : b.get path = none
  contents : ∀ rest, t.get (path ++ rest) = contents rest
  elsewhere : SameBut path b t

theorem made_nothing (h : t.get path = none) : Made path (fun _ => none) t t :=
  ⟨h, fun rest => FileTree.get_under_none h (List.prefix_append path rest), .refl path t⟩

theorem Made.update {contents : Contents} {b : Disk} {rest : Path} {node : Node} (h : Made path contents b t)
    (ht : t'.get = Function.update t.get (path ++ rest) (some node)) :
    Made path (Function.update contents rest (some node)) b t' := by
  refine ⟨h.free, ?_, h.elsewhere.trans ((sameBut_update ht).mono (List.prefix_append path rest))⟩
  intro below
  rw [ht]
  by_cases heq : below = rest
  · rw [heq, Function.update_self, Function.update_self]
  · rw [Function.update_of_ne heq, Function.update_of_ne (fun hsame => heq (List.append_cancel_left hsame))]
    exact h.contents below

section
variable {b : Disk} {contents : Contents} {data : Bytes} {mode : Nat}

theorem createDirectory_made : Effect.Meets (· = b) (asIo (o.createDirectory path mode))
    (fun _ => Made path (Function.update (fun _ => none) [] (some (.directory mode o.uid))) b) (fun _ => SameBut path b) := by
  refine .orElseError (create_meets.mono (fun _ hs => hs) (fun _ s hs => ?_) (fun _ s hs => sameBut_of_create hs)) (fun _ _ hs => hs)
  exact (made_nothing hs.1).update (by rw [List.append_nil]; exact hs.2)

theorem writeFile_made {rest : Path} : Effect.Meets (Made path contents b) (asIo (o.writeFile (path ++ rest) data mode))
    (fun _ => Made path (Function.update contents rest (some (.file mode o.uid data))) b) (fun _ => SameBut path b) := by
  refine .intro fun s hs => .orElseError (create_meets.mono (fun _ hs' => hs') (fun _ s' hs' => ?_) (fun _ s' hs' => ?_))
    (fun _ _ hs' => hs')
  · exact hs.update hs'.2
  · exact hs.elsewhere.trans ((sameBut_of_create hs').mono (List.prefix_append path rest))

/-- The rename moves what has been made to its place. -/
theorem rename_made {src dst : Path} : Effect.Meets (Made src contents b) (o.renameNoreplace src dst)
    (fun _ t' => Made dst contents b t' ∧ t'.get src = none) (fun _ => SameBut src b) := by
  intro s hs
  unfold Outside.renameNoreplace
  cases o.failure .renameNoreplace src with
  | some failure => exact hs.elsewhere
  | none =>
    cases hdst : s.get dst with
    | some node =>
      dsimp only
      exact hs.elsewhere
    | none =>
      cases hgraft : s.graft src dst with
      | none =>
        dsimp only
        exact hs.elsewhere
      | some s' =>
        dsimp only
        have hgrafts : s.Grafts src dst := by
          by_contra hno
          rw [FileTree.graft, dif_neg hno] at hgraft
          cases hgraft
        have hout : ¬src <+: dst := hgrafts.2.2.2
        have hback : ¬dst <+: src := fun hd => hgrafts.1 (FileTree.get_under_none hdst hd)
        have hget := FileTree.get_graft hgraft
        refine ⟨⟨(hs.elsewhere dst hout).symm.trans hdst, ?_, ?_⟩, ?_⟩
        · intro rest
          rw [hget, if_pos (List.prefix_append dst rest), List.drop_left]
          exact hs.contents rest
        · intro q hq
          rw [hget, if_neg hq]
          by_cases hsrc : src <+: q
          · rw [if_pos hsrc, FileTree.get_under_none hs.free hsrc]
          · rw [if_neg hsrc]
            exact hs.elsewhere q hsrc
        · rw [hget, if_neg hback, if_pos List.prefix_rfl]

variable {directory : Path} {target temporary : String} {evidence manifest : Bytes}

/-- **The rename publishes the whole revision at once; a commit that fails before has
changed nothing outside its temporary directory.** -/
theorem stageRevision_meets : Effect.Meets (· = b) (stageRevision o directory target temporary evidence manifest)
    (fun _ t' => Made (directory ++ [target]) (bundle o.uid evidence manifest) b t' ∧ t'.get (directory ++ [temporary]) = none)
    (fun _ => SameBut (directory ++ [temporary]) b) := by
  have hstart : ∀ s, s = b → SameBut (directory ++ [temporary]) b s := by
    rintro s rfl
    exact .refl _ s
  refine (check_meets hstart).bind fun _ => createDirectory_made.bind fun _ => ?_
  refine (check_meets fun s hs => hs.elsewhere).bind fun _ => writeFile_made.bind fun _ => ?_
  refine (check_meets fun s hs => hs.elsewhere).bind fun _ => writeFile_made.bind fun _ => ?_
  refine (check_meets fun s hs => hs.elsewhere).bind fun _ => (syncDirectory_meets fun s hs => hs.elsewhere).bind fun _ => ?_
  exact (check_meets fun s hs => hs.elsewhere).bind fun _ => .orElseError rename_made fun _ _ hs => hs

/-! ### The whole commit -/

/-- The calls of a commit up to the rename. -/
def commitCalls (directory : Path) (temporary : String) : List (IoCall × Path) :=
  [(.checkpoint .createTemporary, directory), (.createDirectory, directory ++ [temporary]),
    (.checkpoint .writeEvidence, directory), (.writeFile, directory ++ [temporary] ++ ["evidence.json"]),
    (.checkpoint .writeManifest, directory), (.writeFile, directory ++ [temporary] ++ ["manifest.json"]),
    (.checkpoint .syncTemporary, directory), (.syncDirectory, directory ++ [temporary]),
    (.checkpoint .publish, directory), (.renameNoreplace, directory ++ [temporary])]

/-- The calls that follow the rename. -/
def settleCalls (directory : Path) : List (IoCall × Path) :=
  [(.checkpoint .syncEvent, directory), (.syncDirectory, directory)]

/-- None of the calls fails. -/
def Outside.Passes (o : Outside) (calls : List (IoCall × Path)) : Prop := ∀ call ∈ calls, o.failure call.1 call.2 = none

theorem asIo_eq_ok {α : Type} {x : Effect Disk IoErrorKind α} {a : α} : asIo x t = (.ok a, t') ↔ x t = (.ok a, t') :=
  Effect.orElseError_eq_ok

theorem checkpoint_eq_ok {step : EvidenceIoStep} : o.checkpoint step path t = (.ok (), t') ↔
    o.failure (.checkpoint step) path = none ∧ t' = t := by
  rw [Outside.checkpoint, Outside.check, Effect.ask_eq_ok]
  simp

theorem syncDirectory_eq_ok {call : IoCall} : o.syncDirectory call path t = (.ok (), t') ↔
    o.failure call path = none ∧ t.get path ≠ none ∧ t' = t := by
  rw [Outside.syncDirectory, Effect.ask_eq_ok]
  cases o.failure call path with
  | some failure => simp
  | none => simp

theorem create_eq_ok {call : IoCall} {node : Node} {left : Nat × Bytes → Node} :
    o.create call path node left t = (.ok (), t') ↔
      o.failure call path = none ∧ t.get path = none ∧ t.put path node = some t' := by
  unfold Outside.create
  cases t.get path with
  | some old => simp
  | none =>
    cases o.failure call path with
    | some failure => simp
    | none =>
      cases t.put path node with
      | none => simp
      | some s => simp

theorem rename_eq_ok {src dst : Path} : o.renameNoreplace src dst t = (.ok (), t') ↔
    o.failure .renameNoreplace src = none ∧ t.get dst = none ∧ t.graft src dst = some t' := by
  unfold Outside.renameNoreplace
  cases o.failure .renameNoreplace src with
  | some failure => simp
  | none =>
    cases t.get dst with
    | some node => simp
    | none =>
      cases t.graft src dst with
      | none => simp
      | some s => simp

theorem stageRevision_eq_ok : stageRevision o directory target temporary evidence manifest t = (.ok (), t') ↔
    o.Passes (commitCalls directory temporary) ∧ ∃ t₁ t₂ t₃,
      (t.get (directory ++ [temporary]) = none ∧ t.put (directory ++ [temporary]) (.directory 0o700 o.uid) = some t₁) ∧
      (t₁.get (directory ++ [temporary] ++ ["evidence.json"]) = none ∧
        t₁.put (directory ++ [temporary] ++ ["evidence.json"]) (.file 0o600 o.uid evidence) = some t₂) ∧
      (t₂.get (directory ++ [temporary] ++ ["manifest.json"]) = none ∧
        t₂.put (directory ++ [temporary] ++ ["manifest.json"]) (.file 0o600 o.uid manifest) = some t₃) ∧
      t₃.get (directory ++ [temporary]) ≠ none ∧
      t₃.get (directory ++ [target]) = none ∧ t₃.graft (directory ++ [temporary]) (directory ++ [target]) = some t' := by
  simp only [stageRevision, Effect.bind_eq_ok, exists_unit_iff, checkpoint_eq_ok, syncDirectory_eq_ok, asIo_eq_ok,
    Effect.orElseError_eq_ok, Outside.createDirectory, Outside.writeFile, create_eq_ok, rename_eq_ok, Outside.Passes,
    commitCalls, List.forall_mem_cons, List.not_mem_nil, false_implies, implies_true, and_true]
  constructor
  · rintro ⟨_, ⟨h₁, rfl⟩, _, ⟨h₂, hput₁⟩, t₁, ⟨h₃, rfl⟩, _, ⟨h₄, hput₂⟩, t₂, ⟨h₅, rfl⟩, _, ⟨h₆, hput₃⟩, _, ⟨h₇, rfl⟩,
      _, ⟨h₈, hthere, rfl⟩, t₃, ⟨h₉, rfl⟩, h₁₀, hrename⟩
    exact ⟨⟨h₁, h₂, h₃, h₄, h₅, h₆, h₇, h₈, h₉, h₁₀⟩, t₁, t₂, t₃, hput₁, hput₂, hput₃, hthere, hrename⟩
  · rintro ⟨⟨h₁, h₂, h₃, h₄, h₅, h₆, h₇, h₈, h₉, h₁₀⟩, t₁, t₂, t₃, hput₁, hput₂, hput₃, hthere, hrename⟩
    exact ⟨t, ⟨h₁, rfl⟩, t₁, ⟨h₂, hput₁⟩, t₁, ⟨h₃, rfl⟩, t₂, ⟨h₄, hput₂⟩, t₂, ⟨h₅, rfl⟩, t₃, ⟨h₆, hput₃⟩, t₃, ⟨h₇, rfl⟩,
      t₃, ⟨h₈, hthere, rfl⟩, t₃, ⟨h₉, rfl⟩, h₁₀, hrename⟩

/-- A commit whose calls all pass publishes, if its names are free. -/
theorem stageRevision_passes (hpasses : o.Passes (commitCalls directory temporary))
    (hdirectory : (t.get directory).any Node.isDirectory = true) (htemporary : t.get (directory ++ [temporary]) = none)
    (htarget : t.get (directory ++ [target]) = none) (hne : temporary ≠ target) :
    ∃ t', stageRevision o directory target temporary evidence manifest t = (.ok (), t') := by
  have hout : ¬directory ++ [temporary] <+: directory ++ [target] := by
    intro hunder
    have heq := hunder.eq_of_length (by simp)
    exact hne (List.cons.inj (List.append_cancel_left heq)).1
  obtain ⟨t₁, hput₁⟩ := FileTree.put_isSome (t := t) (p := directory ++ [temporary]) (n := .directory 0o700 o.uid)
    ⟨.inr (by rwa [List.dropLast_concat]), .inl rfl⟩
  have hget₁ : t₁.get = Function.update t.get (directory ++ [temporary] ++ []) (some (.directory 0o700 o.uid)) := by
    rw [List.append_nil]
    exact FileTree.get_put hput₁
  have hmade₁ := (made_nothing htemporary).update hget₁
  have hfree₁ : t₁.get (directory ++ [temporary] ++ ["evidence.json"]) = none := hmade₁.contents ["evidence.json"]
  have hthere₁ : t₁.get (directory ++ [temporary]) = some (.directory 0o700 o.uid) := by
    have := hmade₁.contents []
    rwa [List.append_nil] at this
  obtain ⟨t₂, hput₂⟩ := FileTree.put_isSome (t := t₁) (p := directory ++ [temporary] ++ ["evidence.json"])
    (n := .file 0o600 o.uid evidence) ⟨.inr (by rw [List.dropLast_concat, hthere₁]; rfl), .inr (by rw [hfree₁]; rfl)⟩
  have hmade₂ := hmade₁.update (FileTree.get_put hput₂)
  have hfree₂ : t₂.get (directory ++ [temporary] ++ ["manifest.json"]) = none := hmade₂.contents ["manifest.json"]
  have hthere₂ : t₂.get (directory ++ [temporary]) = some (.directory 0o700 o.uid) := by
    have := hmade₂.contents []
    rwa [List.append_nil] at this
  obtain ⟨t₃, hput₃⟩ := FileTree.put_isSome (t := t₂) (p := directory ++ [temporary] ++ ["manifest.json"])
    (n := .file 0o600 o.uid manifest) ⟨.inr (by rw [List.dropLast_concat, hthere₂]; rfl), .inr (by rw [hfree₂]; rfl)⟩
  have hmade₃ := hmade₂.update (FileTree.get_put hput₃)
  have hthere₃ : t₃.get (directory ++ [temporary]) = some (.directory 0o700 o.uid) := by
    have := hmade₃.contents []
    rwa [List.append_nil] at this
  have htarget₃ : t₃.get (directory ++ [target]) = none := (hmade₃.elsewhere _ hout).trans htarget
  have hparent₃ : (t₃.get directory).any Node.isDirectory = true := FileTree.parent_of_get hthere₃
  have hgrafts : t₃.Grafts (directory ++ [temporary]) (directory ++ [target]) :=
    ⟨by rw [hthere₃]; exact Option.some_ne_none _, htarget₃, by rwa [List.dropLast_concat], hout⟩
  obtain ⟨t', hgraft⟩ := FileTree.graft_isSome hgrafts
  exact ⟨t', stageRevision_eq_ok.mpr ⟨hpasses, t₁, t₂, t₃, ⟨htemporary, hput₁⟩, ⟨hfree₁, hput₂⟩, ⟨hfree₂, hput₃⟩,
    by rw [hthere₃]; exact Option.some_ne_none _, htarget₃, hgraft⟩⟩

/-! ### The whole commit -/

theorem settleRevision_meets {P : Disk → Prop} (hthere : ∀ s, P s → s.get directory ≠ none) :
    Effect.Meets P (settleRevision o directory) (fun _ => P) (fun _ s => P s ∧ ¬o.Passes (settleCalls directory)) := by
  have hpasses : o.Passes (settleCalls directory) ↔
      o.failure (.checkpoint .syncEvent) directory = none ∧ o.failure .syncDirectory directory = none := by
    simp [Outside.Passes, settleCalls]
  refine .bind (Q := fun _ => P) (.orElseError (.ask (fun _ _ hs _ => hs) fun s error hs hsee => ?_) fun _ _ hs => hs) fun _ =>
    .orElseError (.ask (fun _ _ hs _ => hs) fun s error hs hsee => ?_) fun _ _ hs => hs
  · refine ⟨hs, fun hall => ?_⟩
    rw [(hpasses.mp hall).1] at hsee
    cases hsee
  · refine ⟨hs, fun hall => ?_⟩
    rw [(hpasses.mp hall).2, if_neg (hthere s hs)] at hsee
    cases hsee

/-- The cleanup touches nothing but the temporary directory. -/
theorem removeTemporary_sameBut : SameBut path t (removeTemporary o path t) := by
  intro q hq
  unfold removeTemporary
  split
  · unfold Outside.removeDirectory
    split
    · split
      · exact FileTree.get_prune_elsewhere hq
      · exact FileTree.get_prune_elsewhere hq
    · rfl
  · rfl

theorem removeTemporary_absent (h : t.get path = none) : removeTemporary o path t = t := by
  unfold removeTemporary
  split
  case h_1 metadata hmetadata =>
    obtain ⟨-, node, hnode, -⟩ := metadata_eq_ok.mp hmetadata
    rw [h] at hnode
    cases hnode
  case h_2 => rfl

/-- A commit that fails has changed nothing outside its temporary directory, or has
published its revision and failed at the sync that follows. -/
theorem commitRevision_meets {revision : Nat} {temporary : Temporary} :
    Effect.Meets (· = b) (commitRevision o directory revision temporary evidence manifest)
      (fun _ t' => Made (directory ++ [revisionName revision]) (bundle o.uid evidence manifest) b t')
      (fun _ t' => SameBut (directory ++ [temporary.name]) b t' ∨
        Made (directory ++ [revisionName revision]) (bundle o.uid evidence manifest) b t' ∧
          o.Passes (commitCalls directory temporary.name) ∧ ¬o.Passes (settleCalls directory)) := by
  intro s hs
  unfold commitRevision
  cases o.metadata .metadata (directory ++ [revisionName revision]) s with
  | ok metadata =>
    subst hs
    exact .inl (.refl _ s)
  | error error =>
    refine Effect.Meets.cleaning (P := (· = b)) (E := fun _ t' => SameBut (directory ++ [temporary.name]) b t' ∨
      (Made (directory ++ [revisionName revision]) (bundle o.uid evidence manifest) b t' ∧
        t'.get (directory ++ [temporary.name]) = none) ∧
        o.Passes (commitCalls directory temporary.name) ∧ ¬o.Passes (settleCalls directory)) ?_ ?_ s hs
    · refine (stageRevision_meets.ran.mono (fun _ hs => hs) (fun _ _ hs => hs) fun _ _ hs => .inl hs).bind fun _ =>
        (settleRevision_meets ?_).mono (fun _ hs => hs) (fun _ s hs => hs.1.1) fun _ s hs => ?_
      · rintro s ⟨⟨hmade, -⟩, -⟩ hnone
        have hgone := FileTree.get_under_none hnone (List.prefix_append directory [revisionName revision])
        have hthere := hmade.contents []
        rw [List.append_nil, hgone] at hthere
        cases hthere
      · obtain ⟨⟨hmade, _, -, hran⟩, hsettle⟩ := hs
        exact .inr ⟨hmade, (stageRevision_eq_ok.mp hran).1, hsettle⟩
    · rintro _ s' (hsame | ⟨⟨hmade, habsent⟩, hcalls⟩)
      · exact .inl (hsame.trans removeTemporary_sameBut)
      · rw [removeTemporary_absent habsent]
        exact .inr ⟨hmade, hcalls⟩

/-- A commit whose calls all pass ends well, if its names are free. -/
theorem commitRevision_passes {revision : Nat} {temporary : Temporary}
    (hpasses : o.Passes (commitCalls directory temporary.name)) (hsettle : o.Passes (settleCalls directory))
    (hdirectory : (t.get directory).any Node.isDirectory = true)
    (htemporary : t.get (directory ++ [temporary.name]) = none) (htarget : t.get (directory ++ [revisionName revision]) = none) :
    ∃ t', commitRevision o directory revision temporary evidence manifest t = (.ok (), t') := by
  have hne : temporary.name ≠ revisionName revision := by
    intro heq
    have := temporary.temporary
    rw [heq, revisionName_not_temporary] at this
    cases this
  have hstages : ∃ t', stageRevision o directory (revisionName revision) temporary.name evidence manifest t = (.ok (), t') :=
    stageRevision_passes hpasses hdirectory htemporary htarget hne
  obtain ⟨t', hstage⟩ := hstages
  have hmade := (stageRevision_meets.ok rfl hstage).1
  have hthere : t'.get directory ≠ none := by
    intro hnone
    have hgone := FileTree.get_under_none hnone (List.prefix_append directory [revisionName revision])
    have := hmade.contents []
    rw [List.append_nil, hgone] at this
    cases this
  have hsettled : settleRevision o directory t' = (.ok (), t') := by
    simp only [settleRevision, Effect.bind_eq_ok, exists_unit_iff, asIo_eq_ok, checkpoint_eq_ok, syncDirectory_eq_ok]
    exact ⟨t', ⟨hsettle (.checkpoint .syncEvent, directory) (by simp [settleCalls]), rfl⟩,
      hsettle (.syncDirectory, directory) (by simp [settleCalls]), hthere, rfl⟩
  refine ⟨t', ?_⟩
  unfold commitRevision
  split
  case h_1 metadata hmetadata =>
    obtain ⟨-, node, hnode, -⟩ := metadata_eq_ok.mp hmetadata
    rw [htarget] at hnode
    cases hnode
  case h_2 =>
    rw [Effect.cleaning_eq_ok, Effect.bind_eq_ok]
    exact ⟨(), t', hstage, hsettled⟩

/-! ### The event's directory -/

/-- A directory may have been made at a free path, and nothing else. -/
def Entered (uid : Nat) (path : Path) (b t : Disk) : Prop :=
  t = b ∨ b.get path = none ∧ ∃ mode, t.get = Function.update b.get path (some (.directory mode uid))

theorem Entered.sameBut {uid : Nat} (h : Entered uid path t t') : SameBut path t t' := by
  rcases h with rfl | ⟨-, mode, hget⟩
  · exact .refl path t'
  · exact sameBut_update hget

/-- An event's directory is there and private when `ensure_event_directory` succeeds. -/
theorem ensureEventDirectory_meets {eventId : EventId} : Effect.Meets (· = b) (ensureEventDirectory o eventId)
    (fun _ t' => Entered o.uid [eventName eventId] b t' ∧ t'.get [eventName eventId] = some (.directory 0o700 o.uid))
    (fun _ t' => Entered o.uid [eventName eventId] b t') := by
  intro s hs
  subst hs
  unfold ensureEventDirectory
  cases o.metadata .metadata [eventName eventId] s with
  | ok metadata =>
    cases hvalid : o.validatePrivateDirectory [eventName eventId] .io s with
    | error error => exact .inl rfl
    | ok _ => exact ⟨.inl rfl, (validatePrivateDirectory_eq_ok.mp hvalid).2⟩
  | error error =>
    cases error with
    | notFound =>
      refine Effect.Meets.bind (P := (· = s)) (check_meets fun _ hs => .inl hs) (fun _ => .bind
        (Q := fun _ t' => Entered o.uid [eventName eventId] s t' ∧
          t'.get [eventName eventId] = some (.directory 0o700 o.uid)) ?_ fun _ => syncDirectory_meets fun _ hs => hs.1) s rfl
      refine .orElseError (create_meets.mono (fun _ hs => hs) (fun _ t' hs => ?_) fun _ t' hs => ?_) fun _ _ hs => hs
      · exact ⟨.inr ⟨hs.1, _, hs.2⟩, by rw [hs.2, Function.update_self]⟩
      · exact hs.imp_right fun ⟨hfree, made, hget⟩ => ⟨hfree, _, hget⟩
    | alreadyExists => exact .inl rfl
    | other => exact .inl rfl

/-- The calls that make an event's directory. -/
def ensureCalls (eventId : EventId) : List (IoCall × Path) :=
  [(.metadata, [eventName eventId]), (.validate, [eventName eventId]), (.checkpoint .createEvent, [eventName eventId]),
    (.createDirectory, [eventName eventId]), (.syncDirectory, [])]

theorem ensureEventDirectory_passes {eventId : EventId} (hpasses : o.Passes (ensureCalls eventId))
    (hroot : (t.get []).any Node.isDirectory = true)
    (h : t.get [eventName eventId] = none ∨ t.get [eventName eventId] = some (.directory 0o700 o.uid)) :
    ∃ t', ensureEventDirectory o eventId t = (.ok (), t') := by
  simp only [Outside.Passes, ensureCalls, List.forall_mem_cons, List.not_mem_nil, false_implies, implies_true, and_true] at hpasses
  obtain ⟨hmetadata, hvalidate, hcheckpoint, hcreate, hsync⟩ := hpasses
  unfold ensureEventDirectory
  rcases h with hnone | hthere
  · have hmissing : o.metadata .metadata [eventName eventId] t = .error .notFound := by
      rw [Outside.metadata, hmetadata, hnone]
    obtain ⟨t', hput⟩ := FileTree.put_isSome (t := t) (p := [eventName eventId]) (n := .directory 0o700 o.uid)
      ⟨.inr hroot, .inl rfl⟩
    have hroot' : t'.get [] ≠ none := by
      rw [FileTree.get_put hput, Function.update_of_ne (by simp)]
      intro hgone
      rw [hgone] at hroot
      cases hroot
    rw [hmissing]
    refine ⟨t', ?_⟩
    simp only [Effect.bind_eq_ok, exists_unit_iff, asIo_eq_ok, checkpoint_eq_ok, syncDirectory_eq_ok, Outside.createDirectory,
      create_eq_ok]
    exact ⟨t, ⟨hcheckpoint, rfl⟩, t', ⟨hcreate, hnone, hput⟩, hsync, hroot', rfl⟩
  · have hfound : o.metadata .metadata [eventName eventId] t = .ok (Node.directory 0o700 o.uid).metadata :=
      metadata_eq_ok.mpr ⟨hmetadata, _, hthere, rfl⟩
    rw [hfound]
    exact ⟨t, congrArg (·, t) (validatePrivateDirectory_eq_ok.mpr ⟨hvalidate, hthere⟩)⟩

/-! ### A revision -/

variable {revision : IncidentRevisionV1} {temporaryName : Temporary} {admitted : Admitted}

/-- The directory of a revision. -/
def revisionPath (eventId : EventId) (revision : Nat) : Path := [eventName eventId, revisionName revision]

/-- What a put has written when it succeeds. -/
def Written (uid : Nat) (revision : IncidentRevisionV1) (admitted : Admitted) (b t : Disk) : Prop :=
  ∃ between, Entered uid [eventName revision.eventId] b between ∧
    between.get [eventName revision.eventId] = some (.directory 0o700 uid) ∧
    Made (revisionPath revision.eventId revision.revision) (bundle uid admitted.evidence admitted.manifestBytes) between t

/-- **What `put` does to the disk.** A failure leaves the disk as it was but for an empty
event directory and the temporary one, or it comes from the sync after the rename. -/
theorem writeRevision_meets : Effect.Meets (· = b) (writeRevision o revision temporaryName admitted)
    (fun _ t' => Written o.uid revision admitted b t')
    (fun _ t' => (∃ between, Entered o.uid [eventName revision.eventId] b between ∧
        SameBut [eventName revision.eventId, temporaryName.name] between t') ∨
      Written o.uid revision admitted b t' ∧ o.Passes (commitCalls [eventName revision.eventId] temporaryName.name) ∧
        ¬o.Passes (settleCalls [eventName revision.eventId])) := by
  refine .bind (ensureEventDirectory_meets.mono (fun _ hs => hs) (fun _ _ hs => hs) fun _ s hs => .inl ⟨s, hs, .refl _ s⟩)
    fun _ => .intro fun between hbetween => commitRevision_meets.mono (fun _ hs => hs) ?_ ?_
  · intro _ t' hmade
    exact ⟨between, hbetween.1, hbetween.2, hmade⟩
  · rintro _ t' (hsame | ⟨hmade, hcalls⟩)
    · exact .inl ⟨between, hbetween.1, hsame⟩
    · exact .inr ⟨⟨between, hbetween.1, hbetween.2, hmade⟩, hcalls⟩

/-- No call fails. -/
def Outside.Calm (o : Outside) : Prop := ∀ call path, o.failure call path = none

theorem Outside.Calm.passes (h : o.Calm) (calls : List (IoCall × Path)) : o.Passes calls := fun call _ => h call.1 call.2

/-- A revision is written if no call fails and its names are free. -/
theorem writeRevision_calm (h : o.Calm) (hroot : (t.get []).any Node.isDirectory = true)
    (hevent : t.get [eventName revision.eventId] = none ∨ t.get [eventName revision.eventId] = some (.directory 0o700 o.uid))
    (htemporary : t.get [eventName revision.eventId, temporaryName.name] = none)
    (htarget : t.get (revisionPath revision.eventId revision.revision) = none) :
    ∃ t', writeRevision o revision temporaryName admitted t = (.ok (), t') := by
  obtain ⟨between, hensure⟩ := ensureEventDirectory_passes (h.passes _) hroot hevent
  obtain ⟨hentered, hthere⟩ := ensureEventDirectory_meets.ok rfl hensure
  have hsame : ∀ name, between.get [eventName revision.eventId, name] = t.get [eventName revision.eventId, name] := by
    intro name
    rcases hentered with rfl | ⟨hfree, mode, hget⟩
    · rfl
    · rw [hget, Function.update_of_ne (by simp)]
  have hcommits : ∃ t', commitRevision o [eventName revision.eventId] revision.revision temporaryName admitted.evidence
      admitted.manifestBytes between = (.ok (), t') :=
    commitRevision_passes (h.passes _) (h.passes _) (by rw [hthere]; rfl) ((hsame _).trans htemporary) ((hsame _).trans htarget)
  obtain ⟨t', hcommit⟩ := hcommits
  exact ⟨t', Effect.bind_eq_ok.mpr ⟨(), between, hensure, hcommit⟩⟩

end

end NetworkLoop.Evidence
