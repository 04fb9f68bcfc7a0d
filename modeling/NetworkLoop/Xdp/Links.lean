import NetworkLoop.Xdp.SafeXdp
import NetworkLoop.Library.Recorder

/-! What the XDP adapter reports about its links is the truth.

`inventory_reads` is about the kernel's answers: a slot that is read as empty is empty, and one
that is read as attached has this program. From it each operation gets one lemma, over a set of
links that is known to be exactly those of ours in the kernel (`Stands`). `links_accounted` is
about runs: the reports of the adapter alone tell which of our links exist, and no program of
anyone else is ever replaced or removed, as long as others leave our links alone. -/
namespace NetworkLoop.Xdp
open Library

/-! ### Reading the kernel's answers -/

section
variable {message : LinkMessage} {programs : XdpPrograms}

theorem scan_reportedBriefly (hnonzero : ∀ mode, programs.slot mode ≠ some 0) (hhardware : programs.hardware ≠ some 0) (scan : XdpScan)
    (hscan : scan.programId = none) :
    programs.reportedBriefly.foldl XdpScan.read scan = { scan with attached := some programs.attached, programId := programs.single } := by
  have hid : programs.single ≠ some 0 := by
    have hnative : programs.native ≠ some 0 := hnonzero .native
    have hgeneric : programs.generic ≠ some 0 := hnonzero .generic
    unfold XdpPrograms.single
    split
    · exact Option.some_ne_none _ ∘ Eq.symm
    · cases hn : programs.native <;> cases hg : programs.generic <;> simp_all
  unfold XdpPrograms.reportedBriefly
  cases hsingle : programs.single with
  | none =>
    obtain ⟨attached, programId, nativeId, genericId, hardwareId⟩ := scan
    cases hscan
    rfl
  | some id =>
    have hne : id ≠ 0 := fun hzero => hid (hsingle.trans (congrArg some hzero))
    simp [XdpScan.read, hne]

theorem scan_reported (hnonzero : ∀ mode, programs.slot mode ≠ some 0) (hhardware : programs.hardware ≠ some 0) :
    programs.reported.foldl XdpScan.read ⟨none, none, none, none, none⟩ =
      ⟨some programs.attached, programs.single, programs.native, programs.generic, programs.hardware⟩ := by
  have hnative : programs.native ≠ some 0 := hnonzero .native
  have hgeneric : programs.generic ≠ some 0 := hnonzero .generic
  have hids : (programs.generic.toList.map LinkXdp.skbProgId ++ programs.native.toList.map LinkXdp.drvProgId ++
      programs.hardware.toList.map LinkXdp.hwProgId).foldl XdpScan.read ⟨none, none, none, none, none⟩ =
        ⟨none, none, programs.native, programs.generic, programs.hardware⟩ := by
    cases hn : programs.native <;> cases hg : programs.generic <;> cases hh : programs.hardware <;> simp_all [XdpScan.read]
  unfold XdpPrograms.reported
  rw [List.foldl_append, hids, scan_reportedBriefly hnonzero hhardware _ rfl]

/-- **A slot is read as what it is, or as unknown**, from the answer of a newer and of an older
kernel. -/
theorem inventory_reads (tag : Nat → Option ProgramTag) (hnonzero : ∀ mode, programs.slot mode ≠ some 0) (hhardware : programs.hardware ≠ some 0)
    (h : message.xdpValues = programs.reported ∨ message.xdpValues = programs.reportedBriefly) (mode : XdpAttachMode) :
    (inventoryFromMessage tag message).slot mode = .unknown ∨
      (inventoryFromMessage tag message).slot mode = slotFromProgram tag message.index mode (programs.slot mode) := by
  have hscan : ∃ nativeId genericId hardwareId, message.xdpValues.foldl XdpScan.read ⟨none, none, none, none, none⟩ =
      ⟨some programs.attached, programs.single, nativeId, genericId, hardwareId⟩ ∧
        ((nativeId, genericId, hardwareId) = (programs.native, programs.generic, programs.hardware) ∨
          (nativeId, genericId, hardwareId) = (none, none, none)) := by
    rcases h with h | h <;> rw [h]
    · exact ⟨_, _, _, scan_reported hnonzero hhardware, .inl rfl⟩
    · exact ⟨_, _, _, scan_reportedBriefly hnonzero hhardware _ rfl, .inr rfl⟩
  obtain ⟨nativeId, genericId, hardwareId, hscan, hids⟩ := hscan
  unfold inventoryFromMessage
  rw [hscan]
  -- The mode that the kernel tells decides which of the ids are read.
  rcases hids with hids | hids <;> cases hids <;> cases hn : programs.native <;> cases hg : programs.generic <;>
    cases hh : programs.hardware <;> cases mode <;>
    simp [XdpPrograms.attached, XdpPrograms.single, XdpInventory.slot, XdpPrograms.slot, slotFromProgram, hn, hg, hh]

end

/-! ### Classification -/

section
variable {inventory : XdpInventory} {owned : OwnedXdp}

theorem classify_eq_empty {owned : Option OwnedXdp} (h : classifyInventory inventory owned = .empty) (mode : XdpAttachMode) :
    inventory.slot mode = .empty := by
  obtain ⟨native, generic⟩ := inventory
  cases native <;> cases generic <;> cases mode <;> simp_all [classifyInventory, XdpInventory.slot] <;> split at h <;> cases h

theorem classify_eq_owned (h : classifyInventory inventory (some owned) = .owned) :
    ∃ mode, inventory.slot mode = .attached owned.identity := by
  obtain ⟨native, generic⟩ := inventory
  have hmatches : ∀ {first : XdpKernelIdentity}, (if (some owned).any (·.matches first) then XdpState.owned else .foreign) = .owned →
      first = owned.identity := by
    intro first hfirst
    split at hfirst
    case isTrue hmatch => exact (beq_iff_eq.mp hmatch).symm
    case isFalse => cases hfirst
  cases native <;> cases generic <;> simp only [classifyInventory, reduceCtorEq] at h
  · exact ⟨.generic, congrArg XdpSlot.attached (hmatches h)⟩
  · exact ⟨.native, congrArg XdpSlot.attached (hmatches h)⟩

theorem slotFromProgram_eq_empty {tag : Nat → Option ProgramTag} {i : Nat} {mode : XdpAttachMode} {program : Option Nat} :
    slotFromProgram tag i mode program = .empty ↔ program = none := by
  cases program with
  | none => exact ⟨fun _ => rfl, fun _ => rfl⟩
  | some id =>
    refine ⟨fun h => ?_, fun h => (by cases h)⟩
    cases htag : tag id <;> simp only [slotFromProgram, htag, reduceCtorEq] at h

theorem slotFromProgram_eq_attached {tag : Nat → Option ProgramTag} {i : Nat} {mode : XdpAttachMode} {program : Option Nat}
    {identity : XdpKernelIdentity} (h : slotFromProgram tag i mode program = .attached identity) :
    program = some identity.programId ∧ identity.ifindex = i ∧ identity.mode = mode := by
  cases program with
  | none => cases h
  | some id =>
    cases htag : tag id <;> simp only [slotFromProgram, htag, reduceCtorEq, XdpSlot.attached.injEq] at h
    rw [← h]
    exact ⟨rfl, rfl, rfl⟩

end

/-! ### The links in the kernel -/

/-- A program in a slot of an interface. -/
@[ext] structure Link where
  ifindex : Nat
  mode : XdpAttachMode
  programId : Nat
  deriving DecidableEq, Repr

def OwnedXdp.link (owned : OwnedXdp) : Link := ⟨owned.ifindex, owned.mode, owned.programId⟩

section
variable {σ : Type}

def Link.On (k : XdpKernel σ) (s : σ) (link : Link) : Prop := (k.programs s link.ifindex).slot link.mode = some link.programId

/-- The request changed nothing, filled an empty slot with one of our programs, or emptied the slot
of one. -/
inductive Harmless (k : XdpKernel σ) (Ours : Nat → Prop) : σ × σ → Prop where
  | same {s s' : σ} (same : k.programs s' = k.programs s) : Harmless k Ours (s, s')
  | fills {s s' : σ} {i : Nat} {mode : XdpAttachMode} {program : Nat} (ours : Ours program) (empty : (k.programs s i).slot mode = none)
      (sets : k.Sets i mode (some program) s s') : Harmless k Ours (s, s')
  | empties {s s' : σ} {i : Nat} {mode : XdpAttachMode} {program : Nat} (ours : Ours program)
      (full : (k.programs s i).slot mode = some program) (sets : k.Sets i mode none s s') : Harmless k Ours (s, s')

/-- Exactly the links of `links` are in the kernel, of those with our programs. Others neither remove
nor make such a link, and our requests so far were harmless. -/
structure Stands (k : XdpKernel σ) (Ours : Nat → Prop) (links : Set Link) (w : Wire σ) : Prop where
  respected : ∀ n s (link : Link), Ours link.programId → (link.On k (w.others n s) ↔ link.On k s)
  harmless : ∀ change ∈ w.changes, Harmless k Ours change
  links : ∀ link : Link, Ours link.programId → (link.On k w.now ↔ link ∈ links)

variable {k : XdpKernel σ} {Ours : Nat → Prop} {links : Set Link} {w : Wire σ}

theorem Stands.yield (h : Stands k Ours links w) : Stands k Ours links w.yield :=
  ⟨h.respected, h.harmless, fun link hours => (h.respected w.turn w.now link hours).trans (h.links link hours)⟩

theorem XdpKernel.Sets.slot {i : Nat} {mode : XdpAttachMode} {program : Option Nat} {s s' : σ} (h : k.Sets i mode program s s') :
    (k.programs s' i).slot mode = program := by
  rw [h, Function.update_self]
  cases mode <;> rfl

theorem XdpKernel.Sets.other {i : Nat} {mode : XdpAttachMode} {program : Option Nat} {s s' : σ} (h : k.Sets i mode program s s')
    {j : Nat} {other : XdpAttachMode} (hne : (j, other) ≠ (i, mode)) : (k.programs s' j).slot other = (k.programs s j).slot other := by
  rw [h]
  by_cases hj : j = i
  · subst hj
    rw [Function.update_self]
    cases mode <;> cases other <;> first | rfl | exact absurd rfl hne
  · rw [Function.update_of_ne hj]

/-- Setting a slot changes the links of this slot only. -/
theorem XdpKernel.Sets.on {i : Nat} {mode : XdpAttachMode} {program : Option Nat} {s s' : σ} (h : k.Sets i mode program s s') (link : Link) :
    link.On k s' ↔ if (link.ifindex, link.mode) = (i, mode) then program = some link.programId else link.On k s := by
  unfold Link.On
  split
  case isTrue hsame =>
    cases hsame
    rw [h.slot]
  case isFalse hother => rw [h.other hother]

theorem Stands.changed {s' : σ} (h : Stands k Ours links w) {links' : Set Link} (hharmless : Harmless k Ours (w.now, s'))
    (hlinks : ∀ link : Link, Ours link.programId → (link.On k s' ↔ link ∈ links')) :
    Stands k Ours links' { w with now := s', changes := (w.now, s') :: w.changes } :=
  ⟨h.respected, List.forall_mem_cons.mpr ⟨hharmless, h.harmless⟩, hlinks⟩

theorem Stands.unchanged {s' : σ} (h : Stands k Ours links w) (hsame : k.programs s' = k.programs w.now) :
    Stands k Ours links { w with now := s', changes := (w.now, s') :: w.changes } := by
  refine h.changed (.same hsame) fun link hours => ?_
  unfold Link.On
  rw [hsame]
  exact h.links link hours

/-! ### The requests -/

open RtnetlinkXdpIo

/-- What an inventory tells of the slots of an interface. -/
def Reads (k : XdpKernel σ) (i : Nat) (inventory : XdpInventory) (w : Wire σ) : Prop :=
  ∃ tag, ∀ mode, inventory.slot mode = .unknown ∨ inventory.slot mode = slotFromProgram tag i mode ((k.programs w.now i).slot mode)

theorem Reads.empty {i : Nat} {inventory : XdpInventory} (h : Reads k i inventory w) {mode : XdpAttachMode}
    (hempty : inventory.slot mode = .empty) : (k.programs w.now i).slot mode = none := by
  obtain ⟨tag, hreads⟩ := h
  rcases hreads mode with hunknown | heq
  · rw [hempty] at hunknown
    cases hunknown
  · exact slotFromProgram_eq_empty.mp (heq.symm.trans hempty)

theorem Reads.attached {i : Nat} {inventory : XdpInventory} (h : Reads k i inventory w) {mode : XdpAttachMode} {identity : XdpKernelIdentity}
    (hattached : inventory.slot mode = .attached identity) :
    (k.programs w.now i).slot mode = some identity.programId ∧ identity.ifindex = i ∧ identity.mode = mode := by
  obtain ⟨tag, hreads⟩ := h
  rcases hreads mode with hunknown | heq
  · rw [hattached] at hunknown
    cases hunknown
  · exact slotFromProgram_eq_attached (heq.symm.trans hattached)

theorem query_meets (hk : k.Behaves) (i : Nat) :
    Effect.Meets (Stands k Ours links) (query k i) (fun inventory w => Stands k Ours links w ∧ Reads k i inventory w)
      fun _ => Stands k Ours links := by
  intro w hw
  unfold query
  cases hlink : k.getLink i w.yield.now with
  | error e => exact hw.yield
  | ok message =>
    by_cases hindex : message.index = i
    · rw [show (Except.ok message >>= fun message => if message.index ≠ i then .error (XdpIoError.failed "XDP query returned a different interface")
          else .ok (inventoryFromMessage (k.programTag w.yield.now) message)) = .ok (inventoryFromMessage (k.programTag w.yield.now) message)
        from if_neg (not_not.mpr hindex)]
      refine ⟨hw.yield, k.programTag w.yield.now, fun mode => ?_⟩
      have hreads := inventory_reads (k.programTag w.yield.now) (hk.nonzero w.yield.now i) (hk.hardware w.yield.now i)
        (hk.getLink i w.yield.now message hlink hindex) mode
      rwa [hindex] at hreads
    · rw [show (Except.ok message >>= fun message => if message.index ≠ i then .error (XdpIoError.failed "XDP query returned a different interface")
          else .ok (inventoryFromMessage (k.programTag w.yield.now) message)) = .error (.failed "XDP query returned a different interface")
        from if_pos hindex]
      exact hw.yield

theorem queryOrUnknown_meets (hk : k.Behaves) (i : Nat) :
    Effect.Meets (Stands k Ours links) (SafeXdp.queryOrUnknown (rtnetlinkXdpIo k) i)
      (fun inventory w => Stands k Ours links w ∧ Reads k i inventory w)
      fun e w => e.rollback = none ∧ Stands k Ours links w :=
  (query_meets hk i).orElseError fun _ _ h => ⟨rfl, h⟩

/-- A request to attach that succeeds makes the link; another link of ours was not there. -/
theorem attachNoReplace_meets (hk : k.Behaves) {i : Nat} {mode : XdpAttachMode} {fd : Nat} (hours : Ours (k.programOf fd)) :
    Effect.Meets (Stands k Ours links) (attachNoReplace k i mode fd)
      (fun _ w => ⟨i, mode, k.programOf fd⟩ ∉ links ∧ Stands k Ours (insert ⟨i, mode, k.programOf fd⟩ links) w)
      fun _ => Stands k Ours links := by
  intro w hw
  have hyield := hw.yield
  unfold attachNoReplace runSet
  cases hset : k.setLink (encodeAttachRequest i mode fd) w.yield.now with
  | mk result s' =>
    cases result with
    | error e => exact hyield.unchanged (hk.failed _ _ _ _ hset)
    | ok _ =>
      obtain ⟨hempty, hsets⟩ := hk.attach i mode fd _ _ hset
      have habsent : ∀ link : Link, Ours link.programId → (link.ifindex, link.mode) = (i, mode) → link ∉ links := by
        intro link hlink hsame hmem
        have hon : (k.programs w.yield.now link.ifindex).slot link.mode = some link.programId := (hyield.links link hlink).mpr hmem
        cases hsame
        rw [hempty] at hon
        cases hon
      refine ⟨habsent _ hours rfl, hyield.changed (.fills hours hempty hsets) fun link hlink => ?_⟩
      rw [hsets.on, Set.mem_insert_iff]
      split
      case isTrue hsame =>
        have hnot := habsent link hlink hsame
        cases hsame
        refine ⟨fun heq => .inl (Link.ext rfl rfl (Option.some.inj heq).symm), fun hmem => ?_⟩
        rcases hmem with heq | hmem
        · exact congrArg (fun l : Link => some l.programId) heq.symm
        · exact absurd hmem hnot
      case isFalse hother =>
        refine (hyield.links link hlink).trans ⟨.inr, fun hmem => hmem.resolve_left fun heq => hother ?_⟩
        rw [heq]

/-- A request to detach one of our links that succeeds removes it. -/
theorem detachIfMatches_meets (hk : k.Behaves) {link : Link} (hours : Ours link.programId) (hmem : link ∈ links) :
    Effect.Meets (Stands k Ours links) (detachIfMatches k link.ifindex link.mode link.programId)
      (fun _ => Stands k Ours (links \ {link})) fun _ => Stands k Ours links := by
  intro w hw
  cases hfd : k.programFdById link.programId w.yield.now with
  | none =>
    unfold detachIfMatches
    rw [hfd]
    exact hw.yield
  | some fd =>
    have hyield := hw.yield.yield
    have hrun : detachIfMatches k link.ifindex link.mode link.programId w =
        runSet k (encodeDetachRequest link.ifindex link.mode fd) w.yield := by
      unfold detachIfMatches
      rw [hfd]
    rw [hrun]
    unfold runSet
    cases hset : k.setLink (encodeDetachRequest link.ifindex link.mode fd) w.yield.yield.now with
    | mk result s' =>
      cases result with
      | error e => exact hyield.unchanged (hk.failed _ _ _ _ hset)
      | ok _ =>
        have hsets := hk.detach _ _ _ _ _ hset
        have hfull : link.On k w.yield.yield.now := (hyield.links link hours).mpr hmem
        refine hyield.changed (.empties hours hfull hsets) fun other hother => ?_
        rw [hsets.on]
        split
        case isTrue hsame =>
          refine ⟨fun heq => (by cases heq), fun hrest => absurd ?_ hrest.2⟩
          have hon : other.On k w.yield.yield.now := (hyield.links other hother).mpr hrest.1
          obtain ⟨i, mode, program⟩ := other
          cases hsame
          exact Link.ext rfl rfl (Option.some.inj (hon.symm.trans hfull))
        case isFalse hdiff =>
          refine (hyield.links other hother).trans ⟨fun hin => ⟨hin, fun heq => hdiff ?_⟩, And.left⟩
          rw [Set.mem_singleton_iff.mp heq]

/-! ### The operations -/

/-- The error leaves the link where it is. -/
def XdpError.retains (e : XdpError) : Bool := e.rollback.any (· ≠ .completed)

theorem classify_owned_on {owned : OwnedXdp} {inventory : XdpInventory} (h : classifyInventory inventory (some owned) = .owned)
    (hreads : Reads k owned.ifindex inventory w) : owned.link.On k w.now := by
  obtain ⟨mode, hslot⟩ := classify_eq_owned h
  obtain ⟨hprogram, -, rfl⟩ := hreads.attached hslot
  exact hprogram

theorem verifyAttached_meets (hk : k.Behaves) (owned : OwnedXdp) (hours : Ours owned.programId) (hmem : owned.link ∈ links) :
    Effect.Meets (Stands k Ours links) (SafeXdp.verifyAttached (rtnetlinkXdpIo k) owned)
      (fun found w => found = owned ∧ Stands k Ours links w)
      fun e w => Stands k Ours (if e.retains then links else links \ {owned.link}) w := by
  intro w hw
  have hquery := query_meets hk owned.ifindex w hw
  unfold SafeXdp.verifyAttached
  rw [show (rtnetlinkXdpIo k).query owned.ifindex w = query k owned.ifindex w from rfl]
  cases hrun : query k owned.ifindex w with
  | mk result w' =>
    rw [hrun] at hquery
    cases result with
    | error e => exact hquery
    | ok after =>
      obtain ⟨hstands, hreads⟩ : Stands k Ours links w' ∧ Reads k owned.ifindex after w' := hquery
      dsimp only
      by_cases hstate : classifyInventory after (some owned) = .owned
      · rw [if_pos hstate]
        exact ⟨rfl, hstands⟩
      · rw [if_neg hstate]
        -- The link is there, so the slot is neither read as empty nor with another program.
        have hon : (k.programs w'.now owned.ifindex).slot owned.mode = some owned.programId := (hstands.links owned.link hours).mpr hmem
        cases hslot : after.slot owned.mode with
        | empty => exact absurd ((hreads.empty hslot).symm.trans hon) (by simp)
        | unknown => exact hstands
        | attached current =>
          have hsame : current.programId = owned.programId := Option.some.inj ((hreads.attached hslot).1.symm.trans hon)
          dsimp only
          rw [if_pos hsame]
          have hdetach := detachIfMatches_meets hk (show Ours owned.link.programId from hours) hmem w' hstands
          rw [show (rtnetlinkXdpIo k).detachIfMatches owned.ifindex owned.mode owned.programId w' =
            detachIfMatches k owned.link.ifindex owned.link.mode owned.link.programId w' from rfl]
          cases hdone : detachIfMatches k owned.link.ifindex owned.link.mode owned.link.programId w' with
          | mk result w'' =>
            rw [hdone] at hdetach
            cases result with
            | ok _ => exact hdetach
            | error e => exact hdetach

theorem attach_meets (hk : k.Behaves) (i : Nat) (mode : XdpAttachMode) {loaded : LoadedXdp}
    (hloaded : k.programOf loaded.programFd = loaded.programId) (hours : Ours loaded.programId) :
    Effect.Meets (Stands k Ours links) (SafeXdp.attach (rtnetlinkXdpIo k) i mode loaded)
      (fun owned w => owned.link = ⟨i, mode, loaded.programId⟩ ∧ owned.link ∉ links ∧ Stands k Ours (insert owned.link links) w)
      fun e w => Stands k Ours (if e.retains then insert ⟨i, mode, loaded.programId⟩ links else links) w := by
  refine Effect.Meets.bind ((queryOrUnknown_meets hk i).mono (fun _ h => h) (fun _ _ h => h) fun e w h => ?_) fun before => ?_
  · rw [XdpError.retains, h.1]
    exact h.2
  refine Effect.Meets.bind (Effect.Meets.ask (Q := fun _ => Stands k Ours links) (fun _ _ h _ => h.1) fun w e h herror => ?_) fun _ => ?_
  · have hnone : e.rollback = none := by
      unfold SafeXdp.requireEmpty at herror
      split at herror <;> cases herror <;> rfl
    rw [XdpError.retains, hnone]
    exact h.1
  have hattach : Effect.Meets (Stands k Ours links) (attachNoReplace k i mode loaded.programFd)
      (fun _ w => ⟨i, mode, loaded.programId⟩ ∉ links ∧ Stands k Ours (insert ⟨i, mode, loaded.programId⟩ links) w)
      fun _ => Stands k Ours links := hloaded ▸ attachNoReplace_meets hk (hloaded.symm ▸ hours)
  refine Effect.Meets.bind (hattach.orElseError fun e w h => ?_) fun _ => ?_
  · rw [show (SafeXdp.attachError e).retains = false by cases e <;> rfl]
    exact h
  refine Effect.Meets.intro fun w hw => ?_
  have hnew : (⟨i, mode, loaded.programId⟩ : Link) ∉ links := hw.1
  refine (verifyAttached_meets hk ⟨i, mode, loaded.programId, loaded.programTag, none⟩ hours (Set.mem_insert _ _)).mono
    (fun _ h => h ▸ hw.2) (fun owned w' h => ?_) fun e w' h => ?_
  · obtain ⟨rfl, hstands⟩ := h
    exact ⟨rfl, hnew, hstands⟩
  · have hback : insert (⟨i, mode, loaded.programId⟩ : Link) links \ {⟨i, mode, loaded.programId⟩} = links :=
      Set.insert_sdiff_self_of_notMem hnew
    rwa [show (⟨i, mode, loaded.programId, loaded.programTag, none⟩ : OwnedXdp).link = ⟨i, mode, loaded.programId⟩ from rfl, hback] at h

theorem detach_meets (hk : k.Behaves) {owned : OwnedXdp} (hours : Ours owned.programId) :
    Effect.Meets (Stands k Ours links) (SafeXdp.detach (rtnetlinkXdpIo k) owned)
      (fun outcome w => match outcome with
        | .detached => owned.link ∈ links ∧ Stands k Ours (links \ {owned.link}) w
        | .alreadyAbsent => owned.link ∉ links ∧ Stands k Ours links w
        | .retainedIdentityMismatch => Stands k Ours links w)
      fun _ => Stands k Ours links := by
  refine Effect.Meets.bind ((queryOrUnknown_meets hk owned.ifindex).mono (fun _ h => h) (fun _ _ h => h) fun _ _ h => h.2) fun current => ?_
  refine Effect.Meets.intro fun w hw => ?_
  obtain ⟨hstands, hreads⟩ := hw
  cases hstate : classifyInventory current (some owned) with
  | empty =>
    intro w' hw'
    cases hw'
    refine ⟨fun hmem => ?_, hstands⟩
    have hon : (k.programs w.now owned.ifindex).slot owned.mode = some owned.programId := (hstands.links owned.link hours).mpr hmem
    rw [hreads.empty (classify_eq_empty hstate owned.mode)] at hon
    cases hon
  | owned =>
    have hmem : owned.link ∈ links := (hstands.links owned.link hours).mp (classify_owned_on hstate hreads)
    refine Effect.Meets.bind (((detachIfMatches_meets hk hours hmem).mono (fun _ h => h ▸ hstands) (fun _ _ h => h)
      fun _ _ h => h).orElseError fun _ _ h => h) fun _ => ?_
    exact fun _ hw => ⟨hmem, hw⟩
  | foreign =>
    rintro _ rfl
    exact hstands
  | unknown =>
    rintro _ rfl
    exact hstands

theorem verify_meets (hk : k.Behaves) {owned : OwnedXdp} (hours : Ours owned.programId) :
    Effect.Meets (Stands k Ours links) (SafeXdp.verify (rtnetlinkXdpIo k) owned)
      (fun _ w => owned.link ∈ links ∧ Stands k Ours links w) fun _ => Stands k Ours links := by
  refine Effect.Meets.bind ((queryOrUnknown_meets hk owned.ifindex).mono (fun _ h => h) (fun _ _ h => h) fun _ _ h => h.2) fun current => ?_
  refine Effect.Meets.ask (fun w _ hw hok => ?_) fun w _ hw _ => hw.1
  obtain ⟨hstands, hreads⟩ := hw
  cases hstate : classifyInventory current (some owned) <;> rw [hstate] at hok <;> cases hok
  exact ⟨(hstands.links owned.link hours).mp (classify_owned_on hstate hreads), hstands⟩

/-! ### Runs -/

inductive XdpCall where
  | attach (ifindex : Nat) (mode : XdpAttachMode) (loaded : LoadedXdp)
  | verify (owned : OwnedXdp)
  | detach (owned : OwnedXdp)

/-- How a call ended, with the link that it is about. -/
inductive XdpReport where
  | attached (link : Link) (result : Except XdpError OwnedXdp)
  | verified (link : Link) (result : Except XdpError Unit)
  | detached (link : Link) (result : Except XdpError XdpDetachOutcome)

def XdpCall.run (k : XdpKernel σ) (call : XdpCall) (w : Wire σ) : XdpReport × Wire σ :=
  match call with
  | .attach i mode loaded => (SafeXdp.attach (rtnetlinkXdpIo k) i mode loaded w).map (.attached ⟨i, mode, loaded.programId⟩) id
  | .verify owned => (SafeXdp.verify (rtnetlinkXdpIo k) owned w).map (.verified owned.link) id
  | .detach owned => (SafeXdp.detach (rtnetlinkXdpIo k) owned w).map (.detached owned.link) id

/-- The program is one of ours, and a loaded one has the id that it says. -/
def XdpCall.Allowed (k : XdpKernel σ) (Ours : Nat → Prop) : XdpCall → Prop
  | .attach _ _ loaded => Ours loaded.programId ∧ k.programOf loaded.programFd = loaded.programId
  | .verify owned | .detach owned => Ours owned.programId

def calling (k : XdpKernel σ) : Recorder (Wire σ) XdpCall XdpReport where
  step w call := (call.run k w).2
  note w call log := (call.run k w).1 :: log

/-- What a report does to the links that are known. -/
def XdpReport.after (links : Set Link) : XdpReport → Set Link
  | .attached link (.ok _) => insert link links
  | .attached link (.error e) => if e.retains then insert link links else links
  | .detached link (.ok .detached) | .detached link (.ok .alreadyAbsent) => links \ {link}
  | .verified _ _ | .detached _ (.ok .retainedIdentityMismatch) | .detached _ (.error _) => links

/-- What the reports say of the links, from those that there were at first. -/
def ledger (links : Set Link) (log : List XdpReport) : Set Link := log.foldr (fun report known => report.after known) links

/-- The report is right about the links that there were before its call. -/
def XdpReport.Right (links : Set Link) : XdpReport → Prop
  | .attached link (.ok owned) => owned.link = link ∧ link ∉ links
  | .verified link (.ok _) | .detached link (.ok .detached) => link ∈ links
  | .detached link (.ok .alreadyAbsent) => link ∉ links
  | .attached _ (.error _) | .verified _ (.error _) | .detached _ (.ok .retainedIdentityMismatch) | .detached _ (.error _) => True

theorem XdpCall.run_stands (hk : k.Behaves) {call : XdpCall} (hcall : call.Allowed k Ours) (h : Stands k Ours links w) :
    (call.run k w).1.Right links ∧ Stands k Ours ((call.run k w).1.after links) (call.run k w).2 := by
  cases call with
  | attach i mode loaded =>
    have hmeets := attach_meets hk i mode hcall.2 hcall.1 w h
    rcases hattach : SafeXdp.attach (rtnetlinkXdpIo k) i mode loaded w with ⟨result, w'⟩
    rw [show XdpCall.run k (.attach i mode loaded) w = (.attached ⟨i, mode, loaded.programId⟩ result, w')
      from congrArg (Prod.map _ id) hattach]
    rw [hattach] at hmeets
    cases result with
    | ok owned =>
      obtain ⟨hlink, habsent, hstands⟩ := hmeets
      rw [hlink] at habsent hstands
      exact ⟨⟨hlink, habsent⟩, hstands⟩
    | error e => exact ⟨trivial, hmeets⟩
  | verify owned =>
    have hmeets := verify_meets hk hcall w h
    rcases hverify : SafeXdp.verify (rtnetlinkXdpIo k) owned w with ⟨result, w'⟩
    rw [show XdpCall.run k (.verify owned) w = (.verified owned.link result, w') from congrArg (Prod.map _ id) hverify]
    rw [hverify] at hmeets
    cases result with
    | ok _ => exact hmeets
    | error e => exact ⟨trivial, hmeets⟩
  | detach owned =>
    have hmeets := detach_meets hk hcall w h
    rcases hdetach : SafeXdp.detach (rtnetlinkXdpIo k) owned w with ⟨result, w'⟩
    rw [show XdpCall.run k (.detach owned) w = (.detached owned.link result, w') from congrArg (Prod.map _ id) hdetach]
    rw [hdetach] at hmeets
    rcases result with e | outcome
    · exact ⟨trivial, hmeets⟩
    · cases outcome with
      | detached => exact hmeets
      | alreadyAbsent =>
        obtain ⟨habsent, hstands⟩ : owned.link ∉ links ∧ Stands k Ours links w' := hmeets
        refine ⟨habsent, ?_⟩
        show Stands k Ours (links \ {owned.link}) w'
        rwa [Set.sdiff_singleton_eq_self habsent]
      | retainedIdentityMismatch => exact ⟨trivial, hmeets⟩

/-- The links are those of the reports, and every report was right when it was made. -/
structure Accounted (k : XdpKernel σ) (Ours : Nat → Prop) (links : Set Link) (w : Wire σ) (log : List XdpReport) : Prop where
  stands : Stands k Ours (ledger links log) w
  right : ∀ report older, (report :: older) <:+ log → report.Right (ledger links older)

theorem Accounted.step (hk : k.Behaves) {log : List XdpReport} (h : Accounted k Ours links w log) {call : XdpCall}
    (hcall : call.Allowed k Ours) : Accounted k Ours links (call.run k w).2 ((call.run k w).1 :: log) := by
  obtain ⟨hnow, hafter⟩ := XdpCall.run_stands hk hcall h.stands
  refine ⟨hafter, fun report older hsuffix => ?_⟩
  rcases List.suffix_cons_iff.mp hsuffix with heq | holder
  · cases heq
    exact hnow
  · exact h.right report older holder

/-- **What the adapter reports of its links is all there is of them, and it touches no others**, in
every run of calls with programs of ours, whatever others do before each request as long as they
leave our links alone, and whichever requests fail. -/
theorem links_accounted (hk : k.Behaves) (Ours : Nat → Prop) (w₀ : Wire σ)
    (hothers : ∀ n s (link : Link), Ours link.programId → (link.On k (w₀.others n s) ↔ link.On k s)) (hfresh : w₀.changes = [])
    (calls : List XdpCall) (hcalls : ∀ call ∈ calls, call.Allowed k Ours) :
    let c := (calling k).run (w₀, []) calls
    (∀ link : Link, Ours link.programId → (link.On k c.1.now ↔ link ∈ ledger {link | link.On k w₀.now} c.2)) ∧
      (∀ report older, (report :: older) <:+ c.2 → report.Right (ledger {link | link.On k w₀.now} older)) ∧
      ∀ change ∈ c.1.changes, Harmless k Ours change := by
  intro c
  have hstart : Accounted k Ours {link | link.On k w₀.now} w₀ [] :=
    ⟨⟨hothers, fun _ hmem => absurd (hfresh ▸ hmem) List.not_mem_nil, fun _ _ => Iff.rfl⟩,
      fun _ _ hsuffix => absurd (List.suffix_nil.mp hsuffix) (List.cons_ne_nil _ _)⟩
  have hobeys : (calling k).Obeys (fun _ call => call.Allowed k Ours) w₀ calls := (calling k).obeys_of_forall hcalls w₀
  have hrun : Accounted k Ours {link | link.On k w₀.now} c.1 c.2 :=
    (calling k).run_invariant_under (Accounted k Ours {link | link.On k w₀.now}) (fun _ _ _ hcall h => h.step hk hcall) (w₀, []) calls
      hobeys hstart
  exact ⟨hrun.stands.links, hrun.right, hrun.stands.harmless⟩

end

/-! ### A kernel that behaves -/

/-- The state is what is attached, by descriptors; a program's id is one more than its descriptor. -/
def plainKernel : XdpKernel (Nat → XdpPrograms) where
  programs s i := ⟨(s i).native.map (· + 1), (s i).generic.map (· + 1), (s i).hardware.map (· + 1)⟩
  getLink i s := .ok ⟨i, [.xdp (XdpPrograms.reported ⟨(s i).native.map (· + 1), (s i).generic.map (· + 1), (s i).hardware.map (· + 1)⟩)]⟩
  setLink message s :=
    match message.xdpValues with
    | .fd fd :: .flags flags :: _ =>
      let mode := if flags &&& xdpFlagsDrvMode ≠ 0 then XdpAttachMode.native else .generic
      if fd < 0 then (.ok (), Function.update s message.index ((s message.index).set mode none))
      else if ((s message.index).slot mode).isSome then (.error .existing, s)
      else (.ok (), Function.update s message.index ((s message.index).set mode (some fd.toNat)))
    | _ => (.error (.failed "no request"), s)
  programFdById id _ := if id = 0 then none else some (id - 1)
  programTag _ id := some (BitVec.ofNat 64 id)
  programOf fd := fd + 1

theorem plainKernel_sets {s : Nat → XdpPrograms} (i : Nat) (mode : XdpAttachMode) (fd : Option Nat) :
    plainKernel.Sets i mode (fd.map (· + 1)) s (Function.update s i ((s i).set mode fd)) := by
  funext j
  by_cases hj : j = i
  · subst hj
    rw [Function.update_self]
    cases mode <;> simp [plainKernel, XdpPrograms.set]
  · rw [Function.update_of_ne hj]
    simp [plainKernel, hj]

theorem plainKernel_behaves : plainKernel.Behaves where
  getLink i s message h _ := by
    cases h
    exact .inl (List.append_nil _)
  nonzero s i mode := by cases mode <;> simp [plainKernel, XdpPrograms.slot]
  hardware s i := by simp [plainKernel]
  attach i mode fd s s' h := by
    have hmode : (if (modeFlags mode ||| xdpFlagsUpdateIfNoexist) &&& xdpFlagsDrvMode ≠ 0 then XdpAttachMode.native else .generic) = mode := by
      cases mode <;> rfl
    simp only [plainKernel, encodeAttachRequest, encodeRequest, LinkMessage.xdpValues, List.flatMap_cons, List.flatMap_nil, List.append_nil,
      List.cons_append, hmode] at h
    split at h
    case isTrue hnegative => exact absurd hnegative (by omega)
    case isFalse =>
      split at h
      case isTrue => cases h
      case isFalse hempty =>
        cases h
        refine ⟨?_, plainKernel_sets i mode (some fd)⟩
        have hnone : (s i).slot mode = none := Option.not_isSome_iff_eq_none.mp hempty
        cases mode <;> exact congrArg (Option.map (· + 1)) hnone
  detach i mode fd s s' h := by
    have hmode : (if modeFlags mode &&& xdpFlagsDrvMode ≠ 0 then XdpAttachMode.native else .generic) = mode := by
      cases mode <;> rfl
    simp only [plainKernel, encodeDetachRequest, encodeRequest, LinkMessage.xdpValues, List.flatMap_cons, List.flatMap_nil, List.append_nil,
      List.cons_append, hmode] at h
    cases h
    exact plainKernel_sets i mode none
  failed message s s' e h := by
    have hsame : s' = s := by
      simp only [plainKernel] at h
      repeat' split at h
      all_goals cases h <;> rfl
    rw [hsame]

/-- Port 3 has a driver program of someone else. -/
def busyPort : Nat → XdpPrograms := fun i => if i = 3 then ⟨some 40, none, none⟩ else ⟨none, none, none⟩

/-- Someone attaches program 51 to port 5 when it is free. -/
def busyWire : Wire (Nat → XdpPrograms) where
  now := busyPort
  others n s := if n = 1 ∧ (s 5).generic = none then Function.update s 5 ((s 5).set .generic (some 50)) else s
  turn := 0
  changes := []

def ourProgram : LoadedXdp := ⟨8, 9, 9⟩

/-- Attaching to a port that is taken, to one that is free, and detaching from it. -/
def attachAndDetach : List XdpCall :=
  [.attach 3 .generic ourProgram, .attach 4 .generic ourProgram, .verify ⟨4, .generic, 9, 9, none⟩, .detach ⟨4, .generic, 9, 9, none⟩]

theorem busyWire_others (n : Nat) (s : Nat → XdpPrograms) (link : Link) (hours : link.programId = 9) :
    link.On plainKernel (busyWire.others n s) ↔ link.On plainKernel s := by
  by_cases hturn : n = 1 ∧ (s 5).generic = none
  · have hothers : busyWire.others n s = Function.update s 5 ((s 5).set .generic (some 50)) := if_pos hturn
    rw [hothers, (plainKernel_sets 5 .generic (some 50)).on]
    split
    case isTrue hslot =>
      obtain ⟨i, mode, program⟩ := link
      cases hslot
      cases hours
      simp [Link.On, plainKernel, XdpPrograms.slot, hturn.2]
    case isFalse => exact Iff.rfl
  · rw [show busyWire.others n s = s from if_neg hturn]

theorem links_accounted_attachAndDetach :
    let c := (calling plainKernel).run (busyWire, []) attachAndDetach
    (∀ change ∈ c.1.changes, Harmless plainKernel (· = 9) change) ∧ c.1.changes.length = 2 ∧
      (⟨4, .generic, 9⟩ ∈ ledger {link | link.On plainKernel busyWire.now} c.2 ↔ (⟨4, .generic, 9⟩ : Link).On plainKernel c.1.now) := by
  intro c
  have haccounted := links_accounted plainKernel_behaves (· = 9) busyWire busyWire_others rfl attachAndDetach (by
    intro call hcall
    fin_cases hcall <;> first | exact ⟨rfl, rfl⟩ | rfl)
  exact ⟨haccounted.2.2, by decide, (haccounted.1 ⟨4, .generic, 9⟩ rfl).symm⟩

end NetworkLoop.Xdp
