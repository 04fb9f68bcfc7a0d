import NetworkLoop.Evidence.RoundTrip

/-! A put that fails.

It leaves index and counters alone, and a restart finds what it would have found before, unless
the call that failed comes after the rename, or the put has made an event directory whose name
displaces an event from a full root (`refused_put_unmoved`). `run_unmoved` is about whole runs,
and `unsettled_revision_found` about the sync that fails. -/
namespace NetworkLoop.Evidence
open Library Observation Table

/-- A new directory for the event would displace one that a restart finds now. -/
def Crowds (F : Formats) (uid : Nat) (t : Disk) (eventId : EventId) : Prop :=
  t.get [eventName eventId] = none ∧ ∃ other, foundEvent F uid t other ≠ none ∧ eventName eventId < eventName other ∧
    place t other + 1 = evidenceMaxEvents

/-- What happens outside does not keep the put from making the event's directory. -/
def Outside.Enters (o : Outside) (eventId : EventId) : Prop :=
  o.failure .metadata [eventName eventId] = none ∧ o.failure (.checkpoint .createEvent) [eventName eventId] = none ∧
    ∀ failure ∈ o.failure .createDirectory [eventName eventId], failure.made ≠ none

/-- No call fails after the rename, and no directory is made that displaces an event. -/
def Settled (F : Formats) (s : LinuxEvidenceStore × Disk) : StoreCall → Prop
  | .put o temporary revision =>
    (o.Passes (commitCalls [eventName revision.eventId] temporary.name) → o.Passes (settleCalls [eventName revision.eventId])) ∧
      ¬(o.Enters revision.eventId ∧ Crowds F o.uid s.2 revision.eventId)
  | _ => True

variable {F : Formats} {o : Outside} {uid : Nat} {t t' b : Disk} {s : LinuxEvidenceStore} {revision : IncidentRevisionV1}
  {admitted : Admitted} {temporary : Temporary} {eventId : EventId}

/-! ### One put -/

/-- Where the directory is missing and cannot be made, the disk is left as it is. -/
theorem writeRevision_kept_out (hfree : t.get [eventName revision.eventId] = none) (h : ¬o.Enters revision.eventId) :
    writeRevision o revision temporary admitted t = (.error .io, t) := by
  have hensure : ensureEventDirectory o revision.eventId t = (.error .io, t) := by
    unfold ensureEventDirectory Outside.metadata
    cases hmetadata : o.failure .metadata [eventName revision.eventId] with
    | some failure => rfl
    | none =>
      rw [hfree]
      show (asIo (o.checkpoint .createEvent [eventName revision.eventId]) >>= fun _ =>
        asIo (o.createDirectory [eventName revision.eventId] 0o700) >>= fun _ => asIo (o.syncDirectory .syncDirectory [])) t = _
      cases hcheckpoint : o.failure (.checkpoint .createEvent) [eventName revision.eventId] with
      | some failure =>
        have hstop : asIo (o.checkpoint .createEvent [eventName revision.eventId]) t = (.error .io, t) := by
          unfold asIo Outside.checkpoint Outside.check Effect.orElseError Effect.ask
          rw [hcheckpoint]
          rfl
        exact Effect.bind_of_error hstop
      | none =>
        rw [Effect.bind_of_ok (asIo_eq_ok.mpr (checkpoint_eq_ok.mpr ⟨hcheckpoint, rfl⟩))]
        have hmade : ∃ failure, o.failure .createDirectory [eventName revision.eventId] = some failure ∧ failure.made = none := by
          by_contra hall
          exact h ⟨hmetadata, hcheckpoint, fun failure hfailure hnone => hall ⟨failure, hfailure, hnone⟩⟩
        obtain ⟨failure, hfailure, hnone⟩ := hmade
        have hstop : asIo (o.createDirectory [eventName revision.eventId] 0o700) t = (.error .io, t) := by
          unfold asIo Outside.createDirectory Outside.create Effect.orElseError
          dsimp only
          rw [hfree, hfailure]
          dsimp only
          rw [hnone]
          rfl
        exact Effect.bind_of_error hstop
  exact Effect.bind_of_error hensure

/-- A checkpoint of an event's commit that fails. -/
def failingAt (step : EvidenceIoStep) (eventId : EventId) : Outside where
  uid := 0
  failure := fun call path =>
    if call = .checkpoint step ∧ path = [eventName eventId] then some ⟨none, fun _ => true⟩ else none

section
variable {step : EvidenceIoStep}

theorem failingAt_none {call : IoCall} (h : call ≠ .checkpoint step) (path : Path) :
    (failingAt step eventId).failure call path = none := if_neg fun hboth => h hboth.1

theorem failingAt_fails : (failingAt step eventId).failure (.checkpoint step) [eventName eventId] ≠ none := by
  simp [failingAt]

/-- The event's directory is made all the same. -/
theorem failingAt_ensures (hstep : step ≠ .createEvent) : (failingAt step eventId).Passes (ensureCalls eventId) := by
  intro call hcall
  refine failingAt_none (fun heq => ?_) _
  simp only [ensureCalls, List.mem_cons, List.not_mem_nil, or_false] at hcall
  rcases hcall with rfl | rfl | rfl | rfl | rfl
  · cases heq
  · cases heq
  · cases heq
    exact hstep rfl
  · cases heq
  · cases heq

end

end NetworkLoop.Evidence
