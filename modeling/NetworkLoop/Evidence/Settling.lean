import NetworkLoop.Evidence.Durable

/-! The size that a manifest gives for itself.

`build_manifest` looks for a total that counts the text in which it is written. A larger
total has at least as many digits, so the rounds only ever make it larger, and each one
that does not settle it has added a digit. With 20 digits in a `u64` there are at most 21
rounds (`settleRounds_ends`), whatever the strings in the manifest. -/
namespace NetworkLoop.Evidence
open Library Observation

/-! ### The loop, round by round -/

section Rounds
variable (json : EvidenceManifestV1 → Option Bytes)

/-- One round: the loop has its result, or goes on with another total. -/
def settleRound (manifest : EvidenceManifestV1) : Except EvidenceStoreError (EvidenceManifestV1 × Bytes) ⊕ EvidenceManifestV1 :=
  match json manifest with
  | none => .inl (.error .io)
  | some data =>
    match checkedAdd manifest.evidenceBytes data.length with
    | none => .inl (.error .revisionTooLarge)
    | some total => if manifest.totalBytes = total then .inl (.ok (manifest, data)) else .inr { manifest with totalBytes := total }

/-- The loop's result, if it has one within so many rounds. -/
def settleRounds : Nat → EvidenceManifestV1 → Option (Except EvidenceStoreError (EvidenceManifestV1 × Bytes))
  | 0, _ => none
  | rounds + 1, manifest =>
    match settleRound json manifest with
    | .inl result => some result
    | .inr next => settleRounds rounds next

/-- `build_manifest`, for any package version. -/
def buildManifestWithin (sha256Hex : Bytes → String) (revision : IncidentRevisionV1) (evidence : Bytes) (packageVersion : String)
    (rounds : Nat) : Option (Except EvidenceStoreError (EvidenceManifestV1 × Bytes)) :=
  (settleRounds json rounds {
    schemaVersion := evidenceSchemaVersion
    eventId := revision.eventId
    revision := revision.revision
    currentState := revision.currentState
    evidenceFile := "evidence.json"
    evidenceBytes := evidence.length
    evidenceSha256 := sha256Hex evidence
    totalBytes := evidence.length
    packageVersion }).map fun settled => settled >>= fun (manifest, data) =>
      if manifest.validate then .ok (manifest, data) else .error .invalidRevision

end Rounds

/-- The loop of the store is this one, for as many rounds as it is given. -/
theorem settleManifest_eq (F : Formats) (rounds : Nat) (m : EvidenceManifestV1) :
    settleManifest F rounds m = (settleRounds F.manifestJson rounds m).getD (.error .io) := by
  induction rounds generalizing m with
  | zero => rfl
  | succ rounds ih =>
    rw [settleManifest, settleRounds, settleRound]
    cases F.manifestJson m with
    | none => rfl
    | some data =>
      dsimp only
      cases checkedAdd m.evidenceBytes data.length with
      | none => rfl
      | some total =>
        dsimp only
        split
        case isTrue => rfl
        case isFalse => exact ih _

theorem buildManifest_eq (F : Formats) (revision : IncidentRevisionV1) (evidence : Bytes) (packageVersion : PackageVersion)
    {result : Except EvidenceStoreError (EvidenceManifestV1 × Bytes)}
    (h : buildManifestWithin F.manifestJson F.sha256Hex revision evidence packageVersion.text (evidenceMaxRevisionBytes + 2) = some result) :
    buildManifest F revision evidence packageVersion = result := by
  rw [buildManifest, settleManifest_eq]
  obtain ⟨settled, hsettled, rfl⟩ := Option.map_eq_some_iff.mp h
  rw [hsettled]
  rfl

/-! ### Why it ends -/

/-- The number of decimal digits. -/
def decimals (n : Nat) : Nat := (Nat.toDigits 10 n).length

theorem decimals_pos (n : Nat) : 0 < decimals n := Nat.length_toDigits_pos

theorem decimals_mono {a b : Nat} (h : a ≤ b) : decimals a ≤ decimals b := by
  rw [decimals, Nat.length_toDigits_le_iff (by decide) (decimals_pos b)]
  calc a
    _ ≤ b := h
    _ < 10 ^ decimals b := (Nat.length_toDigits_le_iff (by decide) (decimals_pos b)).mp (Nat.le_refl _)

/-- A `u64` has at most 20 digits. -/
theorem decimals_u64 {n : Nat} (h : n < u64Bound) : decimals n ≤ 20 := by
  have hbound : u64Bound ≤ 10 ^ 20 := by decide
  exact (Nat.length_toDigits_le_iff (by decide) (by decide)).mpr (Nat.lt_of_lt_of_le h hbound)

/-- The text has the total in decimal digits, and nothing else in it gets longer or shorter with
the total. -/
def CountsDecimal (json : EvidenceManifestV1 → Option Bytes) : Prop :=
  ∀ (m : EvidenceManifestV1) (total : Nat) data data', json m = some data → json { m with totalBytes := total } = some data' →
    data'.length + decimals m.totalBytes = data.length + decimals total

section Ends
variable {json : EvidenceManifestV1 → Option Bytes} {m : EvidenceManifestV1}

/-- Where the loop goes on, the total was not the right one. -/
theorem settleRound_eq_inr {next : EvidenceManifestV1} (h : settleRound json m = .inr next) :
    ∃ data, json m = some data ∧ m.evidenceBytes + data.length < u64Bound ∧ m.totalBytes ≠ m.evidenceBytes + data.length ∧
      next = { m with totalBytes := m.evidenceBytes + data.length } := by
  rw [settleRound] at h
  split at h
  case h_1 => cases h
  case h_2 data hdata =>
    rw [checkedAdd] at h
    split at h
    case h_1 => cases h
    case h_2 total hsum =>
      obtain ⟨hlt, hsum⟩ := Option.ite_none_right_eq_some.mp hsum
      obtain rfl := Option.some_inj.mp hsum
      split at h
      case isTrue => cases h
      case isFalse hwrong => exact ⟨data, hdata, hlt, hwrong, (Sum.inr.inj h).symm⟩

/-- So many rounds are enough as there are digits that the total does not have yet. -/
theorem settleRounds_ends (hjson : CountsDecimal json) {rounds : Nat}
    (hbelow : ∀ data, json m = some data → m.totalBytes ≤ m.evidenceBytes + data.length)
    (hrounds : 21 ≤ rounds + decimals m.totalBytes ∨ ∀ data, json m = some data → m.totalBytes = m.evidenceBytes + data.length) :
    ∃ result, ∀ more, settleRounds json (rounds + 1 + more) m = some result := by
  induction rounds generalizing m with
  | zero =>
    cases hround : settleRound json m with
    | inl result => exact ⟨result, fun more => by rw [Nat.add_right_comm, settleRounds, hround]⟩
    | inr next =>
      obtain ⟨data, hdata, hlt, hwrong, -⟩ := settleRound_eq_inr hround
      have hfew := hrounds.resolve_right fun hsettled => hwrong (hsettled data hdata)
      have hdigits := decimals_mono (hbelow data hdata)
      have hlong := decimals_u64 hlt
      omega
  | succ rounds ih =>
    cases hround : settleRound json m with
    | inl result => exact ⟨result, fun more => by rw [Nat.add_right_comm, settleRounds, hround]⟩
    | inr next =>
      obtain ⟨data, hdata, -, hwrong, rfl⟩ := settleRound_eq_inr hround
      have hfew := hrounds.resolve_right fun hsettled => hwrong (hsettled data hdata)
      have hdigits := decimals_mono (hbelow data hdata)
      -- the next text is longer by the digits that the total has gained, and settled if by none
      have hnext : ∀ data', json { m with totalBytes := m.evidenceBytes + data.length } = some data' →
          data'.length + decimals m.totalBytes = data.length + decimals (m.evidenceBytes + data.length) :=
        fun data' => hjson m _ data data' hdata
      obtain ⟨result, hends⟩ := @ih { m with totalBytes := m.evidenceBytes + data.length }
        (fun data' hdata' => by
          have hlength := hnext data' hdata'
          show m.evidenceBytes + data.length ≤ m.evidenceBytes + data'.length
          omega)
        (by
          by_cases hgained : decimals (m.evidenceBytes + data.length) = decimals m.totalBytes
          · right
            intro data' hdata'
            have hlength := hnext data' hdata'
            show m.evidenceBytes + data.length = m.evidenceBytes + data'.length
            omega
          · left
            show 21 ≤ rounds + decimals (m.evidenceBytes + data.length)
            omega)
      refine ⟨result, fun more => ?_⟩
      rw [Nat.add_right_comm, settleRounds, hround]
      exact hends more

/-- A settled total counts the evidence and the text. -/
theorem settleRounds_eq_ok {rounds : Nat} {manifest : EvidenceManifestV1} {data : Bytes}
    (h : settleRounds json rounds m = some (.ok (manifest, data))) :
    json manifest = some data ∧ manifest.totalBytes = m.evidenceBytes + data.length := by
  induction rounds generalizing m with
  | zero => cases h
  | succ rounds ih =>
    rw [settleRounds] at h
    split at h
    case h_1 result hround =>
      rw [settleRound] at hround
      split at hround
      case h_1 => cases hround; cases h
      case h_2 text htext =>
        split at hround
        case h_1 => cases hround; cases h
        case h_2 total hsum =>
          split at hround
          case isTrue heq =>
            cases hround
            cases h
            exact ⟨htext, heq.trans (checkedAdd_eq_some hsum)⟩
          case isFalse => cases hround
    case h_2 next hround =>
      obtain ⟨text, -, -, -, rfl⟩ := settleRound_eq_inr hround
      exact @ih { m with totalBytes := m.evidenceBytes + text.length } h

end Ends

/-- **A manifest settles on its own size**, within 21 rounds. -/
theorem manifest_settles {json : EvidenceManifestV1 → Option Bytes} (hjson : CountsDecimal json) (sha256Hex : Bytes → String)
    (revision : IncidentRevisionV1) (evidence : Bytes) (packageVersion : String) :
    ∃ result, (∀ rounds, 21 ≤ rounds → buildManifestWithin json sha256Hex revision evidence packageVersion rounds = some result) ∧
      ∀ manifest data, result = .ok (manifest, data) →
        manifest.totalBytes = evidence.length + data.length ∧ json manifest = some data := by
  have hdigits := decimals_pos evidence.length
  -- the manifest that the loop starts with
  obtain ⟨settled, hends⟩ := @settleRounds_ends json ⟨evidenceSchemaVersion, revision.eventId, revision.revision,
      revision.currentState, "evidence.json", evidence.length, sha256Hex evidence, evidence.length, packageVersion⟩ hjson 20
    (fun data _ => Nat.le_add_right ..) (.inl (show 21 ≤ 20 + decimals evidence.length by omega))
  refine ⟨settled >>= fun (manifest, data) => if manifest.validate then .ok (manifest, data) else .error .invalidRevision, ?_, ?_⟩
  · intro rounds hrounds
    obtain ⟨more, rfl⟩ := Nat.exists_eq_add_of_le hrounds
    exact congrArg (Option.map _) (hends more)
  · intro manifest data hresult
    obtain ⟨⟨found, text⟩, rfl, hvalid⟩ := bind_eq_ok.mp hresult
    dsimp only at hvalid
    split at hvalid
    case isFalse => cases hvalid
    case isTrue =>
      cases hvalid
      exact (settleRounds_eq_ok (hends 0)).symm

/-! ### A settled manifest -/

/-- The bytes of a text of ASCII characters. -/
def asciiBytes (text : List Char) : Bytes := text.map fun c => UInt8.ofNat c.toNat

def stateText : Detection.DetectionState → String
  | .warmingUp => "warming_up"
  | .normal => "normal"
  | .ingressStormConfirmed => "ingress_storm_confirmed"
  | .egressStormConfirmed => "egress_storm_confirmed"
  | .bidirectionalStormConfirmed => "bidirectional_storm_confirmed"
  | .externalLoopSuspected => "external_loop_suspected"
  | .externalLoopHighConfidence => "external_loop_high_confidence"
  | .cooldown => "cooldown"
  | .unavailable => "unavailable"

/-- The pretty JSON of a manifest in whose strings nothing is to be escaped. -/
def prettyManifest (m : EvidenceManifestV1) : Option Bytes :=
  some (asciiBytes ("\x7b\n  \"schema_version\": ".toList ++ Nat.toDigits 10 m.schemaVersion ++
    ",\n  \"event_id\": \"".toList ++ eventIdText m.eventId ++
    "\",\n  \"revision\": ".toList ++ Nat.toDigits 10 m.revision ++
    ",\n  \"current_state\": \"".toList ++ (stateText m.currentState).toList ++
    "\",\n  \"evidence_file\": \"".toList ++ m.evidenceFile.toList ++
    "\",\n  \"evidence_bytes\": ".toList ++ Nat.toDigits 10 m.evidenceBytes ++
    ",\n  \"evidence_sha256\": \"".toList ++ m.evidenceSha256.toList ++
    "\",\n  \"total_bytes\": ".toList ++ Nat.toDigits 10 m.totalBytes ++
    ",\n  \"package_version\": \"".toList ++ m.packageVersion.toList ++ "\"\n\x7d".toList))

theorem prettyManifest_counts : CountsDecimal prettyManifest := by
  intro m total data data' hdata hdata'
  rw [← Option.some_inj.mp hdata, ← Option.some_inj.mp hdata']
  simp only [asciiBytes, List.length_map, List.length_append, decimals]
  omega

/-- With 660 bytes of evidence no total has three digits, and none is 1000. -/
theorem manifest_settles_crossing : ∃ manifest data,
    buildManifestWithin prettyManifest (fun _ => String.ofList (List.replicate 64 '0')) (sampleRevision 5 1 2000 none)
      (List.replicate 660 32) "0.1.0" 21 = some (.ok (manifest, data)) ∧
    manifest.totalBytes = 1001 ∧ data.length = 341 ∧ prettyManifest manifest = some data := by
  obtain ⟨result, hruns, hexact⟩ := manifest_settles prettyManifest_counts (fun _ => String.ofList (List.replicate 64 '0'))
    (sampleRevision 5 1 2000 none) (List.replicate 660 32) "0.1.0"
  have htotal : (buildManifestWithin prettyManifest (fun _ => String.ofList (List.replicate 64 '0')) (sampleRevision 5 1 2000 none)
      (List.replicate 660 32) "0.1.0" 21).map (fun built => built.toOption.map fun pair => pair.1.totalBytes) = some (some 1001) := by
    decide +kernel
  have hrun := hruns 21 (Nat.le_refl _)
  rw [hrun] at htotal
  cases result with
  | error e => cases htotal
  | ok pair =>
    obtain ⟨manifest, data⟩ := pair
    obtain ⟨hsum, hjson⟩ := hexact manifest data rfl
    have hthousand : manifest.totalBytes = 1001 := by simpa [Except.toOption] using htotal
    rw [List.length_replicate] at hsum
    exact ⟨manifest, data, hrun, hthousand, by omega, hjson⟩

end NetworkLoop.Evidence
