import SekaiChisei.Shomei.Bundle

/-! What any sequence of successful attach calls leaves: the declarations of the receipt, rewritten by what was
attached. -/

namespace SekaiChisei.Shomei
open Lib List Table
open Receipts (Crypto)

inductive Attach where
  | artifact (reference : String) (mediaType : Option String) (content : List UInt8)
  | policyAttestation (attestation : PolicyAttestation)

section
variable (crypto : Crypto) (libs : Libraries)

def Attach.run (bundle : AttestationBundle) : Attach → AttestationBundle × Except String Unit
  | .artifact reference mediaType content => bundle.attachArtifact crypto libs reference mediaType content
  | .policyAttestation attestation => bundle.attachPolicyAttestation crypto libs attestation

def attachAll (bundle : AttestationBundle) : List Attach → Except String AttestationBundle
  | [] => .ok bundle
  | call :: rest =>
    match call.run crypto libs bundle with
    | (_, .error error) => .error error
    | (bundle, .ok ()) => attachAll bundle rest

def buildBundle (receipt : OperationReceipt) (calls : List Attach) (signingKey : crypto.SigningKey)
    (identity keyId : String) (signedAtMs : Int) : Except String AttestationBundle := do
  let start ← AttestationBundle.unsigned crypto libs receipt
  let bundle ← attachAll crypto libs start calls
  match bundle.sign crypto libs signingKey identity keyId signedAtMs with
  | (_, .error error) => .error error
  | (signed, .ok ()) => .ok signed

def Attach.bundled : Attach → Option BundledArtifact
  | .artifact reference mediaType content =>
    some ⟨reference, digestAlgorithm, sha256Hex crypto content, content.length, mediaType, libs.encodeBase64 content⟩
  | .policyAttestation _ => none

def Attach.attested : Attach → Option PolicyAttestation
  | .artifact _ _ _ => none
  | .policyAttestation attestation => some attestation

end

def settled (artifacts : List BundledArtifact) (attestations : List PolicyAttestation)
    (expected : CoverageDeclaration) : CoverageDeclaration :=
  match find BundledArtifact.reference artifacts expected.reference with
  | some artifact =>
    { expected with disposition := .embedded, expectedDigest := some artifact.digest, reason := none }
  | none =>
    if expected.kind = "policy_attestation" ∧ expected.reference ∈ attestations.map PolicyAttestation.id then
      { expected with disposition := .embedded, reason := none }
    else expected

section
variable {artifacts : List BundledArtifact} {attestations : List PolicyAttestation}
  {expected : CoverageDeclaration}

theorem settled_names (artifacts : List BundledArtifact) (attestations : List PolicyAttestation)
    (expected : CoverageDeclaration) : (settled artifacts attestations expected).eventId = expected.eventId ∧
      (settled artifacts attestations expected).kind = expected.kind ∧
      (settled artifacts attestations expected).reference = expected.reference := by
  unfold settled
  split
  · exact ⟨rfl, rfl, rfl⟩
  · split
    · exact ⟨rfl, rfl, rfl⟩
    · exact ⟨rfl, rfl, rfl⟩

theorem settled_of_artifact {artifact : BundledArtifact}
    (found : find BundledArtifact.reference artifacts expected.reference = some artifact) :
    settled artifacts attestations expected =
      { expected with disposition := .embedded, expectedDigest := some artifact.digest, reason := none } := by
  unfold settled
  rw [found]

section
variable (free : find BundledArtifact.reference artifacts expected.reference = none)
include free

theorem settled_of_attestation (kind : expected.kind = "policy_attestation")
    (named : expected.reference ∈ attestations.map PolicyAttestation.id) :
    settled artifacts attestations expected = { expected with disposition := .embedded, reason := none } := by
  unfold settled
  rw [free]
  exact if_pos ⟨kind, named⟩

theorem settled_of_untouched
    (other : ¬ (expected.kind = "policy_attestation" ∧ expected.reference ∈ attestations.map PolicyAttestation.id)) :
    settled artifacts attestations expected = expected := by
  unfold settled
  rw [free]
  exact if_neg other

end

end

def embedded (reference digest : String) (declaration : CoverageDeclaration) : CoverageDeclaration :=
  if declaration.reference = reference then
    { declaration with disposition := .embedded, expectedDigest := some digest, reason := none }
  else declaration

theorem embedMatching_ok {reference digest : String} {coverage rewritten : List CoverageDeclaration}
    (run : AttestationBundle.embedMatching reference digest coverage = (rewritten, true)) :
    rewritten = coverage.map (embedded reference digest) ∧
      ∀ declaration ∈ coverage, declaration.reference = reference →
        ∀ expected ∈ declaration.expectedDigest, expected = digest := by
  induction coverage generalizing rewritten with
  | nil =>
    cases run
    exact ⟨rfl, by simp⟩
  | cons declaration rest ih =>
    rw [AttestationBundle.embedMatching] at run
    cases tail : AttestationBundle.embedMatching reference digest rest with
    | mk others through =>
      rw [tail] at run
      by_cases named : declaration.reference = reference
      · rw [if_neg (by simpa using named)] at run
        split at run
        · cases run
        · next agrees =>
          cases run
          obtain ⟨rfl, digests⟩ := ih tail
          refine ⟨?_, forall_mem_cons.mpr ⟨?_, digests⟩⟩
          · rw [map_cons, embedded, if_pos named]
          · intro _ expected member
            rw [Option.mem_def.mp member] at agrees
            simpa using agrees
      · rw [if_pos named] at run
        cases run
        obtain ⟨rfl, digests⟩ := ih tail
        refine ⟨?_, forall_mem_cons.mpr ⟨fun same => absurd same named, digests⟩⟩
        rw [map_cons, embedded, if_neg named]

section
variable {crypto : Crypto} {libs : Libraries} {bundle bundle' : AttestationBundle}

theorem attachArtifact_ok {reference : String} {mediaType : Option String} {content : List UInt8}
    (run : bundle.attachArtifact crypto libs reference mediaType content = (bundle', .ok ())) :
    reference ∉ bundle.artifacts.map BundledArtifact.reference ∧
      (∃ declaration ∈ bundle.coverage, declaration.reference = reference) ∧
      (∀ declaration ∈ bundle.coverage, declaration.reference = reference →
        ∀ expected ∈ declaration.expectedDigest, expected = sha256Hex crypto content) ∧ bundle' = { bundle with
        coverage := bundle.coverage.map (embedded reference (sha256Hex crypto content))
        artifacts := bundle.artifacts ++ [⟨reference, digestAlgorithm, sha256Hex crypto content, content.length,
          mediaType, libs.encodeBase64 content⟩] } := by
  unfold AttestationBundle.attachArtifact at run
  split at run
  · cases run
  split at run
  · cases run
  next free =>
  dsimp only at run
  split at run
  · cases run
  next named =>
  split at run
  · cases run
  split at run
  · cases run
  next coverage embedding =>
  obtain ⟨rfl, digests⟩ := embedMatching_ok embedding
  refine ⟨by simpa using free, ?_, digests, (congrArg Prod.fst run).symm⟩
  simpa [filter_eq_nil_iff] using named

variable {attestation : PolicyAttestation}

theorem verifyPolicyAttestation_hash {receipt : OperationReceipt}
    (valid : (verifyPolicyAttestation crypto libs receipt attestation).valid = true) :
    attestationContentHash crypto attestation = attestation.contentHash := by
  by_contra different
  simp [verifyPolicyAttestation, different] at valid

def attestedBy (attestation : PolicyAttestation) (declaration : CoverageDeclaration) : CoverageDeclaration :=
  if declaration.kind = "policy_attestation" ∧ declaration.reference = attestation.id then
    { declaration with disposition := .embedded, reason := none }
  else declaration

theorem attachPolicyAttestation_ok
    (run : bundle.attachPolicyAttestation crypto libs attestation = (bundle', .ok ())) :
    attestationContentHash crypto attestation = attestation.contentHash ∧ bundle' = { bundle with
        coverage := bundle.coverage.map (attestedBy attestation)
        policyAttestations := bundle.policyAttestations ++ [attestation] } := by
  unfold AttestationBundle.attachPolicyAttestation at run
  split at run
  · cases run
  split at run
  · cases run
  dsimp only at run
  split at run
  · cases run
  next valid =>
  exact ⟨verifyPolicyAttestation_hash (by simpa using valid), (congrArg Prod.fst run).symm⟩

end

structure Built (crypto : Crypto) (libs : Libraries) (start : AttestationBundle) (calls : List Attach)
    (bundle : AttestationBundle) : Prop where
  frame : bundle = { start with
    coverage := bundle.coverage
    artifacts := calls.filterMap (Attach.bundled crypto libs)
    policyAttestations := calls.filterMap Attach.attested }
  coverage : bundle.coverage =
    (coverageFromReceipt start.receipt).map (settled bundle.artifacts bundle.policyAttestations)
  distinct : (bundle.artifacts.map BundledArtifact.reference).Nodup
  declared : ∀ artifact ∈ bundle.artifacts,
    ∃ expected ∈ coverageFromReceipt start.receipt, expected.reference = artifact.reference
  digests : ∀ artifact ∈ bundle.artifacts, ∀ expected ∈ coverageFromReceipt start.receipt,
    expected.reference = artifact.reference → ∀ digest ∈ expected.expectedDigest, digest = artifact.digest
  attested : ∀ attestation ∈ bundle.policyAttestations,
    attestationContentHash crypto attestation = attestation.contentHash

section
variable {crypto : Crypto} {libs : Libraries} {start bundle bundle' : AttestationBundle} {calls : List Attach}
  {receipt : OperationReceipt}

theorem Built.artifacts (built : Built crypto libs start calls bundle) :
    bundle.artifacts = calls.filterMap (Attach.bundled crypto libs) :=
  congrArg AttestationBundle.artifacts built.frame

theorem Built.policyAttestations (built : Built crypto libs start calls bundle) :
    bundle.policyAttestations = calls.filterMap Attach.attested :=
  congrArg AttestationBundle.policyAttestations built.frame

theorem unsigned_ok (run : AttestationBundle.unsigned crypto libs receipt = .ok bundle) :
    ∃ digest chain, receiptDigest crypto libs receipt = .ok digest ∧
      eventDigestChain crypto libs none receipt.events = .ok chain ∧
      bundle = ⟨bundleVersion, receipt.version, verificationPolicyVersion, canonicalizationVersion, digestAlgorithm,
        signatureAlgorithm, digest, chain, receipt, coverageFromReceipt receipt, [], [], none⟩ := by
  obtain ⟨digest, digested, rest⟩ := bind_eq_ok.mp run
  obtain ⟨chain, chained, last⟩ := bind_eq_ok.mp rest
  cases last
  exact ⟨digest, chain, digested, chained, rfl⟩

theorem built_unsigned (run : AttestationBundle.unsigned crypto libs receipt = .ok start) :
    Built crypto libs start [] start := by
  obtain ⟨digest, chain, _, _, rfl⟩ := unsigned_ok run
  refine ⟨rfl, ?_, nodup_nil, by simp, by simp, by simp⟩
  show coverageFromReceipt receipt = (coverageFromReceipt receipt).map (settled [] [])
  rw [map_congr_left (g := id), map_id]
  intro expected _
  exact settled_of_untouched rfl (by simp)

variable {attestations : List PolicyAttestation} {artifacts : List BundledArtifact}

theorem embedded_settled
    {artifact : BundledArtifact} (free : artifact.reference ∉ artifacts.map BundledArtifact.reference)
    (expected : CoverageDeclaration) :
    embedded artifact.reference artifact.digest (settled artifacts attestations expected) =
      settled (artifacts ++ [artifact]) attestations expected := by
  have names := settled_names artifacts attestations expected
  unfold embedded
  rw [names.2.2]
  by_cases named : expected.reference = artifact.reference
  · have none := find_eq_none.mpr free
    have found : find BundledArtifact.reference (artifacts ++ [artifact]) expected.reference = some artifact := by
      rw [named]
      exact find_append_self artifact none
    rw [if_pos named, settled_of_artifact found]
    rw [← named] at none
    unfold settled
    rw [none]
    dsimp only
    split
    · rfl
    · rfl
  · rw [if_neg named]
    unfold settled
    rw [find_append_of_ne named]

theorem attestedBy_settled : attestedBy attestation (settled artifacts attestations expected) =
      settled artifacts (attestations ++ [attestation]) expected := by
  have names := settled_names artifacts attestations expected
  unfold attestedBy
  rw [names.2.1, names.2.2]
  cases found : find BundledArtifact.reference artifacts expected.reference with
  | some artifact =>
    rw [settled_of_artifact found, settled_of_artifact found]
    split
    · rfl
    · rfl
  | none =>
    by_cases named : expected.kind = "policy_attestation" ∧ expected.reference = attestation.id
    · have rewritten : settled artifacts (attestations ++ [attestation]) expected =
          { expected with disposition := .embedded, reason := none } :=
        settled_of_attestation found named.1 (by simp [named.2])
      rw [if_pos named, rewritten]
      unfold settled
      rw [found]
      dsimp only
      split
      · rfl
      · rfl
    · rw [if_neg named]
      unfold settled
      rw [found]
      have same : (expected.kind = "policy_attestation" ∧
            expected.reference ∈ (attestations ++ [attestation]).map PolicyAttestation.id) ↔
          expected.kind = "policy_attestation" ∧ expected.reference ∈ attestations.map PolicyAttestation.id := by
        rw [map_append, mem_append, map_singleton, mem_singleton]
        tauto
      simp only [same]

section
variable (built : Built crypto libs start calls bundle)
include built

theorem Built.attachArtifact {reference : String} {mediaType : Option String} {content : List UInt8}
    (run : bundle.attachArtifact crypto libs reference mediaType content = (bundle', .ok ())) :
    Built crypto libs start (calls ++ [.artifact reference mediaType content]) bundle' := by
  obtain ⟨free, ⟨declaration, member, named⟩, digests, rfl⟩ := attachArtifact_ok run
  rw [built.coverage, mem_map] at member
  obtain ⟨witness, declared, rfl⟩ := member
  rw [(settled_names _ _ _).2.2] at named
  refine ⟨?_, ?_, nodup_append (find_eq_none.mpr free) built.distinct, ?_, ?_, built.attested⟩
  · rw [filterMap_append, filterMap_append]
    simp only [filterMap_cons, filterMap_nil, Attach.bundled, Attach.attested, append_nil]
    rw [built.frame]
  · show bundle.coverage.map _ = _
    rw [built.coverage, map_map]
    refine map_congr_left fun expected _ => ?_
    exact @embedded_settled _ _ ⟨reference, digestAlgorithm, sha256Hex crypto content, content.length, mediaType,
      libs.encodeBase64 content⟩ free expected
  · intro artifact stored
    rcases mem_appended.mp stored with old | rfl
    · exact built.declared artifact old
    · exact ⟨witness, declared, named⟩
  · intro artifact stored expected asked same
    rcases mem_append.mp stored with old | new
    · exact built.digests artifact old expected asked same
    · rw [mem_singleton.mp new] at same ⊢
      have none : find BundledArtifact.reference bundle.artifacts expected.reference = none := by
        rw [same]
        exact find_eq_none.mpr free
      have digest := digests (settled bundle.artifacts bundle.policyAttestations expected)
        (by rw [built.coverage]; exact mem_map_of_mem asked) (by rw [(settled_names _ _ _).2.2, same])
      unfold settled at digest
      rw [none] at digest
      dsimp only at digest
      split at digest
      · exact digest
      · exact digest

theorem Built.attachPolicyAttestation {attestation : PolicyAttestation}
    (run : bundle.attachPolicyAttestation crypto libs attestation = (bundle', .ok ())) :
    Built crypto libs start (calls ++ [.policyAttestation attestation]) bundle' := by
  obtain ⟨hash, rfl⟩ := attachPolicyAttestation_ok run
  refine ⟨?_, ?_, built.distinct, built.declared, built.digests, ?_⟩
  · rw [filterMap_append, filterMap_append]
    simp only [filterMap_cons, filterMap_nil, Attach.bundled, Attach.attested, append_nil]
    rw [built.frame]
  · show bundle.coverage.map _ = _
    rw [built.coverage, map_map]
    exact map_congr_left fun expected _ => attestedBy_settled
  · intro other stored
    rcases mem_append.mp stored with old | new
    · exact built.attested other old
    · rwa [mem_singleton.mp new]

theorem Built.run {call : Attach} (ran : call.run crypto libs bundle = (bundle', .ok ())) :
    Built crypto libs start (calls ++ [call]) bundle' := by
  cases call with
  | artifact reference mediaType content => exact built.attachArtifact ran
  | policyAttestation attestation => exact built.attachPolicyAttestation ran

theorem Built.attachAll {more : List Attach} (ran : attachAll crypto libs bundle more = .ok bundle') :
    Built crypto libs start (calls ++ more) bundle' := by
  induction more generalizing calls bundle with
  | nil =>
    cases ran
    rwa [append_nil]
  | cons call rest ih =>
    rw [Shomei.attachAll] at ran
    split at ran
    · cases ran
    · next next first =>
      have whole := ih (built.run first) ran
      rwa [append_assoc] at whole

end

end

end SekaiChisei.Shomei
