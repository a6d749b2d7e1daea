import SekaiChisei.Receipts.Complete
import SekaiChisei.Shomei.Builder

/-! The verifier on what the builder made: every check but the one of the declarations passes, and that one where the
calls only rewrote what the receipt leaves to be supplied. -/

namespace SekaiChisei.Shomei
open Lib List Option Table Findings Receipts
open Receipts (Crypto)

section
variable {error : String} {findings : List Findings} {condition : Prop} [Decidable condition]

theorem Findings.wrong_ne_fine : wrong error ≠ .fine := by
  intro same
  cases same

theorem Findings.ite_eq_fine : (if condition then fine else .wrong error) = .fine ↔ condition := by
  by_cases holds : condition
  · simp [holds]
  · simp [holds, wrong_ne_fine]

theorem Findings.eq_fine {finding : Findings} : finding = .fine ↔ finding.valid = true ∧ finding.errors = [] := by
  cases finding
  simp [fine]

theorem Findings.all_eq_fine : all findings = .fine ↔ ∀ finding ∈ findings, finding = .fine := by
  simp only [eq_fine, all, List.all_eq_true, flatMap_eq_nil_iff, forall_and]

end

section
variable {expected : CoverageDeclaration} {wanted done : List CoverageDeclaration}
  {rest actual taken : List (CoverageDeclaration × Bool)}

theorem takeFirst_taken : takeFirst expected (done.map (fun declaration => (declaration, true)) ++ rest) =
      (takeFirst expected rest).map (done.map (fun declaration => (declaration, true)) ++ ·) := by
  induction done with
  | nil => simp
  | cons declaration done ih =>
    rw [map_cons, cons_append, takeFirst, ih, Option.map_map]
    rfl

/-- Each declaration takes the one at its own place, since those before it are taken. -/
theorem matchCoverage_map {rewrite : CoverageDeclaration → CoverageDeclaration}
    (all : ∀ expected ∈ wanted, answers expected (rewrite expected) = true) :
    matchCoverage (done.map (fun declaration => (declaration, true)) ++
      (wanted.map rewrite).map (fun declaration => (declaration, false))) wanted = .fine := by
  induction wanted generalizing done with
  | nil => simp [matchCoverage]
  | cons expected wanted ih =>
    obtain ⟨first, others⟩ := forall_mem_cons.mp all
    have next := @ih (done ++ [rewrite expected]) others
    rw [map_append, append_assoc] at next
    rw [matchCoverage, takeFirst_taken, map_cons, map_cons, takeFirst, if_pos ⟨Bool.false_ne_true, first⟩]
    exact next

theorem takeFirst_some (took : takeFirst expected actual = some taken) :
    taken.map Prod.fst = actual.map Prod.fst ∧ ∃ declaration ∈ actual.map Prod.fst, answers expected declaration := by
  induction actual generalizing taken with
  | nil => cases took
  | cons entry rest ih =>
    obtain ⟨declaration, matched⟩ := entry
    rw [takeFirst] at took
    split at took
    · next free =>
      cases took
      exact ⟨rfl, declaration, mem_cons_self, free.2⟩
    · obtain ⟨tail, later, rfl⟩ := map_eq_some_iff.mp took
      obtain ⟨same, found, member, answered⟩ := ih later
      refine ⟨?_, found, mem_cons_of_mem _ member, answered⟩
      rw [map_cons, map_cons, same]

theorem matchCoverage_answered (fine : matchCoverage actual wanted = .fine) :
    ∀ expected ∈ wanted, ∃ declaration ∈ actual.map Prod.fst, answers expected declaration := by
  induction wanted generalizing actual with
  | nil => simp
  | cons expected wanted ih =>
    rw [matchCoverage] at fine
    split at fine
    · have first := all_eq_fine.mp fine _ mem_cons_self
      exact absurd first (wrong_ne_fine)
    · next taken took =>
      obtain ⟨same, found⟩ := takeFirst_some took
      have later := ih fine
      rw [same] at later
      exact forall_mem_cons.mpr ⟨found, later⟩

end

theorem coverageFromReceipt_not_embedded {receipt : OperationReceipt} {expected : CoverageDeclaration}
    (asked : expected ∈ coverageFromReceipt receipt) : expected.disposition ≠ .embedded := by
  rcases mem_append.mp asked with asked | surface
  · rcases mem_append.mp asked with reference | attestation
    · obtain ⟨event, _, reference⟩ := mem_flatMap.mp reference
      obtain ⟨reference, _, rfl⟩ := List.mem_map.mp reference
      unfold referenceDeclaration
      dsimp only
      split
      · decide
      · split
        · decide
        · decide
    · obtain ⟨event, _, declared⟩ := mem_filterMap.mp attestation
      obtain ⟨id, _, declared⟩ := bind_eq_some_iff.mp declared
      obtain ⟨hash, _, declared⟩ := bind_eq_some_iff.mp declared
      cases declared
      intro same
      cases same
  · obtain ⟨uncovered, _, rfl⟩ := List.mem_map.mp surface
    simp [surfaceDeclaration]

def Rewritten (calls : List Attach) (expected : CoverageDeclaration) : Prop :=
  (∃ mediaType content, .artifact expected.reference mediaType content ∈ calls) ∨
    (expected.kind = "policy_attestation" ∧
      ∃ attestation, .policyAttestation attestation ∈ calls ∧ attestation.id = expected.reference)

def Supplied (crypto : Crypto) (calls : List Attach) (expected : CoverageDeclaration) : Prop :=
  (expected.disposition = .referenced ∨ expected.disposition = .unavailable) ∧ (expected.kind = "policy_attestation" →
      ∃ attestation, .policyAttestation attestation ∈ calls ∧ attestation.id = expected.reference ∧
        (expected.expectedDigest = some attestation.contentHash ∨
          (expected.expectedDigest = none ∧ ∃ mediaType content,
            .artifact expected.reference mediaType content ∈ calls ∧
              sha256Hex crypto content = attestation.contentHash)))

section
variable {crypto : Crypto} {libs : Libraries} {start bundle : AttestationBundle} {calls : List Attach}
  {expected : CoverageDeclaration}

theorem mem_attested {attestation : PolicyAttestation} :
    attestation ∈ calls.filterMap Attach.attested ↔ .policyAttestation attestation ∈ calls := by
  rw [mem_filterMap]
  constructor
  · rintro ⟨call, member, made⟩
    cases call with
    | artifact reference mediaType content => cases made
    | policyAttestation other =>
      cases made
      exact member
  · intro member
    exact ⟨_, member, rfl⟩

variable {artifact : BundledArtifact}

theorem mem_bundled : artifact ∈ calls.filterMap (Attach.bundled crypto libs) ↔
      ∃ mediaType content, .artifact artifact.reference mediaType content ∈ calls ∧
        artifact = ⟨artifact.reference, digestAlgorithm, sha256Hex crypto content, content.length, mediaType,
          libs.encodeBase64 content⟩ := by
  rw [mem_filterMap]
  constructor
  · rintro ⟨call, member, made⟩
    cases call with
    | artifact reference mediaType content =>
      cases made
      exact ⟨mediaType, content, member, rfl⟩
    | policyAttestation attestation => cases made
  · rintro ⟨mediaType, content, member, made⟩
    exact ⟨_, member, congrArg some made.symm⟩

section
variable (built : Built crypto libs start calls bundle)
include built

theorem Built.find_artifact {mediaType : Option String}
    {content : List UInt8} (member : .artifact expected.reference mediaType content ∈ calls) :
    ∃ artifact, find BundledArtifact.reference bundle.artifacts expected.reference = some artifact ∧
      artifact.digest = sha256Hex crypto content := by
  have stored := (@mem_bundled crypto libs calls ⟨expected.reference, digestAlgorithm, sha256Hex crypto content,
    content.length, mediaType, libs.encodeBase64 content⟩).mpr ⟨mediaType, content, member, rfl⟩
  rw [← built.artifacts] at stored
  exact ⟨_, find_of_mem built.distinct stored, rfl⟩

theorem Built.mem_artifact
    (found : find BundledArtifact.reference bundle.artifacts expected.reference = some artifact) :
    artifact ∈ bundle.artifacts ∧ ∃ mediaType content, .artifact expected.reference mediaType content ∈ calls ∧
      artifact = ⟨expected.reference, digestAlgorithm, sha256Hex crypto content, content.length, mediaType,
        libs.encodeBase64 content⟩ := by
  have member := mem_of_find?_eq_some found
  have named := key_of_find found
  refine ⟨member, ?_⟩
  rw [built.artifacts, mem_bundled, named] at member
  exact member

theorem Built.mem_attestation : expected.reference ∈ bundle.policyAttestations.map PolicyAttestation.id ↔
      ∃ attestation, .policyAttestation attestation ∈ calls ∧ attestation.id = expected.reference := by
  rw [built.policyAttestations, List.mem_map]
  constructor
  · rintro ⟨attestation, member, named⟩
    exact ⟨attestation, mem_attested.mp member, named⟩
  · rintro ⟨attestation, member, named⟩
    exact ⟨attestation, mem_attested.mpr member, named⟩

/-- The declaration in the bundle is embedded where some call rewrote it, and the receipt's own elsewhere. -/
theorem Built.settled_embedded (rewritten : Rewritten calls expected) :
    (settled bundle.artifacts bundle.policyAttestations expected).disposition = .embedded := by
  cases found : find BundledArtifact.reference bundle.artifacts expected.reference with
  | some artifact => rw [settled_of_artifact found]
  | none =>
    rcases rewritten with ⟨mediaType, content, member⟩ | ⟨kind, attestation⟩
    · obtain ⟨artifact, stored, _⟩ := built.find_artifact member
      rw [found] at stored
      cases stored
    · rw [settled_of_attestation found kind (built.mem_attestation.mpr attestation)]

theorem Built.settled_untouched (untouched : ¬ Rewritten calls expected) :
    settled bundle.artifacts bundle.policyAttestations expected = expected := by
  cases found : find BundledArtifact.reference bundle.artifacts expected.reference with
  | some artifact =>
    obtain ⟨_, mediaType, content, member, _⟩ := built.mem_artifact found
    exact absurd (.inl ⟨mediaType, content, member⟩) untouched
  | none =>
    refine settled_of_untouched found ?_
    rintro ⟨kind, named⟩
    exact untouched (.inr ⟨kind, built.mem_attestation.mp named⟩)

end

section
variable (built : Built crypto libs start calls bundle)
include built

theorem Built.disposition_of_fine (fine : matchCoverage (bundle.coverage.map fun declaration => (declaration, false))
      (coverageFromReceipt start.receipt) = .fine)
    (asked : expected ∈ coverageFromReceipt start.receipt) (rewritten : Rewritten calls expected) :
    expected.disposition = .referenced ∨ expected.disposition = .unavailable := by
  obtain ⟨declaration, member, answered⟩ := matchCoverage_answered fine expected asked
  rw [List.map_map, List.mem_map] at member
  obtain ⟨_, member, rfl⟩ := member
  rw [built.coverage, List.mem_map] at member
  obtain ⟨other, _, rfl⟩ := member
  simp only [answers, Function.comp_apply, Bool.and_eq_true, Bool.or_eq_true, decide_eq_true_eq] at answered
  obtain ⟨⟨⟨⟨_, kind⟩, reference⟩, _⟩, disposition⟩ := answered
  rw [(settled_names _ _ _).2.1] at kind
  rw [(settled_names _ _ _).2.2] at reference
  have embedded := built.settled_embedded (by rwa [Rewritten, kind, reference])
  rcases disposition with same | ⟨_, open'⟩
  · rw [embedded] at same
    exact absurd same.symm (coverageFromReceipt_not_embedded asked)
  · exact open'

theorem Built.attestation_of_fine
    (fine : checkDeclaration crypto libs bundle (settled bundle.artifacts bundle.policyAttestations expected) = .fine)
    (asked : expected ∈ coverageFromReceipt start.receipt) (rewritten : Rewritten calls expected)
    (kind : expected.kind = "policy_attestation") :
    ∃ attestation, .policyAttestation attestation ∈ calls ∧ attestation.id = expected.reference ∧
      (expected.expectedDigest = some attestation.contentHash ∨ (expected.expectedDigest = none ∧ ∃ mediaType content,
          .artifact expected.reference mediaType content ∈ calls ∧
            sha256Hex crypto content = attestation.contentHash)) := by
  obtain ⟨_, sameKind, sameReference⟩ := settled_names bundle.artifacts bundle.policyAttestations expected
  rw [checkDeclaration, if_neg (by simpa using built.settled_embedded rewritten), if_pos (sameKind.trans kind),
    checkPolicyDeclaration, ite_eq_fine, List.any_eq_true] at fine
  obtain ⟨attestation, member, checked⟩ := fine
  simp only [Bool.and_eq_true, decide_eq_true_eq] at checked
  obtain ⟨⟨named, digest⟩, _⟩ := checked
  rw [sameReference] at named
  rw [built.policyAttestations, mem_attested] at member
  refine ⟨attestation, member, named, ?_⟩
  cases found : find BundledArtifact.reference bundle.artifacts expected.reference with
  | none =>
    rw [settled_of_attestation found kind (built.mem_attestation.mpr ⟨attestation, member, named⟩)] at digest
    exact .inl digest.symm
  | some artifact =>
    obtain ⟨stored, mediaType, content, attached, made⟩ := built.mem_artifact found
    rw [settled_of_artifact found] at digest
    have hash : artifact.digest = attestation.contentHash := (some.inj digest).symm
    cases declared : expected.expectedDigest with
    | some own =>
      have same := built.digests artifact stored expected asked (key_of_find found).symm own declared
      rw [same, hash]
      exact .inl rfl
    | none =>
      refine .inr ⟨rfl, mediaType, content, attached, ?_⟩
      rw [← hash, made]

section
variable (asked : expected ∈ coverageFromReceipt start.receipt)
include asked

theorem Built.answers_settled (supplied : Rewritten calls expected → Supplied crypto calls expected) :
    answers expected (settled bundle.artifacts bundle.policyAttestations expected) = true := by
  by_cases rewritten : Rewritten calls expected
  · obtain ⟨eventId, kind, reference⟩ := settled_names bundle.artifacts bundle.policyAttestations expected
    have embedded := built.settled_embedded rewritten
    have disposition := (supplied rewritten).1
    have digest : (settled bundle.artifacts bundle.policyAttestations expected).expectedDigest =
        expected.expectedDigest ∨ expected.expectedDigest = none := by
      cases found : find BundledArtifact.reference bundle.artifacts expected.reference with
      | none =>
        unfold settled
        rw [found]
        dsimp only
        split
        · exact .inl rfl
        · exact .inl rfl
      | some artifact =>
        rw [settled_of_artifact found]
        cases declared : expected.expectedDigest with
        | none => exact .inr rfl
        | some own =>
          have stored := (built.mem_artifact found).1
          have same := built.digests artifact stored expected asked (key_of_find found).symm own declared
          rw [same]
          exact .inl rfl
    simp only [answers, eventId, kind, reference, embedded, decide_true, Bool.true_and, Bool.and_eq_true,
      Bool.or_eq_true, decide_eq_true_eq, isNone_iff_eq_none]
    exact ⟨digest, .inr disposition⟩
  · rw [built.settled_untouched rewritten]
    simp [answers]

theorem Built.checkPolicy_settled
    (kind : expected.kind = "policy_attestation") (supplied : Supplied crypto calls expected) :
    checkPolicyDeclaration crypto bundle (settled bundle.artifacts bundle.policyAttestations expected) = .fine := by
  obtain ⟨attestation, attached, named, digest⟩ := supplied.2 kind
  have member : attestation ∈ bundle.policyAttestations := by
    rw [built.policyAttestations]
    exact mem_attested.mpr attached
  have expectedHash : (settled bundle.artifacts bundle.policyAttestations expected).expectedDigest =
      some attestation.contentHash := by
    cases found : find BundledArtifact.reference bundle.artifacts expected.reference with
    | some artifact =>
      rw [settled_of_artifact found]
      rcases digest with own | ⟨_, mediaType, content, supplied, hash⟩
      · have stored := (built.mem_artifact found).1
        have same := built.digests artifact stored expected asked (key_of_find found).symm _ own
        rw [same]
      · obtain ⟨other, stored, digest⟩ := built.find_artifact supplied
        rw [found] at stored
        cases stored
        rw [← hash, digest]
    | none =>
      rw [settled_of_attestation found kind (built.mem_attestation.mpr ⟨attestation, attached, named⟩)]
      rcases digest with own | ⟨_, mediaType, content, supplied, _⟩
      · exact own
      · obtain ⟨other, stored, _⟩ := built.find_artifact supplied
        rw [found] at stored
        cases stored
  rw [checkPolicyDeclaration, ite_eq_fine, List.any_eq_true]
  refine ⟨attestation, member, ?_⟩
  rw [(settled_names _ _ _).2.2, expectedHash, built.attested attestation member]
  simp [named]

end

theorem Built.checkArtifact_settled (base64 : libs.Lawful)
    (other : expected.kind ≠ "policy_attestation") (rewritten : Rewritten calls expected) :
    checkArtifactDeclaration crypto libs bundle (settled bundle.artifacts bundle.policyAttestations expected) =
      .fine := by
  rcases rewritten with ⟨mediaType, content, attached⟩ | ⟨kind, _⟩
  · obtain ⟨artifact, found, _⟩ := built.find_artifact attached
    have reversed := find_perm built.distinct (reverse_perm bundle.artifacts).symm expected.reference
    rw [found] at reversed
    obtain ⟨_, mediaType, content, _, rfl⟩ := built.mem_artifact found
    rw [checkArtifactDeclaration, (settled_names _ _ _).2.2, reversed, settled_of_artifact found]
    dsimp only
    rw [base64.decode_encode]
    simp
  · exact absurd kind other

theorem Built.checkDeclaration_settled (base64 : libs.Lawful) (asked : expected ∈ coverageFromReceipt start.receipt)
    (supplied : Rewritten calls expected → Supplied crypto calls expected) :
    checkDeclaration crypto libs bundle (settled bundle.artifacts bundle.policyAttestations expected) = .fine := by
  by_cases rewritten : Rewritten calls expected
  · rw [checkDeclaration, if_neg (by simpa using built.settled_embedded rewritten), (settled_names _ _ _).2.1]
    by_cases kind : expected.kind = "policy_attestation"
    · rw [if_pos kind]
      exact built.checkPolicy_settled asked kind (supplied rewritten)
    · rw [if_neg kind]
      exact built.checkArtifact_settled base64 kind rewritten
  · rw [built.settled_untouched rewritten, checkDeclaration, if_pos (coverageFromReceipt_not_embedded asked)]

theorem Built.checkArtifact (stored : artifact ∈ bundle.artifacts) : checkArtifact bundle artifact = .fine := by
  obtain ⟨expected, asked, named⟩ := built.declared artifact stored
  have found := find_of_mem built.distinct stored
  rw [← named] at found
  rw [Shomei.checkArtifact, ite_eq_fine, List.any_eq_true, built.coverage]
  refine ⟨_, List.mem_map_of_mem asked, ?_⟩
  rw [(settled_names _ _ _).2.2, named, settled_of_artifact found]
  simp

theorem Built.receipt : bundle.receipt = start.receipt := by
  have kept := congrArg AttestationBundle.receipt built.frame
  exact kept

theorem Built.verifyArtifacts (base64 : libs.Lawful) : verifyArtifacts crypto libs bundle = .fine ↔
      ∀ expected ∈ coverageFromReceipt start.receipt, Rewritten calls expected → Supplied crypto calls expected := by
  rw [Shomei.verifyArtifacts, all_eq_fine, built.receipt]
  constructor
  · intro fine expected asked rewritten
    have matched := fine _ (mem_append_left _ (mem_append_left _ mem_cons_self))
    have declared : settled bundle.artifacts bundle.policyAttestations expected ∈ bundle.coverage := by
      rw [built.coverage]
      exact List.mem_map_of_mem asked
    have checked := fine _ (mem_append_left _ (mem_append_right _ (List.mem_map_of_mem declared)))
    exact ⟨built.disposition_of_fine matched asked rewritten, built.attestation_of_fine checked asked rewritten⟩
  · intro supplied finding member
    rcases mem_append.mp member with member | artifact
    · rcases mem_append.mp member with whole | declaration
      · rcases mem_cons.mp whole with rfl | distinct
        · rw [built.coverage]
          exact @matchCoverage_map _ [] (settled bundle.artifacts bundle.policyAttestations)
            fun expected asked => built.answers_settled asked (supplied expected asked)
        · rw [mem_singleton.mp distinct]
          exact ite_eq_fine.mpr built.distinct
      · rw [built.coverage, List.map_map, List.mem_map] at declaration
        obtain ⟨expected, asked, rfl⟩ := declaration
        exact built.checkDeclaration_settled base64 asked (supplied expected asked)
    · obtain ⟨artifact, stored, rfl⟩ := List.mem_map.mp artifact
      exact built.checkArtifact stored

variable {receipt : OperationReceipt}

theorem Built.checkFrame (run : AttestationBundle.unsigned crypto libs receipt = .ok start)
    (version : receipt.version = operationReceiptVersion) : checkVersions bundle = .fine ∧
      checkReceiptDigest crypto libs bundle = .fine ∧ checkEventChain crypto libs bundle = .fine := by
  obtain ⟨digest, chain, digested, chained, rfl⟩ := unsigned_ok run
  rw [built.frame]
  refine ⟨?_, ?_, ?_⟩
  · simp [checkVersions, versions, version]
  · simp [checkReceiptDigest, digested]
  · simp [checkEventChain, chained]

end

theorem decodeHex_toHex {size : Nat} {bytes : List UInt8} (length : bytes.length = size) (field : String) :
    decodeHex size field (toHex bytes) = .ok bytes := by
  have ascii : (toHex bytes).toList.all (fun c => c.toNat < 128) = true := by
    rw [List.all_eq_true]
    intro c member
    have small := Char.utf8Size_eq_one_iff.mp (isHexDigit_size (mem_toHex member))
    have bound : c.toNat ≤ 127 := small
    simpa using Nat.lt_succ_of_le bound
  rw [decodeHex, if_neg (by simp [toHex_size, length, ascii]), toHex, String.toList_ofList, hexBytes_hexPair]

variable {signingKey : crypto.SigningKey} {signed : AttestationBundle} {identity : String} {signedAtMs : Int}
  {keyId : String}

theorem sign_ok (run : bundle.sign crypto libs signingKey identity keyId signedAtMs = (signed, .ok ())) :
    ∃ signer bytes, signer = ⟨identity, signatureAlgorithm, keyId,
        toHex (crypto.asBytes (crypto.verifyingKey signingKey)), signedAtMs⟩ ∧
      AttestationBundle.signingBytes libs { bundle with signature := some ⟨signer, ""⟩ } = .ok bytes ∧
      signed = { bundle with signature := some ⟨signer, toHex (crypto.sign signingKey bytes)⟩ } := by
  unfold AttestationBundle.sign at run
  split at run
  · cases run
  split at run
  · cases run
  next identity' first =>
  split at run
  · cases run
  next keyId' second =>
  obtain ⟨_, same⟩ := ite_error_eq_ok.mp first
  cases same
  obtain ⟨_, same⟩ := ite_error_eq_ok.mp second
  cases same
  dsimp only at run
  split at run
  · cases run
  next bytes written =>
  exact ⟨_, bytes, rfl, written, (congrArg Prod.fst run).symm⟩

theorem verifySignature_sign (lawful : crypto.Lawful) {trustedKeys : TrustedKeyring crypto}
    (run : bundle.sign crypto libs signingKey identity keyId signedAtMs = (signed, .ok ()))
    (trusted : trustedKeys.get identity keyId = some (crypto.verifyingKey signingKey)) :
    verifySignature crypto libs signed trustedKeys = ⟨true, true, []⟩ := by
  obtain ⟨signer, bytes, named, written, rfl⟩ := sign_ok run
  have same : AttestationBundle.signingBytes libs
      { bundle with signature := some ⟨signer, toHex (crypto.sign signingKey bytes)⟩ } = .ok bytes := written
  subst named
  rw [verifySignature]
  simp only [ne_eq, not_true_eq_false, if_false, decodeHex_toHex (lawful.publicLength signingKey),
    lawful.fromBytes signingKey, trusted, decodeHex_toHex (lawful.signLength signingKey bytes), same,
    lawful.verify_sign signingKey bytes, if_true]

end

section
variable {crypto : Crypto} {libs : Libraries} {bundle : AttestationBundle} {trustedKeys : TrustedKeyring crypto}

theorem verifyIntegrity_valid : (verifyIntegrity crypto libs bundle trustedKeys).valid = true ↔
    checkVersions bundle = .fine ∧ checkReceiptDigest crypto libs bundle = .fine ∧
      checkEventChain crypto libs bundle = .fine ∧ verifyArtifacts crypto libs bundle = .fine ∧
      verifySignature crypto libs bundle trustedKeys = ⟨true, true, []⟩ := by
  simp only [verifyIntegrity, eq_fine, Bool.and_eq_true, List.isEmpty_iff, append_eq_nil_iff]
  cases verifySignature crypto libs bundle trustedKeys
  simp only [SignatureVerification.mk.injEq]
  tauto

theorem buildBundle_ok {receipt : OperationReceipt} {calls : List Attach} {signed : AttestationBundle}
    {signingKey : crypto.SigningKey} {identity keyId : String} {signedAtMs : Int}
    (run : buildBundle crypto libs receipt calls signingKey identity keyId signedAtMs = .ok signed) :
    ∃ start bundle, AttestationBundle.unsigned crypto libs receipt = .ok start ∧
      attachAll crypto libs start calls = .ok bundle ∧
      bundle.sign crypto libs signingKey identity keyId signedAtMs = (signed, .ok ()) := by
  obtain ⟨start, begun, rest⟩ := bind_eq_ok.mp run
  obtain ⟨bundle, attached, last⟩ := bind_eq_ok.mp rest
  refine ⟨start, bundle, begun, attached, ?_⟩
  split at last
  · cases last
  · next ran =>
    cases last
    exact ran

/-- A signed bundle of the builder is valid exactly when every declaration that a call rewrote is one that the receipt
leaves to be supplied, a policy attestation with the digest it declares. -/
theorem verifyIntegrity_built (lawful : crypto.Lawful) (base64 : libs.Lawful) {receipt : OperationReceipt}
    (version : receipt.version = operationReceiptVersion) {calls : List Attach} {signed : AttestationBundle}
    {signingKey : crypto.SigningKey} {identity keyId : String} {signedAtMs : Int}
    (run : buildBundle crypto libs receipt calls signingKey identity keyId signedAtMs = .ok signed)
    (trusted : trustedKeys.get identity keyId = some (crypto.verifyingKey signingKey)) :
    (verifyIntegrity crypto libs signed trustedKeys).valid = true ↔
      ∀ expected ∈ coverageFromReceipt receipt, Rewritten calls expected → Supplied crypto calls expected := by
  obtain ⟨start, bundle, begun, attached, ran⟩ := buildBundle_ok run
  have built : Built crypto libs start calls bundle := (built_unsigned begun).attachAll attached
  have signature := verifySignature_sign lawful ran trusted
  obtain ⟨signer, bytes, _, _, rfl⟩ := sign_ok ran
  have kept : start.receipt = receipt := by
    obtain ⟨_, _, _, _, rfl⟩ := unsigned_ok begun
    rfl
  have artifacts := built.verifyArtifacts base64
  rw [kept] at artifacts
  rw [verifyIntegrity_valid, ← artifacts]
  constructor
  · intro valid
    exact valid.2.2.2.1
  · intro fine
    obtain ⟨versions, digest, events⟩ := built.checkFrame begun version
    exact ⟨versions, digest, events, fine, signature⟩

end

def plainLibraries : Libraries where
  receiptValue receipt := .ok (.string receipt.operationId)
  linkValue _ event := .ok (.string event.eventId)
  bundleValue bundle := .ok (.string bundle.receiptDigest)
  encodeBase64 := toHex
  decodeBase64 text := some (ofHexPairs text.toList)
  readProperties text := some ⟨[("default_decision", text)], by simp⟩
  debug := id

theorem plainLibraries_lawful : plainLibraries.Lawful where
  decode_encode content := by
    show some (ofHexPairs (toHex content).toList) = some content
    rw [toHex, String.toList_ofList, ofHexPairs_hexPair]

def plainKey : plainCrypto.SigningKey := ⟨List.replicate 32 7, rfl⟩

def plainKeyring : TrustedKeyring plainCrypto := ⟨[(("node:test", "key-1"), List.replicate 32 7)]⟩

def allowed : PolicyAttestation :=
  ⟨"att-1", "d", "action_policy", "s", policyVersion plainCrypto "allow", "allow",
    ⟨[("risk_class", "read")], by simp⟩, "allow", "", 1⟩

def attestedAllowed : PolicyAttestation :=
  { allowed with contentHash := attestationContentHash plainCrypto allowed }

def attestedReceipt : OperationReceipt where
  version := operationReceiptVersion
  operationId := "op-1"
  events := [{
    eventId := "op-1:policy"
    kind := .policyDecided
    surface := .policy
    actor := "chisei.policy"
    references := [⟨"output", "out.txt", none, false, none⟩,
      ⟨"policy_attestation", "att-1", some attestedAllowed.contentHash, false, none⟩]
    attributes := .empty }]
  uncoveredSurfaces := []

def attachedCalls : List Attach := [.policyAttestation attestedAllowed, .artifact "out.txt" none [1, 2]]

def attachedBundle : Except String AttestationBundle :=
  buildBundle plainCrypto plainLibraries attestedReceipt attachedCalls plainKey "node:test" "key-1" 10

theorem verifyIntegrity_built_attested : ∃ signed, attachedBundle = .ok signed ∧
    (verifyIntegrity plainCrypto plainLibraries signed plainKeyring).valid = true := by
  have fine : attachedBundle.toOption.isSome = true := by decide +kernel
  cases run : attachedBundle with
  | error error =>
    rw [run] at fine
    cases fine
  | ok signed =>
    refine ⟨signed, rfl, (verifyIntegrity_built plainCrypto_lawful plainLibraries_lawful rfl run rfl).mpr ?_⟩
    refine forall_mem_cons.mpr ⟨fun _ => ⟨.inr rfl, ?_⟩, forall_mem_singleton.mpr fun _ => ⟨.inl rfl, ?_⟩⟩
    · intro kind
      exact absurd kind (by decide)
    · intro _
      exact ⟨attestedAllowed, mem_cons_self, rfl, .inl rfl⟩

def uncoveredReceipt : OperationReceipt :=
  ⟨operationReceiptVersion, "op-1", [], [⟨.artifact, "artifacts are not recorded"⟩]⟩

def uncoveredBundle : Except String AttestationBundle :=
  buildBundle plainCrypto plainLibraries uncoveredReceipt [.artifact "artifact" none [1, 2]] plainKey
    "node:test" "key-1" 10

/-- An artifact under the name of the uncovered surface is attached, and the bundle is refused. -/
theorem attached_to_uncovered_surface : uncoveredReceipt.version = operationReceiptVersion ∧
      plainKeyring.get "node:test" "key-1" = some (plainCrypto.verifyingKey plainKey) ∧
      (uncoveredBundle.toOption.map fun signed =>
        ((verifyIntegrity plainCrypto plainLibraries signed plainKeyring).valid,
          (verifyIntegrity plainCrypto plainLibraries signed plainKeyring).errors)) =
        some (false, ["receipt reference artifact lacks a matching coverage declaration",
          "bundle contains coverage declarations not present in the receipt"]) := by
  refine ⟨rfl, rfl, ?_⟩
  decide +kernel

end SekaiChisei.Shomei
