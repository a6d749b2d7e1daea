import SekaiChisei.GovernedAction.Policy
import SekaiChisei.Lib.JsonValue
import SekaiChisei.Receipts.Chain

/-!
Portable operation attestations, `shomei.rs`: the builder of bundles and the integrity half of their verifier. Fields
of a receipt that are only serialised are left out.
-/

namespace SekaiChisei.Shomei
open Lib Objects List Json
open GovernedAction (ActionPolicy RiskClass PolicyError)
open Receipts (Crypto)

def operationReceiptVersion : String := "operation.receipt/v1"
def bundleVersion : String := "shomei.bundle/v3"
def canonicalizationVersion : String := "shomei.canonical-json/v1"
def verificationPolicyVersion : String := "shomei.verify/v1"
def digestAlgorithm : String := "sha-256"
def signatureAlgorithm : String := "ed25519"

inductive ReceiptSurface where
  | intent | context | policy | routing | budget | approval | egress | attempt | modelCall | action | artifact
  | verification | intervention | outcome | memory
  deriving DecidableEq

def ReceiptSurface.asStr : ReceiptSurface → String
  | intent => "intent"
  | context => "context"
  | policy => "policy"
  | routing => "routing"
  | budget => "budget"
  | approval => "approval"
  | egress => "egress"
  | attempt => "attempt"
  | modelCall => "model_call"
  | action => "action"
  | artifact => "artifact"
  | verification => "verification"
  | intervention => "intervention"
  | outcome => "outcome"
  | memory => "memory"

inductive ReceiptEventKind where
  | intentRecorded | contextGoverned | policyDecided | routeSelected | budgetDecided | approvalDecided
  | egressDecided | attemptStarted | modelCalled | actionPerformed | artifactProduced | verificationRecorded
  | humanIntervened | outcomeRecorded | memoryOutcomeRecorded
  deriving DecidableEq

structure GovernedReference where
  (kind reference : String)
  contentHash : Option String
  omitted : Bool
  omissionReason : Option String

structure OperationReceiptEvent where
  eventId : String
  kind : ReceiptEventKind
  surface : ReceiptSurface
  actor : String
  references : List GovernedReference
  attributes : Properties

structure UncoveredSurface where
  surface : ReceiptSurface
  reason : String

structure OperationReceipt where
  (version operationId : String)
  events : List OperationReceiptEvent
  uncoveredSurfaces : List UncoveredSurface

structure PolicyAttestation where
  (id decisionId policyKind policyScope policyVersion policySnapshot : String)
  inputs : Properties
  (decision contentHash : String)
  created : Int

structure EventDigest where
  eventId : String
  previousDigest : Option String
  digest : String
  deriving DecidableEq

structure SignerIdentity where
  (identity algorithm keyId publicKey : String)
  signedAtMs : Int

structure BundleSignature where
  signer : SignerIdentity
  value : String

inductive CoverageDisposition where
  | embedded | referenced | redacted | unavailable | uncovered
  deriving DecidableEq

structure CoverageDeclaration where
  (eventId kind reference : String)
  disposition : CoverageDisposition
  (expectedDigest reason : Option String)

structure BundledArtifact where
  (reference digestAlgorithm digest : String)
  sizeBytes : Nat
  mediaType : Option String
  contentBase64 : String

/-- `extensions` is empty in every bundle of the builder. -/
structure AttestationBundle where
  (bundleVersion receiptSchemaVersion verificationPolicyVersion canonicalization digestAlgorithm : String)
  (signatureAlgorithm receiptDigest : String)
  eventChain : List EventDigest
  receipt : OperationReceipt
  coverage : List CoverageDeclaration
  artifacts : List BundledArtifact
  policyAttestations : List PolicyAttestation
  signature : Option BundleSignature

/-- What the code takes from serde, base64 and the formatter: the documents of the types it signs or hashes, the
standard base64 engine, the map that a snapshot is read into, and `{:?}` of a string. -/
structure Libraries where
  receiptValue : OperationReceipt → Except String Json.Value
  linkValue : Option String → OperationReceiptEvent → Except String Json.Value
  bundleValue : AttestationBundle → Except String Json.Value
  encodeBase64 : List UInt8 → String
  decodeBase64 : String → Option (List UInt8)
  readProperties : String → Option Properties
  debug : String → String

structure Libraries.Lawful (libs : Libraries) : Prop where
  decode_encode : ∀ content, libs.decodeBase64 (libs.encodeBase64 content) = some content

/-- `Number::is_f64`, by the text of the number. -/
def isFloat (text : String) : Bool := text.toList.any fun c => c = '.' || c = 'e' || c = 'E'

mutual

def rejectFloats : Json.Value → Except String Unit
  | .number text =>
    if isFloat text then .error "floating-point numbers are not supported by shomei.canonical-json/v1" else .ok ()
  | .array items => rejectFloatItems items
  | .object fields => rejectFloatFields fields
  | _ => .ok ()

def rejectFloatItems : List Json.Value → Except String Unit
  | [] => .ok ()
  | item :: items => do
    rejectFloats item
    rejectFloatItems items

def rejectFloatFields : List (String × Json.Value) → Except String Unit
  | [] => .ok ()
  | (_, value) :: fields => do
    rejectFloats value
    rejectFloatFields fields

end

def canonicalJson (toValue : Except String Json.Value) : Except String (List UInt8) := do
  let value ← toValue
  rejectFloats value
  return utf8 value.canonical.text

/-- `u8::from_str_radix` of two characters, which takes a plus sign. -/
def hexByte (high low : Char) : Option UInt8 :=
  if ¬ isHexDigit low then none
  else if isHexDigit high then some (UInt8.ofNat (16 * hexValue high + hexValue low))
  else if high = '+' then some (UInt8.ofNat (hexValue low))
  else none

def hexBytes : List Char → Option (List UInt8)
  | high :: low :: rest => do
    let byte ← hexByte high low
    let bytes ← hexBytes rest
    return byte :: bytes
  | _ => some []

theorem hexBytes_hexPair (bytes : List UInt8) : hexBytes (bytes.flatMap hexPair) = some bytes := by
  induction bytes with
  | nil => rfl
  | cons byte bytes ih =>
    have small := byte.toNat_lt
    have high := hexDigit_spec (byte.toNat / 16) (by omega)
    have low := hexDigit_spec (byte.toNat % 16) (by omega)
    have whole : 16 * (byte.toNat / 16) + byte.toNat % 16 = byte.toNat := by omega
    have first : hexByte (hexDigit (byte.toNat / 16)) (hexDigit (byte.toNat % 16)) = some byte := by
      rw [hexByte, if_neg (by simp [low.2]), if_pos high.2, high.1, low.1, whole, UInt8.ofNat_toNat]
    rw [flatMap_cons, hexPair, cons_append, cons_append, nil_append, hexBytes, first, ih]
    rfl

def decodeHex (size : Nat) (field value : String) : Except String (List UInt8) :=
  if value.utf8ByteSize ≠ size * 2 ∨ ¬ value.toList.all (fun c => c.toNat < 128) then
    .error (field ++ " must contain " ++ toString size ++ " hexadecimal bytes")
  else
    match hexBytes value.toList with
    | none => .error (field ++ " is not hexadecimal")
    | some bytes => .ok bytes

def required (field value : String) : Except String String :=
  if trim value = "" then .error (field ++ " is required") else .ok value

def referenceDeclaration (event : OperationReceiptEvent) (reference : GovernedReference) : CoverageDeclaration where
  eventId := event.eventId
  kind := reference.kind
  reference := reference.reference
  disposition :=
    if reference.omitted then .redacted else if reference.contentHash.isSome then .referenced else .unavailable
  expectedDigest := reference.contentHash
  reason :=
    if reference.omitted then some (reference.omissionReason.getD "content was redacted")
    else if reference.contentHash.isSome then none
    else some "reference has no content digest or embedded material"

def attestationDeclaration (event : OperationReceiptEvent) : Option CoverageDeclaration := do
  let id ← event.attributes.get "attestation_id"
  let hash ← event.attributes.get "attestation_hash"
  return ⟨event.eventId, "policy_attestation", id, .referenced, some hash, none⟩

def surfaceDeclaration (uncovered : UncoveredSurface) : CoverageDeclaration :=
  ⟨"", "receipt_surface", uncovered.surface.asStr, .uncovered, none, some uncovered.reason⟩

def coverageFromReceipt (receipt : OperationReceipt) : List CoverageDeclaration :=
  receipt.events.flatMap (fun event => event.references.map (referenceDeclaration event)) ++
    receipt.events.filterMap attestationDeclaration ++ receipt.uncoveredSurfaces.map surfaceDeclaration

section
variable (crypto : Crypto) (libs : Libraries)

/-- `encode_hex(&Sha256::digest(content))`, which is also `sha256_hex`. -/
def sha256Hex (content : List UInt8) : String := toHex (crypto.sha256 content)

def digestSerializable (toValue : Except String Json.Value) : Except String String := do
  let bytes ← canonicalJson toValue
  return sha256Hex crypto bytes

variable (receipt : OperationReceipt)

def receiptDigest : Except String String :=
  digestSerializable crypto (libs.receiptValue receipt)

def eventDigestChain (previous : Option String) : List OperationReceiptEvent → Except String (List EventDigest)
  | [] => .ok []
  | event :: events => do
    let digest ← digestSerializable crypto (libs.linkValue previous event)
    let chain ← eventDigestChain (some digest) events
    return ⟨event.eventId, previous, digest⟩ :: chain

def policyVersion (snapshot : String) : String := sha256Hex crypto (utf8 snapshot)

def attestationContentHash (attestation : PolicyAttestation) : String :=
  sha256Hex crypto <| utf8 <| array
    [string attestation.id, string attestation.decisionId, string attestation.policyKind,
      string attestation.policyScope, string attestation.policyVersion,
      string attestation.policySnapshot,
      object (attestation.inputs.entries.map fun entry => (entry.1, string entry.2)),
      string attestation.decision, number attestation.created]

def replayDecision (attestation : PolicyAttestation) : Bool × String :=
  match libs.readProperties attestation.policySnapshot with
  | none => (false, "unparseable policy snapshot")
  | some properties =>
    match ActionPolicy.fromProperties attestation.policyScope properties with
    | .error error => (false, PolicyError.text libs.debug attestation.policyScope error)
    | .ok policy =>
      match (attestation.inputs.get "risk_class").bind RiskClass.parse with
      | none => (false, "unparseable risk class input")
      | some risk =>
        let replayed := (policy.decide ((attestation.inputs.get "action").getD "") risk).asStr
        (replayed = attestation.decision, replayed)

def receiptLinksPolicyAttestation (attestation : PolicyAttestation) : Bool :=
  receipt.events.any fun event =>
    event.kind = .policyDecided && event.surface = .policy && event.actor = "chisei.policy" &&
      event.eventId = receipt.operationId ++ ":policy" &&
      ((event.references.any fun reference =>
          reference.kind = "policy_attestation" && reference.reference = attestation.id &&
            reference.contentHash = some attestation.contentHash) ||
        (event.attributes.get "attestation_id" = some attestation.id &&
          event.attributes.get "attestation_hash" = some attestation.contentHash))

structure PolicyAttestationVerification where
  id : String
  (contentHashValid policyVersionValid receiptLinked replayValid : Bool)
  replayedDecision : String
  valid : Bool
  errors : List String

def verifyPolicyAttestation (attestation : PolicyAttestation) :
    PolicyAttestationVerification :=
  let contentHashValid := attestationContentHash crypto attestation = attestation.contentHash
  let policyVersionValid := policyVersion crypto attestation.policySnapshot = attestation.policyVersion
  let receiptLinked := receiptLinksPolicyAttestation receipt attestation
  let (replayValid, replayedDecision) := replayDecision libs attestation
  let errors :=
    (if contentHashValid then [] else ["policy attestation content hash mismatch"]) ++
      (if policyVersionValid then [] else ["policy attestation version hash mismatch"]) ++
      (if receiptLinked then [] else ["policy attestation is not linked by the receipt"]) ++
      (if replayValid then []
        else ["policy replay produced " ++ replayedDecision ++ ", expected " ++ attestation.decision])
  { id := attestation.id, contentHashValid, policyVersionValid, receiptLinked, replayValid, replayedDecision,
    valid := errors.isEmpty, errors }

namespace AttestationBundle

def unsigned (receipt : OperationReceipt) : Except String AttestationBundle := do
  let receiptDigest ← Shomei.receiptDigest crypto libs receipt
  let eventChain ← eventDigestChain crypto libs none receipt.events
  return {
    bundleVersion := Shomei.bundleVersion
    receiptSchemaVersion := receipt.version
    verificationPolicyVersion := Shomei.verificationPolicyVersion
    canonicalization := canonicalizationVersion
    digestAlgorithm := Shomei.digestAlgorithm
    signatureAlgorithm := Shomei.signatureAlgorithm
    receiptDigest
    eventChain
    receipt
    coverage := coverageFromReceipt receipt
    artifacts := []
    policyAttestations := []
    signature := none }

def signingBytes (bundle : AttestationBundle) : Except String (List UInt8) :=
  canonicalJson (libs.bundleValue
    { bundle with signature := bundle.signature.map fun signature => { signature with value := "" } })

/-- A method on `&mut self`: the bundle it leaves and what it answers. -/
def sign (bundle : AttestationBundle) (signingKey : crypto.SigningKey) (identity keyId : String)
    (signedAtMs : Int) : AttestationBundle × Except String Unit :=
  if bundle.signature.isSome then (bundle, .error "attestation bundle is already signed")
  else
    match required "signer identity" identity with
    | .error error => (bundle, .error error)
    | .ok identity =>
      match required "signer key id" keyId with
      | .error error => (bundle, .error error)
      | .ok keyId =>
        let signer := {
          identity
          algorithm := Shomei.signatureAlgorithm
          keyId
          publicKey := toHex (crypto.asBytes (crypto.verifyingKey signingKey))
          signedAtMs }
        let unsealed := { bundle with signature := some ⟨signer, ""⟩ }
        match unsealed.signingBytes libs with
        | .error error => (unsealed, .error error)
        | .ok bytes =>
          ({ bundle with signature := some ⟨signer, toHex (crypto.sign signingKey bytes)⟩ }, .ok ())

/-- The loop of `attach_artifact` and whether it went through; a mismatch ends it with the declarations before it
rewritten. -/
def embedMatching (reference digest : String) : List CoverageDeclaration → List CoverageDeclaration × Bool
  | [] => ([], true)
  | declaration :: rest =>
    if declaration.reference ≠ reference then
      let (rewritten, matched) := embedMatching reference digest rest
      (declaration :: rewritten, matched)
    else if declaration.expectedDigest.any (· ≠ digest) then (declaration :: rest, false)
    else
      let (rewritten, matched) := embedMatching reference digest rest
      ({ declaration with disposition := .embedded, expectedDigest := some digest, reason := none } :: rewritten,
        matched)

def attachArtifact (bundle : AttestationBundle) (reference : String) (mediaType : Option String)
    (content : List UInt8) : AttestationBundle × Except String Unit :=
  if bundle.signature.isSome then (bundle, .error "cannot attach an artifact after signing")
  else if bundle.artifacts.any (·.reference = reference) then
    (bundle, .error ("artifact " ++ reference ++ " is already attached"))
  else
    let matching := bundle.coverage.filter (·.reference = reference)
    if matching.isEmpty then (bundle, .error ("artifact " ++ reference ++ " is not referenced by the receipt"))
    else if matching.any (·.disposition = .redacted) then
      (bundle, .error ("artifact " ++ reference ++ " is redacted by the receipt and cannot be attached"))
    else
      let digest := sha256Hex crypto content
      match embedMatching reference digest bundle.coverage with
      | (coverage, false) =>
        ({ bundle with coverage }, .error ("artifact " ++ reference ++ " digest does not match receipt reference"))
      | (coverage, true) =>
        let artifact := {
          reference
          digestAlgorithm := Shomei.digestAlgorithm
          digest
          sizeBytes := content.length
          mediaType
          contentBase64 := libs.encodeBase64 content }
        ({ bundle with coverage, artifacts := bundle.artifacts ++ [artifact] }, .ok ())

def attachPolicyAttestation (bundle : AttestationBundle) (attestation : PolicyAttestation) :
    AttestationBundle × Except String Unit :=
  if bundle.signature.isSome then (bundle, .error "cannot attach a policy attestation after signing")
  else if bundle.policyAttestations.any (·.id = attestation.id) then
    (bundle, .error ("policy attestation " ++ attestation.id ++ " is already attached"))
  else
    let verification := verifyPolicyAttestation crypto libs bundle.receipt attestation
    if ¬ verification.valid then
      (bundle, .error ("policy attestation " ++ attestation.id ++ " is invalid: " ++
        "; ".intercalate verification.errors))
    else
      ({ bundle with
          coverage := bundle.coverage.map fun declaration =>
            if declaration.kind = "policy_attestation" ∧ declaration.reference = attestation.id then
              { declaration with disposition := .embedded, reason := none }
            else declaration
          policyAttestations := bundle.policyAttestations ++ [attestation] }, .ok ())

end AttestationBundle

/-- What one check adds to `valid` and to `errors`. -/
structure Findings where
  valid : Bool
  errors : List String

def Findings.fine : Findings := ⟨true, []⟩

def Findings.wrong (error : String) : Findings := ⟨false, [error]⟩

def Findings.all (findings : List Findings) : Findings :=
  ⟨findings.all Findings.valid, findings.flatMap Findings.errors⟩

def answers (expected actual : CoverageDeclaration) : Bool :=
  actual.eventId = expected.eventId && actual.kind = expected.kind && actual.reference = expected.reference &&
    (actual.expectedDigest = expected.expectedDigest ||
      (actual.disposition = .embedded && expected.expectedDigest.isNone)) &&
    (actual.disposition = expected.disposition ||
      (actual.disposition = .embedded && (expected.disposition = .referenced || expected.disposition = .unavailable)))

/-- Takes the first declaration that answers and is not taken; a declaration stands beside its `matched` flag. -/
def takeFirst (expected : CoverageDeclaration) :
    List (CoverageDeclaration × Bool) → Option (List (CoverageDeclaration × Bool))
  | [] => none
  | (actual, matched) :: rest =>
    if ¬ matched ∧ answers expected actual then some ((actual, true) :: rest)
    else (takeFirst expected rest).map ((actual, matched) :: ·)

def matchCoverage (actual : List (CoverageDeclaration × Bool)) : List CoverageDeclaration → Findings
  | [] =>
    if actual.any fun entry => ¬ entry.2 then
      .wrong "bundle contains coverage declarations not present in the receipt"
    else .fine
  | expected :: rest =>
    match takeFirst expected actual with
    | none =>
      .all [.wrong ("receipt reference " ++ expected.reference ++ " lacks a matching coverage declaration"),
        matchCoverage actual rest]
    | some actual => matchCoverage actual rest

variable (bundle : AttestationBundle)

def checkPolicyDeclaration (declaration : CoverageDeclaration) : Findings :=
  if bundle.policyAttestations.any fun attestation =>
      attestation.id = declaration.reference && some attestation.contentHash = declaration.expectedDigest &&
        attestationContentHash crypto attestation = attestation.contentHash then .fine
  else .wrong ("policy attestation " ++ declaration.reference ++ " content does not match its receipt digest")

/-- `artifacts` of the source is a map, so a later artifact of one reference stands for the earlier ones. -/
def checkArtifactDeclaration (declaration : CoverageDeclaration) : Findings :=
  match Table.find BundledArtifact.reference bundle.artifacts.reverse declaration.reference with
  | none => ⟨false, []⟩
  | some artifact =>
    if artifact.digestAlgorithm ≠ digestAlgorithm then
      .wrong ("artifact " ++ artifact.reference ++ " uses unsupported digest algorithm " ++ artifact.digestAlgorithm)
    else
      match libs.decodeBase64 artifact.contentBase64 with
      | none => .wrong ("artifact " ++ artifact.reference ++ " content is not valid base64")
      | some content =>
        let digest := sha256Hex crypto content
        if digest ≠ artifact.digest ∨ declaration.expectedDigest ≠ some digest ∨
            artifact.sizeBytes ≠ content.length then
          .wrong ("artifact " ++ artifact.reference ++ " digest or size mismatch")
        else .fine

def checkDeclaration (declaration : CoverageDeclaration) : Findings :=
  if declaration.disposition ≠ .embedded then .fine
  else if declaration.kind = "policy_attestation" then checkPolicyDeclaration crypto bundle declaration
  else checkArtifactDeclaration crypto libs bundle declaration

def checkArtifact (artifact : BundledArtifact) : Findings :=
  if bundle.coverage.any fun declaration =>
      declaration.reference = artifact.reference && declaration.disposition = .embedded then .fine
  else .wrong ("artifact " ++ artifact.reference ++ " has no embedded coverage declaration")

def checkDistinct : Findings :=
  if (bundle.artifacts.map BundledArtifact.reference).Nodup then .fine
  else .wrong "bundle contains duplicate artifact references"

def verifyArtifacts : Findings :=
  .all ([matchCoverage (bundle.coverage.map fun declaration => (declaration, false))
        (coverageFromReceipt bundle.receipt), checkDistinct bundle] ++
      bundle.coverage.map (checkDeclaration crypto libs bundle) ++ bundle.artifacts.map (checkArtifact bundle))

structure TrustedKeyring where
  keys : List ((String × String) × crypto.VerifyingKey)

def TrustedKeyring.get {crypto : Crypto} (keyring : TrustedKeyring crypto) (identity keyId : String) :
    Option crypto.VerifyingKey :=
  (Table.find Prod.fst keyring.keys (identity, keyId)).map Prod.snd

structure SignatureVerification where
  (signerTrusted signatureValid : Bool)
  errors : List String

def verifySignature (trustedKeys : TrustedKeyring crypto) : SignatureVerification :=
  match bundle.signature with
  | none => ⟨false, false, ["bundle is unsigned"]⟩
  | some signature =>
    if signature.signer.algorithm ≠ signatureAlgorithm then
      ⟨false, false, ["unsupported signer algorithm " ++ signature.signer.algorithm]⟩
    else
      match decodeHex 32 "signer public key" signature.signer.publicKey with
      | .error error => ⟨false, false, [error]⟩
      | .ok publicKey =>
        match crypto.fromBytes publicKey with
        | .error error => ⟨false, false, ["invalid signer public key: " ++ error]⟩
        | .ok verifyingKey =>
          match trustedKeys.get signature.signer.identity signature.signer.keyId with
          | none =>
            ⟨false, false, ["signer " ++ signature.signer.identity ++ " key " ++ signature.signer.keyId ++
              " is not trusted"]⟩
          | some trustedKey =>
            if crypto.asBytes trustedKey ≠ crypto.asBytes verifyingKey then
              ⟨false, false, ["embedded signer public key does not match trusted key"]⟩
            else
              match decodeHex 64 "bundle signature" signature.value with
              | .error error => ⟨true, false, [error]⟩
              | .ok signatureBytes =>
                match bundle.signingBytes libs with
                | .error error => ⟨true, false, ["signed bytes could not be reproduced: " ++ error]⟩
                | .ok signingBytes =>
                  if crypto.verify verifyingKey signingBytes signatureBytes then ⟨true, true, []⟩
                  else ⟨true, false, ["bundle signature verification failed"]⟩

def versions : List (String × String × String) :=
  [("bundle", bundle.bundleVersion, bundleVersion),
    ("canonicalization", bundle.canonicalization, canonicalizationVersion),
    ("verification policy", bundle.verificationPolicyVersion, verificationPolicyVersion),
    ("digest algorithm", bundle.digestAlgorithm, digestAlgorithm),
    ("signature algorithm", bundle.signatureAlgorithm, signatureAlgorithm),
    ("receipt schema", bundle.receiptSchemaVersion, operationReceiptVersion)]

def checkVersions : Findings :=
  match (versions bundle).find? fun version => version.2.1 ≠ version.2.2 with
  | some (field, actual, _) => .wrong ("unsupported " ++ field ++ " " ++ actual)
  | none =>
    if bundle.receiptSchemaVersion = bundle.receipt.version then .fine
    else .wrong "receipt schema version does not match embedded receipt"

def checkReceiptDigest : Findings :=
  match receiptDigest crypto libs bundle.receipt with
  | .ok digest => if digest = bundle.receiptDigest then .fine else .wrong "receipt digest mismatch"
  | .error error => .wrong ("receipt digest could not be reproduced: " ++ error)

def checkEventChain : Findings :=
  match eventDigestChain crypto libs none bundle.receipt.events with
  | .ok chain => if chain = bundle.eventChain then .fine else .wrong "event digest chain mismatch"
  | .error error => .wrong ("event chain could not be reproduced: " ++ error)

structure IntegrityVerification where
  (valid versionsSupported receiptDigestValid eventChainValid artifactsValid signerTrusted signatureValid : Bool)
  errors : List String

/-- The `integrity` of `verify_bundle_at`; the time of the verification only enters its policy half. -/
def verifyIntegrity (trustedKeys : TrustedKeyring crypto) : IntegrityVerification :=
  let versions := checkVersions bundle
  let digest := checkReceiptDigest crypto libs bundle
  let chain := checkEventChain crypto libs bundle
  let artifacts := verifyArtifacts crypto libs bundle
  let signature := verifySignature crypto libs bundle trustedKeys
  let errors := versions.errors ++ digest.errors ++ chain.errors ++ artifacts.errors ++ signature.errors
  { valid := versions.valid && digest.valid && chain.valid && artifacts.valid && signature.signerTrusted &&
      signature.signatureValid && errors.isEmpty
    versionsSupported := versions.valid
    receiptDigestValid := digest.valid
    eventChainValid := chain.valid
    artifactsValid := artifacts.valid
    signerTrusted := signature.signerTrusted
    signatureValid := signature.signatureValid
    errors }

end

end SekaiChisei.Shomei
