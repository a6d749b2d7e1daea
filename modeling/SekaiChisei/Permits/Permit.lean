import SekaiChisei.Leases.Guarded
import SekaiChisei.Receipts.Chain

/-!
The permit of `sekai/external_permit.rs`, and how `chisei/external_permit.rs` issues and delegates it. SHA-256 and
Ed25519 are the fields of `Crypto`.
-/

namespace SekaiChisei.Permits
open Lib Json
open Leases (validateSiteId saturatingAdd i64Min i64Max)
open Receipts (textBytes)

def defaultSiteId : String := "local"
def permitVersion : String := "external-action.permit/v1"
def signatureAlgorithm : String := "ed25519"
def redemptionMode : String := "online_atomic"
def offlineRedemptionMode : String := "offline_bounded"

structure Crypto where
  sha256 : List UInt8 → List UInt8
  (SigningKey VerifyingKey : Type)
  verifyingKey : SigningKey → VerifyingKey
  asBytes : VerifyingKey → List UInt8
  sign : SigningKey → List UInt8 → List UInt8
  verifyStrict : VerifyingKey → List UInt8 → List UInt8 → Bool

structure Permit where
  (version permitId authorizationId requestDigest issuer subjectActor nameSpace operationId : String)
  (requestingHarness executor actionType parameterSchema canonicalArgumentsDigest : String)
  targetSelectors : List String
  immutablePreconditions : List (String × String)
  (allowedEffects requiredHostCapabilities constraints : List String)
  riskClass : String
  (budgetMicros volumeLimit blastRadiusLimit maxInvocations : Nat)
  (notBeforeMs expiresAtMs : Int)
  redemptionMode : String
  approvalIdentities : List String
  (policyVersion policyScope schemaVersion capabilityVersion pricingVersion nonce : String)
  delegationDepth : Nat
  parentPermitId : String
  parentChain : List String
  (initiatingActor revocationHandle signatureAlgorithm keyId publicKey : String)
  (issuedAtMs revocationLatencyMs : Int)
  offlineRevocationUnavailable : Bool
  (siteId signedDigest : String)
  signature : List UInt8
  deriving DecidableEq

structure HostContext where
  (executor requestingHarness canonicalArgumentsDigest : String)
  targetSelectors : List String
  observedPreconditions : List (String × String)
  hostCapabilities : List String

/-- A field that `skip_serializing_if` leaves out. -/
def optionalField (name : String) (absent : Bool) (value : String) : List (String × String) :=
  if absent then [] else [(name, value)]

def stringArray (values : List String) : String := array (values.map string)

variable (permit : Permit)

/-- The fields of a permit as `shomei::canonical_json` sorts them. -/
def Permit.fields : List (String × String) :=
  [("action_type", string permit.actionType), ("allowed_effects", stringArray permit.allowedEffects),
    ("approval_identities", stringArray permit.approvalIdentities),
    ("authorization_id", string permit.authorizationId),
    ("blast_radius_limit", number permit.blastRadiusLimit),
    ("budget_micros", number permit.budgetMicros),
    ("canonical_arguments_digest", string permit.canonicalArgumentsDigest),
    ("capability_version", string permit.capabilityVersion),
    ("constraints", stringArray permit.constraints),
    ("delegation_depth", number permit.delegationDepth),
    ("executor", string permit.executor),
    ("expires_at_ms", number permit.expiresAtMs),
    ("immutable_preconditions",
      object (permit.immutablePreconditions.map fun entry => (entry.1, string entry.2)))] ++
  optionalField "initiating_actor" (permit.initiatingActor = "") (string permit.initiatingActor) ++
  [("issued_at_ms", number permit.issuedAtMs), ("issuer", string permit.issuer),
    ("key_id", string permit.keyId),
    ("max_invocations", number permit.maxInvocations),
    ("namespace", string permit.nameSpace),
    ("nonce", string permit.nonce),
    ("not_before_ms", number permit.notBeforeMs)] ++
  optionalField "offline_revocation_unavailable" (!permit.offlineRevocationUnavailable) "true" ++
  [("operation_id", string permit.operationId), ("parameter_schema", string permit.parameterSchema)] ++
  optionalField "parent_chain" permit.parentChain.isEmpty (stringArray permit.parentChain) ++
  [("parent_permit_id", string permit.parentPermitId), ("permit_id", string permit.permitId)] ++
  optionalField "policy_scope" (permit.policyScope = "") (string permit.policyScope) ++
  [("policy_version", string permit.policyVersion), ("pricing_version", string permit.pricingVersion),
    ("public_key", string permit.publicKey),
    ("redemption_mode", string permit.redemptionMode),
    ("request_digest", string permit.requestDigest),
    ("requesting_harness", string permit.requestingHarness),
    ("required_host_capabilities", stringArray permit.requiredHostCapabilities),
    ("revocation_handle", string permit.revocationHandle),
    ("revocation_latency_ms", number permit.revocationLatencyMs),
    ("risk_class", string permit.riskClass),
    ("schema_version", string permit.schemaVersion),
    ("signature", array (permit.signature.map fun byte => number byte.toNat)),
    ("signature_algorithm", string permit.signatureAlgorithm),
    ("signed_digest", string permit.signedDigest),
    ("site_id", string permit.siteId),
    ("subject_actor", string permit.subjectActor),
    ("target_selectors", stringArray permit.targetSelectors),
    ("version", string permit.version),
    ("volume_limit", number permit.volumeLimit)]

def Permit.unsignedBytes : List UInt8 :=
  textBytes (object { permit with signedDigest := "", signature := [] }.fields)

/-- `u64::to_be_bytes`. -/
def toBeBytes (n : Nat) : List UInt8 :=
  [56, 48, 40, 32, 24, 16, 8, 0].map fun shift => UInt8.ofNat (n / 2 ^ shift)

variable (crypto : Crypto)

def digest (domain bytes : List UInt8) : String :=
  "sha256:" ++ toHex (crypto.sha256 (domain ++ toBeBytes bytes.length ++ bytes))

def permitDomain : List UInt8 := textBytes "sekai-chisei:external-action-permit:v1\x00"

def Permit.sign (key : crypto.SigningKey) : Permit :=
  let permit := { permit with publicKey := toHex (crypto.asBytes (crypto.verifyingKey key)) }
  let signedDigest := digest crypto permitDomain permit.unsignedBytes
  { permit with signedDigest, signature := crypto.sign key (textBytes signedDigest) }

def Permit.verifySignature (trustedKey : crypto.VerifyingKey) : Except String Unit :=
  if permit.version ≠ permitVersion ∨ permit.signatureAlgorithm ≠ Permits.signatureAlgorithm then
    .error "unsupported permit or signature version"
  else if permit.publicKey ≠ toHex (crypto.asBytes trustedKey) then
    .error "permit public key does not match the trusted signing key"
  else if digest crypto permitDomain permit.unsignedBytes ≠ permit.signedDigest then
    .error "permit signed digest mismatch"
  else if permit.signature.length ≠ 64 then .error "permit signature must contain 64 bytes"
  else if crypto.verifyStrict trustedKey (textBytes permit.signedDigest) permit.signature then .ok ()
  else .error "permit signature verification failed"

def Permit.verifyTrust (issuer keyId : String) : Except String Unit :=
  if permit.issuer ≠ issuer ∨ permit.keyId ≠ keyId then
    .error "permit issuer or signing key is not trusted"
  else .ok ()

def Permit.declaredConstraints : List String :=
  permit.requiredHostCapabilities.map (fun value => "host_capability:" ++ value) ++
    if permit.redemptionMode = offlineRedemptionMode then
      ["offline_no_global_single_use", "offline_revocation_unavailable_until_expiry"]
    else []

/-- Two lists are equal once sorted exactly when one permutes the other. -/
def Permit.verifyHostContext (context : HostContext) (nowMs : Int) : Except String Unit :=
  if nowMs < permit.notBeforeMs ∨ nowMs ≥ permit.expiresAtMs then
    .error "permit is outside its validity window"
  else if permit.redemptionMode ≠ Permits.redemptionMode ∧ permit.redemptionMode ≠ offlineRedemptionMode then
    .error "permit uses an unsupported redemption mode"
  else if trim permit.initiatingActor = "" ∧
      (permit.delegationDepth ≠ 0 ∨ permit.redemptionMode = offlineRedemptionMode) then
    .error "permit does not preserve the initiating actor"
  else if permit.delegationDepth ≠ permit.parentChain.length ∨
      permit.parentChain.getLast?.getD "" ≠ permit.parentPermitId then
    .error "permit delegation chain is incomplete"
  else if permit.redemptionMode = offlineRedemptionMode ∧
      (permit.offlineRevocationUnavailable = false ∨ permit.revocationLatencyMs ≤ 0) then
    .error "offline permit does not declare its revocation limitation"
  else if context.executor ≠ permit.executor ∨ context.requestingHarness ≠ permit.requestingHarness ∨
      context.canonicalArgumentsDigest ≠ permit.canonicalArgumentsDigest ∨
      context.targetSelectors ≠ permit.targetSelectors then
    .error "host execution identity or exact request binding changed"
  else if context.observedPreconditions ≠ permit.immutablePreconditions then
    .error "resource preconditions changed; reauthorization required"
  else if ¬ permit.requiredHostCapabilities ⊆ context.hostCapabilities then
    .error "host cannot enforce all required permit constraints"
  else if ¬ permit.constraints.Perm permit.declaredConstraints then
    .error "permit constraint declaration is inconsistent"
  else .ok ()

structure ExternalActionRequest where
  (operationId actor nameSpace requestingHarness intendedExecutor actionType parameterSchema : String)
  canonicalArgumentsDigest : String
  targetSelectors : List String
  immutablePreconditions : List (String × String)
  riskClass : String
  expectedEffects : List String
  (requestedInvocationCount estimatedCostMicros estimatedVolume affectedResourceCount : Nat)
  requiredHostCapabilities : List String
  deriving DecidableEq

structure ExternalActionDecision where
  (authorizationId requestDigest decision policyScope policyVersion : String)
  (expiresAtMs cancelledAtMs : Int)
  deriving DecidableEq

structure AuthorizationRecord where
  request : ExternalActionRequest
  decision : ExternalActionDecision
  (approvalStatus decisionActor : String)
  deriving DecidableEq

structure ExternalPermitPolicy where
  scope : String
  offlineActionTypes : List String
  offlineMaxDurationMs : Int
  offlineMaxInvocations : Nat
  permittedDelegators : List String
  maxDelegationDepth : Nat
  deriving DecidableEq

def ExternalPermitPolicy.disabled (scope : String) : ExternalPermitPolicy := ⟨scope, [], 0, 0, [], 0⟩

def ExternalPermitPolicy.Accepted (policy : ExternalPermitPolicy) : Prop :=
  trim policy.scope ≠ "" ∧ policy.maxDelegationDepth ≤ 8 ∧ 0 ≤ policy.offlineMaxDurationMs
  deriving Decidable

structure Issuance where
  approvalIdentities : List String
  (issuer keyId permitId nonce : String)
  nowMs : Int
  siteId : String

/-- `str::contains` of a text. -/
def containsText (value part : String) : Bool := part.toList <:+: value.toList

def openTarget (target : String) : Bool :=
  containsText target "*" || containsText target "?" || containsText target "://"

def openContract (value : String) : Bool :=
  containsText value "shell" || containsText value "command" || containsText value "exec"

variable (authorization : AuthorizationRecord)

def unsignedPermit (issuance : Issuance) (siteId : String) : Permit where
  version := permitVersion
  permitId := issuance.permitId
  authorizationId := authorization.decision.authorizationId
  requestDigest := authorization.decision.requestDigest
  issuer := issuance.issuer
  subjectActor := authorization.request.actor
  nameSpace := authorization.request.nameSpace
  operationId := authorization.request.operationId
  requestingHarness := authorization.request.requestingHarness
  executor := authorization.request.intendedExecutor
  actionType := authorization.request.actionType
  parameterSchema := authorization.request.parameterSchema
  canonicalArgumentsDigest := authorization.request.canonicalArgumentsDigest
  targetSelectors := authorization.request.targetSelectors
  immutablePreconditions := authorization.request.immutablePreconditions
  allowedEffects := authorization.request.expectedEffects
  requiredHostCapabilities := authorization.request.requiredHostCapabilities
  constraints := authorization.request.requiredHostCapabilities.map fun value =>
    "host_capability:" ++ value
  riskClass := authorization.request.riskClass
  budgetMicros := authorization.request.estimatedCostMicros
  volumeLimit := authorization.request.estimatedVolume
  blastRadiusLimit := authorization.request.affectedResourceCount
  maxInvocations := authorization.request.requestedInvocationCount
  notBeforeMs := issuance.nowMs
  expiresAtMs := authorization.decision.expiresAtMs
  redemptionMode := redemptionMode
  approvalIdentities := issuance.approvalIdentities
  policyVersion := authorization.decision.policyVersion
  policyScope := authorization.decision.policyScope
  schemaVersion := authorization.request.parameterSchema
  capabilityVersion := authorization.request.actionType
  pricingVersion := "request-estimate/v1"
  nonce := issuance.nonce
  delegationDepth := 0
  parentPermitId := ""
  parentChain := []
  initiatingActor := authorization.request.actor
  revocationHandle := "revoke-" ++ authorization.decision.authorizationId
  signatureAlgorithm := signatureAlgorithm
  keyId := issuance.keyId
  publicKey := ""
  issuedAtMs := issuance.nowMs
  revocationLatencyMs := 0
  offlineRevocationUnavailable := false
  siteId := siteId
  signedDigest := ""
  signature := []

def issue (signingKey : crypto.SigningKey) (issuance : Issuance) :
    Except String Permit :=
  if authorization.decision.decision ≠ "permit" ∨ authorization.decision.cancelledAtMs ≠ 0 then
    .error "authorization does not permit issuance"
  else if issuance.nowMs ≥ authorization.decision.expiresAtMs then
    .error "authorization expired before permit issuance"
  else if authorization.request.targetSelectors.any openTarget then
    .error "v1 permits refuse wildcard and arbitrary network targets"
  else if [authorization.request.actionType, authorization.request.parameterSchema].any openContract then
    .error "v1 permits refuse unrestricted command contracts"
  else do
    let siteId ← validateSiteId issuance.siteId
    .ok ((unsignedPermit authorization issuance siteId).sign crypto signingKey)

def Permit.offline (policy : ExternalPermitPolicy) (nowMs : Int) : Permit :=
  let expiresAtMs := min permit.expiresAtMs (saturatingAdd nowMs policy.offlineMaxDurationMs)
  { permit with
    redemptionMode := offlineRedemptionMode
    maxInvocations := min permit.maxInvocations policy.offlineMaxInvocations
    expiresAtMs
    revocationLatencyMs := saturatingAdd expiresAtMs (-nowMs)
    offlineRevocationUnavailable := true
    constraints := permit.constraints ++
      ["offline_no_global_single_use", "offline_revocation_unavailable_until_expiry"] }

def issueOffline (policy : ExternalPermitPolicy)
    (signingKey : crypto.SigningKey) (issuance : Issuance) : Except String Permit :=
  if authorization.request.actionType ∉ policy.offlineActionTypes ∨
      policy.offlineMaxDurationMs ≤ 0 ∨ policy.offlineMaxInvocations = 0 then
    .error "action policy does not permit bounded offline operation"
  else if authorization.request.riskClass = "destructive" then
    .error "action class requires online revocation and single-use guarantees"
  else do
    let permit ← issue crypto authorization signingKey issuance
    .ok ((permit.offline policy issuance.nowMs).sign crypto signingKey)

structure Delegation where
  (delegator subjectActor permitId nonce : String)
  (nowMs expiresAtMs : Int)
  (targetSelectors allowedEffects : List String)
  (budgetMicros volumeLimit blastRadiusLimit maxInvocations : Nat)
  riskClass : String

def u32Max : Nat := 2 ^ 32 - 1

variable (parent : Permit)

/-- `parent.delegation_depth.saturating_add(1)`. -/
def Permit.nextDepth : Nat := min (parent.delegationDepth + 1) u32Max

def Permit.child (input : Delegation) : Permit :=
  { parent with
    permitId := input.permitId
    subjectActor := input.subjectActor
    targetSelectors := input.targetSelectors
    allowedEffects := input.allowedEffects
    budgetMicros := input.budgetMicros
    volumeLimit := input.volumeLimit
    blastRadiusLimit := input.blastRadiusLimit
    maxInvocations := input.maxInvocations
    notBeforeMs := input.nowMs
    expiresAtMs := input.expiresAtMs
    nonce := input.nonce
    delegationDepth := parent.nextDepth
    parentPermitId := parent.permitId
    parentChain := parent.parentChain ++ [parent.permitId]
    revocationHandle := "revoke-" ++ input.permitId
    issuedAtMs := input.nowMs }

def Permit.Encloses (input : Delegation) : Prop :=
  parent.notBeforeMs ≤ input.nowMs ∧ input.nowMs < parent.expiresAtMs ∧
    input.expiresAtMs ≤ parent.expiresAtMs ∧ input.nowMs < input.expiresAtMs ∧
    input.maxInvocations ≠ 0 ∧ input.maxInvocations ≤ parent.maxInvocations ∧
    input.budgetMicros ≤ parent.budgetMicros ∧ input.volumeLimit ≤ parent.volumeLimit ∧
    input.blastRadiusLimit ≤ parent.blastRadiusLimit ∧ input.riskClass = parent.riskClass ∧
    input.targetSelectors ⊆ parent.targetSelectors ∧ input.allowedEffects ⊆ parent.allowedEffects
  deriving Decidable

def delegate (policy : ExternalPermitPolicy) (signingKey : crypto.SigningKey)
    (input : Delegation) : Except String Permit := do
  parent.verifySignature crypto (crypto.verifyingKey signingKey)
  if parent.redemptionMode ≠ redemptionMode then
    .error ("offline permits cannot be delegated because local consumption is not globally " ++ "observable")
  else if input.delegator ∉ policy.permittedDelegators then
    .error "policy does not name this actor as a permitted delegator"
  else if input.delegator ≠ parent.subjectActor then
    .error "delegator is not the current permit subject"
  else if policy.maxDelegationDepth = 0 ∨ parent.nextDepth > policy.maxDelegationDepth then
    .error "delegation depth exceeds policy"
  else if ¬ parent.Encloses input then
    .error "delegation would expand or invalidate the parent envelope"
  else .ok ((parent.child input).sign crypto signingKey)

end SekaiChisei.Permits
