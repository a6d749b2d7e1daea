import SekaiChisei.Lib.Trace
import SekaiChisei.Permits.Permit

/-!
The permit tables on SQLite and their operations in `chisei/external_permit.rs`. A call is one atomic step; fresh ids,
clocks and the namespace access of the caller are arguments.
-/

namespace SekaiChisei.Permits
open Lib
open Leases (validateSiteId)

structure Redemption where
  (version permitId redemptionId executor executionId idempotencyKey : String)
  redeemedAtMs : Int
  invocationOrdinal : Nat
  evidenceDueAtMs : Int
  siteId : String
  deriving DecidableEq

def Redemption.key (redemption : Redemption) : String × String :=
  (redemption.permitId, redemption.idempotencyKey)

structure RedemptionTiming where
  (invokedAtMs reconciledAtMs : Int)

def Permit.isOffline (permit : Permit) : Bool := permit.redemptionMode = offlineRedemptionMode

/-- The arguments of a redemption; `uuid` is the fresh part of its id. -/
structure RedeemArguments where
  permit : Permit
  context : HostContext
  (idempotencyKey executionId : String)
  timing : RedemptionTiming
  uuid : String

def RedeemArguments.validationTime (args : RedeemArguments) : Int :=
  if args.permit.isOffline then args.timing.invokedAtMs else args.timing.reconciledAtMs

structure IssuedPermit where
  issuanceIdempotencyKey : String
  permit : Permit
  deriving DecidableEq

structure Revocation where
  (revocationHandle reason : String)
  revokedAtMs : Int
  deriving DecidableEq

inductive ScopeKind where
  | actionType | executor | harness | nameSpace | signingKey
  deriving DecidableEq

def ScopeKind.text : ScopeKind → String
  | actionType => "action_type"
  | executor => "executor"
  | harness => "harness"
  | nameSpace => "namespace"
  | signingKey => "signing_key"

structure KillSwitch where
  scopeKind : ScopeKind
  (scopeValue reason : String)
  enabledAtMs : Int
  deriving DecidableEq

def KillSwitch.key (row : KillSwitch) : ScopeKind × String := (row.scopeKind, row.scopeValue)

structure PermitDb where
  authorizations : List AuthorizationRecord
  permits : List IssuedPermit
  delegatedPermits : List Permit
  redemptions : List Redemption
  revocations : List Revocation
  killSwitches : List KillSwitch
  policies : List ExternalPermitPolicy
  deriving DecidableEq

def PermitDb.empty : PermitDb := ⟨[], [], [], [], [], [], []⟩

namespace PermitDb

/-- `SELECT permit_json` of issued permits `UNION ALL` of delegated ones. -/
def allPermits (db : PermitDb) : List Permit :=
  db.permits.map IssuedPermit.permit ++ db.delegatedPermits

def storedPermit (db : PermitDb) (permitId : String) : Option Permit :=
  Table.find Permit.permitId db.allPermits permitId

def issuedFor (db : PermitDb) (authorizationId : String) : Option IssuedPermit :=
  Table.find (fun row => row.permit.authorizationId) db.permits authorizationId

def delegatedChild (db : PermitDb) (permitId : String) : Option Permit :=
  Table.find Permit.parentPermitId db.delegatedPermits permitId

def redemption (db : PermitDb) (permitId idempotencyKey : String) : Option Redemption :=
  Table.find Redemption.key db.redemptions (permitId, idempotencyKey)

def redemptionsOf (db : PermitDb) (permitId : String) : List Redemption :=
  db.redemptions.filter (·.permitId = permitId)

/-- `SELECT COUNT(*)`. -/
def redemptionCount (db : PermitDb) (permitId : String) : Nat := (db.redemptionsOf permitId).length

def revocation (db : PermitDb) (handle : String) : Option Revocation :=
  Table.find Revocation.revocationHandle db.revocations handle

def authorization (db : PermitDb) (authorizationId : String) : Option AuthorizationRecord :=
  Table.find (fun record => record.decision.authorizationId) db.authorizations authorizationId

def storedPolicy (db : PermitDb) (scope : String) : Option ExternalPermitPolicy :=
  Table.find ExternalPermitPolicy.scope db.policies scope

def getExternalPermitPolicy (db : PermitDb) (scope : String) : ExternalPermitPolicy :=
  (db.storedPolicy scope).getD (.disabled scope)

def delegationPolicy (db : PermitDb) (permit : Permit) : Except String (Option ExternalPermitPolicy) :=
  if permit.delegationDepth = 0 then .ok none
  else match db.storedPolicy permit.policyScope with
    | none => .error "delegation policy is missing or disabled"
    | some policy =>
      if permit.delegationDepth > policy.maxDelegationDepth then
        .error "delegation exceeds the current policy depth"
      else .ok (some policy)

def checkParent (db : PermitDb) (policy : Option ExternalPermitPolicy) (permit : Permit)
    (entry : String × Nat) : Except String Unit :=
  match db.storedPermit entry.1 with
  | none => .error "delegation parent is missing"
  | some parent =>
    if parent.expiresAtMs ≤ permit.issuedAtMs then
      .error "delegation parent expired before child issuance"
    else if ¬ policy.any (fun policy => parent.subjectActor ∈ policy.permittedDelegators) then
      .error "delegation chain contains an actor no longer permitted by policy"
    else if (db.revocation parent.revocationHandle).isSome then .error "delegation parent is revoked"
    else if parent.parentChain ≠ permit.parentChain.take entry.2 then
      .error "delegation parent chain is malformed"
    else .ok ()

def validateDelegationChain (db : PermitDb) (permit : Permit) : Except String Unit :=
  if permit.delegationDepth ≠ permit.parentChain.length then .error "delegation chain depth mismatch"
  else do
    let policy ← db.delegationPolicy permit
    permit.parentChain.zipIdx.forM (db.checkParent policy permit)

def replayPermit (db : PermitDb) (authorizationId idempotencyKey : String) : Except String (Option Permit) :=
  match db.issuedFor authorizationId with
  | none => .ok none
  | some row =>
    if row.issuanceIdempotencyKey ≠ idempotencyKey then
      .error "authorization already has a permit under a different idempotency key"
    else .ok (some row.permit)

/-- `INSERT OR IGNORE`: a row with the permit id or the authorization id stays. -/
def insertPermit (db : PermitDb) (permit : Permit) (idempotencyKey : String) : PermitDb :=
  if (Table.find (fun row => row.permit.permitId) db.permits permit.permitId).isSome ∨
      (db.issuedFor permit.authorizationId).isSome then db
  else { db with permits := db.permits ++ [⟨idempotencyKey, permit⟩] }

def putPermit (db : PermitDb) (permit : Permit) (idempotencyKey : String) : Except String (Permit × PermitDb) :=
  match (db.insertPermit permit idempotencyKey).issuedFor permit.authorizationId with
  | none => .error "Query returned no rows"
  | some row =>
    if row.issuanceIdempotencyKey ≠ idempotencyKey then
      .error "authorization already has a permit under a different idempotency key"
    else .ok (row.permit, db.insertPermit permit idempotencyKey)

def putDelegatedPermit (db : PermitDb) (permit : Permit) : Except String (Permit × PermitDb) :=
  if permit.delegationDepth = 0 ∨ permit.parentPermitId = "" then
    .error "delegated permit must name its parent"
  else do
    db.validateDelegationChain permit
    if db.redemptionCount permit.parentPermitId ≠ 0 then
      .error "partially consumed permit authority cannot be delegated"
    else if (Table.find Permit.permitId db.delegatedPermits permit.permitId).isSome then
      .error "UNIQUE constraint failed: chisei_external_action_delegated_permits.permit_id"
    else if (db.delegatedChild permit.parentPermitId).isSome then
      .error "UNIQUE constraint failed: chisei_external_action_delegated_permits.parent_permit_id"
    else .ok (permit, { db with delegatedPermits := db.delegatedPermits ++ [permit] })

def setExternalPermitPolicy (db : PermitDb) (policy : ExternalPermitPolicy) : Except String PermitDb :=
  if ¬ policy.Accepted then .error "invalid external permit policy bounds"
  else .ok { db with
    policies := Table.upsert ExternalPermitPolicy.scope db.policies policy fun _ => policy }

/-- `INSERT OR IGNORE`, and whether a row was inserted. -/
def revokePermit (db : PermitDb) (handle reason : String) (nowMs : Int) : Bool × PermitDb :=
  if (db.revocation handle).isSome then (false, db)
  else (true, { db with revocations := db.revocations ++ [⟨handle, reason, nowMs⟩] })

def setPermitKillSwitch (db : PermitDb) (kind : ScopeKind) (value : String) (enabled : Bool)
    (reason : String) (nowMs : Int) : Bool × PermitDb :=
  if enabled then
    (true, { db with
      killSwitches := Table.upsert KillSwitch.key db.killSwitches ⟨kind, value, reason, nowMs⟩
        fun _ => ⟨kind, value, reason, nowMs⟩ })
  else ((Table.find KillSwitch.key db.killSwitches (kind, value)).isSome,
    { db with killSwitches := db.killSwitches.filter (·.key ≠ (kind, value)) })

def redemptionVersion : String := "external-action.redemption/v1"

variable (permit : Permit)

def permitSite : String :=
  if trim permit.siteId = "" then defaultSiteId else permit.siteId

def checkSite (hostSiteId : String) : Except String Unit :=
  if permitSite permit ≠ hostSiteId then
    .error ("permit is pinned to site '" ++ permitSite permit ++ "' (host site '" ++ hostSiteId ++
      "'); foreign pin fail closed")
  else .ok ()

def checkTiming (timing : RedemptionTiming) : Except String Unit :=
  if permit.isOffline ∧ (timing.invokedAtMs < permit.notBeforeMs ∨
      timing.invokedAtMs ≥ permit.expiresAtMs ∨ timing.invokedAtMs > timing.reconciledAtMs) then
    .error ("offline invocation time must be within the signed lease and no later than " ++ "reconciliation")
  else if ¬ permit.isOffline ∧ timing.invokedAtMs ≠ 0 then
    .error "invoked_at_ms is only valid for offline reconciliation"
  else .ok ()

def requireDurable (db : PermitDb) (permit : Permit) : Except String Unit :=
  if db.storedPermit permit.permitId ≠ some permit then .error "permit is not the issued durable permit"
  else .ok ()

def requireNoChild (db : PermitDb) (permit : Permit) : Except String Unit :=
  if (db.delegatedChild permit.permitId).isSome then
    .error "permit authority was transferred to a delegated child"
  else .ok ()

def requireAuthorization (db : PermitDb) (permit : Permit) : Except String AuthorizationRecord :=
  match db.authorization permit.authorizationId with
  | none => .error "permit authorization is missing"
  | some authorization => .ok authorization

def requireActive (authorization : AuthorizationRecord) : Except String Unit :=
  if authorization.decision.decision ≠ "permit" ∨ authorization.decision.cancelledAtMs ≠ 0 ∨
      authorization.decision.requestDigest ≠ permit.requestDigest then
    .error "permit authorization is no longer active"
  else .ok ()

def requireUnrevoked (db : PermitDb) (permit : Permit) : Except String Unit :=
  match db.revocation permit.revocationHandle with
  | some revocation => .error ("permit revoked: " ++ revocation.reason)
  | none => .ok ()

def killScopes : List (ScopeKind × String) :=
  [(.actionType, permit.actionType), (.executor, permit.executor),
    (.harness, permit.requestingHarness), (.nameSpace, permit.nameSpace), (.signingKey, permit.keyId)]

def requireSwitchOff (db : PermitDb) (scope : ScopeKind × String) : Except String Unit :=
  match Table.find KillSwitch.key db.killSwitches scope with
  | some row => .error (scope.1.text ++ " kill switch active: " ++ row.reason)
  | none => .ok ()

def requireLive (db : PermitDb) (permit : Permit) (authorization : AuthorizationRecord) : Except String Unit := do
  requireActive permit authorization
  db.requireUnrevoked permit
  (killScopes permit).forM db.requireSwitchOff

/-- A reconciliation records what may already have happened: it does not depend on live state. -/
def requireLiveOnline (db : PermitDb) (permit : Permit) (authorization : AuthorizationRecord) : Except String Unit :=
  if permit.isOffline then .ok () else db.requireLive permit authorization

def requireInvocations (db : PermitDb) (permit : Permit) : Except String Unit :=
  if db.redemptionCount permit.permitId ≥ permit.maxInvocations then
    .error "permit invocation count exhausted"
  else .ok ()

def validatePermitState (db : PermitDb) (permit : Permit) : Except String Unit := do
  db.validateDelegationChain permit
  db.requireDurable permit
  db.requireNoChild permit
  let authorization ← db.requireAuthorization permit
  db.requireLive permit authorization
  db.requireInvocations permit

def validatePermitForDelegation (db : PermitDb) (permit : Permit) : Except String Unit := do
  db.validatePermitState permit
  if db.redemptionCount permit.permitId ≠ 0 then
    .error "partially consumed permit authority cannot be delegated"
  else .ok ()

/-- A redemption that was recorded under the key is the answer, for the same execution only. -/
def replayed (existing : Redemption) (executionId : String) : Except String Redemption :=
  if existing.executionId ≠ executionId then
    .error "redemption idempotency key reused for a different execution"
  else .ok existing

def replayRedemption (db : PermitDb) (permit : Permit) (idempotencyKey executionId : String) :
    Except String (Option Redemption) := do
  db.requireDurable permit
  match db.redemption permit.permitId idempotencyKey with
  | none => .ok none
  | some existing => (replayed existing executionId).map some

def insertRedemption (db : PermitDb) (row : Redemption) : Except String PermitDb :=
  if (db.redemptionsOf row.permitId).any (·.executionId = row.executionId) then
    .error ("UNIQUE constraint failed: chisei_external_action_redemptions.permit_id, " ++
      "chisei_external_action_redemptions.execution_id")
  else if (db.redemptionsOf row.permitId).any (·.invocationOrdinal = row.invocationOrdinal) then
    .error ("UNIQUE constraint failed: chisei_external_action_redemptions.permit_id, " ++
      "chisei_external_action_redemptions.invocation_ordinal")
  else .ok { db with redemptions := db.redemptions ++ [row] }

variable (crypto : Crypto)

def newRedemption (db : PermitDb) (args : RedeemArguments) (hostSiteId : String) : Redemption where
  version := redemptionVersion
  permitId := args.permit.permitId
  redemptionId := "redemption-" ++ args.uuid
  executor := args.context.executor
  executionId := args.executionId
  idempotencyKey := args.idempotencyKey
  redeemedAtMs := args.validationTime
  invocationOrdinal := db.redemptionCount args.permit.permitId + 1
  evidenceDueAtMs := args.permit.expiresAtMs
  siteId := hostSiteId

def consumeInvocation (db : PermitDb) (args : RedeemArguments) (trustedKey : crypto.VerifyingKey)
    (hostSiteId : String) : Except String (Redemption × PermitDb) := do
  db.requireNoChild args.permit
  args.permit.verifySignature crypto trustedKey
  args.permit.verifyHostContext args.context args.validationTime
  let authorization ← db.requireAuthorization args.permit
  db.requireLiveOnline args.permit authorization
  db.requireInvocations args.permit
  let db' ← db.insertRedemption (db.newRedemption args hostSiteId)
  .ok (db.newRedemption args hostSiteId, db')

def redeemOrReconcilePermit (db : PermitDb) (args : RedeemArguments) (trustedKey : crypto.VerifyingKey)
    (hostSiteId : String) : Except String (Redemption × PermitDb) := do
  let hostSiteId ← validateSiteId hostSiteId
  checkSite args.permit hostSiteId
  checkTiming args.permit args.timing
  db.validateDelegationChain args.permit
  db.requireDurable args.permit
  match db.redemption args.permit.permitId args.idempotencyKey with
  | some existing => (replayed existing args.executionId).map fun found => (found, db)
  | none => db.consumeInvocation crypto args trustedKey hostSiteId

end PermitDb

inductive Code where
  | invalidArgument | permissionDenied | alreadyExists | failedPrecondition | internal
  deriving DecidableEq

structure Status where
  code : Code
  message : String
  deriving DecidableEq

structure Service (crypto : Crypto) where
  signingKey : Except Status crypto.SigningKey
  (permitIssuer permitKeyId siteId : String)

structure IssueRequest where
  authorization : AuthorizationRecord
  (actor idempotencyKey : String)
  offline : Bool
  namespaceAccess : Except Status Unit
  (uuid nonce : String)
  nowMs : Int

structure DelegateRequest where
  actor : String
  parent : Permit
  namespaceAccess : Except Status Unit
  (subjectActor uuid nonce : String)
  (nowMs expiresAtMs : Int)
  (targetSelectors allowedEffects : List String)
  (budgetMicros volumeLimit blastRadiusLimit maxInvocations : Nat)
  riskClass : String

structure RedeemRequest where
  actor : String
  args : RedeemArguments

structure RevokeRequest where
  (actor revocationHandle reason : String)
  nowMs : Int

def isAdministrator (actor : String) : Bool := actor = "root" || actor = "local"

def failedPrecondition (error : String) : Status := ⟨.failedPrecondition, error⟩

def issuanceStatus (error : String) : Status :=
  if containsText error "different idempotency" then ⟨.alreadyExists, error⟩ else ⟨.internal, error⟩

def newPermitId (uuid : String) : String := "permit-" ++ uuid

namespace Service
variable {crypto : Crypto} (service : Service crypto) (db : PermitDb)

variable (request : IssueRequest)

def issuance : Issuance where
  approvalIdentities :=
    if request.authorization.approvalStatus = "approved" then [request.authorization.decisionActor] else []
  issuer := service.permitIssuer
  keyId := service.permitKeyId
  permitId := newPermitId request.uuid
  nonce := request.nonce
  nowMs := request.nowMs
  siteId := service.siteId

def signPermit (key : crypto.SigningKey) : Except String Permit :=
  if request.offline then
    issueOffline crypto request.authorization
      (db.getExternalPermitPolicy request.authorization.decision.policyScope) key
      (service.issuance request)
  else issue crypto request.authorization key (service.issuance request)

def requestedMode : String :=
  if request.offline then offlineRedemptionMode else redemptionMode

def checkIssue : Except Status Unit :=
  if trim request.idempotencyKey = "" then .error ⟨.invalidArgument, "idempotency_key required"⟩
  else if request.actor ≠ request.authorization.request.actor ∧ ¬ isAdministrator request.actor then
    .error ⟨.permissionDenied, "permit issuance denied"⟩
  else request.namespaceAccess

def issueExternalPermit : Except Status (Permit × PermitDb) := do
  checkIssue request
  let replay ← (db.replayPermit request.authorization.decision.authorizationId
    request.idempotencyKey).mapError issuanceStatus
  match replay with
  | some value =>
    if value.redemptionMode ≠ requestedMode request then
      .error ⟨.alreadyExists, "authorization already issued with a different redemption mode"⟩
    else .ok (value, db)
  | none =>
    let key ← service.signingKey
    let value ← (service.signPermit db request key).mapError failedPrecondition
    (db.putPermit value request.idempotencyKey).mapError issuanceStatus

def delegation (request : DelegateRequest) : Delegation where
  delegator := request.actor
  subjectActor := request.subjectActor
  permitId := newPermitId request.uuid
  nonce := request.nonce
  nowMs := request.nowMs
  expiresAtMs := request.expiresAtMs
  targetSelectors := request.targetSelectors
  allowedEffects := request.allowedEffects
  budgetMicros := request.budgetMicros
  volumeLimit := request.volumeLimit
  blastRadiusLimit := request.blastRadiusLimit
  maxInvocations := request.maxInvocations
  riskClass := request.riskClass

def checkDelegator (request : DelegateRequest) : Except Status Unit :=
  if request.actor ≠ request.parent.subjectActor then
    .error ⟨.permissionDenied, "delegation requires the current permit subject"⟩
  else request.namespaceAccess

def checkDelegable (parent : Permit) (key : crypto.SigningKey) : Except String Unit := do
  parent.verifyTrust service.permitIssuer service.permitKeyId
  parent.verifySignature crypto (crypto.verifyingKey key)
  db.validatePermitForDelegation parent
  db.validateDelegationChain parent

def delegateExternalPermit (request : DelegateRequest) : Except Status (Permit × PermitDb) := do
  checkDelegator request
  let key ← service.signingKey
  (service.checkDelegable db request.parent key).mapError failedPrecondition
  let child ← (delegate crypto request.parent (db.getExternalPermitPolicy request.parent.policyScope) key
    (delegation request)).mapError failedPrecondition
  (db.putDelegatedPermit child).mapError failedPrecondition

def checkRedeemer (request : RedeemRequest) : Except Status Unit :=
  if trim request.args.idempotencyKey = "" ∨ trim request.args.executionId = "" then
    .error ⟨.invalidArgument, "idempotency_key and execution_id required"⟩
  else if request.actor ≠ request.args.permit.executor ∧ ¬ isAdministrator request.actor then
    .error ⟨.permissionDenied, "permit redemption requires the bound executor"⟩
  else .ok ()

def redeemExternalActionPermit (request : RedeemRequest) : Except Status (Redemption × PermitDb) := do
  checkRedeemer request
  let replay ← (db.replayRedemption request.args.permit request.args.idempotencyKey
    request.args.executionId).mapError failedPrecondition
  match replay with
  | some redemption => .ok (redemption, db)
  | none =>
    let key ← service.signingKey
    (request.args.permit.verifyTrust service.permitIssuer service.permitKeyId).mapError failedPrecondition
    (db.redeemOrReconcilePermit crypto request.args (crypto.verifyingKey key)
      service.siteId).mapError failedPrecondition

def revokeExternalPermit (request : RevokeRequest) : Except Status (Bool × PermitDb) :=
  if ¬ isAdministrator request.actor then
    .error ⟨.permissionDenied, "permit revocation requires control-plane administration"⟩
  else if trim request.revocationHandle = "" ∨ trim request.reason = "" then
    .error ⟨.invalidArgument, "revocation_handle and reason required"⟩
  else .ok (db.revokePermit request.revocationHandle request.reason request.nowMs)

end Service

inductive Operation where
  | issue (request : IssueRequest)
  | delegate (request : DelegateRequest)
  | redeem (request : RedeemRequest)
  | revoke (request : RevokeRequest)
  | setPolicy (policy : ExternalPermitPolicy)
  | setKillSwitch (kind : ScopeKind) (value : String) (enabled : Bool) (reason : String) (nowMs : Int)
  | putAuthorization (record : AuthorizationRecord)

inductive Answer where
  | permit (permit : Permit)
  | redemption (redemption : Redemption)
  | changed (changed : Bool)
  | stored
  deriving DecidableEq

def Operation.permitId : Operation → Option String
  | issue request => some (newPermitId request.uuid)
  | delegate request => some (newPermitId request.uuid)
  | _ => none

/-- `Uuid::new_v4` gives no id twice. -/
def FreshIds (ops : List Operation) : Prop := (ops.filterMap Operation.permitId).Nodup

namespace Service
variable {crypto : Crypto} (service : Service crypto) {op : Operation}

def perform (db : PermitDb) : Operation → Except Status (Answer × PermitDb)
  | .issue request => (service.issueExternalPermit db request).map fun result => (.permit result.1, result.2)
  | .delegate request =>
    (service.delegateExternalPermit db request).map fun result => (.permit result.1, result.2)
  | .redeem request =>
    (service.redeemExternalActionPermit db request).map fun result => (.redemption result.1, result.2)
  | .revoke request => (revokeExternalPermit db request).map fun result => (.changed result.1, result.2)
  | .setPolicy policy =>
    ((db.setExternalPermitPolicy policy).mapError (Status.mk .invalidArgument)).map fun db' =>
      (.stored, db')
  | .setKillSwitch kind value enabled reason nowMs =>
    .ok (.changed (db.setPermitKillSwitch kind value enabled reason nowMs).1,
      (db.setPermitKillSwitch kind value enabled reason nowMs).2)
  | .putAuthorization record =>
    .ok (.stored, { db with
      authorizations := Table.upsert (fun record => record.decision.authorizationId)
        db.authorizations record fun _ => record })

def next (db : PermitDb) (op : Operation) : PermitDb :=
  match service.perform db op with
  | .ok (_, db') => db'
  | .error _ => db

def after (ops : List Operation) (n : Nat) : PermitDb :=
  Trace.after service.next PermitDb.empty ops n

theorem next_of_ok {db db' : PermitDb} {answer : Answer}
    (success : service.perform db op = .ok (answer, db')) : service.next db op = db' := by
  rw [next, success]

theorem next_of_error {db : PermitDb} {status : Status}
    (failure : service.perform db op = .error status) : service.next db op = db := by
  rw [next, failure]

end Service

end SekaiChisei.Permits
