import SekaiChisei.Budget.Store

/-!
Tenant quotas: `chisei/tenant_quota.rs`, over the budget tables. A call of the gate is a sequence of
transactions, and the transactions of different calls interleave.
-/

namespace SekaiChisei.TenantQuota
open Lib Budget

def metricConcurrency : String := "concurrency"
def metricStorageBytes : String := "storage_bytes"

inductive PeriodType where
  | daily
  | weekly
  | monthly

def PeriodType.asStr : PeriodType → String
  | daily => "daily"
  | weekly => "weekly"
  | monthly => "monthly"

structure TenantQuotaLimits where
  version : UInt64
  (maxRequestsPerPeriod maxTokensPerPeriod maxConcurrency : Option Int32)
  maxStorageBytes : Option Int64
  period : PeriodType

inductive TenantQuotaError where
  | tenantRequired
  | staleAssignment (have_ need : UInt64)
  | exhausted (metric retryAfterHint : String)
  | storage (message : String)

def exhausted (metric : String) : TenantQuotaError :=
  .exhausted metric (if metric = metricConcurrency then "when in-flight work completes" else "next period boundary")

def tenantScopeId (tenantId : String) : String := "tenant:" ++ tenantId

/-- What a `BudgetTracker` has of the topology. -/
structure BudgetTracker where
  requireHomePin : Bool
  localSiteId : String

namespace BudgetTracker
variable (tracker : BudgetTracker) (db : BudgetDb)

def setLimitWithMetric (scopeId metric : String) (maxTokens : Int32) (period : PeriodType) : Except String BudgetDb :=
  db.budgetSetLimitScoped scopeId metric maxTokens.toInt64 period.asStr
    (if tracker.requireHomePin then tracker.localSiteId else "") ""

variable (scopeId : String)

def reservation (estimated : Int32) (metric : String) (idempotencyKey : Option String)
    (nowMs : Int) : BudgetDb.Reservation :=
  ⟨scopeId, metric, estimated.toInt64, nowMs, idempotencyKey, tracker.requireHomePin, tracker.localSiteId⟩

def checkAndReserveWithMetric (estimated : Int32) (metric : String) (nowMs : Int) :
    Except String BudgetDb :=
  db.budgetCheckAndReserveChainInner (tracker.reservation scopeId estimated metric none nowMs)

def checkAndReserveIdempotent (estimated : Int32) (idempotencyKey : String) (nowMs : Int) :
    Except String BudgetDb :=
  db.budgetCheckAndReserveChainInner (tracker.reservation scopeId estimated metricTokens (some idempotencyKey) nowMs)

def adjustment (reserved actual : Int32) (metric : String) (nowMs : Int) : BudgetDb.Adjustment :=
  ⟨scopeId, metric, actual.toInt64 - reserved.toInt64, nowMs, tracker.requireHomePin, tracker.localSiteId⟩

def tryAdjustWithMetric (reserved actual : Int32) (metric : String) (nowMs : Int) :
    Except String BudgetDb :=
  db.budgetAdjustChainForSite (tracker.adjustment scopeId reserved actual metric nowMs)

/-- One limit of `configure`, where it is assigned. -/
def configureMetric (scope metric : String) (max : Option Int32) (period : PeriodType) :
    Except TenantQuotaError BudgetDb :=
  match max with
  | none => .ok db
  | some max => (tracker.setLimitWithMetric db scope metric max period).mapError .storage

/-- `i32::try_from(max.min(i32::MAX)).unwrap_or(i32::MAX)`. -/
def cappedBytes (max : Int64) : Int32 :=
  if -2 ^ 31 ≤ max.toInt ∧ max.toInt < 2 ^ 31 then max.toInt32 else Int32.maxValue

def configure (tenantId : String) (limits : TenantQuotaLimits) : Except TenantQuotaError BudgetDb := do
  let scope := tenantScopeId tenantId
  let db ← tracker.configureMetric db scope metricTokens limits.maxTokensPerPeriod limits.period
  let db ← tracker.configureMetric db scope metricRequests limits.maxRequestsPerPeriod limits.period
  let db ← tracker.configureMetric db scope metricConcurrency limits.maxConcurrency .monthly
  tracker.configureMetric db scope metricStorageBytes (limits.maxStorageBytes.map cappedBytes) .monthly

end BudgetTracker

structure TenantQuotaAdmission where
  (tenantId scopeId : String)
  assignmentVersion : UInt64
  reservedTokens : Int32
  (reservedRequest reservedConcurrency : Bool)
  idempotencyKey : String
  nonneg : 0 ≤ reservedTokens

/-- The arguments of `admit`; of the context, its tenant. -/
structure AdmitCall where
  tenant : Option String
  limits : TenantQuotaLimits
  minAssignmentVersion : UInt64
  estimatedTokens : Int32
  idempotencyKey : String

inductive Stage where
  | requests
  | tokens
  | concurrency
  deriving DecidableEq

inductive Life where
  | admitting (call : AdmitCall) (stage : Stage) (reserved : TenantQuotaAdmission)
  | rollingBack (stage : Stage) (reserved : TenantQuotaAdmission) (error : TenantQuotaError)
  | refused (error : TenantQuotaError)
  | held (admission : TenantQuotaAdmission)
  | completing (stage : Stage) (admission : TenantQuotaAdmission) (actualTokens : Int32)
  | completed (admission : TenantQuotaAdmission) (actualTokens : Int32)
  | abandoning (stage : Stage) (remaining : TenantQuotaAdmission)
  | abandoned (admission : TenantQuotaAdmission)

def admitStart (call : AdmitCall) : Life :=
  match call.tenant with
  | none => .refused .tenantRequired
  | some tenantId =>
    if call.limits.version < call.minAssignmentVersion then
      .refused (.staleAssignment call.limits.version call.minAssignmentVersion)
    else
      .admitting call .requests
        { tenantId
          scopeId := tenantScopeId tenantId
          assignmentVersion := call.limits.version
          reservedTokens := 0
          reservedRequest := false
          reservedConcurrency := false
          idempotencyKey := call.idempotencyKey
          nonneg := Int32.le_refl 0 }

section
variable (tracker : BudgetTracker) (nowMs : Int) (db : BudgetDb)

def advanceAdmit (call : AdmitCall) (reserved : TenantQuotaAdmission) : Stage → BudgetDb × Life
  | .requests =>
    if call.limits.maxRequestsPerPeriod.isSome then
      match tracker.checkAndReserveWithMetric db reserved.scopeId 1 metricRequests nowMs with
      | .error _ => (db, .refused (exhausted metricRequests))
      | .ok db => (db, .admitting call .tokens { reserved with reservedRequest := true })
    else (db, .admitting call .tokens reserved)
  | .tokens =>
    if estimated : call.limits.maxTokensPerPeriod.isSome ∧ 0 < call.estimatedTokens then
      match tracker.checkAndReserveIdempotent db reserved.scopeId call.estimatedTokens call.idempotencyKey nowMs with
      | .error _ => (db, .rollingBack .requests reserved (exhausted metricTokens))
      | .ok db =>
        (db, .admitting call .concurrency
          { reserved with reservedTokens := call.estimatedTokens, nonneg := Int32.le_of_lt estimated.2 })
    else (db, .admitting call .concurrency reserved)
  | .concurrency =>
    if call.limits.maxConcurrency.isSome then
      match tracker.checkAndReserveWithMetric db reserved.scopeId 1 metricConcurrency nowMs with
      | .error _ => (db, .rollingBack .requests reserved (exhausted metricConcurrency))
      | .ok db => (db, .held { reserved with reservedConcurrency := true })
    else (db, .held reserved)

/-- The next branch of `rollback_partial`; `admit` returns its own error whatever comes of it. -/
def advanceRollback (reserved : TenantQuotaAdmission) (error : TenantQuotaError) : Stage → BudgetDb × Life
  | .requests =>
    if reserved.reservedRequest then
      match tracker.tryAdjustWithMetric db reserved.scopeId 1 0 metricRequests nowMs with
      | .error _ => (db, .refused error)
      | .ok db => (db, .rollingBack .tokens reserved error)
    else (db, .rollingBack .tokens reserved error)
  | .tokens =>
    if 0 < reserved.reservedTokens then
      match tracker.tryAdjustWithMetric db reserved.scopeId reserved.reservedTokens 0 metricTokens nowMs with
      | .error _ => (db, .refused error)
      | .ok db => (db, .refused error)
    else (db, .refused error)
  | .concurrency => (db, .refused error)

/-- The next branch of `complete`; after an error the caller still has its admission. -/
def advanceComplete (admission : TenantQuotaAdmission) (actualTokens : Int32) : Stage → BudgetDb × Life
  | .requests => (db, .completing .tokens admission actualTokens)
  | .tokens =>
    if 0 < admission.reservedTokens then
      match tracker.tryAdjustWithMetric db admission.scopeId admission.reservedTokens (max actualTokens 0)
          metricTokens nowMs with
      | .error _ => (db, .held admission)
      | .ok db => (db, .completing .concurrency admission actualTokens)
    else (db, .completing .concurrency admission actualTokens)
  | .concurrency =>
    if admission.reservedConcurrency then
      match tracker.tryAdjustWithMetric db admission.scopeId 1 0 metricConcurrency nowMs with
      | .error _ => (db, .held admission)
      | .ok db => (db, .completed admission actualTokens)
    else (db, .completed admission actualTokens)

/-- The next branch of `abandon`; an error returns what remains to be refunded. -/
def advanceAbandon (remaining : TenantQuotaAdmission) : Stage → BudgetDb × Life
  | .requests =>
    if remaining.reservedRequest then
      match tracker.tryAdjustWithMetric db remaining.scopeId 1 0 metricRequests nowMs with
      | .error _ => (db, .held remaining)
      | .ok db => (db, .abandoning .tokens { remaining with reservedRequest := false })
    else (db, .abandoning .tokens remaining)
  | .tokens =>
    if 0 < remaining.reservedTokens then
      match tracker.tryAdjustWithMetric db remaining.scopeId remaining.reservedTokens 0 metricTokens nowMs with
      | .error _ => (db, .held remaining)
      | .ok db => (db, .abandoning .concurrency { remaining with reservedTokens := 0, nonneg := Int32.le_refl 0 })
    else (db, .abandoning .concurrency remaining)
  | .concurrency =>
    if remaining.reservedConcurrency then
      match tracker.tryAdjustWithMetric db remaining.scopeId 1 0 metricConcurrency nowMs with
      | .error _ => (db, .held remaining)
      | .ok db => (db, .abandoned { remaining with reservedConcurrency := false })
    else (db, .abandoned remaining)

def advance : Life → BudgetDb × Life
  | .admitting call stage reserved => advanceAdmit tracker nowMs db call reserved stage
  | .rollingBack stage reserved error => advanceRollback tracker nowMs db reserved error stage
  | .completing stage admission actual => advanceComplete tracker nowMs db admission actual stage
  | .abandoning stage remaining => advanceAbandon tracker nowMs db remaining stage
  | life => (db, life)

end

structure World where
  db : BudgetDb
  clock : Int
  lives : List Life

inductive Action where
  | admission (call : AdmitCall)
  | advance (i : Nat) (elapsed : Nat)
  | complete (i : Nat) (actualTokens : Int32)
  | abandon (i : Nat)

/-- `complete` and `abandon` take an admission that was returned and has not been ended. -/
def endWith (ending : TenantQuotaAdmission → Life) : Life → Life
  | .held admission => ending admission
  | life => life

def World.update (world : World) (i : Nat) (change : Life → Life) : World :=
  match world.lives[i]? with
  | none => world
  | some life => { world with lives := world.lives.set i (change life) }

def step (tracker : BudgetTracker) (world : World) : Action → World
  | .admission call => { world with lives := world.lives ++ [admitStart call] }
  | .complete i actual => world.update i (endWith fun admission => .completing .tokens admission actual)
  | .abandon i => world.update i (endWith fun admission => .abandoning .requests admission)
  | .advance i elapsed =>
    match world.lives[i]? with
    | none => world
    | some life =>
      let nowMs := world.clock + elapsed
      let result := TenantQuota.advance tracker nowMs world.db life
      { db := result.1, clock := nowMs, lives := world.lives.set i result.2 }

def worldAt (tracker : BudgetTracker) (start : World) (acts : List Action) (n : Nat) : World :=
  Trace.after (step tracker) start acts n

end SekaiChisei.TenantQuota
