import SekaiChisei.Budget.Scopes
import SekaiChisei.Lib.SqlNumber
import SekaiChisei.Lib.Table
import SekaiChisei.Lib.Trace

/-!
The budget tables on SQLite: `chisei_store/budget.rs`. Amounts are `i64`, and their sums in the source wrap. An
operation is one immediate transaction.
-/

namespace SekaiChisei.Budget
open Lib Table

structure LimitRow where
  (scopeId metric parentScopeId : String)
  maxAmount : Int64
  (periodType homeSiteId poolId : String)
  deriving DecidableEq

structure WorkUnitDefault where
  (scopeId metric : String)
  maxAmount : Int64
  (periodType homeSiteId : String)

structure UsageRow where
  (scopeId metric : String)
  periodStart : Int
  amountUsed : SqlNumber

structure UsageEvent where
  (idempotencyKey scopeId metric : String)
  amount : Int64
  createdAt : Int

structure Attribution where
  (sourceScopeId appliedScopeId metric : String)
  periodStart : Int
  amountUsed : SqlNumber

structure Pool where
  (poolId metric : String)
  maxAmount : Int64
  periodType : String
  deriving DecidableEq

inductive TransferStatus where
  | completed | refused
  deriving DecidableEq

def TransferStatus.text : TransferStatus → String
  | completed => "completed"
  | refused => "refused"

structure BudgetTransferRecord where
  (transferId metric poolId fromScopeId toScopeId : String)
  amount : Int64
  actor : String
  status : TransferStatus
  reason : String
  createdAt : Int

def LimitRow.key (row : LimitRow) : String × String := (row.scopeId, row.metric)
def WorkUnitDefault.key (row : WorkUnitDefault) : String × String := (row.scopeId, row.metric)
def UsageRow.key (row : UsageRow) : String × String × Int := (row.scopeId, row.metric, row.periodStart)
def Pool.key (row : Pool) : String × String := (row.poolId, row.metric)

def Attribution.key (row : Attribution) : String × String × String × Int :=
  (row.sourceScopeId, row.appliedScopeId, row.metric, row.periodStart)

structure BudgetDb where
  limits : List LimitRow
  workUnitDefaults : List WorkUnitDefault
  usage : List UsageRow
  usageEvents : List UsageEvent
  attributions : List Attribution
  pools : List Pool
  transfers : List BudgetTransferRecord

def BudgetDb.empty : BudgetDb := ⟨[], [], [], [], [], [], []⟩

namespace BudgetDb

structure EffectiveLimit where
  maxAmount : Int64
  (periodType homeSiteId : String)
  fromWorkUnitDefault : Bool
  deriving DecidableEq

variable (db : BudgetDb) {op : Operation}

def loadLimitRow (scope metric : String) : Option LimitRow :=
  find LimitRow.key db.limits (scope, metric)

def effectiveLimit (scope metric : String) : Option EffectiveLimit :=
  match db.loadLimitRow scope metric with
  | some row => some ⟨row.maxAmount, row.periodType, row.homeSiteId, false⟩
  | none => do
    let parent ← workUnitDefaultScope scope
    let row ← find WorkUnitDefault.key db.workUnitDefaults (parent, metric)
    some ⟨row.maxAmount, row.periodType, row.homeSiteId, true⟩

def chargePeriodType (scope metric : String) : String :=
  match db.effectiveLimit scope metric with
  | some limit => limit.periodType
  | none => unlimitedPeriodType

def chargePeriod (metric : String) (nowMs : Int) (scope : String) : Int :=
  periodStartMs (db.chargePeriodType scope metric) nowMs

def usageAt (scope metric : String) (periodStart : Int) : Option SqlNumber :=
  (find UsageRow.key db.usage (scope, metric, periodStart)).map UsageRow.amountUsed

/-- `amount_used` as an `i64`, 0 where there is no row. -/
def used (scope metric : String) (periodStart : Int) : Except String Int64 :=
  match db.usageAt scope metric periodStart with
  | some (.integer amount) => .ok amount
  | some (.real _) => .error "Invalid column type Real at index: 0, name: amount_used"
  | none => .ok 0

def assertHomePin (scope homeSiteId localSiteId : String) : Except String Unit :=
  if homeSiteId = "" then .ok ()
  else if localSiteId = "" then
    .error s!"budget scope {scope} is home-pinned to {homeSiteId} but local site_id is unset"
  else if homeSiteId ≠ localSiteId then
    .error s!"budget scope {scope} is pinned to home site {homeSiteId}; local site is {localSiteId}"
  else .ok ()

def budgetAssertHomeWritable (scopeId metric localSiteId : String) : Except String Unit :=
  (scopeChain scopeId).forM fun scope =>
    match db.effectiveLimit scope metric with
    | some limit => assertHomePin scope limit.homeSiteId localSiteId
    | none => .ok ()

structure Reservation where
  (scopeId metric : String)
  amount : Int64
  nowMs : Int
  idempotencyKey : Option String
  requireHomePin : Bool
  localSiteId : String

/-- One level of the chain: its pin and its headroom. A level without a limit passes. -/
def checkScope (call : Reservation) (scope : String) : Except String Unit :=
  match db.effectiveLimit scope call.metric with
  | none => .ok ()
  | some ⟨maxAmount, periodType, homeSiteId, _⟩ => do
    (if call.requireHomePin then assertHomePin scope homeSiteId call.localSiteId else .ok ())
    let used ← db.used scope call.metric (periodStartMs periodType call.nowMs)
    let amount := call.amount
    if maxAmount < used + amount then
      .error s!"budget exceeded at {scope}: used {used} + {amount} > {maxAmount}"
    else .ok ()

def budgetCheckChainForSite (call : Reservation) : Except String Unit :=
  (scopeChain call.scopeId).forM (db.checkScope call)

structure Charge where
  inserted : SqlNumber
  updated : SqlNumber → SqlNumber

def reserving (amount : Int64) : Charge where
  inserted := .integer amount
  updated used := (used.add (.integer amount)).stored

def adjusting (delta : Int64) : Charge where
  inserted := (SqlNumber.integer delta).atLeastZero
  updated used := (used.add (.integer delta)).atLeastZero.stored

-- Unlike an adjustment, a new row is not floored.
def recording (amount : Int64) : Charge where
  inserted := .integer amount
  updated used := (used.add (.integer amount)).atLeastZero.stored

def chargeUsage (charge : Charge) (metric : String) (nowMs : Int) (db : BudgetDb) (scope : String) : BudgetDb :=
  { db with
    usage := upsert UsageRow.key db.usage ⟨scope, metric, db.chargePeriod metric nowMs scope, charge.inserted⟩
      fun row => { row with amountUsed := charge.updated row.amountUsed } }

def chargeAttribution (charge : Charge) (source metric : String) (nowMs : Int) (db : BudgetDb)
    (scope : String) : BudgetDb :=
  { db with
    attributions := upsert Attribution.key db.attributions
      ⟨source, scope, metric, db.chargePeriod metric nowMs scope, charge.inserted⟩
      fun row => { row with amountUsed := charge.updated row.amountUsed } }

def chargeChain (charge : Charge) (source metric : String) (nowMs : Int) (db : BudgetDb) : BudgetDb :=
  (scopeChain source).foldl (fun db scope =>
      chargeAttribution charge source metric nowMs (chargeUsage charge metric nowMs db scope) scope) db

/-- `INSERT OR IGNORE` of the event: the database with a new one, nothing where the same event is
there, and an error where the key holds another. -/
def insertEvent (event : UsageEvent) (conflict : String) : Except String (Option BudgetDb) :=
  match find UsageEvent.idempotencyKey db.usageEvents event.idempotencyKey with
  | none => .ok (some { db with usageEvents := db.usageEvents ++ [event] })
  | some stored =>
    if (stored.scopeId, stored.metric, stored.amount) ≠ (event.scopeId, event.metric, event.amount) then
      .error conflict
    else .ok none

def reserveChain (call : Reservation) : Except String BudgetDb := do
  db.budgetCheckChainForSite call
  .ok (chargeChain (reserving call.amount) call.scopeId call.metric call.nowMs db)

def budgetCheckAndReserveChainInner (call : Reservation) : Except String BudgetDb :=
  match call.idempotencyKey with
  | none => db.reserveChain call
  | some key => do
    let written ← db.insertEvent ⟨key, call.scopeId, call.metric, call.amount, call.nowMs⟩
      "idempotency key was already used for different budget reservation"
    match written with
    | none => .ok db
    | some db => db.reserveChain call

structure Adjustment where
  (scopeId metric : String)
  delta : Int64
  nowMs : Int
  requireHomePin : Bool
  localSiteId : String

def assertDebitPinned (call : Adjustment) : Except String Unit :=
  if call.requireHomePin ∧ 0 < call.delta then
    db.budgetAssertHomeWritable call.scopeId call.metric call.localSiteId
  else .ok ()

def budgetAdjustChainForSite (call : Adjustment) : Except String BudgetDb := do
  db.assertDebitPinned call
  .ok (chargeChain (adjusting call.delta) call.scopeId call.metric call.nowMs db)

def budgetRecordIdempotentForSite (call : Adjustment) (idempotencyKey : String) :
    Except String (Bool × BudgetDb) :=
  if idempotencyKey = "" then do
    let db ← db.budgetAdjustChainForSite call
    return (true, db)
  else do
    let written ← db.insertEvent ⟨idempotencyKey, call.scopeId, call.metric, call.delta, call.nowMs⟩
      "idempotency key was already used for different budget usage"
    match written with
    | none => return (false, db)
    | some db => do
      db.assertDebitPinned call
      return (true, (scopeChain call.scopeId).foldl (chargeUsage (recording call.delta) call.metric call.nowMs) db)

def poolMembers (poolId metric : String) : List LimitRow :=
  db.limits.filter fun row => row.poolId = poolId ∧ row.metric = metric

def enforcePoolMemberSum (poolId metric : String) : Except String Unit :=
  match find Pool.key db.pools (poolId, metric) with
  | none => .ok ()
  | some ⟨_, _, ceiling, _⟩ => do
    let sum ← SqlNumber.sum ((db.poolMembers poolId metric).map LimitRow.maxAmount)
    if ceiling < sum then
      .error s!"pool {poolId} member limits sum {sum} exceeds combined ceiling {ceiling}"
    else .ok ()

def budgetSetLimitScoped (scopeId metric : String) (maxAmount : Int64)
    (periodType homeSiteId poolId : String) : Except String BudgetDb :=
  if maxAmount < 0 then .error "budget max_amount must be non-negative"
  else do
    let row : LimitRow :=
      ⟨scopeId, metric, parentScopeId scopeId, maxAmount, periodType, homeSiteId, poolId⟩
    let db := { db with limits := upsert LimitRow.key db.limits row fun _ => row }
    (if poolId ≠ "" then db.enforcePoolMemberSum poolId metric else .ok ())
    .ok db

def budgetSetWorkUnitDefault (scopeId metric : String) (maxAmount : Int64)
    (periodType homeSiteId : String) : Except String BudgetDb :=
  if maxAmount < 0 then .error "budget max_amount must be non-negative"
  else
    let row : WorkUnitDefault := ⟨scopeId, metric, maxAmount, periodType, homeSiteId⟩
    .ok { db with
      workUnitDefaults := upsert WorkUnitDefault.key db.workUnitDefaults row fun _ => row }

def budgetClearWorkUnitDefault (scopeId metric : String) : BudgetDb :=
  { db with workUnitDefaults := db.workUnitDefaults.filter fun row => row.key ≠ (scopeId, metric) }

def budgetSetPoolCeiling (poolId metric : String) (maxAmount : Int64)
    (periodType : String) : Except String BudgetDb :=
  if trim poolId = "" then .error "pool_id required"
  else if maxAmount < 0 then .error "pool max_amount must be non-negative"
  else do
    let row : Pool := ⟨poolId, metric, maxAmount, periodType⟩
    let db := { db with pools := upsert Pool.key db.pools row fun _ => row }
    db.enforcePoolMemberSum poolId metric
    .ok db

structure Transfer where
  (transferId metric fromScopeId toScopeId : String)
  amount : Int64
  actor : String
  nowMs : Int

def loadTransfer (transferId : String) : Option BudgetTransferRecord :=
  find BudgetTransferRecord.transferId db.transfers transferId

def replayTransfer (existing : BudgetTransferRecord) (call : Transfer) : Except String BudgetTransferRecord :=
  if existing.fromScopeId ≠ call.fromScopeId ∨ existing.toScopeId ≠ call.toScopeId ∨
      existing.amount ≠ call.amount ∨ existing.metric ≠ call.metric then
    .error "transfer_id was already used for a different budget transfer"
  else if existing.status ≠ .completed then
    .error ("transfer_id already recorded with status " ++ existing.status.text)
  else .ok existing

def loadLimitOr (scope metric missing : String) : Except String LimitRow :=
  match db.loadLimitRow scope metric with
  | some row => .ok row
  | none => .error (missing ++ scope)

def setMaxAmount (row : LimitRow) (maxAmount : Int64) : BudgetDb :=
  { db with limits := replace LimitRow.key db.limits { row with maxAmount } }

def moveCapacity (call : Transfer) : Except String (BudgetTransferRecord × BudgetDb) := do
  let source ← db.loadLimitOr call.fromScopeId call.metric "from scope limit not found: "
  let target ← db.loadLimitOr call.toScopeId call.metric "to scope limit not found: "
  if source.poolId = "" ∨ source.poolId ≠ target.poolId then
    .error "budget transfer requires both scopes to share the same non-empty pool_id"
  else do
    let used ← db.used call.fromScopeId call.metric (periodStartMs source.periodType call.nowMs)
    let available := source.maxAmount - used
    if available < call.amount then
      .error ("insufficient transferable capacity at " ++ call.fromScopeId ++ ": available " ++
        toString available ++ " < " ++ toString call.amount)
    else do
      let db := (db.setMaxAmount source (source.maxAmount - call.amount)).setMaxAmount target
        (target.maxAmount + call.amount)
      db.enforcePoolMemberSum source.poolId call.metric
      let record : BudgetTransferRecord :=
        ⟨call.transferId, call.metric, source.poolId, call.fromScopeId, call.toScopeId, call.amount,
          call.actor, .completed, "", call.nowMs⟩
      .ok (record, { db with transfers := db.transfers ++ [record] })

def budgetTransferCapacity (call : Transfer) : Except String (BudgetTransferRecord × BudgetDb) :=
  if trim call.transferId = "" then .error "transfer_id required"
  else if call.amount ≤ 0 then .error "transfer amount must be positive"
  else if call.fromScopeId = call.toScopeId then
    .error "transfer from_scope and to_scope must differ"
  else match db.loadTransfer call.transferId with
    | some existing => do
      let record ← replayTransfer existing call
      return (record, db)
    | none => db.moveCapacity call

def budgetRecordTransferRefused (call : Transfer) (reason : String) :
    Except String (BudgetTransferRecord × BudgetDb) :=
  if trim call.transferId = "" then .error "transfer_id required"
  else match db.loadTransfer call.transferId with
    | some existing => .ok (existing, db)
    | none =>
      let poolId := ((db.loadLimitRow call.fromScopeId call.metric).map LimitRow.poolId).getD ""
      let record : BudgetTransferRecord :=
        ⟨call.transferId, call.metric, poolId, call.fromScopeId, call.toScopeId, call.amount,
          call.actor, .refused, reason, call.nowMs⟩
      .ok (record, { db with transfers := db.transfers ++ [record] })

inductive Operation where
  | reserve (call : Reservation)
  | adjust (call : Adjustment)
  | record (call : Adjustment) (idempotencyKey : String)
  | setLimit (scopeId metric : String) (maxAmount : Int64) (periodType homeSiteId poolId : String)
  | setWorkUnitDefault (scopeId metric : String) (maxAmount : Int64) (periodType homeSiteId : String)
  | clearWorkUnitDefault (scopeId metric : String)
  | setPoolCeiling (poolId metric : String) (maxAmount : Int64) (periodType : String)
  | transfer (call : Transfer)
  | refuseTransfer (call : Transfer) (reason : String)

def perform : Operation → Except String BudgetDb
  | .reserve call => db.budgetCheckAndReserveChainInner call
  | .adjust call => db.budgetAdjustChainForSite call
  | .record call key => (db.budgetRecordIdempotentForSite call key).map Prod.snd
  | .setLimit scopeId metric maxAmount periodType homeSiteId poolId =>
    db.budgetSetLimitScoped scopeId metric maxAmount periodType homeSiteId poolId
  | .setWorkUnitDefault scopeId metric maxAmount periodType homeSiteId =>
    db.budgetSetWorkUnitDefault scopeId metric maxAmount periodType homeSiteId
  | .clearWorkUnitDefault scopeId metric => .ok (db.budgetClearWorkUnitDefault scopeId metric)
  | .setPoolCeiling poolId metric maxAmount periodType =>
    db.budgetSetPoolCeiling poolId metric maxAmount periodType
  | .transfer call => (db.budgetTransferCapacity call).map Prod.snd
  | .refuseTransfer call reason => (db.budgetRecordTransferRefused call reason).map Prod.snd

def next (op : Operation) : BudgetDb :=
  match db.perform op with
  | .ok db' => db'
  | .error _ => db

def after (db : BudgetDb) (ops : List Operation) (n : Nat) : BudgetDb :=
  Trace.after next db ops n

theorem next_of_error {db : BudgetDb} {message : String}
    (refused : db.perform op = .error message) : db.next op = db := by
  rw [next, refused]

theorem next_of_ok {db db' : BudgetDb} (done : db.perform op = .ok db') : db.next op = db' := by
  rw [next, done]

def tenTokens : BudgetDb :=
  { empty with limits := [⟨"global", "tokens", "", 10, "daily", "", ""⟩] }

end BudgetDb

end SekaiChisei.Budget
