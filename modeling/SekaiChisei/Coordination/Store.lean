import SekaiChisei.Lib.Fallible
import SekaiChisei.Lib.Table
import SekaiChisei.Lib.Trace

/-!
Contention scopes and the admission of work units: `sekai/coordination.rs`. The statements of a call are not in one
transaction, so a call that fails midway keeps what it wrote. Times are `Int`, without the bounds of the `i64` in which
the source adds a lease or a timeout to a clock.
-/

namespace SekaiChisei.Coordination
open Lib

/-- A scope as `validate_scope` lets it in. -/
structure ContentionScope where
  (id name parentScopeId : String)
  (maxConcurrency heartbeatTtlSeconds : Int)
  idRequired : id ≠ ""
  nameRequired : name ≠ ""
  maxConcurrencyPositive : 1 ≤ maxConcurrency

structure ScopeForest where
  rows : List ContentionScope
  unique : (rows.map ContentionScope.id).Nodup

inductive WorkUnitStatus where
  | pending
  | admitted
  | running
  | completed
  | failed
  | timedOut
  | cancelled
  | stale
  | reconciled
  deriving DecidableEq

def WorkUnitStatus.text : WorkUnitStatus → String
  | .pending => "pending"
  | .admitted => "admitted"
  | .running => "running"
  | .completed => "completed"
  | .failed => "failed"
  | .timedOut => "timed_out"
  | .cancelled => "cancelled"
  | .stale => "stale"
  | .reconciled => "reconciled"

structure WorkUnit where
  (id kind actor : String)
  status : WorkUnitStatus
  scopeId : String
  (timeoutSeconds heartbeatTtlSeconds createdAt admittedAt startedAt finishedAt lastHeartbeatAt : Int)
  (failureReason cancelReason ownerPrincipal creatorPrincipal : String)
  updatedAt : Int
  deriving DecidableEq

inductive ReservationStatus where
  | active
  | released
  deriving DecidableEq

structure Reservation where
  (id workUnitId scopeId : String)
  status : ReservationStatus
  leaseOwner : String
  (leasedAt expiresAt releasedAt createdAt : Int)

structure RunEvent where
  (id workUnitId eventType message : String)
  evidence : List (String × String)
  createdAt : Int

structure ReconciliationRecord where
  (id workUnitId reservationId reason action : String)
  createdAt : Int

structure AdmissionResult where
  admitted : Bool
  queuePosition : Nat
  reason : String
  workUnit : WorkUnit
  reservations : List Reservation

structure ReconcileSummary where
  (workUnitsReconciled reservationsReleased : Nat)
  details : List ReconciliationRecord

structure ReconcileFilter where
  dryRun : Bool
  (workUnitId scopeId : Option String)
  limit : Int

structure Db where
  workUnits : List WorkUnit
  reservations : List Reservation
  runEvents : List RunEvent
  reconciliations : List ReconciliationRecord

def Db.empty : Db := ⟨[], [], [], []⟩

section
variable (forest : ScopeForest)

def ScopeForest.find (id : String) : Option ContentionScope :=
  Table.find ContentionScope.id forest.rows id

/-- The loop of `scope_chain_locked`. Every round but the last puts one more row into `seen`, so one round
more than there are rows is enough. -/
def ScopeForest.ancestors (scopeId : String) : Nat → List String → String → Except String (List ContentionScope)
  | 0, _, currentId => .error ("scope cycle detected at " ++ currentId)
  | rounds + 1, seen, currentId =>
    if currentId = "" then .ok []
    else if currentId ∈ seen then .error ("scope cycle detected at " ++ currentId)
    else
      match forest.find currentId with
      | none => .error ("scope not found: " ++ scopeId)
      | some scope => do
        let rest ← ScopeForest.ancestors scopeId rounds (currentId :: seen) scope.parentScopeId
        .ok (scope :: rest)

/-- `scope_chain_locked`, the root first. -/
def ScopeForest.scopeChain (scopeId : String) : Except String (List ContentionScope) := do
  let chain ← forest.ancestors scopeId (forest.rows.length + 1) [] scopeId
  .ok chain.reverse

def chainsOverlap (left right : List ContentionScope) : Bool :=
  right.any fun scope => scope.id ∈ left.map ContentionScope.id

variable (db : Db)

def Db.findWorkUnit (id : String) : Except String WorkUnit :=
  match Table.find WorkUnit.id db.workUnits id with
  | some workUnit => .ok workUnit
  | none => .error "work unit not found"

def Db.putWorkUnit (workUnit : WorkUnit) : Db :=
  { db with workUnits := Table.replace WorkUnit.id db.workUnits workUnit }

def Db.insertRunEvent (event : RunEvent) : Db × Except String Unit :=
  if event.id ∈ db.runEvents.map RunEvent.id then
    (db, .error "UNIQUE constraint failed: sekai_run_events.id")
  else ({ db with runEvents := db.runEvents ++ [event] }, .ok ())

def Db.insertReconciliation (record : ReconciliationRecord) : Db × Except String Unit :=
  if record.id ∈ db.reconciliations.map ReconciliationRecord.id then
    (db, .error "UNIQUE constraint failed: sekai_reconciliations.id")
  else ({ db with reconciliations := db.reconciliations ++ [record] }, .ok ())

/-- `status = 'active' AND released_at = 0`. -/
def Reservation.held (reservation : Reservation) : Bool :=
  reservation.status = .active ∧ reservation.releasedAt = 0

def Db.reservationsOf (scopeId : String) : List Reservation :=
  db.reservations.filter fun reservation => reservation.scopeId = scopeId

def Db.activeCount (scopeId : String) (now : Int) : Nat :=
  (db.reservationsOf scopeId).countP fun reservation => reservation.held ∧ now < reservation.expiresAt

def Reservation.release (workUnitId : String) (now : Int) (reservation : Reservation) : Reservation :=
  if reservation.workUnitId = workUnitId ∧ reservation.held then
    { reservation with status := .released, releasedAt := now }
  else reservation

def Db.release (workUnitId : String) (now : Int) : Db :=
  { db with reservations := db.reservations.map (Reservation.release workUnitId now) }

variable (workUnit : WorkUnit)

def ttlSeconds (scope : ContentionScope) : Int :=
  if workUnit.heartbeatTtlSeconds > 0 then workUnit.heartbeatTtlSeconds else scope.heartbeatTtlSeconds

def queueKey : Int ×ₗ String := toLex (workUnit.createdAt, workUnit.id)

/-- `ORDER BY created_at, id`. -/
def inOrder (workUnits : List WorkUnit) : List WorkUnit :=
  workUnits.insertionSort fun left right => queueKey left ≤ queueKey right

def Db.allPending : List WorkUnit := inOrder (db.workUnits.filter (·.status = .pending))

def conflictingOlder (workUnit : WorkUnit) (chain : List ContentionScope) : List WorkUnit → Except String Nat
  | [] => .ok 0
  | other :: rest =>
    if other.id = workUnit.id then .ok 0
    else do
      let otherChain ← forest.scopeChain other.scopeId
      let count ← conflictingOlder workUnit chain rest
      .ok (if chainsOverlap chain otherChain then count + 1 else count)

def Db.saturated (now : Int) (scope : ContentionScope) : Bool :=
  scope.maxConcurrency ≤ db.activeCount scope.id now

def reservationFor (leaseOwner : String) (now : Int) (scope : ContentionScope) :
    Reservation where
  id := "res:" ++ workUnit.id ++ ":" ++ scope.id
  workUnitId := workUnit.id
  scopeId := scope.id
  status := .active
  leaseOwner := leaseOwner
  leasedAt := now
  expiresAt := now + ttlSeconds workUnit scope * 1000
  releasedAt := 0
  createdAt := now

def Db.reserve (leaseOwner : String) (now : Int) :
    Db → List ContentionScope → Db × Except String (List Reservation)
  | db, [] => (db, .ok [])
  | db, scope :: rest =>
    if (reservationFor workUnit leaseOwner now scope).id ∈ db.reservations.map Reservation.id then
      (db, .error "UNIQUE constraint failed: sekai_reservations.id")
    else
      let reserved := Db.reserve leaseOwner now
        { db with reservations := db.reservations ++ [reservationFor workUnit leaseOwner now scope] } rest
      (reserved.1, reserved.2.map (reservationFor workUnit leaseOwner now scope :: ·))

def WorkUnit.run (now : Int) : WorkUnit :=
  { workUnit with
    status := .running
    admittedAt := now
    startedAt := now
    lastHeartbeatAt := now
    updatedAt := now }

def admittedEvent (now : Int) : RunEvent where
  id := "evt:" ++ workUnit.id ++ ":admitted:" ++ toString now
  workUnitId := workUnit.id
  eventType := "admitted"
  message := "work unit admitted into scope " ++ workUnit.scopeId
  evidence := [("scope_id", workUnit.scopeId)]
  createdAt := now

/-- The part of `try_admit_work_unit` that writes. -/
def Db.enroll (workUnit : WorkUnit) (chain : List ContentionScope) (leaseOwner : String)
    (now : Int) : Db × Except String AdmissionResult :=
  match db.reserve workUnit leaseOwner now chain with
  | (db, .error error) => (db, .error error)
  | (db, .ok reservations) =>
    let inserted := (db.putWorkUnit (workUnit.run now)).insertRunEvent (admittedEvent workUnit now)
    (inserted.1, inserted.2.map fun _ => ⟨true, 0, "", workUnit.run now, reservations⟩)

/-- What `try_admit_work_unit` decides from what it reads: the chain to reserve, or an answer. -/
def Db.admission (workUnitId : String) (now : Int) :
    Except String (WorkUnit × (AdmissionResult ⊕ List ContentionScope)) := do
  let workUnit ← db.findWorkUnit workUnitId
  if workUnit.status ≠ .pending then
    .ok (workUnit, .inl ⟨false, 0, "work unit is not pending: " ++ workUnit.status.text, workUnit, []⟩)
  else do
    let chain ← forest.scopeChain workUnit.scopeId
    let older ← conflictingOlder forest workUnit chain db.allPending
    if older > 0 then
      .ok (workUnit, .inl ⟨false, older + 1, "older pending work unit holds queue precedence", workUnit, []⟩)
    else
      match chain.find? (db.saturated now) with
      | some scope =>
        .ok (workUnit, .inl ⟨false, 1, "scope " ++ scope.name ++ " is saturated", workUnit, []⟩)
      | none => .ok (workUnit, .inr chain)

def Db.tryAdmitWorkUnit (workUnitId leaseOwner : String) (now : Int) : Db × Except String AdmissionResult :=
  match db.admission forest workUnitId now with
  | .error error => (db, .error error)
  | .ok (_, .inl result) => (db, .ok result)
  | .ok (workUnit, .inr chain) => db.enroll workUnit chain leaseOwner now

/-- `UPDATE … SET expires_at` of one scope. -/
def Reservation.renew (now : Int) (scope : ContentionScope)
    (reservation : Reservation) : Reservation :=
  if reservation.workUnitId = workUnit.id ∧ reservation.scopeId = scope.id ∧ reservation.held then
    { reservation with expiresAt := now + ttlSeconds workUnit scope * 1000 }
  else reservation

def Db.renew (now : Int) (db : Db) (scope : ContentionScope) : Db :=
  { db with reservations := db.reservations.map (Reservation.renew workUnit now scope) }

def heartbeatEvent (now : Int) : RunEvent where
  id := "evt:" ++ workUnit.id ++ ":heartbeat:" ++ toString now
  workUnitId := workUnit.id
  eventType := "heartbeat"
  message := "heartbeat received"
  evidence := []
  createdAt := now

def Db.beating (workUnitId : String) : Except String (WorkUnit × List ContentionScope) := do
  let workUnit ← db.findWorkUnit workUnitId
  if workUnit.status = .running ∨ workUnit.status = .admitted then do
    let chain ← forest.scopeChain workUnit.scopeId
    .ok (workUnit, chain)
  else .error ("cannot heartbeat work unit in status " ++ workUnit.status.text)

def Db.heartbeatWorkUnit (workUnitId : String) (now : Int) : Db × Except String WorkUnit :=
  match db.beating forest workUnitId with
  | .error error => (db, .error error)
  | .ok (workUnit, chain) =>
    let beaten := { workUnit with lastHeartbeatAt := now, updatedAt := now }
    let inserted := ((chain.foldl (Db.renew workUnit now) db).putWorkUnit beaten).insertRunEvent
      (heartbeatEvent workUnit now)
    (inserted.1, inserted.2.map fun _ => beaten)

def WorkUnitStatus.isTerminal : WorkUnitStatus → Bool
  | .completed | .failed | .timedOut | .cancelled | .stale | .reconciled => true
  | .pending | .admitted | .running => false

def WorkUnitStatus.legal : WorkUnitStatus → WorkUnitStatus → Bool
  | .pending, .running | .pending, .cancelled => true
  | .admitted, .running | .admitted, .completed | .admitted, .failed | .admitted, .cancelled
  | .admitted, .stale | .admitted, .timedOut => true
  | .running, .completed | .running, .failed | .running, .cancelled | .running, .stale
  | .running, .timedOut => true
  | _, _ => false

def ensureTransition (current next : WorkUnitStatus) : Except String Unit :=
  if current.legal next then .ok ()
  else .error ("invalid work unit transition: " ++ current.text ++ " -> " ++ next.text)

def finishedEvent (status : WorkUnitStatus) (failureReason cancelReason : String)
    (now : Int) : RunEvent where
  id := "evt:" ++ workUnit.id ++ ":" ++ status.text ++ ":" ++ toString now
  workUnitId := workUnit.id
  eventType := status.text
  message :=
    if failureReason ≠ "" then failureReason
    else if cancelReason ≠ "" then cancelReason
    else "work unit " ++ status.text
  evidence := []
  createdAt := now

def Db.finishWorkUnit (workUnitId : String) (status : WorkUnitStatus)
    (failureReason cancelReason : String) (now : Int) : Db × Except String WorkUnit :=
  match db.findWorkUnit workUnitId with
  | .error error => (db, .error error)
  | .ok workUnit =>
    if workUnit.status.isTerminal then (db, .ok workUnit)
    else
      match ensureTransition workUnit.status status with
      | .error error => (db, .error error)
      | .ok () =>
        let finished :=
          { workUnit with
            status := status
            finishedAt := now
            failureReason := failureReason
            cancelReason := cancelReason
            updatedAt := now }
        let inserted := ((db.release workUnit.id now).putWorkUnit finished).insertRunEvent
          (finishedEvent workUnit status failureReason cancelReason now)
        (inserted.1, inserted.2.map fun _ => finished)

def Db.completeWorkUnit (workUnitId : String) (now : Int) : Db × Except String WorkUnit :=
  db.finishWorkUnit workUnitId .completed "" "" now

def Db.failWorkUnit (workUnitId failureReason : String) (now : Int) : Db × Except String WorkUnit :=
  db.finishWorkUnit workUnitId .failed failureReason "" now

def Db.cancelWorkUnit (workUnitId cancelReason : String) (now : Int) : Db × Except String WorkUnit :=
  db.finishWorkUnit workUnitId .cancelled "" cancelReason now

def Db.releaseReservationsForWorkUnit (workUnitId : String) (now : Int) : Db × Nat :=
  (db.release workUnitId now,
    db.reservations.countP fun reservation => reservation.workUnitId = workUnitId ∧ reservation.held)

def Db.heldBy (workUnitId : String) : List Reservation :=
  db.reservations.filter fun reservation => reservation.workUnitId = workUnitId ∧ reservation.held

def WorkUnit.timedOut (now : Int) : Bool :=
  workUnit.startedAt > 0 ∧ workUnit.timeoutSeconds > 0 ∧ workUnit.startedAt + workUnit.timeoutSeconds * 1000 ≤ now

def Db.isStale (workUnit : WorkUnit) (now : Int) : Bool :=
  (db.heldBy workUnit.id).any fun reservation => reservation.expiresAt ≤ now

/-- The rows `reconcile_work_units` looks at. -/
def Db.liveUnits (filter : ReconcileFilter) : List WorkUnit :=
  let rows := inOrder (db.workUnits.filter fun workUnit =>
    (workUnit.status = .pending ∨ workUnit.status = .admitted ∨ workUnit.status = .running) ∧
      (∀ id ∈ filter.workUnitId, workUnit.id = id) ∧ ∀ id ∈ filter.scopeId, workUnit.scopeId = id)
  if filter.limit > 0 then rows.take filter.limit.toNat else rows

def reconcileReason (timedOut : Bool) : String :=
  if timedOut then "work unit exceeded timeout" else "reservation lease expired"

def reconciliationRecord (timedOut dryRun : Bool) (now : Int) : ReconciliationRecord where
  id := "reconcile:" ++ workUnit.id ++ ":" ++ toString now
  workUnitId := workUnit.id
  reservationId := ""
  reason := reconcileReason timedOut
  action := if dryRun then "would_release_reservations" else "release_reservations"
  createdAt := now

def reconcileEvent (timedOut : Bool) (now : Int) : RunEvent where
  id := "evt:" ++ workUnit.id ++ ":reconcile:" ++ toString now
  workUnitId := workUnit.id
  eventType := if timedOut then "timed_out" else "stale"
  message := reconcileReason timedOut
  evidence := []
  createdAt := now

def WorkUnit.reconcile (timedOut : Bool) (now : Int) : WorkUnit :=
  { workUnit with
    status := if timedOut then .timedOut else .stale
    finishedAt := now
    failureReason := if timedOut then reconcileReason timedOut else workUnit.failureReason
    updatedAt := now }

def Db.retire (workUnit : WorkUnit) (timedOut : Bool) (now : Int) : Db × Except String Unit :=
  let inserted := ((db.release workUnit.id now).putWorkUnit (workUnit.reconcile timedOut now)).insertRunEvent
    (reconcileEvent workUnit timedOut now)
  match inserted.2 with
  | .error error => (inserted.1, .error error)
  | .ok () => inserted.1.insertReconciliation (reconciliationRecord workUnit timedOut false now)

def ReconcileSummary.add (summary : ReconcileSummary) (released : Nat) (record : ReconciliationRecord) :
    ReconcileSummary :=
  ⟨summary.workUnitsReconciled + 1, summary.reservationsReleased + released, summary.details ++ [record]⟩

/-- The loop of `reconcile_work_units`. -/
def Db.reconcileAll (dryRun : Bool) (now : Int) :
    Db → ReconcileSummary → List WorkUnit → Db × Except String ReconcileSummary
  | db, summary, [] => (db, .ok summary)
  | db, summary, workUnit :: rest =>
    if workUnit.timedOut now ∨ db.isStale workUnit now then
      let record := reconciliationRecord workUnit (workUnit.timedOut now) dryRun now
      let added := summary.add (db.heldBy workUnit.id).length record
      if dryRun then Db.reconcileAll dryRun now db added rest
      else
        match db.retire workUnit (workUnit.timedOut now) now with
        | (db, .error error) => (db, .error error)
        | (db, .ok ()) => Db.reconcileAll dryRun now db added rest
    else Db.reconcileAll dryRun now db summary rest

def Db.reconcileWorkUnits (filter : ReconcileFilter) (now : Int) : Db × Except String ReconcileSummary :=
  db.reconcileAll filter.dryRun now ⟨0, 0, []⟩ (db.liveUnits filter)

def validateWorkUnit : Except String Unit :=
  if workUnit.id = "" then .error "work unit id required"
  else if workUnit.kind = "" then .error "work unit kind required"
  else if workUnit.actor = "" then .error "work unit actor required"
  else if workUnit.scopeId = "" then .error "work unit scope_id required"
  else if workUnit.ownerPrincipal = "" then .error "work unit owner_principal required"
  else if workUnit.creatorPrincipal = "" then .error "work unit creator_principal required"
  else .ok ()

def Db.createWorkUnit (workUnit : WorkUnit) : Db × Except String Unit :=
  match validateWorkUnit workUnit with
  | .error error => (db, .error error)
  | .ok () =>
    if workUnit.id ∈ db.workUnits.map WorkUnit.id then
      (db, .error "UNIQUE constraint failed: sekai_work_units.id")
    else ({ db with workUnits := db.workUnits ++ [workUnit] }, .ok ())

inductive Request where
  | create (workUnit : WorkUnit)
  | tryAdmit (workUnitId leaseOwner : String)
  | heartbeat (workUnitId : String)
  | complete (workUnitId : String)
  | fail (workUnitId failureReason : String)
  | cancel (workUnitId cancelReason : String)
  | release (workUnitId : String)
  | reconcile (filter : ReconcileFilter)

structure Call where
  elapsed : Nat
  request : Request

structure World where
  db : Db
  clock : Int

def World.start (clock : Int) : World := ⟨.empty, clock⟩

def Db.serve (now : Int) : Request → Db
  | .create workUnit => (db.createWorkUnit workUnit).1
  | .tryAdmit workUnitId leaseOwner => (db.tryAdmitWorkUnit forest workUnitId leaseOwner now).1
  | .heartbeat workUnitId => (db.heartbeatWorkUnit forest workUnitId now).1
  | .complete workUnitId => (db.completeWorkUnit workUnitId now).1
  | .fail workUnitId failureReason => (db.failWorkUnit workUnitId failureReason now).1
  | .cancel workUnitId cancelReason => (db.cancelWorkUnit workUnitId cancelReason now).1
  | .release workUnitId => (db.releaseReservationsForWorkUnit workUnitId now).1
  | .reconcile filter => (db.reconcileWorkUnits filter now).1

def step (world : World) (call : Call) : World :=
  ⟨world.db.serve forest (world.clock + call.elapsed) call.request, world.clock + call.elapsed⟩

end

end SekaiChisei.Coordination
