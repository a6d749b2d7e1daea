import SekaiChisei.Lib.Fallible
import SekaiChisei.Lib.Table
import SekaiChisei.Objects.Tables

/-!
Lease records and their four operations on SQLite: `sekai-types/src/lease.rs` and the first half of `sekai/lease.rs`.
An operation is one immediate transaction.
-/

namespace SekaiChisei.Leases
open Lib Objects

def maxTtlMs : Int := 24 * 60 * 60 * 1000
def defaultSiteId : String := "local"
def i64Min : Int := -2 ^ 63
def i64Max : Int := 2 ^ 63 - 1

inductive LeaseStatus where
  | active | released
  deriving DecidableEq

structure Lease where
  (nameSpace key : String)
  generation : Nat
  (fencingToken owner : String)
  status : LeaseStatus
  (acquiredAtMs refreshedAtMs expiresAtMs releasedAtMs : Int)
  siteId : String

inductive LeaseError where
  | invalid (message : String)
  | conflict (message : String)
  | stale (message : String)
  | notExpired
  | storage (message : String)
  | mutation (message : String)

def validateText (value name : String) : Except LeaseError Unit :=
  if trim value = "" ∨ value.utf8ByteSize > 512 ∨ '\x00' ∈ value.toList then
    .error (.invalid (name ++ " is invalid"))
  else .ok ()

def checkedExpiry (now ttl : Int) : Except LeaseError Int :=
  if i64Min ≤ now + ttl ∧ now + ttl ≤ i64Max then .ok (now + ttl)
  else .error (.invalid "lease expiry overflows")

def validate (nameSpace key owner : String) (ttlMs : Int) (requestId : String) : Except LeaseError Unit := do
  validateText nameSpace "namespace"
  validateText key "key"
  validateText owner "owner"
  validateText requestId "request_id"
  if ttlMs ≤ 0 ∨ ttlMs > maxTtlMs then
    .error (.invalid ("ttl_ms must be between 1 and " ++ toString maxTtlMs))
  else do
    let _ ← checkedExpiry 0 ttlMs
    .ok ()

def validateSiteId (value : String) : Except String String :=
  let trimmed := trim value
  if trimmed = "" then .error "site_id must not be empty"
  else if trimmed.utf8ByteSize > 128 then .error "site_id must be at most 128 characters"
  else if '*' ∈ trimmed.toList ∨ '?' ∈ trimmed.toList ∨ '\x00' ∈ trimmed.toList then
    .error "site_id must not contain wildcards or null bytes"
  else .ok trimmed

def validateSiteIdPublic (siteId : String) : Except LeaseError String :=
  (validateSiteId siteId).mapError .invalid

def requireSitePin (lease : Lease) (siteId : String) : Except LeaseError Unit :=
  if lease.siteId ≠ siteId then
    .error (.conflict ("lease is pinned to site '" ++ lease.siteId ++ "' (caller site '" ++ siteId ++
      "'); foreign pin fail closed"))
  else .ok ()

/-- The token comes from `Uuid::new_v4`; the expiry is an `i64` sum that wraps around. -/
def newLease (nameSpace key owner : String) (generation : Nat) (ttl now : Int) (siteId uuid : String) : Lease where
  nameSpace := nameSpace
  key := key
  generation := generation
  fencingToken := uuid
  owner := owner
  status := .active
  acquiredAtMs := now
  refreshedAtMs := now
  expiresAtMs := (now + ttl).bmod (2 ^ 64)
  releasedAtMs := 0
  siteId := siteId

inductive LeaseOperation where
  | acquire | refresh | release | takeover
  deriving DecidableEq

structure LeaseRequest where
  (nameSpace key requestId : String)
  operation : LeaseOperation
  requestDigest : String
  response : Lease
  createdAtMs : Int

structure LeaseAudit where
  (nameSpace key : String)
  generation : Nat
  (fencingToken actor : String)
  operation : LeaseOperation
  timestampMs : Int
  (previousOwner owner : String)
  (previousExpiresAtMs expiresAtMs : Int)
  requestId : String

inductive GuardedOperation where
  | create | update | delete
  deriving DecidableEq

structure GuardedMutation where
  (nameSpace key requestId : String)
  operation : GuardedOperation
  (targetId requestDigest : String)
  response : Object
  generation : Nat
  actor : String
  committedAtMs : Int

structure LeaseDb where
  leases : List Lease
  requests : List LeaseRequest
  audit : List LeaseAudit
  mutations : List GuardedMutation
  tables : ObjectTables

/-! The primary keys. -/

def Lease.rowKey (row : Lease) : String × String := (row.nameSpace, row.key)

def LeaseRequest.rowKey (row : LeaseRequest) : String × String × String :=
  (row.nameSpace, row.key, row.requestId)

def GuardedMutation.rowKey (row : GuardedMutation) : String × String × String :=
  (row.nameSpace, row.key, row.requestId)

def LeaseDb.empty (tables : ObjectTables) : LeaseDb := ⟨[], [], [], [], tables⟩

def rowToLease (row : Lease) : Lease :=
  { row with siteId := if row.siteId = "" then defaultSiteId else row.siteId }

namespace LeaseDb

variable (db : LeaseDb)

def readLease (nameSpace key : String) : Option Lease :=
  (Table.find Lease.rowKey db.leases (nameSpace, key)).map rowToLease

def activeWithToken (nameSpace key token : String) : Except LeaseError Lease :=
  match db.readLease nameSpace key with
  | none => .error (.stale "lease generation is not active")
  | some lease =>
    if lease.status ≠ .active ∨ lease.fencingToken ≠ token then
      .error (.stale "lease generation is not active")
    else .ok lease

def sqliteGeneration (generation : Nat) : Except LeaseError Unit :=
  if 2 ^ 63 ≤ generation then .error (.storage "lease generation exceeds SQLite range") else .ok ()

def auditRow (before : Option Lease) (after : Lease) (actor : String) (operation : LeaseOperation)
    (requestId : String) (now : Int) : LeaseAudit where
  nameSpace := after.nameSpace
  key := after.key
  generation := after.generation
  fencingToken := after.fencingToken
  actor := actor
  operation := operation
  timestampMs := now
  previousOwner := (before.map (·.owner)).getD ""
  owner := after.owner
  previousExpiresAtMs := (before.map (·.expiresAtMs)).getD 0
  expiresAtMs := after.expiresAtMs
  requestId := requestId

def insertLease (lease : Lease) : Except LeaseError LeaseDb := do
  sqliteGeneration lease.generation
  if (Table.find Lease.rowKey db.leases lease.rowKey).isSome then
    .error (.storage "UNIQUE constraint failed: sekai_leases.namespace, sekai_leases.lease_key")
  else if db.leases.any fun row => row.fencingToken = lease.fencingToken then
    .error (.storage "UNIQUE constraint failed: sekai_leases.fencing_token")
  else .ok { db with leases := db.leases ++ [lease] }

def updateLease (lease : Lease) : Except LeaseError LeaseDb := do
  sqliteGeneration lease.generation
  if db.leases.any fun row =>
      row.rowKey ≠ lease.rowKey ∧ row.fencingToken = lease.fencingToken then
    .error (.storage "UNIQUE constraint failed: sekai_leases.fencing_token")
  else .ok { db with leases := Table.replace Lease.rowKey db.leases lease }

def insertAudit (before : Option Lease) (after : Lease) (actor : String)
    (operation : LeaseOperation) (requestId : String) (now : Int) : Except LeaseError LeaseDb := do
  sqliteGeneration after.generation
  .ok { db with audit := db.audit ++ [auditRow before after actor operation requestId now] }

def findRequest (nameSpace key requestId : String) : Option LeaseRequest :=
  Table.find LeaseRequest.rowKey db.requests (nameSpace, key, requestId)

def mutateLease (nameSpace key requestId : String) (operation : LeaseOperation)
    (digest : String) (mutation : LeaseDb → Except LeaseError (LeaseDb × Lease)) :
    Except LeaseError (LeaseDb × Lease) :=
  match db.findRequest nameSpace key requestId with
  | some stored =>
    if stored.operation ≠ operation ∨ stored.requestDigest ≠ digest then
      .error (.conflict "request_id is already bound to different lease input")
    else .ok (db, stored.response)
  | none => do
    let (db, lease) ← mutation db
    -- the primary key of the row was just found free
    let row : LeaseRequest :=
      ⟨nameSpace, key, requestId, operation, digest, lease, lease.refreshedAtMs⟩
    .ok ({ db with requests := db.requests ++ [row] }, lease)

def acquireLease (nameSpace key owner : String) (ttlMs : Int)
    (requestId actor siteId : String) (nowMs : Int) (uuid : String) :
    Except LeaseError (LeaseDb × Lease) := do
  validate nameSpace key owner ttlMs requestId
  let siteId ← validateSiteIdPublic siteId
  db.mutateLease nameSpace key requestId .acquire (owner ++ "\x00" ++ toString ttlMs ++ "\x00" ++ siteId) fun db =>
    let previous := db.readLease nameSpace key
    if previous.any (·.status = .active) then .error (.conflict "lease is already active")
    else do
      let generation := (previous.map (·.generation + 1)).getD 1
      let lease := newLease nameSpace key owner generation ttlMs nowMs siteId uuid
      let db ← (if previous.isSome then db.updateLease lease else db.insertLease lease : Except LeaseError LeaseDb)
      let db ← db.insertAudit previous lease actor .acquire requestId nowMs
      .ok (db, lease)

def refreshLease (nameSpace key token : String) (ttlMs : Int)
    (requestId actor siteId : String) (nowMs : Int) : Except LeaseError (LeaseDb × Lease) := do
  validate nameSpace key token ttlMs requestId
  let siteId ← validateSiteIdPublic siteId
  db.mutateLease nameSpace key requestId .refresh (token ++ "\x00" ++ toString ttlMs ++ "\x00" ++ siteId) fun db => do
    let previous ← db.activeWithToken nameSpace key token
    requireSitePin previous siteId
    if nowMs ≥ previous.expiresAtMs then .error (.stale "lease has expired")
    else do
      let expiresAtMs ← checkedExpiry nowMs ttlMs
      let lease := { previous with refreshedAtMs := nowMs, expiresAtMs }
      let db ← db.updateLease lease
      let db ← db.insertAudit (some previous) lease actor .refresh requestId nowMs
      .ok (db, lease)

def releaseLease (nameSpace key token requestId actor siteId : String) (nowMs : Int) :
    Except LeaseError (LeaseDb × Lease) := do
  validateText nameSpace "namespace"
  validateText key "key"
  validateText token "fencing_token"
  validateText requestId "request_id"
  let siteId ← validateSiteIdPublic siteId
  db.mutateLease nameSpace key requestId .release (token ++ "\x00" ++ siteId) fun db => do
    let previous ← db.activeWithToken nameSpace key token
    requireSitePin previous siteId
    let lease := { previous with status := .released, releasedAtMs := nowMs }
    let db ← db.updateLease lease
    let db ← db.insertAudit (some previous) lease actor .release requestId nowMs
    .ok (db, lease)

def takeoverExpiredLease (nameSpace key owner expectedToken : String)
    (expectedExpiresAtMs ttlMs : Int) (requestId actor siteId : String) (nowMs : Int)
    (uuid : String) : Except LeaseError (LeaseDb × Lease) := do
  validate nameSpace key owner ttlMs requestId
  validateText expectedToken "expected_fencing_token"
  let siteId ← validateSiteIdPublic siteId
  db.mutateLease nameSpace key requestId .takeover
    (owner ++ "\x00" ++ expectedToken ++ "\x00" ++ toString expectedExpiresAtMs ++ "\x00" ++
      toString ttlMs ++ "\x00" ++ siteId) fun db => do
    let previous ← db.activeWithToken nameSpace key expectedToken
    requireSitePin previous siteId
    if previous.expiresAtMs ≠ expectedExpiresAtMs then .error (.stale "lease expiry changed")
    else if nowMs < previous.expiresAtMs then .error .notExpired
    else do
      let lease :=
        newLease nameSpace key owner (previous.generation + 1) ttlMs nowMs siteId uuid
      let db ← db.updateLease lease
      let db ← db.insertAudit (some previous) lease actor .takeover requestId nowMs
      .ok (db, lease)

end LeaseDb

end SekaiChisei.Leases
