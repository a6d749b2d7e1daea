import SekaiChisei.Leases.Lease
import SekaiChisei.Lib.Json

/-! Object writes that a lease guards: the second half of `sekai/lease.rs`, and one function that serves any of the
seven calls. -/

namespace SekaiChisei.Leases
open Lib Objects

def GuardedOperation.asStr : GuardedOperation → String
  | create => "create"
  | update => "update"
  | delete => "delete"

def guardedText (operation : GuardedOperation) (targetId token inputJson : String) : String :=
  operation.asStr ++ "\x00" ++ targetId ++ "\x00" ++ token ++ "\x00" ++ inputJson

variable (sha256 : String → String)

def guardedMutationDigest (operation : GuardedOperation)
    (targetId token inputJson : String) : String :=
  sha256 (guardedText operation targetId token inputJson)

def objectItems (object : Object) : List Json.Item :=
  [.string object.id, .string object.kind, .string object.name, .string object.nameSpace,
    .string object.externalId, .fields object.properties.entries, .number object.created,
    .number object.updated]

def canonicalObjectInput (object : Object) : String :=
  Json.array ((objectItems object).map Json.Item.text)

/-- `i64::saturating_add`. -/
def saturatingAdd (a b : Int) : Int := max i64Min (min (a + b) i64Max)

namespace LeaseDb

def findMutation (db : LeaseDb) (nameSpace key requestId : String) : Option GuardedMutation :=
  Table.find GuardedMutation.rowKey db.mutations (nameSpace, key, requestId)

/-- `waitedMs` is the time until the write lock was taken. -/
def guardedObjectMutation (sha256 : String → String) (db : LeaseDb)
    (nameSpace key token requestId : String) (operation : GuardedOperation)
    (targetId inputJson actor : String) (nowMs : Int) (waitedMs : Nat)
    (mutation : ObjectTables → Int → Except LeaseError (ObjectTables × Object)) :
    Except LeaseError (LeaseDb × Object) := do
  validateText nameSpace "namespace"
  validateText key "key"
  validateText token "fencing_token"
  validateText requestId "request_id"
  let digest := guardedMutationDigest sha256 operation targetId token inputJson
  let transactionNowMs := saturatingAdd nowMs (min waitedMs i64Max)
  match db.findMutation nameSpace key requestId with
  | some stored =>
    if stored.operation ≠ operation ∨ stored.targetId ≠ targetId ∨ stored.requestDigest ≠ digest then
      .error (.conflict "request_id is already bound to different guarded mutation input")
    else .ok (db, stored.response)
  | none => do
    let lease ← db.activeWithToken nameSpace key token
    if transactionNowMs ≥ lease.expiresAtMs then .error (.stale "lease has expired")
    else do
      let (tables, response) ← mutation db.tables transactionNowMs
      sqliteGeneration lease.generation
      let row : GuardedMutation :=
        ⟨nameSpace, key, requestId, operation, targetId, digest, response, lease.generation, actor, transactionNowMs⟩
      .ok ({ db with tables, mutations := db.mutations ++ [row] }, response)

def guardedCreateObjectWithPolicy (sha256 : String → String) (db : LeaseDb) (object : Object)
    (nameSpace key token requestId actor : String) (nowMs : Int) (waitedMs : Nat)
    (expectedPolicyGeneration : Option String) : Except LeaseError (LeaseDb × Object) :=
  if object.id.startsWith "namespace:" ∧ object.kind ≠ "namespace" then
    .error (.mutation "namespace:* object IDs are reserved for namespace boundaries")
  else if object.externalId.startsWith "namespace:" ∧ object.kind ≠ "namespace" then
    .error (.mutation "namespace:* external IDs are reserved for namespace boundaries")
  else
    guardedObjectMutation sha256 db nameSpace key token requestId .create object.id
      (canonicalObjectInput object) actor nowMs waitedMs fun tables transactionNowMs => do
      (tables.requireSqlitePolicyGeneration object.nameSpace expectedPolicyGeneration).mapError .mutation
      if tables.changes.any (·.objectId = object.id) then
        .error (.mutation "object IDs with audit history cannot be reused")
      else do
        (storagePropertiesJson object.properties).mapError .storage
        let tables ← (tables.insertObject object).mapError .storage
        let changes := objectDiffChanges actor none (some object) transactionNowMs
        .ok (tables.insertObjectChanges (ChangeAttribution.direct.stamp changes), object)

/-- `validateObjectKindChange` is the check of `ontology.rs` against the registry of the moment. -/
def guardedUpdateObjectWithPolicy (sha256 : String → String) (db : LeaseDb)
    (object requestObject : Object) (expected : Option Object)
    (nameSpace key token requestId actor : String) (nowMs : Int) (waitedMs : Nat)
    (expectedPolicyGeneration : Option String)
    (validateObjectKindChange : ObjectTables → String → String → Except String Unit) :
    Except LeaseError (LeaseDb × Object) :=
  if object.externalId.startsWith "namespace:" ∧ object.kind ≠ "namespace" then
    .error (.mutation "namespace:* external IDs are reserved for namespace boundaries")
  else
    guardedObjectMutation sha256 db nameSpace key token requestId .update object.id
      (canonicalObjectInput requestObject) actor nowMs waitedMs fun tables transactionNowMs => do
      (tables.requireSqlitePolicyGeneration object.nameSpace expectedPolicyGeneration).mapError .mutation
      match tables.getObject object.id with
      | none => .error (.mutation "not found")
      | some before =>
        if expected ≠ some before then .error (.mutation "object changed since authorization")
        else if before.nameSpace ≠ object.nameSpace then
          .error (.mutation "object namespace is immutable")
        else do
          if before.kind ≠ object.kind then
            (validateObjectKindChange tables object.id object.kind).mapError .mutation
          (storagePropertiesJson object.properties).mapError .storage
          let tables ← (tables.updateObject object).mapError .storage
          let changes := objectDiffChanges actor (some before) (some object) transactionNowMs
          .ok (tables.insertObjectChanges (ChangeAttribution.direct.stamp changes), object)

/-- `snapshotKeys` are the policy-driving properties of the object, read before the transaction. The
caller gets no object back; the stored response keeps only the id. -/
def guardedDeleteObjectWithPolicy (sha256 : String → String) (db : LeaseDb) (objectId : String)
    (expected : Option Object) (nameSpace key token requestId actor : String) (nowMs : Int)
    (waitedMs : Nat) (expectedPolicyGeneration : Option String) (snapshotKeys : List String) :
    Except LeaseError (LeaseDb × Object) :=
  guardedObjectMutation sha256 db nameSpace key token requestId .delete objectId
    (Json.string objectId) actor nowMs waitedMs fun tables transactionNowMs => do
    (tables.requireSqlitePolicyGeneration ((expected.map (·.nameSpace)).getD nameSpace)
      expectedPolicyGeneration).mapError .mutation
    match tables.getObject objectId with
    | none => .error (.mutation "not found")
    | some before =>
      if expected ≠ some before then .error (.mutation "object changed since authorization")
      else do
        let tables ← (tables.deleteObject objectId).mapError .storage
        let changes := objectDiffChangesWithSnapshot actor (some before) none transactionNowMs snapshotKeys
        .ok (tables.insertObjectChanges (ChangeAttribution.direct.stamp changes),
          ⟨before.id, "", "", "", "", .empty, 0, 0⟩)

end LeaseDb

inductive Request where
  | acquire (owner : String) (ttlMs : Int) (siteId : String)
  | refresh (token : String) (ttlMs : Int) (siteId : String)
  | release (token siteId : String)
  | takeover (owner expectedToken : String) (expectedExpiresAtMs ttlMs : Int) (siteId : String)
  | create (token : String) (object : Object)
  | update (token : String) (object requestObject : Object)
  | delete (token objectId : String)

structure Call where
  (nameSpace key requestId : String)
  request : Request

structure Context where
  actor : String
  nowMs : Int
  waitedMs : Nat
  uuid : String
  expected : Option Object
  expectedPolicyGeneration : Option String
  validateObjectKindChange : ObjectTables → String → String → Except String Unit
  snapshotKeys : List String

inductive Response where
  | lease (lease : Lease)
  | object (object : Object)
  | deleted

def leaseResponse (result : Except LeaseError (LeaseDb × Lease)) : Except LeaseError (LeaseDb × Response) :=
  result.map fun (db, lease) => (db, .lease lease)

def objectResponse (result : Except LeaseError (LeaseDb × Object)) : Except LeaseError (LeaseDb × Response) :=
  result.map fun (db, object) => (db, .object object)

def deleteResponse (result : Except LeaseError (LeaseDb × Object)) : Except LeaseError (LeaseDb × Response) :=
  result.map fun (db, _) => (db, .deleted)

def LeaseDb.serve (db : LeaseDb) (call : Call) (context : Context) :
    Except LeaseError (LeaseDb × Response) :=
  match call.request with
  | .acquire owner ttlMs siteId =>
    leaseResponse (db.acquireLease call.nameSpace call.key owner ttlMs call.requestId context.actor
      siteId context.nowMs context.uuid)
  | .refresh token ttlMs siteId =>
    leaseResponse (db.refreshLease call.nameSpace call.key token ttlMs call.requestId context.actor
      siteId context.nowMs)
  | .release token siteId =>
    leaseResponse (db.releaseLease call.nameSpace call.key token call.requestId context.actor siteId context.nowMs)
  | .takeover owner expectedToken expectedExpiresAtMs ttlMs siteId =>
    leaseResponse (db.takeoverExpiredLease call.nameSpace call.key owner expectedToken
      expectedExpiresAtMs ttlMs call.requestId context.actor siteId context.nowMs context.uuid)
  | .create token object =>
    objectResponse (LeaseDb.guardedCreateObjectWithPolicy sha256 db object call.nameSpace call.key
      token call.requestId context.actor context.nowMs context.waitedMs
      context.expectedPolicyGeneration)
  | .update token object requestObject =>
    objectResponse (LeaseDb.guardedUpdateObjectWithPolicy sha256 db object requestObject
      context.expected call.nameSpace call.key token call.requestId context.actor context.nowMs
      context.waitedMs context.expectedPolicyGeneration context.validateObjectKindChange)
  | .delete token objectId =>
    deleteResponse (LeaseDb.guardedDeleteObjectWithPolicy sha256 db objectId context.expected
      call.nameSpace call.key token call.requestId context.actor context.nowMs context.waitedMs
      context.expectedPolicyGeneration context.snapshotKeys)

inductive Event where
  | call (call : Call) (context : Context)
  | other (tables : ObjectTables)

def LeaseDb.next (db : LeaseDb) : Event → LeaseDb
  | .call call context =>
    match db.serve sha256 call context with
    | .ok (db, _) => db
    | .error _ => db
  | .other tables => { db with tables }

def LeaseDb.run (db : LeaseDb) (events : List Event) : LeaseDb :=
  events.foldl (LeaseDb.next sha256) db

end SekaiChisei.Leases
