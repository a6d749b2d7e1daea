import SekaiChisei.Leases.Guarded

/-! What a call that ends well does to the tables. -/

namespace SekaiChisei.Leases
open Lib Objects Table LeaseDb

variable {db db' mid : LeaseDb} {lease : Lease} {nameSpace key token requestId : String}

theorem activeWithToken_eq_ok : db.activeWithToken nameSpace key token = .ok lease ↔
      db.readLease nameSpace key = some lease ∧ lease.status = .active ∧ lease.fencingToken = token := by
  unfold activeWithToken
  cases held : db.readLease nameSpace key with
  | none => simp
  | some found =>
    rw [ite_error_eq_ok]
    constructor
    · rintro ⟨current, same⟩
      cases same
      simpa using current
    · rintro ⟨same, active, tokens⟩
      cases same
      simp [active, tokens]

theorem readLease_rowKey (held : db.readLease nameSpace key = some lease) : lease.rowKey = (nameSpace, key) := by
  obtain ⟨row, found, rfl⟩ := Option.map_eq_some_iff.mp held
  show row.rowKey = (nameSpace, key)
  exact key_of_find found

theorem insertLease_eq_ok (run : db.insertLease lease = .ok db') :
    find Lease.rowKey db.leases lease.rowKey = none ∧ db' = { db with leases := db.leases ++ [lease] } := by
  unfold insertLease at run
  rw [check_eq_ok, ite_error_eq_ok, ite_error_eq_ok] at run
  obtain ⟨_, free, _, last⟩ := run
  cases last
  exact ⟨by simpa using free, rfl⟩

theorem updateLease_eq_ok (run : db.updateLease lease = .ok db') :
    db' = { db with leases := replace Lease.rowKey db.leases lease } := by
  unfold updateLease at run
  rw [check_eq_ok, ite_error_eq_ok] at run
  obtain ⟨_, _, last⟩ := run
  cases last
  rfl

variable {operation : LeaseOperation} {before : Option Lease} {actor : String} {now : Int}

theorem insertAudit_eq_ok (run : db.insertAudit before lease actor operation requestId now = .ok db') :
    db' = { db with
      audit := db.audit ++ [auditRow before lease actor operation requestId now] } := by
  unfold insertAudit at run
  rw [check_eq_ok] at run
  obtain ⟨_, last⟩ := run
  cases last
  rfl

structure Moved (db : LeaseDb) (operation : LeaseOperation) (lease : Lease) (db' : LeaseDb) : Prop where
  self : db'.readLease lease.nameSpace lease.key = some (rowToLease lease)
  others : ∀ nameSpace key, (nameSpace, key) ≠ lease.rowKey → db'.readLease nameSpace key = db.readLease nameSpace key
  unique : (db.leases.map Lease.rowKey).Nodup → (db'.leases.map Lease.rowKey).Nodup
  audit : ∃ before actor requestId now,
    db'.audit = db.audit ++ [auditRow before lease actor operation requestId now]
  requests : db'.requests = db.requests
  mutations : db'.mutations = db.mutations
  tables : db'.tables = db.tables

theorem moved_of_update (present : (db.readLease lease.nameSpace lease.key).isSome)
    (update : db.updateLease lease = .ok mid)
    (audited : mid.insertAudit before lease actor operation requestId now = .ok db') :
    Moved db operation lease db' := by
  obtain rfl := updateLease_eq_ok update
  obtain rfl := insertAudit_eq_ok audited
  have found : (find Lease.rowKey db.leases lease.rowKey).isSome := by
    rwa [readLease, Option.isSome_map] at present
  refine ⟨?_, ?_, ?_, ⟨before, actor, requestId, now, rfl⟩, rfl, rfl, rfl⟩
  · exact congrArg (Option.map rowToLease) (find_replace_self found)
  · intro nameSpace key different
    exact congrArg (Option.map rowToLease) (find_replace_of_ne different)
  · intro unique
    exact (keys_replace Lease.rowKey db.leases lease).symm ▸ unique

theorem moved_of_insert (insert : db.insertLease lease = .ok mid)
    (audited : mid.insertAudit before lease actor operation requestId now = .ok db') :
    Moved db operation lease db' := by
  obtain ⟨free, rfl⟩ := insertLease_eq_ok insert
  obtain rfl := insertAudit_eq_ok audited
  refine ⟨?_, ?_, ?_, ⟨before, actor, requestId, now, rfl⟩, rfl, rfl, rfl⟩
  · exact congrArg (Option.map rowToLease) (find_append_self lease free)
  · intro nameSpace key different
    exact congrArg (Option.map rowToLease) (find_append_of_ne different)
  · exact nodup_append free

inductive Change (uuid : String) (previous : Option Lease) : LeaseOperation → Lease → Prop
  | granted {operation : LeaseOperation} {lease : Lease} (grants : operation = .acquire ∨ operation = .takeover)
      (generation : lease.generation = (previous.map (·.generation + 1)).getD 1)
      (token : lease.fencingToken = uuid) (active : lease.status = .active) :
      Change uuid previous operation lease
  | kept {operation : LeaseOperation} {lease : Lease} (old : Lease)
      (keeps : operation = .refresh ∨ operation = .release) (held : previous = some old)
      (active : old.status = .active) (generation : lease.generation = old.generation)
      (token : lease.fencingToken = old.fencingToken) (owner : lease.owner = old.owner) :
      Change uuid previous operation lease

def Performed (db : LeaseDb) (nameSpace key uuid : String) (operation : LeaseOperation)
    (lease : Lease) (mid : LeaseDb) : Prop :=
  Moved db operation lease mid ∧ lease.rowKey = (nameSpace, key) ∧
    Change uuid (db.readLease nameSpace key) operation lease

def requestRow (nameSpace key requestId : String) (operation : LeaseOperation) (digest : String)
    (lease : Lease) : LeaseRequest :=
  ⟨nameSpace, key, requestId, operation, digest, lease, lease.refreshedAtMs⟩

variable {mutation : LeaseDb → Except LeaseError (LeaseDb × Lease)} {digest : String}

theorem mutateLease_of_free (free : db.findRequest nameSpace key requestId = none)
    (run : db.mutateLease nameSpace key requestId operation digest mutation = .ok (db', lease)) :
    ∃ mid, mutation db = .ok (mid, lease) ∧ db' = { mid with
        requests := mid.requests ++ [requestRow nameSpace key requestId operation digest lease] } := by
  unfold mutateLease at run
  rw [free] at run
  obtain ⟨⟨mid, written⟩, mutated, last⟩ := bind_eq_ok.mp run
  cases last
  exact ⟨mid, mutated, rfl⟩

theorem mutateLease_of_found {stored : LeaseRequest} (found : db.findRequest nameSpace key requestId = some stored) :
    db.mutateLease nameSpace key requestId operation digest mutation =
      if stored.operation = operation ∧ stored.requestDigest = digest then .ok (db, stored.response)
      else .error (.conflict "request_id is already bound to different lease input") := by
  unfold mutateLease
  rw [found]
  by_cases same : stored.operation = operation ∧ stored.requestDigest = digest
  · simp [same]
  · rw [if_neg same]
    exact if_pos (by simpa [imp_iff_not_or] using same)

theorem validateSiteIdPublic_eq_ok {siteId site : String}
    (run : validateSiteIdPublic siteId = .ok site) : site = trim siteId ∧ '\x00' ∉ site.toList := by
  rw [validateSiteIdPublic, mapError_eq_ok, validateSiteId, ite_error_eq_ok, ite_error_eq_ok, ite_error_eq_ok] at run
  obtain ⟨_, _, clean, last⟩ := run
  cases last
  refine ⟨rfl, ?_⟩
  intro nul
  exact clean (.inr (.inr nul))

theorem isSome_of_held (held : db.readLease nameSpace key = some lease) {written : Lease}
    (same : written.rowKey = lease.rowKey) :
    (db.readLease written.nameSpace written.key).isSome := by
  have keys : written.rowKey = (nameSpace, key) := same.trans (readLease_rowKey held)
  obtain ⟨rfl, rfl⟩ := Prod.mk.inj keys
  rw [held]
  rfl

def guardedCheck (nameSpace key token requestId : String) : Except LeaseError Unit := do
  validateText nameSpace "namespace"
  validateText key "key"
  validateText token "fencing_token"
  validateText requestId "request_id"

def transactionNow (context : Context) : Int :=
  saturatingAdd context.nowMs (min context.waitedMs i64Max)

def mutationRow (nameSpace key requestId : String) (operation : GuardedOperation)
    (targetId digest : String) (object : Object) (generation : Nat) (context : Context) :
    GuardedMutation :=
  ⟨nameSpace, key, requestId, operation, targetId, digest, object, generation, context.actor, transactionNow context⟩

section Guarded
variable {sha256 : String → String} {operation : GuardedOperation} {targetId inputJson : String}
  {context : Context} {object : Object}
  {mutation : ObjectTables → Int → Except LeaseError (ObjectTables × Object)}

theorem guardedObjectMutation_of_free (free : db.findMutation nameSpace key requestId = none)
    (run : guardedObjectMutation sha256 db nameSpace key token requestId operation targetId
      inputJson context.actor context.nowMs context.waitedMs mutation = .ok (db', object)) :
    ∃ lease tables, db.activeWithToken nameSpace key token = .ok lease ∧ transactionNow context < lease.expiresAtMs ∧
      db' = { db with
        tables
        mutations := db.mutations ++ [mutationRow nameSpace key requestId operation targetId
          (guardedMutationDigest sha256 operation targetId token inputJson) object lease.generation
          context] } := by
  unfold guardedObjectMutation at run
  rw [check_eq_ok, check_eq_ok, check_eq_ok, check_eq_ok, free] at run
  obtain ⟨lease, held, run⟩ := bind_eq_ok.mp run.2.2.2.2
  obtain ⟨unexpired, run⟩ := ite_error_eq_ok.mp run
  obtain ⟨⟨tables, written⟩, _, run⟩ := bind_eq_ok.mp run
  obtain ⟨_, last⟩ := check_eq_ok.mp run
  cases last
  exact ⟨lease, tables, held, not_le.mp unexpired, rfl⟩

variable {f : LeaseDb × Object → LeaseDb × Response}

theorem guardedObjectMutation_checked :
    (guardedObjectMutation sha256 db nameSpace key token requestId operation targetId inputJson context.actor
        context.nowMs context.waitedMs mutation).map f =
      guardedCheck nameSpace key token requestId >>= fun _ =>
        (guardedObjectMutation sha256 db nameSpace key token requestId operation targetId inputJson
          context.actor context.nowMs context.waitedMs mutation).map f := by
  unfold guardedObjectMutation guardedCheck
  cases validateText nameSpace "namespace" with
  | error e => rfl
  | ok =>
    cases validateText key "key" with
    | error e => rfl
    | ok =>
      cases validateText token "fencing_token" with
      | error e => rfl
      | ok => cases validateText requestId "request_id" with | error e => rfl | ok => rfl

theorem ite_error_checked {reserved : Prop} [Decidable reserved] {error : LeaseError} {checks : Except LeaseError Unit}
    {result inner : Except LeaseError (LeaseDb × Object)}
    (checked : result.map f = checks >>= fun _ => inner.map f) :
    (if reserved then .error error else result).map f =
      (if reserved then .error error else checks) >>= fun _ => inner.map f := by
  split
  · rfl
  · exact checked

theorem guardedObjectMutation_of_found {stored : GuardedMutation}
    (found : db.findMutation nameSpace key requestId = some stored) :
    guardedObjectMutation sha256 db nameSpace key token requestId operation targetId inputJson
        context.actor context.nowMs context.waitedMs mutation =
      guardedCheck nameSpace key token requestId >>= fun _ =>
        if stored.operation = operation ∧ stored.targetId = targetId ∧
            stored.requestDigest = guardedMutationDigest sha256 operation targetId token inputJson then
          .ok (db, stored.response)
        else
          .error (.conflict "request_id is already bound to different guarded mutation input") := by
  unfold guardedObjectMutation guardedCheck
  rw [found]
  by_cases same : stored.operation = operation ∧ stored.targetId = targetId ∧
      stored.requestDigest = guardedMutationDigest sha256 operation targetId token inputJson
  · simp [same]
  · have refused : stored.operation ≠ operation ∨ stored.targetId ≠ targetId ∨
        stored.requestDigest ≠ guardedMutationDigest sha256 operation targetId token inputJson := by
      by_contra all
      push Not at all
      exact same all
    simp only [if_neg same, if_pos refused, bind_assoc]

end Guarded

inductive Binding where
  | lease (operation : LeaseOperation) (digest : String)
  | guarded (operation : GuardedOperation) (targetId digest : String)
  deriving DecidableEq

def Request.binding (sha256 : String → String) : Request → Binding
  | acquire owner ttlMs siteId =>
    .lease .acquire (owner ++ "\x00" ++ toString ttlMs ++ "\x00" ++ trim siteId)
  | refresh token ttlMs siteId =>
    .lease .refresh (token ++ "\x00" ++ toString ttlMs ++ "\x00" ++ trim siteId)
  | release token siteId => .lease .release (token ++ "\x00" ++ trim siteId)
  | takeover owner expectedToken expectedExpiresAtMs ttlMs siteId =>
    .lease .takeover (owner ++ "\x00" ++ expectedToken ++ "\x00" ++ toString expectedExpiresAtMs ++
      "\x00" ++ toString ttlMs ++ "\x00" ++ trim siteId)
  | create token object =>
    .guarded .create object.id (guardedMutationDigest sha256 .create object.id token (canonicalObjectInput object))
  | update token object requestObject =>
    .guarded .update object.id
      (guardedMutationDigest sha256 .update object.id token (canonicalObjectInput requestObject))
  | delete token objectId =>
    .guarded .delete objectId (guardedMutationDigest sha256 .delete objectId token (Json.string objectId))

def Request.guardToken : Request → Option String
  | acquire .. | refresh .. | release .. | takeover .. => none
  | create token _ | update token _ _ | delete token _ => some token

def Call.check (call : Call) : Except LeaseError Unit :=
  match call.request with
  | .acquire owner ttlMs siteId => do
    validate call.nameSpace call.key owner ttlMs call.requestId
    let _ ← validateSiteIdPublic siteId
    .ok ()
  | .refresh token ttlMs siteId => do
    validate call.nameSpace call.key token ttlMs call.requestId
    let _ ← validateSiteIdPublic siteId
    .ok ()
  | .release token siteId => do
    guardedCheck call.nameSpace call.key token call.requestId
    let _ ← validateSiteIdPublic siteId
    .ok ()
  | .takeover owner expectedToken _ ttlMs siteId => do
    validate call.nameSpace call.key owner ttlMs call.requestId
    validateText expectedToken "expected_fencing_token"
    let _ ← validateSiteIdPublic siteId
    .ok ()
  | .create token object =>
    if object.id.startsWith "namespace:" ∧ object.kind ≠ "namespace" then
      .error (.mutation "namespace:* object IDs are reserved for namespace boundaries")
    else if object.externalId.startsWith "namespace:" ∧ object.kind ≠ "namespace" then
      .error (.mutation "namespace:* external IDs are reserved for namespace boundaries")
    else guardedCheck call.nameSpace call.key token call.requestId
  | .update token object _ =>
    if object.externalId.startsWith "namespace:" ∧ object.kind ≠ "namespace" then
      .error (.mutation "namespace:* external IDs are reserved for namespace boundaries")
    else guardedCheck call.nameSpace call.key token call.requestId
  | .delete token _ => guardedCheck call.nameSpace call.key token call.requestId

def guardedResponse (operation : GuardedOperation) (object : Object) : Response :=
  match operation with
  | .create | .update => .object object
  | .delete => .deleted

def LeaseDb.stored (db : LeaseDb) (call : Call) : Option (Binding × Response) :=
  match call.request.guardToken with
  | none =>
    (db.findRequest call.nameSpace call.key call.requestId).map fun row =>
      (.lease row.operation row.requestDigest, .lease row.response)
  | some _ =>
    (db.findMutation call.nameSpace call.key call.requestId).map fun row =>
      (.guarded row.operation row.targetId row.requestDigest, guardedResponse row.operation row.response)

def Call.conflictMessage (call : Call) : String :=
  match call.request.guardToken with
  | none => "request_id is already bound to different lease input"
  | some _ => "request_id is already bound to different guarded mutation input"

inductive Served (sha256 : String → String) (db : LeaseDb) (call : Call) (context : Context) :
    LeaseDb → Response → Prop
  | leased {operation : LeaseOperation} {digest : String} {lease : Lease} {mid : LeaseDb}
      (unguarded : call.request.guardToken = none)
      (bound : call.request.binding sha256 = .lease operation digest)
      (performed : Performed db call.nameSpace call.key context.uuid operation lease mid) :
      Served sha256 db call context
        { mid with requests := mid.requests ++
          [requestRow call.nameSpace call.key call.requestId operation digest lease] }
        (.lease lease)
  | committed {operation : GuardedOperation} {targetId digest token : String} {lease : Lease}
      {tables : ObjectTables} {object : Object} (guarded : call.request.guardToken = some token)
      (bound : call.request.binding sha256 = .guarded operation targetId digest)
      (held : db.activeWithToken call.nameSpace call.key token = .ok lease)
      (unexpired : transactionNow context < lease.expiresAtMs) :
      Served sha256 db call context
        { db with
          tables
          mutations := db.mutations ++ [mutationRow call.nameSpace call.key call.requestId operation
            targetId digest object lease.generation context] }
        (guardedResponse operation object)

section Serving
variable {sha256 : String → String} {call : Call} {context : Context} {response : Response}

theorem leaseResponse_checked (checks : Except LeaseError Unit) (siteId : String) (operation : LeaseOperation)
    (digest : String → String) (mutation : String → LeaseDb → Except LeaseError (LeaseDb × Lease)) :
    leaseResponse (checks >>= fun _ => validateSiteIdPublic siteId >>= fun site =>
        db.mutateLease nameSpace key requestId operation (digest site) (mutation site)) =
      (checks >>= fun _ => validateSiteIdPublic siteId >>= fun _ => .ok ()) >>= fun _ =>
        leaseResponse (db.mutateLease nameSpace key requestId operation (digest (trim siteId))
          (mutation (trim siteId))) := by
  cases checks with
  | error e => rfl
  | ok =>
    cases valid : validateSiteIdPublic siteId with
    | error e => rfl
    | ok site =>
      obtain ⟨rfl, _⟩ := validateSiteIdPublic_eq_ok valid
      rfl

theorem serve_leased (unguarded : call.request.guardToken = none) :
    ∃ operation digest mutation, call.request.binding sha256 = .lease operation digest ∧
      (∀ mid lease, mutation db = .ok (mid, lease) →
        Performed db call.nameSpace call.key context.uuid operation lease mid) ∧
      db.serve sha256 call context = call.check >>= fun _ =>
        leaseResponse (db.mutateLease call.nameSpace call.key call.requestId operation digest mutation) := by
  obtain ⟨nameSpace, key, requestId, request⟩ := call
  cases request with
  | acquire owner ttlMs siteId =>
    refine ⟨.acquire, _, _, rfl, ?_, leaseResponse_checked (validate nameSpace key owner ttlMs requestId) siteId _
      (fun site => owner ++ "\x00" ++ toString ttlMs ++ "\x00" ++ site) _⟩
    intro mid lease mutated
    rw [ite_error_eq_ok] at mutated
    obtain ⟨written, write, mutated⟩ := bind_eq_ok.mp mutated.2
    obtain ⟨audited, audit, last⟩ := bind_eq_ok.mp mutated
    cases last
    refine ⟨?_, rfl, .granted (.inl rfl) rfl rfl rfl⟩
    cases held : db.readLease nameSpace key with
    | none =>
      simp only [held, Option.isSome_none, Bool.false_eq_true, if_false] at write audit
      simp only [Option.map_none]
      exact moved_of_insert write audit
    | some previous =>
      simp only [held] at write audit
      refine moved_of_update ?_ write audit
      show (db.readLease nameSpace key).isSome
      rw [held]
      rfl
  | refresh token ttlMs siteId =>
    refine ⟨.refresh, _, _, rfl, ?_, leaseResponse_checked (validate nameSpace key token ttlMs requestId) siteId _
      (fun site => token ++ "\x00" ++ toString ttlMs ++ "\x00" ++ site) _⟩
    intro mid lease mutated
    obtain ⟨previous, current, mutated⟩ := bind_eq_ok.mp mutated
    rw [check_eq_ok, ite_error_eq_ok] at mutated
    obtain ⟨expiry, _, mutated⟩ := bind_eq_ok.mp mutated.2.2
    obtain ⟨written, write, mutated⟩ := bind_eq_ok.mp mutated
    obtain ⟨audited, audit, last⟩ := bind_eq_ok.mp mutated
    cases last
    obtain ⟨held, active, _⟩ := activeWithToken_eq_ok.mp current
    have keys := readLease_rowKey held
    exact ⟨moved_of_update (isSome_of_held held rfl) write audit, keys,
      .kept previous (.inl rfl) held active rfl rfl rfl⟩
  | release token siteId =>
    have checked := @leaseResponse_checked db nameSpace key requestId (guardedCheck nameSpace key token requestId)
        siteId
      .release (fun site => token ++ "\x00" ++ site)
    simp only [guardedCheck, bind_assoc] at checked
    simp only [Call.check, guardedCheck, bind_assoc]
    refine ⟨.release, _, _, rfl, ?_, checked _⟩
    intro mid lease mutated
    obtain ⟨previous, current, mutated⟩ := bind_eq_ok.mp mutated
    rw [check_eq_ok] at mutated
    obtain ⟨written, write, mutated⟩ := bind_eq_ok.mp mutated.2
    obtain ⟨audited, audit, last⟩ := bind_eq_ok.mp mutated
    cases last
    obtain ⟨held, active, _⟩ := activeWithToken_eq_ok.mp current
    have keys := readLease_rowKey held
    exact ⟨moved_of_update (isSome_of_held held rfl) write audit, keys,
      .kept previous (.inr rfl) held active rfl rfl rfl⟩
  | takeover owner expectedToken expectedExpiresAtMs ttlMs siteId =>
    have checked := @leaseResponse_checked db nameSpace key requestId
      (validate nameSpace key owner ttlMs requestId >>= fun _ => validateText expectedToken "expected_fencing_token")
      siteId .takeover (fun site => owner ++ "\x00" ++ expectedToken ++ "\x00" ++ toString expectedExpiresAtMs ++
        "\x00" ++ toString ttlMs ++ "\x00" ++ site)
    simp only [bind_assoc] at checked
    simp only [Call.check, bind_assoc]
    refine ⟨.takeover, _, _, rfl, ?_, checked _⟩
    intro mid lease mutated
    obtain ⟨previous, current, mutated⟩ := bind_eq_ok.mp mutated
    rw [check_eq_ok, ite_error_eq_ok, ite_error_eq_ok] at mutated
    obtain ⟨written, write, mutated⟩ := bind_eq_ok.mp mutated.2.2.2
    obtain ⟨audited, audit, last⟩ := bind_eq_ok.mp mutated
    cases last
    obtain ⟨held, _, _⟩ := activeWithToken_eq_ok.mp current
    have keys := readLease_rowKey held
    refine ⟨moved_of_update (isSome_of_held held keys.symm) write audit, rfl, .granted (.inr rfl) ?_ rfl rfl⟩
    rw [held]
    rfl
  | _ => cases unguarded

theorem serve_guarded (guarded : call.request.guardToken = some token) :
    ∃ operation targetId inputJson mutation, call.request.binding sha256 =
        .guarded operation targetId (guardedMutationDigest sha256 operation targetId token inputJson) ∧
      (call.check = .ok () → guardedCheck call.nameSpace call.key token call.requestId = .ok ()) ∧
      db.serve sha256 call context = call.check >>= fun _ =>
        (guardedObjectMutation sha256 db call.nameSpace call.key token call.requestId operation targetId
          inputJson context.actor context.nowMs context.waitedMs mutation).map
          fun done => (done.1, guardedResponse operation done.2) := by
  obtain ⟨nameSpace, key, requestId, request⟩ := call
  cases request with
  | create token object =>
    cases guarded
    exact ⟨.create, _, _, _, rfl, fun passes => (ite_error_eq_ok.mp (ite_error_eq_ok.mp passes).2).2,
      ite_error_checked (ite_error_checked guardedObjectMutation_checked)⟩
  | update token object requestObject =>
    cases guarded
    exact ⟨.update, _, _, _, rfl, fun passes => (ite_error_eq_ok.mp passes).2,
      ite_error_checked guardedObjectMutation_checked⟩
  | delete token objectId =>
    cases guarded
    exact ⟨.delete, _, _, _, rfl, id, guardedObjectMutation_checked⟩
  | _ => cases guarded

theorem serve_of_free (free : db.stored call = none) (run : db.serve sha256 call context = .ok (db', response)) :
    Served sha256 db call context db' response := by
  unfold stored at free
  cases guard : call.request.guardToken with
  | none =>
    simp only [guard, Option.map_eq_none_iff] at free
    obtain ⟨operation, digest, mutation, bound, performs, serves⟩ := serve_leased guard
    rw [serves, check_eq_ok] at run
    obtain ⟨⟨after, lease⟩, mutated, same⟩ := map_eq_ok.mp run.2
    cases same
    obtain ⟨mid, performed, rfl⟩ := mutateLease_of_free free mutated
    exact .leased guard bound (performs mid lease performed)
  | some token =>
    simp only [guard, Option.map_eq_none_iff] at free
    obtain ⟨operation, targetId, inputJson, mutation, bound, _, serves⟩ := serve_guarded guard
    rw [serves, check_eq_ok] at run
    obtain ⟨⟨after, object⟩, mutated, same⟩ := map_eq_ok.mp run.2
    cases same
    obtain ⟨lease, tables, held, unexpired, rfl⟩ := guardedObjectMutation_of_free free mutated
    exact .committed guard bound held unexpired

theorem serve_of_stored {binding : Binding} (found : db.stored call = some (binding, response)) :
    db.serve sha256 call context = call.check >>= fun _ =>
      if binding = call.request.binding sha256 then .ok (db, response)
      else .error (.conflict call.conflictMessage) := by
  unfold stored at found
  unfold Call.conflictMessage
  cases guard : call.request.guardToken with
  | none =>
    simp only [guard] at found
    obtain ⟨row, stored, same⟩ := Option.map_eq_some_iff.mp found
    cases same
    obtain ⟨operation, digest, mutation, bound, _, serves⟩ := serve_leased guard
    rw [serves, mutateLease_of_found stored, bound]
    simp only [Binding.lease.injEq]
    split <;> rfl
  | some token =>
    simp only [guard] at found
    obtain ⟨row, stored, same⟩ := Option.map_eq_some_iff.mp found
    cases same
    obtain ⟨operation, targetId, inputJson, mutation, bound, checks, serves⟩ := serve_guarded guard
    rw [serves]
    cases passes : call.check with
    | error e => rfl
    | ok =>
      rw [guardedObjectMutation_of_found stored, checks passes, bound]
      simp only [Binding.guarded.injEq]
      show Except.map _ (ite _ _ _) = ite _ _ _
      split
      · rename_i same
        rw [← same.1]
        rfl
      · rfl

theorem check_of_serve (run : db.serve sha256 call context = .ok (db', response)) : call.check = .ok () := by
  cases guard : call.request.guardToken with
  | none =>
    obtain ⟨_, _, _, _, _, serves⟩ := serve_leased guard
    rw [serves, check_eq_ok] at run
    exact run.1
  | some token =>
    obtain ⟨_, _, _, _, _, _, serves⟩ := serve_guarded guard
    rw [serves, check_eq_ok] at run
    exact run.1

end Serving

end SekaiChisei.Leases
