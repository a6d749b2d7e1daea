import SekaiChisei.Lib.Sql
import SekaiChisei.ObjectSecurity.Policy

/-!
The policy tables of `db/object_security.rs` with their writes, and the read filters of `db/sekai.rs` and
`db/postgres_objects.rs`. SHA-256 is the parameter `sha256`.
-/

namespace SekaiChisei.ObjectSecurity
open Lib

structure Revision where
  (nameSpace kind revisionDigest : String)
  /-- The policy that the stored JSON was written from. -/
  policy : ObjectSecurityPolicy
  createdBy : String
  createdAtMs : Int

structure RuleRow where
  (nameSpace revisionDigest : String)
  ruleIndex : Nat
  operation : String

structure PredicateRow where
  (nameSpace revisionDigest : String)
  (ruleIndex predicateIndex : Nat)
  (predicateKind propertyKey fixedValue : String)

/-- A `BTreeMap<String, String>` from kinds to revision digests. -/
structure KindMap where
  entries : List (String × String)
  sorted : entries.Pairwise fun a b => a.1 < b.1

structure Activation where
  (nameSpace activationId : String)
  policies : KindMap
  activatedBy : String
  activatedAtMs : Int

structure ActivationRow where
  (nameSpace activationId activatedBy : String)
  activatedAtMs : Int

structure ActivePolicyRow where
  (nameSpace kind revisionDigest : String)

inductive StoredResult where
  | put (revision : Revision)
  | activate (activation : Activation)

def StoredResult.put? : StoredResult → Option Revision
  | put revision => some revision
  | activate _ => none

def StoredResult.activate? : StoredResult → Option Activation
  | put _ => none
  | activate activation => some activation

structure Request where
  (nameSpace actor idempotencyKey requestDigest : String)
  result : StoredResult

structure Store where
  objects : List Object
  revisions : List Revision
  rules : List RuleRow
  predicates : List PredicateRow
  activations : List ActivationRow
  activePolicies : List ActivePolicyRow
  requests : List Request

def Store.empty : Store := ⟨[], [], [], [], [], [], []⟩

def predicateColumns : ObjectSecurityPredicate → String × String × String
  | .allowAll => ("allow_all", "", "")
  | .subjectEqualsProperty property => ("subject_equals_property", property, "")
  | .requiredScopeEquals value => ("required_scope_equals", "", value)
  | .propertyEquals property value => ("property_equals", property, value)

namespace Revision

variable (revision : Revision)

def ruleRow (rule : ObjectSecurityRule × Nat) : RuleRow :=
  ⟨revision.nameSpace, revision.revisionDigest, rule.2, rule.1.operation.asStr⟩

def predicateRow (ruleIndex : Nat) (predicate : ObjectSecurityPredicate × Nat) : PredicateRow :=
  let (kind, property, value) := predicateColumns predicate.1
  ⟨revision.nameSpace, revision.revisionDigest, ruleIndex, predicate.2, kind, property, value⟩

def ruleRows (policy : ObjectSecurityPolicy) : List RuleRow :=
  policy.rules.zipIdx.map revision.ruleRow

def predicateRows (policy : ObjectSecurityPolicy) : List PredicateRow :=
  policy.rules.zipIdx.flatMap fun rule =>
    rule.1.predicates.zipIdx.map (revision.predicateRow rule.2)

end Revision

def validateWrite (actor key : String) (nowMs : Int) : Except String Unit :=
  if trim actor = "" ∨ trim key = "" ∨ key.utf8ByteSize > 256 ∨ nowMs ≤ 0 ∨
      '\x00' ∈ actor.toList ∨ '\x00' ∈ key.toList then
    .error "invalid object-security write context"
  else .ok ()

def mappingDigest (sha256 : String → String) (nameSpace : String) (policies : KindMap) : String :=
  sha256 ("sekai.object-security-activation/v1\x00" ++ nameSpace ++ "\x00" ++
    Json.object (policies.entries.map fun entry => (entry.1, Json.string entry.2)))

def activationCoversKinds (instantiated : List String) (policies : KindMap) : Bool :=
  (instantiated.all fun kind => kind = "catalog_entry" ∨ kind ∈ policies.entries.map Prod.fst) &&
    policies.entries.all fun entry => entry.1 = "catalog_entry" ∨ entry.1 ∈ instantiated

namespace Store

variable (store : Store)

def loadRevision (nameSpace digest : String) : Option Revision :=
  store.revisions.find? fun revision =>
    revision.nameSpace = nameSpace ∧ revision.revisionDigest = digest

/-- `replay` among the requests of one operation, whose results `select` reads. -/
def replay {α : Type} (select : StoredResult → Option α)
    (nameSpace actor key requestDigest : String) : Except String (Option α) :=
  match store.requests.findSome? fun request =>
      if request.nameSpace = nameSpace ∧ request.actor = actor ∧ request.idempotencyKey = key then
        (select request.result).map fun result => (request.requestDigest, result)
      else none with
  | some (stored, result) =>
    if stored = requestDigest then .ok (some result)
    else .error "object_security_idempotency_conflict: key reused for different input"
  | none => .ok none

def persistRequest (request : Request) : Store :=
  { store with requests := store.requests ++ [request] }

def insertRevision (revision : Revision) (policy : ObjectSecurityPolicy) : Store :=
  { store with
    revisions := store.revisions ++ [revision]
    rules := store.rules ++ revision.ruleRows policy
    predicates := store.predicates ++ revision.predicateRows policy }

def storePolicy (policy canonical : ObjectSecurityPolicy) (digest actor key : String)
    (nowMs : Int) : Except String (Store × Revision) :=
  match store.loadRevision policy.nameSpace digest with
  | some existing =>
    if existing.policy.toJson ≠ canonical.toJson then
      .error "object_security_conflict: revision digest collision"
    else .ok (store.persistRequest ⟨policy.nameSpace, actor, key, digest, .put existing⟩, existing)
  | none =>
    let revision : Revision := ⟨policy.nameSpace, policy.kind, digest, canonical, actor, nowMs⟩
    .ok ((store.insertRevision revision policy).persistRequest
      ⟨policy.nameSpace, actor, key, digest, .put revision⟩, revision)

def putObjectSecurityPolicy (sha256 : String → String) (store : Store)
    (policy : ObjectSecurityPolicy) (actor key : String) (nowMs : Int) :
    Except String (Store × Revision) := do
  validateWrite actor key nowMs
  let policy ← policy.prepare
  let canonical ← policy.canonicalPolicy
  let digest ← policy.revisionDigest sha256
  match ← store.replay StoredResult.put? policy.nameSpace actor key digest with
  | some revision => .ok (store, revision)
  | none => store.storePolicy policy canonical digest actor key nowMs

def instantiated (nameSpace : String) : List String :=
  (store.objects.filter (·.nameSpace = nameSpace)).map (·.kind)

def checkEntry (nameSpace : String) (entry : String × String) : Except String Unit :=
  match store.loadRevision nameSpace entry.2 with
  | none => .error "object_security_policy_not_found: activation revision unavailable"
  | some revision =>
    if revision.kind ≠ entry.1 ∨ ¬ revision.policy.fromCanonicalInput.isOk then
      .error "object_security_policy_invalid: activation revision is invalid"
    else .ok ()

def install (activation : Activation) : Store :=
  { store with
    activations := store.activations.filter (·.nameSpace ≠ activation.nameSpace) ++
      [⟨activation.nameSpace, activation.activationId, activation.activatedBy, activation.activatedAtMs⟩]
    activePolicies := store.activePolicies.filter (·.nameSpace ≠ activation.nameSpace) ++
      activation.policies.entries.map fun entry => ⟨activation.nameSpace, entry.1, entry.2⟩ }

def storeActivation (nameSpace : String) (policies : KindMap)
    (digest actor key : String) (nowMs : Int) : Except String (Store × Activation) :=
  if ¬ activationCoversKinds (store.instantiated nameSpace) policies then
    .error ("object_security_activation_incomplete: every instantiated kind requires exactly one " ++ "revision")
  else do
    policies.entries.forM (store.checkEntry nameSpace)
    let activation : Activation := ⟨nameSpace, digest, policies, actor, nowMs⟩
    return ((store.install activation).persistRequest
      ⟨nameSpace, actor, key, digest, .activate activation⟩, activation)

def activateObjectSecurityPolicies (sha256 : String → String) (store : Store) (nameSpace : String)
    (policies : KindMap) (actor key : String) (nowMs : Int) :
    Except String (Store × Activation) := do
  validateWrite actor key nowMs
  if nameSpace = "" ∨ policies.entries = [] then
    .error "object_security_activation_incomplete: namespace and policies required"
  else
    let digest := mappingDigest sha256 nameSpace policies
    match ← store.replay StoredResult.activate? nameSpace actor key digest with
    | some activation => .ok (store, activation)
    | none => store.storeActivation nameSpace policies digest actor key nowMs

def loadActivePolicy (nameSpace kind : String) : Except String (Option ObjectSecurityPolicy) :=
  match store.activePolicies.find? fun active => active.nameSpace = nameSpace ∧ active.kind = kind with
  | none => .ok none
  | some active =>
    match store.loadRevision nameSpace active.revisionDigest with
    | none => .ok none
    | some revision => revision.policy.fromCanonicalInput.map some

def activated (nameSpace : String) : Prop :=
  ∃ activation ∈ store.activations, activation.nameSpace = nameSpace

/-- The decision in memory: namespaces without an activation are open, in the others the active
policy of the kind decides. -/
def decision (context : PrincipalPolicyContext) (object : Object) : Prop :=
  ¬ store.activated object.nameSpace ∨
    ∃ policy, store.loadActivePolicy object.nameSpace object.kind = .ok (some policy) ∧
      policy.allows context object .read

end Store

section Filters
open Sql (Truth)

/-- `json_extract(properties, path)`, for the paths of one plain label. -/
def jsonExtract (properties : String → Option String) (path : String) : Option String :=
  match path.toList with
  | '$' :: '.' :: label =>
    if label.any fun c => c == '.' || c == '[' || c == '"' then none
    else properties (String.ofList label)
  | _ => none

/-- The `CASE` of the SQLite filter: true when the predicate does not hold. -/
def sqliteBlocks (object : Object) (subjects scopes : List String) (predicate : PredicateRow) : Truth :=
  let property := jsonExtract object.properties ("$." ++ predicate.propertyKey)
  if predicate.predicateKind = "allow_all" then some false
  else if predicate.predicateKind = "subject_equals_property" then
    Sql.not (Sql.exist subjects fun subject => Sql.eq (some subject) property)
  else if predicate.predicateKind = "required_scope_equals" then
    Sql.not (Sql.exist scopes fun scope => Sql.eq (some scope) (some predicate.fixedValue))
  else if predicate.predicateKind = "property_equals" then
    Sql.ne (Sql.coalesce property "") (some predicate.fixedValue)
  else some true

/-- The `CASE` of the PostgreSQL filter. A stored object's properties are a JSON object, so its
first branch is never taken. -/
def postgresBlocks (object : Object) (subjects scopes : List String) (predicate : PredicateRow) : Truth :=
  let property := Sql.coalesce (object.properties predicate.propertyKey) ""
  if predicate.predicateKind = "allow_all" then some false
  else if predicate.predicateKind = "subject_equals_property" then
    Sql.not (Sql.anyOf property subjects)
  else if predicate.predicateKind = "required_scope_equals" then
    Sql.not (Sql.anyOf (some predicate.fixedValue) scopes)
  else if predicate.predicateKind = "property_equals" then
    Sql.ne property (some predicate.fixedValue)
  else some true

/-- The inner `NOT EXISTS`: no predicate of the rule blocks. -/
def noneBlocks (blocks : PredicateRow → Truth) (store : Store) (rule : RuleRow) : Truth :=
  Sql.not <| Sql.exist store.predicates fun predicate =>
    Sql.all [Sql.eq (some predicate.nameSpace) (some rule.nameSpace),
      Sql.eq (some predicate.revisionDigest) (some rule.revisionDigest),
      Sql.eq (some predicate.ruleIndex) (some rule.ruleIndex), blocks predicate]

def groupAdmitted (blocks : PredicateRow → Truth) (store : Store) (object : Object) : Truth :=
  Sql.exist (store.activePolicies.product store.rules) fun (active, rule) =>
    Sql.all [Sql.eq (some rule.nameSpace) (some active.nameSpace),
      Sql.eq (some rule.revisionDigest) (some active.revisionDigest),
      Sql.eq (some active.nameSpace) (some object.nameSpace),
      Sql.eq (some active.kind) (some object.kind),
      Sql.eq (some rule.operation) (some "read"), noneBlocks blocks store rule]

/-- The condition both filters add to a query, up to their `CASE`. -/
def objectSecurityFilter (blocks : Object → List String → List String → PredicateRow → Truth)
    (store : Store) (context : PrincipalPolicyContext) (object : Object) : Truth :=
  let context := context.normalized
  Sql.or (Sql.not <| Sql.exist store.activations fun activation =>
      Sql.eq (some activation.nameSpace) (some object.nameSpace))
    (Sql.not <| Sql.exist context.sqlSubjects.zipIdx fun (group, index) =>
      Sql.not (groupAdmitted (blocks object group ((context.sqlScopes[index]?).getD [])) store object))

def sqliteObjectSecurityFilter : Store → PrincipalPolicyContext → Object → Truth :=
  objectSecurityFilter sqliteBlocks

def postgresObjectSecurityFilter : Store → PrincipalPolicyContext → Object → Truth :=
  objectSecurityFilter postgresBlocks

end Filters

inductive Step (sha256 : String → String) : Store → Store → Prop
  | put {store store' : Store} {policy : ObjectSecurityPolicy} {actor key : String} {nowMs : Int}
      {revision : Revision}
      (run : store.putObjectSecurityPolicy sha256 policy actor key nowMs = .ok (store', revision)) :
      Step sha256 store store'
  | activate {store store' : Store} {nameSpace : String} {policies : KindMap} {actor key : String}
      {nowMs : Int} {activation : Activation}
      (run : store.activateObjectSecurityPolicies sha256 nameSpace policies actor key nowMs =
        .ok (store', activation)) : Step sha256 store store'
  | objects {store : Store} (objects : List Object) : Step sha256 store { store with objects := objects }

def Reachable (sha256 : String → String) (store : Store) : Prop :=
  Relation.ReflTransGen (Step sha256) Store.empty store

end SekaiChisei.ObjectSecurity
