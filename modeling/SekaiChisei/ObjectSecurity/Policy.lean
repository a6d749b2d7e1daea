import SekaiChisei.Lib.Fallible
import SekaiChisei.Lib.Json

/-! Object-instance authorization policies of `object_security.rs`: their canonical form and the
decision in memory. -/

namespace SekaiChisei.ObjectSecurity
open Lib Json

def objectSecurityPolicyVersion : String := "sekai.object-security-policy/v1"
def maxPolicyBytes : Nat := 64 * 1024
def maxRules : Nat := 64
def maxPredicates : Nat := 16
def maxPropertyGrants : Nat := 128
def maxValueInstanceGrants : Nat := 128
def maxValueBytes : Nat := 1024

inductive ObjectSecurityOperation where
  | read | query | traverse | create | update | delete | action | export | sync
  deriving DecidableEq

def ObjectSecurityOperation.asStr : ObjectSecurityOperation → String
  | read => "read"
  | query => "query"
  | traverse => "traverse"
  | create => "create"
  | update => "update"
  | delete => "delete"
  | action => "action"
  | .export => "export"
  | sync => "sync"

inductive ObjectSecurityPredicate where
  | allowAll
  | subjectEqualsProperty (property : String)
  | requiredScopeEquals (value : String)
  | propertyEquals (property value : String)
  deriving DecidableEq

structure ObjectSecurityRule where
  operation : ObjectSecurityOperation
  predicates : List ObjectSecurityPredicate
  deriving DecidableEq

inductive PropertyGrantAccess where
  | read | write
  deriving DecidableEq

def PropertyGrantAccess.asStr : PropertyGrantAccess → String
  | read => "read"
  | write => "write"

structure PropertyGrant where
  property : String
  access : PropertyGrantAccess
  deriving DecidableEq

structure ValueInstanceGrant where
  (objectId property valueDigest : String)
  access : PropertyGrantAccess
  deriving DecidableEq

structure ObjectSecurityPolicy where
  (contractVersion nameSpace kind : String)
  rules : List ObjectSecurityRule
  propertyGrants : Option (List PropertyGrant)
  valueInstanceGrants : Option (List ValueInstanceGrant)
  requiredPurpose : Option String

/-- The object as the policies see it: its properties are a `HashMap<String, String>`, by its
lookups. -/
structure Object where
  (nameSpace kind : String)
  properties : String → Option String

structure PrincipalPolicyContext where
  (subjects scopes : List String)
  delegatedSubject : Option String

/-- `sort` and `dedup` of strings. -/
def sortDedup (values : List String) : List String := dedup (sortByKey id values)

namespace PrincipalPolicyContext

variable (context : PrincipalPolicyContext)

def normalized : PrincipalPolicyContext where
  subjects := sortDedup ((context.subjects.map trim).filter fun value =>
    value ≠ "" ∧ value ≠ "anonymous")
  scopes := sortDedup ((context.scopes.map trim).filter (· ≠ ""))
  delegatedSubject := context.delegatedSubject.map trim

/-- The groups of `sql_subjects`, which writes them as JSON. -/
def sqlSubjects : List (List String) :=
  [context.subjects] ++ context.delegatedSubject.toList.map fun actor => [actor]

/-- The groups of `sql_scopes`. -/
def sqlScopes : List (List String) :=
  [context.scopes] ++ context.delegatedSubject.toList.map fun _ => []

end PrincipalPolicyContext

def identityChar (c : Char) : Bool := c.isAlphanum || "_-.:/".toList.contains c

def validateIdentity (label value : String) : Except String Unit :=
  if value = "" ∨ value.utf8ByteSize > 256 ∨ ¬ value.toList.all identityChar then
    .error s!"invalid object-security policy {label}"
  else .ok ()

def isValidPropertyKey (key : String) : Bool :=
  key ≠ "" && key.toList.all fun c => c.isAlphanum || c == '_'

def validateProperty (property : String) : Except String Unit :=
  if isValidPropertyKey property then .ok () else .error "invalid object-security property key"

def validateValue (label value : String) : Except String Unit :=
  if value = "" ∨ value.utf8ByteSize > maxValueBytes then
    .error s!"{label} must contain 1..={maxValueBytes} bytes"
  else if '\x00' ∈ value.toList then .error s!"{label} must not contain NUL"
  else .ok ()

def validateHexDigest (field value : String) : Except String Unit :=
  if value.utf8ByteSize ≠ 64 ∨ ¬ value.toList.all fun c =>
      c.isDigit || ('a' ≤ c && c ≤ 'f') || ('A' ≤ c && c ≤ 'F') then
    .error s!"{field} must be a 64-character hexadecimal digest"
  else .ok ()

namespace ObjectSecurityPredicate

def validate : ObjectSecurityPredicate → Except String Unit
  | allowAll => .ok ()
  | subjectEqualsProperty property => validateProperty property
  | requiredScopeEquals value => validateValue "scope" value
  | propertyEquals property value => do
    validateProperty property
    validateValue "property value" value

/-- `predicate_key`: the JSON text. -/
def key : ObjectSecurityPredicate → String
  | allowAll => object [("kind", string "allow_all")]
  | subjectEqualsProperty property =>
    object [("kind", string "subject_equals_property"), ("property", string property)]
  | requiredScopeEquals value =>
    object [("kind", string "required_scope_equals"), ("value", string value)]
  | propertyEquals property value =>
    object [("kind", string "property_equals"), ("property", string property),
      ("value", string value)]

def matchesObject (context : PrincipalPolicyContext) (object : Object) : ObjectSecurityPredicate → Bool
  | allowAll => true
  | subjectEqualsProperty property =>
    (object.properties property).any fun value => context.subjects.any (· = value)
  | requiredScopeEquals value => context.scopes.any (· = value)
  | propertyEquals property value => (object.properties property).any (· = value)

end ObjectSecurityPredicate

namespace ObjectSecurityRule

/-- `rule_key`: the JSON text. -/
def key (rule : ObjectSecurityRule) : String :=
  object [("operation", string rule.operation.asStr),
    ("predicates", array (rule.predicates.map ObjectSecurityPredicate.key))]

/-- One round of the rule loop of `prepare`. -/
def prepare (rule : ObjectSecurityRule) : Except String ObjectSecurityRule :=
  if rule.predicates = [] ∨ rule.predicates.length > maxPredicates then
    .error s!"rule must contain 1..={maxPredicates} predicates"
  else do
    rule.predicates.forM ObjectSecurityPredicate.validate
    if .allowAll ∈ rule.predicates ∧ rule.predicates.length ≠ 1 then
      .error "allow_all must be the rule's only predicate"
    else
      .ok { rule with predicates := dedup (sortByKey ObjectSecurityPredicate.key rule.predicates) }

end ObjectSecurityRule

def thenLe (left right : String) (next : Bool) : Bool := left < right || (left == right && next)

def PropertyGrant.le (left right : PropertyGrant) : Bool :=
  thenLe left.property right.property (left.access.asStr ≤ right.access.asStr)

def ValueInstanceGrant.le (left right : ValueInstanceGrant) : Bool :=
  thenLe left.objectId right.objectId <| thenLe left.property right.property <|
    thenLe left.valueDigest right.valueDigest (left.access.asStr ≤ right.access.asStr)

def prepareGrants {α : Type} [DecidableEq α] (bound : Nat) (label : String)
    (check : α → Except String Unit) (le : α → α → Bool) (grants : List α) :
    Except String (List α) :=
  if grants.length > bound then .error s!"policy must contain at most {bound} {label} grants"
  else do
    grants.forM check
    return dedup (grants.mergeSort le)

def preparePropertyGrants : List PropertyGrant → Except String (List PropertyGrant) :=
  prepareGrants maxPropertyGrants "property" (fun grant => validateProperty grant.property) PropertyGrant.le

def ValueInstanceGrant.validate (grant : ValueInstanceGrant) : Except String Unit := do
  validateIdentity "object_id" grant.objectId
  validateProperty grant.property
  validateHexDigest "value_digest" grant.valueDigest

def prepareValueInstanceGrants : List ValueInstanceGrant → Except String (List ValueInstanceGrant) :=
  prepareGrants maxValueInstanceGrants "value-instance" ValueInstanceGrant.validate ValueInstanceGrant.le

namespace ObjectSecurityPolicy

def prepare (policy : ObjectSecurityPolicy) : Except String ObjectSecurityPolicy :=
  if policy.contractVersion ≠ objectSecurityPolicyVersion then
    .error "unsupported object-security policy contract version"
  else do
    validateIdentity "namespace" policy.nameSpace
    validateIdentity "kind" policy.kind
    if policy.rules = [] ∨ policy.rules.length > maxRules then
      .error s!"policy must contain 1..={maxRules} rules"
    else
      let rules ← policy.rules.mapM ObjectSecurityRule.prepare
      let propertyGrants ← policy.propertyGrants.mapM preparePropertyGrants
      let valueInstanceGrants ← policy.valueInstanceGrants.mapM prepareValueInstanceGrants
      let _ ← policy.requiredPurpose.mapM (validateIdentity "required_purpose")
      return { policy with
        rules := dedup (sortByKey ObjectSecurityRule.key rules)
        propertyGrants := propertyGrants
        valueInstanceGrants := valueInstanceGrants }

variable (policy : ObjectSecurityPolicy)

def toJson : String :=
  object <| [("contract_version", string policy.contractVersion),
      ("namespace", string policy.nameSpace), ("kind", string policy.kind),
      ("rules", array (policy.rules.map ObjectSecurityRule.key))] ++
    (policy.propertyGrants.toList.map fun grants => ("property_grants", array (grants.map fun grant =>
      object [("property", string grant.property), ("access", string grant.access.asStr)]))) ++
    (policy.valueInstanceGrants.toList.map fun grants => ("value_instance_grants", array (grants.map fun grant =>
        object [("object_id", string grant.objectId), ("property", string grant.property),
          ("value_digest", string grant.valueDigest),
          ("access", string grant.access.asStr)]))) ++
    policy.requiredPurpose.toList.map fun purpose => ("required_purpose", string purpose)

/-- The policy whose JSON text `canonical_bytes` returns. -/
def canonicalPolicy : Except String ObjectSecurityPolicy :=
  policy.prepare

def revisionDigest (sha256 : String → String) (policy : ObjectSecurityPolicy) : Except String String := do
  let canonical ← policy.canonicalPolicy
  return sha256 ("sekai.object-security-policy/v1\x00" ++ canonical.toJson)

/-- `from_canonical_input` on the JSON text of a policy, which parses back to that policy. -/
def fromCanonicalInput : Except String ObjectSecurityPolicy :=
  if policy.toJson.utf8ByteSize > maxPolicyBytes then
    .error s!"policy JSON must contain 1..={maxPolicyBytes} bytes"
  else policy.prepare

def allowed (object : Object) (operation : ObjectSecurityOperation)
    (context : PrincipalPolicyContext) : Bool :=
  policy.rules.any fun rule =>
    rule.operation = operation && rule.predicates.all (·.matchesObject context object)

def allows (context : PrincipalPolicyContext) (object : Object)
    (operation : ObjectSecurityOperation) : Bool :=
  if policy.nameSpace ≠ object.nameSpace ∨ policy.kind ≠ object.kind then false
  else
    let context := context.normalized
    policy.allowed object operation context && context.delegatedSubject.all fun subject =>
        policy.allowed object operation ⟨[subject], [], none⟩

end ObjectSecurityPolicy

end SekaiChisei.ObjectSecurity
