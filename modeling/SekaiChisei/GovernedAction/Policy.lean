import SekaiChisei.Lib.Fallible
import SekaiChisei.Lib.Table
import SekaiChisei.Objects.Tables

/-!
Governed-action policies: `action_policy.rs` of `sekai-types`, with the flat texts in which a policy is stored,
and the store of `sekai/action_policy.rs` over the object tables.
-/

namespace SekaiChisei.GovernedAction
open Lib Objects List

inductive ActionDecision where
  | allow
  | deny
  | requireApproval
  deriving DecidableEq

def ActionDecision.asStr : ActionDecision → String
  | .allow => "allow"
  | .deny => "deny"
  | .requireApproval => "require_approval"

/-- `value.trim().to_ascii_lowercase()`. -/
def folded (value : String) : String := String.ofList ((trim value).toList.map Char.toLower)

def ActionDecision.parse (value : String) : Option ActionDecision :=
  if folded value = "allow" then some .allow
  else if folded value = "deny" then some .deny
  else if folded value ∈ ["require_approval", "require-approval", "approval"] then some .requireApproval
  else none

inductive RiskClass where
  | read
  | write
  | destructive
  deriving DecidableEq

def RiskClass.asStr : RiskClass → String
  | .read => "read"
  | .write => "write"
  | .destructive => "destructive"

def RiskClass.parse (value : String) : Option RiskClass :=
  if folded value = "read" then some .read
  else if folded value = "write" then some .write
  else if folded value = "destructive" then some .destructive
  else none

/-- A `HashMap` of decisions, by its entries in any order. -/
structure Overrides (Key : Type) where
  entries : List (Key × ActionDecision)
  distinct : (entries.map Prod.fst).Nodup

section
variable {Key : Type} [DecidableEq Key]

def Overrides.empty : Overrides Key := ⟨[], nodup_nil⟩

variable (overrides : Overrides Key)

def Overrides.get (key : Key) : Option ActionDecision :=
  (Table.find Prod.fst overrides.entries key).map Prod.snd

theorem Overrides.nodup_insert (entry : Key × ActionDecision) :
    ((overrides.entries.filter (fun old => old.1 ≠ entry.1) ++ [entry]).map Prod.fst).Nodup := by
  rw [map_append, nodup_append_comm]
  refine nodup_cons.mpr ⟨?_, (filter_sublist.map Prod.fst).nodup overrides.distinct⟩
  simp

def Overrides.insert (entry : Key × ActionDecision) : Overrides Key :=
  ⟨overrides.entries.filter (fun old => old.1 ≠ entry.1) ++ [entry], overrides.nodup_insert entry⟩

end

structure ActionPolicy where
  scope : String
  defaultDecision : ActionDecision
  actionOverrides : Overrides String
  riskOverrides : Overrides RiskClass
  (maxMutationsPerWorkUnit maxDeletesPerWorkUnit : Option UInt32)

def ActionPolicy.decide (policy : ActionPolicy) (action : String) (risk : RiskClass) : ActionDecision :=
  match policy.actionOverrides.get action with
  | some decision => decision
  | none =>
    match policy.riskOverrides.get risk with
    | some decision => decision
    | none => policy.defaultDecision

/-- `sort` and `join(",")` of the pairs of a map. -/
def writeOverrides {Key : Type} (text : Key → String) (overrides : Overrides Key) : String :=
  ",".intercalate ((overrides.entries.map fun entry => text entry.1 ++ ":" ++ entry.2.asStr).insertionSort (· ≤ ·))

def capText (cap : Option UInt32) : String := (cap.map fun value => value.toNat.repr).getD ""

def ActionPolicy.toProperties (policy : ActionPolicy) : Properties where
  entries :=
    [("action_overrides", writeOverrides id policy.actionOverrides),
      ("default_decision", policy.defaultDecision.asStr),
      ("max_deletes_per_work_unit", capText policy.maxDeletesPerWorkUnit),
      ("max_mutations_per_work_unit", capText policy.maxMutationsPerWorkUnit),
      ("risk_overrides", writeOverrides RiskClass.asStr policy.riskOverrides),
      ("scope", policy.scope)]
  sorted := by
    simp only [pairwise_cons, forall_mem_cons, not_mem_nil, false_imp_iff, implies_true, and_true, List.Pairwise.nil]
    decide

inductive PolicyError where
  | missingDefaultDecision
  | invalidDefaultDecision
  | unparsableActionOverride
  | invalidActionOverrideDecision
  | unparsableRiskOverride
  | invalidRiskOverrideClass
  | invalidRiskOverrideDecision
  | invalidCap (field : String)
  deriving DecidableEq

/-- The text of an error; `debug` is `{:?}` of a string. -/
def PolicyError.text (debug : String → String) (scope : String) (error : PolicyError) : String :=
  "action policy " ++ debug scope ++
    match error with
    | .missingDefaultDecision => " is missing default_decision"
    | .invalidDefaultDecision => " has invalid default_decision"
    | .unparsableActionOverride => " has unparsable action override"
    | .invalidActionOverrideDecision => " has invalid action override decision"
    | .unparsableRiskOverride => " has unparsable risk override"
    | .invalidRiskOverrideClass => " has invalid risk override class"
    | .invalidRiskOverrideDecision => " has invalid risk override decision"
    | .invalidCap field => " has invalid " ++ field

structure PairReader (Key : Type) where
  readKey : String → Option Key
  (unparsable invalidKey invalidDecision : PolicyError)

def actionReader : PairReader String where
  readKey name := if trim name = "" then none else some (trim name)
  unparsable := .unparsableActionOverride
  invalidKey := .unparsableActionOverride
  invalidDecision := .invalidActionOverrideDecision

def riskReader : PairReader RiskClass where
  readKey := RiskClass.parse
  unparsable := .unparsableRiskOverride
  invalidKey := .invalidRiskOverrideClass
  invalidDecision := .invalidRiskOverrideDecision

section
variable {Key : Type} [DecidableEq Key]

variable (reader : PairReader Key)

def PairReader.readPair (pair : String) : Except PolicyError (Key × ActionDecision) :=
  match splitOnce ':' pair with
  | none => .error reader.unparsable
  | some (key, decision) =>
    match reader.readKey key with
    | none => .error reader.invalidKey
    | some key =>
      match ActionDecision.parse decision with
      | none => .error reader.invalidDecision
      | some decision => .ok (key, decision)

/-- `raw.split(',').filter(|token| !token.trim().is_empty())`. -/
def tokens (raw : String) : List String := (splitAll ',' raw).filter fun token => trim token ≠ ""

def PairReader.readPairs (pairs : List String) (overrides : Overrides Key) :
    Except PolicyError (Overrides Key) :=
  pairs.foldlM (fun overrides pair => do
    let entry ← reader.readPair pair
    .ok (overrides.insert entry)) overrides

def PairReader.readOverrides (raw : Option String) : Except PolicyError (Overrides Key) :=
  match raw with
  | none => .ok .empty
  | some raw => reader.readPairs (tokens raw) .empty

end

def unsigned : List Char → List Char
  | '+' :: rest => rest
  | chars => chars

/-- `str::parse::<u32>`. -/
def parseU32 (raw : String) : Option UInt32 :=
  if unsigned raw.toList ≠ [] ∧ (unsigned raw.toList).all Char.isDigit ∧
      Nat.ofDigitChars 10 (unsigned raw.toList) 0 < 2 ^ 32 then
    some (UInt32.ofNat (Nat.ofDigitChars 10 (unsigned raw.toList) 0))
  else none

def parseOptionalU32 (field : String) (value : Option String) : Except PolicyError (Option UInt32) :=
  match trimmed value with
  | none => .ok none
  | some raw =>
    match parseU32 raw with
    | none => .error (.invalidCap field)
    | some parsed => .ok (if parsed = 0 then none else some parsed)

def ActionPolicy.fromProperties (scope : String) (properties : Properties) : Except PolicyError ActionPolicy :=
  match trimmed (properties.get "default_decision") with
  | none => .error .missingDefaultDecision
  | some rawDefault =>
    match ActionDecision.parse rawDefault with
    | none => .error .invalidDefaultDecision
    | some defaultDecision => do
      let actionOverrides ← actionReader.readOverrides (properties.get "action_overrides")
      let riskOverrides ← riskReader.readOverrides (properties.get "risk_overrides")
      let maxMutationsPerWorkUnit ← parseOptionalU32 "max_mutations_per_work_unit"
        (properties.get "max_mutations_per_work_unit")
      let maxDeletesPerWorkUnit ← parseOptionalU32 "max_deletes_per_work_unit"
        (properties.get "max_deletes_per_work_unit")
      .ok ⟨scope, defaultDecision, actionOverrides, riskOverrides, maxMutationsPerWorkUnit, maxDeletesPerWorkUnit⟩

def actionPolicyKind : String := "action_policy"

def isAsciiAlphanumeric (c : Char) : Bool := c.isDigit || ('a' ≤ c && c ≤ 'z') || ('A' ≤ c && c ≤ 'Z')

def sanitized (c : Char) : Char := if isAsciiAlphanumeric c then c else '-'

def actionPolicyId (scope : String) : String := "action-policy-" ++ String.ofList (scope.toList.map sanitized)

def actionPolicyExternalId (scope : String) : String := actionPolicyKind ++ ":" ++ scope

variable (tables : ObjectTables)

def findByExternalId (externalId : String) : Option Object :=
  tables.objects.find? (·.externalId = externalId)

/-- `insert_object` of `db/sekai.rs`; an external id of a policy is not one of a namespace. -/
def createObject (object : Object) : Except String ObjectTables :=
  if tables.changes.any (·.objectId = object.id) then .error "object IDs with audit history cannot be reused"
  else do
    storagePropertiesJson object.properties
    tables.insertObject object

def upsertActionPolicy (policy : ActionPolicy) (now : Int) : Except String ObjectTables :=
  match findByExternalId tables (actionPolicyExternalId policy.scope) with
  | some existing => do
    storagePropertiesJson policy.toProperties
    tables.updateObject
      { existing with name := policy.scope, properties := policy.toProperties, updated := now }
  | none =>
    createObject tables
      { id := actionPolicyId policy.scope
        kind := actionPolicyKind
        name := policy.scope
        nameSpace := ""
        externalId := actionPolicyExternalId policy.scope
        properties := policy.toProperties
        created := now
        updated := now }

def getActionPolicy (scope : String) : Except PolicyError (Option ActionPolicy) :=
  match findByExternalId tables (actionPolicyExternalId scope) with
  | none => .ok none
  | some object => (ActionPolicy.fromProperties scope object.properties).map some

end SekaiChisei.GovernedAction
