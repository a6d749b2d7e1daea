import SekaiChisei.Lib.Text

/-!
Stored objects with their links and change history: the tables of `db/sekai.rs` with their constraints and triggers,
and the change rows of `audit.rs`.
-/

namespace SekaiChisei.Objects
open Lib

/-- A `HashMap<String, String>`, by its entries in the order of their keys. -/
structure Properties where
  entries : List (String × String)
  sorted : entries.Pairwise fun a b => a.1 < b.1
  deriving DecidableEq

def Properties.empty : Properties := ⟨[], .nil⟩

def Properties.get (properties : Properties) (key : String) : Option String :=
  properties.entries.lookup key

structure Object where
  (id kind name nameSpace externalId : String)
  properties : Properties
  (created updated : Int)
  deriving DecidableEq

structure Link where
  (fromId toId relation : String)

structure ObjectChange where
  (objectId field oldValue newValue changedBy : String)
  timestamp : Int
  (operationId writerKind writerRef receiptId : String)

structure ChangeAttribution where
  (operationId writerKind writerRef receiptId : String)

def ChangeAttribution.direct : ChangeAttribution := ⟨"", "direct", "", ""⟩

def ChangeAttribution.stamp (attribution : ChangeAttribution) (changes : List ObjectChange) : List ObjectChange :=
  changes.map fun change =>
    { change with
      operationId := attribution.operationId
      writerKind := attribution.writerKind
      writerRef := attribution.writerRef
      receiptId := attribution.receiptId }

variable (actor : String)

def objectChange (timestamp : Int) (objectId field oldValue newValue : String) : ObjectChange :=
  ⟨objectId, field, oldValue, newValue, actor, timestamp, "", "", "", ""⟩

def pushIfChanged (timestamp : Int) (objectId field oldValue newValue : String) :
    List ObjectChange :=
  if oldValue = newValue then [] else [objectChange actor timestamp objectId field oldValue newValue]

def propertyKeys (before after : Object) : List String :=
  dedup (sortByKey id (before.properties.entries.map Prod.fst ++ after.properties.entries.map Prod.fst))

def objectDiffChangesWithSnapshot (before after : Option Object) (timestamp : Int)
    (snapshotPropertyKeys : List String) : List ObjectChange :=
  match before, after with
  | none, some after =>
    [objectChange actor timestamp after.id "_created" "" (after.kind ++ "/" ++ after.name)]
  | some before, none =>
    [objectChange actor timestamp before.id "_deleted" (before.kind ++ "/" ++ before.name) "",
      objectChange actor timestamp before.id "_namespace" before.nameSpace ""] ++
    if snapshotPropertyKeys = [] then []
    else [objectChange actor timestamp before.id "_security_snapshot" "v1" ""]
  | some before, some after =>
    let push := pushIfChanged actor timestamp after.id
    push "kind" before.kind after.kind ++ push "name" before.name after.name ++
      push "namespace" before.nameSpace after.nameSpace ++
      push "external_id" before.externalId after.externalId ++
      (propertyKeys before after).flatMap fun key =>
        push ("properties." ++ key) ((before.properties.get key).getD "") ((after.properties.get key).getD "")
  | none, none => []

def objectDiffChanges (before after : Option Object) (timestamp : Int) : List ObjectChange :=
  objectDiffChangesWithSnapshot actor before after timestamp []

structure ObjectTables where
  objects : List Object
  links : List Link
  changes : List ObjectChange
  /-- Of the active object-security policies: namespace and activation id. -/
  activations : List (String × String)
  /-- The objects that a source owns. -/
  sourceOwned : List String

def ObjectTables.empty : ObjectTables := ⟨[], [], [], [], []⟩

/-- The check of `storage_properties_json`; the text it writes is read back by nothing here. -/
def storagePropertiesJson (properties : Properties) : Except String Unit :=
  properties.entries.forM fun entry =>
    if '\x00' ∈ entry.1.toList then .error "object property key must not contain NUL"
    else if '\x00' ∈ entry.2.toList then .error "object property value must not contain NUL"
    else .ok ()

/-- The partial unique indexes on namespace and external id, each by the rows it covers. `LIKE` takes
no account of case. -/
def identityIndexes : List (Object → Bool) :=
  [fun object => object.kind = "feedback_observation" ∧ object.externalId ≠ "",
    fun object => object.kind ∈ ["security_finding", "security_finding_occurrence",
      "security_exposure"] ∧ object.externalId ≠ "",
    fun object => object.kind = "security_disposition" ∧ object.externalId ≠ "",
    fun object => object.kind ∈ ["security_remediation", "security_mitigation"] ∧ object.externalId ≠ "",
    fun object => (object.externalId.toList.take 7).map Char.toLower = "github:".toList]

def sameIdentity (a b : Object) : Bool :=
  a.nameSpace = b.nameSpace ∧ a.externalId = b.externalId ∧ identityIndexes.any fun covers => covers a && covers b

namespace ObjectTables

variable (tables : ObjectTables)

def getObject (id : String) : Option Object :=
  tables.objects.find? (·.id = id)

def insertObject (object : Object) : Except String ObjectTables :=
  if tables.objects.any (·.id = object.id) then
    .error "UNIQUE constraint failed: sekai_objects.id"
  else if tables.objects.any (sameIdentity object) then
    .error "UNIQUE constraint failed: sekai_objects.namespace, sekai_objects.external_id"
  else .ok { tables with objects := tables.objects ++ [object] }

def ownedError : String := "source-owned object is immutable outside source sync"

/-- The update of a row, which does not write `created`. -/
def updateObject (object : Object) : Except String ObjectTables :=
  if object.id ∈ tables.sourceOwned then .error ownedError
  else if tables.objects.any fun row => row.id ≠ object.id ∧ sameIdentity object row then
    .error "UNIQUE constraint failed: sekai_objects.namespace, sekai_objects.external_id"
  else
    .ok { tables with
      objects := tables.objects.map fun row =>
        if row.id = object.id then { object with created := row.created } else row }

def deleteObject (id : String) : Except String ObjectTables :=
  if id ∈ tables.sourceOwned then .error ownedError
  else
    .ok { tables with
      objects := tables.objects.filter (·.id ≠ id)
      links := tables.links.filter fun link => link.fromId ≠ id ∧ link.toId ≠ id }

def insertObjectChanges (changes : List ObjectChange) : ObjectTables :=
  { tables with changes := tables.changes ++ changes }

def requireSqlitePolicyGeneration (nameSpace : String)
    (expected : Option String) : Except String Unit :=
  match expected with
  | none => .ok ()
  | some expected =>
    if (tables.activations.lookup nameSpace).getD "legacy" ≠ expected then
      .error "object changed since authorization"
    else .ok ()

end ObjectTables

end SekaiChisei.Objects
