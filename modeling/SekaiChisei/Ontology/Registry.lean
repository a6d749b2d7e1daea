import SekaiChisei.Lib.Ancestry
import SekaiChisei.Lib.Fallible
import SekaiChisei.Lib.Table
import SekaiChisei.Lib.Text
import SekaiChisei.Lib.Trace

/-!
The registry of classes and relations, the checks of a definition, and the upserts of `sekai/ontology.rs` as the
definition RPCs make them.
-/

namespace SekaiChisei.Ontology
open Lib

structure OntologyProperty where
  name : String

structure OntologyClass where
  name : String
  (superclasses equivalentClasses disjointClasses : List String)
  properties : List OntologyProperty
  isBuiltin : Bool

structure Cardinality where
  min : Nat
  max : Option Nat

structure OntologyRelation where
  (name domain range : String)
  cardinality : Cardinality
  inverse : String
  isBuiltin : Bool
  mappedRelation : String

structure OntologyRegistry where
  classes : List OntologyClass
  relations : List OntologyRelation

namespace OntologyRegistry

def empty : OntologyRegistry := ⟨[], []⟩

variable (registry : OntologyRegistry)

variable (name : String)

def getClass : Option OntologyClass := Table.find (·.name) registry.classes name

def getRelation : Option OntologyRelation :=
  Table.find (·.name) registry.relations name

def removeClass : OntologyRegistry :=
  { registry with classes := registry.classes.filter (·.name ≠ name) }

def removeRelation : OntologyRegistry :=
  { registry with relations := registry.relations.filter (·.name ≠ name) }

def registerClass (definition : OntologyClass) : OntologyRegistry :=
  { registry with classes := (registry.removeClass definition.name).classes ++ [definition] }

def registerRelation (definition : OntologyRelation) : OntologyRegistry :=
  { registry with relations := (registry.removeRelation definition.name).relations ++ [definition] }

def superclasses (name : String) : List String :=
  ((registry.getClass name).map (·.superclasses)).getD []

def disjointClasses (name : String) : List String :=
  ((registry.getClass name).map (·.disjointClasses)).getD []

def equivalentClasses (name : String) : List String :=
  ((registry.getClass name).map (·.equivalentClasses)).getD []

def superclassClosure : List String :=
  Graph.explore registry.superclasses ((registry.superclasses name).length +
    (registry.classes.map fun row => (registry.superclasses row.name).length).sum) name

end OntologyRegistry

def checkProperties : List String → List OntologyProperty → Except String Unit
  | _, [] => .ok ()
  | seen, property :: rest =>
    if trim property.name = "" then .error "property name required"
    else if property.name ∈ seen then .error s!"duplicate property '{property.name}'"
    else checkProperties (property.name :: seen) rest

section
variable (definition : OntologyClass) (registry : OntologyRegistry)

def validateClassRefs (label : String) (refs : List String) : Except String Unit :=
  refs.forM fun reference =>
    if trim reference = "" then .error s!"{label} name required"
    else if reference = definition.name then .ok ()
    else if (registry.getClass reference).isNone then .error s!"unknown {label} '{reference}'"
    else .ok ()

def checkHeader (existing : Option OntologyClass) : Except String Unit :=
  if trim definition.name = "" then .error "class name required"
  else if definition.isBuiltin then .error "builtin ontology classes are code-owned"
  else if (existing.map (·.isBuiltin)).getD false then .error "cannot replace builtin ontology class"
  else .ok ()

def checkEquivalence : Except String Unit := do
  match definition.equivalentClasses.find? (· ∈ definition.disjointClasses) with
  | some contradiction =>
    .error s!"class '{definition.name}' cannot be both equivalent to and disjoint with '{contradiction}'"
  | none => .ok ()
  definition.equivalentClasses.forM fun equivalent =>
    if definition.name ∈ registry.disjointClasses equivalent then
      .error s!"class '{definition.name}' cannot be equivalent to '{equivalent}' because it is disjoint"
    else .ok ()
  definition.disjointClasses.forM fun disjoint =>
    if definition.name ∈ registry.equivalentClasses disjoint then
      .error s!"class '{definition.name}' cannot be disjoint with '{disjoint}' because it is equivalent"
    else .ok ()

def checkCycle : Except String Unit :=
  definition.superclasses.forM fun parent =>
    if parent = definition.name then .error s!"class '{definition.name}' cannot be its own superclass"
    else if definition.name ∈ registry.superclassClosure parent then
      .error s!"inheritance cycle: '{definition.name}' is already an ancestor of superclass '{parent}'"
    else .ok ()

def ancestors : List String :=
  definition.superclasses.flatMap fun parent => parent :: registry.superclassClosure parent

def checkDisjoint : Except String Unit :=
  definition.disjointClasses.forM fun disjoint =>
    if disjoint = definition.name then .error s!"class '{definition.name}' cannot be disjoint with itself"
    else if disjoint ∈ ancestors definition registry then
      .error s!"class '{definition.name}' cannot be disjoint with its ancestor '{disjoint}'"
    else .ok ()

def validateClassDefinition (existing : Option OntologyClass) : Except String Unit := do
  checkHeader definition existing
  checkProperties [] definition.properties
  validateClassRefs definition registry "superclass" definition.superclasses
  validateClassRefs definition registry "equivalent class" definition.equivalentClasses
  validateClassRefs definition registry "disjoint class" definition.disjointClasses
  checkEquivalence definition registry
  checkCycle definition registry
  checkDisjoint definition registry

/-- `create_ontology_class_definition`, on definitions that the caller may read. -/
def upsertClass : Except String OntologyRegistry := do
  validateClassDefinition definition (registry.removeClass definition.name) (registry.getClass definition.name)
  .ok (registry.registerClass definition)

end

section
variable (definition : OntologyRelation) (registry : OntologyRegistry)

def checkInverse : Except String Unit :=
  if definition.inverse = "" then .ok ()
  else
    match registry.getRelation definition.inverse with
    | none => .error s!"unknown inverse relation '{definition.inverse}'"
    | some inverse =>
      if inverse.inverse ≠ "" ∧ inverse.inverse ≠ definition.name then
        .error s!"inverse relation '{inverse.name}' already points to '{inverse.inverse}'"
      else if inverse.domain ≠ definition.range ∨ inverse.range ≠ definition.domain then
        .error s!"inverse relation '{inverse.name}' must reverse domain and range"
      else .ok ()

def checkCardinality : Except String Unit :=
  match definition.cardinality.max with
  | some max =>
    if max < definition.cardinality.min then
      .error s!"relation '{definition.name}' cardinality max {max} is below min {definition.cardinality.min}"
    else .ok ()
  | none => .ok ()

def validateRelationDefinition (existing : Option OntologyRelation) : Except String Unit :=
  if trim definition.name = "" then .error "relation name required"
  else if definition.isBuiltin then .error "builtin ontology relations are code-owned"
  else if (existing.map (·.isBuiltin)).getD false then .error "cannot replace builtin ontology relation"
  else if trim definition.domain = "" then .error "relation domain required"
  else if trim definition.range = "" then .error "relation range required"
  else if (registry.getClass definition.domain).isNone then
    .error s!"unknown domain class '{definition.domain}'"
  else if (registry.getClass definition.range).isNone then
    .error s!"unknown range class '{definition.range}'"
  else do
    checkCardinality definition
    if definition.inverse ≠ "" ∧ definition.inverse = definition.name then
      .error s!"relation '{definition.name}' cannot be its own inverse"
    else checkInverse definition registry

/-- The links that a narrower maximum would leave behind: how many sources of a mapped relation have more
targets than the maximum. -/
abbrev SourcesOver := String → Nat → Nat

def tightenedMaximumError (violatingSources maximum : Nat) : String :=
  s!"relation_cardinality_exceeded: {violatingSources} existing source(s) exceed the declared maximum of " ++
    s!"{maximum}; existing links are not rewritten"

variable (sourcesOver : SourcesOver)

def upsertRelationRow : Except String OntologyRegistry :=
  match definition.cardinality.max with
  | some maximum =>
    if definition.mappedRelation ≠ "" ∧ 0 < sourcesOver definition.mappedRelation maximum then
      .error (tightenedMaximumError (sourcesOver definition.mappedRelation maximum) maximum)
    else .ok (registry.registerRelation definition)
  | none => .ok (registry.registerRelation definition)

/-- A relation that passes `validate_relation_definition` is written. -/
def upsertRelation : Except String OntologyRegistry := do
  validateRelationDefinition definition (registry.removeRelation definition.name)
    (registry.getRelation definition.name)
  upsertRelationRow definition registry sourcesOver

/-- `create_ontology_relation_definition`: the relations that name this one as their inverse are looked at
too. -/
def createRelation : Except String OntologyRegistry := do
  validateRelationDefinition definition (registry.removeRelation definition.name)
    (registry.getRelation definition.name)
  ((registry.removeRelation definition.name).relations.filter (·.inverse = definition.name)).forM fun referencing =>
      if referencing.domain ≠ definition.range ∨ referencing.range ≠ definition.domain then
        .error s!"relation '{referencing.name}' would no longer reverse inverse '{definition.name}'"
      else .ok ()
  upsertRelationRow definition registry sourcesOver

end

inductive Action where
  | upsertClass (definition : OntologyClass)
  | upsertRelation (definition : OntologyRelation) (sourcesOver : SourcesOver)

def Action.run (registry : OntologyRegistry) : Action → Except String OntologyRegistry
  | .upsertClass definition => Ontology.upsertClass definition registry
  | .upsertRelation definition sourcesOver => Ontology.upsertRelation definition registry sourcesOver

def step (registry : OntologyRegistry) (action : Action) : OntologyRegistry :=
  match action.run registry with
  | .ok next => next
  | .error _ => registry

theorem upsertRelationRow_eq_ok {definition : OntologyRelation} {registry next : OntologyRegistry}
    {sourcesOver : SourcesOver} (written : upsertRelationRow definition registry sourcesOver = .ok next) :
    next = registry.registerRelation definition := by
  unfold upsertRelationRow at written
  split at written
  · rw [ite_error_eq_ok] at written
    cases written.2
    rfl
  · cases written
    rfl

end SekaiChisei.Ontology
