import Mathlib
import SekaiChisei.Lib.OrderedMap
import SekaiChisei.Lib.Text

/-!
Federated aggregates, `sekai/federated_aggregate.rs`. A `BTreeSet` is a finite set; counts stay below `u64::MAX`; the
two digests are parameters.
-/

namespace SekaiChisei.FederatedAggregate
open Lib

inductive AggregateFunction where
  | count | sum | avg
  deriving DecidableEq

inductive FederatedAggregateError where
  | refusedFunction (name : String)
  | invalid (reason : String)

def allowanceSchema : String := "sekai.federated-aggregate-allowance/v1"

structure Allowance where
  (schema nameSpace objectType : String)
  (dimensions measures : Finset String)
  functions : Finset AggregateFunction
  minGroupSize : Nat
  noiseScale : Option Float
  requesters : Finset String

def Allowance.validate (allowance : Allowance) : Except FederatedAggregateError Unit :=
  if allowance.schema ≠ allowanceSchema then
    .error (.invalid "allowance schema must be sekai.federated-aggregate-allowance/v1")
  else if trim allowance.nameSpace = "" ∨ trim allowance.objectType = "" then
    .error (.invalid "allowance namespace and object type are required")
  else if allowance.functions = ∅ ∨ allowance.requesters = ∅ then
    .error (.invalid "allowance must name at least one function and one requester")
  else if allowance.minGroupSize < 2 then
    .error (.invalid "allowance minimum group size must be at least 2")
  else if ¬ Disjoint allowance.dimensions allowance.measures then
    .error (.invalid "a property cannot be both a dimension and a measure")
  else if allowance.noiseScale.any fun scale => !scale.isFinite || scale ≤ 0 then
    .error (.invalid "noise scale must be a positive finite number")
  else .ok ()

structure Measure where
  function : AggregateFunction
  property : Option String

structure Query where
  (requester objectType : String)
  dimensions : List String
  measures : List Measure
  filterProperties : List String
  filtersDigest : String

/-- `sha256:` over the canonical JSON of an allowance and of a query. -/
structure Digests where
  allowance : Allowance → String
  query : Query → String

def Allowance.digest (digests : Digests) (allowance : Allowance) : Except FederatedAggregateError String := do
  allowance.validate
  return digests.allowance allowance

inductive ExclusionReason where
  | noAllowance | objectType | dimension | measure | function | requester | restrictedProperty | unavailable

/-- `{:?}` of a reason. -/
def ExclusionReason.debug : ExclusionReason → String
  | noAllowance => "NoAllowance"
  | objectType => "ObjectType"
  | dimension => "Dimension"
  | measure => "Measure"
  | function => "Function"
  | requester => "Requester"
  | restrictedProperty => "RestrictedProperty"
  | unavailable => "Unavailable"

def coverMeasures (allowance : Allowance) : List Measure → Except ExclusionReason Unit
  | [] => .ok ()
  | measure :: rest =>
    if measure.function ∉ allowance.functions then .error .function
    else
      match measure.function, measure.property with
      | .count, none => coverMeasures allowance rest
      | .count, some _ => .error .measure
      | _, none => .error .measure
      | _, some property =>
        if property ∉ allowance.measures then .error .measure else coverMeasures allowance rest

def coverage (allowance : Option Allowance) (nameSpace : String) (query : Query) : Except ExclusionReason Unit :=
  match allowance with
  | none => .error .noAllowance
  | some allowance =>
    if allowance.nameSpace ≠ nameSpace ∨ allowance.objectType ≠ query.objectType then .error .objectType
    else if query.requester ∉ allowance.requesters then .error .requester
    else if (query.dimensions ++ query.filterProperties).any (· ∉ allowance.dimensions) then .error .dimension
    else coverMeasures allowance query.measures

abbrev GroupKey := List String

structure GroupPartial where
  count : Float
  sums : List Float
  exactCount : Nat

inductive NoiseMechanism where
  | laplace

structure NoiseReport where
  mechanism : NoiseMechanism
  scale : Float

structure Partial where
  (tenant allowanceDigest queryDigest : String)
  minGroupSize : Nat
  groups : OrderedMap GroupKey GroupPartial
  suppressedGroups : Nat
  noise : Option NoiseReport

/-- `f64::signum`, which tells the zeros apart. -/
def signum (x : Float) : Float :=
  if x.isNaN then x else if 0 < x || (x == 0 && 0 < 1 / x) then 1 else -1

def laplace (scale unit : Float) : Float :=
  -scale * signum (unit - 0.5) * (1.0 - 2.0 * (unit - 0.5).abs).log

def summedProperties (query : Query) : List String :=
  query.measures.foldl (fun summed measure =>
    match measure.property with
    | some property => if property ∈ summed then summed else summed ++ [property]
    | none => summed) []

structure Row where
  key : GroupKey
  values : List Float

def zeros (width : Nat) : List Float := List.replicate width 0

def addRow (width : Nat) (exact : OrderedMap GroupKey (Nat × List Float)) (row : Row) :
    OrderedMap GroupKey (Nat × List Float) :=
  exact.adjust row.key (0, zeros width) fun entry => (entry.1 + 1, List.zipWith (· + ·) entry.2 row.values)

def groupRows (query : Query) (rows : List Row) :
    Except FederatedAggregateError (OrderedMap GroupKey (Nat × List Float)) :=
  rows.foldlM (fun exact row =>
    if row.key.length ≠ query.dimensions.length ∨ row.values.length ≠ (summedProperties query).length then
      .error (.invalid "a row does not match the query's dimensions and measures")
    else .ok (addRow (summedProperties query).length exact row)) .empty

/-- The draws of `random` that the sums of a group take, in order. -/
def noisySums (scale : Float) (random : Nat → Float) : Nat → List Float → List Float
  | _, [] => []
  | draw, sum :: sums => (sum + laplace scale (random draw)) :: noisySums scale random (draw + 1) sums

def addNoise (scale : Float) (random : Nat → Float) (draw : Nat) (group : GroupPartial) : Nat × GroupPartial :=
  (draw + 1 + group.sums.length, { group with
      count := group.count + laplace scale (random draw)
      sums := noisySums scale random (draw + 1) group.sums })

/-- `random` is the sequence of draws that the source gives. -/
def tenantPartial (digests : Digests) (tenant : String) (allowance : Allowance) (query : Query) (rows : List Row)
    (random : Nat → Float) : Except FederatedAggregateError Partial := do
  let allowanceDigest ← allowance.digest digests
  match coverage (some allowance) tenant query with
  | .error reason => .error (.invalid ("the allowance does not cover this query: " ++ reason.debug))
  | .ok () =>
    let exact ← groupRows query rows
    let groups := (exact.filter fun entry => allowance.minGroupSize ≤ entry.1).mapValues fun entry =>
      { count := entry.1.toFloat, sums := entry.2, exactCount := entry.1 : GroupPartial }
    return {
      tenant
      allowanceDigest
      queryDigest := digests.query query
      minGroupSize := allowance.minGroupSize
      groups :=
        match allowance.noiseScale with
        | none => groups
        | some scale => groups.walk (addNoise scale random) 0
      suppressedGroups := exact.size - groups.size
      noise := allowance.noiseScale.map fun scale => ⟨.laplace, scale⟩ }

structure CombinedGroup where
  values : List (Option Float)

structure Combined where
  groups : OrderedMap GroupKey CombinedGroup
  (suppressedGroups minGroupSize : Nat)
  contributors : List String
  excluded : OrderedMap String ExclusionReason
  noise : OrderedMap String NoiseReport

def checkPartials (digests : Digests) (query : Query) :
    Finset String → List Partial → Except FederatedAggregateError Unit
  | _, [] => .ok ()
  | tenants, first :: rest =>
    if first.queryDigest ≠ digests.query query then
      .error (.invalid ("partial from " ++ first.tenant ++ " answers another query"))
    else if first.tenant ∈ tenants then
      .error (.invalid ("partial from " ++ first.tenant ++ " is given twice"))
    else if first.groups.entries.any fun entry => entry.1.length ≠ query.dimensions.length ∨
        entry.2.sums.length ≠ (summedProperties query).length then
      .error (.invalid ("partial from " ++ first.tenant ++ " does not match the query's dimensions and measures"))
    else checkPartials digests query (insert first.tenant tenants) rest

def addGroup (width : Nat) (merged : OrderedMap GroupKey GroupPartial) (entry : GroupKey × GroupPartial) :
    OrderedMap GroupKey GroupPartial :=
  merged.adjust entry.1 ⟨0, zeros width, 0⟩ fun total =>
    { count := total.count + entry.2.count
      sums := List.zipWith (· + ·) total.sums entry.2.sums
      exactCount := total.exactCount + entry.2.exactCount }

def mergePartials (width : Nat) (partials : List Partial) : OrderedMap GroupKey GroupPartial :=
  partials.foldl (fun merged part => part.groups.entries.foldl (addGroup width) merged) .empty

def measureValue (query : Query) (group : GroupPartial) (measure : Measure) : Option Float :=
  let sum (property : String) : Float :=
    match (summedProperties query).idxOf? property with
    | none => 0
    | some index => group.sums.getD index 0
  let value :=
    match measure.function, measure.property with
    | .count, _ => group.count
    | _, none => group.count
    | .sum, some property => sum property
    | .avg, some property => if group.count < 1 then 0 / 0 else sum property / group.count
  if value.isFinite then some value else none

def largestGroupSize (partials : List Partial) : Nat := (partials.map Partial.minGroupSize).foldl max 0

def combine (digests : Digests) (query : Query) (partials : List Partial)
    (excluded : OrderedMap String ExclusionReason) : Except FederatedAggregateError Combined := do
  checkPartials digests query ∅ partials
  let minGroupSize := largestGroupSize partials
  let merged := mergePartials (summedProperties query).length partials
  let kept := merged.filter fun group => minGroupSize ≤ group.exactCount
  return {
    groups := kept.mapValues fun group => ⟨query.measures.map (measureValue query group)⟩
    suppressedGroups := (partials.map Partial.suppressedGroups).sum + (merged.size - kept.size)
    minGroupSize
    contributors := partials.map Partial.tenant
    excluded
    noise := partials.foldl (fun noise part =>
      match part.noise with
      | none => noise
      | some report => noise.adjust part.tenant report fun _ => report) .empty }

end SekaiChisei.FederatedAggregate
