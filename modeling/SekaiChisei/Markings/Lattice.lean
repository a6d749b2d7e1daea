import SekaiChisei.Lib.Graph
import SekaiChisei.Lib.Text

/-!
The namespace-local classification lattice of `classification_lattice.rs` and the built-in ordinal
of `markings.rs`. A `BTreeMap` is its list of entries in key order, a `BTreeSet` a sorted list.
-/

namespace SekaiChisei.Markings
open Lib

def classificationLatticeVersion : String := "sekai.classification-lattice/v1"

structure ClassificationLattice where
  (contractVersion nameSpace : String)
  tokens : List String
  parents : List (String × List String)
  incomparable : List (String × String)
  deriving DecidableEq

def tokenChar (c : Char) : Bool := c.isAlphanum || "_-.:/".toList.contains c

def validateToken (label value : String) : Except String Unit :=
  if value = "" ∨ value.utf8ByteSize > 256 ∨ ¬ value.toList.all tokenChar then
    .error s!"invalid classification lattice {label}"
  else .ok ()

def orderedPair (left right : String) : String × String :=
  if left ≤ right then (left, right) else (right, left)

/-- `parents.get(token).into_iter().flatten()`. -/
def parentsOf (parents : List (String × List String)) (token : String) : List String :=
  (parents.lookup token).getD []

variable (tokens : List String)

def addToken (token : String) : Except String (List String) := do
  validateToken "token" token
  if token ∈ tokens then .error s!"duplicate classification token {token}"
  else .ok (setInsert token tokens)

def addParent (child : String) (unique : List String) (parent : String) :
    Except String (List String) := do
  validateToken "parent" parent
  if parent ∉ tokens then .error s!"parent edge references unknown token {parent}"
  else if parent = child then .error "classification lattice parent edge cannot be reflexive"
  else .ok (setInsert parent unique)

def addParents (parents : List (String × List String))
    (entry : String × List String) : Except String (List (String × List String)) :=
  if entry.1 ∉ tokens then .error s!"parent edge references unknown token {entry.1}"
  else do
    let unique ← entry.2.foldlM (addParent tokens entry.1) []
    return parents ++ [(entry.1, unique)]

def addIncomparable (pairs : List (String × String))
    (pair : String × String) : Except String (List (String × String)) := do
  validateToken "incomparable" pair.1
  validateToken "incomparable" pair.2
  if pair.1 ∉ tokens ∨ pair.2 ∉ tokens then .error "incomparable pair references an unknown token"
  else if pair.1 = pair.2 then .error "incomparable pair cannot name the same token twice"
  else .ok (pairInsert (orderedPair pair.1 pair.2) pairs)

namespace ClassificationLattice

variable (l : ClassificationLattice)

def prepare : Except String ClassificationLattice := do
  if l.contractVersion ≠ classificationLatticeVersion then
    .error "unsupported classification lattice contract"
  else
    validateToken "namespace" l.nameSpace
    if l.tokens = [] then .error "classification lattice must name at least one token"
    else
      let tokens ← l.tokens.foldlM addToken []
      let parents ← l.parents.foldlM (addParents tokens) []
      let incomparable ← l.incomparable.foldlM (addIncomparable tokens) []
      if Graph.hasCycle (parentsOf parents) tokens ≠ some false then
        .error "classification lattice parent edges must be acyclic"
      else .ok ⟨classificationLatticeVersion, l.nameSpace, tokens, parents, incomparable⟩

def contains (token : String) : Prop := token ∈ l.tokens

instance (l : ClassificationLattice) (token : String) : Decidable (l.contains token) :=
  inferInstanceAs (Decidable (token ∈ l.tokens))

/-- `ancestors`: the worklist has a round for the token and one for each parent edge. -/
def ancestors (token : String) : List String :=
  Graph.search (parentsOf l.parents) ((l.parents.flatMap Prod.snd).length + 1) token

def incomparablePair (left right : String) : Prop :=
  orderedPair left right ∈ l.incomparable

instance (l : ClassificationLattice) (left right : String) : Decidable (l.incomparablePair left right) :=
  inferInstanceAs (Decidable (orderedPair left right ∈ l.incomparable))

def dominates (ceiling marking : String) : Except String Bool :=
  if ¬ l.contains ceiling ∨ ¬ l.contains marking then .error "unknown classification token"
  else if l.incomparablePair ceiling marking then .ok false
  else .ok (ceiling = marking ∨ ceiling ∈ l.ancestors marking)

def common (left right : String) : List String :=
  (l.ancestors left).filter (· ∈ l.ancestors right)

def least (left right : String) : List String :=
  (l.common left right).filter fun candidate =>
    ¬ (l.common left right).any fun other => other ≠ candidate ∧ candidate ∈ l.ancestors other

def only : List String → Option String
  | [token] => some token
  | _ => none

def join (left right : String) : Except String (Option String) :=
  if ¬ l.contains left ∨ ¬ l.contains right then .error "unknown classification token"
  else if l.incomparablePair left right then .ok none
  else do
    if ← l.dominates left right then return some left
    else if ← l.dominates right left then return some right
    else return only (l.least left right)

end ClassificationLattice

inductive EvidenceClassification where
  | pub
  | internal
  | confidential
  | restricted
  deriving DecidableEq

namespace EvidenceClassification

def asStr : EvidenceClassification → String
  | pub => "public"
  | internal => "internal"
  | confidential => "confidential"
  | restricted => "restricted"

def ordinal : EvidenceClassification → Nat
  | pub => 0
  | internal => 1
  | confidential => 2
  | restricted => 3

/-- `Ord::max`, which returns the second argument when both are equal. -/
def max (left right : EvidenceClassification) : EvidenceClassification :=
  if right.ordinal < left.ordinal then left else right

end EvidenceClassification

def parseClassification (value : String) : Except String EvidenceClassification :=
  match (trim value).toLower with
  | "public" => .ok .pub
  | "internal" => .ok .internal
  | "confidential" => .ok .confidential
  | "restricted" => .ok .restricted
  | other => .error s!"unknown classification marking: {other}"

def parseOptionalClassification (value : String) : Except String (Option EvidenceClassification) :=
  if trim value = "" then .ok none else (parseClassification (trim value)).map some

def isMarkingDowngrade : Option EvidenceClassification → Option EvidenceClassification → Bool
  | none, _ => false
  | some _, none => true
  | some source, some target => target.ordinal < source.ordinal

/-- `join_marking_tokens` without a lattice, on two present tokens. -/
def joinOrdinal (left right : String) : Except String (Option String) := do
  let parsedLeft ← parseOptionalClassification left
  let parsedRight ← parseOptionalClassification right
  return match parsedLeft, parsedRight with
    | some left, some right => some (left.max right).asStr
    | some token, none => some token.asStr
    | none, some token => some token.asStr
    | none, none => none

variable (lattice : Option ClassificationLattice)

def joinMarkingTokens (left right : Option String) :
    Except String (Option String) :=
  match trimmed left, trimmed right with
  | none, none => .ok none
  | some token, none => .ok (some token)
  | none, some token => .ok (some token)
  | some left, some right =>
    match lattice with
    | none => joinOrdinal left right
    | some lattice => lattice.join left right

/-- The check of one input token in `union_input_marking_tokens`. -/
def checkInput (token : String) : Except String Unit :=
  match lattice with
  | none => do let _ ← parseOptionalClassification token
  | some lattice =>
    if lattice.contains token then .ok ()
    else .error s!"unknown classification marking: {token}"

def unionStep (acc : List String × Option String)
    (token : Option String) : Except String (List String × Option String) :=
  match trimmed token with
  | none => .ok acc
  | some token => do
    checkInput lattice token
    let markingsIn := if token ∈ acc.1 then acc.1 else acc.1 ++ [token]
    match ← joinMarkingTokens lattice acc.2 (some token) with
    | some joined => .ok (markingsIn, some joined)
    | none => .error s!"input markings {token} are incomparable with the current union"

def unionInputMarkingTokens
    (tokens : List (Option String)) : Except String (List String × Option String) :=
  tokens.foldlM (unionStep lattice) ([], none)

def isMarkingTokenDowngrade
    (source target : Option String) : Except String Bool :=
  match trimmed source, trimmed target with
  | none, _ => .ok false
  | some _, none => .ok true
  | some source, some target =>
    if source = target then .ok false
    else
      match lattice with
      | some lattice => do return !(← lattice.dominates target source)
      | none => do
        let source ← parseOptionalClassification source
        let target ← parseOptionalClassification target
        return isMarkingDowngrade source target

structure PrincipalAuthority where
  principal : String
  classificationCeiling : Option EvidenceClassification
  classificationToken : Option String

def PrincipalAuthority.classificationCeilingToken (authority : PrincipalAuthority) : Option String :=
  (authority.classificationToken.filter (· ≠ "")).or
    (authority.classificationCeiling.map EvidenceClassification.asStr)

inductive MarkingDecision where
  | allow
  | deny
  | notApplicable
  deriving DecidableEq

structure MarkingCheckResult where
  decision : MarkingDecision
  (objectClassification principalCeiling : Option String)
  detail : String

def isTrustedServicePrincipal (principal : String) : Prop :=
  principal = "root" ∨ principal = "local" ∨ principal = "chisei-gateway"

instance (principal : String) : Decidable (isTrustedServicePrincipal principal) :=
  inferInstanceAs (Decidable (_ ∨ _ ∨ _))

def evaluateMarkingAccess (marking : Option EvidenceClassification) (authority : PrincipalAuthority) :
    MarkingCheckResult :=
  match marking with
  | none =>
    ⟨.notApplicable, none, authority.classificationCeiling.map EvidenceClassification.asStr,
      "object has no classification marking"⟩
  | some marking =>
    if isTrustedServicePrincipal authority.principal then
      ⟨.allow, some marking.asStr, some EvidenceClassification.restricted.asStr, "trusted service principal"⟩
    else
      match authority.classificationCeiling with
      | none =>
        ⟨.deny, some marking.asStr, none, "principal has no classification_ceiling for a marked object"⟩
      | some ceiling =>
        if marking.ordinal ≤ ceiling.ordinal then
          ⟨.allow, some marking.asStr, some ceiling.asStr, "principal ceiling covers object marking"⟩
        else
          ⟨.deny, some marking.asStr, some ceiling.asStr, "principal classification_ceiling is below object marking"⟩

/-- `parse_optional_classification(token).ok().flatten()`. -/
def knownClassification (token : String) : Option EvidenceClassification :=
  match parseOptionalClassification token with
  | .ok parsed => parsed
  | .error _ => none

/-- `evaluate_lattice_access`, without the decision id. -/
def evaluateLatticeAccess (objectToken : Option String) (authority : PrincipalAuthority)
    (lattice : Option ClassificationLattice) : MarkingCheckResult :=
  match lattice with
  | none => evaluateMarkingAccess (objectToken.bind knownClassification) authority
  | some lattice =>
    match trimmed objectToken with
    | none =>
      ⟨.notApplicable, none, authority.classificationCeilingToken, "object has no classification marking"⟩
    | some marking =>
      if isTrustedServicePrincipal authority.principal then
        ⟨.allow, some marking, authority.classificationCeilingToken, "trusted service principal"⟩
      else if ¬ lattice.contains marking then
        ⟨.deny, some marking, authority.classificationCeilingToken,
          "object marking is unknown to the activated lattice"⟩
      else
        match authority.classificationCeilingToken.filter (· ≠ "") with
        | none =>
          ⟨.deny, some marking, none, "principal has no classification_ceiling for a marked object"⟩
        | some ceiling =>
          match lattice.dominates ceiling marking with
          | .ok true =>
            ⟨.allow, some marking, some ceiling, "principal ceiling dominates object marking"⟩
          | .ok false =>
            ⟨.deny, some marking, some ceiling, "principal ceiling does not dominate object marking"⟩
          | .error _ =>
            ⟨.deny, some marking, some ceiling, "principal ceiling is unknown to the activated lattice"⟩

end SekaiChisei.Markings
