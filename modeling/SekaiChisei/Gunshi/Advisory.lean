import SekaiChisei.Gunshi.Allocation

/-! Fleet allocation, `chisei/gunshi.rs`: baseline plans refined by governed evidence about models. -/

namespace SekaiChisei.Gunshi
open Lib Binary64

structure KiokuEvidence (F : Type) where
  (memoryId nameSpace operationClass model : String)
  score : F
  passed : Bool
  status : String
  observedAtMs : Int64
  receiptReference : Option String

structure AdvisoryPolicy (F : Type) where
  maxMemoryAgeMs : Int64
  minScore : F
  maxEvidenceReferences : Nat

section
variable {F : Type} [Binary64 F]

def AdvisoryPolicy.validate (policy : AdvisoryPolicy F) : Except Fault Unit := do
  rejectIf (policy.maxMemoryAgeMs < 0) "maximum memory age must be non-negative"
  checkUnit "minimum evidence score must be between 0 and 1" policy.minScore
  rejectIf (policy.maxEvidenceReferences = 0) "at least one evidence reference must be allowed"

def validateKiokuEvidence (memory : KiokuEvidence F) : Except Fault Unit := do
  [("memory_id", memory.memoryId), ("namespace", memory.nameSpace), ("operation_class", memory.operationClass),
    ("model", memory.model), ("status", memory.status)].forM fun field => required field.1 field.2
  checkUnit ("Kioku memory " ++ memory.memoryId ++ " score must be between 0 and 1") memory.score

/-- `i64::saturating_sub`, as a number. -/
def saturatingSub (a b : Int64) : Int := max (-2 ^ 63) (min (2 ^ 63 - 1) (a.toInt - b.toInt))

def isCurrent (nameSpace operationClass : String) (nowMs : Int64) (policy : AdvisoryPolicy F)
    (memory : KiokuEvidence F) : Bool :=
  memory.nameSpace = nameSpace && memory.operationClass = operationClass && memory.status = "active" &&
    memory.passed && le policy.minScore memory.score && memory.observedAtMs ≤ nowMs &&
    saturatingSub nowMs memory.observedAtMs ≤ policy.maxMemoryAgeMs.toInt

def currentEvidence (evidence : List (KiokuEvidence F)) (nameSpace operationClass : String) (nowMs : Int64)
    (policy : AdvisoryPolicy F) : List (KiokuEvidence F) :=
  evidence.filter (isCurrent nameSpace operationClass nowMs policy)

def byModel (current : List (KiokuEvidence F)) : OrderedMap String (List (KiokuEvidence F)) :=
  current.foldl (fun groups memory => groups.adjust memory.model [] (· ++ [memory])) .empty

def evidenceScore (evidence : List (KiokuEvidence F)) : F :=
  div (evidence.foldl (fun sum memory => add sum memory.score) sumStart)
    (ofNat evidence.length)

/-- The loop of `evidence_references`. -/
def gatherReferences (maxReferences : Nat) : List (KiokuEvidence F) → List EvidenceReference → List EvidenceReference
  | [], references => references
  | memory :: rest, references =>
    if references.length = maxReferences then references
    else
      let references := references ++ [⟨"kioku_memory", memory.memoryId,
          "observed model " ++ memory.model ++ " quality " ++ fixed3 memory.score⟩]
      match memory.receiptReference.filter fun reference => trim reference ≠ "" with
      | some receipt =>
        if references.length < maxReferences then
          gatherReferences maxReferences rest (references ++
            [⟨"operation_receipt", receipt, "source receipt for memory " ++ memory.memoryId⟩])
        else gatherReferences maxReferences rest references
      | none => gatherReferences maxReferences rest references

def evidenceReferences (evidence : List (KiokuEvidence F)) (maxReferences : Nat) : List EvidenceReference :=
  let ordered := evidence.insertionSort fun left right =>
    ((compare right.observedAtMs.toInt left.observedAtMs.toInt).then (compare left.memoryId right.memoryId)).isLE
  gatherReferences maxReferences (ordered.take maxReferences) []

def refreshAdvisoryIdentity (fingerprints : Fingerprints F) (plan : AllocationPlan F) : AllocationPlan F :=
  let fingerprint := toHex (fingerprints.advisory plan.inputFingerprint plan.selection plan.expected plan.evidence)
  { plan with allocationId := allocationId fingerprint, inputFingerprint := fingerprint }

variable (fingerprints : Fingerprints F) (request : AllocationRequest F) (evidence : List (KiokuEvidence F))
  (policy : AdvisoryPolicy F)

variable (operation : PendingOperation)

def isCandidate (agent : AgentCapacity) (plan : AllocationPlan F)
    (groups : OrderedMap String (List (KiokuEvidence F))) (profile : ModelProfile F) : Bool :=
  profile.model ∈ agent.models && modelAllowed operation profile.model &&
    (checkedMul profile.costPerAttemptUsdMicros (Int64.ofInt plan.attempts.maxAttempts.toNat)).any
      (· ≤ plan.budgetCeilingUsdMicros) &&
    (groups.get profile.model).isSome

def candidates (agent : AgentCapacity) (plan : AllocationPlan F)
    (groups : OrderedMap String (List (KiokuEvidence F))) : List (ModelProfile F) :=
  (request.capacity.modelProfiles.filter (isCandidate operation agent plan groups)).insertionSort fun left right =>
    ((totalCmp (evidenceScore ((groups.get right.model).getD []))
        (evidenceScore ((groups.get left.model).getD []))).then
      (compare left.model right.model)).isLE

def adoptModel (plan : AllocationPlan F) (selected : ModelProfile F) (selectedEvidence : List (KiokuEvidence F)) :
    AllocationPlan F :=
  refreshAdvisoryIdentity fingerprints
    { plan with
      selection := { plan.selection with model := selected.model }
      expected :=
        { quality := evidenceScore selectedEvidence
          costUsdMicros := selected.costPerAttemptUsdMicros
          latencyMs := selected.latencyMs
          uncertainty := min selected.uncertainty
            (div one (add (ofNat selectedEvidence.length) one)) }
      evidence := evidenceReferences selectedEvidence policy.maxEvidenceReferences
      explanation := plan.explanation ++
        ["selected model " ++ selected.model ++ " from " ++ toString selectedEvidence.length ++
          " current Kioku observations"] }

def refineFor (agent : AgentCapacity) (plan : AllocationPlan F) :
    Except Fault (AllocationPlan F) :=
  let groups := byModel
    (currentEvidence evidence plan.nameSpace plan.operationClass request.capacity.capturedAtMs policy)
  match candidates request operation agent plan groups with
  | [] =>
    .ok { plan with explanation := plan.explanation ++ ["no current trusted Kioku evidence changed the baseline"] }
  | selected :: _ => do
    let refined := adoptModel fingerprints policy plan selected ((groups.get selected.model).getD [])
    refined.validate
    return refined

def refinePlan (plan : AllocationPlan F) : Except Fault (AllocationPlan F) := do
  let operation ← orPanic (request.operations.find? (·.operationId = plan.operationId))
  let agent ← orPanic (request.capacity.agents.find? (·.agentId = plan.selection.agentId))
  refineFor fingerprints request evidence policy operation agent plan

/-- The checks at the head of `recommend_advisory`, with those of the baseline. -/
def validateAdvisory : Except Fault Unit := do
  policy.validate
  evidence.forM validateKiokuEvidence
  request.validate

def recommendAdvisory : Except Fault (BaselineAllocation F) := do
  policy.validate
  evidence.forM validateKiokuEvidence
  let allocation ← recommendBaseline fingerprints request
  let plans ← allocation.plans.mapM (refinePlan fingerprints request evidence policy)
  return { allocation with plans }

end

end SekaiChisei.Gunshi
