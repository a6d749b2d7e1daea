import Mathlib
import SekaiChisei.Lib.Fallible
import SekaiChisei.Lib.Hex
import SekaiChisei.Lib.OrderedMap
import SekaiChisei.Lib.Text

/-!
Fleet allocation, `chisei/gunshi.rs`: the baseline allocator. `f64` is a type with the operations that the code uses;
an arithmetic overflow and a failing `expect` are panics.
-/

namespace SekaiChisei.Gunshi
open Lib

inductive Fault where
  | error (message : String)
  | panic

def invalid {α : Type} (message : String) : Except Fault α := .error (.error message)

/-- `if wrong { return Err(message) }`. -/
def rejectIf (wrong : Prop) [Decidable wrong] (message : String) : Except Fault Unit :=
  if wrong then invalid message else .ok ()

def required (name value : String) : Except Fault Unit := rejectIf (trim value = "") (name ++ " is required")

/-- `f64`: its constants, where `sum` starts, `is_finite`, `<=`, `total_cmp`, arithmetic, `min`, `as f64` and
`{:.3}`. -/
class Binary64 (F : Type) where
  zero : F
  one : F
  sumStart : F
  isFinite : F → Bool
  le : F → F → Bool
  totalCmp : F → F → Ordering
  add : F → F → F
  div : F → F → F
  min : F → F → F
  ofNat : Nat → F
  fixed3 : F → String

/-- `value.is_finite() && (0.0..=1.0).contains(&value)`. -/
def inUnit {F : Type} [Binary64 F] (value : F) : Bool :=
  Binary64.isFinite value && (Binary64.le Binary64.zero value && Binary64.le value Binary64.one)

def i64 (value : Int) : Option Int64 :=
  if -2 ^ 63 ≤ value ∧ value < 2 ^ 63 then some (Int64.ofInt value) else none

def checkedMul (a b : Int64) : Option Int64 := i64 (a.toInt * b.toInt)

def checkedSub (a b : Int64) : Option Int64 := i64 (a.toInt - b.toInt)

def u32 (value : Nat) : UInt32 := UInt32.ofNat value

def checkedSub32 (a b : UInt32) : Option UInt32 := if b ≤ a then some (a - b) else none

inductive OperationRisk where
  | low | medium | high | critical

def OperationRisk.rank : OperationRisk → Nat
  | low => 0
  | medium => 1
  | high => 2
  | critical => 3

structure AgentCapacity where
  (agentId runtime : String)
  (models tools operationClasses : Finset String)
  availableSlots : UInt32
  healthy : Bool

structure ModelProfile (F : Type) where
  model : String
  quality : F
  (costPerAttemptUsdMicros latencyMs : Int64)
  uncertainty : F

structure CapacityEnvelope (F : Type) where
  capturedAtMs : Int64
  policyVersion : String
  agents : List AgentCapacity
  modelProfiles : List (ModelProfile F)
  budgetRemainingUsdMicros : Int64
  (maxParallelAttempts humanAttentionMinutes : UInt32)

structure PendingOperation where
  (operationId nameSpace operationClass : String)
  priority : UInt16
  risk : OperationRisk
  submittedAtMs : Int64
  (requiredTools allowedModels : Finset String)
  maxAttempts : UInt32
  budgetCeilingUsdMicros : Int64
  acceptanceCriteria : List String
  approvalRequired : Bool
  humanAttentionMinutesRequired : UInt32

inductive BaselineStrategy where
  | conservative | priorityFirst | throughput

structure Strategy where
  (strategyId version : String)
  baseline : BaselineStrategy

structure AllocationRequest (F : Type) where
  capacity : CapacityEnvelope F
  operations : List PendingOperation
  strategy : Strategy

def checkAgents : Finset String → List AgentCapacity → Except Fault Unit
  | _, [] => .ok ()
  | ids, agent :: rest => do
    required "agent_id" agent.agentId
    required "runtime" agent.runtime
    rejectIf (agent.agentId ∈ ids) ("duplicate agent capacity " ++ agent.agentId)
    rejectIf (∃ model ∈ agent.models, trim model = "") ("agent " ++ agent.agentId ++ " has an empty model")
    checkAgents (insert agent.agentId ids) rest

def checkUnit {F : Type} [Binary64 F] (message : String) (value : F) : Except Fault Unit :=
  rejectIf (¬ inUnit value) message

def checkProfiles {F : Type} [Binary64 F] : Finset String → List (ModelProfile F) → Except Fault Unit
  | _, [] => .ok ()
  | models, profile :: rest => do
    required "model profile model" profile.model
    rejectIf (profile.model ∈ models) ("duplicate model profile " ++ profile.model)
    checkUnit ("model " ++ profile.model ++ " quality must be between 0 and 1") profile.quality
    checkUnit ("model " ++ profile.model ++ " uncertainty must be between 0 and 1") profile.uncertainty
    rejectIf (profile.costPerAttemptUsdMicros < 0 ∨ profile.latencyMs < 0)
      ("model " ++ profile.model ++ " cost and latency must be non-negative")
    checkProfiles (insert profile.model models) rest

def CapacityEnvelope.validate {F : Type} [Binary64 F] (capacity : CapacityEnvelope F) : Except Fault Unit := do
  required "policy_version" capacity.policyVersion
  rejectIf (capacity.budgetRemainingUsdMicros < 0) "capacity budget must be non-negative"
  rejectIf (capacity.maxParallelAttempts = 0) "capacity must allow at least one parallel attempt"
  checkAgents ∅ capacity.agents
  checkProfiles ∅ capacity.modelProfiles

def Strategy.validate (strategy : Strategy) : Except Fault Unit := do
  required "strategy_id" strategy.strategyId
  required "strategy version" strategy.version

variable (operation : PendingOperation)

def PendingOperation.validate : Except Fault Unit := do
  required "operation_id" operation.operationId
  required "namespace" operation.nameSpace
  required "operation_class" operation.operationClass
  rejectIf (operation.maxAttempts = 0) "operation max_attempts must be positive"
  rejectIf (operation.budgetCeilingUsdMicros < 0) "operation budget ceiling must be non-negative"
  rejectIf (operation.acceptanceCriteria.any fun criterion => trim criterion = "")
    "acceptance criteria must not contain empty values"

def checkOperations : Finset String → List PendingOperation → Except Fault Unit
  | _, [] => .ok ()
  | ids, operation :: rest => do
    operation.validate
    rejectIf (operation.operationId ∈ ids) ("duplicate pending operation " ++ operation.operationId)
    checkOperations (insert operation.operationId ids) rest

/-- The checks at the head of `recommend_baseline`. -/
def AllocationRequest.validate {F : Type} [Binary64 F] (request : AllocationRequest F) : Except Fault Unit := do
  request.capacity.validate
  request.strategy.validate
  rejectIf request.operations.isEmpty "at least one pending operation is required"
  checkOperations ∅ request.operations

structure ResourceSelection where
  (agentId runtime model : String)
  tools : List String

structure AttemptStrategy where
  (maxAttempts parallelAttempts : UInt32)
  speculative : Bool

structure VerificationStrategy where
  (checks acceptanceCriteria : List String)
  humanReviewRequired : Bool

structure StopConditions where
  maxCostUsdMicros : Int64
  maxAttempts : UInt32
  deadlineMs : Option Int64
  stopOnAcceptance : Bool

structure EscalationRules where
  (approvalRequired escalateOnBudgetExhaustion : Bool)
  escalateAfterFailedAttempts : UInt32

structure EvidenceReference where
  (kind reference reason : String)

structure ExpectedOutcome (F : Type) where
  quality : F
  (costUsdMicros latencyMs : Int64)
  uncertainty : F

structure AllocationPlan (F : Type) where
  (contractVersion allocationId operationId nameSpace operationClass : String)
  priority : UInt16
  strategy : Strategy
  policyVersion : String
  advisory : Bool
  selection : ResourceSelection
  attempts : AttemptStrategy
  verification : VerificationStrategy
  budgetCeilingUsdMicros : Int64
  stopConditions : StopConditions
  escalation : EscalationRules
  evidence : List EvidenceReference
  expected : ExpectedOutcome F
  explanation : List String
  inputFingerprint : String

def allocationContractVersion : String := "gunshi.allocation/v1"

def AllocationPlan.named {F : Type} (plan : AllocationPlan F) : List (String × String) :=
  [("allocation_id", plan.allocationId), ("operation_id", plan.operationId), ("namespace", plan.nameSpace),
    ("operation_class", plan.operationClass), ("policy_version", plan.policyVersion),
    ("agent_id", plan.selection.agentId), ("runtime", plan.selection.runtime), ("model", plan.selection.model),
    ("input_fingerprint", plan.inputFingerprint)]

def AllocationPlan.validate {F : Type} [Binary64 F] (plan : AllocationPlan F) : Except Fault Unit := do
  rejectIf (plan.contractVersion ≠ allocationContractVersion)
    ("unsupported allocation contract " ++ plan.contractVersion)
  plan.named.forM fun field => required field.1 field.2
  plan.strategy.validate
  rejectIf (plan.attempts.maxAttempts = 0 ∨ plan.attempts.parallelAttempts = 0) "allocation attempts must be positive"
  rejectIf (plan.attempts.maxAttempts < plan.attempts.parallelAttempts) "parallel attempts cannot exceed max attempts"
  rejectIf (plan.budgetCeilingUsdMicros < 0 ∨ plan.stopConditions.maxCostUsdMicros < 0)
    "allocation budget limits must be non-negative"
  rejectIf (plan.budgetCeilingUsdMicros < plan.stopConditions.maxCostUsdMicros)
    "stop cost cannot exceed the allocation budget ceiling"
  rejectIf (plan.stopConditions.maxAttempts ≠ plan.attempts.maxAttempts) "attempt and stop limits must agree"
  checkUnit "expected quality must be between 0 and 1" plan.expected.quality
  checkUnit "expected uncertainty must be between 0 and 1" plan.expected.uncertainty
  rejectIf (plan.expected.costUsdMicros < 0 ∨ plan.expected.latencyMs < 0)
    "expected cost and latency must be non-negative"

def affordableAttempts {F : Type} (profile : ModelProfile F)
    (remainingBudget : Int64) : UInt32 :=
  if profile.costPerAttemptUsdMicros = 0 then operation.maxAttempts
  else
    let affordable := (min operation.budgetCeilingUsdMicros.toInt remainingBudget.toInt).tdiv
      profile.costPerAttemptUsdMicros.toInt
    u32 (min (operation.maxAttempts.toNat : Int) affordable).toNat

def operationOrder (left right : PendingOperation) (strategy : BaselineStrategy) : Ordering :=
  let first :=
    match strategy with
    | .conservative =>
      (compare left.risk.rank right.risk.rank).then (compare right.priority.toNat left.priority.toNat)
    | .priorityFirst => compare right.priority.toNat left.priority.toNat
    | .throughput => compare left.submittedAtMs.toInt right.submittedAtMs.toInt
  (first.then (compare left.submittedAtMs.toInt right.submittedAtMs.toInt)).then
    (compare left.operationId right.operationId)

abbrev Choice (F : Type) := AgentCapacity × ModelProfile F

def modelAllowed (model : String) : Bool :=
  operation.allowedModels = ∅ || model ∈ operation.allowedModels

def agentEligible (slots : OrderedMap String UInt32) (agent : AgentCapacity) : Bool :=
  agent.healthy && 0 < (slots.get agent.agentId).getD 0 &&
    (operation.operationClass ∈ agent.operationClasses || "*" ∈ agent.operationClasses) &&
    operation.requiredTools ⊆ agent.tools

def eligibleChoices {F : Type} (capacity : CapacityEnvelope F)
    (slots : OrderedMap String UInt32) : List (Choice F) :=
  (capacity.agents.filter (agentEligible operation slots)).flatMap fun agent =>
    (capacity.modelProfiles.filter fun profile =>
      profile.model ∈ agent.models && modelAllowed operation profile.model).map fun profile => (agent, profile)

def choiceOrder {F : Type} [Binary64 F] (left right : Choice F) (strategy : BaselineStrategy) : Ordering :=
  let profileOrder :=
    match strategy with
    | .conservative | .priorityFirst =>
      (Binary64.totalCmp right.2.quality left.2.quality).then
        (compare left.2.costPerAttemptUsdMicros.toInt right.2.costPerAttemptUsdMicros.toInt)
    | .throughput =>
      (compare left.2.latencyMs.toInt right.2.latencyMs.toInt).then
        (Binary64.totalCmp right.2.quality left.2.quality)
  (profileOrder.then (compare left.1.agentId right.1.agentId)).then (compare left.2.model right.2.model)

structure AllocationFingerprint (F : Type) where
  request : AllocationRequest F
  operation : PendingOperation
  strategy : Strategy
  agent : AgentCapacity
  profile : ModelProfile F
  remainingBudget : Int64
  (remainingHumanAttention maxAttempts : UInt32)
  budgetCeiling : Int64

structure Fingerprints (F : Type) where
  input : AllocationFingerprint F → List UInt8
  advisory : String → ResourceSelection → ExpectedOutcome F → List EvidenceReference → List UInt8

structure Fingerprints.Lawful {F : Type} (fingerprints : Fingerprints F) : Prop where
  input_length : ∀ input, (fingerprints.input input).length = 32
  advisory_length : ∀ fingerprint selection expected evidence,
    (fingerprints.advisory fingerprint selection expected evidence).length = 32

def allocationId (fingerprint : String) : String := "alloc-" ++ String.ofList (fingerprint.toList.take 16)

def humanReview : Bool :=
  operation.approvalRequired || 1 ≤ operation.risk.rank || 0 < operation.humanAttentionMinutesRequired

def attentionRequired : UInt32 :=
  if humanReview operation then max operation.humanAttentionMinutesRequired 1 else 0

structure UnallocatedOperation where
  (operationId reason : String)

structure BaselineAllocation (F : Type) where
  plans : List (AllocationPlan F)
  unallocated : List UnallocatedOperation

structure Entry where
  operation : PendingOperation
  baseline : BaselineStrategy
  isFallback : Bool

structure Fleet (F : Type) where
  slots : OrderedMap String UInt32
  remainingBudget : Int64
  remainingHumanAttention : UInt32
  plans : List (AllocationPlan F)
  unallocated : List UnallocatedOperation

section
variable {F : Type}

def isFallback (capacity : CapacityEnvelope F) (operation : PendingOperation) : Bool :=
  !capacity.agents.any fun agent =>
    operation.operationClass ∈ agent.operationClasses && operation.operationClass ≠ "*"

def entries (request : AllocationRequest F) : List Entry :=
  request.operations.map fun operation =>
    if isFallback request.capacity operation then ⟨operation, .conservative, true⟩
    else ⟨operation, request.strategy.baseline, false⟩

def entryOrder (left right : Entry) : Ordering :=
  (compare left.isFallback.toNat right.isFallback.toNat).then
    (operationOrder left.operation right.operation left.baseline)

def sortedEntries (request : AllocationRequest F) : List Entry :=
  (entries request).insertionSort fun left right => (entryOrder left right).isLE

def Fleet.start (capacity : CapacityEnvelope F) : Fleet F where
  slots := capacity.agents.foldl
    (fun slots agent => slots.adjust agent.agentId agent.availableSlots fun _ => agent.availableSlots) .empty
  remainingBudget := capacity.budgetRemainingUsdMicros
  remainingHumanAttention := capacity.humanAttentionMinutes
  plans := []
  unallocated := []

def Fleet.refuse (fleet : Fleet F) (operation : PendingOperation) (reason : String) : Fleet F :=
  { fleet with unallocated := fleet.unallocated ++ [⟨operation.operationId, reason⟩] }

def takeSlot (slots : OrderedMap String UInt32) (agentId : String) : Except Fault (OrderedMap String UInt32) :=
  match slots.get agentId with
  | none => .error .panic
  | some count =>
    match checkedSub32 count 1 with
    | none => .error .panic
    | some left => .ok (slots.adjust agentId left fun _ => left)

def orPanic {α : Type} (value : Option α) : Except Fault α :=
  match value with
  | none => .error .panic
  | some value => .ok value

variable [Binary64 F] (fingerprints : Fingerprints F) (request : AllocationRequest F)

def affordable (operation : PendingOperation) (remainingBudget : Int64) (choice : Choice F) : Bool :=
  choice.2.costPerAttemptUsdMicros ≤ operation.budgetCeilingUsdMicros &&
    choice.2.costPerAttemptUsdMicros ≤ remainingBudget

def buildPlan (entry : Entry) (fleet : Fleet F) (agent : AgentCapacity) (profile : ModelProfile F)
    (maxAttempts : UInt32) (budgetCeiling : Int64) : AllocationPlan F :=
  let operation := entry.operation
  let strategy := { request.strategy with baseline := entry.baseline }
  let fingerprint := toHex (fingerprints.input
    ⟨request, operation, strategy, agent, profile, fleet.remainingBudget, fleet.remainingHumanAttention, maxAttempts,
      budgetCeiling⟩)
  { contractVersion := allocationContractVersion
    allocationId := allocationId fingerprint
    operationId := operation.operationId
    nameSpace := operation.nameSpace
    operationClass := operation.operationClass
    priority := operation.priority
    strategy
    policyVersion := request.capacity.policyVersion
    advisory := true
    selection := ⟨agent.agentId, agent.runtime, profile.model, operation.requiredTools.sort (· ≤ ·)⟩
    attempts := ⟨maxAttempts, 1, false⟩
    verification := ⟨["operation_receipt_complete"], operation.acceptanceCriteria, humanReview operation⟩
    budgetCeilingUsdMicros := budgetCeiling
    stopConditions := ⟨budgetCeiling, maxAttempts, none, true⟩
    escalation := ⟨operation.approvalRequired, true, maxAttempts⟩
    evidence := []
    expected := ⟨profile.quality, profile.costPerAttemptUsdMicros, profile.latencyMs, profile.uncertainty⟩
    explanation :=
      ["selected healthy agent " ++ agent.agentId ++ " with an available slot",
        "selected model " ++ profile.model ++ " within the operation and fleet budget ceilings"] ++
        if entry.isFallback then
          ["unknown operation class " ++ operation.operationClass ++ " uses the conservative baseline"]
        else []
    inputFingerprint := fingerprint }

def placeOperation (entry : Entry) (fleet : Fleet F) (agent : AgentCapacity) (profile : ModelProfile F) :
    Except Fault (Fleet F) := do
  let maxAttempts := affordableAttempts entry.operation profile fleet.remainingBudget
  let budgetCeiling ←
    match checkedMul profile.costPerAttemptUsdMicros (Int64.ofInt maxAttempts.toNat) with
    | none => invalid ("attempt budget overflow for " ++ entry.operation.operationId)
    | some budgetCeiling => .ok budgetCeiling
  let plan := buildPlan fingerprints request entry fleet agent profile maxAttempts budgetCeiling
  plan.validate
  let slots ← takeSlot fleet.slots agent.agentId
  let remainingBudget ← orPanic (checkedSub fleet.remainingBudget budgetCeiling)
  let remainingHumanAttention ←
    orPanic (checkedSub32 fleet.remainingHumanAttention (attentionRequired entry.operation))
  return {
    slots
    remainingBudget
    remainingHumanAttention
    plans := fleet.plans ++ [plan]
    unallocated := fleet.unallocated }

def allocateOperation (fleet : Fleet F) (entry : Entry) : Except Fault (Fleet F) :=
  if request.capacity.maxParallelAttempts.toNat ≤ fleet.plans.length then
    .ok (fleet.refuse entry.operation "fleet parallel-attempt capacity exhausted")
  else if fleet.remainingHumanAttention < attentionRequired entry.operation then
    .ok (fleet.refuse entry.operation "human-attention capacity exhausted")
  else
    let choices := (eligibleChoices entry.operation request.capacity fleet.slots).insertionSort fun left right =>
      (choiceOrder left right entry.baseline).isLE
    match choices.find? (affordable entry.operation fleet.remainingBudget) with
    | none => .ok (fleet.refuse entry.operation "no healthy eligible capacity within policy and budget limits")
    | some (agent, profile) => placeOperation fingerprints request entry fleet agent profile

def recommendBaseline : Except Fault (BaselineAllocation F) := do
  request.validate
  let fleet ← (sortedEntries request).foldlM (allocateOperation fingerprints request) (Fleet.start request.capacity)
  return ⟨fleet.plans, fleet.unallocated⟩

end

end SekaiChisei.Gunshi
