import SekaiChisei.Gunshi.Advisory

/-! What the input checks of the allocator establish, and that the plans it builds from checked inputs pass theirs. -/

namespace SekaiChisei.Gunshi
open Lib List

@[simp] theorem rejectIf_ok {wrong : Prop} [Decidable wrong] {message : String} :
    rejectIf wrong message = .ok () ↔ ¬ wrong := by
  unfold rejectIf
  by_cases bad : wrong
  · simp [bad, invalid]
  · simp [bad]

@[simp] theorem required_ok {name value : String} : required name value = .ok () ↔ trim value ≠ "" := rejectIf_ok

section
variable {F : Type} [Binary64 F]

@[simp] theorem checkUnit_ok {message : String} {value : F} :
    checkUnit message value = .ok () ↔ inUnit value = true := by
  unfold checkUnit
  rw [rejectIf_ok, not_not]

structure AgentNamed (agent : AgentCapacity) : Prop where
  agentId : trim agent.agentId ≠ ""
  runtime : trim agent.runtime ≠ ""

variable {ids : Finset String} {value : Int64}

theorem checkAgents_ok {agents : List AgentCapacity} (fine : checkAgents ids agents = .ok ()) :
    (∀ agent ∈ agents, AgentNamed agent) ∧ (agents.map AgentCapacity.agentId).Nodup ∧
      ∀ agent ∈ agents, agent.agentId ∉ ids := by
  induction agents generalizing ids with
  | nil => simp
  | cons agent agents ih =>
    simp only [checkAgents, check_eq_ok, required_ok, rejectIf_ok] at fine
    obtain ⟨agentId, runtime, fresh, _, rest⟩ := fine
    obtain ⟨named, later⟩ := ih rest
    refine ⟨forall_mem_cons.mpr ⟨⟨agentId, runtime⟩, named⟩, ?_⟩
    exact nodup_keys_cons (P := (· ∈ ids)) fresh (by simpa using later)

structure ProfileValid (profile : ModelProfile F) : Prop where
  model : trim profile.model ≠ ""
  quality : inUnit profile.quality = true
  uncertainty : inUnit profile.uncertainty = true
  cost : 0 ≤ profile.costPerAttemptUsdMicros.toInt
  latency : 0 ≤ profile.latencyMs.toInt

theorem nonneg_of_not_lt (notNegative : ¬ value < 0) : 0 ≤ value.toInt := by
  rw [Int64.lt_iff_toInt_lt, Int64.toInt_zero] at notNegative
  exact Int.not_lt.mp notNegative

theorem not_lt_of_nonneg (nonneg : 0 ≤ value.toInt) : ¬ value < 0 := by
  rw [Int64.lt_iff_toInt_lt, Int64.toInt_zero]
  exact Int.not_lt.mpr nonneg

theorem checkProfiles_ok {models : Finset String} {profiles : List (ModelProfile F)}
    (fine : checkProfiles models profiles = .ok ()) : ∀ profile ∈ profiles, ProfileValid profile := by
  induction profiles generalizing models with
  | nil => simp
  | cons profile profiles ih =>
    simp only [checkProfiles, check_eq_ok, required_ok, rejectIf_ok, checkUnit_ok, not_or] at fine
    obtain ⟨model, _, quality, uncertainty, ⟨cost, latency⟩, rest⟩ := fine
    refine forall_mem_cons.mpr ⟨?_, ih rest⟩
    exact ⟨model, quality, uncertainty, nonneg_of_not_lt cost, nonneg_of_not_lt latency⟩

structure OperationValid (operation : PendingOperation) : Prop where
  operationId : trim operation.operationId ≠ ""
  nameSpace : trim operation.nameSpace ≠ ""
  operationClass : trim operation.operationClass ≠ ""
  maxAttempts : operation.maxAttempts ≠ 0
  budgetCeiling : 0 ≤ operation.budgetCeilingUsdMicros.toInt

theorem operation_validate_ok {operation : PendingOperation} (fine : operation.validate = .ok ()) :
    OperationValid operation := by
  simp only [PendingOperation.validate, check_eq_ok, required_ok, rejectIf_ok] at fine
  obtain ⟨operationId, nameSpace, operationClass, maxAttempts, ceiling, _⟩ := fine
  exact ⟨operationId, nameSpace, operationClass, maxAttempts, nonneg_of_not_lt ceiling⟩

theorem checkOperations_ok {operations : List PendingOperation} (fine : checkOperations ids operations = .ok ()) :
    (∀ operation ∈ operations, OperationValid operation) ∧ (operations.map PendingOperation.operationId).Nodup ∧
      ∀ operation ∈ operations, operation.operationId ∉ ids := by
  induction operations generalizing ids with
  | nil => simp
  | cons operation operations ih =>
    simp only [checkOperations, check_eq_ok, rejectIf_ok] at fine
    obtain ⟨valid, fresh, rest⟩ := fine
    obtain ⟨named, later⟩ := ih rest
    refine ⟨forall_mem_cons.mpr ⟨operation_validate_ok valid, named⟩, ?_⟩
    exact nodup_keys_cons (P := (· ∈ ids)) fresh (by simpa using later)

structure Checked (request : AllocationRequest F) : Prop where
  policyVersion : trim request.capacity.policyVersion ≠ ""
  budget : 0 ≤ request.capacity.budgetRemainingUsdMicros.toInt
  agents : ∀ agent ∈ request.capacity.agents, AgentNamed agent
  agentIds : (request.capacity.agents.map AgentCapacity.agentId).Nodup
  profiles : ∀ profile ∈ request.capacity.modelProfiles, ProfileValid profile
  strategyId : trim request.strategy.strategyId ≠ ""
  version : trim request.strategy.version ≠ ""
  operations : ∀ operation ∈ request.operations, OperationValid operation
  operationIds : (request.operations.map PendingOperation.operationId).Nodup

theorem request_validate_ok {request : AllocationRequest F} (fine : request.validate = .ok ()) : Checked request := by
  simp only [AllocationRequest.validate, CapacityEnvelope.validate, Strategy.validate, check_eq_ok, required_ok,
    rejectIf_ok] at fine
  obtain ⟨⟨policyVersion, budget, _, agents, profiles⟩, ⟨strategyId, version⟩, _, operations⟩ := fine
  obtain ⟨named, agentIds, _⟩ := checkAgents_ok agents
  obtain ⟨valid, operationIds, _⟩ := checkOperations_ok operations
  exact ⟨policyVersion, nonneg_of_not_lt budget, named, agentIds, checkProfiles_ok profiles, strategyId, version,
    valid, operationIds⟩

structure PlanValid (plan : AllocationPlan F) : Prop where
  contractVersion : plan.contractVersion = allocationContractVersion
  named : ∀ field ∈ plan.named, trim field.2 ≠ ""
  strategyId : trim plan.strategy.strategyId ≠ ""
  version : trim plan.strategy.version ≠ ""
  attempts : plan.attempts.maxAttempts ≠ 0 ∧ plan.attempts.parallelAttempts ≠ 0
  parallel : ¬ plan.attempts.maxAttempts < plan.attempts.parallelAttempts
  budgets : ¬ plan.budgetCeilingUsdMicros < 0 ∧ ¬ plan.stopConditions.maxCostUsdMicros < 0
  stopCost : ¬ plan.budgetCeilingUsdMicros < plan.stopConditions.maxCostUsdMicros
  stopAttempts : plan.stopConditions.maxAttempts = plan.attempts.maxAttempts
  quality : inUnit plan.expected.quality = true
  uncertainty : inUnit plan.expected.uncertainty = true
  expected : ¬ plan.expected.costUsdMicros < 0 ∧ ¬ plan.expected.latencyMs < 0

theorem plan_validate_ok {plan : AllocationPlan F} : plan.validate = .ok () ↔ PlanValid plan := by
  simp only [AllocationPlan.validate, Strategy.validate, check_eq_ok, forM_eq_ok, required_ok, rejectIf_ok,
    checkUnit_ok, not_or, not_not]
  constructor
  · rintro ⟨contract, named, ⟨strategyId, version⟩, attempts, parallel, budgets, stopCost, stopAttempts, quality,
      uncertainty, expected⟩
    exact ⟨contract, named, strategyId, version, attempts, parallel, budgets, stopCost, stopAttempts, quality,
      uncertainty, expected⟩
  · intro valid
    exact ⟨valid.contractVersion, valid.named, ⟨valid.strategyId, valid.version⟩, valid.attempts, valid.parallel,
      valid.budgets, valid.stopCost, valid.stopAttempts, valid.quality, valid.uncertainty, valid.expected⟩

theorem trim_toHex {bytes : List UInt8} (length : bytes.length = 32) : trim (toHex bytes) ≠ "" := by
  obtain ⟨byte, rest, rfl⟩ : ∃ byte rest, bytes = byte :: rest := by
    cases bytes with
    | nil => cases length
    | cons byte rest => exact ⟨byte, rest, rfl⟩
  have member : hexDigit (byte.toNat / 16) ∈ (toHex (byte :: rest)).toList := by
    rw [toHex, String.toList_ofList, flatMap_cons]
    exact mem_append_left _ mem_cons_self
  have visible : ∀ n < 16, isWhitespace (hexDigit n) = false := by decide
  have small := byte.toNat_lt
  exact trim_ne_empty member (visible _ (by omega))

theorem trim_allocationId (fingerprint : String) : trim (allocationId fingerprint) ≠ "" := by
  have member : 'a' ∈ (allocationId fingerprint).toList := by
    simp [allocationId, String.toList_append]
  exact trim_ne_empty member (by decide)

end

end SekaiChisei.Gunshi
