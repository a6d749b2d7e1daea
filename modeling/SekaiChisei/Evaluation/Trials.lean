import SekaiChisei.Evaluation.Steps

/-!
`execute_stochastic_node` of `chisei/evaluation_execution.rs`. Clocks, threads, cancellation and the evaluator are an
`Environment`: what each attempt of each trial came to.
-/

namespace SekaiChisei.Evaluation
open Lib Lib.Json

def evaluatorInputContract : String := "chisei.deterministic-evaluator-input/v1"

def reasonEvaluatorUnavailable : String := "evaluator_unavailable"
def reasonEvaluatorTimeout : String := "evaluator_timeout"
def reasonEvaluatorPanic : String := "evaluator_panic"
def reasonEvaluatorCapacity : String := "evaluator_capacity_exhausted"
def reasonInputLimit : String := "input_limit_exceeded"
def reasonOutputLimit : String := "output_limit_exceeded"
def reasonEvidenceLimit : String := "evidence_limit_exceeded"
def reasonTotalBudget : String := "total_budget_exhausted"
def reasonStochasticProviderUnavailable : String := "stochastic_provider_unavailable"
def reasonStochasticRefusal : String := "stochastic_provider_refusal"
def reasonStochasticSchemaInvalid : String := "stochastic_result_schema_invalid"
def reasonStochasticTokenBudget : String := "stochastic_token_budget_exhausted"

def maxResultBytes : Nat := 64 * 1024

/-- The timeout of an attempt is part of the `Environment`. -/
structure EvaluatorResourceLimits where
  (maxInputBytes maxOutputBytes maxEvidenceItems : Nat)

structure EvaluationEvidenceInput where
  (evidenceObjectId submissionId contentDigest schemaId schemaVersion : String)
  content : Value

structure DependencyResultInput where
  (nodeId status resultDigest : String)

structure DeterministicEvaluatorInput where
  (contractVersion manifestDigest nodeId subjectProfile subjectIdentity subjectContentDigest : String)
  parameters : Value
  invariants : List ResolvedInvariantBinding
  evidence : List EvaluationEvidenceInput
  dependencyResults : List DependencyResultInput

def ResolvedInvariantBinding.toJson (invariant : ResolvedInvariantBinding) : Value :=
  .object [("invariant_version_id", .string invariant.invariantVersionId),
    ("content_digest", .string invariant.contentDigest),
    ("predicate_kind", .string invariant.predicateKind), ("input_schema", .string invariant.inputSchema),
    ("result_schema", .string invariant.resultSchema), ("evidence_types", .strings invariant.evidenceTypes),
    ("provenance_evidence_object_ids", .strings invariant.provenanceEvidenceObjectIds),
    ("waiver_version_ids", .strings invariant.waiverVersionIds)]

def EvaluationEvidenceInput.toJson (evidence : EvaluationEvidenceInput) : Value :=
  .object [("evidence_object_id", .string evidence.evidenceObjectId),
    ("submission_id", .string evidence.submissionId), ("content_digest", .string evidence.contentDigest),
    ("schema_id", .string evidence.schemaId), ("schema_version", .string evidence.schemaVersion),
    ("content", evidence.content)]

def DependencyResultInput.toJson (dependency : DependencyResultInput) : Value :=
  .object [("node_id", .string dependency.nodeId), ("status", .string dependency.status),
    ("result_digest", .string dependency.resultDigest)]

def DeterministicEvaluatorInput.toJson (input : DeterministicEvaluatorInput) : Value :=
  .object [("contract_version", .string input.contractVersion),
    ("manifest_digest", .string input.manifestDigest), ("node_id", .string input.nodeId),
    ("subject_profile", .string input.subjectProfile), ("subject_identity", .string input.subjectIdentity),
    ("subject_content_digest", .string input.subjectContentDigest), ("parameters", input.parameters),
    ("invariants", .array (input.invariants.map ResolvedInvariantBinding.toJson)),
    ("evidence", .array (input.evidence.map EvaluationEvidenceInput.toJson)),
    ("dependency_results", .array (input.dependencyResults.map DependencyResultInput.toJson))]

def validateInput (manifest : ResolvedEvaluationManifest) (node : ResolvedEvaluationNode)
    (input : DeterministicEvaluatorInput) (limits : EvaluatorResourceLimits) : Except String Unit :=
  if input.contractVersion ≠ evaluatorInputContract ∨
      input.manifestDigest ≠ manifest.manifestDigest ∨ input.nodeId ≠ node.nodeId then
    .error "deterministic evaluator input binding is invalid"
  else if input.evidence.length > limits.maxEvidenceItems then .error reasonEvidenceLimit
  else if input.toJson.size > limits.maxInputBytes then .error reasonInputLimit
  else .ok ()

structure StochasticTrialOutput where
  contractVersion : String
  passed : Bool
  scoreMicros : Nat
  reasonCode : String
  result : Value
  (inputTokens outputTokens : Nat)

inductive StochasticTrialError where
  | retryable
  | providerUnavailable
  | tokenBudgetExceeded
  | refusal (inputTokens outputTokens : Nat)
  | schemaInvalid (inputTokens outputTokens : Nat)

inductive AttemptOutcome where
  | outOfTime
  | noThread
  | cancelled
  | timedOut
  | panicked
  | replied (reply : Except StochasticTrialError StochasticTrialOutput)

/-- `runtime` is the start of the asynchronous runtime, `cancelled` the flag as a trial begins; attempts of
a trial count from one. -/
structure Environment where
  registered : String → Bool
  expired : Bool
  runtime : Except String Unit
  cancelled : Nat → Bool
  attempt : Nat → Nat → AttemptOutcome

/-- `stochastic_error_status`. -/
def StochasticTrialError.status : StochasticTrialError → String × String
  | retryable | providerUnavailable => (statusUnavailable, reasonStochasticProviderUnavailable)
  | tokenBudgetExceeded => (statusUnavailable, reasonStochasticTokenBudget)
  | refusal _ _ => (statusUnknown, reasonStochasticRefusal)
  | schemaInvalid _ _ => (statusError, reasonStochasticSchemaInvalid)

/-- `stochastic_error_tokens`. -/
def StochasticTrialError.tokens : StochasticTrialError → Nat × Nat
  | refusal inputTokens outputTokens | schemaInvalid inputTokens outputTokens =>
    (inputTokens, outputTokens)
  | _ => (0, 0)

def StochasticTrialOutput.toJson (output : StochasticTrialOutput) : Value :=
  .object [("contract_version", .string output.contractVersion), ("passed", .bool output.passed),
    ("score_micros", .int output.scoreMicros), ("reason_code", .string output.reasonCode),
    ("result", output.result), ("input_tokens", .int output.inputTokens),
    ("output_tokens", .int output.outputTokens)]

def validateStochasticOutput (output : StochasticTrialOutput) (policy : StochasticEvaluatorPolicy)
    (limits : EvaluatorResourceLimits) : Except String StochasticTrialOutput :=
  if output.contractVersion ≠ stochasticResultSchema ∨ output.scoreMicros > 1000000 ∨
      validateReasonCode output.reasonCode ≠ .ok () ∨
      saturated (output.inputTokens + output.outputTokens) > policy.maxTokensPerTrial then
    .error reasonStochasticSchemaInvalid
  else if { output with result := output.result.canonical }.toJson.size >
      min limits.maxOutputBytes maxResultBytes then
    .error reasonOutputLimit
  else .ok { output with result := output.result.canonical }

structure Slot where
  trialIndex : Nat
  seed : Int
  (attempt retryAccountedTokens : Nat)

section
variable (platform : Platform)

/-- `stochastic_failure_evidence_with_usage`. -/
def failureEvidence (slot : Slot) (status reasonCode : String) (inputTokens outputTokens : Nat) :
    StochasticTrialEvidence where
  trialIndex := slot.trialIndex
  seed := slot.seed
  attemptCount := slot.attempt
  status := status
  reasonCode := reasonCode
  scoreMicros := 0
  inputTokens := inputTokens
  outputTokens := outputTokens
  retryAccountedTokens := slot.retryAccountedTokens
  resultDigest := digestJson platform (.array [.string stochasticResultSchema, .int slot.trialIndex,
    .int slot.seed, .int slot.attempt, .string status, .string reasonCode, .int 0, .int inputTokens,
    .int outputTokens, .int slot.retryAccountedTokens])

def trialStatus (output : StochasticTrialOutput) : String :=
  if output.passed then statusPass else statusFail

/-- `stochastic_success_evidence`. -/
def successEvidence (slot : Slot) (output : StochasticTrialOutput) : StochasticTrialEvidence where
  trialIndex := slot.trialIndex
  seed := slot.seed
  attemptCount := slot.attempt
  status := trialStatus output
  reasonCode := output.reasonCode
  scoreMicros := output.scoreMicros
  inputTokens := output.inputTokens
  outputTokens := output.outputTokens
  retryAccountedTokens := slot.retryAccountedTokens
  resultDigest := digestJson platform (.array [.string stochasticResultSchema, .int slot.trialIndex,
    .int slot.seed, .int slot.attempt, .string (trialStatus output), .string output.reasonCode,
    .int output.scoreMicros, .int output.inputTokens, .int output.outputTokens,
    .int slot.retryAccountedTokens, output.result])

inductive Progress where
  | again (retryAccountedTokens totalTokens : Nat)
  | done (trial : StochasticTrialEvidence) (totalTokens : Nat)

/-- `saturating_add` of `u64`. -/
def addTokens (totalTokens inputTokens outputTokens : Nat) : Nat :=
  min (totalTokens + inputTokens + outputTokens) u64Max

variable (policy : StochasticEvaluatorPolicy) (limits : EvaluatorResourceLimits)

def Slot.retried (slot : Slot) : Slot :=
  { slot with retryAccountedTokens := saturated (slot.retryAccountedTokens + policy.maxTokensPerTrial) }

def retryAttempt (slot : Slot) (totalTokens : Nat) : Progress :=
  if addTokens totalTokens policy.maxTokensPerTrial 0 > policy.maxTotalTokens then
    .done (failureEvidence platform (slot.retried policy) statusUnavailable
      reasonStochasticTokenBudget 0 0) (addTokens totalTokens policy.maxTokensPerTrial 0)
  else if slot.attempt ≤ policy.maxRetriesPerTrial then
    .again (slot.retried policy).retryAccountedTokens (addTokens totalTokens policy.maxTokensPerTrial 0)
  else
    .done (failureEvidence platform (slot.retried policy) statusUnavailable
      reasonStochasticProviderUnavailable 0 0) (addTokens totalTokens policy.maxTokensPerTrial 0)

def reportedFailure (slot : Slot) (totalTokens : Nat) (status reasonCode : String)
    (inputTokens outputTokens : Nat) : Progress :=
  if addTokens totalTokens inputTokens outputTokens > policy.maxTotalTokens then
    .done (failureEvidence platform slot statusUnavailable reasonStochasticTokenBudget inputTokens
      outputTokens) (addTokens totalTokens inputTokens outputTokens)
  else
    .done (failureEvidence platform slot status reasonCode inputTokens outputTokens)
      (addTokens totalTokens inputTokens outputTokens)

def completedAttempt (slot : Slot) (totalTokens : Nat) (output : StochasticTrialOutput) : Progress :=
  if addTokens totalTokens output.inputTokens output.outputTokens > policy.maxTotalTokens then
    .done (failureEvidence platform slot statusUnavailable reasonStochasticTokenBudget 0 0)
      (addTokens totalTokens output.inputTokens output.outputTokens)
  else
    .done (successEvidence platform slot output) (addTokens totalTokens output.inputTokens output.outputTokens)

def runAttempt (slot : Slot) (totalTokens : Nat) : AttemptOutcome → Progress
  | .outOfTime =>
    .done (failureEvidence platform slot statusUnavailable reasonTotalBudget 0 0) totalTokens
  | .noThread =>
    .done (failureEvidence platform slot statusUnavailable reasonEvaluatorCapacity 0 0) totalTokens
  | .cancelled =>
    .done (failureEvidence platform slot statusSkipped reasonExecutionCancelled 0 0) totalTokens
  | .timedOut =>
    .done (failureEvidence platform slot statusUnavailable reasonEvaluatorTimeout 0 0) totalTokens
  | .panicked => .done (failureEvidence platform slot statusError reasonEvaluatorPanic 0 0) totalTokens
  | .replied (.error .retryable) => retryAttempt platform policy slot totalTokens
  | .replied (.error error) =>
    reportedFailure platform policy slot totalTokens error.status.1 error.status.2 error.tokens.1 error.tokens.2
  | .replied (.ok output) =>
    match validateStochasticOutput output policy limits with
    | .ok valid => completedAttempt platform policy slot totalTokens valid
    | .error reason =>
      reportedFailure platform policy slot totalTokens statusError reason output.inputTokens output.outputTokens

def runAttempts (outcome : Nat → AttemptOutcome) : Nat → Slot → Nat → Option (StochasticTrialEvidence × Nat)
  | 0, _, _ => none
  | left + 1, slot, totalTokens =>
    match runAttempt platform policy limits slot totalTokens (outcome slot.attempt) with
    | .done trial totalTokens => some (trial, totalTokens)
    | .again retryAccountedTokens totalTokens =>
      runAttempts outcome left { slot with attempt := slot.attempt + 1, retryAccountedTokens } totalTokens

structure Population where
  trials : List StochasticTrialEvidence
  terminalFailure : Bool
  totalTokens : Nat
  deriving DecidableEq

def trialAttempts (environment : Environment) (trialIndex : Nat) (seed : Int) (totalTokens : Nat) :
    Option (StochasticTrialEvidence × Nat) :=
  runAttempts platform policy limits (environment.attempt trialIndex) (policy.maxRetriesPerTrial + 1)
    ⟨trialIndex, seed, 1, 0⟩ totalTokens

def runTrial (environment : Environment) (population : Population) (trialIndex : Nat) : Except String Population := do
  let seed ← stochasticSeed policy trialIndex
  if population.terminalFailure then
    .ok { population with trials := population.trials ++ [failureEvidence platform
      ⟨trialIndex, seed, 0, 0⟩ statusSkipped reasonStochasticPopulationIncomplete 0 0] }
  else if environment.cancelled trialIndex then
    .ok { population with
      trials := population.trials ++ [failureEvidence platform ⟨trialIndex, seed, 0, 0⟩ statusSkipped
        reasonExecutionCancelled 0 0]
      terminalFailure := true }
  else match trialAttempts platform policy limits environment trialIndex seed population.totalTokens with
    | none => .error "stochastic trial did not terminate"
    | some (trial, totalTokens) => .ok {
        trials := population.trials ++ [trial]
        terminalFailure := ! isCompleted trial.status
        totalTokens }

def runTrials (environment : Environment) : Except String Population :=
  (List.range policy.trialCount).foldlM (runTrial platform policy limits environment) ⟨[], false, 0⟩

end

section
variable (platform : Platform) (manifest : ResolvedEvaluationManifest) (node : ResolvedEvaluationNode)

/-- The receipt of `make_framework_step`, before its checks. -/
def frameworkReceipt (input : DeterministicEvaluatorInput) (status reasonCode : String)
    (result : Value) (stochasticEvidence : Option StochasticStepEvidence) : EvaluationStepReceipt where
  contractVersion := stepReceiptContract
  manifestDigest := manifest.manifestDigest
  nodeId := node.nodeId
  classification := node.classification
  status := status
  reasonCode := reasonCode
  inputDigest := digestJson platform input.toJson
  parametersDigest := digestJson platform input.parameters
  evaluatorDefinitionDigest := node.evaluator.definitionDigest
  implementationDigest := node.evaluator.implementationDigest
  evidenceDigests := (input.evidence.map EvaluationEvidenceInput.contentDigest).insertionSort (· ≤ ·)
  dependencyResultDigests :=
    (input.dependencyResults.map DependencyResultInput.resultDigest).insertionSort (· ≤ ·)
  resultDigest := digestJson platform (resultContent status reasonCode result)
  stochasticEvidence := stochasticEvidence
  stepReceiptDigest := ""

def EvaluationStepReceipt.stamped (receipt : EvaluationStepReceipt) : EvaluationStepReceipt :=
  { receipt with stepReceiptDigest := receipt.digest platform }

def makeFrameworkStep (input : DeterministicEvaluatorInput) (status reasonCode : String)
    (result : Value) : Except String EvaluationStepReceipt := do
  validateStatus status
  validateReasonCode reasonCode
  let receipt := (frameworkReceipt platform manifest node input status reasonCode result none).stamped platform
  ensureDocumentSize receipt.toJson "evaluation step receipt"
  .ok receipt

def evidenceContent (policy : StochasticEvaluatorPolicy) (trials : List StochasticTrialEvidence) :
    StochasticStepEvidence where
  contractVersion := stochasticStepEvidenceContract
  provider := policy.provider
  model := policy.model
  promptProfile := policy.promptProfile
  promptProfileDigest := policy.promptProfileDigest
  resultSchema := policy.resultSchema
  trialCount := policy.trialCount
  aggregationRule := policy.aggregationRule
  minimumMeanScoreMicros := policy.minimumMeanScoreMicros
  minimumPassRateBasisPoints := policy.minimumPassRateBasisPoints
  maximumScoreVarianceMicrosSquared := policy.maximumScoreVarianceMicrosSquared
  gateEligible := policy.gateEligible
  completedTrialCount := (deriveStochasticAggregate policy trials).completedTrialCount
  meanScoreMicros := (deriveStochasticAggregate policy trials).meanScoreMicros
  passRateBasisPoints := (deriveStochasticAggregate policy trials).passRateBasisPoints
  scoreVarianceMicrosSquared := (deriveStochasticAggregate policy trials).scoreVarianceMicrosSquared
  totalInputTokens := (deriveStochasticAggregate policy trials).totalInputTokens
  totalOutputTokens := (deriveStochasticAggregate policy trials).totalOutputTokens
  totalRetryAccountedTokens := (deriveStochasticAggregate policy trials).totalRetryAccountedTokens
  trials := trials
  aggregateDigest := ""

def stepEvidence (policy : StochasticEvaluatorPolicy) (trials : List StochasticTrialEvidence) :
    StochasticStepEvidence :=
  { evidenceContent policy trials with
    aggregateDigest := stochasticAggregateDigest platform (evidenceContent policy trials) }

def makeStochasticStep (input : DeterministicEvaluatorInput) (policy : StochasticEvaluatorPolicy)
    (trials : List StochasticTrialEvidence) : Except String EvaluationStepReceipt := do
  let aggregate := deriveStochasticAggregate policy trials
  let evidence := stepEvidence platform policy trials
  let receipt ← makeFrameworkStep platform manifest node input aggregate.status aggregate.reasonCode
    (aggregateResult evidence.aggregateDigest aggregate)
  let receipt := { receipt with stochasticEvidence := some evidence }.stamped platform
  ensureDocumentSize receipt.toJson "stochastic evaluation step receipt"
  .ok receipt

def executeStochasticNode (environment : Environment) (input : DeterministicEvaluatorInput)
    (limits : EvaluatorResourceLimits) : Except String EvaluationStepReceipt :=
  match node.evaluator.stochasticPolicy with
  | none => .error "stochastic node lacks frozen policy"
  | some policy => do
    validateStochasticPolicy platform policy [policy.resultSchema]
    match validateInput manifest node input limits with
    | .error reason => makeFrameworkStep platform manifest node input statusError reason .null
    | .ok () =>
      if ¬ environment.registered node.evaluator.implementationDigest then
        makeFrameworkStep platform manifest node input statusUnavailable reasonEvaluatorUnavailable .null
      else if environment.expired then
        makeFrameworkStep platform manifest node input statusUnavailable reasonTotalBudget .null
      else do
        environment.runtime.mapError ("start stochastic evaluator runtime: " ++ ·)
        let population ← runTrials platform policy limits environment
        makeStochasticStep platform manifest node input policy population.trials

end

end SekaiChisei.Evaluation
