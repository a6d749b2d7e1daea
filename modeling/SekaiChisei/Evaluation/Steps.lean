import SekaiChisei.Evaluation.Plan

/-!
Resolved manifests, receipts of evaluation steps and their validation: `chisei/evaluation_manifest.rs` and
`chisei/evaluation_execution.rs`. A receipt is read from storage.
-/

namespace SekaiChisei.Evaluation
open Lib Lib.Json
open Receipts (textBytes stripPrefix)

def evaluatorResultContract : String := "chisei.deterministic-evaluator-result/v1"
def stochasticStepEvidenceContract : String := "chisei.stochastic-step-evidence/v1"
def stepReceiptContract : String := "chisei.evaluation-step-receipt/v1"

def statusPass : String := "pass"
def statusFail : String := "fail"
def statusUnknown : String := "unknown"
def statusUnavailable : String := "unavailable"
def statusError : String := "error"
def statusSkipped : String := "skipped"
def statusCancelled : String := "cancelled"

def reasonExecutionCancelled : String := "execution_cancelled"
def reasonStochasticPopulationIncomplete : String := "stochastic_population_incomplete"
def reasonStochasticAccepted : String := "stochastic_acceptance_rule_satisfied"
def reasonStochasticRejected : String := "stochastic_acceptance_rule_not_satisfied"

def maxReasonCodeBytes : Nat := 128
def maxExecutionDocumentBytes : Nat := 512 * 1024

structure ResolvedEvaluatorBinding where
  (definitionId definitionDigest implementationDigest : String)
  stochasticPolicy : Option StochasticEvaluatorPolicy

structure ResolvedInvariantBinding where
  (invariantVersionId contentDigest predicateKind inputSchema resultSchema : String)
  (evidenceTypes provenanceEvidenceObjectIds waiverVersionIds : List String)

structure ResolvedWaiverBinding where
  (waiverVersionId contentDigest : String)
  (evidenceObjectIds invariantVersionIds : List String)

structure ResolvedEvaluationNode where
  nodeId : String
  evaluator : ResolvedEvaluatorBinding
  dependsOnNodeIds : List String
  inputBindings : List EvaluationInputBinding
  parametersJson : String
  invariants : List ResolvedInvariantBinding
  evidenceObjectIds : List String
  classification : String

structure ResolvedEvaluationManifest where
  (manifestDigest nameSpace : String)
  nodes : List ResolvedEvaluationNode
  waivers : List ResolvedWaiverBinding

structure ResolvedFrom (node : EvaluationPlanNode) (resolved : ResolvedEvaluationNode) : Prop where
  nodeId : resolved.nodeId = node.nodeId
  definitionId : resolved.evaluator.definitionId = node.evaluatorDefinitionId
  dependsOnNodeIds : resolved.dependsOnNodeIds = node.dependsOnNodeIds
  inputBindings : resolved.inputBindings = node.inputBindings
  parametersJson : resolved.parametersJson = node.parametersJson
  invariants : resolved.invariants.map ResolvedInvariantBinding.invariantVersionId = node.invariantVersionIds
  classification : resolved.classification = node.classification

def BuiltFrom (plan : EvaluationPlan) (manifest : ResolvedEvaluationManifest) : Prop :=
  List.Forall₂ ResolvedFrom plan.nodes manifest.nodes

structure StochasticTrialEvidence where
  trialIndex : Nat
  seed : Int
  attemptCount : Nat
  (status reasonCode : String)
  (scoreMicros inputTokens outputTokens retryAccountedTokens : Nat)
  resultDigest : String
  deriving DecidableEq

structure StochasticStepEvidence where
  (contractVersion provider model promptProfile promptProfileDigest resultSchema : String)
  trialCount : Nat
  aggregationRule : String
  (minimumMeanScoreMicros minimumPassRateBasisPoints maximumScoreVarianceMicrosSquared : Nat)
  gateEligible : Bool
  (completedTrialCount meanScoreMicros passRateBasisPoints scoreVarianceMicrosSquared totalInputTokens : Nat)
  (totalOutputTokens totalRetryAccountedTokens : Nat)
  trials : List StochasticTrialEvidence
  aggregateDigest : String

structure EvaluationStepReceipt where
  (contractVersion manifestDigest nodeId classification status reasonCode inputDigest parametersDigest : String)
  (evaluatorDefinitionDigest implementationDigest : String)
  (evidenceDigests dependencyResultDigests : List String)
  resultDigest : String
  stochasticEvidence : Option StochasticStepEvidence
  stepReceiptDigest : String

def StochasticTrialEvidence.toJson (trial : StochasticTrialEvidence) : Value :=
  .object [("trial_index", .int trial.trialIndex), ("seed", .int trial.seed),
    ("attempt_count", .int trial.attemptCount), ("status", .string trial.status),
    ("reason_code", .string trial.reasonCode), ("score_micros", .int trial.scoreMicros),
    ("input_tokens", .int trial.inputTokens), ("output_tokens", .int trial.outputTokens),
    ("retry_accounted_tokens", .int trial.retryAccountedTokens),
    ("result_digest", .string trial.resultDigest)]

def StochasticStepEvidence.toJson (evidence : StochasticStepEvidence) : Value :=
  .object [("contract_version", .string evidence.contractVersion),
    ("provider", .string evidence.provider), ("model", .string evidence.model),
    ("prompt_profile", .string evidence.promptProfile),
    ("prompt_profile_digest", .string evidence.promptProfileDigest),
    ("result_schema", .string evidence.resultSchema), ("trial_count", .int evidence.trialCount),
    ("aggregation_rule", .string evidence.aggregationRule),
    ("minimum_mean_score_micros", .int evidence.minimumMeanScoreMicros),
    ("minimum_pass_rate_basis_points", .int evidence.minimumPassRateBasisPoints),
    ("maximum_score_variance_micros_squared", .int evidence.maximumScoreVarianceMicrosSquared),
    ("gate_eligible", .bool evidence.gateEligible),
    ("completed_trial_count", .int evidence.completedTrialCount),
    ("mean_score_micros", .int evidence.meanScoreMicros),
    ("pass_rate_basis_points", .int evidence.passRateBasisPoints),
    ("score_variance_micros_squared", .int evidence.scoreVarianceMicrosSquared),
    ("total_input_tokens", .int evidence.totalInputTokens),
    ("total_output_tokens", .int evidence.totalOutputTokens),
    ("total_retry_accounted_tokens", .int evidence.totalRetryAccountedTokens),
    ("trials", .array (evidence.trials.map StochasticTrialEvidence.toJson)),
    ("aggregate_digest", .string evidence.aggregateDigest)]

def EvaluationStepReceipt.toJson (receipt : EvaluationStepReceipt) : Value :=
  .object ([("contract_version", .string receipt.contractVersion),
    ("manifest_digest", .string receipt.manifestDigest), ("node_id", .string receipt.nodeId),
    ("classification", .string receipt.classification), ("status", .string receipt.status),
    ("reason_code", .string receipt.reasonCode), ("input_digest", .string receipt.inputDigest),
    ("parameters_digest", .string receipt.parametersDigest),
    ("evaluator_definition_digest", .string receipt.evaluatorDefinitionDigest),
    ("implementation_digest", .string receipt.implementationDigest),
    ("evidence_digests", .strings receipt.evidenceDigests),
    ("dependency_result_digests", .strings receipt.dependencyResultDigests),
    ("result_digest", .string receipt.resultDigest)] ++
    (receipt.stochasticEvidence.map fun evidence => ("stochastic_evidence", evidence.toJson)).toList ++
    [("step_receipt_digest", .string receipt.stepReceiptDigest)])

def EvaluationStepReceipt.content (receipt : EvaluationStepReceipt) : Value :=
  .array ([.string receipt.contractVersion, .string receipt.manifestDigest, .string receipt.nodeId,
    .string receipt.classification, .string receipt.status, .string receipt.reasonCode,
    .string receipt.inputDigest, .string receipt.parametersDigest,
    .string receipt.evaluatorDefinitionDigest, .string receipt.implementationDigest,
    .strings receipt.evidenceDigests, .strings receipt.dependencyResultDigests,
    .string receipt.resultDigest] ++
    (receipt.stochasticEvidence.map StochasticStepEvidence.toJson).toList)

def isStatus (status : String) : Bool :=
  status = statusPass || status = statusFail || status = statusUnknown ||
    status = statusUnavailable || status = statusError || status = statusSkipped

def isCompleted (status : String) : Bool := status = statusPass || status = statusFail

def validateStatus (status : String) : Except String Unit :=
  if isStatus status then .ok () else .error "unknown evaluation step status"

def isReasonChar (c : Char) : Bool := ('a' ≤ c && c ≤ 'z') || c.isDigit || c = '_'

def validateReasonCode (reasonCode : String) : Except String Unit :=
  if reasonCode = "" ∨ reasonCode.utf8ByteSize > maxReasonCodeBytes ∨ ¬ reasonCode.toList.all isReasonChar then
    .error "reason_code must be a bounded lowercase token"
  else .ok ()

/-- `validate_digest` of the execution contracts, which takes digits of either case. -/
def validateStepDigest (field value : String) : Except String Unit :=
  match stripPrefix value "sha256:" with
  | none => .error (field ++ " must use sha256:<hex>")
  | some hex =>
    if hex.utf8ByteSize ≠ 64 ∨ ¬ hex.toList.all isHexDigit then
      .error (field ++ " must contain 64 hexadecimal characters")
    else .ok ()

def ensureDocumentSize (value : Value) (name : String) : Except String Unit :=
  if value.size > maxExecutionDocumentBytes then .error (name ++ " exceeds 524288 bytes") else .ok ()

section
variable (platform : Platform)

/-- `digest_json` of the execution contracts, over JSON as it is written. -/
def digestJson (value : Value) : String :=
  "sha256:" ++ toHex (platform.sha256 (textBytes value.text))

def EvaluationStepReceipt.digest (receipt : EvaluationStepReceipt) : String :=
  digestJson platform receipt.content

end

variable (policy : StochasticEvaluatorPolicy)

def stochasticSeed (trialIndex : Nat) : Except String Int :=
  if policy.seedSupported then
    if policy.baseSeed + trialIndex > i64Max then .error "stochastic seed range overflowed"
    else .ok (policy.baseSeed + trialIndex)
  else .ok 0

structure DerivedStochasticAggregate where
  (completedTrialCount meanScoreMicros passRateBasisPoints scoreVarianceMicrosSquared totalInputTokens : Nat)
  (totalOutputTokens totalRetryAccountedTokens : Nat)
  accepted : Bool
  (status reasonCode : String)

variable (trials : List StochasticTrialEvidence)

def completedTrials : List StochasticTrialEvidence :=
  trials.filter (isCompleted ·.status)

def meanScore : Nat :=
  (trials.map StochasticTrialEvidence.scoreMicros).sum / trials.length

def passRate : Nat :=
  (trials.filter (·.status = statusPass)).length * 10000 / trials.length

def scoreVariance : Nat :=
  (trials.map fun trial => ((trial.scoreMicros : Int) - meanScore trials).natAbs ^ 2).sum / trials.length

def summedTokens (count : StochasticTrialEvidence → Nat) (trials : List StochasticTrialEvidence) : Nat :=
  min (trials.map count).sum u32Max

def meetsThresholds (completed : List StochasticTrialEvidence) : Bool :=
  policy.minimumMeanScoreMicros ≤ meanScore completed && policy.minimumPassRateBasisPoints ≤ passRate completed &&
    min (scoreVariance completed) u64Max ≤ policy.maximumScoreVarianceMicrosSquared

def aggregateOutcome (trials : List StochasticTrialEvidence) : String × String :=
  if (completedTrials trials).length = policy.trialCount then
    if meetsThresholds policy (completedTrials trials) then (statusPass, reasonStochasticAccepted)
    else (statusFail, reasonStochasticRejected)
  else match trials.find? (! isCompleted ·.status) with
    | some trial => (trial.status, trial.reasonCode)
    | none => (statusUnavailable, reasonStochasticPopulationIncomplete)

def deriveStochasticAggregate
    (trials : List StochasticTrialEvidence) : DerivedStochasticAggregate where
  completedTrialCount := (completedTrials trials).length
  meanScoreMicros := meanScore (completedTrials trials)
  passRateBasisPoints := passRate (completedTrials trials)
  scoreVarianceMicrosSquared := min (scoreVariance (completedTrials trials)) u64Max
  totalInputTokens := summedTokens StochasticTrialEvidence.inputTokens trials
  totalOutputTokens := summedTokens StochasticTrialEvidence.outputTokens trials
  totalRetryAccountedTokens := summedTokens StochasticTrialEvidence.retryAccountedTokens trials
  accepted := (completedTrials trials).length = policy.trialCount && meetsThresholds policy (completedTrials trials)
  status := (aggregateOutcome policy trials).1
  reasonCode := (aggregateOutcome policy trials).2

def aggregateResult (aggregateDigest : String) (aggregate : DerivedStochasticAggregate) : Value :=
  .object [("accepted", .bool aggregate.accepted), ("aggregate_digest", .string aggregateDigest),
    ("completed_trial_count", .int aggregate.completedTrialCount),
    ("mean_score_micros", .int aggregate.meanScoreMicros),
    ("pass_rate_basis_points", .int aggregate.passRateBasisPoints),
    ("score_variance_micros_squared", .int aggregate.scoreVarianceMicrosSquared)]

def resultContent (status reasonCode : String) (result : Value) : Value :=
  .array [.string evaluatorResultContract, .string status, .string reasonCode, result]

def StochasticStepEvidence.follows (evidence : StochasticStepEvidence) (policy : StochasticEvaluatorPolicy) : Bool :=
  evidence.contractVersion = stochasticStepEvidenceContract &&
    evidence.provider = policy.provider && evidence.model = policy.model &&
    evidence.promptProfile = policy.promptProfile &&
    evidence.promptProfileDigest = policy.promptProfileDigest &&
    evidence.resultSchema = policy.resultSchema && evidence.trialCount = policy.trialCount &&
    evidence.aggregationRule = policy.aggregationRule &&
    evidence.minimumMeanScoreMicros = policy.minimumMeanScoreMicros &&
    evidence.minimumPassRateBasisPoints = policy.minimumPassRateBasisPoints &&
    evidence.maximumScoreVarianceMicrosSquared = policy.maximumScoreVarianceMicrosSquared &&
    evidence.gateEligible = policy.gateEligible && evidence.trials.length = policy.trialCount

/-- `saturating_add` and `saturating_mul` of `u32`. -/
def saturated (count : Nat) : Nat := min count u32Max

def retriedAttempts (trial : StochasticTrialEvidence) : Nat :=
  trial.attemptCount - (isCompleted trial.status).toNat

def trialValuesValid (trial : StochasticTrialEvidence) : Bool :=
  ! (isCompleted trial.status && trial.attemptCount = 0) && trial.scoreMicros ≤ 1000000 &&
    saturated (trial.inputTokens + trial.outputTokens) ≤ policy.maxTokensPerTrial &&
    trial.retryAccountedTokens % policy.maxTokensPerTrial = 0 &&
    trial.retryAccountedTokens ≤ saturated (retriedAttempts trial * policy.maxTokensPerTrial) &&
    ! (! isCompleted trial.status && trial.scoreMicros ≠ 0)

def validateTrial (trial : StochasticTrialEvidence)
    (expected : Nat) : Except String Unit :=
  if trial.trialIndex ≠ expected then .error "stochastic trial evidence is invalid"
  else do
    let seed ← stochasticSeed policy expected
    if trial.seed ≠ seed ∨ trial.attemptCount > policy.maxRetriesPerTrial + 1 ∨ ¬ isStatus trial.status then
      .error "stochastic trial evidence is invalid"
    else if ¬ trialValuesValid policy trial then
      .error "stochastic trial evidence values are invalid"
    else
      validateReasonCode trial.reasonCode
      validateStepDigest "stochastic trial result_digest" trial.resultDigest

def aggregateConsistent (evidence : StochasticStepEvidence)
    (aggregate : DerivedStochasticAggregate) (status reasonCode : String) : Bool :=
  evidence.completedTrialCount = aggregate.completedTrialCount &&
    evidence.meanScoreMicros = aggregate.meanScoreMicros &&
    evidence.passRateBasisPoints = aggregate.passRateBasisPoints &&
    evidence.scoreVarianceMicrosSquared = aggregate.scoreVarianceMicrosSquared &&
    evidence.totalInputTokens = aggregate.totalInputTokens &&
    evidence.totalOutputTokens = aggregate.totalOutputTokens &&
    evidence.totalRetryAccountedTokens = aggregate.totalRetryAccountedTokens &&
    aggregate.totalInputTokens + aggregate.totalOutputTokens + aggregate.totalRetryAccountedTokens ≤
      policy.maxTotalTokens &&
    status = aggregate.status && reasonCode = aggregate.reasonCode

section
variable (platform : Platform)

def stochasticAggregateDigest (evidence : StochasticStepEvidence) : String :=
  digestJson platform { evidence with aggregateDigest := "" }.toJson

def aggregateResultDigest (aggregateDigest : String) (aggregate : DerivedStochasticAggregate) : String :=
  digestJson platform
    (resultContent aggregate.status aggregate.reasonCode (aggregateResult aggregateDigest aggregate))

def validateStochasticStepEvidence (node : ResolvedEvaluationNode) (evidence : StochasticStepEvidence)
    (status reasonCode resultDigest : String) : Except String Unit :=
  match node.evaluator.stochasticPolicy with
  | none => .error "stochastic evidence has no frozen policy"
  | some policy =>
    if ¬ evidence.follows policy then
      .error "stochastic step evidence does not match the frozen policy"
    else do
      evidence.trials.zipIdx.forM fun entry => validateTrial policy entry.1 entry.2
      if ¬ aggregateConsistent policy evidence (deriveStochasticAggregate policy evidence.trials) status
          reasonCode then
        .error "stochastic aggregate evidence is inconsistent with its trials"
      else if stochasticAggregateDigest platform evidence ≠ evidence.aggregateDigest then
        .error "stochastic aggregate digest is invalid"
      else if resultDigest ≠ aggregateResultDigest platform evidence.aggregateDigest
          (deriveStochasticAggregate policy evidence.trials) then
        .error "stochastic aggregate result digest is invalid"
      else .ok ()

def EvaluationStepReceipt.boundTo (step : EvaluationStepReceipt) (manifest : ResolvedEvaluationManifest)
    (node : ResolvedEvaluationNode) : Bool :=
  step.contractVersion = stepReceiptContract && step.manifestDigest = manifest.manifestDigest &&
    step.nodeId = node.nodeId && step.classification = node.classification &&
    step.evaluatorDefinitionDigest = node.evaluator.definitionDigest &&
    step.implementationDigest = node.evaluator.implementationDigest

def validateEvidence (node : ResolvedEvaluationNode) (step : EvaluationStepReceipt) : Except String Unit :=
  match step.stochasticEvidence with
  | none => .ok ()
  | some evidence =>
    validateStochasticStepEvidence platform node evidence step.status step.reasonCode step.resultDigest

def validateStepForNode (manifest : ResolvedEvaluationManifest) (node : ResolvedEvaluationNode)
    (step : EvaluationStepReceipt) : Except String Unit :=
  if ¬ step.boundTo manifest node then .error "evaluation step receipt binding is invalid"
  else do
    validateStatus step.status
    validateReasonCode step.reasonCode
    validateStepDigest "evaluation step result_digest" step.resultDigest
    if isCompleted step.status ∧ node.evaluator.stochasticPolicy.isSome ∧ step.stochasticEvidence.isNone then
      .error "completed stochastic step lacks statistical evidence"
    else if node.evaluator.stochasticPolicy.isNone ∧ step.stochasticEvidence.isSome then
      .error "deterministic step cannot contain stochastic evidence"
    else
      validateEvidence platform node step
      if step.digest platform ≠ step.stepReceiptDigest then
        .error "evaluation step receipt digest is invalid"
      else .ok ()

end

/-! A platform for concrete runs, with one digest for all. -/

def samplePlatform : Platform where
  sha256 := fun _ => List.replicate 32 0
  parseJson := fun _ => .ok (.object [])
  isAlphanumeric := Char.isAlphanum
  quoted := Json.string

def sampleDigest : String := "sha256:" ++ toHex (List.replicate 32 0)

end SekaiChisei.Evaluation
