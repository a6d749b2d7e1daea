import SekaiChisei.Evaluation.Accounting

/-! When a receipt of a stochastic node that the executor returns passes `validate_step_for_node`. -/

namespace SekaiChisei.Evaluation
open Lib Lib.Json List

variable {platform : Platform} {policy : StochasticEvaluatorPolicy} {limits : EvaluatorResourceLimits}
  {environment : Environment} {trial : StochasticTrialEvidence} {population : Population}

variable {trials : List StochasticTrialEvidence} {manifest : ResolvedEvaluationManifest}
  {node : ResolvedEvaluationNode} {input : DeterministicEvaluatorInput}

theorem summedTokens_le {bound : Nat} (spent : ∀ trial ∈ trials,
      trial.inputTokens + trial.outputTokens + trial.retryAccountedTokens ≤ bound) :
    summedTokens StochasticTrialEvidence.inputTokens trials +
      summedTokens StochasticTrialEvidence.outputTokens trials +
      summedTokens StochasticTrialEvidence.retryAccountedTokens trials ≤ trials.length * bound := by
  have sums : (trials.map StochasticTrialEvidence.inputTokens).sum +
      (trials.map StochasticTrialEvidence.outputTokens).sum +
      (trials.map StochasticTrialEvidence.retryAccountedTokens).sum ≤ trials.length * bound := by
    induction trials with
    | nil => simp
    | cons trial trials ih =>
      have first := spent trial mem_cons_self
      have rest := ih fun other member => spent other (mem_cons_of_mem _ member)
      simp only [map_cons, sum_cons, length_cons, Nat.succ_mul]
      omega
  unfold summedTokens
  omega

theorem mem_zipIdx_of_mem (member : trial ∈ trials) : ∃ index, (trial, index) ∈ trials.zipIdx := by
  obtain ⟨index, small, rfl⟩ := mem_iff_getElem.mp member
  exact ⟨index, mem_zipIdx_iff_getElem?.mpr (getElem?_eq_getElem small)⟩

theorem Population.Tracks.aggregateConsistent (platform : Platform)
    (tracks : population.Tracks environment policy limits policy.trialCount) (budgeted : Budgeted policy)
    (within : ∀ trial ∈ population.trials, trial.inputTokens + trial.outputTokens ≤ policy.maxTokensPerTrial) :
    Evaluation.aggregateConsistent policy (stepEvidence platform policy population.trials)
      (deriveStochasticAggregate policy population.trials) (deriveStochasticAggregate policy population.trials).status
      (deriveStochasticAggregate policy population.trials).reasonCode := by
  have spent : ∀ trial ∈ population.trials,
      trial.inputTokens + trial.outputTokens + trial.retryAccountedTokens ≤ trialBudget policy := by
    intro trial member
    obtain ⟨index, listed⟩ := mem_zipIdx_of_mem member
    exact (tracks.recorded _ listed).spent (within trial member)
  have total := summedTokens_le spent
  rw [tracks.length] at total
  have covered := total.trans budgeted.covered
  simp only [Evaluation.aggregateConsistent, stepEvidence, evidenceContent, deriveStochasticAggregate,
    decide_true, Bool.true_and, Bool.and_true]
  exact decide_eq_true covered

theorem Population.Tracks.validateEvidence_iff
    (tracks : population.Tracks environment policy limits policy.trialCount) (budgeted : Budgeted policy)
    (frozen : node.evaluator.stochasticPolicy = some policy) :
    validateStochasticStepEvidence platform node (stepEvidence platform policy population.trials)
        (deriveStochasticAggregate policy population.trials).status
        (deriveStochasticAggregate policy population.trials).reasonCode
        (aggregateResultDigest platform (stepEvidence platform policy population.trials).aggregateDigest
          (deriveStochasticAggregate policy population.trials)) = .ok () ↔
      ∀ trial ∈ population.trials, trial.inputTokens + trial.outputTokens ≤ policy.maxTokensPerTrial := by
  rw [validateStochasticStepEvidence, frozen]
  constructor
  · intro valid trial member
    obtain ⟨_, valid⟩ := ite_error_eq_ok.mp valid
    obtain ⟨trialsValid, _⟩ := check_eq_ok.mp valid
    obtain ⟨index, listed⟩ := mem_zipIdx_of_mem member
    exact ((tracks.recorded _ listed).validateTrial_iff budgeted).mp (forM_eq_ok.mp trialsValid (trial, index) listed)
  · intro within
    have consistent := tracks.aggregateConsistent platform budgeted within
    have follows : (stepEvidence platform policy population.trials).follows policy := by
      simp [StochasticStepEvidence.follows, stepEvidence, evidenceContent, tracks.length]
    refine ite_error_eq_ok.mpr ⟨not_not.mpr follows, ?_⟩
    refine check_eq_ok.mpr ⟨forM_eq_ok.mpr ?_, ite_error_eq_ok.mpr ⟨not_not.mpr consistent, ?_⟩⟩
    · rintro ⟨trial, index⟩ listed
      have member := (mem_zipIdx' listed).2 ▸ getElem_mem _
      exact ((tracks.recorded _ listed).validateTrial_iff budgeted).mpr (within trial member)
    · exact ite_error_eq_ok.mpr ⟨not_not.mpr rfl, ite_error_eq_ok.mpr ⟨not_not.mpr rfl, rfl⟩⟩

variable {receipt : EvaluationStepReceipt} {reasonCode status : String} {result : Value}

theorem makeFrameworkStep_eq_ok
    (success : makeFrameworkStep platform manifest node input status reasonCode result = .ok receipt) :
    validateStatus status = .ok () ∧ validateReasonCode reasonCode = .ok () ∧
      receipt = (frameworkReceipt platform manifest node input status reasonCode result none).stamped platform := by
  obtain ⟨known, success⟩ := check_eq_ok.mp success
  obtain ⟨reason, success⟩ := check_eq_ok.mp success
  obtain ⟨_, success⟩ := check_eq_ok.mp success
  cases success
  exact ⟨known, reason, rfl⟩

theorem validateStepForNode_stamped (hash : ∀ bytes, (platform.sha256 bytes).length = 32)
    {evidence : Option StochasticStepEvidence} (frozen : node.evaluator.stochasticPolicy = some policy)
    (known : validateStatus status = .ok ()) (reason : validateReasonCode reasonCode = .ok ())
    (evidenced : isCompleted status → evidence.isSome) : validateStepForNode platform manifest node
        ((frameworkReceipt platform manifest node input status reasonCode result evidence).stamped
          platform) = .ok () ↔ validateEvidence platform node
        ((frameworkReceipt platform manifest node input status reasonCode result evidence).stamped
          platform) = .ok () := by
  have bound : ((frameworkReceipt platform manifest node input status reasonCode result
      evidence).stamped platform).boundTo manifest node := by
    simp [EvaluationStepReceipt.boundTo, EvaluationStepReceipt.stamped, frameworkReceipt]
  constructor
  · intro valid
    obtain ⟨_, valid⟩ := ite_error_eq_ok.mp valid
    obtain ⟨_, valid⟩ := check_eq_ok.mp valid
    obtain ⟨_, valid⟩ := check_eq_ok.mp valid
    obtain ⟨_, valid⟩ := check_eq_ok.mp valid
    obtain ⟨_, valid⟩ := ite_error_eq_ok.mp valid
    obtain ⟨_, valid⟩ := ite_error_eq_ok.mp valid
    exact (check_eq_ok.mp valid).1
  · intro valid
    refine ite_error_eq_ok.mpr ⟨not_not.mpr bound, check_eq_ok.mpr ⟨known, check_eq_ok.mpr ⟨reason, ?_⟩⟩⟩
    refine check_eq_ok.mpr ⟨validateStepDigest_digestJson hash _ _, ?_⟩
    refine ite_error_eq_ok.mpr ⟨?_, ite_error_eq_ok.mpr ⟨by simp [frozen], ?_⟩⟩
    · rintro ⟨completed, _, missing⟩
      have present := evidenced completed
      change evidence.isNone = true at missing
      rw [Option.isNone_iff_eq_none.mp missing] at present
      cases present
    · exact check_eq_ok.mpr ⟨valid, ite_error_eq_ok.mpr ⟨not_not.mpr rfl, rfl⟩⟩

theorem makeStochasticStep_eq_ok
    (success : makeStochasticStep platform manifest node input policy trials = .ok receipt) :
    validateStatus (deriveStochasticAggregate policy trials).status = .ok () ∧
      validateReasonCode (deriveStochasticAggregate policy trials).reasonCode = .ok () ∧
      receipt = (frameworkReceipt platform manifest node input (deriveStochasticAggregate policy trials).status
        (deriveStochasticAggregate policy trials).reasonCode
        (aggregateResult (stepEvidence platform policy trials).aggregateDigest
          (deriveStochasticAggregate policy trials))
        (some (stepEvidence platform policy trials))).stamped platform := by
  obtain ⟨framework, made, success⟩ := bind_eq_ok.mp success
  obtain ⟨_, success⟩ := check_eq_ok.mp success
  obtain ⟨known, reason, rfl⟩ := makeFrameworkStep_eq_ok made
  cases success
  exact ⟨known, reason, rfl⟩

theorem frameworkStep_valid (hash : ∀ bytes, (platform.sha256 bytes).length = 32)
    (frozen : node.evaluator.stochasticPolicy = some policy) (incomplete : isCompleted status = false)
    (success : makeFrameworkStep platform manifest node input status reasonCode .null = .ok receipt) :
    validateStepForNode platform manifest node receipt = .ok () := by
  obtain ⟨known, reason, rfl⟩ := makeFrameworkStep_eq_ok success
  exact (validateStepForNode_stamped hash frozen known reason (by simp [incomplete])).mpr rfl

theorem executeStochasticNode_of_trials (frozen : node.evaluator.stochasticPolicy = some policy)
    (policyValid : validateStochasticPolicy platform policy [policy.resultSchema] = .ok ())
    (inputValid : validateInput manifest node input limits = .ok ())
    (registered : environment.registered node.evaluator.implementationDigest)
    (live : environment.expired = false) (started : environment.runtime = .ok ())
    (run : runTrials platform policy limits environment = .ok population)
    (made : makeStochasticStep platform manifest node input policy population.trials = .ok receipt) :
    executeStochasticNode platform manifest node environment input limits = .ok receipt := by
  rw [executeStochasticNode, frozen]
  refine check_eq_ok.mpr ⟨policyValid, ?_⟩
  rw [inputValid]
  simp only [registered, live]
  exact check_eq_ok.mpr ⟨mapError_eq_ok.mpr started, bind_eq_ok.mpr ⟨population, run, made⟩⟩

/-! A policy with two trials of ten tokens each. -/

def samplePolicy : StochasticEvaluatorPolicy :=
  ⟨"ollama", "ollama/llama3", "judge/v1", sampleDigest, stochasticResultSchema, 2, 0, 1000000, false, 0,
    stochasticAggregationMeanVariance, 500000, 5000, 0, true, 0, 10, 100, stochasticEgressLocalOnly,
    stochasticRawRetentionNone⟩

def sampleTrialNode : ResolvedEvaluationNode :=
  ⟨"judge", ⟨"definition-2", "definition", "implementation", some samplePolicy⟩, [], [], "", [], [], nodeRequired⟩

def sampleTrialManifest : ResolvedEvaluationManifest := ⟨"manifest", "ops", [sampleTrialNode], []⟩

def sampleInput : DeterministicEvaluatorInput :=
  ⟨evaluatorInputContract, "manifest", "judge", "release/v1", "release-1", "content", .null, [], [], []⟩

def sampleLimits : EvaluatorResourceLimits := ⟨65536, 65536, 16⟩

def sampleEnvironment (reply : Except StochasticTrialError StochasticTrialOutput) : Environment where
  registered := fun _ => true
  expired := false
  runtime := .ok ()
  cancelled := fun _ => false
  attempt := fun _ _ => .replied reply

theorem sampleInput_valid : validateInput sampleTrialManifest sampleTrialNode sampleInput sampleLimits = .ok () := by
  refine ite_error_eq_ok.mpr ⟨by decide, ite_error_eq_ok.mpr ⟨by decide, ite_error_eq_ok.mpr ⟨?_, rfl⟩⟩⟩
  refine not_lt.mpr (le_trans (Value.size_le _) ?_)
  decide +kernel

theorem samplePolicy_valid :
    validateStochasticPolicy samplePlatform samplePolicy [samplePolicy.resultSchema] = .ok () := by
  decide +kernel

def sampleTrials (tokens : Nat) : List StochasticTrialEvidence :=
  [failureEvidence samplePlatform ⟨0, 0, 1, 0⟩ statusUnknown reasonStochasticRefusal tokens tokens,
    failureEvidence samplePlatform ⟨1, 0, 0, 0⟩ statusSkipped reasonStochasticPopulationIncomplete 0 0]

def sampleReceipt (tokens : Nat) : EvaluationStepReceipt :=
  (frameworkReceipt samplePlatform sampleTrialManifest sampleTrialNode sampleInput statusUnknown
    reasonStochasticRefusal
    (aggregateResult (stepEvidence samplePlatform samplePolicy (sampleTrials tokens)).aggregateDigest
      (deriveStochasticAggregate samplePolicy (sampleTrials tokens)))
    (some (stepEvidence samplePlatform samplePolicy (sampleTrials tokens)))).stamped samplePlatform

theorem sampleTrials_run : ∀ tokens ∈ [4, 20], runTrials samplePlatform samplePolicy sampleLimits
      (sampleEnvironment (.error (.refusal tokens tokens))) = .ok ⟨sampleTrials tokens, true, 2 * tokens⟩ := by
  decide +kernel

theorem sampleReceipt_fits : ∀ tokens ∈ [4, 20], (sampleReceipt tokens).toJson.sizeBound ≤ maxExecutionDocumentBytes ∧
      ({ sampleReceipt tokens with stochasticEvidence := none }.stamped samplePlatform).toJson.sizeBound ≤
        maxExecutionDocumentBytes := by
  decide +kernel

theorem sampleExecution {tokens : Nat} (known : tokens ∈ [4, 20]) :
    executeStochasticNode samplePlatform sampleTrialManifest sampleTrialNode
      (sampleEnvironment (.error (.refusal tokens tokens))) sampleInput sampleLimits =
        .ok (sampleReceipt tokens) := by
  obtain ⟨fits, frameworkFits⟩ := sampleReceipt_fits tokens known
  refine executeStochasticNode_of_trials rfl samplePolicy_valid sampleInput_valid rfl rfl rfl
    (sampleTrials_run tokens known) ?_
  refine bind_eq_ok.mpr ⟨{ sampleReceipt tokens with stochasticEvidence := none }.stamped samplePlatform,
    ?_, check_eq_ok.mpr ⟨?_, rfl⟩⟩
  · have reason : validateReasonCode reasonStochasticRefusal = .ok () := by decide +kernel
    refine check_eq_ok.mpr ⟨rfl, check_eq_ok.mpr ⟨reason, check_eq_ok.mpr ⟨?_, rfl⟩⟩⟩
    exact ite_error_eq_ok.mpr ⟨not_lt.mpr ((Value.size_le _).trans frameworkFits), rfl⟩
  · exact ite_error_eq_ok.mpr ⟨not_lt.mpr ((Value.size_le _).trans fits), rfl⟩

theorem executeStochasticNode_valid_iff (hash : ∀ bytes, (platform.sha256 bytes).length = 32)
    (frozen : node.evaluator.stochasticPolicy = some policy) {receipt : EvaluationStepReceipt}
    (success : executeStochasticNode platform manifest node environment input limits = .ok receipt) :
    validateStepForNode platform manifest node receipt = .ok () ↔
      ¬ Overreports environment policy limits manifest node input := by
  rw [executeStochasticNode, frozen] at success
  obtain ⟨policyValid, success⟩ := check_eq_ok.mp success
  have budgeted := validateStochasticPolicy_budgeted policyValid
  split at success
  · rename_i reason invalid
    refine iff_of_true (frameworkStep_valid hash frozen (by decide) success) ?_
    rintro ⟨inputValid, _⟩
    cases invalid.symm.trans inputValid
  rename_i inputValid
  split at success
  · rename_i unregistered
    refine iff_of_true (frameworkStep_valid hash frozen (by decide) success) ?_
    rintro ⟨_, registered, _⟩
    exact unregistered registered
  split at success
  · rename_i expired
    refine iff_of_true (frameworkStep_valid hash frozen (by decide) success) ?_
    rintro ⟨_, _, live, _⟩
    exact absurd (expired.symm.trans live) (by decide)
  rename_i registered live
  obtain ⟨_, success⟩ := check_eq_ok.mp success
  obtain ⟨population, run, success⟩ := bind_eq_ok.mp success
  obtain ⟨known, reason, rfl⟩ := makeStochasticStep_eq_ok success
  have tracks := runTrials_tracks hash budgeted run
  rw [validateStepForNode_stamped hash frozen known reason fun _ => rfl]
  refine (tracks.validateEvidence_iff budgeted frozen).trans (tracks.within.trans ?_)
  constructor
  · rintro clear ⟨_, _, _, trialIndex, small, above⟩
    exact clear trialIndex small above
  · intro clear trialIndex small above
    exact clear ⟨inputValid, not_not.mp registered, Bool.eq_false_iff.mpr live, trialIndex, small, above⟩

/-- A refusal that reports eight of the ten tokens of a trial. -/
theorem executeStochasticNode_valid_sample :
    validateStepForNode samplePlatform sampleTrialManifest sampleTrialNode (sampleReceipt 4) = .ok () := by
  refine (executeStochasticNode_valid_iff (fun _ => rfl) rfl (sampleExecution (by decide))).mpr ?_
  rintro ⟨_, _, _, trialIndex, _, _, _, outcome, decided, above⟩
  cases decided
  change 10 < 4 + 4 at above
  omega

/-- A refusal that reports forty: the execution succeeds and its receipt is not valid. -/
theorem executeStochasticNode_overreported :
    validateStochasticPolicy samplePlatform samplePolicy [samplePolicy.resultSchema] = .ok () ∧
      executeStochasticNode samplePlatform sampleTrialManifest sampleTrialNode
        (sampleEnvironment (.error (.refusal 20 20))) sampleInput sampleLimits = .ok (sampleReceipt 20) ∧
      validateStepForNode samplePlatform sampleTrialManifest sampleTrialNode (sampleReceipt 20) =
        .error "stochastic trial evidence values are invalid" := by
  refine ⟨samplePolicy_valid, sampleExecution (by decide), ?_⟩
  decide +kernel

end SekaiChisei.Evaluation
