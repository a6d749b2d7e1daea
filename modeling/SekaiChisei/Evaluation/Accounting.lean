import SekaiChisei.Evaluation.Trials

/-! The executor of stochastic nodes against the validation of its receipts: all that it records is allowed, apart from
the tokens that a failed reply reports. -/

namespace SekaiChisei.Evaluation
open Lib Lib.Json List String

def AttemptOutcome.retryable : AttemptOutcome → Bool
  | .replied (.error .retryable) => true
  | _ => false

def AttemptOutcome.reported : AttemptOutcome → Nat
  | .replied (.error error) => error.tokens.1 + error.tokens.2
  | .replied (.ok output) => output.inputTokens + output.outputTokens
  | _ => 0

def AttemptOutcome.completes (policy : StochasticEvaluatorPolicy) (limits : EvaluatorResourceLimits) :
    AttemptOutcome → Bool
  | .replied (.ok output) => (validateStochasticOutput output policy limits).isOk
  | _ => false

/-- The first outcome that is not tried again, of `left` attempts. -/
def decisive (outcome : Nat → AttemptOutcome) : Nat → Nat → Option AttemptOutcome
  | 0, _ => none
  | left + 1, attempt =>
    if (outcome attempt).retryable then decisive outcome left (attempt + 1) else some (outcome attempt)

section
variable (environment : Environment) (policy : StochasticEvaluatorPolicy)
  (limits : EvaluatorResourceLimits)

def Environment.decides (trialIndex : Nat) : Option AttemptOutcome :=
  decisive (environment.attempt trialIndex) (policy.maxRetriesPerTrial + 1) 1

def Completes (trialIndex : Nat) : Prop :=
  environment.cancelled trialIndex = false ∧
    ∃ outcome, environment.decides policy trialIndex = some outcome ∧ outcome.completes policy limits

def OverreportsAt (trialIndex : Nat) : Prop :=
  (∀ earlier < trialIndex, Completes environment policy limits earlier) ∧ environment.cancelled trialIndex = false ∧
    ∃ outcome, environment.decides policy trialIndex = some outcome ∧ policy.maxTokensPerTrial < outcome.reported

end

def Overreports (environment : Environment) (policy : StochasticEvaluatorPolicy)
    (limits : EvaluatorResourceLimits) (manifest : ResolvedEvaluationManifest)
    (node : ResolvedEvaluationNode) (input : DeterministicEvaluatorInput) : Prop :=
  validateInput manifest node input limits = .ok () ∧
    environment.registered node.evaluator.implementationDigest ∧ environment.expired = false ∧
    ∃ trialIndex < policy.trialCount, OverreportsAt environment policy limits trialIndex

variable {platform : Platform} {policy : StochasticEvaluatorPolicy} {limits : EvaluatorResourceLimits}
  {environment : Environment} {trial : StochasticTrialEvidence} {slot : Slot} {trialIndex totalTokens : Nat}
  {retries : Nat}

def trialBudget (policy : StochasticEvaluatorPolicy) : Nat :=
  (policy.maxRetriesPerTrial + 1) * policy.maxTokensPerTrial

structure Budgeted (policy : StochasticEvaluatorPolicy) : Prop where
  covered : policy.trialCount * trialBudget policy ≤ policy.maxTotalTokens
  bounded : policy.maxTotalTokens < u32Max
  trials : 0 < policy.trialCount

theorem validateStochasticPolicy_budgeted {schemas : List String}
    (valid : validateStochasticPolicy platform policy schemas = .ok ()) : Budgeted policy := by
  obtain ⟨_, valid⟩ := check_eq_ok.mp valid
  obtain ⟨sampling, valid⟩ := check_eq_ok.mp valid
  obtain ⟨budget, _⟩ := check_eq_ok.mp valid
  obtain ⟨count, _⟩ := ite_error_eq_ok.mp sampling
  obtain ⟨_, budget⟩ := ite_error_eq_ok.mp budget
  obtain ⟨_, budget⟩ := ite_error_eq_ok.mp budget
  obtain ⟨range, budget⟩ := ite_error_eq_ok.mp budget
  obtain ⟨_, budget⟩ := ite_error_eq_ok.mp budget
  obtain ⟨covered, _⟩ := ite_error_eq_ok.mp budget
  rw [maximumAttempts, not_lt, Nat.mul_assoc] at covered
  simp only [minStochasticTrials, i32Max] at count range
  refine ⟨covered, ?_, ?_⟩
  · simp only [u32Max]
    omega
  · omega

theorem Budgeted.room (budgeted : Budgeted policy) (slotFree : trialIndex < policy.trialCount) :
    trialIndex * trialBudget policy + trialBudget policy ≤ policy.maxTotalTokens := by
  have enough := Nat.mul_le_mul_right (trialBudget policy) slotFree
  rw [Nat.succ_mul] at enough
  exact enough.trans budgeted.covered

theorem Budgeted.trialBudget_lt (budgeted : Budgeted policy) : trialBudget policy < u32Max := by
  have room := budgeted.room budgeted.trials
  have bounded := budgeted.bounded
  omega

theorem Budgeted.saturated_eq (budgeted : Budgeted policy) (few : retries ≤ policy.maxRetriesPerTrial + 1) :
    saturated (retries * policy.maxTokensPerTrial) = retries * policy.maxTokensPerTrial := by
  have least : retries * policy.maxTokensPerTrial ≤ trialBudget policy :=
    Nat.mul_le_mul_right policy.maxTokensPerTrial few
  exact Nat.min_eq_left (least.trans budgeted.trialBudget_lt.le)

/-- What the executor records of a trial, whatever the replies are. -/
structure Recorded (policy : StochasticEvaluatorPolicy) (trialIndex : Nat)
    (trial : StochasticTrialEvidence) : Prop where
  index : trial.trialIndex = trialIndex
  seed : stochasticSeed policy trialIndex = .ok trial.seed
  attempts : trial.attemptCount ≤ policy.maxRetriesPerTrial + 1
  status : isStatus trial.status
  attempted : isCompleted trial.status → 0 < trial.attemptCount
  score : trial.scoreMicros ≤ 1000000
  unscored : isCompleted trial.status = false → trial.scoreMicros = 0
  reason : validateReasonCode trial.reasonCode = .ok ()
  digest : validateStepDigest "stochastic trial result_digest" trial.resultDigest = .ok ()
  retries : ∃ retries ≤ retriedAttempts trial, trial.retryAccountedTokens = retries * policy.maxTokensPerTrial
  spent : trial.inputTokens + trial.outputTokens ≤ policy.maxTokensPerTrial →
    trial.inputTokens + trial.outputTokens + trial.retryAccountedTokens ≤ trialBudget policy

theorem Recorded.retriedAttempts_le (recorded : Recorded policy trialIndex trial) :
    retriedAttempts trial ≤ policy.maxRetriesPerTrial + 1 :=
  (Nat.sub_le _ _).trans recorded.attempts

theorem Budgeted.saturated_le_iff (budgeted : Budgeted policy) {tokens : Nat} :
    saturated tokens ≤ policy.maxTokensPerTrial ↔ tokens ≤ policy.maxTokensPerTrial := by
  have least : policy.maxTokensPerTrial ≤ trialBudget policy :=
    Nat.le_mul_of_pos_left policy.maxTokensPerTrial (Nat.succ_pos policy.maxRetriesPerTrial)
  have ceiling := least.trans_lt budgeted.trialBudget_lt
  unfold saturated
  omega

section
variable (recorded : Recorded policy trialIndex trial) (budgeted : Budgeted policy)
include recorded budgeted

theorem Recorded.trialValuesValid_iff :
    trialValuesValid policy trial ↔ trial.inputTokens + trial.outputTokens ≤ policy.maxTokensPerTrial := by
  obtain ⟨retries, few, accounted⟩ := recorded.retries
  have divisible : trial.retryAccountedTokens % policy.maxTokensPerTrial = 0 := by
    rw [accounted, Nat.mul_mod_left]
  have within : trial.retryAccountedTokens ≤ saturated (retriedAttempts trial * policy.maxTokensPerTrial) := by
    rw [budgeted.saturated_eq recorded.retriedAttempts_le, accounted]
    exact Nat.mul_le_mul_right policy.maxTokensPerTrial few
  have score := recorded.score
  rw [← budgeted.saturated_le_iff, trialValuesValid]
  cases completed : isCompleted trial.status with
  | true =>
    have attempted := recorded.attempted completed
    simp [divisible, within, score, Nat.ne_of_gt attempted]
  | false =>
    have unscored := recorded.unscored completed
    simp [divisible, within, unscored]

theorem Recorded.validateTrial_iff : validateTrial policy trial trialIndex = .ok () ↔
      trial.inputTokens + trial.outputTokens ≤ policy.maxTokensPerTrial := by
  rw [← recorded.trialValuesValid_iff budgeted]
  constructor
  · intro valid
    obtain ⟨_, valid⟩ := ite_error_eq_ok.mp valid
    obtain ⟨_, _, valid⟩ := bind_eq_ok.mp valid
    obtain ⟨_, valid⟩ := ite_error_eq_ok.mp valid
    obtain ⟨values, _⟩ := ite_error_eq_ok.mp valid
    exact not_not.mp values
  · intro values
    have bound : ¬ (trial.seed ≠ trial.seed ∨
        trial.attemptCount > policy.maxRetriesPerTrial + 1 ∨ ¬ isStatus trial.status) := by
      simp [recorded.attempts, recorded.status]
    refine ite_error_eq_ok.mpr ⟨not_not.mpr recorded.index, bind_eq_ok.mpr ⟨trial.seed, recorded.seed, ?_⟩⟩
    refine ite_error_eq_ok.mpr ⟨bound, ite_error_eq_ok.mpr ⟨not_not.mpr values, ?_⟩⟩
    exact check_eq_ok.mpr ⟨recorded.reason, recorded.digest⟩

end

theorem stripPrefix_append (start rest : String) : Receipts.stripPrefix (start ++ rest) start = some rest := by
  have dropped : (start.toList ++ rest.toList).drop start.length = rest.toList := by
    rw [← length_toList, drop_left]
  rw [Receipts.stripPrefix, toList_append, if_pos (by simp), dropped, ofList_toList]

theorem validateStepDigest_digestJson (hash : ∀ bytes, (platform.sha256 bytes).length = 32)
    (field : String) (value : Value) : validateStepDigest field (digestJson platform value) = .ok () := by
  have digits : ∀ bytes : List UInt8, (toHex bytes).toList.all isHexDigit := by
    intro bytes
    rw [all_eq_true]
    intro c member
    exact mem_toHex member
  rw [digestJson, validateStepDigest, stripPrefix_append]
  exact if_neg (by simp [toHex_size, hash, digits])

def IsFailure (status reasonCode : String) : Prop :=
  isStatus status ∧ isCompleted status = false ∧ validateReasonCode reasonCode = .ok ()
  deriving Decidable

variable {reasonCode status : String} {outputTokens inputTokens : Nat}

theorem failureEvidence_recorded (hash : ∀ bytes, (platform.sha256 bytes).length = 32)
    (failure : IsFailure status reasonCode) (seed : stochasticSeed policy slot.trialIndex = .ok slot.seed)
    (attempts : slot.attempt ≤ policy.maxRetriesPerTrial + 1) (few : retries ≤ slot.attempt)
    (accounted : slot.retryAccountedTokens = retries * policy.maxTokensPerTrial)
    (spent : retries ≤ policy.maxRetriesPerTrial ∨ inputTokens + outputTokens = 0) :
    Recorded policy slot.trialIndex (failureEvidence platform slot status reasonCode inputTokens outputTokens) := by
  obtain ⟨known, failed, reason⟩ := failure
  refine ⟨rfl, seed, attempts, known, ?_, Nat.zero_le _, fun _ => rfl, reason,
    validateStepDigest_digestJson hash _ _, ⟨retries, ?_, accounted⟩, ?_⟩
  · intro completed
    exact absurd (completed.symm.trans failed) (by decide)
  · show retries ≤ slot.attempt - (isCompleted status).toNat
    rw [failed]
    exact few
  · intro within
    show inputTokens + outputTokens + slot.retryAccountedTokens ≤ _
    change inputTokens + outputTokens ≤ _ at within
    rw [trialBudget]
    rcases spent with fewer | nothing
    · have least := Nat.mul_le_mul_right policy.maxTokensPerTrial fewer
      rw [Nat.succ_mul]
      omega
    · have least := Nat.mul_le_mul_right policy.maxTokensPerTrial (few.trans attempts)
      omega

structure Slot.Running (policy : StochasticEvaluatorPolicy) (slot : Slot) : Prop where
  seed : stochasticSeed policy slot.trialIndex = .ok slot.seed
  started : 0 < slot.attempt
  attempts : slot.attempt ≤ policy.maxRetriesPerTrial + 1
  accounted : slot.retryAccountedTokens = (slot.attempt - 1) * policy.maxTokensPerTrial

theorem Slot.Running.failure_recorded (hash : ∀ bytes, (platform.sha256 bytes).length = 32)
    (running : slot.Running policy) (failure : IsFailure status reasonCode) :
    Recorded policy slot.trialIndex (failureEvidence platform slot status reasonCode inputTokens outputTokens) := by
  have attempts := running.attempts
  exact failureEvidence_recorded hash failure running.seed attempts (Nat.sub_le _ _)
    running.accounted (.inl (by omega))

variable {output : StochasticTrialOutput}

theorem validateStochasticOutput_eq_ok {valid : StochasticTrialOutput}
    (success : validateStochasticOutput output policy limits = .ok valid) :
    valid.scoreMicros ≤ 1000000 ∧ validateReasonCode valid.reasonCode = .ok () ∧
      saturated (output.inputTokens + output.outputTokens) ≤ policy.maxTokensPerTrial ∧
      valid.inputTokens = output.inputTokens ∧ valid.outputTokens = output.outputTokens := by
  obtain ⟨accepted, success⟩ := ite_error_eq_ok.mp success
  obtain ⟨_, success⟩ := ite_error_eq_ok.mp success
  cases success
  simp only [not_or, not_lt, not_not] at accepted
  obtain ⟨_, score, reason, tokens⟩ := accepted
  exact ⟨score, reason, tokens, rfl, rfl⟩

theorem isCompleted_trialStatus (output : StochasticTrialOutput) :
    isCompleted (trialStatus output) ∧ isStatus (trialStatus output) := by
  unfold trialStatus
  split <;> decide

theorem Slot.Running.success_recorded (hash : ∀ bytes, (platform.sha256 bytes).length = 32)
    (running : slot.Running policy)
    (score : output.scoreMicros ≤ 1000000) (reason : validateReasonCode output.reasonCode = .ok ()) :
    Recorded policy slot.trialIndex (successEvidence platform slot output) := by
  obtain ⟨completed, known⟩ := isCompleted_trialStatus output
  refine ⟨rfl, running.seed, running.attempts, known, fun _ => running.started, score, ?_, reason,
    validateStepDigest_digestJson hash _ _, ⟨slot.attempt - 1, ?_, running.accounted⟩, ?_⟩
  · intro unfinished
    exact absurd (completed.symm.trans unfinished) (by decide)
  · show slot.attempt - 1 ≤ slot.attempt - (isCompleted (trialStatus output)).toNat
    rw [completed]
    exact le_rfl
  · intro within
    show output.inputTokens + output.outputTokens + slot.retryAccountedTokens ≤ _
    change output.inputTokens + output.outputTokens ≤ _ at within
    have attempts := running.attempts
    have fewer : slot.attempt - 1 ≤ policy.maxRetriesPerTrial := by omega
    have least := Nat.mul_le_mul_right policy.maxTokensPerTrial fewer
    rw [running.accounted, trialBudget, Nat.succ_mul]
    omega

structure Settled (policy : StochasticEvaluatorPolicy) (limits : EvaluatorResourceLimits)
    (trialIndex : Nat) (decided : Option AttemptOutcome) (trial : StochasticTrialEvidence) : Prop where
  recorded : Recorded policy trialIndex trial
  completed : isCompleted trial.status ↔ ∃ outcome, decided = some outcome ∧ outcome.completes policy limits
  tokens : trial.inputTokens + trial.outputTokens = (decided.map AttemptOutcome.reported).getD 0

theorem StochasticTrialError.isFailure (error : StochasticTrialError) : IsFailure error.status.1 error.status.2 := by
  unfold StochasticTrialError.status
  split <;> decide +kernel

theorem validateStochasticOutput_error {reason : String}
    (rejected : validateStochasticOutput output policy limits = .error reason) : IsFailure statusError reason := by
  unfold validateStochasticOutput at rejected
  split at rejected
  · cases rejected
    decide +kernel
  · split at rejected
    · cases rejected
      decide +kernel
    · cases rejected

theorem Slot.Running.retried_tokens (budgeted : Budgeted policy) (running : slot.Running policy) :
    (slot.retried policy).retryAccountedTokens = slot.attempt * policy.maxTokensPerTrial := by
  have next : (slot.attempt - 1) * policy.maxTokensPerTrial + policy.maxTokensPerTrial =
      slot.attempt * policy.maxTokensPerTrial := by
    rw [← Nat.succ_mul, Nat.succ_eq_add_one, Nat.sub_add_cancel running.started]
  rw [Slot.retried, running.accounted, next]
  exact budgeted.saturated_eq running.attempts

theorem Slot.Running.retryAttempt_again (budgeted : Budgeted policy) (running : slot.Running policy)
    (room : totalTokens + policy.maxTokensPerTrial ≤ policy.maxTotalTokens)
    (granted : slot.attempt ≤ policy.maxRetriesPerTrial) :
    ∃ retried after, retryAttempt platform policy slot totalTokens = .again retried after ∧
      Slot.Running policy { slot with attempt := slot.attempt + 1, retryAccountedTokens := retried } ∧
      after ≤ totalTokens + policy.maxTokensPerTrial := by
  have after_le : addTokens totalTokens policy.maxTokensPerTrial 0 ≤
      totalTokens + policy.maxTokensPerTrial := Nat.min_le_left _ _
  refine ⟨_, _, ?_, ⟨running.seed, Nat.succ_pos _, Nat.succ_le_succ granted,
    running.retried_tokens budgeted⟩, after_le⟩
  rw [retryAttempt, if_neg (not_lt.mpr (after_le.trans room)), if_pos granted]

section
variable {outcome : AttemptOutcome} (hash : ∀ bytes, (platform.sha256 bytes).length = 32)
include hash

section
variable (running : slot.Running policy)
  (failure : IsFailure status reasonCode)
  (incomplete : outcome.completes policy limits = false)
  (reported : inputTokens + outputTokens = outcome.reported)
include running failure incomplete reported

theorem Slot.Running.failure_settled : Settled policy limits slot.trialIndex (some outcome)
      (failureEvidence platform slot status reasonCode inputTokens outputTokens) := by
  refine ⟨running.failure_recorded hash failure, ?_, reported⟩
  have failed : isCompleted status = false := failure.2.1
  show isCompleted status ↔ _
  simp [failed, incomplete]

theorem Slot.Running.reportedFailure_settled (totalTokens : Nat) :
    ∃ trial after, reportedFailure platform policy slot totalTokens status reasonCode inputTokens outputTokens =
        .done trial after ∧
      Settled policy limits slot.trialIndex (some outcome) trial ∧ isCompleted trial.status = false := by
  have budgetFailure : IsFailure statusUnavailable reasonStochasticTokenBudget := by decide +kernel
  unfold reportedFailure
  split
  · exact ⟨_, _, rfl, running.failure_settled hash budgetFailure incomplete reported, budgetFailure.2.1⟩
  · exact ⟨_, _, rfl, running.failure_settled hash failure incomplete reported, failure.2.1⟩

end

/-- An output that is valid is recorded as a success: the ceilings of the trials cover its tokens. -/
theorem Slot.Running.completedAttempt_settled (budgeted : Budgeted policy)
    (running : slot.Running policy) {output valid : StochasticTrialOutput}
    (room : totalTokens + policy.maxTokensPerTrial ≤ policy.maxTotalTokens)
    (success : validateStochasticOutput output policy limits = .ok valid) :
    ∃ trial after, completedAttempt platform policy slot totalTokens valid = .done trial after ∧
      Settled policy limits slot.trialIndex (some (.replied (.ok output))) trial ∧
      after ≤ totalTokens + policy.maxTokensPerTrial := by
  obtain ⟨score, reason, tokens, sameInput, sameOutput⟩ := validateStochasticOutput_eq_ok success
  rw [budgeted.saturated_le_iff] at tokens
  have after_le : addTokens totalTokens valid.inputTokens valid.outputTokens ≤
      totalTokens + policy.maxTokensPerTrial := by
    refine (Nat.min_le_left _ _).trans ?_
    omega
  unfold completedAttempt
  rw [if_neg (not_lt.mpr (after_le.trans room))]
  refine ⟨_, _, rfl, ⟨running.success_recorded hash score reason, ?_, ?_⟩, after_le⟩
  · have completed := (isCompleted_trialStatus valid).1
    show isCompleted (trialStatus valid) ↔ _
    simp [completed, AttemptOutcome.completes, success, Except.isOk, Except.toBool]
  · show valid.inputTokens + valid.outputTokens = _
    rw [sameInput, sameOutput]
    rfl

theorem runAttempt_settled (limits : EvaluatorResourceLimits) (budgeted : Budgeted policy)
    (running : slot.Running policy) (room : totalTokens + policy.maxTokensPerTrial ≤ policy.maxTotalTokens)
    (final : outcome.retryable = false) :
    ∃ trial after, runAttempt platform policy limits slot totalTokens outcome = .done trial after ∧
      Settled policy limits slot.trialIndex (some outcome) trial ∧
      (isCompleted trial.status → after ≤ totalTokens + policy.maxTokensPerTrial) := by
  have failed : ∀ {status reasonCode : String}, IsFailure status reasonCode →
      outcome.completes policy limits = false → outcome.reported = 0 →
      Settled policy limits slot.trialIndex (some outcome) (failureEvidence platform slot status reasonCode 0 0) ∧
        (isCompleted (failureEvidence platform slot status reasonCode 0 0).status →
          totalTokens ≤ totalTokens + policy.maxTokensPerTrial) := by
    intro status reasonCode failure incomplete nothing
    exact ⟨running.failure_settled hash failure incomplete nothing.symm, fun _ => Nat.le_add_right _ _⟩
  cases outcome with
  | outOfTime | noThread | cancelled | timedOut | panicked => exact ⟨_, _, rfl, failed (by decide +kernel) rfl rfl⟩
  | replied reply =>
    cases reply with
    | error error =>
      have notRetryable : runAttempt platform policy limits slot totalTokens (.replied (.error error)) =
          reportedFailure platform policy slot totalTokens error.status.1 error.status.2
            error.tokens.1 error.tokens.2 := by
        cases error with
        | retryable => cases final
        | _ => rfl
      obtain ⟨trial, after, same, settled, incomplete⟩ :=
        running.reportedFailure_settled hash error.isFailure
          (rfl : AttemptOutcome.completes policy limits (.replied (.error error)) = false) rfl totalTokens
      refine ⟨trial, after, notRetryable.trans same, settled, ?_⟩
      simp [incomplete]
    | ok output =>
      cases valid : validateStochasticOutput output policy limits with
      | ok value =>
        obtain ⟨trial, after, same, settled, bounded⟩ :=
          running.completedAttempt_settled hash budgeted room valid
        refine ⟨trial, after, ?_, settled, fun _ => bounded⟩
        simp only [runAttempt, valid, same]
      | error reason =>
        have incomplete : AttemptOutcome.completes policy limits (.replied (.ok output)) = false := by
          simp [AttemptOutcome.completes, valid, Except.isOk, Except.toBool]
        obtain ⟨trial, after, same, settled, unfinished⟩ :=
          running.reportedFailure_settled hash (validateStochasticOutput_error valid) incomplete rfl totalTokens
        refine ⟨trial, after, ?_, settled, ?_⟩
        · simp only [runAttempt, valid, same]
        · simp [unfinished]

theorem Slot.Running.retryAttempt_done (limits : EvaluatorResourceLimits) (budgeted : Budgeted policy)
    (running : slot.Running policy) (exhausted : ¬ slot.attempt ≤ policy.maxRetriesPerTrial) (totalTokens : Nat) :
    ∃ trial after, retryAttempt platform policy slot totalTokens = .done trial after ∧
      Settled policy limits slot.trialIndex none trial ∧ isCompleted trial.status = false := by
  have settled : ∀ {reasonCode : String}, IsFailure statusUnavailable reasonCode →
      Settled policy limits slot.trialIndex none
        (failureEvidence platform (slot.retried policy) statusUnavailable reasonCode 0 0) := by
    intro reasonCode failure
    refine ⟨?_, ?_, rfl⟩
    · show Recorded policy (slot.retried policy).trialIndex _
      exact failureEvidence_recorded hash failure running.seed running.attempts le_rfl
        (running.retried_tokens budgeted) (.inr rfl)
    · show isCompleted statusUnavailable ↔ _
      simp [failure.2.1]
  rw [retryAttempt]
  split
  · exact ⟨_, _, rfl, settled (by decide +kernel), rfl⟩
  · exact ⟨_, _, rfl, settled (by decide +kernel), rfl⟩

theorem runAttempts_settled (limits : EvaluatorResourceLimits) (budgeted : Budgeted policy)
    (outcome : Nat → AttemptOutcome) {left : Nat}
    (running : slot.Running policy) (span : slot.attempt + left = policy.maxRetriesPerTrial + 2)
    (room : totalTokens + left * policy.maxTokensPerTrial ≤ policy.maxTotalTokens) :
    ∃ trial after, runAttempts platform policy limits outcome left slot totalTokens = some (trial, after) ∧
      Settled policy limits slot.trialIndex (decisive outcome left slot.attempt) trial ∧
      (isCompleted trial.status → after ≤ totalTokens + left * policy.maxTokensPerTrial) := by
  induction left generalizing slot totalTokens with
  | zero =>
    have attempts := running.attempts
    omega
  | succ left ih =>
    rw [Nat.succ_mul] at room ⊢
    have first : totalTokens + policy.maxTokensPerTrial ≤ policy.maxTotalTokens := by omega
    cases again : (outcome slot.attempt).retryable with
    | false =>
      obtain ⟨trial, after, same, settled, bounded⟩ :=
        runAttempt_settled hash limits budgeted running first again
      refine ⟨trial, after, ?_, ?_, ?_⟩
      · rw [runAttempts, same]
      · rw [decisive, again]
        exact settled
      · intro completed
        have := bounded completed
        omega
    | true =>
      have retry : runAttempt platform policy limits slot totalTokens (outcome slot.attempt) =
          retryAttempt platform policy slot totalTokens := by
        revert again
        generalize outcome slot.attempt = reply
        unfold AttemptOutcome.retryable
        split
        · intro _
          rfl
        · intro no
          cases no
      have skipped : decisive outcome (left + 1) slot.attempt = decisive outcome left (slot.attempt + 1) := by
        rw [decisive, again, if_pos rfl]
      rw [runAttempts, retry, skipped]
      by_cases granted : slot.attempt ≤ policy.maxRetriesPerTrial
      · obtain ⟨retried, after, same, runningNext, bounded⟩ :=
          running.retryAttempt_again budgeted first granted
        have spanRest : slot.attempt + 1 + left = policy.maxRetriesPerTrial + 2 := by omega
        have roomRest : after + left * policy.maxTokensPerTrial ≤ policy.maxTotalTokens := by omega
        obtain ⟨trial, last, sameRest, settled, boundedRest⟩ := ih runningNext spanRest roomRest
        rw [same]
        refine ⟨trial, last, sameRest, settled, ?_⟩
        intro completed
        have := boundedRest completed
        omega
      · have last : left = 0 := by
          omega
        subst last
        obtain ⟨trial, after, same, settled, unfinished⟩ :=
          running.retryAttempt_done hash limits budgeted granted totalTokens
        rw [same]
        refine ⟨trial, after, rfl, settled, ?_⟩
        simp [unfinished]

end

/-- The population after `count` trials, against the replies of the environment. -/
structure Population.Tracks (environment : Environment) (policy : StochasticEvaluatorPolicy)
    (limits : EvaluatorResourceLimits) (count : Nat) (population : Population) : Prop where
  length : population.trials.length = count
  recorded : ∀ entry ∈ population.trials.zipIdx, Recorded policy entry.2 entry.1
  going : population.terminalFailure = false ↔ ∀ trialIndex < count, Completes environment policy limits trialIndex
  within : (∀ trial ∈ population.trials, trial.inputTokens + trial.outputTokens ≤ policy.maxTokensPerTrial) ↔
    ∀ trialIndex < count, ¬ OverreportsAt environment policy limits trialIndex
  total : population.terminalFailure = false → population.totalTokens ≤ count * trialBudget policy

structure Population.Extends (environment : Environment) (policy : StochasticEvaluatorPolicy)
    (limits : EvaluatorResourceLimits) (count : Nat) (before after : Population)
    (trial : StochasticTrialEvidence) : Prop where
  trials : after.trials = before.trials ++ [trial]
  recorded : Recorded policy count trial
  going : after.terminalFailure = false ↔ before.terminalFailure = false ∧ Completes environment policy limits count
  within : trial.inputTokens + trial.outputTokens ≤ policy.maxTokensPerTrial ↔
    ¬ OverreportsAt environment policy limits count
  total : after.terminalFailure = false → after.totalTokens ≤ (count + 1) * trialBudget policy

variable {population after : Population} {count : Nat}

theorem Population.Tracks.extend (tracks : population.Tracks environment policy limits count)
    (step : Population.Extends environment policy limits count population after trial) :
    after.Tracks environment policy limits (count + 1) := by
  refine ⟨?_, ?_, ?_, ?_, step.total⟩
  · rw [step.trials, List.length_append, tracks.length]
    rfl
  · intro entry member
    rw [step.trials, zipIdx_append, mem_append] at member
    rcases member with earlier | last
    · exact tracks.recorded entry earlier
    · rw [tracks.length, Nat.zero_add, zipIdx_singleton, mem_singleton] at last
      rw [last]
      exact step.recorded
  · rw [step.going, tracks.going, Nat.forall_lt_succ_right]
  · rw [step.trials, forall_mem_append, tracks.within, forall_mem_singleton, step.within, Nat.forall_lt_succ_right]

theorem Population.Tracks.extend_skipped (hash : ∀ bytes, (platform.sha256 bytes).length = 32)
    {seed : Int} (seeded : stochasticSeed policy count = .ok seed) (failure : IsFailure statusSkipped reasonCode)
    (trials : after.trials = population.trials ++
      [failureEvidence platform ⟨count, seed, 0, 0⟩ statusSkipped reasonCode 0 0])
    (stopped : after.terminalFailure = true)
    (unrun : ¬ (population.terminalFailure = false ∧ environment.cancelled count = false))
    (tracks : population.Tracks environment policy limits count) :
    after.Tracks environment policy limits (count + 1) := by
  refine tracks.extend ⟨trials, ?_, ?_, ?_, ?_⟩
  · show Recorded policy (Slot.mk count seed 0 0).trialIndex _
    exact failureEvidence_recorded hash failure seeded (Nat.zero_le _) le_rfl (Nat.zero_mul _).symm (.inr rfl)
  · constructor
    · intro going
      exact absurd (stopped.symm.trans going) (by decide)
    · rintro ⟨going, completes⟩
      exact absurd ⟨going, completes.1⟩ unrun
  · refine iff_of_true (Nat.zero_le _) ?_
    rintro ⟨earlier, uncancelled, _⟩
    exact unrun ⟨tracks.going.mpr earlier, uncancelled⟩
  · intro going
    exact absurd (stopped.symm.trans going) (by decide)

theorem reported_le_iff (earlier : ∀ trialIndex < count, Completes environment policy limits trialIndex)
    (uncancelled : environment.cancelled count = false) :
    ((environment.decides policy count).map AttemptOutcome.reported).getD 0 ≤
      policy.maxTokensPerTrial ↔ ¬ OverreportsAt environment policy limits count := by
  cases decided : environment.decides policy count with
  | none => simp [OverreportsAt, decided]
  | some outcome =>
    rw [← not_lt, not_iff_not]
    constructor
    · intro above
      exact ⟨earlier, uncancelled, outcome, decided, above⟩
    · rintro ⟨_, _, other, same, above⟩
      cases decided.symm.trans same
      exact above

variable (hash : ∀ bytes, (platform.sha256 bytes).length = 32) (budgeted : Budgeted policy)
include hash budgeted

theorem runTrial_tracks (tracks : population.Tracks environment policy limits count) (free : count < policy.trialCount)
    (success : runTrial platform policy limits environment population count = .ok after) :
    after.Tracks environment policy limits (count + 1) := by
  obtain ⟨seed, seeded, success⟩ := bind_eq_ok.mp success
  split at success
  · rename_i stopped
    cases success
    exact tracks.extend_skipped hash seeded (by decide +kernel) rfl stopped (by simp [stopped])
  split at success
  · rename_i cancelled
    cases success
    exact tracks.extend_skipped hash seeded (by decide +kernel) rfl rfl (by simp [cancelled])
  rename_i going uncancelled
  rw [Bool.not_eq_true] at going uncancelled
  have earlier := tracks.going.mp going
  have running : Slot.Running policy ⟨count, seed, 1, 0⟩ :=
    ⟨seeded, Nat.one_pos, Nat.le_add_left 1 _, (Nat.zero_mul _).symm⟩
  have room : population.totalTokens + trialBudget policy ≤ policy.maxTotalTokens := by
    have total := tracks.total going
    have enough := budgeted.room free
    omega
  obtain ⟨trial, totalTokens, same, settled, bounded⟩ :=
    runAttempts_settled hash limits budgeted (environment.attempt count) running (Nat.add_comm 1 _) room
  rw [trialAttempts, same] at success
  cases success
  refine tracks.extend ⟨rfl, settled.recorded, ?_, ?_, ?_⟩
  · show (! isCompleted trial.status) = false ↔ _
    rw [Bool.not_eq_false', settled.completed]
    exact ⟨fun completes => ⟨going, uncancelled, completes⟩, fun completes => completes.2.2⟩
  · rw [settled.tokens]
    exact reported_le_iff earlier uncancelled
  · intro completed
    rw [Bool.not_eq_false'] at completed
    have total := tracks.total going
    have spent := bounded completed
    rw [Nat.succ_mul]
    show totalTokens ≤ _
    rw [← trialBudget] at spent
    omega

theorem runTrials_tracks (success : runTrials platform policy limits environment = .ok population) :
    population.Tracks environment policy limits policy.trialCount := by
  have tracked : ∀ count ≤ policy.trialCount, ∀ population,
      (List.range count).foldlM (runTrial platform policy limits environment) ⟨[], false, 0⟩ =
        .ok population → population.Tracks environment policy limits count := by
    intro count
    induction count with
    | zero =>
      intro _ population start
      cases start
      exact ⟨rfl, by simp, by simp, by simp, fun _ => Nat.zero_le _⟩
    | succ count ih =>
      intro few population success
      rw [range_succ, foldlM_append] at success
      obtain ⟨before, earlier, success⟩ := bind_eq_ok.mp success
      obtain ⟨last, step, done⟩ := bind_eq_ok.mp success
      cases done
      exact runTrial_tracks hash budgeted (ih (by omega) before earlier) few step
  exact tracked policy.trialCount le_rfl population success

end SekaiChisei.Evaluation
