import SekaiChisei.Lib.JsonValue
import SekaiChisei.Receipts.Verify

/-!
Evaluation plans and the policies of stochastic evaluators: `chisei/evaluation_plan.rs`. What comes from libraries are
the fields of `Platform`.
-/

namespace SekaiChisei.Evaluation
open Lib Lib.Json List
open Receipts (textBytes stripPrefix toAsciiLowercase)

structure Platform where
  sha256 : List UInt8 → List UInt8
  parseJson : String → Except String Value
  isAlphanumeric : Char → Bool
  quoted : String → String

def evaluationPlanContract : String := "chisei.evaluation-plan/v1"
def stochasticAggregationMeanVariance : String := "mean_score_with_variance/v1"
def stochasticResultSchema : String := "chisei.stochastic-trial-result/v1"
def stochasticEgressLocalOnly : String := "local_only/v1"
def stochasticEgressAllowlistedExternal : String := "allowlisted_external/v1"
def stochasticRawRetentionNone : String := "none/v1"
def fixedReducer : String := "required_all_pass_advisory_observed/v1"
def nodeRequired : String := "required"
def nodeAdvisory : String := "advisory"
def inputSubject : String := "subject"
def inputInvariant : String := "invariant"
def inputEvidence : String := "evidence"

def maxPlanNodes : Nat := 64
def maxNodeDependencies : Nat := 16
def maxNodeBindings : Nat := 16
def maxNodeInvariants : Nat := 64
def maxPlanDependencies : Nat := 256
def maxPlanBindings : Nat := 256
def maxPlanInvariants : Nat := 256
def maxDocumentBytes : Nat := 256 * 1024
def maxStringBytes : Nat := 1024
def minStochasticTrials : Nat := 2
def maxStochasticTrials : Nat := 32
def maxStochasticRetriesPerTrial : Nat := 2

def u32Max : Nat := 2 ^ 32 - 1
def u64Max : Nat := 2 ^ 64 - 1
def i32Max : Nat := 2 ^ 31 - 1
def i64Max : Int := 2 ^ 63 - 1

variable (value : String)

def canonicalText : Bool :=
  trim value ≠ "" && trim value = value && value.utf8ByteSize ≤ maxStringBytes

def validateToken (name value : String) : Except String Unit :=
  if ¬ canonicalText value ∨ value.toList.any isWhitespace then
    .error (name ++ " must be non-empty, canonical, bounded, and contain no whitespace")
  else .ok ()

def validateReference (name value : String) : Except String Unit :=
  if ¬ canonicalText value then .error (name ++ " must be non-empty, canonical, and bounded")
  else .ok ()

def isLowerHexDigit (c : Char) : Bool := c.isDigit || ('a' ≤ c && c ≤ 'f')

def validateDigest (name value : String) : Except String Unit :=
  match stripPrefix value "sha256:" with
  | none => .error (name ++ " must be a sha256 digest")
  | some hex =>
    if hex.utf8ByteSize ≠ 64 ∨ ¬ hex.toList.all isLowerHexDigit then
      .error (name ++ " must be a sha256 digest")
    else .ok ()

def validateVersion : Except String Unit := do
  validateToken "version" value
  if toAsciiLowercase value ∈ ["latest", "current", "default", "stable", "head"] then
    .error "version must be exact; unversioned aliases are not supported"
  else .ok ()

def canonicalContract (value expected name : String) : Except String String :=
  if value = "" ∨ value = expected then .ok expected
  else .error ("unsupported " ++ name ++ " contract version")

def normalizeTokens (name : String) (values : List String) (allowEmpty : Bool) : Except String (List String) := do
  values.forM (validateToken name)
  if ¬ values.Nodup then .error (name ++ " contains duplicates")
  else if allowEmpty = false ∧ values = [] then .error (name ++ " required")
  else .ok (values.insertionSort (· ≤ ·))

structure StochasticEvaluatorPolicy where
  (provider model promptProfile promptProfileDigest resultSchema : String)
  (trialCount temperatureMillis topPMillionths : Nat)
  seedSupported : Bool
  baseSeed : Int
  aggregationRule : String
  (minimumMeanScoreMicros minimumPassRateBasisPoints maximumScoreVarianceMicrosSquared : Nat)
  gateEligible : Bool
  (maxRetriesPerTrial maxTokensPerTrial maxTotalTokens : Nat)
  (egressPolicy rawResponseRetention : String)

def startsWith (value start : String) : Bool := start.toList.isPrefixOf value.toList

def isHostedNameChar (c : Char) : Bool :=
  ('a' ≤ c && c ≤ 'z') || c.isDigit || c = '-' || c = '_'

def isHostedProvider (provider : String) : Bool :=
  match stripPrefix provider "hosted." with
  | none => false
  | some name => name ≠ "" && name.utf8ByteSize ≤ 64 && name.toList.all isHostedNameChar

/-- The provider of a model id, `resolve_provider_model`; the texts of its errors are not used. -/
def resolveProviderModel (model : String) : Option String :=
  match splitOnce '/' model with
  | some (provider, upstream) =>
    if toAsciiLowercase upstream = "kiro" ∨ upstream = "" then none
    else if isHostedProvider provider then some provider
    else if provider ∈ ["openai", "anthropic", "ollama", "native", "xai", "meta"] then some provider
    else none
  | none =>
    if toAsciiLowercase model = "kiro" then none
    else if startsWith model "claude" ∨ model ∈ ["sonnet", "haiku", "opus", "fable"] then
      some "anthropic"
    else if startsWith model "native-" ∨ startsWith model "fallback:" then some "native"
    else if ["gpt-", "o1", "o2", "o3", "o4", "o5", "ft:gpt-", "codex-", "text-embedding-",
        "tts-"].any (startsWith model) then some "openai"
    else none

section
variable (platform : Platform)

def validModelIdentifier (model : String) : Bool :=
  model ≠ "" && model.utf8ByteSize ≤ 128 && model.toList.all fun c =>
    platform.isAlphanumeric c || c = '-' || c = '_' || c = '.' || c = '/' || c = ':'

def resolveProviderId (model : String) : Option String :=
  if validModelIdentifier platform model then resolveProviderModel model else none

def validatePolicyRoute (policy : StochasticEvaluatorPolicy) (supportedResultSchemas : List String) :
    Except String Unit := do
  validateToken "stochastic provider" policy.provider
  validateReference "stochastic model" policy.model
  validateReference "stochastic prompt_profile" policy.promptProfile
  validateDigest "stochastic prompt_profile_digest" policy.promptProfileDigest
  validateReference "stochastic result_schema" policy.resultSchema
  if policy.resultSchema ≠ stochasticResultSchema then
    .error "stochastic v1 requires the normalized trial result schema"
  else if policy.resultSchema ∉ supportedResultSchemas then
    .error "stochastic result_schema must be supported by the evaluator"
  else match resolveProviderId platform policy.model with
    | none => .error "stochastic model must use an explicit supported provider prefix"
    | some provider =>
      if provider ≠ policy.provider then
        .error "stochastic provider does not match the exact model route"
      else .ok ()

end

variable (policy : StochasticEvaluatorPolicy)

def validatePolicySampling : Except String Unit :=
  if policy.trialCount < minStochasticTrials ∨ policy.trialCount > maxStochasticTrials then
    .error "stochastic trial_count must be between 2 and 32"
  else if policy.temperatureMillis > 2000 ∨ policy.topPMillionths = 0 ∨ policy.topPMillionths > 1000000 then
    .error "stochastic sampling parameters are out of bounds"
  else if (policy.seedSupported = true ∧ policy.baseSeed ≤ 0) ∨
      (policy.seedSupported = false ∧ policy.baseSeed ≠ 0) then
    .error "stochastic base_seed must be positive only when the provider supports seeds"
  else if policy.seedSupported = true ∧ policy.baseSeed + (policy.trialCount - 1 : Nat) > i64Max then
    .error "stochastic base_seed cannot cover every fixed trial slot"
  else if policy.seedSupported = true ∧ policy.provider ≠ "openai" then
    .error "stochastic v1 permits seeded trials only through the OpenAI seed parameter"
  else if policy.aggregationRule ≠ stochasticAggregationMeanVariance then
    .error "unsupported stochastic aggregation_rule"
  else if policy.minimumMeanScoreMicros > 1000000 ∨ policy.minimumPassRateBasisPoints > 10000 ∨
      policy.maximumScoreVarianceMicrosSquared > 1000000000000 then
    .error "stochastic acceptance thresholds are out of bounds"
  else .ok ()

def maximumAttempts : Nat :=
  policy.trialCount * (policy.maxRetriesPerTrial + 1) * policy.maxTokensPerTrial

def validatePolicyBudget : Except String Unit :=
  if policy.maxRetriesPerTrial > maxStochasticRetriesPerTrial then
    .error "stochastic max_retries_per_trial exceeds 2"
  else if policy.maxTokensPerTrial = 0 ∨ policy.maxTotalTokens = 0 then
    .error "stochastic token budgets must be positive"
  else if policy.maxTotalTokens > i32Max then
    .error "stochastic max_total_tokens exceeds the budget tracker range"
  else if maximumAttempts policy > u64Max then .error "stochastic token budget overflows"
  else if maximumAttempts policy > policy.maxTotalTokens then
    .error "stochastic max_total_tokens must cover every fixed trial slot and bounded retry"
  else .ok ()

def validatePolicyEgress : Except String Unit :=
  if policy.egressPolicy = stochasticEgressLocalOnly then
    if policy.provider = "ollama" then .ok ()
    else .error "local-only stochastic egress requires the ollama provider"
  else if policy.egressPolicy = stochasticEgressAllowlistedExternal then
    if policy.provider ≠ "ollama" then .ok ()
    else .error "ollama stochastic evaluation must use local-only egress"
  else .error "unsupported stochastic egress_policy"

def validateStochasticPolicy (platform : Platform) (policy : StochasticEvaluatorPolicy)
    (supportedResultSchemas : List String) : Except String Unit := do
  validatePolicyRoute platform policy supportedResultSchemas
  validatePolicySampling policy
  validatePolicyBudget policy
  validatePolicyEgress policy
  if policy.rawResponseRetention ≠ stochasticRawRetentionNone then
    .error ("stochastic v1 supports only no raw prompt/response retention; encrypted retention " ++
      "requires a dedicated governed store")
  else .ok ()

structure EvaluationInputBinding where
  (name sourceKind schemaId : String)
  deriving DecidableEq

structure EvaluationPlanNode where
  (nodeId evaluatorDefinitionId : String)
  dependsOnNodeIds : List String
  inputBindings : List EvaluationInputBinding
  parametersJson : String
  invariantVersionIds : List String
  classification : String
  deriving DecidableEq

structure EvaluationPlan where
  (contractVersion planVersionId nameSpace planId version : String)
  acceptedSubjectProfiles : List String
  nodes : List EvaluationPlanNode
  (reducer sourceRef contentDigest createdBy : String)
  createdAtMs : Int

def EvaluationInputBinding.toJson (binding : EvaluationInputBinding) : Value :=
  .object [("name", .string binding.name), ("source_kind", .string binding.sourceKind),
    ("schema_id", .string binding.schemaId)]

def EvaluationPlanNode.toJson (node : EvaluationPlanNode) : Value :=
  .object [("node_id", .string node.nodeId), ("evaluator_definition_id", .string node.evaluatorDefinitionId),
    ("depends_on_node_ids", .strings node.dependsOnNodeIds),
    ("input_bindings", .array (node.inputBindings.map EvaluationInputBinding.toJson)),
    ("parameters_json", .string node.parametersJson),
    ("invariant_version_ids", .strings node.invariantVersionIds),
    ("classification", .string node.classification)]

def EvaluationPlan.content (plan : EvaluationPlan) : Value :=
  .object [("contract_version", .string plan.contractVersion), ("namespace", .string plan.nameSpace),
    ("plan_id", .string plan.planId), ("version", .string plan.version),
    ("accepted_subject_profiles", .strings plan.acceptedSubjectProfiles),
    ("nodes", .array (plan.nodes.map EvaluationPlanNode.toJson)),
    ("reducer", .string plan.reducer), ("source_ref", .string plan.sourceRef)]

def EvaluationPlan.toJson (plan : EvaluationPlan) : Value :=
  .object [("contract_version", .string plan.contractVersion),
    ("plan_version_id", .string plan.planVersionId), ("namespace", .string plan.nameSpace),
    ("plan_id", .string plan.planId), ("version", .string plan.version),
    ("accepted_subject_profiles", .strings plan.acceptedSubjectProfiles),
    ("nodes", .array (plan.nodes.map EvaluationPlanNode.toJson)),
    ("reducer", .string plan.reducer), ("source_ref", .string plan.sourceRef),
    ("content_digest", .string plan.contentDigest), ("created_by", .string plan.createdBy),
    ("created_at_ms", .int plan.createdAtMs)]

def isClassification : Bool := value = nodeRequired || value = nodeAdvisory

def isSourceKind : Bool :=
  value = inputSubject || value = inputInvariant || value = inputEvidence

def bindingLe (a b : EvaluationInputBinding) : Prop :=
  a.name < b.name ∨ a.name = b.name ∧
    (a.sourceKind < b.sourceKind ∨ a.sourceKind = b.sourceKind ∧ a.schemaId ≤ b.schemaId)
  deriving Decidable

def validateBinding (binding : EvaluationInputBinding) : Except String Unit := do
  validateToken "binding name" binding.name
  validateReference "binding schema_id" binding.schemaId
  if ¬ isSourceKind binding.sourceKind then
    .error "input binding source_kind must be subject, invariant, or evidence"
  else .ok ()

section
variable (platform : Platform)

def validateBindings : List EvaluationInputBinding → List String → Except String Unit
  | [], _ => .ok ()
  | binding :: rest, names => do
    validateBinding binding
    if binding.name ∈ names then
      .error ("duplicate input binding name " ++ platform.quoted binding.name)
    else validateBindings rest (binding.name :: names)

def normalizeParameters (parametersJson : String) : Except String String :=
  match platform.parseJson parametersJson with
  | .error error => .error ("parameters_json must be JSON: " ++ error)
  | .ok (.object fields) => .ok (Value.object fields).text
  | .ok _ => .error "parameters_json must be a JSON object"

def normalizeNode (node : EvaluationPlanNode) : Except String EvaluationPlanNode :=
  if ¬ isClassification node.classification then
    .error "node classification must be required or advisory"
  else do
    let dependsOnNodeIds ← normalizeTokens "depends_on_node_ids" node.dependsOnNodeIds true
    if dependsOnNodeIds.length > maxNodeDependencies then
      .error "node dependency count exceeds 16"
    else
      let invariantVersionIds ← normalizeTokens "invariant_version_ids" node.invariantVersionIds false
      if invariantVersionIds.length > maxNodeInvariants then
        .error "node invariant coverage exceeds 64"
      else if node.inputBindings = [] ∨ node.inputBindings.length > maxNodeBindings then
        .error "evaluation node requires 1..=16 input bindings"
      else
        let inputBindings := node.inputBindings.insertionSort bindingLe
        validateBindings platform inputBindings []
        let parametersJson ← normalizeParameters platform node.parametersJson
        .ok { node with dependsOnNodeIds, invariantVersionIds, inputBindings, parametersJson }

def normalizeNodes : List EvaluationPlanNode → List String → Except String (List EvaluationPlanNode)
  | [], _ => .ok []
  | node :: rest, ids => do
    validateToken "node_id" node.nodeId
    validateToken "evaluator_definition_id" node.evaluatorDefinitionId
    if node.nodeId ∈ ids then .error ("duplicate evaluation node " ++ platform.quoted node.nodeId)
    else
      let normalized ← normalizeNode platform node
      let others ← normalizeNodes rest (node.nodeId :: ids)
      .ok (normalized :: others)

def validateDependency (ids : List String) (node : EvaluationPlanNode) (dependency : String) : Except String Unit :=
  if dependency = node.nodeId ∨ dependency ∉ ids then
    .error ("node " ++ platform.quoted node.nodeId ++ " has unknown or self dependency " ++
      platform.quoted dependency)
  else .ok ()

def normalizeAndValidateNodes (nodes : List EvaluationPlanNode) : Except String (List EvaluationPlanNode) := do
  let normalized ← normalizeNodes platform (nodes.insertionSort fun a b => a.nodeId ≤ b.nodeId) []
  normalized.forM fun node =>
    node.dependsOnNodeIds.forM (validateDependency platform (normalized.map EvaluationPlanNode.nodeId) node)
  .ok normalized

end

def dependentsOf (nodes : List EvaluationPlanNode) (nodeId : String) : List String :=
  nodes.flatMap fun node => (node.dependsOnNodeIds.filter (· = nodeId)).map fun _ => node.nodeId

def release (state : List (String × Nat) × List String) (dependent : String) : List (String × Nat) × List String :=
  let inbound := state.1.map fun entry => if entry.1 = dependent then (entry.1, entry.2 - 1) else entry
  if inbound.any fun entry => entry.1 = dependent && entry.2 = 0 then (inbound, state.2 ++ [dependent])
  else (inbound, state.2)

/-- How many nodes the loop visits. A node becomes ready once, so there are as many rounds as nodes. -/
def visitReady (nodes : List EvaluationPlanNode) : Nat → List (String × Nat) → List String → Nat
  | 0, _, _ => 0
  | _ + 1, _, [] => 0
  | rounds + 1, inbound, nodeId :: ready =>
    let state := (dependentsOf nodes nodeId).foldl release (inbound, ready)
    visitReady nodes rounds state.1 state.2 + 1

def validateAcyclic (nodes : List EvaluationPlanNode) : Except String Unit :=
  let inbound := nodes.map fun node => (node.nodeId, node.dependsOnNodeIds.length)
  let ready := (inbound.filter (·.2 = 0)).map Prod.fst
  if visitReady nodes nodes.length inbound ready ≠ nodes.length then
    .error "evaluation plan graph contains a cycle"
  else .ok ()

def coverage (nodes : List EvaluationPlanNode) : List String :=
  (nodes.flatMap EvaluationPlanNode.invariantVersionIds).dedup

def validateGraph (nodes : List EvaluationPlanNode) : Except String Unit :=
  if (nodes.map fun node => node.dependsOnNodeIds.length).sum > maxPlanDependencies ∨
      (nodes.map fun node => node.inputBindings.length).sum > maxPlanBindings ∨
      (coverage nodes).length > maxPlanInvariants then
    .error "evaluation plan exceeds aggregate graph limits"
  else if ¬ coverage nodes ⊆ coverage (nodes.filter (·.classification = nodeRequired)) then
    .error "every covered invariant must be covered by a required node"
  else validateAcyclic nodes

section
variable (platform : Platform)

/-- `digest_json` of plans, over canonical JSON. -/
def digestCanonical (value : Value) : String :=
  "sha256:" ++ toHex (platform.sha256 (textBytes value.canonical.text))

def resourceId (kind : String) (parts : List String) : String :=
  kind ++ ":" ++ toHex (platform.sha256 (textBytes (parts.foldl (fun text part => text ++ "\x1f" ++ part) kind)))

def ensureSize (value : Value) (name : String) : Except String Unit :=
  if value.size > maxDocumentBytes then .error (name ++ " exceeds 262144 bytes") else .ok ()

def EvaluationPlan.stamped (plan : EvaluationPlan) (actor : String) (nowMs : Int) : EvaluationPlan :=
  { plan with
    planVersionId := resourceId platform "evaluation-plan" [plan.nameSpace, plan.planId, plan.version]
    contentDigest := digestCanonical platform plan.content
    createdBy := actor
    createdAtMs := nowMs }

def preparePlan (plan : EvaluationPlan) (actor : String) (nowMs : Int) : Except String EvaluationPlan := do
  let contractVersion ← canonicalContract plan.contractVersion evaluationPlanContract "evaluation plan"
  validateToken "namespace" plan.nameSpace
  validateToken "plan_id" plan.planId
  validateVersion plan.version
  let acceptedSubjectProfiles ← normalizeTokens "accepted_subject_profiles" plan.acceptedSubjectProfiles false
  validateReference "source_ref" plan.sourceRef
  if plan.reducer ≠ fixedReducer then
    .error "unknown reducer; v1 requires the fixed fail-closed reducer"
  else if plan.nodes = [] ∨ plan.nodes.length > maxPlanNodes then
    .error "evaluation plan requires 1..=64 nodes"
  else
    let nodes ← normalizeAndValidateNodes platform plan.nodes
    validateGraph nodes
    if trim actor = "" ∨ nowMs ≤ 0 then
      .error "authenticated actor and positive creation time required"
    else
      let prepared :=
        { plan with contractVersion, acceptedSubjectProfiles, nodes }.stamped platform actor nowMs
      ensureSize prepared.toJson "evaluation plan"
      .ok prepared

end

variable {platform : Platform} {nodes normalized : List EvaluationPlanNode}

theorem normalizeNode_nodeId {node other : EvaluationPlanNode}
    (success : normalizeNode platform node = .ok other) : other.nodeId = node.nodeId := by
  simp only [normalizeNode, ite_error_eq_ok, bind_eq_ok, Except.ok.injEq] at success
  obtain ⟨_, _, _, _, _, _, _, _, _, _, _, _, rfl⟩ := success
  rfl

theorem normalizeNodes_unique {ids : List String} (success : normalizeNodes platform nodes ids = .ok normalized) :
    (normalized.map EvaluationPlanNode.nodeId).Nodup ∧ ∀ node ∈ normalized, node.nodeId ∉ ids := by
  induction nodes generalizing ids normalized with
  | nil =>
    cases success
    simp
  | cons node rest ih =>
    obtain ⟨_, success⟩ := check_eq_ok.mp success
    obtain ⟨_, success⟩ := check_eq_ok.mp success
    obtain ⟨fresh, success⟩ := ite_error_eq_ok.mp success
    obtain ⟨first, normal, success⟩ := bind_eq_ok.mp success
    obtain ⟨others, later, success⟩ := bind_eq_ok.mp success
    cases success
    have sameId := normalizeNode_nodeId normal
    exact nodup_keys_cons (P := (· ∈ ids)) (sameId ▸ fresh) (by simpa [sameId] using ih later)

theorem preparePlan_unique {plan prepared : EvaluationPlan} {actor : String} {nowMs : Int}
    (success : preparePlan platform plan actor nowMs = .ok prepared) :
    (prepared.nodes.map EvaluationPlanNode.nodeId).Nodup := by
  simp only [preparePlan, ite_error_eq_ok, bind_eq_ok, Except.ok.injEq] at success
  obtain ⟨_, _, _, _, _, _, _, _, _, _, _, _, _, _, nodes, normal, _, _, _, _, _, rfl⟩ := success
  obtain ⟨sorted, first, rest⟩ := bind_eq_ok.mp normal
  obtain ⟨_, rest⟩ := check_eq_ok.mp rest
  cases rest
  exact (normalizeNodes_unique first).1

end SekaiChisei.Evaluation
