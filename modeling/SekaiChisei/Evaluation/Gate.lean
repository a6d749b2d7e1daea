import SekaiChisei.Evaluation.Steps
import SekaiChisei.Lib.Table

/-!
The reducer of an evaluation: `reduce_gate`, `reduce_cancelled_gate` and `validate_projection` of
`chisei/evaluation_execution.rs`, and when its decisions fail closed.
-/

namespace SekaiChisei.Evaluation
open Lib Lib.Json List Option

def gateDecisionContract : String := "chisei.evaluation-gate-decision/v1"
def statusRunning : String := "running"

inductive Verdict where
  | allow
  | deny
  | unknown
  | unavailable
  deriving DecidableEq

def Verdict.text : Verdict → String
  | allow => "allow"
  | deny => "deny"
  | unknown => "unknown"
  | unavailable => "unavailable"

structure InvariantCoverageDecision where
  invariantVersionId : String
  (coveredByNodeIds waiverVersionIds : List String)
  satisfied : Bool
  deriving DecidableEq

/-- Decisions are read from storage too, so the verdict is any text. -/
structure EvaluationGateDecision where
  (contractVersion manifestDigest reducer verdict reasonCode : String)
  stepReceiptDigests : List String
  invariantCoverage : List InvariantCoverageDecision
  decisionDigest : String
  deriving DecidableEq

def InvariantCoverageDecision.toJson (coverage : InvariantCoverageDecision) : Value :=
  .object [("invariant_version_id", .string coverage.invariantVersionId),
    ("covered_by_node_ids", .strings coverage.coveredByNodeIds),
    ("waiver_version_ids", .strings coverage.waiverVersionIds), ("satisfied", .bool coverage.satisfied)]

def EvaluationGateDecision.toJson (decision : EvaluationGateDecision) : Value :=
  .object [("contract_version", .string decision.contractVersion),
    ("manifest_digest", .string decision.manifestDigest), ("reducer", .string decision.reducer),
    ("verdict", .string decision.verdict), ("reason_code", .string decision.reasonCode),
    ("step_receipt_digests", .strings decision.stepReceiptDigests),
    ("invariant_coverage", .array (decision.invariantCoverage.map InvariantCoverageDecision.toJson)),
    ("decision_digest", .string decision.decisionDigest)]

def EvaluationGateDecision.content (decision : EvaluationGateDecision) : Value :=
  .array [.string decision.contractVersion, .string decision.manifestDigest, .string decision.reducer,
    .string decision.verdict, .string decision.reasonCode, .strings decision.stepReceiptDigests,
    .array (decision.invariantCoverage.map InvariantCoverageDecision.toJson)]

/-- `by_node`: the receipt of a node, the last one of several. -/
def receiptOf (steps : List EvaluationStepReceipt) (nodeId : String) : Option EvaluationStepReceipt :=
  Table.find EvaluationStepReceipt.nodeId steps.reverse nodeId

def nodeCount (steps : List EvaluationStepReceipt) : Nat :=
  (steps.map EvaluationStepReceipt.nodeId).dedup.length

def ResolvedEvaluationNode.required (node : ResolvedEvaluationNode) : Bool :=
  node.classification = nodeRequired

def requiredVerdict (required : List EvaluationStepReceipt) : Verdict × String :=
  if required.any (·.status = statusFail) then (.deny, "required_node_failed")
  else if required.any (·.status ∈ [statusUnavailable, statusError, statusCancelled]) then
    (.unavailable, "required_node_unavailable")
  else if required.any (·.status ∈ [statusUnknown, statusSkipped]) then
    (.unknown, "required_node_unknown")
  else if required.all (·.status = statusPass) then (.allow, "all_required_nodes_passed")
  else (.unavailable, "invalid_required_node_status")

section
variable (manifest : ResolvedEvaluationManifest) (steps : List EvaluationStepReceipt)

def requiredSteps : List EvaluationStepReceipt :=
  (manifest.nodes.filter ResolvedEvaluationNode.required).filterMap (receiptOf steps ·.nodeId)

/-- `waived`: the waivers of an invariant, each as often as it names it. -/
def waiversOf (invariantId : String) : List String :=
  manifest.waivers.flatMap fun waiver =>
    (waiver.invariantVersionIds.filter (· = invariantId)).map fun _ => waiver.waiverVersionId

/-- `invariant_nodes`: the nodes of an invariant, each as often as it names it. -/
def nodesOf (invariantId : String) : List ResolvedEvaluationNode :=
  manifest.nodes.flatMap fun node =>
    (node.invariants.filter (·.invariantVersionId = invariantId)).map fun _ => node

def allInvariantIds : List String :=
  (manifest.nodes.flatMap (·.invariants.map ResolvedInvariantBinding.invariantVersionId) ++
    manifest.waivers.flatMap ResolvedWaiverBinding.invariantVersionIds).dedup.insertionSort (· ≤ ·)

def passes (node : ResolvedEvaluationNode) : Bool :=
  (receiptOf steps node.nodeId).any (·.status = statusPass)

def coveringNodes (invariantId : String) : List ResolvedEvaluationNode :=
  ((nodesOf manifest invariantId).filter ResolvedEvaluationNode.required).filter (passes steps)

def coverageOf (invariantId : String) : InvariantCoverageDecision where
  invariantVersionId := invariantId
  coveredByNodeIds := ((coveringNodes manifest steps invariantId).map
    ResolvedEvaluationNode.nodeId).insertionSort (· ≤ ·)
  waiverVersionIds := (waiversOf manifest invariantId).insertionSort (· ≤ ·)
  satisfied := coveringNodes manifest steps invariantId ≠ [] || waiversOf manifest invariantId ≠ []

def invariantCoverage : List InvariantCoverageDecision :=
  (allInvariantIds manifest).map (coverageOf manifest steps)

def gateVerdict : Verdict × String :=
  if (requiredVerdict (requiredSteps manifest steps)).1 = .allow ∧
      (invariantCoverage manifest steps).any (! ·.satisfied) then
    (.unknown, "invariant_coverage_incomplete")
  else requiredVerdict (requiredSteps manifest steps)

variable (platform : Platform)

def EvaluationGateDecision.stamped (decision : EvaluationGateDecision) : EvaluationGateDecision :=
  { decision with decisionDigest := digestJson platform decision.content }

def gateDecision : EvaluationGateDecision :=
  EvaluationGateDecision.stamped platform {
    contractVersion := gateDecisionContract
    manifestDigest := manifest.manifestDigest
    reducer := fixedReducer
    verdict := (gateVerdict manifest steps).1.text
    reasonCode := (gateVerdict manifest steps).2
    stepReceiptDigests :=
      (steps.map EvaluationStepReceipt.stepReceiptDigest).insertionSort (· ≤ ·)
    invariantCoverage := invariantCoverage manifest steps
    decisionDigest := "" }

def validateNodeStep (node : ResolvedEvaluationNode) : Except String Unit :=
  match receiptOf steps node.nodeId with
  | none => .error ("missing result for node " ++ platform.quoted node.nodeId)
  | some step => validateStepForNode platform manifest node step

def reduceGate : Except String EvaluationGateDecision :=
  if nodeCount steps ≠ manifest.nodes.length then
    .error "fixed reducer requires exactly one result for every manifest node"
  else do
    manifest.nodes.forM (validateNodeStep manifest steps platform)
    ensureDocumentSize (gateDecision manifest steps platform).toJson "evaluation gate decision"
    .ok (gateDecision manifest steps platform)

def reduceCancelledGate : Except String EvaluationGateDecision := do
  let decision ← reduceGate manifest steps platform
  let cancelled := EvaluationGateDecision.stamped platform
    { decision with verdict := Verdict.unavailable.text, reasonCode := reasonExecutionCancelled }
  ensureDocumentSize cancelled.toJson "evaluation gate decision"
  .ok cancelled

end

structure EvaluationExecutionProjection where
  (manifestDigest operationId nameSpace status : String)
  steps : List EvaluationStepReceipt
  decision : Option EvaluationGateDecision

def EvaluationExecutionProjection.toJson (projection : EvaluationExecutionProjection) : Value :=
  .object [("manifest_digest", .string projection.manifestDigest),
    ("operation_id", .string projection.operationId), ("namespace", .string projection.nameSpace),
    ("status", .string projection.status),
    ("steps", .array (projection.steps.map EvaluationStepReceipt.toJson)),
    ("decision", (projection.decision.map EvaluationGateDecision.toJson).getD .null)]

def isVerdict (status : String) : Bool :=
  status = Verdict.allow.text || status = Verdict.deny.text || status = Verdict.unknown.text ||
    status = Verdict.unavailable.text

section
variable (platform : Platform) (manifest : ResolvedEvaluationManifest)

def validateProjectionSteps : List EvaluationStepReceipt → List String → Except String Unit
  | [], _ => .ok ()
  | step :: rest, nodeIds =>
    if step.nodeId ∈ nodeIds then
      .error "evaluation execution projection contains duplicate steps"
    else match manifest.nodes.find? (·.nodeId = step.nodeId) with
      | none => .error "projection contains a step outside the manifest"
      | some node => do
        validateStepForNode platform manifest node step
        validateProjectionSteps rest (step.nodeId :: nodeIds)

def reduceAgain (steps : List EvaluationStepReceipt) (decision : EvaluationGateDecision) :
    Except String EvaluationGateDecision :=
  if decision.reasonCode = reasonExecutionCancelled then reduceCancelledGate manifest steps platform
  else reduceGate manifest steps platform

def validateProjectionDecision (projection : EvaluationExecutionProjection) : Except String Unit :=
  match projection.decision with
  | some decision =>
    if ¬ isVerdict projection.status then
      .error "projection status and terminal decision are inconsistent"
    else do
      let reduced ← reduceAgain platform manifest projection.steps decision
      if reduced ≠ decision ∨ projection.status ≠ decision.verdict then
        .error "projection gate decision is not reproducible"
      else .ok ()
  | none =>
    if projection.status ≠ statusRunning ∧ projection.status ≠ statusCancelled then
      .error "projection status and terminal decision are inconsistent"
    else .ok ()

def validateProjection (projection : EvaluationExecutionProjection) : Except String Unit :=
  if projection.manifestDigest ≠ manifest.manifestDigest ∨ projection.nameSpace ≠ manifest.nameSpace then
    .error "evaluation execution projection does not match manifest"
  else do
    validateProjectionSteps platform manifest projection.steps []
    validateProjectionDecision platform manifest projection
    ensureDocumentSize projection.toJson "evaluation execution projection"

end

variable {platform : Platform} {manifest : ResolvedEvaluationManifest}
  {steps order : List EvaluationStepReceipt} {step : EvaluationStepReceipt} {nodeId invariantId : String}
  {decision : EvaluationGateDecision}

theorem receiptOf_mem (found : receiptOf steps nodeId = some step) : step ∈ steps ∧ step.nodeId = nodeId :=
  ⟨mem_reverse.mp (mem_of_find?_eq_some found), Table.key_of_find found⟩

theorem receiptOf_isSome : (receiptOf steps nodeId).isSome ↔ nodeId ∈ steps.map EvaluationStepReceipt.nodeId := by
  rw [isSome_iff_ne_none, receiptOf, ne_eq, Table.find_eq_none, not_not, map_reverse, mem_reverse]

theorem receiptOf_perm (unique : (steps.map EvaluationStepReceipt.nodeId).Nodup)
    (reordered : steps.Perm order) : receiptOf order = receiptOf steps := by
  funext nodeId
  refine Table.find_perm ?_ ?_ nodeId
  · rwa [map_reverse, nodup_reverse]
  · exact steps.reverse_perm.trans (reordered.trans order.reverse_perm.symm)

/-- There are receipts for the nodes of the manifest and for no others, and the last one of each node is valid. -/
structure Accepted (platform : Platform) (manifest : ResolvedEvaluationManifest)
    (steps : List EvaluationStepReceipt) : Prop where
  sameNodes : ∀ nodeId, nodeId ∈ steps.map EvaluationStepReceipt.nodeId ↔
    nodeId ∈ manifest.nodes.map ResolvedEvaluationNode.nodeId
  valid : ∀ node ∈ manifest.nodes, ∀ step, receiptOf steps node.nodeId = some step →
    validateStepForNode platform manifest node step = .ok ()

def Oversized (platform : Platform) (manifest : ResolvedEvaluationManifest)
    (steps : List EvaluationStepReceipt) : Prop :=
  maxExecutionDocumentBytes < (gateDecision manifest steps platform).toJson.size

variable {node : ResolvedEvaluationNode}

theorem validateNodeStep_eq_ok : validateNodeStep manifest steps platform node = .ok () ↔
      ∃ step, receiptOf steps node.nodeId = some step ∧ validateStepForNode platform manifest node step = .ok () := by
  cases found : receiptOf steps node.nodeId with
  | none => simp [validateNodeStep, found]
  | some step => simp [validateNodeStep, found]

theorem ensureDocumentSize_eq_ok {value : Value} {name : String} :
    ensureDocumentSize value name = .ok () ↔ value.size ≤ maxExecutionDocumentBytes := by
  rw [ensureDocumentSize]
  simp

section
variable (unique : (manifest.nodes.map ResolvedEvaluationNode.nodeId).Nodup)
include unique

theorem sameNodes_of_nodeCount (count : nodeCount steps = manifest.nodes.length)
    (found : ∀ node ∈ manifest.nodes, node.nodeId ∈ steps.map EvaluationStepReceipt.nodeId) :
    ∀ nodeId, nodeId ∈ steps.map EvaluationStepReceipt.nodeId ↔
      nodeId ∈ manifest.nodes.map ResolvedEvaluationNode.nodeId := by
  have subset : manifest.nodes.map ResolvedEvaluationNode.nodeId ⊆
      (steps.map EvaluationStepReceipt.nodeId).dedup := by
    intro nodeId listed
    obtain ⟨node, member, rfl⟩ := List.mem_map.mp listed
    exact List.mem_dedup.mpr (found node member)
  have enough : (steps.map EvaluationStepReceipt.nodeId).dedup.length ≤
      (manifest.nodes.map ResolvedEvaluationNode.nodeId).length := by
    rw [length_map, ← count]
    exact le_rfl
  have same := (subperm_of_subset unique subset).perm_of_length_le enough
  intro nodeId
  rw [same.mem_iff, List.mem_dedup]

theorem nodeCount_of_sameNodes (same : ∀ nodeId, nodeId ∈ steps.map EvaluationStepReceipt.nodeId ↔
      nodeId ∈ manifest.nodes.map ResolvedEvaluationNode.nodeId) : nodeCount steps = manifest.nodes.length := by
  have reordered : (steps.map EvaluationStepReceipt.nodeId).dedup.Perm
      (manifest.nodes.map ResolvedEvaluationNode.nodeId) := by
    rw [perm_ext_iff_of_nodup (nodup_dedup _) unique]
    intro nodeId
    rw [List.mem_dedup, same]
  rw [nodeCount, reordered.length_eq, length_map]

theorem reduceGate_eq_ok : reduceGate manifest steps platform = .ok decision ↔
      (Accepted platform manifest steps ∧ ¬ Oversized platform manifest steps) ∧
        decision = gateDecision manifest steps platform := by
  constructor
  · intro success
    obtain ⟨count, success⟩ := ite_error_eq_ok.mp success
    obtain ⟨valid, success⟩ := check_eq_ok.mp success
    obtain ⟨fits, success⟩ := check_eq_ok.mp success
    cases success
    rw [forM_eq_ok] at valid
    refine ⟨⟨⟨?_, ?_⟩, not_lt.mpr (ensureDocumentSize_eq_ok.mp fits)⟩, rfl⟩
    · refine sameNodes_of_nodeCount unique (not_not.mp count) ?_
      intro node member
      obtain ⟨step, found, _⟩ := validateNodeStep_eq_ok.mp (valid node member)
      exact receiptOf_isSome.mp (found ▸ rfl)
    · intro node member step found
      obtain ⟨other, same, accepted⟩ := validateNodeStep_eq_ok.mp (valid node member)
      cases found.symm.trans same
      exact accepted
  · rintro ⟨⟨⟨same, valid⟩, fits⟩, rfl⟩
    refine ite_error_eq_ok.mpr ⟨not_not.mpr (nodeCount_of_sameNodes unique same), ?_⟩
    refine check_eq_ok.mpr ⟨forM_eq_ok.mpr ?_, check_eq_ok.mpr ⟨ensureDocumentSize_eq_ok.mpr (not_lt.mp fits), rfl⟩⟩
    intro node member
    have listed := (same node.nodeId).mpr (List.mem_map_of_mem member)
    obtain ⟨step, found⟩ := isSome_iff_exists.mp (receiptOf_isSome.mpr listed)
    exact validateNodeStep_eq_ok.mpr ⟨step, found, valid node member step found⟩

end

theorem requiredVerdict_allow {required : List EvaluationStepReceipt}
    (allowed : (requiredVerdict required).1 = .allow) : ∀ step ∈ required, step.status = statusPass := by
  unfold requiredVerdict at allowed
  split at allowed
  · cases allowed
  split at allowed
  · cases allowed
  split at allowed
  · cases allowed
  split at allowed
  · rename_i passed
    simpa using passed
  · cases allowed

theorem gateVerdict_allow (allowed : (gateVerdict manifest steps).1 = .allow) :
    (∀ step ∈ requiredSteps manifest steps, step.status = statusPass) ∧
      ∀ invariantId ∈ allInvariantIds manifest, (coverageOf manifest steps invariantId).satisfied := by
  unfold gateVerdict at allowed
  split at allowed
  · cases allowed
  · rename_i complete
    refine ⟨requiredVerdict_allow allowed, ?_⟩
    simpa [allowed, invariantCoverage] using complete

theorem Verdict.text_injective {a b : Verdict} (same : a.text = b.text) : a = b := by
  cases a <;> cases b <;> first | rfl | simp [Verdict.text] at same

theorem mem_nodesOf : node ∈ nodesOf manifest invariantId ↔ node ∈ manifest.nodes ∧
      invariantId ∈ node.invariants.map ResolvedInvariantBinding.invariantVersionId := by
  simp only [nodesOf, mem_flatMap, List.mem_map, mem_filter, decide_eq_true_eq]
  constructor
  · rintro ⟨other, member, binding, ⟨bound, named⟩, rfl⟩
    exact ⟨member, binding, bound, named⟩
  · rintro ⟨member, binding, bound, named⟩
    exact ⟨node, member, binding, ⟨bound, named⟩, rfl⟩

theorem exists_waiver_of_waiversOf (waived : waiversOf manifest invariantId ≠ []) :
    ∃ waiver ∈ manifest.waivers, invariantId ∈ waiver.invariantVersionIds := by
  obtain ⟨waiverId, listed⟩ := exists_mem_of_ne_nil _ waived
  simp only [waiversOf, mem_flatMap, List.mem_map, mem_filter, decide_eq_true_eq] at listed
  obtain ⟨waiver, member, other, ⟨named, rfl⟩, _⟩ := listed
  exact ⟨waiver, member, named⟩

/-- There is one receipt for each node and none besides, each is valid, the required nodes pass, and the
invariants are covered by required nodes that pass or by waivers. -/
structure Supported (platform : Platform) (manifest : ResolvedEvaluationManifest)
    (steps : List EvaluationStepReceipt) : Prop where
  receipts : ∀ node ∈ manifest.nodes, ∃ step, (steps.filter (·.nodeId = node.nodeId)) = [step] ∧
    validateStepForNode platform manifest node step = .ok () ∧
    (node.required → step.status = statusPass)
  known : ∀ step ∈ steps, step.nodeId ∈ manifest.nodes.map ResolvedEvaluationNode.nodeId
  covered : ∀ node ∈ manifest.nodes, ∀ invariant ∈ node.invariants, (∃ covering ∈ manifest.nodes, covering.required ∧
      invariant.invariantVersionId ∈ covering.invariants.map ResolvedInvariantBinding.invariantVersionId ∧
      ∃ step ∈ steps, step.nodeId = covering.nodeId ∧ step.status = statusPass) ∨
    ∃ waiver ∈ manifest.waivers, invariant.invariantVersionId ∈ waiver.invariantVersionIds

theorem covered_of_satisfied (satisfied : (coverageOf manifest steps invariantId).satisfied) :
    (∃ covering ∈ manifest.nodes, covering.required ∧
      invariantId ∈ covering.invariants.map ResolvedInvariantBinding.invariantVersionId ∧
      ∃ step ∈ steps, step.nodeId = covering.nodeId ∧ step.status = statusPass) ∨
    ∃ waiver ∈ manifest.waivers, invariantId ∈ waiver.invariantVersionIds := by
  simp only [coverageOf, Bool.or_eq_true, decide_eq_true_eq] at satisfied
  rcases satisfied with byNodes | waived
  · obtain ⟨covering, listed⟩ := exists_mem_of_ne_nil _ byNodes
    obtain ⟨listed, passed⟩ := mem_filter.mp listed
    obtain ⟨listed, required⟩ := mem_filter.mp listed
    obtain ⟨member, named⟩ := mem_nodesOf.mp listed
    obtain ⟨step, found, pass⟩ := (Option.any_eq_true _ _).mp passed
    obtain ⟨inSteps, same⟩ := receiptOf_mem found
    exact .inl ⟨covering, member, required, named, step, inSteps, same, of_decide_eq_true pass⟩
  · exact .inr (exists_waiver_of_waiversOf waived)

theorem Accepted.supported (accepted : Accepted platform manifest steps)
    (unique : (steps.map EvaluationStepReceipt.nodeId).Nodup)
    (allowed : (gateVerdict manifest steps).1 = .allow) : Supported platform manifest steps := by
  obtain ⟨passed, satisfied⟩ := gateVerdict_allow allowed
  refine ⟨?_, ?_, ?_⟩
  · intro node member
    have listed := (accepted.sameNodes node.nodeId).mpr (List.mem_map_of_mem member)
    obtain ⟨step, found⟩ := isSome_iff_exists.mp (receiptOf_isSome.mpr listed)
    obtain ⟨inSteps, same⟩ := receiptOf_mem found
    refine ⟨step, ?_, accepted.valid node member step found, ?_⟩
    · rw [← same]
      exact Table.filter_of_mem unique inSteps
    · intro required
      exact passed step (mem_filterMap.mpr ⟨node, mem_filter.mpr ⟨member, required⟩, found⟩)
  · intro step member
    exact (accepted.sameNodes step.nodeId).mp (List.mem_map_of_mem member)
  · intro node member invariant bound
    refine covered_of_satisfied (satisfied _ ?_)
    rw [allInvariantIds, mem_insertionSort, List.mem_dedup, mem_append]
    exact .inl (mem_flatMap.mpr ⟨node, member, List.mem_map_of_mem bound⟩)

theorem gateDecision_perm (unique : (steps.map EvaluationStepReceipt.nodeId).Nodup) (reordered : steps.Perm order) :
    gateDecision manifest order platform = gateDecision manifest steps platform := by
  have sameReceipts := receiptOf_perm unique reordered
  have sameRequired : requiredSteps manifest order = requiredSteps manifest steps := by
    unfold requiredSteps
    rw [sameReceipts]
  have sameCoverage : invariantCoverage manifest order = invariantCoverage manifest steps := by
    have samePasses : passes order = passes steps := by
      unfold passes
      rw [sameReceipts]
    unfold invariantCoverage coverageOf coveringNodes
    rw [samePasses]
  have sameVerdict : gateVerdict manifest order = gateVerdict manifest steps := by
    unfold gateVerdict
    rw [sameRequired, sameCoverage]
  have sameDigests : (order.map EvaluationStepReceipt.stepReceiptDigest).insertionSort (· ≤ ·) =
      (steps.map EvaluationStepReceipt.stepReceiptDigest).insertionSort (· ≤ ·) := by
    refine List.Perm.eq_of_sortedLE sortedLE_insertionSort sortedLE_insertionSort ?_
    have sameTexts := reordered.symm.map EvaluationStepReceipt.stepReceiptDigest
    exact (perm_insertionSort _ _).trans (sameTexts.trans (perm_insertionSort _ _).symm)
  unfold gateDecision
  rw [sameVerdict, sameCoverage, sameDigests]

theorem Accepted.perm (accepted : Accepted platform manifest steps)
    (unique : (steps.map EvaluationStepReceipt.nodeId).Nodup) (reordered : steps.Perm order) :
    Accepted platform manifest order := by
  refine ⟨?_, ?_⟩
  · intro nodeId
    rw [← (reordered.map EvaluationStepReceipt.nodeId).mem_iff]
    exact accepted.sameNodes nodeId
  · rw [receiptOf_perm unique reordered]
    exact accepted.valid

/-- An allow decision is supported, the order of the receipts does not matter, and a list with two
receipts for one node is rejected. -/
structure FailClosed (platform : Platform) (manifest : ResolvedEvaluationManifest)
    (steps : List EvaluationStepReceipt) : Prop where
  allowed : ∀ decision, reduceGate manifest steps platform = .ok decision →
    decision.verdict = Verdict.allow.text → Supported platform manifest steps
  unordered : ∀ order, steps.Perm order → ∀ decision,
    reduceGate manifest steps platform = .ok decision ↔ reduceGate manifest order platform = .ok decision
  unrepeated : ¬ (steps.map EvaluationStepReceipt.nodeId).Nodup →
    ∀ decision, reduceGate manifest steps platform ≠ .ok decision

theorem BuiltFrom.unique {plan : EvaluationPlan} (built : BuiltFrom plan manifest)
    (unique : (plan.nodes.map EvaluationPlanNode.nodeId).Nodup) :
    (manifest.nodes.map ResolvedEvaluationNode.nodeId).Nodup := by
  have sameIds : manifest.nodes.map ResolvedEvaluationNode.nodeId = plan.nodes.map EvaluationPlanNode.nodeId := by
    rw [← forall₂_eq_eq_eq, forall₂_map_left_iff, forall₂_map_right_iff]
    exact (List.Forall₂.imp (fun _ _ resolved => resolved.nodeId) built).flip
  rwa [sameIds]

theorem failClosed_of_unique (nodesUnique : (manifest.nodes.map ResolvedEvaluationNode.nodeId).Nodup)
    (unique : (steps.map EvaluationStepReceipt.nodeId).Nodup) : FailClosed platform manifest steps := by
  refine ⟨?_, ?_, ?_⟩
  · intro decision success allowed
    obtain ⟨⟨accepted, _⟩, rfl⟩ := (reduceGate_eq_ok nodesUnique).mp success
    exact accepted.supported unique (Verdict.text_injective allowed)
  · intro order reordered decision
    have orderUnique := (reordered.map EvaluationStepReceipt.nodeId).nodup_iff.mp unique
    rw [reduceGate_eq_ok nodesUnique, reduceGate_eq_ok nodesUnique, Oversized, Oversized,
      gateDecision_perm unique reordered]
    constructor
    · rintro ⟨⟨accepted, fits⟩, same⟩
      exact ⟨⟨accepted.perm unique reordered, fits⟩, same⟩
    · rintro ⟨⟨accepted, fits⟩, same⟩
      exact ⟨⟨accepted.perm orderUnique reordered.symm, fits⟩, same⟩
  · intro repeated
    exact absurd unique repeated

/-- Two receipts are for one node, and in some order the last receipts are those of a whole evaluation. -/
def Ambiguous (platform : Platform) (manifest : ResolvedEvaluationManifest)
    (steps : List EvaluationStepReceipt) : Prop :=
  ¬ (steps.map EvaluationStepReceipt.nodeId).Nodup ∧ ∃ order, steps.Perm order ∧ Accepted platform manifest order

/-! A plan with a required and an advisory node, and its manifest. -/

def samplePlan : EvaluationPlan :=
  ⟨evaluationPlanContract, "", "ops", "release", "1.0.0", ["release/v1"],
    [⟨"check", "definition-1", [], [⟨"subject", inputSubject, "release/v1"⟩], "\x7b\x7d", ["invariant-1"],
      nodeRequired⟩,
      ⟨"note", "definition-1", [], [⟨"subject", inputSubject, "release/v1"⟩], "\x7b\x7d", ["invariant-1"],
        nodeAdvisory⟩],
    fixedReducer, "release.yaml", "", "", 0⟩

def samplePrepared : EvaluationPlan := samplePlan.stamped samplePlatform "author" 1

def sampleNode : ResolvedEvaluationNode :=
  ⟨"check", ⟨"definition-1", sampleDigest, sampleDigest, none⟩, [], [⟨"subject", inputSubject, "release/v1"⟩],
    "\x7b\x7d", [⟨"invariant-1", sampleDigest, "digest_equals", "release/v1", "result/v1", [], [], []⟩], [],
    nodeRequired⟩

def sampleAdvice : ResolvedEvaluationNode :=
  { sampleNode with nodeId := "note", classification := nodeAdvisory }

def sampleManifest : ResolvedEvaluationManifest := ⟨sampleDigest, "ops", [sampleNode, sampleAdvice], []⟩

def sampleStep (status : String) : EvaluationStepReceipt where
  contractVersion := stepReceiptContract
  manifestDigest := sampleDigest
  nodeId := "check"
  classification := nodeRequired
  status := status
  reasonCode := "checked"
  inputDigest := sampleDigest
  parametersDigest := sampleDigest
  evaluatorDefinitionDigest := sampleDigest
  implementationDigest := sampleDigest
  evidenceDigests := []
  dependencyResultDigests := []
  resultDigest := sampleDigest
  stochasticEvidence := none
  stepReceiptDigest := sampleDigest

def adviceStep : EvaluationStepReceipt :=
  { sampleStep statusFail with nodeId := "note", classification := nodeAdvisory }

theorem samplePrepared_prepared : preparePlan samplePlatform samplePlan "author" 1 = .ok samplePrepared := by
  have fits : ensureSize samplePrepared.toJson "evaluation plan" = .ok () := by
    refine ite_error_eq_ok.mpr ⟨not_lt.mpr (le_trans (Value.size_le _) ?_), rfl⟩
    decide +kernel
  refine bind_eq_ok.mpr ⟨evaluationPlanContract, by decide +kernel, ?_⟩
  refine check_eq_ok.mpr ⟨by decide +kernel, check_eq_ok.mpr ⟨by decide +kernel, ?_⟩⟩
  refine check_eq_ok.mpr ⟨by decide +kernel, bind_eq_ok.mpr ⟨["release/v1"], by decide +kernel, ?_⟩⟩
  refine check_eq_ok.mpr ⟨by decide +kernel, ite_error_eq_ok.mpr ⟨by decide +kernel, ?_⟩⟩
  refine ite_error_eq_ok.mpr ⟨by decide +kernel, bind_eq_ok.mpr ⟨samplePlan.nodes, by decide +kernel, ?_⟩⟩
  refine check_eq_ok.mpr ⟨by decide +kernel, ite_error_eq_ok.mpr ⟨by decide +kernel, ?_⟩⟩
  exact check_eq_ok.mpr ⟨fits, rfl⟩

theorem sampleManifest_built : BuiltFrom samplePrepared sampleManifest := by
  refine .cons ?_ (.cons ?_ .nil)
  · constructor <;> rfl
  · constructor <;> rfl

theorem reduceGate_failClosed {plan prepared : EvaluationPlan} {actor : String} {nowMs : Int}
    (preparation : preparePlan platform plan actor nowMs = .ok prepared)
    (built : BuiltFrom prepared manifest) (steps : List EvaluationStepReceipt) :
    FailClosed platform manifest steps ↔ ¬ Ambiguous platform manifest steps ∨
      ∀ order, steps.Perm order → Accepted platform manifest order → Oversized platform manifest order := by
  have nodesUnique := built.unique (preparePlan_unique preparation)
  constructor
  · intro closed
    by_contra both
    obtain ⟨⟨repeated, _⟩, small⟩ := (not_or.mp both).imp_left not_not.mp
    refine small fun order reordered accepted => by_contra fun fits => ?_
    have decided := (reduceGate_eq_ok nodesUnique).mpr ⟨⟨accepted, fits⟩, rfl⟩
    exact closed.unrepeated repeated _ ((closed.unordered order reordered _).mpr decided)
  · intro clear
    by_cases unique : (steps.map EvaluationStepReceipt.nodeId).Nodup
    · exact failClosed_of_unique nodesUnique unique
    · have rejected : ∀ order, steps.Perm order → ∀ decision, reduceGate manifest order platform ≠ .ok decision := by
        intro order reordered decision decided
        obtain ⟨⟨accepted, fits⟩, _⟩ := (reduceGate_eq_ok nodesUnique).mp decided
        rcases clear with clear | large
        · exact clear ⟨unique, order, reordered, accepted⟩
        · exact fits (large order reordered accepted)
      refine ⟨?_, ?_, ?_⟩
      · intro decision decided
        exact absurd decided (rejected steps (.refl _) decision)
      · intro order reordered decision
        exact iff_of_false (rejected steps (.refl _) decision) (rejected order reordered decision)
      · intro _
        exact rejected steps (.refl _)

theorem reduceGate_failClosed_sample : FailClosed samplePlatform sampleManifest [sampleStep statusPass, adviceStep] :=
  (reduceGate_failClosed samplePrepared_prepared sampleManifest_built _).mpr (.inl fun ambiguous =>
    ambiguous.1 (by decide))

/-- With a failure and a pass of one required node the reducer allows, and in the other order it denies. -/
theorem reduceGate_repeated : preparePlan samplePlatform samplePlan "author" 1 = .ok samplePrepared ∧
      BuiltFrom samplePrepared sampleManifest ∧
      (reduceGate sampleManifest [adviceStep, sampleStep statusFail, sampleStep statusPass] samplePlatform).map
        EvaluationGateDecision.verdict = .ok Verdict.allow.text ∧
      (reduceGate sampleManifest [adviceStep, sampleStep statusPass, sampleStep statusFail] samplePlatform).map
        EvaluationGateDecision.verdict = .ok Verdict.deny.text := by
  refine ⟨samplePrepared_prepared, sampleManifest_built, ?_, ?_⟩
  · decide +kernel
  · decide +kernel

theorem validateProjectionSteps_unique {nodeIds : List String}
    (success : validateProjectionSteps platform manifest steps nodeIds = .ok ()) :
    (steps.map EvaluationStepReceipt.nodeId).Nodup ∧ ∀ step ∈ steps, step.nodeId ∉ nodeIds := by
  induction steps generalizing nodeIds with
  | nil => simp
  | cons step rest ih =>
    obtain ⟨fresh, success⟩ := ite_error_eq_ok.mp success
    split at success
    · cases success
    obtain ⟨_, later⟩ := check_eq_ok.mp success
    exact nodup_keys_cons (P := (· ∈ nodeIds)) fresh (by simpa using ih later)

theorem reduceCancelledGate_verdict (success : reduceCancelledGate manifest steps platform = .ok decision) :
    decision.verdict = Verdict.unavailable.text := by
  obtain ⟨_, _, success⟩ := bind_eq_ok.mp success
  obtain ⟨_, success⟩ := check_eq_ok.mp success
  cases success
  rfl

/-- A stored evaluation that is valid and allows is supported: `validate_projection` rejects repeated
steps before it reduces. -/
theorem validateProjection_allow (nodesUnique : (manifest.nodes.map ResolvedEvaluationNode.nodeId).Nodup)
    {projection : EvaluationExecutionProjection} (valid : validateProjection platform manifest projection = .ok ())
    (allowed : projection.status = Verdict.allow.text) : Supported platform manifest projection.steps := by
  obtain ⟨_, valid⟩ := ite_error_eq_ok.mp valid
  obtain ⟨steps, valid⟩ := check_eq_ok.mp valid
  obtain ⟨decided, _⟩ := check_eq_ok.mp valid
  have unique := (validateProjectionSteps_unique steps).1
  unfold validateProjectionDecision at decided
  split at decided
  · obtain ⟨_, decided⟩ := ite_error_eq_ok.mp decided
    obtain ⟨reduced, again, decided⟩ := bind_eq_ok.mp decided
    obtain ⟨same, _⟩ := ite_error_eq_ok.mp decided
    simp only [not_or, not_not] at same
    obtain ⟨rfl, sameVerdict⟩ := same
    have verdict : reduced.verdict = Verdict.allow.text := sameVerdict.symm.trans allowed
    unfold reduceAgain at again
    split at again
    · have unavailable := reduceCancelledGate_verdict again
      cases Verdict.text_injective (verdict.symm.trans unavailable)
    · exact (failClosed_of_unique nodesUnique unique).allowed reduced again verdict
  · obtain ⟨unfinished, _⟩ := ite_error_eq_ok.mp decided
    rw [allowed] at unfinished
    exact absurd (by decide) unfinished

def sampleProjection : EvaluationExecutionProjection :=
  ⟨sampleDigest, "op", "ops", Verdict.allow.text, [sampleStep statusPass, adviceStep],
    (reduceGate sampleManifest [sampleStep statusPass, adviceStep] samplePlatform).toOption⟩

theorem validateProjection_allow_sample :
    Supported samplePlatform sampleManifest [sampleStep statusPass, adviceStep] := by
  have valid : validateProjection samplePlatform sampleManifest sampleProjection = .ok () := by
    refine ite_error_eq_ok.mpr ⟨by decide, check_eq_ok.mpr ⟨by decide +kernel, check_eq_ok.mpr ⟨by decide +kernel, ?_⟩⟩⟩
    refine ite_error_eq_ok.mpr ⟨not_lt.mpr (le_trans (Value.size_le _) ?_), rfl⟩
    decide +kernel
  exact validateProjection_allow (by decide) valid rfl

end SekaiChisei.Evaluation
