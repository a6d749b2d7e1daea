import SekaiChisei.Gunshi.Envelope

/-! Evidence changes the model of a plan and what is expected of it, never its resources. -/

namespace SekaiChisei.Gunshi
open Lib List Option Binary64

/-- Rounding to nearest is monotone and exact on zero and one; `min` is one of its arguments. -/
structure Binary64.Lawful (F : Type) [Binary64 F] : Prop where
  finite : ∀ x : F, le zero x = true → le x one = true → isFinite x = true
  start : le (zero : F) sumStart = true ∧ le (sumStart : F) (ofNat 0) = true
  add_nonneg : ∀ x y : F, le zero x = true → le zero y = true → le zero (add x y) = true
  add_le : ∀ (n : Nat) (x y : F), le x (ofNat n) = true → le y one = true → le (add x y) (ofNat (n + 1)) = true
  div_nonneg : ∀ (n : Nat) (x : F), 0 < n → le zero x = true → le zero (div x (ofNat n)) = true
  div_le : ∀ (n : Nat) (x : F), 0 < n → le x (ofNat n) = true → le (div x (ofNat n)) one = true
  share : ∀ n : Nat, inUnit (div one (add (ofNat n) one) : F) = true
  min_eq : ∀ x y : F, min x y = x ∨ min x y = y

section
variable {F : Type} [Binary64 F]

theorem inUnit_iff {value : F} : inUnit value = true ↔ isFinite value = true ∧
    le zero value = true ∧ le value one = true := by
  simp [inUnit]

variable {evidence : List (KiokuEvidence F)}

theorem foldl_score (floats : Binary64.Lawful F)
    (scored : ∀ memory ∈ evidence, inUnit memory.score = true) {sum : F} {count : Nat}
    (nonneg : le zero sum = true) (bounded : le sum (ofNat count) = true) :
    le zero (evidence.foldl (fun sum memory => add sum memory.score) sum) = true ∧
      le (evidence.foldl (fun sum memory => add sum memory.score) sum)
        (ofNat (count + evidence.length)) = true := by
  induction evidence generalizing sum count with
  | nil => exact ⟨nonneg, bounded⟩
  | cons memory evidence ih =>
    obtain ⟨first, others⟩ := forall_mem_cons.mp scored
    obtain ⟨_, low, high⟩ := inUnit_iff.mp first
    have result := ih others (floats.add_nonneg sum memory.score nonneg low)
      (floats.add_le count sum memory.score bounded high)
    rw [length_cons, Nat.add_comm evidence.length 1, ← Nat.add_assoc]
    exact result

theorem evidenceScore_inUnit (floats : Binary64.Lawful F) (some : evidence ≠ [])
    (scored : ∀ memory ∈ evidence, inUnit memory.score = true) : inUnit (evidenceScore evidence) = true := by
  obtain ⟨nonneg, bounded⟩ := foldl_score floats scored floats.start.1 floats.start.2
  rw [Nat.zero_add] at bounded
  have positive : 0 < evidence.length := length_pos_iff.mpr some
  have low := floats.div_nonneg evidence.length _ positive nonneg
  have high := floats.div_le evidence.length _ positive bounded
  exact inUnit_iff.mpr ⟨floats.finite _ low high, low, high⟩

variable {group : List (KiokuEvidence F)}

omit [Binary64 F] in
theorem byModel_spec {current : List (KiokuEvidence F)} {model : String}
    (found : (byModel current).get model = some group) :
    group ≠ [] ∧ ∀ memory ∈ group, memory ∈ current := by
  have grouped : byModel current = OrderedMap.groupBy KiokuEvidence.model current := rfl
  rw [grouped] at found
  obtain ⟨rfl, nonempty⟩ := OrderedMap.get_groupBy.mp found
  exact ⟨nonempty, fun memory member => mem_of_mem_filter member⟩

variable {request : AllocationRequest F} {fingerprints : Fingerprints F} {evidence : List (KiokuEvidence F)}
  {policy : AdvisoryPolicy F} {plan refined : AllocationPlan F}

structure Kept (plan refined : AllocationPlan F) : Prop where
  operationId : refined.operationId = plan.operationId
  agentId : refined.selection.agentId = plan.selection.agentId
  attempts : refined.attempts = plan.attempts
  ceiling : refined.budgetCeilingUsdMicros = plan.budgetCeilingUsdMicros

variable {selected : ModelProfile F}

theorem adoptModel_valid (floats : Binary64.Lawful F) (lawful : fingerprints.Lawful) (valid : PlanValid plan)
    (profile : ProfileValid selected) (some : group ≠ [])
    (scored : ∀ memory ∈ group, inUnit memory.score = true) :
    PlanValid (adoptModel fingerprints policy plan selected group) := by
  refine ⟨valid.contractVersion, ?_, valid.strategyId, valid.version, valid.attempts, valid.parallel, valid.budgets,
    valid.stopCost, valid.stopAttempts, evidenceScore_inUnit floats some scored, ?_, ?_⟩
  · have named := valid.named
    simp only [AllocationPlan.named, forall_mem_cons] at named ⊢
    obtain ⟨_, operationId, nameSpace, operationClass, policyVersion, agentId, runtime, _, _, rest⟩ := named
    exact ⟨trim_allocationId _, operationId, nameSpace, operationClass, policyVersion, agentId, runtime, profile.model,
      trim_toHex (lawful.advisory_length _ _ _ _), rest⟩
  · show inUnit (min selected.uncertainty _) = true
    rcases floats.min_eq selected.uncertainty
      (div one (add (ofNat group.length) one)) with own | share
    · rw [own]
      exact profile.uncertainty
    · rw [share]
      exact floats.share group.length
  · exact ⟨not_lt_of_nonneg profile.cost, not_lt_of_nonneg profile.latency⟩

variable {operation : PendingOperation} {agent : AgentCapacity}

theorem candidates_spec {groups : OrderedMap String (List (KiokuEvidence F))} {rest : List (ModelProfile F)}
    (ranked : candidates request operation agent plan groups = selected :: rest) :
    selected ∈ request.capacity.modelProfiles ∧ selected.model ∈ agent.models ∧
      modelAllowed operation selected.model = true ∧ (∃ group, groups.get selected.model = some group) ∧
      selected.costPerAttemptUsdMicros.toInt * plan.attempts.maxAttempts.toNat ≤
        plan.budgetCeilingUsdMicros.toInt := by
  have member : selected ∈ candidates request operation agent plan groups := by
    rw [ranked]
    exact mem_cons_self
  unfold candidates at member
  rw [(perm_insertionSort _ _).mem_iff, mem_filter] at member
  obtain ⟨listed, candidate⟩ := member
  simp only [isCandidate, Bool.and_eq_true, decide_eq_true_eq, Option.any_eq_true, isSome_iff_exists] at candidate
  obtain ⟨⟨⟨hasModel, allowed⟩, cost, multiplied, bounded⟩, group⟩ := candidate
  refine ⟨listed, hasModel, allowed, group, ?_⟩
  rw [checkedMul, toInt_ofNat32, i64] at multiplied
  split at multiplied
  · next range =>
    cases multiplied
    rw [Int64.le_iff_toInt_le, Int64.toInt_ofInt_of_le range.1 range.2] at bounded
    exact bounded
  · cases multiplied

variable {profile : ModelProfile F}

section
variable (floats : Binary64.Lawful F)
  (checked : Checked request)
  (lawful : fingerprints.Lawful)
  (scored : ∀ memory ∈ evidence, inUnit memory.score = true)
  (placed : Placed request plan operation agent profile)
  (valid : PlanValid plan)
include floats checked lawful scored placed valid

theorem refineFor_runs :
    ∃ refined, refineFor fingerprints request evidence policy operation agent plan = .ok refined ∧ Kept plan refined ∧
      ∃ profile, Placed request refined operation agent profile := by
  unfold refineFor
  dsimp only
  generalize listing : byModel
    (currentEvidence evidence plan.nameSpace plan.operationClass request.capacity.capturedAtMs policy) = groups
  cases ranked : candidates request operation agent plan groups with
  | nil =>
    refine ⟨_, rfl, ⟨rfl, rfl, rfl, rfl⟩, profile, ?_⟩
    exact ⟨placed.listed, placed.operationId, placed.agentId, placed.model, placed.eligible, placed.cost,
      placed.ceiling⟩
  | cons selected rest =>
    obtain ⟨listed, hasModel, allowed, ⟨group, found⟩, cost⟩ := candidates_spec ranked
    dsimp only
    rw [found]
    rw [← listing] at found
    obtain ⟨some, members⟩ := byModel_spec found
    have groupScored : ∀ memory ∈ group, inUnit memory.score = true := fun memory member =>
      scored memory (mem_filter.mp (members memory member)).1
    have adopted : PlanValid (adoptModel fingerprints policy plan selected group) :=
      adoptModel_valid floats lawful valid (checked.profiles selected listed) some groupScored
    refine ⟨adoptModel fingerprints policy plan selected group, ?_, ⟨rfl, rfl, rfl, rfl⟩, selected, ?_⟩
    · exact check_eq_ok.mpr ⟨plan_validate_ok.mpr adopted, rfl⟩
    · have eligible := placed.eligible
      exact ⟨placed.listed, placed.operationId, placed.agentId, rfl,
        ⟨eligible.agentListed, listed, eligible.healthy, eligible.hasClass, eligible.hasTools, hasModel, allowed⟩, cost,
        placed.ceiling⟩

theorem refinePlan_runs :
    ∃ refined, refinePlan fingerprints request evidence policy plan = .ok refined ∧ Kept plan refined ∧
      ∃ operation agent profile, Placed request refined operation agent profile := by
  have foundAgent : request.capacity.agents.find? (·.agentId = plan.selection.agentId) = some agent := by
    rw [placed.agentId]
    exact Table.find_of_mem checked.agentIds placed.eligible.agentListed
  obtain ⟨refined, ran, kept, profile, again⟩ := refineFor_runs floats checked lawful scored placed valid
  refine ⟨refined, ?_, kept, operation, agent, profile, again⟩
  unfold refinePlan
  rw [find_operation checked placed.listed placed.operationId, foundAgent]
  exact bind_eq_ok.mpr ⟨operation, rfl, bind_eq_ok.mpr ⟨agent, rfl, ran⟩⟩

end

end

section
variable {F : Type}

/-- What an allocation takes is within the envelope, its plans are ones that their operations allow, and every
operation is either planned or unallocated. -/
structure WithinEnvelope (request : AllocationRequest F) (allocation : BaselineAllocation F) : Prop where
  budget : (allocation.plans.map fun plan => plan.budgetCeilingUsdMicros.toInt).sum ≤
    request.capacity.budgetRemainingUsdMicros.toInt
  slots : ∀ agent ∈ request.capacity.agents,
    allocation.plans.countP (fun plan => plan.selection.agentId = agent.agentId) ≤ agent.availableSlots.toNat
  parallel : allocation.plans.length ≤ request.capacity.maxParallelAttempts.toNat
  attention : (allocation.plans.map (plannedAttention request)).sum ≤ request.capacity.humanAttentionMinutes.toNat
  placed : ∀ plan ∈ allocation.plans, ∃ operation agent profile, Placed request plan operation agent profile
  operations : (allocation.plans.map AllocationPlan.operationId ++
    allocation.unallocated.map UnallocatedOperation.operationId).Perm
      (request.operations.map PendingOperation.operationId)
  distinct : (request.operations.map PendingOperation.operationId).Nodup

variable [Binary64 F] {request : AllocationRequest F} {fingerprints : Fingerprints F}
  {evidence : List (KiokuEvidence F)} {policy : AdvisoryPolicy F}

theorem Running.withinEnvelope (checked : Checked request) {fleet : Fleet F}
    (running : Running request (sortedEntries request) fleet) :
    WithinEnvelope request ⟨fleet.plans, fleet.unallocated⟩ := by
  have budget := running.budget
  have solvent := running.solvent
  have attention := running.attention
  refine ⟨by dsimp only; omega, ?_, running.parallel, by dsimp only; omega, running.placed, ?_, checked.operationIds⟩
  · intro agent listed
    obtain ⟨count, _, total⟩ := running.slots agent listed
    dsimp only
    omega
  · refine running.settled.trans ?_
    have operations := (sortedEntries_operations request).map PendingOperation.operationId
    rwa [List.map_map] at operations

omit [Binary64 F] in
theorem forall₂_map_eq {α : Type} {f : AllocationPlan F → α} {plans refined : List (AllocationPlan F)}
    (kept : List.Forall₂ Kept plans refined) (same : ∀ plan other, Kept plan other → f other = f plan) :
    refined.map f = plans.map f := by
  induction kept with
  | nil => rfl
  | cons first _ ih => rw [map_cons, map_cons, same _ _ first, ih]

omit [Binary64 F] in
theorem WithinEnvelope.refined {plans refined : List (AllocationPlan F)} {unallocated : List UnallocatedOperation}
    (within : WithinEnvelope request ⟨plans, unallocated⟩) (kept : List.Forall₂ Kept plans refined)
    (placed : ∀ plan ∈ refined, ∃ operation agent profile, Placed request plan operation agent profile) :
    WithinEnvelope request ⟨refined, unallocated⟩ := by
  have ceilings := forall₂_map_eq kept fun plan other same =>
    congrArg Int64.toInt same.ceiling
  have agents := forall₂_map_eq (f := fun plan => plan.selection.agentId) kept fun plan other same => same.agentId
  have operations := forall₂_map_eq (f := AllocationPlan.operationId) kept fun plan other same => same.operationId
  have attention := forall₂_map_eq (f := plannedAttention request) kept fun plan other same => by
    unfold plannedAttention
    rw [same.operationId]
  refine ⟨by rw [ceilings]; exact within.budget, ?_, by rw [← kept.length_eq]; exact within.parallel,
    by rw [attention]; exact within.attention, placed, by rw [operations]; exact within.operations, within.distinct⟩
  intro agent listed
  have count (list : List (AllocationPlan F)) : list.countP (fun plan => plan.selection.agentId = agent.agentId) =
      (list.map fun plan => plan.selection.agentId).countP (· = agent.agentId) := by
    rw [countP_map]
    rfl
  have slots := within.slots agent listed
  dsimp only at slots ⊢
  rwa [count, agents, ← count]

theorem evidence_scored (fine : evidence.forM validateKiokuEvidence = .ok ()) :
    ∀ memory ∈ evidence, inUnit memory.score = true := by
  intro memory member
  have checked := forM_eq_ok.mp fine memory member
  simp only [validateKiokuEvidence, check_eq_ok, checkUnit_ok] at checked
  exact checked.2

theorem recommendAdvisory_runs (floats : Binary64.Lawful F) (lawful : fingerprints.Lawful)
    (fine : validateAdvisory request evidence policy = .ok ()) :
    ∃ allocation, recommendAdvisory fingerprints request evidence policy = .ok allocation ∧
      WithinEnvelope request allocation := by
  simp only [validateAdvisory, check_eq_ok] at fine
  obtain ⟨policyFine, evidenceFine, requestFine⟩ := fine
  have checked := request_validate_ok requestFine
  obtain ⟨fleet, baseline, running⟩ := recommendBaseline_runs lawful requestFine
  obtain ⟨refined, ran, related⟩ : ∃ refined,
      fleet.plans.mapM (refinePlan fingerprints request evidence policy) = .ok refined ∧
        List.Forall₂ (fun plan other => (∃ operation agent profile, Placed request other operation agent profile) ∧
          Kept plan other) fleet.plans refined := by
    refine mapM_runs fun plan member => ?_
    obtain ⟨operation, agent, profile, placed⟩ := running.placed plan member
    obtain ⟨other, refining, kept, again⟩ : ∃ other, refinePlan fingerprints request evidence policy plan = .ok other ∧
        Kept plan other ∧ ∃ operation agent profile, Placed request other operation agent profile :=
      refinePlan_runs floats checked lawful (evidence_scored evidenceFine) placed (running.valid plan member)
    exact ⟨other, refining, again, kept⟩
  obtain ⟨placed, kept⟩ := (forall₂_and_left refined fleet.plans).mp related.flip
  refine ⟨⟨refined, fleet.unallocated⟩, ?_, (running.withinEnvelope checked).refined kept.flip placed⟩
  exact check_eq_ok.mpr ⟨policyFine, check_eq_ok.mpr ⟨evidenceFine,
    bind_eq_ok.mpr ⟨_, baseline, bind_eq_ok.mpr ⟨refined, ran, rfl⟩⟩⟩⟩

theorem recommendBaseline_error (lawful : fingerprints.Lawful) {fault : Fault}
    (failed : recommendBaseline fingerprints request = .error fault) : request.validate = .error fault := by
  cases checks : request.validate with
  | ok =>
    obtain ⟨fleet, ran, _⟩ := recommendBaseline_runs lawful checks
    cases ran.symm.trans failed
  | error first =>
    rw [recommendBaseline, checks] at failed
    cases failed
    rfl

theorem recommendAdvisory_error (floats : Binary64.Lawful F) (lawful : fingerprints.Lawful) {fault : Fault}
    (failed : recommendAdvisory fingerprints request evidence policy = .error fault) :
    validateAdvisory request evidence policy = .error fault := by
  cases checks : validateAdvisory request evidence policy with
  | ok =>
    obtain ⟨allocation, ran, _⟩ := recommendAdvisory_runs floats lawful checks
    cases ran.symm.trans failed
  | error first =>
    unfold validateAdvisory at checks
    unfold recommendAdvisory recommendBaseline at failed
    cases policyFine : policy.validate with
    | error => rw [policyFine] at checks failed; cases checks; cases failed; rfl
    | ok =>
      rw [policyFine] at checks failed
      cases evidenceFine : evidence.forM validateKiokuEvidence with
      | error => rw [evidenceFine] at checks failed; cases checks; cases failed; rfl
      | ok =>
        rw [evidenceFine] at checks failed
        change request.validate = _ at checks
        rw [checks] at failed
        cases failed
        rfl

end

/-- Both allocators stay within the capacity envelope, and their errors are those of the checks of their inputs. -/
theorem allocation_withinEnvelope {F : Type} [Binary64 F] (floats : Binary64.Lawful F)
    (fingerprints : Fingerprints F) (lawful : fingerprints.Lawful) (request : AllocationRequest F) :
    (∀ allocation, recommendBaseline fingerprints request = .ok allocation → WithinEnvelope request allocation) ∧
      (∀ evidence policy allocation, recommendAdvisory fingerprints request evidence policy = .ok allocation →
        WithinEnvelope request allocation) ∧
      (∀ fault, recommendBaseline fingerprints request = .error fault → request.validate = .error fault) ∧
      ∀ evidence policy fault, recommendAdvisory fingerprints request evidence policy = .error fault →
        validateAdvisory request evidence policy = .error fault := by
  refine ⟨?_, ?_, fun _ failed => recommendBaseline_error lawful failed,
    fun _ _ _ failed => recommendAdvisory_error floats lawful failed⟩
  · intro allocation ran
    have fine := (check_eq_ok.mp ran).1
    obtain ⟨fleet, again, running⟩ := recommendBaseline_runs lawful fine
    cases again.symm.trans ran
    exact running.withinEnvelope (request_validate_ok fine)
  · intro evidence policy allocation ran
    obtain ⟨policyFine, rest⟩ := check_eq_ok.mp ran
    obtain ⟨evidenceFine, rest⟩ := check_eq_ok.mp rest
    obtain ⟨_, baseline, _⟩ := bind_eq_ok.mp rest
    have fine : validateAdvisory request evidence policy = .ok () :=
      check_eq_ok.mpr ⟨policyFine, check_eq_ok.mpr ⟨evidenceFine, (check_eq_ok.mp baseline).1⟩⟩
    obtain ⟨_, again, within⟩ := recommendAdvisory_runs floats lawful fine
    cases again.symm.trans ran
    exact within

instance exactNumbers : Binary64 ℚ where
  zero := 0
  one := 1
  sumStart := 0
  isFinite _ := true
  le x y := x ≤ y
  totalCmp := compare
  add x y := x + y
  div x y := x / y
  min x y := if x ≤ y then x else y
  ofNat n := n
  fixed3 x := toString (x * 1000).floor

theorem exactNumbers_le {x y : ℚ} : le x y = true ↔ x ≤ y := decide_eq_true_iff

theorem exactNumbers_lawful : Binary64.Lawful ℚ where
  finite _ _ _ := rfl
  start := by decide
  add_nonneg x y low other :=
    exactNumbers_le.mpr (add_nonneg (exactNumbers_le.mp low) (exactNumbers_le.mp other))
  add_le n x y high other := by
    have sum : x + y ≤ (n : ℚ) + 1 := add_le_add (exactNumbers_le.mp high) (exactNumbers_le.mp other)
    rw [← Nat.cast_succ] at sum
    exact exactNumbers_le.mpr sum
  div_nonneg n x _ low := exactNumbers_le.mpr (div_nonneg (exactNumbers_le.mp low) (Nat.cast_nonneg n))
  div_le n x _ high := exactNumbers_le.mpr (div_le_one_of_le₀ (exactNumbers_le.mp high) (Nat.cast_nonneg n))
  share n := by
    have count : (0 : ℚ) ≤ n := Nat.cast_nonneg n
    have total : (0 : ℚ) ≤ n + 1 := add_nonneg count zero_le_one
    exact inUnit_iff.mpr ⟨rfl, exactNumbers_le.mpr (div_nonneg zero_le_one total),
      exactNumbers_le.mpr (div_le_one_of_le₀ (le_add_of_nonneg_left count) total)⟩
  min_eq x y := by
    show (if x ≤ y then x else y) = x ∨ (if x ≤ y then x else y) = y
    split
    · exact .inl rfl
    · exact .inr rfl

def zeroPrints : Fingerprints ℚ := ⟨fun _ => List.replicate 32 0, fun _ _ _ _ => List.replicate 32 0⟩

def twoOperations : AllocationRequest ℚ where
  capacity :=
    { capturedAtMs := 100, policyVersion := "p1",
      agents := [⟨"agent", "local", {"large", "small"}, {"shell"}, {"review"}, 1, true⟩],
      modelProfiles := [⟨"large", 1, 40, 10, 0⟩, ⟨"small", 1 / 2, 10, 5, 1 / 2⟩],
      budgetRemainingUsdMicros := 100, maxParallelAttempts := 4, humanAttentionMinutes := 3 }
  operations :=
    [⟨"op1", "team", "review", 1, .low, 5, {"shell"}, ∅, 3, 90, ["done"], false, 2⟩,
      ⟨"op2", "team", "review", 2, .medium, 6, ∅, ∅, 1, 50, [], false, 1⟩]
  strategy := ⟨"s", "1", .conservative⟩

def smallScored : List (KiokuEvidence ℚ) := [⟨"m1", "team", "review", "small", 3 / 4, true, "active", 90, none⟩]

theorem allocation_withinEnvelope_twoOperations :
    ∃ allocation, recommendAdvisory zeroPrints twoOperations smallScored ⟨50, 1 / 2, 3⟩ = .ok allocation ∧
      allocation.plans.map (fun plan => (plan.operationId, plan.selection.model)) = [("op1", "small")] ∧
        WithinEnvelope twoOperations allocation := by
  have planned : (recommendAdvisory zeroPrints twoOperations smallScored ⟨50, 1 / 2, 3⟩).toOption.map
      (fun allocation => allocation.plans.map fun plan => (plan.operationId, plan.selection.model)) =
        some [("op1", "small")] := by
    decide +kernel
  cases ran : recommendAdvisory zeroPrints twoOperations smallScored ⟨50, 1 / 2, 3⟩ with
  | error fault =>
    rw [ran] at planned
    cases planned
  | ok allocation =>
    rw [ran] at planned
    have lawful : zeroPrints.Lawful := ⟨fun _ => rfl, fun _ _ _ _ => rfl⟩
    exact ⟨allocation, rfl, some.inj planned,
      (allocation_withinEnvelope exactNumbers_lawful zeroPrints lawful twoOperations).2.1 _ _ allocation ran⟩

end SekaiChisei.Gunshi
