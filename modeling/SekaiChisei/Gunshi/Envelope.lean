import SekaiChisei.Gunshi.Valid
import SekaiChisei.Lib.Table

/-! The baseline allocator takes four resources apart: budget, slots, parallel attempts and attention. Every step
succeeds and keeps what was planned within the envelope. -/

namespace SekaiChisei.Gunshi
open Lib List

section
variable {F : Type}

theorem i64_of_range (value : Int) (low : -2 ^ 63 ≤ value) (high : value < 2 ^ 63) :
    ∃ result, i64 value = some result ∧ result.toInt = value := by
  refine ⟨Int64.ofInt value, ?_, Int64.toInt_ofInt_of_le low high⟩
  unfold i64
  rw [if_pos ⟨low, high⟩]

theorem u32_toNat {value : Nat} (small : value < 2 ^ 32) : (u32 value).toNat = value := by
  unfold u32
  exact Nat.mod_eq_of_lt small

theorem toInt_ofNat32 (count : UInt32) : (Int64.ofInt count.toNat).toInt = count.toNat := by
  have small := count.toNat_lt
  exact Int64.toInt_ofInt_of_le (by omega) (by omega)

variable {operation : PendingOperation} {profile : ModelProfile F}

theorem affordableAttempts_spec {remainingBudget : Int64}
    (valid : OperationValid operation) (cost : 0 ≤ profile.costPerAttemptUsdMicros.toInt)
    (within : profile.costPerAttemptUsdMicros.toInt ≤ operation.budgetCeilingUsdMicros.toInt)
    (payable : profile.costPerAttemptUsdMicros.toInt ≤ remainingBudget.toInt) :
    0 < (affordableAttempts operation profile remainingBudget).toNat ∧
      profile.costPerAttemptUsdMicros.toInt * (affordableAttempts operation profile remainingBudget).toNat ≤
        min operation.budgetCeilingUsdMicros.toInt remainingBudget.toInt := by
  unfold affordableAttempts
  have positive : 0 < operation.maxAttempts.toNat := by
    refine Nat.pos_of_ne_zero fun zero => valid.maxAttempts ?_
    exact UInt32.toNat_inj.mp zero
  split
  · next free =>
    rw [free, Int64.toInt_zero] at within payable ⊢
    refine ⟨positive, ?_⟩
    rw [Int.zero_mul]
    exact le_min within payable
  · next paid =>
    have price : 0 < profile.costPerAttemptUsdMicros.toInt := by
      refine lt_of_le_of_ne cost fun zero => paid ?_
      rw [← Int64.toInt_inj]
      exact zero.symm
    generalize budget : min operation.budgetCeilingUsdMicros.toInt remainingBudget.toInt = limit
    have truncated : limit.tdiv profile.costPerAttemptUsdMicros.toInt =
        limit / profile.costPerAttemptUsdMicros.toInt := Int.tdiv_eq_ediv_of_nonneg (by omega)
    have one : 1 ≤ limit / profile.costPerAttemptUsdMicros.toInt :=
      Int.le_ediv_of_mul_le price (by omega)
    have pays : profile.costPerAttemptUsdMicros.toInt * (limit / profile.costPerAttemptUsdMicros.toInt) ≤ limit :=
      Int.mul_ediv_self_le (by omega)
    have small := operation.maxAttempts.toNat_lt
    rw [truncated, u32_toNat (by omega)]
    refine ⟨by omega, ?_⟩
    rw [Int.toNat_of_nonneg (by omega)]
    calc profile.costPerAttemptUsdMicros.toInt *
          min (operation.maxAttempts.toNat : Int) (limit / profile.costPerAttemptUsdMicros.toInt)
        ≤ profile.costPerAttemptUsdMicros.toInt * (limit / profile.costPerAttemptUsdMicros.toInt) :=
          Int.mul_le_mul_of_nonneg_left (min_le_right _ _) cost
      _ ≤ limit := pays

structure Eligible (request : AllocationRequest F) (operation : PendingOperation) (agent : AgentCapacity)
    (profile : ModelProfile F) : Prop where
  agentListed : agent ∈ request.capacity.agents
  profileListed : profile ∈ request.capacity.modelProfiles
  healthy : agent.healthy = true
  hasClass : operation.operationClass ∈ agent.operationClasses ∨ "*" ∈ agent.operationClasses
  hasTools : operation.requiredTools ⊆ agent.tools
  hasModel : profile.model ∈ agent.models
  allowed : modelAllowed operation profile.model = true

theorem eligibleChoices_spec {request : AllocationRequest F}
    {slots : OrderedMap String UInt32} {agent : AgentCapacity}
    (member : (agent, profile) ∈ eligibleChoices operation request.capacity slots) :
    Eligible request operation agent profile ∧ 0 < (slots.get agent.agentId).getD 0 := by
  obtain ⟨other, listed, paired⟩ := mem_flatMap.mp member
  obtain ⟨model, offered, same⟩ := mem_map.mp paired
  cases same
  obtain ⟨agentListed, eligible⟩ := mem_filter.mp listed
  obtain ⟨profileListed, matching⟩ := mem_filter.mp offered
  simp only [agentEligible, Bool.and_eq_true, Bool.or_eq_true, decide_eq_true_eq] at eligible matching
  obtain ⟨⟨⟨healthy, slot⟩, hasClass⟩, hasTools⟩ := eligible
  exact ⟨⟨agentListed, profileListed, healthy, hasClass, hasTools, matching.1, matching.2⟩, slot⟩

end

section
variable {F : Type}

structure Placed (request : AllocationRequest F) (plan : AllocationPlan F) (operation : PendingOperation)
    (agent : AgentCapacity) (profile : ModelProfile F) : Prop where
  listed : operation ∈ request.operations
  operationId : plan.operationId = operation.operationId
  agentId : plan.selection.agentId = agent.agentId
  model : plan.selection.model = profile.model
  eligible : Eligible request operation agent profile
  cost : profile.costPerAttemptUsdMicros.toInt * plan.attempts.maxAttempts.toNat ≤ plan.budgetCeilingUsdMicros.toInt
  ceiling : plan.budgetCeilingUsdMicros.toInt ≤ operation.budgetCeilingUsdMicros.toInt

def plannedAttention (request : AllocationRequest F) (plan : AllocationPlan F) : Nat :=
  match request.operations.find? (·.operationId = plan.operationId) with
  | none => 0
  | some operation => (attentionRequired operation).toNat

theorem find_operation [Binary64 F] {request : AllocationRequest F} (checked : Checked request)
    {operation : PendingOperation} (listed : operation ∈ request.operations) {id : String}
    (named : id = operation.operationId) : request.operations.find? (·.operationId = id) = some operation := by
  rw [named]
  exact Table.find_of_mem checked.operationIds listed

/-- The variables of the loop after the operations `done`. -/
structure Running [Binary64 F] (request : AllocationRequest F) (done : List Entry) (fleet : Fleet F) : Prop where
  budget : (fleet.plans.map fun plan => plan.budgetCeilingUsdMicros.toInt).sum + fleet.remainingBudget.toInt =
    request.capacity.budgetRemainingUsdMicros.toInt
  solvent : 0 ≤ fleet.remainingBudget.toInt
  attention : (fleet.plans.map (plannedAttention request)).sum + fleet.remainingHumanAttention.toNat =
    request.capacity.humanAttentionMinutes.toNat
  slots : ∀ agent ∈ request.capacity.agents, ∃ count, fleet.slots.get agent.agentId = some count ∧
    fleet.plans.countP (fun plan => plan.selection.agentId = agent.agentId) + count.toNat = agent.availableSlots.toNat
  parallel : fleet.plans.length ≤ request.capacity.maxParallelAttempts.toNat
  placed : ∀ plan ∈ fleet.plans, ∃ operation agent profile, Placed request plan operation agent profile
  valid : ∀ plan ∈ fleet.plans, PlanValid plan
  settled : (fleet.plans.map AllocationPlan.operationId ++
    fleet.unallocated.map UnallocatedOperation.operationId).Perm (done.map fun entry => entry.operation.operationId)

variable [Binary64 F] {request : AllocationRequest F} {fingerprints : Fingerprints F} {done : List Entry}
  {fleet : Fleet F} {entry : Entry}

theorem Running.refuse (running : Running request done fleet) (entry : Entry) (reason : String) :
    Running request (done ++ [entry]) (fleet.refuse entry.operation reason) := by
  refine ⟨running.budget, running.solvent, running.attention, running.slots, running.parallel, running.placed,
    running.valid, ?_⟩
  unfold Fleet.refuse
  simp only [map_append]
  rw [← append_assoc]
  exact running.settled.append_right _

structure Placeable (request : AllocationRequest F) (fleet : Fleet F) (operation : PendingOperation)
    (agent : AgentCapacity) (profile : ModelProfile F) : Prop where
  listed : operation ∈ request.operations
  eligible : Eligible request operation agent profile
  slot : 0 < (fleet.slots.get agent.agentId).getD 0
  within : profile.costPerAttemptUsdMicros.toInt ≤ operation.budgetCeilingUsdMicros.toInt
  payable : profile.costPerAttemptUsdMicros.toInt ≤ fleet.remainingBudget.toInt
  attention : (attentionRequired operation).toNat ≤ fleet.remainingHumanAttention.toNat
  parallel : fleet.plans.length < request.capacity.maxParallelAttempts.toNat

variable {agent : AgentCapacity} {profile : ModelProfile F}

theorem buildPlan_valid (checked : Checked request) (lawful : fingerprints.Lawful)
    (placeable : Placeable request fleet entry.operation agent profile)
    {maxAttempts : UInt32} {budgetCeiling : Int64} (positive : 0 < maxAttempts.toNat)
    (ceiling : 0 ≤ budgetCeiling.toInt) :
    PlanValid (buildPlan fingerprints request entry fleet agent profile maxAttempts budgetCeiling) := by
  have operation := checked.operations _ placeable.listed
  have agentNamed := checked.agents _ placeable.eligible.agentListed
  have model := checked.profiles _ placeable.eligible.profileListed
  have some : maxAttempts ≠ 0 := by
    rintro rfl
    exact absurd positive (by decide)
  refine ⟨rfl, ?_, checked.strategyId, checked.version, ⟨some, show (1 : UInt32) ≠ 0 by decide⟩, ?_, ?_, ?_, rfl,
    model.quality, model.uncertainty, ?_⟩
  · simp only [AllocationPlan.named, forall_mem_cons]
    refine ⟨trim_allocationId _, operation.operationId, operation.nameSpace, operation.operationClass,
      checked.policyVersion, agentNamed.agentId, agentNamed.runtime, model.model,
      trim_toHex (lawful.input_length _), ?_⟩
    intro field member
    cases member
  · show ¬ maxAttempts < 1
    exact Nat.not_lt.mpr positive
  · exact ⟨not_lt_of_nonneg ceiling, not_lt_of_nonneg ceiling⟩
  · show ¬ budgetCeiling < budgetCeiling
    exact Int64.lt_irrefl
  · exact ⟨not_lt_of_nonneg model.cost, not_lt_of_nonneg model.latency⟩

variable {slots : OrderedMap String UInt32}

theorem takeSlot_spec {agentId : String} {count : UInt32}
    (found : slots.get agentId = some count) (positive : 0 < count) :
    ∃ left, takeSlot slots agentId = .ok (slots.adjust agentId left fun _ => left) ∧ left.toNat + 1 = count.toNat := by
  have least : (1 : UInt32) ≤ count := by
    exact UInt32.lt_iff_toNat_lt.mp positive
  refine ⟨count - 1, ?_, ?_⟩
  · unfold takeSlot checkedSub32
    rw [found]
    dsimp only
    rw [if_pos least]
  · rw [UInt32.toNat_sub_of_le _ _ least]
    have atLeast := UInt32.le_iff_toNat_le.mp least
    have one : (1 : UInt32).toNat = 1 := rfl
    omega

theorem checkedSub32_spec {a b : UInt32} (enough : b.toNat ≤ a.toNat) :
    ∃ left, checkedSub32 a b = some left ∧ left.toNat + b.toNat = a.toNat := by
  have below : b ≤ a := UInt32.le_iff_toNat_le.mpr enough
  refine ⟨a - b, ?_, ?_⟩
  · unfold checkedSub32
    rw [if_pos below]
  · rw [UInt32.toNat_sub_of_le _ _ below]
    omega

section
variable (checked : Checked request) (lawful : fingerprints.Lawful)
include checked lawful

/-- The ceiling that a placed operation gets, and what it leaves of each resource. -/
theorem placeOperation_ok (solvent : 0 ≤ fleet.remainingBudget.toInt) (entry : Entry)
    (placeable : Placeable request fleet entry.operation agent profile) {count : UInt32}
    (slot : fleet.slots.get agent.agentId = some count) : ∃ budgetCeiling remainingBudget left attention,
      placeOperation fingerprints request entry fleet agent profile = .ok
        { slots := fleet.slots.adjust agent.agentId left fun _ => left
          remainingBudget
          remainingHumanAttention := attention
          plans := fleet.plans ++ [buildPlan fingerprints request entry fleet agent profile
            (affordableAttempts entry.operation profile fleet.remainingBudget) budgetCeiling]
          unallocated := fleet.unallocated } ∧
      budgetCeiling.toInt = profile.costPerAttemptUsdMicros.toInt *
        (affordableAttempts entry.operation profile fleet.remainingBudget).toNat ∧
      budgetCeiling.toInt ≤ min entry.operation.budgetCeilingUsdMicros.toInt fleet.remainingBudget.toInt ∧
      budgetCeiling.toInt + remainingBudget.toInt = fleet.remainingBudget.toInt ∧ left.toNat + 1 = count.toNat ∧
      attention.toNat + (attentionRequired entry.operation).toNat = fleet.remainingHumanAttention.toNat ∧
      PlanValid (buildPlan fingerprints request entry fleet agent profile
        (affordableAttempts entry.operation profile fleet.remainingBudget) budgetCeiling) := by
  have operation := checked.operations _ placeable.listed
  have model := checked.profiles _ placeable.eligible.profileListed
  obtain ⟨positive, bounded⟩ := affordableAttempts_spec operation model.cost placeable.within placeable.payable
  generalize attempts : affordableAttempts entry.operation profile fleet.remainingBudget = maxAttempts at *
  have nonneg : 0 ≤ profile.costPerAttemptUsdMicros.toInt * maxAttempts.toNat :=
    Int.mul_nonneg model.cost (Int.natCast_nonneg _)
  have largest := fleet.remainingBudget.toInt_lt
  obtain ⟨budgetCeiling, multiplied, ceiling⟩ := i64_of_range
    (profile.costPerAttemptUsdMicros.toInt * maxAttempts.toNat) (by omega) (by omega)
  obtain ⟨remainingBudget, subtracted, rest⟩ := i64_of_range
    (fleet.remainingBudget.toInt - budgetCeiling.toInt) (by omega) (by omega)
  have countPositive : 0 < count := by
    have available := placeable.slot
    rwa [slot] at available
  obtain ⟨left, taken, fewer⟩ := takeSlot_spec slot countPositive
  obtain ⟨attention, spent, minutes⟩ := checkedSub32_spec placeable.attention
  have ceilingNonneg : 0 ≤ budgetCeiling.toInt := by omega
  have valid := buildPlan_valid checked lawful placeable positive ceilingNonneg
  refine ⟨budgetCeiling, remainingBudget, left, attention, ?_, ceiling, by rw [ceiling]; exact bounded, by omega, fewer,
    minutes, valid⟩
  unfold placeOperation
  rw [attempts]
  have product : checkedMul profile.costPerAttemptUsdMicros (Int64.ofInt maxAttempts.toNat) = some budgetCeiling := by
    rw [checkedMul, toInt_ofNat32]
    exact multiplied
  simp only [product]
  refine bind_eq_ok.mpr ⟨budgetCeiling, rfl, check_eq_ok.mpr ⟨plan_validate_ok.mpr valid, ?_⟩⟩
  refine bind_eq_ok.mpr ⟨_, taken, bind_eq_ok.mpr ⟨remainingBudget, ?_, bind_eq_ok.mpr ⟨attention, ?_, rfl⟩⟩⟩
  · rw [checkedSub, subtracted]
    rfl
  · rw [spent]
    rfl

theorem Running.place (running : Running request done fleet)
    (placeable : Placeable request fleet entry.operation agent profile) :
    ∃ next, placeOperation fingerprints request entry fleet agent profile = .ok next ∧
      Running request (done ++ [entry]) next := by
  obtain ⟨count, slot, taken⟩ := running.slots agent placeable.eligible.agentListed
  obtain ⟨budgetCeiling, remainingBudget, left, attention, ran, ceiling, bounded, rest, fewer, minutes, valid⟩ :=
    placeOperation_ok checked lawful running.solvent entry placeable slot
  refine ⟨_, ran, ?_⟩
  generalize made : buildPlan fingerprints request entry fleet agent profile
    (affordableAttempts entry.operation profile fleet.remainingBudget) budgetCeiling = plan at *
  have planCeiling : plan.budgetCeilingUsdMicros = budgetCeiling := by rw [← made]; rfl
  have planOperation : plan.operationId = entry.operation.operationId := by rw [← made]; rfl
  have planAgent : plan.selection.agentId = agent.agentId := by rw [← made]; rfl
  have planAttention : plannedAttention request plan = (attentionRequired entry.operation).toNat := by
    unfold plannedAttention
    rw [find_operation checked placeable.listed planOperation]
  have budget := running.budget
  have attentionBefore := running.attention
  refine ⟨?_, ?_, ?_, ?_, ?_, ?_, ?_, ?_⟩
  · simp only [map_append, map_cons, map_nil, sum_append, sum_cons, sum_nil, planCeiling]
    omega
  · dsimp only
    omega
  · simp only [map_append, map_cons, map_nil, sum_append, sum_cons, sum_nil,
      planAttention]
    omega
  · intro other listed
    rw [OrderedMap.get_adjust, countP_append, countP_singleton, planAgent]
    by_cases same : other.agentId = agent.agentId
    · refine ⟨left, by rw [if_pos same], ?_⟩
      have sameAgent : other = agent :=
        inj_on_of_nodup_map checked.agentIds listed placeable.eligible.agentListed same
      subst sameAgent
      simp only [decide_true, if_true]
      omega
    · obtain ⟨held, found, total⟩ := running.slots other listed
      refine ⟨held, by rw [if_neg same, found], ?_⟩
      have different : ¬ agent.agentId = other.agentId := fun equal => same equal.symm
      simpa [different] using total
  · simp only [length_append]
    exact placeable.parallel
  · intro other member
    rcases mem_appended.mp member with old | rfl
    · exact running.placed other old
    · refine ⟨entry.operation, agent, profile, placeable.listed, planOperation, planAgent, ?_, placeable.eligible, ?_,
        ?_⟩
      · rw [← made]
        rfl
      · rw [planCeiling, ceiling, ← made]
        exact le_refl _
      · rw [planCeiling]
        exact le_trans bounded (min_le_left _ _)
  · intro other member
    rcases mem_appended.mp member with old | rfl
    · exact running.valid other old
    · exact valid
  · simp only [map_append, map_cons, planOperation]
    have before := running.settled.append_right [entry.operation.operationId]
    refine List.Perm.trans ?_ before
    rw [append_assoc, append_assoc]
    exact (perm_append_comm).append_left _

theorem Running.allocate (running : Running request done fleet) (listed : entry.operation ∈ request.operations) :
    ∃ next, allocateOperation fingerprints request fleet entry = .ok next ∧
      Running request (done ++ [entry]) next := by
  unfold allocateOperation
  split
  · exact ⟨_, rfl, running.refuse entry _⟩
  · next parallel =>
    split
    · exact ⟨_, rfl, running.refuse entry _⟩
    · next attention =>
      dsimp only
      split
      · exact ⟨_, rfl, running.refuse entry _⟩
      · next agent profile found =>
        have chosen := mem_of_find?_eq_some found
        rw [(perm_insertionSort _ _).mem_iff] at chosen
        obtain ⟨eligible, slot⟩ := eligibleChoices_spec chosen
        have affords := find?_some found
        simp only [affordable, Bool.and_eq_true, decide_eq_true_eq, Int64.le_iff_toInt_le] at affords
        rw [UInt32.lt_iff_toNat_lt, Nat.not_lt] at attention
        exact running.place checked lawful
          ⟨listed, eligible, slot, affords.1, affords.2, attention, Nat.lt_of_not_le parallel⟩

end

theorem get_startSlots {agents : List AgentCapacity} (distinct : (agents.map AgentCapacity.agentId).Nodup)
    (listed : agent ∈ agents) :
    (agents.foldl (fun slots agent => slots.adjust agent.agentId agent.availableSlots fun _ => agent.availableSlots)
      slots).get agent.agentId = some agent.availableSlots := by
  have kept {id : String} : ∀ (others : List AgentCapacity) (slots : OrderedMap String UInt32),
      id ∉ others.map AgentCapacity.agentId →
      (others.foldl (fun slots agent => slots.adjust agent.agentId agent.availableSlots fun _ => agent.availableSlots)
        slots).get id = slots.get id := by
    intro others
    induction others with
    | nil => exact fun _ _ => rfl
    | cons other others ih =>
      intro slots free
      rw [map_cons, mem_cons, not_or] at free
      rw [foldl_cons, ih _ free.2, OrderedMap.get_adjust, if_neg free.1]
  induction agents generalizing slots with
  | nil => cases listed
  | cons first rest ih =>
    rw [map_cons, nodup_cons] at distinct
    rw [foldl_cons]
    rcases mem_cons.mp listed with rfl | later
    · rw [kept rest _ distinct.1, OrderedMap.get_adjust, if_pos rfl]
    · exact ih distinct.2 later

theorem running_start (checked : Checked request) : Running request [] (Fleet.start request.capacity) := by
  refine ⟨by simp [Fleet.start], checked.budget, by simp [Fleet.start], ?_, Nat.zero_le _, by simp [Fleet.start],
    by simp [Fleet.start], List.Perm.refl _⟩
  intro agent listed
  exact ⟨agent.availableSlots, get_startSlots checked.agentIds listed, by simp [Fleet.start]⟩

omit [Binary64 F] in
theorem sortedEntries_operations (request : AllocationRequest F) :
    ((sortedEntries request).map Entry.operation).Perm request.operations := by
  have sorted : (sortedEntries request).Perm (entries request) := perm_insertionSort _ _
  have operations : (entries request).map Entry.operation = request.operations := by
    unfold entries
    rw [map_map]
    refine (map_congr_left fun operation _ => ?_).trans (map_id _)
    rw [Function.comp_apply]
    split
    · rfl
    · rfl
  rw [← operations]
  exact sorted.map _

theorem recommendBaseline_runs (lawful : fingerprints.Lawful) (fine : request.validate = .ok ()) :
    ∃ fleet, recommendBaseline fingerprints request = .ok ⟨fleet.plans, fleet.unallocated⟩ ∧
      Running request (sortedEntries request) fleet := by
  have checked := request_validate_ok fine
  obtain ⟨fleet, ran, running⟩ : ∃ fleet,
      (sortedEntries request).foldlM (allocateOperation fingerprints request) (Fleet.start request.capacity) =
        .ok fleet ∧
        Running request ([] ++ sortedEntries request) fleet := by
    refine foldlM_runs (fun done fleet entry member running => ?_) (running_start checked)
    have listed := (sortedEntries_operations request).mem_iff.mp (mem_map_of_mem member)
    exact running.allocate checked lawful listed
  refine ⟨fleet, ?_, running⟩
  exact check_eq_ok.mpr ⟨fine, bind_eq_ok.mpr ⟨fleet, ran, rfl⟩⟩

end

end SekaiChisei.Gunshi
