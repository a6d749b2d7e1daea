import SekaiChisei.TenantQuota.Turns

/-! The account of a tenant: its usage cell against what its operations have charged. -/

namespace SekaiChisei.TenantQuota
open Lib Budget BudgetDb List Life

def Recorded (cell : Option SqlNumber) (amount : Int) : Prop :=
  cell = none ∧ amount = 0 ∨ ∃ used : Int64, cell = some (.integer used) ∧ used.toInt = amount

variable {amount : Int}

theorem Recorded.used {db : BudgetDb} {scope metric : String} {period : Int}
    (recorded : Recorded (db.usageAt scope metric period) amount) :
    ∃ used, db.used scope metric period = .ok used ∧ used.toInt = amount := by
  unfold BudgetDb.used
  rcases recorded with ⟨absent, rfl⟩ | ⟨used, found, same⟩
  · rw [absent]
    exact ⟨0, rfl, Int64.toInt_zero⟩
  · rw [found]
    exact ⟨used, rfl, same⟩

theorem recorded_sum {used delta : Int64} (low : -2 ^ 63 ≤ used.toInt + delta.toInt)
    (high : used.toInt + delta.toInt < 2 ^ 63) :
    (SqlNumber.integer used).add (.integer delta) = .integer (used + delta) ∧
      (used + delta).toInt = used.toInt + delta.toInt :=
  ⟨SqlNumber.add_integer_of_fits low high, SqlNumber.toInt_add_of_fits low high⟩

variable {cell : Option SqlNumber}

theorem Recorded.reserving {added : Int64} (recorded : Recorded cell amount)
    (low : 0 ≤ amount + added.toInt) (high : amount + added.toInt < 2 ^ 63) :
    Recorded (some ((BudgetDb.reserving added).apply cell)) (amount + added.toInt) := by
  right
  rcases recorded with ⟨rfl, rfl⟩ | ⟨used, rfl, rfl⟩
  · exact ⟨added, rfl, (Int.zero_add _).symm⟩
  · obtain ⟨integer, sum⟩ := @recorded_sum used added (by omega) high
    refine ⟨used + added, ?_, sum⟩
    show some ((SqlNumber.integer used).add (.integer added)).stored = _
    rw [integer]
    rfl

theorem atLeastZero_integer {value : Int64} (nonneg : 0 ≤ value.toInt) :
    ∃ kept : Int64, (SqlNumber.integer value).atLeastZero = .integer kept ∧ kept.toInt = value.toInt := by
  unfold SqlNumber.atLeastZero
  split
  · exact ⟨value, rfl, rfl⟩
  · rename_i low
    have low : ¬ 0 < value.toInt := low
    refine ⟨0, rfl, ?_⟩
    rw [Int64.toInt_zero]
    omega

theorem Recorded.adjusting {delta : Int64} (recorded : Recorded cell amount)
    (low : 0 ≤ amount + delta.toInt) (high : amount + delta.toInt < 2 ^ 63) :
    Recorded (some ((BudgetDb.adjusting delta).apply cell)) (amount + delta.toInt) := by
  right
  rcases recorded with ⟨rfl, rfl⟩ | ⟨used, rfl, rfl⟩
  · obtain ⟨kept, floored, same⟩ := @atLeastZero_integer delta (by omega)
    exact ⟨kept, congrArg some floored, by omega⟩
  · obtain ⟨integer, sum⟩ := @recorded_sum used delta (by omega) high
    obtain ⟨kept, floored, same⟩ := @atLeastZero_integer (used + delta) (by omega)
    refine ⟨kept, ?_, by omega⟩
    show some ((SqlNumber.integer used).add (.integer delta)).atLeastZero.stored = _
    rw [integer, floored]
    rfl

section
variable {metric scope : String} {count : Life → Int} {nowMs : Int} {db db' : BudgetDb} {life life' : Life}

theorem Turn.rules (turn : Turn metric count nowMs db life db' life') : SameRules db db' := by
  cases turn with
  | quiet rules cells shares => exact rules
  | replayed metered replays elsewhere => exact SameRules.refl db
  | reserved call metered timed nonneg checked charged shares => exact charged.rules
  | adjusted source delta lowered charged shares => exact charged.rules

variable {scopes : List String} {charge : Charge}

theorem charged_elsewhere {period : Int}
    (charged : Charged charge metric nowMs scopes db db') (elsewhere : period ≠ db.chargePeriod metric nowMs scope) :
    db'.usageAt scope metric period = db.usageAt scope metric period := by
  rw [charged.usageAt, if_neg]
  rintro ⟨_, _, same⟩
  exact elsewhere same

theorem Turn.elsewhere (turn : Turn metric count nowMs db life db' life') {period : Int}
    (elsewhere : period ≠ db.chargePeriod metric nowMs scope) :
    db'.usageAt scope metric period = db.usageAt scope metric period := by
  cases turn with
  | quiet rules cells shares => exact cells scope period
  | replayed metered replays elsewhere => rfl
  | reserved call metered timed nonneg checked charged shares | adjusted source delta lowered charged shares =>
    exact charged_elsewhere charged elsewhere

variable {amount : Int}

theorem recorded_charged {change : Int} {charging : Int} (charged : Charged charge metric nowMs scopes db db')
    (recorded : Recorded (db.usageAt scope metric (db.chargePeriod metric nowMs scope)) amount)
    (changed : change = if scope ∈ scopes then charging else 0)
    (applied : Recorded (some (charge.apply (db.usageAt scope metric (db.chargePeriod metric nowMs scope))))
      (amount + charging) ∨ scope ∉ scopes) :
    Recorded (db'.usageAt scope metric (db.chargePeriod metric nowMs scope)) (amount + change) := by
  rw [charged.usageAt, changed]
  by_cases member : scope ∈ scopes
  · rw [if_pos ⟨member, rfl, rfl⟩, if_pos member]
    exact applied.resolve_right fun absent => absent member
  · rw [if_neg fun charged => member charged.1, if_neg member, Int.add_zero]
    exact recorded

variable (turn : Turn metric count nowMs db life db' life')
include turn

theorem Turn.recorded (once : metric = metricTokens → scope ∈ scopeChain life.scopeId → ¬ Replays db life)
    (recorded : Recorded (db.usageAt scope metric (db.chargePeriod metric nowMs scope)) amount)
    (low : 0 ≤ amount + (life'.share count scope - life.share count scope))
    (high : amount + (life'.share count scope - life.share count scope) < 2 ^ 63) :
    Recorded (db'.usageAt scope metric (db.chargePeriod metric nowMs scope))
      (amount + (life'.share count scope - life.share count scope)) := by
  cases turn with
  | quiet rules cells shares =>
    rw [cells, shares, Int.sub_self, Int.add_zero]
    exact recorded
  | replayed metered replays elsewhere =>
    rw [elsewhere scope fun charged => once metered charged replays, Int.sub_self, Int.add_zero]
    exact recorded
  | reserved call metered timed nonneg checked charged shares =>
    have change := Int.sub_eq_iff_eq_add'.mpr (shares scope)
    refine recorded_charged charged recorded change ?_
    by_cases member : scope ∈ scopeChain call.scopeId
    · rw [change, if_pos member] at low high
      exact .inl (recorded.reserving low high)
    · exact .inr member
  | adjusted source delta lowered charged shares =>
    have change := Int.sub_eq_iff_eq_add'.mpr (shares scope)
    refine recorded_charged charged recorded change ?_
    by_cases member : scope ∈ scopeChain source
    · rw [change, if_pos member] at low high
      exact .inl (recorded.adjusting low high)
    · exact .inr member

/-- Where a metric is never raised by an adjustment, its limit bounds what is recorded. -/
theorem Turn.within (other : metric ≠ metricTokens)
    {limit : EffectiveLimit} (limited : db.effectiveLimit scope metric = some limit)
    (recorded : Recorded (db.usageAt scope metric (db.chargePeriod metric nowMs scope)) amount)
    (nonneg : 0 ≤ amount) (within : amount ≤ limit.maxAmount.toInt) (small : limit.maxAmount.toInt < 2 ^ 31)
    (unit : life'.share count scope - life.share count scope ≤ 1) :
    amount + (life'.share count scope - life.share count scope) ≤ limit.maxAmount.toInt := by
  cases turn with
  | quiet rules cells shares =>
    rw [shares]
    omega
  | replayed metered replays elsewhere => exact absurd metered other
  | reserved call metered timed positive checked charged shares =>
    rw [shares] at unit ⊢
    split
    · rename_i member
      rw [if_pos member] at unit
      subst metered timed
      obtain ⟨used, read, fits⟩ := checkScope_ok limited (checked scope member)
      obtain ⟨used', read', same⟩ := recorded.used
      rw [chargePeriod_of_limited limited, read] at read'
      cases read'
      rw [Int64.le_iff_toInt_le, SqlNumber.toInt_add_of_fits (by omega) (by omega)] at fits
      omega
    · omega
  | adjusted source delta lowered charged shares =>
    have fall := lowered other
    rw [shares]
    split <;> omega

end

def total (count : Life → Int) (scope : String) (lives : List Life) : Int :=
  (lives.map (share count scope)).sum

section
variable {count : Life → Int} {scope : String} {lives : List Life}

theorem Life.share_nonneg (nonneg : ∀ life, 0 ≤ count life) (life : Life) : 0 ≤ life.share count scope := by
  unfold share
  split
  · exact nonneg life
  · exact Int.le_refl 0

theorem total_nonneg (nonneg : ∀ life, 0 ≤ count life) (lives : List Life) : 0 ≤ total count scope lives := by
  apply sum_nonneg
  intro amount member
  obtain ⟨life, _, rfl⟩ := mem_map.mp member
  exact share_nonneg nonneg life

theorem total_append {life : Life} :
    total count scope (lives ++ [life]) = total count scope lives + life.share count scope := by
  unfold total
  rw [map_append, sum_append, map_singleton, sum_singleton]

theorem total_set {i : Nat} {life : Life} (atI : lives[i]? = some life) (life' : Life) :
    total count scope (lives.set i life') =
      total count scope lives + (life'.share count scope - life.share count scope) := by
  obtain ⟨inside, rfl⟩ := List.getElem?_eq_some_iff.mp atI
  unfold total
  rw [map_set, sum_set', dif_pos (by rw [length_map]; exact inside), getElem_map]
  omega

theorem total_eq_zero (none : ∀ life ∈ lives, scope ∈ scopeChain life.scopeId → count life = 0) :
    total count scope lives = 0 := by
  apply sum_eq_zero
  intro amount member
  obtain ⟨life, present, rfl⟩ := mem_map.mp member
  unfold Life.share
  split
  · rename_i charged
    exact none life present charged
  · rfl

end

structure Tenants where
  (known concurrent : String → Prop)

def TenantQuotaAdmission.Proper (tenants : Tenants) (admission : TenantQuotaAdmission) : Prop :=
  admission.scopeId = tenantScopeId admission.tenantId ∧ tenants.known admission.tenantId ∧
    (tenants.concurrent admission.tenantId → admission.reservedConcurrency = true)

def Life.Proper (tenants : Tenants) : Life → Prop
  | .admitting call stage reserved => (admitting call stage reserved).Fresh ∧
      reserved.scopeId = tenantScopeId reserved.tenantId ∧ tenants.known reserved.tenantId ∧
      (tenants.concurrent reserved.tenantId → call.limits.maxConcurrency.isSome)
  | .held admission => admission.Proper tenants
  | .completing _ admission _ => admission.Proper tenants
  | .completed admission _ => admission.Proper tenants
  | .abandoning _ remaining => remaining.Proper tenants
  | _ => True

section
variable {tenants : Tenants} {life : Life}

theorem Life.Proper.fresh (proper : life.Proper tenants) : life.Fresh := by
  cases life with
  | admitting call stage reserved => exact proper.1
  | _ => trivial

variable {call : AdmitCall}

theorem admit_proper (known : ∀ tenantId, call.tenant = some tenantId → tenants.known tenantId)
    (takes : ∀ tenantId, call.tenant = some tenantId → tenants.concurrent tenantId →
      call.limits.maxConcurrency.isSome) : (admitStart call).Proper tenants := by
  unfold admitStart
  split
  · trivial
  · rename_i tenantId named
    split
    · trivial
    · exact ⟨⟨rfl, fun _ => rfl⟩, rfl, known tenantId named, takes tenantId named⟩

section
variable (tracker : BudgetTracker) (nowMs : Int) (db : BudgetDb)
include tracker nowMs db

theorem advanceAdmit_proper {stage : Stage} {reserved : TenantQuotaAdmission}
    (proper : (admitting call stage reserved).Proper tenants) :
    (advanceAdmit tracker nowMs db call reserved stage).2.Proper tenants := by
  obtain ⟨⟨unit, tokens⟩, placed, known, takes⟩ := proper
  cases stage with
  | requests =>
    have none : reserved.reservedTokens = 0 := tokens (by decide)
    simp only [advanceAdmit]
    split
    · split
      · trivial
      · exact ⟨⟨unit, fun _ => none⟩, placed, known, takes⟩
    · exact ⟨⟨unit, fun _ => none⟩, placed, known, takes⟩
  | tokens =>
    simp only [advanceAdmit]
    split
    · split
      · trivial
      · exact ⟨⟨unit, absurd rfl⟩, placed, known, takes⟩
    · exact ⟨⟨unit, absurd rfl⟩, placed, known, takes⟩
  | concurrency =>
    simp only [advanceAdmit]
    split
    · split
      · trivial
      · exact ⟨placed, known, fun _ => rfl⟩
    · rename_i skipped
      exact ⟨placed, known, fun covered => absurd (takes covered) skipped⟩

theorem advanceRollback_proper (stage : Stage) (reserved : TenantQuotaAdmission) (error : TenantQuotaError) :
    (advanceRollback tracker nowMs db reserved error stage).2.Proper tenants := by
  cases stage <;> simp only [advanceRollback]
  · split
    · split <;> trivial
    · trivial
  · split
    · split <;> trivial
    · trivial
  · trivial

theorem advanceComplete_proper (stage : Stage) {admission : TenantQuotaAdmission} (actual : Int32)
    (proper : admission.Proper tenants) :
    (advanceComplete tracker nowMs db admission actual stage).2.Proper tenants := by
  cases stage <;> simp only [advanceComplete]
  · exact proper
  · split
    · split <;> exact proper
    · exact proper
  · split
    · split <;> exact proper
    · exact proper

theorem advanceAbandon_proper (stage : Stage) {remaining : TenantQuotaAdmission} (proper : remaining.Proper tenants) :
    (advanceAbandon tracker nowMs db remaining stage).2.Proper tenants := by
  cases stage <;> simp only [advanceAbandon]
  · split
    · split <;> exact proper
    · exact proper
  · split
    · split <;> exact proper
    · exact proper
  · split
    · split
      · exact proper
      · trivial
    · trivial

theorem advance_proper (proper : life.Proper tenants) : (advance tracker nowMs db life).2.Proper tenants := by
  cases life with
  | admitting call stage reserved => exact advanceAdmit_proper tracker nowMs db proper
  | rollingBack stage reserved error => exact advanceRollback_proper tracker nowMs db stage reserved error
  | completing stage admission actual => exact advanceComplete_proper tracker nowMs db stage actual proper
  | abandoning stage remaining => exact advanceAbandon_proper tracker nowMs db stage proper
  | _ => exact proper

end

end

/-- What a step does to the operations: one is new, one is ended, or one comes to its next branch. -/
theorem step_cases {tracker : BudgetTracker} (world : World) (act : Action) :
    step tracker world act = world ∨ (∃ call, act = .admission call ∧
      step tracker world act = { world with lives := world.lives ++ [admitStart call] }) ∨
    (∃ i admission ended, world.lives[i]? = some (.held admission) ∧
      (act = .abandon i ∧ ended = .abandoning .requests admission ∨
        ∃ actual, act = .complete i actual ∧ ended = .completing .tokens admission actual) ∧
      step tracker world act = { world with lives := world.lives.set i ended }) ∨
    ∃ i elapsed life, act = .advance i elapsed ∧ world.lives[i]? = some life ∧ step tracker world act =
        { db := (advance tracker (world.clock + elapsed) world.db life).1
          clock := world.clock + elapsed
          lives := world.lives.set i (advance tracker (world.clock + elapsed) world.db life).2 } := by
  have ends : ∀ (i : Nat) (ending : TenantQuotaAdmission → Life),
      world.update i (endWith ending) = world ∨ ∃ admission, world.lives[i]? = some (.held admission) ∧
        world.update i (endWith ending) = { world with lives := world.lives.set i (ending admission) } := by
    intro i ending
    unfold World.update
    cases atI : world.lives[i]? with
    | none => exact .inl rfl
    | some life =>
      have same : world.lives.set i life = world.lives := by
        obtain ⟨inside, rfl⟩ := List.getElem?_eq_some_iff.mp atI
        exact set_getElem_self inside
      cases life with
      | held admission => exact .inr ⟨admission, rfl, rfl⟩
      | _ =>
        left
        simp only [endWith, same]
  cases act with
  | admission call => exact .inr (.inl ⟨call, rfl, rfl⟩)
  | complete i actual =>
    rcases ends i fun admission => .completing .tokens admission actual with same | ⟨admission, atI, ended⟩
    · exact .inl same
    · exact .inr (.inr (.inl ⟨i, admission, _, atI, Or.inr ⟨actual, rfl, rfl⟩, ended⟩))
  | abandon i =>
    rcases ends i fun admission => .abandoning .requests admission with same | ⟨admission, atI, ended⟩
    · exact .inl same
    · exact .inr (.inr (.inl ⟨i, admission, _, atI, Or.inl ⟨rfl, rfl⟩, ended⟩))
  | advance i elapsed =>
    cases atI : world.lives[i]? with
    | none =>
      left
      simp only [step, atI]
    | some life =>
      refine .inr (.inr (.inr ⟨i, elapsed, life, rfl, atI, ?_⟩))
      simp only [step, atI]

theorem admitStart_uncharged (call : AdmitCall) : (admitStart call).units = 0 ∧ (admitStart call).tokens = 0 := by
  unfold admitStart
  split
  · exact ⟨rfl, rfl⟩
  · split <;> exact ⟨rfl, rfl⟩

/-- Only an advance charges. -/
theorem step_total (tracker : BudgetTracker) (world : World) (act : Action) {count : Life → Int}
    (started : ∀ call, count (admitStart call) = 0)
    (abandoned : ∀ admission, count (.abandoning .requests admission) = count (.held admission))
    (completed : ∀ admission actual, count (.completing .tokens admission actual) = count (.held admission))
    (scope : String) :
    (∃ lives, step tracker world act = { world with lives } ∧ total count scope lives = total count scope world.lives) ∨
    ∃ i elapsed life, act = .advance i elapsed ∧ world.lives[i]? = some life ∧ step tracker world act =
        { db := (advance tracker (world.clock + elapsed) world.db life).1
          clock := world.clock + elapsed
          lives := world.lives.set i (advance tracker (world.clock + elapsed) world.db life).2 } := by
  rcases step_cases world act with same | ⟨call, _, next⟩ | ⟨i, admission, ended, atI, how, next⟩ | advanced
  · exact .inl ⟨world.lives, same, rfl⟩
  · refine .inl ⟨_, next, ?_⟩
    rw [total_append, Life.share, started, ite_self, Int.add_zero]
  · refine .inl ⟨_, next, ?_⟩
    have share : ended.share count scope = (held admission).share count scope := by
      rcases how with ⟨_, rfl⟩ | ⟨actual, _, rfl⟩
      · exact share_same rfl (abandoned admission)
      · exact share_same rfl (completed admission actual)
    rw [total_set atI, share, Int.sub_self, Int.add_zero]
  · exact .inr advanced

theorem step_lives {tracker : BudgetTracker} {world : World} {act : Action} {P : Life → Prop}
    (held : ∀ life ∈ world.lives, P life) (new : ∀ call, act = .admission call → P (admitStart call))
    (abandoned : ∀ admission, P (.held admission) → P (.abandoning .requests admission))
    (completed : ∀ i admission actual, act = .complete i actual → world.lives[i]? = some (.held admission) →
      P (.held admission) → P (.completing .tokens admission actual))
    (advanced : ∀ nowMs db life, P life → P (advance tracker nowMs db life).2) :
    ∀ life ∈ (step tracker world act).lives, P life := by
  intro life member
  rcases step_cases world act with same | ⟨call, rfl, next⟩ | ⟨i, admission, ended, atI, how, next⟩ |
    ⟨i, elapsed, before, rfl, atI, next⟩
  · rw [same] at member
    exact held life member
  · rcases mem_appended.mp member with old | rfl
    · exact held life old
    · exact new call rfl
  · have was := held _ (mem_of_getElem? atI)
    rw [next] at member
    rcases mem_or_eq_of_mem_set member with old | rfl
    · exact held life old
    · rcases how with ⟨rfl, rfl⟩ | ⟨actual, rfl, rfl⟩
      · exact abandoned admission was
      · exact completed i admission actual rfl atI was
  · rw [next] at member
    rcases mem_or_eq_of_mem_set member with old | rfl
    · exact held life old
    · exact advanced _ _ before (held before (mem_of_getElem? atI))

theorem tenantScopeId_mem (tenantId : String) : tenantScopeId tenantId ∈ scopeChain (tenantScopeId tenantId) := by
  have chars : (tenantScopeId tenantId).toList = 't' :: ("enant:".toList ++ tenantId.toList) := by
    rw [tenantScopeId, String.toList_append]
    rfl
  have pieces : splitAll '/' (tenantScopeId tenantId) =
      (List.modifyHead (cons 't') (("enant:".toList ++ tenantId.toList).splitOn '/')).map String.ofList := by
    rw [splitAll, chars, splitOn_cons_eq_if_modifyHead, if_neg (by decide)]
  cases rest : ("enant:".toList ++ tenantId.toList).splitOn '/' with
  | nil => exact absurd rest (splitOn_ne_nil _ _)
  | cons first others =>
    rw [rest] at pieces
    refine self_mem_scopeChain pieces ?_
    intro empty
    have := congrArg String.toList empty
    rw [String.toList_ofList] at this
    cases this

section
variable {tracker : BudgetTracker} {db db' : BudgetDb}

def configured (tracker : BudgetTracker) (max : Int32) (period : PeriodType) : EffectiveLimit :=
  ⟨max.toInt64, period.asStr, if tracker.requireHomePin then tracker.localSiteId else "", false⟩

structure Configures (db db' : BudgetDb) : Prop where
  usage : db'.usage = db.usage
  usageEvents : db'.usageEvents = db.usageEvents

variable {period : PeriodType} {metric : String}

theorem setLimit_configures {scope : String} {max : Int32}
    (done : tracker.setLimitWithMetric db scope metric max period = .ok db') :
    Configures db db' ∧ 0 ≤ max.toInt ∧ ∀ metric', db'.effectiveLimit scope metric' =
      if metric' = metric then some (configured tracker max period) else db.effectiveLimit scope metric' := by
  obtain ⟨nonneg, rest⟩ := ite_error_eq_ok.mp done
  obtain ⟨_, last⟩ := check_eq_ok.mp rest
  cases last
  rw [Int64.lt_iff_toInt_lt, Int32.toInt_toInt64, not_lt] at nonneg
  refine ⟨⟨rfl, rfl⟩, nonneg, ?_⟩
  intro metric'
  unfold effectiveLimit loadLimitRow
  rw [Table.find_upsert fun _ _ => rfl]
  by_cases same : metric' = metric
  · subst same
    rw [if_pos (show (scope, metric') = LimitRow.key _ from rfl), if_pos rfl]
    cases Table.find LimitRow.key db.limits (scope, metric') <;> rfl
  · rw [if_neg (show ¬ (scope, metric') = LimitRow.key _ from fun pair => same (Prod.mk.inj pair).2), if_neg same]

theorem configureMetric_configures {scope : String} {max : Option Int32}
    (done : tracker.configureMetric db scope metric max period = .ok db') :
    Configures db db' ∧ (∀ assigned ∈ max, 0 ≤ assigned.toInt) ∧ ∀ metric', db'.effectiveLimit scope metric' =
      if metric' = metric then (max.map (configured tracker · period)).or (db.effectiveLimit scope metric')
      else db.effectiveLimit scope metric' := by
  cases max with
  | none =>
    cases done
    refine ⟨⟨rfl, rfl⟩, nofun, ?_⟩
    intro metric'
    rw [Option.map_none, Option.none_or, ite_self]
  | some max =>
    obtain ⟨configures, nonneg, limited⟩ := setLimit_configures (mapError_eq_ok.mp done)
    refine ⟨configures, ?_, limited⟩
    rintro _ ⟨⟩
    exact nonneg

theorem Configures.trans {db'' : BudgetDb} (first : Configures db db') (second : Configures db' db'') :
    Configures db db'' :=
  ⟨second.usage.trans first.usage, second.usageEvents.trans first.usageEvents⟩

theorem Configures.usageAt (configures : Configures db db') (scope metric : String) (period : Int) :
    db'.usageAt scope metric period = db.usageAt scope metric period := by
  unfold BudgetDb.usageAt
  rw [configures.usage]

theorem configure_configures {tenantId : String} {limits : TenantQuotaLimits}
    (done : tracker.configure db tenantId limits = .ok db') : Configures db db' ∧
    (∀ max, limits.maxTokensPerPeriod = some max →
      db'.effectiveLimit (tenantScopeId tenantId) metricTokens = some (configured tracker max limits.period)) ∧
    ∀ max, limits.maxConcurrency = some max → 0 ≤ max.toInt ∧
      db'.effectiveLimit (tenantScopeId tenantId) metricConcurrency = some (configured tracker max .monthly) := by
  obtain ⟨_, tokens, rest⟩ := bind_eq_ok.mp done
  obtain ⟨_, requests, rest⟩ := bind_eq_ok.mp rest
  obtain ⟨_, concurrency, storage⟩ := bind_eq_ok.mp rest
  obtain ⟨keepTokens, _, limitTokens⟩ := configureMetric_configures tokens
  obtain ⟨keepRequests, _, limitRequests⟩ := configureMetric_configures requests
  obtain ⟨keepConcurrency, nonneg, limitConcurrency⟩ := configureMetric_configures concurrency
  obtain ⟨keepStorage, _, limitStorage⟩ := configureMetric_configures storage
  refine ⟨((keepTokens.trans keepRequests).trans keepConcurrency).trans keepStorage, ?_, ?_⟩
  · intro max assigned
    rw [limitStorage, if_neg (by decide), limitConcurrency, if_neg (by decide), limitRequests, if_neg (by decide),
      limitTokens, if_pos rfl, assigned]
    rfl
  · intro max assigned
    refine ⟨nonneg max assigned, ?_⟩
    rw [limitStorage, limitConcurrency, assigned]
    rfl

end

end SekaiChisei.TenantQuota
