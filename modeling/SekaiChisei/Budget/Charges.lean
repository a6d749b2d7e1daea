import SekaiChisei.Budget.Store

/-!
What the operations that charge a chain do: which checks passed, and which usage cells they change.
-/

namespace SekaiChisei.Budget.BudgetDb
open Lib List

variable {db db' : BudgetDb} {call : Reservation}

variable {metric : String} {charge : Charge} {nowMs : Int} {scope : String}

theorem usageAt_of_used {period : Int} {used : Int64} (read : db.used scope metric period = .ok used) :
    db.usageAt scope metric period = some (.integer used) ∨ (db.usageAt scope metric period = none ∧ used = 0) := by
  unfold BudgetDb.used at read
  split at read
  · rename_i amount found
    cases read
    exact .inl found
  · cases read
  · rename_i absent
    cases read
    exact .inr ⟨absent, rfl⟩

def Charge.apply (charge : Charge) : Option SqlNumber → SqlNumber
  | some cell => charge.updated cell
  | none => charge.inserted

structure SameRules (db db' : BudgetDb) : Prop where
  limits : db'.limits = db.limits
  workUnitDefaults : db'.workUnitDefaults = db.workUnitDefaults
  pools : db'.pools = db.pools
  transfers : db'.transfers = db.transfers

theorem SameRules.refl (db : BudgetDb) : SameRules db db := ⟨rfl, rfl, rfl, rfl⟩

theorem SameRules.trans {db'' : BudgetDb} (first : SameRules db db') (second : SameRules db' db'') :
    SameRules db db'' :=
  ⟨second.limits.trans first.limits, second.workUnitDefaults.trans first.workUnitDefaults,
    second.pools.trans first.pools, second.transfers.trans first.transfers⟩

theorem SameRules.effectiveLimit (same : SameRules db db') (scope metric : String) :
    db'.effectiveLimit scope metric = db.effectiveLimit scope metric := by
  unfold BudgetDb.effectiveLimit loadLimitRow
  rw [same.limits, same.workUnitDefaults]

theorem SameRules.chargePeriod (same : SameRules db db') (metric : String) (nowMs : Int)
    (scope : String) : db'.chargePeriod metric nowMs scope = db.chargePeriod metric nowMs scope := by
  unfold BudgetDb.chargePeriod chargePeriodType
  rw [same.effectiveLimit]

/-- `db'` is `db` with the usage of `scopes` charged once, each in its own period. -/
structure Charged (charge : Charge) (metric : String) (nowMs : Int) (scopes : List String)
    (db db' : BudgetDb) : Prop where
  rules : SameRules db db'
  usageAt : ∀ scope metric' period, db'.usageAt scope metric' period =
    if scope ∈ scopes ∧ metric' = metric ∧ period = db.chargePeriod metric nowMs scope then
      some (charge.apply (db.usageAt scope metric' period))
    else db.usageAt scope metric' period

theorem charged_nil : Charged charge metric nowMs [] db db := by
  refine ⟨SameRules.refl db, ?_⟩
  intro scope metric' period
  simp

theorem chargeUsage_charged (db : BudgetDb) (scope : String) :
    Charged charge metric nowMs [scope] db (chargeUsage charge metric nowMs db scope) := by
  refine ⟨⟨rfl, rfl, rfl, rfl⟩, ?_⟩
  intro scope' metric' period
  unfold BudgetDb.usageAt chargeUsage
  have merged : ∀ row : UsageRow,
      row.key = UsageRow.key ⟨scope, metric, db.chargePeriod metric nowMs scope, charge.inserted⟩ →
      UsageRow.key { row with amountUsed := charge.updated row.amountUsed } =
        UsageRow.key ⟨scope, metric, db.chargePeriod metric nowMs scope, charge.inserted⟩ :=
    fun _ same => same
  rw [Table.find_upsert merged]
  by_cases same : (scope', metric', period) = (scope, metric, db.chargePeriod metric nowMs scope)
  · have charged : scope' ∈ [scope] ∧ metric' = metric ∧ period = db.chargePeriod metric nowMs scope' := by
      obtain ⟨rfl, rfl, rfl⟩ := same
      exact ⟨mem_singleton_self _, rfl, rfl⟩
    rw [if_pos charged]
    refine (congrArg _ (if_pos same)).trans ?_
    cases Table.find UsageRow.key db.usage (scope', metric', period) with
    | none => rfl
    | some row => rfl
  · have uncharged : ¬ (scope' ∈ [scope] ∧ metric' = metric ∧ period = db.chargePeriod metric nowMs scope') := by
      rintro ⟨member, rfl, rfl⟩
      rw [mem_singleton] at member
      subst member
      exact same rfl
    rw [if_neg uncharged]
    exact congrArg _ (if_neg same)

variable {step : BudgetDb → String → BudgetDb}

theorem foldl_charged (one : ∀ db scope, Charged charge metric nowMs [scope] db (step db scope))
    {scopes : List String} (unique : scopes.Nodup) (db : BudgetDb) :
    Charged charge metric nowMs scopes db (scopes.foldl step db) := by
  induction scopes generalizing db with
  | nil => exact charged_nil
  | cons first rest ih =>
    obtain ⟨absent, unique⟩ := nodup_cons.mp unique
    have head := one db first
    have tail := ih unique (step db first)
    refine ⟨head.rules.trans tail.rules, ?_⟩
    intro scope metric' period
    rw [foldl_cons, tail.usageAt, head.rules.chargePeriod, head.usageAt]
    by_cases isFirst : scope = first
    · subst isFirst
      simp [absent]
    · simp [isFirst]

theorem chargeChain_charged (source metric : String) :
    Charged charge metric nowMs (scopeChain source) db (chargeChain charge source metric nowMs db) := by
  apply foldl_charged _ (scopeChain_nodup source)
  intro db scope
  have charged : Charged charge metric nowMs [scope] db _ := chargeUsage_charged db scope
  exact ⟨charged.rules.trans ⟨rfl, rfl, rfl, rfl⟩, charged.usageAt⟩

/-- A charge counts once in the global scope and every scope that is checked. Those are the path, its ancestors and
their chains exactly when the path does not start with a separator. -/
theorem scopeChain_covers_iff {scopeId : String} (named : scopeId ≠ "") :
    (scopeChain scopeId).head? = some globalScope ∧ (scopeChain scopeId).Nodup ∧ (∀ charge metric nowMs db,
      Charged charge metric nowMs (scopeChain scopeId) db (chargeChain charge scopeId metric nowMs db)) ∧
    (∀ (db : BudgetDb) (call : Reservation), call.scopeId = scopeId → (db.budgetCheckChainForSite call = .ok () ↔
      ∀ scope ∈ scopeChain scopeId, db.checkScope call scope = .ok ())) ∧
    ((∀ n, ancestorPath scopeId n ∈ scopeChain scopeId ∧ scopeChain (ancestorPath scopeId n) ⊆ scopeChain scopeId) ↔
      ¬ StartsSeparated scopeId) := by
  refine ⟨?_, scopeChain_nodup scopeId, ?_, ?_, ancestors_covered_iff named⟩
  · obtain ⟨more, grown⟩ := foldl_chainStep_grows (splitAll '/' scopeId) ([globalScope], "")
    rw [scopeChain_eq named, ← grown]
    rfl
  · intro charge metric nowMs db
    exact chargeChain_charged scopeId metric
  · rintro db call rfl
    exact forM_eq_ok

theorem scopeChain_covers_iff_agent :
    "team/agent:a" ≠ "" ∧ ∀ n, ancestorPath "team/agent:a" n ∈ scopeChain "team/agent:a" := by
  obtain ⟨_, _, _, _, covers⟩ := scopeChain_covers_iff (by decide : "team/agent:a" ≠ "")
  exact ⟨by decide, fun n => (covers.mpr (by simp [StartsSeparated]) n).1⟩

theorem scopeChain_misses_separated : "/team" ∉ scopeChain "/team" := by
  decide +kernel

theorem foldl_usageEvents (one : ∀ db scope, (step db scope).usageEvents = db.usageEvents) (scopes : List String)
    (db : BudgetDb) : (scopes.foldl step db).usageEvents = db.usageEvents := by
  induction scopes generalizing db with
  | nil => rfl
  | cons scope rest ih => rw [foldl_cons, ih, one]

def eventAt (db : BudgetDb) (key : String) : Option UsageEvent :=
  Table.find UsageEvent.idempotencyKey db.usageEvents key

/-- The chain of `scopeId` is charged once, and the events are new and written. -/
structure Applied (charge : Charge) (scopeId metric : String) (nowMs : Int) (events : List UsageEvent)
    (db db' : BudgetDb) : Prop where
  charged : Charged charge metric nowMs (scopeChain scopeId) db db'
  usageEvents : db'.usageEvents = db.usageEvents ++ events
  fresh : ∀ event ∈ events, db.eventAt event.idempotencyKey = none

theorem applied_chargeChain (scopeId metric : String) :
    Applied charge scopeId metric nowMs [] db (chargeChain charge scopeId metric nowMs db) := by
  refine ⟨chargeChain_charged scopeId metric, ?_, by simp⟩
  rw [append_nil]
  apply foldl_usageEvents
  intro db scope
  rfl

variable {event : UsageEvent}

theorem Applied.after_event {scopeId : String} (free : db.eventAt event.idempotencyKey = none)
    (applied : Applied charge scopeId metric nowMs [] { db with usageEvents := db.usageEvents ++ [event] } db') :
    Applied charge scopeId metric nowMs [event] db db' := by
  refine ⟨⟨⟨applied.charged.rules.limits, applied.charged.rules.workUnitDefaults,
    applied.charged.rules.pools, applied.charged.rules.transfers⟩, applied.charged.usageAt⟩, ?_, ?_⟩
  · rw [applied.usageEvents, append_nil]
  · intro other member
    rw [mem_singleton] at member
    rw [member]
    exact free

theorem insertEvent_eq_ok {conflict : String} {written : Option BudgetDb}
    (run : db.insertEvent event conflict = .ok written) :
    (db.eventAt event.idempotencyKey = none ∧ written = some { db with usageEvents := db.usageEvents ++ [event] }) ∨
    ((db.eventAt event.idempotencyKey).isSome ∧ written = none) := by
  unfold insertEvent at run
  split at run
  · rename_i free
    cases run
    exact .inl ⟨free, rfl⟩
  · rename_i stored found
    obtain ⟨_, same⟩ := ite_error_eq_ok.mp run
    cases same
    refine .inr ⟨?_, rfl⟩
    unfold eventAt
    rw [found]
    rfl

def Reservation.events (call : Reservation) : List UsageEvent :=
  call.idempotencyKey.toList.map fun key =>
    ⟨key, call.scopeId, call.metric, call.amount, call.nowMs⟩

theorem reserve_cases (done : db.budgetCheckAndReserveChainInner call = .ok db') :
    (db' = db ∧ ∃ key, call.idempotencyKey = some key ∧ (db.eventAt key).isSome) ∨
    ((∀ scope ∈ scopeChain call.scopeId, db.checkScope call scope = .ok ()) ∧
      Applied (reserving call.amount) call.scopeId call.metric call.nowMs call.events db db') := by
  unfold budgetCheckAndReserveChainInner at done
  unfold Reservation.events
  cases keyed : call.idempotencyKey with
  | none =>
    rw [keyed] at done
    obtain ⟨checked, charged⟩ := check_eq_ok.mp done
    cases charged
    exact .inr ⟨forM_eq_ok.mp checked, applied_chargeChain ..⟩
  | some key =>
    rw [keyed] at done
    obtain ⟨written, inserted, rest⟩ := bind_eq_ok.mp done
    rcases insertEvent_eq_ok inserted with ⟨free, rfl⟩ | ⟨found, rfl⟩
    · obtain ⟨checked, charged⟩ := check_eq_ok.mp rest
      cases charged
      -- The checks read limits and usage, which the event leaves as they are.
      exact .inr ⟨forM_eq_ok.mp checked, (applied_chargeChain ..).after_event free⟩
    · cases rest
      exact .inl ⟨rfl, key, rfl, found⟩

variable {call : Adjustment}

theorem adjust_applied (done : db.budgetAdjustChainForSite call = .ok db') :
    Applied (adjusting call.delta) call.scopeId call.metric call.nowMs [] db db' := by
  obtain ⟨_, charged⟩ := check_eq_ok.mp done
  cases charged
  exact applied_chargeChain ..

theorem record_cases {key : String} {applied : Bool}
    (done : db.budgetRecordIdempotentForSite call key = .ok (applied, db')) :
    (key = "" ∧ Applied (adjusting call.delta) call.scopeId call.metric call.nowMs [] db db') ∨
    (db' = db ∧ key ≠ "" ∧ (db.eventAt key).isSome) ∨
    (key ≠ "" ∧ Applied (recording call.delta) call.scopeId call.metric call.nowMs
      [⟨key, call.scopeId, call.metric, call.delta, call.nowMs⟩] db db') := by
  unfold budgetRecordIdempotentForSite at done
  by_cases unkeyed : key = ""
  · rw [if_pos unkeyed] at done
    obtain ⟨_, adjusted, rest⟩ := bind_eq_ok.mp done
    cases rest
    exact .inl ⟨unkeyed, adjust_applied adjusted⟩
  · rw [if_neg unkeyed] at done
    obtain ⟨written, inserted, rest⟩ := bind_eq_ok.mp done
    rcases insertEvent_eq_ok inserted with ⟨free, rfl⟩ | ⟨found, rfl⟩
    · obtain ⟨_, charged⟩ := check_eq_ok.mp rest
      cases charged
      refine .inr (.inr ⟨unkeyed, Applied.after_event free ⟨?_, ?_, by simp⟩⟩)
      · exact foldl_charged (chargeUsage_charged) (scopeChain_nodup _) _
      · rw [append_nil]
        apply foldl_usageEvents
        intro db scope
        rfl
    · cases rest
      exact .inr (.inl ⟨rfl, unkeyed, found⟩)

end SekaiChisei.Budget.BudgetDb
