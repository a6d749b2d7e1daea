import SekaiChisei.Budget.Charges

/-!
Reservations against the limits of a chain. A level is checked in `i64`, where `used + amount` can wrap
to a negative number; SQLite adds the same two numbers without wrapping.
-/

namespace SekaiChisei.Budget.BudgetDb
open Lib Option SqlNumber

variable {db db' : BudgetDb} {call : Reservation} {scope : String}

/-- No usage is recorded above the limit of its scope, in any period of that limit. -/
def WithinLimits (db : BudgetDb) : Prop :=
  ∀ scope metric limit nowMs cell, db.effectiveLimit scope metric = some limit →
    db.usageAt scope metric (periodStartMs limit.periodType nowMs) = some cell →
    cell.value ≤ limit.maxAmount.toInt

def Accepts (db : BudgetDb) (call : Reservation) : Prop :=
  (∀ scope ∈ scopeChain call.scopeId, db.checkScope call scope = .ok ()) ∧
    ∀ key ∈ call.idempotencyKey, db.eventAt key = none

/-- The call is accepted although the sum at one of its limited levels is no `i64`. -/
def Overflows (db : BudgetDb) (call : Reservation) : Prop :=
  db.Accepts call ∧ ∃ scope ∈ scopeChain call.scopeId, ∃ limit used,
    db.effectiveLimit scope call.metric = some limit ∧
    db.used scope call.metric (periodStartMs limit.periodType call.nowMs) = .ok used ∧
    2 ^ 63 ≤ used.toInt + call.amount.toInt

variable {limit : EffectiveLimit}

theorem checkScope_ok (limited : db.effectiveLimit scope call.metric = some limit)
    (checked : db.checkScope call scope = .ok ()) :
    ∃ used, db.used scope call.metric (periodStartMs limit.periodType call.nowMs) = .ok used ∧
      used + call.amount ≤ limit.maxAmount := by
  unfold checkScope at checked
  rw [limited] at checked
  obtain ⟨_, rest⟩ := check_eq_ok.mp checked
  obtain ⟨used, read, fits⟩ := bind_eq_ok.mp rest
  obtain ⟨within, _⟩ := ite_error_eq_ok.mp fits
  exact ⟨used, read, Int64.not_lt.mp within⟩

variable {metric : String}

theorem chargePeriod_of_limited (limited : db.effectiveLimit scope metric = some limit) (nowMs : Int) :
    db.chargePeriod metric nowMs scope = periodStartMs limit.periodType nowMs := by
  unfold chargePeriod chargePeriodType
  rw [limited]

theorem reserving_value {period : Int} {used amount : Int64} (read : db.used scope metric period = .ok used) :
    ((reserving amount).apply (db.usageAt scope metric period)).value =
      ((integer used).add (.integer amount)).value := by
  rcases usageAt_of_used read with found | ⟨absent, rfl⟩
  · rw [found]
    exact value_stored _
  · rw [absent]
    have low := amount.le_toInt
    have high := amount.toInt_lt
    rw [add_integer_of_fits (by rw [Int64.toInt_zero]; omega)
      (by rw [Int64.toInt_zero]; omega), Int64.zero_add]
    rfl

theorem charged_level {nowMs : Int} {cell : SqlNumber}
    (charged : Charged (reserving call.amount) call.metric call.nowMs (scopeChain call.scopeId) db db')
    (checked : ∀ scope ∈ scopeChain call.scopeId, db.checkScope call scope = .ok ())
    (limited : db.effectiveLimit scope metric = some limit)
    (after : db'.usageAt scope metric (periodStartMs limit.periodType nowMs) = some cell) :
    db.usageAt scope metric (periodStartMs limit.periodType nowMs) = some cell ∨
    ∃ used, scope ∈ scopeChain call.scopeId ∧ metric = call.metric ∧
      db.used scope call.metric (periodStartMs limit.periodType call.nowMs) = .ok used ∧
      used + call.amount ≤ limit.maxAmount ∧ cell.value = ((integer used).add (.integer call.amount)).value := by
  rw [charged.usageAt] at after
  split at after
  · rename_i isCharged
    obtain ⟨member, rfl, period⟩ := isCharged
    rw [chargePeriod_of_limited limited] at period
    obtain ⟨used, read, within⟩ := checkScope_ok limited (checked scope member)
    rw [period] at after
    refine .inr ⟨used, member, rfl, read, within, ?_⟩
    rw [← some.inj after]
    exact reserving_value read
  · exact .inl after

/-- An accepted reservation keeps every level within its limit exactly when no sum left `i64`. -/
theorem reserved_within_iff (within : db.WithinLimits) (nonneg : 0 ≤ call.amount)
    (checked : ∀ scope ∈ scopeChain call.scopeId, db.checkScope call scope = .ok ())
    (charged : Charged (reserving call.amount) call.metric call.nowMs (scopeChain call.scopeId) db db') :
    db'.WithinLimits ↔ ∀ scope ∈ scopeChain call.scopeId, ∀ limit used,
      db.effectiveLimit scope call.metric = some limit →
      db.used scope call.metric (periodStartMs limit.periodType call.nowMs) = .ok used →
      used.toInt + call.amount.toInt < 2 ^ 63 := by
  constructor
  · intro after scope member limit used limited read
    by_contra past
    have limited' : db'.effectiveLimit scope call.metric = some limit := by
      rw [charged.rules.effectiveLimit]
      exact limited
    have written : db'.usageAt scope call.metric (periodStartMs limit.periodType call.nowMs) =
        some ((reserving call.amount).apply
          (db.usageAt scope call.metric (periodStartMs limit.periodType call.nowMs))) := by
      rw [charged.usageAt, if_pos ⟨member, rfl, (chargePeriod_of_limited limited _).symm⟩]
    have bound := after scope call.metric limit call.nowMs _ limited' written
    rw [reserving_value read] at bound
    have exceeded := add_of_overflow (show 2 ^ 63 ≤ used.toInt + call.amount.toInt by omega)
    have small := limit.maxAmount.toInt_lt
    omega
  · intro fits scope metric limit nowMs cell limited' written
    have limited : db.effectiveLimit scope metric = some limit := by
      rw [← charged.rules.effectiveLimit]
      exact limited'
    rcases charged_level charged checked limited written with kept | ⟨used, member, rfl, read, admitted, value⟩
    · exact within scope metric limit nowMs cell limited kept
    · have high := fits scope member limit used limited read
      have low : -2 ^ 63 ≤ used.toInt + call.amount.toInt := by
        have nonneg' := Int64.le_iff_toInt_le.mp nonneg
        rw [Int64.toInt_zero] at nonneg'
        have := used.le_toInt
        omega
      rw [value, add_integer_of_fits low high]
      exact Int64.le_iff_toInt_le.mp admitted

theorem reserveChain_of_checked (checked : ∀ scope ∈ scopeChain call.scopeId, db.checkScope call scope = .ok ()) :
    db.reserveChain call = .ok (chargeChain (reserving call.amount) call.scopeId call.metric call.nowMs db) := by
  unfold reserveChain budgetCheckChainForSite
  rw [forM_eq_ok.mpr checked]
  rfl

theorem reserve_of_accepts (accepted : db.Accepts call) :
    ∃ db', db.budgetCheckAndReserveChainInner call = .ok db' := by
  obtain ⟨checked, fresh⟩ := accepted
  unfold budgetCheckAndReserveChainInner
  cases keyed : call.idempotencyKey with
  | none => exact ⟨_, reserveChain_of_checked checked⟩
  | some key =>
    have free : Table.find UsageEvent.idempotencyKey db.usageEvents key = none :=
      fresh key keyed
    unfold insertEvent
    simp only [free]
    exact ⟨_, reserveChain_of_checked checked⟩

theorem next_reserve_cases : (db.next (.reserve call) = db ∧ ¬ db.Accepts call) ∨
    (db.Accepts call ∧ Applied (reserving call.amount) call.scopeId call.metric call.nowMs call.events db
      (db.next (.reserve call))) := by
  cases done : db.perform (.reserve call) with
  | error message =>
    refine .inl ⟨next_of_error done, ?_⟩
    intro accepted
    obtain ⟨db', success⟩ := reserve_of_accepts accepted
    have both := success.symm.trans done
    cases both
  | ok db' =>
    rw [next_of_ok done]
    rcases reserve_cases done with ⟨rfl, key, keyed, found⟩ | ⟨checked, applied⟩
    · refine .inl ⟨rfl, ?_⟩
      intro accepted
      rw [accepted.2 key keyed] at found
      cases found
    · refine .inr ⟨⟨checked, ?_⟩, applied⟩
      intro key keyed
      apply applied.fresh ⟨key, call.scopeId, call.metric, call.amount, call.nowMs⟩
      unfold Reservation.events
      rw [mem_def.mp keyed]
      exact List.mem_singleton_self _

theorem next_within_iff (within : db.WithinLimits) (nonneg : 0 ≤ call.amount) :
    (db.next (.reserve call)).WithinLimits ↔ ¬ db.Overflows call := by
  rcases next_reserve_cases with ⟨same, refused⟩ | ⟨accepted, applied⟩
  · rw [same]
    exact ⟨fun _ overflow => refused overflow.1, fun _ => within⟩
  · rw [reserved_within_iff within nonneg accepted.1 applied.charged]
    constructor
    · rintro fits ⟨_, scope, member, limit, used, limited, read, past⟩
      have := fits scope member limit used limited read
      omega
    · intro safe scope member limit used limited read
      by_contra past
      exact safe ⟨accepted, scope, member, limit, used, limited, read, by omega⟩

def reserved (db : BudgetDb) (calls : List Reservation) (n : Nat) : BudgetDb :=
  Trace.after (fun db call => db.next (.reserve call)) db calls n

variable {key : String}

theorem next_eventAt (found : (db.eventAt key).isSome) : ((db.next (.reserve call)).eventAt key).isSome := by
  rcases next_reserve_cases with ⟨same, _⟩ | ⟨_, applied⟩
  · rw [same]
    exact found
  · obtain ⟨event, held⟩ := isSome_iff_exists.mp found
    unfold eventAt at held ⊢
    rw [applied.usageEvents, Table.find_append_of_some held]
    rfl

theorem next_of_eventAt (keyed : call.idempotencyKey = some key)
    (found : (db.eventAt key).isSome) : db.next (.reserve call) = db := by
  rcases next_reserve_cases with ⟨same, _⟩ | ⟨accepted, _⟩
  · exact same
  · rw [accepted.2 key keyed] at found
    cases found

theorem eventAt_of_next (keyed : call.idempotencyKey = some key) :
    db.next (.reserve call) = db ∨ ((db.next (.reserve call)).eventAt key).isSome := by
  rcases next_reserve_cases with ⟨same, _⟩ | ⟨accepted, applied⟩
  · exact .inl same
  · right
    unfold eventAt
    rw [applied.usageEvents, Reservation.events, keyed]
    have free := accepted.2 key keyed
    have last := Table.find_append_self (UsageEvent.mk key call.scopeId call.metric call.amount call.nowMs) free
    exact isSome_iff_exists.mpr ⟨_, last⟩

theorem reserved_once {calls : List Reservation} {i j : Nat} {first second : Reservation}
    (ordered : i < j) (at_i : calls[i]? = some first) (at_j : calls[j]? = some second)
    (keyed_i : first.idempotencyKey = some key) (keyed_j : second.idempotencyKey = some key) :
    db.reserved calls (i + 1) = db.reserved calls i ∨ db.reserved calls (j + 1) = db.reserved calls j := by
  unfold reserved
  rcases eventAt_of_next keyed_i with same | found
  · left
    rw [Trace.after_succ at_i]
    exact same
  · right
    have written : ((db.reserved calls (i + 1)).eventAt key).isSome := by
      unfold reserved
      rw [Trace.after_succ at_i]
      exact found
    have held : ((db.reserved calls j).eventAt key).isSome :=
      Trace.persists (P := fun db : BudgetDb => (db.eventAt key).isSome)
        (fun _ call found => next_eventAt found) ordered written
    rw [Trace.after_succ at_j]
    exact next_of_eventAt keyed_j held

theorem withinLimits_of_unused (unused : db.usage = []) : db.WithinLimits := by
  intro scope metric limit nowMs cell _ written
  unfold usageAt at written
  rw [unused] at written
  cases written

/-- The ceiling of every level, rollback of a refused reservation, and one charge for a key. Usage stays
within every limit in a run exactly when no accepted sum leaves `i64`. -/
theorem reservations_within_limits {calls : List Reservation} (start : db.WithinLimits)
    (nonneg : ∀ call ∈ calls, 0 ≤ call.amount) : ((∀ n, (db.reserved calls n).WithinLimits) ↔
      ∀ n call, calls[n]? = some call → ¬ (db.reserved calls n).Overflows call) ∧
    (∀ (state : BudgetDb) call message, state.budgetCheckAndReserveChainInner call = .error message →
      state.next (.reserve call) = state) ∧
    (∀ key i j first second, i < j → calls[i]? = some first → calls[j]? = some second →
      first.idempotencyKey = some key → second.idempotencyKey = some key →
      db.reserved calls (i + 1) = db.reserved calls i ∨ db.reserved calls (j + 1) = db.reserved calls j) := by
  refine ⟨?_, ?_, ?_⟩
  · apply Trace.always_iff start
    intro state call member within
    exact next_within_iff within (nonneg call member)
  · intro state call message refused
    exact next_of_error refused
  · intro key i j first second ordered at_i at_j keyed_i keyed_j
    exact reserved_once ordered at_i at_j keyed_i keyed_j

def reserveGlobal (amount : Int64) (key : Option String) : Reservation :=
  ⟨"global", "tokens", amount, 0, key, false, ""⟩

def retried : List Reservation := [reserveGlobal 6 (some "a"), reserveGlobal 6 (some "a")]

theorem reservations_within_limits_retried : tenTokens.WithinLimits ∧ (∀ call ∈ retried, 0 ≤ call.amount) ∧
    (tenTokens.reserved retried 1 = tenTokens.reserved retried 0 ∨
      tenTokens.reserved retried 2 = tenTokens.reserved retried 1) := by
  have start : tenTokens.WithinLimits := withinLimits_of_unused rfl
  have nonneg : ∀ call ∈ retried, 0 ≤ call.amount := by decide +kernel
  obtain ⟨_, _, once⟩ := reservations_within_limits start nonneg
  exact ⟨start, nonneg, once "a" 0 1 _ _ (by omega) rfl rfl rfl rfl⟩

def oneThenLargest : List Reservation := [reserveGlobal 1 none, reserveGlobal Int64.maxValue none]

/-- One token, then the largest amount: the sum wraps below the limit, and 2^63 tokens are recorded. -/
theorem largestReservation_exceeds : tenTokens.WithinLimits ∧ (∀ call ∈ oneThenLargest, 0 ≤ call.amount) ∧
    (tenTokens.reserved oneThenLargest 2).usageAt "global" "tokens" 0 = some (.real (2 ^ 63)) ∧
    ¬ (tenTokens.reserved oneThenLargest 2).WithinLimits := by
  have recorded : (tenTokens.reserved oneThenLargest 2).usageAt "global" "tokens" 0 =
      some (.real (2 ^ 63)) := by decide +kernel
  refine ⟨withinLimits_of_unused rfl, by decide +kernel, recorded, ?_⟩
  intro within
  have bound := within "global" "tokens" ⟨10, "daily", "", false⟩ 0 _ (by decide +kernel) recorded
  exact absurd bound (by decide +kernel)

end SekaiChisei.Budget.BudgetDb
