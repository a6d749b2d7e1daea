import SekaiChisei.Budget.Charges
import SekaiChisei.Budget.Rules

/-!
What a limit is compared with of the charges before it. A charge is kept under the period type that its scope had then,
and read under that of the limit.
-/

namespace SekaiChisei.Budget.BudgetDb
open Lib List SqlNumber

/-- A charge, and the tables at that time. -/
structure Made where
  db : BudgetDb
  (scopeId metric : String)
  amount : Int64
  nowMs : Int

/-- The charge of an operation, none where it is refused or its key was seen before. -/
def made (db : BudgetDb) (op : Operation) : Option Made :=
  match op, db.perform op with
  | .reserve call, .ok _ =>
    if call.idempotencyKey.all (db.eventAt · = none) then
      some ⟨db, call.scopeId, call.metric, call.amount, call.nowMs⟩
    else none
  | .adjust call, .ok _ => some ⟨db, call.scopeId, call.metric, call.delta, call.nowMs⟩
  | .record call key, .ok _ =>
    if key = "" ∨ db.eventAt key = none then some ⟨db, call.scopeId, call.metric, call.delta, call.nowMs⟩ else none
  | _, _ => none

def charges (db : BudgetDb) : List Operation → List Made
  | [] => []
  | op :: rest => (db.made op).toList ++ charges (db.next op) rest

/-- The period that the charge is kept under at `scope`. -/
def Made.period (scope : String) (charge : Made) : Int := charge.db.chargePeriod charge.metric charge.nowMs scope

/-- A charge on `scope` or below it. -/
abbrev Made.On (scope metric : String) (charge : Made) : Prop :=
  scope ∈ scopeChain charge.scopeId ∧ metric = charge.metric

def Made.share (scope metric : String) (counts : Made → Prop) [DecidablePred counts] (charge : Made) : Int :=
  if charge.On scope metric ∧ counts charge then charge.amount.toInt else 0

/-- The sum of those charges on `scope` and below it that count. -/
def charged (scope metric : String) (counts : Made → Prop) [DecidablePred counts] (log : List Made) : Int :=
  (log.map (Made.share scope metric counts)).sum

def keptAt (scope metric : String) (period : Int) : List Made → Int := charged scope metric (period = ·.period scope)

variable {db db' : BudgetDb} {scope metric : String} {period : Int} {used : Int64} {nowMs : Int}

theorem made_cases (db : BudgetDb) (op : Operation) : (db.made op = none ∧ (db.next op).usage = db.usage) ∨
    ∃ charge, db.made op = some charge ∧ charge.db = db ∧
      ∃ rule ∈ [reserving charge.amount, adjusting charge.amount, recording charge.amount],
        Charged rule charge.metric charge.nowMs (scopeChain charge.scopeId) db (db.next op) := by
  unfold made
  cases done : db.perform op with
  | error message =>
    rw [next_of_error done]
    exact .inl ⟨by cases op <;> rfl, rfl⟩
  | ok db' =>
    rw [next_of_ok done]
    cases op with
    | reserve call =>
      rcases reserve_cases done with ⟨rfl, key, keyed, found⟩ | ⟨_, applied⟩
      · simp [keyed, Option.isSome_iff_ne_none.mp found]
      · have fresh : call.idempotencyKey.all (db.eventAt · = none) = true := by
          have := applied.fresh
          cases keyed : call.idempotencyKey <;> simp_all [Reservation.events]
        exact .inr ⟨_, if_pos fresh, rfl, _, mem_cons_self, applied.charged⟩
    | adjust call => exact .inr ⟨_, rfl, rfl, adjusting call.delta, by simp, (adjust_applied done).charged⟩
    | record call key =>
      obtain ⟨⟨counted, after⟩, recorded, rfl⟩ := map_eq_ok.mp done
      rcases record_cases recorded with ⟨unkeyed, applied⟩ | ⟨rfl, keyed, found⟩ | ⟨_, applied⟩
      · exact .inr ⟨_, if_pos (.inl unkeyed), rfl, adjusting call.delta, by simp, applied.charged⟩
      · simp [keyed, Option.isSome_iff_ne_none.mp found]
      · have fresh := applied.fresh _ (mem_singleton_self _)
        exact .inr ⟨_, if_pos (.inr fresh), rfl, recording call.delta, by simp, applied.charged⟩
    | _ => exact .inl ⟨rfl, (perform_quiet rfl done).1⟩

theorem apply_of_fits {rule : Charge} {amount used : Int64}
    (known : rule ∈ [reserving amount, adjusting amount, recording amount])
    (read : db.used scope metric period = .ok used)
    (nonneg : 0 ≤ used.toInt) (positive : 0 ≤ amount.toInt) (fits : used.toInt + amount.toInt < 2 ^ 63) :
    rule.apply (db.usageAt scope metric period) = .integer (used + amount) := by
  have sum := add_integer_of_fits (a := used) (b := amount) (by omega) fits
  have value := toInt_add_of_fits (a := used) (b := amount) (by omega) fits
  have floored := atLeastZero_integer (n := used + amount) (by omega)
  have alone := atLeastZero_integer positive
  simp only [mem_cons, not_mem_nil, or_false] at known
  rcases usageAt_of_used read with found | ⟨absent, rfl⟩
  · rw [found]
    rcases known with rfl | rfl | rfl <;> simp [Charge.apply, reserving, adjusting, recording, sum, floored, stored]
  · rw [absent]
    rcases known with rfl | rfl | rfl <;> simp [Charge.apply, reserving, adjusting, recording, alone]

theorem next_used {op : Operation} (read : db.used scope metric period = .ok used) (nonneg : 0 ≤ used.toInt)
    (charging : ∀ charge ∈ db.made op, charge.On scope metric → 0 ≤ charge.amount.toInt)
    (fits : used.toInt + keptAt scope metric period (db.made op).toList < 2 ^ 63) :
    ∃ after, (db.next op).used scope metric period = .ok after ∧
      after.toInt = used.toInt + keptAt scope metric period (db.made op).toList := by
  rcases made_cases db op with ⟨none, same⟩ | ⟨charge, isMade, rfl, rule, known, done⟩
  · refine ⟨used, ?_, by simp [none, keptAt, charged]⟩
    rwa [BudgetDb.used, usageAt, same]
  · have written := done.usageAt scope metric period
    rw [isMade] at fits ⊢
    split at written
    · rename_i here
      have counted : charge.On scope metric ∧ period = charge.period scope := and_assoc.mpr here
      have positive := charging charge isMade counted.1
      have share : keptAt scope metric period [charge] = charge.amount.toInt := sum_singleton.trans (if_pos counted)
      rw [Option.toList_some, share] at fits ⊢
      rw [apply_of_fits known read nonneg positive fits] at written
      exact ⟨_, by rw [BudgetDb.used, written], toInt_add_of_fits (by omega) fits⟩
    · rename_i elsewhere
      have share : keptAt scope metric period [charge] = 0 :=
        sum_singleton.trans (if_neg (elsewhere ∘ and_assoc.mp))
      rw [Option.toList_some, share, Int.add_zero]
      exact ⟨used, by rwa [BudgetDb.used, written], rfl⟩

section
variable {log : List Made} {p q : Made → Prop} [DecidablePred p] [DecidablePred q]
  (charging : ∀ charge ∈ log, charge.On scope metric → 0 ≤ charge.amount.toInt)
include charging

theorem charged_le (weaker : ∀ charge ∈ log, charge.On scope metric → p charge → q charge) :
    0 ≤ charged scope metric p log ∧ charged scope metric p log ≤ charged scope metric q log ∧
      (charged scope metric p log = charged scope metric q log ↔
        ∀ charge ∈ log, charge.On scope metric → q charge → 0 < charge.amount.toInt → p charge) := by
  induction log with
  | nil => simp [charged]
  | cons charge rest ih =>
    obtain ⟨first, later⟩ := forall_mem_cons.mp charging
    obtain ⟨imp, others⟩ := forall_mem_cons.mp weaker
    obtain ⟨low, below, same⟩ := ih later others
    have sums (r : Made → Prop) [DecidablePred r] : charged scope metric r (charge :: rest) =
        charge.share scope metric r + charged scope metric r rest := sum_cons
    have one : 0 ≤ charge.share scope metric p ∧ charge.share scope metric p ≤ charge.share scope metric q ∧
        (charge.share scope metric p = charge.share scope metric q ↔
          (charge.On scope metric → q charge → 0 < charge.amount.toInt → p charge)) := by
      unfold Made.share
      grind
    obtain ⟨lowOne, belowOne, sameOne⟩ := one
    rw [forall_mem_cons, ← same, ← sameOne, sums, sums]
    omega

end

theorem run_used {ops : List Operation} (read : db.used scope metric period = .ok used)
    (nonneg : 0 ≤ used.toInt) (charging : ∀ charge ∈ charges db ops, charge.On scope metric → 0 ≤ charge.amount.toInt)
    (fits : used.toInt + keptAt scope metric period (charges db ops) < 2 ^ 63) :
    ∃ after, (ops.foldl next db).used scope metric period = .ok after ∧
      after.toInt = used.toInt + keptAt scope metric period (charges db ops) := by
  induction ops generalizing db used with
  | nil => exact ⟨used, read, by simp [charges, keptAt, charged]⟩
  | cons op rest ih =>
    obtain ⟨first, later⟩ := forall_mem_append.mp charging
    have parts : keptAt scope metric period (charges db (op :: rest)) =
        keptAt scope metric period (db.made op).toList +
          keptAt scope metric period (charges (db.next op) rest) := by
      simp [charges, keptAt, charged]
    have low : 0 ≤ keptAt scope metric period (db.made op).toList := (charged_le first fun _ _ _ holds => holds).1
    have lowRest : 0 ≤ keptAt scope metric period (charges (db.next op) rest) :=
      (charged_le later fun _ _ _ holds => holds).1
    obtain ⟨mid, readMid, sum⟩ := next_used read nonneg (by simpa using first) (by omega)
    obtain ⟨after, readAfter, sumAfter⟩ := ih readMid (by omega) later (by omega)
    exact ⟨after, readAfter, by omega⟩

theorem periodStartMs_le (periodType : String) (dated : -96465293 * msPerDay ≤ nowMs) :
    periodStartMs periodType nowMs ≤ nowMs := by
  have day : dayOf nowMs * msPerDay ≤ nowMs := by
    simp only [dayOf, msPerDay] at dated ⊢
    omega
  have month : 0 ≤ dayOfMonth (dayOf nowMs) := by
    simp only [dayOfMonth]
    omega
  simp only [periodStartMs, daysFromMonday, msPerDay] at day ⊢
  split
  · omega
  · split <;> omega

/-- `checkScope` compares `used` with the limit, whatever is to be reserved. -/
def Compares (db : BudgetDb) (scope metric : String) (nowMs : Int) (maxAmount used : Int64) : Prop :=
  ∀ call : Reservation, call.metric = metric → call.nowMs = nowMs → call.requireHomePin = false →
    (db.checkScope call scope = .ok () ↔ used + call.amount ≤ maxAmount)

theorem eq_of_le_iff {used other maxAmount : Int64} (bounded : maxAmount < Int64.maxValue)
    (same : ∀ amount, used + amount ≤ maxAmount ↔ other + amount ≤ maxAmount) : used = other := by
  have top : Int64.maxValue.toInt = 2 ^ 63 - 1 := by decide
  have below := Int64.lt_iff_toInt_lt.mp bounded
  have low := maxAmount.le_toInt
  have one : (1 : Int64).toInt = 1 := by decide
  have exact : used + (maxAmount - used) = maxAmount := by grind
  have least := (same (maxAmount - used)).mp (by rw [exact]; exact Int64.le_refl _)
  have sum : (maxAmount + 1).toInt = maxAmount.toInt + 1 := by
    rw [toInt_add_of_fits (by omega) (by omega), one]
  have more := (same (maxAmount - used + 1)).not.mp (by
    rw [← Int64.add_assoc, exact, Int64.le_iff_toInt_le]
    omega)
  have otherLow := (other + (maxAmount - used)).le_toInt
  rw [Int64.le_iff_toInt_le] at least
  rw [← Int64.add_assoc, Int64.le_iff_toInt_le, toInt_add_of_fits (by omega) (by omega), one] at more
  have meets : other + (maxAmount - used) = maxAmount := Int64.toInt_inj.mp (by omega)
  grind

theorem compares_iff {limit : EffectiveLimit} (limited : db.effectiveLimit scope metric = some limit)
    (bounded : limit.maxAmount < Int64.maxValue) : db.Compares scope metric nowMs limit.maxAmount used ↔
      db.used scope metric (periodStartMs limit.periodType nowMs) = .ok used := by
  have checks : ∀ call : Reservation, call.metric = metric → call.nowMs = nowMs → call.requireHomePin = false →
      (db.checkScope call scope = .ok () ↔
        ∃ read, db.used scope metric (periodStartMs limit.periodType nowMs) = .ok read ∧
        read + call.amount ≤ limit.maxAmount) := by
    rintro call rfl rfl unpinned
    simp only [checkScope, limited, unpinned, Bool.false_eq_true, if_false]
    rw [check_eq_ok, bind_eq_ok]
    simp only [ite_error_eq_ok, Int64.not_lt, and_true, true_and]
  constructor
  · intro compares
    have all : ∀ amount, used + amount ≤ limit.maxAmount ↔
        ∃ read, db.used scope metric (periodStartMs limit.periodType nowMs) = .ok read ∧
          read + amount ≤ limit.maxAmount := fun amount =>
      (compares ⟨scope, metric, amount, nowMs, none, false, ""⟩ rfl rfl rfl).symm.trans (checks _ rfl rfl rfl)
    obtain ⟨read, found, _⟩ := (all (limit.maxAmount - used)).mp (by
      rw [show used + (limit.maxAmount - used) = limit.maxAmount by grind]
      exact Int64.le_refl _)
    have same : used = read := eq_of_le_iff bounded fun amount => by simp [all amount, found]
    rw [same, found]
  · intro found call sameMetric sameTime unpinned
    rw [checks call sameMetric sameTime unpinned]
    simp [found]

/-- A limit is compared with all that was charged on its scope since its period began exactly when each of these charges
was made while the period of the scope began at the same time, and their sum is an `i64`. -/
theorem lateLimit_usage_iff {ops : List Operation} {scope metric : String} {limit : EffectiveLimit}
    (limited : (ops.foldl next empty).effectiveLimit scope metric = some limit)
    (bounded : limit.maxAmount < Int64.maxValue)
    (charging : ∀ charge ∈ charges empty ops, charge.On scope metric → 0 ≤ charge.amount.toInt)
    (dated : ∀ charge ∈ charges empty ops, charge.On scope metric → -96465293 * msPerDay ≤ charge.nowMs) (nowMs : Int) :
    (∃ used, (ops.foldl next empty).Compares scope metric nowMs limit.maxAmount used ∧
      used.toInt = charged scope metric (periodStartMs limit.periodType nowMs ≤ ·.nowMs) (charges empty ops)) ↔
    charged scope metric (periodStartMs limit.periodType nowMs ≤ ·.nowMs) (charges empty ops) < 2 ^ 63 ∧
      ∀ charge ∈ charges empty ops, charge.On scope metric → periodStartMs limit.periodType nowMs ≤ charge.nowMs →
        0 < charge.amount.toInt → periodStartMs limit.periodType nowMs = charge.period scope := by
  simp only [compares_iff limited bounded]
  generalize periodStartMs limit.periodType nowMs = start
  have began : ∀ charge ∈ charges empty ops, charge.On scope metric → start = charge.period scope →
      start ≤ charge.nowMs := by
    rintro charge member on rfl
    exact periodStartMs_le _ (dated charge member on)
  obtain ⟨_, below, same⟩ := charged_le charging began
  have run := @run_used empty scope metric start 0 ops rfl (Int.le_refl 0) charging
  rw [Int64.toInt_zero, keptAt] at run
  rw [← same]
  constructor
  · rintro ⟨used, read, sum⟩
    have small := used.toInt_lt
    obtain ⟨after, readAfter, sumAfter⟩ := run (by omega)
    cases read.symm.trans readAfter
    exact ⟨by omega, by omega⟩
  · rintro ⟨small, same⟩
    obtain ⟨after, readAfter, sumAfter⟩ := run (by omega)
    exact ⟨after, readAfter, by omega⟩

/-- A charge on 1970-01-02, then a limit. -/
def late (periodType : String) : List Operation :=
  [.adjust ⟨"global", "tokens", 6, msPerDay, false, ""⟩, .setLimit "global" "tokens" 10 periodType "" ""]

theorem lateLimit_usage_iff_daily :
    ∃ used, ((late "daily").foldl next empty).Compares "global" "tokens" msPerDay 10 used ∧
    used.toInt = charged "global" "tokens" (periodStartMs "daily" msPerDay ≤ ·.nowMs) (charges empty (late "daily")) :=
  (@lateLimit_usage_iff _ _ _ ⟨10, "daily", "", false⟩ rfl (by decide) (by decide +kernel) (by decide +kernel)
    _).mpr (by decide +kernel)

/-- Six were charged of ten, and five more are let through. -/
theorem lateLimit_misses_charge : ((late "monthly").foldl next empty).checkScope
      ⟨"global", "tokens", 5, msPerDay, none, false, ""⟩ "global" = .ok () ∧
    charged "global" "tokens" (periodStartMs "monthly" msPerDay ≤ ·.nowMs) (charges empty (late "monthly")) = 6 :=
  ⟨by rfl, by decide +kernel⟩

end SekaiChisei.Budget.BudgetDb
