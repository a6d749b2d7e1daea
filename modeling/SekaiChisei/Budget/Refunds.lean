import SekaiChisei.Budget.Charges
import SekaiChisei.Budget.Rules

/-!
Refunds are negative charges. An adjustment floors every cell it writes at 0; a record under a key floors
the cells it finds, and writes a new one as it is.
-/

namespace SekaiChisei.Budget.BudgetDb
open Lib SqlNumber

variable {db db' : BudgetDb}

def UsageNonneg (db : BudgetDb) : Prop :=
  ∀ scope metric period cell, db.usageAt scope metric period = some cell → 0 ≤ cell.value

/-- A refund under a new key, with a level that has no usage in its period yet. -/
def Sinks (db : BudgetDb) : Operation → Prop
  | .record call key => key ≠ "" ∧ db.eventAt key = none ∧ call.delta < 0 ∧ ∃ scope ∈ scopeChain call.scopeId,
        db.usageAt scope call.metric (db.chargePeriod call.metric call.nowMs scope) = none
  | _ => False

def Operation.Proper : Operation → Prop
  | .reserve call => 0 ≤ call.amount
  | _ => True

variable {metric : String}

theorem Charged.usageNonneg {charge : Charge} {nowMs : Int} {scopes : List String}
    (charged : Charged charge metric nowMs scopes db db') (nonneg : db.UsageNonneg) (cells : ∀ scope ∈ scopes,
      0 ≤ (charge.apply (db.usageAt scope metric (db.chargePeriod metric nowMs scope))).value) : db'.UsageNonneg := by
  intro scope metric' period cell written
  rw [charged.usageAt] at written
  split at written
  · rename_i isCharged
    obtain ⟨member, rfl, rfl⟩ := isCharged
    rw [← Option.some.inj written]
    exact cells scope member
  · exact nonneg scope metric' period cell written

variable {amount : Int64}

theorem toInt_nonneg (nonneg : 0 ≤ amount) : 0 ≤ amount.toInt := by
  have := Int64.le_iff_toInt_le.mp nonneg
  rwa [Int64.toInt_zero] at this

theorem floored_nonneg (used amount : SqlNumber) : 0 ≤ (used.add amount).atLeastZero.stored.value := by
  rw [value_stored]
  exact atLeastZero_nonneg _

variable {cell : Option SqlNumber}

theorem reserving_nonneg (nonneg : 0 ≤ amount)
    (held : ∀ used ∈ cell, 0 ≤ used.value) : 0 ≤ ((reserving amount).apply cell).value := by
  cases cell with
  | none => exact toInt_nonneg nonneg
  | some used =>
    show 0 ≤ (used.add (.integer amount)).stored.value
    rw [value_stored]
    exact add_nonneg (held used rfl) (toInt_nonneg nonneg)

theorem adjusting_nonneg (delta : Int64) : 0 ≤ ((adjusting delta).apply cell).value := by
  cases cell with
  | none => exact atLeastZero_nonneg _
  | some used => exact floored_nonneg used (.integer delta)

theorem recording_nonneg_iff : 0 ≤ ((recording amount).apply cell).value ↔ (amount < 0 → cell ≠ none) := by
  cases cell with
  | none =>
    show 0 ≤ amount.toInt ↔ (amount < 0 → none ≠ none)
    rw [Int64.lt_iff_toInt_lt, Int64.toInt_zero]
    constructor
    · intro nonneg negative
      omega
    · intro present
      by_contra negative
      exact present (by omega) rfl
  | some used =>
    have floored := floored_nonneg used (.integer amount)
    constructor
    · intro _ _ absent
      cases absent
    · intro _
      exact floored

variable {call : Adjustment}

theorem Applied.recorded_nonneg_iff {events : List UsageEvent}
    (applied : Applied (recording call.delta) call.scopeId call.metric call.nowMs events db db')
    (nonneg : db.UsageNonneg) : db'.UsageNonneg ↔ ¬ (call.delta < 0 ∧ ∃ scope ∈ scopeChain call.scopeId,
      db.usageAt scope call.metric (db.chargePeriod call.metric call.nowMs scope) = none) := by
  constructor
  · rintro after ⟨negative, scope, member, absent⟩
    have written := applied.charged.usageAt scope call.metric (db.chargePeriod call.metric call.nowMs scope)
    rw [if_pos ⟨member, rfl, rfl⟩] at written
    exact recording_nonneg_iff.mp (after _ _ _ _ written) negative absent
  · intro safe
    apply applied.charged.usageNonneg nonneg
    intro scope member
    apply recording_nonneg_iff.mpr
    intro negative absent
    exact safe ⟨negative, scope, member, absent⟩

theorem record_of_sinks {key : String} (sinks : db.Sinks (.record call key)) :
    ∃ result, db.budgetRecordIdempotentForSite call key = .ok result := by
  obtain ⟨keyed, free, negative, _⟩ := sinks
  have unpinned : ¬ (call.requireHomePin ∧ 0 < call.delta) := by
    rintro ⟨_, positive⟩
    rw [Int64.lt_iff_toInt_lt] at negative positive
    omega
  unfold eventAt at free
  unfold budgetRecordIdempotentForSite insertEvent
  rw [if_neg keyed]
  simp only [free]
  unfold assertDebitPinned
  simp only [if_neg unpinned]
  exact ⟨_, rfl⟩

theorem usageNonneg_of_usage (nonneg : db.UsageNonneg) (same : db'.usage = db.usage) : db'.UsageNonneg := by
  unfold UsageNonneg usageAt
  rw [same]
  exact nonneg

section
variable {op : Operation} (nonneg : db.UsageNonneg) (proper : op.Proper)
include nonneg proper

theorem perform_nonneg_iff (done : db.perform op = .ok db') : db'.UsageNonneg ↔ ¬ db.Sinks op := by
  cases op with
  | reserve call =>
    refine ⟨fun _ => id, fun _ => ?_⟩
    rcases reserve_cases done with ⟨rfl, _⟩ | ⟨_, applied⟩
    · exact nonneg
    · apply applied.charged.usageNonneg nonneg
      intro scope _
      apply reserving_nonneg proper
      intro used held
      exact nonneg _ _ _ used held
  | adjust call =>
    refine ⟨fun _ => id, fun _ => ?_⟩
    apply (adjust_applied done).charged.usageNonneg nonneg
    intro scope _
    exact adjusting_nonneg ..
  | record call key =>
    obtain ⟨⟨counted, after⟩, recorded, rfl⟩ := map_eq_ok.mp done
    rcases record_cases recorded with ⟨unkeyed, applied⟩ | ⟨rfl, _, found⟩ | ⟨keyed, applied⟩
    · refine ⟨fun _ sinks => sinks.1 unkeyed, fun _ => ?_⟩
      apply applied.charged.usageNonneg nonneg
      intro scope _
      exact adjusting_nonneg ..
    · refine ⟨fun _ sinks => ?_, fun _ => nonneg⟩
      rw [sinks.2.1] at found
      cases found
    · have fresh := applied.fresh _ (List.mem_singleton_self _)
      rw [applied.recorded_nonneg_iff nonneg]
      exact ⟨fun safe sinks => safe sinks.2.2, fun safe low => safe ⟨keyed, fresh, low⟩⟩
  | _ => exact ⟨fun _ => id, fun _ => usageNonneg_of_usage nonneg (perform_quiet rfl done).1⟩

theorem next_nonneg_iff : (db.next op).UsageNonneg ↔ ¬ db.Sinks op := by
  cases done : db.perform op with
  | ok db' =>
    rw [next_of_ok done]
    exact perform_nonneg_iff nonneg proper done
  | error message =>
    rw [next_of_error done]
    refine ⟨fun _ sinks => ?_, fun _ => nonneg⟩
    cases op with
    | record call key =>
      obtain ⟨result, success⟩ := record_of_sinks sinks
      rw [perform, success] at done
      cases done
    | _ => exact sinks

end

theorem used_nonneg (nonneg : db.UsageNonneg) {scope : String} {period : Int} {used : Int64}
    (read : db.used scope metric period = .ok used) : 0 ≤ used.toInt := by
  rcases usageAt_of_used read with found | ⟨_, rfl⟩
  · exact nonneg scope metric period _ found
  · exact Int.le_of_eq Int64.toInt_zero.symm

/-- No cell sinks below 0 in a run exactly when no refund under a new key meets a level without usage;
and where no cell has, the headroom of a scope is at most its limit. -/
theorem usage_nonneg_iff {ops : List Operation} (start : db.UsageNonneg) (proper : ∀ op ∈ ops, op.Proper) :
    ((∀ n, (db.after ops n).UsageNonneg) ↔ ∀ n op, ops[n]? = some op → ¬ (db.after ops n).Sinks op) ∧
    ∀ n, (db.after ops n).UsageNonneg → ∀ scope metric limit period used,
      (db.after ops n).effectiveLimit scope metric = some limit →
      (db.after ops n).used scope metric period = .ok used →
      limit.maxAmount.toInt - used.toInt ≤ limit.maxAmount.toInt := by
  constructor
  · apply Trace.always_iff start
    intro state op member nonneg
    exact next_nonneg_iff nonneg (proper op member)
  · intro n nonneg scope metric limit period used _ read
    have := used_nonneg nonneg read
    omega

def reservedThenRefunded : List Operation :=
  [.reserve ⟨"global", "tokens", 6, 0, some "a", false, ""⟩,
    .record ⟨"global", "tokens", -2, 0, false, ""⟩ "a-refund"]

theorem empty_usageNonneg : tenTokens.UsageNonneg := by
  intro scope metric period cell written
  cases written

theorem usage_nonneg_iff_refunded : tenTokens.UsageNonneg ∧
    ((∀ n, (tenTokens.after reservedThenRefunded n).UsageNonneg) ↔
      ∀ n op, reservedThenRefunded[n]? = some op → ¬ (tenTokens.after reservedThenRefunded n).Sinks op) := by
  refine ⟨empty_usageNonneg, (usage_nonneg_iff empty_usageNonneg ?_).1⟩
  intro op member
  simp only [reservedThenRefunded, List.mem_cons, List.not_mem_nil, or_false] at member
  rcases member with rfl | rfl
  · show (0 : Int64) ≤ 6
    decide +kernel
  · trivial

def refundedNextDay : List Operation :=
  [.reserve ⟨"global", "tokens", 6, 0, some "a", false, ""⟩,
    .record ⟨"global", "tokens", -6, 86400000, false, ""⟩ "a-refund",
    .reserve ⟨"global", "tokens", 16, 86400000, none, false, ""⟩]

/-- The next day starts at -6, so 16 tokens are reserved under a limit of 10. -/
theorem refundNextDay_sinks :
    (tenTokens.after refundedNextDay 2).usageAt "global" "tokens" 86400000 = some (.integer (-6)) ∧
    ¬ (tenTokens.after refundedNextDay 2).UsageNonneg ∧
    (tenTokens.after refundedNextDay 3).usageAt "global" "tokens" 86400000 = some (.integer 10) := by
  have sunk : (tenTokens.after refundedNextDay 2).usageAt "global" "tokens" 86400000 =
      some (.integer (-6)) := by decide +kernel
  refine ⟨sunk, ?_, by decide +kernel⟩
  intro nonneg
  exact absurd (nonneg _ _ _ _ sunk) (by decide +kernel)

end SekaiChisei.Budget.BudgetDb
