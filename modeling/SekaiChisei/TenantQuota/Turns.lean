import SekaiChisei.Budget.Ceiling
import SekaiChisei.TenantQuota.Gate

/-!
What one transaction of the gate does to the usage of a metric and to what the operation has charged to it.
Everything the accounts need of the calls is said here.
-/

namespace SekaiChisei.TenantQuota
open Lib Budget BudgetDb Life BudgetTracker TenantQuotaAdmission

def Life.scopeId : Life → String
  | .admitting _ _ reserved => reserved.scopeId
  | .rollingBack _ reserved _ => reserved.scopeId
  | .refused _ => ""
  | .held admission => admission.scopeId
  | .completing _ admission _ => admission.scopeId
  | .completed admission _ => admission.scopeId
  | .abandoning _ remaining => remaining.scopeId
  | .abandoned admission => admission.scopeId

def TenantQuotaAdmission.unit (admission : TenantQuotaAdmission) : Int :=
  if admission.reservedConcurrency then 1 else 0

def Life.units : Life → Int
  | .held admission => admission.unit
  | .completing _ admission _ => admission.unit
  | .abandoning _ remaining => remaining.unit
  | _ => 0

def TenantQuotaAdmission.settled (admission : TenantQuotaAdmission) (actualTokens : Int32) : Int :=
  if 0 < admission.reservedTokens then (max actualTokens 0).toInt else 0

def Life.tokens : Life → Int
  | .admitting _ _ reserved => reserved.reservedTokens.toInt
  | .rollingBack .concurrency _ _ => 0
  | .rollingBack _ reserved _ => reserved.reservedTokens.toInt
  | .refused _ => 0
  | .held admission => admission.reservedTokens.toInt
  | .completing .concurrency admission actual => admission.settled actual
  | .completing _ admission _ => admission.reservedTokens.toInt
  | .completed admission actual => admission.settled actual
  | .abandoning .concurrency _ => 0
  | .abandoning _ remaining => remaining.reservedTokens.toInt
  | .abandoned _ => 0

/-- A call of `admit` has nothing yet of what it has not come to. -/
def Life.Fresh : Life → Prop
  | .admitting _ stage reserved =>
    reserved.reservedConcurrency = false ∧ (stage ≠ .concurrency → reserved.reservedTokens = 0)
  | _ => True

def Life.share (count : Life → Int) (scope : String) (life : Life) : Int :=
  if scope ∈ scopeChain life.scopeId then count life else 0

theorem Life.share_add {count : Life → Int} {life life' : Life} {amount : Int} (same : life'.scopeId = life.scopeId)
    (counted : count life' = count life + amount) (scope : String) :
    life'.share count scope = life.share count scope + if scope ∈ scopeChain life.scopeId then amount else 0 := by
  unfold share
  rw [same]
  split <;> omega

theorem toInt_nonneg32 {amount : Int32} (nonneg : 0 ≤ amount) : 0 ≤ amount.toInt := by
  have := Int32.le_iff_toInt_le.mp nonneg
  rwa [Int32.toInt_zero] at this

theorem toInt_pos32 {amount : Int32} : 0 < amount ↔ 0 < amount.toInt := by
  rw [Int32.lt_iff_toInt_lt, Int32.toInt_zero]

theorem toInt_max_zero (amount : Int32) : (max amount 0).toInt = max amount.toInt 0 := by
  rw [show max amount 0 = if amount ≤ 0 then 0 else amount from rfl]
  split
  · rename_i low
    have := Int32.le_iff_toInt_le.mp low
    rw [Int32.toInt_zero] at this ⊢
    omega
  · rename_i high
    have := Int32.lt_iff_toInt_lt.mp (Int32.not_le.mp high)
    rw [Int32.toInt_zero] at this
    omega

theorem TenantQuotaAdmission.unit_nonneg (admission : TenantQuotaAdmission) : 0 ≤ admission.unit := by
  unfold unit
  split <;> omega

theorem Life.units_nonneg (life : Life) : 0 ≤ life.units := by
  cases life with
  | held admission => exact admission.unit_nonneg
  | completing stage admission actual => exact admission.unit_nonneg
  | abandoning stage remaining => exact remaining.unit_nonneg
  | _ => exact Int.le_refl 0

theorem TenantQuotaAdmission.settled_nonneg (admission : TenantQuotaAdmission) (actual : Int32) :
    0 ≤ admission.settled actual := by
  unfold settled
  split
  · rw [toInt_max_zero]
    exact Int.le_max_right _ _
  · exact Int.le_refl 0

theorem Life.tokens_nonneg (life : Life) : 0 ≤ life.tokens := by
  cases life with
  | admitting call stage reserved => exact toInt_nonneg32 reserved.nonneg
  | rollingBack stage reserved error =>
    cases stage with
    | concurrency => exact Int.le_refl 0
    | _ => exact toInt_nonneg32 reserved.nonneg
  | refused error => exact Int.le_refl 0
  | held admission => exact toInt_nonneg32 admission.nonneg
  | completing stage admission actual =>
    cases stage with
    | concurrency => exact admission.settled_nonneg actual
    | _ => exact toInt_nonneg32 admission.nonneg
  | completed admission actual => exact admission.settled_nonneg actual
  | abandoning stage remaining =>
    cases stage with
    | concurrency => exact Int.le_refl 0
    | _ => exact toInt_nonneg32 remaining.nonneg
  | abandoned admission => exact Int.le_refl 0

def Replays (db : BudgetDb) : Life → Prop
  | .admitting call .tokens reserved =>
    call.limits.maxTokensPerPeriod.isSome ∧ 0 < call.estimatedTokens ∧
      ∃ event ∈ db.eventAt call.idempotencyKey, (event.scopeId, event.metric, event.amount) =
          (reserved.scopeId, metricTokens, call.estimatedTokens.toInt64)
  | _ => False

/-- One transaction, in the usage of `metric` and in what `count` says the operation has charged. -/
inductive Turn (metric : String) (count : Life → Int) (nowMs : Int) (db : BudgetDb) (life : Life) :
    BudgetDb → Life → Prop
  | quiet {db' : BudgetDb} {life' : Life} (rules : SameRules db db')
      (cells : ∀ scope period, db'.usageAt scope metric period = db.usageAt scope metric period)
      (shares : ∀ scope, life'.share count scope = life.share count scope) : Turn metric count nowMs db life db' life'
  | replayed {life' : Life} (metered : metric = metricTokens) (replays : Replays db life)
      (elsewhere : ∀ scope, scope ∉ scopeChain life.scopeId → life'.share count scope = life.share count scope) :
      Turn metric count nowMs db life db life'
  | reserved {db' : BudgetDb} {life' : Life} (call : Reservation) (metered : call.metric = metric)
      (timed : call.nowMs = nowMs) (nonneg : 0 ≤ call.amount.toInt)
      (checked : ∀ scope ∈ scopeChain call.scopeId, db.checkScope call scope = .ok ())
      (charged : Charged (reserving call.amount) metric nowMs (scopeChain call.scopeId) db db')
      (shares : ∀ scope, life'.share count scope =
        life.share count scope + if scope ∈ scopeChain call.scopeId then call.amount.toInt else 0) :
      Turn metric count nowMs db life db' life'
  | adjusted {db' : BudgetDb} {life' : Life} (source : String) (delta : Int64)
      (lowered : metric ≠ metricTokens → delta.toInt ≤ 0)
      (charged : Charged (adjusting delta) metric nowMs (scopeChain source) db db')
      (shares : ∀ scope, life'.share count scope =
        life.share count scope + if scope ∈ scopeChain source then delta.toInt else 0) :
      Turn metric count nowMs db life db' life'

section
variable {metric : String} {count : Life → Int} {nowMs : Int} {db db' : BudgetDb} {life life' : Life}

theorem Turn.idle (shares : ∀ scope, life'.share count scope = life.share count scope) :
    Turn metric count nowMs db life db life' :=
  .quiet (SameRules.refl db) (fun _ _ => rfl) shares

variable {scopes : List String} {charged : String} {charge : Charge} {scope : String}

theorem Turn.other (different : metric ≠ charged) (done : Charged charge charged nowMs scopes db db')
    (shares : ∀ scope, life'.share count scope = life.share count scope) :
    Turn metric count nowMs db life db' life' := by
  refine .quiet done.rules ?_ shares
  intro scope period
  rw [done.usageAt, if_neg]
  rintro ⟨_, same, _⟩
  exact different same

theorem Life.share_same (same : life'.scopeId = life.scopeId) (counted : count life' = count life) :
    life'.share count scope = life.share count scope := by
  unfold share
  rw [same, counted]

theorem Turn.kept (same : life'.scopeId = life.scopeId) (counted : count life' = count life) :
    Turn metric count nowMs db life db life' :=
  .idle fun _ => share_same same counted

theorem Turn.keptBeside (done : Charged charge charged nowMs scopes db db') (different : metric ≠ charged)
    (same : life'.scopeId = life.scopeId) (counted : count life' = count life) :
    Turn metric count nowMs db life db' life' :=
  .other different done fun _ => share_same same counted

theorem Life.share_none (before : count life = 0) (after : count life' = 0) :
    life'.share count scope = life.share count scope := by
  unfold share
  rw [before, after, ite_self, ite_self]

end

namespace BudgetTracker
variable {tracker : BudgetTracker} {db db' : BudgetDb} {scopeId metric : String} {nowMs : Int} {estimated : Int32}

theorem checkAndReserve_done (done : tracker.checkAndReserveWithMetric db scopeId estimated metric nowMs = .ok db') :
    (∀ scope ∈ scopeChain scopeId,
      db.checkScope (tracker.reservation scopeId estimated metric none nowMs) scope = .ok ()) ∧
    Charged (reserving estimated.toInt64) metric nowMs (scopeChain scopeId) db db' := by
  rcases reserve_cases done with ⟨_, key, keyed, _⟩ | ⟨checked, applied⟩
  · cases keyed
  · exact ⟨checked, applied.charged⟩

theorem checkAndReserveIdempotent_done {key : String}
    (done : tracker.checkAndReserveIdempotent db scopeId estimated key nowMs = .ok db') :
    (db' = db ∧ ∃ event, db.eventAt key = some event ∧
      (event.scopeId, event.metric, event.amount) = (scopeId, metricTokens, estimated.toInt64)) ∨
    ((∀ scope ∈ scopeChain scopeId,
      db.checkScope (tracker.reservation scopeId estimated metricTokens (some key) nowMs) scope = .ok ()) ∧
    Charged (reserving estimated.toInt64) metricTokens nowMs (scopeChain scopeId) db db') := by
  rcases reserve_cases done with ⟨same, key', keyed, found⟩ | ⟨checked, applied⟩
  · cases keyed
    obtain ⟨event, stored⟩ := Option.isSome_iff_exists.mp found
    refine .inl ⟨same, event, stored, ?_⟩
    obtain ⟨written, inserted, _⟩ := bind_eq_ok.mp done
    unfold insertEvent at inserted
    unfold BudgetDb.eventAt at stored
    simp only [stored] at inserted
    obtain ⟨agrees, _⟩ := ite_error_eq_ok.mp inserted
    exact not_not.mp agrees
  · exact .inr ⟨checked, applied.charged⟩

variable {reserved : Int32}

theorem tryAdjust_done {actual : Int32}
    (done : tracker.tryAdjustWithMetric db scopeId reserved actual metric nowMs = .ok db') :
    Charged (adjusting (actual.toInt64 - reserved.toInt64)) metric nowMs (scopeChain scopeId) db db' :=
  (adjust_applied done).charged

theorem delta_toInt (reserved actual : Int32) :
    (actual.toInt64 - reserved.toInt64).toInt = actual.toInt - reserved.toInt := by
  have lowA := actual.le_toInt
  have highA := actual.toInt_lt
  have lowR := reserved.le_toInt
  have highR := reserved.toInt_lt
  have fits := @SqlNumber.toInt_sub_of_fits actual.toInt64 reserved.toInt64
  rw [Int32.toInt_toInt64, Int32.toInt_toInt64] at fits
  exact fits (by omega) (by omega)

theorem refund_not_refused {message : String} (nonneg : 0 ≤ reserved) :
    tracker.tryAdjustWithMetric db scopeId reserved 0 metric nowMs ≠ .error message := by
  intro refused
  have low : ¬ (0 : Int64) < (0 : Int32).toInt64 - reserved.toInt64 := by
    rw [Int64.lt_iff_toInt_lt, delta_toInt, Int64.toInt_zero, Int32.toInt_zero]
    have := toInt_nonneg32 nonneg
    omega
  have unpinned : db.assertDebitPinned (tracker.adjustment scopeId reserved 0 metric nowMs) = .ok () :=
    if_neg fun pinned => low pinned.2
  unfold tryAdjustWithMetric budgetAdjustChainForSite at refused
  rw [unpinned] at refused
  cases refused

end BudgetTracker

section
variable (tracker : BudgetTracker) (nowMs : Int) (db : BudgetDb)

/-- One transaction, in the two metrics that are given back. -/
def Turns (life : Life) (next : BudgetDb × Life) : Prop :=
  Turn metricConcurrency units nowMs db life next.1 next.2 ∧ Turn metricTokens tokens nowMs db life next.1 next.2

variable {nowMs db} {db' : BudgetDb} {life life' : Life}

theorem Turns.kept (same : life'.scopeId = life.scopeId) (units : life'.units = life.units)
    (tokens : life'.tokens = life.tokens) : Turns nowMs db life (db, life') :=
  ⟨.kept same units, .kept same tokens⟩

theorem Turns.requests {charge : Charge} {scopes : List String}
    (charged : Charged charge metricRequests nowMs scopes db db') (same : life'.scopeId = life.scopeId)
    (units : life'.units = life.units) (tokens : life'.tokens = life.tokens) : Turns nowMs db life (db', life') :=
  ⟨.keptBeside charged (by decide) same units, .keptBeside charged (by decide) same tokens⟩

theorem Turns.none (units : life.units = 0) (tokens : life.tokens = 0) (units' : life'.units = 0)
    (tokens' : life'.tokens = 0) : Turns nowMs db life (db, life') :=
  ⟨.idle fun _ => share_none units units', .idle fun _ => share_none tokens tokens'⟩

variable (nowMs db)
variable {admission : TenantQuotaAdmission}

theorem unit_refunded (has : admission.reservedConcurrency = true) :
    0 = admission.unit + ((0 : Int32).toInt64 - (1 : Int32).toInt64).toInt := by
  rw [unit, has]
  decide

theorem unit_of_none (none : ¬ admission.reservedConcurrency = true) : admission.unit = 0 :=
  if_neg none

theorem tokens_refunded (reserved : Int32) : 0 = reserved.toInt + ((0 : Int32).toInt64 - reserved.toInt64).toInt := by
  rw [delta_toInt, Int32.toInt_zero]
  omega

theorem tokens_of_none (none : ¬ 0 < admission.reservedTokens) : admission.reservedTokens.toInt = 0 := by
  have nonneg := toInt_nonneg32 admission.nonneg
  rw [toInt_pos32] at none
  omega

theorem admit_turns {call : AdmitCall} {stage : Stage} {reserved : TenantQuotaAdmission}
    (fresh : (admitting call stage reserved).Fresh) :
    Turns nowMs db (.admitting call stage reserved) (advanceAdmit tracker nowMs db call reserved stage) := by
  cases stage with
  | requests =>
    simp only [advanceAdmit]
    split
    · split
      · exact .none rfl (congrArg Int32.toInt (fresh.2 (by decide))) rfl rfl
      · rename_i db' done
        exact .requests (checkAndReserve_done done).2 rfl rfl rfl
    · exact .kept rfl rfl rfl
  | tokens =>
    have none : reserved.reservedTokens = 0 := fresh.2 (by decide)
    simp only [advanceAdmit]
    split
    · rename_i estimated
      split
      · exact .kept rfl rfl rfl
      · rename_i db' done
        rcases checkAndReserveIdempotent_done done with ⟨rfl, replayed⟩ | ⟨checked, charged⟩
        · refine ⟨.kept rfl rfl, .replayed rfl ⟨estimated.1, estimated.2, replayed⟩ ?_⟩
          intro scope absent
          exact (if_neg absent).trans (if_neg absent).symm
        · refine ⟨.keptBeside charged (by decide) rfl rfl, .reserved (tracker.reservation reserved.scopeId
            call.estimatedTokens metricTokens (some call.idempotencyKey) nowMs) rfl rfl ?_ checked charged
              (share_add rfl ?_)⟩
          · show 0 ≤ call.estimatedTokens.toInt64.toInt
            rw [Int32.toInt_toInt64]
            exact Int.le_of_lt (toInt_pos32.mp estimated.2)
          · show call.estimatedTokens.toInt = reserved.reservedTokens.toInt + call.estimatedTokens.toInt64.toInt
            rw [Int32.toInt_toInt64, none, Int32.toInt_zero, Int.zero_add]
    · exact .kept rfl rfl rfl
  | concurrency =>
    simp only [advanceAdmit]
    split
    · split
      · exact .kept rfl rfl rfl
      · rename_i db' done
        obtain ⟨checked, charged⟩ := checkAndReserve_done done
        have unit : (0 : Int) ≤ (1 : Int32).toInt64.toInt := by decide
        exact ⟨.reserved (tracker.reservation reserved.scopeId 1 metricConcurrency none nowMs) rfl rfl unit checked
          charged (share_add rfl rfl), .keptBeside charged (by decide) rfl rfl⟩
    · refine .kept rfl ?_ rfl
      show reserved.unit = 0
      exact unit_of_none (Bool.eq_false_iff.mp fresh.1)

theorem rollback_turns (stage : Stage) (reserved : TenantQuotaAdmission) (error : TenantQuotaError) :
    Turns nowMs db (.rollingBack stage reserved error) (advanceRollback tracker nowMs db reserved error stage) := by
  cases stage with
  | requests =>
    simp only [advanceRollback]
    split
    · split
      · rename_i message refused
        exact absurd refused (refund_not_refused (by decide))
      · rename_i db' done
        exact .requests (tryAdjust_done done) rfl rfl rfl
    · exact .kept rfl rfl rfl
  | tokens =>
    simp only [advanceRollback]
    split
    · split
      · rename_i message refused
        exact absurd refused (refund_not_refused reserved.nonneg)
      · rename_i db' done
        have charged := tryAdjust_done done
        refine ⟨.other (by decide) charged fun _ => share_none rfl rfl, .adjusted _ _ (absurd rfl) charged ?_⟩
        intro scope
        -- The refused call has no scope and no tokens.
        show (if scope ∈ scopeChain "" then (0 : Int) else 0) =
          (if scope ∈ scopeChain reserved.scopeId then reserved.reservedTokens.toInt else 0) + _
        have refunded := tokens_refunded reserved.reservedTokens
        rw [ite_self]
        split <;> omega
    · rename_i none
      exact .none rfl (tokens_of_none none) rfl rfl
  | concurrency => exact .none rfl rfl rfl rfl

theorem complete_turns (stage : Stage) (admission : TenantQuotaAdmission) (actual : Int32) :
    Turns nowMs db (.completing stage admission actual) (advanceComplete tracker nowMs db admission actual stage) := by
  cases stage with
  | requests => exact .kept rfl rfl rfl
  | tokens =>
    simp only [advanceComplete]
    split
    · rename_i reservedSome
      split
      · exact .kept rfl rfl rfl
      · rename_i db' done
        have charged := tryAdjust_done done
        refine ⟨.keptBeside charged (by decide) rfl rfl, .adjusted _ _ (absurd rfl) charged (share_add rfl ?_)⟩
        show admission.settled actual = admission.reservedTokens.toInt + _
        rw [settled, if_pos reservedSome, delta_toInt]
        omega
    · rename_i none
      refine .kept rfl rfl ?_
      show admission.settled actual = admission.reservedTokens.toInt
      rw [settled, if_neg none, tokens_of_none none]
  | concurrency =>
    simp only [advanceComplete]
    split
    · rename_i has
      split
      · rename_i message refused
        exact absurd refused (refund_not_refused (by decide))
      · rename_i db' done
        have charged := tryAdjust_done done
        exact ⟨.adjusted _ _ (fun _ => by decide) charged (share_add rfl (unit_refunded has)),
          .keptBeside charged (by decide) rfl rfl⟩
    · rename_i none
      exact .kept rfl (unit_of_none none).symm rfl

theorem abandon_turns (stage : Stage) (remaining : TenantQuotaAdmission) :
    Turns nowMs db (.abandoning stage remaining) (advanceAbandon tracker nowMs db remaining stage) := by
  cases stage with
  | requests =>
    simp only [advanceAbandon]
    split
    · split
      · exact .kept rfl rfl rfl
      · rename_i db' done
        exact .requests (tryAdjust_done done) rfl rfl rfl
    · exact .kept rfl rfl rfl
  | tokens =>
    simp only [advanceAbandon]
    split
    · split
      · exact .kept rfl rfl rfl
      · rename_i db' done
        have charged := tryAdjust_done done
        exact ⟨.keptBeside charged (by decide) rfl rfl,
          .adjusted _ _ (absurd rfl) charged (share_add rfl (tokens_refunded remaining.reservedTokens))⟩
    · rename_i none
      exact .kept rfl rfl (tokens_of_none none).symm
  | concurrency =>
    simp only [advanceAbandon]
    split
    · rename_i has
      split
      · rename_i message refused
        exact absurd refused (refund_not_refused (by decide))
      · rename_i db' done
        have charged := tryAdjust_done done
        exact ⟨.adjusted _ _ (fun _ => by decide) charged (share_add rfl (unit_refunded has)),
          .other (by decide) charged fun _ => share_none rfl rfl⟩
    · rename_i none
      exact .kept rfl (unit_of_none none).symm rfl

theorem advance_turns {life : Life} (fresh : life.Fresh) : Turns nowMs db life (advance tracker nowMs db life) := by
  cases life with
  | admitting call stage reserved => exact admit_turns tracker nowMs db fresh
  | rollingBack stage reserved error => exact rollback_turns tracker nowMs db stage reserved error
  | completing stage admission actual => exact complete_turns tracker nowMs db stage admission actual
  | abandoning stage remaining => exact abandon_turns tracker nowMs db stage remaining
  | _ => exact .kept rfl rfl rfl

end

end SekaiChisei.TenantQuota
