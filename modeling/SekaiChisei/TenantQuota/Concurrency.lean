import SekaiChisei.TenantQuota.Accounts

/-! The cap on concurrent operations of a tenant. A unit is charged to the month it was taken in and given back to the
month of its release. -/

namespace SekaiChisei.TenantQuota
open Lib Budget BudgetDb List Life

/-- The admission was returned, and neither `complete` nor `abandon` has returned. -/
def Life.isOpen (tenantId : String) : Life → Bool
  | .held admission => admission.tenantId = tenantId
  | .completing _ admission _ => admission.tenantId = tenantId
  | .abandoning _ remaining => remaining.tenantId = tenantId
  | _ => false

def openAdmissions (tenantId : String) (lives : List Life) : Nat :=
  lives.countP (isOpen tenantId)

def concurrentTenant (tenantId : String) : Tenants := ⟨fun _ => True, (· = tenantId)⟩

def month (nowMs : Int) : Int := periodStartMs "monthly" nowMs

def Straddles (tenantId : String) (world : World) : Action → Prop
  | .advance _ elapsed => month (world.clock + elapsed) ≠ month world.clock ∧
      ∃ life ∈ world.lives, tenantScopeId tenantId ∈ scopeChain life.scopeId ∧ life.units ≠ 0
  | _ => False

instance (tenantId : String) (world : World) : (act : Action) → Decidable (Straddles tenantId world act)
  | .advance _ elapsed => inferInstanceAs (Decidable (month (world.clock + elapsed) ≠ month world.clock ∧
      ∃ life ∈ world.lives, tenantScopeId tenantId ∈ scopeChain life.scopeId ∧ life.units ≠ 0))
  | .admission _ => inferInstanceAs (Decidable False)
  | .complete _ _ => inferInstanceAs (Decidable False)
  | .abandon _ => inferInstanceAs (Decidable False)

structure Capped (tenantId : String) (limit : EffectiveLimit) (world : World) : Prop where
  proper : ∀ life ∈ world.lives, life.Proper (concurrentTenant tenantId)
  limited : world.db.effectiveLimit (tenantScopeId tenantId) metricConcurrency = some limit
  recorded : ∀ period, Recorded (world.db.usageAt (tenantScopeId tenantId) metricConcurrency period)
    (if period = month world.clock then total units (tenantScopeId tenantId) world.lives else 0)
  within : total units (tenantScopeId tenantId) world.lives ≤ limit.maxAmount.toInt

section
variable {tenantId : String} {limit : EffectiveLimit} {world : World} {tracker : BudgetTracker} {life : Life}

theorem Life.share_of_open (proper : life.Proper (concurrentTenant tenantId)) (isOpen : life.isOpen tenantId = true) :
    life.share units (tenantScopeId tenantId) = 1 := by
  have counted : ∀ admission : TenantQuotaAdmission, admission.Proper (concurrentTenant tenantId) →
      admission.tenantId = tenantId → tenantScopeId tenantId ∈ scopeChain admission.scopeId ∧ admission.unit = 1 := by
    rintro admission ⟨placed, _, takes⟩ rfl
    rw [placed]
    exact ⟨tenantScopeId_mem _, if_pos (takes rfl)⟩
  cases life with
  | held admission | completing stage admission actual =>
    obtain ⟨member, unit⟩ := counted admission proper (of_decide_eq_true isOpen)
    exact (if_pos member).trans unit
  | abandoning stage remaining =>
    obtain ⟨member, unit⟩ := counted remaining proper (of_decide_eq_true isOpen)
    exact (if_pos member).trans unit
  | _ => cases isOpen

variable {lives : List Life}

theorem openAdmissions_le_total (proper : ∀ life ∈ lives, life.Proper (concurrentTenant tenantId)) :
    (openAdmissions tenantId lives : Int) ≤ total units (tenantScopeId tenantId) lives := by
  induction lives with
  | nil => exact Int.le_refl 0
  | cons life rest ih =>
    have later := ih fun other member => proper other (mem_cons_of_mem _ member)
    have sum : total units (tenantScopeId tenantId) (life :: rest) =
        life.share units (tenantScopeId tenantId) + total units (tenantScopeId tenantId) rest := rfl
    have nonneg := @Life.share_nonneg _ (tenantScopeId tenantId) units_nonneg life
    unfold openAdmissions at later ⊢
    rw [countP_cons, sum]
    by_cases isOpen : life.isOpen tenantId = true
    · rw [if_pos isOpen, share_of_open (proper life mem_cons_self) isOpen]
      omega
    · rw [if_neg isOpen]
      omega

/-- Where no unit is held, the cells of all months are alike. -/
theorem Capped.turnOfMonth (capped : Capped tenantId limit world) {nowMs : Int}
    (free : month nowMs ≠ month world.clock → total units (tenantScopeId tenantId) world.lives = 0) (period : Int) :
    Recorded (world.db.usageAt (tenantScopeId tenantId) metricConcurrency period)
      (if period = month nowMs then total units (tenantScopeId tenantId) world.lives else 0) := by
  have recorded := capped.recorded period
  by_cases same : month nowMs = month world.clock
  · rw [same]
    exact recorded
  · rw [free same, ite_self] at recorded ⊢
    exact recorded

theorem Life.units_le_one (life : Life) : life.units ≤ 1 := by
  have unit : ∀ admission : TenantQuotaAdmission, admission.unit ≤ 1 := by
    intro admission
    unfold TenantQuotaAdmission.unit
    split <;> omega
  cases life with
  | held admission => exact unit admission
  | completing stage admission actual => exact unit admission
  | abandoning stage remaining => exact unit remaining
  | _ => exact Int.zero_le_ofNat 1

theorem Life.share_units_le (scope : String) (life : Life) : life.share units scope ≤ 1 := by
  unfold share
  split
  · exact life.units_le_one
  · omega

variable (capped : Capped tenantId limit world)
include capped

theorem Capped.advance (monthly : limit.periodType = "monthly")
    (small : limit.maxAmount.toInt < 2 ^ 31) {i elapsed : Nat} (atI : world.lives[i]? = some life)
    (proper : ∀ other ∈ world.lives.set i (TenantQuota.advance tracker (world.clock + elapsed) world.db life).2,
      other.Proper (concurrentTenant tenantId)) (safe : ¬ Straddles tenantId world (.advance i elapsed)) :
    Capped tenantId limit
      { db := (TenantQuota.advance tracker (world.clock + elapsed) world.db life).1
        clock := world.clock + elapsed
        lives := world.lives.set i (TenantQuota.advance tracker (world.clock + elapsed) world.db life).2 } := by
  obtain ⟨turn, _⟩ := advance_turns tracker (world.clock + elapsed) world.db
    (capped.proper life (mem_of_getElem? atI)).fresh
  generalize TenantQuota.advance tracker (world.clock + elapsed) world.db life = result at turn proper ⊢
  have free : month (world.clock + elapsed) ≠ month world.clock →
      total units (tenantScopeId tenantId) world.lives = 0 := by
    intro turned
    apply total_eq_zero
    intro other member charged
    by_contra held
    exact safe ⟨turned, other, member, charged, held⟩
  have recorded := capped.turnOfMonth free
  have charges : world.db.chargePeriod metricConcurrency (world.clock + elapsed) (tenantScopeId tenantId) =
      month (world.clock + elapsed) := by
    rw [chargePeriod_of_limited capped.limited, monthly]
    rfl
  have sum := @total_set units (tenantScopeId tenantId) _ _ _ atI result.2
  have before := @total_nonneg units (tenantScopeId tenantId) units_nonneg world.lives
  have after := @total_nonneg units (tenantScopeId tenantId) units_nonneg (world.lives.set i result.2)
  have old := @Life.share_nonneg units (tenantScopeId tenantId) units_nonneg life
  have new := result.2.share_units_le (tenantScopeId tenantId)
  have current := recorded (month (world.clock + elapsed))
  rw [if_pos rfl, ← charges] at current
  have within := turn.within (by decide) capped.limited current before capped.within small (by omega)
  refine ⟨proper, ?_, ?_, ?_⟩
  · rw [turn.rules.effectiveLimit]
    exact capped.limited
  · intro period
    by_cases same : period = month (world.clock + elapsed)
    · subst same
      have next := turn.recorded (fun tokens => absurd tokens (by decide)) current (by omega) (by omega)
      rw [charges, ← sum] at next
      rw [if_pos rfl]
      exact next
    · have kept := recorded period
      rw [if_neg same] at kept ⊢
      rw [turn.elsewhere (by rw [charges]; exact same)]
      exact kept
  · rw [← sum] at within
    exact within

theorem Capped.same_units (proper : ∀ life ∈ lives, life.Proper (concurrentTenant tenantId))
    (same : total units (tenantScopeId tenantId) lives = total units (tenantScopeId tenantId) world.lives) :
    Capped tenantId limit { world with lives } := by
  refine ⟨proper, capped.limited, ?_, ?_⟩
  · intro period
    rw [same]
    exact capped.recorded period
  · rw [same]
    exact capped.within

theorem Capped.step (monthly : limit.periodType = "monthly") (small : limit.maxAmount.toInt < 2 ^ 31) {act : Action}
    (takes : ∀ call, act = .admission call → call.tenant = some tenantId → call.limits.maxConcurrency.isSome)
    (safe : ¬ Straddles tenantId world act) : Capped tenantId limit (TenantQuota.step tracker world act) := by
  have proper : ∀ life ∈ (TenantQuota.step tracker world act).lives, life.Proper (concurrentTenant tenantId) := by
    refine step_lives capped.proper ?_ (fun _ held => held) (fun _ _ _ _ _ held => held)
      fun nowMs db life held => advance_proper tracker nowMs db held
    rintro call rfl
    apply admit_proper fun _ _ => trivial
    rintro named asked rfl
    exact takes call rfl asked
  rcases step_total tracker world act (fun call => (admitStart_uncharged call).1) (fun _ => rfl) (fun _ _ => rfl)
    (tenantScopeId tenantId) with ⟨lives, next, same⟩ | ⟨i, elapsed, life, rfl, atI, next⟩
  · rw [next] at proper ⊢
    exact capped.same_units proper same
  · rw [next] at proper ⊢
    exact capped.advance monthly small atI proper safe

end

/-- As long as no unit of the tenant is held while the month changes, the tenant has no more open admissions than its
limit, for every interleaving of the calls. -/
theorem openAdmissions_capped {tracker : BudgetTracker} {db db' : BudgetDb} {tenantId : String}
    {limits : TenantQuotaLimits} {max : Int32} (assigned : limits.maxConcurrency = some max)
    (configure : tracker.configure db tenantId limits = .ok db')
    (unused : ∀ period, db.usageAt (tenantScopeId tenantId) metricConcurrency period = none) {clock : Int}
    {acts : List Action}
    (takes : ∀ call, .admission call ∈ acts → call.tenant = some tenantId → call.limits.maxConcurrency.isSome)
    (safe : ∀ n act, acts[n]? = some act → ¬ Straddles tenantId (worldAt tracker ⟨db', clock, []⟩ acts n) act)
    (n : Nat) : openAdmissions tenantId (worldAt tracker ⟨db', clock, []⟩ acts n).lives ≤ max.toInt := by
  obtain ⟨configures, _, limits⟩ := configure_configures configure
  obtain ⟨nonneg, limited⟩ := limits max assigned
  have amount : (configured tracker max .monthly).maxAmount.toInt = max.toInt := Int32.toInt_toInt64 max
  have small := max.toInt_lt
  have start : Capped tenantId (configured tracker max .monthly) ⟨db', clock, []⟩ := by
    refine ⟨fun life member => absurd member not_mem_nil, limited, ?_, ?_⟩
    · intro period
      left
      exact ⟨(configures.usageAt _ _ period).trans (unused period), ite_self 0⟩
    · rw [amount]
      exact nonneg
  have capped := Trace.always start (fun n act atN held => held.step rfl (by omega)
    (fun call asked => takes call (asked ▸ mem_of_getElem? atN)) (safe n act atN)) n
  have within := capped.within
  have few := openAdmissions_le_total capped.proper
  unfold worldAt
  omega

def oneAtATime : TenantQuotaLimits := ⟨1, none, none, some 1, none, .daily⟩

def oneAtATimeDb : BudgetDb :=
  { BudgetDb.empty with limits := [⟨"tenant:t", "concurrency", "global", 1, "monthly", "", ""⟩] }

def admitOne : AdmitCall := ⟨some "t", oneAtATime, 1, 0, "key"⟩

def endOfJanuary : World := ⟨oneAtATimeDb, 1769817600000, []⟩

def oneAfterTheOther : List Action :=
  [.admission admitOne, .advance 0 0, .advance 0 0, .advance 0 0, .complete 0 0, .advance 0 0, .advance 0 1000,
    .admission admitOne, .advance 1 172800000, .advance 1 0, .advance 1 0]

theorem openAdmissions_capped_oneAfterTheOther :
    openAdmissions "t" (worldAt ⟨false, ""⟩ endOfJanuary oneAfterTheOther 11).lives ≤ (1 : Int32).toInt ∧
      openAdmissions "t" (worldAt ⟨false, ""⟩ endOfJanuary oneAfterTheOther 11).lives = 1 := by
  have safe : ∀ n : Fin oneAfterTheOther.length,
      ¬ Straddles "t" (worldAt ⟨false, ""⟩ endOfJanuary oneAfterTheOther n) (oneAfterTheOther.get n) := by
    decide +kernel
  have configure : (⟨false, ""⟩ : BudgetTracker).configure BudgetDb.empty "t" oneAtATime = .ok oneAtATimeDb := by
    rfl
  refine ⟨openAdmissions_capped rfl configure (fun _ => rfl) ?_ ?_ 11, by decide +kernel⟩
  · intro call member _
    simp only [oneAfterTheOther, mem_cons, not_mem_nil, Action.admission.injEq, reduceCtorEq, false_or, or_false,
      or_self] at member
    rw [member]
    rfl
  · intro n act atN
    obtain ⟨inside, rfl⟩ := List.getElem?_eq_some_iff.mp atN
    exact safe ⟨n, inside⟩

def bothOpen : List Action :=
  [.admission admitOne, .advance 0 0, .advance 0 0, .advance 0 0, .admission admitOne, .advance 1 172800000,
    .advance 1 0, .advance 1 0]

theorem two_open_under_cap_of_one :
    (⟨false, ""⟩ : BudgetTracker).configure BudgetDb.empty "t" oneAtATime = .ok oneAtATimeDb ∧
      openAdmissions "t" (worldAt ⟨false, ""⟩ endOfJanuary bothOpen 8).lives = 2 := by
  refine ⟨by rfl, by decide +kernel⟩

end SekaiChisei.TenantQuota
