import SekaiChisei.TenantQuota.Accounts

/-! The tokens of a tenant within one period: the reserved ones of open admissions and the actual ones of completed
ones. -/

namespace SekaiChisei.TenantQuota
open Lib Budget BudgetDb List Life

def Life.accounted (tenantId : String) : Life → Int
  | .held admission => if admission.tenantId = tenantId then admission.reservedTokens.toInt else 0
  | .completed admission actual => if admission.tenantId = tenantId then (max actual 0).toInt else 0
  | _ => 0

def accountedTokens (tenantId : String) (lives : List Life) : Int :=
  (lives.map (accounted tenantId)).sum

def Life.atRest : Life → Bool
  | .refused _ => true
  | .held _ => true
  | .completed _ _ => true
  | .abandoned _ => true
  | _ => false

def Life.heldWithoutTokens (tenantId : String) : Life → Bool
  | .held admission => admission.tenantId = tenantId ∧ admission.reservedTokens = 0
  | _ => false

/-- A step after which the usage is not what the operations have: a reservation is answered from a used key, or one of
no tokens is completed with some. -/
def Miscounts (tenantId : String) (world : World) : Action → Prop
  | .advance i _ => ∃ life ∈ world.lives[i]?, tenantScopeId tenantId ∈ scopeChain life.scopeId ∧ Replays world.db life
  | .complete i actual => 0 < actual ∧ ∃ life ∈ world.lives[i]?, life.heldWithoutTokens tenantId = true
  | _ => False

instance (db : BudgetDb) (life : Life) : Decidable (Replays db life) := by
  unfold Replays
  split <;> infer_instance

instance (tenantId : String) (world : World) : (act : Action) → Decidable (Miscounts tenantId world act)
  | .advance i _ => inferInstanceAs (Decidable (∃ life ∈ world.lives[i]?,
      tenantScopeId tenantId ∈ scopeChain life.scopeId ∧ Replays world.db life))
  | .complete i actual => inferInstanceAs (Decidable (0 < actual ∧ ∃ life ∈ world.lives[i]?,
      life.heldWithoutTokens tenantId = true))
  | .admission _ => inferInstanceAs (Decidable False)
  | .abandon _ => inferInstanceAs (Decidable False)

/-- The tenants under whose scopes none but `tenantId` charges the scope of `tenantId`. -/
def tokenTenant (tenantId : String) : Tenants where
  known other := tenantScopeId tenantId ∈ scopeChain (tenantScopeId other) → other = tenantId
  concurrent _ := False

def Life.Settles (tenantId : String) : Life → Prop
  | .completing _ admission actual =>
    admission.tenantId = tenantId → admission.reservedTokens = 0 → ¬ 0 < actual
  | .completed admission actual => admission.tenantId = tenantId → admission.reservedTokens = 0 → ¬ 0 < actual
  | _ => True

variable {tenantId : String} {life : Life}

theorem advance_settles {tracker : BudgetTracker} (nowMs : Int) (db : BudgetDb)
    (settles : life.Settles tenantId) : (advance tracker nowMs db life).2.Settles tenantId := by
  cases life with
  | admitting call stage reserved =>
    cases stage <;> simp only [advance, advanceAdmit]
    all_goals
      split
      · split <;> trivial
      · trivial
  | rollingBack stage reserved error =>
    cases stage <;> simp only [advance, advanceRollback]
    · split
      · split <;> trivial
      · trivial
    · split
      · split <;> trivial
      · trivial
    · trivial
  | completing stage admission actual =>
    cases stage <;> simp only [advance, advanceComplete]
    · exact settles
    · split
      · split
        · trivial
        · exact settles
      · exact settles
    · split
      · split
        · trivial
        · exact settles
      · exact settles
  | abandoning stage remaining =>
    cases stage <;> simp only [advance, advanceAbandon]
    all_goals
      split
      · split <;> trivial
      · trivial
  | _ => exact settles

theorem settled_of_settles {admission : TenantQuotaAdmission} {actual : Int32}
    (settles : admission.reservedTokens = 0 → ¬ 0 < actual) : admission.settled actual = (max actual 0).toInt := by
  unfold TenantQuotaAdmission.settled
  split
  · rfl
  · rename_i none
    have zero : admission.reservedTokens = 0 := by
      apply Int32.toInt_inj.mp
      rw [tokens_of_none none, Int32.toInt_zero]
    have low := settles zero
    rw [toInt_pos32] at low
    rw [toInt_max_zero]
    omega

theorem Life.share_atRest (proper : life.Proper (tokenTenant tenantId)) (settles : life.Settles tenantId)
    (rests : tenantScopeId tenantId ∈ scopeChain life.scopeId → life.atRest = true) :
    life.share tokens (tenantScopeId tenantId) = life.accounted tenantId := by
  have placed : ∀ admission : TenantQuotaAdmission, admission.Proper (tokenTenant tenantId) →
      (tenantScopeId tenantId ∈ scopeChain admission.scopeId ↔ admission.tenantId = tenantId) := by
    rintro admission ⟨scope, known, _⟩
    rw [scope]
    constructor
    · exact known
    · rintro rfl
      exact tenantScopeId_mem _
  have absent : life.atRest = false → life.accounted tenantId = 0 →
      life.share tokens (tenantScopeId tenantId) = life.accounted tenantId := by
    intro busy none
    rw [none]
    refine if_neg fun member => ?_
    rw [rests member] at busy
    cases busy
  cases life with
  | admitting call stage reserved | rollingBack stage reserved error | completing stage admission actual
  | abandoning stage remaining => exact absent rfl rfl
  | refused error => exact ite_self 0
  | abandoned admission => exact ite_self 0
  | held admission =>
    show (if tenantScopeId tenantId ∈ scopeChain admission.scopeId then admission.reservedTokens.toInt else 0) =
      if admission.tenantId = tenantId then admission.reservedTokens.toInt else 0
    simp only [placed admission proper]
  | completed admission actual =>
    show (if tenantScopeId tenantId ∈ scopeChain admission.scopeId then admission.settled actual else 0) =
      if admission.tenantId = tenantId then (max actual 0).toInt else 0
    simp only [placed admission proper]
    split
    · rename_i own
      exact settled_of_settles (settles own)
    · rfl

structure Balanced (tenantId : String) (limit : EffectiveLimit) (period : Int) (world : World) : Prop where
  proper : ∀ life ∈ world.lives, life.Proper (tokenTenant tenantId)
  settles : ∀ life ∈ world.lives, life.Settles tenantId
  limited : world.db.effectiveLimit (tenantScopeId tenantId) metricTokens = some limit
  recorded : Recorded (world.db.usageAt (tenantScopeId tenantId) metricTokens period)
    (total tokens (tenantScopeId tenantId) world.lives)

section
variable {tenantId : String} {limit : EffectiveLimit} {period : Int} {world : World} {tracker : BudgetTracker}

variable (balanced : Balanced tenantId limit period world)
include balanced

theorem Balanced.accounted (rests : ∀ life ∈ world.lives, tenantScopeId tenantId ∈ scopeChain life.scopeId →
    life.atRest = true) :
    total tokens (tenantScopeId tenantId) world.lives = accountedTokens tenantId world.lives := by
  refine congrArg List.sum (map_congr_left ?_)
  intro life member
  exact share_atRest (balanced.proper life member) (balanced.settles life member) (rests life member)

theorem Balanced.step {act : Action}
    (known : ∀ call other, act = .admission call → call.tenant = some other → (tokenTenant tenantId).known other)
    (counts : ¬ Miscounts tenantId world act)
    (inPeriod : periodStartMs limit.periodType (TenantQuota.step tracker world act).clock = period)
    (fits : total tokens (tenantScopeId tenantId) (TenantQuota.step tracker world act).lives < 2 ^ 63) :
    Balanced tenantId limit period (TenantQuota.step tracker world act) := by
  have proper : ∀ life ∈ (TenantQuota.step tracker world act).lives, life.Proper (tokenTenant tenantId) := by
    refine step_lives balanced.proper ?_ (fun _ held => held) (fun _ _ _ _ _ held => held)
      fun nowMs db life held => advance_proper tracker nowMs db held
    rintro call rfl
    exact admit_proper (fun other => known call other rfl) fun _ _ => False.elim
  have settles : ∀ life ∈ (TenantQuota.step tracker world act).lives, life.Settles tenantId := by
    refine step_lives balanced.settles ?_ (fun _ _ => trivial) ?_
      fun nowMs db life held => advance_settles nowMs db held
    · rintro call rfl
      unfold admitStart
      split
      · trivial
      · split <;> trivial
    · rintro i admission actual rfl atI _ own none positive
      exact counts ⟨positive, _, atI, decide_eq_true ⟨own, none⟩⟩
  rcases step_total tracker world act (fun call => (admitStart_uncharged call).2) (fun _ => rfl) (fun _ _ => rfl)
    (tenantScopeId tenantId) with ⟨lives, next, same⟩ | ⟨i, elapsed, life, rfl, atI, next⟩
  · rw [next] at proper settles ⊢
    exact ⟨proper, settles, balanced.limited, same ▸ balanced.recorded⟩
  · rw [next] at proper settles inPeriod fits ⊢
    obtain ⟨_, turn⟩ := advance_turns tracker (world.clock + elapsed) world.db
      (balanced.proper life (mem_of_getElem? atI)).fresh
    generalize TenantQuota.advance tracker (world.clock + elapsed) world.db life = result at *
    have charges : world.db.chargePeriod metricTokens (world.clock + elapsed) (tenantScopeId tenantId) = period := by
      rw [chargePeriod_of_limited balanced.limited]
      exact inPeriod
    have sum := @total_set tokens (tenantScopeId tenantId) _ _ _ atI result.2
    have nonneg := @total_nonneg tokens (tenantScopeId tenantId) tokens_nonneg (world.lives.set i result.2)
    have recorded := balanced.recorded
    rw [← charges] at recorded
    have once : tenantScopeId tenantId ∈ scopeChain life.scopeId → ¬ Replays world.db life :=
      fun charged replays => counts ⟨life, atI, charged, replays⟩
    have fits : total tokens (tenantScopeId tenantId) (world.lives.set i result.2) < 2 ^ 63 := fits
    have after := turn.recorded (fun _ => once) recorded (by omega) (by omega)
    rw [charges, ← sum] at after
    refine ⟨proper, settles, ?_, after⟩
    rw [turn.rules.effectiveLimit]
    exact balanced.limited

end

/-- Within one period, where no step miscounts, the usage at rest is the reserved tokens of open admissions and the
actual tokens of completed ones. -/
theorem tokens_accounted {tracker : BudgetTracker} {db db' : BudgetDb} {tenantId : String} {limits : TenantQuotaLimits}
    {max : Int32} (assigned : limits.maxTokensPerPeriod = some max)
    (configure : tracker.configure db tenantId limits = .ok db') {period clock : Int}
    (unused : db.usageAt (tenantScopeId tenantId) metricTokens period = none) {acts : List Action}
    (alone : ∀ call other, .admission call ∈ acts → call.tenant = some other →
      tenantScopeId tenantId ∈ scopeChain (tenantScopeId other) → other = tenantId)
    (counts : ∀ n act, acts[n]? = some act → ¬ Miscounts tenantId (worldAt tracker ⟨db', clock, []⟩ acts n) act)
    (inPeriod : ∀ n, periodStartMs limits.period.asStr (worldAt tracker ⟨db', clock, []⟩ acts n).clock = period)
    (fits : ∀ n, total tokens (tenantScopeId tenantId) (worldAt tracker ⟨db', clock, []⟩ acts n).lives < 2 ^ 63)
    (n : Nat) (rests : ∀ life ∈ (worldAt tracker ⟨db', clock, []⟩ acts n).lives,
      tenantScopeId tenantId ∈ scopeChain life.scopeId → life.atRest = true) :
    ∃ used, (worldAt tracker ⟨db', clock, []⟩ acts n).db.used (tenantScopeId tenantId) metricTokens period = .ok used ∧
      used.toInt = accountedTokens tenantId (worldAt tracker ⟨db', clock, []⟩ acts n).lives := by
  obtain ⟨configures, limited, _⟩ := configure_configures configure
  have start : Balanced tenantId (configured tracker max limits.period) period ⟨db', clock, []⟩ := by
    refine ⟨fun life member => absurd member not_mem_nil, fun life member => absurd member not_mem_nil,
      limited max assigned, Or.inl ⟨?_, rfl⟩⟩
    exact (configures.usageAt _ _ period).trans unused
  have balanced : Balanced tenantId (configured tracker max limits.period) period
      (worldAt tracker ⟨db', clock, []⟩ acts n) := by
    refine Trace.always start ?_ n
    intro n act atN held
    have next := @Trace.after_succ _ _ (step tracker) ⟨db', clock, []⟩ _ _ _ atN
    refine held.step ?_ (counts n act atN) ?_ ?_
    · rintro call other rfl asked
      exact alone call other (mem_of_getElem? atN) asked
    · rw [← next]
      exact inPeriod (n + 1)
    · rw [← next]
      exact fits (n + 1)
  obtain ⟨used, read, same⟩ := balanced.recorded.used
  exact ⟨used, read, same.trans (balanced.accounted rests)⟩

def hundredTokens : TenantQuotaLimits := ⟨1, none, some 100, some 1, none, .daily⟩

def hundredTokensDb : BudgetDb :=
  { BudgetDb.empty with
    limits := [⟨"tenant:t", "tokens", "global", 100, "daily", "", ""⟩,
      ⟨"tenant:t", "concurrency", "global", 1, "monthly", "", ""⟩] }

def admitTokens (estimatedTokens : Int32) (key : String) : AdmitCall :=
  ⟨some "t", hundredTokens, 1, estimatedTokens, key⟩

/-- While `a` is open `b` is refused, for want of a unit; then `a` is completed, and `b` comes again under `key`. -/
def refusedAndRetried (key : String) : List Action :=
  [.admission (admitTokens 5 "a"), .advance 0 0, .advance 0 0, .advance 0 0,
    .admission (admitTokens 10 "b"), .advance 1 0, .advance 1 0, .advance 1 0, .advance 1 0, .advance 1 0,
    .complete 0 5, .advance 0 0, .advance 0 0,
    .admission (admitTokens 10 key), .advance 2 0, .advance 2 0, .advance 2 0, .complete 2 10, .advance 2 0,
      .advance 2 0]

def startOfEpoch : World := ⟨hundredTokensDb, 0, []⟩

theorem configure_hundredTokens :
    (⟨false, ""⟩ : BudgetTracker).configure BudgetDb.empty "t" hundredTokens = .ok hundredTokensDb := by
  rfl

/-- Under a new key the retry is charged. -/
theorem tokens_accounted_newKey :
    (∃ used, (worldAt ⟨false, ""⟩ startOfEpoch (refusedAndRetried "b2") 20).db.used "tenant:t" "tokens" 0 = .ok used ∧
      used.toInt = accountedTokens "t" (worldAt ⟨false, ""⟩ startOfEpoch (refusedAndRetried "b2") 20).lives) ∧
    accountedTokens "t" (worldAt ⟨false, ""⟩ startOfEpoch (refusedAndRetried "b2") 20).lives = 15 := by
  have counts : ∀ n : Fin (refusedAndRetried "b2").length,
      ¬ Miscounts "t" (worldAt ⟨false, ""⟩ startOfEpoch (refusedAndRetried "b2") n)
        ((refusedAndRetried "b2").get n) := by
    decide +kernel
  have along : ∀ n : Fin 21,
      periodStartMs "daily" (worldAt ⟨false, ""⟩ startOfEpoch (refusedAndRetried "b2") n).clock = 0 ∧
      total tokens "tenant:t" (worldAt ⟨false, ""⟩ startOfEpoch (refusedAndRetried "b2") n).lives < 2 ^ 63 := by
    decide +kernel
  have always : ∀ n, periodStartMs "daily" (worldAt ⟨false, ""⟩ startOfEpoch (refusedAndRetried "b2") n).clock = 0 ∧
      total tokens "tenant:t" (worldAt ⟨false, ""⟩ startOfEpoch (refusedAndRetried "b2") n).lives < 2 ^ 63 := by
    intro n
    unfold worldAt
    rw [Trace.after_min]
    exact along ⟨min n 20, by omega⟩
  refine ⟨tokens_accounted rfl configure_hundredTokens rfl ?_ ?_ (fun n => (always n).1) (fun n => (always n).2) 20
    (by decide +kernel), by decide +kernel⟩
  · intro call other member asked _
    simp only [refusedAndRetried, mem_cons, not_mem_nil, Action.admission.injEq, reduceCtorEq, false_or, or_false,
      or_self] at member
    rcases member with rfl | rfl | rfl
    all_goals
      cases asked
      rfl
  · intro n act atN
    obtain ⟨inside, rfl⟩ := List.getElem?_eq_some_iff.mp atN
    exact counts ⟨n, inside⟩

/-- Under its old key the retry is admitted and its 10 tokens are never charged. -/
theorem retry_is_not_charged :
    (worldAt ⟨false, ""⟩ startOfEpoch (refusedAndRetried "b") 20).lives.map atRest = [true, true, true] ∧
    (worldAt ⟨false, ""⟩ startOfEpoch (refusedAndRetried "b") 20).db.usageAt "tenant:t" "tokens" 0 = some (.integer 5) ∧
    accountedTokens "t" (worldAt ⟨false, ""⟩ startOfEpoch (refusedAndRetried "b") 20).lives = 15 := by
  decide +kernel

end SekaiChisei.TenantQuota
