import SekaiChisei.Budget.Charges
import SekaiChisei.Budget.Rules

/-!
Pools and the transfers between their members. The new limit of a target is an `i64` sum, which nothing keeps from
wrapping in a pool without a ceiling.
-/

namespace SekaiChisei.Budget.BudgetDb
open Lib List Option Table

variable {db db' : BudgetDb} {call : Transfer} {record : BudgetTransferRecord}
  {poolId metric : String} {source target row : LimitRow} {used : Int64}

def share (poolId metric : String) (row : LimitRow) : Int :=
  if row.poolId = poolId ∧ row.metric = metric then row.maxAmount.toInt else 0

def poolSum (db : BudgetDb) (poolId metric : String) : Int :=
  (db.limits.map (share poolId metric)).sum

theorem share_nonneg (nonneg : 0 ≤ row.maxAmount.toInt) : 0 ≤ share poolId metric row := by
  unfold share
  split
  · exact nonneg
  · exact Int.le_refl 0

theorem share_of_ne (other : ¬ (row.poolId = poolId ∧ row.metric = metric)) : share poolId metric row = 0 :=
  if_neg other

theorem members_sum :
    (((db.poolMembers poolId metric).map LimitRow.maxAmount).map Int64.toInt).sum = db.poolSum poolId metric := by
  unfold poolMembers poolSum
  induction db.limits with
  | nil => rfl
  | cons row rest ih =>
    rw [map_cons, sum_cons, ← ih, share]
    by_cases member : row.poolId = poolId ∧ row.metric = metric
    · rw [filter_cons_of_pos (by simpa using member), if_pos member]
      simp
    · rw [filter_cons_of_neg (by simpa using member), if_neg member]
      simp

theorem poolSum_of_enforced (enforced : db.enforcePoolMemberSum poolId metric = .ok ()) {pool : Pool}
    (found : find Pool.key db.pools (poolId, metric) = some pool) :
    db.poolSum poolId metric ≤ pool.maxAmount.toInt := by
  unfold enforcePoolMemberSum at enforced
  rw [found] at enforced
  obtain ⟨sum, summed, within⟩ := bind_eq_ok.mp enforced
  obtain ⟨below, _⟩ := ite_error_eq_ok.mp within
  rw [← members_sum, ← SqlNumber.sum_eq_ok summed]
  exact Int64.le_iff_toInt_le.mp (Int64.not_lt.mp below)

structure PoolsHold (db : BudgetDb) : Prop where
  unique : (db.limits.map LimitRow.key).Nodup
  nonneg : ∀ row ∈ db.limits, 0 ≤ row.maxAmount.toInt
  named : ∀ metric, find Pool.key db.pools ("", metric) = none
  held : ∀ poolId metric pool, find Pool.key db.pools (poolId, metric) = some pool →
    db.poolSum poolId metric ≤ pool.maxAmount.toInt

theorem poolsHold_empty : empty.PoolsHold where
  unique := nodup_nil
  nonneg := by
    intro row member
    cases member
  named _ := rfl
  held := by
    intro poolId metric pool found
    cases found

theorem PoolsHold.of_same (holds : db.PoolsHold) (sameLimits : db'.limits = db.limits)
    (samePools : db'.pools = db.pools) : db'.PoolsHold := by
  obtain ⟨unique, nonneg, named, held⟩ := holds
  refine ⟨?_, ?_, ?_, ?_⟩
  · rw [sameLimits]
    exact unique
  · rw [sameLimits]
    exact nonneg
  · rw [samePools]
    exact named
  · unfold poolSum
    rw [sameLimits, samePools]
    exact held

theorem poolSum_upsert_le (holds : db.PoolsHold) (outside : ¬ (row.poolId = poolId ∧ row.metric = metric)) :
    poolSum { db with limits := upsert LimitRow.key db.limits row fun _ => row } poolId metric ≤
      db.poolSum poolId metric := by
  unfold poolSum upsert
  cases found : find LimitRow.key db.limits row.key with
  | none =>
    simp only [map_append, sum_append, map_cons, map_nil, sum_cons, sum_nil, share_of_ne outside]
    omega
  | some old =>
    have total := sum_replace (f := share poolId metric) holds.unique found
    have counted : 0 ≤ share poolId metric old :=
      share_nonneg (holds.nonneg old (mem_of_find?_eq_some found))
    rw [share_of_ne outside] at total
    show ((replace LimitRow.key db.limits row).map (share poolId metric)).sum ≤ _
    omega

theorem mem_upsert_limit {other : LimitRow} (member : other ∈ upsert LimitRow.key db.limits row fun _ => row) :
    other = row ∨ other ∈ db.limits := by
  unfold upsert at member
  split at member
  · exact mem_replace member
  · rw [mem_append, mem_singleton] at member
    exact member.symm

variable {scopeId periodType : String} {maxAmount : Int64}

theorem setLimit_holds {homeSiteId : String} (holds : db.PoolsHold)
    (done : db.budgetSetLimitScoped scopeId metric maxAmount periodType homeSiteId poolId = .ok db') :
    db'.PoolsHold := by
  obtain ⟨row, _, rfl, rfl, nonneg, rfl, enforced⟩ := setLimit_eq_ok done
  refine ⟨nodup_upsert holds.unique row, ?_, holds.named, ?_⟩
  · intro other member
    rcases mem_upsert_limit member with rfl | old
    · rw [Int64.le_iff_toInt_le] at nonneg
      exact nonneg
    · exact holds.nonneg other old
  · intro poolId metric pool found
    by_cases inside : row.poolId = poolId ∧ row.metric = metric
    · obtain ⟨rfl, rfl⟩ := inside
      apply poolSum_of_enforced _ found
      apply enforced
      -- A ceiling is never set for the empty pool id.
      intro unpooled
      rw [unpooled] at found
      have := (holds.named row.metric).symm.trans found
      cases this
    · exact Int.le_trans (poolSum_upsert_le holds inside) (holds.held poolId metric pool found)

theorem setPoolCeiling_holds (holds : db.PoolsHold)
    (done : db.budgetSetPoolCeiling poolId metric maxAmount periodType = .ok db') : db'.PoolsHold := by
  obtain ⟨row, keyed, named, rfl, enforced⟩ := setPoolCeiling_eq_ok done
  have lookup : ∀ key, find Pool.key (upsert Pool.key db.pools row fun _ => row) key =
      if key = (poolId, metric) then some row else find Pool.key db.pools key := by
    intro key
    rw [find_upsert (fun _ _ => rfl), keyed]
    split
    · cases find Pool.key db.pools key with
      | none => rfl
      | some old => rfl
    · rfl
  refine ⟨holds.unique, holds.nonneg, ?_, ?_⟩
  · intro metric'
    have other : ("", metric') ≠ (poolId, metric) := by
      intro same
      exact named (Prod.mk.inj same).1.symm
    exact (lookup _).trans ((if_neg other).trans (holds.named metric'))
  · intro poolId' metric' pool found
    by_cases same : (poolId', metric') = (poolId, metric)
    · obtain ⟨rfl, rfl⟩ := Prod.mk.inj same
      exact poolSum_of_enforced enforced found
    · have kept := (lookup (poolId', metric')).symm.trans found
      rw [if_neg same] at kept
      exact holds.held poolId' metric' pool kept

/-- What the source has used is not negative, and the target's new limit is an `i64`. -/
def TransferFits (db : BudgetDb) (call : Transfer) : Prop :=
  ∀ source target used, db.loadLimitRow call.fromScopeId call.metric = some source →
    db.loadLimitRow call.toScopeId call.metric = some target →
    db.used call.fromScopeId call.metric (periodStartMs source.periodType call.nowMs) = .ok used →
    0 ≤ used.toInt ∧ target.maxAmount.toInt + call.amount.toInt < 2 ^ 63

variable {scope : String}

theorem key_of_loaded (loaded : db.loadLimitRow scope metric = some row) : row.key = (scope, metric) :=
  key_of_find loaded

theorem loadLimitRow_setMaxAmount (loaded : db.loadLimitRow scope metric = some row)
    (maxAmount : Int64) (scope' metric' : String) : (db.setMaxAmount row maxAmount).loadLimitRow scope' metric' =
      if (scope', metric') = (scope, metric) then some { row with maxAmount }
      else db.loadLimitRow scope' metric' := by
  have keyed : LimitRow.key { row with maxAmount } = (scope, metric) := by
    rw [← key_of_loaded loaded]
    rfl
  unfold loadLimitRow setMaxAmount
  by_cases same : (scope', metric') = (scope, metric)
  · have present : (find LimitRow.key db.limits (LimitRow.key { row with maxAmount })).isSome := by
      rw [keyed]
      exact isSome_iff_exists.mpr ⟨row, loaded⟩
    rw [if_pos same, same, ← keyed]
    exact find_replace_self present
  · rw [if_neg same]
    apply find_replace_of_ne
    rw [keyed]
    exact same

theorem setMaxAmount_unique (unique : (db.limits.map LimitRow.key).Nodup) :
    ((db.setMaxAmount row maxAmount).limits.map LimitRow.key).Nodup := by
  unfold setMaxAmount
  rw [keys_replace]
  exact unique

theorem poolSum_setMaxAmount (unique : (db.limits.map LimitRow.key).Nodup)
    (loaded : db.loadLimitRow scope metric = some row) (maxAmount : Int64) (pool metric' : String) :
    (db.setMaxAmount row maxAmount).poolSum pool metric' + share pool metric' row =
      db.poolSum pool metric' + share pool metric' { row with maxAmount } := by
  have keyed : LimitRow.key { row with maxAmount } = (scope, metric) := by
    rw [← key_of_loaded loaded]
    rfl
  apply sum_replace unique
  rw [keyed]
  exact loaded

theorem nonneg_of_loaded (holds : db.PoolsHold)
    (loaded : db.loadLimitRow scope metric = some row) : 0 ≤ row.maxAmount.toInt :=
  holds.nonneg row (mem_of_find?_eq_some loaded)

section
variable (moved : Moved call source target used record db db')
include moved

theorem Moved.amounts (holds : db.PoolsHold) (fits : db.TransferFits call) (positive : 0 < call.amount) :
    (source.maxAmount - call.amount).toInt = source.maxAmount.toInt - call.amount.toInt ∧
    (target.maxAmount + call.amount).toInt = target.maxAmount.toInt + call.amount.toInt ∧
    used.toInt ≤ source.maxAmount.toInt - call.amount.toInt ∧ 0 ≤ used.toInt ∧ 0 ≤ call.amount.toInt := by
  obtain ⟨usedNonneg, high⟩ := fits source target used moved.loaded moved.loadedTo moved.read
  have sourceNonneg := nonneg_of_loaded holds moved.loaded
  have targetNonneg := nonneg_of_loaded holds moved.loadedTo
  have sourceSmall := source.maxAmount.toInt_lt
  have usedSmall := used.toInt_lt
  have available := Int64.le_iff_toInt_le.mp moved.available
  rw [SqlNumber.toInt_sub_of_fits (by omega) (by omega)] at available
  rw [Int64.lt_iff_toInt_lt, Int64.toInt_zero] at positive
  refine ⟨SqlNumber.toInt_sub_of_fits (by omega) (by omega),
    SqlNumber.toInt_add_of_fits (by omega) high, by omega, usedNonneg, by omega⟩

theorem Moved.limits (distinct : call.fromScopeId ≠ call.toScopeId) :
    db'.loadLimitRow call.fromScopeId call.metric = some { source with maxAmount := source.maxAmount - call.amount } ∧
    db'.loadLimitRow call.toScopeId call.metric =
      some { target with maxAmount := target.maxAmount + call.amount } := by
  have differ : (call.fromScopeId, call.metric) ≠ (call.toScopeId, call.metric) := by
    intro same
    exact distinct (Prod.mk.inj same).1
  have loadedTo := loadLimitRow_setMaxAmount moved.loaded (source.maxAmount - call.amount) call.toScopeId call.metric
  rw [if_neg differ.symm, moved.loadedTo] at loadedTo
  rw [moved.moved]
  constructor
  · have first := loadLimitRow_setMaxAmount loadedTo (target.maxAmount + call.amount)
      call.fromScopeId call.metric
    rw [if_neg differ, loadLimitRow_setMaxAmount moved.loaded, if_pos rfl] at first
    exact first
  · have second := loadLimitRow_setMaxAmount loadedTo (target.maxAmount + call.amount)
      call.toScopeId call.metric
    rw [if_pos rfl] at second
    exact second

theorem Moved.poolSum_other (holds : db.PoolsHold) (distinct : call.fromScopeId ≠ call.toScopeId)
    (other : ¬ (source.poolId = poolId ∧ call.metric = metric)) :
    db'.poolSum poolId metric = db.poolSum poolId metric := by
  have keyedFrom : source.metric = call.metric := (Prod.mk.inj (key_of_loaded moved.loaded)).2
  have keyedTo : target.metric = call.metric := (Prod.mk.inj (key_of_loaded moved.loadedTo)).2
  have outsideFrom : ∀ maxAmount, share poolId metric { source with maxAmount } = 0 := by
    intro maxAmount
    apply share_of_ne
    rw [← keyedFrom] at other
    exact other
  have outsideTo : ∀ maxAmount, share poolId metric { target with maxAmount } = 0 := by
    intro maxAmount
    apply share_of_ne
    rw [← keyedTo, ← moved.samePool] at other
    exact other
  have differ : (call.toScopeId, call.metric) ≠ (call.fromScopeId, call.metric) := by
    intro same
    exact distinct (Prod.mk.inj same).1.symm
  have loadedTo := loadLimitRow_setMaxAmount moved.loaded (source.maxAmount - call.amount) call.toScopeId call.metric
  rw [if_neg differ, moved.loadedTo] at loadedTo
  have first := poolSum_setMaxAmount holds.unique moved.loaded (source.maxAmount - call.amount) poolId metric
  have second := poolSum_setMaxAmount (setMaxAmount_unique holds.unique) loadedTo
    (target.maxAmount + call.amount) poolId metric
  rw [outsideFrom (source.maxAmount - call.amount)] at first
  rw [outsideTo (target.maxAmount + call.amount)] at second
  have sourceOut : share poolId metric source = 0 := outsideFrom source.maxAmount
  have targetOut : share poolId metric target = 0 := outsideTo target.maxAmount
  rw [moved.moved]
  show ((db.setMaxAmount source _).setMaxAmount target _).poolSum poolId metric = _
  omega

theorem Moved.holds (holds : db.PoolsHold) (distinct : call.fromScopeId ≠ call.toScopeId) (positive : 0 < call.amount)
    (fits : db.TransferFits call) : db'.PoolsHold := by
  obtain ⟨lowered, raised, covered, usedNonneg, amountNonneg⟩ := moved.amounts holds fits positive
  have targetNonneg := nonneg_of_loaded holds moved.loadedTo
  have kept : ∀ poolId metric, ¬ (source.poolId = poolId ∧ call.metric = metric) →
      db'.poolSum poolId metric = db.poolSum poolId metric :=
    fun _ _ => moved.poolSum_other holds distinct
  have enforced := moved.enforced
  have shape := moved.moved
  subst shape
  refine ⟨?_, ?_, holds.named, ?_⟩
  · exact setMaxAmount_unique (setMaxAmount_unique holds.unique)
  · intro row member
    rcases mem_replace member with rfl | member
    · show 0 ≤ (target.maxAmount + call.amount).toInt
      omega
    · rcases mem_replace member with rfl | member
      · show 0 ≤ (source.maxAmount - call.amount).toInt
        omega
      · exact holds.nonneg row member
  · intro poolId metric pool found
    by_cases inside : source.poolId = poolId ∧ call.metric = metric
    · obtain ⟨rfl, rfl⟩ := inside
      exact poolSum_of_enforced enforced found
    · rw [kept poolId metric inside]
      exact holds.held poolId metric pool found

end

def Operation.Fits (db : BudgetDb) : Operation → Prop
  | .transfer call => db.TransferFits call
  | _ => True

variable {events : List UsageEvent} {charge : Charge} {nowMs : Int}

theorem Applied.holds
    (applied : Applied charge scopeId metric nowMs events db db') (holds : db.PoolsHold) : db'.PoolsHold :=
  holds.of_same applied.charged.rules.limits applied.charged.rules.pools

variable {op : Operation}

theorem perform_holds (holds : db.PoolsHold) (fits : op.Fits db)
    (done : db.perform op = .ok db') : db'.PoolsHold := by
  cases op with
  | reserve call =>
    rcases reserve_cases done with ⟨rfl, _⟩ | ⟨_, applied⟩
    · exact holds
    · exact applied.holds holds
  | adjust call => exact (adjust_applied done).holds holds
  | record call key =>
    obtain ⟨⟨counted, after⟩, recorded, rfl⟩ := map_eq_ok.mp done
    rcases record_cases recorded with ⟨_, applied⟩ | ⟨rfl, _⟩ | ⟨_, applied⟩
    · exact applied.holds holds
    · exact holds
    · exact applied.holds holds
  | setLimit scopeId metric maxAmount periodType homeSiteId poolId => exact setLimit_holds holds done
  | setWorkUnitDefault scopeId metric maxAmount periodType homeSiteId =>
    obtain ⟨defaults, rfl⟩ := setWorkUnitDefault_eq_ok done
    exact holds.of_same rfl rfl
  | clearWorkUnitDefault scopeId metric =>
    cases done
    exact holds.of_same rfl rfl
  | setPoolCeiling poolId metric maxAmount periodType => exact setPoolCeiling_holds holds done
  | transfer call =>
    obtain ⟨⟨record, after⟩, transferred, rfl⟩ := map_eq_ok.mp done
    rcases transfer_cases transferred with ⟨rfl, _⟩ | ⟨positive, distinct, _, source, target, used, moved⟩
    · exact holds
    · exact moved.holds holds distinct positive fits
  | refuseTransfer call reason =>
    obtain ⟨⟨record, after⟩, refused, rfl⟩ := map_eq_ok.mp done
    rcases refuse_cases refused with rfl | ⟨_, _, rfl⟩
    · exact holds
    · exact holds.of_same rfl rfl

theorem next_holds (holds : db.PoolsHold) (fits : op.Fits db) : (db.next op).PoolsHold := by
  cases done : db.perform op with
  | ok db' =>
    rw [next_of_ok done]
    exact perform_holds holds fits done
  | error message =>
    rw [next_of_error done]
    exact holds

theorem Applied.transfers (applied : Applied charge scopeId metric nowMs events db db') :
    ∃ more, db'.transfers = db.transfers ++ more :=
  ⟨[], by rw [applied.charged.rules.transfers, append_nil]⟩

theorem perform_transfers (done : db.perform op = .ok db') : ∃ more, db'.transfers = db.transfers ++ more := by
  have unchanged : ∃ more, db.transfers = db.transfers ++ more := ⟨[], (append_nil _).symm⟩
  cases op with
  | reserve call =>
    rcases reserve_cases done with ⟨rfl, _⟩ | ⟨_, applied⟩
    · exact unchanged
    · exact applied.transfers
  | adjust call => exact (adjust_applied done).transfers
  | record call key =>
    obtain ⟨⟨counted, after⟩, recorded, rfl⟩ := map_eq_ok.mp done
    rcases record_cases recorded with ⟨_, applied⟩ | ⟨rfl, _⟩ | ⟨_, applied⟩
    · exact applied.transfers
    · exact unchanged
    · exact applied.transfers
  | _ => exact (perform_quiet rfl done).2

theorem next_loadTransfer {id : String} (found : (db.loadTransfer id).isSome) :
    ((db.next op).loadTransfer id).isSome := by
  cases done : db.perform op with
  | error message =>
    rw [next_of_error done]
    exact found
  | ok db' =>
    obtain ⟨record, held⟩ := isSome_iff_exists.mp found
    obtain ⟨more, grown⟩ := perform_transfers done
    rw [next_of_ok done, loadTransfer, grown, find_append_of_some held]
    rfl

theorem next_transfer_of_recorded (found : (db.loadTransfer call.transferId).isSome) :
    db.next (.transfer call) = db := by
  cases done : db.perform (.transfer call) with
  | error message => exact next_of_error done
  | ok db' =>
    rw [next_of_ok done]
    obtain ⟨⟨record, after⟩, transferred, rfl⟩ := map_eq_ok.mp done
    rcases transfer_cases transferred with ⟨same, _⟩ | ⟨_, _, free, _⟩
    · exact same
    · rw [free] at found
      cases found

theorem next_transfer_recorded :
    db.next (.transfer call) = db ∨ ((db.next (.transfer call)).loadTransfer call.transferId).isSome := by
  cases done : db.perform (.transfer call) with
  | error message => exact .inl (next_of_error done)
  | ok db' =>
    rw [next_of_ok done]
    obtain ⟨⟨record, after⟩, transferred, rfl⟩ := map_eq_ok.mp done
    rcases transfer_cases transferred with ⟨same, _⟩ | ⟨_, _, free, source, target, used, moved⟩
    · exact .inl same
    · right
      have last : find BudgetTransferRecord.transferId (db.transfers ++ [record]) record.transferId =
          some record := by
        apply find_append_self
        rw [moved.named]
        exact free
      rw [moved.named] at last
      rw [moved.moved]
      exact isSome_iff_exists.mpr ⟨record, last⟩

theorem transferred_once {ops : List Operation} {i j : Nat} {first second : Transfer} (ordered : i < j)
    (atI : ops[i]? = some (.transfer first)) (atJ : ops[j]? = some (.transfer second))
    (sameId : second.transferId = first.transferId) :
    db.after ops (i + 1) = db.after ops i ∨ db.after ops (j + 1) = db.after ops j := by
  unfold after
  rw [Trace.after_succ atI, Trace.after_succ atJ]
  rcases next_transfer_recorded with same | found
  · exact .inl same
  · right
    have written : ((db.after ops (i + 1)).loadTransfer first.transferId).isSome := by
      unfold after
      rw [Trace.after_succ atI]
      exact found
    have held : ((db.after ops j).loadTransfer first.transferId).isSome :=
      Trace.persists (P := fun db : BudgetDb => (db.loadTransfer first.transferId).isSome)
        (fun _ op found => next_loadTransfer found) ordered written
    rw [← sameId] at held
    exact next_transfer_of_recorded held

def Conserves (db db' : BudgetDb) (call : Transfer) : Prop :=
  ∃ source target used source' target', db.loadLimitRow call.fromScopeId call.metric = some source ∧
    db.loadLimitRow call.toScopeId call.metric = some target ∧
    db'.loadLimitRow call.fromScopeId call.metric = some source' ∧
    db'.loadLimitRow call.toScopeId call.metric = some target' ∧
    db.used call.fromScopeId call.metric (periodStartMs source.periodType call.nowMs) = .ok used ∧
    source'.maxAmount.toInt = source.maxAmount.toInt - call.amount.toInt ∧
    source'.maxAmount.toInt + target'.maxAmount.toInt = source.maxAmount.toInt + target.maxAmount.toInt ∧
    used.toInt ≤ source'.maxAmount.toInt

theorem Moved.conserves (moved : Moved call source target used record db db') (holds : db.PoolsHold)
    (distinct : call.fromScopeId ≠ call.toScopeId) (positive : 0 < call.amount)
    (fits : db.TransferFits call) : Conserves db db' call := by
  obtain ⟨lowered, raised, covered, _, _⟩ := moved.amounts holds fits positive
  obtain ⟨limit, limitTo⟩ := moved.limits distinct
  refine ⟨source, target, used, _, _, moved.loaded, moved.loadedTo, limit, limitTo, moved.read, lowered, ?_, ?_⟩
  · show (source.maxAmount - call.amount).toInt + (target.maxAmount + call.amount).toInt = _
    omega
  · show used.toInt ≤ (source.maxAmount - call.amount).toInt
    omega

/-- In a run whose transfers fit, every pool stays within its ceiling, every transfer that is made
conserves the limits of its scopes, and an id moves its amount once. -/
theorem pools_conserved {ops : List Operation} (start : db.PoolsHold)
    (fits : ∀ n (op : Operation), ops[n]? = some op → op.Fits (db.after ops n)) :
    (∀ n poolId metric pool, find Pool.key (db.after ops n).pools (poolId, metric) = some pool →
      (db.after ops n).poolSum poolId metric ≤ pool.maxAmount.toInt) ∧
    (∀ n call record db', ops[n]? = some (.transfer call) →
      (db.after ops n).budgetTransferCapacity call = .ok (record, db') →
      (db' = db.after ops n ∧ (db.after ops n).loadTransfer call.transferId = some record) ∨
      Conserves (db.after ops n) db' call) ∧
    (∀ i j first second, i < j → ops[i]? = some (.transfer first) → ops[j]? = some (.transfer second) →
      second.transferId = first.transferId →
      db.after ops (i + 1) = db.after ops i ∨ db.after ops (j + 1) = db.after ops j) := by
  have holds : ∀ n, (db.after ops n).PoolsHold := by
    apply Trace.always start
    intro n op atN held
    exact next_holds held (fits n op atN)
  refine ⟨?_, ?_, ?_⟩
  · intro n
    exact (holds n).held
  · intro n call record db' atN done
    rcases transfer_cases done with ⟨same, found⟩ | ⟨positive, distinct, _, source, target, used, moved⟩
    · exact .inl ⟨same, found⟩
    · exact .inr (moved.conserves (holds n) distinct positive (fits n _ atN))
  · intro i j first second ordered atI atJ sameId
    exact transferred_once ordered atI atJ sameId

theorem transferFits_of_loaded (source target : LimitRow) (used : Int64)
    (loaded : db.loadLimitRow call.fromScopeId call.metric = some source)
    (loadedTo : db.loadLimitRow call.toScopeId call.metric = some target)
    (read : db.used call.fromScopeId call.metric (periodStartMs source.periodType call.nowMs) = .ok used)
    (nonneg : 0 ≤ used.toInt) (small : target.maxAmount.toInt + call.amount.toInt < 2 ^ 63) :
    db.TransferFits call := by
  intro source' target' used' loaded' loadedTo' read'
  obtain rfl := some.inj (loaded.symm.trans loaded')
  obtain rfl := some.inj (loadedTo.symm.trans loadedTo')
  obtain rfl := Except.ok.inj (read.symm.trans read')
  exact ⟨nonneg, small⟩

def pooledLimit (scope : String) (maxAmount : Int64) : LimitRow :=
  ⟨scope, "tokens", "global", maxAmount, "daily", "", "p"⟩

def setPooled (scope : String) (maxAmount : Int64) : Operation :=
  .setLimit scope "tokens" maxAmount "daily" "" "p"

def tenFromAToB : Transfer := ⟨"t", "tokens", "a", "b", 10, "root", 0⟩

def transferTwice : List Operation :=
  [.setPoolCeiling "p" "tokens" 30 "daily", setPooled "a" 10, setPooled "b" 20, .transfer tenFromAToB,
    .transfer tenFromAToB]

theorem transferTwice_fits (n : Nat) (op : Operation) (atN : transferTwice[n]? = some op) :
    op.Fits (empty.after transferTwice n) := by
  match n with
  | 0 | 1 | 2 =>
    cases atN
    trivial
  | 3 =>
    cases atN
    exact transferFits_of_loaded (pooledLimit "a" 10) (pooledLimit "b" 20) 0
      (by decide +kernel) (by decide +kernel) (by decide +kernel) (by decide +kernel) (by decide +kernel)
  | 4 =>
    cases atN
    exact transferFits_of_loaded (pooledLimit "a" 0) (pooledLimit "b" 30) 0
      (by decide +kernel) (by decide +kernel) (by decide +kernel) (by decide +kernel) (by decide +kernel)
  | _ + 5 => cases atN

theorem pools_conserved_transferTwice : (empty.after transferTwice 5).poolSum "p" "tokens" ≤ 30 ∧
    (empty.after transferTwice 4 = empty.after transferTwice 3 ∨
      empty.after transferTwice 5 = empty.after transferTwice 4) := by
  obtain ⟨within, _, once⟩ := pools_conserved poolsHold_empty transferTwice_fits
  refine ⟨within 5 "p" "tokens" ⟨"p", "tokens", 30, "daily"⟩ (by decide +kernel), ?_⟩
  exact once 3 4 tenFromAToB tenFromAToB (by omega) rfl rfl rfl

def transferToLargest : List Operation :=
  [setPooled "a" 10, setPooled "b" Int64.maxValue, .transfer tenFromAToB]

/-- The target's limit wraps to a negative one. -/
theorem transferToLargest_wraps : (empty.after transferToLargest 3).loadLimitRow "b" "tokens" =
      some (pooledLimit "b" (Int64.minValue + 9)) ∧
    ¬ Conserves (empty.after transferToLargest 2) (empty.after transferToLargest 3) tenFromAToB := by
  have wrapped : (empty.after transferToLargest 3).loadLimitRow "b" "tokens" =
      some (pooledLimit "b" (Int64.minValue + 9)) := by decide +kernel
  refine ⟨wrapped, ?_⟩
  rintro ⟨source, target, used, source', target', loaded, loadedTo, loaded', loadedTo', _, _, total, _⟩
  have before : (empty.after transferToLargest 2).loadLimitRow "a" "tokens" =
      some (pooledLimit "a" 10) := by decide +kernel
  have beforeTo : (empty.after transferToLargest 2).loadLimitRow "b" "tokens" =
      some (pooledLimit "b" Int64.maxValue) := by decide +kernel
  have after : (empty.after transferToLargest 3).loadLimitRow "a" "tokens" =
      some (pooledLimit "a" 0) := by decide +kernel
  obtain rfl := some.inj (loaded.symm.trans before)
  obtain rfl := some.inj (loadedTo.symm.trans beforeTo)
  obtain rfl := some.inj (loaded'.symm.trans after)
  obtain rfl := some.inj (loadedTo'.symm.trans wrapped)
  exact absurd total (by decide +kernel)

end SekaiChisei.Budget.BudgetDb
