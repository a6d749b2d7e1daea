import SekaiChisei.Budget.Store

/-! What the operations on limits, pools and transfers do. -/

namespace SekaiChisei.Budget.BudgetDb
open Lib

variable {db db' : BudgetDb} {call : Transfer} {record : BudgetTransferRecord} {metric periodType : String}
variable {maxAmount : Int64} {homeSiteId scopeId poolId : String}

theorem setLimit_eq_ok
    (done : db.budgetSetLimitScoped scopeId metric maxAmount periodType homeSiteId poolId = .ok db') :
    ∃ row : LimitRow, row.key = (scopeId, metric) ∧ row.poolId = poolId ∧ row.metric = metric ∧ 0 ≤ row.maxAmount ∧
      db' = { db with limits := Table.upsert LimitRow.key db.limits row fun _ => row } ∧
      (poolId ≠ "" → db'.enforcePoolMemberSum poolId metric = .ok ()) := by
  obtain ⟨nonneg, rest⟩ := ite_error_eq_ok.mp done
  obtain ⟨enforced, last⟩ := check_eq_ok.mp rest
  cases last
  refine ⟨⟨scopeId, metric, parentScopeId scopeId, maxAmount, periodType, homeSiteId, poolId⟩, rfl, rfl,
    rfl, Int64.not_lt.mp nonneg, rfl, ?_⟩
  intro pooled
  rw [if_pos pooled] at enforced
  exact enforced

theorem setPoolCeiling_eq_ok (done : db.budgetSetPoolCeiling poolId metric maxAmount periodType = .ok db') :
    ∃ row : Pool, row.key = (poolId, metric) ∧ poolId ≠ "" ∧
      db' = { db with pools := Table.upsert Pool.key db.pools row fun _ => row } ∧
      db'.enforcePoolMemberSum poolId metric = .ok () := by
  obtain ⟨named, rest⟩ := ite_error_eq_ok.mp done
  obtain ⟨_, rest⟩ := ite_error_eq_ok.mp rest
  obtain ⟨enforced, last⟩ := check_eq_ok.mp rest
  cases last
  refine ⟨⟨poolId, metric, maxAmount, periodType⟩, rfl, ?_, rfl, enforced⟩
  intro blank
  subst blank
  exact named rfl

theorem setWorkUnitDefault_eq_ok
    (done : db.budgetSetWorkUnitDefault scopeId metric maxAmount periodType homeSiteId = .ok db') :
    ∃ defaults, db' = { db with workUnitDefaults := defaults } := by
  obtain ⟨_, last⟩ := ite_error_eq_ok.mp done
  cases last
  exact ⟨_, rfl⟩

/-- `amount` moves from the limit of one scope to that of another scope of its pool. -/
structure Moved (call : Transfer) (source target : LimitRow) (used : Int64) (record : BudgetTransferRecord)
    (db db' : BudgetDb) : Prop where
  loaded : db.loadLimitRow call.fromScopeId call.metric = some source
  loadedTo : db.loadLimitRow call.toScopeId call.metric = some target
  pooled : source.poolId ≠ ""
  samePool : target.poolId = source.poolId
  read : db.used call.fromScopeId call.metric (periodStartMs source.periodType call.nowMs) = .ok used
  available : call.amount ≤ source.maxAmount - used
  enforced : db'.enforcePoolMemberSum source.poolId call.metric = .ok ()
  named : record.transferId = call.transferId
  moved : db' = { (db.setMaxAmount source (source.maxAmount - call.amount)).setMaxAmount target
    (target.maxAmount + call.amount) with transfers := db.transfers ++ [record] }

theorem loadLimitOr_eq_ok {scope missing : String} {row : LimitRow}
    (done : db.loadLimitOr scope metric missing = .ok row) : db.loadLimitRow scope metric = some row := by
  unfold loadLimitOr at done
  split at done
  · rename_i found
    cases done
    exact found
  · cases done

theorem moveCapacity_eq_ok (done : db.moveCapacity call = .ok (record, db')) :
    ∃ source target used, Moved call source target used record db db' := by
  obtain ⟨source, loaded, rest⟩ := bind_eq_ok.mp done
  obtain ⟨target, loadedTo, rest⟩ := bind_eq_ok.mp rest
  obtain ⟨pools, rest⟩ := ite_error_eq_ok.mp rest
  obtain ⟨used, read, rest⟩ := bind_eq_ok.mp rest
  obtain ⟨available, rest⟩ := ite_error_eq_ok.mp rest
  obtain ⟨enforced, last⟩ := check_eq_ok.mp rest
  cases last
  rw [not_or, not_not] at pools
  obtain ⟨pooled, samePool⟩ := pools
  exact ⟨source, target, used, loadLimitOr_eq_ok loaded, loadLimitOr_eq_ok loadedTo, pooled,
    samePool.symm, read, Int64.not_lt.mp available, enforced, rfl, rfl⟩

theorem transfer_cases (done : db.budgetTransferCapacity call = .ok (record, db')) :
    (db' = db ∧ db.loadTransfer call.transferId = some record) ∨
    (0 < call.amount ∧ call.fromScopeId ≠ call.toScopeId ∧ db.loadTransfer call.transferId = none ∧
      ∃ source target used, Moved call source target used record db db') := by
  obtain ⟨_, rest⟩ := ite_error_eq_ok.mp done
  obtain ⟨positive, rest⟩ := ite_error_eq_ok.mp rest
  obtain ⟨distinct, rest⟩ := ite_error_eq_ok.mp rest
  cases loaded : db.loadTransfer call.transferId with
  | some existing =>
    rw [loaded] at rest
    obtain ⟨same, replayed, last⟩ := bind_eq_ok.mp rest
    cases last
    obtain ⟨_, replayed⟩ := ite_error_eq_ok.mp replayed
    obtain ⟨_, replayed⟩ := ite_error_eq_ok.mp replayed
    cases replayed
    exact .inl ⟨rfl, rfl⟩
  | none =>
    rw [loaded] at rest
    exact .inr ⟨Int64.not_le.mp positive, distinct, rfl, moveCapacity_eq_ok rest⟩

theorem refuse_cases {reason : String} (done : db.budgetRecordTransferRefused call reason = .ok (record, db')) :
    db' = db ∨ (db.loadTransfer call.transferId = none ∧ record.transferId = call.transferId ∧
      db' = { db with transfers := db.transfers ++ [record] }) := by
  obtain ⟨_, rest⟩ := ite_error_eq_ok.mp done
  cases loaded : db.loadTransfer call.transferId with
  | some existing =>
    rw [loaded] at rest
    cases rest
    exact .inl rfl
  | none =>
    rw [loaded] at rest
    cases rest
    exact .inr ⟨rfl, rfl, rfl⟩

def Operation.charges : Operation → Bool
  | .reserve _ | .adjust _ | .record _ _ => true
  | _ => false

theorem perform_quiet {op : Operation} (quiet : op.charges = false) (done : db.perform op = .ok db') :
    db'.usage = db.usage ∧ ∃ more, db'.transfers = db.transfers ++ more := by
  have unchanged : ∃ more, db.transfers = db.transfers ++ more := ⟨[], (List.append_nil _).symm⟩
  cases op with
  | reserve | adjust | record => cases quiet
  | setLimit scopeId metric maxAmount periodType homeSiteId poolId =>
    obtain ⟨row, _, _, _, _, rfl, _⟩ := setLimit_eq_ok done
    exact ⟨rfl, unchanged⟩
  | setWorkUnitDefault scopeId metric maxAmount periodType homeSiteId =>
    obtain ⟨defaults, rfl⟩ := setWorkUnitDefault_eq_ok done
    exact ⟨rfl, unchanged⟩
  | clearWorkUnitDefault scopeId metric =>
    cases done
    exact ⟨rfl, unchanged⟩
  | setPoolCeiling poolId metric maxAmount periodType =>
    obtain ⟨row, _, _, rfl, _⟩ := setPoolCeiling_eq_ok done
    exact ⟨rfl, unchanged⟩
  | transfer call =>
    obtain ⟨⟨record, after⟩, transferred, rfl⟩ := map_eq_ok.mp done
    rcases transfer_cases transferred with ⟨rfl, _⟩ | ⟨_, _, _, source, target, used, moved⟩
    · exact ⟨rfl, unchanged⟩
    · rw [moved.moved]
      exact ⟨rfl, [record], rfl⟩
  | refuseTransfer call reason =>
    obtain ⟨⟨record, after⟩, refused, rfl⟩ := map_eq_ok.mp done
    rcases refuse_cases refused with rfl | ⟨_, _, rfl⟩
    · exact ⟨rfl, unchanged⟩
    · exact ⟨rfl, [record], rfl⟩

end SekaiChisei.Budget.BudgetDb
