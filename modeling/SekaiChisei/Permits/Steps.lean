import SekaiChisei.Permits.Attenuation
import SekaiChisei.Permits.Store

/-! What one call does to the permit tables: it issues a root, delegates from a stored permit, records
one redemption, or leaves permits and redemptions alone. -/

namespace SekaiChisei.Permits
open Lib List
variable {crypto : Crypto} {service : Service crypto} {db db' : PermitDb}

namespace PermitDb

variable {permit : Permit}

theorem requireDurable_eq_ok : db.requireDurable permit = .ok () ↔ db.storedPermit permit.permitId = some permit := by
  simp [requireDurable]

theorem requireNoChild_eq_ok : db.requireNoChild permit = .ok () ↔ db.delegatedChild permit.permitId = none := by
  simp [requireNoChild]

theorem requireUnrevoked_eq_ok :
    db.requireUnrevoked permit = .ok () ↔ db.revocation permit.revocationHandle = none := by
  unfold requireUnrevoked
  cases db.revocation permit.revocationHandle with
  | none => simp
  | some revocation => simp

structure Consumes (db : PermitDb) (permit : Permit) (row : Redemption) : Prop where
  stored : db.storedPermit permit.permitId = some permit
  chain : db.validateDelegationChain permit = .ok ()
  unrevoked : permit.isOffline = false → db.revocation permit.revocationHandle = none
  childless : db.delegatedChild permit.permitId = none
  available : db.redemptionCount permit.permitId < permit.maxInvocations
  permitId : row.permitId = permit.permitId
  unused : db.redemption permit.permitId row.idempotencyKey = none
  ordinal : row.invocationOrdinal = db.redemptionCount permit.permitId + 1

variable {row : Redemption}

theorem requireLiveOnline_unrevoked {authorization : AuthorizationRecord}
    (live : db.requireLiveOnline permit authorization = .ok ()) (online : permit.isOffline = false) :
    db.revocation permit.revocationHandle = none := by
  rw [requireLiveOnline, online] at live
  obtain ⟨_, rest⟩ := check_eq_ok.mp live
  obtain ⟨unrevoked, _⟩ := check_eq_ok.mp rest
  exact requireUnrevoked_eq_ok.mp unrevoked

variable {trustedKey : crypto.VerifyingKey} {args : RedeemArguments} {hostSiteId : String}

theorem consumeInvocation_eq_ok (stored : db.storedPermit args.permit.permitId = some args.permit)
    (chain : db.validateDelegationChain args.permit = .ok ())
    (unused : db.redemption args.permit.permitId args.idempotencyKey = none)
    (success : db.consumeInvocation crypto args trustedKey hostSiteId = .ok (row, db')) :
    db.Consumes args.permit row ∧ row.idempotencyKey = args.idempotencyKey ∧ row.executionId = args.executionId ∧
      db' = { db with redemptions := db.redemptions ++ [row] } := by
  obtain ⟨childless, success⟩ := check_eq_ok.mp success
  obtain ⟨_, success⟩ := check_eq_ok.mp success
  obtain ⟨_, success⟩ := check_eq_ok.mp success
  obtain ⟨authorization, _, success⟩ := bind_eq_ok.mp success
  obtain ⟨live, success⟩ := check_eq_ok.mp success
  obtain ⟨available, success⟩ := check_eq_ok.mp success
  obtain ⟨inserted, insertion, success⟩ := bind_eq_ok.mp success
  cases success
  have room : db.redemptionCount args.permit.permitId < args.permit.maxInvocations := by
    simpa [requireInvocations, ite_error_eq_ok] using available
  simp only [insertRedemption, ite_error_eq_ok, Except.ok.injEq] at insertion
  refine ⟨?_, rfl, rfl, insertion.2.2.symm⟩
  exact ⟨stored, chain, requireLiveOnline_unrevoked live, requireNoChild_eq_ok.mp childless, room, rfl, unused, rfl⟩

theorem replayed_eq_ok {existing found : Redemption} {executionId : String} :
    replayed existing executionId = .ok found ↔ existing.executionId = executionId ∧ existing = found := by
  rw [replayed, ite_error_eq_ok, Except.ok.injEq, not_not]

inductive Redeems (db : PermitDb) (args : RedeemArguments) : Redemption → PermitDb → Prop
  | replay {row : Redemption} (stored : db.storedPermit args.permit.permitId = some args.permit)
      (found : db.redemption args.permit.permitId args.idempotencyKey = some row)
      (execution : row.executionId = args.executionId) : Redeems db args row db
  | record {row : Redemption} (consumes : db.Consumes args.permit row)
      (key : row.idempotencyKey = args.idempotencyKey) (execution : row.executionId = args.executionId) :
      Redeems db args row { db with redemptions := db.redemptions ++ [row] }

theorem redeemOrReconcilePermit_eq_ok
    (success : db.redeemOrReconcilePermit crypto args trustedKey hostSiteId = .ok (row, db')) :
    db.Redeems args row db' := by
  obtain ⟨site, _, success⟩ := bind_eq_ok.mp success
  obtain ⟨_, success⟩ := check_eq_ok.mp success
  obtain ⟨_, success⟩ := check_eq_ok.mp success
  obtain ⟨chain, success⟩ := check_eq_ok.mp success
  obtain ⟨durable, success⟩ := check_eq_ok.mp success
  have stored := requireDurable_eq_ok.mp durable
  cases found : db.redemption args.permit.permitId args.idempotencyKey with
  | some existing =>
    simp only [found] at success
    obtain ⟨_, replay, same⟩ := map_eq_ok.mp success
    obtain ⟨execution, rfl⟩ := replayed_eq_ok.mp replay
    cases same
    exact .replay stored found execution
  | none =>
    simp only [found] at success
    obtain ⟨consumes, key, execution, rfl⟩ := consumeInvocation_eq_ok stored chain found success
    exact .record consumes key execution

end PermitDb

open PermitDb

variable {permit : Permit} {row : Redemption}

theorem replayRedemption_eq_ok {idempotencyKey executionId : String} :
    db.replayRedemption permit idempotencyKey executionId = .ok (some row) ↔
      db.storedPermit permit.permitId = some permit ∧
        db.redemption permit.permitId idempotencyKey = some row ∧ row.executionId = executionId := by
  rw [replayRedemption, check_eq_ok, requireDurable_eq_ok]
  cases found : db.redemption permit.permitId idempotencyKey with
  | none => simp
  | some existing =>
    simp only [map_eq_ok, replayed_eq_ok, Option.some.injEq]
    constructor
    · rintro ⟨stored, _, ⟨execution, rfl⟩, rfl⟩
      exact ⟨stored, rfl, execution⟩
    · rintro ⟨stored, rfl, execution⟩
      exact ⟨stored, _, ⟨execution, rfl⟩, rfl⟩

theorem redeemExternalActionPermit_eq_ok {request : RedeemRequest}
    (success : service.redeemExternalActionPermit db request = .ok (row, db')) : db.Redeems request.args row db' := by
  obtain ⟨_, success⟩ := check_eq_ok.mp success
  obtain ⟨replay, first, success⟩ := bind_eq_ok.mp success
  have read := mapError_eq_ok.mp first
  cases replay with
  | some found =>
    cases success
    obtain ⟨stored, recorded, execution⟩ := replayRedemption_eq_ok.mp read
    exact .replay stored recorded execution
  | none =>
    obtain ⟨key, _, success⟩ := bind_eq_ok.mp success
    obtain ⟨_, success⟩ := check_eq_ok.mp success
    exact redeemOrReconcilePermit_eq_ok (mapError_eq_ok.mp success)

theorem insertPermit_cases (key : String) : db.insertPermit permit key = db ∨
      db.insertPermit permit key = { db with permits := db.permits ++ [⟨key, permit⟩] } := by
  unfold insertPermit
  split
  · exact .inl rfl
  · exact .inr rfl

variable {request : IssueRequest} {op : Operation}

theorem signPermit_eq_ok {key : crypto.SigningKey} (signed : service.signPermit db request key = .ok permit) :
    IssuedRoot crypto permit ∧ permit.permitId = newPermitId request.uuid := by
  unfold Service.signPermit at signed
  split at signed
  · refine ⟨⟨_, _, _, Or.inr ⟨_, signed⟩⟩, ?_⟩
    obtain ⟨siteId, rfl⟩ := issueOffline_eq_ok signed
    rfl
  · refine ⟨⟨_, _, _, Or.inl signed⟩, ?_⟩
    obtain ⟨siteId, rfl⟩ := issue_eq_ok signed
    rfl

theorem issueExternalPermit_eq_ok (success : service.issueExternalPermit db request = .ok (permit, db')) :
    db' = db ∨ ∃ root key, IssuedRoot crypto root ∧ root.permitId = newPermitId request.uuid ∧
      db' = { db with permits := db.permits ++ [⟨key, root⟩] } := by
  obtain ⟨_, success⟩ := check_eq_ok.mp success
  obtain ⟨replay, _, success⟩ := bind_eq_ok.mp success
  cases replay with
  | some value =>
    obtain ⟨_, same⟩ := ite_error_eq_ok.mp success
    cases same
    exact .inl rfl
  | none =>
    obtain ⟨key, _, success⟩ := bind_eq_ok.mp success
    obtain ⟨root, signed, success⟩ := bind_eq_ok.mp success
    obtain ⟨issued, fresh⟩ := signPermit_eq_ok (mapError_eq_ok.mp signed)
    have put := mapError_eq_ok.mp success
    unfold putPermit at put
    split at put
    · cases put
    · obtain ⟨_, same⟩ := ite_error_eq_ok.mp put
      cases same
      rcases insertPermit_cases request.idempotencyKey with kept | stored
      · exact .inl kept
      · exact .inr ⟨root, _, issued, fresh, stored⟩

structure Delegated (crypto : Crypto) (db : PermitDb) (parent child : Permit) : Prop where
  stored : db.storedPermit parent.permitId = some parent
  made : ∃ key input, delegate crypto parent (db.getExternalPermitPolicy parent.policyScope) key input = .ok child
  unused : db.redemptionCount parent.permitId = 0
  childless : db.delegatedChild parent.permitId = none

theorem putDelegatedPermit_eq_ok {stored : Permit} (success : db.putDelegatedPermit permit = .ok (stored, db')) :
    db.redemptionCount permit.parentPermitId = 0 ∧ db.delegatedChild permit.parentPermitId = none ∧
      db' = { db with delegatedPermits := db.delegatedPermits ++ [permit] } := by
  obtain ⟨_, success⟩ := ite_error_eq_ok.mp success
  obtain ⟨_, success⟩ := check_eq_ok.mp success
  simp only [ite_error_eq_ok, Except.ok.injEq, Prod.mk.injEq, not_not] at success
  obtain ⟨unused, _, childless, _, same⟩ := success
  exact ⟨unused, Option.not_isSome_iff_eq_none.mp childless, same.symm⟩

theorem delegateExternalPermit_eq_ok {request : DelegateRequest}
    (success : service.delegateExternalPermit db request = .ok (permit, db')) :
    ∃ parent child, Delegated crypto db parent child ∧ child.permitId = newPermitId request.uuid ∧
      db' = { db with delegatedPermits := db.delegatedPermits ++ [child] } := by
  obtain ⟨_, success⟩ := check_eq_ok.mp success
  obtain ⟨key, _, success⟩ := bind_eq_ok.mp success
  obtain ⟨delegable, success⟩ := check_eq_ok.mp success
  obtain ⟨child, made, success⟩ := bind_eq_ok.mp success
  have made := mapError_eq_ok.mp made
  obtain ⟨unused, childless, same⟩ := putDelegatedPermit_eq_ok (mapError_eq_ok.mp success)
  have stored : db.storedPermit request.parent.permitId = some request.parent := by
    obtain ⟨_, rest⟩ := check_eq_ok.mp (mapError_eq_ok.mp delegable)
    obtain ⟨_, rest⟩ := check_eq_ok.mp rest
    obtain ⟨state, _⟩ := check_eq_ok.mp rest
    obtain ⟨state, _⟩ := check_eq_ok.mp state
    obtain ⟨_, rest⟩ := check_eq_ok.mp state
    exact requireDurable_eq_ok.mp (check_eq_ok.mp rest).1
  have link := delegates_of_delegate made
  rw [link.parentPermitId] at unused childless
  refine ⟨request.parent, child, ⟨stored, ⟨key, _, made⟩, unused, childless⟩, ?_, same⟩
  obtain ⟨_, _, _, _, _, _, rfl⟩ := delegate_eq_ok.mp made
  rfl

inductive Step (crypto : Crypto) (db : PermitDb) (op : Operation) : PermitDb → Prop
  | issued {root : Permit} {key : String} (made : IssuedRoot crypto root) (fresh : op.permitId = some root.permitId) :
      Step crypto db op { db with permits := db.permits ++ [⟨key, root⟩] }
  | delegated {parent child : Permit} (made : Delegated crypto db parent child)
      (fresh : op.permitId = some child.permitId) :
      Step crypto db op { db with delegatedPermits := db.delegatedPermits ++ [child] }
  | redeemed {permit : Permit} {row : Redemption} (consumes : db.Consumes permit row) :
      Step crypto db op { db with redemptions := db.redemptions ++ [row] }
  | other {db' : PermitDb} (permits : db'.permits = db.permits)
      (delegatedPermits : db'.delegatedPermits = db.delegatedPermits)
      (redemptions : db'.redemptions = db.redemptions)
      (revocations : db.revocations <+: db'.revocations)
      (policies : ∀ policy ∈ db'.policies, policy ∈ db.policies ∨ policy.Accepted) :
      Step crypto db op db'

theorem Step.unchanged : Step crypto db op db :=
  .other rfl rfl rfl (prefix_refl _) fun _ => .inl

theorem step_of_ok {answer : Answer}
    (success : service.perform db op = .ok (answer, db')) : Step crypto db op db' := by
  cases op with
  | issue request =>
    obtain ⟨⟨permit, after⟩, issued, same⟩ := map_eq_ok.mp success
    cases same
    rcases issueExternalPermit_eq_ok issued with rfl | ⟨root, key, made, fresh, rfl⟩
    · exact .unchanged
    · exact .issued made (congrArg some fresh.symm)
  | delegate request =>
    obtain ⟨⟨permit, after⟩, delegated, same⟩ := map_eq_ok.mp success
    cases same
    obtain ⟨parent, child, made, fresh, rfl⟩ := delegateExternalPermit_eq_ok delegated
    exact .delegated made (congrArg some fresh.symm)
  | redeem request =>
    obtain ⟨⟨row, after⟩, redeemed, same⟩ := map_eq_ok.mp success
    cases same
    cases redeemExternalActionPermit_eq_ok redeemed with
    | replay => exact .unchanged
    | record consumes _ _ => exact .redeemed consumes
  | revoke request =>
    obtain ⟨⟨changed, after⟩, revoked, same⟩ := map_eq_ok.mp success
    cases same
    obtain ⟨_, revoked⟩ := ite_error_eq_ok.mp revoked
    obtain ⟨_, revoked⟩ := ite_error_eq_ok.mp revoked
    have result := Except.ok.inj revoked
    unfold revokePermit at result
    split at result
    · cases result
      exact .unchanged
    · cases result
      exact .other rfl rfl rfl (prefix_append _ _) fun _ => .inl
  | setPolicy policy =>
    obtain ⟨after, stored, same⟩ := map_eq_ok.mp success
    cases same
    obtain ⟨accepted, stored⟩ := ite_error_eq_ok.mp (mapError_eq_ok.mp stored)
    cases stored
    refine .other rfl rfl rfl (prefix_refl _) ?_
    intro other member
    rcases Table.mem_upsert member with ⟨_, rfl⟩ | rfl | old
    · exact .inr (not_not.mp accepted)
    · exact .inr (not_not.mp accepted)
    · exact .inl old
  | setKillSwitch kind value enabled reason nowMs =>
    cases success
    cases enabled with
    | true | false => exact .other rfl rfl rfl (prefix_refl _) fun _ => .inl
  | putAuthorization record =>
    cases success
    exact .other rfl rfl rfl (prefix_refl _) fun _ => .inl

theorem next_step (service : Service crypto) (db : PermitDb) (op : Operation) :
    Step crypto db op (service.next db op) := by
  cases result : service.perform db op with
  | ok pair =>
    rw [service.next_of_ok result]
    exact step_of_ok result
  | error status =>
    rw [service.next_of_error result]
    exact .unchanged

end SekaiChisei.Permits
