import SekaiChisei.Permits.Ledger

/-! A root permit with everything delegated from it is redeemed no more often than the root allows: all redemptions are
of the one permit without a child. -/

namespace SekaiChisei.Permits
open Lib List Service
variable {crypto : Crypto} {service : Service crypto} {db : PermitDb}

namespace PermitDb

def ParentOf (db : PermitDb) (parentId childId : String) : Prop :=
  ∃ child ∈ db.delegatedPermits, child.parentPermitId = parentId ∧ child.permitId = childId

def Descends (db : PermitDb) : String → String → Prop := Relation.ReflTransGen db.ParentOf

open Classical in
noncomputable def familyRedemptions (db : PermitDb) (rootId : String) : List Redemption :=
  db.redemptions.filter fun row => db.Descends rootId row.permitId

namespace Sound

theorem parentOf_rightUnique (sound : db.Sound) : Relator.RightUnique db.ParentOf := by
  rintro parentId a b ⟨first, memberA, parentA, rfl⟩ ⟨second, memberB, parentB, rfl⟩
  have findA := Table.find_of_mem sound.oneChild memberA
  have findB := Table.find_of_mem sound.oneChild memberB
  rw [parentA] at findA
  rw [parentB, findA] at findB
  rw [Option.some.inj findB]

variable {row : Redemption}

theorem childless_of_redeemed (sound : db.Sound) (member : row ∈ db.redemptions)
    {childId : String} : ¬ db.ParentOf row.permitId childId := by
  rintro ⟨child, delegated, parent, _⟩
  have unused := sound.transferred child delegated
  rw [parent] at unused
  exact redemptionCount_eq_zero.mp unused row member rfl

variable {permitId : String}

variable (sound : db.Sound)
include sound

theorem descends_of_redeemed (member : row ∈ db.redemptions)
    (below : db.Descends row.permitId permitId) : row.permitId = permitId := by
  rcases below.cases_head with same | ⟨childId, child, _⟩
  · exact same
  · exact absurd child (sound.childless_of_redeemed member)

theorem one_redeemed {rootId : String} {a b : Redemption}
    (memberA : a ∈ db.redemptions) (memberB : b ∈ db.redemptions) (belowA : db.Descends rootId a.permitId)
    (belowB : db.Descends rootId b.permitId) : a.permitId = b.permitId := by
  rcases Relation.ReflTransGen.total_of_right_unique sound.parentOf_rightUnique belowA belowB with
    downward | upward
  · exact sound.descends_of_redeemed memberA downward
  · exact (sound.descends_of_redeemed memberB upward).symm

theorem within_of_descends {root permit : Permit} (rootStored : root ∈ db.allPermits)
    (below : db.Descends root.permitId permitId) (stored : permit ∈ db.allPermits)
    (id : permit.permitId = permitId) : permit.Within root := by
  induction below generalizing permit with
  | refl =>
    rw [sound.unique stored rootStored id]
    exact Permit.Within.refl root
  | tail _ last ih =>
    obtain ⟨child, delegated, parentId, childId⟩ := last
    have isChild : permit = child :=
      sound.unique stored (mem_append_right _ delegated) (id.trans childId.symm)
    obtain ⟨parent, parentStored, policy, link⟩ := sound.links child delegated
    subst isChild
    exact link.within.trans (ih parentStored (link.parentPermitId.symm.trans parentId))

theorem familyRedemptions_le {root : Permit} (stored : root ∈ db.allPermits) :
    (db.familyRedemptions root.permitId).length ≤ root.maxInvocations := by
  classical
  cases family : db.familyRedemptions root.permitId with
  | nil => exact Nat.zero_le _
  | cons first rest =>
    have inFamily : first ∈ db.familyRedemptions root.permitId := by
      rw [family]
      exact mem_cons_self
    have known := mem_filter.mp inFamily
    have member := known.1
    have below : db.Descends root.permitId first.permitId := of_decide_eq_true known.2
    obtain ⟨leaf, leafStored, leafId⟩ := sound.redeemed first member
    have single : (db.familyRedemptions root.permitId).length ≤ db.redemptionCount first.permitId := by
      rw [familyRedemptions, redemptionCount, redemptionsOf, ← countP_eq_length_filter, ← countP_eq_length_filter]
      apply countP_mono_left
      intro row recorded under
      rw [decide_eq_true_eq] at under ⊢
      exact sound.one_redeemed recorded member under below
    have narrower := (sound.within_of_descends stored below leafStored leafId).maxInvocations
    have bounded := sound.ceiling leaf leafStored
    rw [leafId] at bounded
    rw [← family]
    omega

end Sound

variable {args : RedeemArguments} {row : Redemption}

variable {db' : PermitDb} (redeems : db.Redeems args row db')
include redeems

theorem Redeems.mem : row ∈ db'.redemptions := by
  cases redeems with
  | replay _ found _ => exact mem_of_find?_eq_some found
  | record => exact mem_append_right _ mem_cons_self

theorem Redeems.key : row.key = (args.permit.permitId, args.idempotencyKey) ∧ row.executionId = args.executionId ∧
      args.permit ∈ db.allPermits := by
  cases redeems with
  | replay stored found execution => exact ⟨Table.key_of_find found, execution, mem_of_storedPermit stored⟩
  | record consumes key execution =>
    refine ⟨?_, execution, mem_of_storedPermit consumes.stored⟩
    rw [Redemption.key, consumes.permitId, key]

end PermitDb

open PermitDb

section Repeated
variable {request : RedeemRequest} {row : Redemption}

section
variable (sound : db.Sound)
  (recorded : row ∈ db.redemptions)
  (same : row.key = (request.args.permit.permitId, request.args.idempotencyKey))
include sound recorded same

/-- A key that is recorded is never recorded again, and what it returns is the record. -/
theorem perform_repeated {answer : Answer} {db' : PermitDb}
    (success : service.perform db (.redeem request) = .ok (answer, db')) : answer = .redemption row ∧ db' = db := by
  obtain ⟨⟨found, after⟩, redeemed, result⟩ := map_eq_ok.mp success
  cases result
  have lookup : db.redemption request.args.permit.permitId request.args.idempotencyKey = some row := by
    rw [redemption, ← same]
    exact Table.find_of_mem sound.keys recorded
  cases redeemExternalActionPermit_eq_ok redeemed with
  | replay _ existing _ =>
    rw [lookup] at existing
    cases existing
    exact ⟨rfl, rfl⟩
  | record consumes key _ =>
    have unused := consumes.unused
    rw [key, lookup] at unused
    cases unused

theorem perform_replay (execution : row.executionId = request.args.executionId)
    (stored : request.args.permit ∈ db.allPermits) (allowed : checkRedeemer request = .ok ()) :
    service.perform db (.redeem request) = .ok (.redemption row, db) := by
  have lookup : db.redemption request.args.permit.permitId request.args.idempotencyKey = some row := by
    rw [redemption, ← same]
    exact Table.find_of_mem sound.keys recorded
  have replay := replayRedemption_eq_ok.mpr ⟨sound.storedPermit stored, lookup, execution⟩
  have answered : service.redeemExternalActionPermit db request = .ok (row, db) := by
    rw [redeemExternalActionPermit, check_eq_ok]
    refine ⟨allowed, bind_eq_ok.mpr ⟨some row, mapError_eq_ok.mpr replay, rfl⟩⟩
  rw [perform, answered]
  rfl

end

end Repeated

variable {request : RedeemRequest}

theorem checkRedeemer_eq_ok : checkRedeemer request = .ok () ↔
      (trim request.args.idempotencyKey ≠ "" ∧ trim request.args.executionId ≠ "") ∧
        (request.actor = request.args.permit.executor ∨ isAdministrator request.actor) := by
  rw [checkRedeemer, ite_error_eq_ok, ite_error_eq_ok, not_or, not_and_or, not_not, not_not]
  exact ⟨fun ok => ⟨ok.1, ok.2.1⟩, fun ok => ⟨ok.1, ok.2, rfl⟩⟩

theorem redeemed_before {ops : List Operation} {i n : Nat} (earlier : i < n)
    (atI : ops[i]? = some (.redeem request)) {row : Redemption} {db' : PermitDb}
    (success : service.perform (service.after ops i) (.redeem request) = .ok (.redemption row, db')) :
    row ∈ (service.after ops n).redemptions ∧ request.args.permit ∈ (service.after ops n).allPermits ∧
      row.key = (request.args.permit.permitId, request.args.idempotencyKey) ∧
      row.executionId = request.args.executionId ∧ checkRedeemer request = .ok () := by
  obtain ⟨⟨found, after⟩, redeemed, result⟩ := map_eq_ok.mp success
  cases result
  have redeems := redeemExternalActionPermit_eq_ok redeemed
  obtain ⟨key, execution, stored⟩ := redeems.key
  have recorded : found ∈ (service.after ops (i + 1)).redemptions := by
    rw [service.after_succ atI, service.next_of_ok success]
    exact redeems.mem
  refine ⟨Trace.persists (P := fun db => found ∈ db.redemptions)
      (fun db op => (next_step service db op).keeps_redemption) earlier recorded,
    service.permit_persists (Nat.le_of_lt earlier) stored, key, execution, ?_⟩
  exact (check_eq_ok.mp redeemed).1

/-- In every run a root permit with all delegated from it is redeemed at most as often as the root allows, redemptions
are numbered in order, and a repeated idempotency key is answered as before. -/
theorem invocations_within_ceiling (crypto : Crypto) (service : Service crypto) (ops : List Operation)
    (fresh : FreshIds ops) (n : Nat) : (∀ issued ∈ (service.after ops n).permits,
      ((service.after ops n).familyRedemptions issued.permit.permitId).length ≤ issued.permit.maxInvocations) ∧
    (∀ permitId, ((service.after ops n).redemptionsOf permitId).map Redemption.invocationOrdinal =
      List.range' 1 ((service.after ops n).redemptionCount permitId)) ∧
    ∀ i request row db', i < n → ops[i]? = some (.redeem request) →
      service.perform (service.after ops i) (.redeem request) = .ok (.redemption row, db') →
      ∀ again : RedeemRequest, again.args.permit.permitId = request.args.permit.permitId →
        again.args.idempotencyKey = request.args.idempotencyKey →
        service.next (service.after ops n) (.redeem again) = service.after ops n ∧
        (∀ answer db'', service.perform (service.after ops n) (.redeem again) = .ok (answer, db'') →
          answer = .redemption row) ∧
        (again.args.permit = request.args.permit → again.args.executionId = request.args.executionId →
          (again.actor = again.args.permit.executor ∨ isAdministrator again.actor) →
          service.perform (service.after ops n) (.redeem again) = .ok (.redemption row, service.after ops n)) := by
  have sound := service.sound_after fresh n
  refine ⟨?_, sound.ordinals, ?_⟩
  · intro issued member
    exact sound.familyRedemptions_le (mem_append_left _ (mem_map_of_mem member))
  · intro i request row db' earlier atI success again samePermit sameKey
    obtain ⟨recorded, stored, key, execution, checked⟩ := redeemed_before earlier atI success
    rw [← samePermit, ← sameKey] at key
    refine ⟨?_, ?_, ?_⟩
    · cases result : service.perform (service.after ops n) (.redeem again) with
      | error status => exact service.next_of_error result
      | ok pair =>
        rw [service.next_of_ok result]
        exact (perform_repeated sound recorded key result).2
    · intro answer db'' result
      exact (perform_repeated sound recorded key result).1
    · intro permit sameExecution allowed
      obtain ⟨⟨keyed, executed⟩, _⟩ := checkRedeemer_eq_ok.mp checked
      rw [← sameKey] at keyed
      rw [← sameExecution] at executed execution
      rw [← permit] at stored
      exact perform_replay sound recorded key execution stored (checkRedeemer_eq_ok.mpr ⟨⟨keyed, executed⟩, allowed⟩)

def sampleService : Service sampleCrypto := ⟨.ok (), "issuer:test", "key-1", "local"⟩

def sampleContext : HostContext :=
  ⟨"executor:test", "harness:test", "sha256:args", ["project:test/README.md"], [("resource_version", "git:abc123")],
    ["exact_target_binding", "resource_version_check"]⟩

def sampleIssue : IssueRequest :=
  ⟨sampleAuthorization, "agent:test", "issue-1", false, .ok (), "1", "nonce-1", 2000⟩

def sampleDelegate : DelegateRequest :=
  ⟨"agent:test", sampleRoot, .ok (), "agent:child", "2", "nonce-2", 3000, 9000, ["project:test/README.md"],
    ["read_file"], 5, 512, 1, 1, "read"⟩

def sampleRedeem (idempotencyKey : String) : RedeemRequest :=
  ⟨"executor:test", ⟨sampleChild, sampleContext, idempotencyKey, "execution-1", ⟨0, 4000⟩, "3"⟩⟩

/-- A root is issued and delegated, and the child is redeemed, asked for again, and asked for once more
than it allows; then the root is revoked. -/
def sampleRun : List Operation :=
  [.putAuthorization sampleAuthorization, .setPolicy samplePolicy, .issue sampleIssue,
    .delegate sampleDelegate, .redeem (sampleRedeem "redeem-1"), .redeem (sampleRedeem "redeem-1"),
    .redeem (sampleRedeem "redeem-2"), .revoke ⟨"root", "revoke-auth-1", "incident", 5000⟩]

theorem invocations_within_ceiling_sample :
    FreshIds sampleRun ∧ (sampleService.after sampleRun 8).redemptionCount "permit-2" = 1 ∧
      ((sampleService.after sampleRun 8).familyRedemptions sampleRoot.permitId).length ≤ sampleRoot.maxInvocations ∧
      ((sampleService.after sampleRun 8).redemptionsOf "permit-2").map Redemption.invocationOrdinal = [1] := by
  have fresh : FreshIds sampleRun := by
    unfold FreshIds
    decide +kernel
  have count : (sampleService.after sampleRun 8).redemptionCount "permit-2" = 1 := by decide +kernel
  obtain ⟨ceiling, ordinals, _⟩ := invocations_within_ceiling sampleCrypto sampleService sampleRun fresh 8
  have stored : ⟨"issue-1", sampleRoot⟩ ∈ (sampleService.after sampleRun 8).permits := by decide +kernel
  have numbered := ordinals "permit-2"
  rw [count] at numbered
  exact ⟨fresh, count, ceiling ⟨"issue-1", sampleRoot⟩ stored, numbered⟩

end SekaiChisei.Permits
