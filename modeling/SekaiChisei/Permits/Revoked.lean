import SekaiChisei.Permits.Ceiling

/-! Revocation is final and covers everything below: a redemption walks the chain of its permit up to
the root and finds the revoked handle, and handles stay revoked. -/

namespace SekaiChisei.Permits
open Lib List
variable {crypto : Crypto} {service : Service crypto} {db db' : PermitDb} {permit : Permit}
  {row : Redemption}

namespace PermitDb

theorem validateDelegationChain_parent (valid : db.validateDelegationChain permit = .ok ())
    {parentId : String} (above : parentId ∈ permit.parentChain) :
    ∃ parent, db.storedPermit parentId = some parent ∧ db.revocation parent.revocationHandle = none := by
  obtain ⟨_, valid⟩ := ite_error_eq_ok.mp valid
  obtain ⟨policy, _, links⟩ := bind_eq_ok.mp valid
  rw [← zipIdx_map_fst 0 permit.parentChain] at above
  obtain ⟨entry, member, rfl⟩ := mem_map.mp above
  have checked := forM_eq_ok.mp links entry member
  unfold checkParent at checked
  cases found : db.storedPermit entry.1 with
  | none => simp [found] at checked
  | some parent =>
    simp only [found, ite_error_eq_ok] at checked
    obtain ⟨_, _, unrevoked, _⟩ := checked
    exact ⟨parent, rfl, Option.not_isSome_iff_eq_none.mp unrevoked⟩

theorem Sound.mem_parentChain (sound : db.Sound) {rootId permitId : String}
    (below : db.Descends rootId permitId) (stored : permit ∈ db.allPermits)
    (id : permit.permitId = permitId) : rootId = permit.permitId ∨ rootId ∈ permit.parentChain := by
  induction below generalizing permit with
  | refl => exact .inl id.symm
  | tail _ last ih =>
    obtain ⟨child, delegated, parentId, childId⟩ := last
    have isChild : permit = child :=
      sound.unique stored (mem_append_right _ delegated) (id.trans childId.symm)
    obtain ⟨parent, parentStored, policy, link⟩ := sound.links child delegated
    subst isChild
    right
    rw [link.parentChain, mem_append, mem_singleton]
    rcases ih parentStored (link.parentPermitId.symm.trans parentId) with same | above
    · exact .inr same
    · exact .inl above

end PermitDb

open PermitDb

theorem Step.mem_redemptions {op : Operation} (step : Step crypto db op db')
    (member : row ∈ db'.redemptions) : row ∈ db.redemptions ∨ ∃ permit, db.Consumes permit row := by
  cases step with
  | issued | delegated => exact .inl member
  | redeemed consumes =>
    rcases mem_appended.mp member with old | rfl
    · exact .inl old
    · exact .inr ⟨_, consumes⟩
  | other _ _ redemptions _ _ =>
    rw [redemptions] at member
    exact .inl member

section Runs
variable {ops : List Operation} {i m n : Nat} {revoked redeemed : Permit}

/-- While a handle is revoked, no invocation is consumed of its permit or of one below it. The chain is
the one the permits have at `n`, whatever was stored at `m`. -/
theorem not_consumes_of_revoked (fresh : FreshIds ops) (since : i ≤ m) (before : m ≤ n)
    (stored : revoked ∈ (service.after ops n).allPermits)
    (handle : ((service.after ops i).revocation revoked.revocationHandle).isSome)
    (chain : revoked = redeemed ∨ revoked.permitId ∈ redeemed.parentChain)
    (online : redeemed.isOffline = false) : ¬ (service.after ops m).Consumes redeemed row := by
  intro consumes
  have still : ((service.after ops m).revocation revoked.revocationHandle).isSome :=
    Trace.persists (P := fun db => (db.revocation revoked.revocationHandle).isSome)
      (fun db op => (next_step service db op).keeps_revocation) since handle
  rcases chain with rfl | above
  · rw [consumes.unrevoked online] at still
    cases still
  · obtain ⟨parent, found, unrevoked⟩ := validateDelegationChain_parent consumes.chain above
    have parentStored := service.permit_persists before (mem_of_storedPermit found)
    have same : parent.permitId = revoked.permitId := Table.key_of_find found
    have isRevoked := (service.sound_after fresh n).unique parentStored stored same
    rw [isRevoked] at unrevoked
    rw [unrevoked] at still
    cases still

theorem recorded_before_revocation (fresh : FreshIds ops) (stored : revoked ∈ (service.after ops n).allPermits)
    (handle : ((service.after ops i).revocation revoked.revocationHandle).isSome)
    (redeemedStored : redeemed ∈ (service.after ops n).allPermits)
    (chain : revoked = redeemed ∨ revoked.permitId ∈ redeemed.parentChain)
    (online : redeemed.isOffline = false) (ofRedeemed : row.permitId = redeemed.permitId)
    (since : i ≤ m) (before : m ≤ n) (recorded : row ∈ (service.after ops m).redemptions) :
    row ∈ (service.after ops i).redemptions := by
  induction m, since using Nat.le_induction with
  | base => exact recorded
  | succ m since ih =>
    rcases Trace.after_cases service.next PermitDb.empty ops m with same | ⟨op, _, next⟩
    · rw [Service.after, same] at recorded
      exact ih (by omega) recorded
    · rw [Service.after, next] at recorded
      rcases (next_step service _ op).mem_redemptions recorded with old | ⟨permit, consumes⟩
      · exact ih (by omega) old
      · have isRedeemed : permit = redeemed := by
          have persists := service.permit_persists (show m ≤ n by omega) (mem_of_storedPermit consumes.stored)
          exact (service.sound_after fresh n).unique persists redeemedStored (consumes.permitId.symm.trans ofRedeemed)
        rw [isRedeemed] at consumes
        exact absurd consumes (not_consumes_of_revoked fresh since (by omega) stored handle chain online)

end Runs

/-- Once a permit is revoked, a redemption of it or of any permit below succeeds only as the replay of one recorded
before, and changes nothing. -/
theorem revocation_is_final (crypto : Crypto) (service : Service crypto) (ops : List Operation)
    (fresh : FreshIds ops) (i n : Nat) (later : i ≤ n) (revoked : Permit)
    (stored : revoked ∈ (service.after ops n).allPermits)
    (handle : ((service.after ops i).revocation revoked.revocationHandle).isSome) (request : RedeemRequest)
    (below : (service.after ops n).Descends revoked.permitId request.args.permit.permitId)
    (online : request.args.permit.isOffline = false) (row : Redemption) (db' : PermitDb)
    (success : service.perform (service.after ops n) (.redeem request) = .ok (.redemption row, db')) :
    row ∈ (service.after ops i).redemptions ∧ db' = service.after ops n := by
  have sound := service.sound_after fresh n
  obtain ⟨⟨found, result⟩, redeemed, same⟩ := map_eq_ok.mp success
  cases same
  have redeems := redeemExternalActionPermit_eq_ok redeemed
  obtain ⟨key, _, redeemedStored⟩ := redeems.key
  have chain : revoked = request.args.permit ∨ revoked.permitId ∈ request.args.permit.parentChain := by
    rcases sound.mem_parentChain below redeemedStored rfl with same | above
    · exact .inl (sound.unique stored redeemedStored same)
    · exact .inr above
  cases redeems with
  | replay _ existing _ =>
    have recorded := mem_of_find?_eq_some existing
    exact ⟨recorded_before_revocation fresh stored handle redeemedStored chain online
      (congrArg Prod.fst key) later le_rfl recorded, rfl⟩
  | record consumes _ _ =>
    exact absurd consumes (not_consumes_of_revoked fresh later le_rfl stored handle chain online)

def sampleRow : Redemption :=
  ⟨"external-action.redemption/v1", "permit-2", "redemption-3", "executor:test", "execution-1", "redeem-1", 4000, 1,
    9000, "local"⟩

theorem revocation_is_final_sample :
    ((sampleService.after sampleRun 8).revocation sampleRoot.revocationHandle).isSome ∧
      sampleService.perform (sampleService.after sampleRun 8) (.redeem (sampleRedeem "redeem-1")) =
        .ok (.redemption sampleRow, sampleService.after sampleRun 8) ∧
      sampleRow ∈ (sampleService.after sampleRun 8).redemptions := by
  have fresh : FreshIds sampleRun := by
    unfold FreshIds
    decide +kernel
  have stored : sampleRoot ∈ (sampleService.after sampleRun 8).allPermits := by decide +kernel
  have handle : ((sampleService.after sampleRun 8).revocation sampleRoot.revocationHandle).isSome := by
    decide +kernel
  have child : sampleChild ∈ (sampleService.after sampleRun 8).delegatedPermits := by decide +kernel
  have below : (sampleService.after sampleRun 8).Descends sampleRoot.permitId sampleChild.permitId :=
    .single ⟨sampleChild, child, rfl, rfl⟩
  have online : sampleChild.isOffline = false := by decide +kernel
  have success : sampleService.perform (sampleService.after sampleRun 8) (.redeem (sampleRedeem "redeem-1")) =
        .ok (.redemption sampleRow, sampleService.after sampleRun 8) := by decide +kernel
  have final := revocation_is_final sampleCrypto sampleService sampleRun fresh 8 8 le_rfl sampleRoot stored
    handle (sampleRedeem "redeem-1") below online sampleRow _ success
  exact ⟨handle, success, final.1⟩

end SekaiChisei.Permits
