import SekaiChisei.Permits.Steps

/-! The invariant of the permit tables: ids are unique, a delegated permit is the only child of an unredeemed parent,
and redemptions are numbered and no more than allowed. -/

namespace SekaiChisei.Permits
open Lib List
variable {crypto : Crypto} {service : Service crypto} {db db' : PermitDb} {op : Operation}

namespace PermitDb

variable {permitId : String} {permit : Permit}

theorem mem_of_storedPermit (stored : db.storedPermit permitId = some permit) : permit ∈ db.allPermits :=
  mem_of_find?_eq_some stored

theorem mem_issued {root : Permit} {key : String} :
    permit ∈ allPermits { db with permits := db.permits ++ [⟨key, root⟩] } ↔
      permit = root ∨ permit ∈ db.allPermits := by
  simp only [allPermits, map_append, map_singleton, mem_append, mem_singleton]
  tauto

theorem allPermits_delegated (db : PermitDb) (child : Permit) :
    { db with delegatedPermits := db.delegatedPermits ++ [child] }.allPermits = db.allPermits ++ [child] := by
  simp only [allPermits, append_assoc]

theorem redemptionCount_eq_zero :
    db.redemptionCount permitId = 0 ↔ ∀ row ∈ db.redemptions, row.permitId ≠ permitId := by
  simp [redemptionCount, redemptionsOf]

theorem redemptionsOf_append (row : Redemption) :
    { db with redemptions := db.redemptions ++ [row] }.redemptionsOf permitId =
      if row.permitId = permitId then db.redemptionsOf permitId ++ [row]
      else db.redemptionsOf permitId := by
  by_cases same : row.permitId = permitId
  · simp [redemptionsOf, same]
  · simp [redemptionsOf, same]

structure Sound (db : PermitDb) : Prop where
  ids : (db.allPermits.map Permit.permitId).Nodup
  roots : ∀ row ∈ db.permits, row.permit.IsRoot
  links : ∀ child ∈ db.delegatedPermits, ∃ parent ∈ db.allPermits, ∃ policy, Delegates parent child policy
  oneChild : (db.delegatedPermits.map Permit.parentPermitId).Nodup
  transferred : ∀ child ∈ db.delegatedPermits, db.redemptionCount child.parentPermitId = 0
  ceiling : ∀ permit ∈ db.allPermits, db.redemptionCount permit.permitId ≤ permit.maxInvocations
  keys : (db.redemptions.map Redemption.key).Nodup
  ordinals : ∀ permitId, (db.redemptionsOf permitId).map Redemption.invocationOrdinal =
    List.range' 1 (db.redemptionCount permitId)
  redeemed : ∀ row ∈ db.redemptions, ∃ permit ∈ db.allPermits, permit.permitId = row.permitId

theorem sound_empty : Sound .empty := by
  constructor <;> simp [empty, allPermits, redemptionsOf, redemptionCount]

def Unstored (db : PermitDb) (permitId : String) : Prop :=
  ∀ permit ∈ db.allPermits, permit.permitId ≠ permitId

namespace Sound

section
variable (sound : db.Sound)
include sound

variable {permit : Permit}

theorem storedPermit (member : permit ∈ db.allPermits) : db.storedPermit permit.permitId = some permit :=
  Table.find_of_mem sound.ids member

theorem unique {a b : Permit} (memberA : a ∈ db.allPermits)
    (memberB : b ∈ db.allPermits) (same : a.permitId = b.permitId) : a = b := by
  have first := sound.storedPermit memberA
  rw [same, sound.storedPermit memberB] at first
  exact (Option.some.inj first).symm

theorem unredeemed {permitId : String} (unstored : db.Unstored permitId) : db.redemptionCount permitId = 0 := by
  rw [redemptionCount_eq_zero]
  intro row member same
  obtain ⟨permit, stored, id⟩ := sound.redeemed row member
  exact unstored permit stored (id.trans same)

theorem issued {root : Permit} {key : String} (isRoot : root.IsRoot) (unstored : db.Unstored root.permitId) :
    Sound { db with permits := db.permits ++ [⟨key, root⟩] } := by
  refine ⟨?_, ?_, ?_, sound.oneChild, sound.transferred, ?_, sound.keys, sound.ordinals, ?_⟩
  · have fresh : root.permitId ∉ db.allPermits.map Permit.permitId := by
      simpa [Unstored] using unstored
    have together := nodup_cons.mpr ⟨fresh, sound.ids⟩
    simp only [allPermits, map_append, append_assoc] at together ⊢
    exact nodup_middle.mpr together
  · intro row member
    rcases mem_appended.mp member with old | rfl
    · exact sound.roots row old
    · exact isRoot
  · intro child member
    obtain ⟨parent, stored, link⟩ := sound.links child member
    exact ⟨parent, mem_issued.mpr (.inr stored), link⟩
  · intro permit member
    rcases mem_issued.mp member with rfl | old
    · show db.redemptionCount permit.permitId ≤ permit.maxInvocations
      rw [sound.unredeemed unstored]
      exact Nat.zero_le _
    · exact sound.ceiling permit old
  · intro row member
    obtain ⟨permit, stored, id⟩ := sound.redeemed row member
    exact ⟨permit, mem_issued.mpr (.inr stored), id⟩

theorem delegated {parent child : Permit} (made : Delegated crypto db parent child)
    (unstored : db.Unstored child.permitId) :
    Sound { db with delegatedPermits := db.delegatedPermits ++ [child] } := by
  have members := db.allPermits_delegated child
  obtain ⟨key, input, success⟩ := made.made
  have link := delegates_of_delegate success
  refine ⟨?_, sound.roots, ?_, ?_, ?_, ?_, sound.keys, sound.ordinals, ?_⟩
  · rw [members]
    apply Table.nodup_append _ sound.ids
    rw [Table.find_eq_none]
    simpa [Unstored] using unstored
  · intro other member
    rw [members]
    rcases mem_appended.mp member with old | rfl
    · obtain ⟨above, stored, its⟩ := sound.links other old
      exact ⟨above, mem_append_left _ stored, its⟩
    · exact ⟨parent, mem_append_left _ (mem_of_storedPermit made.stored), _, link⟩
  · apply Table.nodup_append _ sound.oneChild
    rw [link.parentPermitId]
    exact made.childless
  · intro other member
    rcases mem_appended.mp member with old | rfl
    · exact sound.transferred other old
    · rw [link.parentPermitId]
      exact made.unused
  · intro permit member
    rw [members] at member
    rcases mem_appended.mp member with old | rfl
    · exact sound.ceiling permit old
    · show db.redemptionCount permit.permitId ≤ permit.maxInvocations
      rw [sound.unredeemed unstored]
      exact Nat.zero_le _
  · intro row member
    obtain ⟨permit, stored, id⟩ := sound.redeemed row member
    rw [members]
    exact ⟨permit, mem_append_left _ stored, id⟩

theorem recorded {row : Redemption} (consumes : db.Consumes permit row) :
    Sound { db with redemptions := db.redemptions ++ [row] } := by
  have counts : ∀ permitId, { db with redemptions := db.redemptions ++ [row] }.redemptionCount permitId =
      if row.permitId = permitId then db.redemptionCount permitId + 1 else db.redemptionCount permitId := by
    intro permitId
    rw [redemptionCount, redemptionsOf_append]
    split
    · exact length_append
    · rfl
  refine ⟨sound.ids, sound.roots, sound.links, sound.oneChild, ?_, ?_, ?_, ?_, ?_⟩
  · intro child member
    have apart : row.permitId ≠ child.parentPermitId := by
      intro same
      have absent := Table.find_eq_none.mp consumes.childless
      rw [← consumes.permitId, same] at absent
      exact absent (mem_map_of_mem member)
    rw [counts, if_neg apart]
    exact sound.transferred child member
  · intro other member
    rw [counts]
    split
    · rename_i same
      have isPermit : other = permit :=
        sound.unique member (mem_of_storedPermit consumes.stored) (same.symm.trans consumes.permitId)
      rw [isPermit]
      exact consumes.available
    · exact sound.ceiling other member
  · apply Table.nodup_append _ sound.keys
    rw [Redemption.key, consumes.permitId]
    exact consumes.unused
  · intro permitId
    rw [counts, redemptionsOf_append]
    split
    · rename_i same
      rw [map_append, sound.ordinals, range'_concat, map_singleton, consumes.ordinal, ← consumes.permitId, same]
      simp [Nat.add_comm]
    · exact sound.ordinals permitId
  · intro other member
    rcases mem_appended.mp member with old | rfl
    · exact sound.redeemed other old
    · exact ⟨permit, mem_of_storedPermit consumes.stored, consumes.permitId.symm⟩

theorem congr (permits : db'.permits = db.permits) (delegatedPermits : db'.delegatedPermits = db.delegatedPermits)
    (redemptions : db'.redemptions = db.redemptions) : db'.Sound := by
  have all : db'.allPermits = db.allPermits := by rw [allPermits, permits, delegatedPermits, allPermits]
  have rows : ∀ permitId, db'.redemptionsOf permitId = db.redemptionsOf permitId := by
    intro permitId
    rw [redemptionsOf, redemptions, redemptionsOf]
  have counts : ∀ permitId, db'.redemptionCount permitId = db.redemptionCount permitId := by
    intro permitId
    rw [redemptionCount, rows, redemptionCount]
  constructor
  · rw [all]; exact sound.ids
  · rw [permits]; exact sound.roots
  · rw [delegatedPermits, all]; exact sound.links
  · rw [delegatedPermits]; exact sound.oneChild
  · simpa only [delegatedPermits, counts] using sound.transferred
  · simpa only [all, counts] using sound.ceiling
  · rw [redemptions]; exact sound.keys
  · simpa only [rows, counts] using sound.ordinals
  · rw [redemptions, all]; exact sound.redeemed

theorem step (unstored : ∀ permitId, op.permitId = some permitId → db.Unstored permitId)
    (step : Step crypto db op db') : db'.Sound := by
  cases step with
  | issued made fresh => exact sound.issued made.isRoot (unstored _ fresh)
  | delegated made fresh => exact sound.delegated made (unstored _ fresh)
  | redeemed consumes => exact sound.recorded consumes
  | other permits delegatedPermits redemptions _ _ =>
    exact sound.congr permits delegatedPermits redemptions

end

end Sound

end PermitDb

open PermitDb

variable {permit : Permit}

section
variable (step : Step crypto db op db')
include step

theorem Step.mem_allPermits (member : permit ∈ db'.allPermits) :
    permit ∈ db.allPermits ∨ op.permitId = some permit.permitId := by
  cases step with
  | issued made fresh =>
    rcases mem_issued.mp member with rfl | old
    · exact .inr fresh
    · exact .inl old
  | delegated made fresh =>
    rw [allPermits_delegated] at member
    rcases mem_appended.mp member with old | rfl
    · exact .inl old
    · exact .inr fresh
  | redeemed => exact .inl member
  | other permits delegatedPermits _ _ _ =>
    rw [allPermits, permits, delegatedPermits] at member
    exact .inl member

theorem Step.keeps_permit (member : permit ∈ db.allPermits) : permit ∈ db'.allPermits := by
  cases step with
  | issued => exact mem_issued.mpr (.inr member)
  | delegated =>
    rw [allPermits_delegated]
    exact mem_append_left _ member
  | redeemed => exact member
  | other permits delegatedPermits _ _ _ =>
    rw [allPermits, permits, delegatedPermits]
    exact member

theorem Step.keeps_redemption {row : Redemption} (member : row ∈ db.redemptions) : row ∈ db'.redemptions := by
  cases step with
  | issued | delegated => exact member
  | redeemed => exact mem_append_left _ member
  | other _ _ redemptions _ _ =>
    rw [redemptions]
    exact member

theorem Step.keeps_revocation {handle : String} (revoked : (db.revocation handle).isSome) :
    (db'.revocation handle).isSome := by
  cases step with
  | issued | delegated | redeemed => exact revoked
  | other _ _ _ revocations _ =>
    obtain ⟨more, grown⟩ := revocations
    obtain ⟨row, found⟩ := Option.isSome_iff_exists.mp revoked
    rw [revocation, ← grown, Table.find_append_of_some found]
    rfl

end

namespace Service
variable {ops : List Operation}

section
variable (service)

theorem permitId_drawn (ops : List Operation) (n : Nat) {permit : Permit}
    (member : permit ∈ (service.after ops n).allPermits) :
    permit.permitId ∈ (ops.take n).filterMap Operation.permitId := by
  induction n with
  | zero => cases member
  | succ n ih =>
    rw [take_add_one, filterMap_append, mem_append]
    rcases Trace.after_cases service.next PermitDb.empty ops n with same | ⟨op, atN, next⟩
    · rw [after, same] at member
      exact .inl (ih member)
    · rw [after, next] at member
      rcases (next_step service _ op).mem_allPermits member with old | drawn
      · exact .inl (ih old)
      · right
        simp [atN, drawn]

theorem unstored_of_fresh (fresh : FreshIds ops) {n : Nat}
    (atN : ops[n]? = some op) {permitId : String} (draws : op.permitId = some permitId) :
    (service.after ops n).Unstored permitId := by
  intro permit member same
  have drawn := service.permitId_drawn ops n member
  have split : ops = ops.take n ++ op :: ops.drop (n + 1) := by
    obtain ⟨inside, rfl⟩ := List.getElem?_eq_some_iff.mp atN
    rw [← drop_eq_getElem_cons inside, take_append_drop]
  rw [FreshIds, split, filterMap_append, filterMap_cons_some draws] at fresh
  have apart := (nodup_append.mp fresh).2.2 _ drawn _ mem_cons_self
  exact apart same

theorem sound_after (fresh : FreshIds ops) (n : Nat) : (service.after ops n).Sound := by
  apply Trace.always sound_empty
  intro n op atN sound
  apply sound.step _ (next_step service _ op)
  intro permitId draws
  exact service.unstored_of_fresh fresh atN draws

theorem after_succ {n : Nat} (atN : ops[n]? = some op) :
    service.after ops (n + 1) = service.next (service.after ops n) op :=
  Trace.after_succ atN

end

variable {i j : Nat}

section
variable (service : Service crypto) (later : i ≤ j)
include later

theorem permit_persists {permit : Permit} (member : permit ∈ (service.after ops i).allPermits) :
    permit ∈ (service.after ops j).allPermits :=
  Trace.persists (P := fun db => permit ∈ db.allPermits)
    (fun db op => (next_step service db op).keeps_permit) later member

end

end Service

structure Chained (crypto : Crypto) (db : PermitDb) : Prop where
  policies : ∀ policy ∈ db.policies, policy.Accepted
  chains : ∀ permit ∈ db.allPermits, ∃ root links, DelegationChain crypto root links ∧
    (chainPermits root links).head? = some permit ∧ chainPermits root links ⊆ db.allPermits

section
variable (chained : Chained crypto db)
include chained

theorem Chained.accepted {parent child : Permit} {key : crypto.SigningKey} {input : Delegation}
    (made : delegate crypto parent (db.getExternalPermitPolicy parent.policyScope) key input = .ok child) :
    (db.getExternalPermitPolicy parent.policyScope).Accepted := by
  obtain ⟨_, _, _, _, ⟨enabled, _⟩, _, _⟩ := delegate_eq_ok.mp made
  unfold getExternalPermitPolicy at enabled ⊢
  cases found : db.storedPolicy parent.policyScope with
  | none =>
    rw [found] at enabled
    exact absurd rfl enabled
  | some policy => exact chained.policies policy (mem_of_find?_eq_some found)

theorem Chained.chain_of_step (step : Step crypto db op db') (member : permit ∈ db'.allPermits) :
    ∃ root links, DelegationChain crypto root links ∧
      (chainPermits root links).head? = some permit ∧ chainPermits root links ⊆ db'.allPermits := by
  by_cases old : permit ∈ db.allPermits
  · obtain ⟨root, links, chain, first, stored⟩ := chained.chains permit old
    exact ⟨root, links, chain, first, fun _ inside => step.keeps_permit (stored inside)⟩
  · cases step with
    | @issued root key made _ =>
      obtain rfl : permit = root := (mem_issued.mp member).resolve_right old
      refine ⟨permit, [], .issued made, rfl, ?_⟩
      intro other inside
      rwa [mem_singleton.mp inside]
    | @delegated parent child made fresh =>
      obtain rfl : permit = child := by
        rw [allPermits_delegated] at member
        exact (mem_appended.mp member).resolve_left old
      obtain ⟨key, input, success⟩ := made.made
      have parentStored := mem_of_storedPermit made.stored
      obtain ⟨root, links, chain, first, stored⟩ := chained.chains parent parentStored
      refine ⟨root, _, .delegated chain first (chained.accepted success) success, rfl, ?_⟩
      intro other inside
      rcases mem_cons.mp inside with rfl | above
      · exact member
      · exact (Step.delegated made fresh).keeps_permit (stored above)
    | redeemed => exact absurd member old
    | other permits delegatedPermits _ _ _ =>
      rw [allPermits, permits, delegatedPermits] at member
      exact absurd member old

theorem Chained.step (step : Step crypto db op db') : Chained crypto db' := by
  refine ⟨?_, fun permit => chained.chain_of_step step⟩
  cases step with
  | issued | delegated | redeemed => exact chained.policies
  | other _ _ _ _ policies =>
    intro policy member
    rcases policies policy member with old | accepted
    · exact chained.policies policy old
    · exact accepted

end

/-- Every permit the service has stored ends a chain of delegations from an issued root. -/
theorem Service.chained_after (n : Nat) : Chained crypto (service.after ops n) := by
  apply Trace.always
  · exact ⟨by simp [PermitDb.empty], by simp [PermitDb.empty, allPermits]⟩
  · intro n op _ chained
    exact chained.step (next_step service _ op)

end SekaiChisei.Permits
