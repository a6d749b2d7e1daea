import SekaiChisei.ObjectSecurity.Canonical
import SekaiChisei.ObjectSecurity.Store

/-! What writes keep true of the policy tables: their rows are those of the stored revisions, and an
active row points at a revision of its kind. -/

namespace SekaiChisei.ObjectSecurity
open Lib List

def Revision.SameKey (a b : Revision) : Prop :=
  a.nameSpace = b.nameSpace ∧ a.revisionDigest = b.revisionDigest

def ActivePolicyRow.SameKey (a b : ActivePolicyRow) : Prop :=
  a.nameSpace = b.nameSpace ∧ a.kind = b.kind

def Revision.Faithful (revision : Revision) : Prop :=
  revision.policy.prepare = .ok revision.policy ∧
    revision.policy.nameSpace = revision.nameSpace ∧ revision.policy.kind = revision.kind

structure ActivePolicyRow.Names (active : ActivePolicyRow) (revision : Revision) : Prop where
  nameSpace : revision.nameSpace = active.nameSpace
  digest : revision.revisionDigest = active.revisionDigest
  kind : revision.kind = active.kind
  loads : revision.policy.fromCanonicalInput = .ok revision.policy

namespace Store

structure Valid (store : Store) : Prop where
  rules : store.rules = store.revisions.flatMap fun revision => revision.ruleRows revision.policy
  predicates : store.predicates = store.revisions.flatMap fun revision => revision.predicateRows revision.policy
  distinct : store.revisions.Pairwise fun a b => ¬ a.SameKey b
  faithful : ∀ revision ∈ store.revisions, revision.Faithful
  active : ∀ active ∈ store.activePolicies, ∃ revision ∈ store.revisions, active.Names revision
  activeDistinct : store.activePolicies.Pairwise fun a b => ¬ a.SameKey b

theorem valid_empty : Store.empty.Valid where
  rules := rfl
  predicates := rfl
  distinct := .nil
  faithful := by simp [Store.empty]
  active := by simp [Store.empty]
  activeDistinct := .nil

variable {store : Store} {nameSpace digest : String}

theorem loadRevision_eq_none (missing : store.loadRevision nameSpace digest = none) :
    ∀ revision ∈ store.revisions, ¬ (revision.nameSpace = nameSpace ∧ revision.revisionDigest = digest) := by
  intro revision member same
  have := find?_eq_none.mp missing revision member
  simp [same] at this

variable {revision : Revision}

theorem loadRevision_some (found : store.loadRevision nameSpace digest = some revision) :
    revision ∈ store.revisions ∧ revision.nameSpace = nameSpace ∧ revision.revisionDigest = digest := by
  have same := find?_some found
  simp only [decide_eq_true_eq] at same
  exact ⟨mem_of_find?_eq_some found, same⟩

theorem Valid.insertRevision (valid : store.Valid)
    (fresh : store.loadRevision revision.nameSpace revision.revisionDigest = none)
    (faithful : revision.Faithful) : (store.insertRevision revision revision.policy).Valid where
  rules := by simp [Store.insertRevision, valid.rules]
  predicates := by simp [Store.insertRevision, valid.predicates]
  distinct := by
    refine pairwise_append.mpr ⟨valid.distinct, pairwise_singleton _ _, ?_⟩
    intro old member new isNew
    obtain rfl := mem_singleton.mp isNew
    exact loadRevision_eq_none fresh old member
  faithful := by
    intro old member
    rcases mem_appended.mp member with member | rfl
    · exact valid.faithful old member
    · exact faithful
  active := by
    intro active member
    obtain ⟨old, inside, names⟩ := valid.active active member
    exact ⟨old, mem_append_left _ inside, names⟩
  activeDistinct := valid.activeDistinct

theorem Valid.persistRequest (valid : store.Valid) (request : Request) : (store.persistRequest request).Valid :=
  ⟨valid.rules, valid.predicates, valid.distinct, valid.faithful, valid.active, valid.activeDistinct⟩

variable {policy : ObjectSecurityPolicy}

theorem fromCanonicalInput_isOk (fixed : policy.prepare = .ok policy) (loads : policy.fromCanonicalInput.isOk) :
    policy.fromCanonicalInput = .ok policy := by
  unfold ObjectSecurityPolicy.fromCanonicalInput at loads ⊢
  split at loads
  · cases loads
  · rename_i small
    rw [if_neg small, fixed]

theorem checkEntry_eq_ok (valid : store.Valid)
    {entry : String × String} (checked : store.checkEntry nameSpace entry = .ok ()) :
    ∃ revision ∈ store.revisions, ActivePolicyRow.Names ⟨nameSpace, entry.1, entry.2⟩ revision := by
  unfold checkEntry at checked
  cases found : store.loadRevision nameSpace entry.2 with
  | none => simp [found] at checked
  | some revision =>
    rw [found] at checked
    obtain ⟨passed, _⟩ := ite_error_eq_ok.mp checked
    rw [not_or, not_not, not_not] at passed
    obtain ⟨member, sameSpace, sameDigest⟩ := loadRevision_some found
    exact ⟨revision, member, sameSpace, sameDigest, passed.1,
      fromCanonicalInput_isOk (valid.faithful revision member).1 passed.2⟩

variable {activation : Activation}

theorem Valid.install (valid : store.Valid)
    (checked : activation.policies.entries.forM (store.checkEntry activation.nameSpace) = .ok ()) :
    (store.install activation).Valid where
  rules := valid.rules
  predicates := valid.predicates
  distinct := valid.distinct
  faithful := valid.faithful
  active := by
    intro active member
    rcases mem_append.mp member with old | new
    · exact valid.active active (mem_of_mem_filter old)
    · obtain ⟨entry, inside, rfl⟩ := mem_map.mp new
      exact checkEntry_eq_ok valid (forM_eq_ok.mp checked entry inside)
  activeDistinct := by
    refine pairwise_append.mpr ⟨valid.activeDistinct.filter _, ?_, ?_⟩
    · refine pairwise_map.mpr (activation.policies.sorted.imp ?_)
      intro a b less same
      exact less.ne same.2
    · intro old member new isNew same
      obtain ⟨entry, _, rfl⟩ := mem_map.mp isNew
      have other := of_mem_filter member
      simp [same.1] at other

variable {sha256 : String → String} {store' : Store} {actor key : String} {nowMs : Int}

theorem put_valid (valid : store.Valid)
    (run : store.putObjectSecurityPolicy sha256 policy actor key nowMs = .ok (store', revision)) : store'.Valid := by
  unfold putObjectSecurityPolicy at run
  obtain ⟨_, _, run⟩ := bind_eq_ok.mp run
  obtain ⟨prepared, isPrepared, run⟩ := bind_eq_ok.mp run
  obtain ⟨canonical, isCanonical, run⟩ := bind_eq_ok.mp run
  have fixed := ObjectSecurityPolicy.prepare_prepared isPrepared
  obtain rfl : canonical = prepared := Except.ok.inj (isCanonical.symm.trans fixed)
  obtain ⟨digest, _, run⟩ := bind_eq_ok.mp run
  obtain ⟨replayed, _, run⟩ := bind_eq_ok.mp run
  cases replayed with
  | some result =>
    cases run
    exact valid
  | none =>
    simp only [storePolicy] at run
    split at run
    · obtain ⟨_, run⟩ := ite_error_eq_ok.mp run
      cases run
      exact valid.persistRequest _
    · rename_i fresh
      cases run
      exact (valid.insertRevision fresh ⟨fixed, rfl, rfl⟩).persistRequest _

theorem activate_valid {policies : KindMap} (valid : store.Valid)
    (run : store.activateObjectSecurityPolicies sha256 nameSpace policies actor key nowMs =
      .ok (store', activation)) : store'.Valid := by
  unfold activateObjectSecurityPolicies at run
  obtain ⟨_, _, run⟩ := bind_eq_ok.mp run
  obtain ⟨_, run⟩ := ite_error_eq_ok.mp run
  obtain ⟨replayed, _, run⟩ := bind_eq_ok.mp run
  cases replayed with
  | some result =>
    cases run
    exact valid
  | none =>
    obtain ⟨_, run⟩ := ite_error_eq_ok.mp run
    obtain ⟨_, checked, run⟩ := bind_eq_ok.mp run
    cases run
    exact (valid.install checked).persistRequest _

theorem step_valid (valid : store.Valid) (step : Step sha256 store store') : store'.Valid := by
  cases step with
  | put run => exact put_valid valid run
  | activate run => exact activate_valid valid run
  | objects objects =>
    exact ⟨valid.rules, valid.predicates, valid.distinct, valid.faithful, valid.active, valid.activeDistinct⟩

theorem reachable_valid (reachable : Reachable sha256 store) : store.Valid := by
  induction reachable with
  | refl => exact valid_empty
  | tail _ step ih => exact step_valid ih step

end Store

end SekaiChisei.ObjectSecurity
