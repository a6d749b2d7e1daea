import SekaiChisei.Permits.Permit

/-! Delegation narrows: what a permit allows is within what each ancestor allows, and only the subject of what it is
bound to moves. -/

namespace SekaiChisei.Permits
open Lib List

structure Permit.Within (narrow wide : Permit) : Prop where
  notBeforeMs : wide.notBeforeMs ≤ narrow.notBeforeMs
  expiresAtMs : narrow.expiresAtMs ≤ wide.expiresAtMs
  maxInvocations : narrow.maxInvocations ≤ wide.maxInvocations
  budgetMicros : narrow.budgetMicros ≤ wide.budgetMicros
  volumeLimit : narrow.volumeLimit ≤ wide.volumeLimit
  blastRadiusLimit : narrow.blastRadiusLimit ≤ wide.blastRadiusLimit
  targetSelectors : narrow.targetSelectors ⊆ wide.targetSelectors
  allowedEffects : narrow.allowedEffects ⊆ wide.allowedEffects

theorem Permit.Within.refl (permit : Permit) : permit.Within permit :=
  ⟨le_rfl, le_rfl, le_rfl, le_rfl, le_rfl, le_rfl, List.Subset.refl _, List.Subset.refl _⟩

theorem Permit.Within.trans {a b c : Permit} (first : a.Within b) (second : b.Within c) : a.Within c where
  notBeforeMs := second.notBeforeMs.trans first.notBeforeMs
  expiresAtMs := first.expiresAtMs.trans second.expiresAtMs
  maxInvocations := first.maxInvocations.trans second.maxInvocations
  budgetMicros := first.budgetMicros.trans second.budgetMicros
  volumeLimit := first.volumeLimit.trans second.volumeLimit
  blastRadiusLimit := first.blastRadiusLimit.trans second.blastRadiusLimit
  targetSelectors := List.Subset.trans first.targetSelectors second.targetSelectors
  allowedEffects := List.Subset.trans first.allowedEffects second.allowedEffects

structure Binding where
  (initiatingActor issuer keyId nameSpace operationId authorizationId requestDigest requestingHarness : String)
  (executor actionType parameterSchema canonicalArgumentsDigest : String)
  immutablePreconditions : List (String × String)
  (requiredHostCapabilities constraints : List String)
  (riskClass redemptionMode policyScope siteId : String)

def Permit.binding (permit : Permit) : Binding where
  initiatingActor := permit.initiatingActor
  issuer := permit.issuer
  keyId := permit.keyId
  nameSpace := permit.nameSpace
  operationId := permit.operationId
  authorizationId := permit.authorizationId
  requestDigest := permit.requestDigest
  requestingHarness := permit.requestingHarness
  executor := permit.executor
  actionType := permit.actionType
  parameterSchema := permit.parameterSchema
  canonicalArgumentsDigest := permit.canonicalArgumentsDigest
  immutablePreconditions := permit.immutablePreconditions
  requiredHostCapabilities := permit.requiredHostCapabilities
  constraints := permit.constraints
  riskClass := permit.riskClass
  redemptionMode := permit.redemptionMode
  policyScope := permit.policyScope
  siteId := permit.siteId

variable {crypto : Crypto} {parent child root : Permit} {policy : ExternalPermitPolicy}
  {key : crypto.SigningKey} {input : Delegation}

theorem delegate_eq_ok : delegate crypto parent policy key input = .ok child ↔
    parent.verifySignature crypto (crypto.verifyingKey key) = .ok () ∧
      parent.redemptionMode = redemptionMode ∧ input.delegator ∈ policy.permittedDelegators ∧
      input.delegator = parent.subjectActor ∧
      (policy.maxDelegationDepth ≠ 0 ∧ parent.nextDepth ≤ policy.maxDelegationDepth) ∧
      parent.Encloses input ∧ child = (parent.child input).sign crypto key := by
  unfold delegate
  rw [check_eq_ok]
  simp only [ite_error_eq_ok, Except.ok.injEq, not_not, not_or, not_lt, eq_comm (b := child)]

structure Delegates (parent child : Permit) (policy : ExternalPermitPolicy) : Prop where
  within : child.Within parent
  binding : child.binding = parent.binding
  online : parent.redemptionMode = redemptionMode
  depth : child.delegationDepth = parent.nextDepth
  depthAllowed : child.delegationDepth ≤ policy.maxDelegationDepth
  parentPermitId : child.parentPermitId = parent.permitId
  parentChain : child.parentChain = parent.parentChain ++ [parent.permitId]

theorem delegates_of_delegate (made : delegate crypto parent policy key input = .ok child) :
    Delegates parent child policy := by
  obtain ⟨_, online, _, _, ⟨_, shallow⟩, encloses, rfl⟩ := delegate_eq_ok.mp made
  obtain ⟨begun, _, ends, _, _, invocations, budget, volume, radius, _, targets, effects⟩ := encloses
  have within : ((parent.child input).sign crypto key).Within parent :=
    ⟨begun, ends, invocations, budget, volume, radius, targets, effects⟩
  exact ⟨within, rfl, online, rfl, shallow, rfl, rfl⟩

/-- Under the bounds of a stored policy the depth does not saturate. -/
theorem Delegates.depth_eq (link : Delegates parent child policy) (accepted : policy.Accepted) :
    child.delegationDepth = parent.delegationDepth + 1 := by
  have allowed := link.depthAllowed
  have bound := accepted.2.1
  rw [link.depth] at allowed ⊢
  unfold Permit.nextDepth u32Max at *
  omega

def IssuedRoot (crypto : Crypto) (root : Permit) : Prop :=
  ∃ authorization key issuance, issue crypto authorization key issuance = .ok root ∨
    ∃ policy, issueOffline crypto authorization policy key issuance = .ok root

structure Link where
  permit : Permit
  policy : ExternalPermitPolicy

def chainPermits (root : Permit) (links : List Link) : List Permit :=
  links.map Link.permit ++ [root]

/-- A chain of delegations from an issued root, the newest first: each permit is delegated from the one
after it, under a policy that the store accepts. -/
inductive DelegationChain (crypto : Crypto) (root : Permit) : List Link → Prop
  | issued (made : IssuedRoot crypto root) : DelegationChain crypto root []
  | delegated {links : List Link} {parent child : Permit} {policy : ExternalPermitPolicy}
      {key : crypto.SigningKey} {input : Delegation} (chain : DelegationChain crypto root links)
      (newest : (chainPermits root links).head? = some parent) (accepted : policy.Accepted)
      (made : delegate crypto parent policy key input = .ok child) :
      DelegationChain crypto root (⟨child, policy⟩ :: links)

variable {authorization : AuthorizationRecord} {issuance : Issuance}

theorem issue_eq_ok (made : issue crypto authorization key issuance = .ok root) :
    ∃ siteId, root = (unsignedPermit authorization issuance siteId).sign crypto key := by
  simp only [issue, ite_error_eq_ok] at made
  obtain ⟨_, _, _, _, signed⟩ := made
  obtain ⟨siteId, _, final⟩ := bind_eq_ok.mp signed
  exact ⟨siteId, (Except.ok.inj final).symm⟩

theorem issueOffline_eq_ok (made : issueOffline crypto authorization policy key issuance = .ok root) :
    ∃ siteId, root = (((unsignedPermit authorization issuance siteId).sign crypto key).offline policy
      issuance.nowMs).sign crypto key := by
  simp only [issueOffline, ite_error_eq_ok] at made
  obtain ⟨_, _, signed⟩ := made
  obtain ⟨permit, online, final⟩ := bind_eq_ok.mp signed
  obtain ⟨siteId, rfl⟩ := issue_eq_ok online
  exact ⟨siteId, (Except.ok.inj final).symm⟩

structure Permit.IsRoot (permit : Permit) : Prop where
  delegationDepth : permit.delegationDepth = 0
  parentPermitId : permit.parentPermitId = ""
  parentChain : permit.parentChain = []

theorem IssuedRoot.isRoot (issued : IssuedRoot crypto root) : root.IsRoot := by
  obtain ⟨authorization, key, issuance, online | ⟨policy, offline⟩⟩ := issued
  · obtain ⟨siteId, rfl⟩ := issue_eq_ok online
    exact ⟨rfl, rfl, rfl⟩
  · obtain ⟨siteId, rfl⟩ := issueOffline_eq_ok offline
    exact ⟨rfl, rfl, rfl⟩

structure Newest (root permit : Permit) (links : List Link) : Prop where
  depth : permit.delegationDepth = links.length
  binding : permit.binding = root.binding
  within : ∀ ancestor ∈ chainPermits root links, permit.Within ancestor

theorem DelegationChain.newest {links : List Link} {permit : Permit} (chain : DelegationChain crypto root links)
    (first : (chainPermits root links).head? = some permit) : Newest root permit links := by
  induction chain generalizing permit with
  | issued made =>
    obtain rfl : root = permit := by simpa [chainPermits] using first
    refine ⟨made.isRoot.delegationDepth, rfl, ?_⟩
    intro ancestor member
    obtain rfl : ancestor = root := by simpa [chainPermits] using member
    exact Permit.Within.refl ancestor
  | @delegated links parent child policy key input chain newest accepted made ih =>
    obtain rfl : child = permit := by simpa [chainPermits] using first
    have link := delegates_of_delegate made
    have above := ih newest
    refine ⟨?_, link.binding.trans above.binding, ?_⟩
    · rw [link.depth_eq accepted, above.depth, length_cons]
    · intro ancestor member
      rcases mem_cons.mp member with rfl | older
      · exact Permit.Within.refl ancestor
      · exact link.within.trans (above.within ancestor older)

/-- Along a chain of delegations every permit is within each of its ancestors and bound to what the root is, at a
depth that is its distance and that its policy allows. -/
theorem delegation_attenuates (crypto : Crypto) (root : Permit) (links : List Link)
    (chain : DelegationChain crypto root links) :
    (chainPermits root links).Pairwise (fun descendant ancestor => descendant.Within ancestor) ∧
      (∀ link ∈ links, link.permit.binding = root.binding) ∧
      ∀ distance link, links.reverse[distance]? = some link → link.permit.delegationDepth = distance + 1 ∧
          link.permit.delegationDepth ≤ link.policy.maxDelegationDepth := by
  induction chain with
  | issued made => simp [chainPermits]
  | @delegated links parent child policy key input chain newest accepted made ih =>
    obtain ⟨within, bound, depths⟩ := ih
    have link := delegates_of_delegate made
    have above := (DelegationChain.delegated chain newest accepted made).newest rfl
    refine ⟨?_, ?_, ?_⟩
    · refine pairwise_cons.mpr ⟨?_, within⟩
      intro ancestor member
      exact above.within ancestor (mem_cons_of_mem _ member)
    · exact forall_mem_cons.mpr ⟨above.binding, bound⟩
    · intro distance other found
      rw [reverse_cons, getElem?_append] at found
      split at found
      · exact depths distance other found
      · rename_i past
        have position : distance = links.length := by
          have inside := (List.getElem?_eq_some_iff.mp found).1
          simp only [length_reverse, length_singleton] at past inside
          omega
        subst position
        obtain rfl : ⟨child, policy⟩ = other := by simpa using found
        exact ⟨above.depth, link.depthAllowed⟩

def sampleCrypto : Crypto where
  sha256 := fun _ => [1]
  SigningKey := Unit
  VerifyingKey := Unit
  verifyingKey := id
  asBytes := fun _ => [7]
  sign := fun _ message => List.replicate 64 (UInt8.ofNat message.length)
  verifyStrict := fun _ message signature =>
    signature = List.replicate 64 (UInt8.ofNat message.length)

def sampleRequest : ExternalActionRequest :=
  ⟨"op-1", "agent:test", "test", "harness:test", "executor:test", "repository.read/v1", "repository.read.params/v1",
    "sha256:args", ["project:test/README.md"], [("resource_version", "git:abc123")], "read", ["read_file"], 2, 10,
    1024, 1, ["exact_target_binding", "resource_version_check"]⟩

def sampleAuthorization : AuthorizationRecord :=
  ⟨sampleRequest, ⟨"auth-1", "sha256:request", "permit", "project:test", "sha256:policy", 10000, 0⟩, "", "agent:test"⟩

def sampleIssuance : Issuance := ⟨[], "issuer:test", "key-1", "permit-1", "nonce-1", 2000, "local"⟩

def samplePolicy : ExternalPermitPolicy := ⟨"project:test", [], 0, 0, ["agent:test", "agent:child"], 2⟩

def sampleDelegation : Delegation :=
  ⟨"agent:test", "agent:child", "permit-2", "nonce-2", 3000, 9000, ["project:test/README.md"], ["read_file"], 5, 512,
    1, 1, "read"⟩

def sampleRoot : Permit :=
  (unsignedPermit sampleAuthorization sampleIssuance "local").sign sampleCrypto ()

def sampleChild : Permit := (sampleRoot.child sampleDelegation).sign sampleCrypto ()

theorem sampleRoot_issued : issue sampleCrypto sampleAuthorization () sampleIssuance = .ok sampleRoot := by
  decide +kernel

theorem sampleChild_delegated :
    delegate sampleCrypto sampleRoot samplePolicy () sampleDelegation = .ok sampleChild := by
  decide +kernel

theorem sampleChain : DelegationChain sampleCrypto sampleRoot [⟨sampleChild, samplePolicy⟩] :=
  .delegated (.issued ⟨_, _, _, Or.inl sampleRoot_issued⟩) rfl (by decide +kernel) sampleChild_delegated

theorem delegation_attenuates_sample : DelegationChain sampleCrypto sampleRoot [⟨sampleChild, samplePolicy⟩] ∧
      sampleChild.delegationDepth = 1 ∧ sampleChild.executor = "executor:test" := by
  obtain ⟨_, bound, depths⟩ := delegation_attenuates sampleCrypto sampleRoot _ sampleChain
  have binding := bound _ mem_cons_self
  exact ⟨sampleChain, (depths 0 _ rfl).1, congrArg Binding.executor binding⟩

/-- The subject of a delegated permit is the delegatee, not the subject of its parent. -/
theorem sampleChild_subject : DelegationChain sampleCrypto sampleRoot [⟨sampleChild, samplePolicy⟩] ∧
      sampleChild.subjectActor ≠ sampleRoot.subjectActor :=
  ⟨sampleChain, by decide⟩

end SekaiChisei.Permits
