import SekaiChisei.ObjectSecurity.Policy

/-! What `prepare` accepts and returns: a canonical form that it leaves alone, with the decisions
of the policy that was submitted. -/

namespace SekaiChisei.ObjectSecurity
open Lib Json

def ObjectSecurityPredicate.fields : ObjectSecurityPredicate → List (String × String)
  | allowAll => [("kind", "allow_all")]
  | subjectEqualsProperty property => [("kind", "subject_equals_property"), ("property", property)]
  | requiredScopeEquals value => [("kind", "required_scope_equals"), ("value", value)]
  | propertyEquals property value => [("kind", "property_equals"), ("property", property), ("value", value)]

namespace ObjectSecurityRule

structure Accepted (rule : ObjectSecurityRule) : Prop where
  nonempty : rule.predicates ≠ []
  bounded : rule.predicates.length ≤ maxPredicates
  valid : ∀ predicate ∈ rule.predicates, predicate.validate = .ok ()
  alone : .allowAll ∈ rule.predicates → rule.predicates.length = 1

def canonical (rule : ObjectSecurityRule) : ObjectSecurityRule :=
  { rule with predicates := dedup (sortByKey ObjectSecurityPredicate.key rule.predicates) }

theorem prepare_eq_ok (rule prepared : ObjectSecurityRule) :
    rule.prepare = .ok prepared ↔ rule.Accepted ∧ prepared = rule.canonical := by
  unfold prepare
  rw [ite_error_eq_ok, bind_eq_ok]
  constructor
  · rintro ⟨size, _, valid, rest⟩
    rw [ite_error_eq_ok] at rest
    obtain ⟨alone, rfl⟩ := rest.imp_right fun same => (Except.ok.inj same).symm
    rw [not_or] at size
    exact ⟨⟨size.1, by omega, forM_eq_ok.mp valid, fun member => by
      by_contra several
      exact alone ⟨member, several⟩⟩, rfl⟩
  · rintro ⟨accepted, rfl⟩
    refine ⟨?_, (), forM_eq_ok.mpr accepted.valid, ?_⟩
    · rintro (empty | long)
      · exact accepted.nonempty empty
      · exact absurd accepted.bounded (by omega)
    · rw [if_neg]
      · rfl
      · rintro ⟨member, several⟩
        exact several (accepted.alone member)

variable {rule : ObjectSecurityRule}

theorem mem_canonical {predicate : ObjectSecurityPredicate} :
    predicate ∈ rule.canonical.predicates ↔ predicate ∈ rule.predicates := by
  rw [canonical, mem_dedup, mem_sortByKey]

theorem Accepted.canonical (accepted : rule.Accepted) : rule.canonical.Accepted := by
  have nonempty : rule.canonical.predicates ≠ [] := by
    obtain ⟨predicate, member⟩ := List.exists_mem_of_ne_nil _ accepted.nonempty
    exact List.ne_nil_of_mem (mem_canonical.mpr member)
  have shorter : rule.canonical.predicates.length ≤ rule.predicates.length :=
    (dedup_sublist _).length_le.trans_eq (List.length_mergeSort _)
  refine ⟨nonempty, shorter.trans accepted.bounded, ?_, ?_⟩
  · intro predicate member
    exact accepted.valid predicate (mem_canonical.mp member)
  · intro member
    have single := accepted.alone (mem_canonical.mp member)
    have some := List.length_pos_of_ne_nil nonempty
    omega

theorem fields_injective : Function.Injective ObjectSecurityPredicate.fields := by
  intro a b same
  cases a <;> cases b <;> simp_all [ObjectSecurityPredicate.fields]

theorem predicateKey_eq (predicate : ObjectSecurityPredicate) :
    predicate.key = (Json.Item.fields predicate.fields).text := by
  cases predicate <;> rfl

theorem predicateKey_injective : Function.Injective ObjectSecurityPredicate.key := by
  intro a b same
  rw [predicateKey_eq, predicateKey_eq] at same
  exact fields_injective (fields_append_inj (r := []) (s := []) (by rw [same])).1

theorem key_injective : Function.Injective key := by
  intro a b same
  have chars (rule : ObjectSecurityRule) : rule.key.toList = '\x7b' :: ((string "operation").toList ++ ':' ::
      ((string rule.operation.asStr).toList ++ ',' :: ((string "predicates").toList ++ ':' ::
        ((array ((rule.predicates.map ObjectSecurityPredicate.fields).map fun entries =>
          (Json.Item.fields entries).text)).toList ++ ['\x7d'])))) := by
    rw [key, List.map_congr_left fun predicate _ => predicateKey_eq predicate]
    simp [object, String.intercalate_cons_cons, String.intercalate_singleton, Function.comp_def]
  have same := congrArg String.toList same
  rw [chars, chars] at same
  obtain ⟨_, same⟩ := string_append_inj (List.cons.inj same).2
  obtain ⟨operations, same⟩ := string_append_inj (List.cons.inj same).2
  obtain ⟨_, same⟩ := string_append_inj (List.cons.inj same).2
  obtain ⟨predicates, _⟩ := array_fields_inj (List.cons.inj same).2
  have operation : a.operation = b.operation := by
    cases left : a.operation <;> cases right : b.operation <;> simp_all [ObjectSecurityOperation.asStr]
  rw [mk.injEq]
  exact ⟨operation, fields_injective.list_map predicates⟩

/-- What no order and no repetition of the predicates changes. -/
def parts (rule : ObjectSecurityRule) : ObjectSecurityOperation × Finset ObjectSecurityPredicate :=
  (rule.operation, rule.predicates.toFinset)

theorem canonical_of_parts {other : ObjectSecurityRule} (same : rule.parts = other.parts) :
    rule.canonical = other.canonical := by
  obtain ⟨operation, predicates⟩ := Prod.mk.inj same
  rw [mk.injEq]
  exact ⟨operation, dedup_mergeSort_congr predicateKey_injective (by simp)
    (by simpa using Finset.ext_iff.mp predicates)⟩

theorem parts_canonical (rule : ObjectSecurityRule) : rule.canonical.parts = rule.parts := by
  refine Prod.ext rfl (Finset.ext fun predicate => ?_)
  rw [parts, parts, List.mem_toFinset, List.mem_toFinset, mem_canonical]

end ObjectSecurityRule

def GrantsAccepted {α : Type} (bound : Nat) (check : α → Except String Unit) (grants : List α) : Prop :=
  grants.length ≤ bound ∧ ∀ grant ∈ grants, check grant = .ok ()

def PropertyGrant.Accepted : List PropertyGrant → Prop :=
  GrantsAccepted maxPropertyGrants fun grant => validateProperty grant.property

def ValueInstanceGrant.Accepted : List ValueInstanceGrant → Prop :=
  GrantsAccepted maxValueInstanceGrants ValueInstanceGrant.validate

def PropertyGrant.canonical (grants : List PropertyGrant) : List PropertyGrant :=
  dedup (grants.mergeSort PropertyGrant.le)

def ValueInstanceGrant.canonical (grants : List ValueInstanceGrant) : List ValueInstanceGrant :=
  dedup (grants.mergeSort ValueInstanceGrant.le)

theorem access_injective : Function.Injective PropertyGrantAccess.asStr := by
  intro a b same
  cases a <;> cases b <;> simp_all [PropertyGrantAccess.asStr]

theorem PropertyGrant.canonical_of_parts {grants others : List PropertyGrant}
    (same : grants.toFinset = others.toFinset) :
    canonical grants = canonical others := by
  have injective : Function.Injective fun grant : PropertyGrant => toLex (grant.property, grant.access.asStr) := by
    rintro ⟨⟩ ⟨⟩ same
    simpa [access_injective.eq_iff] using same
  refine dedup_mergeSort_congr injective ?_ (by simpa using Finset.ext_iff.mp same)
  simp [le, thenLe, Prod.Lex.toLex_le_toLex]

theorem ValueInstanceGrant.canonical_of_parts {grants others : List ValueInstanceGrant}
    (same : grants.toFinset = others.toFinset) : canonical grants = canonical others := by
  have injective : Function.Injective fun grant : ValueInstanceGrant =>
      toLex (grant.objectId, toLex (grant.property, toLex (grant.valueDigest, grant.access.asStr))) := by
    rintro ⟨⟩ ⟨⟩ same
    simpa [access_injective.eq_iff] using same
  refine dedup_mergeSort_congr injective ?_ (by simpa using Finset.ext_iff.mp same)
  simp [le, thenLe, Prod.Lex.toLex_le_toLex]

section
variable {α : Type} [DecidableEq α] {bound : Nat} {label : String} {check : α → Except String Unit}
  {le : α → α → Bool} {grants prepared : List α}

theorem prepareGrants_eq_ok : prepareGrants bound label check le grants = .ok prepared ↔
    GrantsAccepted bound check grants ∧ prepared = dedup (grants.mergeSort le) := by
  rw [prepareGrants, ite_error_eq_ok, bind_eq_ok]
  constructor
  · rintro ⟨small, _, valid, last⟩
    cases last
    exact ⟨⟨by omega, forM_eq_ok.mp valid⟩, rfl⟩
  · rintro ⟨⟨small, valid⟩, rfl⟩
    exact ⟨by omega, (), forM_eq_ok.mpr valid, rfl⟩

theorem GrantsAccepted.canonical (accepted : GrantsAccepted bound check grants) :
    GrantsAccepted bound check (dedup (grants.mergeSort le)) := by
  constructor
  · have shorter := (dedup_sublist (grants.mergeSort le)).length_le
    rw [List.length_mergeSort] at shorter
    exact shorter.trans accepted.1
  · intro grant member
    exact accepted.2 grant ((List.mergeSort_perm _ _).mem_iff.mp (mem_dedup.mp member))

end

namespace ObjectSecurityPolicy

structure Accepted (policy : ObjectSecurityPolicy) : Prop where
  version : policy.contractVersion = objectSecurityPolicyVersion
  nameSpace : validateIdentity "namespace" policy.nameSpace = .ok ()
  kind : validateIdentity "kind" policy.kind = .ok ()
  nonempty : policy.rules ≠ []
  bounded : policy.rules.length ≤ maxRules
  rules : ∀ rule ∈ policy.rules, rule.Accepted
  propertyGrants : ∀ grants ∈ policy.propertyGrants, PropertyGrant.Accepted grants
  valueInstanceGrants : ∀ grants ∈ policy.valueInstanceGrants, ValueInstanceGrant.Accepted grants
  requiredPurpose : ∀ purpose ∈ policy.requiredPurpose, validateIdentity "required_purpose" purpose = .ok ()

def canonical (policy : ObjectSecurityPolicy) : ObjectSecurityPolicy :=
  { policy with
    rules := dedup (sortByKey ObjectSecurityRule.key (policy.rules.map ObjectSecurityRule.canonical))
    propertyGrants := policy.propertyGrants.map PropertyGrant.canonical
    valueInstanceGrants := policy.valueInstanceGrants.map ValueInstanceGrant.canonical }

variable {policy prepared : ObjectSecurityPolicy} {other : ObjectSecurityPolicy}

theorem prepare_eq_ok : policy.prepare = .ok prepared ↔ policy.Accepted ∧ prepared = policy.canonical := by
  have purposes {value : String} {checked : Unit} : validateIdentity "required_purpose" value = .ok checked ↔
      validateIdentity "required_purpose" value = .ok () ∧ checked = () := by simp
  unfold prepare
  simp only [bind_eq_ok, ite_error_eq_ok, mapM_eq_ok ObjectSecurityRule.prepare_eq_ok,
    option_mapM_eq_ok (f := preparePropertyGrants) fun _ _ => prepareGrants_eq_ok,
    option_mapM_eq_ok (f := prepareValueInstanceGrants) fun _ _ => prepareGrants_eq_ok,
    option_mapM_eq_ok fun _ _ => purposes]
  constructor
  · rintro ⟨version, _, nameSpace, _, kind, size, _, ⟨rules, rfl⟩, _, ⟨properties, rfl⟩, _,
      ⟨values, rfl⟩, _, ⟨purpose, rfl⟩, last⟩
    cases last
    rw [not_or] at size
    exact ⟨⟨not_not.mp version, nameSpace, kind, size.1, by omega, rules, properties, values, purpose⟩, rfl⟩
  · rintro ⟨accepted, rfl⟩
    refine ⟨not_not.mpr accepted.version, (), accepted.nameSpace, (), accepted.kind, ?_,
      _, ⟨accepted.rules, rfl⟩, _, ⟨accepted.propertyGrants, rfl⟩, _,
      ⟨accepted.valueInstanceGrants, rfl⟩, _, ⟨accepted.requiredPurpose, rfl⟩, rfl⟩
    rintro (empty | long)
    · exact accepted.nonempty empty
    · exact absurd accepted.bounded (by omega)

theorem mem_canonical_rules {rule : ObjectSecurityRule} :
    rule ∈ policy.canonical.rules ↔ ∃ source ∈ policy.rules, source.canonical = rule := by
  rw [canonical, mem_dedup, mem_sortByKey, List.mem_map]

theorem Accepted.canonical (accepted : policy.Accepted) : policy.canonical.Accepted := by
  have nonempty : policy.canonical.rules ≠ [] := by
    obtain ⟨rule, member⟩ := List.exists_mem_of_ne_nil _ accepted.nonempty
    exact List.ne_nil_of_mem (mem_canonical_rules.mpr ⟨rule, member, rfl⟩)
  have bounded : policy.canonical.rules.length ≤ maxRules := by
    have shorter := (dedup_sublist
      (sortByKey ObjectSecurityRule.key (policy.rules.map ObjectSecurityRule.canonical))).length_le
    rw [sortByKey, List.length_mergeSort, List.length_map] at shorter
    exact shorter.trans accepted.bounded
  refine ⟨accepted.version, accepted.nameSpace, accepted.kind, nonempty, bounded, ?_, ?_, ?_,
    accepted.requiredPurpose⟩
  · intro rule member
    obtain ⟨source, inside, rfl⟩ := mem_canonical_rules.mp member
    exact (accepted.rules source inside).canonical
  · intro grants member
    obtain ⟨source, inside, rfl⟩ := Option.map_eq_some_iff.mp member
    exact (accepted.propertyGrants source inside).canonical
  · intro grants member
    obtain ⟨source, inside, rfl⟩ := Option.map_eq_some_iff.mp member
    exact (accepted.valueInstanceGrants source inside).canonical

/-- What no order and no repetition of the rules, their predicates and the grants changes. -/
def parts (policy : ObjectSecurityPolicy) : String × String × String ×
    Finset (ObjectSecurityOperation × Finset ObjectSecurityPredicate) × Option (Finset PropertyGrant) ×
    Option (Finset ValueInstanceGrant) × Option String :=
  (policy.contractVersion, policy.nameSpace, policy.kind, (policy.rules.map ObjectSecurityRule.parts).toFinset,
    policy.propertyGrants.map List.toFinset, policy.valueInstanceGrants.map List.toFinset, policy.requiredPurpose)

theorem mem_rules_of_parts (same : policy.parts = other.parts) {rule : ObjectSecurityRule}
    (member : rule ∈ policy.rules.map ObjectSecurityRule.canonical) :
    rule ∈ other.rules.map ObjectSecurityRule.canonical := by
  obtain ⟨source, inside, rfl⟩ := List.mem_map.mp member
  have listed : source.parts ∈ policy.parts.2.2.2.1 := List.mem_toFinset.mpr (List.mem_map_of_mem inside)
  rw [same] at listed
  obtain ⟨twin, inside, parts⟩ := List.mem_map.mp (List.mem_toFinset.mp listed)
  exact List.mem_map.mpr ⟨twin, inside, ObjectSecurityRule.canonical_of_parts parts⟩

theorem map_of_map {α β γ : Type} {f : α → β} {g : α → γ} (through : ∀ {a b}, f a = f b → g a = g b) {a b : Option α}
    (same : a.map f = b.map f) : a.map g = b.map g := by
  cases a <;> cases b <;> simp_all
  exact through same

theorem canonical_of_parts (same : policy.parts = other.parts) : policy.canonical = other.canonical := by
  have rules : policy.canonical.rules = other.canonical.rules := by
    refine dedup_mergeSort_congr ObjectSecurityRule.key_injective (by simp) ?_
    intro rule
    exact ⟨mem_rules_of_parts same, mem_rules_of_parts same.symm⟩
  obtain ⟨version, nameSpace, kind, _, properties, values, purpose⟩ : _ ∧ _ ∧ _ ∧ _ ∧ _ ∧ _ ∧ _ := by
    simpa only [parts, Prod.mk.injEq] using same
  rw [mk.injEq]
  exact ⟨version, nameSpace, kind, rules, map_of_map PropertyGrant.canonical_of_parts properties,
    map_of_map ValueInstanceGrant.canonical_of_parts values, purpose⟩

theorem parts_canonical (policy : ObjectSecurityPolicy) : policy.canonical.parts = policy.parts := by
  have rules : (policy.canonical.rules.map ObjectSecurityRule.parts).toFinset =
      (policy.rules.map ObjectSecurityRule.parts).toFinset := by
    ext parts
    simp [mem_canonical_rules, ObjectSecurityRule.parts_canonical]
  have grants {α : Type} [DecidableEq α] (le : α → α → Bool) (grants : List α) :
      (dedup (grants.mergeSort le)).toFinset = grants.toFinset := by
    ext grant
    simp [mem_dedup]
  rw [parts, rules, parts]
  simp [canonical, Function.comp_def, PropertyGrant.canonical, ValueInstanceGrant.canonical, grants]

theorem prepare_prepared (run : policy.prepare = .ok prepared) : prepared.prepare = .ok prepared := by
  obtain ⟨accepted, rfl⟩ := prepare_eq_ok.mp run
  exact prepare_eq_ok.mpr ⟨accepted.canonical, (canonical_of_parts policy.parts_canonical).symm⟩

theorem allowed_iff {object : Object} {operation : ObjectSecurityOperation} {context : PrincipalPolicyContext} :
    policy.allowed object operation context ↔ ∃ rule ∈ policy.rules, rule.operation = operation ∧
      ∀ predicate ∈ rule.predicates, predicate.matchesObject context object := by
  simp [allowed, List.any_eq_true]

theorem allowed_canonical (object : Object) (operation : ObjectSecurityOperation) (context : PrincipalPolicyContext) :
    policy.canonical.allowed object operation context = policy.allowed object operation context := by
  rw [Bool.eq_iff_iff, allowed_iff, allowed_iff]
  constructor
  · rintro ⟨rule, member, same, all⟩
    obtain ⟨source, inside, rfl⟩ := mem_canonical_rules.mp member
    refine ⟨source, inside, same, ?_⟩
    intro predicate of
    exact all predicate (ObjectSecurityRule.mem_canonical.mpr of)
  · rintro ⟨rule, member, same, all⟩
    refine ⟨rule.canonical, mem_canonical_rules.mpr ⟨rule, member, rfl⟩, same, ?_⟩
    intro predicate of
    exact all predicate (ObjectSecurityRule.mem_canonical.mp of)

/-- The canonical form is one of its own, does not depend on how the rules, predicates and grants are arranged, and
decides as the policy that was submitted. -/
theorem prepare_preserves (sha256 : String → String) (run : policy.prepare = .ok prepared) :
    prepared.prepare = .ok prepared ∧
    (∀ other result : ObjectSecurityPolicy, other.parts = policy.parts → other.prepare = .ok result →
      other.canonicalPolicy = policy.canonicalPolicy ∧ other.revisionDigest sha256 = policy.revisionDigest sha256) ∧
    ∀ context object operation, prepared.allows context object operation = policy.allows context object operation := by
  obtain ⟨_, rfl⟩ := prepare_eq_ok.mp run
  refine ⟨prepare_prepared run, ?_, fun context object operation => ?_⟩
  on_goal 2 =>
    simp only [allows, allowed_canonical]
    rfl
  intro other result same accepted
  obtain ⟨_, rfl⟩ := prepare_eq_ok.mp accepted
  have form : other.canonicalPolicy = policy.canonicalPolicy := by
    rw [canonicalPolicy, canonicalPolicy, accepted, run, canonical_of_parts same]
  refine ⟨form, ?_⟩
  rw [revisionDigest, revisionDigest, form]

end ObjectSecurityPolicy

def sharedPolicy : ObjectSecurityPolicy :=
  ⟨objectSecurityPolicyVersion, "team-a", "ticket",
    [⟨.read, [.requiredScopeEquals "support"]⟩, ⟨.read, [.subjectEqualsProperty "owner"]⟩], none, none, none⟩

theorem sharedPolicy_accepted : sharedPolicy.Accepted := by
  refine ⟨rfl, by decide, by decide, by decide, by decide, ?_, nofun, nofun, nofun⟩
  intro rule member
  simp only [sharedPolicy, List.mem_cons, List.not_mem_nil, or_false] at member
  rcases member with rfl | rfl
  · exact ⟨by decide, by decide, by decide, by decide⟩
  · exact ⟨by decide, by decide, by decide, by decide⟩

theorem sharedPolicy_prepare : sharedPolicy.prepare = .ok sharedPolicy := by
  have sorted : sharedPolicy.rules.Pairwise fun a b => decide (a.key ≤ b.key) = true := by decide
  have each : sharedPolicy.rules.map ObjectSecurityRule.canonical = sharedPolicy.rules := by
    simp [sharedPolicy, ObjectSecurityRule.canonical, sortByKey, dedup]
  have rules : sharedPolicy.canonical.rules = sharedPolicy.rules := by
    rw [ObjectSecurityPolicy.canonical, each, sortByKey, List.mergeSort_of_pairwise sorted]
    rfl
  refine ObjectSecurityPolicy.prepare_eq_ok.mpr ⟨sharedPolicy_accepted, ?_⟩
  rw [ObjectSecurityPolicy.mk.injEq]
  exact ⟨rfl, rfl, rfl, rules.symm, rfl, rfl, rfl⟩

/-- The rules the other way round, and the first one twice. -/
def shuffledPolicy : ObjectSecurityPolicy :=
  { sharedPolicy with rules := sharedPolicy.rules.reverse ++ sharedPolicy.rules.take 1 }

theorem shuffledPolicy_prepare : shuffledPolicy.prepare = .ok sharedPolicy := by
  have same : shuffledPolicy.parts = sharedPolicy.parts := by
    have rules : (shuffledPolicy.rules.map ObjectSecurityRule.parts).toFinset =
        (sharedPolicy.rules.map ObjectSecurityRule.parts).toFinset := by
      ext part
      simp [shuffledPolicy, sharedPolicy, or_comm]
    rw [ObjectSecurityPolicy.parts, rules]
    rfl
  refine ObjectSecurityPolicy.prepare_eq_ok.mpr ⟨?_, ?_⟩
  · refine { sharedPolicy_accepted with nonempty := by decide, bounded := by decide, rules := ?_ }
    intro rule member
    exact sharedPolicy_accepted.rules rule (by simpa [shuffledPolicy, sharedPolicy, or_comm] using member)
  · rw [ObjectSecurityPolicy.canonical_of_parts same]
    exact (ObjectSecurityPolicy.prepare_eq_ok.mp sharedPolicy_prepare).2

theorem prepare_preserves_shared : shuffledPolicy.prepare = .ok sharedPolicy ∧
    ∀ other result : ObjectSecurityPolicy, other.parts = shuffledPolicy.parts → other.prepare = .ok result →
      other.canonicalPolicy = shuffledPolicy.canonicalPolicy := by
  refine ⟨shuffledPolicy_prepare, fun other result same accepted => ?_⟩
  exact ((ObjectSecurityPolicy.prepare_preserves id shuffledPolicy_prepare).2.1 other result same accepted).1

end SekaiChisei.ObjectSecurity
