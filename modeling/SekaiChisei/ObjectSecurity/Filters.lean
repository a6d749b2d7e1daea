import SekaiChisei.ObjectSecurity.Tables

/-!
The read filters against the decision in memory, in every store that writes reach. The PostgreSQL `CASE` reads a
missing property as an empty one.
-/

namespace SekaiChisei.ObjectSecurity
open Lib Sql
open List hiding dedup mem_dedup

theorem exists_index {α : Type} {items : List α} {item : α} (member : item ∈ items) :
    ∃ index, (item, index) ∈ items.zipIdx := by
  obtain ⟨index, found⟩ := mem_iff_getElem?.mp member
  exact ⟨index, mem_zipIdx_iff_getElem?.mpr found⟩

namespace Store
variable {store : Store}

section
variable (valid : store.Valid)
include valid

theorem Valid.same_revision {a b : Revision} (inA : a ∈ store.revisions)
    (inB : b ∈ store.revisions) (same : a.SameKey b) : a = b := by
  by_contra different
  have symmetric : Std.Symm fun a b : Revision => ¬ a.SameKey b :=
    ⟨fun a b no same => no ⟨same.1.symm, same.2.symm⟩⟩
  exact valid.distinct.forall inA inB different same

theorem Valid.same_active {a b : ActivePolicyRow}
    (inA : a ∈ store.activePolicies) (inB : b ∈ store.activePolicies) (same : a.SameKey b) : a = b := by
  by_contra different
  have symmetric : Std.Symm fun a b : ActivePolicyRow => ¬ a.SameKey b :=
    ⟨fun a b no same => no ⟨same.1.symm, same.2.symm⟩⟩
  exact valid.activeDistinct.forall inA inB different same

variable {revision : Revision}

theorem Valid.loadRevision (member : revision ∈ store.revisions) :
    store.loadRevision revision.nameSpace revision.revisionDigest = some revision := by
  cases found : store.loadRevision revision.nameSpace revision.revisionDigest with
  | none => exact absurd ⟨rfl, rfl⟩ (loadRevision_eq_none found revision member)
  | some other =>
    obtain ⟨inside, same⟩ := loadRevision_some found
    rw [valid.same_revision inside member same]

theorem Valid.mem_rules {row : RuleRow} :
    row ∈ store.rules ↔ ∃ revision ∈ store.revisions, ∃ rule ∈ revision.policy.rules.zipIdx,
      revision.ruleRow rule = row := by
  rw [valid.rules]
  simp only [mem_flatMap, Revision.ruleRows, mem_map]

theorem Valid.mem_predicates {row : PredicateRow} : row ∈ store.predicates ↔ ∃ revision ∈ store.revisions,
      ∃ rule ∈ revision.policy.rules.zipIdx, ∃ predicate ∈ rule.1.predicates.zipIdx,
        revision.predicateRow rule.2 predicate = row := by
  rw [valid.predicates]
  simp only [mem_flatMap, Revision.predicateRows, mem_map]

theorem Valid.loadActivePolicy_iff {nameSpace kind : String} {policy : ObjectSecurityPolicy} :
    store.loadActivePolicy nameSpace kind = .ok (some policy) ↔
      ∃ active ∈ store.activePolicies, ∃ revision ∈ store.revisions, active.Names revision ∧
        active.nameSpace = nameSpace ∧ active.kind = kind ∧ revision.policy = policy := by
  constructor
  · intro loaded
    unfold loadActivePolicy at loaded
    split at loaded
    · cases loaded
    · rename_i active found
      have same := find?_some found
      simp only [decide_eq_true_eq] at same
      obtain ⟨revision, member, names⟩ := valid.active active (mem_of_find?_eq_some found)
      have load := valid.loadRevision member
      rw [names.nameSpace, names.digest, same.1] at load
      simp only [load, names.loads] at loaded
      cases loaded
      exact ⟨active, mem_of_find?_eq_some found, revision, member, names, same.1, same.2, rfl⟩
  · rintro ⟨active, inside, revision, member, names, rfl, rfl, rfl⟩
    unfold loadActivePolicy
    cases found : store.activePolicies.find? fun row =>
        row.nameSpace = active.nameSpace ∧ row.kind = active.kind with
    | none =>
      have no := find?_eq_none.mp found active inside
      simp at no
    | some row =>
      have same := find?_some found
      simp only [decide_eq_true_eq] at same
      obtain rfl := valid.same_active (mem_of_find?_eq_some found) inside same
      have load := valid.loadRevision member
      rw [names.nameSpace, names.digest] at load
      simp only [load, names.loads, Except.map]

theorem Valid.noneBlocks_iff {blocks : PredicateRow → Truth}
    (member : revision ∈ store.revisions) {rule : ObjectSecurityRule × Nat}
    (ofPolicy : rule ∈ revision.policy.rules.zipIdx) :
    noneBlocks blocks store (revision.ruleRow rule) = some true ↔ ∀ predicate ∈ rule.1.predicates.zipIdx,
        blocks (revision.predicateRow rule.2 predicate) ≠ some true := by
  simp only [noneBlocks, not_exist_eq_true, ne_eq, Sql.all_eq_true, forall_mem_cons,
    eq_some_eq_true, Option.some.injEq]
  constructor
  · intro none predicate inside blocked
    refine none _ (valid.mem_predicates.mpr ⟨revision, member, rule, ofPolicy, predicate, inside, rfl⟩)
      ⟨rfl, rfl, rfl, blocked, ?_⟩
    simp
  · rintro none row inRows ⟨sameSpace, sameDigest, sameIndex, blocked, _⟩
    obtain ⟨other, inOther, source, inSource, predicate, inside, rfl⟩ := valid.mem_predicates.mp inRows
    obtain rfl : other = revision :=
      valid.same_revision inOther member ⟨sameSpace.symm, sameDigest.symm⟩
    -- a rule is determined by its index
    have index : source.2 = rule.2 := sameIndex.symm
    have rule' := mem_zipIdx_iff_getElem?.mp ofPolicy
    have source' := mem_zipIdx_iff_getElem?.mp inSource
    rw [index, rule'] at source'
    obtain rfl : source = rule := Prod.ext (Option.some.inj source').symm index
    exact none predicate inside blocked

theorem Valid.predicate_valid (member : revision ∈ store.revisions) {rule : ObjectSecurityRule}
    (ofPolicy : rule ∈ revision.policy.rules) {predicate : ObjectSecurityPredicate}
    (ofRule : predicate ∈ rule.predicates) : predicate.validate = .ok () := by
  obtain ⟨accepted, _⟩ := ObjectSecurityPolicy.prepare_eq_ok.mp (valid.faithful revision member).1
  exact (accepted.rules rule ofPolicy).valid predicate ofRule

end

end Store

theorem asStr_eq_read {operation : ObjectSecurityOperation} : operation.asStr = "read" ↔ operation = .read := by
  cases operation <;> decide

/-- A `CASE` that blocks exactly when the predicate fails in a context, on an object as the filter
views it. -/
def Decides (blocks : PredicateRow → Truth) (context : PrincipalPolicyContext) (view : Object) : Prop :=
  ∀ (revision : Revision) (ruleIndex index : Nat) (predicate : ObjectSecurityPredicate), predicate.validate = .ok () →
      (blocks (revision.predicateRow ruleIndex (predicate, index)) ≠ some true ↔ predicate.matchesObject context view)

variable {context : PrincipalPolicyContext} {object view : Object} {store : Store}

theorem groupAdmitted_iff (valid : store.Valid) {blocks : PredicateRow → Truth}
    (decides : Decides blocks context view) : groupAdmitted blocks store object = some true ↔
      ∃ policy, store.loadActivePolicy object.nameSpace object.kind = .ok (some policy) ∧
        policy.allowed view .read context := by
  simp only [groupAdmitted, exist_eq_true, Prod.exists, pair_mem_product, Sql.all_eq_true,
    forall_mem_cons, eq_some_eq_true, Option.some.injEq]
  constructor
  · rintro ⟨active, row, ⟨isActive, isRule⟩, sameSpace, sameDigest, space, kind, operation, none, _⟩
    obtain ⟨revision, member, names⟩ := valid.active active isActive
    obtain ⟨other, inOther, rule, ofPolicy, rfl⟩ := valid.mem_rules.mp isRule
    obtain rfl : other = revision := valid.same_revision inOther member
      ⟨sameSpace.symm.trans names.nameSpace.symm, sameDigest.symm.trans names.digest.symm⟩
    have ruleOf := fst_mem_of_mem_zipIdx ofPolicy
    refine ⟨other.policy, valid.loadActivePolicy_iff.mpr
      ⟨active, isActive, other, member, names, space.symm, kind.symm, rfl⟩, ?_⟩
    refine ObjectSecurityPolicy.allowed_iff.mpr ⟨rule.1, ruleOf, asStr_eq_read.mp operation.symm, ?_⟩
    intro predicate ofRule
    obtain ⟨index, inIndex⟩ := exists_index ofRule
    have free := (valid.noneBlocks_iff member ofPolicy).mp none _ inIndex
    exact (decides other rule.2 index predicate (valid.predicate_valid member ruleOf ofRule)).mp free
  · rintro ⟨policy, loaded, allowed⟩
    obtain ⟨active, isActive, revision, member, names, space, kind, rfl⟩ :=
      valid.loadActivePolicy_iff.mp loaded
    obtain ⟨rule, ruleOf, operation, all⟩ := ObjectSecurityPolicy.allowed_iff.mp allowed
    obtain ⟨index, ofPolicy⟩ := exists_index ruleOf
    refine ⟨active, revision.ruleRow (rule, index), ⟨isActive, valid.mem_rules.mpr
      ⟨revision, member, (rule, index), ofPolicy, rfl⟩⟩, names.nameSpace.symm, names.digest.symm,
      space.symm, kind.symm, (asStr_eq_read.mpr operation).symm, ?_, by simp⟩
    refine (valid.noneBlocks_iff member ofPolicy).mpr ?_
    rintro ⟨predicate, position⟩ inside
    have ofRule := fst_mem_of_mem_zipIdx inside
    exact (decides revision index position predicate
      (valid.predicate_valid member ruleOf ofRule)).mpr (all predicate ofRule)

variable {property : String}

theorem validateProperty_eq_ok (valid : validateProperty property = .ok ()) : isValidPropertyKey property := by
  unfold validateProperty at valid
  split at valid
  · assumption
  · cases valid

variable {value : String}

theorem validateValue_eq_ok {label : String} (valid : validateValue label value = .ok ()) : value ≠ "" := by
  rintro rfl
  simp [validateValue] at valid

theorem propertyEquals_valid (valid : (ObjectSecurityPredicate.propertyEquals property value).validate = .ok ()) :
    isValidPropertyKey property ∧ value ≠ "" := by
  obtain ⟨_, key, nonempty⟩ := bind_eq_ok.mp valid
  exact ⟨validateProperty_eq_ok key, validateValue_eq_ok nonempty⟩

theorem jsonExtract_key {properties : String → Option String} {key : String}
    (valid : isValidPropertyKey key) : jsonExtract properties ("$." ++ key) = properties key := by
  have plain : ¬ key.toList.any fun c => c == '.' || c == '[' || c == '"' := by
    simp only [isValidPropertyKey, Bool.and_eq_true, List.all_eq_true] at valid
    simp only [List.any_eq_true, not_exists, not_and]
    intro c member special
    have word := valid.2 c member
    simp only [Bool.or_eq_true, beq_iff_eq] at special
    rcases special with (rfl | rfl) | rfl <;> exact absurd word (by decide)
  have shape : ("$." ++ key).toList = '$' :: '.' :: key.toList := by
    rw [String.toList_append]
    rfl
  simp only [jsonExtract, shape, if_neg plain, String.ofList_toList]

/-- A fixed value is not empty, so reading a missing property as empty does not meet it. -/
theorem coalesce_ne {property : Option String} (nonempty : value ≠ "") :
    Sql.ne (Sql.coalesce property "") (some value) ≠ some true ↔ property.any (· = value) := by
  cases property with
  | none => simp [Sql.ne, Sql.not, Sql.eq, Sql.coalesce, nonempty.symm]
  | some found => simp [Sql.ne, Sql.not, Sql.eq, Sql.coalesce]

theorem not_ne_true {b : Bool} : Sql.not (some b) ≠ some true ↔ b = true := by
  cases b <;> decide

theorem sqliteBlocks_decides (subjects scopes : List String) :
    Decides (sqliteBlocks object subjects scopes) ⟨subjects, scopes, none⟩ object := by
  intro revision ruleIndex index predicate valid
  cases predicate with
  | allowAll => simp [sqliteBlocks, Revision.predicateRow, predicateColumns, ObjectSecurityPredicate.matchesObject]
  | subjectEqualsProperty property =>
    simp only [sqliteBlocks, Revision.predicateRow, predicateColumns,
      jsonExtract_key (validateProperty_eq_ok valid), String.reduceEq, if_false, if_true]
    rw [exist, not_ne_true, ObjectSecurityPredicate.matchesObject]
    cases object.properties property with
    | none => simp [Sql.eq]
    | some found => simp [Sql.eq]
  | requiredScopeEquals value =>
    simp only [sqliteBlocks, Revision.predicateRow, predicateColumns, String.reduceEq, if_false, if_true]
    rw [exist, not_ne_true, ObjectSecurityPredicate.matchesObject]
    simp [Sql.eq]
  | propertyEquals property value =>
    obtain ⟨key, nonempty⟩ := propertyEquals_valid valid
    simp only [sqliteBlocks, Revision.predicateRow, predicateColumns, jsonExtract_key key,
      String.reduceEq, if_false, if_true]
    exact coalesce_ne nonempty

def Object.blankMissing (object : Object) : Object :=
  { object with properties := fun key => some ((object.properties key).getD "") }

theorem postgresBlocks_decides (subjects scopes : List String) :
    Decides (postgresBlocks object subjects scopes) ⟨subjects, scopes, none⟩ object.blankMissing := by
  intro revision ruleIndex index predicate valid
  cases predicate with
  | allowAll => simp [postgresBlocks, Revision.predicateRow, predicateColumns, ObjectSecurityPredicate.matchesObject]
  | subjectEqualsProperty property =>
    simp only [postgresBlocks, Revision.predicateRow, predicateColumns, String.reduceEq, if_false, if_true]
    rw [coalesce, anyOf, not_ne_true, ObjectSecurityPredicate.matchesObject]
    simp [Object.blankMissing]
  | requiredScopeEquals value =>
    simp only [postgresBlocks, Revision.predicateRow, predicateColumns, String.reduceEq, if_false, if_true]
    rw [anyOf, not_ne_true, ObjectSecurityPredicate.matchesObject]
    simp
  | propertyEquals property value =>
    simp only [postgresBlocks, Revision.predicateRow, predicateColumns, String.reduceEq, if_false, if_true]
    rw [Sql.ne, coalesce, Sql.eq, not_ne_true, ObjectSecurityPredicate.matchesObject]
    simp [Object.blankMissing]

def Store.AdmittedAs (store : Store) (context : PrincipalPolicyContext) (object view : Object) : Prop :=
  ¬ store.activated object.nameSpace ∨
    ∃ policy, store.loadActivePolicy object.nameSpace object.kind = .ok (some policy) ∧
      policy.allowed view .read context.normalized ∧ ∀ subject ∈ context.normalized.delegatedSubject,
          policy.allowed view .read ⟨[subject], [], none⟩

theorem decision_iff (valid : store.Valid) :
    store.decision context object ↔ store.AdmittedAs context object object := by
  refine or_congr Iff.rfl (exists_congr fun policy => and_congr_right fun loaded => ?_)
  obtain ⟨active, _, revision, member, names, space, kind, rfl⟩ := valid.loadActivePolicy_iff.mp loaded
  obtain ⟨_, policySpace, policyKind⟩ := valid.faithful revision member
  have own : ¬ (revision.policy.nameSpace ≠ object.nameSpace ∨ revision.policy.kind ≠ object.kind) := by
    rw [policySpace, policyKind, names.nameSpace, names.kind, space, kind]
    simp
  rw [ObjectSecurityPolicy.allows, if_neg own]
  simp [Option.all_eq_true]

variable {nameSpace : String}

theorem activated_iff : Sql.not (Sql.exist store.activations fun activation =>
      Sql.eq (some activation.nameSpace) (some nameSpace)) = some true ↔ ¬ store.activated nameSpace := by
  rw [not_exist_eq_true]
  simp only [ne_eq, eq_some_eq_true, Option.some.injEq, Store.activated, not_exists, not_and]
  constructor
  · intro none activation member same
    exact none activation member same.symm
  · intro none activation member same
    exact none activation member same.symm

theorem objectSecurityFilter_iff (valid : store.Valid)
    {blocks : Object → List String → List String → PredicateRow → Truth}
    (decides : ∀ subjects scopes, Decides (blocks object subjects scopes) ⟨subjects, scopes, none⟩ view) :
    objectSecurityFilter blocks store context object = some true ↔ store.AdmittedAs context object view := by
  have group (subjects scopes : List String) :
      Sql.not (groupAdmitted (blocks object subjects scopes) store object) ≠ some true ↔
        ∃ policy, store.loadActivePolicy object.nameSpace object.kind = .ok (some policy) ∧
          policy.allowed view .read ⟨subjects, scopes, none⟩ := by
    rw [← groupAdmitted_iff valid (decides subjects scopes), groupAdmitted, exist, not_ne_true, Option.some.injEq]
  rw [objectSecurityFilter, or_eq_true, activated_iff, not_exist_eq_true]
  refine or_congr Iff.rfl ?_
  cases delegated : context.normalized.delegatedSubject with
  | none =>
    simp only [PrincipalPolicyContext.sqlSubjects, PrincipalPolicyContext.sqlScopes, delegated,
      Option.toList_none, List.map_nil, List.append_nil, List.zipIdx_cons, List.zipIdx_nil,
      List.forall_mem_singleton, group]
    refine exists_congr fun policy => and_congr_right fun _ => ?_
    simp only [Option.mem_def, reduceCtorEq, false_implies, implies_true, and_true]
    exact Iff.rfl
  | some subject =>
    simp only [PrincipalPolicyContext.sqlSubjects, PrincipalPolicyContext.sqlScopes, delegated,
      Option.toList_some, List.map_cons, List.map_nil, List.cons_append, List.nil_append,
      List.zipIdx_cons, List.zipIdx_nil, List.forall_mem_cons, group]
    constructor
    · rintro ⟨⟨policy, loaded, own⟩, ⟨same, again, acting⟩, _⟩
      obtain rfl : policy = same := by simpa [loaded] using again
      refine ⟨policy, loaded, own, ?_⟩
      rintro _ ⟨⟩
      exact acting
    · rintro ⟨policy, loaded, own, acting⟩
      exact ⟨⟨policy, loaded, own⟩, ⟨policy, loaded, acting subject rfl⟩, by simp⟩

theorem sqliteObjectSecurityFilter_iff (valid : store.Valid) :
    sqliteObjectSecurityFilter store context object = some true ↔ store.AdmittedAs context object object :=
  objectSecurityFilter_iff valid (sqliteBlocks_decides)

theorem postgresObjectSecurityFilter_iff (valid : store.Valid) :
    postgresObjectSecurityFilter store context object = some true ↔
      store.AdmittedAs context object object.blankMissing :=
  objectSecurityFilter_iff valid (postgresBlocks_decides)

theorem matchesObject_blankMissing (named : "" ∉ context.subjects)
    {predicate : ObjectSecurityPredicate} (valid : predicate.validate = .ok ()) :
    predicate.matchesObject context object.blankMissing = predicate.matchesObject context object := by
  cases predicate with
  | allowAll => rfl
  | subjectEqualsProperty property =>
    simp only [ObjectSecurityPredicate.matchesObject, Object.blankMissing]
    have others : ∀ subject ∈ context.subjects, subject ≠ "" := by
      rintro subject member rfl
      exact named member
    cases object.properties property with
    | none => simpa using others
    | some value => rfl
  | requiredScopeEquals value => rfl
  | propertyEquals property value =>
    have nonempty := (propertyEquals_valid valid).2
    simp only [ObjectSecurityPredicate.matchesObject, Object.blankMissing]
    cases object.properties property with
    | none => simpa using nonempty.symm
    | some found => rfl

variable {policy : ObjectSecurityPolicy}

theorem allowed_blankMissing (accepted : policy.Accepted) (named : "" ∉ context.subjects) :
    policy.allowed object.blankMissing .read context ↔ policy.allowed object .read context := by
  rw [ObjectSecurityPolicy.allowed_iff, ObjectSecurityPolicy.allowed_iff]
  refine exists_congr fun rule => and_congr_right fun member => and_congr_right fun _ => ?_
  refine forall₂_congr fun predicate ofRule => ?_
  rw [matchesObject_blankMissing named ((accepted.rules rule member).valid predicate ofRule)]

theorem allowed_blankMissing_of_allowed (allowed : policy.allowed object .read context) :
    policy.allowed object.blankMissing .read context := by
  obtain ⟨rule, member, operation, all⟩ := ObjectSecurityPolicy.allowed_iff.mp allowed
  refine ObjectSecurityPolicy.allowed_iff.mpr ⟨rule, member, operation, ?_⟩
  intro predicate ofRule
  have holds := all predicate ofRule
  cases predicate with
  | allowAll => exact holds
  | requiredScopeEquals value => exact holds
  | subjectEqualsProperty property =>
    obtain ⟨value, found, _⟩ := (Option.any_eq_true _ _).mp holds
    simpa [ObjectSecurityPredicate.matchesObject, Object.blankMissing, found] using holds
  | propertyEquals property value =>
    obtain ⟨other, found, _⟩ := (Option.any_eq_true _ _).mp holds
    simpa [ObjectSecurityPredicate.matchesObject, Object.blankMissing, found] using holds

theorem normalized_subjects : "" ∉ context.normalized.subjects := by
  simp [PrincipalPolicyContext.normalized, sortDedup, mem_dedup, mem_sortByKey]

structure ReachableStore (sha256 : String → String) extends Store where
  reachable : Reachable sha256 toStore

/-- A delegated subject of blanks only passes for the empty subject, and the active policy lets the
empty subject read the object once missing properties count as empty, but not before. -/
def Store.BlankDelegate (store : Store) (context : PrincipalPolicyContext) (object : Object) : Prop :=
  store.activated object.nameSpace ∧ context.delegatedSubject.map trim = some "" ∧
    ∃ policy, store.loadActivePolicy object.nameSpace object.kind = .ok (some policy) ∧
      policy.allowed object .read context.normalized ∧
      policy.allowed object.blankMissing .read ⟨[""], [], none⟩ ∧
      ¬ policy.allowed object .read ⟨[""], [], none⟩

theorem admittedAs_of_loaded (activated : store.activated object.nameSpace)
    (loaded : store.loadActivePolicy object.nameSpace object.kind = .ok (some policy)) :
    store.AdmittedAs context object view ↔ policy.allowed view .read context.normalized ∧
      ∀ subject ∈ context.normalized.delegatedSubject, policy.allowed view .read ⟨[subject], [], none⟩ := by
  simp [Store.AdmittedAs, activated, loaded]

/-- Under an active policy, only a blank delegated subject can tell the two views apart. -/
theorem views_agree_iff (accepted : policy.Accepted) :
    ((policy.allowed object.blankMissing .read context.normalized ∧ ∀ subject ∈ context.normalized.delegatedSubject,
          policy.allowed object.blankMissing .read ⟨[subject], [], none⟩) ↔
      (policy.allowed object .read context.normalized ∧ ∀ subject ∈ context.normalized.delegatedSubject,
          policy.allowed object .read ⟨[subject], [], none⟩)) ↔
      ¬ (context.delegatedSubject.map trim = some "" ∧ policy.allowed object .read context.normalized ∧
        policy.allowed object.blankMissing .read ⟨[""], [], none⟩ ∧
        ¬ policy.allowed object .read ⟨[""], [], none⟩) := by
  rw [allowed_blankMissing accepted (normalized_subjects)]
  have same : context.normalized.delegatedSubject = context.delegatedSubject.map trim := rfl
  rw [same]
  cases context.delegatedSubject.map trim with
  | none => simp
  | some subject =>
    simp only [Option.mem_def, Option.some.injEq, forall_eq']
    by_cases blank : subject = ""
    · subst blank
      have more : policy.allowed object .read ⟨[""], [], none⟩ →
          policy.allowed object.blankMissing .read ⟨[""], [], none⟩ := allowed_blankMissing_of_allowed
      tauto
    · have named : "" ∉ (⟨[subject], [], none⟩ : PrincipalPolicyContext).subjects := by
        simpa using Ne.symm blank
      rw [allowed_blankMissing accepted named]
      simp [blank]

theorem admittedAs_blankMissing (valid : store.Valid) :
    (store.AdmittedAs context object object.blankMissing ↔ store.AdmittedAs context object object) ↔
      ¬ store.BlankDelegate context object := by
  by_cases activated : store.activated object.nameSpace
  · by_cases found : ∃ policy, store.loadActivePolicy object.nameSpace object.kind = .ok (some policy)
    · obtain ⟨policy, loaded⟩ := found
      obtain ⟨_, _, revision, member, _, _, _, rfl⟩ := valid.loadActivePolicy_iff.mp loaded
      have accepted := (ObjectSecurityPolicy.prepare_eq_ok.mp (valid.faithful revision member).1).1
      rw [admittedAs_of_loaded activated loaded, admittedAs_of_loaded activated loaded, views_agree_iff accepted]
      simp [Store.BlankDelegate, activated, loaded]
    · have missing : ∀ policy, store.loadActivePolicy object.nameSpace object.kind ≠ .ok (some policy) :=
        not_exists.mp found
      simp [Store.AdmittedAs, Store.BlankDelegate, missing]
  · simp [Store.AdmittedAs, Store.BlankDelegate, activated]

/-- Both filters decide as the policies do in memory, unless a blank delegated subject meets a
missing property. -/
theorem filters_decide_iff {sha256 : String → String} (store : ReachableStore sha256)
    (context : PrincipalPolicyContext) (object : Object) :
    ((sqliteObjectSecurityFilter store.toStore context object = some true ↔ store.decision context object) ∧
      (postgresObjectSecurityFilter store.toStore context object = some true ↔
        store.decision context object)) ↔ ¬ store.BlankDelegate context object := by
  have valid := Store.reachable_valid store.reachable
  rw [sqliteObjectSecurityFilter_iff valid, postgresObjectSecurityFilter_iff valid,
    decision_iff valid, ← admittedAs_blankMissing valid]
  simp

def unowned : Object := ⟨"team-a", "ticket", fun _ => none⟩

def supportAgent : PrincipalPolicyContext := ⟨["agent"], ["support"], some " "⟩

def sharedDigest : String := "sekai.object-security-policy/v1\x00" ++ sharedPolicy.toJson

def sharedMap : KindMap := ⟨[("ticket", sharedDigest)], List.pairwise_singleton _ _⟩

def sharedRevision : Revision := ⟨"team-a", "ticket", sharedDigest, sharedPolicy, "admin", 1⟩

def sharedActivation : Activation :=
  ⟨"team-a", mappingDigest id "team-a" sharedMap, sharedMap, "admin", 2⟩

def ticketStore : Store := { Store.empty with objects := [unowned] }

def storedStore : Store :=
  (ticketStore.insertRevision sharedRevision sharedPolicy).persistRequest
    ⟨"team-a", "admin", "put-1", sharedDigest, .put sharedRevision⟩

def sharedStore : Store :=
  (storedStore.install sharedActivation).persistRequest
    ⟨"team-a", "admin", "activate-1", sharedActivation.activationId, .activate sharedActivation⟩

theorem supportAgent_normalized : supportAgent.normalized = ⟨["agent"], ["support"], some ""⟩ := by
  have agent : trim "agent" = "agent" := by decide
  have support : trim "support" = "support" := by decide
  have blank : trim " " = "" := by decide
  simp [PrincipalPolicyContext.normalized, supportAgent, agent, support, blank, sortDedup, sortByKey, dedup]

theorem sharedPolicy_loads : sharedPolicy.fromCanonicalInput = .ok sharedPolicy := by
  rw [ObjectSecurityPolicy.fromCanonicalInput, if_neg (by decide +kernel), sharedPolicy_prepare]

theorem put_sharedPolicy : ticketStore.putObjectSecurityPolicy id sharedPolicy "admin" "put-1" 1 =
      .ok (storedStore, sharedRevision) := by
  have digest : sharedPolicy.revisionDigest id = .ok sharedDigest := by
    rw [ObjectSecurityPolicy.revisionDigest, ObjectSecurityPolicy.canonicalPolicy, sharedPolicy_prepare]
    rfl
  exact bind_eq_ok.mpr ⟨(), by decide, bind_eq_ok.mpr ⟨_, sharedPolicy_prepare,
    bind_eq_ok.mpr ⟨_, sharedPolicy_prepare, bind_eq_ok.mpr ⟨_, digest, rfl⟩⟩⟩⟩

theorem activate_sharedMap : storedStore.activateObjectSecurityPolicies id "team-a" sharedMap "admin" "activate-1" 2 =
      .ok (sharedStore, sharedActivation) := by
  have loaded : storedStore.loadRevision "team-a" sharedDigest = some sharedRevision := by
    simp [Store.loadRevision, storedStore, ticketStore, Store.persistRequest, Store.insertRevision,
      Store.empty, sharedRevision]
  have entry : storedStore.checkEntry "team-a" ("ticket", sharedDigest) = .ok () := by
    rw [Store.checkEntry, loaded]
    simp [sharedRevision, sharedPolicy_loads, Except.isOk, Except.toBool]
  have checked : sharedMap.entries.forM (storedStore.checkEntry "team-a") = .ok () :=
    forM_eq_ok.mpr (List.forall_mem_singleton.mpr entry)
  have stored : storedStore.storeActivation "team-a" sharedMap sharedActivation.activationId "admin"
      "activate-1" 2 = .ok (sharedStore, sharedActivation) := by
    exact bind_eq_ok.mpr ⟨(), checked, rfl⟩
  refine bind_eq_ok.mpr ⟨(), by decide, ?_⟩
  exact bind_eq_ok.mpr ⟨none, rfl, stored⟩

def sharedReachable : ReachableStore id where
  toStore := sharedStore
  reachable := ((Relation.ReflTransGen.refl.tail (.objects [unowned])).tail
    (.put put_sharedPolicy)).tail (.activate activate_sharedMap)

/-- PostgreSQL returns an unowned ticket that the policy denies to the blank subject. -/
theorem unowned_admitted_by_postgres :
    postgresObjectSecurityFilter sharedReachable.toStore supportAgent unowned = some true ∧
      sqliteObjectSecurityFilter sharedReachable.toStore supportAgent unowned ≠ some true ∧
      ¬ sharedReachable.decision supportAgent unowned := by
  have valid := Store.reachable_valid sharedReachable.reachable
  have activated : sharedReachable.activated unowned.nameSpace := ⟨_, List.mem_singleton_self _, rfl⟩
  have loaded : sharedReachable.loadActivePolicy unowned.nameSpace unowned.kind = .ok (some sharedPolicy) :=
    valid.loadActivePolicy_iff.mpr ⟨⟨"team-a", "ticket", sharedDigest⟩, mem_singleton_self _,
      sharedRevision, mem_singleton_self _, ⟨rfl, rfl, rfl, sharedPolicy_loads⟩, rfl, rfl, rfl⟩
  rw [postgresObjectSecurityFilter_iff valid, ne_eq, sqliteObjectSecurityFilter_iff valid,
    decision_iff valid, admittedAs_of_loaded activated loaded, admittedAs_of_loaded activated loaded,
    supportAgent_normalized]
  decide

end SekaiChisei.ObjectSecurity
