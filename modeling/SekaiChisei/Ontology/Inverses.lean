import SekaiChisei.Ontology.Registry

/-!
The inverses of relations over every sequence of upserts. A relation is checked against the inverse it names, not
against the relations that name it.
-/

namespace SekaiChisei.Ontology
open Lib

variable {registry next : OntologyRegistry} {definition : OntologyRelation} {sourcesOver : SourcesOver}

theorem getRelation_removeRelation (removed name : String) : (registry.removeRelation removed).getRelation name =
      if name = removed then none else registry.getRelation name :=
  Table.find_filter_ne _ _ removed name

theorem getRelation_registerRelation (name : String) : (registry.registerRelation definition).getRelation name =
      if name = definition.name then some definition else registry.getRelation name :=
  Table.find_put _ _ definition name

structure Pair (relation inverse : OntologyRelation) : Prop where
  domain : relation.domain = inverse.range
  range : relation.range = inverse.domain
  back : inverse.inverse ≠ "" → inverse.inverse = relation.name

def OntologyRegistry.Paired (registry : OntologyRegistry) : Prop :=
  ∀ name relation inverse, registry.getRelation name = some relation → relation.inverse ≠ "" →
    registry.getRelation relation.inverse = some inverse → Pair relation inverse

def FitsPartners (registry : OntologyRegistry) (definition : OntologyRelation) : Prop :=
  ∀ name relation, registry.getRelation name = some relation → relation.inverse = definition.name →
    Pair relation definition

theorem validateRelationDefinition_eq_ok {existing : Option OntologyRelation}
    (passed : validateRelationDefinition definition registry existing = .ok ()) :
    definition.name ≠ "" ∧ definition.inverse ≠ definition.name ∧ (definition.inverse ≠ "" →
        ∃ inverse, registry.getRelation definition.inverse = some inverse ∧ Pair definition inverse) := by
  unfold validateRelationDefinition at passed
  simp only [ite_error_eq_ok, check_eq_ok] at passed
  obtain ⟨named, _, _, _, _, _, _, _, notOwn, inverse⟩ := passed
  have nonempty : definition.name ≠ "" := by
    intro empty
    rw [empty] at named
    exact named rfl
  refine ⟨nonempty, ?_, ?_⟩
  · intro own
    exact notOwn ⟨own ▸ nonempty, own⟩
  · intro hasInverse
    rw [checkInverse, if_neg hasInverse] at inverse
    split at inverse
    · cases inverse
    · rename_i found lookup
      rw [ite_error_eq_ok, ite_error_eq_ok, not_or, not_not, not_not, not_and, not_not] at inverse
      obtain ⟨back, ⟨domain, range⟩, _⟩ := inverse
      exact ⟨found, lookup, range.symm, domain.symm, back⟩

theorem paired_registerRelation_iff (paired : registry.Paired) (notOwn : definition.inverse ≠ definition.name)
    (fits : definition.inverse ≠ "" → ∃ inverse,
      (registry.removeRelation definition.name).getRelation definition.inverse = some inverse ∧
        Pair definition inverse) (nonempty : definition.name ≠ "") : (registry.registerRelation definition).Paired ↔
      FitsPartners (registry.removeRelation definition.name) definition := by
  constructor
  · intro after name relation found names
    rw [getRelation_removeRelation] at found
    split at found
    · cases found
    · rename_i different
      refine after name relation definition ?_ (names ▸ nonempty) ?_
      · rw [getRelation_registerRelation, if_neg different]
        exact found
      · rw [getRelation_registerRelation, if_pos names]
  · intro partners name relation inverse found names lookup
    rw [getRelation_registerRelation] at found lookup
    by_cases own : name = definition.name
    · -- the new definition and its inverse, which was checked
      rw [if_pos own] at found
      cases found
      rw [if_neg notOwn] at lookup
      obtain ⟨other, stored, pair⟩ := fits names
      rw [getRelation_removeRelation, if_neg notOwn, lookup] at stored
      cases stored
      exact pair
    · rw [if_neg own] at found
      by_cases partner : relation.inverse = definition.name
      · rw [if_pos partner] at lookup
        cases lookup
        refine partners name relation ?_ partner
        rw [getRelation_removeRelation, if_neg own]
        exact found
      · rw [if_neg partner] at lookup
        exact paired name relation inverse found names lookup

theorem upsertRelation_paired_iff (paired : registry.Paired)
    (accepted : upsertRelation definition registry sourcesOver = .ok next) :
    next.Paired ↔ FitsPartners (registry.removeRelation definition.name) definition := by
  obtain ⟨passed, written⟩ := check_eq_ok.mp accepted
  obtain ⟨nonempty, notOwn, fits⟩ := validateRelationDefinition_eq_ok passed
  rw [upsertRelationRow_eq_ok written]
  exact paired_registerRelation_iff paired notOwn fits nonempty

theorem upsertClass_relations {definition : OntologyClass}
    (accepted : upsertClass definition registry = .ok next) : next.relations = registry.relations := by
  obtain ⟨_, written⟩ := check_eq_ok.mp accepted
  cases written
  rfl

theorem paired_of_relations (same : next.relations = registry.relations) (paired : registry.Paired) :
    next.Paired := by
  obtain ⟨classes, relations⟩ := next
  subst same
  exact paired

def Unfit (registry : OntologyRegistry) (action : Action) : Prop :=
  ∃ definition sourcesOver next, action = .upsertRelation definition sourcesOver ∧
    upsertRelation definition registry sourcesOver = .ok next ∧
      ¬ FitsPartners (registry.removeRelation definition.name) definition

theorem step_paired_iff (paired : registry.Paired) (action : Action) :
    (step registry action).Paired ↔ ¬ Unfit registry action := by
  unfold step
  cases action with
  | upsertClass definition =>
    refine iff_of_true ?_ ?_
    · split
      · rename_i next accepted
        exact paired_of_relations (upsertClass_relations accepted) paired
      · exact paired
    · rintro ⟨relation, sourcesOver, next, no, _⟩
      cases no
  | upsertRelation definition sourcesOver =>
    split
    · rename_i next accepted
      rw [upsertRelation_paired_iff paired accepted]
      constructor
      · rintro fits ⟨_, _, _, same, _, unfit⟩
        cases same
        exact unfit fits
      · intro safe
        by_contra unfit
        exact safe ⟨definition, sourcesOver, next, rfl, accepted, unfit⟩
    · rename_i error refused
      refine iff_of_true paired ?_
      rintro ⟨_, _, next, same, accepted, _⟩
      cases same
      rw [Action.run, accepted] at refused
      cases refused

/-- Over every sequence of upserts the inverses stay paired exactly when each relation that is written fits
the relations that name it as their inverse. -/
theorem inverses_paired_iff (actions : List Action) : (∀ n, (Trace.after step .empty actions n).Paired) ↔
      ∀ n definition sourcesOver next, actions[n]? = some (.upsertRelation definition sourcesOver) →
        upsertRelation definition (Trace.after step .empty actions n) sourcesOver = .ok next →
        FitsPartners ((Trace.after step .empty actions n).removeRelation definition.name) definition := by
  have initial : OntologyRegistry.empty.Paired := by
    intro name relation inverse found
    cases found
  rw [Trace.always_iff initial fun state action _ paired => step_paired_iff paired action]
  constructor
  · intro safe n definition sourcesOver next atN accepted
    by_contra unfit
    exact safe n _ atN ⟨definition, sourcesOver, next, rfl, accepted, unfit⟩
  · rintro fits n _ atN ⟨definition, sourcesOver, next, rfl, accepted, unfit⟩
    exact unfit (fits n definition sourcesOver next atN accepted)

def sampleClass (name : String) : Action := .upsertClass ⟨name, [], [], [], [], false⟩

def sampleRelation (name domain range inverse : String) : OntologyRelation :=
  ⟨name, domain, range, ⟨0, none⟩, inverse, false, ""⟩

def sampleUpserts : List Action :=
  [sampleClass "Person", sampleClass "Company",
    .upsertRelation (sampleRelation "employs" "Company" "Person" "") fun _ _ => 0,
    .upsertRelation (sampleRelation "works_for" "Person" "Company" "employs") fun _ _ => 0,
    .upsertRelation (sampleRelation "paid_by" "Person" "Company" "employs") fun _ _ => 0,
    .upsertRelation (sampleRelation "employs" "Company" "Person" "works_for") fun _ _ => 0]

/-- Two relations name one inverse, which then names one of them. -/
theorem inverses_two_partners : ¬ (Trace.after step .empty sampleUpserts 6).Paired := by
  intro paired
  have pair := paired "paid_by" (sampleRelation "paid_by" "Person" "Company" "employs")
    (sampleRelation "employs" "Company" "Person" "works_for") (by rfl) (by decide) (by rfl)
  exact absurd (pair.back (by decide)) (by decide)

/-- The RPC also compares the ends of the partners, so that only the inverse that is named may go wrong. -/
theorem createRelation_paired_iff (paired : registry.Paired)
    (accepted : createRelation definition registry sourcesOver = .ok next) :
    next.Paired ↔ ∀ name relation, (registry.removeRelation definition.name).getRelation name = some relation →
      relation.inverse = definition.name → definition.inverse ≠ "" → definition.inverse = relation.name := by
  obtain ⟨passed, rest⟩ := check_eq_ok.mp accepted
  obtain ⟨partners, written⟩ := check_eq_ok.mp rest
  obtain ⟨nonempty, notOwn, fits⟩ := validateRelationDefinition_eq_ok passed
  rw [upsertRelationRow_eq_ok written, paired_registerRelation_iff paired notOwn fits nonempty]
  constructor
  · intro all name relation found names
    exact (all name relation found names).back
  · intro back name relation found names
    have member : relation ∈ (registry.removeRelation definition.name).relations.filter
        (·.inverse = definition.name) :=
      List.mem_filter.mpr ⟨List.mem_of_find?_eq_some found, decide_eq_true names⟩
    have ends := forM_eq_ok.mp partners relation member
    rw [ite_error_eq_ok, not_or, not_not, not_not] at ends
    exact ⟨ends.1.1, ends.1.2, back name relation found names⟩

/-- The RPC accepts the last of the sample definitions as well, and a pair is lost. -/
theorem createRelation_paired_iff_employs :
    ∃ next, createRelation (sampleRelation "employs" "Company" "Person" "works_for")
    (Trace.after step .empty sampleUpserts 5) (fun _ _ => 0) = .ok next ∧ ¬ next.Paired := by
  have employs : (Trace.after step .empty sampleUpserts 5).getRelation "employs" =
      some (sampleRelation "employs" "Company" "Person" "") := by rfl
  have paidBy : ((Trace.after step .empty sampleUpserts 5).removeRelation "employs").getRelation "paid_by" =
      some (sampleRelation "paid_by" "Person" "Company" "employs") := by rfl
  have paired : (Trace.after step .empty sampleUpserts 5).Paired := by
    intro name relation inverse found named lookup
    have relations : (Trace.after step .empty sampleUpserts 5).relations =
        [sampleRelation "employs" "Company" "Person" "",
        sampleRelation "works_for" "Person" "Company" "employs",
        sampleRelation "paid_by" "Person" "Company" "employs"] := by rfl
    have member := List.mem_of_find?_eq_some found
    rw [relations] at member
    rcases List.mem_cons.mp member with rfl | member
    · exact absurd rfl named
    · have names : relation.domain = "Person" ∧ relation.range = "Company" ∧ relation.inverse = "employs" := by
        simp only [List.mem_cons, List.not_mem_nil, or_false] at member
        rcases member with rfl | rfl <;> exact ⟨rfl, rfl, rfl⟩
      rw [names.2.2, employs] at lookup
      cases lookup
      exact ⟨names.1, names.2.1, absurd rfl⟩
  refine Exists.imp (fun next accepted => ⟨accepted, fun kept => ?_⟩) ⟨_, rfl⟩
  have back := (createRelation_paired_iff paired accepted).mp kept "paid_by" _ paidBy rfl
  exact absurd (back (by decide)) (by decide)

end SekaiChisei.Ontology
