import SekaiChisei.Ontology.Registry

/-!
The class graph over every sequence of upserts. A definition is checked from its own side only: what it newly connects
below and above it is not.
-/

namespace SekaiChisei.Ontology
open Lib Graph List Function Trace OntologyRegistry

variable {registry next : OntologyRegistry} {definition : OntologyClass} {name : String}

theorem getClass_removeClass (removed name : String) : (registry.removeClass removed).getClass name =
      if name = removed then none else registry.getClass name :=
  Table.find_filter_ne _ _ removed name

theorem getClass_registerClass : (registry.registerClass definition).getClass name =
      if name = definition.name then some definition else (registry.removeClass definition.name).getClass name := by
  rw [getClass_removeClass]
  refine (Table.find_put (·.name) registry.classes definition name).trans ?_
  split <;> rfl

theorem getClass_name {row : OntologyClass} (found : registry.getClass name = some row) : row.name = name :=
  Table.key_of_find found

theorem superclasses_registerClass : (registry.registerClass definition).superclasses =
      update (registry.removeClass definition.name).superclasses definition.name definition.superclasses := by
  funext name
  rw [superclasses, getClass_registerClass, update_apply]
  split <;> rfl

theorem disjointClasses_registerClass : (registry.registerClass definition).disjointClasses =
      update (registry.removeClass definition.name).disjointClasses definition.name definition.disjointClasses := by
  funext name
  rw [disjointClasses, getClass_registerClass, update_apply]
  split <;> rfl

theorem equivalentClasses_registerClass : (registry.registerClass definition).equivalentClasses =
      update (registry.removeClass definition.name).equivalentClasses definition.name
        definition.equivalentClasses := by
  funext name
  rw [equivalentClasses, getClass_registerClass, update_apply]
  split <;> rfl

theorem mem_superclassClosure (other : String) :
    other ∈ registry.superclassClosure name ↔ Above registry.superclasses name other := by
  have inside : ∀ x, registry.superclasses x ≠ [] → x ∈ registry.classes.map (·.name) := by
    intro x nonempty
    cases found : registry.getClass x with
    | none =>
      rw [superclasses, found] at nonempty
      exact absurd rfl nonempty
    | some row =>
      exact mem_map.mpr ⟨row, mem_of_find?_eq_some found, getClass_name found⟩
  refine mem_explore inside ?_ other
  rw [List.map_map]
  rfl

theorem mem_ancestors (other : String) : other ∈ ancestors definition registry ↔
      ReachedBy registry.superclasses definition.superclasses other := by
  simp only [ancestors, mem_flatMap, mem_cons, mem_superclassClosure, ReachedBy, eq_comm]

namespace OntologyRegistry

def Acyclic (registry : OntologyRegistry) : Prop := ∀ name, ¬ Above registry.superclasses name name

def NoContradiction (registry : OntologyRegistry) : Prop :=
  ∀ a b, Clash registry.equivalentClasses a b → ¬ Clash registry.disjointClasses a b

def NoDisjointAncestor (registry : OntologyRegistry) : Prop :=
  ∀ a b, Above registry.superclasses a b → ¬ Clash registry.disjointClasses a b

structure Consistent (registry : OntologyRegistry) : Prop where
  acyclic : registry.Acyclic
  noContradiction : registry.NoContradiction
  noDisjointAncestor : registry.NoDisjointAncestor

end OntologyRegistry

variable {removed : String}

theorem removeClass_sub {read : OntologyClass → List String} (a b : String)
    (member : b ∈ (((registry.removeClass removed).getClass a).map read).getD []) :
    b ∈ ((registry.getClass a).map read).getD [] := by
  rw [getClass_removeClass] at member
  split at member
  · cases member
  · exact member

variable {a b : String} {action : Action}

theorem removeClass_above (above : Above (registry.removeClass removed).superclasses a b) :
    Above registry.superclasses a b :=
  Relation.TransGen.mono (fun a b => removeClass_sub a b) a b above

theorem removeClass_disjoint (clash : Clash (registry.removeClass removed).disjointClasses a b) :
    Clash registry.disjointClasses a b :=
  clash.imp (removeClass_sub a b) (removeClass_sub b a)

theorem removeClass_equivalent (clash : Clash (registry.removeClass removed).equivalentClasses a b) :
    Clash registry.equivalentClasses a b :=
  clash.imp (removeClass_sub a b) (removeClass_sub b a)

theorem OntologyRegistry.Acyclic.removeClass (acyclic : registry.Acyclic) (removed : String) :
    (registry.removeClass removed).Acyclic :=
  fun name cycle => acyclic name (removeClass_above cycle)

theorem OntologyRegistry.NoContradiction.removeClass (none : registry.NoContradiction) (removed : String) :
    (registry.removeClass removed).NoContradiction :=
  fun a b same clash =>
    none a b (removeClass_equivalent same) (removeClass_disjoint clash)

theorem OntologyRegistry.NoDisjointAncestor.removeClass (none : registry.NoDisjointAncestor)
    (removed : String) : (registry.removeClass removed).NoDisjointAncestor :=
  fun a b above clash => none a b (removeClass_above above) (removeClass_disjoint clash)

structure Checked (definition : OntologyClass) (registry : OntologyRegistry) : Prop where
  clear : Clear registry.superclasses definition.name definition.superclasses
  apart : ∀ above, ReachedBy registry.superclasses definition.superclasses above → above ∉ definition.disjointClasses
  notSelf : definition.name ∉ definition.disjointClasses
  equivalent : ∀ other ∈ definition.equivalentClasses,
    other ∉ definition.disjointClasses ∧ definition.name ∉ registry.disjointClasses other
  disjoint : ∀ other ∈ definition.disjointClasses, definition.name ∉ registry.equivalentClasses other

theorem checkCycle_eq_ok (passed : checkCycle definition registry = .ok ()) :
    Clear registry.superclasses definition.name definition.superclasses := by
  intro parent member
  have one := forM_eq_ok.mp passed parent member
  rw [ite_error_eq_ok, ite_error_eq_ok, mem_superclassClosure] at one
  exact ⟨one.1, one.2.1⟩

theorem checkDisjoint_eq_ok (passed : checkDisjoint definition registry = .ok ()) :
    ∀ other ∈ definition.disjointClasses, other ≠ definition.name ∧
      ¬ ReachedBy registry.superclasses definition.superclasses other := by
  intro other member
  have one := forM_eq_ok.mp passed other member
  rw [ite_error_eq_ok, ite_error_eq_ok, mem_ancestors] at one
  exact ⟨one.1, one.2.1⟩

theorem checkEquivalence_eq_ok (passed : checkEquivalence definition registry = .ok ()) :
    (∀ other ∈ definition.equivalentClasses,
      other ∉ definition.disjointClasses ∧ definition.name ∉ registry.disjointClasses other) ∧
    ∀ other ∈ definition.disjointClasses, definition.name ∉ registry.equivalentClasses other := by
  unfold checkEquivalence at passed
  cases contradiction : definition.equivalentClasses.find? (· ∈ definition.disjointClasses) with
  | some other =>
    rw [contradiction] at passed
    cases passed
  | none =>
    rw [contradiction] at passed
    obtain ⟨_, passed⟩ := check_eq_ok.mp passed
    obtain ⟨equivalents, disjoints⟩ := check_eq_ok.mp passed
    refine ⟨?_, ?_⟩
    · intro other member
      have one := forM_eq_ok.mp equivalents other member
      rw [ite_error_eq_ok] at one
      have free := find?_eq_none.mp contradiction other member
      exact ⟨by simpa using free, one.1⟩
    · intro other member
      have one := forM_eq_ok.mp disjoints other member
      rw [ite_error_eq_ok] at one
      exact one.1

theorem validateClassDefinition_eq_ok {existing : Option OntologyClass}
    (passed : validateClassDefinition definition registry existing = .ok ()) : Checked definition registry := by
  unfold validateClassDefinition at passed
  simp only [check_eq_ok] at passed
  obtain ⟨_, _, _, _, _, equivalence, cycle, disjoint⟩ := passed
  obtain ⟨equivalents, disjoints⟩ := checkEquivalence_eq_ok equivalence
  have apart := checkDisjoint_eq_ok disjoint
  refine ⟨checkCycle_eq_ok cycle, ?_, ?_, equivalents, disjoints⟩
  · intro above reached member
    exact (apart above member).2 reached
  · intro member
    exact (apart _ member).1 rfl

theorem upsertClass_eq_ok (accepted : upsertClass definition registry = .ok next) :
    next = registry.registerClass definition ∧ Checked definition (registry.removeClass definition.name) := by
  obtain ⟨passed, written⟩ := check_eq_ok.mp accepted
  cases written
  exact ⟨rfl, validateClassDefinition_eq_ok passed⟩

theorem noContradiction_registerClass (none : (registry.removeClass definition.name).NoContradiction)
    (checked : Checked definition (registry.removeClass definition.name)) :
    (registry.registerClass definition).NoContradiction := by
  -- a contradiction with the new definition, seen from its side
  have own : ∀ other, Clash (registry.registerClass definition).equivalentClasses definition.name other →
      ¬ Clash (registry.registerClass definition).disjointClasses definition.name other := by
    intro other same clash
    rw [equivalentClasses_registerClass] at same
    rw [disjointClasses_registerClass] at clash
    by_cases self : other = definition.name
    · subst self
      simp only [Clash, update_self, or_self] at clash
      exact checked.notSelf clash
    · simp only [Clash, update_self, update_of_ne self] at same clash
      rcases same with declared | fromOther
      · have free := checked.equivalent other declared
        exact clash.elim free.1 free.2
      · rcases clash with declared | alsoOther
        · exact checked.disjoint other declared fromOther
        · exact none other definition.name (.inl fromOther) (.inl alsoOther)
  intro a b same clash
  by_cases first : a = definition.name
  · subst first
    exact own b same clash
  · by_cases second : b = definition.name
    · subst second
      exact own a same.symm clash.symm
    · rw [equivalentClasses_registerClass] at same
      rw [disjointClasses_registerClass] at clash
      simp only [Clash, update_of_ne first, update_of_ne second] at same clash
      exact none a b same clash

theorem superclasses_removeClass : (registry.removeClass name).superclasses name = [] := by
  rw [superclasses, getClass_removeClass, if_pos rfl]
  rfl

theorem disjointClasses_removeClass : (registry.removeClass name).disjointClasses name = [] := by
  rw [disjointClasses, getClass_removeClass, if_pos rfl]
  rfl

theorem acyclic_registerClass (acyclic : (registry.removeClass definition.name).Acyclic)
    (checked : Checked definition (registry.removeClass definition.name)) :
    (registry.registerClass definition).Acyclic := by
  intro name cycle
  rw [superclasses_registerClass] at cycle
  exact acyclic_update acyclic checked.clear name cycle

/-- What the checks leave out: no ancestor declares the class disjoint, the class declares none of its
descendants disjoint, and no descendant is disjoint with an ancestor that it gets by the definition. -/
def Compatible (registry : OntologyRegistry) (definition : OntologyClass) : Prop :=
  (∀ above ∈ ancestors definition registry, definition.name ∉ registry.disjointClasses above) ∧
    ∀ below ∈ registry.classes, definition.name ∈ registry.superclassClosure below.name →
      below.name ∉ definition.disjointClasses ∧ ∀ above ∈ ancestors definition registry,
        ¬ Clash registry.disjointClasses below.name above

theorem mem_classes_of_above (above : Above registry.superclasses a b) : ∃ row ∈ registry.classes, row.name = a := by
  obtain ⟨parent, edge, _⟩ := Relation.TransGen.head'_iff.mp above
  rw [Edge, superclasses] at edge
  cases found : registry.getClass a with
  | none =>
    rw [found] at edge
    cases edge
  | some row => exact ⟨row, mem_of_find?_eq_some found, getClass_name found⟩

theorem noDisjointAncestor_registerClass_iff (acyclic : (registry.removeClass definition.name).Acyclic)
    (none : (registry.removeClass definition.name).NoDisjointAncestor)
    (checked : Checked definition (registry.removeClass definition.name)) :
    (registry.registerClass definition).NoDisjointAncestor ↔
      Compatible (registry.removeClass definition.name) definition := by
  unfold OntologyRegistry.NoDisjointAncestor
  rw [superclasses_registerClass, disjointClasses_registerClass,
    noClash_update_iff checked.clear (disjointClasses_removeClass) acyclic (superclasses_removeClass) none]
  simp only [Compatible, mem_ancestors, mem_superclassClosure]
  constructor
  · rintro ⟨parents, below⟩
    refine ⟨fun above reached => (parents above reached).2, ?_⟩
    intro row _ under
    exact below row.name under
  · rintro ⟨parents, below⟩
    refine ⟨fun above reached => ⟨checked.apart above reached, parents above reached⟩, ?_⟩
    intro a under
    obtain ⟨row, member, rfl⟩ := mem_classes_of_above under
    exact below row member under

theorem upsertClass_consistent_iff (consistent : registry.Consistent)
    (accepted : upsertClass definition registry = .ok next) :
    next.Consistent ↔ Compatible (registry.removeClass definition.name) definition := by
  obtain ⟨rfl, checked⟩ := upsertClass_eq_ok accepted
  have acyclic := consistent.acyclic.removeClass definition.name
  have ancestors := noDisjointAncestor_registerClass_iff acyclic
    (consistent.noDisjointAncestor.removeClass definition.name) checked
  constructor
  · intro after
    exact ancestors.mp after.noDisjointAncestor
  · intro compatible
    exact ⟨acyclic_registerClass acyclic checked,
      noContradiction_registerClass (consistent.noContradiction.removeClass _) checked,
      ancestors.mpr compatible⟩

theorem upsertRelation_classes {relation : OntologyRelation} {sourcesOver : SourcesOver}
    (accepted : upsertRelation relation registry sourcesOver = .ok next) : next.classes = registry.classes := by
  rw [upsertRelationRow_eq_ok (check_eq_ok.mp accepted).2]
  rfl

/-- Relations have no part in the laws of the class graph. -/
theorem consistent_of_classes (same : next.classes = registry.classes) : next.Consistent ↔ registry.Consistent := by
  obtain ⟨_, others⟩ := registry
  subst same
  exact ⟨fun h => ⟨h.acyclic, h.noContradiction, h.noDisjointAncestor⟩,
    fun h => ⟨h.acyclic, h.noContradiction, h.noDisjointAncestor⟩⟩

def Clashing (registry : OntologyRegistry) (action : Action) : Prop :=
  ∃ definition next, action = .upsertClass definition ∧ upsertClass definition registry = .ok next ∧
    ¬ Compatible (registry.removeClass definition.name) definition

theorem step_consistent_iff (consistent : registry.Consistent) :
    (step registry action).Consistent ↔ ¬ Clashing registry action := by
  unfold step
  cases action with
  | upsertRelation relation sourcesOver =>
    refine iff_of_true ?_ ?_
    · split
      · rename_i next accepted
        exact (consistent_of_classes (upsertRelation_classes accepted)).mpr consistent
      · exact consistent
    · rintro ⟨definition, next, no, _⟩
      cases no
  | upsertClass definition =>
    split
    · rename_i next accepted
      rw [upsertClass_consistent_iff consistent accepted]
      constructor
      · rintro compatible ⟨_, _, same, _, clash⟩
        cases same
        exact clash compatible
      · intro safe
        by_contra clash
        exact safe ⟨definition, next, rfl, accepted, clash⟩
    · rename_i error refused
      refine iff_of_true consistent ?_
      rintro ⟨_, next, same, accepted, _⟩
      cases same
      rw [Action.run, accepted] at refused
      cases refused

theorem step_keeps (acyclic : registry.Acyclic) (none : registry.NoContradiction) :
    (step registry action).Acyclic ∧ (step registry action).NoContradiction := by
  unfold step
  split
  · rename_i next accepted
    cases action with
    | upsertRelation relation sourcesOver =>
      have same := upsertRelation_classes accepted
      obtain ⟨classes, relations⟩ := next
      subst same
      exact ⟨acyclic, none⟩
    | upsertClass definition =>
      obtain ⟨rfl, checked⟩ := upsertClass_eq_ok accepted
      exact ⟨acyclic_registerClass (acyclic.removeClass _) checked,
        noContradiction_registerClass (none.removeClass _) checked⟩
  · exact ⟨acyclic, none⟩

theorem empty_above : ¬ Above empty.superclasses a b := by
  intro above
  obtain ⟨_, edge, _⟩ := Relation.TransGen.head'_iff.mp above
  cases edge

theorem empty_consistent : empty.Consistent := by
  refine ⟨fun _ => empty_above, ?_, ?_⟩
  · rintro a b (no | no)
    · cases no
    · cases no
  · intro a b above
    exact absurd above empty_above

/-- Every sequence of upserts keeps the graph acyclic and uncontradicted; it stays consistent exactly when no upsert
clashes with what it connects. -/
theorem classGraph_consistent_iff (actions : List Action) : (∀ n, (after step .empty actions n).Acyclic ∧
      (after step .empty actions n).NoContradiction) ∧ ((∀ n, (after step .empty actions n).Consistent) ↔
      ∀ n definition next, actions[n]? = some (.upsertClass definition) →
        upsertClass definition (after step .empty actions n) = .ok next →
        Compatible ((after step .empty actions n).removeClass definition.name) definition) := by
  refine ⟨?_, ?_⟩
  · exact always (P := fun state => Acyclic state ∧ NoContradiction state)
      ⟨empty_consistent.acyclic, empty_consistent.noContradiction⟩ fun _ action _ before => step_keeps before.1 before.2
  · rw [always_iff empty_consistent fun state action _ consistent =>
      step_consistent_iff consistent]
    constructor
    · intro safe n definition next atN accepted
      by_contra clash
      exact safe n _ atN ⟨definition, next, rfl, accepted, clash⟩
    · rintro compatible n _ atN ⟨definition, next, rfl, accepted, clash⟩
      exact clash (compatible n definition next atN accepted)

def samplePerson (disjointClasses : List String) : OntologyClass :=
  ⟨"Person", [], [], disjointClasses, [], false⟩

def sampleEngineer : OntologyClass := ⟨"Engineer", ["Person"], [], [], [], false⟩

/-- A superclass is declared disjoint with its subclass. -/
theorem classGraph_disjoint_ancestor :
    ¬ (after step .empty [.upsertClass (samplePerson []), .upsertClass sampleEngineer,
      .upsertClass (samplePerson ["Engineer"])] 3).Consistent := by
  intro consistent
  refine consistent.noDisjointAncestor "Engineer" "Person" (.single ?_) (.inr ?_)
  · show "Person" ∈ _
    decide +kernel
  · decide +kernel

end SekaiChisei.Ontology
