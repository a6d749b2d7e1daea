import Mathlib
import SekaiChisei.Lib.Graph

/-!
Search with a stack, and what becomes of a graph when one node is given new successors.
-/

namespace SekaiChisei.Lib.Graph
open List Function

section
variable {α : Type} [DecidableEq α] (next : α → List α)

/-- One round over the stack and the nodes found: the top is dropped when it was found before, and else its
successors that were not found are pushed. -/
def exploreStep : List α × List α → List α × List α
  | ([], found) => ([], found)
  | (current :: stack, found) =>
    if current ∈ found then (stack, found)
    else (((next current).filter (· ∉ current :: found)).reverse ++ stack, current :: found)

def exploreLoop : Nat → List α × List α → List α × List α
  | 0, state => state
  | rounds + 1, state => exploreLoop rounds (exploreStep next state)

def explore (rounds : Nat) (start : α) : List α :=
  (exploreLoop next rounds ((next start).reverse, [])).2

end

section
variable {α : Type} [DecidableEq α] {next : α → List α} {start : α}

structure ExploreInv (next : α → List α) (start : α) (state : List α × List α) : Prop where
  reachable : ∀ x, x ∈ state.1 ∨ x ∈ state.2 → Above next start x
  pushed : ∀ x, x = start ∨ x ∈ state.2 → ∀ y ∈ next x, y ∈ state.1 ∨ y ∈ state.2

omit [DecidableEq α] in
theorem exploreInv_start : ExploreInv next start ((next start).reverse, []) := by
  refine ⟨?_, ?_⟩
  · intro x member
    rcases member with stacked | found
    · exact .single (mem_reverse.mp stacked)
    · cases found
  · intro x known y edge
    rcases known with rfl | found
    · exact .inl (mem_reverse.mpr edge)
    · cases found

variable {state : List α × List α}

theorem ExploreInv.step (inv : ExploreInv next start state) : ExploreInv next start (exploreStep next state) := by
  obtain ⟨stack, found⟩ := state
  cases stack with
  | nil => exact inv
  | cons current stack =>
    have reached := inv.reachable current (.inl mem_cons_self)
    rw [exploreStep]
    split
    · rename_i again
      refine ⟨?_, ?_⟩
      · intro x member
        exact inv.reachable x (member.imp_left (mem_cons_of_mem _))
      · intro x known y edge
        rcases inv.pushed x known y edge with stacked | old
        · rcases mem_cons.mp stacked with rfl | rest
          · exact .inr again
          · exact .inl rest
        · exact .inr old
    · refine ⟨?_, ?_⟩
      · intro x member
        rcases member with stacked | known
        · rcases mem_append.mp stacked with fresh | rest
          · have edge := (mem_filter.mp (mem_reverse.mp fresh)).1
            exact reached.tail edge
          · exact inv.reachable x (.inl (mem_cons_of_mem _ rest))
        · rcases mem_cons.mp known with rfl | old
          · exact reached
          · exact inv.reachable x (.inr old)
      · intro x known y edge
        by_cases same : x = current
        · subst same
          by_cases old : y ∈ x :: found
          · exact .inr old
          · refine .inl (mem_append_left _ (mem_reverse.mpr ?_))
            exact mem_filter.mpr ⟨edge, decide_eq_true old⟩
        · have before : x = start ∨ x ∈ found := by
            rcases known with isStart | member
            · exact .inl isStart
            · exact .inr ((mem_cons.mp member).resolve_left same)
          rcases inv.pushed x before y edge with stacked | old
          · rcases mem_cons.mp stacked with rfl | rest
            · exact .inr mem_cons_self
            · exact .inl (mem_append_right _ rest)
          · exact .inr (mem_cons_of_mem _ old)

theorem ExploreInv.loop (rounds : Nat) (inv : ExploreInv next start state) :
    ExploreInv next start (exploreLoop next rounds state) := by
  induction rounds generalizing state with
  | zero => exact inv
  | succ rounds ih => exact ih inv.step

def unexplored (next : α → List α) (nodes found : List α) : Nat :=
  ((nodes.filter (· ∉ found)).map fun node => (next node).length).sum

theorem unexplored_cons_le (next : α → List α) (nodes found : List α) (current : α) :
    unexplored next nodes (current :: found) ≤ unexplored next nodes found := by
  have fewer : (nodes.filter (· ∉ current :: found)).Sublist (nodes.filter (· ∉ found)) := by
    apply monotone_filter_right
    intro node fresh
    simp only [mem_cons, not_or, decide_eq_true_eq] at fresh ⊢
    exact fresh.2
  exact (fewer.map fun node => (next node).length).sum_le_sum fun _ _ => Nat.zero_le _

variable {nodes : List α}

theorem unexplored_cons (next : α → List α) {found : List α} {current : α}
    (member : current ∈ nodes) (fresh : current ∉ found) :
    unexplored next nodes (current :: found) + (next current).length ≤ unexplored next nodes found := by
  induction nodes with
  | nil => cases member
  | cons node nodes ih =>
    have fewer := unexplored_cons_le next nodes found current
    unfold unexplored at ih fewer ⊢
    rw [filter_cons, filter_cons]
    by_cases same : node = current
    · subst same
      simp only [fresh, mem_cons_self, not_true_eq_false, not_false_eq_true, decide_false,
        decide_true, Bool.false_eq_true, if_false, if_true, map_cons, sum_cons]
      omega
    · have rest := ih ((mem_cons.mp member).resolve_left (Ne.symm same))
      by_cases old : node ∈ found
      · have later : node ∈ current :: found := mem_cons_of_mem _ old
        simpa [old, later] using rest
      · have new : node ∉ current :: found := by simp [same, old]
        simp only [old, new, not_false_eq_true, decide_true, if_true, map_cons, sum_cons]
        omega

theorem exploreLoop_nil (rounds : Nat) (found : List α) : exploreLoop next rounds ([], found) = ([], found) := by
  induction rounds with
  | zero => rfl
  | succ rounds ih => exact ih

variable (inside : ∀ x, next x ≠ [] → x ∈ nodes)
include inside

theorem exploreLoop_stack (rounds : Nat)
    (state : List α × List α) (enough : state.1.length + unexplored next nodes state.2 ≤ rounds) :
    (exploreLoop next rounds state).1 = [] := by
  induction rounds generalizing state with
  | zero =>
    have empty : state.1.length = 0 := by omega
    exact length_eq_zero_iff.mp empty
  | succ rounds ih =>
    obtain ⟨stack, found⟩ := state
    cases stack with
    | nil => rw [exploreLoop_nil]
    | cons current stack =>
      refine ih _ ?_
      rw [exploreStep]
      split
      · simp only [length_cons] at enough ⊢
        omega
      · rename_i fresh
        have pushes := length_filter_le (fun y => decide (y ∉ current :: found)) (next current)
        simp only [length_cons, length_append, length_reverse] at enough ⊢
        by_cases isolated : next current = []
        · have fewer := unexplored_cons_le next nodes found current
          rw [isolated]
          simp only [filter_nil, length_nil]
          omega
        · have fewer := unexplored_cons next (inside current isolated) fresh
          omega

theorem mem_explore {rounds : Nat}
    (enough : (next start).length + (nodes.map fun node => (next node).length).sum ≤ rounds) (x : α) :
    x ∈ explore next rounds start ↔ Above next start x := by
  have inv : ExploreInv next start _ := exploreInv_start.loop rounds
  have empty : (exploreLoop next rounds ((next start).reverse, [])).1 = [] := by
    refine exploreLoop_stack inside rounds _ ?_
    have all : unexplored next nodes [] = (nodes.map fun node => (next node).length).sum := by
      simp [unexplored]
    rw [length_reverse, all]
    exact enough
  constructor
  · intro found
    exact inv.reachable x (.inr found)
  · intro above
    have closed : ∀ a, a = start ∨ a ∈ (exploreLoop next rounds ((next start).reverse, [])).2 →
        ∀ b ∈ next a, b ∈ (exploreLoop next rounds ((next start).reverse, [])).2 := by
      intro a known b edge
      rcases inv.pushed a known b edge with stacked | found
      · rw [empty] at stacked
        cases stacked
      · exact found
    induction above with
    | single edge => exact closed start (.inl rfl) _ edge
    | tail _ edge ih => exact closed _ (.inr ih) _ edge

end

section
variable {α : Type} [DecidableEq α] {next : α → List α} {node : α} {parents : List α} {a b : α}

def ReachedBy (next : α → List α) (parents : List α) (b : α) : Prop :=
  ∃ parent ∈ parents, parent = b ∨ Above next parent b

def Clear (next : α → List α) (node : α) (parents : List α) : Prop :=
  ∀ parent ∈ parents, parent ≠ node ∧ ¬ Above next parent node

theorem edge_update (different : a ≠ node) : Edge (update next node parents) a b ↔ Edge next a b := by
  rw [Edge, update_of_ne different, Edge]

theorem edge_update_self : Edge (update next node parents) node b ↔ b ∈ parents := by
  rw [Edge, update_self]

omit [DecidableEq α] in
theorem Clear.not_reached (clear : Clear next node parents) : ¬ ReachedBy next parents node := by
  rintro ⟨parent, member, same | above⟩
  · exact (clear parent member).1 same
  · exact (clear parent member).2 above

theorem above_of_update (above : Above (update next node parents) a b) :
    Above next a b ∨ (a = node ∨ Above next a node) ∧ ReachedBy next parents b := by
  induction above using Relation.TransGen.head_induction_on with
  | single edge =>
    rename_i a
    by_cases same : a = node
    · subst same
      exact .inr ⟨.inl rfl, b, edge_update_self.mp edge, .inl rfl⟩
    · exact .inl (.single ((edge_update same).mp edge))
  | head edge rest ih =>
    rename_i a c
    by_cases same : a = node
    · subst same
      refine .inr ⟨.inl rfl, ?_⟩
      rcases ih with old | ⟨_, reached⟩
      · exact ⟨c, edge_update_self.mp edge, .inr old⟩
      · exact reached
    · have first := (edge_update same).mp edge
      rcases ih with old | ⟨rfl | below, reached⟩
      · exact .inl (.head first old)
      · exact .inr ⟨.inr (.single first), reached⟩
      · exact .inr ⟨.inr (.head first below), reached⟩

theorem acyclic_update (acyclic : ∀ x, ¬ Above next x x) (clear : Clear next node parents) (x : α) :
    ¬ Above (update next node parents) x x := by
  intro cycle
  rcases above_of_update cycle with old | ⟨below, parent, member, above⟩
  · exact acyclic x old
  · refine clear.not_reached ⟨parent, member, ?_⟩
    rcases above with rfl | above
    · exact below
    · rcases below with rfl | below
      · exact .inr above
      · exact .inr (above.trans below)

theorem reaches_update (below : a = node ∨ Above next a node) :
    Relation.ReflTransGen (Edge (update next node parents)) a node := by
  rcases below with rfl | below
  · exact .refl
  · induction below using Relation.TransGen.head_induction_on with
    | single edge =>
      rename_i a
      by_cases same : a = node
      · rw [same]
      · exact .single ((edge_update same).mpr edge)
    | head edge rest ih =>
      rename_i a c
      by_cases same : a = node
      · rw [same]
      · exact .head ((edge_update same).mpr edge) ih

theorem reachedBy_update (clear : Clear next node parents) (reached : ReachedBy next parents b) :
    Above (update next node parents) node b := by
  obtain ⟨parent, member, path⟩ := reached
  have first : Edge (update next node parents) node parent := edge_update_self.mpr member
  rcases path with rfl | above
  · exact .single first
  · have apart := clear parent member
    induction above with
    | single edge => exact .tail (.single first) ((edge_update apart.1).mpr edge)
    | tail before edge ih =>
      rename_i c d
      have different : c ≠ node := by
        rintro rfl
        exact apart.2 before
      exact .tail ih ((edge_update different).mpr edge)

theorem above_update (clear : Clear next node parents) (below : a = node ∨ Above next a node)
    (reached : ReachedBy next parents b) : Above (update next node parents) a b :=
  Relation.TransGen.trans_right (reaches_update below) (reachedBy_update clear reached)

variable {marks : α → List α} {own : List α}

def Clash (marks : α → List α) (a b : α) : Prop := b ∈ marks a ∨ a ∈ marks b

/-- Given new successors and new marks, a node clashes with nothing above or below it exactly when the nodes
it newly connects do not clash. -/
theorem noClash_update_iff (clear : Clear next node parents) (unmarked : marks node = [])
    (acyclic : ∀ x, ¬ Above next x x) (leaf : next node = []) (old : ∀ a b, Above next a b → ¬ Clash marks a b) :
    (∀ a b, Above (update next node parents) a b → ¬ Clash (update marks node own) a b) ↔
    (∀ b, ReachedBy next parents b → b ∉ own ∧ node ∉ marks b) ∧
      ∀ a, Above next a node → a ∉ own ∧ ∀ b, ReachedBy next parents b → ¬ Clash marks a b := by
  have ofNode : ∀ {a}, a ≠ node → (Clash (update marks node own) a node ↔ node ∈ marks a ∨ a ∈ own) := by
    intro a different
    rw [Clash, update_self, update_of_ne different]
  have apart : ∀ {a b}, a ≠ node → b ≠ node → (Clash (update marks node own) a b ↔ Clash marks a b) := by
    intro a b first second
    rw [Clash, update_of_ne first, update_of_ne second, Clash]
  have reachedNe : ∀ {b}, ReachedBy next parents b → b ≠ node := by
    rintro b reached rfl
    exact clear.not_reached reached
  have belowNe : ∀ {a}, Above next a node → a ≠ node := by
    rintro a below rfl
    exact acyclic a below
  constructor
  · intro none
    refine ⟨?_, ?_⟩
    · intro b reached
      have clash := none node b (above_update clear (.inl rfl) reached)
      rw [Clash, update_self, update_of_ne (reachedNe reached), not_or] at clash
      exact clash
    · intro a below
      refine ⟨?_, ?_⟩
      · have different := belowNe below
        have clash := none a node ?_
        · rw [ofNode different, not_or] at clash
          exact clash.2
        · have path : Relation.ReflTransGen (Edge (update next node parents)) a node :=
            reaches_update (.inr below)
          rcases Relation.reflTransGen_iff_eq_or_transGen.mp path with same | path
          · exact absurd same.symm different
          · exact path
      · intro b reached
        have clash := none a b (above_update clear (.inr below) reached)
        rwa [apart (belowNe below) (reachedNe reached)] at clash
  · rintro ⟨ofParents, ofBelow⟩ a b above clash
    rcases above_of_update above with path | ⟨below, reached⟩
    · have notNode : a ≠ node := by
        rintro rfl
        obtain ⟨c, edge, _⟩ := Relation.TransGen.head'_iff.mp path
        rw [Edge, leaf] at edge
        cases edge
      by_cases target : b = node
      · subst target
        rcases (ofNode notNode).mp clash with marked | isOwn
        · exact old a b path (.inl marked)
        · exact (ofBelow a path).1 isOwn
      · exact old a b path ((apart notNode target).mp clash)
    · have different := reachedNe reached
      by_cases same : a = node
      · subst same
        rw [Clash, update_self, update_of_ne different] at clash
        have free := ofParents b reached
        exact clash.elim free.1 free.2
      · rcases below with isNode | below
        · exact same isNode
        · exact (ofBelow a below).2 b reached ((apart same different).mp clash)

end

end SekaiChisei.Lib.Graph
