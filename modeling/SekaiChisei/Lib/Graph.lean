import Mathlib.Data.List.Nodup
import Mathlib.Data.List.Perm.Subperm
import Mathlib.Logic.Relation
import Mathlib.Tactic.Common

/-!
Searching a graph given by the successors of each node: `search` is the breadth-first worklist loop, `hasCycle` the
depth-first cycle test.
-/

namespace SekaiChisei.Lib.Graph
open List

section
variable {α : Type} [DecidableEq α] (next : α → List α)

def Edge (a b : α) : Prop := b ∈ next a

abbrev Above : α → α → Prop := Relation.TransGen (Edge next)

def enqueue (state : List α × List α) (node : α) : List α × List α :=
  if node ∈ state.2 then state else (state.1 ++ [node], state.2 ++ [node])

def searchStep : List α × List α → List α × List α
  | ([], seen) => ([], seen)
  | (current :: queue, seen) => (next current).foldl enqueue (queue, seen)

/-- `rounds` rounds of the worklist loop, over the queue and the nodes seen. -/
def searchLoop : Nat → List α × List α → List α × List α
  | 0, state => state
  | rounds + 1, state => searchLoop rounds (searchStep next state)

def search (rounds : Nat) (start : α) : List α := (searchLoop next rounds ([start], [])).2

/-- The first true answer of `visit` along a list, with the state passed through. -/
def visitAll {σ : Type} (visit : α → σ → Option (Bool × σ)) : List α → σ → Option (Bool × σ)
  | [], state => some (false, state)
  | node :: nodes, state => do
    let (found, state) ← visit node state
    if found then return (true, state) else visitAll visit nodes state

/-- One visit, over the nodes being visited and those done; `none` when `depth` is used up. -/
def visit : Nat → α → List α × List α → Option (Bool × (List α × List α))
  | 0, _, _ => none
  | depth + 1, node, (visiting, done) =>
    if node ∈ done then some (false, (visiting, done))
    else if node ∈ visiting then some (true, (visiting, done))
    else do
      let (found, (visiting, done)) ← visitAll (visit depth) (next node) (node :: visiting, done)
      if found then return (true, (visiting, done))
      else return (false, (visiting.erase node, node :: done))

def hasCycle (nodes : List α) : Option Bool :=
  (visitAll (visit next (nodes.length + 1)) nodes ([], [])).map Prod.fst

end

section Search
variable {α : Type} [DecidableEq α] {next : α → List α} {start : α}

section
variable (nodes : List α) (state : List α × List α) (x : α)
include nodes state x

theorem mem_enqueue_foldl : x ∈ (nodes.foldl enqueue state).2 ↔ x ∈ state.2 ∨ x ∈ nodes := by
  induction nodes generalizing state with
  | nil => simp
  | cons node nodes ih =>
    rw [foldl_cons, ih]
    unfold enqueue
    by_cases seen : node ∈ state.2
    · grind
    · grind

theorem mem_queue_enqueue_foldl : x ∈ (nodes.foldl enqueue state).1 ↔ x ∈ state.1 ∨ (x ∈ nodes ∧ x ∉ state.2) := by
  induction nodes generalizing state with
  | nil => simp
  | cons node nodes ih =>
    rw [foldl_cons, ih]
    unfold enqueue
    by_cases seen : node ∈ state.2
    · grind
    · grind

end

structure SearchInv (next : α → List α) (start : α) (state : List α × List α) : Prop where
  reachable : ∀ x ∈ state.2, Above next start x
  queued : ∀ x ∈ state.1, x = start ∨ x ∈ state.2
  expanded : ∀ x, x = start ∨ x ∈ state.2 → x ∈ state.1 ∨ ∀ y ∈ next x, y ∈ state.2

omit [DecidableEq α] in
theorem searchInv_start : SearchInv next start ([start], []) :=
  ⟨by simp, by simp, by simp⟩

variable {state : List α × List α} {seen : List α}

theorem SearchInv.step (inv : SearchInv next start state) : SearchInv next start (searchStep next state) := by
  obtain ⟨queue, seen⟩ := state
  cases queue with
  | nil => exact inv
  | cons current queue =>
    have from_start : Relation.ReflTransGen (Edge next) start current := by
      rcases inv.queued current mem_cons_self with rfl | member
      · exact .refl
      · exact (inv.reachable current member).to_reflTransGen
    refine ⟨?_, ?_, ?_⟩
    · intro x member
      rcases (mem_enqueue_foldl _ _ x).mp member with old | new
      · exact inv.reachable x old
      · exact Relation.TransGen.tail' from_start new
    · intro x member
      simp only [searchStep, mem_enqueue_foldl]
      rcases (mem_queue_enqueue_foldl _ _ x).mp member with old | ⟨new, _⟩
      · have := inv.queued x (mem_cons_of_mem _ old)
        tauto
      · exact .inr (.inr new)
    · intro x member
      simp only [searchStep, mem_enqueue_foldl, mem_queue_enqueue_foldl] at member ⊢
      by_cases fresh : x ∈ next current ∧ x ∉ seen
      · exact .inl (.inr fresh)
      · have old : x = start ∨ x ∈ seen := by tauto
        rcases inv.expanded x old with waiting | done
        · rcases mem_cons.mp waiting with rfl | later
          · exact .inr fun y edge => .inr edge
          · exact .inl (.inl later)
        · exact .inr fun y edge => .inl (done y edge)

theorem SearchInv.loop (rounds : Nat) (inv : SearchInv next start state) :
    SearchInv next start (searchLoop next rounds state) := by
  induction rounds generalizing state with
  | zero => exact inv
  | succ rounds ih => exact ih inv.step

omit [DecidableEq α] in
theorem SearchInv.complete (inv : SearchInv next start ([], seen)) {x : α}
    (above : Above next start x) : x ∈ seen := by
  have closed : ∀ x, x = start ∨ x ∈ seen → ∀ y ∈ next x, y ∈ seen := by
    intro x member
    rcases inv.expanded x member with waiting | done
    · cases waiting
    · exact done
  induction above with
  | single edge => exact closed start (.inl rfl) _ edge
  | tail _ edge ih => exact closed _ (.inr ih) _ edge

def pending (nodes : List α) (state : List α × List α) : Nat :=
  state.1.length + nodes.countP (· ∉ state.2)

variable {nodes : List α}

theorem countP_seen {node : α} (member : node ∈ nodes) (fresh : node ∉ seen) :
    nodes.countP (· ∉ seen ++ [node]) + 1 ≤ nodes.countP (· ∉ seen) := by
  have fewer (nodes : List α) : nodes.countP (· ∉ seen ++ [node]) ≤ nodes.countP (· ∉ seen) := by
    apply countP_mono_left
    intro x _
    simp
    tauto
  induction nodes with
  | nil => cases member
  | cons first nodes ih =>
    rw [countP_cons, countP_cons]
    by_cases same : first = node
    · subst same
      have rest := fewer nodes
      have now : decide (first ∉ seen ++ [first]) = false := by simp
      rw [if_neg (by rw [now]; exact Bool.false_ne_true), if_pos (decide_eq_true fresh)]
      omega
    · have later := ih (by simpa [Ne.symm same] using member)
      have keep : (decide (first ∉ seen ++ [node])) = decide (first ∉ seen) := by simp [same]
      rw [keep]
      omega

theorem pending_enqueue {node : α}
    (member : node ∈ nodes) : pending nodes (enqueue state node) ≤ pending nodes state := by
  unfold enqueue
  split
  · exact Nat.le_refl _
  · rename_i fresh
    have := countP_seen member fresh
    simp only [pending, length_append, length_singleton]
    omega

theorem pending_enqueue_foldl {successors : List α} (inside : ∀ x ∈ successors, x ∈ nodes) :
    pending nodes (successors.foldl enqueue state) ≤ pending nodes state := by
  induction successors generalizing state with
  | nil => exact Nat.le_refl _
  | cons node successors ih =>
    have rest : pending nodes (successors.foldl enqueue (enqueue state node)) ≤ _ :=
      ih fun x member => inside x (mem_cons_of_mem _ member)
    exact Nat.le_trans rest (pending_enqueue (inside node mem_cons_self))

theorem searchLoop_nil (rounds : Nat) (seen : List α) : searchLoop next rounds ([], seen) = ([], seen) := by
  induction rounds with
  | zero => rfl
  | succ rounds ih => exact ih

variable (inside : ∀ x, ∀ y ∈ next x, y ∈ nodes)
include inside

theorem searchLoop_queue (rounds : Nat) (state : List α × List α) (enough : pending nodes state ≤ rounds) :
    (searchLoop next rounds state).1 = [] := by
  induction rounds generalizing state with
  | zero =>
    have empty : state.1.length = 0 := by
      simp only [pending] at enough
      omega
    exact length_eq_zero_iff.mp empty
  | succ rounds ih =>
    obtain ⟨queue, seen⟩ := state
    cases queue with
    | nil => rw [searchLoop_nil]
    | cons current queue =>
      have spent : pending nodes (current :: queue, seen) = pending nodes (queue, seen) + 1 := by
        simp only [pending, length_cons]
        omega
      have kept : pending nodes (searchStep next (current :: queue, seen)) ≤
          pending nodes (queue, seen) := pending_enqueue_foldl (inside current)
      exact ih _ (by omega)

theorem mem_search (x : α) : x ∈ search next (nodes.length + 1) start ↔ Above next start x := by
  have inv : SearchInv next start _ := searchInv_start.loop (nodes.length + 1)
  have enough : pending nodes ([start], []) ≤ nodes.length + 1 := by
    have := countP_le_length (p := fun x => decide (x ∉ ([] : List α))) (l := nodes)
    simp only [pending, length_singleton]
    omega
  have queue := searchLoop_queue inside (nodes.length + 1) ([start], []) enough
  unfold search
  generalize searchLoop next (nodes.length + 1) ([start], []) = final at inv queue
  obtain ⟨waiting, seen⟩ := final
  subst queue
  exact ⟨inv.reachable x, inv.complete⟩

end Search

section Visit
variable {α : Type} [DecidableEq α] {next : α → List α}

/-- Done nodes lead to done nodes only, lie on no cycle and are not being visited. -/
structure VisitInv (next : α → List α) (visiting done : List α) : Prop where
  closed : ∀ x ∈ done, ∀ y ∈ next x, y ∈ done
  acyclic : ∀ x ∈ done, ¬ Above next x x
  apart : ∀ x ∈ done, x ∉ visiting

structure Visited (next : α → List α) (nodes visiting done : List α) (state : List α × List α) :
    Prop where
  same : state.1 = visiting
  grown : ∀ x ∈ done, x ∈ state.2
  found : ∀ x ∈ nodes, x ∈ state.2
  inv : VisitInv next visiting state.2

variable {visiting done : List α}

omit [DecidableEq α] in
theorem VisitInv.above (inv : VisitInv next visiting done) {x y : α}
    (member : x ∈ done) (above : Above next x y) : y ∈ done := by
  induction above with
  | single edge => exact inv.closed x member _ edge
  | tail _ edge ih => exact inv.closed _ ih _ edge

variable {node : α}

omit [DecidableEq α] in
theorem VisitInv.finish (inv : VisitInv next (node :: visiting) done) (fresh : node ∉ visiting)
    (successors : ∀ y ∈ next node, y ∈ done) : VisitInv next visiting (node :: done) := by
  have outside : node ∉ done := fun member => inv.apart node member mem_cons_self
  refine ⟨?_, ?_, ?_⟩
  · intro x member y edge
    rcases mem_cons.mp member with rfl | old
    · exact mem_cons_of_mem _ (successors y edge)
    · exact mem_cons_of_mem _ (inv.closed x old y edge)
  · intro x member cycle
    rcases mem_cons.mp member with rfl | old
    · -- The first step of the cycle enters `done`, which nothing leaves.
      rcases Relation.TransGen.head'_iff.mp cycle with ⟨y, edge, back⟩
      have inside := successors y edge
      rcases Relation.reflTransGen_iff_eq_or_transGen.mp back with same | path
      · exact outside (same ▸ inside)
      · exact outside (inv.above inside path)
    · exact inv.acyclic x old cycle
  · intro x member
    rcases mem_cons.mp member with rfl | old
    · exact fresh
    · exact fun waiting => inv.apart x old (mem_cons_of_mem _ waiting)

variable {nodes : List α} {one : α → List α × List α → Option (Bool × (List α × List α))} {state : List α × List α}

omit [DecidableEq α] in
theorem visited_visitAll (each : ∀ node visiting done state, one node (visiting, done) = some (false, state) →
      VisitInv next visiting done → Visited next [node] visiting done state)
    (run : visitAll one nodes (visiting, done) = some (false, state))
    (inv : VisitInv next visiting done) : Visited next nodes visiting done state := by
  induction nodes generalizing done with
  | nil =>
    obtain rfl : (visiting, done) = state := by simpa [visitAll] using run
    exact ⟨rfl, fun _ member => member, by simp, inv⟩
  | cons node nodes ih =>
    rw [visitAll] at run
    cases first : one node (visiting, done) with
    | none => rw [first] at run; cases run
    | some result =>
      obtain ⟨found, visiting', done'⟩ := result
      rw [first] at run
      cases found with
      | true => cases run
      | false =>
        obtain ⟨same, grown, member, inv'⟩ := each node visiting done _ first inv
        dsimp only at same
        subst same
        have rest := ih run inv'
        refine ⟨rest.same, fun x old => rest.grown x (grown x old), ?_, rest.inv⟩
        intro x inside
        rcases mem_cons.mp inside with rfl | later
        · exact rest.grown x (member x mem_cons_self)
        · exact rest.found x later

theorem visited_visit (depth : Nat) (run : visit next depth node (visiting, done) = some (false, state))
    (inv : VisitInv next visiting done) : Visited next [node] visiting done state := by
  induction depth generalizing node visiting done state with
  | zero => cases run
  | succ depth ih =>
    rw [visit] at run
    split at run
    · rename_i finished
      obtain rfl : (visiting, done) = state := by simpa using run
      exact ⟨rfl, fun _ member => member, by simpa using finished, inv⟩
    · split at run
      · cases run
      · rename_i fresh
        have entered : VisitInv next (node :: visiting) done :=
          ⟨inv.closed, inv.acyclic, fun x member => by
            have := inv.apart x member
            grind⟩
        cases inner : visitAll (visit next depth) (next node) (node :: visiting, done) with
        | none => rw [inner] at run; cases run
        | some result =>
          obtain ⟨found, visiting', done'⟩ := result
          rw [inner] at run
          cases found with
          | true => cases run
          | false =>
            obtain ⟨same, grown, successors, inv'⟩ :=
              visited_visitAll (fun _ _ _ _ run inv => ih run inv) inner entered
            subst same
            obtain rfl : ((node :: visiting).erase node, node :: done') = state := by
              simpa using run
            refine ⟨by simp, fun x old => mem_cons_of_mem _ (grown x old), by simp, ?_⟩
            exact inv'.finish fresh successors

theorem hasCycle_false (passed : hasCycle next nodes = some false) : ∀ x ∈ nodes, ¬ Above next x x := by
  unfold hasCycle at passed
  cases run : visitAll (visit next (nodes.length + 1)) nodes ([], []) with
  | none => rw [run] at passed; cases passed
  | some result =>
    obtain ⟨found, state⟩ := result
    rw [run] at passed
    obtain rfl : found = false := by simpa using passed
    have visited := visited_visitAll (fun _ _ _ _ run inv => visited_visit _ run inv) run ⟨by simp, by simp, by simp⟩
    exact fun x member => visited.inv.acyclic x (visited.found x member)

/-- A visit that stays within its depth, and answers true for a cycle only. -/
def Ended (next : α → List α) (visiting : List α) : Option (Bool × (List α × List α)) → Prop
  | none => False
  | some (true, _) => ∃ x, Above next x x
  | some (false, state) => state.1 = visiting

omit [DecidableEq α] in
theorem visitAll_ends (each : ∀ node ∈ nodes, ∀ done, Ended next visiting (one node (visiting, done))) (done : List α) :
    Ended next visiting (visitAll one nodes (visiting, done)) := by
  induction nodes generalizing done with
  | nil => rfl
  | cons node nodes ih =>
    have first := each node mem_cons_self done
    rw [visitAll]
    match one node (visiting, done), first with
    | some (true, _), cycle => exact cycle
    | some (false, (_, done')), rfl => exact ih (fun node member => each node (mem_cons_of_mem _ member)) done'

variable (inside : ∀ x, ∀ y ∈ next x, y ∈ nodes)
include inside

/-- Nested visits hold distinct nodes, so a depth above the number of nodes is never used up. -/
theorem visit_ends (depth : Nat) (member : node ∈ nodes) (path : ∀ x ∈ visiting, x ∈ nodes ∧ Above next x node)
    (distinct : visiting.Nodup) (enough : nodes.length < depth + visiting.length) (done : List α) :
    Ended next visiting (visit next depth node (visiting, done)) := by
  induction depth generalizing node visiting done with
  | zero =>
    have := (subperm_of_subset distinct fun x old => (path x old).1).length_le
    omega
  | succ depth ih =>
    rw [visit]
    split
    · rfl
    split
    next again => exact ⟨node, (path node again).2⟩
    next fresh =>
      have entered : ∀ y ∈ next node, ∀ x ∈ node :: visiting, x ∈ nodes ∧ Above next x y := by
        intro y edge x inner
        rcases mem_cons.mp inner with rfl | old
        · exact ⟨member, .single edge⟩
        · exact ⟨(path x old).1, (path x old).2.tail edge⟩
      have below := visitAll_ends (fun y edge => ih (inside node y edge) (entered y edge)
        (nodup_cons.mpr ⟨fresh, distinct⟩) (by rw [length_cons]; omega)) done
      match visitAll (visit next depth) (next node) (node :: visiting, done), below with
      | some (true, _), cycle => exact cycle
      | some (false, (_, _)), rfl => exact erase_cons_head ..

theorem hasCycle_ends : ∃ found, hasCycle next nodes = some found ∧ (found ↔ ∃ x, Above next x x) := by
  have ended := visitAll_ends (fun node member =>
    visit_ends inside (nodes.length + 1) member (by simp) nodup_nil (by simp)) []
  rw [hasCycle]
  match run : visitAll (visit next (nodes.length + 1)) nodes ([], []), ended with
  | some (true, _), cycle => exact ⟨true, rfl, fun _ => cycle, fun _ => rfl⟩
  | some (false, _), _ =>
    refine ⟨false, rfl, nofun, fun ⟨x, cycle⟩ => ?_⟩
    obtain ⟨y, _, edge⟩ := Relation.TransGen.tail'_iff.mp cycle
    exact absurd cycle (hasCycle_false (by rw [hasCycle, run]; rfl) x (inside y x edge))

end Visit

end SekaiChisei.Lib.Graph
