import Mathlib.Data.List.Basic

/-! The states of a run, one after each of its steps. -/

namespace SekaiChisei.Lib.Trace
open List
variable {State Act : Type} {step : State → Act → State} {start : State} {acts : List Act} {n : Nat}

/-- The state after the first `n` steps; a run that is over stays where it ended. -/
def after (step : State → Act → State) (start : State) (acts : List Act) (n : Nat) : State :=
  (acts.take n).foldl step start

theorem after_succ {act : Act} (atN : acts[n]? = some act) :
    after step start acts (n + 1) = step (after step start acts n) act := by
  unfold after
  rw [take_add_one, atN, foldl_append]
  rfl

section
variable (step) (start) (acts) (n)

theorem after_cases : after step start acts (n + 1) = after step start acts n ∨ ∃ act, acts[n]? = some act ∧
        after step start acts (n + 1) = step (after step start acts n) act := by
  cases atN : acts[n]? with
  | some act => exact .inr ⟨act, rfl, after_succ atN⟩
  | none =>
    have past := List.getElem?_eq_none_iff.mp atN
    left
    unfold after
    rw [take_of_length_le past, take_of_length_le (by omega)]

theorem after_min : after step start acts n = after step start acts (min n acts.length) := by
  unfold after
  rw [← take_eq_take_min]

end

variable {P : State → Prop} {i j : Nat} {own : Act → Bool}

theorem lasts (kept : ∀ n act, acts[n]? = some act → P (after step start acts n) →
      P (step (after step start acts n) act)) (later : i ≤ j)
    (held : P (after step start acts i)) : P (after step start acts j) := by
  induction later with
  | refl => exact held
  | @step j _ ih =>
    rcases after_cases step start acts j with same | ⟨act, atJ, next⟩
    · rw [same]
      exact ih
    · rw [next]
      exact kept j act atJ ih

/-- What holds at the start and is kept by every step of the run holds all along. -/
theorem always (initial : P start) (kept : ∀ n act, acts[n]? = some act → P (after step start acts n) →
      P (step (after step start acts n) act)) (n : Nat) : P (after step start acts n) :=
  lasts kept (Nat.zero_le n) initial

theorem persists (kept : ∀ state act, P state → P (step state act))
    (later : i ≤ j) (held : P (after step start acts i)) : P (after step start acts j) :=
  lasts (fun _ act _ => kept _ act) later held

/-- Where a step keeps `P` exactly when it is not `Bad`, a run keeps `P` exactly when no step is. -/
theorem always_iff {Bad : State → Act → Prop} (initial : P start)
    (one : ∀ state, ∀ act ∈ acts, P state → (P (step state act) ↔ ¬ Bad state act)) :
    (∀ n, P (after step start acts n)) ↔ ∀ n act, acts[n]? = some act → ¬ Bad (after step start acts n) act := by
  constructor
  · intro all n act atN
    have next := all (n + 1)
    rw [after_succ atN] at next
    exact (one _ act (mem_of_getElem? atN) (all n)).mp next
  · intro safe
    apply always initial
    intro n act atN held
    exact (one _ act (mem_of_getElem? atN) held).mpr (safe n act atN)

/-- The steps of `acts` from the `i`-th to the `j`-th that are of one kind. -/
def stepsOf (own : Act → Bool) (acts : List Act) (i j : Nat) : Nat :=
  ((acts.take j).drop i).countP own

theorem stepsOf_self : stepsOf own acts i i = 0 := by
  have none : (acts.take i).drop i = [] := drop_eq_nil_of_le (length_take_le i acts)
  rw [stepsOf, none, countP_nil]

theorem stepsOf_succ {act : Act} (later : i ≤ j) (atJ : acts[j]? = some act) :
    stepsOf own acts i (j + 1) = stepsOf own acts i j + if own act then 1 else 0 := by
  have inside : j < acts.length := (List.getElem?_eq_some_iff.mp atJ).1
  unfold stepsOf
  rw [take_add_one, atJ, drop_append_of_le_length (by simp; omega), countP_append]
  rw [Option.toList_some, countP_singleton]

theorem stepsOf_past (past : acts[j]? = none) : stepsOf own acts i (j + 1) = stepsOf own acts i j := by
  unfold stepsOf
  rw [take_add_one, past, Option.toList_none, append_nil]

/-- Steps of one kind lower a rank that the others do not raise: more of them than the rank bring the end. -/
theorem ends_within (Done : State → Prop) (rank : State → Nat)
    (one : ∀ n act, acts[n]? = some act → P (after step start acts n) →
      Done (step (after step start acts n) act) ∨ P (step (after step start acts n) act) ∧
        rank (step (after step start acts n) act) + (if own act then 1 else 0) ≤ rank (after step start acts n))
    (stays : ∀ n act, acts[n]? = some act → Done (after step start acts n) →
      Done (step (after step start acts n) act)) (later : i ≤ j) (held : P (after step start acts i))
    (enough : rank (after step start acts i) < stepsOf own acts i j) : Done (after step start acts j) := by
  have along : Done (after step start acts j) ∨ P (after step start acts j) ∧
      rank (after step start acts j) + stepsOf own acts i j ≤ rank (after step start acts i) := by
    clear enough
    induction later with
    | refl =>
      rw [stepsOf_self]
      exact .inr ⟨held, Nat.le_refl _⟩
    | @step j before ih =>
      cases atJ : acts[j]? with
      | none =>
        have same : after step start acts (j + 1) = after step start acts j := by
          rcases after_cases step start acts j with same | ⟨act, found, _⟩
          · exact same
          · rw [atJ] at found
            cases found
        rw [same, stepsOf_past atJ]
        exact ih
      | some act =>
        rw [after_succ atJ, stepsOf_succ before atJ]
        rcases ih with ended | ⟨holds, low⟩
        · exact .inl (stays j act atJ ended)
        · rcases one j act atJ holds with ended | ⟨next, lower⟩
          · exact .inl ended
          · exact .inr ⟨next, by omega⟩
  rcases along with ended | ⟨_, low⟩
  · exact ended
  · omega

end SekaiChisei.Lib.Trace
