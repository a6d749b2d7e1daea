import Mathlib.Tactic.Common

/-! The three-valued logic of SQL conditions: `NULL` is `none`, and a row is kept when its condition
is true. -/

namespace SekaiChisei.Lib.Sql
open List

abbrev Truth := Option Bool

variable {α : Type} {s t : Truth}

/-- `a = b`; comparing with `NULL` gives `NULL`. -/
def eq [DecidableEq α] : Option α → Option α → Truth
  | some a, some b => some (decide (a = b))
  | _, _ => none

def not (t : Truth) : Truth := t.map (! ·)

def ne [DecidableEq α] (a b : Option α) : Truth := not (eq a b)

def and : Truth → Truth → Truth
  | some true, t => t
  | some false, _ => some false
  | none, some false => some false
  | none, _ => none

def or : Truth → Truth → Truth
  | some false, t => t
  | some true, _ => some true
  | none, some true => some true
  | none, _ => none

/-- The conditions of a `WHERE`, joined by `AND`. -/
def all (conditions : List Truth) : Truth := conditions.foldr and (some true)

/-- `EXISTS (SELECT 1 FROM rows WHERE condition)`, which is never `NULL`. -/
def exist (rows : List α) (condition : α → Truth) : Truth :=
  some (rows.any fun row => condition row == some true)

/-- `a = ANY(values)`, over values that are not `NULL`. -/
def anyOf [DecidableEq α] (a : Option α) (values : List α) : Truth :=
  match a with
  | none => if values = [] then some false else none
  | some a => some (decide (a ∈ values))

def coalesce (a : Option α) (b : α) : Option α := some (a.getD b)

theorem and_eq_true : and s t = some true ↔ s = some true ∧ t = some true := by
  rcases s with _ | s <;> rcases t with _ | t <;> try cases s
  all_goals try cases t
  all_goals simp [and]

theorem all_eq_true {conditions : List Truth} : all conditions = some true ↔ ∀ t ∈ conditions, t = some true := by
  induction conditions with
  | nil => simp [all]
  | cons t conditions ih =>
    rw [all, foldr_cons, and_eq_true, forall_mem_cons]
    exact and_congr Iff.rfl ih

theorem or_eq_true : or s t = some true ↔ s = some true ∨ t = some true := by
  rcases s with _ | s <;> rcases t with _ | t <;> try cases s
  all_goals try cases t
  all_goals simp [or]

variable {condition : α → Truth} {rows : List α}

theorem exist_eq_true : exist rows condition = some true ↔ ∃ row ∈ rows, condition row = some true := by
  simp [exist, any_eq_true]

theorem not_exist_eq_true : not (exist rows condition) = some true ↔ ∀ row ∈ rows, condition row ≠ some true := by
  simp [not, exist, any_eq_false]

theorem eq_some_eq_true [DecidableEq α] {a : α} {b : Option α} : eq (some a) b = some true ↔ b = some a := by
  cases b with
  | none => simp [eq]
  | some b => simp [eq, eq_comm]

end SekaiChisei.Lib.Sql
