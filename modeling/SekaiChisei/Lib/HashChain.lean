import Mathlib.Data.List.Basic

/-! Lists of rows in which each row names the position where the one before it ends. -/

namespace SekaiChisei.Lib.HashChain
open List
variable {Row Pos : Type} {prev own : Row → Pos} {start : Pos} {rows more : List Row}

def Linked (prev own : Row → Pos) : Pos → List Row → Prop
  | _, [] => True
  | start, row :: rest => prev row = start ∧ Linked prev own (own row) rest

def head (own : Row → Pos) : Pos → List Row → Pos
  | start, [] => start
  | _, row :: rest => head own (own row) rest

theorem head_append (own : Row → Pos) (start : Pos) (rows more : List Row) :
    head own start (rows ++ more) = head own (head own start rows) more := by
  induction rows generalizing start with
  | nil => rfl
  | cons row rest ih => exact ih (own row)

theorem head_of_getLast {row : Row} (last : rows.getLast? = some row) : head own start rows = own row := by
  obtain ⟨before, rfl⟩ := getLast?_eq_some_iff.mp last
  rw [head_append]
  rfl

theorem linked_append : Linked prev own start (rows ++ more) ↔
    Linked prev own start rows ∧ Linked prev own (head own start rows) more := by
  induction rows generalizing start with
  | nil => simp [Linked, head]
  | cons row rest ih =>
    rw [cons_append, Linked, Linked, ih, and_assoc]
    rfl

theorem linked_drop (linked : Linked prev own start rows) (n : Nat) :
    Linked prev own (head own start (rows.take n)) (rows.drop n) := by
  rw [← take_append_drop n rows, linked_append] at linked
  exact linked.2

theorem linked_take (linked : Linked prev own start rows) (n : Nat) : Linked prev own start (rows.take n) := by
  rw [← take_append_drop n rows, linked_append] at linked
  exact linked.1

/-- The end of a chain fixes its rows, as long as rows that end at one position are one row. -/
theorem eq_of_head {rows other : List Row} {start otherStart : Pos}
    (distinct : ∀ row ∈ rows, ∀ row' ∈ other, own row = own row' → row = row')
    (length : rows.length = other.length) (linked : Linked prev own start rows)
    (linkedOther : Linked prev own otherStart other)
    (same : head own start rows = head own otherStart other) : rows = other := by
  induction rows generalizing other start otherStart with
  | nil => exact (length_eq_zero_iff.mp length.symm).symm
  | cons row rest ih =>
    cases other with
    | nil => cases length
    | cons row' rest' =>
      have distinctRest : ∀ later ∈ rest, ∀ later' ∈ rest', own later = own later' → later = later' := by
        intro later member later' member'
        exact distinct later (mem_cons_of_mem _ member) later' (mem_cons_of_mem _ member')
      have restEq : rest = rest' :=
        ih distinctRest (Nat.succ.inj length) linked.2 linkedOther.2 same
      subst restEq
      have ends : own row = own row' := by
        cases rest with
        | nil => exact same
        | cons next _ => exact linked.2.1.symm.trans linkedOther.2.1
      rw [distinct row mem_cons_self row' mem_cons_self ends]

end SekaiChisei.Lib.HashChain
