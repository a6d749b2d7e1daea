import Mathlib.Data.List.Basic

/-! How a call ends under checked arithmetic. `Meets` is the rule of postconditions for it. -/

namespace SekaiChisei.Lib
open List

inductive Outcome (ε α : Type) where
  | ok (value : α)
  | err (error : ε)
  | panic
  | hang
  deriving DecidableEq, Repr

namespace Outcome
variable {ε α β : Type}

protected def bind (x : Outcome ε α) (f : α → Outcome ε β) : Outcome ε β :=
  match x with
  | ok a => f a
  | err e => err e
  | panic => panic
  | hang => hang

instance : Monad (Outcome ε) where
  pure := ok
  bind := Outcome.bind

instance : LawfulMonad (Outcome ε) := LawfulMonad.mk' (Outcome ε)
  (by intro α x; cases x <;> rfl)
  (by intros; rfl)
  (by intro α β γ x f g; cases x <;> rfl)

theorem bind_of_ok {x : Outcome ε α} {a : α} (h : x = ok a) (f : α → Outcome ε β) : x >>= f = f a := by
  rw [h]
  rfl

def Settled (o : Outcome ε α) : Prop := (∃ value, o = ok value) ∨ ∃ error, o = err error

instance (o : Outcome ε α) : Decidable o.Settled :=
  match o with
  | ok value => .isTrue (.inl ⟨value, rfl⟩)
  | err error => .isTrue (.inr ⟨error, rfl⟩)
  | panic | hang => .isFalse (by rintro (⟨_, no⟩ | ⟨_, no⟩) <;> cases no)

/-- Settled, and a returned value meets `P`. -/
def Meets (P : α → Prop) : Outcome ε α → Prop
  | ok value => P value
  | err _ => True
  | panic | hang => False

variable {P : α → Prop} {x : Outcome ε α}

theorem Meets.settled (h : x.Meets P) : x.Settled := by
  cases x with
  | ok value => exact .inl ⟨value, rfl⟩
  | err error => exact .inr ⟨error, rfl⟩
  | panic | hang => exact h.elim

theorem Meets.mono {Q : α → Prop} (h : x.Meets P) (weaker : ∀ a, P a → Q a) : x.Meets Q := by
  cases x with
  | ok a => exact weaker a h
  | err _ => trivial
  | panic | hang => exact h

end Outcome

end SekaiChisei.Lib
