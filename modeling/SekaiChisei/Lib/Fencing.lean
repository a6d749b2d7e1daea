import Mathlib.Data.List.Pairwise
import Mathlib.Logic.Function.Basic
import Mathlib.Logic.Relation

/-!
Fenced ownership. Every key has at most one hold, with a token and a generation that goes up with each
grant; a commit records the generation of the active hold it was made under.
-/

namespace SekaiChisei.Lib.Fencing
open List Function

structure Hold (Token Owner : Type) where
  generation : Nat
  token : Token
  owner : Owner
  active : Bool

structure Grant (Key Token : Type) where
  key : Key
  generation : Nat
  token : Token

structure Commit (Key : Type) where
  key : Key
  generation : Nat

@[ext]
structure State (Key Token Owner : Type) where
  hold : Key → Option (Hold Token Owner)
  grants : List (Grant Key Token)
  commits : List (Commit Key)

variable {Key Token Owner : Type}

def nextGeneration : Option (Hold Token Owner) → Nat
  | none => 1
  | some hold => hold.generation + 1

section Steps
variable [DecidableEq Key]

def State.set (s : State Key Token Owner) (key : Key) (hold : Hold Token Owner) : State Key Token Owner :=
  { s with hold := update s.hold key (some hold) }

theorem State.set_hold_self (s : State Key Token Owner) (key : Key) (hold : Hold Token Owner) :
    (s.set key hold).hold key = some hold :=
  update_self ..

theorem State.set_hold_of_ne (s : State Key Token Owner) {key other : Key} (different : other ≠ key)
    (hold : Hold Token Owner) : (s.set key hold).hold other = s.hold other :=
  update_of_ne different ..

def State.grant (s : State Key Token Owner) (key : Key) (token : Token) (owner : Owner) : State Key Token Owner :=
  { s.set key ⟨nextGeneration (s.hold key), token, owner, true⟩ with
    grants := s.grants ++ [⟨key, nextGeneration (s.hold key), token⟩] }

def State.commit (s : State Key Token Owner) (key : Key) (generation : Nat) : State Key Token Owner :=
  { s with commits := s.commits ++ [⟨key, generation⟩] }

inductive Step : State Key Token Owner → State Key Token Owner → Prop
  | idle (s) : Step s s
  | grant (s) (key : Key) (token : Token) (owner : Owner)
      (fresh : ∀ grant ∈ s.grants, grant.token ≠ token) : Step s (s.grant key token owner)
  | keep (s) (key : Key) (hold : Hold Token Owner) (active : Bool) (held : s.hold key = some hold)
      (was : active → hold.active) : Step s (s.set key { hold with active })
  | commit (s) (key : Key) (hold : Hold Token Owner) (held : s.hold key = some hold)
      (active : hold.active) : Step s (s.commit key hold.generation)

abbrev Steps : State Key Token Owner → State Key Token Owner → Prop := Relation.ReflTransGen Step

end Steps

def Follows (earlier later : Hold Token Owner) : Prop :=
  earlier.generation < later.generation ∨ later.generation = earlier.generation ∧ later.token = earlier.token ∧
      later.owner = earlier.owner ∧ (later.active → earlier.active)

theorem Follows.refl (hold : Hold Token Owner) : Follows hold hold :=
  Or.inr ⟨rfl, rfl, rfl, id⟩

variable {a b : Hold Token Owner}

theorem Follows.trans {c : Hold Token Owner} (first : Follows a b) (second : Follows b c) : Follows a c := by
  rcases first with up | ⟨generation, token, owner, active⟩
  · rcases second with up' | ⟨generation', _⟩
    · exact .inl (Nat.lt_trans up up')
    · exact .inl (by omega)
  · rcases second with up' | ⟨generation', token', owner', active'⟩
    · exact .inl (by omega)
    · exact .inr ⟨generation'.trans generation, token'.trans token, owner'.trans owner,
        fun now => active (active' now)⟩

theorem Follows.generation_le (follows : Follows a b) : a.generation ≤ b.generation := by
  rcases follows with up | ⟨same, _⟩
  · exact Nat.le_of_lt up
  · exact Nat.le_of_eq same.symm

variable {s t : State Key Token Owner}

/-- Every hold comes from a grant, no token is granted twice, and commits lie at or below the hold of
their key, in order. -/
structure Inv (s : State Key Token Owner) : Prop where
  granted : ∀ key hold, s.hold key = some hold → ⟨key, hold.generation, hold.token⟩ ∈ s.grants
  tokens : s.grants.Pairwise fun a b => a.token ≠ b.token
  bounded : ∀ commit ∈ s.commits, ∃ hold, s.hold commit.key = some hold ∧ commit.generation ≤ hold.generation
  ordered : s.commits.Pairwise fun a b => a.key = b.key → a.generation ≤ b.generation

theorem Inv.initial : Inv (⟨fun _ => none, [], []⟩ : State Key Token Owner) where
  granted := by
    intro key hold no
    cases no
  tokens := .nil
  bounded := by
    intro commit no
    cases no
  ordered := .nil

theorem Inv.grant_unique (inv : Inv s) {a b : Grant Key Token} (inA : a ∈ s.grants)
    (inB : b ∈ s.grants) (same : a.token = b.token) : a = b := by
  by_contra different
  have : Std.Symm fun a b : Grant Key Token => a.token ≠ b.token := ⟨fun _ _ no same => no same.symm⟩
  exact inv.tokens.forall inA inB different same

section Runs
variable [DecidableEq Key]
variable {hold : Hold Token Owner}

theorem step_follows (step : Step s t) {key : Key}
    (held : s.hold key = some hold) : ∃ later, t.hold key = some later ∧ Follows hold later := by
  cases step with
  | idle => exact ⟨hold, held, .refl hold⟩
  | grant granted token owner fresh =>
    by_cases same : key = granted
    · subst same
      refine ⟨_, s.set_hold_self .., Or.inl ?_⟩
      simp [held, nextGeneration]
    · exact ⟨hold, (s.set_hold_of_ne same _).trans held, .refl hold⟩
  | keep kept old active holds was =>
    by_cases same : key = kept
    · subst same
      obtain rfl : old = hold := by simpa [holds] using held
      exact ⟨_, s.set_hold_self .., Or.inr ⟨rfl, rfl, rfl, was⟩⟩
    · exact ⟨hold, (s.set_hold_of_ne same _).trans held, .refl hold⟩
  | commit => exact ⟨hold, held, .refl hold⟩

theorem steps_follows (steps : Steps s t) {key : Key}
    (held : s.hold key = some hold) : ∃ later, t.hold key = some later ∧ Follows hold later := by
  induction steps with
  | refl => exact ⟨hold, held, .refl hold⟩
  | tail _ step ih =>
    obtain ⟨mid, heldMid, first⟩ := ih
    obtain ⟨later, heldLater, second⟩ := step_follows step heldMid
    exact ⟨later, heldLater, first.trans second⟩

theorem steps_grants (steps : Steps s t) : s.grants <+: t.grants := by
  induction steps with
  | refl => exact prefix_rfl
  | tail _ step ih =>
    cases step with
    | idle => exact ih
    | grant => exact ih.trans (prefix_append _ _)
    | keep => exact ih
    | commit => exact ih

/-- Commits stay below their holds, since no hold goes back. -/
theorem bounded_after (inv : Inv s) (step : Step s t) (commit : Commit Key) (member : commit ∈ s.commits) :
    ∃ hold, t.hold commit.key = some hold ∧ commit.generation ≤ hold.generation := by
  obtain ⟨hold, held, le⟩ := inv.bounded commit member
  obtain ⟨later, heldLater, follows⟩ := step_follows step held
  exact ⟨later, heldLater, Nat.le_trans le follows.generation_le⟩

theorem step_inv (inv : Inv s) (step : Step s t) : Inv t := by
  have bounded := bounded_after inv step
  cases step with
  | idle => exact inv
  | grant granted token owner fresh =>
    refine ⟨?_, ?_, bounded, inv.ordered⟩
    · intro key hold held
      by_cases same : key = granted
      · subst same
        obtain rfl := Option.some.inj ((s.set_hold_self ..).symm.trans held)
        exact mem_append_right _ mem_cons_self
      · have before := (s.set_hold_of_ne same _).symm.trans held
        exact mem_append_left _ (inv.granted key hold before)
    · refine pairwise_append.mpr ⟨inv.tokens, pairwise_singleton _ _, ?_⟩
      intro grant member last isLast
      obtain rfl := mem_singleton.mp isLast
      exact fresh grant member
  | keep kept old active holds was =>
    refine ⟨?_, inv.tokens, bounded, inv.ordered⟩
    intro key hold held
    by_cases same : key = kept
    · subst same
      obtain rfl := Option.some.inj ((s.set_hold_self ..).symm.trans held)
      exact inv.granted key old holds
    · have before := (s.set_hold_of_ne same _).symm.trans held
      exact inv.granted key hold before
  | commit key hold held active =>
    refine ⟨inv.granted, inv.tokens, ?_, ?_⟩
    · intro commit member
      rcases mem_append.mp member with old | new
      · exact bounded commit old
      · obtain rfl := mem_singleton.mp new
        exact ⟨hold, held, Nat.le_refl _⟩
    · refine pairwise_append.mpr ⟨inv.ordered, pairwise_singleton _ _, ?_⟩
      intro commit member last isLast same
      obtain rfl := mem_singleton.mp isLast
      obtain ⟨bound, heldBound, le⟩ := inv.bounded commit member
      obtain rfl : hold = bound := by simpa [same, held] using heldBound
      exact le

theorem steps_inv (inv : Inv s) (steps : Steps s t) : Inv t := by
  induction steps with
  | refl => exact inv
  | tail _ step ih => exact step_inv ih step

end Runs

end SekaiChisei.Lib.Fencing
