import Mathlib
import SekaiChisei.Lib.Fallible
import SekaiChisei.Markings.Lattice

/-! Dominance is reachability along parent edges, cut by the incomparable pairs, and when it is transitive. -/

namespace SekaiChisei.Markings
open Lib List

theorem validateToken_eq_ok {label value : String} (valid : validateToken label value = .ok ()) :
    value ≠ "" ∧ value.toList.all tokenChar = true := by
  unfold validateToken at valid
  split at valid
  · cases valid
  · rename_i fine
    constructor
    · exact fun empty => fine (.inl empty)
    · by_contra bad
      exact fine (.inr (.inr bad))

theorem tokenChar_not_whitespace {c : Char} (h : tokenChar c = true) : isWhitespace c = false := by
  have range : (45 ≤ c.toNat ∧ c.toNat ≤ 58) ∨ (65 ≤ c.toNat ∧ c.toNat ≤ 122) := by
    have signs : "_-.:/".toList = ['_', '-', '.', ':', '/'] := by decide +kernel
    simp only [tokenChar, Char.isAlphanum, Char.isAlpha, Char.isUpper, Char.isLower, Char.isDigit,
      Bool.or_eq_true, Bool.and_eq_true, decide_eq_true_eq, UInt32.le_iff_toNat_le,
      contains_iff_mem, ge_iff_le, signs, mem_cons, not_mem_nil, or_false] at h
    change ((((65 ≤ c.toNat ∧ c.toNat ≤ 90) ∨ (97 ≤ c.toNat ∧ c.toNat ≤ 122)) ∨
      (48 ≤ c.toNat ∧ c.toNat ≤ 57)) ∨ _) at h
    rcases h with alphanumeric | rfl | rfl | rfl | rfl | rfl
    · omega
    all_goals decide
  simp only [isWhitespace, Bool.or_eq_false_iff, Bool.and_eq_false_iff, beq_eq_false_iff_ne, decide_eq_false_iff_not]
  omega

variable {token : String}

theorem trimmed_of_valid {label : String} (valid : validateToken label token = .ok ()) :
    trimmed (some token) = some token := by
  obtain ⟨nonempty, chars⟩ := validateToken_eq_ok valid
  refine trimmed_some (trim_of_all fun c member => ?_) nonempty
  exact tokenChar_not_whitespace (all_eq_true.mp chars c member)

structure WellFormed (l : ClassificationLattice) : Prop where
  valid : ∀ token ∈ l.tokens, validateToken "token" token = .ok ()
  known : ∀ child, ∀ parent ∈ parentsOf l.parents child, parent ∈ l.tokens
  distinct : ∀ left right, (left, right) ∈ l.incomparable → left ≠ right
  acyclic : ∀ token ∈ l.tokens, ¬ Graph.Above (parentsOf l.parents) token token

variable {tokens items : List String}

theorem addToken_valid (run : items.foldlM addToken [] = .ok tokens) :
    ∀ token ∈ tokens, validateToken "token" token = .ok () := by
  refine foldlM_ok_invariant (P := fun _ tokens => ∀ token ∈ tokens, validateToken "token" token = .ok ())
    ?_ (by simp) run
  intro _ acc item acc' valid step token member
  obtain ⟨_, checked, rest⟩ := bind_eq_ok.mp step
  obtain ⟨_, stored⟩ := ite_error_eq_ok.mp rest
  cases stored
  rcases mem_setInsert.mp member with rfl | old
  · exact checked
  · exact valid token old

theorem addParent_known {unique : List String} {child : String}
    (run : items.foldlM (addParent tokens child) [] = .ok unique) : ∀ parent ∈ unique, parent ∈ tokens := by
  refine foldlM_ok_invariant (P := fun _ unique => ∀ parent ∈ unique, parent ∈ tokens) ?_ (by simp) run
  intro _ acc item acc' known step parent member
  obtain ⟨_, _, rest⟩ := bind_eq_ok.mp step
  obtain ⟨listed, rest⟩ := ite_error_eq_ok.mp rest
  obtain ⟨_, stored⟩ := ite_error_eq_ok.mp rest
  cases stored
  rcases mem_setInsert.mp member with rfl | old
  · exact not_not.mp listed
  · exact known parent old

variable {parents items : List (String × List String)}

theorem addParents_known (run : items.foldlM (addParents tokens) [] = .ok parents) :
    ∀ entry ∈ parents, ∀ parent ∈ entry.2, parent ∈ tokens := by
  refine foldlM_ok_invariant (P := fun _ parents => ∀ entry ∈ parents, ∀ parent ∈ entry.2, parent ∈ tokens)
    ?_ (by simp) run
  intro _ acc item acc' known step entry member
  obtain ⟨_, rest⟩ := ite_error_eq_ok.mp step
  obtain ⟨unique, checked, stored⟩ := bind_eq_ok.mp rest
  cases stored
  rcases mem_appended.mp member with old | rfl
  · exact known entry old
  · exact addParent_known checked

theorem addIncomparable_distinct {items pairs : List (String × String)}
    (run : items.foldlM (addIncomparable tokens) [] = .ok pairs) :
    ∀ left right, (left, right) ∈ pairs → left ≠ right := by
  refine foldlM_ok_invariant (P := fun _ pairs => ∀ left right, (left, right) ∈ pairs → left ≠ right) ?_ (by simp) run
  intro _ acc item acc' distinct step left right member
  obtain ⟨_, _, rest⟩ := bind_eq_ok.mp step
  obtain ⟨_, _, rest⟩ := bind_eq_ok.mp rest
  obtain ⟨_, rest⟩ := ite_error_eq_ok.mp rest
  obtain ⟨apart, stored⟩ := ite_error_eq_ok.mp rest
  cases stored
  rcases mem_pairInsert.mp member with same | old
  · unfold orderedPair at same
    split at same <;> cases same
    · exact apart
    · exact Ne.symm apart
  · exact distinct left right old

theorem exists_entry_of_mem_parentsOf {child parent : String}
    (member : parent ∈ parentsOf parents child) : ∃ entry ∈ parents, parent ∈ entry.2 := by
  unfold parentsOf at member
  cases found : parents.lookup child with
  | none => simp [found] at member
  | some list =>
    rw [found] at member
    obtain ⟨before, after, rfl, _⟩ := lookup_eq_some_iff.mp found
    exact ⟨_, mem_append_right _ mem_cons_self, member⟩

section
variable (run : items.foldlM (addParents tokens) [] = .ok parents)
include run

theorem parentsOf_known : ∀ child, ∀ parent ∈ parentsOf parents child, parent ∈ tokens := by
  intro child parent member
  obtain ⟨entry, inside, listed⟩ := exists_entry_of_mem_parentsOf member
  exact addParents_known run entry inside parent listed

theorem cycleTest_answers : ∃ found, Graph.hasCycle (parentsOf parents) tokens = some found ∧
    (found ↔ ∃ token, Graph.Above (parentsOf parents) token token) :=
  Graph.hasCycle_ends (parentsOf_known run)

end

theorem cycleTest_answers_pair : ∃ token, Graph.Above (parentsOf [("a", ["b"]), ("b", ["a"])]) token token := by
  obtain ⟨_, answer, right⟩ :=
    cycleTest_answers (show [("a", ["b"]), ("b", ["a"])].foldlM (addParents ["a", "b"]) [] = .ok _ from rfl)
  cases answer
  exact right.mp rfl

variable {l : ClassificationLattice}

theorem prepare_wellFormed {raw : ClassificationLattice} (prepared : raw.prepare = .ok l) : WellFormed l := by
  obtain ⟨_, prepared⟩ := ite_error_eq_ok.mp prepared
  obtain ⟨_, _, prepared⟩ := bind_eq_ok.mp prepared
  obtain ⟨_, prepared⟩ := ite_error_eq_ok.mp prepared
  obtain ⟨tokens, tokensRun, prepared⟩ := bind_eq_ok.mp prepared
  obtain ⟨parents, parentsRun, prepared⟩ := bind_eq_ok.mp prepared
  obtain ⟨pairs, pairsRun, prepared⟩ := bind_eq_ok.mp prepared
  obtain ⟨tested, stored⟩ := ite_error_eq_ok.mp prepared
  cases stored
  exact ⟨addToken_valid tokensRun, parentsOf_known parentsRun, addIncomparable_distinct pairsRun,
    Graph.hasCycle_false (not_not.mp tested)⟩

structure PreparedLattice where
  (raw lattice : ClassificationLattice)
  prepared : raw.prepare = .ok lattice

theorem PreparedLattice.wellFormed (p : PreparedLattice) : WellFormed p.lattice :=
  prepare_wellFormed p.prepared

namespace ClassificationLattice

/-- `b` is an ancestor of `a`. -/
abbrev Above (l : ClassificationLattice) (a b : String) : Prop :=
  Graph.Above (parentsOf l.parents) a b

def Dominates (l : ClassificationLattice) (ceiling marking : String) : Prop :=
  l.dominates ceiling marking = .ok true

variable {l : ClassificationLattice}

theorem mem_ancestors {token ancestor : String} : ancestor ∈ l.ancestors token ↔ l.Above token ancestor := by
  apply Graph.mem_search
  intro child parent member
  obtain ⟨entry, inside, listed⟩ := exists_entry_of_mem_parentsOf member
  exact mem_flatMap.mpr ⟨entry, inside, listed⟩

theorem incomparablePair_comm {a b : String} : l.incomparablePair a b ↔ l.incomparablePair b a := by
  have same : orderedPair a b = orderedPair b a := by
    unfold orderedPair
    rcases lt_trichotomy a b with less | rfl | more
    · rw [if_pos less.le, if_neg (not_le.mpr less)]
    · rfl
    · rw [if_neg (not_le.mpr more), if_pos more.le]
  rw [incomparablePair, incomparablePair, same]

theorem dominates_eq_true {ceiling marking : String} :
    l.Dominates ceiling marking ↔ l.contains ceiling ∧ l.contains marking ∧
      ¬ l.incomparablePair ceiling marking ∧ (ceiling = marking ∨ l.Above marking ceiling) := by
  unfold Dominates dominates
  by_cases ceilingKnown : l.contains ceiling
  · by_cases markingKnown : l.contains marking
    · by_cases pair : l.incomparablePair ceiling marking <;>
        simp [ceilingKnown, markingKnown, pair, mem_ancestors]
    · simp [ceilingKnown, markingKnown]
  · simp [ceilingKnown]

theorem Dominates.comparable {a b : String} (dominates : l.Dominates b a) : ¬ l.incomparablePair a b :=
  fun pair => (dominates_eq_true.mp dominates).2.2.1 (incomparablePair_comm.mp pair)

end ClassificationLattice

open ClassificationLattice

variable {a b : String}

section
variable (wf : WellFormed l)
include wf

theorem WellFormed.above_known (above : l.Above a b) : l.contains b := by
  rcases Relation.TransGen.tail'_iff.mp above with ⟨mid, _, edge⟩
  exact wf.known mid b edge

theorem WellFormed.dominates_of_above (known : l.contains a)
    (comparable : ¬ l.incomparablePair a b) (above : l.Above a b) : l.Dominates b a :=
  dominates_eq_true.mpr ⟨wf.above_known above, known, fun pair => comparable (incomparablePair_comm.mp pair),
    Or.inr above⟩

theorem WellFormed.not_incomparable_self (token : String) : ¬ l.incomparablePair token token := by
  intro pair
  have member : (token, token) ∈ l.incomparable := by
    have same : orderedPair token token = (token, token) := by simp [orderedPair]
    rwa [incomparablePair, same] at pair
  exact wf.distinct token token member rfl

theorem WellFormed.dominates_self (known : l.contains token) : l.Dominates token token :=
  dominates_eq_true.mpr ⟨known, known, wf.not_incomparable_self token, Or.inl rfl⟩

end

/-- No incomparable pair cuts a token off from an ancestor that it reaches through a token
comparable with both. -/
def ComparableThrough (l : ClassificationLattice) : Prop :=
  ∀ a b c, l.contains a → b ∈ l.ancestors a → c ∈ l.ancestors b → ¬ l.incomparablePair a b →
    ¬ l.incomparablePair b c → ¬ l.incomparablePair a c

/-- No incomparable pair cuts two tokens, neither above the other, off from their only least common
ancestor. -/
def ComparableJoins (l : ClassificationLattice) : Prop :=
  ∀ a b m, l.contains a → l.contains b → ¬ l.incomparablePair a b → a ≠ b → a ∉ l.ancestors b →
    b ∉ l.ancestors a → l.least a b = [m] → ¬ l.incomparablePair a m ∧ ¬ l.incomparablePair b m

theorem dominates_trans (through : ComparableThrough l) {c : String}
    (upper : l.Dominates c b) (lower : l.Dominates b a) : l.Dominates c a := by
  obtain ⟨cKnown, bKnown, _, cAbove⟩ := dominates_eq_true.mp upper
  obtain ⟨_, aKnown, _, bAbove⟩ := dominates_eq_true.mp lower
  rcases cAbove with rfl | cAbove
  · exact lower
  · rcases bAbove with rfl | bAbove
    · exact upper
    · have comparable := through a b c aKnown (mem_ancestors.mpr bAbove) (mem_ancestors.mpr cAbove)
        lower.comparable upper.comparable
      exact dominates_eq_true.mpr ⟨cKnown, aKnown,
        fun pair => comparable (incomparablePair_comm.mp pair), Or.inr (bAbove.trans cAbove)⟩

variable {m : String}

theorem mem_least (member : m ∈ l.least a b) : l.Above a m ∧ l.Above b m := by
  have inCommon := (mem_filter.mp member).1
  obtain ⟨left, right⟩ := mem_filter.mp inCommon
  exact ⟨mem_ancestors.mp left, mem_ancestors.mp (of_decide_eq_true right)⟩

theorem dominates_ok (aKnown : l.contains a) (bKnown : l.contains b) : ∃ answer, l.dominates a b = .ok answer := by
  unfold dominates
  rw [if_neg (by simp [aKnown, bKnown])]
  split
  · exact ⟨false, rfl⟩
  · exact ⟨_, rfl⟩

theorem only_eq_some : only tokens = some m ↔ tokens = [m] := by
  match tokens with
  | [] => simp [only]
  | [token] => simp [only]
  | _ :: _ :: _ => simp [only]

theorem join_eq_some : l.join a b = .ok (some m) ↔ l.contains a ∧ l.contains b ∧ ¬ l.incomparablePair a b ∧
      ((l.Dominates a b ∧ m = a) ∨ (¬ l.Dominates a b ∧ l.Dominates b a ∧ m = b) ∨
        (¬ l.Dominates a b ∧ ¬ l.Dominates b a ∧ l.least a b = [m])) := by
  unfold join
  by_cases known : l.contains a ∧ l.contains b
  · obtain ⟨aKnown, bKnown⟩ := known
    obtain ⟨first, firstRun⟩ := dominates_ok aKnown bKnown
    obtain ⟨second, secondRun⟩ := dominates_ok bKnown aKnown
    by_cases pair : l.incomparablePair a b
    · simp [aKnown, bKnown, pair]
    · simp only [Dominates, firstRun, secondRun, aKnown, bKnown, pair, not_true_eq_false, or_self,
        if_false, Except.ok.injEq, true_and, not_false_eq_true]
      cases first with
      | true => simp [Except.bind, bind, pure, Except.pure, eq_comm]
      | false =>
        cases second with
        | true => simp [Except.bind, bind, pure, Except.pure, eq_comm]
        | false => simp [Except.bind, bind, pure, Except.pure, only_eq_some]
  · simp [not_and_or.mp known]
    tauto

theorem join_upper (wf : WellFormed l) (joins : ComparableJoins l)
    (joined : l.join a b = .ok (some m)) : l.Dominates m a ∧ l.Dominates m b := by
  obtain ⟨aKnown, bKnown, pair, origin⟩ := join_eq_some.mp joined
  rcases origin with ⟨above, rfl⟩ | ⟨_, above, rfl⟩ | ⟨notLeft, notRight, only⟩
  · exact ⟨wf.dominates_self aKnown, above⟩
  · exact ⟨above, wf.dominates_self bKnown⟩
  · have found : m ∈ l.least a b := by
      rw [only]
      exact mem_singleton_self m
    obtain ⟨aAbove, bAbove⟩ := mem_least found
    have apart : a ≠ b := by
      rintro rfl
      exact notLeft (wf.dominates_self aKnown)
    have aFree : a ∉ l.ancestors b := fun up => notLeft
      (dominates_eq_true.mpr ⟨aKnown, bKnown, pair, Or.inr (mem_ancestors.mp up)⟩)
    have bFree : b ∉ l.ancestors a := fun up => notRight (wf.dominates_of_above aKnown pair (mem_ancestors.mp up))
    obtain ⟨am, bm⟩ := joins a b m aKnown bKnown pair apart aFree bFree only
    exact ⟨wf.dominates_of_above aKnown am aAbove, wf.dominates_of_above bKnown bm bAbove⟩

end SekaiChisei.Markings
