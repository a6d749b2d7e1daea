import SekaiChisei.Markings.Dominance

/-! For which lattices a union bounds its inputs, and edits without a declassify right never lower a marking. -/

namespace SekaiChisei.Markings
open Lib ClassificationLattice

def inputTokens (tokens : List (Option String)) : List String := tokens.filterMap trimmed

/-- The output of a union dominates its inputs, and so does whatever dominates the output; joins are
upper bounds. -/
def NoLaundering (l : ClassificationLattice) : Prop :=
  (∀ tokens markingsIn m, unionInputMarkingTokens (some l) tokens = .ok (markingsIn, some m) →
    ∀ t ∈ inputTokens tokens, l.Dominates m t ∧ ∀ c, l.Dominates c m → l.Dominates c t) ∧
  ∀ a b m, l.join a b = .ok (some m) → l.Dominates m a ∧ l.Dominates m b

section Union
variable {l : ClassificationLattice} {token : String}

theorem WellFormed.trimmed_token (wf : WellFormed l) (known : l.contains token) : trimmed (some token) = some token :=
  trimmed_of_valid (wf.valid token known)

theorem joinMarkingTokens_first (plain : trimmed (some token) = some token) :
    joinMarkingTokens (some l) none (some token) = .ok (some token) := by
  rw [joinMarkingTokens, plain]
  rfl

theorem WellFormed.joinMarkingTokens_next (wf : WellFormed l) {union : String}
    (unionKnown : l.contains union) (known : l.contains token) :
    joinMarkingTokens (some l) (some union) (some token) = l.join union token := by
  rw [joinMarkingTokens, wf.trimmed_token unionKnown, wf.trimmed_token known]

def Bounds (l : ClassificationLattice) (tokens : List (Option String)) : Option String → Prop
  | none => inputTokens tokens = []
  | some m => l.contains m ∧ ∀ t ∈ inputTokens tokens, l.Dominates m t

section
variable (wf : WellFormed l) (through : ComparableThrough l) (joins : ComparableJoins l)
include wf through joins

theorem Bounds.step {before : List (Option String)} {acc acc' : List String × Option String} {token : Option String}
    (bounds : Bounds l before acc.2) (run : unionStep (some l) acc token = .ok acc') :
    Bounds l (before ++ [token]) acc'.2 := by
  unfold unionStep at run
  cases plain : trimmed token with
  | none =>
    rw [plain] at run
    cases run
    have same : inputTokens (before ++ [token]) = inputTokens before := by
      simp [inputTokens, plain]
    unfold Bounds at bounds ⊢
    rwa [same]
  | some t =>
    rw [plain] at run
    have tokens : inputTokens (before ++ [token]) = inputTokens before ++ [t] := by
      simp [inputTokens, plain]
    obtain ⟨_, checked, run⟩ := bind_eq_ok.mp run
    have known : l.contains t := by
      by_contra unknown
      rw [checkInput, if_neg unknown] at checked
      cases checked
    obtain ⟨joined, joinRun, run⟩ := bind_eq_ok.mp run
    cases joined with
    | none => cases run
    | some m =>
      cases run
      cases union : acc.2 with
      | none =>
        rw [union, joinMarkingTokens_first (wf.trimmed_token known)] at joinRun
        cases joinRun
        rw [union] at bounds
        refine ⟨known, fun t' member => ?_⟩
        rw [tokens, show inputTokens before = [] from bounds] at member
        obtain rfl := List.mem_singleton.mp member
        exact wf.dominates_self known
      | some old =>
        rw [union] at bounds joinRun
        obtain ⟨oldKnown, oldBounds⟩ := bounds
        rw [wf.joinMarkingTokens_next oldKnown known] at joinRun
        obtain ⟨aboveOld, aboveToken⟩ := join_upper wf joins joinRun
        refine ⟨(dominates_eq_true.mp aboveOld).1, fun t' member => ?_⟩
        rw [tokens] at member
        rcases mem_appended.mp member with earlier | rfl
        · exact dominates_trans through aboveOld (oldBounds t' earlier)
        · exact aboveToken

theorem Bounds.run {tokens : List (Option String)} {out : List String × Option String}
    (run : unionInputMarkingTokens (some l) tokens = .ok out) : Bounds l tokens out.2 := by
  have start : Bounds l [] none := rfl
  exact foldlM_ok_invariant (P := fun before acc => Bounds l before acc.2)
    (fun _ _ _ _ bounds step => Bounds.step wf through joins bounds step) start run

end

theorem union_pair (wf : WellFormed l) {a b : String} (aKnown : l.contains a)
    (comparable : ¬ l.incomparablePair a b) (above : l.Above a b) :
    unionInputMarkingTokens (some l) [some a, some b] = .ok ([a, b], some b) := by
  have bKnown := wf.above_known above
  have apart : a ≠ b := by
    rintro rfl
    exact wf.acyclic a aKnown above
  have below : ¬ l.Dominates a b := by
    intro dominates
    rcases (dominates_eq_true.mp dominates).2.2.2 with same | back
    · exact apart same
    · exact wf.acyclic a aKnown (above.trans back)
  have dominates := wf.dominates_of_above aKnown comparable above
  have joined : l.join a b = .ok (some b) :=
    join_eq_some.mpr ⟨aKnown, bKnown, comparable, Or.inr (.inl ⟨below, dominates, rfl⟩)⟩
  have first : unionStep (some l) ([], none) (some a) = .ok ([a], some a) := by
    rw [unionStep, wf.trimmed_token aKnown]
    simp [checkInput, aKnown, joinMarkingTokens_first (wf.trimmed_token aKnown)]
    rfl
  have second : unionStep (some l) ([a], some a) (some b) = .ok ([a, b], some b) := by
    rw [unionStep, wf.trimmed_token bKnown]
    simp [checkInput, bKnown, wf.joinMarkingTokens_next aKnown bKnown, joined, Ne.symm apart]
    rfl
  rw [unionInputMarkingTokens, List.foldlM_cons, first]
  change List.foldlM (unionStep (some l)) ([a], some a) [some b] = _
  rw [List.foldlM_cons, second]
  rfl

end Union

/-- Unions and joins of a prepared lattice wash no marking off exactly when its incomparable pairs
cut no token off from an ancestor reached through a comparable token, nor from a join. -/
theorem noLaundering_iff (p : PreparedLattice) :
    NoLaundering p.lattice ↔ ComparableThrough p.lattice ∧ ComparableJoins p.lattice := by
  have wf := p.wellFormed
  constructor
  · rintro ⟨unions, joins⟩
    constructor
    · intro a b c aKnown bAbove cAbove ab bc
      rw [mem_ancestors] at bAbove cAbove
      have union := union_pair wf aKnown ab bAbove
      have top := wf.dominates_of_above (wf.above_known bAbove) bc cAbove
      have input : a ∈ inputTokens [some a, some b] := by
        simp [inputTokens, wf.trimmed_token aKnown]
      exact ((unions _ _ _ union a input).2 c top).comparable
    · intro a b m aKnown bKnown pair apart aFree bFree only
      have notLeft : ¬ p.lattice.Dominates a b := by
        intro dominates
        rcases (dominates_eq_true.mp dominates).2.2.2 with same | up
        · exact apart same
        · exact aFree (mem_ancestors.mpr up)
      have notRight : ¬ p.lattice.Dominates b a := by
        intro dominates
        rcases (dominates_eq_true.mp dominates).2.2.2 with same | up
        · exact apart same.symm
        · exact bFree (mem_ancestors.mpr up)
      obtain ⟨left, right⟩ := joins a b m (join_eq_some.mpr
        ⟨aKnown, bKnown, pair, Or.inr (.inr ⟨notLeft, notRight, only⟩)⟩)
      exact ⟨left.comparable, right.comparable⟩
  · rintro ⟨through, joins⟩
    refine ⟨fun tokens markingsIn m run t input => ?_, fun a b m joined => join_upper wf joins joined⟩
    have bounds : Bounds p.lattice tokens (some m) := Bounds.run wf through joins run
    have above := bounds.2 t input
    exact ⟨above, fun c top => dominates_trans through top above⟩

def cutChain : ClassificationLattice :=
  ⟨classificationLatticeVersion, "lab", ["a", "b", "c"], [("a", ["b"]), ("b", ["c"])], [("a", "c")]⟩

def preparedCutChain : PreparedLattice := ⟨cutChain, cutChain, by decide +kernel⟩

theorem cutChain_launders : unionInputMarkingTokens (some preparedCutChain.lattice) [some "a", some "b"] =
        .ok (["a", "b"], some "b") ∧ preparedCutChain.lattice.dominates "c" "b" = .ok true ∧
      preparedCutChain.lattice.dominates "c" "a" = .ok false ∧ ¬ NoLaundering preparedCutChain.lattice := by
  have union : unionInputMarkingTokens (some preparedCutChain.lattice) [some "a", some "b"] =
      .ok (["a", "b"], some "b") := by decide +kernel
  have above : preparedCutChain.lattice.dominates "c" "b" = .ok true := by decide +kernel
  have cut : preparedCutChain.lattice.dominates "c" "a" = .ok false := by decide +kernel
  refine ⟨union, above, cut, fun safe => ?_⟩
  have input : "a" ∈ inputTokens [some "a", some "b"] := by decide +kernel
  have dominates := (safe.1 _ _ _ union "a" input).2 "c" above
  cases dominates

def Edits (lattice : Option ClassificationLattice) : Option String → Option String → Prop :=
  Relation.ReflTransGen fun source target =>
    isMarkingTokenDowngrade lattice source target = .ok false

def Covers (lattice : Option ClassificationLattice) (ceiling : String) (marking : Option String) : Prop :=
  match lattice with
  | some l => ∀ m, trimmed marking = some m → l.Dominates ceiling m
  | none => ∀ level, marking.bind knownClassification = some level →
      ∃ top, knownClassification ceiling = some top ∧ level.ordinal ≤ top.ordinal

def Readable (lattice : Option ClassificationLattice) (authority : PrincipalAuthority)
    (marking : Option String) : Prop :=
  (evaluateLatticeAccess marking authority lattice).decision ≠ .deny

def SafeEdits (lattice : Option ClassificationLattice) : Prop :=
  ∀ initial final, Edits lattice initial final →
    (∀ ceiling, Covers lattice ceiling final → Covers lattice ceiling initial) ∧
    ∀ authority, Readable lattice authority final → Readable lattice authority initial

theorem knownClassification_trim : knownClassification (trim token) = knownClassification token := by
  simp only [knownClassification, parseOptionalClassification, trim_trim]

variable {marking : Option String}

theorem bind_known_trimmed : marking.bind knownClassification = (trimmed marking).bind knownClassification := by
  cases marking with
  | none => rfl
  | some token =>
    rw [trimmed_some_eq]
    by_cases empty : trim token = ""
    · simp [empty, knownClassification, parseOptionalClassification]
    · simp [empty, knownClassification_trim]

theorem known_of_parse {token : String}
    {parsed : Option EvidenceClassification} (plain : trimmed marking = some token)
    (run : parseOptionalClassification token = .ok parsed) :
    ∃ level, parsed = some level ∧ knownClassification token = some level := by
  obtain ⟨same, nonempty⟩ := trimmed_eq_some plain
  unfold knownClassification
  rw [run]
  rw [parseOptionalClassification, same, if_neg nonempty] at run
  cases read : parseClassification token with
  | error e => simp [read, Except.map] at run
  | ok level =>
    rw [read] at run
    cases run
    exact ⟨level, rfl, rfl⟩

/-- The target of an edit is at or above its source. -/
def Raises (lattice : Option ClassificationLattice) (source target : String) : Prop :=
  match lattice with
  | some l => l.Dominates target source
  | none => ∃ low high, knownClassification source = some low ∧ knownClassification target = some high ∧
      low.ordinal ≤ high.ordinal

variable {lattice : Option ClassificationLattice} {source target : Option String}

theorem edit_cases (kept : isMarkingTokenDowngrade lattice source target = .ok false) :
    trimmed source = none ∨ trimmed source = trimmed target ∨
      ∃ s t, trimmed source = some s ∧ trimmed target = some t ∧ Raises lattice s t := by
  unfold isMarkingTokenDowngrade at kept
  cases plainSource : trimmed source with
  | none => exact .inl rfl
  | some s =>
    cases plainTarget : trimmed target with
    | none => simp [plainSource, plainTarget] at kept
    | some t =>
      simp only [plainSource, plainTarget] at kept
      by_cases same : s = t
      · exact .inr (.inl (by rw [same]))
      · rw [if_neg same] at kept
        refine .inr (.inr ⟨s, t, rfl, rfl, ?_⟩)
        cases lattice with
        | some l =>
          obtain ⟨answer, run, negated⟩ := bind_eq_ok.mp kept
          have dominates : answer = true := by simpa [pure, Except.pure] using negated
          rw [Raises, Dominates, run, dominates]
        | none =>
          obtain ⟨parsedSource, sourceRun, kept⟩ := bind_eq_ok.mp kept
          obtain ⟨parsedTarget, targetRun, kept⟩ := bind_eq_ok.mp kept
          obtain ⟨low, rfl, lowKnown⟩ := known_of_parse plainSource sourceRun
          obtain ⟨high, rfl, highKnown⟩ := known_of_parse plainTarget targetRun
          have order : low.ordinal ≤ high.ordinal := by
            simpa [isMarkingDowngrade, pure, Except.pure] using kept
          exact ⟨low, high, lowKnown, highKnown, order⟩

section LatticeEdits
variable {l : ClassificationLattice}

theorem readable_lattice {authority : PrincipalAuthority} {marking : Option String} :
    Readable (some l) authority marking ↔ ∀ m, trimmed marking = some m →
      isTrustedServicePrincipal authority.principal ∨
        ∃ ceiling, authority.classificationCeilingToken.filter (· ≠ "") = some ceiling ∧ l.Dominates ceiling m := by
  unfold Readable evaluateLatticeAccess
  cases plain : trimmed marking with
  | none => simp
  | some m =>
    by_cases trusted : isTrustedServicePrincipal authority.principal
    · simp [trusted]
    · by_cases known : l.contains m
      · cases token : authority.classificationCeilingToken.filter (· ≠ "") with
        | none => simp [trusted, known]
        | some ceiling =>
          cases answer : l.dominates ceiling m with
          | error e => simp [trusted, known, answer, Dominates]
          | ok above => cases above <;> simp [trusted, known, answer, Dominates]
      · have never (ceiling : String) : ¬ l.Dominates ceiling m := fun dominates =>
          known (dominates_eq_true.mp dominates).2.1
        simp [trusted, known, never]

/-- One edit keeps every ceiling and every reader that the new marking admits. -/
theorem edit_safe (through : ComparableThrough l) {source target : Option String}
    (kept : isMarkingTokenDowngrade (some l) source target = .ok false) :
    (∀ ceiling, Covers (some l) ceiling target → Covers (some l) ceiling source) ∧
      ∀ authority, Readable (some l) authority target → Readable (some l) authority source := by
  have lifts (ceiling : String) (covered : Covers (some l) ceiling target) : Covers (some l) ceiling source := by
    rcases edit_cases kept with missing | same | ⟨s, t, fromS, toT, above⟩
    · intro m found
      rw [missing] at found
      cases found
    · intro m found
      rw [same] at found
      exact covered m found
    · intro m found
      rw [fromS] at found
      cases found
      exact dominates_trans through (covered t toT) above
  refine ⟨lifts, fun authority readable => ?_⟩
  rw [readable_lattice] at readable ⊢
  intro m found
  rcases edit_cases kept with missing | same | ⟨s, t, fromS, toT, above⟩
  · rw [missing] at found
    cases found
  · rw [same] at found
    exact readable m found
  · rw [fromS] at found
    cases found
    rcases readable t toT with trusted | ⟨ceiling, token, dominates⟩
    · exact .inl trusted
    · exact .inr ⟨ceiling, token, dominates_trans through dominates above⟩

theorem edit_up (wf : WellFormed l) {a b : String} (aKnown : l.contains a)
    (comparable : ¬ l.incomparablePair a b) (above : l.Above a b) :
    isMarkingTokenDowngrade (some l) (some a) (some b) = .ok false := by
  have dominates : l.dominates b a = .ok true := wf.dominates_of_above aKnown comparable above
  unfold isMarkingTokenDowngrade
  rw [wf.trimmed_token aKnown, wf.trimmed_token (wf.above_known above)]
  dsimp only
  split
  · rfl
  · rw [dominates]
    rfl

theorem comparableThrough_of_safeEdits (wf : WellFormed l) (safe : SafeEdits (some l)) : ComparableThrough l := by
  intro a b c aKnown bAbove cAbove ab bc
  rw [mem_ancestors] at bAbove cAbove
  have bKnown := wf.above_known bAbove
  have cKnown := wf.above_known cAbove
  have edits : Edits (some l) (some a) (some c) :=
    .tail (.single (edit_up wf aKnown ab bAbove)) (edit_up wf bKnown bc cAbove)
  have covered : Covers (some l) c (some c) := by
    intro m found
    rw [wf.trimmed_token cKnown] at found
    cases found
    exact wf.dominates_self cKnown
  exact ((safe _ _ edits).1 c covered a (wf.trimmed_token aKnown)).comparable

end LatticeEdits

theorem safeEdits_of_edit (edit : ∀ source target, isMarkingTokenDowngrade lattice source target = .ok false →
      (∀ ceiling, Covers lattice ceiling target → Covers lattice ceiling source) ∧
        ∀ authority, Readable lattice authority target → Readable lattice authority source) : SafeEdits lattice := by
  intro initial final edits
  induction edits with
  | refl => exact ⟨fun _ covered => covered, fun _ readable => readable⟩
  | tail _ last ih =>
    obtain ⟨covers, reads⟩ := edit _ _ last
    exact ⟨fun ceiling covered => ih.1 ceiling (covers ceiling covered),
      fun authority readable => ih.2 authority (reads authority readable)⟩

theorem readable_ordinal {authority : PrincipalAuthority} :
    Readable none authority marking ↔ ∀ level, marking.bind knownClassification = some level →
      isTrustedServicePrincipal authority.principal ∨ ∃ ceiling, authority.classificationCeiling = some ceiling ∧
          level.ordinal ≤ ceiling.ordinal := by
  unfold Readable evaluateLatticeAccess
  cases marking.bind knownClassification with
  | none => simp [evaluateMarkingAccess]
  | some level =>
    by_cases trusted : isTrustedServicePrincipal authority.principal
    · simp [evaluateMarkingAccess, trusted]
    · cases top : authority.classificationCeiling with
      | none => simp [evaluateMarkingAccess, trusted, top]
      | some ceiling =>
        by_cases below : level.ordinal ≤ ceiling.ordinal <;> simp [evaluateMarkingAccess, trusted, top, below]

theorem edit_safe_ordinal (kept : isMarkingTokenDowngrade none source target = .ok false) :
    (∀ ceiling, Covers none ceiling target → Covers none ceiling source) ∧
      ∀ authority, Readable none authority target → Readable none authority source := by
  -- The level of the source is missing, or at most that of the target.
  have rises : ∀ low, source.bind knownClassification = some low →
      ∃ high, target.bind knownClassification = some high ∧ low.ordinal ≤ high.ordinal := by
    intro low found
    rw [bind_known_trimmed] at found ⊢
    rcases edit_cases kept with missing | same | ⟨s, t, fromS, toT, low', high, lowKnown, highKnown, order⟩
    · rw [missing] at found
      cases found
    · exact ⟨low, by rw [← same, found], Nat.le_refl _⟩
    · rw [fromS, Option.bind_some, lowKnown] at found
      cases found
      exact ⟨high, by rw [toT, Option.bind_some, highKnown], order⟩
  constructor
  · intro ceiling covered low found
    obtain ⟨high, foundHigh, order⟩ := rises low found
    obtain ⟨top, known, below⟩ := covered high foundHigh
    exact ⟨top, known, Nat.le_trans order below⟩
  · intro authority readable
    rw [readable_ordinal] at readable ⊢
    intro low found
    obtain ⟨high, foundHigh, order⟩ := rises low found
    rcases readable high foundHigh with trusted | ⟨ceiling, top, below⟩
    · exact .inl trusted
    · exact .inr ⟨ceiling, top, Nat.le_trans order below⟩

/-- No chain of edits without a declassify right lowers a marking: exactly when the incomparable pairs cut no token
off from an ancestor reached through a comparable one. -/
theorem safeEdits_iff (p : PreparedLattice) :
    (SafeEdits (some p.lattice) ↔ ComparableThrough p.lattice) ∧ SafeEdits none := by
  refine ⟨⟨comparableThrough_of_safeEdits p.wellFormed, fun through => ?_⟩, ?_⟩
  · exact safeEdits_of_edit fun _ _ kept => edit_safe through kept
  · exact safeEdits_of_edit fun _ _ kept => edit_safe_ordinal kept

theorem cutChain_declassifies :
    isMarkingTokenDowngrade (some preparedCutChain.lattice) (some "a") (some "b") = .ok false ∧
      isMarkingTokenDowngrade (some preparedCutChain.lattice) (some "b") (some "c") = .ok false ∧
      preparedCutChain.lattice.dominates "c" "c" = .ok true ∧ preparedCutChain.lattice.dominates "c" "a" = .ok false ∧
      ¬ SafeEdits (some preparedCutChain.lattice) := by
  have first : isMarkingTokenDowngrade (some preparedCutChain.lattice) (some "a") (some "b") =
      .ok false := by decide +kernel
  have second : isMarkingTokenDowngrade (some preparedCutChain.lattice) (some "b") (some "c") =
      .ok false := by decide +kernel
  have top : preparedCutChain.lattice.dominates "c" "c" = .ok true := by decide +kernel
  have cut : preparedCutChain.lattice.dominates "c" "a" = .ok false := by decide +kernel
  refine ⟨first, second, top, cut, fun safe => ?_⟩
  have covered : Covers (some preparedCutChain.lattice) "c" (some "c") := by
    intro m found
    cases found
    exact top
  have dominates := (safe _ _ (.tail (.single first) second)).1 "c" covered "a" (by decide +kernel)
  cases dominates

end SekaiChisei.Markings
