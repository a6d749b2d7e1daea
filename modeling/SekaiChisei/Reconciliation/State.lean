import Mathlib.Logic.Relation
import SekaiChisei.Reconciliation.Store

/-! What the state of a reconciliation case is on the two stores, after any run of calls. -/

namespace SekaiChisei.Reconciliation
open Lib Relation List

def ReconciliationDisposition.target : ReconciliationDisposition → Option String
  | .mergedInto object | .aliasOf object => some object
  | .independent | .suppressed | .conflict => none

def Points (state : CaseState) (object target : String) : Prop :=
  (state.get object).bind ReconciliationDisposition.target = some target

variable {state : CaseState} {subjects : List String} {disposition : String → ReconciliationDisposition}

theorem get_setAll (object : String) : (setAll state subjects disposition).get object =
      if object ∈ subjects then some (disposition object) else state.get object := by
  induction subjects generalizing state with
  | nil => rfl
  | cons subject subjects ih =>
    show (setAll (state.adjust subject .independent fun _ => disposition subject) subjects disposition).get object = _
    rw [ih, OrderedMap.get_adjust]
    by_cases later : object ∈ subjects
    · simp [later]
    · by_cases same : object = subject
      · simp [same]
      · simp [later, same]

/-- Edges that are kept, or that lead to a node without a way on, close no cycle. -/
theorem acyclic_of_kept_or_dead {R S : String → String → Prop} (acyclic : ∀ object, ¬ TransGen R object object)
    (edges : ∀ a b, S a b → R a b ∨ ∀ c, ¬ S b c) (object : String) : ¬ TransGen S object object := by
  have path : ∀ {b}, TransGen S object b → TransGen R object b ∨ ∀ c, ¬ S b c := by
    intro b way
    induction way with
    | single edge => exact (edges _ _ edge).imp_left .single
    | tail _ edge ih =>
      rcases ih with before | dead
      · exact (edges _ _ edge).imp_left before.tail
      · exact absurd edge (dead _)
  intro cycle
  rcases path cycle with before | dead
  · exact acyclic object before
  · obtain ⟨_, edge, _⟩ := TransGen.head'_iff.mp cycle
    exact dead _ edge

structure WellTargeted (candidates : List String) (state : CaseState) : Prop where
  targets : ∀ object target, Points state object target → target ∈ candidates
  acyclic : ∀ object, ¬ TransGen (Points state) object object

/-- Its canonical object is one of its subjects and a candidate. -/
def Anchored (candidates : List String) (decision : ReconciliationDecision) : Prop :=
  decision.action.hasCanonical = true → ∃ canonical, decision.canonicalObjectId = some canonical ∧
    canonical ∈ decision.subjects ∧ canonical ∈ candidates

variable {candidates : List String}
  {action : ReconciliationAction}

theorem points_setAll {object target : String} (points : Points (setAll state subjects disposition) object target) :
    object ∈ subjects ∧ (disposition object).target = some target ∨ Points state object target := by
  unfold Points at points
  rw [get_setAll] at points
  by_cases subject : object ∈ subjects
  · rw [if_pos subject] at points
    exact .inl ⟨subject, points⟩
  · rw [if_neg subject] at points
    exact .inr points

theorem WellTargeted.setAll_free (fine : WellTargeted candidates state)
    (free : ∀ object, (disposition object).target = none) :
    WellTargeted candidates (setAll state subjects disposition) := by
  have kept : ∀ a b, Points (setAll state subjects disposition) a b → Points state a b := by
    intro a b points
    rcases points_setAll points with ⟨_, target⟩ | before
    · rw [free] at target
      cases target
    · exact before
  refine ⟨fun a b points => fine.targets a b (kept a b points), ?_⟩
  exact acyclic_of_kept_or_dead fine.acyclic fun a b points => .inl (kept a b points)

theorem target_intoCanonical (canonical object : String) :
    (intoCanonical action canonical object).target = if object = canonical then none else some canonical := by
  unfold intoCanonical
  split
  · rfl
  · split <;> rfl

theorem WellTargeted.setAll_canonical {canonical : String} (fine : WellTargeted candidates state)
    (subject : canonical ∈ subjects) (candidate : canonical ∈ candidates) :
    WellTargeted candidates (setAll state subjects (intoCanonical action canonical)) := by
  have into : ∀ a b, Points (setAll state subjects (intoCanonical action canonical)) a b →
      Points state a b ∨ b = canonical := by
    intro a b points
    rcases points_setAll points with ⟨_, target⟩ | before
    · rw [target_intoCanonical] at target
      split at target
      · cases target
      · exact .inr (Option.some.inj target).symm
    · exact .inl before
  have dead : ∀ c, ¬ Points (setAll state subjects (intoCanonical action canonical)) canonical c := by
    intro c points
    unfold Points at points
    rw [get_setAll, if_pos subject, Option.bind_some, target_intoCanonical, if_pos rfl] at points
    cases points
  constructor
  · intro a b points
    rcases into a b points with before | rfl
    · exact fine.targets a b before
    · exact candidate
  · refine acyclic_of_kept_or_dead fine.acyclic fun a b points => ?_
    rcases into a b points with before | rfl
    · exact .inl before
    · exact .inr dead

theorem applyDecision_wellTargeted {decision : ReconciliationDecision} (anchored : Anchored candidates decision)
    (fine : WellTargeted candidates state) :
    ∃ after, applyDecision state decision = .ok after ∧ WellTargeted candidates after := by
  unfold Anchored at anchored
  unfold applyDecision
  cases action : decision.action with
  | merge | «alias» =>
    rw [action] at anchored
    obtain ⟨canonical, chosen, subject, candidate⟩ := anchored rfl
    rw [chosen]
    exact ⟨_, rfl, fine.setAll_canonical subject candidate⟩
  | split | suppress | conflict => exact ⟨_, rfl, fine.setAll_free fun _ => rfl⟩

theorem fold_wellTargeted {decisions : List ReconciliationDecision}
    (anchored : ∀ decision ∈ decisions, Anchored candidates decision) :
    ∃ state, decisions.foldlM applyDecision (independentAll candidates) = .ok state ∧
      WellTargeted candidates state := by
  have nothing : WellTargeted candidates .empty := by
    have free : ∀ a b, ¬ Points .empty a b := by
      intro a b points
      cases points
    refine ⟨fun a b points => absurd points (free a b), fun object cycle => ?_⟩
    obtain ⟨_, edge, _⟩ := TransGen.head'_iff.mp cycle
    exact free _ _ edge
  exact @foldlM_runs _ _ _ _ _ _ (fun _ state => WellTargeted candidates state) []
    (fun _ _ decision member fine => applyDecision_wellTargeted (anchored decision member) fine)
    (nothing.setAll_free fun _ => rfl)

structure Decided (store after : Store) (decision : ReconciliationDecision) : Prop where
  fresh : decision.id ∉ store.decisions.map (·.id)
  decisions : after.decisions = store.decisions ++ [decision]
  candidates : store.candidates ⊆ after.candidates
  anchored : Anchored (candidatesOf after decision.caseId) decision
  original : ∀ id, decision.reversesDecisionId = some id →
    ∃ original ∈ store.decisions, original.id = id ∧ original.caseId = decision.caseId
  cases : ∀ row ∈ after.cases, row ∈ store.cases ∨ trim row.id ≠ "" ∧ candidatesOf after row.id ≠ []

section
variable {digests : Digests} {store after : Store} {request : ReconciliationRequest} {context : Context}

theorem check_ok {fine : Prop} [Decidable fine] {refusal : Refusal} : check fine refusal = .ok () ↔ fine := by
  by_cases held : fine <;> simp [check, held]

variable {caseId : String}

theorem mem_candidatesOf {object : String} :
    object ∈ candidatesOf store caseId ↔ ∃ row ∈ store.candidates, row.1 = caseId ∧ row.2.objectId = object := by
  simp [candidatesOf, and_assoc]

theorem replay_eq_ok {id missing : String} (run : replay store id missing = .ok after) : after = store := by
  unfold replay at run
  split at run
  · cases run
  · exact (Except.ok.inj run).symm

theorem record_eq_ok {decision : ReconciliationDecision} {row : IdempotencyRow}
    (run : record store decision row = .ok after) : decision.id ∉ store.decisions.map (·.id) ∧
      after = { store with decisions := store.decisions ++ [decision], idempotency := store.idempotency ++ [row] } := by
  unfold record at run
  rw [check_eq_ok, check_ok, check_eq_ok] at run
  obtain ⟨fresh, _, run⟩ := run
  exact ⟨fresh, (Except.ok.inj run).symm⟩

variable {rows kept : List (String × ReconciliationCandidate)}

theorem persistCandidate_eq_ok
    {candidate : ReconciliationCandidate} (run : persistCandidate caseId rows candidate = .ok kept) :
    rows ⊆ kept ∧ (caseId, candidate) ∈ kept := by
  unfold persistCandidate at run
  split at run
  next row found =>
    split at run
    next same =>
      cases run
      have held := find?_some found
      obtain ⟨sameCase, _⟩ := of_decide_eq_true held
      refine ⟨List.Subset.refl _, ?_⟩
      rw [← sameCase, ← same]
      exact mem_of_find?_eq_some found
    next => cases run
  next =>
    cases run
    exact ⟨subset_append_left _ _, by simp⟩

theorem persistCandidates_eq_ok
    {candidates : List ReconciliationCandidate} (run : candidates.foldlM (persistCandidate caseId) rows = .ok kept) :
    rows ⊆ kept ∧ ∀ candidate ∈ candidates, (caseId, candidate) ∈ kept := by
  refine foldlM_ok_invariant (P := fun before kept => rows ⊆ kept ∧ ∀ candidate ∈ before, (caseId, candidate) ∈ kept)
    ?_ ⟨List.Subset.refl _, by simp⟩ run
  rintro before acc candidate acc' ⟨grown, there⟩ one
  obtain ⟨more, added⟩ := persistCandidate_eq_ok one
  refine ⟨List.Subset.trans grown more, fun other member => ?_⟩
  rcases mem_appended.mp member with earlier | rfl
  · exact more (there other earlier)
  · exact added

theorem ensureReconciliationCase_eq_ok {id : String}
    (run : ensureReconciliationCase store request id = .ok (after, caseId)) :
    after.candidates = store.candidates ∧ after.decisions = store.decisions ∧
      ∀ row ∈ after.cases, row ∈ store.cases ∨ row.id = id ∧ caseId = id := by
  unfold ensureReconciliationCase at run
  split at run
  · cases run
    exact ⟨rfl, rfl, fun row member => .inl member⟩
  · split at run
    · cases run
    · cases run
      refine ⟨rfl, rfl, fun row member => ?_⟩
      rcases mem_appended.mp member with old | rfl
      · exact .inl old
      · exact .inr ⟨rfl, rfl⟩

theorem validateReconciliationRequest_eq_ok (valid : validateReconciliationRequest request = .ok ()) :
    request.candidates ≠ [] ∧ (request.action.hasCanonical = true →
      ∃ canonical, request.canonicalObjectId = some canonical ∧ canonical ∈ normalizedSubjects request.subjects ∧
        canonical ∈ request.candidates.map (·.objectId)) := by
  unfold validateReconciliationRequest at valid
  rw [check_eq_ok, check_eq_ok, check_ok, check_eq_ok, check_eq_ok, check_eq_ok] at valid
  obtain ⟨_, several, _, _, _, canonical⟩ := valid
  refine ⟨fun none => by simp [none] at several, fun chooses => ?_⟩
  unfold checkCanonical at canonical
  rw [if_pos chooses] at canonical
  split at canonical
  · cases canonical
  next chosen given =>
    obtain ⟨candidate, subject⟩ := check_ok.mp canonical
    exact ⟨chosen, given, subject, candidate⟩

theorem caseId_visible (uuid : String) : trim ("reconciliation-case-" ++ uuid) ≠ "" := by
  refine trim_ne_empty (c := 'r') ?_ (by decide)
  rw [String.toList_append]
  exact mem_append_left _ (by decide)

theorem reconcileObjects_cases (run : reconcileObjects digests store request context = .ok after) :
    after = store ∨ ∃ decision, Decided store after decision := by
  unfold reconcileObjects at run
  rw [check_eq_ok, bind_eq_ok] at run
  obtain ⟨valid, seen, _, run⟩ := run
  obtain ⟨several, canonical⟩ := validateReconciliationRequest_eq_ok valid
  cases seen with
  | some id => exact .inl (replay_eq_ok run)
  | none =>
    rw [check_eq_ok, bind_eq_ok] at run
    obtain ⟨_, ⟨opened, caseId⟩, ensured, run⟩ := run
    rw [bind_eq_ok] at run
    obtain ⟨kept, persisted, run⟩ := run
    rw [check_eq_ok] at run
    obtain ⟨sameCandidates, sameDecisions, cases⟩ := ensureReconciliationCase_eq_ok ensured
    obtain ⟨grown, there⟩ := persistCandidates_eq_ok persisted
    obtain ⟨fresh, rfl⟩ := record_eq_ok run.2
    rw [sameCandidates] at grown
    have candidate : ∀ object ∈ request.candidates.map (·.objectId), ∀ decisions idempotency,
        object ∈ candidatesOf ⟨opened.cases, kept, decisions, idempotency⟩ caseId := by
      intro object member decisions idempotency
      obtain ⟨row, held, same⟩ := mem_map.mp member
      exact mem_candidatesOf.mpr ⟨_, there row held, rfl, same⟩
    refine .inr ⟨request.decision caseId context, ?_, ?_, grown, ?_, ?_, ?_⟩
    · rw [← sameDecisions]
      exact fresh
    · rw [sameDecisions]
    · intro chooses
      obtain ⟨chosen, given, subject, member⟩ := canonical chooses
      exact ⟨chosen, given, subject, candidate chosen member _ _⟩
    · intro id none
      cases none
    · intro row member
      rcases cases row member with old | ⟨new, same⟩
      · exact .inl old
      · obtain ⟨first, rest, shape⟩ := exists_cons_of_ne_nil several
        have held := candidate first.objectId (by simp [shape])
        rw [same, ← new] at held
        refine .inr ⟨?_, ne_nil_of_mem (held _ _)⟩
        rw [new]
        exact caseId_visible _

theorem reverseReconciliation_cases {decisionId actor reason idempotencyKey : String}
    (run : reverseReconciliation digests store decisionId actor reason idempotencyKey context = .ok after) :
    after = store ∨ ∃ decision, Decided store after decision ∧ decision.reversesDecisionId = some decisionId := by
  unfold reverseReconciliation at run
  rw [check_eq_ok] at run
  obtain ⟨_, run⟩ := run
  split at run
  · cases run
  next original found =>
    rw [check_eq_ok] at run
    obtain ⟨_, run⟩ := run
    split at run
    · cases run
    · rw [bind_eq_ok] at run
      obtain ⟨seen, _, run⟩ := run
      cases seen with
      | some id => exact .inl (replay_eq_ok run)
      | none =>
        rw [check_eq_ok] at run
        obtain ⟨fresh, rfl⟩ := record_eq_ok run.2
        refine .inr ⟨_, ⟨fresh, rfl, List.Subset.refl _, ?_, ?_, fun row member => .inl member⟩, rfl⟩
        · intro no
          cases no
        · intro id same
          cases same
          have same := find?_some found
          exact ⟨original, mem_of_find?_eq_some found, of_decide_eq_true same, rfl⟩

theorem serve_cases {call : Call} (run : serve digests store call = .ok after) :
    after = store ∨ ∃ decision, Decided store after decision := by
  cases call with
  | reconcile request context => exact reconcileObjects_cases run
  | reverse decisionId actor reason idempotencyKey context =>
    rcases reverseReconciliation_cases run with same | ⟨decision, decided, _⟩
    · exact .inl same
    · exact .inr ⟨decision, decided⟩

end

structure Sound (store : Store) : Prop where
  ids : (store.decisions.map (·.id)).Nodup
  originals : ∀ reversal ∈ store.decisions, ∀ id, reversal.reversesDecisionId = some id →
    ∃ original ∈ store.decisions, original.id = id ∧ original.caseId = reversal.caseId
  anchored : ∀ decision ∈ store.decisions, Anchored (candidatesOf store decision.caseId) decision
  cases : ∀ row ∈ store.cases, trim row.id ≠ "" ∧ candidatesOf store row.id ≠ []

section
variable {store after : Store} {decision : ReconciliationDecision} {caseId : String}

theorem Decided.candidatesOf_subset (decided : Decided store after decision) (caseId : String) :
    candidatesOf store caseId ⊆ candidatesOf after caseId := by
  intro object member
  obtain ⟨row, held, same⟩ := mem_candidatesOf.mp member
  exact mem_candidatesOf.mpr ⟨row, decided.candidates held, same⟩

theorem Sound.decided (sound : Sound store) (decided : Decided store after decision) : Sound after := by
  have grown := decided.candidatesOf_subset
  have rows : ∀ row ∈ after.decisions, row ∈ store.decisions ∨ row = decision := by
    intro row member
    rw [decided.decisions] at member
    simpa using member
  have kept : ∀ row ∈ store.decisions, row ∈ after.decisions := by
    intro row member
    rw [decided.decisions]
    exact mem_append_left _ member
  constructor
  · rw [decided.decisions, map_append]
    exact sound.ids.append (nodup_singleton _) (by simpa using decided.fresh)
  · intro reversal member id reverses
    have before : ∃ original ∈ store.decisions, original.id = id ∧ original.caseId = reversal.caseId := by
      rcases rows reversal member with old | rfl
      · exact sound.originals reversal old id reverses
      · exact decided.original id reverses
    obtain ⟨original, held, same⟩ := before
    exact ⟨original, kept original held, same⟩
  · intro row member
    rcases rows row member with old | rfl
    · intro chooses
      obtain ⟨canonical, given, subject, candidate⟩ := sound.anchored row old chooses
      exact ⟨canonical, given, subject, grown _ candidate⟩
    · exact decided.anchored
  · intro row member
    rcases decided.cases row member with old | new
    · obtain ⟨visible, some⟩ := sound.cases row old
      obtain ⟨object, held⟩ := exists_mem_of_ne_nil _ some
      exact ⟨visible, ne_nil_of_mem (grown _ held)⟩
    · exact new

theorem sound_storeAt (calls : List Call) (n : Nat) : Sound (storeAt digests calls n) := by
  have initial : Sound .empty := by
    constructor <;> simp [Store.empty]
  refine Trace.always (P := Sound) initial ?_ n
  intro n call _ sound
  unfold next
  split
  next run =>
    rcases serve_cases run with rfl | ⟨decision, decided⟩
    · exact sound
    · exact sound.decided decided
  · exact sound

/-- The decisions of a case that none reverses, in the order of their commits. -/
def unreversed (store : Store) (caseId : String) : List ReconciliationDecision :=
  store.decisions.filter fun decision => decision.caseId = caseId ∧ decision.reversesDecisionId = none ∧
    ¬ isReversed store.decisions decision.id

def Committed (backend : Backend) (store : Store) (caseId : String) : Prop :=
  reconciliationState backend store caseId =
    (unreversed store caseId).foldlM applyDecision (independentAll (candidatesOf store caseId))

/-- Each decision of the case has a clock and an id after those of the ones committed before it. -/
def InOrder (store : Store) (caseId : String) : Prop :=
  (store.decisions.filter (·.caseId = caseId)).Pairwise fun a b =>
    toLex (a.createdAtMs, a.id) ≤ toLex (b.createdAtMs, b.id)

theorem isReversed_iff {decisions : List ReconciliationDecision} {id : String} :
    isReversed decisions id ↔ ∃ reversal ∈ decisions, reversal.reversesDecisionId = some id := by
  simp [isReversed]

theorem Sound.live_eq_unreversed (sound : Sound store) :
    (listDecisions .sqlite store caseId).filter (isLive (listDecisions .sqlite store caseId)) =
      unreversed store caseId := by
  have reversed : ∀ decision ∈ store.decisions, decision.caseId = caseId →
      isReversed (listDecisions .sqlite store caseId) decision.id = isReversed store.decisions decision.id := by
    intro decision member own
    rw [Bool.eq_iff_iff, isReversed_iff, isReversed_iff]
    simp only [listDecisions, mem_filter, decide_eq_true_eq]
    constructor
    · rintro ⟨reversal, ⟨held, _⟩, reverses⟩
      exact ⟨reversal, held, reverses⟩
    · rintro ⟨reversal, held, reverses⟩
      obtain ⟨original, there, sameId, sameCase⟩ := sound.originals reversal held _ reverses
      have same := inj_on_of_nodup_map sound.ids there member sameId
      rw [same, own] at sameCase
      exact ⟨reversal, ⟨held, sameCase.symm⟩, reverses⟩
  nth_rewrite 2 [listDecisions]
  rw [filter_filter]
  refine filter_congr fun decision member => ?_
  by_cases own : decision.caseId = caseId
  · simp [isLive, own, reversed decision member own]
  · simp [own]

theorem Sound.listed (sound : Sound store) (backend : Backend) (there : caseId ∈ store.cases.map (·.id)) :
    reconciliationState backend store caseId = ((listDecisions backend store caseId).filter
      (isLive (listDecisions backend store caseId))).foldlM applyDecision
        (independentAll (candidatesOf store caseId)) := by
  obtain ⟨row, member, rfl⟩ := mem_map.mp there
  obtain ⟨visible, some⟩ := sound.cases row member
  unfold reconciliationState
  rw [show require ("case_id", row.id) = .ok () from check_ok.mpr visible]
  dsimp only [Bind.bind, Except.bind]
  rw [check_ok.mpr some]

theorem mem_listDecisions {backend : Backend} :
    decision ∈ listDecisions backend store caseId ↔ decision ∈ store.decisions ∧ decision.caseId = caseId := by
  cases backend <;> simp [listDecisions]

theorem unreversed_reversed {decisionId : String} (decided : Decided store after decision)
    (reverses : decision.reversesDecisionId = some decisionId) (caseId : String) :
    unreversed after caseId = (unreversed store caseId).filter (·.id ≠ decisionId) := by
  unfold unreversed
  rw [decided.decisions, filter_append, filter_filter]
  have gone : [decision].filter (fun row => row.caseId = caseId ∧ row.reversesDecisionId = none ∧
      ¬ isReversed (store.decisions ++ [decision]) row.id) = [] := by
    simp [reverses]
  rw [gone, append_nil]
  refine filter_congr fun row _ => ?_
  have last : isReversed (store.decisions ++ [decision]) row.id ↔
      isReversed store.decisions row.id ∨ row.id = decisionId := by
    simp [isReversed, reverses]
  simp only [last]
  by_cases same : row.id = decisionId <;> simp [same]

/-- Every target is a candidate and no way along targets returns, on both stores. The state is that of the unreversed
decisions in commit order on SQLite, and on PostgreSQL where clocks and ids follow that order. -/
theorem reconciliationState_committed (digests : Digests) (calls : List Call) (n : Nat) (caseId : String)
    (there : caseId ∈ (storeAt digests calls n).cases.map (·.id)) :
    let store := storeAt digests calls n
    (∀ backend, ∃ state, reconciliationState backend store caseId = .ok state ∧
        WellTargeted (candidatesOf store caseId) state) ∧
      Committed .sqlite store caseId ∧ (InOrder store caseId → Committed .postgres store caseId) ∧
      ∀ decisionId actor reason idempotencyKey context after,
        reverseReconciliation digests store decisionId actor reason idempotencyKey context = .ok after → after ≠ store →
        ∀ other, unreversed after other = (unreversed store other).filter (·.id ≠ decisionId) := by
  intro store
  have sound : Sound store := sound_storeAt calls n
  have onSqlite : Committed .sqlite store caseId := by
    unfold Committed
    rw [sound.listed .sqlite there, sound.live_eq_unreversed]
  refine ⟨fun backend => ?_, onSqlite, fun ordered => ?_, ?_⟩
  · rw [sound.listed backend there]
    refine fold_wellTargeted fun decision live => ?_
    obtain ⟨member, own⟩ := mem_listDecisions.mp (mem_of_mem_filter live)
    rw [← own]
    exact sound.anchored decision member
  · have same : listDecisions .postgres store caseId = listDecisions .sqlite store caseId :=
      List.Pairwise.insertionSort_eq ordered
    unfold Committed
    rw [sound.listed .postgres there, same, sound.live_eq_unreversed]
  · intro decisionId actor reason idempotencyKey context after run changed
    rcases reverseReconciliation_cases run with same | ⟨decision, decided, reverses⟩
    · exact absurd same changed
    · exact unreversed_reversed decided reverses

/-- Two objects merged one way, then the other. -/
def twoMerges (first second : Int) : List Call :=
  let merge (canonical uuid : String) (nowMs : Int) : Call :=
    .reconcile ⟨"n", "k", "x", [⟨"a", "s", 0, false⟩, ⟨"b", "s", 0, false⟩], .merge, ["a", "b"], some canonical, "u",
      "r", uuid⟩
      ⟨uuid, "c", fun _ => some ("n", "k"), nowMs⟩
  [merge "a" "1" first, merge "b" "2" second]

def plainDigests : Digests := ⟨fun _ => "", fun _ _ _ => ""⟩

theorem reconciliationState_committed_twoMerges :
    InOrder (storeAt plainDigests (twoMerges 1 2) 2) "reconciliation-case-c" ∧
      Committed .postgres (storeAt plainDigests (twoMerges 1 2) 2) "reconciliation-case-c" := by
  have ordered : InOrder (storeAt plainDigests (twoMerges 1 2) 2) "reconciliation-case-c" := by
    unfold InOrder
    decide +kernel
  have all := reconciliationState_committed plainDigests (twoMerges 1 2) 2 "reconciliation-case-c" (by decide +kernel)
  exact ⟨ordered, all.2.2.1 ordered⟩

/-- The second merge reads an earlier clock than the first: PostgreSQL applies it first. -/
theorem postgres_state_of_falling_clock :
    let store := storeAt plainDigests (twoMerges 2 1) 2
    ((reconciliationState .sqlite store "reconciliation-case-c").toOption.map (·.entries) =
        some [("a", .mergedInto "b"), ("b", .independent)]) ∧
      ((reconciliationState .postgres store "reconciliation-case-c").toOption.map (·.entries) =
        some [("a", .independent), ("b", .mergedInto "a")]) ∧
      ¬ Committed .postgres store "reconciliation-case-c" := by
  intro store
  have onPostgres : (reconciliationState .postgres store "reconciliation-case-c").toOption.map (·.entries) =
      some [("a", .independent), ("b", .mergedInto "a")] := by decide +kernel
  refine ⟨by decide +kernel, onPostgres, fun committed => ?_⟩
  rw [show reconciliationState .postgres store _ = _ from committed] at onPostgres
  revert onPostgres
  decide +kernel

end

/-- The decisions only grow: no call takes one back, changes it or moves it. -/
theorem decisions_append_only (digests : Digests) (calls : List Call) (n k : Nat) :
    (storeAt digests calls n).decisions <+: (storeAt digests calls (n + k)).decisions := by
  refine Trace.lasts (P := fun store : Store => (storeAt digests calls n).decisions <+: store.decisions) ?_
    (Nat.le_add_right n k) prefix_rfl
  intro m call _ kept
  unfold next
  split
  next run =>
    rcases serve_cases run with rfl | ⟨decision, decided⟩
    · exact kept
    · exact decided.decisions ▸ kept.trans (prefix_append _ _)
  · exact kept

end SekaiChisei.Reconciliation
