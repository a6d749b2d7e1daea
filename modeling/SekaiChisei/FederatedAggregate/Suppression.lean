import SekaiChisei.FederatedAggregate.Aggregate
import SekaiChisei.Lib.Fallible

/-! Which groups a federated aggregate returns: those that the tenants with enough rows of their own bring to the
largest minimum. -/

namespace SekaiChisei.FederatedAggregate
open Lib List

def Fits (query : Query) (row : Row) : Prop :=
  row.key.length = query.dimensions.length ∧ row.values.length = (summedProperties query).length

section
variable {query : Query} {rows : List Row} {exact : OrderedMap GroupKey (Nat × List Float)} {width : Nat}

theorem groupRows_ok : groupRows query rows = .ok exact ↔
    (∀ row ∈ rows, Fits query row) ∧ exact = rows.foldl (addRow (summedProperties query).length) .empty := by
  refine foldlM_eq_ok fun exact row next => ?_
  rw [ite_error_eq_ok, not_or, not_ne_iff, not_ne_iff, Except.ok.injEq, eq_comm (a := next)]
  rfl

def counted (exact : OrderedMap GroupKey (Nat × List Float)) (key : GroupKey) : Nat :=
  (exact.get key).elim 0 Prod.fst

theorem counted_addRow {key : GroupKey} (row : Row) :
    counted (addRow width exact row) key = counted exact key + if row.key = key then 1 else 0 := by
  unfold counted addRow
  rw [OrderedMap.get_adjust]
  by_cases same : key = row.key
  · subst same
    rw [if_pos rfl, if_pos rfl]
    cases exact.get row.key with
    | none => rfl
    | some entry => rfl
  · rw [if_neg same, if_neg (Ne.symm same)]
    rfl

theorem counted_foldl {key : GroupKey} (start : OrderedMap GroupKey (Nat × List Float)) :
    counted (rows.foldl (addRow width) start) key = counted start key + rows.countP fun row => row.key = key := by
  induction rows generalizing start with
  | nil => rfl
  | cons row rows ih =>
    rw [foldl_cons, ih, counted_addRow, countP_cons]
    by_cases same : row.key = key
    · simp only [same, decide_true]
      omega
    · simp [same]

structure Grouped (query : Query) (exact : OrderedMap GroupKey (Nat × List Float)) : Prop where
  positive : ∀ key entry, exact.get key = some entry → 0 < entry.1
  shaped : ∀ key entry, exact.get key = some entry →
    key.length = query.dimensions.length ∧ entry.2.length = (summedProperties query).length

theorem Grouped.addRow (grouped : Grouped query exact) {row : Row} (fits : Fits query row) :
    Grouped query (addRow (summedProperties query).length exact row) := by
  have entries : ∀ key entry, (FederatedAggregate.addRow (summedProperties query).length exact row).get key =
        some entry → 0 < entry.1 ∧
      key.length = query.dimensions.length ∧ entry.2.length = (summedProperties query).length := by
    intro key entry found
    rw [FederatedAggregate.addRow, OrderedMap.get_adjust] at found
    split at found
    · next same =>
      cases found
      refine ⟨Nat.succ_pos _, by rw [same, fits.1], ?_⟩
      rw [length_zipWith, fits.2]
      cases held : exact.get row.key with
      | none => simp [zeros]
      | some old => simp [(grouped.shaped _ _ held).2]
    · exact ⟨grouped.positive key entry found, grouped.shaped key entry found⟩
  exact ⟨fun key entry found => (entries key entry found).1, fun key entry found => (entries key entry found).2⟩

theorem Grouped.foldl (grouped : Grouped query exact) (fit : ∀ row ∈ rows, Fits query row) :
    Grouped query (rows.foldl (FederatedAggregate.addRow (summedProperties query).length) exact) := by
  induction rows generalizing exact with
  | nil => exact grouped
  | cons row rows ih =>
    obtain ⟨first, others⟩ := forall_mem_cons.mp fit
    exact ih (grouped.addRow first) others

theorem grouped_empty : Grouped query .empty := by
  constructor
  · intro key entry found
    cases found
  · intro key entry found
    cases found

end

structure Contribution where
  tenant : String
  allowance : Allowance
  rows : List Row
  random : Nat → Float

namespace Contribution

def build (digests : Digests) (query : Query) (contribution : Contribution) :
    Except FederatedAggregateError Partial :=
  tenantPartial digests contribution.tenant contribution.allowance query contribution.rows contribution.random

def rowsIn (contribution : Contribution) (key : GroupKey) : Nat :=
  contribution.rows.countP fun row => row.key = key

def keySet (contribution : Contribution) : Finset GroupKey := (contribution.rows.map Row.key).toFinset

def Adds (contribution : Contribution) (key : GroupKey) : Prop :=
  contribution.allowance.minGroupSize ≤ contribution.rowsIn key

instance (contribution : Contribution) : DecidablePred contribution.Adds :=
  fun key => inferInstanceAs (Decidable (contribution.allowance.minGroupSize ≤ contribution.rowsIn key))

theorem mem_keySet {contribution : Contribution} {key : GroupKey} :
    key ∈ contribution.keySet ↔ 0 < contribution.rowsIn key := by
  simp [keySet, rowsIn, countP_pos_iff]

end Contribution

structure Answers (digests : Digests) (query : Query) (contribution : Contribution) (part : Partial) : Prop where
  tenant : part.tenant = contribution.tenant
  queryDigest : part.queryDigest = digests.query query
  minGroupSize : part.minGroupSize = contribution.allowance.minGroupSize
  exactCount : ∀ key group, part.groups.get key = some group →
    group.exactCount = contribution.rowsIn key ∧ contribution.Adds key
  groups : ∀ key, contribution.Adds key → ∃ group, part.groups.get key = some group
  shaped : ∀ key group, part.groups.get key = some group →
    key.length = query.dimensions.length ∧ group.sums.length = (summedProperties query).length
  suppressed : part.suppressedGroups = (contribution.keySet.filter fun key => ¬ contribution.Adds key).card

structure Accepted (query : Query) (contribution : Contribution) : Prop where
  valid : contribution.allowance.validate = .ok ()
  covered : coverage (some contribution.allowance) contribution.tenant query = .ok ()
  fit : ∀ row ∈ contribution.rows, Fits query row

section
variable {digests : Digests} {query : Query} {contribution : Contribution} {part : Partial} {key : GroupKey}

theorem noisySums_length (scale : Float) (random : Nat → Float) (draw : Nat) (sums : List Float) :
    (noisySums scale random draw sums).length = sums.length := by
  induction sums generalizing draw with
  | nil => rfl
  | cons sum sums ih => rw [noisySums, length_cons, length_cons, ih]

theorem validate_minGroupSize {allowance : Allowance} (valid : allowance.validate = .ok ()) :
    2 ≤ allowance.minGroupSize := by
  obtain ⟨_, valid⟩ := ite_error_eq_ok.mp valid
  obtain ⟨_, valid⟩ := ite_error_eq_ok.mp valid
  obtain ⟨_, valid⟩ := ite_error_eq_ok.mp valid
  obtain ⟨large, _⟩ := ite_error_eq_ok.mp valid
  exact Nat.le_of_not_lt large

def exactGroups (query : Query) (contribution : Contribution) : OrderedMap GroupKey (Nat × List Float) :=
  contribution.rows.foldl (addRow (summedProperties query).length) .empty

def keptGroups (query : Query) (contribution : Contribution) : OrderedMap GroupKey GroupPartial :=
  ((exactGroups query contribution).filter fun entry => contribution.allowance.minGroupSize ≤ entry.1).mapValues
    fun entry => ⟨entry.1.toFloat, entry.2, entry.1⟩

def partialOf (digests : Digests) (query : Query) (contribution : Contribution) : Partial where
  tenant := contribution.tenant
  allowanceDigest := digests.allowance contribution.allowance
  queryDigest := digests.query query
  minGroupSize := contribution.allowance.minGroupSize
  groups :=
    match contribution.allowance.noiseScale with
    | none => keptGroups query contribution
    | some scale => (keptGroups query contribution).walk (addNoise scale contribution.random) 0
  suppressedGroups := (exactGroups query contribution).size - (keptGroups query contribution).size
  noise := contribution.allowance.noiseScale.map fun scale => ⟨.laplace, scale⟩

theorem build_ok : contribution.build digests query = .ok part ↔
    Accepted query contribution ∧ part = partialOf digests query contribution := by
  constructor
  · intro run
    obtain ⟨digest, digested, rest⟩ := bind_eq_ok.mp run
    obtain ⟨valid, made⟩ := check_eq_ok.mp digested
    cases made
    split at rest
    · cases rest
    · next covered =>
      obtain ⟨exact, grouped, last⟩ := bind_eq_ok.mp rest
      obtain ⟨fit, rfl⟩ := groupRows_ok.mp grouped
      cases last
      exact ⟨⟨valid, covered, fit⟩, rfl⟩
  · rintro ⟨⟨valid, covered, fit⟩, rfl⟩
    refine bind_eq_ok.mpr ⟨_, check_eq_ok.mpr ⟨valid, rfl⟩, ?_⟩
    rw [covered]
    exact bind_eq_ok.mpr ⟨_, groupRows_ok.mpr ⟨fit, rfl⟩, rfl⟩

theorem counted_exactGroups : counted (exactGroups query contribution) key = contribution.rowsIn key := by
  unfold exactGroups
  rw [counted_foldl]
  exact Nat.zero_add _

theorem Accepted.grouped (accepted : Accepted query contribution) : Grouped query (exactGroups query contribution) :=
  grouped_empty.foldl accepted.fit

theorem exactGroups_count {entry : Nat × List Float}
    (found : (exactGroups query contribution).get key = some entry) : entry.1 = contribution.rowsIn key := by
  rw [← counted_exactGroups, counted, found]
  rfl

theorem exactGroups_keySet (accepted : Accepted query contribution) :
    (exactGroups query contribution).keySet = contribution.keySet := by
  ext key
  rw [OrderedMap.mem_keySet, Contribution.mem_keySet]
  constructor
  · rintro ⟨entry, found⟩
    rw [← exactGroups_count found]
    exact accepted.grouped.positive key entry found
  · intro positive
    rw [← counted_exactGroups, counted] at positive
    cases found : (exactGroups query contribution).get key with
    | none =>
      rw [found] at positive
      exact absurd positive (Nat.lt_irrefl 0)
    | some entry => exact ⟨entry, rfl⟩

variable {group : GroupPartial}

theorem keptGroups_get : (keptGroups query contribution).get key = some group ↔
      ∃ entry, (exactGroups query contribution).get key = some entry ∧ contribution.Adds key ∧
        group = ⟨entry.1.toFloat, entry.2, entry.1⟩ := by
  rw [keptGroups, OrderedMap.get_mapValues]
  constructor
  · rintro ⟨entry, found, rfl⟩
    obtain ⟨stored, large⟩ := OrderedMap.get_filter.mp found
    rw [decide_eq_true_eq, exactGroups_count stored] at large
    exact ⟨entry, stored, large, rfl⟩
  · rintro ⟨entry, stored, large, rfl⟩
    refine ⟨entry, OrderedMap.get_filter.mpr ⟨stored, ?_⟩, rfl⟩
    rw [decide_eq_true_eq, exactGroups_count stored]
    exact large

/-- Noise changes neither the keys nor the exact counts nor the widths. -/
theorem partialOf_get :
    ((partialOf digests query contribution).groups.get key).map (fun group => (group.exactCount, group.sums.length)) =
      ((keptGroups query contribution).get key).map (fun group => (group.exactCount, group.sums.length)) := by
  unfold partialOf
  cases contribution.allowance.noiseScale with
  | none => rfl
  | some scale =>
    refine OrderedMap.get_walk (fun draw group => ?_) key
    rw [addNoise, noisySums_length]

theorem partialOf_kept (found : (partialOf digests query contribution).groups.get key = some group) :
    ∃ kept, (keptGroups query contribution).get key = some kept ∧ kept.exactCount = group.exactCount ∧
      kept.sums.length = group.sums.length := by
  have same := @partialOf_get digests query contribution key
  rw [found] at same
  obtain ⟨kept, stored, equal⟩ := Option.map_eq_some_iff.mp same.symm
  exact ⟨kept, stored, congrArg Prod.fst equal, congrArg Prod.snd equal⟩

theorem Accepted.suppressed (accepted : Accepted query contribution) :
    (partialOf digests query contribution).suppressedGroups =
      (contribution.keySet.filter fun key => ¬ contribution.Adds key).card := by
  show (exactGroups query contribution).size - (keptGroups query contribution).size = _
  rw [keptGroups, OrderedMap.size_mapValues, OrderedMap.size_sub_filter, exactGroups_keySet accepted]
  congr 1
  refine Finset.filter_congr fun key member => ?_
  rw [← exactGroups_keySet accepted, OrderedMap.mem_keySet] at member
  obtain ⟨entry, found⟩ := member
  rw [Contribution.Adds, ← exactGroups_count found]
  constructor
  · intro all
    simpa using all entry found
  · intro small other stored
    rw [found] at stored
    cases stored
    simpa using small

theorem Accepted.answers (accepted : Accepted query contribution) :
    Answers digests query contribution (partialOf digests query contribution) := by
  refine ⟨rfl, rfl, rfl, ?_, ?_, ?_, accepted.suppressed⟩
  · intro key group found
    obtain ⟨kept, stored, count, _⟩ := partialOf_kept found
    obtain ⟨entry, grouped, large, rfl⟩ := keptGroups_get.mp stored
    exact ⟨by rw [← count, ← exactGroups_count grouped], large⟩
  · intro key large
    have positive : 0 < contribution.rowsIn key := by
      have least := validate_minGroupSize accepted.valid
      unfold Contribution.Adds at large
      omega
    rw [← Contribution.mem_keySet, ← exactGroups_keySet accepted, OrderedMap.mem_keySet] at positive
    obtain ⟨entry, grouped⟩ := positive
    have same := @partialOf_get digests query contribution key
    rw [keptGroups_get.mpr ⟨entry, grouped, large, rfl⟩] at same
    obtain ⟨group, stored, _⟩ := Option.map_eq_some_iff.mp same
    exact ⟨group, stored⟩
  · intro key group found
    obtain ⟨kept, stored, _, width⟩ := partialOf_kept found
    obtain ⟨entry, grouped, _, rfl⟩ := keptGroups_get.mp stored
    obtain ⟨length, sums⟩ := accepted.grouped.shaped key entry grouped
    exact ⟨length, width.symm.trans sums⟩

end

def tally (groups : OrderedMap GroupKey GroupPartial) (key : GroupKey) : Nat :=
  (groups.get key).elim 0 GroupPartial.exactCount

section
variable {width : Nat} {key : GroupKey}

theorem tally_addGroup (merged : OrderedMap GroupKey GroupPartial) (entry : GroupKey × GroupPartial) (key : GroupKey) :
    tally (addGroup width merged entry) key = tally merged key + (if key = entry.1 then entry.2.exactCount else 0) ∧
      ((∃ group, (addGroup width merged entry).get key = some group) ↔
        (∃ group, merged.get key = some group) ∨ key = entry.1) := by
  unfold tally addGroup
  rw [OrderedMap.get_adjust]
  by_cases same : key = entry.1
  · subst same
    rw [if_pos rfl, if_pos rfl]
    refine ⟨?_, by simp⟩
    cases merged.get entry.1 with
    | none => rfl
    | some group => rfl
  · simp [same]

theorem foldl_addGroup (groups merged : OrderedMap GroupKey GroupPartial) (key : GroupKey) :
    tally (groups.entries.foldl (addGroup width) merged) key = tally merged key + tally groups key ∧
      ((∃ group, (groups.entries.foldl (addGroup width) merged).get key = some group) ↔
        (∃ group, merged.get key = some group) ∨ ∃ group, groups.get key = some group) := by
  obtain ⟨entries, sorted⟩ := groups
  unfold tally
  induction entries generalizing merged with
  | nil => simp [OrderedMap.get]
  | cons entry entries ih =>
    obtain ⟨first, held⟩ := entry
    obtain ⟨above, later⟩ := pairwise_cons.mp sorted
    obtain ⟨total, present⟩ := ih (addGroup width merged (first, held)) later
    obtain ⟨oneTotal, onePresent⟩ := @tally_addGroup width merged (first, held) key
    unfold tally at oneTotal
    rw [foldl_cons, total, present, oneTotal, onePresent, OrderedMap.get_cons]
    by_cases same : key = first
    · subst same
      have free : (⟨entries, later⟩ : OrderedMap GroupKey GroupPartial).get key = none :=
        OrderedMap.get_of_above above
      simp [free]
    · simp [same]

variable (partials : List Partial)
include partials

theorem foldl_partials (merged : OrderedMap GroupKey GroupPartial) (key : GroupKey) :
    tally (partials.foldl (fun merged part => part.groups.entries.foldl (addGroup width) merged) merged) key =
        tally merged key + (partials.map fun part => tally part.groups key).sum ∧
      ((∃ group, (partials.foldl (fun merged part => part.groups.entries.foldl (addGroup width) merged) merged).get
          key = some group) ↔
        (∃ group, merged.get key = some group) ∨ ∃ part ∈ partials, ∃ group, part.groups.get key = some group) := by
  induction partials generalizing merged with
  | nil => simp
  | cons part partials ih =>
    obtain ⟨total, present⟩ := ih (part.groups.entries.foldl (addGroup width) merged)
    obtain ⟨oneTotal, onePresent⟩ := @foldl_addGroup width part.groups merged key
    rw [foldl_cons, total, present, oneTotal, onePresent, map_cons, sum_cons, exists_mem_cons_iff,
      or_assoc, Nat.add_assoc]
    exact ⟨rfl, Iff.rfl⟩

theorem mergePartials_tally :
    tally (mergePartials width partials) key = (partials.map fun part => tally part.groups key).sum := by
  have total := (@foldl_partials width partials .empty key).1
  rwa [show tally .empty key = 0 from rfl, Nat.zero_add] at total

theorem mergePartials_get : (∃ group, (mergePartials width partials).get key = some group) ↔
      ∃ part ∈ partials, ∃ group, part.groups.get key = some group := by
  have present := (@foldl_partials width partials .empty key).2
  have none : ¬ ∃ group, (OrderedMap.empty : OrderedMap GroupKey GroupPartial).get key = some group := by
    rintro ⟨group, found⟩
    cases found
  rwa [or_iff_right none] at present

end

end SekaiChisei.FederatedAggregate
