import SekaiChisei.FederatedAggregate.Suppression

/-! The combined result of a federated query: the keys it returns and the groups it counts as suppressed, whatever the
orders and the noise. -/

namespace SekaiChisei.FederatedAggregate
open Lib List

section
variable {digests : Digests} {query : Query}

def Shaped (query : Query) (part : Partial) : Prop :=
  ∀ entry ∈ part.groups.entries,
    entry.1.length = query.dimensions.length ∧ entry.2.sums.length = (summedProperties query).length

variable {partials : List Partial}

theorem checkPartials_ok {tenants : Finset String} : checkPartials digests query tenants partials = .ok () ↔
      (∀ part ∈ partials, part.queryDigest = digests.query query ∧ Shaped query part) ∧
        (partials.map Partial.tenant).Nodup ∧ ∀ part ∈ partials, part.tenant ∉ tenants := by
  induction partials generalizing tenants with
  | nil => simp [checkPartials]
  | cons first rest ih =>
    rw [checkPartials, ite_error_eq_ok, ite_error_eq_ok, ite_error_eq_ok, ih, map_cons, nodup_cons,
      forall_mem_cons, forall_mem_cons]
    have shaped : (¬ (first.groups.entries.any fun entry => entry.1.length ≠ query.dimensions.length ∨
          entry.2.sums.length ≠ (summedProperties query).length) = true) ↔ Shaped query first := by
      simp only [any_eq_true, decide_eq_true_eq, not_exists, not_and, not_or, not_not, Shaped]
    have others : (∀ part ∈ rest, part.tenant ∉ insert first.tenant tenants) ↔
        first.tenant ∉ rest.map Partial.tenant ∧ ∀ part ∈ rest, part.tenant ∉ tenants := by
      simp only [Finset.mem_insert, not_or, mem_map, not_exists, not_and, forall_and]
    tauto

def combinedOf (query : Query) (partials : List Partial) (excluded : OrderedMap String ExclusionReason) : Combined :=
  let merged := mergePartials (summedProperties query).length partials
  let kept := merged.filter fun group => largestGroupSize partials ≤ group.exactCount
  { groups := kept.mapValues fun group => ⟨query.measures.map (measureValue query group)⟩
    suppressedGroups := (partials.map Partial.suppressedGroups).sum + (merged.size - kept.size)
    minGroupSize := largestGroupSize partials
    contributors := partials.map Partial.tenant
    excluded
    noise := partials.foldl (fun noise part =>
      match part.noise with
      | none => noise
      | some report => noise.adjust part.tenant report fun _ => report) .empty }

theorem combine_ok {excluded : OrderedMap String ExclusionReason} {combined : Combined} :
    combine digests query partials excluded = .ok combined ↔
      checkPartials digests query ∅ partials = .ok () ∧ combined = combinedOf query partials excluded := by
  unfold combine
  rw [check_eq_ok]
  refine and_congr_right fun _ => ?_
  constructor
  · intro made
    cases made
    rfl
  · rintro rfl
    rfl

end

def federate (digests : Digests) (query : Query) (contributions : List Contribution)
    (excluded : OrderedMap String ExclusionReason) : Except FederatedAggregateError Combined := do
  let partials ← contributions.mapM (Contribution.build digests query)
  combine digests query partials excluded

def largestMinimum (contributions : List Contribution) : Nat :=
  (contributions.map fun contribution => contribution.allowance.minGroupSize).foldl max 0

def rowsTotal (contributions : List Contribution) (key : GroupKey) : Nat :=
  (contributions.map fun contribution => contribution.rowsIn key).sum

def rowsAdded (contributions : List Contribution) (key : GroupKey) : Nat :=
  (contributions.map fun contribution => if contribution.Adds key then contribution.rowsIn key else 0).sum

def groupKeys (contributions : List Contribution) : Finset GroupKey :=
  (contributions.flatMap fun contribution => contribution.rows.map Row.key).toFinset

section
variable {digests : Digests} {query : Query} {contributions : List Contribution}
  {excluded : OrderedMap String ExclusionReason} {combined : Combined} {key : GroupKey}

theorem federate_ok : federate digests query contributions excluded = .ok combined ↔
    (∀ contribution ∈ contributions, Accepted query contribution) ∧ (contributions.map Contribution.tenant).Nodup ∧
      combined = combinedOf query (contributions.map (partialOf digests query)) excluded := by
  unfold federate
  rw [bind_eq_ok]
  have tenants : (contributions.map (partialOf digests query)).map Partial.tenant =
      contributions.map Contribution.tenant := by
    rw [map_map]
    rfl
  constructor
  · rintro ⟨partials, built, done⟩
    obtain ⟨accepted, rfl⟩ := (mapM_eq_ok fun _ _ => build_ok).mp built
    obtain ⟨checked, made⟩ := combine_ok.mp done
    have distinct := (checkPartials_ok.mp checked).2.1
    rw [tenants] at distinct
    exact ⟨accepted, distinct, made⟩
  · rintro ⟨accepted, distinct, made⟩
    refine ⟨_, (mapM_eq_ok fun _ _ => build_ok).mpr ⟨accepted, rfl⟩, combine_ok.mpr ⟨?_, made⟩⟩
    refine checkPartials_ok.mpr ⟨?_, by rwa [tenants], by simp⟩
    intro part member
    obtain ⟨contribution, given, rfl⟩ := mem_map.mp member
    have answers := @Accepted.answers digests query contribution (accepted contribution given)
    exact ⟨answers.queryDigest, fun entry stored => answers.shaped entry.1 entry.2 (OrderedMap.get_eq_some.mpr stored)⟩

theorem Answers.tally {contribution : Contribution} {part : Partial}
    (answers : Answers digests query contribution part) (key : GroupKey) :
    tally part.groups key = if contribution.Adds key then contribution.rowsIn key else 0 := by
  unfold FederatedAggregate.tally
  cases found : part.groups.get key with
  | some group =>
    obtain ⟨count, adds⟩ := answers.exactCount key group found
    rw [if_pos adds]
    exact count
  | none =>
    have free : ¬ contribution.Adds key := by
      intro adds
      obtain ⟨group, stored⟩ := answers.groups key adds
      rw [found] at stored
      cases stored
    rw [if_neg free]
    rfl

section
variable (accepted : ∀ contribution ∈ contributions, Accepted query contribution)
include accepted

theorem merged_tally (key : GroupKey) :
    tally (mergePartials (summedProperties query).length (contributions.map (partialOf digests query))) key =
      rowsAdded contributions key := by
  rw [mergePartials_tally, map_map]
  congr 1
  refine map_congr_left fun contribution given => ?_
  exact (accepted contribution given).answers.tally key

theorem merged_get (key : GroupKey) :
    (∃ group, (mergePartials (summedProperties query).length (contributions.map (partialOf digests query))).get key =
        some group) ↔ ∃ contribution ∈ contributions, contribution.Adds key := by
  rw [mergePartials_get]
  constructor
  · rintro ⟨part, member, group, found⟩
    obtain ⟨contribution, given, rfl⟩ := mem_map.mp member
    exact ⟨contribution, given, ((accepted contribution given).answers.exactCount key group found).2⟩
  · rintro ⟨contribution, given, adds⟩
    obtain ⟨group, found⟩ := (accepted contribution given).answers.groups key adds
    exact ⟨_, mem_map_of_mem given, group, found⟩

theorem merged_count {group : GroupPartial}
    (found : (mergePartials (summedProperties query).length (contributions.map (partialOf digests query))).get key =
      some group) : group.exactCount = rowsAdded contributions key := by
  rw [← merged_tally accepted key, tally, found]
  rfl

omit accepted in
theorem largestGroupSize_map :
    largestGroupSize (contributions.map (partialOf digests query)) = largestMinimum contributions := by
  rw [largestGroupSize, map_map]
  rfl

theorem mem_combined_keys :
    key ∈ (combinedOf query (contributions.map (partialOf digests query)) excluded).groups.keys ↔
      (∃ contribution ∈ contributions, contribution.Adds key) ∧
        largestMinimum contributions ≤ rowsAdded contributions key := by
  unfold combinedOf
  rw [OrderedMap.keys_mapValues, OrderedMap.mem_keys, largestGroupSize_map]
  constructor
  · rintro ⟨group, found⟩
    obtain ⟨stored, large⟩ := OrderedMap.get_filter.mp found
    rw [decide_eq_true_eq, merged_count accepted stored] at large
    exact ⟨(merged_get accepted key).mp ⟨group, stored⟩, large⟩
  · rintro ⟨added, large⟩
    obtain ⟨group, stored⟩ := (merged_get accepted key).mpr added
    refine ⟨group, OrderedMap.get_filter.mpr ⟨stored, ?_⟩⟩
    rw [decide_eq_true_eq, merged_count accepted stored]
    exact large

omit accepted in
theorem mem_groupKeys : key ∈ groupKeys contributions ↔
    ∃ contribution ∈ contributions, 0 < contribution.rowsIn key := by
  simp only [groupKeys, mem_toFinset, mem_flatMap]
  constructor
  · rintro ⟨contribution, given, member⟩
    exact ⟨contribution, given, Contribution.mem_keySet.mp (mem_toFinset.mpr member)⟩
  · rintro ⟨contribution, given, positive⟩
    exact ⟨contribution, given, mem_toFinset.mp (Contribution.mem_keySet.mpr positive)⟩

theorem combined_suppressed :
    (combinedOf query (contributions.map (partialOf digests query)) excluded).suppressedGroups =
      (contributions.map fun contribution =>
          (contribution.keySet.filter fun key => ¬ contribution.Adds key).card).sum +
        ((groupKeys contributions).filter fun key => (∃ contribution ∈ contributions, contribution.Adds key) ∧
          rowsAdded contributions key < largestMinimum contributions).card := by
  unfold combinedOf
  dsimp only
  rw [map_map, OrderedMap.size_sub_filter, largestGroupSize_map]
  congr 1
  · congr 1
    refine map_congr_left fun contribution given => ?_
    exact (accepted contribution given).suppressed
  · congr 1
    ext key
    rw [Finset.mem_filter, Finset.mem_filter, OrderedMap.mem_keySet, merged_get accepted, mem_groupKeys]
    constructor
    · rintro ⟨⟨contribution, given, adds⟩, small⟩
      obtain ⟨group, stored⟩ := (@merged_get digests query contributions accepted key).mpr ⟨contribution, given, adds⟩
      have positive : 0 < contribution.rowsIn key := by
        have least := validate_minGroupSize (accepted contribution given).valid
        unfold Contribution.Adds at adds
        omega
      have below := small group stored
      rw [decide_eq_false_iff_not, merged_count accepted stored, Nat.not_le] at below
      exact ⟨⟨contribution, given, positive⟩, ⟨contribution, given, adds⟩, below⟩
    · rintro ⟨_, added, below⟩
      refine ⟨added, ?_⟩
      intro group stored
      rw [decide_eq_false_iff_not, merged_count accepted stored, Nat.not_le]
      exact below

end

omit digests query excluded combined in
theorem rowsAdded_le_total : rowsAdded contributions key ≤ rowsTotal contributions key := by
  unfold rowsAdded rowsTotal
  refine sum_le_sum fun contribution _ => ?_
  split
  · exact le_refl _
  · exact Nat.zero_le _

end

structure Contribution.Same (one other : Contribution) : Prop where
  tenant : one.tenant = other.tenant
  allowance : one.allowance = other.allowance
  rows : one.rows.Perm other.rows

def Rearranged (contributions others : List Contribution) : Prop :=
  ∃ middle, contributions.Perm middle ∧ List.Forall₂ Contribution.Same middle others

section
variable {query : Query} {contributions others : List Contribution} {one other : Contribution} {key : GroupKey}

theorem Rearranged.map_perm {α : Type} {f : Contribution → α} (rearranged : Rearranged contributions others)
    (congr : ∀ one other : Contribution, one.Same other → f one = f other) :
    (contributions.map f).Perm (others.map f) := by
  obtain ⟨middle, permuted, same⟩ := rearranged
  have equal : middle.map f = others.map f := by
    clear permuted
    induction same with
    | nil => rfl
    | cons first _ ih => rw [map_cons, map_cons, congr _ _ first, ih]
  rw [← equal]
  exact permuted.map f

theorem Rearranged.forall_iff {P : Contribution → Prop} (rearranged : Rearranged contributions others)
    (congr : ∀ one other : Contribution, one.Same other → (P one ↔ P other)) :
    (∀ contribution ∈ contributions, P contribution) ↔ ∀ contribution ∈ others, P contribution := by
  have permuted := rearranged.map_perm fun one other same => propext (congr one other same)
  have all (list : List Contribution) : (∀ contribution ∈ list, P contribution) ↔ ∀ holds ∈ list.map P, holds := by
    rw [forall_mem_map]
  rw [all, all]
  constructor
  · intro given holds member
    exact given holds (permuted.mem_iff.mpr member)
  · intro given holds member
    exact given holds (permuted.mem_iff.mp member)

theorem Contribution.Same.rowsIn (same : one.Same other) (key : GroupKey) : one.rowsIn key = other.rowsIn key :=
  same.rows.countP_eq _

theorem Contribution.Same.adds (same : one.Same other) (key : GroupKey) : one.Adds key ↔ other.Adds key := by
  unfold Contribution.Adds
  rw [same.allowance, same.rowsIn]

theorem Contribution.Same.accepted (same : one.Same other) : Accepted query one ↔ Accepted query other := by
  constructor
  · rintro ⟨valid, covered, fit⟩
    refine ⟨by rwa [← same.allowance], by rwa [← same.allowance, ← same.tenant], ?_⟩
    intro row member
    exact fit row (same.rows.mem_iff.mpr member)
  · rintro ⟨valid, covered, fit⟩
    refine ⟨by rwa [same.allowance], by rwa [same.allowance, same.tenant], ?_⟩
    intro row member
    exact fit row (same.rows.mem_iff.mp member)

section
variable (rearranged : Rearranged contributions others)
include rearranged

theorem Rearranged.rowsAdded : rowsAdded contributions key = rowsAdded others key := by
  refine (rearranged.map_perm fun one other same => ?_).sum_eq
  simp only [same.adds key, same.rowsIn key]

theorem Rearranged.largestMinimum : largestMinimum contributions = largestMinimum others := by
  refine (rearranged.map_perm fun one other same => ?_).foldl_eq 0
  rw [same.allowance]

theorem Rearranged.adds :
    (∃ contribution ∈ contributions, contribution.Adds key) ↔ ∃ contribution ∈ others, contribution.Adds key := by
  have none := rearranged.forall_iff (P := fun contribution => ¬ contribution.Adds key)
    fun one other same => not_congr (same.adds key)
  have negated := not_congr none
  simpa using negated

end

end

def Contribution.Contributes (digests : Digests) (query : Query) (contribution : Contribution) (key : GroupKey) :
    Prop :=
  ∃ part, contribution.build digests query = .ok part ∧ key ∈ part.groups.keys

/-- The groups that the tenants with their own minimum bring to the largest one are returned, whatever the orders and
the noise, and every group that was dropped is counted. -/
theorem federate_suppressed {digests : Digests} {query : Query} {contributions : List Contribution}
    {excluded : OrderedMap String ExclusionReason} {combined : Combined}
    (run : federate digests query contributions excluded = .ok combined) :
    (∀ key ∈ combined.groups.keys, largestMinimum contributions ≤ rowsTotal contributions key ∧
      ∀ contribution ∈ contributions, contribution.Contributes digests query key →
        contribution.allowance.minGroupSize ≤ contribution.rowsIn key) ∧
    (∀ key, key ∈ combined.groups.keys ↔ (∃ contribution ∈ contributions, contribution.Adds key) ∧
      largestMinimum contributions ≤ rowsAdded contributions key) ∧
    (∀ others, Rearranged contributions others → ∃ result, federate digests query others excluded = .ok result ∧
      ∀ key, key ∈ result.groups.keys ↔ key ∈ combined.groups.keys) ∧
    combined.suppressedGroups = (contributions.map fun contribution =>
          (contribution.keySet.filter fun key => ¬ contribution.Adds key).card).sum +
        ((groupKeys contributions).filter fun key => (∃ contribution ∈ contributions, contribution.Adds key) ∧
          rowsAdded contributions key < largestMinimum contributions).card := by
  obtain ⟨accepted, distinct, rfl⟩ := federate_ok.mp run
  refine ⟨?_, fun key => mem_combined_keys accepted, ?_, combined_suppressed accepted⟩
  · intro key returned
    have large := ((mem_combined_keys accepted).mp returned).2
    refine ⟨le_trans large rowsAdded_le_total, ?_⟩
    rintro contribution given ⟨part, built, member⟩
    obtain ⟨group, found⟩ := OrderedMap.mem_keys.mp member
    obtain ⟨accepts, rfl⟩ := build_ok.mp built
    exact (accepts.answers.exactCount key group found).2
  · intro others rearranged
    have acceptedOthers := (rearranged.forall_iff fun _ _ same => same.accepted).mp accepted
    have distinctOthers := (rearranged.map_perm fun _ _ same => same.tenant).nodup_iff.mp distinct
    refine ⟨_, federate_ok.mpr ⟨acceptedOthers, distinctOthers, rfl⟩, fun key => ?_⟩
    rw [mem_combined_keys acceptedOthers, mem_combined_keys accepted, ← rearranged.rowsAdded,
      ← rearranged.largestMinimum, ← rearranged.adds]

def regionQuery : Query := ⟨"buyer", "shipment", ["region"], [⟨.count, none⟩], [], ""⟩

def regionAllowance (nameSpace : String) (minGroupSize : Nat) : Allowance where
  schema := allowanceSchema
  nameSpace
  objectType := "shipment"
  dimensions := {"region"}
  measures := {"weight"}
  functions := {.count}
  minGroupSize
  noiseScale := none
  requesters := {"buyer"}

def rowsOf (regions : List String) : List Row := regions.map fun region => ⟨[region], []⟩

def twoTenants : List Contribution :=
  [⟨"acme", regionAllowance "acme" 2, rowsOf ["north", "south", "east", "north", "east"], fun _ => 0.5⟩,
    ⟨"globex", regionAllowance "globex" 3, rowsOf ["north", "north", "north", "east", "east"], fun _ => 0.5⟩]

def plainDigests : Digests := ⟨fun _ => "sha256:a", fun _ => "sha256:q"⟩

theorem federate_suppressed_twoTenants :
    ∃ combined, federate plainDigests regionQuery twoTenants .empty = .ok combined ∧
    ["north"] ∈ combined.groups.keys ∧ ["east"] ∉ combined.groups.keys ∧ combined.suppressedGroups = 3 := by
  have fine : (federate plainDigests regionQuery twoTenants .empty).toOption.isSome = true := by decide +kernel
  cases run : federate plainDigests regionQuery twoTenants .empty with
  | error error =>
    rw [run] at fine
    cases fine
  | ok combined =>
    obtain ⟨_, keys, _, suppressed⟩ := federate_suppressed run
    refine ⟨combined, rfl, (keys _).mpr (by decide +kernel), fun member => ?_, ?_⟩
    · exact absurd ((keys _).mp member) (by decide +kernel)
    · rw [suppressed]
      decide +kernel

end SekaiChisei.FederatedAggregate
