import Mathlib.Data.Finset.Card
import Mathlib.Data.List.Perm.Basic
import Mathlib.Order.Defs.LinearOrder

/-! Maps kept in the order of their keys, `BTreeMap` in the source: entries that are made on first use, filters, and
walks that carry a state from value to value. -/

namespace SekaiChisei.Lib
open List

structure OrderedMap (K V : Type) [LinearOrder K] where
  entries : List (K × V)
  sorted : entries.Pairwise fun a b => a.1 < b.1

namespace OrderedMap
variable {K V W S : Type} [LinearOrder K]

def empty : OrderedMap K V := ⟨[], .nil⟩

def get (map : OrderedMap K V) (key : K) : Option V := map.entries.lookup key

def keys (map : OrderedMap K V) : List K := map.entries.map Prod.fst

def size (map : OrderedMap K V) : Nat := map.entries.length

section
variable {map : OrderedMap K V} {key other : K} {value : V}

theorem keys_nodup (map : OrderedMap K V) : map.keys.Nodup := by
  refine List.Pairwise.map Prod.fst ?_ map.sorted
  intro a b less
  exact ne_of_lt less

theorem lookup_cons (first key : K) (held : V) (rest : List (K × V)) :
    ((first, held) :: rest).lookup key = if key = first then some held else rest.lookup key := by
  rw [List.lookup_cons]
  by_cases same : key = first
  · simp [same]
  · rw [if_neg same, beq_eq_false_iff_ne.mpr same]

theorem lookup_eq_some {entries : List (K × V)} (sorted : entries.Pairwise fun a b => a.1 < b.1) :
    entries.lookup key = some value ↔ (key, value) ∈ entries := by
  induction entries with
  | nil => simp
  | cons entry entries ih =>
    obtain ⟨first, held⟩ := entry
    obtain ⟨above, rest⟩ := pairwise_cons.mp sorted
    rw [mem_cons, ← ih rest, lookup_cons]
    by_cases same : key = first
    · subst same
      have absent : entries.lookup key ≠ some value := by
        intro found
        exact lt_irrefl key (above (key, value) ((ih rest).mp found))
      simp [absent, eq_comm]
    · simp [same]

theorem get_eq_some : map.get key = some value ↔ (key, value) ∈ map.entries := lookup_eq_some map.sorted

theorem get_cons {first : K} {held : V} {rest : List (K × V)}
    (sorted : ((first, held) :: rest).Pairwise fun a b => a.1 < b.1) (key : K) :
    (⟨(first, held) :: rest, sorted⟩ : OrderedMap K V).get key =
      if key = first then some held else (⟨rest, sorted.of_cons⟩ : OrderedMap K V).get key :=
  lookup_cons first key held rest

theorem get_of_above (above : ∀ entry ∈ map.entries, key < entry.1) : map.get key = none := by
  rw [Option.eq_none_iff_forall_ne_some]
  intro value found
  exact lt_irrefl key (above _ (get_eq_some.mp found))

theorem mem_keys : key ∈ map.keys ↔ ∃ value, map.get key = some value := by
  constructor
  · intro member
    obtain ⟨entry, stored, rfl⟩ := mem_map.mp member
    exact ⟨entry.2, get_eq_some.mpr stored⟩
  · rintro ⟨value, found⟩
    exact mem_map_of_mem (get_eq_some.mp found)

def keySet (map : OrderedMap K V) : Finset K := ⟨map.keys, map.keys_nodup⟩

theorem card_keySet : map.keySet.card = map.size := length_map _

theorem mem_keySet : key ∈ map.keySet ↔ ∃ value, map.get key = some value := mem_keys

end

/-- `*map.entry(key).or_insert(fresh)` with a change, on the entries. -/
def adjustEntries (key : K) (fresh : V) (change : V → V) : List (K × V) → List (K × V)
  | [] => [(key, change fresh)]
  | (first, held) :: rest =>
    if key < first then (key, change fresh) :: (first, held) :: rest
    else if key = first then (first, change held) :: rest
    else (first, held) :: adjustEntries key fresh change rest

section
variable {key other : K} {fresh : V} {change : V → V} {entries : List (K × V)}

theorem mem_adjustEntries {entry : K × V} (member : entry ∈ adjustEntries key fresh change entries) :
    entry.1 = key ∨ ∃ old ∈ entries, old.1 = entry.1 := by
  induction entries with
  | nil => exact .inl (congrArg Prod.fst (mem_singleton.mp member))
  | cons head rest ih =>
    rw [adjustEntries] at member
    split at member
    · rcases mem_cons.mp member with rfl | old
      · exact .inl rfl
      · exact .inr ⟨entry, old, rfl⟩
    · split at member
      · rcases mem_cons.mp member with rfl | old
        · exact .inr ⟨head, mem_cons_self, rfl⟩
        · exact .inr ⟨entry, mem_cons_of_mem _ old, rfl⟩
      · rcases mem_cons.mp member with rfl | later
        · exact .inr ⟨head, mem_cons_self, rfl⟩
        · rcases ih later with new | ⟨old, stored, same⟩
          · exact .inl new
          · exact .inr ⟨old, mem_cons_of_mem _ stored, same⟩

theorem sorted_adjustEntries (sorted : entries.Pairwise fun a b => a.1 < b.1) :
    (adjustEntries key fresh change entries).Pairwise fun a b => a.1 < b.1 := by
  induction entries with
  | nil => exact pairwise_singleton _ _
  | cons head rest ih =>
    obtain ⟨above, later⟩ := pairwise_cons.mp sorted
    rw [adjustEntries]
    split
    · next less =>
      refine pairwise_cons.mpr ⟨?_, sorted⟩
      intro entry member
      rcases mem_cons.mp member with rfl | old
      · exact less
      · exact lt_trans less (above entry old)
    · next notLess =>
      split
      · exact pairwise_cons.mpr ⟨above, later⟩
      · next different =>
        refine pairwise_cons.mpr ⟨?_, ih later⟩
        intro entry member
        rcases mem_adjustEntries member with new | ⟨old, stored, same⟩
        · rw [new]
          exact lt_of_le_of_ne (not_lt.mp notLess) (Ne.symm different)
        · rw [← same]
          exact above old stored

def adjust (map : OrderedMap K V) (key : K) (fresh : V) (change : V → V) : OrderedMap K V :=
  ⟨adjustEntries key fresh change map.entries, sorted_adjustEntries map.sorted⟩

theorem lookup_adjustEntries (sorted : entries.Pairwise fun a b => a.1 < b.1) :
    (adjustEntries key fresh change entries).lookup other =
      if other = key then some (change ((entries.lookup key).getD fresh)) else entries.lookup other := by
  induction entries with
  | nil =>
    rw [adjustEntries, lookup_cons]
    rfl
  | cons head rest ih =>
    obtain ⟨first, held⟩ := head
    obtain ⟨above, later⟩ := pairwise_cons.mp sorted
    rw [adjustEntries]
    split
    · next less =>
      have free : ((first, held) :: rest).lookup key = none := by
        rw [lookup_eq_none_iff]
        intro entry member
        rcases mem_cons.mp member with rfl | old
        · simpa using ne_of_lt less
        · simpa using ne_of_lt (lt_trans less (above entry old))
      rw [free, lookup_cons]
      rfl
    · split
      · next same =>
        subst same
        rw [lookup_cons, lookup_cons, lookup_cons]
        by_cases named : other = key
        · simp [named]
        · simp [named]
      · next different =>
        rw [lookup_cons, ih later, lookup_cons, lookup_cons]
        by_cases named : other = first
        · subst named
          simp [Ne.symm different]
        · simp [named, different]

theorem get_adjust (map : OrderedMap K V) (key : K) (fresh : V) (change : V → V) (other : K) :
    (map.adjust key fresh change).get other =
      if other = key then some (change ((map.get key).getD fresh)) else map.get other :=
  lookup_adjustEntries map.sorted

end

def filter (map : OrderedMap K V) (keep : V → Bool) : OrderedMap K V :=
  ⟨map.entries.filter fun entry => keep entry.2, map.sorted.filter _⟩

variable {map : OrderedMap K V}

theorem get_filter {keep : V → Bool} {key : K} {value : V} :
    (map.filter keep).get key = some value ↔ map.get key = some value ∧ keep value = true := by
  rw [get_eq_some, get_eq_some]
  exact mem_filter

theorem size_sub_filter (map : OrderedMap K V) (keep : V → Bool) : map.size - (map.filter keep).size =
      (map.keySet.filter fun key => ∀ value, map.get key = some value → keep value = false).card := by
  have kept : (map.filter keep).keySet ⊆ map.keySet := by
    intro key member
    obtain ⟨value, found⟩ := mem_keySet.mp member
    exact mem_keySet.mpr ⟨value, (get_filter.mp found).1⟩
  rw [← card_keySet, ← card_keySet, ← Finset.card_sdiff_of_subset kept]
  congr 1
  ext key
  rw [Finset.mem_sdiff, Finset.mem_filter]
  refine and_congr_right fun _ => ?_
  rw [mem_keySet]
  constructor
  · intro dropped value found
    cases held : keep value with
    | false => rfl
    | true => exact absurd ⟨value, get_filter.mpr ⟨found, held⟩⟩ dropped
  · rintro all ⟨value, found⟩
    obtain ⟨stored, held⟩ := get_filter.mp found
    rw [all value stored] at held
    cases held

def mapValues (map : OrderedMap K V) (change : V → W) : OrderedMap K W :=
  ⟨map.entries.map fun entry => (entry.1, change entry.2), map.sorted.map _ fun _ _ less => less⟩

theorem keys_mapValues (map : OrderedMap K V) (change : V → W) : (map.mapValues change).keys = map.keys := by
  simp only [keys, mapValues, map_map]
  rfl

theorem size_mapValues (map : OrderedMap K V) (change : V → W) : (map.mapValues change).size = map.size :=
  length_map _

theorem get_mapValues {change : V → W} {key : K} {value : W} :
    (map.mapValues change).get key = some value ↔ ∃ old, map.get key = some old ∧ change old = value := by
  rw [get_eq_some, mapValues, mem_map]
  constructor
  · rintro ⟨⟨_, old⟩, stored, same⟩
    cases same
    exact ⟨old, get_eq_some.mpr stored, rfl⟩
  · rintro ⟨old, found, rfl⟩
    exact ⟨(key, old), get_eq_some.mp found, rfl⟩

def walkEntries (visit : S → V → S × W) : S → List (K × V) → List (K × W)
  | _, [] => []
  | state, (key, value) :: rest => (key, (visit state value).2) :: walkEntries visit (visit state value).1 rest

omit [LinearOrder K] in
theorem keys_walkEntries (visit : S → V → S × W) (state : S) (entries : List (K × V)) :
    (walkEntries visit state entries).map Prod.fst = entries.map Prod.fst := by
  induction entries generalizing state with
  | nil => rfl
  | cons entry rest ih =>
    rw [walkEntries, map_cons, map_cons, ih]

def walk (map : OrderedMap K V) (visit : S → V → S × W) (state : S) : OrderedMap K W where
  entries := walkEntries visit state map.entries
  sorted := by
    have keys : ((walkEntries visit state map.entries).map Prod.fst).Pairwise (· < ·) := by
      rw [keys_walkEntries]
      exact map.sorted.map Prod.fst fun _ _ less => less
    exact (pairwise_map.mp keys)

theorem get_walk {T : Type} {visit : S → V → S × W} {state : S} {before : V → T}
    {after : W → T} (kept : ∀ state value, after (visit state value).2 = before value) (key : K) :
    ((map.walk visit state).get key).map after = (map.get key).map before := by
  obtain ⟨entries, sorted⟩ := map
  show ((walkEntries visit state entries).lookup key).map after = (entries.lookup key).map before
  clear sorted
  induction entries generalizing state with
  | nil => rfl
  | cons entry rest ih =>
    obtain ⟨first, value⟩ := entry
    rw [walkEntries, lookup_cons, lookup_cons]
    split
    · exact congrArg some (kept state value)
    · exact ih

theorem eq_of_get {a b : OrderedMap K V} (same : ∀ key value, a.get key = some value ↔ b.get key = some value) :
    a = b := by
  have members (entry : K × V) : entry ∈ a.entries ↔ entry ∈ b.entries := by
    rw [← get_eq_some, ← get_eq_some]
    exact same entry.1 entry.2
  have nodup (map : OrderedMap K V) : map.entries.Nodup :=
    map.sorted.imp fun less equal => ne_of_lt less (congrArg Prod.fst equal)
  have perm := (perm_ext_iff_of_nodup (nodup a) (nodup b)).mpr members
  have entries := perm.eq_of_pairwise (fun _ _ _ _ less more => absurd more (lt_asymm less)) a.sorted b.sorted
  obtain ⟨_, _⟩ := b
  cases entries
  rfl

variable {α : Type} {f : α → K}

/-- The items under each key, in their order. -/
def groupBy (f : α → K) (items : List α) : OrderedMap K (List α) :=
  items.foldl (fun grouped item => grouped.adjust (f item) [] (· ++ [item])) empty

theorem get_groupBy {items group : List α} {key : K} :
    (groupBy f items).get key = some group ↔ items.filter (f · = key) = group ∧ group ≠ [] := by
  have whole : ∀ key, (groupBy f items).get key =
      if items.filter (f · = key) = [] then none else some (items.filter (f · = key)) := by
    induction items using List.reverseRecOn with
    | nil => exact fun key => rfl
    | append_singleton items item ih =>
      intro key
      have held : ((groupBy f items).get (f item)).getD [] = items.filter (f · = f item) := by
        rw [ih]
        split
        · exact Eq.symm (by assumption)
        · rfl
      rw [groupBy, foldl_append, foldl_cons, foldl_nil, get_adjust, ← groupBy, held, ih]
      by_cases same : key = f item
      · simp [same]
      · simp [same, Ne.symm same]
  rw [whole]
  split
  · rename_i none
    simp [none]
  · rename_i some
    rw [Option.some_inj]
    exact ⟨fun same => ⟨same, same ▸ some⟩, And.left⟩

theorem perm_fibers {keys : List K} (distinct : keys.Nodup) (items : List α) :
    (keys.flatMap fun key => items.filter (f · = key)).Perm (items.filter (f · ∈ keys)) := by
  induction keys with
  | nil => simp
  | cons key keys ih =>
    obtain ⟨absent, distinct⟩ := nodup_cons.mp distinct
    have first : (items.filter (f · ∈ key :: keys)).filter (f · = key) = items.filter (f · = key) := by
      rw [filter_filter]
      exact filter_congr fun item _ => by simp +contextual
    have others : (items.filter (f · ∈ key :: keys)).filter (fun item => !decide (f item = key)) =
        items.filter (f · ∈ keys) := by
      rw [filter_filter]
      refine filter_congr fun item _ => ?_
      by_cases same : f item = key
      · simp [same, absent]
      · simp [same]
    have split := filter_append_perm (f · = key) (items.filter (f · ∈ key :: keys))
    rw [first, others] at split
    exact ((ih distinct).append_left _).trans split

theorem filter_flatten {map : OrderedMap K (List α)}
    (placed : ∀ key group, map.get key = some group → ∀ item ∈ group, f item = key) (key : K) :
    (map.entries.flatMap Prod.snd).filter (f · = key) = (map.get key).getD [] := by
  obtain ⟨entries, sorted⟩ := map
  induction entries with
  | nil => rfl
  | cons entry rest ih =>
    obtain ⟨first, group⟩ := entry
    obtain ⟨above, later⟩ := pairwise_cons.mp sorted
    have here := placed first group (by rw [get_cons, if_pos rfl])
    have others := ih later fun key group found => placed key group (by
      have below := above _ (get_eq_some.mp found)
      rw [get_cons, if_neg (ne_of_gt below)]
      exact found)
    rw [flatMap_cons, filter_append, others, get_cons]
    split
    · rename_i same
      subst same
      rw [@get_of_above K _ _ ⟨rest, later⟩ key above, filter_eq_self.mpr (by simpa using here)]
      exact append_nil group
    · rename_i different
      rw [filter_eq_nil_iff.mpr fun item member => by simpa [here item member] using Ne.symm different]
      rfl

end OrderedMap
end SekaiChisei.Lib
