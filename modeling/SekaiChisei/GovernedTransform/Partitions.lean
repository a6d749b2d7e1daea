import SekaiChisei.GovernedTransform.Digests

/-!
Partitioned datasets, `sekai-types/src/governed_transform.rs`: their digests, the commit of written partitions, and
the partitions that appended rows touch.
-/

namespace SekaiChisei.GovernedTransform
open Lib List

def partitionValue (keys : List String) (row : Row) : String :=
  match keys with
  | [] => ""
  | [key] => (row.get key).getD ""
  | keys => Json.array (keys.map fun key => Json.string ((row.get key).getD ""))

def groupRowsByPartition (keys : List String) (rows : List Row) : OrderedMap String (List Row) :=
  OrderedMap.groupBy (partitionValue keys) rows

def hashField (value : String) : List UInt8 :=
  (List.range 8).map (fun i => UInt8.ofNat ((utf8 value).length / 256 ^ i)) ++ utf8 value

structure TransformPartitionWrite where
  partitionKey : String
  rows : List Row

structure TransformPartition where
  (partitionKey digest : String)
  rows : Int32
  datasetId : String

structure PreparedPartitionCommit where
  envelopeDigest : String
  written : List TransformPartition
  replacements : List (String × List Row)
  mergedRows : List Row

/-- The variables of the loop over the writes. -/
structure Preparing where
  grouped : OrderedMap String (List Row)
  replacements : List (String × List Row)
  written : List TransformPartition
  seen : List String

/-- The partitions that the loop over `grouped` does not skip. -/
def occupied (grouped : OrderedMap String (List Row)) : OrderedMap String (List Row) :=
  grouped.filter fun rows => !rows.isEmpty

section
variable (sha256 : List UInt8 → Bytes32)

def partitionedDatasetDigest (partitions : OrderedMap String String) : String :=
  encodePrefixedDigest partitionedDigestPrefix (sha256 (utf8 partitionedDigestPrefix ++
    partitions.entries.flatMap fun entry => hashField entry.1 ++ hashField entry.2))

def datasetDigest (keys : List String) (rows : List Row) : String :=
  if keys = [] then rowsDigest sha256 rows
  else partitionedDatasetDigest sha256 ((groupRowsByPartition keys rows).mapValues (rowsDigest sha256))

def TransformPartitionWrite.record (write : TransformPartitionWrite) : TransformPartition :=
  ⟨write.partitionKey, rowsDigest sha256 write.rows, Int32.ofNat write.rows.length, ""⟩

def prepareWrite (keys : List String) (state : Preparing) (write : TransformPartitionWrite) :
    Except String Preparing :=
  if write.partitionKey ∈ state.seen then .error ("duplicate partition write for " ++ write.partitionKey)
  else if ∃ row ∈ write.rows, partitionValue keys row ≠ write.partitionKey then
    .error ("row does not belong to partition " ++ write.partitionKey)
  else .ok
    { grouped := state.grouped.adjust write.partitionKey [] fun _ => write.rows
      replacements := state.replacements ++ [(write.partitionKey, write.rows)]
      written := state.written ++ [write.record sha256]
      seen := write.partitionKey :: state.seen }

def preparePartitionCommit (keys : List String) (live : List Row) (writes : List TransformPartitionWrite)
    (outputDigest : String) : Except String PreparedPartitionCommit :=
  if keys = [] then .error "partition write requires dataset partition_keys"
  else if writes = [] then .error "partition write requires replaced partitions"
  else do
    let state ← writes.foldlM (prepareWrite sha256 keys) ⟨groupRowsByPartition keys live, [], [], []⟩
    let envelopeDigest := partitionedDatasetDigest sha256 ((occupied state.grouped).mapValues (rowsDigest sha256))
    if envelopeDigest ≠ outputDigest then .error "transform output digest mismatch"
    else .ok ⟨envelopeDigest, state.written, state.replacements, (occupied state.grouped).entries.flatMap Prod.snd⟩

end

/-- The rows of a partition once the writes are made. -/
def partitionAfter (keys : List String) (live : List Row) (writes : List TransformPartitionWrite) (key : String) :
    List Row :=
  match writes.find? (·.partitionKey = key) with
  | some write => write.rows
  | none => live.filter (partitionValue keys · = key)

section
variable {sha256 : List UInt8 → Bytes32} {keys : List String} {live : List Row}

structure Prepared (sha256 : List UInt8 → Bytes32) (keys : List String) (live : List Row)
    (writes : List TransformPartitionWrite) (state : Preparing) : Prop where
  groups : ∀ key, (state.grouped.get key).getD [] = partitionAfter keys live writes key
  placed : ∀ key, ∀ row ∈ partitionAfter keys live writes key, partitionValue keys row = key
  replacements : state.replacements = writes.map fun write => (write.partitionKey, write.rows)
  written : state.written = writes.map (·.record sha256)
  seen : ∀ write ∈ writes, write.partitionKey ∈ state.seen

theorem getD_group (rows : List Row) (key : String) :
    ((groupRowsByPartition keys rows).get key).getD [] = rows.filter (partitionValue keys · = key) := by
  cases found : (groupRowsByPartition keys rows).get key with
  | some group => exact (OrderedMap.get_groupBy.mp found).1.symm
  | none =>
    by_contra different
    have held := OrderedMap.get_groupBy.mpr ⟨rfl, Ne.symm different⟩
    rw [groupRowsByPartition, held] at found
    cases found

theorem prepared_start : Prepared sha256 keys live [] ⟨groupRowsByPartition keys live, [], [], []⟩ where
  groups := getD_group live
  placed key row member := by simpa using (mem_filter.mp member).2
  replacements := rfl
  written := rfl
  seen write member := by cases member

variable {writes : List TransformPartitionWrite}

theorem prepareWrite_prepared {state next : Preparing}
    {write : TransformPartitionWrite} (prepared : Prepared sha256 keys live writes state)
    (run : prepareWrite sha256 keys state write = .ok next) : Prepared sha256 keys live (writes ++ [write]) next := by
  rw [prepareWrite, ite_error_eq_ok, ite_error_eq_ok] at run
  obtain ⟨fresh, belongs, same⟩ := run
  cases same
  have unwritten : writes.find? (·.partitionKey = write.partitionKey) = none := by
    rw [find?_eq_none]
    intro other member
    have seen := prepared.seen other member
    simpa using fun same : other.partitionKey = write.partitionKey => fresh (same ▸ seen)
  have after (key : String) : partitionAfter keys live (writes ++ [write]) key =
      if key = write.partitionKey then write.rows else partitionAfter keys live writes key := by
    unfold partitionAfter
    rw [find?_append]
    by_cases same : key = write.partitionKey
    · rw [same, unwritten]
      simp
    · rw [if_neg same]
      cases writes.find? (·.partitionKey = key) with
      | some other => rfl
      | none => simp [Ne.symm same]
  refine ⟨?_, ?_, by simp [prepared.replacements], by simp [prepared.written], ?_⟩
  · intro key
    rw [after, OrderedMap.get_adjust]
    split
    · rfl
    · exact prepared.groups key
  · intro key row member
    rw [after] at member
    split at member
    · rename_i same
      by_contra other
      exact belongs ⟨row, member, same ▸ other⟩
    · exact prepared.placed key row member
  · intro other member
    rcases mem_appended.mp member with old | rfl
    · exact mem_cons_of_mem _ (prepared.seen other old)
    · exact mem_cons_self

theorem get_occupied {grouped : OrderedMap String (List Row)} {key : String} {rows : List Row} :
    (occupied grouped).get key = some rows ↔ (grouped.get key).getD [] = rows ∧ rows ≠ [] := by
  rw [occupied, OrderedMap.get_filter]
  cases grouped.get key with
  | none =>
    constructor
    · rintro ⟨⟨⟩, _⟩
    · rintro ⟨rfl, nonempty⟩
      exact absurd rfl nonempty
  | some held => simp

/-- A prepared commit has the written rows in the written partitions and the live ones elsewhere, under the digest of
the dataset that it makes. -/
theorem preparePartitionCommit_exact {outputDigest : String} {commit : PreparedPartitionCommit}
    (run : preparePartitionCommit sha256 keys live writes outputDigest = .ok commit) :
    (∀ key, commit.mergedRows.filter (partitionValue keys · = key) = partitionAfter keys live writes key) ∧
    commit.replacements = writes.map (fun write => (write.partitionKey, write.rows)) ∧
    commit.written = writes.map (fun write =>
      ⟨write.partitionKey, rowsDigest sha256 write.rows, Int32.ofNat write.rows.length, ""⟩) ∧
    commit.envelopeDigest = datasetDigest sha256 keys commit.mergedRows := by
  rw [preparePartitionCommit, ite_error_eq_ok, ite_error_eq_ok] at run
  obtain ⟨keyed, _, run⟩ := run
  obtain ⟨state, looped, run⟩ := bind_eq_ok.mp run
  rw [ite_error_eq_ok] at run
  obtain ⟨_, same⟩ := run
  have prepared := foldlM_ok_invariant (fun _ _ _ _ => prepareWrite_prepared) prepared_start looped
  cases same
  have members {key : String} {rows : List Row} : (occupied state.grouped).get key = some rows ↔
      partitionAfter keys live writes key = rows ∧ rows ≠ [] := by
    rw [get_occupied, prepared.groups]
  have merged (key : String) :
      ((occupied state.grouped).entries.flatMap Prod.snd).filter (partitionValue keys · = key) =
      partitionAfter keys live writes key := by
    rw [OrderedMap.filter_flatten fun key group found => (members.mp found).1 ▸ prepared.placed key]
    cases found : (occupied state.grouped).get key with
    | some rows => exact (members.mp found).1.symm
    | none =>
      by_contra different
      rw [members.mpr ⟨rfl, Ne.symm different⟩] at found
      cases found
  refine ⟨merged, prepared.replacements, prepared.written, ?_⟩
  have grouped : occupied state.grouped =
      groupRowsByPartition keys ((occupied state.grouped).entries.flatMap Prod.snd) := by
    apply OrderedMap.eq_of_get
    intro key rows
    rw [members, groupRowsByPartition, OrderedMap.get_groupBy, merged]
  rw [datasetDigest, if_neg keyed, ← grouped]

def twoPartitions : List Row := [OrderedMap.empty, OrderedMap.empty.adjust "k" "" fun _ => "a"]

def rowOf (key value : String) : Row := (OrderedMap.empty.adjust "k" "" fun _ => key).adjust "v" "" fun _ => value

/-- A hash that tells the rows here apart: it keeps the last bytes of the text. -/
def tailHash (bytes : List UInt8) : Bytes32 :=
  ⟨(bytes.reverse ++ List.replicate 32 0).take 32, by simp⟩

def twoWrites : List TransformPartitionWrite := [⟨"a", [rowOf "a" "1", rowOf "a" "2"]⟩, ⟨"c", [rowOf "c" "3"]⟩]

def twoWritten : String := datasetDigest tailHash ["k"] (OrderedMap.empty :: twoWrites.flatMap (·.rows))

theorem preparePartitionCommit_exact_twoWritten : ∃ commit,
    preparePartitionCommit tailHash ["k"] twoPartitions twoWrites twoWritten = .ok commit ∧
    ∀ key, commit.mergedRows.filter (partitionValue ["k"] · = key) =
      partitionAfter ["k"] twoPartitions twoWrites key := by
  have accepted : (preparePartitionCommit tailHash ["k"] twoPartitions twoWrites twoWritten).isOk := by decide +kernel
  cases run : preparePartitionCommit tailHash ["k"] twoPartitions twoWrites twoWritten with
  | error message =>
    rw [run] at accepted
    cases accepted
  | ok commit => exact ⟨commit, rfl, (preparePartitionCommit_exact run).1⟩

end

def rewrittenPartitions (keys : List String) (live newOutput : List Row) : List (String × List Row) :=
  if keys = [] ∨ newOutput = [] then []
  else (groupRowsByPartition keys newOutput).entries.map fun entry =>
    (entry.1, ((groupRowsByPartition keys live).get entry.1).getD [] ++ entry.2)

/-- The dataset with its partitions replaced. -/
def replacePartitions (keys : List String) (live : List Row) (replacements : List (String × List Row)) : List Row :=
  live.filter (partitionValue keys · ∉ replacements.map Prod.fst) ++ replacements.flatMap Prod.snd

theorem datasetDigest_perm (keys : List String) {a b : List Row} (perm : a.Perm b) :
    datasetDigest sha256 keys a = datasetDigest sha256 keys b := by
  have half {a b : List Row} (perm : a.Perm b) {key digest : String}
      (found : ((groupRowsByPartition keys a).mapValues (rowsDigest sha256)).get key = some digest) :
      ((groupRowsByPartition keys b).mapValues (rowsDigest sha256)).get key = some digest := by
    obtain ⟨group, held, rfl⟩ := OrderedMap.get_mapValues.mp found
    obtain ⟨rfl, nonempty⟩ := OrderedMap.get_groupBy.mp held
    have same := perm.filter (partitionValue keys · = key)
    refine OrderedMap.get_mapValues.mpr ⟨_, OrderedMap.get_groupBy.mpr ⟨rfl, ?_⟩, (rowsDigest_perm sha256 same).symm⟩
    intro none
    rw [none] at same
    exact nonempty same.eq_nil
  unfold datasetDigest
  split
  · exact rowsDigest_perm sha256 perm
  · exact congrArg _ (OrderedMap.eq_of_get fun key digest => ⟨half perm, half perm.symm⟩)

variable {keys : List String}

theorem rewritten_fibers (keyed : keys ≠ []) (live newOutput : List Row) :
    (rewrittenPartitions keys live newOutput).map Prod.fst = (groupRowsByPartition keys newOutput).keys ∧
    (rewrittenPartitions keys live newOutput).flatMap Prod.snd = (groupRowsByPartition keys newOutput).keys.flatMap
      fun key => (live ++ newOutput).filter (partitionValue keys · = key) := by
  unfold rewrittenPartitions
  by_cases none : newOutput = []
  · subst none
    rw [if_pos (.inr rfl)]
    exact ⟨rfl, rfl⟩
  · rw [if_neg (by simp [keyed, none]), map_map, flatMap_map, OrderedMap.keys, flatMap_map]
    refine ⟨rfl, flatMap_congr fun entry member => ?_⟩
    rw [getD_group, filter_append, (OrderedMap.get_groupBy.mp (OrderedMap.get_eq_some.mpr member)).1]

theorem replaced_perm (keyed : keys ≠ []) (live newOutput : List Row) :
    (replacePartitions keys live (rewrittenPartitions keys live newOutput)).Perm (live ++ newOutput) := by
  obtain ⟨touched, rows⟩ := rewritten_fibers keyed live newOutput
  have fibers := OrderedMap.perm_fibers (f := partitionValue keys) (groupRowsByPartition keys newOutput).keys_nodup
    (live ++ newOutput)
  have added : newOutput.filter (partitionValue keys · ∈ (groupRowsByPartition keys newOutput).keys) = newOutput := by
    rw [filter_eq_self]
    intro row member
    rw [decide_eq_true_eq, OrderedMap.mem_keys]
    refine ⟨_, OrderedMap.get_groupBy.mpr ⟨rfl, ?_⟩⟩
    exact ne_nil_of_mem (mem_filter.mpr ⟨member, decide_eq_true rfl⟩)
  rw [filter_append, added] at fibers
  rw [replacePartitions, touched, rows]
  have split := filter_append_perm (partitionValue keys · ∉ (groupRowsByPartition keys newOutput).keys) live
  simp only [decide_not, Bool.not_not] at split ⊢
  refine (fibers.append_left _).trans ?_
  rw [← append_assoc]
  exact split.append_right newOutput

/-- Replacing the rewritten partitions appends the new rows, unless the dataset has no partition keys: it then has no
partition to rewrite. -/
theorem replaced_appends_iff (sha256 : List UInt8 → Bytes32) (keys : List String) (live newOutput : List Row) :
    (replacePartitions keys live (rewrittenPartitions keys live newOutput)).Perm (live ++ newOutput) ∧
      datasetDigest sha256 keys (replacePartitions keys live (rewrittenPartitions keys live newOutput)) =
        datasetDigest sha256 keys (live ++ newOutput) ↔ keys ≠ [] ∨ newOutput = [] := by
  constructor
  · rintro ⟨perm, _⟩
    by_contra! neither
    obtain ⟨rfl, some⟩ := neither
    have lengths := perm.length_eq
    simp [replacePartitions, rewrittenPartitions] at lengths
    exact some lengths
  · intro either
    have perm : (replacePartitions keys live (rewrittenPartitions keys live newOutput)).Perm (live ++ newOutput) := by
      rcases either with keyed | rfl
      · exact replaced_perm keyed live newOutput
      · simp [replacePartitions, rewrittenPartitions]
    exact ⟨perm, datasetDigest_perm keys perm⟩

theorem unpartitioned_not_appended :
    ¬ (replacePartitions [] [] (rewrittenPartitions [] [] [OrderedMap.empty])).Perm ([] ++ [OrderedMap.empty]) :=
  fun perm => absurd perm.length_eq (by decide)

end SekaiChisei.GovernedTransform
