import Mathlib

/-! Tables with a primary key, as lists of rows in the order of their insertion. -/

namespace SekaiChisei.Lib.Table
open List Option
variable {Row Key : Type} [DecidableEq Key] {key : Row → Key} {rows : List Row} {row : Row} {k : Key}

/-- `SELECT` by the key. -/
def find (key : Row → Key) (rows : List Row) (k : Key) : Option Row :=
  rows.find? fun row => key row = k

/-- `UPDATE` of the row with the key of the new one. -/
def replace (key : Row → Key) (rows : List Row) (row : Row) : List Row :=
  rows.map fun old => if key old = key row then row else old

/-- `INSERT` of a row, or `merge` of the one that holds its key (`ON CONFLICT DO UPDATE`). -/
def upsert (key : Row → Key) (rows : List Row) (row : Row) (merge : Row → Row) : List Row :=
  match find key rows (key row) with
  | some old => replace key rows (merge old)
  | none => rows ++ [row]

theorem key_of_find (found : find key rows k = some row) : key row = k := by
  simpa using find?_some found

theorem find_eq_none : find key rows k = none ↔ k ∉ rows.map key := by
  simp only [find, find?_eq_none, decide_eq_true_eq, List.mem_map, not_exists, not_and]

omit [DecidableEq Key] in
theorem find?_map_of_passed {p : Row → Bool} {change : Row → Row}
    (passed : ∀ row ∈ rows, change row = row ∨ (p row = false ∧ p (change row) = false)) :
    (rows.map change).find? p = rows.find? p := by
  induction rows with
  | nil => rfl
  | cons first rest ih =>
    obtain ⟨here, later⟩ := forall_mem_cons.mp passed
    rw [map_cons, find?_cons, find?_cons, ih later]
    rcases here with same | ⟨before, after⟩
    · rw [same]
    · rw [before, after]

theorem filter_of_mem (unique : (rows.map key).Nodup) (member : row ∈ rows) :
    (rows.filter fun other => key other = key row) = [row] := by
  induction rows with
  | nil => cases member
  | cons first rest ih =>
    obtain ⟨absent, unique⟩ := nodup_cons.mp unique
    rcases mem_cons.mp member with rfl | later
    · rw [filter_cons_of_pos (by simp), filter_eq_nil_iff.mpr]
      intro other inRest same
      exact absent (of_decide_eq_true same ▸ List.mem_map_of_mem inRest)
    · rw [filter_cons_of_neg, ih unique later]
      intro same
      exact absent (of_decide_eq_true same ▸ List.mem_map_of_mem later)

theorem find_of_mem (unique : (rows.map key).Nodup) (member : row ∈ rows) : find key rows (key row) = some row := by
  rw [find, ← head?_filter, filter_of_mem unique member]
  rfl

theorem find_perm {other : List Row} (unique : (rows.map key).Nodup) (reordered : rows.Perm other)
    (k : Key) : find key other k = find key rows k := by
  cases found : find key rows k with
  | none =>
    rw [find_eq_none] at found ⊢
    intro listed
    exact found ((reordered.map key).mem_iff.mpr listed)
  | some row =>
    have member : row ∈ other := reordered.mem_iff.mp (mem_of_find?_eq_some found)
    rw [← key_of_find found]
    exact find_of_mem ((reordered.map key).nodup_iff.mp unique) member

section
variable (key) (rows)

theorem find_filter_ne (removed k : Key) :
    find key (rows.filter (key · ≠ removed)) k = if k = removed then none else find key rows k := by
  simp only [find, find?_filter]
  split
  · rename_i same
    subst same
    rw [find?_eq_none]
    intro row _
    simp
  · rename_i different
    congr 1
    funext row
    by_cases keyed : key row = k
    · simp [keyed, different]
    · simp [keyed]

theorem find_put (row : Row) (k : Key) :
    find key (rows.filter (key · ≠ key row) ++ [row]) k = if k = key row then some row else find key rows k := by
  have removed := find_filter_ne key rows (key row) k
  unfold find at removed ⊢
  rw [find?_append, removed]
  by_cases same : k = key row
  · simp [same]
  · rw [if_neg same, if_neg same]
    simp [Ne.symm same]

theorem find_replace : find key (replace key rows row) k =
      (find key rows k).map fun old => if key old = key row then row else old := by
  rw [find, replace, find?_map]
  congr 2
  funext old
  by_cases same : key old = key row
  · simp [same]
  · simp [same]

end

theorem find_replace_self (found : (find key rows (key row)).isSome) :
    find key (replace key rows row) (key row) = some row := by
  obtain ⟨old, held⟩ := isSome_iff_exists.mp found
  rw [find_replace, held, map_some, if_pos (key_of_find held)]

theorem find_replace_of_ne (different : k ≠ key row) : find key (replace key rows row) k = find key rows k := by
  rw [find_replace]
  cases held : find key rows k with
  | none => rfl
  | some old =>
    have unmatched : key old ≠ key row := by
      rw [key_of_find held]
      exact different
    rw [map_some, if_neg unmatched]

theorem find_append (rows more : List Row) : find key (rows ++ more) k = (find key rows k).or (find key more k) :=
  find?_append

theorem find_append_self (row : Row) (free : find key rows (key row) = none) :
    find key (rows ++ [row]) (key row) = some row := by
  rw [find_append, free]
  simp [find]

theorem find_append_of_ne (different : k ≠ key row) : find key (rows ++ [row]) k = find key rows k := by
  have last : find key [row] k = none := by simp [find, different.symm]
  rw [find_append, last, or_none]

theorem find_append_of_some (found : find key rows k = some row) (more : List Row) :
    find key (rows ++ more) k = some row := by
  rw [find_append, found, some_or]

variable {merge : Row → Row} {other : Row}

theorem find_upsert (kept : ∀ old, key old = key row → key (merge old) = key row)
    (rows : List Row) (k : Key) : find key (upsert key rows row merge) k =
      if k = key row then some (((find key rows k).map merge).getD row) else find key rows k := by
  unfold upsert
  cases found : find key rows (key row) with
  | none =>
    by_cases same : k = key row
    · subst same
      rw [if_pos rfl, found]
      exact find_append_self row found
    · rw [if_neg same]
      exact find_append_of_ne same
  | some old =>
    have merged : key row = key (merge old) := (kept old (key_of_find found)).symm
    by_cases same : k = key row
    · subst same
      have present : (find key rows (key (merge old))).isSome := by rw [← merged, found]; rfl
      rw [if_pos rfl, found, merged]
      exact find_replace_self present
    · rw [if_neg same]
      apply find_replace_of_ne
      rwa [← merged]

theorem keys_replace (key : Row → Key) (rows : List Row) (row : Row) :
    (replace key rows row).map key = rows.map key := by
  rw [replace, List.map_map]
  apply map_congr_left
  intro old _
  by_cases same : key old = key row
  · simp [same]
  · simp [same]

theorem nodup_append (free : find key rows (key row) = none) (unique : (rows.map key).Nodup) :
    ((rows ++ [row]).map key).Nodup := by
  rw [map_append, nodup_append_comm]
  exact nodup_cons.mpr ⟨find_eq_none.mp free, unique⟩

theorem nodup_upsert (unique : (rows.map key).Nodup) (row : Row) : ((upsert key rows row merge).map key).Nodup := by
  unfold upsert
  cases found : find key rows (key row) with
  | none => exact nodup_append found unique
  | some old =>
    rw [keys_replace]
    exact unique

theorem mem_replace (member : other ∈ replace key rows row) : other = row ∨ other ∈ rows := by
  obtain ⟨old, present, same⟩ := List.mem_map.mp member
  split at same
  · exact .inl same.symm
  · exact .inr (same ▸ present)

theorem mem_upsert (member : other ∈ upsert key rows row merge) :
    (∃ old, other = merge old) ∨ other = row ∨ other ∈ rows := by
  unfold upsert at member
  split at member
  · rename_i old _
    rcases mem_replace member with merged | kept
    · exact .inl ⟨old, merged⟩
    · exact .inr (.inr kept)
  · rcases mem_append.mp member with kept | new
    · exact .inr (.inr kept)
    · exact .inr (.inl (mem_singleton.mp new))

theorem replace_of_free (free : key row ∉ rows.map key) : replace key rows row = rows := by
  conv_rhs => rw [← List.map_id rows]
  apply map_congr_left
  intro old member
  have different : key old ≠ key row := by
    intro same
    exact free (same ▸ List.mem_map_of_mem member)
  rw [if_neg different, id]

theorem sum_replace {f : Row → Int} {old : Row} (unique : (rows.map key).Nodup)
    (found : find key rows (key row) = some old) :
    ((replace key rows row).map f).sum + f old = (rows.map f).sum + f row := by
  induction rows with
  | nil => cases found
  | cons first rest ih =>
    obtain ⟨absent, unique⟩ := nodup_cons.mp unique
    by_cases same : key first = key row
    · have isFirst : first = old := by
        rw [find, find?_cons_of_pos (by simpa using same)] at found
        exact some.inj found
      have others : replace key rest row = rest := replace_of_free (same ▸ absent)
      have head : replace key (first :: rest) row = row :: replace key rest row := by
        rw [replace, map_cons, if_pos same, replace]
      rw [head, others, ← isFirst, map_cons, map_cons, sum_cons, sum_cons]
      omega
    · have later : find key rest (key row) = some old := by
        rw [find, find?_cons_of_neg (by simpa using same)] at found
        exact found
      have head : replace key (first :: rest) row = first :: replace key rest row := by
        rw [replace, map_cons, if_neg same, replace]
      have total := ih unique later
      rw [head, map_cons, map_cons, sum_cons, sum_cons]
      omega

end SekaiChisei.Lib.Table
