import SekaiChisei.Parquet.Footer
import SekaiChisei.Parquet.Pages

/-!
Export files read back. The invariant: each recorded offset points at the chunk of its group's rows, whatever was
appended since.
-/

namespace SekaiChisei.Parquet
open Lib Lib.Outcome List Option

section Layout
variable (columns : List String) (idColumn : Bool)

def rowCells (row : ExportRow) : List (Option String) :=
  (if idColumn then [some row.id] else []) ++ columns.map row.values

def columnValues (rows : List ExportRow) (index : Nat) : List (Option String) :=
  rows.map fun row => ((rowCells columns idColumn row)[index]?).getD none

def columnBytes (rows : List ExportRow) (index : Nat) : List UInt8 :=
  encodeColumn ((columnValues columns idColumn rows index).map (Option.map strBytes)) (idColumn && index == 0)

structure ChunkAt (file : List UInt8) (rows : List ExportRow) (index : Nat) (column : ColumnMeta) :
    Prop where
  count : column.numValues = rows.length
  inside : column.dataPageOffset ≤ file.length
  found : columnBytes columns idColumn rows index <+: file.drop column.dataPageOffset

structure GroupAt (file : List UInt8) (rows : List ExportRow) (group : RowGroupMeta) : Prop where
  count : group.numRows = rows.length
  few : rows.length ≤ rowGroupRows
  width : group.columns.length = columns.length + if idColumn then 1 else 0
  chunks : ∀ index column, group.columns[index]? = some column → ChunkAt columns idColumn file rows index column

/-- The encoder after `done` groups of rows were written to `file` and `pending` ones buffered. -/
structure Holds (e : Encoder) (file : List UInt8) (done : List (List ExportRow))
    (pending : List ExportRow) : Prop where
  columns_eq : e.columns = columns
  idColumn_eq : e.idColumn = idColumn
  offset : e.offset = file.length
  starts : magic <+: file
  groups : List.Forall₂ (GroupAt columns idColumn file) done e.groups
  buffered : e.buffered = pending.map (rowCells columns idColumn)

end Layout

section Encoder
variable {columns : List String} {idColumn : Bool} {file : List UInt8} {rows : List ExportRow}

theorem ChunkAt.append {index : Nat} {column : ColumnMeta} (more : List UInt8)
    (h : ChunkAt columns idColumn file rows index column) :
    ChunkAt columns idColumn (file ++ more) rows index column := by
  have inside := h.inside
  refine ⟨h.count, by rw [length_append]; omega, ?_⟩
  rw [drop_append_of_le_length inside]
  exact h.found.trans (prefix_append _ _)

theorem GroupAt.append {group : RowGroupMeta} (more : List UInt8) (h : GroupAt columns idColumn file rows group) :
    GroupAt columns idColumn (file ++ more) rows group :=
  ⟨h.count, h.few, h.width, fun index column at_index => (h.chunks index column at_index).append more⟩

variable {e : Encoder} {done : List (List ExportRow)} {pending : List ExportRow}

section
variable (h : Holds columns idColumn e file done pending)
include h

theorem Holds.chunk_eq (index : Nat) : e.chunk index = columnBytes columns idColumn pending index := by
  rw [Encoder.chunk, h.buffered, h.idColumn_eq, columnBytes, columnValues, List.map_map, List.map_map]
  rfl

theorem Holds.buffered_length : e.buffered.length = pending.length := by rw [h.buffered, length_map]

theorem Holds.pushChunks (count : Nat) : ((List.range count).foldl e.pushChunk ([], [])).2.length = count ∧
      ∀ index column, ((List.range count).foldl e.pushChunk ([], [])).2[index]? = some column →
        ChunkAt columns idColumn (file ++ ((List.range count).foldl e.pushChunk ([], [])).1) pending
          index column := by
  induction count with
  | zero => simp
  | succ count ih =>
    obtain ⟨length, chunks⟩ := ih
    rw [range_succ, foldl_append, foldl_cons, foldl_nil]
    dsimp only [Encoder.pushChunk]
    refine ⟨by simp [length], fun index column at_index => ?_⟩
    rw [← append_assoc]
    by_cases old : index < count
    · rw [getElem?_append_left (by omega)] at at_index
      exact (chunks index column at_index).append _
    · rw [getElem?_append_right (by omega), getElem?_singleton] at at_index
      split at at_index
      · rename_i last
        obtain rfl : index = count := by omega
        obtain rfl := some.inj at_index
        refine ⟨h.buffered_length, by simp [h.offset], [], ?_⟩
        rw [append_nil, h.chunk_eq, h.offset, ← length_append, drop_left]
      · cases at_index

theorem Holds.flushGroup (few : pending.length ≤ rowGroupRows) :
    Holds columns idColumn e.flushGroup.1 (file ++ e.flushGroup.2) (done ++ [pending]) [] := by
  obtain ⟨length, chunks⟩ := h.pushChunks e.width
  have width : e.width = columns.length + if idColumn then 1 else 0 := by
    rw [Encoder.width, h.columns_eq, h.idColumn_eq]
  refine ⟨h.columns_eq, h.idColumn_eq, ?_, h.starts.trans (prefix_append _ _), ?_, rfl⟩
  · simp only [Encoder.flushGroup, length_append, h.offset]
  · refine rel_append (h.groups.imp fun _ _ group => group.append _) (.cons ?_ .nil)
    exact ⟨h.buffered_length, few, length.trans width, chunks⟩

theorem Holds.push (row : ExportRow) :
    Holds columns idColumn { e with buffered := e.buffered ++ [e.cells row] } file done (pending ++ [row]) := by
  have cells : e.cells row = rowCells columns idColumn row := by
    rw [Encoder.cells, h.columns_eq, h.idColumn_eq, rowCells]
  refine ⟨h.columns_eq, h.idColumn_eq, h.offset, h.starts, h.groups, ?_⟩
  rw [map_append, map_singleton, ← h.buffered, ← cells]

end

def Stored (columns : List String) (idColumn : Bool) (acc : Encoder × List UInt8) (rows : List ExportRow) : Prop :=
  ∃ done pending, Holds columns idColumn acc.1 acc.2 done pending ∧
    done.flatten ++ pending = rows ∧ pending.length < rowGroupRows

theorem stored_new : Stored columns idColumn (Encoder.new columns idColumn, Encoder.header) [] :=
  ⟨[], [], ⟨rfl, rfl, rfl, prefix_rfl, .nil, rfl⟩, rfl, by decide⟩

variable {acc : Encoder × List UInt8}

theorem stored_pushTo (row : ExportRow) (h : Stored columns idColumn acc rows) :
    Stored columns idColumn (Encoder.pushTo acc row) (rows ++ [row]) := by
  obtain ⟨done, pending, holds, all, room⟩ := h
  have pushed := holds.push row
  have length := pushed.buffered_length
  unfold Encoder.pushTo Encoder.push
  dsimp only
  split
  · rename_i full
    have flushed := pushed.flushGroup (by rw [← length, full])
    exact ⟨_, [], flushed, by simp [← all], by decide⟩
  · rename_i more
    refine ⟨done, pending ++ [row], ?_, by simp [← all], ?_⟩
    · rwa [append_nil]
    · simp only [length_append, length_singleton] at length more ⊢
      omega

theorem stored_foldl {before : List ExportRow} (h : Stored columns idColumn acc before) :
    Stored columns idColumn (rows.foldl Encoder.pushTo acc) (before ++ rows) := by
  induction rows generalizing acc before with
  | nil => simpa using h
  | cons row rows ih =>
    have rest := ih (stored_pushTo row h)
    simpa using rest

/-- A finished file: row groups over all rows, then the footer. -/
theorem encode_layout : ∃ e body done, Holds columns idColumn e body done [] ∧ done.flatten = rows ∧
      encode columns idColumn rows = body ++ e.footer := by
  obtain ⟨done, pending, holds, all, room⟩ := stored_foldl (@stored_new columns idColumn)
  unfold encode Encoder.finish
  generalize rows.foldl Encoder.pushTo (Encoder.new columns idColumn, Encoder.header) = acc at holds
  dsimp only
  split
  · rename_i empty
    have none_left : pending = [] := by
      rw [holds.buffered_length] at empty
      exact length_eq_zero_iff.mp empty
    subst none_left
    exact ⟨acc.1, acc.2, done, holds, by simpa using all, rfl⟩
  · have flushed := holds.flushGroup (by omega)
    refine ⟨_, _, done ++ [pending], flushed, by simpa using all, ?_⟩
    rw [append_assoc]

end Encoder

def exportedRow (columns : List String) (idColumn : Bool) (row : ExportRow) : ExportRow :=
  ⟨if idColumn then row.id else "", fun key => if key ∈ columns then row.values key else none⟩

def schemaNames (columns : List String) (idColumn : Bool) : List String :=
  (if idColumn then ["id"] else []) ++ columns

section Rows
variable {columns : List String} {idColumn : Bool} {rows : List ExportRow} {row : ExportRow} {rowIndex : Nat}
  {names : List String} {values : StringMap} {index : Nat}

def addCell (values : StringMap) (row : ExportRow) (name : String) : ExportRow :=
  match values name with
  | some value => { row with values := Function.update row.values name (some value) }
  | none => row

theorem foldl_addCell : names.foldl (addCell values) row =
    ⟨row.id, fun key => if key ∈ names then (values key).or (row.values key) else row.values key⟩ := by
  induction names generalizing row with
  | nil => simp
  | cons name names ih =>
    rw [foldl_cons, ih, addCell]
    cases found : values name with
    | none | some value =>
      congr 1
      funext key
      by_cases here : key = name
      · subst here
        simp [found]
      · simp [here]

theorem foldl_pushCell (idColumn : Bool) (cells : List (List (Option String))) (start : Nat) (row : ExportRow)
    (past : idColumn = true → 0 < start)
    (at_cells : ∀ i name, names[i]? = some name →
      (cells[start + i]? >>= fun column => column[rowIndex]?).join = values name) :
    (((names.zipIdx start).map fun (name, index) => (⟨name, idColumn && index == 0⟩ : Leaf)).zipIdx start).foldl
        (pushCell idColumn cells rowIndex) row = names.foldl (addCell values) row := by
  induction names generalizing start row with
  | nil => rfl
  | cons name names ih =>
    have first := at_cells 0 name rfl
    rw [Nat.add_zero] at first
    have plain : (idColumn && start == 0) = false := by
      cases idColumn with
      | false => rfl
      | true =>
        have := past rfl
        simp only [Bool.true_and, beq_eq_false_iff_ne]
        omega
    have here : pushCell idColumn cells rowIndex row (⟨name, idColumn && start == 0⟩, start) =
        addCell values row name := by
      unfold pushCell addCell
      rw [plain, first]
      rfl
    rw [zipIdx_cons, map_cons, zipIdx_cons, foldl_cons, here]
    refine ih (start + 1) _ (fun _ => by omega) fun i name' at_i => ?_
    rw [show start + 1 + i = start + (i + 1) by omega]
    exact at_cells (i + 1) name' (by simpa using at_i)

def groupColumns (columns : List String) (idColumn : Bool) (rows : List ExportRow) : List (List (Option String)) :=
  (List.range (schemaNames columns idColumn).length).map (columnValues columns idColumn rows)

theorem groupColumns_cell
    (at_row : rows[rowIndex]? = some row) (inside : index < (schemaNames columns idColumn).length) :
    ((groupColumns columns idColumn rows)[index]? >>= fun column => column[rowIndex]?).join =
      ((rowCells columns idColumn row)[index]?).join := by
  rw [groupColumns, getElem?_map, getElem?_range inside, map_some, bind_eq_bind, bind_some, columnValues,
    getElem?_map, at_row, map_some]
  cases (rowCells columns idColumn row)[index]? <;> rfl

theorem groupColumns_named {i : Nat}
    {name : String} (at_row : rows[rowIndex]? = some row) (at_i : columns[i]? = some name) :
    ((groupColumns columns idColumn rows)[(if idColumn then 1 else 0) + i]? >>=
      fun column => column[rowIndex]?).join = row.values name := by
  have inside : i < columns.length := (List.getElem?_eq_some_iff.mp at_i).1
  rw [groupColumns_cell at_row (by cases idColumn <;> simp [schemaNames] <;> omega)]
  cases idColumn <;> simp [rowCells, at_i, Nat.add_comm]

theorem buildRow_groupColumns (at_row : rows[rowIndex]? = some row) :
    buildRow (schemaLeaves (schemaNames columns idColumn) idColumn) idColumn
      (groupColumns columns idColumn rows) rowIndex = exportedRow columns idColumn row := by
  have kept (id : String) : columns.foldl (addCell row.values) ⟨id, fun _ => none⟩ =
      ⟨id, fun key => if key ∈ columns then row.values key else none⟩ := by
    simp [foldl_addCell]
  cases idColumn with
  | false =>
    have cells := foldl_pushCell false (groupColumns columns false rows) 0
      ⟨"", fun _ => none⟩ (fun absurd => Bool.noConfusion absurd)
      fun _ _ at_i => groupColumns_named at_row at_i
    rw [kept] at cells
    exact cells
  | true =>
    have cells := foldl_pushCell true (groupColumns columns true rows) 1
      ⟨row.id, fun _ => none⟩ (fun _ => Nat.one_pos) fun _ _ at_i => groupColumns_named at_row at_i
    have first : pushCell true (groupColumns columns true rows) rowIndex ⟨"", fun _ => none⟩
        (⟨"id", true⟩, 0) = ⟨row.id, fun _ => none⟩ := by
      unfold pushCell
      rw [groupColumns_cell at_row (by simp [schemaNames])]
      rfl
    rw [kept] at cells
    exact (congrArg (List.foldl _ · _) first).trans cells

theorem buildRows_groupColumns :
    (List.range rows.length).map (buildRow (schemaLeaves (schemaNames columns idColumn) idColumn)
      idColumn (groupColumns columns idColumn rows)) = rows.map (exportedRow columns idColumn) := by
  apply ext_getElem?
  intro index
  rw [getElem?_map, getElem?_map]
  by_cases inside : index < rows.length
  · have at_row : rows[index]? = some rows[index] := getElem?_eq_getElem inside
    rw [getElem?_range inside, at_row, map_some, map_some, buildRow_groupColumns at_row]
  · rw [getElem?_eq_none (by simpa using inside), getElem?_eq_none (by omega)]
    rfl

end Rows

section Decode
variable {columns : List String} {idColumn : Bool} {rows : List ExportRow}

theorem schemaLeaves_get {index : Nat} (inside : index < (schemaNames columns idColumn).length) :
    ∃ leaf, (schemaLeaves (schemaNames columns idColumn) idColumn)[index]? = some leaf ∧
      leaf.required = (idColumn && index == 0) := by
  refine ⟨⟨(schemaNames columns idColumn)[index], idColumn && index == 0⟩, ?_, rfl⟩
  simp [schemaLeaves, inside]

theorem columnValues_present (index : Nat) (required : (idColumn && index == 0) = true) :
    ∀ value ∈ columnValues columns idColumn rows index, value.isSome := by
  intro value member
  obtain ⟨row, _, rfl⟩ := List.mem_map.mp member
  simp only [Bool.and_eq_true, beq_iff_eq] at required
  obtain ⟨rfl, rfl⟩ := required
  rfl

variable {bytes : ByteString}

theorem decodeChunk_at {index : Nat} {column : ColumnMeta} (acc : List (List (Option String)))
    (at_chunk : ChunkAt columns idColumn bytes.bytes rows index column)
    (inside : index < (schemaNames columns idColumn).length) (small : bytes.len < 2 ^ 31)
    (few : rows.length ≤ 256) (room : 32 ≤ bytes.len - column.dataPageOffset) :
    (decodeChunk bytes (schemaLeaves (schemaNames columns idColumn) idColumn) rows.length acc
      (chunkOf column, index)) = .ok (acc ++ [columnValues columns idColumn rows index]) := by
  obtain ⟨leaf, at_leaf, required⟩ := schemaLeaves_get inside
  obtain ⟨tail, found⟩ := at_chunk.found
  have place := at_chunk.inside
  have cap : rows.length ≤ countCap bytes.len := by
    simp only [countCap, usizeLimit]
    omega
  have offset : (Int64.ofNat column.dataPageOffset).toInt = column.dataPageOffset :=
    Int64.toInt_ofNat_of_lt (by simp only [ByteString.len] at small; omega)
  have count : (Int64.ofNat column.numValues).toInt = rows.length := by
    rw [at_chunk.count]
    exact Int64.toInt_ofNat_of_lt (by omega)
  have length : (columnValues columns idColumn rows index).length = rows.length := by
    simp [columnValues]
  have read : (readColumn (bytes.drop column.dataPageOffset) rows.length leaf.required) =
      .ok (columnValues columns idColumn rows index) := by
    rw [← length, required]
    refine readColumn_encodeColumn found.symm (columnValues_present index) (by omega) ?_ ?_
    · simp only [countCap, usizeLimit, ByteString.len, ByteString.drop, length_drop] at room ⊢
      omega
    · have := congrArg List.length found
      simp only [length_append, length_drop, ByteString.len, columnBytes] at this small
      omega
  unfold decodeChunk chunkOf
  rw [offset, count, if_neg (by omega), Int.toNat_natCast, if_neg (by simp only [ByteString.len]; omega),
    boundCount_natCast cap, pure_bind, if_neg (by simp), at_leaf]
  dsimp only
  rw [bind_of_ok read]
  rfl

variable {body footer : List UInt8}

section
variable (whole : bytes.bytes = body ++ footer) (ends : 32 ≤ footer.length) (small : bytes.len < 2 ^ 31)
include whole ends small

theorem decodeChunks_at (few : rows.length ≤ 256) (chunks : List ColumnMeta) (start : Nat)
    (acc : List (List (Option String))) (inside : start + chunks.length ≤ (schemaNames columns idColumn).length)
    (each : ∀ index column, chunks[index]? = some column →
      ChunkAt columns idColumn body rows (start + index) column) :
    (((chunks.map chunkOf).zipIdx start).foldlM (decodeChunk bytes
      (schemaLeaves (schemaNames columns idColumn) idColumn) rows.length) acc) =
      .ok (acc ++ (List.range' start chunks.length).map (columnValues columns idColumn rows)) := by
  induction chunks generalizing start acc with
  | nil => exact congrArg Outcome.ok (append_nil acc).symm
  | cons column chunks ih =>
    rw [length_cons] at inside
    have first := each 0 column rfl
    rw [Nat.add_zero] at first
    have placed := first.append footer
    rw [← whole] at placed
    have room : 32 ≤ bytes.len - column.dataPageOffset := by
      have := first.inside
      simp only [ByteString.len, whole, length_append]
      omega
    have head := decodeChunk_at acc placed (by omega) small few room
    have tail := ih (start + 1) (acc ++ [columnValues columns idColumn rows start]) (by omega)
      fun index column' at_index => by
        rw [show start + 1 + index = start + (index + 1) by omega]
        exact each (index + 1) column' (by simpa using at_index)
    rw [map_cons, zipIdx_cons, foldlM_cons, bind_of_ok head, tail,
      length_cons, range'_succ, map_cons, append_assoc, singleton_append]

theorem decodeGroup_at {group : RowGroupMeta} (acc : List ExportRow)
    (at_group : GroupAt columns idColumn body rows group) :
    (decodeGroup bytes (schemaLeaves (schemaNames columns idColumn) idColumn) idColumn acc
      (groupOf group)) = .ok (acc ++ rows.map (exportedRow columns idColumn)) := by
  have few : rows.length ≤ 256 := at_group.few
  have width : group.columns.length = (schemaNames columns idColumn).length := by
    rw [at_group.width]
    cases idColumn <;> simp [schemaNames]
  have cap : rows.length ≤ countCap bytes.len := by
    simp only [countCap, usizeLimit, ByteString.len, whole, length_append]
    omega
  have count : (Int64.ofNat group.numRows).toInt = rows.length := by
    rw [at_group.count]
    exact Int64.toInt_ofNat_of_lt (by omega)
  have each : ∀ index column, group.columns[index]? = some column →
      ChunkAt columns idColumn body rows (0 + index) column := by
    intro index column at_index
    rw [Nat.zero_add]
    exact at_group.chunks index column at_index
  have chunks := decodeChunks_at whole ends small few group.columns 0 [] (by rw [width]; omega) each
  rw [width, ← range_eq_range'] at chunks
  unfold decodeGroup groupOf
  rw [count, boundCount_natCast cap, pure_bind, if_neg (by simp [width, schemaLeaves]), bind_of_ok chunks]
  exact congrArg Outcome.ok (congrArg (acc ++ ·) (buildRows_groupColumns))

theorem decodeGroups_at {done : List (List ExportRow)} {groups : List RowGroupMeta} (acc : List ExportRow)
    (at_groups : List.Forall₂ (GroupAt columns idColumn body) done groups) :
    ((groups.map groupOf).foldlM (decodeGroup bytes
      (schemaLeaves (schemaNames columns idColumn) idColumn) idColumn) acc) =
      .ok (acc ++ done.flatten.map (exportedRow columns idColumn)) := by
  induction at_groups generalizing acc with
  | nil => exact congrArg Outcome.ok (append_nil acc).symm
  | cons at_group _ ih =>
    rw [map_cons, foldlM_cons, bind_of_ok (decodeGroup_at whole ends small acc at_group),
      ih, flatten_cons, map_append, append_assoc]

end

theorem isIdColumn_schemaLeaves : isIdColumn (schemaLeaves (schemaNames columns idColumn) idColumn) = idColumn := by
  cases idColumn with
  | true => rfl
  | false => cases columns <;> simp [isIdColumn, schemaLeaves, schemaNames, zipIdx_cons]

theorem schemaLeaves_names : (schemaLeaves (schemaNames columns idColumn) idColumn).map Leaf.name =
      schemaNames columns idColumn := by
  rw [schemaLeaves, List.map_map]
  exact zipIdx_map_fst 0 _

theorem writeFileMetadata_length (names : List String) (idColumn : Bool) (totalRows : Nat)
    (groups : List RowGroupMeta) : 26 ≤ (writeFileMetadata names idColumn totalRows groups).length := by
  have sized := structBytes_length_gt 0 (fileMetaFields names idColumn totalRows groups)
  have created : (binBytes (strBytes createdBy)).length = 21 := by decide +kernel
  have total : 25 < ((fileMetaFields names idColumn totalRows groups).map fun f => f.value.length + 1).sum := by
    simp only [fileMetaFields, map_cons, sum_cons, strField]
    omega
  rw [writeFileMetadata_eq]
  omega

theorem magic_length : magic.length = 4 := rfl

theorem decode_layout {file : ByteString} {e : Encoder}
    {done : List (List ExportRow)} (holds : Holds columns idColumn e body done [])
    (whole : file.bytes = body ++ e.footer) (small : file.len < 2 ^ 31) :
    decode file = .ok ⟨columns, idColumn, done.flatten.map (exportedRow columns idColumn)⟩ := by
  have names : e.schemaNames = schemaNames columns idColumn := by
    rw [Encoder.schemaNames, holds.columns_eq, holds.idColumn_eq, schemaNames]
  unfold Encoder.footer at whole
  rw [names, holds.idColumn_eq] at whole
  have metadataLong := writeFileMetadata_length (schemaNames columns idColumn) idColumn e.totalRows e.groups
  generalize written : writeFileMetadata (schemaNames columns idColumn) idColumn e.totalRows e.groups =
    metadata at whole metadataLong
  have fits := file.fits
  have length : file.len = body.length + metadata.length + 8 := by
    simp only [ByteString.len, whole, length_append, leBytes32_length, magic_length]
    omega
  obtain ⟨rest, starts⟩ := holds.starts
  have bodyLong : 4 ≤ body.length := by
    rw [← starts, length_append, magic_length]
    omega
  have opening : file.bytes.take 4 = magic := by
    rw [whole, ← starts]
    rfl
  have closing : file.bytes.drop (file.len - 4) = magic := by
    rw [whole, ← append_assoc]
    exact drop_left' (by simp only [length_append, leBytes32_length]; omega)
  have lengthAt : (file.bytes.drop (file.len - 8)).take 4 = leBytes32 metadata.length := by
    rw [whole, append_assoc metadata, ← append_assoc body, drop_left' (by simp only [length_append]; omega),
      take_left' (leBytes32_length _)]
  have metadataAt : ((file.take (file.len - 8)).drop (file.len - 8 - metadata.length)).bytes = metadata := by
    simp only [ByteString.take, ByteString.drop, whole]
    rw [append_assoc metadata, ← append_assoc body,
      take_left' (by simp only [length_append]; omega), drop_left' (by omega)]
  have parsed := parseFileMetadata_write (metadataAt.trans written.symm) (by rw [written]; omega)
  have rows := decodeGroups_at whole
    (by simp only [length_append, leBytes32_length, magic_length]; omega) small [] holds.groups
  have bounds : file.len - 8 + 4 ≤ file.bytes.length := by
    rw [← ByteString.len]
    omega
  unfold decode
  rw [if_neg (by rw [opening, closing]; simp only [ne_eq, not_true_eq_false, or_false]; omega),
    usizeSub, if_pos (by omega), pure_bind, usizeAdd_of_le bounds fits, pure_bind,
    indexRange_of_le (by omega) bounds, pure_bind, Nat.add_sub_cancel_left, lengthAt,
    leU32_leBytes32 (by omega), pure_bind, if_neg (by omega)]
  rw [if_neg (by omega), indexRange_of_le (by omega) (by omega), pure_bind, bind_of_ok parsed]
  rw [isIdColumn_schemaLeaves, bind_of_ok rows, schemaLeaves_names]
  cases idColumn <;> rfl

end Decode

/-- Every export file below 2 GiB decodes to the columns, the id flag and the rows it was written
from, each row cut to the listed columns. -/
theorem decode_encode (columns : List String) (idColumn : Bool) (rows : List ExportRow)
    (file : ByteString) (encoded : file.bytes = encode columns idColumn rows) (small : file.len < 2 ^ 31) :
    decode file = .ok ⟨columns, idColumn, rows.map (exportedRow columns idColumn)⟩ := by
  obtain ⟨e, body, done, holds, all, layout⟩ := encode_layout
  have decoded := decode_layout holds (encoded.trans layout) small
  rwa [all] at decoded

/-- Three rows with a null, a repeated column and a column called `id`. -/
def sampleRows : List ExportRow :=
  [⟨"a", fun key => if key = "name" then some "x" else none⟩, ⟨"b", fun _ => none⟩, ⟨"c", fun _ => some ""⟩]

def sampleFile : ByteString := ⟨encode ["name", "id", "name"] true sampleRows, by decide +kernel⟩

theorem decode_encode_sampleFile :
    sampleFile.bytes = encode ["name", "id", "name"] true sampleRows ∧ sampleFile.len < 2 ^ 31 ∧
      decode sampleFile = .ok ⟨["name", "id", "name"], true,
        sampleRows.map (exportedRow ["name", "id", "name"] true)⟩ := by
  have small : sampleFile.len < 2 ^ 31 := by decide +kernel
  exact ⟨rfl, small, decode_encode _ true sampleRows sampleFile rfl small⟩

end SekaiChisei.Parquet
