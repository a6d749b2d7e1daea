import SekaiChisei.Parquet.Wire
import SekaiChisei.Parquet.Read

/-!
# The footer read back

Every struct of the file metadata is a field list on the wire. Each is written by its writer and
read back by the fields its parser keeps.
-/

namespace SekaiChisei.Parquet
open Lib Lib.Outcome List Function

variable (id : Int)

def i32Field (value : Int32) : Field := ⟨id, tI32, varint (zigzagI32 value)⟩

def i64Field (value : Nat) : Field := ⟨id, tI64, varint (zigzagI64 (Int64.ofNat value))⟩

def strField (text : String) : Field := ⟨id, tBin, binBytes (strBytes text)⟩

def structField (fields : List Field) : Field := ⟨id, tStruct, structBytes 0 fields⟩

def listField (elem : UInt8) (items : List (List UInt8)) : Field :=
  ⟨id, tList, listHeader elem items.length ++ items.flatten⟩

def structList (items : List (List Field)) : Field :=
  listField id tStruct (items.map (structBytes 0))

def columnMetaFields (name : String) (column : ColumnMeta) : List Field :=
  [i32Field 1 typeByteArray, listField 2 tI32 [varint (zigzagI32 encodingRle), varint (zigzagI32 encodingPlain)],
    listField 3 tBin [binBytes (strBytes name)], i32Field 4 codecUncompressed,
    i64Field 5 column.numValues, i64Field 6 column.size, i64Field 7 column.size,
    i64Field 9 column.dataPageOffset]

def columnChunkFields (names : List String) (column : ColumnMeta × Nat) : List Field :=
  [i64Field 2 column.1.fileOffset, structField 3 (columnMetaFields (names[column.2]?.getD "") column.1)]

def rowGroupFields (names : List String) (group : RowGroupMeta) : List Field :=
  [structList 1 (group.columns.zipIdx.map (columnChunkFields names)),
    i64Field 2 group.totalByteSize, i64Field 3 group.numRows]

def rootFields (leaves : Nat) : List Field :=
  [i32Field 3 repetitionRequired, strField 4 "schema", i32Field 5 (Int32.ofNat leaves)]

def leafFields (leaf : Leaf) : List Field :=
  [i32Field 1 typeByteArray, i32Field 3 (if leaf.required then repetitionRequired else repetitionOptional),
    strField 4 leaf.name, i32Field 6 convertedUtf8]

def elementFields (leaves : Nat) : Option Leaf → List Field
  | none => rootFields leaves
  | some leaf => leafFields leaf

def schemaFields (leaves : List Leaf) : List (List Field) :=
  (none :: leaves.map some).map (elementFields leaves.length)

def schemaLeaves (names : List String) (idColumn : Bool) : List Leaf :=
  names.zipIdx.map fun (name, index) => ⟨name, idColumn && index == 0⟩

def fileMetaFields (names : List String) (idColumn : Bool) (totalRows : Nat)
    (groups : List RowGroupMeta) : List Field :=
  [i32Field 1 1, structList 2 (schemaFields (schemaLeaves names idColumn)),
    i64Field 3 totalRows, structList 4 (groups.map (rowGroupFields names)), strField 6 createdBy]

section Write
variable {last : Int} {names : List String} {group : RowGroupMeta} {column : ColumnMeta}

theorem emits_writeListI32 (value : Int32) :
    Emits (fun w => writeListI32 w value) last (varint (zigzagI32 value)) last :=
  emits_writeVarint _

theorem emits_foldList {γ : Type} {items : List γ} {len : Nat} (id : Int) (elem : UInt8)
    {f : CompactWriter → γ → CompactWriter} {bytes : γ → List UInt8} (count : len = items.length)
    (each : ∀ item ∈ items, ∀ last, Emits (fun w => f w item) last (bytes item) last) :
    EmitsField (fun w => items.foldl f (w.beginListField id elem len)) (listField id elem (items.map bytes)) := by
  subst count
  have elems : Emits (fun w => items.foldl f w) id _ id :=
    emits_foldl fun item member => each item member id
  have both := emits_list (emits_beginListField id elem items.length) elems
  have value : listField id elem (items.map bytes) =
      ⟨id, tList, listHeader elem items.length ++ items.flatMap bytes⟩ := by
    rw [listField, length_map, flatMap_def]
  rw [value]
  exact both

theorem emits_writeColumnMeta (name : String) :
    EmitsFields (writeColumnMeta name column) (columnMetaFields name column) := by
  have encodings : EmitsField (fun w =>
      [encodingRle, encodingPlain].foldl writeListI32 (w.beginListField 2 tI32 2)) _ :=
    emits_foldList 2 tI32 rfl fun value _ _ => emits_writeListI32 value
  have path : EmitsField (fun w => (List.range 1).foldl (fun w _ =>
      (w.writeVarint (UInt64.ofNat (strBytes name).length)).push (strBytes name)) (w.beginListField 3 tBin 1)) _ :=
    emits_foldList 3 tBin rfl fun _ _ _ => emits_bin
  have fields : EmitsFields _ (columnMetaFields name column) :=
    (((((((emitsFields_nil.snoc (emits_writeI32Field 1 _)).snoc encodings).snoc path).snoc
      (emits_writeI32Field 4 _)).snoc (emits_writeI64Field 5 _)).snoc
      (emits_writeI64Field 6 _)).snoc (emits_writeI64Field 7 _)).snoc (emits_writeI64Field 9 _)
  exact fields

theorem emits_writeColumnChunk (column : ColumnMeta × Nat) :
    Emits (fun w => writeColumnChunk w (names[column.2]?.getD "") column.1) last
      (structBytes 0 (columnChunkFields names column)) last := by
  have fields : EmitsFields _ (columnChunkFields names column) :=
    (emitsFields_nil.snoc (emits_writeI64Field 2 _)).snoc
      (emits_writeStructField 3 (emits_writeColumnMeta (names[column.2]?.getD "")))
  have written : Emits _ last _ last := emits_struct fields
  exact written

theorem emits_foldStructs {γ : Type} {items : List γ} {len : Nat} (id : Int)
    {f : CompactWriter → γ → CompactWriter} {fields : γ → List Field} (count : len = items.length)
    (each : ∀ item ∈ items, ∀ last, Emits (fun w => f w item) last (structBytes 0 (fields item)) last) :
    EmitsField (fun w => items.foldl f (w.beginListField id tStruct len)) (structList id (items.map fields)) := by
  rw [structList, map_map]
  exact emits_foldList id tStruct count each

theorem emits_writeRowGroup :
    Emits (fun w => writeRowGroup names w group) last (structBytes 0 (rowGroupFields names group)) last := by
  have columns : EmitsField (fun w => group.columns.zipIdx.foldl (fun w entry =>
      writeColumnChunk w (names[entry.2]?.getD "") entry.1) (w.beginListField 1 tStruct group.columns.length)) _ :=
    emits_foldStructs 1 (by simp) fun column _ _ => emits_writeColumnChunk column
  have fields : EmitsFields _ (rowGroupFields names group) :=
    ((emitsFields_nil.snoc columns).snoc (emits_writeI64Field 2 _)).snoc (emits_writeI64Field 3 _)
  have written : Emits _ last _ last := emits_struct fields
  exact written

theorem emits_writeRootSchema (leaves : Nat) :
    Emits (fun w => writeRootSchema w leaves) last (structBytes 0 (rootFields leaves)) last := by
  have fields : EmitsFields _ (rootFields leaves) :=
    ((emitsFields_nil.snoc (emits_writeI32Field 3 _)).snoc (emits_writeStrField 4 _)).snoc (emits_writeI32Field 5 _)
  have written : Emits _ last _ last := emits_struct fields
  exact written

theorem emits_writeLeafSchema (leaf : Leaf) : Emits (fun w => writeLeafSchema w leaf.required leaf.name) last
      (structBytes 0 (leafFields leaf)) last := by
  have fields : EmitsFields _ (leafFields leaf) :=
    (((emitsFields_nil.snoc (emits_writeI32Field 1 _)).snoc (emits_writeI32Field 3 _)).snoc
      (emits_writeStrField 4 _)).snoc (emits_writeI32Field 6 _)
  have written : Emits _ last _ last := emits_struct fields
  exact written

theorem emits_schemaList (idColumn : Bool) : EmitsField (fun w => names.zipIdx.foldl (fun w (name, index) =>
      writeLeafSchema w (idColumn && index == 0) name)
        (writeRootSchema (w.beginListField 2 tStruct (names.length + 1)) names.length))
      (structList 2 (schemaFields (schemaLeaves names idColumn))) := by
  have leaves : Emits (fun w => names.zipIdx.foldl (fun w (name, index) =>
      writeLeafSchema w (idColumn && index == 0) name) w) 2 _ 2 :=
    emits_foldl fun leaf _ => emits_writeLeafSchema ⟨leaf.1, idColumn && leaf.2 == 0⟩
  have elems := emits_comp (emits_writeRootSchema names.length) leaves
  have whole := emits_list (emits_beginListField 2 tStruct (names.length + 1)) elems
  have value : structList 2 (schemaFields (schemaLeaves names idColumn)) =
      ⟨2, tList, listHeader tStruct (names.length + 1) ++ (structBytes 0 (rootFields names.length) ++
        names.zipIdx.flatMap fun leaf =>
          structBytes 0 (leafFields ⟨leaf.1, idColumn && leaf.2 == 0⟩))⟩ := by
    simp [structList, listField, schemaFields, schemaLeaves, elementFields, flatMap_def, comp_def]
  rw [value]
  exact whole

theorem writeFileMetadata_eq (names : List String) (idColumn : Bool) (totalRows : Nat) (groups : List RowGroupMeta) :
    writeFileMetadata names idColumn totalRows groups =
      structBytes 0 (fileMetaFields names idColumn totalRows groups) := by
  have rowGroups : EmitsField (fun w => groups.foldl (writeRowGroup names)
      (w.beginListField 4 tStruct groups.length)) _ :=
    emits_foldStructs 4 rfl fun group _ _ => emits_writeRowGroup
  have fields : EmitsFields _ (fileMetaFields names idColumn totalRows groups) :=
    ((((emitsFields_nil.snoc (emits_writeI32Field 1 _)).snoc (emits_schemaList idColumn)).snoc
      (emits_writeI64Field 3 _)).snoc rowGroups).snoc (emits_writeStrField 6 _)
  have written := emits_struct fields CompactWriter.new rfl
  exact congrArg CompactWriter.buf written

end Write

theorem length_le_flatten {items : List (List UInt8)} (nonempty : ∀ item ∈ items, item ≠ []) :
    items.length ≤ items.flatten.length := by
  induction items with
  | nil => exact Nat.le_refl _
  | cons item items ih =>
    have first := length_pos_of_ne_nil (nonempty item mem_cons_self)
    have rest := ih fun item member => nonempty item (mem_cons_of_mem _ member)
    simp only [length_cons, flatten_cons, length_append]
    omega

theorem structs_length_le {γ : Type} (xs : List γ) (fields : γ → List Field) :
    xs.length ≤ (xs.map fun x => structBytes 0 (fields x)).flatten.length := by
  have nonempty : ∀ item ∈ xs.map fun x => structBytes 0 (fields x), item ≠ [] := by
    intro item member
    obtain ⟨x, _, rfl⟩ := mem_map.mp member
    exact structBytes_ne_nil _
  have all := length_le_flatten nonempty
  rwa [length_map] at all

section Read
variable {last : Int}

theorem reads_skip_list (elem : UInt8) (items : List (List UInt8)) (type : elem < 16)
    (few : items.length < 2 ^ 64) (nonempty : ∀ item ∈ items, item ≠ [])
    (each : ∀ item ∈ items, Reads (skipValueAt 32 elem) last item () last) :
    Reads (skipValue tList) last (listHeader elem items.length ++ items.flatten) () last := by
  have elems : Reads (forRange items.length () fun _ _ => skipValueAt 32 elem) last
      (items.map id).flatten () last :=
    reads_forRange () fun item member _ => each item.1 (fst_mem_of_mem_zipIdx member)
  rw [map_id] at elems
  exact reads_list type few (length_le_flatten nonempty) elems

theorem reads_skip_i32List (values : List UInt64) (few : values.length < 2 ^ 64) : Reads (skipValue tList) last
      (listHeader tI32 (values.map varint).length ++ (values.map varint).flatten) () last := by
  refine reads_skip_list tI32 _ (by decide) (by rwa [length_map]) ?_ ?_
  · intro item member
    obtain ⟨v, _, rfl⟩ := mem_map.mp member
    exact varintLoop_ne_nil 9 v
  · intro item member
    obtain ⟨v, _, rfl⟩ := mem_map.mp member
    exact reads_map (fun _ => ()) (reads_readVarint v)

theorem reads_skip_binList {bytes : List UInt8} (small : bytes.length < 2 ^ 64) :
    Reads (skipValue tList) last (listHeader tBin 1 ++ [binBytes bytes].flatten) () last := by
  refine reads_skip_list tBin [binBytes bytes] (by decide) (by simp) ?_ ?_
  · intro item member
    have header := varint_length_pos (UInt64.ofNat bytes.length)
    rw [mem_singleton.mp member]
    apply ne_nil_of_length_pos
    rw [binBytes, length_append]
    omega
  · intro item member
    rw [mem_singleton.mp member]
    exact reads_map (fun _ => ()) (reads_readBin small)

def chunkOf (column : ColumnMeta) : ColumnChunk :=
  ⟨Int64.ofNat column.dataPageOffset, Int64.ofNat column.numValues⟩

theorem fieldsRead_columnMeta {name : String} (acc : ColumnChunk) (small : (strBytes name).length < 2 ^ 64) :
    FieldsRead (columnMetaField) (columnMetaFields name column) acc (chunkOf column) := by
  have encodings : Reads (skipValue tList) 2 _ () 2 :=
    reads_skip_i32List [zigzagI32 encodingRle, zigzagI32 encodingPlain] (by decide)
  exact fieldsRead_cons (by decide) (reads_skip _ (reads_skip_i32 _)) <|
    fieldsRead_cons (by decide) (reads_skip _ encodings) <|
    fieldsRead_cons (by decide) (reads_skip _ (reads_skip_binList small)) <|
    fieldsRead_cons (by decide) (reads_skip _ (reads_skip_i32 _)) <|
    fieldsRead_cons (by decide) (reads_map _ (reads_readI64 _)) <|
    fieldsRead_cons (by decide) (reads_skip _ (reads_skip_i64 _)) <|
    fieldsRead_cons (by decide) (reads_skip _ (reads_skip_i64 _)) <|
    fieldsRead_cons (by decide) (reads_map _ (reads_readI64 _)) rfl

theorem reads_parseColumnChunk (names : List String) (column : ColumnMeta × Nat)
    (small : (structBytes 0 (columnChunkFields names column)).length < 2 ^ 31) :
    Reads (parseColumnChunk) last (structBytes 0 (columnChunkFields names column)) (chunkOf column.1) last := by
  -- The name is inside the path list, inside the metadata struct, inside the chunk.
  have name : (strBytes (names[column.2]?.getD "")).length < 2 ^ 64 := by
    have path : listField 3 tBin [binBytes (strBytes (names[column.2]?.getD ""))] ∈
        columnMetaFields (names[column.2]?.getD "") column.1 := by simp [columnMetaFields]
    have body : structField 3 (columnMetaFields (names[column.2]?.getD "") column.1) ∈
        columnChunkFields names column := by simp [columnChunkFields]
    have inner := value_length_le 0 path
    have outer := value_length_le 0 body
    simp only [listField, structField, binBytes, length_append, flatten_cons] at inner outer
    omega
  apply reads_readStruct
  exact fieldsRead_cons (by decide) (reads_skip _ (reads_skip_i64 _)) <|
    fieldsRead_cons (by decide) (reads_readStruct (fieldsRead_columnMeta _ name)) rfl

def groupOf (group : RowGroupMeta) : RowGroup :=
  ⟨Int64.ofNat group.numRows, group.columns.map chunkOf⟩

variable {γ : Type} {leaves : List Leaf}

theorem structList_map (id : Int) (xs : List γ) (fields : γ → List Field) : structList id (xs.map fields) =
      ⟨id, tList, listHeader tStruct xs.length ++ (xs.map fun x => structBytes 0 (fields x)).flatten⟩ := by
  simp [structList, listField, comp_def]

theorem struct_length_le (id : Int) {xs : List γ} {x : γ} (fields : γ → List Field) (member : x ∈ xs) :
    (structBytes 0 (fields x)).length ≤ (structList id (xs.map fields)).value.length := by
  have item : structBytes 0 (fields x) ∈ xs.map fun x => structBytes 0 (fields x) :=
    mem_map.mpr ⟨x, member, rfl⟩
  have inside := (sublist_flatten_of_mem item).length_le
  rw [structList_map, length_append]
  omega

theorem reads_structList {β : Type} {id : Int} (xs : List γ) (fields : γ → List Field)
    {k : UInt8 × Nat → Parse β} {b : β} (small : (structList id (xs.map fields)).value.length < 2 ^ 31)
    (elems : Reads (k (tStruct, xs.length)) last (xs.map fun x => structBytes 0 (fields x)).flatten b last) :
    Reads (readListHeader >>= k) last (structList id (xs.map fields)).value b last := by
  have count := structs_length_le xs fields
  rw [structList_map] at small ⊢
  rw [length_append] at small
  exact reads_list (by decide) (by omega) count elems

theorem reads_parseRowGroup (small : (structBytes 0 (rowGroupFields names group)).length < 2 ^ 31) :
    Reads (parseRowGroup) last (structBytes 0 (rowGroupFields names group)) (groupOf group) last := by
  have member : structList 1 (group.columns.zipIdx.map (columnChunkFields names)) ∈
      rowGroupFields names group := by simp [rowGroupFields]
  have inside := value_length_le 0 member
  have columns : Reads (forRange group.columns.zipIdx.length [] fun _ columns => do
      return columns ++ [← parseColumnChunk]) 1 _
      ([] ++ group.columns.zipIdx.map fun column => chunkOf column.1) 1 :=
    reads_pushRange [] fun column here => reads_parseColumnChunk names column (by
      have := struct_length_le 1 (columnChunkFields names) here
      omega)
  have firsts : (group.columns.zipIdx.map fun column => chunkOf column.1) = group.columns.map chunkOf := by
    rw [← comp_def chunkOf, ← map_map, zipIdx_map_fst]
  rw [firsts] at columns
  have parsed := reads_map (fun columns => (⟨0, columns⟩ : RowGroup)) columns
  have list : Reads (rowGroupField 1 tList ⟨0, []⟩) 1 _ ⟨0, group.columns.map chunkOf⟩ 1 :=
    reads_structList group.columns.zipIdx (columnChunkFields names) (Nat.lt_of_le_of_lt inside small) parsed
  apply reads_readStruct
  exact fieldsRead_cons (by decide) list <| fieldsRead_cons (by decide) (reads_skip _ (reads_skip_i64 _)) <|
    fieldsRead_cons (by decide) (reads_map _ (reads_readI64 _)) rfl

def elementOf : Option Leaf → SchemaElement
  | none => ⟨"schema", true, true⟩
  | some leaf => ⟨leaf.name, leaf.required, true⟩

theorem reads_schemaElement (leaves : Nat) (element : Option Leaf)
    (small : (structBytes 0 (elementFields leaves element)).length < 2 ^ 31) :
    Reads (readStruct {} (schemaField)) last
      (structBytes 0 (elementFields leaves element)) (elementOf element) last := by
  apply reads_readStruct
  cases element with
  | none =>
    exact fieldsRead_cons (by decide) (reads_map _ (reads_readI32 _)) <|
      fieldsRead_cons (by decide) (reads_map _ (reads_readStr (by decide))) <|
      fieldsRead_cons (by decide) (reads_skip _ (reads_skip_i32 _)) rfl
  | some leaf =>
    have member : strField 4 leaf.name ∈ leafFields leaf := by simp [leafFields]
    have inside := value_length_le 0 member
    have name : (strBytes leaf.name).length < 2 ^ 64 := by
      simp only [strField, binBytes, length_append, elementFields] at inside small
      omega
    have repetition : ((if leaf.required then repetitionRequired else repetitionOptional) == 0) =
        leaf.required := by cases leaf.required <;> rfl
    rw [elementOf, ← repetition]
    exact fieldsRead_cons (by decide) (reads_skip _ (reads_skip_i32 _)) <|
      fieldsRead_cons (by decide) (reads_map _ (reads_readI32 _)) <|
      fieldsRead_cons (by decide) (reads_map _ (reads_readStr name)) <|
      fieldsRead_cons (by decide) (reads_skip _ (reads_skip_i32 _)) rfl

def pushLeaf (acc : List Leaf) (element : Option Leaf × Nat) : List Leaf :=
  if element.2 > 0 then acc ++ [⟨(elementOf element.1).name, (elementOf element.1).required⟩]
  else acc

theorem foldl_pushLeaf {index : Nat} (positive : 0 < index) (acc : List Leaf) :
    ((leaves.map some).zipIdx index).foldl pushLeaf acc = acc ++ leaves := by
  induction leaves generalizing index acc with
  | nil => simp
  | cons leaf leaves ih =>
    rw [map_cons, zipIdx_cons, foldl_cons, ih (by omega), pushLeaf, if_pos positive]
    simp [elementOf]

theorem reads_parseSchemaElement (leaves : Nat) (element : Option Leaf × Nat) (acc : List Leaf)
    (small : (structBytes 0 (elementFields leaves element.1)).length < 2 ^ 31) :
    Reads (parseSchemaElement element.2 acc) last
      (structBytes 0 (elementFields leaves element.1)) (pushLeaf acc element) last := by
  have seen : (elementOf element.1).sawRepetition = true := by cases element.1 <;> rfl
  have parsed : Reads (parseSchemaElement element.2 acc) last
      (structBytes 0 (elementFields leaves element.1) ++ []) (pushLeaf acc element) last := by
    refine reads_bind (reads_schemaElement leaves element.1 small) ?_
    rw [seen, pushLeaf]
    split
    · exact reads_pure _
    · exact reads_pure _
  rwa [append_nil] at parsed

theorem reads_schemaList (small : (structList 2 (schemaFields leaves)).value.length < 2 ^ 31) :
    Reads (fileMetaField 2 tList ⟨[], []⟩) last (structList 2 (schemaFields leaves)).value ⟨leaves, []⟩ last := by
  have loop : Reads (forRange (none :: leaves.map some).length [] (parseSchemaElement)) last
      ((none :: leaves.map some).map fun element =>
        structBytes 0 (elementFields leaves.length element)).flatten
      ((none :: leaves.map some).zipIdx.foldl pushLeaf []) last := by
    refine reads_forRange [] fun element member acc => ?_
    have here := struct_length_le 2 (elementFields leaves.length) (fst_mem_of_mem_zipIdx member)
    exact reads_parseSchemaElement leaves.length element acc (Nat.lt_of_le_of_lt here small)
  rw [zipIdx_cons, foldl_cons, foldl_pushLeaf (by omega)] at loop
  have parsed := reads_map (fun leaves => (⟨leaves, []⟩ : FileMeta)) loop
  exact reads_structList _ (elementFields leaves.length) small parsed

theorem reads_groupList (groups : List RowGroupMeta) (leaves : List Leaf)
    (small : (structList 4 (groups.map (rowGroupFields names))).value.length < 2 ^ 31) :
    Reads (fileMetaField 4 tList ⟨leaves, []⟩) last
      (structList 4 (groups.map (rowGroupFields names))).value ⟨leaves, groups.map groupOf⟩ last := by
  have loop : Reads (forRange groups.length [] fun _ acc => do
      return acc ++ [← parseRowGroup]) last _ ([] ++ groups.map groupOf) last :=
    reads_pushRange [] fun group here => reads_parseRowGroup
      (Nat.lt_of_le_of_lt (struct_length_le 4 (rowGroupFields names) here) small)
  have parsed := reads_map (fun groups => (⟨leaves, groups⟩ : FileMeta)) loop
  exact reads_structList groups (rowGroupFields names) small parsed

end Read

theorem parseFileMetadata_write {names : List String} {idColumn : Bool} {totalRows : Nat}
    {groups : List RowGroupMeta} {slice : ByteString}
    (whole : slice.bytes = writeFileMetadata names idColumn totalRows groups)
    (small : (writeFileMetadata names idColumn totalRows groups).length < 2 ^ 31) :
    (parseFileMetadata slice) = .ok ⟨schemaLeaves names idColumn, groups.map groupOf⟩ := by
  rw [writeFileMetadata_eq] at whole small
  have schema : structList 2 (schemaFields (schemaLeaves names idColumn)) ∈
      fileMetaFields names idColumn totalRows groups := by simp [fileMetaFields]
  have rowGroups : structList 4 (groups.map (rowGroupFields names)) ∈
      fileMetaFields names idColumn totalRows groups := by simp [fileMetaFields]
  have leaves : Reads _ 2 _ _ 2 :=
    reads_schemaList (Nat.lt_of_le_of_lt (value_length_le 0 schema) small)
  have chunks : Reads _ 4 _ _ 4 := reads_groupList groups (schemaLeaves names idColumn)
    (Nat.lt_of_le_of_lt (value_length_le 0 rowGroups) small)
  have fields : FieldsRead (fileMetaField) (fileMetaFields names idColumn totalRows groups)
      ⟨[], []⟩ ⟨schemaLeaves names idColumn, groups.map groupOf⟩ :=
    fieldsRead_cons (by decide) (reads_skip _ (reads_skip_i32 _)) <|
    fieldsRead_cons (by decide) leaves <|
    fieldsRead_cons (by decide) (reads_skip _ (reads_skip_i64 _)) <|
    fieldsRead_cons (by decide) chunks <|
    fieldsRead_cons (by decide) (reads_skip _ (reads_skip_bin (by decide))) rfl
  rw [← append_nil (structBytes 0 _)] at whole
  rw [parseFileMetadata, bind_of_ok (reads_run (reads_readStruct fields) whole)]
  rfl

end SekaiChisei.Parquet
