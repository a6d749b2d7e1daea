import SekaiChisei.Parquet.Write

/-! The dialect reader of `read.rs`. -/

namespace SekaiChisei.Parquet
open Lib Outcome

structure Leaf where
  name : String
  required : Bool

structure ColumnChunk where
  (dataPageOffset numValues : Int64)

structure RowGroup where
  numRows : Int64
  columns : List ColumnChunk

structure FileMeta where
  leaves : List Leaf
  groups : List RowGroup

def boundCount (claimed : Int) (cap : Nat) : Checked Nat :=
  if claimed < 0 then .err "count exceeds input"
  else if claimed.toNat > cap then .err "count exceeds input"
  else pure claimed.toNat

/-- `input_len.saturating_mul(8)`. -/
def countCap (inputLen : Nat) : Nat := min (inputLen * 8) (usizeLimit - 1)

/-- The loop of `read_uleb128` over the bytes left. -/
def readUleb128From : List UInt8 → UInt64 → Nat → Checked (UInt64 × List UInt8)
  | [], _, _ => .err "truncated varint"
  | byte :: rest, result, shift => do
    let part ← shl64 (byte &&& 0x7f).toUInt64 shift
    let result := result ||| part
    if byte &&& 0x80 = 0 then pure (result, rest)
    else do
      let shift ← i32Add shift 7
      if shift > 63 then .err "varint overflow" else readUleb128From rest result shift

def readUleb128 (data : List UInt8) : Checked (UInt64 × List UInt8) := readUleb128From data 0 0

/-- `for _ in 0..count`, left when the levels are complete. -/
def pushRun (numValues : Nat) (value : Bool) : Nat → List Bool → List Bool
  | 0, levels => levels
  | count + 1, levels =>
    if levels.length = numValues then levels else pushRun numValues value count (levels ++ [value])

/-- The levels of one bit-packed byte, from bit `bit` on. -/
def pushBits (numValues : Nat) (byte : UInt8) : List Nat → List Bool → List Bool
  | [], levels => levels
  | bit :: bits, levels =>
    if levels.length = numValues then levels
    else pushBits numValues byte bits (levels ++ [byte &&& (1 <<< UInt8.ofNat bit) != 0])

def pushGroups (numValues : Nat) : List UInt8 → Nat → List Bool → Checked (List Bool × List UInt8)
  | encoded, 0, levels => pure (levels, encoded)
  | [], _ + 1, _ => .err "bitpack"
  | byte :: encoded, groups + 1, levels =>
    pushGroups numValues encoded groups (pushBits numValues byte (List.range 8) levels)

/-- `while levels.len() < num_values`. Every round takes a byte of `encoded` at least. -/
def decodeLevelsLoop (numValues : Nat) : Nat → List UInt8 → List Bool → Checked (List Bool)
  | 0, _, _ => .hang
  | rounds + 1, encoded, levels =>
    if levels.length < numValues then do
      let (header, encoded) ← readUleb128 encoded
      if header &&& 1 = 0 then
        match encoded with
        | [] => .err "rle value"
        | value :: encoded =>
          decodeLevelsLoop numValues rounds encoded (pushRun numValues (value != 0) (header >>> 1).toNat levels)
      else do
        let (levels, encoded) ← pushGroups numValues encoded (header >>> 1).toNat levels
        decodeLevelsLoop numValues rounds encoded levels
    else pure levels

def decodeLevels (encoded : List UInt8) (numValues : Nat) : Checked (List Bool) :=
  decodeLevelsLoop numValues (encoded.length + 1) encoded []

def readDefinitionLevels (body : List UInt8) (numValues : Nat) : Checked (List Bool × List UInt8) :=
  if body.length < 4 then .err "level length"
  else do
    let len ← leU32 (body.take 4)
    if len > body.length - 4 then .err "count exceeds input"
    else do
      let stop ← usizeAdd 4 len
      if body.length < stop then .err "level bytes"
      else do
        let levels ← decodeLevels ((body.drop 4).take len) numValues
        pure (levels, body.drop stop)

/-- The cell loop of `decode_page_body`. -/
def readCells : List Bool → List UInt8 → List (Option String) → Checked (List (Option String))
  | [], _, cells => pure cells
  | false :: present, rest, cells => readCells present rest (cells ++ [none])
  | true :: present, rest, cells =>
    if rest.length < 4 then .err "value length"
    else do
      let len ← leU32 (rest.take 4)
      let rest := rest.drop 4
      if rest.length < len then .err "value bytes"
      else
        match fromUtf8 (rest.take len) with
        | none => .err "value is not utf-8"
        | some text => readCells present (rest.drop len) (cells ++ [some text])

def decodePageBody (body : List UInt8) (numValues : Nat) (required : Bool) : Checked (List (Option String)) :=
  if required then readCells (List.replicate numValues true) body []
  else do
    let (levels, rest) ← readDefinitionLevels body numValues
    readCells levels rest []

variable (id : Int)

def pageHeaderField (ty : UInt8) (acc : Int32 × Int32) : Parse (Int32 × Int32) :=
  if (id = 2 ∨ id = 3) ∧ ty = tI32 then do return (← readI32, acc.2)
  else if id = 5 ∧ ty = tStruct then do
    let values ← readStruct acc.2 fun field fieldTy values =>
      if field = 1 ∧ fieldTy = tI32 then readI32
      else do
        skipValue fieldTy
        return values
    return (acc.1, values)
  else do
    skipValue ty
    return acc

variable (bytes : ByteString)

def readColumn (numValues : Nat) (required : Bool) : Checked (List (Option String)) := do
  let ((bodyLen, values), reader) ←
    (readStruct ((0, 0) : Int32 × Int32) (pageHeaderField)).run (CompactReader.new bytes)
  let count ← boundCount values.toInt (countCap bytes.len)
  if count ≠ numValues then .err "page row count"
  else do
    let headerLen := reader.pos
    let bodyLen ← boundCount bodyLen.toInt (bytes.len - headerLen)
    let stop ← usizeAdd headerLen bodyLen
    if bytes.len < stop then .err "page body"
    else decodePageBody ((bytes.bytes.drop headerLen).take (stop - headerLen)) numValues required

def columnMetaField (ty : UInt8) (acc : ColumnChunk) : Parse ColumnChunk :=
  if id = 5 ∧ ty = tI64 then do return { acc with numValues := ← readI64 }
  else if id = 9 ∧ ty = tI64 then do return { acc with dataPageOffset := ← readI64 }
  else do
    skipValue ty
    return acc

def columnChunkField (ty : UInt8) (acc : ColumnChunk) : Parse ColumnChunk :=
  if id = 3 ∧ ty = tStruct then readStruct acc (columnMetaField)
  else do
    skipValue ty
    return acc

def parseColumnChunk : Parse ColumnChunk := readStruct ⟨0, 0⟩ (columnChunkField)

def rowGroupField (ty : UInt8) (acc : RowGroup) : Parse RowGroup :=
  if id = 1 ∧ ty = tList then do
    let (elem, len) ← readListHeader
    if elem ≠ tStruct then failWith "column list"
    else do
      let columns ← forRange len acc.columns fun _ columns => do
        return columns ++ [← parseColumnChunk]
      return { acc with columns }
  else if id = 3 ∧ ty = tI64 then do return { acc with numRows := ← readI64 }
  else do
    skipValue ty
    return acc

def parseRowGroup : Parse RowGroup := readStruct ⟨0, []⟩ (rowGroupField)

/-- A schema element as read: its name, `required`, and whether a repetition was seen. -/
structure SchemaElement where
  name : String := ""
  required : Bool := false
  sawRepetition : Bool := false

def schemaField (ty : UInt8) (acc : SchemaElement) : Parse SchemaElement :=
  if id = 3 ∧ ty = tI32 then do
    return { acc with required := (← readI32) == 0, sawRepetition := true }
  else if id = 4 ∧ ty = tBin then do return { acc with name := ← readStr }
  else do
    skipValue ty
    return acc

def parseSchemaElement (index : Nat) (leaves : List Leaf) : Parse (List Leaf) := do
  let element ← readStruct {} (schemaField)
  if index > 0 then
    if !element.sawRepetition then failWith "schema repetition"
    else return leaves ++ [⟨element.name, element.required⟩]
  else return leaves

def fileMetaField (ty : UInt8) (acc : FileMeta) : Parse FileMeta :=
  if id = 2 ∧ ty = tList then do
    let (elem, len) ← readListHeader
    if elem ≠ tStruct then failWith "schema list"
    else return { acc with leaves := ← forRange len acc.leaves (parseSchemaElement) }
  else if id = 4 ∧ ty = tList then do
    let (elem, len) ← readListHeader
    if elem ≠ tStruct then failWith "row group list"
    else do
      let groups ← forRange len acc.groups fun _ groups => do
        return groups ++ [← parseRowGroup]
      return { acc with groups }
  else do
    skipValue ty
    return acc

def parseFileMetadata : Checked FileMeta := do
  let (parsed, _) ← (readStruct ⟨[], []⟩ (fileMetaField)).run (CompactReader.new bytes)
  return parsed

/-- One leaf of the row at `rowIndex`, added to the row built so far. -/
def pushCell (idColumn : Bool) (columns : List (List (Option String))) (rowIndex : Nat)
    (row : ExportRow) (leaf : Leaf × Nat) : ExportRow :=
  let cell := (columns[leaf.2]? >>= fun column => column[rowIndex]?).join
  if idColumn && leaf.2 == 0 then { row with id := cell.getD "" }
  else
    match cell with
    | some value => { row with values := Function.update row.values leaf.1.name (some value) }
    | none => row

def buildRow (leaves : List Leaf) (idColumn : Bool) (columns : List (List (Option String)))
    (rowIndex : Nat) : ExportRow :=
  leaves.zipIdx.foldl (pushCell idColumn columns rowIndex) ⟨"", fun _ => none⟩

def decodeChunk (leaves : List Leaf) (numRows : Nat)
    (columns : List (List (Option String))) (chunk : ColumnChunk × Nat) :
    Checked (List (List (Option String))) := do
  if chunk.1.dataPageOffset.toInt < 0 then .err "page offset"
  else
    let offset := chunk.1.dataPageOffset.toInt.toNat
    if bytes.len < offset then .err "page offset"
    else do
      let numValues ← boundCount chunk.1.numValues.toInt (countCap bytes.len)
      if numValues ≠ numRows then .err "page row count"
      else
        match leaves[chunk.2]? with
        | none => .panic
        | some leaf => do
          let column ← readColumn (bytes.drop offset) numValues leaf.required
          pure (columns ++ [column])

def decodeGroup (leaves : List Leaf) (idColumn : Bool) (rows : List ExportRow)
    (group : RowGroup) : Checked (List ExportRow) := do
  let numRows ← boundCount group.numRows.toInt (countCap bytes.len)
  if group.columns.length ≠ leaves.length then .err "column count"
  else do
    let columns ← group.columns.zipIdx.foldlM (decodeChunk bytes leaves numRows) []
    pure (rows ++ (List.range numRows).map (buildRow leaves idColumn columns))

def isIdColumn (leaves : List Leaf) : Bool :=
  leaves.head?.any fun leaf => leaf.name == "id" && leaf.required

/-- `decode`, under the checked arithmetic of the source. -/
def decode : Outcome String Table :=
  if bytes.len < 12 ∨ bytes.bytes.take 4 ≠ magic ∨ bytes.bytes.drop (bytes.len - 4) ≠ magic then
    .err "not a parquet file"
  else do
    let lenAt ← usizeSub bytes.len 8
    let lenEnd ← usizeAdd lenAt 4
    let metaLen ← leU32 (← indexRange bytes.bytes lenAt lenEnd)
    if lenAt < metaLen then .err "truncated footer"
    else
      let metaStart := lenAt - metaLen
      if metaStart < 4 then .err "truncated footer"
      else do
        let _ ← indexRange bytes.bytes metaStart lenAt
        let parsed ← parseFileMetadata ((bytes.take lenAt).drop metaStart)
        let idColumn := isIdColumn parsed.leaves
        let rows ← parsed.groups.foldlM (decodeGroup bytes parsed.leaves idColumn) []
        let names := parsed.leaves.map Leaf.name
        pure ⟨if idColumn then names.tail else names, idColumn, rows⟩

end SekaiChisei.Parquet
