import SekaiChisei.Parquet.Thrift

/-! The export encoder of `write.rs` and `lib.rs`: row groups of PLAIN pages, then the footer. -/

namespace SekaiChisei.Parquet

def magic : List UInt8 := [0x50, 0x41, 0x52, 0x31]
def rowGroupRows : Nat := 256
def createdBy : String := "sekai-parquet-export"

def typeByteArray : Int32 := 6
def repetitionRequired : Int32 := 0
def repetitionOptional : Int32 := 1
def convertedUtf8 : Int32 := 0
def encodingPlain : Int32 := 0
def encodingRle : Int32 := 3
def codecUncompressed : Int32 := 0
def pageData : Int32 := 0

/-- A `HashMap<String, String>`, by its lookups. -/
abbrev StringMap := String → Option String

structure ExportRow where
  id : String
  values : StringMap

structure Table where
  columns : List String
  idColumn : Bool
  rows : List ExportRow

structure ColumnMeta where
  (fileOffset numValues size dataPageOffset : Nat)

structure RowGroupMeta where
  (numRows totalByteSize : Nat)
  columns : List ColumnMeta

structure Encoder where
  columns : List String
  idColumn : Bool
  offset : Nat
  buffered : List (List (Option String))
  groups : List RowGroupMeta
  totalRows : Nat

/-- `(n as u32).to_le_bytes()`. -/
def leBytes32 (n : Nat) : List UInt8 :=
  [UInt8.ofNat n, UInt8.ofNat (n / 2 ^ 8), UInt8.ofNat (n / 2 ^ 16), UInt8.ofNat (n / 2 ^ 24)]

/-- A length-prefixed level run, the frame of both `rle_run` and `bitpack_run`. -/
def levelRun (body : List UInt8) : List UInt8 := leBytes32 body.length ++ body

def rleRun (count : Nat) (value : UInt8) : List UInt8 :=
  levelRun (varint (UInt64.ofNat count <<< 1) ++ [value])

/-- The byte of eight levels starting at `start`, bit `k` set when level `start + k` is. -/
def packByte (levels : List UInt8) (start : Nat) : UInt8 :=
  (List.range 8).foldl (fun byte bit =>
    if (levels[start + bit]?).any (· ≠ 0) then byte ||| (1 <<< UInt8.ofNat bit) else byte) 0

def bitpackRun (levels : List UInt8) : List UInt8 :=
  let groups := (levels.length + 7) / 8
  levelRun (varint ((UInt64.ofNat groups <<< 1) ||| 1) ++
    (List.range groups).map fun group => packByte levels (group * 8))

def encodeDefinitionLevels (values : List (Option (List UInt8))) : List UInt8 :=
  let levels : List UInt8 := values.map fun value => if value.isSome then 1 else 0
  match levels with
  | [] => leBytes32 0
  | first :: _ =>
    if levels.all (· == first) then rleRun levels.length first else bitpackRun levels

def pageHeader (numValues bodyLen : Int32) : List UInt8 :=
  let w := CompactWriter.new.beginStruct.writeI32Field 1 pageData
  let w := w.writeI32Field 2 bodyLen
  let w := w.writeI32Field 3 bodyLen
  let w := w.writeStructField 5 fun w =>
    w.writeI32Field 1 numValues
      |>.writeI32Field 2 encodingPlain
      |>.writeI32Field 3 encodingRle
      |>.writeI32Field 4 encodingRle
  w.endStruct.buf

def encodeColumn (values : List (Option (List UInt8))) (required : Bool) : List UInt8 :=
  let levels := if required then [] else encodeDefinitionLevels values
  let body := levels ++ values.flatMap fun
    | some value => leBytes32 value.length ++ value
    | none => []
  pageHeader (Int32.ofNat values.length) (Int32.ofNat body.length) ++ body

variable (w : CompactWriter)

def writeListI32 (value : Int32) : CompactWriter :=
  w.writeVarint ((value <<< 1) ^^^ (value >>> 31)).toUInt32.toUInt64

def writeRootSchema (leaves : Nat) : CompactWriter :=
  w.beginStruct.writeI32Field 3 repetitionRequired
    |>.writeStrField 4 "schema"
    |>.writeI32Field 5 (Int32.ofNat leaves)
    |>.endStruct

def writeLeafSchema (required : Bool) (name : String) : CompactWriter :=
  w.beginStruct.writeI32Field 1 typeByteArray
    |>.writeI32Field 3 (if required then repetitionRequired else repetitionOptional)
    |>.writeStrField 4 name
    |>.writeI32Field 6 convertedUtf8
    |>.endStruct

def writeColumnMeta (name : String) (column : ColumnMeta) (w : CompactWriter) : CompactWriter :=
  let w := w.writeI32Field 1 typeByteArray
  let w := w.beginListField 2 tI32 2
  let w := writeListI32 w encodingRle
  let w := writeListI32 w encodingPlain
  let w := w.writeListField 3 tBin 1 fun w =>
    (w.writeVarint (UInt64.ofNat (strBytes name).length)).push (strBytes name)
  let w := w.writeI32Field 4 codecUncompressed
  let w := w.writeI64Field 5 (Int64.ofNat column.numValues)
  let w := w.writeI64Field 6 (Int64.ofNat column.size)
  let w := w.writeI64Field 7 (Int64.ofNat column.size)
  w.writeI64Field 9 (Int64.ofNat column.dataPageOffset)

def writeColumnChunk (name : String) (column : ColumnMeta) : CompactWriter :=
  w.beginStruct.writeI64Field 2 (Int64.ofNat column.fileOffset)
    |>.writeStructField 3 (writeColumnMeta name column)
    |>.endStruct

def writeRowGroup (names : List String) (w : CompactWriter) (group : RowGroupMeta) : CompactWriter :=
  let w := w.beginStruct.beginListField 1 tStruct group.columns.length
  let w := group.columns.zipIdx.foldl (fun w (column, index) =>
    writeColumnChunk w (names[index]?.getD "") column) w
  let w := w.writeI64Field 2 (Int64.ofNat group.totalByteSize)
  let w := w.writeI64Field 3 (Int64.ofNat group.numRows)
  w.endStruct

def writeFileMetadata (names : List String) (idColumn : Bool) (totalRows : Nat)
    (groups : List RowGroupMeta) : List UInt8 :=
  let w := CompactWriter.new.beginStruct.writeI32Field 1 1
  let w := w.beginListField 2 tStruct (names.length + 1)
  let w := writeRootSchema w names.length
  let w := names.zipIdx.foldl (fun w (name, index) =>
    writeLeafSchema w (idColumn && index == 0) name) w
  let w := w.writeI64Field 3 (Int64.ofNat totalRows)
  let w := w.beginListField 4 tStruct groups.length
  let w := groups.foldl (writeRowGroup names) w
  let w := w.writeStrField 6 createdBy
  w.endStruct.buf

namespace Encoder

def new (columns : List String) (idColumn : Bool) : Encoder :=
  ⟨columns, idColumn, magic.length, [], [], 0⟩

def header : List UInt8 := magic

variable (e : Encoder)

def cells (row : ExportRow) : List (Option String) :=
  (if e.idColumn then [some row.id] else []) ++ e.columns.map row.values

def width : Nat := e.columns.length + if e.idColumn then 1 else 0

def chunk (index : Nat) : List UInt8 :=
  encodeColumn (e.buffered.map fun row => (row[index]?.getD none).map strBytes) (e.idColumn && index == 0)

def pushChunk (acc : List UInt8 × List ColumnMeta) (index : Nat) : List UInt8 × List ColumnMeta :=
  let chunk := e.chunk index
  let fileOffset := e.offset + acc.1.length
  (acc.1 ++ chunk, acc.2 ++ [⟨fileOffset, e.buffered.length, chunk.length, fileOffset⟩])

def flushGroup : Encoder × List UInt8 :=
  let (bytes, columns) := (List.range e.width).foldl e.pushChunk ([], [])
  ({ e with
      buffered := []
      offset := e.offset + bytes.length
      totalRows := e.totalRows + e.buffered.length
      groups := e.groups ++ [⟨e.buffered.length, bytes.length, columns⟩] }, bytes)

def push (row : ExportRow) : Encoder × List UInt8 :=
  let e := { e with buffered := e.buffered ++ [e.cells row] }
  if e.buffered.length = rowGroupRows then e.flushGroup else (e, [])

def schemaNames : List String := (if e.idColumn then ["id"] else []) ++ e.columns

def footer : List UInt8 :=
  let metadata := writeFileMetadata e.schemaNames e.idColumn e.totalRows e.groups
  metadata ++ leBytes32 metadata.length ++ magic

def finish : Encoder × List UInt8 :=
  let (e, bytes) := if e.buffered.length = 0 then (e, []) else e.flushGroup
  (e, bytes ++ e.footer)

/-- One row of the loop in `encode`. -/
def pushTo (acc : Encoder × List UInt8) (row : ExportRow) : Encoder × List UInt8 :=
  let (e, flushed) := acc.1.push row
  (e, acc.2 ++ flushed)

end Encoder

def encode (columns : List String) (idColumn : Bool) (rows : List ExportRow) : List UInt8 :=
  let (e, file) := rows.foldl Encoder.pushTo (Encoder.new columns idColumn, Encoder.header)
  file ++ e.finish.2

end SekaiChisei.Parquet
