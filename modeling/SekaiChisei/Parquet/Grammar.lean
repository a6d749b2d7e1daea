import SekaiChisei.Parquet.Thrift

/-!
The field ids of Thrift compact structs, read off the bytes alone: a walk over values that looks at types and lengths
and at nothing else, with ids as integers.
-/

namespace SekaiChisei.Parquet
open List

/-- Seven bits a byte, the low ones first. -/
def varintFrom : List UInt8 → UInt64 → Nat → Option (UInt64 × List UInt8)
  | [], _, _ => none
  | byte :: rest, value, shift =>
    let value := value ||| ((byte &&& 0x7f).toUInt64 <<< UInt64.ofNat shift)
    if byte &&& 0x80 = 0 then some (value, rest)
    else if shift + 7 > 63 then none
    else varintFrom rest value (shift + 7)

def varintAt (bytes : List UInt8) : Option (UInt64 × List UInt8) := varintFrom bytes 0 0

/-- What is to come: a value of a type, or the fields of a struct after the field `last`. -/
inductive Part where
  | value (ty : UInt8)
  | fields (last : Int)

/-- `n` times `item`, no more than the bytes left. -/
def repeated (n : Nat) (item : List Part) (rest : List UInt8) : Option (List Part × List UInt8) :=
  if n ≤ rest.length then some ((replicate n item).flatten, rest) else none

/-- What a value is made of, and the bytes after its own. -/
def partsOf (ty : UInt8) (bytes : List UInt8) : Option (List Part × List UInt8) :=
  if ty = tTrue ∨ ty = tFalse then some ([], bytes)
  else if ty = tI8 then some ([], bytes.drop 1)
  else if ty = tI16 ∨ ty = tI32 ∨ ty = tI64 then (varintAt bytes).map fun read => ([], read.2)
  else if ty = tDouble then some ([], bytes.drop 8)
  else if ty = tBin then (varintAt bytes).map fun read => ([], read.2.drop read.1.toNat)
  else if ty = tList ∨ ty = tSet then
    match bytes with
    | [] => none
    | header :: rest =>
      if header >>> 4 = 15 then
        (varintAt rest).bind fun read => repeated read.1.toNat [.value (header &&& 0x0f)] read.2
      else repeated (header >>> 4).toNat [.value (header &&& 0x0f)] rest
  else if ty = tMap then
    match bytes with
    | [] => none
    | header :: rest =>
      if header = 0 then some ([], rest)
      else (varintAt rest).bind fun read =>
        repeated read.1.toNat [.value (header >>> 4), .value (header &&& 0x0f)] read.2
  else if ty = tStruct then some ([.fields 0], bytes)
  else none

/-- The id and the type of the field at the front of the bytes. -/
def fieldAt (last : Int) : List UInt8 → Option (Int × UInt8 × List UInt8)
  | [] => none
  | header :: rest =>
    if header = tStop then none
    else if header >>> 4 = 0 then
      (varintAt rest).map fun read => ((unzigzagI16 read.1).toInt, header &&& 0x0f, read.2)
    else some (last + (header >>> 4).toNat, header &&& 0x0f, rest)

structure Walk where
  parts : List Part
  bytes : List UInt8

namespace Walk

def start (bytes : List UInt8) : Walk := ⟨[.fields 0], bytes⟩

def next : Walk → Option Walk
  | ⟨[], _⟩ => none
  | ⟨.value ty :: parts, bytes⟩ => (partsOf ty bytes).map fun inner => ⟨inner.1 ++ parts, inner.2⟩
  | ⟨.fields last :: parts, bytes⟩ =>
    if bytes.head? = some tStop then some ⟨parts, bytes.tail⟩
    else (fieldAt last bytes).map fun field => ⟨.value field.2.1 :: .fields field.1 :: parts, field.2.2⟩

/-- The id that the walk comes to here. -/
def fieldId : Walk → Option Int
  | ⟨.fields last :: _, bytes⟩ => (fieldAt last bytes).map Prod.fst
  | _ => none

def Reaches : Walk → Walk → Prop := Relation.ReflTransGen fun walk later => walk.next = some later

/-- Every field id on the way is an `i16`; negative ids only come from a varint, which is cut to 16 bits. -/
def Fits (walk : Walk) : Prop := ∀ later, walk.Reaches later → ∀ id ∈ later.fieldId, id ≤ 32767

variable {walk later : Walk}

theorem Fits.reached (fits : walk.Fits) (reaches : walk.Reaches later) : later.Fits :=
  fun last further => fits last (reaches.trans further)

theorem reaches_next (step : walk.next = some later) : walk.Reaches later := .single step

end Walk

/-- The bytes of the file metadata: their length stands before the closing magic. -/
def footer (bytes : List UInt8) : List UInt8 :=
  (bytes.take (bytes.length - 8)).drop
    (bytes.length - 8 - ((bytes.drop (bytes.length - 8)).take 4).foldr (fun byte n => byte.toNat + 256 * n) 0)

end SekaiChisei.Parquet
