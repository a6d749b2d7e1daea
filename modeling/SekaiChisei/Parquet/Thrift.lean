import Mathlib
import SekaiChisei.Lib.Outcome

/-! The Thrift compact protocol of `thrift.rs`. -/

namespace SekaiChisei.Parquet
open Lib Outcome

def tStop : UInt8 := 0
def tTrue : UInt8 := 1
def tFalse : UInt8 := 2
def tI8 : UInt8 := 3
def tI16 : UInt8 := 4
def tI32 : UInt8 := 5
def tI64 : UInt8 := 6
def tDouble : UInt8 := 7
def tBin : UInt8 := 8
def tList : UInt8 := 9
def tSet : UInt8 := 10
def tMap : UInt8 := 11
def tStruct : UInt8 := 12

def usizeLimit : Nat := 2 ^ 64

/-- The longest slice the language allows, `isize::MAX` bytes. -/
def isizeMax : Nat := 2 ^ 63 - 1

structure ByteString where
  bytes : List UInt8
  fits : bytes.length ≤ isizeMax

namespace ByteString

def len (s : ByteString) : Nat := s.bytes.length

def drop (s : ByteString) (n : Nat) : ByteString :=
  ⟨s.bytes.drop n, by have := s.fits; simp only [List.length_drop]; omega⟩

def take (s : ByteString) (n : Nat) : ByteString :=
  ⟨s.bytes.take n, by have := s.fits; simp only [List.length_take]; omega⟩

end ByteString

/-- `str::as_bytes`. -/
def strBytes (s : String) : List UInt8 := s.toByteArray.data.toList

/-- `str::from_utf8`. -/
def fromUtf8 (bytes : List UInt8) : Option String := String.fromUTF8? ⟨bytes.toArray⟩

def zigzagI16 (value : Int16) : UInt64 := ((value <<< 1) ^^^ (value >>> 15)).toUInt16.toUInt64

def zigzagI32 (value : Int32) : UInt64 := ((value <<< 1) ^^^ (value >>> 31)).toUInt32.toUInt64

def zigzagI64 (value : Int64) : UInt64 := ((value <<< 1) ^^^ (value >>> 63)).toUInt64

variable (value : UInt64)

def unzigzagI16 : Int16 :=
  let value := value.toUInt16
  (value >>> 1).toInt16 ^^^ -(value &&& 1).toInt16

def unzigzagI32 : Int32 :=
  let value := value.toUInt32
  (value >>> 1).toInt32 ^^^ -(value &&& 1).toInt32

def unzigzagI64 : Int64 := (value >>> 1).toInt64 ^^^ -(value &&& 1).toInt64

/-- The loop of `write_varint`; ten rounds empty a `u64`. -/
def varintLoop : Nat → UInt64 → List UInt8
  | 0, _ => []
  | rounds + 1, value =>
    let byte := (value &&& 0x7f).toUInt8
    let value := value >>> 7
    if value ≠ 0 then (byte ||| 0x80) :: varintLoop rounds value else [byte]

def varint : List UInt8 := varintLoop 10 value

structure CompactWriter where
  buf : List UInt8
  lastId : Int
  stack : List Int

namespace CompactWriter

def new : CompactWriter := ⟨[], 0, []⟩

variable (w : CompactWriter)

def push (bytes : List UInt8) : CompactWriter := { w with buf := w.buf ++ bytes }

def writeVarint (value : UInt64) : CompactWriter := w.push (varint value)

def beginStruct : CompactWriter :=
  { w with stack := w.lastId :: w.stack, lastId := 0 }

def endStruct : CompactWriter :=
  { w with buf := w.buf ++ [tStop], lastId := w.stack.headD 0, stack := w.stack.tail }

def fieldHeader (id : Int) (ty : UInt8) : CompactWriter :=
  let delta := id - w.lastId
  let w := if 1 ≤ delta ∧ delta ≤ 14 then w.push [(UInt8.ofNat delta.toNat <<< 4) ||| ty]
    else (w.push [ty]).writeVarint (zigzagI16 (Int16.ofInt id))
  { w with lastId := id }

def writeI32Field (id : Int) (value : Int32) : CompactWriter :=
  (w.fieldHeader id tI32).writeVarint (zigzagI32 value)

def writeI64Field (id : Int) (value : Int64) : CompactWriter :=
  (w.fieldHeader id tI64).writeVarint (zigzagI64 value)

def writeBinField (id : Int) (bytes : List UInt8) : CompactWriter :=
  ((w.fieldHeader id tBin).writeVarint (UInt64.ofNat bytes.length)).push bytes

def writeStrField (id : Int) (value : String) : CompactWriter :=
  w.writeBinField id (strBytes value)

def beginListField (id : Int) (elem : UInt8) (len : Nat) : CompactWriter :=
  let w := w.fieldHeader id tList
  if len ≤ 14 then w.push [(UInt8.ofNat len <<< 4) ||| elem]
  else (w.push [0xF0 ||| elem]).writeVarint (UInt64.ofNat len)

def writeListField (id : Int) (elem : UInt8) (len : Nat)
    (writeElem : CompactWriter → CompactWriter) : CompactWriter :=
  (List.range len).foldl (fun w _ => writeElem w) (w.beginListField id elem len)

def writeStructField (id : Int) (writeBody : CompactWriter → CompactWriter) : CompactWriter :=
  (writeBody (w.fieldHeader id tStruct).beginStruct).endStruct

end CompactWriter

abbrev Checked := Outcome String

/-- Addition of nonnegative operands in a type whose values stay below `limit`. -/
def addWithin (limit a b : Nat) : Checked Nat :=
  if a + b < limit then pure (a + b) else .panic

def usizeAdd (a b : Nat) : Checked Nat := addWithin usizeLimit a b

def usizeSub (a b : Nat) : Checked Nat := if b ≤ a then pure (a - b) else .panic

def i32Add (a b : Nat) : Checked Nat := addWithin (2 ^ 31) a b

/-- `value << shift` on `u64`, which panics from a shift of 64 on. -/
def shl64 (shift : Nat) : Checked UInt64 :=
  if shift < 64 then pure (value <<< UInt64.ofNat shift) else .panic

/-- `bytes[from..to]`. -/
def indexRange (bytes : List UInt8) (start stop : Nat) : Checked (List UInt8) :=
  if start ≤ stop ∧ stop ≤ bytes.length then pure ((bytes.drop start).take (stop - start))
  else .panic

/-- `u32::from_le_bytes(bytes.try_into().unwrap()) as usize`. -/
def leU32 : List UInt8 → Checked Nat
  | [b₀, b₁, b₂, b₃] =>
    pure (b₀.toNat + b₁.toNat * 2 ^ 8 + b₂.toNat * 2 ^ 16 + b₃.toNat * 2 ^ 24)
  | _ => .panic

/-- `self.last_id + i16::from(delta)`. -/
def i16Sum (last : Int) (delta : Nat) : Checked Int :=
  if last + delta ≤ 32767 then pure (last + delta) else .panic

structure CompactReader where
  data : ByteString
  pos : Nat
  lastId : Int
  stack : List Int

abbrev Parse := StateT CompactReader Checked

namespace CompactReader

def new (data : ByteString) : CompactReader := ⟨data, 0, 0, []⟩

def remaining (r : CompactReader) : Nat := r.data.len - r.pos

end CompactReader

def failWith {α : Type} (message : String) : Parse α := fun _ => .err message

def beginStruct : Parse Unit := fun r =>
  pure ((), { r with stack := r.lastId :: r.stack, lastId := 0 })

def endStruct : Parse Unit := fun r =>
  match r.stack with
  | [] => .err "struct stack"
  | last :: stack => pure ((), { r with lastId := last, stack := stack })

def readU8 : Parse UInt8 := fun r =>
  match r.data.bytes[r.pos]? with
  | none => .err "truncated"
  | some byte => do
    let pos ← usizeAdd r.pos 1
    pure (byte, { r with pos := pos })

/-- `checked_add` turns an overflowing end into an error, not a panic. -/
def readExact (n : Nat) : Parse (List UInt8) := fun r =>
  if usizeLimit ≤ r.pos + n then .err "truncated"
  else if r.data.len < r.pos + n then .err "truncated"
  else pure ((r.data.bytes.drop r.pos).take n, { r with pos := r.pos + n })

/-- The loop of `read_varint`. A shift past 63 ends it, so ten rounds are enough. -/
def readVarintLoop : Nat → UInt64 → Nat → Parse UInt64
  | 0, _, _ => fun _ => .hang
  | rounds + 1, result, shift => do
    let byte ← readU8
    let part ← shl64 (byte &&& 0x7f).toUInt64 shift
    let result := result ||| part
    if byte &&& 0x80 = 0 then pure result
    else do
      let shift ← i32Add shift 7
      if shift > 63 then failWith "varint overflow" else readVarintLoop rounds result shift

def readVarint : Parse UInt64 := readVarintLoop 10 0 0

def boundLen (len : Nat) : Parse Nat := fun r =>
  if len > r.remaining then .err "count exceeds input" else pure (len, r)

/-- A varint as a length; `usize::try_from` cannot fail on a 64-bit target. -/
def readLen : Parse Nat := do
  let n ← readVarint
  boundLen n.toNat

def readI32 : Parse Int32 := do return unzigzagI32 (← readVarint)

def readI64 : Parse Int64 := do return unzigzagI64 (← readVarint)

def readBin : Parse (List UInt8) := do readExact (← readLen)

def readStr : Parse String := do
  match fromUtf8 (← readBin) with
  | some text => pure text
  | none => failWith "string is not utf-8"

def listLen (header : UInt8) : Parse Nat :=
  if header >>> 4 = 15 then do return (← readVarint).toNat else pure (header >>> 4).toNat

def readListHeader : Parse (UInt8 × Nat) := do
  let header ← readU8
  let len ← listLen header
  let len ← boundLen len
  return (header &&& 0x0f, len)

def mapLen (header : UInt8) : Parse Nat :=
  if header = 0 then pure 0 else do return (← readVarint).toNat

/-- `for index in 0..len`. -/
def forRange {β : Type} (len : Nat) (init : β) (body : Nat → β → Parse β) : Parse β :=
  (List.range len).foldlM (fun acc index => body index acc) init

def fieldId (delta : UInt8) : Parse Int :=
  if delta = 0 then do return (unzigzagI16 (← readVarint)).toInt
  else fun r => do return (← i16Sum r.lastId delta.toNat, r)

/-- `self.last_id = id`. -/
def setLastId (id : Int) : Parse Int := fun r => pure (id, { r with lastId := id })

def nextField : Parse (Option (Int × UInt8)) := do
  let header ← readU8
  if header = tStop then pure none
  else do
    let id ← fieldId (header >>> 4) >>= setLastId
    return some (id, header &&& 0x0f)

variable {β : Type} {shift : Nat}

/-- `while let Some((id, ty)) = reader.next_field()?`. -/
def fieldLoop (body : Int → UInt8 → β → Parse β) : Nat → β → Parse β
  | 0, _ => fun _ => .hang
  | rounds + 1, acc => do
    match ← nextField with
    | none => pure acc
    | some (id, ty) => do
      let acc ← body id ty acc
      fieldLoop body rounds acc

/-- A struct is read as `begin_struct`, the loop over its fields, `end_struct`. Every round of the
loop takes a byte at least. -/
def readStruct (init : β) (body : Int → UInt8 → β → Parse β) : Parse β := do
  beginStruct
  let acc ← (fun r => fieldLoop body (r.remaining + 1) init r : Parse β)
  endStruct
  return acc

/-- `skip_value_at` with `left` nesting levels left, `depth = 33 - left`. -/
def skipValueAt : Nat → UInt8 → Parse Unit
  | 0, _ => failWith "thrift nesting"
  | left + 1, ty =>
    if ty = tTrue ∨ ty = tFalse then pure ()
    else if ty = tI8 then do let _ ← readU8
    else if ty = tI16 ∨ ty = tI32 ∨ ty = tI64 then do let _ ← readVarint
    else if ty = tDouble then do let _ ← readExact 8
    else if ty = tBin then do let _ ← readBin
    else if ty = tList ∨ ty = tSet then do
      let (elem, len) ← readListHeader
      forRange len () fun _ _ => skipValueAt left elem
    else if ty = tMap then do
      let header ← readU8
      let len ← mapLen header
      let len ← boundLen len
      forRange len () fun _ _ => do
        skipValueAt left (header >>> 4)
        skipValueAt left (header &&& 0x0f)
    else if ty = tStruct then readStruct () fun _ fieldTy _ => skipValueAt left fieldTy
    else failWith "unknown thrift type"

def skipValue (ty : UInt8) : Parse Unit := skipValueAt 33 ty

theorem usizeAdd_of_le {a b n : Nat} (h : a + b ≤ n) (small : n ≤ isizeMax) : usizeAdd a b = pure (a + b) := by
  have : a + b < usizeLimit := by simp only [isizeMax, usizeLimit] at *; omega
  rw [usizeAdd, addWithin, if_pos this]

theorem shl64_of_lt {value : UInt64} (h : shift < 64) : shl64 value shift = pure (value <<< UInt64.ofNat shift) := by
  rw [shl64, if_pos h]

theorem i32Add_of_lt {a b : Nat} (h : a + b < 2 ^ 31) : i32Add a b = pure (a + b) := by
  rw [i32Add, addWithin, if_pos h]

theorem indexRange_of_le {bytes : List UInt8} {start stop : Nat} (ordered : start ≤ stop)
    (inside : stop ≤ bytes.length) : indexRange bytes start stop = pure ((bytes.drop start).take (stop - start)) := by
  rw [indexRange, if_pos ⟨ordered, inside⟩]

theorem readVarintLoop_succ (rounds : Nat) (result : UInt64) (small : shift < 64) :
    readVarintLoop (rounds + 1) result shift = (do
      let byte ← readU8
      let result := result ||| ((byte &&& 0x7f).toUInt64 <<< UInt64.ofNat shift)
      if byte &&& 0x80 = 0 then pure result
      else if shift + 7 > 63 then failWith "varint overflow"
      else readVarintLoop rounds result (shift + 7)) := by
  have step : i32Add shift 7 = pure (shift + 7) := i32Add_of_lt (by omega)
  simp only [readVarintLoop, shl64_of_lt small, step]
  rfl

end SekaiChisei.Parquet
