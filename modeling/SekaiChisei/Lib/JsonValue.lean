import SekaiChisei.Lib.Json

/-! JSON documents as trees, their text, and the tree with the keys of its objects in order. -/

namespace SekaiChisei.Lib.Json
open List String

inductive Value where
  | null
  | bool (b : Bool)
  | number (text : String)
  | string (s : String)
  | array (items : List Value)
  | object (fields : List (String × Value))

namespace Value

def int (n : Int) : Value := .number (Json.number n)

def strings (values : List String) : Value := .array (values.map .string)

mutual

def text : Value → String
  | null => "null"
  | bool true => "true"
  | bool false => "false"
  | number text => text
  | string s => Json.string s
  | array items => Json.array (itemTexts items)
  | object fields => Json.object (fieldTexts fields)

def itemTexts : List Value → List String
  | [] => []
  | item :: items => item.text :: itemTexts items

def fieldTexts : List (String × Value) → List (String × String)
  | [] => []
  | (name, value) :: fields => (name, value.text) :: fieldTexts fields

end

mutual

/-- `canonicalize_value`: the keys of every object in order. -/
def canonical : Value → Value
  | array items => .array (canonicalItems items)
  | object fields => .object ((canonicalFields fields).insertionSort fun a b => a.1 ≤ b.1)
  | value => value

def canonicalItems : List Value → List Value
  | [] => []
  | item :: items => item.canonical :: canonicalItems items

def canonicalFields : List (String × Value) → List (String × Value)
  | [] => []
  | (name, value) :: fields => (name, value.canonical) :: canonicalFields fields

end

/-- The bytes of `serde_json::to_vec`, counted. -/
def size (value : Value) : Nat := value.text.utf8ByteSize

mutual

def sizeBound : Value → Nat
  | null => 4
  | bool _ => 5
  | number text => text.utf8ByteSize
  | string s => 6 * s.utf8ByteSize + 2
  | array items => itemsBound items + 2
  | object fields => fieldsBound fields + 2

def itemsBound : List Value → Nat
  | [] => 0
  | item :: items => item.sizeBound + 1 + itemsBound items

def fieldsBound : List (String × Value) → Nat
  | [] => 0
  | (name, value) :: fields => 6 * name.utf8ByteSize + 3 + value.sizeBound + 1 + fieldsBound fields

end

end Value

theorem utf8Len_escape (c : Char) : String.utf8Len (escape c) ≤ 6 * c.utf8Size := by
  have nonempty := c.utf8Size_pos
  have digitSize : ∀ n < 16, (hexDigit n).utf8Size = 1 := by decide
  have textSizes : ('"').utf8Size = 1 ∧ ('\\').utf8Size = 1 ∧ ('b').utf8Size = 1 ∧ ('t').utf8Size = 1 ∧
      ('n').utf8Size = 1 ∧ ('f').utf8Size = 1 ∧ ('r').utf8Size = 1 ∧ ('u').utf8Size = 1 ∧
      ('0').utf8Size = 1 := by decide
  unfold escape
  repeat' split
  all_goals simp only [String.utf8Len_cons, String.utf8Len_nil]
  all_goals try omega
  rename_i low
  rw [digitSize (c.toNat / 16) (by omega), digitSize (c.toNat % 16) (by omega)]
  omega

theorem utf8Len_escapes (chars : List Char) : String.utf8Len (chars.flatMap escape) ≤ 6 * String.utf8Len chars := by
  induction chars with
  | nil => simp
  | cons c chars ih =>
    have first := utf8Len_escape c
    rw [List.flatMap_cons, String.utf8Len_append, String.utf8Len_cons]
    omega

theorem string_size (s : String) : (string s).utf8ByteSize ≤ 6 * s.utf8ByteSize + 2 := by
  have inside := utf8Len_escapes s.toList
  have whole : String.utf8Len s.toList = s.utf8ByteSize := by
    rw [← String.utf8ByteSize_ofList, String.ofList_toList]
  have quote : ('"').utf8Size = 1 := by decide
  rw [string, utf8ByteSize_ofList, utf8Len_append, utf8Len_append, utf8Len_cons, utf8Len_nil]
  omega

theorem intercalate_size (items : List String) : (String.intercalate "," items).utf8ByteSize ≤
      (items.map fun item => item.utf8ByteSize + 1).sum := by
  induction items with
  | nil => simp
  | cons item items ih =>
    cases items with
    | nil => simp
    | cons next items =>
      have comma : (",").utf8ByteSize = 1 := by decide
      rw [String.intercalate_cons_cons, utf8ByteSize_append, utf8ByteSize_append, map_cons, sum_cons]
      omega

namespace Value

mutual

theorem size_le : (value : Value) → value.size ≤ value.sizeBound
  | null => by decide
  | bool true => by decide
  | bool false => by decide
  | number _ => by rw [size, text, sizeBound]
  | string s => by
    rw [size, text, sizeBound]
    exact string_size s
  | array items => by
    have inside := intercalate_size (itemTexts items)
    have bounded := itemTexts_size items
    have opening : ("[").utf8ByteSize = 1 := by decide
    have closing : ("]").utf8ByteSize = 1 := by decide
    rw [size, text, sizeBound, Json.array, utf8ByteSize_append, utf8ByteSize_append]
    omega
  | object fields => by
    have inside := intercalate_size ((fieldTexts fields).map fun field => Json.string field.1 ++ ":" ++ field.2)
    have bounded := fieldTexts_size fields
    have opening : ("\x7b").utf8ByteSize = 1 := by decide
    have closing : ("\x7d").utf8ByteSize = 1 := by decide
    rw [List.map_map] at inside
    rw [size, text, sizeBound, Json.object, utf8ByteSize_append, utf8ByteSize_append]
    simp only [Function.comp_def] at inside
    omega

theorem itemTexts_size : (items : List Value) →
    ((itemTexts items).map fun item => item.utf8ByteSize + 1).sum ≤ itemsBound items
  | [] => by simp [itemTexts, itemsBound]
  | item :: items => by
    have first := size_le item
    have rest := itemTexts_size items
    rw [itemTexts, itemsBound, map_cons, sum_cons]
    rw [size] at first
    omega

theorem fieldTexts_size : (fields : List (String × Value)) → ((fieldTexts fields).map fun field =>
      (Json.string field.1 ++ ":" ++ field.2).utf8ByteSize + 1).sum ≤ fieldsBound fields
  | [] => by simp [fieldTexts, fieldsBound]
  | (name, value) :: fields => by
    have named := string_size name
    have first := size_le value
    have rest := fieldTexts_size fields
    have colon : (":").utf8ByteSize = 1 := by decide
    rw [fieldTexts, fieldsBound, map_cons, sum_cons, utf8ByteSize_append, utf8ByteSize_append]
    rw [size] at first
    show (Json.string name).utf8ByteSize + _ + value.text.utf8ByteSize + 1 + _ ≤ _
    omega

end

end Value

end SekaiChisei.Lib.Json
