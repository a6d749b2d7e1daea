import Mathlib
import SekaiChisei.Lib.Hex
import SekaiChisei.Lib.Text

/-! JSON text as `serde_json` writes it: no spaces, and the escapes of its string writer. The text of
an array of numbers, strings and objects of strings determines its items. -/

namespace SekaiChisei.Lib.Json

def escape (c : Char) : List Char :=
  if c = '"' then ['\\', '"']
  else if c = '\\' then ['\\', '\\']
  else if c.toNat = 0x08 then ['\\', 'b']
  else if c.toNat = 0x09 then ['\\', 't']
  else if c.toNat = 0x0A then ['\\', 'n']
  else if c.toNat = 0x0C then ['\\', 'f']
  else if c.toNat = 0x0D then ['\\', 'r']
  else if c.toNat < 0x20 then ['\\', 'u', '0', '0', hexDigit (c.toNat / 16), hexDigit (c.toNat % 16)]
  else [c]

def string (s : String) : String :=
  String.ofList (['"'] ++ s.toList.flatMap escape ++ ['"'])

def number (n : Int) : String := toString n

def array (items : List String) : String := "[" ++ String.intercalate "," items ++ "]"

def object (fields : List (String × String)) : String :=
  "\x7b" ++ String.intercalate "," (fields.map fun field => string field.1 ++ ":" ++ field.2) ++ "\x7d"

def unescape : List Char → Option (Char × List Char)
  | '\\' :: '"' :: rest => some ('"', rest)
  | '\\' :: '\\' :: rest => some ('\\', rest)
  | '\\' :: 'b' :: rest => some (Char.ofNat 0x08, rest)
  | '\\' :: 't' :: rest => some (Char.ofNat 0x09, rest)
  | '\\' :: 'n' :: rest => some (Char.ofNat 0x0A, rest)
  | '\\' :: 'f' :: rest => some (Char.ofNat 0x0C, rest)
  | '\\' :: 'r' :: rest => some (Char.ofNat 0x0D, rest)
  | '\\' :: 'u' :: _ :: _ :: high :: low :: rest =>
    some (Char.ofNat (16 * hexValue high + hexValue low), rest)
  | c :: rest => some (c, rest)
  | [] => none

variable {c : Char} {rest : List Char}

theorem ofNat_of_toNat {n : Nat} (same : c.toNat = n) : Char.ofNat n = c := by
  rw [← same, Char.ofNat_toNat]

theorem unescape_escape : unescape (escape c ++ rest) = some (c, rest) := by
  unfold escape
  split
  · rename_i same
    rw [same]
    rfl
  split
  · rename_i same
    rw [same]
    rfl
  iterate 5
    split
    · rename_i same
      exact congrArg (fun c => some (c, rest)) (ofNat_of_toNat same)
  split
  · have high := (hexDigit_spec (c.toNat / 16) (by omega)).1
    have low := (hexDigit_spec (c.toNat % 16) (by omega)).1
    have whole : c.toNat = 16 * (c.toNat / 16) + c.toNat % 16 := by omega
    simp only [List.cons_append, List.nil_append, unescape, high, low]
    rw [ofNat_of_toNat whole]
  · unfold unescape
    split <;> simp_all

variable {r s : List Char} {d : Char}

theorem escape_append_inj (same : escape c ++ r = escape d ++ s) : c = d ∧ r = s := by
  have read := congrArg unescape same
  rw [unescape_escape, unescape_escape] at read
  simpa using read

theorem escape_head : escape c ++ r ≠ '"' :: s := by
  intro same
  unfold escape at same
  split_ifs at same <;> simp_all

/-- The end of a string is where its first bare quote is. -/
theorem string_inside_inj {a b : List Char}
    (same : a.flatMap escape ++ '"' :: r = b.flatMap escape ++ '"' :: s) : a = b ∧ r = s := by
  induction a generalizing b with
  | nil =>
    cases b with
    | nil => simpa using same
    | cons d b =>
      rw [List.flatMap_cons, List.append_assoc] at same
      exact absurd same.symm (escape_head)
  | cons c a ih =>
    cases b with
    | nil =>
      rw [List.flatMap_cons, List.append_assoc] at same
      exact absurd same (escape_head)
    | cons d b =>
      rw [List.flatMap_cons, List.flatMap_cons, List.append_assoc, List.append_assoc] at same
      obtain ⟨rfl, tails⟩ := escape_append_inj same
      obtain ⟨rfl, rests⟩ := ih tails
      exact ⟨rfl, rests⟩

inductive Item where
  | number (n : Int)
  | string (s : String)
  | fields (entries : List (String × String))

def Item.text : Item → String
  | number n => Json.number n
  | string s => Json.string s
  | fields entries => object (entries.map fun entry => (entry.1, Json.string entry.2))

def separator (c : Char) : Prop := c = ',' ∨ c = ']'

def numberChar (c : Char) : Bool := c.isDigit || c == '-'

theorem separator_not_number (sep : separator c) : numberChar c = false := by
  rcases sep with rfl | rfl <;> decide

variable {n : Int} {entries : List (String × String)} {items : List Item}

theorem mem_number (member : c ∈ (number n).toList) : numberChar c := by
  have digits (m : Nat) {c : Char} (member : c ∈ m.repr.toList) : numberChar c := by
    rw [Nat.toList_repr] at member
    simp [numberChar, Nat.isDigit_of_mem_toDigits (by decide) (by decide) member]
  cases n with
  | ofNat m => exact digits m member
  | negSucc m =>
    change c ∈ ("-" ++ (m + 1).repr).toList at member
    rw [String.toList_append, List.mem_append] at member
    rcases member with sign | rest
    · obtain rfl : c = '-' := by simpa using sign
      decide
    · exact digits (m + 1) rest

theorem number_inj {m : Int} (same : (number m).toList = (number n).toList) : m = n :=
  Int.repr_inj.mp (String.toList_inj.mp same)

theorem string_append (s : String) : (string s).toList ++ rest = '"' :: (s.toList.flatMap escape ++ '"' :: rest) := by
  simp [string]

theorem string_append_inj {a b : String}
    (same : (string a).toList ++ r = (string b).toList ++ s) : a = b ∧ r = s := by
  rw [string_append, string_append, List.cons.injEq] at same
  obtain ⟨chars, rests⟩ := string_inside_inj same.2
  exact ⟨String.toList_injective chars, rests⟩

def fieldsTail : List (String × String) → List Char
  | [] => ['\x7d']
  | [entry] => (string entry.1).toList ++ ':' :: ((string entry.2).toList ++ ['\x7d'])
  | entry :: next :: entries =>
    (string entry.1).toList ++ ':' :: ((string entry.2).toList ++ ',' :: fieldsTail (next :: entries))

theorem fields_chars : (Item.fields entries).text.toList = '\x7b' :: fieldsTail entries := by
  have inside : (String.intercalate "," ((entries.map fun entry => (entry.1, string entry.2)).map
      fun field => string field.1 ++ ":" ++ field.2) ++ "\x7d").toList = fieldsTail entries := by
    fun_induction fieldsTail entries with
    | case1 => rfl
    | case2 entry => simp [String.intercalate_singleton]
    | case3 entry next entries ih =>
      simp only [List.map_cons] at ih ⊢
      rw [← ih]
      simp
  rw [Item.text, object, String.append_assoc, String.toList_append, inside]
  rfl

theorem field_append_inj {a b : String × String} (same : (string a.1).toList ++ ':' :: ((string a.2).toList ++ r) =
      (string b.1).toList ++ ':' :: ((string b.2).toList ++ s)) : a = b ∧ r = s := by
  obtain ⟨keys, values⟩ := string_append_inj same
  obtain ⟨texts, rests⟩ := string_append_inj (List.cons.inj values).2
  exact ⟨Prod.ext keys texts, rests⟩

theorem fieldsTail_cons (entry : String × String) :
    fieldsTail (entry :: entries) ++ rest = (string entry.1).toList ++ ':' :: ((string entry.2).toList ++
        if entries = [] then '\x7d' :: rest else ',' :: (fieldsTail entries ++ rest)) := by
  cases entries <;> simp [fieldsTail]

/-- A list closed by a character of its own is read back when each of its items is. -/
theorem closed_inj {α : Type} (text : α → List Char) (tail : List α → List Char) {close : Char}
    (readable : ∀ {a b r s}, text a ++ r = text b ++ s → a = b ∧ r = s)
    (opens : ∀ a r s, text a ++ r ≠ close :: s) (other : close ≠ ',') (nil : tail [] = [close])
    (cons : ∀ item items rest, tail (item :: items) ++ rest =
      text item ++ if items = [] then close :: rest else ',' :: (tail items ++ rest))
    {a b : List α} (same : tail a ++ r = tail b ++ s) : a = b ∧ r = s := by
  induction a generalizing b with
  | nil =>
    rw [nil] at same
    cases b with
    | nil =>
      rw [nil] at same
      exact ⟨rfl, (List.cons.inj same).2⟩
    | cons item b =>
      rw [cons] at same
      exact absurd same.symm (opens _ _ _)
  | cons item a ih =>
    rw [cons] at same
    cases b with
    | nil =>
      rw [nil] at same
      exact absurd same (opens _ _ _)
    | cons next b =>
      rw [cons] at same
      obtain ⟨rfl, rests⟩ := readable same
      by_cases lastA : a = []
      · by_cases lastB : b = []
        · rw [if_pos lastA, if_pos lastB] at rests
          exact ⟨by rw [lastA, lastB], (List.cons.inj rests).2⟩
        · rw [if_pos lastA, if_neg lastB] at rests
          exact absurd (List.cons.inj rests).1 other
      · by_cases lastB : b = []
        · rw [if_neg lastA, if_pos lastB] at rests
          exact absurd (List.cons.inj rests).1 other.symm
        · rw [if_neg lastA, if_neg lastB] at rests
          obtain ⟨rfl, ends⟩ := ih (List.cons.inj rests).2
          exact ⟨rfl, ends⟩

theorem fieldsTail_inj {a b : List (String × String)} (same : fieldsTail a ++ r = fieldsTail b ++ s) :
    a = b ∧ r = s := by
  refine closed_inj (fun entry : String × String => (string entry.1).toList ++ ':' :: (string entry.2).toList)
    fieldsTail
    ?_ ?_ (by decide) rfl ?_ same
  · intro a b r s same
    rw [List.append_assoc, List.append_assoc] at same
    exact field_append_inj same
  · intro a r s same
    simp [string_append] at same
  · intro item items rest
    simp only [List.append_assoc]
    exact fieldsTail_cons item

theorem fields_append_inj {a b : List (String × String)}
    (same : (Item.fields a).text.toList ++ r = (Item.fields b).text.toList ++ s) : a = b ∧ r = s := by
  rw [fields_chars, fields_chars] at same
  exact fieldsTail_inj (List.cons.inj same).2

theorem number_not_head (sep : separator c)
    (bare : numberChar d = false) (within : ¬ separator d) : (number n).toList ++ c :: r ≠ d :: s := by
  intro same
  cases digits : (number n).toList with
  | nil =>
    rw [digits] at same
    exact within ((List.cons.inj same).1 ▸ sep)
  | cons first rest =>
    rw [digits] at same
    obtain rfl : first = d := (List.cons.inj same).1
    have member : first ∈ (number n).toList := by
      rw [digits]
      exact List.mem_cons_self
    simp [mem_number member] at bare

theorem number_not_quote (sep : separator c) : (number n).toList ++ c :: r ≠ '"' :: s :=
  number_not_head sep (by decide) (by simp [separator])

theorem number_not_brace (sep : separator c) : (number n).toList ++ c :: r ≠ '\x7b' :: s :=
  number_not_head sep (by decide) (by simp [separator])

theorem item_inj {a b : Item} (sepA : separator c) (sepB : separator d)
    (same : a.text.toList ++ c :: r = b.text.toList ++ d :: s) : a = b ∧ c = d ∧ r = s := by
  cases a with
  | number n =>
    cases b with
    | number m =>
      obtain ⟨texts, ends⟩ := run_inj (fun x member => mem_number member)
        (fun x member => mem_number member) (separator_not_number sepA) (separator_not_number sepB) same
      obtain rfl : n = m := number_inj texts
      exact ⟨rfl, ends⟩
    | string t =>
      change _ = (string t).toList ++ d :: s at same
      rw [string_append] at same
      exact absurd same (number_not_quote sepA)
    | fields entries =>
      rw [fields_chars] at same
      exact absurd same (number_not_brace sepA)
  | string t =>
    change (string t).toList ++ c :: r = _ at same
    cases b with
    | number m =>
      rw [string_append] at same
      exact absurd same.symm (number_not_quote sepB)
    | string u =>
      obtain ⟨rfl, ends⟩ := string_append_inj same
      exact ⟨rfl, List.cons.inj ends⟩
    | fields entries =>
      rw [string_append, fields_chars] at same
      exact absurd (List.cons.inj same).1 (by decide)
  | fields entries =>
    cases b with
    | number m =>
      rw [fields_chars] at same
      exact absurd same.symm (number_not_brace sepB)
    | string u =>
      change _ = (string u).toList ++ d :: s at same
      rw [string_append, fields_chars] at same
      exact absurd (List.cons.inj same).1 (by decide)
    | fields others =>
      obtain ⟨rfl, ends⟩ := fields_append_inj same
      exact ⟨rfl, List.cons.inj ends⟩

def arrayTail : List Item → List Char
  | [] => [']']
  | [item] => item.text.toList ++ [']']
  | item :: next :: items => item.text.toList ++ ',' :: arrayTail (next :: items)

theorem array_chars : (array (items.map Item.text)).toList = '[' :: arrayTail items := by
  have inside : (String.intercalate "," (items.map Item.text) ++ "]").toList = arrayTail items := by
    fun_induction arrayTail items with
    | case1 => rfl
    | case2 item =>
      rw [String.toList_append]
      rfl
    | case3 item next items ih =>
      rw [List.map_cons, List.map_cons, String.intercalate_cons_cons, String.append_assoc,
        String.append_assoc, String.toList_append, String.toList_append, ← ih, List.map_cons]
      rfl
  rw [array, String.append_assoc, String.toList_append, inside]
  rfl

theorem arrayTail_cons (item : Item) : arrayTail (item :: items) ++ rest =
      item.text.toList ++ if items = [] then ']' :: rest else ',' :: (arrayTail items ++ rest) := by
  cases items <;> simp [arrayTail]

theorem array_fields_inj {a b : List (List (String × String))}
    (same : (array (a.map fun entries => (Item.fields entries).text)).toList ++ r =
      (array (b.map fun entries => (Item.fields entries).text)).toList ++ s) : a = b ∧ r = s := by
  have chars (l : List (List (String × String))) : (array (l.map fun entries => (Item.fields entries).text)).toList =
      '[' :: arrayTail (l.map .fields) := by
    rw [← array_chars, List.map_map]
    rfl
  rw [chars, chars] at same
  refine closed_inj (fun entries => (Item.fields entries).text.toList) (fun l => arrayTail (l.map .fields))
    fields_append_inj ?_ (by decide) rfl ?_ (List.cons.inj same).2
  · intro a r s same
    simp [fields_chars] at same
  · intro item items rest
    rw [List.map_cons, arrayTail_cons]
    simp

variable {a b : List Item} (length : a.length = b.length)
include length

theorem arrayTail_inj (same : arrayTail a = arrayTail b) : a = b := by
  induction a generalizing b with
  | nil => exact (List.length_eq_zero_iff.mp length.symm).symm
  | cons item items ih =>
    obtain ⟨other, others, rfl⟩ := List.exists_cons_of_length_eq_add_one length.symm
    have tails : items.length = others.length := by simpa using length
    cases items with
    | nil =>
      obtain rfl := List.length_eq_zero_iff.mp tails.symm
      obtain ⟨rfl, _⟩ := item_inj (.inr rfl) (.inr rfl) same
      rfl
    | cons next items =>
      obtain ⟨otherNext, others, rfl⟩ := List.exists_cons_of_length_eq_add_one tails.symm
      obtain ⟨rfl, _, rest⟩ := item_inj (.inl rfl) (.inl rfl) same
      rw [ih tails rest]

theorem array_inj (same : array (a.map Item.text) = array (b.map Item.text)) : a = b := by
  have chars := congrArg String.toList same
  rw [array_chars, array_chars, List.cons.injEq] at chars
  exact arrayTail_inj length chars.2

end SekaiChisei.Lib.Json
