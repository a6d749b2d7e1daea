import Mathlib.Data.List.Basic

/-! Texts as bytes, and bytes as hexadecimal text: written in lower case, read in either. -/

namespace SekaiChisei.Lib
open List String

/-- `str::as_bytes`. -/
def utf8 (text : String) : List UInt8 := text.toByteArray.data.toList

theorem utf8_injective : Function.Injective utf8 := by
  intro a b same
  have arrays : a.toByteArray = b.toByteArray := ByteArray.ext (Array.toList_inj.mp same)
  exact String.toByteArray_inj.mp arrays

def hexDigit (n : Nat) : Char :=
  if n < 10 then Char.ofNat (48 + n) else Char.ofNat (87 + n)

def isHexDigit (c : Char) : Bool :=
  c.isDigit || ('a' ≤ c && c ≤ 'f') || ('A' ≤ c && c ≤ 'F')

def hexValue (c : Char) : Nat :=
  if c.isDigit then c.toNat - 48 else if 'a' ≤ c then c.toNat - 87 else c.toNat - 55

def hexPair (byte : UInt8) : List Char := [hexDigit (byte.toNat / 16), hexDigit (byte.toNat % 16)]

def toHex (bytes : List UInt8) : String := String.ofList (bytes.flatMap hexPair)

def ofHexPairs : List Char → List UInt8
  | high :: low :: rest => UInt8.ofNat (16 * hexValue high + hexValue low) :: ofHexPairs rest
  | _ => []

theorem hexDigit_spec : ∀ n < 16, hexValue (hexDigit n) = n ∧ isHexDigit (hexDigit n) := by
  decide

theorem ofHexPairs_hexPair (bytes : List UInt8) : ofHexPairs (bytes.flatMap hexPair) = bytes := by
  induction bytes with
  | nil => rfl
  | cons byte bytes ih =>
    have small := byte.toNat_lt
    have high := (hexDigit_spec (byte.toNat / 16) (by omega)).1
    have low := (hexDigit_spec (byte.toNat % 16) (by omega)).1
    have whole : 16 * (byte.toNat / 16) + byte.toNat % 16 = byte.toNat := by omega
    rw [flatMap_cons, hexPair, cons_append, cons_append, nil_append, ofHexPairs,
      high, low, whole, UInt8.ofNat_toNat, ih]

theorem toHex_injective {a b : List UInt8} (same : toHex a = toHex b) : a = b := by
  have chars := ofList_injective same
  rw [← ofHexPairs_hexPair a, chars, ofHexPairs_hexPair]

theorem mem_toHex {bytes : List UInt8} {c : Char} (member : c ∈ (toHex bytes).toList) : isHexDigit c := by
  rw [toHex, toList_ofList, mem_flatMap] at member
  obtain ⟨byte, _, digit⟩ := member
  have small := byte.toNat_lt
  simp only [hexPair, mem_cons, not_mem_nil, or_false] at digit
  rcases digit with rfl | rfl
  · exact (hexDigit_spec _ (by omega)).2
  · exact (hexDigit_spec _ (by omega)).2

theorem ofHexPairs_length (chars : List Char) : (ofHexPairs chars).length = chars.length / 2 := by
  fun_induction ofHexPairs chars with
  | case1 high low rest ih =>
    simp only [length_cons, ih]
    omega
  | case2 chars short =>
    match chars, short with
    | [], _ => rfl
    | [only], _ => simp
    | a :: b :: rest, short => exact absurd rfl (short a b rest)

theorem isHexDigit_size {c : Char} (digit : isHexDigit c) : c.utf8Size = 1 := by
  rw [Char.utf8Size_eq_one_iff]
  simp only [isHexDigit, Char.isDigit, Bool.or_eq_true, Bool.and_eq_true, decide_eq_true_eq, Char.le_def] at digit
  rcases digit with (⟨_, digit⟩ | ⟨_, digit⟩) | ⟨_, digit⟩
  · exact UInt32.le_trans digit (by decide)
  · exact UInt32.le_trans digit (by decide)
  · exact UInt32.le_trans digit (by decide)

theorem utf8ByteSize_hex {text : String} (digits : ∀ c ∈ text.toList, isHexDigit c) :
    text.utf8ByteSize = text.toList.length := by
  have bytes (chars : List Char) (digits : ∀ c ∈ chars, isHexDigit c) :
      (String.ofList chars).utf8ByteSize = chars.length := by
    induction chars with
    | nil => rfl
    | cons c chars ih =>
      obtain ⟨first, rest⟩ := forall_mem_cons.mp digits
      rw [ofList_cons, utf8ByteSize_append, utf8ByteSize_singleton, isHexDigit_size first, ih rest, length_cons]
      omega
  have whole := bytes text.toList digits
  rwa [ofList_toList] at whole

theorem toHex_size (bytes : List UInt8) : (toHex bytes).utf8ByteSize = bytes.length * 2 := by
  rw [utf8ByteSize_hex fun c member => mem_toHex member, toHex, toList_ofList]
  induction bytes with
  | nil => rfl
  | cons byte bytes ih =>
    rw [flatMap_cons, List.length_append, ih, length_cons]
    simp only [hexPair, length_cons, length_nil]
    omega

end SekaiChisei.Lib
