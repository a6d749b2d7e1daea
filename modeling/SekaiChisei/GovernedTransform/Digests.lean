import SekaiChisei.Lib.OrderedMap
import SekaiChisei.Shomei.Bundle

/-!
Row digests, `sekai-types/src/governed_transform.rs`: 256-bit sums of row hashes, their text and its parsers. A row is
read in key order or by key only, so that its `HashMap` is an ordered map.
-/

namespace SekaiChisei.GovernedTransform
open Lib Shomei List Option String

abbrev Row := OrderedMap String String

/-- `[u8; 32]`. -/
@[ext] structure Bytes32 where
  bytes : List UInt8
  length : bytes.length = 32

instance : DecidableEq Bytes32 := fun a b => decidable_of_iff (a.bytes = b.bytes) Bytes32.ext_iff.symm

def outputDigestPrefix : String := "sha256-sum-v1:"
def partitionedDigestPrefix : String := "sha256-partitions-v1:"

def rowCanonicalHash (sha256 : List UInt8 → Bytes32) (row : Row) : Bytes32 :=
  sha256 (utf8 (Json.object (row.entries.map fun entry => (entry.1, Json.string entry.2))))

/-- One round of the loop of `add_u256`, with the carry of the bytes to the right. -/
def addByte (pair : UInt8 × UInt8) (done : List UInt8 × UInt16) : List UInt8 × UInt16 :=
  let sum := pair.1.toUInt16 + pair.2.toUInt16 + done.2
  (sum.toUInt8 :: done.1, sum >>> 8)

def addBytes (acc addend : List UInt8) : List UInt8 × UInt16 := (acc.zip addend).foldr addByte ([], 0)

def value (bytes : List UInt8) : Nat := Nat.ofDigits 256 (bytes.reverse.map UInt8.toNat)

theorem value_cons (byte : UInt8) (bytes : List UInt8) :
    value (byte :: bytes) = value bytes + 256 ^ bytes.length * byte.toNat := by
  simp [value, Nat.ofDigits_append]

theorem digits_lt (bytes : List UInt8) : ∀ digit ∈ bytes.reverse.map UInt8.toNat, digit < 256 := by
  intro digit member
  obtain ⟨byte, _, rfl⟩ := List.mem_map.mp member
  exact byte.toNat_lt

theorem addByte_toNat (x y : UInt8) {done : List UInt8 × UInt16} (carried : done.2.toNat ≤ 1) :
    ∃ sum, sum = x.toNat + y.toNat + done.2.toNat ∧ (addByte (x, y) done).2.toNat = sum / 256 ∧
      value (addByte (x, y) done).1 = value done.1 + 256 ^ done.1.length * (sum % 256) := by
  have lowX := x.toNat_lt
  have lowY := y.toNat_lt
  have exact : (x.toUInt16 + y.toUInt16 + done.2).toNat = x.toNat + y.toNat + done.2.toNat := by
    rw [UInt16.toNat_add, UInt16.toNat_add, UInt8.toNat_toUInt16, UInt8.toNat_toUInt16]
    omega
  refine ⟨_, rfl, ?_, ?_⟩
  · rw [addByte, UInt16.toNat_shiftRight, exact]
    exact Nat.shiftRight_eq_div_pow _ 8
  · rw [addByte, value_cons, UInt16.toNat_toUInt8, exact]

theorem addBytes_value {a b : List UInt8} (length : a.length = b.length) :
    (addBytes a b).1.length = a.length ∧ (addBytes a b).2.toNat ≤ 1 ∧
      value (addBytes a b).1 + (addBytes a b).2.toNat * 256 ^ a.length = value a + value b := by
  induction a generalizing b with
  | nil =>
    cases List.length_eq_zero_iff.mp length.symm
    exact ⟨rfl, Nat.zero_le 1, rfl⟩
  | cons x a ih =>
    cases b with
    | nil => cases length
    | cons y b =>
      have tails : a.length = b.length := Nat.succ.inj length
      obtain ⟨same, carried, total⟩ := ih tails
      obtain ⟨sum, added, carry, first⟩ := addByte_toNat x y carried
      have lowX := x.toNat_lt
      have lowY := y.toNat_lt
      refine ⟨congrArg Nat.succ same, ?_, ?_⟩
      · show (addByte (x, y) (addBytes a b)).2.toNat ≤ 1
        omega
      · show value (addByte (x, y) (addBytes a b)).1 + (addByte (x, y) (addBytes a b)).2.toNat * _ = _
        have split := congrArg (256 ^ a.length * ·) (Nat.mod_add_div sum 256)
        rw [carry, first, same, value_cons, value_cons, length_cons, ← tails, Nat.pow_succ]
        simp only [added, Nat.mul_add] at split ⊢
        rw [← Nat.mul_assoc, Nat.mul_comm _ (_ / 256)] at split
        rw [Nat.mul_comm _ (256 ^ a.length)] at total
        omega

def addU256 (acc addend : Bytes32) : Bytes32 where
  bytes := (addBytes acc.bytes addend.bytes).1
  length := (addBytes_value (acc.length.trans addend.length.symm)).1.trans acc.length

theorem addU256_value (acc addend : Bytes32) :
    value (addU256 acc addend).bytes = (value acc.bytes + value addend.bytes) % 256 ^ 32 := by
  obtain ⟨_, _, total⟩ := addBytes_value (acc.length.trans addend.length.symm)
  have low : value (addU256 acc addend).bytes < 256 ^ 32 := by
    have below := Nat.ofDigits_lt_base_pow_length (by decide) (digits_lt (addU256 acc addend).bytes)
    rwa [List.length_map, length_reverse, (addU256 acc addend).length] at below
  rw [acc.length] at total
  rw [← total, Nat.add_mul_mod_self_right]
  exact (Nat.mod_eq_of_lt low).symm

theorem Bytes32.ext_value {a b : Bytes32} (same : value a.bytes = value b.bytes) : a = b := by
  obtain ⟨a, lengthA⟩ := a
  obtain ⟨b, lengthB⟩ := b
  have lengths : (a.reverse.map UInt8.toNat).length = (b.reverse.map UInt8.toNat).length := by
    rw [List.length_map, List.length_map, length_reverse, length_reverse, lengthA, lengthB]
  have digits := Nat.ofDigits_inj_of_len_eq (by decide) lengths (digits_lt a) (digits_lt b) same
  cases reverse_injective (map_injective_iff.mpr (fun _ _ => UInt8.toNat_inj.mp) digits)
  rfl

theorem addU256_right_comm (acc a b : Bytes32) : addU256 (addU256 acc a) b = addU256 (addU256 acc b) a := by
  apply Bytes32.ext_value
  rw [addU256_value, addU256_value, addU256_value, addU256_value, Nat.mod_add_mod, Nat.mod_add_mod,
    Nat.add_right_comm]

def zeros : Bytes32 := ⟨List.replicate 32 0, List.length_replicate⟩

def encodePrefixedDigest (label : String) (digest : Bytes32) : String := label ++ toHex digest.bytes

def encodeDigest (digest : Bytes32) : String := encodePrefixedDigest outputDigestPrefix digest

/-- The characters that `u8::from_str_radix` sees: a byte of a longer character, whether its chunk is UTF-8 or not, is
no digit. -/
def chunkChars (hex : List Char) : List Char := (utf8 (String.ofList hex)).map fun byte => Char.ofNat byte.toNat

def parsePrefixedDigest (text label : String) : Option Bytes32 := do
  let hex ← text.toList.dropPrefix? label.toList
  if (chunkChars hex).length ≠ 64 then none
  else
    let digest ← hexBytes (chunkChars hex)
    -- Sixty-four characters are thirty-two bytes.
    if length : digest.length = 32 then some ⟨digest, length⟩ else none

def parseOutputDigest (text : String) : Option Bytes32 := parsePrefixedDigest text outputDigestPrefix

def parsePartitionedDigest (text : String) : Option Bytes32 := parsePrefixedDigest text partitionedDigestPrefix

variable {digest : Bytes32} {text label : String}

theorem parsePrefixedDigest_eq_some :
    parsePrefixedDigest text label = some digest ↔ ∃ hex, text = label ++ String.ofList hex ∧
      (chunkChars hex).length = 64 ∧ hexBytes (chunkChars hex) = some digest.bytes := by
  unfold parsePrefixedDigest
  simp only [bind_eq_bind, bind_eq_some_iff, dropPrefix?_eq_some_iff, beq_iff_eq]
  constructor
  · rintro ⟨hex, ⟨_, split, rfl⟩, parsed⟩
    split at parsed
    · cases parsed
    · rename_i sized
      obtain ⟨bytes, read, parsed⟩ := bind_eq_some_iff.mp parsed
      split at parsed
      · cases parsed
        refine ⟨hex, ?_, not_not.mp sized, read⟩
        rw [← toList_inj, split, toList_append, toList_ofList]
      · cases parsed
  · rintro ⟨hex, rfl, sized, read⟩
    refine ⟨hex, ⟨_, by rw [toList_append, toList_ofList], rfl⟩, ?_⟩
    rw [if_neg (not_not.mpr sized), read, bind_some, dif_pos digest.length]

def isLowerHexDigit (c : Char) : Bool := c.isDigit || ('a' ≤ c && c ≤ 'f')

theorem hexDigit_lower : ∀ n < 16, isLowerHexDigit (hexDigit n) := by
  decide

theorem hexDigit_hexValue {c : Char} (lower : isLowerHexDigit c) :
    isHexDigit c ∧ hexValue c < 16 ∧ hexDigit (hexValue c) = c := by
  have digit : isHexDigit c := by
    rw [isHexDigit, Bool.or_eq_true]
    exact .inl lower
  have ascii : c.toNat ≤ 127 := Char.utf8Size_eq_one_iff.mp (isHexDigit_size digit)
  have all : ∀ n < 128, isLowerHexDigit (Char.ofNat n) →
      hexValue (Char.ofNat n) < 16 ∧ hexDigit (hexValue (Char.ofNat n)) = Char.ofNat n := by decide
  have this := all c.toNat (by omega)
  rw [Char.ofNat_toNat] at this
  exact ⟨digit, this lower⟩

theorem hexPairs_of_lower {chars : List Char} {bytes : List UInt8} (read : hexBytes chars = some bytes)
    (paired : chars.length = bytes.length * 2) (lower : ∀ c ∈ chars, isLowerHexDigit c) :
    bytes.flatMap hexPair = chars := by
  fun_induction hexBytes chars generalizing bytes with
  | case1 high low rest ih =>
    obtain ⟨byte, first, read⟩ := bind_eq_some_iff.mp read
    obtain ⟨more, later, whole⟩ := bind_eq_some_iff.mp read
    cases whole
    obtain ⟨highHex, highSmall, highSame⟩ := hexDigit_hexValue (lower high mem_cons_self)
    obtain ⟨lowHex, lowSmall, lowSame⟩ := hexDigit_hexValue (lower low (.tail _ mem_cons_self))
    rw [hexByte, if_neg (not_not.mpr lowHex), if_pos highHex] at first
    cases first
    have value : (UInt8.ofNat (16 * hexValue high + hexValue low)).toNat = 16 * hexValue high + hexValue low := by
      rw [UInt8.toNat_ofNat']
      omega
    have tail := ih later (by simp only [length_cons] at paired; omega) fun c member =>
        lower c (.tail _ (.tail _ member))
    rw [flatMap_cons, tail, hexPair, value, Nat.mul_add_div (by decide), Nat.div_eq_of_lt lowSmall,
      Nat.mul_add_mod, Nat.mod_eq_of_lt lowSmall, Nat.add_zero, highSame, lowSame]
    rfl
  | case2 chars short =>
    cases read
    exact (List.length_eq_zero_iff.mp paired).symm

theorem chunkChars_hex {hex : List Char} (digits : ∀ c ∈ hex, isHexDigit c) : chunkChars hex = hex := by
  have encoded : utf8 (String.ofList hex) = hex.flatMap String.utf8EncodeChar := by
    rw [utf8, toByteArray_ofList, List.utf8Encode]
    simp
  rw [chunkChars, encoded, map_flatMap]
  refine (flatMap_congr fun c member => ?_).trans (flatMap_singleton' hex)
  have small := isHexDigit_size (digits c member)
  rw [utf8EncodeChar_eq_singleton small, map_singleton]
  have bound : c.toNat ≤ 127 := Char.utf8Size_eq_one_iff.mp small
  have kept : c.val.toUInt8.toNat = c.toNat := by
    exact Nat.mod_eq_of_lt (Nat.lt_of_le_of_lt bound (by decide))
  rw [kept, Char.ofNat_toNat]

theorem parse_encode (label : String) :
    parsePrefixedDigest (encodePrefixedDigest label digest) label = some digest := by
  have chars : chunkChars (digest.bytes.flatMap hexPair) = digest.bytes.flatMap hexPair :=
    chunkChars_hex fun c member => mem_toHex (by rwa [toHex, toList_ofList])
  have sized := toHex_size digest.bytes
  rw [utf8ByteSize_hex fun c member => mem_toHex member, toHex, toList_ofList, digest.length] at sized
  exact parsePrefixedDigest_eq_some.mpr ⟨_, rfl, by rw [chars, sized], by rw [chars, hexBytes_hexPair]⟩

theorem encode_of_parse (parsed : parsePrefixedDigest text label = some digest) :
    encodePrefixedDigest label digest = text ↔ ∀ c ∈ text.toList.drop label.toList.length, isLowerHexDigit c := by
  obtain ⟨hex, rfl, sized, read⟩ := parsePrefixedDigest_eq_some.mp parsed
  rw [toList_append, drop_left, toList_ofList]
  constructor
  · intro same c member
    have whole := congrArg String.toList same
    rw [encodePrefixedDigest, toList_append, toList_append, toList_ofList] at whole
    rw [← append_cancel_left whole, toHex, toList_ofList] at member
    obtain ⟨byte, _, digit⟩ := mem_flatMap.mp member
    have small := byte.toNat_lt
    simp only [hexPair, mem_cons, not_mem_nil, or_false] at digit
    rcases digit with rfl | rfl
    · exact hexDigit_lower _ (by omega)
    · exact hexDigit_lower _ (by omega)
  · intro lower
    rw [chunkChars_hex fun c member => (hexDigit_hexValue (lower c member)).1] at sized read
    rw [encodePrefixedDigest, toHex, hexPairs_of_lower read (by rw [sized, digest.length]) lower]

/-- A parsed text is the encoding of its digest exactly where its digits are the lower-case ones. -/
theorem parsed_digest_canonical_iff (text : String) (digest : Bytes32) : (parseOutputDigest text = some digest →
      (encodeDigest digest = text ↔ ∀ c ∈ text.toList.drop 14, isLowerHexDigit c)) ∧
    (parsePartitionedDigest text = some digest → (encodePrefixedDigest partitionedDigestPrefix digest = text ↔
        ∀ c ∈ text.toList.drop 21, isLowerHexDigit c)) :=
  ⟨encode_of_parse, encode_of_parse⟩

theorem signed_zeros_parsed :
    parseOutputDigest (outputDigestPrefix ++ String.ofList (List.replicate 32 ['+', '0']).flatten) = some zeros ∧
    encodeDigest zeros ≠ outputDigestPrefix ++ String.ofList (List.replicate 32 ['+', '0']).flatten := by
  decide +kernel

section
variable (sha256 : List UInt8 → Bytes32)

def foldRowHashes (acc : Bytes32) (rows : List Row) : Bytes32 :=
  rows.foldl (fun acc row => addU256 acc (rowCanonicalHash sha256 row)) acc

def rowsDigest (rows : List Row) : String := encodeDigest (foldRowHashes sha256 zeros rows)

def foldOutputDigest (previous : String) (addedRows : List Row) : Option String := do
  let acc ← parseOutputDigest previous
  return encodeDigest (foldRowHashes sha256 acc addedRows)

theorem rowsDigest_perm {a b : List Row} (perm : a.Perm b) : rowsDigest sha256 a = rowsDigest sha256 b := by
  have comm : RightCommutative fun acc row => addU256 acc (rowCanonicalHash sha256 row) :=
    ⟨fun acc _ _ => addU256_right_comm acc _ _⟩
  exact congrArg encodeDigest (perm.foldl_eq zeros)

/-- A digest folded on over appended rows is that of all rows, in any order. -/
theorem incremental_digest (a b : List Row) :
    (∀ other, other.Perm a → rowsDigest sha256 other = rowsDigest sha256 a) ∧
    foldOutputDigest sha256 (rowsDigest sha256 a) b = some (rowsDigest sha256 (a ++ b)) := by
  refine ⟨fun other perm => rowsDigest_perm sha256 perm, ?_⟩
  have parsed : parseOutputDigest (rowsDigest sha256 a) = some (foldRowHashes sha256 zeros a) := parse_encode _
  have both : foldRowHashes sha256 zeros (a ++ b) = foldRowHashes sha256 (foldRowHashes sha256 zeros a) b :=
    foldl_append
  rw [foldOutputDigest, parsed, rowsDigest, both]
  rfl

end

end SekaiChisei.GovernedTransform
