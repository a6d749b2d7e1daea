import SekaiChisei.Parquet.Wire
import SekaiChisei.Parquet.Read

/-!
# Pages read back

A page written by `encode_column` is read back by `read_column`: the definition levels in either
run encoding, then the present values.
-/

namespace SekaiChisei.Parquet
open Lib Lib.Outcome List Option

theorem leU32_leBytes32 {n : Nat} (small : n < 2 ^ 32) : leU32 (leBytes32 n) = pure n := by
  simp only [leBytes32, leU32, UInt8.toNat_ofNat']
  congr 1
  omega

@[simp] theorem leBytes32_length (n : Nat) : (leBytes32 n).length = 4 := rfl

variable {rest : List UInt8}

theorem readUleb128_varint (v : UInt64) : readUleb128 (varint v ++ rest) = pure (v, rest) := by
  refine varint_rule (P := fun _ result shift bytes out =>
    readUleb128From (bytes ++ rest) result shift = pure (out, rest)) ?_ ?_ v
  · intro _ result shift byte small final
    rw [cons_append, readUleb128From, shl64_of_lt small, pure_bind]
    rw [if_pos final, nil_append]
  · intro _ result shift byte bytes out early more reads
    rw [cons_append, readUleb128From, shl64_of_lt (by omega), pure_bind]
    rw [if_neg more, i32Add_of_lt (by omega), pure_bind, if_neg (by omega)]
    exact reads

variable {count : Nat}

theorem rleHeader (small : count < 2 ^ 63) :
    (UInt64.ofNat count <<< 1) &&& 1 = 0 ∧ ((UInt64.ofNat count <<< 1) >>> 1).toNat = count := by
  have value : (UInt64.ofNat count <<< 1).toNat = 2 * count := by
    rw [UInt64.toNat_shiftLeft, UInt64.toNat_ofNat_of_lt' (small.trans (by decide))]
    simp only [UInt64.reduceToNat, Nat.reduceMod]
    omega
  constructor
  · apply UInt64.toNat_inj.mp
    rw [UInt64.toNat_and]
    simp only [UInt64.reduceToNat, Nat.and_one_is_mod]
    omega
  · rw [UInt64.toNat_shiftRight]
    simp only [UInt64.reduceToNat, Nat.reduceMod]
    omega

theorem bitpackHeader (groups : Nat) (small : groups < 2 ^ 63) : ((UInt64.ofNat groups <<< 1) ||| 1) &&& 1 ≠ 0 ∧
      (((UInt64.ofNat groups <<< 1) ||| 1) >>> 1).toNat = groups := by
  have value : ((UInt64.ofNat groups <<< 1) ||| 1).toNat = 2 * groups + 1 := by
    have low := Nat.two_pow_add_eq_or_of_lt (i := 1) (b := 1) (by omega) groups
    rw [UInt64.toNat_or, UInt64.toNat_shiftLeft, UInt64.toNat_ofNat_of_lt' (small.trans (by decide))]
    simp only [UInt64.reduceToNat, Nat.shiftLeft_eq, Nat.reduceMod] at low ⊢
    rw [Nat.mod_eq_of_lt (by omega), Nat.mul_comm, ← low]
  constructor
  · intro zero
    have odd := congrArg UInt64.toNat zero
    rw [UInt64.toNat_and] at odd
    simp only [UInt64.reduceToNat, Nat.and_one_is_mod] at odd
    omega
  · rw [UInt64.toNat_shiftRight]
    simp only [UInt64.reduceToNat, Nat.reduceMod]
    omega

variable {numValues : Nat}

theorem pushRun_eq (value : Bool) (levels : List Bool) (room : levels.length + count ≤ numValues) :
    pushRun numValues value count levels = levels ++ List.replicate count value := by
  induction count generalizing levels with
  | zero => simp [pushRun]
  | succ count ih =>
    rw [pushRun, if_neg (by omega), ih _ (by simp; omega), replicate_succ]
    simp

variable {k : Nat}

theorem setBit_bit (byte : UInt8) {i : Nat} (small : i < 8) (small' : k < 8) :
    ((byte ||| (1 <<< UInt8.ofNat i)) &&& (1 <<< UInt8.ofNat k) != 0) =
      (byte &&& (1 <<< UInt8.ofNat k) != 0 || i == k) := by
  have masks : ∀ i < 8, ∀ k < 8, ((1 : UInt8) <<< UInt8.ofNat i) &&& (1 <<< UInt8.ofNat k) =
      if i = k then 1 <<< UInt8.ofNat k else 0 := by decide +kernel
  have nonzero : ∀ k < 8, (1 : UInt8) <<< UInt8.ofNat k ≠ 0 := by decide +kernel
  have spread (m n : UInt8) : (byte ||| m) &&& n = byte &&& n ||| m &&& n := by
    apply UInt8.toBitVec_inj.mp
    ext j
    simp [Bool.and_or_distrib_right]
  rw [spread, masks i small k small']
  by_cases same : i = k
  · have kept : byte &&& (1 <<< UInt8.ofNat k) ||| (1 <<< UInt8.ofNat k) ≠ 0 := by
      intro zero
      exact nonzero k small' (UInt8.or_eq_zero_iff.mp zero).2
    simp [same, kept]
  · simp [same]

theorem packBits_bit (bit : Nat → Bool) (small : count ≤ 8) (small' : k < 8) : (((List.range count).foldl (fun byte i =>
      if bit i then byte ||| (1 <<< UInt8.ofNat i) else byte) (0 : UInt8)) &&&
        (1 <<< UInt8.ofNat k) != 0) = (decide (k < count) && bit k) := by
  induction count with
  | zero => simp
  | succ count ih =>
    have before := ih (by omega)
    rw [range_succ, foldl_append, foldl_cons, foldl_nil]
    by_cases here : k = count
    · subst here
      cases set : bit k with
      | true => simp [setBit_bit _ small' small']
      | false => simpa [set] using before
    · have later : decide (k < count + 1) = decide (k < count) := by
        simp only [decide_eq_decide]
        omega
      rw [later, ← before]
      split
      · rw [setBit_bit _ (by omega) small']
        simp [Ne.symm here]
      · rfl

theorem packByte_bit (levels : List UInt8) (start : Nat) (small : k < 8) :
    (packByte levels start &&& (1 <<< UInt8.ofNat k) != 0) = (levels[start + k]?).any (· ≠ 0) := by
  have bits := packBits_bit (fun i => (levels[start + i]?).any (· ≠ 0)) (Nat.le_refl _) small
  rw [decide_eq_true small] at bits
  exact bits

/-- The levels of one byte: those of `all` up to the next multiple of eight, or to its end. -/
theorem pushBits_eq (byte : UInt8) (all : List Bool) (length : all.length = numValues) (start count done : Nat)
    (bits : ∀ k < done + count, (byte &&& (1 <<< UInt8.ofNat k) != 0) = (all[start + k]?).any id) :
    pushBits numValues byte (List.range' done count) (all.take (start + done)) = all.take (start + done + count) := by
  induction count generalizing done with
  | zero => rfl
  | succ count ih =>
    rw [range'_succ, pushBits]
    by_cases full : all.length ≤ start + done
    · rw [take_of_length_le full, if_pos length, take_of_length_le (by omega)]
    · have here := bits done (by omega)
      rw [getElem?_eq_getElem (by omega), any_some, id] at here
      rw [length_take, if_neg (by omega), here, take_append_getElem, Nat.add_assoc,
        ih (done + 1) (by intro k below; exact bits k (by omega))]
      congr 1
      omega

def levelOf (present : Bool) : UInt8 := if present then 1 else 0

theorem levelOf_ne_zero (present : Bool) : (levelOf present != 0) = present := by
  cases present <;> rfl

theorem packByte_levelOf (present : List Bool) (start : Nat) (small : k < 8) :
    (packByte (present.map levelOf) start &&& (1 <<< UInt8.ofNat k) != 0) = (present[start + k]?).any id := by
  rw [packByte_bit _ _ small, getElem?_map]
  cases present[start + k]? with
  | none => rfl
  | some value => cases value <;> rfl

theorem pushGroups_packed (present : List Bool) (rest : List UInt8) (groups done : Nat) : pushGroups present.length
        ((List.range' done groups).map (fun group => packByte (present.map levelOf) (group * 8)) ++ rest)
        groups (present.take (done * 8)) = pure (present.take ((done + groups) * 8), rest) := by
  induction groups generalizing done with
  | zero => simp [pushGroups]
  | succ groups ih =>
    have byte := pushBits_eq (packByte (present.map levelOf) (done * 8)) present rfl
      (done * 8) 8 0 fun k small => packByte_levelOf present _ (by omega)
    rw [Nat.add_zero, show done * 8 + 8 = (done + 1) * 8 by omega] at byte
    rw [range'_succ, map_cons, cons_append, pushGroups, range_eq_range', byte, ih (done + 1),
      show done + 1 + groups = done + (groups + 1) by omega]

theorem decodeLevelsLoop_done (rounds : Nat) (encoded : List UInt8)
    {levels : List Bool} (full : levels.length = numValues) :
    decodeLevelsLoop numValues (rounds + 1) encoded levels = pure levels := by
  rw [decodeLevelsLoop, if_neg (by omega)]

theorem decodeLevels_rle {present : Bool} (some : 0 < count) (small : count < 2 ^ 63) :
    decodeLevels (varint (UInt64.ofNat count <<< 1) ++ [levelOf present]) count =
      pure (List.replicate count present) := by
  obtain ⟨even, length⟩ := rleHeader small
  rw [decodeLevels, decodeLevelsLoop, length_nil, if_pos some, readUleb128_varint, pure_bind]
  dsimp only
  rw [if_pos even, length, levelOf_ne_zero, pushRun_eq _ _ (by simp), length_append]
  exact decodeLevelsLoop_done _ _ (by simp)

variable {present : List Bool}

theorem decodeLevels_bitpack (some : 0 < present.length) (small : present.length < 2 ^ 63) :
    decodeLevels (varint ((UInt64.ofNat ((present.length + 7) / 8) <<< 1) ||| 1) ++
      (List.range ((present.length + 7) / 8)).map fun group =>
        packByte (present.map levelOf) (group * 8)) present.length = pure present := by
  obtain ⟨odd, length⟩ := bitpackHeader ((present.length + 7) / 8) (by omega)
  have packed := pushGroups_packed present [] ((present.length + 7) / 8) 0
  have whole : present.take ((0 + (present.length + 7) / 8) * 8) = present :=
    take_of_length_le (by omega)
  rw [whole, take_zero, append_nil, ← range_eq_range'] at packed
  have header := varint_length_pos ((UInt64.ofNat ((present.length + 7) / 8) <<< 1) ||| 1)
  obtain ⟨rounds, more⟩ := Nat.exists_eq_add_of_lt header
  rw [decodeLevels, decodeLevelsLoop, length_nil, if_pos some, readUleb128_varint, pure_bind]
  dsimp only
  rw [if_neg odd, length, packed, pure_bind]
  rw [length_append, more, show ∀ n, 0 + rounds + 1 + n = rounds + n + 1 by omega]
  exact decodeLevelsLoop_done _ _ rfl

theorem readDefinitionLevels_levelRun {encoded : List UInt8} (small : encoded.length < 2 ^ 32) :
    readDefinitionLevels (levelRun encoded ++ rest) numValues =
      decodeLevels encoded numValues >>= fun levels => pure (levels, rest) := by
  have stop : usizeAdd 4 encoded.length = pure (4 + encoded.length) :=
    usizeAdd_of_le (Nat.le_refl _) (by simp only [isizeMax]; omega)
  have count : (levelRun encoded ++ rest).length = 4 + encoded.length + rest.length := by
    simp only [levelRun, length_append, leBytes32_length]
  have frame : levelRun encoded ++ rest = leBytes32 encoded.length ++ (encoded ++ rest) := by
    rw [levelRun, append_assoc]
  have prefix4 : (levelRun encoded ++ rest).take 4 = leBytes32 encoded.length := by
    rw [frame, take_left' (leBytes32_length _)]
  have after4 : (levelRun encoded ++ rest).drop 4 = encoded ++ rest := by
    rw [frame, drop_left' (leBytes32_length _)]
  rw [readDefinitionLevels, if_neg (by omega), prefix4, leU32_leBytes32 small, pure_bind,
    if_neg (by omega), stop, pure_bind, if_neg (by omega), after4, take_left,
    ← drop_drop, after4, drop_left]

theorem varintLoop_length_le (rounds : Nat) (v : UInt64) : (varintLoop rounds v).length ≤ rounds := by
  induction rounds generalizing v with
  | zero => exact Nat.le_refl _
  | succ rounds ih =>
    have := ih (v >>> 7)
    unfold varintLoop
    dsimp only
    split
    · simpa using this
    · simp

theorem readDefinitionLevels_rleRun {present : Bool} (some : 0 < count) (small : count < 2 ^ 32) :
    readDefinitionLevels (rleRun count (levelOf present) ++ rest) count =
      pure (List.replicate count present, rest) := by
  have header := varintLoop_length_le 10 (UInt64.ofNat count <<< 1)
  have short : (varint (UInt64.ofNat count <<< 1) ++ [levelOf present]).length < 2 ^ 32 := by
    simp only [length_append, varint, length_singleton]
    omega
  rw [rleRun, readDefinitionLevels_levelRun short, decodeLevels_rle some (by omega), pure_bind]

theorem readDefinitionLevels_bitpackRun (some : 0 < present.length) (small : present.length < 2 ^ 32) :
    readDefinitionLevels (bitpackRun (present.map levelOf) ++ rest) present.length = pure (present, rest) := by
  have header := varintLoop_length_le 10 ((UInt64.ofNat ((present.length + 7) / 8) <<< 1) ||| 1)
  unfold bitpackRun
  rw [length_map, readDefinitionLevels_levelRun (by
    simp only [length_append, varint, length_map, length_range]
    omega), decodeLevels_bitpack some (by omega), pure_bind]

theorem readDefinitionLevels_encodeDefinitionLevels (values : List (Option (List UInt8)))
    (rest : List UInt8) (small : values.length < 2 ^ 32) :
    readDefinitionLevels (encodeDefinitionLevels values ++ rest) values.length =
      pure (values.map Option.isSome, rest) := by
  have levels : (values.map fun value => if value.isSome then (1 : UInt8) else 0) =
      (values.map Option.isSome).map levelOf := by
    rw [List.map_map]
    rfl
  have length : (values.map Option.isSome).length = values.length := length_map _
  unfold encodeDefinitionLevels
  rw [levels, ← length]
  rw [← length] at small
  generalize values.map Option.isSome = present at small ⊢
  cases present with
  | nil => exact readDefinitionLevels_levelRun (by decide)
  | cons first others =>
    change readDefinitionLevels ((if ((first :: others).map levelOf).all (· == levelOf first)
        then rleRun ((first :: others).map levelOf).length (levelOf first)
        else bitpackRun ((first :: others).map levelOf)) ++ rest) (first :: others).length = _
    split
    · rename_i same
      have all : first :: others = List.replicate (first :: others).length first := by
        refine eq_replicate_iff.mpr ⟨rfl, fun other member => ?_⟩
        have level := List.all_eq_true.mp same _ (List.mem_map_of_mem member)
        cases first <;> cases other <;> first | rfl | exact absurd level (by decide)
      rw [length_map, readDefinitionLevels_rleRun (by simp) small, ← all]
    · exact readDefinitionLevels_bitpackRun (by simp) small

def cellBytes : Option (List UInt8) → List UInt8
  | some value => leBytes32 value.length ++ value
  | none => []

theorem readCells_cellBytes (values cells : List (Option String))
    (small : (values.flatMap fun value => cellBytes (value.map strBytes)).length < 2 ^ 32) :
    readCells (values.map Option.isSome) (values.flatMap fun value => cellBytes (value.map strBytes)) cells =
      pure (cells ++ values) := by
  induction values generalizing cells with
  | nil => simp [readCells]
  | cons value values ih =>
    rw [flatMap_cons, length_append] at small
    cases value with
    | none =>
      have rest := ih (cells ++ [none]) (by omega)
      simpa [readCells, cellBytes] using rest
    | some text =>
      have rest := ih (cells ++ [some text]) (by omega)
      simp only [map_some, cellBytes, length_append] at small
      rw [map_cons, isSome_some, flatMap_cons, map_some, cellBytes,
        append_assoc, readCells, if_neg (by simp), take_left' (leBytes32_length _),
        leU32_leBytes32 (by omega), pure_bind, drop_left' (leBytes32_length _)]
      rw [if_neg (by simp), take_left, drop_left, fromUtf8_strBytes]
      dsimp only
      rw [rest]
      simp

theorem encodeColumn_eq (values : List (Option (List UInt8))) (required : Bool) : encodeColumn values required =
      let body := (if required then [] else encodeDefinitionLevels values) ++ values.flatMap cellBytes
      pageHeader (Int32.ofNat values.length) (Int32.ofNat body.length) ++ body := rfl

theorem decodePageBody_encoded (values : List (Option String)) (required : Bool)
    (present : required → ∀ value ∈ values, value.isSome) (few : values.length < 2 ^ 32)
    (small : (values.flatMap fun value => cellBytes (value.map strBytes)).length < 2 ^ 32) :
    decodePageBody ((if required then [] else encodeDefinitionLevels (values.map (Option.map strBytes))) ++
      values.flatMap fun value => cellBytes (value.map strBytes)) values.length required = pure values := by
  have cells := readCells_cellBytes values [] small
  cases required with
  | true =>
    have all : values.map Option.isSome = List.replicate values.length true := by
      refine eq_replicate_iff.mpr ⟨length_map _, fun flag member => ?_⟩
      obtain ⟨value, inside, rfl⟩ := List.mem_map.mp member
      exact present rfl value inside
    rw [all] at cells
    exact cells
  | false =>
    have levels := readDefinitionLevels_encodeDefinitionLevels (values.map (Option.map strBytes))
      (values.flatMap fun value => cellBytes (value.map strBytes)) (by rwa [length_map])
    rw [length_map] at levels
    have same : (values.map (Option.map strBytes)).map Option.isSome = values.map Option.isSome := by
      simp
    rw [decodePageBody, if_neg (by decide), if_neg (by decide), levels, same]
    exact cells

def dataPageFields (numValues : Int32) : List Field :=
  [⟨1, tI32, varint (zigzagI32 numValues)⟩, ⟨2, tI32, varint (zigzagI32 encodingPlain)⟩,
    ⟨3, tI32, varint (zigzagI32 encodingRle)⟩, ⟨4, tI32, varint (zigzagI32 encodingRle)⟩]

def pageFields (numValues bodyLen : Int32) : List Field :=
  [⟨1, tI32, varint (zigzagI32 pageData)⟩, ⟨2, tI32, varint (zigzagI32 bodyLen)⟩,
    ⟨3, tI32, varint (zigzagI32 bodyLen)⟩, ⟨5, tStruct, structBytes 0 (dataPageFields numValues)⟩]

theorem pageHeader_eq (numValues bodyLen : Int32) :
    pageHeader numValues bodyLen = structBytes 0 (pageFields numValues bodyLen) := by
  have inner : EmitsFields _ (dataPageFields numValues) :=
    (((emitsFields_nil.snoc (emits_writeI32Field 1 numValues)).snoc (emits_writeI32Field 2 encodingPlain)).snoc
      (emits_writeI32Field 3 encodingRle)).snoc (emits_writeI32Field 4 encodingRle)
  have fields : EmitsFields _ (pageFields numValues bodyLen) :=
    (((emitsFields_nil.snoc (emits_writeI32Field 1 pageData)).snoc (emits_writeI32Field 2 bodyLen)).snoc
      (emits_writeI32Field 3 bodyLen)).snoc (emits_writeStructField 5 inner)
  have written := emits_struct fields CompactWriter.new rfl
  exact congrArg CompactWriter.buf written

theorem reads_pageHeader (numValues bodyLen : Int32) :
    Reads (readStruct (0, 0) (pageHeaderField)) 0 (pageHeader numValues bodyLen) (bodyLen, numValues) 0 := by
  rw [pageHeader_eq]
  apply reads_readStruct
  have inner : FieldsRead (fun field ty values =>
      if field = 1 ∧ ty = tI32 then readI32
      else do
        skipValue ty
        return values) (dataPageFields numValues) 0 numValues :=
    fieldsRead_cons (by decide) (reads_readI32 _) <|
    fieldsRead_cons (by decide) (reads_skip _ (reads_skip_i32 _)) <|
    fieldsRead_cons (by decide) (reads_skip _ (reads_skip_i32 _)) <|
    fieldsRead_cons (by decide) (reads_skip _ (reads_skip_i32 _)) rfl
  exact fieldsRead_cons (by decide) (reads_skip _ (reads_skip_i32 _)) <|
    fieldsRead_cons (by decide) (reads_map _ (reads_readI32 _)) <|
    fieldsRead_cons (by decide) (reads_map _ (reads_readI32 _)) <|
    fieldsRead_cons (by decide) (reads_map _ (reads_readStruct inner)) rfl

theorem boundCount_natCast {cap : Nat} (within : count ≤ cap) : boundCount (count : Int) cap = pure count := by
  rw [boundCount, if_neg (by omega), Int.toNat_natCast, if_neg (by omega)]

theorem readColumn_encodeColumn {values : List (Option String)} {required : Bool}
    {slice : ByteString} {tail : List UInt8}
    (starts : slice.bytes = encodeColumn (values.map (Option.map strBytes)) required ++ tail)
    (present : required → ∀ value ∈ values, value.isSome) (few : values.length < 2 ^ 31)
    (counted : values.length ≤ countCap slice.len)
    (small : (encodeColumn (values.map (Option.map strBytes)) required).length < 2 ^ 31) :
    (readColumn slice values.length required) = .ok values := by
  have fits := slice.fits
  rw [encodeColumn_eq, length_map, flatMap_map] at starts small
  dsimp only at starts small
  generalize same : (if required then [] else
    encodeDefinitionLevels (values.map (Option.map strBytes))) = levels at starts small
  generalize cells : (values.flatMap fun value => cellBytes (value.map strBytes)) = plain at starts small
  have body := decodePageBody_encoded values required present (by omega)
    (by rw [cells]; simp only [length_append] at small; omega)
  rw [same, cells] at body
  generalize levels ++ plain = page at starts small body
  generalize headed : pageHeader (Int32.ofNat values.length) (Int32.ofNat page.length) = header at starts small
  have read := reads_run (reads_pageHeader (Int32.ofNat values.length) (Int32.ofNat page.length))
    (show slice.bytes = _ ++ (page ++ tail) by rw [starts, headed, append_assoc])
  rw [headed] at read
  have length : slice.len = header.length + page.length + tail.length := by
    simp only [ByteString.len, starts, length_append]
  simp only [length_append] at small
  have sizes : (Int32.ofNat page.length).toInt = page.length := Int32.toInt_ofNat_of_lt (by omega)
  have counts : (Int32.ofNat values.length).toInt = values.length :=
    Int32.toInt_ofNat_of_lt (by omega)
  have stop : usizeAdd header.length page.length = pure (header.length + page.length) :=
    usizeAdd_of_le (n := slice.len) (by omega) fits
  have cut : (slice.bytes.drop header.length).take page.length = page := by
    rw [starts, append_assoc, drop_left, take_left]
  unfold readColumn
  rw [bind_of_ok read]
  dsimp only
  rw [counts, boundCount_natCast counted, pure_bind, if_neg (by omega), sizes,
    boundCount_natCast (by omega), pure_bind, stop, pure_bind, if_neg (by omega),
    Nat.add_sub_cancel_left, cut, body]
  rfl

end SekaiChisei.Parquet
