import SekaiChisei.Lib.Zigzag
import SekaiChisei.Parquet.Thrift

/-!
`Emits` says which bytes a writer call appends, `Reads` what a reader call returns on them. Both track the last field
id and leave the struct stack as it was.
-/

namespace SekaiChisei.Parquet
open Lib Lib.Outcome List

theorem unzigzagI16_zigzagI16 (value : Int16) : unzigzagI16 (zigzagI16 value) = value := by
  have bits := unzigzag_zigzag value.toBitVec
  apply Int16.toBitVec_inj.mp
  rw [← bits]
  simp [unzigzagI16, zigzagI16, unzigzag, zigzag]

theorem unzigzagI32_zigzagI32 (value : Int32) : unzigzagI32 (zigzagI32 value) = value := by
  have bits := unzigzag_zigzag value.toBitVec
  apply Int32.toBitVec_inj.mp
  rw [← bits]
  simp [unzigzagI32, zigzagI32, unzigzag, zigzag]

theorem unzigzagI64_zigzagI64 (value : Int64) : unzigzagI64 (zigzagI64 value) = value := by
  have bits := unzigzag_zigzag value.toBitVec
  apply Int64.toBitVec_inj.mp
  rw [← bits]
  simp [unzigzagI64, zigzagI64, unzigzag, zigzag]

theorem toNat_shr7 (v : UInt64) : (v >>> 7).toNat = v.toNat / 128 := by
  simp [Nat.shiftRight_eq_div_pow]

theorem toNat_low7 (v : UInt64) : ((v &&& 0x7f).toUInt8).toNat = v.toNat % 128 := by
  rw [UInt64.toNat_toUInt8, UInt64.toNat_and, show (0x7f : UInt64).toNat = 2 ^ 7 - 1 from rfl,
    Nat.and_two_pow_sub_one_eq_mod]
  omega

theorem toNat_or80 {b : UInt8} (h : b.toNat < 128) : (b ||| 0x80).toNat = b.toNat + 128 := by
  rw [UInt8.toNat_or, show (0x80 : UInt8).toNat = 2 ^ 7 * 1 from rfl, Nat.or_comm, ← Nat.two_pow_add_eq_or_of_lt h]
  omega

theorem toNat_and7f (b : UInt8) : (b &&& 0x7f).toNat = b.toNat % 128 := by
  rw [UInt8.toNat_and, show (0x7f : UInt8).toNat = 2 ^ 7 - 1 from rfl, Nat.and_two_pow_sub_one_eq_mod]

theorem and80_eq_zero (b : UInt8) : b &&& 0x80 = 0 ↔ b.toNat < 128 := by
  have bits : ∀ i : Fin 256, UInt8.ofNat i.val &&& 0x80 = 0 ↔ i.val < 128 := by decide +kernel
  have := bits ⟨b.toNat, b.toNat_lt⟩
  rwa [UInt8.ofNat_toNat] at this

variable {result : UInt64} {bytes : List UInt8} {shift : Nat}

theorem toNat_or_part {b : UInt8} (small : shift < 64)
    (below : result.toNat < 2 ^ shift) (fits : b.toNat % 128 * 2 ^ shift < 2 ^ 64) :
    (result ||| ((b &&& 0x7f).toUInt64 <<< UInt64.ofNat shift)).toNat = result.toNat + b.toNat % 128 * 2 ^ shift := by
  have amount : (UInt64.ofNat shift).toNat % 64 = shift := by
    rw [UInt64.toNat_ofNat']
    omega
  rw [UInt64.toNat_or, UInt64.toNat_shiftLeft, amount, UInt8.toNat_toUInt64, toNat_and7f,
    Nat.shiftLeft_eq, Nat.mod_eq_of_lt fits, Nat.or_comm, Nat.mul_comm,
    ← Nat.two_pow_add_eq_or_of_lt below]
  omega

theorem varintLoop_succ (rounds : Nat) (v : UInt64) : ∃ byte : UInt8, byte.toNat % 128 = v.toNat % 128 ∧
      varintLoop (rounds + 1) v = byte :: (if v.toNat < 128 then [] else varintLoop rounds (v >>> 7)) ∧
      (byte.toNat < 128 ↔ v.toNat < 128) := by
  have low := toNat_low7 v
  have empty : (v >>> 7 ≠ 0) ↔ ¬ v.toNat < 128 := by
    rw [ne_eq, ← UInt64.toNat_inj, toNat_shr7]
    simp only [UInt64.toNat_zero]
    omega
  by_cases last : v.toNat < 128
  · refine ⟨(v &&& 0x7f).toUInt8, by omega, ?_, by omega⟩
    rw [varintLoop, if_neg (by rw [empty]; omega), if_pos last]
  · have high := toNat_or80 (b := (v &&& 0x7f).toUInt8) (by omega)
    refine ⟨(v &&& 0x7f).toUInt8 ||| 0x80, by omega, ?_, by omega⟩
    rw [varintLoop, if_pos (by rw [empty]; exact last), if_neg last]

theorem varintLoop_ne_nil (rounds : Nat) (v : UInt64) : varintLoop (rounds + 1) v ≠ [] := by
  obtain ⟨byte, _, bytes, _⟩ := varintLoop_succ rounds v
  simp [bytes]

theorem varint_length_pos (v : UInt64) : 0 < (varint v).length :=
  length_pos_of_ne_nil (varintLoop_ne_nil 9 v)

/-- What one byte of `v` leaves to read: nothing, or `v >>> 7` seven bits further up. -/
theorem varint_round {v : UInt64} {byte : UInt8} (small : shift < 64)
    (below : result.toNat < 2 ^ shift) (fits : v.toNat < 2 ^ (64 - shift)) (low : byte.toNat % 128 = v.toNat % 128) :
    let next := result ||| ((byte &&& 0x7f).toUInt64 <<< UInt64.ofNat shift)
    next.toNat = result.toNat + v.toNat % 128 * 2 ^ shift ∧
      (¬ v.toNat < 128 → shift + 7 < 64 ∧ next.toNat < 2 ^ (shift + 7) ∧ (v >>> 7).toNat < 2 ^ (64 - (shift + 7)) ∧
        next.toNat + (v >>> 7).toNat * 2 ^ (shift + 7) = result.toNat + v.toNat * 2 ^ shift) := by
  have whole : 2 ^ (64 - shift) * 2 ^ shift = 2 ^ 64 := by
    rw [← Nat.pow_add, Nat.sub_add_cancel (Nat.le_of_lt small)]
  have room : v.toNat % 128 * 2 ^ shift < 2 ^ 64 :=
    calc v.toNat % 128 * 2 ^ shift ≤ v.toNat * 2 ^ shift := Nat.mul_le_mul_right _ (Nat.mod_le _ _)
      _ < 2 ^ (64 - shift) * 2 ^ shift := Nat.mul_lt_mul_of_pos_right fits (Nat.two_pow_pos _)
      _ = 2 ^ 64 := whole
  have value := toNat_or_part (b := byte) small below (by rw [low]; exact room)
  rw [low] at value
  refine ⟨value, fun more => ?_⟩
  have early : shift + 7 < 64 := by
    by_contra late
    have : 2 ^ (64 - shift) ≤ 2 ^ 7 := Nat.pow_le_pow_right (by omega) (by omega)
    omega
  have up : 2 ^ (shift + 7) = 2 ^ shift * 128 := by rw [Nat.pow_add]
  have down : 2 ^ (64 - shift) = 2 ^ (64 - (shift + 7)) * 128 := by
    rw [show 64 - shift = 64 - (shift + 7) + 7 by omega, Nat.pow_add]
  have digits := Nat.div_add_mod v.toNat 128
  refine ⟨early, ?_, ?_, ?_⟩
  · have : v.toNat % 128 * 2 ^ shift ≤ 127 * 2 ^ shift := Nat.mul_le_mul_right _ (by omega)
    omega
  · rw [toNat_shr7]
    omega
  · rw [value, toNat_shr7, up]
    calc result.toNat + v.toNat % 128 * 2 ^ shift + v.toNat / 128 * (2 ^ shift * 128)
        = result.toNat + (128 * (v.toNat / 128) + v.toNat % 128) * 2 ^ shift := by ring
      _ = result.toNat + v.toNat * 2 ^ shift := by rw [digits]

/-- What a reader does on the last byte of a varint and on a byte before it, it does on the varint. -/
theorem varint_rule {P : Nat → UInt64 → Nat → List UInt8 → UInt64 → Prop}
    (ends : ∀ rounds result shift (byte : UInt8), shift < 64 → byte &&& 0x80 = 0 →
      P (rounds + 1) result shift [byte] (result ||| ((byte &&& 0x7f).toUInt64 <<< UInt64.ofNat shift)))
    (goes : ∀ rounds result shift (byte : UInt8) bytes out, shift + 7 < 64 → byte &&& 0x80 ≠ 0 →
      P rounds (result ||| ((byte &&& 0x7f).toUInt64 <<< UInt64.ofNat shift)) (shift + 7) bytes out →
      P (rounds + 1) result shift (byte :: bytes) out) (v : UInt64) : P 10 0 0 (varint v) v := by
  have loop : ∀ rounds (result v : UInt64) (shift : Nat), shift + 7 * rounds = 63 → result.toNat < 2 ^ shift →
      v.toNat < 2 ^ (64 - shift) → ∃ out : UInt64, out.toNat = result.toNat + v.toNat * 2 ^ shift ∧
        P (rounds + 1) result shift (varintLoop (rounds + 1) v) out := by
    intro rounds
    induction rounds with
    | zero =>
      intro result v shift budget below fits
      obtain ⟨byte, low, bytes, final⟩ := varintLoop_succ 0 v
      have done : v.toNat < 128 := by
        have : 2 ^ (64 - shift) = 2 := by rw [show 64 - shift = 1 by omega]; rfl
        omega
      obtain ⟨value, _⟩ := varint_round (by omega) below fits low
      rw [Nat.mod_eq_of_lt done] at value
      rw [bytes, if_pos done]
      exact ⟨_, value, ends _ _ _ _ (by omega) ((and80_eq_zero byte).mpr (final.mpr done))⟩
    | succ rounds ih =>
      intro result v shift budget below fits
      obtain ⟨byte, low, bytes, final⟩ := varintLoop_succ (rounds + 1) v
      obtain ⟨value, more⟩ := varint_round (by omega) below fits low
      rw [← and80_eq_zero] at final
      rw [bytes]
      by_cases done : v.toNat < 128
      · rw [Nat.mod_eq_of_lt done] at value
        rw [if_pos done]
        exact ⟨_, value, ends _ _ _ _ (by omega) (final.mpr done)⟩
      · obtain ⟨early, below', fits', total⟩ := more done
        obtain ⟨out, sum, reads⟩ := ih _ (v >>> 7) (shift + 7) (by omega) below' fits'
        rw [if_neg done]
        exact ⟨out, sum.trans total, goes _ _ _ _ _ _ early (done ∘ final.mp) reads⟩
  obtain ⟨out, value, reads⟩ := loop 9 0 v 0 rfl (by simp) v.toNat_lt
  have same : out = v := UInt64.toNat_inj.mp (by simpa using value)
  exact same ▸ reads

/-- On `bytes`, followed by at least `ahead` more, `p` returns `a` and takes `bytes`; the last
field id goes from `last` to `last'`. -/
def ReadsAhead {α : Type} (ahead : Nat) (p : Parse α) (last : Int) (bytes : List UInt8) (a : α)
    (last' : Int) : Prop :=
  ∀ (r : CompactReader) (tail : List UInt8), r.lastId = last → r.pos ≤ r.data.len →
    r.data.bytes.drop r.pos = bytes ++ tail → ahead ≤ tail.length →
    (p r) = .ok (a, { r with pos := r.pos + bytes.length, lastId := last' })

abbrev Reads {α : Type} (p : Parse α) (last : Int) (bytes : List UInt8) (a : α) (last' : Int) : Prop :=
  ReadsAhead 0 p last bytes a last'

variable {tail : List UInt8}

theorem add_length_le {r : CompactReader} (inside : r.pos ≤ r.data.len)
    (rest : r.data.bytes.drop r.pos = bytes ++ tail) : r.pos + bytes.length ≤ r.data.len := by
  have lengths := congrArg List.length rest
  simp only [length_drop, length_append] at lengths
  simp only [ByteString.len] at inside ⊢
  omega

theorem reads_run {α : Type} {p : Parse α} {a : α} {last' : Int}
    (read : Reads p 0 bytes a last') {data : ByteString} (starts : data.bytes = bytes ++ tail) :
    (p.run (CompactReader.new data)) = .ok (a, ⟨data, bytes.length, last', []⟩) := by
  have taken := read (CompactReader.new data) tail rfl (Nat.zero_le _) starts (Nat.zero_le _)
  simp only [CompactReader.new, Nat.zero_add] at taken
  exact taken

section Reads
variable {α β γ : Type} {last last' : Int}

theorem reads_pure {n : Nat} (a : α) : ReadsAhead n (pure a) last [] a last := by
  intro r tail at_last _ _ _
  subst at_last
  rfl

variable {p : Parse α} {bytes bytes' : List UInt8} {f : α → Parse β} {a : α} {mid : Int} {b : β}

theorem readsAhead_bind {m n : Nat} (first : ReadsAhead m p last bytes a mid)
    (next : ReadsAhead n (f a) mid bytes' b last') (enough : m ≤ bytes'.length + n) :
    ReadsAhead n (p >>= f) last (bytes ++ bytes') b last' := by
  intro r tail at_last inside rest room
  have split : r.data.bytes.drop r.pos = bytes ++ (bytes' ++ tail) := by
    rw [rest, append_assoc]
  have taken := first r (bytes' ++ tail) at_last inside split (by simp; omega)
  have moved : r.data.bytes.drop (r.pos + bytes.length) = bytes' ++ tail := by
    rw [← drop_drop, split, drop_left]
  have taken' := next { r with pos := r.pos + bytes.length, lastId := mid } tail rfl
    (add_length_le inside split) moved room
  change ((p r) >>= fun out => f out.1 out.2) = _
  rw [bind_of_ok taken, taken', length_append, Nat.add_assoc]

theorem reads_bind (first : Reads p last bytes a mid) (next : Reads (f a) mid bytes' b last') :
    Reads (p >>= f) last (bytes ++ bytes') b last' :=
  readsAhead_bind first next (Nat.zero_le _)

theorem readsAhead_last {m n : Nat} (first : ReadsAhead m p last bytes a mid)
    (next : ReadsAhead n (f a) mid [] b last') (enough : m ≤ n) : ReadsAhead n (p >>= f) last bytes b last' := by
  have both := readsAhead_bind first next (by simpa using enough)
  rwa [append_nil] at both

theorem reads_last (first : Reads p last bytes a mid)
    (next : Reads (f a) mid [] b last') : Reads (p >>= f) last bytes b last' :=
  readsAhead_last first next (Nat.le_refl _)

theorem reads_map (f : α → β)
    (h : Reads p last bytes a last') : Reads (p >>= fun a => pure (f a)) last bytes (f a) last' :=
  reads_last h (reads_pure (f a))

variable {bytes : γ → List UInt8} {xs : List γ}

theorem reads_foldlM {items : List γ} {body : β → γ → Parse β} {step : β → γ → β} (init : β)
    (each : ∀ item ∈ items, ∀ acc, Reads (body acc item) last (bytes item) (step acc item) last) :
    Reads (items.foldlM body init) last (items.flatMap bytes) (items.foldl step init) last := by
  induction items generalizing init with
  | nil => exact reads_pure init
  | cons item rest ih =>
    refine reads_bind (each item mem_cons_self init) ?_
    exact ih _ fun item member => each item (mem_cons_of_mem _ member)

/-- `for index in 0..xs.len()` over the encodings of `xs`. -/
theorem reads_forRange {body : Nat → β → Parse β} {step : β → γ × Nat → β} (init : β)
    (each : ∀ item ∈ xs.zipIdx, ∀ acc, Reads (body item.2 acc) last (bytes item.1) (step acc item) last) :
    Reads (forRange xs.length init body) last (xs.map bytes).flatten (xs.zipIdx.foldl step init) last := by
  have indices : List.range xs.length = xs.zipIdx.map Prod.snd := by
    rw [zipIdx_map_snd, range_eq_range']
  have folded : forRange xs.length init body = xs.zipIdx.foldlM (fun acc item => body item.2 acc) init := by
    rw [forRange, indices, foldlM_map]
  have items : (xs.map bytes).flatten = xs.zipIdx.flatMap fun item => bytes item.1 := by
    rw [flatMap_def, ← Function.comp_def bytes, ← map_map, zipIdx_map_fst]
  rw [folded, items]
  exact reads_foldlM init each

theorem reads_pushRange {value : γ → α}
    (init : List α) (each : ∀ item ∈ xs, Reads p last (bytes item) (value item) last) :
    Reads (forRange xs.length init fun _ acc => do return acc ++ [← p]) last
      (xs.map bytes).flatten (init ++ xs.map value) last := by
  have pushed : xs.zipIdx.foldl (fun acc item => acc ++ [value item.1]) init = init ++ xs.map value := by
    have firsts : xs.zipIdx.map (fun item => [value item.1]) = xs.map fun item => [value item] := by
      rw [← Function.comp_def (fun item => [value item]), ← map_map, zipIdx_map_fst]
    rw [foldl_append_eq_append, firsts, ← flatMap_def, ← map_eq_flatMap]
  rw [← pushed]
  exact reads_forRange init fun item member acc =>
    reads_map (fun a => acc ++ [a]) (each item.1 (fst_mem_of_mem_zipIdx member))

end Reads

section Primitives
variable {last : Int} {len : Nat}

theorem reads_readU8 (byte : UInt8) : Reads readU8 last [byte] byte last := by
  intro r tail at_last _ rest _
  have found : r.data.bytes[r.pos]? = some byte := by
    have := congrArg (·[0]?) rest
    simpa [getElem?_drop] using this
  have below : r.pos < r.data.bytes.length := (List.getElem?_eq_some_iff.mp found).1
  simp only [readU8, found]
  rw [usizeAdd_of_le below r.data.fits, ← at_last]
  rfl

theorem reads_readExact : Reads (readExact bytes.length) last bytes bytes last := by
  intro r tail at_last inside rest _
  have bounded := add_length_le inside rest
  have fits := r.data.fits
  have small : ¬ usizeLimit ≤ r.pos + bytes.length := by
    simp only [ByteString.len, isizeMax, usizeLimit] at *
    omega
  rw [readExact, if_neg small, if_neg (by omega), rest, take_left, ← at_last]
  rfl

theorem reads_readVarint (v : UInt64) : Reads readVarint last (varint v) v last := by
  refine varint_rule (P := fun rounds result shift bytes out =>
    Reads (readVarintLoop rounds result shift) last bytes out last) ?_ ?_ v
  · intro rounds result shift byte small final
    rw [readVarintLoop_succ _ _ small]
    refine reads_bind (reads_readU8 byte) ?_
    rw [if_pos final]
    exact reads_pure _
  · intro rounds result shift byte bytes out early more reads
    rw [readVarintLoop_succ _ _ (by omega)]
    refine reads_bind (reads_readU8 byte) ?_
    rw [if_neg more, if_neg (by omega)]
    exact reads

theorem reads_readI32 (value : Int32) : Reads readI32 last (varint (zigzagI32 value)) value last := by
  have h : Reads readI32 last (varint (zigzagI32 value)) (unzigzagI32 (zigzagI32 value)) last :=
    reads_map unzigzagI32 (reads_readVarint _)
  rwa [unzigzagI32_zigzagI32] at h

theorem reads_readI64 (value : Int64) : Reads readI64 last (varint (zigzagI64 value)) value last := by
  have h : Reads readI64 last (varint (zigzagI64 value)) (unzigzagI64 (zigzagI64 value)) last :=
    reads_map unzigzagI64 (reads_readVarint _)
  rwa [unzigzagI64_zigzagI64] at h

theorem reads_boundLen : ReadsAhead len (boundLen len) last [] len last := by
  intro r tail at_last _ rest enough
  have lengths := congrArg List.length rest
  simp only [length_drop, nil_append] at lengths
  have fits : ¬ len > r.remaining := by
    simp only [CompactReader.remaining, ByteString.len]
    omega
  rw [boundLen, if_neg fits, ← at_last]
  rfl

theorem reads_readLen (small : len < 2 ^ 64) : ReadsAhead len readLen last (varint (UInt64.ofNat len)) len last := by
  have bound : ReadsAhead len (boundLen (UInt64.ofNat len).toNat) last [] len last := by
    rw [UInt64.toNat_ofNat_of_lt' small]
    exact reads_boundLen
  exact readsAhead_last (reads_readVarint (UInt64.ofNat len)) bound (Nat.zero_le _)

def binBytes (bytes : List UInt8) : List UInt8 := varint (UInt64.ofNat bytes.length) ++ bytes

theorem reads_readBin {bytes : List UInt8} (small : bytes.length < 2 ^ 64) :
    Reads readBin last (binBytes bytes) bytes last :=
  readsAhead_bind (reads_readLen small) (reads_readExact) (Nat.le_refl _)

theorem fromUtf8_strBytes (text : String) : fromUtf8 (strBytes text) = some text := by
  have bytes : (⟨(strBytes text).toArray⟩ : ByteArray) = text.toByteArray := by
    simp [strBytes]
  rw [fromUtf8, bytes, String.fromUTF8?, dif_pos text.isValidUTF8]
  rfl

theorem reads_readStr {text : String} (small : (strBytes text).length < 2 ^ 64) :
    Reads readStr last (binBytes (strBytes text)) text last := by
  refine reads_last (reads_readBin small) ?_
  rw [fromUtf8_strBytes]
  exact reads_pure text

theorem nibbles {n : Nat} {ty : UInt8} (high : n < 16) (low : ty < 16) :
    ((UInt8.ofNat n <<< 4) ||| ty) &&& 0x0f = ty ∧ ((UInt8.ofNat n <<< 4) ||| ty) >>> 4 = UInt8.ofNat n := by
  have all : ∀ n < 16, ∀ t < 16, ((UInt8.ofNat n <<< 4) ||| UInt8.ofNat t) &&& 0x0f = UInt8.ofNat t ∧
      ((UInt8.ofNat n <<< 4) ||| UInt8.ofNat t) >>> 4 = UInt8.ofNat n := by decide +kernel
  have := all n high ty.toNat low
  rwa [UInt8.ofNat_toNat] at this

def listHeader (elem : UInt8) (len : Nat) : List UInt8 :=
  if len ≤ 14 then [(UInt8.ofNat len <<< 4) ||| elem]
  else [0xF0 ||| elem] ++ varint (UInt64.ofNat len)

theorem reads_listLen {n : Nat} (header : UInt8) (bytes : List UInt8)
    (short : header >>> 4 ≠ 15 → bytes = [] ∧ (header >>> 4).toNat = n)
    (long : header >>> 4 = 15 → bytes = varint (UInt64.ofNat n) ∧ n < 2 ^ 64) :
    Reads (listLen header) last bytes n last := by
  unfold listLen
  by_cases full : header >>> 4 = 15
  · obtain ⟨rfl, small⟩ := long full
    have read : Reads (readVarint >>= fun value => pure value.toNat) last
        (varint (UInt64.ofNat n)) (UInt64.ofNat n).toNat last := reads_map _ (reads_readVarint _)
    rw [if_pos full]
    rwa [UInt64.toNat_ofNat_of_lt' small] at read
  · obtain ⟨rfl, rfl⟩ := short full
    rw [if_neg full]
    exact reads_pure _

theorem reads_readListHeader {elem : UInt8} (type : elem < 16) (small : len < 2 ^ 64) :
    ReadsAhead len readListHeader last (listHeader elem len) (elem, len) last := by
  have parts : ∀ (header : UInt8) (bytes : List UInt8), header &&& 0x0f = elem →
      Reads (listLen header) last bytes len last →
      ReadsAhead len readListHeader last ([header] ++ bytes) (elem, len) last := by
    intro header bytes low length
    have bounded : ReadsAhead len (boundLen len >>= fun len => pure (header &&& 0x0f, len)) last
        [] (elem, len) last := by
      rw [low]
      exact readsAhead_last (reads_boundLen) (reads_pure _) (Nat.le_refl _)
    exact readsAhead_bind (reads_readU8 header) (readsAhead_last length bounded (Nat.zero_le _)) (Nat.zero_le _)
  unfold listHeader
  split
  · obtain ⟨low, high⟩ := nibbles (n := len) (by omega) type
    have short : (UInt8.ofNat len).toNat = len := by
      rw [UInt8.toNat_ofNat']
      omega
    refine parts _ [] low (reads_listLen _ [] (fun _ => ⟨rfl, by rw [high, short]⟩) fun full => ?_)
    rw [high] at full
    have := congrArg UInt8.toNat full
    simp only [UInt8.reduceToNat] at this
    omega
  · obtain ⟨low, high⟩ := nibbles (n := 15) (by omega) type
    exact parts _ _ low (reads_listLen _ _ (fun short => (short high).elim) fun _ => ⟨rfl, small⟩)

end Primitives

/-- The header `field_header` writes for `id` after `last`. -/
def headerBytes (last id : Int) (ty : UInt8) : List UInt8 :=
  if 1 ≤ id - last ∧ id - last ≤ 14 then [(UInt8.ofNat (id - last).toNat <<< 4) ||| ty]
  else [ty] ++ varint (zigzagI16 (Int16.ofInt id))

structure Field where
  id : Int
  ty : UInt8
  value : List UInt8

/-- Ids of an `i16`, types of a nibble other than `STOP`. -/
def ValidHeader (id : Int) (ty : UInt8) : Prop :=
  -32768 ≤ id ∧ id ≤ 32767 ∧ 0 < ty ∧ ty < 16

instance (id : Int) (ty : UInt8) : Decidable (ValidHeader id ty) :=
  inferInstanceAs (Decidable (_ ∧ _))

def structBytes : Int → List Field → List UInt8
  | _, [] => [tStop]
  | last, f :: rest => headerBytes last f.id f.ty ++ f.value ++ structBytes f.id rest

theorem headerBytes_length_pos (last id : Int) (ty : UInt8) : 0 < (headerBytes last id ty).length := by
  unfold headerBytes
  split <;> simp

theorem structBytes_ne_nil {fields : List Field} (last : Int) : structBytes last fields ≠ [] := by
  cases fields with
  | nil => simp [structBytes]
  | cons f rest =>
    have header := headerBytes_length_pos last f.id f.ty
    simp [structBytes, ← length_pos_iff, header]

/-- Every field costs a byte beside its value, and the stop byte another. -/
theorem structBytes_length_gt (last : Int) (fields : List Field) :
    (fields.map fun f => f.value.length + 1).sum < (structBytes last fields).length := by
  induction fields generalizing last with
  | nil => simp [structBytes]
  | cons f rest ih =>
    have tail := ih f.id
    have header := headerBytes_length_pos last f.id f.ty
    simp only [map_cons, sum_cons, structBytes, length_append]
    omega

theorem value_length_le (last : Int) {fields : List Field} {f : Field} (member : f ∈ fields) :
    f.value.length ≤ (structBytes last fields).length := by
  induction fields generalizing last with
  | nil => cases member
  | cons first rest ih =>
    simp only [structBytes, length_append]
    rcases mem_cons.mp member with rfl | inside
    · omega
    · have := ih first.id inside
      omega

section Structs
variable {β : Type} {last : Int}

theorem reads_nextField_stop : Reads nextField last [tStop] none last := by
  refine reads_last (reads_readU8 tStop) ?_
  exact reads_pure none

theorem reads_setLastId (id : Int) : Reads (setLastId id) last [] id id := by
  intro r tail _ _ _ _
  rfl

variable {id : Int}

theorem reads_fieldId_short {delta : UInt8} (short : delta ≠ 0) (sum : last + delta.toNat = id) (fits : id ≤ 32767) :
    Reads (fieldId delta) last [] id last := by
  intro r tail at_last _ _ _
  subst at_last
  simp only [fieldId, if_neg short, i16Sum, sum, if_pos fits]
  rfl

theorem reads_fieldId_long (low : -32768 ≤ id) (high : id ≤ 32767) :
    Reads (fieldId 0) last (varint (zigzagI16 (Int16.ofInt id))) id last := by
  have read : Reads (fieldId 0) last (varint (zigzagI16 (Int16.ofInt id)))
      (unzigzagI16 (zigzagI16 (Int16.ofInt id))).toInt last := by
    exact reads_map (fun value => (unzigzagI16 value).toInt) (reads_readVarint _)
  rwa [unzigzagI16_zigzagI16, Int16.toInt_ofInt_of_le low (by omega)] at read

variable {ty : UInt8}

theorem reads_nextField (valid : ValidHeader id ty) :
    Reads nextField last (headerBytes last id ty) (some (id, ty)) id := by
  obtain ⟨low, high, nonzero, nibble⟩ := valid
  have parts : ∀ (header : UInt8) (bytes : List UInt8), header ≠ tStop → header &&& 0x0f = ty →
      Reads (fieldId (header >>> 4)) last bytes id last →
      Reads nextField last ([header] ++ bytes) (some (id, ty)) id := by
    intro header bytes more type number
    refine reads_bind (reads_readU8 header) ?_
    rw [if_neg more, type]
    exact reads_last (reads_last number (reads_setLastId id)) (reads_pure _)
  have stop : ∀ header : UInt8, header &&& 0x0f = ty → header ≠ tStop := by
    rintro header type rfl
    rw [← type] at nonzero
    exact absurd nonzero (by decide)
  unfold headerBytes
  split
  · obtain ⟨type, delta⟩ := nibbles (n := (id - last).toNat) (by omega) nibble
    have value : (UInt8.ofNat (id - last).toNat).toNat = (id - last).toNat := by
      rw [UInt8.toNat_ofNat']
      omega
    refine parts _ [] (stop _ type) type ?_
    rw [delta]
    refine reads_fieldId_short ?_ (by rw [value]; omega) high
    intro zero
    rw [zero] at value
    simp only [UInt8.toNat_zero] at value
    omega
  · obtain ⟨type, delta⟩ := nibbles (n := 0) (by omega) nibble
    have same : (UInt8.ofNat 0 <<< 4) ||| ty = ty := by simp
    rw [same] at type delta
    refine parts _ _ (stop _ type) type ?_
    rw [delta]
    exact reads_fieldId_long low high

/-- `body` reads the fields one after another, taking `acc` to the final accumulator. -/
def FieldsRead (body : Int → UInt8 → β → Parse β) : List Field → β → β → Prop
  | [], acc, acc' => acc = acc'
  | f :: rest, acc, acc' =>
    ∃ mid, ValidHeader f.id f.ty ∧ Reads (body f.id f.ty acc) f.id f.value mid f.id ∧ FieldsRead body rest mid acc'

variable {body : Int → UInt8 → β → Parse β} {acc' : β}

theorem fieldsRead_cons {value : List UInt8} {rest : List Field} {acc mid : β} (valid : ValidHeader id ty)
    (read : Reads (body id ty acc) id value mid id) (more : FieldsRead body rest mid acc') :
    FieldsRead body (⟨id, ty, value⟩ :: rest) acc acc' :=
  ⟨mid, valid, read, more⟩

variable {fields : List Field}

theorem reads_fieldLoop (last : Int) {acc : β} (read : FieldsRead body fields acc acc') (rounds : Nat)
    (enough : (structBytes last fields).length ≤ rounds) :
    ∃ last', Reads (fieldLoop body rounds acc) last (structBytes last fields) acc' last' := by
  induction fields generalizing last acc rounds with
  | nil =>
    obtain ⟨rounds, rfl⟩ : ∃ k, rounds = k + 1 := ⟨rounds - 1, by simp [structBytes] at enough; omega⟩
    cases read
    refine ⟨last, ?_⟩
    exact reads_last reads_nextField_stop (reads_pure acc')
  | cons f rest ih =>
    obtain ⟨mid, valid, value, read⟩ := read
    have header := headerBytes_length_pos last f.id f.ty
    simp only [structBytes, length_append] at enough
    obtain ⟨rounds, rfl⟩ : ∃ k, rounds = k + 1 := ⟨rounds - 1, by omega⟩
    obtain ⟨last', loop⟩ := ih f.id read rounds (by omega)
    refine ⟨last', ?_⟩
    unfold fieldLoop structBytes
    rw [append_assoc]
    exact reads_bind (reads_nextField valid) (reads_bind value loop)

theorem reads_readStruct {acc : β} (read : FieldsRead body fields acc acc') :
    Reads (readStruct acc body) last (structBytes 0 fields) acc' last := by
  intro r tail at_last inside rest _
  -- The reader inside the struct: the enclosing id is on the stack.
  have lengths := congrArg List.length rest
  simp only [length_drop, length_append] at lengths
  obtain ⟨last', loop⟩ := reads_fieldLoop 0 read (r.remaining + 1) (by
    simp only [CompactReader.remaining, ByteString.len]
    omega)
  have inner := loop { r with stack := r.lastId :: r.stack, lastId := 0 } tail rfl inside rest (Nat.zero_le _)
  change (fieldLoop body (r.remaining + 1) acc
    { r with stack := r.lastId :: r.stack, lastId := 0 } >>= fun out =>
      (endStruct out.2 >>= fun out' => pure (out.1, out'.2))) = _
  rw [bind_of_ok inner, ← at_last]
  rfl

variable {bytes : List UInt8}

theorem reads_skip (acc : β) (skip : Reads (skipValue ty) last bytes () last) :
    Reads (skipValue ty >>= fun _ => pure acc) last bytes acc last :=
  reads_map (fun _ => acc) skip

theorem reads_skip_i32 (v : UInt64) : Reads (skipValue tI32) last (varint v) () last :=
  reads_map (fun _ => ()) (reads_readVarint v)

theorem reads_skip_i64 (v : UInt64) : Reads (skipValue tI64) last (varint v) () last :=
  reads_map (fun _ => ()) (reads_readVarint v)

theorem reads_skip_bin (small : bytes.length < 2 ^ 64) : Reads (skipValue tBin) last (binBytes bytes) () last :=
  reads_map (fun _ => ()) (reads_readBin small)

theorem reads_list {elem : UInt8} {len : Nat} {k : UInt8 × Nat → Parse β} {b : β}
    (type : elem < 16) (small : len < 2 ^ 64) (enough : len ≤ bytes.length)
    (elems : Reads (k (elem, len)) last bytes b last) :
    Reads (readListHeader >>= k) last (listHeader elem len ++ bytes) b last :=
  readsAhead_bind (reads_readListHeader type small) elems enough

end Structs

/-- A writer call appends `bytes`, and the last field id goes from `last` to `last'`. -/
def Emits (f : CompactWriter → CompactWriter) (last : Int) (bytes : List UInt8) (last' : Int) : Prop :=
  ∀ w : CompactWriter, w.lastId = last → f w = { w with buf := w.buf ++ bytes, lastId := last' }

section Emits
variable {last last' : Int}

theorem emits_id : Emits (fun w => w) last [] last := by
  intro w at_last
  subst at_last
  simp

variable {g : CompactWriter → CompactWriter} {bytes : List UInt8}

theorem emits_comp {f : CompactWriter → CompactWriter} {bytes' : List UInt8} {mid : Int}
    (first : Emits f last bytes mid) (next : Emits g mid bytes' last') :
    Emits (fun w => g (f w)) last (bytes ++ bytes') last' := by
  intro w at_last
  dsimp only
  rw [first w at_last, next _ rfl, append_assoc]

theorem emits_foldl {γ : Type} {items : List γ} {f : CompactWriter → γ → CompactWriter}
    {bytes : γ → List UInt8} (each : ∀ item ∈ items, Emits (fun w => f w item) last (bytes item) last) :
    Emits (fun w => items.foldl f w) last (items.flatMap bytes) last := by
  induction items with
  | nil => exact emits_id
  | cons item rest ih =>
    exact emits_comp (each item mem_cons_self) (ih fun item member => each item (mem_cons_of_mem _ member))

theorem emits_writeVarint (v : UInt64) : Emits (·.writeVarint v) last (varint v) last := by
  intro w at_last
  subst at_last
  rfl

theorem emits_push : Emits (·.push bytes) last bytes last := by
  intro w at_last
  subst at_last
  rfl

theorem emits_fieldHeader (id : Int) (ty : UInt8) : Emits (·.fieldHeader id ty) last (headerBytes last id ty) id := by
  intro w at_last
  subst at_last
  unfold CompactWriter.fieldHeader headerBytes
  dsimp only
  split
  · rfl
  · simp [CompactWriter.push, CompactWriter.writeVarint]

def EmitsField (g : CompactWriter → CompactWriter) (f : Field) : Prop :=
  ∀ last, Emits g last (headerBytes last f.id f.ty ++ f.value) f.id

theorem emits_writeI32Field (id : Int) (value : Int32) :
    EmitsField (·.writeI32Field id value) ⟨id, tI32, varint (zigzagI32 value)⟩ := fun _ =>
  emits_comp (emits_fieldHeader id tI32) (emits_writeVarint _)

theorem emits_writeI64Field (id : Int) (value : Int64) :
    EmitsField (·.writeI64Field id value) ⟨id, tI64, varint (zigzagI64 value)⟩ := fun _ =>
  emits_comp (emits_fieldHeader id tI64) (emits_writeVarint _)

theorem emits_bin :
    Emits (fun w => (w.writeVarint (UInt64.ofNat bytes.length)).push bytes) last (binBytes bytes) last :=
  emits_comp (emits_writeVarint _) (emits_push)

theorem emits_writeStrField (id : Int) (text : String) :
    EmitsField (·.writeStrField id text) ⟨id, tBin, binBytes (strBytes text)⟩ := fun _ =>
  emits_comp (emits_fieldHeader id tBin) emits_bin

theorem emits_beginListField (id : Int) (elem : UInt8) (len : Nat) :
    EmitsField (·.beginListField id elem len) ⟨id, tList, listHeader elem len⟩ := by
  intro last w at_last
  have header := emits_fieldHeader id tList w at_last
  unfold CompactWriter.beginListField listHeader
  dsimp only at header ⊢
  rw [header]
  split
  · simp [CompactWriter.push]
  · simp [CompactWriter.push, CompactWriter.writeVarint]

variable {h : CompactWriter → CompactWriter}

theorem emits_list {id : Int} {elem : UInt8} {len : Nat} (header : EmitsField g ⟨id, tList, listHeader elem len⟩)
    (elems : Emits h id bytes id) : EmitsField (fun w => h (g w)) ⟨id, tList, listHeader elem len ++ bytes⟩ := by
  intro last
  have both := emits_comp (header last) elems
  rwa [append_assoc] at both

def EmitsFields (g : CompactWriter → CompactWriter) (fields : List Field) : Prop :=
  ∃ bytes last, Emits g 0 bytes last ∧ ∀ more, structBytes 0 (fields ++ more) = bytes ++ structBytes last more

theorem emitsFields_nil : EmitsFields (fun w => w) [] := ⟨[], 0, emits_id, fun _ => rfl⟩

variable {fields : List Field}

theorem EmitsFields.snoc {f : Field} (before : EmitsFields g fields) (field : EmitsField h f) :
    EmitsFields (fun w => h (g w)) (fields ++ [f]) := by
  obtain ⟨bytes, last, emits, whole⟩ := before
  refine ⟨_, f.id, emits_comp emits (field last), fun more => ?_⟩
  rw [append_assoc, whole, singleton_append, structBytes, append_assoc bytes]

variable {body : CompactWriter → CompactWriter}

theorem emits_struct (inner : EmitsFields body fields) :
    Emits (fun w => (body w.beginStruct).endStruct) last (structBytes 0 fields) last := by
  obtain ⟨bytes, last', emits, whole⟩ := inner
  have stopped := whole []
  rw [append_nil] at stopped
  intro w at_last
  subst at_last
  dsimp only
  rw [emits w.beginStruct rfl, stopped]
  simp [CompactWriter.beginStruct, CompactWriter.endStruct, structBytes]

theorem emits_writeStructField (id : Int) (inner : EmitsFields body fields) :
    EmitsField (·.writeStructField id body) ⟨id, tStruct, structBytes 0 fields⟩ := by
  intro last
  have header : Emits _ last _ id := emits_fieldHeader id tStruct
  have value : Emits _ id _ id := emits_struct inner
  have both := emits_comp header value
  exact both

end Emits

end SekaiChisei.Parquet
