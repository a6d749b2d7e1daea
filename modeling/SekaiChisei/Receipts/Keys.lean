import SekaiChisei.Receipts.Verify

/-! Key sets keep every public key published under its id, also when a rotation fails. -/

namespace SekaiChisei.Receipts
open Lib List

structure Crypto.Lawful (crypto : Crypto) : Prop where
  publicLength : ∀ key, (crypto.asBytes (crypto.verifyingKey key)).length = 32
  fromBytes : ∀ key, crypto.fromBytes (crypto.asBytes (crypto.verifyingKey key)) = .ok (crypto.verifyingKey key)
  signLength : ∀ key message, (crypto.sign key message).length = 64
  verify_sign : ∀ key message, crypto.verify (crypto.verifyingKey key) message (crypto.sign key message) = true

section Maps
variable {α : Type} {map : List (String × α)} {key : String} {value : α} {entry : String × α}

theorem mem_mapInsert (member : entry ∈ mapInsert key value map) : entry = (key, value) ∨ entry ∈ map := by
  fun_induction mapInsert key value map with
  | case1 => simpa using member
  | case2 other old rest => simpa using member
  | case3 old rest =>
    rcases mem_cons.mp member with rfl | inside
    · exact .inl rfl
    · exact .inr (mem_cons_of_mem _ inside)
  | case4 other old rest _ _ ih =>
    rcases mem_cons.mp member with rfl | inside
    · exact .inr mem_cons_self
    · exact (ih inside).imp_right (mem_cons_of_mem _)

theorem mem_mapInsert_self : (key, value) ∈ mapInsert key value map := by
  fun_induction mapInsert key value map with
  | case1 => exact mem_cons_self
  | case2 other old rest => exact mem_cons_self
  | case3 old rest => exact mem_cons_self
  | case4 other old rest _ _ ih => exact mem_cons_of_mem _ ih

theorem mem_mapInsert_of_ne (member : entry ∈ map) (other : entry.1 ≠ key) : entry ∈ mapInsert key value map := by
  fun_induction mapInsert key value map with
  | case1 => exact absurd member not_mem_nil
  | case2 => exact mem_cons_of_mem _ member
  | case3 old rest =>
    rcases mem_cons.mp member with rfl | inside
    · exact absurd rfl other
    · exact mem_cons_of_mem _ inside
  | case4 first old rest _ _ ih =>
    rcases mem_cons.mp member with rfl | inside
    · exact mem_cons_self
    · exact mem_cons_of_mem _ (ih inside)

end Maps

variable {bytes : List UInt8}

theorem decodeHex_toHex {size : Nat} (length : bytes.length = size) : decodeHex (toHex bytes) size = .ok bytes := by
  have digits : (toHex bytes).toList.all isHexDigit := by
    rw [all_eq_true]
    intro c member
    exact mem_toHex member
  rw [decodeHex, if_neg (by simp [toHex_size, length, digits]), toHex, String.toList_ofList, ofHexPairs_hexPair]

theorem decodeHex32_toHex {message : String} (length : bytes.length = 32) :
    decodeHex32 (toHex bytes) message = .ok bytes :=
  mapError_eq_ok.mpr (decodeHex_toHex length)

variable {crypto : Crypto}

theorem fingerprint_injOn {recorded : Set (List UInt8)} (distinct : Set.InjOn crypto.sha256 recorded) :
    Set.InjOn (keyId crypto) recorded := by
  intro a inA b inB same
  exact distinct inA inB (toHex_injective (String.append_right_inj _ |>.mp same))

structure PublishedOk (crypto : Crypto) (recorded : Set (List UInt8)) (entry : String × PublishedKey)
    (bytes : List UInt8) : Prop where
  recorded : bytes ∈ recorded
  length : bytes.length = 32
  reads : ∃ verifying, crypto.fromBytes bytes = .ok verifying
  id : entry.1 = keyId crypto bytes
  keyId : entry.2.keyId = keyId crypto bytes
  hex : entry.2.publicKeyHex = toHex bytes

def Publishes (keys : SigningKeySet crypto) (bytes : List UInt8) : Prop :=
  ∃ entry ∈ keys.published, entry.1 = keyId crypto bytes ∧ entry.2.keyId = keyId crypto bytes ∧
    entry.2.publicKeyHex = toHex bytes

structure KeysOk (recorded : Set (List UInt8)) (keys : SigningKeySet crypto) : Prop where
  published : ∀ entry ∈ keys.published, ∃ bytes, PublishedOk crypto recorded entry bytes
  current : Publishes keys keys.publicKey

def Grows (keys keys' : SigningKeySet crypto) : Prop :=
  ∀ bytes, Publishes keys bytes → Publishes keys' bytes

section Keys
variable {recorded : Set (List UInt8)} {keys : SigningKeySet crypto} {bytes : List UInt8}

theorem published_unique {entry : String × PublishedKey} {other : List UInt8}
    (ok : PublishedOk crypto recorded entry bytes) (hex : entry.2.publicKeyHex = toHex other) : bytes = other :=
  toHex_injective (ok.hex.symm.trans hex)

theorem publish_ok (distinct : Set.InjOn crypto.sha256 recorded)
    (ok : ∀ entry ∈ keys.published, ∃ bytes, PublishedOk crypto recorded entry bytes)
    (keys' : SigningKeySet crypto) {id : String} {key : PublishedKey}
    (new : PublishedOk crypto recorded (id, key) bytes)
    (inserted : keys'.published = mapInsert id key keys.published) :
    (∀ entry ∈ keys'.published, ∃ bytes, PublishedOk crypto recorded entry bytes) ∧
      Publishes keys' bytes ∧ Grows keys keys' := by
  have publishes : Publishes keys' bytes :=
    ⟨(id, key), inserted ▸ mem_mapInsert_self, new.id, new.keyId, new.hex⟩
  refine ⟨?_, publishes, ?_⟩
  · intro entry member
    rw [inserted] at member
    rcases mem_mapInsert member with rfl | old
    · exact ⟨bytes, new⟩
    · exact ok entry old
  · rintro other ⟨entry, member, entryId, entryKeyId, hex⟩
    by_cases same : entry.1 = id
    · -- the entry is replaced, by one of the same public key
      obtain ⟨source, sourceOk⟩ := ok entry member
      obtain rfl := published_unique sourceOk hex
      have ids : keyId crypto source = keyId crypto bytes := by
        rw [← entryId, same]
        exact new.id
      obtain rfl := fingerprint_injOn distinct sourceOk.recorded new.recorded ids
      exact publishes
    · exact ⟨entry, inserted ▸ mem_mapInsert_of_ne member same, entryId, entryKeyId, hex⟩

theorem recordCurrent_ok (lawful : crypto.Lawful) (distinct : Set.InjOn crypto.sha256 recorded)
    (keys : SigningKeySet crypto) (ok : ∀ entry ∈ keys.published, ∃ bytes, PublishedOk crypto recorded entry bytes)
    (current : keys.publicKey ∈ recorded) (createdAtMs : Int) :
    KeysOk recorded (keys.recordCurrent createdAtMs) ∧ Grows keys (keys.recordCurrent createdAtMs) := by
  have new : PublishedOk crypto recorded
      (keys.currentKeyId, ⟨keys.currentKeyId, toHex keys.publicKey, createdAtMs, none⟩)
      keys.publicKey :=
    ⟨current, lawful.publicLength _, ⟨_, lawful.fromBytes _⟩, rfl, rfl, rfl⟩
  obtain ⟨all, publishes, grows⟩ :=
    publish_ok distinct ok (keys.recordCurrent createdAtMs) new rfl
  exact ⟨⟨all, publishes⟩, grows⟩

theorem retireCurrent_ok (ok : KeysOk recorded keys) (createdAtMs : Int) :
    (∀ entry ∈ (keys.retireCurrent createdAtMs).published,
      ∃ bytes, PublishedOk crypto recorded entry bytes) ∧ Grows keys (keys.retireCurrent createdAtMs) := by
  constructor
  · intro entry member
    obtain ⟨old, inside, rfl⟩ := mem_map.mp member
    obtain ⟨bytes, oldOk⟩ := ok.published old inside
    refine ⟨bytes, ?_⟩
    split
    · exact ⟨oldOk.recorded, oldOk.length, oldOk.reads, oldOk.id, oldOk.keyId, oldOk.hex⟩
    · exact oldOk
  · rintro bytes ⟨entry, member, entryId, entryKeyId, hex⟩
    refine ⟨_, mem_map_of_mem member, ?_⟩
    split
    · exact ⟨entryId, entryKeyId, hex⟩
    · exact ⟨entryId, entryKeyId, hex⟩

def seedKeys (crypto : Crypto) (seedHex : String) : Set (List UInt8) :=
  {bytes | ∃ key, signingKeyFromHex crypto seedHex = .ok key ∧ bytes = crypto.asBytes (crypto.verifyingKey key)}

theorem rotate_ok (lawful : crypto.Lawful) (distinct : Set.InjOn crypto.sha256 recorded)
    (ok : KeysOk recorded keys) {seedHex : String} (seeds : seedKeys crypto seedHex ⊆ recorded)
    (createdAtMs : Int) : KeysOk recorded (keys.rotate seedHex createdAtMs).2 ∧
      Grows keys (keys.rotate seedHex createdAtMs).2 := by
  obtain ⟨all, grows⟩ := retireCurrent_ok ok createdAtMs
  unfold SigningKeySet.rotate
  cases read : signingKeyFromHex crypto seedHex with
  | error message => exact ⟨⟨all, grows _ ok.current⟩, grows⟩
  | ok next =>
    obtain ⟨nextOk, more⟩ := recordCurrent_ok lawful distinct
      { keys.retireCurrent createdAtMs with current := next } all (seeds ⟨next, read, rfl⟩) createdAtMs
    exact ⟨nextOk, fun bytes published => more bytes (grows bytes published)⟩

def hexKeys (publicKeyHex : String) : Set (List UInt8) :=
  {bytes | decodeHex publicKeyHex 32 = .ok bytes}

theorem decodeHex_length {value : String} {size : Nat}
    (decoded : decodeHex value size = .ok bytes) : bytes.length = size := by
  obtain ⟨form, read⟩ := ite_error_eq_ok.mp decoded
  cases read
  rw [not_or, not_not, not_not] at form
  have chars := utf8ByteSize_hex (all_eq_true.mp form.2)
  rw [ofHexPairs_length]
  omega

theorem trustPublicKey_ok (distinct : Set.InjOn crypto.sha256 recorded) (ok : KeysOk recorded keys)
    {publicKeyHex : String} (trusts : hexKeys publicKeyHex ⊆ recorded) (createdAtMs : Int) :
    KeysOk recorded (keys.trustPublicKey publicKeyHex createdAtMs).2 := by
  unfold SigningKeySet.trustPublicKey
  cases decoded : decodeHex32 publicKeyHex "trusted public key must be a 32-byte hexadecimal Ed25519 key" with
  | error message => exact ok
  | ok bytes =>
    have plain := mapError_eq_ok.mp decoded
    cases reads : crypto.fromBytes bytes with
    | error message =>
      simp only [reads]
      exact ok
    | ok verifying =>
      simp only [reads]
      split
      · exact ⟨ok.published, ok.current⟩
      · have new : PublishedOk crypto recorded (keyId crypto bytes,
            ⟨keyId crypto bytes, toHex bytes, createdAtMs, some createdAtMs⟩) bytes :=
          ⟨trusts plain, decodeHex_length plain, ⟨verifying, reads⟩, rfl, rfl, rfl⟩
        obtain ⟨all, _, grows⟩ := publish_ok distinct ok.published
          { keys with
            verifying := mapInsert (keyId crypto bytes) verifying keys.verifying
            published := mapInsert (keyId crypto bytes) _ keys.published } new rfl
        exact ⟨all, grows _ ok.current⟩

end Keys

end SekaiChisei.Receipts
