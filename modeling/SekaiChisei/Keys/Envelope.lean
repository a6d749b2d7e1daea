import SekaiChisei.Keys.Provider
import SekaiChisei.Lib.Hex

/-!
What wrapping and unwrapping do under ideal encryption: an envelope opens with the key and the metadata it was
sealed with, and with no other.
-/

namespace SekaiChisei.Keys
open Lib List ProviderState

def aadBytes (tenantId : TenantId) (purpose : KeyPurpose) (dekId : KeyId) : List UInt8 :=
  framed (textBytes tenantId.value) ++ (framed (textBytes (purposeTag purpose)) ++ framed (textBytes dekId.value))

theorem textBytes_length (text : String) : (textBytes text).length = text.utf8ByteSize := by
  rw [textBytes, Array.length_toList, ← String.size_toByteArray]
  rfl

theorem KeyId.short (id : KeyId) : (textBytes id.value).length < 65536 := by
  have bounded := (parseIdValue_eq_ok id.valid).2
  rw [textBytes_length]
  simp only [maxIdBytes] at bounded
  omega

theorem TenantId.short (id : TenantId) : (textBytes id.value).length < 65536 := by
  have bounded := (parseIdValue_eq_ok id.valid).2
  rw [textBytes_length]
  simp only [maxIdBytes] at bounded
  omega

theorem purposeTag_short (purpose : KeyPurpose) : (textBytes (purposeTag purpose)).length < 65536 := by
  cases purpose <;> decide +kernel

theorem purposeTag_injective : Function.Injective purposeTag := by
  intro a b same
  cases a <;> cases b <;> first | rfl | exact absurd same (by decide +kernel)

variable {tenantId : TenantId} {purpose : KeyPurpose} {dekId : KeyId}

theorem envelopeAad_eq : envelopeAad tenantId purpose dekId = .ok (aadBytes tenantId purpose dekId) := by
  have tenant := tenantId.short
  have tag := purposeTag_short purpose
  have dek := dekId.short
  simp only [envelopeAad, writeLenBytes, tenant, tag, dek, if_true, bind, Except.bind, aadBytes,
    nil_append, append_assoc]

variable {purpose' : KeyPurpose} {tenantId' : TenantId}

/-- The lengths in front keep the parts of the associated data apart. -/
theorem aadBytes_inj {tenantId : TenantId} {purpose : KeyPurpose} {dekId dekId' : KeyId}
    (same : aadBytes tenantId purpose dekId = aadBytes tenantId' purpose' dekId') :
    tenantId = tenantId' ∧ purpose = purpose' ∧ dekId = dekId' := by
  obtain ⟨tenants, rest⟩ := framed_append_inj tenantId.short tenantId'.short same
  obtain ⟨tags, last⟩ := framed_append_inj (purposeTag_short purpose) (purposeTag_short purpose') rest
  have deks : textBytes dekId.value = textBytes dekId'.value := by
    have whole : framed (textBytes dekId.value) ++ [] = framed (textBytes dekId'.value) ++ [] := by
      rw [last]
    exact (framed_append_inj dekId.short dekId'.short whole).1
  refine ⟨?_, purposeTag_injective (utf8_injective tags), ?_⟩
  · cases tenantId
    cases tenantId'
    simpa only [TenantId.mk.injEq] using utf8_injective tenants
  · cases dekId
    cases dekId'
    simpa only [KeyId.mk.injEq] using utf8_injective deks

/-- Encryption as the provider takes it to be: a text opens under the key, the nonce and the associated data
it was sealed with, and under no other key or associated data. -/
structure Aead.Ideal (aead : Aead) : Prop where
  opens : ∀ kek nonce aad plain, aead.decrypt kek nonce aad (aead.encrypt kek nonce aad plain) = some plain
  bound : ∀ {kek kek' nonce nonce' aad aad' plain plain'},
    aead.decrypt kek' nonce' aad' (aead.encrypt kek nonce aad plain) = some plain' → kek' = kek ∧ aad' = aad
  nonempty : ∀ kek nonce aad plain, aead.encrypt kek nonce aad plain ≠ []

variable {aead : Aead} {state : ProviderState} {kek : Kek} {dek : Dek}
  {nonce : Nonce} {wrapped : WrappedDek}

def sealedDek (aead : Aead) (kek : Kek) (dek : Dek) (tenantId : TenantId) (purpose : KeyPurpose)
    (dekId : KeyId) (nonce : Nonce) : List UInt8 :=
  nonce.bytes ++ aead.encrypt kek nonce.bytes (aadBytes tenantId purpose dekId) dek.bytes

theorem wrapDek_eq : wrapDek aead kek dek tenantId purpose dekId nonce =
      .ok (sealedDek aead kek dek tenantId purpose dekId nonce) := by
  rw [wrapDek, envelopeAad_eq]
  rfl

theorem sealedDek_length (ideal : aead.Ideal) :
    ¬ (sealedDek aead kek dek tenantId purpose dekId nonce).length < 13 := by
  have some := length_pos_iff.mpr (ideal.nonempty kek nonce.bytes (aadBytes tenantId purpose dekId) dek.bytes)
  rw [sealedDek, length_append, nonce.size]
  omega

theorem sealedDek_take : (sealedDek aead kek dek tenantId purpose dekId nonce).take 12 = nonce.bytes :=
  take_left' nonce.size

theorem sealedDek_drop : (sealedDek aead kek dek tenantId purpose dekId nonce).drop 12 =
      aead.encrypt kek nonce.bytes (aadBytes tenantId purpose dekId) dek.bytes :=
  drop_left' nonce.size

theorem Key.ofBytes_bytes (key : Key) : Key.ofBytes key.bytes = .ok key := by
  rw [Key.ofBytes, dif_pos key.size]

theorem unwrapDek_sealed (ideal : aead.Ideal) :
    unwrapDek aead kek (sealedDek aead kek dek tenantId purpose dekId nonce) tenantId purpose dekId = .ok dek := by
  rw [unwrapDek, if_neg (sealedDek_length ideal), envelopeAad_eq, sealedDek_take, sealedDek_drop]
  simp only [bind, Except.bind, ideal.opens]
  exact Key.ofBytes_bytes dek

/-- A sealed key opens only with the key and the metadata it was sealed with. -/
theorem unwrapDek_bound (ideal : aead.Ideal) {kek' : Kek} {dekId' : KeyId} {dek' : Dek}
    (opened : unwrapDek aead kek' (sealedDek aead kek dek tenantId purpose dekId nonce) tenantId' purpose'
      dekId' = .ok dek') : kek' = kek ∧ tenantId' = tenantId ∧ purpose' = purpose ∧ dekId' = dekId ∧ dek' = dek := by
  have whole := opened
  rw [unwrapDek, if_neg (sealedDek_length ideal), envelopeAad_eq, sealedDek_take, sealedDek_drop] at opened
  simp only [bind, Except.bind] at opened
  split at opened
  · cases opened
  · rename_i plain decrypted
    obtain ⟨sameKek, sameAad⟩ := ideal.bound decrypted
    obtain ⟨sameTenant, samePurpose, sameDek⟩ := aadBytes_inj sameAad
    subst sameKek sameTenant samePurpose sameDek
    rw [unwrapDek_sealed ideal] at whole
    cases whole
    exact ⟨rfl, rfl, rfl, rfl, rfl⟩

theorem kekFor_eq_ok {kekId : KeyId} (found : state.kekFor kekId = .ok kek) :
    (kekId, kek) = (state.kekId, state.kek) ∨ state.previous = some (kekId, kek) := by
  unfold kekFor at found
  split at found
  · rename_i current
    cases found
    rw [current]
    exact .inl rfl
  · split at found
    · rename_i id key previous
      split at found
      · rename_i same
        cases found
        rw [← same]
        exact .inr previous
      · cases found
    · cases found

theorem wrapWithId_eq (ideal : aead.Ideal) : state.wrapWithId aead tenantId purpose dek dekId nonce =
      if state.kekRevoked then .error .revoked else .ok ⟨state.kekId, dekId, tenantId, purpose,
        sealedDek aead state.kek dek tenantId purpose dekId nonce⟩ := by
  unfold wrapWithId
  split
  · rfl
  · simp only [TenantId.new_value, bind, Except.bind, wrapDek_eq, WrappedDek.new, KeyId.new_value,
      if_neg (sealedDek_length ideal)]

theorem wrapWithId_eq_ok (ideal : aead.Ideal)
    (made : state.wrapWithId aead tenantId purpose dek dekId nonce = .ok wrapped) :
    state.kekRevoked = false ∧ wrapped = ⟨state.kekId, dekId, tenantId, purpose,
        sealedDek aead state.kek dek tenantId purpose dekId nonce⟩ := by
  rw [wrapWithId_eq ideal, ite_error_eq_ok] at made
  obtain ⟨live, same⟩ := made
  cases same
  exact ⟨by simpa using live, rfl⟩

theorem rewrap_eq_ok {next : WrappedDek} (made : state.rewrap aead wrapped dek nonce = .ok next) :
    wrapped.dekId.value ∉ state.dekRevoked ∧ (∃ kek, state.kekFor wrapped.kekId = .ok kek) ∧
      state.wrapWithId aead wrapped.tenantId wrapped.purpose dek wrapped.dekId nonce = .ok next := by
  rw [rewrap, ite_error_eq_ok] at made
  obtain ⟨live, made⟩ := made
  simp only [TenantId.new_value, KeyId.new_value, bind_eq_ok] at made
  obtain ⟨tenant, sameTenant, id, sameId, kek, found, recovered, _, made⟩ := made
  cases sameTenant
  cases sameId
  rw [ite_error_eq_ok] at made
  exact ⟨fun revoked => live (.inr revoked), ⟨kek, found⟩, made.2⟩

theorem unwrap_eq_ok {grant : UnwrapGrant} {engine : String} {now : Int} {outcome : UnwrapOutcome} :
    state.unwrap aead wrapped grant engine now = .ok outcome ↔
      state.kekRevoked = false ∧ wrapped.dekId.value ∉ state.dekRevoked ∧ now < grant.expiresUnixSecs ∧
      wrapped.tenantId = grant.tenantId ∧ wrapped.purpose = grant.purpose ∧
      ∃ kek, state.kekFor wrapped.kekId = .ok kek ∧
        ∃ dek, unwrapDek aead kek wrapped.ciphertext wrapped.tenantId wrapped.purpose wrapped.dekId = .ok dek ∧
          outcome = ⟨dek, ⟨wrapped.tenantId, engine, wrapped.purpose, wrapped.dekId⟩⟩ := by
  simp only [unwrap, ite_error_eq_ok, TenantId.new_value, bind, Except.bind, not_or,
    Bool.not_eq_true, ne_eq, not_not, not_le, ge_iff_le, and_assoc]
  constructor
  · rintro ⟨live, unrevoked, early, tenant, purpose, rest⟩
    refine ⟨live, unrevoked, early, tenant, purpose, ?_⟩
    obtain ⟨kek, found, rest⟩ := bind_eq_ok.mp rest
    obtain ⟨dek, opened, rest⟩ := bind_eq_ok.mp rest
    cases rest
    exact ⟨kek, found, dek, opened, rfl⟩
  · rintro ⟨live, unrevoked, early, tenant, purpose, kek, found, dek, opened, rfl⟩
    refine ⟨live, unrevoked, early, tenant, purpose, ?_⟩
    exact bind_eq_ok.mpr ⟨kek, found, bind_eq_ok.mpr ⟨dek, opened, rfl⟩⟩

end SekaiChisei.Keys
