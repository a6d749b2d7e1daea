import SekaiChisei.Lib.Fallible
import SekaiChisei.Lib.Framed
import SekaiChisei.Lib.Text

/-! The key provider of `sekai-keys`: wrapped data keys, the state of a provider and the file it is kept in. AES-GCM is
`Aead`; what a call draws at random is an argument. -/

namespace SekaiChisei.Keys
open Lib

inductive KeyPurpose where
  | store
  | spill
  | cache
  | backup
  | exports
  deriving DecidableEq

inductive KeyError where
  | emptyField (name : String)
  | revoked
  | grantDenied
  | wrongTenant
  | wrongPurpose
  | unknownKey
  | rotationOverlapActive
  | invalidField (name : String)
  | wrapFailed
  deriving DecidableEq

def maxIdBytes : Nat := 256

def maxRevokedDeks : Nat := 10000

def parseIdValue (value field : String) : Except KeyError String :=
  if trim value = "" then .error (.emptyField field)
  else if '\x00' ∈ value.toList ∨ value.utf8ByteSize > maxIdBytes then .error (.invalidField field)
  else .ok value

section
variable {value field parsed : String} (accepted : parseIdValue value field = .ok parsed)
include accepted

theorem parseIdValue_eq_ok : parsed = value ∧ value.utf8ByteSize ≤ maxIdBytes := by
  rw [parseIdValue, ite_error_eq_ok, ite_error_eq_ok] at accepted
  obtain ⟨_, bounded, same⟩ := accepted
  cases same
  exact ⟨rfl, by omega⟩

theorem parseIdValue_again : parseIdValue parsed field = .ok parsed := by
  have same := (parseIdValue_eq_ok accepted).1
  rw [same] at accepted ⊢
  exact accepted

end

structure KeyId where
  value : String
  valid : parseIdValue value "key_id" = .ok value
  deriving DecidableEq

def KeyId.new (value : String) : Except KeyError KeyId :=
  match accepted : parseIdValue value "key_id" with
  | .ok parsed => .ok ⟨parsed, parseIdValue_again accepted⟩
  | .error error => .error error

structure TenantId where
  value : String
  valid : parseIdValue value "tenant_id" = .ok value
  deriving DecidableEq

def TenantId.new (value : String) : Except KeyError TenantId :=
  match accepted : parseIdValue value "tenant_id" with
  | .ok parsed => .ok ⟨parsed, parseIdValue_again accepted⟩
  | .error error => .error error

/-- An id is checked again where it is copied; it passes. -/
@[simp] theorem KeyId.new_value (id : KeyId) : KeyId.new id.value = .ok id := by
  unfold KeyId.new
  split
  · rename_i parsed accepted
    rw [id.valid] at accepted
    cases accepted
    rfl
  · rename_i error rejected
    rw [id.valid] at rejected
    cases rejected

@[simp] theorem TenantId.new_value (id : TenantId) : TenantId.new id.value = .ok id := by
  unfold TenantId.new
  split
  · rename_i parsed accepted
    rw [id.valid] at accepted
    cases accepted
    rfl
  · rename_i error rejected
    rw [id.valid] at rejected
    cases rejected

structure Key where
  bytes : List UInt8
  size : bytes.length = 32
  deriving DecidableEq

abbrev Dek := Key

abbrev Kek := Key

def Key.zero : Key := ⟨List.replicate 32 0, rfl⟩

def Key.ofBytes (bytes : List UInt8) : Except KeyError Key :=
  if size : bytes.length = 32 then .ok ⟨bytes, size⟩ else .error .wrapFailed

structure Nonce where
  bytes : List UInt8
  size : bytes.length = 12

structure WrappedDek where
  (kekId dekId : KeyId)
  tenantId : TenantId
  purpose : KeyPurpose
  ciphertext : List UInt8
  deriving DecidableEq

def WrappedDek.new (kekId dekId : KeyId) (tenantId : TenantId) (purpose : KeyPurpose)
    (ciphertext : List UInt8) : Except KeyError WrappedDek := do
  let kekId ← KeyId.new kekId.value
  let dekId ← KeyId.new dekId.value
  let tenantId ← TenantId.new tenantId.value
  if ciphertext.length < 13 then .error .wrapFailed
  else .ok ⟨kekId, dekId, tenantId, purpose, ciphertext⟩

structure UnwrapGrant where
  tenantId : TenantId
  purpose : KeyPurpose
  expiresUnixSecs : Int

structure UnwrapAudit where
  tenantId : TenantId
  engine : String
  purpose : KeyPurpose
  keyId : KeyId

structure UnwrapOutcome where
  dek : Dek
  audit : UnwrapAudit

def purposeTag : KeyPurpose → String
  | .store => "store"
  | .spill => "spill"
  | .cache => "cache"
  | .backup => "backup"
  | .exports => "export"

def textBytes (text : String) : List UInt8 := text.toByteArray.data.toList

def writeLenBytes (out bytes : List UInt8) : Except KeyError (List UInt8) :=
  if bytes.length < 65536 then .ok (out ++ framed bytes) else .error .wrapFailed

def envelopeAad (tenantId : TenantId) (purpose : KeyPurpose) (dekId : KeyId) : Except KeyError (List UInt8) := do
  let aad ← writeLenBytes [] (textBytes tenantId.value)
  let aad ← writeLenBytes aad (textBytes (purposeTag purpose))
  writeLenBytes aad (textBytes dekId.value)

structure Aead where
  encrypt : Kek → List UInt8 → List UInt8 → List UInt8 → List UInt8
  decrypt : Kek → List UInt8 → List UInt8 → List UInt8 → Option (List UInt8)

section
variable (aead : Aead)

def wrapDek (kek : Kek) (dek : Dek) (tenantId : TenantId) (purpose : KeyPurpose) (dekId : KeyId)
    (nonce : Nonce) : Except KeyError (List UInt8) := do
  let aad ← envelopeAad tenantId purpose dekId
  .ok (nonce.bytes ++ aead.encrypt kek nonce.bytes aad dek.bytes)

def unwrapDek (kek : Kek) (ciphertext : List UInt8) (tenantId : TenantId) (purpose : KeyPurpose)
    (dekId : KeyId) : Except KeyError Dek := do
  if ciphertext.length < 13 then .error .wrapFailed
  else
    let aad ← envelopeAad tenantId purpose dekId
    match aead.decrypt kek (ciphertext.take 12) aad (ciphertext.drop 12) with
    | none => .error .wrapFailed
    | some plain => Key.ofBytes plain

structure ProviderState where
  kekId : KeyId
  kek : Kek
  previous : Option (KeyId × Kek)
  dekRevoked : List String
  kekRevoked : Bool

def ProviderState.new (kekId : KeyId) (kek : Kek) : ProviderState := ⟨kekId, kek, none, [], false⟩

namespace ProviderState
variable (state : ProviderState)

def kekFor (kekId : KeyId) : Except KeyError Kek :=
  if state.kekId = kekId then .ok state.kek
  else
    match state.previous with
    | some (id, key) => if id = kekId then .ok key else .error .unknownKey
    | none => .error .unknownKey

def wrapWithId (tenantId : TenantId) (purpose : KeyPurpose) (dek : Dek) (dekId : KeyId) (nonce : Nonce) :
    Except KeyError WrappedDek := do
  if state.kekRevoked then .error .revoked
  else
    let tenantId ← TenantId.new tenantId.value
    let ciphertext ← wrapDek aead state.kek dek tenantId purpose dekId nonce
    WrappedDek.new state.kekId dekId tenantId purpose ciphertext

def wrap (tenantId : TenantId) (purpose : KeyPurpose) (dek : Dek) (dekId : KeyId) (nonce : Nonce) :
    Except KeyError WrappedDek :=
  state.wrapWithId aead tenantId purpose dek dekId nonce

def rewrap (wrapped : WrappedDek) (dek : Dek) (nonce : Nonce) : Except KeyError WrappedDek := do
  if state.kekRevoked ∨ wrapped.dekId.value ∈ state.dekRevoked then .error .revoked
  else
    let tenantId ← TenantId.new wrapped.tenantId.value
    let dekId ← KeyId.new wrapped.dekId.value
    let kek ← state.kekFor wrapped.kekId
    let recovered ← unwrapDek aead kek wrapped.ciphertext tenantId wrapped.purpose dekId
    if recovered.bytes ≠ dek.bytes then .error .wrapFailed
    else state.wrapWithId aead tenantId wrapped.purpose dek dekId nonce

def unwrap (wrapped : WrappedDek) (grant : UnwrapGrant) (engine : String) (nowUnixSecs : Int) :
    Except KeyError UnwrapOutcome := do
  if state.kekRevoked ∨ wrapped.dekId.value ∈ state.dekRevoked then .error .revoked
  else if nowUnixSecs ≥ grant.expiresUnixSecs then .error .grantDenied
  else
    let tenantId ← TenantId.new wrapped.tenantId.value
    let grantTenant ← TenantId.new grant.tenantId.value
    if tenantId ≠ grantTenant then .error .wrongTenant
    else if wrapped.purpose ≠ grant.purpose then .error .wrongPurpose
    else
      let kek ← state.kekFor wrapped.kekId
      let dek ← unwrapDek aead kek wrapped.ciphertext tenantId wrapped.purpose wrapped.dekId
      .ok ⟨dek, ⟨tenantId, engine, wrapped.purpose, wrapped.dekId⟩⟩

def rotateKek (newKek : Kek) (newId : KeyId) : Except KeyError (ProviderState × KeyId) :=
  if state.kekRevoked then .error .revoked
  else if state.previous.isSome then .error .rotationOverlapActive
  else .ok ({ state with previous := some (state.kekId, state.kek), kek := newKek, kekId := newId }, newId)

def completeKekRotation : Except KeyError ProviderState :=
  if state.kekRevoked then .error .revoked else .ok { state with previous := none }

def revokeKek : ProviderState := { state with kekRevoked := true, kek := .zero, previous := none }

def revokeDek (dekId : KeyId) : Except KeyError (ProviderState × Bool) :=
  if dekId.value ∈ state.dekRevoked then .ok (state, false)
  else if state.dekRevoked.length ≥ maxRevokedDeks then .error .wrapFailed
  else .ok ({ state with dekRevoked := dekId.value :: state.dekRevoked }, true)

end ProviderState

/-- How `persist_atomic` ends: the file holds the new state, or it fails before or after the file is
renamed into its place. -/
inductive Save where
  | saved
  | unsaved
  | unsynced

/-- `disk` is the state that the file holds. -/
structure FileKeyProvider where
  (disk state : ProviderState)
  durable : Bool

namespace FileKeyProvider
variable {α : Type} (provider : FileKeyProvider)

/-- `FileKeyProvider::open`, of a file that exists. -/
def reopen : FileKeyProvider := ⟨provider.disk, provider.disk, true⟩

def persistInner : Save → FileKeyProvider × Except KeyError Unit
  | .saved => (⟨provider.state, provider.state, true⟩, .ok ())
  | .unsaved => (⟨provider.disk, provider.state, false⟩, .error .wrapFailed)
  | .unsynced => (⟨provider.state, provider.state, false⟩, .error .wrapFailed)

def ensureDurable (save : Save) : FileKeyProvider × Except KeyError Unit :=
  if provider.durable then (provider, .ok ()) else provider.persistInner save

def durably (save : Save) (call : FileKeyProvider → FileKeyProvider × Except KeyError α) :
    FileKeyProvider × Except KeyError α :=
  match provider.ensureDurable save with
  | (ready, .ok ()) => call ready
  | (failed, .error error) => (failed, .error error)

def install (state : ProviderState) (value : α) (save : Save) : FileKeyProvider × Except KeyError α :=
  let saved := { provider with state }.persistInner save
  (saved.1, saved.2.map fun _ => value)

def wrap (tenantId : TenantId) (purpose : KeyPurpose) (dek : Dek) (dekId : KeyId) (nonce : Nonce)
    (save : Save) : FileKeyProvider × Except KeyError WrappedDek :=
  provider.durably save fun ready => (ready, ready.state.wrap aead tenantId purpose dek dekId nonce)

def rewrap (wrapped : WrappedDek) (dek : Dek) (nonce : Nonce) (save : Save) :
    FileKeyProvider × Except KeyError WrappedDek :=
  provider.durably save fun ready => (ready, ready.state.rewrap aead wrapped dek nonce)

def unwrap (wrapped : WrappedDek) (grant : UnwrapGrant) (engine : String) (nowUnixSecs : Int)
    (save : Save) : FileKeyProvider × Except KeyError UnwrapOutcome :=
  provider.durably save fun ready => (ready, ready.state.unwrap aead wrapped grant engine nowUnixSecs)

def rotateKek (newKek : Kek) (newId : KeyId) (before after : Save) : FileKeyProvider × Except KeyError KeyId :=
  provider.durably before fun ready =>
    match ready.state.rotateKek newKek newId with
    | .error error => (ready, .error error)
    | .ok (state, id) => ready.install state id after

def completeKekRotation (before after : Save) : FileKeyProvider × Except KeyError Unit :=
  provider.durably before fun ready =>
    match ready.state.completeKekRotation with
    | .error error => (ready, .error error)
    | .ok state =>
      -- without a previous key there is nothing to save
      if ready.state.previous.isNone then ({ ready with state }, .ok ())
      else ready.install state () after

def revokeKek (before after : Save) : FileKeyProvider × Except KeyError Unit :=
  provider.durably before fun ready => ready.install ready.state.revokeKek () after

def revokeDek (dekId : KeyId) (before after : Save) : FileKeyProvider × Except KeyError Unit :=
  provider.durably before fun ready =>
    match ready.state.revokeDek dekId with
    | .error error => (ready, .error error)
    | .ok (state, false) => ({ ready with state }, .ok ())
    | .ok (state, true) => ready.install state () after

end FileKeyProvider

end

end SekaiChisei.Keys
