import SekaiChisei.Receipts.Chain

/-! The verifier of exported bundles, `verify_bundle`, and what it accepts. -/

namespace SekaiChisei.Receipts
open Lib List Option

section Model
variable (crypto : Crypto)

def toAsciiLowercase (value : String) : String := String.ofList (value.toList.map Char.toLower)

def stripPrefix (value start : String) : Option String :=
  if start.toList.isPrefixOf value.toList then some (String.ofList (value.toList.drop start.length))
  else none

def trustedKeyId (value : String) : Except String String :=
  let value := trim value
  match stripPrefix value "sha256:" with
  | some print =>
    if print.utf8ByteSize ≠ 64 ∨ ¬ print.toList.all isHexDigit then
      .error "trusted key id must be sha256: plus 64 hex chars"
    else .ok ("sha256:" ++ toAsciiLowercase print)
  | none => do
    let bytes ← decodeHex32 value "trusted public key must be a 32-byte hexadecimal Ed25519 key"
    return keyId crypto bytes

def trustedKeyIds (trustedKeys : List String) : Except String (List String) :=
  if trustedKeys = [] then .error "trusted public key is required"
  else trustedKeys.mapM (trustedKeyId crypto)

def publishedVerifyingKey (key : PublishedKey) : Except String (String × crypto.VerifyingKey) := do
  let bytes ← decodeHex32 key.publicKeyHex "published public key must be 32 bytes"
  let verifying ← crypto.fromBytes bytes
  if key.keyId ≠ keyId crypto bytes then .error "published key_id does not match public key"
  else .ok (key.keyId, verifying)

def verifyingKeys (keys : List PublishedKey) : Except String (List (String × crypto.VerifyingKey)) :=
  keys.foldlM (fun out key => do
    let (id, verifying) ← publishedVerifyingKey crypto key
    return mapInsert id verifying out) []

variable {crypto}

def verifyEntrySignature (entry : ChainEntry) (keys : List (String × crypto.VerifyingKey)) : Except String Unit :=
  match mapGet keys entry.keyId with
  | none => .error s!"unknown signing key {entry.keyId}"
  | some verifying => do
    let signature ← decodeHex entry.signature 64
    if crypto.verify verifying (entrySignedBytes entry.entryHash) signature then .ok ()
    else .error "entry signature is invalid"

def verifyCheckpoint (checkpoint : Checkpoint) (keys : List (String × crypto.VerifyingKey))
    (nameSpace : String) (position : Nat) : Except VerifyError Unit :=
  let fail (message : String) : VerifyError := ⟨position, checkpoint.headSeq, message⟩
  if checkpoint.nameSpace ≠ nameSpace then
    .error (fail "checkpoint namespace does not match the bundle")
  else match mapGet keys checkpoint.keyId with
  | none => .error (fail s!"unknown checkpoint signing key {checkpoint.keyId}")
  | some verifying => do
    let signature ← (decodeHex checkpoint.signature 64).mapError fail
    if crypto.verify verifying (checkpointSignedBytes checkpoint) signature then .ok ()
    else .error (fail "checkpoint signature is invalid")

def verifyEntry (keys : List (String × crypto.VerifyingKey)) (nameSpace : String) (index : Nat)
    (prevHash : String) (entry : ChainEntry) : Except VerifyError Unit :=
  let fail (message : String) : VerifyError := ⟨index, entry.seq, message⟩
  let seq : Int := index + 1
  if entry.nameSpace ≠ nameSpace then .error (fail "entry namespace does not match the bundle")
  else if entry.seq ≠ seq then .error (fail s!"expected seq {seq}")
  else if entry.prevHash ≠ prevHash then .error (fail "prev_hash does not match the previous entry")
  else if entry.entryHash ≠ entryHash crypto entry.seq entry.prevHash entry.nameSpace entry.kind
      entry.receiptId entry.receiptJson entry.createdAtMs then
    .error (fail "entry_hash mismatch")
  else (verifyEntrySignature entry keys).mapError fail

def verifyEntries (keys : List (String × crypto.VerifyingKey)) (nameSpace : String) :
    Nat → String → List ChainEntry → Except VerifyError Unit
  | _, _, [] => .ok ()
  | index, prevHash, entry :: entries => do
    verifyEntry keys nameSpace index prevHash entry
    verifyEntries keys nameSpace (index + 1) entry.entryHash entries

def verifyGenesis (bundle : ReceiptChainBundle) (keys : List (String × crypto.VerifyingKey)) :
    Except VerifyError Unit :=
  match bundle.checkpoints.find? (·.kind = .genesis) with
  | none => .error ⟨0, 0, "missing genesis checkpoint"⟩
  | some genesis => do
    verifyCheckpoint genesis keys bundle.nameSpace 0
    if genesis.headSeq ≠ 0 ∨ genesis.entryCount ≠ 0 ∨ genesis.headHash ≠ genesisHeadHash then
      .error ⟨0, 0, "genesis checkpoint does not describe an empty prefix"⟩
    else .ok ()

def verifyLatest (bundle : ReceiptChainBundle) (keys : List (String × crypto.VerifyingKey)) :
    Except VerifyError Unit :=
  let (headSeq, headHash) := headOf bundle.entries
  let position := bundle.entries.length - 1
  match bundle.checkpoints.find? (·.kind = .latest) with
  | none => .error ⟨position, headSeq, "missing latest checkpoint"⟩
  | some latest => do
    verifyCheckpoint latest keys bundle.nameSpace position
    if latest.headSeq ≠ headSeq ∨ latest.headHash ≠ headHash ∨ latest.entryCount ≠ headSeq then
      .error ⟨position, headSeq, "latest checkpoint does not match the chain head"⟩
    else .ok ()

def verifyPeriodic (bundle : ReceiptChainBundle) (keys : List (String × crypto.VerifyingKey))
    (checkpoint : Checkpoint) : Except VerifyError Unit :=
  if checkpoint.kind ≠ .periodic then .ok ()
  else
    let position := (checkpoint.headSeq - 1).toNat
    let fail (message : String) : VerifyError := ⟨position, checkpoint.headSeq, message⟩
    do
      verifyCheckpoint checkpoint keys bundle.nameSpace position
      match bundle.entries.find? (·.seq = checkpoint.headSeq) with
      | none => .error (fail "periodic checkpoint does not name a chain entry")
      | some entry =>
        if checkpoint.headHash ≠ entry.entryHash ∨ checkpoint.entryCount ≠ checkpoint.headSeq then
          .error (fail "periodic checkpoint does not match the named entry")
        else .ok ()

variable (crypto)

def trustedKeys (bundle : ReceiptChainBundle) (trusted : List String) :
    Except VerifyError (List (String × crypto.VerifyingKey)) := do
  let ids ← (trustedKeyIds crypto trusted).mapError (⟨0, 0, ·⟩)
  let keys ← (verifyingKeys crypto bundle.keys).mapError (⟨0, 0, ·⟩)
  let keys := keys.filter fun key => key.1 ∈ ids
  if keys = [] then .error ⟨0, 0, "bundle signing keys are not in the trusted set"⟩ else .ok keys

def verifyBundle (bundle : ReceiptChainBundle) (trusted : List String) : Except VerifyError Unit :=
  if bundle.bundleVersion ≠ Receipts.bundleVersion then
    .error ⟨0, 0, s!"unsupported bundle version {bundle.bundleVersion}"⟩
  else if bundle.nameSpace = "" then .error ⟨0, 0, "bundle namespace must be non-empty"⟩
  else do
    let keys ← trustedKeys crypto bundle trusted
    verifyGenesis bundle keys
    verifyEntries keys bundle.nameSpace 0 genesisHeadHash bundle.entries
    verifyLatest bundle keys
    bundle.checkpoints.forM (verifyPeriodic bundle keys)

end Model

section Spec
variable {crypto : Crypto} {keys : List (String × crypto.VerifyingKey)} {nameSpace : String}

abbrev Signer := String → List UInt8 → String → Prop

def Signed (keys : List (String × crypto.VerifyingKey)) : Signer := fun id message signature =>
  ∃ verifying, mapGet keys id = some verifying ∧
    ∃ bytes, decodeHex signature 64 = .ok bytes ∧ crypto.verify verifying message bytes

theorem ite_ok_eq_ok {ε : Type} {c : Prop} [Decidable c] {e : ε} :
    (if c then .ok () else .error e) = Except.ok () ↔ c := by
  by_cases holds : c <;> simp [holds]

variable {entry : ChainEntry}

theorem verifyEntrySignature_eq_ok : verifyEntrySignature entry keys = .ok () ↔
    Signed keys entry.keyId (entrySignedBytes entry.entryHash) entry.signature := by
  unfold verifyEntrySignature Signed
  cases mapGet keys entry.keyId with
  | none => simp
  | some verifying => simp [bind_eq_ok]

structure CheckpointOk (signer : Signer) (nameSpace : String) (checkpoint : Checkpoint) : Prop where
  nameSpace : checkpoint.nameSpace = nameSpace
  signed : signer checkpoint.keyId (checkpointSignedBytes checkpoint) checkpoint.signature

variable {checkpoint : Checkpoint}

theorem verifyCheckpoint_eq_ok {position : Nat} : verifyCheckpoint checkpoint keys nameSpace position = .ok () ↔
      CheckpointOk (Signed keys) nameSpace checkpoint := by
  rw [verifyCheckpoint, ite_error_eq_ok, not_not]
  constructor
  · rintro ⟨same, checked⟩
    cases found : mapGet keys checkpoint.keyId with
    | none => simp [found] at checked
    | some verifying =>
      rw [found] at checked
      obtain ⟨bytes, decoded, verified⟩ := bind_eq_ok.mp checked
      exact ⟨same, verifying, found, bytes, mapError_eq_ok.mp decoded, ite_ok_eq_ok.mp verified⟩
  · rintro ⟨same, verifying, found, bytes, decoded, verified⟩
    rw [found]
    exact ⟨same, bind_eq_ok.mpr ⟨bytes, mapError_eq_ok.mpr decoded, ite_ok_eq_ok.mpr verified⟩⟩

structure EntryOk (crypto : Crypto) (signer : Signer) (nameSpace : String) (index : Nat)
    (prevHash : String) (entry : ChainEntry) : Prop where
  nameSpace : entry.nameSpace = nameSpace
  seq : entry.seq = index + 1
  prevHash : entry.prevHash = prevHash
  entryHash : entry.entryHash = entryHash crypto entry.seq entry.prevHash entry.nameSpace entry.kind
    entry.receiptId entry.receiptJson entry.createdAtMs
  signed : signer entry.keyId (entrySignedBytes entry.entryHash) entry.signature

variable {prevHash : String}

theorem verifyEntry_eq_ok {index : Nat} : verifyEntry keys nameSpace index prevHash entry = .ok () ↔
      EntryOk crypto (Signed keys) nameSpace index prevHash entry := by
  simp only [verifyEntry, ite_error_eq_ok, not_not, mapError_eq_ok, verifyEntrySignature_eq_ok]
  constructor
  · rintro ⟨space, seq, prev, hash, signed⟩
    exact ⟨space, seq, prev, hash, signed⟩
  · rintro ⟨space, seq, prev, hash, signed⟩
    exact ⟨space, seq, prev, hash, signed⟩

def Chained (crypto : Crypto) (signer : Signer) (nameSpace : String) : Nat → String → List ChainEntry → Prop
  | _, _, [] => True
  | index, prevHash, entry :: entries =>
    EntryOk crypto signer nameSpace index prevHash entry ∧
      Chained crypto signer nameSpace (index + 1) entry.entryHash entries

theorem verifyEntries_eq_ok {index : Nat} {entries : List ChainEntry} :
    verifyEntries keys nameSpace index prevHash entries = .ok () ↔
      Chained crypto (Signed keys) nameSpace index prevHash entries := by
  induction entries generalizing index prevHash with
  | nil => simp [verifyEntries, Chained]
  | cons entry entries ih =>
    rw [verifyEntries, check_eq_ok, Chained, ← ih, ← verifyEntry_eq_ok]

variable {bundle : ReceiptChainBundle}

@[mk_iff] structure Names (checkpoint : Checkpoint) (seq : Int) (hash : String) : Prop where
  headSeq : checkpoint.headSeq = seq
  headHash : checkpoint.headHash = hash
  entryCount : checkpoint.entryCount = seq

def GenesisOk (signer : Signer) (bundle : ReceiptChainBundle) : Prop :=
  ∃ genesis, bundle.checkpoints.find? (·.kind = .genesis) = some genesis ∧
    CheckpointOk signer bundle.nameSpace genesis ∧ Names genesis 0 genesisHeadHash

theorem verifyGenesis_eq_ok : verifyGenesis bundle keys = .ok () ↔ GenesisOk (Signed keys) bundle := by
  unfold verifyGenesis GenesisOk
  cases bundle.checkpoints.find? (·.kind = .genesis) with
  | none => simp
  | some genesis =>
    simp only [check_eq_ok, ite_error_eq_ok, not_or, not_not, ne_eq, verifyCheckpoint_eq_ok,
      some.injEq, exists_eq_left', names_iff]
    tauto

def LatestOk (signer : Signer) (bundle : ReceiptChainBundle) : Prop :=
  ∃ latest, bundle.checkpoints.find? (·.kind = .latest) = some latest ∧ CheckpointOk signer bundle.nameSpace latest ∧
      Names latest (headOf bundle.entries).1 (headOf bundle.entries).2

theorem verifyLatest_eq_ok : verifyLatest bundle keys = .ok () ↔ LatestOk (Signed keys) bundle := by
  unfold verifyLatest LatestOk
  cases bundle.checkpoints.find? (·.kind = .latest) with
  | none => simp
  | some latest =>
    simp only [check_eq_ok, ite_error_eq_ok, not_or, not_not, ne_eq, verifyCheckpoint_eq_ok,
      some.injEq, exists_eq_left', names_iff]
    tauto

def PeriodicOk (signer : Signer) (bundle : ReceiptChainBundle) (checkpoint : Checkpoint) : Prop :=
  CheckpointOk signer bundle.nameSpace checkpoint ∧
    ∃ entry, bundle.entries.find? (·.seq = checkpoint.headSeq) = some entry ∧
      Names checkpoint checkpoint.headSeq entry.entryHash

theorem verifyPeriodic_eq_ok : verifyPeriodic bundle keys checkpoint = .ok () ↔
      (checkpoint.kind = .periodic → PeriodicOk (Signed keys) bundle checkpoint) := by
  unfold verifyPeriodic PeriodicOk
  by_cases periodic : checkpoint.kind = .periodic
  · simp only [periodic, ne_eq, not_true_eq_false, if_false, check_eq_ok, verifyCheckpoint_eq_ok]
    cases bundle.entries.find? (·.seq = checkpoint.headSeq) with
    | none => simp
    | some entry =>
      simp only [ite_error_eq_ok, some.injEq, exists_eq_left', names_iff]
      tauto
  · simp [periodic]

structure Ready (crypto : Crypto) (signer : Signer) (bundle : ReceiptChainBundle) : Prop where
  version : bundle.bundleVersion = Receipts.bundleVersion
  nameSpace : bundle.nameSpace ≠ ""
  genesis : GenesisOk signer bundle
  chained : Chained crypto signer bundle.nameSpace 0 genesisHeadHash bundle.entries
  periodic : ∀ checkpoint ∈ bundle.checkpoints, checkpoint.kind = .periodic → PeriodicOk signer bundle checkpoint

structure Accepted (crypto : Crypto) (signer : Signer) (bundle : ReceiptChainBundle) : Prop
    extends Ready crypto signer bundle where
  latest : LatestOk signer bundle

theorem verifyBundle_eq_ok {trusted : List String} : verifyBundle crypto bundle trusted = .ok () ↔
    ∃ keys, trustedKeys crypto bundle trusted = .ok keys ∧ Accepted crypto (Signed keys) bundle := by
  rw [verifyBundle, ite_error_eq_ok, not_not, ite_error_eq_ok, bind_eq_ok]
  simp only [check_eq_ok, verifyGenesis_eq_ok, verifyEntries_eq_ok, verifyLatest_eq_ok, forM_eq_ok,
    verifyPeriodic_eq_ok]
  constructor
  · rintro ⟨version, space, keys, trustedOk, genesis, chained, latest, periodic⟩
    exact ⟨keys, trustedOk, ⟨version, space, genesis, chained, periodic⟩, latest⟩
  · rintro ⟨keys, trustedOk, ⟨version, space, genesis, chained, periodic⟩, latest⟩
    exact ⟨version, space, keys, trustedOk, genesis, chained, latest, periodic⟩

end Spec

section Chains
variable {crypto : Crypto} {signer : Signer} {nameSpace : String} {entries : List ChainEntry} {entry : ChainEntry}
  {prevHash : String}

theorem headOf_append : headOf (entries ++ [entry]) = (entry.seq, entry.entryHash) := by
  simp [headOf]

def lastHash (prevHash : String) (entries : List ChainEntry) : String :=
  (entries.getLast?.map (·.entryHash)).getD prevHash

theorem lastHash_cons : lastHash prevHash (entry :: entries) = lastHash entry.entryHash entries := by
  cases entries with
  | nil => rfl
  | cons next rest =>
    simp only [lastHash]
    rfl

theorem lastHash_genesis : lastHash genesisHeadHash entries = (headOf entries).2 := by
  unfold lastHash headOf
  cases entries.getLast? <;> rfl

variable {index : Nat}

section
variable (chained : Chained crypto signer nameSpace index prevHash entries)
include chained

theorem Chained.append
    (next : EntryOk crypto signer nameSpace (index + entries.length) (lastHash prevHash entries) entry) :
    Chained crypto signer nameSpace index prevHash (entries ++ [entry]) := by
  induction entries generalizing index prevHash with
  | nil => exact ⟨next, trivial⟩
  | cons first rest ih =>
    refine ⟨chained.1, ih chained.2 ?_⟩
    rw [lastHash_cons] at next
    have shift : index + 1 + rest.length = index + (first :: rest).length := by
      rw [length_cons]
      omega
    rwa [shift]

theorem Chained.seq {position : Nat} (found : entries[position]? = some entry) :
    entry.seq = index + position + 1 := by
  induction entries generalizing index prevHash position with
  | nil => simp at found
  | cons first rest ih =>
    cases position with
    | zero =>
      obtain rfl : first = entry := by simpa using found
      simpa using chained.1.seq
    | succ position =>
      have := ih chained.2 (by simpa using found)
      omega

theorem Chained.seq_le (member : entry ∈ entries) : entry.seq ≤ index + entries.length := by
  obtain ⟨position, found⟩ := mem_iff_getElem?.mp member
  obtain ⟨inside, _⟩ := List.getElem?_eq_some_iff.mp found
  have := chained.seq found
  omega

end

theorem Chained.headOf_fst (chained : Chained crypto signer nameSpace 0 genesisHeadHash entries) :
    (headOf entries).1 = entries.length := by
  unfold headOf
  cases last : entries.getLast? with
  | none =>
    rw [getLast?_eq_none_iff] at last
    simp [last]
  | some entry =>
    rw [getLast?_eq_getElem?] at last
    obtain ⟨inside, _⟩ := List.getElem?_eq_some_iff.mp last
    have := chained.seq last
    simp only [this]
    omega

theorem Chained.left {more : List ChainEntry}
    (chained : Chained crypto signer nameSpace index prevHash (entries ++ more)) :
    Chained crypto signer nameSpace index prevHash entries := by
  induction entries generalizing index prevHash with
  | nil => trivial
  | cons first rest ih => exact ⟨chained.1, ih chained.2⟩

theorem Chained.find?_last (chained : Chained crypto signer nameSpace index prevHash (entries ++ [entry])) :
    (entries ++ [entry]).find? (·.seq = entry.seq) = some entry := by
  have last : entry.seq = index + entries.length + 1 := chained.seq (by simp)
  have others : entries.find? (·.seq = entry.seq) = none := by
    rw [find?_eq_none]
    intro other member same
    have bound := chained.left.seq_le member
    simp only [decide_eq_true_eq] at same
    omega
  rw [find?_append, others]
  simp

end Chains

end SekaiChisei.Receipts
