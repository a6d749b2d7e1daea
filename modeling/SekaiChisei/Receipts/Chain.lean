import SekaiChisei.Lib.Fallible
import SekaiChisei.Lib.Json

/-!
The signed receipt chain of `receipt_chain.rs`. SHA-256 and Ed25519 are the fields of `Crypto`. A vector is shorter
than `i64::MAX`, so sequence numbers do not overflow.
-/

namespace SekaiChisei.Receipts
open Lib

def bundleVersion : String := "sekai.receipt-chain/v1"
def digestAlgorithm : String := "sha-256"
def signatureAlgorithm : String := "ed25519"
def genesisHeadHash : String :=
  "sha256:0000000000000000000000000000000000000000000000000000000000000000"
def checkpointInterval : Int := 32
def entryDomain : String := "SEKAI-RECEIPT-CHAIN-ENTRY-V1\x00"
def checkpointDomain : String := "SEKAI-RECEIPT-CHAIN-CHECKPOINT-V1\x00"

structure Crypto where
  sha256 : List UInt8 → List UInt8
  (SigningKey VerifyingKey : Type)
  fromSeed : List UInt8 → SigningKey
  verifyingKey : SigningKey → VerifyingKey
  asBytes : VerifyingKey → List UInt8
  fromBytes : List UInt8 → Except String VerifyingKey
  sign : SigningKey → List UInt8 → List UInt8
  verify : VerifyingKey → List UInt8 → List UInt8 → Bool

inductive ReceiptKind where
  | action | transformRun | agentTurn

def ReceiptKind.asStr : ReceiptKind → String
  | action => "action"
  | transformRun => "transform_run"
  | agentTurn => "agent_turn"

inductive CheckpointKind where
  | genesis | periodic | latest
  deriving DecidableEq

def CheckpointKind.asStr : CheckpointKind → String
  | genesis => "genesis"
  | periodic => "periodic"
  | latest => "latest"

structure ChainEntry where
  seq : Int
  nameSpace : String
  kind : ReceiptKind
  (receiptId receiptJson prevHash entryHash keyId signature : String)
  createdAtMs : Int

structure Checkpoint where
  nameSpace : String
  kind : CheckpointKind
  headSeq : Int
  headHash : String
  entryCount : Int
  (keyId signature : String)
  createdAtMs : Int

structure PublishedKey where
  (keyId publicKeyHex : String)
  createdAtMs : Int
  retiredAtMs : Option Int
  deriving DecidableEq

structure ReceiptChainBundle where
  (bundleVersion nameSpace digestAlgorithm signatureAlgorithm : String)
  keys : List PublishedKey
  checkpoints : List Checkpoint
  entries : List ChainEntry

structure VerifyError where
  position : Nat
  seq : Int
  message : String

section Maps
variable {α : Type}

/-- `BTreeMap::insert`, on the pairs in order. -/
def mapInsert (key : String) (value : α) : List (String × α) → List (String × α)
  | [] => [(key, value)]
  | (other, old) :: rest =>
    if key < other then (key, value) :: (other, old) :: rest
    else if key = other then (key, value) :: rest
    else (other, old) :: mapInsert key value rest

/-- `BTreeMap::get_mut`, and a change of what it finds. -/
def mapAdjust (key : String) (change : α → α) (map : List (String × α)) : List (String × α) :=
  map.map fun entry => if entry.1 = key then (entry.1, change entry.2) else entry

def mapGet (map : List (String × α)) (key : String) : Option α :=
  (map.find? (·.1 = key)).map Prod.snd

end Maps

def textBytes (text : String) : List UInt8 := text.toByteArray.data.toList

def decodeHex (value : String) (expectedLen : Nat) : Except String (List UInt8) :=
  if value.utf8ByteSize ≠ expectedLen * 2 ∨ ¬ value.toList.all isHexDigit then
    .error s!"expected {expectedLen} bytes of hexadecimal, got {value.utf8ByteSize} chars"
  else .ok (ofHexPairs value.toList)

def decodeHex32 (value error : String) : Except String (List UInt8) :=
  (decodeHex value 32).mapError fun _ => error

def entrySignedBytes (entryHash : String) : List UInt8 := textBytes (entryDomain ++ entryHash)

def checkpointSignedBytes (checkpoint : Checkpoint) : List UInt8 :=
  textBytes <| checkpointDomain ++ Json.array [Json.string checkpoint.nameSpace, Json.string checkpoint.kind.asStr,
      Json.number checkpoint.headSeq, Json.string checkpoint.headHash,
      Json.number checkpoint.entryCount, Json.string checkpoint.keyId,
      Json.number checkpoint.createdAtMs]

def entryPreimage (seq : Int) (prevHash nameSpace : String) (kind : ReceiptKind)
    (receiptId receiptJson : String) (createdAtMs : Int) : String :=
  Json.array [Json.number seq, Json.string prevHash, Json.string nameSpace, Json.string kind.asStr,
    Json.string receiptId, Json.string receiptJson, Json.number createdAtMs]

section
variable (crypto : Crypto)

def fingerprint (bytes : List UInt8) : String := "sha256:" ++ toHex (crypto.sha256 bytes)

def entryHash (seq : Int) (prevHash nameSpace : String) (kind : ReceiptKind)
    (receiptId receiptJson : String) (createdAtMs : Int) : String :=
  fingerprint crypto (textBytes (entryPreimage seq prevHash nameSpace kind receiptId receiptJson createdAtMs))

def keyId (publicKey : List UInt8) : String := fingerprint crypto publicKey

def signingKeyFromHex (value : String) : Except String crypto.SigningKey := do
  let seed ← decodeHex32 value "receipt-chain signing key must be a 32-byte hexadecimal Ed25519 seed"
  return crypto.fromSeed seed

end

structure SigningKeySet (crypto : Crypto) where
  current : crypto.SigningKey
  verifying : List (String × crypto.VerifyingKey)
  published : List (String × PublishedKey)

namespace SigningKeySet
variable {crypto : Crypto}

variable (keys : SigningKeySet crypto)

def publicKey : List UInt8 :=
  crypto.asBytes (crypto.verifyingKey keys.current)

def currentKeyId : String := keyId crypto keys.publicKey

def publishedKeys : List PublishedKey := keys.published.map Prod.snd

def recordCurrent (createdAtMs : Int) : SigningKeySet crypto :=
  { keys with
    verifying := mapInsert keys.currentKeyId (crypto.verifyingKey keys.current) keys.verifying
    published := mapInsert keys.currentKeyId
      ⟨keys.currentKeyId, toHex keys.publicKey, createdAtMs, none⟩ keys.published }

def fromSeedHex (crypto : Crypto) (seedHex : String) (createdAtMs : Int) : Except String (SigningKeySet crypto) := do
  let current ← signingKeyFromHex crypto seedHex
  return recordCurrent ⟨current, [], []⟩ createdAtMs

def trustPublicKey (publicKeyHex : String) (createdAtMs : Int) :
    Except String String × SigningKeySet crypto :=
  match decodeHex32 publicKeyHex "trusted public key must be a 32-byte hexadecimal Ed25519 key" with
  | .error message => (.error message, keys)
  | .ok bytes =>
    match crypto.fromBytes bytes with
    | .error message => (.error message, keys)
    | .ok verifying =>
      let id := keyId crypto bytes
      (.ok id, { keys with
          verifying := mapInsert id verifying keys.verifying
          published :=
            -- `entry(..).or_insert(..)`
            if (mapGet keys.published id).isSome then keys.published
            else mapInsert id ⟨id, toHex bytes, createdAtMs, some createdAtMs⟩ keys.published })

def retireCurrent (createdAtMs : Int) : SigningKeySet crypto :=
  { keys with
    published := mapAdjust keys.currentKeyId
      (fun key => { key with retiredAtMs := some createdAtMs }) keys.published }

/-- The returned id, and the key set after the call. The current key is retired before the seed is
read, so a call that fails retires it as well. -/
def rotate (seedHex : String) (createdAtMs : Int) :
    Except String String × SigningKeySet crypto :=
  let retired := keys.retireCurrent createdAtMs
  match signingKeyFromHex crypto seedHex with
  | .error message => (.error message, retired)
  | .ok next =>
    let keys := recordCurrent { retired with current := next } createdAtMs
    (.ok keys.currentKeyId, keys)

def signEntryHash (entryHash : String) : String :=
  toHex (crypto.sign keys.current (entrySignedBytes entryHash))

def signCheckpoint (checkpoint : Checkpoint) : String :=
  toHex (crypto.sign keys.current (checkpointSignedBytes checkpoint))

end SigningKeySet

structure ReceiptChain (crypto : Crypto) where
  nameSpace : String
  keys : SigningKeySet crypto
  entries : List ChainEntry
  checkpoints : List Checkpoint

def headOf (entries : List ChainEntry) : Int × String :=
  match entries.getLast? with
  | some entry => (entry.seq, entry.entryHash)
  | none => (0, genesisHeadHash)

namespace ReceiptChain
variable {crypto : Crypto}

def signCheckpoint (chain : ReceiptChain crypto) (kind : CheckpointKind) (headSeq : Int)
    (headHash : String) (entryCount createdAtMs : Int) : Checkpoint :=
  let checkpoint : Checkpoint :=
    ⟨chain.nameSpace, kind, headSeq, headHash, entryCount, chain.keys.currentKeyId, "", createdAtMs⟩
  { checkpoint with signature := chain.keys.signCheckpoint checkpoint }

variable (chain : ReceiptChain crypto)

def upsertLatest (createdAtMs : Int) : ReceiptChain crypto :=
  let (headSeq, headHash) := headOf chain.entries
  let latest := chain.signCheckpoint .latest headSeq headHash headSeq createdAtMs
  { chain with checkpoints := chain.checkpoints.filter (·.kind ≠ .latest) ++ [latest] }

def genesis (nameSpace : String) (keys : SigningKeySet crypto) (createdAtMs : Int) :
    Except String (ReceiptChain crypto) :=
  if nameSpace = "" then .error "receipt chain namespace must be non-empty"
  else
    let chain : ReceiptChain crypto := ⟨nameSpace, keys, [], []⟩
    let genesis := chain.signCheckpoint .genesis 0 genesisHeadHash 0 createdAtMs
    .ok ({ chain with checkpoints := [genesis] }.upsertLatest createdAtMs)

def nextEntry (kind : ReceiptKind) (receiptId receiptJson : String)
    (createdAtMs : Int) : ChainEntry :=
  let seq : Int := chain.entries.length + 1
  let prevHash := (headOf chain.entries).2
  let hash := entryHash crypto seq prevHash chain.nameSpace kind receiptId receiptJson createdAtMs
  ⟨seq, chain.nameSpace, kind, receiptId, receiptJson, prevHash, hash, chain.keys.currentKeyId,
    chain.keys.signEntryHash hash, createdAtMs⟩

def append (kind : ReceiptKind) (receiptId receiptJson : String)
    (createdAtMs : Int) : Except String (ReceiptChain crypto) :=
  if receiptId = "" then .error "receipt_id must be non-empty"
  else if receiptJson = "" then .error "receipt_json must be non-empty"
  else
    let entry := chain.nextEntry kind receiptId receiptJson createdAtMs
    let chain := { chain with entries := chain.entries ++ [entry] }.upsertLatest createdAtMs
    if entry.seq % checkpointInterval = 0 then
      let periodic := chain.signCheckpoint .periodic entry.seq entry.entryHash entry.seq createdAtMs
      .ok { chain with checkpoints := chain.checkpoints ++ [periodic] }
    else .ok chain

def rotate (chain : ReceiptChain crypto) (seedHex : String) (createdAtMs : Int) :
    Except String String × ReceiptChain crypto :=
  let (id, keys) := chain.keys.rotate seedHex createdAtMs
  (id, { chain with keys := keys })

def bundle : ReceiptChainBundle :=
  ⟨Receipts.bundleVersion, chain.nameSpace, Receipts.digestAlgorithm, Receipts.signatureAlgorithm,
    chain.keys.publishedKeys, chain.checkpoints, chain.entries⟩

end ReceiptChain

end SekaiChisei.Receipts
