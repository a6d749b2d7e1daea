import SekaiChisei.Receipts.Keys

/-!
Every bundle that a chain exports is accepted. The invariant is that the chain's own bundle meets
the verifier's conditions with the signatures its keys wrote.
-/

namespace SekaiChisei.Receipts
open Lib List Option

variable {crypto : Crypto}

def WrittenBy (keys : SigningKeySet crypto) : Signer := fun id message signature =>
  ∃ key : crypto.SigningKey, Publishes keys (crypto.asBytes (crypto.verifyingKey key)) ∧
    id = keyId crypto (crypto.asBytes (crypto.verifyingKey key)) ∧
    signature = toHex (crypto.sign key message)

theorem WrittenBy.grows {keys keys' : SigningKeySet crypto} (grows : Grows keys keys') {id : String}
    {message : List UInt8} {signature : String} (written : WrittenBy keys id message signature) :
    WrittenBy keys' id message signature := by
  obtain ⟨key, published, named, signed⟩ := written
  exact ⟨key, grows _ published, named, signed⟩

def signerIds (bundle : ReceiptChainBundle) : List String :=
  bundle.entries.map (·.keyId) ++ bundle.checkpoints.map (·.keyId)

section Monotone
variable {signer signer' : Signer} {nameSpace : String}

theorem CheckpointOk.mono {checkpoint : Checkpoint}
    (imp : ∀ message signature, signer checkpoint.keyId message signature →
      signer' checkpoint.keyId message signature)
    (ok : CheckpointOk signer nameSpace checkpoint) : CheckpointOk signer' nameSpace checkpoint :=
  ⟨ok.nameSpace, imp _ _ ok.signed⟩

theorem Chained.mono {index : Nat} {prevHash : String} {entries : List ChainEntry}
    (imp : ∀ entry ∈ entries, ∀ message signature, signer entry.keyId message signature →
      signer' entry.keyId message signature) (chained : Chained crypto signer nameSpace index prevHash entries) :
    Chained crypto signer' nameSpace index prevHash entries := by
  induction entries generalizing index prevHash with
  | nil => trivial
  | cons entry entries ih =>
    obtain ⟨ok, rest⟩ := chained
    obtain ⟨first, others⟩ := forall_mem_cons.mp imp
    exact ⟨⟨ok.nameSpace, ok.seq, ok.prevHash, ok.entryHash, first _ _ ok.signed⟩, ih others rest⟩

theorem Accepted.mono {bundle : ReceiptChainBundle}
    (imp : ∀ id ∈ signerIds bundle, ∀ message signature, signer id message signature → signer' id message signature)
    (accepted : Accepted crypto signer bundle) : Accepted crypto signer' bundle := by
  have ofEntry : ∀ entry ∈ bundle.entries, entry.keyId ∈ signerIds bundle := fun entry member =>
    mem_append_left _ (List.mem_map_of_mem member)
  have ofCheckpoint : ∀ checkpoint ∈ bundle.checkpoints, checkpoint.keyId ∈ signerIds bundle :=
    fun checkpoint member => mem_append_right _ (List.mem_map_of_mem member)
  obtain ⟨genesis, foundGenesis, genesisOk, genesisNames⟩ := accepted.genesis
  obtain ⟨latest, foundLatest, latestOk, latestNames⟩ := accepted.latest
  refine ⟨⟨accepted.version, accepted.nameSpace, ?_, ?_, ?_⟩, ?_⟩
  · have inside := ofCheckpoint genesis (mem_of_find?_eq_some foundGenesis)
    exact ⟨genesis, foundGenesis, genesisOk.mono (imp _ inside), genesisNames⟩
  · exact accepted.chained.mono fun entry member => imp _ (ofEntry entry member)
  · intro checkpoint member periodic
    obtain ⟨ok, named⟩ := accepted.periodic checkpoint member periodic
    exact ⟨ok.mono (imp _ (ofCheckpoint checkpoint member)), named⟩
  · have inside := ofCheckpoint latest (mem_of_find?_eq_some foundLatest)
    exact ⟨latest, foundLatest, latestOk.mono (imp _ inside), latestNames⟩

end Monotone

namespace ReceiptChain
variable {chain : ReceiptChain crypto}

structure Ok (recorded : Set (List UInt8)) (chain : ReceiptChain crypto) : Prop where
  keys : KeysOk recorded chain.keys
  accepted : Accepted crypto (WrittenBy chain.keys) chain.bundle

variable {keys : SigningKeySet crypto} {createdAtMs : Int}

theorem signCheckpoint_ok (chain : ReceiptChain crypto) (same : chain.keys = keys)
    (current : Publishes keys keys.publicKey) (kind : CheckpointKind) (headSeq : Int)
    (headHash : String) (entryCount createdAtMs : Int) : CheckpointOk (WrittenBy keys) chain.nameSpace
      (chain.signCheckpoint kind headSeq headHash entryCount createdAtMs) := by
  subst same
  exact ⟨rfl, chain.keys.current, current, rfl, rfl⟩

theorem nextEntry_ok (same : chain.keys = keys)
    (current : Publishes keys keys.publicKey) (kind : ReceiptKind) (receiptId receiptJson : String) :
    EntryOk crypto (WrittenBy keys) chain.nameSpace chain.entries.length (headOf chain.entries).2
      (chain.nextEntry kind receiptId receiptJson createdAtMs) := by
  subst same
  exact ⟨rfl, rfl, rfl, rfl, chain.keys.current, current, rfl, rfl⟩

theorem find?_append_left {α : Type} {p : α → Bool} {items more : List α} {item : α}
    (found : items.find? p = some item) : (items ++ more).find? p = some item := by
  rw [find?_append, found, some_or]

variable {checkpoints : List Checkpoint}

theorem find?_latest {latest : Checkpoint} (kind : latest.kind = .latest) :
    (checkpoints.filter (·.kind ≠ .latest) ++ [latest]).find? (·.kind = .latest) = some latest := by
  have others : (checkpoints.filter (·.kind ≠ .latest)).find? (·.kind = .latest) = none := by
    rw [find?_eq_none]
    intro checkpoint member
    have other := of_mem_filter member
    simpa using other
  rw [find?_append, others]
  simp [kind]

theorem find?_genesis_filter :
    (checkpoints.filter (·.kind ≠ .latest)).find? (·.kind = .genesis) = checkpoints.find? (·.kind = .genesis) := by
  rw [find?_filter]
  congr 1
  funext checkpoint
  by_cases genesis : checkpoint.kind = .genesis <;> simp [genesis]

theorem upsertLatest_accepted (chain : ReceiptChain crypto) (current : Publishes chain.keys chain.keys.publicKey)
    (ready : Ready crypto (WrittenBy chain.keys) chain.bundle) (createdAtMs : Int) :
    Accepted crypto (WrittenBy chain.keys) (chain.upsertLatest createdAtMs).bundle := by
  obtain ⟨genesis, found, genesisOk, named⟩ := ready.genesis
  have latestOk := signCheckpoint_ok chain rfl current .latest (headOf chain.entries).1
    (headOf chain.entries).2 (headOf chain.entries).1 createdAtMs
  refine ⟨⟨ready.version, ready.nameSpace, ⟨genesis, ?_, genesisOk, named⟩, ready.chained, ?_⟩,
    ⟨_, ?_, latestOk, rfl, rfl, rfl⟩⟩
  · exact find?_append_left (find?_genesis_filter.trans found)
  · intro checkpoint member periodic
    rcases mem_appended.mp member with old | rfl
    · exact ready.periodic checkpoint (mem_of_mem_filter old) periodic
    · cases periodic
  · exact find?_latest rfl

variable {recorded : Set (List UInt8)}

theorem genesis_ok (ok : KeysOk recorded keys) {nameSpace : String}
    (run : ReceiptChain.genesis nameSpace keys createdAtMs = .ok chain) : chain.Ok recorded := by
  obtain ⟨named, run⟩ := ite_error_eq_ok.mp run
  cases run
  let bare : ReceiptChain crypto := ⟨nameSpace, keys, [], []⟩
  let first := bare.signCheckpoint .genesis 0 genesisHeadHash 0 createdAtMs
  let start : ReceiptChain crypto := { bare with checkpoints := [first] }
  have firstOk : CheckpointOk (WrittenBy keys) nameSpace first :=
    signCheckpoint_ok bare rfl ok.current .genesis 0 genesisHeadHash 0 createdAtMs
  have ready : Ready crypto (WrittenBy keys) start.bundle := by
    refine ⟨rfl, named, ⟨first, rfl, firstOk, rfl, rfl, rfl⟩, trivial, ?_⟩
    intro checkpoint member periodic
    obtain rfl := mem_singleton.mp member
    cases periodic
  exact ⟨ok, upsertLatest_accepted start ok.current ready createdAtMs⟩

theorem append_ready (current : Publishes chain.keys chain.keys.publicKey)
    (ready : Ready crypto (WrittenBy chain.keys) chain.bundle) (kind : ReceiptKind) (receiptId receiptJson : String) :
    Ready crypto (WrittenBy chain.keys) { chain with
      entries := chain.entries ++ [chain.nextEntry kind receiptId receiptJson createdAtMs] }.bundle := by
  refine ⟨ready.version, ready.nameSpace, ready.genesis, ready.chained.append ?_, ?_⟩
  · rw [lastHash_genesis, Nat.zero_add]
    exact nextEntry_ok rfl current kind receiptId receiptJson
  · intro checkpoint member periodic
    obtain ⟨ok, entry, found, named⟩ := ready.periodic checkpoint member periodic
    exact ⟨ok, entry, find?_append_left found, named⟩

theorem periodic_accepted {entries : List ChainEntry}
    {entry : ChainEntry} (accepted : Accepted crypto (WrittenBy chain.keys) chain.bundle)
    (shape : chain.entries = entries ++ [entry]) {checkpoint : Checkpoint}
    (ok : CheckpointOk (WrittenBy chain.keys) chain.nameSpace checkpoint)
    (kind : checkpoint.kind = .periodic) (named : Names checkpoint entry.seq entry.entryHash) :
    Accepted crypto (WrittenBy chain.keys)
      { chain with checkpoints := chain.checkpoints ++ [checkpoint] }.bundle := by
  obtain ⟨genesis, foundGenesis, genesisOk, genesisNames⟩ := accepted.genesis
  obtain ⟨latest, foundLatest, latestOk, latestNames⟩ := accepted.latest
  refine ⟨⟨accepted.version, accepted.nameSpace,
    ⟨genesis, find?_append_left foundGenesis, genesisOk, genesisNames⟩, accepted.chained, ?_⟩,
    ⟨latest, find?_append_left foundLatest, latestOk, latestNames⟩⟩
  · intro other member periodic
    rcases mem_appended.mp member with old | rfl
    · exact accepted.periodic other old periodic
    · have chained := accepted.chained
      change Chained crypto _ _ _ _ chain.entries at chained
      rw [shape] at chained
      refine ⟨ok, entry, ?_, rfl, named.headHash, named.entryCount.trans named.headSeq.symm⟩
      rw [named.headSeq]
      change chain.entries.find? _ = _
      rw [shape]
      exact chained.find?_last

theorem append_ok (ok : chain.Ok recorded) {kind : ReceiptKind}
    {receiptId receiptJson : String} {chain' : ReceiptChain crypto}
    (run : chain.append kind receiptId receiptJson createdAtMs = .ok chain') : chain'.Ok recorded := by
  obtain ⟨_, run⟩ := ite_error_eq_ok.mp run
  obtain ⟨_, run⟩ := ite_error_eq_ok.mp run
  have current := ok.keys.current
  let entry := chain.nextEntry kind receiptId receiptJson createdAtMs
  let longer : ReceiptChain crypto := { chain with entries := chain.entries ++ [entry] }
  have ready : Ready crypto (WrittenBy chain.keys) longer.bundle :=
    append_ready current ok.accepted.toReady kind receiptId receiptJson
  have accepted := upsertLatest_accepted longer current ready createdAtMs
  dsimp only at run
  split at run
  · cases run
    let latest := longer.upsertLatest createdAtMs
    have periodicOk := signCheckpoint_ok latest rfl current .periodic entry.seq entry.entryHash entry.seq createdAtMs
    exact ⟨ok.keys, periodic_accepted accepted rfl periodicOk rfl ⟨rfl, rfl, rfl⟩⟩
  · cases run
    exact ⟨ok.keys, accepted⟩

theorem rotate_chain_ok (lawful : crypto.Lawful)
    (distinct : Set.InjOn crypto.sha256 recorded) (ok : chain.Ok recorded) {seedHex : String}
    (seeds : seedKeys crypto seedHex ⊆ recorded) : (chain.rotate seedHex createdAtMs).2.Ok recorded := by
  obtain ⟨keysOk, grows⟩ := rotate_ok lawful distinct ok.keys seeds createdAtMs
  have accepted := ok.accepted.mono fun id _ message signature written => written.grows grows
  exact ⟨keysOk, ⟨accepted.version, accepted.nameSpace, accepted.genesis, accepted.chained,
    accepted.periodic⟩, accepted.latest⟩

end ReceiptChain

inductive KeyOp where
  | trust (publicKeyHex : String) (createdAtMs : Int)
  | rotate (seedHex : String) (createdAtMs : Int)

def KeyOp.apply (keys : SigningKeySet crypto) : KeyOp → SigningKeySet crypto
  | trust publicKeyHex createdAtMs => (keys.trustPublicKey publicKeyHex createdAtMs).2
  | rotate seedHex createdAtMs => (keys.rotate seedHex createdAtMs).2

def KeyOp.recorded (crypto : Crypto) : KeyOp → Set (List UInt8)
  | trust publicKeyHex _ => hexKeys publicKeyHex
  | rotate seedHex _ => seedKeys crypto seedHex

inductive ChainOp where
  | append (kind : ReceiptKind) (receiptId receiptJson : String) (createdAtMs : Int)
  | rotate (seedHex : String) (createdAtMs : Int)

/-- An `append` that fails leaves the chain as it was. -/
def ChainOp.apply (chain : ReceiptChain crypto) : ChainOp → ReceiptChain crypto
  | append kind receiptId receiptJson createdAtMs =>
    match chain.append kind receiptId receiptJson createdAtMs with
    | .ok chain => chain
    | .error _ => chain
  | rotate seedHex createdAtMs => (chain.rotate seedHex createdAtMs).2

def ChainOp.recorded (crypto : Crypto) : ChainOp → Set (List UInt8)
  | append _ _ _ _ => ∅
  | rotate seedHex _ => seedKeys crypto seedHex

structure History where
  seedHex : String
  createdAtMs : Int
  keyOps : List KeyOp
  nameSpace : String
  genesisAtMs : Int
  ops : List ChainOp

namespace History

def run (crypto : Crypto) (history : History) : Except String (ReceiptChain crypto) := do
  let keys ← SigningKeySet.fromSeedHex crypto history.seedHex history.createdAtMs
  let chain ← ReceiptChain.genesis history.nameSpace (history.keyOps.foldl KeyOp.apply keys) history.genesisAtMs
  return history.ops.foldl ChainOp.apply chain

def recorded (crypto : Crypto) (history : History) : Set (List UInt8) :=
  seedKeys crypto history.seedHex ∪ {bytes | ∃ op ∈ history.keyOps, bytes ∈ op.recorded crypto} ∪
    {bytes | ∃ op ∈ history.ops, bytes ∈ op.recorded crypto}

end History

section Runs
variable {recorded : Set (List UInt8)} {keys : SigningKeySet crypto}

section
variable (lawful : crypto.Lawful) (distinct : Set.InjOn crypto.sha256 recorded) (ok : KeysOk recorded keys)
include lawful distinct ok

theorem keyOp_ok {op : KeyOp} (inside : op.recorded crypto ⊆ recorded) : KeysOk recorded (op.apply keys) := by
  cases op with
  | trust publicKeyHex createdAtMs => exact trustPublicKey_ok distinct ok inside createdAtMs
  | rotate seedHex createdAtMs => exact (rotate_ok lawful distinct ok inside createdAtMs).1

theorem keyOps_ok {ops : List KeyOp} (inside : ∀ op ∈ ops, op.recorded crypto ⊆ recorded) :
    KeysOk recorded (ops.foldl KeyOp.apply keys) := by
  induction ops generalizing keys with
  | nil => exact ok
  | cons op ops ih =>
    obtain ⟨first, rest⟩ := forall_mem_cons.mp inside
    exact ih (keyOp_ok lawful distinct ok first) rest

end

variable {chain : ReceiptChain crypto}

section
variable (lawful : crypto.Lawful) (distinct : Set.InjOn crypto.sha256 recorded) (ok : chain.Ok recorded)
include lawful distinct ok

theorem chainOp_ok {op : ChainOp} (inside : op.recorded crypto ⊆ recorded) : (op.apply chain).Ok recorded := by
  cases op with
  | append kind receiptId receiptJson createdAtMs =>
    simp only [ChainOp.apply]
    split
    · rename_i chain' run
      exact ReceiptChain.append_ok ok run
    · exact ok
  | rotate seedHex createdAtMs =>
    exact ReceiptChain.rotate_chain_ok lawful distinct ok inside

theorem chainOps_ok {ops : List ChainOp} (inside : ∀ op ∈ ops, op.recorded crypto ⊆ recorded) :
    (ops.foldl ChainOp.apply chain).Ok recorded := by
  induction ops generalizing chain with
  | nil => exact ok
  | cons op ops ih =>
    obtain ⟨first, rest⟩ := forall_mem_cons.mp inside
    exact ih (chainOp_ok lawful distinct ok first) rest

end

end Runs

theorem run_ok (lawful : crypto.Lawful) {history : History}
    (distinct : Set.InjOn crypto.sha256 (history.recorded crypto)) {chain : ReceiptChain crypto}
    (run : history.run crypto = .ok chain) : chain.Ok (history.recorded crypto) := by
  obtain ⟨keys, made, run⟩ := bind_eq_ok.mp run
  obtain ⟨start, began, run⟩ := bind_eq_ok.mp run
  cases run
  obtain ⟨seed, read, recordedKeys⟩ := bind_eq_ok.mp made
  cases recordedKeys
  have first : KeysOk (history.recorded crypto) (SigningKeySet.recordCurrent ⟨seed, [], []⟩ history.createdAtMs) :=
    (recordCurrent_ok lawful distinct ⟨seed, [], []⟩ (by simp)
      (.inl (.inl ⟨seed, read, rfl⟩)) history.createdAtMs).1
  have keysOk := keyOps_ok lawful distinct first fun op member bytes inside =>
    Or.inl (.inr ⟨op, member, inside⟩)
  exact chainOps_ok lawful distinct (ReceiptChain.genesis_ok keysOk began)
    fun op member bytes inside => .inr ⟨op, member, inside⟩

section Verifier
variable {recorded : Set (List UInt8)}

def ReadsKey (crypto : Crypto) (recorded : Set (List UInt8)) (entry : String × crypto.VerifyingKey) : Prop :=
  ∃ bytes ∈ recorded, entry.1 = keyId crypto bytes ∧ crypto.fromBytes bytes = .ok entry.2

theorem publishedVerifyingKey_ok {entry : String × PublishedKey} {bytes : List UInt8}
    (ok : PublishedOk crypto recorded entry bytes) :
    ∃ verifying, publishedVerifyingKey crypto entry.2 = .ok (entry.2.keyId, verifying) ∧
      ReadsKey crypto recorded (entry.2.keyId, verifying) := by
  obtain ⟨verifying, reads⟩ := ok.reads
  refine ⟨verifying, ?_, bytes, ok.recorded, ok.keyId, reads⟩
  rw [publishedVerifyingKey, ok.hex]
  refine bind_eq_ok.mpr ⟨bytes, decodeHex32_toHex ok.length, bind_eq_ok.mpr ⟨verifying, reads, ?_⟩⟩
  rw [if_neg (not_not.mpr ok.keyId)]

variable {id : String}

theorem mapInsert_keeps {α : Type} {map : List (String × α)} (key : String) (value : α)
    {old : α} (member : (id, old) ∈ map) : ∃ value', (id, value') ∈ mapInsert key value map := by
  by_cases same : id = key
  · subst same
    exact ⟨value, mem_mapInsert_self⟩
  · exact ⟨old, mem_mapInsert_of_ne member same⟩

theorem verifyingKeys_from {published : List (String × PublishedKey)}
    (ok : ∀ entry ∈ published, ∃ bytes, PublishedOk crypto recorded entry bytes)
    (out : List (String × crypto.VerifyingKey)) (reads : ∀ entry ∈ out, ReadsKey crypto recorded entry) :
    ∃ map, (published.map Prod.snd).foldlM (fun out key => do
        let (id, verifying) ← publishedVerifyingKey crypto key
        return mapInsert id verifying out) out = .ok map ∧ (∀ entry ∈ map, ReadsKey crypto recorded entry) ∧
      (∀ id verifying, (id, verifying) ∈ out → ∃ other, (id, other) ∈ map) ∧
      ∀ entry ∈ published, ∃ verifying, (entry.2.keyId, verifying) ∈ map := by
  induction published generalizing out with
  | nil => exact ⟨out, rfl, reads, fun id verifying member => ⟨verifying, member⟩, by simp⟩
  | cons entry published ih =>
    obtain ⟨⟨bytes, entryOk⟩, rest⟩ := forall_mem_cons.mp ok
    obtain ⟨verifying, read, readsKey⟩ := publishedVerifyingKey_ok entryOk
    have next : ∀ other ∈ mapInsert entry.2.keyId verifying out, ReadsKey crypto recorded other := by
      intro other member
      rcases mem_mapInsert member with rfl | old
      · exact readsKey
      · exact reads other old
    obtain ⟨map, run, all, kept, found⟩ := ih rest _ next
    refine ⟨map, ?_, all, ?_, ?_⟩
    · exact bind_eq_ok.mpr ⟨_, bind_eq_ok.mpr ⟨_, read, rfl⟩, run⟩
    · intro id old member
      obtain ⟨other, inside⟩ := mapInsert_keeps entry.2.keyId verifying member
      exact kept id other inside
    · refine forall_mem_cons.mpr ⟨?_, found⟩
      exact kept _ _ mem_mapInsert_self

theorem mapGet_eq_some {α : Type} {map : List (String × α)} {value : α}
    (member : (id, value) ∈ map) : ∃ found, mapGet map id = some found ∧ (id, found) ∈ map := by
  cases search : map.find? (·.1 = id) with
  | none =>
    have no := find?_eq_none.mp search _ member
    simp at no
  | some entry =>
    have same : entry.1 = id := by simpa using find?_some search
    have inside := mem_of_find?_eq_some search
    refine ⟨entry.2, by rw [mapGet, search, map_some], ?_⟩
    rw [← same]
    exact inside

variable {ids : List String} {map : List (String × crypto.VerifyingKey)}

theorem written_signed (lawful : crypto.Lawful) (distinct : Set.InjOn crypto.sha256 recorded)
    {keys : SigningKeySet crypto} (ok : ∀ entry ∈ keys.published, ∃ bytes, PublishedOk crypto recorded entry bytes)
    (reads : ∀ entry ∈ map, ReadsKey crypto recorded entry)
    (complete : ∀ entry ∈ keys.published, ∃ verifying, (entry.2.keyId, verifying) ∈ map)
    (trusted : id ∈ ids) {message : List UInt8} {signature : String} (written : WrittenBy keys id message signature) :
    Signed (map.filter fun key => key.1 ∈ ids) id message signature := by
  obtain ⟨key, ⟨entry, member, _, entryKeyId, hex⟩, rfl, rfl⟩ := written
  obtain ⟨bytes, entryOk⟩ := ok entry member
  obtain rfl := published_unique entryOk hex
  obtain ⟨verifying, inMap⟩ := complete entry member
  rw [entryKeyId] at inMap
  have kept : (_, verifying) ∈ map.filter fun key => key.1 ∈ ids :=
    mem_filter.mpr ⟨inMap, decide_eq_true trusted⟩
  obtain ⟨found, got, inFiltered⟩ := mapGet_eq_some kept
  obtain ⟨source, sourceIn, sameId, read⟩ := reads _ (mem_of_mem_filter inFiltered)
  obtain rfl := fingerprint_injOn distinct entryOk.recorded sourceIn sameId
  rw [lawful.fromBytes] at read
  cases read
  exact ⟨_, got, _, decodeHex_toHex (lawful.signLength key message), lawful.verify_sign key message⟩

variable {trusted : List String}

theorem ReceiptChain.Ok.verified {chain : ReceiptChain crypto} (lawful : crypto.Lawful)
    (distinct : Set.InjOn crypto.sha256 recorded) (ok : chain.Ok recorded)
    (parsed : trustedKeyIds crypto trusted = .ok ids) (supplied : ∀ id ∈ signerIds chain.bundle, id ∈ ids) :
    verifyBundle crypto chain.bundle trusted = .ok () := by
  obtain ⟨keysOk, accepted⟩ := ok
  obtain ⟨map, read, reads, _, complete⟩ := verifyingKeys_from keysOk.published [] (by simp)
  have signed := accepted.mono fun id member message signature written =>
    written_signed lawful distinct keysOk.published reads complete (supplied id member) written
  obtain ⟨genesis, _, genesisOk, _⟩ := signed.genesis
  obtain ⟨verifying, got, _⟩ := genesisOk.signed
  have nonempty : map.filter (fun key => key.1 ∈ ids) ≠ [] := by
    intro empty
    rw [empty] at got
    cases got
  refine verifyBundle_eq_ok.mpr ⟨map.filter fun key => key.1 ∈ ids, ?_, signed⟩
  refine bind_eq_ok.mpr ⟨ids, mapError_eq_ok.mpr parsed, bind_eq_ok.mpr ⟨map, mapError_eq_ok.mpr read, ?_⟩⟩
  rw [if_neg nonempty]

end Verifier

theorem verifyBundle_of_run (lawful : crypto.Lawful) (history : History)
    (distinct : Set.InjOn crypto.sha256 (history.recorded crypto)) (chain : ReceiptChain crypto)
    (run : history.run crypto = .ok chain) (trusted ids : List String)
    (parsed : trustedKeyIds crypto trusted = .ok ids) (supplied : ∀ id ∈ signerIds chain.bundle, id ∈ ids) :
    verifyBundle crypto chain.bundle trusted = .ok () := by
  exact (run_ok lawful distinct run).verified lawful distinct parsed supplied

theorem length_zeros : (List.replicate 32 (0 : UInt8)).length = 32 := rfl

def plainCrypto : Crypto where
  sha256 := id
  SigningKey := { bytes : List UInt8 // bytes.length = 32 }
  VerifyingKey := List UInt8
  fromSeed := fun seed =>
    if length : seed.length = 32 then ⟨seed, length⟩ else ⟨List.replicate 32 0, length_zeros⟩
  verifyingKey := Subtype.val
  asBytes := id
  fromBytes := .ok
  sign := fun key _ => key.1 ++ key.1
  verify := fun key _ signature => signature = key ++ key

theorem plainCrypto_lawful : plainCrypto.Lawful where
  publicLength := fun key => key.2
  fromBytes := fun _ => rfl
  signLength := fun key _ => by
    change (key.1 ++ key.1).length = 64
    rw [length_append, key.2]
  verify_sign := fun key _ => by simp [plainCrypto]

def firstSeed : String := "0101010101010101010101010101010101010101010101010101010101010101"
def secondSeed : String := "0202020202020202020202020202020202020202020202020202020202020202"

def rotatedHistory : History :=
  ⟨firstSeed, 1, [], "team-a", 2,
    [.append .action "receipt-1" "1" 3, .rotate "not a seed" 4, .rotate secondSeed 5,
      .append .agentTurn "receipt-2" "2" 6]⟩

def rotatedIds : List String := ["sha256:" ++ firstSeed, "sha256:" ++ secondSeed]

theorem verifyBundle_rotatedHistory : ∃ chain, rotatedHistory.run plainCrypto = .ok chain ∧
    verifyBundle plainCrypto chain.bundle [firstSeed, secondSeed] = .ok () := by
  have parsed : trustedKeyIds plainCrypto [firstSeed, secondSeed] = .ok rotatedIds := by
    decide +kernel
  have supplied : (rotatedHistory.run plainCrypto).toOption.any fun chain =>
      (signerIds chain.bundle).all (· ∈ rotatedIds) := by
    decide +kernel
  cases run : rotatedHistory.run plainCrypto with
  | error message =>
    rw [run] at supplied
    cases supplied
  | ok chain =>
    rw [run] at supplied
    change (signerIds chain.bundle).all (· ∈ rotatedIds) = true at supplied
    refine ⟨chain, rfl, verifyBundle_of_run plainCrypto_lawful rotatedHistory
      Function.injective_id.injOn chain run _ rotatedIds parsed ?_⟩
    simpa [List.all_eq_true] using supplied

/-- The current key is retired before the seed is read, so the set stays as it was only where that changes nothing. -/
theorem failedRotation_unchanged_iff {keys : SigningKeySet crypto} {seedHex : String} {createdAtMs : Int}
    (failed : (keys.rotate seedHex createdAtMs).1.isOk = false) : (keys.rotate seedHex createdAtMs).2 = keys ↔
      ∀ entry ∈ keys.published, entry.1 = keys.currentKeyId → entry.2.retiredAtMs = some createdAtMs := by
  have retired : (keys.rotate seedHex createdAtMs).2 = keys.retireCurrent createdAtMs := by
    unfold SigningKeySet.rotate at failed ⊢
    cases read : signingKeyFromHex crypto seedHex with
    | error message => rfl
    | ok next =>
      rw [read] at failed
      cases failed
  have same : keys.retireCurrent createdAtMs = keys ↔
      (keys.retireCurrent createdAtMs).published = keys.published.map id := by
    rw [List.map_id]
    exact ⟨congrArg _, congrArg (SigningKeySet.mk keys.current keys.verifying)⟩
  rw [retired, same, SigningKeySet.retireCurrent, mapAdjust, map_inj_left]
  refine forall₂_congr fun ⟨id, key⟩ _ => ?_
  by_cases current : id = keys.currentKeyId
  · cases key
    simp [current, eq_comm]
  · simp [current]

def freshKeys : SigningKeySet plainCrypto := SigningKeySet.recordCurrent ⟨plainCrypto.fromSeed [], [], []⟩ 1

theorem failedRotation_unchanged_iff_retired :
    ((freshKeys.retireCurrent 4).rotate "" 4).2 = freshKeys.retireCurrent 4 :=
  (failedRotation_unchanged_iff (by decide +kernel)).mpr (by decide +kernel)

theorem failedRotation_retires :
    (freshKeys.rotate "" 4).1.isOk = false ∧ (freshKeys.rotate "" 4).2.published ≠ freshKeys.published := by
  decide +kernel

end SekaiChisei.Receipts
