import SekaiChisei.Receipts.Complete

/-!
What an accepted bundle vouches for: its latest checkpoint commits to the hashed content of every
entry, and the checkpoints the verifier looks at are genuine.
-/

namespace SekaiChisei.Receipts
open Lib List Option Function

variable {crypto : Crypto} {a b : ChainEntry}

def ChainEntry.preimage (entry : ChainEntry) : String :=
  entryPreimage entry.seq entry.prevHash entry.nameSpace entry.kind entry.receiptId entry.receiptJson
    entry.createdAtMs

def preimages (bundle : ReceiptChainBundle) : Set (List UInt8) :=
  {bytes | ∃ entry ∈ bundle.entries, bytes = textBytes entry.preimage}

structure SameContent (a b : ChainEntry) : Prop where
  seq : a.seq = b.seq
  nameSpace : a.nameSpace = b.nameSpace
  kind : a.kind = b.kind
  receiptId : a.receiptId = b.receiptId
  receiptJson : a.receiptJson = b.receiptJson
  prevHash : a.prevHash = b.prevHash
  entryHash : a.entryHash = b.entryHash
  createdAtMs : a.createdAtMs = b.createdAtMs

theorem kind_asStr_injective {a b : ReceiptKind} (same : a.asStr = b.asStr) : a = b := by
  cases a <;> cases b <;> first | rfl | exact absurd same (by decide)

theorem preimage_injective (same : a.preimage = b.preimage)
    (hashes : a.entryHash = b.entryHash) : SameContent a b := by
  have items : [Json.Item.number a.seq, .string a.prevHash, .string a.nameSpace, .string a.kind.asStr,
      .string a.receiptId, .string a.receiptJson, .number a.createdAtMs] =
      [.number b.seq, .string b.prevHash, .string b.nameSpace, .string b.kind.asStr,
      .string b.receiptId, .string b.receiptJson, .number b.createdAtMs] := Json.array_inj rfl same
  simp only [cons.injEq, Json.Item.number.injEq, Json.Item.string.injEq, and_true] at items
  obtain ⟨seq, prev, space, kind, id, json, created⟩ := items
  exact ⟨seq, space, kind_asStr_injective kind, id, json, prev, hashes, created⟩

variable {signer signer' : Signer} {nameSpace prevHash : String} {index : Nat} {hashed : Set (List UInt8)}
variable {nameSpace' prevHash' : String}

theorem EntryOk.content (distinct : Set.InjOn crypto.sha256 hashed) (inA : textBytes a.preimage ∈ hashed)
    (inB : textBytes b.preimage ∈ hashed) (okA : EntryOk crypto signer nameSpace index prevHash a)
    (okB : EntryOk crypto signer' nameSpace' index prevHash' b) (same : a.entryHash = b.entryHash) :
    SameContent a b := by
  have prints : fingerprint crypto (textBytes a.preimage) = fingerprint crypto (textBytes b.preimage) :=
    okA.entryHash.symm.trans (same.trans okB.entryHash)
  have bytes := fingerprint_injOn distinct inA inB prints
  exact preimage_injective (utf8_injective bytes) same

variable {entries entries' : List ChainEntry}

theorem Chained.content (distinct : Set.InjOn crypto.sha256 hashed)
    (inside : ∀ entry ∈ entries, textBytes entry.preimage ∈ hashed)
    (inside' : ∀ entry ∈ entries', textBytes entry.preimage ∈ hashed)
    (chained : Chained crypto signer nameSpace index prevHash entries)
    (chained' : Chained crypto signer' nameSpace' index prevHash' entries')
    (length : entries.length = entries'.length) (same : lastHash prevHash entries = lastHash prevHash' entries') :
    prevHash = prevHash' ∧ List.Forall₂ SameContent entries entries' := by
  induction entries generalizing index prevHash prevHash' entries' with
  | nil =>
    obtain rfl := length_eq_zero_iff.mp length.symm
    exact ⟨same, .nil⟩
  | cons entry entries ih =>
    obtain ⟨other, others, rfl⟩ := exists_cons_of_length_eq_add_one length.symm
    obtain ⟨first, rest⟩ := forall_mem_cons.mp inside
    obtain ⟨first', rest'⟩ := forall_mem_cons.mp inside'
    rw [lastHash_cons, lastHash_cons] at same
    obtain ⟨hashes, tail⟩ := ih rest rest' chained.2 chained'.2 (by simpa using length) same
    have content := chained.1.content distinct first first' chained'.1 hashes
    exact ⟨chained.1.prevHash.symm.trans (content.prevHash.trans chained'.1.prevHash), .cons content tail⟩

def SameHead (first second : ReceiptChainBundle) : Prop :=
  ∃ latest, first.checkpoints.find? (·.kind = .latest) = some latest ∧
    ∃ latest', second.checkpoints.find? (·.kind = .latest) = some latest' ∧
      latest.headSeq = latest'.headSeq ∧ latest.headHash = latest'.headHash

theorem Accepted.content {first second : ReceiptChainBundle}
    (distinct : Set.InjOn crypto.sha256 (preimages first ∪ preimages second))
    (accepted : Accepted crypto signer first) (accepted' : Accepted crypto signer' second)
    (head : SameHead first second) : List.Forall₂ SameContent first.entries second.entries := by
  obtain ⟨latest, found, latest', found', seqs, hashes⟩ := head
  obtain ⟨checked, foundFirst, _, named⟩ := accepted.latest
  obtain ⟨checked', foundSecond, _, named'⟩ := accepted'.latest
  obtain rfl : latest = checked := some.inj (found.symm.trans foundFirst)
  obtain rfl : latest' = checked' := some.inj (found'.symm.trans foundSecond)
  have length : first.entries.length = second.entries.length := by
    have count := accepted.chained.headOf_fst
    have count' := accepted'.chained.headOf_fst
    have same := named.headSeq.symm.trans (seqs.trans named'.headSeq)
    omega
  have last : lastHash genesisHeadHash first.entries = lastHash genesisHeadHash second.entries := by
    rw [lastHash_genesis, lastHash_genesis, ← named.headHash, ← named'.headHash, hashes]
  exact (accepted.chained.content distinct (fun entry member => .inl ⟨entry, member, rfl⟩)
    (fun entry member => .inr ⟨entry, member, rfl⟩) accepted'.chained length last).2

/-- Accepted bundles with the same head have the same entries up to their signatures. -/
theorem entries_committed (trusted : List String) (first second : ReceiptChainBundle)
    (distinct : Set.InjOn crypto.sha256 (preimages first ∪ preimages second))
    (accepted : verifyBundle crypto first trusted = .ok ()) :
    (verifyBundle crypto second trusted = .ok () → SameHead first second →
      List.Forall₂ SameContent first.entries second.entries) ∧
    (second.checkpoints = first.checkpoints → ¬ List.Forall₂ SameContent first.entries second.entries →
      verifyBundle crypto second trusted ≠ .ok ()) := by
  obtain ⟨keys, _, conditions⟩ := verifyBundle_eq_ok.mp accepted
  have committed : verifyBundle crypto second trusted = .ok () → SameHead first second →
      List.Forall₂ SameContent first.entries second.entries := by
    intro again head
    obtain ⟨keys', _, conditions'⟩ := verifyBundle_eq_ok.mp again
    exact conditions.content distinct conditions' head
  refine ⟨committed, ?_⟩
  intro kept changed again
  obtain ⟨latest, found, _⟩ := conditions.latest
  exact changed (committed again ⟨latest, found, latest, kept ▸ found, rfl, rfl⟩)

variable {trusted : List String}

def onceHistory : History :=
  ⟨firstSeed, 1, [], "team-a", 2, [.append .action "receipt-1" "1" 3, .rotate secondSeed 4]⟩

def onceBundle : ReceiptChainBundle :=
  match onceHistory.run plainCrypto with
  | .ok chain => chain.bundle
  | .error _ => ⟨"", "", "", "", [], [], []⟩

def resign (entry : ChainEntry) : ChainEntry :=
  { entry with keyId := "sha256:" ++ secondSeed, signature := secondSeed ++ secondSeed }

def resignedBundle : ReceiptChainBundle :=
  { onceBundle with entries := onceBundle.entries.map resign }

theorem headOf_resigned : headOf (entries.map resign) = headOf entries := by
  rw [headOf, headOf, getLast?_map]
  cases entries.getLast? <;> rfl

theorem Chained.resigned (signed : ∀ message, signer ("sha256:" ++ secondSeed) message (secondSeed ++ secondSeed))
    (chained : Chained crypto signer nameSpace index prevHash entries) :
    Chained crypto signer nameSpace index prevHash (entries.map resign) := by
  induction entries generalizing index prevHash with
  | nil => trivial
  | cons entry entries ih =>
    obtain ⟨ok, rest⟩ := chained
    exact ⟨⟨ok.nameSpace, ok.seq, ok.prevHash, ok.entryHash, signed _⟩, ih rest⟩

theorem verifyBundle_resigned {bundle : ReceiptChainBundle} {keys : List (String × crypto.VerifyingKey)}
    (trustedOk : trustedKeys crypto bundle trusted = .ok keys) (accepted : Accepted crypto (Signed keys) bundle)
    (signed : ∀ message, Signed keys ("sha256:" ++ secondSeed) message (secondSeed ++ secondSeed)) :
    verifyBundle crypto { bundle with entries := bundle.entries.map resign } trusted = .ok () := by
  refine verifyBundle_eq_ok.mpr ⟨keys, trustedOk, ⟨accepted.version, accepted.nameSpace, accepted.genesis,
    accepted.chained.resigned signed, ?_⟩, ?_⟩
  · intro checkpoint member periodic
    obtain ⟨ok, entry, found, named⟩ := accepted.periodic checkpoint member periodic
    -- the checkpoint finds the entry by its sequence number, which stays
    refine ⟨ok, resign entry, ?_, named.headSeq, named.headHash, named.entryCount⟩
    exact find?_map.trans (congrArg (Option.map resign) found)
  · obtain ⟨latest, found, ok, named⟩ := accepted.latest
    rw [← headOf_resigned] at named
    exact ⟨latest, found, ok, named⟩

theorem onceBundle_accepted : verifyBundle plainCrypto onceBundle [firstSeed, secondSeed] = .ok () := by
  have parsed : trustedKeyIds plainCrypto [firstSeed, secondSeed] = .ok rotatedIds := by
    decide +kernel
  have supplied : ∀ id ∈ signerIds onceBundle, id ∈ rotatedIds := by
    decide +kernel
  have runs : (onceHistory.run plainCrypto).isOk := by
    decide +kernel
  unfold onceBundle at supplied ⊢
  cases run : onceHistory.run plainCrypto with
  | error message =>
    rw [run] at runs
    cases runs
  | ok chain =>
    rw [run] at supplied
    have distinct : Set.InjOn plainCrypto.sha256 (onceHistory.recorded plainCrypto) :=
      injective_id.injOn
    exact (run_ok plainCrypto_lawful distinct run).verified plainCrypto_lawful distinct parsed supplied

theorem secondKey_verifies : ∃ keys, trustedKeys plainCrypto onceBundle [firstSeed, secondSeed] =
    .ok keys ∧ ∀ message, Signed keys ("sha256:" ++ secondSeed) message (secondSeed ++ secondSeed) := by
  have bytes : decodeHex (secondSeed ++ secondSeed) 64 = .ok (List.replicate 64 2) := by
    decide +kernel
  have holds : (trustedKeys plainCrypto onceBundle [firstSeed, secondSeed]).toOption.any fun keys =>
      (mapGet keys ("sha256:" ++ secondSeed)).any fun key =>
        plainCrypto.verify key [] (List.replicate 64 2) := by
    decide +kernel
  cases trusted : trustedKeys plainCrypto onceBundle [firstSeed, secondSeed] with
  | error message =>
    rw [trusted] at holds
    cases holds
  | ok keys =>
    rw [trusted, Except.toOption, any_some] at holds
    obtain ⟨key, found, valid⟩ := (Option.any_eq_true _ _).mp holds
    -- the signature does not depend on the message
    exact ⟨keys, rfl, fun message => ⟨key, found, List.replicate 64 2, bytes, valid⟩⟩

theorem resignedBundle_accepted : verifyBundle plainCrypto resignedBundle [firstSeed, secondSeed] = .ok () := by
  obtain ⟨keys, trusted, accepted⟩ := verifyBundle_eq_ok.mp onceBundle_accepted
  obtain ⟨same, again, signed⟩ := secondKey_verifies
  obtain rfl : keys = same := Except.ok.inj (trusted.symm.trans again)
  exact verifyBundle_resigned trusted accepted signed

theorem entries_committed_resigned : List.Forall₂ SameContent onceBundle.entries resignedBundle.entries := by
  obtain ⟨_, _, conditions⟩ := verifyBundle_eq_ok.mp onceBundle_accepted
  obtain ⟨latest, found, _⟩ := conditions.latest
  exact (entries_committed [firstSeed, secondSeed] onceBundle resignedBundle
    injective_id.injOn onceBundle_accepted).1 resignedBundle_accepted
    ⟨latest, found, latest, found, rfl, rfl⟩

/-- Who signed an entry is not part of what the checkpoints commit to. -/
theorem resigned_entries_differ : Function.Injective plainCrypto.sha256 ∧
      verifyBundle plainCrypto onceBundle [firstSeed, secondSeed] = .ok () ∧
      verifyBundle plainCrypto resignedBundle [firstSeed, secondSeed] = .ok () ∧
      resignedBundle.nameSpace = onceBundle.nameSpace ∧ resignedBundle.checkpoints = onceBundle.checkpoints ∧
      resignedBundle.entries ≠ onceBundle.entries := by
  refine ⟨injective_id, onceBundle_accepted, resignedBundle_accepted, rfl, rfl, ?_⟩
  intro same
  have ids := congrArg (List.map (·.keyId)) same
  exact absurd ids (by decide +kernel)

structure Genuine (crypto : Crypto) (bundle : ReceiptChainBundle) (trusted : List String)
    (checkpoint : Checkpoint) : Prop where
  signed : ∃ ids, trustedKeyIds crypto trusted = .ok ids ∧ ∃ key ∈ bundle.keys,
    ∃ bytes, decodeHex key.publicKeyHex 32 = .ok bytes ∧ keyId crypto bytes ∈ ids ∧
      checkpoint.keyId = keyId crypto bytes ∧
      ∃ verifying, crypto.fromBytes bytes = .ok verifying ∧
        ∃ signature, decodeHex checkpoint.signature 64 = .ok signature ∧
          crypto.verify verifying (checkpointSignedBytes checkpoint) signature
  named : ∃ count ≤ bundle.entries.length,
    (checkpoint.headSeq, checkpoint.headHash) = headOf (bundle.entries.take count)

theorem verifyingKeys_sound {published : List PublishedKey}
    {map : List (String × crypto.VerifyingKey)} (run : verifyingKeys crypto published = .ok map) :
    ∀ entry ∈ map, ∃ key ∈ published, ∃ bytes, decodeHex key.publicKeyHex 32 = .ok bytes ∧
      entry.1 = keyId crypto bytes ∧ crypto.fromBytes bytes = .ok entry.2 := by
  refine foldlM_ok_invariant (P := fun before out => ∀ entry ∈ out, ∃ key ∈ before,
    ∃ bytes, decodeHex key.publicKeyHex 32 = .ok bytes ∧ entry.1 = keyId crypto bytes ∧
      crypto.fromBytes bytes = .ok entry.2) ?_ (by simp) run
  intro before out key out' sound step entry member
  obtain ⟨⟨id, verifying⟩, read, last⟩ := bind_eq_ok.mp step
  cases last
  obtain ⟨bytes, decoded, read⟩ := bind_eq_ok.mp read
  obtain ⟨other, reads, read⟩ := bind_eq_ok.mp read
  obtain ⟨sameId, read⟩ := ite_error_eq_ok.mp read
  cases read
  rcases mem_mapInsert member with rfl | old
  · exact ⟨key, by simp, bytes, mapError_eq_ok.mp decoded, not_not.mp sameId, reads⟩
  · obtain ⟨source, inside, rest⟩ := sound entry old
    exact ⟨source, mem_append_left _ inside, rest⟩

variable {bundle : ReceiptChainBundle} {checkpoint : Checkpoint} {keys : List (String × crypto.VerifyingKey)}

theorem CheckpointOk.genuine (trustedOk : trustedKeys crypto bundle trusted = .ok keys)
    (ok : CheckpointOk (Signed keys) bundle.nameSpace checkpoint) {count : Nat}
    (inside : count ≤ bundle.entries.length)
    (named : (checkpoint.headSeq, checkpoint.headHash) = headOf (bundle.entries.take count)) :
    Genuine crypto bundle trusted checkpoint := by
  obtain ⟨ids, parsed, trustedOk⟩ := bind_eq_ok.mp trustedOk
  obtain ⟨map, read, trustedOk⟩ := bind_eq_ok.mp trustedOk
  obtain ⟨_, filtered⟩ := ite_error_eq_ok.mp trustedOk
  cases filtered
  obtain ⟨verifying, got, signature, decoded, verified⟩ := ok.signed
  obtain ⟨entry, found, rfl⟩ := map_eq_some_iff.mp got
  have sameId : entry.1 = checkpoint.keyId := by simpa using find?_some found
  obtain ⟨inMap, isTrusted⟩ := mem_filter.mp (mem_of_find?_eq_some found)
  obtain ⟨key, published, bytes, keyBytes, id, reads⟩ :=
    verifyingKeys_sound (mapError_eq_ok.mp read) entry inMap
  have trustedId : keyId crypto bytes ∈ ids := by
    rw [← id]
    simpa using isTrusted
  exact ⟨⟨ids, mapError_eq_ok.mp parsed, key, published, bytes, keyBytes, trustedId,
    sameId.symm.trans id, entry.2, reads, signature, decoded, verified⟩, count, inside, named⟩

theorem head_of_find? {seq : Int} (found : entries.find? (·.seq = seq) = some entry) :
    ∃ count ≤ entries.length, (seq, entry.entryHash) = headOf (entries.take count) := by
  have same : entry.seq = seq := by simpa using find?_some found
  obtain ⟨position, here⟩ := mem_iff_getElem?.mp (mem_of_find?_eq_some found)
  obtain ⟨inside, _⟩ := List.getElem?_eq_some_iff.mp here
  refine ⟨position + 1, inside, ?_⟩
  rw [take_add_one, here, toList_some, headOf_append, same]

/-- The checkpoints of a kind after the first one, which `find` does not return. -/
def afterFirst (kind : CheckpointKind) (checkpoints : List Checkpoint) : List Checkpoint :=
  ((checkpoints.dropWhile (·.kind ≠ kind)).drop 1).filter (·.kind = kind)

theorem first_or_after {kind : CheckpointKind} {checkpoints : List Checkpoint}
    (member : checkpoint ∈ checkpoints) (same : checkpoint.kind = kind) :
    checkpoints.find? (·.kind = kind) = some checkpoint ∨ checkpoint ∈ afterFirst kind checkpoints := by
  induction checkpoints with
  | nil => cases member
  | cons first rest ih =>
    by_cases here : first.kind = kind
    · rcases mem_cons.mp member with rfl | later
      · exact .inl (find?_cons_of_pos (by simpa using here))
      · refine .inr ?_
        simp only [afterFirst, dropWhile_cons, here, ne_eq, not_true_eq_false, decide_false,
          Bool.false_eq_true, if_false, drop_one, tail_cons, mem_filter]
        exact ⟨later, by simpa using same⟩
    · rcases mem_cons.mp member with rfl | later
      · exact absurd same here
      · have shorter : afterFirst kind (first :: rest) = afterFirst kind rest := by
          simp [afterFirst, here]
        rw [shorter, find?_cons_of_neg (by simpa using here)]
        exact ih later

theorem Accepted.checkpoint_genuine (trustedOk : trustedKeys crypto bundle trusted = .ok keys)
    (accepted : Accepted crypto (Signed keys) bundle)
    (extra : ∀ checkpoint ∈ afterFirst .genesis bundle.checkpoints ++
      afterFirst .latest bundle.checkpoints, Genuine crypto bundle trusted checkpoint)
    (member : checkpoint ∈ bundle.checkpoints) : Genuine crypto bundle trusted checkpoint := by
  cases kind : checkpoint.kind with
  | genesis =>
    rcases first_or_after member kind with found | after
    · obtain ⟨genesis, foundGenesis, ok, named⟩ := accepted.genesis
      obtain rfl : checkpoint = genesis := some.inj (found.symm.trans foundGenesis)
      exact ok.genuine trustedOk (Nat.zero_le _) (Prod.ext named.headSeq named.headHash)
    · exact extra checkpoint (mem_append_left _ after)
  | periodic =>
    obtain ⟨ok, entry, found, named⟩ := accepted.periodic checkpoint member kind
    obtain ⟨count, inside, head⟩ := head_of_find? found
    rw [← named.headHash] at head
    exact ok.genuine trustedOk inside head
  | latest =>
    rcases first_or_after member kind with found | after
    · obtain ⟨latest, foundLatest, ok, named⟩ := accepted.latest
      obtain rfl : checkpoint = latest := some.inj (found.symm.trans foundLatest)
      refine ok.genuine trustedOk le_rfl ?_
      rw [take_length]
      exact Prod.ext named.headSeq named.headHash
    · exact extra checkpoint (mem_append_right _ after)

/-- The verifier vouches for all checkpoints of a bundle it accepts but the genesis and latest ones after the first of
their kind. -/
theorem checkpoints_genuine_iff (verified : verifyBundle crypto bundle trusted = .ok ()) :
    (∀ checkpoint ∈ bundle.checkpoints, Genuine crypto bundle trusted checkpoint) ↔
      ∀ checkpoint ∈ afterFirst .genesis bundle.checkpoints ++ afterFirst .latest bundle.checkpoints,
        Genuine crypto bundle trusted checkpoint := by
  have inside (kind : CheckpointKind) {checkpoint : Checkpoint}
      (after : checkpoint ∈ afterFirst kind bundle.checkpoints) : checkpoint ∈ bundle.checkpoints :=
    (dropWhile_sublist _).subset (mem_of_mem_drop (mem_of_mem_filter after))
  constructor
  · intro all checkpoint member
    rcases mem_append.mp member with after | after
    · exact all checkpoint (inside .genesis after)
    · exact all checkpoint (inside .latest after)
  · intro extra checkpoint member
    obtain ⟨keys, trustedOk, accepted⟩ := verifyBundle_eq_ok.mp verified
    exact accepted.checkpoint_genuine trustedOk extra member

theorem checkpoints_genuine_iff_once : verifyBundle plainCrypto onceBundle [firstSeed, secondSeed] = .ok () ∧
    ∀ checkpoint ∈ onceBundle.checkpoints, Genuine plainCrypto onceBundle [firstSeed, secondSeed] checkpoint := by
  refine ⟨onceBundle_accepted, (checkpoints_genuine_iff onceBundle_accepted).mpr fun checkpoint member => ?_⟩
  have none : afterFirst .genesis onceBundle.checkpoints ++ afterFirst .latest onceBundle.checkpoints = [] := by
    decide +kernel
  rw [none] at member
  cases member

def forgedCheckpoint : Checkpoint :=
  ⟨"team-a", .latest, 99, "", 99, "", "", 9⟩

theorem verifyBundle_forged (verified : verifyBundle crypto bundle trusted = .ok ()) :
    verifyBundle crypto { bundle with checkpoints := bundle.checkpoints ++ [forgedCheckpoint] } trusted = .ok () := by
  obtain ⟨keys, keysOk, accepted⟩ := verifyBundle_eq_ok.mp verified
  obtain ⟨genesis, foundGenesis, genesisOk⟩ := accepted.genesis
  obtain ⟨latest, foundLatest, latestOk⟩ := accepted.latest
  refine verifyBundle_eq_ok.mpr ⟨keys, keysOk, ⟨⟨accepted.version, accepted.nameSpace,
    ⟨genesis, ReceiptChain.find?_append_left foundGenesis, genesisOk⟩, accepted.chained, ?_⟩,
    ⟨latest, ReceiptChain.find?_append_left foundLatest, latestOk⟩⟩⟩
  intro checkpoint member periodic
  rcases mem_appended.mp member with old | rfl
  · exact accepted.periodic checkpoint old periodic
  · cases periodic

def forgedBundle : ReceiptChainBundle :=
  { onceBundle with checkpoints := onceBundle.checkpoints ++ [forgedCheckpoint] }

theorem forgedBundle_accepted : verifyBundle plainCrypto forgedBundle [firstSeed, secondSeed] = .ok () ∧
      forgedCheckpoint ∈ forgedBundle.checkpoints ∧
      ¬ Genuine plainCrypto forgedBundle [firstSeed, secondSeed] forgedCheckpoint := by
  refine ⟨verifyBundle_forged onceBundle_accepted, mem_append_right _ mem_cons_self, ?_⟩
  rintro ⟨⟨_, _, _, _, _, _, _, _, _, _, signature, decoded, _⟩, _⟩
  cases decoded

end SekaiChisei.Receipts
