import SekaiChisei.DecisionLedger.Complete

/-!
What an accepted ledger vouches for: the anchor and the head that are reported fix every column of every row.
-/

namespace SekaiChisei.DecisionLedger
open Lib List Option
variable {serde : Serde} {sha256 : List UInt8 → List UInt8}

theorem required_eq_ok {α : Type} {index : Nat} {name : String} {cell : Option α} {value : α}
    (read : required index name cell = .ok value) : cell = some value := by
  cases cell with
  | none => cases read
  | some other =>
    cases read
    rfl

variable {entry : LedgerRow} {row : Row}

theorem Row.read_eq_ok (read : row.read = .ok entry) : row = entry.stored (row.nameSpace, row.dataClass) := by
  obtain ⟨id, isId, read⟩ := bind_eq_ok.mp read
  obtain ⟨seq, isSeq, read⟩ := bind_eq_ok.mp read
  obtain ⟨prevHash, isPrev, read⟩ := bind_eq_ok.mp read
  obtain ⟨entryHash, isHash, read⟩ := bind_eq_ok.mp read
  cases read
  cases row
  cases required_eq_ok isId
  cases required_eq_ok isSeq
  cases required_eq_ok isPrev
  cases required_eq_ok isHash
  rfl

structure Row.Classified (serde : Serde) (row : Row) : Prop where
  chained : row.seq.isSome
  scope : (row.nameSpace, row.dataClass) = scopeOf serde row.evidence

theorem Row.Classified.sound (classified : row.Classified serde)
    (read : row.read = .ok entry) (hashed : entry.hash sha256 = entry.entryHash) : row.Sound serde sha256 := by
  have isRow := read_eq_ok read
  have evidence : row.evidence = entry.evidence := congrArg Row.evidence isRow
  refine ⟨entry, ?_, hashed⟩
  rwa [classified.scope, evidence] at isRow

variable {rows : List Row} {anchor : Int × String}

theorem classificationError_none
    (passed : classificationError serde anchor rows = none) : ∀ row ∈ rows, row.Classified serde := by
  induction rows with
  | nil =>
    intro row member
    cases member
  | cons first rest ih =>
    rw [classificationError] at passed
    cases chained : first.seq with
    | none =>
      rw [chained] at passed
      cases passed
    | some seq =>
      rw [chained] at passed
      dsimp only at passed
      split at passed
      · cases passed
      · rename_i scope
        have firstOk : first.Classified serde := ⟨by rw [chained]; rfl, not_not.mp scope⟩
        exact forall_mem_cons.mpr ⟨firstOk, ih passed⟩

variable {report : LedgerVerification}

theorem classificationError_some
    (refused : classificationError serde anchor rows = some report) : report.ok = false := by
  induction rows with
  | nil => cases refused
  | cons first rest ih =>
    rw [classificationError] at refused
    split at refused
    · cases refused
      rfl
    · dsimp only at refused
      split at refused
      · cases refused
        rfl
      · exact ih refused

variable {walk after : Walk}

theorem Walk.visit_eq_ok (accepted : walk.visit sha256 entry = .ok after) :
    entry.prevHash = walk.expectedPrev ∧ entry.hash sha256 = entry.entryHash ∧
      after.position = (entry.seq, entry.entryHash) := by
  rw [visit] at accepted
  split at accepted
  · cases accepted
  · rename_i links
    split at accepted
    · cases accepted
    · rename_i hashed
      cases accepted
      exact ⟨not_not.mp links, not_not.mp hashed, rfl⟩

variable {db : Nat → Db}

theorem Walk.resume_eq_ok (resumed : walk.resume db entry = .ok after)
    (passed : ∀ k, ∀ anchor ∈ (db k).anchors, anchor.seq ≤ walk.expectedSeq)
    (above : walk.expectedSeq < entry.seq) : entry.seq = walk.expectedSeq + 1 ∧ after = walk := by
  rw [resume] at resumed
  split at resumed
  · rename_i follows
    cases resumed
    exact ⟨follows, rfl⟩
  · cases found : (db walk.statements).anchorAt (entry.seq - 1) with
    | none =>
      rw [found] at resumed
      cases resumed
    | some hash =>
      obtain ⟨anchor, isAnchor, _⟩ := map_eq_some_iff.mp found
      have member := mem_of_find?_eq_some isAnchor
      have numbered : anchor.seq = entry.seq - 1 := by simpa using find?_some isAnchor
      have low := passed walk.statements anchor member
      omega

variable {anchorSeq : Int}

theorem Walk.batch_error (rejected : Walk.batch sha256 db anchorSeq walk rows = .error report) :
    report.ok = false := by
  induction rows generalizing walk with
  | nil => cases rejected
  | cons row rest ih =>
    rw [batch] at rejected
    split at rejected
    · cases rejected
      rfl
    · split at rejected
      · cases rejected
        rfl
      · split at rejected
        · cases rejected
          rfl
        · exact ih rejected

theorem Walk.batch_eq_ok (accepted : Walk.batch sha256 db anchorSeq walk rows = .ok after)
    (classified : ∀ row ∈ rows, row.Classified serde)
    (passed : ∀ k, ∀ anchor ∈ (db k).anchors, anchor.seq ≤ walk.expectedSeq)
    (above : ∀ row ∈ rows, walk.expectedSeq < row.position.1)
    (sorted : rows.Pairwise fun left right => left.position.1 < right.position.1) :
    Linked walk.position rows ∧ (∀ row ∈ rows, row.Sound serde sha256) ∧
      after.position = HashChain.head Row.position walk.position rows := by
  induction rows generalizing walk with
  | nil =>
    cases accepted
    refine ⟨trivial, ?_, rfl⟩
    intro row member
    cases member
  | cons row rest ih =>
    obtain ⟨classifiedRow, classifiedRest⟩ := forall_mem_cons.mp classified
    obtain ⟨aboveRow, _⟩ := forall_mem_cons.mp above
    obtain ⟨first, sortedRest⟩ := pairwise_cons.mp sorted
    rw [batch] at accepted
    split at accepted
    · cases accepted
    · rename_i entry read
      have isRow := Row.read_eq_ok read
      have position : row.position = (entry.seq, entry.entryHash) := by
        rw [isRow]
        rfl
      split at accepted
      · cases accepted
      · rename_i resumedWalk resumed
        have aboveEntry : walk.expectedSeq < entry.seq := by
          rw [position] at aboveRow
          exact aboveRow
        obtain ⟨follows, same⟩ := resume_eq_ok resumed passed aboveEntry
        subst same
        split at accepted
        · cases accepted
        · rename_i visitedWalk visited
          obtain ⟨links, hashed, atRow⟩ := visit_eq_ok visited
          have reached : visitedWalk.expectedSeq = entry.seq := congrArg Prod.fst atRow
          have passedNext : ∀ k, ∀ anchor ∈ (db k).anchors, anchor.seq ≤ visitedWalk.expectedSeq := by
            intro k anchor member
            have low := passed k anchor member
            omega
          have aboveNext : ∀ later ∈ rest, visitedWalk.expectedSeq < later.position.1 := by
            intro later member
            have higher := first later member
            omega
          obtain ⟨linkedRest, soundRest, atEnd⟩ := ih accepted classifiedRest passedNext aboveNext sortedRest
          have isSound : row.Sound serde sha256 := classifiedRow.sound read hashed
          have before : row.before = resumedWalk.position := by
            rw [isRow]
            refine Prod.ext ?_ links
            show entry.seq - 1 = resumedWalk.expectedSeq
            omega
          rw [atRow, ← position] at linkedRest atEnd
          exact ⟨⟨before, linkedRest⟩, forall_mem_cons.mpr ⟨isSound, soundRest⟩, atEnd⟩

theorem Row.position_of_seq {seq : Int} (numbered : row.seq = some seq) : row.position.1 = seq := by
  rw [position, numbered, getD_some]

theorem Row.upTo_iff (chained : row.seq.isSome) (seq : Int) : row.upTo seq = true ↔ row.position.1 ≤ seq := by
  obtain ⟨own, numbered⟩ := isSome_iff_exists.mp chained
  rw [upTo, position_of_seq numbered, numbered]
  simp

theorem Db.inOrder_strict (db : Db) (chained : ∀ row ∈ db.decisions, row.seq.isSome) :
    (inOrder db.decisions).Pairwise fun left right => left.position.1 < right.position.1 := by
  have sorted : (inOrder db.decisions).Pairwise fun left right : Row => left.seqKey ≤ right.seqKey :=
    pairwise_insertionSort _ _
  have samePerm : ((inOrder db.decisions).filterMap Row.seq).Perm (db.decisions.filterMap Row.seq) :=
    (perm_insertionSort _ _).filterMap Row.seq
  have unique : ((inOrder db.decisions).filterMap Row.seq).Nodup := samePerm.nodup_iff.mpr db.uniqueSeq
  have different := pairwise_filterMap.mp unique
  refine (sorted.and different).imp_of_mem ?_
  intro left right inLeft inRight ⟨ordered, apart⟩
  obtain ⟨leftSeq, isLeft⟩ := isSome_iff_exists.mp (chained left ((mem_insertionSort _).mp inLeft))
  obtain ⟨rightSeq, isRight⟩ := isSome_iff_exists.mp (chained right ((mem_insertionSort _).mp inRight))
  rw [Row.seqKey, Row.seqKey, isLeft, isRight] at ordered
  have atMost : leftSeq ≤ rightSeq := WithBot.coe_le_coe.mp ordered
  have notSame := apart leftSeq isLeft rightSeq isRight
  rw [Row.position_of_seq isLeft, Row.position_of_seq isRight]
  omega

theorem linked_below {start : Int × String} (linked : Linked start rows) :
    ∀ row ∈ rows, row.position.1 ≤ (HashChain.head Row.position start rows).1 := by
  induction rows generalizing start with
  | nil =>
    intro row member
    cases member
  | cons first rest ih =>
    intro row member
    rcases mem_cons.mp member with rfl | later
    · rw [HashChain.head, head_seq linked.2]
      omega
    · exact ih linked.2 row later

variable {early late : List Row} {rounds : Nat}

theorem filter_split (chained : ∀ row ∈ early ++ late, row.seq.isSome) {seq : Int}
    (below : ∀ row ∈ early, row.position.1 ≤ seq) (above : ∀ row ∈ late, seq < row.position.1) :
    (early ++ late).filter (fun row => ¬ row.upTo seq) = late := by
  have none : early.filter (fun row => ¬ row.upTo seq) = [] := by
    rw [filter_eq_nil_iff]
    intro row member
    have low := (Row.upTo_iff (chained row (mem_append_left _ member)) seq).mpr (below row member)
    simp [low]
  have all : late.filter (fun row => ¬ row.upTo seq) = late := by
    rw [filter_eq_self]
    intro row member
    have high : ¬ row.upTo seq = true := by
      rw [Row.upTo_iff (chained row (mem_append_right _ member)) seq]
      exact not_le.mpr (above row member)
    simpa using high
  rw [filter_append, none, all, nil_append]

/-- A walk that accepts a table that does not change has checked all that is left of it. -/
theorem verifyLedgerFrom_accepts {db : Db}
    (split : inOrder db.decisions = early ++ late) (classified : ∀ row ∈ early ++ late, row.Classified serde)
    (sorted : (early ++ late).Pairwise fun left right => left.position.1 < right.position.1)
    (below : ∀ row ∈ early, row.position.1 ≤ walk.expectedSeq)
    (above : ∀ row ∈ late, walk.expectedSeq < row.position.1)
    (passed : ∀ anchor ∈ db.anchors, anchor.seq ≤ walk.expectedSeq)
    (answered : verifyLedgerFrom sha256 (fun _ => db) anchorSeq rounds walk = some report) (ok : report.ok = true) :
    Linked walk.position late ∧ (∀ row ∈ late, row.Sound serde sha256) ∧
      (report.headSeq, report.headHash) = HashChain.head Row.position walk.position late := by
  induction rounds generalizing walk early late with
  | zero => cases answered
  | succ rounds ih =>
    have batchRows : db.readBatch walk.expectedSeq = late.take batchSize := by
      rw [Db.readBatch, split, filter_split (fun row member => (classified row member).chained) below above]
    rw [verifyLedgerFrom, batchRows] at answered
    have lateClassified : ∀ row ∈ late.take batchSize, row.Classified serde :=
      fun row member => classified row (mem_append_right _ (mem_of_mem_take member))
    cases batch : late.take batchSize with
    | nil =>
      rw [batch] at answered
      cases answered
      obtain rfl : late = [] := by
        rcases take_eq_nil_iff.mp batch with noRows | empty
        · cases noRows
        · exact empty
      refine ⟨trivial, ?_, rfl⟩
      intro row member
      cases member
    | cons row rest =>
      rw [batch] at answered
      dsimp only at answered
      split at answered
      · rename_i refused rejected
        cases answered
        exact absurd ok (by rw [Walk.batch_error rejected]; decide)
      · rename_i after accepted
        rw [← batch] at accepted
        have whole : late.take batchSize ++ late.drop batchSize = late := take_append_drop _ _
        have regrouped : (early ++ late.take batchSize) ++ late.drop batchSize = early ++ late := by
          rw [append_assoc, whole]
        have sortedParts : (late.take batchSize ++ late.drop batchSize).Pairwise
            fun left right => left.position.1 < right.position.1 := by
          rw [whole]
          exact (pairwise_append.mp sorted).2.1
        obtain ⟨linked, sound, atEnd⟩ := Walk.batch_eq_ok accepted lateClassified (fun _ => passed)
          (fun row member => above row (mem_of_mem_take member)) (pairwise_append.mp sortedParts).1
        obtain ⟨last, latest⟩ : ∃ last, (late.take batchSize).getLast? = some last := by
          rw [batch]
          exact ⟨_, getLast?_eq_some_getLast (cons_ne_nil _ _)⟩
        have inBatch : last ∈ late.take batchSize := mem_of_getLast? latest
        have reached : after.expectedSeq = last.position.1 := by
          rw [HashChain.head_of_getLast latest] at atEnd
          exact congrArg Prod.fst atEnd
        have higher : walk.expectedSeq < after.expectedSeq := by
          rw [reached]
          exact above last (mem_of_mem_take inBatch)
        have belowNext : ∀ row ∈ early ++ late.take batchSize, row.position.1 ≤ after.expectedSeq := by
          intro row member
          rcases mem_append.mp member with old | new
          · have low := below row old
            omega
          · have low := linked_below linked row new
            rw [← atEnd] at low
            exact low
        have aboveNext : ∀ row ∈ late.drop batchSize, after.expectedSeq < row.position.1 := by
          intro row member
          rw [reached]
          exact (pairwise_append.mp sortedParts).2.2 last inBatch row member
        have passedNext : ∀ anchor ∈ db.anchors, anchor.seq ≤ after.expectedSeq := by
          intro anchor member
          have low := passed anchor member
          omega
        obtain ⟨linkedRest, soundRest, head⟩ := ih (split.trans regrouped.symm) (regrouped ▸ classified)
          (regrouped ▸ sorted) belowNext aboveNext passedNext answered
        rw [atEnd] at linkedRest head
        rw [← whole]
        refine ⟨HashChain.linked_append.mpr ⟨linked, linkedRest⟩, ?_, ?_⟩
        · exact forall_mem_append.mpr ⟨sound, soundRest⟩
        · rw [HashChain.head_append]
          exact head

theorem verifyLedger_accepts {db : Db}
    (answered : verifyLedger serde sha256 (fun _ => db) rounds = some report) (ok : report.ok = true) :
    Linked db.anchor (inOrder db.decisions) ∧ (∀ row ∈ inOrder db.decisions, row.Sound serde sha256) ∧
      (report.headSeq, report.headHash) = HashChain.head Row.position db.anchor (inOrder db.decisions) := by
  rw [verifyLedger] at answered
  split at answered
  · cases answered
    cases ok
  · rename_i unforged
    split at answered
    · rename_i refused rejected
      cases answered
      exact absurd ok (by rw [classificationError_some rejected]; decide)
    · rename_i passed
      have classified := classificationError_none passed
      have chained : ∀ row ∈ db.decisions, row.seq.isSome := by
        intro row member
        exact (classified row ((mem_insertionSort _).mpr member)).chained
      have above : ∀ row ∈ inOrder db.decisions, db.anchor.1 < row.position.1 := by
        intro row member
        have stored := (mem_insertionSort _).mp member
        by_contra low
        have counted : row ∈ db.decisions.filter (Row.upTo db.anchor.1) :=
          mem_filter.mpr ⟨stored, (Row.upTo_iff (chained row stored) _).mpr (not_lt.mp low)⟩
        exact unforged (length_pos_of_mem counted)
      have fromStart : inOrder db.decisions = [] ++ inOrder db.decisions := rfl
      exact verifyLedgerFrom_accepts fromStart classified (db.inOrder_strict chained)
        (fun row member => absurd member not_mem_nil) above db.anchor_top answered ok

def Db.preimages (db : Db) : Set (List UInt8) :=
  {bytes | ∃ row ∈ db.decisions, ∃ entry, row.read = .ok entry ∧ bytes = utf8 entry.preimage}

theorem preimage_inj {left right : LedgerRow} (same : left.preimage = right.preimage)
    (hashes : left.entryHash = right.entryHash) : left = right := by
  have items : [Json.Item.number left.seq, .string left.prevHash, .string left.id, .number left.timestamp,
      .string left.actor, .string left.action, .string left.reason, .string left.evidence,
      .string left.targetId, .string left.outcome] =
      [.number right.seq, .string right.prevHash, .string right.id, .number right.timestamp,
      .string right.actor, .string right.action, .string right.reason, .string right.evidence,
      .string right.targetId, .string right.outcome] := Json.array_inj rfl same
  simp only [cons.injEq, Json.Item.number.injEq, Json.Item.string.injEq, and_true] at items
  obtain ⟨seq, prev, id, timestamp, actor, action, reason, evidence, target, outcome⟩ := items
  cases left
  cases right
  subst seq prev id timestamp actor action reason evidence target outcome hashes
  rfl

theorem Row.Sound.eq_of_position {hashed : Set (List UInt8)} (distinct : Set.InjOn sha256 hashed) {left right : Row}
    (soundLeft : left.Sound serde sha256) (soundRight : right.Sound serde sha256)
    (inLeft : ∀ entry, left.read = .ok entry → utf8 entry.preimage ∈ hashed)
    (inRight : ∀ entry, right.read = .ok entry → utf8 entry.preimage ∈ hashed)
    (same : left.position = right.position) : left = right := by
  obtain ⟨first, rfl, hashFirst⟩ := soundLeft
  obtain ⟨second, rfl, hashSecond⟩ := soundRight
  have hashes : first.entryHash = second.entryHash := congrArg Prod.snd same
  have digests : sha256 (utf8 first.preimage) = sha256 (utf8 second.preimage) := by
    apply toHex_injective
    exact hashFirst.trans (hashes.trans hashSecond.symm)
  have texts := utf8_injective (distinct (inLeft first rfl) (inRight second rfl) digests)
  rw [preimage_inj texts hashes]

/-- Two tables that are accepted with the same anchor and the same head hold the same rows in the same order. -/
theorem verifyLedger_tamperEvident (serde : Serde) (sha256 : List UInt8 → List UInt8) (first second : Db)
    (collisionFree : Set.InjOn sha256 (first.preimages ∪ second.preimages))
    (sameAnchor : first.anchor = second.anchor) {rounds rounds' : Nat} {report report' : LedgerVerification}
    (answered : verifyLedger serde sha256 (fun _ => first) rounds = some report) (ok : report.ok = true)
    (answered' : verifyLedger serde sha256 (fun _ => second) rounds' = some report') (ok' : report'.ok = true)
    (sameSeq : report.headSeq = report'.headSeq) (sameHash : report.headHash = report'.headHash) :
    inOrder first.decisions = inOrder second.decisions := by
  obtain ⟨linked, sound, head⟩ := verifyLedger_accepts answered ok
  obtain ⟨linked', sound', head'⟩ := verifyLedger_accepts answered' ok'
  have sameHead : HashChain.head Row.position first.anchor (inOrder first.decisions) =
      HashChain.head Row.position second.anchor (inOrder second.decisions) := by
    rw [← head, ← head', sameSeq, sameHash]
  have length : (inOrder first.decisions).length = (inOrder second.decisions).length := by
    have seqs := congrArg Prod.fst sameHead
    rw [head_seq linked, head_seq linked', sameAnchor] at seqs
    omega
  apply HashChain.eq_of_head _ length linked linked' sameHead
  intro row member row' member' same
  apply Row.Sound.eq_of_position collisionFree (sound row member) (sound' row' member') _ _ same
  · intro entry read
    exact .inl ⟨row, (mem_insertionSort _).mp member, entry, read, rfl⟩
  · intro entry read
    exact .inr ⟨row', (mem_insertionSort _).mp member', entry, read, rfl⟩

def bareSerde : Serde := ⟨fun _ => "\x7b\x7d", fun _ => none⟩

def shortDigest (bytes : List UInt8) : List UInt8 := bytes.take 2

def sampleEntry (headSeq : Int) (headHash id : String) : LedgerRow :=
  ledgerRowAt bareSerde shortDigest headSeq headHash ⟨id, 1, "agent", "route", "", .empty, "target", "allow"⟩

def firstEntry : LedgerRow := sampleEntry 0 "" "a"

def secondEntry : LedgerRow := sampleEntry 1 firstEntry.entryHash "b"

def firstRow : Row := firstEntry.stored (lifecycleScopeFromEvidence .empty)

def secondRow : Row := secondEntry.stored (lifecycleScopeFromEvidence .empty)

def writtenTable : Db := ⟨[firstRow, secondRow], [], by decide, by decide, by decide⟩

def swappedTable : Db := ⟨[secondRow, firstRow], [], by decide, by decide, by decide⟩

theorem sample_preimages : writtenTable.preimages ∪ swappedTable.preimages ⊆
    {utf8 firstEntry.preimage, utf8 secondEntry.preimage} := by
  have known : ∀ row, row = firstRow ∨ row = secondRow → ∀ entry, row.read = .ok entry →
      utf8 entry.preimage = utf8 firstEntry.preimage ∨ utf8 entry.preimage = utf8 secondEntry.preimage := by
    intro row isRow entry read
    rcases isRow with rfl | rfl
    · have isFirst : entry = firstEntry := (Except.ok.inj read).symm
      exact .inl (by rw [isFirst])
    · have isSecond : entry = secondEntry := (Except.ok.inj read).symm
      exact .inr (by rw [isSecond])
  rintro bytes (⟨row, member, entry, read, rfl⟩ | ⟨row, member, entry, read, rfl⟩)
  · exact known row (by simpa [writtenTable] using member) entry read
  · exact known row (by simpa [swappedTable, or_comm] using member) entry read

theorem shortDigest_injOn : Set.InjOn shortDigest (writtenTable.preimages ∪ swappedTable.preimages) := by
  have apart : shortDigest (utf8 firstEntry.preimage) ≠ shortDigest (utf8 secondEntry.preimage) := by
    decide +kernel
  exact (Set.injOn_pair.mpr fun same => absurd same apart).mono sample_preimages

def sampleReport : LedgerVerification := ⟨true, 2, 0, "", 0, 2, secondEntry.entryHash⟩

theorem verifyLedger_tamperEvident_sample : writtenTable.decisions ≠ swappedTable.decisions ∧
      inOrder writtenTable.decisions = inOrder swappedTable.decisions := by
  refine ⟨by decide, ?_⟩
  have written : verifyLedger bareSerde shortDigest (fun _ => writtenTable) 2 = some sampleReport := by
    decide +kernel
  have swapped : verifyLedger bareSerde shortDigest (fun _ => swappedTable) 2 = some sampleReport := by
    decide +kernel
  exact verifyLedger_tamperEvident bareSerde shortDigest writtenTable swappedTable shortDigest_injOn rfl written rfl
    swapped rfl rfl rfl

end SekaiChisei.DecisionLedger
