import SekaiChisei.DecisionLedger.Chain

/-!
The ledger verifies after any inserts and purges, also where these commit while the verification runs: later writes do
not move the position of a walk.
-/

namespace SekaiChisei.DecisionLedger
open Lib List
variable {serde : Serde} {sha256 : List UInt8 → List UInt8}

def Walk.position (walk : Walk) : Int × String := (walk.expectedSeq, walk.expectedPrev)

theorem LedgerRow.read_stored (entry : LedgerRow) (scope : String × String) : (entry.stored scope).read = .ok entry :=
  rfl

variable {entry : LedgerRow} {walk : Walk} {anchorSeq : Int} {db : Nat → Db}

theorem Walk.resume_linked (follows : entry.seq = walk.expectedSeq + 1) : walk.resume db entry = .ok walk := by
  rw [resume, if_pos follows]

theorem Walk.visit_sound (links : entry.prevHash = walk.expectedPrev) (hashed : entry.hash sha256 = entry.entryHash) :
    walk.visit sha256 entry = .ok ⟨entry.seq, entry.entryHash, walk.entriesChecked + 1, walk.statements⟩ := by
  rw [visit, if_neg (not_not.mpr links), if_neg (not_not.mpr hashed)]

theorem Walk.batch_cons {resumed visited : Walk} {scope : String × String}
    {db : Nat → Db} (follows : walk.resume db entry = .ok resumed)
    (accepted : resumed.visit sha256 entry = .ok visited) (rest : List Row) :
    Walk.batch sha256 db anchorSeq walk (entry.stored scope :: rest) =
      Walk.batch sha256 db anchorSeq visited rest := by
  rw [batch]
  simp only [LedgerRow.read_stored, follows, accepted]

variable {rows : List Row}

theorem Walk.batch_linked (walk : Walk) (linked : Linked walk.position rows)
    (sound : ∀ row ∈ rows, row.Sound serde sha256) :
    ∃ after, Walk.batch sha256 db anchorSeq walk rows = .ok after ∧
      after.position = HashChain.head Row.position walk.position rows ∧ after.statements = walk.statements := by
  induction rows generalizing walk with
  | nil => exact ⟨walk, rfl, rfl, rfl⟩
  | cons row rest ih =>
    obtain ⟨soundRow, soundRest⟩ := forall_mem_cons.mp sound
    obtain ⟨links, linkedRest⟩ := linked
    obtain ⟨entry, rfl, hashed⟩ := soundRow
    have seq : entry.seq - 1 = walk.expectedSeq := congrArg Prod.fst links
    have prev : entry.prevHash = walk.expectedPrev := congrArg Prod.snd links
    rw [batch_cons (resume_linked (by omega)) (visit_sound prev hashed)]
    exact ih ⟨entry.seq, entry.entryHash, walk.entriesChecked + 1, walk.statements⟩ linkedRest soundRest

theorem Walk.batch_resumed (walk : Walk) {start : Int × String} (linked : Linked start rows)
    (sound : ∀ row ∈ rows, row.Sound serde sha256) (nonempty : rows ≠ []) {db : Nat → Db}
    (gap : walk.expectedSeq ≠ start.1) (anchored : (db walk.statements).anchorAt start.1 = some start.2) :
    ∃ after, Walk.batch sha256 db anchorSeq walk rows = .ok after ∧
      after.position = HashChain.head Row.position start rows ∧ after.statements = walk.statements + 1 := by
  cases rows with
  | nil => exact absurd rfl nonempty
  | cons row rest =>
    obtain ⟨soundRow, soundRest⟩ := forall_mem_cons.mp sound
    obtain ⟨links, linkedRest⟩ := linked
    obtain ⟨entry, rfl, hashed⟩ := soundRow
    have seq : entry.seq - 1 = start.1 := congrArg Prod.fst links
    have prev : entry.prevHash = start.2 := congrArg Prod.snd links
    have resumed : walk.resume db entry = .ok ⟨start.1, start.2, walk.entriesChecked, walk.statements + 1⟩ := by
      rw [resume, if_neg (by omega)]
      simp only [seq, anchored, prev, if_true]
    rw [batch_cons resumed (visit_sound prev hashed)]
    exact batch_linked ⟨entry.seq, entry.entryHash, walk.entriesChecked + 1, walk.statements + 1⟩ linkedRest
      soundRest

variable {world : World}

/-- A batch is the next rows of the chain after the walk and after what was purged. -/
theorem World.Holds.readBatch {purged : Nat} (holds : world.Holds serde sha256 purged) (n : Nat) :
    world.db.readBatch n = (world.log.drop (max purged n)).take batchSize := by
  rw [Db.readBatch, inOrder_linked holds.linkedRest holds.soundRest,
    filter_above holds.linkedRest holds.soundRest, positionAfter_seq holds.linked holds.within, holds.decisions,
    drop_drop]
  congr 2
  omega

theorem Walk.batch_advances {later : World} {purged purgedLater n : Nat}
    (holds : world.Holds serde sha256 purged) (holdsLater : later.Holds serde sha256 purgedLater)
    (grown : world.Grows later) (db : Nat → Db) (walk : Walk) (next : db walk.statements = later.db)
    (within : n ≤ world.log.length) (position : walk.position = positionAfter world.log n)
    (nonempty : world.db.readBatch walk.expectedSeq ≠ []) (anchorSeq : Int) :
    ∃ after, Walk.batch sha256 db anchorSeq walk (world.db.readBatch walk.expectedSeq) = .ok after ∧
      walk.statements ≤ after.statements ∧ ∃ m, n < m ∧ m ≤ world.log.length ∧
        after.position = positionAfter world.log m := by
  have reached : walk.expectedSeq = n := by
    rw [← positionAfter_seq holds.linked within, ← position]
    rfl
  rw [reached, holds.readBatch] at nonempty ⊢
  have linked : Linked (positionAfter world.log (max purged n)) ((world.log.drop (max purged n)).take batchSize) :=
    HashChain.linked_take (HashChain.linked_drop holds.linked (max purged n)) batchSize
  have sound : ∀ row ∈ (world.log.drop (max purged n)).take batchSize, row.Sound serde sha256 :=
    fun row member => holds.sound row (mem_of_mem_drop (mem_of_mem_take member))
  have left : max purged n < world.log.length := by
    by_contra ended
    apply nonempty
    rw [drop_eq_nil_of_le (not_lt.mp ended), take_nil]
  have further : n < min (max purged n + batchSize) world.log.length := by
    have positive : 0 < batchSize := by decide
    omega
  have ends : HashChain.head Row.position (positionAfter world.log (max purged n))
      ((world.log.drop (max purged n)).take batchSize) =
        positionAfter world.log (min (max purged n + batchSize) world.log.length) := by
    rw [positionAfter, positionAfter, ← take_eq_take_min, take_add, HashChain.head_append]
  rcases Nat.lt_or_ge n purged with gone | here
  · -- the walk is behind what was purged, and the anchor of the purge is still there
    have start : max purged n = purged := Nat.max_eq_left (Nat.le_of_lt gone)
    have seqStart : (positionAfter world.log (max purged n)).1 = purged := by
      rw [start, positionAfter_seq holds.linked holds.within]
    have anchored : (db walk.statements).anchorAt (positionAfter world.log (max purged n)).1 =
        some (positionAfter world.log (max purged n)).2 := by
      have recorded := grown.anchors purged (holds.last (by omega))
      rw [seqStart, next, holdsLater.anchorAt recorded, positionAfter_grown grown.log holds.within, start]
    obtain ⟨after, run, atEnd, statements⟩ :=
      walk.batch_resumed linked sound nonempty (by omega) anchored
    exact ⟨after, run, by omega, _, further, Nat.min_le_right _ _, atEnd.trans ends⟩
  · have start : max purged n = n := Nat.max_eq_right here
    have linkedHere : Linked walk.position ((world.log.drop (max purged n)).take batchSize) := by
      rw [position]
      rwa [start] at linked ⊢
    obtain ⟨after, run, atEnd, statements⟩ := walk.batch_linked linkedHere sound
    refine ⟨after, run, by omega, _, further, Nat.min_le_right _ _, ?_⟩
    rw [atEnd, position, ← ends, start]

section
variable (sha256) (history : Nat → List Write)

abbrev dbAt (serde : Serde) (k : Nat) : Db := (worldAt serde sha256 history k).db

structure Walk.Reaches (serde : Serde) (walk : Walk) (n : Nat) : Prop where
  within : n ≤ (worldAt serde sha256 history walk.statements).log.length
  position : walk.position = positionAfter (worldAt serde sha256 history walk.statements).log n

variable {walk : Walk} {n : Nat}

theorem Walk.Reaches.batch (lawful : serde.Lawful) (reaches : walk.Reaches sha256 history serde n)
    (nonempty : (dbAt sha256 history serde walk.statements).readBatch walk.expectedSeq ≠ []) (anchorSeq : Int) :
    ∃ after, Walk.batch sha256 (dbAt sha256 history serde) anchorSeq
        { walk with statements := walk.statements + 1 }
        ((dbAt sha256 history serde walk.statements).readBatch walk.expectedSeq) = .ok after ∧
      ∃ m, n < m ∧ after.Reaches sha256 history serde m := by
  obtain ⟨purged, holds⟩ := worldAt_holds sha256 lawful history walk.statements
  obtain ⟨purgedLater, holdsLater⟩ := worldAt_holds sha256 lawful history (walk.statements + 1)
  have grown := worldAt_grows sha256 lawful history (Nat.le_succ walk.statements)
  obtain ⟨after, run, later, m, further, within, atEnd⟩ :=
    Walk.batch_advances holds holdsLater grown (dbAt sha256 history serde)
      { walk with statements := walk.statements + 1 } rfl reaches.within reaches.position nonempty anchorSeq
  have grownAfter := (worldAt_grows sha256 lawful history (Nat.le_of_succ_le later)).log
  refine ⟨after, run, m, further, Nat.le_trans within grownAfter.length_le, ?_⟩
  rw [positionAfter_grown grownAfter within]
  exact atEnd

/-- A report that finds nothing wrong, from a walk that has come to the end of the table it last read. -/
structure LedgerVerification.Fine (serde : Serde) (report : LedgerVerification) (n : Nat) : Prop where
  ok : report.ok = true
  firstBadSeq : report.firstBadSeq = 0
  error : report.error = ""
  head : ∃ k m purged, n ≤ m ∧ m ≤ (worldAt serde sha256 history k).log.length ∧
    (worldAt serde sha256 history k).Holds serde sha256 purged ∧
    (worldAt serde sha256 history k).log.length ≤ max purged m ∧
    (report.headSeq, report.headHash) = positionAfter (worldAt serde sha256 history k).log m

theorem Walk.Reaches.finished (lawful : serde.Lawful) (reaches : walk.Reaches sha256 history serde n)
    (ended : (dbAt sha256 history serde walk.statements).readBatch walk.expectedSeq = []) (anchorSeq : Int) :
    (walk.report anchorSeq true 0 "").Fine sha256 history serde n := by
  obtain ⟨purged, holds⟩ := worldAt_holds sha256 lawful history walk.statements
  have reached : walk.expectedSeq = n := by
    rw [← positionAfter_seq holds.linked reaches.within, ← reaches.position]
    rfl
  refine ⟨rfl, rfl, rfl, walk.statements, n, purged, Nat.le_refl n, reaches.within, holds, ?_, reaches.position⟩
  rw [reached, holds.readBatch, take_eq_nil_iff] at ended
  rcases ended with noRows | empty
  · cases noRows
  · exact drop_eq_nil_iff.mp empty

theorem verifyLedgerFrom_fine (lawful : serde.Lawful) (anchorSeq : Int) (rounds : Nat)
    (reaches : walk.Reaches sha256 history serde n) :
    (∀ report, verifyLedgerFrom sha256 (dbAt sha256 history serde) anchorSeq rounds walk = some report →
      report.Fine sha256 history serde n) ∧
    ∀ bound, (∀ k, (worldAt serde sha256 history k).log.length ≤ bound) → bound < n + rounds →
      ∃ report, verifyLedgerFrom sha256 (dbAt sha256 history serde) anchorSeq rounds walk = some report := by
  induction rounds generalizing walk n with
  | zero =>
    constructor
    · intro report answered
      cases answered
    · intro bound bounded enough
      have within := reaches.within
      have atMost := bounded walk.statements
      omega
  | succ rounds ih =>
    rw [verifyLedgerFrom]
    cases batch : (dbAt sha256 history serde walk.statements).readBatch walk.expectedSeq with
    | nil =>
      have fine := reaches.finished sha256 history lawful batch anchorSeq
      constructor
      · intro report answered
        cases answered
        exact fine
      · intro _ _ _
        exact ⟨_, rfl⟩
    | cons row rest =>
      obtain ⟨after, run, m, further, reachesAfter⟩ :=
        reaches.batch sha256 history lawful (by rw [batch]; exact cons_ne_nil _ _) anchorSeq
      rw [batch] at run
      simp only [run]
      obtain ⟨fine, answers⟩ := ih reachesAfter
      constructor
      · intro report answered
        have fine := fine report answered
        obtain ⟨k, reached, purged, beyond, rest⟩ := fine.head
        exact ⟨fine.ok, fine.firstBadSeq, fine.error, k, reached, purged, further.le.trans beyond, rest⟩
      · intro bound bounded enough
        exact answers bound bounded (by omega)

end

theorem classificationError_sound (anchor : Int × String)
    (sound : ∀ row ∈ rows, row.Sound serde sha256) : classificationError serde anchor rows = none := by
  induction rows with
  | nil => rfl
  | cons row rest ih =>
    obtain ⟨soundRow, soundRest⟩ := forall_mem_cons.mp sound
    obtain ⟨entry, rfl, _⟩ := soundRow
    exact (if_neg (not_not.mpr rfl)).trans (ih soundRest)

theorem World.Holds.forged {purged : Nat} (holds : world.Holds serde sha256 purged)
    {anchor : Int × String} (below : anchor.1 ≤ purged) : world.db.forged anchor = 0 := by
  rw [Db.forged, length_eq_zero_iff, filter_eq_nil_iff]
  intro row member
  have above := linked_above holds.linkedRest row member
  rw [positionAfter_seq holds.linked holds.within] at above
  rw [Row.upTo, (holds.soundRest row member).seq]
  simpa using (by omega : anchor.1 < row.position.1)

theorem World.Grows.purged {later : World} {purged purgedLater : Nat} (grown : world.Grows later)
    (holds : world.Holds serde sha256 purged) (holdsLater : later.Holds serde sha256 purgedLater) :
    purged ≤ purgedLater := by
  rcases Nat.eq_zero_or_pos purged with rfl | some
  · exact Nat.zero_le _
  · obtain ⟨anchor, member, numbered⟩ := grown.anchors purged (holds.last some)
    exact (holdsLater.anchor_position member numbered).1

theorem verifyLedger_walks (lawful : serde.Lawful) (history : Nat → List Write)
    {purged : Nat} (holds : (worldAt serde sha256 history 0).Holds serde sha256 purged) (rounds : Nat) :
    verifyLedger serde sha256 (dbAt sha256 history serde) rounds =
        verifyLedgerFrom sha256 (dbAt sha256 history serde) (dbAt sha256 history serde 0).anchor.1 rounds
          ⟨(dbAt sha256 history serde 0).anchor.1, (dbAt sha256 history serde 0).anchor.2, 0, 3⟩ ∧
      Walk.Reaches sha256 history serde
        ⟨(dbAt sha256 history serde 0).anchor.1, (dbAt sha256 history serde 0).anchor.2, 0, 3⟩ purged := by
  have start := holds.anchor
  obtain ⟨purged1, holds1⟩ := worldAt_holds sha256 lawful history 1
  obtain ⟨purged2, holds2⟩ := worldAt_holds sha256 lawful history 2
  have grown := (worldAt_grows sha256 lawful history (Nat.zero_le 3)).log
  have numbered : (dbAt sha256 history serde 0).anchor.1 = purged := by
    rw [start, positionAfter_seq holds.linked holds.within]
  have below : (dbAt sha256 history serde 0).anchor.1 ≤ purged1 := by
    have later := (worldAt_grows sha256 lawful history (Nat.zero_le 1)).purged holds holds1
    omega
  constructor
  · rw [verifyLedger]
    simp only [holds1.forged below, Nat.lt_irrefl, gt_iff_lt, if_false,
      inOrder_linked holds2.linkedRest holds2.soundRest, classificationError_sound _ holds2.soundRest]
  · refine ⟨Nat.le_trans holds.within grown.length_le, ?_⟩
    rw [positionAfter_grown grown holds.within, ← start]
    rfl

theorem worldAt_still {history : Nat → List Write} {last : Nat}
    (still : ∀ k > last, history k = []) {k : Nat} (later : last ≤ k) :
    worldAt serde sha256 history k = worldAt serde sha256 history last := by
  induction later with
  | refl => rfl
  | @step k before ih =>
    rw [worldAt, still (k + 1) (Nat.lt_succ_of_le before)]
    exact ih

theorem World.Holds.unique {purged other : Nat} (holds : world.Holds serde sha256 purged)
    (again : world.Holds serde sha256 other) : purged = other := by
  have same := congrArg List.length (holds.decisions.symm.trans again.decisions)
  rw [length_drop, length_drop] at same
  have within := holds.within
  have withinOther := again.within
  omega

theorem getLast?_recorded {log : List Row} {inserted : List Decision} {decision : Decision}
    (recorded : Forall₂ (Row.Records serde) log inserted) (last : inserted.getLast? = some decision) :
    ∃ row, log.getLast? = some row ∧ row.Records serde decision := by
  have reversed := forall₂_reverse_iff.mpr recorded
  simp only [getLast?_eq_head?_reverse] at last ⊢
  generalize log.reverse = rows at reversed ⊢
  generalize inserted.reverse = decisions at reversed last
  cases reversed with
  | nil => cases last
  | cons records _ =>
    cases last
    exact ⟨_, rfl, records⟩

/-- No verification reports a fault, whatever is inserted and purged before it and while it runs, and without writes
it reports the last inserted decision. -/
theorem verifyLedger_complete (serde : Serde) (sha256 : List UInt8 → List UInt8) (lawful : serde.Lawful)
    (history : Nat → List Write) :
    (∀ rounds report, verifyLedger serde sha256 (dbAt sha256 history serde) rounds = some report →
      report.ok = true ∧ report.firstBadSeq = 0 ∧ report.error = "") ∧
    (∀ last, (∀ k > last, history k = []) →
      ∃ rounds report, verifyLedger serde sha256 (dbAt sha256 history serde) rounds = some report) ∧
    ((∀ k > 0, history k = []) →
      ∀ rounds report, verifyLedger serde sha256 (dbAt sha256 history serde) rounds = some report →
        (∀ decision, (worldAt serde sha256 history 0).inserted.getLast? = some decision →
          report.headSeq = (worldAt serde sha256 history 0).inserted.length ∧
          ∃ row : Row, row.Records serde decision ∧ row.seq = some report.headSeq ∧
            row.entryHash = some report.headHash ∧ ((dbAt sha256 history serde 0).decisions ≠ [] →
              (dbAt sha256 history serde 0).decisions.getLast? = some row)) ∧
        ((dbAt sha256 history serde 0).decisions = [] →
          (report.headSeq, report.headHash) = (dbAt sha256 history serde 0).anchor)) := by
  obtain ⟨purged, holds⟩ := worldAt_holds sha256 lawful history 0
  have fine : ∀ rounds report, verifyLedger serde sha256 (dbAt sha256 history serde) rounds = some report →
      report.Fine sha256 history serde purged := by
    intro rounds report answered
    obtain ⟨same, reaches⟩ := verifyLedger_walks lawful history holds rounds
    rw [same] at answered
    exact (verifyLedgerFrom_fine sha256 history lawful _ rounds reaches).1 report answered
  refine ⟨?_, ?_, ?_⟩
  · intro rounds report answered
    exact ⟨(fine rounds report answered).ok, (fine rounds report answered).firstBadSeq,
      (fine rounds report answered).error⟩
  · intro last still
    have bounded : ∀ k, (worldAt serde sha256 history k).log.length ≤
        (worldAt serde sha256 history last).log.length := by
      intro k
      rcases Nat.le_total k last with before | later
      · exact (worldAt_grows sha256 lawful history before).log.length_le
      · rw [worldAt_still still later]
    obtain ⟨same, reaches⟩ := verifyLedger_walks lawful history holds
      ((worldAt serde sha256 history last).log.length + 1)
    obtain ⟨report, answered⟩ := (verifyLedgerFrom_fine sha256 history lawful _
      ((worldAt serde sha256 history last).log.length + 1) reaches).2 _ bounded (by omega)
    exact ⟨_, report, same.trans answered⟩
  · intro quiet rounds report answered
    obtain ⟨k, m, purgedThen, beyond, within, holdsThen, ended, head⟩ := (fine rounds report answered).head
    rw [worldAt_still quiet (Nat.zero_le k)] at within holdsThen ended head
    obtain rfl := holds.unique holdsThen
    obtain rfl : m = (worldAt serde sha256 history 0).log.length := by omega
    rw [positionAfter, take_length] at head
    constructor
    · intro decision passed
      obtain ⟨row, latest, records⟩ := getLast?_recorded holds.recorded passed
      have counted := positionAfter_seq holds.linked le_rfl
      rw [positionAfter, take_length, ← head, holds.recorded.length_eq] at counted
      rw [HashChain.head_of_getLast latest] at head
      obtain ⟨entry, rfl, _⟩ := holds.sound row (mem_of_getLast? latest)
      have seq : report.headSeq = entry.seq := congrArg Prod.fst head
      have hash : report.headHash = entry.entryHash := congrArg Prod.snd head
      refine ⟨counted, _, records, congrArg some seq.symm, congrArg some hash.symm, ?_⟩
      rw [dbAt, holds.decisions, ← latest, getLast?_drop]
      intro left
      exact if_neg fun all => left (drop_eq_nil_of_le all)
    · intro emptied
      rw [holds.anchor, head, positionAfter]
      rw [holds.decisions, drop_eq_nil_iff] at emptied
      rw [take_of_length_le emptied]

def Evidence.json (evidence : Evidence) : String :=
  Json.object (evidence.entries.map fun entry => (entry.1, Json.string entry.2))

open Classical in
noncomputable def plainSerde : Serde where
  toText := Evidence.json
  fromText text := if written : ∃ evidence : Evidence, evidence.json = text then some written.choose else none

theorem plainSerde_lawful : plainSerde.Lawful := by
  intro evidence
  have written : ∃ other : Evidence, other.json = evidence.json := ⟨evidence, rfl⟩
  refine ⟨written.choose, dif_pos written, ?_⟩
  have items : [Json.Item.fields written.choose.entries] = [Json.Item.fields evidence.entries] :=
    Json.array_inj rfl (congrArg (fun text => Json.array [text]) written.choose_spec)
  have entries : written.choose.entries = evidence.entries := by simpa using items
  intro key
  rw [Evidence.get, Evidence.get, entries]

def sampleDecision (id : String) (timestamp : Int) : Decision :=
  ⟨id, timestamp, "agent", "route", "", ⟨[("namespace", "ns")], by decide⟩, "target", "allow"⟩

/-- Three decisions before the verification, and a purge of two of them between its statements. -/
def sampleHistory : Nat → List Write
  | 0 => [.insert (sampleDecision "a" 1), .insert (sampleDecision "b" 2), .insert (sampleDecision "c" 3)]
  | 3 => [.purge 3 9]
  | _ => []

theorem sampleHistory_still : ∀ k > 3, sampleHistory k = []
  | _ + 4, _ => rfl

theorem verifyLedger_complete_sample : plainSerde.Lawful ∧
    ∃ rounds report, verifyLedger plainSerde id (dbAt id sampleHistory plainSerde) rounds = some report ∧
      report.ok = true := by
  obtain ⟨fine, answers, _⟩ := verifyLedger_complete plainSerde id plainSerde_lawful sampleHistory
  obtain ⟨rounds, report, answered⟩ := answers 3 sampleHistory_still
  exact ⟨plainSerde_lawful, rounds, report, answered, (fine rounds report answered).1⟩

end SekaiChisei.DecisionLedger
