import SekaiChisei.Lib.Fallible
import SekaiChisei.Lib.Json

/-!
The decision ledger: `sekai/decision_ledger.rs` and `sekai/ledger.rs`. SHA-256 and serde are parameters. A
verification is given the database that each of its statements finds.
-/

namespace SekaiChisei.DecisionLedger
open Lib List Json

/-- A `HashMap<String, String>`, in the order in which it is written. -/
structure Evidence where
  entries : List (String × String)
  distinct : (entries.map Prod.fst).Nodup

def Evidence.empty : Evidence := ⟨[], nodup_nil⟩

def Evidence.get (evidence : Evidence) (key : String) : Option String := evidence.entries.lookup key

/-- `to_string` and `from_str` of `serde_json` for an evidence map. -/
structure Serde where
  toText : Evidence → String
  fromText : String → Option Evidence

def Serde.Lawful (serde : Serde) : Prop :=
  ∀ evidence, ∃ back, serde.fromText (serde.toText evidence) = some back ∧ ∀ key, back.get key = evidence.get key

structure Decision where
  id : String
  timestamp : Int
  (actor action reason : String)
  evidence : Evidence
  (targetId outcome : String)

/-- A row of `sekai_decisions`; the columns that can be `NULL` are options. -/
structure Row where
  id : Option String
  timestamp : Int
  (actor action reason evidence targetId outcome : String)
  seq : Option Int
  (prevHash entryHash : Option String)
  (nameSpace dataClass : String)
  deriving DecidableEq

structure Anchor where
  seq : Int
  (entryHash reason : String)
  created : Int

structure Db where
  decisions : List Row
  anchors : List Anchor
  uniqueId : (decisions.filterMap Row.id).Nodup
  uniqueSeq : (decisions.filterMap Row.seq).Nodup
  uniqueAnchor : (anchors.map Anchor.seq).Nodup

def Db.empty : Db := ⟨[], [], nodup_nil, nodup_nil, nodup_nil⟩

structure LedgerRow where
  id : String
  timestamp : Int
  (actor action reason evidence targetId outcome : String)
  seq : Int
  (prevHash entryHash : String)

def LedgerRow.preimage (row : LedgerRow) : String :=
  array [number row.seq, string row.prevHash, string row.id, number row.timestamp,
    string row.actor, string row.action, string row.reason, string row.evidence,
    string row.targetId, string row.outcome]

section
variable (serde : Serde) (sha256 : List UInt8 → List UInt8)

/-- `entry_hash`. -/
def LedgerRow.hash (row : LedgerRow) : String := toHex (sha256 (utf8 row.preimage))

def lifecycleScopeFromEvidence (evidence : Evidence) : String × String :=
  (((evidence.get "namespace").or (evidence.get "project")).getD "", (evidence.get "data_class").getD "unclassified")

/-- The place of a row in `ORDER BY seq`, where `NULL` comes first. -/
def Row.seqKey (row : Row) : WithBot Int := row.seq

def inOrder (rows : List Row) : List Row :=
  rows.insertionSort fun left right => left.seqKey ≤ right.seqKey

def Db.anchor (db : Db) : Int × String :=
  match (db.anchors.insertionSort fun left right => left.seq ≤ right.seq).getLast? with
  | some anchor => (anchor.seq, anchor.entryHash)
  | none => (0, "")

/-- rusqlite's text for a column that does not hold the type that is read. -/
def invalidColumnType (index : Nat) (name : String) : String :=
  "Invalid column type Null at index: " ++ toString index ++ ", name: " ++ name

def required {α : Type} (index : Nat) (name : String) : Option α → Except String α
  | some value => .ok value
  | none => .error (invalidColumnType index name)

variable (db : Db)

def Db.chainHead : Except String (Int × String) :=
  match (inOrder (db.decisions.filter fun row => row.seq.isSome)).getLast? with
  | some row => do
    let seq ← required 0 "seq" row.seq
    let entryHash ← required 1 "entry_hash" row.entryHash
    .ok (seq, entryHash)
  | none => .ok db.anchor

def ledgerRowAt (headSeq : Int) (headHash : String) (decision : Decision) : LedgerRow :=
  let row : LedgerRow :=
    { id := decision.id
      timestamp := decision.timestamp
      actor := decision.actor
      action := decision.action
      reason := decision.reason
      evidence := serde.toText decision.evidence
      targetId := decision.targetId
      outcome := decision.outcome
      seq := headSeq + 1
      prevHash := headHash
      entryHash := "" }
  { row with entryHash := row.hash sha256 }

def LedgerRow.stored (row : LedgerRow) (scope : String × String) : Row where
  id := some row.id
  timestamp := row.timestamp
  actor := row.actor
  action := row.action
  reason := row.reason
  evidence := row.evidence
  targetId := row.targetId
  outcome := row.outcome
  seq := some row.seq
  prevHash := some row.prevHash
  entryHash := some row.entryHash
  nameSpace := scope.1
  dataClass := scope.2

def rowAt (headSeq : Int) (headHash : String) (decision : Decision) : Row :=
  (ledgerRowAt serde sha256 headSeq headHash decision).stored (lifecycleScopeFromEvidence decision.evidence)

variable {rows : List Row}

theorem nodup_insert {α : Type} {column : Row → Option α} {row : Row}
    (unique : (rows.filterMap column).Nodup) (fresh : ∀ value ∈ column row, value ∉ rows.filterMap column) :
    ((rows ++ [row]).filterMap column).Nodup := by
  rw [filterMap_append, nodup_append]
  refine ⟨unique, ?_, ?_⟩
  · cases read : column row <;> simp [read]
  · intro value stored other added same
    obtain ⟨last, isLast, read⟩ := mem_filterMap.mp added
    obtain rfl := mem_singleton.mp isLast
    exact fresh other read (same ▸ stored)

/-- `INSERT` under the primary key and the unique index. -/
def Db.insertRow (row : Row) : Except String Db :=
  if freshId : ∀ id ∈ row.id, id ∉ db.decisions.filterMap Row.id then
    if freshSeq : ∀ seq ∈ row.seq, seq ∉ db.decisions.filterMap Row.seq then
      .ok
        { db with
          decisions := db.decisions ++ [row]
          uniqueId := nodup_insert db.uniqueId freshId
          uniqueSeq := nodup_insert db.uniqueSeq freshSeq }
    else .error "UNIQUE constraint failed: sekai_decisions.seq"
  else .error "UNIQUE constraint failed: sekai_decisions.id"

def Db.insertChainedDecision (decision : Decision) : Except String Db := do
  let head ← db.chainHead
  db.insertRow (rowAt serde sha256 head.1 head.2 decision)

def Db.prefixEnd (before : Int) : Option Int :=
  match ((db.decisions.filter fun row => before ≤ row.timestamp).filterMap Row.seq).min? with
  | some seq => some (seq - 1)
  | none => (db.decisions.filterMap Row.seq).max?

/-- `seq <= ?`, which `NULL` does not meet. -/
def Row.upTo (seq : Int) (row : Row) : Bool := row.seq.any (· ≤ seq)

theorem nodup_remove {α : Type} {column : Row → Option α} (unique : (rows.filterMap column).Nodup) (seq : Int) :
    ((rows.filter fun row => ¬ row.upTo seq).filterMap column).Nodup :=
  (filter_sublist.filterMap column).nodup unique

theorem nodup_anchor {anchors : List Anchor} (unique : (anchors.map Anchor.seq).Nodup) (anchor : Anchor) :
    ((anchors.filter (fun old => old.seq ≠ anchor.seq) ++ [anchor]).map Anchor.seq).Nodup := by
  rw [map_append, nodup_append_comm]
  refine nodup_cons.mpr ⟨?_, (filter_sublist.map Anchor.seq).nodup unique⟩
  simp

/-- The delete of the prefix and `INSERT OR REPLACE` of its anchor. -/
def Db.removeUpTo (anchor : Anchor) : Db where
  decisions := db.decisions.filter fun row => ¬ row.upTo anchor.seq
  anchors := db.anchors.filter (fun old => old.seq ≠ anchor.seq) ++ [anchor]
  uniqueId := nodup_remove db.uniqueId anchor.seq
  uniqueSeq := nodup_remove db.uniqueSeq anchor.seq
  uniqueAnchor := nodup_anchor db.uniqueAnchor anchor

def Db.purgeDecisionsWithAnchor (before now : Int) : Except String (Db × Nat) :=
  match db.prefixEnd before with
  | none => .ok (db, 0)
  | some prefixEnd =>
    match db.decisions.find? (fun row => row.seq = some prefixEnd) with
    | none => .ok (db, 0)
    | some row => do
      let anchorHash ← required 0 "entry_hash" row.entryHash
      .ok (db.removeUpTo ⟨prefixEnd, anchorHash, "retention purge before " ++ toString before, now⟩,
        (db.decisions.filter (Row.upTo prefixEnd)).length)

structure LedgerVerification where
  ok : Bool
  entriesChecked : Nat
  firstBadSeq : Int
  error : String
  (anchorSeq headSeq : Int)
  headHash : String
  deriving DecidableEq

/-- `row_to_decision`. -/
def Row.read (row : Row) : Except String LedgerRow := do
  let id ← required 0 "id" row.id
  let seq ← required 8 "seq" row.seq
  let prevHash ← required 9 "prev_hash" row.prevHash
  let entryHash ← required 10 "entry_hash" row.entryHash
  .ok ⟨id, row.timestamp, row.actor, row.action, row.reason, row.evidence, row.targetId, row.outcome, seq,
    prevHash, entryHash⟩

def refusal (anchor : Int × String) (firstBadSeq : Int) (error : String) : LedgerVerification where
  ok := false
  entriesChecked := 0
  firstBadSeq := firstBadSeq
  error := error
  anchorSeq := anchor.1
  headSeq := anchor.1
  headHash := anchor.2

def Db.forged (anchor : Int × String) : Nat := (db.decisions.filter (Row.upTo anchor.1)).length

def classificationError (anchor : Int × String) : List Row → Option LedgerVerification
  | [] => none
  | row :: rest =>
    match row.seq with
    | none => some (refusal anchor (anchor.1 + 1) "audit ledger contains incomplete chain metadata")
    | some seq =>
      let evidence := (serde.fromText row.evidence).getD .empty
      if (row.nameSpace, row.dataClass) ≠ lifecycleScopeFromEvidence evidence then
        some (refusal anchor seq "lifecycle classification differs from hashed evidence")
      else classificationError anchor rest

/-- The walk: where the next row has to link to, how many rows were checked, and how many statements were run. -/
structure Walk where
  expectedSeq : Int
  expectedPrev : String
  (entriesChecked statements : Nat)

def Walk.report (walk : Walk) (anchorSeq : Int) (ok : Bool) (firstBadSeq : Int) (error : String) :
    LedgerVerification where
  ok := ok
  entriesChecked := walk.entriesChecked
  firstBadSeq := firstBadSeq
  error := error
  anchorSeq := anchorSeq
  headSeq := walk.expectedSeq
  headHash := walk.expectedPrev

def Db.anchorAt (seq : Int) : Option String :=
  (db.anchors.find? fun anchor => anchor.seq = seq).map Anchor.entryHash

def Walk.resume (walk : Walk) (db : Nat → Db) (row : LedgerRow) : Except (Int × String) Walk :=
  if row.seq = walk.expectedSeq + 1 then .ok walk
  else
    let gap : Int × String := (row.seq, "sequence gap: expected " ++ toString (walk.expectedSeq + 1) ++
      ", found " ++ toString row.seq)
    match (db walk.statements).anchorAt (row.seq - 1) with
    | some anchorHash =>
      if anchorHash = row.prevHash then
        .ok ⟨row.seq - 1, anchorHash, walk.entriesChecked, walk.statements + 1⟩
      else .error gap
    | none => .error gap

def Walk.visit (walk : Walk) (row : LedgerRow) : Except (Int × String) Walk :=
  if row.prevHash ≠ walk.expectedPrev then .error (row.seq, "previous-hash link mismatch")
  else if row.hash sha256 ≠ row.entryHash then .error (row.seq, "entry hash mismatch: record was altered")
  else .ok ⟨row.seq, row.entryHash, walk.entriesChecked + 1, walk.statements⟩

def Walk.batch (db : Nat → Db) (anchorSeq : Int) : Walk → List Row → Except LedgerVerification Walk
  | walk, [] => .ok walk
  | walk, row :: rest =>
    match row.read with
    | .error error =>
      .error (walk.report anchorSeq false (walk.expectedSeq + 1) ("unchained or malformed entry: " ++ error))
    | .ok ledgerRow =>
      match walk.resume db ledgerRow with
      | .error (firstBadSeq, error) => .error (walk.report anchorSeq false firstBadSeq error)
      | .ok walk =>
        match walk.visit sha256 ledgerRow with
        | .error (firstBadSeq, error) => .error (walk.report anchorSeq false firstBadSeq error)
        | .ok walk => Walk.batch db anchorSeq walk rest

def batchSize : Nat := 1000

/-- `WHERE seq > ? OR seq IS NULL ORDER BY seq ASC LIMIT ?`. -/
def Db.readBatch (expectedSeq : Int) : List Row :=
  ((inOrder db.decisions).filter fun row => ¬ row.upTo expectedSeq).take batchSize

/-- `verify_ledger_from`, for a number of batches; without an answer where these are not enough. -/
def verifyLedgerFrom (db : Nat → Db) (anchorSeq : Int) : Nat → Walk → Option LedgerVerification
  | 0, _ => none
  | rounds + 1, walk =>
    match (db walk.statements).readBatch walk.expectedSeq with
    | [] => some (walk.report anchorSeq true 0 "")
    | row :: rest =>
      match Walk.batch sha256 db anchorSeq { walk with statements := walk.statements + 1 } (row :: rest) with
      | .error report => some report
      | .ok walk => verifyLedgerFrom db anchorSeq rounds walk

/-- `verify_ledger`, where `db k` is the database that its `k`-th statement finds. -/
def verifyLedger (db : Nat → Db) (rounds : Nat) : Option LedgerVerification :=
  let anchor := (db 0).anchor
  if (db 1).forged anchor > 0 then
    some (refusal anchor anchor.1 (toString ((db 1).forged anchor) ++
      " entr(ies) at or below purge anchor seq " ++ toString anchor.1 ++ ": forged historical records"))
  else
    match classificationError serde anchor (inOrder (db 2).decisions) with
    | some report => some report
    | none => verifyLedgerFrom sha256 db anchor.1 rounds ⟨anchor.1, anchor.2, 0, 3⟩

inductive Write where
  | insert (decision : Decision)
  | purge (before now : Int)

/-- `inserted` are the decisions that were passed to the inserts that returned, and `log` the rows found after them. -/
structure World where
  db : Db
  log : List Row
  inserted : List Decision

def World.start : World := ⟨.empty, [], []⟩

def World.write (world : World) : Write → World
  | .insert decision =>
    match world.db.insertChainedDecision serde sha256 decision with
    | .ok db => ⟨db, world.log ++ db.decisions.getLast?.toList, world.inserted ++ [decision]⟩
    | .error _ => world
  | .purge before now =>
    match world.db.purgeDecisionsWithAnchor before now with
    | .ok (db, _) => { world with db }
    | .error _ => world

/-- The world that the `k`-th statement of a verification finds: `history k` are the writes that commit
between the statement before it and this one. -/
def worldAt (history : Nat → List Write) : Nat → World
  | 0 => (history 0).foldl (World.write serde sha256) .start
  | k + 1 => (history (k + 1)).foldl (World.write serde sha256) (worldAt history k)

end

end SekaiChisei.DecisionLedger
