import SekaiChisei.DecisionLedger.Store
import SekaiChisei.Lib.HashChain
import SekaiChisei.Lib.Table

/-! What inserts and purges keep: the rows ever inserted are one chain, the table holds what purges left of it, and
every anchor is a position of it. -/

namespace SekaiChisei.DecisionLedger
open Lib List
variable {serde : Serde} {sha256 : List UInt8 → List UInt8}

def Row.position (row : Row) : Int × String := (row.seq.getD 0, row.entryHash.getD "")

def Row.before (row : Row) : Int × String := (row.seq.getD 0 - 1, row.prevHash.getD "")

def genesis : Int × String := (0, "")

def positionAfter (log : List Row) (n : Nat) : Int × String :=
  HashChain.head Row.position genesis (log.take n)

abbrev Linked (start : Int × String) (rows : List Row) : Prop :=
  HashChain.Linked Row.before Row.position start rows

def scopeOf (serde : Serde) (evidence : String) : String × String :=
  lifecycleScopeFromEvidence ((serde.fromText evidence).getD .empty)

/-- A row as `insert_at_head` writes it. -/
def Row.Sound (serde : Serde) (sha256 : List UInt8 → List UInt8) (row : Row) : Prop :=
  ∃ entry : LedgerRow, row = entry.stored (scopeOf serde entry.evidence) ∧ entry.hash sha256 = entry.entryHash

theorem Row.Sound.seq {row : Row} (sound : row.Sound serde sha256) : row.seq = some row.position.1 := by
  obtain ⟨entry, rfl, _⟩ := sound
  rfl

variable {start : Int × String}

theorem Row.seq_of_before {row : Row} (links : row.before = start) : row.position.1 = start.1 + 1 := by
  rw [← links, before, position]
  omega

variable {rows : List Row}

theorem head_seq (linked : Linked start rows) :
    (HashChain.head Row.position start rows).1 = start.1 + rows.length := by
  induction rows generalizing start with
  | nil => simp [HashChain.head]
  | cons row rest ih =>
    have next := Row.seq_of_before linked.1
    rw [HashChain.head, ih linked.2, length_cons]
    omega

theorem positionAfter_seq {log : List Row} (linked : Linked genesis log) {n : Nat} (within : n ≤ log.length) :
    (positionAfter log n).1 = n := by
  rw [positionAfter, head_seq (HashChain.linked_take linked n), length_take, genesis]
  omega

theorem linked_above (linked : Linked start rows) : ∀ row ∈ rows, start.1 < row.position.1 := by
  induction rows generalizing start with
  | nil =>
    intro row member
    cases member
  | cons first rest ih =>
    have next := Row.seq_of_before linked.1
    intro row member
    rcases mem_cons.mp member with rfl | later
    · omega
    · have above := ih linked.2 row later
      omega

section
variable (linked : Linked start rows) (sound : ∀ row ∈ rows, row.Sound serde sha256)
include linked sound

theorem inOrder_linked : inOrder rows = rows := by
  apply List.Pairwise.insertionSort_eq
  induction rows generalizing start with
  | nil => exact List.Pairwise.nil
  | cons first rest ih =>
    obtain ⟨soundFirst, soundRest⟩ := forall_mem_cons.mp sound
    refine pairwise_cons.mpr ⟨?_, ih linked.2 soundRest⟩
    intro row member
    have above := linked_above linked.2 row member
    rw [Row.seqKey, Row.seqKey, soundFirst.seq, (soundRest row member).seq]
    exact WithBot.coe_le_coe.mpr (Int.le_of_lt above)

theorem filter_above (seq : Int) : rows.filter (fun row => ¬ row.upTo seq) = rows.drop (seq - start.1).toNat := by
  induction rows generalizing start with
  | nil => simp
  | cons first rest ih =>
    obtain ⟨soundFirst, soundRest⟩ := forall_mem_cons.mp sound
    have next := Row.seq_of_before linked.1
    have restAbove := ih linked.2 soundRest
    by_cases low : first.position.1 ≤ seq
    · have skipped : (seq - start.1).toNat = (seq - first.position.1).toNat + 1 := by omega
      rw [filter_cons_of_neg (by simp [Row.upTo, soundFirst.seq, low]), restAbove, skipped, drop_succ_cons]
    · have none : (seq - start.1).toNat = 0 := by omega
      have noneLater : (seq - first.position.1).toNat = 0 := by omega
      rw [filter_cons_of_pos (by simpa [Row.upTo, soundFirst.seq] using low), restAbove, none, noneLater]
      rfl

end

theorem positionAfter_grown {log longer : List Row} (grown : log <+: longer) {n : Nat} (within : n ≤ log.length) :
    positionAfter longer n = positionAfter log n := by
  obtain ⟨more, rfl⟩ := grown
  rw [positionAfter, positionAfter, take_append_of_le_length within]

/-- The columns that a decision fills. -/
structure Row.Records (serde : Serde) (row : Row) (decision : Decision) : Prop where
  id : row.id = some decision.id
  timestamp : row.timestamp = decision.timestamp
  actor : row.actor = decision.actor
  action : row.action = decision.action
  reason : row.reason = decision.reason
  evidence : row.evidence = serde.toText decision.evidence
  targetId : row.targetId = decision.targetId
  outcome : row.outcome = decision.outcome

/-- The chain of the rows ever inserted, of which the first `purged` are gone. -/
structure World.Holds (serde : Serde) (sha256 : List UInt8 → List UInt8) (world : World) (purged : Nat) :
    Prop where
  linked : Linked genesis world.log
  sound : ∀ row ∈ world.log, row.Sound serde sha256
  recorded : Forall₂ (Row.Records serde) world.log world.inserted
  decisions : world.db.decisions = world.log.drop purged
  within : purged ≤ world.log.length
  anchored : ∀ anchor ∈ world.db.anchors, ∃ n ≤ purged, (anchor.seq, anchor.entryHash) = positionAfter world.log n
  last : 0 < purged → ∃ anchor ∈ world.db.anchors, anchor.seq = purged

section
variable {world : World} {purged : Nat}

section
variable (holds : world.Holds serde sha256 purged)
include holds

theorem World.Holds.linkedRest : Linked (positionAfter world.log purged) world.db.decisions := by
  rw [holds.decisions]
  exact HashChain.linked_drop holds.linked purged

theorem World.Holds.soundRest : ∀ row ∈ world.db.decisions, row.Sound serde sha256 := by
  rw [holds.decisions]
  intro row member
  exact holds.sound row (mem_of_mem_drop member)

theorem World.Holds.anchor_position {anchor : Anchor} (member : anchor ∈ world.db.anchors) {n : Nat}
    (numbered : anchor.seq = n) : n ≤ purged ∧ (anchor.seq, anchor.entryHash) = positionAfter world.log n := by
  obtain ⟨m, below, same⟩ := holds.anchored anchor member
  have seq : anchor.seq = m := by
    rw [← positionAfter_seq holds.linked (Nat.le_trans below holds.within), ← same]
  obtain rfl : m = n := by omega
  exact ⟨below, same⟩

theorem World.Holds.anchorAt {n : Nat} (recorded : ∃ anchor ∈ world.db.anchors, anchor.seq = n) :
    world.db.anchorAt n = some (positionAfter world.log n).2 := by
  obtain ⟨anchor, member, numbered⟩ := recorded
  have found : world.db.anchors.find? (fun other => other.seq = (n : Int)) = some anchor := by
    rw [← numbered]
    exact Table.find_of_mem world.db.uniqueAnchor member
  rw [Db.anchorAt, found, ← (holds.anchor_position member numbered).2]
  rfl

end

theorem Db.anchor_top (db : Db) : ∀ anchor ∈ db.anchors, anchor.seq ≤ db.anchor.1 := by
  intro anchor member
  have sorted := pairwise_insertionSort (fun left right : Anchor => left.seq ≤ right.seq) db.anchors
  have inSorted := (mem_insertionSort (fun left right : Anchor => left.seq ≤ right.seq)).mpr member
  rw [Db.anchor]
  cases latest : (db.anchors.insertionSort fun left right => left.seq ≤ right.seq).getLast? with
  | none =>
    rw [getLast?_eq_none_iff.mp latest] at inSorted
    cases inSorted
  | some top =>
    obtain ⟨front, split⟩ := getLast?_eq_some_iff.mp latest
    rw [split] at sorted inSorted
    rcases mem_appended.mp inSorted with early | rfl
    · exact (pairwise_append.mp sorted).2.2 anchor early top (mem_singleton.mpr rfl)
    · exact le_rfl

theorem World.Holds.anchor (holds : world.Holds serde sha256 purged) :
    world.db.anchor = positionAfter world.log purged := by
  rw [Db.anchor]
  cases latest : (world.db.anchors.insertionSort fun left right => left.seq ≤ right.seq).getLast? with
  | none =>
    have noAnchors : world.db.anchors = [] := by
      have sameRows := perm_insertionSort (fun left right : Anchor => left.seq ≤ right.seq) world.db.anchors
      rw [getLast?_eq_none_iff.mp latest] at sameRows
      exact nil_perm.mp sameRows
    have nothing : purged = 0 := by
      by_contra some
      obtain ⟨anchor, member, _⟩ := holds.last (Nat.pos_of_ne_zero some)
      rw [noAnchors] at member
      cases member
    rw [nothing]
    rfl
  | some anchor =>
    have member : anchor ∈ world.db.anchors :=
      (mem_insertionSort _).mp (mem_of_getLast? latest)
    obtain ⟨n, below, same⟩ := holds.anchored anchor member
    have seq : anchor.seq = n := by
      rw [← positionAfter_seq holds.linked (Nat.le_trans below holds.within), ← same]
    show (anchor.seq, anchor.entryHash) = _
    rcases Nat.eq_zero_or_pos purged with rfl | some
    · obtain rfl : n = 0 := by omega
      exact same
    · obtain ⟨top, inAnchors, topSeq⟩ := holds.last some
      have atMost := world.db.anchor_top top inAnchors
      rw [Db.anchor, latest] at atMost
      dsimp only at atMost
      obtain rfl : n = purged := by omega
      exact same

/-- The next row links to the end of the chain, whether its last row is still there or not. -/
theorem World.Holds.chainHead (holds : world.Holds serde sha256 purged) :
    world.db.chainHead = .ok (HashChain.head Row.position genesis world.log) := by
  have allChained : world.db.decisions.filter (fun row => row.seq.isSome) = world.db.decisions := by
    rw [filter_eq_self]
    intro row member
    rw [(holds.soundRest row member).seq]
    rfl
  have ends : HashChain.head Row.position genesis world.log =
      HashChain.head Row.position (positionAfter world.log purged) world.db.decisions := by
    rw [holds.decisions, positionAfter, ← HashChain.head_append, take_append_drop]
  rw [Db.chainHead, allChained, inOrder_linked holds.linkedRest holds.soundRest, ends]
  cases latest : world.db.decisions.getLast? with
  | none =>
    rw [getLast?_eq_none_iff.mp latest]
    exact congrArg Except.ok holds.anchor
  | some row =>
    rw [HashChain.head_of_getLast latest]
    obtain ⟨entry, rfl, _⟩ := holds.soundRest row (mem_of_getLast? latest)
    rfl

structure World.Grows (world later : World) : Prop where
  log : world.log <+: later.log
  anchors : ∀ seq, (∃ anchor ∈ world.db.anchors, anchor.seq = seq) → ∃ anchor ∈ later.db.anchors, anchor.seq = seq

theorem World.Grows.refl (world : World) : world.Grows world :=
  ⟨prefix_refl _, fun _ recorded => recorded⟩

theorem World.Grows.trans {world middle later : World} (first : world.Grows middle)
    (second : middle.Grows later) : world.Grows later :=
  ⟨first.log.trans second.log, fun seq recorded => second.anchors seq (first.anchors seq recorded)⟩

variable {decision : Decision}

theorem rowAt_sound (lawful : serde.Lawful) (headSeq : Int) (headHash : String) :
    (rowAt serde sha256 headSeq headHash decision).Sound serde sha256 := by
  obtain ⟨back, parsed, same⟩ := lawful decision.evidence
  have scope : scopeOf serde (serde.toText decision.evidence) = lifecycleScopeFromEvidence decision.evidence := by
    rw [scopeOf, parsed, Option.getD_some, lifecycleScopeFromEvidence, same, same, same, lifecycleScopeFromEvidence]
  refine ⟨ledgerRowAt serde sha256 headSeq headHash decision, ?_, rfl⟩
  rw [rowAt, ← scope]
  rfl

variable {row : Row}

theorem Db.insertRow_ok {db after : Db} (inserted : db.insertRow row = .ok after) :
    after.decisions = db.decisions ++ [row] ∧ after.anchors = db.anchors := by
  rw [insertRow] at inserted
  split at inserted
  · split at inserted
    · cases inserted
      exact ⟨rfl, rfl⟩
    · cases inserted
  · cases inserted

theorem World.Holds.insert (holds : world.Holds serde sha256 purged)
    (isSound : row.Sound serde sha256) (records : row.Records serde decision)
    (links : row.before = HashChain.head Row.position genesis world.log)
    {db : Db} (inserted : world.db.insertRow row = .ok db) :
    World.Holds serde sha256 ⟨db, world.log ++ [row], world.inserted ++ [decision]⟩ purged := by
  obtain ⟨decisions, anchors⟩ := Db.insertRow_ok inserted
  have longer : world.log <+: world.log ++ [row] := prefix_append _ _
  constructor
  · exact HashChain.linked_append.mpr ⟨holds.linked, links, trivial⟩
  · intro other member
    rcases mem_appended.mp member with old | rfl
    · exact holds.sound other old
    · exact isSound
  · exact rel_append holds.recorded (.cons records .nil)
  · show db.decisions = _
    rw [decisions, holds.decisions, drop_append_of_le_length holds.within]
  · exact Nat.le_trans holds.within longer.length_le
  · show ∀ anchor ∈ db.anchors, _
    rw [anchors]
    intro anchor member
    obtain ⟨n, below, same⟩ := holds.anchored anchor member
    refine ⟨n, below, ?_⟩
    rw [same]
    exact (positionAfter_grown longer (Nat.le_trans below holds.within)).symm
  · show _ → ∃ anchor ∈ db.anchors, _
    rw [anchors]
    exact holds.last

theorem World.insert_holds (lawful : serde.Lawful) (holds : world.Holds serde sha256 purged) :
    ∃ after, (world.write serde sha256 (.insert decision)).Holds serde sha256 after ∧
      world.Grows (world.write serde sha256 (.insert decision)) := by
  refine ⟨purged, ?_⟩
  rw [World.write]
  split
  · rename_i db inserted
    rw [Db.insertChainedDecision, holds.chainHead] at inserted
    obtain ⟨decisions, anchors⟩ := Db.insertRow_ok inserted
    have latest : db.decisions.getLast?.toList = [rowAt serde sha256 (HashChain.head Row.position genesis world.log).1
          (HashChain.head Row.position genesis world.log).2 decision] := by
      rw [decisions, getLast?_concat]
      rfl
    rw [latest]
    refine ⟨holds.insert (rowAt_sound lawful _ _) ⟨rfl, rfl, rfl, rfl, rfl, rfl, rfl, rfl⟩ ?_ inserted,
      prefix_append _ _, ?_⟩
    · show ((HashChain.head Row.position genesis world.log).1 + 1 - 1, _) = _
      rw [Int.add_sub_cancel]
      rfl
    · intro seq recorded
      show ∃ anchor ∈ db.anchors, _
      rw [anchors]
      exact recorded
  · exact ⟨holds, .refl world⟩

theorem World.Holds.remove (holds : world.Holds serde sha256 purged)
    (member : row ∈ world.db.decisions) (anchor : Anchor) (isRow : (anchor.seq, anchor.entryHash) = row.position) :
    ∃ after, World.Holds serde sha256 { world with db := world.db.removeUpTo anchor } after := by
  rw [holds.decisions] at member
  obtain ⟨i, inside, found⟩ := mem_iff_getElem.mp member
  rw [length_drop] at inside
  have atRow : positionAfter world.log (purged + i + 1) = row.position := by
    have lastTaken : (world.log.take (purged + i + 1)).getLast? = some row := by
      rw [getElem_drop] at found
      rw [take_add_one, getElem?_eq_getElem (by omega), found]
      exact getLast?_concat
    exact HashChain.head_of_getLast lastTaken
  have within : purged + i + 1 ≤ world.log.length := by omega
  have numbered : anchor.seq = ((purged + i + 1 : Nat) : Int) := by
    rw [← positionAfter_seq holds.linked within, atRow, ← isRow]
  refine ⟨purged + i + 1, holds.linked, holds.sound, holds.recorded, ?_, within, ?_, ?_⟩
  · show world.db.decisions.filter _ = _
    rw [filter_above holds.linkedRest holds.soundRest, positionAfter_seq holds.linked holds.within,
      holds.decisions, drop_drop, numbered]
    congr 1
    omega
  · intro other listed
    rcases mem_appended.mp listed with old | rfl
    · obtain ⟨n, below, same⟩ := holds.anchored other (mem_of_mem_filter old)
      exact ⟨n, by omega, same⟩
    · exact ⟨purged + i + 1, Nat.le_refl _, isRow.trans atRow.symm⟩
  · intro _
    exact ⟨anchor, mem_append_right _ (mem_singleton.mpr rfl), numbered⟩

theorem Db.removeUpTo_anchors (db : Db) (anchor : Anchor) (seq : Int)
    (recorded : ∃ old ∈ db.anchors, old.seq = seq) : ∃ old ∈ (db.removeUpTo anchor).anchors, old.seq = seq := by
  obtain ⟨old, member, rfl⟩ := recorded
  by_cases replaced : old.seq = anchor.seq
  · exact ⟨anchor, mem_append_right _ (mem_singleton.mpr rfl), replaced.symm⟩
  · exact ⟨old, mem_append_left _ (mem_filter.mpr ⟨member, by simpa using replaced⟩), rfl⟩

theorem World.purge_holds (holds : world.Holds serde sha256 purged) (before now : Int) :
    ∃ after, (world.write serde sha256 (.purge before now)).Holds serde sha256 after ∧
      world.Grows (world.write serde sha256 (.purge before now)) := by
  rw [World.write]
  split
  · rename_i db removed purgedWell
    rw [Db.purgeDecisionsWithAnchor] at purgedWell
    split at purgedWell
    · cases purgedWell
      exact ⟨purged, holds, .refl world⟩
    · rename_i prefixEnd _
      split at purgedWell
      · cases purgedWell
        exact ⟨purged, holds, .refl world⟩
      · rename_i row found
        have member : row ∈ world.db.decisions := mem_of_find?_eq_some found
        have numbered : row.seq = some prefixEnd := by simpa using find?_some found
        obtain ⟨entryHash, isHash, same⟩ := bind_eq_ok.mp purgedWell
        cases same
        have isRow : (prefixEnd, entryHash) = row.position := by
          obtain ⟨entry, rfl, _⟩ := holds.soundRest row member
          cases numbered
          cases isHash
          rfl
        obtain ⟨after, kept⟩ := holds.remove member
          ⟨prefixEnd, entryHash, "retention purge before " ++ toString before, now⟩ isRow
        exact ⟨after, kept, prefix_refl _, fun seq recorded => Db.removeUpTo_anchors _ _ seq recorded⟩
  · exact ⟨purged, holds, .refl world⟩

variable (lawful : serde.Lawful) (holds : world.Holds serde sha256 purged)
include lawful holds

theorem World.write_holds (write : Write) : ∃ after, (world.write serde sha256 write).Holds serde sha256 after ∧
      world.Grows (world.write serde sha256 write) := by
  cases write with
  | insert decision => exact insert_holds lawful holds
  | purge before now => exact purge_holds holds before now

theorem World.writes_hold (writes : List Write) :
    ∃ after, (writes.foldl (World.write serde sha256) world).Holds serde sha256 after ∧
      world.Grows (writes.foldl (World.write serde sha256) world) := by
  induction writes generalizing world purged with
  | nil => exact ⟨purged, holds, .refl world⟩
  | cons write rest ih =>
    obtain ⟨middle, held, first⟩ := write_holds lawful holds write
    obtain ⟨after, kept, second⟩ := ih held
    exact ⟨after, kept, first.trans second⟩

end

theorem start_holds (serde : Serde) (sha256 : List UInt8 → List UInt8) : World.start.Holds serde sha256 0 where
  linked := trivial
  sound := by
    intro row member
    cases member
  recorded := .nil
  decisions := rfl
  within := Nat.le_refl 0
  anchored := by
    intro anchor member
    cases member
  last := fun some => absurd some (Nat.lt_irrefl 0)

variable (sha256) (lawful : serde.Lawful) (history : Nat → List Write)
include lawful history

theorem worldAt_holds (k : Nat) : ∃ purged, (worldAt serde sha256 history k).Holds serde sha256 purged := by
  induction k with
  | zero =>
    obtain ⟨purged, holds, _⟩ := World.writes_hold lawful (start_holds serde sha256) (history 0)
    exact ⟨purged, holds⟩
  | succ k ih =>
    obtain ⟨before, held⟩ := ih
    obtain ⟨purged, holds, _⟩ := World.writes_hold lawful held (history (k + 1))
    exact ⟨purged, holds⟩

theorem worldAt_grows {j k : Nat} (later : j ≤ k) :
    (worldAt serde sha256 history j).Grows (worldAt serde sha256 history k) := by
  induction later with
  | refl => exact .refl _
  | @step k _ ih =>
    obtain ⟨purged, held⟩ := worldAt_holds sha256 lawful history k
    obtain ⟨_, _, grown⟩ := World.writes_hold lawful held (history (k + 1))
    exact ih.trans grown

end SekaiChisei.DecisionLedger
