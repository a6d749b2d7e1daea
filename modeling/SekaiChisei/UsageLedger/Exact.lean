import SekaiChisei.UsageLedger.Ledger

/-! The rows are the events of the projected receipts as long as different events have different ids and keys. -/

namespace SekaiChisei.UsageLedger
open Lib Objects List

def Projection.accepted (call : Projection) : Bool :=
  trim call.tenantId ≠ "" ∧ trim call.receipt.nameSpace ≠ "" ∧ trim call.receipt.operationId ≠ ""

def quantityOf (unit : UsageUnit) (receipt : OperationReceipt) : Int64 :=
  match unit with
  | .requests => 1
  | .tokens => measuredTokensFromReceipt receipt

section
variable (sha256 : List UInt8 → List UInt8)

def eventOf (tenantId : String) (unit : UsageUnit) (receipt : OperationReceipt) : UsageEvent :=
  measuredEvent sha256 tenantId receipt unit (quantityOf unit receipt)

def measuredUnits (receipt : OperationReceipt) : List UsageUnit :=
  .requests :: if quantityOf .tokens receipt ≠ 0 then [.tokens] else []

def Projection.events (call : Projection) : List UsageEvent :=
  if call.accepted then (measuredUnits call.receipt).map (eventOf sha256 call.tenantId · call.receipt) else []

variable {tenantId : String}

theorem measuredUsageEvents_eq (named : trim tenantId ≠ "") (receipt : OperationReceipt) :
    measuredUsageEvents sha256 tenantId receipt =
      .ok ((measuredUnits receipt).map (eventOf sha256 tenantId · receipt)) := by
  have tokens : quantityOf .tokens receipt = measuredTokensFromReceipt receipt := rfl
  rw [measuredUsageEvents, if_neg named, measuredUnits, tokens]
  split <;> rfl

variable {receipt : OperationReceipt} {unit : UsageUnit}

theorem mem_measuredUnits : unit ∈ measuredUnits receipt ↔ quantityOf unit receipt ≠ 0 := by
  unfold measuredUnits
  cases unit with
  | requests =>
    refine ⟨fun _ => ?_, fun _ => mem_cons_self⟩
    show (1 : Int64) ≠ 0
    decide
  | tokens =>
    by_cases some : quantityOf .tokens receipt = 0
    · simp [some]
    · simp [some]

theorem validate_eventOf (named : trim tenantId ≠ "") (measured : quantityOf unit receipt ≠ 0) :
    validateEvent (eventOf sha256 tenantId unit receipt) = .ok () ↔
      trim receipt.nameSpace ≠ "" ∧ trim receipt.operationId ≠ "" := by
  have identified : trim (eventOf sha256 tenantId unit receipt).eventId ≠ "" := by
    apply trim_ne_empty (c := 'u')
    · rw [eventOf, measuredEvent, stableEventId, String.toList_append]
      exact mem_append_left _ (by decide)
    · decide
  have keyed : trim (eventOf sha256 tenantId unit receipt).dedupeKey ≠ "" := by
    apply trim_ne_empty (c := 'u')
    · simp only [eventOf, measuredEvent, String.toList_append, append_assoc]
      exact mem_append_left _ (by decide)
    · decide
  have supported : ¬ (eventOf sha256 tenantId unit receipt).version ≠ usageEventVersion := not_not.mpr rfl
  rw [validateEvent, if_neg supported, check_eq_ok, forM_eq_ok]
  have counted : (if (eventOf sha256 tenantId unit receipt).quantity = 0 ∧
      (eventOf sha256 tenantId unit receipt).source ≠ .correction then
        Except.error "quantity must be non-zero for non-correction events" else Except.ok ()) = Except.ok () :=
    if_neg fun zero => measured zero.1
  rw [counted]
  simp only [forall_mem_cons, not_mem_nil, false_imp_iff, implies_true, and_true, if_neg identified,
    if_neg keyed, true_and]
  have tenant : trim (eventOf sha256 tenantId unit receipt).tenantId ≠ "" := named
  rw [if_neg tenant]
  have space : (eventOf sha256 tenantId unit receipt).nameSpace = receipt.nameSpace := rfl
  have operation : (eventOf sha256 tenantId unit receipt).receiptOperationId = receipt.operationId := rfl
  rw [space, operation]
  by_cases blankSpace : trim receipt.nameSpace = "" <;> by_cases blankOperation : trim receipt.operationId = "" <;>
    simp [blankSpace, blankOperation]

def keep (rows : List UsageEvent) (event : UsageEvent) : List UsageEvent :=
  if rows.any fun row => row.eventId = event.eventId ∨ row.dedupeKey = event.dedupeKey then rows else rows ++ [event]

theorem appendUsageEvent_eq (rows : List UsageEvent) (event : UsageEvent) :
    (appendUsageEvent rows event).map Prod.snd = (validateEvent event).map fun _ => keep rows event := by
  unfold appendUsageEvent keep
  cases validateEvent event with
  | error message => rfl
  | ok _ =>
    show Except.map Prod.snd (if _ then _ else _) = Except.ok _
    split <;> rfl

variable {events : List UsageEvent}

theorem appendAll_of_valid {rows : List UsageEvent} (valid : ∀ event ∈ events, validateEvent event = .ok ()) :
    appendAll rows events = (.ok (), events.foldl keep rows) := by
  induction events generalizing rows with
  | nil => rfl
  | cons event rest ih =>
    have appended := appendUsageEvent_eq rows event
    rw [valid event mem_cons_self] at appended
    obtain ⟨⟨inserted, kept⟩, done, same⟩ := map_eq_ok.mp appended
    have kept : kept = keep rows event := same
    simp only [appendAll, done]
    rw [ih fun other member => valid other (mem_cons_of_mem _ member), foldl_cons, kept]

theorem appendAll_of_invalid {event : UsageEvent} {message : String} (invalid : validateEvent event = .error message)
    (rows rest : List UsageEvent) : appendAll rows (event :: rest) = (.error message, rows) := by
  have refused : appendUsageEvent rows event = .error message := by
    unfold appendUsageEvent
    rw [invalid]
    rfl
  simp only [appendAll, refused]

theorem project_rows {rows : List UsageEvent} (call : Projection) :
    (projectUsageFromReceipt sha256 rows call.tenantId call.receipt).2 = (call.events sha256).foldl keep rows := by
  unfold projectUsageFromReceipt Projection.events Projection.accepted
  by_cases named : trim call.tenantId = ""
  · have refused : measuredUsageEvents sha256 call.tenantId call.receipt =
        .error "tenant_id required from authenticated context" := if_pos named
    simp [refused, named]
  · simp only [measuredUsageEvents_eq sha256 named]
    by_cases given : trim call.receipt.nameSpace ≠ "" ∧ trim call.receipt.operationId ≠ ""
    · have valid : ∀ event ∈ (measuredUnits call.receipt).map (eventOf sha256 call.tenantId · call.receipt),
          validateEvent event = .ok () := by
        intro event member
        obtain ⟨unit, measured, rfl⟩ := mem_map.mp member
        exact (validate_eventOf sha256 named (mem_measuredUnits.mp measured)).mpr given
      rw [appendAll_of_valid valid, if_pos (decide_eq_true ⟨named, given⟩)]
    · have first : quantityOf .requests call.receipt ≠ 0 := mem_measuredUnits.mp mem_cons_self
      rw [if_neg (by rw [decide_eq_true_eq]; exact fun all => given all.2)]
      cases checked : validateEvent (eventOf sha256 call.tenantId .requests call.receipt) with
      | ok _ => exact absurd ((validate_eventOf sha256 named first).mp checked) given
      | error message =>
        have refused := appendAll_of_invalid checked rows
          ((if quantityOf .tokens call.receipt ≠ 0 then [UsageUnit.tokens] else []).map
            (eventOf sha256 call.tenantId · call.receipt))
        rw [measuredUnits, map_cons, refused]
        rfl

theorem ledgerAfter_eq {calls : List Projection} :
    ledgerAfter sha256 calls = (calls.flatMap (Projection.events sha256)).foldl keep [] := by
  unfold ledgerAfter
  generalize ([] : List UsageEvent) = rows
  induction calls generalizing rows with
  | nil => rfl
  | cons call rest ih =>
    rw [foldl_cons, flatMap_cons, foldl_append, ih, project_rows]

/-- Where no two different events share an id or a key, the rows are the events, each once. -/
theorem foldl_keep (apart : ∀ a ∈ events, ∀ b ∈ events, a.eventId = b.eventId ∨ a.dedupeKey = b.dedupeKey → a = b) :
    (events.foldl keep []).Nodup ∧ ∀ event, event ∈ events.foldl keep [] ↔ event ∈ events := by
  induction events using reverseRecOn with
  | nil => simp
  | append_singleton events last ih =>
    obtain ⟨distinct, members⟩ := ih fun a inA b inB => apart a (mem_append_left _ inA) b (mem_append_left _ inB)
    rw [foldl_append, foldl_cons, foldl_nil, keep]
    split
    · rename_i clash
      obtain ⟨row, stored, same⟩ := any_eq_true.mp clash
      have inside := (members row).mp stored
      obtain rfl := apart row (mem_append_left _ inside) last (by simp) (of_decide_eq_true same)
      refine ⟨distinct, fun event => ?_⟩
      rw [members, mem_appended]
      exact ⟨.inl, fun either => either.elim id (· ▸ inside)⟩
    · rename_i free
      have absent : last ∉ events.foldl keep [] := fun stored =>
        free (any_eq_true.mpr ⟨last, stored, decide_eq_true (.inl rfl)⟩)
      refine ⟨?_, fun event => by rw [mem_appended, members, mem_appended]⟩
      rw [nodup_append_comm]
      exact nodup_cons.mpr ⟨absent, distinct⟩

end

theorem foldl_add_toInt (quantities : List Int64) (start : Int64) :
    (quantities.foldl (· + ·) start).toInt = (start.toInt + (quantities.map Int64.toInt).sum).bmod (2 ^ 64) := by
  induction quantities generalizing start with
  | nil =>
    rw [foldl_nil, map_nil, sum_nil, Int.add_zero]
    have low := start.le_toInt
    have high := start.toInt_lt
    exact (Int.bmod_eq_of_le (by omega) (by omega)).symm
  | cons first rest ih =>
    rw [foldl_cons, ih, Int64.toInt_add, Int.bmod_add_bmod, map_cons, sum_cons, Int.add_assoc]

theorem foldl_measured {events : List UsageEvent} (measured : ∀ event ∈ events, event.source = .measured)
    (agg : UsageAggregate) : (events.foldl UsageAggregate.add agg).measured =
      (events.map UsageEvent.quantity).foldl (· + ·) agg.measured := by
  induction events generalizing agg with
  | nil => rfl
  | cons first rest ih =>
    have source := measured first mem_cons_self
    rw [foldl_cons, ih fun event member => measured event (mem_cons_of_mem _ member), map_cons, foldl_cons]
    congr 1
    unfold UsageAggregate.add
    rw [source]

variable {tenantId : String}

theorem aggregate_measured {rows : List UsageEvent} (measured : ∀ row ∈ rows, row.source = .measured)
    (named : tenantId ≠ "") {startMs endMs total : Int}
    (few : (rows.filter fun row => row.tenantId = tenantId ∧ inWindow startMs endMs row.eventTimeMs).length ≤ 5000)
    (sum : total = (((rows.filter fun row => row.tenantId = tenantId ∧ inWindow startMs endMs row.eventTimeMs).filter
      (·.unit = unit)).map fun row => row.quantity.toInt).sum) (low : -2 ^ 63 ≤ total) (high : total < 2 ^ 63) :
    ∃ agg, aggregateUsageForTenant rows tenantId unit startMs endMs = .ok agg ∧ agg.measured.toInt = total := by
  unfold aggregateUsageForTenant listUsageEventsForTenant
  rw [if_neg named]
  have inside : ∀ row ∈ rows.filter fun row => row.tenantId = tenantId ∧ inWindow startMs endMs row.eventTimeMs,
      row.source = .measured := fun row member => measured row (mem_of_mem_filter member)
  generalize (rows.filter fun row => row.tenantId = tenantId ∧ inWindow startMs endMs row.eventTimeMs) = window at *
  have sorted := perm_insertionSort Earlier window
  have whole : (window.insertionSort Earlier).take (if (5000 : Int) ≤ 0 then (100 : Int) else min 5000 5000).toNat =
      window.insertionSort Earlier := by
    apply take_of_length_le
    rw [length_insertionSort]
    exact few
  refine ⟨_, rfl, ?_⟩
  rw [whole, foldl_measured, foldl_add_toInt, map_map]
  · have same := ((sorted.filter (·.unit = unit)).map fun row => row.quantity.toInt).sum_eq
    have composed : Int64.toInt ∘ UsageEvent.quantity = fun row => row.quantity.toInt := rfl
    rw [composed, same, ← sum]
    show (0 + total).bmod (2 ^ 64) = total
    rw [Int.zero_add]
    exact Int.bmod_eq_of_le (by omega) (by omega)
  · intro event member
    exact inside event (sorted.subset (mem_of_mem_filter member))

def operationsIn (calls : List Projection) (tenantId : String) (startMs endMs : Int) : Finset OperationReceipt :=
  ((calls.filter fun call => call.accepted ∧ call.tenantId = tenantId ∧
    inWindow startMs endMs (eventTime call.receipt)).map Projection.receipt).toFinset

theorem mem_operationsIn {calls : List Projection} {startMs endMs : Int}
    {receipt : OperationReceipt} : receipt ∈ operationsIn calls tenantId startMs endMs ↔
      (⟨tenantId, receipt⟩ : Projection) ∈ calls ∧ (⟨tenantId, receipt⟩ : Projection).accepted ∧
        inWindow startMs endMs (eventTime receipt) = true := by
  simp only [operationsIn, mem_toFinset, mem_map, mem_filter, decide_eq_true_eq]
  constructor
  · rintro ⟨⟨tenantId, receipt⟩, ⟨member, accepted, rfl, inside⟩, rfl⟩
    exact ⟨member, accepted, inside⟩
  · rintro ⟨member, accepted, inside⟩
    exact ⟨_, ⟨member, accepted, rfl, inside⟩, rfl⟩

section
variable {sha256 : List UInt8 → List UInt8} {calls : List Projection}

theorem mem_projected {event : UsageEvent} : event ∈ calls.flatMap (Projection.events sha256) ↔
    ∃ call ∈ calls, call.accepted ∧ ∃ unit, quantityOf unit call.receipt ≠ 0 ∧
      event = eventOf sha256 call.tenantId unit call.receipt := by
  simp only [mem_flatMap, Projection.events]
  constructor
  · rintro ⟨call, member, inside⟩
    split at inside
    · rename_i accepted
      obtain ⟨unit, measured, rfl⟩ := mem_map.mp inside
      exact ⟨call, member, accepted, unit, mem_measuredUnits.mp measured, rfl⟩
    · exact absurd inside not_mem_nil
  · rintro ⟨call, member, accepted, unit, measured, rfl⟩
    refine ⟨call, member, ?_⟩
    rw [if_pos accepted]
    exact mem_map.mpr ⟨unit, mem_measuredUnits.mpr measured, rfl⟩

variable {rows : List UsageEvent}

section
variable (members : ∀ event, event ∈ rows ↔ event ∈ calls.flatMap (Projection.events sha256))
include members

theorem mem_window {tenantId : String} {startMs endMs : Int} {event : UsageEvent} :
    event ∈ (rows.filter fun row => row.tenantId = tenantId ∧ inWindow startMs endMs row.eventTimeMs) ↔
      ∃ receipt ∈ operationsIn calls tenantId startMs endMs, ∃ unit, quantityOf unit receipt ≠ 0 ∧
        event = eventOf sha256 tenantId unit receipt := by
  rw [mem_filter, members, mem_projected, decide_eq_true_eq]
  constructor
  · rintro ⟨⟨⟨tenant, receipt⟩, member, accepted, unit, measured, rfl⟩, rfl, inside⟩
    exact ⟨receipt, mem_operationsIn.mpr ⟨member, accepted, inside⟩, unit, measured, rfl⟩
  · rintro ⟨receipt, member, unit, measured, rfl⟩
    obtain ⟨called, accepted, inside⟩ := mem_operationsIn.mp member
    exact ⟨⟨⟨tenantId, receipt⟩, called, accepted, unit, measured, rfl⟩, rfl, inside⟩

theorem window_length (distinct : rows.Nodup) (tenantId : String) (startMs endMs : Int) :
    (rows.filter fun row => row.tenantId = tenantId ∧ inWindow startMs endMs row.eventTimeMs).length ≤
      ∑ receipt ∈ operationsIn calls tenantId startMs endMs, (measuredUnits receipt).length := by
  have nodup := distinct.filter fun row => row.tenantId = tenantId ∧ inWindow startMs endMs row.eventTimeMs
  rw [← toFinset_card_of_nodup nodup]
  have covered : (rows.filter fun row => row.tenantId = tenantId ∧ inWindow startMs endMs row.eventTimeMs).toFinset ⊆
      (operationsIn calls tenantId startMs endMs).biUnion fun receipt =>
        ((measuredUnits receipt).map (eventOf sha256 tenantId · receipt)).toFinset := by
    intro event member
    obtain ⟨receipt, operation, unit, measured, rfl⟩ := (mem_window members).mp (mem_toFinset.mp member)
    exact Finset.mem_biUnion.mpr ⟨receipt, operation,
      mem_toFinset.mpr (mem_map.mpr ⟨unit, mem_measuredUnits.mpr measured, rfl⟩)⟩
  refine (Finset.card_le_card covered).trans (Finset.card_biUnion_le.trans (Finset.sum_le_sum ?_))
  intro receipt _
  refine (toFinset_card_le _).trans ?_
  rw [length_map]

theorem window_sum (distinct : rows.Nodup) (repeated : ∀ a ∈ calls, ∀ b ∈ calls, a.tenantId = b.tenantId →
      a.receipt.operationId = b.receipt.operationId → a = b)
    (tenantId : String) (unit : UsageUnit) (startMs endMs : Int) :
    (((rows.filter fun row => row.tenantId = tenantId ∧ inWindow startMs endMs row.eventTimeMs).filter
      (·.unit = unit)).map fun row => row.quantity.toInt).sum =
      ∑ receipt ∈ operationsIn calls tenantId startMs endMs, (quantityOf unit receipt).toInt := by
  have nodup := (distinct.filter fun row => row.tenantId = tenantId ∧ inWindow startMs endMs row.eventTimeMs).filter
    (·.unit = unit)
  have image : ((rows.filter fun row => row.tenantId = tenantId ∧ inWindow startMs endMs row.eventTimeMs).filter
      (·.unit = unit)).toFinset =
      ((operationsIn calls tenantId startMs endMs).filter fun receipt => quantityOf unit receipt ≠ 0).image
        (eventOf sha256 tenantId unit) := by
    ext event
    rw [mem_toFinset, mem_filter, mem_window members, Finset.mem_image, decide_eq_true_eq]
    constructor
    · rintro ⟨⟨receipt, operation, other, measured, rfl⟩, rfl⟩
      exact ⟨receipt, Finset.mem_filter.mpr ⟨operation, measured⟩, rfl⟩
    · rintro ⟨receipt, operation, rfl⟩
      obtain ⟨operation, measured⟩ := Finset.mem_filter.mp operation
      exact ⟨⟨receipt, operation, unit, measured, rfl⟩, rfl⟩
  rw [← sum_toFinset _ nodup, image, Finset.sum_image]
  · apply Finset.sum_filter_of_ne
    intro receipt _ some none
    have zero : (quantityOf unit receipt).toInt = 0 := by
      rw [none]
      rfl
    exact some zero
  · intro a memberA b memberB same
    obtain ⟨operationA, _⟩ := Finset.mem_filter.mp memberA
    obtain ⟨operationB, _⟩ := Finset.mem_filter.mp memberB
    have named : a.operationId = b.operationId := congrArg UsageEvent.receiptOperationId same
    exact congrArg Projection.receipt (repeated ⟨tenantId, a⟩ (mem_operationsIn.mp operationA).1 ⟨tenantId, b⟩
      (mem_operationsIn.mp operationB).1 rfl named)

end

end

/-- The measured usage in a window is the sum over its operations, as long as no two events share an id or a key, the
window has at most 5000 events and the sum is an `i64`. -/
theorem aggregateUsage_exact (sha256 : List UInt8 → List UInt8) {calls : List Projection}
    (repeated : ∀ a ∈ calls, ∀ b ∈ calls, a.tenantId = b.tenantId →
      a.receipt.operationId = b.receipt.operationId → a = b)
    (apart : ∀ a ∈ calls.flatMap (Projection.events sha256), ∀ b ∈ calls.flatMap (Projection.events sha256),
      a.eventId = b.eventId ∨ a.dedupeKey = b.dedupeKey → a = b)
    {tenantId : String} (named : tenantId ≠ "") (unit : UsageUnit) {startMs endMs : Int}
    (few : ∑ receipt ∈ operationsIn calls tenantId startMs endMs, (measuredUnits receipt).length ≤ 5000)
    (low : -2 ^ 63 ≤ ∑ receipt ∈ operationsIn calls tenantId startMs endMs, (quantityOf unit receipt).toInt)
    (high : ∑ receipt ∈ operationsIn calls tenantId startMs endMs, (quantityOf unit receipt).toInt < 2 ^ 63) :
    ∃ agg, aggregateUsageForTenant (ledgerAfter sha256 calls) tenantId unit startMs endMs = .ok agg ∧
      agg.measured.toInt =
        ∑ receipt ∈ operationsIn calls tenantId startMs endMs, (quantityOf unit receipt).toInt := by
  rw [ledgerAfter_eq]
  obtain ⟨distinct, members⟩ := foldl_keep apart
  have measured : ∀ row ∈ (calls.flatMap (Projection.events sha256)).foldl keep [], row.source = .measured := by
    intro row member
    obtain ⟨call, _, _, unit, _, rfl⟩ := mem_projected.mp ((members row).mp member)
    rfl
  exact aggregate_measured measured named ((window_length members distinct tenantId startMs endMs).trans few)
    (window_sum members distinct repeated tenantId unit startMs endMs).symm low high

def fortyTwoTokens (operationId : String) : OperationReceipt where
  operationId := operationId
  nameSpace := "ns"
  startedAtMs := 1000
  completedAtMs := some 2000
  events := [⟨⟨[("total_tokens", "42")], pairwise_singleton _ _⟩⟩]

def replayedCalls : List Projection :=
  [⟨"tenant-a", fortyTwoTokens "op-1"⟩, ⟨"tenant-a", fortyTwoTokens "op-1"⟩, ⟨"tenant-b", fortyTwoTokens "op-1"⟩]

theorem aggregateUsage_exact_replayed :
    (∃ agg, aggregateUsageForTenant (ledgerAfter id replayedCalls) "tenant-a" .tokens 0 10000 = .ok agg ∧
      agg.measured.toInt =
        ∑ receipt ∈ operationsIn replayedCalls "tenant-a" 0 10000, (quantityOf .tokens receipt).toInt) ∧
    ∑ receipt ∈ operationsIn replayedCalls "tenant-a" 0 10000, (quantityOf .tokens receipt).toInt = 42 := by
  refine ⟨aggregateUsage_exact id (by decide +kernel) (by decide +kernel) (by decide) .tokens (by decide +kernel)
    (by decide +kernel) (by decide +kernel), by decide +kernel⟩

/-- Operation `b:c` of tenant `a`, and operation `c` of tenant `a:b`. -/
def sameKeyCalls : List Projection := [⟨"a", fortyTwoTokens "b:c"⟩, ⟨"a:b", fortyTwoTokens "c"⟩]

theorem usage_dropped_for_other_tenant :
    ((aggregateUsageForTenant (ledgerAfter id sameKeyCalls) "a:b" .tokens 0 10000).map
      UsageAggregate.measured).toOption =
        some 0 ∧
      ((projectUsageFromReceipt id (ledgerAfter id [⟨"a", fortyTwoTokens "b:c"⟩]) "a:b" (fortyTwoTokens "c")).1.map
        List.length).toOption = some 2 ∧
      ∑ receipt ∈ operationsIn sameKeyCalls "a:b" 0 10000, (quantityOf .tokens receipt).toInt = 42 := by
  refine ⟨by decide +kernel, by decide +kernel, by decide +kernel⟩

theorem any_foldl_keep {p : UsageEvent → Bool} {rows : List UsageEvent} (events : List UsageEvent) (held : rows.any p) :
    (events.foldl keep rows).any p := by
  induction events generalizing rows with
  | nil => exact held
  | cons event rest ih =>
    refine ih ?_
    unfold keep
    split
    · exact held
    · simp [held]

theorem keep_seen {rows events : List UsageEvent} {event : UsageEvent} (seen : event ∈ events) :
    keep (events.foldl keep rows) event = events.foldl keep rows := by
  obtain ⟨before, after, rfl⟩ := append_of_mem seen
  rw [foldl_append, foldl_cons]
  refine if_pos (any_foldl_keep after ?_)
  rw [keep]
  split
  · assumption
  · simp

/-- Receipts that are projected again, in any order and number, add nothing. -/
theorem ledgerAfter_replayed (sha256 : List UInt8 → List UInt8) {calls again : List Projection} (seen : again ⊆ calls) :
    ledgerAfter sha256 (calls ++ again) = ledgerAfter sha256 calls := by
  rw [ledgerAfter_eq, ledgerAfter_eq, flatMap_append, foldl_append]
  have known : ∀ event ∈ again.flatMap (Projection.events sha256),
      event ∈ calls.flatMap (Projection.events sha256) := by
    intro event member
    obtain ⟨call, inside, made⟩ := mem_flatMap.mp member
    exact mem_flatMap.mpr ⟨call, seen inside, made⟩
  generalize again.flatMap _ = events at known
  induction events with
  | nil => rfl
  | cons event rest ih =>
    rw [foldl_cons, keep_seen (known event mem_cons_self)]
    exact ih fun other later => known other (mem_cons_of_mem _ later)

theorem ledgerAfter_replayed_again : ledgerAfter id (replayedCalls ++ replayedCalls) = ledgerAfter id replayedCalls :=
  ledgerAfter_replayed id (List.Subset.refl _)

end SekaiChisei.UsageLedger
