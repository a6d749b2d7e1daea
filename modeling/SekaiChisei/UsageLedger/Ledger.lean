import Mathlib
import SekaiChisei.Lib.Fallible
import SekaiChisei.Lib.Hex
import SekaiChisei.Objects.Tables

/-!
The usage ledger: `chisei/usage_ledger.rs`. Usage events are projected from receipts, kept once for their id and key,
and summed for a tenant.
-/

namespace SekaiChisei.UsageLedger
open Lib Objects

def usageEventVersion : String := "chisei.usage-event/v1"

inductive UsageUnit where
  | tokens
  | requests
  deriving DecidableEq

def UsageUnit.asStr : UsageUnit → String
  | tokens => "tokens"
  | requests => "requests"

inductive UsageSource where
  | measured
  | providerReported
  | estimated
  | correction
  deriving DecidableEq

structure UsageEvent where
  (version eventId tenantId nameSpace : String)
  unit : UsageUnit
  quantity : Int64
  source : UsageSource
  (receiptOperationId dedupeKey : String)
  eventTimeMs : Int
  correctsEventId : Option String
  deriving DecidableEq

structure UsageAggregate where
  (tenantId unit : String)
  (measured providerReported estimated corrections net : Int64)

structure OperationReceiptEvent where
  attributes : Properties
  deriving DecidableEq

structure OperationReceipt where
  (operationId nameSpace : String)
  startedAtMs : Int
  completedAtMs : Option Int
  events : List OperationReceiptEvent
  deriving DecidableEq

def parseDigits (digits : List Char) : Option Nat :=
  if digits ≠ [] ∧ digits.all Char.isDigit then some (Nat.ofDigitChars 10 digits 0) else none

def inI64 (value : Int) : Option Int64 :=
  if -2 ^ 63 ≤ value ∧ value < 2 ^ 63 then some (Int64.ofInt value) else none

/-- `str::parse::<i64>`. -/
def parseI64 (raw : String) : Option Int64 :=
  match raw.toList with
  | '-' :: digits => (parseDigits digits).bind fun value => inI64 (-value)
  | '+' :: digits => (parseDigits digits).bind fun value => inI64 value
  | digits => (parseDigits digits).bind fun value => inI64 value

/-- `i64::saturating_add`. -/
def saturatingAdd (a b : Int64) : Int64 :=
  Int64.ofInt (max (-2 ^ 63) (min (2 ^ 63 - 1) (a.toInt + b.toInt)))

def scanKey (attributes : Properties) (total : Int64) (key : String) : Except Int64 Int64 :=
  match (attributes.get key).bind parseI64 with
  | none => .ok total
  | some n => if key = "total_tokens" ∨ key = "tokens" then .error n else .ok (saturatingAdd total n)

def tokenKeys : List String :=
  ["total_tokens", "tokens", "input_tokens", "output_tokens", "prompt_tokens", "completion_tokens"]

def measuredTokensFromReceipt (receipt : OperationReceipt) : Int64 :=
  match receipt.events.foldlM (fun total event => tokenKeys.foldlM (scanKey event.attributes) total) 0 with
  | .error n => n
  | .ok total => total

section
variable (sha256 : List UInt8 → List UInt8)

def stableEventId (tenantId operationId unit source : String) : String :=
  "ue:" ++ toHex (sha256 (utf8 (tenantId ++ "\x00" ++ operationId ++ "\x00" ++ unit ++ "\x00" ++ source)))

def eventTime (receipt : OperationReceipt) : Int := receipt.completedAtMs.getD receipt.startedAtMs

def measuredEvent (tenantId : String) (receipt : OperationReceipt) (unit : UsageUnit) (quantity : Int64) :
    UsageEvent where
  version := usageEventVersion
  eventId := stableEventId sha256 tenantId receipt.operationId unit.asStr "measured"
  tenantId := tenantId
  nameSpace := receipt.nameSpace
  unit := unit
  quantity := quantity
  source := .measured
  receiptOperationId := receipt.operationId
  dedupeKey := "usage:v1:" ++ tenantId ++ ":" ++ receipt.operationId ++ ":" ++ unit.asStr ++ ":measured"
  eventTimeMs := eventTime receipt
  correctsEventId := none

def measuredUsageEvents (tenantId : String) (receipt : OperationReceipt) : Except String (List UsageEvent) :=
  if trim tenantId = "" then .error "tenant_id required from authenticated context"
  else
    .ok (measuredEvent sha256 tenantId receipt .requests 1 ::
      if measuredTokensFromReceipt receipt ≠ 0 then
        [measuredEvent sha256 tenantId receipt .tokens (measuredTokensFromReceipt receipt)]
      else [])

end

def validateEvent (event : UsageEvent) : Except String Unit :=
  if event.version ≠ usageEventVersion then .error ("unsupported usage event version " ++ event.version)
  else do
    [("event_id", event.eventId), ("tenant_id", event.tenantId), ("namespace", event.nameSpace),
      ("receipt_operation_id", event.receiptOperationId), ("dedupe_key", event.dedupeKey)].forM fun field =>
        if trim field.2 = "" then .error (field.1 ++ " required") else .ok ()
    if event.quantity = 0 ∧ event.source ≠ .correction then
      .error "quantity must be non-zero for non-correction events"
    else .ok ()

variable (rows : List UsageEvent)

/-- `INSERT OR IGNORE`: the id is the primary key, and the key is unique. -/
def appendUsageEvent (event : UsageEvent) : Except String (Bool × List UsageEvent) := do
  validateEvent event
  if rows.any fun row => row.eventId = event.eventId ∨ row.dedupeKey = event.dedupeKey then .ok (false, rows)
  else .ok (true, rows ++ [event])

def appendAll (rows : List UsageEvent) : List UsageEvent → Except String Unit × List UsageEvent
  | [] => (.ok (), rows)
  | event :: rest =>
    match appendUsageEvent rows event with
    | .error message => (.error message, rows)
    | .ok (_, rows) => appendAll rows rest

def projectUsageFromReceipt (sha256 : List UInt8 → List UInt8) (rows : List UsageEvent) (tenantId : String)
    (receipt : OperationReceipt) : Except String (List UsageEvent) × List UsageEvent :=
  match measuredUsageEvents sha256 tenantId receipt with
  | .error message => (.error message, rows)
  | .ok events =>
    match appendAll rows events with
    | (.error message, rows) => (.error message, rows)
    | (.ok (), rows) => (.ok events, rows)

/-- `ORDER BY event_time_ms, event_id`. -/
def Earlier (a b : UsageEvent) : Prop :=
  a.eventTimeMs < b.eventTimeMs ∨ a.eventTimeMs = b.eventTimeMs ∧ a.eventId ≤ b.eventId

instance : DecidableRel Earlier := fun a b =>
  inferInstanceAs (Decidable (a.eventTimeMs < b.eventTimeMs ∨ a.eventTimeMs = b.eventTimeMs ∧ a.eventId ≤ b.eventId))

def inWindow (startMs endMs : Int) (timeMs : Int) : Bool := startMs ≤ timeMs ∧ timeMs < endMs

def listUsageEventsForTenant (tenantId : String) (startMs endMs : Int) (limit : Int) :
    Except String (List UsageEvent) :=
  if tenantId = "" then .error "tenant_id required"
  else
    .ok (((rows.filter fun row => row.tenantId = tenantId ∧ inWindow startMs endMs row.eventTimeMs).insertionSort
      Earlier).take (if limit ≤ 0 then 100 else min limit 5000).toNat)

/-- One event of the sums; `i64` wraps. -/
def UsageAggregate.add (agg : UsageAggregate) (event : UsageEvent) : UsageAggregate :=
  match event.source with
  | .measured => { agg with measured := agg.measured + event.quantity, net := agg.net + event.quantity }
  | .providerReported =>
    { agg with providerReported := agg.providerReported + event.quantity, net := agg.net + event.quantity }
  | .estimated => { agg with estimated := agg.estimated + event.quantity, net := agg.net + event.quantity }
  | .correction => { agg with corrections := agg.corrections + event.quantity, net := agg.net + event.quantity }

def aggregateUsageForTenant (tenantId : String) (unit : UsageUnit) (startMs endMs : Int) :
    Except String UsageAggregate := do
  let events ← listUsageEventsForTenant rows tenantId startMs endMs 5000
  .ok ((events.filter (·.unit = unit)).foldl UsageAggregate.add ⟨tenantId, unit.asStr, 0, 0, 0, 0, 0⟩)

structure Projection where
  tenantId : String
  receipt : OperationReceipt
  deriving DecidableEq

def ledgerAfter (sha256 : List UInt8 → List UInt8) (calls : List Projection) : List UsageEvent :=
  calls.foldl (fun rows call => (projectUsageFromReceipt sha256 rows call.tenantId call.receipt).2) []

end SekaiChisei.UsageLedger
