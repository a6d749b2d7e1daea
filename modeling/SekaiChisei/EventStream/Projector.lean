import Mathlib.Logic.Function.Basic
import SekaiChisei.Lib.Fallible
import SekaiChisei.Lib.Trace
import SekaiChisei.Objects.Tables

/-! `register_event_stream` and `project_event_batch` of `sekai/event_stream.rs`, for any number of concurrent calls. A
step is one operation of the store. -/

namespace SekaiChisei.EventStream
open Lib Objects Function

def contract : String := "sekai.event-stream-projection/v1"
def schemaRevisionV1 : String := "v1"
def maxColumns : Nat := 64
def maxEvents : Nat := 500
def i64Max : Nat := 2 ^ 63 - 1

def projectUnavailable : String := "event stream projection is not admitted"
def batchMalformed : String := "event stream batch is malformed"
def batchGap : String := "event stream batch has a gap"
def batchLate : String := "event stream batch is late"
def revisionUnsupported : String := "event stream revision is unsupported"
def checkpointConflict : String := "event stream checkpoint conflict"

structure EventStreamColumn where
  (name colType classification : String)
  deriving DecidableEq

structure EventStreamBinding where
  (contractVersion streamId nameSpace owner source sourceInstance schemaRevision typeDigest : String)
  definitionDigest : String
  columns : List EventStreamColumn
  registeredBy : String
  registeredAtMs : Int

structure StreamEvent where
  offset : Nat
  eventId : String
  properties : Properties

structure EventStreamBatch where
  streamId : String
  generation : Nat
  feedEpoch : String
  (offsetStart offsetEnd : Nat)
  events : List StreamEvent
  contentDigest : String

structure EventStreamCheckpoint where
  streamId : String
  generation : Nat
  feedEpoch : String
  committedOffset : Nat
  lastBatchDigest : String

structure EventStreamProjection where
  (nameSpace streamId : String)
  generation : Nat
  (feedEpoch definitionDigest inputDigest outcome : String)
  columns : List String
  eventCount : Nat
  projectionDigest : String
  checkpoint : EventStreamCheckpoint
  events : List StreamEvent

/-- The hexadecimal SHA-256 digests of what is pinned of a definition (all but the contract, the digest and the
registration of a binding), of a batch (all but its digest), of an event and of a projection. -/
structure Digests where
  definition : EventStreamBinding → String
  batch : EventStreamBatch → String
  event : StreamEvent → String
  projection : List String → List StreamEvent → String

def required (label value : String) : Except String Unit :=
  if trim value = "" then .error (label ++ " is required") else .ok ()

def digitsBelow (chars : List Char) (bound : Nat) : Bool :=
  chars ≠ [] ∧ chars.all Char.isDigit ∧ Nat.ofDigitChars 10 chars 0 < bound

/-- `value.parse::<i64>().is_ok()`. -/
def parsesI64 (value : String) : Bool :=
  match value.toList with
  | '-' :: digits => digitsBelow digits (2 ^ 63 + 1)
  | '+' :: digits => digitsBelow digits (2 ^ 63)
  | digits => digitsBelow digits (2 ^ 63)

def typedValue (colType value : String) : Bool :=
  if colType = "string" then true
  else if colType = "int" then parsesI64 value
  else if colType = "bool" then value ∈ ["true", "false"]
  else false

def parseClassification (value : String) : Except String Unit :=
  if String.ofList ((trim value).toList.map Char.toLower) ∈ ["public", "internal", "confidential", "restricted"] then
    .ok ()
  else .error ("unknown classification marking: " ++ String.ofList ((trim value).toList.map Char.toLower))

/-- The checks of the columns, after those with the names `seen`. -/
def validateColumns : List String → List EventStreamColumn → Except String Unit
  | _, [] => .ok ()
  | seen, column :: rest => do
    required "column name" column.name
    if column.name ∈ seen then .error batchMalformed
    if column.colType ∉ ["string", "int", "bool"] then .error revisionUnsupported
    parseClassification column.classification
    validateColumns (column.name :: seen) rest

section
variable (digests : Digests)

variable (binding : EventStreamBinding)

def definitionDigest : String := "sha256:" ++ digests.definition binding

def validateBinding (actor : String) (now : Int) :
    Except String EventStreamBinding := do
  if binding.contractVersion ≠ contract ∨ binding.schemaRevision ≠ schemaRevisionV1 then .error revisionUnsupported
  required "stream id" binding.streamId
  required "namespace" binding.nameSpace
  required "owner" binding.owner
  required "source" binding.source
  required "source instance" binding.sourceInstance
  required "type digest" binding.typeDigest
  if binding.owner ≠ actor then .error projectUnavailable
  if binding.columns = [] ∨ binding.columns.length > maxColumns then
    .error "event stream must declare between 1 and 64 columns"
  validateColumns [] binding.columns
  .ok { binding with
    registeredBy := actor
    registeredAtMs := now
    definitionDigest := definitionDigest digests binding }

/-- The checks of one event, which should be at `offset`. -/
def validateEvent (offset : Nat) (event : StreamEvent) : Except String Unit := do
  required "event id" event.eventId
  if event.offset ≠ offset then .error batchMalformed
  if ¬ ((∀ entry ∈ event.properties.entries, ∃ column ∈ binding.columns, column.name = entry.1) ∧
      ∀ column ∈ binding.columns, (event.properties.get column.name).isSome) then .error batchMalformed
  binding.columns.forM fun column =>
    if typedValue column.colType ((event.properties.get column.name).getD "") then .ok () else .error batchMalformed

def validateEvents (binding : EventStreamBinding) : Nat → List StreamEvent → Except String Unit
  | _, [] => .ok ()
  | offset, event :: rest => do
    validateEvent binding offset event
    validateEvents binding (offset + 1) rest

def validateBatch (batch : EventStreamBatch) : Except String Unit := do
  if batch.streamId ≠ binding.streamId then .error projectUnavailable
  required "feed epoch" batch.feedEpoch
  if batch.generation = 0 ∨ batch.offsetStart = 0 ∨ batch.offsetEnd < batch.offsetStart ∨
      batch.generation > i64Max ∨ batch.offsetStart > i64Max ∨ batch.offsetEnd > i64Max then .error batchMalformed
  if batch.events = [] ∨ batch.events.length > maxEvents then .error batchMalformed
  if batch.events.length ≠ batch.offsetEnd - batch.offsetStart + 1 then .error batchMalformed
  validateEvents binding batch.offsetStart batch.events

/-- `project_events`, with the properties of the authorized columns. -/
def projectEvent (authorized : List String) (event : StreamEvent) : StreamEvent :=
  { event with
    properties := ⟨event.properties.entries.filter (fun entry => entry.1 ∈ authorized),
      event.properties.sorted.sublist List.filter_sublist⟩ }

def projectionResult (batch : EventStreamBatch) (authorized : List String)
    (checkpoint : EventStreamCheckpoint) (outcome : String) : EventStreamProjection where
  nameSpace := binding.nameSpace
  streamId := binding.streamId
  generation := batch.generation
  feedEpoch := batch.feedEpoch
  definitionDigest := definitionDigest digests binding
  inputDigest := batch.contentDigest
  outcome := outcome
  columns := authorized
  eventCount := batch.events.length
  projectionDigest := "sha256:" ++ digests.projection authorized (batch.events.map (projectEvent authorized))
  checkpoint := checkpoint
  events := batch.events.map (projectEvent authorized)

variable (batch : EventStreamBatch)

/-- `current_checkpoint`, from what was read. -/
def orInitial (read : Option EventStreamCheckpoint) : EventStreamCheckpoint :=
  read.getD ⟨batch.streamId, batch.generation, batch.feedEpoch, 0, ""⟩

/-- `decided_without_advance`; nothing when the batch is the next one. -/
def decidedWithoutAdvance (batch : EventStreamBatch) (authorized : List String)
    (digest : String) (checkpoint : EventStreamCheckpoint) : Except String (Option EventStreamProjection) :=
  if checkpoint.committedOffset > 0 then
    if checkpoint.generation ≠ batch.generation ∨ checkpoint.feedEpoch ≠ batch.feedEpoch then .error batchGap
    else if batch.offsetEnd ≤ checkpoint.committedOffset then
      if digest = checkpoint.lastBatchDigest ∧ batch.offsetStart ≤ checkpoint.committedOffset then
        .ok (some (projectionResult digests binding batch authorized checkpoint "replayed"))
      else .error batchLate
    else if batch.offsetStart ≠ checkpoint.committedOffset + 1 then .error batchGap
    else .ok none
  else if batch.offsetStart ≠ 1 then .error batchGap
  else .ok none

def replayCheckpointMatchesBatch (checkpoint : EventStreamCheckpoint) (batch : EventStreamBatch) : Bool :=
  checkpoint.streamId = batch.streamId ∧ checkpoint.generation = batch.generation ∧
    checkpoint.feedEpoch = batch.feedEpoch ∧ checkpoint.lastBatchDigest = batch.contentDigest ∧
    checkpoint.committedOffset ≥ batch.offsetEnd

def nextCheckpoint (digest : String) : EventStreamCheckpoint :=
  ⟨batch.streamId, batch.generation, batch.feedEpoch, batch.offsetEnd, digest⟩

structure AdmittedEvent where
  (offset generation : Nat)
  (feedEpoch digest : String)

def admittedRow (generation : Nat) (feedEpoch : String) (event : StreamEvent) : AdmittedEvent :=
  ⟨event.offset, generation, feedEpoch, "sha256:" ++ digests.event event⟩

structure Acceptance where
  batch : EventStreamBatch
  (read found : Option EventStreamCheckpoint)

/-- The rows by stream. `accepted` are the batches of a stream since its definition was installed, and
`acceptances` those of all streams since the start. -/
structure Tables where
  bindings : String → Option EventStreamBinding
  checkpoints : String → Option EventStreamCheckpoint
  admitted : String → List AdmittedEvent
  accepted : String → List EventStreamBatch
  acceptances : List Acceptance

def Tables.empty : Tables := ⟨fun _ => none, fun _ => none, fun _ => [], fun _ => [], []⟩

def definitionChanged (existing next : EventStreamBinding) : Bool :=
  existing.nameSpace ≠ next.nameSpace ∨ existing.source ≠ next.source ∨
    existing.sourceInstance ≠ next.sourceInstance ∨ existing.schemaRevision ≠ next.schemaRevision ∨
    existing.typeDigest ≠ next.typeDigest ∨ existing.columns ≠ next.columns

variable (tables : Tables)

def Tables.reset (stream : String) : Tables :=
  { tables with
    checkpoints := update tables.checkpoints stream none
    admitted := update tables.admitted stream []
    accepted := update tables.accepted stream [] }

def Tables.bind (binding : EventStreamBinding) : Tables :=
  { tables with bindings := update tables.bindings binding.streamId (some binding) }

/-- `put_event_stream_binding`. -/
def Tables.putBinding (binding : EventStreamBinding) : Except String Tables :=
  match tables.bindings binding.streamId with
  | none => .ok (tables.bind binding)
  | some existing =>
    if existing.owner ≠ binding.owner then .error projectUnavailable
    else if definitionChanged existing binding then .ok ((tables.bind binding).reset binding.streamId)
    else .ok (tables.bind binding)

/-- `INSERT OR IGNORE` of the events of a batch. -/
def persist (generation : Nat) (feedEpoch : String) (rows : List AdmittedEvent) (events : List StreamEvent) :
    List AdmittedEvent :=
  events.foldl (fun rows event =>
    if rows.any (·.offset = event.offset) then rows else rows ++ [admittedRow digests generation feedEpoch event])
    rows

def overwrites (stored : Option EventStreamCheckpoint) (expected : EventStreamCheckpoint) : Bool :=
  match stored with
  | none => true
  | some stored =>
    stored.committedOffset = expected.committedOffset ∧ stored.lastBatchDigest = expected.lastBatchDigest ∧
      stored.generation = expected.generation ∧ stored.feedEpoch = expected.feedEpoch

/-- The effect of `advance_event_stream_checkpoint`. -/
def Tables.accept (batch : EventStreamBatch) (digest : String)
    (read : Option EventStreamCheckpoint) : Tables :=
  { tables with
    checkpoints := update tables.checkpoints batch.streamId (some (nextCheckpoint batch digest))
    admitted := update tables.admitted batch.streamId
      (persist digests batch.generation batch.feedEpoch (tables.admitted batch.streamId) batch.events)
    accepted := update tables.accepted batch.streamId (tables.accepted batch.streamId ++ [batch])
    acceptances := tables.acceptances ++ [⟨batch, read, tables.checkpoints batch.streamId⟩] }

def Tables.advances (batch : EventStreamBatch) (read : Option EventStreamCheckpoint)
    (definitionDigest : String) : Bool :=
  (tables.bindings batch.streamId).any (·.definitionDigest = definitionDigest) ∧
    overwrites (tables.checkpoints batch.streamId) (orInitial batch read)

/-- `ensure_event_stream_admitted_events`. -/
def Tables.ensure (batch : EventStreamBatch) : Except String Tables :=
  match tables.checkpoints batch.streamId with
  | none => .error checkpointConflict
  | some checkpoint =>
    if replayCheckpointMatchesBatch checkpoint batch then
      .ok { tables with
        admitted := update tables.admitted batch.streamId
          (persist digests batch.generation batch.feedEpoch (tables.admitted batch.streamId) batch.events) }
    else .error checkpointConflict

inductive Result where
  | registered (binding : EventStreamBinding)
  | projected (projection : EventStreamProjection)

inductive Phase where
  | registering (actor : String) (validated : EventStreamBinding)
  | putting (validated : EventStreamBinding)
  | projecting (actor : String) (batch : EventStreamBatch)
  | bound (batch : EventStreamBatch) (binding : EventStreamBinding) (authorized : List String)
  | replaying (batch : EventStreamBatch) (projection : EventStreamProjection)
  | advancing (batch : EventStreamBatch) (binding : EventStreamBinding) (authorized : List String)
    (read : Option EventStreamCheckpoint)
  | conflicted (batch : EventStreamBatch) (binding : EventStreamBinding) (authorized : List String)
  | done (result : Except String Result)

def batchDigestFor : String := "sha256:" ++ digests.batch batch

abbrev Authority := Except String (EventStreamColumn → Bool)

def checkBatch (actor : String) (batch : EventStreamBatch) (binding : Option EventStreamBinding)
    (authority : Authority) : Except String (EventStreamBinding × List String) :=
  match binding with
  | none => .error projectUnavailable
  | some binding =>
    if binding.owner ≠ actor then .error projectUnavailable
    else if binding.contractVersion ≠ contract ∨ binding.schemaRevision ≠ schemaRevisionV1 then
      .error revisionUnsupported
    else do
      let visible ← authority
      validateBatch binding batch
      if batchDigestFor digests batch ≠ batch.contentDigest then .error batchMalformed
      else .ok (binding, (binding.columns.filter visible).map EventStreamColumn.name)

def Phase.ofDecision (binding : EventStreamBinding) (authorized : List String)
    (read : Option EventStreamCheckpoint) : Except String (Option EventStreamProjection) → Phase
  | .error error => .done (.error error)
  | .ok (some projection) => .replaying batch projection
  | .ok none => .advancing batch binding authorized read

def advance (authority : Authority) : Phase → Tables × Phase
  | .registering actor validated =>
    if (tables.bindings validated.streamId).any (·.owner ≠ actor) then
      (tables, .done (.error projectUnavailable))
    else (tables, .putting validated)
  | .putting validated =>
    match tables.putBinding validated with
    | .error error => (tables, .done (.error error))
    | .ok after => (after, .done (.ok (.registered validated)))
  | .projecting actor batch =>
    match checkBatch digests actor batch (tables.bindings batch.streamId) authority with
    | .error error => (tables, .done (.error error))
    | .ok (binding, authorized) => (tables, .bound batch binding authorized)
  | .bound batch binding authorized =>
    (tables, .ofDecision batch binding authorized (tables.checkpoints batch.streamId)
      (decidedWithoutAdvance digests binding batch authorized (batchDigestFor digests batch)
        (orInitial batch (tables.checkpoints batch.streamId))))
  | .replaying batch projection =>
    match tables.ensure digests batch with
    | .error error => (tables, .done (.error error))
    | .ok after => (after, .done (.ok (.projected projection)))
  | .advancing batch binding authorized read =>
    if tables.advances batch read binding.definitionDigest then
      (tables.accept digests batch (batchDigestFor digests batch) read,
        .done (.ok (.projected (projectionResult digests binding batch authorized
          (nextCheckpoint batch (batchDigestFor digests batch)) "accepted"))))
    else (tables, .conflicted batch binding authorized)
  | .conflicted batch binding authorized =>
    match decidedWithoutAdvance digests binding batch authorized (batchDigestFor digests batch)
        (orInitial batch (tables.checkpoints batch.streamId)) with
    | .error error => (tables, .done (.error error))
    | .ok (some projection) => (tables, .done (.ok (.projected projection)))
    | .ok none => (tables, .done (.error batchGap))
  | .done result => (tables, .done result)

structure World where
  tables : Tables
  calls : Nat → Option Phase
  started : Nat

def World.start : World := ⟨.empty, fun _ => none, 0⟩

def World.enter (world : World) (c : Nat) (tables : Tables) (phase : Phase) : World :=
  { world with tables, calls := update world.calls c (some phase) }

/-- Calls begin, with the checks before their first use of the store, take a step, or fail in one. -/
inductive Action where
  | register (actor : String) (binding : EventStreamBinding) (now : Int)
  | project (actor : String) (batch : EventStreamBatch) (now : Int)
  | advance (c : Nat) (authority : Authority)
  | fail (c : Nat) (error : String)

def registerPhase (actor : String) (binding : EventStreamBinding) (now : Int) : Phase :=
  match (do
    required "actor" actor
    if now < 0 then .error "register timestamp must be non-negative"
    validateBinding digests binding actor now) with
  | .error error => .done (.error error)
  | .ok validated => .registering actor validated

def projectPhase (actor : String) (batch : EventStreamBatch) (now : Int) : Phase :=
  match (do
    required "actor" actor
    required "stream id" batch.streamId
    if now < 0 then .error "project timestamp must be non-negative" else .ok () : Except String Unit) with
  | .error error => .done (.error error)
  | .ok () => .projecting actor batch

def step (world : World) : Action → World
  | .register actor binding now =>
    { world.enter world.started world.tables (registerPhase digests actor binding now) with
      started := world.started + 1 }
  | .project actor batch now =>
    { world.enter world.started world.tables (projectPhase actor batch now) with started := world.started + 1 }
  | .advance c authority =>
    match world.calls c with
    | none => world
    | some phase =>
      world.enter c (advance digests world.tables authority phase).1 (advance digests world.tables authority phase).2
  | .fail c error =>
    match world.calls c with
    | none | some (.done _) => world
    | some _ => world.enter c world.tables (.done (.error error))

end

end SekaiChisei.EventStream
