import Mathlib.Logic.Function.Basic
import SekaiChisei.Lib.Lane
import SekaiChisei.Lib.Trace
import SekaiChisei.Objects.Tables

/-! The group commit of `sekai/object_log.rs`, for any number of concurrent calls. A step is what a call does under one
lock, or one use of the log; the storage library is `Mikura`. -/

namespace SekaiChisei.ObjectLog
open Lib Objects Function

abbrev Identity := String × String × String

def identity (object : Object) : Identity := (object.nameSpace, object.kind, object.id)

structure Mikura where
  pagesOf : List Object → Nat
  generation : List (List Object) → Identity → Except String Nat

structure IngestTicket where
  call : Nat
  object : Object
  deriving DecidableEq

def IngestTicket.identity (ticket : IngestTicket) : Identity := ObjectLog.identity ticket.object

abbrev Outcome := Except String Nat

structure Disk where
  batches : List (List IngestTicket)
  pages : Nat

inductive BatchResult where
  | committed
  | rolledBack (error : String)
  | committedThenFailed (error : String)

/-- What the outside does in a step: whether the handle opens, how a batch ends, and whether the log opens
again after it. -/
structure Choice where
  opens : Except String Unit
  batch : BatchResult
  reopens : Except String Unit

inductive Next where
  | release (result : Except String Unit)
  | settle (rest : List IngestTicket) (error : String)

/-- Where a call is. From `opened` to `releasing` it holds the lock of the handle and is the leader; `lost`
and `waited` are those of a call that failed while another leader had taken its ticket. -/
inductive Phase where
  | queued
  | opened
  | committing (pass : Nat) (batch : List IngestTicket) (pagesBefore : Nat)
  | reopening (pass : Nat) (batch : List IngestTicket) (pagesBefore : Nat) (error : String)
  | settling (pass : Nat) (rest : List IngestTicket) (error : String)
  | finishing (pass : Nat) (todo : List (IngestTicket × Outcome)) (next : Next)
  | releasing (result : Except String Unit)
  | returned (led : Except String Unit) (opened : Bool)
  | failed (error : String)
  | lost (error : String)
  | waited (error : String)
  | done (outcome : Outcome)

structure Call where
  path : String
  object : Object
  phase : Phase

def Call.ticket (call : Call) (c : Nat) : IngestTicket := ⟨c, call.object⟩

/-- `enqueued`, `drained`, `completed` and `withdrawn` are the history of each path. -/
structure World where
  queue : String → List IngestTicket
  disk : String → Disk
  lock : Option Nat
  outcomes : Nat → Option Outcome
  calls : Nat → Option Call
  (started passes : Nat)
  enqueued : String → List IngestTicket
  (drained completed : String → List (Nat × IngestTicket))
  withdrawn : String → List IngestTicket

def World.start (pages : String → Nat) : World where
  queue := fun _ => []
  disk := fun path => ⟨[], pages path⟩
  lock := none
  outcomes := fun _ => none
  calls := fun _ => none
  started := 0
  passes := 0
  enqueued := fun _ => []
  drained := fun _ => []
  completed := fun _ => []
  withdrawn := fun _ => []

def World.enter (world : World) (c : Nat) (call : Call) (phase : Phase) : World :=
  { world with calls := update world.calls c (some { call with phase }) }

section
variable (mikura : Mikura)

variable (disk : Disk)

def Disk.append (batch : List IngestTicket) : Disk :=
  ⟨disk.batches ++ [batch], disk.pages + mikura.pagesOf (batch.map IngestTicket.object)⟩

/-- `BatchIngest::run`. -/
def Disk.run (batch : List IngestTicket) : BatchResult → Disk
  | .committed | .committedThenFailed _ => disk.append mikura batch
  | .rolledBack _ => disk

def BatchResult.result : BatchResult → Except String Unit
  | .committed => .ok ()
  | .rolledBack error | .committedThenFailed error => .error error

/-- `identity_generation` of a ticket. -/
def Disk.generation (ticket : IngestTicket) : Outcome :=
  mikura.generation (disk.batches.map (·.map IngestTicket.object)) ticket.identity

def Disk.answers (batch : List IngestTicket) : List (IngestTicket × Outcome) :=
  batch.map fun ticket => (ticket, disk.generation mikura ticket)

variable (world : World)

def World.write (path : String) (disk : Disk) : World :=
  { world with disk := update world.disk path disk }

def unopened (error reopen : String) (batch : List IngestTicket) : List (IngestTicket × Outcome) :=
  batch.map (·, .error (error ++ "; reopening the log failed: " ++ reopen))

def World.drain (c : Nat) (call : Call) : World :=
  if (Lane.split IngestTicket.identity [] (world.queue call.path)).1 = [] then
    world.enter c call (.releasing (.ok ()))
  else
    { world with
      queue := update world.queue call.path (Lane.split IngestTicket.identity [] (world.queue call.path)).2
      passes := world.passes + 1
      drained := update world.drained call.path (world.drained call.path ++
        (Lane.split IngestTicket.identity [] (world.queue call.path)).1.map (world.passes, ·)) }.enter c
      call (.committing world.passes (Lane.split IngestTicket.identity [] (world.queue call.path)).1
        (world.disk call.path).pages)

/-- `run_batch`, on the whole batch. -/
def World.commit (c : Nat) (call : Call) (pass : Nat) (batch : List IngestTicket)
    (pagesBefore : Nat) (result : BatchResult) : World :=
  match result.result with
  | .ok () =>
    (world.write call.path ((world.disk call.path).run mikura batch result)).enter c call
      (.finishing pass (((world.disk call.path).run mikura batch result).answers mikura batch) (.release (.ok ())))
  | .error error =>
    (world.write call.path ((world.disk call.path).run mikura batch result)).enter c call
      (.reopening pass batch pagesBefore error)

def World.reopen (world : World) (c : Nat) (call : Call) (pass : Nat) (batch : List IngestTicket)
    (pagesBefore : Nat) (error : String) (reopens : Except String Unit) : World :=
  match reopens with
  | .error reopen =>
    world.enter c call (.finishing pass (unopened error reopen batch) (.release (.error error)))
  | .ok () =>
    if (world.disk call.path).pages > pagesBefore then
      world.enter c call (.finishing pass ((world.disk call.path).answers mikura batch) (.release (.error error)))
    else world.enter c call (.settling pass batch error)

def Disk.retried (ticket : IngestTicket) (result : BatchResult) : Outcome := do
  result.result
  (disk.run mikura [ticket] result).generation mikura ticket

def afterRetry (pass : Nat) (ticket : IngestTicket) (outcome : Outcome) (rest : List IngestTicket)
    (error : String) (reopens : Except String Unit) : Phase :=
  match outcome, reopens with
  | .error message, .error reopen =>
    .finishing pass ((ticket, .error message) :: unopened error reopen rest) (.release (.error error))
  | outcome, _ => .finishing pass [(ticket, outcome)] (.settle rest error)

def World.retry (c : Nat) (call : Call) (pass : Nat) (ticket : IngestTicket)
    (rest : List IngestTicket) (error : String) (choice : Choice) : World :=
  (world.write call.path ((world.disk call.path).run mikura [ticket] choice.batch)).enter c call
    (afterRetry pass ticket ((world.disk call.path).retried mikura ticket choice.batch) rest error choice.reopens)

/-- `IngestTicket::finish`. -/
def World.finish (path : String) (pass : Nat) (ticket : IngestTicket) (outcome : Outcome) : World :=
  { world with
    outcomes := update world.outcomes ticket.call (some outcome)
    completed := update world.completed path (world.completed path ++ [(pass, ticket)]) }

/-- `IngestTicket::take` of the call's own ticket. -/
def World.takeOutcome (c : Nat) (call : Call) (outcome : Outcome) : World :=
  { world with outcomes := update world.outcomes c none }.enter c call (.done outcome)

def afterLead : Except String Unit → Bool → Phase
  | .ok (), _ | .error _, true => .queued
  | .error error, false => .failed error

def World.takeBack (path : String) (ticket : IngestTicket) : World :=
  { world with
    queue := update world.queue path ((world.queue path).filter (· ≠ ticket))
    withdrawn := update world.withdrawn path (world.withdrawn path ++ [ticket]) }

def World.withdraw (c : Nat) (call : Call) (error : String) : World :=
  if call.ticket c ∈ world.queue call.path then
    (world.takeBack call.path (call.ticket c)).enter c call (.done (.error error))
  else world.enter c call (.lost error)

def World.advance (c : Nat) (call : Call) (choice : Choice) : World :=
  match call.phase with
  | .queued =>
    match world.lock, choice.opens with
    | some _, _ => world
    | none, .error error => world.enter c call (.returned (.error error) false)
    | none, .ok () => { world with lock := some c }.enter c call .opened
  | .opened => world.drain c call
  | .committing pass batch pagesBefore =>
    world.commit mikura c call pass batch pagesBefore choice.batch
  | .reopening pass batch pagesBefore error =>
    world.reopen mikura c call pass batch pagesBefore error choice.reopens
  | .settling _ [] error => world.enter c call (.releasing (.error error))
  | .settling pass (ticket :: rest) error => world.retry mikura c call pass ticket rest error choice
  | .finishing _ [] (.release result) => world.enter c call (.releasing result)
  | .finishing pass [] (.settle rest error) => world.enter c call (.settling pass rest error)
  | .finishing pass ((ticket, outcome) :: todo) next =>
    (world.finish call.path pass ticket outcome).enter c call (.finishing pass todo next)
  | .releasing result => { world with lock := none }.enter c call (.returned result true)
  | .returned led opened =>
    match world.outcomes c with
    | some outcome => world.takeOutcome c call outcome
    | none => world.enter c call (afterLead led opened)
  | .failed error => world.withdraw c call error
  | .lost error =>
    -- the handle is locked and given back
    match world.lock with
    | some _ => world
    | none => world.enter c call (.waited error)
  | .waited error =>
    match world.outcomes c with
    | some outcome => world.takeOutcome c call outcome
    | none => world.enter c call (.done (.error error))
  | .done _ => world

inductive Action where
  | enqueue (path : String) (object : Object)
  | advance (c : Nat) (choice : Choice)

def World.enqueue (path : String) (object : Object) : World :=
  { world with
    queue := update world.queue path (world.queue path ++ [⟨world.started, object⟩])
    enqueued := update world.enqueued path (world.enqueued path ++ [⟨world.started, object⟩])
    calls := update world.calls world.started (some ⟨path, object, .queued⟩)
    started := world.started + 1 }

def step : Action → World
  | .enqueue path object => world.enqueue path object
  | .advance c choice =>
    match world.calls c with
    | none => world
    | some call => world.advance mikura c call choice

end

end SekaiChisei.ObjectLog
