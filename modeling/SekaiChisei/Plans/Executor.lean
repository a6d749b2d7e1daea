import Mathlib.Logic.Function.Basic
import SekaiChisei.Lib.Trace

/-! `execute_plan` of `sekai/plan_execution.rs`, for any number of concurrent runs over one plan. A step is one
operation of the store or one call of a port. -/

namespace SekaiChisei.Plans
open Function

structure PlanStep where
  (typeId version objectId parametersJson : String)

structure ProposedPlan where
  (planId planner : String)
  steps : List PlanStep

inductive ReviewDecision where
  | undecided
  | grant
  | deny
  deriving DecidableEq

structure PlanReview where
  (simulationId simulationDigest : String)
  decision : ReviewDecision

structure StepSimulation where
  (objectRevision outcome reasonCode policyDecision approvalState budgetDecision : String)

structure PlanSimulation where
  digest : String
  steps : List StepSimulation

inductive InstanceStatus where
  | admitted
  | parked
  | denied
  deriving DecidableEq

structure ActionInstance where
  (instanceId operationId principal typeId version parametersJson : String)
  evidenceSubmissionIds : List String
  status : InstanceStatus

inductive ExecutionStatus where
  | running
  | completed
  | stopped
  deriving DecidableEq

inductive StopReason where
  | notApproved
  | authorityRevoked
  | simulationChanged
  | stepRefused
  | stepMismatch
  deriving DecidableEq

structure StepExecution where
  index : Nat
  (instanceId operationId : String)
  status : InstanceStatus
  objectRevisionAfter : String
  deriving DecidableEq

structure PlanExecution where
  (simulationId simulationDigest : String)
  status : ExecutionStatus
  nextStep : Nat
  steps : List StepExecution
  stopReason : Option StopReason
  stoppedAtStep : Option Nat
  startedBy : String
  updatedAtMs : Int
  revision : Nat
  claimHolder : String
  claimUntilMs : Int
  deriving DecidableEq

def executionLeaseMs : Int := 120000

inductive PlanError where
  | invalid (message : String)
  | notFound
  | conflict
  | store (message : String)

inductive ExecutionError where
  | plan (error : PlanError)
  | superseded (current : PlanExecution)

inductive PortError where
  | refused (message : String)
  | inProgress
  | unavailable

def stepIdempotencyKey (planId : String) (index : Nat) : String :=
  "plan:" ++ planId ++ ":step:" ++ index.repr

/-- What the runs of a plan share: `target` is `parameter_target`, and `uuid` the random id of a run. -/
structure Setup where
  plan : ProposedPlan
  simulations : String → Option PlanSimulation
  target : String → Option String
  uuid : Nat → String
  uuid_nonempty : ∀ e, uuid e ≠ ""

def Setup.key (setup : Setup) (index : Nat) : String := stepIdempotencyKey setup.plan.planId index

def isPlanned (plan : ProposedPlan) (step : PlanStep) (held : ActionInstance) : Bool :=
  held.principal = plan.planner ∧ held.typeId = step.typeId ∧ held.version = step.version ∧
    held.parametersJson = step.parametersJson ∧ held.evidenceSubmissionIds = []

def samePrediction (current approved : StepSimulation) : Bool :=
  current.outcome = approved.outcome ∧ current.reasonCode = approved.reasonCode ∧
    current.policyDecision = approved.policyDecision ∧ current.approvalState = approved.approvalState ∧
    current.budgetDecision = approved.budgetDecision

namespace PlanExecution

def fresh (simulationId simulationDigest startedBy : String) (now : Int) : PlanExecution where
  simulationId := simulationId
  simulationDigest := simulationDigest
  status := .running
  nextStep := 0
  steps := []
  stopReason := none
  stoppedAtStep := none
  startedBy := startedBy
  updatedAtMs := now
  revision := 0
  claimHolder := ""
  claimUntilMs := 0

variable (execution : PlanExecution)

def claim (holder : String) (now : Int) : PlanExecution :=
  { execution with claimHolder := holder, claimUntilMs := now + executionLeaseMs }

def renew (now : Int) : PlanExecution :=
  { execution with claimUntilMs := now + executionLeaseMs }

def release : PlanExecution :=
  { execution with claimHolder := "", claimUntilMs := 0 }

def stop (reason : StopReason) (index : Nat) (now : Int) : PlanExecution :=
  { execution with
    claimHolder := ""
    claimUntilMs := 0
    status := .stopped
    stopReason := some reason
    stoppedAtStep := some index
    updatedAtMs := now }

def record (admitted : ActionInstance) (revisionAfter : String) (now : Int) :
    PlanExecution :=
  { execution with
    steps := execution.steps ++ [⟨execution.nextStep, admitted.instanceId, admitted.operationId, admitted.status,
      revisionAfter⟩]
    nextStep := execution.nextStep + 1
    updatedAtMs := now }

def complete (now : Int) : PlanExecution :=
  { execution with status := .completed, updatedAtMs := now }

end PlanExecution

/-- What a run has at hand while it works on a step, which is the next one of its execution; `produced` has the
last write of an object first. -/
structure Work where
  approved : PlanSimulation
  produced : List (String × String)
  execution : PlanExecution
  step : PlanStep

inductive PortCall where
  | replay
  | submit (expectedRevision : String)
  | decide (parked : ActionInstance)

inductive Phase where
  | starting
  | loading (review : PlanReview) (approved : PlanSimulation)
  | creating (review : PlanReview) (approved : PlanSimulation)
  | rereading (review : PlanReview) (approved : PlanSimulation)
  | claiming (review : PlanReview) (approved : PlanSimulation) (execution : PlanExecution)
  | unapproved (execution : PlanExecution)
  | looking (work : Work)
  | checking (work : Work)
  | checkingParked (work : Work) (parked : ActionInstance)
  | renewing (work : Work) (call : PortCall)
  | calling (work : Work) (call : PortCall)
  | recording (work : Work) (admitted : ActionInstance) (revisionAfter : String)
  | halting (work : Work) (reason : StopReason)
  | closing (work : Work) (reason : StopReason)
  | stopping (work : Work) (reason : StopReason)
  | releasing (execution : PlanExecution)
  | completing (execution : PlanExecution)
  | superseded
  | done (result : Except ExecutionError PlanExecution)

/-- A call of `execute_plan`; `now` is the time at which it began. -/
structure Run where
  startedBy : String
  now : Int
  phase : Phase

structure Admission where
  key : String
  run : Option Nat
  deriving DecidableEq

/-- The rows of the plan, and the instances by their idempotency keys. `admissions` is a history. -/
structure World where
  review : Option PlanReview
  execution : Option PlanExecution
  instances : String → Option ActionInstance
  runs : Nat → Option Run
  started : Nat
  admissions : List Admission

def World.start : World := ⟨none, none, fun _ => none, fun _ => none, 0, []⟩

def World.enter (world : World) (e : Nat) (run : Run) (phase : Phase) : World :=
  { world with runs := update world.runs e (some { run with phase }) }

structure Recorded where
  status : InstanceStatus
  (instanceId operationId : String)
  revisionAfter : Option String

inductive Answer where
  | answers (recorded : Recorded)
  | loses (recorded : Recorded)
  | fails (error : PortError)

structure Choice where
  clock : Int
  (approverMayDecide plannerMaySubmit plannerMayRead : Except String Bool)
  simulated : Except PlanError StepSimulation
  objectRevision : Option String
  port : Answer
  closingId : String

section
variable (setup : Setup)

variable (world : World)

/-- `save`: writes `next` over the revision it carries. -/
def World.save (e : Nat) (run : Run) (next : PlanExecution) (saved : PlanExecution → Phase) : World :=
  match world.execution with
  | some row =>
    if row.revision = next.revision then
      { world with execution := some { next with revision := next.revision + 1 } }.enter e run
        (saved { next with revision := next.revision + 1 })
    else world.enter e run .superseded
  | none => world.enter e run .superseded

def World.record (key : String) (written : ActionInstance) (author : Option Nat) : World :=
  { world with
    instances := update world.instances key (some written)
    admissions := if written.status = .admitted then world.admissions ++ [⟨key, author⟩] else world.admissions }

def Answer.recorded? : Answer → Option Recorded
  | .answers recorded | .loses recorded => some recorded
  | .fails _ => none

def Answer.result (stored : ActionInstance) (revisionAfter : Option String) :
    Answer → Except PortError (ActionInstance × Option String)
  | .answers _ => .ok (stored, revisionAfter)
  | .loses _ => .error .unavailable
  | .fails error => .error error

def submission (plan : ProposedPlan) (step : PlanStep) (recorded : Recorded) : ActionInstance where
  instanceId := recorded.instanceId
  operationId := recorded.operationId
  principal := plan.planner
  typeId := step.typeId
  version := step.version
  parametersJson := step.parametersJson
  evidenceSubmissionIds := []
  status := recorded.status

/-- The port `submit`: a key that is in use is replayed. -/
def World.submit (e : Nat) (work : Work) (port : Answer) :
    World × Except PortError (ActionInstance × Option String) :=
  match world.instances (setup.key work.execution.nextStep), port.recorded? with
  | some stored, _ => (world, port.result stored none)
  | none, some recorded =>
    (world.record (setup.key work.execution.nextStep) (submission setup.plan work.step recorded) (some e),
      port.result (submission setup.plan work.step recorded) recorded.revisionAfter)
  | none, none => (world, port.result (submission setup.plan work.step ⟨.denied, "", "", none⟩) none)

/-- The port `decide`: a parked instance is decided only while the holder owns the plan. -/
def World.decide (e : Nat) (work : Work) (parked : ActionInstance) (port : Answer) :
    World × Except PortError (ActionInstance × Option String) :=
  match world.instances (setup.key work.execution.nextStep) with
  | none => (world, .error (.refused "action instance not found"))
  | some stored =>
    if stored.instanceId ≠ parked.instanceId then (world, .error (.refused "action instance not found"))
    else if stored.status ≠ .parked then (world, port.result stored none)
    else if (world.execution.map PlanExecution.claimHolder) ≠ some work.execution.claimHolder then
      (world, .error .inProgress)
    else
      match port.recorded? with
      | some recorded =>
        (world.record (setup.key work.execution.nextStep) { stored with status := recorded.status } (some e),
          port.result { stored with status := recorded.status } recorded.revisionAfter)
      | none => (world, port.result stored none)

def closingRecord (plan : ProposedPlan) (step : PlanStep) (id : String) : ActionInstance where
  instanceId := id
  operationId := "plan-stop:" ++ id
  principal := plan.planner
  typeId := step.typeId
  version := step.version
  parametersJson := "\x7b\x7d"
  evidenceSubmissionIds := []
  status := .denied

inductive Verdict where
  | proceed (call : PortCall)
  | halt (reason : StopReason)
  | release
  | fail (error : PlanError)

def authorized (choice : Choice) (plannerMustRead : Bool) : Except String Bool := do
  if !(← choice.approverMayDecide) then return false
  if !(← choice.plannerMaySubmit) then return false
  if !plannerMustRead then return true
  choice.plannerMayRead

variable (work : Work)

def Work.expectedRevision (approved : Option StepSimulation) : String :=
  match work.produced.lookup work.step.objectId with
  | some revision => revision
  | none => (approved.map StepSimulation.objectRevision).getD ""

def checkFresh (choice : Choice) : Verdict :=
  match authorized choice false with
  | .error _ => .release
  | .ok false => .halt .authorityRevoked
  | .ok true =>
    match choice.simulated with
    | .error (.store _) => .release
    | .error error => .fail error
    | .ok current =>
      match work.approved.steps[work.execution.nextStep]? with
      | none => .fail .notFound
      | some approved =>
        if work.expectedRevision (some approved) = "" ∨
            current.objectRevision ≠ work.expectedRevision (some approved) ∨
            samePrediction current approved = false then .halt .simulationChanged
        else .proceed (.submit (work.expectedRevision (some approved)))

def checkParked (parked : ActionInstance) (choice : Choice) : Verdict :=
  match authorized choice true with
  | .error _ => .release
  | .ok false => .halt .authorityRevoked
  | .ok true =>
    match choice.simulated with
    | .error (.store _) => .release
    | .error error => .fail error
    | .ok current =>
      if (work.approved.steps[work.execution.nextStep]?.any fun approved =>
          current.policyDecision = approved.policyDecision ∧
            current.approvalState = approved.approvalState) = false then .halt .simulationChanged
      else if work.expectedRevision work.approved.steps[work.execution.nextStep]? = "" ∨
          choice.objectRevision ≠ some (work.expectedRevision work.approved.steps[work.execution.nextStep]?) then
        .halt .simulationChanged
      else .proceed (.decide parked)

def Verdict.phase : Verdict → Phase
  | .proceed call => .renewing work call
  | .halt reason => .halting work reason
  | .release => .releasing work.execution
  | .fail error => .done (.error (.plan error))

def afterSubmit : Except PortError (ActionInstance × Option String) → Phase
  | .error (.refused _) => .halting work .stepRefused
  | .error _ => .releasing work.execution
  | .ok (answered, revisionAfter) =>
    if isPlanned setup.plan work.step answered = false then .halting work .stepMismatch
    else
      match answered.status with
      | .parked => .checkingParked work answered
      | .admitted => .recording work answered (revisionAfter.getD "")
      | .denied => .halting work .stepRefused

def afterDecide : Except PortError (ActionInstance × Option String) → Phase
  | .error (.refused _) => .halting work .stepRefused
  | .error _ => .releasing work.execution
  | .ok (answered, revisionAfter) =>
    if answered.status = .admitted then .recording work answered (revisionAfter.getD "")
    else .halting work .stepRefused

def enterLoop (approved : PlanSimulation) (produced : List (String × String)) (execution : PlanExecution) : Phase :=
  match setup.plan.steps[execution.nextStep]? with
  | none => .completing execution
  | some step =>
    if setup.target step.parametersJson = some step.objectId then .looking ⟨approved, produced, execution, step⟩
    else .halting ⟨approved, produced, execution, step⟩ .stepMismatch

def producedBy (execution : PlanExecution) : List (String × String) :=
  (setup.plan.steps.zip execution.steps).foldl
    (fun produced done => (done.1.objectId, done.2.objectRevisionAfter) :: produced) []

def opened (now : Int) (review : PlanReview) (approved : PlanSimulation) (execution : PlanExecution) : Phase :=
  if execution.status ≠ .running then .done (.ok execution)
  else if execution.claimHolder ≠ "" ∧ execution.claimUntilMs > now then .done (.ok execution)
  else .claiming review approved execution

def World.call (e : Nat) (run : Run) (work : Work) (port : Answer) : PortCall → World
  | .replay | .submit _ =>
    (world.submit setup e work port).1.enter e run (afterSubmit setup work (world.submit setup e work port).2)
  | .decide parked =>
    (world.decide setup e work parked port).1.enter e run (afterDecide work (world.decide setup e work parked port).2)

/-- `halt`: what is under the key of the step decides whether it must be closed. -/
def haltPhase (reason : StopReason) : Option ActionInstance → Phase
  | none => .closing work reason
  | some stored =>
    if stored.status = .admitted ∧ isPlanned setup.plan work.step stored then .releasing work.execution
    else .stopping work reason

/-- `close_plan_step_key`. -/
def World.close (e : Nat) (run : Run) (work : Work) (reason : StopReason) (id : String) : World :=
  if world.instances (setup.key work.execution.nextStep) = none ∧
      world.execution.map PlanExecution.claimHolder = some work.execution.claimHolder then
    (world.record (setup.key work.execution.nextStep) (closingRecord setup.plan work.step id) (some e)).enter e run
      (.stopping work reason)
  else world.enter e run (.releasing work.execution)

def World.advance (e : Nat) (run : Run) (choice : Choice) : World :=
  match run.phase with
  | .starting =>
    match world.review with
    | none => world.enter e run (.done (.error (.plan .notFound)))
    | some review =>
      match (setup.simulations review.simulationId).filter (·.digest = review.simulationDigest) with
      | none => world.enter e run (.done (.error (.plan .notFound)))
      | some approved => world.enter e run (.loading review approved)
  | .loading review approved =>
    match world.execution with
    | none => world.enter e run (.creating review approved)
    | some execution => world.enter e run (opened run.now review approved execution)
  | .creating review approved =>
    { world with
      execution := world.execution.or
        (some (.fresh review.simulationId approved.digest run.startedBy run.now)) }.enter e run
      (.rereading review approved)
  | .rereading review approved =>
    match world.execution with
    | none => world.enter e run (.done (.error (.plan (.store "plan execution vanished after write"))))
    | some execution => world.enter e run (opened run.now review approved execution)
  | .claiming review approved execution =>
    world.save e run (execution.claim (setup.uuid e) run.now) fun saved =>
      if review.decision = .grant then enterLoop setup approved (producedBy setup saved) saved
      else .unapproved saved
  | .unapproved execution =>
    world.save e run (execution.stop .notApproved 0 run.now) fun saved => .done (.ok saved)
  | .looking work =>
    match world.instances (setup.key work.execution.nextStep) with
    | none => world.enter e run (.checking work)
    | some stored =>
      if isPlanned setup.plan work.step stored then world.enter e run (.renewing work .replay)
      else world.enter e run (.halting work .stepMismatch)
  | .checking work => world.enter e run ((checkFresh work choice).phase work)
  | .checkingParked work parked => world.enter e run ((checkParked work parked choice).phase work)
  | .renewing work call =>
    world.save e run (work.execution.renew choice.clock) fun saved => .calling { work with execution := saved } call
  | .calling work call => world.call setup e run work choice.port call
  | .recording work admitted revisionAfter =>
    world.save e run (work.execution.record admitted revisionAfter run.now) fun saved =>
      enterLoop setup work.approved ((work.step.objectId, revisionAfter) :: work.produced) saved
  | .halting work reason =>
    world.enter e run (haltPhase setup work reason (world.instances (setup.key work.execution.nextStep)))
  | .closing work reason => world.close setup e run work reason choice.closingId
  | .stopping work reason =>
    world.save e run (work.execution.stop reason work.execution.nextStep run.now) fun saved => .done (.ok saved)
  | .releasing execution => world.save e run execution.release fun saved => .done (.ok saved)
  | .completing execution =>
    world.save e run (execution.complete run.now).release fun saved => .done (.ok saved)
  | .superseded =>
    match world.execution with
    | none => world.enter e run (.done (.error (.plan .notFound)))
    | some current => world.enter e run (.done (.error (.superseded current)))
  | .done _ => world

inductive Action where
  | start (startedBy : String) (now : Int)
  | advance (e : Nat) (choice : Choice)
  | fail (e : Nat) (error : String)
  | submitReview (simulationId simulationDigest : String)
  | decideReview (granted : Bool)
  | otherSubmits (key : String) (written : ActionInstance)
  | otherDecides (key : String) (status : InstanceStatus)

def step : Action → World
  | .start startedBy now =>
    { world with
      runs := update world.runs world.started (some ⟨startedBy, now, .starting⟩)
      started := world.started + 1 }
  | .advance e choice =>
    match world.runs e with
    | none => world
    | some run => world.advance setup e run choice
  | .fail e error =>
    match world.runs e with
    | none => world
    | some run =>
      match run.phase with
      | .done _ => world
      | _ => world.enter e run (.done (.error (.plan (.store error))))
  | .submitReview simulationId simulationDigest =>
    { world with review := world.review.or (some ⟨simulationId, simulationDigest, .undecided⟩) }
  | .decideReview granted =>
    { world with
      review := world.review.map fun review =>
        if review.decision = .undecided then { review with decision := if granted then .grant else .deny }
        else review }
  | .otherSubmits key written =>
    match world.instances key with
    | some _ => world
    | none => world.record key written none
  | .otherDecides key status =>
    match world.instances key with
    | none => world
    | some stored => if stored.status = .parked then world.record key { stored with status } none else world

end

end SekaiChisei.Plans
