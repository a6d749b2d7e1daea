import SekaiChisei.Lib.Fallible
import SekaiChisei.Lib.OrderedMap
import SekaiChisei.Lib.Text
import SekaiChisei.Lib.Trace

/-!
Identity reconciliation, `sekai/deduplication.rs` and `db/postgres_deduplication.rs`. The stores list decisions in
different orders and word some errors differently.
-/

namespace SekaiChisei.Reconciliation
open Lib

inductive Backend where
  | sqlite
  | postgres

inductive ReconciliationAction where
  | merge | alias | split | suppress | conflict
  deriving DecidableEq

structure ReconciliationCandidate where
  (objectId source : String)
  precedence : Int32
  authoritative : Bool
  deriving DecidableEq

structure ReconciliationRequest where
  (nameSpace kind externalIdentity : String)
  candidates : List ReconciliationCandidate
  action : ReconciliationAction
  subjects : List String
  canonicalObjectId : Option String
  (actor reason idempotencyKey : String)

structure ReconciliationDecision where
  (id caseId : String)
  action : ReconciliationAction
  subjects : List String
  canonicalObjectId : Option String
  (actor reason : String)
  reversesDecisionId : Option String
  createdAtMs : Int

inductive ReconciliationDisposition where
  | independent
  | mergedInto (objectId : String)
  | aliasOf (objectId : String)
  | suppressed
  | conflict
  deriving DecidableEq

structure CaseRow where
  (id nameSpace kind externalIdentity : String)

structure IdempotencyRow where
  (nameSpace operation key requestDigest resultId : String)

structure Store where
  cases : List CaseRow
  candidates : List (String × ReconciliationCandidate)
  decisions : List ReconciliationDecision
  idempotency : List IdempotencyRow

def Store.empty : Store := ⟨[], [], [], []⟩

abbrev Refusal := Backend → String

def both (text : String) : Refusal := fun _ => text

def check (fine : Prop) [Decidable fine] (refusal : Refusal) : Except Refusal Unit :=
  if ¬ fine then .error refusal else .ok ()

def requireValue (field : String × String) : Except Refusal Unit :=
  check (trim field.2 ≠ "") (both (field.1 ++ " must not be empty"))

/-- PostgreSQL's own `require`. -/
def require (field : String × String) : Except Refusal Unit :=
  check (trim field.2 ≠ "") fun
    | .sqlite => field.1 ++ " must not be empty"
    | .postgres => field.1 ++ " is required"

def normalizedSubjects (subjects : List String) : List String := subjects.dedup.insertionSort (· ≤ ·)

def ReconciliationAction.hasCanonical : ReconciliationAction → Bool
  | .merge | .alias => true
  | .split | .suppress | .conflict => false

variable (request : ReconciliationRequest)

def checkCanonical : Except Refusal Unit :=
  if request.action.hasCanonical then
    match request.canonicalObjectId with
    | none => .error (both "merge and alias require a canonical object")
    | some canonical =>
      check (canonical ∈ request.candidates.map (·.objectId) ∧ canonical ∈ normalizedSubjects request.subjects)
        (both "canonical object must be an affected candidate")
  else check (request.canonicalObjectId = none) (both "only merge and alias accept a canonical object")

def validateReconciliationRequest : Except Refusal Unit := do
  [("namespace", request.nameSpace), ("kind", request.kind), ("external_identity", request.externalIdentity),
    ("actor", request.actor), ("reason", request.reason), ("idempotency_key", request.idempotencyKey)].forM requireValue
  check (2 ≤ request.candidates.length) (both "reconciliation requires at least two candidates")
  check (request.candidates.map (·.objectId)).Nodup (both "reconciliation candidates must be unique")
  request.candidates.forM fun candidate =>
    [("candidate.object_id", candidate.objectId), ("candidate.source", candidate.source)].forM requireValue
  check (normalizedSubjects request.subjects ≠ [] ∧
      ∀ subject ∈ normalizedSubjects request.subjects, subject ∈ request.candidates.map (·.objectId))
    (both "reconciliation subjects must be non-empty candidates")
  checkCanonical request

/-- The namespaces and kinds of the objects that are there. -/
abbrev Objects := String → Option (String × String)

def validateCandidateObjects (objects : Objects) (request : ReconciliationRequest) : Except Refusal Unit :=
  request.candidates.forM fun candidate =>
    match objects candidate.objectId with
    | none => .error fun
      -- `{:?}` on SQLite
      | .sqlite => "candidate object " ++ candidate.objectId.quote ++ " not found"
      | .postgres => "candidate object " ++ candidate.objectId ++ " not found"
    | some object => check (object = (request.nameSpace, request.kind))
        (both "reconciliation candidates must share the requested namespace and kind")

/-- The database's own errors, in short. -/
def duplicateKey : Refusal
  | .sqlite => "UNIQUE constraint failed"
  | .postgres => "duplicate key value violates unique constraint"

def noRow : Refusal
  | .sqlite => "Query returned no rows"
  | .postgres => "query returned an unexpected number of rows"

variable (store : Store)

def ensureReconciliationCase (request : ReconciliationRequest) (id : String) :
    Except Refusal (Store × String) :=
  match store.cases.find? fun row =>
      (row.nameSpace, row.kind, row.externalIdentity) = (request.nameSpace, request.kind, request.externalIdentity) with
  | some row => .ok (store, row.id)
  | none =>
    if store.cases.any (·.id = id) then .error duplicateKey
    else
      .ok ({ store with
        cases := store.cases ++ [⟨id, request.nameSpace, request.kind, request.externalIdentity⟩] }, id)

def immutableCandidate : Refusal
  | .sqlite => "reconciliation candidate provenance is immutable"
  | .postgres => "reconciliation candidate metadata cannot be changed"

def persistCandidate (caseId : String) (rows : List (String × ReconciliationCandidate))
    (candidate : ReconciliationCandidate) : Except Refusal (List (String × ReconciliationCandidate)) :=
  match rows.find? fun row => row.1 = caseId ∧ row.2.objectId = candidate.objectId with
  | some row => if row.2 = candidate then .ok rows else .error immutableCandidate
  | none => .ok (rows ++ [(caseId, candidate)])

def validateAuthority (rows : List (String × ReconciliationCandidate)) (caseId : String)
    (request : ReconciliationRequest) : Except Refusal Unit :=
  let authoritative := (rows.filter fun row => row.1 = caseId ∧ row.2.authoritative).map Prod.snd
  let winners := authoritative.filter fun row => authoritative.all fun other => other.precedence ≤ row.precedence
  if request.action.hasCanonical ∧ authoritative ≠ [] then
    check (winners.map (fun row => some row.objectId) = [request.canonicalObjectId])
      (both "conflicting authoritative mappings require an explicit conflict decision")
  else .ok ()

def checkIdempotency (nameSpace operation key digest : String) : Except Refusal (Option String) :=
  match store.idempotency.find? fun row => (row.nameSpace, row.operation, row.key) = (nameSpace, operation, key) with
  | none => .ok none
  | some row =>
    if row.requestDigest = digest then .ok (some row.resultId)
    else .error fun
      | .sqlite => "idempotency key was reused with a different canonical request digest"
      | .postgres => "idempotency key was reused with a different request"

/-- The decision and its idempotency row; the id is a primary key. -/
def record (decision : ReconciliationDecision) (row : IdempotencyRow) : Except Refusal Store := do
  check (decision.id ∉ store.decisions.map (·.id)) duplicateKey
  check ((store.idempotency.countP fun old =>
      (old.nameSpace, old.operation, old.resultId) = (row.nameSpace, row.operation, row.resultId)) < 16)
    (both "idempotency alias capacity exceeded")
  return { store with decisions := store.decisions ++ [decision], idempotency := store.idempotency ++ [row] }

structure Digests where
  request : ReconciliationRequest → String
  reversal : String → String → String → String

/-- What a call draws and finds outside the tables. -/
structure Context where
  (decisionUuid caseUuid : String)
  objects : Objects
  nowMs : Int

def Context.decisionId (context : Context) : String := "reconciliation-" ++ context.decisionUuid

def loadReconciliationDecision (id : String) : Option ReconciliationDecision :=
  store.decisions.find? (·.id = id)

/-- A repeated request changes nothing, and is an error where its decision is gone. -/
def replay (id missing : String) : Except Refusal Store :=
  match loadReconciliationDecision store id with
  | none => .error (both missing)
  | some _ => .ok store

def ReconciliationRequest.decision (caseId : String) (context : Context) :
    ReconciliationDecision where
  id := context.decisionId
  caseId
  action := request.action
  subjects := normalizedSubjects request.subjects
  canonicalObjectId := request.canonicalObjectId
  actor := request.actor
  reason := request.reason
  reversesDecisionId := none
  createdAtMs := context.nowMs

variable (digests : Digests)

def reconcileObjects (store : Store) (request : ReconciliationRequest) (context : Context) : Except Refusal Store := do
  validateReconciliationRequest request
  let digest := digests.request request
  match ← checkIdempotency store request.nameSpace "object.reconcile" request.idempotencyKey digest with
  | some id => replay store id "idempotency record references missing reconciliation"
  | none => do
    validateCandidateObjects context.objects request
    let (store, caseId) ← ensureReconciliationCase store request ("reconciliation-case-" ++ context.caseUuid)
    let candidates ← request.candidates.foldlM (persistCandidate caseId) store.candidates
    validateAuthority candidates caseId request
    record { store with candidates } (request.decision caseId context)
      ⟨request.nameSpace, "object.reconcile", request.idempotencyKey, digest, context.decisionId⟩

def isReversed (decisions : List ReconciliationDecision) (id : String) : Bool :=
  some id ∈ decisions.map (·.reversesDecisionId)

def reverseReconciliation (store : Store) (decisionId actor reason idempotencyKey : String)
    (context : Context) : Except Refusal Store := do
  [("decision_id", decisionId), ("actor", actor), ("reason", reason), ("idempotency_key", idempotencyKey)].forM require
  match loadReconciliationDecision store decisionId with
  | none => .error (both "reconciliation decision not found")
  | some original => do
    check (original.reversesDecisionId = none) (both "reversal decisions cannot themselves be reversed")
    match store.cases.find? (·.id = original.caseId) with
    | none => .error noRow
    | some row => do
      let digest := digests.reversal decisionId actor reason
      match ← checkIdempotency store row.nameSpace "object.reconcile.reverse" idempotencyKey digest with
      | some id => replay store id "idempotency record references missing reversal"
      | none => do
        check (¬ isReversed store.decisions decisionId) (both "reconciliation decision is already reversed")
        record store
          { id := context.decisionId, caseId := original.caseId, action := .split, subjects := []
            canonicalObjectId := none, actor, reason, reversesDecisionId := some decisionId
            createdAtMs := context.nowMs }
          ⟨row.nameSpace, "object.reconcile.reverse", idempotencyKey, digest, context.decisionId⟩

abbrev CaseState := OrderedMap String ReconciliationDisposition

def setAll (state : CaseState) (subjects : List String) (disposition : String → ReconciliationDisposition) :
    CaseState :=
  subjects.foldl (fun state subject => state.adjust subject .independent fun _ => disposition subject) state

def intoCanonical (action : ReconciliationAction) (canonical subject : String) : ReconciliationDisposition :=
  if subject = canonical then .independent
  else if action = .merge then .mergedInto canonical
  else .aliasOf canonical

def applyDecision (state : CaseState) (decision : ReconciliationDecision) : Except Refusal CaseState :=
  match decision.action with
  | .merge | .alias =>
    match decision.canonicalObjectId with
    | none => .error (both "stored reconciliation lacks canonical object")
    | some canonical => .ok (setAll state decision.subjects (intoCanonical decision.action canonical))
  | .split => .ok (setAll state decision.subjects fun _ => .independent)
  | .suppress => .ok (setAll state decision.subjects fun _ => .suppressed)
  | .conflict => .ok (setAll state decision.subjects fun _ => .conflict)

/-- By `rowid` on SQLite, by `created_at_ms,id` on PostgreSQL. -/
def listDecisions (backend : Backend) (store : Store) (caseId : String) : List ReconciliationDecision :=
  let rows := store.decisions.filter (·.caseId = caseId)
  match backend with
  | .sqlite => rows
  | .postgres => rows.insertionSort fun a b => toLex (a.createdAtMs, a.id) ≤ toLex (b.createdAtMs, b.id)

def isLive (decisions : List ReconciliationDecision) (decision : ReconciliationDecision) : Bool :=
  decision.reversesDecisionId = none && !isReversed decisions decision.id

def candidatesOf (caseId : String) : List String :=
  (store.candidates.filter (·.1 = caseId)).map (·.2.objectId)

def independentAll (objects : List String) : CaseState := setAll .empty objects fun _ => .independent

def reconciliationState (backend : Backend) (store : Store) (caseId : String) : Except Refusal CaseState := do
  require ("case_id", caseId)
  let objects := candidatesOf store caseId
  check (objects ≠ []) (both "reconciliation case not found")
  let decisions := listDecisions backend store caseId
  (decisions.filter (isLive decisions)).foldlM applyDecision (independentAll objects)

inductive Call where
  | reconcile (request : ReconciliationRequest) (context : Context)
  | reverse (decisionId actor reason idempotencyKey : String) (context : Context)

def serve (store : Store) : Call → Except Refusal Store
  | .reconcile request context => reconcileObjects digests store request context
  | .reverse decisionId actor reason idempotencyKey context =>
    reverseReconciliation digests store decisionId actor reason idempotencyKey context

/-- A call that fails leaves the tables as they were. -/
def next (store : Store) (call : Call) : Store :=
  match serve digests store call with
  | .ok store => store
  | .error _ => store

def storeAt (calls : List Call) (n : Nat) : Store := Trace.after (next digests) .empty calls n

end SekaiChisei.Reconciliation
