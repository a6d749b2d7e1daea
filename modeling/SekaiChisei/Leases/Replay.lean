import SekaiChisei.Leases.Fenced

/-!
A request id is bound by the first call that ends well, under a namespace and key; from then on it answers with the
stored response or with a conflict.
-/

namespace SekaiChisei.Leases
open Lib Objects List Option

/-- What a request id is bound to. Of an update it is the target and the object of the request; the site
counts without the blanks around it. -/
inductive Inputs where
  | acquire (owner : String) (ttlMs : Int) (siteId : String)
  | refresh (token : String) (ttlMs : Int) (siteId : String)
  | release (token siteId : String)
  | takeover (owner expectedToken : String) (expectedExpiresAtMs ttlMs : Int) (siteId : String)
  | create (token : String) (object : Object)
  | update (token targetId : String) (requestObject : Object)
  | delete (token objectId : String)
  deriving DecidableEq

def Request.inputs : Request → Inputs
  | acquire owner ttlMs siteId => .acquire owner ttlMs (trim siteId)
  | refresh token ttlMs siteId => .refresh token ttlMs (trim siteId)
  | release token siteId => .release token (trim siteId)
  | takeover owner expectedToken expectedExpiresAtMs ttlMs siteId =>
    .takeover owner expectedToken expectedExpiresAtMs ttlMs (trim siteId)
  | create token object => .create token object
  | update token object requestObject => .update token object.id requestObject
  | delete token objectId => .delete token objectId

def Inputs.hashed : Inputs → Option String
  | acquire .. | refresh .. | release .. | takeover .. => none
  | create token object => some (guardedText .create object.id token (canonicalObjectInput object))
  | update token targetId requestObject =>
    some (guardedText .update targetId token (canonicalObjectInput requestObject))
  | delete token objectId => some (guardedText .delete objectId token (Json.string objectId))

def NulFree (text : String) : Prop := '\x00' ∉ text.toList

def Inputs.Clean : Inputs → Prop
  | acquire owner _ _ => NulFree owner
  | refresh token _ _ => NulFree token
  | release token _ => NulFree token
  | takeover owner expectedToken _ _ _ => NulFree owner ∧ NulFree expectedToken
  | create token _ => NulFree token
  | update token _ _ => NulFree token
  | delete token _ => NulFree token

theorem nulFree_of_validateText {value name : String} (run : validateText value name = .ok ()) : NulFree value := by
  rw [validateText, ite_error_eq_ok] at run
  intro nul
  exact run.1 (.inr (.inr nul))

variable {nameSpace requestId : String}

theorem nulFree_of_validate {key owner : String} {ttlMs : Int}
    (run : validate nameSpace key owner ttlMs requestId = .ok ()) : NulFree owner := by
  rw [validate, check_eq_ok, check_eq_ok, check_eq_ok] at run
  exact nulFree_of_validateText run.2.2.1

theorem nulFree_of_guardedCheck {key token : String}
    (run : guardedCheck nameSpace key token requestId = .ok ()) : NulFree token := by
  rw [guardedCheck, check_eq_ok, check_eq_ok, check_eq_ok] at run
  exact nulFree_of_validateText run.2.2.1

theorem nulFree_number (n : Int) : NulFree (toString n) := by
  intro nul
  have digit := Json.mem_number (n := n) nul
  exact absurd digit (by decide)

theorem number_append_inj {m n : Int} {a b : String}
    (same : toString m ++ ("\x00" ++ a) = toString n ++ ("\x00" ++ b)) :
    m = n ∧ a = b := by
  obtain ⟨numbers, rest⟩ := nul_append_inj (nulFree_number _) (nulFree_number _) same
  exact ⟨Int.repr_inj.mp numbers, rest⟩

theorem Call.inputs_clean {call : Call} (checked : call.check = .ok ()) : call.request.inputs.Clean := by
  obtain ⟨nameSpace, key, requestId, request⟩ := call
  cases request with
  | acquire owner ttlMs siteId | refresh token ttlMs siteId =>
    rw [Call.check, check_eq_ok] at checked
    exact nulFree_of_validate checked.1
  | release token siteId =>
    rw [Call.check, check_eq_ok] at checked
    exact nulFree_of_guardedCheck checked.1
  | takeover owner expectedToken expectedExpiresAtMs ttlMs siteId =>
    rw [Call.check, check_eq_ok, check_eq_ok] at checked
    exact ⟨nulFree_of_validate checked.1, nulFree_of_validateText checked.2.1⟩
  | create token object =>
    rw [Call.check, ite_error_eq_ok, ite_error_eq_ok] at checked
    exact nulFree_of_guardedCheck checked.2.2
  | update token object requestObject =>
    rw [Call.check, ite_error_eq_ok] at checked
    exact nulFree_of_guardedCheck checked.2
  | delete token objectId => exact nulFree_of_guardedCheck checked

theorem canonicalObjectInput_inj {a b : Object} (same : canonicalObjectInput a = canonicalObjectInput b) : a = b := by
  have items := Json.array_inj (a := objectItems a) (b := objectItems b) rfl same
  simp only [objectItems, cons.injEq, Json.Item.string.injEq, Json.Item.fields.injEq,
    Json.Item.number.injEq, and_true] at items
  obtain ⟨id, kind, name, nameSpace, externalId, entries, created, updated⟩ := items
  obtain ⟨_, _, _, _, _, ⟨_, _⟩, _, _⟩ := b
  subst id kind name nameSpace externalId entries created updated
  rfl

theorem guardedText_inj {operation : GuardedOperation} {targetId token token' input input' : String}
    (clean : NulFree token) (clean' : NulFree token')
    (same : guardedText operation targetId token input = guardedText operation targetId token' input') :
    token = token' ∧ input = input' := by
  simp only [guardedText, String.append_assoc] at same
  have chars := congrArg String.toList same
  simp only [String.toList_append, append_cancel_left_eq] at chars
  refine nul_append_inj clean clean' (String.toList_injective ?_)
  simpa only [String.toList_append] using chars

section Digests
variable {sha256 : String → String} {a b : Request} {hashed : Set String}

theorem guardedDigest_inj {operation : GuardedOperation} {targetId targetId' token token' input input' : String}
    (collisionFree : Set.InjOn sha256 hashed) (clean : NulFree token) (clean' : NulFree token')
    (inA : guardedText operation targetId token input ∈ hashed)
    (inB : guardedText operation targetId' token' input' ∈ hashed)
    (same : targetId = targetId' ∧ guardedMutationDigest sha256 operation targetId token input =
      guardedMutationDigest sha256 operation targetId' token' input') :
    targetId = targetId' ∧ token = token' ∧ input = input' := by
  obtain ⟨rfl, digest⟩ := same
  exact ⟨rfl, guardedText_inj clean clean' (collisionFree inA inB digest)⟩

/-- The request tables tell requests with different inputs apart. -/
theorem inputs_eq_of_binding (collisionFree : Set.InjOn sha256 hashed)
    (cleanA : a.inputs.Clean) (cleanB : b.inputs.Clean) (inA : ∀ text ∈ a.inputs.hashed, text ∈ hashed)
    (inB : ∀ text ∈ b.inputs.hashed, text ∈ hashed)
    (same : a.binding sha256 = b.binding sha256) : a.inputs = b.inputs := by
  cases a with
  | acquire owner ttlMs siteId =>
    cases b with
    | acquire owner' ttlMs' siteId' =>
      simp only [Request.binding, Binding.lease.injEq, true_and, String.append_assoc] at same
      obtain ⟨rfl, rest⟩ := nul_append_inj cleanA cleanB same
      obtain ⟨rfl, sites⟩ := number_append_inj rest
      rw [Request.inputs, Request.inputs, sites]
    | _ => simp [Request.binding] at same
  | refresh token ttlMs siteId =>
    cases b with
    | refresh token' ttlMs' siteId' =>
      simp only [Request.binding, Binding.lease.injEq, true_and, String.append_assoc] at same
      obtain ⟨rfl, rest⟩ := nul_append_inj cleanA cleanB same
      obtain ⟨rfl, sites⟩ := number_append_inj rest
      rw [Request.inputs, Request.inputs, sites]
    | _ => simp [Request.binding] at same
  | release token siteId =>
    cases b with
    | release token' siteId' =>
      simp only [Request.binding, Binding.lease.injEq, true_and, String.append_assoc] at same
      obtain ⟨rfl, sites⟩ := nul_append_inj cleanA cleanB same
      rw [Request.inputs, Request.inputs, sites]
    | _ => simp [Request.binding] at same
  | takeover owner expectedToken expectedExpiresAtMs ttlMs siteId =>
    cases b with
    | takeover owner' expectedToken' expectedExpiresAtMs' ttlMs' siteId' =>
      simp only [Request.binding, Binding.lease.injEq, true_and, String.append_assoc] at same
      obtain ⟨rfl, afterOwner⟩ := nul_append_inj cleanA.1 cleanB.1 same
      obtain ⟨rfl, afterToken⟩ := nul_append_inj cleanA.2 cleanB.2 afterOwner
      obtain ⟨rfl, afterExpiry⟩ := number_append_inj afterToken
      obtain ⟨rfl, sites⟩ := number_append_inj afterExpiry
      rw [Request.inputs, Request.inputs, sites]
    | _ => simp [Request.binding] at same
  | create token object =>
    cases b with
    | create token' object' =>
      simp only [Request.binding, Binding.guarded.injEq, true_and] at same
      obtain ⟨target, rfl, inputs⟩ := guardedDigest_inj collisionFree cleanA cleanB (inA _ rfl) (inB _ rfl) same
      rw [Request.inputs, Request.inputs, canonicalObjectInput_inj inputs]
    | _ => simp [Request.binding] at same
  | update token object requestObject =>
    cases b with
    | update token' object' requestObject' =>
      simp only [Request.binding, Binding.guarded.injEq, true_and] at same
      obtain ⟨target, rfl, inputs⟩ := guardedDigest_inj collisionFree cleanA cleanB (inA _ rfl) (inB _ rfl) same
      rw [Request.inputs, Request.inputs, canonicalObjectInput_inj inputs, target]
    | _ => simp [Request.binding] at same
  | delete token objectId =>
    cases b with
    | delete token' objectId' =>
      simp only [Request.binding, Binding.guarded.injEq, true_and] at same
      obtain ⟨rfl, rfl, _⟩ := guardedDigest_inj collisionFree cleanA cleanB (inA _ rfl) (inB _ rfl) same
      rfl
    | _ => simp [Request.binding] at same

theorem binding_eq_of_inputs (same : a.inputs = b.inputs) : a.binding sha256 = b.binding sha256 := by
  cases a <;> cases b <;> simp_all [Request.inputs, Request.binding]

end Digests

section Bound
variable {sha256 : String → String} {db db' : LeaseDb} {call : Call} {context : Context}
  {response : Response} {event : Event} {entry : Binding × Response}

theorem stored_of_prefix (requests : db.requests <+: db'.requests)
    (mutations : db.mutations <+: db'.mutations) (found : db.stored call = some entry) :
    db'.stored call = some entry := by
  obtain ⟨moreRequests, requests⟩ := requests
  obtain ⟨moreMutations, mutations⟩ := mutations
  unfold LeaseDb.stored at found ⊢
  split at found
  · obtain ⟨row, bound, same⟩ := map_eq_some_iff.mp found
    have kept := Table.find_append_of_some bound moreRequests
    rw [requests] at kept
    rw [LeaseDb.findRequest, kept, ← same]
    rfl
  · obtain ⟨row, bound, same⟩ := map_eq_some_iff.mp found
    have kept := Table.find_append_of_some bound moreMutations
    rw [mutations] at kept
    rw [LeaseDb.findMutation, kept, ← same]
    rfl

theorem next_grows :
    db.requests <+: (db.next sha256 event).requests ∧ db.mutations <+: (db.next sha256 event).mutations := by
  cases event with
  | other tables => exact ⟨prefix_rfl, prefix_rfl⟩
  | call call context =>
    rcases next_call sha256 db call context with same | ⟨response, served⟩
    · rw [same]
      exact ⟨prefix_rfl, prefix_rfl⟩
    · generalize db.next sha256 (.call call context) = after at served ⊢
      cases served with
      | leased unguarded bound performed =>
        obtain ⟨moved, _, _⟩ := performed
        refine ⟨?_, moved.mutations ▸ prefix_rfl⟩
        rw [← moved.requests]
        exact prefix_append _ _
      | committed guarded bound held unexpired => exact ⟨prefix_rfl, prefix_append _ _⟩

theorem run_stored (events : List Event)
    (found : db.stored call = some entry) : (db.run sha256 events).stored call = some entry := by
  induction events using List.reverseRecOn with
  | nil => exact found
  | append_singleton events event ih =>
    rw [run_snoc]
    obtain ⟨requests, mutations⟩ := next_grows
    exact stored_of_prefix requests mutations ih

theorem stored_of_serve (run : db.serve sha256 call context = .ok (db', response)) :
    db'.stored call = some (call.request.binding sha256, response) := by
  cases stored : db.stored call with
  | some found =>
    obtain ⟨binding, kept⟩ := found
    rw [serve_of_stored stored, check_eq_ok] at run
    obtain ⟨_, run⟩ := run
    split at run
    · rename_i same
      cases run
      rw [stored, same]
    · cases run
  | none =>
    cases serve_of_free stored run with
    | @leased operation digest lease mid unguarded bound performed =>
      obtain ⟨moved, _, _⟩ := performed
      rw [LeaseDb.stored, unguarded] at stored ⊢
      rw [bound]
      have free := map_eq_none_iff.mp stored
      rw [LeaseDb.findRequest, ← moved.requests] at free
      have found := Table.find_append_self
        (requestRow call.nameSpace call.key call.requestId operation digest lease) free
      exact congrArg (Option.map _) found
    | @committed operation targetId digest token lease tables object guarded bound held unexpired =>
      rw [LeaseDb.stored, guarded] at stored ⊢
      rw [bound]
      have free := map_eq_none_iff.mp stored
      have found := Table.find_append_self (mutationRow call.nameSpace call.key call.requestId
        operation targetId digest object lease.generation context) free
      exact congrArg (Option.map _) found

end Bound

def Call.SameScope (first second : Call) : Prop :=
  second.nameSpace = first.nameSpace ∧ second.key = first.key ∧ second.requestId = first.requestId ∧
    second.request.guardToken.isSome = first.request.guardToken.isSome

theorem stored_of_sameScope {first second : Call} (scope : first.SameScope second) (db : LeaseDb) :
    db.stored second = db.stored first := by
  obtain ⟨nameSpace, key, requestId, kind⟩ := scope
  unfold LeaseDb.stored
  rw [nameSpace, key, requestId]
  cases tokenA : first.request.guardToken <;> cases tokenB : second.request.guardToken
  · rfl
  · simp [tokenA, tokenB] at kind
  · simp [tokenA, tokenB] at kind
  · rfl

/-- After a call that ended well, every later call with its request id answers from the stored row: with the first
response if its inputs are the same, with a conflict if they differ. -/
theorem request_answered_once (sha256 : String → String) (tables : ObjectTables)
    (before between : List Event) (first second : Call) (context context' : Context)
    {db' : LeaseDb} {response : Response} (scope : first.SameScope second) (collisionFree : Set.InjOn sha256
      {text | text ∈ first.request.inputs.hashed ∨ text ∈ second.request.inputs.hashed})
    (ended : ((LeaseDb.empty tables).run sha256 before).serve sha256 first context = .ok (db', response)) :
    let db := (LeaseDb.empty tables).run sha256 (before ++ .call first context :: between)
    db.next sha256 (.call second context') = db ∧
      (second.request = first.request → db.serve sha256 second context' = .ok (db, response)) ∧
      db.serve sha256 second context' = second.check >>= fun _ =>
        if second.request.inputs = first.request.inputs then .ok (db, response)
        else .error (.conflict second.conflictMessage) := by
  intro db
  have after : db = db'.run sha256 between := by
    show (LeaseDb.empty tables).run sha256 (before ++ .call first context :: between) = _
    rw [run_append]
    show (((LeaseDb.empty tables).run sha256 before).next sha256 (.call first context)).run sha256 between = _
    rw [LeaseDb.next, ended]
  have found : db.stored second = some (first.request.binding sha256, response) := by
    rw [stored_of_sameScope scope, after]
    exact run_stored between (stored_of_serve ended)
  have checked := check_of_serve ended
  have answer : db.serve sha256 second context' = second.check >>= fun _ =>
      if second.request.inputs = first.request.inputs then .ok (db, response)
      else .error (.conflict second.conflictMessage) := by
    rw [serve_of_stored found]
    cases passes : second.check with
    | error e => rfl
    | ok =>
      have bound : first.request.binding sha256 = second.request.binding sha256 ↔
          second.request.inputs = first.request.inputs := by
        constructor
        · intro same
          exact (inputs_eq_of_binding collisionFree (Call.inputs_clean checked)
            (Call.inputs_clean passes) (fun text member => .inl member)
            (fun text member => .inr member) same).symm
        · intro same
          exact (binding_eq_of_inputs same).symm
      show ite _ _ _ = ite _ _ _
      simp only [bound]
  refine ⟨?_, ?_, answer⟩
  · rw [LeaseDb.next, answer]
    cases second.check with
    | error e => rfl
    | ok =>
      by_cases same : second.request.inputs = first.request.inputs
      · simp [bind, Except.bind, same]
      · simp [bind, Except.bind, same]
  · intro same
    have passes : second.check = .ok () := by
      obtain ⟨nameSpace, key, requestId, _⟩ := scope
      unfold Call.check at checked ⊢
      rw [nameSpace, key, requestId, same]
      exact checked
    rw [answer, passes, same]
    exact if_pos rfl

def firstAcquire : Event := .call ⟨"n", "k", "one", .acquire "a" 10 "local"⟩ (contextAt 100 "t1")

def guardedCreate (id : String) : Call := ⟨"n", "k", "w1", .create "t1" (component id)⟩

def takenOver : Event :=
  .call ⟨"n", "k", "two", .takeover "b" "t1" 110 10 "local"⟩ (contextAt 110 "t2")

/-- A guarded write repeated after its lease was taken over, and its request id with another object. -/
theorem request_answered_once_takenOver : ∃ db' response,
      ((LeaseDb.empty .empty).run id [firstAcquire]).serve id (guardedCreate "o1")
        (contextAt 105 "u1") = .ok (db', response) ∧
      let db := (LeaseDb.empty .empty).run id
        [firstAcquire, .call (guardedCreate "o1") (contextAt 105 "u1"), takenOver]
      db.serve id (guardedCreate "o1") (contextAt 200 "u2") = .ok (db, response) ∧
        db.next id (.call (guardedCreate "o2") (contextAt 200 "u3")) = db := by
  cases ended : ((LeaseDb.empty .empty).run id [firstAcquire]).serve id (guardedCreate "o1") (contextAt 105 "u1") with
  | error e =>
    have ok : (((LeaseDb.empty .empty).run id [firstAcquire]).serve id (guardedCreate "o1")
      (contextAt 105 "u1")).isOk = true := by decide +kernel
    rw [ended] at ok
    cases ok
  | ok result =>
    obtain ⟨db', response⟩ := result
    have repeated := request_answered_once id .empty [firstAcquire] [takenOver]
      (guardedCreate "o1") (guardedCreate "o1") (contextAt 105 "u1") (contextAt 200 "u2")
      ⟨rfl, rfl, rfl, rfl⟩ Function.injective_id.injOn ended
    have changed := request_answered_once id .empty [firstAcquire] [takenOver]
      (guardedCreate "o1") (guardedCreate "o2") (contextAt 105 "u1") (contextAt 200 "u3")
      ⟨rfl, rfl, rfl, rfl⟩ Function.injective_id.injOn ended
    exact ⟨db', response, rfl, repeated.2.1 rfl, changed.1⟩

/-- One request id, sent with an acquire, with an acquire on another key and with a guarded write. -/
def reusedRequestId : List Event :=
  [.call ⟨"n", "k", "one", .acquire "a" 10 "local"⟩ (contextAt 100 "t1"),
    .call ⟨"n", "l", "one", .acquire "b" 20 "local"⟩ (contextAt 101 "t2"),
    .call ⟨"n", "k", "one", .create "t1" (component "o1")⟩ (contextAt 102 "u1")]

/-- All three take effect, and none is a conflict. -/
theorem reusedRequestId_takes_effect : ((LeaseDb.empty .empty).run id reusedRequestId).requests.map
        (fun row => (row.key, row.requestId)) = [("k", "one"), ("l", "one")] ∧
      ((LeaseDb.empty .empty).run id reusedRequestId).mutations.map
        (fun row => (row.key, row.requestId)) = [("k", "one")] := by
  decide +kernel

end SekaiChisei.Leases
