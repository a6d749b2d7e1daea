import SekaiChisei.Leases.Steps
import SekaiChisei.Lib.Fencing

/-!
Lease fencing. The lease tables refine fenced ownership: acquire and takeover grant, refresh and release
keep, a guarded write commits, and everything else leaves the holds alone.
-/

namespace SekaiChisei.Leases
open Lib Objects List Option Function

def Lease.hold (lease : Lease) : Fencing.Hold String String :=
  ⟨lease.generation, lease.fencingToken, lease.owner, lease.status = .active⟩

def LeaseAudit.issued (row : LeaseAudit) : Fencing.Grant (String × String) String :=
  ⟨(row.nameSpace, row.key), row.generation, row.fencingToken⟩

def LeaseAudit.grant? (row : LeaseAudit) : Option (Fencing.Grant (String × String) String) :=
  match row.operation with
  | .acquire | .takeover => some row.issued
  | .refresh | .release => none

def GuardedMutation.commit (row : GuardedMutation) : Fencing.Commit (String × String) :=
  ⟨(row.nameSpace, row.key), row.generation⟩

def LeaseDb.fenced (db : LeaseDb) : Fencing.State (String × String) String String where
  hold := fun at' => (db.readLease at'.1 at'.2).map Lease.hold
  grants := db.audit.filterMap LeaseAudit.grant?
  commits := db.mutations.map GuardedMutation.commit

variable {sha256 : String → String} {db db' mid : LeaseDb} {lease : Lease} {call : Call}
  {context : Context} {event : Event}

variable {nameSpace key : String}

theorem fenced_hold (held : db.readLease nameSpace key = some lease) :
    db.fenced.hold (nameSpace, key) = some lease.hold :=
  congrArg (Option.map Lease.hold) held

variable {operation : LeaseOperation}

section
variable (moved : Moved db operation lease mid)
include moved

theorem Moved.hold : mid.fenced.hold = update db.fenced.hold lease.rowKey (some lease.hold) := by
  funext at'
  by_cases same : at' = lease.rowKey
  · subst same
    rw [update_self]
    exact congrArg (Option.map Lease.hold) moved.self
  · rw [update_of_ne same]
    exact congrArg (Option.map Lease.hold) (moved.others at'.1 at'.2 same)

theorem Moved.commits : mid.fenced.commits = db.fenced.commits :=
  congrArg (List.map GuardedMutation.commit) moved.mutations

theorem Moved.grants : mid.fenced.grants = db.fenced.grants ++ if operation = .acquire ∨ operation = .takeover then
        [⟨lease.rowKey, lease.generation, lease.fencingToken⟩] else [] := by
  obtain ⟨before, actor, requestId, now, audit⟩ := moved.audit
  show mid.audit.filterMap LeaseAudit.grant? = _
  rw [audit, filterMap_append]
  cases operation <;> rfl

end

theorem nextGeneration_hold (previous : Option Lease) : Fencing.nextGeneration (previous.map Lease.hold) =
      (previous.map (·.generation + 1)).getD 1 := by
  cases previous <;> rfl

inductive Advance (event : Event) (db db' : LeaseDb) : Prop
  | idle (same : db'.fenced = db.fenced)
  | grant (key : String × String) (context : Context) (owner : String) (drawn : ∃ call, event = .call call context)
      (granted : db'.fenced = db.fenced.grant key context.uuid owner)
  | keep (key : String × String) (hold : Fencing.Hold String String) (active : Bool)
      (held : db.fenced.hold key = some hold) (was : active → hold.active)
      (kept : db'.fenced = db.fenced.set key { hold with active })
  | commit (key : String × String) (hold : Fencing.Hold String String)
      (held : db.fenced.hold key = some hold) (active : hold.active)
      (committed : db'.fenced = db.fenced.commit key hold.generation)

theorem performed_advance (performed : Performed db call.nameSpace call.key context.uuid operation lease mid) :
    Advance (.call call context) db mid := by
  obtain ⟨moved, keys, change⟩ := performed
  cases change with
  | granted grants generation token active =>
    refine .grant (call.nameSpace, call.key) context lease.owner ⟨call, rfl⟩ ?_
    have next : Fencing.nextGeneration (db.fenced.hold (call.nameSpace, call.key)) =
        lease.generation := (nextGeneration_hold _).trans generation.symm
    have written : lease.hold = ⟨lease.generation, context.uuid, lease.owner, true⟩ := by
      simp [Lease.hold, token, active]
    refine Fencing.State.ext ?_ ?_ moved.commits
    · rw [moved.hold, keys, written, ← next]
      rfl
    · rw [moved.grants, if_pos grants, keys, token, ← next]
      rfl
  | kept old keeps held active generation token owner =>
    have wasActive : old.hold.active := by simp [Lease.hold, active]
    refine .keep (call.nameSpace, call.key) old.hold lease.hold.active (fenced_hold held) (fun _ => wasActive) ?_
    have written : lease.hold = { old.hold with active := lease.hold.active } := by
      simp [Lease.hold, generation, token, owner]
    refine Fencing.State.ext ?_ ?_ moved.commits
    · rw [moved.hold, keys, written]
      rfl
    · have none : ¬ (operation = .acquire ∨ operation = .takeover) := by
        rcases keeps with rfl | rfl <;> simp
      rw [moved.grants, if_neg none, append_nil]
      rfl

theorem served_advance {response : Response} (served : Served sha256 db call context db' response) :
    Advance (.call call context) db db' := by
  cases served with
  | leased unguarded bound performed =>
    -- the request row is not part of the fenced state
    cases performed_advance performed with
    | idle same => exact .idle same
    | grant key other owner drawn granted => exact .grant key other owner drawn granted
    | keep key hold active held was kept => exact .keep key hold active held was kept
    | commit key hold held active committed => exact .commit key hold held active committed
  | committed guarded bound held unexpired =>
    obtain ⟨read, active, _⟩ := activeWithToken_eq_ok.mp held
    refine .commit _ _ (fenced_hold read) (by simp [Lease.hold, active]) ?_
    refine Fencing.State.ext rfl rfl ?_
    simp only [LeaseDb.fenced, map_append]
    rfl

section
variable (sha256) (db)

/-- The end of a call: it fails, replays, or does something for the first time. -/
theorem next_call (call : Call) (context : Context) : db.next sha256 (.call call context) = db ∨
      ∃ response, Served sha256 db call context (db.next sha256 (.call call context)) response := by
  cases run : db.serve sha256 call context with
  | error e =>
    left
    simp [LeaseDb.next, run]
  | ok result =>
    obtain ⟨after, response⟩ := result
    have ends : db.next sha256 (.call call context) = after := by simp [LeaseDb.next, run]
    cases stored : db.stored call with
    | none =>
      right
      rw [ends]
      exact ⟨response, serve_of_free stored run⟩
    | some found =>
      left
      rw [serve_of_stored stored, check_eq_ok] at run
      obtain ⟨_, run⟩ := run
      split at run
      · cases run
        exact ends
      · cases run

theorem next_advance (event : Event) : Advance event db (db.next sha256 event) := by
  cases event with
  | other tables => exact .idle rfl
  | call call context =>
    rcases next_call sha256 db call context with same | run
    · exact .idle (congrArg LeaseDb.fenced same)
    · obtain ⟨response, served⟩ := run
      exact served_advance served

end

theorem Advance.step (advance : Advance event db db')
    (fresh : ∀ call context, event = .call call context → ∀ grant ∈ db.fenced.grants, grant.token ≠ context.uuid) :
    Fencing.Step db.fenced db'.fenced := by
  cases advance with
  | idle same =>
    rw [same]
    exact .idle _
  | grant key context owner drawn granted =>
    obtain ⟨call, drawn⟩ := drawn
    rw [granted]
    exact .grant _ key context.uuid owner (fresh call context drawn)
  | keep key hold active held was kept =>
    rw [kept]
    exact .keep _ key hold active held was
  | commit key hold held active committed =>
    rw [committed]
    exact .commit _ key hold held active

def Event.uuid? : Event → Option String
  | .call _ context => some context.uuid
  | .other _ => none

def uuids (events : List Event) : List String := events.filterMap Event.uuid?

section
variable (sha256) {tables : ObjectTables}

theorem run_append (events more : List Event) :
    db.run sha256 (events ++ more) = (db.run sha256 events).run sha256 more :=
  foldl_append

theorem run_snoc {events : List Event} :
    db.run sha256 (events ++ [event]) = (db.run sha256 events).next sha256 event := by
  rw [run_append]
  rfl

theorem run_granted {events : List Event} :
    ∀ grant ∈ ((LeaseDb.empty tables).run sha256 events).fenced.grants, grant.token ∈ uuids events := by
  induction events using List.reverseRecOn with
  | nil =>
    intro grant none
    cases none
  | append_singleton events event ih =>
    intro grant member
    have more : uuids (events ++ [event]) = uuids events ++ uuids [event] :=
      filterMap_append
    rw [more, mem_append]
    rw [run_snoc] at member
    cases next_advance sha256 ((LeaseDb.empty tables).run sha256 events) event with
    | idle same =>
      rw [same] at member
      exact .inl (ih grant member)
    | grant key context owner drawn granted =>
      obtain ⟨call, rfl⟩ := drawn
      rw [granted] at member
      rcases mem_appended.mp member with old | rfl
      · exact .inl (ih grant old)
      · exact .inr mem_cons_self
    | keep key hold active held was kept =>
      rw [kept] at member
      exact .inl (ih grant member)
    | commit key hold held active committed =>
      rw [committed] at member
      exact .inl (ih grant member)

end

/-- A run refines the steps of fenced ownership, from any of its moments on. -/
theorem run_steps (before : List Event) {more : List Event} (fresh : (uuids (before ++ more)).Nodup) :
    Fencing.Steps ((LeaseDb.empty tables).run sha256 before).fenced
      ((LeaseDb.empty tables).run sha256 (before ++ more)).fenced := by
  induction more using List.reverseRecOn with
  | nil =>
    rw [append_nil]
  | append_singleton more event ih =>
    have split : uuids (before ++ (more ++ [event])) = uuids (before ++ more) ++ uuids [event] := by
      rw [← append_assoc]
      exact filterMap_append
    rw [split, nodup_append] at fresh
    obtain ⟨earlier, _, apart⟩ := fresh
    rw [← append_assoc, run_snoc]
    refine (ih earlier).tail ((next_advance sha256 _ event).step ?_)
    rintro call context rfl grant member
    exact apart _ (run_granted _ grant member) _ mem_cons_self

variable {events : List Event}

theorem run_inv (sha256 : String → String) (tables : ObjectTables) (fresh : (uuids events).Nodup) :
    Fencing.Inv ((LeaseDb.empty tables).run sha256 events).fenced :=
  Fencing.steps_inv Fencing.Inv.initial (run_steps [] fresh)

structure Rows (db : LeaseDb) : Prop where
  unique : (db.leases.map Lease.rowKey).Nodup
  audited : ∀ row ∈ db.audit, row.issued ∈ db.fenced.grants

theorem performed_rows {uuid : String} (rows : Rows db) (inv : Fencing.Inv db.fenced)
    (performed : Performed db nameSpace key uuid operation lease mid) : Rows mid := by
  obtain ⟨moved, keys, change⟩ := performed
  refine ⟨moved.unique rows.unique, ?_⟩
  intro row member
  obtain ⟨before, actor, requestId, now, audit⟩ := moved.audit
  rw [audit] at member
  rw [moved.grants, mem_append]
  rcases mem_appended.mp member with old | rfl
  · exact .inl (rows.audited row old)
  · cases change with
    | granted grants generation token active =>
      right
      rw [if_pos grants]
      exact mem_singleton.mpr rfl
    | kept old keeps held active generation token owner =>
      left
      have issued : (LeaseDb.auditRow before lease actor operation requestId now).issued =
          ⟨(nameSpace, key), old.generation, old.fencingToken⟩ := by
        rw [← keys, ← generation, ← token]
        rfl
      rw [issued]
      exact inv.granted (nameSpace, key) old.hold (fenced_hold held)

theorem next_rows (rows : Rows db) (inv : Fencing.Inv db.fenced) : Rows (db.next sha256 event) := by
  cases event with
  | other tables => exact ⟨rows.unique, rows.audited⟩
  | call call context =>
    rcases next_call sha256 db call context with same | ⟨response, served⟩
    · rw [same]
      exact rows
    · generalize db.next sha256 (.call call context) = after at served ⊢
      cases served with
      | leased unguarded bound performed =>
        have moved := performed_rows rows inv performed
        exact ⟨moved.unique, moved.audited⟩
      | committed guarded bound held unexpired => exact ⟨rows.unique, rows.audited⟩

theorem run_rows (sha256 : String → String) (tables : ObjectTables) (fresh : (uuids events).Nodup) :
    Rows ((LeaseDb.empty tables).run sha256 events) := by
  induction events using List.reverseRecOn with
  | nil => exact ⟨nodup_nil, fun row none => nomatch none⟩
  | append_singleton events event ih =>
    have split : uuids (events ++ [event]) = uuids events ++ uuids [event] := filterMap_append
    rw [split, nodup_append] at fresh
    rw [run_snoc]
    exact next_rows (ih fresh.1) (run_inv sha256 tables fresh.1)

def Commits (db : LeaseDb) (event : Event) (row : GuardedMutation) (db' : LeaseDb) : Prop :=
  db'.mutations = db.mutations ++ [row] ∧ ∃ call context token lease, event = .call call context ∧
      call.nameSpace = row.nameSpace ∧ call.key = row.key ∧ call.requestId = row.requestId ∧
      call.request.guardToken = some token ∧
      db.readLease row.nameSpace row.key = some lease ∧ lease.status = .active ∧
      lease.fencingToken = token ∧ row.committedAtMs < lease.expiresAtMs ∧
      row.generation = lease.generation

theorem next_mutations :
    (db.next sha256 event).mutations = db.mutations ∨ ∃ row, Commits db event row (db.next sha256 event) := by
  cases event with
  | other tables => exact .inl rfl
  | call call context =>
    rcases next_call sha256 db call context with same | ⟨response, served⟩
    · exact .inl (congrArg LeaseDb.mutations same)
    · generalize db.next sha256 (.call call context) = after at served
      cases served with
      | leased unguarded bound performed => exact .inl performed.1.mutations
      | committed guarded bound held unexpired =>
        obtain ⟨read, active, tokens⟩ := activeWithToken_eq_ok.mp held
        exact .inr ⟨_, rfl, call, context, _, _, rfl, rfl, rfl, rfl, guarded, read, active, tokens, unexpired, rfl⟩

def CommittedIn (sha256 : String → String) (tables : ObjectTables) (events : List Event)
    (row : GuardedMutation) : Prop :=
  ∃ before event after, events = before ++ event :: after ∧
    Commits ((LeaseDb.empty tables).run sha256 before) event row
      ((LeaseDb.empty tables).run sha256 (before ++ [event]))

theorem CommittedIn.append {tables : ObjectTables} {row : GuardedMutation}
    (committed : CommittedIn sha256 tables events row) (more : List Event) :
    CommittedIn sha256 tables (events ++ more) row := by
  obtain ⟨before, event, after, rfl, commits⟩ := committed
  exact ⟨before, event, after ++ more, by simp, commits⟩

theorem run_committed :
    ∀ row ∈ ((LeaseDb.empty tables).run sha256 events).mutations, CommittedIn sha256 tables events row := by
  induction events using List.reverseRecOn with
  | nil =>
    intro row none
    cases none
  | append_singleton events last ih =>
    intro row member
    rw [run_snoc] at member
    rcases next_mutations with same | commits
    · rw [same] at member
      exact (ih row member).append [last]
    · obtain ⟨new, commits⟩ := commits
      rw [commits.1] at member
      rcases mem_appended.mp member with old | rfl
      · exact (ih row old).append [last]
      · exact ⟨events, last, [], rfl, run_snoc sha256 ▸ commits⟩

def Lease.PassedTo (earlier later : Lease) : Prop :=
  later.owner ≠ earlier.owner ∨ later.fencingToken ≠ earlier.fencingToken ∨
    earlier.status = .released ∧ later.status = .active

theorem generation_lt_of_passed {earlier later : Lease}
    (follows : Fencing.Follows earlier.hold later.hold) (passed : earlier.PassedTo later) :
    earlier.generation < later.generation := by
  rcases follows with up | ⟨_, token, owner, active⟩
  · exact up
  · rcases passed with other | other | ⟨released, again⟩
    · exact absurd owner other
    · exact absurd token other
    · have was := active (by simp [Lease.hold, again])
      simp [Lease.hold, released] at was

structure LeaseFencing (sha256 : String → String) (tables : ObjectTables) (events : List Event)
    (nameSpace key : String) : Prop where
  /-- Between two moments the generation does not go down, and it goes up when ownership passed on. -/
  generations : ∀ before mid after, events = before ++ mid ++ after →
    ∀ lease, ((LeaseDb.empty tables).run sha256 before).readLease nameSpace key = some lease →
      ∃ later, ((LeaseDb.empty tables).run sha256 (before ++ mid)).readLease nameSpace key =
        some later ∧ lease.generation ≤ later.generation ∧
          (lease.PassedTo later → lease.generation < later.generation)
  /-- The audit has the token and generation of the lease of every moment. -/
  recorded : ∀ before after, events = before ++ after →
    ∀ lease, ((LeaseDb.empty tables).run sha256 before).readLease nameSpace key = some lease →
      ∃ row ∈ ((LeaseDb.empty tables).run sha256 events).audit,
        row.issued = ⟨(nameSpace, key), lease.generation, lease.fencingToken⟩
  /-- In the audit, a token has one namespace, key and generation. -/
  tokens : ∀ a ∈ ((LeaseDb.empty tables).run sha256 events).audit,
    ∀ b ∈ ((LeaseDb.empty tables).run sha256 events).audit, a.fencingToken = b.fencingToken → a.issued = b.issued
  active : ∀ a ∈ ((LeaseDb.empty tables).run sha256 events).leases,
    ∀ b ∈ ((LeaseDb.empty tables).run sha256 events).leases,
      a.rowKey = (nameSpace, key) → b.rowKey = (nameSpace, key) → a.status = .active →
        b.status = .active → a.fencingToken = b.fencingToken
  /-- A guarded write was committed by a call with the token of the lease that was active then, at a
  time before its expiry, and records its generation. -/
  committed : ∀ row ∈ ((LeaseDb.empty tables).run sha256 events).mutations,
    (row.nameSpace, row.key) = (nameSpace, key) → CommittedIn sha256 tables events row
  ordered : (((LeaseDb.empty tables).run sha256 events).mutations.filter fun row =>
    (row.nameSpace, row.key) = (nameSpace, key)).Pairwise fun a b => a.generation ≤ b.generation

variable {before : List Event}

theorem run_generations {mid : List Event} (fresh : (uuids (before ++ mid)).Nodup)
    (held : ((LeaseDb.empty tables).run sha256 before).readLease nameSpace key = some lease) :
    ∃ later, ((LeaseDb.empty tables).run sha256 (before ++ mid)).readLease nameSpace key =
        some later ∧ Fencing.Follows lease.hold later.hold := by
  obtain ⟨hold, heldLater, follows⟩ :=
    Fencing.steps_follows (run_steps before fresh) (fenced_hold held)
  obtain ⟨later, read, rfl⟩ := map_eq_some_iff.mp heldLater
  exact ⟨later, read, follows⟩

theorem run_recorded {after : List Event} (fresh : (uuids (before ++ after)).Nodup)
    (held : ((LeaseDb.empty tables).run sha256 before).readLease nameSpace key = some lease) :
    ∃ row ∈ ((LeaseDb.empty tables).run sha256 (before ++ after)).audit,
      row.issued = ⟨(nameSpace, key), lease.generation, lease.fencingToken⟩ := by
  have early : (uuids before).Nodup := by
    rw [uuids, filterMap_append] at fresh
    exact (nodup_append.mp fresh).1
  have granted := (run_inv sha256 tables early).granted _ _ (fenced_hold held)
  have later := (Fencing.steps_grants (run_steps before fresh)).subset granted
  obtain ⟨row, member, grants⟩ := mem_filterMap.mp later
  refine ⟨row, member, ?_⟩
  unfold LeaseAudit.grant? at grants
  split at grants
  · exact some.inj grants
  · exact some.inj grants
  · cases grants
  · cases grants

theorem leases_fenced (sha256 : String → String) (tables : ObjectTables) (events : List Event)
    (fresh : (uuids events).Nodup) (nameSpace key : String) : LeaseFencing sha256 tables events nameSpace key where
  generations := by
    rintro before mid after rfl lease held
    have early : (uuids (before ++ mid)).Nodup := by
      rw [uuids, filterMap_append] at fresh
      exact (nodup_append.mp fresh).1
    obtain ⟨later, read, follows⟩ := run_generations early held
    exact ⟨later, read, follows.generation_le, generation_lt_of_passed follows⟩
  recorded := by
    rintro before after rfl lease held
    exact run_recorded fresh held
  tokens := by
    intro a inA b inB same
    have rows := run_rows sha256 tables fresh
    exact (run_inv sha256 tables fresh).grant_unique (rows.audited a inA) (rows.audited b inB) same
  active := by
    intro a inA b inB keyA keyB _ _
    have rows := run_rows sha256 tables fresh
    rw [inj_on_of_nodup_map rows.unique inA inB (keyA.trans keyB.symm)]
  committed := by
    intro row member _
    exact run_committed row member
  ordered := by
    rw [pairwise_filter]
    have all := pairwise_map.mp (run_inv sha256 tables fresh).ordered
    refine all.imp ?_
    intro a b below inA inB
    exact below ((of_decide_eq_true inA).trans (of_decide_eq_true inB).symm)

def contextAt (nowMs : Int) (uuid : String) : Context where
  actor := "a"
  nowMs := nowMs
  waitedMs := 0
  uuid := uuid
  expected := none
  expectedPolicyGeneration := none
  validateObjectKindChange := fun _ _ _ => .ok ()
  snapshotKeys := []

def component (id : String) : Object := ⟨id, "component", "c", "n", "", .empty, 1, 1⟩

def handover : List Event :=
  [.call ⟨"n", "k", "one", .acquire "a" 10 "local"⟩ (contextAt 100 "t1"),
    .call ⟨"n", "k", "w1", .create "t1" (component "o1")⟩ (contextAt 105 "u1"),
    .call ⟨"n", "k", "two", .takeover "b" "t1" 110 10 "local"⟩ (contextAt 110 "t2"),
    .call ⟨"n", "k", "w2", .create "t1" (component "o2")⟩ (contextAt 106 "u2"),
    .call ⟨"n", "k", "w3", .create "t2" (component "o3")⟩ (contextAt 112 "u3")]

theorem leases_fenced_handover : LeaseFencing id .empty handover "n" "k" ∧
      ((LeaseDb.empty .empty).run id handover).mutations.map
        (fun row => (row.targetId, row.generation)) = [("o1", 1), ("o3", 2)] :=
  ⟨leases_fenced id .empty handover (by decide +kernel) "n" "k", by decide +kernel⟩

end SekaiChisei.Leases
