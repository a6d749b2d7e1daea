import SekaiChisei.Coordination.Capacity

/-!
No scope holds more than its `max_concurrency`, as long as no heartbeat brings back a lease whose place was taken, and
no unit is admitted ahead of an older one.
-/

namespace SekaiChisei.Coordination
open Lib List
variable {forest : ScopeForest}

variable {workUnitId : String} {workUnit : WorkUnit} {db : Db}

theorem Db.findWorkUnit_spec (found : db.findWorkUnit workUnitId = .ok workUnit) : workUnit ∈ db.workUnits := by
  rw [findWorkUnit] at found
  split at found
  · rename_i isRow
    cases found
    exact mem_of_find?_eq_some isRow
  · cases found

variable {chain : List ContentionScope} {now : Int} {leaseOwner : String} {request : Request}

theorem conflictingOlder_zero
    {workUnits : List WorkUnit} (sorted : workUnits.Pairwise fun left right => queueKey left ≤ queueKey right)
    (unique : ∀ other ∈ workUnits, other.id = workUnit.id → other = workUnit)
    (counted : conflictingOlder forest workUnit chain workUnits = .ok 0) :
    ∀ other ∈ workUnits, queueKey other < queueKey workUnit → ∀ otherChain,
      forest.scopeChain other.scopeId = .ok otherChain → chainsOverlap chain otherChain = false := by
  induction workUnits with
  | nil =>
    intro other member
    cases member
  | cons first rest ih =>
    obtain ⟨firstLeast, sorted⟩ := pairwise_cons.mp sorted
    obtain ⟨uniqueFirst, unique⟩ := forall_mem_cons.mp unique
    intro other member older otherChain isChain
    rw [conflictingOlder] at counted
    split at counted
    · rename_i isCandidate
      obtain rfl := uniqueFirst isCandidate
      rcases mem_cons.mp member with rfl | later
      · exact absurd older (lt_irrefl _)
      · exact absurd older (not_lt.mpr (firstLeast other later))
    · obtain ⟨firstChain, isFirst, counted⟩ := bind_eq_ok.mp counted
      obtain ⟨count, restCounted, counted⟩ := bind_eq_ok.mp counted
      split at counted
      · cases counted
      · rename_i apart
        cases counted
        rcases mem_cons.mp member with rfl | later
        · rw [isFirst] at isChain
          cases isChain
          simpa using apart
        · exact ih sorted unique restCounted other later older otherChain isChain

/-- An older pending unit has a scope of the unit's chain in its own. -/
def Db.Outranked (forest : ScopeForest) (db : Db) (workUnitId : String) : Prop :=
  ∃ workUnit chain other otherChain, db.findWorkUnit workUnitId = .ok workUnit ∧
    forest.scopeChain workUnit.scopeId = .ok chain ∧
    other ∈ db.workUnits ∧ other.status = .pending ∧
    (other.createdAt < workUnit.createdAt ∨ other.createdAt = workUnit.createdAt ∧ other.id < workUnit.id) ∧
    forest.scopeChain other.scopeId = .ok otherChain ∧ ∃ scope ∈ chain, scope ∈ otherChain

theorem Db.admission_not_outranked {now : Int} (unique : (db.workUnits.map WorkUnit.id).Nodup)
    (decided : db.admission forest workUnitId now = .ok (workUnit, .inr chain)) :
    ¬ db.Outranked forest workUnitId := by
  obtain ⟨isUnit, _, isChain, counted, _⟩ := admission_reserves decided
  rintro ⟨candidate, above, other, otherChain, same, sameChain, member, pending, older, isOther, scope, inChain,
    inOther⟩
  rw [isUnit] at same
  cases same
  rw [isChain] at sameChain
  cases sameChain
  have queued : ∀ queuedUnit ∈ db.allPending, queuedUnit ∈ db.workUnits := by
    intro queuedUnit inQueue
    exact mem_of_mem_filter ((mem_insertionSort _).mp inQueue)
  have onlyOne : ∀ queuedUnit ∈ db.allPending, queuedUnit.id = workUnit.id → queuedUnit = workUnit := by
    intro queuedUnit inQueue same
    exact inj_on_of_nodup_map unique (queued queuedUnit inQueue) (findWorkUnit_spec isUnit) same
  have inQueue : other ∈ db.allPending := by
    rw [allPending, inOrder, mem_insertionSort]
    exact mem_filter.mpr ⟨member, by simpa using pending⟩
  have before : queueKey other < queueKey workUnit := Prod.Lex.toLex_lt_toLex.mpr older
  have apart := conflictingOlder_zero (pairwise_insertionSort _ _) onlyOne counted other inQueue before
    otherChain isOther
  refine absurd (any_eq_true.mpr ⟨_, inOther, ?_⟩) (Bool.eq_false_iff.mp apart)
  simpa using ⟨_, inChain, rfl⟩

theorem Db.tryAdmitWorkUnit_outranked (unique : (db.workUnits.map WorkUnit.id).Nodup)
    (outranked : db.Outranked forest workUnitId) : (db.tryAdmitWorkUnit forest workUnitId leaseOwner now).1 = db ∧
      ∀ result, (db.tryAdmitWorkUnit forest workUnitId leaseOwner now).2 = .ok result → result.admitted = false := by
  rw [tryAdmitWorkUnit]
  split
  · refine ⟨rfl, ?_⟩
    intro result answered
    cases answered
  · rename_i decided
    refine ⟨rfl, ?_⟩
    intro result answered
    cases answered
    exact admission_refuses decided
  · rename_i decided
    exact (admission_not_outranked unique decided outranked).elim

theorem Db.reserve_unitIds (workUnit : WorkUnit) (leaseOwner : String) (now : Int) (db : Db)
    (chain : List ContentionScope) : (db.reserve workUnit leaseOwner now chain).1.unitIds = db.unitIds := by
  induction chain generalizing db with
  | nil => rfl
  | cons scope rest ih =>
    rw [reserve]
    split
    · rfl
    · exact ih _

theorem Db.tryAdmitWorkUnit_unitIds (workUnitId leaseOwner : String) :
    (db.tryAdmitWorkUnit forest workUnitId leaseOwner now).1.unitIds = db.unitIds := by
  rw [tryAdmitWorkUnit]
  split
  · rfl
  · rfl
  · rename_i workUnit chain _
    have reserved := db.reserve_unitIds workUnit leaseOwner now chain
    rw [enroll]
    split
    · rename_i written
      rwa [written] at reserved
    · rename_i written
      rw [written] at reserved
      simpa using reserved

theorem Db.renewAll_unitIds (db : Db) : (chain.foldl (Db.renew workUnit now) db).unitIds = db.unitIds := by
  induction chain generalizing db with
  | nil => rfl
  | cons scope rest ih => exact ih _

theorem Db.heartbeatWorkUnit_unitIds : (db.heartbeatWorkUnit forest workUnitId now).1.unitIds = db.unitIds := by
  rw [heartbeatWorkUnit]
  split
  · rfl
  · rw [insertRunEvent_unitIds, putWorkUnit_unitIds, renewAll_unitIds]

theorem Db.createWorkUnit_unique (unique : db.unitIds.Nodup) : (db.createWorkUnit workUnit).1.unitIds.Nodup := by
  rw [createWorkUnit]
  split
  · exact unique
  · split
    · exact unique
    · rename_i fresh
      exact Table.nodup_append (Table.find_eq_none.mpr fresh) unique

theorem Db.createWorkUnit_holdsLess (db : Db) : (db.createWorkUnit workUnit).1.HoldsLess db := by
  apply HoldsLess.of_reservations
  rw [createWorkUnit]
  split
  · rfl
  · split <;> rfl

theorem Db.serve_unique (unique : db.unitIds.Nodup) : (db.serve forest now request).unitIds.Nodup := by
  cases request with
  | create workUnit => exact createWorkUnit_unique unique
  | tryAdmit workUnitId leaseOwner =>
    rw [serve, tryAdmitWorkUnit_unitIds]
    exact unique
  | heartbeat workUnitId =>
    rw [serve, heartbeatWorkUnit_unitIds]
    exact unique
  | complete workUnitId =>
    rw [serve, completeWorkUnit, (db.finishWorkUnit_settles _ _ _ _ _).units]
    exact unique
  | fail workUnitId failureReason =>
    rw [serve, failWorkUnit, (db.finishWorkUnit_settles _ _ _ _ _).units]
    exact unique
  | cancel workUnitId cancelReason =>
    rw [serve, cancelWorkUnit, (db.finishWorkUnit_settles _ _ _ _ _).units]
    exact unique
  | release workUnitId => exact unique
  | reconcile filter =>
    rw [serve, reconcileWorkUnits, (Db.reconcileAll_settles _ _ _ _ _).units]
    exact unique

def Db.Affords (forest : ScopeForest) (db : Db) (now : Int) (request : Request) : Prop :=
  ∀ workUnitId, request = .heartbeat workUnitId → db.HasRoom forest now workUnitId

theorem Db.serve_bounded_iff {now : Int} (bounded : db.Bounded forest now) :
    (db.serve forest now request).Bounded forest now ↔ db.Affords forest now request := by
  cases request with
  | heartbeat workUnitId =>
    rw [serve, heartbeatWorkUnit_bounded_iff bounded]
    constructor
    · intro room other same
      cases same
      exact room
    · intro affords
      exact affords workUnitId rfl
  | create workUnit => exact iff_of_true (bounded.holdsLess (db.createWorkUnit_holdsLess)) nofun
  | tryAdmit workUnitId leaseOwner =>
    exact iff_of_true (tryAdmitWorkUnit_bounded bounded workUnitId leaseOwner) nofun
  | complete workUnitId | fail workUnitId failureReason | cancel workUnitId cancelReason =>
    exact iff_of_true (bounded.holdsLess (db.finishWorkUnit_settles _ _ _ _ _).holds) nofun
  | release workUnitId => exact iff_of_true (bounded.holdsLess (db.release_holdsLess _ _)) nofun
  | reconcile filter =>
    exact iff_of_true (bounded.holdsLess (Db.reconcileAll_settles _ _ _ _ _).holds) nofun

def run (forest : ScopeForest) (clock : Int) (calls : List Call) (n : Nat) : World :=
  Trace.after (step forest) (World.start clock) calls n

section
variable (forest) (clock : Int)
include clock

theorem run_unique (calls : List Call) (n : Nat) : (run forest clock calls n).db.unitIds.Nodup := by
  apply Trace.always (P := fun world : World => world.db.unitIds.Nodup)
  · exact nodup_nil
  · intro n call _ unique
    exact Db.serve_unique unique

theorem start_bounded : Db.empty.Bounded forest clock := by
  intro scope _
  have positive := scope.maxConcurrencyPositive
  have none : Db.empty.activeCount scope.id clock = 0 := rfl
  omega

theorem run_bounded_iff (calls : List Call) :
    (∀ n, (run forest clock calls n).db.Bounded forest (run forest clock calls n).clock) ↔
      ∀ n call, calls[n]? = some call → (run forest clock calls n).db.Affords forest
        ((run forest clock calls n).clock + call.elapsed) call.request := by
  have along := @Trace.always_iff World Call (step forest) (World.start clock) calls
    (fun world => world.db.Bounded forest world.clock)
    (fun world call => ¬ world.db.Affords forest (world.clock + call.elapsed) call.request)
    (start_bounded forest clock) (by
      intro world call _ bounded
      rw [not_not]
      exact Db.serve_bounded_iff (bounded.later (by omega)))
  simp only [not_not] at along
  exact along

end

/-- In a run, scopes stay within their bounds at every time exactly when every heartbeat finds room for the
leases that it brings back; and no unit is admitted while it is outranked. -/
theorem contention_bounded_iff (forest : ScopeForest) (clock : Int) (calls : List Call) :
    ((∀ n t, (run forest clock calls n).clock ≤ t → (run forest clock calls n).db.Bounded forest t) ↔
      ∀ n (elapsed : Nat) workUnitId, calls[n]? = some ⟨elapsed, .heartbeat workUnitId⟩ →
        (run forest clock calls n).db.HasRoom forest ((run forest clock calls n).clock + elapsed) workUnitId) ∧
    ∀ n (elapsed : Nat) workUnitId leaseOwner, calls[n]? = some ⟨elapsed, .tryAdmit workUnitId leaseOwner⟩ →
      (run forest clock calls n).db.Outranked forest workUnitId →
      (run forest clock calls (n + 1)).db = (run forest clock calls n).db ∧
        ∀ result, ((run forest clock calls n).db.tryAdmitWorkUnit forest workUnitId leaseOwner
          ((run forest clock calls n).clock + elapsed)).2 = .ok result → result.admitted = false := by
  constructor
  · have along := run_bounded_iff forest clock calls
    constructor
    · intro bounded n elapsed workUnitId atN
      exact along.mp (fun n => bounded n _ (le_refl _)) n _ atN workUnitId rfl
    · intro room n t later
      refine Db.Bounded.later (along.mpr ?_ n) later
      intro n call atN workUnitId isHeartbeat
      apply room n call.elapsed workUnitId
      rw [atN, ← isHeartbeat]
  · intro n elapsed workUnitId leaseOwner atN outranked
    obtain ⟨same, refused⟩ := Db.tryAdmitWorkUnit_outranked (run_unique forest clock calls n) outranked
    refine ⟨?_, refused⟩
    rw [run, Trace.after_succ atN]
    exact same

def sampleForest : ScopeForest :=
  ⟨[⟨"gpu", "gpu", "", 1, 2, by decide, by decide, by decide⟩], by decide⟩

def sampleUnit (id : String) (createdAt : Int) : WorkUnit :=
  ⟨id, "train", "agent", .pending, "gpu", 0, 0, createdAt, 0, 0, 0, 0, "", "", "owner", "agent", createdAt⟩

def sampleCalls : List Call :=
  [⟨0, .create (sampleUnit "a" 1)⟩, ⟨0, .create (sampleUnit "b" 2)⟩, ⟨0, .tryAdmit "a" "one"⟩,
    ⟨3000, .tryAdmit "b" "two"⟩, ⟨500, .heartbeat "a"⟩]

/-- The lease of `a` runs out, `b` takes its place, and then a heartbeat brings `a` back. -/
theorem heartbeat_revives_lapsed : ¬ ∀ n t, (run sampleForest 1000 sampleCalls n).clock ≤ t →
      (run sampleForest 1000 sampleCalls n).db.Bounded sampleForest t := by
  intro bounded
  have one := bounded 5 4500 (by decide +kernel) ⟨"gpu", "gpu", "", 1, 2, by decide, by decide, by decide⟩
    (by rw [sampleForest]; exact mem_cons_self)
  revert one
  decide +kernel

end SekaiChisei.Coordination
