import SekaiChisei.Coordination.Precedence

/-! What a refused call leaves. A call writes row by row, and the insert that fails comes after other writes. -/

namespace SekaiChisei.Coordination
open Lib List Db

section
variable (forest : ScopeForest) (db : Db) (now : Int)

def Db.answer : Request → Except String Unit
  | .create workUnit => (db.createWorkUnit workUnit).2
  | .tryAdmit workUnitId leaseOwner => (db.tryAdmitWorkUnit forest workUnitId leaseOwner now).2.map fun _ => ()
  | .heartbeat workUnitId => (db.heartbeatWorkUnit forest workUnitId now).2.map fun _ => ()
  | .complete workUnitId => (db.completeWorkUnit workUnitId now).2.map fun _ => ()
  | .fail workUnitId failureReason => (db.failWorkUnit workUnitId failureReason now).2.map fun _ => ()
  | .cancel workUnitId cancelReason => (db.cancelWorkUnit workUnitId cancelReason now).2.map fun _ => ()
  | .release _ => .ok ()
  | .reconcile filter => (db.reconcileWorkUnits filter now).2.map fun _ => ()

def Db.Barred (workUnitId : String) (status : WorkUnitStatus) : Prop :=
  ∀ workUnit, db.findWorkUnit workUnitId = .ok workUnit → workUnit.status.legal status = false

/-- What a refused call meets before its first write, or writes again as it was. -/
def Db.Untouched : Request → Prop
  | .tryAdmit workUnitId leaseOwner =>
    ∀ workUnit chain, db.admission forest workUnitId now = .ok (workUnit, .inr chain) →
      ∃ scope ∈ chain.head?, (reservationFor workUnit leaseOwner now scope).id ∈ db.reservations.map Reservation.id
  | .heartbeat workUnitId =>
    ∀ workUnit chain, db.beating forest workUnitId = .ok (workUnit, chain) →
      (∀ row ∈ db.workUnits, row.id = workUnit.id → row = { workUnit with lastHeartbeatAt := now, updatedAt := now }) ∧
        ∀ reservation ∈ db.reservations, ∀ scope ∈ chain, reservation.workUnitId = workUnit.id →
          reservation.scopeId = scope.id → reservation.held →
          reservation.expiresAt = now + ttlSeconds workUnit scope * 1000
  | .complete workUnitId => db.Barred workUnitId .completed
  | .fail workUnitId _ => db.Barred workUnitId .failed
  | .cancel workUnitId _ => db.Barred workUnitId .cancelled
  | .reconcile _ => False
  | .create _ | .release _ => True

end

variable {forest : ScopeForest} {db : Db} {workUnit : WorkUnit} {now : Int} {error workUnitId leaseOwner : String}
  {chain : List ContentionScope}

theorem not_mem_putWorkUnit {old : WorkUnit} (same : old.id = workUnit.id) (moved : old.status ≠ workUnit.status) :
    old ∉ (db.putWorkUnit workUnit).workUnits := by
  intro member
  obtain ⟨row, _, made⟩ := mem_map.mp member
  split at made
  · exact moved (congrArg WorkUnit.status made.symm)
  · rename_i different
    exact different (made ▸ same)

theorem insertRunEvent_workUnits (event : RunEvent) : (db.insertRunEvent event).1.workUnits = db.workUnits := by
  unfold insertRunEvent
  split <;> rfl

theorem reserve_grows (db : Db) (chain : List ContentionScope) :
    db.reservations.length ≤ (db.reserve workUnit leaseOwner now chain).1.reservations.length := by
  induction chain generalizing db with
  | nil => exact Nat.le_refl _
  | cons scope rest ih =>
    rw [reserve]
    split
    · exact Nat.le_refl _
    · refine Nat.le_trans ?_ (ih _)
      simp

theorem enroll_reservations (chain : List ContentionScope) : (db.enroll workUnit chain leaseOwner now).1.reservations =
    (db.reserve workUnit leaseOwner now chain).1.reservations := by
  unfold enroll
  split <;> simp [*]

theorem tryAdmit_untouched (refused : (db.tryAdmitWorkUnit forest workUnitId leaseOwner now).2 = .error error) :
    (db.tryAdmitWorkUnit forest workUnitId leaseOwner now).1 = db ↔
      db.Untouched forest now (.tryAdmit workUnitId leaseOwner) := by
  unfold tryAdmitWorkUnit at refused ⊢
  dsimp only [Untouched]
  cases decided : db.admission forest workUnitId now with
  | error message => simp
  | ok plan =>
    obtain ⟨workUnit, answer | chain⟩ := plan
    · rw [decided] at refused
      cases refused
    obtain ⟨found, pending, _⟩ := admission_reserves decided
    simp only [Except.ok.injEq, Prod.mk.injEq, Sum.inr.injEq, and_imp, forall_apply_eq_imp_iff, forall_eq']
    cases chain with
    | nil =>
      refine iff_of_false (fun same => ?_) (by simp)
      have held := findWorkUnit_spec found
      rw [← same] at held
      simp only [enroll, reserve, insertRunEvent_workUnits] at held
      exact absurd held (not_mem_putWorkUnit rfl (by simp [pending, WorkUnit.run]))
    | cons scope rest =>
      by_cases taken : (reservationFor workUnit leaseOwner now scope).id ∈ db.reservations.map Reservation.id
      · exact iff_of_true (by simp [enroll, reserve, taken]) ⟨scope, rfl, taken⟩
      · refine iff_of_false (fun same => ?_) (by simpa using taken)
        have kept := @enroll_reservations db workUnit now leaseOwner (scope :: rest)
        have grown := @reserve_grows workUnit now leaseOwner
          { db with reservations := db.reservations ++ [reservationFor workUnit leaseOwner now scope] } rest
        rw [same, reserve, if_neg taken] at kept
        rw [← kept, length_append, length_singleton] at grown
        omega

theorem map_eq_self {α : Type} {f : α → α} {rows : List α} : rows.map f = rows ↔ ∀ row ∈ rows, f row = row := by
  simpa using map_inj_left (l := rows) (f := f) (g := id)

theorem Reservation.renew_eq_self {reservation : Reservation} {scope : ContentionScope} :
    reservation.renew workUnit now scope = reservation ↔
      (reservation.workUnitId = workUnit.id → reservation.scopeId = scope.id → reservation.held →
        reservation.expiresAt = now + ttlSeconds workUnit scope * 1000) := by
  unfold Reservation.renew
  split
  · rename_i matched
    constructor
    · intro same _ _ _
      exact (congrArg Reservation.expiresAt same).symm
    · intro expires
      rw [← expires matched.1 matched.2.1 matched.2.2]
  · rename_i other
    exact iff_of_true rfl fun unit scopeId held => absurd ⟨unit, scopeId, held⟩ other

theorem renewAll_of_fixed (fixed : ∀ reservation ∈ db.reservations, ∀ scope ∈ chain,
    reservation.renew workUnit now scope = reservation) : chain.foldl (renew workUnit now) db = db := by
  induction chain with
  | nil => rfl
  | cons scope rest ih =>
    have first : db.renew workUnit now scope = db := by
      rw [renew, map_congr_left fun reservation held => fixed reservation held scope mem_cons_self, map_id']
    rw [foldl_cons, first]
    exact ih fun reservation held scope later => fixed reservation held scope (mem_cons_of_mem _ later)

theorem renewed_iff (distinct : (chain.map ContentionScope.id).Nodup) (beaten : WorkUnit) :
    (chain.foldl (renew workUnit now) db).putWorkUnit beaten = db ↔
      (∀ row ∈ db.workUnits, row.id = beaten.id → row = beaten) ∧
        ∀ reservation ∈ db.reservations, ∀ scope ∈ chain, reservation.renew workUnit now scope = reservation := by
  constructor
  · intro same
    have kept := congrArg Db.reservations same
    rw [putWorkUnit] at kept
    have fixed : ∀ reservation ∈ db.reservations, ∀ scope ∈ chain, reservation.renew workUnit now scope =
        reservation := by
      intro reservation held scope member
      by_cases inScope : reservation.scopeId = scope.id
      · have renewed := @reservationsOf_renewAll_of_mem db workUnit now scope chain distinct member
        rw [reservationsOf, kept, ← reservationsOf, eq_comm, map_eq_self] at renewed
        exact renewed _ (mem_filter.mpr ⟨held, decide_eq_true inScope⟩)
      · exact if_neg fun matched => inScope matched.2.1
    refine ⟨fun row held named => ?_, fixed⟩
    rw [renewAll_of_fixed fixed] at same
    exact (map_eq_self.mp (congrArg Db.workUnits same) row held).symm.trans (if_pos named)
  · rintro ⟨rows, fixed⟩
    rw [renewAll_of_fixed fixed, putWorkUnit, Table.replace, map_eq_self.mpr]
    intro row held
    split_ifs with named
    · exact (rows row held named).symm
    · rfl

theorem heartbeat_untouched (refused : (db.heartbeatWorkUnit forest workUnitId now).2 = .error error) :
    (db.heartbeatWorkUnit forest workUnitId now).1 = db ↔ db.Untouched forest now (.heartbeat workUnitId) := by
  unfold heartbeatWorkUnit at refused ⊢
  dsimp only [Untouched]
  cases found : db.beating forest workUnitId with
  | error message => simp
  | ok plan =>
    rw [found] at refused
    simp only [insertRunEvent] at refused ⊢
    split_ifs at refused ⊢
    · rw [renewed_iff (ScopeForest.scopeChain_spec (beating_spec found)).2]
      simp only [Reservation.renew_eq_self]
      constructor
      · rintro same _ _ ⟨⟩
        exact same
      · intro all
        have kept := all _ _ rfl
        exact kept
    · cases refused

theorem finish_untouched {failureReason cancelReason : String} {status : WorkUnitStatus}
    (last : status.isTerminal = true)
    (refused : (db.finishWorkUnit workUnitId status failureReason cancelReason now).2 = .error error) :
    (db.finishWorkUnit workUnitId status failureReason cancelReason now).1 = db ↔ db.Barred workUnitId status := by
  unfold finishWorkUnit at refused ⊢
  dsimp only [Barred]
  cases found : db.findWorkUnit workUnitId with
  | error message => simp
  | ok workUnit =>
    rw [found] at refused
    dsimp only at refused ⊢
    split_ifs at refused ⊢ with done
    cases legal : workUnit.status.legal status with
    | false => simp [ensureTransition, legal]
    | true =>
      refine iff_of_false (fun same => ?_) (by simp [legal])
      have held := findWorkUnit_spec found
      rw [← same] at held
      simp only [ensureTransition, legal, if_true, insertRunEvent_workUnits] at held
      refine absurd held (not_mem_putWorkUnit rfl ?_)
      intro unmoved
      exact done (unmoved ▸ last)

theorem retire_workUnits (timedOut : Bool) : (db.retire workUnit timedOut now).1.workUnits =
    ((db.release workUnit.id now).putWorkUnit (workUnit.reconcile timedOut now)).workUnits := by
  unfold retire insertReconciliation
  dsimp only
  split
  · exact insertRunEvent_workUnits _
  · split <;> exact insertRunEvent_workUnits _

theorem reconcileAll_refused {dryRun : Bool} {summary : ReconcileSummary} {units : List WorkUnit}
    (refused : (db.reconcileAll dryRun now summary units).2 = .error error) :
    ∃ workUnit ∈ units, workUnit.status.isTerminal = false →
      workUnit ∉ (db.reconcileAll dryRun now summary units).1.workUnits := by
  induction units generalizing db summary with
  | nil => cases refused
  | cons workUnit rest ih =>
    have later {db : Db} {summary : ReconcileSummary}
        (failed : (db.reconcileAll dryRun now summary rest).2 = .error error) :=
      (ih failed).imp fun _ found => And.imp_left (mem_cons_of_mem workUnit) found
    rw [reconcileAll] at refused ⊢
    split_ifs at refused ⊢
    · exact later refused
    · have written := @retire_workUnits db workUnit now (workUnit.timedOut now)
      split at refused
      · rename_i retired
        rw [retired] at written
        refine ⟨workUnit, mem_cons_self, fun live => ?_⟩
        rw [written]
        refine not_mem_putWorkUnit rfl ?_
        intro unmoved
        rw [unmoved, WorkUnit.reconcile] at live
        split at live <;> cases live
      · exact later refused
    · exact later refused

theorem liveUnits_live {filter : ReconcileFilter} (member : workUnit ∈ db.liveUnits filter) :
    workUnit ∈ db.workUnits ∧ workUnit.status.isTerminal = false := by
  have listed : workUnit ∈ db.liveUnits { filter with limit := 0 } := by
    unfold liveUnits at member ⊢
    split at member
    · exact mem_of_mem_take member
    · exact member
  obtain ⟨held, kept⟩ := mem_filter.mp ((mem_insertionSort _).mp listed)
  refine ⟨held, ?_⟩
  obtain ⟨pending | admitted | running, _⟩ := of_decide_eq_true kept <;> simp [*, WorkUnitStatus.isTerminal]

/-- A refused call leaves the tables as they were exactly when it was refused before its first write, or wrote what was
there. -/
theorem serve_refused_iff {request : Request} (refused : db.answer forest now request = .error error) :
    db.serve forest now request = db ↔ db.Untouched forest now request := by
  have failed {α : Type} {x : Except String α} (refused : x.map (fun _ => ()) = .error error) : x = .error error := by
    cases x <;> cases refused
    rfl
  cases request with
  | create workUnit =>
    refine iff_of_true ?_ trivial
    simp only [answer, serve, createWorkUnit] at refused ⊢
    split at refused
    · rfl
    · split_ifs at refused ⊢
      rfl
  | tryAdmit workUnitId leaseOwner => exact tryAdmit_untouched (failed refused)
  | heartbeat workUnitId => exact heartbeat_untouched (failed refused)
  | complete workUnitId | fail workUnitId failureReason | cancel workUnitId cancelReason =>
    exact finish_untouched rfl (failed refused)
  | release workUnitId => cases refused
  | reconcile filter =>
    obtain ⟨workUnit, member, gone⟩ := reconcileAll_refused (failed refused)
    obtain ⟨held, live⟩ := liveUnits_live member
    refine iff_of_false (fun same => gone live ?_) id
    exact (congrArg Db.workUnits same).symm ▸ held

/-- The unit "a", running, with heartbeats at 5 and at 7. -/
def beatenDb : Db :=
  [(1, .create (sampleUnit "a" 1)), (1, .tryAdmit "a" "one"), (5, .heartbeat "a"), (7, .heartbeat "a")].foldl
    (fun db call => db.serve sampleForest call.1 call.2) Db.empty

theorem serve_refused_iff_beaten :
    beatenDb.answer sampleForest 5 (.heartbeat "a") = .error "UNIQUE constraint failed: sekai_run_events.id" ∧
      (beatenDb.serve sampleForest 5 (.heartbeat "a") = beatenDb ↔
        beatenDb.Untouched sampleForest 5 (.heartbeat "a")) :=
  ⟨rfl, serve_refused_iff rfl⟩

theorem serve_refused_changes :
    beatenDb.answer sampleForest 5 (.heartbeat "a") = .error "UNIQUE constraint failed: sekai_run_events.id" ∧
      beatenDb.serve sampleForest 5 (.heartbeat "a") ≠ beatenDb := by
  refine ⟨rfl, fun same => ?_⟩
  have rows := congrArg Db.workUnits same
  revert rows
  decide +kernel

end SekaiChisei.Coordination
