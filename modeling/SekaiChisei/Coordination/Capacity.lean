import SekaiChisei.Coordination.Store

/-!
What each call does to the held reservations of a scope. The one call that takes capacity without counting it is a
heartbeat after the lease ran out.
-/

namespace SekaiChisei.Coordination
open Lib List Function
variable {forest : ScopeForest}

variable {chain : List ContentionScope} {scopeId : String} {seen : List String} {rounds : Nat}

theorem ScopeForest.ancestors_spec {currentId : String}
    (found : forest.ancestors scopeId rounds seen currentId = .ok chain) :
    (∀ scope ∈ chain, scope ∈ forest.rows ∧ scope.id ∉ seen) ∧ (chain.map ContentionScope.id).Nodup := by
  induction rounds generalizing seen currentId chain with
  | zero => cases found
  | succ rounds ih =>
    rw [ScopeForest.ancestors] at found
    split at found
    · cases found
      exact ⟨nofun, nodup_nil⟩
    · split at found
      · cases found
      · rename_i fresh
        split at found
        · cases found
        · rename_i scope isRow
          obtain ⟨rest, above, same⟩ := bind_eq_ok.mp found
          cases same
          obtain ⟨inRest, distinct⟩ := ih above
          have named : scope.id = currentId := Table.key_of_find isRow
          have isMember : scope ∈ forest.rows := mem_of_find?_eq_some isRow
          simp only [forall_and, ← named, mem_cons] at inRest
          obtain ⟨keys, new⟩ := nodup_keys_cons (P := (· ∈ seen)) (named ▸ fresh) ⟨distinct, inRest.2⟩
          exact ⟨fun other member => ⟨forall_mem_cons.mpr ⟨isMember, inRest.1⟩ other member, new other member⟩, keys⟩

theorem ScopeForest.scopeChain_spec (found : forest.scopeChain scopeId = .ok chain) :
    (∀ scope ∈ chain, scope ∈ forest.rows) ∧ (chain.map ContentionScope.id).Nodup := by
  obtain ⟨upward, above, same⟩ := bind_eq_ok.mp found
  cases same
  obtain ⟨rows, distinct⟩ := ancestors_spec above
  constructor
  · intro scope member
    exact (rows scope (mem_reverse.mp member)).1
  · rw [map_reverse]
    exact nodup_reverse.mpr distinct

theorem ScopeForest.mem_chain {scope : ContentionScope}
    (found : forest.scopeChain scopeId = .ok chain) (isRow : scope ∈ forest.rows)
    (named : scope.id ∈ chain.map ContentionScope.id) : scope ∈ chain := by
  obtain ⟨other, member, same⟩ := mem_map.mp named
  obtain rfl : other = scope :=
    inj_on_of_nodup_map forest.unique ((scopeChain_spec found).1 other member) isRow same
  exact member

theorem Db.activeCount_antitone (db : Db) (scopeId : String) {earlier later : Int}
    (ordered : earlier ≤ later) : db.activeCount scopeId later ≤ db.activeCount scopeId earlier := by
  apply countP_mono_left
  intro reservation _ live
  simp only [decide_eq_true_eq] at live ⊢
  exact ⟨live.1, by omega⟩

variable {db : Db} {workUnit : WorkUnit} {workUnitId : String} {now : Int}

theorem Db.activeCount_congr {other : Db} (same : other.reservations = db.reservations) (scopeId : String)
    (now : Int) : other.activeCount scopeId now = db.activeCount scopeId now := by
  rw [activeCount, activeCount, reservationsOf, reservationsOf, same]

theorem filter_scope_map {update : Reservation → Reservation}
    (kept : ∀ reservation, (update reservation).scopeId = reservation.scopeId) (reservations : List Reservation) :
    (reservations.map update).filter (fun reservation => reservation.scopeId = scopeId) =
      (reservations.filter fun reservation => reservation.scopeId = scopeId).map update := by
  rw [filter_map]
  congr 2
  funext reservation
  simp only [comp_apply, kept]

@[simp] theorem Db.putWorkUnit_reservations : (db.putWorkUnit workUnit).reservations = db.reservations := rfl

@[simp] theorem Db.insertRunEvent_reservations (event : RunEvent) :
    (db.insertRunEvent event).1.reservations = db.reservations := by
  rw [insertRunEvent]
  split <;> rfl

@[simp] theorem Db.insertReconciliation_reservations (record : ReconciliationRecord) :
    (db.insertReconciliation record).1.reservations = db.reservations := by
  rw [insertReconciliation]
  split <;> rfl

def Db.unitIds (db : Db) : List String := db.workUnits.map WorkUnit.id

@[simp] theorem Db.insertRunEvent_unitIds (db : Db) (event : RunEvent) :
    (db.insertRunEvent event).1.unitIds = db.unitIds := by
  rw [insertRunEvent]
  split <;> rfl

@[simp] theorem Db.insertReconciliation_unitIds (record : ReconciliationRecord) :
    (db.insertReconciliation record).1.unitIds = db.unitIds := by
  rw [insertReconciliation]
  split <;> rfl

@[simp] theorem Db.putWorkUnit_unitIds (db : Db) : (db.putWorkUnit workUnit).unitIds = db.unitIds :=
  Table.keys_replace _ _ _

@[simp] theorem Db.release_unitIds : (db.release workUnitId now).unitIds = db.unitIds := rfl

def Db.HoldsLess (db before : Db) : Prop :=
  ∀ scopeId now, db.activeCount scopeId now ≤ before.activeCount scopeId now

variable {before : Db} {middle : Db}

theorem Db.HoldsLess.of_reservations (same : db.reservations = before.reservations) : db.HoldsLess before :=
  fun scopeId now => Nat.le_of_eq (activeCount_congr same scopeId now)

theorem Db.HoldsLess.trans (second : db.HoldsLess middle) (first : middle.HoldsLess before) : db.HoldsLess before :=
  fun scopeId now => Nat.le_trans (second scopeId now) (first scopeId now)

theorem Reservation.release_live {reservation : Reservation} {moment : Int}
    (live : (reservation.release workUnitId moment).held ∧ now < (reservation.release workUnitId moment).expiresAt) :
    reservation.held ∧ now < reservation.expiresAt := by
  unfold release at live
  split at live
  · simp [held] at live
  · exact live

theorem Db.release_holdsLess (db : Db) (workUnitId : String) (now : Int) :
    (db.release workUnitId now).HoldsLess db := by
  intro scopeId later
  have kept : ∀ reservation, (Reservation.release workUnitId now reservation).scopeId = reservation.scopeId := by
    intro reservation
    unfold Reservation.release
    split <;> rfl
  rw [activeCount, reservationsOf, release, filter_scope_map kept, countP_map]
  apply countP_mono_left
  intro reservation _ live
  simp only [comp_apply, decide_eq_true_eq] at live ⊢
  exact Reservation.release_live live

/-- No scope holds more, and the units are the same ones. -/
structure Db.Settles (db before : Db) : Prop where
  holds : db.HoldsLess before
  units : db.unitIds = before.unitIds

theorem Db.Settles.refl (db : Db) : db.Settles db := ⟨.of_reservations rfl, rfl⟩

theorem Db.Settles.trans (second : db.Settles middle) (first : middle.Settles before) : db.Settles before :=
  ⟨second.holds.trans first.holds, second.units.trans first.units⟩

theorem Db.settles_written (db : Db) (event : RunEvent) :
    (((db.release workUnitId now).putWorkUnit workUnit).insertRunEvent event).1.Settles db := by
  refine ⟨HoldsLess.trans (.of_reservations ?_) (db.release_holdsLess workUnitId now), ?_⟩
  · rw [insertRunEvent_reservations, putWorkUnit_reservations]
  · rw [insertRunEvent_unitIds, putWorkUnit_unitIds, release_unitIds]

theorem Db.finishWorkUnit_settles (db : Db) (workUnitId : String) (status : WorkUnitStatus)
    (failureReason cancelReason : String) (now : Int) :
    (db.finishWorkUnit workUnitId status failureReason cancelReason now).1.Settles db := by
  rw [finishWorkUnit]
  split
  · exact .refl _
  · split
    · exact .refl _
    · split
      · exact .refl _
      · exact db.settles_written _

theorem Db.retire_settles (db : Db) (workUnit : WorkUnit) (timedOut : Bool) (now : Int) :
    (db.retire workUnit timedOut now).1.Settles db := by
  rw [retire]
  split
  · exact db.settles_written _
  · exact Settles.trans ⟨.of_reservations (insertReconciliation_reservations _), insertReconciliation_unitIds _⟩
      (db.settles_written _)

theorem Db.reconcileAll_settles (dryRun : Bool) (now : Int) (db : Db) (summary : ReconcileSummary)
    (workUnits : List WorkUnit) : (db.reconcileAll dryRun now summary workUnits).1.Settles db := by
  induction workUnits generalizing db summary with
  | nil => exact .refl _
  | cons workUnit rest ih =>
    rw [reconcileAll]
    split
    · split
      · exact ih _ _
      · have retired := db.retire_settles workUnit (workUnit.timedOut now) now
        split
        · rename_i written
          rwa [written] at retired
        · rename_i written
          rw [written] at retired
          exact (ih _ _).trans retired
    · exact ih _ _

theorem Db.activeCount_reserve (workUnit : WorkUnit) (leaseOwner scopeId : String) (now later : Int) (db : Db)
    (chain : List ContentionScope) : (db.reserve workUnit leaseOwner now chain).1.activeCount scopeId later ≤
      db.activeCount scopeId later + (chain.map ContentionScope.id).count scopeId := by
  induction chain generalizing db with
  | nil => exact Nat.le_refl _
  | cons scope rest ih =>
    rw [reserve]
    split
    · exact Nat.le_add_right _ _
    · have added : Db.activeCount
          { db with reservations := db.reservations ++ [reservationFor workUnit leaseOwner now scope] }
          scopeId later ≤ db.activeCount scopeId later + if scope.id = scopeId then 1 else 0 := by
        simp only [activeCount, reservationsOf, filter_append, countP_append]
        apply Nat.add_le_add_left
        by_cases same : scope.id = scopeId
        · rw [if_pos same]
          exact Nat.le_trans countP_le_length (length_filter_le _ _)
        · rw [if_neg same, filter_cons_of_neg (by simp [reservationFor, same])]
          exact Nat.le_refl _
      have others := ih
        { db with reservations := db.reservations ++ [reservationFor workUnit leaseOwner now scope] }
      rw [map_cons, count_cons]
      simp only [beq_iff_eq]
      omega

theorem Db.enroll_activeCount (db : Db) (workUnit : WorkUnit) (chain : List ContentionScope)
    (leaseOwner scopeId : String) (now later : Int) :
    (db.enroll workUnit chain leaseOwner now).1.activeCount scopeId later ≤
      db.activeCount scopeId later + (chain.map ContentionScope.id).count scopeId := by
  have reserved := db.activeCount_reserve workUnit leaseOwner scopeId now later chain
  rw [enroll]
  split
  · rename_i written
    rwa [written] at reserved
  · rename_i written
    rw [written] at reserved
    exact Nat.le_trans (HoldsLess.of_reservations (by simp) scopeId later) reserved

theorem Db.admission_refuses
    {result : AdmissionResult} (decided : db.admission forest workUnitId now = .ok (workUnit, .inl result)) :
    result.admitted = false := by
  obtain ⟨candidate, _, decided⟩ := bind_eq_ok.mp decided
  split at decided
  · cases decided
    rfl
  · obtain ⟨chain, _, decided⟩ := bind_eq_ok.mp decided
    obtain ⟨older, _, decided⟩ := bind_eq_ok.mp decided
    split at decided
    · cases decided
      rfl
    · split at decided
      · cases decided
        rfl
      · cases decided

theorem Db.admission_reserves (decided : db.admission forest workUnitId now = .ok (workUnit, .inr chain)) :
    db.findWorkUnit workUnitId = .ok workUnit ∧ workUnit.status = .pending ∧
      forest.scopeChain workUnit.scopeId = .ok chain ∧ conflictingOlder forest workUnit chain db.allPending = .ok 0 ∧
      ∀ scope ∈ chain, db.activeCount scope.id now < scope.maxConcurrency := by
  obtain ⟨candidate, isUnit, decided⟩ := bind_eq_ok.mp decided
  split at decided
  · cases decided
  · rename_i pending
    obtain ⟨above, isChain, decided⟩ := bind_eq_ok.mp decided
    obtain ⟨older, counted, decided⟩ := bind_eq_ok.mp decided
    split at decided
    · cases decided
    · split at decided
      · cases decided
      · rename_i unsaturated
        cases decided
        obtain rfl : older = 0 := by omega
        refine ⟨isUnit, not_not.mp pending, isChain, counted, ?_⟩
        intro scope member
        have room := find?_eq_none.mp unsaturated scope member
        simpa [saturated] using room

def Db.lapsedCount (db : Db) (workUnitId scopeId : String) (now : Int) : Nat :=
  (db.reservationsOf scopeId).countP fun reservation =>
    reservation.workUnitId = workUnitId ∧ reservation.held ∧ reservation.expiresAt ≤ now

section
variable {db : Db} {workUnit : WorkUnit} {now : Int} {scope : ContentionScope} {reservation : Reservation}

theorem Reservation.renew_scopeId (reservation : Reservation) :
    (reservation.renew workUnit now scope).scopeId = reservation.scopeId := by
  unfold renew
  split <;> rfl

theorem Db.reservationsOf_renew : (db.renew workUnit now scope).reservationsOf scopeId =
      (db.reservationsOf scopeId).map (Reservation.renew workUnit now scope) :=
  filter_scope_map (Reservation.renew_scopeId) db.reservations

variable {scopeId : String}

theorem Db.reservationsOf_renew_of_ne (other : scopeId ≠ scope.id) :
    (db.renew workUnit now scope).reservationsOf scopeId = db.reservationsOf scopeId := by
  rw [reservationsOf_renew]
  conv_rhs => rw [← map_id (db.reservationsOf scopeId)]
  apply map_congr_left
  intro reservation member
  have inScope : reservation.scopeId = scopeId := by simpa using of_mem_filter member
  unfold Reservation.renew
  rw [if_neg, id]
  rintro ⟨_, same, _⟩
  exact other (inScope ▸ same)

variable {chain : List ContentionScope}

theorem Db.reservationsOf_renewAll (outside : scopeId ∉ chain.map ContentionScope.id) :
    (chain.foldl (Db.renew workUnit now) db).reservationsOf scopeId = db.reservationsOf scopeId := by
  induction chain generalizing db with
  | nil => rfl
  | cons first rest ih =>
    rw [map_cons, mem_cons, not_or] at outside
    rw [foldl_cons, ih outside.2, reservationsOf_renew_of_ne outside.1]

theorem Db.reservationsOf_renewAll_of_mem (distinct : (chain.map ContentionScope.id).Nodup) (member : scope ∈ chain) :
    (chain.foldl (Db.renew workUnit now) db).reservationsOf scope.id =
      (db.reservationsOf scope.id).map (Reservation.renew workUnit now scope) := by
  induction chain generalizing db with
  | nil => cases member
  | cons first rest ih =>
    rw [map_cons, nodup_cons] at distinct
    rw [foldl_cons]
    rcases mem_cons.mp member with rfl | later
    · rw [reservationsOf_renewAll distinct.1, reservationsOf_renew]
    · have other : scope.id ≠ first.id := by
        intro same
        exact distinct.1 (same ▸ mem_map_of_mem later)
      rw [ih distinct.2 later, reservationsOf_renew_of_ne other]

/-- One row of the scope: a heartbeat brings it back if it was the unit's and had run out. -/
theorem Reservation.renew_live (now : Int) (inScope : reservation.scopeId = scope.id)
    (positive : 0 < ttlSeconds workUnit scope) :
    ((reservation.renew workUnit now scope).held ∧ now < (reservation.renew workUnit now scope).expiresAt) ↔
      (reservation.held ∧ now < reservation.expiresAt) ∨
        (reservation.workUnitId = workUnit.id ∧ reservation.held ∧ reservation.expiresAt ≤ now) := by
  by_cases own : reservation.workUnitId = workUnit.id ∧ reservation.held
  · have later : now < now + ttlSeconds workUnit scope * 1000 := by omega
    have matched : reservation.workUnitId = workUnit.id ∧ reservation.scopeId = scope.id ∧
        reservation.held := ⟨own.1, inScope, own.2⟩
    have stillHeld : (reservation.renew workUnit now scope).held := by
      rw [renew, if_pos matched]
      exact own.2
    rw [iff_true_left ⟨stillHeld, by rwa [renew, if_pos matched]⟩]
    rcases lt_or_ge now reservation.expiresAt with live | lapsed
    · exact .inl ⟨own.2, live⟩
    · exact .inr ⟨own.1, own.2, lapsed⟩
  · have unmatched : ¬ (reservation.workUnitId = workUnit.id ∧ reservation.scopeId = scope.id ∧
        reservation.held) := fun matched => own ⟨matched.1, matched.2.2⟩
    rw [renew, if_neg unmatched]
    constructor
    · exact .inl
    · rintro (live | ⟨mine, isHeld, _⟩)
      · exact live
      · exact (own ⟨mine, isHeld⟩).elim

theorem Reservation.renew_live_of_nonpos (noLease : ttlSeconds workUnit scope ≤ 0)
    (live : (reservation.renew workUnit now scope).held ∧ now < (reservation.renew workUnit now scope).expiresAt) :
    reservation.held ∧ now < reservation.expiresAt := by
  unfold renew at live
  split at live
  · have expired := live.2
    dsimp only at expired
    omega
  · exact live

theorem countP_renew {reservations : List Reservation}
    (inScope : ∀ reservation ∈ reservations, reservation.scopeId = scope.id)
    (positive : 0 < ttlSeconds workUnit scope) : (reservations.map (Reservation.renew workUnit now scope)).countP
        (fun reservation => reservation.held ∧ now < reservation.expiresAt) =
      reservations.countP (fun reservation => reservation.held ∧ now < reservation.expiresAt) +
        reservations.countP fun reservation =>
          reservation.workUnitId = workUnit.id ∧ reservation.held ∧ reservation.expiresAt ≤ now := by
  induction reservations with
  | nil => rfl
  | cons reservation rest ih =>
    obtain ⟨here, inRest⟩ := forall_mem_cons.mp inScope
    have one := Reservation.renew_live now here positive
    have apart : ¬ ((reservation.held ∧ now < reservation.expiresAt) ∧
        reservation.workUnitId = workUnit.id ∧ reservation.held ∧ reservation.expiresAt ≤ now) := by
      rintro ⟨⟨_, live⟩, _, _, lapsed⟩
      omega
    rw [map_cons, countP_cons, countP_cons, countP_cons, ih inRest]
    simp only [decide_eq_true_eq, one]
    by_cases live : reservation.held ∧ now < reservation.expiresAt
    · have notLapsed : ¬ (reservation.workUnitId = workUnit.id ∧ reservation.held ∧
          reservation.expiresAt ≤ now) := fun lapsed => apart ⟨live, lapsed⟩
      rw [if_pos (.inl live), if_pos live, if_neg notLapsed]
      omega
    · simp only [or_iff_right live, if_neg live]
      omega

theorem Db.activeCount_renewAll (distinct : (chain.map ContentionScope.id).Nodup) (member : scope ∈ chain)
    (positive : 0 < ttlSeconds workUnit scope) : (chain.foldl (Db.renew workUnit now) db).activeCount scope.id now =
      db.activeCount scope.id now + db.lapsedCount workUnit.id scope.id now := by
  rw [activeCount, reservationsOf_renewAll_of_mem distinct member]
  apply countP_renew _ positive
  intro reservation inRows
  simpa using of_mem_filter inRows

theorem Db.activeCount_renewAll_le (db : Db) (now : Int)
    (distinct : (chain.map ContentionScope.id).Nodup) (member : scope ∈ chain)
    (noLease : ttlSeconds workUnit scope ≤ 0) :
    (chain.foldl (Db.renew workUnit now) db).activeCount scope.id now ≤ db.activeCount scope.id now := by
  rw [activeCount, reservationsOf_renewAll_of_mem distinct member, countP_map]
  apply countP_mono_left
  intro reservation _ live
  simp only [comp_apply, decide_eq_true_eq] at live ⊢
  exact Reservation.renew_live_of_nonpos noLease live

end

def Db.Bounded (forest : ScopeForest) (db : Db) (now : Int) : Prop :=
  ∀ scope ∈ forest.rows, db.activeCount scope.id now ≤ scope.maxConcurrency

theorem Db.Bounded.later {earlier : Int} (bounded : db.Bounded forest earlier)
    (ordered : earlier ≤ now) : db.Bounded forest now := by
  intro scope member
  have fewer := db.activeCount_antitone scope.id ordered
  have before := bounded scope member
  omega

theorem Db.Bounded.holdsLess (bounded : before.Bounded forest now)
    (less : db.HoldsLess before) : db.Bounded forest now := by
  intro scope member
  have fewer := less scope.id now
  have atFirst := bounded scope member
  omega

def Db.HasRoom (forest : ScopeForest) (db : Db) (now : Int) (workUnitId : String) : Prop :=
  ∀ workUnit chain, db.beating forest workUnitId = .ok (workUnit, chain) → ∀ scope ∈ chain,
    0 < ttlSeconds workUnit scope →
      db.activeCount scope.id now + db.lapsedCount workUnit.id scope.id now ≤ scope.maxConcurrency

theorem Db.tryAdmitWorkUnit_bounded (bounded : db.Bounded forest now) (workUnitId leaseOwner : String) :
    (db.tryAdmitWorkUnit forest workUnitId leaseOwner now).1.Bounded forest now := by
  rw [tryAdmitWorkUnit]
  split
  · exact bounded
  · exact bounded
  · rename_i workUnit chain decided
    obtain ⟨_, _, isChain, _, room⟩ := admission_reserves decided
    have distinct := (ScopeForest.scopeChain_spec isChain).2
    intro scope member
    have added := db.enroll_activeCount workUnit chain leaseOwner scope.id now now
    have once : (chain.map ContentionScope.id).count scope.id ≤ 1 := nodup_iff_count_le_one.mp distinct _
    by_cases inChain : scope.id ∈ chain.map ContentionScope.id
    · have free := room scope (ScopeForest.mem_chain isChain member inChain)
      omega
    · have absent := count_eq_zero_of_not_mem inChain
      have before := bounded scope member
      omega

theorem Db.beating_spec (found : db.beating forest workUnitId = .ok (workUnit, chain)) :
    forest.scopeChain workUnit.scopeId = .ok chain := by
  obtain ⟨candidate, _, found⟩ := bind_eq_ok.mp found
  split at found
  · obtain ⟨above, isChain, found⟩ := bind_eq_ok.mp found
    cases found
    exact isChain
  · cases found

/-- A heartbeat keeps the bound exactly where there is room for the leases that it brings back. -/
theorem Db.heartbeatWorkUnit_bounded_iff (bounded : db.Bounded forest now) :
    (db.heartbeatWorkUnit forest workUnitId now).1.Bounded forest now ↔ db.HasRoom forest now workUnitId := by
  rw [heartbeatWorkUnit]
  split
  · rename_i refused
    refine iff_of_true bounded ?_
    intro workUnit chain found
    rw [found] at refused
    cases refused
  · rename_i workUnit chain found
    obtain ⟨rows, distinct⟩ := ScopeForest.scopeChain_spec (beating_spec found)
    have counts : ∀ scopeId, (((chain.foldl (Db.renew workUnit now) db).putWorkUnit
        { workUnit with lastHeartbeatAt := now, updatedAt := now }).insertRunEvent
        (heartbeatEvent workUnit now)).1.activeCount scopeId now =
          (chain.foldl (Db.renew workUnit now) db).activeCount scopeId now :=
      fun scopeId => activeCount_congr (by simp) scopeId now
    constructor
    · intro after unit above again scope member positive
      obtain ⟨rfl, rfl⟩ : workUnit = unit ∧ chain = above := by
        rw [found] at again
        cases again
        exact ⟨rfl, rfl⟩
      have held := after scope (rows scope member)
      rwa [counts, activeCount_renewAll distinct member positive] at held
    · intro room scope member
      rw [counts]
      by_cases inChain : scope.id ∈ chain.map ContentionScope.id
      · have renewed := ScopeForest.mem_chain (beating_spec found) member inChain
        rcases lt_or_ge 0 (ttlSeconds workUnit scope) with positive | noLease
        · rw [activeCount_renewAll distinct renewed positive]
          exact room workUnit chain found scope renewed positive
        · have fewer := activeCount_renewAll_le db now distinct renewed noLease
          have before := bounded scope member
          omega
      · rw [activeCount, reservationsOf_renewAll inChain]
        exact bounded scope member

end SekaiChisei.Coordination
