import SekaiChisei.Plans.Fencing

/-!
Every step of every run keeps what holds, and a run admits a step only under a granted review and after all earlier
steps.
-/

namespace SekaiChisei.Plans
open Lib Option

variable {setup : Setup} {world : World} {e : Nat} {run : Run}

variable {execution : PlanExecution} {approved : PlanSimulation}

theorem enterLoop_ok {produced : List (String × String)}
    (held : Held setup world execution) (granted : Granted world) (claimed : execution.claimHolder ≠ "") :
    PhaseOk setup world (enterLoop setup approved produced execution) := by
  rw [enterLoop]
  cases next : setup.plan.steps[execution.nextStep]? with
  | none => exact ⟨held, List.getElem?_eq_none_iff.mp next⟩
  | some step =>
    show PhaseOk setup world (if _ then _ else _)
    split
    · exact ⟨held, granted, claimed⟩
    · exact ⟨held, granted, claimed⟩

variable {review : PlanReview}

theorem opened_ok {now : Int} {row : PlanExecution} (ok : RowOk setup world row) (stored : world.execution = some row)
    (grant : review.decision = .grant → Granted world) : PhaseOk setup world (opened now review approved row) := by
  rw [opened]
  split
  · trivial
  · rename_i running
    split
    · trivial
    · exact ⟨ok.held stored (not_not.mp running), grant⟩

variable {work : Work}

theorem Verdict.phase_ok (working : Working setup world work) (verdict : Verdict) :
    PhaseOk setup world (verdict.phase work) := by
  cases verdict with
  | proceed => exact working
  | halt => exact working
  | release => exact working.held
  | fail => trivial

variable {answer : Except PortError (ActionInstance × Option String)}

section
variable (working : Working setup world work)
  (admitted : ∀ answered revision, answer = .ok (answered, revision) → answered.status = .admitted →
    Admitted setup world work.execution.nextStep)
include working admitted

theorem afterSubmit_ok : PhaseOk setup world (afterSubmit setup work answer) := by
  match answer with
  | .error (.refused _) => exact working
  | .error .inProgress => exact working.held
  | .error .unavailable => exact working.held
  | .ok (answered, revision) =>
    rw [afterSubmit]
    split
    · exact working
    · cases status : answered.status with
      | parked => exact working
      | admitted => exact ⟨working, admitted answered revision rfl status⟩
      | denied => exact working

theorem afterDecide_ok : PhaseOk setup world (afterDecide work answer) := by
  match answer with
  | .error (.refused _) => exact working
  | .error .inProgress => exact working.held
  | .error .unavailable => exact working.held
  | .ok (answered, revision) =>
    rw [afterDecide]
    split
    · rename_i status
      exact ⟨working, admitted answered revision rfl status⟩
    · exact working

end

variable {stored : ActionInstance}

theorem LogOk.admitted {index : Nat} (log : LogOk world)
    (found : world.instances (setup.key index) = some stored) (status : stored.status = .admitted) :
    Admitted setup world index := by
  obtain ⟨admission, member, named⟩ := List.mem_map.mp ((log.stored (setup.key index)).mpr ⟨stored, found, status⟩)
  exact ⟨admission, member, named⟩

variable {answered : ActionInstance} {reason : StopReason}

theorem Answer.result_eq_ok {revision given : Option String} {port : Answer}
    (result : port.result stored given = .ok (answered, revision)) : answered = stored := by
  cases port with
  | answers => cases result; rfl
  | loses => cases result
  | fails => cases result

/-- What a port did: nothing, or it wrote an instance for the run under the key of the step. What it answers with
is what is stored. -/
structure Served (setup : Setup) (world : World) (e : Nat) (work : Work)
    (outcome : World × Except PortError (ActionInstance × Option String)) : Prop where
  effect : outcome.1 = world ∨ ∃ written, Writable world (setup.key work.execution.nextStep) ∧
    outcome.1 = world.record (setup.key work.execution.nextStep) written (some e)
  answer : ∀ answered revision, outcome.2 = .ok (answered, revision) →
    outcome.1.instances (setup.key work.execution.nextStep) = some answered ∨ answered.status = .denied

theorem submit_served (port : Answer) : Served setup world e work (world.submit setup e work port) := by
  rw [World.submit]
  cases found : world.instances (setup.key work.execution.nextStep) with
  | some stored =>
    refine ⟨.inl rfl, ?_⟩
    intro answered revision result
    rw [Answer.result_eq_ok result]
    exact .inl found
  | none =>
    cases port.recorded? with
    | none =>
      refine ⟨.inl rfl, ?_⟩
      intro answered revision result
      rw [Answer.result_eq_ok result]
      exact .inr rfl
    | some recorded =>
      have free : Writable world (setup.key work.execution.nextStep) := by
        intro stored taken
        rw [found] at taken
        cases taken
      refine ⟨.inr ⟨_, free, rfl⟩, ?_⟩
      intro answered revision result
      rw [Answer.result_eq_ok result]
      exact .inl (record_instances_self _ _)

theorem decide_served (parked : ActionInstance) (port : Answer) :
    Served setup world e work (world.decide setup e work parked port) := by
  rw [World.decide]
  cases found : world.instances (setup.key work.execution.nextStep) with
  | none => exact ⟨.inl rfl, fun _ _ result => by cases result⟩
  | some stored =>
    show Served setup world e work (if _ then _ else if _ then _ else if _ then _ else _)
    split
    · exact ⟨.inl rfl, fun _ _ result => by cases result⟩
    split
    · refine ⟨.inl rfl, ?_⟩
      intro answered revision result
      rw [Answer.result_eq_ok result]
      exact .inl found
    rename_i status
    split
    · exact ⟨.inl rfl, fun _ _ result => by cases result⟩
    cases port.recorded? with
    | none =>
      refine ⟨.inl rfl, ?_⟩
      intro answered revision result
      rw [Answer.result_eq_ok result]
      exact .inl found
    | some recorded =>
      have own : Writable world (setup.key work.execution.nextStep) := by
        intro other taken
        obtain rfl : stored = other := some.inj (found.symm.trans taken)
        exact not_not.mp status
      refine ⟨.inr ⟨_, own, rfl⟩, ?_⟩
      intro answered revision result
      rw [Answer.result_eq_ok result]
      exact .inl (record_instances_self _ _)

theorem Served.holds {outcome : World × Except PortError (ActionInstance × Option String)}
    (holds : Holds setup world) (served : Served setup world e work outcome) :
    Holds setup outcome.1 ∧ Grows world outcome.1 ∧ ∀ answered revision, outcome.2 = .ok (answered, revision) →
      answered.status = .admitted → Admitted setup outcome.1 work.execution.nextStep := by
  have after : Holds setup outcome.1 ∧ Grows world outcome.1 := by
    rcases served.effect with same | ⟨written, writable, recorded⟩
    · rw [same]
      exact ⟨holds, id, fun _ => id, fun _ => id, fun row stored => ⟨row, stored, Or.inl rfl⟩⟩
    · rw [recorded]
      exact ⟨holds.record writable written (some e), grows_record _ _⟩
  refine ⟨after.1, after.2, ?_⟩
  intro answered revision result status
  rcases served.answer answered revision result with stored | denied
  · exact after.1.log.admitted stored status
  · rw [denied] at status
    cases status

theorem rowOk_stop (held : Held setup world execution) (index : Nat)
    (now : Int) : RowOk setup world (execution.stop reason index now) := by
  refine ⟨held.earlier, fun _ => rfl, ?_, fun _ => rfl⟩
  intro completed
  cases completed

theorem claiming_holds (holds : Holds setup world) (held : Held setup world execution)
    (grant : review.decision = .grant → Granted world) :
    Holds setup (world.save e run (execution.claim (setup.uuid e) run.now) fun saved =>
      if review.decision = .grant then enterLoop setup approved (producedBy setup saved) saved
      else .unapproved saved) := by
  refine holds.save held rfl (Nat.le_refl _) (rowOk_of_running held.running held.unstopped held.earlier) ?_
  intro grows
  have own : Held setup (world.write (execution.claim (setup.uuid e) run.now))
      (bump (execution.claim (setup.uuid e) run.now)) :=
    held_write grows held.running held.unstopped held.earlier
  split
  · rename_i granted
    exact enterLoop_ok own (grows.granted (grant granted)) (setup.uuid_nonempty e)
  · exact own

variable {call : PortCall}

section
variable (holds : Holds setup world) (working : Working setup world work)
include holds working

theorem renewing_holds {now : Int} : Holds setup (world.save e run (work.execution.renew now) fun saved =>
      .calling { work with execution := saved } call) := by
  have held := working.held
  refine holds.save held rfl (Nat.le_refl _) (rowOk_of_running held.running held.unstopped held.earlier) ?_
  intro grows
  exact ⟨held_write grows held.running held.unstopped held.earlier, grows.granted working.granted, working.claimed⟩

theorem recording_holds {revisionAfter : String} (admitted : Admitted setup world work.execution.nextStep) :
    Holds setup (world.save e run (work.execution.record answered revisionAfter run.now) fun saved =>
      enterLoop setup work.approved ((work.step.objectId, revisionAfter) :: work.produced) saved) := by
  have held := working.held
  have earlier : ∀ i < work.execution.nextStep + 1, Admitted setup world i := by
    intro i before
    rcases Nat.lt_succ_iff_lt_or_eq.mp before with less | rfl
    · exact held.earlier i less
    · exact admitted
  refine holds.save held rfl (Nat.le_succ _) (rowOk_of_running held.running held.unstopped earlier) ?_
  intro grows
  exact enterLoop_ok (held_write grows held.running held.unstopped earlier) (grows.granted working.granted)
    working.claimed

theorem call_holds {port : Answer} : Holds setup (world.call setup e run work port call) := by
  have submitted : Holds setup ((world.submit setup e work port).1.enter e run
      (afterSubmit setup work (world.submit setup e work port).2)) := by
    obtain ⟨after, grows, admitted⟩ := (submit_served port).holds holds
    exact after.enter (afterSubmit_ok (working.grow grows) admitted)
  cases call with
  | replay => exact submitted
  | submit => exact submitted
  | decide parked =>
    obtain ⟨after, grows, admitted⟩ := (decide_served parked port).holds holds
    exact after.enter (afterDecide_ok (working.grow grows) admitted)

end

theorem close_holds {id : String} (holds : Holds setup world)
    (working : Working setup world work) : Holds setup (world.close setup e run work reason id) := by
  rw [World.close]
  split
  · rename_i own
    have free : Writable world (setup.key work.execution.nextStep) := by
      intro stored taken
      rw [own.1] at taken
      cases taken
    refine (holds.record free _ _).enter ⟨working.grow (grows_record _ _), ?_⟩
    rw [record_instances_self]
    exact some_ne_none _
  · exact holds.enter working.held

theorem haltPhase_ok (working : Working setup world work) :
    PhaseOk setup world (haltPhase setup work reason (world.instances (setup.key work.execution.nextStep))) := by
  cases found : world.instances (setup.key work.execution.nextStep) with
  | none => exact working
  | some stored =>
    rw [haltPhase]
    split
    · exact working.held
    · refine ⟨working, ?_⟩
      rw [found]
      exact some_ne_none _

section
variable (holds : Holds setup world)
include holds

theorem creating_holds (grant : review.decision = .grant → Granted world) (fresh : RowOk setup world execution) :
    Holds setup ({ world with execution := world.execution.or (some execution) }.enter e run
      (.rereading review approved)) := by
  have grows : Grows world ({ world with execution := world.execution.or (some execution) }.enter e run
      (.rereading review approved)) := by
    refine ⟨id, fun _ => id, fun _ => id, ?_⟩
    intro row stored
    exact ⟨row, by rw [World.enter, stored]; rfl, Or.inl rfl⟩
  have ok : ∀ row, world.execution.or (some execution) = some row → RowOk setup world row := by
    intro row found
    cases stored : world.execution with
    | some old =>
      rw [stored] at found
      obtain rfl : old = row := some.inj found
      exact holds.row old stored
    | none =>
      rw [stored] at found
      obtain rfl : execution = row := some.inj found
      exact fresh
  exact holds.moved grows rfl (fun row found => (ok row found).grow grows) ⟨holds.log.once, holds.log.stored⟩
    fun granted => grows.granted (grant granted)

theorem completing_holds (held : Held setup world execution) (whole : setup.plan.steps.length ≤ execution.nextStep) :
    Holds setup (world.save e run (execution.complete run.now).release fun saved => .done (.ok saved)) := by
  have ok : RowOk setup world (execution.complete run.now).release :=
    ⟨held.earlier, fun _ => rfl, fun _ => whole, fun stopped => absurd held.unstopped stopped⟩
  exact holds.save held rfl (Nat.le_refl _) ok fun _ => trivial

theorem advance_holds {choice : Choice} (atE : world.runs e = some run) :
    Holds setup (world.advance setup e run choice) := by
  have known := holds.phases e run atE
  rw [World.advance]
  generalize run.phase = phase at known ⊢
  cases phase with
  | starting =>
    cases reviewed : world.review with
    | none => exact holds.enter trivial
    | some review =>
      dsimp only
      split
      · exact holds.enter trivial
      · exact holds.enter fun grant => ⟨review, reviewed, grant⟩
  | loading review approved =>
    cases stored : world.execution with
    | none => exact holds.enter known
    | some row => exact holds.enter (opened_ok (holds.row row stored) stored known)
  | creating review approved =>
    exact creating_holds holds known (rowOk_of_running rfl rfl fun i before => absurd before (Nat.not_lt_zero i))
  | rereading review approved =>
    cases stored : world.execution with
    | none => exact holds.enter trivial
    | some row => exact holds.enter (opened_ok (holds.row row stored) stored known)
  | claiming review approved execution => exact claiming_holds holds known.1 known.2
  | unapproved execution => exact holds.save known rfl (Nat.le_refl _) (rowOk_stop known _ _) fun _ => trivial
  | looking work =>
    dsimp only
    split
    · exact holds.enter known
    · split
      · exact holds.enter known
      · exact holds.enter known
  | checking work | checkingParked work parked => exact holds.enter (Verdict.phase_ok known _)
  | renewing work call => exact renewing_holds holds known
  | calling work call => exact call_holds holds known
  | recording work answered revisionAfter => exact recording_holds holds known.1 known.2
  | halting work reason => exact holds.enter (haltPhase_ok known)
  | closing work reason => exact close_holds holds known
  | stopping work reason =>
    exact holds.save known.1.held rfl (Nat.le_refl _) (rowOk_stop known.1.held _ _) fun _ => trivial
  | releasing execution =>
    have held : Held setup world execution := known
    exact holds.save held rfl (Nat.le_refl _) (rowOk_of_running held.running held.unstopped held.earlier)
      fun _ => trivial
  | completing execution => exact completing_holds holds known.1 known.2
  | superseded =>
    cases world.execution with
    | none => exact holds.enter trivial
    | some current => exact holds.enter trivial
  | done result => exact holds

theorem Holds.outside {later : World} (grows : Grows world later) (runs : later.runs = world.runs)
    (row : later.execution = world.execution) (log : LogOk later) : Holds setup later := by
  refine ⟨?_, ?_, log⟩
  · intro found stored
    rw [row] at stored
    exact (holds.row found stored).grow grows
  · intro e run atE
    rw [runs] at atE
    exact (holds.phases e run atE).grow grows

end

theorem step_holds (act : Action) (holds : Holds setup world) : Holds setup (step setup world act) := by
  cases act with
  | start startedBy now =>
    have grows : Grows world (step setup world (.start startedBy now)) :=
      ⟨id, fun _ => id, fun _ => id, fun row stored => ⟨row, stored, Or.inl rfl⟩⟩
    exact @Holds.moved setup world _ world.started ⟨startedBy, now, .starting⟩ .starting holds grows rfl
      (fun row stored => (holds.row row stored).grow grows) ⟨holds.log.once, holds.log.stored⟩ trivial
  | advance e choice =>
    rw [step]
    cases atE : world.runs e with
    | none => exact holds
    | some run => exact advance_holds holds atE
  | fail e error =>
    rw [step]
    cases world.runs e with
    | none => exact holds
    | some run =>
      dsimp only
      split
      · exact holds
      · exact holds.enter trivial
  | submitReview simulationId simulationDigest =>
    have grows : Grows world (step setup world (.submitReview simulationId simulationDigest)) := by
      refine ⟨?_, fun _ => id, fun _ => id, fun row stored => ⟨row, stored, Or.inl rfl⟩⟩
      rintro ⟨review, reviewed, granted⟩
      exact ⟨review, by rw [step, reviewed]; rfl, granted⟩
    exact holds.outside grows rfl rfl ⟨holds.log.once, holds.log.stored⟩
  | decideReview granted =>
    have grows : Grows world (step setup world (.decideReview granted)) := by
      refine ⟨?_, fun _ => id, fun _ => id, fun row stored => ⟨row, stored, Or.inl rfl⟩⟩
      rintro ⟨review, reviewed, granted⟩
      refine ⟨review, ?_, granted⟩
      rw [step, reviewed, map_some, if_neg]
      rw [granted]
      decide
    exact holds.outside grows rfl rfl ⟨holds.log.once, holds.log.stored⟩
  | otherSubmits key written =>
    rw [step]
    cases found : world.instances key with
    | some stored => exact holds
    | none =>
      apply holds.record
      intro stored taken
      rw [found] at taken
      cases taken
  | otherDecides key status =>
    rw [step]
    cases found : world.instances key with
    | none => exact holds
    | some stored =>
      dsimp only
      split
      · rename_i parked
        apply holds.record
        intro other taken
        obtain rfl : stored = other := some.inj (found.symm.trans taken)
        exact parked
      · exact holds

end SekaiChisei.Plans
