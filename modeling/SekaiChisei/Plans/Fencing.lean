import SekaiChisei.Lib.Json
import SekaiChisei.Plans.Executor

/-!
A copy that a run holds is the stored row or older, so that a write over an older copy fails; the recorded steps are
admitted, in order, whatever the other runs do.
-/

namespace SekaiChisei.Plans
open Lib List Option Function

variable {setup : Setup} {world later : World} {e : Nat} {run : Run}

theorem stepIdempotencyKey_injective {planId : String} {i j : Nat}
    (same : stepIdempotencyKey planId i = stepIdempotencyKey planId j) : i = j := by
  have chars := congrArg String.toList same
  simp only [stepIdempotencyKey, String.toList_append, append_cancel_left_eq] at chars
  exact Nat.repr_inj.mp (String.toList_inj.mp chars)

def Granted (world : World) : Prop := ∃ review, world.review = some review ∧ review.decision = .grant

def Admitted (setup : Setup) (world : World) (index : Nat) : Prop :=
  ∃ admission ∈ world.admissions, admission.key = setup.key index

structure Grows (world later : World) : Prop where
  granted : Granted world → Granted later
  taken : ∀ key, world.instances key ≠ none → later.instances key ≠ none
  admitted : ∀ admission ∈ world.admissions, admission ∈ later.admissions
  row : ∀ row, world.execution = some row → ∃ next, later.execution = some next ∧
    (next = row ∨ row.revision < next.revision ∧ row.nextStep ≤ next.nextStep)

theorem Admitted.grow {index : Nat} (grows : Grows world later) (admitted : Admitted setup world index) :
    Admitted setup later index := by
  obtain ⟨admission, member, named⟩ := admitted
  exact ⟨admission, grows.admitted admission member, named⟩

structure Held (setup : Setup) (world : World) (execution : PlanExecution) : Prop where
  current : ∃ row, world.execution = some row ∧ execution.revision ≤ row.revision ∧
    execution.nextStep ≤ row.nextStep ∧ (execution.revision = row.revision → row = execution)
  running : execution.status = .running
  unstopped : execution.stoppedAtStep = none
  earlier : ∀ i < execution.nextStep, Admitted setup world i

theorem Held.grow {execution : PlanExecution} (grows : Grows world later) (held : Held setup world execution) :
    Held setup later execution := by
  obtain ⟨row, stored, older, behind, same⟩ := held.current
  refine ⟨?_, held.running, held.unstopped, fun i before => (held.earlier i before).grow grows⟩
  obtain ⟨next, storedNext, kept | ⟨newer, further⟩⟩ := grows.row row stored
  · rw [kept] at storedNext
    exact ⟨row, storedNext, older, behind, same⟩
  · refine ⟨next, storedNext, by omega, by omega, ?_⟩
    intro equal
    omega

structure RowOk (setup : Setup) (world : World) (row : PlanExecution) : Prop where
  earlier : ∀ i < row.nextStep, Admitted setup world i
  ended : row.status ≠ .running → row.claimHolder = ""
  whole : row.status = .completed → setup.plan.steps.length ≤ row.nextStep
  stopped : row.stoppedAtStep ≠ none → row.status = .stopped

variable {row : PlanExecution}

theorem RowOk.grow (grows : Grows world later) (ok : RowOk setup world row) : RowOk setup later row :=
  ⟨fun i before => (ok.earlier i before).grow grows, ok.ended, ok.whole, ok.stopped⟩

theorem RowOk.held (ok : RowOk setup world row) (stored : world.execution = some row)
    (running : row.status = .running) : Held setup world row := by
  refine ⟨⟨row, stored, Nat.le_refl _, Nat.le_refl _, fun _ => rfl⟩, running, ?_, ok.earlier⟩
  by_contra stopped
  rw [ok.stopped stopped] at running
  cases running

theorem rowOk_of_running (running : row.status = .running) (unstopped : row.stoppedAtStep = none)
    (earlier : ∀ i < row.nextStep, Admitted setup world i) : RowOk setup world row := by
  refine ⟨earlier, fun ended => absurd running ended, ?_, fun stopped => absurd unstopped stopped⟩
  intro completed
  rw [running] at completed
  cases completed

structure Working (setup : Setup) (world : World) (work : Work) : Prop where
  held : Held setup world work.execution
  granted : Granted world
  claimed : work.execution.claimHolder ≠ ""

theorem Working.grow {work : Work} (grows : Grows world later) (working : Working setup world work) :
    Working setup later work :=
  ⟨working.held.grow grows, grows.granted working.granted, working.claimed⟩

def PhaseOk (setup : Setup) (world : World) : Phase → Prop
  | .starting | .superseded | .done _ => True
  | .loading review _ | .creating review _ | .rereading review _ => review.decision = .grant → Granted world
  | .claiming review _ execution => Held setup world execution ∧ (review.decision = .grant → Granted world)
  | .unapproved execution | .releasing execution => Held setup world execution
  | .looking work | .checking work | .checkingParked work _ | .renewing work _ | .calling work _
  | .halting work _ | .closing work _ => Working setup world work
  | .recording work _ _ => Working setup world work ∧ Admitted setup world work.execution.nextStep
  | .stopping work _ => Working setup world work ∧ world.instances (setup.key work.execution.nextStep) ≠ none
  | .completing execution => Held setup world execution ∧ setup.plan.steps.length ≤ execution.nextStep

variable {phase : Phase}

theorem PhaseOk.grow (grows : Grows world later) (ok : PhaseOk setup world phase) : PhaseOk setup later phase := by
  cases phase with
  | starting | superseded | done => trivial
  | loading | creating | rereading => exact fun grant => grows.granted (ok grant)
  | claiming => exact ⟨ok.1.grow grows, fun grant => grows.granted (ok.2 grant)⟩
  | unapproved | releasing => exact Held.grow grows ok
  | looking | checking | checkingParked | renewing | calling | halting | closing => exact Working.grow grows ok
  | recording => exact ⟨ok.1.grow grows, ok.2.grow grows⟩
  | stopping => exact ⟨ok.1.grow grows, grows.taken _ ok.2⟩
  | completing => exact ⟨ok.1.grow grows, ok.2⟩

/-- The admissions are the instances that are admitted, each once. -/
structure LogOk (world : World) : Prop where
  once : (world.admissions.map Admission.key).Nodup
  stored : ∀ key, key ∈ world.admissions.map Admission.key ↔
    ∃ stored, world.instances key = some stored ∧ stored.status = .admitted

structure Holds (setup : Setup) (world : World) : Prop where
  row : ∀ row, world.execution = some row → RowOk setup world row
  phases : ∀ e run, world.runs e = some run → PhaseOk setup world run.phase
  log : LogOk world

theorem Holds.moved (holds : Holds setup world) (grows : Grows world later)
    (runs : later.runs = update world.runs e (some { run with phase }))
    (row : ∀ row, later.execution = some row → RowOk setup later row) (log : LogOk later)
    (ok : PhaseOk setup later phase) : Holds setup later := by
  refine ⟨row, ?_, log⟩
  intro other found atOther
  rw [runs] at atOther
  by_cases same : other = e
  · rw [same, update_self] at atOther
    cases atOther
    exact ok
  · rw [update_of_ne same] at atOther
    exact (holds.phases other found atOther).grow grows

theorem grows_enter : Grows world (world.enter e run phase) :=
  ⟨id, fun _ => id, fun _ => id, fun row stored => ⟨row, stored, Or.inl rfl⟩⟩

theorem Holds.enter (holds : Holds setup world) (ok : PhaseOk setup world phase) :
    Holds setup (world.enter e run phase) :=
  holds.moved (grows_enter) rfl (fun row stored => (holds.row row stored).grow (grows_enter))
    ⟨holds.log.once, holds.log.stored⟩ (ok.grow (grows_enter))

def bump (next : PlanExecution) : PlanExecution := { next with revision := next.revision + 1 }

def World.write (world : World) (next : PlanExecution) : World := { world with execution := some (bump next) }

theorem save_cases (world : World) (e : Nat) (run : Run) (next : PlanExecution) (saved : PlanExecution → Phase) :
    (∃ row, world.execution = some row ∧ row.revision = next.revision ∧
      world.save e run next saved = (world.write next).enter e run (saved (bump next))) ∨
    world.save e run next saved = world.enter e run .superseded := by
  rw [World.save]
  cases stored : world.execution with
  | none => exact .inr rfl
  | some row =>
    by_cases same : row.revision = next.revision
    · exact .inl ⟨row, rfl, same, if_pos same⟩
    · exact .inr (if_neg same)

variable {next base : PlanExecution} {key : String}

theorem grows_write (held : Held setup world base)
    (sameRevision : next.revision = base.revision) (further : base.nextStep ≤ next.nextStep)
    (stored : world.execution = some row) (current : row.revision = next.revision) :
    row = base ∧ Grows world (world.write next) := by
  obtain ⟨found, storedToo, _, _, same⟩ := held.current
  obtain rfl : row = found := some.inj (stored.symm.trans storedToo)
  have base : row = base := same (sameRevision.symm.trans current.symm)
  refine ⟨base, id, fun _ => id, fun _ => id, ?_⟩
  intro old storedOld
  obtain rfl : old = row := some.inj (storedOld.symm.trans stored)
  refine ⟨bump next, rfl, Or.inr ⟨?_, ?_⟩⟩
  · show old.revision < next.revision + 1
    omega
  · show old.nextStep ≤ next.nextStep
    rw [base]
    exact further

/-- A save keeps what holds when the row it writes is in order and the phase after it knows it. -/
theorem Holds.save {saved : PlanExecution → Phase} (holds : Holds setup world)
    (held : Held setup world base) (sameRevision : next.revision = base.revision)
    (further : base.nextStep ≤ next.nextStep) (ok : RowOk setup world next)
    (after : Grows world (world.write next) → PhaseOk setup (world.write next) (saved (bump next))) :
    Holds setup (world.save e run next saved) := by
  rcases save_cases world e run next saved with ⟨row, stored, current, result⟩ | result
  · obtain ⟨_, grows⟩ := grows_write held sameRevision further stored current
    have grown : Grows world ((world.write next).enter e run (saved (bump next))) :=
      ⟨grows.granted, grows.taken, grows.admitted, grows.row⟩
    rw [result]
    refine holds.moved grown rfl ?_ ⟨holds.log.once, holds.log.stored⟩ ((after grows).grow (grows_enter))
    intro written found
    obtain rfl : bump next = written := some.inj found
    exact ⟨fun i before => (ok.earlier i before).grow grown, ok.ended, ok.whole, ok.stopped⟩
  · rw [result]
    exact holds.enter trivial

theorem held_write (grows : Grows world (world.write next)) (running : next.status = .running)
    (unstopped : next.stoppedAtStep = none) (earlier : ∀ i < next.nextStep, Admitted setup world i) :
    Held setup (world.write next) (bump next) :=
  ⟨⟨bump next, rfl, Nat.le_refl _, Nat.le_refl _, fun _ => rfl⟩, running, unstopped,
    fun i before => (earlier i before).grow grows⟩

def Writable (world : World) (key : String) : Prop :=
  ∀ stored, world.instances key = some stored → stored.status = .parked

theorem record_instances_self (written : ActionInstance) (author : Option Nat) :
    (world.record key written author).instances key = some written := update_self _ _ _

variable {written : ActionInstance} {author : Option Nat}

theorem record_instances_of_ne {other : String} (different : other ≠ key) :
    (world.record key written author).instances other = world.instances other :=
  update_of_ne different _ _

theorem grows_record (written : ActionInstance) (author : Option Nat) :
    Grows world (world.record key written author) := by
  refine ⟨id, ?_, ?_, fun row stored => ⟨row, stored, Or.inl rfl⟩⟩
  · intro other taken
    by_cases same : other = key
    · rw [same, record_instances_self]
      exact some_ne_none _
    · rw [record_instances_of_ne same]
      exact taken
  · intro admission member
    rw [World.record]
    split
    · exact mem_append_left _ member
    · exact member

theorem logOk_record (log : LogOk world) (writable : Writable world key) : LogOk (world.record key written author) := by
  have unlogged : key ∉ world.admissions.map Admission.key := by
    intro logged
    obtain ⟨stored, found, admitted⟩ := (log.stored key).mp logged
    rw [writable stored found] at admitted
    cases admitted
  by_cases admitted : written.status = .admitted
  · have logged : (world.record key written author).admissions.map Admission.key =
        world.admissions.map Admission.key ++ [key] := by
      rw [World.record, if_pos admitted, map_append]
      rfl
    constructor
    · rw [logged, nodup_append_comm]
      exact nodup_cons.mpr ⟨unlogged, log.once⟩
    · intro other
      rw [logged, mem_append, mem_singleton]
      by_cases same : other = key
      · rw [same, record_instances_self]
        exact ⟨fun _ => ⟨written, rfl, admitted⟩, fun _ => .inr rfl⟩
      · rw [record_instances_of_ne same, log.stored other]
        simp only [same, or_false]
  · have logged : (world.record key written author).admissions = world.admissions := if_neg admitted
    constructor
    · rw [logged]
      exact log.once
    · intro other
      rw [logged]
      by_cases same : other = key
      · rw [same, record_instances_self]
        constructor
        · exact fun inside => absurd inside unlogged
        · rintro ⟨stored, found, status⟩
          obtain rfl : written = stored := some.inj found
          exact absurd status admitted
      · rw [record_instances_of_ne same, log.stored other]

theorem Holds.record (holds : Holds setup world) (writable : Writable world key)
    (written : ActionInstance) (author : Option Nat) : Holds setup (world.record key written author) :=
  ⟨fun row stored => (holds.row row stored).grow (grows_record written author),
    fun other found atOther => (holds.phases other found atOther).grow (grows_record written author),
    logOk_record holds.log writable⟩

end SekaiChisei.Plans
