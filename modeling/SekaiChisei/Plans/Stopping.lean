import SekaiChisei.Plans.Order

/-!
The runs of a plan admit no step once it is stopped, except that the stop of a plan whose review is no grant closes no
key.
-/

namespace SekaiChisei.Plans
open Lib Option Function

variable {setup : Setup} {world : World} {e : Nat} {run : Run}

def Admits (setup : Setup) (world : World) (act : Action) (index : Nat) : Prop :=
  ∃ e, (step setup world act).admissions = world.admissions ++ [⟨setup.key index, some e⟩]

def Opens (setup : Setup) (world : World) (work : Work) : PortCall → Prop
  | .replay | .submit _ => world.instances (setup.key work.execution.nextStep) = none
  | .decide _ => world.execution.map PlanExecution.claimHolder = some work.execution.claimHolder

theorem record_admissions (key : String) (written : ActionInstance) (author : Option Nat) :
    (world.record key written author).admissions = world.admissions ∨
      (world.record key written author).admissions = world.admissions ++ [⟨key, author⟩] := by
  rw [World.record]
  split
  · exact .inr rfl
  · exact .inl rfl

variable {saved : PlanExecution → Phase} {next : PlanExecution} {port : Answer} {work : Work} {act : Action}

theorem save_admissions : (world.save e run next saved).admissions = world.admissions := by
  rcases save_cases world e run next saved with ⟨_, _, _, result⟩ | result
  · rw [result]
    rfl
  · rw [result]
    rfl

theorem submit_admissions : (world.submit setup e work port).1.admissions = world.admissions ∨
      world.instances (setup.key work.execution.nextStep) = none ∧ (world.submit setup e work port).1.admissions =
        world.admissions ++ [⟨setup.key work.execution.nextStep, some e⟩] := by
  rw [World.submit]
  cases found : world.instances (setup.key work.execution.nextStep) with
  | some stored => exact .inl rfl
  | none =>
    cases port.recorded? with
    | none => exact .inl rfl
    | some recorded => exact (record_admissions _ _ _).imp id fun appended => ⟨rfl, appended⟩

theorem decide_admissions (parked : ActionInstance) :
    (world.decide setup e work parked port).1.admissions = world.admissions ∨
      world.execution.map PlanExecution.claimHolder = some work.execution.claimHolder ∧
      (world.decide setup e work parked port).1.admissions =
        world.admissions ++ [⟨setup.key work.execution.nextStep, some e⟩] := by
  rw [World.decide]
  cases world.instances (setup.key work.execution.nextStep) with
  | none => exact .inl rfl
  | some stored =>
    dsimp only
    split
    · exact .inl rfl
    split
    · exact .inl rfl
    split
    · exact .inl rfl
    rename_i owned
    cases port.recorded? with
    | none => exact .inl rfl
    | some recorded => exact (record_admissions _ _ _).imp id fun appended => ⟨not_not.mp owned, appended⟩

theorem call_admissions (call : PortCall) : (world.call setup e run work port call).admissions = world.admissions ∨
      Opens setup world work call ∧ (world.call setup e run work port call).admissions =
        world.admissions ++ [⟨setup.key work.execution.nextStep, some e⟩] := by
  cases call with
  | replay => exact submit_admissions
  | submit => exact submit_admissions
  | decide parked => exact decide_admissions parked

theorem advance_admissions (choice : Choice) : (world.advance setup e run choice).admissions = world.admissions ∨
      ∃ work call, run.phase = .calling work call ∧ Opens setup world work call ∧
        (world.advance setup e run choice).admissions =
          world.admissions ++ [⟨setup.key work.execution.nextStep, some e⟩] := by
  rw [World.advance]
  cases phase : run.phase with
  | calling work call =>
    exact (call_admissions call).imp id fun opened => ⟨work, call, rfl, opened⟩
  | claiming | unapproved | renewing | recording | stopping | releasing | completing => exact .inl save_admissions
  | creating | checking | checkingParked | halting | done => exact .inl rfl
  | starting | looking =>
    left
    dsimp only
    split
    · rfl
    · split
      · rfl
      · rfl
  | loading | rereading | superseded =>
    left
    dsimp only
    split
    · rfl
    · rfl
  | closing work reason =>
    left
    dsimp only
    rw [World.close]
    split
    · rfl
    · rfl

/-- Only a run that calls a port admits a step, and it is the step that the run is at. -/
theorem Admits.calling {index : Nat} (admits : Admits setup world act index) :
    ∃ e choice run work call, act = .advance e choice ∧ world.runs e = some run ∧ run.phase = .calling work call ∧
      Opens setup world work call ∧ work.execution.nextStep = index := by
  obtain ⟨author, appended⟩ := admits
  have grew : ∀ other : World, (other.admissions = world.admissions ∨
      ∃ key, other.admissions = world.admissions ++ [⟨key, none⟩]) →
      other.admissions ≠ world.admissions ++ [⟨setup.key index, some author⟩] := by
    rintro other (same | ⟨key, outside⟩) more
    · rw [same] at more
      simp at more
    · rw [outside] at more
      simp at more
  cases act with
  | start | submitReview | decideReview => exact absurd appended (grew _ (.inl rfl))
  | fail e error =>
    rw [step] at appended
    cases atE : world.runs e with
    | none =>
      rw [atE] at appended
      exact absurd appended (grew _ (.inl rfl))
    | some run =>
      rw [atE] at appended
      dsimp only at appended
      split at appended
      · exact absurd appended (grew _ (.inl rfl))
      · exact absurd appended (grew _ (.inl rfl))
  | advance e choice =>
    rw [step] at appended
    cases atE : world.runs e with
    | none =>
      rw [atE] at appended
      exact absurd appended (grew _ (.inl rfl))
    | some run =>
      rw [atE] at appended
      rcases @advance_admissions setup world e run choice with same | ⟨work, call, phase, opens, result⟩
      · exact absurd appended (grew _ (.inl same))
      · have keys : setup.key work.execution.nextStep = setup.key index := by
          have last := List.append_cancel_left (result.symm.trans appended)
          exact congrArg Admission.key (List.cons.inj last).1
        exact ⟨e, choice, run, work, call, rfl, atE, phase, opens, stepIdempotencyKey_injective keys⟩
  | otherSubmits key written =>
    refine absurd appended (grew _ ?_)
    rw [step]
    split
    · exact .inl rfl
    · exact (record_admissions key written none).imp id fun outside => ⟨key, outside⟩
  | otherDecides key status =>
    refine absurd appended (grew _ ?_)
    rw [step]
    split
    · exact .inl rfl
    · split
      · exact (record_admissions key _ none).imp id fun outside => ⟨key, outside⟩
      · exact .inl rfl

def Phase.submitting : Phase → Option Work
  | .calling work .replay | .calling work (.submit _) => some work
  | _ => none

variable {phase : Phase} {reason : StopReason}

theorem Phase.calling_of_submitting (submitting : phase.submitting = some work) :
    ∃ call, phase = .calling work call := by
  cases phase with
  | calling other call =>
    cases call with
    | replay | submit =>
      cases submitting
      exact ⟨_, rfl⟩
    | decide => cases submitting
  | _ => cases submitting

theorem opened_quiet (now : Int) (review : PlanReview) (approved : PlanSimulation) (execution : PlanExecution) :
    (opened now review approved execution).submitting = none := by
  rw [opened]
  split
  · rfl
  · split
    · rfl
    · rfl

theorem Verdict.phase_quiet (verdict : Verdict) : (verdict.phase work).submitting = none := by
  cases verdict <;> rfl

section
variable (work) (answer : Except PortError (ActionInstance × Option String))
include answer

theorem afterSubmit_quiet : (afterSubmit setup work answer).submitting = none := by
  match answer with
  | .error (.refused _) | .error .inProgress | .error .unavailable => rfl
  | .ok (answered, revision) =>
    rw [afterSubmit]
    split
    · rfl
    · cases answered.status <;> rfl

theorem afterDecide_quiet : (afterDecide work answer).submitting = none := by
  match answer with
  | .error (.refused _) | .error .inProgress | .error .unavailable => rfl
  | .ok (answered, revision) =>
    rw [afterDecide]
    split
    · rfl
    · rfl

end

theorem haltPhase_quiet (stored : Option ActionInstance) : (haltPhase setup work reason stored).submitting = none := by
  cases stored with
  | none => rfl
  | some stored =>
    rw [haltPhase]
    split
    · rfl
    · rfl

inductive Move (setup : Setup) (world : World) (e : Nat) (run : Run) : World → Prop
  | enters {phase : Phase} (quiet : phase.submitting = none) : Move setup world e run (world.enter e run phase)
  | records {key : String} {written : ActionInstance} {phase : Phase} (quiet : phase.submitting = none) :
    Move setup world e run ((world.record key written (some e)).enter e run phase)
  | creates {execution : PlanExecution} {phase : Phase} (unstopped : execution.stoppedAtStep = none)
    (quiet : phase.submitting = none) :
    Move setup world e run ({ world with execution := world.execution.or (some execution) }.enter e run phase)
  | saves {base next : PlanExecution} {saved : PlanExecution → Phase} (held : Held setup world base)
    (sameRevision : next.revision = base.revision) (unstopped : next.stoppedAtStep = none) :
    Move setup world e run (world.save e run next saved)
  | stops {base : PlanExecution} {reason : StopReason} {index : Nat} (held : Held setup world base)
    (closed : index = base.nextStep ∧ world.instances (setup.key index) ≠ none ∨
      run.phase = .unapproved base ∧ index = 0) :
    Move setup world e run (world.save e run (base.stop reason index run.now) fun saved => .done (.ok saved))

theorem Served.moves {outcome : World × Except PortError (ActionInstance × Option String)}
    (served : Served setup world e work outcome) (quiet : phase.submitting = none) :
    Move setup world e run (outcome.1.enter e run phase) := by
  rcases served.effect with same | ⟨written, _, recorded⟩
  · rw [same]
    exact .enters quiet
  · rw [recorded]
    exact .records quiet

theorem advance_moves (choice : Choice) (holds : Holds setup world) (atE : world.runs e = some run) :
    Move setup world e run (world.advance setup e run choice) := by
  have known := holds.phases e run atE
  rw [World.advance]
  generalize phase : run.phase = current at known ⊢
  cases current with
  | starting | looking work =>
    dsimp only
    split
    · exact .enters rfl
    · split
      · exact .enters rfl
      · exact .enters rfl
  | loading review approved | rereading review approved =>
    dsimp only
    split
    · exact .enters rfl
    · exact .enters (opened_quiet _ _ _ _)
  | creating review approved => exact .creates rfl rfl
  | claiming review approved execution | completing execution => exact .saves known.1 rfl known.1.unstopped
  | unapproved execution => exact .stops known (.inr ⟨phase, rfl⟩)
  | checking work | checkingParked work parked => exact .enters (Verdict.phase_quiet _)
  | renewing work call => exact .saves known.held rfl known.held.unstopped
  | calling work call =>
    cases call with
    | replay | submit => exact (submit_served choice.port).moves (afterSubmit_quiet _ _)
    | decide parked => exact (decide_served parked choice.port).moves (afterDecide_quiet _ _)
  | recording work answered revisionAfter => exact .saves known.1.held rfl known.1.held.unstopped
  | halting work reason => exact .enters (haltPhase_quiet _)
  | closing work reason =>
    dsimp only
    rw [World.close]
    split
    · exact .records rfl
    · exact .enters rfl
  | stopping work reason => exact .stops known.1.held (.inl ⟨rfl, known.2⟩)
  | releasing execution =>
    have held : Held setup world execution := known
    exact .saves held rfl held.unstopped
  | superseded =>
    dsimp only
    split
    · exact .enters rfl
    · exact .enters rfl
  | done result =>
    have same : world.enter e run run.phase = world := by
      have unchanged : update world.runs e (some { run with phase := run.phase }) = world.runs := by
        rw [← atE]
        exact update_eq_self e world.runs
      rw [World.enter, unchanged]
    have quiet : run.phase.submitting = none := by
      rw [phase]
      rfl
    have moved : Move setup world e run (world.enter e run run.phase) := .enters quiet
    rwa [same] at moved

variable {row : PlanExecution}

theorem step_keeps_stopped {i : Nat} (act : Action) (holds : Holds setup world)
    (stored : world.execution = some row) (stopped : row.stoppedAtStep = some i) :
    (step setup world act).execution = some row := by
  have unsaved : ∀ {e run base next saved}, Held setup world base → next.revision = base.revision →
      (world.save e run next saved).execution = some row := by
    intro e run base next saved held sameRevision
    rcases save_cases world e run next saved with ⟨found, storedToo, current, _⟩ | result
    · obtain ⟨again, storedAgain, _, _, same⟩ := held.current
      obtain rfl : found = row := some.inj (storedToo.symm.trans stored)
      obtain rfl : again = found := some.inj (storedAgain.symm.trans stored)
      rw [same (sameRevision.symm.trans current.symm), held.unstopped] at stopped
      cases stopped
    · rw [result]
      exact stored
  cases act with
  | start | submitReview | decideReview => exact stored
  | advance e choice =>
    rw [step]
    cases atE : world.runs e with
    | none => exact stored
    | some run =>
      dsimp only
      have moved := advance_moves choice holds atE
      generalize world.advance setup e run choice = after at moved
      cases moved with
      | enters => exact stored
      | records => exact stored
      | creates =>
        show world.execution.or _ = some row
        rw [stored]
        rfl
      | saves held sameRevision => exact unsaved held sameRevision
      | stops held => exact unsaved held rfl
  | fail e error | otherDecides key status =>
    rw [step]
    split
    · exact stored
    · split
      · exact stored
      · exact stored
  | otherSubmits key written =>
    rw [step]
    split
    · exact stored
    · exact stored

def Poised (setup : Setup) (world : World) (e : Nat) : Prop :=
  ∃ run work, world.runs e = some run ∧ run.phase.submitting = some work ∧
    world.instances (setup.key work.execution.nextStep) = none

def Unfenced (setup : Setup) (world : World) (act : Action) : Prop :=
  ∃ e choice run execution, act = .advance e choice ∧ world.runs e = some run ∧ run.phase = .unapproved execution ∧
    (∃ row, world.execution = some row ∧ row.revision = execution.revision) ∧ ∃ other, Poised setup world other

def Sealed (setup : Setup) (world : World) : Prop :=
  ∀ row i, world.execution = some row → row.stoppedAtStep = some i → ∀ e run work, world.runs e = some run →
    run.phase.submitting = some work → i ≤ work.execution.nextStep →
      world.instances (setup.key work.execution.nextStep) ≠ none

theorem Sealed.grow {later : World} (sealed : Sealed setup world) (row : later.execution = world.execution)
    (taken : ∀ key, world.instances key ≠ none → later.instances key ≠ none)
    (runs : ∀ e run work, later.runs e = some run → run.phase.submitting = some work → world.runs e = some run) :
    Sealed setup later := by
  intro found i stored stopped e run work atE submitting beyond
  rw [row] at stored
  exact taken _ (sealed found i stored stopped e run work (runs e run work atE submitting) submitting beyond)

theorem runs_of_quiet {others : Nat → Option Run} (quiet : phase.submitting = none) :
    ∀ other found work, update others e (some { run with phase }) other = some found →
      found.phase.submitting = some work → others other = some found := by
  intro other found work atOther submitting
  by_cases same : other = e
  · rw [same, update_self] at atOther
    obtain rfl : { run with phase } = found := some.inj atOther
    rw [quiet] at submitting
    cases submitting
  · rwa [update_of_ne same] at atOther

theorem sealed_of_unstopped (stored : world.execution = some row)
    (unstopped : row.stoppedAtStep = none) : Sealed setup world := by
  intro found i storedToo stopped
  obtain rfl : row = found := some.inj (stored.symm.trans storedToo)
  rw [unstopped] at stopped
  cases stopped

theorem Holds.submitting (holds : Holds setup world) (atE : world.runs e = some run)
    (submitting : run.phase.submitting = some work) : Working setup world work := by
  have known := holds.phases e run atE
  obtain ⟨call, phase⟩ := Phase.calling_of_submitting submitting
  rw [phase] at known
  exact known

theorem sealed_save (sealed : Sealed setup world)
    (unstopped : next.stoppedAtStep = none) : Sealed setup (world.save e run next saved) := by
  rcases save_cases world e run next saved with ⟨_, _, _, result⟩ | result
  · rw [result]
    exact sealed_of_unstopped rfl unstopped
  · rw [result]
    exact sealed.grow rfl (fun _ => id) (runs_of_quiet rfl)

variable {base : PlanExecution}

/-- A stop seals the plan when it is at the next step and the key of it is taken. -/
theorem sealed_stop {now : Int} (holds : Holds setup world)
    (sealed : Sealed setup world) (held : Held setup world base)
    (taken : world.instances (setup.key base.nextStep) ≠ none) :
    Sealed setup (world.save e run (base.stop reason base.nextStep now) fun saved => .done (.ok saved)) := by
  rcases save_cases world e run (base.stop reason base.nextStep now) (fun saved => .done (.ok saved)) with
    ⟨row, stored, current, result⟩ | result
  · rw [result]
    intro found i written stopped other submitter work atOther submitting beyond
    cases written
    cases stopped
    have before := runs_of_quiet rfl other submitter work atOther submitting
    obtain ⟨again, storedAgain, _, behind, _⟩ := (holds.submitting before submitting).held.current
    obtain ⟨own, storedOwn, _, _, same⟩ := held.current
    obtain rfl : row = again := some.inj (stored.symm.trans storedAgain)
    obtain rfl : row = own := some.inj (stored.symm.trans storedOwn)
    rw [same current.symm] at behind
    have here : work.execution.nextStep = base.nextStep := by omega
    rw [here]
    exact taken
  · rw [result]
    exact sealed.grow rfl (fun _ => id) (runs_of_quiet rfl)

theorem sealed_unapproved {now : Int} (sealed : Sealed setup world)
    (fenced : (∃ row, world.execution = some row ∧ row.revision = base.revision) →
      ∀ other, ¬ Poised setup world other) :
    Sealed setup (world.save e run (base.stop reason 0 now) fun saved => .done (.ok saved)) := by
  rcases save_cases world e run (base.stop reason 0 now) (fun saved => .done (.ok saved)) with
    ⟨row, stored, current, result⟩ | result
  · rw [result]
    intro found i written stopped other submitter work atOther submitting beyond free
    exact fenced ⟨row, stored, current⟩ other
      ⟨submitter, work, runs_of_quiet rfl other submitter work atOther submitting,
      submitting, free⟩
  · rw [result]
    exact sealed.grow rfl (fun _ => id) (runs_of_quiet rfl)

theorem step_sealed (holds : Holds setup world) (sealed : Sealed setup world)
    (fenced : ¬ Unfenced setup world act) : Sealed setup (step setup world act) := by
  cases act with
  | start startedBy now =>
    exact sealed.grow rfl (fun _ => id) (@runs_of_quiet world.started ⟨startedBy, now, .starting⟩ .starting _ rfl)
  | submitReview | decideReview => exact sealed.grow rfl (fun _ => id) fun _ _ _ same _ => same
  | advance e choice =>
    rw [step]
    cases atE : world.runs e with
    | none => exact sealed
    | some run =>
      dsimp only
      have moved := advance_moves choice holds atE
      generalize world.advance setup e run choice = after at moved
      cases moved with
      | enters quiet => exact sealed.grow rfl (fun _ => id) (runs_of_quiet quiet)
      | records quiet => exact sealed.grow rfl (grows_record _ (some e)).taken (runs_of_quiet quiet)
      | @creates execution phase unstopped quiet =>
        cases stored : world.execution with
        | some row => exact sealed.grow stored.symm (fun _ => id) (runs_of_quiet quiet)
        | none => exact sealed_of_unstopped rfl unstopped
      | saves held sameRevision unstopped => exact sealed_save sealed unstopped
      | stops held closed =>
        rcases closed with ⟨rfl, taken⟩ | ⟨phase, rfl⟩
        · exact sealed_stop holds sealed held taken
        · apply sealed_unapproved sealed
          intro current other poised
          exact fenced ⟨e, choice, run, _, rfl, atE, phase, current, other, poised⟩
  | fail e error =>
    rw [step]
    split
    · exact sealed
    · split
      · exact sealed
      · exact sealed.grow rfl (fun _ => id) (runs_of_quiet rfl)
  | otherSubmits key written =>
    rw [step]
    split
    · exact sealed
    · exact sealed.grow rfl (grows_record _ none).taken fun _ _ _ same _ => same
  | otherDecides key status =>
    rw [step]
    split
    · exact sealed
    · split
      · exact sealed.grow rfl (grows_record _ none).taken fun _ _ _ same _ => same
      · exact sealed

end SekaiChisei.Plans
