import SekaiChisei.Plans.Stopping

/-!
Plan execution along whole schedules: any number of runs, which pause, crash and take over from each other between
any two operations of the store.
-/

namespace SekaiChisei.Plans
open Lib List Option

variable {setup : Setup} {world : World} {e : Nat} {run : Run}

def worldAt (setup : Setup) (acts : List Action) (n : Nat) : World := Trace.after (step setup) .start acts n

theorem start_holds : Holds setup .start := by
  refine ⟨?_, ?_, nodup_nil, ?_⟩
  · intro row stored
    cases stored
  · intro e run atE
    cases atE
  · intro key
    constructor
    · intro logged
      cases logged
    · rintro ⟨stored, found, _⟩
      cases found

theorem worldAt_holds (acts : List Action) (n : Nat) : Holds setup (worldAt setup acts n) :=
  Trace.always start_holds (fun _ act _ => step_holds act) n

variable {act : Action}

theorem Admits.in_order {index : Nat} (holds : Holds setup world)
    (admits : Admits setup world act index) : Granted world ∧ ∀ i < index, Admitted setup world i := by
  obtain ⟨e, choice, run, work, call, _, atE, phase, _, rfl⟩ := admits.calling
  have known := holds.phases e run atE
  rw [phase] at known
  exact ⟨known.granted, known.held.earlier⟩

variable {row : PlanExecution}

/-- Of a sealed plan that is stopped, no run admits a step from the stopped one on. -/
theorem Admits.before_stop {i j : Nat} (holds : Holds setup world)
    (sealed : Sealed setup world) (stored : world.execution = some row) (stopped : row.stoppedAtStep = some i)
    (admits : Admits setup world act j) : j < i := by
  obtain ⟨e, choice, run, work, call, _, atE, phase, opens, rfl⟩ := admits.calling
  have known := holds.phases e run atE
  rw [phase] at known
  by_contra beyond
  have free : ∀ {submitter}, run.phase.submitting = some submitter → submitter = work →
      world.instances (setup.key work.execution.nextStep) ≠ none := by
    rintro submitter submitting rfl
    exact sealed row i stored stopped e run submitter atE submitting (not_lt.mp beyond)
  cases call with
  | replay | submit => exact free (by rw [phase]; rfl) rfl opens
  | decide parked =>
    -- a stopped row has no holder
    have ended : row.status ≠ .running := by
      rw [(holds.row row stored).stopped (by rw [stopped]; exact some_ne_none _)]
      decide
    have owned : some row.claimHolder = some work.execution.claimHolder := by
      rw [← opens, stored]
      rfl
    rw [(holds.row row stored).ended ended] at owned
    exact known.claimed (some.inj owned).symm

def StopFinal (setup : Setup) (acts : List Action) : Prop :=
  ∀ t u i j row act, t ≤ u → (worldAt setup acts t).execution = some row → row.stoppedAtStep = some i →
    acts[u]? = some act → Admits setup (worldAt setup acts u) act j → j < i

variable {acts : List Action}

theorem worldAt_stopped {t u i : Nat} (later : t ≤ u)
    (stored : (worldAt setup acts t).execution = some row) (stopped : row.stoppedAtStep = some i) :
    (worldAt setup acts u).execution = some row := by
  refine @Trace.lasts World Action (step setup) .start acts (fun world => world.execution = some row) t u ?_ later
    stored
  intro n act _ kept
  exact step_keeps_stopped act (worldAt_holds acts n) kept stopped

theorem worldAt_sealed {n : Nat}
    (fenced : ∀ m < n, ∀ act, acts[m]? = some act → ¬ Unfenced setup (worldAt setup acts m) act) :
    Sealed setup (worldAt setup acts n) := by
  induction n with
  | zero =>
    intro row i stored
    cases stored
  | succ n ih =>
    have before := ih fun m less => fenced m (Nat.lt_succ_of_lt less)
    rcases Trace.after_cases (step setup) .start acts n with same | ⟨act, atN, next⟩
    · rw [worldAt, same]
      exact before
    · rw [worldAt, next]
      exact step_sealed (worldAt_holds acts n) before (fenced n (Nat.lt_succ_self n) act atN)

theorem Poised.admits (poised : Poised setup world e) : ∃ act index, Admits setup world act index := by
  obtain ⟨run, work, atE, submitting, free⟩ := poised
  let port : Answer := .answers ⟨.admitted, "", "", none⟩
  let choice : Choice := ⟨0, .ok true, .ok true, .ok true, .error .notFound, none, port, ""⟩
  have recorded : (world.submit setup e work port).1.admissions =
      world.admissions ++ [⟨setup.key work.execution.nextStep, some e⟩] := by
    rw [World.submit, free]
    rfl
  refine ⟨.advance e choice, work.execution.nextStep, e, ?_⟩
  obtain ⟨call, phase⟩ := Phase.calling_of_submitting submitting
  rw [step, atE]
  dsimp only
  rw [World.advance, phase]
  cases call with
  | replay => exact recorded
  | submit => exact recorded
  | decide =>
    rw [phase] at submitting
    cases submitting

theorem Unfenced.leaves_poised (unfenced : Unfenced setup world act) :
    (∃ row, (step setup world act).execution = some row ∧ row.stoppedAtStep = some 0) ∧
      ∃ other, Poised setup (step setup world act) other := by
  obtain ⟨e, choice, run, execution, rfl, atE, phase, ⟨row, stored, current⟩, other, submitter, work, atOther,
    submitting, free⟩ := unfenced
  have result : step setup world (.advance e choice) =
      (world.write (execution.stop .notApproved 0 run.now)).enter e run
        (.done (.ok (bump (execution.stop .notApproved 0 run.now)))) := by
    rw [step, atE]
    dsimp only
    rw [World.advance, phase]
    dsimp only
    rw [World.save, stored]
    exact if_pos current
  have apart : other ≠ e := by
    rintro rfl
    obtain rfl : run = submitter := some.inj (atE.symm.trans atOther)
    rw [phase] at submitting
    cases submitting
  rw [result]
  refine ⟨⟨_, rfl, rfl⟩, other, submitter, work, ?_, submitting, free⟩
  exact (Function.update_of_ne apart _ _).trans atOther

theorem worldAt_extended {n m : Nat} (b : Action) (inside : m ≤ (acts.take n).length) :
    worldAt setup (acts.take n ++ [b]) m = worldAt setup acts m := by
  rw [worldAt, worldAt, Trace.after, Trace.after, take_append_of_le_length inside, take_take]
  rw [length_take] at inside
  rw [min_eq_left (by omega)]

/-- Along every schedule steps are admitted once, in order and under a grant, and a completed plan has all of them.
Stops are final exactly when the plan is never stopped as not approved while a run is about to submit. -/
theorem planExecution_iff (setup : Setup) (acts : List Action) :
    (∀ n, ((worldAt setup acts n).admissions.map Admission.key).Nodup) ∧
    (∀ n act index, acts[n]? = some act → Admits setup (worldAt setup acts n) act index →
      Granted (worldAt setup acts n) ∧ ∀ i < index, Admitted setup (worldAt setup acts n) i) ∧
    (∀ n row, (worldAt setup acts n).execution = some row → row.status = .completed →
      ∀ i < setup.plan.steps.length, Admitted setup (worldAt setup acts n) i) ∧
    ((∀ n b, StopFinal setup (acts.take n ++ [b])) ↔
      ∀ n act, acts[n]? = some act → ¬ Unfenced setup (worldAt setup acts n) act) := by
  refine ⟨fun n => (worldAt_holds acts n).log.once, ?_, ?_, ?_, ?_⟩
  · intro n act index _ admits
    exact admits.in_order (worldAt_holds acts n)
  · intro n row stored completed i inside
    have ok := (worldAt_holds acts n).row row stored
    exact ok.earlier i (Nat.lt_of_lt_of_le inside (ok.whole completed))
  · intro final n act atN unfenced
    have reached : worldAt setup acts (n + 1) = step setup (worldAt setup acts n) act := Trace.after_succ atN
    obtain ⟨⟨row, stored, stopped⟩, other, poised⟩ := unfenced.leaves_poised
    rw [← reached] at stored poised
    obtain ⟨b, index, admits⟩ := poised.admits
    have length : (acts.take (n + 1)).length = n + 1 := by
      have inside := (List.getElem?_eq_some_iff.mp atN).1
      rw [length_take]
      omega
    have same := @worldAt_extended setup acts (n + 1) (n + 1) b (by omega)
    rw [← same] at stored admits
    have last : (acts.take (n + 1) ++ [b])[n + 1]? = some b := by
      rw [getElem?_append_right (by omega), length]
      simp
    exact Nat.not_lt_zero index
      (final (n + 1) b (n + 1) (n + 1) 0 index row b (Nat.le_refl _) stored stopped last admits)
  · intro fenced n b t u i j row act later stored stopped atU admits
    have inside : u ≤ (acts.take n).length := by
      have bound := (List.getElem?_eq_some_iff.mp atU).1
      rw [length_append, length_singleton] at bound
      omega
    have sealed : Sealed setup (worldAt setup (acts.take n ++ [b]) u) := by
      rw [worldAt_extended b inside]
      apply worldAt_sealed
      intro m less action atM
      exact fenced m action atM
    exact admits.before_stop (worldAt_holds _ u) sealed (worldAt_stopped later stored stopped) stopped

def retitle : PlanStep := ⟨"retitle", "1", "o", "p"⟩

def oneStep : Setup :=
  ⟨⟨"p", "planner", [retitle]⟩, fun _ => some ⟨"d", [⟨"r", "", "", "", "", ""⟩]⟩, fun _ => some "o",
    fun e => "run" ++ e.repr, by simp⟩

def passes (clock : Int) : Choice where
  clock := clock
  approverMayDecide := .ok true
  plannerMaySubmit := .ok true
  plannerMayRead := .ok true
  simulated := .ok ⟨"r", "", "", "", "", ""⟩
  objectRevision := some "r"
  port := .answers ⟨.admitted, "i", "o", some "r2"⟩
  closingId := ""

def undetermined (clock : Int) : Choice := { passes clock with approverMayDecide := .error "unavailable" }

/-- Run 0 reads the review before it is granted. Run 1 pauses before it submits the step, run 2 takes its lapsed
claim over and releases it, and run 0 stops the plan. Then run 1 goes on. -/
def stoppedAndSubmitted : List Action :=
  [.submitReview "s" "d", .start "a" 0, .advance 0 (passes 0), .decideReview true, .start "b" 1000] ++
    List.replicate 8 (.advance 1 (passes 1000)) ++ [.start "c" 200000] ++
    List.replicate 4 (.advance 2 (passes 200000)) ++ [.advance 2 (undetermined 200000), .advance 2 (passes 200000)] ++
    List.replicate 3 (.advance 0 (passes 200000)) ++ [.advance 1 (passes 200000)]

theorem stale_review_stops_unfenced : ¬ StopFinal oneStep stoppedAndSubmitted := by
  intro final
  have stopped : ((worldAt oneStep stoppedAndSubmitted 23).execution.bind (·.stoppedAtStep)) = some 0 := by
    decide +kernel
  obtain ⟨row, stored, atZero⟩ := bind_eq_some_iff.mp stopped
  have admits : Admits oneStep (worldAt oneStep stoppedAndSubmitted 23) (.advance 1 (passes 200000)) 0 := by
    refine ⟨1, ?_⟩
    decide +kernel
  exact absurd (final 23 23 0 0 row _ (Nat.le_refl _) stored atZero rfl admits) (by decide)

/-- Whatever the runs do, the stored row counts admitted steps only, has no claim once it has ended, and an instance
is admitted once. -/
theorem execution_honest (setup : Setup) (acts : List Action) (n : Nat) : LogOk (worldAt setup acts n) ∧
    ∀ row, (worldAt setup acts n).execution = some row → RowOk setup (worldAt setup acts n) row :=
  ⟨(worldAt_holds acts n).log, (worldAt_holds acts n).row⟩

end SekaiChisei.Plans
