import Mathlib.Logic.Relation
import SekaiChisei.ObjectLog.Queue

/-!
The queue, the batch of the leader and the log of one path are a `Lane`: each step of a call makes moves of lanes.
-/

namespace SekaiChisei.ObjectLog
open Lib Objects List Option Function World

def Phase.leads : Phase → Bool
  | .opened | .committing .. | .reopening .. | .settling .. | .finishing .. | .releasing _ => true
  | _ => false

def Next.rest : Next → List IngestTicket
  | .release _ => []
  | .settle rest _ => rest

def Phase.hand (pages : Nat) : Phase → List IngestTicket
  | .committing _ batch _ => batch
  | .reopening _ batch pagesBefore _ => if pages > pagesBefore then [] else batch
  | .settling _ rest _ => rest
  | .finishing _ _ next => next.rest
  | _ => []

def Phase.owed : Phase → List (Nat × IngestTicket)
  | .committing pass batch _ | .reopening pass batch _ _ => batch.map (pass, ·)
  | .settling pass rest _ => rest.map (pass, ·)
  | .finishing pass todo next => (todo.map Prod.fst ++ next.rest).map (pass, ·)
  | _ => []

def Phase.pass : Phase → Option Nat
  | .committing pass .. | .reopening pass .. | .settling pass .. | .finishing pass .. => some pass
  | _ => none

def World.laneAt (world : World) (path : String) (phase : Phase) : Lane IngestTicket where
  enqueued := world.enqueued path
  queue := world.queue path
  hand := phase.hand (world.disk path).pages
  log := (world.disk path).batches
  owed := phase.owed
  drained := world.drained path
  completed := world.completed path
  withdrawn := world.withdrawn path

def World.phaseAt (world : World) (path : String) : Phase :=
  match world.lock.bind world.calls with
  | some call => if call.path = path then call.phase else .queued
  | none => .queued

def World.lane (world : World) (path : String) : Lane IngestTicket :=
  world.laneAt path (world.phaseAt path)

abbrev Moves := Relation.ReflTransGen (Lane.Move IngestTicket.identity)

variable {lane next : Lane IngestTicket}

theorem Moves.sound (moves : Moves lane next)
    (sound : lane.Sound IngestTicket.identity) : next.Sound IngestTicket.identity := by
  induction moves with
  | refl => exact sound
  | tail _ move ih => exact ih.move move

theorem Moves.history (moves : Moves lane next) : lane.drained ⊆ next.drained ∧ lane.completed ⊆ next.completed := by
  induction moves with
  | refl => exact ⟨List.Subset.refl _, List.Subset.refl _⟩
  | tail _ move ih =>
    exact ⟨List.Subset.trans ih.1 move.history.1, List.Subset.trans ih.2 move.history.2⟩

structure World.Wf (world : World) : Prop where
  lead : ∀ c call, world.calls c = some call → (call.phase.leads ↔ world.lock = some c)
  locked : ∀ c, world.lock = some c → (world.calls c).isSome
  fresh : ∀ c, world.started ≤ c → world.calls c = none
  owners : ∀ path, ∀ ticket ∈ world.enqueued path, ∃ call, world.calls ticket.call = some call ∧
    call.path = path ∧ call.object = ticket.object
  pages : ∀ c call pass batch pagesBefore, world.calls c = some call →
    call.phase = .committing pass batch pagesBefore →
    batch ≠ [] ∧ pagesBefore = (world.disk call.path).pages

variable {mikura : Mikura} {world base : World} {c : Nat} {call : Call} {phase : Phase} {path : String}
  {choice : Choice} {disk : Disk}

theorem World.Wf.turn (wf : world.Wf) (here : world.calls c = some call) :
    (call.phase.leads → world.lock = some c) ∧ (call.phase.leads = false → world.lock ≠ some c) := by
  have lead := wf.lead c call here
  refine ⟨lead.mp, fun follows locked => ?_⟩
  rw [follows] at lead
  exact absurd (lead.mpr locked) (by decide)

theorem World.lane_of_leader (locked : world.lock = some c) (here : world.calls c = some call) :
    world.lane path = world.laneAt path (if call.path = path then call.phase else .queued) := by
  rw [lane, phaseAt, locked, bind_some, here]

theorem World.lane_enter_leader (locked : base.lock = some c) : (base.enter c call phase).lane path =
      base.laneAt path (if call.path = path then phase else .queued) := by
  have here : (base.enter c call phase).calls c = some { call with phase } := update_self ..
  have sameLock : (base.enter c call phase).lock = some c := locked
  rw [lane_of_leader sameLock here]
  rfl

theorem World.phaseAt_same {later : World} (lock : later.lock = world.lock)
    (leader : ∀ c, world.lock = some c → later.calls c = world.calls c) :
    later.phaseAt path = world.phaseAt path := by
  unfold phaseAt
  rw [lock]
  cases locked : world.lock with
  | none => rfl
  | some c => rw [bind_some, leader c locked, bind_some]

theorem World.lane_enter (other : base.lock ≠ some c) : (base.enter c call phase).lane path = base.lane path := by
  have same : (base.enter c call phase).phaseAt path = base.phaseAt path := by
    refine phaseAt_same rfl fun leader locked => update_of_ne ?_ ..
    rintro rfl
    exact other locked
  rw [lane, same]
  rfl

theorem World.moves_of_leader (locked : world.lock = some c) (here : world.calls c = some call)
    (keeps : base.lock = some c)
    (others : ∀ path, path ≠ call.path → base.laneAt path .queued = world.laneAt path .queued)
    (own : Moves (world.laneAt call.path call.phase) (base.laneAt call.path phase)) (path : String) :
    Moves (world.lane path) ((base.enter c call phase).lane path) := by
  rw [lane_of_leader locked here, lane_enter_leader keeps]
  by_cases same : call.path = path
  · subst same
    rw [if_pos rfl, if_pos rfl]
    exact own
  · rw [if_neg same, if_neg same, others path (Ne.symm same)]

theorem World.write_elsewhere (path : String) (elsewhere : path ≠ call.path) :
    (world.write call.path disk).laneAt path .queued = world.laneAt path .queued := by
  simp only [laneAt, write, update_of_ne elsewhere]

theorem World.write_own : (world.write path disk).laneAt path phase =
      { world.laneAt path phase with hand := phase.hand disk.pages, log := disk.batches } := by
  simp only [laneAt, write, update_self]

theorem World.drain_moves (locked : world.lock = some c) (here : world.calls c = some call)
    (opened : call.phase = .opened) : Moves (world.lane path) ((world.drain c call).lane path) := by
  unfold drain
  split
  · refine moves_of_leader locked here locked (fun _ _ => rfl) ?_ path
    rw [opened]
    exact .refl
  · refine moves_of_leader locked here ?_ ?_ ?_ path
    · exact locked
    · intro path elsewhere
      simp only [laneAt, update_of_ne elsewhere]
    · rw [opened]
      refine .single ?_
      have move : Lane.Move IngestTicket.identity (world.laneAt call.path .opened) _ :=
        .drain _ world.passes rfl rfl
      simpa only [laneAt, update_self, Phase.hand, Phase.owed] using move

variable {nextPhase : Phase}

section
variable (batch rest : List IngestTicket) (held : phase.hand (world.disk path).pages = batch ++ rest)
include batch rest held

theorem World.append_moves (handed : nextPhase.hand ((world.disk path).append mikura batch).pages = rest)
    (owing : nextPhase.owed = phase.owed) : Moves (world.laneAt path phase)
      ((world.write path ((world.disk path).append mikura batch)).laneAt path nextPhase) := by
  have move : Lane.Move IngestTicket.identity (world.laneAt path phase) _ :=
    .append _ batch rest held
  rw [write_own, handed]
  refine .single ?_
  simpa only [laneAt, owing, Disk.append] using move

theorem World.drop_moves (handed : nextPhase.hand (world.disk path).pages = rest)
    (owing : nextPhase.owed = phase.owed) : Moves (world.laneAt path phase) (world.laneAt path nextPhase) := by
  have move : Lane.Move IngestTicket.identity (world.laneAt path phase) _ := .drop _ batch rest held
  refine .single ?_
  simpa only [laneAt, owing, handed] using move

end

variable {batch : List IngestTicket}

theorem Disk.answers_tickets : (disk.answers mikura batch).map Prod.fst = batch := by
  rw [Disk.answers, List.map_map]
  exact List.map_id _

theorem unopened_tickets (error reopen : String) : (unopened error reopen batch).map Prod.fst = batch := by
  rw [unopened, List.map_map]
  exact List.map_id _

variable {pass pagesBefore : Nat} {reopens : Except String Unit} {outcome : Outcome}
  {error : String} {result : BatchResult} {ticket : IngestTicket} {rest : List IngestTicket}

theorem World.commit_moves (advances : ∀ records, records ≠ [] → 0 < mikura.pagesOf records)
    (wf : world.Wf) (locked : world.lock = some c) (here : world.calls c = some call)
    (committing : call.phase = .committing pass batch pagesBefore) :
    Moves (world.lane path) ((world.commit mikura c call pass batch pagesBefore result).lane path) := by
  obtain ⟨nonempty, before⟩ := wf.pages c call pass batch pagesBefore here committing
  have grows : (world.disk call.path).pages < ((world.disk call.path).append mikura batch).pages :=
    Nat.lt_add_of_pos_right (advances _ (by simpa using nonempty))
  have held : call.phase.hand (world.disk call.path).pages = batch ++ [] := by
    rw [committing, append_nil]
    rfl
  cases result with
  | committed =>
    refine moves_of_leader locked here ?_ (write_elsewhere) ?_ path
    · exact locked
    · refine append_moves batch [] held rfl ?_
      simp only [committing, Phase.owed, Next.rest, append_nil, Disk.answers_tickets]
  | rolledBack error =>
    refine moves_of_leader locked here ?_ (write_elsewhere) ?_ path
    · exact locked
    · rw [write_own]
      refine drop_moves [] batch ?_ ?_ ?_
      · rw [committing]
        rfl
      · rw [Phase.hand, if_neg (by omega)]
      · rw [committing]
        rfl
  | committedThenFailed error =>
    refine moves_of_leader locked here ?_ (write_elsewhere) ?_ path
    · exact locked
    · refine append_moves batch [] held ?_ ?_
      · rw [Phase.hand, if_pos (before ▸ grows)]
      · rw [committing]
        rfl

theorem World.reopen_moves (locked : world.lock = some c) (here : world.calls c = some call) {error : String}
    (reopening : call.phase = .reopening pass batch pagesBefore error) :
    Moves (world.lane path) ((world.reopen mikura c call pass batch pagesBefore error reopens).lane path) := by
  cases reopens with
  | error reopen =>
    refine moves_of_leader locked here locked (fun _ _ => rfl) ?_ path
    refine drop_moves (call.phase.hand (world.disk call.path).pages) [] ?_ rfl ?_
    · rw [append_nil]
    · simp only [reopening, Phase.owed, Next.rest, append_nil, unopened_tickets]
  | ok =>
    unfold reopen
    dsimp only
    split
    · rename_i grown
      refine moves_of_leader locked here locked (fun _ _ => rfl) ?_ path
      refine drop_moves [] [] ?_ rfl ?_
      · rw [reopening, Phase.hand, if_pos grown]
        rfl
      · simp only [reopening, Phase.owed, Next.rest, append_nil, Disk.answers_tickets]
    · rename_i same
      refine moves_of_leader locked here locked (fun _ _ => rfl) ?_ path
      refine drop_moves [] batch ?_ rfl ?_
      · rw [reopening, Phase.hand, if_neg same]
        rfl
      · rw [reopening]
        rfl

theorem afterRetry_owed :
    (afterRetry pass ticket outcome rest error reopens).owed = (ticket :: rest).map (pass, ·) := by
  unfold afterRetry
  split
  · simp only [Phase.owed, Next.rest, map_cons, unopened_tickets, append_nil]
  · simp only [Phase.owed, Next.rest, map_cons, map_nil, singleton_append]

theorem afterRetry_hand (pages pass : Nat) : (afterRetry pass ticket outcome rest error reopens).hand pages = rest ∨
      (afterRetry pass ticket outcome rest error reopens).hand pages = [] := by
  unfold afterRetry
  split
  · exact .inr rfl
  · exact .inl rfl

theorem World.retry_own (held : phase.hand (world.disk path).pages = ticket :: rest)
    (handed : nextPhase.hand ((world.disk path).run mikura [ticket] result).pages = rest ∨
      nextPhase.hand ((world.disk path).run mikura [ticket] result).pages = [])
    (owing : nextPhase.owed = phase.owed) : Moves (world.laneAt path phase)
      ((world.write path ((world.disk path).run mikura [ticket] result)).laneAt path nextPhase) := by
  have first : Lane.Move IngestTicket.identity (world.laneAt path phase)
      { world.laneAt path phase with
        hand := rest, log := ((world.disk path).run mikura [ticket] result).batches } := by
    cases result with
    | rolledBack error => exact .drop _ [ticket] rest held
    | committed | committedThenFailed error => exact .append _ [ticket] rest held
  have second : Moves { world.laneAt path phase with
        hand := rest, log := ((world.disk path).run mikura [ticket] result).batches }
      ((world.write path ((world.disk path).run mikura [ticket] result)).laneAt path nextPhase) := by
    rw [write_own]
    rcases handed with kept | dropped
    · rw [kept, laneAt, laneAt, owing]
    · refine .single ?_
      rw [dropped, laneAt, laneAt, owing]
      exact .drop _ rest [] (append_nil rest).symm
  exact second.head first

section
variable (locked : world.lock = some c) (here : world.calls c = some call)
include locked here

theorem World.retry_moves {error : String} (settling : call.phase = .settling pass (ticket :: rest) error)
    (choice : Choice) (path : String) :
    Moves (world.lane path) ((world.retry mikura c call pass ticket rest error choice).lane path) := by
  refine moves_of_leader locked here ?_ (write_elsewhere) ?_ path
  · exact locked
  · refine retry_own ?_ (afterRetry_hand ..) ?_
    · rw [settling]
      rfl
    · rw [settling, afterRetry_owed]
      rfl

theorem World.finish_moves {outcome : Outcome} {todo : List (IngestTicket × Outcome)} {next : Next}
    (finishing : call.phase = .finishing pass ((ticket, outcome) :: todo) next) (path : String) :
    Moves (world.lane path)
      (((world.finish call.path pass ticket outcome).enter c call (.finishing pass todo next)).lane path) := by
  refine moves_of_leader locked here ?_ ?_ ?_ path
  · exact locked
  · intro path elsewhere
    simp only [laneAt, finish, update_of_ne elsewhere]
  · have owing : (world.laneAt call.path call.phase).owed =
        (pass, ticket) :: (Phase.finishing pass todo next).owed := by
      rw [finishing]
      rfl
    have move : Lane.Move IngestTicket.identity (world.laneAt call.path call.phase) _ :=
      .complete _ _ _ owing
    refine .single ?_
    simpa only [laneAt, finish, update_self, finishing, Phase.hand] using move

theorem World.rest_moves (within : call.phase = phase) (handed : ∀ pages, nextPhase.hand pages = phase.hand pages)
    (owing : nextPhase.owed = phase.owed) (path : String) :
    Moves (world.lane path) ((world.enter c call nextPhase).lane path) := by
  subst within
  refine moves_of_leader locked here locked (fun _ _ => rfl) ?_ path
  exact drop_moves [] (call.phase.hand (world.disk call.path).pages) rfl (handed _) owing

end

theorem World.lane_of_unlocked (free : world.lock = none) : world.lane path = world.laneAt path .queued := by
  rw [lane, phaseAt, free]
  rfl

theorem World.takeOutcome_lane (other : world.lock ≠ some c) :
    (world.takeOutcome c call outcome).lane path = world.lane path := by
  rw [takeOutcome, lane_enter]
  · rfl
  · exact other

theorem World.takeBack_moves (queued : ticket ∈ world.queue path) (other : String) :
    Moves (world.lane other) ((world.takeBack path ticket).lane other) := by
  by_cases same : other = path
  · subst same
    have move : Lane.Move IngestTicket.identity (world.lane other) _ := .withdraw _ ticket queued
    refine .single ?_
    simpa only [lane, laneAt, phaseAt, takeBack, update_self] using move
  · have unchanged : (world.takeBack path ticket).lane other = world.lane other := by
      simp only [lane, laneAt, phaseAt, takeBack, update_of_ne same]
    rw [unchanged]

theorem World.withdraw_moves (other : world.lock ≠ some c) :
    Moves (world.lane path) ((world.withdraw c call error).lane path) := by
  unfold withdraw
  split
  · rename_i queued
    have unlocked : (world.takeBack call.path (call.ticket c)).lock ≠ some c := other
    rw [lane_enter unlocked]
    exact takeBack_moves queued path
  · rw [lane_enter other]

theorem World.enqueue_moves (wf : world.Wf) (object : Object) (other : String) :
    Moves (world.lane other) ((world.enqueue path object).lane other) := by
  have samePhase : (world.enqueue path object).phaseAt other = world.phaseAt other := by
    refine phaseAt_same rfl fun leader locked => update_of_ne ?_ ..
    rintro rfl
    have present := wf.locked _ locked
    rw [wf.fresh world.started le_rfl] at present
    cases present
  by_cases same : other = path
  · subst same
    have fresh : (⟨world.started, object⟩ : IngestTicket) ∉ world.enqueued other := by
      intro queued
      obtain ⟨call, here, _⟩ := wf.owners other _ queued
      rw [wf.fresh world.started le_rfl] at here
      cases here
    have move : Lane.Move IngestTicket.identity (world.lane other) _ := .enqueue _ _ fresh
    refine .single ?_
    rw [lane, lane, samePhase] at *
    simpa only [laneAt, enqueue, update_self] using move
  · have unchanged : (world.enqueue path object).lane other = world.lane other := by
      rw [lane, lane, samePhase]
      simp only [laneAt, enqueue, update_of_ne same]
    rw [unchanged]

section
variable (advances : ∀ records, records ≠ [] → 0 < mikura.pagesOf records) (wf : world.Wf)
include advances wf

theorem World.advance_moves (here : world.calls c = some call) (choice : Choice) (path : String) :
    Moves (world.lane path) ((world.advance mikura c call choice).lane path) := by
  obtain ⟨leads, follows⟩ := wf.turn here
  unfold advance
  generalize phase : call.phase = current at leads follows ⊢
  cases current with
  | queued =>
    dsimp only
    split
    · exact .refl
    · rw [lane_enter (follows rfl)]
    · rename_i free _
      rw [lane_of_unlocked free, lane_enter_leader rfl]
      split <;> exact .refl
  | opened => exact drain_moves (leads rfl) here phase
  | committing pass batch pagesBefore => exact commit_moves advances wf (leads rfl) here phase
  | reopening pass batch pagesBefore error => exact reopen_moves (leads rfl) here phase
  | settling pass rest error =>
    have locked := leads rfl
    cases rest with
    | nil => exact rest_moves locked here phase (fun _ => by rfl) (by rfl) path
    | cons ticket rest => exact retry_moves locked here phase choice path
  | finishing pass todo next =>
    have locked := leads rfl
    cases todo with
    | nil =>
      cases next with
      | release result | settle rest error => exact rest_moves locked here phase (fun _ => by rfl) (by rfl) path
    | cons first todo => exact finish_moves locked here phase path
  | releasing result =>
    dsimp only
    rw [lane_of_leader (leads rfl) here, phase]
    split <;> exact .refl
  | returned led opened | waited error =>
    dsimp only
    split
    · rw [takeOutcome_lane (follows rfl)]
    · rw [lane_enter (follows rfl)]
  | failed error => exact withdraw_moves (follows rfl)
  | lost error =>
    dsimp only
    split
    · exact .refl
    · rw [lane_enter (follows rfl)]
  | done outcome => exact .refl

theorem step_moves (action : Action) (path : String) :
    Moves (world.lane path) ((step mikura world action).lane path) := by
  cases action with
  | enqueue onPath object => exact enqueue_moves wf object path
  | advance c choice =>
    unfold step
    dsimp only
    split
    · exact .refl
    · rename_i call here
      exact advance_moves advances wf here choice path

end

end SekaiChisei.ObjectLog
