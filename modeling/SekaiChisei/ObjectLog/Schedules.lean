import SekaiChisei.ObjectLog.GroupCommit

/-! Over every schedule a drained ticket is completed once, by the leader that drained it, and the records of one
identity are appended once and in order. -/

namespace SekaiChisei.ObjectLog
open Lib Objects List Option Function

variable {mikura : Mikura} {world base : World} {c : Nat} {call : Call} {phase : Phase} {path : String}
  {choice : Choice}

def Phase.remaining : Phase → Nat
  | .committing _ batch _ => 3 * batch.length + 2
  | .reopening _ batch _ _ => 3 * batch.length + 1
  | .settling _ rest _ => 3 * rest.length
  | .finishing _ todo (.release _) => todo.length
  | .finishing _ todo (.settle rest _) => todo.length + 1 + 3 * rest.length
  | _ => 0

theorem Phase.leads_of_pass (within : phase.pass.isSome) : phase.leads = true := by
  cases phase <;> first | rfl | cases within

def Phase.ended (phase : Phase) : Prop := ∃ outcome, phase = .done outcome

/-- An outcome is only dropped by its call, which ends with it, and a ticket is completed with one. -/
structure Tells (world base : World) (c : Nat) (phase : Phase) : Prop where
  kept : ∀ other, world.outcomes other ≠ none → base.outcomes other ≠ none ∨ other = c ∧ phase.ended
  given : ∀ path, ∀ entry ∈ base.completed path, entry ∈ world.completed path ∨ base.outcomes entry.2.call ≠ none

theorem Tells.same (outcomes : base.outcomes = world.outcomes) (completed : base.completed = world.completed) :
    Tells world base c phase := by
  refine ⟨fun _ told => .inl (outcomes ▸ told), fun path entry member => .inl ?_⟩
  rwa [completed] at member

theorem World.takeOutcome_tells (outcome : Outcome) :
    Tells world { world with outcomes := update world.outcomes c none } c (.done outcome) := by
  refine ⟨fun other told => ?_, fun _ _ member => .inl member⟩
  by_cases same : other = c
  · exact .inr ⟨same, outcome, rfl⟩
  · exact .inl (by simpa only [update_of_ne same] using told)

theorem World.finish_tells (pass : Nat) (ticket : IngestTicket) (outcome : Outcome) :
    Tells world (world.finish path pass ticket outcome) c phase := by
  have told : ∀ other, world.outcomes other ≠ none ∨ other = ticket.call →
      (world.finish path pass ticket outcome).outcomes other ≠ none := by
    intro other before
    simp only [World.finish, update_apply]
    split
    · exact some_ne_none _
    · exact before.resolve_right ‹_›
  refine ⟨fun other before => .inl (told other (.inl before)), fun onPath entry member => ?_⟩
  simp only [World.finish, update_apply] at member
  split at member
  · rename_i same
    rcases mem_appended.mp member with before | rfl
    · exact .inl (same ▸ before)
    · exact .inr (told _ (.inr rfl))
  · exact .inl member

/-- The call takes or gives back only its own lock, writes only as the leader, and shortens its pass. -/
structure Enters (world base : World) (c : Nat) (call : Call) (phase : Phase) : Prop where
  calls : base.calls = world.calls
  started : base.started = world.started
  enqueued : base.enqueued = world.enqueued
  lock : ∀ other, other ≠ c → (base.lock = some other ↔ world.lock = some other)
  leads : phase.leads ↔ base.lock = some c
  disk : base.disk = world.disk ∨ world.lock = some c
  pages : ∀ pass batch pagesBefore, phase = .committing pass batch pagesBefore →
    batch ≠ [] ∧ pagesBefore = (base.disk call.path).pages
  shorter : call.phase.pass.isSome → phase.pass.isSome → phase.remaining < call.phase.remaining
  tells : Tells world base c phase

def Entered (world : World) (c : Nat) (call : Call) (next : World) : Prop :=
  ∃ base phase, Enters world base c call phase ∧ next = base.enter c call phase

theorem Entered.follower (other : world.lock ≠ some c) (quiet : phase.leads = false) (tells : Tells world base c phase)
    (calls : base.calls = world.calls := by rfl) (started : base.started = world.started := by rfl)
    (enqueued : base.enqueued = world.enqueued := by rfl) (lock : base.lock = world.lock := by rfl)
    (disk : base.disk = world.disk := by rfl) : Entered world c call (base.enter c call phase) := by
  refine ⟨base, phase, ⟨calls, started, enqueued, ?_, ?_, .inl disk, ?_, ?_, tells⟩, rfl⟩
  · intro holder _
    rw [lock]
  · rw [quiet, lock]
    exact iff_of_false (by decide) other
  · rintro pass batch pagesBefore rfl
    cases quiet
  · intro _ within
    exact absurd ((Phase.leads_of_pass within).symm.trans quiet) (by decide)

theorem Entered.leader (locked : world.lock = some c) (leading : phase.leads) (tells : Tells world base c phase)
    (shorter : phase.pass.isSome → phase.remaining < call.phase.remaining)
    (later : ∀ pass batch pagesBefore, phase ≠ .committing pass batch pagesBefore := by rintro _ _ _ ⟨⟩)
    (calls : base.calls = world.calls := by rfl) (started : base.started = world.started := by rfl)
    (enqueued : base.enqueued = world.enqueued := by rfl) (lock : base.lock = world.lock := by rfl) :
    Entered world c call (base.enter c call phase) := by
  refine ⟨base, phase, ⟨calls, started, enqueued, ?_, ?_, .inr locked, ?_, fun _ => shorter, tells⟩, rfl⟩
  · intro holder _
    rw [lock]
  · rw [lock]
    exact iff_of_true leading locked
  · intro pass batch pagesBefore same
    exact absurd same (later pass batch pagesBefore)

theorem World.drain_enters (locked : world.lock = some c) (opened : call.phase = .opened) :
    Entered world c call (world.drain c call) := by
  unfold World.drain
  split
  · refine .leader locked rfl (.same rfl rfl) ?_
    rintro ⟨⟩
  · rename_i nonempty
    refine ⟨_, _, ?_, rfl⟩
    refine ⟨rfl, rfl, rfl, fun _ _ => Iff.rfl, iff_of_true rfl locked, .inl rfl, ?_, ?_, .same rfl rfl⟩
    · rintro pass batch pagesBefore same
      injection same with _ sameBatch samePages
      exact ⟨sameBatch ▸ nonempty, samePages.symm⟩
    · intro within
      rw [opened] at within
      cases within

variable {pass pagesBefore : Nat} {batch : List IngestTicket} {error : String}

theorem World.commit_enters (locked : world.lock = some c)
    (committing : call.phase = .committing pass batch pagesBefore)
    (result : BatchResult) : Entered world c call (world.commit mikura c call pass batch pagesBefore result) := by
  unfold World.commit
  split
  · refine .leader locked rfl (.same rfl rfl) fun _ => ?_
    rw [committing]
    simp only [Phase.remaining, Disk.answers, length_map]
    omega
  · refine .leader locked rfl (.same rfl rfl) fun _ => ?_
    rw [committing]
    simp only [Phase.remaining]
    omega

theorem World.reopen_enters (locked : world.lock = some c)
    (reopening : call.phase = .reopening pass batch pagesBefore error) (reopens : Except String Unit) :
    Entered world c call (world.reopen mikura c call pass batch pagesBefore error reopens) := by
  have shorter : (Phase.settling pass batch error).remaining < call.phase.remaining := by
    rw [reopening]
    simp only [Phase.remaining]
    omega
  cases reopens with
  | error reopen =>
    refine .leader locked rfl (.same rfl rfl) fun _ => ?_
    simp only [Phase.remaining, unopened, length_map] at shorter ⊢
    omega
  | ok =>
    unfold World.reopen
    dsimp only
    split
    · refine .leader locked rfl (.same rfl rfl) fun _ => ?_
      simp only [Phase.remaining, Disk.answers, length_map] at shorter ⊢
      omega
    · exact .leader locked rfl (.same rfl rfl) fun _ => shorter

theorem afterRetry_shorter (ticket : IngestTicket) (outcome : Outcome)
    (rest : List IngestTicket) (error : String) (reopens : Except String Unit) :
    (afterRetry pass ticket outcome rest error reopens).remaining <
      (Phase.settling pass (ticket :: rest) error).remaining := by
  unfold afterRetry
  split
  · simp only [Phase.remaining, unopened, length_cons, length_map]
    omega
  · simp only [Phase.remaining, length_cons, length_nil]
    omega

theorem World.retry_enters (locked : world.lock = some c) {ticket : IngestTicket} {rest : List IngestTicket}
    (settling : call.phase = .settling pass (ticket :: rest) error) :
    Entered world c call (world.retry mikura c call pass ticket rest error choice) := by
  refine .leader locked ?_ (.same rfl rfl) ?_ ?_
  · unfold afterRetry
    split <;> rfl
  · intro _
    rw [settling]
    exact afterRetry_shorter ..
  · intro otherPass batch pagesBefore
    unfold afterRetry
    split <;> nofun

theorem World.withdraw_enters (other : world.lock ≠ some c) (error : String) :
    Entered world c call (world.withdraw c call error) := by
  unfold World.withdraw
  split
  · exact .follower other rfl (.same rfl rfl)
  · exact .follower other rfl (.same rfl rfl)

theorem World.advance_enters (wf : world.Wf) (here : world.calls c = some call) :
    world.advance mikura c call choice = world ∧ call.phase.leads = false ∨
      Entered world c call (world.advance mikura c call choice) := by
  obtain ⟨leads, follows⟩ := wf.turn here
  unfold World.advance
  generalize phase : call.phase = current at leads follows ⊢
  cases current with
  | queued =>
    dsimp only
    split
    · exact .inl ⟨rfl, rfl⟩
    · exact .inr (.follower (follows rfl) rfl (.same rfl rfl))
    · rename_i free _
      refine .inr ⟨_, _, ?_, rfl⟩
      refine ⟨rfl, rfl, rfl, ?_, iff_of_true rfl rfl, .inl rfl, nofun, fun _ => nofun, .same rfl rfl⟩
      intro other different
      rw [free]
      refine iff_of_false ?_ nofun
      exact fun same => different (some.inj same).symm
  | opened => exact .inr (World.drain_enters (leads rfl) phase)
  | committing pass batch pagesBefore => exact .inr (World.commit_enters (leads rfl) phase choice.batch)
  | reopening pass batch pagesBefore error => exact .inr (World.reopen_enters (leads rfl) phase choice.reopens)
  | settling pass rest error =>
    have locked := leads rfl
    cases rest with
    | nil => exact .inr (.leader locked rfl (.same rfl rfl) nofun)
    | cons ticket rest => exact .inr (World.retry_enters locked phase)
  | finishing pass todo next =>
    have locked := leads rfl
    cases todo with
    | nil =>
      cases next with
      | release result => exact .inr (.leader locked rfl (.same rfl rfl) nofun)
      | settle rest error =>
        refine .inr (.leader locked rfl (.same rfl rfl) fun _ => ?_)
        rw [phase]
        simp only [Phase.remaining]
        omega
    | cons first todo =>
      refine .inr (.leader locked rfl (World.finish_tells ..) fun _ => ?_)
      rw [phase]
      cases next with
      | release result | settle rest error =>
        simp only [Phase.remaining, length_cons]
        omega
  | releasing result =>
    have locked := leads rfl
    refine .inr ⟨_, _, ?_, rfl⟩
    refine ⟨rfl, rfl, rfl, ?_, iff_of_false nofun nofun, .inl rfl, nofun, fun _ => nofun, .same rfl rfl⟩
    intro other different
    rw [locked]
    refine iff_of_false nofun ?_
    exact fun same => different (some.inj same).symm
  | returned led opened =>
    dsimp only
    split
    · exact .inr (.follower (follows rfl) rfl (World.takeOutcome_tells _))
    · refine .inr (.follower (follows rfl) ?_ (.same rfl rfl))
      unfold afterLead
      split <;> rfl
  | failed error => exact .inr (World.withdraw_enters (follows rfl) error)
  | lost error =>
    dsimp only
    split
    · exact .inl ⟨rfl, rfl⟩
    · exact .inr (.follower (follows rfl) rfl (.same rfl rfl))
  | waited error =>
    dsimp only
    split
    · exact .inr (.follower (follows rfl) rfl (World.takeOutcome_tells _))
    · exact .inr (.follower (follows rfl) rfl (.same rfl rfl))
  | done outcome => exact .inl ⟨rfl, rfl⟩

/-- What holds between the steps is kept where one call comes to a new phase. -/
theorem World.Wf.changed {later : World} {new : Call} (wf : world.Wf) (own : later.calls c = some new)
    (others : ∀ other, other ≠ c → later.calls other = world.calls other)
    (lock : ∀ other, other ≠ c → (later.lock = some other ↔ world.lock = some other))
    (leads : new.phase.leads ↔ later.lock = some c)
    (fresh : ∀ other, later.started ≤ other → other ≠ c ∧ world.started ≤ other)
    (owners : ∀ path, ∀ ticket ∈ later.enqueued path,
      (ticket.call = c ∧ new.path = path ∧ new.object = ticket.object) ∨
        ticket.call ≠ c ∧ ticket ∈ world.enqueued path) (disk : later.disk = world.disk ∨ world.lock = some c)
    (pages : ∀ pass batch pagesBefore, new.phase = .committing pass batch pagesBefore →
      batch ≠ [] ∧ pagesBefore = (later.disk new.path).pages) : later.Wf := by
  refine ⟨?_, ?_, ?_, ?_, ?_⟩
  · intro other found present
    by_cases same : other = c
    · subst same
      rw [own] at present
      cases present
      exact leads
    · rw [others other same] at present
      exact (wf.lead other found present).trans (lock other same).symm
  · intro other holds
    by_cases same : other = c
    · rw [same, own]
      rfl
    · rw [others other same]
      exact wf.locked other ((lock other same).mp holds)
  · intro other late
    obtain ⟨different, unused⟩ := fresh other late
    rw [others other different, wf.fresh other unused]
  · intro path ticket queued
    rcases owners path ticket queued with ⟨same, named⟩ | ⟨different, before⟩
    · rw [same]
      exact ⟨new, own, named⟩
    · rw [others _ different]
      exact wf.owners path ticket before
  · intro other found pass batch pagesBefore present committing
    by_cases same : other = c
    · subst same
      rw [own] at present
      cases present
      exact pages pass batch pagesBefore committing
    · rw [others other same] at present
      have before := wf.pages other found pass batch pagesBefore present committing
      rcases disk with kept | locked
      · rw [kept]
        exact before
      · -- a batch is only committed by the holder of the lock
        have leading : found.phase.leads := by
          rw [committing]
          rfl
        have holds := (wf.lead other found present).mp leading
        rw [locked] at holds
        exact absurd (some.inj holds).symm same

theorem Enters.wf (enters : Enters world base c call phase) (wf : world.Wf)
    (here : world.calls c = some call) : (base.enter c call phase).Wf := by
  refine wf.changed (update_self ..) ?_ enters.lock enters.leads ?_ ?_ enters.disk enters.pages
  · intro other different
    simp only [World.enter, update_of_ne different, enters.calls]
  · intro other late
    have unused : world.started ≤ other := enters.started ▸ late
    refine ⟨?_, unused⟩
    rintro rfl
    rw [wf.fresh other unused] at here
    cases here
  · intro path ticket queued
    have queued : ticket ∈ world.enqueued path := enters.enqueued ▸ queued
    obtain ⟨owner, found, named⟩ := wf.owners path ticket queued
    by_cases same : ticket.call = c
    · rw [same, here] at found
      cases found
      exact .inl ⟨same, named⟩
    · exact .inr ⟨same, queued⟩

theorem World.enqueue_wf (wf : world.Wf) (object : Object) : (world.enqueue path object).Wf := by
  have unused := wf.fresh world.started le_rfl
  have unlocked : world.lock ≠ some world.started := by
    intro holds
    have locked := wf.locked world.started holds
    rw [unused] at locked
    cases locked
  refine wf.changed (c := world.started) (update_self ..) ?_ (fun _ _ => Iff.rfl)
    (iff_of_false (by rintro ⟨⟩) unlocked) ?_ ?_ (.inl rfl) (by rintro _ _ _ ⟨⟩)
  · intro other different
    simp only [World.enqueue, update_of_ne different]
  · intro other late
    have late : world.started + 1 ≤ other := late
    omega
  · intro other ticket queued
    have old : ticket ∈ world.enqueued other → ticket.call ≠ world.started := by
      intro before same
      obtain ⟨owner, found, _⟩ := wf.owners other ticket before
      rw [same, unused] at found
      cases found
    by_cases same : other = path
    · subst same
      have queued : ticket ∈ world.enqueued other ++ [⟨world.started, object⟩] := by
        rw [World.enqueue] at queued
        simpa only [update_self] using queued
      rcases mem_appended.mp queued with before | rfl
      · exact .inr ⟨old before, before⟩
      · exact .inl ⟨rfl, rfl, rfl⟩
    · rw [World.enqueue] at queued
      simp only [update_of_ne same] at queued
      exact .inr ⟨old queued, queued⟩

theorem step_advance (wf : world.Wf) (c : Nat) (choice : Choice) : step mikura world (.advance c choice) = world ∨
    ∃ call, world.calls c = some call ∧ ¬ call.phase.ended ∧
      Entered world c call (step mikura world (.advance c choice)) := by
  unfold step
  dsimp only
  split
  · exact .inl rfl
  · rename_i call here
    by_cases ended : call.phase.ended
    · obtain ⟨outcome, done⟩ := ended
      exact .inl (by rw [World.advance, done])
    · rcases World.advance_enters wf here with ⟨same, _⟩ | entered
      · exact .inl same
      · exact .inr ⟨call, here, ended, entered⟩

theorem step_wf (wf : world.Wf) (action : Action) : (step mikura world action).Wf := by
  cases action with
  | enqueue path object => exact World.enqueue_wf wf object
  | advance c choice =>
    rcases step_advance wf c choice with same | ⟨call, here, _, base, phase, enters, next⟩
    · rwa [same]
    · rw [next]
      exact enters.wf wf here

theorem World.Wf.enqueue_calls (wf : world.Wf) (here : world.calls c = some call) (object : Object) :
    (world.enqueue path object).calls c = some call := by
  have old : c ≠ world.started := by
    rintro rfl
    rw [wf.fresh _ le_rfl] at here
    cases here
  simp only [World.enqueue, update_of_ne old, here]

theorem Enters.others (enters : Enters world base c call phase) {other : Nat} (different : other ≠ c) :
    (base.enter c call phase).calls other = world.calls other := by
  simp only [World.enter, update_of_ne different, enters.calls]

theorem start_wf (pages : String → Nat) : (World.start pages).Wf := by
  refine ⟨nofun, nofun, fun _ _ => rfl, ?_, nofun⟩
  intro path ticket queued
  cases queued

/-- The outcome of call `c` is set, or the call took it and has ended. -/
def World.Told (world : World) (c : Nat) : Prop :=
  world.outcomes c ≠ none ∨ ∃ call, world.calls c = some call ∧ call.phase.ended

theorem step_told (wf : world.Wf) (action : Action) {other : Nat} (told : world.Told other) :
    (step mikura world action).Told other := by
  cases action with
  | enqueue path object =>
    refine told.imp_right ?_
    rintro ⟨call, here, ended⟩
    exact ⟨call, wf.enqueue_calls here object, ended⟩
  | advance c choice =>
    rcases step_advance wf c choice with same | ⟨call, here, running, base, phase, enters, next⟩
    · rwa [same]
    · rw [next]
      rcases told with set | ⟨found, there, ended⟩
      · refine (enters.tells.kept other set).imp_right ?_
        rintro ⟨rfl, done⟩
        exact ⟨_, update_self .., done⟩
      · have different : other ≠ c := by
          rintro rfl
          cases here.symm.trans there
          exact running ended
        exact .inr ⟨found, (enters.others different).trans there, ended⟩

theorem step_completed (wf : world.Wf) (action : Action) {entry : Nat × IngestTicket}
    (completed : entry ∈ (step mikura world action).completed path) :
    entry ∈ world.completed path ∨ (step mikura world action).Told entry.2.call := by
  cases action with
  | enqueue onPath object => exact .inl completed
  | advance c choice =>
    rcases step_advance wf c choice with same | ⟨call, _, _, base, phase, enters, next⟩
    · exact .inl (same ▸ completed)
    · rw [next] at completed ⊢
      exact (enters.tells.given path entry completed).imp_right .inl

structure World.Inv (world : World) : Prop where
  wf : world.Wf
  told : ∀ path, ∀ entry ∈ world.completed path, world.Told entry.2.call
  sound : ∀ path, (world.lane path).Sound IngestTicket.identity

theorem World.Inv.step (advances : ∀ records, records ≠ [] → 0 < mikura.pagesOf records) (inv : world.Inv)
    (action : Action) : (step mikura world action).Inv where
  wf := step_wf inv.wf action
  told := by
    intro path entry completed
    rcases step_completed inv.wf action completed with before | told
    · exact step_told inv.wf action (inv.told path entry before)
    · exact told
  sound path := (step_moves advances inv.wf action path).sound (inv.sound path)

section
variable (advances : ∀ records, records ≠ [] → 0 < mikura.pagesOf records) (pages : String → Nat)
  (actions : List Action)
include advances

theorem run_inv (n : Nat) : (Trace.after (step mikura) (World.start pages) actions n).Inv := by
  refine Trace.always ⟨start_wf pages, nofun, fun path => Lane.sound_empty⟩ ?_ n
  intro k action _ before
  exact before.step advances action

end

/-- No ticket is drained, completed or appended twice, a completed one has told its call the outcome, none is appended
that was withdrawn, and the records of one identity are appended in the order in which they were queued, one for each
batch. -/
structure Safe (world : World) : Prop where
  enqueuedOnce : ∀ path, (world.enqueued path).Nodup
  onePath : ∀ path other, ∀ ticket ∈ world.enqueued path, ticket ∈ world.enqueued other → path = other
  drainedOnce : ∀ path, ((world.drained path).map Prod.snd).Nodup
  completed : ∀ path, ∀ entry ∈ world.drained path, (world.completed path).count entry = 1 ∨
    (world.completed path).count entry = 0 ∧ ∃ c call, world.lock = some c ∧ world.calls c = some call ∧
      call.path = path ∧ call.phase.pass = some entry.1
  completedDrained : ∀ path, ∀ entry ∈ world.completed path, entry ∈ world.drained path
  told : ∀ path, ∀ entry ∈ world.completed path, world.outcomes entry.2.call ≠ none ∨
    ∃ call outcome, world.calls entry.2.call = some call ∧ call.phase = .done outcome
  withdrawn : ∀ path, ∀ ticket ∈ world.withdrawn path, ticket ∉ (world.disk path).batches.flatten
  appendedOnce : ∀ path, (world.disk path).batches.flatten.Nodup
  ordered : ∀ path key, (Lane.ofKey IngestTicket.identity key (world.disk path).batches.flatten).Sublist
    (Lane.ofKey IngestTicket.identity key (world.enqueued path))
  onePerBatch : ∀ path, ∀ batch ∈ (world.disk path).batches, (batch.map IngestTicket.identity).Nodup

theorem World.Inv.drained_nodup (inv : world.Inv) (path : String) : (world.drained path).Nodup :=
  (inv.sound path).drained_unique.of_map

theorem World.Inv.answered (inv : world.Inv) (path : String) :
    world.completed path ++ (world.phaseAt path).owed = world.drained path :=
  (inv.sound path).answered

variable {entry : Nat × IngestTicket}

theorem Phase.pass_of_owed (owing : entry ∈ phase.owed) : phase.pass = some entry.1 := by
  cases phase with
  | committing pass batch pagesBefore | reopening pass batch pagesBefore error | settling pass rest error
  | finishing pass todo next =>
    obtain ⟨ticket, _, rfl⟩ := List.mem_map.mp owing
    rfl
  | _ => cases owing

theorem World.leader_of_owed (owing : entry ∈ (world.phaseAt path).owed) :
    ∃ c call, world.lock = some c ∧ world.calls c = some call ∧ call.path = path ∧
      call.phase.pass = some entry.1 := by
  unfold World.phaseAt at owing
  split at owing
  · rename_i call leads
    obtain ⟨c, locked, here⟩ := bind_eq_some_iff.mp leads
    split at owing
    · rename_i onPath
      exact ⟨c, call, locked, here, onPath, Phase.pass_of_owed owing⟩
    · cases owing
  · cases owing

theorem World.Inv.completed_cases (inv : world.Inv) (drained : entry ∈ world.drained path) :
    (world.completed path).count entry = 1 ∨
      (world.completed path).count entry = 0 ∧ entry ∈ (world.phaseAt path).owed := by
  have once := inv.drained_nodup path
  rw [← inv.answered path] at once drained
  obtain ⟨distinct, _, apart⟩ := nodup_append.mp once
  rcases mem_append.mp drained with completed | owing
  · exact .inl (count_eq_one_of_mem distinct completed)
  · refine .inr ⟨count_eq_zero.mpr ?_, owing⟩
    intro completed
    exact apart entry completed entry owing rfl

theorem World.Inv.safe (inv : world.Inv) : Safe world where
  enqueuedOnce path := (inv.sound path).unique
  onePath := by
    intro path other ticket queued queuedThere
    obtain ⟨call, here, onPath, _⟩ := inv.wf.owners path ticket queued
    obtain ⟨same, there, onOther, _⟩ := inv.wf.owners other ticket queuedThere
    rw [here] at there
    cases there
    rw [← onPath, ← onOther]
  drainedOnce path := (inv.sound path).drained_unique
  completed := by
    intro path entry drained
    rcases inv.completed_cases drained with once | ⟨none, owing⟩
    · exact .inl once
    · exact .inr ⟨none, World.leader_of_owed owing⟩
  completedDrained := by
    intro path entry completed
    rw [← inv.answered path]
    exact mem_append_left _ completed
  told path entry completed := by
    refine (inv.told path entry completed).imp_right ?_
    rintro ⟨call, here, outcome, done⟩
    exact ⟨call, outcome, here, done⟩
  withdrawn path := (inv.sound path).withdrawn_unlogged
  appendedOnce path := (inv.sound path).log_unique
  ordered path := (inv.sound path).log_ordered
  onePerBatch path := (inv.sound path).batches

def Action.isOf (c : Nat) : Action → Bool
  | .enqueue _ _ => false
  | .advance other _ => other == c

def World.remaining (world : World) (c : Nat) : Nat :=
  match world.calls c with
  | some call => call.phase.remaining
  | none => 0

/-- While a call has tickets to complete, the other calls leave it the lock, and its own steps lower what
remains of its pass. -/
theorem step_leader (wf : world.Wf) (locked : world.lock = some c)
    (here : world.calls c = some call) (within : call.phase.pass.isSome) (action : Action) :
    ∃ next, (step mikura world action).calls c = some next ∧
      (next.phase.pass.isSome → next.phase.remaining + (if action.isOf c then 1 else 0) ≤ call.phase.remaining) ∧
      ∀ other, (step mikura world action).lock = some other → other = c := by
  have holder : ∀ other, world.lock = some other → other = c := by
    intro other holds
    rw [locked] at holds
    exact (some.inj holds).symm
  cases action with
  | enqueue path object =>
    exact ⟨call, wf.enqueue_calls here object, fun _ => le_rfl, holder⟩
  | advance other choice =>
    by_cases same : other = c
    · subst same
      have leading := Phase.leads_of_pass within
      simp only [step, here, Action.isOf, beq_self_eq_true]
      rcases World.advance_enters wf here with ⟨_, quiet⟩ | ⟨base, phase, enters, next⟩
      · rw [leading] at quiet
        cases quiet
      · rw [next]
        refine ⟨_, update_self .., enters.shorter within, ?_⟩
        intro holds nextLock
        by_contra different
        exact different (holder holds ((enters.lock holds different).mp nextLock))
    · have others : Action.isOf c (.advance other choice) = false := by simpa [Action.isOf] using same
      rw [others]
      rcases step_advance wf other choice with idle | ⟨found, _, _, base, phase, enters, next⟩
      · rw [idle]
        exact ⟨call, here, fun _ => le_rfl, holder⟩
      · rw [next]
        have kept : base.lock = some c := (enters.lock c (Ne.symm same)).mpr locked
        refine ⟨call, (enters.others (Ne.symm same)).trans here, fun _ => le_rfl, ?_⟩
        intro holds nextLock
        have nextLock : base.lock = some holds := nextLock
        rw [kept] at nextLock
        exact (some.inj nextLock).symm

def Answered (path : String) (entry : Nat × IngestTicket) (world : World) : Prop :=
  entry ∈ world.completed path

structure Owing (c : Nat) (path : String) (entry : Nat × IngestTicket) (world : World) : Prop where
  drained : entry ∈ world.drained path
  locked : world.lock = some c
  within : ∃ call, world.calls c = some call ∧ call.phase.pass.isSome

theorem World.remaining_eq (here : world.calls c = some call) : world.remaining c = call.phase.remaining := by
  rw [World.remaining, here]

/-- A step either completes what is owed or leaves the same leader with less to do. -/
theorem Owing.step (advances : ∀ records, records ≠ [] → 0 < mikura.pagesOf records)
    (inv : world.Inv) (owing : Owing c path entry world) (action : Action) :
    Answered path entry (step mikura world action) ∨ Owing c path entry (step mikura world action) ∧
        (step mikura world action).remaining c + (if action.isOf c then 1 else 0) ≤ world.remaining c := by
  obtain ⟨call, here, within⟩ := owing.within
  have moves := step_moves advances inv.wf action path
  have nextInv := inv.step advances action
  have drained : entry ∈ (ObjectLog.step mikura world action).drained path :=
    moves.history.1 owing.drained
  rcases nextInv.completed_cases drained with once | ⟨_, still⟩
  · exact .inl (count_pos_iff.mp (by omega))
  · obtain ⟨next, nextCall, shorter, holder⟩ :=
      step_leader inv.wf owing.locked here within action
    obtain ⟨leader, found, nextLock, there, _, pass⟩ := World.leader_of_owed still
    have same := holder leader nextLock
    subst same
    rw [nextCall] at there
    cases there
    have nextWithin : next.phase.pass.isSome := by
      rw [pass]
      rfl
    refine .inr ⟨⟨drained, nextLock, next, nextCall, nextWithin⟩, ?_⟩
    rw [World.remaining_eq here, World.remaining_eq nextCall]
    exact shorter nextWithin

section
variable (advances : ∀ records, records ≠ [] → 0 < mikura.pagesOf records) (pages : String → Nat)
  (actions : List Action)
include advances

/-- The leader completes what it drained within the steps that remain of its pass. -/
theorem completed_within {i j : Nat} (later : i ≤ j)
    (locked : (Trace.after (step mikura) (World.start pages) actions i).lock = some c)
    (enough : (Trace.after (step mikura) (World.start pages) actions i).remaining c <
      Trace.stepsOf (Action.isOf c) actions i j) {entry : Nat × IngestTicket}
    (drained : entry ∈ (Trace.after (step mikura) (World.start pages) actions i).drained path) :
    Answered path entry (Trace.after (step mikura) (World.start pages) actions j) := by
  have kept : ∀ n action, actions[n]? = some action →
      Answered path entry (Trace.after (step mikura) (World.start pages) actions n) →
      Answered path entry (step mikura (Trace.after (step mikura) (World.start pages) actions n) action) := by
    intro n action _ completed
    exact (step_moves advances (run_inv advances pages actions n).wf action path).history.2 completed
  have inv := run_inv advances pages actions i
  rcases inv.completed_cases drained with once | ⟨_, owed⟩
  · have completed : Answered path entry (Trace.after (step mikura) (World.start pages) actions i) :=
      count_pos_iff.mp (by omega)
    exact Trace.lasts kept later completed
  · obtain ⟨leader, call, holds, here, _, pass⟩ := World.leader_of_owed owed
    rw [locked] at holds
    cases holds
    have owing : Owing c path entry (Trace.after (step mikura) (World.start pages) actions i) :=
      ⟨drained, locked, call, here, by rw [pass]; rfl⟩
    refine Trace.ends_within _ (World.remaining · c) ?_ kept later owing enough
    intro n action _ held
    exact held.step advances (run_inv advances pages actions n) action

end

/-- In every schedule each drained ticket is completed once: before its leader gives the handle back, and
after a bounded number of the leader's own steps. -/
theorem groupCommit_safe (advances : ∀ records, records ≠ [] → 0 < mikura.pagesOf records)
    (pages : String → Nat) (actions : List Action) :
    (∀ n, Safe (Trace.after (step mikura) (World.start pages) actions n)) ∧
    ∀ i j, i ≤ j → ∀ c, (Trace.after (step mikura) (World.start pages) actions i).lock = some c →
      (Trace.after (step mikura) (World.start pages) actions i).remaining c <
        Trace.stepsOf (Action.isOf c) actions i j →
      ∀ path, ∀ entry ∈ (Trace.after (step mikura) (World.start pages) actions i).drained path,
        ((Trace.after (step mikura) (World.start pages) actions j).completed path).count entry = 1 := by
  refine ⟨fun n => (run_inv advances pages actions n).safe, ?_⟩
  intro i j later c locked enough path entry drained
  have completed := completed_within advances pages actions later locked enough drained
  have safe := (run_inv advances pages actions j).safe
  rcases safe.completed path entry (safe.completedDrained path entry completed) with once | ⟨none, _⟩
  · exact once
  · exact absurd completed (count_eq_zero.mp none)

def sampleMikura : Mikura where
  pagesOf := List.length
  generation batches key := .ok (batches.flatten.countP (identity · = key))

def sampleObject (id : String) : Object := ⟨id, "Host", "web", "default", "", .empty, 0, 0⟩

/-- The first call leads for itself and the third; its batch is rolled back and the records are retried. The
second call has the identity of the first and stays queued. -/
def sampleActions : List Action :=
  [.enqueue "log" (sampleObject "a"), .enqueue "log" (sampleObject "a"), .enqueue "log" (sampleObject "b"),
    .advance 0 ⟨.ok (), .committed, .ok ()⟩, .advance 0 ⟨.ok (), .committed, .ok ()⟩,
    .advance 0 ⟨.ok (), .rolledBack "full", .ok ()⟩] ++
    List.replicate 8 (.advance 0 ⟨.ok (), .committed, .ok ()⟩)

theorem groupCommit_safe_sample : Safe (Trace.after (step sampleMikura) (World.start fun _ => 1) sampleActions 14) ∧
      ((Trace.after (step sampleMikura) (World.start fun _ => 1) sampleActions 14).completed "log").count
        (0, ⟨2, sampleObject "b"⟩) = 1 := by
  have advances : ∀ records, records ≠ [] → 0 < sampleMikura.pagesOf records := by
    intro records nonempty
    exact length_pos_iff.mpr nonempty
  obtain ⟨safe, ends⟩ := groupCommit_safe advances (fun _ => 1) sampleActions
  exact ⟨safe 14, ends 5 14 (by decide) 0 (by decide +kernel) (by decide +kernel) "log" _ (by decide +kernel)⟩

/-- Along a schedule only the holder of the lock leads, each ticket is its call's own, and a leader commits onto the
pages it counted. -/
theorem schedule_wellFormed (mikura : Mikura) (pages : String → Nat) (actions : List Action) (n : Nat) :
    (Trace.after (step mikura) (World.start pages) actions n).Wf :=
  Trace.always (start_wf pages) (fun _ action _ wf => step_wf wf action) n

end SekaiChisei.ObjectLog
