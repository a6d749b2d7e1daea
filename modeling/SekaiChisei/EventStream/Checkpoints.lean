import SekaiChisei.EventStream.Gapless

/-! Event streams along whole schedules of registrations and projections. -/

namespace SekaiChisei.EventStream
open Lib Option Function

variable {digests : Digests} {tables : Tables} {world : World}

def Stored (tables : Tables) : Prop :=
  ∀ stream checkpoint, tables.checkpoints stream = some checkpoint →
    checkpoint.streamId = stream ∧ 0 < checkpoint.committedOffset

def PhaseOk : Phase → Prop
  | .bound batch _ _ | .replaying batch _ => Valid batch
  | .advancing batch _ _ read => Valid batch ∧ Follows batch (orInitial batch read) ∧
    ∀ checkpoint, read = some checkpoint → checkpoint.streamId = batch.streamId ∧ 0 < checkpoint.committedOffset
  | _ => True

structure Known (world : World) : Prop where
  stored : Stored world.tables
  phases : ∀ c phase, world.calls c = some phase → PhaseOk phase

theorem Known.enter {c : Nat} {phase : Phase} (known : Known world) (stored : Stored tables) (ok : PhaseOk phase) :
    Known (world.enter c tables phase) := by
  refine ⟨stored, ?_⟩
  intro other found atOther
  have updated : update world.calls c (some phase) other = some found := atOther
  by_cases same : other = c
  · rw [same, update_self] at updated
    obtain rfl : phase = found := some.inj updated
    exact ok
  · rw [update_of_ne same] at updated
    exact known.phases other found updated

variable {batch : EventStreamBatch} {authority : Authority}

theorem checkBatch_valid {actor : String} {read : Option EventStreamBinding}
    {checked : EventStreamBinding × List String}
    (ok : checkBatch digests actor batch read authority = .ok checked) : Valid batch := by
  cases read with
  | none => cases ok
  | some binding =>
    rw [checkBatch, ite_error_eq_ok, ite_error_eq_ok] at ok
    obtain ⟨_, _, ok⟩ := ok
    obtain ⟨_, _, ok⟩ := bind_eq_ok.mp ok
    obtain ⟨valid, _⟩ := check_eq_ok.mp ok
    exact validateBatch_ok valid

theorem stored_putBinding {binding : EventStreamBinding} {after : Tables} (stored : Stored tables)
    (put : tables.putBinding binding = .ok after) : Stored after := by
  have reset : Stored ((tables.bind binding).reset binding.streamId) := by
    intro stream checkpoint found
    by_cases same : stream = binding.streamId
    · simp only [same, Tables.reset, update_self] at found
      cases found
    · simp only [Tables.reset, update_of_ne same] at found
      exact stored stream checkpoint found
  rw [Tables.putBinding] at put
  split at put
  · cases put
    exact stored
  · split at put
    · cases put
    split at put
    · cases put
      exact reset
    · cases put
      exact stored

theorem stored_ensure {after : Tables} (stored : Stored tables)
    (ensured : tables.ensure digests batch = .ok after) : Stored after := by
  rw [Tables.ensure] at ensured
  split at ensured
  · cases ensured
  · split at ensured
    · cases ensured
      exact stored
    · cases ensured

variable {read : Option EventStreamCheckpoint} {digest : String}

theorem stored_accept
    (stored : Stored tables) (valid : Valid batch) : Stored (tables.accept digests batch digest read) := by
  intro stream checkpoint found
  by_cases same : stream = batch.streamId
  · simp only [same, Tables.accept, update_self] at found
    obtain rfl : nextCheckpoint batch digest = checkpoint := some.inj found
    have positive := valid.positive
    have ordered := valid.ordered
    exact ⟨same.symm, by show 0 < batch.offsetEnd; omega⟩
  · simp only [Tables.accept, update_of_ne same] at found
    exact stored stream checkpoint found

variable {authorized : List String}

theorem ofDecision_ok {binding : EventStreamBinding} (stored : Stored tables) (valid : Valid batch) :
    PhaseOk (.ofDecision batch binding authorized (tables.checkpoints batch.streamId)
      (decidedWithoutAdvance digests binding batch authorized digest
        (orInitial batch (tables.checkpoints batch.streamId)))) := by
  cases decided : decidedWithoutAdvance digests binding batch authorized digest
      (orInitial batch (tables.checkpoints batch.streamId)) with
  | error => trivial
  | ok answer =>
    cases answer with
    | some projection => exact valid
    | none => exact ⟨valid, follows_of_decided decided, stored batch.streamId⟩

theorem advance_known (authority : Authority) {phase : Phase} (stored : Stored tables) (ok : PhaseOk phase) :
    Stored (advance digests tables authority phase).1 ∧ PhaseOk (advance digests tables authority phase).2 := by
  cases phase with
  | registering actor validated =>
    rw [advance]
    split
    · exact ⟨stored, trivial⟩
    · exact ⟨stored, trivial⟩
  | putting validated =>
    rw [advance]
    cases put : tables.putBinding validated with
    | error => exact ⟨stored, trivial⟩
    | ok after => exact ⟨stored_putBinding stored put, trivial⟩
  | projecting actor batch =>
    rw [advance]
    cases checked : checkBatch digests actor batch (tables.bindings batch.streamId) authority with
    | error => exact ⟨stored, trivial⟩
    | ok pair => exact ⟨stored, checkBatch_valid checked⟩
  | bound batch binding authorized => exact ⟨stored, ofDecision_ok stored ok⟩
  | replaying batch projection =>
    rw [advance]
    cases ensured : tables.ensure digests batch with
    | error => exact ⟨stored, trivial⟩
    | ok after => exact ⟨stored_ensure stored ensured, trivial⟩
  | advancing batch binding authorized read =>
    rw [advance]
    split
    · exact ⟨stored_accept stored ok.1, trivial⟩
    · exact ⟨stored, trivial⟩
  | conflicted batch binding authorized =>
    rw [advance]
    split
    · exact ⟨stored, trivial⟩
    · exact ⟨stored, trivial⟩
    · exact ⟨stored, trivial⟩
  | done result => exact ⟨stored, trivial⟩

theorem step_known (act : Action) (known : Known world) : Known (step digests world act) := by
  cases act with
  | register actor binding now =>
    have entered : Known (world.enter world.started world.tables (registerPhase digests actor binding now)) := by
      apply known.enter known.stored
      rw [registerPhase]
      split
      · trivial
      · trivial
    exact ⟨entered.stored, entered.phases⟩
  | project actor batch now =>
    have entered : Known (world.enter world.started world.tables (projectPhase actor batch now)) := by
      apply known.enter known.stored
      rw [projectPhase]
      split
      · trivial
      · trivial
    exact ⟨entered.stored, entered.phases⟩
  | advance c authority =>
    rw [step]
    cases atC : world.calls c with
    | none => exact known
    | some phase =>
      obtain ⟨stored, ok⟩ := @advance_known digests _ authority _ known.stored (known.phases c phase atC)
      exact known.enter stored ok
  | fail c error =>
    rw [step]
    split
    · exact known
    · exact known
    · exact known.enter known.stored trivial

/-- A batch is accepted where the checkpoint that its call had read is gone. -/
def BlindInsert (world : World) (act : Action) : Prop :=
  ∃ c authority batch binding authorized checkpoint, act = .advance c authority ∧
    world.calls c = some (.advancing batch binding authorized (some checkpoint)) ∧
    (world.tables.bindings batch.streamId).any (·.definitionDigest = binding.definitionDigest) ∧
    world.tables.checkpoints batch.streamId = none

theorem found_eq_read {checkpoint : EventStreamCheckpoint} (stored : Stored tables)
    (found : tables.checkpoints batch.streamId = some checkpoint)
    (readOk : ∀ checkpoint, read = some checkpoint → checkpoint.streamId = batch.streamId ∧
      0 < checkpoint.committedOffset)
    (overwritten : overwrites (tables.checkpoints batch.streamId) (orInitial batch read)) :
    read = some checkpoint := by
  obtain ⟨named, positive⟩ := stored batch.streamId checkpoint found
  rw [found] at overwritten
  simp only [overwrites, decide_eq_true_eq] at overwritten
  obtain ⟨offset, digest, generation, epoch⟩ := overwritten
  cases read with
  | none =>
    have zero : checkpoint.committedOffset = 0 := offset
    omega
  | some seen =>
    have seenNamed := (readOk seen rfl).1
    cases checkpoint
    cases seen
    subst offset digest generation epoch named seenNamed
    rfl

theorem sound_accept_iff (stored : Stored tables) (sound : Sound digests tables) (valid : Valid batch)
    (follows : Follows batch (orInitial batch read))
    (readOk : ∀ checkpoint, read = some checkpoint → checkpoint.streamId = batch.streamId ∧
      0 < checkpoint.committedOffset)
    (overwritten : overwrites (tables.checkpoints batch.streamId) (orInitial batch read)) :
    Sound digests (tables.accept digests batch digest read) ↔
      (tables.checkpoints batch.streamId = none → read = none) := by
  constructor
  · intro after missing
    have last := after.2 ⟨batch, read, tables.checkpoints batch.streamId⟩ (List.mem_append_right _ List.mem_cons_self)
    exact last.trans missing
  · intro unread
    have both : read = tables.checkpoints batch.streamId ∧
        (tables.checkpoints batch.streamId = none ∧ (orInitial batch read).committedOffset = 0 ∨
          tables.checkpoints batch.streamId = some (orInitial batch read) ∧
            0 < (orInitial batch read).committedOffset) := by
      cases found : tables.checkpoints batch.streamId with
      | none =>
        rw [unread found]
        exact ⟨rfl, Or.inl ⟨rfl, rfl⟩⟩
      | some checkpoint =>
        have same := found_eq_read stored found readOk overwritten
        rw [same]
        exact ⟨rfl, Or.inr ⟨rfl, (stored batch.streamId checkpoint found).2⟩⟩
    refine ⟨fun _ => gapless_accept sound.1 valid follows both.2, ?_⟩
    intro acceptance member
    rcases mem_appended.mp member with before | rfl
    · exact sound.2 acceptance before
    · exact both.1

theorem advancing_sound_iff {c : Nat} {binding : EventStreamBinding}
    (stored : Stored world.tables) (sound : Sound digests world.tables)
    (ok : PhaseOk (.advancing batch binding authorized read))
    (atC : world.calls c = some (.advancing batch binding authorized read)) :
    Sound digests (advance digests world.tables authority (.advancing batch binding authorized read)).1 ↔
      ¬ BlindInsert world (.advance c authority) := by
  obtain ⟨valid, follows, readOk⟩ := ok
  have blind : BlindInsert world (.advance c authority) ↔
      (world.tables.bindings batch.streamId).any (·.definitionDigest = binding.definitionDigest) ∧
        world.tables.checkpoints batch.streamId = none ∧ read ≠ none := by
    constructor
    · rintro ⟨_, _, _, _, _, checkpoint, same, found, bound, missing⟩
      cases same
      rw [atC] at found
      cases found
      exact ⟨bound, missing, some_ne_none _⟩
    · rintro ⟨bound, missing, seen⟩
      obtain ⟨checkpoint, rfl⟩ := ne_none_iff_exists'.mp seen
      exact ⟨c, authority, batch, binding, authorized, checkpoint, rfl, atC, bound, missing⟩
  rw [blind, advance]
  split
  · rename_i advances
    simp only [Tables.advances, decide_eq_true_eq] at advances
    rw [sound_accept_iff stored sound valid follows readOk advances.2]
    constructor
    · rintro unread ⟨_, missing, seen⟩
      exact seen (unread missing)
    · intro notBlind missing
      by_contra seen
      exact notBlind ⟨advances.1, missing, seen⟩
  · rename_i refused
    refine ⟨?_, fun _ => sound⟩
    rintro _ ⟨bound, missing, _⟩
    -- a missing row would have been inserted
    apply refused
    simp only [Tables.advances, decide_eq_true_eq, missing]
    exact ⟨bound, rfl⟩

theorem step_sound_iff (act : Action) (known : Known world) (sound : Sound digests world.tables) :
    Sound digests (step digests world act).tables ↔ ¬ BlindInsert world act := by
  have harmless : ∀ {tables}, Sound digests tables → (∀ c authority batch binding authorized checkpoint,
      act = .advance c authority → world.calls c ≠ some (.advancing batch binding authorized (some checkpoint))) →
      (Sound digests tables ↔ ¬ BlindInsert world act) := by
    intro tables after other
    refine ⟨fun _ blind => ?_, fun _ => after⟩
    obtain ⟨c, authority, batch, binding, authorized, checkpoint, same, atC, _⟩ := blind
    exact other c authority batch binding authorized checkpoint same atC
  cases act with
  | register | project => exact harmless sound fun _ _ _ _ _ _ same => by cases same
  | fail c error =>
    refine harmless ?_ fun _ _ _ _ _ _ same => by cases same
    rw [step]
    split
    · exact sound
    · exact sound
    · exact sound
  | advance c authority =>
    rw [step]
    cases atC : world.calls c with
    | none =>
      apply harmless sound
      intro other _ _ _ _ _ same found
      cases same
      rw [atC] at found
      cases found
    | some phase =>
      have elsewhere : ∀ {tables}, Sound digests tables → (∀ batch binding authorized checkpoint,
          phase ≠ .advancing batch binding authorized (some checkpoint)) →
          (Sound digests tables ↔ ¬ BlindInsert world (.advance c authority)) := by
        intro tables after other
        apply harmless after
        intro _ _ batch binding authorized checkpoint same found
        cases same
        rw [atC] at found
        exact other batch binding authorized checkpoint (some.inj found)
      have ok := known.phases c phase atC
      show Sound digests (advance digests world.tables authority phase).1 ↔ _
      cases phase with
      | registering actor validated | projecting actor batch =>
        refine elsewhere ?_ fun _ _ _ _ same => by cases same
        rw [advance]
        split
        · exact sound
        · exact sound
      | putting validated =>
        refine elsewhere ?_ fun _ _ _ _ same => by cases same
        rw [advance]
        cases put : world.tables.putBinding validated with
        | error => exact sound
        | ok after => exact sound_putBinding sound put
      | bound batch binding authorized | done result => exact elsewhere sound fun _ _ _ _ same => by cases same
      | replaying batch projection =>
        refine elsewhere ?_ fun _ _ _ _ same => by cases same
        rw [advance]
        cases ensured : world.tables.ensure digests batch with
        | error => exact sound
        | ok after => exact sound_ensure sound ok ensured
      | conflicted batch binding authorized =>
        refine elsewhere ?_ fun _ _ _ _ same => by cases same
        rw [advance]
        split
        · exact sound
        · exact sound
        · exact sound
      | advancing batch binding authorized read => exact advancing_sound_iff known.stored sound ok atC

def worldAt (digests : Digests) (acts : List Action) (n : Nat) : World :=
  Trace.after (step digests) .start acts n

theorem start_known : Known .start := by
  constructor
  · intro stream checkpoint found
    cases found
  · intro c phase atC
    cases atC

theorem start_sound : Sound digests World.start.tables := by
  refine ⟨fun stream => ⟨rfl, rfl⟩, ?_⟩
  intro acceptance member
  cases member

theorem worldAt_known (acts : List Action) (n : Nat) : Known (worldAt digests acts n) :=
  Trace.always start_known (fun _ act _ => step_known act) n

/-- Along a schedule the streams are sound at every moment if and only if no batch is accepted where the checkpoint
that its call had read is gone. -/
theorem eventStream_sound_iff (digests : Digests) (acts : List Action) :
    (∀ n, Sound digests (worldAt digests acts n).tables) ↔
      ∀ n act, acts[n]? = some act → ¬ BlindInsert (worldAt digests acts n) act := by
  have along := @Trace.always_iff World Action (step digests) .start acts
    (fun world => Known world ∧ Sound digests world.tables) BlindInsert ⟨start_known, start_sound⟩ ?_
  · refine Iff.trans (forall_congr' fun n => ?_) along
    exact ⟨fun sound => ⟨worldAt_known acts n, sound⟩, fun both => both.2⟩
  · rintro world act _ ⟨known, sound⟩
    rw [← step_sound_iff act known sound]
    exact and_iff_right (step_known act known)

def plainDigests : Digests where
  definition := EventStreamBinding.typeDigest
  batch := fun batch => batch.offsetEnd.repr
  event := StreamEvent.eventId
  projection := fun _ _ => ""

def binding (typeDigest : String) : EventStreamBinding where
  contractVersion := contract
  streamId := "s"
  nameSpace := "n"
  owner := "a"
  source := "g"
  sourceInstance := "i"
  schemaRevision := schemaRevisionV1
  typeDigest := typeDigest
  definitionDigest := ""
  columns := [⟨"id", "string", "public"⟩]
  registeredBy := ""
  registeredAtMs := 0

def single (offset : Nat) : EventStreamBatch where
  streamId := "s"
  generation := 1
  feedEpoch := "e"
  offsetStart := offset
  offsetEnd := offset
  events := [⟨offset, "e", ⟨[("id", "1")], List.pairwise_singleton _ _⟩⟩]
  contentDigest := "sha256:" ++ offset.repr

def run (c steps : Nat) : List Action := List.replicate steps (.advance c (.ok fun _ => true))

/-- Call 2 reads the checkpoint of event 1. The definition is changed and changed back, which deletes the rows of
the stream, and call 2 goes on. -/
def changedAndBack : List Action :=
  [.register "a" (binding "t") 0] ++ run 0 2 ++ [.project "a" (single 1) 0] ++ run 1 3 ++
    [.project "a" (single 2) 0] ++ run 2 2 ++ [.register "a" (binding "u") 0] ++ run 3 2 ++
    [.register "a" (binding "t") 0] ++ run 4 2 ++ run 2 1

/-- Event 2 is admitted without event 1, on a checkpoint that is not there. -/
theorem second_event_without_first :
    ((worldAt plainDigests changedAndBack 17).tables.admitted "s").map AdmittedEvent.offset = [2] ∧
      ((worldAt plainDigests changedAndBack 17).tables.acceptances.map fun acceptance =>
        (acceptance.read.map EventStreamCheckpoint.committedOffset, acceptance.found.isSome)) =
          [(none, false), (some 1, false)] ∧
      ¬ Sound plainDigests (worldAt plainDigests changedAndBack 17).tables := by
  have admitted : ((worldAt plainDigests changedAndBack 17).tables.admitted "s").map AdmittedEvent.offset = [2] := by
    decide +kernel
  have committed : ((worldAt plainDigests changedAndBack 17).tables.checkpoints "s").map
      EventStreamCheckpoint.committedOffset = some 2 := by
    decide +kernel
  refine ⟨admitted, by decide +kernel, ?_⟩
  intro sound
  obtain ⟨checkpoint, stored, offset⟩ := map_eq_some_iff.mp committed
  have offsets := (sound.1 "s").offsets stored
  rw [offset] at offsets
  cases offsets

end SekaiChisei.EventStream
