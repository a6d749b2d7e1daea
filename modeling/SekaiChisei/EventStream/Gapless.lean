import SekaiChisei.EventStream.Projector

/-!
The admitted events of a stream are the offsets up to its checkpoint, as long as no batch is accepted where the
checkpoint that its call had read is gone.
-/

namespace SekaiChisei.EventStream
open Lib List Function

variable {digests : Digests} {tables : Tables} {world : World}

structure Valid (batch : EventStreamBatch) : Prop where
  positive : 0 < batch.offsetStart
  ordered : batch.offsetStart ≤ batch.offsetEnd
  offsets : batch.events.map StreamEvent.offset =
    List.range' batch.offsetStart (batch.offsetEnd + 1 - batch.offsetStart)

variable {binding : EventStreamBinding} {events : List StreamEvent}

theorem validateEvents_ok {offset : Nat} (valid : validateEvents binding offset events = .ok ()) :
    events.map StreamEvent.offset = List.range' offset events.length := by
  induction events generalizing offset with
  | nil => rfl
  | cons event rest ih =>
    rw [validateEvents, check_eq_ok] at valid
    obtain ⟨first, later⟩ := valid
    rw [validateEvent, check_eq_ok] at first
    have same : event.offset = offset := by
      by_contra different
      rw [if_pos different] at first
      cases first.2
    rw [map_cons, length_cons, range'_succ, ih later, same]

variable {batch : EventStreamBatch}

theorem validateBatch_ok (valid : validateBatch binding batch = .ok ()) : Valid batch := by
  rw [validateBatch] at valid
  split at valid
  · cases valid
  obtain ⟨_, valid⟩ := check_eq_ok.mp valid
  dsimp only at valid
  split at valid
  · cases valid
  split at valid
  · cases valid
  split at valid
  · cases valid
  rename_i length
  refine ⟨by omega, by omega, ?_⟩
  rw [validateEvents_ok valid]
  congr 1
  omega

structure Follows (batch : EventStreamBatch) (expected : EventStreamCheckpoint) : Prop where
  next : batch.offsetStart = expected.committedOffset + 1
  generation : 0 < expected.committedOffset → expected.generation = batch.generation
  feedEpoch : 0 < expected.committedOffset → expected.feedEpoch = batch.feedEpoch

variable {expected : EventStreamCheckpoint} {digest feedEpoch stream : String} {generation : Nat}
  {rows : List AdmittedEvent} {after : Tables}

theorem follows_of_decided {authorized : List String}
    (decided : decidedWithoutAdvance digests binding batch authorized digest expected = .ok none) :
    Follows batch expected := by
  rw [decidedWithoutAdvance] at decided
  split at decided
  · split at decided
    · cases decided
    rename_i same
    split at decided
    · split at decided
      · cases decided
      · cases decided
    split at decided
    · cases decided
    rename_i next
    have both : expected.generation = batch.generation ∧ expected.feedEpoch = batch.feedEpoch := by
      simpa only [not_or, not_not] using same
    exact ⟨not_not.mp next, fun _ => both.1, fun _ => both.2⟩
  · rename_i none
    split at decided
    · cases decided
    exact ⟨by omega, fun some => absurd some none, fun some => absurd some none⟩

theorem persist_cons (event : StreamEvent)
    (rest : List StreamEvent) : persist digests generation feedEpoch rows (event :: rest) =
      persist digests generation feedEpoch (if rows.any (·.offset = event.offset) then rows
        else rows ++ [admittedRow digests generation feedEpoch event]) rest := rfl

theorem persist_of_present (present : ∀ event ∈ events, event.offset ∈ rows.map AdmittedEvent.offset) :
    persist digests generation feedEpoch rows events = rows := by
  induction events with
  | nil => rfl
  | cons event rest ih =>
    obtain ⟨here, later⟩ := forall_mem_cons.mp present
    obtain ⟨row, member, same⟩ := mem_map.mp here
    have found : rows.any (·.offset = event.offset) = true := any_eq_true.mpr ⟨row, member, by simpa using same⟩
    rw [persist_cons, if_pos found, ih later]

theorem persist_of_new (distinct : (rows.map AdmittedEvent.offset ++ events.map StreamEvent.offset).Nodup) :
    persist digests generation feedEpoch rows events =
      rows ++ events.map (admittedRow digests generation feedEpoch) := by
  induction events generalizing rows with
  | nil => exact (append_nil rows).symm
  | cons event rest ih =>
    have fresh : ¬ rows.any (·.offset = event.offset) = true := by
      intro found
      obtain ⟨row, member, same⟩ := any_eq_true.mp found
      have apart := (nodup_append.mp distinct).2.2 row.offset (mem_map_of_mem member) event.offset mem_cons_self
      exact apart (by simpa using same)
    have regrouped : ((rows ++ [admittedRow digests generation feedEpoch event]).map AdmittedEvent.offset ++
        rest.map StreamEvent.offset).Nodup := by
      rw [map_append, append_assoc]
      exact distinct
    rw [persist_cons, if_neg fresh, ih regrouped, append_assoc]
    rfl

/-- The admitted events are those of the accepted batches, at the offsets up to the checkpoint, and all of one
generation and epoch. -/
def Gapless (digests : Digests) (tables : Tables) (stream : String) : Prop :=
  match tables.checkpoints stream with
  | none => tables.admitted stream = [] ∧ tables.accepted stream = []
  | some checkpoint =>
    (∀ batch ∈ tables.accepted stream,
      batch.generation = checkpoint.generation ∧ batch.feedEpoch = checkpoint.feedEpoch) ∧
    tables.admitted stream = ((tables.accepted stream).flatMap EventStreamBatch.events).map
      (admittedRow digests checkpoint.generation checkpoint.feedEpoch) ∧
    ((tables.accepted stream).flatMap EventStreamBatch.events).map StreamEvent.offset =
      List.range' 1 checkpoint.committedOffset

def Sound (digests : Digests) (tables : Tables) : Prop :=
  (∀ stream, Gapless digests tables stream) ∧ ∀ acceptance ∈ tables.acceptances, acceptance.read = acceptance.found

theorem Gapless.congr {later : Tables} (gapless : Gapless digests tables stream)
    (checkpoint : later.checkpoints stream = tables.checkpoints stream)
    (admitted : later.admitted stream = tables.admitted stream)
    (accepted : later.accepted stream = tables.accepted stream) : Gapless digests later stream := by
  rw [Gapless, checkpoint, admitted, accepted]
  exact gapless

theorem Gapless.offsets {checkpoint : EventStreamCheckpoint}
    (gapless : Gapless digests tables stream) (stored : tables.checkpoints stream = some checkpoint) :
    (tables.admitted stream).map AdmittedEvent.offset = List.range' 1 checkpoint.committedOffset := by
  rw [Gapless, stored] at gapless
  obtain ⟨_, rows, offsets⟩ := gapless
  rw [rows, map_map]
  exact offsets

theorem gapless_reset (stream other : String) (gapless : Gapless digests tables other) :
    Gapless digests (tables.reset stream) other := by
  by_cases same : other = stream
  · rw [same, Gapless, Tables.reset]
    simp only [update_self, and_self]
  · exact gapless.congr (update_of_ne same _ _) (update_of_ne same _ _)
      (update_of_ne same _ _)

theorem sound_putBinding (sound : Sound digests tables)
    (put : tables.putBinding binding = .ok after) : Sound digests after := by
  have bound : Sound digests (tables.bind binding) := sound
  have reset : Sound digests ((tables.bind binding).reset binding.streamId) :=
    ⟨fun stream => gapless_reset binding.streamId stream (bound.1 stream), bound.2⟩
  rw [Tables.putBinding] at put
  split at put
  · cases put
    exact bound
  · split at put
    · cases put
    split at put
    · cases put
      exact reset
    · cases put
      exact bound

theorem sound_ensure (sound : Sound digests tables) (valid : Valid batch)
    (ensured : tables.ensure digests batch = .ok after) : Sound digests after := by
  rw [Tables.ensure] at ensured
  split at ensured
  · cases ensured
  rename_i checkpoint stored
  split at ensured
  · rename_i matching
    have covered : batch.offsetEnd ≤ checkpoint.committedOffset := by
      simp only [replayCheckpointMatchesBatch, decide_eq_true_eq] at matching
      exact matching.2.2.2.2
    have present : ∀ event ∈ batch.events,
        event.offset ∈ (tables.admitted batch.streamId).map AdmittedEvent.offset := by
      intro event member
      have inside : event.offset ∈ batch.events.map StreamEvent.offset := mem_map_of_mem member
      rw [valid.offsets, mem_range'_1] at inside
      rw [(sound.1 batch.streamId).offsets stored, mem_range'_1]
      have positive := valid.positive
      omega
    cases ensured
    rw [persist_of_present present, update_eq_self]
    exact sound
  · cases ensured

/-- A batch that follows the stored checkpoint, or begins a stream without one, is accepted in order. -/
theorem gapless_accept {read : Option EventStreamCheckpoint}
    (gapless : ∀ stream, Gapless digests tables stream) (valid : Valid batch) (follows : Follows batch expected)
    (stored : tables.checkpoints batch.streamId = none ∧ expected.committedOffset = 0 ∨
      tables.checkpoints batch.streamId = some expected ∧ 0 < expected.committedOffset) :
    Gapless digests (tables.accept digests batch digest read) stream := by
  by_cases same : stream = batch.streamId
  · subst same
    have earlier : (∀ old ∈ tables.accepted batch.streamId,
          old.generation = batch.generation ∧ old.feedEpoch = batch.feedEpoch) ∧
        tables.admitted batch.streamId = ((tables.accepted batch.streamId).flatMap EventStreamBatch.events).map
          (admittedRow digests batch.generation batch.feedEpoch) ∧
        ((tables.accepted batch.streamId).flatMap EventStreamBatch.events).map StreamEvent.offset =
          List.range' 1 expected.committedOffset := by
      have before := gapless batch.streamId
      rw [Gapless] at before
      rcases stored with ⟨missing, zero⟩ | ⟨found, positive⟩
      · rw [missing] at before
        rw [before.1, before.2, zero]
        exact ⟨fun old member => absurd member not_mem_nil, rfl, rfl⟩
      · rw [found] at before
        dsimp only at before
        rwa [follows.generation positive, follows.feedEpoch positive] at before
    obtain ⟨ofOne, rows, offsets⟩ := earlier
    have joined : List.range' 1 expected.committedOffset ++
        List.range' batch.offsetStart (batch.offsetEnd + 1 - batch.offsetStart) = List.range' 1 batch.offsetEnd := by
      have ordered := valid.ordered
      have next := follows.next
      have start : batch.offsetStart = 1 + expected.committedOffset := by omega
      have length : batch.offsetEnd = expected.committedOffset + (batch.offsetEnd + 1 - batch.offsetStart) := by omega
      conv_rhs => rw [length]
      rw [← range'_append_1, start]
    have rowOffsets : (tables.admitted batch.streamId).map AdmittedEvent.offset =
        List.range' 1 expected.committedOffset := by
      rw [rows, map_map]
      exact offsets
    have distinct : ((tables.admitted batch.streamId).map AdmittedEvent.offset ++
        batch.events.map StreamEvent.offset).Nodup := by
      rw [rowOffsets, valid.offsets, joined]
      exact nodup_range'
    rw [Gapless, Tables.accept]
    simp only [update_self]
    refine ⟨?_, ?_, ?_⟩
    · intro old member
      rcases mem_appended.mp member with before | rfl
      · exact ofOne old before
      · exact ⟨rfl, rfl⟩
    · rw [persist_of_new distinct, flatMap_append, map_append, flatMap_singleton, rows]
      rfl
    · rw [flatMap_append, map_append, flatMap_singleton, offsets, valid.offsets, joined]
      rfl
  · exact (gapless stream).congr (update_of_ne same _ _) (update_of_ne same _ _)
      (update_of_ne same _ _)

end SekaiChisei.EventStream
