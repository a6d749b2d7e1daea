import Mathlib.Data.List.Nodup
import Mathlib.Data.List.Perm.Basic
import SekaiChisei.Lib.Fallible

/-!
A queue that is emptied in batches into a log. A batch takes the oldest item of each key. An item leaves the queue by
a batch, or by its owner, who takes it back.
-/

namespace SekaiChisei.Lib
open List

/-- `owed` are the items of a batch that are not yet answered, each with the pass that took it; `hand`
are those that are still to be appended. -/
structure Lane (Item : Type) where
  (enqueued queue hand : List Item)
  log : List (List Item)
  (owed drained completed : List (Nat × Item))
  withdrawn : List Item

namespace Lane
variable {Item Key : Type} [DecidableEq Key]

def empty : Lane Item := ⟨[], [], [], [], [], [], [], []⟩

def split (key : Item → Key) : List Key → List Item → List Item × List Item
  | _, [] => ([], [])
  | seen, item :: rest =>
    if key item ∈ seen then ((split key seen rest).1, item :: (split key seen rest).2)
    else (item :: (split key (key item :: seen) rest).1, (split key (key item :: seen) rest).2)

variable {key : Item → Key} {seen : List Key} {k : Key}

def ofKey (key : Item → Key) (k : Key) (items : List Item) : List Item :=
  items.filter (key · = k)

theorem ofKey_append (items more : List Item) : ofKey key k (items ++ more) = ofKey key k items ++ ofKey key k more :=
  filter_append items more

theorem split_seen (key : Item → Key) (queue : List Item) (old : k ∈ seen) :
    ofKey key k (split key seen queue).1 = [] ∧ ofKey key k (split key seen queue).2 = ofKey key k queue := by
  induction queue generalizing seen with
  | nil => simp [split, ofKey]
  | cons item rest ih =>
    by_cases known : key item ∈ seen
    · have tail := ih old
      simp only [split, known, if_true, ofKey, filter_cons] at tail ⊢
      refine ⟨tail.1, ?_⟩
      rw [tail.2]
    · have tail := ih (mem_cons_of_mem (key item) old)
      have other : key item ≠ k := by
        rintro rfl
        exact known old
      simp only [split, known, if_false, ofKey, filter_cons, other] at tail ⊢
      exact tail

section
variable (key) (seen) (queue : List Item)
include queue

/-- Of every key the batch has the oldest items, so that the order of the queue is kept. -/
theorem split_order (k : Key) :
    ofKey key k (split key seen queue).1 ++ ofKey key k (split key seen queue).2 = ofKey key k queue := by
  induction queue generalizing seen with
  | nil => simp [split, ofKey]
  | cons item rest ih =>
    by_cases known : key item ∈ seen
    · by_cases same : key item = k
      · have tail := split_seen key rest (same ▸ known)
        simp only [split, known, if_true]
        rw [tail.1, ofKey, filter_cons, ofKey, filter_cons, same]
        simpa [ofKey] using tail.2
      · have tail := ih seen
        simp only [split, known, if_true, ofKey, filter_cons, same] at tail ⊢
        exact tail
    · have tail := ih (key item :: seen)
      simp only [split, known, if_false, ofKey, filter_cons] at tail ⊢
      by_cases same : key item = k
      · simp only [same, decide_true, if_true, cons_append, cons.injEq, true_and] at tail ⊢
        exact tail
      · simp only [same] at tail ⊢
        exact tail

theorem split_perm : ((split key seen queue).1 ++ (split key seen queue).2).Perm queue := by
  induction queue generalizing seen with
  | nil => exact .refl _
  | cons item rest ih =>
    by_cases known : key item ∈ seen
    · simp only [split, known]
      exact perm_middle.trans ((ih seen).cons item)
    · simp only [split, known]
      exact (ih (key item :: seen)).cons item

theorem split_keys : ((split key seen queue).1.map key).Nodup ∧ ∀ item ∈ (split key seen queue).1, key item ∉ seen := by
  induction queue generalizing seen with
  | nil => simp [split]
  | cons item rest ih =>
    by_cases known : key item ∈ seen
    · simp only [split, known]
      exact ih seen
    · have later := ih (key item :: seen)
      simp only [mem_cons] at later
      simp only [split, known]
      exact nodup_keys_cons (P := (· ∈ seen)) known later

end

variable {lane next : Lane Item}

structure Sound (key : Item → Key) (lane : Lane Item) : Prop where
  unique : lane.enqueued.Nodup
  ordered : ∀ k, (ofKey key k (lane.log.flatten ++ lane.hand ++ lane.queue)).Sublist (ofKey key k lane.enqueued)
  batches : ∀ batch ∈ lane.log, (batch.map key).Nodup
  held : (lane.hand.map key).Nodup
  answered : lane.completed ++ lane.owed = lane.drained
  apart : (lane.drained.map Prod.snd ++ lane.queue ++ lane.withdrawn).Nodup
  known : ∀ item ∈ lane.drained.map Prod.snd ++ lane.queue ++ lane.withdrawn, item ∈ lane.enqueued
  taken : ∀ item ∈ lane.log.flatten ++ lane.hand, item ∈ lane.drained.map Prod.snd

theorem sound_empty : (empty : Lane Item).Sound key := by
  constructor <;> simp [empty, ofKey]

theorem Sound.enqueue (sound : lane.Sound key) {item : Item} (fresh : item ∉ lane.enqueued) :
    Sound key { lane with enqueued := lane.enqueued ++ [item], queue := lane.queue ++ [item] } := by
  have reordered : (lane.drained.map Prod.snd ++ (lane.queue ++ [item]) ++ lane.withdrawn).Perm
      (item :: (lane.drained.map Prod.snd ++ lane.queue ++ lane.withdrawn)) := by
    rw [← append_assoc, append_assoc _ [item], singleton_append]
    exact perm_middle
  refine { sound with unique := ?_, ordered := ?_, apart := ?_, known := ?_ }
  · rw [nodup_append_comm]
    exact nodup_cons.mpr ⟨fresh, sound.unique⟩
  · intro k
    have old := sound.ordered k
    simp only [← append_assoc, ofKey_append] at old ⊢
    exact old.append (List.Sublist.refl _)
  · refine reordered.nodup_iff.mpr (nodup_cons.mpr ⟨?_, sound.apart⟩)
    intro member
    exact fresh (sound.known item member)
  · intro other member
    rcases mem_cons.mp (reordered.mem_iff.mp member) with rfl | old
    · exact mem_append_right _ (mem_singleton_self other)
    · exact mem_append_left _ (sound.known other old)

theorem drained_perm (key : Item → Key) (lane : Lane Item) (pass : Nat) :
    ((lane.drained ++ (split key [] lane.queue).1.map (pass, ·)).map Prod.snd ++
      (split key [] lane.queue).2 ++ lane.withdrawn).Perm
    (lane.drained.map Prod.snd ++ lane.queue ++ lane.withdrawn) := by
  have batch : ((split key [] lane.queue).1.map fun item => (pass, item)).map Prod.snd =
      (split key [] lane.queue).1 := by
    rw [map_map]
    exact map_id _
  rw [map_append, batch, append_assoc (lane.drained.map Prod.snd)]
  exact ((split_perm key [] lane.queue).append_left _).append_right _

section
variable (sound : lane.Sound key)
include sound

theorem Sound.drain (pass : Nat) (free : lane.hand = []) (answered : lane.owed = []) : Sound key { lane with
      queue := (split key [] lane.queue).2
      hand := (split key [] lane.queue).1
      owed := (split key [] lane.queue).1.map (pass, ·)
      drained := lane.drained ++ (split key [] lane.queue).1.map (pass, ·) } := by
  have reordered := drained_perm key lane pass
  refine { sound with
    ordered := ?_, held := (split_keys key [] lane.queue).1, answered := ?_,
    apart := reordered.nodup_iff.mpr sound.apart, known := ?_, taken := ?_ }
  · intro k
    have old := sound.ordered k
    rw [free, append_nil, ofKey_append, ← split_order key [] lane.queue k] at old
    rw [ofKey_append, ofKey_append, append_assoc]
    exact old
  · have before := sound.answered
    rw [answered, append_nil] at before
    rw [before]
  · intro item member
    exact sound.known item (reordered.mem_iff.mp member)
  · intro item member
    rw [map_append, mem_append]
    rcases mem_append.mp member with logged | inBatch
    · exact .inl (sound.taken item (mem_append_left _ logged))
    · refine .inr (mem_map.mpr ⟨(pass, item), mem_map_of_mem inBatch, rfl⟩)

variable {batch rest : List Item}

theorem Sound.append (held : lane.hand = batch ++ rest) :
    Sound key { lane with hand := rest, log := lane.log ++ [batch] } := by
  have sameItems : (lane.log ++ [batch]).flatten ++ rest = lane.log.flatten ++ lane.hand := by
    rw [held, flatten_append, flatten_singleton, append_assoc]
  have keys := sound.held
  rw [held, map_append, nodup_append] at keys
  refine { sound with ordered := ?_, batches := ?_, held := keys.2.1, taken := ?_ }
  · intro k
    rw [sameItems]
    exact sound.ordered k
  · intro other member
    rcases mem_append.mp member with old | last
    · exact sound.batches other old
    · rw [mem_singleton.mp last]
      exact keys.1
  · rw [sameItems]
    exact sound.taken

theorem Sound.drop (held : lane.hand = batch ++ rest) : Sound key { lane with hand := rest } := by
  have fewer : (lane.log.flatten ++ rest).Sublist (lane.log.flatten ++ lane.hand) := by
    rw [held]
    exact (sublist_append_right batch rest).append_left _
  have keys := sound.held
  rw [held, map_append, nodup_append] at keys
  refine { sound with ordered := ?_, held := keys.2.1, taken := ?_ }
  · intro k
    exact ((fewer.append_right lane.queue).filter _).trans (sound.ordered k)
  · intro item member
    exact sound.taken item (fewer.subset member)

theorem Sound.complete {answer : Nat × Item} {rest : List (Nat × Item)} (owing : lane.owed = answer :: rest) :
    Sound key { lane with owed := rest, completed := lane.completed ++ [answer] } := by
  refine { sound with answered := ?_ }
  rw [append_assoc, singleton_append, ← owing]
  exact sound.answered

theorem Sound.withdraw [DecidableEq Item] {item : Item} (queued : item ∈ lane.queue) : Sound key { lane with
      queue := lane.queue.filter (· ≠ item), withdrawn := lane.withdrawn ++ [item] } := by
  have queueUnique : lane.queue.Nodup := (nodup_append.mp (nodup_append.mp sound.apart).1).2.1
  have removed : (lane.queue.filter (· ≠ item) ++ [item]).Perm lane.queue := by
    have erased : lane.queue.filter (· ≠ item) = lane.queue.erase item := by
      rw [queueUnique.erase_eq_filter]
      refine filter_congr ?_
      intro other _
      by_cases same : other = item <;> simp [same]
    rw [erased]
    exact (perm_append_singleton item _).trans (perm_cons_erase queued).symm
  have reordered : (lane.drained.map Prod.snd ++ lane.queue.filter (· ≠ item) ++ (lane.withdrawn ++ [item])).Perm
      (lane.drained.map Prod.snd ++ lane.queue ++ lane.withdrawn) := by
    have back : (lane.queue.filter (· ≠ item) ++ (lane.withdrawn ++ [item])).Perm (lane.queue ++ lane.withdrawn) := by
      refine ((perm_append_comm).append_left _).trans ?_
      rw [← append_assoc]
      exact removed.append_right _
    rw [append_assoc, append_assoc]
    exact back.append_left _
  refine { sound with ordered := ?_, apart := reordered.nodup_iff.mpr sound.apart, known := ?_ }
  · intro k
    refine List.Sublist.trans ?_ (sound.ordered k)
    exact (filter_sublist.append_left _).filter _
  · intro other member
    exact sound.known other (reordered.mem_iff.mp member)

theorem Sound.log_ordered (k : Key) : (ofKey key k lane.log.flatten).Sublist (ofKey key k lane.enqueued) := by
  refine List.Sublist.trans ?_ (sound.ordered k)
  rw [append_assoc]
  exact (sublist_append_left _ _).filter _

theorem Sound.log_unique [DecidableEq Item] : lane.log.flatten.Nodup := by
  rw [nodup_iff_count_le_one]
  intro item
  have ofItem : (ofKey key (key item) lane.log.flatten).Nodup :=
    (sound.unique.filter _).sublist (sound.log_ordered (key item))
  have single := nodup_iff_count_le_one.mp ofItem item
  rwa [ofKey, count_filter (by simp)] at single

theorem Sound.drained_unique : (lane.drained.map Prod.snd).Nodup :=
  (nodup_append.mp (nodup_append.mp sound.apart).1).1

theorem Sound.withdrawn_unlogged : ∀ item ∈ lane.withdrawn, item ∉ lane.log.flatten := by
  intro item back logged
  have drained := sound.taken item (mem_append_left _ logged)
  have apart := (nodup_append.mp sound.apart).2.2
  exact apart item (mem_append_left _ drained) item back rfl

end

inductive Move [DecidableEq Item] (key : Item → Key) : Lane Item → Lane Item → Prop where
  | enqueue (lane : Lane Item) (item : Item) (fresh : item ∉ lane.enqueued) :
      Move key lane { lane with enqueued := lane.enqueued ++ [item], queue := lane.queue ++ [item] }
  | drain (lane : Lane Item) (pass : Nat) (free : lane.hand = []) (answered : lane.owed = []) :
      Move key lane { lane with
        queue := (split key [] lane.queue).2
        hand := (split key [] lane.queue).1
        owed := (split key [] lane.queue).1.map (pass, ·)
        drained := lane.drained ++ (split key [] lane.queue).1.map (pass, ·) }
  | append (lane : Lane Item) (batch rest : List Item) (held : lane.hand = batch ++ rest) :
      Move key lane { lane with hand := rest, log := lane.log ++ [batch] }
  | drop (lane : Lane Item) (batch rest : List Item) (held : lane.hand = batch ++ rest) :
      Move key lane { lane with hand := rest }
  | complete (lane : Lane Item) (answer : Nat × Item) (rest : List (Nat × Item))
      (owing : lane.owed = answer :: rest) :
      Move key lane { lane with owed := rest, completed := lane.completed ++ [answer] }
  | withdraw (lane : Lane Item) (item : Item) (queued : item ∈ lane.queue) : Move key lane { lane with
        queue := lane.queue.filter (· ≠ item), withdrawn := lane.withdrawn ++ [item] }

theorem Sound.move [DecidableEq Item] (sound : lane.Sound key) (move : Move key lane next) : next.Sound key := by
  cases move with
  | enqueue item fresh => exact sound.enqueue fresh
  | drain pass free answered => exact sound.drain pass free answered
  | append batch rest held => exact sound.append held
  | drop batch rest held => exact sound.drop held
  | complete answer rest owing => exact sound.complete owing
  | withdraw item queued => exact sound.withdraw queued

theorem Move.history [DecidableEq Item] (move : Move key lane next) :
    lane.drained ⊆ next.drained ∧ lane.completed ⊆ next.completed := by
  cases move with
  | drain pass free answered => exact ⟨subset_append_left _ _, List.Subset.refl _⟩
  | complete answer rest owing => exact ⟨List.Subset.refl _, subset_append_left _ _⟩
  | _ => exact ⟨List.Subset.refl _, List.Subset.refl _⟩

end Lane

end SekaiChisei.Lib
