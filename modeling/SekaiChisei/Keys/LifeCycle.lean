import SekaiChisei.Keys.Envelope
import SekaiChisei.Lib.Trace

/-!
Over any run of a file provider, with saves that may fail, no envelope of a live key is lost, and nothing that was
revoked comes back.
-/

namespace SekaiChisei.Keys
open Lib List FileKeyProvider

inductive Action where
  | wrap (tenantId : TenantId) (purpose : KeyPurpose) (dek : Dek) (dekId : KeyId) (nonce : Nonce) (save : Save)
  | rewrap (wrapped : WrappedDek) (dek : Dek) (nonce : Nonce) (save : Save)
  | unwrap (wrapped : WrappedDek) (grant : UnwrapGrant) (engine : String) (now : Int) (save : Save)
  | rotateKek (newKek : Kek) (newId : KeyId) (before after : Save)
  | completeKekRotation (before after : Save)
  | revokeKek (before after : Save)
  | revokeDek (dekId : KeyId) (before after : Save)
  | reopen

/-- `issued` are the envelopes that were returned so far, each with the key that was wrapped. -/
structure World where
  provider : FileKeyProvider
  issued : List (WrappedDek × Dek)

def World.start (kekId : KeyId) (kek : Kek) : World :=
  ⟨⟨.new kekId kek, .new kekId kek, true⟩, []⟩

def World.issue (world : World) (dek : Dek) (result : FileKeyProvider × Except KeyError WrappedDek) : World :=
  match result.2 with
  | .ok wrapped => ⟨result.1, world.issued ++ [(wrapped, dek)]⟩
  | .error _ => ⟨result.1, world.issued⟩

def step (aead : Aead) (world : World) : Action → World
  | .wrap tenantId purpose dek dekId nonce save =>
    world.issue dek (world.provider.wrap aead tenantId purpose dek dekId nonce save)
  | .rewrap wrapped dek nonce save => world.issue dek (world.provider.rewrap aead wrapped dek nonce save)
  | .unwrap wrapped grant engine now save =>
    { world with provider := (world.provider.unwrap aead wrapped grant engine now save).1 }
  | .rotateKek newKek newId before after =>
    { world with provider := (world.provider.rotateKek newKek newId before after).1 }
  | .completeKekRotation before after =>
    { world with provider := (world.provider.completeKekRotation before after).1 }
  | .revokeKek before after => { world with provider := (world.provider.revokeKek before after).1 }
  | .revokeDek dekId before after =>
    { world with provider := (world.provider.revokeDek dekId before after).1 }
  | .reopen => { world with provider := world.provider.reopen }

def Action.drawn : Action → Option (KeyId × Kek)
  | .rotateKek newKek newId _ _ => some (newId, newKek)
  | _ => none

def drawnKeks (kekId : KeyId) (kek : Kek) (actions : List Action) : List (KeyId × Kek) :=
  (kekId, kek) :: actions.filterMap Action.drawn

/-- What a run of calls leaves usable: the KEKs, the current one first, and the data keys that were revoked. -/
structure Live where
  keks : List (KeyId × Kek)
  dekRevoked : List String

def Live.change (live : Live) : Action → Option Live
  | .rotateKek newKek newId _ _ =>
    match live.keks with
    | [current] => some { live with keks := [(newId, newKek), current] }
    | _ => none
  | .completeKekRotation _ _ =>
    match live.keks with
    | [current, _] => some { live with keks := [current] }
    | _ => none
  | .revokeKek _ _ => some { live with keks := [] }
  | .revokeDek dekId _ _ =>
    if dekId.value ∈ live.dekRevoked ∨ live.dekRevoked.length ≥ maxRevokedDeks then none
    else some { live with dekRevoked := dekId.value :: live.dekRevoked }
  | _ => none

structure Kept where
  (file memory : Live)
  durable : Bool

namespace Kept
variable (kept : Kept)

def save (live : Live) : Save → Kept
  | .saved => ⟨live, live, true⟩
  | .unsaved => ⟨kept.file, live, false⟩
  | .unsynced => ⟨live, live, false⟩

def ready (save : Save) : Kept := if kept.durable then kept else kept.save kept.memory save

-- a call that finds the last save undone makes it first, and does nothing when that fails
def call (action : Action) (before after : Save) : Kept :=
  if (kept.ready before).durable then
    match (kept.ready before).memory.change action with
    | some live => (kept.ready before).save live after
    | none => kept.ready before
  else kept.ready before

def next (action : Action) : Kept :=
  match action with
  | .wrap _ _ _ _ _ save | .rewrap _ _ _ save | .unwrap _ _ _ _ save => kept.ready save
  | .rotateKek _ _ before after | .completeKekRotation before after | .revokeKek before after
  | .revokeDek _ before after => kept.call action before after
  | .reopen => ⟨kept.file, kept.file, true⟩

end Kept

def ProviderState.live (state : ProviderState) : Live :=
  ⟨if state.kekRevoked then [] else (state.kekId, state.kek) :: state.previous.toList, state.dekRevoked⟩

def FileKeyProvider.kept (provider : FileKeyProvider) : Kept :=
  ⟨provider.disk.live, provider.state.live, provider.durable⟩

/-- Which keys are live after `n` calls, by the calls and by how their saves end alone. -/
def keptAt (kekId : KeyId) (kek : Kek) (actions : List Action) (n : Nat) : Kept :=
  Trace.after Kept.next ⟨⟨[(kekId, kek)], []⟩, ⟨[(kekId, kek)], []⟩, true⟩ actions n

def worldAt (aead : Aead) (kekId : KeyId) (kek : Kek) (actions : List Action) (n : Nat) : World :=
  Trace.after (step aead) (World.start kekId kek) actions n

variable {aead : Aead} {keks : List (KeyId × Kek)} {provider : FileKeyProvider} {α : Type} {state : ProviderState}
  {world : World} {save : Save} {kept : Kept} {live : Live} {action : Action}

theorem Kept.next_rule {Q : Kept → Prop} (ready : ∀ save, Q (kept.ready save))
    (changed : ∀ before after live, (kept.ready before).memory.change action = some live →
      Q ((kept.ready before).save live after))
    (reopened : Q ⟨kept.file, kept.file, true⟩) : Q (kept.next action) := by
  have called : ∀ before after, Q (kept.call action before after) := by
    intro before after
    unfold Kept.call
    split
    · split
      · rename_i change
        exact changed before after _ change
      · exact ready before
    · exact ready before
  cases action with
  | wrap | rewrap | unwrap => exact ready _
  | rotateKek | completeKekRotation | revokeKek | revokeDek => exact called _ _
  | reopen => exact reopened

section
variable {P : Live → Prop} (both : P kept.memory ∧ P kept.file)

theorem Kept.save_keeps (new : P live) (old : P kept.file) :
    P (kept.save live save).memory ∧ P (kept.save live save).file := by
  cases save with
  | unsaved => exact ⟨new, old⟩
  | _ => exact ⟨new, new⟩

include both

theorem Kept.ready_keeps (save : Save) : P (kept.ready save).memory ∧ P (kept.ready save).file := by
  unfold Kept.ready
  split
  · exact both
  · exact save_keeps both.1 both.2

/-- What every change keeps is kept by every call, in memory and in the file. -/
theorem Kept.next_keeps (keeps : ∀ {live later}, live.change action = some later → P live → P later) :
    P (kept.next action).memory ∧ P (kept.next action).file := by
  refine next_rule (Q := fun kept => P kept.memory ∧ P kept.file) (ready_keeps both) ?_ ⟨both.2, both.2⟩
  intro before after live change
  obtain ⟨memory, file⟩ := ready_keeps both before
  exact save_keeps (keeps change memory) file

end

def Kept.Consistent (kept : Kept) : Prop := kept.durable = true → kept.file = kept.memory

theorem Kept.save_consistent : (kept.save live save).Consistent := by
  cases save with
  | saved => exact fun _ => rfl
  | _ => exact nofun

theorem Kept.ready_consistent (consistent : kept.Consistent) : (kept.ready save).Consistent := by
  unfold Kept.ready
  split
  · exact consistent
  · exact save_consistent

theorem Kept.next_consistent (consistent : kept.Consistent) : (kept.next action).Consistent :=
  next_rule (fun _ => ready_consistent consistent) (fun _ _ _ _ => save_consistent) fun _ => rfl

variable {later : Live} {call : FileKeyProvider → FileKeyProvider × Except KeyError α} {before after : Save}

theorem Live.change_spec (change : live.change action = some later) :
    (∀ pair ∈ later.keks, pair ∈ action.drawn ∨ pair ∈ live.keks) ∧ (live.keks = [] → later.keks = []) ∧
      ∀ id ∈ live.dekRevoked, id ∈ later.dekRevoked := by
  obtain ⟨own, revoked⟩ := live
  cases action with
  | rotateKek newKek newId before after =>
    match own, change with
    | [current], rfl => exact ⟨forall_mem_cons.mpr ⟨.inl rfl, fun _ => .inr⟩, nofun, fun _ => id⟩
  | completeKekRotation before after =>
    match own, change with
    | [current, previous], rfl =>
      exact ⟨forall_mem_singleton.mpr (.inr mem_cons_self), nofun, fun _ => id⟩
  | revokeKek before after =>
    cases change
    exact ⟨fun _ none => absurd none not_mem_nil, fun _ => rfl, fun _ => id⟩
  | revokeDek dekId before after =>
    obtain ⟨_, ⟨⟩⟩ := Option.ite_none_left_eq_some.mp change
    exact ⟨fun _ => .inr, id, fun _ => mem_cons_of_mem _⟩
  | _ => cases change

theorem ensureDurable_state : (provider.ensureDurable save).1.state = provider.state := by
  unfold ensureDurable
  split
  · rfl
  · cases save <;> rfl

theorem ensureDurable_kept : (provider.ensureDurable save).1.kept = provider.kept.ready save := by
  obtain ⟨disk, state, durable⟩ := provider
  cases durable
  · cases save <;> rfl
  · rfl

theorem durably_eq (call : FileKeyProvider → FileKeyProvider × Except KeyError α) : provider.durably save call =
    if (provider.ensureDurable save).1.durable then call (provider.ensureDurable save).1
    else ((provider.ensureDurable save).1, .error .wrapFailed) := by
  obtain ⟨disk, state, durable⟩ := provider
  cases durable
  · cases save <;> rfl
  · rfl

theorem durably_kept (call : FileKeyProvider → Except KeyError α) :
    (provider.durably save fun ready => (ready, call ready)).1.kept = provider.kept.ready save := by
  rw [durably_eq, ← ensureDurable_kept]
  split <;> rfl

/-- A call that changes the state, as the calls do: the change is of the state that is ready, and it is saved. -/
theorem durably_call (one : ∀ ready : FileKeyProvider, (call ready).1.kept = match ready.state.live.change action with
      | some live => ready.kept.save live after | none => ready.kept) :
    (provider.durably before call).1.kept = provider.kept.call action before after := by
  rw [durably_eq, Kept.call, ← ensureDurable_kept]
  by_cases durable : (provider.ensureDurable before).1.durable = true
  · rw [if_pos durable, one]
    exact (if_pos durable).symm
  · rw [if_neg durable]
    exact (if_neg durable).symm

theorem install_kept (value : α) :
    (provider.install state value save).1.kept = provider.kept.save state.live save := by
  cases save <;> rfl

theorem revokeDek_kept (dekId : KeyId) (before after : Save) : (provider.revokeDek dekId before after).1.kept =
      provider.kept.call (.revokeDek dekId before after) before after := by
  refine durably_call ?_
  intro ready
  dsimp only [Live.change, ProviderState.live]
  unfold ProviderState.revokeDek
  by_cases known : dekId.value ∈ ready.state.dekRevoked
  · rw [if_pos known, if_pos (.inl known)]
  · rw [if_neg known]
    by_cases full : ready.state.dekRevoked.length ≥ maxRevokedDeks
    · rw [if_pos full, if_pos (.inr full)]
    · rw [if_neg full, if_neg (not_or.mpr ⟨known, full⟩)]
      exact install_kept ()

theorem World.issue_provider {dek : Dek} (result : FileKeyProvider × Except KeyError WrappedDek) :
    (world.issue dek result).provider = result.1 := by
  unfold World.issue
  split <;> rfl

theorem step_kept (aead : Aead) (world : World) (action : Action) :
    (step aead world action).provider.kept = world.provider.kept.next action := by
  cases action with
  | wrap tenantId purpose dek dekId nonce save | rewrap wrapped dek nonce save =>
    rw [step, World.issue_provider]
    exact durably_kept _
  | unwrap wrapped grant engine now save => exact durably_kept _
  | rotateKek newKek newId before after | completeKekRotation before after =>
    refine durably_call ?_
    rintro ⟨disk, ⟨kekId, kek, previous, dekRevoked, kekRevoked⟩, durable⟩
    cases kekRevoked <;> cases previous <;> cases after <;> rfl
  | revokeKek before after =>
    change (world.provider.revokeKek before after).1.kept = world.provider.kept.call (.revokeKek before after) _ _
    exact durably_call fun ready => install_kept ()
  | revokeDek dekId before after => exact revokeDek_kept dekId before after
  | reopen => rfl

theorem kept_worldAt (aead : Aead) (kekId : KeyId) (kek : Kek) (actions : List Action) (n : Nat) :
    (worldAt aead kekId kek actions n).provider.kept = keptAt kekId kek actions n :=
  (foldl_hom (fun world : World => world.provider.kept) (fun world action => (step_kept aead world action).symm)).symm

theorem durably_eq_ok {value : α} (done : (provider.durably save call).2 = .ok value) :
    ∃ ready : FileKeyProvider, ready.state = provider.state ∧ ready.durable = true ∧
      ready.kept = provider.kept.ready save ∧ provider.durably save call = call ready := by
  rw [durably_eq] at done ⊢
  split at done
  · rename_i durable
    exact ⟨_, ensureDurable_state, durable, ensureDurable_kept, if_pos durable⟩
  · cases done

theorem durably_read (read : ProviderState → Except KeyError α) {value : α}
    (done : (provider.durably save fun ready => (ready, read ready.state)).2 = .ok value) :
    read provider.state = .ok value := by
  obtain ⟨ready, same, _, _, run⟩ := durably_eq_ok done
  rw [run] at done
  rwa [← same]

def SealedUnder (aead : Aead) (keks : List (KeyId × Kek)) (entry : WrappedDek × Dek) : Prop :=
  ∃ kek nonce, (entry.1.kekId, kek) ∈ keks ∧ entry.1.ciphertext =
      sealedDek aead kek entry.2 entry.1.tenantId entry.1.purpose entry.1.dekId nonce

structure World.Inv (aead : Aead) (keks : List (KeyId × Kek)) (world : World) : Prop where
  consistent : world.provider.kept.Consistent
  known : (∀ pair ∈ world.provider.kept.memory.keks, pair ∈ keks) ∧
    ∀ pair ∈ world.provider.kept.file.keks, pair ∈ keks
  sealedUnder : ∀ entry ∈ world.issued, SealedUnder aead keks entry

variable {wrapped : WrappedDek} {dekId : KeyId} {dek : Dek} {nonce : Nonce}

theorem wrapWithId_sealedUnder (ideal : aead.Ideal) (known : ∀ pair ∈ state.live.keks, pair ∈ keks)
    {tenantId : TenantId} {purpose : KeyPurpose}
    (made : state.wrapWithId aead tenantId purpose dek dekId nonce = .ok wrapped) :
    SealedUnder aead keks (wrapped, dek) := by
  obtain ⟨live, rfl⟩ := wrapWithId_eq_ok ideal made
  exact ⟨state.kek, nonce, known _ (by simp [ProviderState.live, live]), rfl⟩

theorem World.issue_sealed {result : FileKeyProvider × Except KeyError WrappedDek}
    (old : ∀ entry ∈ world.issued, SealedUnder aead keks entry)
    (new : ∀ wrapped, result.2 = .ok wrapped → SealedUnder aead keks (wrapped, dek)) :
    ∀ entry ∈ (world.issue dek result).issued, SealedUnder aead keks entry := by
  unfold World.issue
  split
  · rename_i wrapped made
    intro entry member
    rcases mem_appended.mp member with before | rfl
    · exact old entry before
    · exact new wrapped made
  · exact old

theorem step_inv (ideal : aead.Ideal) (drawn : ∀ pair ∈ action.drawn, pair ∈ keks)
    (inv : world.Inv aead keks) : (step aead world action).Inv aead keks := by
  have kept := step_kept aead world action
  refine ⟨?_, ?_, ?_⟩
  · rw [kept]
    exact Kept.next_consistent inv.consistent
  · rw [kept]
    refine Kept.next_keeps (P := fun live => ∀ pair ∈ live.keks, pair ∈ keks) inv.known ?_
    intro live later change known pair member
    exact ((Live.change_spec change).1 pair member).elim (drawn pair) (known pair)
  cases action with
  | wrap tenantId purpose dek dekId nonce save =>
    refine World.issue_sealed inv.sealedUnder ?_
    intro wrapped made
    have made := durably_read (·.wrap aead tenantId purpose dek dekId nonce) made
    exact wrapWithId_sealedUnder ideal inv.known.1 made
  | rewrap envelope dek nonce save =>
    refine World.issue_sealed inv.sealedUnder ?_
    intro wrapped made
    have made := durably_read (·.rewrap aead envelope dek nonce) made
    exact wrapWithId_sealedUnder ideal inv.known.1 (rewrap_eq_ok made).2.2
  | _ => exact inv.sealedUnder

def IsError (result : Except KeyError α) : Prop := ∃ error, result = .error error

theorem isError_of {result : Except KeyError α} (never : ∀ value, result ≠ .ok value) : IsError result := by
  cases result with
  | ok value => exact absurd rfl (never value)
  | error error => exact ⟨error, rfl⟩

variable {kekId : KeyId}

theorem kekFor_mem (alive : state.kekRevoked = false) {kek : Kek} (found : state.kekFor kekId = .ok kek) :
    (kekId, kek) ∈ state.live.keks := by
  rcases kekFor_eq_ok found with current | previous
  · simp [ProviderState.live, alive, current]
  · simp [ProviderState.live, alive, previous]

theorem kekFor_of_mem {kek : Kek} (member : (kekId, kek) ∈ state.live.keks) :
    state.kekRevoked = false ∧ ∃ kek, state.kekFor kekId = .ok kek := by
  cases revoked : state.kekRevoked with
  | true => simp [ProviderState.live, revoked] at member
  | false =>
    refine ⟨rfl, ?_⟩
    unfold ProviderState.kekFor
    by_cases current : state.kekId = kekId
    · exact ⟨state.kek, if_pos current⟩
    · refine ⟨kek, ?_⟩
      simp only [ProviderState.live, revoked, Bool.false_eq_true, if_false, mem_cons, Option.mem_toList] at member
      rcases member with same | previous
      · exact absurd (Prod.mk.inj same).1.symm current
      · rw [if_neg current, previous]
        exact if_pos rfl

structure Dead (aead : Aead) (provider : FileKeyProvider) : Prop where
  wrap : ∀ tenantId purpose dek dekId nonce save, IsError (provider.wrap aead tenantId purpose dek dekId nonce save).2
  rewrap : ∀ wrapped dek nonce save, IsError (provider.rewrap aead wrapped dek nonce save).2
  unwrap : ∀ wrapped grant engine now save, IsError (provider.unwrap aead wrapped grant engine now save).2
  rotateKek : ∀ newKek newId before after, IsError (provider.rotateKek newKek newId before after).2
  completeKekRotation : ∀ before after, IsError (provider.completeKekRotation before after).2

structure Gone (aead : Aead) (provider : FileKeyProvider) (dekId : KeyId) : Prop where
  unwrap : ∀ wrapped, wrapped.dekId = dekId → ∀ grant engine now save,
    IsError (provider.unwrap aead wrapped grant engine now save).2
  rewrap : ∀ wrapped, wrapped.dekId = dekId → ∀ dek nonce save,
    IsError (provider.rewrap aead wrapped dek nonce save).2

/-- What a provider answers when these keys are live: the envelopes of its keys open, all others are refused, and no
envelope opens under other metadata than it was issued with. -/
structure Serves (aead : Aead) (kept : Kept) (world : World) : Prop where
  opens : ∀ entry ∈ world.issued, ∀ kek, (entry.1.kekId, kek) ∈ kept.memory.keks →
    entry.1.dekId.value ∉ kept.memory.dekRevoked → ∀ grant engine now save,
    grant.tenantId = entry.1.tenantId → grant.purpose = entry.1.purpose → now < grant.expiresUnixSecs →
    kept.durable = true ∨ save = .saved →
    (world.provider.unwrap aead entry.1 grant engine now save).2 =
      .ok ⟨entry.2, ⟨entry.1.tenantId, engine, entry.1.purpose, entry.1.dekId⟩⟩
  refuses : ∀ wrapped, (∀ kek, (wrapped.kekId, kek) ∉ kept.memory.keks) →
    (∀ grant engine now save, IsError (world.provider.unwrap aead wrapped grant engine now save).2) ∧
      ∀ dek nonce save, IsError (world.provider.rewrap aead wrapped dek nonce save).2
  bound : ∀ entry ∈ world.issued, ∀ wrapped, wrapped.ciphertext = entry.1.ciphertext →
    ∀ grant engine now save outcome,
    (world.provider.unwrap aead wrapped grant engine now save).2 = .ok outcome →
      wrapped = entry.1 ∧ outcome.dek = entry.2
  dead : kept.memory.keks = [] → Dead aead world.provider
  gone : ∀ dekId : KeyId, dekId.value ∈ kept.memory.dekRevoked → Gone aead world.provider dekId

theorem unwrap_state {grant : UnwrapGrant} {engine : String} {now : Int}
    {outcome : UnwrapOutcome} (opened : (provider.unwrap aead wrapped grant engine now save).2 = .ok outcome) :
    provider.state.unwrap aead wrapped grant engine now = .ok outcome :=
  durably_read (·.unwrap aead wrapped grant engine now) opened

theorem rewrap_state {next : WrappedDek} (made : (provider.rewrap aead wrapped dek nonce save).2 = .ok next) :
    provider.state.rewrap aead wrapped dek nonce = .ok next :=
  durably_read (·.rewrap aead wrapped dek nonce) made

theorem durably_ready (fine : provider.durable = true ∨ save = .saved) (read : ProviderState → Except KeyError α) :
    (provider.durably save fun ready => (ready, read ready.state)).2 = read provider.state := by
  unfold durably ensureDurable
  by_cases durable : provider.durable = true
  · rw [if_pos durable]
  · rw [if_neg durable]
    rcases fine with already | rfl
    · exact absurd already durable
    · rfl

theorem kekRevoked_of_keks_nil (none : state.live.keks = []) : state.kekRevoked = true := by
  cases revoked : state.kekRevoked with
  | true => rfl
  | false => simp [ProviderState.live, revoked] at none

theorem dead_of_kekRevoked (ideal : aead.Ideal) (revoked : provider.state.kekRevoked = true) :
    Dead aead provider where
  wrap := by
    intro tenantId purpose dek dekId nonce save
    refine isError_of ?_
    intro wrapped made
    have made := durably_read (·.wrap aead tenantId purpose dek dekId nonce) made
    have live := (wrapWithId_eq_ok ideal made).1
    rw [revoked] at live
    cases live
  rewrap := by
    intro wrapped dek nonce save
    refine isError_of ?_
    intro next made
    have live := (wrapWithId_eq_ok ideal (rewrap_eq_ok (rewrap_state made)).2.2).1
    rw [revoked] at live
    cases live
  unwrap := by
    intro wrapped grant engine now save
    refine isError_of ?_
    intro outcome opened
    have live := (unwrap_eq_ok.mp (unwrap_state opened)).1
    rw [revoked] at live
    cases live
  rotateKek := by
    intro newKek newId before after
    refine isError_of ?_
    intro value done
    unfold rotateKek at done
    obtain ⟨ready, same, _, _, run⟩ := durably_eq_ok done
    rw [run, same, ProviderState.rotateKek, if_pos revoked] at done
    cases done
  completeKekRotation := by
    intro before after
    refine isError_of ?_
    intro value done
    unfold completeKekRotation at done
    obtain ⟨ready, same, _, _, run⟩ := durably_eq_ok done
    rw [run, same, ProviderState.completeKekRotation, if_pos revoked] at done
    cases done

theorem gone_of_dekRevoked (revoked : dekId.value ∈ provider.state.dekRevoked) : Gone aead provider dekId where
  unwrap := by
    rintro wrapped rfl grant engine now save
    refine isError_of ?_
    intro outcome opened
    exact (unwrap_eq_ok.mp (unwrap_state opened)).2.1 revoked
  rewrap := by
    rintro wrapped rfl dek nonce save
    refine isError_of ?_
    intro next made
    exact (rewrap_eq_ok (rewrap_state made)).1 revoked

theorem World.Inv.serves (ideal : aead.Ideal) (uniqueIds : (keks.map Prod.fst).Nodup)
    (uniqueKeks : (keks.map Prod.snd).Nodup) (inv : world.Inv aead keks) : Serves aead world.provider.kept world where
  opens := by
    intro entry member own holds unrevoked grant engine now save tenant purpose early fine
    obtain ⟨kek, nonce, drawn, sealedAs⟩ := inv.sealedUnder entry member
    obtain ⟨live, found, lookup⟩ := kekFor_of_mem holds
    obtain rfl : found = kek :=
      (Prod.mk.inj (inj_on_of_nodup_map uniqueIds (inv.known.1 _ (kekFor_mem live lookup)) drawn rfl)).2
    refine (durably_ready fine (·.unwrap aead entry.1 grant engine now)).trans ?_
    refine unwrap_eq_ok.mpr ⟨live, unrevoked, early, tenant.symm, purpose.symm, found, lookup, entry.2, ?_, rfl⟩
    rw [sealedAs]
    exact unwrapDek_sealed ideal
  refuses := by
    intro wrapped unknown
    constructor
    · intro grant engine now save
      refine isError_of ?_
      intro outcome opened
      obtain ⟨live, _, _, _, _, kek, found, _⟩ := unwrap_eq_ok.mp (unwrap_state opened)
      exact unknown kek (kekFor_mem live found)
    · intro dek nonce save
      refine isError_of ?_
      intro next made
      obtain ⟨_, ⟨kek, found⟩, sealed⟩ := rewrap_eq_ok (rewrap_state made)
      exact unknown kek (kekFor_mem (wrapWithId_eq_ok ideal sealed).1 found)
  bound := by
    intro entry member wrapped sameText grant engine now save outcome opened
    obtain ⟨kek, nonce, drawn, sealedAs⟩ := inv.sealedUnder entry member
    obtain ⟨live, _, _, _, _, found, lookup, dek, plain, rfl⟩ := unwrap_eq_ok.mp (unwrap_state opened)
    rw [sameText, sealedAs] at plain
    obtain ⟨sameKek, sameTenant, samePurpose, sameDekId, sameDek⟩ := unwrapDek_bound ideal plain
    have lookedUp := inv.known.1 _ (kekFor_mem live lookup)
    rw [sameKek] at lookedUp
    have sameKekId : wrapped.kekId = entry.1.kekId :=
      (Prod.mk.inj (inj_on_of_nodup_map uniqueKeks lookedUp drawn rfl)).1
    refine ⟨?_, sameDek⟩
    cases wrapped
    cases entry with
    | mk issued dek =>
      cases issued
      simp only at sameText sameTenant samePurpose sameDekId sameKekId
      simp only [sameText, sameTenant, samePurpose, sameDekId, sameKekId]
  dead := fun none => dead_of_kekRevoked ideal (kekRevoked_of_keks_nil none)
  gone := fun _ revoked => gone_of_dekRevoked revoked

theorem install_eq_ok {value result : α} (done : (provider.install state value save).2 = .ok result) :
    (provider.install state value save).1 = ⟨state, state, true⟩ := by
  cases save with
  | saved => rfl
  | unsaved => cases done
  | unsynced => cases done

theorem revokeKek_eq_ok (done : (provider.revokeKek before after).2 = .ok ()) :
    (provider.revokeKek before after).1.kept.memory.keks = [] ∧
      (provider.revokeKek before after).1.kept.file.keks = [] := by
  unfold revokeKek at done ⊢
  obtain ⟨ready, _, _, _, run⟩ := durably_eq_ok done
  rw [run] at done ⊢
  rw [install_eq_ok done]
  exact ⟨rfl, rfl⟩

theorem revokeDek_eq_ok (consistent : provider.kept.Consistent)
    (done : (provider.revokeDek dekId before after).2 = .ok ()) :
    dekId.value ∈ (provider.revokeDek dekId before after).1.kept.memory.dekRevoked ∧
      dekId.value ∈ (provider.revokeDek dekId before after).1.kept.file.dekRevoked := by
  unfold revokeDek at done ⊢
  obtain ⟨ready, same, durable, kept, run⟩ := durably_eq_ok done
  rw [run] at done ⊢
  unfold ProviderState.revokeDek at done ⊢
  by_cases known : dekId.value ∈ ready.state.dekRevoked
  · -- nothing is saved here: the file has it since the state is durable
    rw [if_pos known] at done ⊢
    have ready_consistent : ready.kept.Consistent := kept ▸ Kept.ready_consistent consistent
    refine ⟨known, ?_⟩
    change dekId.value ∈ ready.kept.file.dekRevoked
    rw [ready_consistent durable]
    exact known
  · rw [if_neg known] at done ⊢
    by_cases full : ready.state.dekRevoked.length ≥ maxRevokedDeks
    · rw [if_pos full] at done
      cases done
    · rw [if_neg full] at done ⊢
      rw [install_eq_ok done]
      exact ⟨mem_cons_self, mem_cons_self⟩

section
variable (ideal : aead.Ideal) (kekId : KeyId) (kek : Kek) (actions : List Action)

include ideal in
theorem run_inv (n : Nat) : (worldAt aead kekId kek actions n).Inv aead (drawnKeks kekId kek actions) := by
  refine Trace.always ?_ ?_ n
  · have known : ∀ pair ∈ [(kekId, kek)], pair ∈ drawnKeks kekId kek actions :=
      forall_mem_singleton.mpr mem_cons_self
    refine ⟨fun _ => rfl, ⟨known, known⟩, ?_⟩
    intro entry none
    cases none
  · intro k action atK before
    refine step_inv ideal ?_ before
    intro pair drawn
    exact mem_cons_of_mem _ (mem_filterMap.mpr ⟨action, mem_of_getElem? atK, drawn⟩)

/-- What every change keeps is there from the moment it first holds, in memory and in the file. -/
theorem keptAt_keeps {P : Live → Prop}
    (keeps : ∀ {live later action}, Live.change live action = some later → P live → P later) {i j : Nat} (later : i ≤ j)
    (held : P (keptAt kekId kek actions i).memory ∧ P (keptAt kekId kek actions i).file) :
    P (keptAt kekId kek actions j).memory ∧ P (keptAt kekId kek actions j).file :=
  Trace.persists (P := fun kept : Kept => P kept.memory ∧ P kept.file)
    (fun _ _ both => Kept.next_keeps both keeps) later held

end

/-- In every run envelopes of live keys open to what was wrapped, those of other keys are refused, and what
was revoked stays so, in the provider and in its file. Which keys are live is fixed by the calls of the run. -/
theorem keyProvider_lifeCycle (ideal : aead.Ideal) (kekId : KeyId) (kek : Kek) (actions : List Action)
    (freshIds : ((drawnKeks kekId kek actions).map Prod.fst).Nodup)
    (freshKeks : ((drawnKeks kekId kek actions).map Prod.snd).Nodup) :
    (∀ n, Serves aead (keptAt kekId kek actions n) (worldAt aead kekId kek actions n)) ∧
    (∀ i before after, actions[i]? = some (.revokeKek before after) →
      ((worldAt aead kekId kek actions i).provider.revokeKek before after).2 = .ok () →
      ∀ j, i < j → Dead aead (worldAt aead kekId kek actions j).provider) ∧
    ∀ i dekId before after, actions[i]? = some (.revokeDek dekId before after) →
      ((worldAt aead kekId kek actions i).provider.revokeDek dekId before after).2 = .ok () →
      ∀ j, i < j → Gone aead (worldAt aead kekId kek actions j).provider dekId := by
  have serves : ∀ n, Serves aead (keptAt kekId kek actions n) (worldAt aead kekId kek actions n) := by
    intro n
    rw [← kept_worldAt aead]
    exact (run_inv ideal kekId kek actions n).serves ideal freshIds freshKeks
  refine ⟨serves, ?_, ?_⟩
  · intro i before after atI done j later
    refine (serves j).dead ?_
    refine (keptAt_keeps kekId kek actions (fun change => (Live.change_spec change).2.1)
      (Nat.succ_le_of_lt later) ?_).1
    rw [← kept_worldAt aead, worldAt, Trace.after_succ atI]
    exact revokeKek_eq_ok done
  · intro i dekId before after atI done j later
    refine (serves j).gone dekId ?_
    refine (keptAt_keeps kekId kek actions (fun change => (Live.change_spec change).2.2 _)
      (Nat.succ_le_of_lt later) ?_).1
    rw [← kept_worldAt aead, worldAt, Trace.after_succ atI]
    exact revokeDek_eq_ok (run_inv ideal kekId kek actions i).consistent done

/-! An encryption that writes the key and the associated data in front of the text, and checks them. -/

def sampleMarks (plain : List UInt8) : List UInt8 → List UInt8
  | [] => 0 :: plain
  | byte :: aad => 1 :: byte :: sampleMarks plain aad

def sampleUnmark : List UInt8 → List UInt8 → Option (List UInt8)
  | [], 0 :: plain => some plain
  | byte :: aad, 1 :: other :: rest => if byte = other then sampleUnmark aad rest else none
  | _, _ => none

def sampleAead : Aead where
  encrypt kek _ aad plain := kek.bytes ++ sampleMarks plain aad
  decrypt kek _ aad text := if text.take 32 = kek.bytes then sampleUnmark aad (text.drop 32) else none

theorem sampleUnmark_marks (plain aad : List UInt8) : sampleUnmark aad (sampleMarks plain aad) = some plain := by
  induction aad with
  | nil => rfl
  | cons byte aad ih => rw [sampleMarks, sampleUnmark, if_pos rfl, ih]

theorem sampleUnmark_bound {plain aad aad' found : List UInt8}
    (opened : sampleUnmark aad' (sampleMarks plain aad) = some found) : aad' = aad := by
  induction aad generalizing aad' with
  | nil =>
    cases aad' with
    | nil => rfl
    | cons byte aad' => simp [sampleMarks, sampleUnmark] at opened
  | cons byte aad ih =>
    cases aad' with
    | nil => simp [sampleMarks, sampleUnmark] at opened
    | cons other aad' =>
      rw [sampleMarks, sampleUnmark] at opened
      split at opened
      · rename_i same
        rw [same, ih opened]
      · cases opened

theorem sampleAead_ideal : sampleAead.Ideal where
  opens := by
    intro kek nonce aad plain
    simp only [sampleAead, take_left' kek.size, drop_left' kek.size]
    exact sampleUnmark_marks plain aad
  bound := by
    intro kek kek' nonce nonce' aad aad' plain plain' opened
    simp only [sampleAead, take_left' kek.size, drop_left' kek.size] at opened
    split at opened
    · rename_i same
      refine ⟨?_, sampleUnmark_bound opened⟩
      cases kek
      cases kek'
      simpa only [Key.mk.injEq] using same.symm
    · cases opened
  nonempty := by
    intro kek nonce aad plain
    cases aad <;> simp [sampleAead, sampleMarks]

def sampleKey (byte : UInt8) : Key := ⟨List.replicate 32 byte, length_replicate⟩

def sampleNonce : Nonce := ⟨List.replicate 12 0, length_replicate⟩

def sampleTenant : TenantId := ⟨"tenant", by decide +kernel⟩

def sampleDekId : KeyId := ⟨"dek-1", by decide +kernel⟩

def sampleKekId : KeyId := ⟨"kek-1", by decide +kernel⟩

def sampleNewKekId : KeyId := ⟨"kek-2", by decide +kernel⟩

def sampleEnvelope : WrappedDek :=
  ⟨sampleKekId, sampleDekId, sampleTenant, .store,
    sealedDek sampleAead (sampleKey 1) (sampleKey 9) sampleTenant .store sampleDekId sampleNonce⟩

def sampleActions : List Action :=
  [.wrap sampleTenant .store (sampleKey 9) sampleDekId sampleNonce .saved,
    .rotateKek (sampleKey 2) sampleNewKekId .saved .unsaved,
    .revokeDek sampleDekId .saved .saved, .revokeKek .saved .saved, .reopen]

def sampleWorld (n : Nat) : World := worldAt sampleAead sampleKekId (sampleKey 1) sampleActions n

/-- A key that was wrapped before a rotation opens after it, even when the rotation was not saved; once revoked
it is gone, and after the last revocation so is everything. -/
theorem keyProvider_lifeCycle_sample :
    ((sampleWorld 2).provider.unwrap sampleAead sampleEnvelope ⟨sampleTenant, .store, 10⟩ "engine" 1
        .saved).2 = .ok ⟨sampleKey 9, ⟨sampleTenant, "engine", .store, sampleDekId⟩⟩ ∧
      Gone sampleAead (sampleWorld 3).provider sampleDekId ∧ Dead sampleAead (sampleWorld 5).provider := by
  obtain ⟨serves, dead, gone⟩ := keyProvider_lifeCycle sampleAead_ideal sampleKekId (sampleKey 1)
    sampleActions (by decide +kernel) (by decide +kernel)
  have issued : (sampleEnvelope, sampleKey 9) ∈ (sampleWorld 2).issued := by decide +kernel
  have live : (sampleKekId, sampleKey 1) ∈ (keptAt sampleKekId (sampleKey 1) sampleActions 2).memory.keks := by
    decide +kernel
  have unrevoked : sampleDekId.value ∉ (keptAt sampleKekId (sampleKey 1) sampleActions 2).memory.dekRevoked := by
    decide +kernel
  have revokesDek : ((sampleWorld 2).provider.revokeDek sampleDekId .saved .saved).2 = .ok () := by
    decide +kernel
  have revokesKek : ((sampleWorld 3).provider.revokeKek .saved .saved).2 = .ok () := by decide +kernel
  refine ⟨?_, ?_, ?_⟩
  · exact (serves 2).opens (sampleEnvelope, sampleKey 9) issued (sampleKey 1) live unrevoked
      ⟨sampleTenant, .store, 10⟩ "engine" 1 .saved rfl rfl (by decide) (.inr rfl)
  · exact gone 2 sampleDekId .saved .saved rfl revokesDek 3 (by decide)
  · exact dead 3 .saved .saved rfl revokesKek 5 (by decide)

end SekaiChisei.Keys
