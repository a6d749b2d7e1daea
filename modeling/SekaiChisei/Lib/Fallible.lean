import Mathlib.Tactic.Common

/-! Runs of fallible code (`Result` in the source, `Except` here) that end well. -/

namespace SekaiChisei.Lib
open List
variable {ε α β γ : Type} {f : α → Except ε β} {x : Except ε α} {b : β}

theorem bind_eq_ok : (x >>= f) = .ok b ↔ ∃ a, x = .ok a ∧ f a = .ok b := by
  cases x with
  | error e =>
    constructor
    · intro no
      cases no
    · rintro ⟨a, no, _⟩
      cases no
  | ok a =>
    constructor
    · intro run
      exact ⟨a, rfl, run⟩
    · rintro ⟨a', same, run⟩
      cases same
      exact run

theorem check_eq_ok {x : Except ε Unit} {y : Except ε β} : (x >>= fun _ => y) = .ok b ↔ x = .ok () ∧ y = .ok b := by
  rw [bind_eq_ok]
  constructor
  · rintro ⟨_, first, rest⟩
    exact ⟨first, rest⟩
  · rintro ⟨first, rest⟩
    exact ⟨(), first, rest⟩

theorem ite_error_eq_ok {c : Prop} [Decidable c] {e : ε} {a : α} :
    (if c then .error e else x) = .ok a ↔ ¬ c ∧ x = .ok a := by
  by_cases h : c <;> simp [h]

theorem mapError_eq_ok {ε' : Type} {f : ε → ε'} {a : α} : x.mapError f = .ok a ↔ x = .ok a := by
  cases x <;> simp [Except.mapError]

theorem map_eq_ok {f : α → β} : x.map f = .ok b ↔ ∃ a, x = .ok a ∧ f a = b := by
  cases x <;> simp [Except.map]

theorem forM_eq_ok {check : α → Except ε Unit} {items : List α} :
    items.forM check = .ok () ↔ ∀ item ∈ items, check item = .ok () := by
  induction items with
  | nil => simp [List.forM, Pure.pure, Except.pure]
  | cons item items ih =>
    rw [List.forM, check_eq_ok, forall_mem_cons, ← ih]

section
variable {P : α → Prop} {g : α → β} (step : ∀ a b, f a = .ok b ↔ P a ∧ b = g a)
include step

theorem mapM_eq_ok {items : List α} {results : List β} :
    items.mapM f = .ok results ↔ (∀ a ∈ items, P a) ∧ results = items.map g := by
  induction items generalizing results with
  | nil => simp [Pure.pure, Except.pure, eq_comm]
  | cons a items ih =>
    rw [mapM_cons, bind_eq_ok]
    constructor
    · rintro ⟨b, first, rest⟩
      obtain ⟨tail, others, last⟩ := bind_eq_ok.mp rest
      obtain ⟨accepted, rfl⟩ := (step a b).mp first
      obtain ⟨all, rfl⟩ := ih.mp others
      cases last
      exact ⟨forall_mem_cons.mpr ⟨accepted, all⟩, rfl⟩
    · rintro ⟨all, rfl⟩
      obtain ⟨accepted, others⟩ := forall_mem_cons.mp all
      exact ⟨g a, (step a _).mpr ⟨accepted, rfl⟩, bind_eq_ok.mpr ⟨items.map g, ih.mpr ⟨others, rfl⟩, rfl⟩⟩

theorem option_mapM_eq_ok {value : Option α} {result : Option β} :
    value.mapM f = .ok result ↔ (∀ a ∈ value, P a) ∧ result = value.map g := by
  cases value with
  | none => simp [Pure.pure, Except.pure, eq_comm]
  | some a =>
    rw [Option.mapM_some]
    constructor
    · intro run
      obtain ⟨b, first, last⟩ := bind_eq_ok.mp run
      obtain ⟨accepted, rfl⟩ := (step a b).mp first
      cases last
      exact ⟨by simpa using accepted, rfl⟩
    · rintro ⟨all, rfl⟩
      exact bind_eq_ok.mpr ⟨g a, (step a _).mpr ⟨all a rfl, rfl⟩, rfl⟩

end

variable {items : List γ} {acc : β}

theorem foldlM_eq_ok {f : β → γ → Except ε β} {P : γ → Prop} {g : β → γ → β}
    (step : ∀ acc item next, f acc item = .ok next ↔ P item ∧ next = g acc item) {last : β} :
    items.foldlM f acc = .ok last ↔ (∀ item ∈ items, P item) ∧ last = items.foldl g acc := by
  induction items generalizing acc with
  | nil => simp [Pure.pure, Except.pure, eq_comm]
  | cons item items ih =>
    rw [foldlM_cons, bind_eq_ok, forall_mem_cons, foldl_cons]
    constructor
    · rintro ⟨next, first, rest⟩
      obtain ⟨accepted, rfl⟩ := (step acc item next).mp first
      obtain ⟨others, ended⟩ := ih.mp rest
      exact ⟨⟨accepted, others⟩, ended⟩
    · rintro ⟨⟨accepted, others⟩, ended⟩
      exact ⟨_, (step acc item _).mpr ⟨accepted, rfl⟩, ih.mpr ⟨others, ended⟩⟩

variable {step : β → γ → Except ε β} {P : List γ → β → Prop}

section
variable (keeps : ∀ before acc item acc', P before acc → step acc item = .ok acc' → P (before ++ [item]) acc')
include keeps

theorem foldlM_ok_from {before : List γ} {acc' : β} (start : P before acc) (run : items.foldlM step acc = .ok acc') :
    P (before ++ items) acc' := by
  induction items generalizing before acc with
  | nil =>
    cases run
    simpa using start
  | cons item items ih =>
    rw [foldlM_cons, bind_eq_ok] at run
    obtain ⟨mid, first, rest⟩ := run
    have := ih (keeps before acc item mid start first) rest
    simpa using this

/-- What one step keeps, a fallible loop keeps, seen against the items it went through. -/
theorem foldlM_ok_invariant {acc' : β} (start : P [] acc) (run : items.foldlM step acc = .ok acc') :
    P items acc' := by
  have all := foldlM_ok_from keeps start run
  rwa [nil_append] at all

end

theorem foldlM_runs {before : List γ} (one : ∀ before acc item, item ∈ items → P before acc →
      ∃ next, step acc item = .ok next ∧ P (before ++ [item]) next)
    (start : P before acc) : ∃ last, items.foldlM step acc = .ok last ∧ P (before ++ items) last := by
  induction items generalizing before acc with
  | nil => exact ⟨acc, rfl, by simpa using start⟩
  | cons item items ih =>
    obtain ⟨next, first, kept⟩ := one before acc item mem_cons_self start
    obtain ⟨last, rest, ended⟩ := ih (fun before acc other member => one before acc other
      (mem_cons_of_mem _ member)) kept
    refine ⟨last, ?_, by simpa using ended⟩
    rw [foldlM_cons, bind_eq_ok]
    exact ⟨next, first, rest⟩

theorem mapM_runs {R : α → β → Prop} {items : List α}
    (one : ∀ a ∈ items, ∃ b, f a = .ok b ∧ R a b) :
    ∃ results, items.mapM f = .ok results ∧ List.Forall₂ R items results := by
  induction items with
  | nil => exact ⟨[], rfl, .nil⟩
  | cons a items ih =>
    obtain ⟨⟨b, first, related⟩, others⟩ := forall_mem_cons.mp one
    obtain ⟨results, rest, all⟩ := ih others
    refine ⟨b :: results, ?_, .cons related all⟩
    rw [mapM_cons, bind_eq_ok]
    exact ⟨b, first, bind_eq_ok.mpr ⟨results, rest, rfl⟩⟩

/-- A loop that rejects a key it has seen leaves distinct keys, which are new. -/
theorem nodup_keys_cons {K : Type} {key : α → K} {P : K → Prop} {first : α} {rest : List α} (fresh : ¬ P (key first))
    (later : (rest.map key).Nodup ∧ ∀ other ∈ rest, ¬ (key other = key first ∨ P (key other))) :
    ((first :: rest).map key).Nodup ∧ ∀ other ∈ first :: rest, ¬ P (key other) := by
  obtain ⟨distinct, apart⟩ := later
  simp only [not_or] at apart
  refine ⟨?_, forall_mem_cons.mpr ⟨fresh, fun other member => (apart other member).2⟩⟩
  rw [map_cons, nodup_cons, mem_map]
  exact ⟨fun ⟨other, member, same⟩ => (apart other member).1 same, distinct⟩

end SekaiChisei.Lib
