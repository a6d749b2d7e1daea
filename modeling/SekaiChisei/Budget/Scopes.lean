import Mathlib.Data.List.Nodup
import SekaiChisei.Lib.Text

/-!
Budget scopes and periods: `db/chisei_budget.rs`. A scope id is a path of segments joined with `/`, and
a charge goes to every scope of its chain. A period is named by the millisecond it starts at.
-/

namespace SekaiChisei.Budget
open Lib List

def metricTokens : String := "tokens"
def metricRequests : String := "requests"

def unlimitedPeriodType : String := "daily"

def globalScope : String := "global"

def pushNew (chain : List String) (scope : String) : List String :=
  if scope ∈ chain then chain else chain ++ [scope]

def joinPath (path segment : String) : String :=
  if path = "" then segment else path ++ "/" ++ segment

/-- An `agent` segment also names a scope without its path. -/
def pushFlatAgent (chain : List String) (segment : String) : List String :=
  match splitOnce ':' segment with
  | some (kind, _) => if kind = "agent" then pushNew chain segment else chain
  | none => chain

/-- One segment of the loop in `scope_chain`, over the chain and the path read so far. -/
def chainStep (state : List String × String) (segment : String) : List String × String :=
  let path := joinPath state.2 segment
  (pushFlatAgent (pushNew state.1 path) segment, path)

variable (scopeId : String)

def scopeChain : List String :=
  if scopeId = "" ∨ scopeId = globalScope then [globalScope]
  else ((splitAll '/' scopeId).foldl chainStep ([globalScope], "")).1

def parentScopeId : String :=
  if scopeId = "" ∨ scopeId = globalScope then ""
  else match rsplitOnce '/' scopeId with
    | some (parent, _) => parent
    | none => globalScope

/-- The scope whose work-unit default governs `scopeId`: its parent, where its leaf is a work unit. -/
def workUnitDefaultScope : Option String :=
  match rsplitOnce '/' scopeId with
  | some (parent, leaf) => if "work_unit:".toList <+: leaf.toList then some parent else none
  | none => none

variable {chain : List String} {segment : String} {segments : List String} {path : String}

theorem pushNew_nodup (unique : chain.Nodup) (scope : String) : (pushNew chain scope).Nodup := by
  unfold pushNew
  split
  · exact unique
  · rename_i absent
    rw [nodup_append_comm]
    exact nodup_cons.mpr ⟨absent, unique⟩

theorem pushFlatAgent_nodup (unique : chain.Nodup) : (pushFlatAgent chain segment).Nodup := by
  unfold pushFlatAgent
  split
  · split
    · exact pushNew_nodup unique segment
    · exact unique
  · exact unique

/-- A scope is in its chain once, so a charge counts once at every level. -/
theorem scopeChain_nodup : (scopeChain scopeId).Nodup := by
  unfold scopeChain
  split
  · exact nodup_singleton _
  · refine foldlRecOn (motive := fun state : List String × String => state.1.Nodup) _ chainStep (nodup_singleton _) ?_
    intro state unique segment _
    exact pushFlatAgent_nodup (pushNew_nodup unique _)

theorem mem_pushNew {scope added : String} : scope ∈ pushNew chain added ↔ scope ∈ chain ∨ scope = added := by
  unfold pushNew
  split
  · rename_i member
    exact ⟨.inl, fun either => either.elim id (· ▸ member)⟩
  · exact mem_appended

theorem pushNew_grows (scope : String) : chain <+: pushNew chain scope := by
  unfold pushNew
  split
  · exact prefix_rfl
  · exact prefix_append ..

theorem pushFlatAgent_grows : chain <+: pushFlatAgent chain segment := by
  unfold pushFlatAgent
  split
  · split
    · exact pushNew_grows ..
    · exact prefix_rfl
  · exact prefix_rfl

theorem of_mem_pushFlatAgent {scope segment : String} (member : scope ∈ pushFlatAgent chain segment) :
    scope ∈ chain ∨ scope = segment := by
  unfold pushFlatAgent at member
  split at member
  · split at member
    · exact mem_pushNew.mp member
    · exact .inl member
  · exact .inl member

theorem foldl_chainStep_grows (segments : List String) (state : List String × String) :
    state.1 <+: (segments.foldl chainStep state).1 := by
  refine foldlRecOn (motive := fun next : List String × String => state.1 <+: next.1) _ chainStep prefix_rfl ?_
  intro next grown segment _
  exact grown.trans ((pushNew_grows ..).trans (pushFlatAgent_grows ..))

theorem foldl_chainStep_path (state : List String × String) :
    (segments.foldl chainStep state).2 = segments.foldl joinPath state.2 := by
  induction segments generalizing state with
  | nil => rfl
  | cons segment rest ih => exact ih (chainStep state segment)

theorem joinPath_ne_empty (named : path ≠ "") : joinPath path segment ≠ "" := by
  rw [joinPath, if_neg named]
  intro empty
  have := congrArg String.toList empty
  simp at this

theorem foldl_joinPath (named : path ≠ "") : segments.foldl joinPath path = "/".intercalate (path :: segments) := by
  induction segments generalizing path with
  | nil => rfl
  | cons segment rest ih =>
    rw [foldl_cons, ih (joinPath_ne_empty named), joinPath, if_neg named]
    cases rest with
    | nil => rfl
    | cons second rest =>
      simp only [String.intercalate_cons_cons, String.append_assoc]

theorem path_mem_chain {segments : List String} (some : segments ≠ []) (state : List String × String) :
    (segments.foldl chainStep state).2 ∈ (segments.foldl chainStep state).1 := by
  obtain ⟨front, last, rfl⟩ := eq_nil_or_concat segments |>.resolve_left some
  rw [concat_eq_append, foldl_append]
  exact (pushFlatAgent_grows ..).subset (mem_pushNew.mpr (.inr rfl))

theorem scopeChain_eq {scopeId : String} (named : scopeId ≠ "") :
    scopeChain scopeId = ((splitAll '/' scopeId).foldl chainStep ([globalScope], "")).1 := by
  by_cases root : scopeId = globalScope
  · rw [root]
    decide +kernel
  · exact if_neg (not_or.mpr ⟨named, root⟩)

/-- A scope is in its chain, unless its path starts with a separator. -/
theorem self_mem_scopeChain {scopeId first : String} {rest : List String}
    (pieces : splitAll '/' scopeId = first :: rest)
    (named : first ≠ "") : scopeId ∈ scopeChain scopeId := by
  have whole : scopeId = "/".intercalate (first :: rest) := by
    rw [← pieces]
    exact (intercalate_splitAll '/' scopeId).symm
  have last := path_mem_chain (cons_ne_nil first rest) ([globalScope], "")
  have start : joinPath "" first = first := if_pos rfl
  have path : (first :: rest).foldl joinPath ([globalScope], "").2 = scopeId := by
    rw [foldl_cons, start, foldl_joinPath named, ← whole]
  rw [foldl_chainStep_path, path, ← pieces] at last
  rwa [scopeChain_eq]
  rintro rfl
  exact named (cons.inj pieces).1.symm

def StartsSeparated : Prop := scopeId.toList.head? = some '/'

theorem joinPath_startsSeparated {path segment : String} (free : '/' ∉ segment.toList) :
    StartsSeparated (joinPath path segment) → StartsSeparated path := by
  intro starts
  by_cases empty : path = ""
  · rw [joinPath, if_pos empty] at starts
    exact absurd (mem_of_mem_head? starts) free
  · rw [StartsSeparated, joinPath, if_neg empty, String.append_assoc, String.toList_append,
      head?_append_of_ne_nil] at starts
    · exact starts
    · simpa using empty

/-- No scope of a chain starts with a separator. -/
theorem scopeChain_startsSeparated {scopeId : String} (named : scopeId ≠ "") :
    ∀ scope ∈ scopeChain scopeId, ¬ StartsSeparated scope := by
  rw [scopeChain_eq named]
  refine (foldlRecOn (motive := fun state : List String × String =>
    ¬ StartsSeparated state.2 ∧ ∀ scope ∈ state.1, ¬ StartsSeparated scope) _ chainStep ?_ ?_).2
  · simp [StartsSeparated, globalScope]
  · rintro state ⟨path, chain⟩ segment inside
    have free := free_of_mem_splitAll inside
    have next := fun starts => path (joinPath_startsSeparated free starts)
    refine ⟨next, fun scope member => ?_⟩
    rcases of_mem_pushFlatAgent member with old | rfl
    · rcases mem_pushNew.mp old with old | rfl
      · exact chain scope old
      · exact next
    · exact fun starts => free (mem_of_mem_head? starts)

/-- The first segments of a path; from the last one on it is the path. -/
def ancestorPath (segments : Nat) : String :=
  "/".intercalate ((splitAll '/' scopeId).take (segments + 1))

theorem splitAll_ancestorPath (segments : Nat) :
    splitAll '/' (ancestorPath scopeId segments) = (splitAll '/' scopeId).take (segments + 1) := by
  have pieces : (splitAll '/' scopeId).take (segments + 1) ≠ [] := by simp [splitAll]
  have free : ∀ piece ∈ (splitAll '/' scopeId).take (segments + 1), splitAll '/' piece = [piece] := fun piece member =>
    splitAll_of_free (free_of_mem_splitAll (mem_of_mem_take member))
  refine (splitAll_intercalate '/' pieces).trans ?_
  rw [flatMap_congr free, flatMap_singleton']

/-- A chain holds the ancestors and their chains, unless the path starts with a separator. -/
theorem ancestors_covered_iff {scopeId : String} (named : scopeId ≠ "") :
    (∀ n, ancestorPath scopeId n ∈ scopeChain scopeId ∧ scopeChain (ancestorPath scopeId n) ⊆ scopeChain scopeId) ↔
      ¬ StartsSeparated scopeId := by
  constructor
  · intro covers starts
    have whole : ancestorPath scopeId (splitAll '/' scopeId).length = scopeId := by
      rw [ancestorPath, take_of_length_le (by omega)]
      exact intercalate_splitAll '/' scopeId
    have self := (covers (splitAll '/' scopeId).length).1
    rw [whole] at self
    exact scopeChain_startsSeparated named _ self starts
  · intro plain n
    obtain ⟨first, rest, pieces⟩ := exists_cons_of_ne_nil (l := splitAll '/' scopeId) (by simp [splitAll])
    have firstNamed : first ≠ "" := by
      rintro rfl
      have whole := intercalate_splitAll '/' scopeId
      rw [pieces] at whole
      cases rest with
      | nil => exact named (by simpa using whole.symm)
      | cons second rest => exact plain (by rw [StartsSeparated, ← whole, String.intercalate_cons_cons]; simp)
    have shorter : splitAll '/' (ancestorPath scopeId n) = first :: rest.take n := by
      rw [splitAll_ancestorPath, pieces, take_succ_cons]
    have within : scopeChain (ancestorPath scopeId n) ⊆ scopeChain scopeId := by
      rw [scopeChain_eq, splitAll_ancestorPath, scopeChain_eq named]
      · conv_rhs => rw [← take_append_drop (n + 1) (splitAll '/' scopeId), foldl_append]
        exact (foldl_chainStep_grows ..).subset
      · intro empty
        rw [empty] at shorter
        exact firstNamed (cons.inj shorter).1.symm
    exact ⟨within (self_mem_scopeChain shorter firstNamed), within⟩

example : scopeChain "project:sekai/agent:codex-app/work_unit:wu-1" =
    ["global", "project:sekai", "project:sekai/agent:codex-app", "agent:codex-app",
      "project:sekai/agent:codex-app/work_unit:wu-1"] := by decide +kernel

def msPerDay : Int := 86400000

/-- The day of a timestamp, counted from 1970-01-01. Outside the dates of `chrono` it is that day. -/
def dayOf (nowMs : Int) : Int :=
  let day := nowMs / msPerDay
  if -96465293 ≤ day ∧ day ≤ 95026236 then day else 0

def daysFromMonday (day : Int) : Int :=
  (day + 3) % 7

/-- The day of the month, from 0. Years are counted from March, in cycles of 400. -/
def dayOfMonth (day : Int) : Int :=
  let dayOfCycle := (day + 719468) % 146097
  let yearOfCycle := (dayOfCycle - dayOfCycle / 1460 + dayOfCycle / 36524 - dayOfCycle / 146096) / 365
  let dayOfYear := dayOfCycle - (365 * yearOfCycle + yearOfCycle / 4 - yearOfCycle / 100)
  let month := (5 * dayOfYear + 2) / 153
  dayOfYear - (153 * month + 2) / 5

def periodStartMs (periodType : String) (nowMs : Int) : Int :=
  let date := dayOf nowMs
  let startDate :=
    if periodType = "weekly" then date - daysFromMonday date
    else if periodType = "monthly" then date - dayOfMonth date
    else date
  startDate * msPerDay

-- 2026-06-30T12:30:00Z is in the month that starts at 2026-06-01T00:00:00Z.
example : periodStartMs "monthly" 1782822600000 = 1780272000000 := by decide +kernel

end SekaiChisei.Budget
