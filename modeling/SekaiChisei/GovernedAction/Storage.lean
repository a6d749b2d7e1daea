import SekaiChisei.GovernedAction.Policy

/-!
What storage does to a policy. The overrides are one flat text: names without commas, colons and outer blanks come
back, other names are refused or come back as others.
-/

namespace SekaiChisei.GovernedAction
open Lib Objects List Table

section
variable {Key : Type} [DecidableEq Key]

theorem Overrides.get_insert {entry : Key × ActionDecision} (overrides : Overrides Key) (key : Key) :
    (overrides.insert entry).get key = if key = entry.1 then some entry.2 else overrides.get key := by
  rw [get, insert, find_put Prod.fst overrides.entries entry key]
  split <;> rfl

theorem Overrides.get_foldl {start : Overrides Key} {entries : List (Key × ActionDecision)}
    (distinct : (entries.map Prod.fst).Nodup)
    (key : Key) : (entries.foldl Overrides.insert start).get key =
      ((find Prod.fst entries key).map Prod.snd).or (start.get key) := by
  induction entries generalizing start with
  | nil => rfl
  | cons entry rest ih =>
    obtain ⟨absent, distinctRest⟩ := nodup_cons.mp distinct
    rw [foldl_cons, ih distinctRest, get_insert]
    by_cases same : key = entry.1
    · have noLater : find Prod.fst rest key = none := by
        rw [find_eq_none, same]
        exact absent
      have first : find Prod.fst (entry :: rest) key = some entry :=
        find?_cons_of_pos (by simp [same])
      rw [noLater, first, if_pos same]
      rfl
    · have later : find Prod.fst (entry :: rest) key = find Prod.fst rest key :=
        find?_cons_of_neg (by simpa using fun named => same named.symm)
      rw [later, if_neg same]

end

theorem PairReader.readPair_eq_ok {Key : Type} (reader : PairReader Key) {pair : String}
    {entry : Key × ActionDecision} :
    reader.readPair pair = .ok entry ↔ ∃ key decision, splitOnce ':' pair = some (key, decision) ∧
      reader.readKey key = some entry.1 ∧ ActionDecision.parse decision = some entry.2 := by
  obtain ⟨name, chosen⟩ := entry
  rw [readPair]
  cases splitOnce ':' pair with
  | none => simp
  | some parts =>
    obtain ⟨key, decision⟩ := parts
    cases found : reader.readKey key with
    | none => simp [found]
    | some read => cases parsed : ActionDecision.parse decision <;> simp [found, parsed]

section
variable {Key : Type} [DecidableEq Key] (reader : PairReader Key) {start : Overrides Key} {after : Overrides Key}

theorem PairReader.readPairs_cons_eq_ok {pair : String} {rest : List String} :
    reader.readPairs (pair :: rest) start = .ok after ↔
      ∃ entry, reader.readPair pair = .ok entry ∧ reader.readPairs rest (start.insert entry) = .ok after := by
  rw [readPairs, foldlM_cons]
  cases reader.readPair pair with
  | error _ => simp [bind, Except.bind]
  | ok entry => simp [bind, Except.bind, readPairs]

variable {pairs : List String}

theorem PairReader.readPairs_ok_iff :
    (∃ after, reader.readPairs pairs start = .ok after) ↔
      ∀ pair ∈ pairs, ∃ entry, reader.readPair pair = .ok entry := by
  induction pairs generalizing start with
  | nil => exact ⟨fun _ => by simp, fun _ => ⟨start, rfl⟩⟩
  | cons pair rest ih =>
    rw [forall_mem_cons]
    constructor
    · rintro ⟨after, read⟩
      obtain ⟨entry, first, later⟩ := reader.readPairs_cons_eq_ok.mp read
      exact ⟨⟨entry, first⟩, ih.mp ⟨after, later⟩⟩
    · rintro ⟨⟨entry, first⟩, others⟩
      obtain ⟨after, later⟩ := ih.mpr others
      exact ⟨after, reader.readPairs_cons_eq_ok.mpr ⟨entry, first, later⟩⟩

theorem PairReader.readPairs_get {key : Key}
    (read : reader.readPairs pairs start = .ok after) (found : (after.get key).isSome) :
    (start.get key).isSome ∨ ∃ pair ∈ pairs, ∃ decision, reader.readPair pair = .ok (key, decision) := by
  induction pairs generalizing start with
  | nil =>
    cases read
    exact .inl found
  | cons pair rest ih =>
    obtain ⟨⟨name, decision⟩, first, later⟩ := reader.readPairs_cons_eq_ok.mp read
    rcases ih later with before | ⟨other, member, inside⟩
    · rw [Overrides.get_insert] at before
      split at before
      · rename_i same
        rw [show key = name from same]
        exact .inr ⟨pair, mem_cons_self, decision, first⟩
      · exact .inl before
    · exact .inr ⟨other, mem_cons_of_mem _ member, inside⟩

theorem PairReader.readPairs_map {entries : List (Key × ActionDecision)} {write : Key × ActionDecision → String}
    (each : ∀ entry ∈ entries, reader.readPair (write entry) = .ok entry) (start : Overrides Key) :
    reader.readPairs (entries.map write) start = .ok (entries.foldl Overrides.insert start) := by
  induction entries generalizing start with
  | nil => rfl
  | cons entry rest ih =>
    obtain ⟨first, others⟩ := forall_mem_cons.mp each
    exact reader.readPairs_cons_eq_ok.mpr ⟨entry, first, ih others (start.insert entry)⟩

end

theorem ActionDecision.parse_asStr (decision : ActionDecision) : parse decision.asStr = some decision := by
  cases decision <;> decide +kernel

theorem ActionDecision.asStr_plain (decision : ActionDecision) :
    ∀ c ∈ decision.asStr.toList, c ≠ ',' ∧ c ≠ ':' ∧ c ≠ '\x00' := by
  cases decision <;> simp [asStr]

theorem ActionDecision.parse_of_colon {value : String} (colon : ':' ∈ value.toList) : parse value = none := by
  have inside : ':' ∈ (folded value).toList := by
    rw [folded, String.toList_ofList]
    exact mem_map.mpr ⟨':', mem_trim colon (by decide), by decide⟩
  have different : ∀ text : String, ':' ∉ text.toList → folded value ≠ text := by
    intro text free same
    exact free (same ▸ inside)
  rw [parse, if_neg (different _ (by decide)), if_neg (different _ (by decide)), if_neg]
  intro member
  simp only [mem_cons, not_mem_nil, or_false] at member
  rcases member with same | same | same
  · exact different _ (by decide) same
  · exact different _ (by decide) same
  · exact different _ (by decide) same

def pairText {Key : Type} (text : Key → String) (entry : Key × ActionDecision) : String :=
  text entry.1 ++ ":" ++ entry.2.asStr

section
variable {Key : Type} {text : Key → String} {entry : Key × ActionDecision}

theorem mem_pairText {c : Char} (other : c ≠ ':') (plain : c = ',' ∨ c = '\x00') :
    c ∈ (pairText text entry).toList ↔ c ∈ (text entry.1).toList := by
  have free : c ∉ entry.2.asStr.toList := by
    intro member
    have parts := ActionDecision.asStr_plain entry.2 c member
    rcases plain with rfl | rfl
    · exact parts.1 rfl
    · exact parts.2.2 rfl
  rw [pairText, show ":" = String.singleton ':' from rfl, toList_separated, mem_append, mem_cons]
  simp [other, free]

theorem pairText_visible : trim (pairText text entry) ≠ "" := by
  apply trim_ne_empty (c := ':') _ (by decide)
  rw [pairText, show ":" = String.singleton ':' from rfl, toList_separated]
  exact mem_append_right _ mem_cons_self

end

theorem tokens_intercalate (parts : List String) : tokens (",".intercalate parts) = parts.flatMap tokens := by
  by_cases none : parts = []
  · rw [none, String.intercalate_nil]
    decide +kernel
  · rw [tokens, show "," = String.singleton ',' from rfl, splitAll_intercalate ',' none, filter_flatMap]
    rfl

section
variable {Key : Type} {text : Key → String} {entry : Key × ActionDecision}

theorem tokens_pairText (free : ',' ∉ (text entry.1).toList) :
    tokens (pairText text entry) = [pairText text entry] := by
  have whole : ',' ∉ (pairText text entry).toList := by
    rwa [mem_pairText (by decide) (.inl rfl)]
  rw [tokens, splitAll_of_free whole]
  simp [pairText_visible]

theorem writeOverrides_eq (overrides : Overrides Key) :
    ∃ entries : List (Key × ActionDecision), entries.Perm overrides.entries ∧
      writeOverrides text overrides = ",".intercalate (entries.map (pairText text)) := by
  refine ⟨overrides.entries.insertionSort fun a b => pairText text a ≤ pairText text b, perm_insertionSort _ _, ?_⟩
  rw [map_insertionSort _ (· ≤ ·) _ _ (fun _ _ _ _ => Iff.rfl)]
  rfl

variable [DecidableEq Key] (text) (overrides : Overrides Key)

theorem PairReader.readOverrides_written (reader : PairReader Key) :
    ∃ entries : List (Key × ActionDecision), entries.Perm overrides.entries ∧
      reader.readOverrides (some (writeOverrides text overrides)) =
        reader.readPairs (entries.flatMap fun entry => tokens (pairText text entry)) .empty := by
  obtain ⟨entries, reordered, joined⟩ := writeOverrides_eq overrides
  refine ⟨entries, reordered, ?_⟩
  rw [readOverrides, joined, tokens_intercalate, flatMap_map]

theorem PairReader.readOverrides_writeOverrides (reader : PairReader Key)
    (plain : ∀ entry ∈ overrides.entries, ',' ∉ (text entry.1).toList ∧ ':' ∉ (text entry.1).toList ∧
      reader.readKey (text entry.1) = some entry.1) :
    ∃ after, reader.readOverrides (some (writeOverrides text overrides)) = .ok after ∧
      ∀ key, after.get key = overrides.get key := by
  obtain ⟨entries, reordered, written⟩ := reader.readOverrides_written text overrides
  have pieces : (entries.flatMap fun entry => tokens (pairText text entry)) = entries.map (pairText text) := by
    rw [map_eq_flatMap]
    exact flatMap_congr fun entry member => tokens_pairText (plain entry (reordered.mem_iff.mp member)).1
  have distinct : (entries.map Prod.fst).Nodup := ((reordered.map Prod.fst).nodup_iff).mpr overrides.distinct
  refine ⟨entries.foldl Overrides.insert .empty, ?_, ?_⟩
  · rw [written, pieces]
    apply reader.readPairs_map
    intro entry member
    obtain ⟨_, free, read⟩ := plain entry (reordered.mem_iff.mp member)
    rw [PairReader.readPair, pairText, show ":" = String.singleton ':' from rfl, splitOnce_append free]
    simp only [read, ActionDecision.parse_asStr]
  · intro key
    have same : find Prod.fst overrides.entries key = find Prod.fst entries key :=
      find_perm distinct reordered key
    rw [Overrides.get_foldl distinct, ← same]
    exact Option.or_none

end

theorem RiskClass.asStr_plain (risk : RiskClass) : ',' ∉ risk.asStr.toList ∧ ':' ∉ risk.asStr.toList ∧
    riskReader.readKey risk.asStr = some risk := by
  cases risk <;> decide +kernel

theorem riskOverrides_kept (overrides : Overrides RiskClass) :
    ∃ after, riskReader.readOverrides (some (writeOverrides RiskClass.asStr overrides)) = .ok after ∧
      ∀ risk, after.get risk = overrides.get risk := by
  apply riskReader.readOverrides_writeOverrides
  intro entry _
  exact entry.1.asStr_plain

def limit (cap : Option UInt32) : Option UInt32 := cap.filter (· ≠ 0)

theorem not_isWhitespace_of_isDigit {c : Char} (digit : c.isDigit) : isWhitespace c = false := by
  have bounds : 48 ≤ c.toNat ∧ c.toNat ≤ 57 := by
    simpa [Char.isDigit, UInt32.le_iff_toNat_le] using digit
  simp only [isWhitespace, Bool.or_eq_false_iff, Bool.and_eq_false_iff, decide_eq_false_iff_not, beq_eq_false_iff_ne]
  omega

theorem isDigit_of_mem_repr {n : Nat} {c : Char} (member : c ∈ n.repr.toList) : c.isDigit := by
  rw [Nat.toList_repr] at member
  exact Nat.isDigit_of_mem_toDigits (by decide) (by decide) member

theorem parseU32_repr (value : UInt32) : parseU32 value.toNat.repr = some value := by
  have unsigned : unsigned value.toNat.repr.toList = value.toNat.repr.toList := by
    rw [GovernedAction.unsigned.eq_def]
    split
    · rename_i rest signed
      have plus : '+'.isDigit := isDigit_of_mem_repr (signed ▸ mem_cons_self)
      cases plus
    · rfl
  have read : Nat.ofDigitChars 10 value.toNat.repr.toList 0 = value.toNat := by
    rw [Nat.toList_repr]
    exact Nat.ofDigitChars_toDigits (by decide) (by decide)
  have nonempty : value.toNat.repr.toList ≠ [] := by
    rw [Nat.toList_repr]
    exact Nat.toDigits_ne_nil
  have digits : value.toNat.repr.toList.all Char.isDigit := by
    rw [all_eq_true]
    exact fun c member => isDigit_of_mem_repr member
  rw [parseU32, unsigned, read, if_pos ⟨nonempty, digits, value.toNat_lt⟩, UInt32.ofNat_toNat]

theorem parseOptionalU32_capText (field : String) (cap : Option UInt32) :
    parseOptionalU32 field (some (capText cap)) = .ok (limit cap) := by
  cases cap with
  | none => rfl
  | some value =>
    have dense : trim value.toNat.repr = value.toNat.repr :=
      trim_of_all fun c member => not_isWhitespace_of_isDigit (isDigit_of_mem_repr member)
    have visible : value.toNat.repr ≠ "" := by
      intro empty
      have chars : value.toNat.repr.toList = [] := by rw [empty]; rfl
      rw [Nat.toList_repr] at chars
      exact Nat.toDigits_ne_nil chars
    have found : trimmed (some (capText (some value))) = some value.toNat.repr :=
      trimmed_some dense visible
    rw [parseOptionalU32, found]
    simp only [parseU32_repr, limit, Option.filter_some]
    by_cases zero : value = 0 <;> simp [zero]

/-- Only the overrides of actions can be lost. -/
theorem fromProperties_toProperties (policy : ActionPolicy) :
    ∃ risks : Overrides RiskClass, (∀ risk, risks.get risk = policy.riskOverrides.get risk) ∧
      ∀ scope, ActionPolicy.fromProperties scope policy.toProperties =
        (actionReader.readOverrides (some (writeOverrides id policy.actionOverrides))).map fun overrides =>
          ⟨scope, policy.defaultDecision, overrides, risks, limit policy.maxMutationsPerWorkUnit,
            limit policy.maxDeletesPerWorkUnit⟩ := by
  obtain ⟨risks, readRisks, same⟩ := riskOverrides_kept policy.riskOverrides
  refine ⟨risks, same, ?_⟩
  intro scope
  have decision : trimmed (policy.toProperties.get "default_decision") = some policy.defaultDecision.asStr := by
    show trimmed (some policy.defaultDecision.asStr) = _
    cases policy.defaultDecision <;> decide +kernel
  have actions : policy.toProperties.get "action_overrides" = some (writeOverrides id policy.actionOverrides) := rfl
  have riskText : policy.toProperties.get "risk_overrides" =
      some (writeOverrides RiskClass.asStr policy.riskOverrides) := rfl
  have mutations : policy.toProperties.get "max_mutations_per_work_unit" =
      some (capText policy.maxMutationsPerWorkUnit) := rfl
  have deletes : policy.toProperties.get "max_deletes_per_work_unit" =
      some (capText policy.maxDeletesPerWorkUnit) := rfl
  rw [ActionPolicy.fromProperties, decision, actions, riskText, mutations, deletes, readRisks,
    parseOptionalU32_capText, parseOptionalU32_capText]
  simp only [ActionDecision.parse_asStr]
  cases actionReader.readOverrides (some (writeOverrides id policy.actionOverrides)) <;> rfl

end SekaiChisei.GovernedAction
