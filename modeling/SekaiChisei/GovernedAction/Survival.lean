import SekaiChisei.GovernedAction.Storage

/-!
Which policies survive storage, and which scopes have ids of their own. A name with a comma, a colon or outer white
space is never read back.
-/

namespace SekaiChisei.GovernedAction
open Lib Objects List

def Clean (name : String) : Prop :=
  name ≠ "" ∧ trim name = name ∧ ',' ∉ name.toList ∧ ':' ∉ name.toList

def lastPiece (name : String) : String := (splitAll ',' name).getLastD ""

def Parses (piece : String) : Prop := ∃ entry, actionReader.readPair piece = .ok entry

def Refused (name : String) : Prop :=
  '\x00' ∈ name.toList ∨ trim (lastPiece name) = "" ∨ ':' ∈ (lastPiece name).toList ∨
    ∃ piece ∈ (splitAll ',' name).dropLast, trim piece ≠ "" ∧ ¬ Parses piece

variable {name : String} {entry : String × ActionDecision}

theorem actionReader_readKey_eq_some {key : String} :
    actionReader.readKey name = some key ↔ trim name ≠ "" ∧ key = trim name := by
  rw [actionReader]
  by_cases blank : trim name = "" <;> simp [blank, eq_comm]

theorem actionReader_readKey_of_clean (clean : Clean name) : actionReader.readKey name = some name := by
  obtain ⟨nonempty, whole, _, _⟩ := clean
  rw [actionReader_readKey_eq_some, whole]
  exact ⟨nonempty, rfl⟩

theorem clean_of_readPair {pair : String} {decision : ActionDecision} (free : ',' ∉ pair.toList)
    (read : actionReader.readPair pair = .ok (name, decision)) : Clean name := by
  obtain ⟨key, _, cut, found, _⟩ := actionReader.readPair_eq_ok.mp read
  obtain ⟨nonempty, rfl⟩ := actionReader_readKey_eq_some.mp found
  obtain ⟨noColon, inside⟩ := splitOnce_eq_some cut
  refine ⟨nonempty, trim_trim key, ?_, ?_⟩
  · intro comma
    exact free (inside _ (mem_of_trim comma))
  · intro colon
    exact noColon (mem_of_trim colon)

/-- A piece before the decision reads as a pair when the colon after it is its first. -/
theorem parses_separated {piece : String} {decision : ActionDecision} :
    Parses (piece ++ ":" ++ decision.asStr) ↔ trim piece ≠ "" ∧ ':' ∉ piece.toList := by
  rw [show ":" = String.singleton ':' from rfl]
  constructor
  · rintro ⟨⟨name, chosen⟩, read⟩
    obtain ⟨key, text, cut, found, parsed⟩ := actionReader.readPair_eq_ok.mp read
    by_cases colon : ':' ∈ piece.toList
    · obtain ⟨before, after, free, shape⟩ := exists_cut colon
      have regrouped : piece ++ String.singleton ':' ++ decision.asStr =
          before ++ String.singleton ':' ++ (after ++ String.singleton ':' ++ decision.asStr) := by
        simp only [shape, String.append_assoc]
      rw [regrouped, splitOnce_append free] at cut
      cases cut
      -- the second colon is in what should be the decision
      rw [ActionDecision.parse_of_colon] at parsed
      · cases parsed
      · rw [toList_separated]
        exact mem_append_right _ mem_cons_self
    · rw [splitOnce_append colon] at cut
      cases cut
      exact ⟨(actionReader_readKey_eq_some.mp found).1, colon⟩
  · rintro ⟨visible, free⟩
    refine ⟨(trim piece, decision), actionReader.readPair_eq_ok.mpr ⟨piece, decision.asStr, ?_, ?_, ?_⟩⟩
    · exact splitOnce_append free _
    · exact actionReader_readKey_eq_some.mpr ⟨visible, rfl⟩
    · exact decision.parse_asStr

theorem tokens_pairText_parse_iff : (∀ token ∈ tokens (pairText id entry), Parses token) ↔
      trim (lastPiece entry.1) ≠ "" ∧ ':' ∉ (lastPiece entry.1).toList ∧
        ∀ piece ∈ (splitAll ',' entry.1).dropLast, trim piece ≠ "" → Parses piece := by
  obtain ⟨front, last, pieces, _, grown⟩ := splitAll_shape ',' entry.1
  have ending : ',' ∉ (":" ++ entry.2.asStr).toList := by
    cases entry.2 <;> decide +kernel
  have written : splitAll ',' (pairText id entry) = front ++ [last ++ ":" ++ entry.2.asStr] := by
    rw [pairText, String.append_assoc, String.append_assoc]
    exact grown _ ending
  have visible : trim (last ++ ":" ++ entry.2.asStr) ≠ "" := @pairText_visible String id (last, entry.2)
  have lastly : lastPiece entry.1 = last := by
    rw [lastPiece, pieces]
    simp
  rw [lastly, pieces, dropLast_concat, tokens, written, ← and_assoc, ← @parses_separated last entry.2]
  simp only [mem_filter, mem_append, mem_singleton, decide_eq_true_eq]
  constructor
  · intro all
    exact ⟨all _ ⟨.inr rfl, visible⟩, fun piece member shown => all piece ⟨.inl member, shown⟩⟩
  · rintro ⟨own, others⟩ token ⟨member | rfl, shown⟩
    · exact others token member shown
    · exact own

theorem nul_not_mem_writeOverrides {Key : Type} {text : Key → String} {overrides : Overrides Key} :
    '\x00' ∉ (writeOverrides text overrides).toList ↔
      ∀ entry ∈ overrides.entries, '\x00' ∉ (text entry.1).toList := by
  obtain ⟨entries, reordered, joined⟩ := writeOverrides_eq overrides
  rw [joined, show "," = String.singleton ',' from rfl, mem_intercalate (by decide)]
  simp only [not_exists, not_and, forall_mem_map, mem_pairText (show '\x00' ≠ ':' by decide) (.inr rfl),
    reordered.mem_iff]

theorem nul_not_mem_capText (cap : Option UInt32) : '\x00' ∉ (capText cap).toList := by
  cases cap with
  | none => exact not_mem_nil
  | some value =>
    intro member
    have digit : '\x00'.isDigit := isDigit_of_mem_repr member
    cases digit

theorem storagePropertiesJson_toProperties (policy : ActionPolicy) :
    storagePropertiesJson policy.toProperties = .ok () ↔
      (∀ entry ∈ policy.actionOverrides.entries, '\x00' ∉ entry.1.toList) ∧ '\x00' ∉ policy.scope.toList := by
  have decision : '\x00' ∉ policy.defaultDecision.asStr.toList := by
    cases policy.defaultDecision <;> decide +kernel
  have risks : '\x00' ∉ (writeOverrides RiskClass.asStr policy.riskOverrides).toList := by
    rw [nul_not_mem_writeOverrides]
    intro entry _
    cases entry.1 <;> decide +kernel
  have names : '\x00' ∉ (writeOverrides id policy.actionOverrides).toList ↔
      ∀ entry ∈ policy.actionOverrides.entries, '\x00' ∉ entry.1.toList := nul_not_mem_writeOverrides
  rw [storagePropertiesJson, forM_eq_ok, ActionPolicy.toProperties, ← names]
  simp only [forall_mem_cons, not_mem_nil, false_imp_iff, implies_true, and_true, ite_error_eq_ok,
    decision, risks, nul_not_mem_capText, not_false_eq_true]
  simp

variable (overrides : Overrides String)

theorem readOverrides_ok_iff :
    (∃ after, actionReader.readOverrides (some (writeOverrides id overrides)) = .ok after) ↔
      ∀ entry ∈ overrides.entries, ∀ token ∈ tokens (pairText id entry), Parses token := by
  obtain ⟨entries, reordered, written⟩ := actionReader.readOverrides_written id overrides
  rw [written, PairReader.readPairs_ok_iff]
  simp only [mem_flatMap, forall_exists_index, and_imp, reordered.mem_iff]
  constructor
  · intro all entry member token inside
    exact all token entry member inside
  · intro all token entry member inside
    exact all entry member token inside

theorem clean_of_readOverrides {overrides after : Overrides String}
    (read : actionReader.readOverrides (some (writeOverrides id overrides)) = .ok after)
    (found : (after.get name).isSome) : Clean name := by
  obtain ⟨entries, _, written⟩ := actionReader.readOverrides_written id overrides
  rw [written] at read
  rcases actionReader.readPairs_get read found with before | ⟨pair, member, decision, parsed⟩
  · cases before
  · obtain ⟨entry, _, token⟩ := mem_flatMap.mp member
    exact clean_of_readPair (free_of_mem_splitAll (mem_filter.mp token).1) parsed

def ActionPolicy.Survives (policy : ActionPolicy) : Prop :=
  storagePropertiesJson policy.toProperties = .ok () →
    ∀ stored, ActionPolicy.fromProperties policy.scope policy.toProperties = .ok stored →
      (∀ action risk, stored.decide action risk = policy.decide action risk) ∧
      limit stored.maxMutationsPerWorkUnit = limit policy.maxMutationsPerWorkUnit ∧
      limit stored.maxDeletesPerWorkUnit = limit policy.maxDeletesPerWorkUnit

theorem limit_limit (cap : Option UInt32) : limit (limit cap) = limit cap := by
  rw [limit, limit, Option.filter_filter]
  simp

variable {policy : ActionPolicy}

theorem survives_of_clean (clean : ∀ entry ∈ policy.actionOverrides.entries, Clean entry.1) : policy.Survives := by
  intro _ stored read
  obtain ⟨risks, sameRisks, written⟩ := fromProperties_toProperties policy
  obtain ⟨overrides, readActions, sameActions⟩ :=
    actionReader.readOverrides_writeOverrides id policy.actionOverrides fun entry member =>
      have cleanName := clean entry member
      ⟨cleanName.2.2.1, cleanName.2.2.2, actionReader_readKey_of_clean cleanName⟩
  rw [written, readActions] at read
  cases read
  refine ⟨?_, limit_limit _, limit_limit _⟩
  intro action risk
  rw [ActionPolicy.decide, ActionPolicy.decide, sameActions action, sameRisks risk]

theorem parse_iff_not_refused (free : '\x00' ∉ entry.1.toList) :
    (∀ token ∈ tokens (pairText id entry), Parses token) ↔ ¬ Refused entry.1 := by
  rw [tokens_pairText_parse_iff, Refused]
  simp only [free, false_or, not_or, not_exists, not_and, not_not]

theorem survives_of_refused
    (member : entry ∈ policy.actionOverrides.entries) (refused : Refused entry.1) : policy.Survives := by
  intro saved stored read
  have free := ((storagePropertiesJson_toProperties policy).mp saved).1
  obtain ⟨risks, _, written⟩ := fromProperties_toProperties policy
  rw [written, map_eq_ok] at read
  obtain ⟨overrides, readActions, _⟩ := read
  have all := (readOverrides_ok_iff policy.actionOverrides).mp ⟨overrides, readActions⟩
  exact absurd refused ((parse_iff_not_refused (free entry member)).mp (all entry member))

def ActionDecision.other : ActionDecision → ActionDecision
  | .allow => .deny
  | .deny | .requireApproval => .allow

theorem ActionDecision.other_ne (decision : ActionDecision) : decision.other ≠ decision := by
  cases decision <;> decide

def revealing (decision : ActionDecision) : ActionPolicy :=
  ⟨"", decision.other, overrides, .empty, none, none⟩

theorem revealing_lost {overrides : Overrides String} (member : entry ∈ overrides.entries) (unclean : ¬ Clean entry.1)
    (accepted : ∀ entry ∈ overrides.entries, ¬ Refused entry.1) : ¬ (revealing overrides entry.2).Survives := by
  intro survives
  have free : ∀ entry ∈ overrides.entries, '\x00' ∉ entry.1.toList :=
    fun entry member nul => accepted entry member (.inl nul)
  have saved : storagePropertiesJson (revealing overrides entry.2).toProperties = .ok () :=
    (storagePropertiesJson_toProperties _).mpr ⟨free, not_mem_nil⟩
  obtain ⟨after, readActions⟩ := (readOverrides_ok_iff overrides).mpr fun entry member =>
    (parse_iff_not_refused (free entry member)).mpr (accepted entry member)
  obtain ⟨risks, sameRisks, written⟩ := fromProperties_toProperties (revealing overrides entry.2)
  have read := written ""
  rw [show (revealing overrides entry.2).actionOverrides = overrides from rfl, readActions] at read
  have lost : after.get entry.1 = none := by
    rw [← Option.not_isSome_iff_eq_none]
    exact fun found => unclean (clean_of_readOverrides readActions found)
  have kept : overrides.get entry.1 = some entry.2 := by
    rw [Overrides.get, Table.find_of_mem overrides.distinct member]
    rfl
  have same := (survives saved _ read).1 entry.1 .read
  rw [ActionPolicy.decide, ActionPolicy.decide, lost, sameRisks,
    show (revealing overrides entry.2).actionOverrides.get entry.1 = some entry.2 from kept] at same
  exact entry.2.other_ne same

theorem survives_iff :
    (∀ policy : ActionPolicy, policy.actionOverrides = overrides → policy.Survives) ↔
      (∀ entry ∈ overrides.entries, Clean entry.1) ∨ ∃ entry ∈ overrides.entries, Refused entry.1 := by
  constructor
  · intro all
    by_contra neither
    simp only [not_or, not_forall, not_exists, not_and] at neither
    obtain ⟨⟨entry, member, unclean⟩, accepted⟩ := neither
    exact revealing_lost member unclean accepted (all _ rfl)
  · rintro (clean | ⟨entry, member, refused⟩) policy rfl
    · exact survives_of_clean clean
    · exact survives_of_refused member refused

def Confusable (c d : Char) : Prop := c = d ∨ (isAsciiAlphanumeric c = false ∧ isAsciiAlphanumeric d = false)

theorem sanitized_eq_iff {c d : Char} : sanitized c = sanitized d ↔ Confusable c d := by
  rw [sanitized, sanitized, Confusable]
  cases plainC : isAsciiAlphanumeric c <;> cases plainD : isAsciiAlphanumeric d
  · simp
  · have different : '-' ≠ d := by
      rintro rfl
      cases plainD
    have apart : c ≠ d := by
      rintro rfl
      rw [plainC] at plainD
      cases plainD
    simp [different, apart]
  · have different : c ≠ '-' := by
      rintro rfl
      cases plainC
    have apart : c ≠ d := by
      rintro rfl
      rw [plainC] at plainD
      cases plainD
    simp [different, apart]
  · simp

theorem actionPolicyId_eq_iff (a b : String) :
    actionPolicyId a = actionPolicyId b ↔ List.Forall₂ Confusable a.toList b.toList := by
  have pointwise : (fun c d => sanitized c = sanitized d) = Confusable := by
    funext c d
    exact propext sanitized_eq_iff
  have mapped : List.Forall₂ Confusable a.toList b.toList ↔ a.toList.map sanitized = b.toList.map sanitized := by
    rw [← pointwise, ← forall₂_eq_eq_eq, forall₂_map_left_iff, forall₂_map_right_iff]
  rw [mapped]
  constructor
  · intro same
    have chars := congrArg String.toList same
    simpa only [actionPolicyId, String.toList_append, String.toList_ofList, append_cancel_left_eq] using chars
  · intro same
    rw [actionPolicyId, actionPolicyId, same]

theorem actionPolicyExternalId_injective {a b : String} (same : actionPolicyExternalId a = actionPolicyExternalId b) :
    a = b := by
  have chars := congrArg String.toList same
  simp only [actionPolicyExternalId, String.toList_append, append_cancel_left_eq] at chars
  exact String.toList_injective chars

theorem upsertActionPolicy_keeps {tables after : ObjectTables} {now : Int} {scope : String}
    (unique : (tables.objects.map (·.id)).Nodup) (different : policy.scope ≠ scope)
    (saved : upsertActionPolicy tables policy now = .ok after) :
    getActionPolicy after scope = getActionPolicy tables scope := by
  have apart : actionPolicyExternalId policy.scope ≠ actionPolicyExternalId scope :=
    fun same => different (actionPolicyExternalId_injective same)
  have kept : findByExternalId after (actionPolicyExternalId scope) =
      findByExternalId tables (actionPolicyExternalId scope) := by
    rw [upsertActionPolicy] at saved
    cases found : findByExternalId tables (actionPolicyExternalId policy.scope) with
    | some existing =>
      rw [found] at saved
      obtain ⟨_, updated⟩ := check_eq_ok.mp saved
      rw [ObjectTables.updateObject, ite_error_eq_ok, ite_error_eq_ok] at updated
      obtain ⟨_, _, updated⟩ := updated
      cases updated
      have member : existing ∈ tables.objects := mem_of_find?_eq_some found
      have named : existing.externalId = actionPolicyExternalId policy.scope := by
        simpa using find?_some found
      apply Table.find?_map_of_passed
      intro row inside
      by_cases same : row.id = existing.id
      · obtain rfl : row = existing := inj_on_of_nodup_map unique inside member same
        refine .inr ⟨?_, ?_⟩
        · simpa [named] using apart
        · simpa [named] using apart
      · exact .inl (if_neg same)
    | none =>
      rw [found, createObject, ite_error_eq_ok] at saved
      obtain ⟨_, saved⟩ := saved
      obtain ⟨_, inserted⟩ := check_eq_ok.mp saved
      rw [ObjectTables.insertObject, ite_error_eq_ok, ite_error_eq_ok] at inserted
      obtain ⟨_, _, inserted⟩ := inserted
      cases inserted
      rw [findByExternalId, find?_append, find?_cons_of_neg (by simpa using apart)]
      exact Option.or_none
  rw [getActionPolicy, getActionPolicy, kept]

/-- The policies with given overrides all survive if and only if their names are clean or one is refused; two scopes
have different ids if and only if a character tells them apart. -/
theorem actionPolicy_stored_iff (a b : String) :
    ((∀ policy : ActionPolicy, policy.actionOverrides = overrides → policy.Survives) ↔
      (∀ entry ∈ overrides.entries, Clean entry.1) ∨ ∃ entry ∈ overrides.entries, Refused entry.1) ∧
    (actionPolicyId a ≠ actionPolicyId b ↔ ¬ List.Forall₂ Confusable a.toList b.toList) ∧
    (a ≠ b → ∀ (tables after : ObjectTables) (policy : ActionPolicy) (now : Int),
      (tables.objects.map (·.id)).Nodup → policy.scope = a → upsertActionPolicy tables policy now = .ok after →
        getActionPolicy after b = getActionPolicy tables b) := by
  refine ⟨survives_iff overrides, not_congr (actionPolicyId_eq_iff a b), ?_⟩
  rintro different tables after policy now unique rfl saved
  exact upsertActionPolicy_keeps unique different saved

def oneOverride (scope name : String) (decision : ActionDecision) : ActionPolicy :=
  ⟨scope, .requireApproval, ⟨[(name, decision)], nodup_singleton _⟩, .empty, none, none⟩

/-- A denied action whose name has a comma comes back as two others, of which one is allowed; and the scopes of two
agents have one id, so that the second policy is not stored. -/
theorem denied_comes_back_allowed :
    (storagePropertiesJson (oneOverride "agent:a" "archive:allow,delete" .deny).toProperties = .ok () ∧
      (oneOverride "agent:a" "archive:allow,delete" .deny).decide "archive" .write = .requireApproval ∧
      (ActionPolicy.fromProperties "agent:a" (oneOverride "agent:a" "archive:allow,delete" .deny).toProperties).map
        (·.decide "archive" .write) = .ok .allow) ∧
    actionPolicyId "agent:a" = actionPolicyId "agent-a" ∧
    (do
      let tables ← upsertActionPolicy .empty (oneOverride "agent:a" "archive" .deny) 0
      upsertActionPolicy tables (oneOverride "agent-a" "archive" .deny) 1).map (fun _ => ()) =
        .error "UNIQUE constraint failed: sekai_objects.id" := by
  refine ⟨⟨?_, ?_, ?_⟩, ?_, ?_⟩ <;> decide +kernel

end SekaiChisei.GovernedAction
