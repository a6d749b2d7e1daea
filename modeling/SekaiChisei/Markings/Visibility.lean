import SekaiChisei.Lib.Sql
import SekaiChisei.Markings.Laundering
import SekaiChisei.Objects.Tables

/-! The marking condition of the corpus query, `build_marking_visibility_filter` of `db/sekai.rs`, against the decision
in memory. SQLite strips spaces only. -/

namespace SekaiChisei.Markings
open Lib Objects

def objectClassificationProperty : String := "access_marking"

def objectMarkingToken (object : Object) : Option String :=
  trimmed (object.properties.get objectClassificationProperty)

/-- An unknown token is no marking, and nothing is an error. -/
def objectClassification (object : Object) : Except String (Option EvidenceClassification) :=
  match objectMarkingToken object with
  | none => .ok none
  | some value => .ok (knownClassification value)

/-- `TRIM(text)` of SQLite. -/
def sqliteTrim (text : String) : String :=
  String.ofList ((text.toList.dropWhile (· = ' ')).rdropWhile (· = ' '))

/-- `LOWER(TRIM(json_extract(properties, '$.access_marking')))`; `LOWER` changes ASCII letters only. -/
def markingExpr (object : Object) : Option String :=
  (object.properties.get objectClassificationProperty).map fun value => (sqliteTrim value).toLower

def closedMarkings : List String := ["public", "internal", "confidential", "restricted"]

def buildMarkingVisibilityFilter (allowedMarkings : Option (List String)) (trusted : Bool) (object : Object) :
    Sql.Truth :=
  match allowedMarkings with
  | none => some true
  | some allowed =>
    if trusted then some true
    else
      let marking := markingExpr object
      let unmarked := Sql.or (Sql.or (some marking.isNone) (Sql.eq marking (some "")))
        (Sql.not (Sql.anyOf marking closedMarkings))
      if allowed = [] then unmarked else Sql.or unmarked (Sql.anyOf marking allowed)

/-- The built-in classifications at or below the ceiling, and none without one. -/
def allowedMarkings (ceiling : Option EvidenceClassification) : List String :=
  ([.pub, .internal, .confidential, .restricted].filter fun marking : EvidenceClassification =>
    ceiling.any (marking.ordinal ≤ ·.ordinal)).map EvidenceClassification.asStr

def Cleared (ceiling : Option EvidenceClassification) (marking : EvidenceClassification) : Prop :=
  ∃ held, ceiling = some held ∧ marking.ordinal ≤ held.ordinal

variable {object : Object} {value : String} {marking : EvidenceClassification} {ceiling : Option EvidenceClassification}
  {text : String}

theorem mem_allowedMarkings : marking.asStr ∈ allowedMarkings ceiling ↔ Cleared ceiling marking := by
  unfold Cleared
  cases ceiling with
  | none => cases marking <;> simp [allowedMarkings]
  | some held => cases held <;> cases marking <;> decide +revert

theorem mem_closedMarkings : text ∈ closedMarkings ↔ ∃ marking : EvidenceClassification, text = marking.asStr := by
  constructor
  · intro member
    simp only [closedMarkings, List.mem_cons, List.not_mem_nil, or_false] at member
    rcases member with rfl | rfl | rfl | rfl
    exacts [⟨.pub, rfl⟩, ⟨.internal, rfl⟩, ⟨.confidential, rfl⟩, ⟨.restricted, rfl⟩]
  · rintro ⟨marking, rfl⟩
    cases marking <;> decide

theorem parseClassification_eq_ok : parseClassification value = .ok marking ↔ (trim value).toLower = marking.asStr := by
  unfold parseClassification
  split <;> rename_i text
  on_goal 5 => cases marking <;> simp_all [EvidenceClassification.asStr]
  all_goals
    rw [text]
    cases marking <;> decide

theorem knownClassification_eq_some :
    knownClassification value = some marking ↔ (trim value).toLower = marking.asStr := by
  unfold knownClassification parseOptionalClassification
  by_cases empty : trim value = ""
  · rw [empty]
    cases marking <;> decide +kernel
  · have read := @parseClassification_eq_ok (trim value) marking
    rw [trim_trim] at read
    rw [if_neg empty, ← read]
    cases parseClassification (trim value) <;> simp [Except.map]

theorem filter_admits (stored : object.properties.get objectClassificationProperty = some value) :
    buildMarkingVisibilityFilter (some (allowedMarkings ceiling)) false object = some true ↔
      ∀ marking : EvidenceClassification, (sqliteTrim value).toLower = marking.asStr → Cleared ceiling marking := by
  have expr : markingExpr object = some (sqliteTrim value).toLower := by
    rw [markingExpr, stored]
    rfl
  generalize (sqliteTrim value).toLower = text at expr ⊢
  have empty : text = "" → text ∉ closedMarkings := by
    rintro rfl
    decide
  have holds : buildMarkingVisibilityFilter (some (allowedMarkings ceiling)) false object = some true ↔
      text ∉ closedMarkings ∨ text ∈ allowedMarkings ceiling := by
    by_cases none : allowedMarkings ceiling = []
    all_goals
      simp [buildMarkingVisibilityFilter, expr, none, Sql.or_eq_true, Sql.eq, Sql.not, Sql.anyOf]
      tauto
  rw [holds]
  constructor
  · rintro admitted marking rfl
    exact mem_allowedMarkings.mp (admitted.resolve_left (not_not.mpr (mem_closedMarkings.mpr ⟨marking, rfl⟩)))
  · intro cleared
    by_cases marked : text ∈ closedMarkings
    · obtain ⟨marking, rfl⟩ := mem_closedMarkings.mp marked
      exact .inr (mem_allowedMarkings.mpr (cleared marking rfl))
    · exact .inl marked

theorem toLower_of_isWhitespace {c : Char} (space : isWhitespace c = true) : c.toLower = c := by
  rw [Char.toLower, dif_neg]
  rintro ⟨low, high⟩
  have low : 65 ≤ c.toNat := UInt32.le_iff_toNat_le.mp low
  have high : c.toNat ≤ 90 := UInt32.le_iff_toNat_le.mp high
  simp only [isWhitespace, Bool.or_eq_true, Bool.and_eq_true, decide_eq_true_eq, beq_iff_eq] at space
  omega

theorem visible_of_toLower (named : text.toLower = marking.asStr) : ∀ c ∈ text.toList, isWhitespace c = false := by
  intro c member
  have lowered : c.toLower ∈ marking.asStr.toList := by
    rw [← named, String.toLower, String.toList_map]
    exact List.mem_map_of_mem member
  have letters : ∀ d ∈ marking.asStr.toList, isWhitespace d = false := by
    cases marking <;> simp [EvidenceClassification.asStr, isWhitespace]
  cases space : isWhitespace c with
  | false => rfl
  | true =>
    rw [toLower_of_isWhitespace space] at lowered
    rw [← space, letters c lowered]

theorem dropWhile_dropWhile_of_imp {p q : Char → Bool} (weaker : ∀ c, q c → p c) (l : List Char) :
    (l.dropWhile q).dropWhile p = l.dropWhile p := by
  induction l with
  | nil => rfl
  | cons c rest ih =>
    by_cases stripped : q c
    · rw [List.dropWhile_cons_of_pos stripped, List.dropWhile_cons_of_pos (weaker c stripped), ih]
    · rw [List.dropWhile_cons_of_neg stripped]

/-- What is a classification once the spaces are gone has no other white space around it. -/
theorem trim_of_sqliteTrim (named : (sqliteTrim value).toLower = marking.asStr) : trim value = sqliteTrim value := by
  have spaces : ∀ c, decide (c = ' ') = true → isWhitespace c = true := by
    intro c space
    rw [of_decide_eq_true space]
    decide
  have visible := visible_of_toLower named
  have nonempty : sqliteTrim value ≠ "" := by
    intro empty
    rw [empty] at named
    cases marking <;> exact absurd named (by decide +kernel)
  have twice : ∀ l : List Char, (l.rdropWhile (· = ' ')).rdropWhile isWhitespace = l.rdropWhile isWhitespace := by
    intro l
    rw [List.rdropWhile, List.rdropWhile, List.rdropWhile, List.reverse_reverse, dropWhile_dropWhile_of_imp spaces]
  rw [trim, ← dropWhile_dropWhile_of_imp spaces]
  rw [sqliteTrim] at visible nonempty ⊢
  generalize value.toList.dropWhile (· = ' ') = kept at *
  rw [String.toList_ofList] at visible
  have front : kept.dropWhile isWhitespace = kept := by
    obtain ⟨more, whole⟩ := List.rdropWhile_prefix (· = ' ') kept
    cases core : kept.rdropWhile (· = ' ') with
    | nil => exact absurd (congrArg String.ofList core) nonempty
    | cons first tail =>
      rw [core] at visible whole
      rw [← whole, List.cons_append, List.dropWhile_cons_of_neg (by simp [visible first List.mem_cons_self])]
  have back : kept.rdropWhile isWhitespace = kept.rdropWhile (· = ' ') := by
    rw [← twice, List.rdropWhile_eq_self_iff]
    intro nonempty
    simp [visible _ (List.getLast_mem nonempty)]
  rw [front, back]

theorem objectClassification_eq :
    objectClassification object =
      .ok ((object.properties.get objectClassificationProperty).bind knownClassification) := by
  rw [bind_known_trimmed, objectClassification, objectMarkingToken]
  cases trimmed (object.properties.get objectClassificationProperty) <;> rfl

/-- The query admits what the decision does not deny, for every principal that is not trusted, exactly when only
spaces are around a marking that is a classification. -/
theorem visibility_decides_iff (object : Object) :
    (∀ authority marking, ¬ isTrustedServicePrincipal authority.principal → objectClassification object = .ok marking →
      (buildMarkingVisibilityFilter (some (allowedMarkings authority.classificationCeiling)) false object = some true ↔
        (evaluateMarkingAccess marking authority).decision ≠ .deny)) ↔
    ∀ value ∈ object.properties.get objectClassificationProperty, (knownClassification value).isSome →
      sqliteTrim value = trim value := by
  rw [objectClassification_eq]
  cases stored : object.properties.get objectClassificationProperty with
  | none =>
    have admitted : ∀ allowed, buildMarkingVisibilityFilter (some allowed) false object = some true := by
      intro allowed
      by_cases none : allowed = [] <;> simp [buildMarkingVisibilityFilter, markingExpr, stored, none, Sql.or]
    refine iff_of_true ?_ (by rintro _ ⟨⟩)
    rintro authority marking _ ⟨⟩
    exact iff_of_true (admitted _) (by rintro ⟨⟩)
  | some value =>
    have decided : ∀ authority : PrincipalAuthority, ¬ isTrustedServicePrincipal authority.principal →
        ((evaluateMarkingAccess (knownClassification value) authority).decision ≠ .deny ↔
          ∀ marking : EvidenceClassification, (trim value).toLower = marking.asStr →
            Cleared authority.classificationCeiling marking) := by
      intro authority untrusted
      refine (@readable_ordinal (some value) authority).trans (forall_congr' fun marking => ?_)
      rw [Option.bind_some, knownClassification_eq_some, or_iff_right untrusted, Cleared]
    constructor
    · rintro decides _ ⟨⟩ known
      obtain ⟨marking, known⟩ := Option.isSome_iff_exists.mp known
      have untrusted : ¬ isTrustedServicePrincipal "" := by decide
      by_contra different
      have admitted := (@filter_admits object value none stored).mpr fun marking named =>
        absurd (trim_of_sqliteTrim named).symm different
      have cleared := (decided ⟨"", none, none⟩ untrusted).mp ((decides _ _ untrusted rfl).mp admitted)
      obtain ⟨held, none, _⟩ := cleared marking (knownClassification_eq_some.mp known)
      cases none
    · rintro spaced authority _ untrusted ⟨⟩
      rw [filter_admits stored]
      refine Iff.trans (forall_congr' fun marking => ?_) (decided authority untrusted).symm
      have same : (sqliteTrim value).toLower = marking.asStr ↔ (trim value).toLower = marking.asStr := by
        constructor
        · intro named
          rw [trim_of_sqliteTrim named, named]
        · intro named
          rw [spaced value rfl (Option.isSome_iff_exists.mpr ⟨marking, knownClassification_eq_some.mpr named⟩), named]
      rw [same]

def tabbed : Object := ⟨"o", "Host", "web", "default", "", ⟨[("access_marking", "restricted\t")], by simp⟩, 0, 0⟩

/-- A principal without a ceiling may not read the object, and finds it in the corpus. -/
theorem tabbed_admitted : objectClassification tabbed = .ok (some .restricted) ∧
    (evaluateMarkingAccess (some .restricted) ⟨"agent:a", none, none⟩).decision = .deny ∧
    buildMarkingVisibilityFilter (some (allowedMarkings none)) false tabbed = some true := by
  decide +kernel

end SekaiChisei.Markings
