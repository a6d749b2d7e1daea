import Mathlib.Data.List.DropRight
import Mathlib.Data.List.Sort
import Mathlib.Data.Prod.Lex
import Mathlib.Data.String.Basic

/-! String operations of the Rust standard library, and ordered sets as sorted lists. -/

namespace SekaiChisei.Lib
open List Option String

/-- `char::is_whitespace`: the Unicode property `White_Space`. -/
def isWhitespace (c : Char) : Bool :=
  let n := c.toNat
  (9 ≤ n && n ≤ 13) || n == 0x20 || n == 0x85 || n == 0xA0 || n == 0x1680 ||
    (0x2000 ≤ n && n ≤ 0x200A) || n == 0x2028 || n == 0x2029 || n == 0x202F || n == 0x205F ||
    n == 0x3000

/-- `str::trim`. -/
def trim (s : String) : String :=
  String.ofList ((s.toList.dropWhile isWhitespace).rdropWhile isWhitespace)

/-- `value.map(str::trim).filter(|value| !value.is_empty())`. -/
def trimmed (value : Option String) : Option String :=
  (value.map trim).filter (· ≠ "")

variable {α : Type} {items : List α}

theorem mem_appended {item added : α} : item ∈ items ++ [added] ↔ item ∈ items ∨ item = added := by
  rw [mem_append, mem_singleton]

theorem dropWhile_rdropWhile_dropWhile (p : α → Bool) (l : List α) :
    ((l.dropWhile p).rdropWhile p).dropWhile p = (l.dropWhile p).rdropWhile p := by
  cases rest : l.dropWhile p with
  | nil => simp
  | cons first tail =>
    have kept : p first = false := by
      have stop := head_dropWhile_not p (l := l) (by simp [rest])
      simpa [rest] using stop
    have shape : (first :: tail).rdropWhile p ≠ [] := by
      intro empty
      have := (rdropWhile_eq_nil_iff.mp empty) first mem_cons_self
      simp [kept] at this
    obtain ⟨more, whole⟩ := rdropWhile_prefix p (first :: tail)
    cases cut : (first :: tail).rdropWhile p with
    | nil => exact absurd cut shape
    | cons head rest' =>
      rw [cut] at whole
      obtain rfl : head = first := by simpa using congrArg List.head? whole
      rw [dropWhile_cons, kept]
      rfl

theorem trim_trim (s : String) : trim (trim s) = trim s := by
  simp only [trim, toList_ofList]
  rw [dropWhile_rdropWhile_dropWhile, rdropWhile_idempotent]

variable {s : String}

theorem trim_of_all (dense : ∀ c ∈ s.toList, isWhitespace c = false) : trim s = s := by
  have front : s.toList.dropWhile isWhitespace = s.toList := by
    rw [dropWhile_eq_self_iff]
    intro nonempty
    simp [dense _ (getElem_mem nonempty)]
  have back : s.toList.rdropWhile isWhitespace = s.toList := by
    rw [rdropWhile_eq_self_iff]
    intro nonempty
    simp [dense _ (getLast_mem nonempty)]
  rw [trim, front, back, ofList_toList]

variable {c : Char} {token : String}

theorem mem_trim (member : c ∈ s.toList) (visible : isWhitespace c = false) : c ∈ (trim s).toList := by
  have kept : ∀ l : List Char, c ∈ l → c ∈ l.dropWhile isWhitespace := by
    intro l inside
    rw [← List.takeWhile_append_dropWhile (p := isWhitespace) (l := l)] at inside
    rcases mem_append.mp inside with early | late
    · exact absurd (mem_takeWhile_imp early) (by simp [visible])
    · exact late
  rw [trim, toList_ofList, List.rdropWhile, mem_reverse]
  exact kept _ (mem_reverse.mpr (kept _ member))

theorem mem_of_trim (member : c ∈ (trim s).toList) : c ∈ s.toList := by
  rw [trim, toList_ofList, List.rdropWhile, mem_reverse] at member
  exact (dropWhile_sublist _).subset (mem_reverse.mp ((dropWhile_sublist _).subset member))

theorem trim_ne_empty (member : c ∈ s.toList) (visible : isWhitespace c = false) : trim s ≠ "" := by
  intro empty
  have inside := mem_trim member visible
  rw [empty] at inside
  cases inside

theorem trimmed_some_eq (token : String) :
    trimmed (some token) = if trim token = "" then none else some (trim token) := by
  by_cases empty : trim token = "" <;> simp [trimmed, filter_some, empty]

theorem trimmed_eq_some {value : Option String} (found : trimmed value = some token) :
    trim token = token ∧ token ≠ "" := by
  simp only [trimmed, filter_eq_some_iff, map_eq_some_iff] at found
  obtain ⟨⟨raw, _, rfl⟩, nonempty⟩ := found
  exact ⟨trim_trim raw, by simpa using nonempty⟩

theorem trimmed_some (same : trim token = token) (nonempty : token ≠ "") : trimmed (some token) = some token := by
  rw [trimmed_some_eq, same, if_neg nonempty]

/-- Two runs of one class of characters, each ended by another character. -/
theorem run_inj {p : Char → Bool} {a b r s : List Char} {d : Char} (inA : ∀ x ∈ a, p x)
    (inB : ∀ x ∈ b, p x) (endA : p c = false) (endB : p d = false)
    (same : a ++ c :: r = b ++ d :: s) : a = b ∧ c = d ∧ r = s := by
  induction a generalizing b with
  | nil =>
    cases b with
    | nil => simpa using same
    | cons y b =>
      obtain rfl : c = y := by simpa using congrArg List.head? same
      simp [inB c mem_cons_self] at endA
  | cons x a ih =>
    cases b with
    | nil =>
      obtain rfl : x = d := by simpa using congrArg List.head? same
      simp [inA x mem_cons_self] at endB
    | cons y b =>
      rw [cons_append, cons_append, cons.injEq] at same
      obtain ⟨rfl, tails⟩ := same
      obtain ⟨rfl, ends⟩ := ih (fun x member => inA x (mem_cons_of_mem _ member))
        (fun x member => inB x (mem_cons_of_mem _ member)) tails
      exact ⟨rfl, ends⟩

variable {a : String}

theorem nul_append_inj {b r : String} (freeA : '\x00' ∉ a.toList) (freeB : '\x00' ∉ b.toList)
    (same : a ++ ("\x00" ++ r) = b ++ ("\x00" ++ s)) : a = b ∧ r = s := by
  have chars := congrArg String.toList same
  simp only [toList_append] at chars
  obtain ⟨starts, _, rests⟩ := run_inj (p := (· ≠ '\x00'))
    (fun x member => by simpa using ne_of_mem_of_not_mem member freeA)
    (fun x member => by simpa using ne_of_mem_of_not_mem member freeB) (by decide) (by decide) chars
  exact ⟨toList_injective starts, toList_injective rests⟩

/-- `str::split`. -/
def splitAll (c : Char) (s : String) : List String :=
  (s.toList.splitOn c).map String.ofList

/-- `str::split_once`: what is before and after the first `c`. -/
def splitOnce (c : Char) (s : String) : Option (String × String) :=
  if c ∈ s.toList then
    some (.ofList (s.toList.takeWhile (· ≠ c)), .ofList (s.toList.dropWhile (· ≠ c)).tail)
  else none

/-- `str::rsplit_once`: what is before and after the last `c`. -/
def rsplitOnce (c : Char) (s : String) : Option (String × String) :=
  if c ∈ s.toList then
    some (.ofList (s.toList.rdropWhile (· ≠ c)).dropLast, .ofList (s.toList.rtakeWhile (· ≠ c)))
  else none

theorem splitAll_of_free (free : c ∉ s.toList) : splitAll c s = [s] := by
  rw [splitAll, splitOn_eq_singleton free, map_singleton, ofList_toList]

theorem toList_separated (a b : String) (c : Char) :
    (a ++ String.singleton c ++ b).toList = a.toList ++ c :: b.toList := by
  simp [toList_append]

theorem splitAll_append (s t : String) : splitAll c (s ++ String.singleton c ++ t) = splitAll c s ++ splitAll c t := by
  rw [splitAll, splitAll, splitAll, toList_separated, splitOn_append_cons_self, map_append]

theorem mem_intercalate {d : Char} (other : d ≠ c) (parts : List String) :
    d ∈ ((String.singleton c).intercalate parts).toList ↔ ∃ part ∈ parts, d ∈ part.toList := by
  induction parts with
  | nil => simp
  | cons first rest ih =>
    cases rest with
    | nil => simp
    | cons second rest =>
      rw [String.intercalate_cons_cons, toList_separated, mem_append, mem_cons, ih]
      simp only [other, false_or, exists_mem_cons_iff]

theorem splitAll_intercalate (c : Char) {parts : List String} (nonempty : parts ≠ []) :
    splitAll c ((String.singleton c).intercalate parts) = parts.flatMap (splitAll c) := by
  induction parts with
  | nil => exact absurd rfl nonempty
  | cons first rest ih =>
    cases rest with
    | nil => simp
    | cons second rest =>
      rw [String.intercalate_cons_cons, splitAll_append, ih (cons_ne_nil _ _)]
      rfl

theorem toList_intercalate (parts : List String) :
    ((String.singleton c).intercalate parts).toList = [c].intercalate (parts.map String.toList) := by
  induction parts with
  | nil => rfl
  | cons first rest ih =>
    cases rest with
    | nil => simp [List.intercalate]
    | cons second rest =>
      simp [List.intercalate]

theorem intercalate_splitAll (c : Char) (s : String) : (String.singleton c).intercalate (splitAll c s) = s := by
  apply toList_injective
  rw [toList_intercalate, splitAll, List.map_map]
  have same : String.toList ∘ String.ofList = id := funext fun chars => toList_ofList
  rw [same, List.map_id]
  exact intercalate_splitOn c

theorem free_of_mem_splitAll {piece : String} (member : piece ∈ splitAll c s) : c ∉ piece.toList := by
  obtain ⟨chars, inside, rfl⟩ := List.mem_map.mp member
  rw [toList_ofList]
  clear member
  generalize s.toList = text at inside
  induction text generalizing chars with
  | nil =>
    rw [splitOn_nil, mem_singleton] at inside
    rw [inside]
    exact not_mem_nil
  | cons x text ih =>
    rw [splitOn_cons_eq_if_modifyHead] at inside
    split at inside
    · rcases mem_cons.mp inside with rfl | later
      · exact not_mem_nil
      · exact ih chars later
    · rename_i other
      cases pieces : text.splitOn c with
      | nil => exact absurd pieces (splitOn_ne_nil _ _)
      | cons first rest =>
        rw [pieces] at inside ih
        rcases mem_cons.mp inside with rfl | later
        · rw [mem_cons, not_or]
          exact ⟨fun same => other (by simp [same]), ih first mem_cons_self⟩
        · exact ih chars (mem_cons_of_mem _ later)

/-- The last piece of a text, to which what is added goes, and the pieces before it. -/
theorem splitAll_shape (c : Char) (s : String) : ∃ front last, splitAll c s = front ++ [last] ∧
    (front = [] → s = last) ∧ ∀ t : String, c ∉ t.toList → splitAll c (s ++ t) = front ++ [last ++ t] := by
  by_cases present : c ∈ s.toList
  · obtain ⟨after, before, reversed, free⟩ := eq_append_cons_of_mem (mem_reverse.mpr present)
    have chars : s.toList = before.reverse ++ c :: after.reverse := by
      rw [← reverse_reverse s.toList, reversed]
      simp
    have freeLast : c ∉ (String.ofList after.reverse).toList := by
      rw [toList_ofList, mem_reverse]
      exact free
    have shape : s = String.ofList before.reverse ++ String.singleton c ++ String.ofList after.reverse := by
      apply toList_injective
      rw [toList_separated, chars, toList_ofList, toList_ofList]
    refine ⟨splitAll c (String.ofList before.reverse), String.ofList after.reverse, ?_, ?_, ?_⟩
    · conv_lhs => rw [shape]
      rw [splitAll_append, splitAll_of_free freeLast]
    · intro none
      exact absurd (map_eq_nil_iff.mp none) (splitOn_ne_nil _ _)
    · intro t freeT
      have freeBoth : c ∉ (String.ofList after.reverse ++ t).toList := by
        rw [toList_append, mem_append, not_or]
        exact ⟨freeLast, freeT⟩
      conv_lhs => rw [shape]
      rw [String.append_assoc, splitAll_append, splitAll_of_free freeBoth]
  · refine ⟨[], s, splitAll_of_free present, fun _ => rfl, ?_⟩
    intro t freeT
    have freeBoth : c ∉ (s ++ t).toList := by
      rw [toList_append, mem_append, not_or]
      exact ⟨present, freeT⟩
    exact splitAll_of_free freeBoth

theorem splitOnce_append (free : c ∉ a.toList) (b : String) :
    splitOnce c (a ++ String.singleton c ++ b) = some (a, b) := by
  have before : ∀ x ∈ a.toList, decide (x ≠ c) = true := by
    intro x member
    simpa using ne_of_mem_of_not_mem member free
  rw [splitOnce, toList_separated, if_pos (mem_append_right _ mem_cons_self),
    takeWhile_append_of_pos before, dropWhile_append_of_pos before]
  simp

theorem splitOnce_eq_some {b : String} (cut : splitOnce c s = some (a, b)) :
    c ∉ a.toList ∧ ∀ x ∈ a.toList, x ∈ s.toList := by
  rw [splitOnce] at cut
  split at cut
  · cases cut
    rw [toList_ofList]
    constructor
    · intro member
      simpa using mem_takeWhile_imp member
    · intro x member
      exact (takeWhile_sublist _).subset member
  · cases cut

theorem exists_cut (present : c ∈ s.toList) :
    ∃ before after : String, c ∉ before.toList ∧ s = before ++ String.singleton c ++ after := by
  obtain ⟨before, after, chars, free⟩ := eq_append_cons_of_mem present
  refine ⟨String.ofList before, String.ofList after, by rwa [toList_ofList], ?_⟩
  apply toList_injective
  rw [toList_separated, toList_ofList, toList_ofList, chars]

/-- `sort_by_key`, which is stable. -/
def sortByKey {α : Type} (key : α → String) (items : List α) : List α :=
  items.mergeSort fun a b => key a ≤ key b

/-- `Vec::dedup`: of equal neighbours one is kept. -/
def dedup {α : Type} [DecidableEq α] : List α → List α
  | [] => []
  | [a] => [a]
  | a :: b :: rest => if a = b then dedup (b :: rest) else a :: dedup (b :: rest)

theorem mem_dedup [DecidableEq α] {x : α} : x ∈ dedup items ↔ x ∈ items := by
  fun_induction dedup items with
  | case1 => rfl
  | case2 => rfl
  | case3 b rest ih => simp [ih]
  | case4 a b rest _ ih => simp [ih]

theorem mem_sortByKey {key : α → String} {x : α} : x ∈ sortByKey key items ↔ x ∈ items :=
  (mergeSort_perm _ _).mem_iff

theorem dedup_sublist [DecidableEq α] (items : List α) : (dedup items).Sublist items := by
  fun_induction dedup items with
  | case1 => exact .slnil
  | case2 => exact .refl _
  | case3 b rest ih => exact ih.cons b
  | case4 a b rest _ ih => exact ih.cons_cons a

section Keyed
variable {β : Type} [DecidableEq α] [LinearOrder β] {key : α → β} (injective : key.Injective)
include injective

theorem dedup_pairwise (sorted : items.Pairwise (key · ≤ key ·)) : (dedup items).Pairwise (key · < key ·) := by
  fun_induction dedup items with
  | case1 => exact .nil
  | case2 => exact pairwise_singleton ..
  | case3 b rest ih => exact ih sorted.of_cons
  | case4 a b rest different ih =>
    obtain ⟨least, sorted⟩ := pairwise_cons.mp sorted
    refine pairwise_cons.mpr ⟨?_, ih sorted⟩
    have below := lt_of_le_of_ne (least b mem_cons_self) (injective.ne different)
    intro c member
    rcases mem_cons.mp (mem_dedup.mp member) with rfl | later
    · exact below
    · exact below.trans_le ((pairwise_cons.mp sorted).1 c later)

/-- What is sorted by a key of its own and stripped of repetitions depends on its members only. -/
theorem dedup_mergeSort_congr {le : α → α → Bool} (byKey : ∀ a b, le a b ↔ key a ≤ key b) {others : List α}
    (same : ∀ x, x ∈ items ↔ x ∈ others) : dedup (items.mergeSort le) = dedup (others.mergeSort le) := by
  have ordered (l : List α) : (l.mergeSort le).Pairwise (le · ·) := by
    apply pairwise_mergeSort
    · intro a b c
      simpa only [byKey] using le_trans
    · intro a b
      simpa only [Bool.or_eq_true, byKey] using le_total (key a) (key b)
  have sorted (l : List α) : ((dedup (l.mergeSort le)).map key).Pairwise (· < ·) :=
    pairwise_map.mpr (dedup_pairwise injective ((ordered l).imp (byKey _ _).mp))
  refine injective.list_map ((sorted items).eq_of_mem_iff (sorted others) ?_)
  simp [mem_dedup, same]

end Keyed

section Sets
variable {α : Type} [LinearOrder α]

/-- `BTreeSet::insert`, on the elements in order. -/
def setInsert (a : α) (set : List α) : List α :=
  if a ∈ set then set else set.orderedInsert (· ≤ ·) a

theorem mem_setInsert {a b : α} {set : List α} : b ∈ setInsert a set ↔ b = a ∨ b ∈ set := by
  unfold setInsert
  split
  · rename_i member
    constructor
    · exact .inr
    · rintro (rfl | old)
      · exact member
      · exact old
  · rw [mem_orderedInsert]

/-- `BTreeSet::insert` on pairs, which are ordered lexicographically. -/
def pairInsert (a : α × α) (set : List (α × α)) : List (α × α) :=
  (setInsert (toLex a) (set.map toLex)).map ofLex

theorem mem_pairInsert {a b : α × α} {set : List (α × α)} : b ∈ pairInsert a set ↔ b = a ∨ b ∈ set := by
  simp only [pairInsert, List.mem_map]
  constructor
  · rintro ⟨c, member, rfl⟩
    rcases mem_setInsert.mp member with rfl | old
    · exact .inl rfl
    · obtain ⟨d, inside, rfl⟩ := List.mem_map.mp old
      exact .inr inside
  · rintro (rfl | old)
    · exact ⟨toLex b, mem_setInsert.mpr (.inl rfl), rfl⟩
    · exact ⟨toLex b, mem_setInsert.mpr (.inr (List.mem_map_of_mem old)), rfl⟩

end Sets

end SekaiChisei.Lib
