import Mathlib
import SekaiChisei.Lib.Fallible

/-!
Numbers as SQLite keeps them: INTEGERs of 64 bits, sums that leave them as REALs, and INTEGER affinity. The REALs here
have no fraction, so an `Int` is their value.
-/

namespace SekaiChisei.Lib

/-- The double next to `n`, the even significand on a tie. -/
def nearestDouble (n : Nat) : Nat :=
  let unit := 2 ^ (n.log2 - 52)
  let rest := n % unit
  if 2 * rest < unit ∨ (2 * rest = unit ∧ n / unit % 2 = 0) then n / unit * unit
  else (n / unit + 1) * unit

def toDouble (n : Int) : Int :=
  if 0 ≤ n then nearestDouble n.toNat else -nearestDouble (-n).toNat

theorem nearestDouble_near (n : Nat) : n / 2 ^ (n.log2 - 52) * 2 ^ (n.log2 - 52) ≤ nearestDouble n ∧
      2 * n ≤ 2 * nearestDouble n + 2 ^ (n.log2 - 52) ∧
      nearestDouble n ≤ n + 2 ^ (n.log2 - 52) ∧ 2 ^ (n.log2 - 52) ∣ nearestDouble n := by
  have rest := Nat.mod_lt n (Nat.two_pow_pos (n.log2 - 52))
  simp only [nearestDouble]
  generalize 2 ^ (n.log2 - 52) = unit at rest ⊢
  have parts := Nat.div_add_mod' n unit
  have up : (n / unit + 1) * unit = n / unit * unit + unit := Nat.succ_mul ..
  split
  · exact ⟨Nat.le_refl _, by omega, by omega, Nat.dvd_mul_left ..⟩
  · exact ⟨by omega, by omega, by omega, Nat.dvd_mul_left ..⟩

theorem le_nearestDouble {n t e : Nat} (unit : n.log2 - 52 ≤ e) (multiple : 2 ^ e ∣ t) (below : t ≤ n) :
    t ≤ nearestDouble n := by
  have divides : 2 ^ (n.log2 - 52) ∣ t := Nat.dvd_trans (Nat.pow_dvd_pow 2 unit) multiple
  calc
    t = t / 2 ^ (n.log2 - 52) * 2 ^ (n.log2 - 52) := (Nat.div_mul_cancel divides).symm
    _ ≤ n / 2 ^ (n.log2 - 52) * 2 ^ (n.log2 - 52) := Nat.mul_le_mul_right _ (Nat.div_le_div_right below)
    _ ≤ nearestDouble n := (nearestDouble_near n).1

theorem log2_eq {n k : Nat} (low : 2 ^ k ≤ n) (high : n < 2 ^ (k + 1)) : n.log2 = k := by
  have nonzero : n ≠ 0 := by
    omega
  exact (Nat.log2_eq_iff nonzero).mpr ⟨low, high⟩

theorem log2_lt {n k : Nat} (high : n < 2 ^ k) (positive : 0 < k) : n.log2 < k := by
  by_cases zero : n = 0
  · subst zero
    exact positive
  · exact (Nat.log2_lt zero).mpr high

/-- Two halves of a sum past the integers are rounded to no less. -/
theorem nearestDouble_add {a b : Nat} (small : a < 2 ^ 63) (ordered : b ≤ a) (past : 2 ^ 63 ≤ a + b) :
    2 ^ 63 ≤ nearestDouble (nearestDouble a + nearestDouble b) := by
  have logA : a.log2 = 62 := log2_eq (by omega) (by omega)
  obtain ⟨_, nearA, _, dvdA⟩ := nearestDouble_near a
  obtain ⟨_, _, aboveB, _⟩ := nearestDouble_near b
  obtain ⟨_, _, aboveA, _⟩ := nearestDouble_near a
  rw [logA] at nearA dvdA aboveA
  have lowA : 2 ^ 62 ≤ nearestDouble a := le_nearestDouble (e := 62) (by omega) (Nat.dvd_refl _) (by omega)
  have logB : b.log2 < 63 := log2_lt (by omega) (by omega)
  have unitB : 2 ^ (b.log2 - 52) ≤ 2 ^ 10 := Nat.pow_le_pow_right (by omega) (by omega)
  generalize nearestDouble a = A at *
  have lowB : 2 ^ 63 - 512 ≤ A + nearestDouble b := by
    obtain ⟨q, rfl⟩ := dvdA
    by_cases halfB : b < 2 ^ 62
    · have unit : b.log2 - 52 ≤ 9 := by
        have := log2_lt halfB (by omega)
        omega
      have multiple : 2 ^ 9 ∣ 2 ^ 63 - 512 - 2 ^ (62 - 52) * q := by
        by_cases large : 2 ^ 53 ≤ q
        · have : 2 ^ 63 - 512 - 2 ^ (62 - 52) * q = 0 := by omega
          rw [this]
          exact Nat.dvd_zero _
        · refine ⟨2 ^ 54 - 1 - 2 * q, by omega⟩
      have := le_nearestDouble unit multiple (by omega)
      omega
    · have := le_nearestDouble (n := b) (e := 62) (by omega) (Nat.dvd_refl _) (by omega)
      omega
  generalize nearestDouble b = B at *
  by_cases whole : 2 ^ 63 ≤ A + B
  · have logS : (A + B).log2 < 65 := log2_lt (by omega) (by omega)
    exact le_nearestDouble (e := 63) (by omega) (Nat.dvd_refl _) whole
  · have logS : (A + B).log2 = 62 := log2_eq (by omega) (by omega)
    unfold nearestDouble
    rw [logS]
    have quotient : (A + B) / 2 ^ (62 - 52) = 2 ^ 53 - 1 := by omega
    have rest : 512 ≤ (A + B) % 2 ^ (62 - 52) := by omega
    simp only [quotient]
    rw [if_neg (by omega)]
    omega

inductive SqlNumber where
  | integer (value : Int64)
  | real (value : Int)
  deriving DecidableEq

namespace SqlNumber

def value : SqlNumber → Int
  | integer n => n.toInt
  | real n => n

def double : SqlNumber → Int
  | integer n => toDouble n.toInt
  | real n => n

def add : SqlNumber → SqlNumber → SqlNumber
  | integer a, integer b =>
    if -2 ^ 63 ≤ a.toInt + b.toInt ∧ a.toInt + b.toInt < 2 ^ 63 then integer (a + b)
    else real (toDouble (toDouble a.toInt + toDouble b.toInt))
  | a, b => real (toDouble (a.double + b.double))

def stored : SqlNumber → SqlNumber
  | integer n => integer n
  | real n => if -2 ^ 63 < n ∧ n < 2 ^ 63 - 1 then integer (Int64.ofInt n) else real n

/-- `MAX(0, x)`, with the first argument on a tie. -/
def atLeastZero (x : SqlNumber) : SqlNumber :=
  if 0 < x.value then x else integer 0

theorem atLeastZero_nonneg (x : SqlNumber) : 0 ≤ x.atLeastZero.value := by
  unfold atLeastZero
  split
  · rename_i positive
    exact Int.le_of_lt positive
  · exact Int.le_of_eq Int64.toInt_zero.symm

theorem atLeastZero_integer {n : Int64} (nonneg : 0 ≤ n.toInt) : (integer n).atLeastZero = integer n := by
  unfold atLeastZero
  split
  · rfl
  · rename_i notPositive
    have zero : n.toInt = (0 : Int64).toInt := by
      exact Int.le_antisymm (Int.not_lt.mp notPositive) nonneg
    rw [Int64.toInt_inj.mp zero]

theorem value_stored (x : SqlNumber) : x.stored.value = x.value := by
  cases x with
  | integer n => rfl
  | real n =>
    rw [stored]
    split
    · rename_i inside
      exact Int64.toInt_ofInt_of_le (Int.le_of_lt inside.1) (by omega)
    · rfl

theorem toDouble_nonneg {n : Int} (nonneg : 0 ≤ n) : 0 ≤ toDouble n := by
  rw [toDouble, if_pos nonneg]
  exact Int.natCast_nonneg _

theorem double_nonneg {x : SqlNumber} (nonneg : 0 ≤ x.value) : 0 ≤ x.double := by
  cases x with
  | integer n => exact toDouble_nonneg nonneg
  | real n => exact nonneg

variable {a b : Int64}

theorem toInt_add_of_fits (low : -2 ^ 63 ≤ a.toInt + b.toInt)
    (high : a.toInt + b.toInt < 2 ^ 63) : (a + b).toInt = a.toInt + b.toInt := by
  rw [Int64.toInt_add]
  exact Int.bmod_eq_of_le (by omega) (by omega)

theorem toInt_sub_of_fits (low : -2 ^ 63 ≤ a.toInt - b.toInt)
    (high : a.toInt - b.toInt < 2 ^ 63) : (a - b).toInt = a.toInt - b.toInt := by
  rw [Int64.toInt_sub]
  exact Int.bmod_eq_of_le (by omega) (by omega)

theorem add_integer_of_fits (low : -2 ^ 63 ≤ a.toInt + b.toInt)
    (high : a.toInt + b.toInt < 2 ^ 63) : (integer a).add (integer b) = integer (a + b) :=
  if_pos ⟨low, high⟩

theorem add_nonneg {x y : SqlNumber} (left : 0 ≤ x.value) (right : 0 ≤ y.value) : 0 ≤ (x.add y).value := by
  have doubled : 0 ≤ toDouble (x.double + y.double) := by
    apply toDouble_nonneg
    exact Int.add_nonneg (double_nonneg left) (double_nonneg right)
  cases x with
  | real a => exact doubled
  | integer a =>
    cases y with
    | real b => exact doubled
    | integer b =>
      rw [add]
      split
      · rename_i fits
        change 0 ≤ (a + b).toInt
        rw [toInt_add_of_fits fits.1 fits.2]
        exact Int.add_nonneg left right
      · exact doubled

/-- A sum past the integers is past them as a double too. -/
theorem add_of_overflow (past : 2 ^ 63 ≤ a.toInt + b.toInt) : 2 ^ 63 ≤ ((integer a).add (integer b)).value := by
  have smallA := a.toInt_lt
  have smallB := b.toInt_lt
  have rounded : (2 : Int) ^ 63 ≤ toDouble (toDouble a.toInt + toDouble b.toInt) := by
    have doubleA : toDouble a.toInt = nearestDouble a.toInt.toNat := if_pos (by omega)
    have doubleB : toDouble b.toInt = nearestDouble b.toInt.toNat := if_pos (by omega)
    rw [doubleA, doubleB, ← Int.natCast_add, toDouble, Int.toNat_natCast]
    rcases Nat.le_total b.toInt.toNat a.toInt.toNat with ordered | ordered
    · have := nearestDouble_add (a := a.toInt.toNat) (by omega) ordered (by omega)
      omega
    · have := nearestDouble_add (a := b.toInt.toNat) (by omega) ordered (by omega)
      rw [Nat.add_comm]
      omega
  rw [add, if_neg (by omega)]
  exact rounded

/-- One row of `SUM` over INTEGERs: it fails where the total leaves the range. -/
def sumStep (total next : Int64) : Except String Int64 :=
  if -2 ^ 63 ≤ total.toInt + next.toInt ∧ total.toInt + next.toInt < 2 ^ 63 then .ok (total + next)
  else .error "integer overflow"

def sum (items : List Int64) : Except String Int64 :=
  items.foldlM sumStep 0

theorem sumStep_eq_ok {total next result : Int64} (run : sumStep total next = .ok result) :
    result.toInt = total.toInt + next.toInt := by
  unfold sumStep at run
  split at run
  · rename_i fits
    cases run
    exact toInt_add_of_fits fits.1 fits.2
  · cases run

theorem sum_eq_ok {items : List Int64} {total : Int64} (run : sum items = .ok total) :
    total.toInt = (items.map Int64.toInt).sum := by
  refine foldlM_ok_invariant (P := fun before acc => acc.toInt = (before.map Int64.toInt).sum) ?_ Int64.toInt_zero run
  intro before acc item acc' held step
  rw [sumStep_eq_ok step, held]
  simp

end SqlNumber

end SekaiChisei.Lib
