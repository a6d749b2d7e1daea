import Mathlib.Tactic.Common

/-! Zigzag coding of signed words, at every width. -/

namespace SekaiChisei.Lib

/-- `(v << 1) ^ (v >> (bits - 1))`, the second shift arithmetic. -/
def zigzag {w : Nat} (v : BitVec (w + 1)) : BitVec (w + 1) := (v <<< 1) ^^^ v.sshiftRight w

def unzigzag {w : Nat} (n : BitVec (w + 1)) : BitVec (w + 1) := (n >>> 1) ^^^ -(n &&& 1#(w + 1))

theorem getLsbD_zigzag_succ {w : Nat} (v : BitVec (w + 1)) {i : Nat} (h : i < w) :
    (zigzag v).getLsbD (i + 1) = (v.getLsbD i ^^ v.msb) := by
  simp only [zigzag, BitVec.getLsbD_xor, BitVec.getLsbD_shiftLeft, BitVec.getLsbD_sshiftRight]
  simp [show i + 1 < w + 1 by omega, show ¬ (w + 1 ≤ i + 1) by omega]

theorem zigzag_and_one {w : Nat} (v : BitVec (w + 1)) :
    zigzag v &&& 1#(w + 1) = if v.msb then 1#(w + 1) else 0#(w + 1) := by
  have low : (zigzag v).getLsbD 0 = v.msb := by
    simp only [zigzag, BitVec.getLsbD_xor, BitVec.getLsbD_shiftLeft, BitVec.getLsbD_sshiftRight]
    cases w <;> simp [BitVec.msb_eq_getLsbD_last]
  ext i hi
  rw [BitVec.getElem_and, BitVec.getElem_one]
  by_cases first : i = 0
  · subst first
    rw [← BitVec.getLsbD_eq_getElem, low]
    cases v.msb <;> simp
  · cases v.msb <;> simp [first]

theorem unzigzag_zigzag {w : Nat} (v : BitVec (w + 1)) : unzigzag (zigzag v) = v := by
  rw [unzigzag, zigzag_and_one]
  ext i hi
  rw [BitVec.getElem_xor, BitVec.getElem_ushiftRight, Nat.add_comm 1 i]
  by_cases last : i < w
  · rw [getLsbD_zigzag_succ v last, BitVec.getLsbD_eq_getElem hi]
    cases v.msb
    · simp
    · simp [BitVec.neg_one_eq_allOnes]
  · have top : i = w := by omega
    subst top
    have high : (zigzag v).getLsbD (i + 1) = false := BitVec.getLsbD_of_ge _ _ (by omega)
    have sign : v[i] = v.msb := by simp [BitVec.msb_eq_getLsbD_last]
    rw [high, sign]
    cases v.msb
    · simp
    · simp [BitVec.neg_one_eq_allOnes]
end SekaiChisei.Lib
