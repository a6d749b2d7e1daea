import Mathlib.Tactic.Common

/-! Byte strings behind a big-endian length of two bytes. -/

namespace SekaiChisei.Lib
open List

def be16 (n : Nat) : List UInt8 := [UInt8.ofNat (n / 256), UInt8.ofNat n]

theorem be16_inj {m n : Nat} (smallM : m < 65536) (smallN : n < 65536) (same : be16 m = be16 n) : m = n := by
  simp only [be16, cons.injEq, and_true] at same
  have high := congrArg UInt8.toNat same.1
  have low := congrArg UInt8.toNat same.2
  simp only [UInt8.toNat_ofNat'] at high low
  omega

def framed (bytes : List UInt8) : List UInt8 := be16 bytes.length ++ bytes

theorem framed_append_inj {a b r s : List UInt8} (shortA : a.length < 65536)
    (shortB : b.length < 65536) (same : framed a ++ r = framed b ++ s) : a = b ∧ r = s := by
  simp only [framed, append_assoc] at same
  obtain ⟨lengths, rest⟩ := append_inj same rfl
  have sameLength := be16_inj shortA shortB lengths
  exact append_inj rest sameLength

end SekaiChisei.Lib
