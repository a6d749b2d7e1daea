import SekaiChisei.Parquet.Grammar
import SekaiChisei.Parquet.Read

/-!
Every reader of the metadata comes back where the field ids of what it reads fit.
-/

namespace SekaiChisei.Parquet
open Lib Lib.Outcome List

def CompactReader.rest (r : CompactReader) : List UInt8 := r.data.bytes.drop r.pos

/-- The reader has moved inside its input, by `least` bytes at least. -/
structure Moved (least : Nat) (r later : CompactReader) : Prop where
  data : later.data = r.data
  lastId : later.lastId = r.lastId
  stack : later.stack = r.stack
  moved : r.pos + least ≤ later.pos
  inside : later.pos ≤ later.data.len

variable {r r₁ r₂ : CompactReader}

theorem Moved.refl (inside : r.pos ≤ r.data.len) : Moved 0 r r := ⟨rfl, rfl, rfl, Nat.le_refl _, inside⟩

theorem Moved.trans {m n least : Nat} (first : Moved m r r₁) (second : Moved n r₁ r₂)
    (fewer : least ≤ m + n) : Moved least r r₂ := by
  refine ⟨second.data.trans first.data, second.lastId.trans first.lastId, second.stack.trans first.stack, ?_,
    second.inside⟩
  have := first.moved
  have := second.moved
  omega

section Takes
variable {α β : Type}

/-- Where the field ids of `parts` fit, `p` comes back; a value that it returns is read from `parts`. -/
def Takes (parts : List Part) (p : Parse α) : Prop :=
  ∀ (r : CompactReader) (more : List Part), r.pos ≤ r.data.len → Walk.Fits ⟨parts ++ more, r.rest⟩ →
    (p r).Meets fun out => Moved 0 r out.2 ∧ Walk.Reaches ⟨parts ++ more, r.rest⟩ ⟨more, out.2.rest⟩

variable {parts parts' : List Part} {p : Parse α} {ty : UInt8}

/-- A value whose head was read is taken with its parts. -/
theorem Takes.after {p : Parse β} (takes : Takes parts p) {least : Nat} {more : List Part} (moved : Moved least r r₁)
    (fits : Walk.Fits ⟨.value ty :: more, r.rest⟩) (read : partsOf ty r.rest = some (parts, r₁.rest)) :
    (p r₁).Meets fun out => Moved 0 r out.2 ∧ Walk.Reaches ⟨.value ty :: more, r.rest⟩ ⟨more, out.2.rest⟩ := by
  have step : Walk.Reaches ⟨.value ty :: more, r.rest⟩ ⟨parts ++ more, r₁.rest⟩ :=
    Walk.reaches_next (by rw [Walk.next, read]; rfl)
  refine (takes r₁ more moved.inside (fits.reached step)).mono ?_
  rintro out ⟨further, reached⟩
  exact ⟨moved.trans further (by omega), step.trans reached⟩

section
variable {f : Int → UInt8 → β → Parse β} (body : ∀ id ty acc, Takes [.value ty] (f id ty acc))
include body

end

end Takes

section
variable (id : Int) (ty : UInt8)

end

end SekaiChisei.Parquet
