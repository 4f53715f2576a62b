import RedBlue.Edit.Pieces
import RedBlue.Tier.Chain

/-! # Rows with padding

A picture of four-byte pixels whose rows begin at a fixed distance. What lies between the end of
a row and the start of the next one is never read or written. -/

namespace RedBlue

/-- The layout of rows: their number, the pixels in each, and the bytes from the start of one to
the start of the next. -/
structure Rows where
  width : Nat
  height : Nat
  stride : Nat
deriving DecidableEq

namespace Rows

/-- There is a pixel, the rows do not overlap, and the last one ends within `size` bytes. -/
def Fits (r : Rows) (size : Nat) : Prop :=
  0 < r.width ∧ 0 < r.height ∧ 4 * r.width ≤ r.stride ∧
    (r.height - 1) * r.stride + 4 * r.width ≤ size

instance (r : Rows) (size : Nat) : Decidable (r.Fits size) :=
  inferInstanceAs (Decidable (_ ∧ _ ∧ _ ∧ _))

/-- Refuses rows that do not fit `size` bytes. A product or sum that is no size is refused too. -/
def check (r : Rows) (size : Nat) : Edit Unit := do
  Edit.require .invalidStride (0 < r.width ∧ 0 < r.height)
  let row ← Edit.expect .invalidStride (Size.mul? r.width 4)
  Edit.require .invalidStride (row ≤ r.stride)
  let above ← Edit.sure (Size.sub r.height 1)
  let offset ← Edit.expect .invalidStride (Size.mul? above r.stride)
  let extent ← Edit.expect .invalidStride (Size.add? offset row)
  Edit.require .invalidStride (extent ≤ size)

end Rows

namespace Edit

/-- Exchanges channels in every pixel of the rows. -/
def swapRows (r : Rows) : Edit Unit := do
  r.check (← size)
  let t ← tier
  let row ← sure (Size.mul r.width 4)
  eachPiece r.stride r.height (focus 0 row t.swap)

/-- Writes the exchanged pixels of the rows of `source`, which begin at a distance of
`sourceStride`, over the rows of the view. The source is checked first. -/
def swapRowsFrom (source : Bytes) (sourceStride : Nat) (r : Rows) : Edit Unit := do
  Rows.check { r with stride := sourceStride } source.length
  r.check (← size)
  let t ← tier
  let row ← sure (Size.mul r.width 4)
  eachPair sourceStride r.stride r.height source fun piece => do
    let part ← slice piece 0 row
    focus 0 row (t.swapFrom part)

end Edit

end RedBlue
