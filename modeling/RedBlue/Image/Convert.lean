import RedBlue.Edit.Pieces
import RedBlue.Image.Geometry
import RedBlue.Pixel.Convert

/-! # Converting images

An image is converted row by row. The tier is asked for once, before the rows are found to lie
within the image's pixels or not; padding keeps its memory. -/

namespace RedBlue

structure Image where
  geometry : Geometry
  order : ChannelOrder
  pixels : List Pixel
deriving DecidableEq

def Image.memory (i : Image) : Bytes := i.order.encode i.pixels

namespace Edit

/-- Converts the image in view, which has the given geometry and is in the order `o`. The result
is made anew from the same numbers. -/
def convertImage (o : ChannelOrder) (g : Geometry) : Edit Image := do
  let t ← tier
  let span ← layout (g.rowsWithin ((← size) / 4))
  focus 0 (4 * span) (eachPiece (4 * g.stride) g.height (focus 0 (4 * g.width) t.swap))
  let converted ← pixels o.other
  let geometry ← layout (Geometry.make g.width g.height g.stride)
  return ⟨geometry, o.other, converted⟩

/-- Writes an image over the one in view, in the other order. The sides are compared before the
pixels of either are counted, and the source is counted first. -/
def convertImageFrom (source : Image) (g : Geometry) : Edit Unit := do
  require .dimensionMismatch
    (source.geometry.width = g.width ∧ source.geometry.height = g.height)
  let t ← tier
  let sourceSpan ← layout (source.geometry.rowsWithin source.pixels.length)
  let span ← layout (g.rowsWithin ((← size) / 4))
  let memory ← slice source.memory 0 (4 * sourceSpan)
  focus 0 (4 * span)
    (eachPair (4 * source.geometry.stride) (4 * g.stride) g.height memory fun piece => do
      let part ← slice piece 0 (4 * g.width)
      focus 0 (4 * g.width) (t.swapFrom part))

end Edit

end RedBlue
