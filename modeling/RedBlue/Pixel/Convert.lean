import RedBlue.Pixel.Basic
import RedBlue.Swap.Contiguous

/-! # Converting pixels

Converting keeps every channel and changes the order in memory. In place, the same bytes are
read in the other order afterwards. -/

namespace RedBlue.Edit

/-- Reads the view as pixels, of which it has to hold a whole number. -/
def pixels (o : ChannelOrder) : Edit (List Pixel) := do sure (o.pixels (← view))

/-- Converts the pixels in view, which are in the order `o`, to the other order. -/
def convert (o : ChannelOrder) : Edit (List Pixel) := do
  swap
  pixels o.other

/-- Writes some pixels, which are in the order `o`, over the view in the other order. -/
def convertFrom (o : ChannelOrder) (source : List Pixel) : Edit Unit := swapFrom (o.encode source)

end RedBlue.Edit
