import RedBlue.Image.Convert
import RedBlue.Swap.Region
import RedBlue.Swap.Rows

/-! # Calls

What a caller can ask of the library, as data: a change of one buffer, a copy from one buffer to
another, or a question about tiers. -/

namespace RedBlue

/-- A buffer, or the bytes from a start up to a stop within it. -/
structure Place where
  buffer : Nat
  range : Option (Nat × Nat)
deriving DecidableEq

/-- The numbers that a caller gives for an image: its sides, its stride unless that is the width,
and the number of pixels before its first one. -/
structure Frame where
  width : Nat
  height : Nat
  stride : Option Nat
  offset : Nat
deriving DecidableEq

def Frame.geometry (f : Frame) : Except Refusal Geometry :=
  Geometry.make f.width f.height (f.stride.getD f.width)

inductive Change where
  /-- Swapping, with a tier of the caller's choice or with the tier of the process. -/
  | swap (tier : Option Tier)
  | region (r : Region)
  | rows (r : Rows)
  | pixels (o : ChannelOrder)
  | image (o : ChannelOrder) (f : Frame)
deriving DecidableEq

inductive Copy where
  /-- Swapping, with a tier of the caller's choice or with the tier of the process. -/
  | swap (tier : Option Tier)
  | rows (sourceStride : Nat) (r : Rows)
  | pixels (o : ChannelOrder)
  | image (o : ChannelOrder) (source target : Frame)
deriving DecidableEq

inductive Call where
  | change (c : Change) (target : Place)
  | copy (c : Copy) (source target : Place)
  /-- Which tiers does the hardware offer? -/
  | offered
  /-- Which tier does the process use? -/
  | chosen
deriving DecidableEq

/-- The places that a call takes for slices of pixels, and the order of the channels in each. -/
def Call.pixelPlaces : Call → List (ChannelOrder × Place)
  | change (.pixels o) target | change (.image o _) target => [(o, target)]
  | copy (.pixels o) source target | copy (.image o _ _) source target =>
    [(o, source), (o.other, target)]
  | _ => []

/-- The result of a call that succeeds, buffers apart. -/
inductive Reply where
  | done
  | pixels (ps : List Pixel)
  | image (i : Image)
  | offered (s : TierSet)
  | chosen (t : Tier)
deriving DecidableEq

/-- Narrows an edit of a whole buffer to a place in it. -/
def Place.focus {α : Type} (p : Place) (act : Edit α) : Edit α :=
  match p.range with
  | none => act
  | some (start, stop) => Edit.focus start stop act

open Edit

/-- A change as an edit of its place. A slice or an image of pixels is one only if its bytes are
whole pixels, and that is found out before anything else is done. -/
def Change.edit : Change → Edit Reply
  | swap (some t) => do
    t.swap
    return .done
  | swap none => do
    Edit.swap
    return .done
  | region r => do
    swapRegion r
    return .done
  | rows r => do
    swapRows r
    return .done
  | pixels o => do
    let _ ← Edit.pixels o
    let ps ← convert o
    return .pixels ps
  | image o f => do
    let _ ← Edit.pixels o
    let g ← layout f.geometry
    let i ← Edit.focus (4 * f.offset) (← size) (convertImage o g)
    return .image i

/-- A copy as an edit of the place it writes, given the bytes of the place it reads. Of two places
that have to be whole pixels, the one it reads comes first. -/
def Copy.edit (source : Bytes) : Copy → Edit Reply
  | swap (some t) => do
    t.swapFrom source
    return .done
  | swap none => do
    Edit.swapFrom source
    return .done
  | rows sourceStride r => do
    swapRowsFrom source sourceStride r
    return .done
  | pixels o => do
    let ps ← sure (o.pixels source)
    let _ ← Edit.pixels o.other
    convertFrom o ps
    return .done
  | image o sourceFrame frame => do
    let ps ← sure (o.pixels source)
    let _ ← Edit.pixels o.other
    let sourceGeometry ← layout sourceFrame.geometry
    let g ← layout frame.geometry
    let image := ⟨sourceGeometry, o, ps.drop sourceFrame.offset⟩
    Edit.focus (4 * frame.offset) (← size) (convertImageFrom image g)
    return .done

end RedBlue
