/-! # Failures

A call ends in one of three ways other than its result: the geometry it was given does not fit
its buffers, an image's layout is refused, or a step of the library itself goes wrong (`Fault`).
The first two are answers a caller can get; that the third never happens is for a theorem to
say, and to be able to say it every range, chunk size and sum is checked where it is used. -/

namespace RedBlue

/-- A geometry that does not fit the buffers it is for. -/
inductive GeometryError where
  /-- A source range or a destination reaches past the end of the buffer. -/
  | outOfBounds
  /-- A side is zero, the rows overlap, or the rows reach past the end of a buffer. -/
  | invalidStride
  | dimensionMismatch
deriving DecidableEq

def GeometryError.message : GeometryError → String
  | outOfBounds => "range is out of bounds for the buffer"
  | invalidStride => "invalid stride for image geometry"
  | dimensionMismatch => "source and destination dimensions differ"

/-- A refused image layout, all sizes in pixels. -/
structure Refusal where
  stride : Nat
  width : Nat
  height : Nat
  /-- The length of the image's buffer. -/
  length : Nat
  /-- The least length that would do. -/
  needed : Nat
deriving DecidableEq

def Refusal.message (r : Refusal) : String :=
  "Invalid ImgRef params. Got stride=" ++ toString r.stride ++ " for " ++ toString r.width ++ "×" ++
    toString r.height ++ "; len=" ++ toString r.length ++ " (needed " ++ toString r.needed ++ ")"

/-- A step that cannot be carried out. -/
inductive Fault where
  /-- The range from `start` up to `stop` is no range of `size` bytes. -/
  | slice (start stop size : Nat)
  /-- The result of a sum, difference or product is no size. -/
  | overflow
  /-- A buffer is cut into chunks of no bytes. -/
  | emptyChunk
  /-- A buffer of this many bytes does not hold whole pixels. -/
  | cutPixel (size : Nat)
  | noBuffer (index : Nat)
deriving DecidableEq

def Fault.message : Fault → String
  | slice start stop size =>
    "no range from " ++ toString start ++ " to " ++ toString stop ++ " in " ++ toString size ++
      " bytes"
  | overflow => "a size does not fit 64 bits"
  | emptyChunk => "chunks of no bytes"
  | cutPixel size => toString size ++ " bytes are no whole number of pixels"
  | noBuffer index => "no buffer " ++ toString index

/-- Why a call ends without its result. -/
inductive Failure where
  | size (e : GeometryError)
  | layout (r : Refusal)
  | fault (f : Fault)
deriving DecidableEq

def Failure.message : Failure → String
  | size e => e.message
  | layout r => r.message
  | fault f => f.message

end RedBlue
