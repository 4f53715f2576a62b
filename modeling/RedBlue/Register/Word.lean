import RedBlue.Bytes.Basic

/-! # Exchanging channels in a 32-bit word

Four bytes are loaded as one word, lowest address in the lowest bits. Two masks and a rotation
by half the word then exchange the first and the third byte. -/

namespace RedBlue.Word

/-- The word held by four bytes; other lengths hold 0. -/
def load : Bytes → UInt32
  | [b₀, b₁, b₂, b₃] =>
    b₀.toUInt32 ||| (b₁.toUInt32 <<< 8) ||| (b₂.toUInt32 <<< 16) ||| (b₃.toUInt32 <<< 24)
  | _ => 0

def store (v : UInt32) : Bytes :=
  [v.toUInt8, (v >>> 8).toUInt8, (v >>> 16).toUInt8, (v >>> 24).toUInt8]

def rotateHalf (v : UInt32) : UInt32 := (v <<< 16) ||| (v >>> 16)

/-- Keeps the second and the fourth byte and takes the others from the rotated word. -/
def exchange (v : UInt32) : UInt32 := (v &&& 0xFF00FF00) ||| (rotateHalf v &&& 0x00FF00FF)

def exchangeGroup (group : Bytes) : Bytes := store (exchange (load group))

end RedBlue.Word
