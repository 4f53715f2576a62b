import RedBlue.Bytes.Basic

/-! # Shuffling a register

A shuffle fills each byte of a register from the register's old contents, as a mask says. It
never crosses the border between two lanes of sixteen bytes. -/

namespace RedBlue.Register

def lane : Nat := 16

/-- Byte `i` of the result is the byte of `register` in the lane of `i` that the low four bits of
the mask's byte `i` name, or 0 if that byte's top bit is set. -/
def shuffle (mask register : Bytes) : Bytes :=
  mask.mapIdx fun i m =>
    if m < 128 then register.getD (lane * (i / lane) + (m &&& 15).toNat) 0 else 0

def laneMask : Bytes := [2, 1, 0, 3, 6, 5, 4, 7, 10, 9, 8, 11, 14, 13, 12, 15]

/-- The mask for a register of two lanes is the mask of a lane, twice. -/
def twoLaneMask : Bytes := laneMask ++ laneMask

@[simp] theorem length_laneMask : laneMask.length = 16 := rfl

end RedBlue.Register
