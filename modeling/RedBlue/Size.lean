import RedBlue.Failure

/-! # Sizes

Lengths, offsets and strides are natural numbers below `Size.limit`. `add?` and `mul?` give
`none` where a caller is told so; `add`, `sub` and `mul` are for sums that have to fit. -/

namespace RedBlue.Size

/-- One more than the largest size: sizes have 64 bits. -/
def limit : Nat := 18446744073709551616

def add? (m n : Nat) : Option Nat := if m + n < limit then some (m + n) else none

def mul? (m n : Nat) : Option Nat := if m * n < limit then some (m * n) else none

def add (m n : Nat) : Except Fault Nat := if m + n < limit then .ok (m + n) else .error .overflow

def sub (m n : Nat) : Except Fault Nat := if n ≤ m then .ok (m - n) else .error .overflow

def mul (m n : Nat) : Except Fault Nat := if m * n < limit then .ok (m * n) else .error .overflow

/-- The length of the whole blocks at the start of `size` bytes. -/
def whole (size block : Nat) : Except Fault Nat := sub size (size % block)

theorem add_of_lt {m n : Nat} (h : m + n < limit) : add m n = .ok (m + n) := if_pos h

theorem sub_of_le {m n : Nat} (h : n ≤ m) : sub m n = .ok (m - n) := if_pos h

theorem mul_of_lt {m n : Nat} (h : m * n < limit) : mul m n = .ok (m * n) := if_pos h

@[simp] theorem whole_eq (size block : Nat) : whole size block = .ok (size - size % block) :=
  sub_of_le (Nat.mod_le size block)

end RedBlue.Size
