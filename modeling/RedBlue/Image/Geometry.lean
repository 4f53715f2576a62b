import RedBlue.Size

/-! # Image geometry

The width, height and stride of an image, in pixels. A geometry can be made without knowing how
many pixels there are; whether there are enough is asked when its rows are visited. -/

namespace RedBlue

/-- One more than the largest width or height. -/
def sideLimit : Nat := 4294967296

/-- The sides of an image, and the pixels from the start of one row to the start of the next. -/
structure Geometry where
  width : Nat
  height : Nat
  stride : Nat
  stride_pos : 0 < stride
  width_le : width ≤ stride
  width_lt : width < sideLimit
  height_lt : height < sideLimit
deriving DecidableEq

namespace Geometry

/-- Makes a geometry. A refusal names the sides as 32-bit numbers, and no lengths: no pixel has
been looked at. -/
def make (width height stride : Nat) : Except Refusal Geometry :=
  if h : 0 < stride ∧ width ≤ stride ∧ width < sideLimit ∧ height < sideLimit then
    .ok ⟨width, height, stride, h.1, h.2.1, h.2.2.1, h.2.2.2⟩
  else
    .error
      { stride := stride
        width := width % sideLimit
        height := height % sideLimit
        length := 0
        needed := 0 }

/-- The number of pixels up to the end of the last row. -/
def span (g : Geometry) : Nat :=
  if g.width = 0 ∨ g.height = 0 then 0 else g.stride * (g.height - 1) + g.width

def span? (g : Geometry) : Option Nat :=
  if g.width = 0 ∨ g.height = 0 then some 0
  else (Size.mul? g.stride (g.height - 1)).bind fun above => Size.add? above g.width

/-- The refusal of a geometry whose rows need more pixels than there are. -/
def refusal (g : Geometry) (length needed : Nat) : Refusal :=
  { stride := g.stride, width := g.width, height := g.height, length := length, needed := needed }

/-- The number of pixels up to the end of the last row, refused unless `length` pixels reach that
far. A number that is no size is reported as the largest one. -/
def rowsWithin (g : Geometry) (length : Nat) : Except Refusal Nat :=
  match g.span? with
  | some n => if n ≤ length then .ok n else .error (g.refusal length n)
  | none => .error (g.refusal length (Size.limit - 1))

/-- The checked number of pixels is the exact one whenever that is a size. -/
theorem span?_eq (g : Geometry) :
    g.span? = if g.span < Size.limit then some g.span else none := by
  by_cases h : g.width = 0 ∨ g.height = 0
  · simp [span?, span, h, Size.limit]
  · by_cases hm : g.stride * (g.height - 1) < Size.limit
    · simp [span?, span, h, Size.mul?, Size.add?, hm]
    · have hs : ¬g.stride * (g.height - 1) + g.width < Size.limit := by omega
      simp [span?, span, h, Size.mul?, hm, hs]

/-- Rows are found within exactly the lengths that reach their exact end. -/
theorem rowsWithin_eq_ok_iff {g : Geometry} {length n : Nat} (h : length < Size.limit) :
    g.rowsWithin length = .ok n ↔ n = g.span ∧ g.span ≤ length := by
  rw [rowsWithin, span?_eq]
  by_cases hs : g.span < Size.limit
  · by_cases hl : g.span ≤ length
    · simp [hs, hl, eq_comm]
    · simp [hs, hl]
  · have hl : ¬g.span ≤ length := by omega
    simp [hs, hl]

/-- Making a geometry again from its own numbers gives it back. -/
theorem make_self (g : Geometry) : make g.width g.height g.stride = .ok g :=
  dif_pos ⟨g.stride_pos, g.width_le, g.width_lt, g.height_lt⟩

end Geometry

end RedBlue
