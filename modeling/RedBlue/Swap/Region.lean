import RedBlue.Swap.Contiguous

/-! # Regions of one buffer

Swapping one region of a buffer into another one of the same buffer. Where the two overlap, the
result is as if the source had been read in full before the first byte is written. -/

namespace RedBlue

/-- A region of a buffer, and the offset at which its exchanged groups go. -/
structure Region where
  start : Nat
  stop : Nat
  dest : Nat
deriving DecidableEq

/-- The region and its destination lie within `size` bytes. -/
def Region.Fits (r : Region) (size : Nat) : Prop :=
  r.start ≤ r.stop ∧ r.stop ≤ size ∧ r.dest + (r.stop - r.start) ≤ size

instance (r : Region) (size : Nat) : Decidable (r.Fits size) :=
  inferInstanceAs (Decidable (_ ∧ _ ∧ _))

namespace Edit

/-- Writes the exchanged groups of the `n` bytes at `start` to `dest`. Two places that do not
overlap are used as they are; otherwise the bytes are moved first. -/
def swapAcross (start dest n : Nat) : Edit Unit := do
  if start = dest then
    focus dest (← sure (Size.add dest n)) swap
  else
    let stop ← sure (Size.add start n)
    if stop ≤ dest then
      focusFrom dest fun before => do
        let source ← slice before start stop
        focus 0 n (swapFrom source)
    else
      let landing ← sure (Size.add dest n)
      if landing ≤ start then
        focusBefore start fun after => do
          let source ← slice after 0 n
          focus dest landing (swapFrom source)
      else
        move start stop dest
        focus dest landing swap

/-- Writes the exchanged complete groups of a region to its destination. The region and its
destination have to lie within the view, also if they hold no complete group. -/
def swapRegion (r : Region) : Edit Unit := do
  let len ← size
  require .outOfBounds (r.start ≤ r.stop ∧ r.stop ≤ len)
  let count ← sure (Size.sub r.stop r.start)
  let landing ← expect .outOfBounds (Size.add? r.dest count)
  require .outOfBounds (landing ≤ len)
  let n ← sure (Size.whole count 4)
  if n = 0 then return ()
  else swapAcross r.start r.dest n

end Edit

end RedBlue
