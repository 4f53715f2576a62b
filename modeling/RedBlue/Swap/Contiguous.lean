import RedBlue.Tier.Chain

/-! # Contiguous buffers

Swapping with the tier of the process. Less than one group is left alone before the tier is asked
for, so such a call does not settle it. -/

namespace RedBlue.Edit

/-- Exchanges channels in every complete group of the view. -/
def swap : Edit Unit := do
  if (← size) < 4 then return ()
  else
    let t ← tier
    t.swap

/-- Writes the exchanged groups of `source` over the view. -/
def swapFrom (source : Bytes) : Edit Unit := do
  if min source.length (← size) < 4 then return ()
  else
    let t ← tier
    t.swapFrom source

theorem exec_swap (hw : Hardware) (w : Workspace) :
    exec hw swap w =
      if w.view.length < 4 then (.ok (), w)
      else exec hw (w.selection.choose hw).1.swap
        { w with selection := (w.selection.choose hw).2 } := by
  rw [swap, exec_bind, exec_size]
  dsimp only
  split <;> rfl

theorem exec_swapFrom (hw : Hardware) (source : Bytes) (w : Workspace) :
    exec hw (swapFrom source) w =
      if min source.length w.view.length < 4 then (.ok (), w)
      else exec hw ((w.selection.choose hw).1.swapFrom source)
        { w with selection := (w.selection.choose hw).2 } := by
  rw [swapFrom, exec_bind, exec_size]
  dsimp only
  split <;> rfl

end RedBlue.Edit
