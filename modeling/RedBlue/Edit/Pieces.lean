import RedBlue.Edit.Basic

/-! # Edits of one piece after another

The view, or the view and another list of bytes beside it, is cut into pieces of a fixed size.
Unlike a whole chunk, the last piece may be shorter. -/

namespace RedBlue.Edit

/-- Runs an edit on each of the first `count` pieces of `step` bytes. -/
def eachOf (step : Nat) (act : Edit Unit) : Nat → Edit Unit
  | 0 => pure ()
  | count + 1 => do
    let stop ← size
    if stop = 0 then pure ()
    else
      focus 0 (min step stop) act
      focus (min step stop) stop (eachOf step act count)

/-- Runs an edit on each of the first `count` pieces of `step` bytes. Pieces have to hold a
byte. -/
def eachPiece (step count : Nat) (act : Edit Unit) : Edit Unit :=
  if step = 0 then fail (.fault .emptyChunk) else eachOf step act count

/-- Runs an edit on each of the first `count` pieces of `step` bytes, beside the piece of
`sourceStep` bytes at the same place in `source`, as long as there are both. -/
def eachPairOf (sourceStep step : Nat) (act : Bytes → Edit Unit) : Nat → Bytes → Edit Unit
  | 0, _ => pure ()
  | count + 1, source => do
    let stop ← size
    if source.length = 0 ∨ stop = 0 then pure ()
    else
      focus 0 (min step stop) (act (source.take sourceStep))
      focus (min step stop) stop
        (eachPairOf sourceStep step act count (source.drop sourceStep))

/-- Runs an edit on each of the first `count` pairs of pieces of `source` and of the view. Pieces
have to hold a byte. -/
def eachPair (sourceStep step count : Nat) (source : Bytes) (act : Bytes → Edit Unit) :
    Edit Unit :=
  if sourceStep = 0 ∨ step = 0 then fail (.fault .emptyChunk)
  else eachPairOf sourceStep step act count source

@[simp] theorem eachOf_zero (step : Nat) (act : Edit Unit) : eachOf step act 0 = pure () := rfl

theorem exec_eachOf_succ (hw : Hardware) (step count : Nat) (act : Edit Unit) (w : Workspace) :
    exec hw (eachOf step act (count + 1)) w =
      if w.view.length = 0 then (.ok (), w)
      else
        exec hw (do
          focus 0 (min step w.view.length) act
          focus (min step w.view.length) w.view.length (eachOf step act count)) w := by
  rw [eachOf, exec_bind, exec_size]
  dsimp only
  split <;> rfl

theorem eachPiece_of_pos {step : Nat} (h : 0 < step) (count : Nat) (act : Edit Unit) :
    eachPiece step count act = eachOf step act count := if_neg (by omega)

@[simp] theorem eachPairOf_zero (sourceStep step : Nat) (act : Bytes → Edit Unit)
    (source : Bytes) : eachPairOf sourceStep step act 0 source = pure () := rfl

theorem exec_eachPairOf_succ (hw : Hardware) (sourceStep step count : Nat)
    (act : Bytes → Edit Unit) (source : Bytes) (w : Workspace) :
    exec hw (eachPairOf sourceStep step act (count + 1) source) w =
      if source.length = 0 ∨ w.view.length = 0 then (.ok (), w)
      else
        exec hw (do
          focus 0 (min step w.view.length) (act (source.take sourceStep))
          focus (min step w.view.length) w.view.length
            (eachPairOf sourceStep step act count (source.drop sourceStep))) w := by
  rw [eachPairOf, exec_bind, exec_size]
  dsimp only
  split <;> rfl

theorem eachPair_of_pos {sourceStep step : Nat} (hs : 0 < sourceStep) (h : 0 < step)
    (count : Nat) (source : Bytes) (act : Bytes → Edit Unit) :
    eachPair sourceStep step count source act = eachPairOf sourceStep step act count source :=
  if_neg (by omega)

end RedBlue.Edit
