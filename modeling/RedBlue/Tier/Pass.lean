import RedBlue.Bytes.Chunks
import RedBlue.Edit.Basic
import RedBlue.Register.Shuffle
import RedBlue.Register.Word

/-! # One pass of one tier

A pass exchanges channels in the whole blocks of a tier at the start of the view and answers how
many bytes that were. A pass whose hardware is absent does nothing and answers 0. -/

namespace RedBlue

open Edit

/-- The two things that a tier does. Each answers how many bytes it handled. -/
structure Pass where
  /-- Exchanges channels in the view. -/
  inPlace : Edit Nat
  /-- Writes the exchanged bytes of another buffer over the view. -/
  copy : Bytes → Edit Nat

namespace Pass

/-- One group after another, as words. -/
def words : Pass where
  inPlace := do
    let done ← sure (Size.mul ((← size) / 4) 4)
    rewrite (Bytes.mapChunks 4 Word.exchangeGroup)
    return done
  copy source := do
    let count := Bytes.commonChunks 4 source (← view)
    rewrite (Bytes.copyChunks 4 Word.exchangeGroup source)
    sure (Size.mul count 4)

/-- One register after another, in whole blocks. A register is as long as the mask. -/
def shuffles (mask : Bytes) (block : Nat) : Pass where
  inPlace := do
    let stop ← sure (Size.whole (← size) block)
    focus 0 stop (rewrite (Bytes.mapChunks mask.length (Register.shuffle mask)))
    return stop
  copy source := do
    let stop ← sure (Size.whole (min source.length (← size)) block)
    let part ← slice source 0 stop
    focus 0 stop (rewrite (Bytes.copyChunks mask.length (Register.shuffle mask) part))
    return stop

/-- The pass on hardware that runs it, and elsewhere one that does nothing. -/
def onlyIf (present : Hardware → Bool) (p : Pass) : Pass where
  inPlace := do if present (← hardware) then p.inPlace else return 0
  copy source := do if present (← hardware) then p.copy source else return 0

theorem exec_onlyIf_inPlace (hw : Hardware) (present : Hardware → Bool) (p : Pass)
    (w : Workspace) :
    exec hw (p.onlyIf present).inPlace w =
      if present hw then exec hw p.inPlace w else (.ok 0, w) := by
  rw [onlyIf, exec_bind, exec_hardware]
  dsimp only
  split <;> rfl

theorem exec_onlyIf_copy (hw : Hardware) (present : Hardware → Bool) (p : Pass) (source : Bytes)
    (w : Workspace) :
    exec hw ((p.onlyIf present).copy source) w =
      if present hw then exec hw (p.copy source) w else (.ok 0, w) := by
  rw [onlyIf, exec_bind, exec_hardware]
  dsimp only
  split <;> rfl

end Pass

namespace Tier

/-- How a tier works where its hardware is present. -/
def method : Tier → Pass
  | scalar4 => Pass.words
  | vector16 => Pass.shuffles Register.laneMask vector16.block
  | vector128 => Pass.shuffles Register.twoLaneMask vector128.block
  | vector256 => Pass.shuffles Register.twoLaneMask vector256.block

def pass (t : Tier) : Pass := t.method.onlyIf (·.runs t)

end Tier

end RedBlue
