import RedBlue.Proofs.Agreement
import RedBlue.Proofs.Rows

/-! # What a caller sees

A caller sees how an edit ends and which bytes it leaves. For every swap that is a function of the
bytes it was given, so two swaps can be compared, or done one after the other, as functions of
bytes. -/

namespace RedBlue.Edit

variable {α : Type}

/-- How an edit of the bytes `b` ends, and the bytes that it leaves. -/
def effect (hw : Hardware) (s : Selection) (act : Edit α) (b : Bytes) : Except Failure α × Bytes :=
  ((exec hw act ⟨s, b⟩).1, (exec hw act ⟨s, b⟩).2.view)

theorem effect_of_exec {hw : Hardware} {s s' : Selection} {act : Edit α} {b b' : Bytes}
    {r : Except Failure α} (h : exec hw act ⟨s, b⟩ = (r, ⟨s', b'⟩)) :
    effect hw s act b = (r, b') := by
  rw [effect, h]

variable (hw : Hardware) (s : Selection) {b : Bytes}

theorem Performs.effect_eq {f : Bytes → Bytes} {act : Edit Unit} (h : Performs f act)
    (hb : b.length < Size.limit) :
    effect hw s act b = (.ok (), f b) := by
  obtain ⟨s', hrun⟩ := h hw s b hb
  exact effect_of_exec hrun

/-- An edit of a part leaves the bytes around it. -/
theorem effect_focus (act : Edit α) {start stop : Nat} (h : start ≤ stop)
    (hs : stop ≤ b.length) :
    effect hw s (focus start stop act) b =
      ((effect hw s act (b.range start stop)).1,
        b.splice start stop (effect hw s act (b.range start stop)).2) := by
  rw [effect, exec_focus_of_le h hs]
  rfl

/-! ## Contiguous bytes -/

/-- A copy of all of a buffer over itself is a swap in place. -/
theorem copied_self (b : Bytes) : copied b b = b.exchange := by
  rw [copied, Nat.min_self, Bytes.exchangeOver_whole]

/-- A swap of the first `n` bytes leaves the others. -/
theorem effect_focus_swap {n : Nat} (hn : n ≤ b.length) (hb : b.length < Size.limit) :
    effect hw s (focus 0 n swap) b = (.ok (), Bytes.exchangeOver n b b) := by
  have hend : 0 + n ≤ b.length := (Nat.zero_add n).trans_le hn
  have hrun := exec_focus_swap hw (w := ⟨s, b⟩) hend hb
  rw [Nat.zero_add, ← Bytes.exchangeOver_eq_splice] at hrun
  exact effect_of_exec hrun

/-! ## Regions and rows -/

theorem effect_swapRegion (r : Region) (hb : b.length < Size.limit) :
    effect hw s (swapRegion r) b =
      if r.Fits b.length then
        (.ok (), b.splice r.dest (r.dest + r.wholeLength)
          (b.range r.start (r.start + r.wholeLength)).exchange)
      else (.error (.size .outOfBounds), b) := by
  split
  · exact effect_of_exec (exec_swapRegion_of_fits hw (w := ⟨s, b⟩) ‹_› hb)
  · exact effect_of_exec (exec_swapRegion_of_not_fits hw (w := ⟨s, b⟩) ‹_›)

theorem effect_swapRows (r : Rows) (hb : b.length < Size.limit) :
    effect hw s (swapRows r) b =
      if r.Fits b.length then
        (.ok (), Bytes.copyRows (4 * r.width) r.stride r.stride r.height b b)
      else (.error (.size .invalidStride), b) := by
  split
  · exact effect_of_exec (exec_swapRows_of_fits hw (w := ⟨s, b⟩) ‹_› hb)
  · exact effect_of_exec (exec_swapRows_of_not_fits hw (w := ⟨s, b⟩) ‹_›)

theorem effect_swapRowsFrom {source : Bytes} (sourceStride : Nat) (r : Rows)
    (hslen : source.length < Size.limit) (hb : b.length < Size.limit) :
    effect hw s (swapRowsFrom source sourceStride r) b =
      if { r with stride := sourceStride }.Fits source.length ∧ r.Fits b.length then
        (.ok (), Bytes.copyRows (4 * r.width) sourceStride r.stride r.height source b)
      else (.error (.size .invalidStride), b) := by
  split
  · rename_i hfits
    exact effect_of_exec (exec_swapRowsFrom_of_fits hw (w := ⟨s, b⟩) hfits.1 hfits.2 hslen hb)
  · exact effect_of_exec (exec_swapRowsFrom_of_not_fits hw (w := ⟨s, b⟩) hslen ‹_›)

end RedBlue.Edit
