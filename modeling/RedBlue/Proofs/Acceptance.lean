import RedBlue.Proofs.Regions
import RedBlue.Proofs.Rows

/-! # Which geometries are accepted

The checks compute with sizes, and a sum or product that is no size is refused. That refuses
nothing that fits and lets nothing pass that does not, as natural numbers judge it. So a swap ends
well or with a refusal, and never with a fault. -/

namespace RedBlue

theorem Region.not_fits_iff (r : Region) (size : Nat) :
    ¬r.Fits size ↔
      r.stop < r.start ∨ size < r.stop ∨ size < r.dest + (r.stop - r.start) := by
  rw [Fits, not_and_or, not_and_or, Nat.not_le, Nat.not_le, Nat.not_le]

theorem Rows.not_fits_iff (r : Rows) (size : Nat) :
    ¬r.Fits size ↔
      r.width = 0 ∨ r.height = 0 ∨ r.stride < 4 * r.width ∨
        size < (r.height - 1) * r.stride + 4 * r.width := by
  rw [Fits, not_and_or, not_and_or, not_and_or, Nat.pos_iff_ne_zero, Nat.pos_iff_ne_zero, not_not,
    not_not, Nat.not_le, Nat.not_le]

namespace Edit

theorem swapRegion_outcome (hw : Hardware) (r : Region) {w : Workspace}
    (hlen : w.view.length < Size.limit) :
    (exec hw (swapRegion r) w).1 =
      if ¬r.Fits w.view.length then .error (.size .outOfBounds) else .ok () := by
  split
  · rw [exec_swapRegion_of_not_fits hw ‹_›]
  · rw [exec_swapRegion_of_fits hw (not_not.mp ‹_›) hlen]

theorem swapRows_outcome (hw : Hardware) (r : Rows) {w : Workspace}
    (hlen : w.view.length < Size.limit) :
    (exec hw (swapRows r) w).1 =
      if ¬r.Fits w.view.length then .error (.size .invalidStride) else .ok () := by
  split
  · rw [exec_swapRows_of_not_fits hw ‹_›]
  · rw [exec_swapRows_of_fits hw (not_not.mp ‹_›) hlen]

theorem swapRowsFrom_outcome (hw : Hardware) {source : Bytes} (sourceStride : Nat) (r : Rows)
    {w : Workspace} (hslen : source.length < Size.limit) (hlen : w.view.length < Size.limit) :
    (exec hw (swapRowsFrom source sourceStride r) w).1 =
      if ¬{ r with stride := sourceStride }.Fits source.length ∨ ¬r.Fits w.view.length then
        .error (.size .invalidStride)
      else .ok () := by
  split
  · rw [exec_swapRowsFrom_of_not_fits hw hslen (not_and_or.mpr ‹_›)]
  · obtain ⟨hs, h⟩ := not_or.mp ‹_›
    rw [exec_swapRowsFrom_of_fits hw (not_not.mp hs) (not_not.mp h) hslen hlen]

/-- A region is refused exactly if it or its destination is no range of the buffer; rows are
refused exactly if there are none, if they overlap or if they reach past a buffer. Nothing else is
answered, for any numbers. -/
theorem outcome_of_geometry (hw : Hardware) (w : Workspace) (hlen : w.view.length < Size.limit) :
    (∀ r : Region, (exec hw (swapRegion r) w).1 =
      if r.stop < r.start ∨ w.view.length < r.stop ∨
          w.view.length < r.dest + (r.stop - r.start) then
        .error (.size .outOfBounds)
      else .ok ()) ∧
    (∀ r : Rows, (exec hw (swapRows r) w).1 =
      if r.width = 0 ∨ r.height = 0 ∨ r.stride < 4 * r.width ∨
          w.view.length < (r.height - 1) * r.stride + 4 * r.width then
        .error (.size .invalidStride)
      else .ok ()) ∧
    ∀ (source : Bytes) (sourceStride : Nat) (r : Rows), source.length < Size.limit →
      (exec hw (swapRowsFrom source sourceStride r) w).1 =
        if (r.width = 0 ∨ r.height = 0 ∨ sourceStride < 4 * r.width ∨
              source.length < (r.height - 1) * sourceStride + 4 * r.width) ∨
            (r.width = 0 ∨ r.height = 0 ∨ r.stride < 4 * r.width ∨
              w.view.length < (r.height - 1) * r.stride + 4 * r.width) then
          .error (.size .invalidStride)
        else .ok () := by
  refine ⟨fun r => ?_, fun r => ?_, fun source sourceStride r hslen => ?_⟩
  · simp only [swapRegion_outcome hw r hlen, Region.not_fits_iff]
  · simp only [swapRows_outcome hw r hlen, Rows.not_fits_iff]
  · simp only [swapRowsFrom_outcome hw sourceStride r hslen hlen, Rows.not_fits_iff]

theorem outcome_of_geometry_near_the_limit :
    (List.replicate 28 (0 : UInt8)).length < Size.limit ∧
      (exec ⟨true, true⟩ (swapRegion ⟨0, 3, Size.limit - 1⟩)
        ⟨.start, List.replicate 28 0⟩).1 = .error (.size .outOfBounds) ∧
      (exec ⟨true, true⟩ (swapRows ⟨Size.limit / 4, 1, Size.limit - 1⟩)
        ⟨.start, List.replicate 28 0⟩).1 = .error (.size .invalidStride) ∧
      (exec ⟨true, true⟩ (swapRows ⟨2, 3, 10⟩) ⟨.start, List.replicate 28 0⟩).1 = .ok () ∧
      (List.replicate 16 (1 : UInt8)).length < Size.limit ∧
      (exec ⟨true, true⟩ (swapRowsFrom (List.replicate 16 1) 12 ⟨1, 2, Size.limit - 1⟩)
        ⟨.start, List.replicate 28 0⟩).1 = .error (.size .invalidStride) := by
  obtain ⟨hregion, hrows, hfrom⟩ :=
    outcome_of_geometry ⟨true, true⟩ ⟨.start, List.replicate 28 0⟩ (by decide)
  refine ⟨by decide, ?_, ?_, ?_, by decide, ?_⟩
  · rw [hregion, if_pos (by decide)]
  · rw [hrows, if_pos (by decide)]
  · rw [hrows, if_neg (by decide)]
  · rw [hfrom _ _ _ (by decide), if_pos (by decide)]

/-! ## Nothing goes wrong on the way

A fault ends an edit, so an edit that ends without one has met none: each range it took was one,
no piece was empty, and each sum, difference and product was a size. -/

variable {α : Type} {act : Edit α}

/-- The edit ends without a fault on all hardware, whatever the process remembers and whatever is
in view. -/
def FaultFree (act : Edit α) : Prop :=
  ∀ (hw : Hardware) (w : Workspace) (f : Fault), w.view.length < Size.limit →
    (exec hw act w).1 ≠ .error (.fault f)

/-- A fault in the first part of an edit is the fault of the whole. -/
theorem FaultFree.of_bind {β : Type} {next : α → Edit β} (h : FaultFree (act >>= next)) :
    FaultFree act := by
  intro hw w f hlen hfault
  exact h hw w f hlen (congrArg Prod.fst (exec_bind_error (Prod.ext hfault rfl)))

theorem FaultFree.of_ok {a : α} (h : ∀ (hw : Hardware) (w : Workspace),
    w.view.length < Size.limit → (exec hw act w).1 = .ok a) : FaultFree act := by
  intro hw w f hlen hfault
  rw [h hw w hlen] at hfault
  cases hfault

theorem FaultFree.of_refuses {a : α} {e : GeometryError} {p : Nat → Prop} [DecidablePred p]
    (h : ∀ (hw : Hardware) (w : Workspace), w.view.length < Size.limit →
      (exec hw act w).1 = if p w.view.length then .error (.size e) else .ok a) : FaultFree act := by
  intro hw w f hlen hfault
  rw [h hw w hlen] at hfault
  split at hfault <;> cases hfault

theorem faultFree_swap : FaultFree swap :=
  .of_ok fun hw w hlen => by rw [exec_swap_eq hw hlen]

theorem faultFree_tierSwap (t : Tier) : FaultFree t.swap :=
  .of_ok fun hw w hlen => by rw [t.exec_swap hw hlen]

theorem faultFree_swapFrom (source : Bytes) : FaultFree (swapFrom source) :=
  .of_ok fun hw w hlen => by
    rw [exec_swapFrom_eq hw rfl ((Nat.min_le_right _ _).trans_lt hlen)]

theorem faultFree_tierSwapFrom (t : Tier) (source : Bytes) : FaultFree (t.swapFrom source) :=
  .of_ok fun hw w hlen => by
    rw [t.exec_swapFrom hw rfl ((Nat.min_le_right _ _).trans_lt hlen)]

theorem faultFree_swapRegion (r : Region) : FaultFree (swapRegion r) :=
  .of_refuses (p := fun size => ¬r.Fits size) fun hw _ hlen => swapRegion_outcome hw r hlen

theorem faultFree_swapRows (r : Rows) : FaultFree (swapRows r) :=
  .of_refuses (p := fun size => ¬r.Fits size) fun hw _ hlen => swapRows_outcome hw r hlen

theorem faultFree_swapRowsFrom {source : Bytes} (sourceStride : Nat) (r : Rows)
    (hslen : source.length < Size.limit) : FaultFree (swapRowsFrom source sourceStride r) :=
  .of_refuses
    (p := fun size => ¬{ r with stride := sourceStride }.Fits source.length ∨ ¬r.Fits size)
    fun hw _ hlen => swapRowsFrom_outcome hw sourceStride r hslen hlen

/-- No swap ends in a fault, for any ranges, sides, strides and offsets. -/
theorem swaps_faultFree {source : Bytes} (hslen : source.length < Size.limit) :
    FaultFree swap ∧ (∀ t : Tier, FaultFree t.swap) ∧ FaultFree (swapFrom source) ∧
      (∀ t : Tier, FaultFree (t.swapFrom source)) ∧ (∀ r : Region, FaultFree (swapRegion r)) ∧
      (∀ r : Rows, FaultFree (swapRows r)) ∧
      ∀ (sourceStride : Nat) (r : Rows), FaultFree (swapRowsFrom source sourceStride r) :=
  ⟨faultFree_swap, faultFree_tierSwap, faultFree_swapFrom source,
    fun t => faultFree_tierSwapFrom t source, faultFree_swapRegion, faultFree_swapRows,
    fun sourceStride r => faultFree_swapRowsFrom sourceStride r hslen⟩

theorem swaps_faultFree_largest_arguments :
    (List.replicate 19 (1 : UInt8)).length < Size.limit ∧
      (List.replicate 28 (0 : UInt8)).length < Size.limit ∧
      ∀ f : Fault,
        (exec ⟨true, false⟩ swap ⟨.start, List.replicate 28 0⟩).1 ≠ .error (.fault f) ∧
        (exec ⟨true, false⟩ (Tier.swap .vector256) ⟨.start, List.replicate 28 0⟩).1 ≠
          .error (.fault f) ∧
        (exec ⟨true, false⟩ (swapFrom (List.replicate 19 1)) ⟨.start, List.replicate 28 0⟩).1 ≠
          .error (.fault f) ∧
        (exec ⟨true, false⟩ (Tier.swapFrom .vector128 (List.replicate 19 1))
          ⟨.start, List.replicate 28 0⟩).1 ≠ .error (.fault f) ∧
        (exec ⟨true, false⟩ (swapRegion ⟨Size.limit - 1, 0, Size.limit - 1⟩)
          ⟨.start, List.replicate 28 0⟩).1 ≠ .error (.fault f) ∧
        (exec ⟨true, false⟩ (swapRows ⟨Size.limit - 1, Size.limit - 1, Size.limit - 1⟩)
          ⟨.start, List.replicate 28 0⟩).1 ≠ .error (.fault f) ∧
        (exec ⟨true, false⟩
          (swapRowsFrom (List.replicate 19 1) (Size.limit - 1) ⟨4, 1, Size.limit - 1⟩)
          ⟨.start, List.replicate 28 0⟩).1 ≠ .error (.fault f) := by
  have hslen : (List.replicate 19 (1 : UInt8)).length < Size.limit := by decide
  have hlen : (List.replicate 28 (0 : UInt8)).length < Size.limit := by decide
  obtain ⟨hswap, htier, hfrom, htierFrom, hregion, hrows, hrowsFrom⟩ := swaps_faultFree hslen
  exact ⟨hslen, hlen, fun f => ⟨hswap _ _ f hlen, htier _ _ _ f hlen, hfrom _ _ f hlen,
    htierFrom _ _ _ f hlen, hregion _ _ _ f hlen, hrows _ _ _ f hlen, hrowsFrom _ _ _ _ f hlen⟩⟩

/-- A step that takes a range past the end does end in a fault. -/
example : (exec .full (focus 3 9 swap) ⟨.start, [1, 2, 3, 4, 5]⟩).1 =
    .error (.fault (.slice 3 9 5)) := by
  decide +kernel

end Edit

end RedBlue
