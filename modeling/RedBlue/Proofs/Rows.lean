import RedBlue.Proofs.Chains
import RedBlue.Swap.Rows

/-! # One row after another

A loop over pieces of a buffer works on the rows of a picture, if every row ends within it. -/

namespace RedBlue

namespace Bytes

/-- Writes the exchanged first `row` bytes of each of the first `count` rows of `source` over the
start of the row of `target` at the same place. -/
def copyRows (row sourceStride stride : Nat) : Nat → Bytes → Bytes → Bytes
  | 0, _, target => target
  | count + 1, source, target =>
    exchangeOver row (source.take sourceStride) (target.take stride) ++
      copyRows row sourceStride stride count (source.drop sourceStride) (target.drop stride)

/-- Rows of `row` bytes at a distance of `stride` do not overlap, and the first `count` of them end
within `size` bytes. -/
structure RowsWithin (row stride count size : Nat) : Prop where
  row_le : row ≤ stride
  ends : ∀ y < count, y * stride + row ≤ size

theorem RowsWithin.first {row stride count size : Nat}
    (h : RowsWithin row stride (count + 1) size) : row ≤ min stride size := by
  have hfirst := h.ends 0 (Nat.succ_pos count)
  rw [Nat.zero_mul, Nat.zero_add] at hfirst
  exact Nat.le_min.mpr ⟨h.row_le, hfirst⟩

theorem RowsWithin.next {row stride count size : Nat}
    (h : RowsWithin row stride (count + 1) size) : RowsWithin row stride count (size - stride) := by
  refine ⟨h.row_le, ?_⟩
  intro y hy
  have hend := h.ends (y + 1) (Nat.succ_lt_succ hy)
  rw [Nat.succ_mul] at hend
  omega

theorem RowsWithin.row_le_take {row stride count : Nat} {b : Bytes}
    (h : RowsWithin row stride (count + 1) b.length) : row ≤ (b.take stride).length := by
  rw [List.length_take]
  exact h.first

theorem RowsWithin.drop {row stride count : Nat} {b : Bytes}
    (h : RowsWithin row stride (count + 1) b.length) :
    RowsWithin row stride count (b.drop stride).length := by
  rw [List.length_drop]
  exact h.next

end Bytes

namespace Edit

/-! ## One row -/

theorem exec_row (hw : Hardware) (t : Tier) {w : Workspace} {row : Nat}
    (hview : row ≤ w.view.length) (hlimit : row < Size.limit) :
    exec hw (focus 0 row t.swap) w =
      (.ok (), { w with view := Bytes.exchangeOver row w.view w.view }) := by
  have hpart : (w.view.range 0 row).length = row := Bytes.length_range hview
  have hswap := t.exec_swap hw (w := ⟨w.selection, w.view.range 0 row⟩) (hpart.trans_lt hlimit)
  rw [exec_focus_of_le (Nat.zero_le row) hview, hswap, Bytes.exchangeOver_eq_splice]

theorem exec_rowFrom (hw : Hardware) (t : Tier) {piece : Bytes} {w : Workspace} {row : Nat}
    (hrow : 4 ∣ row) (hpiece : row ≤ piece.length) (hview : row ≤ w.view.length)
    (hlimit : row < Size.limit) :
    exec hw (do
        let part ← slice piece 0 row
        focus 0 row (t.swapFrom part)) w =
      (.ok (), { w with view := Bytes.exchangeOver row piece w.view }) := by
  have hpart : (piece.range 0 row).length = row := Bytes.length_range hpiece
  have hother : (w.view.range 0 row).length = row := Bytes.length_range hview
  have hcommon : min (piece.range 0 row).length (w.view.range 0 row).length = row := by
    rw [hpart, hother, Nat.min_self]
  have hwhole : row - row % 4 = row := by omega
  have hswap := t.exec_swapFrom hw (w := ⟨w.selection, w.view.range 0 row⟩) hcommon hlimit
  rw [slice_of_le (Nat.zero_le row) hpiece, pure_bind, exec_focus_of_le (Nat.zero_le row) hview,
    hswap, hwhole, Bytes.exchangeOver_of_length_le hpart.le hother.le,
    Bytes.exchangeOver_eq_splice]

/-! ## All rows -/

theorem exec_eachOf (hw : Hardware) (t : Tier) {row stride count : Nat} {w : Workspace}
    (hpos : 0 < row) (hlimit : row < Size.limit)
    (h : Bytes.RowsWithin row stride count w.view.length) :
    exec hw (eachOf stride (focus 0 row t.swap) count) w =
      (.ok (), { w with view := Bytes.copyRows row stride stride count w.view w.view }) := by
  induction count generalizing w with
  | zero => rfl
  | succ count ih =>
      have hpiece := h.row_le_take
      -- The loop ends early only at an empty view, which has no room for this row.
      have hview : w.view.length ≠ 0 := by
        have hfirst := h.first
        omega
      have hrow := exec_row hw t (w := ⟨w.selection, w.view.take stride⟩) hpiece hlimit
      have hlength := Bytes.length_exchangeOver hpiece hpiece
      have hrest := ih (w := ⟨w.selection, w.view.drop stride⟩) h.drop
      rw [List.length_take] at hlength
      rw [exec_eachOf_succ, if_neg hview]
      refine exec_focus_beside (s := w.selection) (Nat.min_le_right _ _) ?_ hlength ?_
      · rw [← List.take_eq_take_min, hrow]
      · rw [← List.drop_eq_drop_min, hrest]

theorem exec_eachPairOf (hw : Hardware) (t : Tier) {row sourceStride stride count : Nat}
    {source : Bytes} {w : Workspace} (hdvd : 4 ∣ row) (hpos : 0 < row) (hlimit : row < Size.limit)
    (hs : Bytes.RowsWithin row sourceStride count source.length)
    (h : Bytes.RowsWithin row stride count w.view.length) :
    exec hw (eachPairOf sourceStride stride
        (fun piece => do
          let part ← slice piece 0 row
          focus 0 row (t.swapFrom part)) count source) w =
      (.ok (), { w with view := Bytes.copyRows row sourceStride stride count source w.view }) := by
  induction count generalizing source w with
  | zero => rfl
  | succ count ih =>
      have hpiece := h.row_le_take
      have hother := hs.row_le_take
      have hsome : ¬(source.length = 0 ∨ w.view.length = 0) := by
        have hfirst := h.first
        have hsfirst := hs.first
        omega
      have hrow := exec_rowFrom hw t (w := ⟨w.selection, w.view.take stride⟩) hdvd hother hpiece
        hlimit
      have hlength := Bytes.length_exchangeOver hother hpiece
      have hrest := ih (w := ⟨w.selection, w.view.drop stride⟩) hs.drop h.drop
      rw [List.length_take] at hlength
      rw [exec_eachPairOf_succ, if_neg hsome]
      refine exec_focus_beside (s := w.selection) (Nat.min_le_right _ _) ?_ hlength ?_
      · rw [← List.take_eq_take_min, hrow]
      · rw [← List.drop_eq_drop_min, hrest]

end Edit

namespace Rows

/-! ## The checks -/

open Edit

theorem Fits.rowsWithin {r : Rows} {size : Nat} (h : r.Fits size) :
    Bytes.RowsWithin (4 * r.width) r.stride r.height size := by
  obtain ⟨-, -, hstride, hextent⟩ := h
  refine ⟨hstride, ?_⟩
  intro y hy
  have hlast : y * r.stride ≤ (r.height - 1) * r.stride := Nat.mul_le_mul_right _ (by omega)
  omega

theorem Fits.row_lt {r : Rows} {size : Nat} (h : r.Fits size) (hsize : size < Size.limit) :
    r.width * 4 < Size.limit := by
  obtain ⟨-, -, -, hextent⟩ := h
  omega

/-- Rows that fit pass: no product or sum on the way is past the last one, which is a size. -/
theorem exec_check_of_fits (hw : Hardware) {r : Rows} {size : Nat} (h : r.Fits size)
    (hsize : size < Size.limit) (w : Workspace) : exec hw (r.check size) w = (.ok (), w) := by
  obtain ⟨hwidth, hheight, hstride, hextent⟩ := h
  rw [Nat.mul_comm 4] at hstride hextent
  have hrow : r.width * 4 < Size.limit := by omega
  have habove : (r.height - 1) * r.stride < Size.limit := by omega
  have hsum : (r.height - 1) * r.stride + r.width * 4 < Size.limit := by omega
  rw [check, require_of_true ⟨hwidth, hheight⟩, pure_bind, expect_mul?_of_lt hrow, pure_bind,
    require_of_true hstride, pure_bind, Size.sub_of_le hheight, sure_ok, pure_bind,
    expect_mul?_of_lt habove, pure_bind, expect_add?_of_lt hsum, pure_bind,
    require_of_true hextent, exec_pure]

/-- Rows that do not fit are refused at the first step that shows it, which may be one whose result
is no size. -/
theorem exec_check_of_not_fits (hw : Hardware) {r : Rows} {size : Nat} (h : ¬r.Fits size)
    (w : Workspace) : exec hw (r.check size) w = (.error (.size .invalidStride), w) := by
  rw [check]
  by_cases hsides : 0 < r.width ∧ 0 < r.height
  · rw [require_of_true hsides, pure_bind]
    by_cases hrow : r.width * 4 < Size.limit
    · rw [expect_mul?_of_lt hrow, pure_bind]
      by_cases hstride : r.width * 4 ≤ r.stride
      · rw [require_of_true hstride, pure_bind, Size.sub_of_le hsides.2, sure_ok, pure_bind]
        by_cases habove : (r.height - 1) * r.stride < Size.limit
        · rw [expect_mul?_of_lt habove, pure_bind]
          by_cases hsum : (r.height - 1) * r.stride + r.width * 4 < Size.limit
          · have hpast : ¬(r.height - 1) * r.stride + r.width * 4 ≤ size := by
              intro hle
              rw [Nat.mul_comm r.width] at hstride hle
              exact h ⟨hsides.1, hsides.2, hstride, hle⟩
            rw [expect_add?_of_lt hsum, pure_bind, require_of_false hpast, exec_fail]
          · rw [expect_add?_of_not_lt hsum]
            exact exec_bind_error rfl
        · rw [expect_mul?_of_not_lt habove]
          exact exec_bind_error rfl
      · rw [require_of_false hstride]
        exact exec_bind_error rfl
    · rw [expect_mul?_of_not_lt hrow]
      exact exec_bind_error rfl
  · rw [require_of_false hsides]
    exact exec_bind_error rfl

end Rows

namespace Edit

/-! ## Whole pictures -/

theorem exec_swapRows_of_fits (hw : Hardware) {r : Rows} {w : Workspace}
    (h : r.Fits w.view.length) (hlen : w.view.length < Size.limit) :
    exec hw (swapRows r) w =
      (.ok (), ⟨(w.selection.choose hw).2,
        Bytes.copyRows (4 * r.width) r.stride r.stride r.height w.view w.view⟩) := by
  have hlimit := h.row_lt hlen
  have hpos : 0 < r.width * 4 := Nat.mul_pos h.1 (by decide)
  have hrows := h.rowsWithin
  rw [Nat.mul_comm 4] at hrows ⊢
  have hstride : 0 < r.stride := hpos.trans_le hrows.row_le
  rw [swapRows, exec_bind, exec_size]
  dsimp only
  rw [exec_bind_ok (Rows.exec_check_of_fits hw h hlen w), exec_bind_ok (exec_tier hw w),
    Size.mul_of_lt hlimit, sure_ok, pure_bind, eachPiece_of_pos hstride]
  exact exec_eachOf hw _ hpos hlimit hrows

theorem exec_swapRows_of_not_fits (hw : Hardware) {r : Rows} {w : Workspace}
    (h : ¬r.Fits w.view.length) :
    exec hw (swapRows r) w = (.error (.size .invalidStride), w) := by
  rw [swapRows, exec_bind, exec_size]
  exact exec_bind_error (Rows.exec_check_of_not_fits hw h w)

theorem exec_swapRowsFrom_of_fits (hw : Hardware) {source : Bytes} {sourceStride : Nat}
    {r : Rows} {w : Workspace} (hs : { r with stride := sourceStride }.Fits source.length)
    (h : r.Fits w.view.length) (hslen : source.length < Size.limit)
    (hlen : w.view.length < Size.limit) :
    exec hw (swapRowsFrom source sourceStride r) w =
      (.ok (), ⟨(w.selection.choose hw).2,
        Bytes.copyRows (4 * r.width) sourceStride r.stride r.height source w.view⟩) := by
  have hlimit := h.row_lt hlen
  have hdvd : 4 ∣ r.width * 4 := Nat.dvd_mul_left 4 r.width
  have hpos : 0 < r.width * 4 := Nat.mul_pos h.1 (by decide)
  have hrows := h.rowsWithin
  have hsrows := hs.rowsWithin
  rw [Nat.mul_comm 4] at hrows hsrows ⊢
  have hstride : 0 < r.stride := hpos.trans_le hrows.row_le
  have hsstride : 0 < sourceStride := hpos.trans_le hsrows.row_le
  rw [swapRowsFrom, exec_bind_ok (Rows.exec_check_of_fits hw hs hslen w), exec_bind, exec_size]
  dsimp only
  rw [exec_bind_ok (Rows.exec_check_of_fits hw h hlen w), exec_bind_ok (exec_tier hw w),
    Size.mul_of_lt hlimit, sure_ok, pure_bind, eachPair_of_pos hsstride hstride]
  exact exec_eachPairOf hw _ hdvd hpos hlimit hsrows hrows

theorem exec_swapRowsFrom_of_not_fits (hw : Hardware) {source : Bytes} {sourceStride : Nat}
    {r : Rows} {w : Workspace} (hslen : source.length < Size.limit)
    (h : ¬({ r with stride := sourceStride }.Fits source.length ∧ r.Fits w.view.length)) :
    exec hw (swapRowsFrom source sourceStride r) w = (.error (.size .invalidStride), w) := by
  rw [swapRowsFrom]
  by_cases hs : { r with stride := sourceStride }.Fits source.length
  · have hview : ¬r.Fits w.view.length := fun hfits => h ⟨hs, hfits⟩
    rw [exec_bind_ok (Rows.exec_check_of_fits hw hs hslen w), exec_bind, exec_size]
    exact exec_bind_error (Rows.exec_check_of_not_fits hw hview w)
  · exact exec_bind_error (Rows.exec_check_of_not_fits hw hs w)

end Edit

end RedBlue
