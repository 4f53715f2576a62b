import RedBlue.Image.Convert
import RedBlue.Proofs.RowBytes

/-! # Images in memory

An image is refused before the first byte is written, or its rows are written over as rows of
bytes. An image without rows or columns has neither a byte to read nor one to write. -/

namespace RedBlue

namespace Geometry

variable {g : Geometry}

/-! ## The end of the last row -/

theorem rowsWithin_of_span_le {length : Nat} (h : g.span ≤ length) (hlen : length < Size.limit) :
    g.rowsWithin length = .ok g.span :=
  (rowsWithin_eq_ok_iff hlen).mpr ⟨rfl, h⟩

/-- The refusal names the exact number of pixels, or the largest size if that is no size. -/
theorem rowsWithin_of_lt_span {length : Nat} (h : length < g.span) :
    g.rowsWithin length = .error (g.refusal length (min g.span (Size.limit - 1))) := by
  rw [rowsWithin, span?_eq]
  by_cases hs : g.span < Size.limit
  · have hmin : min g.span (Size.limit - 1) = g.span := by omega
    rw [if_pos hs, hmin]
    exact if_neg (by omega)
  · have hmin : min g.span (Size.limit - 1) = Size.limit - 1 := by omega
    rw [if_neg hs, hmin]

theorem span_of_empty (h : g.width = 0 ∨ g.height = 0) : g.span = 0 := if_pos h

theorem span_of_not_empty (h : ¬(g.width = 0 ∨ g.height = 0)) :
    g.span = g.stride * (g.height - 1) + g.width := if_neg h

theorem four_mul_span_of_not_empty (h : ¬(g.width = 0 ∨ g.height = 0)) :
    4 * g.span = (g.height - 1) * (4 * g.stride) + 4 * g.width := by
  rw [span_of_not_empty h, Nat.mul_add, Nat.mul_comm g.stride, Nat.mul_left_comm]

theorem rowsWithin_span (h : ¬(g.width = 0 ∨ g.height = 0)) :
    Bytes.RowsWithin (4 * g.width) (4 * g.stride) g.height (4 * g.span) := by
  refine ⟨Nat.mul_le_mul_left 4 g.width_le, fun y hy => ?_⟩
  have hlast : y * (4 * g.stride) ≤ (g.height - 1) * (4 * g.stride) :=
    Nat.mul_le_mul_right _ (by omega)
  rw [four_mul_span_of_not_empty h]
  omega

theorem rowsWithin_span_of_same_sides {sg : Geometry} (hwidth : sg.width = g.width)
    (hheight : sg.height = g.height) (h : ¬(g.width = 0 ∨ g.height = 0)) :
    Bytes.RowsWithin (4 * g.width) (4 * sg.stride) g.height (4 * sg.span) := by
  rw [← hwidth, ← hheight] at h ⊢
  exact rowsWithin_span h

theorem row_le_span (h : ¬(g.width = 0 ∨ g.height = 0)) :
    0 < 4 * g.width ∧ 4 * g.width ≤ 4 * g.span := by
  rw [four_mul_span_of_not_empty h]
  omega

/-- Pixels that reach the end of the last row reach it in memory. -/
theorem four_mul_span_le_encode (o : ChannelOrder) {ps : List Pixel} (h : g.span ≤ ps.length) :
    4 * g.span ≤ (o.encode ps).length := by
  rw [ChannelOrder.length_encode]
  exact Nat.mul_le_mul_left 4 h

/-! ## Writing over the rows -/

/-- The memory of an image after the exchanged rows of another one, whose rows begin `sourceStride`
pixels apart, have been written over its own. -/
def overwrite (source : Bytes) (sourceStride : Nat) (g : Geometry) (target : Bytes) : Bytes :=
  Bytes.copyRows (4 * g.width) (4 * sourceStride) (4 * g.stride) g.height source target

theorem overwrite_of_empty (h : g.width = 0 ∨ g.height = 0) (source : Bytes) (sourceStride : Nat)
    (target : Bytes) : overwrite source sourceStride g target = target := by
  rw [overwrite]
  rcases h with h | h
  · rw [h]
    exact Bytes.copyRows_zero_row _ _ _ _ _
  · rw [h]
    rfl

/-- The source has the same sides, and both are long enough for their rows. -/
theorem rowsExchangedInto_overwrite {sg : Geometry} {source target : Bytes}
    (hwidth : sg.width = g.width) (hheight : sg.height = g.height)
    (hs : 4 * sg.span ≤ source.length) (h : 4 * g.span ≤ target.length) :
    Bytes.RowsExchangedInto (4 * g.width) g.height source (4 * sg.stride) target (4 * g.stride)
      (overwrite source sg.stride g target) := by
  by_cases hempty : g.width = 0 ∨ g.height = 0
  · rw [overwrite_of_empty hempty]
    exact .of_empty (by omega) _ _ _ _
  · have hrows := rowsWithin_span hempty
    have hsrows := rowsWithin_span_of_same_sides hwidth hheight hempty
    exact Bytes.rowsExchangedInto_copyRows (hsrows.mono hs) (hrows.mono h)

end Geometry

namespace Edit

theorem exec_eachOf_of_empty (hw : Hardware) (step count : Nat) (act : Edit Unit) {w : Workspace}
    (h : w.view.length = 0) : exec hw (eachOf step act count) w = (.ok (), w) := by
  cases count with
  | zero => rfl
  | succ count => rw [exec_eachOf_succ, if_pos h]

theorem exec_eachPairOf_of_empty (hw : Hardware) (sourceStep step count : Nat)
    (act : Bytes → Edit Unit) (source : Bytes) {w : Workspace} (h : w.view.length = 0) :
    exec hw (eachPairOf sourceStep step act count source) w = (.ok (), w) := by
  cases count with
  | zero => rfl
  | succ count => rw [exec_eachPairOf_succ, if_pos (.inr h)]

variable {g : Geometry}

/-- An edit of the pixels up to the end of the last row that copies rows there has written over the
image, and one of an empty part has nothing to write. -/
theorem exec_focus_span {hw : Hardware} {act : Edit Unit} {sg : Geometry} {source : Bytes}
    {w : Workspace} (hwidth : sg.width = g.width) (hheight : sg.height = g.height)
    (hs : 4 * sg.span ≤ source.length) (h : 4 * g.span ≤ w.view.length)
    (hnone : exec hw act ⟨w.selection, []⟩ = (.ok (), ⟨w.selection, []⟩))
    (hact : ¬(g.width = 0 ∨ g.height = 0) →
      exec hw act ⟨w.selection, w.view.take (4 * g.span)⟩ =
        (.ok (), ⟨w.selection, Bytes.copyRows (4 * g.width) (4 * sg.stride) (4 * g.stride) g.height
          (source.take (4 * sg.span)) (w.view.take (4 * g.span))⟩)) :
    exec hw (focus 0 (4 * g.span) act) w =
      (.ok (), { w with view := g.overwrite source sg.stride w.view }) := by
  by_cases hempty : g.width = 0 ∨ g.height = 0
  · rw [Geometry.span_of_empty hempty, Geometry.overwrite_of_empty hempty,
      exec_focus_of_le le_rfl (Nat.zero_le _), Bytes.range_self, hnone]
    rfl
  · have hrows := Geometry.rowsWithin_span hempty
    have hsrows := Geometry.rowsWithin_span_of_same_sides hwidth hheight hempty
    rw [exec_focus_of_le (Nat.zero_le _) h, Bytes.range_zero, hact hempty, Bytes.splice_zero,
      Bytes.copyRows_of_prefix (Nat.dvd_mul_right 4 _) hsrows hrows hs h]
    rfl

theorem exec_imageRows (hw : Hardware) (t : Tier) {w : Workspace}
    (h : 4 * g.span ≤ w.view.length) (hlen : w.view.length < Size.limit) :
    exec hw (focus 0 (4 * g.span)
        (eachPiece (4 * g.stride) g.height (focus 0 (4 * g.width) t.swap))) w =
      (.ok (), { w with view := g.overwrite w.view g.stride w.view }) := by
  have hstride : 0 < 4 * g.stride := Nat.mul_pos (by decide) g.stride_pos
  rw [eachPiece_of_pos hstride]
  refine exec_focus_span rfl rfl h h (exec_eachOf_of_empty hw _ _ _ rfl) fun hempty => ?_
  have hrows := Geometry.rowsWithin_span hempty
  obtain ⟨hpos, hrow⟩ := Geometry.row_le_span hempty
  have hpart : (w.view.take (4 * g.span)).length = 4 * g.span := List.length_take_of_le h
  exact exec_eachOf hw t hpos (by omega) (hpart.symm ▸ hrows)

theorem exec_imageRowsFrom (hw : Hardware) (t : Tier) {sg : Geometry} {source : Bytes}
    {w : Workspace} (hwidth : sg.width = g.width) (hheight : sg.height = g.height)
    (hs : 4 * sg.span ≤ source.length) (h : 4 * g.span ≤ w.view.length)
    (hlen : w.view.length < Size.limit) :
    exec hw (focus 0 (4 * g.span)
        (eachPair (4 * sg.stride) (4 * g.stride) g.height (source.take (4 * sg.span)) fun piece => do
          let part ← slice piece 0 (4 * g.width)
          focus 0 (4 * g.width) (t.swapFrom part))) w =
      (.ok (), { w with view := g.overwrite source sg.stride w.view }) := by
  have hstride : 0 < 4 * g.stride := Nat.mul_pos (by decide) g.stride_pos
  have hsstride : 0 < 4 * sg.stride := Nat.mul_pos (by decide) sg.stride_pos
  rw [eachPair_of_pos hsstride hstride]
  refine exec_focus_span hwidth hheight hs h (exec_eachPairOf_of_empty hw _ _ _ _ _ rfl)
    fun hempty => ?_
  have hrows := Geometry.rowsWithin_span hempty
  have hsrows := Geometry.rowsWithin_span_of_same_sides hwidth hheight hempty
  obtain ⟨hpos, hrow⟩ := Geometry.row_le_span hempty
  have hpart : (w.view.take (4 * g.span)).length = 4 * g.span := List.length_take_of_le h
  have hspart : (source.take (4 * sg.span)).length = 4 * sg.span := List.length_take_of_le hs
  exact exec_eachPairOf hw t (Nat.dvd_mul_right 4 g.width) hpos (by omega) (hspart.symm ▸ hsrows)
    (hpart.symm ▸ hrows)

/-! ## Converting in place -/

theorem exec_pixels (hw : Hardware) (o : ChannelOrder) {w : Workspace} (h : 4 ∣ w.view.length) :
    exec hw (pixels o) w = (.ok (o.decode w.view), w) := by
  rw [pixels, exec_bind, exec_view]
  dsimp only
  rw [o.pixels_of_dvd h, sure_ok, exec_pure]

theorem exec_pixels_of_error (hw : Hardware) {o : ChannelOrder} {w : Workspace} {f : Fault}
    (h : o.pixels w.view = .error f) : exec hw (pixels o) w = (.error (.fault f), w) := by
  rw [pixels, exec_bind, exec_view]
  dsimp only
  rw [h, sure_error, exec_fail]

theorem exec_convertImage_of_lt_span (hw : Hardware) (o : ChannelOrder) {w : Workspace}
    (h : w.view.length / 4 < g.span) :
    exec hw (convertImage o g) w =
      (.error (.layout (g.refusal (w.view.length / 4) (min g.span (Size.limit - 1)))),
        { w with selection := (w.selection.choose hw).2 }) := by
  rw [convertImage, exec_bind_ok (exec_tier hw w), exec_bind, exec_size]
  dsimp only
  rw [Geometry.rowsWithin_of_lt_span h, layout_error]
  exact exec_bind_error rfl

theorem exec_convertImage_of_span_le (hw : Hardware) (o : ChannelOrder) {w : Workspace}
    (hdvd : 4 ∣ w.view.length) (hlen : w.view.length < Size.limit)
    (h : g.span ≤ w.view.length / 4) :
    exec hw (convertImage o g) w =
      (.ok ⟨g, o.other, o.other.decode (g.overwrite w.view g.stride w.view)⟩,
        ⟨(w.selection.choose hw).2, g.overwrite w.view g.stride w.view⟩) := by
  have hspan : 4 * g.span ≤ w.view.length := by omega
  have hlength := (Geometry.rowsExchangedInto_overwrite rfl rfl hspan hspan).length_eq
  have hrows := exec_imageRows hw (w.selection.choose hw).1
    (w := ⟨(w.selection.choose hw).2, w.view⟩) hspan hlen
  rw [convertImage, exec_bind_ok (exec_tier hw w), exec_bind, exec_size]
  dsimp only
  rw [Geometry.rowsWithin_of_span_le h (by omega), layout_ok, pure_bind, exec_bind_ok hrows,
    exec_bind_ok (exec_pixels hw o.other (hlength.symm ▸ hdvd)), Geometry.make_self, layout_ok,
    pure_bind, exec_pure]

/-! ## Converting into another image -/

theorem exec_convertImageFrom_of_other_sides (hw : Hardware) {source : Image} {w : Workspace}
    (h : ¬(source.geometry.width = g.width ∧ source.geometry.height = g.height)) :
    exec hw (convertImageFrom source g) w = (.error (.size .dimensionMismatch), w) := by
  rw [convertImageFrom, require_of_false h]
  exact exec_bind_error rfl

theorem exec_convertImageFrom_of_source_lt_span (hw : Hardware) {source : Image} {w : Workspace}
    (hsides : source.geometry.width = g.width ∧ source.geometry.height = g.height)
    (h : source.pixels.length < source.geometry.span) :
    exec hw (convertImageFrom source g) w =
      (.error (.layout (source.geometry.refusal source.pixels.length
          (min source.geometry.span (Size.limit - 1)))),
        { w with selection := (w.selection.choose hw).2 }) := by
  rw [convertImageFrom, require_of_true hsides, pure_bind, exec_bind_ok (exec_tier hw w),
    Geometry.rowsWithin_of_lt_span h, layout_error]
  exact exec_bind_error rfl

theorem exec_convertImageFrom_of_lt_span (hw : Hardware) {source : Image} {w : Workspace}
    (hsides : source.geometry.width = g.width ∧ source.geometry.height = g.height)
    (hs : source.geometry.span ≤ source.pixels.length)
    (hslen : source.pixels.length < Size.limit) (h : w.view.length / 4 < g.span) :
    exec hw (convertImageFrom source g) w =
      (.error (.layout (g.refusal (w.view.length / 4) (min g.span (Size.limit - 1)))),
        { w with selection := (w.selection.choose hw).2 }) := by
  rw [convertImageFrom, require_of_true hsides, pure_bind, exec_bind_ok (exec_tier hw w),
    Geometry.rowsWithin_of_span_le hs hslen, layout_ok, pure_bind, exec_bind, exec_size]
  dsimp only
  rw [Geometry.rowsWithin_of_lt_span h, layout_error]
  exact exec_bind_error rfl

theorem exec_convertImageFrom_of_span_le (hw : Hardware) {source : Image} {w : Workspace}
    (hsides : source.geometry.width = g.width ∧ source.geometry.height = g.height)
    (hs : source.geometry.span ≤ source.pixels.length)
    (hslen : source.pixels.length < Size.limit) (h : g.span ≤ w.view.length / 4)
    (hlen : w.view.length < Size.limit) :
    exec hw (convertImageFrom source g) w =
      (.ok (), ⟨(w.selection.choose hw).2,
        g.overwrite source.memory source.geometry.stride w.view⟩) := by
  have hspan : 4 * g.span ≤ w.view.length := by omega
  have hmemory : 4 * source.geometry.span ≤ source.memory.length :=
    Geometry.four_mul_span_le_encode source.order hs
  rw [convertImageFrom, require_of_true hsides, pure_bind, exec_bind_ok (exec_tier hw w),
    Geometry.rowsWithin_of_span_le hs hslen, layout_ok, pure_bind, exec_bind, exec_size]
  dsimp only
  rw [Geometry.rowsWithin_of_span_le h (by omega), layout_ok, pure_bind,
    slice_of_le (Nat.zero_le _) hmemory, pure_bind, Bytes.range_zero]
  exact exec_imageRowsFrom hw _ hsides.1 hsides.2 hmemory hspan hlen

end Edit

end RedBlue
